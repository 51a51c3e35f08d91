import BellasReef.ControlEngine.Forget
import BellasReef.Support.Lists
import Mathlib.Data.Finset.Dedup

/-!
# ControlEngine — Recovery

Whether a light that hardware-io has put in its safe state comes back under the slew.

Two processes remember one duty.  The engine's memory is `Engine`; hardware-io has the light
itself.  They are joined by `BR_CMD`, which keeps a command until it is applied or expires, and by
the states that hardware-io publishes, which the engine hears only if both are connected.  When
hardware-io starts, or trips, the engine's memory is wrong until it hears of it; `_on_actuator_state`
then forgets the channel, and the next intent starts from dark.

`from_dark`: the first unexpired command that is no snap hold and is then applied to the channel
was decided on no history from before, if the engine hears of the safe state before it decides,
nothing decided earlier waits, and the first command published after it is applied before it
expires.  Nothing in the code makes it so: `not_from_dark`.

Left out are latches, an untrusted clock and driver faults, for which hardware-io refuses a
command or sends it back.
-/

namespace BellasReef.ControlEngine
open BellasReef.Contracts BellasReef.Support

variable {ι R T B : Type}

/-! ### The two services and the broker -/

/-- `DEFAULT_COMMAND_TTL_S`. -/
def defaultCommandTtlS : ℚ := 30

/-- `build_pwm_command`. -/
def buildPwmCommand (i : Intent ι) (now : ℚ) : ActuatorCommand ι ℚ where
  actuatorId := i.channelId
  level := i.duty
  emittedAt := now
  expiresAt := now + defaultCommandTtlS
  expires_after := by simp [defaultCommandTtlS]

/-- A command on `BR_CMD`, with how it was decided. -/
structure Decided (ι : Type) where
  command : ActuatorCommand ι ℚ
  /-- It is a snap hold's. -/
  snap : Bool
  /-- What the scheduler remembered of the channel when the tick began. -/
  memory : Memory
  /-- `Notes.known` of the channel then. -/
  known : ℕ

/-- A registered channel, as far as a level is concerned. -/
structure Channel (ι : Type) where
  actuatorId : ι
  safeState : ℚ
  effectiveLevel : ℚ → ℚ

/-- hardware-io. -/
structure Hardware (ι : Type) where
  running : Bool
  connected : Bool
  registrations : List (Channel ι)
  /-- `_publish_startup_states`: the channels it has still to publish. -/
  startup : List ι
  /-- The command consumer is subscribed. -/
  serving : Bool
  /-- `_republish_safe_states`: the channels it has still to look at. -/
  republish : List ι
  /-- Trips whose state is not published yet. -/
  tripped : List ι
  /-- `at_safe_state`. -/
  atSafe : Finset ι
  /-- Fetched and not applied yet. -/
  batch : List (Decided ι)

/-- What a reader of the run knows; no step reads it. -/
structure Notes (ι : Type) where
  /-- How often hardware-io has put the channel in its safe state on its own. -/
  wentDark : ι → ℕ
  /-- In its safe state since, with no command applied. -/
  dark : Finset ι
  /-- With no command applied since but snap holds. -/
  owed : Finset ι
  /-- `wentDark` when the engine last remembered nothing of the channel. -/
  known : ι → ℕ
  /-- What the scheduler remembered when the tick began. -/
  decidedOn : ι → Memory
  /-- `known` when the tick began. -/
  decidedKnown : ι → ℕ

/-- The engine, the broker between, and hardware-io. -/
structure Recovery (ι : Type) where
  engine : Engine ι
  /-- States that the engine's core subscription has still to hand over. -/
  inbox : List (ι × StateReason)
  /-- Published on `BR_CMD` and not delivered yet. -/
  queue : List (Decided ι)
  /-- Delivered, and neither acked nor in hardware-io's hands. -/
  unacked : List (Decided ι)
  hardware : Hardware ι
  clock : ℚ
  notes : Notes ι

/-- What the three do, and what becomes of the messages. -/
inductive RecoveryAction (ι R T B : Type) where
  /-- A step of the engine's loop, or of its assignments. -/
  | engine (a : EngineAction ι R T B)
  /-- The core subscription hands a state to `_on_actuator_state`. -/
  | hear
  /-- The engine loses its connection, and with it the states beyond the first `kept`. -/
  | engineDrop (kept : ℕ)
  | engineReconnect
  /-- hardware-io starts: every channel it builds is dark. -/
  | start (registrations : List (Channel ι))
  /-- `_publish_startup_states`, one channel. -/
  | publishStartup
  /-- `CommandConsumer.subscribe`. -/
  | subscribe
  /-- The heartbeat watcher drives a channel safe. -/
  | trip (c : ι)
  /-- `_on_safety_event` publishes the state of a trip. -/
  | publishTrip (i : ℕ)
  | hardwareDrop
  | hardwareReconnect
  /-- `_republish_safe_states`, one channel. -/
  | republish
  /-- The process ends; on the way down it publishes the safe states of `shutdown`. -/
  | stop (shutdown : List ι)
  /-- A fetch takes the next command. -/
  | deliver
  /-- A command is delivered to a connection that is lost. -/
  | lose
  /-- A command that was not acked is delivered again. -/
  | redeliver (i : ℕ)
  /-- `supervisor.apply` on the next command of the batch; its ack, or its term, gets through
  or not. -/
  | apply (acked : Bool)
  | clock (t : ℚ)

/-- The channel of a command. -/
def Decided.channelId (m : Decided ι) : ι := m.command.actuatorId

/-- It would not be refused as expired. -/
def Decided.live (m : Decided ι) (now : ℚ) : Bool := !m.command.isExpired now

/-- The commands on their way to the hardware, in the order they get there. -/
def Recovery.line (s : Recovery ι) : List (Decided ι) := s.hardware.batch ++ s.queue

/-- A state publish: the engine hears of it only if both are connected. -/
def Recovery.publishState (s : Recovery ι) (cs : List ι) (reason : StateReason) :
    List (ι × StateReason) :=
  if s.hardware.connected && s.engine.connected then s.inbox ++ cs.map (·, reason) else s.inbox

/-- The engine takes the step by itself, and a tick reads the clock. -/
def EngineAction.byItself (clock : ℚ) : EngineAction ι R T B → Bool
  | .due now _ => decide (now = clock)
  | .state _ _ | .connection _ => false
  | .next | .accept | .emitted | .emitFailed | .assignment _ | .setProfiles _ | .reset => true

/-- hardware-io before its first start. -/
def Hardware.off : Hardware ι := ⟨false, false, [], [], false, [], [], ∅, []⟩

/-- `_connect_spine`, up to the startup states. -/
def Hardware.started [DecidableEq ι] (registrations : List (Channel ι)) : Hardware ι where
  running := true
  connected := true
  registrations := registrations
  startup := registrations.map Channel.actuatorId
  serving := false
  republish := []
  tripped := []
  atSafe := (registrations.map Channel.actuatorId).toFinset
  batch := []

variable [LinearOrder ι]

/-- A snap hold's intent. -/
def Intent.isSnap (i : Intent ι) : Bool := decide (i.hold = some .snap)

/-- What the broker is given by an engine step. -/
def Recovery.sends (s : Recovery ι) : EngineAction ι R T B → List (Decided ι)
  | .accept =>
      match s.engine.emitting with
      | some ⟨i, false⟩ =>
          [⟨buildPwmCommand i s.engine.now, i.isSnap, s.notes.decidedOn i.channelId,
            s.notes.decidedKnown i.channelId⟩]
      | _ => []
  | _ => []

/-- A tick begins. -/
def Notes.begin (n : Notes ι) (e : Engine ι) : EngineAction ι R T B → Notes ι
  | .due _ _ => { n with decidedOn := e.scheduler.memory, decidedKnown := n.known }
  | _ => n

/-- hardware-io puts channels in their safe state. -/
def Notes.darken (n : Notes ι) (cs : Finset ι) : Notes ι :=
  { n with
    wentDark := fun c => if c ∈ cs then n.wentDark c + 1 else n.wentDark c
    dark := n.dark ∪ cs
    owed := n.owed ∪ cs }

/-- A command is applied. -/
def Notes.applied (n : Notes ι) (m : Decided ι) : Notes ι :=
  { n with
    dark := n.dark.erase m.channelId
    owed := if m.snap then n.owed else n.owed.erase m.channelId }

/-- `_note_level`. -/
def Hardware.noteLevel (h : Hardware ι) (c : Channel ι) (level : ℚ) : Finset ι :=
  if c.effectiveLevel level = c.safeState then insert c.actuatorId h.atSafe
  else h.atSafe.erase c.actuatorId

/-- The registered channel of a command that is not expired. -/
def Recovery.target (s : Recovery ι) (m : Decided ι) : Option (Channel ι) :=
  if m.live s.clock then
    s.hardware.registrations.find? (·.actuatorId = m.channelId)
  else none

/-- The next command of the batch is done with. -/
def Recovery.takeFirst (s : Recovery ι) (m : Decided ι) (rest : List (Decided ι)) (acked : Bool) :
    Recovery ι :=
  { s with
    hardware := { s.hardware with batch := rest }
    unacked := if acked then s.unacked else s.unacked ++ [m] }

attribute [local instance] lawfulBEq_of_linearOrder in
/-- One step of one of them. -/
def Recovery.move (s : Recovery ι) : RecoveryAction ι R T B → Option (Recovery ι)
  | .engine a =>
      if a.byItself s.clock then
        (s.engine.step a).map fun e =>
          { s with
            engine := e
            queue := s.queue ++ s.sends a
            notes := s.notes.begin s.engine a }
      else none
  | .hear =>
      match s.inbox with
      | (c, reason) :: rest =>
          (s.engine.step (.state c reason : EngineAction ι R T B)).map fun e =>
            { s with engine := e, inbox := rest }
      | [] => none
  | .engineDrop kept =>
      (s.engine.step (.connection false : EngineAction ι R T B)).map fun e =>
        { s with engine := e, inbox := s.inbox.take kept }
  | .engineReconnect =>
      (s.engine.step (.connection true : EngineAction ι R T B)).map fun e => { s with engine := e }
  | .start registrations =>
      if s.hardware.running then none
      else
        some { s with
          hardware := .started registrations
          notes := { s.notes with dark := ∅, owed := ∅ }.darken
            (registrations.map Channel.actuatorId).toFinset }
  | .publishStartup =>
      match s.hardware.startup with
      | c :: rest =>
          some { s with
            hardware := { s.hardware with startup := rest }
            inbox := s.publishState [c] .startup }
      | [] => none
  | .subscribe =>
      if s.hardware.running && s.hardware.startup.isEmpty then
        some { s with hardware := { s.hardware with serving := true } }
      else none
  | .trip c =>
      if c ∈ s.hardware.registrations.map Channel.actuatorId then
        some { s with
          hardware := { s.hardware with
            atSafe := insert c s.hardware.atSafe
            tripped := s.hardware.tripped ++ [c] }
          notes := s.notes.darken {c} }
      else none
  | .publishTrip i =>
      s.hardware.tripped[i]?.map fun c =>
        { s with
          hardware := { s.hardware with tripped := s.hardware.tripped.eraseIdx i }
          inbox := s.publishState [c] .safeState }
  | .hardwareDrop => some { s with hardware := { s.hardware with connected := false } }
  | .hardwareReconnect =>
      if s.hardware.running then
        some { s with
          hardware := { s.hardware with
            connected := true
            republish := s.hardware.republish ++
              s.hardware.registrations.map Channel.actuatorId } }
      else none
  | .republish =>
      match s.hardware.republish with
      | c :: rest =>
          some { s with
            hardware := { s.hardware with republish := rest }
            inbox :=
              if c ∈ s.hardware.atSafe then s.publishState [c] .safeState else s.inbox }
      | [] => none
  | .stop shutdown =>
      if s.hardware.running then
        some { s with
          hardware := .off
          inbox := s.publishState shutdown .safeState
          unacked := s.unacked ++ s.hardware.batch
          notes := { s.notes with dark := ∅, owed := ∅ } }
      else none
  | .deliver =>
      match s.queue with
      | m :: rest =>
          if s.hardware.serving && s.hardware.connected then
            some { s with
              queue := rest
              hardware := { s.hardware with batch := s.hardware.batch ++ [m] } }
          else none
      | [] => none
  | .lose =>
      match s.queue with
      | m :: rest => some { s with queue := rest, unacked := s.unacked ++ [m] }
      | [] => none
  | .redeliver i =>
      if s.hardware.serving && s.hardware.connected then
        s.unacked[i]?.map fun m =>
          { s with
            unacked := s.unacked.eraseIdx i
            hardware := { s.hardware with batch := s.hardware.batch ++ [m] } }
      else none
  | .apply acked =>
      match s.hardware.batch with
      | m :: rest =>
          match s.target m with
          | some c =>
              let s' := s.takeFirst m rest acked
              some { s' with
                hardware := { s'.hardware with atSafe := s.hardware.noteLevel c m.command.level }
                notes := s.notes.applied m }
          | none => some (s.takeFirst m rest acked)
      | [] => none
  | .clock t => if s.clock ≤ t then some { s with clock := t } else none

/-- What the engine remembers of a channel, or is about to: it has published a command that it
has not recorded. -/
def Engine.Remembers (e : Engine ι) (c : ι) : Prop :=
  e.scheduler.memory c ≠ .cold ∨ ∃ x ∈ e.emitting, x.accepted = true ∧ x.intent.channelId = c

instance (e : Engine ι) (c : ι) : Decidable (e.Remembers c) :=
  inferInstanceAs (Decidable (_ ∨ ∃ x ∈ e.emitting, _))

/-- What the engine remembers nothing of, it remembers nothing old of. -/
def Recovery.settle (s : Recovery ι) : Recovery ι :=
  { s with
    notes := { s.notes with
      known := fun c =>
        if s.engine.Remembers c then s.notes.known c else s.notes.wentDark c } }

/-- The engine, the broker and hardware-io. -/
def recovery (ι R T B : Type) [LinearOrder ι] :
    Machine (Recovery ι) (RecoveryAction ι R T B) where
  step := fun s a => (s.move a).map Recovery.settle

/-- The engine has just started, and hardware-io not yet. -/
def Recovery.fresh (scheduler : LightingScheduler ι) (clock : ℚ) : Recovery ι where
  engine := Engine.started scheduler
  inbox := []
  queue := []
  unacked := []
  hardware := .off
  clock := clock
  notes := ⟨fun _ => 0, ∅, ∅, fun _ => 0, fun _ => .cold, fun _ => 0⟩

/-! ### What is to hold, and when -/

/-- The command is for the channel, and unexpired. -/
def Recovery.isFor (s : Recovery ι) (c : ι) (m : Decided ι) : Bool :=
  decide (m.channelId = c) && m.live s.clock

/-- So it is, and it is no snap hold's. -/
def Recovery.isPlainFor (s : Recovery ι) (c : ι) (m : Decided ι) : Bool := s.isFor c m && !m.snap

/-- The first such command in line. -/
def Recovery.first (s : Recovery ι) (c : ι) : Option (Decided ι) := s.line.find? (s.isFor c)

/-- The first command on its way to a channel, of those that no snap hold ordered. -/
def Recovery.firstPlain (s : Recovery ι) (c : ι) : Option (Decided ι) :=
  s.line.find? (s.isPlainFor c)

/-- The first unexpired command, snap holds apart, that is applied to a channel in its safe state
was decided on no history of the channel; if snap holds were applied before it, on none from
before the safe state. -/
def FromDark (s : Recovery ι) : RecoveryAction ι R T B → Prop
  | .apply _ => ∀ m ∈ s.hardware.batch.head?, (s.target m).isSome = true → m.snap = false →
      (m.channelId ∈ s.notes.dark → m.memory = .cold) ∧
      (m.channelId ∈ s.notes.owed →
        m.memory = .cold ∨ m.known = s.notes.wentDark m.channelId)
  | _ => True

/-- Of the commands in line for the channel, the first to be applied was decided on no history. -/
def Recovery.Clear (s : Recovery ι) (line : List (Decided ι)) (c : ι) : Prop :=
  (∀ m ∈ line.find? (s.isPlainFor c), m.memory = .cold) ∧
    ∀ m ∈ s.unacked, s.isFor c m = true → m.snap = true

/-- The engine publishes a command for a channel still in its safe state, with none on its way,
only if the tick began after it heard, and before the command expires; no such command is on its
way when hardware-io puts the channel in its safe state; and the first that is on its way does
not expire, nor is it lost with the connection. -/
def Orderly (s : Recovery ι) : RecoveryAction ι R T B → Prop
  | .engine .accept => ∀ x ∈ s.engine.emitting, x.accepted = false →
      (x.intent.channelId ∈ s.notes.owed → x.intent.isSnap = false →
        (s.firstPlain x.intent.channelId).isNone = true →
        s.notes.decidedKnown x.intent.channelId = s.notes.wentDark x.intent.channelId) ∧
      (x.intent.channelId ∈ s.notes.dark → (s.first x.intent.channelId).isNone = true →
        s.clock < s.engine.now + defaultCommandTtlS)
  | .start registrations => ∀ c ∈ registrations.map Channel.actuatorId, s.Clear s.queue c
  | .trip c => s.Clear s.line c
  | .clock t => (∀ c ∈ s.notes.dark, ∀ m ∈ s.first c, m.live t = true) ∧
      ∀ c ∈ s.notes.owed, ∀ m ∈ s.firstPlain c, m.live t = true
  | .lose => ∀ m ∈ s.queue.head?, m.channelId ∈ s.notes.owed → m.live s.clock = false
  | _ => True

instance (s : Recovery ι) : (a : RecoveryAction ι R T B) → Decidable (FromDark s a)
  | .apply _ => inferInstanceAs (Decidable (∀ m ∈ s.hardware.batch.head?, _ → _ → _))
  | .engine _ | .hear | .engineDrop _ | .engineReconnect | .start _ | .publishStartup
  | .subscribe | .trip _ | .publishTrip _ | .hardwareDrop | .hardwareReconnect | .republish
  | .stop _ | .deliver | .lose | .redeliver _ | .clock _ => .isTrue trivial

instance (s : Recovery ι) (line : List (Decided ι)) (c : ι) : Decidable (s.Clear line c) :=
  inferInstanceAs (Decidable (_ ∧ ∀ m ∈ s.unacked, _))

instance (s : Recovery ι) : (a : RecoveryAction ι R T B) → Decidable (Orderly s a)
  | .engine .accept => inferInstanceAs (Decidable (∀ x ∈ s.engine.emitting, _))
  | .start registrations =>
      inferInstanceAs (Decidable (∀ c ∈ registrations.map Channel.actuatorId, s.Clear s.queue c))
  | .trip c => inferInstanceAs (Decidable (s.Clear s.line c))
  | .clock _ => inferInstanceAs (Decidable ((∀ c ∈ s.notes.dark, _) ∧ ∀ c ∈ s.notes.owed, _))
  | .lose => inferInstanceAs (Decidable (∀ m ∈ s.queue.head?, _))
  | .engine (.due _ _) | .engine .next | .engine .emitted | .engine .emitFailed
  | .engine (.state _ _) | .engine (.assignment _) | .engine (.connection _)
  | .engine (.setProfiles _) | .engine .reset | .hear | .engineDrop _ | .engineReconnect
  | .publishStartup | .subscribe | .publishTrip _ | .hardwareDrop | .hardwareReconnect
  | .republish | .stop _ | .deliver | .redeliver _ | .apply _ => .isTrue trivial

/-! ### What a step can do -/

/-- Every step, with what it changes before it settles. -/
inductive RecoveryMoves (s : Recovery ι) : RecoveryAction ι R T B → Recovery ι → Prop where
  | engine {a : EngineAction ι R T B} {e : Engine ι} (hm : EngineMoves s.engine a e) :
      RecoveryMoves s (.engine a)
        { s with
          engine := e
          queue := s.queue ++ s.sends a
          notes := s.notes.begin s.engine a }
  /-- The engine hears a state, or its connection comes or goes. -/
  | hears {a : RecoveryAction ι R T B} {b : EngineAction ι R T B} {e : Engine ι}
      (inbox : List (ι × StateReason)) (hm : EngineMoves s.engine b e)
      (hb : b ≠ .accept) :
      RecoveryMoves s a { s with engine := e, inbox := inbox }
  /-- hardware-io publishes, or its connection comes or goes. -/
  | publishes {a : RecoveryAction ι R T B} {hardware : Hardware ι}
      (inbox : List (ι × StateReason)) (hb : hardware.batch = s.hardware.batch)
      (hr : hardware.registrations = s.hardware.registrations) :
      RecoveryMoves s a { s with hardware := hardware, inbox := inbox }
  | start {registrations : List (Channel ι)} :
      RecoveryMoves s (.start registrations)
        { s with
          hardware := .started registrations
          notes := { s.notes with dark := ∅, owed := ∅ }.darken
            (registrations.map Channel.actuatorId).toFinset }
  | trip {c : ι} {atSafe : Finset ι} {tripped : List ι}
      (hc : c ∈ s.hardware.registrations.map Channel.actuatorId) :
      RecoveryMoves s (.trip c)
        { s with
          hardware := { s.hardware with atSafe := atSafe, tripped := tripped }
          notes := s.notes.darken {c} }
  | stop {shutdown : List ι} {inbox : List (ι × StateReason)} :
      RecoveryMoves s (.stop shutdown)
        { s with
          hardware := .off
          inbox := inbox
          unacked := s.unacked ++ s.hardware.batch
          notes := { s.notes with dark := ∅, owed := ∅ } }
  | deliver {m : Decided ι} {rest : List (Decided ι)} (hq : s.queue = m :: rest) :
      RecoveryMoves s .deliver
        { s with
          queue := rest
          hardware := { s.hardware with batch := s.hardware.batch ++ [m] } }
  | lose {m : Decided ι} {rest : List (Decided ι)} (hq : s.queue = m :: rest) :
      RecoveryMoves s .lose { s with queue := rest, unacked := s.unacked ++ [m] }
  | redeliver {i : ℕ} {m : Decided ι} (hi : s.unacked[i]? = some m) :
      RecoveryMoves s (.redeliver i)
        { s with
          unacked := s.unacked.eraseIdx i
          hardware := { s.hardware with batch := s.hardware.batch ++ [m] } }
  | applied {acked : Bool} {m : Decided ι} {rest : List (Decided ι)} {atSafe : Finset ι}
      (hb : s.hardware.batch = m :: rest) :
      RecoveryMoves s (.apply acked)
        { s.takeFirst m rest acked with
          hardware := { (s.takeFirst m rest acked).hardware with atSafe := atSafe }
          notes := s.notes.applied m }
  | refused {acked : Bool} {m : Decided ι} {rest : List (Decided ι)}
      (hb : s.hardware.batch = m :: rest) (ht : s.target m = none) :
      RecoveryMoves s (.apply acked) (s.takeFirst m rest acked)
  | clock {t : ℚ} (ht : s.clock ≤ t) : RecoveryMoves s (.clock t) { s with clock := t }

variable {s s' t : Recovery ι} {a : RecoveryAction ι R T B} {c : ι} {m : Decided ι}

/-- **Inversion.**  A step is one of `RecoveryMoves`, settled. -/
theorem recovery_moves (h : (recovery ι R T B).step s a = some s') :
    ∃ t, RecoveryMoves s a t ∧ s' = t.settle := by
  obtain ⟨t, hm, rfl⟩ := Option.map_eq_some_iff.mp h
  refine ⟨t, ?_, rfl⟩
  cases a with
  | engine a =>
      simp only [Recovery.move] at hm
      split at hm
      · obtain ⟨e, he, rfl⟩ := Option.map_eq_some_iff.mp hm
        exact .engine (engine_moves he)
      · cases hm
  | hear =>
      simp only [Recovery.move] at hm
      split at hm
      · obtain ⟨e, he, rfl⟩ := Option.map_eq_some_iff.mp hm
        exact .hears _ (engine_moves (a := .state _ _) he) nofun
      · cases hm
  | engineDrop kept =>
      simp only [Recovery.move] at hm
      obtain ⟨e, he, rfl⟩ := Option.map_eq_some_iff.mp hm
      exact .hears _ (engine_moves (a := .connection false) he) nofun
  | engineReconnect =>
      simp only [Recovery.move] at hm
      obtain ⟨e, he, rfl⟩ := Option.map_eq_some_iff.mp hm
      exact .hears s.inbox (engine_moves (a := .connection true) he) nofun
  | start registrations =>
      simp only [Recovery.move] at hm
      split at hm
      · cases hm
      · cases hm; exact .start
  | publishStartup =>
      simp only [Recovery.move] at hm
      split at hm
      · cases hm; exact .publishes _ rfl rfl
      · cases hm
  | subscribe =>
      simp only [Recovery.move] at hm
      split at hm
      · cases hm; exact .publishes s.inbox rfl rfl
      · cases hm
  | trip c =>
      simp only [Recovery.move] at hm
      split at hm
      · next hc => cases hm; exact .trip hc
      · cases hm
  | publishTrip i =>
      obtain ⟨c, -, rfl⟩ := Option.map_eq_some_iff.mp hm
      exact .publishes _ rfl rfl
  | hardwareDrop => cases hm; exact .publishes s.inbox rfl rfl
  | hardwareReconnect =>
      simp only [Recovery.move] at hm
      split at hm
      · cases hm; exact .publishes s.inbox rfl rfl
      · cases hm
  | republish =>
      simp only [Recovery.move] at hm
      split at hm
      · cases hm; exact .publishes _ rfl rfl
      · cases hm
  | stop shutdown =>
      simp only [Recovery.move] at hm
      split at hm
      · cases hm; exact .stop
      · cases hm
  | deliver =>
      simp only [Recovery.move] at hm
      split at hm
      · next hq =>
          split at hm
          · cases hm; exact .deliver hq
          · cases hm
      · cases hm
  | lose =>
      simp only [Recovery.move] at hm
      split at hm
      · next hq => cases hm; exact .lose hq
      · cases hm
  | redeliver i =>
      simp only [Recovery.move] at hm
      split at hm
      · obtain ⟨m, hi, rfl⟩ := Option.map_eq_some_iff.mp hm
        exact .redeliver hi
      · cases hm
  | apply acked =>
      simp only [Recovery.move] at hm
      split at hm
      · next hb =>
          split at hm
          · cases hm; exact .applied hb
          · next ht => cases hm; exact .refused hb ht
      · cases hm
  | clock t =>
      simp only [Recovery.move] at hm
      split at hm
      · next ht => cases hm; exact .clock ht
      · cases hm

/-- An engine step makes it remember no channel but that of a command the broker takes. -/
theorem remembers_of_moves {e e' : Engine ι} {b : EngineAction ι R T B}
    (hm : EngineMoves e b e') (h : e'.Remembers c) :
    e.Remembers c ∨ b = .accept ∧ ∃ i, e.emitting = some ⟨i, false⟩ ∧ i.channelId = c := by
  cases hm with
  | due now held he =>
      rcases h with h | ⟨x, hx, -⟩
      · exact .inl (.inl h)
      · have hx : e.emitting = some x := hx
        rw [he] at hx
        cases hx
  | suppress => exact .inl h
  | emit hi ha =>
      rcases h with h | ⟨x, ⟨⟩, hacc, -⟩
      · exact .inl (.inl h)
      · cases hacc
  | accept he =>
      rcases h with h | ⟨x, ⟨⟩, -, hc⟩
      · exact .inl (.inl h)
      · exact .inr ⟨rfl, _, he, hc⟩
  | @emitted i he =>
      rcases h with h | ⟨x, hx, -⟩
      · rw [LightingScheduler.memory_markEmitted] at h
        split at h
        · next hc => exact .inl (.inr ⟨_, he, rfl, hc.symm⟩)
        · exact .inl (.inl h)
      · cases hx
  | emitFailed =>
      rcases h with h | ⟨x, hx, -⟩
      · exact .inl (.inl h)
      · cases hx
  | autonomous | tombstone =>
      rcases h with h | h
      · rw [LightingScheduler.memory_forget] at h
        split at h
        · exact absurd rfl h
        · exact .inl (.inl h)
      · exact .inl (.inr h)
  | commanded | adopt | connection => exact .inl h
  | setProfiles hs =>
      rw [LightingScheduler.setProfiles] at hs
      split at hs
      · cases hs; exact .inl h
      · cases hs
  | reset =>
      rcases h with h | h
      · exact absurd (by simp [LightingScheduler.memory, LightingScheduler.reset, Memory.cold]) h
      · exact .inl (.inr h)

/-! ### The invariant -/

/-- What an orderly run keeps. -/
structure Recovering (s : Recovery ι) : Prop where
  known : ∀ c, s.notes.known c ≤ s.notes.wentDark c
  decidedKnown : ∀ c, s.notes.decidedKnown c ≤ s.notes.wentDark c
  owed : s.notes.dark ⊆ s.notes.owed
  registered : ∀ c ∈ s.notes.owed, c ∈ s.hardware.registrations.map Channel.actuatorId
  /-- Once the engine has heard of the safe state, it remembers nothing until a command is on its
  way. -/
  heard : ∀ c ∈ s.notes.dark, s.first c = none → s.notes.known c = s.notes.wentDark c →
    ¬ s.engine.Remembers c
  /-- Nor did it when the tick began, if it had heard by then. -/
  decided : ∀ c ∈ s.notes.dark, s.first c = none →
    s.notes.decidedKnown c = s.notes.wentDark c → s.notes.decidedOn c = .cold
  first : ∀ c ∈ s.notes.dark, ∀ m ∈ s.first c, m.snap = true ∨ m.memory = .cold
  plain : ∀ c ∈ s.notes.owed, ∀ m ∈ s.firstPlain c,
    m.memory = .cold ∨ m.known = s.notes.wentDark c
  unacked : ∀ c ∈ s.notes.owed, ∀ m ∈ s.unacked, s.isFor c m = true → m.snap = true

/-- A hub that starts is dark and has nothing on its way. -/
theorem recovering_fresh (scheduler : LightingScheduler ι) (clock : ℚ) :
    Recovering (Recovery.fresh scheduler clock) := by
  refine ⟨fun _ => le_rfl, fun _ => le_rfl, Finset.Subset.refl _, ?_, ?_, ?_, ?_, ?_, ?_⟩ <;>
    exact fun c hc => absurd hc (Finset.notMem_empty c)

/-- The notes stay right where the engine remembers nothing. -/
theorem Recovering.settle (h : Recovering s) : Recovering s.settle := by
  refine ⟨fun c => ?_, h.decidedKnown, h.owed, h.registered, fun c hc hf hk hr => ?_, h.decided,
    h.first, h.plain, h.unacked⟩
  · simp only [Recovery.settle]
    split
    · exact h.known c
    · exact le_rfl
  · have hr : s.engine.Remembers c := hr
    simp only [Recovery.settle, if_pos hr] at hk
    exact h.heard c hc hf hk hr

/-- A step that puts no channel in its safe state, and makes no worse command the first in line
for one that is. -/
theorem Recovering.moved (h : Recovering s) (hw : t.notes.wentDark = s.notes.wentDark)
    (hk : t.notes.known = s.notes.known) (hdk : t.notes.decidedKnown = s.notes.decidedKnown)
    (hdo : t.notes.decidedOn = s.notes.decidedOn) (hd : t.notes.dark ⊆ s.notes.dark)
    (ho : t.notes.owed ⊆ s.notes.owed) (hdark : t.notes.dark ⊆ t.notes.owed)
    (hreg : ∀ c ∈ t.notes.owed, c ∈ s.hardware.registrations.map Channel.actuatorId →
      c ∈ t.hardware.registrations.map Channel.actuatorId)
    (hr : ∀ c ∈ t.notes.dark, t.first c = none → t.engine.Remembers c → s.engine.Remembers c)
    (hf : ∀ c ∈ t.notes.dark, t.first c = s.first c ∨
      ∃ m, t.first c = some m ∧ (m.snap = true ∨ m.memory = .cold))
    (hp : ∀ c ∈ t.notes.owed, t.firstPlain c = s.firstPlain c ∨
      ∃ m, t.firstPlain c = some m ∧ (m.memory = .cold ∨ m.known = s.notes.wentDark c))
    (hu : ∀ c ∈ t.notes.owed, ∀ m ∈ t.unacked, t.isFor c m = true →
      m.snap = true ∨ m ∈ s.unacked ∧ s.isFor c m = true) : Recovering t := by
  have hnone : ∀ c ∈ t.notes.dark, t.first c = none → s.first c = none := by
    intro c hc hn
    rcases hf c hc with he | ⟨m, hm, -⟩
    · rw [← he]; exact hn
    · rw [hm] at hn; cases hn
  refine ⟨?_, ?_, hdark, fun c hc => hreg c hc (h.registered c (ho hc)), ?_, ?_, ?_, ?_, ?_⟩
  · rw [hk, hw]; exact h.known
  · rw [hdk, hw]; exact h.decidedKnown
  · intro c hc hn hkc hrem
    rw [hk, hw] at hkc
    exact h.heard c (hd hc) (hnone c hc hn) hkc (hr c hc hn hrem)
  · intro c hc hn hkc
    rw [hdk, hw] at hkc
    rw [hdo]
    exact h.decided c (hd hc) (hnone c hc hn) hkc
  · intro c hc m hm
    rcases hf c hc with he | ⟨m', hm', hgood⟩
    · exact h.first c (hd hc) m (he ▸ hm)
    · rw [Option.mem_def, hm'] at hm
      cases hm
      exact hgood
  · intro c hc m hm
    rw [hw]
    rcases hp c hc with he | ⟨m', hm', hgood⟩
    · exact h.plain c (ho hc) m (he ▸ hm)
    · rw [Option.mem_def, hm'] at hm
      cases hm
      exact hgood
  · intro c hc m hm hfor
    rcases hu c hc m hm hfor with hsnap | ⟨hm, hfor⟩
    · exact hsnap
    · exact h.unacked c (ho hc) m hm hfor

/-- hardware-io puts channels in their safe state, of those in line for which the first to be
applied was decided on no history. -/
theorem Recovering.darken (h : Recovering s) {cs dark owed : Finset ι} {hardware : Hardware ι}
    (hd : dark ⊆ s.notes.dark) (ho : owed ⊆ s.notes.owed) (hdark : dark ⊆ owed)
    (ht : t = { s with
      hardware := hardware, notes := { s.notes with dark := dark, owed := owed }.darken cs })
    (hreg : ∀ c ∈ owed ∪ cs, c ∈ hardware.registrations.map Channel.actuatorId)
    (hline : owed.Nonempty → t.line = s.line) (hclear : ∀ c ∈ cs, s.Clear t.line c) :
    Recovering t := by
  subst ht
  have hnew : ∀ c ∈ cs, s.notes.wentDark c < (s.notes.darken cs).wentDark c := by
    intro c hc
    simp only [Notes.darken, if_pos hc]
    exact Nat.lt_succ_self _
  have hold : ∀ c, c ∉ cs → (s.notes.darken cs).wentDark c = s.notes.wentDark c :=
    fun c hc => if_neg hc
  have hle : ∀ c, s.notes.wentDark c ≤ (s.notes.darken cs).wentDark c := by
    intro c
    by_cases hc : c ∈ cs
    · exact (hnew c hc).le
    · exact (hold c hc).ge
  have hsplit : ∀ {c : ι} {d : Finset ι}, c ∈ d ∪ cs → c ∈ cs ∨ c ∈ d ∧ c ∉ cs := by
    intro c d hc
    by_cases hcs : c ∈ cs
    · exact .inl hcs
    · exact .inr ⟨(Finset.mem_union.mp hc).resolve_right hcs, hcs⟩
  refine ⟨fun c => (h.known c).trans (hle c), fun c => (h.decidedKnown c).trans (hle c),
    Finset.union_subset_union_left hdark, hreg, ?_, ?_, ?_, ?_, ?_⟩
  · intro c hc hn hk
    rcases hsplit hc with hcs | ⟨hc, hcs⟩
    · exact absurd hk (((h.known c).trans_lt (hnew c hcs)).ne)
    · have hl := hline ⟨c, hdark hc⟩
      rw [Recovery.first, hl] at hn
      exact h.heard c (hd hc) hn (hk.trans (hold c hcs))
  · intro c hc hn hk
    rcases hsplit hc with hcs | ⟨hc, hcs⟩
    · exact absurd hk (((h.decidedKnown c).trans_lt (hnew c hcs)).ne)
    · have hl := hline ⟨c, hdark hc⟩
      rw [Recovery.first, hl] at hn
      exact h.decided c (hd hc) hn (hk.trans (hold c hcs))
  · intro c hc m hm
    rcases hsplit hc with hcs | ⟨hc, hcs⟩
    · cases hs : m.snap with
      | true => exact .inl rfl
      | false =>
          refine .inr ((hclear c hcs).1 m ?_)
          have hplain : s.isPlainFor c m = true := by
            have hfor : s.isFor c m = true := List.find?_some hm
            rw [Recovery.isPlainFor, hfor, hs]; rfl
          refine (find_narrow (fun x hx => (Bool.and_eq_true_iff.mp hx).1) ?_).trans hm
          intro x hx
          have hxm : some x = some m := hx.symm.trans hm
          cases hxm
          exact hplain
    · have hl := hline ⟨c, hdark hc⟩
      rw [Recovery.first, hl] at hm
      exact h.first c (hd hc) m hm
  · intro c hc m hm
    rcases hsplit hc with hcs | ⟨hc, hcs⟩
    · exact .inl ((hclear c hcs).1 m hm)
    · have hl := hline ⟨c, hc⟩
      rw [Recovery.firstPlain, hl] at hm
      exact (h.plain c (ho hc) m hm).imp_right fun hk => hk.trans (hold c hcs).symm
  · intro c hc m hm hfor
    rcases hsplit hc with hcs | ⟨hc, hcs⟩
    · exact (hclear c hcs).2 m hm hfor
    · exact h.unacked c (ho hc) m hm hfor

/-! ### Each step keeps it -/

/-- A step that only moves commands that nobody waits for, or the engine's memory. -/
theorem Recovering.quiet (h : Recovering s) (hn : t.notes = s.notes)
    (hreg : t.hardware.registrations = s.hardware.registrations)
    (hr : ∀ c, t.engine.Remembers c → s.engine.Remembers c)
    (hf : ∀ c ∈ s.notes.owed, t.line.find? (t.isFor c) = s.first c ∧
      t.line.find? (t.isPlainFor c) = s.firstPlain c)
    (hu : ∀ c ∈ s.notes.owed, ∀ m ∈ t.unacked, t.isFor c m = true →
      m.snap = true ∨ m ∈ s.unacked ∧ s.isFor c m = true) : Recovering t := by
  refine h.moved (by rw [hn]) (by rw [hn]) (by rw [hn]) (by rw [hn]) (by rw [hn]) (by rw [hn])
    (by rw [hn]; exact h.owed) (fun c _ hc => hreg ▸ hc) (fun c _ _ => hr c) ?_ ?_ (by rwa [hn])
  · intro c hc
    rw [hn] at hc
    exact .inl (hf c (h.owed hc)).1
  · intro c hc
    rw [hn] at hc
    exact .inl (hf c hc).2

theorem isPlainFor_of_not (h : s.isFor c m = false) : s.isPlainFor c m = false := by
  rw [Recovery.isPlainFor, h]; rfl

theorem isFor_of_ne (h : m.channelId ≠ c) : s.isFor c m = false := by
  simp [Recovery.isFor, h]

theorem isFor_of_expired (h : m.live s.clock = false) : s.isFor c m = false := by
  simp [Recovery.isFor, h]

omit [LinearOrder ι] in
/-- To take out what is not looked for changes nothing of what is found. -/
theorem find_remove {l l' : List (Decided ι)} {p : Decided ι → Bool} (h : p m = false) :
    (l ++ l').find? p = (l ++ m :: l').find? p := by
  rw [List.find?_append, List.find?_append, List.find?_cons_of_neg (by simp [h])]

/-- Where no command is on its way, none that no snap hold ordered is. -/
theorem firstPlain_eq_none (h : s.first c = none) : s.firstPlain c = none :=
  List.find?_eq_none.mpr fun m hm hp =>
    List.find?_eq_none.mp h m hm (Bool.and_eq_true_iff.mp hp).1

omit [LinearOrder ι] in
theorem sends_eq_nil {b : EngineAction ι R T B} (h : b ≠ .accept) : s.sends b = [] := by
  cases b with
  | accept => exact absurd rfl h
  | due | next | emitted | emitFailed | state | assignment | connection | setProfiles
  | reset => rfl

/-- A step of the engine that publishes nothing. -/
theorem recovering_unsent {b : EngineAction ι R T B} {e : Engine ι} (hb : b ≠ .accept)
    (hm : EngineMoves s.engine b e)
    (hbegin : Recovering { s with notes := s.notes.begin s.engine b }) :
    Recovering { s with
      engine := e
      queue := s.queue ++ s.sends b
      notes := s.notes.begin s.engine b } := by
  rw [sends_eq_nil hb, List.append_nil]
  refine hbegin.quiet rfl rfl (fun c hc => ?_) (fun _ _ => ⟨rfl, rfl⟩)
    fun c _ m hm hfor => .inr ⟨hm, hfor⟩
  exact (remembers_of_moves hm hc).resolve_right fun hacc => hb hacc.1

/-- A tick begins. -/
theorem Recovering.begin (h : Recovering s) (b : EngineAction ι R T B) :
    Recovering { s with notes := s.notes.begin s.engine b } := by
  cases b with
  | due now held =>
      refine ⟨h.known, h.known, h.owed, h.registered, h.heard, fun c hc hn hk => ?_, h.first,
        h.plain, h.unacked⟩
      by_contra hmem
      exact h.heard c hc hn hk (.inl hmem)
  | accept | next | emitted | emitFailed | state | assignment | connection | setProfiles
  | reset => exact h

/-- The broker takes a command. -/
theorem recovering_accept {e : Engine ι} (h : Recovering s)
    (hC : Orderly s (.engine .accept : RecoveryAction ι R T B))
    (hm : EngineMoves s.engine (.accept : EngineAction ι R T B) e) :
    Recovering { s with
      engine := e
      queue := s.queue ++ s.sends (.accept : EngineAction ι R T B)
      notes := s.notes.begin s.engine (.accept : EngineAction ι R T B) } := by
  cases hm with
  | @accept i he =>
      obtain ⟨htold, hlive⟩ := hC ⟨i, false⟩ he rfl
      have hsends : s.sends (.accept : EngineAction ι R T B) =
          [⟨buildPwmCommand i s.engine.now, i.isSnap, s.notes.decidedOn i.channelId,
            s.notes.decidedKnown i.channelId⟩] := by
        simp only [Recovery.sends, he]
      rw [hsends]
      generalize hmsg : (⟨buildPwmCommand i s.engine.now, i.isSnap, s.notes.decidedOn i.channelId,
            s.notes.decidedKnown i.channelId⟩ : Decided ι) = m
      have hline : s.hardware.batch ++ (s.queue ++ [m]) = s.line ++ [m] :=
        (List.append_assoc _ _ _).symm
      have hchannel : ∀ c, s.isFor c m = true → c = i.channelId := by
        intro c hfor
        have hc : m.channelId = c := of_decide_eq_true (Bool.and_eq_true_iff.mp hfor).1
        rw [← hc, ← hmsg]; rfl
      refine h.moved rfl rfl rfl rfl (Finset.Subset.refl _) (Finset.Subset.refl _) h.owed
        (fun _ _ hc => hc) ?_ ?_ ?_ fun c _ m hm hfor => .inr ⟨hm, hfor⟩
      · intro c hc hn hrem
        rcases hrem with hmem | ⟨x, ⟨⟩, -, rfl⟩
        · exact .inl hmem
        · have hn : (s.line ++ [m]).find? (s.isFor i.channelId) = none := hline ▸ hn
          have hnone : s.first i.channelId = none := by
            rcases find_snoc (s.isFor i.channelId) s.line m with he | ⟨-, -, he⟩
            · exact he.symm.trans hn
            · rw [hn] at he; cases he
          have hunexpired := hlive hc (by rw [hnone]; rfl)
          have hfor : s.isFor i.channelId m = true := by
            rw [← hmsg]
            have hnot := not_le.mpr hunexpired
            simp [Recovery.isFor, Decided.channelId, Decided.live, ActuatorCommand.isExpired,
              buildPwmCommand, hnot]
          exact absurd hfor (List.find?_eq_none.mp hn m (List.mem_append_right _ List.mem_cons_self))
      · intro c hc
        rcases find_snoc (s.isFor c) s.line m with he | ⟨hnone, hfor, he⟩
        · exact .inl ((congrArg _ hline).trans he)
        · refine .inr ⟨m, (congrArg _ hline).trans he, ?_⟩
          obtain rfl := hchannel c hfor
          cases hsnap : i.isSnap with
          | true => rw [← hmsg]; exact .inl hsnap
          | false =>
              have hk := htold (h.owed hc) hsnap (by rw [firstPlain_eq_none hnone]; rfl)
              rw [← hmsg]
              exact .inr (h.decided _ hc hnone hk)
      · intro c hc
        rcases find_snoc (s.isPlainFor c) s.line m with he | ⟨hnone, hfor, he⟩
        · exact .inl ((congrArg _ hline).trans he)
        · refine .inr ⟨m, (congrArg _ hline).trans he, ?_⟩
          obtain ⟨hisFor, hplain⟩ := Bool.and_eq_true_iff.mp hfor
          obtain rfl := hchannel c hisFor
          have hsnap : i.isSnap = false := by
            rw [← hmsg] at hplain
            simpa using hplain
          have hnone : s.firstPlain i.channelId = none := hnone
          rw [← hmsg]
          exact .inr (htold hc hsnap (by rw [hnone]; rfl))

omit [LinearOrder ι] in
/-- hardware-io turns to the next command of its batch. -/
theorem line_of_batch {rest : List (Decided ι)} (hb : s.hardware.batch = m :: rest) :
    s.line = m :: (rest ++ s.queue) := by
  rw [Recovery.line, hb]; rfl

omit [LinearOrder ι] in
/-- A message at the head of the batch that is not looked for may go. -/
theorem find_line_of_batch {rest : List (Decided ι)} {p : Decided ι → Bool}
    (hb : s.hardware.batch = m :: rest) (hm : p m = false) :
    (rest ++ s.queue).find? p = s.line.find? p := by
  rw [line_of_batch hb, List.find?_cons_of_neg (by simp [hm])]

/-- A command nobody waits for is done with. -/
theorem recovering_takeFirst {rest : List (Decided ι)} {acked : Bool} (h : Recovering s)
    (hb : s.hardware.batch = m :: rest)
    (hm : ∀ c ∈ s.notes.owed, s.isFor c m = false) : Recovering (s.takeFirst m rest acked) := by
  refine h.quiet rfl rfl (fun _ hc => hc) (fun c hc => ?_) fun c hc x hx hfor => .inr ⟨?_, hfor⟩
  · exact ⟨find_line_of_batch hb (hm c hc), find_line_of_batch hb (isPlainFor_of_not (hm c hc))⟩
  · have hfor : s.isFor c x = true := hfor
    simp only [Recovery.takeFirst] at hx
    split at hx
    · exact hx
    · rcases List.mem_append.mp hx with hx | hx
      · exact hx
      · rw [List.mem_singleton.mp hx, hm c hc] at hfor
        cases hfor

/-- A command is applied. -/
theorem recovering_applied {rest : List (Decided ι)} {acked : Bool} {atSafe : Finset ι}
    (h : Recovering s) (hb : s.hardware.batch = m :: rest) :
    Recovering { s.takeFirst m rest acked with
      hardware := { (s.takeFirst m rest acked).hardware with atSafe := atSafe }
      notes := s.notes.applied m } := by
  have howed : (s.notes.applied m).owed ⊆ s.notes.owed := by
    simp only [Notes.applied]
    split
    · exact Finset.Subset.refl _
    · exact Finset.erase_subset _ _
  have hplain : ∀ c ∈ (s.notes.applied m).owed, s.isPlainFor c m = false := by
    intro c hc
    simp only [Notes.applied] at hc
    split at hc
    · next hs => simp [Recovery.isPlainFor, hs]
    · exact isPlainFor_of_not (isFor_of_ne (Finset.ne_of_mem_erase hc).symm)
  refine h.moved rfl rfl rfl rfl (Finset.erase_subset _ _) howed ?_ (fun _ _ hc => hc)
    (fun _ _ _ hc => hc) (fun c hc => .inl ?_) (fun c hc => .inl ?_) ?_
  · intro c hc
    obtain ⟨hne, hc⟩ := Finset.mem_erase.mp hc
    simp only [Notes.applied]
    split
    · exact h.owed hc
    · exact Finset.mem_erase.mpr ⟨hne, h.owed hc⟩
  · exact find_line_of_batch hb (isFor_of_ne (Finset.ne_of_mem_erase hc).symm)
  · exact find_line_of_batch hb (hplain c hc)
  · intro c hc x hx hfor
    have hfor : s.isFor c x = true := hfor
    simp only [Recovery.takeFirst] at hx
    split at hx
    · exact .inr ⟨hx, hfor⟩
    · rcases List.mem_append.mp hx with hx | hx
      · exact .inr ⟨hx, hfor⟩
      · have hnot := hplain c hc
        rw [List.mem_singleton.mp hx] at hfor ⊢
        rw [Recovery.isPlainFor, hfor] at hnot
        exact .inl (by simpa using hnot)

/-- A command that was not acked is delivered again. -/
theorem recovering_redeliver {i : ℕ} (h : Recovering s) (hi : s.unacked[i]? = some m) :
    Recovering { s with
      unacked := s.unacked.eraseIdx i
      hardware := { s.hardware with batch := s.hardware.batch ++ [m] } } := by
  have hsnap : ∀ c ∈ s.notes.owed, s.isFor c m = true → m.snap = true := fun c hc hfor =>
    h.unacked c hc m (List.mem_of_getElem? hi) hfor
  have hline : ∀ p : Decided ι → Bool, p m = false →
      (s.hardware.batch ++ [m] ++ s.queue).find? p = s.line.find? p := by
    intro p hp
    rw [List.append_assoc]
    exact (find_remove hp).symm
  refine h.moved rfl rfl rfl rfl (Finset.Subset.refl _) (Finset.Subset.refl _) h.owed
    (fun _ _ hc => hc) (fun _ _ _ hc => hc) (fun c hc => ?_) (fun c hc => .inl ?_)
    fun c _ x hx hfor => .inr ⟨List.mem_of_mem_eraseIdx hx, hfor⟩
  · cases hfor : s.isFor c m with
    | false => exact .inl (hline _ hfor)
    | true =>
        cases hb : s.hardware.batch.find? (s.isFor c) with
        | some x =>
            left
            change ((s.hardware.batch ++ [m]) ++ s.queue).find? (s.isFor c) =
              (s.hardware.batch ++ s.queue).find? (s.isFor c)
            rw [List.find?_append, List.find?_append, List.find?_append, hb]
            rfl
        | none =>
            refine .inr ⟨m, ?_, .inl (hsnap c (h.owed hc) hfor)⟩
            change ((s.hardware.batch ++ [m]) ++ s.queue).find? (s.isFor c) = some m
            rw [List.find?_append, List.find?_append, hb, List.find?_cons_of_pos hfor]
            rfl
  · refine hline _ ?_
    cases hfor : s.isFor c m with
    | false => exact isPlainFor_of_not hfor
    | true => simp [Recovery.isPlainFor, hsnap c hc hfor]

/-- Time passes. -/
theorem recovering_clock {now : ℚ} (h : Recovering s) (hle : s.clock ≤ now)
    (hC : Orderly s (.clock now : RecoveryAction ι R T B)) : Recovering { s with clock := now } := by
  obtain ⟨hdark, howed⟩ := hC
  have hlive : ∀ x : Decided ι, x.live now = true → x.live s.clock = true := by
    intro x hx
    have hx : now < x.command.expiresAt := by
      simpa [Decided.live, ActuatorCommand.isExpired] using hx
    have hnot := not_le.mpr (hle.trans_lt hx)
    simp [Decided.live, ActuatorCommand.isExpired, hnot]
  have hfor : ∀ c x, Recovery.isFor { s with clock := now } c x = true → s.isFor c x = true := by
    intro c x hx
    obtain ⟨hc, hx⟩ := Bool.and_eq_true_iff.mp hx
    exact Bool.and_eq_true_iff.mpr ⟨hc, hlive x hx⟩
  refine h.moved rfl rfl rfl rfl (Finset.Subset.refl _) (Finset.Subset.refl _) h.owed
    (fun _ _ hc => hc) (fun _ _ _ hc => hc) (fun c hc => .inl ?_) (fun c hc => .inl ?_)
    fun c _ x hx hx' => .inr ⟨hx, hfor c x hx'⟩
  · refine find_narrow (hfor c) fun x hx => ?_
    have hf : s.isFor c x = true := List.find?_some hx
    obtain ⟨hc', -⟩ := Bool.and_eq_true_iff.mp hf
    exact Bool.and_eq_true_iff.mpr ⟨hc', hdark c hc x hx⟩
  · refine find_narrow (fun x hx => ?_) fun x hx => ?_
    · obtain ⟨hx, hs⟩ := Bool.and_eq_true_iff.mp hx
      exact Bool.and_eq_true_iff.mpr ⟨hfor c x hx, hs⟩
    · have hf : s.isPlainFor c x = true := List.find?_some hx
      obtain ⟨hf, hs⟩ := Bool.and_eq_true_iff.mp hf
      obtain ⟨hc', -⟩ := Bool.and_eq_true_iff.mp hf
      exact Bool.and_eq_true_iff.mpr ⟨Bool.and_eq_true_iff.mpr ⟨hc', howed c hc x hx⟩, hs⟩

/-- **The invariant is kept** by every orderly step. -/
theorem recovering_step (h : Recovering s) (hC : Orderly s a)
    (hs : (recovery ι R T B).step s a = some s') : Recovering s' := by
  obtain ⟨t, hm, rfl⟩ := recovery_moves hs
  refine Recovering.settle ?_
  cases hm with
  | @engine b e hm =>
      cases b with
      | accept => exact recovering_accept h hC hm
      | due | next | emitted | emitFailed | state | assignment | connection | setProfiles
      | reset => exact recovering_unsent nofun hm (h.begin _)
  | hears inbox hm hb =>
      refine h.quiet rfl rfl (fun c hc => ?_) (fun _ _ => ⟨rfl, rfl⟩)
        fun c _ m hm hfor => .inr ⟨hm, hfor⟩
      exact (remembers_of_moves hm hc).resolve_right fun hacc => hb hacc.1
  | @publishes a hardware inbox hb hr =>
      refine h.quiet rfl hr (fun _ hc => hc) (fun c _ => ?_) fun c _ m hm hfor => .inr ⟨hm, hfor⟩
      have hline : hardware.batch ++ s.queue = s.line := by rw [hb]; rfl
      exact ⟨congrArg (List.find? (s.isFor c)) hline, congrArg (List.find? (s.isPlainFor c)) hline⟩
  | @start registrations =>
      refine h.darken (Finset.empty_subset _) (Finset.empty_subset _) (Finset.Subset.refl _) rfl
        (fun c hc => ?_) (fun hne => absurd hne Finset.not_nonempty_empty) fun c hc => ?_
      · simpa [Hardware.started] using hc
      · exact hC c (List.mem_toFinset.mp hc)
  | @trip c atSafe tripped hc =>
      refine h.darken (Finset.Subset.refl _) (Finset.Subset.refl _) h.owed rfl (fun c' hc' => ?_)
        (fun _ => rfl) fun c' hc' => ?_
      · rcases Finset.mem_union.mp hc' with hc' | hc'
        · exact h.registered c' hc'
        · exact Finset.mem_singleton.mp hc' ▸ hc
      · exact Finset.mem_singleton.mp hc' ▸ hC
  | stop =>
      refine h.moved rfl rfl rfl rfl (Finset.empty_subset _) (Finset.empty_subset _)
        (Finset.Subset.refl _) ?_ ?_ ?_ ?_ ?_ <;>
        exact fun c hc => absurd hc (Finset.notMem_empty c)
  | @deliver m rest hq =>
      refine h.quiet rfl rfl (fun _ hc => hc) (fun c _ => ?_) fun c _ m hm hfor => .inr ⟨hm, hfor⟩
      have hline : s.hardware.batch ++ [m] ++ rest = s.line := by
        rw [Recovery.line, hq, List.append_assoc]; rfl
      exact ⟨congrArg (List.find? (s.isFor c)) hline, congrArg (List.find? (s.isPlainFor c)) hline⟩
  | @lose m rest hq =>
      have hnot : ∀ c ∈ s.notes.owed, s.isFor c m = false := by
        intro c hc
        by_cases he : m.channelId = c
        · exact isFor_of_expired (hC m (by rw [hq]; rfl) (he ▸ hc))
        · exact isFor_of_ne he
      have hline : s.line = s.hardware.batch ++ m :: rest := by rw [Recovery.line, hq]
      refine h.quiet rfl rfl (fun _ hc => hc) (fun c hc => ?_) fun c hc x hx hfor => .inr ⟨?_, hfor⟩
      · rw [Recovery.first, Recovery.firstPlain, hline]
        exact ⟨find_remove (hnot c hc), find_remove (isPlainFor_of_not (hnot c hc))⟩
      · rcases List.mem_append.mp hx with hx | hx
        · exact hx
        · have hfor : s.isFor c x = true := hfor
          rw [List.mem_singleton.mp hx, hnot c hc] at hfor
          cases hfor
  | redeliver hi => exact recovering_redeliver h hi
  | applied hb => exact recovering_applied h hb
  | @refused acked m rest hb ht =>
      refine recovering_takeFirst h hb fun c hc => ?_
      by_cases he : m.channelId = c
      · refine isFor_of_expired ?_
        subst he
        by_contra hlive
        rw [Recovery.target, if_pos (by simpa using hlive)] at ht
        obtain ⟨r, hr, hrc⟩ := List.mem_map.mp (h.registered _ hc)
        exact List.find?_eq_none.mp ht r hr (by simpa using hrc)
      · exact isFor_of_ne he
  | clock hle => exact recovering_clock h hle hC

/-- What the invariant gives at the next step. -/
theorem Recovering.fromDark (h : Recovering s) : FromDark s a := by
  cases a with
  | apply acked =>
      intro m hm ht hplain
      obtain ⟨rest, hb⟩ : ∃ rest, s.hardware.batch = m :: rest := by
        cases hb : s.hardware.batch with
        | nil => rw [hb] at hm; cases hm
        | cons x rest => rw [hb] at hm; cases hm; exact ⟨rest, rfl⟩
      have hlive : m.live s.clock = true := by
        by_contra hexp
        rw [Recovery.target, if_neg hexp] at ht
        cases ht
      have hfor : s.isFor m.channelId m = true := by simp [Recovery.isFor, hlive]
      have hpfor : s.isPlainFor m.channelId m = true := by simp [Recovery.isPlainFor, hfor, hplain]
      have hfirst : s.first m.channelId = some m := by
        rw [Recovery.first, line_of_batch hb]
        exact List.find?_cons_of_pos hfor
      have hfirstPlain : s.firstPlain m.channelId = some m := by
        rw [Recovery.firstPlain, line_of_batch hb]
        exact List.find?_cons_of_pos hpfor
      refine ⟨fun hdark => ?_, fun howed => h.plain _ howed m hfirstPlain⟩
      refine (h.first _ hdark m hfirst).resolve_left fun hs => ?_
      rw [hplain] at hs
      cases hs
  | engine | hear | engineDrop | engineReconnect | start | publishStartup | subscribe | trip
  | publishTrip | hardwareDrop | hardwareReconnect | republish | stop | deliver | lose | redeliver
  | clock => trivial

/-- A light at three quarters, a hundredth a second under way. -/
def daylight : LightingScheduler ℕ :=
  .init ⟨1 / 100, 300, some (1 / 100), hundredth_nonneg, five_minutes_pos, hundredth_rate_pos⟩
    [⟨0, fun _ => 3 / 4⟩] (by simp)

/-- The light is adopted and registered. -/
def bothUp : List (RecoveryAction ℕ Unit Unit Unit) :=
  [.engine (.assignment ⟨0, true, none, some (), some (), bound_unit true⟩),
    .start [⟨0, 0, id⟩], .publishStartup, .subscribe, .hear]

/-- A tick publishes the light's command. -/
def tickAt (now : ℚ) : List (RecoveryAction ℕ Unit Unit Unit) :=
  [.clock now, .engine (.due now ∅), .engine .next, .engine .accept, .engine .emitted]

/-- hardware-io applies it. -/
def served : List (RecoveryAction ℕ Unit Unit Unit) := [.deliver, .apply true]

/-- The light is at a quarter when the broker goes down; hardware-io trips it, and the state that
it publishes is lost. -/
def brokerDown : List (RecoveryAction ℕ Unit Unit Unit) :=
  bothUp ++ tickAt 0 ++ served ++ tickAt 25 ++ served ++
    [.hardwareDrop, .engineDrop 0, .clock 60, .trip 0, .publishTrip 0]

end BellasReef.ControlEngine
