import BellasReef.HardwareIO.Calls

/-!
# HardwareIO — Consumer

The hub, as one actuator sees it: the commands published for it on `BR_CMD`, `CommandConsumer`
(`spine.py`) working through them, the supervisor's guard, and the `ActuatorState` that
`BR_STATE` retains.

The consumer takes one message at a time through `supervisor.apply`, and an applied one further
through its ack, `read_back` and the state publish (`Stage`).  A driver fault naks the message for
a second; the broker delivers it again, up to `max_deliver` times.  Autonomous trips publish from
`_on_safety_event` (`app.py`), inside the step that completes them.

Messages for other actuators only make the consumer busy.  Left out: a redelivery after
`ack_wait`, a lost consumer, a lost connection, and a publish that fails.
-/

namespace BellasReef.HardwareIO
open BellasReef.Contracts BellasReef.Support

variable {ι L : Type}

/-- A message on `BR_CMD`. -/
structure Message (ι L : Type) where
  /-- Its stream sequence. -/
  seq : ℕ
  command : ActuatorCommand ι L
  /-- `num_delivered`. -/
  delivered : ℕ

/-- A message sent back with `nak(delay=1.0)`. -/
structure Nak (ι L : Type) where
  message : Message ι L
  due : ℚ

/-- Where `drain_once` stands. -/
inductive Stage (ι L : Type) where
  /-- Between messages. -/
  | looping
  /-- In `fetch`. -/
  | fetching
  /-- In `supervisor.apply`, with the driver call in flight. -/
  | driving (m : Message ι L)
  /-- In `msg.ack`. -/
  | applied (m : Message ι L)
  /-- In `read_back`. -/
  | acked (m : Message ι L)
  /-- The level is decided and not yet sent. -/
  | sampled (m : Message ι L) (level : L)

/-- `fetch(batch)`. -/
def batchSize : ℕ := 16

/-- `max_deliver`. -/
def maxDeliver : ℕ := 3

/-- The delay of a nak. -/
def nakDelayS : ℚ := 1

/-- One actuator, its queue and its consumer. -/
structure Hub (ι L : Type) where
  guard : State L
  /-- Published and not yet delivered. -/
  queue : List (Message ι L)
  /-- Fetched and not yet processed. -/
  batch : List (Message ι L)
  /-- Sent back, oldest nak first.  A message out of deliveries stays here. -/
  delayed : List (Nak ι L)
  stage : Stage ι L
  published : ℕ
  /-- The sequences of the commands that wrote the hardware, in that order. -/
  landed : List ℕ
  /-- What `BR_STATE` retains. -/
  retained : ActuatorState L

/-- The hub after startup: the actuator registered, its safe state published. -/
def Hub.started (A : Actuator L) (now wall : ℚ) (trusted : Bool) : Hub ι L where
  guard := State.registered A now wall trusted
  queue := []
  batch := []
  delayed := []
  stage := .looping
  published := 0
  landed := []
  retained := ⟨A.safeState, .startup, false⟩

/-! ### Safety events -/

/-- `_TRIP_STATE_REASON`, defined on `_AUTONOMOUS_TRIP_REASONS`. -/
def TripReason.stateReason : TripReason → Option StateReason
  | .heartbeatTimeout => some .safeState
  | .maxRuntimeExceeded => some .interlockLatch
  | .shutdown => some .safeState
  | .commandExpired | .latched | .clockUntrusted | .unknownActuator => none

/-- `_on_safety_event`: what is retained after it. -/
def onSafetyEvent (A : Actuator L) (latched : Bool) (retained : ActuatorState L)
    (e : SafetyEvent) : ActuatorState L :=
  match e.reason.stateReason with
  | none => retained
  | some reason => if e.reachedSafe then ⟨A.safeState, reason, latched⟩ else retained

/-! ### Steps -/

/-- What a step returns to the consumer, whose command's call it completes. -/
def State.commandReturn (s : State L) : Action ι L → Option Phase
  | .complete i =>
      match s.calls[i]? with
      | some ⟨.command _, p⟩ => some p
      | _ => none
  | _ => none

/-- The step is a command's write. -/
def State.commandWrites (s : State L) : Action ι L → Bool
  | .write i =>
      match s.calls[i]? with
      | some ⟨.command _, _⟩ => true
      | _ => false
  | _ => false

/-- The level `_publish_applied_state` decides on; `fails` when `read_back` raises. -/
def Hub.reportLevel (A : Actuator L) (s : Hub ι L) (m : Message ι L) (fails : Bool) : L :=
  if fails then m.command.level
  else ((A.driver.readBack s.guard.hardware) <|> A.driver.effectiveLevel m.command.level).getD
    m.command.level

/-- The message is to be sent again, in `NAK_DELAY_S`. -/
def Hub.nak (s : Hub ι L) (m : Message ι L) : Nak ι L := ⟨m, s.guard.now + nakDelayS⟩

/-- What the broker, the consumer and the guard do. -/
inductive HubAction (ι L : Type) where
  | publish (c : ActuatorCommand ι L)
  | fetch
  /-- The broker delivers the next new message. -/
  | deliver
  /-- The broker delivers the `i`-th message sent back. -/
  | redeliver (i : ℕ)
  | fetched
  /-- The consumer takes the next message to `supervisor.apply`. -/
  | next
  | ack
  | sample (fails : Bool)
  | publishState
  /-- The supervisor, its drivers and its clocks; commands come from the consumer only. -/
  | guard (a : Action ι L)

/-- A command begins. -/
def Action.isCommand : Action ι L → Bool
  | .command _ => true
  | _ => false

/-- The stage of the consumer and its messages, after a step of the guard. -/
def Hub.resume (s s' : Hub ι L) (a : Action ι L) : Hub ι L :=
  match s.stage, s.guard.commandReturn a with
  | .driving m, some .written => { s' with stage := .applied m }
  | .driving m, some _ => { s' with stage := .looping, delayed := s'.delayed ++ [s.nak m] }
  | _, _ => s'

/-- The landed sequences, after a step of the guard. -/
def Hub.landedAfter (s : Hub ι L) (a : Action ι L) : List ℕ :=
  match s.stage with
  | .driving m => if s.guard.commandWrites a then s.landed ++ [m.seq] else s.landed
  | _ => s.landed

/-- One step of one of them. -/
def Hub.step [DecidableEq L] (A : Actuator L) (s : Hub ι L) : HubAction ι L → Option (Hub ι L)
  | .publish c =>
      some { s with queue := s.queue ++ [⟨s.published, c, 0⟩], published := s.published + 1 }
  | .fetch =>
      match s.stage, s.batch with
      | .looping, [] => some { s with stage := .fetching }
      | _, _ => none
  | .deliver =>
      match s.stage, s.queue with
      | .fetching, m :: rest =>
          if s.batch.length < batchSize then
            some { s with queue := rest, batch := s.batch ++ [{ m with delivered := 1 }] }
          else none
      | _, _ => none
  | .redeliver i =>
      match s.stage, s.delayed[i]? with
      | .fetching, some ⟨m, due⟩ =>
          if s.batch.length < batchSize ∧ due ≤ s.guard.now ∧ m.delivered < maxDeliver then
            some { s with
              delayed := s.delayed.eraseIdx i
              batch := s.batch ++ [{ m with delivered := m.delivered + 1 }] }
          else none
      | _, _ => none
  | .fetched =>
      match s.stage with
      | .fetching => some { s with stage := .looping }
      | _ => none
  | .next =>
      match s.stage, s.batch with
      | .looping, m :: rest =>
          match s.guard.admission A m.command with
          | .refused _ _ => some { s with batch := rest }
          | .raised => some { s with batch := rest, delayed := s.delayed ++ [s.nak m] }
          | .driving l =>
              some { s with
                batch := rest
                guard := s.guard.startCall (.command l)
                stage := .driving m }
      | _, _ => none
  | .ack =>
      match s.stage with
      | .applied m => some { s with stage := .acked m }
      | _ => none
  | .sample fails =>
      match s.stage with
      | .acked m => some { s with stage := .sampled m (s.reportLevel A m fails) }
      | _ => none
  | .publishState =>
      match s.stage with
      | .sampled _ level => some { s with stage := .looping, retained := ⟨level, .commanded, false⟩ }
      | _ => none
  | .guard a =>
      if a.isCommand then none
      else (s.guard.step A a).map fun (g, es) =>
        s.resume { s with
          guard := g
          landed := s.landedAfter a
          retained := es.foldl (onSafetyEvent A g.latched) s.retained } a

/-- The hub, for one actuator. -/
def hub [DecidableEq L] (ι : Type) (A : Actuator L) : Machine (Hub ι L) (HubAction ι L) where
  step := fun s a => s.step A a

/-! ### What a step can do -/

/-- Every step, with what it changes. -/
inductive HubMoves [DecidableEq L] (A : Actuator L) (s : Hub ι L) :
    HubAction ι L → Hub ι L → Prop where
  | publish (c : ActuatorCommand ι L) :
      HubMoves A s (.publish c)
        { s with queue := s.queue ++ [⟨s.published, c, 0⟩], published := s.published + 1 }
  | fetch (hs : s.stage = .looping) : HubMoves A s .fetch { s with stage := .fetching }
  | deliver {m : Message ι L} {rest : List (Message ι L)} (hs : s.stage = .fetching)
      (hq : s.queue = m :: rest) :
      HubMoves A s .deliver
        { s with queue := rest, batch := s.batch ++ [{ m with delivered := 1 }] }
  | redeliver {i : ℕ} {m : Message ι L} {due : ℚ} (hs : s.stage = .fetching)
      (hd : s.delayed[i]? = some ⟨m, due⟩) (hm : m.delivered < maxDeliver) :
      HubMoves A s (.redeliver i)
        { s with
          delayed := s.delayed.eraseIdx i
          batch := s.batch ++ [{ m with delivered := m.delivered + 1 }] }
  | fetched (hs : s.stage = .fetching) : HubMoves A s .fetched { s with stage := .looping }
  | refused {m : Message ι L} {rest : List (Message ι L)} (hs : s.stage = .looping)
      (hb : s.batch = m :: rest) : HubMoves A s .next { s with batch := rest }
  | typeError {m : Message ι L} {rest : List (Message ι L)} (hs : s.stage = .looping)
      (hb : s.batch = m :: rest) :
      HubMoves A s .next { s with batch := rest, delayed := s.delayed ++ [s.nak m] }
  | begin {m : Message ι L} {rest : List (Message ι L)} {l : L} (hs : s.stage = .looping)
      (hb : s.batch = m :: rest) (ha : s.guard.admission A m.command = .driving l) :
      HubMoves A s .next
        { s with
          batch := rest
          guard := s.guard.startCall (.command l)
          stage := .driving m }
  | ack {m : Message ι L} (hs : s.stage = .applied m) : HubMoves A s .ack { s with stage := .acked m }
  | sample {m : Message ι L} {fails : Bool} (hs : s.stage = .acked m) :
      HubMoves A s (.sample fails) { s with stage := .sampled m (s.reportLevel A m fails) }
  | publishState {m : Message ι L} {level : L} (hs : s.stage = .sampled m level) :
      HubMoves A s .publishState
        { s with stage := .looping, retained := ⟨level, .commanded, false⟩ }
  | guard {a : Action ι L} {g : State L} {es : List SafetyEvent} (hc : a.isCommand = false)
      (hg : s.guard.step A a = some (g, es)) :
      HubMoves A s (.guard a) (s.resume { s with
        guard := g
        landed := s.landedAfter a
        retained := es.foldl (onSafetyEvent A g.latched) s.retained } a)

/-- **Inversion.**  A step is one of `HubMoves`. -/
theorem hub_moves [DecidableEq L] {A : Actuator L} {s s' : Hub ι L} {a : HubAction ι L}
    (h : (hub ι A).step s a = some s') : HubMoves A s a s' := by
  change s.step A a = some s' at h
  cases a with
  | publish c => cases h; exact .publish c
  | fetch =>
      simp only [Hub.step] at h
      split at h
      · cases h; exact .fetch ‹_›
      · cases h
  | deliver =>
      simp only [Hub.step] at h
      split at h
      · split at h
        · cases h; exact .deliver ‹_› ‹_›
        · cases h
      · cases h
  | redeliver i =>
      simp only [Hub.step] at h
      split at h
      · split at h
        · next hm => cases h; exact .redeliver ‹_› ‹_› hm.2.2
        · cases h
      · cases h
  | fetched =>
      simp only [Hub.step] at h
      split at h
      · cases h; exact .fetched ‹_›
      · cases h
  | next =>
      simp only [Hub.step] at h
      split at h
      · split at h
        · cases h; exact .refused ‹_› ‹_›
        · cases h; exact .typeError ‹_› ‹_›
        · cases h; exact .begin ‹_› ‹_› ‹_›
      · cases h
  | ack =>
      simp only [Hub.step] at h
      split at h
      · cases h; exact .ack ‹_›
      · cases h
  | sample fails =>
      simp only [Hub.step] at h
      split at h
      · cases h; exact .sample ‹_›
      · cases h
  | publishState =>
      simp only [Hub.step] at h
      split at h
      · cases h; exact .publishState ‹_›
      · cases h
  | guard a =>
      simp only [Hub.step] at h
      split at h
      · cases h
      · next hc =>
          obtain ⟨⟨g, es⟩, hg, rfl⟩ := Option.map_eq_some_iff.mp h
          exact .guard (by simpa using hc) hg

/-! ### The consumer's call -/

/-- A command made the call. -/
def Call.isCommand (c : Call L) : Bool := c.caller matches .command _

/-- The commands' calls in flight. -/
def State.commandCalls (s : State L) : List (Call L) := s.calls.filter Call.isCommand

/-- What a step of the guard does to the one command in flight. -/
inductive CommandStep (s : State L) (a : Action ι L) (s' : State L) : Prop where
  | other (hc : s'.commandCalls = s.commandCalls) (hw : s.commandWrites a = false)
      (hr : s.commandReturn a = none)
  | write {l : L} (hc : s.commandCalls = [⟨.command l, .pending⟩])
      (hc' : s'.commandCalls = [⟨.command l, .written⟩]) (hw : s.commandWrites a = true)
      (hr : s.commandReturn a = none) (hh : s'.hardware = l)
  | fail {l : L} (hc : s.commandCalls = [⟨.command l, .pending⟩])
      (hc' : s'.commandCalls = [⟨.command l, .raised⟩]) (hw : s.commandWrites a = false)
      (hr : s.commandReturn a = none)
  | done {l : L} {p : Phase} (hc : s.commandCalls = [⟨.command l, p⟩]) (hp : p ≠ .pending)
      (hc' : s'.commandCalls = []) (hw : s.commandWrites a = false)
      (hr : s.commandReturn a = some p)

variable {A : Actuator L} {s s' : State L} {a : Action ι L}

theorem commandCalls_startCall {who : Caller L} (hw : (⟨who, .pending⟩ : Call L).isCommand = false) :
    (s.startCall who).commandCalls = s.commandCalls := by
  simp [State.commandCalls, State.startCall, hw]

theorem commandCalls_cancelRuntime : (s.cancelRuntime A).commandCalls = s.commandCalls := by
  rw [State.commandCalls, State.commandCalls, State.cancelRuntime]
  split
  · rw [List.filter_filter]
    refine List.filter_congr fun c _ => ?_
    obtain ⟨who, p⟩ := c
    cases who <;> rfl
  · induction s.calls with
    | nil => rfl
    | cons c cs ih =>
        obtain ⟨who, p⟩ := c
        cases who with
        | command l => exact congrArg (_ :: ·) ih
        | heartbeat | runtime | abandoned => exact ih

variable [DecidableEq L]

theorem commandCalls_noteLevel {l : L} : (s.noteLevel A l).commandCalls = s.commandCalls := by
  rw [State.noteLevel]
  split
  · exact commandCalls_cancelRuntime
  · split <;> rfl

/-- **The one command in flight**, through a step of the guard. -/
theorem command_step (hone : s.commandCalls.length ≤ 1) (hcmd : a.isCommand = false)
    (hm : Moves A s a s') : CommandStep s a s' := by
  cases hm with
  | refused | typeError | command => cases hcmd
  | @write i who hc =>
      cases who with
      | command l =>
          obtain ⟨h, -, hset⟩ := filter_only hone hc rfl
          exact .write h (hset _ rfl) (by simp [State.commandWrites, hc]) rfl rfl
      | heartbeat | runtime | abandoned =>
          exact .other (filter_set_of_not hc rfl rfl) (by simp [State.commandWrites, hc]) rfl
  | @fail i who hc =>
      cases who with
      | command l =>
          obtain ⟨h, -, hset⟩ := filter_only hone hc rfl
          exact .fail h (hset _ rfl) rfl rfl
      | heartbeat | runtime | abandoned => exact .other (filter_set_of_not hc rfl rfl) rfl rfl
  | commandDone hc =>
      obtain ⟨h, herase, -⟩ := filter_only hone hc rfl
      exact .done h (by simp) (commandCalls_noteLevel.trans herase) rfl
        (by simp [State.commandReturn, hc])
  | commandFailed hc =>
      obtain ⟨h, herase, -⟩ := filter_only hone hc rfl
      exact .done h (by simp) herase rfl (by simp [State.commandReturn, hc])
  | heartbeatDone hc | runtimeDone hc =>
      exact .other (commandCalls_cancelRuntime.trans (filter_eraseIdx_of_not hc rfl)) rfl
        (by simp [State.commandReturn, hc])
  | heartbeatFailed hc | runtimeFailed hc | abandonedDone hc =>
      exact .other (filter_eraseIdx_of_not hc rfl) rfl (by simp [State.commandReturn, hc])
  | watchDrive ha =>
      refine .other (commandCalls_startCall (s := { s with }) rfl) ?_ ?_ <;>
        rcases ha with ⟨rfl, -⟩ | ⟨rfl, -⟩ <;> rfl
  | deadline | runtimeRetry => exact .other (commandCalls_startCall (s := { s with }) rfl) rfl rfl
  | runtimeReported | clearLatch => exact .other rfl rfl rfl
  | quiet ha hc =>
      refine .other (by rw [State.commandCalls, hc]; rfl) ?_ ?_
      · cases a <;> first | rfl | exact absurd rfl (ha.2.2.2 _)
      · cases a <;> first | rfl | exact absurd rfl (ha.2.2.1 _)

/-! ### The consumer awaits its call -/

/-- The consumer awaits the one command in flight. -/
def Hub.Attends (s : Hub ι L) : Prop :=
  match s.stage with
  | .driving _ => ∃ l p, s.guard.commandCalls = [⟨.command l, p⟩]
  | _ => s.guard.commandCalls = []

/-- What a step of the guard, to `g`, does to the hub. -/
inductive HubGuard (s : Hub ι L) (a : Action ι L) (g : State L) (retained : ActuatorState L) :
    Hub ι L → Prop where
  | other (hc : g.commandCalls = s.guard.commandCalls) (hw : s.guard.commandWrites a = false) :
      HubGuard s a g retained { s with guard := g, retained := retained }
  | wrote {m : Message ι L} {l : L} (hs : s.stage = .driving m)
      (hc : s.guard.commandCalls = [⟨.command l, .pending⟩])
      (hc' : g.commandCalls = [⟨.command l, .written⟩]) (hw : s.guard.commandWrites a = true)
      (hh : g.hardware = l) :
      HubGuard s a g retained
        { s with guard := g, landed := s.landed ++ [m.seq], retained := retained }
  | failed {m : Message ι L} {l : L} (hs : s.stage = .driving m)
      (hc : s.guard.commandCalls = [⟨.command l, .pending⟩])
      (hc' : g.commandCalls = [⟨.command l, .raised⟩]) (hw : s.guard.commandWrites a = false) :
      HubGuard s a g retained { s with guard := g, retained := retained }
  | applied {m : Message ι L} {l : L} (hs : s.stage = .driving m)
      (hc : s.guard.commandCalls = [⟨.command l, .written⟩]) (hc' : g.commandCalls = [])
      (hw : s.guard.commandWrites a = false) :
      HubGuard s a g retained { s with guard := g, retained := retained, stage := .applied m }
  | naked {m : Message ι L} {l : L} (hs : s.stage = .driving m)
      (hc : s.guard.commandCalls = [⟨.command l, .raised⟩]) (hc' : g.commandCalls = [])
      (hw : s.guard.commandWrites a = false) :
      HubGuard s a g retained { s with
        guard := g
        retained := retained
        stage := .looping
        delayed := s.delayed ++ [s.nak m] }

section Attends
variable {s s' : Hub ι L} {g : State L} {retained : ActuatorState L}

omit [DecidableEq L] in
/-- A command's driver call is of the message in hand. -/
theorem Hub.Attends.driving (h : s.Attends) (hne : s.guard.commandCalls ≠ []) :
    ∃ m, s.stage = .driving m := by
  rw [Hub.Attends] at h
  split at h
  · exact ⟨_, ‹_›⟩
  · exact absurd h hne

omit [DecidableEq L] in
/-- One command at a time has a driver call. -/
theorem Hub.Attends.length_le (h : s.Attends) : s.guard.commandCalls.length ≤ 1 := by
  rw [Hub.Attends] at h
  split at h
  · obtain ⟨l, p, h⟩ := h
    rw [h]; rfl
  · rw [h]; exact Nat.zero_le 1

omit [DecidableEq L] in
theorem resume_of_none (hr : s.guard.commandReturn a = none) : s.resume s' a = s' := by
  rw [Hub.resume, hr]
  split <;> first | rfl | contradiction

/-- A step of the guard is one of `HubGuard`. -/
theorem hub_guard (h : s.Attends) (hc : a.isCommand = false) (hm : Moves A s.guard a g) :
    HubGuard s a g retained (s.resume
      { s with guard := g, landed := s.landedAfter a, retained := retained } a) := by
  cases command_step h.length_le hc hm with
  | other hc hw hr =>
      have hl : s.landedAfter a = s.landed := by
        rw [Hub.landedAfter]; split <;> simp [hw]
      rw [resume_of_none hr, hl]
      exact .other hc hw
  | @write l hc hc' hw hr hh =>
      obtain ⟨m, hs⟩ := h.driving (by simp [hc])
      have hl : s.landedAfter a = s.landed ++ [m.seq] := by simp [Hub.landedAfter, hs, hw]
      rw [resume_of_none hr, hl]
      exact .wrote hs hc hc' hw hh
  | @fail l hc hc' hw hr =>
      obtain ⟨m, hs⟩ := h.driving (by simp [hc])
      have hl : s.landedAfter a = s.landed := by simp [Hub.landedAfter, hs, hw]
      rw [resume_of_none hr, hl]
      exact .failed hs hc hc' hw
  | @done l p hc hp hc' hw hr =>
      obtain ⟨m, hs⟩ := h.driving (by simp [hc])
      have hl : s.landedAfter a = s.landed := by simp [Hub.landedAfter, hs, hw]
      rw [Hub.resume, hr, hl, hs]
      cases p with
      | pending => exact absurd rfl hp
      | written => exact .applied hs hc hc' hw
      | raised => exact .naked hs hc hc' hw

omit [DecidableEq L] in
/-- A step of the supervisor keeps to that. -/
theorem HubGuard.attends (hg : HubGuard s a g retained s') (h : s.Attends) : s'.Attends := by
  cases hg with
  | other hc =>
      rw [Hub.Attends] at h ⊢
      rwa [hc]
  | wrote hs hc hc' | failed hs hc hc' =>
      rw [Hub.Attends]
      simp only [hs]
      exact ⟨_, _, hc'⟩
  | applied hs hc hc' | naked hs hc hc' => exact hc'

/-- **Step.**  So does every step. -/
theorem attends_step {b : HubAction ι L} (h : s.Attends) (hm : HubMoves A s b s') : s'.Attends := by
  cases hm with
  | publish => exact h
  | fetch hs | fetched hs | ack hs | sample hs | publishState hs =>
      rw [Hub.Attends, hs] at h; exact h
  | deliver hs | redeliver hs | refused hs | typeError hs =>
      rw [Hub.Attends, hs] at h
      rw [Hub.Attends]
      simp only [hs]
      exact h
  | @begin m rest l hs hb ha =>
      rw [Hub.Attends, hs, State.commandCalls] at h
      refine ⟨l, .pending, ?_⟩
      simp [State.commandCalls, State.startCall, h, Call.isCommand]
  | guard hc hg => exact (hub_guard h hc (step_moves (supervisor_step.mpr ⟨_, hg⟩))).attends h

end Attends

end BellasReef.HardwareIO
