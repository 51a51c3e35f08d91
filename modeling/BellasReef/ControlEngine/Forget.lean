import BellasReef.ControlEngine.Assignments
import BellasReef.ControlEngine.Scheduler
import BellasReef.Support.Machine
import Mathlib.Tactic.NormNum

/-!
# ControlEngine — Forget

Whether a forget is ever lost.

A tick decides all its intents at one moment (`due`), then publishes them one by one, waiting
for the broker at each, and records each one published (`mark_emitted`).  Meanwhile tombstones
and autonomous actuator states arrive on the subscription tasks, and each makes the scheduler
forget a channel.  `Engine` is the engine between two such moments, and `Trail` is what a
reader of the run would write down: what the tick was decided on, and what was forgotten since.

A forget is lost when the intent it overtakes is still published or recorded.  It is kept in
every run whose messages are `Timely`: `forget_kept`.
-/

namespace BellasReef.ControlEngine
open BellasReef.Contracts BellasReef.Support

variable {ι R T B : Type}

/-! ### The engine -/

/-- `emit`, in flight: accepted once the broker has the command. -/
structure Emit (ι : Type) where
  intent : Intent ι
  accepted : Bool

/-- The engine inside and between ticks. -/
structure Engine (ι : Type) where
  scheduler : LightingScheduler ι
  assignments : AssignmentLedger ι
  connected : Bool
  /-- The clock of the tick. -/
  now : ℚ
  /-- The intents the tick has still to turn to. -/
  intents : List (Intent ι)
  emitting : Option (Emit ι)

/-- `_AUTONOMOUS_STATE_REASONS`. -/
def autonomous : StateReason → Bool
  | .startup | .safeState | .interlockLatch => true
  | .commanded | .manualOverride => false

/-- The engine's steps, between two moments at which it waits. -/
inductive EngineAction (ι R T B : Type) where
  /-- `due`, at the start of a tick. -/
  | due (now : ℚ) (held : Dict ι HeldTarget)
  /-- The tick turns to its next intent. -/
  | next
  /-- The broker takes the command. -/
  | accept
  /-- `emit` returns. -/
  | emitted
  /-- `emit` raises, whatever the broker did. -/
  | emitFailed
  /-- `_on_actuator_state`. -/
  | state (actuatorId : ι) (reason : StateReason)
  /-- `AssignmentLedger.apply`. -/
  | assignment (a : DeviceAssignment ι R T B)
  | connection (connected : Bool)
  /-- `_reload_schedules`, before the tick decides. -/
  | setProfiles (profiles : List (ChannelProfile ι))
  /-- The clock is no longer trusted. -/
  | reset

/-- No tick is under way. -/
def Engine.waiting (s : Engine ι) : Bool := s.intents.isEmpty && s.emitting.isNone

/-- The channel of the emit in flight. -/
def Engine.emitChannel (s : Engine ι) : Option ι := s.emitting.map (·.intent.channelId)

variable [LinearOrder ι]

/-- One step of the engine, from one await to the next. -/
def Engine.step (s : Engine ι) : EngineAction ι R T B → Option (Engine ι)
  | .due now held =>
      if s.waiting then some { s with now := now, intents := s.scheduler.due now held } else none
  | .next =>
      match s.emitting, s.intents with
      | none, i :: rest =>
          if s.assignments.isAdopted i.channelId && s.connected then
            some { s with intents := rest, emitting := some ⟨i, false⟩ }
          else
            -- suppressed: unassigned, or no spine
            some { s with intents := rest }
      | _, _ => none
  | .accept =>
      match s.emitting with
      | some ⟨i, false⟩ => some { s with emitting := some ⟨i, true⟩ }
      | _ => none
  | .emitted =>
      match s.emitting with
      | some ⟨i, true⟩ =>
          some { s with scheduler := s.scheduler.markEmitted i s.now, emitting := none }
      | _ => none
  | .emitFailed => s.emitting.map fun _ => { s with emitting := none }
  | .state actuatorId reason =>
      if autonomous reason then some { s with scheduler := s.scheduler.forget actuatorId }
      else some s
  | .assignment a =>
      let (ledger, tombstone) := s.assignments.apply a
      some { s with
        assignments := ledger
        scheduler := tombstone.elim s.scheduler s.scheduler.forget }
  | .connection connected => some { s with connected := connected }
  | .setProfiles profiles =>
      if s.waiting then
        (s.scheduler.setProfiles profiles).map fun scheduler => { s with scheduler := scheduler }
      else none
  | .reset => if s.waiting then some { s with scheduler := s.scheduler.reset } else none

/-- The engine, with its broker and its two subscriptions. -/
def engine (ι R T B : Type) [LinearOrder ι] : Machine (Engine ι) (EngineAction ι R T B) where
  step := fun s a => s.step a

/-- An engine just started: nothing adopted, nothing emitted. -/
def Engine.started (scheduler : LightingScheduler ι) : Engine ι :=
  ⟨scheduler, ⟨∅⟩, true, 0, [], none⟩

/-- The channel that a message makes the scheduler forget. -/
def EngineAction.forgets : EngineAction ι R T B → Option ι
  | .state actuatorId reason => if autonomous reason then some actuatorId else none
  | .assignment a => if a.adopted then none else some a.deviceId
  | _ => none

/-! ### What a step can do -/

/-- Every step, with what it changes. -/
inductive EngineMoves (s : Engine ι) : EngineAction ι R T B → Engine ι → Prop where
  | due (now : ℚ) (held : Dict ι HeldTarget) (he : s.emitting = none) :
      EngineMoves s (.due now held) { s with now := now, intents := s.scheduler.due now held }
  | suppress {i : Intent ι} {rest : List (Intent ι)} (hi : s.intents = i :: rest) :
      EngineMoves s .next { s with intents := rest }
  | emit {i : Intent ι} {rest : List (Intent ι)} (hi : s.intents = i :: rest)
      (ha : i.channelId ∈ s.assignments.adopted) :
      EngineMoves s .next { s with intents := rest, emitting := some ⟨i, false⟩ }
  | accept {i : Intent ι} (he : s.emitting = some ⟨i, false⟩) :
      EngineMoves s .accept { s with emitting := some ⟨i, true⟩ }
  | emitted {i : Intent ι} (he : s.emitting = some ⟨i, true⟩) :
      EngineMoves s .emitted
        { s with scheduler := s.scheduler.markEmitted i s.now, emitting := none }
  | emitFailed : EngineMoves s .emitFailed { s with emitting := none }
  | autonomous {c : ι} {reason : StateReason} (hr : autonomous reason = true) :
      EngineMoves s (.state c reason) { s with scheduler := s.scheduler.forget c }
  | commanded {c : ι} {reason : StateReason} (hr : autonomous reason = false) :
      EngineMoves s (.state c reason) s
  | tombstone {a : DeviceAssignment ι R T B} (ha : a.adopted = false) :
      EngineMoves s (.assignment a)
        { s with
          assignments := ⟨s.assignments.adopted.erase a.deviceId⟩
          scheduler := s.scheduler.forget a.deviceId }
  | adopt {a : DeviceAssignment ι R T B} (ha : a.adopted = true) :
      EngineMoves s (.assignment a)
        { s with assignments := ⟨insert a.deviceId s.assignments.adopted⟩ }
  | connection (connected : Bool) :
      EngineMoves s (.connection connected) { s with connected := connected }
  | setProfiles {profiles : List (ChannelProfile ι)} {scheduler : LightingScheduler ι}
      (hs : s.scheduler.setProfiles profiles = some scheduler) :
      EngineMoves s (.setProfiles profiles) { s with scheduler := scheduler }
  | reset : EngineMoves s .reset { s with scheduler := s.scheduler.reset }

variable {s s' : Engine ι} {a : EngineAction ι R T B} {c : ι}

/-- **Inversion.**  A step is one of `EngineMoves`. -/
theorem engine_moves (h : (engine ι R T B).step s a = some s') : EngineMoves s a s' := by
  change s.step a = some s' at h
  cases a with
  | due now held =>
      simp only [Engine.step] at h
      split at h
      · next hw =>
          cases h
          have he : s.intents.isEmpty = true ∧ s.emitting.isNone = true := by
            simpa [Engine.waiting] using hw
          exact .due now held (Option.isNone_iff_eq_none.mp he.2)
      · cases h
  | next =>
      simp only [Engine.step] at h
      split at h
      · next hi =>
          split at h
          · next ha =>
              cases h
              obtain ⟨ha, -⟩ := Bool.and_eq_true_iff.mp ha
              exact .emit hi (of_decide_eq_true ha)
          · cases h; exact .suppress hi
      · cases h
  | accept =>
      simp only [Engine.step] at h
      split at h
      · next he => cases h; exact .accept he
      · cases h
  | emitted =>
      simp only [Engine.step] at h
      split at h
      · next he => cases h; exact .emitted he
      · cases h
  | emitFailed =>
      obtain ⟨e, -, rfl⟩ := Option.map_eq_some_iff.mp h
      exact .emitFailed
  | state c reason =>
      simp only [Engine.step] at h
      split at h
      · next hr => cases h; exact .autonomous hr
      · next hr => cases h; exact .commanded (by simpa using hr)
  | assignment a =>
      simp only [Engine.step, AssignmentLedger.apply] at h
      split at h
      · next ha => cases h; exact .adopt ha
      · next ha => cases h; exact .tombstone (by simpa using ha)
  | connection connected => cases h; exact .connection connected
  | setProfiles profiles =>
      simp only [Engine.step] at h
      split at h
      · obtain ⟨scheduler, hs, rfl⟩ := Option.map_eq_some_iff.mp h
        exact .setProfiles hs
      · cases h
  | reset =>
      simp only [Engine.step] at h
      split at h
      · cases h; exact .reset
      · cases h

/-! ### What a run leaves behind -/

/-- What a reader of the run knows besides the engine's state. -/
structure Trail (ι : Type) where
  /-- The scheduler that the tick's intents were decided on, with the clock and the holds. -/
  decidedOn : LightingScheduler ι
  now : ℚ
  held : Dict ι HeldTarget
  /-- Channels forgotten since then. -/
  forgotten : Finset ι
  /-- Channels forgotten, and not published since. -/
  unpublished : Finset ι

/-- Nothing has been forgotten. -/
def Trail.started (scheduler : LightingScheduler ι) : Trail ι := ⟨scheduler, 0, ∅, ∅, ∅⟩

/-- A channel is forgotten, and has published nothing since. -/
def Trail.forget (t : Trail ι) (c : ι) : Trail ι :=
  { t with forgotten := insert c t.forgotten, unpublished := insert c t.unpublished }

/-- What a step writes down. -/
def Trail.note (s : Engine ι) (a : EngineAction ι R T B) (_ : Engine ι) (t : Trail ι) : Trail ι :=
  match a with
  | .due now held => ⟨s.scheduler, now, held, ∅, t.unpublished⟩
  | .accept => { t with unpublished := s.emitChannel.elim t.unpublished t.unpublished.erase }
  | a => a.forgets.elim t t.forget

/-- The engine and its trail. -/
abbrev trailed (ι R T B : Type) [LinearOrder ι] :
    Machine (Engine ι × Trail ι) (EngineAction ι R T B) := (engine ι R T B).ghost Trail.note

/-- What is to hold at each step: the first intent of a forgotten channel to be published was
decided on no history of the channel, and to record an intent decided before the forget leaves
none. -/
def ForgetKept (p : Engine ι × Trail ι) : EngineAction ι R T B → Prop
  | .accept => ∀ e ∈ p.1.emitting, e.intent ∈ p.2.decidedOn.due p.2.now p.2.held ∧
      (e.intent.channelId ∈ p.2.unpublished → p.2.decidedOn.memory e.intent.channelId = .cold)
  | .emitted => ∀ e ∈ p.1.emitting, e.intent.channelId ∈ p.2.forgotten →
      (p.1.scheduler.markEmitted e.intent p.1.now).memory e.intent.channelId = .cold
  | _ => True

/-- The messages that keep clear of a tick: no forget of a channel while its intent is in flight,
none by an actuator state while its intent waits to be published, and no channel bound again while
an intent decided before its tombstone waits. -/
def Timely (p : Engine ι × Trail ι) : EngineAction ι R T B → Prop
  | .state c reason => autonomous reason = true → p.1.emitChannel ≠ some c ∧
      (c ∈ p.1.intents.map Intent.channelId → c ∉ p.1.assignments.adopted)
  | .assignment a =>
      if a.adopted then
        a.deviceId ∈ p.2.forgotten → a.deviceId ∉ p.1.intents.map Intent.channelId
      else p.1.emitChannel ≠ some a.deviceId
  | _ => True

instance (p : Engine ι × Trail ι) : (a : EngineAction ι R T B) → Decidable (Timely p a)
  | .state _ _ => inferInstanceAs (Decidable (_ → _ ∧ (_ → _)))
  | .assignment a =>
      inferInstanceAs (Decidable (if a.adopted then _ ∈ _ → _ ∉ _ else _ ≠ _))
  | .due _ _ | .next | .accept | .emitted | .emitFailed | .connection _ | .setProfiles _ | .reset =>
      .isTrue trivial

instance (p : Engine ι × Trail ι) : (a : EngineAction ι R T B) → Decidable (ForgetKept p a)
  | .accept => inferInstanceAs (Decidable (∀ e ∈ p.1.emitting, _ ∧ (_ → _)))
  | .emitted => inferInstanceAs (Decidable (∀ e ∈ p.1.emitting, _ ∈ _ → _ = _))
  | .due _ _ | .next | .emitFailed | .state _ _ | .assignment _ | .connection _ | .setProfiles _
  | .reset => .isTrue trivial

/-! ### The invariant -/

/-- What timely messages keep. -/
structure Kept (p : Engine ι × Trail ι) : Prop where
  decided : ∀ i ∈ p.1.intents, i ∈ p.2.decidedOn.due p.2.now p.2.held
  emitting : ∀ e ∈ p.1.emitting, e.intent ∈ p.2.decidedOn.due p.2.now p.2.held ∧
    e.intent.channelId ∉ p.2.forgotten ∧
    (e.accepted = true → e.intent.channelId ∉ p.2.unpublished)
  /-- An intent overtaken by a forget will be suppressed. -/
  overtaken : ∀ i ∈ p.1.intents, i.channelId ∈ p.2.forgotten →
    i.channelId ∉ p.1.assignments.adopted
  cold : ∀ c ∈ p.2.unpublished, p.1.scheduler.memory c = .cold
  decidedCold : ∀ c ∈ p.2.unpublished, c ∉ p.2.forgotten → p.2.decidedOn.memory c = .cold

/-- An engine that starts has forgotten nothing. -/
theorem kept_started (scheduler : LightingScheduler ι) :
    Kept (Engine.started scheduler, Trail.started scheduler) where
  decided := fun _ hi => by cases hi
  emitting := fun _ he => by cases he
  overtaken := fun _ hi => by cases hi
  cold := fun c hc => absurd hc (Finset.notMem_empty c)
  decidedCold := fun c hc => absurd hc (Finset.notMem_empty c)

/-- A timely forget keeps it. -/
theorem Kept.forget {t : Trail ι} {ledger : AssignmentLedger ι} (h : Kept (s, t))
    (hf : s.emitChannel ≠ some c) (hl : ledger.adopted ⊆ s.assignments.adopted)
    (hc : c ∈ s.intents.map Intent.channelId → c ∉ ledger.adopted) :
    Kept ({ s with assignments := ledger, scheduler := s.scheduler.forget c }, t.forget c) where
  decided := h.decided
  emitting := fun e he => by
    obtain ⟨hdue, hnot, hacc⟩ := h.emitting e he
    have hne : e.intent.channelId ≠ c := by
      rintro rfl
      exact hf (by rw [Engine.emitChannel, Option.mem_def.mp he]; rfl)
    refine ⟨hdue, ?_, fun ha => ?_⟩
    · simpa [Trail.forget, hne] using hnot
    · simpa [Trail.forget, hne] using hacc ha
  overtaken := fun i hi hmem => by
    rcases Finset.mem_insert.mp hmem with he | hmem
    · exact he ▸ hc (he ▸ List.mem_map_of_mem hi)
    · exact fun ha => h.overtaken i hi hmem (hl ha)
  cold := fun c' hc' => by
    rw [LightingScheduler.memory_forget]
    split
    · rfl
    · next hne => exact h.cold c' ((Finset.mem_insert.mp hc').resolve_left hne)
  decidedCold := fun c' hc' hnot => by
    rcases Finset.mem_insert.mp hc' with rfl | hc'
    · exact absurd (Finset.mem_insert_self _ _) hnot
    · exact h.decidedCold c' hc' fun hf => hnot (Finset.mem_insert_of_mem hf)

/-- A step that forgets nothing and decides nothing keeps it, if it turns to no new intent and
warms no channel. -/
theorem Kept.quiet {t : Trail ι} (h : Kept (s, t)) (hi : s'.intents = s.intents)
    (he : s'.emitting = s.emitting) (ha : s'.assignments = s.assignments)
    (hm : ∀ c, s.scheduler.memory c = .cold → s'.scheduler.memory c = .cold) : Kept (s', t) where
  decided := hi ▸ h.decided
  emitting := he ▸ h.emitting
  overtaken := by rw [hi, ha]; exact h.overtaken
  cold := fun c hc => hm c (h.cold c hc)
  decidedCold := h.decidedCold

/-- **The invariant is kept** by every timely step. -/
theorem kept_step {t : Trail ι} (h : Kept (s, t)) (hC : Timely (s, t) a)
    (hm : EngineMoves s a s') : Kept (s', Trail.note s a s' t) := by
  cases hm with
  | due now held he =>
      refine ⟨fun _ hi => hi, ?_, fun i _ hf => absurd hf (Finset.notMem_empty _), h.cold,
        fun c hc _ => h.cold c hc⟩
      intro e hmem
      have hmem : s.emitting = some e := hmem
      rw [he] at hmem
      cases hmem
  | suppress hi =>
      refine ⟨fun i hmem => h.decided i ?_, h.emitting, fun i hmem => h.overtaken i ?_, h.cold,
        h.decidedCold⟩ <;> exact hi ▸ List.mem_cons_of_mem _ hmem
  | emit hi ha =>
      refine ⟨fun i hmem => h.decided i ?_, ?_, fun i hmem => h.overtaken i ?_, h.cold,
        h.decidedCold⟩
      · exact hi ▸ List.mem_cons_of_mem _ hmem
      · rintro e ⟨⟩
        have hhead := hi ▸ List.mem_cons_self
        exact ⟨h.decided _ hhead, fun hf => h.overtaken _ hhead hf ha, fun hacc => by cases hacc⟩
      · exact hi ▸ List.mem_cons_of_mem _ hmem
  | @accept i he =>
      obtain ⟨hdue, hnot, -⟩ := h.emitting _ he
      have hnote : Trail.note s (.accept : EngineAction ι R T B) { s with emitting := some ⟨i, true⟩ } t
          = { t with unpublished := t.unpublished.erase i.channelId } := by
        rw [Trail.note, Engine.emitChannel, he]; rfl
      rw [hnote]
      refine ⟨h.decided, ?_, h.overtaken, fun c hc => h.cold c (Finset.mem_of_mem_erase hc),
        fun c hc => h.decidedCold c (Finset.mem_of_mem_erase hc)⟩
      rintro e ⟨⟩
      exact ⟨hdue, hnot, fun _ => Finset.notMem_erase _ _⟩
  | @emitted i he =>
      obtain ⟨-, -, hacc⟩ := h.emitting _ he
      refine ⟨h.decided, nofun, h.overtaken, fun c hc => ?_, h.decidedCold⟩
      rw [LightingScheduler.memory_markEmitted, if_neg]
      · exact h.cold c hc
      · rintro rfl
        exact hacc rfl hc
  | emitFailed => exact ⟨h.decided, nofun, h.overtaken, h.cold, h.decidedCold⟩
  | @autonomous c reason hr =>
      obtain ⟨hf, hc⟩ := hC hr
      have hnote : Trail.note s (.state c reason : EngineAction ι R T B)
          { s with scheduler := s.scheduler.forget c } t = t.forget c := by
        simp [Trail.note, EngineAction.forgets, hr]
      rw [hnote]
      exact h.forget hf (Finset.Subset.refl _) hc
  | @commanded c reason hr =>
      have hnote : Trail.note s (.state c reason : EngineAction ι R T B) s t = t := by
        simp [Trail.note, EngineAction.forgets, hr]
      rw [hnote]
      exact h
  | @tombstone a ha =>
      have hf : s.emitChannel ≠ some a.deviceId := by simpa [Timely, ha] using hC
      simp only [Trail.note, EngineAction.forgets, ha, Bool.false_eq_true, if_false, Option.elim_some]
      exact h.forget hf (Finset.erase_subset _ _) fun _ => Finset.notMem_erase _ _
  | @adopt a ha =>
      have hw : a.deviceId ∈ t.forgotten → a.deviceId ∉ s.intents.map Intent.channelId := by
        simpa [Timely, ha] using hC
      simp only [Trail.note, EngineAction.forgets, ha, if_true, Option.elim_none]
      refine ⟨h.decided, h.emitting, fun i hi hf hmem => ?_, h.cold, h.decidedCold⟩
      rcases Finset.mem_insert.mp hmem with he | hmem
      · exact hw (he ▸ hf) (he ▸ List.mem_map_of_mem hi)
      · exact h.overtaken i hi hf hmem
  | connection => exact h.quiet rfl rfl rfl fun _ hc => hc
  | @setProfiles profiles scheduler hs =>
      refine h.quiet rfl rfl rfl fun c hc => ?_
      rw [LightingScheduler.setProfiles] at hs
      split at hs
      · cases hs; exact hc
      · cases hs
  | reset =>
      exact h.quiet rfl rfl rfl fun c _ => by
        simp [LightingScheduler.memory, LightingScheduler.reset, Memory.cold]

/-- What the invariant gives at the next step. -/
theorem Kept.forgetKept {p : Engine ι × Trail ι} (h : Kept p) : ForgetKept p a := by
  cases a with
  | accept =>
      intro e he
      obtain ⟨hdue, hnot, -⟩ := h.emitting e he
      exact ⟨hdue, fun hc => h.decidedCold _ hc hnot⟩
  | emitted =>
      intro e he hf
      exact absurd hf (h.emitting e he).2.1
  | due | next | emitFailed | state | assignment | connection | setProfiles | reset => trivial

/-- **No forget is lost**, in a run whose messages are timely. -/
theorem forget_kept {scheduler : LightingScheduler ι} {as : List (EngineAction ι R T B)}
    {p : Engine ι × Trail ι}
    (h : (trailed ι R T B).RunIf Timely (Engine.started scheduler, Trail.started scheduler) as p) :
    (trailed ι R T B).RunIf ForgetKept (Engine.started scheduler, Trail.started scheduler) as p := by
  refine h.keeps (kept_started scheduler) (Machine.ghost_preserves ?_) fun _ _ _ _ hI _ =>
    hI.forgetKept
  intro _ _ _ _ hC hI hs
  exact kept_step hI hC (engine_moves hs)

/-- A light at a quarter, and from the first minute at three quarters. -/
def dawn : LightingScheduler ℕ :=
  .init ⟨1 / 100, 300, none, hundredth_nonneg, five_minutes_pos, no_rate_pos⟩
    [⟨0, fun t => if t < 60 then 1 / 4 else 3 / 4⟩] (by simp)

/-- The light is adopted, and its first intent published. -/
def firstTick : List (EngineAction ℕ Unit Unit Unit) :=
  [.assignment ⟨0, true, none, some (), some (), bound_unit true⟩, .due 0 ∅, .next, .accept,
    .emitted]

/-- The next intent, published. -/
def secondTick : List (EngineAction ℕ Unit Unit Unit) := [.next, .accept, .emitted]

/-- A channel is forgotten between two ticks. -/
theorem forget_kept_dawn :
    ∃ p, (trailed ℕ Unit Unit Unit).RunIf ForgetKept (Engine.started dawn, Trail.started dawn)
      (firstTick ++ .state 0 .safeState :: .due 60 ∅ :: secondTick) p := by
  have hrun : ((trailed ℕ Unit Unit Unit).execIf Timely
      (Engine.started dawn, Trail.started dawn)
      (firstTick ++ .state 0 .safeState :: .due 60 ∅ :: secondTick)).isSome = true := by
    decide +kernel
  obtain ⟨p, hp⟩ := Option.isSome_iff_exists.mp hrun
  exact ⟨p, forget_kept (Machine.execIf_eq_some.mp hp)⟩

/-- While the next intent is being published, hardware-io trips. -/
def overtaken : List (EngineAction ℕ Unit Unit Unit) :=
  [.due 60 ∅, .next, .state 0 .safeState, .accept, .emitted]

/-- The light is sent to three quarters as if it still were at a quarter, and the scheduler
remembers it so. -/
theorem not_forget_kept :
    ¬ ∀ (scheduler : LightingScheduler ℕ) (as : List (EngineAction ℕ Unit Unit Unit))
      (p : Engine ℕ × Trail ℕ),
      (trailed ℕ Unit Unit Unit).Run (Engine.started scheduler, Trail.started scheduler) as p →
      (trailed ℕ Unit Unit Unit).RunIf ForgetKept
        (Engine.started scheduler, Trail.started scheduler) as p := by
  intro h
  have hrun : ((trailed ℕ Unit Unit Unit).exec (Engine.started dawn, Trail.started dawn)
      (firstTick ++ overtaken)).isSome = true := by
    decide +kernel
  have hlost : ((trailed ℕ Unit Unit Unit).execIf ForgetKept
      (Engine.started dawn, Trail.started dawn)
      (firstTick ++ overtaken)).isSome = false := by
    decide +kernel
  obtain ⟨p, hp⟩ := Option.isSome_iff_exists.mp hrun
  have hkept := Machine.execIf_eq_some.mpr (h dawn _ p (Machine.exec_eq_some.mp hp))
  rw [hkept] at hlost
  cases hlost

end BellasReef.ControlEngine
