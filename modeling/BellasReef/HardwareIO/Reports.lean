import BellasReef.HardwareIO.Calls

/-!
# HardwareIO — Reports

What becomes of a trip that landed: the call of the event sink.

`supervisor` hands the events over and goes on.  Here the sink suspends before it returns, so the
call of a trip that landed stays in flight, on the task whose trip it was: `Reporting`.  The
watcher waits for its own.  The runtime task does not get to: `_mark_safe` has just cancelled
`guard.runtime_task`, the very task that is to await the sink.  And whatever else leaves the
actuator safe cancels a runtime trip on its way.  `reported_iff` is the exact condition for every
trip that lands, and every latch, to be reported once.
-/

namespace BellasReef.HardwareIO
open BellasReef.Contracts BellasReef.Support

variable {ι L : Type}

/-! ### The sink's calls -/

/-- The trip that an event reports as landed. -/
def SafetyEvent.trip : SafetyEvent → Option TripReason
  | ⟨.heartbeatTimeout, true⟩ => some .heartbeatTimeout
  | ⟨.maxRuntimeExceeded, true⟩ => some .maxRuntimeExceeded
  | _ => none

/-- A call of the sink for a trip that landed, suspended; `cancelled` if its task is. -/
structure SinkCall where
  reason : TripReason
  cancelled : Bool
  deriving DecidableEq, Repr

/-- A supervised actuator, and the sink's calls in flight. -/
structure Reporting (L : Type) where
  state : State L
  sink : List SinkCall

/-- What the supervisor and the sink do. -/
inductive ReportingAction (ι L : Type) where
  | act (a : Action ι L)
  /-- The `i`-th call of the sink in flight ends: it returns, or its task's cancellation reaches
  it. -/
  | sinkEnds (i : ℕ)

/-- The sink is called from the task whose trip it reports; `_mark_safe` cancelled the runtime task
if there was one. -/
def State.sinkCall (s : State L) (reason : TripReason) : SinkCall :=
  ⟨reason, reason = .maxRuntimeExceeded && s.runtimeTask.isSome⟩

/-- The watcher takes the beat that ends a trip. -/
def Action.resumes : Action ι L → Bool
  | .watchResume => true
  | _ => false

/-- The watcher awaits the sink. -/
def Reporting.watcherBusy (s : Reporting L) : Bool := s.sink.any (·.reason = .heartbeatTimeout)

variable [DecidableEq L]

/-- One step of one of them. -/
def Reporting.step (A : Actuator L) (s : Reporting L) :
    ReportingAction ι L → Option (Reporting L)
  | .act a =>
      if a.resumes && s.watcherBusy then none
      else (s.state.step A a).map fun p =>
        ⟨p.1, s.sink ++ (p.2.filterMap SafetyEvent.trip).map s.state.sinkCall⟩
  | .sinkEnds i => if i < s.sink.length then some { s with sink := s.sink.eraseIdx i } else none

/-- The supervisor of one actuator, under a sink that suspends. -/
def reporting (ι : Type) (A : Actuator L) : Machine (Reporting L) (ReportingAction ι L) where
  step := fun s a => s.step A a

/-- An actuator just registered. -/
def Reporting.registered (A : Actuator L) (now wall : ℚ) (trusted : Bool) : Reporting L :=
  ⟨.registered A now wall trusted, []⟩

/-! ### The tally -/

/-- What was counted: latches; trips that landed, and those whose call of the sink returned; and
the sink's calls that were cancelled. -/
structure Tally where
  latches : ℕ
  landed : TripReason → ℕ
  reported : TripReason → ℕ
  cancelled : ℕ

/-- Nothing has been counted. -/
def Tally.zero : Tally := ⟨0, fun _ => 0, fun _ => 0, 0⟩

/-- The trip whose drive a step returns from. -/
def State.lands (s : State L) : Action ι L → Option TripReason
  | .complete i =>
      match s.calls[i]? with
      | some ⟨.heartbeat, .written⟩ => some .heartbeatTimeout
      | some ⟨.runtime, .written⟩ => some .maxRuntimeExceeded
      | _ => none
  | _ => none

/-- The runtime task latches. -/
def Action.latches : Action ι L → Bool
  | .deadline => true
  | _ => false

/-- A count, one more at `r`. -/
def bump (f : TripReason → ℕ) (r : TripReason) : TripReason → ℕ :=
  Function.update f r (f r + 1)

/-- What is counted at a step. -/
def Tally.note (s : Reporting L) (a : ReportingAction ι L) (t : Tally) : Tally :=
  match a with
  | .act a =>
      { t with
        latches := t.latches + a.latches.toNat
        landed := (s.state.lands a).elim t.landed (bump t.landed) }
  | .sinkEnds i =>
      match s.sink[i]? with
      | some ⟨_, true⟩ => { t with cancelled := t.cancelled + 1 }
      | some ⟨r, false⟩ => { t with reported := bump t.reported r }
      | none => t

/-- The reports, with what was counted written down beside them. -/
abbrev tallying (ι : Type) (A : Actuator L) :
    Machine (Reporting L × Tally) (ReportingAction ι L) :=
  (reporting ι A).ghost fun s a _ t => t.note s a

omit [DecidableEq L] in
/-- The runtime task is past its deadline, in its own trip. -/
def State.pastDeadline (s : State L) : Bool := s.runtimeTask.any (· matches .tripping _ _)

/-- The sink's calls in flight for a trip. -/
def Reporting.inFlight (s : Reporting L) (r : TripReason) : ℕ :=
  (s.sink.map SinkCall.reason).count r

/-- **Every trip that lands is reported once**, or is being reported; no call of the sink is
cancelled; and every latch is of a trip that was reported, is being, or is still under way. -/
structure Reported (s : Reporting L) (t : Tally) : Prop where
  uncancelled : t.cancelled = 0 ∧ ∀ c ∈ s.sink, c.cancelled = false
  once : ∀ r, t.landed r = t.reported r + s.inFlight r
  latched : t.latches =
    t.reported .maxRuntimeExceeded + s.inFlight .maxRuntimeExceeded + s.state.pastDeadline.toNat

/-- A step returns from a driver call that leaves the actuator safe: a trip's, or a command to its
safe level. -/
def State.Rests (A : Actuator L) (s : State L) : Action ι L → Prop
  | .complete i => ∃ c ∈ s.calls[i]?, c.phase = .written ∧
      (c.caller = .heartbeat ∨ c.caller = .runtime ∨ c.caller = .command A.safeState)
  | _ => False

instance (A : Actuator L) (s : State L) (a : Action ι L) : Decidable (s.Rests A a) :=
  match a with
  | .complete i => inferInstanceAs (Decidable (∃ c ∈ s.calls[i]?, _))
  | .command _ | .write _ | .fail _ | .heartbeat | .watchBeat | .watchTimeout | .watchReported
  | .watchRetry | .watchResume | .deadline | .runtimeReported | .runtimeRetry | .clearLatch
  | .tick _ | .setClock _ _ => isFalse id

/-- No step leaves the actuator safe while its runtime task is past its deadline. -/
def Undisturbed (A : Actuator L) (s : Reporting L) : ReportingAction ι L → Prop
  | .act a => s.state.Rests A a → s.state.pastDeadline = false
  | .sinkEnds _ => True

instance (A : Actuator L) (s : Reporting L) (a : ReportingAction ι L) :
    Decidable (Undisturbed A s a) :=
  match a with
  | .act _ => inferInstanceAs (Decidable (_ → _))
  | .sinkEnds _ => isTrue trivial

/-! ### What a step does to the runtime task's trip -/

variable {A : Actuator L} {s s' : State L} {a : Action ι L}

/-- The events of a step report the trip that it lands. -/
theorem trips_step {es : List SafetyEvent} (h : s.step A a = some (s', es)) :
    es.filterMap SafetyEvent.trip = (s.lands a).toList := by
  cases a with
  | command c =>
      simp only [State.step] at h
      split at h
      · next o why hr =>
          cases h
          have hwhy : why = .clockUntrusted ∨ why = .commandExpired ∨ why = .latched := by
            rw [State.admission] at hr
            repeat' split at hr
            all_goals first | (cases hr; simp) | cases hr
          rcases hwhy with rfl | rfl | rfl <;> rfl
      · cases h; rfl
      · cases h; rfl
  | complete i =>
      simp only [State.step, Option.bind_eq_some_iff] at h
      obtain ⟨⟨who, p⟩, hc, h⟩ := h
      rw [State.lands, hc]
      split at h
      · cases who <;> cases p <;> first | (cases h; rfl) | cases h
      · cases h
  | clearLatch | heartbeat | setClock => cases h; rfl
  | write | fail | watchBeat | watchTimeout | watchReported | watchRetry | watchResume | deadline
  | runtimeReported | runtimeRetry | tick =>
      simp only [State.step] at h
      repeat' split at h
      all_goals first | (cases h; rfl) | cases h

omit [DecidableEq L] in
theorem pastDeadline_of_driving (h : s.runtimeDriving = true) : s.pastDeadline = true := by
  rw [State.runtimeDriving] at h
  rw [State.pastDeadline]
  cases ht : s.runtimeTask with
  | none => rw [ht] at h; cases h
  | some r =>
      cases r with
      | sleeping d => rw [ht] at h; cases h
      | tripping d t => rfl

/-- Its call is in flight only while it drives. -/
theorem pastDeadline_of_call {i : ℕ} {p : Phase} (hat : Attended s)
    (hc : s.calls[i]? = some ⟨.runtime, p⟩) : s.pastDeadline = true := by
  refine pastDeadline_of_driving ?_
  by_contra hd
  exact hat.not_mem (Bool.eq_false_of_not_eq_true hd) (List.mem_of_getElem? (callers_get hc))

/-- What leaves the actuator safe ends it. -/
theorem pastDeadline_rests (hm : Moves A s a s') (hr : s.Rests A a) :
    s'.pastDeadline = false := by
  cases hm with
  | @commandDone i l hc =>
      obtain ⟨c, hc', -, hwho⟩ := hr
      cases hc.symm.trans hc'
      obtain rfl : l = A.safeState := by simpa using hwho
      rw [State.noteLevel, if_pos rfl]
      rfl
  | heartbeatDone | runtimeDone => rfl
  | commandFailed hc | heartbeatFailed hc | runtimeFailed hc =>
      obtain ⟨c, hc', hp, -⟩ := hr
      cases hc.symm.trans hc'
      cases hp
  | abandonedDone hc =>
      obtain ⟨c, hc', -, hwho⟩ := hr
      cases hc.symm.trans hc'
      simp at hwho
  | quiet ha =>
      cases a with
      | complete i => exact absurd rfl (ha.2.2.1 i)
      | _ => cases hr
  | watchDrive ha => rcases ha with ⟨rfl, -⟩ | ⟨rfl, -⟩ <;> cases hr
  | _ => cases hr

/-- **No other step ends it**, and a deadline begins one. -/
theorem pastDeadline_step (hat : Attended s) (hm : Moves A s a s')
    (hr : s.Rests A a → s.pastDeadline = false) :
    s'.pastDeadline.toNat = s.pastDeadline.toNat + a.latches.toNat := by
  cases hm with
  | @commandDone i l hc =>
      rw [State.noteLevel]
      split
      · next hl => rw [hr ⟨_, hc, rfl, .inr (.inr (by rw [hl]))⟩]; rfl
      · split
        · cases ht : s.runtimeTask <;>
            simp [State.pastDeadline, State.dropCall, Action.latches, ht]
        · rfl
  | heartbeatDone hc => rw [hr ⟨_, hc, rfl, .inl rfl⟩]; rfl
  | runtimeDone hc => rw [hr ⟨_, hc, rfl, .inr (.inl rfl)⟩]; rfl
  | runtimeFailed hc =>
      have hpast := pastDeadline_of_call hat hc
      rw [hpast]
      rw [State.pastDeadline] at hpast ⊢
      cases ht : s.runtimeTask with
      | none => rw [ht] at hpast; cases hpast
      | some r => cases r <;> rfl
  | deadline ht | runtimeReported ht | runtimeRetry ht =>
      simp [State.pastDeadline, State.startCall, Action.latches, ht]
  | watchDrive ha => rcases ha with ⟨rfl, -⟩ | ⟨rfl, -⟩ <;> rfl
  | quiet ha _ _ _ _ hrt =>
      have hd : a.latches = false := by
        cases a with
        | deadline => exact absurd rfl ha.2.1
        | _ => rfl
      rw [hd, State.pastDeadline, hrt]
      rfl
  | _ => rfl

omit [DecidableEq L] in
/-- A trip whose call lands comes to rest. -/
theorem rests_of_lands {r : TripReason} (h : s.lands a = some r) : s.Rests A a := by
  cases a with
  | complete i =>
      rw [State.lands] at h
      split at h
      · next hc => exact ⟨_, hc, rfl, .inl rfl⟩
      · next hc => exact ⟨_, hc, rfl, .inr (.inl rfl)⟩
      · cases h
  | _ => cases h

/-- A runtime trip lands while it is past its deadline. -/
theorem pastDeadline_of_lands (hat : Attended s) (h : s.lands a = some .maxRuntimeExceeded) :
    s.pastDeadline = true := by
  cases a with
  | complete i =>
      rw [State.lands] at h
      split at h
      · cases h
      · next hc => exact pastDeadline_of_call hat hc
      · cases h
  | _ => cases h

omit [DecidableEq L] in
theorem latches_of_rests (h : s.Rests A a) : a.latches = false := by
  cases a with
  | complete i => rfl
  | _ => cases h

/-! ### The reports -/

section
variable {s s' : Reporting L} {t : Tally} {a : Action ι L} {i : ℕ}

/-- What a step of the supervisor does to the sink's calls. -/
theorem act_step (h : (reporting ι A).step s (.act a) = some s') :
    Moves A s.state a s'.state ∧
      s'.sink = s.sink ++ (s.state.lands a).toList.map s.state.sinkCall := by
  change s.step A (.act a : ReportingAction ι L) = some s' at h
  rw [Reporting.step] at h
  split at h
  · cases h
  · obtain ⟨⟨st, es⟩, hs, rfl⟩ := Option.map_eq_some_iff.mp h
    exact ⟨step_moves (supervisor_step.mpr ⟨es, hs⟩), by rw [trips_step hs]⟩

/-- What the end of a sink's call does. -/
theorem sinkEnds_step (h : (reporting ι A).step s (.sinkEnds i) = some s') :
    ∃ c, s.sink[i]? = some c ∧ s' = { s with sink := s.sink.eraseIdx i } := by
  change s.step A (.sinkEnds i : ReportingAction ι L) = some s' at h
  rw [Reporting.step] at h
  split at h
  · next hi => cases h; exact ⟨s.sink[i], List.getElem?_eq_getElem hi, rfl⟩
  · cases h

/-- **Step.**  A runtime call has its task. -/
theorem attended_reporting {a : ReportingAction ι L} (hat : Attended s.state)
    (h : (reporting ι A).step s a = some s') : Attended s'.state := by
  cases a with
  | act a => exact attended_step hat (act_step h).1
  | sinkEnds i => obtain ⟨c, -, rfl⟩ := sinkEnds_step h; exact hat

omit [DecidableEq L] in
/-- The calls of the sink that are in flight after a call has been added. -/
theorem inFlight_append {cs : List SinkCall} (h : s'.sink = s.sink ++ cs) (r : TripReason) :
    s'.inFlight r = s.inFlight r + (cs.map SinkCall.reason).count r := by
  rw [Reporting.inFlight, h, List.map_append, List.count_append, Reporting.inFlight]

omit [DecidableEq L] in
/-- And after one has ended. -/
theorem inFlight_eraseIdx {c : SinkCall} (hc : s.sink[i]? = some c) (r : TripReason) :
    Reporting.inFlight { s with sink := s.sink.eraseIdx i } r + (if c.reason = r then 1 else 0) =
      s.inFlight r := by
  rw [Reporting.inFlight, Reporting.inFlight, ← List.eraseIdx_map]
  exact count_eraseIdx (by rw [List.getElem?_map, hc]; rfl) r

omit [DecidableEq L] in
theorem bump_apply (f : TripReason → ℕ) (r r' : TripReason) :
    bump f r r' = f r' + if r = r' then 1 else 0 := by
  rw [bump, Function.update_apply]
  by_cases h : r' = r
  · rw [if_pos h, if_pos h.symm, h]
  · rw [if_neg h, if_neg (Ne.symm h), Nat.add_zero]

omit [DecidableEq L] in
/-- A trip that lands is one more landed, and one more in flight. -/
theorem landed_note {a : Action ι L} (r : TripReason) :
    (t.note s (.act a)).landed r = t.landed r + (s.state.lands a).toList.count r := by
  rw [Tally.note]
  cases h : s.state.lands a with
  | none => simp
  | some r' => simp [bump_apply, List.count_singleton]

omit [DecidableEq L] in
theorem sinkCall_reasons (st : State L) (rs : List TripReason) :
    (rs.map st.sinkCall).map SinkCall.reason = rs := by
  rw [List.map_map]
  exact List.map_id rs

/-! ### The exact condition -/

/-- A trip's report was lost: its call of the sink was cancelled, or its latch has no trip. -/
def Lost (s : Reporting L) (t : Tally) : Prop :=
  t.cancelled ≠ 0 ∨ (∃ c ∈ s.sink, c.cancelled = true) ∨
    t.reported .maxRuntimeExceeded + s.inFlight .maxRuntimeExceeded + s.state.pastDeadline.toNat <
      t.latches

omit [DecidableEq L] in
/-- What is reported is not lost. -/
theorem Reported.not_lost (h : Reported s t) : ¬ Lost s t := by
  rintro (hc | ⟨c, hc, hcan⟩ | hlt)
  · exact hc h.uncancelled.1
  · rw [h.uncancelled.2 c hc] at hcan
    cases hcan
  · exact absurd h.latched hlt.ne'

/-- A runtime trip does not land undisturbed. -/
theorem lands_of_undisturbed {a : Action ι L} (hat : Attended s.state)
    (hC : Undisturbed A s (.act a)) : s.state.lands a ≠ some .maxRuntimeExceeded := by
  intro hl
  have hpast := pastDeadline_of_lands hat hl
  rw [hC (rests_of_lands hl)] at hpast
  cases hpast

/-- The runtime trips in flight do not change unless one lands. -/
theorem inFlight_act {a : Action ι L} (h : (reporting ι A).step s (.act a) = some s')
    (r : TripReason) : s'.inFlight r = s.inFlight r + (s.state.lands a).toList.count r := by
  rw [inFlight_append (act_step h).2, sinkCall_reasons]

omit [DecidableEq L] in
theorem count_lands {a : Action ι L} {st : State L} {r : TripReason} (h : st.lands a ≠ some r) :
    (st.lands a).toList.count r = 0 := by
  rw [List.count_eq_zero, Option.mem_toList]
  exact h

/-- **A step undisturbed keeps the count.** -/
theorem Reported.act {a : Action ι L} (hat : Attended s.state) (h : Reported s t)
    (hC : Undisturbed A s (.act a)) (hs : (reporting ι A).step s (.act a) = some s') :
    Reported s' (t.note s (.act a)) := by
  obtain ⟨hm, hsink⟩ := act_step hs
  have hlands := lands_of_undisturbed hat hC
  refine ⟨⟨h.uncancelled.1, fun c hc => ?_⟩, fun r => ?_, ?_⟩
  · rw [hsink, List.mem_append, List.mem_map] at hc
    rcases hc with hc | ⟨r, hr, rfl⟩
    · exact h.uncancelled.2 c hc
    · have hne : r ≠ .maxRuntimeExceeded := by
        rintro rfl
        exact hlands (Option.mem_toList.mp hr)
      rw [State.sinkCall, decide_eq_false hne, Bool.false_and]
  · rw [landed_note, inFlight_act hs, h.once r]
    exact Nat.add_assoc _ _ _
  · have hpast := pastDeadline_step hat hm hC
    have hlatched := h.latched
    have hflight := inFlight_act hs .maxRuntimeExceeded
    rw [count_lands hlands] at hflight
    change t.latches + a.latches.toNat = t.reported _ + _ + _
    omega

omit [DecidableEq L] in
/-- A call of the sink that was not cancelled returns, and is counted. -/
theorem note_sinkEnds {r : TripReason} (hc : s.sink[i]? = some ⟨r, false⟩) :
    t.note s (.sinkEnds i : ReportingAction ι L) = { t with reported := bump t.reported r } := by
  simp only [Tally.note, hc]

omit [DecidableEq L] in
/-- **Step.**  A call of the sink ends. -/
theorem Reported.sinkEnds {c : SinkCall} (h : Reported s t) (hc : s.sink[i]? = some c) :
    Reported { s with sink := s.sink.eraseIdx i } (t.note s (.sinkEnds i : ReportingAction ι L)) := by
  obtain ⟨r, can⟩ := c
  obtain rfl : can = false := h.uncancelled.2 _ (List.mem_of_getElem? hc)
  have hflight : ∀ r', Reporting.inFlight { s with sink := s.sink.eraseIdx i } r' +
      (if r = r' then 1 else 0) = s.inFlight r' := inFlight_eraseIdx hc
  rw [note_sinkEnds hc]
  refine ⟨⟨h.uncancelled.1, fun c hmem => h.uncancelled.2 c (List.mem_of_mem_eraseIdx hmem)⟩,
    fun r' => ?_, ?_⟩
  · have := h.once r'
    have := hflight r'
    change t.landed r' = bump t.reported r r' + _
    rw [bump_apply]
    omega
  · have := h.latched
    have := hflight .maxRuntimeExceeded
    change t.latches = bump t.reported r .maxRuntimeExceeded + _ + s.state.pastDeadline.toNat
    rw [bump_apply]
    omega

/-- **A step disturbed loses a report.** -/
theorem lost_of_disturbed {a : ReportingAction ι L} (h : Reported s t) (hC : ¬ Undisturbed A s a)
    (hs : (reporting ι A).step s a = some s') : Lost s' (t.note s a) := by
  cases a with
  | sinkEnds i => exact absurd trivial hC
  | act a =>
      obtain ⟨hrests, hpast⟩ := Classical.not_imp.mp hC
      have hpast := Bool.eq_true_of_not_eq_false hpast
      obtain ⟨hm, hsink⟩ := act_step hs
      by_cases hlands : s.state.lands a = some .maxRuntimeExceeded
      · -- the trip's own `_mark_safe` cancelled the task that awaits the sink
        have hsome : s.state.runtimeTask.isSome = true := by
          rw [State.pastDeadline] at hpast
          cases ht : s.state.runtimeTask with
          | none => rw [ht] at hpast; cases hpast
          | some r => rfl
        refine .inr (.inl ⟨s.state.sinkCall .maxRuntimeExceeded, ?_, ?_⟩)
        · rw [hsink, hlands]
          exact List.mem_append_right _ List.mem_cons_self
        · rw [State.sinkCall, hsome]
          rfl
      · have hafter := pastDeadline_rests hm hrests
        have hlatched := h.latched
        have hflight := inFlight_act hs .maxRuntimeExceeded
        rw [count_lands hlands] at hflight
        rw [hpast, Bool.toNat_true] at hlatched
        refine .inr (.inr ?_)
        change t.reported _ + _ + _ < t.latches + a.latches.toNat
        rw [hafter, latches_of_rests hrests, Bool.toNat_false]
        omega

/-- **What is lost stays lost.** -/
theorem lost_step {a : ReportingAction ι L} (hat : Attended s.state) (h : Lost s t)
    (hs : (reporting ι A).step s a = some s') : Lost s' (t.note s a) := by
  cases a with
  | act a =>
      obtain ⟨hm, hsink⟩ := act_step hs
      rcases h with hc | ⟨c, hc, hcan⟩ | hlt
      · exact .inl hc
      · exact .inr (.inl ⟨c, hsink ▸ List.mem_append_left _ hc, hcan⟩)
      · by_cases hlands : s.state.lands a = some .maxRuntimeExceeded
        · have hpast := pastDeadline_of_lands hat hlands
          refine .inr (.inl ⟨s.state.sinkCall .maxRuntimeExceeded, ?_, ?_⟩)
          · rw [hsink, hlands]
            exact List.mem_append_right _ List.mem_cons_self
          · rw [State.pastDeadline] at hpast
            rw [State.sinkCall]
            cases ht : s.state.runtimeTask with
            | none => rw [ht] at hpast; cases hpast
            | some r => rfl
        · have hflight := inFlight_act hs .maxRuntimeExceeded
          rw [count_lands hlands] at hflight
          refine .inr (.inr ?_)
          change t.reported _ + _ + _ < t.latches + a.latches.toNat
          by_cases hrests : s.state.Rests A a
          · rw [pastDeadline_rests hm hrests, Bool.toNat_false]
            omega
          · rw [pastDeadline_step hat hm fun hr => absurd hr hrests]
            omega
  | sinkEnds i =>
      obtain ⟨c, hc, rfl⟩ := sinkEnds_step hs
      obtain ⟨r, can⟩ := c
      cases can with
      | true =>
          refine .inl ?_
          simp only [Tally.note, hc]
          exact Nat.succ_ne_zero _
      | false =>
          rw [note_sinkEnds hc]
          rcases h with hc' | ⟨c, hmem, hcan⟩ | hlt
          · exact .inl hc'
          · refine .inr (.inl ⟨c, ?_, hcan⟩)
            have hperm := perm_cons_eraseIdx hc
            rcases List.mem_cons.mp (hperm.mem_iff.mpr hmem) with rfl | hmem
            · cases hcan
            · exact hmem
          · have hflight : Reporting.inFlight { s with sink := s.sink.eraseIdx i }
                .maxRuntimeExceeded + (if r = .maxRuntimeExceeded then 1 else 0) =
                s.inFlight .maxRuntimeExceeded := inFlight_eraseIdx hc _
            refine .inr (.inr ?_)
            change bump t.reported r .maxRuntimeExceeded + _ + s.state.pastDeadline.toNat < t.latches
            rw [bump_apply]
            omega

end

/-- **Reports, exactly.**  In a run from an actuator's registration every trip that lands, and
every latch, is reported once if and only if no step leaves the actuator safe while its runtime
task is past its deadline. -/
theorem reported_iff (A : Actuator L) (now wall : ℚ) (trusted : Bool)
    (as : List (ReportingAction ι L)) (p : Reporting L × Tally)
    (hrun : (tallying ι A).Run (.registered A now wall trusted, .zero) as p) :
    Reported p.1 p.2 ↔
      (tallying ι A).RunIf (fun p a => Undisturbed A p.1 a)
        (.registered A now wall trusted, .zero) as p := by
  have h₀ : Attended (Reporting.registered A now wall trusted).state ∧
      Reported (Reporting.registered A now wall trusted) .zero :=
    ⟨attended_registered now wall trusted, ⟨⟨rfl, nofun⟩, fun _ => rfl, rfl⟩⟩
  have hgood : ∀ p a q, Undisturbed A p.1 a → Attended p.1.state ∧ Reported p.1 p.2 →
      (tallying ι A).step p a = some q → Attended q.1.state ∧ Reported q.1 q.2 := by
    refine Machine.ghost_preserves fun s t a s' hC hI hs => ⟨attended_reporting hI.1 hs, ?_⟩
    cases a with
    | act a => exact hI.2.act hI.1 hC hs
    | sinkEnds i =>
        obtain ⟨c, hc, rfl⟩ := sinkEnds_step hs
        exact hI.2.sinkEnds (ι := ι) hc
  constructor
  · intro hend
    refine hrun.of_not_bad (B := fun p => Attended p.1.state ∧ Lost p.1 p.2) h₀ hgood ?_ ?_
      fun hlost => hend.not_lost hlost.2
    · rintro ⟨s, t⟩ a ⟨s', t'⟩ hC ⟨hat, hr⟩ h
      obtain ⟨hs, ht⟩ := Machine.ghost_step.mp h
      obtain rfl : t' = t.note s a := ht
      exact ⟨attended_reporting hat hs, lost_of_disturbed hr hC hs⟩
    · rintro ⟨s, t⟩ a ⟨s', t'⟩ ⟨hat, hlost⟩ h
      obtain ⟨hs, ht⟩ := Machine.ghost_step.mp h
      obtain rfl : t' = t.note s a := ht
      exact ⟨attended_reporting hat hs, lost_step hat hlost hs⟩
  · exact fun h => (h.invariant h₀ hgood).2

/-- A light just registered. -/
def darkLight : Reporting ActuatorLevel := .registered (lightRegistration .pca9685) 0 0 true

/-- Thirty seconds without a beat, and the trip is reported. -/
theorem reported_iff_heartbeat : ∃ p, (tallying Unit (lightRegistration .pca9685)).Run
    (darkLight, .zero)
    [.act (.tick 30), .act .watchTimeout, .act (.write 0), .act (.complete 0), .sinkEnds 0] p ∧
    Reported p.1 p.2 := by
  let p := (tallying Unit (lightRegistration .pca9685)).execIf
    (fun p a => Undisturbed (lightRegistration .pca9685) p.1 a) (darkLight, .zero)
    [.act (.tick 30), .act .watchTimeout, .act (.write 0), .act (.complete 0), .sinkEnds 0]
  have hp : p.isSome := by decide +kernel
  have hrun := Machine.execIf_eq_some.mp (Option.some_get hp).symm
  exact ⟨p.get hp, hrun.toRun, (reported_iff _ 0 0 true _ _ hrun.toRun).mpr hrun⟩

/-- A light runs to its cap, and the report of its trip is cancelled. -/
theorem not_reported : ¬ ∀ (as : List (ReportingAction Unit ActuatorLevel))
    (p : Reporting ActuatorLevel × Tally),
    (tallying Unit (lightRegistration .pca9685)).Run (darkLight, .zero) as p →
    Reported p.1 p.2 := by
  intro h
  let c : ActuatorCommand Unit ActuatorLevel :=
    ⟨(), .pwm ⟨1 / 2, by norm_num, by norm_num⟩, 0, 30, by norm_num⟩
  let p := (tallying Unit (lightRegistration .pca9685)).exec (darkLight, .zero)
    [.act (.command c), .act (.write 0), .act (.complete 0), .act (.tick lightMaxRuntimeS),
      .act .deadline, .act (.write 0), .act (.complete 0), .sinkEnds 0]
  have hp : p.map (·.2.cancelled) = some 1 := by decide +kernel
  obtain ⟨p, hp, hcancelled⟩ := Option.map_eq_some_iff.mp hp
  have hzero := (h _ _ (Machine.exec_eq_some.mp hp)).uncancelled.1
  rw [hcancelled] at hzero
  cases hzero

end BellasReef.HardwareIO
