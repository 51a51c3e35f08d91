import BellasReef.HardwareIO.CommandQueue

/-!
# HardwareIO — Wire truth

Whether the `ActuatorState` that `BR_STATE` retains is true.

Two publishers write it: the consumer after an applied command, with a level it decided on some
steps earlier and with `latched=False`; and the safety sink, inside the step that completes a
trip.  `clear_latch` publishes nothing.  So the retained state is true unless something that will
publish is still under way (`Hub.owed`), and that stays so in a run that keeps trips and commands
apart (`Hub.Apart`): no trip ends between a command's write and its publish, and no command
writes over a trip or over a latch.  `wire_truth_at_rest` is the result.
-/

namespace BellasReef.HardwareIO
open BellasReef.Contracts BellasReef.Support

variable {ι L : Type}

/-! ### Truth, and what is under way -/

/-- The retained state carries the level on the hardware and the latch. -/
def Hub.Truth (s : Hub ι L) : Prop :=
  s.retained.level = s.guard.hardware ∧ s.retained.latched = s.guard.latched

/-- The task is past its deadline. -/
def RuntimeTask.inTrip : RuntimeTask → Bool
  | .tripping _ _ => true
  | .sleeping _ => false

/-- A trip is under way. -/
def State.inTrip (s : State L) : Bool := s.watchTask.inTrip || s.runtimeTask.any RuntimeTask.inTrip

/-- A command has written, and its state is still to be published. -/
def Hub.pastWrite (s : Hub ι L) : Bool :=
  match s.stage with
  | .driving _ => s.guard.commandCalls.any (·.phase = .written)
  | .applied _ | .acked _ | .sampled _ _ => true
  | .looping | .fetching => false

/-- Something under way will publish. -/
def Hub.owed (s : Hub ι L) : Bool := s.guard.inTrip || s.pastWrite

/-- The consumer is between messages. -/
def Stage.idle : Stage ι L → Bool
  | .looping | .fetching => true
  | _ => false

/-- No command, trip or publish is in flight. -/
def Hub.AtRest (s : Hub ι L) : Prop :=
  s.stage.idle = true ∧ s.guard.calls = [] ∧ s.guard.inTrip = false

/-- The command the consumer has taken and not yet published. -/
def Stage.message : Stage ι L → Option (Message ι L)
  | .driving m | .applied m | .acked m | .sampled m _ => some m
  | .looping | .fetching => none

/-- `read_back` tells what is on the hardware, or nothing. -/
def Driver.Honest (d : Driver L) (hardware : L) : Prop :=
  d.readBack hardware = none ∨ d.readBack hardware = some hardware

/-- A call may write: a command's where no trip's write would be undone and no latch passed over,
an abandoned trip's where nothing changes or a trip will publish. -/
def Hub.MayWrite (A : Actuator L) (s : Hub ι L) : Caller L → Prop
  | .command _ =>
      (⟨.heartbeat, .written⟩ ∉ s.guard.calls ∧
        (⟨.runtime, .written⟩ ∉ s.guard.calls ∨ s.guard.watchTask.inTrip = true)) ∧
      (s.guard.latched = false ∨ s.guard.inTrip = true)
  | .abandoned => s.guard.hardware = A.safeState ∨ s.guard.inTrip = true
  | .heartbeat | .runtime => True

/-- A call that has written may return: a trip's where no command is between its write and its
publish, a dark command's, which cancels the runtime task, where no latch is set. -/
def Hub.MayReturn (A : Actuator L) (s : Hub ι L) : Caller L → Prop
  | .heartbeat => s.pastWrite = false
  | .runtime => s.pastWrite = false ∨ s.guard.watchTask.inTrip = true
  | .command l => l = A.safeState → s.guard.latched = false ∨ s.guard.watchTask.inTrip = true
  | .abandoned => True

/-- What each step may do, for trips and commands to stay apart. -/
def Hub.Apart [DecidableEq L] (A : Actuator L) (s : Hub ι L) : HubAction ι L → Prop
  | .guard (.write i) => ∀ c ∈ s.guard.calls[i]?, s.MayWrite A c.caller
  | .guard (.complete i) => ∀ c ∈ s.guard.calls[i]?, c.phase = .written → s.MayReturn A c.caller
  | .guard .clearLatch => s.guard.latched = false ∨ s.owed = true
  | .sample fails => ∀ m ∈ s.stage.message,
      s.guard.inTrip = true ∨
        if fails then A.driver.effectiveLevel m.command.level = some m.command.level
        else A.driver.Honest s.guard.hardware
  | _ => True

instance (s : Hub ι L) : Decidable s.AtRest :=
  inferInstanceAs (Decidable (_ ∧ _ ∧ _))

section Decidable
variable [DecidableEq L]

instance (s : Hub ι L) : Decidable s.Truth :=
  inferInstanceAs (Decidable (_ ∧ _))

instance (d : Driver L) (hardware : L) : Decidable (d.Honest hardware) :=
  inferInstanceAs (Decidable (_ ∨ _))

instance (A : Actuator L) (s : Hub ι L) : (who : Caller L) → Decidable (s.MayWrite A who)
  | .command _ => inferInstanceAs (Decidable ((_ ∧ (_ ∨ _)) ∧ (_ ∨ _)))
  | .abandoned => inferInstanceAs (Decidable (_ ∨ _))
  | .heartbeat | .runtime => .isTrue trivial

instance (A : Actuator L) (s : Hub ι L) : (who : Caller L) → Decidable (s.MayReturn A who)
  | .command _ => inferInstanceAs (Decidable (_ → _ ∨ _))
  | .runtime => inferInstanceAs (Decidable (_ ∨ _))
  | .heartbeat => inferInstanceAs (Decidable (_ = _))
  | .abandoned => .isTrue trivial

instance (A : Actuator L) (s : Hub ι L) : (a : HubAction ι L) → Decidable (s.Apart A a)
  | .guard (.write _) | .guard (.complete _) | .sample _ =>
      inferInstanceAs (Decidable (∀ c ∈ _, _))
  | .guard .clearLatch => inferInstanceAs (Decidable (_ ∨ _))
  | .publish _ | .fetch | .deliver | .redeliver _ | .fetched | .next | .ack | .publishState
  | .guard (.command _) | .guard (.fail _) | .guard .heartbeat | .guard .watchBeat
  | .guard .watchTimeout | .guard .watchReported | .guard .watchRetry | .guard .watchResume
  | .guard .deadline | .guard .runtimeReported | .guard .runtimeRetry | .guard (.tick _)
  | .guard (.setClock _ _) => .isTrue trivial

end Decidable

/-! ### What a trip publishes -/

/-- The step completes a trip, with this reason. -/
def State.tripDone (s : State L) : Action ι L → Option StateReason
  | .complete i =>
      match s.calls[i]? with
      | some ⟨.heartbeat, .written⟩ => some .safeState
      | some ⟨.runtime, .written⟩ => some .interlockLatch
      | _ => none
  | _ => none

variable [DecidableEq L] {A : Actuator L}

/-- A step publishes the safe state when it completes a trip, and nothing otherwise. -/
theorem published_step {s g : State L} {a : Action ι L} {es : List SafetyEvent}
    (r : ActuatorState L) (hc : a.isCommand = false) (h : s.step A a = some (g, es)) :
    es.foldl (onSafetyEvent A g.latched) r =
      (s.tripDone a).elim r fun reason => ⟨A.safeState, reason, g.latched⟩ := by
  cases a with
  | command => cases hc
  | complete i =>
      rw [State.step, Option.bind_eq_some_iff] at h
      obtain ⟨⟨who, p⟩, hcall, h⟩ := h
      rw [State.tripDone, hcall]
      split at h
      · cases who <;> cases p <;> cases h <;> rfl
      · cases h
  | write | fail | watchBeat | watchTimeout | watchReported | watchRetry | watchResume | deadline
  | runtimeReported | runtimeRetry | tick =>
      simp only [State.step] at h
      repeat' split at h
      all_goals first | cases h; rfl | cases h
  | heartbeat | clearLatch | setClock => cases h; rfl

/-! ### Trips that have written -/

/-- A trip that has written and is still to return left the safe state, or the watcher's trip
will. -/
structure TripsSafe (A : Actuator L) (s : State L) : Prop where
  heartbeat : ⟨.heartbeat, .written⟩ ∈ s.calls → s.hardware = A.safeState
  runtime : ⟨.runtime, .written⟩ ∈ s.calls →
    s.hardware = A.safeState ∨ s.watchTask.inTrip = true

omit [DecidableEq L] in
theorem tripsSafe_registered (now wall : ℚ) (trusted : Bool) :
    TripsSafe A (State.registered A now wall trusted) :=
  ⟨fun _ => rfl, fun _ => .inl rfl⟩

section TripsSafe
variable {s s' : State L} {a : Action ι L}

omit [DecidableEq L] in
/-- With no new call that has written, and the hardware and the watcher's trip as they were. -/
theorem TripsSafe.mono (h : TripsSafe A s) (hc : ∀ c ∈ s'.calls, c.phase = .written →
      c.caller = .heartbeat ∨ c.caller = .runtime → c ∈ s.calls)
    (hh : s'.hardware = s.hardware)
    (hw : s.watchTask.inTrip = true → s'.watchTask.inTrip = true) : TripsSafe A s' where
  heartbeat hm := hh.trans (h.heartbeat (hc _ hm rfl (.inl rfl)))
  runtime hm := (h.runtime (hc _ hm rfl (.inr rfl))).imp hh.trans hw

omit [DecidableEq L] in
/-- A safe level is safe whoever wrote it. -/
theorem TripsSafe.of_safe (hh : s'.hardware = A.safeState) : TripsSafe A s' :=
  ⟨fun _ => hh, fun _ => .inl hh⟩

omit [DecidableEq L] in
theorem written_startCall {who : Caller L} {c : Call L} (hc : c ∈ (s.startCall who).calls)
    (hp : c.phase = .written) : c ∈ s.calls := by
  rcases List.mem_append.mp hc with hc | hc
  · exact hc
  · rw [List.mem_singleton.mp hc] at hp; cases hp

omit [DecidableEq L] in
/-- A cancellation adds no trip's call, and leaves none of the runtime task's. -/
theorem mem_cancelRuntime {c : Call L} (hc : c ∈ (s.cancelRuntime A).calls)
    (hw : c.caller ≠ .abandoned) : c ∈ s.calls ∧ c.caller ≠ .runtime := by
  simp only [State.cancelRuntime] at hc
  split at hc
  · refine ⟨List.mem_of_mem_filter hc, fun he => ?_⟩
    have := List.of_mem_filter hc
    simp [he] at this
  · obtain ⟨d, hd, rfl⟩ := List.mem_map.mp hc
    obtain ⟨who, p⟩ := d
    cases who with
    | runtime => exact absurd rfl hw
    | command | heartbeat | abandoned => exact ⟨hd, by simp⟩

omit [DecidableEq L] in
theorem written_cancelRuntime {c : Call L} (hc : c ∈ (s.cancelRuntime A).calls)
    (ht : c.caller = .heartbeat ∨ c.caller = .runtime) : c ∈ s.calls :=
  (mem_cancelRuntime hc (by rintro he; rw [he] at ht; simp at ht)).1

theorem written_noteLevel {l : L} {c : Call L} (hc : c ∈ (s.noteLevel A l).calls)
    (ht : c.caller = .heartbeat ∨ c.caller = .runtime) : c ∈ s.calls := by
  rw [State.noteLevel] at hc
  split at hc
  · exact written_cancelRuntime hc ht
  · split at hc <;> exact hc

omit [DecidableEq L] in
theorem written_set {i : ℕ} {who : Caller L} {p : Phase} {c : Call L}
    (hc : c ∈ s.calls.set i ⟨who, p⟩) : c ∈ s.calls ∨ c = ⟨who, p⟩ := by
  rcases List.mem_or_eq_of_mem_set hc with hc | hc
  · exact .inl hc
  · exact .inr hc

/-- **A trip's write stands** until its call returns, when no command writes over it. -/
theorem tripsSafe_step (h : TripsSafe A s)
    (hC : ∀ i l p, a = .write i → s.calls[i]? = some ⟨.command l, p⟩ →
      ⟨.heartbeat, .written⟩ ∉ s.calls ∧
        (⟨.runtime, .written⟩ ∉ s.calls ∨ s.watchTask.inTrip = true))
    (hm : Moves A s a s') : TripsSafe A s' := by
  have drop {i : ℕ} {c : Call L} (hc : c ∈ (s.dropCall i).calls) : c ∈ s.calls :=
    List.mem_of_mem_eraseIdx hc
  cases hm with
  | refused | typeError | runtimeReported | clearLatch => exact ⟨h.heartbeat, h.runtime⟩
  | command | deadline | runtimeRetry =>
      exact h.mono (fun c hc hp _ => written_startCall (s := { s with }) hc hp) rfl id
  | watchDrive =>
      exact h.mono (fun c hc hp _ => written_startCall (s := { s with }) hc hp) rfl fun _ => rfl
  | @write i who hc hm =>
      cases who with
      | heartbeat | runtime | abandoned => exact .of_safe A.drives_safe
      | command l =>
          obtain ⟨hbeat, hrun⟩ := hC i l _ rfl hc
          refine ⟨fun hw => ?_, fun hw => .inr ?_⟩
          · exact absurd ((written_set hw).resolve_right (by simp)) hbeat
          · exact hrun.resolve_left fun hn =>
              hn ((written_set hw).resolve_right (by simp))
  | fail hc hm =>
      refine h.mono (fun c hc hp _ => (written_set hc).resolve_right ?_) rfl id
      rintro rfl; cases hp
  | commandDone hc =>
      refine h.mono (fun c hc _ ht => drop (written_noteLevel hc ht)) (hardware_noteLevel ..)
        fun hw => ?_
      rw [watchTask_noteLevel]; exact hw
  | commandFailed | abandonedDone | runtimeFailed => exact h.mono (fun c hc _ _ => drop hc) rfl id
  | heartbeatFailed => exact h.mono (fun c hc _ _ => drop hc) rfl fun _ => rfl
  | heartbeatDone hc =>
      -- the runtime task is cancelled, so no call of its own is left to say anything of
      refine ⟨fun hw => h.heartbeat (drop (written_cancelRuntime hw (.inl rfl))), fun hw => ?_⟩
      exact absurd rfl (mem_cancelRuntime hw (by simp)).2
  | runtimeDone hc => exact h.mono (fun c hc _ ht => drop (written_cancelRuntime hc ht)) rfl id
  | quiet _ hc hh _ _ _ hw =>
      exact h.mono (fun c hm _ _ => hc ▸ hm) hh fun ht => hw.trans ht

end TripsSafe

/-! ### The invariant -/

/-- What the command the consumer has taken puts on the hardware. -/
def Hub.commanded (A : Actuator L) (s : Hub ι L) : Option L :=
  s.stage.message.bind fun m => A.driver.effectiveLevel m.command.level

/-- The consumer publishes what is on the hardware, and there is no latch. -/
structure Hub.Reports (A : Actuator L) (s : Hub ι L) : Prop where
  latched : s.guard.latched = false
  hardware : s.commanded A = some s.guard.hardware
  sampled : ∀ m l, s.stage = .sampled m l → l = s.guard.hardware

/-- The retained state is true, or something under way will publish; and a command past its write
publishes what is true, or a trip will. -/
structure Told (A : Actuator L) (s : Hub ι L) : Prop where
  attends : s.Attends
  attended : Attended s.guard
  watched : Watched s.guard
  trips : TripsSafe A s.guard
  drives : ∀ c ∈ s.guard.commandCalls, ∀ l, c.caller = .command l → s.commanded A = some l
  past : s.pastWrite = true → s.guard.inTrip = true ∨ s.Reports A
  floor : s.pastWrite = true →
    s.commanded A = some s.guard.hardware ∨ s.guard.hardware = A.safeState
  told : s.Truth ∨ s.owed = true

/-- An actuator that was just registered is as it is said to be. -/
theorem told_started (now wall : ℚ) (trusted : Bool) :
    Told A (Hub.started (ι := ι) A now wall trusted) where
  attends := rfl
  attended := attended_registered ..
  watched := watched_registered ..
  trips := tripsSafe_registered ..
  drives := fun _ hc => absurd hc List.not_mem_nil
  past := fun hp => absurd hp Bool.false_ne_true
  floor := fun _ => .inr rfl
  told := .inl ⟨rfl, rfl⟩

variable {s s' : Hub ι L} {g : State L} {a : Action ι L} {r : ActuatorState L}

omit [DecidableEq L] in
/-- Something is still to be published while a trip is under way or a command has written. -/
theorem owed_iff : s.owed = true ↔ s.guard.inTrip = true ∨ s.pastWrite = true := by
  rw [Hub.owed, Bool.or_eq_true]

omit [DecidableEq L] in
/-- A command that wrote is one whose state is still to be published. -/
theorem pastWrite_of_written {i : ℕ} {l : L} (h : s.Attends)
    (hc : s.guard.calls[i]? = some ⟨.command l, .written⟩) : s.pastWrite = true := by
  obtain ⟨honly, -⟩ := filter_only h.length_le hc rfl
  obtain ⟨m, hs⟩ := h.driving (by rw [State.commandCalls, honly]; simp)
  rw [Hub.pastWrite, hs]
  simp [State.commandCalls, honly]

omit [DecidableEq L] in
theorem pastWrite_of_idle (h : s.stage.idle = true) : s.pastWrite = false := by
  rw [Hub.pastWrite]
  cases hs : s.stage <;> rw [hs] at h <;> first | rfl | cases h

omit [DecidableEq L] in
/-- What is past its write stays so through a step of the guard. -/
theorem HubGuard.pastWrite (hg : HubGuard s a g r s') (hp : s.pastWrite = true) :
    s'.pastWrite = true := by
  cases hg with
  | other hc => rw [Hub.pastWrite] at hp ⊢; rwa [hc]
  | applied => rfl
  | wrote hs hc | failed hs hc | naked hs hc => rw [Hub.pastWrite, hs] at hp; simp [hc] at hp

omit [DecidableEq L] in
theorem HubGuard.pastWrite_of_writes (hg : HubGuard s a g r s')
    (hw : s.guard.commandWrites a = true) : s'.pastWrite = true := by
  cases hg with
  | other _ hn | failed _ _ _ hn | applied _ _ _ hn | naked _ _ _ hn => rw [hn] at hw; cases hw
  | wrote hs hc hc' => rw [Hub.pastWrite]; simp [hs, hc']

omit [DecidableEq L] in
theorem HubGuard.guard_eq (hg : HubGuard s a g r s') : s'.guard = g ∧ s'.retained = r := by
  cases hg <;> exact ⟨rfl, rfl⟩

/-- A heartbeat call is of a trip. -/
theorem inTrip_of_heartbeat {i : ℕ} {p : Phase} {s : State L} (h : Watched s)
    (hc : s.calls[i]? = some ⟨.heartbeat, p⟩) : s.watchTask.inTrip = true := by
  have hd := h.driving hc
  cases hw : s.watchTask with
  | tripping => rfl
  | watching | tripped => rw [hw] at hd; cases hd

/-- A runtime call is of a trip that drives. -/
theorem inTrip_of_runtime {i : ℕ} {p : Phase} {s : State L} (h : Attended s)
    (hc : s.calls[i]? = some ⟨.runtime, p⟩) : ∃ d, s.runtimeTask = some (.tripping d .driving) := by
  have hd : s.runtimeDriving = true := by
    by_contra hd
    exact h.not_mem (by simpa using hd) (List.mem_of_getElem? (callers_get hc))
  cases ht : s.runtimeTask with
  | none => rw [State.runtimeDriving, ht] at hd; cases hd
  | some t =>
      cases t with
      | sleeping => rw [State.runtimeDriving, ht] at hd; cases hd
      | tripping d t =>
          cases t with
          | driving => exact ⟨d, rfl⟩
          | reporting | backoff => rw [State.runtimeDriving, ht] at hd; cases hd

/-! ### A step of the guard -/

theorem inTrip_noteLevel {s : State L} {l : L} (hl : l ≠ A.safeState) :
    (s.noteLevel A l).inTrip = s.inTrip := by
  rw [State.noteLevel, if_neg hl]
  split
  · cases ht : s.runtimeTask <;> simp [State.inTrip, ht, RuntimeTask.inTrip]
  · rfl

/-- Only a command's write leaves another level than the safe one. -/
theorem hardware_of_moves {s g : State L} (hm : Moves A s a g) (hw : s.commandWrites a = false) :
    g.hardware = s.hardware ∨ g.hardware = A.safeState := by
  cases hm with
  | @write i who hc =>
      cases who with
      | command l => simp [State.commandWrites, hc] at hw
      | heartbeat | runtime | abandoned => exact .inr A.drives_safe
  | commandDone => exact .inl (hardware_noteLevel ..)
  | quiet _ _ hh => exact .inl hh
  | _ => exact .inl rfl

/-- **A command past its write**, through a step of the guard: a trip is under way after it, or
what the consumer will publish is true. -/
theorem past_moves (h : Told A s) (hp : s.pastWrite = true) (hC : s.Apart A (.guard a))
    (hm : Moves A s.guard a g) (hcmd : a.isCommand = false)
    (hw : s.guard.commandWrites a = false) :
    g.inTrip = true ∨ Hub.Reports A { s with guard := g } := by
  -- the trip under way goes on, the level stays, and no latch is set
  have still (ht : s.guard.inTrip = true → g.inTrip = true)
      (hh : g.hardware = s.guard.hardware) (hl : s.guard.latched = false → g.latched = false) :
      g.inTrip = true ∨ Hub.Reports A { s with guard := g } := by
    rcases h.past hp with hin | ⟨hlat, hcom, hsam⟩
    · exact .inl (ht hin)
    · exact .inr ⟨hl hlat, hcom.trans (congrArg some hh.symm),
        fun m l hs => (hsam m l hs).trans hh.symm⟩
  cases hm with
  | refused | typeError | command => cases hcmd
  | @write i who hc =>
      cases who with
      | command l => simp [State.commandWrites, hc] at hw
      | heartbeat => exact .inl (by simp [State.inTrip, inTrip_of_heartbeat h.watched hc])
      | runtime =>
          obtain ⟨d, ht⟩ := inTrip_of_runtime h.attended hc
          exact .inl (by simp [State.inTrip, ht, RuntimeTask.inTrip])
      | abandoned =>
          rcases hC _ hc with hsafe | hin
          · exact still id (A.drives_safe.trans hsafe.symm) id
          · exact .inl hin
  | fail | commandFailed | abandonedDone => exact still id rfl id
  | @commandDone i l hc =>
      by_cases hl : l = A.safeState
      · rcases hC _ hc rfl hl with hlat | hin
        · have hmem : (⟨.command l, .written⟩ : Call L) ∈ s.guard.commandCalls :=
            List.mem_filter.mpr ⟨List.mem_of_getElem? hc, rfl⟩
          have hcom : s.commanded A = some l := h.drives _ hmem l rfl
          have hhw : s.guard.hardware = A.safeState := by
            rcases h.floor hp with hf | hf
            · exact (Option.some.inj (hf.symm.trans hcom)).trans hl
            · exact hf
          refine .inr ⟨(latched_noteLevel ..).trans hlat, ?_, fun m k hs => ?_⟩
          · rw [hardware_noteLevel]
            exact hcom.trans (congrArg some (hl.trans hhw.symm))
          · obtain ⟨m', hs'⟩ := h.attends.driving (List.ne_nil_of_mem hmem)
            rw [hs'] at hs; cases hs
        · exact .inl (by
            rw [State.inTrip, watchTask_noteLevel]; exact Bool.or_eq_true_iff.mpr (.inl hin))
      · exact still (fun ht => (inTrip_noteLevel hl).trans ht) (hardware_noteLevel ..)
          ((latched_noteLevel ..).trans ·)
  | heartbeatDone hc => exact absurd (hC _ hc rfl) (by simp [Hub.MayReturn, hp])
  | runtimeDone hc =>
      have hin : s.guard.watchTask.inTrip = true :=
        (hC _ hc rfl).resolve_left (by simp [hp])
      exact .inl (Bool.or_eq_true_iff.mpr (.inl hin))
  | heartbeatFailed | watchDrive => exact .inl rfl
  | runtimeFailed hc =>
      obtain ⟨d, ht⟩ := inTrip_of_runtime h.attended hc
      exact .inl (by simp [State.inTrip, State.dropCall, ht, RuntimeTask.inTrip, RuntimeTask.to])
  | deadline | runtimeReported | runtimeRetry =>
      exact .inl (by simp [State.inTrip, State.startCall, RuntimeTask.inTrip])
  | clearLatch => exact still id rfl fun _ => rfl
  | quiet _ _ hh hl _ ht hw => exact still (by simp [State.inTrip, hw, ht]) hh hl.trans

omit [DecidableEq L] in
/-- A command that a step leaves past its write was so before, or wrote in that step. -/
theorem HubGuard.pastWrite_or (hg : HubGuard s a g r s') (hp : s'.pastWrite = true) :
    s.pastWrite = true ∧ s.guard.commandWrites a = false ∧
      s'.stage.message = s.stage.message ∧ (∀ m l, s'.stage = .sampled m l → s.stage = s'.stage) ∨
    ∃ m l, s.stage = .driving m ∧ s'.stage = .driving m ∧ g.hardware = l ∧
      ⟨.command l, .pending⟩ ∈ s.guard.commandCalls ∧ s.guard.commandWrites a = true := by
  cases hg with
  | other hc hw =>
      refine .inl ⟨?_, hw, rfl, fun _ _ _ => rfl⟩
      rw [Hub.pastWrite] at hp ⊢
      rwa [hc] at hp
  | @wrote m l hs hc hc' hw hh => exact .inr ⟨m, l, hs, hs, hh, by simp [hc], hw⟩
  | @failed m l hs hc hc' => rw [Hub.pastWrite, hs] at hp; simp [hc'] at hp
  | @applied m l hs hc hc' hw =>
      refine .inl ⟨by rw [Hub.pastWrite, hs]; simp [hc], hw, by rw [hs]; rfl, ?_⟩
      intro _ _ h; cases h
  | naked hs hc => cases hp

omit [DecidableEq L] in
theorem Hub.Reports.congr {t : Hub ι L} (h : Hub.Reports A t) (hg : s'.guard = t.guard)
    (hm : s'.stage.message = t.stage.message)
    (hs : ∀ m l, s'.stage = .sampled m l → t.stage = s'.stage) : s'.Reports A where
  latched := hg ▸ h.latched
  hardware := by rw [Hub.commanded, hm, hg]; exact h.hardware
  sampled := fun m l he => by rw [hg]; exact h.sampled m l ((hs m l he).trans he)

/-- What a command past its write needs, after a step of the guard. -/
theorem past_guard (h : Told A s) (hC : s.Apart A (.guard a)) (hm : Moves A s.guard a g)
    (hcmd : a.isCommand = false) (hg : HubGuard s a g r s') (hp : s'.pastWrite = true) :
    (s'.guard.inTrip = true ∨ s'.Reports A) ∧
      (s'.commanded A = some s'.guard.hardware ∨ s'.guard.hardware = A.safeState) := by
  obtain ⟨hsg, -⟩ := hg.guard_eq
  rcases hg.pastWrite_or hp with ⟨hpast, hw, hmsg, hsam⟩ | ⟨m, l, hs, hs', hh, hmem, hw⟩
  · refine ⟨?_, ?_⟩
    · rw [hsg]
      exact (past_moves h hpast hC hm hcmd hw).imp_right fun hr => hr.congr hsg hmsg hsam
    · rw [Hub.commanded, hmsg, hsg]
      rcases hardware_of_moves hm hw with hh | hh
      · rw [hh]; exact h.floor hpast
      · exact .inr hh
  · have hcom : s'.commanded A = some s'.guard.hardware := by
      rw [Hub.commanded, hs', hsg, hh, ← h.drives _ hmem l rfl, Hub.commanded, hs]
    refine ⟨?_, .inl hcom⟩
    cases hm with
    | @write i who hc =>
        cases who with
        | command k =>
            rcases (hC _ hc).2 with hlat | hin
            · refine .inr ⟨by rw [hsg]; exact hlat, hcom, fun m l he => ?_⟩
              rw [hs'] at he; cases he
            · exact .inl (by rw [hsg]; exact hin)
        | heartbeat | runtime | abandoned => simp [State.commandWrites, hc] at hw
    | quiet ha => cases a <;> first | cases hw | exact absurd rfl (ha.2.2.2 _)
    | watchDrive ha => rcases ha with ⟨rfl, -⟩ | ⟨rfl, -⟩ <;> cases hw
    | _ => cases hw

omit [DecidableEq L] in
theorem drives_guard (h : ∀ c ∈ s.guard.commandCalls, ∀ l, c.caller = .command l →
      s.commanded A = some l) (hg : HubGuard s a g r s') :
    ∀ c ∈ s'.guard.commandCalls, ∀ l, c.caller = .command l → s'.commanded A = some l := by
  cases hg with
  | other hc => exact fun c hm => h c (hc ▸ hm)
  | @wrote m l hs hc hc' | @failed m l hs hc hc' =>
      intro c hm k hk
      obtain rfl := List.mem_singleton.mp (hc' ▸ hm)
      cases hk
      exact h ⟨.command l, .pending⟩ (by rw [hc]; exact List.mem_singleton.mpr rfl) l rfl
  | applied hs hc hc' | naked hs hc hc' =>
      intro c hm
      exact absurd (hc' ▸ hm) List.not_mem_nil

/-- **A step of the guard that keeps trips and commands apart** leaves the retained state true,
or something under way. -/
theorem told_guard (h : Told A s) (hC : s.Apart A (.guard a)) (hm : Moves A s.guard a g)
    (hr : r = (s.guard.tripDone a).elim s.retained fun reason => ⟨A.safeState, reason, g.latched⟩)
    (hg : HubGuard s a g r s') : s'.Truth ∨ s'.owed = true := by
  by_cases hp : s.pastWrite = true
  · exact .inr (owed_iff.mpr (.inr (hg.pastWrite hp)))
  obtain ⟨hsg, hsr⟩ := hg.guard_eq
  have hnow : s.Truth ∨ s.guard.inTrip = true := by
    rcases h.told with ht | ho
    · exact .inl ht
    · exact .inr ((owed_iff.mp ho).resolve_right hp)
  have trip (ht : g.inTrip = true) : s'.Truth ∨ s'.owed = true :=
    .inr (owed_iff.mpr (.inl (hsg ▸ ht)))
  -- nothing is published, and what was true or under way is so still
  have still (hd : s.guard.tripDone a = none) (hh : g.hardware = s.guard.hardware)
      (hl : g.latched = s.guard.latched) (ht : s.guard.inTrip = true → g.inTrip = true) :
      s'.Truth ∨ s'.owed = true := by
    rcases hnow with ⟨hlevel, hlatch⟩ | hin
    · rw [hd] at hr
      refine .inl ⟨?_, ?_⟩
      · rw [hsr, hsg, hr, hh]; exact hlevel
      · rw [hsr, hsg, hr, hl]; exact hlatch
    · exact trip (ht hin)
  -- the safe state is published, and is on the hardware
  have done (reason : StateReason) (hd : s.guard.tripDone a = some reason)
      (hh : g.hardware = A.safeState) : s'.Truth ∨ s'.owed = true := by
    rw [hd] at hr
    refine .inl ⟨?_, ?_⟩
    · rw [hsr, hsg, hr, hh]; rfl
    · rw [hsr, hsg, hr]; rfl
  cases hm with
  | refused | typeError | command => exact still rfl rfl rfl id
  | @write i who hc =>
      cases who with
      | command l => exact .inr (owed_iff.mpr (.inr (hg.pastWrite_of_writes
          (by simp [State.commandWrites, hc]))))
      | heartbeat => exact trip (by simp [State.inTrip, inTrip_of_heartbeat h.watched hc])
      | runtime =>
          obtain ⟨d, ht⟩ := inTrip_of_runtime h.attended hc
          exact trip (by simp [State.inTrip, ht, RuntimeTask.inTrip])
      | abandoned =>
          rcases hC _ hc with hsafe | hin
          · exact still rfl (A.drives_safe.trans hsafe.symm) rfl id
          · exact trip hin
  | fail | commandFailed hc => exact still (by simp [State.tripDone, *]) rfl rfl id
  | commandDone hc => exact absurd (pastWrite_of_written h.attends hc) hp
  | heartbeatDone hc =>
      exact done .safeState (by simp [State.tripDone, hc])
        (h.trips.heartbeat (List.mem_of_getElem? hc))
  | runtimeDone hc =>
      rcases h.trips.runtime (List.mem_of_getElem? hc) with hsafe | hin
      · exact done .interlockLatch (by simp [State.tripDone, hc]) hsafe
      · exact trip (Bool.or_eq_true_iff.mpr (.inl hin))
  | runtimeFailed hc =>
      obtain ⟨d, ht⟩ := inTrip_of_runtime h.attended hc
      exact trip (by simp [State.inTrip, State.dropCall, ht, RuntimeTask.inTrip, RuntimeTask.to])
  | abandonedDone hc => exact still (by simp [State.tripDone, hc]) rfl rfl id
  | heartbeatFailed | watchDrive => exact trip rfl
  | deadline | runtimeReported | runtimeRetry =>
      exact trip (by simp [State.inTrip, State.startCall, RuntimeTask.inTrip])
  | clearLatch =>
      rcases hC with hl | ho
      · exact still rfl rfl hl.symm id
      · exact trip ((owed_iff.mp ho).resolve_right hp)
  | quiet ha hc hh hl _ ht hw =>
      refine still ?_ hh hl fun hin => ?_
      · cases a <;> first | rfl | exact absurd rfl (ha.2.2.1 _)
      · rw [State.inTrip] at hin ⊢
        rwa [hw, ht]

/-! ### Runs -/

omit [DecidableEq L] in
/-- What the consumer decides to publish, where `read_back` is honest or the commanded level is
the one it drives. -/
theorem reportLevel_eq {m : Message ι L} {fails : Bool}
    (heff : A.driver.effectiveLevel m.command.level = some s.guard.hardware)
    (hC : if fails then A.driver.effectiveLevel m.command.level = some m.command.level
      else A.driver.Honest s.guard.hardware) : s.reportLevel A m fails = s.guard.hardware := by
  rw [Hub.reportLevel]
  cases fails with
  | true => exact Option.some.inj (hC.symm.trans heff)
  | false =>
      rcases hC with hr | hr
      · simp [hr, heff]
      · simp [hr]

omit [DecidableEq L] in
/-- Between messages no command's call is running. -/
theorem Hub.Attends.idle (h : s.Attends) (hs : s.stage.idle = true) :
    s.guard.commandCalls = [] := by
  rw [Hub.Attends] at h
  cases hst : s.stage <;> rw [hst] at h hs <;> first | exact h | cases hs

/-- Between messages, with the guard and the retained state as they were. -/
theorem Told.idle (h : Told A s) (hat : s'.Attends) (hs : s.stage.idle = true)
    (hs' : s'.stage.idle = true) (hg : s'.guard = s.guard) (hr : s'.retained = s.retained) :
    Told A s' where
  attends := hat
  attended := hg ▸ h.attended
  watched := hg ▸ h.watched
  trips := hg ▸ h.trips
  drives := fun c hc => absurd (hat.idle hs' ▸ hc) List.not_mem_nil
  past := fun hp => absurd ((pastWrite_of_idle hs').symm.trans hp) Bool.false_ne_true
  floor := fun hp => absurd ((pastWrite_of_idle hs').symm.trans hp) Bool.false_ne_true
  told := by
    rcases h.told with ⟨hlevel, hlatch⟩ | ho
    · refine .inl ⟨?_, ?_⟩
      · rw [hr, hg]; exact hlevel
      · rw [hr, hg]; exact hlatch
    · rcases owed_iff.mp ho with hin | hp
      · exact .inr (owed_iff.mpr (.inl (hg ▸ hin)))
      · exact absurd ((pastWrite_of_idle hs).symm.trans hp) Bool.false_ne_true

/-- A command's call is started, with nothing written. -/
theorem told_begin {m : Message ι L} {rest : List (Message ι L)} {l : L} (h : Told A s)
    (hs : s.stage = .looping) (ha : s.guard.admission A m.command = .driving l)
    (hat : ({ s with
      batch := rest
      guard := s.guard.startCall (.command l)
      stage := .driving m } : Hub ι L).Attends) :
    Told A { s with
      batch := rest
      guard := s.guard.startCall (.command l)
      stage := .driving m } := by
  have hidle : s.stage.idle = true := by rw [hs]; rfl
  have hcalls : (s.guard.startCall (.command l)).commandCalls = [⟨.command l, .pending⟩] := by
    have hnone := h.attends.idle hidle
    rw [State.commandCalls] at hnone ⊢
    simp [State.startCall, hnone, Call.isCommand]
  have hpast : ({ s with
      batch := rest
      guard := s.guard.startCall (.command l)
      stage := .driving m } : Hub ι L).pastWrite = false := by simp [Hub.pastWrite, hcalls]
  refine ⟨hat, ?_, ?_, ?_, fun c hc k hk => ?_, fun hp => ?_, fun hp => ?_,
    h.told.imp id fun ho => ?_⟩
  · rw [Attended, callers_startCall, List.count_append, h.attended]; rfl
  · rw [Watched, callers_startCall, List.count_append, h.watched]; rfl
  · exact h.trips.mono (fun c hc hp _ => written_startCall hc hp) rfl id
  · rw [hcalls, List.mem_singleton] at hc
    subst hc
    cases hk
    exact (admit_driving ha).2.2
  · rw [hpast] at hp; cases hp
  · rw [hpast] at hp; cases hp
  · refine owed_iff.mpr (.inl ((owed_iff.mp ho).resolve_right fun hp => ?_))
    rw [pastWrite_of_idle hidle] at hp; cases hp

/-- After its write the consumer goes on with the command, and what it decides to publish is on the
hardware, unless a trip is under way. -/
theorem Told.goOn {m : Message ι L} {st : Stage ι L} (h : Told A s) (hp : s.pastWrite = true)
    (hm : s.stage.message = some m) (hm' : st.message = some m)
    (hp' : ({ s with stage := st } : Hub ι L).pastWrite = true)
    (hat : ({ s with stage := st } : Hub ι L).Attends) (hnone : s.guard.commandCalls = [])
    (hlevel : s.guard.inTrip = true ∨
      (A.driver.effectiveLevel m.command.level = some s.guard.hardware →
        ∀ m' l, st = .sampled m' l → l = s.guard.hardware)) :
    Told A { s with stage := st } := by
  have hcom : s.commanded A = A.driver.effectiveLevel m.command.level := by
    rw [Hub.commanded, hm]; rfl
  have hcom' : ({ s with stage := st } : Hub ι L).commanded A = s.commanded A := by
    rw [hcom, Hub.commanded, hm']; rfl
  refine ⟨hat, h.attended, h.watched, h.trips, fun c hc => ?_, fun _ => ?_, fun _ => ?_,
    .inr (owed_iff.mpr (.inr hp'))⟩
  · exact absurd (hnone ▸ hc) List.not_mem_nil
  · rcases h.past hp with hin | hr
    · exact .inl hin
    · refine hlevel.imp id fun hl => ⟨hr.latched, hcom'.trans hr.hardware, ?_⟩
      exact hl (hcom.symm.trans hr.hardware)
  · exact (h.floor hp).imp_left hcom'.trans

/-- **The consumer publishes**, what is on the hardware or what a trip will correct. -/
theorem told_publishState {m : Message ι L} {level : L} (h : Told A s)
    (hs : s.stage = .sampled m level)
    (hat : ({ s with
      stage := .looping
      retained := ⟨level, .commanded, false⟩ } : Hub ι L).Attends) :
    Told A { s with stage := .looping, retained := ⟨level, .commanded, false⟩ } := by
  have hp : s.pastWrite = true := by rw [Hub.pastWrite, hs]
  refine ⟨hat, h.attended, h.watched, h.trips, fun c hc => ?_, fun hp => ?_, fun hp => ?_, ?_⟩
  · exact absurd (hat.idle rfl ▸ hc) List.not_mem_nil
  · cases hp
  · cases hp
  · rcases h.past hp with hin | hr
    · exact .inr (owed_iff.mpr (.inl hin))
    · exact .inl ⟨hr.sampled m level hs, hr.latched.symm⟩

/-- **The invariant is kept** by every step that keeps trips and commands apart. -/
theorem told_step {b : HubAction ι L} (h : Told A s) (hC : s.Apart A b)
    (hm : HubMoves A s b s') : Told A s' := by
  have hat := attends_step h.attends hm
  cases hm with
  | publish =>
      exact ⟨hat, h.attended, h.watched, h.trips, h.drives,
        fun hp => (h.past hp).imp_right fun hr => hr.congr rfl rfl fun _ _ _ => rfl, h.floor,
        h.told⟩
  | fetch hs | fetched hs | deliver hs | redeliver hs | refused hs | typeError hs =>
      exact h.idle hat (by rw [hs]; rfl) (by simp [Stage.idle, hs]) rfl rfl
  | begin hs hb ha => exact told_begin h hs ha hat
  | ack hs =>
      refine h.goOn (by rw [Hub.pastWrite, hs]) (by rw [hs]; rfl) rfl rfl hat hat ?_
      exact .inr fun _ _ _ he => by cases he
  | sample hs =>
      refine h.goOn (by rw [Hub.pastWrite, hs]) (by rw [hs]; rfl) rfl rfl hat hat ?_
      refine (hC _ (by rw [hs]; rfl)).imp id fun hC heff m' l he => ?_
      cases he
      exact reportLevel_eq heff hC
  | publishState hs => exact told_publishState h hs hat
  | @guard a g es hc hg =>
      have hmv := step_moves (supervisor_step.mpr ⟨_, hg⟩)
      have hhub : HubGuard s a g (es.foldl (onSafetyEvent A g.latched) s.retained) _ :=
        hub_guard h.attends hc hmv
      have hpast := past_guard h hC hmv hc hhub
      have htold := told_guard h hC hmv (published_step s.retained hc hg) hhub
      have hdrives := drives_guard h.drives hhub
      obtain ⟨hsg, -⟩ := hhub.guard_eq
      refine ⟨hat, ?_, ?_, ?_, hdrives, fun hp => (hpast hp).1, fun hp => (hpast hp).2, htold⟩ <;>
        rw [hsg]
      · exact attended_step h.attended hmv
      · exact watched_step h.watched hmv
      · refine tripsSafe_step h.trips (fun i l p ha hcall => ?_) hmv
        subst ha
        exact (hC _ hcall).1

/-- **Wire truth at rest**, in a run that keeps trips and commands apart. -/
theorem wire_truth_at_rest {now wall : ℚ} {trusted : Bool} {as : List (HubAction ι L)}
    (h : (hub ι A).RunIf (Hub.Apart A) (Hub.started A now wall trusted) as s)
    (hrest : s.AtRest) : s.Truth := by
  have hI := h.invariant (told_started now wall trusted)
    fun _ _ _ hC hI hs => told_step hI hC (hub_moves hs)
  obtain ⟨hidle, -, hin⟩ := hrest
  refine hI.told.resolve_right fun ho => ?_
  rcases owed_iff.mp ho with ht | hp
  · rw [hin] at ht; cases ht
  · rw [pastWrite_of_idle hidle] at hp; cases hp

/-- A light commanded to half duty, published. -/
def litAndPublished : List (HubAction Unit ActuatorLevel) :=
  [.publish (lightCommand half), .fetch, .deliver, .fetched, .next, .guard (.write 0),
    .guard (.complete 0), .ack, .sample false, .publishState]

/-- Its cap runs out while a second command is being published. -/
def trippedBeforePublish : List (HubAction Unit ActuatorLevel) :=
  [.guard (.tick lightMaxRuntimeS), .publish (lightCommand half), .fetch, .deliver, .fetched,
    .next, .guard (.write 0), .guard (.complete 0), .guard .deadline, .guard (.write 0),
    .guard (.complete 0), .ack, .sample false, .publishState]

/-- A light is lit, and at rest is said to be. -/
theorem wire_truth_at_rest_light :
    ∃ s, (hub Unit (lightRegistration .pca9685)).RunIf (Hub.Apart (lightRegistration .pca9685))
        (Hub.started (lightRegistration .pca9685) 0 0 true) litAndPublished s ∧
      s.retained = ⟨.pwm half, .commanded, false⟩ ∧ s.Truth := by
  have hrun : ((hub Unit (lightRegistration .pca9685)).execIf
      (Hub.Apart (lightRegistration .pca9685))
      (Hub.started (lightRegistration .pca9685) 0 0 true) litAndPublished).map
      (fun s => (s.retained, decide s.AtRest)) = some (⟨.pwm half, .commanded, false⟩, true) := by
    decide +kernel
  obtain ⟨s, hs, hl⟩ := Option.map_eq_some_iff.mp hrun
  obtain ⟨hret, hrest⟩ := Prod.ext_iff.mp hl
  have hs := Machine.execIf_eq_some.mp hs
  exact ⟨s, hs, hret, wire_truth_at_rest hs (of_decide_eq_true hrest)⟩

/-- A trip between the write of a command and its publish: the light is dark and latched, and the
retained state says half duty and not latched. -/
theorem not_wire_truth_at_rest :
    ¬ ∀ (A : Actuator ActuatorLevel) (now wall : ℚ) (trusted : Bool)
      (as : List (HubAction Unit ActuatorLevel)) (s : Hub Unit ActuatorLevel),
      (hub Unit A).Run (Hub.started A now wall trusted) as s → s.AtRest → s.Truth := by
  intro h
  have hrun : ((hub Unit (lightRegistration .pca9685)).exec
      (Hub.started (lightRegistration .pca9685) 0 0 true)
      (litAndPublished ++ trippedBeforePublish)).map
      (fun s => (decide s.AtRest, decide s.Truth)) = some (true, false) := by decide +kernel
  obtain ⟨s, hs, hl⟩ := Option.map_eq_some_iff.mp hrun
  obtain ⟨hrest, htruth⟩ := Prod.ext_iff.mp hl
  exact of_decide_eq_false htruth
    (h _ _ _ _ _ s (Machine.exec_eq_some.mp hs) (of_decide_eq_true hrest))

end BellasReef.HardwareIO
