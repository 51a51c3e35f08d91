import BellasReef.HardwareIO.Calls

/-!
# HardwareIO — Latch

What a latched channel does, between a runtime trip that completed and the `clear_latch` that
ends the latch.

The latch stops the commands that have not yet passed its check; it does nothing to a driver
call already in flight.  Behind a first-come first-served lock those calls write before the
trip's own (`RuntimeOrder`), so the trip has the last word.  A driver without a lock lets an
older call write after the trip has completed: the channel is latched and lit.
`latched_means_dark_iff` is the exact condition, trip by trip.
-/

namespace BellasReef.HardwareIO
open BellasReef.Contracts BellasReef.Support

variable {ι L : Type}

/-- No call still to act would leave the safe state. -/
def PendingSafe (A : Actuator L) (s : State L) : Prop :=
  ∀ c ∈ s.calls, c.phase = .pending → c.caller.level A = A.safeState

/-- Latched and dark, with nothing in flight that could change it. -/
structure Dark (A : Actuator L) (s : State L) : Prop where
  latched : s.latched = true
  pendingSafe : PendingSafe A s
  hardware : s.hardware = A.safeState

variable {A : Actuator L} {s s' s₀ s₁ : State L} {a : Action ι L} {as : List (Action ι L)}

theorem level_runtime : (Caller.runtime (L := L)).level A = A.safeState := A.drives_safe

theorem PendingSafe.startCall {who : Caller L} (h : PendingSafe A s)
    (hw : who.level A = A.safeState) : PendingSafe A (s.startCall who) := by
  intro c hc hp
  rcases List.mem_append.mp hc with hc | hc
  · exact h c hc hp
  · rw [List.mem_singleton.mp hc]; exact hw

theorem PendingSafe.dropCall {i : ℕ} (h : PendingSafe A s) : PendingSafe A (s.dropCall i) :=
  fun c hc => h c (List.mem_of_mem_eraseIdx hc)

theorem PendingSafe.set {i : ℕ} {who : Caller L} {p : Phase} (h : PendingSafe A s)
    (hp : p ≠ .pending) : PendingSafe A { s with calls := s.calls.set i ⟨who, p⟩ } := by
  intro c hc hcp
  rcases List.mem_or_eq_of_mem_set hc with hc | rfl
  · exact h c hc hcp
  · exact absurd hcp hp

theorem PendingSafe.cancelRuntime (h : PendingSafe A s) : PendingSafe A (s.cancelRuntime A) := by
  intro c hc hp
  simp only [State.cancelRuntime] at hc
  split at hc
  · exact h c (List.mem_of_mem_filter hc) hp
  · obtain ⟨d, hd, rfl⟩ := List.mem_map.mp hc
    split
    · exact level_runtime
    · exact h d hd (by simpa using hp)

/-- **A latch admits nothing.** -/
theorem admit_latched {c : ActuatorCommand ι L} {l : L} (hl : s.latched = true) :
    s.admission A c ≠ .driving l := by
  intro h
  simp [(admit_driving h).2.1] at hl

/-- While latched, every call behind the runtime trip's is safe. -/
def RuntimeOrder (A : Actuator L) (s : State L) : Prop :=
  s.latched = true →
    s.callers.Pairwise fun who later => who = .runtime → later.level A = A.safeState

/-- Without a runtime call there is nothing to order. -/
theorem runtimeOrder_of_not_mem (h : Caller.runtime ∉ s.callers) : RuntimeOrder A s :=
  fun _ => List.pairwise_of_forall_mem_list fun _ hw _ _ he => absurd (he ▸ hw) h

theorem RuntimeOrder.startCall {who : Caller L} (h : RuntimeOrder A s)
    (hw : s.latched = true → who.level A = A.safeState) : RuntimeOrder A (s.startCall who) := by
  intro hl
  rw [callers_startCall]
  refine List.pairwise_append.mpr ⟨h hl, List.pairwise_singleton _ _, fun _ _ later hm _ => ?_⟩
  rw [List.mem_singleton.mp hm]; exact hw hl

theorem RuntimeOrder.dropCall {i : ℕ} (h : RuntimeOrder A s) : RuntimeOrder A (s.dropCall i) := by
  intro hl
  rw [callers_dropCall]; exact (h hl).eraseIdx i

/-- Latched, with nothing in flight that could light the channel, and dark once the trip has
written. -/
structure Settling (A : Actuator L) (s : State L) : Prop where
  latched : s.latched = true
  pendingSafe : PendingSafe A s
  written : ⟨.runtime, .written⟩ ∈ s.calls → s.hardware = A.safeState

/-- The runtime call that has written returns, and the actuator is dark. -/
theorem dark_of_settling {i : ℕ} (h : Settling A s)
    (hc : s.calls[i]? = some ⟨.runtime, .written⟩) : Dark A ((s.dropCall i).markSafe A) where
  latched := h.latched
  pendingSafe := h.pendingSafe.dropCall.cancelRuntime
  hardware := h.written (List.mem_of_getElem? hc)

variable [DecidableEq L]

theorem PendingSafe.noteLevel {l : L} (h : PendingSafe A s) : PendingSafe A (s.noteLevel A l) := by
  unfold State.noteLevel
  split
  · exact h.cancelRuntime
  · split <;> exact h

theorem mem_calls_of_noteLevel {l : L} (h : ⟨.runtime, .written⟩ ∈ (s.noteLevel A l).calls) :
    ⟨.runtime, .written⟩ ∈ s.calls := by
  unfold State.noteLevel at h
  split at h
  · exact absurd (List.mem_map_of_mem h) (not_mem_callers_cancelRuntime A s)
  · split at h <;> exact h

@[simp] theorem latched_noteLevel (A : Actuator L) (l : L) (s : State L) :
    (s.noteLevel A l).latched = s.latched := by
  unfold State.noteLevel; split
  · rfl
  · split <;> rfl

@[simp] theorem hardware_noteLevel (A : Actuator L) (l : L) (s : State L) :
    (s.noteLevel A l).hardware = s.hardware := by
  unfold State.noteLevel; split
  · rfl
  · split <;> rfl

/-- Nothing but `clear_latch` ends a latch. -/
theorem latched_step (ha : a ≠ .clearLatch) (hl : s.latched = true) (hm : Moves A s a s') :
    s'.latched = true := by
  cases hm with
  | clearLatch => exact absurd rfl ha
  | deadline => rfl
  | quiet _ _ _ he => rw [he, hl]
  | commandDone => rw [latched_noteLevel]; exact hl
  | _ => exact hl

/-- While latched, the calls still to act stay safe. -/
theorem pendingSafe_step (ha : a ≠ .clearLatch) (hl : s.latched = true) (h : PendingSafe A s)
    (hm : Moves A s a s') : PendingSafe A s' := by
  cases hm with
  | refused | typeError | runtimeReported => exact h
  | command hd => exact absurd hd (admit_latched hl)
  | write | fail => exact h.set (by simp)
  | commandDone => exact h.dropCall.noteLevel
  | commandFailed | heartbeatFailed | runtimeFailed | abandonedDone => exact h.dropCall (s := s)
  | heartbeatDone | runtimeDone => exact h.dropCall.cancelRuntime
  | watchDrive | deadline | runtimeRetry =>
      exact PendingSafe.startCall (s := { s with }) h A.drives_safe
  | clearLatch => exact absurd rfl ha
  | quiet _ hc => intro c; rw [hc]; exact h c

/-- Only a write moves the hardware. -/
theorem hardware_step (hm : Moves A s a s') :
    s'.hardware = s.hardware ∨
      ∃ (i : ℕ) (who : Caller L), s.calls[i]? = some ⟨who, .pending⟩ ∧ s'.hardware = who.level A := by
  cases hm with
  | write hc => exact .inr ⟨_, _, hc, rfl⟩
  | commandDone => exact .inl (hardware_noteLevel ..)
  | quiet _ _ he => exact .inl he
  | _ => exact .inl rfl

/-- **Step.**  A latched actuator stays dark. -/
theorem dark_step (ha : a ≠ .clearLatch) (h : Dark A s) (hm : Moves A s a s') : Dark A s' where
  latched := latched_step ha h.latched hm
  pendingSafe := pendingSafe_step ha h.latched h.pendingSafe hm
  hardware := by
    rcases hardware_step hm with he | ⟨i, who, hc, he⟩
    · rw [he, h.hardware]
    · rw [he]; exact h.pendingSafe _ (List.mem_of_getElem? hc) rfl

/-- **Dark stays dark**, until the latch is cleared. -/
theorem dark_run (h : Dark A s) (hr : (supervisor ι A).Run s as s')
    (hn : Action.clearLatch ∉ as) : Dark A s' :=
  hr.invariant_avoiding (A := (· = .clearLatch)) (fun _ ha he => hn (he ▸ ha)) h
    fun _ _ _ ha _ hd hs => dark_step ha hd (step_moves hs)

/-! ### What a trip leaves behind -/

theorem RuntimeOrder.noteLevel {l : L} (h : RuntimeOrder A s) :
    RuntimeOrder A (s.noteLevel A l) := by
  unfold State.noteLevel
  split
  · exact runtimeOrder_of_not_mem (not_mem_callers_cancelRuntime A s)
  · split <;> exact h

/-- **Step.**  Calls for another level do not come behind the runtime's while latched. -/
theorem runtimeOrder_step (hat : Attended s) (h : RuntimeOrder A s) (hm : Moves A s a s') :
    RuntimeOrder A s' := by
  cases hm with
  | refused | typeError | runtimeReported => exact h
  | command hd => exact h.startCall fun hl => absurd hd (admit_latched hl)
  | write hc | fail hc =>
      intro hl
      have := h hl
      rwa [State.callers, ← map_caller_set hc] at this
  | commandDone => exact h.dropCall.noteLevel
  | commandFailed | heartbeatFailed | runtimeFailed | abandonedDone =>
      exact h.dropCall (s := s)
  | heartbeatDone | runtimeDone =>
      exact runtimeOrder_of_not_mem (not_mem_callers_cancelRuntime A (s.dropCall _))
  | watchDrive | runtimeRetry =>
      exact RuntimeOrder.startCall (s := { s with }) h fun _ => A.drives_safe
  | deadline ht =>
      -- the task was asleep, so no call of its own is in flight
      have hn : Caller.runtime ∉ s.callers := hat.not_mem (by rw [State.runtimeDriving, ht]; rfl)
      exact (runtimeOrder_of_not_mem (s := { s with latched := true, runtimeTask := _ }) hn).startCall
        fun _ => A.drives_safe
  | clearLatch => intro hl; cases hl
  | quiet _ hc _ he =>
      intro hl
      rw [State.callers, hc]; exact h (he ▸ hl)

/-- So it is in every state reached. -/
theorem Reached.runtimeOrder (h : Reached ι A s) : RuntimeOrder A s := by
  refine (h.invariant (I := fun s => Attended s ∧ RuntimeOrder A s) ?_ ?_).2
  · intro now wall trusted
    exact ⟨attended_registered .., fun _ => List.Pairwise.nil⟩
  · rintro s a s' ⟨hat, ho⟩ hm
    exact ⟨attended_step hat hm, runtimeOrder_step hat ho hm⟩

/-- Behind a lock, the trip's call is the last that could have lit the channel. -/
theorem dark_of_locked {i : ℕ} (hl : A.driver.locked = true) (h : Reached ι A s)
    (hlat : s.latched = true) (hc : s.calls[i]? = some ⟨.runtime, .written⟩)
    (hm : A.mayAct i = true) : Dark A ((s.dropCall i).markSafe A) := by
  obtain rfl := eq_zero_of_mayAct hl hm
  have horder := h.runtimeOrder hlat
  have hwrote := (h.serial hl).wrote _ (by rwa [List.head?_eq_getElem?]) rfl
  cases hcs : s.calls with
  | nil => simp [hcs] at hc
  | cons c cs =>
      obtain rfl : c = ⟨.runtime, .written⟩ := by simpa [hcs] using hc
      rw [State.callers, hcs, List.map_cons, List.pairwise_cons] at horder
      have hrest : PendingSafe A (s.dropCall 0) := by
        intro d hd _
        rw [State.dropCall, hcs, List.eraseIdx_cons_zero] at hd
        exact horder.1 _ (List.mem_map_of_mem hd) rfl
      exact ⟨hlat, hrest.cancelRuntime, hwrote.trans level_runtime⟩

/-- **Step.**  A latched actuator in which nothing would light the channel stays so. -/
theorem settling_step (ha : a ≠ .clearLatch) (h : Settling A s) (hm : Moves A s a s') :
    Settling A s' := by
  refine ⟨latched_step ha h.latched hm, pendingSafe_step ha h.latched h.pendingSafe hm, ?_⟩
  cases hm with
  | refused | typeError | runtimeReported | clearLatch => exact h.written
  | command | watchDrive | deadline | runtimeRetry =>
      intro hc
      rcases List.mem_append.mp hc with hc | hc
      · exact h.written hc
      · cases List.mem_singleton.mp hc
  | write hc => exact fun _ => h.pendingSafe _ (List.mem_of_getElem? hc) rfl
  | fail =>
      intro hc
      rcases List.mem_or_eq_of_mem_set hc with hc | hc
      · exact h.written hc
      · cases hc
  | commandDone =>
      intro hc
      rw [hardware_noteLevel]
      exact h.written (List.mem_of_mem_eraseIdx (mem_calls_of_noteLevel hc))
  | commandFailed | heartbeatFailed | runtimeFailed | abandonedDone =>
      exact fun hc => h.written (List.mem_of_mem_eraseIdx hc)
  | heartbeatDone | runtimeDone =>
      exact fun hc => absurd (List.mem_map_of_mem hc) (not_mem_callers_cancelRuntime A _)
  | quiet _ hc hh => rw [hc, hh]; exact h.written

/-- Without a lock, the trip has the last word when what was in flight was safe. -/
theorem settling_of_deadline {d : ℚ} (h : Reached ι A s) (hp : PendingSafe A s)
    (ht : s.runtimeTask = some (.sleeping d)) :
    Settling A ({ s with latched := true, runtimeTask := some (.tripping d .driving) }.startCall
      .runtime) where
  latched := rfl
  pendingSafe := PendingSafe.startCall (s := { s with latched := true, runtimeTask := _ }) hp
    A.drives_safe
  written := by
    intro hc
    rcases List.mem_append.mp hc with hc | hc
    · exact absurd (List.mem_map_of_mem hc) (h.attended.not_mem (by rw [State.runtimeDriving, ht]; rfl))
    · cases List.mem_singleton.mp hc

/-! ### Latched means dark -/

theorem write_step {i : ℕ} {who : Caller L} (hc : s.calls[i]? = some ⟨who, .pending⟩)
    (hm : A.mayAct i = true) :
    (supervisor ι A).step s (.write i) =
      some { s with hardware := who.level A, calls := s.calls.set i ⟨who, .written⟩ } := by
  simp [supervisor, State.step, hc, hm]

/-- When a runtime call that has written returns. -/
theorem complete_runtime {i : ℕ} (hc : s.calls[i]? = some ⟨.runtime, .written⟩) :
    (supervisor ι A).step s (.complete i) = some s' ↔
      A.mayAct i = true ∧ s' = (s.dropCall i).markSafe A := by
  rw [eq_comm (a := s')]
  simp [supervisor, State.step, hc, State.complete]

/-- When the deadline latches. -/
theorem deadline_step : (supervisor ι A).step s .deadline = some s' ↔
    ∃ d, s.runtimeTask = some (.sleeping d) ∧ d ≤ s.now ∧
      s' = { s with latched := true, runtimeTask := some (.tripping d .driving) }.startCall
        .runtime := by
  constructor
  · intro h
    cases step_moves h with
    | deadline ht hd => exact ⟨_, ht, hd, rfl⟩
    | watchDrive ha => simp at ha
    | quiet ha => exact absurd rfl ha.2.1
  · rintro ⟨d, ht, hd, rfl⟩
    simp [supervisor, State.step, ht, hd]

/-- However the run goes on after a trip: once its `drive_safe` has completed, the hardware is in
the safe state until `clear_latch`. -/
def LatchedMeansDark (ι : Type) (A : Actuator L) (tripped : State L) : Prop :=
  ∀ as₁ s₂ i s₃ as₂ s₄, (supervisor ι A).Run tripped as₁ s₂ → Action.clearLatch ∉ as₁ →
    s₂.calls[i]? = some ⟨.runtime, .written⟩ → (supervisor ι A).step s₂ (.complete i) = some s₃ →
    (supervisor ι A).Run s₃ as₂ s₄ → Action.clearLatch ∉ as₂ → s₄.hardware = A.safeState

/-- A trip that cannot be undone. -/
theorem latchedMeansDark_of_settled (h : Reached ι A s₀)
    (hd : (supervisor ι A).step s₀ .deadline = some s₁)
    (hok : A.driver.locked = true ∨ PendingSafe A s₀) : LatchedMeansDark ι A s₁ := by
  intro as₁ s₂ i s₃ as₂ s₄ hr₁ hn₁ hc hs hr₂ hn₂
  obtain ⟨hm, rfl⟩ := (complete_runtime hc).mp hs
  refine (dark_run ?_ hr₂ hn₂).hardware
  have hr₁' : ∀ a ∈ as₁, ¬ a = Action.clearLatch := fun _ ha he => hn₁ (he ▸ ha)
  obtain ⟨d, ht, -, rfl⟩ := deadline_step.mp hd
  rcases hok with hl | hp
  · have hlat : s₂.latched = true :=
      hr₁.invariant_avoiding (I := fun s => s.latched = true) hr₁' rfl
        fun _ _ _ ha _ hI hs => latched_step ha hI (step_moves hs)
    exact dark_of_locked hl ((h.step hd).run hr₁) hlat hc hm
  · refine dark_of_settling ?_ hc
    exact hr₁.invariant_avoiding hr₁' (settling_of_deadline h hp ht)
      fun _ _ _ ha _ hI hs => settling_step ha hI (step_moves hs)

/-- Without a lock, a command past the latch check writes after the trip has completed. -/
theorem not_latchedMeansDark (hl : A.driver.locked = false)
    (hd : (supervisor ι A).step s₀ .deadline = some s₁) (hp : ¬ PendingSafe A s₀) :
    ¬ LatchedMeansDark ι A s₁ := by
  intro hdark
  obtain ⟨⟨who, p⟩, hc, rfl, hcl⟩ :
      ∃ c ∈ s₀.calls, c.phase = .pending ∧ c.caller.level A ≠ A.safeState := by
    simpa [PendingSafe] using hp
  obtain ⟨j, hj, hget⟩ := List.getElem_of_mem hc
  obtain ⟨d, ht, -, rfl⟩ := deadline_step.mp hd
  have hm : ∀ i, A.mayAct i = true := fun i => by simp [Actuator.mayAct, hl]
  -- the trip's call, last in line, writes and completes; then the older command writes
  set s₁ := { s₀ with latched := true, runtimeTask := some (.tripping d .driving) }.startCall
    .runtime
  have hcalls : s₁.calls = s₀.calls ++ [⟨.runtime, .pending⟩] := rfl
  have hget₁ : s₁.calls[s₀.calls.length]? = some ⟨.runtime, .pending⟩ := by simp [hcalls]
  have hw := write_step (ι := ι) hget₁ (hm _)
  set s₂ : State L := { s₁ with
    hardware := (Caller.runtime (L := L)).level A
    calls := s₁.calls.set s₀.calls.length ⟨.runtime, .written⟩ }
  have hcalls₂ : s₂.calls = s₀.calls ++ [⟨.runtime, .written⟩] := by simp [s₂, hcalls]
  have hget₂ : s₂.calls[s₀.calls.length]? = some ⟨.runtime, .written⟩ := by simp [hcalls₂]
  have hcomp := (complete_runtime (ι := ι) (A := A) hget₂).mpr ⟨hm _, rfl⟩
  have hwho : who ≠ .runtime := fun he => hcl (he ▸ level_runtime)
  have hget₃ : ((s₂.dropCall s₀.calls.length).markSafe A).calls[j]? = some ⟨who, .pending⟩ := by
    simp [State.markSafe, State.cancelRuntime, State.dropCall, hl, hcalls₂, hj, hget,
      List.eraseIdx_append_of_length_le]
  exact hcl (hdark _ _ _ _ _ _ (.one trivial hw) (by simp) hget₂ hcomp
    (.one trivial (write_step hget₃ (hm _))) (by simp))

/-- **Latched means dark, exactly when** the driver holds a lock or every call in flight at the
trip was going to the safe state. -/
theorem latched_means_dark_iff (h : Reached ι A s₀)
    (hd : (supervisor ι A).step s₀ .deadline = some s₁) :
    LatchedMeansDark ι A s₁ ↔ A.driver.locked = true ∨ PendingSafe A s₀ := by
  refine ⟨fun hdark => ?_, latchedMeansDark_of_settled h hd⟩
  by_contra hno
  obtain ⟨hl, hp⟩ := not_or.mp hno
  exact not_latchedMeansDark (by simpa using hl) hd hp hdark

/-- Half duty. -/
def half : Duty := ⟨1 / 2, half_duty⟩

/-- A light at half duty, with a second command in flight as its cap runs out. -/
def commandedAtCap : State ActuatorLevel where
  latched := false
  heartbeatLost := false
  atSafeState := false
  lastBeat := 0
  beat := false
  watchTask := .watching
  runtimeTask := some (.sleeping lightMaxRuntimeS)
  hardware := .pwm half
  calls := [⟨.command (.pwm half), .pending⟩]
  now := lightMaxRuntimeS
  wall := 0
  clockTrusted := true

theorem commandedAtCap_reached (d : PwmDriver) :
    Reached Unit (lightRegistration d) commandedAtCap := by
  let c : ActuatorCommand Unit ActuatorLevel := ⟨(), .pwm half, 0, 30, by norm_num⟩
  refine ⟨0, 0, true, [.command c, .write 0, .complete 0, .tick lightMaxRuntimeS, .command c],
    Machine.exec_eq_some.mp ?_⟩
  cases d <;> decide +kernel

theorem commandedAtCap_deadline (d : PwmDriver) :
    (supervisor Unit (lightRegistration d)).step commandedAtCap .deadline =
      some ({ commandedAtCap with
        latched := true
        runtimeTask := some (.tripping lightMaxRuntimeS .driving) }.startCall .runtime) :=
  deadline_step.mpr ⟨_, rfl, le_refl _, rfl⟩

/-- A light is commanded again at its cap. -/
theorem latched_means_dark_iff_pca9685 :
    LatchedMeansDark Unit (lightRegistration .pca9685) ({ commandedAtCap with
      latched := true
      runtimeTask := some (.tripping lightMaxRuntimeS .driving) }.startCall .runtime) :=
  (latched_means_dark_iff (commandedAtCap_reached _) (commandedAtCap_deadline _)).mpr (.inl rfl)

/-- An RP1 channel can be latched and lit. -/
theorem not_latched_means_dark :
    ¬ ∀ (d : PwmDriver) (s₀ s₁ : State ActuatorLevel), Reached Unit (lightRegistration d) s₀ →
      (supervisor Unit (lightRegistration d)).step s₀ .deadline = some s₁ →
      LatchedMeansDark Unit (lightRegistration d) s₁ := by
  intro h
  refine not_latchedMeansDark rfl (commandedAtCap_deadline .rp1Pwm) ?_
    (h .rp1Pwm _ _ (commandedAtCap_reached _) (commandedAtCap_deadline _))
  intro hp
  exact absurd (hp _ List.mem_cons_self rfl) (by decide +kernel)

end BellasReef.HardwareIO
