import BellasReef.HardwareIO.Latch

/-!
# HardwareIO — Runtime cap

A channel behind a lock that is not in its safe state is under a running cap.

The cap's clock starts where `_note_level` runs, with the return of the driver call that took the
hardware out of the safe state (`returnedAt`), and not with the write itself (`leftAt`), which a
slow return leaves behind.  `Capped` is the invariant; `runtime_cap_covers` the result: at rest,
a lit channel has a live runtime task with that deadline, which nothing moves while the channel
stays lit.
-/

namespace BellasReef.HardwareIO
open BellasReef.Contracts BellasReef.Support

variable {ι L : Type}

/-! ### Out of the safe state -/

/-- When the hardware last left the safe state. -/
structure Departure where
  /-- The write. -/
  leftAt : ℚ
  /-- The call that wrote has not returned. -/
  leaving : Bool
  /-- Its return. -/
  returnedAt : ℚ
  deriving DecidableEq

/-- Before any departure. -/
def Departure.start (now : ℚ) : Departure := ⟨now, false, now⟩

/-- The step is the return of a call that wrote. -/
def State.returns (s : State L) : Action ι L → Bool
  | .complete i => (s.calls[i]?).any (·.phase = .written)
  | _ => false

/-- The record, after a step. -/
def Departure.note [DecidableEq L] (A : Actuator L) (s : State L) (a : Action ι L) (s' : State L)
    (g : Departure) : Departure where
  leftAt := if s.hardware = A.safeState ∧ s'.hardware ≠ A.safeState then s.now else g.leftAt
  leaving :=
    if s'.hardware = A.safeState then false
    else if s.hardware = A.safeState then true
    else g.leaving && !s.returns a
  returnedAt := if g.leaving && s.returns a then s.now else g.returnedAt

/-! ### The cap -/

/-- The deadline of the live runtime task. -/
def State.capAt (s : State L) : Option ℚ := s.runtimeTask.map RuntimeTask.deadline

/-- A call has written and not returned. -/
def State.Wrote (s : State L) : Prop := ∃ c, s.calls.head? = some c ∧ c.phase = .written

variable {A : Actuator L} {s s' : State L} {a : Action ι L} {g : Departure}

theorem wrote_startCall {who : Caller L} (h : s.Wrote) : (s.startCall who).Wrote := by
  obtain ⟨c, hc, hp⟩ := h
  refine ⟨c, ?_, hp⟩
  obtain ⟨cs, hcs⟩ := List.head?_eq_some_iff.mp hc
  rw [State.startCall, hcs]; rfl

theorem not_wrote {c : Call L} (hc : s.calls[0]? = some c) (hp : c.phase ≠ .written) : ¬ s.Wrote := by
  rintro ⟨d, hd, hw⟩
  rw [List.head?_eq_getElem?, hc] at hd
  exact hp (Option.some.inj hd ▸ hw)

theorem Waiting.not_wrote (h : Waiting s) : ¬ s.Wrote := by
  rintro ⟨c, hc, hp⟩
  rw [h c (List.mem_of_head? hc)] at hp
  cases hp

/-- The cap, and the departure it counts from. -/
structure Capped [DecidableEq L] (A : Actuator L) (s : State L) (g : Departure) : Prop where
  serial : Serial A s
  awaited : Awaited s
  /-- The task is live exactly out of the safe state, and counts from the return. -/
  cap : s.capAt = if s.atSafeState then none else some (g.returnedAt + A.maxRuntimeS)
  /-- Between a departing write and its return, the guard has not heard of it. -/
  leaving : g.leaving = true ↔ s.hardware ≠ A.safeState ∧ s.atSafeState = true
  /-- With no write to hear of, the guard is right about the hardware. -/
  settled : ¬ s.Wrote → (s.hardware = A.safeState ↔ s.atSafeState = true)

variable [DecidableEq L]

/-- An actuator that was just registered is under no cap. -/
theorem capped_registered (now wall : ℚ) (trusted : Bool) :
    Capped A (State.registered A now wall trusted) (Departure.start now) where
  serial := serial_registered ..
  awaited := by simp [Awaited, State.callers, State.registered]
  cap := rfl
  leaving := by simp [State.registered, Departure.start]
  settled := by simp [State.registered]

/-- A step that is no write and no return of one. -/
theorem Capped.still (h : Capped A s g) (hser : Serial A s') (haw : Awaited s')
    (hh : s'.hardware = s.hardware) (hat : s'.atSafeState = s.atSafeState)
    (hcap : s'.capAt = s.capAt) (hret : s.returns a = false) (hw : s.Wrote → s'.Wrote) :
    Capped A s' (g.note A s a s') where
  serial := hser
  awaited := haw
  cap := by simpa [Departure.note, hret, hat, hcap] using h.cap
  leaving := by
    have := h.leaving
    by_cases he : s.hardware = A.safeState
    · simp [Departure.note, hh, he]
    · simpa [Departure.note, hh, hat, hret, he] using this
  settled := by
    intro hn
    rw [hh, hat]
    exact h.settled fun hwr => hn (hw hwr)

/-- The return of a write that leaves the channel in the safe state. -/
theorem Capped.returned_safe {i : ℕ} {who : Caller L} (hl : A.driver.locked = true)
    (h : Capped A s g) (hc : s.calls[i]? = some ⟨who, .written⟩) (hm : A.mayAct i = true)
    (hw : who.level A = A.safeState)
    (hcs : s'.calls = ((s.dropCall i).cancelRuntime A).calls) (hh : s'.hardware = s.hardware)
    (hat : s'.atSafeState = true) (ht : s'.runtimeTask = none) : Capped A s' (g.note A s a s') := by
  have hwait : Waiting s' := by
    intro c hc
    rw [hcs] at hc
    exact (h.serial.dropCall hl hm).cancelRuntime c hc
  obtain rfl := eq_zero_of_mayAct hl hm
  have hsafe : s'.hardware = A.safeState := by
    rw [hh, ← hw]
    exact h.serial.wrote _ (by rwa [List.head?_eq_getElem?]) rfl
  refine ⟨hwait.serial, ?_, ?_, ?_, fun _ => ?_⟩
  · rw [Awaited, State.callers, hcs]
    exact h.awaited.dropCall.cancelRuntime hl
  · rw [State.capAt, ht, hat]; rfl
  · simp [Departure.note, hsafe]
  · simp [hsafe, hat]

/-- The return of a write that takes the channel out of the safe state, or keeps it out. -/
theorem Capped.returned_lit {i : ℕ} {l : L} (hl : A.driver.locked = true)
    (h : Capped A s g) (hc : s.calls[i]? = some ⟨.command l, .written⟩) (hm : A.mayAct i = true)
    (hw : l ≠ A.safeState) :
    Capped A ((s.dropCall i).noteLevel A l)
      (g.note A s (.complete i : Action ι L) ((s.dropCall i).noteLevel A l)) := by
  have hwait := (h.serial.dropCall hl hm).noteLevel (A := A) (l := l)
  have haw := (h.awaited.dropCall (i := i)).noteLevel (A := A) (l := l) hl
  have hret : s.returns (.complete i : Action ι L) = true := by simp [State.returns, hc]
  obtain rfl := eq_zero_of_mayAct hl hm
  have hlit : s.hardware ≠ A.safeState := by
    rw [h.serial.wrote _ (by rwa [List.head?_eq_getElem?]) rfl]; exact hw
  have hcap := h.cap
  cases hat : s.atSafeState with
  | true =>
      -- the departing write returns: the clock starts
      have htask : s.runtimeTask = none := by simpa [hat, State.capAt] using hcap
      have hleaving : g.leaving = true := h.leaving.mpr ⟨hlit, hat⟩
      rw [State.noteLevel, if_neg hw] at hwait haw ⊢
      refine ⟨hwait.serial, haw, ?_, ?_, fun _ => ?_⟩ <;>
        simp [State.capAt, State.dropCall, RuntimeTask.deadline, Departure.note, hat, htask,
          hleaving, hret, hlit]
  | false =>
      have htask : s.runtimeTask ≠ none := by
        intro hn; simp [State.capAt, hn, hat] at hcap
      have hleaving : g.leaving = false := by simpa [hat] using h.leaving
      have hsame : (s.dropCall 0).noteLevel A l = s.dropCall 0 := by
        simp [State.noteLevel, hw, State.dropCall, hat, htask]
      rw [hsame] at hwait haw ⊢
      refine ⟨hwait.serial, haw, ?_, ?_, fun _ => ?_⟩
      · simpa [State.capAt, State.dropCall, Departure.note, hat, hleaving] using hcap
      · simp [State.dropCall, Departure.note, hat, hleaving, hlit]
      · simp [State.dropCall, hat, hlit]

/-- **The cap is kept by every step.** -/
theorem capped_step (hl : A.driver.locked = true) (h : Capped A s g) (hm : Moves A s a s') :
    Capped A s' (g.note A s a s') := by
  have hser := serial_step hl h.serial hm
  have haw := awaited_step hl h.awaited hm
  cases hm with
  | refused | typeError => exact h.still hser haw rfl rfl rfl rfl id
  | command => exact h.still hser haw rfl rfl rfl rfl wrote_startCall
  | @write i who hc hm =>
      obtain rfl := eq_zero_of_mayAct hl hm
      have hsettled := h.settled (not_wrote hc (by simp))
      refine ⟨hser, haw, ?_, ?_, fun hn => absurd ?_ hn⟩
      · simpa [Departure.note, State.returns, State.capAt] using h.cap
      · have hleaving := h.leaving
        by_cases hw : who.level A = A.safeState
        · simp [Departure.note, hw]
        · by_cases hs : s.hardware = A.safeState
          · simp [Departure.note, hw, hs, hsettled.mp hs]
          · simpa [Departure.note, State.returns, hw, hs] using hleaving
      · refine ⟨⟨who, .written⟩, ?_, rfl⟩
        obtain ⟨c, cs, hcs⟩ := List.exists_cons_of_ne_nil (List.ne_nil_of_mem (List.mem_of_getElem? hc))
        simp [hcs]
  | fail hc hm =>
      obtain rfl := eq_zero_of_mayAct hl hm
      exact h.still hser haw rfl rfl rfl rfl fun hw => absurd hw (not_wrote hc (by simp))
  | @commandDone i l hc hm =>
      by_cases hw : l = A.safeState
      · rw [State.noteLevel, if_pos hw]
        exact h.returned_safe hl hc hm hw rfl rfl rfl rfl
      · exact h.returned_lit hl hc hm hw
  | heartbeatDone hc hm | runtimeDone hc hm =>
      exact h.returned_safe hl hc hm A.drives_safe rfl rfl rfl rfl
  | @commandFailed i _ hc hm | @heartbeatFailed i hc hm =>
      have hret : s.returns (.complete i : Action ι L) = false := by simp [State.returns, hc]
      obtain rfl := eq_zero_of_mayAct hl hm
      exact h.still hser haw rfl rfl rfl hret fun hw => absurd hw (not_wrote hc (by simp))
  | @runtimeFailed i hc hm =>
      have hret : s.returns (.complete i : Action ι L) = false := by simp [State.returns, hc]
      obtain rfl := eq_zero_of_mayAct hl hm
      refine h.still hser haw rfl rfl ?_ hret fun hw => absurd hw (not_wrote hc (by simp))
      cases ht : s.runtimeTask <;> simp [State.capAt, ht]
  | abandonedDone hc => exact absurd (List.mem_of_getElem? (callers_get hc)) h.awaited
  | watchDrive ha =>
      have hret : s.returns a = false := by rcases ha with ⟨rfl, -⟩ | ⟨rfl, -⟩ <;> rfl
      exact h.still hser haw rfl rfl rfl hret wrote_startCall
  | deadline ht | runtimeRetry ht =>
      exact h.still hser haw rfl rfl (by simp [State.capAt, State.startCall, ht, RuntimeTask.deadline])
        rfl wrote_startCall
  | runtimeReported ht =>
      exact h.still hser haw rfl rfl (by simp [State.capAt, ht, RuntimeTask.deadline]) rfl id
  | clearLatch => exact h.still hser haw rfl rfl rfl rfl id
  | quiet ha hc hh _ hs hr =>
      have hret : s.returns a = false := by
        cases a <;> first | rfl | exact absurd rfl (ha.2.2.1 _)
      refine h.still hser haw hh hs (by rw [State.capAt, hr]; rfl) hret fun hw => ?_
      rwa [State.Wrote, hc]

/-- Nothing tells the guard a lit channel is safe. -/
theorem atSafeState_step (hl : A.driver.locked = true) (hs : Serial A s)
    (hlit : s.hardware ≠ A.safeState) (hat : s.atSafeState = false) (hm : Moves A s a s') :
    s'.atSafeState = false := by
  have hwrote : ∀ i who, s.calls[i]? = some ⟨who, .written⟩ → A.mayAct i = true →
      who.level A ≠ A.safeState := by
    intro i who hc hm
    obtain rfl := eq_zero_of_mayAct hl hm
    have hwrote := hs.wrote _ (by rwa [List.head?_eq_getElem?]) rfl
    exact hwrote ▸ hlit
  cases hm with
  | @commandDone i l hc hm =>
      have hw : l ≠ A.safeState := hwrote _ _ hc hm
      rw [State.noteLevel, if_neg hw]
      split
      · rfl
      · exact hat
  | heartbeatDone hc hm | runtimeDone hc hm => exact absurd A.drives_safe (hwrote _ _ hc hm)
  | quiet _ _ _ _ he => rw [he, hat]
  | _ => exact hat

/-- While the channel stays lit, its deadline stays put. -/
theorem capped_lit_step {d : ℚ} (hl : A.driver.locked = true) (h : Capped A s g)
    (hlit : s.hardware ≠ A.safeState) (hcap : s.capAt = some d) (hm : Moves A s a s') :
    Capped A s' (g.note A s a s') ∧ s'.capAt = some d := by
  have h' := capped_step hl h hm
  refine ⟨h', ?_⟩
  have hat : s.atSafeState = false := by
    by_contra hat
    rw [h.cap, if_pos (by simpa using hat)] at hcap
    cases hcap
  have hleaving : g.leaving = false := by simpa [hat] using h.leaving
  rw [h'.cap, atSafeState_step hl h.serial hlit hat hm, ← hcap, h.cap, hat]
  simp [Departure.note, hleaving]

/-! ### Coverage -/

/-- The supervisor, with its departures recorded. -/
def capMachine (ι : Type) (A : Actuator L) : Machine (State L × Departure) (Action ι L) :=
  (supervisor ι A).ghost (Departure.note A)

/-- A run of it, from registration. -/
def CapRun (ι : Type) (A : Actuator L) (s : State L) (g : Departure) : Prop :=
  ∃ now wall trusted as, (capMachine ι A).Run
    (State.registered A now wall trusted, Departure.start now) as (s, g)

/-- Over a run the cap holds. -/
theorem CapRun.capped (hl : A.driver.locked = true) (h : CapRun ι A s g) : Capped A s g := by
  obtain ⟨now, wall, trusted, as, h⟩ := h
  exact h.invariant (I := fun p => Capped A p.1 p.2) (capped_registered ..)
    (Machine.ghost_preserves fun _ _ _ _ _ hI hs => capped_step hl hI (step_moves hs))

/-- Whenever the channel is lit at rest, its cap is running: the guard knows, and a live runtime
task ends within `max_runtime_s` of `from_`. -/
def CapCovers (A : Actuator L) (s : State L) (from_ : ℚ) : Prop :=
  s.calls = [] → s.hardware ≠ A.safeState →
    s.atSafeState = false ∧ ∃ r, s.runtimeTask = some r ∧ r.deadline ≤ from_ + A.maxRuntimeS

/-- However the run goes on, the deadline stays put while the channel stays lit. -/
def DeadlineFixed (ι : Type) (A : Actuator L) (s : State L) : Prop :=
  ∀ r, s.runtimeTask = some r → ∀ as s',
    (supervisor ι A).RunIf (fun s _ => s.hardware ≠ A.safeState) s as s' →
    ∃ r', s'.runtimeTask = some r' ∧ r'.deadline = r.deadline

/-- A deadline that is set is not moved. -/
theorem deadlineFixed (hl : A.driver.locked = true) (h : Capped A s g) : DeadlineFixed ι A s := by
  intro r hr as s' hrun
  have hcap : s.capAt = some r.deadline := by rw [State.capAt, hr]; rfl
  obtain ⟨-, hcap'⟩ := hrun.invariant
    (I := fun s => (∃ g, Capped A s g) ∧ s.capAt = some r.deadline) ⟨⟨g, h⟩, hcap⟩ <| by
      rintro s a s' hlit ⟨⟨g, hI⟩, hd⟩ hs
      obtain ⟨hI', hd'⟩ := capped_lit_step hl hI hlit hd (step_moves hs)
      exact ⟨⟨_, hI'⟩, hd'⟩
  obtain ⟨r', hr', hd⟩ := Option.map_eq_some_iff.mp hcap'
  exact ⟨r', hr', hd⟩

/-- **Runtime cap coverage**, counted from the return of the call that lit the channel. -/
theorem runtime_cap_covers (hl : A.driver.locked = true) (h : CapRun ι A s g) :
    CapCovers A s g.returnedAt ∧ DeadlineFixed ι A s := by
  have hcapped := h.capped hl
  refine ⟨fun hrest hlit => ?_, deadlineFixed hl hcapped⟩
  have hn : ¬ s.Wrote := by rintro ⟨c, hc, -⟩; simp [hrest] at hc
  have hat : s.atSafeState = false := by simpa [hlit] using hcapped.settled hn
  have hcap := hcapped.cap
  rw [hat, State.capAt] at hcap
  obtain ⟨r, hr, hd⟩ := Option.map_eq_some_iff.mp hcap
  exact ⟨hat, r, hr, hd.le⟩

/-- A light at half duty, whose command returned five seconds after it wrote. -/
def returnedLate : State ActuatorLevel where
  latched := false
  heartbeatLost := false
  atSafeState := false
  lastBeat := 0
  beat := false
  watchTask := .watching
  runtimeTask := some (.sleeping (5 + lightMaxRuntimeS))
  hardware := .pwm half
  calls := []
  now := 5
  wall := 0
  clockTrusted := true

theorem returnedLate_run : CapRun Unit (lightRegistration .pca9685) returnedLate ⟨0, false, 5⟩ := by
  let c : ActuatorCommand Unit ActuatorLevel := ⟨(), .pwm half, 0, 30, by norm_num⟩
  refine ⟨0, 0, true, [.command c, .write 0, .tick 5, .complete 0], Machine.exec_eq_some.mp ?_⟩
  decide +kernel

/-- A command returns late, and its cap is as long. -/
theorem runtime_cap_covers_light :
    CapCovers (lightRegistration .pca9685) returnedLate 5 ∧
      DeadlineFixed Unit (lightRegistration .pca9685) returnedLate := by
  have hlocked : (lightRegistration .pca9685).driver.locked = true := rfl
  exact runtime_cap_covers hlocked returnedLate_run

/-- The cap can end later than `max_runtime_s` after the write that lit the channel. -/
theorem not_runtime_cap_covers_leftAt :
    ¬ ∀ (A : Actuator ActuatorLevel) (s : State ActuatorLevel) (g : Departure),
      A.driver.locked = true → CapRun Unit A s g →
      CapCovers A s g.leftAt ∧ DeadlineFixed Unit A s := by
  intro h
  obtain ⟨-, r, hr, hd⟩ := (h _ _ _ rfl returnedLate_run).1 rfl (by decide +kernel)
  cases hr
  exact absurd hd (by decide +kernel)

end BellasReef.HardwareIO
