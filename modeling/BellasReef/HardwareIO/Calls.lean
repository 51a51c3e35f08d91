import BellasReef.HardwareIO.Supervisor
import BellasReef.Support.Lists

/-!
# HardwareIO — Calls

The driver calls in flight, along every run of the supervisor.

* `Attended`: the runtime task awaits one call exactly while its trip is driving, and nobody
  else's call is taken for its own.
* `Serial`: behind a lock, every call but the first is still to act, and once the first has
  written, the hardware holds the level it wrote.
-/

namespace BellasReef.HardwareIO
open BellasReef.Contracts BellasReef.Support

variable {ι L : Type}

/-- Who awaits the calls in flight, in the order they started. -/
def State.callers (s : State L) : List (Caller L) := s.calls.map Call.caller

/-- The runtime task is inside `driver.drive_safe`. -/
def RuntimeTask.driving : RuntimeTask → Bool
  | .tripping _ .driving => true
  | _ => false

/-- The runtime task is in its driver call. -/
def State.runtimeDriving (s : State L) : Bool := s.runtimeTask.any RuntimeTask.driving

/-- A call that starts is last in line. -/
@[simp] theorem callers_startCall (who : Caller L) (s : State L) :
    (s.startCall who).callers = s.callers ++ [who] := by
  simp [State.callers, State.startCall]

@[simp] theorem callers_dropCall (i : ℕ) (s : State L) :
    (s.dropCall i).callers = s.callers.eraseIdx i := by
  simp [State.callers, State.dropCall, List.eraseIdx_map]

theorem callers_get {s : State L} {i : ℕ} {c : Call L} (hc : s.calls[i]? = some c) :
    s.callers[i]? = some c.caller := by
  simp [State.callers, hc]

/-- A call that acts keeps its caller. -/
theorem map_caller_set {cs : List (Call L)} {i : ℕ} {who : Caller L} {p q : Phase}
    (hc : cs[i]? = some ⟨who, p⟩) : (cs.set i ⟨who, q⟩).map Call.caller = cs.map Call.caller := by
  obtain ⟨hi, hc⟩ := List.getElem?_eq_some_iff.mp hc
  refine List.ext_getElem (by simp) fun j hj _ => ?_
  rw [List.getElem_map, List.getElem_set]
  split
  · next h => subst h; simp [hc]
  · simp

/-- After a cancellation the runtime task awaits nothing. -/
theorem not_mem_callers_cancelRuntime (A : Actuator L) (s : State L) :
    Caller.runtime ∉ (s.cancelRuntime A).callers := by
  simp only [State.callers, State.cancelRuntime, List.mem_map, not_exists, not_and]
  intro c hc
  split at hc
  · have := List.of_mem_filter hc
    intro he; simp [he] at this
  · obtain ⟨d, _, rfl⟩ := List.mem_map.mp hc
    split
    · simp
    · next h => intro he; exact h (by simp [show d.caller = .runtime from he])

variable {A : Actuator L} {s s' : State L} {a : Action ι L}

/-! ### Waiting calls -/

/-- No call in flight has acted. -/
def Waiting (s : State L) : Prop := ∀ c ∈ s.calls, c.phase = .pending

/-- Only the first call in flight has acted, and a level it wrote is on the hardware. -/
structure Serial (A : Actuator L) (s : State L) : Prop where
  waiting : ∀ c ∈ s.calls.tail, c.phase = .pending
  wrote : ∀ c, s.calls.head? = some c → c.phase = .written → s.hardware = c.caller.level A

theorem Waiting.serial (h : Waiting s) : Serial A s where
  waiting := fun c hc => h c (List.mem_of_mem_tail hc)
  wrote := by
    intro c hc hp
    rw [h c (List.mem_of_head? hc)] at hp
    cases hp

/-- An actuator that was just registered has no call in flight. -/
theorem serial_registered (now wall : ℚ) (trusted : Bool) :
    Serial A (State.registered A now wall trusted) :=
  Waiting.serial (by simp [Waiting, State.registered])

/-- To cancel the runtime task lets no call act. -/
theorem Waiting.cancelRuntime (h : Waiting s) : Waiting (s.cancelRuntime A) := by
  intro c hc
  simp only [State.cancelRuntime] at hc
  split at hc
  · exact h c (List.mem_of_mem_filter hc)
  · obtain ⟨d, hd, rfl⟩ := List.mem_map.mp hc
    split <;> exact h d hd

/-- Behind a driver's lock only the first call acts. -/
theorem eq_zero_of_mayAct {i : ℕ} (hl : A.driver.locked = true) (hm : A.mayAct i = true) :
    i = 0 := by
  simpa [Actuator.mayAct, hl] using hm

theorem Serial.startCall {who : Caller L} (h : Serial A s) : Serial A (s.startCall who) := by
  cases hcs : s.calls with
  | nil => exact Waiting.serial (by simp [Waiting, State.startCall, hcs])
  | cons c cs =>
      refine ⟨fun d hd => ?_, fun d hd hp => ?_⟩
      · rw [State.startCall, hcs, List.cons_append, List.tail_cons, List.mem_append] at hd
        rcases hd with hd | hd
        · exact h.waiting d (by rwa [hcs])
        · rw [List.mem_singleton.mp hd]
      · rw [State.startCall, hcs, List.cons_append, List.head?_cons] at hd
        exact h.wrote d (by rwa [hcs]) hp

/-- Once the first call has left, every call is waiting. -/
theorem Serial.dropCall {i : ℕ} (h : Serial A s) (hl : A.driver.locked = true)
    (hm : A.mayAct i = true) : Waiting (s.dropCall i) := by
  obtain rfl := eq_zero_of_mayAct hl hm
  intro c hc
  exact h.waiting c (by rwa [State.dropCall, List.eraseIdx_zero] at hc)

/-! ### Abandoned calls -/

/-- Every call in flight has a task that awaits it. -/
def Awaited (s : State L) : Prop := Caller.abandoned ∉ s.callers

theorem Awaited.cancelRuntime (hl : A.driver.locked = true) (h : Awaited s) :
    Awaited (s.cancelRuntime A) := by
  intro hc
  obtain ⟨c, hc, he⟩ := List.mem_map.mp hc
  rw [State.cancelRuntime, if_pos hl] at hc
  exact h (he ▸ List.mem_map_of_mem (List.mem_of_mem_filter hc))

theorem Awaited.startCall {who : Caller L} (h : Awaited s) (hw : who ≠ .abandoned) :
    Awaited (s.startCall who) := by
  rw [Awaited, callers_startCall]
  intro hc
  rcases List.mem_append.mp hc with hc | hc
  · exact h hc
  · exact hw (List.mem_singleton.mp hc).symm

theorem Awaited.dropCall {i : ℕ} (h : Awaited s) : Awaited (s.dropCall i) := by
  rw [Awaited, callers_dropCall]
  exact fun hc => h (List.mem_of_mem_eraseIdx hc)

/-! ### The runtime task's calls -/

variable [DecidableEq L]

/-- The runtime task awaits one call while its trip is driving, and none otherwise. -/
def Attended (s : State L) : Prop :=
  s.callers.count .runtime = if s.runtimeDriving then 1 else 0

theorem Attended.not_mem {s : State L} (h : Attended s) (hd : s.runtimeDriving = false) :
    Caller.runtime ∉ s.callers :=
  List.count_eq_zero.mp (by rw [h, hd]; rfl)

theorem attended_of_not_mem {s : State L} (h : Caller.runtime ∉ s.callers)
    (hd : s.runtimeDriving = false) : Attended s := by
  rw [Attended, hd]; exact List.count_eq_zero.mpr h

/-- A supervisor that was just registered has no runtime task. -/
theorem attended_registered (now wall : ℚ) (trusted : Bool) :
    Attended (State.registered A now wall trusted) := rfl

/-- A call that is not the runtime task's may end. -/
private theorem attended_leave {i : ℕ} {c : Call L} (h : Attended s)
    (hc : s.calls[i]? = some c) (hr : c.caller ≠ .runtime) : Attended (s.dropCall i) := by
  have := count_eraseIdx (callers_get hc) .runtime
  rw [if_neg hr] at this
  rw [Attended, callers_dropCall, ← Nat.add_zero (List.count _ _), this, h]
  rfl

theorem attended_markSafe : Attended (s.markSafe A) :=
  attended_of_not_mem (not_mem_callers_cancelRuntime A s) rfl

theorem attended_noteLevel {l : L} (h : Attended s) : Attended (s.noteLevel A l) := by
  unfold State.noteLevel
  split
  · exact attended_of_not_mem (not_mem_callers_cancelRuntime A s) rfl
  · split
    · rw [Attended] at h ⊢
      refine h.trans ?_
      cases ht : s.runtimeTask with
      | none => simp [State.runtimeDriving, RuntimeTask.driving, ht]
      | some r => simp [State.runtimeDriving, ht]
    · exact h

/-- **The runtime task's call is its own.** -/
theorem attended_step (h : Attended s) (hm : Moves A s a s') : Attended s' := by
  cases hm with
  | refused | typeError => exact h
  | command =>
      rw [Attended, callers_startCall, List.count_append, h]; rfl
  | write hc | fail hc => exact (congrArg (List.count _) (map_caller_set hc)).trans h
  | commandDone hc => exact attended_noteLevel (attended_leave h hc (by simp))
  | commandFailed hc => exact attended_leave h hc (by simp)
  | heartbeatDone hc => exact attended_markSafe (s := s.dropCall _)
  | heartbeatFailed hc => exact attended_leave h hc (by simp)
  | runtimeDone hc => exact attended_markSafe
  | @runtimeFailed i hc _ =>
      have hcount := count_eraseIdx (callers_get hc) .runtime
      rw [if_pos rfl, h] at hcount
      refine attended_of_not_mem ?_ ?_
      · refine List.count_eq_zero.mp ?_
        have : (s.callers.eraseIdx i).count .runtime = 0 := by
          split at hcount <;> omega
        rwa [← callers_dropCall] at this
      · cases ht : s.runtimeTask with
        | none => rfl
        | some r => cases r <;> rfl
  | abandonedDone hc => exact attended_leave h hc (by simp)
  | watchDrive =>
      rw [Attended, callers_startCall, List.count_append]
      exact congrArg (· + 0) h
  | deadline ht | runtimeRetry ht =>
      have h0 : s.callers.count .runtime = 0 := by rw [h, State.runtimeDriving, ht]; rfl
      rw [Attended, callers_startCall, List.count_append]
      exact congrArg (· + 1) h0
  | runtimeReported ht =>
      have hn := h.not_mem (by rw [State.runtimeDriving, ht]; rfl)
      exact attended_of_not_mem hn rfl
  | clearLatch => exact h
  | quiet _ hc _ _ _ hr _ =>
      unfold Attended State.callers State.runtimeDriving at h ⊢
      rwa [hc, hr]

/-! ### Behind a lock -/

theorem Waiting.noteLevel {l : L} (h : Waiting s) : Waiting (s.noteLevel A l) := by
  unfold State.noteLevel
  split
  · exact h.cancelRuntime
  · split <;> exact h

/-- **One call at a time behind a lock.** -/
theorem serial_step (hl : A.driver.locked = true) (h : Serial A s) (hm : Moves A s a s') :
    Serial A s' := by
  cases hm with
  | refused | typeError | runtimeReported | clearLatch => exact ⟨h.waiting, h.wrote⟩
  | command => exact h.startCall
  | watchDrive | deadline | runtimeRetry => exact Serial.startCall ⟨h.waiting, h.wrote⟩
  | write hc hm =>
      obtain rfl := eq_zero_of_mayAct hl hm
      refine ⟨fun c hc' => h.waiting c ?_, fun c hc' _ => ?_⟩
      · cases hcs : s.calls with
        | nil => simp [hcs] at hc
        | cons d ds => simpa [hcs] using hc'
      · cases hcs : s.calls with
        | nil => simp [hcs] at hc
        | cons d ds => simp [hcs] at hc'; simp [← hc']
  | fail hc hm =>
      obtain rfl := eq_zero_of_mayAct hl hm
      refine ⟨fun c hc' => h.waiting c ?_, fun c hc' hp => ?_⟩
      · cases hcs : s.calls with
        | nil => simp [hcs] at hc
        | cons d ds => simpa [hcs] using hc'
      · cases hcs : s.calls with
        | nil => simp [hcs] at hc
        | cons d ds => simp [hcs] at hc'; simp [← hc'] at hp
  | commandDone _ hm => exact (h.dropCall hl hm).noteLevel.serial
  | commandFailed _ hm | heartbeatFailed _ hm | runtimeFailed _ hm | abandonedDone _ _ hm =>
      exact Waiting.serial (h.dropCall hl hm)
  | heartbeatDone _ hm | runtimeDone _ hm =>
      exact Waiting.serial (h.dropCall hl hm).cancelRuntime
  | quiet _ hc hh => exact ⟨by rw [hc]; exact h.waiting, by rw [hc, hh]; exact h.wrote⟩

theorem Awaited.noteLevel {l : L} (hl : A.driver.locked = true) (h : Awaited s) :
    Awaited (s.noteLevel A l) := by
  rw [State.noteLevel]
  split
  · exact h.cancelRuntime hl
  · split <;> exact h

/-- **Step.**  Behind a lock every call is awaited. -/
theorem awaited_step (hl : A.driver.locked = true) (h : Awaited s) (hm : Moves A s a s') :
    Awaited s' := by
  cases hm with
  | refused | typeError | runtimeReported | clearLatch => exact h
  | command => exact h.startCall (by simp)
  | watchDrive | deadline | runtimeRetry =>
      exact Awaited.startCall (s := { s with }) h (by simp)
  | write hc | fail hc => rwa [Awaited, State.callers, map_caller_set hc]
  | commandDone => exact h.dropCall.noteLevel hl
  | commandFailed | heartbeatFailed | runtimeFailed | abandonedDone => exact h.dropCall (s := s)
  | heartbeatDone | runtimeDone => exact h.dropCall.cancelRuntime hl
  | quiet _ hc => rwa [Awaited, State.callers, hc]

/-! ### The watcher's calls -/

/-- The watcher awaits one call while its trip is driving, and none otherwise. -/
def Watched (s : State L) : Prop :=
  s.callers.count .heartbeat = if s.watchTask.driving then 1 else 0

/-- The watcher starts with its actuator. -/
theorem watched_registered (now wall : ℚ) (trusted : Bool) :
    Watched (State.registered A now wall trusted) := rfl

/-- A heartbeat call is the watcher's own. -/
theorem Watched.driving {i : ℕ} {p : Phase} (h : Watched s)
    (hc : s.calls[i]? = some ⟨.heartbeat, p⟩) : s.watchTask.driving = true := by
  by_contra hd
  rw [Watched, if_neg hd, List.count_eq_zero] at h
  exact h (List.mem_of_getElem? (callers_get hc))

theorem count_heartbeat_cancelRuntime :
    (s.cancelRuntime A).callers.count .heartbeat = s.callers.count .heartbeat := by
  rw [State.callers, State.callers, State.cancelRuntime]
  split
  · induction s.calls with
    | nil => rfl
    | cons c cs ih =>
        obtain ⟨who, p⟩ := c
        cases who with
        | runtime => simpa using ih
        | command | heartbeat | abandoned => simpa [List.count_cons] using ih
  · induction s.calls with
    | nil => rfl
    | cons c cs ih =>
        obtain ⟨who, p⟩ := c
        cases who <;> simpa [List.count_cons] using ih

theorem count_heartbeat_noteLevel {l : L} :
    (s.noteLevel A l).callers.count .heartbeat = s.callers.count .heartbeat := by
  rw [State.noteLevel]
  split
  · exact count_heartbeat_cancelRuntime
  · split <;> rfl

theorem watchTask_noteLevel {l : L} : (s.noteLevel A l).watchTask = s.watchTask := by
  rw [State.noteLevel]
  split
  · rfl
  · split <;> rfl

private theorem watched_leave {i : ℕ} {c : Call L} (h : Watched s)
    (hc : s.calls[i]? = some c) (hr : c.caller ≠ .heartbeat) : Watched (s.dropCall i) := by
  have := count_eraseIdx (callers_get hc) .heartbeat
  rw [if_neg hr] at this
  rw [Watched, callers_dropCall, ← Nat.add_zero (List.count _ _), this, h]
  rfl

private theorem count_heartbeat_leave {i : ℕ} {p : Phase} (h : Watched s)
    (hc : s.calls[i]? = some ⟨.heartbeat, p⟩) : (s.dropCall i).callers.count .heartbeat = 0 := by
  have := count_eraseIdx (callers_get hc) .heartbeat
  rw [if_pos rfl, h, if_pos (h.driving hc)] at this
  rw [callers_dropCall]
  omega

/-- **The watcher's call is its own.** -/
theorem watched_step (h : Watched s) (hm : Moves A s a s') : Watched s' := by
  cases hm with
  | refused | typeError => exact h
  | command | deadline | runtimeRetry =>
      rw [Watched, callers_startCall, List.count_append]
      exact congrArg (· + 0) h
  | write hc | fail hc => exact (congrArg (List.count _) (map_caller_set hc)).trans h
  | commandDone hc =>
      rw [Watched, count_heartbeat_noteLevel, watchTask_noteLevel]
      exact watched_leave h hc (by simp)
  | commandFailed hc | abandonedDone hc | runtimeFailed hc => exact watched_leave h hc (by simp)
  | heartbeatDone hc =>
      exact count_heartbeat_cancelRuntime.trans (count_heartbeat_leave h hc)
  | heartbeatFailed hc => exact count_heartbeat_leave h hc
  | runtimeDone hc => exact count_heartbeat_cancelRuntime.trans (watched_leave h hc (by simp))
  | watchDrive ha =>
      have h0 : s.callers.count .heartbeat = 0 := by
        rw [h]; rcases ha with ⟨-, hw⟩ | ⟨-, u, hw⟩ <;> rw [hw] <;> rfl
      rw [Watched, callers_startCall, List.count_append]
      exact congrArg (· + 1) h0
  | runtimeReported | clearLatch => exact h
  | quiet _ hc _ _ _ _ _ hd => rw [Watched, State.callers, hc, hd]; exact h

/-! ### Reached states -/

/-- A state some run reaches from registration. -/
def Reached (ι : Type) (A : Actuator L) (s : State L) : Prop :=
  ∃ now wall trusted as, (supervisor ι A).Run (State.registered A now wall trusted) as s

/-- What holds of a registered actuator and is kept by every step holds of what is reached. -/
theorem Reached.invariant {I : State L → Prop} (h : Reached ι A s)
    (h₀ : ∀ now wall trusted, I (State.registered A now wall trusted))
    (hstep : ∀ (s : State L) (a : Action ι L) s', I s → Moves A s a s' → I s') : I s := by
  obtain ⟨now, wall, trusted, as, hr⟩ := h
  exact hr.invariant (h₀ now wall trusted) fun s a s' _ hI hs => hstep s a s' hI (step_moves hs)

theorem Reached.step (h : Reached ι A s) (hs : (supervisor ι A).step s a = some s') :
    Reached ι A s' := by
  obtain ⟨now, wall, trusted, as, hr⟩ := h
  exact ⟨now, wall, trusted, as ++ [a], hr.snoc trivial hs⟩

theorem Reached.run {as : List (Action ι L)} (h : Reached ι A s)
    (hs : (supervisor ι A).Run s as s') : Reached ι A s' := by
  obtain ⟨now, wall, trusted, bs, hr⟩ := h
  exact ⟨now, wall, trusted, bs ++ as, hr.append hs⟩

/-- In every state reached a runtime call has its task. -/
theorem Reached.attended (h : Reached ι A s) : Attended s :=
  h.invariant attended_registered fun _ _ _ => attended_step

/-- In every state reached the calls of a locked driver wait for one another. -/
theorem Reached.serial (hl : A.driver.locked = true) (h : Reached ι A s) : Serial A s :=
  h.invariant serial_registered fun _ _ _ => serial_step hl

end BellasReef.HardwareIO
