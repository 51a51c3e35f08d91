import BellasReef.Support.Machine
import BellasReef.HardwareIO.Drivers

/-!
# HardwareIO — Supervisor

`InterlockSupervisor` (`safety.py`), for one registered actuator.  The state is its guard, the
level on the hardware, the driver calls in flight and the clocks.  The steps are the stretches
of the source between two suspension points, each on the task that runs it:

* a command is refused, or starts `driver.apply` (`command`); the heartbeat watcher and the
  runtime task start `driver.drive_safe` (`watchTimeout`, `deadline`, and the retries);
* a driver call writes the hardware or fails, on its worker thread (`write`, `fail`), and later
  returns to the task that awaits it (`complete`), which does its bookkeeping in the same stretch
  (`_note_level`, `_mark_safe`) and, for a trip, hands the event to the sink;
* `heartbeat`, `clear_latch`, and the clocks.

`calls` lists the calls in flight in the order they started.  A driver with a lock lets only the
first of them act; without one, any of them may.  Cancelling the runtime task takes a call that
waits for the lock out of the queue; a call already on its thread runs on, with nobody waiting
for it (`to_thread_uncancellable`).  A task just created takes its first turn with the step that
created it.  `stop` is not modelled: the supervisor runs.
-/

namespace BellasReef.HardwareIO
open BellasReef.Contracts BellasReef.Support

variable {ι L : Type}

/-! ### The guard -/

/-- `TripReason`. -/
inductive TripReason where
  | heartbeatTimeout
  | maxRuntimeExceeded
  | commandExpired
  | latched
  | clockUntrusted
  | shutdown
  | unknownActuator
  deriving DecidableEq, Repr

/-- `CommandOutcome`. -/
inductive CommandOutcome where
  | applied
  | rejectedExpired
  | rejectedLatched
  | rejectedClock
  | rejectedUnknown
  deriving DecidableEq, Repr

/-- `SafetyEvent`, handed to the sink. -/
structure SafetyEvent where
  reason : TripReason
  reachedSafe : Bool
  deriving DecidableEq, Repr

/-- `RETRY_BACKOFF_S`. -/
def retryBackoffS : ℚ := 1

/-- Where `_drive_safe_with_retry` stands. -/
inductive Trip where
  /-- Awaiting `driver.drive_safe`. -/
  | driving
  /-- Awaiting the sink with a failed attempt. -/
  | reporting
  /-- Asleep until the next attempt. -/
  | backoff (until_ : ℚ)
  deriving DecidableEq

/-- Where `_watch_heartbeat` stands. -/
inductive WatchTask where
  /-- Waiting for a beat or its deadline. -/
  | watching
  | tripping (t : Trip)
  /-- Safe and reported, waiting for a beat. -/
  | tripped
  deriving DecidableEq

/-- Where a live `_runtime_deadline` stands; `deadline` is when its sleep ends. -/
inductive RuntimeTask where
  | sleeping (deadline : ℚ)
  | tripping (deadline : ℚ) (t : Trip)
  deriving DecidableEq

/-- When the task trips, or has tripped. -/
def RuntimeTask.deadline : RuntimeTask → ℚ
  | .sleeping d | .tripping d _ => d

/-- The runtime task, with its trip moved to `t`. -/
def RuntimeTask.to (t : Trip) : RuntimeTask → RuntimeTask
  | .sleeping d | .tripping d _ => .tripping d t

@[simp] theorem RuntimeTask.deadline_to (t : Trip) (r : RuntimeTask) :
    (r.to t).deadline = r.deadline := by cases r <;> rfl

/-! ### Driver calls -/

/-- Who awaits a driver call. -/
inductive Caller (L : Type) where
  /-- `apply`, with the effective level of its command. -/
  | command (level : L)
  | heartbeat
  | runtime
  /-- Nobody: its task was cancelled. -/
  | abandoned
  deriving DecidableEq

/-- How far a driver call is: still to write, written, or failed. -/
inductive Phase where
  | pending
  | written
  | raised
  deriving DecidableEq, Repr

/-- A driver call in flight. -/
structure Call (L : Type) where
  caller : Caller L
  phase : Phase
  deriving DecidableEq

/-- The level a call writes. -/
def Caller.level (A : Actuator L) : Caller L → L
  | .command l => l
  | .heartbeat | .runtime | .abandoned => A.driver.driveSafe

/-- The state of one actuator. -/
structure State (L : Type) where
  latched : Bool
  heartbeatLost : Bool
  atSafeState : Bool
  lastBeat : ℚ
  /-- The `asyncio.Event`. -/
  beat : Bool
  watchTask : WatchTask
  /-- `none`: no task, or one that is done. -/
  runtimeTask : Option RuntimeTask
  hardware : L
  calls : List (Call L)
  /-- `loop.time()`. -/
  now : ℚ
  /-- The host clock. -/
  wall : ℚ
  clockTrusted : Bool
  deriving DecidableEq

/-- An actuator just registered: freshly opened, dark, and watched. -/
def State.registered (A : Actuator L) (now wall : ℚ) (trusted : Bool) : State L where
  latched := false
  heartbeatLost := false
  atSafeState := true
  lastBeat := now
  beat := false
  watchTask := .watching
  runtimeTask := none
  hardware := A.safeState
  calls := []
  now := now
  wall := wall
  clockTrusted := trusted

/-! ### Bookkeeping -/

/-- `runtime_task.cancel()`. -/
def State.cancelRuntime (A : Actuator L) (s : State L) : State L :=
  { s with
    runtimeTask := none
    calls :=
      if A.driver.locked then s.calls.filter fun c => !(c.caller matches .runtime)
      else s.calls.map fun c => if c.caller matches .runtime then ⟨.abandoned, c.phase⟩ else c }

/-- `_note_level`. -/
def State.noteLevel [DecidableEq L] (A : Actuator L) (level : L) (s : State L) : State L :=
  if level = A.safeState then { s.cancelRuntime A with atSafeState := true }
  else if s.atSafeState || s.runtimeTask.isNone then
    { s with
      atSafeState := false
      runtimeTask := s.runtimeTask <|> some (.sleeping (s.now + A.maxRuntimeS)) }
  else s

/-- `_mark_safe`.  On the runtime task's own success it cancels the task that runs it. -/
def State.markSafe (A : Actuator L) (s : State L) : State L :=
  { s.cancelRuntime A with atSafeState := true }

/-- What `apply` does before its first suspension. -/
inductive Admission (L : Type) where
  | refused (o : CommandOutcome) (why : TripReason)
  /-- The driver raised `TypeError`. -/
  | raised
  /-- The driver call starts, with the level it will put on the hardware. -/
  | driving (level : L)

/-- The checks of `apply`, in their order. -/
def State.admission (A : Actuator L) (s : State L) (c : ActuatorCommand ι L) : Admission L :=
  if s.clockTrusted = false then .refused .rejectedClock .clockUntrusted
  else if c.isExpired s.wall then .refused .rejectedExpired .commandExpired
  else if s.latched then .refused .rejectedLatched .latched
  else match A.driver.effectiveLevel c.level with
    | none => .raised
    | some l => .driving l

/-- A call joins the ones in flight. -/
def State.startCall (who : Caller L) (s : State L) : State L :=
  { s with calls := s.calls ++ [⟨who, .pending⟩] }

/-- The `i`-th call leaves. -/
def State.dropCall (i : ℕ) (s : State L) : State L :=
  { s with calls := s.calls.eraseIdx i }

/-- What an admitted command passed. -/
theorem admit_driving {A : Actuator L} {s : State L} {c : ActuatorCommand ι L} {l : L}
    (h : s.admission A c = .driving l) :
    c.isExpired s.wall = false ∧ s.latched = false ∧ A.driver.effectiveLevel c.level = some l := by
  rw [State.admission] at h
  split at h
  · cases h
  · split at h
    · cases h
    · next hexp =>
        split at h
        · cases h
        · next hlat =>
            split at h
            · cases h
            · next heff => cases h; exact ⟨by simpa using hexp, by simpa using hlat, heff⟩

/-! ### Steps -/

/-- What the callers, the driver threads and the clock do. -/
inductive Action (ι L : Type) where
  | command (c : ActuatorCommand ι L)
  /-- The `i`-th call in flight writes the hardware. -/
  | write (i : ℕ)
  /-- The `i`-th call in flight fails, leaving the level as it was. -/
  | fail (i : ℕ)
  /-- The `i`-th call in flight returns. -/
  | complete (i : ℕ)
  | heartbeat
  /-- The watcher takes a beat that arrived before its deadline. -/
  | watchBeat
  | watchTimeout
  | watchReported
  | watchRetry
  /-- The watcher takes the beat that ends a trip. -/
  | watchResume
  | deadline
  | runtimeReported
  | runtimeRetry
  | clearLatch
  | tick (dt : ℚ)
  | setClock (wall : ℚ) (trusted : Bool)

/-- With a lock, only the first call in flight acts. -/
def Actuator.mayAct (A : Actuator L) (i : ℕ) : Bool := !A.driver.locked || i == 0

/-- `complete`, by caller and by what its call did. -/
def State.complete [DecidableEq L] (A : Actuator L) (i : ℕ) (s : State L) :
    Call L → Option (State L × List SafetyEvent)
  | ⟨_, .pending⟩ => none
  | ⟨.command l, .written⟩ => some ((s.dropCall i).noteLevel A l, [])
  | ⟨.command _, .raised⟩ => some (s.dropCall i, [])
  | ⟨.heartbeat, .written⟩ =>
      some ({ (s.dropCall i).markSafe A with watchTask := .tripped }, [⟨.heartbeatTimeout, true⟩])
  | ⟨.heartbeat, .raised⟩ =>
      some ({ s.dropCall i with watchTask := .tripping .reporting }, [⟨.heartbeatTimeout, false⟩])
  | ⟨.runtime, .written⟩ => some ((s.dropCall i).markSafe A, [⟨.maxRuntimeExceeded, true⟩])
  | ⟨.runtime, .raised⟩ =>
      some ({ s.dropCall i with runtimeTask := s.runtimeTask.map (·.to .reporting) },
        [⟨.maxRuntimeExceeded, false⟩])
  | ⟨.abandoned, _⟩ => some (s.dropCall i, [])

/-- One step, and the events it hands to the sink. -/
def State.step [DecidableEq L] (A : Actuator L) (s : State L) :
    Action ι L → Option (State L × List SafetyEvent)
  | .command c =>
      match s.admission A c with
      | .refused _ why => some (s, [⟨why, true⟩])
      | .raised => some (s, [])
      | .driving l => some (s.startCall (.command l), [])
  | .write i =>
      match s.calls[i]? with
      | some ⟨who, .pending⟩ =>
          if A.mayAct i then
            some ({ s with hardware := who.level A, calls := s.calls.set i ⟨who, .written⟩ }, [])
          else none
      | _ => none
  | .fail i =>
      match s.calls[i]? with
      | some ⟨who, .pending⟩ =>
          if A.mayAct i then some ({ s with calls := s.calls.set i ⟨who, .raised⟩ }, []) else none
      | _ => none
  | .complete i => s.calls[i]?.bind fun c => if A.mayAct i then s.complete A i c else none
  | .heartbeat => some ({ s with lastBeat := s.now, beat := true }, [])
  | .watchBeat =>
      if s.watchTask = .watching ∧ s.beat = true then some ({ s with beat := false }, []) else none
  | .watchTimeout =>
      if s.watchTask = .watching ∧ s.lastBeat + A.heartbeatTimeoutS ≤ s.now then
        some ({ s with heartbeatLost := true, watchTask := .tripping .driving }.startCall
          .heartbeat, [])
      else none
  | .watchReported =>
      if s.watchTask = .tripping .reporting then
        some ({ s with watchTask := .tripping (.backoff (s.now + retryBackoffS)) }, [])
      else none
  | .watchRetry =>
      match s.watchTask with
      | .tripping (.backoff u) =>
          if u ≤ s.now then
            some ({ s with watchTask := .tripping .driving }.startCall .heartbeat, [])
          else none
      | _ => none
  | .watchResume =>
      if s.watchTask = .tripped ∧ s.beat = true then
        some ({ s with beat := false, heartbeatLost := false, watchTask := .watching }, [])
      else none
  | .deadline =>
      match s.runtimeTask with
      | some (.sleeping d) =>
          if d ≤ s.now then
            some ({ s with latched := true, runtimeTask := some (.tripping d .driving) }.startCall
              .runtime, [])
          else none
      | _ => none
  | .runtimeReported =>
      match s.runtimeTask with
      | some (.tripping d .reporting) =>
          some ({ s with runtimeTask := some (.tripping d (.backoff (s.now + retryBackoffS))) }, [])
      | _ => none
  | .runtimeRetry =>
      match s.runtimeTask with
      | some (.tripping d (.backoff u)) =>
          if u ≤ s.now then
            some ({ s with runtimeTask := some (.tripping d .driving) }.startCall .runtime, [])
          else none
      | _ => none
  | .clearLatch => some ({ s with latched := false }, [⟨.latched, true⟩])
  | .tick dt => if 0 ≤ dt then some ({ s with now := s.now + dt }, []) else none
  | .setClock w t => some ({ s with wall := w, clockTrusted := t }, [])

/-- The supervisor of one actuator. -/
def supervisor [DecidableEq L] (ι : Type) (A : Actuator L) : Machine (State L) (Action ι L) where
  step := fun s a => (s.step A a).map Prod.fst

/-! ### What a step can do -/

/-- The watcher is inside `_drive_safe_with_retry`. -/
def WatchTask.inTrip : WatchTask → Bool
  | .tripping _ => true
  | _ => false

/-- The watcher is inside `driver.drive_safe`. -/
def WatchTask.driving : WatchTask → Bool
  | .tripping .driving => true
  | _ => false

/-- The host clock after a step. -/
def State.wallAfter (s : State L) : Action ι L → ℚ
  | .setClock w _ => w
  | _ => s.wall

/-- Every step, with what it changes.  `quiet` is a step that leaves the level, the calls, the
latch, the runtime bookkeeping and the watcher's trip alone. -/
inductive Moves [DecidableEq L] (A : Actuator L) (s : State L) : Action ι L → State L → Prop where
  | refused {c : ActuatorCommand ι L} {o : CommandOutcome} {why : TripReason}
      (h : s.admission A c = .refused o why) : Moves A s (.command c) s
  | typeError {c : ActuatorCommand ι L} (h : s.admission A c = .raised) : Moves A s (.command c) s
  | command {c : ActuatorCommand ι L} {l : L} (h : s.admission A c = .driving l) :
      Moves A s (.command c) (s.startCall (.command l))
  | write {i : ℕ} {who : Caller L} (hc : s.calls[i]? = some ⟨who, .pending⟩)
      (hm : A.mayAct i = true) :
      Moves A s (.write i)
        { s with hardware := who.level A, calls := s.calls.set i ⟨who, .written⟩ }
  | fail {i : ℕ} {who : Caller L} (hc : s.calls[i]? = some ⟨who, .pending⟩)
      (hm : A.mayAct i = true) :
      Moves A s (.fail i) { s with calls := s.calls.set i ⟨who, .raised⟩ }
  | commandDone {i : ℕ} {l : L} (hc : s.calls[i]? = some ⟨.command l, .written⟩)
      (hm : A.mayAct i = true) : Moves A s (.complete i) ((s.dropCall i).noteLevel A l)
  | commandFailed {i : ℕ} {l : L} (hc : s.calls[i]? = some ⟨.command l, .raised⟩)
      (hm : A.mayAct i = true) : Moves A s (.complete i) (s.dropCall i)
  | heartbeatDone {i : ℕ} (hc : s.calls[i]? = some ⟨.heartbeat, .written⟩)
      (hm : A.mayAct i = true) :
      Moves A s (.complete i) { (s.dropCall i).markSafe A with watchTask := .tripped }
  | heartbeatFailed {i : ℕ} (hc : s.calls[i]? = some ⟨.heartbeat, .raised⟩)
      (hm : A.mayAct i = true) :
      Moves A s (.complete i) { s.dropCall i with watchTask := .tripping .reporting }
  | runtimeDone {i : ℕ} (hc : s.calls[i]? = some ⟨.runtime, .written⟩)
      (hm : A.mayAct i = true) : Moves A s (.complete i) ((s.dropCall i).markSafe A)
  | runtimeFailed {i : ℕ} (hc : s.calls[i]? = some ⟨.runtime, .raised⟩)
      (hm : A.mayAct i = true) :
      Moves A s (.complete i)
        { s.dropCall i with runtimeTask := s.runtimeTask.map (·.to .reporting) }
  | abandonedDone {i : ℕ} {p : Phase} (hc : s.calls[i]? = some ⟨.abandoned, p⟩)
      (hp : p ≠ .pending) (hm : A.mayAct i = true) : Moves A s (.complete i) (s.dropCall i)
  | watchDrive {a : Action ι L} {lost : Bool}
      (ha : a = .watchTimeout ∧ s.watchTask = .watching ∨ a = .watchRetry ∧
        ∃ u, s.watchTask = .tripping (.backoff u)) :
      Moves A s a
        ({ s with heartbeatLost := lost, watchTask := .tripping .driving }.startCall .heartbeat)
  | deadline {d : ℚ} (ht : s.runtimeTask = some (.sleeping d)) (hd : d ≤ s.now) :
      Moves A s .deadline
        ({ s with latched := true, runtimeTask := some (.tripping d .driving) }.startCall .runtime)
  | runtimeReported {d : ℚ} (ht : s.runtimeTask = some (.tripping d .reporting)) :
      Moves A s .runtimeReported
        { s with runtimeTask := some (.tripping d (.backoff (s.now + retryBackoffS))) }
  | runtimeRetry {d u : ℚ} (ht : s.runtimeTask = some (.tripping d (.backoff u))) :
      Moves A s .runtimeRetry
        ({ s with runtimeTask := some (.tripping d .driving) }.startCall .runtime)
  | clearLatch : Moves A s .clearLatch { s with latched := false }
  | quiet {a : Action ι L} {s' : State L}
      (ha : a ≠ .clearLatch ∧ a ≠ .deadline ∧ (∀ i, a ≠ .complete i) ∧ (∀ i, a ≠ .write i))
      (hc : s'.calls = s.calls) (hh : s'.hardware = s.hardware) (hl : s'.latched = s.latched)
      (hs : s'.atSafeState = s.atSafeState) (hr : s'.runtimeTask = s.runtimeTask)
      (hw : s'.watchTask.inTrip = s.watchTask.inTrip)
      (hd : s'.watchTask.driving = s.watchTask.driving) (hk : s'.wall = s.wallAfter a) :
      Moves A s a s'

variable [DecidableEq L] {A : Actuator L} {s s' : State L} {a : Action ι L}

theorem supervisor_step :
    (supervisor ι A).step s a = some s' ↔ ∃ es, s.step A a = some (s', es) := by
  simp [supervisor]

/-- **Inversion.** -/
private theorem complete_moves {i : ℕ} {c : Call L} {es : List SafetyEvent}
    (hc : s.calls[i]? = some c) (hm : A.mayAct i = true) (h : s.complete A i c = some (s', es)) :
    Moves (ι := ι) A s (.complete i) s' := by
  obtain ⟨who, p⟩ := c
  cases who with
  | command l =>
      cases p with
      | pending => cases h
      | written => cases h; exact .commandDone hc hm
      | raised => cases h; exact .commandFailed hc hm
  | heartbeat =>
      cases p with
      | pending => cases h
      | written => cases h; exact .heartbeatDone hc hm
      | raised => cases h; exact .heartbeatFailed hc hm
  | runtime =>
      cases p with
      | pending => cases h
      | written => cases h; exact .runtimeDone hc hm
      | raised => cases h; exact .runtimeFailed hc hm
  | abandoned =>
      cases p with
      | pending => cases h
      | written => cases h; exact .abandonedDone hc (by simp) hm
      | raised => cases h; exact .abandonedDone hc (by simp) hm

/-- **Inversion.**  A step is one of `Moves`. -/
theorem step_moves (h : (supervisor ι A).step s a = some s') : Moves A s a s' := by
  obtain ⟨es, h⟩ := supervisor_step.mp h
  cases a with
  | command c =>
      simp only [State.step] at h
      split at h
      · cases h; exact .refused ‹_›
      · cases h; exact .typeError ‹_›
      · cases h; exact .command ‹_›
  | write i =>
      simp only [State.step] at h
      split at h
      · split at h
        · cases h; exact .write ‹_› ‹_›
        · cases h
      · cases h
  | fail i =>
      simp only [State.step] at h
      split at h
      · split at h
        · cases h; exact .fail ‹_› ‹_›
        · cases h
      · cases h
  | complete i =>
      simp only [State.step, Option.bind_eq_some_iff] at h
      obtain ⟨c, hc, h⟩ := h
      split at h
      · exact complete_moves hc ‹_› h
      · cases h
  | heartbeat => cases h; exact .quiet (by simp) rfl rfl rfl rfl rfl rfl rfl rfl
  | watchBeat =>
      simp only [State.step] at h
      split at h
      · cases h; exact .quiet (by simp) rfl rfl rfl rfl rfl rfl rfl rfl
      · cases h
  | watchTimeout =>
      simp only [State.step] at h
      split at h
      · next hw => cases h; exact .watchDrive (.inl ⟨rfl, hw.1⟩)
      · cases h
  | watchReported =>
      simp only [State.step] at h
      split at h
      · next hw =>
          cases h
          exact .quiet (by simp) rfl rfl rfl rfl rfl (by rw [hw]; rfl) (by rw [hw]; rfl) rfl
      · cases h
  | watchRetry =>
      simp only [State.step] at h
      split at h
      · next u hw =>
          split at h
          · cases h; exact .watchDrive (.inr ⟨rfl, u, hw⟩)
          · cases h
      · cases h
  | watchResume =>
      simp only [State.step] at h
      split at h
      · next hw =>
          cases h
          exact .quiet (by simp) rfl rfl rfl rfl rfl (by rw [hw.1]; rfl) (by rw [hw.1]; rfl) rfl
      · cases h
  | deadline =>
      simp only [State.step] at h
      split at h
      · split at h
        · cases h; exact .deadline ‹_› ‹_›
        · cases h
      · cases h
  | runtimeReported =>
      simp only [State.step] at h
      split at h
      · cases h; exact .runtimeReported ‹_›
      · cases h
  | runtimeRetry =>
      simp only [State.step] at h
      split at h
      · split at h
        · cases h; exact .runtimeRetry ‹_›
        · cases h
      · cases h
  | clearLatch => cases h; exact .clearLatch
  | tick dt =>
      simp only [State.step] at h
      split at h
      · cases h; exact .quiet (by simp) rfl rfl rfl rfl rfl rfl rfl rfl
      · cases h
  | setClock w t => cases h; exact .quiet (by simp) rfl rfl rfl rfl rfl rfl rfl rfl

theorem wall_noteLevel (A : Actuator L) (l : L) (s : State L) : (s.noteLevel A l).wall = s.wall := by
  rw [State.noteLevel]
  split
  · rfl
  · split <;> rfl

/-- A step reads the clock that it says. -/
theorem wall_step (hm : Moves A s a s') : s'.wall = s.wallAfter a := by
  cases hm with
  | commandDone => exact wall_noteLevel ..
  | watchDrive ha => rcases ha with ⟨rfl, -⟩ | ⟨rfl, -⟩ <;> rfl
  | quiet _ _ _ _ _ _ _ _ hk => exact hk
  | _ => rfl

end BellasReef.HardwareIO
