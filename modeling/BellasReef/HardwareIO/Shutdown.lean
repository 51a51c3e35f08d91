import BellasReef.HardwareIO.Supervisor
import BellasReef.Support.Lists
import Mathlib.Data.List.InsertIdx

/-!
# HardwareIO — Shutdown

`InterlockSupervisor.stop` (`safety.py`) and `HardwareIO.shutdown` (`app.py`), from the state that
the supervisor is in when the main loop has ended: no command is in flight, and none can start.

`stop` goes through the guards one after the other.  It cancels both tasks of a guard, waits until
they have unwound, drives the guard itself and hands the event to the sink; the tasks of the guards
that it has not come to go on meanwhile, and so do the driver calls that an earlier cancellation
left behind.  `_running` is false all along: a watcher ends where its loop comes round, and a trip
that fails is not retried.  `shutdown` closes the spine behind it.

* `stopped`: what holds of every guard in every state on the way.
* `stop_finishes`: whatever the drivers do, the stop can go on to its end.
-/

namespace BellasReef.HardwareIO
open BellasReef.Contracts BellasReef.Support

variable {κ L : Type}

/-! ### The guards -/

/-- Whose `drive_safe` a call is. -/
inductive Owner where
  | watch
  | runtime
  /-- A runtime task that `_mark_safe` had cancelled. -/
  | orphan
  | stop
  deriving DecidableEq, Repr

/-- One guard, once no command can reach it; a task is `none` where it has ended or is cancelled. -/
structure Guard (L : Type) where
  atSafeState : Bool
  latched : Bool
  heartbeatLost : Bool
  lastBeat : ℚ
  beat : Bool
  watchTask : Option WatchTask
  runtimeTask : Option RuntimeTask
  hardware : L
  calls : List (Owner × Phase)
  deriving DecidableEq

/-- The owner of a call that is no command's. -/
def Caller.owner : Caller L → Option Owner
  | .command _ => none
  | .heartbeat => some .watch
  | .runtime => some .runtime
  | .abandoned => some .orphan

/-- No command is in flight. -/
def State.Uncommanded (s : State L) : Prop := ∀ c ∈ s.calls, c.caller.owner.isSome = true

/-- The guard of a supervised actuator. -/
def State.guard (s : State L) (h : s.Uncommanded) : Guard L where
  atSafeState := s.atSafeState
  latched := s.latched
  heartbeatLost := s.heartbeatLost
  lastBeat := s.lastBeat
  beat := s.beat
  watchTask := some s.watchTask
  runtimeTask := s.runtimeTask
  hardware := s.hardware
  calls := s.calls.attach.map fun c => (c.1.caller.owner.get (h c.1 c.2), c.1.phase)

namespace Guard

/-- A driver call is handed to its thread. -/
def startCall (o : Owner) (g : Guard L) : Guard L := { g with calls := g.calls ++ [(o, .pending)] }

/-- A call that is over. -/
def dropCall (i : ℕ) (g : Guard L) : Guard L := { g with calls := g.calls.eraseIdx i }

/-- `runtime_task.cancel()`, in `_mark_safe`. -/
def cancelRuntime (A : Actuator L) (g : Guard L) : Guard L :=
  { g with
    runtimeTask := none
    calls :=
      if A.driver.locked then g.calls.filter fun c => !(c.1 matches .runtime)
      else g.calls.map fun c => if c.1 matches .runtime then (.orphan, c.2) else c }

/-- `_mark_safe`; a task that `stop` has cancelled is no longer the guard's. -/
def markSafe (A : Actuator L) (g : Guard L) : Guard L :=
  if g.runtimeTask.isSome then { g.cancelRuntime A with atSafeState := true }
  else { g with atSafeState := true }

/-- Both tasks are cancelled. -/
def cancelTasks (g : Guard L) : Guard L := { g with watchTask := none, runtimeTask := none }

/-- The task that awaits the call has been cancelled by `stop`. -/
def cancelled (g : Guard L) : Owner → Bool
  | .watch => g.watchTask.isNone
  | .runtime => g.runtimeTask.isNone
  | .orphan | .stop => false

/-- The `gather` over both tasks is over. -/
def unwound (g : Guard L) : Bool := g.calls.all fun c => c.1 matches .orphan | .stop

/-- What follows a call of the guard's own tasks, and the event it hands to the sink. -/
def complete (A : Actuator L) (i : ℕ) (g : Guard L) :
    Owner → Phase → Option (Guard L × Option SafetyEvent)
  | _, .pending | .stop, _ => none
  | .orphan, _ => some (g.dropCall i, none)
  | .watch, p =>
      if g.watchTask.isNone then some (g.dropCall i, none)
      else if p = .written then
        some ({ (g.dropCall i).markSafe A with watchTask := some .tripped },
          some ⟨.heartbeatTimeout, true⟩)
      else
        some ({ g.dropCall i with watchTask := some (.tripping .reporting) },
          some ⟨.heartbeatTimeout, false⟩)
  | .runtime, p =>
      if g.runtimeTask.isNone then some (g.dropCall i, none)
      else if p = .written then
        some ((g.dropCall i).markSafe A, some ⟨.maxRuntimeExceeded, true⟩)
      else
        some ({ g.dropCall i with runtimeTask := g.runtimeTask.map (·.to .reporting) },
          some ⟨.maxRuntimeExceeded, false⟩)

end Guard

/-! ### The steps -/

/-- What one guard's tasks and threads do. -/
inductive TaskAction where
  | write (i : ℕ)
  | fail (i : ℕ)
  /-- The `i`-th call returns to the task that awaits it. -/
  | complete (i : ℕ)
  /-- A cancelled task leaves the queue for the driver. -/
  | leave (i : ℕ)
  /-- The watcher takes a beat, and its loop comes round. -/
  | watchBeat
  /-- Its deadline passes, and its loop comes round before it trips. -/
  | watchTimeout
  | watchReported
  | watchRetry
  /-- The watcher takes the beat that ends a trip, and its loop comes round. -/
  | watchResume
  | deadline
  | runtimeReported
  | runtimeRetry
  deriving DecidableEq

/-- One of these steps, and the event it hands to the sink. -/
def Guard.step (A : Actuator L) (now : ℚ) (g : Guard L) :
    TaskAction → Option (Guard L × Option SafetyEvent)
  | .write i =>
      match g.calls[i]? with
      | some (o, .pending) =>
          if A.mayAct i then
            some ({ g with hardware := A.driver.driveSafe, calls := g.calls.set i (o, .written) }, none)
          else none
      | _ => none
  | .fail i =>
      match g.calls[i]? with
      | some (o, .pending) =>
          if A.mayAct i then some ({ g with calls := g.calls.set i (o, .raised) }, none) else none
      | _ => none
  | .complete i =>
      match g.calls[i]? with
      | some (o, p) => if A.mayAct i then g.complete A i o p else none
      | none => none
  | .leave i =>
      match g.calls[i]? with
      | some (o, .pending) => if g.cancelled o then some (g.dropCall i, none) else none
      | _ => none
  | .watchBeat =>
      if g.watchTask = some .watching ∧ g.beat = true then
        some ({ g with beat := false, watchTask := none }, none)
      else none
  | .watchTimeout =>
      if g.watchTask = some .watching ∧ g.lastBeat + A.heartbeatTimeoutS ≤ now then
        some ({ g with watchTask := none }, none)
      else none
  | .watchReported =>
      if g.watchTask = some (.tripping .reporting) then
        some ({ g with watchTask := some .tripped }, none)
      else none
  | .watchRetry =>
      match g.watchTask with
      | some (.tripping (.backoff u)) =>
          if u ≤ now then
            some ({ g with watchTask := some (.tripping .driving) }.startCall .watch, none)
          else none
      | _ => none
  | .watchResume =>
      if g.watchTask = some .tripped ∧ g.beat = true then
        some ({ g with beat := false, heartbeatLost := false, watchTask := none }, none)
      else none
  | .deadline =>
      match g.runtimeTask with
      | some (.sleeping d) =>
          if d ≤ now then
            some ({ g with latched := true, runtimeTask := some (.tripping d .driving) }.startCall
              .runtime, none)
          else none
      | _ => none
  | .runtimeReported =>
      match g.runtimeTask with
      | some (.tripping _ .reporting) => some ({ g with runtimeTask := none }, none)
      | _ => none
  | .runtimeRetry =>
      match g.runtimeTask with
      | some (.tripping d (.backoff u)) =>
          if u ≤ now then
            some ({ g with runtimeTask := some (.tripping d .driving) }.startCall .runtime, none)
          else none
      | _ => none

/-- Where `stop` is. -/
inductive StopStage (κ : Type) where
  /-- Awaiting the tasks of a guard that it has cancelled. -/
  | gathering (k : κ)
  | driving (k : κ)
  /-- Awaiting the sink, with what the drive came to. -/
  | reporting (k : κ) (reached : Bool)
  | finished
  /-- The spine is closed. -/
  | closed
  deriving DecidableEq

/-- What the sink is handed, and the spine's end. -/
inductive StopNote (κ : Type) where
  | event (k : κ) (e : SafetyEvent)
  | closed
  deriving DecidableEq

/-- The guards, and where `stop` is. -/
structure Stopping (κ L : Type) where
  guards : κ → Guard L
  stage : StopStage κ
  /-- The guards that it has not come to. -/
  todo : List κ
  failures : List κ
  /-- The newest first. -/
  notes : List (StopNote κ)
  now : ℚ

/-- What the tasks, the driver calls and `stop` do. -/
inductive StopAction (κ : Type) where
  | task (k : κ) (a : TaskAction)
  | heartbeat
  | tick (dt : ℚ)
  /-- The tasks have unwound: `stop` drives the guard. -/
  | gathered
  /-- The driver returns to `stop`. -/
  | driven (i : ℕ)
  /-- The sink returns to `stop`. -/
  | reported
  | close

section Steps
variable [DecidableEq κ]

/-- `stop` comes to the next guard. -/
def Stopping.advance (s : Stopping κ L) : Stopping κ L :=
  match s.todo with
  | [] => { s with stage := .finished }
  | k :: rest =>
      { s with
        guards := Function.update s.guards k (s.guards k).cancelTasks
        stage := .gathering k
        todo := rest }

/-- `stop` begins, at the guards in their order. -/
def Stopping.begin (ids : List κ) (guards : κ → Guard L) (now : ℚ) : Stopping κ L :=
  Stopping.advance ⟨guards, .finished, ids, [], [], now⟩

/-- One step of one of them. -/
def Stopping.step (A : κ → Actuator L) (s : Stopping κ L) : StopAction κ → Option (Stopping κ L)
  | .task k a =>
      ((s.guards k).step (A k) s.now a).map fun (g, e) =>
        { s with
          guards := Function.update s.guards k g
          notes := (e.map (.event k)).toList ++ s.notes }
  | .heartbeat =>
      some { s with guards := fun k => { s.guards k with lastBeat := s.now, beat := true } }
  | .tick dt => if 0 ≤ dt then some { s with now := s.now + dt } else none
  | .gathered =>
      match s.stage with
      | .gathering k =>
          if (s.guards k).unwound then
            some { s with
              guards := Function.update s.guards k ((s.guards k).startCall .stop)
              stage := .driving k }
          else none
      | _ => none
  | .driven i =>
      match s.stage with
      | .driving k =>
          match (s.guards k).calls[i]? with
          | some (.stop, .written) =>
              if (A k).mayAct i then
                some { s with
                  guards := Function.update s.guards k (((s.guards k).dropCall i).markSafe (A k))
                  stage := .reporting k true
                  notes := .event k ⟨.shutdown, true⟩ :: s.notes }
              else none
          | some (.stop, .raised) =>
              if (A k).mayAct i then
                some { s with
                  guards := Function.update s.guards k ((s.guards k).dropCall i)
                  stage := .reporting k false
                  notes := .event k ⟨.shutdown, false⟩ :: s.notes }
              else none
          | _ => none
      | _ => none
  | .reported =>
      match s.stage with
      | .reporting k reached =>
          some (Stopping.advance { s with
            failures := if reached then s.failures else s.failures ++ [k] })
      | _ => none
  | .close =>
      match s.stage with
      | .finished => some { s with stage := .closed, notes := .closed :: s.notes }
      | _ => none

/-- `stop`, with everything that goes on meanwhile. -/
def stopping (A : κ → Actuator L) : Machine (Stopping κ L) (StopAction κ) := ⟨Stopping.step A⟩

end Steps

/-! ### What is to be shown -/

/-- The shutdown events, the newest first, with what each says. -/
def shutdowns (notes : List (StopNote κ)) : List (κ × Bool) :=
  notes.filterMap fun
    | .event k ⟨.shutdown, reached⟩ => some (k, reached)
    | _ => none

/-- The guards that `stop` reported and could not drive. -/
def failed (notes : List (StopNote κ)) : List κ :=
  ((shutdowns notes).reverse.filter fun e => !e.2).map Prod.fst

/-- `stop` has returned. -/
def StopStage.over : StopStage κ → Bool
  | .finished | .closed => true
  | _ => false

/-- What holds on the way, and at its end. -/
structure Stopped (A : κ → Actuator L) (ids : List κ) (s : Stopping κ L) : Prop where
  /-- One event for each guard, in their order, and for all of them at the end. -/
  inOrder : ∃ left, (shutdowns s.notes).reverse.map Prod.fst ++ left = ids ∧
    (s.stage.over = true → left = [])
  /-- While `stop` drives a guard, none of the guard's tasks does. -/
  alone : ∀ k, s.stage = .driving k → ∀ c ∈ (s.guards k).calls, c.1 = .orphan ∨ c.1 = .stop
  /-- It has driven its guard, once, and no task of the guard's ever will again. -/
  left : ∀ k reached, (k, reached) ∈ shutdowns s.notes →
    (s.guards k).watchTask = none ∧ (s.guards k).runtimeTask = none ∧
      ∀ c ∈ (s.guards k).calls, c.1 = .orphan
  /-- A guard that it reports safe is dark, and stays so. -/
  dark : ∀ k, (k, true) ∈ shutdowns s.notes → (s.guards k).hardware = (A k).safeState
  /-- The others are the failures that it raises. -/
  failed : s.stage.over = true → s.failures = failed s.notes
  /-- Nothing is handed to the sink behind the spine's end. -/
  lastWord : s.stage = .closed → s.notes.head? = some .closed

/-- How far `stop` is with a guard. -/
inductive Part where
  | waiting
  | gathering
  | driving
  | passed
  deriving DecidableEq, Repr

/-- Both tasks have ended or are cancelled. -/
def Guard.Settled (g : Guard L) : Prop := g.watchTask = none ∧ g.runtimeTask = none

/-- What a guard is like at each part. -/
def Guard.Fits (A : Actuator L) (g : Guard L) : Part → Prop
  | .waiting => ∀ c ∈ g.calls, c.1 ≠ .stop
  | .gathering => g.Settled ∧ ∀ c ∈ g.calls, c.1 ≠ .stop
  | .driving => g.Settled ∧ (∀ c ∈ g.calls, c.1 = .orphan ∨ c.1 = .stop) ∧
      (g.calls.map Prod.fst).count .stop = 1 ∧
      ((.stop, .written) ∈ g.calls → g.hardware = A.safeState)
  | .passed => g.Settled ∧ ∀ c ∈ g.calls, c.1 = .orphan

section Invariant
variable [DecidableEq κ]

/-- How far `stop` is with a guard. -/
def Stopping.part (s : Stopping κ L) (k : κ) : Part :=
  if k ∈ s.todo then .waiting
  else match s.stage with
    | .gathering j => if k = j then .gathering else .passed
    | .driving j => if k = j then .driving else .passed
    | .reporting _ _ | .finished | .closed => .passed

/-- The guards without a shutdown event. -/
def Stopping.remaining (s : Stopping κ L) : List κ :=
  match s.stage with
  | .gathering k | .driving k => k :: s.todo
  | .reporting _ _ | .finished | .closed => s.todo

/-- A failure whose report is with the sink. -/
def StopStage.failing : StopStage κ → List κ
  | .reporting k false => [k]
  | _ => []

/-- What holds while `stop` goes through the guards. -/
structure Leaving (A : κ → Actuator L) (ids : List κ) (s : Stopping κ L) : Prop where
  fits : ∀ k, (s.guards k).Fits (A k) (s.part k)
  dark : ∀ k, (k, true) ∈ shutdowns s.notes → (s.guards k).hardware = (A k).safeState
  order : (shutdowns s.notes).reverse.map Prod.fst ++ s.remaining = ids
  emptied : s.stage.over = true → s.todo = []
  failures : s.failures ++ s.stage.failing = failed s.notes
  lastWord : s.stage = .closed → s.notes.head? = some .closed

end Invariant

/-! ### What a task can do -/

/-- Every step of a guard's tasks and threads, with what it changes. -/
inductive TaskMoves (A : Actuator L) (g : Guard L) : Guard L → Option SafetyEvent → Prop where
  | acts {i : ℕ} {o : Owner} {p p' : Phase} {hardware : L} (hc : g.calls[i]? = some (o, p))
      (hh : hardware = A.safeState ∨ hardware = g.hardware ∧ p' ≠ .written) :
      TaskMoves A g { g with hardware := hardware, calls := g.calls.set i (o, p') } none
  | drops {i : ℕ} {o : Owner} {p : Phase} (hc : g.calls[i]? = some (o, p)) (ho : o ≠ .stop) :
      TaskMoves A g (g.dropCall i) none
  | trips {g' : Guard L} {e : Option SafetyEvent} (halive : ¬ g.Settled)
      (hstop : (∀ c ∈ g.calls, c.1 ≠ .stop) → ∀ c ∈ g'.calls, c.1 ≠ .stop)
      (hh : g'.hardware = g.hardware) (he : ∀ ev, e = some ev → ev.reason ≠ .shutdown) :
      TaskMoves A g g' e
  | quiet {g' : Guard L} (hc : g'.calls = g.calls) (hh : g'.hardware = g.hardware)
      (hs : g.Settled → g'.Settled) : TaskMoves A g g' none

section Tasks
variable {A : Actuator L} {g g' : Guard L} {e : Option SafetyEvent} {now : ℚ} {part : Part}

theorem mem_dropCall {i : ℕ} {c : Owner × Phase} (h : c ∈ (g.dropCall i).calls) : c ∈ g.calls :=
  List.mem_of_mem_eraseIdx h

/-- Whoever is cancelled in `_mark_safe`, `stop` is not. -/
theorem markSafe_stop (h : ∀ c ∈ g.calls, c.1 ≠ .stop) : ∀ c ∈ (g.markSafe A).calls, c.1 ≠ .stop := by
  intro c hc
  unfold Guard.markSafe Guard.cancelRuntime at hc
  split at hc
  · simp only at hc
    split at hc
    · exact h c (List.mem_filter.mp hc).1
    · obtain ⟨c', hc', rfl⟩ := List.mem_map.mp hc
      split
      · simp
      · exact h c' hc'
  · exact h c hc

theorem markSafe_hardware : (g.markSafe A).hardware = g.hardware := by
  unfold Guard.markSafe
  split <;> rfl

/-- A guard that has settled has no task to cancel. -/
theorem markSafe_settled (h : g.Settled) : g.markSafe A = { g with atSafeState := true } := by
  rw [Guard.markSafe, h.2]
  rfl

theorem not_settled_of_watch {w : WatchTask} (h : g.watchTask = some w) : ¬ g.Settled := by
  rintro ⟨hn, -⟩
  rw [h] at hn
  cases hn

theorem not_settled_of_runtime {r : RuntimeTask} (h : g.runtimeTask = some r) : ¬ g.Settled := by
  rintro ⟨-, hn⟩
  rw [h] at hn
  cases hn

/-- **Inversion.** -/
theorem complete_moves_task {i : ℕ} {o : Owner} {p : Phase} (hc : g.calls[i]? = some (o, p))
    (h : g.complete A i o p = some (g', e)) : TaskMoves A g g' e := by
  have hdrop : (∀ c ∈ g.calls, c.1 ≠ .stop) → ∀ c ∈ (g.dropCall i).calls, c.1 ≠ .stop :=
    fun hn c hm => hn c (mem_dropCall hm)
  cases p with
  | pending => cases o <;> cases h
  | _ =>
    cases o with
    | stop => cases h
    | orphan => cases h; exact .drops hc (by simp)
    | watch =>
        simp only [Guard.complete] at h
        split at h
        · cases h; exact .drops hc (by simp)
        · next hw =>
            obtain ⟨w, hw⟩ := Option.ne_none_iff_exists'.mp (by simpa using hw)
            split at h
            · cases h
              exact .trips (not_settled_of_watch hw) (fun hn => markSafe_stop (hdrop hn))
                markSafe_hardware (by rintro _ ⟨⟩; simp)
            · cases h
              exact .trips (not_settled_of_watch hw) hdrop rfl (by rintro _ ⟨⟩; simp)
    | runtime =>
        simp only [Guard.complete] at h
        split at h
        · cases h; exact .drops hc (by simp)
        · next hr =>
            obtain ⟨r, hr⟩ := Option.ne_none_iff_exists'.mp (by simpa using hr)
            split at h
            · cases h
              exact .trips (not_settled_of_runtime hr) (fun hn => markSafe_stop (hdrop hn))
                markSafe_hardware (by rintro _ ⟨⟩; simp)
            · cases h
              exact .trips (not_settled_of_runtime hr) hdrop rfl (by rintro _ ⟨⟩; simp)

/-- A task that starts to drive is the watcher or the runtime task. -/
theorem startCall_stop {o : Owner} (ho : o ≠ .stop) (h : ∀ c ∈ g.calls, c.1 ≠ .stop) :
    ∀ c ∈ (g.startCall o).calls, c.1 ≠ .stop := by
  intro c hc
  obtain hc | hc := List.mem_append.mp hc
  · exact h c hc
  · rw [List.mem_singleton.mp hc]
    exact ho

/-- **Inversion** of a step of a guard. -/
theorem task_moves {a : TaskAction} (h : g.step A now a = some (g', e)) : TaskMoves A g g' e := by
  cases a with
  | write i =>
      simp only [Guard.step] at h
      split at h
      · next hc =>
          split at h
          · cases h; exact .acts hc (.inl A.drives_safe)
          · cases h
      · cases h
  | fail i =>
      simp only [Guard.step] at h
      split at h
      · next hc =>
          split at h
          · cases h; exact .acts hc (.inr ⟨rfl, by simp⟩)
          · cases h
      · cases h
  | complete i =>
      simp only [Guard.step] at h
      split at h
      · next hc =>
          split at h
          · exact complete_moves_task hc h
          · cases h
      · cases h
  | leave i =>
      simp only [Guard.step] at h
      split at h
      · next o hc =>
          split at h
          · next hcan =>
              cases h
              refine .drops hc ?_
              rintro rfl
              cases hcan
          · cases h
      · cases h
  | watchBeat =>
      simp only [Guard.step] at h
      split at h
      · cases h; exact .quiet rfl rfl (fun hs => ⟨rfl, hs.2⟩)
      · cases h
  | watchTimeout =>
      simp only [Guard.step] at h
      split at h
      · cases h; exact .quiet rfl rfl (fun hs => ⟨rfl, hs.2⟩)
      · cases h
  | watchReported =>
      simp only [Guard.step] at h
      split at h
      · next hw => cases h; exact .quiet rfl rfl (fun hs => absurd hs (not_settled_of_watch hw))
      · cases h
  | watchRetry =>
      simp only [Guard.step] at h
      split at h
      · next hw =>
          split at h
          · cases h
            exact .trips (not_settled_of_watch hw) (startCall_stop (by simp)) rfl (by simp)
          · cases h
      · cases h
  | watchResume =>
      simp only [Guard.step] at h
      split at h
      · cases h; exact .quiet rfl rfl (fun hs => ⟨rfl, hs.2⟩)
      · cases h
  | deadline =>
      simp only [Guard.step] at h
      split at h
      · next hr =>
          split at h
          · cases h
            exact .trips (not_settled_of_runtime hr) (startCall_stop (by simp)) rfl (by simp)
          · cases h
      · cases h
  | runtimeReported =>
      simp only [Guard.step] at h
      split at h
      · cases h; exact .quiet rfl rfl (fun hs => ⟨hs.1, rfl⟩)
      · cases h
  | runtimeRetry =>
      simp only [Guard.step] at h
      split at h
      · next hr =>
          split at h
          · cases h
            exact .trips (not_settled_of_runtime hr) (startCall_stop (by simp)) rfl (by simp)
          · cases h
      · cases h

/-- What was dark stays dark. -/
theorem TaskMoves.dark (h : TaskMoves A g g' e) (hg : g.hardware = A.safeState) :
    g'.hardware = A.safeState := by
  cases h with
  | acts hc hh => exact hh.elim id fun hh => hh.1.trans hg
  | drops hc ho => exact hg
  | trips ha hs hh he => exact hh.trans hg
  | quiet hc hh hs => exact hh.trans hg

/-- A task tells of no shutdown. -/
theorem TaskMoves.reason (h : TaskMoves A g g' e) : ∀ ev, e = some ev → ev.reason ≠ .shutdown := by
  cases h with
  | trips ha hs hh he => exact he
  | _ => simp

/-- Where both tasks have ended, nothing is handed to the sink. -/
theorem TaskMoves.silent (h : TaskMoves A g g' e) (hs : g.Settled) : e = none := by
  cases h with
  | trips ha => exact absurd hs ha
  | _ => rfl

/-- The owners of the calls, where one changes its phase. -/
theorem owners_set {i : ℕ} {o : Owner} {p p' : Phase} (hc : g.calls[i]? = some (o, p)) :
    (g.calls.set i (o, p')).map Prod.fst = g.calls.map Prod.fst := by
  refine List.ext_getElem? fun j => ?_
  rw [List.map_set, List.getElem?_set]
  split
  · next hij =>
      subst hij
      obtain ⟨hi, -⟩ := List.getElem?_eq_some_iff.mp hc
      rw [if_pos (by simpa using hi), List.getElem?_map, hc]
      rfl
  · rfl

theorem owners_erase (i : ℕ) :
    (g.dropCall i).calls.map Prod.fst = (g.calls.map Prod.fst).eraseIdx i :=
  (List.eraseIdx_map Prod.fst g.calls i).symm

/-- A step of its tasks leaves a guard at the part it is at. -/
theorem TaskMoves.fits (h : TaskMoves A g g' e) (hf : g.Fits A part) : g'.Fits A part := by
  have hset : ∀ {P : Owner → Prop} {i : ℕ} {o : Owner} {p p' : Phase}, g.calls[i]? = some (o, p) →
      (∀ c ∈ g.calls, P c.1) → ∀ c ∈ g.calls.set i (o, p'), P c.1 := by
    intro P i o p p' hc hP c hm
    obtain hm | rfl := List.mem_or_eq_of_mem_set hm
    · exact hP c hm
    · exact hP (o, p) (List.mem_of_getElem? hc)
  cases h with
  | acts hc hh =>
      cases part with
      | waiting => exact hset (P := (· ≠ .stop)) hc hf
      | gathering => exact ⟨hf.1, hset (P := (· ≠ .stop)) hc hf.2⟩
      | passed => exact ⟨hf.1, hset (P := (· = .orphan)) hc hf.2⟩
      | driving =>
          obtain ⟨hs, howner, hone, hdark⟩ := hf
          refine ⟨hs, hset (P := fun o => o = .orphan ∨ o = .stop) hc howner, ?_, fun hm => ?_⟩
          · rw [owners_set hc]
            exact hone
          · obtain hh | ⟨hh, hp⟩ := hh
            · exact hh
            · refine hh.trans (hdark ?_)
              obtain hm | he := List.mem_or_eq_of_mem_set hm
              · exact hm
              · cases he
                exact absurd rfl hp
  | drops hc ho =>
      cases part with
      | waiting => exact fun c hm => hf c (mem_dropCall hm)
      | gathering => exact ⟨hf.1, fun c hm => hf.2 c (mem_dropCall hm)⟩
      | passed => exact ⟨hf.1, fun c hm => hf.2 c (mem_dropCall hm)⟩
      | driving =>
          obtain ⟨hs, howner, hone, hdark⟩ := hf
          refine ⟨hs, fun c hm => howner c (mem_dropCall hm), ?_, fun hm => hdark (mem_dropCall hm)⟩
          have hcount := count_eraseIdx (l := g.calls.map Prod.fst)
            (by rw [List.getElem?_map, hc]; rfl) .stop
          rw [owners_erase]
          rwa [if_neg ho, add_zero, hone] at hcount
  | trips ha hstop hh he =>
      cases part with
      | waiting => exact hstop hf
      | _ => exact absurd hf.1 ha
  | quiet hcalls hh hs =>
      cases part with
      | waiting => intro c hm; rw [hcalls] at hm; exact hf c hm
      | gathering => exact ⟨hs hf.1, by rw [hcalls]; exact hf.2⟩
      | passed => exact ⟨hs hf.1, by rw [hcalls]; exact hf.2⟩
      | driving => exact ⟨hs hf.1, by rw [hcalls, hh]; exact hf.2⟩

/-- A guard whose tasks are cancelled is gathering. -/
theorem Guard.Fits.cancelTasks (h : g.Fits A .waiting) : g.cancelTasks.Fits A .gathering :=
  ⟨⟨rfl, rfl⟩, h⟩

/-- The tasks have unwound, and `stop` drives the guard. -/
theorem Guard.Fits.startCall (h : g.Fits A .gathering) (hu : g.unwound = true) :
    (g.startCall .stop).Fits A .driving := by
  obtain ⟨hs, hno⟩ := h
  have horphan : ∀ c ∈ g.calls, c.1 = .orphan := by
    intro c hm
    have hc := List.all_eq_true.mp hu c hm
    have hn := hno c hm
    obtain ⟨o, p⟩ := c
    cases o <;> simp_all
  refine ⟨hs, fun c hm => ?_, ?_, fun hm => ?_⟩
  · obtain hm | hm := List.mem_append.mp hm
    · exact .inl (horphan c hm)
    · exact .inr (by rw [List.mem_singleton.mp hm])
  · change ((g.calls ++ [(Owner.stop, Phase.pending)]).map Prod.fst).count .stop = 1
    rw [List.map_append, List.count_append, List.count_eq_zero_of_not_mem]
    · rfl
    · intro hm
      obtain ⟨c, hm, hc⟩ := List.mem_map.mp hm
      rw [horphan c hm] at hc
      cases hc
  · obtain hm | hm := List.mem_append.mp hm
    · cases horphan _ hm
    · cases List.mem_singleton.mp hm

/-- Its own call has returned: only orphans are left. -/
theorem Guard.Fits.dropCall {i : ℕ} {p : Phase} (h : g.Fits A .driving)
    (hc : g.calls[i]? = some (.stop, p)) : (g.dropCall i).Fits A .passed := by
  obtain ⟨hs, howner, hone, -⟩ := h
  refine ⟨hs, fun c hm => (howner c (mem_dropCall hm)).resolve_right fun hstop => ?_⟩
  have hcount := count_eraseIdx (l := g.calls.map Prod.fst)
    (by rw [List.getElem?_map, hc]; rfl) Owner.stop
  rw [← owners_erase, if_pos rfl, hone] at hcount
  have hpos := List.count_pos_iff.mpr (hstop ▸ List.mem_map_of_mem (f := Prod.fst) hm)
  omega

end Tasks

/-! ### What a step can do -/

/-- Every step, with what it changes. -/
inductive StopMoves [DecidableEq κ] (A : κ → Actuator L) (s : Stopping κ L) : Stopping κ L → Prop where
  | task {k : κ} {g : Guard L} {e : Option SafetyEvent} (h : TaskMoves (A k) (s.guards k) g e) :
      StopMoves A s { s with
        guards := Function.update s.guards k g
        notes := (e.map (StopNote.event k)).toList ++ s.notes }
  | quiet {guards : κ → Guard L} {now : ℚ} (h : ∀ k, TaskMoves (A k) (s.guards k) (guards k) none) :
      StopMoves A s { s with guards := guards, now := now }
  | gathered {k : κ} (hs : s.stage = .gathering k) (hu : (s.guards k).unwound = true) :
      StopMoves A s { s with
        guards := Function.update s.guards k ((s.guards k).startCall .stop)
        stage := .driving k }
  | driven {k : κ} {i : ℕ} {p : Phase} {reached : Bool} {g : Guard L} (hs : s.stage = .driving k)
      (hc : (s.guards k).calls[i]? = some (.stop, p))
      (hg : ((s.guards k).dropCall i).Fits (A k) .passed → g.Fits (A k) .passed)
      (hh : g.hardware = (s.guards k).hardware) (hp : reached = true → p = .written) :
      StopMoves A s { s with
        guards := Function.update s.guards k g
        stage := .reporting k reached
        notes := .event k ⟨.shutdown, reached⟩ :: s.notes }
  | reported {k : κ} {reached : Bool} (hs : s.stage = .reporting k reached) :
      StopMoves A s (Stopping.advance { s with failures := s.failures ++ s.stage.failing })
  | closes (hs : s.stage = .finished) :
      StopMoves A s { s with stage := .closed, notes := .closed :: s.notes }

/-! ### What holds all along -/

theorem shutdowns_event {k : κ} {e : SafetyEvent} {notes : List (StopNote κ)}
    (he : e.reason ≠ .shutdown) : shutdowns (.event k e :: notes) = shutdowns notes := by
  obtain ⟨reason, reached⟩ := e
  cases reason <;> first | rfl | exact absurd rfl he

theorem shutdowns_task {k : κ} {e : Option SafetyEvent} {notes : List (StopNote κ)}
    (he : ∀ ev, e = some ev → ev.reason ≠ .shutdown) :
    shutdowns ((e.map (StopNote.event k)).toList ++ notes) = shutdowns notes := by
  cases e with
  | none => rfl
  | some ev => exact shutdowns_event (he ev rfl)

theorem failed_shutdown {k : κ} {reached : Bool} {notes : List (StopNote κ)} :
    failed (.event k ⟨.shutdown, reached⟩ :: notes) =
      failed notes ++ (StopStage.reporting k reached).failing := by
  change ((((k, reached) :: shutdowns notes).reverse.filter fun e => !e.2).map Prod.fst) = _
  rw [List.reverse_cons, List.filter_append, List.map_append]
  cases reached <;> rfl

section Run
variable [DecidableEq κ] {A : κ → Actuator L} {ids : List κ} {s s' : Stopping κ L}
  {a : StopAction κ}

/-- **Inversion.** -/
theorem stop_moves (h : (stopping A).step s a = some s') : StopMoves A s s' := by
  cases a with
  | task k a =>
      obtain ⟨⟨g, e⟩, hg, rfl⟩ := Option.map_eq_some_iff.mp h
      exact .task (task_moves hg)
  | heartbeat => cases h; exact .quiet fun k => .quiet rfl rfl id
  | tick dt =>
      simp only [stopping, Stopping.step] at h
      split at h
      · cases h; exact .quiet fun k => .quiet rfl rfl id
      · cases h
  | gathered =>
      simp only [stopping, Stopping.step] at h
      split at h
      · next hs =>
          split at h
          · next hu => cases h; exact .gathered hs hu
          · cases h
      · cases h
  | driven i =>
      simp only [stopping, Stopping.step] at h
      split at h
      · next k hs =>
          split at h
          · next hc =>
              split at h
              · cases h
                refine .driven hs hc (fun hf => ?_) markSafe_hardware (by simp)
                rw [markSafe_settled hf.1]
                exact hf
              · cases h
          · next hc =>
              split at h
              · cases h; exact .driven hs hc id rfl (by simp)
              · cases h
          · cases h
      · cases h
  | reported =>
      simp only [stopping, Stopping.step] at h
      split at h
      · next k reached hs =>
          cases h
          have hf : (if reached = true then s.failures else s.failures ++ [k]) =
              s.failures ++ s.stage.failing := by
            rw [hs]
            cases reached <;> simp [StopStage.failing]
          rw [hf]
          exact .reported hs
      · cases h
  | close =>
      simp only [stopping, Stopping.step] at h
      split at h
      · next hs => cases h; exact .closes hs
      · cases h

/-- A guard with a shutdown event is one that `stop` has passed. -/
theorem Leaving.passed (h : Leaving A ids s) (hids : ids.Nodup) {k : κ} {reached : Bool}
    (hk : (k, reached) ∈ shutdowns s.notes) : s.part k = .passed := by
  have hmem : k ∈ (shutdowns s.notes).reverse.map Prod.fst :=
    List.mem_map.mpr ⟨_, List.mem_reverse.mpr hk, rfl⟩
  have hnot : k ∉ s.remaining := by
    rw [← h.order] at hids
    exact fun hm => (List.nodup_append.mp hids).2.2 k hmem k hm rfl
  have htodo : k ∉ s.todo := by
    intro hm
    refine hnot ?_
    unfold Stopping.remaining
    split
    · exact List.mem_cons_of_mem _ hm
    · exact List.mem_cons_of_mem _ hm
    all_goals exact hm
  unfold Stopping.part
  rw [if_neg htodo]
  unfold Stopping.remaining at hnot
  split
  · next hs =>
      rw [hs] at hnot
      refine if_neg ?_
      rintro rfl
      exact hnot List.mem_cons_self
  · next hs =>
      rw [hs] at hnot
      refine if_neg ?_
      rintro rfl
      exact hnot List.mem_cons_self
  all_goals rfl

/-- The guard that `stop` is at is not one to come. -/
theorem Leaving.not_todo (h : Leaving A ids s) (hids : ids.Nodup) {k : κ}
    (hr : s.remaining = k :: s.todo) : k ∉ s.todo := by
  rw [← h.order, hr] at hids
  exact (List.nodup_cons.mp (List.nodup_append.mp hids).2.1).1

theorem Leaving.part_gathering (h : Leaving A ids s) (hids : ids.Nodup) {k : κ}
    (hs : s.stage = .gathering k) : s.part k = .gathering := by
  have hnot := h.not_todo hids (k := k) (by simp [Stopping.remaining, hs])
  simp [Stopping.part, hnot, hs]

theorem Leaving.part_driving (h : Leaving A ids s) (hids : ids.Nodup) {k : κ}
    (hs : s.stage = .driving k) : s.part k = .driving := by
  have hnot := h.not_todo hids (k := k) (by simp [Stopping.remaining, hs])
  simp [Stopping.part, hnot, hs]

/-- At the end every guard is settled. -/
theorem Leaving.settled (h : Leaving A ids s) (ho : s.stage.over = true) (k : κ) :
    (s.guards k).Settled := by
  have hf := h.fits k
  have hp : s.part k = .passed := by
    have ht := h.emptied ho
    cases hs : s.stage with
    | finished => simp [Stopping.part, ht, hs]
    | closed => simp [Stopping.part, ht, hs]
    | _ => rw [hs] at ho; cases ho
  rw [hp] at hf
  exact hf.1

/-- `stop` comes to the next guard, if there is one. -/
theorem leaving_advance (hids : ids.Nodup)
    (hfits : ∀ k, (s.guards k).Fits (A k) (if k ∈ s.todo then .waiting else .passed))
    (hdark : ∀ k, (k, true) ∈ shutdowns s.notes → (s.guards k).hardware = (A k).safeState)
    (horder : (shutdowns s.notes).reverse.map Prod.fst ++ s.todo = ids)
    (hfailures : s.failures = failed s.notes) : Leaving A ids s.advance := by
  unfold Stopping.advance
  split
  · next ht =>
      refine ⟨fun k => ?_, hdark, horder, fun _ => ht, ?_, by simp⟩
      · have hk := hfits k
        rw [ht] at hk
        simpa [Stopping.part, ht] using hk
      · change s.failures ++ [] = _
        rw [List.append_nil]
        exact hfailures
  · next k rest ht =>
      have hnot : k ∉ rest := by
        rw [← horder, ht] at hids
        exact (List.nodup_cons.mp (List.nodup_append.mp hids).2.1).1
      refine ⟨fun j => ?_, fun j hj => ?_, ?_, by simp [StopStage.over], ?_, by simp⟩
      · have hj := hfits j
        rw [ht] at hj
        by_cases hjk : j = k
        · subst hjk
          rw [if_pos List.mem_cons_self] at hj
          simpa [Stopping.part, hnot] using hj.cancelTasks
        · simpa [Stopping.part, Function.update_of_ne hjk, hjk] using hj
      · by_cases hjk : j = k
        · subst hjk
          simpa [Guard.cancelTasks] using hdark j hj
        · simpa [Function.update_of_ne hjk] using hdark j hj
      · simpa [Stopping.remaining, ht] using horder
      · change s.failures ++ [] = _
        rw [List.append_nil]
        exact hfailures

/-- **Step.**  A task goes on while `stop` is elsewhere. -/
theorem leaving_task {k : κ} {g : Guard L} {e : Option SafetyEvent} (h : Leaving A ids s)
    (hm : TaskMoves (A k) (s.guards k) g e) :
    Leaving A ids { s with
      guards := Function.update s.guards k g
      notes := (e.map (StopNote.event k)).toList ++ s.notes } := by
  have hsh : shutdowns ((e.map (StopNote.event k)).toList ++ s.notes) = shutdowns s.notes :=
    shutdowns_task hm.reason
  refine ⟨fun j => ?_, fun j hj => ?_, ?_, h.emptied, ?_, fun hc => ?_⟩
  · change (Function.update s.guards k g j).Fits (A j) (s.part j)
    by_cases hjk : j = k
    · subst hjk
      rw [Function.update_self]
      exact hm.fits (h.fits j)
    · rw [Function.update_of_ne hjk]
      exact h.fits j
  · rw [hsh] at hj
    by_cases hjk : j = k
    · subst hjk
      simpa using hm.dark (h.dark j hj)
    · simpa [Function.update_of_ne hjk] using h.dark j hj
  · rw [hsh]
    exact h.order
  · rw [failed, hsh]
    exact h.failures
  · have hc : s.stage = .closed := hc
    rw [hm.silent (h.settled (by rw [hc]; rfl) k)]
    exact h.lastWord hc

/-- **Step.**  `stop` has driven a guard. -/
theorem leaving_driven {k : κ} {i : ℕ} {p : Phase} {reached : Bool} {g : Guard L}
    (hids : ids.Nodup) (h : Leaving A ids s) (hs : s.stage = .driving k)
    (hc : (s.guards k).calls[i]? = some (.stop, p))
    (hg : ((s.guards k).dropCall i).Fits (A k) .passed → g.Fits (A k) .passed)
    (hh : g.hardware = (s.guards k).hardware) (hp : reached = true → p = .written) :
    Leaving A ids { s with
      guards := Function.update s.guards k g
      stage := .reporting k reached
      notes := .event k ⟨.shutdown, reached⟩ :: s.notes } := by
  have hf := h.fits k
  rw [h.part_driving hids hs] at hf
  refine ⟨fun j => ?_, fun j hj => ?_, ?_, by simp [StopStage.over], ?_, by simp⟩
  · by_cases hjk : j = k
    · subst hjk
      have hnot := h.not_todo hids (k := j) (by simp [Stopping.remaining, hs])
      simpa [Stopping.part, hnot] using hg (hf.dropCall hc)
    · simpa [Stopping.part, Function.update_of_ne hjk, hs, hjk] using h.fits j
  · change (j, true) ∈ (k, reached) :: shutdowns s.notes at hj
    obtain hnew | hold := List.mem_cons.mp hj
    · cases hnew
      obtain rfl := hp rfl
      simpa using hh.trans (hf.2.2.2 (List.mem_of_getElem? hc))
    · by_cases hjk : j = k
      · subst hjk
        simpa using hh.trans (h.dark j hold)
      · simpa [Function.update_of_ne hjk] using h.dark j hold
  · have ho := h.order
    rw [Stopping.remaining, hs] at ho
    rw [← ho]
    change ((k, reached) :: shutdowns s.notes).reverse.map Prod.fst ++ s.todo = _
    simp
  · have hfa := h.failures
    rw [hs] at hfa
    rw [failed_shutdown, ← hfa]
    simp [StopStage.failing]

/-- **Every step** leaves it so. -/
theorem leaving_step (hids : ids.Nodup) (h : Leaving A ids s) (hm : StopMoves A s s') :
    Leaving A ids s' := by
  cases hm with
  | task ht => exact leaving_task h ht
  | quiet hq =>
      refine ⟨fun k => (hq k).fits (h.fits k), fun k hk => (hq k).dark (h.dark k hk), h.order,
        h.emptied, h.failures, h.lastWord⟩
  | gathered hs hu =>
      rename_i k
      have hf := h.fits k
      rw [h.part_gathering hids hs] at hf
      refine ⟨fun j => ?_, fun j hj => ?_, ?_, by simp [StopStage.over], ?_, by simp⟩
      · by_cases hjk : j = k
        · subst hjk
          have hnot := h.not_todo hids (k := j) (by simp [Stopping.remaining, hs])
          simpa [Stopping.part, hnot] using hf.startCall hu
        · simpa [Stopping.part, Function.update_of_ne hjk, hs, hjk] using h.fits j
      · by_cases hjk : j = k
        · subst hjk
          simpa [Guard.startCall] using h.dark j hj
        · simpa [Function.update_of_ne hjk] using h.dark j hj
      · have ho := h.order
        rwa [Stopping.remaining, hs] at ho
      · have hfa := h.failures
        rwa [hs] at hfa
  | driven hs hc hg hh hp => exact leaving_driven hids h hs hc hg hh hp
  | reported hs =>
      refine leaving_advance hids (fun k => ?_) h.dark ?_ h.failures
      · have hf := h.fits k
        rwa [Stopping.part, hs] at hf
      · have ho := h.order
        rwa [Stopping.remaining, hs] at ho
  | closes hs =>
      refine ⟨fun k => ?_, h.dark, ?_, fun _ => h.emptied (by rw [hs]; rfl), ?_, fun _ => rfl⟩
      · have hf := h.fits k
        rwa [Stopping.part, hs] at hf
      · have ho := h.order
        rwa [Stopping.remaining, hs] at ho
      · have hfa := h.failures
        rwa [hs] at hfa

/-- A guard of a state without commands waits for `stop`. -/
theorem guard_waiting {s : State L} (h : s.Uncommanded) {B : Actuator L} :
    (s.guard h).Fits B .waiting := by
  intro c hc
  obtain ⟨c', -, rfl⟩ := List.mem_map.mp hc
  intro he
  have howner := Option.some_get (h c'.1 c'.2)
  change c'.1.caller.owner.get (h c'.1 c'.2) = .stop at he
  rw [he] at howner
  cases hcaller : c'.1.caller <;> rw [hcaller] at howner <;> cases howner

/-- **What holds on the way**, and at its end, from wherever the main loop left the actuators. -/
theorem leaving_run (hids : ids.Nodup) (hall : ∀ k, k ∈ ids) (states : κ → State L)
    (hs : ∀ k, (states k).Uncommanded) (now : ℚ) {as : List (StopAction κ)}
    (h : (stopping A).Run (.begin ids (fun k => (states k).guard (hs k)) now) as s) :
    Leaving A ids s := by
  refine h.invariant ?_ fun s a s' _ hi hstep => leaving_step hids hi (stop_moves hstep)
  refine leaving_advance hids (fun k => ?_) (by simp [shutdowns]) rfl rfl
  rw [if_pos (hall k)]
  exact guard_waiting (hs k)

/-- **Stopped.**  `stop` drives each guard once, in their order and without company, whatever the
guards' own tasks do and whatever fails; what it reports safe is dark from then on. -/
theorem stopped (hids : ids.Nodup) (hall : ∀ k, k ∈ ids) (states : κ → State L)
    (hs : ∀ k, (states k).Uncommanded) (now : ℚ) {as : List (StopAction κ)}
    (h : (stopping A).Run (.begin ids (fun k => (states k).guard (hs k)) now) as s) :
    Stopped A ids s := by
  have hi := leaving_run hids hall states hs now h
  refine ⟨⟨s.remaining, hi.order, fun ho => ?_⟩, fun k hk c hc => ?_, fun k reached hk => ?_, hi.dark,
    fun ho => ?_, hi.lastWord⟩
  · have ht := hi.emptied ho
    unfold Stopping.remaining
    split
    · next hst => rw [hst] at ho; cases ho
    · next hst => rw [hst] at ho; cases ho
    all_goals exact ht
  · have hf := hi.fits k
    rw [hi.part_driving hids hk] at hf
    exact hf.2.1 c hc
  · have hf := hi.fits k
    rw [hi.passed hids hk] at hf
    exact ⟨hf.1.1, hf.1.2, hf.2⟩
  · have hf := hi.failures
    cases hst : s.stage with
    | finished =>
        rw [hst] at hf
        exact (List.append_nil _).symm.trans hf
    | closed =>
        rw [hst] at hf
        exact (List.append_nil _).symm.trans hf
    | _ => rw [hst] at ho; cases ho

/-! ### The way to the end -/

/-- What has been handed to the sink stays so. -/
theorem StopMoves.notes (h : StopMoves A s s') : s.notes <:+ s'.notes := by
  cases h with
  | task => exact List.suffix_append _ _
  | quiet => exact List.suffix_rfl
  | gathered => exact List.suffix_rfl
  | driven => exact List.suffix_cons _ _
  | reported =>
      unfold Stopping.advance
      split <;> exact List.suffix_rfl
  | closes => exact List.suffix_cons _ _

/-- What was told stays told. -/
theorem notes_run {as : List (StopAction κ)} (h : (stopping A).Run s as s') :
    s.notes <:+ s'.notes :=
  h.invariant (I := fun t => s.notes <:+ t.notes) List.suffix_rfl fun _ _ _ _ hi hs =>
    hi.trans (stop_moves hs).notes

/-- Over a run no shutdown is taken back. -/
theorem shutdowns_run {as : List (StopAction κ)} {e : κ × Bool} (h : (stopping A).Run s as s')
    (he : e ∈ shutdowns s.notes) : e ∈ shutdowns s'.notes :=
  ((notes_run h).sublist.filterMap _).subset he

/-- One guard changes. -/
def Stopping.setGuard (k : κ) (g : Guard L) (s : Stopping κ L) : Stopping κ L :=
  { s with guards := Function.update s.guards k g }

@[simp] theorem setGuard_self (k : κ) (g : Guard L) : (s.setGuard k g).guards k = g :=
  Function.update_self ..

@[simp] theorem setGuard_setGuard (k : κ) (g g' : Guard L) :
    (s.setGuard k g).setGuard k g' = s.setGuard k g' := by
  simp [Stopping.setGuard]

theorem setGuard_same (k : κ) : s.setGuard k (s.guards k) = s := by
  simp [Stopping.setGuard]

/-- A step of a guard's tasks that hands nothing to the sink. -/
theorem run_task {k : κ} {a : TaskAction} {g : Guard L}
    (h : (s.guards k).step (A k) s.now a = some (g, none)) :
    (stopping A).Run s [.task k a] (s.setGuard k g) :=
  .one trivial (by change Option.map _ ((s.guards k).step (A k) s.now a) = _; rw [h]; rfl)

theorem mayAct_zero (B : Actuator L) : B.mayAct 0 = true := by
  simp [Actuator.mayAct]

theorem step_write {B : Actuator L} {g : Guard L} {o : Owner} {rest : List (Owner × Phase)} {now : ℚ}
    (hc : g.calls = (o, .pending) :: rest) : g.step B now (.write 0) =
      some ({ g with hardware := B.driver.driveSafe, calls := (o, .written) :: rest }, none) := by
  simp [Guard.step, hc, mayAct_zero]

theorem step_fail {B : Actuator L} {g : Guard L} {o : Owner} {rest : List (Owner × Phase)} {now : ℚ}
    (hc : g.calls = (o, .pending) :: rest) : g.step B now (.fail 0) =
      some ({ g with calls := (o, .raised) :: rest }, none) := by
  simp [Guard.step, hc, mayAct_zero]

/-- A call that nobody awaits returns. -/
theorem step_complete {B : Actuator L} {g : Guard L} {o : Owner} {p : Phase}
    {rest : List (Owner × Phase)} {now : ℚ} (hs : g.Settled) (hc : g.calls = (o, p) :: rest)
    (ho : o ≠ .stop) (hp : p ≠ .pending) :
    g.step B now (.complete 0) = some (g.dropCall 0, none) := by
  simp only [Guard.step, hc, List.getElem?_cons_zero, mayAct_zero, if_true]
  cases p with
  | pending => exact absurd rfl hp
  | _ => cases o <;> simp_all [Guard.complete, Guard.Settled]

/-- The first call in flight runs out. -/
theorem drain_head {k : κ} {o : Owner} {p : Phase} {rest : List (Owner × Phase)}
    (hs : (s.guards k).Settled) (hc : (s.guards k).calls = (o, p) :: rest) (ho : o ≠ .stop) :
    ∃ bs g, (stopping A).Run s bs (s.setGuard k g) ∧ g.Settled ∧
      g.calls = rest := by
  have hdrop : ∀ {g : Guard L} {p : Phase}, g.calls = (o, p) :: rest → (g.dropCall 0).calls = rest := by
    intro g p hg
    simp [Guard.dropCall, hg]
  by_cases hp : p = .pending
  · subst hp
    generalize hw : ({ s.guards k with
      hardware := (A k).driver.driveSafe
      calls := (o, .written) :: rest } : Guard L) = written
    have hset : written.Settled := by rw [← hw]; exact hs
    have hcalls : written.calls = (o, .written) :: rest := by rw [← hw]
    have hwrite : (stopping A).Run s [.task k (.write 0)] (s.setGuard k written) :=
      run_task (by rw [step_write hc, hw])
    have hdone : (stopping A).Run (s.setGuard k written) [.task k (.complete 0)]
        ((s.setGuard k written).setGuard k (written.dropCall 0)) :=
      run_task (by rw [setGuard_self]; exact step_complete hset hcalls ho (by simp))
    rw [setGuard_setGuard] at hdone
    exact ⟨_, _, hwrite.append hdone, hset, hdrop hcalls⟩
  · exact ⟨_, _, run_task (step_complete hs hc ho hp), hs, hdrop hc⟩

/-- Everything runs out, or everything in front of `stop`'s own call does. -/
theorem drain {k : κ} (hs : (s.guards k).Settled) : ∃ bs g,
    (stopping A).Run s bs (s.setGuard k g) ∧ g.Settled ∧
      (g.calls = [] ∧ (∀ c ∈ (s.guards k).calls, c.1 ≠ .stop) ∨
        ∃ p rest, g.calls = (.stop, p) :: rest ∧ (.stop, p) ∈ (s.guards k).calls) := by
  generalize hl : (s.guards k).calls = l
  induction l generalizing s with
  | nil =>
      refine ⟨[], s.guards k, ?_, hs, .inl ⟨hl, by simp⟩⟩
      rw [setGuard_same]
      exact .refl s
  | cons c rest ih =>
      obtain ⟨o, p⟩ := c
      by_cases ho : o = .stop
      · subst ho
        refine ⟨[], s.guards k, ?_, hs, .inr ⟨p, rest, hl, by simp⟩⟩
        rw [setGuard_same]
        exact .refl s
      · obtain ⟨bs, g, hrun, hg, hcalls⟩ := drain_head (A := A) hs hl ho
        obtain ⟨cs, g', hrun', hg', hend⟩ := ih (s := s.setGuard k g)
          (by rw [setGuard_self]; exact hg) (by rw [setGuard_self]; exact hcalls)
        rw [setGuard_setGuard] at hrun'
        refine ⟨_, g', hrun.append hrun', hg', hend.imp (fun h => ⟨h.1, ?_⟩) ?_⟩
        · exact List.forall_mem_cons.mpr ⟨ho, h.2⟩
        · rintro ⟨p', rest', hcalls', hmem⟩
          exact ⟨p', rest', hcalls', List.mem_cons_of_mem _ hmem⟩

/-- `stop`'s own call returns. -/
theorem run_driven {k : κ} (reached : Bool) {rest : List (Owner × Phase)} (hs : s.stage = .driving k)
    (hc : (s.guards k).calls = (.stop, if reached then .written else .raised) :: rest) :
    ∃ s', (stopping A).Run s [.driven 0] s' ∧ s'.stage = .reporting k reached ∧ s'.todo = s.todo ∧
      (k, reached) ∈ shutdowns s'.notes := by
  obtain ⟨s', hstep, hend⟩ : ∃ s', (stopping A).step s (.driven 0) = some s' ∧
      s'.stage = .reporting k reached ∧ s'.todo = s.todo ∧ (k, reached) ∈ shutdowns s'.notes := by
    cases reached <;> simp [stopping, Stopping.step, hs, hc, mayAct_zero, shutdowns]
  exact ⟨s', .one trivial hstep, hend⟩

/-- `stop` drives the guard that it is at, whatever its call comes to. -/
theorem run_driving {k : κ} (ok : Bool) (hids : ids.Nodup) (h : Leaving A ids s)
    (hs : s.stage = .driving k) : ∃ bs s' reached, (stopping A).Run s bs s' ∧
      s'.stage = .reporting k reached ∧ s'.todo = s.todo ∧ (k, reached) ∈ shutdowns s'.notes ∧
      ((∀ p, (.stop, p) ∈ (s.guards k).calls → p = .pending) → reached = ok) := by
  have hf := h.fits k
  rw [h.part_driving hids hs] at hf
  obtain ⟨hset, howner, hone, -⟩ := hf
  obtain ⟨bs, g, hrun, -, ⟨-, hno⟩ | ⟨p, rest, hcalls, hmem⟩⟩ := drain (A := A) hset
  · have hpos : Owner.stop ∈ (s.guards k).calls.map Prod.fst :=
      List.count_pos_iff.mp (by omega)
    obtain ⟨c, hc, he⟩ := List.mem_map.mp hpos
    exact absurd he (hno c hc)
  · cases p with
    | pending =>
        obtain ⟨g', hact, hcalls'⟩ : ∃ g', (stopping A).Run (s.setGuard k g)
            [.task k (if ok then .write 0 else .fail 0)] ((s.setGuard k g).setGuard k g') ∧
              g'.calls = (.stop, if ok then .written else .raised) :: rest := by
          cases ok with
          | true => exact ⟨_, run_task (by rw [setGuard_self]; exact step_write hcalls), rfl⟩
          | false => exact ⟨_, run_task (by rw [setGuard_self]; exact step_fail hcalls), rfl⟩
        obtain ⟨s', hdone, hst, ht, hmem'⟩ := run_driven (A := A)
          (s := (s.setGuard k g).setGuard k g') ok hs (by rw [setGuard_self]; exact hcalls')
        exact ⟨_, s', ok, hrun.append (hact.append hdone), hst, ht, hmem', fun _ => rfl⟩
    | written =>
        obtain ⟨s', hdone, hst, ht, hmem'⟩ := run_driven (A := A) (s := s.setGuard k g)
          true hs (by rw [setGuard_self]; exact hcalls)
        refine ⟨_, s', true, hrun.append hdone, hst, ht, hmem', fun hp => ?_⟩
        cases hp _ hmem
    | raised =>
        obtain ⟨s', hdone, hst, ht, hmem'⟩ := run_driven (A := A) (s := s.setGuard k g)
          false hs (by rw [setGuard_self]; exact hcalls)
        refine ⟨_, s', false, hrun.append hdone, hst, ht, hmem', fun hp => ?_⟩
        cases hp _ hmem

/-- `stop` waits for the tasks of a guard, and drives it. -/
theorem run_gathering {k : κ} (ok : Bool) (hids : ids.Nodup) (h : Leaving A ids s)
    (hs : s.stage = .gathering k) : ∃ bs s', (stopping A).Run s bs s' ∧
      s'.stage = .reporting k ok ∧ s'.todo = s.todo ∧ (k, ok) ∈ shutdowns s'.notes := by
  have hf := h.fits k
  rw [h.part_gathering hids hs] at hf
  obtain ⟨bs, g, hrun, -, ⟨hcalls, -⟩ | ⟨p, rest, -, hmem⟩⟩ := drain (A := A) hf.1
  · have hgather : (stopping A).Run (s.setGuard k g) [.gathered]
        { s.setGuard k (g.startCall .stop) with stage := .driving k } := by
      refine .one trivial ?_
      simp [stopping, Stopping.step, Stopping.setGuard, hs, Guard.unwound, hcalls]
    have hi : Leaving A ids { s.setGuard k (g.startCall .stop) with stage := .driving k } :=
      (hrun.append hgather).invariant h fun _ _ _ _ hi hs => leaving_step hids hi (stop_moves hs)
    obtain ⟨cs, s', reached, hrun', hst, ht, hmem, hok⟩ := run_driving ok hids hi rfl
    obtain rfl : reached = ok := by
      refine hok fun p hp => ?_
      change (.stop, p) ∈ ((s.setGuard k (g.startCall .stop)).guards k).calls at hp
      rw [setGuard_self, Guard.startCall, hcalls] at hp
      exact (Prod.mk.inj (List.mem_singleton.mp hp)).2
    exact ⟨_, s', (hrun.append hgather).append hrun', hst, ht, hmem⟩
  · exact absurd rfl (hf.2 _ hmem)

/-- The stop can go on to its end from a report, if it can from where it goes next. -/
theorem run_reporting (ok : κ → Bool) (hids : ids.Nodup) : ∀ (todo : List κ) (s : Stopping κ L),
    s.todo = todo → Leaving A ids s → (∃ k reached, s.stage = .reporting k reached) →
    ∃ bs s', (stopping A).Run s bs s' ∧ s'.stage = .closed ∧
      ∀ k ∈ todo, (k, ok k) ∈ shutdowns s'.notes := by
  intro todo
  induction todo with
  | nil =>
      rintro s ht - ⟨k, reached, hs⟩
      have hnext : ∃ s', (stopping A).step s .reported = some s' ∧ s'.stage = .finished := by
        simp [stopping, Stopping.step, hs, Stopping.advance, ht]
      obtain ⟨s₁, h₁, hs₁⟩ := hnext
      have hclose : ∃ s', (stopping A).step s₁ .close = some s' ∧ s'.stage = .closed := by
        simp [stopping, Stopping.step, hs₁]
      obtain ⟨s₂, h₂, hs₂⟩ := hclose
      exact ⟨_, s₂, .more trivial h₁ (.one trivial h₂), hs₂, by simp⟩
  | cons j rest ih =>
      rintro s ht hi ⟨k, reached, hs⟩
      have hnext : ∃ s', (stopping A).step s .reported = some s' ∧ s'.stage = .gathering j ∧
          s'.todo = rest := by
        simp [stopping, Stopping.step, hs, Stopping.advance, ht]
      obtain ⟨s₁, h₁, hs₁, ht₁⟩ := hnext
      have hi₁ := leaving_step hids hi (stop_moves h₁)
      obtain ⟨bs, s₂, h₂, hs₂, ht₂, hmem⟩ := run_gathering (ok j) hids hi₁ hs₁
      have hi₂ : Leaving A ids s₂ :=
        h₂.invariant hi₁ fun _ _ _ _ hi hs => leaving_step hids hi (stop_moves hs)
      obtain ⟨cs, s₃, h₃, hs₃, hall⟩ := ih s₂ (ht₂.trans ht₁) hi₂ ⟨j, _, hs₂⟩
      refine ⟨_, s₃, .more trivial h₁ (h₂.append h₃), hs₃, ?_⟩
      exact List.forall_mem_cons.mpr ⟨shutdowns_run h₃ hmem, hall⟩

/-- **The stop ends.**  From every state on the way it can go on until the spine is closed, whatever
comes of the drives that are still to be made. -/
theorem stop_finishes (hids : ids.Nodup) (hall : ∀ k, k ∈ ids) (states : κ → State L)
    (hs : ∀ k, (states k).Uncommanded) (now : ℚ) {as : List (StopAction κ)}
    (h : (stopping A).Run (.begin ids (fun k => (states k).guard (hs k)) now) as s) (ok : κ → Bool) :
    ∃ bs s', (stopping A).Run s bs s' ∧ s'.stage = .closed ∧
      ∀ k ∈ s.todo, (k, ok k) ∈ shutdowns s'.notes := by
  have hi := leaving_run hids hall states hs now h
  have hkeep : ∀ {t bs}, (stopping A).Run s bs t → Leaving A ids t := fun hrun =>
    hrun.invariant hi fun _ _ _ _ hi hs => leaving_step hids hi (stop_moves hs)
  cases hst : s.stage with
  | gathering k =>
      obtain ⟨bs, s₁, h₁, hs₁, ht, -⟩ := run_gathering (ok k) hids hi hst
      obtain ⟨cs, s₂, h₂, hend⟩ := run_reporting ok hids _ s₁ ht (hkeep h₁) ⟨k, _, hs₁⟩
      exact ⟨_, s₂, h₁.append h₂, hend⟩
  | driving k =>
      obtain ⟨bs, s₁, reached, h₁, hs₁, ht, -⟩ := run_driving (ok k) hids hi hst
      obtain ⟨cs, s₂, h₂, hend⟩ := run_reporting ok hids _ s₁ ht (hkeep h₁) ⟨k, _, hs₁⟩
      exact ⟨_, s₂, h₁.append h₂, hend⟩
  | reporting k reached => exact run_reporting ok hids _ s rfl hi ⟨k, reached, hst⟩
  | finished =>
      have hclose : ∃ s', (stopping A).step s .close = some s' ∧ s'.stage = .closed := by
        simp [stopping, Stopping.step, hst]
      obtain ⟨s', hstep, hs'⟩ := hclose
      exact ⟨_, s', .one trivial hstep, hs', by simp [hi.emptied (by rw [hst]; rfl)]⟩
  | closed => exact ⟨[], s, .refl s, hst, by simp [hi.emptied (by rw [hst]; rfl)]⟩

end Run

/-! ### Two lights -/

local instance neZeroTwo : NeZero 2 := inferInstance

/-- A light of each driver. -/
def twoLights : Fin 2 → Actuator ActuatorLevel :=
  fun k => lightRegistration (if k = 0 then .pca9685 else .rp1Pwm)

/-- The first is about to be driven for a lost heartbeat, and the second has just been opened. -/
def oneTripping (k : Fin 2) : State ActuatorLevel :=
  if k = 0 then
    { State.registered (twoLights 0) 0 0 true with
      heartbeatLost := true
      watchTask := .tripping .driving
      calls := [⟨.heartbeat, .pending⟩] }
  else .registered (twoLights 1) 0 0 true

theorem oneTripping_uncommanded (k : Fin 2) : (oneTripping k).Uncommanded := by
  intro c hc
  unfold oneTripping at hc
  split at hc
  · rw [List.mem_singleton.mp hc]
    rfl
  · cases hc

/-- `stop` comes to them. -/
def twoStopping : Stopping (Fin 2) ActuatorLevel :=
  .begin [0, 1] (fun k => (oneTripping k).guard (oneTripping_uncommanded k)) 0

/-- The watcher's write is waited for, and then the first light's bus fails. -/
theorem stopped_twoLights : ∃ s, (stopping twoLights).Run twoStopping
      [.task 0 (.write 0), .task 0 (.complete 0), .gathered, .task 0 (.fail 0), .driven 0, .reported,
        .gathered, .task 1 (.write 0), .driven 0, .reported, .close] s ∧
      s.notes = [.closed, .event 1 ⟨.shutdown, true⟩, .event 0 ⟨.shutdown, false⟩] ∧
      Stopped twoLights [0, 1] s := by
  have hrun : ((stopping twoLights).exec twoStopping
      [.task 0 (.write 0), .task 0 (.complete 0), .gathered, .task 0 (.fail 0), .driven 0, .reported,
        .gathered, .task 1 (.write 0), .driven 0, .reported, .close]).map Stopping.notes =
      some [.closed, .event 1 ⟨.shutdown, true⟩, .event 0 ⟨.shutdown, false⟩] := by
    decide +kernel
  obtain ⟨s, hs, hl⟩ := Option.map_eq_some_iff.mp hrun
  have h := Machine.exec_eq_some.mp hs
  exact ⟨s, h, hl, stopped (by decide) (by decide) oneTripping oneTripping_uncommanded 0 h⟩

/-- `stop` ends with two lights of which one is tripping. -/
theorem stop_finishes_twoLights : ∃ bs s', (stopping twoLights).Run twoStopping bs s' ∧
    s'.stage = .closed ∧ ∀ k ∈ twoStopping.todo, (k, true) ∈ shutdowns s'.notes :=
  stop_finishes (by decide) (by decide) oneTripping oneTripping_uncommanded 0 (.refl _) fun _ => true

end BellasReef.HardwareIO
