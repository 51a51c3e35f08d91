import BellasReef.Support.Machine
import BellasReef.Support.Paced
import Mathlib.Algebra.Order.Field.Basic
import Mathlib.Algebra.Order.Ring.Rat
import Mathlib.Tactic.Linarith

/-!
# HardwareIO — MainLoop

`HardwareIO._loop` with `_poll_due_sensors`, `_refresh_clock_trust_async` and the publisher of the
host's status (`app.py`, `host.py`), beside the thread of `LivenessGuard` (`watchdog.py`).

The loop awaits in five places, and each may take any time.  What is due is found by a reading of
the monotonic clock at the top of the pass.  The thread looks at the last beat every half second
and ends the process when it is too old.

* `loop_moves`: what a step can do, with what it notes.
* `Gates.moves`, `Passing.moves`: what is due by what has been done, and how far each pass has come.
* `on_time`: a probe is polled in just the passes that it is due in, and while the process lives its
  last poll is not older than its interval and two stalls that the guard lets pass.
-/

namespace BellasReef.HardwareIO.MainLoop
open BellasReef.Support BellasReef.Support.Paced

/-- What the process is started with. -/
structure Config (κ : Type) where
  sensors : List κ
  pollIntervalS : κ → ℚ
  /-- There is a spine. -/
  spine : Bool
  livenessTimeoutS : ℚ
  poll_pos : ∀ k, 0 < pollIntervalS k
  liveness_pos : 0 < livenessTimeoutS

/-- `_check_interval_s`. -/
def Config.checkIntervalS {κ : Type} (c : Config κ) : ℚ := min (1 / 2) (c.livenessTimeoutS / 2)

/-- The longest time without a beat that a guard lets pass that wakes no more than `δ` late. -/
def Config.stallS {κ : Type} (c : Config κ) (δ : ℚ) : ℚ :=
  c.livenessTimeoutS + (c.checkIntervalS + δ)

theorem Config.checkIntervalS_pos {κ : Type} (c : Config κ) : 0 < c.checkIntervalS :=
  lt_min (by norm_num) (half_pos c.liveness_pos)

/-- `HOST_STATUS_INTERVAL_S`. -/
def hostStatusIntervalS : ℚ := 30

/-- `_CLOCK_REFRESH_S`. -/
def clockRefreshS : ℚ := 30

/-- What the loop awaits, in the pass that began at `pass`. -/
inductive Stage where
  /-- The wait between two passes. -/
  | waiting
  /-- `asyncio.to_thread(clock_is_trusted)`. -/
  | refreshing (pass : ℚ)
  /-- `_beat_and_serve`. -/
  | serving (pass : ℚ)
  /-- The reads of the probes that are due. -/
  | reading (pass : ℚ)
  /-- Their samples are being published. -/
  | reporting (pass : ℚ)
  /-- `publish_host_status`. -/
  | publishing (pass : ℚ)
  /-- The drill: it never comes back. -/
  | frozen
  | ended
  deriving DecidableEq

namespace Stage

/-- The pass it is in. -/
def pass? : Stage → Option ℚ
  | .refreshing pass | .serving pass | .reading pass | .reporting pass | .publishing pass =>
      some pass
  | .waiting | .frozen | .ended => none

/-- The last pass has not come to `_poll_due_sensors` or is in it. -/
def toPoll : Stage → Bool
  | .refreshing _ | .serving _ | .reading _ => true
  | _ => false

/-- The last pass has not come to `maybe_publish`. -/
def toReport : Stage → Bool
  | .refreshing _ | .serving _ | .reading _ | .reporting _ => true
  | _ => false

end Stage

/-- The loop and the clock it waits on. -/
structure Loop (κ : Type) where
  now : ℚ
  stage : Stage
  stopping : Bool
  freezing : Bool
  /-- `_sensor_deadlines`. -/
  deadlines : κ → ℚ
  hostDue : ℚ
  clockDue : ℚ
  clockTrusted : Bool
  lastBeat : ℚ
  /-- When the guard's thread last began to wait. -/
  lookedAt : ℚ
  /-- `os._exit`. -/
  exited : Bool

/-- Time passes, or the loop goes on. -/
inductive Action where
  | tick (dt : ℚ)
  /-- The top of a pass. -/
  | begin
  | refreshed (trusted : Bool)
  | served
  | read
  | reported
  | published
  /-- The guard's thread wakes. -/
  | look
  /-- `request_stop`. -/
  | stop
  | freeze
  /-- The loop finds that it is to stop. -/
  | leave
  /-- What is awaited raises, where nothing catches it. -/
  | fail

/-- The time that passes. -/
def Action.elapsed : Action → ℚ
  | .tick dt => dt
  | _ => 0

namespace Loop
variable {κ : Type} [DecidableEq κ]

omit [DecidableEq κ] in
/-- The drivers that are due. -/
def due (c : Config κ) (s : Loop κ) (pass : ℚ) : List κ :=
  c.sensors.filter fun k => s.deadlines k ≤ pass

omit [DecidableEq κ] in
/-- The top of a pass: the beat, and `_refresh_clock_trust_async` up to its await. -/
def top (s : Loop κ) : Loop κ :=
  let s := { s with lastBeat := s.now }
  if s.now < s.clockDue then { s with stage := .serving s.now }
  else { s with clockDue := s.now + clockRefreshS, stage := .refreshing s.now }

/-- `_poll_due_sensors`, when the reads have returned. -/
def polled (c : Config κ) (s : Loop κ) (pass : ℚ) : Loop κ :=
  { s with
    deadlines := fun k => if k ∈ s.due c pass then pass + c.pollIntervalS k else s.deadlines k
    stage := .reporting pass }

omit [DecidableEq κ] in
/-- `maybe_publish`, up to its await. -/
def maybePublish (c : Config κ) (s : Loop κ) (pass : ℚ) : Loop κ :=
  if pass < s.hostDue then { s with stage := .waiting }
  else if c.spine then { s with hostDue := pass + hostStatusIntervalS, stage := .publishing pass }
  else { s with stage := .waiting }

/-- A step of the loop's task, of the guard's thread or of the clock. -/
def step (c : Config κ) (s : Loop κ) (a : Action) : Option (Loop κ) :=
  if s.exited then none
  else
    match a, s.stage with
    | .tick dt, _ => if 0 < dt then some { s with now := s.now + dt } else none
    | .begin, .waiting =>
        if s.stopping then none
        else if s.freezing then some { s with stage := .frozen }
        else some s.top
    | .refreshed trusted, .refreshing pass =>
        some { s with clockTrusted := trusted, stage := .serving pass }
    | .served, .serving pass =>
        if s.due c pass = [] then some { s with stage := .reporting pass }
        else some { s with stage := .reading pass }
    | .read, .reading pass => some (s.polled c pass)
    | .reported, .reporting pass => some (s.maybePublish c pass)
    | .published, .publishing _ => some { s with stage := .waiting }
    | .look, stage =>
        -- the thread is told to stop when the loop has ended
        if stage = .ended ∨ s.now < s.lookedAt + c.checkIntervalS then none
        else if c.livenessTimeoutS < s.now - s.lastBeat then some { s with exited := true }
        else some { s with lookedAt := s.now }
    | .stop, _ => some { s with stopping := true }
    | .freeze, _ => some { s with freezing := true }
    | .leave, .waiting => if s.stopping then some { s with stage := .ended } else none
    | .fail, .refreshing _ => some { s with stage := .ended }
    | .fail, .serving _ => some { s with stage := .ended }
    | _, _ => none

omit [DecidableEq κ] in
/-- The first pass has begun, and the guard's thread has been started. -/
def start (κ : Type) (now : ℚ) (trusted : Bool) : Loop κ :=
  top ⟨now, .waiting, false, false, fun _ => 0, 0, 0, trusted, now, now, false⟩

end Loop

/-- The loop and its guard. -/
def mainLoop {κ : Type} [DecidableEq κ] (c : Config κ) : Machine (Loop κ) Action := ⟨Loop.step c⟩

/-! ### What has been done -/

/-- The passes, the newest first: all, with whether the clock was looked at; those that have polled,
with the drivers read; those that have come to the host's status, with whether it was published. -/
structure Notes (κ : Type) where
  begun : List (ℚ × Bool)
  polled : List (ℚ × List κ)
  reported : List (ℚ × Bool)

namespace Notes
variable {κ : Type}

/-- What is noted at a step. -/
def note (c : Config κ) (s : Loop κ) (a : Action) (s' : Loop κ) (n : Notes κ) : Notes κ :=
  match a, s.stage with
  | .begin, _ =>
      if s'.stage = .frozen then n
      else { n with begun := (s.now, s'.stage = .refreshing s.now) :: n.begun }
  | .served, .serving pass =>
      if s'.stage = .reporting pass then { n with polled := (pass, []) :: n.polled } else n
  | .read, .reading pass => { n with polled := (pass, s.due c pass) :: n.polled }
  | .reported, .reporting pass =>
      { n with reported := (pass, s'.stage = .publishing pass) :: n.reported }
  | _, _ => n

/-- The first pass. -/
def start (now : ℚ) : Notes κ := ⟨[(now, true)], [], []⟩

end Notes

/-- The loop, with what it has done. -/
abbrev notedLoop {κ : Type} [DecidableEq κ] (c : Config κ) : Machine (Loop κ × Notes κ) Action :=
  (mainLoop c).ghost (Notes.note c)

/-! ### What a step can do -/

section Moves
variable {κ : Type} [DecidableEq κ] {c : Config κ} {s s' : Loop κ} {n n' : Notes κ} {a : Action}

/-- Every step, with what it notes. -/
inductive Moves (c : Config κ) (s : Loop κ) (n : Notes κ) : Action → Loop κ → Notes κ → Prop where
  | ticks {dt : ℚ} (hdt : 0 < dt) : Moves c s n (.tick dt) { s with now := s.now + dt } n
  | begins (hs : s.stage = .waiting) :
      Moves c s n .begin s.top { n with begun := (s.now, s.clockDue ≤ s.now) :: n.begun }
  | freezes (hs : s.stage = .waiting) : Moves c s n .begin { s with stage := .frozen } n
  | refreshes {pass : ℚ} {trusted : Bool} (hs : s.stage = .refreshing pass) :
      Moves c s n (.refreshed trusted) { s with clockTrusted := trusted, stage := .serving pass } n
  | starts {pass : ℚ} (hs : s.stage = .serving pass) :
      Moves c s n .served { s with stage := .reading pass } n
  | skips {pass : ℚ} (hs : s.stage = .serving pass) (hdue : s.due c pass = []) :
      Moves c s n .served { s with stage := .reporting pass }
        { n with polled := (pass, []) :: n.polled }
  | polls {pass : ℚ} (hs : s.stage = .reading pass) :
      Moves c s n .read (s.polled c pass) { n with polled := (pass, s.due c pass) :: n.polled }
  | reports {pass : ℚ} (hs : s.stage = .reporting pass) :
      Moves c s n .reported (s.maybePublish c pass)
        { n with reported := (pass, c.spine && decide (s.hostDue ≤ pass)) :: n.reported }
  | publishes {pass : ℚ} (hs : s.stage = .publishing pass) :
      Moves c s n .published { s with stage := .waiting } n
  | looks (hs : s.stage ≠ .ended) (hfound : s.now - s.lastBeat ≤ c.livenessTimeoutS) :
      Moves c s n .look { s with lookedAt := s.now } n
  | exits (hs : s.stage ≠ .ended) (hstale : c.livenessTimeoutS < s.now - s.lastBeat) :
      Moves c s n .look { s with exited := true } n
  | stops : Moves c s n .stop { s with stopping := true } n
  | arms : Moves c s n .freeze { s with freezing := true } n
  | leaves (hs : s.stage = .waiting) : Moves c s n .leave { s with stage := .ended } n
  | fails {pass : ℚ} (hs : s.stage = .refreshing pass ∨ s.stage = .serving pass) :
      Moves c s n .fail { s with stage := .ended } n

omit [DecidableEq κ] in
theorem stage_top :
    s.top.stage = if s.now < s.clockDue then .serving s.now else .refreshing s.now := by
  unfold Loop.top
  dsimp only
  split <;> rfl

omit [DecidableEq κ] in
/-- What the top of a pass leaves as it is, and what it sets. -/
theorem top_eq : s.top = { s with
    lastBeat := s.now, clockDue := s.top.clockDue, stage := s.top.stage } := by
  unfold Loop.top
  dsimp only
  split <;> rfl

omit [DecidableEq κ] in
theorem clockDue_top :
    s.top.clockDue = if s.clockDue ≤ s.now then s.now + clockRefreshS else s.clockDue := by
  unfold Loop.top
  by_cases h : s.now < s.clockDue
  · rw [if_pos h, if_neg h.not_ge]
  · rw [if_neg h, if_pos (not_lt.mp h)]

omit [DecidableEq κ] in
/-- What the host's status leaves as it is, and what it sets. -/
theorem maybePublish_eq {pass : ℚ} : s.maybePublish c pass = { s with
    hostDue := (s.maybePublish c pass).hostDue, stage := (s.maybePublish c pass).stage } := by
  unfold Loop.maybePublish
  split
  · rfl
  · split <;> rfl

omit [DecidableEq κ] in
theorem hostDue_maybePublish {pass : ℚ} (hspine : c.spine = true) :
    (s.maybePublish c pass).hostDue =
      if s.hostDue ≤ pass then pass + hostStatusIntervalS else s.hostDue := by
  unfold Loop.maybePublish
  by_cases h : pass < s.hostDue
  · rw [if_pos h, if_neg h.not_ge]
  · rw [if_neg h, if_pos hspine, if_pos (not_lt.mp h)]

omit [DecidableEq κ] in
theorem stage_maybePublish {pass : ℚ} : (s.maybePublish c pass).stage =
    if c.spine = true ∧ s.hostDue ≤ pass then .publishing pass else .waiting := by
  unfold Loop.maybePublish
  by_cases hdue : pass < s.hostDue
  · rw [if_pos hdue, if_neg fun h => hdue.not_ge h.2]
  · rw [if_neg hdue]
    by_cases hspine : c.spine = true
    · rw [if_pos hspine, if_pos ⟨hspine, not_lt.mp hdue⟩]
    · rw [if_neg hspine, if_neg fun h => hspine h.1]

omit [DecidableEq κ] in
/-- The top of a pass is noted with whether the clock is looked at. -/
theorem note_begin : Notes.note c s .begin s.top n =
    { n with begun := (s.now, s.clockDue ≤ s.now) :: n.begun } := by
  by_cases h : s.now < s.clockDue
  · simp [Notes.note, stage_top, h]
  · simp [Notes.note, stage_top, h, not_lt.mp h]

omit [DecidableEq κ] in
theorem note_reported {pass : ℚ} (hs : s.stage = .reporting pass) :
    Notes.note c s .reported (s.maybePublish c pass) n =
      { n with reported := (pass, c.spine && decide (s.hostDue ≤ pass)) :: n.reported } := by
  by_cases h : c.spine = true ∧ s.hostDue ≤ pass
  · simp [Notes.note, hs, stage_maybePublish, h]
  · have hb : (c.spine && decide (s.hostDue ≤ pass)) = false := by simpa using h
    simp [Notes.note, hs, stage_maybePublish, h, hb]

/-- **What a step can do**, with what it notes; nothing after the process has exited. -/
theorem loop_moves (h : (mainLoop c).step s a = some s') :
    s.exited = false ∧ Moves c s n a s' (Notes.note c s a s' n) := by
  change Loop.step c s a = some s' at h
  unfold Loop.step at h
  split at h
  · cases h
  · next hlive =>
      refine ⟨Bool.eq_false_iff.mpr hlive, ?_⟩
      split at h
      case h_1 dt _ =>
        obtain ⟨hdt, h⟩ := Option.ite_none_right_eq_some.mp h
        cases h
        exact .ticks hdt
      case h_2 hs =>
        obtain ⟨-, h⟩ := Option.ite_none_left_eq_some.mp h
        split at h <;> cases h
        · simpa [Notes.note] using Moves.freezes hs
        · rw [note_begin]
          exact .begins hs
      case h_3 trusted pass hs =>
        cases h
        exact .refreshes hs
      case h_4 pass hs =>
        split at h <;> cases h
        · next hdue => simpa [Notes.note, hs] using Moves.skips hs hdue
        · simpa [Notes.note, hs] using Moves.starts hs
      case h_5 pass hs =>
        cases h
        simpa [Notes.note, hs] using Moves.polls hs
      case h_6 pass hs =>
        cases h
        rw [note_reported hs]
        exact .reports hs
      case h_7 pass hs =>
        cases h
        exact .publishes hs
      case h_8 =>
        obtain ⟨hs, h⟩ := Option.ite_none_left_eq_some.mp h
        rw [not_or] at hs
        split at h <;> cases h
        · next hstale => exact .exits hs.1 hstale
        · next hfound => exact .looks hs.1 (not_lt.mp hfound)
      case h_9 =>
        cases h
        exact .stops
      case h_10 =>
        cases h
        exact .arms
      case h_11 hs =>
        obtain ⟨-, h⟩ := Option.ite_none_right_eq_some.mp h
        cases h
        exact .leaves hs
      case h_12 pass hs =>
        cases h
        exact .fails (.inl hs)
      case h_13 pass hs =>
        cases h
        exact .fails (.inr hs)
      case h_14 => cases h

end Moves

/-! ### What is due -/

section Gates
variable {κ : Type} [DecidableEq κ] {c : Config κ} {s s' : Loop κ} {n n' : Notes κ} {a : Action}

/-- What is due when, by what has been done. -/
structure Gates (c : Config κ) (s : Loop κ) (n : Notes κ) : Prop where
  clock : doneIn id n.begun = gated 0 clockRefreshS (n.begun.map Prod.fst)
  clockDue : s.clockDue = dueAfter 0 clockRefreshS (gated 0 clockRefreshS (n.begun.map Prod.fst))
  polls : ∀ k ∈ c.sensors, doneIn (k ∈ ·) n.polled =
    gated 0 (c.pollIntervalS k) (n.polled.map Prod.fst)
  deadlines : ∀ k ∈ c.sensors, s.deadlines k =
    dueAfter 0 (c.pollIntervalS k) (gated 0 (c.pollIntervalS k) (n.polled.map Prod.fst))
  host : c.spine = true → doneIn id n.reported =
    gated 0 hostStatusIntervalS (n.reported.map Prod.fst)
  hostDue : c.spine = true → s.hostDue =
    dueAfter 0 hostStatusIntervalS (gated 0 hostStatusIntervalS (n.reported.map Prod.fst))

omit [DecidableEq κ] in
/-- A sensor is due when its deadline is not after the pass. -/
theorem mem_due {k : κ} {pass : ℚ} (hk : k ∈ c.sensors) :
    k ∈ s.due c pass ↔ s.deadlines k ≤ pass := by
  simp [Loop.due, hk]

/-- A pass that has polled what is due. -/
theorem Gates.poll (h : Gates c s n) (pass : ℚ) :
    Gates c (s.polled c pass) { n with polled := (pass, s.due c pass) :: n.polled } where
  clock := h.clock
  clockDue := h.clockDue
  polls k hk := by
    refine doneIn_cons (h.polls k hk) ?_
    rw [decide_eq_true_iff, mem_due hk, h.deadlines k hk]
  deadlines k hk := by
    rw [List.map_cons, dueAfter_cons, ← h.deadlines k hk]
    exact if_congr (mem_due hk) rfl rfl
  host := h.host
  hostDue := h.hostDue

/-- **Step.**  Each interval has a gate of its own. -/
theorem Gates.moves (h : Gates c s n) (hm : Moves c s n a s' n') : Gates c s' n' := by
  cases hm with
  | begins hs =>
      rw [top_eq]
      refine ⟨doneIn_cons h.clock ?_, ?_, h.polls, h.deadlines, h.host, h.hostDue⟩
      · rw [id, decide_eq_true_iff, h.clockDue]
      · rw [List.map_cons, dueAfter_cons, ← h.clockDue]
        exact clockDue_top
  | @skips pass hs hdue =>
      have hpoll := h.poll pass
      rw [hdue] at hpoll
      refine ⟨h.clock, h.clockDue, hpoll.polls, fun k hk => ?_, h.host, h.hostDue⟩
      rw [← hpoll.deadlines k hk]
      simp [Loop.polled, hdue]
  | polls hs => exact h.poll _
  | @reports pass hs =>
      rw [maybePublish_eq]
      refine ⟨h.clock, h.clockDue, h.polls, h.deadlines, fun hspine => ?_, fun hspine => ?_⟩
      · refine doneIn_cons (h.host hspine) ?_
        rw [id, hspine, Bool.true_and, decide_eq_true_iff, h.hostDue hspine]
      · rw [List.map_cons, dueAfter_cons, ← h.hostDue hspine]
        exact hostDue_maybePublish hspine
  | ticks | freezes | refreshes | starts | publishes | looks | exits | stops | arms | leaves
  | fails =>
      exact ⟨h.clock, h.clockDue, h.polls, h.deadlines, h.host, h.hostDue⟩

end Gates

/-! ### The passes -/

section Passing
variable {κ : Type} [DecidableEq κ] {c : Config κ} {δ start : ℚ} {s s' : Loop κ} {n n' : Notes κ}
  {a : Action}

/-- The loop's task has not ended, nor the process. -/
def Loop.Alive (s : Loop κ) : Prop := s.exited = false ∧ s.stage ≠ .ended

/-- How far each pass has come, and how long ago the last began. -/
structure Passing (c : Config κ) (δ start : ℚ) (s : Loop κ) (n : Notes κ) : Prop where
  newest : (n.begun.map Prod.fst).head? = some s.lastBeat
  current : ∀ pass ∈ s.stage.pass?, pass = s.lastBeat
  past : s.lastBeat ≤ s.now
  nonneg : ∀ pass ∈ n.begun.map Prod.fst, 0 ≤ pass
  gap : s.lastBeat ≤ ((n.begun.map Prod.fst).drop 1).headD start + c.stallS δ
  polled : s.stage ≠ .ended →
    n.polled.map Prod.fst = (n.begun.map Prod.fst).drop s.stage.toPoll.toNat
  reported : s.stage ≠ .ended →
    n.reported.map Prod.fst = (n.begun.map Prod.fst).drop s.stage.toReport.toNat
  guarded : s.Alive →
    Guarded c.livenessTimeoutS (c.checkIntervalS + δ) s.lastBeat s.lookedAt s.now
  exits : s.exited = true → s.lastBeat + c.livenessTimeoutS < s.now

/-- The guard's thread wakes no more than `δ` late. -/
def Prompt (c : Config κ) (δ : ℚ) (p : Loop κ × Notes κ) (a : Action) : Prop :=
  p.1.stage = .ended ∨ p.1.now + a.elapsed ≤ p.1.lookedAt + c.checkIntervalS + δ

instance decidablePrompt (c : Config κ) (δ : ℚ) (p : Loop κ × Notes κ) (a : Action) :
    Decidable (Prompt c δ p a) :=
  inferInstanceAs (Decidable (_ ∨ _))

omit [DecidableEq κ] in
theorem Passing.now_le (h : Passing c δ start s n) (halive : s.Alive) :
    s.now ≤ s.lastBeat + c.stallS δ :=
  (h.guarded halive).le

omit [DecidableEq κ] in
/-- The pass under way is the newest. -/
theorem Passing.cons_drop {pass : ℚ} (h : Passing c δ start s n) (hpass : pass ∈ s.stage.pass?) :
    pass :: (n.begun.map Prod.fst).drop 1 = n.begun.map Prod.fst := by
  obtain ⟨older, holder⟩ := List.head?_eq_some_iff.mp h.newest
  rw [holder, h.current pass hpass]
  rfl

omit [DecidableEq κ] in
/-- A pass that awaits something else, with no more done than it had. -/
theorem Passing.await {stage : Stage} (h : Passing c δ start s n) (hs : s.stage ≠ .ended)
    (hcurrent : ∀ pass ∈ stage.pass?, pass ∈ s.stage.pass?)
    (hpoll : stage.toPoll = s.stage.toPoll) (hreport : stage.toReport = s.stage.toReport) :
    Passing c δ start { s with stage } n where
  newest := h.newest
  current pass hpass := h.current pass (hcurrent pass hpass)
  past := h.past
  nonneg := h.nonneg
  gap := h.gap
  polled _ := by rw [hpoll, ← h.polled hs]
  reported _ := by rw [hreport, ← h.reported hs]
  guarded halive := h.guarded ⟨halive.1, hs⟩
  exits := h.exits

omit [DecidableEq κ] in
/-- The loop's task ends. -/
theorem Passing.ended (h : Passing c δ start s n) :
    Passing c δ start { s with stage := .ended } n where
  newest := h.newest
  current _ hpass := absurd hpass (Option.not_mem_none _)
  past := h.past
  nonneg := h.nonneg
  gap := h.gap
  polled hs := absurd rfl hs
  reported hs := absurd rfl hs
  guarded halive := absurd rfl halive.2
  exits := h.exits

omit [DecidableEq κ] in
/-- The top of a pass. -/
theorem Passing.begin (h : Passing c δ start s n) (hlive : s.exited = false)
    (hs : s.stage = .waiting) :
    Passing c δ start s.top { n with begun := (s.now, s.clockDue ≤ s.now) :: n.begun } := by
  have halive : s.Alive := ⟨hlive, by simp [hs]⟩
  have hstage : s.top.stage = .serving s.now ∨ s.top.stage = .refreshing s.now := by
    rw [stage_top]
    exact ite_eq_or_eq _ _ _
  obtain ⟨older, holder⟩ := List.head?_eq_some_iff.mp h.newest
  have hpast : 0 ≤ s.lastBeat := h.nonneg _ (holder ▸ List.mem_cons_self)
  rw [top_eq]
  exact {
    newest := rfl
    current := fun pass hpass => by
      obtain hst | hst := hstage <;>
        simpa [hst, Stage.pass?, eq_comm] using hpass
    past := le_rfl
    nonneg := List.forall_mem_cons.mpr ⟨hpast.trans h.past, h.nonneg⟩
    gap := by
      have hle := h.now_le halive
      simpa [holder] using hle
    polled := fun _ => by
      obtain hst | hst := hstage <;> simpa [hst, hs, Stage.toPoll] using h.polled halive.2
    reported := fun _ => by
      obtain hst | hst := hstage <;> simpa [hst, hs, Stage.toReport] using h.reported halive.2
    guarded := fun _ => (h.guarded halive).beat h.past
    exits := fun hexit => absurd (hlive.symm.trans hexit) Bool.false_ne_true }

omit [DecidableEq κ] in
/-- The pass has polled. -/
theorem Passing.poll {pass : ℚ} {deadlines : κ → ℚ} {ks : List κ} (h : Passing c δ start s n)
    (hs : s.stage = .serving pass ∨ s.stage = .reading pass) :
    Passing c δ start { s with deadlines, stage := .reporting pass }
      { n with polled := (pass, ks) :: n.polled } := by
  have hpass : pass ∈ s.stage.pass? := by
    obtain hst | hst := hs <;> rw [hst] <;> rfl
  have hne : s.stage ≠ .ended := by
    obtain hst | hst := hs <;> simp [hst]
  exact { h with
    current := fun p hp => by rw [← Option.some.inj hp, ← h.current pass hpass]
    polled := fun _ => by
      have hpolled := h.polled hne
      rw [show s.stage.toPoll.toNat = 1 by obtain hst | hst := hs <;> rw [hst] <;> rfl] at hpolled
      rw [List.map_cons, hpolled]
      exact h.cons_drop hpass
    reported := fun _ => by
      have hreported := h.reported hne
      rwa [show s.stage.toReport.toNat = 1 by obtain hst | hst := hs <;> rw [hst] <;> rfl]
        at hreported
    guarded := fun halive => h.guarded ⟨halive.1, hne⟩ }

omit [DecidableEq κ] in
/-- The pass has come to the host's status. -/
theorem Passing.report {pass : ℚ} {published : Bool} (h : Passing c δ start s n)
    (hs : s.stage = .reporting pass) :
    Passing c δ start (s.maybePublish c pass)
      { n with reported := (pass, published) :: n.reported } := by
  have hpass : pass ∈ s.stage.pass? := by rw [hs]; rfl
  have hne : s.stage ≠ .ended := by simp [hs]
  have hstage : (s.maybePublish c pass).stage = .publishing pass ∨
      (s.maybePublish c pass).stage = .waiting := by
    rw [stage_maybePublish]
    exact ite_eq_or_eq _ _ _
  rw [maybePublish_eq]
  exact { h with
    current := fun p hp => by
      rw [← h.current pass hpass]
      obtain hst | hst := hstage <;> rw [hst] at hp
      · exact (Option.some.inj hp).symm
      · exact absurd hp (Option.not_mem_none p)
    polled := fun _ => by
      have hpolled := h.polled hne
      rw [hs] at hpolled
      obtain hst | hst := hstage <;> rw [hst] <;> exact hpolled
    reported := fun _ => by
      have hreported := h.reported hne
      rw [hs] at hreported
      have hlast := h.cons_drop hpass
      rw [List.map_cons, hreported]
      obtain hst | hst := hstage <;> rw [hst] <;> exact hlast
    guarded := fun halive => h.guarded ⟨halive.1, hne⟩ }

/-- **Step.**  Passes stay no more than a stall apart. -/
theorem Passing.moves (hδ : 0 ≤ δ) (h : Passing c δ start s n) (hlive : s.exited = false)
    (hprompt : Prompt c δ (s, n) a) (hm : Moves c s n a s' n') : Passing c δ start s' n' := by
  cases hm with
  | @ticks dt hdt =>
      refine { h with past := ?_, guarded := fun halive => ?_, exits := fun hexit => ?_ }
      · exact h.past.trans (le_add_of_nonneg_right hdt.le)
      · refine ⟨(h.guarded halive).found, ?_⟩
        have hle := hprompt.resolve_left halive.2
        rwa [add_assoc s.lookedAt] at hle
      · exact absurd (hlive.symm.trans hexit) Bool.false_ne_true
  | begins hs => exact h.begin hlive hs
  | freezes hs =>
      exact h.await (by simp [hs]) (by simp [Stage.pass?]) (by rw [hs]; rfl) (by rw [hs]; rfl)
  | @refreshes pass trusted hs =>
      have hawait : Passing c δ start { s with stage := .serving pass } n :=
        h.await (by simp [hs]) (by simp [hs, Stage.pass?]) (by rw [hs]; rfl) (by rw [hs]; rfl)
      exact { hawait with }
  | starts hs =>
      exact h.await (by simp [hs]) (by simp [hs, Stage.pass?]) (by rw [hs]; rfl) (by rw [hs]; rfl)
  | skips hs hdue => exact h.poll (.inl hs)
  | polls hs => exact h.poll (.inr hs)
  | reports hs => exact h.report hs
  | publishes hs =>
      exact h.await (by simp [hs]) (by simp [Stage.pass?]) (by rw [hs]; rfl) (by rw [hs]; rfl)
  | looks hs hfound =>
      have hlag : 0 ≤ c.checkIntervalS + δ := add_nonneg c.checkIntervalS_pos.le hδ
      exact { h with guarded := fun _ => .look hlag hfound }
  | exits hs hstale =>
      exact { h with
        guarded := fun halive => absurd halive.1.symm Bool.false_ne_true
        exits := fun _ => lt_sub_iff_add_lt'.mp hstale }
  | stops => exact { h with }
  | arms => exact { h with }
  | leaves hs => exact h.ended
  | fails hs => exact h.ended

omit [DecidableEq κ] in
/-- How long ago the last pass that has polled, or reported, can have begun. -/
theorem Passing.now_le_headD (h : Passing c δ start s n) (halive : s.Alive) (behind : Bool) :
    s.now ≤ ((n.begun.map Prod.fst).drop behind.toNat).headD start + 2 * c.stallS δ := by
  have hnow := h.now_le halive
  cases behind with
  | true =>
      calc s.now ≤ s.lastBeat + c.stallS δ := hnow
        _ ≤ ((n.begun.map Prod.fst).drop 1).headD start + c.stallS δ + c.stallS δ :=
          add_le_add_left h.gap _
        _ = _ := by rw [add_assoc, ← two_mul]; rfl
  | false =>
      obtain ⟨older, holder⟩ := List.head?_eq_some_iff.mp h.newest
      have hstall : 0 ≤ c.stallS δ := by linarith [h.past]
      rw [holder]
      change s.now ≤ s.lastBeat + 2 * c.stallS δ
      linarith

omit [DecidableEq κ] in
theorem Passing.nonneg_drop (h : Passing c δ start s n) (behind : Bool) :
    ∀ pass ∈ (n.begun.map Prod.fst).drop behind.toNat, 0 ≤ pass :=
  fun pass hmem => h.nonneg pass (List.mem_of_mem_drop hmem)

end Passing

/-! ### On time -/

section OnTime
variable {κ : Type} [DecidableEq κ] {c : Config κ} {δ start : ℚ} {s : Loop κ} {n : Notes κ}

/-- Done in just those passes that it was due in, which are at least `interval` apart. -/
structure Kept (interval : ℚ) (passes done : List ℚ) : Prop where
  due : done = gated 0 interval passes
  spaced : done.Pairwise fun later earlier => earlier + interval ≤ later

/-- What a gate lets through is as regular as the passes are. -/
theorem kept {interval : ℚ} {passes done : List ℚ} (hinterval : 0 < interval)
    (hdue : done = gated 0 interval passes) : Kept interval passes done where
  due := hdue
  spaced := hdue ▸ gated_spaced hinterval.le

/-- What the loop has kept to when it has done this, and the guard wakes no more than `δ` late;
`start` is when the first pass began. -/
structure OnTime (c : Config κ) (δ start : ℚ) (s : Loop κ) (n : Notes κ) : Prop where
  polls : ∀ k ∈ c.sensors,
    Kept (c.pollIntervalS k) (n.polled.map Prod.fst) (doneIn (k ∈ ·) n.polled)
  statuses : c.spine = true →
    Kept hostStatusIntervalS (n.reported.map Prod.fst) (doneIn id n.reported)
  clock : Kept clockRefreshS (n.begun.map Prod.fst) (doneIn id n.begun)
  /-- No pass but the one under way has left anything out. -/
  passes : s.Alive → n.polled.map Prod.fst = (n.begun.map Prod.fst).drop s.stage.toPoll.toNat ∧
    n.reported.map Prod.fst = (n.begun.map Prod.fst).drop s.stage.toReport.toNat
  /-- A loop that does not come round does not live. -/
  beating : s.Alive → s.now ≤ s.lastBeat + c.stallS δ
  polled : s.Alive → ∀ k ∈ c.sensors, s.now <
    (doneIn (k ∈ ·) n.polled).headD start + c.pollIntervalS k + 2 * c.stallS δ
  published : s.Alive → c.spine = true → s.now <
    (doneIn id n.reported).headD start + hostStatusIntervalS + 2 * c.stallS δ
  clockLooked : s.Alive → s.now < (doneIn id n.begun).headD start + clockRefreshS + c.stallS δ
  /-- And no process is ended whose loop comes round in time. -/
  exits : s.exited = true → s.lastBeat + c.livenessTimeoutS < s.now

/-- Gates and passes together are on time. -/
theorem OnTime.of (hg : Gates c s n) (hp : Passing c δ start s n) : OnTime c δ start s n where
  polls k hk := kept (c.poll_pos k) (hg.polls k hk)
  statuses hspine := kept (by norm_num [hostStatusIntervalS]) (hg.host hspine)
  clock := kept (by norm_num [clockRefreshS]) hg.clock
  passes halive := ⟨hp.polled halive.2, hp.reported halive.2⟩
  beating := hp.now_le
  polled halive k hk := by
    rw [hg.polls k hk, hp.polled halive.2]
    exact lt_headD (c.poll_pos k) (hp.nonneg_drop _) (hp.now_le_headD halive _)
  published halive hspine := by
    rw [hg.host hspine, hp.reported halive.2]
    exact lt_headD (by norm_num [hostStatusIntervalS]) (hp.nonneg_drop _) (hp.now_le_headD halive _)
  clockLooked halive := by
    obtain ⟨older, holder⟩ := List.head?_eq_some_iff.mp hp.newest
    rw [hg.clock]
    refine lt_headD (by norm_num [clockRefreshS]) hp.nonneg ?_
    rw [holder]
    exact hp.now_le halive
  exits := hp.exits

/-- A loop that starts has every deadline before it. -/
theorem gates_start {begun : ℚ} (hbegun : 0 ≤ begun) (trusted : Bool) :
    Gates c (Loop.start κ begun trusted) (Notes.start begun) := by
  have hdue : gated 0 clockRefreshS [begun] = [begun] := gated_cons_of_le hbegun
  refine ⟨?_, ?_, fun _ _ => rfl, fun _ _ => ?_, fun _ => rfl, fun _ => ?_⟩
  · exact hdue.symm
  · rw [Loop.start, clockDue_top, if_pos hbegun]
    change _ = dueAfter 0 clockRefreshS (gated 0 clockRefreshS [begun])
    rw [hdue]
    rfl
  · rw [Loop.start, top_eq]
    rfl
  · rw [Loop.start, top_eq]
    rfl

omit [DecidableEq κ] in
/-- A loop that starts has begun no pass. -/
theorem passing_start {begun : ℚ} (hδ : 0 ≤ δ) (hbegun : 0 ≤ begun) (trusted : Bool) :
    Passing c δ begun (Loop.start κ begun trusted) (Notes.start begun) := by
  have hcheck : 0 ≤ c.checkIntervalS + δ := add_nonneg c.checkIntervalS_pos.le hδ
  have hstage : (Loop.start κ begun trusted).stage = .refreshing begun := by
    rw [Loop.start, stage_top, if_neg hbegun.not_gt]
  have heq : Loop.start κ begun trusted = { Loop.start κ begun trusted with
      now := begun, lastBeat := begun, lookedAt := begun, exited := false
      stage := .refreshing begun } := by
    rw [← hstage, Loop.start, top_eq]
  rw [heq]
  exact {
    newest := rfl
    current := fun pass hpass => (Option.some.inj hpass).symm
    past := le_rfl
    nonneg := fun pass hpass => List.mem_singleton.mp hpass ▸ hbegun
    gap := le_add_of_nonneg_right (add_nonneg c.liveness_pos.le hcheck)
    polled := fun _ => rfl
    reported := fun _ => rfl
    guarded := fun _ => .look hcheck ((sub_self begun).trans_le c.liveness_pos.le)
    exits := fun hexit => absurd hexit Bool.false_ne_true }

/-- **What is due is done, and not late.**  However long each wait takes, every probe is polled in
just the passes that find it due, and while the process lives the last poll is not older than the
probe's interval and two stalls that the guard lets pass; so too the host's status and the clock. -/
theorem on_time (hδ : 0 ≤ δ) {begun : ℚ} (hbegun : 0 ≤ begun) (trusted : Bool) {as : List Action}
    (h : (notedLoop c).RunIf (Prompt c δ) (Loop.start κ begun trusted, Notes.start begun) as
      (s, n)) :
    OnTime c δ begun s n := by
  have hinv : Gates c s n ∧ Passing c δ begun s n := by
    refine h.invariant (I := fun p => Gates c p.1 p.2 ∧ Passing c δ begun p.1 p.2)
      ⟨gates_start hbegun trusted, passing_start hδ hbegun trusted⟩ ?_
    refine Machine.ghost_preserves fun s n a s' hprompt hi hs => ?_
    obtain ⟨hlive, hm⟩ := loop_moves (n := n) hs
    exact ⟨hi.1.moves hm, hi.2.moves hδ hlive hprompt hm⟩
  exact .of hinv.1 hinv.2

end OnTime

/-! ### Two probes -/

/-- One is polled twice a second, the other every five. -/
def twoIntervals : Bool → ℚ
  | true => 1 / 2
  | false => 5

theorem twoIntervals_pos (fast : Bool) : 0 < twoIntervals fast := by
  cases fast <;> norm_num [twoIntervals]

/-- Two probes at two intervals. -/
def twoProbes : Config Bool :=
  ⟨[true, false], twoIntervals, true, 1, twoIntervals_pos, one_pos⟩

/-- The first read takes a while, and the second pass finds the other probe not due. -/
theorem on_time_twoProbes : ∃ s n, (notedLoop twoProbes).RunIf (Prompt twoProbes (1 / 10))
      (Loop.start Bool 100 true, Notes.start 100)
      [.refreshed true, .served, .tick (1 / 2), .look, .read, .reported, .published, .tick (1 / 4),
        .begin, .served, .read, .reported, .freeze, .begin] (s, n) ∧
      n.polled = [(403 / 4, [true]), (100, [true, false])] ∧ s.stage = .frozen ∧
      OnTime twoProbes (1 / 10) 100 s n := by
  have hrun : ((notedLoop twoProbes).execIf (Prompt twoProbes (1 / 10))
      (Loop.start Bool 100 true, Notes.start 100)
      [.refreshed true, .served, .tick (1 / 2), .look, .read, .reported, .published, .tick (1 / 4),
        .begin, .served, .read, .reported, .freeze, .begin]).map
        (fun p => (p.2.polled, p.1.stage)) =
      some ([(403 / 4, [true]), (100, [true, false])], .frozen) := by
    decide +kernel
  obtain ⟨⟨s, n⟩, hs, hl⟩ := Option.map_eq_some_iff.mp hrun
  have h := Machine.execIf_eq_some.mp hs
  exact ⟨s, n, h, congrArg Prod.fst hl, congrArg Prod.snd hl,
    on_time (by norm_num) (by norm_num) true h⟩

end BellasReef.HardwareIO.MainLoop
