import BellasReef.Support.Awaiting
import BellasReef.Support.Machine
import Mathlib.Algebra.Order.Group.Nat
import Mathlib.Data.List.Nodup
import Mathlib.Data.List.Range

/-!
# HardwareIO — Uncancellable

`to_thread_uncancellable` in `drivers/dimming.py`: a coroutine that waits on the task of an
offloaded call through `asyncio.shield`, and waits again whenever it is cancelled before that task
is done.  The thread, the task, the shield's callback, the coroutine and whoever cancels it all go
on in any order.  The exceptions of the call are those of `Exception`.

* `Offload.sound_run`: the coroutine has ended only if the call has.
* `uncancellable_finishes`: in every run the coroutine ends after the call; it raises
  `CancelledError` exactly if a cancellation arrived, and then the instance that it caught last;
  with none, the call's outcome is its own; and it does end, in as many turns as there were
  cancellations and four more.
-/

namespace BellasReef.HardwareIO
open BellasReef.Support

/-- An instance of `asyncio.CancelledError`: which one it is, and its message. -/
structure CancelledError (μ : Type) where
  serial : ℕ
  msg : μ
  deriving DecidableEq, Repr

/-- How the coroutine ends. -/
inductive OffloadEnd (ε μ : Type) where
  | returned
  | raised (e : ε)
  | cancelled (exc : CancelledError μ)
  deriving DecidableEq, Repr

/-- Where the coroutine is: at `await asyncio.shield(task)`, with its variable `cancelled`, or at
an end. -/
inductive Waiter (ε μ : Type) where
  | suspended (await : Awaiting Unit ε μ) (cancelled : Option (CancelledError μ))
  | ended (r : OffloadEnd ε μ)

/-- A call of `to_thread_uncancellable`. -/
structure Offload (ε μ : Type) where
  /-- How the call ended, in its thread. -/
  thread : Option (Except ε Unit)
  /-- How `task` ended. -/
  task : Option (Except ε Unit)
  waiter : Waiter ε μ
  /-- How many instances of `CancelledError` there have been. -/
  made : ℕ

/-- The steps of everyone who has a part in a call. -/
inductive OffloadAction (ε μ : Type) where
  | threadEnds (o : Except ε Unit)
  | taskEnds
  /-- `_inner_done_callback` of the shield. -/
  | propagates
  | cancel (msg : μ)
  | wakes

namespace Offload

variable {ε μ : Type}

/-- The call at its first suspension.  `pending` is a cancellation of the caller's task that it has
not been thrown yet. -/
def start (pending : Option μ) : Offload ε μ := ⟨none, none, .suspended (.suspend pending) none, 0⟩

/-- `if cancelled is not None: raise cancelled`, after the loop. -/
def leave : Option (CancelledError μ) → OffloadEnd ε μ
  | some exc => .cancelled exc
  | none => .returned

/-- The branches of the `try`, each to the end of the loop or to the next `await`. -/
def resume (s : Offload ε μ) (cancelled : Option (CancelledError μ)) :
    Wakeup Unit ε μ → Offload ε μ
  | .cancels msg =>
      let exc : CancelledError μ := ⟨s.made, msg⟩
      if s.task.isSome then { s with waiter := .ended (leave (some exc)), made := s.made + 1 }
      else { s with waiter := .suspended .pending (some exc), made := s.made + 1 }
  | .raises e =>
      match cancelled with
      | some exc => { s with waiter := .ended (leave (some exc)) }
      | none => { s with waiter := .ended (.raised e) }
  | .returns () => { s with waiter := .ended (leave cancelled) }

/-- One step. -/
def step (s : Offload ε μ) : OffloadAction ε μ → Option (Offload ε μ)
  | .threadEnds o => if s.thread.isNone then some { s with thread := some o } else none
  | .taskEnds =>
      match s.thread, s.task with
      | some o, none => some { s with task := some o }
      | _, _ => none
  | .propagates =>
      match s.task, s.waiter with
      | some o, .suspended .pending c => some { s with waiter := .suspended (.finished o none) c }
      | _, _ => none
  | .cancel msg =>
      match s.waiter with
      | .suspended w c => some { s with waiter := .suspended (w.cancel msg) c }
      | .ended _ => none
  | .wakes =>
      match s.waiter with
      | .suspended w c => w.wakeup.map (s.resume c)
      | .ended _ => none

end Offload

/-- The calls of `to_thread_uncancellable`. -/
def offloads (ε μ : Type) : Machine (Offload ε μ) (OffloadAction ε μ) := ⟨Offload.step⟩

/-- What has come to the coroutine. -/
structure Notes (μ : Type) where
  /-- The messages of the cancellations that arrived while it was suspended. -/
  arrived : List μ
  /-- The instances that `except asyncio.CancelledError` caught. -/
  caught : List (CancelledError μ)
  /-- The steps of the others and its own, without the cancellations. -/
  turns : ℕ

namespace Offload

variable {ε μ : Type}

/-- The instance that the coroutine catches when it goes on from here. -/
def catches (s : Offload ε μ) : Option (CancelledError μ) :=
  match s.waiter with
  | .suspended w _ => w.told.map (⟨s.made, ·⟩)
  | .ended _ => none

/-- What a step adds to the notes. -/
def note (s : Offload ε μ) (a : OffloadAction ε μ) (_ : Offload ε μ) (n : Notes μ) : Notes μ :=
  match a with
  | .cancel msg => { n with arrived := n.arrived ++ [msg] }
  | .wakes => { n with caught := n.caught ++ s.catches.toList, turns := n.turns + 1 }
  | _ => { n with turns := n.turns + 1 }

end Offload

/-- The calls, with the notes. -/
abbrev notedOffloads (ε μ : Type) : Machine (Offload ε μ × Notes μ) (OffloadAction ε μ) :=
  (offloads ε μ).ghost Offload.note

/-- The notes at the first suspension. -/
def Notes.start {μ : Type} (pending : Option μ) : Notes μ := ⟨pending.toList, [], 0⟩

/-! ### One step -/

namespace Offload

variable {ε μ : Type} {s s' : Offload ε μ} {n : Notes μ} {a : OffloadAction ε μ}

/-- Nobody knows of an end that has not come. -/
structure Sound (s : Offload ε μ) : Prop where
  task : ∀ o, s.task = some o → s.thread = some o
  finished : ∀ o m c, s.waiter = .suspended (.finished o m) c → s.task = some o
  returned : s.waiter = .ended .returned → s.task = some (.ok ())
  raised : ∀ e, s.waiter = .ended (.raised e) → s.task = some (.error e)
  cancelled : ∀ exc, s.waiter = .ended (.cancelled exc) → s.task.isSome

/-- What the end is of a call that ended with `o`. -/
def endOf (c : Option (CancelledError μ)) (o : Except ε Unit) : OffloadEnd ε μ :=
  match c, o with
  | some exc, _ => .cancelled exc
  | none, .ok () => .returned
  | none, .error e => .raised e

theorem endOf_cancelled_iff {c : Option (CancelledError μ)} {o : Except ε Unit}
    {exc : CancelledError μ} : endOf c o = .cancelled exc ↔ c = some exc := by
  obtain _ | ⟨⟨⟩⟩ := o <;> cases c <;> simp [endOf]

/-- **Going on**: the coroutine catches a cancellation, and waits again if the task is not done;
or it ends, as the future has finished. -/
theorem step_wakes (h : s.step .wakes = some s') :
    ∃ w c, s.waiter = .suspended w c ∧
      ((∃ exc, s.catches = some exc ∧ s.task = none ∧
          s' = { s with waiter := .suspended .pending (some exc), made := s.made + 1 }) ∨
        (∃ exc, s.catches = some exc ∧ s.task.isSome ∧
          s' = { s with waiter := .ended (.cancelled exc), made := s.made + 1 }) ∨
        ∃ o, s.catches = none ∧ w = .finished o none ∧
          s' = { s with waiter := .ended (endOf c o) }) := by
  rw [step] at h
  cases hw : s.waiter with
  | ended r => simp [hw] at h
  | suspended w c =>
      rw [hw] at h
      obtain ⟨k, hk, rfl⟩ := Option.map_eq_some_iff.mp h
      refine ⟨w, c, rfl, ?_⟩
      cases ht : w.told with
      | some msg =>
          obtain rfl : k = .cancels msg :=
            Option.some.inj (hk.symm.trans (Awaiting.wakeup_cancels_iff.mpr ht))
          have hc : s.catches = some ⟨s.made, msg⟩ := by simp [catches, hw, ht]
          cases hd : s.task with
          | none => exact .inl ⟨_, hc, rfl, by simp [resume, hd]⟩
          | some o => exact .inr (.inl ⟨_, hc, rfl, by simp [resume, hd, leave]⟩)
      | none =>
          obtain ⟨o, rfl, rfl⟩ := Awaiting.finished_of_wakeup hk ht
          refine .inr (.inr ⟨o, by simp [catches, hw, ht], rfl, ?_⟩)
          obtain _ | ⟨⟨⟩⟩ := o <;> cases c <;> rfl

/-- A call that has just begun. -/
theorem sound_start (pending : Option μ) : Sound (start pending : Offload ε μ) := by
  refine ⟨nofun, fun o m c h => ?_, nofun, nofun, nofun⟩
  cases pending <;> simp [start, Awaiting.suspend] at h

/-- **Step.**  Who waits waits for the thread. -/
theorem sound_step (hs : Sound s) (h : s.step a = some s') : Sound s' := by
  cases a with
  | threadEnds o =>
      simp only [step] at h
      split_ifs at h with ht
      cases h
      -- the task waits for the thread, so it has not ended either
      have hd : s.task = none := by
        by_contra hd
        obtain ⟨o', hd⟩ := Option.ne_none_iff_exists'.mp hd
        simp [hs.task o' hd] at ht
      exact ⟨by simp [hd], hs.finished, hs.returned, hs.raised, hs.cancelled⟩
  | taskEnds =>
      simp only [step] at h
      split at h
      · next o ht hd =>
          cases h
          refine ⟨fun o' e => ?_, fun o' m c hw => ?_, fun hw => ?_, fun e hw => ?_, fun _ _ => rfl⟩
          · exact ht.trans e
          · exact absurd (hs.finished o' m c hw) (by simp [hd])
          · exact absurd (hs.returned hw) (by simp [hd])
          · exact absurd (hs.raised e hw) (by simp [hd])
      · cases h
  | propagates =>
      simp only [step] at h
      split at h
      · next o c hd hw =>
          cases h
          refine ⟨hs.task, fun o' m c' e => ?_, nofun, nofun, nofun⟩
          simp only [Waiter.suspended.injEq, Awaiting.finished.injEq] at e
          exact e.1.1 ▸ hd
      · cases h
  | cancel msg =>
      simp only [step] at h
      split at h
      · next w c hw =>
          cases h
          refine ⟨hs.task, fun o m c' e => ?_, nofun, nofun, nofun⟩
          cases w with
          | finished o' m' =>
              simp only [Awaiting.cancel, Waiter.suspended.injEq, Awaiting.finished.injEq] at e
              exact e.1.1 ▸ hs.finished o' m' c hw
          | pending => simp [Awaiting.cancel] at e
          | cancelled => simp [Awaiting.cancel] at e
      · cases h
  | wakes =>
      obtain ⟨w, c, hw, hk⟩ := step_wakes h
      obtain ⟨exc, -, -, rfl⟩ | ⟨exc, -, hd, rfl⟩ | ⟨o, -, rfl, rfl⟩ := hk
      · exact ⟨hs.task, nofun, nofun, nofun, nofun⟩
      · exact ⟨hs.task, nofun, nofun, nofun, fun _ _ => hd⟩
      · have hd := hs.finished _ _ _ hw
        refine ⟨hs.task, nofun, fun e => ?_, fun e' e => ?_, fun _ _ => by simp [hd]⟩
        · obtain _ | ⟨⟨⟩⟩ := o <;> cases c <;> simp_all [endOf]
        · obtain _ | ⟨⟨⟩⟩ := o <;> cases c <;> simp_all [endOf]

/-- Only the thread itself says how the call ended. -/
theorem thread_step (ha : ∀ o, a ≠ .threadEnds o) (h : s.step a = some s') :
    s'.thread = s.thread := by
  cases a with
  | threadEnds o => exact absurd rfl (ha o)
  | taskEnds =>
      simp only [step] at h
      split at h <;> cases h
      rfl
  | propagates =>
      simp only [step] at h
      split at h <;> cases h
      rfl
  | cancel msg =>
      simp only [step] at h
      split at h <;> cases h
      rfl
  | wakes =>
      obtain ⟨w, c, -, hk⟩ := step_wakes h
      obtain ⟨exc, -, -, rfl⟩ | ⟨exc, -, -, rfl⟩ | ⟨o, -, -, rfl⟩ := hk <;> rfl

/-- The thread ends while the coroutine waits. -/
theorem step_threadEnds (ht : s.thread = none) (o : Except ε Unit) :
    s.step (.threadEnds o) = some { s with thread := some o } := by
  simp [step, ht]

/-- How many more turns the coroutine takes, if nobody cancels it. -/
def waiterRank (done : Bool) : Waiter ε μ → ℕ
  | .suspended .pending _ => 2
  | .suspended (.finished _ _) _ => 1
  -- the turn after a cancellation ends the wait only if the task is done
  | .suspended (.cancelled _) _ => if done then 1 else 3
  | .ended _ => 0

/-- How many more turns the call takes, if nobody cancels it. -/
def rank (s : Offload ε μ) : ℕ :=
  (if s.thread.isSome then 0 else 1) + (if s.task.isSome then 0 else 1) +
    waiterRank s.task.isSome s.waiter

theorem waiterRank_done (w : Waiter ε μ) : waiterRank true w ≤ waiterRank false w := by
  rcases w with ⟨_ | _ | _, _⟩ | _ <;> simp [waiterRank]

theorem waiterRank_cancel (done : Bool) (w : Awaiting Unit ε μ) (c : Option (CancelledError μ))
    (msg : μ) :
    waiterRank done (.suspended (w.cancel msg) c) ≤ waiterRank done (.suspended w c) + 1 := by
  cases w with
  | pending => cases done <;> simp [waiterRank, Awaiting.cancel]
  | finished => simp [waiterRank, Awaiting.cancel]
  | cancelled => simp [waiterRank, Awaiting.cancel]

/-- A call and the notes of it. -/
structure Told (s : Offload ε μ) (n : Notes μ) : Prop where
  last : ∀ w c, s.waiter = .suspended w c → c = n.caught.getLast?
  arrived : ∀ w c, s.waiter = .suspended w c →
    (n.arrived = [] ↔ n.caught = [] ∧ w.told = none)
  ended : ∀ r, s.waiter = .ended r →
    (n.arrived = [] ↔ n.caught = []) ∧ ∀ exc, r = .cancelled exc ↔ n.caught.getLast? = some exc
  serials : n.caught.map (·.serial) = List.range s.made
  turns : n.turns + s.rank ≤ 4 + n.arrived.length

/-- What is caught was thrown, and is new. -/
theorem catches_eq_some {exc : CancelledError μ} (hc : s.catches = some exc) :
    ∃ w c, s.waiter = .suspended w c ∧ w.told.isSome ∧ exc.serial = s.made := by
  rw [catches] at hc
  split at hc
  · next w c hw =>
      obtain ⟨msg, hm, rfl⟩ := Option.map_eq_some_iff.mp hc
      exact ⟨w, c, hw, by simp [hm], rfl⟩
  · cases hc

/-- To catch a cancellation is a turn of its own. -/
theorem waiterRank_catches {exc : CancelledError μ} (hs : Sound s) (hc : s.catches = some exc) :
    waiterRank s.task.isSome s.waiter = if s.task.isSome then 1 else 3 := by
  obtain ⟨w, c, hw, hm, -⟩ := catches_eq_some hc
  cases w with
  | pending => simp [Awaiting.told] at hm
  | finished o m => simp [waiterRank, hw, hs.finished _ _ _ hw]
  | cancelled msg => simp [waiterRank, hw]

/-- Nothing was caught yet. -/
theorem told_start (pending : Option μ) :
    Told (start pending : Offload ε μ) (.start pending) where
  last w c h := by
    cases h
    rfl
  arrived w c h := by
    cases h
    cases pending <;> simp [Notes.start, Awaiting.suspend, Awaiting.told]
  ended r h := by cases h
  serials := rfl
  turns := by cases pending <;> simp [start, Notes.start, rank, waiterRank, Awaiting.suspend]

/-- A cancellation that is caught has arrived, and is one after those that were caught before. -/
theorem Told.caught {exc : CancelledError μ} (hn : Told s n) (hc : s.catches = some exc) :
    n.arrived ≠ [] ∧ (n.caught ++ [exc]).map (·.serial) = List.range (s.made + 1) := by
  obtain ⟨w, c, hw, hm, hserial⟩ := catches_eq_some hc
  constructor
  · intro hnone
    rw [((hn.arrived w c hw).mp hnone).2] at hm
    cases hm
  · rw [List.map_append, hn.serials, List.range_succ, List.map_singleton, hserial]

/-- **Step.**  What was caught is what will be told. -/
theorem told_step (hs : Sound s) (hn : Told s n) (h : s.step a = some s') :
    Told s' (s.note a s' n) := by
  have hturns := hn.turns
  cases a with
  | threadEnds o =>
      simp only [step] at h
      split_ifs at h with ht
      cases h
      refine ⟨hn.last, hn.arrived, hn.ended, hn.serials, ?_⟩
      simp only [rank, note, Option.isNone_iff_eq_none.mp ht, Option.isSome_none,
        Option.isSome_some, Bool.false_eq_true, if_false, if_true] at hturns ⊢
      omega
  | taskEnds =>
      simp only [step] at h
      split at h
      · next o ht hd =>
          cases h
          refine ⟨hn.last, hn.arrived, hn.ended, hn.serials, ?_⟩
          have hrank := waiterRank_done s.waiter
          simp only [rank, note, hd, Option.isSome_none, Option.isSome_some, Bool.false_eq_true,
            if_false, if_true] at hturns ⊢
          omega
      · cases h
  | propagates =>
      simp only [step] at h
      split at h
      · next o c hd hw =>
          cases h
          refine ⟨fun w c' e => ?_, fun w c' e => ?_, by rintro _ ⟨⟩, hn.serials, ?_⟩
          · cases e
            exact hn.last _ _ hw
          · cases e
            simpa [Awaiting.told, note] using hn.arrived _ _ hw
          · simp only [rank, note, hw, waiterRank] at hturns ⊢
            omega
      · cases h
  | cancel msg =>
      simp only [step] at h
      split at h
      · next w c hw =>
          cases h
          refine ⟨fun w' c' e => ?_, fun w' c' e => ?_, by rintro _ ⟨⟩, hn.serials, ?_⟩
          · cases e
            exact hn.last _ _ hw
          · cases e
            obtain ⟨m, hm⟩ := Option.isSome_iff_exists.mp (w.told_cancel msg)
            simp [note, hm]
          · have hrank := waiterRank_cancel s.task.isSome w c msg
            simp only [rank, note, hw, List.length_append, List.length_singleton] at hturns ⊢
            omega
      · cases h
  | wakes =>
      obtain ⟨w, c, hw, hk⟩ := step_wakes h
      obtain ⟨exc, hc, hd, rfl⟩ | ⟨exc, hc, hd, rfl⟩ | ⟨o, hc, rfl, rfl⟩ := hk
      · -- caught, and not the last one yet
        obtain ⟨harrived, hserials⟩ := hn.caught hc
        have hrank := waiterRank_catches hs hc
        refine ⟨fun w' c' e => ?_, fun w' c' e => ?_, by rintro _ ⟨⟩, ?_, ?_⟩
        · cases e
          simp [note, hc]
        · simp [note, hc, harrived]
        · simpa [note, hc] using hserials
        · simp only [rank, note, hd, waiterRank, Option.isSome_none, Bool.false_eq_true, if_false]
            at hrank hturns ⊢
          omega
      · -- caught, and the last one
        obtain ⟨harrived, hserials⟩ := hn.caught hc
        have hrank := waiterRank_catches hs hc
        refine ⟨by rintro _ _ ⟨⟩, by rintro _ _ ⟨⟩, fun r e => ?_, ?_, ?_⟩
        · cases e
          simp [note, hc, harrived]
        · simpa [note, hc] using hserials
        · simp only [rank, note, hd, waiterRank, if_true] at hrank hturns ⊢
          omega
      · -- what has been caught before decides
        refine ⟨by rintro _ _ ⟨⟩, by rintro _ _ ⟨⟩, fun r e => ?_, ?_, ?_⟩
        · cases e
          have hlast := hn.last _ _ hw
          have harrived := hn.arrived _ _ hw
          refine ⟨?_, fun exc => ?_⟩
          · simpa [note, hc, Awaiting.told] using harrived
          · rw [endOf_cancelled_iff, hlast]
            simp [note, hc]
        · simpa [note, hc] using hn.serials
        · simp only [rank, note, hw, waiterRank] at hturns ⊢
          omega

/-- An end that is no `CancelledError` is the call's own. -/
theorem end_own {r : OffloadEnd ε μ} (hs : Sound s) (hw : s.waiter = .ended r)
    (hr : ∀ exc, r ≠ .cancelled exc) :
    (s.thread = some (.ok ()) ∧ r = .returned) ∨
      ∃ e, s.thread = some (.error e) ∧ r = .raised e := by
  cases r with
  | returned => exact .inl ⟨hs.task _ (hs.returned hw), rfl⟩
  | raised e => exact .inr ⟨e, hs.task _ (hs.raised e hw), rfl⟩
  | cancelled exc => exact absurd rfl (hr exc)

theorem end_thread {r : OffloadEnd ε μ} (hs : Sound s) (hw : s.waiter = .ended r) :
    s.thread.isSome := by
  have htask : s.task.isSome := by
    cases r with
    | returned => simp [hs.returned hw]
    | raised e => simp [hs.raised e hw]
    | cancelled exc => exact hs.cancelled exc hw
  obtain ⟨o, ho⟩ := Option.isSome_iff_exists.mp htask
  simp [hs.task o ho]

/-- Once the thread is done, somebody can go on until the coroutine has ended. -/
theorem ended_of_stuck (ht : s.thread.isSome)
    (hstuck : ∀ a, (∀ msg, a ≠ .cancel msg) → s.step a = none) : ∃ r, s.waiter = .ended r := by
  obtain ⟨o, ho⟩ := Option.isSome_iff_exists.mp ht
  cases hd : s.task with
  | none => exact absurd (hstuck .taskEnds nofun) (by simp [step, ho, hd])
  | some o' =>
      cases hw : s.waiter with
      | ended r => exact ⟨r, rfl⟩
      | suspended w c =>
          have hprop := hstuck .propagates nofun
          have hwake := hstuck .wakes nofun
          rcases w with _ | ⟨_ | _, _ | _⟩ | _
          · simp [step, hd, hw] at hprop
          all_goals simp [step, hw, Awaiting.wakeup] at hwake

end Offload

/-! ### Every run -/

variable {ε μ : Type} {as : List (OffloadAction ε μ)} {s : Offload ε μ} {n : Notes μ}
  {pending : Option μ}

/-- The coroutine has ended only if the call has, and knows how. -/
theorem Offload.sound_run (h : (offloads ε μ).Run (.start pending) as s) : s.Sound :=
  h.invariant (Offload.sound_start pending) fun _ _ _ _ hs h => Offload.sound_step hs h

/-- Over a run the waiter is told of its cancellation. -/
theorem Offload.told_run (h : (notedOffloads ε μ).Run (.start pending, .start pending) as (s, n)) :
    s.Sound ∧ s.Told n := by
  refine h.invariant (I := fun p => p.1.Sound ∧ p.1.Told p.2)
    ⟨Offload.sound_start pending, Offload.told_start pending⟩ ?_
  exact Machine.ghost_preserves fun s n a s' _ hI h =>
    ⟨Offload.sound_step hI.1 h, Offload.told_step hI.1 hI.2 h⟩

/-- **A cancelled driver call still finishes.** -/
theorem uncancellable_finishes
    (h : (notedOffloads ε μ).Run (.start pending, .start pending) as (s, n)) :
    (∀ r, s.waiter = .ended r →
      s.thread.isSome ∧
      ((∃ exc, r = .cancelled exc) ↔ n.arrived ≠ []) ∧
      (∀ exc, r = .cancelled exc → n.caught.getLast? = some exc) ∧
      (n.arrived = [] → (s.thread = some (.ok ()) ∧ r = .returned) ∨
        ∃ e, s.thread = some (.error e) ∧ r = .raised e)) ∧
    n.caught.Nodup ∧
    n.turns ≤ 4 + n.arrived.length ∧
    (s.thread.isSome → (∀ a, (∀ msg, a ≠ .cancel msg) → (offloads ε μ).step s a = none) →
      ∃ r, s.waiter = .ended r) := by
  obtain ⟨hs, hn⟩ := Offload.told_run h
  refine ⟨fun r hw => ?_, ?_, le_trans (Nat.le_add_right _ _) hn.turns, Offload.ended_of_stuck⟩
  · obtain ⟨harrived, hlast⟩ := hn.ended r hw
    have hcancelled : (∃ exc, r = .cancelled exc) ↔ n.arrived ≠ [] := by
      rw [Ne, harrived, ← List.getLast?_eq_none_iff, ← Ne, Option.ne_none_iff_exists']
      exact exists_congr hlast
    refine ⟨Offload.end_thread hs hw, hcancelled, fun exc e => (hlast exc).mp e, fun hnone => ?_⟩
    exact Offload.end_own hs hw fun exc e => hcancelled.mp ⟨exc, e⟩ hnone
  · exact List.Nodup.of_map CancelledError.serial (hn.serials ▸ List.nodup_range)

/-- Two cancellations while the thread writes, and one in the loop step in which its task is
done: the call fails, and the third is what the caller gets. -/
def thriceCancelled : List (OffloadAction String ℕ) :=
  [.cancel 1, .wakes, .cancel 2, .wakes, .threadEnds (.error "OSError"), .taskEnds, .propagates,
    .cancel 3, .wakes]

/-- A call that is cancelled three times ends after its write, and tells of it. -/
theorem uncancellable_thrice :
    ∃ s n, (notedOffloads String ℕ).Run (.start none, .start none) thriceCancelled (s, n) ∧
      s.waiter = .ended (.cancelled ⟨2, 3⟩) ∧ n.caught.getLast? = some ⟨2, 3⟩ := by
  have hexec : (notedOffloads String ℕ).exec (.start none, .start none) thriceCancelled =
      some (⟨some (.error "OSError"), some (.error "OSError"), .ended (.cancelled ⟨2, 3⟩), 3⟩,
        ⟨[1, 2, 3], [⟨0, 1⟩, ⟨1, 2⟩, ⟨2, 3⟩], 6⟩) := rfl
  have hrun := Machine.exec_eq_some.mp hexec
  exact ⟨_, _, hrun, rfl, ((uncancellable_finishes hrun).1 _ rfl).2.2.1 _ rfl⟩

end BellasReef.HardwareIO
