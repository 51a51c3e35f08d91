import Mathlib.Logic.Basic

/-!
# Support — Awaiting

A task that is suspended on a future, as asyncio has it.  A cancellation cancels the future; one
that comes when the future is done already, but the task has not gone on yet, is kept, and thrown
instead of what the future came to.  Either way the task gets one cancellation when it goes on,
however many there were: `told`.
-/

namespace BellasReef.Support

/-- The await of a future with values `α` and errors `ε`; a cancellation has a message `μ`. -/
inductive Awaiting (α ε μ : Type*) where
  | pending
  /-- The future is done.  `mustCancel` is a cancellation that came after that. -/
  | finished (o : Except ε α) (mustCancel : Option μ)
  | cancelled (msg : μ)

/-- What a task goes on with. -/
inductive Wakeup (α ε μ : Type*) where
  | returns (a : α)
  | raises (e : ε)
  | cancels (msg : μ)

namespace Awaiting

variable {α ε μ : Type*}

/-- A task suspends itself, maybe with a cancellation that it has not been thrown yet. -/
def suspend : Option μ → Awaiting α ε μ
  | none => .pending
  | some msg => .cancelled msg

/-- `Task.cancel`. -/
def cancel (msg : μ) : Awaiting α ε μ → Awaiting α ε μ
  | pending => .cancelled msg
  | finished o _ => .finished o (some msg)
  | cancelled first => .cancelled first

/-- What the task goes on with, as soon as it does. -/
def wakeup : Awaiting α ε μ → Option (Wakeup α ε μ)
  | pending => none
  | finished _ (some msg) => some (.cancels msg)
  | finished (.ok a) none => some (.returns a)
  | finished (.error e) none => some (.raises e)
  | cancelled msg => some (.cancels msg)

/-- The cancellation that the task is to be thrown. -/
def told : Awaiting α ε μ → Option μ
  | pending => none
  | finished _ msg => msg
  | cancelled msg => some msg

/-- A cancellation is never lost, though a later one may be in its place. -/
theorem told_cancel (msg : μ) (w : Awaiting α ε μ) : (w.cancel msg).told.isSome := by
  cases w <;> rfl

/-- A cancellation finishes nothing. -/
theorem finished_of_cancel {msg : μ} {w : Awaiting α ε μ} {o : Except ε α} {m : Option μ}
    (h : w.cancel msg = .finished o m) : ∃ m', w = .finished o m' := by
  cases w with
  | finished o' m' =>
      obtain ⟨rfl, -⟩ := Awaiting.finished.inj h
      exact ⟨m', rfl⟩
  | _ => cases h

theorem wakeup_cancels_iff {w : Awaiting α ε μ} {msg : μ} :
    w.wakeup = some (.cancels msg) ↔ w.told = some msg := by
  rcases w with _ | ⟨_ | _, _ | _⟩ | _ <;> simp [wakeup, told]

/-- The future's own outcome is all that can reach a task that was not cancelled. -/
theorem finished_of_wakeup {w : Awaiting α ε μ} {k : Wakeup α ε μ} (h : w.wakeup = some k)
    (hw : w.told = none) :
    ∃ o, w = .finished o none ∧ k = (match o with | .ok a => .returns a | .error e => .raises e) := by
  rcases w with _ | ⟨_ | _, _ | _⟩ | _ <;> simp_all [wakeup, told]

end Awaiting

end BellasReef.Support
