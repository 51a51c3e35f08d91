import Mathlib.Data.List.Basic

/-!
# Support — Rerun

Writes of a list, one after the other, each with an answer.  A write is `Settled` when it changes
nothing.

* `settled_run`: a run settles each of its writes, where a write settles itself and no other
  unsettles it.
* `run_of_settled`: writes that are settled change nothing, together.
* `rerun`: such a list, run again, changes nothing, and what it is answered is known.
-/

namespace BellasReef.Support.Rerun

variable {σ ε α : Type*}

/-- The writes of a list, and their answers. -/
def run (write : σ → ε → σ × α) : σ → List ε → σ × List α
  | s, [] => (s, [])
  | s, e :: es => ((run write (write s e).1 es).1, (write s e).2 :: (run write (write s e).1 es).2)

/-- The write changes nothing, and is answered so. -/
def Settled (write : σ → ε → σ × α) (s : σ) (e : ε) (a : α) : Prop := write s e = (s, a)

variable {write : σ → ε → σ × α} {s : σ} {e : ε} {es : List ε} {a : α} {as : List α}

theorem run_of_settled (h : List.Forall₂ (Settled write s) es as) : run write s es = (s, as) := by
  induction h with
  | nil => rfl
  | cons hsettled _ ih => rw [run, hsettled, ih]

section Settling
variable {I : σ → Prop} {Apart : ε → ε → Prop} {again : ε → α → α}

/-- A settled write stays so, where none of the list unsettles it. -/
theorem Settled.stays (hinv : ∀ s e, I s → I (write s e).1)
    (hkeep : ∀ s e e' a, I s → Apart e e' → Settled write s e a → Settled write (write s e').1 e a)
    (hs : I s) (hapart : ∀ e' ∈ es, Apart e e') (h : Settled write s e a) :
    Settled write (run write s es).1 e a := by
  induction es generalizing s with
  | nil => exact h
  | cons e' es ih =>
      obtain ⟨hhead, htail⟩ := List.forall_mem_cons.mp hapart
      exact ih (hinv s e' hs) htail (hkeep s e e' a hs hhead h)

/-- A run settles its writes. -/
theorem settled_run (hinv : ∀ s e, I s → I (write s e).1)
    (hsettles : ∀ s e, I s → Settled write (write s e).1 e (again e (write s e).2))
    (hkeep : ∀ s e e' a, I s → Apart e e' → Settled write s e a → Settled write (write s e').1 e a)
    (hs : I s) (hapart : es.Pairwise Apart) :
    List.Forall₂ (Settled write (run write s es).1) es
      (List.zipWith again es (run write s es).2) := by
  induction es generalizing s with
  | nil => exact .nil
  | cons e es ih =>
      obtain ⟨hhead, htail⟩ := List.pairwise_cons.mp hapart
      have hs' := hinv s e hs
      have hsettled := (hsettles s e hs).stays hinv hkeep hs' hhead
      exact .cons hsettled (ih hs' htail)

/-- **Run again, it changes nothing.** -/
theorem rerun (hinv : ∀ s e, I s → I (write s e).1)
    (hsettles : ∀ s e, I s → Settled write (write s e).1 e (again e (write s e).2))
    (hkeep : ∀ s e e' a, I s → Apart e e' → Settled write s e a → Settled write (write s e').1 e a)
    (hs : I s) (hapart : es.Pairwise Apart) :
    run write (run write s es).1 es =
      ((run write s es).1, List.zipWith again es (run write s es).2) :=
  run_of_settled (settled_run hinv hsettles hkeep hs hapart)

end Settling

end BellasReef.Support.Rerun
