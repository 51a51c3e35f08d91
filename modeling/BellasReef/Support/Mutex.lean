import Mathlib.Data.List.Basic
import Mathlib.Logic.Function.Basic

/-!
# Support — Mutex

A lock that is not reentrant, and who holds it.  `Held l p f`: of the threads `f`, the one that the
lock `l` names is the one that is where `p` says.  The lemmas are what a thread may do: go on with
what it has, take the lock, and release it.

`Contiguous` is what a lock is for: in the trace of who did what, nobody comes between two entries
of somebody else.
-/

namespace BellasReef.Support

variable {κ α : Type*}

/-- The holder of the lock is the thread that is at one of the places of `p`. -/
def Held (l : Option κ) (p : α → Prop) (f : κ → α) : Prop := ∀ k, l = some k ↔ p (f k)

namespace Held

variable {l : Option κ} {p : α → Prop} {f : κ → α} {j k : κ} {c : α}

/-- **Mutual exclusion.** -/
theorem unique (h : Held l p f) (hj : p (f j)) (hk : p (f k)) : j = k :=
  Option.some.inj (((h j).mpr hj).symm.trans ((h k).mpr hk))

/-- Nobody holds a lock that is free. -/
theorem not_of_none (h : Held none p f) (k : κ) : ¬p (f k) := fun hk => nomatch (h k).mpr hk

/-- A thread goes on with the lock, or without it. -/
theorem keep [DecidableEq κ] (h : Held l p f) (hk : p c ↔ p (f k)) :
    Held l p (Function.update f k c) := by
  intro j
  by_cases hj : j = k
  · subst hj
    rw [Function.update_self, hk]
    exact h j
  · rw [Function.update_of_ne hj]
    exact h j

/-- A thread takes the lock, which was free. -/
theorem take [DecidableEq κ] (h : Held none p f) (hk : p c) :
    Held (some k) p (Function.update f k c) := by
  intro j
  by_cases hj : j = k
  · subst hj
    rw [Function.update_self]
    exact iff_of_true rfl hk
  · rw [Function.update_of_ne hj]
    exact iff_of_false (fun e => hj (Option.some.inj e).symm) (h.not_of_none j)

/-- A thread releases the lock. -/
theorem release [DecidableEq κ] (h : Held l p f) (hk : p (f k)) (hc : ¬p c) :
    Held none p (Function.update f k c) := by
  intro j
  by_cases hj : j = k
  · subst hj
    rw [Function.update_self]
    exact iff_of_false nofun hc
  · rw [Function.update_of_ne hj]
    exact iff_of_false nofun fun hp => hj (h.unique hp hk)

end Held

/-- Nobody comes between two entries of `k`. -/
def Contiguous (t : List κ) : Prop := ∀ j k, j ≠ k → ¬[k, j, k].Sublist t

theorem contiguous_nil : Contiguous ([] : List κ) := fun _ _ _ h => by cases h

/-- Three entries that are out of turn are so in the reverse order, too. -/
theorem sandwich_reverse {t : List κ} {j k : κ} :
    [k, j, k].Sublist t.reverse ↔ [k, j, k].Sublist t :=
  List.sublist_reverse_iff

/-- Who has the last entry, or none at all, may have the next one. -/
theorem Contiguous.snoc {t : List κ} {k : κ} (h : Contiguous t)
    (hk : k ∈ t → t.getLast? = some k) : Contiguous (t ++ [k]) := by
  intro j i hji hsub
  rw [← sandwich_reverse, List.reverse_concat] at hsub
  cases hsub with
  | cons _ hold => exact h j i hji (sandwich_reverse.mp hold)
  | cons_cons _ htail =>
      -- the new entry is a `k`, and the last one before it is, too
      have hmem : k ∈ t := List.mem_reverse.mp (htail.subset (by simp))
      obtain ⟨r, hr⟩ : ∃ r, t.reverse = k :: r := by
        rw [← List.head?_reverse] at hk
        exact List.head?_eq_some_iff.mp (hk hmem)
      rw [hr] at htail
      have hbefore := htail.of_cons_of_ne hji
      exact h j k hji (sandwich_reverse.mp (hr ▸ hbefore.cons_cons k))

end BellasReef.Support
