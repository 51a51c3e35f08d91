import Mathlib.Algebra.Order.Group.Basic
import Mathlib.Algebra.Order.Group.Defs
import Mathlib.Data.List.Basic

/-!
# Support — Paced

Something that is done in the passes of a loop, with a time that it is due at: in a pass that finds
it due it is done, and it is due again an interval after that pass.

* `gated`: the passes in which it is done, of all the passes.
* `gated_spaced`: they are an interval apart.
* `lt_headD`: no pass finds the last of them an interval old and leaves it so.

A guard looks at the loop from outside: `Guarded.le` says how long ago the last pass can have begun
while the guard has found none missing.
-/

namespace BellasReef.Support.Paced

variable {α : Type*} [AddCommGroup α] [LinearOrder α] [IsOrderedAddMonoid α]

/-- When it is due, after it was done in these passes, the newest first. -/
def dueAfter (start interval : α) : List α → α
  | [] => start
  | done :: _ => done + interval

/-- The passes that find it due, of these; the newest first. -/
def gated (start interval : α) : List α → List α
  | [] => []
  | pass :: passes =>
      if dueAfter start interval (gated start interval passes) ≤ pass then
        pass :: gated start interval passes
      else gated start interval passes

variable {start interval pass now : α} {passes : List α}

omit [IsOrderedAddMonoid α] in
theorem gated_cons_of_le (h : dueAfter start interval (gated start interval passes) ≤ pass) :
    gated start interval (pass :: passes) = pass :: gated start interval passes := if_pos h

omit [IsOrderedAddMonoid α] in
theorem gated_cons_of_lt (h : pass < dueAfter start interval (gated start interval passes)) :
    gated start interval (pass :: passes) = gated start interval passes := if_neg h.not_ge

omit [IsOrderedAddMonoid α] in
/-- When it is due after one more pass. -/
theorem dueAfter_cons : dueAfter start interval (gated start interval (pass :: passes)) =
    if dueAfter start interval (gated start interval passes) ≤ pass then pass + interval
    else dueAfter start interval (gated start interval passes) := by
  by_cases h : dueAfter start interval (gated start interval passes) ≤ pass
  · rw [gated_cons_of_le h, if_pos h]
    rfl
  · rw [gated_cons_of_lt (not_le.mp h), if_neg h]

omit [IsOrderedAddMonoid α] in
/-- It is done in passes, and in their order. -/
theorem gated_sublist : (gated start interval passes).Sublist passes := by
  induction passes with
  | nil => exact .slnil
  | cons pass passes ih =>
      by_cases h : dueAfter start interval (gated start interval passes) ≤ pass
      · rw [gated_cons_of_le h]
        exact ih.cons_cons pass
      · rw [gated_cons_of_lt (not_le.mp h)]
        exact ih.cons pass

/-- Two of the passes that it is done in are at least an interval apart. -/
theorem gated_spaced (hinterval : 0 ≤ interval) : (gated start interval passes).Pairwise
    fun later earlier => earlier + interval ≤ later := by
  induction passes with
  | nil => exact .nil
  | cons pass passes ih =>
      by_cases h : dueAfter start interval (gated start interval passes) ≤ pass
      · rw [gated_cons_of_le h]
        refine List.pairwise_cons.mpr ⟨fun earlier hmem => ?_, ih⟩
        cases hg : gated start interval passes with
        | nil =>
            rw [hg] at hmem
            cases hmem
        | cons done rest =>
            rw [hg] at h hmem ih
            obtain rfl | hmem := List.mem_cons.mp hmem
            · exact h
            · have hle : earlier + interval ≤ done := (List.pairwise_cons.mp ih).1 earlier hmem
              exact hle.trans ((le_add_of_nonneg_right hinterval).trans h)
      · rw [gated_cons_of_lt (not_le.mp h)]
        exact ih

/-- After a pass it is due later than the pass. -/
theorem lt_dueAfter (hinterval : 0 < interval) :
    pass < dueAfter start interval (gated start interval (pass :: passes)) := by
  rw [dueAfter_cons]
  split
  · exact lt_add_of_pos_right pass hinterval
  · next h => exact not_le.mp h

omit [IsOrderedAddMonoid α] in
/-- Where every pass is late enough, it is done in the first. -/
theorem gated_ne_nil (hstart : ∀ p ∈ passes, start ≤ p) (hne : passes ≠ []) :
    gated start interval passes ≠ [] := by
  induction passes with
  | nil => exact absurd rfl hne
  | cons pass passes ih =>
      cases passes with
      | nil =>
          rw [gated_cons_of_le (hstart pass List.mem_cons_self)]
          exact List.cons_ne_nil _ _
      | cons p ps =>
          have hrest := ih (fun q hq => hstart q (List.mem_cons_of_mem _ hq)) (List.cons_ne_nil _ _)
          by_cases h : dueAfter start interval (gated start interval (p :: ps)) ≤ pass
          · rw [gated_cons_of_le h]
            exact List.cons_ne_nil _ _
          · rw [gated_cons_of_lt (not_le.mp h)]
            exact hrest

/-- **What is due is not late.**  Where the last pass is not older than `stall`, the last of those
that it was done in is younger than the interval and a stall; `first` stands for both before any. -/
theorem lt_headD {first stall : α} (hinterval : 0 < interval) (hstart : ∀ p ∈ passes, start ≤ p)
    (hnow : now ≤ passes.headD first + stall) :
    now < (gated start interval passes).headD first + interval + stall := by
  cases passes with
  | nil =>
      calc now ≤ first + stall := hnow
        _ < first + interval + stall := add_lt_add_left (lt_add_of_pos_right first hinterval) stall
  | cons pass passes =>
      cases hg : gated start interval (pass :: passes) with
      | nil => exact absurd hg (gated_ne_nil hstart (List.cons_ne_nil _ _))
      | cons done rest =>
          have hdue : pass < dueAfter start interval (gated start interval (pass :: passes)) :=
            lt_dueAfter hinterval
          rw [hg] at hdue
          calc now ≤ pass + stall := hnow
            _ < done + interval + stall := add_lt_add_left hdue stall

section Logs
variable {β : Type*} {log : List (α × β)} {p : β → Bool} {b : β}

/-- The passes of a log that it was done in. -/
def doneIn (p : β → Bool) (log : List (α × β)) : List α :=
  (log.filter fun entry => p entry.2).map Prod.fst

omit [IsOrderedAddMonoid α] in
/-- One more pass, in which it is done if it is due. -/
theorem doneIn_cons (h : doneIn p log = gated start interval (log.map Prod.fst))
    (hdone : p b = true ↔
      dueAfter start interval (gated start interval (log.map Prod.fst)) ≤ pass) :
    doneIn p ((pass, b) :: log) = gated start interval (((pass, b) :: log).map Prod.fst) := by
  by_cases hp : p b = true
  · rw [List.map_cons, gated_cons_of_le (hdone.mp hp), ← h]
    simp [doneIn, hp]
  · rw [List.map_cons, gated_cons_of_lt (not_le.mp (mt hdone.mpr hp)), ← h]
    simp [doneIn, hp]

end Logs

/-! ### A guard -/

/-- A guard that looks at the last beat once in a while, and has found it no older than `timeout`;
`lag` is how long after one look the next is over. -/
structure Guarded (timeout lag lastBeat lookedAt now : α) : Prop where
  found : lookedAt ≤ lastBeat + timeout
  looking : now ≤ lookedAt + lag

variable {timeout lag lastBeat lookedAt : α}

/-- The last beat is not older than this. -/
theorem Guarded.le (h : Guarded timeout lag lastBeat lookedAt now) :
    now ≤ lastBeat + (timeout + lag) := by
  calc now ≤ lookedAt + lag := h.looking
    _ ≤ lastBeat + timeout + lag := add_le_add_left h.found lag
    _ = lastBeat + (timeout + lag) := add_assoc _ _ _

/-- A beat, now or later. -/
theorem Guarded.beat {lastBeat' : α} (h : Guarded timeout lag lastBeat lookedAt now)
    (hbeat : lastBeat ≤ lastBeat') : Guarded timeout lag lastBeat' lookedAt now where
  found := h.found.trans (add_le_add_left hbeat timeout)
  looking := h.looking

/-- A look that finds the last beat. -/
theorem Guarded.look (hlag : 0 ≤ lag) (hfound : now - lastBeat ≤ timeout) :
    Guarded timeout lag lastBeat now now where
  found := sub_le_iff_le_add'.mp hfound
  looking := le_add_of_nonneg_right hlag

end BellasReef.Support.Paced
