import Mathlib.Algebra.Order.Group.Basic
import Mathlib.Data.List.Infix
import Mathlib.Order.Interval.Set.Basic
import Mathlib.Tactic.Linarith

/-!
# Support — SlidingWindow

A limit of `n` events in any closed interval of length `w`, kept by a queue of the events that
still count: before each use the queue drops from its front what is more than `w` old.

* `Windowed.countP_le`: no interval of length `w` has more than `n` events.
* `Windowed.full`: a queue that is full holds the `n` events of the last `w`.
* `Windowed.freed`: it is not full any more once its first event is more than `w` old.
-/

namespace BellasReef.Support

variable {α : Type*} [AddCommGroup α] [LinearOrder α]

/-- After each event, fewer than `n` follow within `w`. -/
def Spaced (n : ℕ) (w : α) : List α → Prop
  | [] => True
  | t :: ts => ts.countP (fun u => decide (u ≤ t + w)) < n ∧ Spaced n w ts

/-- The queue without what is more than `w` old. -/
def evict (w now : α) (kept : List α) : List α :=
  kept.dropWhile fun t => decide (w < now - t)

/-- A queue that counts the events of a log for the last `w`. -/
structure Windowed (n : ℕ) (w now : α) (log kept : List α) : Prop where
  evicted : ∃ ev, log = ev ++ kept ∧ ∀ t ∈ ev, t + w < now
  sorted : log.Pairwise (· ≤ ·)
  past : ∀ t ∈ log, t ≤ now
  bounded : kept.length ≤ n
  spaced : Spaced n w log

variable {n : ℕ} {w now now' t : α} {log kept kept' ev ts : List α}

/-! ### Spacing -/

theorem spaced_of_length_le (h : log.length ≤ n) : Spaced n w log := by
  induction log with
  | nil => trivial
  | cons t ts ih =>
      refine ⟨lt_of_le_of_lt List.countP_le_length ?_, ih ?_⟩ <;> simp at h <;> omega

/-- An event that comes after the intervals of all but the last few. -/
theorem Spaced.snoc (h : Spaced n w (ev ++ kept)) (hev : ∀ t ∈ ev, t + w < now)
    (hlt : kept.length < n) : Spaced n w (ev ++ kept ++ [now]) := by
  induction ev with
  | nil => exact spaced_of_length_le (by simp; omega)
  | cons t ev ih =>
      have hout : ¬now ≤ t + w := (hev t List.mem_cons_self).not_ge
      refine ⟨?_, ih h.2 fun u hu => hev u (List.mem_cons_of_mem t hu)⟩
      rw [List.append_eq, List.countP_append, List.countP_singleton]
      simpa [hout] using h.1

/-! ### The queue -/

theorem length_evict_le (w now : α) (kept : List α) :
    (evict w now kept).length ≤ kept.length :=
  (List.dropWhile_suffix _).length_le

namespace Windowed

theorem empty : Windowed n w now [] [] :=
  ⟨⟨[], rfl, nofun⟩, .nil, nofun, Nat.zero_le n, trivial⟩

theorem later (h : Windowed n w now log kept) (hle : now ≤ now') : Windowed n w now' log kept := by
  obtain ⟨ev, hlog, hev⟩ := h.evicted
  exact ⟨⟨ev, hlog, fun t ht => (hev t ht).trans_le hle⟩, h.sorted,
    fun t ht => (h.past t ht).trans hle, h.bounded, h.spaced⟩

/-- **There is room** for an event in a queue of fewer than `n`. -/
theorem record (h : Windowed n w now log kept) (hlt : kept.length < n) :
    Windowed n w now (log ++ [now]) (kept ++ [now]) := by
  obtain ⟨ev, hlog, hev⟩ := h.evicted
  refine ⟨⟨ev, by rw [hlog, List.append_assoc], hev⟩, ?_, ?_, ?_, ?_⟩
  · refine List.pairwise_append.mpr ⟨h.sorted, List.pairwise_singleton _ _, ?_⟩
    rintro t ht u hu
    obtain rfl := List.mem_singleton.mp hu
    exact h.past t ht
  · intro t ht
    obtain ht | ht := List.mem_append.mp ht
    · exact h.past t ht
    · exact (List.mem_singleton.mp ht).le
  · simpa using Nat.succ_le_of_lt hlt
  · rw [hlog]
    exact (hlog ▸ h.spaced).snoc hev hlt

end Windowed

/-! ### The limit -/

variable [IsOrderedAddMonoid α]

theorem Spaced.countP_le (h : Spaced n w log) (x : α) :
    log.countP (fun t => decide (x ≤ t ∧ t ≤ x + w)) ≤ n := by
  induction log with
  | nil => exact Nat.zero_le n
  | cons t ts ih =>
      by_cases ht : x ≤ t ∧ t ≤ x + w
      · -- from the first event in the interval on, the interval ends before its own `w` does
        rw [List.countP_cons_of_pos (by simpa using ht)]
        refine Nat.succ_le_of_lt (lt_of_le_of_lt (List.countP_mono_left fun u _ hu => ?_) h.1)
        have hu := of_decide_eq_true hu
        exact decide_eq_true (hu.2.trans (by gcongr; exact ht.1))
      · rw [List.countP_cons_of_neg (by simpa using ht)]
        exact ih h.2

theorem evict_eq (w now : α) (kept : List α) :
    ∃ ev, kept = ev ++ evict w now kept ∧ ∀ t ∈ ev, t + w < now := by
  induction kept with
  | nil => exact ⟨[], rfl, nofun⟩
  | cons t ts ih =>
      by_cases ht : w < now - t
      · obtain ⟨ev, hts, hev⟩ := ih
        refine ⟨t :: ev, ?_, List.forall_mem_cons.mpr ⟨lt_sub_iff_add_lt'.mp ht, hev⟩⟩
        rw [evict, List.dropWhile_cons_of_pos (by simpa using ht)]
        exact congrArg (t :: ·) hts
      · exact ⟨[], by simp [evict, ht], nofun⟩

/-- What the queue begins with still counts. -/
theorem le_of_evict_eq_cons (h : evict w now kept = t :: ts) : now ≤ t + w := by
  have hhead := List.head?_dropWhile_not (fun t => decide (w < now - t)) kept
  rw [show kept.dropWhile _ = t :: ts from h] at hhead
  simpa [sub_le_iff_le_add, add_comm] using hhead

namespace Windowed

theorem evict (h : Windowed n w now log kept) :
    Windowed n w now log (Support.evict w now kept) := by
  obtain ⟨ev, hlog, hev⟩ := h.evicted
  obtain ⟨ev', hkept, hev'⟩ := evict_eq w now kept
  refine ⟨⟨ev ++ ev', ?_, ?_⟩, h.sorted, h.past, (length_evict_le _ _ _).trans h.bounded, h.spaced⟩
  · rw [List.append_assoc, ← hkept, hlog]
  · intro t ht
    obtain ht | ht := List.mem_append.mp ht
    · exact hev t ht
    · exact hev' t ht

/-- **The limit** holds in every closed interval. -/
theorem countP_le (h : Windowed n w now log kept) (x : α) :
    log.countP (fun t => decide (x ≤ t ∧ t ≤ x + w)) ≤ n :=
  h.spaced.countP_le x

/-- **What a queue has kept** at `now` is no older than `w`. -/
theorem length_le_countP (h : Windowed n w now log kept) :
    (Support.evict w now kept).length ≤
      log.countP (fun t => decide (now - w ≤ t ∧ t ≤ now)) := by
  obtain ⟨ev, hlog, -⟩ := h.evict.evicted
  rw [hlog, List.countP_append]
  refine le_add_left (le_of_eq (List.countP_eq_length.mpr fun u hu => ?_).symm)
  have hpast := h.past u (hlog ▸ List.mem_append_right ev hu)
  refine decide_eq_true ⟨?_, hpast⟩
  have hsorted := (List.pairwise_append.mp (hlog ▸ h.sorted)).2.1
  cases hk : Support.evict w now kept with
  | nil => simp [hk] at hu
  | cons t ts =>
      -- the rest of the queue is younger than its first
      have hfirst := sub_le_iff_le_add.mpr (le_of_evict_eq_cons hk)
      rw [hk] at hu hsorted
      obtain rfl | hu := List.mem_cons.mp hu
      · exact hfirst
      · exact hfirst.trans ((List.pairwise_cons.mp hsorted).1 u hu)

/-- **The wait is over** when the first event of a full queue is more than `w` old, if the log has
not grown. -/
theorem freed (h : Windowed n w now log (t :: ts)) (hfull : n ≤ (t :: ts).length)
    (h' : Windowed n w now' log kept') (hlater : t + w < now') :
    (Support.evict w now' kept').length < n := by
  obtain ⟨ev, hlog, -⟩ := h.evicted
  obtain ⟨ev', hlog', -⟩ := h'.evicted
  obtain ⟨pre, hpre⟩ : kept' <:+ t :: ts :=
    List.suffix_of_suffix_length_le ⟨ev', hlog'.symm⟩ ⟨ev, hlog.symm⟩ (h'.bounded.trans hfull)
  have hn : (t :: ts).length = n := le_antisymm h.bounded hfull
  cases pre with
  | nil =>
      obtain rfl : kept' = t :: ts := hpre
      rw [Support.evict, List.dropWhile_cons_of_pos (by simpa using lt_sub_iff_add_lt'.mpr hlater)]
      have := (List.dropWhile_suffix (l := ts) fun t => decide (w < now' - t)).length_le
      simp only [List.length_cons] at hn
      omega
  | cons u pre =>
      have hlen := congrArg List.length hpre
      have := length_evict_le w now' kept'
      simp only [List.length_append, List.length_cons] at hlen hn
      omega

end Windowed

end BellasReef.Support
