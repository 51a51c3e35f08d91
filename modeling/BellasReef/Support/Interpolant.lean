import Mathlib.Algebra.Order.Field.Basic
import Mathlib.Tactic.FieldSimp
import Mathlib.Tactic.Linarith
import Mathlib.Tactic.Ring

/-!
# Support — Interpolant

Piecewise linear interpolation on a circle.  Knots stand at integer positions in order; each pair
of neighbours bounds a segment, and the last and the first bound the one that wraps.

* `OnCircle.covers`: every position is at some offset of some segment.
* `Interpolates.on_closed`, `Interpolates.at_knot`, `Interpolates.between`: a function that
  interpolates on each segment up to its end does so at the end, too, takes every knot's value at
  its position, and stays between the neighbours around.
* `Interpolates.step`: from a position to the next, it changes by the slope of the segment there.
-/

namespace BellasReef.Support

variable {κ K : Type*}

/-- The knots in pairs: each and the next, then the last and the first. -/
def cyclicPairs : List κ → List (κ × κ)
  | [] => []
  | k :: ks => (k :: ks).zip ks ++ [((k :: ks).getLast (List.cons_ne_nil k ks), k)]

/-- Two knots or more, in order on a circle of length `n`. -/
structure OnCircle (n : ℤ) (pos : κ → ℤ) (ks : List κ) : Prop where
  ascending : ks.Pairwise fun a b => pos a < pos b
  bounded : ∀ k ∈ ks, 0 ≤ pos k ∧ pos k < n
  two : 2 ≤ ks.length

/-- The length of a segment. -/
def gap (n : ℤ) (pos : κ → ℤ) (s : κ × κ) : ℤ := (pos s.2 - pos s.1) % n

/-- A position is on a segment, up to its end. -/
abbrev OnSegment (n : ℤ) (pos : κ → ℤ) (s : κ × κ) (t : ℤ) : Prop :=
  ∃ e, 0 ≤ e ∧ e < gap n pos s ∧ t = (pos s.1 + e) % n

/-- On every segment up to its end, `f` is linear between the values of its knots. -/
structure Interpolates [Field K] (n : ℤ) (pos : κ → ℤ) (val : κ → K) (ks : List κ) (f : ℤ → K) :
    Prop where
  on : ∀ s ∈ cyclicPairs ks, ∀ e, 0 ≤ e → e < gap n pos s →
    f ((pos s.1 + e) % n) = val s.1 + (val s.2 - val s.1) * (e / gap n pos s)

variable {n t : ℤ} {pos : κ → ℤ} {k : κ} {ks : List κ} {s : κ × κ}

/-! ### Neighbours -/

theorem adjacent_bounds (h : (k :: ks).Pairwise fun a b => pos a < pos b)
    (hs : s ∈ (k :: ks).zip ks) :
    pos k ≤ pos s.1 ∧ pos s.1 < pos s.2 ∧
      pos s.2 ≤ pos ((k :: ks).getLast (List.cons_ne_nil k ks)) := by
  induction ks generalizing k with
  | nil => simp at hs
  | cons b ks ih =>
      obtain ⟨hk, htail⟩ := List.pairwise_cons.mp h
      have hkb := hk b List.mem_cons_self
      rw [List.getLast_cons (List.cons_ne_nil b ks)]
      obtain rfl | hs := List.mem_cons.mp hs
      · refine ⟨le_rfl, hkb, ?_⟩
        obtain hlast | hlast := List.mem_cons.mp (List.getLast_mem (List.cons_ne_nil b ks))
        · exact (congrArg pos hlast).ge
        · exact ((List.pairwise_cons.mp htail).1 _ hlast).le
      · obtain ⟨h1, h2, h3⟩ := ih htail hs
        exact ⟨hkb.le.trans h1, h2, h3⟩

/-- Between the first and the last, a position is between two neighbours. -/
theorem exists_adjacent (hlo : pos k ≤ t)
    (hhi : t < pos ((k :: ks).getLast (List.cons_ne_nil k ks))) :
    ∃ s ∈ (k :: ks).zip ks, pos s.1 ≤ t ∧ t < pos s.2 := by
  induction ks generalizing k with
  | nil => exact absurd hhi (not_lt.mpr hlo)
  | cons b ks ih =>
      rw [List.getLast_cons (List.cons_ne_nil b ks)] at hhi
      by_cases hb : pos b ≤ t
      · obtain ⟨s, hs, ht⟩ := ih hb hhi
        exact ⟨s, List.mem_cons_of_mem _ hs, ht⟩
      · exact ⟨(k, b), List.mem_cons_self, hlo, not_le.mp hb⟩

/-- And between no other two. -/
theorem find_adjacent (h : (k :: ks).Pairwise fun a b => pos a < pos b)
    (hs : s ∈ (k :: ks).zip ks) (hlo : pos s.1 ≤ t) (hhi : t < pos s.2) :
    ((k :: ks).zip ks).find? (fun s => decide (pos s.1 ≤ t ∧ t < pos s.2)) = some s := by
  induction ks generalizing k with
  | nil => simp at hs
  | cons b ks ih =>
      rw [List.zip_cons_cons]
      obtain rfl | hs := List.mem_cons.mp hs
      · exact List.find?_cons_of_pos (decide_eq_true ⟨hlo, hhi⟩)
      · obtain ⟨-, htail⟩ := List.pairwise_cons.mp h
        have hb := (adjacent_bounds htail hs).1.trans hlo
        rw [List.find?_cons_of_neg (by simpa using fun _ => hb)]
        exact ih htail hs

/-- Every knot begins a segment. -/
theorem exists_cyclicPair (hk : k ∈ ks) : ∃ b, (k, b) ∈ cyclicPairs ks := by
  cases ks with
  | nil => cases hk
  | cons a ks =>
      have hnext : k = (a :: ks).getLast (List.cons_ne_nil a ks) ∨
          ∃ b, (k, b) ∈ (a :: ks).zip ks := by
        induction ks generalizing a with
        | nil => exact .inl (by simpa using hk)
        | cons b ks ih =>
            rw [List.getLast_cons (List.cons_ne_nil b ks)]
            obtain rfl | hk := List.mem_cons.mp hk
            · exact .inr ⟨b, List.mem_cons_self⟩
            · exact (ih b hk).imp_right fun ⟨c, hc⟩ => ⟨c, List.mem_cons_of_mem _ hc⟩
      obtain rfl | ⟨b, hb⟩ := hnext
      · exact ⟨a, List.mem_append_right _ (List.mem_singleton.mpr rfl)⟩
      · exact ⟨b, List.mem_append_left _ hb⟩

theorem mem_of_cyclicPair (hs : s ∈ cyclicPairs ks) : s.1 ∈ ks ∧ s.2 ∈ ks := by
  cases ks with
  | nil => cases hs
  | cons k ks =>
      obtain hs | hs := List.mem_append.mp hs
      · obtain ⟨h1, h2⟩ := List.of_mem_zip hs
        exact ⟨h1, List.mem_cons_of_mem k h2⟩
      · obtain rfl := List.mem_singleton.mp hs
        exact ⟨List.getLast_mem _, List.mem_cons_self⟩

/-! ### Segments -/

namespace OnCircle

theorem first_lt_last (h : OnCircle n pos (k :: ks)) :
    pos k < pos ((k :: ks).getLast (List.cons_ne_nil k ks)) := by
  cases ks with
  | nil => exact absurd h.two (by simp)
  | cons b ks =>
      rw [List.getLast_cons (List.cons_ne_nil b ks)]
      exact (List.pairwise_cons.mp h.ascending).1 _ (List.getLast_mem _)

theorem gap_adjacent (h : OnCircle n pos (k :: ks)) (hs : s ∈ (k :: ks).zip ks) :
    gap n pos s = pos s.2 - pos s.1 := by
  obtain ⟨hlo, hlt, hhi⟩ := adjacent_bounds h.ascending hs
  have hfirst := h.bounded k List.mem_cons_self
  have hlast := h.bounded _ (List.getLast_mem (List.cons_ne_nil k ks))
  exact Int.emod_eq_of_lt (by omega) (by omega)

theorem gap_wrap (h : OnCircle n pos (k :: ks)) :
    gap n pos ((k :: ks).getLast (List.cons_ne_nil k ks), k) =
      pos k + n - pos ((k :: ks).getLast (List.cons_ne_nil k ks)) := by
  have hlt := h.first_lt_last
  have hfirst := h.bounded k List.mem_cons_self
  have hlast := h.bounded _ (List.getLast_mem (List.cons_ne_nil k ks))
  simp only [gap]
  rw [← Int.add_emod_right, Int.emod_eq_of_lt (by omega) (by omega)]
  omega

theorem gap_pos (h : OnCircle n pos ks) (hs : s ∈ cyclicPairs ks) : 0 < gap n pos s := by
  cases ks with
  | nil => cases hs
  | cons k ks =>
      obtain hs | hs := List.mem_append.mp hs
      · rw [h.gap_adjacent hs]
        have := (adjacent_bounds h.ascending hs).2.1
        omega
      · obtain rfl := List.mem_singleton.mp hs
        rw [h.gap_wrap]
        have hfirst := h.bounded k List.mem_cons_self
        have hlast := h.bounded _ (List.getLast_mem (List.cons_ne_nil k ks))
        omega

/-- **Every position is on a segment.** -/
theorem covers (h : OnCircle n pos ks) (h0 : 0 ≤ t) (hn : t < n) :
    ∃ s ∈ cyclicPairs ks, OnSegment n pos s t := by
  cases ks with
  | nil => exact absurd h.two (by simp)
  | cons k ks =>
      have hfirst := h.bounded k List.mem_cons_self
      have hlast := h.bounded _ (List.getLast_mem (List.cons_ne_nil k ks))
      have hwrap := List.mem_append_right ((k :: ks).zip ks)
        (List.mem_singleton.mpr (rfl : ((k :: ks).getLast (List.cons_ne_nil k ks), k) = _))
      obtain hlo | hlo := lt_or_ge t (pos k)
      · -- past midnight, before the first
        refine ⟨_, hwrap, t + n - pos ((k :: ks).getLast (List.cons_ne_nil k ks)), ?_, ?_, ?_⟩
        · omega
        · rw [h.gap_wrap]; omega
        · rw [show ∀ a : ℤ, a + (t + n - a) = t + n by intro a; ring, Int.add_emod_right,
            Int.emod_eq_of_lt h0 hn]
      · obtain hhi | hhi := lt_or_ge t (pos ((k :: ks).getLast (List.cons_ne_nil k ks)))
        · obtain ⟨s, hs, hslo, hshi⟩ := exists_adjacent hlo hhi
          refine ⟨s, List.mem_append_left _ hs, t - pos s.1, by omega, ?_, ?_⟩
          · rw [h.gap_adjacent hs]; omega
          · rw [add_sub_cancel, Int.emod_eq_of_lt h0 hn]
        · refine ⟨_, hwrap, t - pos ((k :: ks).getLast (List.cons_ne_nil k ks)), by omega, ?_, ?_⟩
          · rw [h.gap_wrap]; omega
          · rw [add_sub_cancel, Int.emod_eq_of_lt h0 hn]

/-- A segment ends where its second knot stands. -/
theorem end_eq (h : OnCircle n pos ks) (hs : s ∈ cyclicPairs ks) :
    (pos s.1 + gap n pos s) % n = pos s.2 := by
  obtain ⟨h0, hn⟩ := h.bounded s.2 (mem_of_cyclicPair hs).2
  rw [gap, Int.add_emod_emod, add_sub_cancel, Int.emod_eq_of_lt h0 hn]

end OnCircle

/-! ### Interpolation -/

variable [Field K] {val : κ → K} {f : ℤ → K}

/-- The slope of a segment, for a step of one position. -/
def slope (n : ℤ) (pos : κ → ℤ) (val : κ → K) (s : κ × κ) : K :=
  (val s.2 - val s.1) / gap n pos s

namespace Interpolates

theorem at_knot (hf : Interpolates n pos val ks f) (h : OnCircle n pos ks) (hk : k ∈ ks) :
    f (pos k) = val k := by
  obtain ⟨b, hb⟩ := exists_cyclicPair hk
  have hon := hf.on (k, b) hb 0 le_rfl (h.gap_pos hb)
  obtain ⟨h0, hn⟩ := h.bounded k hk
  rwa [add_zero, Int.emod_eq_of_lt h0 hn, Int.cast_zero, zero_div, mul_zero, add_zero] at hon

variable [LinearOrder K] [IsStrictOrderedRing K]

/-- At the end of a segment, the next begins at the same value. -/
theorem on_closed (hf : Interpolates n pos val ks f) (h : OnCircle n pos ks)
    (hs : s ∈ cyclicPairs ks) {e : ℤ} (h0 : 0 ≤ e) (he : e ≤ gap n pos s) :
    f ((pos s.1 + e) % n) = val s.1 + slope n pos val s * e := by
  have hpos : (0 : K) < gap n pos s := by exact_mod_cast h.gap_pos hs
  obtain hlt | rfl := he.lt_or_eq
  · rw [hf.on s hs e h0 hlt, slope]
    ring
  · rw [h.end_eq hs, hf.at_knot h (mem_of_cyclicPair hs).2, slope, div_mul_cancel₀ _ hpos.ne']
    ring

theorem between (hf : Interpolates n pos val ks f) (h : OnCircle n pos ks) (h0 : 0 ≤ t)
    (hn : t < n) :
    ∃ s ∈ cyclicPairs ks, OnSegment n pos s t ∧
      min (val s.1) (val s.2) ≤ f t ∧ f t ≤ max (val s.1) (val s.2) := by
  obtain ⟨s, hs, e, he0, he, rfl⟩ := h.covers h0 hn
  have hpos : (0 : K) < gap n pos s := by exact_mod_cast h.gap_pos hs
  have hx0 : 0 ≤ (e : K) / gap n pos s := div_nonneg (by exact_mod_cast he0) hpos.le
  have hx1 : (e : K) / gap n pos s ≤ 1 := (div_le_one hpos).mpr (by exact_mod_cast he.le)
  refine ⟨s, hs, ⟨e, he0, he, rfl⟩, ?_, ?_⟩ <;> rw [hf.on s hs e he0 he]
  · obtain hle | hle := le_total (val s.1) (val s.2)
    · rw [min_eq_left hle]
      nlinarith
    · rw [min_eq_right hle]
      nlinarith
  · obtain hle | hle := le_total (val s.1) (val s.2)
    · rw [max_eq_right hle]
      nlinarith
    · rw [max_eq_left hle]
      nlinarith

/-- **One step** is the slope of the segment it begins on, around the end of the circle, too. -/
theorem step (hf : Interpolates n pos val ks f) (h : OnCircle n pos ks) (h0 : 0 ≤ t)
    (hn : t < n) :
    ∃ s ∈ cyclicPairs ks, OnSegment n pos s t ∧ f ((t + 1) % n) - f t = slope n pos val s := by
  obtain ⟨s, hs, e, he0, he, rfl⟩ := h.covers h0 hn
  refine ⟨s, hs, ⟨e, he0, he, rfl⟩, ?_⟩
  have hnext := hf.on_closed h hs (by omega : 0 ≤ e + 1) (by omega)
  rw [Int.emod_add_emod, add_assoc, hnext, hf.on_closed h hs he0 he.le]
  push_cast
  ring

end Interpolates

end BellasReef.Support
