import Mathlib.Algebra.Order.Group.Abs
import Mathlib.Algebra.Order.Group.MinMax
import Mathlib.Order.Interval.Set.UnorderedInterval

/-!
# Support — Slew

A value moving towards a target by bounded steps, over an ordered group.  `toward` is the next
value; it moves by the smaller of the distance and the allowance (`abs_toward_sub`), stays between
where it was and where it is to go (`toward_mem_uIcc`), and arrives when the distance is within the
allowance (`toward_eq_target_iff`).
-/

namespace BellasReef.Support

variable {K : Type*} [AddCommGroup K] [LinearOrder K] {allowed prev target : K}

/-- From `prev` towards `target`, by at most `allowed`. -/
def toward (allowed prev target : K) : K :=
  if |target - prev| ≤ allowed then target
  else if prev < target then prev + allowed else prev - allowed

theorem toward_eq_target (h : |target - prev| ≤ allowed) : toward allowed prev target = target :=
  if_pos h

variable [IsOrderedAddMonoid K]

/-- **A step moves by the distance or the allowance**, whichever is smaller. -/
theorem abs_toward_sub (ha : 0 ≤ allowed) :
    |toward allowed prev target - prev| = min |target - prev| allowed := by
  by_cases h : |target - prev| ≤ allowed
  · rw [toward_eq_target h, min_eq_left h]
  · rw [min_eq_right (le_of_not_ge h), toward, if_neg h]
    split
    · rw [add_sub_cancel_left, abs_of_nonneg ha]
    · rw [sub_sub_cancel_left, abs_neg, abs_of_nonneg ha]

theorem abs_toward_sub_le (ha : 0 ≤ allowed) : |toward allowed prev target - prev| ≤ allowed :=
  (abs_toward_sub ha).trans_le (min_le_right _ _)

/-- **It arrives exactly when the target is within the allowance.** -/
theorem toward_eq_target_iff (ha : 0 ≤ allowed) :
    toward allowed prev target = target ↔ |target - prev| ≤ allowed := by
  refine ⟨fun h => ?_, toward_eq_target⟩
  have hmin : |toward allowed prev target - prev| = _ := abs_toward_sub ha
  rw [h] at hmin
  exact hmin.trans_le (min_le_right _ _)

/-- **It goes no further than the target.** -/
theorem toward_mem_uIcc (ha : 0 ≤ allowed) :
    toward allowed prev target ∈ Set.uIcc prev target := by
  by_cases h : |target - prev| ≤ allowed
  · rw [toward_eq_target h]
    exact Set.right_mem_uIcc
  · rw [toward, if_neg h]
    have h := lt_of_not_ge h
    split
    · next hlt =>
        rw [abs_of_pos (sub_pos.mpr hlt)] at h
        exact Set.mem_uIcc_of_le (le_add_of_nonneg_right ha) (lt_sub_iff_add_lt'.mp h).le
    · next hle =>
        have hle := le_of_not_gt hle
        rw [abs_sub_comm, abs_of_nonneg (sub_nonneg.mpr hle)] at h
        exact Set.mem_uIcc_of_ge (lt_sub_comm.mp h).le (sub_le_self _ ha)

/-- Short of the target, the distance shrinks by the whole allowance. -/
theorem abs_sub_toward (h : allowed < |target - prev|) :
    |target - toward allowed prev target| = |target - prev| - allowed := by
  rw [toward, if_neg (not_le.mpr h)]
  split
  · next hlt =>
      have hpos := sub_pos.mpr hlt
      rw [abs_of_pos hpos] at h ⊢
      rw [← sub_sub, abs_of_pos (sub_pos.mpr h)]
  · next hle =>
      have hle := sub_nonneg.mpr (le_of_not_gt hle)
      rw [abs_sub_comm, abs_of_nonneg hle] at h
      rw [abs_sub_comm, sub_right_comm, abs_of_pos (sub_pos.mpr h), abs_sub_comm, abs_of_nonneg hle]

theorem toward_zero : toward 0 prev target = prev := by
  have h : |toward 0 prev target - prev| ≤ 0 := abs_toward_sub_le (le_refl 0)
  exact sub_eq_zero.mp (abs_nonpos_iff.mp h)

end BellasReef.Support
