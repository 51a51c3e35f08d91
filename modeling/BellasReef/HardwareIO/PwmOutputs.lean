import BellasReef.HardwareIO.Drivers
import BellasReef.Support.Binary64

/-!
# HardwareIO — PwmOutputs

What the two PWM drivers put on their chips: `duty_to_counts` (`pca9685.py`), the pair of register
values with its full-on and full-off codes, and `duty_to_ns` (`pipwm.py`), an on-time in
nanoseconds.  One rounds to the nearest count, the other truncates, and the supervisor compares
the level that neither has rounded.

* `pwm_outputs_agree`: from a period of 13 ns on, the three call the same duties dark, those below
  `MIN_USABLE_DUTY`; above it a pin is on for some time and never for longer than the period, and
  more duty is not less time.
* `dutyToNs_eq_zero_iff` has the exact on-time, and `dark_at_twelve` why 13 is the least period.
-/

namespace BellasReef.HardwareIO
open BellasReef.Contracts BellasReef.Support

/-! ### PCA9685 -/

/-- `_FULL`: the bit of a register's high byte that overrides its counts. -/
def full : ℕ := 0x10

/-- `_COUNTS`. -/
def counts : ℕ := 4096

/-- A channel's `(on_count, off_count)`. -/
abbrev Counts := ℕ × ℕ

/-- The counts of a channel that is off. -/
def fullOff : Counts := (0, full <<< 8)

/-- The 13th bit of the off count: full off, whatever the counts are. -/
def IsFullOff (c : Counts) : Prop := c.2.testBit 12 = true

instance : DecidablePred IsFullOff := fun _ => inferInstanceAs (Decidable (_ = _))

/-- The counts of a channel that is on. -/
def fullOn : Counts := (full <<< 8, 0)

/-- `duty_to_counts`. -/
def dutyToCounts (duty : Duty) : Counts :=
  let snapped := (snapDuty duty).1
  if snapped ≤ 0 then fullOff
  else if 1 ≤ snapped then fullOn
  else (0, min (roundEven (snapped * counts)).toNat (counts - 1))

/-- How many of the 4096 counts the chip holds the output on: its full-off bit wins, then its
full-on bit, then the two edges. -/
def onCounts (c : Counts) : ℕ :=
  if c.2.testBit 12 then 0
  else if c.1.testBit 12 then counts
  else c.2 - c.1

/-! ### RP1 -/

/-- `DEFAULT_PERIOD_NS`. -/
def defaultPeriodNs : ℕ := 2000000

/-- `duty_to_ns`: what `int` keeps of a product that is not negative. -/
def dutyToNs (duty : Duty) (periodNs : ℕ) : ℕ :=
  ⌊(snapDuty duty).1 * periodNs⌋₊

/-! ### The band -/

variable {d e : Duty}

theorem minUsableDuty_pos : 0 < minUsableDuty := by
  norm_num [minUsableDuty]

/-- A larger duty stays larger. -/
theorem snapDuty_mono (h : d.1 ≤ e.1) : (snapDuty d).1 ≤ (snapDuty e).1 := by
  obtain hd | hd := lt_or_ge d.1 minUsableDuty
  · rw [snapDuty_of_lt hd]
    exact (snapDuty e).2.1
  · rw [snapDuty_of_le hd, snapDuty_of_le (hd.trans h)]
    exact h

/-- A duty is dark if it is below the usable ones. -/
theorem snapDuty_eq_zero_iff : snapDuty d = Duty.zero ↔ d.1 < minUsableDuty := by
  refine ⟨fun h => ?_, snapDuty_of_lt⟩
  by_contra hd
  rw [snapDuty_of_le (not_lt.mp hd)] at h
  exact hd (h ▸ minUsableDuty_pos)

/-- Neither driver registers anything but dark as safe, and both snap before the comparison. -/
theorem effectiveLevel_eq_safeState_iff (p : PwmDriver) :
    p.channel.effectiveLevel (.pwm d) = some (lightRegistration p).safeState ↔
      d.1 < minUsableDuty := by
  rw [← snapDuty_eq_zero_iff]
  cases p <;> simp [PwmDriver.channel, pca9685Channel, piPwmChannel, pwmEffectiveLevel,
    lightRegistration]

/-! ### Counts -/

/-- A dark duty is full off. -/
theorem dutyToCounts_dark (h : d.1 < minUsableDuty) : dutyToCounts d = fullOff := by
  rw [dutyToCounts, snapDuty_of_lt h]
  exact if_pos le_rfl

/-- **A usable duty** is the full-on code or a count of its own. -/
theorem dutyToCounts_lit (h : minUsableDuty ≤ d.1) :
    dutyToCounts d = fullOn ∨ ∃ n, 1 ≤ n ∧ n ≤ 4095 ∧ dutyToCounts d = (0, n) := by
  have hpos : ¬d.1 ≤ 0 := not_le.mpr (minUsableDuty_pos.trans_le h)
  simp only [dutyToCounts, snapDuty_of_le h, if_neg hpos]
  split
  · exact .inl rfl
  · have hone : 1 ≤ roundEven (d.1 * counts) := by
      refine le_roundEven ?_
      norm_num [minUsableDuty, counts] at h ⊢
      linarith
    exact .inr ⟨_, by simp only [counts] at hone ⊢; omega, min_le_right _ _, rfl⟩

@[simp]
theorem onCounts_fullOff : onCounts fullOff = 0 := rfl

@[simp]
theorem onCounts_fullOn : onCounts fullOn = counts := rfl

theorem onCounts_counted {n : ℕ} (h : n ≤ counts - 1) : onCounts (0, n) = n := by
  have hbit : n.testBit 12 = false := Nat.testBit_lt_two_pow (by simp only [counts] at h; omega)
  simp [onCounts, hbit]

/-- **More duty is not fewer counts.** -/
theorem onCounts_mono (h : d.1 ≤ e.1) : onCounts (dutyToCounts d) ≤ onCounts (dutyToCounts e) := by
  have hsnap := snapDuty_mono h
  have hround : roundEven ((snapDuty d).1 * counts) ≤ roundEven ((snapDuty e).1 * counts) :=
    roundEven_mono (mul_le_mul_of_nonneg_right hsnap (Nat.cast_nonneg _))
  by_cases hd : (snapDuty d).1 ≤ 0
  · simp [dutyToCounts, hd]
  have he : ¬(snapDuty e).1 ≤ 0 := fun he => hd (hsnap.trans he)
  by_cases htop : 1 ≤ (snapDuty e).1
  · -- nothing is on for longer than the full-on code
    rw [show dutyToCounts e = fullOn by simp only [dutyToCounts, if_neg he, if_pos htop],
      onCounts_fullOn]
    simp only [dutyToCounts, if_neg hd]
    split
    · exact le_rfl
    · rw [onCounts_counted (min_le_right _ _)]
      simp only [counts]
      omega
  · have hd' : ¬1 ≤ (snapDuty d).1 := fun hd' => htop (hd'.trans hsnap)
    simp only [dutyToCounts, if_neg hd, if_neg he, if_neg hd', if_neg htop]
    rw [onCounts_counted (min_le_right _ _), onCounts_counted (min_le_right _ _)]
    omega

/-! ### Nanoseconds -/

variable {periodNs : ℕ}

/-- **The on-time is zero** exactly below one whole nanosecond. -/
theorem dutyToNs_eq_zero_iff :
    dutyToNs d periodNs = 0 ↔ d.1 < minUsableDuty ∨ d.1 * periodNs < 1 := by
  rw [dutyToNs, Nat.floor_eq_zero]
  obtain hd | hd := lt_or_ge d.1 minUsableDuty
  · simp [snapDuty_of_lt hd, hd, Duty.zero]
  · simp [snapDuty_of_le hd, hd.not_gt]

/-- A pulse is no longer than its period. -/
theorem dutyToNs_le_period : dutyToNs d periodNs ≤ periodNs := by
  refine Nat.floor_le_of_le ?_
  exact mul_le_of_le_one_left (Nat.cast_nonneg _) (snapDuty d).2.2

/-- A larger duty has a longer pulse. -/
theorem dutyToNs_mono (h : d.1 ≤ e.1) : dutyToNs d periodNs ≤ dutyToNs e periodNs :=
  Nat.floor_le_floor (mul_le_mul_of_nonneg_right (snapDuty_mono h) (Nat.cast_nonneg _))

/-- The least usable duty of a period of 13 ns is a whole nanosecond. -/
theorem one_le_mul_period (hp : 13 ≤ periodNs) (h : minUsableDuty ≤ d.1) :
    1 ≤ d.1 * periodNs := by
  have hp : (13 : ℚ) ≤ periodNs := by exact_mod_cast hp
  calc (1 : ℚ) ≤ minUsableDuty * 13 := by norm_num [minUsableDuty]
    _ ≤ d.1 * periodNs := mul_le_mul h hp (by norm_num) d.2.1

/-- Only a dark duty has no pulse. -/
theorem dutyToNs_dark_iff (hp : 13 ≤ periodNs) :
    dutyToNs d periodNs = 0 ↔ d.1 < minUsableDuty := by
  rw [dutyToNs_eq_zero_iff]
  refine or_iff_left_of_imp fun h => ?_
  by_contra hd
  exact (one_le_mul_period hp (not_lt.mp hd)).not_gt h

/-- At 12 ns the least usable duty is truncated away. -/
theorem dark_at_twelve : ∃ d : Duty, minUsableDuty ≤ d.1 ∧ dutyToNs d 12 = 0 :=
  ⟨⟨minUsableDuty, minUsableDuty_pos.le, by norm_num [minUsableDuty]⟩, le_rfl,
    dutyToNs_eq_zero_iff.mpr (.inr (by norm_num [minUsableDuty]))⟩

/-! ### Both chips -/

/-- Only a dark duty is full off. -/
theorem dutyToCounts_dark_iff : dutyToCounts d = fullOff ↔ d.1 < minUsableDuty := by
  refine ⟨fun h => ?_, dutyToCounts_dark⟩
  by_contra hd
  -- a usable duty has the full-on code, or a count of at least one
  obtain hon | ⟨n, hn, hle, hcount⟩ := dutyToCounts_lit (not_lt.mp hd)
  · rw [hon] at h
    exact absurd (congrArg onCounts h) (by decide)
  · rw [hcount] at h
    have := congrArg onCounts h
    rw [onCounts_counted hle, onCounts_fullOff] at this
    omega

/-- **The drivers agree on what is dark**, and so does the supervisor. -/
theorem pwm_outputs_agree (periodNs : ℕ) (hp : 13 ≤ periodNs) :
    (∀ (d : Duty) (p : PwmDriver),
      (dutyToCounts d = fullOff ↔ dutyToNs d periodNs = 0) ∧
      (dutyToNs d periodNs = 0 ↔
        p.channel.effectiveLevel (.pwm d) = some (lightRegistration p).safeState) ∧
      (p.channel.effectiveLevel (.pwm d) = some (lightRegistration p).safeState ↔
        d.1 < minUsableDuty)) ∧
    (∀ d : Duty, minUsableDuty ≤ d.1 →
      (dutyToCounts d = fullOn ∨ ∃ n, 1 ≤ n ∧ n ≤ 4095 ∧ dutyToCounts d = (0, n)) ∧
      1 ≤ dutyToNs d periodNs ∧ dutyToNs d periodNs ≤ periodNs) ∧
    (∀ d e : Duty, d.1 ≤ e.1 →
      onCounts (dutyToCounts d) ≤ onCounts (dutyToCounts e) ∧
      dutyToNs d periodNs ≤ dutyToNs e periodNs) ∧
    ∀ d : Duty, 0 < d.1 → d.1 < minUsableDuty →
      onCounts (dutyToCounts d) = 0 ∧ dutyToNs d periodNs = 0 := by
  refine ⟨fun d p => ⟨?_, ?_, effectiveLevel_eq_safeState_iff p⟩, fun d h => ⟨?_, ?_, ?_⟩,
    fun d e h => ⟨onCounts_mono h, dutyToNs_mono h⟩, fun d _ h => ⟨?_, ?_⟩⟩
  · rw [dutyToCounts_dark_iff, dutyToNs_dark_iff hp]
  · rw [dutyToNs_dark_iff hp, effectiveLevel_eq_safeState_iff]
  · exact dutyToCounts_lit h
  · exact Nat.one_le_iff_ne_zero.mpr fun h0 => h.not_gt ((dutyToNs_dark_iff hp).mp h0)
  · exact dutyToNs_le_period
  · rw [dutyToCounts_dark h, onCounts_fullOff]
  · exact (dutyToNs_dark_iff hp).mpr h

/-- At the period that an RP1 channel defaults to. -/
theorem pwm_outputs_agree_default : 13 ≤ defaultPeriodNs ∧
    ∀ d : Duty, dutyToCounts d = fullOff ↔ dutyToNs d defaultPeriodNs = 0 :=
  ⟨by decide, fun d => ((pwm_outputs_agree defaultPeriodNs (by decide)).1 d .rp1Pwm).1⟩

end BellasReef.HardwareIO
