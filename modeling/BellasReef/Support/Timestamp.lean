import BellasReef.Support.Binary64
import BellasReef.Support.Calendar
import Mathlib.Algebra.Order.Archimedean.Basic

/-!
# Support — Timestamps

`datetime.fromtimestamp` of milliseconds divided by a thousand: a double of seconds, whose fraction
is rounded to microseconds.

* `fromTimestamp_near`: what comes out is within half a millisecond, so that it is the millisecond
  itself or none (`fromTimestamp_exact_of_dvd`).
* `fromTimestamp_of_lt`: within 2³³ seconds of 1970 it is the millisecond itself.
-/

namespace BellasReef.Support.Calendar

/-- `modf`'s whole part: towards zero. -/
def trunc (d : ℚ) : ℤ := if 0 ≤ d then ⌊d⌋ else ⌈d⌉

/-- A float of seconds, in microseconds: the whole seconds, and what is left, rounded. -/
def toMicros (seconds : ℚ) : ℤ :=
  trunc seconds * 1000000 + roundEven (rounded ((seconds - trunc seconds) * 1000000))

/-- `fromtimestamp(ms / 1000, tz)`, with `tz` always `offset` microseconds ahead of UTC; `none`
where the instant or its local time is of no year from 1 to 9999. -/
def fromTimestamp (offset ms : ℤ) : Option Instant :=
  let us := toMicros (rounded (ms / 1000))
  (Instant.ofSinceEpoch (us + offset)).bind fun _ => Instant.ofSinceEpoch us

variable {offset ms us : ℤ} {d q : ℚ} {t : Instant}

theorem ofSinceEpoch_eq_some_iff : Instant.ofSinceEpoch us = some t ↔ t.sinceEpoch = us := by
  have hvalid := t.valid
  simp only [Instant.ofSinceEpoch, Instant.sinceEpoch, Option.dite_none_right_eq_some]
  constructor
  · rintro ⟨hrange, h⟩
    have hmicros := congrArg Instant.micros (Option.some.inj h)
    simp only at hmicros
    omega
  · intro h
    have hmicros : us + 719162 * (dayMicros : ℤ) = t.micros := by omega
    refine ⟨?_, ?_⟩
    · rw [hmicros]
      exact ⟨Int.natCast_nonneg _, hvalid⟩
    · congr 1
      ext
      simp [hmicros]

theorem abs_sub_trunc_lt (d : ℚ) : |d - trunc d| < 1 := by
  rw [trunc, abs_lt]
  split_ifs
  · have hlo := Int.floor_le d
    have hhi := Int.lt_floor_add_one d
    constructor <;> linarith
  · have hlo := Int.le_ceil d
    have hhi := Int.ceil_lt_add_one d
    constructor <;> linarith

/-- The two roundings of the fraction. -/
theorem abs_toMicros_sub_le (d : ℚ) :
    |rounded ((d - trunc d) * 1000000) - (d - trunc d) * 1000000| ≤ 2 ^ (-34 : ℤ) ∧
      |(toMicros d : ℚ) - d * 1000000| ≤ 1 / 2 + 2 ^ (-34 : ℤ) := by
  have hfrac := abs_sub_trunc_lt d
  have hsize : |(d - trunc d) * 1000000| < 2 ^ (20 : ℤ) := by
    rw [abs_mul]
    norm_num
    linarith
  -- a fraction of less than 2²⁰ microseconds has units of `2 ^ (-33)` at most
  have hrounded : |rounded ((d - trunc d) * 1000000) - (d - trunc d) * 1000000| ≤
      2 ^ (-34 : ℤ) := by
    refine (abs_rounded_sub_le _).trans ?_
    have hulp := ulp_le hsize (by norm_num)
    norm_num at hulp ⊢
    linarith
  refine ⟨hrounded, ?_⟩
  have heven := abs_roundEven_sub_le (rounded ((d - trunc d) * 1000000))
  have hsum : (toMicros d : ℚ) - d * 1000000 =
      (roundEven (rounded ((d - trunc d) * 1000000)) - rounded ((d - trunc d) * 1000000)) +
        (rounded ((d - trunc d) * 1000000) - (d - trunc d) * 1000000) := by
    rw [toMicros]
    push_cast
    ring
  rw [hsum]
  exact (abs_add_le _ _).trans (add_le_add heven hrounded)

/-- What the division is off by, within `2 ^ e` seconds. -/
theorem abs_division_sub_le {e : ℤ} (h : |(ms : ℚ) / 1000| < 2 ^ e) (he : 0 < e) :
    |rounded (ms / 1000) * 1000000 - 1000 * ms| ≤ 2 ^ (e - 54) * 1000000 := by
  have hdiff : rounded ((ms : ℚ) / 1000) * 1000000 - 1000 * ms =
      (rounded (ms / 1000) - ms / 1000) * 1000000 := by ring
  have hulp := ulp_le h he
  have hpow : (2 : ℚ) ^ (e - 53) = 2 ^ (e - 54) * 2 := by
    rw [show e - 53 = e - 54 + 1 by ring, zpow_add_one₀ two_ne_zero]
  rw [hdiff, abs_mul, abs_of_pos (show (0 : ℚ) < 1000000 by norm_num)]
  refine mul_le_mul_of_nonneg_right ((abs_rounded_sub_le _).trans ?_) (by norm_num)
  linarith

/-- No year up to 9999 is `2 ^ 38` seconds away. -/
theorem abs_seconds_lt (h : (toMicros (rounded (ms / 1000)) : ℤ) = t.sinceEpoch) :
    |(ms : ℚ) / 1000| < 2 ^ (38 : ℤ) := by
  have hdouble : IsDouble (2 ^ (38 : ℤ)) := ⟨1, 38, by norm_num, by norm_num, by norm_num, by simp⟩
  -- what rounds to less than a double is less than it
  have hrounded : |rounded ((ms : ℚ) / 1000)| < 2 ^ (38 : ℤ) := by
    have hclose := (abs_toMicros_sub_le (rounded (ms / 1000))).2
    have hvalid := t.valid
    have hlo : (-(719162 * 86400000000) : ℚ) ≤ t.sinceEpoch := by
      have : (-(719162 * 86400000000) : ℤ) ≤ t.sinceEpoch := by
        simp only [Instant.sinceEpoch, dayMicros]
        omega
      exact_mod_cast this
    have hhi : (t.sinceEpoch : ℚ) ≤ 2932897 * 86400000000 := by
      have : t.sinceEpoch ≤ 2932897 * 86400000000 := by
        simp only [Instant.sinceEpoch, dayMicros, days] at hvalid ⊢
        omega
      exact_mod_cast this
    rw [h, abs_le] at hclose
    rw [abs_lt]
    norm_num at hclose hlo hhi ⊢
    constructor <;> linarith
  rw [abs_lt] at hrounded ⊢
  constructor
  · by_contra hle
    have := hdouble.neg.rounded_le (not_lt.mp hle)
    linarith
  · by_contra hle
    have := hdouble.le_rounded (not_lt.mp hle)
    linarith

theorem fromTimestamp_near (h : fromTimestamp offset ms = some t) :
    |t.sinceEpoch - 1000 * ms| < 500 := by
  obtain ⟨-, -, h⟩ := Option.bind_eq_some_iff.mp h
  have h := ofSinceEpoch_eq_some_iff.mp h
  have hdiv := abs_division_sub_le (abs_seconds_lt h.symm) (by norm_num)
  have hround := (abs_toMicros_sub_le (rounded (ms / 1000))).2
  rw [← h] at hround
  have hsum : |(t.sinceEpoch : ℚ) - 1000 * ms| < 500 := by
    have := abs_sub_le (t.sinceEpoch : ℚ) (rounded (ms / 1000) * 1000000) (1000 * ms)
    norm_num at hdiv hround ⊢
    linarith
  exact_mod_cast hsum

theorem fromTimestamp_exact_of_dvd (h : fromTimestamp offset ms = some t)
    (ht : 1000 ∣ t.sinceEpoch) : t.sinceEpoch = 1000 * ms := by
  have hnear := abs_lt.mp (fromTimestamp_near h)
  omega

theorem toMicros_of_lt (hms : |ms| < 2 ^ 33 * 1000) :
    toMicros (rounded (ms / 1000)) = 1000 * ms := by
  have hsize : |(ms : ℚ) / 1000| < 2 ^ (33 : ℤ) := by
    have hms : |(ms : ℚ)| < 2 ^ 33 * 1000 := by exact_mod_cast hms
    rw [abs_div, abs_of_pos (show (0 : ℚ) < 1000 by norm_num), div_lt_iff₀ (by norm_num)]
    norm_num at hms ⊢
    exact hms
  have hdiv := abs_division_sub_le hsize (by norm_num)
  obtain ⟨hround, -⟩ := abs_toMicros_sub_le (rounded (ms / 1000))
  -- both errors together stay below half a microsecond
  generalize rounded ((ms : ℚ) / 1000) = d at hdiv hround ⊢
  have hnear : |rounded ((d - trunc d) * 1000000) - (1000 * ms - trunc d * 1000000 : ℤ)| <
      1 / 2 := by
    have := abs_sub_le (rounded ((d - trunc d) * 1000000)) ((d - trunc d) * 1000000)
      (1000 * ms - trunc d * 1000000 : ℤ)
    have hshift : (d - trunc d) * 1000000 - (1000 * ms - trunc d * 1000000 : ℤ) =
        d * 1000000 - 1000 * ms := by
      push_cast
      ring
    rw [hshift] at this
    norm_num at hdiv hround this ⊢
    linarith
  rw [toMicros, roundEven_eq_of_abs_lt hnear]
  ring

theorem fromTimestamp_of_lt (hms : |ms| < 2 ^ 33 * 1000) (hoffset : |offset| ≤ dayMicros) :
    ∃ t, fromTimestamp offset ms = some t ∧ t.sinceEpoch = 1000 * ms := by
  obtain ⟨hlo, hhi⟩ := abs_lt.mp hms
  obtain ⟨hlo', hhi'⟩ := abs_le.mp hoffset
  have hrange : ∀ us : ℤ, |us| < 2 ^ 33 * 1000000 + dayMicros →
      ∃ t, Instant.ofSinceEpoch us = some t := by
    intro us hus
    obtain ⟨hlo, hhi⟩ := abs_lt.mp hus
    refine ⟨_, dif_pos ⟨?_, ?_⟩⟩ <;> simp only [dayMicros, days] at hlo hhi ⊢ <;> omega
  obtain ⟨t, ht⟩ := hrange (1000 * ms) (by rw [abs_lt]; simp only [dayMicros]; omega)
  obtain ⟨u, hu⟩ := hrange (1000 * ms + offset) (by
    rw [abs_lt]
    simp only [dayMicros] at hlo' hhi' ⊢
    omega)
  refine ⟨t, ?_, ofSinceEpoch_eq_some_iff.mp ht⟩
  simp only [fromTimestamp, toMicros_of_lt hms, hu, Option.bind_some, ht]

end BellasReef.Support.Calendar
