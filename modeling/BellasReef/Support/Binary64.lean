import Mathlib.Algebra.Order.Ring.Rat
import Mathlib.Data.Int.ConditionallyCompleteOrder
import Mathlib.Data.Int.Log
import Mathlib.Data.Rat.Floor
import Mathlib.Order.WithBotTop
import Mathlib.Tactic.Linarith
import Mathlib.Tactic.NormNum
import Mathlib.Tactic.Ring

/-!
# Support — Binary64

Double-precision numbers with the IEEE comparisons, and their addition rounded to nearest, ties to
even.  A finite double carries the proof that it is one; the two zeros are one value, since no
comparison and no sum tells them apart.

* `abs_rounded_sub_le`: rounding is off by half a unit at most.
* `IsDouble.le_rounded`, `IsDouble.rounded_le`: rounding does not cross a double.
* `isDouble_rounded`: what it makes is a double, short of the overflow.
* `le_add`, `sub_le`: a sum of something positive does not come out below where it started.
-/

namespace BellasReef.Support

/-- A significand of 53 bits, scaled by a power of two that a double has. -/
def IsDouble (q : ℚ) : Prop :=
  ∃ m e : ℤ, |m| < 2 ^ 53 ∧ -1074 ≤ e ∧ e ≤ 971 ∧ q = m * 2 ^ e

theorem IsDouble.neg {q : ℚ} (h : IsDouble q) : IsDouble (-q) := by
  obtain ⟨m, e, hm, hlo, hhi, rfl⟩ := h
  exact ⟨-m, e, by rwa [abs_neg], hlo, hhi, by push_cast; ring⟩

/-! ### Rounding -/

/-- The nearest integer; the even one of two. -/
def roundEven (x : ℚ) : ℤ :=
  let r := x - ⌊x⌋
  if r < 1 / 2 ∨ r = 1 / 2 ∧ ⌊x⌋ % 2 = 0 then ⌊x⌋ else ⌊x⌋ + 1

theorem le_roundEven {k : ℤ} {x : ℚ} (h : (k : ℚ) ≤ x) : k ≤ roundEven x := by
  have hk : k ≤ ⌊x⌋ := Int.le_floor.mpr h
  simp only [roundEven]
  split <;> omega

theorem roundEven_le {k : ℤ} {x : ℚ} (h : x ≤ k) : roundEven x ≤ k := by
  simp only [roundEven]
  split
  · exact (Int.floor_le_floor h).trans (Int.floor_intCast k).le
  · next hr =>
      -- `x` is not an integer here, so its floor is below `k`
      have hlt : (⌊x⌋ : ℚ) < x := by
        by_contra hle
        exact hr (.inl (by linarith))
      exact Int.add_one_le_iff.mpr (by exact_mod_cast hlt.trans_le h)

theorem roundEven_mono : Monotone roundEven := by
  intro x y h
  obtain hlt | heq := (Int.floor_le_floor h).lt_or_eq
  · have hx : roundEven x ≤ ⌊x⌋ + 1 := by
      simp only [roundEven]
      split <;> omega
    have hy : ⌊y⌋ ≤ roundEven y := le_roundEven (Int.floor_le y)
    omega
  · -- on one floor, only the fractions decide
    simp only [roundEven, heq]
    split
    · split <;> omega
    · next hx =>
        have hle : x - ⌊y⌋ ≤ y - ⌊y⌋ := by linarith
        rw [if_neg ?_]
        rintro (hlt | ⟨hhalf, heven⟩)
        · exact hx (.inl (hle.trans_lt hlt))
        · rw [hhalf] at hle
          obtain hlt | heq := hle.lt_or_eq
          · exact hx (.inl hlt)
          · exact hx (.inr ⟨heq, heven⟩)

theorem abs_roundEven_sub_le (x : ℚ) : |(roundEven x : ℚ) - x| ≤ 1 / 2 := by
  have hlo := Int.floor_le x
  have hhi := Int.lt_floor_add_one x
  simp only [roundEven]
  split
  · next hr =>
      have : x - ⌊x⌋ ≤ 1 / 2 := hr.elim (fun h => h.le) fun h => h.1.le
      rw [abs_le]
      constructor <;> linarith
  · next hr =>
      have : 1 / 2 ≤ x - ⌊x⌋ := not_lt.mp fun h => hr (.inl h)
      push_cast
      rw [abs_le]
      constructor <;> linarith

theorem roundEven_eq_of_abs_lt {k : ℤ} {x : ℚ} (h : |x - k| < 1 / 2) : roundEven x = k := by
  have hround := abs_le.mp (abs_roundEven_sub_le x)
  have h := abs_lt.mp h
  have hlo : (k : ℚ) - 1 < roundEven x := by linarith
  have hhi : (roundEven x : ℚ) < k + 1 := by linarith
  have hlo : k - 1 < roundEven x := by exact_mod_cast hlo
  have hhi : roundEven x < k + 1 := by exact_mod_cast hhi
  omega

/-- The exponent of the last place of a number of this size. -/
def ulpExp (q : ℚ) : ℤ := max (Int.log 2 |q| - 52) (-1074)

/-- A unit in the last place. -/
def ulp (q : ℚ) : ℚ := 2 ^ ulpExp q

/-- To nearest, ties to even, in an unbounded range. -/
def rounded (q : ℚ) : ℚ := roundEven (q / ulp q) * ulp q

theorem ulp_pos (q : ℚ) : 0 < ulp q := zpow_pos two_pos _

/-- Rounding does not cross a number of whole units. -/
theorem le_rounded_of_units {k : ℤ} {q : ℚ} (h : k * ulp q ≤ q) : k * ulp q ≤ rounded q :=
  mul_le_mul_of_nonneg_right
    (by exact_mod_cast le_roundEven ((le_div_iff₀ (ulp_pos q)).mpr h)) (ulp_pos q).le

theorem rounded_le_of_units {k : ℤ} {q : ℚ} (h : q ≤ k * ulp q) : rounded q ≤ k * ulp q :=
  mul_le_mul_of_nonneg_right
    (by exact_mod_cast roundEven_le ((div_le_iff₀ (ulp_pos q)).mpr h)) (ulp_pos q).le

theorem pow_log_le {q : ℚ} (h : q ≠ 0) : (2 : ℚ) ^ Int.log 2 |q| ≤ |q| := by
  exact_mod_cast Int.zpow_log_le_self one_lt_two (abs_pos.mpr h)

theorem lt_pow_log (q : ℚ) : |q| < (2 : ℚ) ^ (Int.log 2 |q| + 1) := by
  exact_mod_cast Int.lt_zpow_succ_log_self one_lt_two |q|

theorem ulp_le {e : ℤ} {q : ℚ} (h : |q| < 2 ^ e) (he : 0 < e) : ulp q ≤ 2 ^ (e - 53) := by
  have hlog : Int.log 2 |q| < e := by
    obtain rfl | hq := eq_or_ne q 0
    · simpa using he
    · exact (Int.lt_zpow_iff_log_lt one_lt_two (abs_pos.mpr hq)).mp (by exact_mod_cast h)
  exact zpow_le_zpow_right₀ one_le_two (by simp only [ulpExp]; omega)

/-- Rounding is off by half a unit at most. -/
theorem abs_rounded_sub_le (q : ℚ) : |rounded q - q| ≤ ulp q / 2 := by
  have hu := ulp_pos q
  have heq : rounded q - q = (roundEven (q / ulp q) - q / ulp q) * ulp q := by
    rw [rounded, sub_mul, div_mul_cancel₀ _ hu.ne']
  rw [heq, abs_mul, abs_of_pos hu]
  calc |(roundEven (q / ulp q) : ℚ) - q / ulp q| * ulp q ≤ 1 / 2 * ulp q :=
        mul_le_mul_of_nonneg_right (abs_roundEven_sub_le _) hu.le
    _ = ulp q / 2 := by ring

/-- A power of two is whole units of a smaller one. -/
theorem pow_eq_units {d e : ℤ} (h : d ≤ e) : (2 : ℚ) ^ e = ((2 ^ (e - d).toNat : ℤ) : ℚ) * 2 ^ d := by
  have hn : ((e - d).toNat : ℤ) = e - d := Int.toNat_of_nonneg (by omega)
  push_cast
  rw [← zpow_natCast, hn, ← zpow_add₀ two_ne_zero, sub_add_cancel]

/-- A double is whole units of `q`, or it is below the binade of `q`. -/
theorem IsDouble.units_or {d : ℚ} (hd : IsDouble d) (q : ℚ) :
    (∃ k : ℤ, d = k * ulp q) ∨
      |d| < 2 ^ Int.log 2 |q| ∧ (2 : ℚ) ^ Int.log 2 |q| = (2 ^ 52 : ℤ) * ulp q := by
  obtain ⟨m, e, hm, hlo, -, rfl⟩ := hd
  by_cases he : ulpExp q ≤ e
  · exact .inl ⟨m * 2 ^ (e - ulpExp q).toNat, by rw [pow_eq_units he, ulp]; push_cast; ring⟩
  · have hexp : ulpExp q = Int.log 2 |q| - 52 := by simp only [ulpExp] at he ⊢; omega
    have hpow : (0 : ℚ) < 2 ^ e := zpow_pos two_pos e
    have hm' : |(m : ℚ)| < 2 ^ (53 : ℤ) := by exact_mod_cast hm
    refine .inr ⟨?_, ?_⟩
    · rw [abs_mul, abs_of_pos hpow]
      calc |(m : ℚ)| * 2 ^ e < 2 ^ (53 : ℤ) * 2 ^ e := mul_lt_mul_of_pos_right hm' hpow
        _ = 2 ^ (53 + e) := (zpow_add₀ two_ne_zero _ _).symm
        _ ≤ 2 ^ Int.log 2 |q| := zpow_le_zpow_right₀ one_le_two (by omega)
    · rw [ulp, hexp, pow_eq_units (show Int.log 2 |q| - 52 ≤ Int.log 2 |q| by omega), sub_sub_cancel]
      rfl

theorem rounded_nonneg {q : ℚ} (h : 0 ≤ q) : 0 ≤ rounded q := by
  simpa using le_rounded_of_units (k := 0) (by simpa using h)

theorem rounded_nonpos {q : ℚ} (h : q ≤ 0) : rounded q ≤ 0 := by
  simpa using rounded_le_of_units (k := 0) (by simpa using h)

/-- **Rounding does not cross a double** that is below. -/
theorem IsDouble.le_rounded {d q : ℚ} (hd : IsDouble d) (h : d ≤ q) : d ≤ rounded q := by
  obtain ⟨k, rfl⟩ | ⟨hlt, hpow⟩ := hd.units_or q
  · exact le_rounded_of_units h
  · obtain hq | rfl | hq := lt_trichotomy q 0
    · -- a double that is further from zero than `q` is not below its binade
      have hle := pow_log_le hq.ne
      rw [abs_of_neg hq] at hle hlt
      rw [abs_of_neg (h.trans_lt hq)] at hlt
      linarith
    · exact h.trans (rounded_nonneg le_rfl)
    · have hle := pow_log_le hq.ne'
      rw [abs_of_pos hq] at hle hlt hpow
      calc d ≤ 2 ^ Int.log 2 q := (le_abs_self d).trans hlt.le
        _ ≤ rounded q := hpow ▸ le_rounded_of_units (hpow ▸ hle)

/-- And one that is above. -/
theorem IsDouble.rounded_le {d q : ℚ} (hd : IsDouble d) (h : q ≤ d) : rounded q ≤ d := by
  obtain ⟨k, rfl⟩ | ⟨hlt, hpow⟩ := hd.units_or q
  · exact rounded_le_of_units h
  · obtain hq | rfl | hq := lt_trichotomy q 0
    · have hle := pow_log_le hq.ne
      have hunits : (-(2 : ℚ) ^ Int.log 2 |q|) = (-2 ^ 52 : ℤ) * ulp q := by
        rw [hpow]
        push_cast
        ring
      rw [abs_of_neg hq] at hle
      calc rounded q ≤ -2 ^ Int.log 2 |q| := by
            rw [hunits]
            refine rounded_le_of_units ?_
            rw [← hunits, abs_of_neg hq]
            linarith
        _ ≤ d := neg_le.mp ((neg_le_abs d).trans hlt.le)
    · exact (rounded_nonpos le_rfl).trans h
    · have hle := pow_log_le hq.ne'
      rw [abs_of_pos hq] at hle hlt
      rw [abs_of_pos (hq.trans_le h)] at hlt
      linarith

theorem abs_rounded_div_le (q : ℚ) : |roundEven (q / ulp q)| ≤ 2 ^ 53 := by
  have hu := ulp_pos q
  have h : |q / ulp q| ≤ 2 ^ 53 := by
    rw [abs_div, abs_of_pos hu, div_le_iff₀ hu]
    calc |q| ≤ 2 ^ (Int.log 2 |q| + 1) := (lt_pow_log q).le
      _ ≤ 2 ^ (53 + ulpExp q) := zpow_le_zpow_right₀ one_le_two (by simp only [ulpExp]; omega)
      _ = 2 ^ 53 * ulp q := zpow_add₀ two_ne_zero 53 _
  obtain ⟨hlo, hhi⟩ := abs_le.mp h
  exact abs_le.mpr ⟨le_roundEven (by exact_mod_cast hlo), roundEven_le (by exact_mod_cast hhi)⟩

/-- A number that keeps all 53 bits fills them. -/
theorem le_abs_rounded_div {q : ℚ} (hq : q ≠ 0) (h : -1074 < ulpExp q) :
    2 ^ 52 ≤ |roundEven (q / ulp q)| := by
  have hu := ulp_pos q
  have hle : (2 : ℚ) ^ 52 * ulp q ≤ |q| := by
    refine le_of_eq_of_le ?_ (pow_log_le hq)
    rw [ulp, ← zpow_natCast, ← zpow_add₀ two_ne_zero]
    congr 1
    simp only [ulpExp] at h ⊢
    omega
  rw [← le_div_iff₀ hu] at hle
  obtain hpos | hneg := abs_cases q
  · rw [hpos.1] at hle
    exact (le_roundEven (by exact_mod_cast hle)).trans (le_abs_self _)
  · rw [hneg.1, neg_div] at hle
    refine le_trans ?_ (neg_le_abs _)
    have : roundEven (q / ulp q) ≤ -2 ^ 52 := roundEven_le (by push_cast; linarith)
    omega

/-- **Short of the overflow, a double comes out.** -/
theorem isDouble_rounded {q : ℚ} (h : |rounded q| < 2 ^ 1024) : IsDouble (rounded q) := by
  have hu := ulp_pos q
  have hlo : -1074 ≤ ulpExp q := le_max_right _ _
  have hm := abs_rounded_div_le q
  have hsize : |rounded q| = |(roundEven (q / ulp q) : ℚ)| * ulp q := by
    rw [rounded, abs_mul, abs_of_pos hu]
  -- the last place of a number that does not overflow is a double's
  have hexp : ∀ n : ℕ, (2 : ℤ) ^ n ≤ |roundEven (q / ulp q)| → ulpExp q < 1024 - n := by
    intro n hn
    have hn : (2 : ℚ) ^ n ≤ |(roundEven (q / ulp q) : ℚ)| := by exact_mod_cast hn
    have hlt : (2 : ℚ) ^ (n + ulpExp q) < 2 ^ (1024 : ℤ) := by
      rw [zpow_add₀ two_ne_zero, zpow_natCast]
      calc (2 : ℚ) ^ n * 2 ^ ulpExp q ≤ |(roundEven (q / ulp q) : ℚ)| * ulp q :=
            mul_le_mul_of_nonneg_right hn hu.le
        _ < 2 ^ (1024 : ℤ) := hsize ▸ (by exact_mod_cast h)
    have := (zpow_lt_zpow_iff_right₀ one_lt_two).mp hlt
    omega
  obtain hlt | heq := hm.lt_or_eq
  · refine ⟨_, _, hlt, hlo, ?_, rfl⟩
    by_cases hq : q = 0
    · subst hq
      simp [ulpExp]
    · by_cases hsub : ulpExp q = -1074
      · omega
      · have := hexp 52 (le_abs_rounded_div hq (by omega))
        omega
  · -- all 53 bits carry over: the significand is a power of two
    have := hexp 53 heq.ge
    obtain hM | hM := abs_eq (by norm_num) |>.mp heq
    · refine ⟨2 ^ 52, ulpExp q + 1, by norm_num, by omega, by omega, ?_⟩
      rw [rounded, hM, ulp, zpow_add_one₀ two_ne_zero]
      push_cast
      ring
    · refine ⟨-2 ^ 52, ulpExp q + 1, by norm_num, by omega, by omega, ?_⟩
      rw [rounded, hM, ulp, zpow_add_one₀ two_ne_zero]
      push_cast
      ring

theorem IsDouble.abs_lt {d : ℚ} (hd : IsDouble d) : |d| < 2 ^ 1024 := by
  obtain ⟨m, e, hm, -, hhi, rfl⟩ := hd
  have hpow : (0 : ℚ) < 2 ^ e := zpow_pos two_pos e
  have hm : |(m : ℚ)| < 2 ^ (53 : ℤ) := by exact_mod_cast hm
  rw [abs_mul, abs_of_pos hpow]
  calc |(m : ℚ)| * 2 ^ e < 2 ^ (53 : ℤ) * 2 ^ e := mul_lt_mul_of_pos_right hm hpow
    _ = 2 ^ (53 + e) := (zpow_add₀ two_ne_zero _ _).symm
    _ ≤ 2 ^ (1024 : ℤ) := zpow_le_zpow_right₀ one_le_two (by omega)
    _ = 2 ^ 1024 := zpow_natCast _ 1024

/-- A double is its own rounding. -/
theorem IsDouble.rounded_eq {d : ℚ} (hd : IsDouble d) : rounded d = d :=
  le_antisymm (hd.rounded_le le_rfl) (hd.le_rounded le_rfl)

/-! ### Doubles -/

/-- An IEEE 754 binary64 value; a zero has no sign. -/
inductive Double where
  | nan
  | infinity (negative : Bool)
  | finite (q : ℚ) (isDouble : IsDouble q)
  deriving DecidableEq

namespace Double

/-- A double by its significand and its exponent. -/
def scaled (m e : ℤ) (h : |m| < 2 ^ 53 ∧ -1074 ≤ e ∧ e ≤ 971) : Double :=
  finite (m * 2 ^ e) ⟨m, e, h.1, h.2.1, h.2.2, rfl⟩

/-- Where a number stands on the line; NaN stands nowhere. -/
def extended : Double → Option (WithBot (WithTop ℚ))
  | nan => none
  | infinity true => some ⊥
  | infinity false => some ⊤
  | finite q _ => some q

/-- A comparison with NaN is false. -/
def lt (a b : Double) : Bool :=
  match a.extended, b.extended with
  | some x, some y => x < y
  | _, _ => false

/-- `<=`: nothing is ordered with a NaN. -/
def le (a b : Double) : Bool :=
  match a.extended, b.extended with
  | some x, some y => x ≤ y
  | _, _ => false

instance : LT Double := ⟨fun a b => a.lt b = true⟩
instance : LE Double := ⟨fun a b => a.le b = true⟩
instance (a b : Double) : Decidable (a < b) := inferInstanceAs (Decidable (a.lt b = true))
instance (a b : Double) : Decidable (a ≤ b) := inferInstanceAs (Decidable (a.le b = true))

/-- Rounded, and beyond the range an infinity. -/
def ofRat (q : ℚ) : Double :=
  if h : |rounded q| < 2 ^ 1024 then finite (rounded q) (isDouble_rounded h)
  else infinity (rounded q < 0)

/-- Unary minus. -/
def neg : Double → Double
  | nan => nan
  | infinity negative => infinity !negative
  | finite q h => finite (-q) h.neg

/-- The sum of the two, rounded; infinities of opposite signs have none. -/
def add : Double → Double → Double
  | nan, _ | _, nan => nan
  | infinity s, infinity t => if s = t then infinity s else nan
  | infinity s, finite .. | finite .., infinity s => infinity s
  | finite p _, finite q _ => ofRat (p + q)

instance : Zero Double := ⟨finite 0 ⟨0, 0, by norm_num, by norm_num, by norm_num, by norm_num⟩⟩
instance : Neg Double := ⟨neg⟩
instance : Add Double := ⟨add⟩
instance : Sub Double := ⟨fun a b => a + -b⟩

variable {a b c : Double}

theorem lt_iff : a < b ↔ ∃ x ∈ a.extended, ∃ y ∈ b.extended, x < y := by
  change a.lt b = true ↔ _
  cases ha : a.extended <;> cases hb : b.extended <;> simp [lt, ha, hb]

theorem le_iff : a ≤ b ↔ ∃ x ∈ a.extended, ∃ y ∈ b.extended, x ≤ y := by
  change a.le b = true ↔ _
  cases ha : a.extended <;> cases hb : b.extended <;> simp [le, ha, hb]

@[simp]
theorem extended_eq_none : a.extended = none ↔ a = nan := by
  cases a with
  | infinity s => cases s <;> simp [extended]
  | _ => simp [extended]

/-- Comparable doubles are numbers. -/
theorem ne_nan_of_le (h : a ≤ b) : a ≠ nan ∧ b ≠ nan := by
  obtain ⟨x, hx, y, hy, -⟩ := le_iff.mp h
  constructor
  · rintro rfl
    simp [extended] at hx
  · rintro rfl
    simp [extended] at hy

theorem not_le_of_lt (h : a < b) : ¬b ≤ a := by
  obtain ⟨x, hx, y, hy, hlt⟩ := lt_iff.mp h
  rintro hle
  obtain ⟨y', hy', x', hx', hle⟩ := le_iff.mp hle
  obtain rfl := Option.mem_unique hx hx'
  obtain rfl := Option.mem_unique hy hy'
  exact hlt.not_ge hle

/-- **Between numbers, one of the comparisons holds.** -/
theorem lt_of_not_le (ha : a ≠ nan) (hb : b ≠ nan) (h : ¬a ≤ b) : b < a := by
  obtain ⟨x, hx⟩ := Option.ne_none_iff_exists'.mp (mt extended_eq_none.mp ha)
  obtain ⟨y, hy⟩ := Option.ne_none_iff_exists'.mp (mt extended_eq_none.mp hb)
  exact lt_iff.mpr ⟨y, hy, x, hx, lt_of_not_ge fun hle => h (le_iff.mpr ⟨x, hx, y, hy, hle⟩)⟩

theorem le_trans (hab : a ≤ b) (hbc : b ≤ c) : a ≤ c := by
  obtain ⟨x, hx, y, hy, hxy⟩ := le_iff.mp hab
  obtain ⟨y', hy', z, hz, hyz⟩ := le_iff.mp hbc
  obtain rfl := Option.mem_unique hy hy'
  exact le_iff.mpr ⟨x, hx, z, hz, hxy.trans hyz⟩

theorem le_of_lt (h : a < b) : a ≤ b := by
  obtain ⟨x, hx, y, hy, hlt⟩ := lt_iff.mp h
  exact le_iff.mpr ⟨x, hx, y, hy, hlt.le⟩

theorem lt_of_lt_of_le (hab : a < b) (hbc : b ≤ c) : a < c :=
  lt_of_not_le (ne_nan_of_le hbc).2 (ne_nan_of_le (le_of_lt hab)).1
    fun hca => not_le_of_lt hab (le_trans hbc hca)

theorem lt_of_le_of_lt (hab : a ≤ b) (hbc : b < c) : a < c :=
  lt_of_not_le (ne_nan_of_le (le_of_lt hbc)).2 (ne_nan_of_le hab).1
    fun hca => not_le_of_lt hbc (le_trans hca hab)

@[simp]
theorem finite_lt_finite {p q : ℚ} {hp : IsDouble p} {hq : IsDouble q} :
    finite p hp < finite q hq ↔ p < q := by
  simp [lt_iff, extended]

@[simp]
theorem finite_le_finite {p q : ℚ} {hp : IsDouble p} {hq : IsDouble q} :
    finite p hp ≤ finite q hq ↔ p ≤ q := by
  simp [le_iff, extended]

@[simp]
theorem le_top : a ≤ infinity false ↔ a ≠ nan := by
  simp [le_iff, extended, ← extended_eq_none, Option.ne_none_iff_exists']

@[simp]
theorem bot_le : infinity true ≤ a ↔ a ≠ nan := by
  simp [le_iff, extended, ← extended_eq_none, Option.ne_none_iff_exists']

theorem eq_bot_of_le (h : a ≤ infinity true) : a = infinity true := by
  cases a with
  | nan => exact absurd rfl (ne_nan_of_le h).1
  | infinity negative => cases negative <;> simp_all [le_iff, extended]
  | finite q hq => simp [le_iff, extended] at h

theorem eq_top_of_le (h : infinity false ≤ a) : a = infinity false := by
  cases a with
  | nan => exact absurd rfl (ne_nan_of_le h).2
  | infinity negative => cases negative <;> simp_all [le_iff, extended]
  | finite q hq => simp [le_iff, extended] at h

theorem ne_bot_of_lt (h : a < b) : b ≠ infinity true := by
  rintro rfl
  exact not_le_of_lt h (bot_le.mpr (ne_nan_of_le (le_of_lt h)).1)

theorem ne_top_of_lt (h : a < b) : a ≠ infinity false := by
  rintro rfl
  exact not_le_of_lt h (le_top.mpr (ne_nan_of_le (le_of_lt h)).2)

/-! ### Sums -/

theorem finite_le_ofRat {d q : ℚ} (hd : IsDouble d) (h : d ≤ q) : finite d hd ≤ ofRat q := by
  have hle := hd.le_rounded h
  simp only [ofRat]
  split
  · exact finite_le_finite.mpr hle
  · next hbig =>
      -- it overflows on the side that it was on
      have hpos : ¬rounded q < 0 := by
        intro hneg
        rw [abs_of_neg hneg] at hbig
        exact hbig (neg_lt.mp ((abs_lt.mp hd.abs_lt).1.trans_le hle))
      simp [hpos]

theorem ofRat_le_finite {d q : ℚ} (hd : IsDouble d) (h : q ≤ d) : ofRat q ≤ finite d hd := by
  have hle := hd.rounded_le h
  simp only [ofRat]
  split
  · exact finite_le_finite.mpr hle
  · next hbig =>
      have hneg : rounded q < 0 := by
        by_contra hpos
        rw [abs_of_nonneg (not_lt.mp hpos)] at hbig
        exact hbig (hle.trans_lt ((le_abs_self d).trans_lt hd.abs_lt))
      simp [hneg]

theorem rounded_le_of_ofRat_le {d q : ℚ} {hd : IsDouble d} (h : ofRat q ≤ finite d hd) :
    rounded q ≤ d := by
  by_cases hsmall : |rounded q| < 2 ^ 1024
  · rw [ofRat, dif_pos hsmall] at h
    exact finite_le_finite.mp h
  · by_cases hneg : rounded q < 0
    · rw [abs_of_neg hneg, not_lt] at hsmall
      exact (le_neg.mp hsmall).trans (abs_lt.mp hd.abs_lt).1.le
    · simp [ofRat, hsmall, hneg, le_iff, extended] at h

theorem le_rounded_of_le_ofRat {d q : ℚ} {hd : IsDouble d} (h : finite d hd ≤ ofRat q) :
    d ≤ rounded q := by
  by_cases hsmall : |rounded q| < 2 ^ 1024
  · rw [ofRat, dif_pos hsmall] at h
    exact finite_le_finite.mp h
  · by_cases hneg : rounded q < 0
    · simp [ofRat, hsmall, hneg, le_iff, extended] at h
    · rw [abs_of_nonneg (not_lt.mp hneg), not_lt] at hsmall
      exact (abs_lt.mp hd.abs_lt).2.le.trans hsmall

theorem ofRat_of_isDouble {q : ℚ} (h : IsDouble q) : ofRat q = finite q h := by
  simp only [ofRat, h.rounded_eq, dif_pos h.abs_lt]

theorem finite_add {p q : ℚ} {hp : IsDouble p} {hq : IsDouble q} :
    finite p hp + finite q hq = ofRat (p + q) := (rfl)

theorem finite_sub {p q : ℚ} {hp : IsDouble p} {hq : IsDouble q} :
    finite p hp - finite q hq = ofRat (p - q) := by
  rw [sub_eq_add_neg]
  rfl

theorem zero_lt_finite {q : ℚ} {hq : IsDouble q} : 0 < finite q hq ↔ 0 < q := finite_lt_finite

theorem ne_nan_of_pos (h : 0 < b) : b ≠ nan := (ne_nan_of_le (le_of_lt h)).2

/-- A positive double is a positive rational or the upper infinity. -/
theorem pos_cases (h : 0 < b) : (∃ q hq, b = finite q hq ∧ 0 < q) ∨ b = infinity false := by
  cases b with
  | nan => exact absurd rfl (ne_nan_of_pos h)
  | infinity negative =>
      cases negative with
      | true => exact absurd (bot_le.mpr (by rintro ⟨⟩)) (not_le_of_lt h)
      | false => exact .inr rfl
  | finite q hq => exact .inl ⟨q, hq, rfl, zero_lt_finite.mp h⟩

/-- **Something positive added** does not bring a double down. -/
theorem le_add (ha : a ≠ nan) (hbot : a ≠ infinity true) (hb : 0 < b) : a ≤ a + b := by
  cases a with
  | nan => exact absurd rfl ha
  | infinity negative =>
      cases negative with
      | true => exact absurd rfl hbot
      | false =>
          obtain ⟨q, hq, rfl, -⟩ | rfl := pos_cases hb
          · exact le_top.mpr (by rintro ⟨⟩)
          · exact le_top.mpr (by rintro ⟨⟩)
  | finite p hp =>
      obtain ⟨q, hq, rfl, hpos⟩ | rfl := pos_cases hb
      · rw [finite_add]
        exact finite_le_ofRat hp (by linarith)
      · exact le_top.mpr (by rintro ⟨⟩)

/-- And taken away, not up. -/
theorem sub_le (ha : a ≠ nan) (htop : a ≠ infinity false) (hb : 0 < b) : a - b ≤ a := by
  cases a with
  | nan => exact absurd rfl ha
  | infinity negative =>
      cases negative with
      | true =>
          obtain ⟨q, hq, rfl, -⟩ | rfl := pos_cases hb
          · exact bot_le.mpr (by rintro ⟨⟩)
          · exact bot_le.mpr (by rintro ⟨⟩)
      | false => exact absurd rfl htop
  | finite p hp =>
      obtain ⟨q, hq, rfl, hpos⟩ | rfl := pos_cases hb
      · rw [finite_sub]
        exact ofRat_le_finite hp (by linarith)
      · exact bot_le.mpr (by rintro ⟨⟩)

end Double

end BellasReef.Support
