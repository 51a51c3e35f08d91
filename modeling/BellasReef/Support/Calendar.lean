import BellasReef.Support.Lines
import Mathlib.Algebra.Group.Nat.Defs
import Mathlib.Data.Nat.Find
import Mathlib.Order.Basic

/-!
# Support — Calendar

Instants in microseconds, of the years 1 to 9999, their date and time in UTC, and the text of
numbers in fields of fixed widths.

* `date_lt`: of two days, the one before has the date before.
* `time_lt`: and within a day, the time before.
* `day_le`, `month_le`, `year_le`: what the fields of a date come to at most.
* `fields_lt`: fixed widths sort as text as the numbers do.
-/

namespace BellasReef.Support.Calendar

/-! ### Dates -/

/-- `_days_before_year`. -/
def daysBeforeYear (year : ℕ) : ℕ :=
  let y := year - 1
  y * 365 + y / 4 - y / 100 + y / 400

/-- The Gregorian leap years. -/
def isLeap (year : ℕ) : Bool := year % 4 = 0 ∧ (year % 100 ≠ 0 ∨ year % 400 = 0)

/-- `_days_before_month`; the month after the last is the year's end. -/
def daysBeforeMonth (leap : Bool) (month : ℕ) : ℕ :=
  [0, 0, 31, 59, 90, 120, 151, 181, 212, 243, 273, 304, 334, 365].getD month 0 +
    if leap ∧ 2 < month then 1 else 0

/-- `datetime.MAXYEAR`. -/
def maxYear : ℕ := 9999

/-- The year of a day, counted from the first of January of the year 1. -/
def yearOf (n : ℕ) : ℕ := Nat.findGreatest (fun y => daysBeforeYear y ≤ n) maxYear

/-- The days of its year before it. -/
def dayOfYear (n : ℕ) : ℕ := n - daysBeforeYear (yearOf n)

/-- The month of a day, from 1. -/
def monthOf (n : ℕ) : ℕ :=
  Nat.findGreatest (fun m => daysBeforeMonth (isLeap (yearOf n)) m ≤ dayOfYear n) 12

/-- Its day of the month, from 1. -/
def dayOf (n : ℕ) : ℕ := dayOfYear n - daysBeforeMonth (isLeap (yearOf n)) (monthOf n) + 1

/-- The days of the calendar. -/
def days : ℕ := 3652059

/-! ### Instants -/

/-- The microseconds of a day. -/
def dayMicros : ℕ := 86400000000

/-- A `datetime`, in microseconds from the first of January of the year 1, UTC. -/
@[ext] structure Instant where
  micros : ℕ
  valid : micros < days * dayMicros
  deriving DecidableEq

namespace Instant

/-- The day of an instant. -/
def date (t : Instant) : ℕ := t.micros / dayMicros

/-- The hour of its day. -/
def hour (t : Instant) : ℕ := t.micros / 3600000000 % 24

/-- The minute of its hour. -/
def minute (t : Instant) : ℕ := t.micros / 60000000 % 60

/-- The second of its minute. -/
def second (t : Instant) : ℕ := t.micros / 1000000 % 60

/-- The microsecond of its second. -/
def microsecond (t : Instant) : ℕ := t.micros % 1000000

/-- Milliseconds since the first day. -/
def millis (t : Instant) : ℕ := t.micros / 1000

/-- From the first of January 1970. -/
def sinceEpoch (t : Instant) : ℤ := t.micros - 719162 * dayMicros

/-- `none` where it is of no year from 1 to 9999. -/
def ofSinceEpoch (us : ℤ) : Option Instant :=
  let micros := us + 719162 * dayMicros
  if h : 0 ≤ micros ∧ micros.toNat < days * dayMicros then some ⟨micros.toNat, h.2⟩ else none

end Instant

/-! ### Fields of fixed widths -/

/-- The last `width` digits. -/
def pad : ℕ → ℕ → Text
  | 0, _ => []
  | width + 1, n => pad width (n / 10) ++ [Nat.digitChar (n % 10)]

/-- Numbers, each in its width and with a mark after it. -/
def fields : List (ℕ × Char) → List ℕ → Text
  | (width, mark) :: layout, n :: ns => pad width n ++ mark :: fields layout ns
  | _, _ => []

/-- The numbers that a layout has room for. -/
def Fits (layout : List (ℕ × Char)) (ns : List ℕ) : Prop :=
  List.Forall₂ (fun field n => n < 10 ^ field.1) layout ns

/-! ### Of two days -/

variable {n m : ℕ}

theorem daysBeforeYear_yearOf_le (n : ℕ) : daysBeforeYear (yearOf n) ≤ n :=
  Nat.findGreatest_spec (P := fun y => daysBeforeYear y ≤ n) (m := 0) (Nat.zero_le _)
    (Nat.zero_le _)

theorem yearOf_mono (h : n ≤ m) : yearOf n ≤ yearOf m :=
  Nat.findGreatest_mono (fun _ hy => le_trans hy h) le_rfl

theorem year_le (n : ℕ) : yearOf n ≤ 9999 := Nat.findGreatest_le _

theorem month_le (n : ℕ) : monthOf n ≤ 12 := Nat.findGreatest_le _

theorem daysBeforeMonth_monthOf_le (n : ℕ) :
    daysBeforeMonth (isLeap (yearOf n)) (monthOf n) ≤ dayOfYear n :=
  Nat.findGreatest_spec (P := fun m => daysBeforeMonth (isLeap (yearOf n)) m ≤ dayOfYear n)
    (m := 0) (Nat.zero_le _) (by simp [daysBeforeMonth])

theorem date_lt (h : n < m) : yearOf n < yearOf m ∨ yearOf n = yearOf m ∧
    (monthOf n < monthOf m ∨ monthOf n = monthOf m ∧ dayOf n < dayOf m) := by
  obtain hlt | hyear := (yearOf_mono h.le).lt_or_eq
  · exact .inl hlt
  have hday : dayOfYear n < dayOfYear m := by
    have := daysBeforeYear_yearOf_le n
    simp only [dayOfYear, ← hyear]
    omega
  have hmonth : monthOf n ≤ monthOf m := by
    simp only [monthOf, ← hyear]
    exact Nat.findGreatest_mono (fun _ hm => le_trans hm hday.le) le_rfl
  refine .inr ⟨hyear, ?_⟩
  obtain hlt | hmonth := hmonth.lt_or_eq
  · exact .inl hlt
  · have := daysBeforeMonth_monthOf_le n
    refine .inr ⟨hmonth, ?_⟩
    simp only [dayOf, ← hyear, ← hmonth]
    omega

theorem daysBeforeYear_succ {year : ℕ} (h : 0 < year) :
    daysBeforeYear (year + 1) = daysBeforeYear year + daysBeforeMonth (isLeap year) 13 := by
  obtain ⟨y, rfl⟩ : ∃ y, year = y + 1 := ⟨year - 1, by omega⟩
  have hend : ∀ leap, daysBeforeMonth leap 13 = 365 + if leap then 1 else 0 := by decide
  have hleap : isLeap (y + 1) = true ↔ 4 ∣ y + 1 ∧ (¬100 ∣ y + 1 ∨ 400 ∣ y + 1) := by
    simp [isLeap, Nat.dvd_iff_mod_eq_zero]
  have h100 : 100 ∣ y + 1 → 4 ∣ y + 1 := fun h => Nat.dvd_trans (by decide) h
  have h400 : 400 ∣ y + 1 → 100 ∣ y + 1 := fun h => Nat.dvd_trans (by decide) h
  have hle : y / 100 ≤ y / 4 := Nat.div_le_div_left (by decide) (by decide)
  simp only [hend, daysBeforeYear, Nat.add_sub_cancel, Nat.succ_div, hleap]
  generalize y / 4 = a, y / 100 = b, y / 400 = c at hle ⊢
  -- each of the three counts goes up just where its number divides the year
  by_cases h4 : 4 ∣ y + 1 <;> by_cases hb : 100 ∣ y + 1 <;> by_cases hc : 400 ∣ y + 1 <;>
    simp_all <;> omega

theorem year_pos (n : ℕ) : 0 < yearOf n :=
  Nat.le_findGreatest (by decide) (by simp [daysBeforeYear])

theorem dayOfYear_lt (h : n < days) : dayOfYear n < daysBeforeMonth (isLeap (yearOf n)) 13 := by
  -- the year is the last one that has begun, or the last one there is
  have hlt : n < daysBeforeYear (yearOf n + 1) := by
    obtain hlt | heq := (year_le n).lt_or_eq
    · exact not_le.mp (Nat.findGreatest_is_greatest (P := fun y => daysBeforeYear y ≤ n)
        (n := maxYear) (Nat.lt_succ_self _) hlt)
    · rw [heq]
      exact h
  rw [daysBeforeYear_succ (year_pos n)] at hlt
  have := daysBeforeYear_yearOf_le n
  simp only [dayOfYear]
  omega

theorem day_le (h : n < days) : dayOf n ≤ 31 := by
  have hmonth : ∀ leap, ∀ m ≤ 12, daysBeforeMonth leap (m + 1) ≤ daysBeforeMonth leap m + 31 := by
    decide
  have hlt : dayOfYear n < daysBeforeMonth (isLeap (yearOf n)) (monthOf n + 1) := by
    obtain hlt | heq := (month_le n).lt_or_eq
    · exact not_le.mp (Nat.findGreatest_is_greatest
        (P := fun m => daysBeforeMonth (isLeap (yearOf n)) m ≤ dayOfYear n) (n := 12)
        (Nat.lt_succ_self _) hlt)
    · rw [heq]
      exact dayOfYear_lt h
  have := hmonth (isLeap (yearOf n)) _ (month_le n)
  simp only [dayOf]
  omega

/-! ### Of two times of a day -/

variable {t u : Instant}

theorem div_mod_lt {x y k : ℕ} (h : x < y) : x / k < y / k ∨ x / k = y / k ∧ x % k < y % k := by
  obtain hlt | heq := (Nat.div_le_div_right (c := k) h.le).lt_or_eq
  · exact .inl hlt
  · have hx := Nat.div_add_mod x k
    have hy := Nat.div_add_mod y k
    rw [heq] at hx
    exact .inr ⟨heq, by omega⟩

/-- Within a day, the time of day. -/
theorem time_lt (hdate : t.date = u.date) (h : t.millis < u.millis) :
    t.hour < u.hour ∨ t.hour = u.hour ∧ (t.minute < u.minute ∨ t.minute = u.minute ∧
      (t.second < u.second ∨ t.second = u.second ∧
        t.microsecond / 1000 < u.microsecond / 1000)) := by
  have hsecond : ∀ v : Instant, v.micros / 1000000 = v.millis / 1000 ∧
      v.microsecond / 1000 = v.millis % 1000 := fun v => by
    simp only [Instant.millis, Instant.microsecond]
    omega
  have hminute : ∀ v : Instant, v.micros / 60000000 = v.micros / 1000000 / 60 := fun v => by omega
  have hhour : ∀ v : Instant, v.micros / 3600000000 = v.micros / 60000000 / 60 := fun v => by omega
  have hday : ∀ v : Instant, v.date = v.micros / 3600000000 / 24 := fun v => by
    simp only [Instant.date, dayMicros]
    omega
  rw [hday, hday] at hdate
  simp only [Instant.hour, Instant.minute, Instant.second, (hsecond _).2]
  -- each unit is a number of the next smaller one, and the day is the same
  obtain h | ⟨hs, h⟩ := div_mod_lt (k := 1000) h
  · rw [← (hsecond t).1, ← (hsecond u).1] at h
    obtain h | ⟨hs, h⟩ := div_mod_lt (k := 60) h
    · rw [← hminute, ← hminute] at h
      obtain h | ⟨hs, h⟩ := div_mod_lt (k := 60) h
      · rw [← hhour, ← hhour] at h
        obtain h | ⟨hs, h⟩ := div_mod_lt (k := 24) h
        · exact absurd hdate h.ne
        · exact .inl h
      · rw [← hhour, ← hhour] at hs
        exact .inr ⟨by rw [hs], .inl h⟩
    · rw [← hminute, ← hminute] at hs
      have hh : t.micros / 3600000000 = u.micros / 3600000000 := by rw [hhour, hhour, hs]
      exact .inr ⟨by rw [hh], .inr ⟨by rw [hs], .inl h⟩⟩
  · rw [← (hsecond t).1, ← (hsecond u).1] at hs
    have hm : t.micros / 60000000 = u.micros / 60000000 := by rw [hminute, hminute, hs]
    have hh : t.micros / 3600000000 = u.micros / 3600000000 := by rw [hhour, hhour, hm]
    exact .inr ⟨by rw [hh], .inr ⟨by rw [hm], .inr ⟨by rw [hs], h⟩⟩⟩

/-! ### Text order -/

theorem length_pad (width n : ℕ) : (pad width n).length = width := by
  induction width generalizing n with
  | zero => rfl
  | succ width ih => simp [pad, ih]

theorem append_lt_append {a b : Text} (h : a < b) (hlen : a.length = b.length) (s t : Text) :
    a ++ s < b ++ t := by
  induction h with
  | nil => cases hlen
  | rel hlt => exact .rel hlt
  | cons _ ih => exact .cons (ih (by simpa using hlen))

theorem append_left_lt {s t : Text} (h : s < t) (a : Text) : a ++ s < a ++ t := by
  induction a with
  | nil => exact h
  | cons c a ih => exact .cons ih

theorem pad_lt {width : ℕ} (h : n < m) (hm : m < 10 ^ width) : pad width n < pad width m := by
  induction width generalizing n m with
  | zero => simp at hm; omega
  | succ width ih =>
    rw [pad, pad]
    -- either the digits before the last one decide, or they are equal
    obtain hlt | heq := (Nat.div_le_div_right (c := 10) h.le).lt_or_eq
    · exact append_lt_append (ih hlt (by rw [Nat.pow_succ] at hm; omega)) (by simp [length_pad]) _ _
    · rw [heq]
      refine append_left_lt (.rel ?_) _
      have hdigit : ∀ a < 10, ∀ b < 10, a < b → Nat.digitChar a < Nat.digitChar b := by decide
      exact hdigit _ (Nat.mod_lt _ (by decide)) _ (Nat.mod_lt _ (by decide)) (by omega)

/-- **Fixed widths sort as text as the numbers do.** -/
theorem fields_lt {layout : List (ℕ × Char)} {ns ms : List ℕ} (hns : Fits layout ns)
    (hms : Fits layout ms) (h : ns < ms) : fields layout ns < fields layout ms := by
  induction hms generalizing ns with
  | nil => cases h
  | @cons field m layout ms hm hms ih =>
    obtain ⟨width, mark⟩ := field
    cases hns with
    | @cons _ n _ ns hn hns =>
      rw [fields, fields]
      cases h with
      | rel hlt => exact append_lt_append (pad_lt hlt hm) (by simp [length_pad]) _ _
      | cons h => exact append_left_lt (.cons (ih hns h)) _

end BellasReef.Support.Calendar
