import BellasReef.Support.Binary64
import BellasReef.Support.Lines
import Mathlib.Algebra.Order.Floor.Semiring

/-!
# Support — Decimal text

Doubles as text, as Python has them: `float` reads a decimal text, rounded, and `repr` is the
shortest that reads as the number, of these the nearest.

* `unsigned_layout`: digits and a scale are read back, in either of `repr`'s two forms.
* `float_repr` and `minus_repr`: a double is read back, and a zero with its sign.
* `length_repr_le`: how long its text is at most.

`float` does without the underscores and the digits of other scripts that Python also takes.
-/

namespace BellasReef.Support.DecimalText
open Double (ofRat)

/-! ### Reading -/

/-- The number that digits write. -/
def digits (s : Text) : ℕ := Nat.ofDigitChars 10 s 0

/-- One digit or more. -/
def natural (s : Text) : Option ℕ := if s ≠ [] ∧ s.all Char.isDigit then some (digits s) else none

/-- An integer with or without its sign. -/
def integer : Text → Option ℤ
  | '-' :: s => (natural s).map fun n => -(n : ℤ)
  | '+' :: s => (natural s).map fun n => (n : ℤ)
  | s => (natural s).map fun n => (n : ℤ)

/-- What follows the digits: nothing, or an exponent. -/
def exponent : Text → Option ℤ
  | [] => some 0
  | c :: s => if c = 'e' ∨ c = 'E' then integer s else none

/-- The digits after a point, and what comes after them. -/
def fraction (s : Text) : Text × Text :=
  if s.head? = some '.' then (s.tail.takeWhile Char.isDigit, s.tail.dropWhile Char.isDigit)
  else ([], s)

/-- Digits, a point in them, and a power of ten. -/
def unsigned (s : Text) : Option ℚ :=
  let whole := s.takeWhile Char.isDigit
  let (places, rest) := fraction (s.dropWhile Char.isDigit)
  if whole ++ places = [] then none
  else (exponent rest).map fun e : ℤ => (digits (whole ++ places) : ℚ) * 10 ^ (e - places.length)

/-- Python's words for an infinity. -/
def infinities : List Text := [['i', 'n', 'f'], ['i', 'n', 'f', 'i', 'n', 'i', 't', 'y']]

/-- A number behind its sign. -/
def signed (negative : Bool) (s : Text) : Option Double :=
  if s.map Char.toLower ∈ infinities then some (.infinity negative)
  else if s.map Char.toLower = ['n', 'a', 'n'] then some .nan
  else (unsigned s).map fun q => if negative then (ofRat q).neg else ofRat q

/-- `float`, of a text; `none` where it raises. -/
def float (s : Text) : Option Double :=
  match s.strip with
  | '-' :: s => signed true s
  | '+' :: s => signed false s
  | s => signed false s

/-- The sign of what `float` reads, if that is zero. -/
def minus (s : Text) : Bool := s.strip.head? = some '-'

/-! ### Writing -/

/-- The nearest number of `k` digits that reads as `a`, of the two around it. -/
def candidate (a : ℚ) (k : ℕ) : Option (ℕ × ℤ) :=
  let scale := Int.log 10 a + 1 - k
  let unit : ℚ := 10 ^ scale
  let low := ⌊a / unit⌋₊
  let reads (c : ℕ) : Bool := rounded (c * unit) = a
  let below := a - low * unit
  let above := (low + 1 : ℕ) * unit - a
  if reads low ∧ (¬reads (low + 1) ∨ below < above ∨ below = above ∧ low % 2 = 0) then
    some (low, scale)
  else if reads (low + 1) then some (low + 1, scale)
  else none

variable {a q : ℚ} {c k : ℕ} {e : ℤ} {s t ds : Text}

/-- A double has all its digits within 1074 places. -/
theorem exists_places (h : IsDouble a) (ha : 0 < a) : ∃ n : ℕ, a = n * 10 ^ (-1074 : ℤ) := by
  obtain ⟨m, e, -, hlo, -, rfl⟩ := h
  have hm : 0 < m := by
    have := pos_of_mul_pos_left ha (zpow_pos two_pos e).le
    exact_mod_cast this
  obtain ⟨j, rfl⟩ : ∃ j : ℕ, e = j - 1074 := ⟨(e + 1074).toNat, by omega⟩
  lift m to ℕ using hm.le
  -- `2 ^ (-1074)` is `5 ^ 1074` of the last place
  refine ⟨m * 2 ^ j * 5 ^ 1074, ?_⟩
  have hten : (10 : ℚ) ^ (-1074 : ℤ) = 2 ^ (-1074 : ℤ) * 5 ^ (-1074 : ℤ) := by
    rw [← mul_zpow]
    norm_num
  have hfive : (5 : ℚ) ^ 1074 * 5 ^ (-1074 : ℤ) = 1 := by
    rw [← zpow_natCast, ← zpow_add₀ (by norm_num)]
    rfl
  rw [hten, sub_eq_add_neg, zpow_add₀ two_ne_zero, zpow_natCast]
  simp only [Nat.cast_mul, Nat.cast_pow, Nat.cast_ofNat, Int.cast_natCast]
  generalize (2 : ℚ) ^ (-1074 : ℤ) = x, (5 : ℚ) ^ 1074 = y, (5 : ℚ) ^ (-1074 : ℤ) = z at hfive ⊢
  calc (m : ℚ) * (2 ^ j * x) = m * (2 ^ j * x) * (y * z) := by rw [hfive, mul_one]
    _ = m * 2 ^ j * y * (x * z) := by ring

theorem log_bounds (h : IsDouble a) (ha : 0 < a) :
    -1074 ≤ Int.log 10 a ∧ Int.log 10 a < 1024 := by
  constructor
  · obtain ⟨n, hn⟩ := exists_places h ha
    have hunit : (0 : ℚ) < 10 ^ (-1074 : ℤ) := zpow_pos (by norm_num) _
    have hpos : 0 < n := by
      rw [hn] at ha
      exact_mod_cast pos_of_mul_pos_left ha hunit.le
    have hone : (1 : ℚ) ≤ n := by exact_mod_cast hpos
    refine (Int.zpow_le_iff_le_log (by norm_num) ha).mp ?_
    rw [hn, Nat.cast_ofNat]
    exact le_mul_of_one_le_left hunit.le hone
  · refine (Int.lt_zpow_iff_log_lt (by norm_num) ha).mp ?_
    calc a ≤ |a| := le_abs_self a
      _ < 2 ^ 1024 := h.abs_lt
      _ ≤ 10 ^ 1024 := pow_le_pow_left₀ (by norm_num) (by norm_num) _
      _ = ((10 : ℕ) : ℚ) ^ (1024 : ℤ) := by rw [Nat.cast_ofNat, ← zpow_natCast]; rfl

/-- So many digits are enough. -/
def enough (a : ℚ) : ℕ := (Int.log 10 a + 1075).toNat

theorem candidate_enough (h : IsDouble a ∧ 0 < a) : (candidate a (enough a)).isSome := by
  obtain ⟨n, hn⟩ := exists_places h.1 h.2
  have hlog := log_bounds h.1 h.2
  have hscale : Int.log 10 a + 1 - (enough a : ℕ) = -1074 := by
    rw [enough, Int.toNat_of_nonneg (by omega)]
    ring
  have hunit : (0 : ℚ) < 10 ^ (-1074 : ℤ) := zpow_pos (by norm_num) _
  have hlow : ⌊a / 10 ^ (-1074 : ℤ)⌋₊ = n := by
    rw [hn, mul_div_cancel_right₀ _ hunit.ne', Nat.floor_natCast]
  simp only [candidate, hscale, hlow, ← hn, h.1.rounded_eq]
  rw [if_pos]
  · rfl
  · refine ⟨by simp, .inr (.inl ?_)⟩
    rw [Nat.cast_add_one, add_mul, ← hn]
    simp

/-- The digits and the scale of the shortest text. -/
def shortest (a : ℚ) (h : IsDouble a ∧ 0 < a) : ℕ × ℤ :=
  have hex : ∃ k, (candidate a k).isSome := ⟨enough a, candidate_enough h⟩
  (candidate a (Nat.find hex)).get (Nat.find_spec hex)

/-- An exponent has its sign and two digits at least. -/
def printExponent (x : ℤ) : Text :=
  (if x < 0 then '-' else '+') ::
    (if x.natAbs < 10 then '0' :: Nat.toDigits 10 x.natAbs else Nat.toDigits 10 x.natAbs)

/-- Digits and a scale, with an exponent where the point is far from them. -/
def layout (ds : Text) (scale : ℤ) : Text :=
  let point := ds.length + scale
  if -4 < point ∧ point ≤ 0 then '0' :: '.' :: (List.replicate (-point).toNat '0' ++ ds)
  else if 0 < point ∧ point ≤ 16 then
    if 0 ≤ scale then ds ++ List.replicate scale.toNat '0' ++ ['.', '0']
    else ds.take point.toNat ++ '.' :: ds.drop point.toNat
  else
    (if ds.length ≤ 1 then ds else ds.take 1 ++ '.' :: ds.drop 1) ++
      'e' :: printExponent (point - 1)

/-- A positive double, by its shortest digits. -/
def positive (a : ℚ) (h : IsDouble a ∧ 0 < a) : Text :=
  layout (Nat.toDigits 10 (shortest a h).1) (shortest a h).2

/-- `repr`; of the two zeros, `negZero` says which. -/
def repr (negZero : Bool) (q : ℚ) (h : IsDouble q) : Text :=
  if hpos : 0 < q then positive q ⟨h, hpos⟩
  else if hneg : q < 0 then '-' :: positive (-q) ⟨h.neg, neg_pos.mpr hneg⟩
  else if negZero then ['-', '0', '.', '0']
  else ['0', '.', '0']

/-! ### Digits are read back -/

theorem unsigned_point (whole places rest : Text) (hwhole : ∀ c ∈ whole, c.isDigit = true)
    (hne : whole ≠ []) (hplaces : ∀ c ∈ places, c.isDigit = true)
    (hrest : ∀ c ∈ rest.head?, c.isDigit = false) (he : exponent rest = some e) :
    unsigned (whole ++ '.' :: (places ++ rest)) =
      some ((digits (whole ++ places) : ℚ) * 10 ^ (e - places.length)) := by
  have htake : ∀ {r : Text}, (∀ c ∈ r.head?, c.isDigit = false) → r.takeWhile Char.isDigit = [] ∧
      r.dropWhile Char.isDigit = r := by
    intro r hr
    cases r with
    | nil => simp
    | cons c r => simp [hr c rfl]
  rw [unsigned, List.takeWhile_append_of_pos hwhole, List.dropWhile_append_of_pos hwhole]
  simp [fraction, List.takeWhile_append_of_pos hplaces, List.dropWhile_append_of_pos hplaces,
    htake hrest, hne, he]

theorem unsigned_whole (whole rest : Text) (hwhole : ∀ c ∈ whole, c.isDigit = true)
    (hne : whole ≠ []) (hrest : ∀ c ∈ rest.head?, c.isDigit = false ∧ c ≠ '.')
    (he : exponent rest = some e) :
    unsigned (whole ++ rest) = some ((digits whole : ℚ) * 10 ^ e) := by
  rw [unsigned, List.takeWhile_append_of_pos hwhole, List.dropWhile_append_of_pos hwhole]
  cases rest with
  | nil => simp [fraction, hne, he]
  | cons c rest =>
    have hc := hrest c rfl
    simp [fraction, hc, hne, he]

theorem isDigit_toDigits (n : ℕ) : ∀ c ∈ Nat.toDigits 10 n, c.isDigit = true :=
  fun _ hc => Nat.isDigit_of_mem_toDigits (b := 10) (by decide) (by decide) hc

theorem natural_toDigits (n : ℕ) : natural (Nat.toDigits 10 n) = some n := by
  rw [natural, if_pos, digits, Nat.ofDigitChars_toDigits (by decide) (by decide)]
  refine ⟨Nat.toDigits_ne_nil, ?_⟩
  simpa using isDigit_toDigits n

theorem natural_zero_cons (n : ℕ) : natural ('0' :: Nat.toDigits 10 n) = some n := by
  have h := natural_toDigits n
  simp only [natural, Option.ite_none_right_eq_some] at h ⊢
  obtain ⟨⟨-, hall⟩, hn⟩ := h
  exact ⟨by simpa using hall, hn⟩

theorem exponent_printExponent (x : ℤ) : exponent ('e' :: printExponent x) = some x := by
  have hnat : natural (if x.natAbs < 10 then '0' :: Nat.toDigits 10 x.natAbs
      else Nat.toDigits 10 x.natAbs) = some x.natAbs := by
    split_ifs
    · exact natural_zero_cons _
    · exact natural_toDigits _
  have habs : (x.natAbs : ℤ) = |x| := Int.natCast_natAbs x
  obtain hx | hx := lt_or_ge x 0
  · rw [abs_of_neg hx] at habs
    simp only [printExponent, hx, if_true, exponent, integer, hnat]
    simp [habs]
  · rw [abs_of_nonneg hx] at habs
    simp only [printExponent, not_lt.mpr hx, if_false, exponent, integer, hnat]
    simp [habs]

theorem digits_replicate_append (n : ℕ) (s : Text) :
    digits (List.replicate n '0' ++ s) = digits s := by
  simp [digits, Nat.ofDigitChars_append]

theorem digits_append_replicate (n : ℕ) (s : Text) :
    digits (s ++ List.replicate n '0') = 10 ^ n * digits s := by
  simp [digits, Nat.ofDigitChars_append]

theorem unsigned_layout (hds : ∀ c ∈ ds, c.isDigit = true) (hne : ds ≠ []) (scale : ℤ) :
    unsigned (layout ds scale) = some ((digits ds : ℚ) * 10 ^ scale) := by
  have hzero : ∀ n, ∀ c ∈ List.replicate n '0', c.isDigit = true := by
    intro n c hc
    rw [List.eq_of_mem_replicate hc]
    rfl
  have hlen : 0 < ds.length := List.length_pos_of_ne_nil hne
  unfold layout
  simp only
  split_ifs with hsmall hfixed hwhole hone
  · -- `0.000ds`
    have h := unsigned_point (e := 0) ['0']
      (List.replicate (-(ds.length + scale)).toNat '0' ++ ds) [] (by simp) (by simp)
      (fun c hc => (List.mem_append.mp hc).elim (hzero _ c) (hds c)) (by simp) rfl
    have hdigits : digits (['0'] ++ (List.replicate (-(ds.length + scale)).toNat '0' ++ ds)) =
        digits ds := by
      rw [← List.append_assoc, ← List.replicate_one, List.replicate_append_replicate,
        digits_replicate_append]
    rw [List.append_nil, hdigits] at h
    refine h.trans ?_
    congr 3
    simp
    omega
  · -- `ds000.0`
    have h := unsigned_point (e := 0) (ds ++ List.replicate scale.toNat '0') ['0'] []
      (fun c hc => (List.mem_append.mp hc).elim (hds c) (hzero _ c)) (by simp [hne]) (by simp)
      (by simp) rfl
    have hdigits : digits (ds ++ List.replicate scale.toNat '0' ++ ['0']) =
        10 ^ (scale.toNat + 1) * digits ds := by
      rw [List.append_assoc, ← List.replicate_one, List.replicate_append_replicate,
        digits_append_replicate]
    have hscale : (10 : ℚ) ^ scale = 10 ^ scale.toNat := by
      rw [← zpow_natCast, Int.toNat_of_nonneg hwhole]
    rw [List.append_nil, hdigits] at h
    refine h.trans ?_
    rw [hscale]
    congr 1
    push_cast
    rw [pow_succ, List.length_singleton, zero_sub, Nat.cast_one, zpow_neg_one]
    ring
  · -- `d.ds`, with the point among the digits
    have h := unsigned_point (e := 0) (ds.take (ds.length + scale).toNat)
      (ds.drop (ds.length + scale).toNat) [] (fun c hc => hds c (List.mem_of_mem_take hc))
      (by simp only [Ne, List.take_eq_nil_iff, hne, or_false]; omega)
      (fun c hc => hds c (List.mem_of_mem_drop hc)) (by simp) rfl
    rw [List.append_nil, List.take_append_drop, List.length_drop] at h
    rw [h]
    congr 3
    omega
  · -- `de+xx`
    have h := unsigned_whole ds ('e' :: printExponent (ds.length + scale - 1)) hds hne
      (by simp) (exponent_printExponent _)
    rw [h]
    congr 3
    omega
  · -- `d.dse+xx`
    have h := unsigned_point (ds.take 1) (ds.drop 1)
      ('e' :: printExponent (ds.length + scale - 1)) (fun c hc => hds c (List.mem_of_mem_take hc))
      (by simp [hne]) (fun c hc => hds c (List.mem_of_mem_drop hc)) (by simp)
      (exponent_printExponent _)
    rw [List.take_append_drop, List.length_drop] at h
    rw [List.append_assoc, List.cons_append, h]
    congr 3
    omega

/-! ### A whole number is read back -/

/-- An integer. -/
def printInteger (n : ℤ) : Text :=
  if n < 0 then '-' :: Nat.toDigits 10 n.natAbs else Nat.toDigits 10 n.natAbs

theorem toDigits_pos {n : ℕ} (h : 0 < n) :
    ∃ d t, Nat.toDigits 10 n = d :: t ∧ d.isDigit = true ∧ d ≠ '0' := by
  induction n using Nat.strong_induction_on with
  | _ n ih =>
    obtain hlt | hle := lt_or_ge n 10
    · have hdigit : ∀ n < 10, 0 < n → n.digitChar.isDigit = true ∧ n.digitChar ≠ '0' := by decide
      exact ⟨_, [], Nat.toDigits_of_lt_base hlt, hdigit n hlt h⟩
    · -- all but the last digit are those of `n / 10`
      obtain ⟨d, t, ht, hd⟩ := ih (n / 10) (by omega) (by omega)
      rw [Nat.toDigits_of_base_le (by decide) hle, ht]
      exact ⟨d, _, rfl, hd⟩

/-- Its digits, with no zero in front of others. -/
theorem toDigits_cases (n : ℕ) : n = 0 ∨
    ∃ d t, Nat.toDigits 10 n = d :: t ∧ d.isDigit = true ∧ d ≠ '0' := by
  obtain rfl | h := n.eq_zero_or_pos
  · exact .inl rfl
  · exact .inr (toDigits_pos h)

theorem integer_toDigits (n : ℕ) : integer (Nat.toDigits 10 n) = some (n : ℤ) := by
  have hnat := natural_toDigits n
  obtain rfl | ⟨d, t, ht, hd, -⟩ := toDigits_cases n
  · rfl
  · rw [ht] at hnat ⊢
    have hsign : d ≠ '-' ∧ d ≠ '+' := by
      constructor <;> rintro rfl <;> cases hd
    simp [integer, hsign, hnat]

theorem integer_printInteger (n : ℤ) : integer (printInteger n) = some n := by
  have habs : (n.natAbs : ℤ) = |n| := Int.natCast_natAbs n
  rw [printInteger]
  split_ifs with hn
  · rw [abs_of_neg hn] at habs
    simp [integer, natural_toDigits, habs]
  · rw [abs_of_nonneg (not_lt.mp hn)] at habs
    rw [integer_toDigits, habs]

/-! ### A double is read back -/

/-- The characters of a number. -/
def isPart (c : Char) : Bool := c.isDigit || c = '.' || c = 'e' || c = '+' || c = '-'

theorem isPart_toDigits (n : ℕ) : ∀ c ∈ Nat.toDigits 10 n, isPart c = true := by
  intro c hc
  simp [isPart, isDigit_toDigits n c hc]

theorem isPart_printExponent (x : ℤ) : ∀ c ∈ printExponent x, isPart c = true := by
  have hds := isPart_toDigits x.natAbs
  intro c hc
  rw [printExponent] at hc
  obtain rfl | hc := List.mem_cons.mp hc
  · split_ifs <;> rfl
  · split_ifs at hc
    · obtain rfl | hc := List.mem_cons.mp hc
      · rfl
      · exact hds c hc
    · exact hds c hc

theorem isPart_layout (hds : ∀ c ∈ ds, isPart c = true) (scale : ℤ) :
    ∀ c ∈ layout ds scale, isPart c = true := by
  intro c hc
  have hexp := isPart_printExponent (ds.length + scale - 1) c
  unfold layout at hc
  simp only at hc
  split_ifs at hc <;>
    simp only [List.mem_append, List.mem_cons, List.mem_replicate, List.not_mem_nil, or_false] at hc
  · obtain rfl | rfl | ⟨-, rfl⟩ | hc := hc
    exacts [rfl, rfl, rfl, hds c hc]
  · obtain (hc | ⟨-, rfl⟩) | rfl | rfl := hc
    exacts [hds c hc, rfl, rfl, rfl]
  · obtain hc | rfl | hc := hc
    exacts [hds c (List.mem_of_mem_take hc), rfl, hds c (List.mem_of_mem_drop hc)]
  · obtain hc | rfl | hc := hc
    exacts [hds c hc, rfl, hexp hc]
  · obtain (hc | rfl | hc) | rfl | hc := hc
    exacts [hds c (List.mem_of_mem_take hc), rfl, hds c (List.mem_of_mem_drop hc), rfl, hexp hc]

theorem isSpace_of_isPart {c : Char} (h : isPart c = true) : Text.isSpace c = false := by
  have hc : c.isDigit = true ∨ c = '.' ∨ c = 'e' ∨ c = '+' ∨ c = '-' := by
    simpa [isPart, or_assoc] using h
  obtain hc | rfl | rfl | rfl | rfl := hc
  · have hrange := Text.toNat_of_isDigit hc
    simp [Text.isSpace]
    omega
  all_goals rfl

theorem strip_eq (h : ∀ c ∈ s, Text.isSpace c = false) : s.strip = s := by
  have hdrop : ∀ t : Text, (∀ c ∈ t, Text.isSpace c = false) → t.dropWhile Text.isSpace = t := by
    intro t ht
    cases t with
    | nil => rfl
    | cons c t => simp [ht c (.head _)]
  rw [Text.strip, hdrop s h, List.rdropWhile, hdrop _ fun c hc => h c (List.mem_reverse.mp hc),
    List.reverse_reverse]

/-- It begins with a digit or a point, so that it is none of the words. -/
theorem signed_of_unsigned (negative : Bool) (h : unsigned s = some q) :
    signed negative s = some (if negative then (ofRat q).neg else ofRat q) ∧
      ∃ c t, s = c :: t ∧ c ≠ '-' ∧ c ≠ '+' := by
  cases s with
  | nil => simp [unsigned, fraction] at h
  | cons c t =>
    have hc : c.isDigit = true ∨ c = '.' := by
      by_contra hc
      push Not at hc
      simp [unsigned, fraction, hc] at h
    have hlower : c.toLower = c ∧ c ≠ 'i' ∧ c ≠ 'n' ∧ c ≠ '-' ∧ c ≠ '+' := by
      obtain hc | rfl := hc
      · have hrange := (Text.toNat_of_isDigit hc).2
        refine ⟨?_, ?_, ?_, ?_, ?_⟩
        · refine dif_neg ?_
          rintro ⟨hA, -⟩
          have hA : 65 ≤ c.toNat := hA
          omega
        all_goals rintro rfl; cases hc
      · decide
    refine ⟨?_, c, t, rfl, hlower.2.2.2⟩
    simp [signed, infinities, hlower, h]

theorem candidate_spec {scale : ℤ} (h : candidate a k = some (c, scale)) :
    rounded (c * 10 ^ scale) = a ∧ scale = Int.log 10 a + 1 - k ∧ c ≤ 10 ^ k := by
  -- below the power of ten above `a` there are `10 ^ k` multiples of the last place
  have hlow : ⌊a / 10 ^ (Int.log 10 a + 1 - k)⌋₊ < 10 ^ k := by
    have hunit : (0 : ℚ) < 10 ^ (Int.log 10 a + 1 - k) := zpow_pos (by norm_num) _
    rw [Nat.floor_lt' (by positivity), div_lt_iff₀ hunit]
    push_cast
    rw [← zpow_natCast, ← zpow_add₀ (by norm_num), add_sub_cancel]
    exact_mod_cast Int.lt_zpow_succ_log_self (by norm_num : 1 < 10) a
  unfold candidate at h
  simp only at h
  split_ifs at h with hc hc
  · obtain ⟨rfl, rfl⟩ := Prod.mk.inj (Option.some.inj h)
    exact ⟨by simpa using hc.1, rfl, hlow.le⟩
  · obtain ⟨rfl, rfl⟩ := Prod.mk.inj (Option.some.inj h)
    exact ⟨by simpa using hc, rfl, hlow⟩

theorem shortest_spec (h : IsDouble a ∧ 0 < a) :
    ∃ k ≤ enough a, candidate a k = some ((shortest a h).1, (shortest a h).2) := by
  have hex : ∃ k, (candidate a k).isSome := ⟨enough a, candidate_enough h⟩
  exact ⟨Nat.find hex, Nat.find_min' hex (candidate_enough h), (Option.some_get _).symm⟩

theorem unsigned_positive (h : IsDouble a ∧ 0 < a) :
    ∃ q, unsigned (positive a h) = some q ∧ rounded q = a := by
  obtain ⟨k, -, hk⟩ := shortest_spec h
  obtain ⟨hread, -⟩ := candidate_spec hk
  refine ⟨_, unsigned_layout (isDigit_toDigits _) Nat.toDigits_ne_nil _, ?_⟩
  rw [digits, Nat.ofDigitChars_toDigits (by decide) (by decide)]
  exact hread

theorem unsigned_zero : unsigned ['0', '.', '0'] = some 0 := by
  have hzero : digits (['0'] ++ ['0']) = 0 := by decide
  refine (unsigned_point (e := 0) ['0'] ['0'] [] (by simp) (by simp) (by simp) (by simp) rfl).trans ?_
  rw [hzero, Nat.cast_zero, zero_mul]

theorem ofRat_of_rounded {r : ℚ} (h : rounded r = a) (ha : IsDouble a) :
    ofRat r = .finite a ha := by
  subst h
  rw [ofRat, dif_pos ha.abs_lt]

theorem isPart_positive (h : IsDouble a ∧ 0 < a) : ∀ c ∈ positive a h, isPart c = true :=
  isPart_layout (isPart_toDigits _) _

variable {negZero : Bool}

/-- It has no blank for `strip` to take. -/
theorem strip_repr (h : IsDouble q) : (repr negZero q h).strip = repr negZero q h := by
  have hpart : ∀ c ∈ repr negZero q h, isPart c = true := by
    unfold repr
    split_ifs
    · exact isPart_positive _
    · rintro c (_ | ⟨_, hc⟩)
      · rfl
      · exact isPart_positive _ c hc
    · intro c hc
      have hc : c = '-' ∨ c = '0' ∨ c = '.' ∨ c = '0' := by simpa using hc
      obtain rfl | rfl | rfl | rfl := hc <;> rfl
    · intro c hc
      have hc : c = '0' ∨ c = '.' ∨ c = '0' := by simpa using hc
      obtain rfl | rfl | rfl := hc <;> rfl
  exact strip_eq fun c hc => isSpace_of_isPart (hpart c hc)

/-- **A zero is read back with its sign.** -/
theorem minus_repr (h : IsDouble 0) : minus (repr negZero 0 h) = negZero := by
  rw [minus, strip_repr, repr, dif_neg (lt_irrefl 0), dif_neg (lt_irrefl 0)]
  cases negZero <;> rfl

/-- **A double is read back.** -/
theorem float_repr (h : IsDouble q) : float (repr negZero q h) = some (.finite q h) := by
  unfold float
  rw [strip_repr, repr]
  split_ifs with hpos hneg hminus
  · -- with no sign in front, the first character must not be taken for one
    obtain ⟨r, hread, hround⟩ := unsigned_positive ⟨h, hpos⟩
    obtain ⟨hsigned, c, t, ht, hminus, hplus⟩ := signed_of_unsigned false hread
    rw [ht] at hsigned ⊢
    split
    · next heq => exact absurd (List.cons.inj heq).1 hminus
    · next heq => exact absurd (List.cons.inj heq).1 hplus
    · simpa [ofRat_of_rounded hround h] using hsigned
  · have hneg' : IsDouble (-q) := h.neg
    obtain ⟨r, hread, hround⟩ := unsigned_positive ⟨hneg', neg_pos.mpr hneg⟩
    obtain ⟨hsigned, -⟩ := signed_of_unsigned true hread
    refine hsigned.trans ?_
    simp [ofRat_of_rounded hround hneg', Double.neg]
  · obtain rfl : q = 0 := by linarith
    obtain ⟨hsigned, -⟩ := signed_of_unsigned true unsigned_zero
    refine hsigned.trans ?_
    simp [ofRat_of_rounded h.rounded_eq h, Double.neg]
  · obtain rfl : q = 0 := by linarith
    obtain ⟨hsigned, -⟩ := signed_of_unsigned false unsigned_zero
    refine hsigned.trans ?_
    rw [ofRat_of_rounded h.rounded_eq h]
    rfl

/-! ### How long it is -/

theorem length_printExponent_le (x : ℤ) : (printExponent x).length ≤ x.natAbs + 3 := by
  have hdigits : (Nat.toDigits 10 x.natAbs).length ≤ x.natAbs + 1 := by
    rw [Nat.length_toDigits_le_iff (by decide) (Nat.succ_pos _)]
    exact (Nat.lt_pow_self (by decide)).trans_le (Nat.pow_le_pow_right (by decide) (Nat.le_succ _))
  rw [printExponent, List.length_cons]
  split_ifs
  · rw [List.length_cons]
    omega
  · omega

theorem length_layout_le (ds : Text) (scale : ℤ) :
    (layout ds scale).length ≤ 2 * ds.length + scale.natAbs + 18 := by
  have hexp := length_printExponent_le (ds.length + scale - 1)
  unfold layout
  simp only
  split_ifs <;>
    simp only [List.length_append, List.length_cons, List.length_replicate, List.length_nil,
      List.length_take, List.length_drop]
  all_goals omega

theorem length_positive_le (h : IsDouble a ∧ 0 < a) : (positive a h).length ≤ 9000 := by
  obtain ⟨k, hk, hc⟩ := shortest_spec h
  obtain ⟨-, hscale, hdigits⟩ := candidate_spec hc
  have hlen : (Nat.toDigits 10 (shortest a h).1).length ≤ k + 1 := by
    rw [Nat.length_toDigits_le_iff (by decide) (Nat.succ_pos _)]
    exact hdigits.trans_lt (Nat.pow_lt_pow_right (by decide) (Nat.lt_succ_self k))
  have hlayout := length_layout_le (Nat.toDigits 10 (shortest a h).1) (shortest a h).2
  have hlog := log_bounds h.1 h.2
  rw [enough] at hk
  rw [positive]
  omega

theorem length_repr_le (h : IsDouble q) : (repr negZero q h).length ≤ 10000 := by
  unfold repr
  split_ifs
  · exact (length_positive_le _).trans (by decide)
  · rw [List.length_cons]
    have := length_positive_le (a := -q) ⟨h.neg, by linarith⟩
    omega
  · decide
  · decide

end BellasReef.Support.DecimalText
