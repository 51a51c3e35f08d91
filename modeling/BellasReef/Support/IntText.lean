import BellasReef.Support.Lines

/-!
# Support — Integer text

`int`, of a text, as Python reads it: white space around it, a sign, and decimal digits of any
script, with single underscores between them.  There are at most `maxDigits` of them.

* `int_isSome_iff`: of digits after an optional minus, only too many are refused.
-/

namespace BellasReef.Support.IntText

/-- The zeros of the scripts in Unicode 15.1; each has its other nine digits after it. -/
def zeros : List ℕ :=
  [0x30, 0x660, 0x6f0, 0x7c0, 0x966, 0x9e6, 0xa66, 0xae6, 0xb66, 0xbe6, 0xc66, 0xce6, 0xd66, 0xde6,
    0xe50, 0xed0, 0xf20, 0x1040, 0x1090, 0x17e0, 0x1810, 0x1946, 0x19d0, 0x1a80, 0x1a90, 0x1b50,
    0x1bb0, 0x1c40, 0x1c50, 0xa620, 0xa8d0, 0xa900, 0xa9d0, 0xa9f0, 0xaa50, 0xabf0, 0xff10, 0x104a0,
    0x10d30, 0x11066, 0x110f0, 0x11136, 0x111d0, 0x112f0, 0x11450, 0x114d0, 0x11650, 0x116c0,
    0x11730, 0x118e0, 0x11950, 0x11c50, 0x11d50, 0x11da0, 0x11f50, 0x16a60, 0x16ac0, 0x16b50,
    0x1d7ce, 0x1d7d8, 0x1d7e2, 0x1d7ec, 0x1d7f6, 0x1e140, 0x1e2f0, 0x1e4f0, 0x1e950, 0x1fbf0]

/-- `unicodedata.decimal`. -/
def decimal (c : Char) : Option ℕ :=
  (zeros.find? fun z => z ≤ c.toNat && c.toNat < z + 10).map (c.toNat - ·)

/-- `str.isdecimal`, of a character. -/
def isDecimal (c : Char) : Bool := (decimal c).isSome

/-- Digits with single underscores between them, the most significant first. -/
def digits : Text → Option (List ℕ)
  | [] => none
  | [c] => (decimal c).map ([·])
  | c :: '_' :: s => (decimal c).bind fun d => (digits s).map (d :: ·)
  | c :: s => (decimal c).bind fun d => (digits s).map (d :: ·)

/-- `sys.get_int_max_str_digits`, unless it is set. -/
def maxDigits : ℕ := 4300

/-- The number of decimal digits. -/
def ofDigits (ds : List ℕ) : ℕ := ds.foldl (fun n d => 10 * n + d) 0

/-- The number, where it has no more than `maxDigits` digits. -/
def natural (s : Text) : Option ℕ :=
  (digits s).bind fun ds => if ds.length ≤ maxDigits then some (ofDigits ds) else none

/-- What `int` takes off the ends of a text: no separator of ASCII's is among it. -/
def isPadding (c : Char) : Bool := Text.isSpace c && !(28 ≤ c.toNat && c.toNat ≤ 31)

/-- Without the blanks at its ends. -/
def trim (s : Text) : Text := (s.dropWhile isPadding).rdropWhile isPadding

/-- A sign, and a natural number. -/
def signed : Text → Option ℤ
  | '-' :: s => (natural s).map fun n : ℕ => -(n : ℤ)
  | '+' :: s => (natural s).map fun n : ℕ => (n : ℤ)
  | s => (natural s).map fun n : ℕ => (n : ℤ)

/-- `int`, of a text; `none` where it raises `ValueError`. -/
def int (s : Text) : Option ℤ := signed (trim s)

variable {c : Char} {s ds : Text}

theorem isSpace_of_isDecimal (h : isDecimal c = true) : Text.isSpace c = false := by
  obtain ⟨z, hz, hlo, hhi⟩ : ∃ z ∈ zeros, z ≤ c.toNat ∧ c.toNat < z + 10 := by
    simpa [isDecimal, decimal, List.find?_isSome] using h
  have hoff : ∀ z ∈ zeros, 32 < z ∧ (z + 9 < 0x85 ∨ 0xa0 < z) ∧ (z + 9 < 0x1680 ∨ 0x1680 < z) ∧
      (z + 9 < 0x2000 ∨ 0x205f < z) ∧ (z + 9 < 0x3000 ∨ 0x3000 < z) := by
    decide
  have hz := hoff z hz
  simp only [Text.isSpace, Bool.or_eq_false_iff, Bool.and_eq_false_iff, decide_eq_false_iff_not]
  omega

theorem trim_eq (h : ∀ c ∈ s, Text.isSpace c = false) : trim s = s := by
  have hpad : ∀ c ∈ s, ¬isPadding c = true := fun c hc => by simp [isPadding, h c hc]
  cases s with
  | nil => rfl
  | cons x s =>
      rw [trim, List.dropWhile_cons_of_neg (hpad x List.mem_cons_self), List.rdropWhile_eq_self_iff]
      exact fun hne => hpad _ (List.getLast_mem hne)

theorem digits_of_isDecimal (hne : s ≠ []) (h : ∀ c ∈ s, isDecimal c = true) :
    ∃ ds, digits s = some ds ∧ ds.length = s.length := by
  induction s using digits.induct with
  | case1 => exact absurd rfl hne
  | case2 c =>
      obtain ⟨d, hd⟩ := Option.isSome_iff_exists.mp (h c List.mem_cons_self)
      exact ⟨[d], by rw [digits, hd]; rfl, rfl⟩
  | case3 c s ih => exact absurd (h '_' (by simp)) (by decide)
  | case4 c s hnil hunder ih =>
      obtain ⟨hc, hs⟩ := List.forall_mem_cons.mp h
      obtain ⟨d, hd⟩ := Option.isSome_iff_exists.mp hc
      obtain ⟨ds, hds, hlen⟩ := ih (fun he => hnil he) hs
      refine ⟨d :: ds, ?_, by simp [hlen]⟩
      rw [digits, hd, hds]
      · rfl
      · exact hnil
      · exact hunder

theorem natural_isSome_iff (hne : ds ≠ []) (hds : ∀ c ∈ ds, isDecimal c = true) :
    (natural ds).isSome ↔ ds.length ≤ maxDigits := by
  obtain ⟨values, hvalues, hlen⟩ := digits_of_isDecimal hne hds
  rw [natural, hvalues, Option.bind_some, hlen]
  split <;> simp_all

/-- **Of digits after an optional minus**, only too many are refused. -/
theorem int_isSome_iff {sign : Text} (hsign : sign = [] ∨ sign = ['-']) (hne : ds ≠ [])
    (hds : ∀ c ∈ ds, isDecimal c = true) :
    (int (sign ++ ds)).isSome ↔ ds.length ≤ maxDigits := by
  have hspace : ∀ c ∈ ds, Text.isSpace c = false := fun c hc => isSpace_of_isDecimal (hds c hc)
  obtain rfl | rfl := hsign
  · rw [List.nil_append, int, trim_eq hspace, ← natural_isSome_iff hne hds]
    obtain ⟨x, s, rfl⟩ := List.exists_cons_of_ne_nil hne
    have hx := hds x List.mem_cons_self
    have hsigned : signed (x :: s) = (natural (x :: s)).map fun n : ℕ => (n : ℤ) := by
      rw [signed]
      · rintro t ⟨⟩
        exact absurd hx (by decide)
      · rintro t ⟨⟩
        exact absurd hx (by decide)
    rw [hsigned, Option.isSome_map]
  · have hall : ∀ c ∈ '-' :: ds, Text.isSpace c = false :=
      List.forall_mem_cons.mpr ⟨by decide, hspace⟩
    rw [List.singleton_append, int, trim_eq hall, signed, Option.isSome_map,
      natural_isSome_iff hne hds]

/-- What digits come to. -/
theorem int_digits (hne : ds ≠ []) (hds : ∀ c ∈ ds, isDecimal c = true) :
    int ds = (natural ds).map fun n : ℕ => (n : ℤ) := by
  rw [int, trim_eq fun c hc => isSpace_of_isDecimal (hds c hc)]
  obtain ⟨x, s, rfl⟩ := List.exists_cons_of_ne_nil hne
  have hx := hds x List.mem_cons_self
  rw [signed]
  · rintro t ⟨⟩
    exact absurd hx (by decide)
  · rintro t ⟨⟩
    exact absurd hx (by decide)

/-- The digits of ASCII. -/
theorem decimal_of_isDigit (h : c.isDigit = true) : decimal c = some (c.toNat - 48) := by
  obtain ⟨hlo, hhi⟩ := Text.toNat_of_isDigit h
  have hfirst : zeros = 0x30 :: zeros.tail := rfl
  rw [decimal, hfirst, List.find?_cons_of_pos (by simp; omega)]
  rfl

theorem natural_ascii (hne : ds ≠ []) (hds : ∀ c ∈ ds, c.isDigit = true)
    (hlen : ds.length ≤ maxDigits) : natural ds = some (Nat.ofDigitChars 10 ds 0) := by
  have hdigits : ∀ {s : Text}, s ≠ [] → (∀ c ∈ s, c.isDigit = true) →
      digits s = some (s.map fun c => c.toNat - 48) := by
    intro s hne hs
    induction s using digits.induct with
    | case1 => exact absurd rfl hne
    | case2 c => rw [digits, decimal_of_isDigit (hs c List.mem_cons_self)]; rfl
    | case3 c s ih => exact absurd (hs '_' (by simp)) (by decide)
    | case4 c s hnil hunder ih =>
        obtain ⟨hc, hs⟩ := List.forall_mem_cons.mp hs
        rw [digits, decimal_of_isDigit hc, ih (fun he => hnil he) hs]
        · rfl
        · exact hnil
        · exact hunder
  rw [natural, hdigits hne hds, Option.bind_some, List.length_map, if_pos hlen, ofDigits,
    List.foldl_map, Nat.ofDigitChars]
  rfl

end BellasReef.Support.IntText
