import BellasReef.Support.Lines
import BellasReef.Support.Lists

/-!
# Support — JSON text

JSON as text, over characters: `loads` reads it, and `printString`, `printArray` and `printObject`
write it without a blank.  What a text reads as is put together from what its parts do (`Reads`).

* `Reads.string`, `Reads.array`, `Reads.object`: what is written is read back.
* `value_extends`: what is read off a text, but for a number at its end, is read off any that goes
  on after it.
* `loads_eq_none_of_append`: so no object's text that is cut short is read at all.

A `\u` escape of half a surrogate pair is refused, since a text has whole characters.
-/

namespace BellasReef.Support.JsonText

/-- A JSON value whose numbers are kept as they are written. -/
inductive Value where
  | null
  | bool (b : Bool)
  /-- A number, as it is written. -/
  | number (token : Text)
  | string (s : Text)
  | array (xs : List Value)
  | object (fields : List (Text × Value))

/-! ### Reading -/

/-- JSON's white space. -/
def isBlank (c : Char) : Bool := c = ' ' || c = '\t' || c = '\n' || c = '\r'

/-- The text from its first character that is not blank. -/
def skipBlanks (s : Text) : Text := s.dropWhile isBlank

/-- The value of a hexadecimal digit. -/
def hexValue (c : Char) : Option ℕ :=
  if c.isDigit then some (c.toNat - 48)
  else if 'a' ≤ c ∧ c ≤ 'f' then some (c.toNat - 87)
  else if 'A' ≤ c ∧ c ≤ 'F' then some (c.toNat - 55)
  else none

/-- The character of `\uabcd`. -/
def unicodeEscape (a b c d : Char) : Option Char := do
  let n := 4096 * (← hexValue a) + 256 * (← hexValue b) + 16 * (← hexValue c) + (← hexValue d)
  if n.isValidChar then some (Char.ofNat n) else none

/-- The character of any other escape. -/
def plainEscape (c : Char) : Option Char :=
  if c = '"' ∨ c = '\\' ∨ c = '/' then some c
  else if c = 'b' then some (Char.ofNat 8)
  else if c = 'f' then some (Char.ofNat 12)
  else if c = 'n' then some '\n'
  else if c = 'r' then some '\r'
  else if c = 't' then some '\t'
  else none

/-- A string, after its opening quote, and what comes after it. -/
def scanString : Text → Option (Text × Text)
  | [] => none
  | '"' :: s => some ([], s)
  | '\\' :: 'u' :: a :: b :: c :: d :: s => do
      let x ← unicodeEscape a b c d
      (scanString s).map fun (t, r) => (x :: t, r)
  | '\\' :: e :: s => do
      let x ← plainEscape e
      (scanString s).map fun (t, r) => (x :: t, r)
  | c :: s =>
      if c = '\\' ∨ c.toNat < 32 then none else (scanString s).map fun (t, r) => (c :: t, r)

/-- What a number is written with. -/
def isNumberChar (c : Char) : Bool :=
  c.isDigit || c = '-' || c = '+' || c = '.' || c = 'e' || c = 'E'

/-- An exponent, or nothing. -/
def validExponent : Text → Bool
  | [] => true
  | e :: s => (e = 'e' || e = 'E') &&
      match s with
      | '+' :: s | '-' :: s | s => s ≠ [] && s.all Char.isDigit

/-- A fraction and an exponent, or nothing. -/
def validFraction : Text → Bool
  | '.' :: s => s.takeWhile Char.isDigit ≠ [] && validExponent (s.dropWhile Char.isDigit)
  | s => validExponent s

/-- The grammar of a number. -/
def validNumber : Text → Bool
  | '-' :: '0' :: s | '0' :: s => validFraction s
  | '-' :: s | s =>
      s.takeWhile Char.isDigit ≠ [] && s.head? ≠ some '0' &&
        validFraction (s.dropWhile Char.isDigit)

/-- Items with commas between them, and the bracket that closes them. -/
def items {α : Type} (item : Text → Option (α × Text)) (close : Char) :
    ℕ → Text → Option (List α × Text)
  | 0, _ => none
  | n + 1, s => do
      let (x, s) ← item (skipBlanks s)
      match skipBlanks s with
      | c :: s =>
          if c = ',' then (items item close n s).map fun (xs, s) => (x :: xs, s)
          else if c = close then some ([x], s)
          else none
      | [] => none

/-- What is between two brackets, from after the first. -/
def bracketed {α : Type} (item : Text → Option (α × Text)) (close : Char) (n : ℕ) (s : Text) :
    Option (List α × Text) :=
  if (skipBlanks s).head? = some close then some ([], (skipBlanks s).tail)
  else items item close n s

/-- A name, a colon and a value. -/
def member (value : Text → Option (Value × Text)) : Text → Option ((Text × Value) × Text)
  | '"' :: s => do
      let (name, s) ← scanString s
      match skipBlanks s with
      | ':' :: s => (value (skipBlanks s)).map fun (v, s) => ((name, v), s)
      | _ => none
  | _ => none

/-- A literal, off the front. -/
def literal (word : Text) (v : Value) (s : Text) : Option (Value × Text) :=
  if word <+: s then some (v, s.drop word.length) else none

/-- Python's words for the numbers that JSON does not have; the second may have a sign. -/
def nan : Text := ['N', 'a', 'N']

/-- What JavaScript calls an infinity. -/
def infinity : Text := ['I', 'n', 'f', 'i', 'n', 'i', 't', 'y']

/-- A number at the head of the text, and what follows it. -/
def number (s : Text) : Option (Value × Text) :=
  if validNumber (s.takeWhile isNumberChar) then
    some (.number (s.takeWhile isNumberChar), s.dropWhile isNumberChar)
  else
    ((literal nan (.number nan) s).or (literal infinity (.number infinity) s)).or
      (literal ('-' :: infinity) (.number ('-' :: infinity)) s)

/-- A value, and what comes after it, with fuel for its depth and for its items. -/
def value : ℕ → Text → Option (Value × Text)
  | 0, _ => none
  | n + 1, s =>
      match s with
      | [] => none
      | c :: rest =>
          if c = '"' then (scanString rest).map fun (t, r) => (.string t, r)
          else if c = '[' then
            (bracketed (value n) ']' n rest).map fun (xs, r) => (.array xs, r)
          else if c = '{' then
            (bracketed (member (value n)) '}' n rest).map fun (fs, r) => (.object fs, r)
          else if c = 'n' then literal ['n', 'u', 'l', 'l'] .null s
          else if c = 't' then literal ['t', 'r', 'u', 'e'] (.bool true) s
          else if c = 'f' then literal ['f', 'a', 'l', 's', 'e'] (.bool false) s
          else number s

/-- `json.loads`; `none` where it raises. -/
def loads (s : Text) : Option Value := do
  let (v, r) ← value (s.length + 1) (skipBlanks s)
  if skipBlanks r = [] then some v else none

/-! ### Writing -/

/-- Which control characters a writer has a short escape for, and its hexadecimal digits. -/
structure Style where
  short : Char → Bool
  upper : Char → Bool

/-- A hexadecimal digit in either case. -/
def hexDigit (upper : Bool) (n : ℕ) : Char :=
  Char.ofNat (if n < 10 then 48 + n else if upper then 55 + n else 87 + n)

/-- The letter of a short escape. -/
def shortEscape (c : Char) : Option Char :=
  if c = Char.ofNat 8 then some 'b'
  else if c = Char.ofNat 12 then some 'f'
  else if c = '\n' then some 'n'
  else if c = '\r' then some 'r'
  else if c = '\t' then some 't'
  else none

/-- Only the quote, the backslash and what is below U+0020 are escaped. -/
def escape (style : Style) (c : Char) : Text :=
  if c = '"' ∨ c = '\\' then ['\\', c]
  else if c.toNat < 32 then
    match if style.short c then shortEscape c else none with
    | some e => ['\\', e]
    | none =>
        ['\\', 'u', '0', '0', hexDigit (style.upper c) (c.toNat / 16),
          hexDigit (style.upper c) (c.toNat % 16)]
  else [c]

/-- A string in its quotes. -/
def printString (style : Style) (s : Text) : Text := '"' :: s.flatMap (escape style) ++ ['"']

/-- Items that are written already, and the bracket after them. -/
def joinItems (close : Char) : List Text → Text
  | [] => [close]
  | [t] => t ++ [close]
  | t :: ts => t ++ ',' :: joinItems close ts

/-- The elements, between brackets. -/
def printArray (ts : List Text) : Text := '[' :: joinItems ']' ts

/-- A name and its value. -/
def printMember (style : Style) (name : Text) (t : Text) : Text :=
  printString style name ++ ':' :: t

/-- The members, between braces. -/
def printObject (ts : List Text) : Text := '{' :: joinItems '}' ts

/-! ### A text is read back -/

/-- No number goes on into the rest. -/
def Delimited (rest : Text) : Prop := ∀ c ∈ rest.head?, isNumberChar c = false

/-- Off the front of any text, and with any fuel that is no less than its length. -/
def Reads (t : Text) (v : Value) : Prop :=
  ∀ n ≥ t.length, ∀ rest, Delimited rest → value (n + 1) (t ++ rest) = some (v, rest)

variable {style : Style} {c : Char} {s t r rest : Text}

theorem hexEscape_control : ∀ (upper : Bool) (n : Fin 32),
    unicodeEscape '0' '0' (hexDigit upper (n / 16)) (hexDigit upper (n % 16)) =
      some (Char.ofNat n) := by
  decide

theorem hexEscape_of_control (upper : Bool) (hc : c.toNat < 32) :
    unicodeEscape '0' '0' (hexDigit upper (c.toNat / 16)) (hexDigit upper (c.toNat % 16)) =
      some c := by
  have h := hexEscape_control upper ⟨c.toNat, hc⟩
  simpa using h

theorem plainEscape_of_shortEscape {e : Char} (h : shortEscape c = some e) :
    plainEscape e = some c ∧ e ≠ 'u' := by
  unfold shortEscape at h
  split_ifs at h with hb hf hn hr ht <;> subst_vars <;> obtain rfl := Option.some.inj h <;>
    exact ⟨rfl, by decide⟩

theorem scanString_plainEscape {e x : Char} (he : plainEscape e = some x) (hu : e ≠ 'u') :
    scanString ('\\' :: e :: s) = (scanString s).map fun p => (x :: p.1, p.2) := by
  rw [scanString.eq_4 _ _ fun _ _ _ _ _ h => absurd h hu, he]
  rfl

theorem scanString_plain (hq : ¬(c = '"' ∨ c = '\\')) (hc : ¬c.toNat < 32) :
    scanString (c :: s) = (scanString s).map fun p => (c :: p.1, p.2) := by
  obtain ⟨hq, hb⟩ := not_or.mp hq
  rw [scanString.eq_5 _ _ hq (fun _ _ _ _ _ h => absurd h hb) fun _ _ h => absurd h hb,
    if_neg (not_or.mpr ⟨hb, hc⟩)]

theorem scanString_escape (style : Style) (c : Char) (s : Text) :
    scanString (escape style c ++ s) = (scanString s).map fun p => (c :: p.1, p.2) := by
  rw [escape]
  split_ifs with hq hcontrol hshort
  · obtain rfl | rfl := hq <;> rfl
  · cases he : shortEscape c with
    | some e =>
      obtain ⟨he, hu⟩ := plainEscape_of_shortEscape he
      exact scanString_plainEscape he hu
    | none =>
      simp only [List.cons_append, List.nil_append, scanString, hexEscape_of_control _ hcontrol]
      rfl
  · simp only [List.cons_append, List.nil_append, scanString, hexEscape_of_control _ hcontrol]
    rfl
  · exact scanString_plain hq hcontrol

theorem scanString_flatMap (style : Style) (s r : Text) :
    scanString (s.flatMap (escape style) ++ '"' :: r) = some (s, r) := by
  induction s with
  | nil => rfl
  | cons c s ih =>
    rw [List.flatMap_cons, List.append_assoc, scanString_escape, ih]
    rfl

theorem scanString_printString (style : Style) (s r : Text) :
    ∃ rest, printString style s ++ r = '"' :: rest ∧ scanString rest = some (s, r) := by
  refine ⟨s.flatMap (escape style) ++ '"' :: r, ?_, scanString_flatMap style s r⟩
  simp [printString]

/-! ### What a value begins with -/

theorem value_cons_eq_none (hc : isBlank c = true ∨ c = ']' ∨ c = '}') (n : ℕ) (s : Text) :
    value n (c :: s) = none := by
  have hc : c = ' ' ∨ c = '\t' ∨ c = '\n' ∨ c = '\r' ∨ c = ']' ∨ c = '}' := by
    simpa [isBlank, or_assoc] using hc
  cases n with
  | zero => rfl
  | succ n =>
    obtain rfl | rfl | rfl | rfl | rfl | rfl := hc <;>
      simp [value, number, isNumberChar, validNumber, literal, nan, infinity]

theorem skipBlanks_cons (hc : isBlank c = false) : skipBlanks (c :: s) = c :: s := by
  rw [skipBlanks, List.dropWhile_cons_of_neg (by simp [hc])]

/-- Off the front of any text that no number goes on into; it has no blank in front. -/
structure ItemReads {α : Type} (item : Text → Option (α × Text)) (t : Text) (x : α) : Prop where
  reads : ∀ rest, Delimited rest → item (t ++ rest) = some (x, rest)
  start : ∃ c t', t = c :: t' ∧ isBlank c = false ∧ c ≠ ']' ∧ c ≠ '}'

theorem delimited_cons (hc : isNumberChar c = false) : Delimited (c :: s) := by
  simpa [Delimited] using hc

theorem Reads.itemReads {v : Value} {n : ℕ} (h : Reads t v) (hn : t.length ≤ n) :
    ItemReads (value (n + 1)) t v where
  reads := h n hn
  start := by
    have h := h n hn [] (by simp [Delimited])
    rw [List.append_nil] at h
    cases t with
    | nil => simp [value] at h
    | cons c t =>
      by_contra hstart
      have hc : isBlank c = true ∨ c = ']' ∨ c = '}' := by
        by_contra hc
        push Not at hc
        exact hstart ⟨c, t, rfl, by simpa using hc.1, hc.2⟩
      rw [value_cons_eq_none hc] at h
      cases h

section Items

variable {α : Type} {item : Text → Option (α × Text)} {x : α} {xs : List α} {ts : List Text}
  {close : Char} {n : ℕ}

theorem items_joinItems (hclose : close = ']' ∨ close = '}')
    (h : List.Forall₂ (ItemReads item) ts xs) (hne : ts ≠ []) (hn : ts.length ≤ n) (rest : Text) :
    items item close n (joinItems close ts ++ rest) = some (xs, rest) := by
  have hblank : isBlank close = false ∧ isNumberChar close = false ∧ close ≠ ',' := by
    obtain rfl | rfl := hclose <;> decide
  induction h generalizing n with
  | nil => exact absurd rfl hne
  | @cons t x ts xs hx h ih =>
    -- the fuel is no less than the items that are left
    obtain ⟨n, rfl⟩ : ∃ m, n = m + 1 := ⟨n - 1, by grind⟩
    obtain ⟨c, t', rfl, hc, -⟩ := hx.start
    cases ts with
    | nil =>
      obtain rfl := List.forall₂_nil_left_iff.mp h
      have hread := hx.reads (close :: rest) (delimited_cons hblank.2.1)
      simp only [joinItems, items, List.cons_append, List.append_assoc, List.nil_append] at hread ⊢
      simp [skipBlanks_cons hc, hread, skipBlanks_cons hblank.1, hblank.2.2]
    | cons t ts =>
      have hread := hx.reads (',' :: (joinItems close (t :: ts) ++ rest)) (delimited_cons rfl)
      simp only [joinItems, items, List.cons_append, List.append_assoc] at hread ⊢
      simp [skipBlanks_cons hc, hread, skipBlanks_cons (c := ',') rfl,
        ih (List.cons_ne_nil _ _) (by simpa using hn)]

/-- The first item is no closing bracket. -/
theorem joinItems_start (close : Char) (h : List.Forall₂ (ItemReads item) ts xs) (hne : ts ≠ []) :
    ∃ c s, joinItems close ts = c :: s ∧ isBlank c = false ∧ c ≠ ']' ∧ c ≠ '}' := by
  cases h with
  | nil => exact absurd rfl hne
  | @cons t x ts xs hx h =>
    obtain ⟨c, t', rfl, hc⟩ := hx.start
    cases ts with
    | nil => exact ⟨c, _, rfl, hc⟩
    | cons t ts => exact ⟨c, _, rfl, hc⟩

end Items

theorem length_lt_joinItems {ts : List Text} (ht : t ∈ ts) (close : Char) :
    t.length < (joinItems close ts).length := by
  induction ts with
  | nil => cases ht
  | cons u ts ih =>
    cases ts with
    | nil => simp_all [joinItems]
    | cons u' ts =>
      simp only [joinItems, List.length_append, List.length_cons]
      obtain rfl | ht := List.mem_cons.mp ht
      · omega
      · have := ih ht
        omega

theorem card_le_joinItems (close : Char) (ts : List Text) :
    ts.length ≤ (joinItems close ts).length := by
  induction ts with
  | nil => exact Nat.zero_le _
  | cons u ts ih =>
    cases ts with
    | nil => simp [joinItems]
    | cons u' ts =>
      simp only [joinItems, List.length_append, List.length_cons] at ih ⊢
      omega

/-! ### What is written -/

theorem Reads.null : Reads ['n', 'u', 'l', 'l'] .null := fun n _ rest _ => by
  simp [value, literal]

theorem Reads.string (style : Style) (s : Text) : Reads (printString style s) (.string s) := by
  intro n _ rest _
  obtain ⟨q, hq, hs⟩ := scanString_printString style s rest
  simp [hq, value, hs]

theorem takeWhile_append_delimited (hchars : t.all isNumberChar = true) (hrest : Delimited rest) :
    (t ++ rest).takeWhile isNumberChar = t ∧ (t ++ rest).dropWhile isNumberChar = rest := by
  have hall : ∀ c ∈ t, isNumberChar c = true := by simpa using hchars
  rw [List.takeWhile_append_of_pos hall, List.dropWhile_append_of_pos hall]
  cases rest with
  | nil => simp
  | cons c rest =>
    have hc : isNumberChar c = false := hrest c rfl
    simp [hc]

theorem Reads.number (hvalid : validNumber t = true) (hchars : t.all isNumberChar = true) :
    Reads t (.number t) := by
  intro n _ rest hrest
  obtain ⟨htake, hdrop⟩ := takeWhile_append_delimited hchars hrest
  cases t with
  | nil => simp [validNumber] at hvalid
  | cons c t =>
    have hc : isNumberChar c = true := by simp_all
    -- it begins like nothing else that is a value
    have hother : c ≠ '"' ∧ c ≠ '[' ∧ c ≠ '{' ∧ c ≠ 'n' ∧ c ≠ 't' ∧ c ≠ 'f' := by
      refine ⟨?_, ?_, ?_, ?_, ?_, ?_⟩ <;> rintro rfl <;> simp [isNumberChar] at hc
    rw [List.cons_append] at htake hdrop ⊢
    simp only [value, number, hother, if_false, htake, hvalid, if_true, hdrop]

theorem bracketed_joinItems {α : Type} (item : ℕ → Text → Option (α × Text)) {close : Char}
    (hclose : close = ']' ∨ close = '}') {ts : List Text} {xs : List α} {n : ℕ}
    (hn : (joinItems close ts).length < n)
    (h : ∀ n, (∀ t ∈ ts, t.length ≤ n) → List.Forall₂ (ItemReads (item (n + 1))) ts xs)
    (rest : Text) :
    bracketed (item n) close n (joinItems close ts ++ rest) = some (xs, rest) := by
  obtain ⟨n, rfl⟩ : ∃ m, n = m + 1 := ⟨n - 1, by omega⟩
  have hitems := h n fun t ht => by have := length_lt_joinItems ht close; omega
  by_cases hts : ts = []
  · subst hts
    obtain rfl := List.forall₂_nil_left_iff.mp hitems
    have hblank : isBlank close = false := by obtain rfl | rfl := hclose <;> rfl
    simp [joinItems, bracketed, skipBlanks_cons hblank]
  · obtain ⟨c, s, hj, hc, hstart⟩ := joinItems_start close hitems hts
    have hread := items_joinItems hclose hitems hts
      (Nat.le_trans (card_le_joinItems close ts) (Nat.le_of_lt hn)) rest
    rw [hj, List.cons_append] at hread
    rw [hj, List.cons_append, bracketed, skipBlanks_cons hc, if_neg, hread]
    rintro hhead
    obtain rfl := Option.some.inj hhead
    obtain rfl | rfl := hclose
    · exact hstart.1 rfl
    · exact hstart.2 rfl

theorem Reads.array {ts : List Text} {vs : List Value} (h : List.Forall₂ Reads ts vs) :
    Reads (printArray ts) (.array vs) := by
  intro n hn rest _
  have hread := bracketed_joinItems value (.inl rfl) hn
    (fun n hlen => forall₂_of_mem h fun t ht v hr => hr.itemReads (hlen t ht)) rest
  simp [printArray, value, hread]

/-- A member, from its name's quote on. -/
def MemberReads (style : Style) (t : Text) (f : Text × Value) : Prop :=
  ∃ u, t = printMember style f.1 u ∧ Reads u f.2

theorem MemberReads.itemReads {f : Text × Value} {n : ℕ} (h : MemberReads style t f)
    (hn : t.length ≤ n) : ItemReads (member (value (n + 1))) t f := by
  obtain ⟨name, v⟩ := f
  obtain ⟨u, rfl, hu⟩ := h
  have hu := hu.itemReads (n := n) (by simp [printMember] at hn; omega)
  constructor
  · intro rest hrest
    obtain ⟨c, u, rfl, hc, -⟩ := hu.start
    obtain ⟨q, hq, hs⟩ := scanString_printString style name (':' :: (c :: u ++ rest))
    have hread := hu.reads rest hrest
    simp only [printMember, List.append_assoc, List.cons_append] at hq hs hread ⊢
    simp [hq, member, hs, skipBlanks_cons (c := ':') rfl, skipBlanks_cons hc, hread]
  · exact ⟨'"', _, rfl, rfl, by decide, by decide⟩

theorem Reads.object {ts : List Text} {fs : List (Text × Value)}
    (h : List.Forall₂ (MemberReads style) ts fs) : Reads (printObject ts) (.object fs) := by
  intro n hn rest _
  have hread := bracketed_joinItems (fun n => member (value n)) (.inr rfl) hn
    (fun n hlen => forall₂_of_mem h fun t ht f hr => hr.itemReads (hlen t ht)) rest
  simp [printObject, value, hread]

theorem Reads.loads {v : Value} (h : Reads t v) (ht : skipBlanks t = t) : loads t = some v := by
  have h := h t.length (Nat.le_refl _) [] (by simp [Delimited])
  rw [List.append_nil] at h
  rw [JsonText.loads, ht, h]
  rfl

/-! ### The characters that are written -/

/-- No control character, and either ASCII or one of `s`. -/
def Shows (s : Text) (d : Char) : Prop := 32 ≤ d.toNat ∧ (d.toNat < 128 ∨ d ∈ s)

theorem shows_hexDigit (upper : Bool) {n : ℕ} (hn : n < 16) : Shows [] (hexDigit upper n) := by
  have h : ∀ upper, ∀ n < 16, 32 ≤ (hexDigit upper n).toNat ∧ (hexDigit upper n).toNat < 128 := by
    decide
  exact ⟨(h upper n hn).1, .inl (h upper n hn).2⟩

theorem shows_shortEscape {e : Char} (h : shortEscape c = some e) : Shows [] e := by
  unfold shortEscape at h
  split_ifs at h <;> obtain rfl := Option.some.inj h <;> exact ⟨by decide, .inl (by decide)⟩

theorem shows_escape {d : Char} (hd : d ∈ escape style c) : Shows [c] d := by
  have hascii : ∀ {d : Char}, Shows [] d → Shows [c] d :=
    fun h => ⟨h.1, .inl (h.2.resolve_right List.not_mem_nil)⟩
  have hhex : ∀ n < 16, Shows [c] (hexDigit (style.upper c) n) :=
    fun n hn => hascii (shows_hexDigit _ hn)
  have hmark : Shows [] '\\' ∧ Shows [] 'u' ∧ Shows [] '0' :=
    ⟨⟨by decide, .inl (by decide)⟩, ⟨by decide, .inl (by decide)⟩, ⟨by decide, .inl (by decide)⟩⟩
  rw [escape] at hd
  -- a mark, a control character in one of its two forms, or the character itself
  by_cases hquote : c = '"' ∨ c = '\\'
  · rw [if_pos hquote] at hd
    obtain rfl | hd := List.mem_cons.mp hd
    · exact hascii hmark.1
    · obtain rfl := List.mem_singleton.mp hd
      obtain rfl | rfl := hquote <;> exact ⟨by decide, .inl (by decide)⟩
  rw [if_neg hquote] at hd
  by_cases hcontrol : c.toNat < 32
  · rw [if_pos hcontrol] at hd
    split at hd
    · next e he =>
      have he : shortEscape c = some e := (Option.ite_none_right_eq_some.mp he).2
      obtain rfl | hd := List.mem_cons.mp hd
      · exact hascii hmark.1
      · exact List.mem_singleton.mp hd ▸ hascii (shows_shortEscape he)
    · simp only [List.mem_cons, List.not_mem_nil, or_false] at hd
      obtain rfl | rfl | rfl | rfl | rfl | rfl := hd
      exacts [hascii hmark.1, hascii hmark.2.1, hascii hmark.2.2, hascii hmark.2.2,
        hhex _ (by omega), hhex _ (by omega)]
  · rw [if_neg hcontrol] at hd
    obtain rfl := List.mem_singleton.mp hd
    exact ⟨by omega, .inr (.head _)⟩

theorem mem_joinItems {ts : List Text} {close : Char} (ht : t ∈ ts) (hc : c ∈ t) :
    c ∈ joinItems close ts := by
  induction ts with
  | nil => cases ht
  | cons u ts ih =>
    cases ts with
    | nil =>
      obtain rfl := List.mem_singleton.mp ht
      simp [joinItems, hc]
    | cons u' ts =>
      rw [joinItems]
      · obtain rfl | ht := List.mem_cons.mp ht
        · simp [hc]
        · simp [ih ht]
      · exact List.cons_ne_nil _ _

theorem exists_of_mem_joinItems {ts : List Text} {close : Char} (hc : c ∈ joinItems close ts) :
    c = close ∨ c = ',' ∨ ∃ t ∈ ts, c ∈ t := by
  induction ts with
  | nil => exact .inl (List.mem_singleton.mp hc)
  | cons u ts ih =>
    cases ts with
    | nil =>
      have hc : c ∈ u ++ [close] := hc
      obtain hc | hc := List.mem_append.mp hc
      · exact .inr (.inr ⟨u, .head _, hc⟩)
      · exact .inl (List.mem_singleton.mp hc)
    | cons u' ts =>
      rw [joinItems] at hc
      · obtain hc | hc := List.mem_append.mp hc
        · exact .inr (.inr ⟨u, .head _, hc⟩)
        obtain rfl | hc := List.mem_cons.mp hc
        · exact .inr (.inl rfl)
        obtain h | h | ⟨t, ht, h⟩ := ih hc
        · exact .inl h
        · exact .inr (.inl h)
        · exact .inr (.inr ⟨t, .tail _ ht, h⟩)
      · exact List.cons_ne_nil _ _

theorem mem_printString (hc : c ∈ s) (h : 128 ≤ c.toNat) : c ∈ printString style s := by
  have hquote : ¬(c = '"' ∨ c = '\\') := by
    rintro (rfl | rfl) <;> exact absurd h (by decide)
  have hescape : c ∈ escape style c := by
    rw [escape, if_neg hquote, if_neg (by omega)]
    exact .head _
  simp only [printString, List.cons_append, List.mem_cons, List.mem_append]
  exact .inr (.inl (List.mem_flatMap.mpr ⟨c, hc, hescape⟩))

/-- A text that shows nothing but ASCII and `s`. -/
def ShowsOnly (s t : Text) : Prop := ∀ d ∈ t, Shows s d

theorem showsOnly_printString (style : Style) (s : Text) : ShowsOnly s (printString style s) := by
  intro d hd
  simp only [printString, List.cons_append, List.mem_cons, List.mem_append, List.not_mem_nil,
    or_false] at hd
  obtain rfl | hd | rfl := hd
  · exact ⟨by decide, .inl (by decide)⟩
  · obtain ⟨c, hc, hd⟩ := List.mem_flatMap.mp hd
    obtain ⟨hlo, h⟩ := shows_escape hd
    exact ⟨hlo, h.imp_right fun h => by rwa [List.mem_singleton.mp h]⟩
  · exact ⟨by decide, .inl (by decide)⟩

theorem ShowsOnly.mono {s' : Text} (h : ShowsOnly s t) (hs : s ⊆ s') : ShowsOnly s' t :=
  fun d hd => ⟨(h d hd).1, (h d hd).2.imp_right (hs ·)⟩

theorem ShowsOnly.of_ascii {s' : Text} (h : ShowsOnly s t)
    (hs : (s.all fun d => d.toNat < 128) = true) : ShowsOnly s' t := by
  intro d hd
  obtain ⟨hlo, hd⟩ := h d hd
  refine ⟨hlo, .inl (hd.elim id fun hd => ?_)⟩
  simpa using List.all_eq_true.mp hs d hd

theorem ShowsOnly.joinItems {ts : List Text} {close : Char} (hclose : close = ']' ∨ close = '}')
    (h : ∀ t ∈ ts, ShowsOnly s t) : ShowsOnly s (joinItems close ts) := by
  intro d hd
  obtain rfl | rfl | ⟨t, ht, hd⟩ := exists_of_mem_joinItems hd
  · obtain rfl | rfl := hclose <;> exact ⟨by decide, .inl (by decide)⟩
  · exact ⟨by decide, .inl (by decide)⟩
  · exact h t ht d hd

theorem ShowsOnly.printArray {ts : List Text} (h : ∀ t ∈ ts, ShowsOnly s t) :
    ShowsOnly s (printArray ts) := by
  rintro d (_ | ⟨_, hd⟩)
  · exact ⟨by decide, .inl (by decide)⟩
  · exact ShowsOnly.joinItems (.inl rfl) h d hd

theorem ShowsOnly.printObject {ts : List Text} (h : ∀ t ∈ ts, ShowsOnly s t) :
    ShowsOnly s (printObject ts) := by
  rintro d (_ | ⟨_, hd⟩)
  · exact ⟨by decide, .inl (by decide)⟩
  · exact ShowsOnly.joinItems (.inr rfl) h d hd

theorem ShowsOnly.printMember {name : Text} (hname : ShowsOnly s (printString style name))
    (h : ShowsOnly s t) : ShowsOnly s (printMember style name t) := by
  intro d hd
  obtain hd | hd := List.mem_append.mp hd
  · exact hname d hd
  obtain rfl | hd := List.mem_cons.mp hd
  · exact ⟨by decide, .inl (by decide)⟩
  · exact h d hd

/-! ### A text that goes on -/

variable {q : Text} {n m : ℕ}

theorem skipBlanks_append (h : skipBlanks s ≠ []) (q : Text) :
    skipBlanks (s ++ q) = skipBlanks s ++ q := by
  induction s with
  | nil => exact absurd rfl h
  | cons c s ih =>
    by_cases hc : isBlank c = true
    · simp only [skipBlanks, List.cons_append, List.dropWhile_cons_of_pos hc] at h ih ⊢
      exact ih h
    · rw [Bool.not_eq_true] at hc
      rw [List.cons_append, skipBlanks_cons hc, skipBlanks_cons hc, List.cons_append]

theorem map_append {α β : Type} {f : α → β} {o o' : Option (α × Text)} {y : β}
    (h : o.map (fun p => (f p.1, p.2)) = some (y, r))
    (ho : ∀ {x}, o = some (x, r) → o' = some (x, r ++ q)) :
    o'.map (fun p => (f p.1, p.2)) = some (y, r ++ q) := by
  obtain ⟨⟨x, r'⟩, hx, heq⟩ := Option.map_eq_some_iff.mp h
  obtain ⟨rfl, rfl⟩ := Prod.mk.inj heq
  rw [ho hx]
  rfl

theorem scanString_append (h : scanString s = some (t, r)) (q : Text) :
    scanString (s ++ q) = some (t, r ++ q) := by
  fun_induction scanString s generalizing t r with
  | case1 => cases h
  | case2 s =>
    obtain ⟨rfl, rfl⟩ := Prod.mk.inj (Option.some.inj h)
    rfl
  | case3 a b c d s ih =>
    obtain ⟨x, hx, h⟩ := Option.bind_eq_some_iff.mp h
    simp only [List.cons_append, scanString, hx]
    exact map_append h ih
  | case4 e s _ ih =>
    obtain ⟨x, hx, h⟩ := Option.bind_eq_some_iff.mp h
    -- a `u` with fewer than four characters after it is not read
    have hu : e ≠ 'u' := by
      rintro rfl
      cases hx
    rw [List.cons_append, List.cons_append, scanString_plainEscape hx hu]
    exact map_append h ih
  | case5 => cases h
  | case6 c s hq _ _ hc ih =>
    obtain ⟨hb, hc⟩ := not_or.mp hc
    rw [List.cons_append, scanString_plain (not_or.mpr ⟨hq, hb⟩) hc]
    exact map_append h ih

theorem literal_eq_some_iff {word : Text} {v w : Value} :
    literal word v s = some (w, r) ↔ s = word ++ r ∧ w = v := by
  rw [literal, Option.ite_none_right_eq_some]
  constructor
  · rintro ⟨⟨u, rfl⟩, h⟩
    obtain ⟨rfl, rfl⟩ := Prod.mk.inj (Option.some.inj h)
    simp
  · rintro ⟨rfl, rfl⟩
    simp

theorem literal_append {word : Text} {v w : Value} (h : literal word v s = some (w, r)) (q : Text) :
    literal word v (s ++ q) = some (w, r ++ q) := by
  obtain ⟨rfl, rfl⟩ := literal_eq_some_iff.mp h
  rw [literal_eq_some_iff, List.append_assoc]
  exact ⟨rfl, rfl⟩

/-- What is read off a text is read off any that goes on after it, if the rest that it leaves is
not empty. -/
def Extends {α : Type} (p p' : Text → Option (α × Text)) : Prop :=
  ∀ s x r, p s = some (x, r) → r ≠ [] → ∀ q, p' (s ++ q) = some (x, r ++ q)

theorem items_append {α : Type} {item item' : Text → Option (α × Text)} {close : Char} {xs : List α}
    (hnil : item [] = none) (hitem : Extends item item') (hnm : n ≤ m)
    (h : items item close n s = some (xs, r)) (q : Text) :
    items item' close m (s ++ q) = some (xs, r ++ q) := by
  induction n generalizing m s xs with
  | zero => cases h
  | succ n ih =>
    obtain ⟨m, rfl⟩ : ∃ k, m = k + 1 := ⟨m - 1, by omega⟩
    obtain ⟨⟨x, u⟩, hx, h⟩ := Option.bind_eq_some_iff.mp h
    -- the item and its delimiter are there already
    have hu : skipBlanks u ≠ [] := by
      intro hu
      simp [hu] at h
    have hs : skipBlanks s ≠ [] := by
      intro hs
      rw [hs, hnil] at hx
      cases hx
    have hune : u ≠ [] := by
      rintro rfl
      exact hu rfl
    simp only [items, skipBlanks_append hs, hitem _ _ _ hx hune q, Option.bind_eq_bind,
      Option.bind_some, skipBlanks_append hu]
    cases hd : skipBlanks u with
    | nil => exact absurd hd hu
    | cons c u =>
      simp only [hd, List.cons_append] at h ⊢
      split_ifs at h ⊢
      · obtain ⟨⟨xs, r'⟩, hxs, heq⟩ := Option.map_eq_some_iff.mp h
        obtain ⟨rfl, rfl⟩ := Prod.mk.inj heq
        rw [ih (by omega) hxs]
        rfl
      · obtain ⟨rfl, rfl⟩ := Prod.mk.inj (Option.some.inj h)
        rfl

theorem bracketed_append {α : Type} {item item' : Text → Option (α × Text)} {close : Char}
    {xs : List α} (hnil : item [] = none) (hitem : Extends item item') (hnm : n ≤ m)
    (h : bracketed item close n s = some (xs, r)) (q : Text) :
    bracketed item' close m (s ++ q) = some (xs, r ++ q) := by
  -- a text that ends behind its opening bracket is not read
  have hs : skipBlanks s ≠ [] := by
    intro hs
    cases n <;> simp [bracketed, items, hs, hnil] at h
  obtain ⟨c, u, hu⟩ := List.exists_cons_of_ne_nil hs
  simp only [bracketed, skipBlanks_append hs, hu, List.cons_append, List.head?_cons,
    List.tail_cons] at h ⊢
  split_ifs at h ⊢
  · obtain ⟨rfl, rfl⟩ := Prod.mk.inj (Option.some.inj h)
    rfl
  · exact items_append hnil hitem hnm h q

theorem value_nil (n : ℕ) : value n [] = none := by
  cases n <;> rfl

theorem member_extends {p p' : Text → Option (Value × Text)} (hnil : p [] = none)
    (h : Extends p p') : Extends (member p) (member p') := by
  intro s f r hs hr q
  unfold member at hs
  split at hs
  · next s =>
    obtain ⟨⟨name, u⟩, hname, hs⟩ := Option.bind_eq_some_iff.mp hs
    simp only [List.cons_append, member, scanString_append hname, Option.bind_eq_bind,
      Option.bind_some] at hs ⊢
    split at hs
    · next w hw =>
      -- nor is one that ends behind its colon
      have hwne : skipBlanks w ≠ [] := by
        intro hnone
        rw [hnone, hnil] at hs
        cases hs
      rw [skipBlanks_append (by simp [hw]), hw, List.cons_append]
      simp only [skipBlanks_append hwne]
      exact map_append hs fun hv => h _ _ _ hv hr q
    · cases hs
  · cases hs

theorem takeWhile_append_of_dropWhile_ne (p : Char → Bool) (h : s.dropWhile p ≠ []) (q : Text) :
    (s ++ q).takeWhile p = s.takeWhile p ∧ (s ++ q).dropWhile p = s.dropWhile p ++ q := by
  induction s with
  | nil => exact absurd rfl h
  | cons c s ih =>
    by_cases hc : p c = true
    · rw [List.dropWhile_cons_of_pos hc] at h
      simp [hc, ih h]
    · simp [hc]

theorem number_word {word : Text} (hword : word = nan ∨ word = infinity ∨ word = '-' :: infinity)
    (r : Text) : number (word ++ r) = some (.number word, r) := by
  obtain rfl | rfl | rfl := hword <;>
    simp [number, nan, infinity, isNumberChar, validNumber, literal]

theorem number_extends : Extends number number := by
  intro s v r h hr q
  unfold number at h
  split_ifs at h with hvalid
  · obtain ⟨rfl, rfl⟩ := Prod.mk.inj (Option.some.inj h)
    obtain ⟨htake, hdrop⟩ := takeWhile_append_of_dropWhile_ne isNumberChar hr q
    rw [number, htake, hdrop, if_pos hvalid]
  · -- it was one of the words that Python adds
    simp only [Option.or_eq_some_iff, literal_eq_some_iff] at h
    obtain (⟨rfl, rfl⟩ | ⟨-, rfl, rfl⟩) | ⟨-, rfl, rfl⟩ := h <;> rw [List.append_assoc]
    · exact number_word (.inl rfl) _
    · exact number_word (.inr (.inl rfl)) _
    · exact number_word (.inr (.inr rfl)) _

theorem value_extends (hnm : n ≤ m) : Extends (value n) (value m) := by
  induction n generalizing m with
  | zero => exact fun s v r h => by cases h
  | succ n ih =>
    obtain ⟨m, rfl⟩ : ∃ k, m = k + 1 := ⟨m - 1, by omega⟩
    have hnm : n ≤ m := by omega
    intro s v r h hr q
    cases s with
    | nil => cases h
    | cons c s =>
      rw [List.cons_append]
      -- a case for each first character: string, array, object, word, number
      simp only [value] at h ⊢
      split_ifs at h ⊢
      · exact map_append h fun ht => scanString_append ht q
      · exact map_append h fun hx => bracketed_append (value_nil n) (ih hnm) hnm hx q
      · exact map_append h fun hx =>
          bracketed_append rfl (member_extends (value_nil n) (ih hnm)) hnm hx q
      · exact literal_append h q
      · exact literal_append h q
      · exact literal_append h q
      · exact number_extends _ _ _ h hr q

/-- An object that is read to its end is read off any text that goes on after it. -/
theorem object_append {v : Value} (hnm : n ≤ m) (h : value n ('{' :: s) = some (v, r)) (q : Text) :
    value m ('{' :: s ++ q) = some (v, r ++ q) := by
  cases n with
  | zero => cases h
  | succ n =>
    obtain ⟨m, rfl⟩ : ∃ k, m = k + 1 := ⟨m - 1, by omega⟩
    exact map_append h fun hx =>
      bracketed_append rfl (member_extends (value_nil n) (value_extends (by omega))) (by omega)
        hx q

theorem loads_eq_none_of_append {p q : Text} {v : Value} (hq : q ≠ [])
    (h : Reads ('{' :: p ++ q) v) : loads ('{' :: p) = none := by
  rw [Option.eq_none_iff_forall_ne_some]
  intro w hw
  obtain ⟨⟨u, r⟩, hu, hr⟩ := Option.bind_eq_some_iff.mp hw
  rw [skipBlanks_cons rfl] at hu
  -- were it read, so would be the longer text, up to where the shorter one ends
  have hlong := object_append (m := ('{' :: p ++ q).length + 1) (by simp) hu q
  have hread := h _ (Nat.le_refl _) [] (by simp [Delimited])
  rw [List.append_nil, hlong] at hread
  have := (Prod.mk.inj (Option.some.inj hread)).2
  exact hq (List.append_eq_nil_iff.mp this).2

end BellasReef.Support.JsonText
