import BellasReef.ControlEngine.Alerts
import BellasReef.Support.Binary64
import BellasReef.Support.IntText
import BellasReef.Support.Pattern

/-!
# HardwareIO — W1Slave

What the DS18B20 driver (`drivers/onewire.py`) makes of a `w1_slave` file: `read_text`, the two
searches, and `_parse`.  Which characters are alphanumeric is Unicode's, and a parameter.

* `temperature_shape`: what is found as a temperature is digits after an optional minus.
* `parse_raises_iff`: when `_parse` raises.
* `parse_sound`: a sample of it that is ok has the temperature of a text whose verdict is YES.
-/

namespace BellasReef.HardwareIO.OneWire
open BellasReef.Support
open BellasReef.ControlEngine (Quality)

variable {ι : Type}

/-! ### The searches -/

/-- `\w`. -/
def isWord (isAlnum : Char → Bool) (c : Char) : Bool := isAlnum c || c = '_'

/-- `\b`. -/
def wordBoundary (isAlnum : Char → Bool) (behind ahead : Text) : Bool :=
  behind.head?.any (isWord isAlnum) != ahead.head?.any (isWord isAlnum)

/-- `$`, with `re.MULTILINE`. -/
def endOfLine (_ ahead : Text) : Bool := ahead.head?.all (· = '\n')

/-- `[0-9a-f]`. -/
def isHex (c : Char) : Bool := ('0' ≤ c && c ≤ '9') || ('a' ≤ c && c ≤ 'f')

/-- How the first line ends: the check sum is right, or it is not. -/
def yes : Text := ['Y', 'E', 'S']
def no : Text := ['N', 'O']

/-- `_CRC_RE`. -/
def crcRe : Pattern Char :=
  .seq (.literal ['c', 'r', 'c', '=']) <| .seq (.one isHex) <| .seq (.one isHex) <|
    .seq (.plus Text.isSpace) <| .seq (.group (.alt (.literal yes) (.literal no))) <|
      .seq (.star Text.isSpace) (.assert endOfLine)

/-- `-?\d+`. -/
def millicRe : Pattern Char :=
  .seq (.alt (.one (· = '-')) .empty) (.plus IntText.isDecimal)

/-- `_TEMP_RE`. -/
def tempRe (isAlnum : Char → Bool) : Pattern Char :=
  .seq (.assert (wordBoundary isAlnum)) <| .seq (.literal ['t', '=']) <|
    .seq (.group millicRe) <| .seq (.star Text.isSpace) (.assert endOfLine)

/-- What the driver finds at the end of the first line. -/
def crcVerdict (text : Text) : Option Text := crcRe.search text

/-- What the driver finds behind `t=`. -/
def temperature (isAlnum : Char → Bool) (text : Text) : Option Text :=
  (tempRe isAlnum).search text

/-! ### Reading and parsing -/

/-- A file in text mode. -/
def universalNewlines : Text → Text
  | [] => []
  | '\r' :: '\n' :: text => '\n' :: universalNewlines text
  | c :: text => (if c = '\r' then '\n' else c) :: universalNewlines text

/-- `Path.read_text`, of what is in the file; `none` where it raises `UnicodeDecodeError`. -/
def readText (content : ByteArray) : Option Text :=
  content.utf8Decode?.map fun cs => universalNewlines cs.toList

/-- `_offset_c` and `_calibration_id`. -/
structure Calibration (ι : Type) where
  offset : Double
  id : Option ι

/-- `SensorSample`. -/
structure Sample (ι : Type) where
  value : Option Double
  raw : Option Double
  unit : String
  quality : Quality
  calibrationId : Option ι

/-- What a read may raise. -/
inductive ReadError where
  | unicodeDecodeError
  | valueError
  | overflowError
  | cancelledError
  deriving DecidableEq, Repr

/-- `_POWER_ON_RESET_MILLIC`. -/
def powerOnResetMillic : ℤ := 85000

/-- `_fault`. -/
def fault (c : Calibration ι) : Sample ι := ⟨none, none, "degC", .fault, c.id⟩

/-- `millic / 1000.0`; `none` where it raises `OverflowError`. -/
def celsius (millic : ℤ) : Option Double :=
  if |rounded millic| < 2 ^ 1024 then some (.ofRat (rounded millic / 1000)) else none

/-- `_parse`. -/
def parse (isAlnum : Char → Bool) (c : Calibration ι) (text : Text) :
    Except ReadError (Sample ι) :=
  if crcVerdict text ≠ some yes then .ok (fault c)
  else
    match temperature isAlnum text with
    | none => .ok (fault c)
    | some group =>
        match IntText.int group with
        | none => .error .valueError
        | some millic =>
            if millic = powerOnResetMillic then .ok (fault c)
            else
              match celsius millic with
              | none => .error .overflowError
              | some raw => .ok ⟨some (raw + c.offset), some raw, "degC", .ok, c.id⟩

/-! ### What the searches find -/

variable {isAlnum : Char → Bool} {c : Calibration ι} {text group : Text}

/-- Only white space is left of the line, or nothing at all. -/
def BlankLine (rest : Text) : Prop :=
  ∃ space after, rest = space ++ after ∧ (∀ x ∈ space, Text.isSpace x = true) ∧
    (after = [] ∨ ∃ t, after = '\n' :: t)

theorem blankLine_of_mem {a b : Scan Char}
    (h : b ∈ (Pattern.seq (.star Text.isSpace) (.assert endOfLine)).ends a) :
    BlankLine a.ahead ∧ b.group = a.group := by
  obtain ⟨_, hspace, hend⟩ := Pattern.mem_ends_seq.mp h
  obtain ⟨space, after, hall, ha, rfl⟩ := Pattern.mem_ends_star.mp hspace
  obtain ⟨hline, rfl⟩ := Pattern.mem_ends_assert.mp hend
  refine ⟨⟨space, after, ha, hall, ?_⟩, rfl⟩
  cases after with
  | nil => exact .inl rfl
  | cons x t =>
      obtain rfl : x = '\n' := by simpa [endOfLine] using hline
      exact .inr ⟨t, rfl⟩

/-- A verdict, and what of it is in the group. -/
theorem verdict_of_mem {a b : Scan Char}
    (h : b ∈ (Pattern.group (.alt (.literal yes) (.literal no))).ends a) :
    ∃ verdict rest, (verdict = yes ∨ verdict = no) ∧ a.ahead = verdict ++ rest ∧ b.ahead = rest ∧
      b.group = some verdict := by
  have hword : ∀ c ∈ (Pattern.alt (.literal yes) (.literal no)).ends a,
      ∃ word rest, (word = yes ∨ word = no) ∧ a.ahead = word ++ rest ∧ c = a.after word rest := by
    intro c hc
    obtain hc | hc := Pattern.mem_ends_alt.mp hc
    · obtain ⟨rest, ha, rfl⟩ := Pattern.mem_ends_literal.mp hc
      exact ⟨yes, rest, .inl rfl, ha, rfl⟩
    · obtain ⟨rest, ha, rfl⟩ := Pattern.mem_ends_literal.mp hc
      exact ⟨no, rest, .inr rfl, ha, rfl⟩
  rw [Pattern.mem_ends_group fun c hc => ?_] at h
  · obtain ⟨used, rest, ha, hc, rfl⟩ := h
    obtain ⟨word, rest', hword, ha', hc⟩ := hword _ hc
    -- both are what is before the same rest
    obtain rfl : rest = rest' := congrArg Scan.ahead hc
    obtain rfl : used = word := List.append_cancel_right (ha.symm.trans ha')
    exact ⟨used, rest, hword, ha, rfl, rfl⟩
  · obtain ⟨word, rest, -, ha, hc⟩ := hword c hc
    exact ⟨word, rest, ha, hc⟩

/-- **The verdict** ends a line, after a checksum. -/
theorem crcVerdict_shape {verdict : Text} (h : crcVerdict text = some verdict) :
    (verdict = yes ∨ verdict = no) ∧
      ∃ before x y space rest,
        text = before ++ (['c', 'r', 'c', '='] ++ x :: y :: (space ++ (verdict ++ rest))) ∧
        isHex x = true ∧ isHex y = true ∧ space ≠ [] ∧ (∀ x ∈ space, Text.isSpace x = true) ∧
        BlankLine rest := by
  obtain ⟨before, ahead, rfl, b, hb, hgroup⟩ := Pattern.exists_of_search h
  obtain ⟨_, hcrc, hb₁⟩ := Pattern.mem_ends_seq.mp hb
  obtain ⟨_, hfirst, hb₂⟩ := Pattern.mem_ends_seq.mp hb₁
  obtain ⟨_, hsecond, hb₃⟩ := Pattern.mem_ends_seq.mp hb₂
  obtain ⟨_, hblanks, hb₄⟩ := Pattern.mem_ends_seq.mp hb₃
  obtain ⟨_, hverdict, hb₅⟩ := Pattern.mem_ends_seq.mp hb₄
  obtain ⟨rest₁, h₁, rfl⟩ := Pattern.mem_ends_literal.mp hcrc
  obtain ⟨x, rest₂, hx, h₂, rfl⟩ := Pattern.mem_ends_one.mp hfirst
  obtain ⟨y, rest₃, hy, h₃, rfl⟩ := Pattern.mem_ends_one.mp hsecond
  obtain ⟨space, rest₄, hne, hspace, h₄, rfl⟩ := Pattern.mem_ends_plus.mp hblanks
  obtain ⟨found, rest, hfound, h₅, hrest, hc⟩ := verdict_of_mem hverdict
  obtain ⟨hblank, hkept⟩ := blankLine_of_mem hb₅
  obtain rfl : found = verdict := Option.some.inj (hc.symm.trans (hkept.symm.trans hgroup))
  simp only [Scan.after_ahead] at h₁ h₂ h₃ h₄ h₅
  refine ⟨hfound, before, x, y, space, rest, ?_, hx, hy, hne, hspace, hrest ▸ hblank⟩
  rw [h₁, h₂, h₃, h₄, h₅]

/-- Digits after an optional minus. -/
def IsMillic (group : Text) : Prop :=
  ∃ sign digits, (sign = [] ∨ sign = ['-']) ∧ digits ≠ [] ∧
    (∀ x ∈ digits, IntText.isDecimal x = true) ∧ group = sign ++ digits

theorem millic_of_mem {a b : Scan Char} (h : b ∈ millicRe.ends a) :
    ∃ used rest, IsMillic used ∧ a.ahead = used ++ rest ∧ b = a.after used rest := by
  obtain ⟨_, hsign, hdigits⟩ := Pattern.mem_ends_seq.mp h
  obtain ⟨digits, rest, hne, hall, ha, rfl⟩ := Pattern.mem_ends_plus.mp hdigits
  obtain hsign | hsign := Pattern.mem_ends_alt.mp hsign
  · obtain ⟨x, rest', hx, ha', rfl⟩ := Pattern.mem_ends_one.mp hsign
    obtain rfl : x = '-' := by simpa using hx
    rw [Scan.after_ahead] at ha
    refine ⟨'-' :: digits, rest, ⟨['-'], digits, .inr rfl, hne, hall, rfl⟩, ?_, ?_⟩
    · rw [ha', ha, List.cons_append]
    · exact a.after_after ['-'] rest' digits rest
  · obtain rfl := Pattern.mem_ends_empty.mp hsign
    exact ⟨digits, rest, ⟨[], digits, .inl rfl, hne, hall, rfl⟩, ha, rfl⟩

/-- **The temperature** ends a line, after `t=` at the start of a word. -/
theorem temperature_shape (h : temperature isAlnum text = some group) :
    IsMillic group ∧ ∃ before rest, text = before ++ (['t', '='] ++ (group ++ rest)) ∧
      wordBoundary isAlnum before.reverse (['t', '='] ++ (group ++ rest)) = true ∧
      BlankLine rest := by
  obtain ⟨before, ahead, rfl, b, hb, hgroup⟩ := Pattern.exists_of_search h
  obtain ⟨_, hword, hb₁⟩ := Pattern.mem_ends_seq.mp hb
  obtain ⟨_, ht, hb₂⟩ := Pattern.mem_ends_seq.mp hb₁
  obtain ⟨_, hmillic, hb₃⟩ := Pattern.mem_ends_seq.mp hb₂
  obtain ⟨hboundary, rfl⟩ := Pattern.mem_ends_assert.mp hword
  obtain ⟨rest₁, h₁, rfl⟩ := Pattern.mem_ends_literal.mp ht
  rw [Pattern.mem_ends_group fun c hc => ?_] at hmillic
  · obtain ⟨used, rest, h₂, hused, rfl⟩ := hmillic
    obtain ⟨found, rest', hfound, h₂', heq⟩ := millic_of_mem hused
    obtain rfl : rest = rest' := congrArg Scan.ahead heq
    obtain rfl : used = found := List.append_cancel_right (h₂.symm.trans h₂')
    obtain ⟨hblank, hkept⟩ := blankLine_of_mem hb₃
    obtain rfl : used = group := Option.some.inj (hkept.symm.trans hgroup)
    simp only [Scan.after_ahead] at h₁ h₂
    refine ⟨hfound, before, rest, ?_, ?_, hblank⟩
    · rw [h₁, h₂]
    · rw [← h₂, ← h₁]
      exact hboundary
  · obtain ⟨used, rest, -, ha, hc⟩ := millic_of_mem hc
    exact ⟨used, rest, ha, hc⟩

/-! ### What is made of them -/

/-- A content that `_parse` gets through, or that it does not get to see: its temperature, if it
comes to that, has digits that `int` takes and is in the range of the doubles. -/
def legibleText (isAlnum : Char → Bool) (text : Text) : Bool :=
  crcVerdict text ≠ some yes || (temperature isAlnum text).all fun group =>
    group.countP IntText.isDecimal ≤ IntText.maxDigits &&
      (IntText.int group).all fun millic : ℤ => |rounded millic| < 2 ^ 1024

/-- And that is UTF-8. -/
def legible (isAlnum : Char → Bool) (content : ByteArray) : Bool :=
  (readText content).any (legibleText isAlnum)

/-- A temperature is read if it has not too many digits. -/
theorem IsMillic.int_isSome_iff (h : IsMillic group) :
    (IntText.int group).isSome ↔ group.countP IntText.isDecimal ≤ IntText.maxDigits := by
  obtain ⟨sign, digits, hsign, hne, hdigits, rfl⟩ := h
  have hcount : (sign ++ digits).countP IntText.isDecimal = digits.length := by
    have hzero : sign.countP IntText.isDecimal = 0 := by
      obtain rfl | rfl := hsign <;> decide
    rw [List.countP_append, hzero, Nat.zero_add, List.countP_eq_length.mpr hdigits]
  rw [hcount]
  exact IntText.int_isSome_iff hsign hne hdigits

/-- A temperature is a double if it is not too large. -/
theorem celsius_isSome_iff {millic : ℤ} :
    (celsius millic).isSome ↔ |rounded millic| < 2 ^ 1024 := by
  rw [celsius]
  split <;> simp_all

/-- Short of the doubles' precision, the temperature is rounded once. -/
theorem celsius_eq {millic : ℤ} (h : |millic| < 2 ^ 53) :
    celsius millic = some (.ofRat (millic / 1000)) := by
  have hdouble : IsDouble (millic : ℚ) := ⟨millic, 0, h, by norm_num, by norm_num, by simp⟩
  rw [celsius, hdouble.rounded_eq, if_pos hdouble.abs_lt]

theorem celsius_powerOnReset : (celsius powerOnResetMillic).isSome := by
  decide +kernel

/-- **When `_parse` returns.** -/
theorem parse_returns_iff :
    (∃ sample, parse isAlnum c text = .ok sample) ↔ legibleText isAlnum text = true := by
  rw [parse, legibleText]
  split
  · next hverdict => simp [hverdict]
  · next hverdict =>
      rw [not_not.mp hverdict]
      cases htemp : temperature isAlnum text with
      | none => simp
      | some group =>
          have hint := (temperature_shape htemp).1.int_isSome_iff
          cases hmillic : IntText.int group with
          | none =>
              rw [hmillic] at hint
              simp [hmillic, mt hint.mpr]
          | some millic =>
              rw [hmillic] at hint
              have hrange : (celsius millic).isSome ↔ _ := celsius_isSome_iff
              by_cases hreset : millic = powerOnResetMillic
              · have hreset' := celsius_isSome_iff.mp celsius_powerOnReset
                simp [hmillic, hreset, hint.mp, hreset']
              · cases hraw : celsius millic with
                | none =>
                    rw [hraw] at hrange
                    simpa [hmillic, hreset, hraw] using fun _ => not_lt.mp (mt hrange.mpr (by simp))
                | some raw =>
                    rw [hraw] at hrange
                    simp [hmillic, hreset, hraw, hint.mp, hrange.mp]

/-- **A sample that is ok** has the temperature of a text whose verdict is YES. -/
theorem parse_sound {sample : Sample ι} (h : parse isAlnum c text = .ok sample) :
    sample = fault c ∨ crcVerdict text = some yes ∧ ∃ group millic raw,
      temperature isAlnum text = some group ∧ IntText.int group = some millic ∧
        millic ≠ powerOnResetMillic ∧ celsius millic = some raw ∧
        sample = ⟨some (raw + c.offset), some raw, "degC", .ok, c.id⟩ := by
  rw [parse] at h
  split at h
  · exact .inl (Except.ok.inj h).symm
  · next hverdict =>
      split at h
      · exact .inl (Except.ok.inj h).symm
      · next group htemp =>
          split at h
          · cases h
          · next millic hmillic =>
              split at h
              · exact .inl (Except.ok.inj h).symm
              · next hreset =>
                  split at h
                  · cases h
                  · next raw hraw =>
                      exact .inr ⟨not_not.mp hverdict, group, millic, raw, htemp, hmillic, hreset,
                        hraw, (Except.ok.inj h).symm⟩

end BellasReef.HardwareIO.OneWire
