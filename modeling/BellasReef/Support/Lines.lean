import Mathlib.Data.List.DropRight

/-!
# Support — Lines

Texts as lists of characters, and how Python takes them apart: `str.splitlines` and `str.strip`.

* `splitlines_line`: a line without a break in it, and its line feed, off the front.
* `splitlines_break`: the piece up to a break.
-/

namespace BellasReef.Support

/-- A text, by its characters. -/
abbrev Text := List Char

instance Text.lawfulBEq : LawfulBEq Text := inferInstance

namespace Text

/-- The characters that `splitlines` breaks at. -/
def isBreak (c : Char) : Bool :=
  c = '\n' || c = '\r' || c.toNat = 11 || c.toNat = 12 || (28 ≤ c.toNat && c.toNat ≤ 30) ||
    c.toNat = 0x85 || c.toNat = 0x2028 || c.toNat = 0x2029

/-- `str.isspace`, of a character. -/
def isSpace (c : Char) : Bool :=
  (9 ≤ c.toNat && c.toNat ≤ 13) || (28 ≤ c.toNat && c.toNat ≤ 32) || c.toNat = 0x85 ||
    c.toNat = 0xa0 || c.toNat = 0x1680 || (0x2000 ≤ c.toNat && c.toNat ≤ 0x200a) ||
    c.toNat = 0x2028 || c.toNat = 0x2029 || c.toNat = 0x202f || c.toNat = 0x205f ||
    c.toNat = 0x3000

/-- `str.strip`. -/
def strip (s : Text) : Text := (s.dropWhile isSpace).rdropWhile isSpace

/-- With what is read of the line so far, from its end. -/
def splitlinesFrom : Text → Text → List Text
  | [], [] => []
  | line, [] => [line.reverse]
  | line, '\r' :: '\n' :: s => line.reverse :: splitlinesFrom [] s
  | line, c :: s => if isBreak c then line.reverse :: splitlinesFrom [] s
      else splitlinesFrom (c :: line) s

/-- `str.splitlines`. -/
def splitlines (s : Text) : List Text := splitlinesFrom [] s

variable {c : Char} {s t line : Text}

theorem toNat_of_isDigit (h : c.isDigit = true) : 48 ≤ c.toNat ∧ c.toNat ≤ 57 := by
  simpa [Char.isDigit, UInt32.le_iff_toNat_le] using h

theorem splitlinesFrom_cons (hc : isBreak c = false) :
    splitlinesFrom line (c :: s) = splitlinesFrom (c :: line) s := by
  have hr : c ≠ '\r' := by rintro rfl; cases hc
  rw [splitlinesFrom.eq_4 _ _ _ fun _ h => absurd h hr, if_neg (by simp [hc])]

theorem splitlinesFrom_append (hline : ∀ c ∈ t, isBreak c = false) (s : Text) :
    splitlinesFrom line (t ++ s) = splitlinesFrom (t.reverse ++ line) s := by
  induction t generalizing line with
  | nil => rfl
  | cons c t ih =>
    rw [List.cons_append, splitlinesFrom_cons (hline c (.head _)),
      ih fun c hc => hline c (.tail _ hc)]
    simp

/-- Up to a break that is no carriage return. -/
theorem splitlines_break (hline : ∀ c ∈ line, isBreak c = false) (hc : isBreak c = true)
    (hr : c ≠ '\r') (s : Text) : splitlines (line ++ c :: s) = line :: splitlines s := by
  rw [splitlines, splitlinesFrom_append hline, splitlinesFrom.eq_4 _ _ _ fun _ h => absurd h hr,
    if_pos hc]
  simp [splitlines]

theorem splitlines_line (hline : ∀ c ∈ line, isBreak c = false) (s : Text) :
    splitlines (line ++ '\n' :: s) = line :: splitlines s :=
  splitlines_break hline rfl (by decide) s

/-- Lines without a break in them, each with a line feed after it. -/
theorem splitlines_flatMap {α : Type} {print : α → Text} {xs : List α}
    (h : ∀ x ∈ xs, ∀ c ∈ print x, isBreak c = false) (s : Text) :
    splitlines (xs.flatMap (fun x => print x ++ ['\n']) ++ s) = xs.map print ++ splitlines s := by
  induction xs with
  | nil => rfl
  | cons x xs ih =>
    rw [List.flatMap_cons, List.append_assoc, List.append_assoc, List.singleton_append,
      splitlines_line (h x (.head _)), ih fun y hy => h y (.tail _ hy)]
    rfl

/-- A text with a break in it, up to the first. -/
theorem exists_first_break (h : ∃ c ∈ s, isBreak c = true) :
    ∃ line c t, s = line ++ c :: t ∧ (∀ c ∈ line, isBreak c = false) ∧ isBreak c = true := by
  induction s with
  | nil => simp at h
  | cons d s ih =>
    by_cases hd : isBreak d = true
    · exact ⟨[], d, s, rfl, by simp, hd⟩
    · obtain ⟨c, hc, hbreak⟩ := h
      have hmem : c ∈ s := by
        obtain rfl | hc := List.mem_cons.mp hc
        · exact absurd hbreak hd
        · exact hc
      obtain ⟨line, c, t, rfl, hline, hbreak⟩ := ih ⟨c, hmem, hbreak⟩
      refine ⟨d :: line, c, t, rfl, ?_, hbreak⟩
      rintro x (_ | ⟨_, hx⟩)
      · simpa using hd
      · exact hline x hx

end Text

end BellasReef.Support
