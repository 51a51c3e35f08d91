import Mathlib.Data.List.TakeDrop

/-!
# Support — Regex

Regular expressions with anchors, and what a backtracking engine can make of them: each expression
takes a place in a text to the places where it may end.  Engines differ in what they take for the
end of a text (`dollar`), and in whether they begin at its start (`matchesAt`) or anywhere
(`search`).

`mem_ends_upTo_one` reads a bounded repetition of one class; `search_start_iff` says that an
expression that begins with the start anchor is found nowhere else.
-/

namespace BellasReef.Support

/-- Expressions over an alphabet. -/
inductive Regex (α : Type*) where
  | one (p : α → Bool)
  | start
  | stop
  | seq (r r' : Regex α)
  | upTo (n : ℕ) (r : Regex α)

/-- How much of the text is behind, and what is ahead. -/
abbrev Place (α : Type*) := ℕ × List α

namespace Regex

variable {α : Type*} {dollar : List α → Bool} {r r' : Regex α} {p : α → Bool} {a b : Place α}

/-- At most so many times, the most of them first. -/
def repeated (f : Place α → List (Place α)) : ℕ → Place α → List (Place α)
  | 0, a => [a]
  | n + 1, a => (f a).flatMap (repeated f n) ++ [a]

/-- Where the expression may end, begun here; `dollar` says what the end of the text is. -/
def ends (dollar : List α → Bool) : Regex α → Place α → List (Place α)
  | one _, (_, []) => []
  | one p, (n, x :: text) => if p x then [(n + 1, text)] else []
  | start, (n, text) => if n = 0 then [(n, text)] else []
  | stop, (n, text) => if dollar text then [(n, text)] else []
  | seq r r', a => (ends dollar r a).flatMap (ends dollar r')
  | upTo n r, a => repeated (ends dollar r) n a

/-- It matches from the start of the text. -/
def matchesAt (dollar : List α → Bool) (r : Regex α) (text : List α) : Bool :=
  !(r.ends dollar (0, text)).isEmpty

/-- It matches from somewhere in the text. -/
def search (dollar : List α → Bool) (r : Regex α) (text : List α) : Bool :=
  (List.range (text.length + 1)).any fun n => !(r.ends dollar (n, text.drop n)).isEmpty

theorem mem_ends_one : b ∈ (one p).ends dollar a ↔
    ∃ x, p x = true ∧ a.2 = x :: b.2 ∧ b.1 = a.1 + 1 := by
  obtain ⟨n, text⟩ := a
  cases text with
  | nil => simp [ends]
  | cons x text =>
      cases hp : p x with
      | false =>
          simp only [ends, hp, Bool.false_eq_true, if_false, List.not_mem_nil, false_iff]
          rintro ⟨y, hy, heq, -⟩
          obtain ⟨rfl, -⟩ := List.cons.inj heq
          simp [hp] at hy
      | true =>
          simp only [ends, hp, if_true, List.mem_singleton]
          constructor
          · rintro rfl
            exact ⟨x, hp, rfl, rfl⟩
          · rintro ⟨y, -, heq, hn⟩
            obtain ⟨-, heq⟩ := List.cons.inj heq
            exact Prod.ext hn heq.symm

theorem mem_ends_start : b ∈ (start : Regex α).ends dollar a ↔ a.1 = 0 ∧ b = a := by
  obtain ⟨n, text⟩ := a
  simp only [ends]
  split <;> simp_all

theorem mem_ends_stop : b ∈ (stop : Regex α).ends dollar a ↔ dollar a.2 = true ∧ b = a := by
  obtain ⟨n, text⟩ := a
  simp only [ends]
  split <;> simp_all

theorem mem_ends_seq :
    b ∈ (seq r r').ends dollar a ↔ ∃ c ∈ r.ends dollar a, b ∈ r'.ends dollar c := by
  simp [ends, List.mem_flatMap]

/-- **A bounded repetition of one class** takes a stretch of it, of any length up to the bound. -/
theorem mem_ends_upTo_one {n : ℕ} : b ∈ (upTo n (one p)).ends dollar a ↔
    ∃ run, (∀ x ∈ run, p x = true) ∧ run.length ≤ n ∧ a.2 = run ++ b.2 ∧
      b.1 = a.1 + run.length := by
  change b ∈ repeated _ n a ↔ _
  induction n generalizing a with
  | zero =>
      rw [repeated, List.mem_singleton]
      constructor
      · rintro rfl
        exact ⟨[], by simp, Nat.le_refl _, rfl, rfl⟩
      · rintro ⟨run, -, hlen, htext, hn⟩
        obtain rfl := List.length_eq_zero_iff.mp (Nat.le_zero.mp hlen)
        exact Prod.ext hn htext.symm
  | succ n ih =>
      rw [repeated, List.mem_append, List.mem_flatMap, List.mem_singleton]
      simp only [mem_ends_one, ih]
      constructor
      · rintro (⟨c, ⟨x, hx, htext, hc⟩, run, hrun, hlen, hrest, hn⟩ | rfl)
        · refine ⟨x :: run, List.forall_mem_cons.mpr ⟨hx, hrun⟩, by simpa using hlen, ?_, ?_⟩
          · rw [htext, hrest, List.cons_append]
          · rw [hn, hc, List.length_cons]
            omega
        · exact ⟨[], by simp, Nat.zero_le _, rfl, rfl⟩
      · rintro ⟨run, hrun, hlen, htext, hn⟩
        cases run with
        | nil => exact .inr (Prod.ext hn htext.symm)
        | cons x run =>
            obtain ⟨hx, hrun⟩ := List.forall_mem_cons.mp hrun
            refine .inl ⟨(a.1 + 1, run ++ b.2), ⟨x, hx, htext, rfl⟩, run, hrun, ?_, rfl, ?_⟩
            · simpa using hlen
            · rw [hn, List.length_cons]
              omega

theorem matchesAt_iff {text : List α} :
    r.matchesAt dollar text = true ↔ ∃ b, b ∈ r.ends dollar (0, text) := by
  simp [matchesAt, List.eq_nil_iff_forall_not_mem]

/-- **An expression that begins with the start anchor** is found at the start or not at all. -/
theorem search_start {text : List α} :
    (seq start r).search dollar text = (seq start r).matchesAt dollar text := by
  have hat : ∀ n t, ((seq start r).ends dollar (n, t)).isEmpty = false → n = 0 := by
    intro n t h
    obtain ⟨b, hb⟩ := List.exists_mem_of_ne_nil _ (by simpa [List.isEmpty_iff] using h)
    obtain ⟨c, hc, -⟩ := mem_ends_seq.mp hb
    exact (mem_ends_start.mp hc).1
  rw [Bool.eq_iff_iff, search, List.any_eq_true]
  constructor
  · rintro ⟨n, -, hn⟩
    obtain rfl := hat n _ (by simpa using hn)
    exact hn
  · exact fun h => ⟨0, List.mem_range.mpr (Nat.succ_pos _), h⟩

end Regex

end BellasReef.Support
