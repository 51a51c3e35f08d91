import Mathlib.Data.List.TakeDrop

/-!
# Support — Pattern

Patterns with one group, and the backtracking search for them.  A pattern takes a place in a text to
the places where it may end, in the order in which an engine comes to them; `search` takes the first
of the leftmost place that has any.  An assertion sees what is behind and what is ahead, and so does
for an anchor as well as for a word boundary.

* `mem_ends_seq` and its siblings: what each pattern reads.
* `exists_of_search`: what was found is a match, somewhere in the text.
-/

namespace BellasReef.Support

/-- Patterns over an alphabet.  Only a class of characters is repeated. -/
inductive Pattern (α : Type*) where
  | one (p : α → Bool)
  | assert (p : List α → List α → Bool)
  | seq (r r' : Pattern α)
  | alt (r r' : Pattern α)
  | star (p : α → Bool)
  | group (r : Pattern α)

/-- A place in a text: what is behind, the nearest first, what is ahead, and what the group took. -/
structure Scan (α : Type*) where
  behind : List α
  ahead : List α
  group : Option (List α)

namespace Scan

variable {α : Type*} (a : Scan α)

/-- Some of what was ahead has been read. -/
def after (used rest : List α) : Scan α := ⟨used.reverse ++ a.behind, rest, a.group⟩

@[simp] theorem after_ahead (used rest : List α) : (a.after used rest).ahead = rest := rfl

theorem after_after (used rest used' rest' : List α) :
    (a.after used rest).after used' rest' = a.after (used ++ used') rest' := by
  simp [after]

theorem after_nil : a.after [] a.ahead = a := rfl

end Scan

namespace Pattern

variable {α : Type*} {r r' : Pattern α} {p : α → Bool} {a b : Scan α}

/-- As many of a class as there are, or fewer. -/
def run (p : α → Bool) (group : Option (List α)) : List α → List α → List (Scan α)
  | behind, [] => [⟨behind, [], group⟩]
  | behind, x :: ahead =>
      if p x then run p group (x :: behind) ahead ++ [⟨behind, x :: ahead, group⟩]
      else [⟨behind, x :: ahead, group⟩]

/-- Where a pattern may end, begun here, in the order of the search. -/
def ends : Pattern α → Scan α → List (Scan α)
  | one p, a =>
      match a.ahead with
      | [] => []
      | x :: rest => if p x then [a.after [x] rest] else []
  | assert p, a => if p a.behind a.ahead then [a] else []
  | seq r r', a => (r.ends a).flatMap r'.ends
  | alt r r', a => r.ends a ++ r'.ends a
  | star p, a => run p a.group a.behind a.ahead
  | group r, a => (r.ends a).map fun b =>
      { b with group := some (a.ahead.take (a.ahead.length - b.ahead.length)) }

/-- From what is ahead on. -/
def searchFrom (r : Pattern α) : List α → List α → Option (Scan α)
  | behind, [] => (r.ends ⟨behind, [], none⟩).head?
  | behind, x :: ahead =>
      (r.ends ⟨behind, x :: ahead, none⟩).head?.or (searchFrom r (x :: behind) ahead)

/-- `re.search(…).group(1)`. -/
def search (r : Pattern α) (text : List α) : Option (List α) :=
  (r.searchFrom [] text).bind Scan.group

/-! ### Words and repetitions -/

/-- The empty text. -/
def empty : Pattern α := assert fun _ _ => true

/-- A text, as it stands. -/
def literal [DecidableEq α] : List α → Pattern α
  | [] => empty
  | x :: s => seq (one (· = x)) (literal s)

/-- One or more characters. -/
def plus (p : α → Bool) : Pattern α := seq (one p) (star p)

/-! ### What is read -/

theorem mem_ends_one :
    b ∈ (one p).ends a ↔ ∃ x rest, p x = true ∧ a.ahead = x :: rest ∧ b = a.after [x] rest := by
  obtain ⟨behind, ahead, g⟩ := a
  cases ahead with
  | nil => simp [ends]
  | cons x rest =>
      simp only [ends]
      split
      · next hp =>
          rw [List.mem_singleton]
          constructor
          · rintro rfl
            exact ⟨x, rest, hp, rfl, rfl⟩
          · rintro ⟨y, rest', -, heq, rfl⟩
            obtain ⟨rfl, rfl⟩ := List.cons.inj heq
            rfl
      · next hp =>
          refine ⟨fun h => (List.not_mem_nil h).elim, ?_⟩
          rintro ⟨y, rest', hy, heq, -⟩
          obtain ⟨rfl, -⟩ := List.cons.inj heq
          exact absurd hy hp

theorem mem_ends_assert {p : List α → List α → Bool} :
    b ∈ (assert p).ends a ↔ p a.behind a.ahead = true ∧ b = a := by
  simp only [ends]
  split <;> simp_all

theorem mem_ends_seq : b ∈ (seq r r').ends a ↔ ∃ c ∈ r.ends a, b ∈ r'.ends c := by
  simp [ends, List.mem_flatMap]

/-- A match of two patterns, one behind the other. -/
theorem exists_ends_seq {c : Scan α} (hc : c ∈ r.ends a) (h : ∃ b, b ∈ r'.ends c) :
    ∃ b, b ∈ (seq r r').ends a := by
  obtain ⟨b, hb⟩ := h
  exact ⟨b, mem_ends_seq.mpr ⟨c, hc, hb⟩⟩

theorem mem_ends_alt : b ∈ (alt r r').ends a ↔ b ∈ r.ends a ∨ b ∈ r'.ends a := by
  simp [ends]

/-- A repetition takes a stretch of its class. -/
theorem mem_ends_star : b ∈ (star p).ends a ↔
    ∃ used rest, (∀ x ∈ used, p x = true) ∧ a.ahead = used ++ rest ∧ b = a.after used rest := by
  obtain ⟨behind, ahead, g⟩ := a
  change b ∈ run p g behind ahead ↔ _
  induction ahead generalizing behind with
  | nil =>
      rw [run, List.mem_singleton]
      constructor
      · rintro rfl
        exact ⟨[], [], by simp, rfl, rfl⟩
      · rintro ⟨used, rest, -, heq, rfl⟩
        obtain ⟨rfl, rfl⟩ := List.append_eq_nil_iff.mp heq.symm
        rfl
  | cons x ahead ih =>
      -- a stretch of nothing is always there; a longer one begins with `x`
      have hnil : ∀ used rest : List α, x :: ahead = used ++ rest → used = [] → rest = x :: ahead :=
        fun used rest heq hu => by rw [heq, hu, List.nil_append]
      rw [run]
      split
      · next hp =>
          rw [List.mem_append, List.mem_singleton, ih]
          constructor
          · rintro (⟨used, rest, hused, heq, rfl⟩ | rfl)
            · refine ⟨x :: used, rest, List.forall_mem_cons.mpr ⟨hp, hused⟩, ?_, ?_⟩
              · exact congrArg (x :: ·) heq
              · simp [Scan.after]
            · exact ⟨[], x :: ahead, by simp, rfl, rfl⟩
          · rintro ⟨used, rest, hused, heq, rfl⟩
            cases used with
            | nil =>
                obtain rfl := hnil [] rest heq rfl
                exact .inr rfl
            | cons y used =>
                obtain ⟨rfl, htail⟩ := List.cons.inj heq
                refine .inl ⟨used, rest, (List.forall_mem_cons.mp hused).2, htail, ?_⟩
                simp [Scan.after]
      · next hp =>
          rw [List.mem_singleton]
          constructor
          · rintro rfl
            exact ⟨[], x :: ahead, by simp, rfl, rfl⟩
          · rintro ⟨used, rest, hused, heq, rfl⟩
            cases used with
            | nil =>
                obtain rfl := hnil [] rest heq rfl
                rfl
            | cons y used =>
                obtain ⟨rfl, -⟩ := List.cons.inj heq
                exact absurd (List.forall_mem_cons.mp hused).1 hp

theorem mem_ends_empty : b ∈ (empty : Pattern α).ends a ↔ b = a := by
  simp [empty, mem_ends_assert]

theorem mem_ends_literal [DecidableEq α] {s : List α} :
    b ∈ (literal s).ends a ↔ ∃ rest, a.ahead = s ++ rest ∧ b = a.after s rest := by
  induction s generalizing a with
  | nil =>
      rw [literal, mem_ends_empty]
      constructor
      · rintro rfl
        exact ⟨b.ahead, rfl, b.after_nil.symm⟩
      · rintro ⟨rest, rfl, rfl⟩
        exact a.after_nil
  | cons x s ih =>
      rw [literal, mem_ends_seq]
      simp only [mem_ends_one, ih, decide_eq_true_eq]
      constructor
      · rintro ⟨_, ⟨x, rest, rfl, ha, rfl⟩, rest', hrest, rfl⟩
        rw [Scan.after_ahead] at hrest
        exact ⟨rest', by rw [ha, hrest, List.cons_append], a.after_after _ _ _ _⟩
      · rintro ⟨rest, ha, rfl⟩
        refine ⟨_, ⟨x, s ++ rest, rfl, ha, rfl⟩, rest, rfl, ?_⟩
        exact (a.after_after [x] (s ++ rest) s rest).symm

theorem mem_ends_plus : b ∈ (plus p).ends a ↔ ∃ used rest, used ≠ [] ∧ (∀ x ∈ used, p x = true) ∧
    a.ahead = used ++ rest ∧ b = a.after used rest := by
  rw [plus, mem_ends_seq]
  simp only [mem_ends_one, mem_ends_star]
  constructor
  · rintro ⟨_, ⟨x, rest, hx, ha, rfl⟩, used, rest', hused, hrest, rfl⟩
    rw [Scan.after_ahead] at hrest
    refine ⟨x :: used, rest', List.cons_ne_nil x used, List.forall_mem_cons.mpr ⟨hx, hused⟩, ?_, ?_⟩
    · rw [ha, hrest, List.cons_append]
    · exact a.after_after _ _ _ _
  · rintro ⟨used, rest, hne, hused, ha, rfl⟩
    obtain ⟨x, used, rfl⟩ := List.exists_cons_of_ne_nil hne
    obtain ⟨hx, hused⟩ := List.forall_mem_cons.mp hused
    refine ⟨_, ⟨x, used ++ rest, hx, ha, rfl⟩, used, rest, hused, rfl, ?_⟩
    exact (a.after_after [x] (used ++ rest) used rest).symm

/-- A group takes what its pattern reads. -/
theorem mem_ends_group (h : ∀ b ∈ r.ends a, ∃ used rest, a.ahead = used ++ rest ∧
    b = a.after used rest) : b ∈ (group r).ends a ↔
      ∃ used rest, a.ahead = used ++ rest ∧ a.after used rest ∈ r.ends a ∧
        b = { a.after used rest with group := some used } := by
  simp only [ends, List.mem_map]
  have htake : ∀ used rest : List α, a.ahead = used ++ rest →
      a.ahead.take (a.ahead.length - rest.length) = used := by
    rintro used rest ha
    rw [ha, List.length_append, Nat.add_sub_cancel, List.take_left]
  constructor
  · rintro ⟨c, hc, rfl⟩
    obtain ⟨used, rest, ha, rfl⟩ := h c hc
    exact ⟨used, rest, ha, hc, by rw [Scan.after_ahead, htake used rest ha]⟩
  · rintro ⟨used, rest, ha, hc, rfl⟩
    exact ⟨_, hc, by rw [Scan.after_ahead, htake used rest ha]⟩

theorem mem_ends_group_plus : b ∈ (group (plus p)).ends a ↔ ∃ used rest, used ≠ [] ∧
    (∀ x ∈ used, p x = true) ∧ a.ahead = used ++ rest ∧
      b = { a.after used rest with group := some used } := by
  rw [mem_ends_group fun b hb => ?_]
  · simp only [mem_ends_plus]
    constructor
    · rintro ⟨used, rest, ha, ⟨used', rest', hne, hused, ha', heq⟩, rfl⟩
      -- both are what is before the same rest
      obtain rfl : rest = rest' := congrArg Scan.ahead heq
      obtain rfl : used = used' := List.append_cancel_right (ha.symm.trans ha')
      exact ⟨used, rest, hne, hused, ha, rfl⟩
    · rintro ⟨used, rest, hne, hused, ha, rfl⟩
      exact ⟨used, rest, ha, ⟨used, rest, hne, hused, ha, rfl⟩, rfl⟩
  · obtain ⟨used, rest, -, -, ha, rfl⟩ := mem_ends_plus.mp hb
    exact ⟨used, rest, ha, rfl⟩

/-! ### What is found -/

theorem exists_of_searchFrom {behind ahead : List α} (h : r.searchFrom behind ahead = some b) :
    ∃ before rest, ahead = before ++ rest ∧ b ∈ r.ends ⟨before.reverse ++ behind, rest, none⟩ := by
  induction ahead generalizing behind with
  | nil => exact ⟨[], [], rfl, List.mem_of_mem_head? h⟩
  | cons x ahead ih =>
      rw [searchFrom, Option.or_eq_some_iff] at h
      obtain h | ⟨-, h⟩ := h
      · exact ⟨[], x :: ahead, rfl, List.mem_of_mem_head? h⟩
      · obtain ⟨before, rest, rfl, hb⟩ := ih h
        exact ⟨x :: before, rest, rfl, by simpa using hb⟩

/-- **What was found is a match**, somewhere in the text. -/
theorem exists_of_search {text found : List α} (h : r.search text = some found) :
    ∃ before rest, text = before ++ rest ∧
      ∃ b ∈ r.ends ⟨before.reverse, rest, none⟩, b.group = some found := by
  obtain ⟨b, hb, hfound⟩ := Option.bind_eq_some_iff.mp h
  obtain ⟨before, rest, htext, hmem⟩ := exists_of_searchFrom hb
  exact ⟨before, rest, htext, b, by simpa using hmem, hfound⟩

/-- A match at any place makes the search find one. -/
theorem searchFrom_isSome {behind before rest : List α}
    (h : r.ends ⟨before.reverse ++ behind, rest, none⟩ ≠ []) :
    (r.searchFrom behind (before ++ rest)).isSome = true := by
  induction before generalizing behind with
  | nil =>
      obtain ⟨b, hb⟩ := List.exists_mem_of_ne_nil _ h
      have hhead : (r.ends ⟨behind, rest, none⟩).head?.isSome = true := by
        simpa [List.isSome_head?] using h
      cases rest with
      | nil => exact hhead
      | cons x rest =>
          rw [List.nil_append, searchFrom, Option.isSome_or, hhead, Bool.true_or]
  | cons x before ih =>
      rw [List.cons_append, searchFrom, Option.isSome_or, ih (by simpa using h), Bool.or_true]

/-- **A search is exact** where every match, wherever it is, takes the same into its group. -/
theorem search_eq_some {text found : List α}
    (hall : ∀ before rest, text = before ++ rest → ∀ b ∈ r.ends ⟨before.reverse, rest, none⟩,
      b.group = some found)
    (hex : ∃ before rest, text = before ++ rest ∧ r.ends ⟨before.reverse, rest, none⟩ ≠ []) :
    r.search text = some found := by
  obtain ⟨before, rest, rfl, hne⟩ := hex
  have hsome : (r.searchFrom [] (before ++ rest)).isSome = true :=
    searchFrom_isSome (by simpa using hne)
  obtain ⟨b, hb⟩ := Option.isSome_iff_exists.mp hsome
  obtain ⟨before', rest', htext, hmem⟩ := exists_of_searchFrom hb
  rw [search, hb]
  exact hall before' rest' htext b (by simpa using hmem)

end Pattern

end BellasReef.Support
