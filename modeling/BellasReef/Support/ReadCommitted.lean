import BellasReef.Support.Lists

/-!
# Support — Read committed

A table under READ COMMITTED, statement by statement.

A row is a `Cell`: its latest committed version, and what one open transaction has made of it.
A transaction sees its own writes and what is committed, and nothing of the others.

* A statement that writes finds its rows when it begins (`scan`), and turns to one after another
  (`touch`): it waits for the transaction that has written the row, and looks again at the version
  that this one left.
* `insert` asks the unique indexes: it waits for a transaction whose row might be in the way, and
  is refused by a row that is.
* `commit` and `abort` settle a transaction's rows, all at once.

What no transaction has touched is as it was committed; `after` is the table with every open
transaction committed.
-/

namespace BellasReef.Support

/-- A row under concurrent transactions. -/
structure Cell (τ ρ : Type*) where
  committed : Option ρ
  pending : Option (τ × Option ρ)

namespace Cell
variable {τ ρ : Type*}

/-- The row, once every open transaction has committed. -/
def after (c : Cell τ ρ) : Option ρ :=
  match c.pending with
  | some (_, v) => v
  | none => c.committed

/-- Transaction `t` writes a version that is pending until it ends. -/
def write (t : τ) (v : Option ρ) (c : Cell τ ρ) : Cell τ ρ := { c with pending := some (t, v) }

variable [DecidableEq τ]

/-- The row, as a statement of `t` sees it. -/
def view (t : τ) (c : Cell τ ρ) : Option ρ :=
  match c.pending with
  | some (t', v) => if t' = t then v else c.committed
  | none => c.committed

/-- No other transaction has written the row. -/
def free (t : τ) (c : Cell τ ρ) : Bool :=
  match c.pending with
  | some (t', _) => decide (t' = t)
  | none => true

/-- The transaction's pending version is the row. -/
def commit (t : τ) (c : Cell τ ρ) : Cell τ ρ :=
  match c.pending with
  | some (t', v) => if t' = t then ⟨v, none⟩ else c
  | none => c

/-- The transaction's pending version is gone. -/
def abort (t : τ) (c : Cell τ ρ) : Cell τ ρ :=
  match c.pending with
  | some (t', _) => if t' = t then ⟨c.committed, none⟩ else c
  | none => c

variable {c : Cell τ ρ} {t : τ}

@[simp] theorem after_commit : (c.commit t).after = c.after := by
  rcases c with ⟨v, _ | ⟨t', w⟩⟩
  · rfl
  · rw [commit]
    simp only
    split <;> rfl

/-- A commit settles the rows that its transaction has written, and no others. -/
theorem commit_of_ne {t' : τ} {v w : Option ρ} (h : t' ≠ t) :
    (⟨v, some (t', w)⟩ : Cell τ ρ).commit t = ⟨v, some (t', w)⟩ := if_neg h

theorem commit_self {v w : Option ρ} : (⟨v, some (t, w)⟩ : Cell τ ρ).commit t = ⟨w, none⟩ :=
  if_pos rfl

theorem view_eq_after (h : c.free t = true) : c.view t = c.after := by
  rcases c with ⟨v, _ | ⟨t', w⟩⟩
  · rfl
  · exact if_pos (of_decide_eq_true h)

theorem view_eq_committed (h : c.free t = false) : c.view t = c.committed := by
  rcases c with ⟨v, _ | ⟨t', w⟩⟩
  · rfl
  · exact if_neg (of_decide_eq_false h)

end Cell

/-- A table. -/
abbrev Heap (τ ρ : Type*) := List (Cell τ ρ)

namespace Heap
variable {τ ρ : Type*}

/-- A table that no transaction is open on. -/
def ofRows (rows : List ρ) : Heap τ ρ := rows.map fun r => ⟨some r, none⟩

/-- What is committed. -/
def rows (h : Heap τ ρ) : List ρ := h.filterMap Cell.committed

/-- What there will be, once every open transaction has committed. -/
def after (h : Heap τ ρ) : List ρ := h.filterMap Cell.after

variable [DecidableEq τ]

/-- The rows that a statement of `t` finds. -/
def scan (t : τ) (p : ρ → Bool) (h : Heap τ ρ) : List ℕ :=
  (List.range h.length).filter fun i => (h[i]?.bind (Cell.view t)).any p

/-- A statement of `t` that found row `i` turns to it: the table, and the row if it still matches.
`none` while it waits. -/
def touch (t : τ) (p : ρ → Bool) (f : ρ → Option ρ) (i : ℕ) (h : Heap τ ρ) :
    Option (Heap τ ρ × Option ρ) :=
  match h[i]? with
  | none => none
  | some c =>
      if c.free t then
        match (c.view t).filter p with
        | some r => some (h.set i (c.write t (f r)), some r)
        | none => some (h, none)
      else none

/-- An `INSERT` of `t`, where two rows that `clash` are kept apart by a unique index.  `none` while
it waits. -/
def insert (t : τ) (clash : ρ → ρ → Bool) (r : ρ) (h : Heap τ ρ) : Option (Except Unit (Heap τ ρ)) :=
  if h.any fun c => !c.free t && (c.committed.any (clash r) || c.after.any (clash r)) then none
  else if h.any fun c => (c.view t).any (clash r) then some (.error ())
  else some (.ok (h ++ [⟨none, some (t, some r)⟩]))

/-- Every row that the transaction has written is committed. -/
def commit (t : τ) (h : Heap τ ρ) : Heap τ ρ := h.map (Cell.commit t)

/-- Every row that the transaction has written is as it was. -/
def abort (t : τ) (h : Heap τ ρ) : Heap τ ρ := h.map (Cell.abort t)

variable {h h' : Heap τ ρ} {t : τ} {p : ρ → Bool} {f : ρ → Option ρ} {i : ℕ} {r : ρ}

omit [DecidableEq τ] in
theorem mem_rows : r ∈ h.rows ↔ ∃ c ∈ h, c.committed = some r := List.mem_filterMap

omit [DecidableEq τ] in
@[simp] theorem rows_ofRows {rows : List ρ} : (ofRows rows : Heap τ ρ).rows = rows := by
  rw [Heap.rows, ofRows, List.filterMap_map]
  exact List.filterMap_some

omit [DecidableEq τ] in
theorem mem_after : r ∈ h.after ↔ ∃ c ∈ h, c.after = some r := List.mem_filterMap

omit [DecidableEq τ] in
@[simp] theorem after_ofRows {rows : List ρ} : (ofRows rows : Heap τ ρ).after = rows := by
  rw [Heap.after, ofRows, List.filterMap_map]
  exact List.filterMap_some

/-! ### What a statement does -/

/-- What a statement finds matches, as it is seen. -/
theorem mem_scan : i ∈ h.scan t p ↔ ∃ c r, h[i]? = some c ∧ c.view t = some r ∧ p r = true := by
  rw [scan, List.mem_filter, List.mem_range]
  constructor
  · rintro ⟨-, hp⟩
    cases hc : h[i]? with
    | none => rw [hc] at hp; cases hp
    | some c =>
        rw [hc, Option.bind_some] at hp
        cases hr : c.view t with
        | none => rw [hr] at hp; cases hp
        | some r => rw [hr] at hp; exact ⟨c, r, rfl, hr, hp⟩
  · rintro ⟨c, r, hc, hr, hp⟩
    refine ⟨(List.getElem?_eq_some_iff.mp hc).1, ?_⟩
    rw [hc, Option.bind_some, hr]
    exact hp

/-- A row that is touched is free, and is written if its latest version matches. -/
theorem touch_eq_some {hit : Option ρ} (ht : h.touch t p f i = some (h', hit)) :
    ∃ c, h[i]? = some c ∧ c.free t = true ∧
      ((∃ r, c.after = some r ∧ p r = true ∧ h' = h.set i (c.write t (f r)) ∧ hit = some r) ∨
        (∀ r, c.after = some r → p r = false) ∧ h' = h ∧ hit = none) := by
  rw [touch] at ht
  split at ht
  · cases ht
  · next c hc =>
      split at ht
      · next hfree =>
          refine ⟨c, hc, hfree, ?_⟩
          rw [Cell.view_eq_after hfree] at ht
          split at ht
          · next r hr =>
              obtain ⟨hr, hp⟩ := Option.filter_eq_some_iff.mp hr
              cases ht
              exact .inl ⟨r, hr, hp, rfl, rfl⟩
          · next hnone =>
              cases ht
              refine .inr ⟨fun r hr => ?_, rfl, rfl⟩
              rw [hr, Option.filter_some] at hnone
              split at hnone
              · cases hnone
              · next hp => exact Bool.eq_false_iff.mpr hp
      · cases ht

/-- A row that no other transaction has written can be touched. -/
theorem touch_isSome {c : Cell τ ρ} (hc : h[i]? = some c) (hfree : c.free t = true) :
    (h.touch t p f i).isSome = true := by
  rw [touch, hc]
  simp only [hfree, if_true]
  split <;> rfl

variable {clash : ρ → ρ → Bool}

theorem insert_eq_ok (hi : h.insert t clash r = some (.ok h')) :
    h' = h ++ [⟨none, some (t, some r)⟩] := by
  rw [insert] at hi
  split at hi
  · cases hi
  · split at hi
    · cases hi
    · cases hi; rfl

/-- An `INSERT` is refused by a row that its own transaction sees, and that no other has written. -/
theorem insert_eq_error (hi : h.insert t clash r = some (.error ())) :
    ∃ c ∈ h, c.free t = true ∧ ∃ r', c.after = some r' ∧ clash r r' = true := by
  rw [insert] at hi
  split at hi
  · cases hi
  · next hwait =>
      split at hi
      · next hclash =>
          obtain ⟨c, hc, hview⟩ := List.any_eq_true.mp hclash
          have hfree : c.free t = true := by
            by_contra hno
            refine hwait (List.any_eq_true.mpr ⟨c, hc, ?_⟩)
            have hno := Bool.eq_false_iff.mpr hno
            rw [Cell.view_eq_committed hno] at hview
            simp [hno, hview]
          refine ⟨c, hc, hfree, ?_⟩
          rw [Cell.view_eq_after hfree] at hview
          cases hr : c.after with
          | none => rw [hr] at hview; cases hview
          | some r' => rw [hr] at hview; exact ⟨r', rfl, hview⟩
      · cases hi

/-- It waits only for a transaction that has written a row in its way. -/
theorem insert_isSome (hw : ∀ c ∈ h, c.free t = false → ∀ r', c.committed = some r' ∨
    c.after = some r' → clash r r' = false) : (h.insert t clash r).isSome = true := by
  rw [insert, if_neg]
  · split <;> rfl
  · intro hany
    obtain ⟨c, hc, hcond⟩ := List.any_eq_true.mp hany
    obtain ⟨hfree, hclash⟩ := Bool.and_eq_true_iff.mp hcond
    have hw := hw c hc (by simpa using hfree)
    rcases Bool.or_eq_true_iff.mp hclash with hcl | hcl
    · cases hr : c.committed with
      | none => rw [hr] at hcl; cases hcl
      | some r' => rw [hr] at hcl; exact Bool.false_ne_true ((hw r' (.inl hr)).symm.trans hcl)
    · cases hr : c.after with
      | none => rw [hr] at hcl; cases hcl
      | some r' => rw [hr] at hcl; exact Bool.false_ne_true ((hw r' (.inr hr)).symm.trans hcl)

/-! ### What it leaves alone -/

omit [DecidableEq τ] in
/-- What a statement writes is not committed. -/
theorem rows_write {c : Cell τ ρ} {v : Option ρ} (hc : h[i]? = some c) :
    Heap.rows (h.set i (c.write t v)) = h.rows := by
  rw [set_split hc, Heap.rows, List.filterMap_append, List.filterMap_cons]
  conv_rhs => rw [Heap.rows, split_at hc, List.filterMap_append, List.filterMap_cons]
  rfl

@[simp] theorem after_commit : (h.commit t).after = h.after := by
  rw [Heap.after, commit, List.filterMap_map]
  exact List.filterMap_congr fun c _ => Cell.after_commit

end Heap

end BellasReef.Support
