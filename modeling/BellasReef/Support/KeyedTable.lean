import BellasReef.Support.ReadCommitted
import Mathlib.Data.List.AList
import Mathlib.Data.List.Induction
import Mathlib.Logic.Function.Basic

/-!
# Support — Keyed table

A table under READ COMMITTED by its primary key: each key has one `Cell`, and all but the keys that
are listed are empty.  A statement on one key finds the row that its transaction sees, and writes
it where no other transaction has.

* `Keyed.any_iff`: what a statement finds among the listed keys, it finds at all.
* `cell_commit`, `cell_abort`: a transaction settles the cells that it has written, and no others.
* `mem_rows`, `nodup_rows`: what is committed has one row a key.
-/

namespace BellasReef.Support

namespace Cell
variable {τ ρ : Type*} [DecidableEq τ] {c : Cell τ ρ} {t u : τ} {v : Option ρ}

theorem commit_of_pending (h : c.pending = some (t, v)) : c.commit t = ⟨v, none⟩ := by
  rw [commit, h]
  exact if_pos rfl

theorem commit_of_other (h : ∀ v, c.pending ≠ some (t, v)) : c.commit t = c := by
  rw [commit]
  split
  · next u v hp =>
      refine if_neg ?_
      rintro rfl
      exact h v hp
  · rfl

theorem abort_of_pending (h : c.pending = some (t, v)) : c.abort t = ⟨c.committed, none⟩ := by
  rw [abort, h]
  exact if_pos rfl

theorem abort_of_other (h : ∀ v, c.pending ≠ some (t, v)) : c.abort t = c := by
  rw [abort]
  split
  · next u v hp =>
      refine if_neg ?_
      rintro rfl
      exact h v hp
  · rfl

omit [DecidableEq τ] in
/-- A transaction has written the row, or not. -/
theorem pending_cases (t : τ) (c : Cell τ ρ) :
    (∃ v, c.pending = some (t, v)) ∨ ∀ v, c.pending ≠ some (t, v) := by
  by_cases h : ∃ v, c.pending = some (t, v)
  · exact .inl h
  · exact .inr fun v hv => h ⟨v, hv⟩

/-- A row that a transaction may write is settled, or its own. -/
theorem pending_of_free (hfree : c.free t = true) (h : c.pending = some (u, v)) : u = t := by
  rw [free, h] at hfree
  exact of_decide_eq_true hfree

/-- What a transaction sees of a row that it has not written is committed. -/
theorem view_of_other (h : ∀ v, c.pending ≠ some (t, v)) : c.view t = c.committed := by
  rw [view]
  split
  · next u v hp =>
      refine if_neg ?_
      rintro rfl
      exact h v hp
  · rfl

end Cell

/-- A table by its primary key. -/
structure Keyed (κ τ ρ : Type*) where
  keys : List κ
  cell : κ → Cell τ ρ
  nodup : keys.Nodup
  known : ∀ k, k ∉ keys → cell k = ⟨none, none⟩

namespace Keyed
variable {κ τ ρ : Type*}

/-- No transaction has written it. -/
def Settled (T : Keyed κ τ ρ) : Prop := ∀ k, (T.cell k).pending = none

/-- What is committed. -/
def rows (T : Keyed κ τ ρ) : List (κ × ρ) :=
  T.keys.filterMap fun k => (T.cell k).committed.map (k, ·)

/-- Some key has such a cell. -/
def any (T : Keyed κ τ ρ) (p : κ → Cell τ ρ → Bool) : Bool := T.keys.any fun k => p k (T.cell k)

variable [DecidableEq κ]

/-- A table of rows with keys of their own. -/
def ofRows (rows : List (κ × ρ)) (h : (rows.map Prod.fst).Nodup) : Keyed κ τ ρ where
  keys := rows.map Prod.fst
  cell := fun k => ⟨rows.lookup k, none⟩
  nodup := h
  known := by
    intro k hk
    rw [List.lookup_eq_none_iff.mpr fun p hp => ?_]
    exact bne_iff_ne.mpr fun heq => hk (heq ▸ List.mem_map_of_mem hp)

/-- A row is written; `none` deletes it. -/
def write (T : Keyed κ τ ρ) (t : τ) (k : κ) (v : Option ρ) : Keyed κ τ ρ where
  keys := T.keys.insert k
  cell := Function.update T.cell k ((T.cell k).write t v)
  nodup := T.nodup.insert
  known := by
    intro k' hk'
    rw [List.mem_insert_iff, not_or] at hk'
    rw [Function.update_of_ne hk'.1, T.known k' hk'.2]

variable [DecidableEq τ]

/-- The keys of the rows that a statement of `t` finds. -/
def select (T : Keyed κ τ ρ) (t : τ) (p : ρ → Bool) : List κ :=
  T.keys.filter fun k => ((T.cell k).view t).any p

/-- What transaction `t` has written is committed. -/
def commit (T : Keyed κ τ ρ) (t : τ) : Keyed κ τ ρ where
  keys := T.keys
  cell := fun k => (T.cell k).commit t
  nodup := T.nodup
  known := fun k hk => by rw [T.known k hk]; rfl

/-- What transaction `t` has written is gone. -/
def abort (T : Keyed κ τ ρ) (t : τ) : Keyed κ τ ρ where
  keys := T.keys
  cell := fun k => (T.cell k).abort t
  nodup := T.nodup
  known := fun k hk => by rw [T.known k hk]; rfl

variable {T : Keyed κ τ ρ} {t u : τ} {k : κ} {v : Option ρ} {r : ρ}

omit [DecidableEq κ] [DecidableEq τ] in
theorem any_iff {p : κ → Cell τ ρ → Bool} (hp : ∀ k, p k ⟨none, none⟩ = false) :
    T.any p = true ↔ ∃ k, p k (T.cell k) = true := by
  rw [any, List.any_eq_true]
  refine ⟨fun ⟨k, _, h⟩ => ⟨k, h⟩, fun ⟨k, h⟩ => ⟨k, ?_, h⟩⟩
  by_contra hk
  rw [T.known k hk, hp] at h
  cases h

omit [DecidableEq τ] in
@[simp] theorem cell_write_self : (T.write t k v).cell k = (T.cell k).write t v :=
  Function.update_self ..

omit [DecidableEq τ] in
theorem cell_write_of_ne {k' : κ} (h : k' ≠ k) : (T.write t k v).cell k' = T.cell k' :=
  Function.update_of_ne h ..

omit [DecidableEq κ] in
@[simp] theorem cell_commit : (T.commit t).cell k = (T.cell k).commit t := rfl

omit [DecidableEq κ] in
@[simp] theorem cell_abort : (T.abort t).cell k = (T.cell k).abort t := rfl

/-! ### What the other transactions have written -/

theorem pending_write {k' : κ} {w : Option ρ} (hfree : (T.cell k).free t = true) (hu : u ≠ t) :
    ((T.write t k v).cell k').pending = some (u, w) ↔ (T.cell k').pending = some (u, w) := by
  by_cases hk : k' = k
  · subst hk
    rw [cell_write_self]
    refine iff_of_false (fun h => hu ?_) fun h => hu (Cell.pending_of_free hfree h)
    exact (Prod.mk.inj (Option.some.inj h)).1.symm
  · rw [cell_write_of_ne hk]

omit [DecidableEq κ] in
theorem pending_commit {w : Option ρ} :
    ((T.commit t).cell k).pending = some (u, w) ↔ u ≠ t ∧ (T.cell k).pending = some (u, w) := by
  rw [cell_commit]
  obtain ⟨v, hv⟩ | hother := Cell.pending_cases t (T.cell k)
  · rw [Cell.commit_of_pending hv, hv]
    refine iff_of_false nofun fun h => h.1 ?_
    exact (Prod.mk.inj (Option.some.inj h.2)).1.symm
  · rw [Cell.commit_of_other hother]
    refine ⟨fun h => ⟨?_, h⟩, And.right⟩
    rintro rfl
    exact hother w h

omit [DecidableEq κ] in
theorem pending_abort {w : Option ρ} :
    ((T.abort t).cell k).pending = some (u, w) ↔ u ≠ t ∧ (T.cell k).pending = some (u, w) := by
  rw [cell_abort]
  obtain ⟨v, hv⟩ | hother := Cell.pending_cases t (T.cell k)
  · rw [Cell.abort_of_pending hv, hv]
    refine iff_of_false nofun fun h => h.1 ?_
    exact (Prod.mk.inj (Option.some.inj h.2)).1.symm
  · rw [Cell.abort_of_other hother]
    refine ⟨fun h => ⟨?_, h⟩, And.right⟩
    rintro rfl
    exact hother w h

/-! ### What is committed -/

omit [DecidableEq τ] in
@[simp] theorem committed_write {k' : κ} :
    ((T.write t k v).cell k').committed = (T.cell k').committed := by
  by_cases hk : k' = k
  · subst hk
    rw [cell_write_self]
    rfl
  · rw [cell_write_of_ne hk]

omit [DecidableEq κ] in
@[simp] theorem committed_abort : ((T.abort t).cell k).committed = (T.cell k).committed := by
  rw [cell_abort]
  obtain ⟨v, hv⟩ | hother := Cell.pending_cases t (T.cell k)
  · rw [Cell.abort_of_pending hv]
  · rw [Cell.abort_of_other hother]

omit [DecidableEq κ] in
/-- A commit leaves a row as it was, or as its transaction wrote it. -/
theorem committed_commit :
    (∃ v, (T.cell k).pending = some (t, v) ∧ ((T.commit t).cell k).committed = v) ∨
      ((∀ v, (T.cell k).pending ≠ some (t, v)) ∧
        ((T.commit t).cell k).committed = (T.cell k).committed) := by
  rw [cell_commit]
  obtain ⟨v, hv⟩ | hother := Cell.pending_cases t (T.cell k)
  · exact .inl ⟨v, hv, by rw [Cell.commit_of_pending hv]⟩
  · exact .inr ⟨hother, by rw [Cell.commit_of_other hother]⟩

omit [DecidableEq κ] [DecidableEq τ] in
theorem mem_rows : (k, r) ∈ T.rows ↔ (T.cell k).committed = some r := by
  rw [rows, List.mem_filterMap]
  constructor
  · rintro ⟨k', -, h⟩
    obtain ⟨r', hr, heq⟩ := Option.map_eq_some_iff.mp h
    obtain ⟨rfl, rfl⟩ := Prod.mk.inj heq
    exact hr
  · intro h
    refine ⟨k, ?_, by rw [h]; rfl⟩
    by_contra hk
    rw [T.known k hk] at h
    cases h

omit [DecidableEq κ] [DecidableEq τ] in
/-- **One row a key.** -/
theorem nodup_rows : (T.rows.map Prod.fst).Nodup := by
  rw [rows, List.map_filterMap]
  refine T.nodup.filterMap fun k k' b hb hb' => ?_
  obtain ⟨p, hp, rfl⟩ := Option.map_eq_some_iff.mp hb
  obtain ⟨r, -, rfl⟩ := Option.map_eq_some_iff.mp hp
  obtain ⟨p', hp', heq⟩ := Option.map_eq_some_iff.mp hb'
  obtain ⟨r', -, rfl⟩ := Option.map_eq_some_iff.mp hp'
  exact heq.symm

end Keyed

/-- A dict of rows with keys of their own has each row. -/
theorem lookup_dict {κ ρ : Type*} [DecidableEq κ] {l : List (κ × ρ)} {k : κ} {r : ρ}
    (h : (l.map Prod.fst).Nodup) :
    (l.foldl (fun d p => d.insert p.1 p.2) (∅ : AList fun _ : κ => ρ)).lookup k = some r ↔
      (k, r) ∈ l := by
  induction l using List.reverseRecOn with
  | nil => simp
  | append_singleton l p ih =>
      rw [List.map_append, List.map_singleton, ← List.concat_eq_append, List.nodup_concat] at h
      obtain ⟨k', r'⟩ := p
      rw [List.foldl_append, List.foldl_cons, List.foldl_nil, List.mem_append, List.mem_singleton]
      by_cases hk : k = k'
      · subst hk
        have hnot : (k, r) ∉ l := fun hmem => h.1 (List.mem_map.mpr ⟨_, hmem, rfl⟩)
        rw [AList.lookup_insert, Option.some.injEq, or_iff_right hnot, Prod.mk.injEq,
          and_iff_right rfl, eq_comm]
      · have hne : (k, r) ≠ (k', r') := fun heq => hk (Prod.mk.inj heq).1
        rw [AList.lookup_insert_ne hk, ih h.2, or_iff_left hne]

end BellasReef.Support
