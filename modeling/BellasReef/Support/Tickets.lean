import Mathlib.Data.List.Nodup

/-!
# Support — Tickets

A table of rows that can each be taken once.  `id` names a row and `owner` says who has taken it;
`won j r` is what the takers believe.  `Tickets` says that they are right, which makes the taker of
a row unique (`Tickets.unique_taker`).  The other lemmas are what may be done to the table: drop
rows nobody has taken, rewrite rows, add one, and take one.
-/

namespace BellasReef.Support

variable {ρ ν κ : Type*}

/-- The takers of the rows are those who have won them. -/
structure Tickets (id : ρ → ν) (owner : ρ → Option κ) (rows : List ρ) (won : κ → ν → Prop) : Prop where
  nodup : (rows.map id).Nodup
  won_iff : ∀ j r, won j r ↔ ∃ x ∈ rows, id x = r ∧ owner x = some j

namespace Tickets
variable {id : ρ → ν} {owner : ρ → Option κ} {rows : List ρ} {won won' : κ → ν → Prop}
  {j k : κ} {r : ν} {x : ρ}

/-- **A row is taken once.** -/
theorem unique_taker (h : Tickets id owner rows won) (hj : won j r) (hk : won k r) : j = k := by
  obtain ⟨x, hx, rfl, hox⟩ := (h.won_iff j r).mp hj
  obtain ⟨y, hy, hid, hoy⟩ := (h.won_iff k _).mp hk
  obtain rfl := List.inj_on_of_nodup_map h.nodup hy hx hid
  exact Option.some.inj (hox.symm.trans hoy)

/-- What is won of a row is its owner's. -/
theorem won_row (h : Tickets id owner rows won) (hx : x ∈ rows) : won j (id x) ↔ owner x = some j := by
  rw [h.won_iff]
  constructor
  · rintro ⟨y, hy, hid, ho⟩
    obtain rfl := List.inj_on_of_nodup_map h.nodup hy hx hid
    exact ho
  · exact fun ho => ⟨x, hx, rfl, ho⟩

theorem nil : Tickets id owner [] fun _ _ => False :=
  ⟨List.nodup_nil, fun _ _ => ⟨False.elim, by rintro ⟨x, hx, -⟩; cases hx⟩⟩

theorem congr (h : Tickets id owner rows won) (hw : ∀ j r, won' j r ↔ won j r) :
    Tickets id owner rows won' :=
  ⟨h.nodup, fun j r => (hw j r).trans (h.won_iff j r)⟩

/-- Rows that nobody has taken may go. -/
theorem filter {p : ρ → Bool} (h : Tickets id owner rows won)
    (hp : ∀ x ∈ rows, p x = false → owner x = none) : Tickets id owner (rows.filter p) won := by
  refine ⟨h.nodup.sublist (List.filter_sublist.map _), fun j r => (h.won_iff j r).trans ?_⟩
  constructor
  · rintro ⟨x, hx, hid, ho⟩
    refine ⟨x, List.mem_filter.mpr ⟨hx, ?_⟩, hid, ho⟩
    by_contra hpx
    rw [hp x hx (Bool.eq_false_iff.mpr hpx)] at ho
    cases ho
  · rintro ⟨x, hx, hid, ho⟩
    exact ⟨x, (List.mem_filter.mp hx).1, hid, ho⟩

/-- A row that nobody has taken may come, under a name of its own. -/
theorem cons (h : Tickets id owner rows won) (hid : id x ∉ rows.map id) (ho : owner x = none) :
    Tickets id owner (x :: rows) won := by
  refine ⟨List.nodup_cons.mpr ⟨hid, h.nodup⟩, fun j r => (h.won_iff j r).trans ?_⟩
  constructor
  · rintro ⟨y, hy, hy'⟩
    exact ⟨y, List.mem_cons_of_mem _ hy, hy'⟩
  · rintro ⟨y, hy, hidy, hoy⟩
    rcases List.mem_cons.mp hy with rfl | hy
    · rw [ho] at hoy; cases hoy
    · exact ⟨y, hy, hidy, hoy⟩

/-- Rows may be rewritten, where each keeps its name and its owner. -/
theorem map {f : ρ → ρ} (h : Tickets id owner rows won) (hid : ∀ x, id (f x) = id x)
    (ho : ∀ x ∈ rows, owner (f x) = owner x) : Tickets id owner (rows.map f) won := by
  have hids : (rows.map f).map id = rows.map id := by
    rw [List.map_map]
    exact List.map_congr_left fun x _ => hid x
  refine ⟨hids ▸ h.nodup, fun j r => (h.won_iff j r).trans ?_⟩
  constructor
  · rintro ⟨x, hx, hxr, hxo⟩
    exact ⟨f x, List.mem_map_of_mem hx, (hid x).trans hxr, (ho x hx).trans hxo⟩
  · rintro ⟨y, hy, hyr, hyo⟩
    obtain ⟨x, hx, rfl⟩ := List.mem_map.mp hy
    exact ⟨x, hx, (hid x).symm.trans hyr, (ho x hx).symm.trans hyo⟩

/-- A row that nobody has taken may be taken. -/
theorem take {f : ρ → ρ} (h : Tickets id owner rows won) (hid : ∀ x, id (f x) = id x)
    (hx : x ∈ rows) (hfree : owner x = none) (hf : owner (f x) = some k)
    (ho : ∀ y ∈ rows, id y ≠ id x → owner (f y) = owner y)
    (hw : ∀ j r, won' j r ↔ won j r ∨ j = k ∧ r = id x) : Tickets id owner (rows.map f) won' := by
  have hids : (rows.map f).map id = rows.map id := by
    rw [List.map_map]
    exact List.map_congr_left fun x _ => hid x
  refine ⟨hids ▸ h.nodup, fun j r => (hw j r).trans ?_⟩
  constructor
  · rintro (hj | ⟨rfl, rfl⟩)
    · obtain ⟨y, hy, rfl, hyo⟩ := (h.won_iff j r).mp hj
      refine ⟨f y, List.mem_map_of_mem hy, hid y, ?_⟩
      by_cases he : id y = id x
      · obtain rfl := List.inj_on_of_nodup_map h.nodup hy hx he
        rw [hfree] at hyo
        cases hyo
      · rw [ho y hy he, hyo]
    · exact ⟨f x, List.mem_map_of_mem hx, hid x, hf⟩
  · rintro ⟨z, hz, rfl, hzo⟩
    obtain ⟨y, hy, rfl⟩ := List.mem_map.mp hz
    by_cases he : id y = id x
    · obtain rfl := List.inj_on_of_nodup_map h.nodup hy hx he
      rw [hf] at hzo
      exact .inr ⟨(Option.some.inj hzo).symm, hid y⟩
    · rw [ho y hy he] at hzo
      exact .inl ((h.won_iff _ _).mpr ⟨y, hy, (hid y).symm, hzo⟩)

end Tickets

end BellasReef.Support
