import Mathlib.Data.List.Forall2
import Mathlib.Data.List.Nodup
import Mathlib.Data.List.Perm.Basic
import Mathlib.Order.Defs.LinearOrder

/-!
# Support — Lists

What replacing or removing one element of a list does to a count and to a filter, what is found in
a list by a key, and lists that are related or worked off element by element.
-/

namespace BellasReef.Support

variable {α : Type*} {p : α → Bool} {l : List α} {i : ℕ} {x y : α}

theorem lawfulBEq_of_linearOrder [LinearOrder α] : LawfulBEq α := inferInstance

/-- What leaves a list is counted out of it. -/
theorem count_eraseIdx [DecidableEq α] (h : l[i]? = some x) (y : α) :
    (l.eraseIdx i).count y + (if x = y then 1 else 0) = l.count y := by
  obtain ⟨hi, rfl⟩ := List.getElem?_eq_some_iff.mp h
  rw [← (List.getElem_cons_eraseIdx_perm hi).count_eq y, List.count_cons]
  simp

theorem perm_cons_eraseIdx (h : l[i]? = some x) : (x :: l.eraseIdx i).Perm l := by
  obtain ⟨hi, rfl⟩ := List.getElem?_eq_some_iff.mp h
  exact List.getElem_cons_eraseIdx_perm hi

/-- A list, split at one of its elements. -/
theorem split_at (h : l[i]? = some x) : l = l.take i ++ x :: l.drop (i + 1) := by
  obtain ⟨hi, rfl⟩ := List.getElem?_eq_some_iff.mp h
  rw [← List.drop_eq_getElem_cons hi, List.take_append_drop]

theorem set_split (h : l[i]? = some x) (y : α) : l.set i y = l.take i ++ y :: l.drop (i + 1) := by
  obtain ⟨hi, -⟩ := List.getElem?_eq_some_iff.mp h
  rw [List.set_eq_take_append_cons_drop, if_pos hi]

/-- A list filtered at one of its elements. -/
theorem filter_split (p : α → Bool) (h : l[i]? = some x) :
    l.filter p = (l.take i).filter p ++ (x :: l.drop (i + 1)).filter p := by
  have := congrArg (List.filter p) (split_at h)
  rwa [List.filter_append] at this

/-- An element outside the filter may be replaced by another. -/
theorem filter_set_of_not (h : l[i]? = some x) (hx : p x = false) (hy : p y = false) :
    (l.set i y).filter p = l.filter p := by
  rw [filter_split p h, set_split h, List.filter_append, List.filter_cons_of_neg (by simp [hy]),
    List.filter_cons_of_neg (by simp [hx])]

theorem filter_eraseIdx_of_not (h : l[i]? = some x) (hx : p x = false) :
    (l.eraseIdx i).filter p = l.filter p := by
  rw [filter_split p h, List.eraseIdx_eq_take_drop_succ, List.filter_append,
    List.filter_cons_of_neg (by simp [hx])]

/-- A filter of at most one element has the one that is found in it. -/
theorem filter_only (hone : (l.filter p).length ≤ 1) (h : l[i]? = some x) (hx : p x = true) :
    l.filter p = [x] ∧ (l.eraseIdx i).filter p = [] ∧
      ∀ y, p y = true → (l.set i y).filter p = [y] := by
  have hl := filter_split p h
  rw [List.filter_cons_of_pos hx] at hl
  rw [hl, List.length_append, List.length_cons] at hone
  have hbefore : (l.take i).filter p = [] := List.length_eq_zero_iff.mp (by omega)
  have hafter : (l.drop (i + 1)).filter p = [] := List.length_eq_zero_iff.mp (by omega)
  refine ⟨by rw [hl, hbefore, hafter]; rfl, ?_, fun y hy => ?_⟩
  · rw [List.eraseIdx_eq_take_drop_succ, List.filter_append, hbefore, hafter]; rfl
  · rw [set_split h, List.filter_append, List.filter_cons_of_pos hy, hbefore, hafter]; rfl

/-- A stretch of a class, and what comes behind it and is not of the class, are the only such. -/
theorem stretch_unique {s s' t t' : List α} (h : s ++ t = s' ++ t') (hs : ∀ x ∈ s, p x = true)
    (hs' : ∀ x ∈ s', p x = true) (ht : ∀ x ∈ t.head?, p x = false)
    (ht' : ∀ x ∈ t'.head?, p x = false) : s = s' ∧ t = t' := by
  have htake : ∀ {s t : List α}, (∀ x ∈ s, p x = true) → (∀ x ∈ t.head?, p x = false) →
      (s ++ t).takeWhile p = s := by
    intro s t hs ht
    rw [List.takeWhile_append_of_pos hs]
    cases t with
    | nil => simp
    | cons x t => simp [ht x rfl]
  have hst : s = s' := by
    have he := congrArg (List.takeWhile p) h
    rwa [htake hs ht, htake hs' ht'] at he
  subst hst
  exact ⟨rfl, List.append_cancel_left h⟩

/-- Where no two elements share a key, what is found by a key is the element that has it. -/
theorem find_key_eq_some_iff {β : Type*} [DecidableEq β] {key : α → β} {k : β}
    (h : (l.map key).Nodup) : l.find? (fun x => decide (key x = k)) = some x ↔ x ∈ l ∧ key x = k := by
  constructor
  · intro hx
    exact ⟨List.mem_of_find?_eq_some hx, by simpa using List.find?_some hx⟩
  · rintro ⟨hx, rfl⟩
    have hsome : (l.find? fun y => decide (key y = key x)).isSome = true :=
      List.find?_isSome.mpr ⟨x, hx, by simp⟩
    obtain ⟨y, hy⟩ := Option.isSome_iff_exists.mp hsome
    have hkey : key y = key x := by simpa using List.find?_some hy
    rw [hy, List.inj_on_of_nodup_map h (List.mem_of_find?_eq_some hy) hx hkey]

/-- Of a list whose keys differ, a key picks what is found of it. -/
theorem filter_key_eq {β : Type*} [DecidableEq β] {key : α → β} (h : (l.map key).Nodup) (k : β) :
    l.filter (fun x => decide (key x = k)) = (l.find? fun x => decide (key x = k)).toList := by
  induction l with
  | nil => rfl
  | cons x l ih =>
      obtain ⟨hx, hl⟩ := List.nodup_cons.mp h
      by_cases he : key x = k
      · have hnone : l.filter (fun y => decide (key y = k)) = [] := by
          refine List.filter_eq_nil_iff.mpr fun y hy hk => hx ?_
          rw [he, ← of_decide_eq_true hk]
          exact List.mem_map_of_mem hy
        rw [List.filter_cons_of_pos (by simpa using he), hnone,
          List.find?_cons_of_pos (by simpa using he)]
        rfl
      · rw [List.filter_cons_of_neg (by simpa using he), ih hl,
          List.find?_cons_of_neg (by simpa using he)]

/-- What is found first is still found first by a narrower test that it passes. -/
theorem find_narrow {q : α → Bool} (hqp : ∀ x, q x = true → p x = true)
    (h : ∀ x ∈ l.find? p, q x = true) : l.find? q = l.find? p := by
  cases hp : l.find? p with
  | none =>
      refine List.find?_eq_none.mpr fun x hx hq => ?_
      exact List.find?_eq_none.mp hp x hx (hqp x hq)
  | some x =>
      obtain ⟨-, before, after, hl, hbefore⟩ := List.find?_eq_some_iff_append.mp hp
      refine List.find?_eq_some_iff_append.mpr ⟨h x hp, before, after, hl, fun y hy => ?_⟩
      have hy : p y = false := by simpa using hbefore y hy
      cases hq : q y with
      | false => rfl
      | true => rw [hqp y hq] at hy; cases hy

/-- An element added at the end is found only where nothing was. -/
theorem find_snoc (p : α → Bool) (l : List α) (x : α) : (l ++ [x]).find? p = l.find? p ∨
    l.find? p = none ∧ p x = true ∧ (l ++ [x]).find? p = some x := by
  rw [List.find?_append]
  cases hl : l.find? p with
  | some y => exact .inl rfl
  | none =>
      cases hx : p x with
      | false => exact .inl (List.find?_cons_of_neg (by simp [hx]))
      | true => exact .inr ⟨rfl, rfl, List.find?_cons_of_pos hx⟩

/-- Where no two elements have the same image, an element is told by its image. -/
theorem eq_of_nodup_filterMap {β : Type*} {f : α → Option β} {b : β} (h : (l.filterMap f).Nodup)
    (hx : x ∈ l) (hy : y ∈ l) (hfx : f x = some b) (hfy : f y = some b) : x = y := by
  induction l with
  | nil => cases hx
  | cons z l ih =>
      have hb : ∀ w ∈ l, f w = some b → b ∈ l.filterMap f := fun w hw hfw =>
        List.mem_filterMap.mpr ⟨w, hw, hfw⟩
      have hl : (l.filterMap f).Nodup := by
        rw [List.filterMap_cons] at h
        split at h
        · exact h
        · exact (List.nodup_cons.mp h).2
      have hz : f z = some b → b ∉ l.filterMap f := fun hfz => by
        rw [List.filterMap_cons, hfz] at h
        exact (List.nodup_cons.mp h).1
      rcases List.mem_cons.mp hx with rfl | hxl
      · rcases List.mem_cons.mp hy with rfl | hyl
        · rfl
        · exact absurd (hb y hyl hfy) (hz hfx)
      · rcases List.mem_cons.mp hy with rfl | hyl
        · exact absurd (hb x hxl hfx) (hz hfy)
        · exact ih hl hxl hyl

/-! ### Inserting what is new -/

section InsertNew
variable {β : Type*} [DecidableEq β] {key : α → β} {l' : List α}

/-- `x` at the end, unless its key is there. -/
def insertNew (key : α → β) (l : List α) (x : α) : List α :=
  if key x ∈ l.map key then l else l ++ [x]

theorem mem_insertNew (h : y ∈ l) : y ∈ insertNew key l x := by
  rw [insertNew]
  split
  · exact h
  · exact List.mem_append_left _ h

theorem key_mem_insertNew : key x ∈ (insertNew key l x).map key := by
  rw [insertNew]
  split
  · assumption
  · simp

theorem nodup_insertNew (h : (l.map key).Nodup) : ((insertNew key l x).map key).Nodup := by
  rw [insertNew]
  split
  · exact h
  · next hx =>
      rw [List.map_append, List.map_singleton]
      exact List.Nodup.append h (List.nodup_singleton _) fun k hk hm =>
        hx (List.mem_singleton.mp hm ▸ hk)

theorem mem_foldl_insertNew (h : y ∈ l) : y ∈ l'.foldl (insertNew key) l := by
  induction l' generalizing l with
  | nil => exact h
  | cons x l' ih => exact ih (mem_insertNew h)

theorem nodup_foldl_insertNew (h : (l.map key).Nodup) :
    ((l'.foldl (insertNew key) l).map key).Nodup := by
  induction l' generalizing l with
  | nil => exact h
  | cons x l' ih => exact ih (nodup_insertNew h)

/-- After an insert the key is there, whosever it is. -/
theorem key_mem_foldl_insertNew (h : x ∈ l') :
    key x ∈ (l'.foldl (insertNew key) l).map key := by
  induction l' generalizing l with
  | nil => cases h
  | cons y l' ih =>
      rcases List.mem_cons.mp h with rfl | h
      · obtain ⟨z, hz, he⟩ := List.mem_map.mp (key_mem_insertNew : key x ∈ (insertNew key l x).map key)
        have hmem : z ∈ l'.foldl (insertNew key) (insertNew key l x) := mem_foldl_insertNew hz
        rw [List.foldl_cons]
        exact List.mem_map.mpr ⟨z, hmem, he⟩
      · exact ih h

/-- An element whose key is nowhere else is inserted. -/
theorem mem_foldl_insertNew_of_fresh (h : x ∈ l') (hl : key x ∉ l.map key)
    (hone : (l'.map key).count (key x) = 1) : x ∈ l'.foldl (insertNew key) l := by
  induction l' generalizing l with
  | nil => cases h
  | cons y l' ih =>
      rw [List.map_cons, List.count_cons] at hone
      rcases List.mem_cons.mp h with rfl | h
      · have hx : x ∈ insertNew key l x := by
          rw [insertNew, if_neg hl]
          exact List.mem_append_right _ List.mem_cons_self
        rw [List.foldl_cons]
        exact mem_foldl_insertNew hx
      · have hpos : 0 < (l'.map key).count (key x) :=
          List.count_pos_iff.mpr (List.mem_map_of_mem h)
        have hy : key y ≠ key x := by
          intro he
          rw [if_pos (beq_iff_eq.mpr he)] at hone
          omega
        rw [if_neg (by simpa using hy), Nat.add_zero] at hone
        refine ih h ?_ hone
        rw [insertNew]
        split
        · exact hl
        · simpa [hy.symm] using hl

end InsertNew

/-- What a list makes at most once it makes of one element. -/
theorem eq_of_count_filterMap_le_one {α β : Type*} [DecidableEq β] {f : α → Option β} {b : β}
    {l : List α} {x y : α} (h : (l.filterMap f).count b ≤ 1) (hx : x ∈ l) (hy : y ∈ l)
    (hfx : f x = some b) (hfy : f y = some b) : x = y := by
  have hpos : ∀ {l : List α} {z : α}, z ∈ l → f z = some b → 0 < (l.filterMap f).count b :=
    fun hz hfz => List.count_pos_iff.mpr (List.mem_filterMap.mpr ⟨_, hz, hfz⟩)
  induction l with
  | nil => cases hx
  | cons z l ih =>
      rcases List.mem_cons.mp hx with rfl | hx' <;> rcases List.mem_cons.mp hy with rfl | hy'
      · rfl
      · rw [List.filterMap_cons_some hfx, List.count_cons_self] at h
        have := hpos hy' hfy
        omega
      · rw [List.filterMap_cons_some hfy, List.count_cons_self] at h
        have := hpos hx' hfx
        omega
      · have hle : (l.filterMap f).count b ≤ ((z :: l).filterMap f).count b :=
          ((List.sublist_cons_self z l).filterMap f).count_le b
        exact ih (by omega) hx' hy'

/-! ### Element by element -/

section Elementwise

variable {β γ : Type*} {P Q : α → β → Prop} {xs : List α} {ys : List β}

theorem forall₂_of_mem (h : List.Forall₂ P xs ys) (hpq : ∀ x ∈ xs, ∀ y, P x y → Q x y) :
    List.Forall₂ Q xs ys := by
  induction h with
  | nil => exact .nil
  | cons hp h ih => exact .cons (hpq _ (.head _) _ hp) (ih fun x hx => hpq x (.tail _ hx))

theorem exists_of_forall₂ (h : List.Forall₂ P xs ys) (hx : x ∈ xs) : ∃ y ∈ ys, P x y := by
  induction h with
  | nil => cases hx
  | cons hp h ih =>
    obtain rfl | hx := List.mem_cons.mp hx
    · exact ⟨_, .head _, hp⟩
    · obtain ⟨y, hy, hp⟩ := ih hx
      exact ⟨y, .tail _ hy, hp⟩

theorem map_eq_of_forall₂ {f : α → γ} {g : β → γ} (h : List.Forall₂ P xs ys)
    (hfg : ∀ x y, P x y → f x = g y) : xs.map f = ys.map g := by
  induction h with
  | nil => rfl
  | cons hp _ ih => rw [List.map_cons, List.map_cons, hfg _ _ hp, ih]

theorem forall₂_map {R : β → γ → Prop} {f : α → β} {g : α → γ} (h : ∀ x ∈ xs, R (f x) (g x)) :
    List.Forall₂ R (xs.map f) (xs.map g) := by
  rw [List.forall₂_map_left_iff, List.forall₂_map_right_iff, List.forall₂_same]
  exact h

end Elementwise

section Fallible

variable {α β γ : Type} {f : α → Option β} {x : α} {xs : List α} {ys : List β}

/-- What has been done for a whole list has been done for each. -/
theorem exists_of_mapM (h : xs.mapM f = some ys) (hx : x ∈ xs) : ∃ y ∈ ys, f x = some y := by
  induction xs generalizing ys with
  | nil => cases hx
  | cons z xs ih =>
    rw [List.mapM_cons] at h
    obtain ⟨w, hw, h⟩ := Option.bind_eq_some_iff.mp h
    obtain ⟨ws, hws, h⟩ := Option.bind_eq_some_iff.mp h
    obtain rfl := Option.some.inj h
    obtain rfl | hx := List.mem_cons.mp hx
    · exact ⟨w, .head _, hw⟩
    · obtain ⟨y, hy, hf⟩ := ih hws hx
      exact ⟨y, .tail _ hy, hf⟩

theorem mapM_eq_none (hx : x ∈ xs) (h : f x = none) : xs.mapM f = none := by
  rw [Option.eq_none_iff_forall_ne_some]
  intro ys hys
  obtain ⟨y, -, hy⟩ := exists_of_mapM hys hx
  rw [h] at hy
  cases hy

theorem mapM_map_eq_some {g : γ → α} {h : γ → β} {zs : List γ}
    (hf : ∀ z ∈ zs, f (g z) = some (h z)) : (zs.map g).mapM f = some (zs.map h) := by
  induction zs with
  | nil => rfl
  | cons z zs ih =>
    rw [List.map_cons, List.mapM_cons, hf z (.head _), ih fun y hy => hf y (.tail _ hy)]
    rfl

end Fallible

end BellasReef.Support
