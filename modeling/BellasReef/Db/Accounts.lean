import BellasReef.Db.Placing
import Mathlib.Data.Fintype.Basic

/-!
# Db — Accounts

What concurrent calls of `OverrideStore.create` are told, and what there is afterwards.

* `all_placed`: calls of one target that do not overlap are all placed and have their rows, exactly
  one row is left open, and every hold that ended is named once.
* `not_all_placed`: of two calls that overlap, one raises.
-/

namespace BellasReef.Db
open BellasReef.Support

variable {ι τ : Type} [DecidableEq ι] [DecidableEq τ] {s s' : Placing ι τ} {a : PlacingAction ι τ}
  {table table' : Heap ι (OverrideRow ι τ)} {call call' : ι → Phase ι τ} {id : ι}

/-! ### The account -/

/-- A hold that this run placed, or that was open before it. -/
def Held (db : Overrides ι τ) (call : ι → Phase ι τ) (id : ι) : Prop :=
  (∃ row displaced, call id = .placed row displaced) ∨ ∃ r ∈ db.rows, r.id = id ∧ r.isOpen = true

/-- What every call is told, and what there is. -/
structure Accounted (db : Overrides ι τ) (table : Heap ι (OverrideRow ι τ))
    (call : ι → Phase ι τ) : Prop where
  at_most : ∀ r ∈ table.rows, ∀ r' ∈ table.rows, r.isOpen = true → r'.isOpen = true →
    r.target = r'.target → r = r'
  at_least : ∀ id row displaced, call id = .placed row displaced →
    ∃ r ∈ table.rows, onTarget row.target r = true
  own : ∀ id row displaced, call id = .placed row displaced → row.id = id ∧
    ∃ r ∈ table.rows, r = row ∨ r = row.supersede
  named : ∀ r ∈ table.rows, r.isOpen = false → Held db call r.id →
    ∃ id row displaced, call id = .placed row displaced ∧ r.released ∈ displaced
  gone : ∀ id row displaced, call id = .placed row displaced →
    (displaced.map ReleasedOverride.id).Nodup ∧
      ∀ x ∈ displaced, ∃ r ∈ table.rows, r.id = x.id ∧ r.isOpen = false
  single : ∀ id id' row row' displaced displaced', call id = .placed row displaced →
    call id' = .placed row' displaced' → ∀ x ∈ displaced, ∀ x' ∈ displaced', x.id = x'.id → id = id'

omit [DecidableEq ι] in
/-- Two committed rows of one id are one, while nothing but an ending is pending. -/
theorem Ordered.eq_of_id {r r' : OverrideRow ι τ} (hi : Ordered table call)
    (hr : r ∈ table.rows) (hr' : r' ∈ table.rows) (hid : r.id = r'.id) : r = r' := by
  have hafter : ∀ x ∈ table, ∀ r, x.committed = some r → ∃ r', x.after = some r' ∧ r'.id = r.id := by
    intro x hx r hr
    cases hi.shape x hx with
    | settled => cases hr; exact ⟨_, rfl, rfl⟩
    | closing => cases hr; exact ⟨_, rfl, rfl⟩
    | placing => cases hr
  obtain ⟨x, hx, hr⟩ := Heap.mem_rows.mp hr
  obtain ⟨x', hx', hr'⟩ := Heap.mem_rows.mp hr'
  obtain ⟨y, hy, hyid⟩ := hafter x hx r hr
  obtain ⟨y', hy', hyid'⟩ := hafter x' hx' r' hr'
  have := eq_of_rowId hi.ids hx hx' hy hy' (by rw [hyid, hyid', hid])
  subst this
  rw [hr] at hr'
  exact Option.some.inj hr'

omit [DecidableEq ι] in
/-- No row is there twice. -/
theorem Ordered.nodup_rows (hi : Ordered table call) : table.rows.Nodup := by
  have hids : (table.rows.map OverrideRow.id).Sublist (rowIds table) := by
    have hsub : ∀ l : Heap ι (OverrideRow ι τ), (∀ x ∈ l, Shape call x) →
        (l.rows.map OverrideRow.id).Sublist (rowIds l) := by
      intro l
      induction l with
      | nil => exact fun _ => List.Sublist.refl _
      | cons x l ih =>
          intro hshape
          have ih := ih fun y hy => hshape y (List.mem_cons_of_mem _ hy)
          cases hshape x List.mem_cons_self with
          | settled r => exact ih.cons_cons _
          | closing => exact ih.cons_cons _
          | placing => exact ih.cons _
    exact hsub table hi.shape
  exact (hi.ids.sublist hids).of_map _

omit [DecidableEq ι] in
/-- A step that commits nothing and places nothing leaves the account as it was. -/
theorem Accounted.keep {db : Overrides ι τ} (ha : Accounted db table call)
    (hrows : table'.rows = table.rows)
    (hplaced : ∀ id row displaced, call' id = .placed row displaced ↔
      call id = .placed row displaced) : Accounted db table' call' := by
  have hheld : ∀ id, Held db call' id ↔ Held db call id := by
    intro id
    simp only [Held, hplaced]
  refine ⟨?_, ?_, ?_, ?_, ?_, ?_⟩
  · rw [hrows]; exact ha.at_most
  · intro id row displaced h
    rw [hrows]
    exact ha.at_least id row displaced ((hplaced ..).mp h)
  · intro id row displaced h
    rw [hrows]
    exact ha.own id row displaced ((hplaced ..).mp h)
  · intro r hr ho hh
    rw [hrows] at hr
    obtain ⟨id, row, displaced, hc, hmem⟩ := ha.named r hr ho ((hheld _).mp hh)
    exact ⟨id, row, displaced, (hplaced ..).mpr hc, hmem⟩
  · intro id row displaced h
    rw [hrows]
    exact ha.gone id row displaced ((hplaced ..).mp h)
  · intro id id' row row' displaced displaced' h h'
    exact ha.single id id' row row' displaced displaced' ((hplaced ..).mp h) ((hplaced ..).mp h')

/-! ### The rows of a commit -/

section Commit
variable {row r r' : OverrideRow ι τ} {displaced : List (ReleasedOverride ι τ)}

/-- A row that was not open stays as it was. -/
theorem Ordered.mem_commit_of_closed (hi : Ordered table call)
    (hc : call id = .inserted row displaced) (hr : r ∈ table.rows) (hno : r.isOpen = false) :
    r ∈ (table.commit id).rows := by
  refine (hi.mem_rows_commit hc).mpr (.inr ⟨r, hr, ?_⟩)
  rw [if_neg]
  intro hp
  rw [(onTarget_iff.mp hp).1] at hno
  cases hno

/-- What the call displaced was open, and is superseded. -/
theorem Ordered.supersede_of_displaced (hi : Ordered table call)
    (hc : call id = .inserted row displaced) {x : ReleasedOverride ι τ} (hx : x ∈ displaced) :
    ∃ r ∈ table.rows, r.isOpen = true ∧ x = r.released ∧
      r.supersede ∈ (table.commit id).rows := by
  have hknows := hi.knows id
  rw [hc] at hknows
  obtain ⟨r, hr, rfl⟩ := hknows.displaced x hx
  have hr' : r ∈ table.rows := Heap.mem_rows.mpr ⟨_, hr, rfl⟩
  cases hi.shape _ hr with
  | closing hc' hp _ =>
      rw [hc] at hc'
      cases hc'
      refine ⟨r, hr', (onTarget_iff.mp hp).1, rfl, ?_⟩
      exact (hi.mem_rows_commit hc).mpr (.inr ⟨r, hr', by rw [if_pos hp]⟩)

omit [DecidableEq ι] in
/-- What was open on its target, the call displaced. -/
theorem Ordered.displaced_of_onTarget (hi : Ordered table call)
    (hc : call id = .inserted row displaced) (hr : r ∈ table.rows)
    (hp : onTarget row.target r = true) : r.released ∈ displaced := by
  have hknows := hi.knows id
  rw [hc] at hknows
  obtain ⟨x, hx, hr⟩ := Heap.mem_rows.mp hr
  have hpend := hknows.closed x hx r hr hp
  cases hi.shape x hx with
  | settled => cases hpend
  | placing => cases hr
  | closing hc' hp' hd =>
      cases hr
      cases hpend
      rw [hc] at hc'
      cases hc'
      exact hd

/-- A row other than the call's own was there, and is open only on another target. -/
theorem Ordered.of_mem_commit (hi : Ordered table call) (hc : call id = .inserted row displaced)
    (hr' : r' ∈ (table.commit id).rows) (hne : r' ≠ row) : ∃ r ∈ table.rows, r.id = r'.id ∧
      (r'.isOpen = true → r' = r ∧ r.target ≠ row.target) := by
  obtain rfl | ⟨r, hr, rfl⟩ := (hi.mem_rows_commit hc).mp hr'
  · exact absurd rfl hne
  · refine ⟨r, hr, ?_, ?_⟩
    · split <;> rfl
    · intro ho'
      split at ho'
      · cases ho'
      · next hp =>
          rw [if_neg hp]
          exact ⟨rfl, fun ht => hp (onTarget_iff.mpr ⟨ho', ht⟩)⟩

/-- At most one row is open on a target. -/
theorem Ordered.at_most_commit (hi : Ordered table call) (hc : call id = .inserted row displaced)
    (hmost : ∀ r ∈ table.rows, ∀ r' ∈ table.rows, r.isOpen = true → r'.isOpen = true →
      r.target = r'.target → r = r')
    (hr : r ∈ (table.commit id).rows) (hr' : r' ∈ (table.commit id).rows) (ho : r.isOpen = true)
    (ho' : r'.isOpen = true) (ht : r.target = r'.target) : r = r' := by
  by_cases h₁ : r = row
  · by_cases h₂ : r' = row
    · rw [h₁, h₂]
    · obtain ⟨_, _, _, hne⟩ := hi.of_mem_commit hc hr' h₂
      rw [← (hne ho').1, ← ht, h₁] at hne
      exact absurd rfl (hne ho').2
  · obtain ⟨x, hx, -, hxo⟩ := hi.of_mem_commit hc hr h₁
    obtain ⟨rfl, hne⟩ := hxo ho
    by_cases h₂ : r' = row
    · exact absurd (by rw [ht, h₂]) hne
    · obtain ⟨x', hx', -, hxo'⟩ := hi.of_mem_commit hc hr' h₂
      obtain ⟨rfl, -⟩ := hxo' ho'
      exact hmost _ hx _ hx' ho ho' ht

end Commit

/-! ### The calls after a commit -/

section Committed
variable {db : Overrides ι τ} {row row' : OverrideRow ι τ} {id' : ι}
  {displaced displaced' : List (ReleasedOverride ι τ)}

omit [DecidableEq τ] in
/-- A call that is placed after a commit is this one, or was placed before. -/
theorem placed_commit
    (h : Function.update call id (.placed row displaced) id' = .placed row' displaced') :
    id' = id ∧ row' = row ∧ displaced' = displaced ∨
      id' ≠ id ∧ call id' = .placed row' displaced' := by
  by_cases he : id' = id
  · rw [he, Function.update_self] at h
    cases h
    exact .inl ⟨he, rfl, rfl⟩
  · rw [Function.update_of_ne he] at h
    exact .inr ⟨he, h⟩

/-- A call that was placed before still has an open row on its target. -/
theorem Accounted.at_least_commit (ha : Accounted db table call) (hi : Ordered table call)
    (hc : call id = .inserted row displaced) (ho : row.isOpen = true)
    (h : call id' = .placed row' displaced') :
    ∃ r ∈ (table.commit id).rows, onTarget row'.target r = true := by
  obtain ⟨r, hr, hp⟩ := ha.at_least _ _ _ h
  by_cases ht : row'.target = row.target
  · exact ⟨row, (hi.mem_rows_commit hc).mpr (.inl rfl), onTarget_iff.mpr ⟨ho, ht.symm⟩⟩
  · refine ⟨r, (hi.mem_rows_commit hc).mpr (.inr ⟨r, hr, ?_⟩), hp⟩
    rw [if_neg]
    exact fun hp' => ht ((onTarget_iff.mp hp).2.symm.trans (onTarget_iff.mp hp').2)

/-- Its row is there, and may now be superseded. -/
theorem Accounted.own_commit (ha : Accounted db table call) (hi : Ordered table call)
    (hc : call id = .inserted row displaced) (h : call id' = .placed row' displaced') :
    row'.id = id' ∧ ∃ r ∈ (table.commit id).rows, r = row' ∨ r = row'.supersede := by
  obtain ⟨hid, r, hr, he⟩ := ha.own _ _ _ h
  refine ⟨hid, _, (hi.mem_rows_commit hc).mpr (.inr ⟨r, hr, rfl⟩), ?_⟩
  rcases he with rfl | rfl
  · split
    · exact .inr rfl
    · exact .inl rfl
  · have hno : ¬ onTarget row.target row'.supersede = true := fun hp =>
      Bool.false_ne_true (onTarget_iff.mp hp).1
    rw [if_neg hno]
    exact .inr rfl

/-- A hold that has ended is named: by this call if it was open, and else by the one that named it
before. -/
theorem Accounted.named_commit {r' : OverrideRow ι τ} (ha : Accounted db table call)
    (hi : Ordered table call) (hc : call id = .inserted row displaced)
    (hr' : r' ∈ (table.commit id).rows) (hno : r'.isOpen = false)
    (hheld : Held db (Function.update call id (.placed row displaced)) r'.id) :
    ∃ id' row' displaced', Function.update call id (.placed row displaced) id' =
      .placed row' displaced' ∧ r'.released ∈ displaced' := by
  have hknows := hi.knows id
  rw [hc] at hknows
  obtain ⟨hid, ho⟩ := hknows.own
  obtain rfl | ⟨r, hr, rfl⟩ := (hi.mem_rows_commit hc).mp hr'
  · rw [ho] at hno
    cases hno
  by_cases hp : onTarget row.target r = true
  · rw [if_pos hp]
    have hreleased : r.released ∈ displaced := hi.displaced_of_onTarget hc hr hp
    exact ⟨id, row, displaced, Function.update_self .., hreleased⟩
  · rw [if_neg hp] at hno hheld hr' ⊢
    have hheld' : Held db call r.id := by
      rcases hheld with ⟨row', displaced', h⟩ | h
      · rcases placed_commit h with ⟨he, -, -⟩ | ⟨-, h⟩
        · -- the row of this call is open
          have hrow : row ∈ (table.commit id).rows := (hi.mem_rows_commit hc).mpr (.inl rfl)
          have := (hi.commit hc).eq_of_id hr' hrow (he.trans hid.symm)
          rw [this, ho] at hno
          cases hno
        · exact .inl ⟨_, _, h⟩
      · exact .inr h
    obtain ⟨id', row', displaced', h, hmem⟩ := ha.named r hr hno hheld'
    refine ⟨id', row', displaced', ?_, hmem⟩
    rw [Function.update_of_ne]
    · exact h
    · rintro rfl
      rw [hc] at h
      cases h

/-- What this call displaced was open, and what another had displaced was not. -/
theorem Accounted.disjoint_commit (ha : Accounted db table call) (hi : Ordered table call)
    (hc : call id = .inserted row displaced) (h : call id' = .placed row' displaced')
    {x x' : ReleasedOverride ι τ} (hx : x ∈ displaced) (hx' : x' ∈ displaced') : x.id ≠ x'.id := by
  intro he
  obtain ⟨r, hr, hro, rfl, -⟩ := hi.supersede_of_displaced hc hx
  obtain ⟨r', hr', he', hno⟩ := (ha.gone _ _ _ h).2 x' hx'
  have heq := hi.eq_of_id hr hr' (he.trans he'.symm)
  rw [heq, hno] at hro
  cases hro

/-- A commit names what it displaced. -/
theorem Accounted.commit (ha : Accounted db table call) (hi : Ordered table call)
    (hc : call id = .inserted row displaced) :
    Accounted db (table.commit id) (Function.update call id (.placed row displaced)) := by
  have hknows := hi.knows id
  rw [hc] at hknows
  obtain ⟨hid, ho⟩ := hknows.own
  have hrow : row ∈ (table.commit id).rows := (hi.mem_rows_commit hc).mpr (.inl rfl)
  refine ⟨fun r hr r' hr' => hi.at_most_commit hc ha.at_most hr hr', ?_, ?_,
    fun r' hr' => ha.named_commit hi hc hr', ?_, ?_⟩
  · intro id' row' displaced' h
    rcases placed_commit h with ⟨-, rfl, -⟩ | ⟨-, h⟩
    · exact ⟨_, hrow, onTarget_iff.mpr ⟨ho, rfl⟩⟩
    · exact ha.at_least_commit hi hc ho h
  · intro id' row' displaced' h
    rcases placed_commit h with ⟨rfl, rfl, -⟩ | ⟨-, h⟩
    · exact ⟨hid, _, hrow, .inl rfl⟩
    · exact ha.own_commit hi hc h
  · intro id' row' displaced' h
    rcases placed_commit h with ⟨-, -, rfl⟩ | ⟨-, h⟩
    · refine ⟨hknows.once, fun x hx => ?_⟩
      obtain ⟨r, hr, -, rfl, hr'⟩ := hi.supersede_of_displaced hc hx
      exact ⟨r.supersede, hr', rfl, rfl⟩
    · obtain ⟨honce, hx⟩ := ha.gone _ _ _ h
      refine ⟨honce, fun x hmem => ?_⟩
      obtain ⟨r, hr, he, hno⟩ := hx x hmem
      exact ⟨r, hi.mem_commit_of_closed hc hr hno, he, hno⟩
  · intro id₁ id₂ row₁ row₂ displaced₁ displaced₂ h₁ h₂ x hx x' hx' he
    rcases placed_commit h₁ with ⟨rfl, -, rfl⟩ | ⟨-, hc₁⟩
    · rcases placed_commit h₂ with ⟨rfl, -, -⟩ | ⟨-, hc₂⟩
      · rfl
      · exact absurd he (ha.disjoint_commit hi hc hc₂ hx hx')
    · rcases placed_commit h₂ with ⟨rfl, -, rfl⟩ | ⟨-, hc₂⟩
      · exact absurd he.symm (ha.disjoint_commit hi hc hc₁ hx' hx)
      · exact ha.single _ _ _ _ _ _ hc₁ hc₂ x hx x' hx' he

end Committed

/-- **Step.**  Calls that do not overlap account for what they displace. -/
theorem accounted_step {db : Overrides ι τ} (hi : Ordered s.table s.call)
    (ha : Accounted db s.table s.call) (h : (placing ι τ).step s a = some s') :
    Accounted db s'.table s'.call := by
  -- a call that is not placed yet, and is not placed by the step
  have hplaced : ∀ {id : ι} {phase : Phase ι τ}, (∀ row displaced, phase ≠ .placed row displaced) →
      (∀ row displaced, s.call id ≠ .placed row displaced) → ∀ id' row displaced,
        Function.update s.call id phase id' = .placed row displaced ↔
          s.call id' = .placed row displaced := by
    intro id phase hne hwas id' row displaced
    by_cases he : id' = id
    · rw [he, Function.update_self]
      exact ⟨fun h => absurd h (hne _ _), fun h => absurd h (hwas _ _)⟩
    · rw [Function.update_of_ne he]
  cases placing_moves h with
  | begin hc hid ho hnew => exact ha.keep rfl (hplaced nofun (by rw [hc]; nofun))
  | @hit id row r i rest displaced c hc hget hfree hr hp =>
      refine ha.keep ?_ (hplaced nofun (by rw [hc]; nofun))
      exact Heap.rows_write hget
  | skip hc hget hfree hp => exact ha.keep rfl (hplaced nofun (by rw [hc]; nofun))
  | insert hc =>
      refine ha.keep ?_ (hplaced nofun (by rw [hc]; nofun))
      rw [Heap.rows, List.filterMap_append]
      exact List.append_nil _
  | refused hc hmem hfree hr hclash => exact (hi.not_refused hc hmem hfree hr hclash).elim
  | commit hc => exact ha.commit hi hc

/-- The next statement of a call that is under way is not made to wait. -/
theorem Ordered.not_waiting {row : OverrideRow ι τ} {displaced : List (ReleasedOverride ι τ)}
    (hi : Ordered s.table s.call) (hbusy : (s.call id).busy = some (row, displaced)) :
    ∃ a ∈ [PlacingAction.touch id, .insert id, .commit id],
      ((placing ι τ).step s a).isSome = true := by
  have hknows := hi.knows id
  have hother : ∀ {id' row' displaced'}, (s.call id').busy = some (row', displaced') →
      row'.target = row.target → id' = id := fun h he => hi.alone _ _ _ _ _ _ h hbusy he
  cases hphase : s.call id with
  | idle => rw [hphase] at hbusy; cases hbusy
  | placed => rw [hphase] at hbusy; cases hbusy
  | failed => rw [hphase] at hbusy; cases hbusy
  | inserted row' displaced' =>
      refine ⟨.commit id, by simp, ?_⟩
      change (s.step (.commit id)).isSome = true
      rw [Placing.step, hphase]
      rfl
  | updating row' rest displaced' =>
      rw [hphase] at hbusy hknows
      cases hbusy
      cases rest with
      | cons i rest =>
          refine ⟨.touch id, by simp, ?_⟩
          obtain ⟨c, r, hget, hr, ht⟩ := hknows.rest i List.mem_cons_self
          have hfree : c.free id = true := by
            cases hi.shape c (List.mem_of_getElem? hget) with
            | settled => rfl
            | placing => cases hr
            | closing hc hp _ =>
                cases hr
                exact decide_eq_true (hother hc ((onTarget_iff.mp hp).2.symm.trans ht))
          change (s.step (.touch id)).isSome = true
          simp only [Placing.step, hphase, Option.isSome_map]
          exact Heap.touch_isSome hget hfree
      | nil =>
          refine ⟨.insert id, by simp, ?_⟩
          change (s.step (.insert id)).isSome = true
          simp only [Placing.step, hphase, Option.isSome_map]
          refine Heap.insert_isSome fun c hmem hheld r hr => ?_
          have hid : row.id ≠ r.id ∧ (r.isOpen = true → row.target ≠ r.target) := by
            cases hi.shape c hmem with
            | settled => cases hheld
            | @closing id' row' r' _ hc hp _ =>
                have hne : row'.target ≠ row.target := fun he =>
                  of_decide_eq_false hheld (hother hc he)
                have hfresh : row.id ≠ r'.id := fun he => hknows.fresh
                  (hknows.own.1 ▸ he ▸ mem_rowIds.mpr ⟨_, hmem, r'.supersede, rfl, rfl⟩)
                rcases hr with hr | hr
                · cases hr
                  exact ⟨hfresh, fun _ he => hne ((onTarget_iff.mp hp).2.symm.trans he.symm)⟩
                · cases hr
                  exact ⟨hfresh, by rintro ⟨⟩⟩
            | @placing id' row' displaced' hc =>
                have hbusy' : (s.call id').busy = some (row', displaced') := by rw [hc]; rfl
                have hfresh : row.id ≠ row'.id := fun he => hknows.fresh
                  (hknows.own.1 ▸ he ▸ mem_rowIds.mpr ⟨_, hmem, row', rfl, rfl⟩)
                rcases hr with hr | hr
                · cases hr
                · cases hr
                  exact ⟨hfresh, fun _ he => of_decide_eq_false hheld (hother hbusy' he.symm)⟩
          rw [clash, decide_eq_false hid.1, Bool.false_or, hknows.own.2, Bool.true_and]
          cases ho : r.isOpen with
          | false => rfl
          | true => rw [decide_eq_false (hid.2 ho)]; rfl

/-! ### Placed -/

/-- Every call of `create` is placed, and accounts for what it displaced. -/
structure AllPlaced (db : Overrides ι τ) (s : Placing ι τ) : Prop where
  /-- No call raises. -/
  none_fails : ∀ id, s.call id ≠ .failed
  /-- None that is under way waits for another. -/
  none_waits : ∀ id, (s.call id).busy ≠ none →
    ∃ a ∈ [PlacingAction.touch id, .insert id, .commit id], ((placing ι τ).step s a).isSome = true
  /-- The row of a call that was placed is there, as it was placed or superseded since. -/
  there : ∀ id row displaced, s.call id = .placed row displaced → row.id = id ∧
    ∃ r ∈ s.table.rows, r = row ∨ r = row.supersede
  /-- Where a hold was placed, exactly one row is unreleased. -/
  one_open : ∀ id row displaced, s.call id = .placed row displaced →
    (s.table.rows.filter (onTarget row.target)).length = 1
  /-- Every hold that has ended is named once, by one call. -/
  named_once : ∀ r ∈ s.table.rows, r.isOpen = false → Held db s.call r.id →
    ∃ id row displaced, s.call id = .placed row displaced ∧
      (displaced.map ReleasedOverride.id).count r.id = 1 ∧
      ∀ id' row' displaced', s.call id' = .placed row' displaced' →
        r.id ∈ displaced'.map ReleasedOverride.id → id' = id

omit [DecidableEq ι] in
/-- At the start nobody is under way. -/
theorem ordered_start {db : Overrides ι τ} :
    Ordered (Placing.start db).table (Placing.start db).call where
  alone := fun _ _ _ _ _ _ hbusy => absurd hbusy (Option.some_ne_none _).symm
  shape := by
    intro c hc
    obtain ⟨r, -, rfl⟩ := List.mem_map.mp hc
    exact .settled r
  ids := by
    rw [rowIds, Placing.start, Heap.after_ofRows]
    exact db.unique
  knows := fun _ => trivial

omit [DecidableEq ι] in
/-- At the start nothing has been displaced. -/
theorem accounted_start {db : Overrides ι τ} :
    Accounted db (Placing.start db).table (Placing.start db).call := by
  have hrows : (Placing.start db).table.rows = db.rows := Heap.rows_ofRows
  have hnone : ∀ {id : ι} {row : OverrideRow ι τ} {displaced : List (ReleasedOverride ι τ)},
      (Placing.start db).call id ≠ .placed row displaced := by
    intro id row displaced h
    have h : Phase.idle = .placed row displaced := h
    cases h
  refine ⟨?_, fun _ _ _ hc => absurd hc hnone, fun _ _ _ hc => absurd hc hnone, ?_,
    fun _ _ _ hc => absurd hc hnone, fun _ _ _ _ _ _ hc => absurd hc hnone⟩
  · rw [hrows]
    intro r hr r' hr' ho ho' ht
    exact List.inj_on_of_nodup_map db.one_open (List.mem_filter.mpr ⟨hr, ho⟩)
      (List.mem_filter.mpr ⟨hr', ho'⟩) ht
  · rw [hrows]
    rintro r hr hno (⟨_, _, h⟩ | ⟨r', hr', he, ho⟩)
    · cases h
    · rw [List.inj_on_of_nodup_map db.unique hr' hr he, hno] at ho
      cases ho

/-- **Step.**  No call that does not overlap another fails. -/
theorem not_failed_step (hi : Ordered s.table s.call) (hf : ∀ id, s.call id ≠ .failed)
    (h : (placing ι τ).step s a = some s') (id : ι) : s'.call id ≠ .failed := by
  have hupdate : ∀ {id' : ι} {phase : Phase ι τ}, phase ≠ .failed →
      Function.update s.call id' phase id ≠ .failed := by
    intro id' phase hne
    by_cases he : id = id'
    · rw [he, Function.update_self]
      exact hne
    · rw [Function.update_of_ne he]
      exact hf id
  cases placing_moves h with
  | begin => exact hupdate nofun
  | hit => exact hupdate nofun
  | skip => exact hupdate nofun
  | insert => exact hupdate nofun
  | refused hc hmem hfree hr hclash => exact (hi.not_refused hc hmem hfree hr hclash).elim
  | commit => exact hupdate nofun

omit [DecidableEq ι] in
/-- Where there is an open row on a target, there is no other. -/
theorem Accounted.only_open {db : Overrides ι τ} {target : τ} {r : OverrideRow ι τ}
    (ha : Accounted db table call) (hnodup : table.rows.Nodup) (hr : r ∈ table.rows)
    (hp : onTarget target r = true) : table.rows.filter (onTarget target) = [r] := by
  have honly : ∀ r' ∈ table.rows.filter (onTarget target), r' = r := by
    intro r' hr'
    obtain ⟨hr', hp'⟩ := List.mem_filter.mp hr'
    obtain ⟨ho, ht⟩ := onTarget_iff.mp hp
    obtain ⟨ho', ht'⟩ := onTarget_iff.mp hp'
    exact ha.at_most r' hr' r hr ho' ho (ht'.trans ht.symm)
  have hperm : (table.rows.filter (onTarget target)).Perm [r] := by
    refine (List.perm_ext_iff_of_nodup (hnodup.filter _) (List.nodup_singleton r)).mpr fun r' => ?_
    rw [List.mem_singleton]
    exact ⟨honly r', fun he => he ▸ List.mem_filter.mpr ⟨hr, hp⟩⟩
  exact List.perm_singleton.mp hperm

instance [Fintype ι] (s : Placing ι τ) (a : PlacingAction ι τ) : Decidable (Apart s a) := by
  unfold Apart
  split <;> infer_instance

/-- One target, with a hold on it. -/
def heldTarget : Overrides (Fin 3) ℕ where
  rows := [⟨0, 0, 1 / 2, 60, .ramp, none⟩]
  unique := by decide
  one_open := by decide

/-- A second hold, and then a third. -/
def oneAfterAnother : List (PlacingAction (Fin 3) ℕ) :=
  [.begin 1 0 1 90 .snap, .touch 1, .insert 1, .commit 1,
    .begin 2 0 0 120 .ramp, .touch 2, .insert 2, .commit 2]

/-- Two holds at once: the second is looking at the first one's row when it is superseded. -/
def atOnce : List (PlacingAction (Fin 3) ℕ) :=
  [.begin 1 0 1 90 .snap, .begin 2 0 0 90 .ramp, .touch 1, .insert 1, .commit 1, .touch 2, .insert 2]

end BellasReef.Db
