import BellasReef.Db.Overrides
import BellasReef.Support.Machine
import BellasReef.Support.ReadCommitted

/-!
# Db — Placing

Concurrent calls of `OverrideStore.create` (`overrides.py`), statement by statement, under READ
COMMITTED: an `UPDATE` that supersedes what is open on the target, an `INSERT` that the partial
unique index may refuse, a commit.

The `UPDATE` finds its rows when it begins.  A row that another call commits after that is none of
them, and the `INSERT` then runs into it.  Calls of one target that do not overlap stay `Ordered`:
each knows what is open on its target, and what its commit will leave behind
(`Ordered.mem_rows_commit`).
-/

namespace BellasReef.Db
open BellasReef.Support

variable {ι τ : Type}

/-- A hold that a call displaced. -/
structure ReleasedOverride (ι τ : Type) where
  id : ι
  target : τ
  deriving DecidableEq

/-- `RETURNING id, target`. -/
def OverrideRow.released (r : OverrideRow ι τ) : ReleasedOverride ι τ := ⟨r.id, r.target⟩

/-- `SET released_at = :now, release_reason = 'superseded'`. -/
def OverrideRow.supersede (r : OverrideRow ι τ) : OverrideRow ι τ :=
  { r with releaseReason := some .superseded }

/-- Where a call of `create` is, with its row and what it has displaced. -/
inductive Phase (ι τ : Type) where
  | idle
  /-- In the `UPDATE`, with the rows it has still to turn to. -/
  | updating (row : OverrideRow ι τ) (rest : List ℕ) (displaced : List (ReleasedOverride ι τ))
  /-- The `INSERT` is done. -/
  | inserted (row : OverrideRow ι τ) (displaced : List (ReleasedOverride ι τ))
  /-- The call has returned. -/
  | placed (row : OverrideRow ι τ) (displaced : List (ReleasedOverride ι τ))
  /-- The call has raised `IntegrityError`. -/
  | failed

/-- The transaction of a call that is under way. -/
def Phase.busy : Phase ι τ → Option (OverrideRow ι τ × List (ReleasedOverride ι τ))
  | .updating row _ displaced | .inserted row displaced => some (row, displaced)
  | _ => none

/-- The table, and the calls by the id that each gives its row. -/
structure Placing (ι τ : Type) where
  table : Heap ι (OverrideRow ι τ)
  call : ι → Phase ι τ

/-- The next statement of a call. -/
inductive PlacingAction (ι τ : Type) where
  /-- A call that has passed its checks begins its `UPDATE`. -/
  | begin (id : ι) (target : τ) (duty expiresAt : ℚ) (transition : Transition)
  /-- The `UPDATE` turns to its next row. -/
  | touch (id : ι)
  /-- The `INSERT`. -/
  | insert (id : ι)
  | commit (id : ι)

variable [DecidableEq ι] [DecidableEq τ]

/-- `WHERE target = :target AND released_at IS NULL`. -/
def onTarget (target : τ) (r : OverrideRow ι τ) : Bool := r.isOpen && decide (r.target = target)

/-- Two rows that the primary key or the partial unique index keeps apart. -/
def clash (r r' : OverrideRow ι τ) : Bool :=
  decide (r.id = r'.id) || r.isOpen && r'.isOpen && decide (r.target = r'.target)

/-- One statement; a row that another call has locked makes it wait. -/
def Placing.step (s : Placing ι τ) : PlacingAction ι τ → Option (Placing ι τ)
  | .begin id target duty expiresAt transition =>
      match s.call id with
      | .idle =>
          -- `uuid4` gives no id twice
          if id ∈ s.table.rows.map OverrideRow.id then none
          else
            let row : OverrideRow ι τ := ⟨id, target, duty, expiresAt, transition, none⟩
            some { s with
              call := Function.update s.call id
                (.updating row (s.table.scan id (onTarget target)) []) }
      | _ => none
  | .touch id =>
      match s.call id with
      | .updating row (i :: rest) displaced =>
          (s.table.touch id (onTarget row.target) (fun r => some r.supersede) i).map
            fun (table, hit) =>
              { table := table
                call := Function.update s.call id
                  (.updating row rest (displaced ++ (hit.map OverrideRow.released).toList)) }
      | _ => none
  | .insert id =>
      match s.call id with
      | .updating row [] displaced =>
          (s.table.insert id clash row).map fun
            | .ok table =>
                { table := table
                  call := Function.update s.call id (.inserted row displaced) }
            | .error _ =>
                { table := s.table.abort id
                  call := Function.update s.call id .failed }
      | _ => none
  | .commit id =>
      match s.call id with
      | .inserted row displaced =>
          some {
            table := s.table.commit id
            call := Function.update s.call id (.placed row displaced) }
      | _ => none

/-- The table and the calls. -/
def placing (ι τ : Type) [DecidableEq ι] [DecidableEq τ] :
    Machine (Placing ι τ) (PlacingAction ι τ) where
  step := fun s a => s.step a

omit [DecidableEq ι] [DecidableEq τ] in
/-- No call has begun. -/
def Placing.start (db : Overrides ι τ) : Placing ι τ := ⟨Heap.ofRows db.rows, fun _ => .idle⟩

/-- A call begins only while no other is under way on its target. -/
def Apart (s : Placing ι τ) : PlacingAction ι τ → Prop
  | .begin _ target _ _ _ => ∀ id, ∀ x ∈ (s.call id).busy, x.1.target ≠ target
  | _ => True

/-! ### What a step can do -/

/-- Every step, with what it changes. -/
inductive PlacingMoves (s : Placing ι τ) : PlacingAction ι τ → Placing ι τ → Prop where
  | begin {id : ι} {row : OverrideRow ι τ} (hc : s.call id = .idle) (hid : row.id = id)
      (ho : row.isOpen = true) (hnew : id ∉ s.table.rows.map OverrideRow.id) :
      PlacingMoves s (.begin id row.target row.duty row.expiresAt row.transition)
        { s with
          call := Function.update s.call id
            (.updating row (s.table.scan id (onTarget row.target)) []) }
  | hit {id : ι} {row r : OverrideRow ι τ} {i : ℕ} {rest : List ℕ}
      {displaced : List (ReleasedOverride ι τ)} {c : Cell ι (OverrideRow ι τ)}
      (hc : s.call id = .updating row (i :: rest) displaced) (hi : s.table[i]? = some c)
      (hfree : c.free id = true) (hr : c.after = some r) (hp : onTarget row.target r = true) :
      PlacingMoves s (.touch id)
        { table := s.table.set i (c.write id (some r.supersede))
          call := Function.update s.call id (.updating row rest (displaced ++ [r.released])) }
  | skip {id : ι} {row : OverrideRow ι τ} {i : ℕ} {rest : List ℕ}
      {displaced : List (ReleasedOverride ι τ)} {c : Cell ι (OverrideRow ι τ)}
      (hc : s.call id = .updating row (i :: rest) displaced) (hi : s.table[i]? = some c)
      (hfree : c.free id = true) (hp : ∀ r, c.after = some r → onTarget row.target r = false) :
      PlacingMoves s (.touch id)
        { s with call := Function.update s.call id (.updating row rest displaced) }
  | insert {id : ι} {row : OverrideRow ι τ} {displaced : List (ReleasedOverride ι τ)}
      (hc : s.call id = .updating row [] displaced) :
      PlacingMoves s (.insert id)
        { table := s.table ++ [⟨none, some (id, some row)⟩]
          call := Function.update s.call id (.inserted row displaced) }
  | refused {id : ι} {row r : OverrideRow ι τ} {displaced : List (ReleasedOverride ι τ)}
      {c : Cell ι (OverrideRow ι τ)} (hc : s.call id = .updating row [] displaced)
      (hmem : c ∈ s.table) (hfree : c.free id = true) (hr : c.after = some r)
      (hclash : clash row r = true) :
      PlacingMoves s (.insert id)
        { table := s.table.abort id, call := Function.update s.call id .failed }
  | commit {id : ι} {row : OverrideRow ι τ} {displaced : List (ReleasedOverride ι τ)}
      (hc : s.call id = .inserted row displaced) :
      PlacingMoves s (.commit id)
        { table := s.table.commit id, call := Function.update s.call id (.placed row displaced) }

variable {s s' : Placing ι τ} {a : PlacingAction ι τ}

/-- **Inversion.**  A step is one of `PlacingMoves`. -/
theorem placing_moves (h : (placing ι τ).step s a = some s') : PlacingMoves s a s' := by
  change s.step a = some s' at h
  cases a with
  | begin id target duty expiresAt transition =>
      simp only [Placing.step] at h
      split at h
      · next hc =>
          split at h
          · cases h
          · next hnew =>
              cases h
              set row : OverrideRow ι τ := ⟨id, target, duty, expiresAt, transition, none⟩
              exact .begin hc (rfl : row.id = id) rfl hnew
      · cases h
  | touch id =>
      simp only [Placing.step] at h
      split at h
      · next hc =>
          obtain ⟨⟨table, hit⟩, ht, he⟩ := Option.map_eq_some_iff.mp h
          obtain ⟨c, hi, hfree, ⟨r, hr, hp, rfl, rfl⟩ | ⟨hp, rfl, rfl⟩⟩ := Heap.touch_eq_some ht
          · cases he
            exact .hit hc hi hfree hr hp
          · simp only [Option.map_none, Option.toList_none, List.append_nil] at he
            cases he
            exact .skip hc hi hfree hp
      · cases h
  | insert id =>
      simp only [Placing.step] at h
      split at h
      · next hc =>
          obtain ⟨answer, hi, he⟩ := Option.map_eq_some_iff.mp h
          cases answer with
          | ok table =>
              rw [Heap.insert_eq_ok hi] at he
              cases he
              exact .insert hc
          | error e =>
              obtain ⟨c, hmem, hfree, r, hr, hclash⟩ := Heap.insert_eq_error hi
              cases he
              exact .refused hc hmem hfree hr hclash
      · cases h
  | commit id =>
      simp only [Placing.step] at h
      split at h
      · next hc => cases h; exact .commit hc
      · cases h

/-! ### Calls that do not overlap -/

/-- What a row can be, while no two calls overlap. -/
inductive Shape (call : ι → Phase ι τ) : Cell ι (OverrideRow ι τ) → Prop where
  | settled (r : OverrideRow ι τ) : Shape call ⟨some r, none⟩
  | closing {id : ι} {row r : OverrideRow ι τ} {displaced : List (ReleasedOverride ι τ)}
      (hc : (call id).busy = some (row, displaced)) (hr : onTarget row.target r = true)
      (hd : r.released ∈ displaced) : Shape call ⟨some r, some (id, some r.supersede)⟩
  | placing {id : ι} {row : OverrideRow ι τ} {displaced : List (ReleasedOverride ι τ)}
      (hc : call id = .inserted row displaced) : Shape call ⟨none, some (id, some row)⟩

/-- The ids of the rows. -/
def rowIds (h : Heap ι (OverrideRow ι τ)) : List ι := h.after.map OverrideRow.id

/-- Row `i` is committed, and is of the target. -/
def RowOn (table : Heap ι (OverrideRow ι τ)) (target : τ) (i : ℕ) : Prop :=
  ∃ c r, table[i]? = some c ∧ c.committed = some r ∧ r.target = target

/-- What a call in its `UPDATE` knows of the table. -/
structure Updating (table : Heap ι (OverrideRow ι τ)) (id : ι) (row : OverrideRow ι τ)
    (rest : List ℕ) (displaced : List (ReleasedOverride ι τ)) : Prop where
  own : row.id = id ∧ row.isOpen = true
  fresh : id ∉ rowIds table
  /-- A row that is open on the target was found, and is closed or still to turn to. -/
  found : ∀ i c r, table[i]? = some c → c.committed = some r → onTarget row.target r = true →
    i ∈ rest ∨ c.pending = some (id, some r.supersede)
  rest : ∀ i ∈ rest, RowOn table row.target i
  once : (displaced.map ReleasedOverride.id).Nodup
  displaced : ∀ x ∈ displaced, ∃ r,
    (⟨some r, some (id, some r.supersede)⟩ : Cell ι (OverrideRow ι τ)) ∈ table ∧ x = r.released

/-- What a call knows of the table once its row is there. -/
structure Inserted (table : Heap ι (OverrideRow ι τ)) (id : ι) (row : OverrideRow ι τ)
    (displaced : List (ReleasedOverride ι τ)) : Prop where
  own : row.id = id ∧ row.isOpen = true
  there : (⟨none, some (id, some row)⟩ : Cell ι (OverrideRow ι τ)) ∈ table
  closed : ∀ c ∈ table, ∀ r, c.committed = some r → onTarget row.target r = true →
    c.pending = some (id, some r.supersede)
  once : (displaced.map ReleasedOverride.id).Nodup
  displaced : ∀ x ∈ displaced, ∃ r,
    (⟨some r, some (id, some r.supersede)⟩ : Cell ι (OverrideRow ι τ)) ∈ table ∧ x = r.released

/-- What a call knows of the table, where it is. -/
def Phase.Knows (table : Heap ι (OverrideRow ι τ)) (id : ι) : Phase ι τ → Prop
  | .updating row rest displaced => Updating table id row rest displaced
  | .inserted row displaced => Inserted table id row displaced
  | _ => True

/-- What the steps of calls that do not overlap keep. -/
structure Ordered (table : Heap ι (OverrideRow ι τ)) (call : ι → Phase ι τ) : Prop where
  alone : ∀ id id' row row' displaced displaced', (call id).busy = some (row, displaced) →
    (call id').busy = some (row', displaced') → row.target = row'.target → id = id'
  shape : ∀ c ∈ table, Shape call c
  ids : (rowIds table).Nodup
  knows : ∀ id, (call id).Knows table id

omit [DecidableEq ι] in
/-- A row is on the target if it is open and of the target. -/
theorem onTarget_iff {target : τ} {r : OverrideRow ι τ} :
    onTarget target r = true ↔ r.isOpen = true ∧ r.target = target := by
  rw [onTarget, Bool.and_eq_true_iff, decide_eq_true_iff]

/-- A row that a transaction may write is settled, or its own. -/
theorem Shape.of_free {call : ι → Phase ι τ} {id : ι} {c : Cell ι (OverrideRow ι τ)}
    (h : Shape call c) (hfree : c.free id = true) :
    (∃ r, c = ⟨some r, none⟩) ∨ (∃ r, c = ⟨some r, some (id, some r.supersede)⟩) ∨
      ∃ row displaced, call id = .inserted row displaced := by
  cases h with
  | settled r => exact .inl ⟨r, rfl⟩
  | closing hc hr hd =>
      obtain rfl := of_decide_eq_true hfree
      exact .inr (.inl ⟨_, rfl⟩)
  | placing hc =>
      obtain rfl := of_decide_eq_true hfree
      exact .inr (.inr ⟨_, _, hc⟩)

omit [DecidableEq ι] in
/-- A call that goes on keeps the shapes of the rows it has written. -/
theorem Shape.mono {call call' : ι → Phase ι τ} {c : Cell ι (OverrideRow ι τ)} (h : Shape call c)
    (hbusy : ∀ id row displaced, (call id).busy = some (row, displaced) →
      ∃ displaced', (call' id).busy = some (row, displaced') ∧ displaced ⊆ displaced')
    (hins : ∀ id row displaced, call id = .inserted row displaced →
      call' id = .inserted row displaced) : Shape call' c := by
  cases h with
  | settled r => exact .settled r
  | closing hc hr hd =>
      obtain ⟨displaced', hc', hsub⟩ := hbusy _ _ _ hc
      exact .closing hc' hr (hsub hd)
  | placing hc => exact .placing (hins _ _ _ hc)

omit [DecidableEq ι] [DecidableEq τ] in
/-- The row of an id, as it is or will be. -/
theorem mem_rowIds {h : Heap ι (OverrideRow ι τ)} {id : ι} :
    id ∈ rowIds h ↔ ∃ c ∈ h, ∃ r, c.after = some r ∧ r.id = id := by
  rw [rowIds, List.mem_map]
  constructor
  · rintro ⟨r, hr, rfl⟩
    obtain ⟨c, hc, hr⟩ := Heap.mem_after.mp hr
    exact ⟨c, hc, r, hr, rfl⟩
  · rintro ⟨c, hc, r, hr, rfl⟩
    exact ⟨r, Heap.mem_after.mpr ⟨c, hc, hr⟩, rfl⟩

omit [DecidableEq ι] [DecidableEq τ] in
/-- Two rows of one id are one. -/
theorem eq_of_rowId {h : Heap ι (OverrideRow ι τ)} {c c' : Cell ι (OverrideRow ι τ)}
    {r r' : OverrideRow ι τ} (hids : (rowIds h).Nodup) (hc : c ∈ h) (hc' : c' ∈ h)
    (hr : c.after = some r) (hr' : c'.after = some r') (hid : r.id = r'.id) : c = c' := by
  rw [rowIds, Heap.after, List.map_filterMap] at hids
  exact eq_of_nodup_filterMap hids hc hc' (b := r.id) (by rw [hr]; rfl) (by rw [hr', hid]; rfl)

omit [DecidableEq ι] [DecidableEq τ] in
/-- To supersede a row keeps its id. -/
theorem rowIds_write {h : Heap ι (OverrideRow ι τ)} {i : ℕ} {c : Cell ι (OverrideRow ι τ)}
    {r : OverrideRow ι τ} {id : ι} (hi : h[i]? = some c) (hr : c.after = some r) :
    rowIds (h.set i (c.write id (some r.supersede))) = rowIds h := by
  have hid : (c.write id (some r.supersede)).after.map OverrideRow.id =
      c.after.map OverrideRow.id := by rw [hr]; rfl
  simp only [rowIds, Heap.after, List.map_filterMap]
  rw [set_split hi, List.filterMap_append, List.filterMap_cons]
  conv_rhs => rw [split_at hi, List.filterMap_append, List.filterMap_cons]
  rw [hid]

variable {table table' : Heap ι (OverrideRow ι τ)} {call call' : ι → Phase ι τ} {id : ι}

omit [DecidableEq ι] [DecidableEq τ] in
/-- A step within a call changes no transaction. -/
theorem busy_eq (hother : ∀ id' ≠ id, call' id' = call id') (h : (call' id).busy = (call id).busy)
    (id' : ι) : (call' id').busy = (call id').busy := by
  by_cases he : id' = id
  · rw [he, h]
  · rw [hother id' he]

omit [DecidableEq ι] [DecidableEq τ] in
/-- A call that has inserted is another than one that has not. -/
theorem inserted_of_ne (hother : ∀ id' ≠ id, call' id' = call id')
    (hid : ∀ row displaced, call id ≠ .inserted row displaced) {id' : ι} {row' : OverrideRow ι τ}
    {displaced' : List (ReleasedOverride ι τ)} (h : call id' = .inserted row' displaced') :
    call' id' = .inserted row' displaced' := by
  rw [hother]
  · exact h
  · rintro rfl
    exact hid row' displaced' h

omit [DecidableEq τ] in
/-- To change one call leaves the others as they are. -/
theorem update_call (call : ι → Phase ι τ) (id : ι) (p : Phase ι τ) :
    ∃ call', Function.update call id p = call' ∧ call' id = p ∧ ∀ id' ≠ id, call' id' = call id' :=
  ⟨_, rfl, Function.update_self .., fun _ he => Function.update_of_ne he ..⟩

/-- To go on, a call keeps to its target or ends, and the others know what they did. -/
theorem Ordered.goes (hi : Ordered table call) (hother : ∀ id' ≠ id, call' id' = call id')
    (hbusy : ∀ row displaced, (call' id).busy = some (row, displaced) →
      ∃ displaced, (call id).busy = some (row, displaced))
    (hshape : ∀ c ∈ table', Shape call' c) (hids : (rowIds table').Nodup)
    (hself : (call' id).Knows table' id)
    (hframe : ∀ id' ≠ id, (call id').Knows table id' → (call id').Knows table' id') :
    Ordered table' call' where
  alone := by
    have hwas : ∀ id' row displaced, (call' id').busy = some (row, displaced) →
        ∃ displaced, (call id').busy = some (row, displaced) := by
      intro id' row displaced h
      by_cases he : id' = id
      · rw [he] at h ⊢
        exact hbusy _ _ h
      · rw [hother id' he] at h
        exact ⟨_, h⟩
    intro id' id'' row row' displaced displaced' h h' htarget
    obtain ⟨_, h⟩ := hwas _ _ _ h
    obtain ⟨_, h'⟩ := hwas _ _ _ h'
    exact hi.alone _ _ _ _ _ _ h h' htarget
  shape := hshape
  ids := hids
  knows := by
    intro id'
    by_cases he : id' = id
    · rw [he]
      exact hself
    · rw [hother id' he]
      exact hframe id' he (hi.knows id')

/-- What a call finds when it begins is what is open on its target. -/
theorem Ordered.begin {row : OverrideRow ι τ} (hi : Ordered table call) (hc : call id = .idle)
    (hid : row.id = id) (ho : row.isOpen = true) (hnew : id ∉ table.rows.map OverrideRow.id)
    (hapart : ∀ id row' displaced, (call id).busy = some (row', displaced) →
      row'.target ≠ row.target) :
    Ordered table
      (Function.update call id (.updating row (table.scan id (onTarget row.target)) [])) := by
  obtain ⟨call', hcall, hself, hother⟩ :=
    update_call call id (.updating row (table.scan id (onTarget row.target)) [])
  rw [hcall]
  have hidle : ∀ id' row' displaced, (call id').busy = some (row', displaced) → id' ≠ id := by
    rintro id' row' displaced h rfl
    rw [hc] at h
    cases h
  have hins : ∀ id' row' displaced, call id' = .inserted row' displaced →
      (call id').busy = some (row', displaced) := by
    intro id' row' displaced h
    rw [h]
    rfl
  -- nothing is pending by a call that has not begun
  have hview : ∀ c ∈ table, c.view id = c.committed := by
    intro c hmem
    cases hi.shape c hmem with
    | settled r => rfl
    | closing hc' _ _ => exact if_neg (hidle _ _ _ hc')
    | placing hc' => exact if_neg (hidle _ _ _ (hins _ _ _ hc'))
  refine ⟨?_, ?_, hi.ids, ?_⟩
  · intro id' id'' row' row'' displaced displaced' h h' htarget
    by_cases he : id' = id
    · by_cases he' : id'' = id
      · rw [he, he']
      · rw [he, hself] at h
        rw [hother _ he'] at h'
        cases h
        exact absurd htarget.symm (hapart _ _ _ h')
    · rw [hother _ he] at h
      by_cases he' : id'' = id
      · rw [he', hself] at h'
        cases h'
        exact absurd htarget (hapart _ _ _ h)
      · rw [hother _ he'] at h'
        exact hi.alone _ _ _ _ _ _ h h' htarget
  · intro c hmem
    refine (hi.shape c hmem).mono ?_ ?_
    · intro id' row' displaced h
      exact ⟨displaced, by rw [hother _ (hidle _ _ _ h)]; exact h, fun _ h => h⟩
    · intro id' row' displaced h
      rw [hother _ (hidle _ _ _ (hins _ _ _ h))]
      exact h
  · intro id'
    by_cases he : id' = id
    · rw [he, hself]
      refine ⟨⟨hid, ho⟩, ?_, ?_, ?_, List.nodup_nil, nofun⟩
      · intro hmem
        obtain ⟨c, hmem, r, hr, hrid⟩ := mem_rowIds.mp hmem
        have hcommitted : ∀ r' : OverrideRow ι τ, c.committed = some r' → r'.id = id → False :=
          fun r' hr' hid' => hnew (hid' ▸ List.mem_map_of_mem (Heap.mem_rows.mpr ⟨c, hmem, hr'⟩))
        cases hi.shape c hmem with
        | settled r' => cases hr; exact hcommitted _ rfl hrid
        | closing hc' _ _ => cases hr; exact hcommitted _ rfl hrid
        | @placing id'' row' displaced hc' =>
            cases hr
            have hknows := hi.knows id''
            rw [hc'] at hknows
            exact hidle _ _ _ (hins _ _ _ hc') (hknows.own.1.symm.trans hrid)
      · intro i c r hget hr hp
        refine .inl (Heap.mem_scan.mpr ⟨c, r, hget, ?_, hp⟩)
        rw [hview c (List.mem_of_getElem? hget)]
        exact hr
      · intro i hmem
        obtain ⟨c, r, hget, hr, hp⟩ := Heap.mem_scan.mp hmem
        rw [hview c (List.mem_of_getElem? hget)] at hr
        exact ⟨c, r, hget, hr, (onTarget_iff.mp hp).2⟩
    · rw [hother _ he]
      exact hi.knows id'

omit [DecidableEq ι] in
/-- A statement of another call leaves a row of this call's target alone. -/
theorem Ordered.target_ne {id' : ι} {row row' : OverrideRow ι τ}
    {displaced displaced' : List (ReleasedOverride ι τ)} (hi : Ordered table call) (hne : id' ≠ id)
    (h : (call id).busy = some (row, displaced)) (h' : (call id').busy = some (row', displaced')) :
    row'.target ≠ row.target :=
  fun he => hne (hi.alone _ _ _ _ _ _ h' h he)

section Write
variable {i j : ℕ} {c c' x : Cell ι (OverrideRow ι τ)} {r : OverrideRow ι τ} {target : τ}

omit [DecidableEq ι] [DecidableEq τ] in
/-- A write of a settled row leaves every row that has a pending version. -/
theorem mem_set_of_pending (hget : table[i]? = some c) (hc : c.pending = none) (hx : x ∈ table)
    (hne : x.pending ≠ none) : x ∈ table.set i c' := by
  obtain ⟨j, hj⟩ := List.mem_iff_getElem?.mp hx
  refine List.mem_iff_getElem?.mpr ⟨j, ?_⟩
  rw [List.getElem?_set_ne, hj]
  rintro rfl
  rw [hget] at hj
  cases hj
  exact hne hc

omit [DecidableEq ι] [DecidableEq τ] in
/-- A committed version after a write was there before it. -/
theorem of_getElem?_set (hget : table[i]? = some c) (hsame : c'.committed = c.committed)
    (hj : (table.set i c')[j]? = some x) (hr : x.committed = some r) :
    x = c' ∧ c.committed = some r ∨ i ≠ j ∧ table[j]? = some x := by
  by_cases he : i = j
  · subst he
    rw [List.getElem?_set_self (List.getElem?_eq_some_iff.mp hget).1] at hj
    cases hj
    exact .inl ⟨rfl, hsame ▸ hr⟩
  · rw [List.getElem?_set_ne he] at hj
    exact .inr ⟨he, hj⟩

omit [DecidableEq ι] [DecidableEq τ] in
/-- A write leaves the committed rows of a target. -/
theorem RowOn.set (hget : table[i]? = some c) (hsame : c'.committed = c.committed)
    (h : RowOn table target j) : RowOn (table.set i c') target j := by
  obtain ⟨x, r, hj, hr, ht⟩ := h
  by_cases he : i = j
  · subst he
    rw [hget] at hj
    cases hj
    refine ⟨c', r, ?_, hsame ▸ hr, ht⟩
    rw [List.getElem?_set_self (List.getElem?_eq_some_iff.mp hget).1]
  · exact ⟨x, r, by rw [List.getElem?_set_ne he]; exact hj, hr, ht⟩

omit [DecidableEq ι] in
/-- What a call in its `UPDATE` knows, it knows after a write of a settled row that is not open on
its target. -/
theorem Updating.set {row : OverrideRow ι τ} {rest : List ℕ}
    {displaced : List (ReleasedOverride ι τ)} (hk : Updating table id row rest displaced)
    (hget : table[i]? = some ⟨some r, none⟩) (hsame : c'.committed = some r)
    (hids : rowIds (table.set i c') = rowIds table) (hp : ¬ onTarget row.target r = true) :
    Updating (table.set i c') id row rest displaced := by
  refine ⟨hk.own, hids ▸ hk.fresh, ?_, ?_, hk.once, ?_⟩
  · intro j x r' hj hr' hp'
    rcases of_getElem?_set hget hsame hj hr' with ⟨rfl, hr⟩ | ⟨-, hj⟩
    · cases hr
      exact absurd hp' hp
    · exact hk.found j x r' hj hr' hp'
  · exact fun j hj => (hk.rest j hj).set hget hsame
  · intro x hx
    obtain ⟨r', hr', rfl⟩ := hk.displaced x hx
    exact ⟨r', mem_set_of_pending hget rfl hr' nofun, rfl⟩

omit [DecidableEq ι] in
/-- What a call knows once its row is there, it knows after a write of a settled row that is not
open on its target. -/
theorem Inserted.set {row : OverrideRow ι τ} {displaced : List (ReleasedOverride ι τ)}
    (hk : Inserted table id row displaced) (hget : table[i]? = some ⟨some r, none⟩)
    (hsame : c'.committed = some r) (hp : ¬ onTarget row.target r = true) :
    Inserted (table.set i c') id row displaced := by
  refine ⟨hk.own, mem_set_of_pending hget rfl hk.there nofun, ?_, hk.once, ?_⟩
  · intro x hx r' hr' hp'
    rcases List.mem_or_eq_of_mem_set hx with hx | rfl
    · exact hk.closed x hx r' hr' hp'
    · rw [hsame] at hr'
      cases hr'
      exact absurd hp' hp
  · intro x hx
    obtain ⟨r', hr', rfl⟩ := hk.displaced x hx
    exact ⟨r', mem_set_of_pending hget rfl hr' nofun, rfl⟩

omit [DecidableEq ι] in
/-- A call that has closed a row has displaced it, and has the others still to turn to. -/
theorem Updating.hit {row : OverrideRow ι τ} {rest : List ℕ}
    {displaced : List (ReleasedOverride ι τ)} (hk : Updating table id row (i :: rest) displaced)
    (hids : (rowIds table).Nodup) (hget : table[i]? = some ⟨some r, none⟩) :
    Updating (table.set i ⟨some r, some (id, some r.supersede)⟩) id row rest
      (displaced ++ [r.released]) := by
  have hmem : (⟨some r, none⟩ : Cell ι (OverrideRow ι τ)) ∈ table := List.mem_of_getElem? hget
  have hlen : i < table.length := (List.getElem?_eq_some_iff.mp hget).1
  have hin : (⟨some r, some (id, some r.supersede)⟩ : Cell ι (OverrideRow ι τ)) ∈
      table.set i ⟨some r, some (id, some r.supersede)⟩ :=
    List.mem_iff_getElem?.mpr ⟨i, by rw [List.getElem?_set_self hlen]⟩
  refine ⟨hk.own, ?_, ?_, fun j hj => (hk.rest j (List.mem_cons_of_mem _ hj)).set hget rfl, ?_, ?_⟩
  · have hsame : rowIds (table.set i (Cell.write id (some r.supersede) ⟨some r, none⟩)) =
        rowIds table := rowIds_write hget rfl
    change id ∉ rowIds (table.set i (Cell.write id (some r.supersede) ⟨some r, none⟩))
    rw [hsame]
    exact hk.fresh
  · intro j x r' hj hr' hp'
    have hcommitted : (⟨some r, some (id, some r.supersede)⟩ : Cell ι (OverrideRow ι τ)).committed =
        (⟨some r, none⟩ : Cell ι (OverrideRow ι τ)).committed := rfl
    rcases of_getElem?_set hget hcommitted hj hr' with ⟨rfl, hr⟩ | ⟨hne, hj⟩
    · cases hr
      exact .inr rfl
    · rcases hk.found j x r' hj hr' hp' with hmem | hpend
      · exact .inl ((List.mem_cons.mp hmem).resolve_left (Ne.symm hne))
      · exact .inr hpend
  · rw [List.map_append]
    refine List.nodup_append.mpr ⟨hk.once, List.nodup_singleton _, ?_⟩
    rintro x hx y hy rfl
    obtain rfl := List.mem_singleton.mp hy
    obtain ⟨x, hx, he⟩ := List.mem_map.mp hx
    obtain ⟨r', hr', rfl⟩ := hk.displaced x hx
    have := eq_of_rowId hids hr' hmem rfl rfl he
    cases this
  · intro x hx
    rcases List.mem_append.mp hx with hx | hx
    · obtain ⟨r', hr', rfl⟩ := hk.displaced x hx
      exact ⟨r', mem_set_of_pending hget rfl hr' nofun, rfl⟩
    · exact ⟨r, hin, List.mem_singleton.mp hx⟩

end Write

/-- The `UPDATE` closes a row. -/
theorem Ordered.hit {row r : OverrideRow ι τ} {i : ℕ} {rest : List ℕ}
    {displaced : List (ReleasedOverride ι τ)} {c : Cell ι (OverrideRow ι τ)}
    (hi : Ordered table call) (hc : call id = .updating row (i :: rest) displaced)
    (hget : table[i]? = some c) (hfree : c.free id = true) (hr : c.after = some r)
    (hp : onTarget row.target r = true) :
    Ordered (table.set i (c.write id (some r.supersede)))
      (Function.update call id (.updating row rest (displaced ++ [r.released]))) := by
  obtain ⟨call', hcall, hself, hother⟩ :=
    update_call call id (.updating row rest (displaced ++ [r.released]))
  rw [hcall]
  have hknows := hi.knows id
  rw [hc] at hknows
  have hbusy : (call id).busy = some (row, displaced) := by rw [hc]; rfl
  -- the row was settled: what this call has closed is not open
  obtain rfl : c = ⟨some r, none⟩ := by
    rcases (hi.shape c (List.mem_of_getElem? hget)).of_free hfree with
      ⟨r', rfl⟩ | ⟨r', rfl⟩ | ⟨_, _, h⟩
    · cases hr; rfl
    · cases hr; exact absurd (onTarget_iff.mp hp).1 nofun
    · rw [hc] at h; cases h
  have hids : rowIds (table.set i (Cell.write id (some r.supersede) ⟨some r, none⟩)) =
      rowIds table := rowIds_write hget rfl
  -- a call that is under way is of another target
  have htarget : ∀ id' ≠ id, ∀ row' displaced', (call id').busy = some (row', displaced') →
      ¬ onTarget row'.target r = true := fun id' hne row' displaced' h hp' =>
    hi.target_ne hne hbusy h ((onTarget_iff.mp hp').2.symm.trans (onTarget_iff.mp hp).2)
  refine hi.goes hother ?_ ?_ (hids ▸ hi.ids) ?_ ?_
  · intro row' displaced' h
    rw [hself] at h
    cases h
    exact ⟨displaced, hbusy⟩
  · intro x hx
    rcases List.mem_or_eq_of_mem_set hx with hx | rfl
    · refine (hi.shape x hx).mono ?_ ?_
      · intro id' row' displaced' h
        by_cases he : id' = id
        · rw [he] at h ⊢
          rw [hbusy] at h
          cases h
          rw [hself]
          exact ⟨_, rfl, List.subset_append_left _ _⟩
        · exact ⟨_, by rw [hother _ he]; exact h, fun _ h => h⟩
      · exact fun _ _ _ h => inserted_of_ne hother (by simp [hc]) h
    · exact .closing (by rw [hself]; rfl) hp (List.mem_append_right _ (List.mem_singleton.mpr rfl))
  · rw [hself]
    exact Updating.hit hknows hi.ids hget
  · intro id' hne hk
    cases hphase : call id' with
    | updating row' rest' displaced' =>
        rw [hphase] at hk
        exact Updating.set hk hget rfl hids (htarget id' hne _ _ (by rw [hphase]; rfl))
    | inserted row' displaced' =>
        rw [hphase] at hk
        exact Inserted.set hk hget rfl (htarget id' hne _ _ (by rw [hphase]; rfl))
    | idle => trivial
    | placed => trivial
    | failed => trivial

/-- The `UPDATE` passes over a row that is not open on the target any more. -/
theorem Ordered.skip {row : OverrideRow ι τ} {i : ℕ} {rest : List ℕ}
    {displaced : List (ReleasedOverride ι τ)} {c : Cell ι (OverrideRow ι τ)}
    (hi : Ordered table call) (hc : call id = .updating row (i :: rest) displaced)
    (hget : table[i]? = some c) (hfree : c.free id = true)
    (hp : ∀ r, c.after = some r → onTarget row.target r = false) :
    Ordered table (Function.update call id (.updating row rest displaced)) := by
  obtain ⟨call', hcall, hself, hother⟩ := update_call call id (.updating row rest displaced)
  rw [hcall]
  have hknows := hi.knows id
  rw [hc] at hknows
  have hbusy := busy_eq hother (by rw [hc, hself]; rfl)
  refine hi.goes hother ?_ ?_ hi.ids ?_ fun _ _ h => h
  · intro row' displaced' h
    rw [hself] at h
    cases h
    exact ⟨displaced, by rw [hc]; rfl⟩
  · intro x hx
    refine (hi.shape x hx).mono (fun id' _ _ h => ⟨_, (hbusy id').trans h, fun _ h => h⟩) ?_
    exact fun _ _ _ h => inserted_of_ne hother (by simp [hc]) h
  · rw [hself]
    refine { hknows with found := ?_, rest := fun j hj => hknows.rest j (List.mem_cons_of_mem _ hj) }
    intro j x r hj hr hp'
    rcases hknows.found j x r hj hr hp' with hmem | hpend
    · rcases List.mem_cons.mp hmem with rfl | hmem
      · rw [hget] at hj
        cases hj
        -- it matched when it was found, so this call has closed it since
        rcases (hi.shape c (List.mem_of_getElem? hget)).of_free hfree with ⟨r', rfl⟩ | ⟨r', rfl⟩ | h
        · cases hr
          exact absurd hp' (Bool.eq_false_iff.mp (hp _ rfl))
        · cases hr
          exact .inr rfl
        · obtain ⟨_, _, h⟩ := h
          rw [hc] at h
          cases h
      · exact .inl hmem
    · exact .inr hpend

section Insert
variable {id' : ι} {row row' r : OverrideRow ι τ} {rest : List ℕ}
  {displaced : List (ReleasedOverride ι τ)}

omit [DecidableEq ι] [DecidableEq τ] in
/-- A version that is committed after an insert was there before it. -/
theorem of_getElem?_insert {j : ℕ} {x : Cell ι (OverrideRow ι τ)}
    (hj : (table ++ [⟨none, some (id, some row)⟩])[j]? = some x) (hr : x.committed = some r) :
    table[j]? = some x := by
  rw [List.getElem?_append] at hj
  split at hj
  · exact hj
  · obtain rfl := List.mem_singleton.mp (List.mem_of_getElem? hj)
    cases hr

omit [DecidableEq ι] in
/-- What a call in its `UPDATE` knows, it knows after the insert of another. -/
theorem Updating.insert (hk : Updating table id' row' rest displaced) (hne : id' ≠ id)
    (hids : rowIds (table ++ [⟨none, some (id, some row)⟩]) = rowIds table ++ [id]) :
    Updating (table ++ [⟨none, some (id, some row)⟩]) id' row' rest displaced := by
  refine ⟨hk.own, ?_, ?_, ?_, hk.once, ?_⟩
  · rw [hids]
    intro hmem
    rcases List.mem_append.mp hmem with hmem | hmem
    · exact hk.fresh hmem
    · exact hne (List.mem_singleton.mp hmem)
  · exact fun j x r hj hr hp => hk.found j x r (of_getElem?_insert hj hr) hr hp
  · intro j hj
    obtain ⟨x, r, hget, hr, ht⟩ := hk.rest j hj
    have hlen : j < table.length := (List.getElem?_eq_some_iff.mp hget).1
    exact ⟨x, r, by rw [List.getElem?_append_left hlen]; exact hget, hr, ht⟩
  · intro x hx
    obtain ⟨r, hr, rfl⟩ := hk.displaced x hx
    exact ⟨r, List.mem_append_left _ hr, rfl⟩

omit [DecidableEq ι] in
/-- What a call knows once its row is there, it knows after the insert of another. -/
theorem Inserted.insert (hk : Inserted table id' row' displaced) :
    Inserted (table ++ [⟨none, some (id, some row)⟩]) id' row' displaced := by
  refine ⟨hk.own, List.mem_append_left _ hk.there, ?_, hk.once, ?_⟩
  · intro x hx r hr hp
    rcases List.mem_append.mp hx with hx | hx
    · exact hk.closed x hx r hr hp
    · obtain rfl := List.mem_singleton.mp hx
      cases hr
  · intro x hx
    obtain ⟨r, hr, rfl⟩ := hk.displaced x hx
    exact ⟨r, List.mem_append_left _ hr, rfl⟩

omit [DecidableEq ι] in
/-- At the end of its `UPDATE` a call has closed all that was open on its target. -/
theorem Updating.inserted (hk : Updating table id row [] displaced) :
    Inserted (table ++ [⟨none, some (id, some row)⟩]) id row displaced := by
  refine ⟨hk.own, List.mem_append_right _ (List.mem_singleton.mpr rfl), ?_, hk.once, ?_⟩
  · intro x hx r hr hp
    rcases List.mem_append.mp hx with hx | hx
    · obtain ⟨j, hj⟩ := List.mem_iff_getElem?.mp hx
      exact (hk.found j x r hj hr hp).resolve_left List.not_mem_nil
    · obtain rfl := List.mem_singleton.mp hx
      cases hr
  · intro x hx
    obtain ⟨r, hr, rfl⟩ := hk.displaced x hx
    exact ⟨r, List.mem_append_left _ hr, rfl⟩

end Insert

/-- The `INSERT` adds the row. -/
theorem Ordered.insert {row : OverrideRow ι τ} {displaced : List (ReleasedOverride ι τ)}
    (hi : Ordered table call) (hc : call id = .updating row [] displaced) :
    Ordered (table ++ [⟨none, some (id, some row)⟩])
      (Function.update call id (.inserted row displaced)) := by
  obtain ⟨call', hcall, hself, hother⟩ := update_call call id (.inserted row displaced)
  rw [hcall]
  have hknows := hi.knows id
  rw [hc] at hknows
  have hids : rowIds (table ++ [⟨none, some (id, some row)⟩]) = rowIds table ++ [id] := by
    have := hknows.own.1
    rw [rowIds, Heap.after, List.filterMap_append, List.map_append, ← Heap.after, ← rowIds, ← this]
    rfl
  have hbusy := busy_eq hother (by rw [hc, hself]; rfl)
  refine hi.goes hother ?_ ?_ ?_ ?_ ?_
  · intro row' displaced' h
    rw [hself] at h
    cases h
    exact ⟨displaced, by rw [hc]; rfl⟩
  · intro x hx
    rcases List.mem_append.mp hx with hx | hx
    · refine (hi.shape x hx).mono (fun id' _ _ h => ⟨_, (hbusy id').trans h, fun _ h => h⟩) ?_
      exact fun _ _ _ h => inserted_of_ne hother (by simp [hc]) h
    · obtain rfl := List.mem_singleton.mp hx
      exact .placing hself
  · rw [hids]
    refine List.nodup_append.mpr ⟨hi.ids, List.nodup_singleton _, ?_⟩
    rintro x hx y hy rfl
    obtain rfl := List.mem_singleton.mp hy
    exact hknows.fresh hx
  · rw [hself]
    exact Updating.inserted hknows
  · intro id' hne hk
    cases hphase : call id' with
    | updating row' rest' displaced' =>
        rw [hphase] at hk
        exact Updating.insert hk hne hids
    | inserted row' displaced' =>
        rw [hphase] at hk
        exact Inserted.insert hk
    | idle => trivial
    | placed => trivial
    | failed => trivial

/-- Nothing is in the way of the `INSERT`. -/
theorem Ordered.not_refused {row r : OverrideRow ι τ} {displaced : List (ReleasedOverride ι τ)}
    {c : Cell ι (OverrideRow ι τ)} (hi : Ordered table call)
    (hc : call id = .updating row [] displaced) (hmem : c ∈ table) (hfree : c.free id = true)
    (hr : c.after = some r) (hclash : clash row r = true) : False := by
  have hknows := hi.knows id
  rw [hc] at hknows
  have hid : row.id ≠ r.id := fun he =>
    hknows.fresh (hknows.own.1 ▸ he ▸ mem_rowIds.mpr ⟨c, hmem, r, hr, rfl⟩)
  have hp : onTarget row.target r = true := by
    rw [clash, decide_eq_false hid, Bool.false_or, Bool.and_eq_true_iff,
      Bool.and_eq_true_iff] at hclash
    exact onTarget_iff.mpr ⟨hclash.1.2, (of_decide_eq_true hclash.2).symm⟩
  rcases (hi.shape c hmem).of_free hfree with ⟨r', rfl⟩ | ⟨r', rfl⟩ | ⟨_, _, h⟩
  · cases hr
    obtain ⟨j, hj⟩ := List.mem_iff_getElem?.mp hmem
    rcases hknows.found j _ _ hj rfl hp with h | h
    · cases h
    · cases h
  · cases hr
    exact absurd (onTarget_iff.mp hp).1 nofun
  · rw [hc] at h
    cases h

/-- What a commit makes of a row. -/
theorem Shape.commit {x : Cell ι (OverrideRow ι τ)} (h : Shape call x) (id : ι) :
    (x.commit id = x ∧ ∀ v, x.pending ≠ some (id, v)) ∨
      (∃ r, x = ⟨some r, some (id, some r.supersede)⟩ ∧ x.commit id = ⟨some r.supersede, none⟩) ∨
        ∃ row displaced, x = ⟨none, some (id, some row)⟩ ∧ call id = .inserted row displaced ∧
          x.commit id = ⟨some row, none⟩ := by
  cases h with
  | settled r => exact .inl ⟨rfl, nofun⟩
  | @closing id' row r displaced hc hr hd =>
      by_cases he : id' = id
      · subst he
        exact .inr (.inl ⟨r, rfl, Cell.commit_self⟩)
      · exact .inl ⟨Cell.commit_of_ne he, fun v h => by cases h; exact he rfl⟩
  | @placing id' row displaced hc =>
      by_cases he : id' = id
      · subst he
        exact .inr (.inr ⟨row, displaced, rfl, hc, Cell.commit_self⟩)
      · exact .inl ⟨Cell.commit_of_ne he, fun v h => by cases h; exact he rfl⟩

/-- **What a commit leaves behind**: what was open on the target is superseded, and the row is
there. -/
theorem Ordered.mem_rows_commit {row r' : OverrideRow ι τ}
    {displaced : List (ReleasedOverride ι τ)} (hi : Ordered table call)
    (hc : call id = .inserted row displaced) :
    r' ∈ (table.commit id).rows ↔ r' = row ∨ ∃ r ∈ table.rows,
      r' = if onTarget row.target r = true then r.supersede else r := by
  have hknows := hi.knows id
  rw [hc] at hknows
  have hbusy : (call id).busy = some (row, displaced) := by rw [hc]; rfl
  constructor
  · intro h
    obtain ⟨x, hx, hr'⟩ := Heap.mem_rows.mp h
    obtain ⟨y, hy, rfl⟩ := List.mem_map.mp hx
    rcases (hi.shape y hy).commit id with ⟨he, hno⟩ | ⟨r, rfl, he⟩ | ⟨row', _, rfl, hc', he⟩
    · rw [he] at hr'
      refine .inr ⟨r', Heap.mem_rows.mpr ⟨y, hy, hr'⟩, ?_⟩
      rw [if_neg]
      exact fun hp => hno _ (hknows.closed y hy r' hr' hp)
    · rw [he] at hr'
      cases hr'
      refine .inr ⟨r, Heap.mem_rows.mpr ⟨_, hy, rfl⟩, ?_⟩
      rw [if_pos]
      cases hi.shape _ hy with
      | closing hc' hp _ =>
          rw [hbusy] at hc'
          cases hc'
          exact hp
    · rw [he] at hr'
      cases hr'
      rw [hc] at hc'
      cases hc'
      exact .inl rfl
  · rintro (rfl | ⟨r, hr, rfl⟩)
    · exact Heap.mem_rows.mpr ⟨_, List.mem_map_of_mem hknows.there, by rw [Cell.commit_self]⟩
    · obtain ⟨y, hy, hr⟩ := Heap.mem_rows.mp hr
      refine Heap.mem_rows.mpr ⟨y.commit id, List.mem_map_of_mem hy, ?_⟩
      rcases (hi.shape y hy).commit id with ⟨he, hno⟩ | ⟨r', rfl, he⟩ | ⟨_, _, rfl, _, _⟩
      · rw [he, hr, if_neg]
        exact fun hp => hno _ (hknows.closed y hy r hr hp)
      · cases hr
        rw [he, if_pos]
        cases hi.shape _ hy with
        | closing hc' hp _ =>
            rw [hbusy] at hc'
            cases hc'
            exact hp
      · cases hr

section Commit
variable {id' : ι} {row row' : OverrideRow ι τ} {rest : List ℕ}
  {displaced displaced' : List (ReleasedOverride ι τ)} {x : Cell ι (OverrideRow ι τ)}

omit [DecidableEq ι] in
/-- A row that another transaction writes keeps its shape. -/
theorem Shape.of_ne (h : Shape call x) (hother : ∀ id' ≠ id, call' id' = call id')
    (hno : ∀ v, x.pending ≠ some (id, v)) : Shape call' x := by
  cases h with
  | settled r => exact .settled r
  | @closing id' _ _ _ hc hp hd =>
      have hne : id' ≠ id := by rintro rfl; exact hno _ rfl
      exact .closing (by rw [hother _ hne]; exact hc) hp hd
  | @placing id' _ _ hc =>
      have hne : id' ≠ id := by rintro rfl; exact hno _ rfl
      exact .placing (by rw [hother _ hne]; exact hc)

/-- A row that is open on another target is as it was before the commit. -/
theorem Ordered.commit_eq {r : OverrideRow ι τ} {target : τ} (hi : Ordered table call)
    (hc : call id = .inserted row displaced) (hx : x ∈ table)
    (hr : (x.commit id).committed = some r) (hp : onTarget target r = true)
    (hne : target ≠ row.target) : x.commit id = x := by
  rcases (hi.shape x hx).commit id with ⟨he, -⟩ | ⟨r', rfl, he⟩ | ⟨row', _, rfl, hc', he⟩
  · exact he
  · rw [he] at hr
    cases hr
    exact absurd (onTarget_iff.mp hp).1 nofun
  · rw [he] at hr
    cases hr
    rw [hc] at hc'
    cases hc'
    exact absurd (onTarget_iff.mp hp).2.symm hne

omit [DecidableEq τ] in
/-- What another transaction has written is there after the commit. -/
theorem mem_commit_of_ne {v w : Option (OverrideRow ι τ)} (hne : id' ≠ id)
    (hx : (⟨v, some (id', w)⟩ : Cell ι (OverrideRow ι τ)) ∈ table) :
    (⟨v, some (id', w)⟩ : Cell ι (OverrideRow ι τ)) ∈ table.commit id :=
  List.mem_map.mpr ⟨_, hx, Cell.commit_of_ne hne⟩

/-- What a call in its `UPDATE` knows, it knows after a commit on another target. -/
theorem Updating.commit (hk : Updating table id' row' rest displaced') (hi : Ordered table call)
    (hc : call id = .inserted row displaced) (hne : id' ≠ id) (htarget : row'.target ≠ row.target)
    (hids : rowIds (table.commit id) = rowIds table) :
    Updating (table.commit id) id' row' rest displaced' := by
  refine ⟨hk.own, hids ▸ hk.fresh, ?_, ?_, hk.once, ?_⟩
  · intro j x r hj hr hp
    rw [Heap.commit, List.getElem?_map] at hj
    obtain ⟨y, hy, rfl⟩ := Option.map_eq_some_iff.mp hj
    have he := hi.commit_eq hc (List.mem_of_getElem? hy) hr hp htarget
    rw [he] at hr ⊢
    exact hk.found j y r hy hr hp
  · intro j hj
    obtain ⟨y, r, hy, hr, ht⟩ := hk.rest j hj
    have hget : (table.commit id)[j]? = some (y.commit id) := by
      rw [Heap.commit, List.getElem?_map, hy]
      rfl
    rcases (hi.shape y (List.mem_of_getElem? hy)).commit id with
      ⟨he, -⟩ | ⟨r', rfl, he⟩ | ⟨_, _, rfl, _, _⟩
    · exact ⟨_, r, hget, by rw [he]; exact hr, ht⟩
    · cases hr
      exact ⟨_, r.supersede, hget, by rw [he], ht⟩
    · cases hr
  · intro x hx
    obtain ⟨r, hr, rfl⟩ := hk.displaced x hx
    exact ⟨r, mem_commit_of_ne hne hr, rfl⟩

/-- What a call knows once its row is there, it knows after a commit on another target. -/
theorem Inserted.commit (hk : Inserted table id' row' displaced') (hi : Ordered table call)
    (hc : call id = .inserted row displaced) (hne : id' ≠ id)
    (htarget : row'.target ≠ row.target) : Inserted (table.commit id) id' row' displaced' := by
  refine ⟨hk.own, mem_commit_of_ne hne hk.there, ?_, hk.once, ?_⟩
  · intro x hx r hr hp
    obtain ⟨y, hy, rfl⟩ := List.mem_map.mp hx
    have he := hi.commit_eq hc hy hr hp htarget
    rw [he] at hr ⊢
    exact hk.closed y hy r hr hp
  · intro x hx
    obtain ⟨r, hr, rfl⟩ := hk.displaced x hx
    exact ⟨r, mem_commit_of_ne hne hr, rfl⟩

end Commit

/-- The call is placed. -/
theorem Ordered.commit {row : OverrideRow ι τ} {displaced : List (ReleasedOverride ι τ)}
    (hi : Ordered table call) (hc : call id = .inserted row displaced) :
    Ordered (table.commit id) (Function.update call id (.placed row displaced)) := by
  obtain ⟨call', hcall, hself, hother⟩ := update_call call id (.placed row displaced)
  rw [hcall]
  have hbusy : (call id).busy = some (row, displaced) := by rw [hc]; rfl
  have hids : rowIds (table.commit id) = rowIds table := by rw [rowIds, Heap.after_commit, rowIds]
  refine hi.goes hother ?_ ?_ (hids ▸ hi.ids) (by rw [hself]; trivial) ?_
  · intro row' displaced' h
    rw [hself] at h
    cases h
  · intro x hx
    obtain ⟨y, hy, rfl⟩ := List.mem_map.mp hx
    rcases (hi.shape y hy).commit id with ⟨he, hno⟩ | ⟨r', rfl, he⟩ | ⟨row', _, rfl, hc', he⟩
    · rw [he]
      exact (hi.shape y hy).of_ne hother hno
    · rw [he]
      exact .settled _
    · rw [he]
      exact .settled _
  · intro id' hne hk
    cases hphase : call id' with
    | updating row' rest' displaced' =>
        rw [hphase] at hk
        have htarget := hi.target_ne hne hbusy (by rw [hphase]; rfl)
        exact Updating.commit hk hi hc hne htarget hids
    | inserted row' displaced' =>
        rw [hphase] at hk
        have htarget := hi.target_ne hne hbusy (by rw [hphase]; rfl)
        exact Inserted.commit hk hi hc hne htarget
    | idle => trivial
    | placed => trivial
    | failed => trivial

/-- **Step.**  Calls that do not overlap stay in order. -/
theorem ordered_step (hi : Ordered s.table s.call) (hC : Apart s a)
    (h : (placing ι τ).step s a = some s') : Ordered s'.table s'.call := by
  cases placing_moves h with
  | begin hc hid ho hnew => exact hi.begin hc hid ho hnew fun id row _ h => hC id (row, _) h
  | hit hc hget hfree hr hp => exact hi.hit hc hget hfree hr hp
  | skip hc hget hfree hp => exact hi.skip hc hget hfree hp
  | insert hc => exact hi.insert hc
  | refused hc hmem hfree hr hclash => exact (hi.not_refused hc hmem hfree hr hclash).elim
  | commit hc => exact hi.commit hc

end BellasReef.Db
