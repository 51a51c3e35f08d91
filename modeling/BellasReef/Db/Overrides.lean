import BellasReef.Support.Lists
import Mathlib.Algebra.Order.Ring.Rat
import Mathlib.Data.List.Nodup

/-!
# Db — Overrides

Manual overrides (`overrides.py`): the `overrides` table, the store's transactions on it, and the
copy of an open row that the engine honours.  Instants and durations are rational seconds.

Every ending of a hold is one statement, `close`: an `UPDATE ... WHERE released_at IS NULL AND ...
RETURNING`.  `reasonOf_close` says what it leaves behind.
-/

namespace BellasReef.Db
open BellasReef.Support

/-- `ReleaseReason`. -/
inductive ReleaseReason where
  | expired
  | lapsed
  | manual
  | superseded
  deriving DecidableEq, Repr

/-- How a hold moves its channel. -/
inductive Transition where
  | snap
  | ramp
  deriving DecidableEq, Repr

/-- A row of `overrides`.  `released_at` is null where there is no `release_reason`. -/
structure OverrideRow (ι τ : Type) where
  id : ι
  target : τ
  duty : ℚ
  expiresAt : ℚ
  transition : Transition
  releaseReason : Option ReleaseReason
  deriving DecidableEq

/-- `released_at IS NULL`. -/
def OverrideRow.isOpen {ι τ : Type} (r : OverrideRow ι τ) : Bool := r.releaseReason.isNone

/-- The table. -/
structure Overrides (ι τ : Type) where
  rows : List (OverrideRow ι τ)
  unique : (rows.map OverrideRow.id).Nodup
  /-- The partial unique index: one open row per target. -/
  one_open : ((rows.filter OverrideRow.isOpen).map OverrideRow.target).Nodup

/-- An override the engine is honouring. -/
structure ActiveOverride (ι τ : Type) where
  id : ι
  target : τ
  duty : ℚ
  expiresAt : ℚ
  transition : Transition
  monotonicDeadline : Option ℚ
  deriving DecidableEq

namespace ActiveOverride
variable {ι τ : Type}

/-- `is_expired`. -/
def isExpired (o : ActiveOverride ι τ) (mono wall : ℚ) : Bool :=
  match o.monotonicDeadline with
  | some deadline => decide (deadline ≤ mono)
  | none => decide (o.expiresAt ≤ wall)

/-- `arm`. -/
def arm (o : ActiveOverride ι τ) (mono wall : ℚ) : ActiveOverride ι τ :=
  { o with monotonicDeadline := some (mono + max (o.expiresAt - wall) 0) }

end ActiveOverride

/-- A row as it is read. -/
def OverrideRow.active {ι τ : Type} (r : OverrideRow ι τ) : ActiveOverride ι τ :=
  ⟨r.id, r.target, r.duty, r.expiresAt, r.transition, none⟩

/-- `UPDATE ... SET release_reason = reason WHERE released_at IS NULL AND p`, on one row. -/
def OverrideRow.closeIf {ι τ : Type} (p : OverrideRow ι τ → Bool) (reason : ReleaseReason)
    (r : OverrideRow ι τ) : OverrideRow ι τ :=
  if r.isOpen && p r then { r with releaseReason := some reason } else r

section Rows
variable {ι τ : Type} {p : OverrideRow ι τ → Bool} {reason : ReleaseReason}
  {rows : List (OverrideRow ι τ)}

theorem map_id_closeIf :
    (rows.map (OverrideRow.closeIf p reason)).map OverrideRow.id = rows.map OverrideRow.id := by
  rw [List.map_map]
  refine List.map_congr_left fun r _ => ?_
  rw [Function.comp_apply, OverrideRow.closeIf]
  split <;> rfl

/-- What is still open is a part of what was. -/
theorem filter_isOpen_closeIf :
    (rows.map (OverrideRow.closeIf p reason)).filter OverrideRow.isOpen =
      rows.filter fun r => r.isOpen && !p r := by
  induction rows with
  | nil => rfl
  | cons r rows ih =>
      rw [List.map_cons, OverrideRow.closeIf]
      by_cases h : (r.isOpen && p r) = true
      · obtain ⟨-, hp⟩ := Bool.and_eq_true_iff.mp h
        rw [if_pos h, List.filter_cons_of_neg (by simp [OverrideRow.isOpen]),
          List.filter_cons_of_neg (by simp [hp]), ih]
      · rw [if_neg h]
        cases ho : r.isOpen with
        | false =>
            rw [List.filter_cons_of_neg (by simp [ho]), List.filter_cons_of_neg (by simp [ho]), ih]
        | true =>
            have hp : p r = false := by simpa [ho] using h
            rw [List.filter_cons_of_pos ho, List.filter_cons_of_pos (by simp [ho, hp]), ih]

end Rows

namespace Overrides
variable {ι τ : Type}

/-- The open rows. -/
def live (db : Overrides ι τ) : List (OverrideRow ι τ) := db.rows.filter OverrideRow.isOpen

/-- What `close` returns. -/
def closing (db : Overrides ι τ) (p : OverrideRow ι τ → Bool) : List (OverrideRow ι τ) :=
  db.rows.filter fun r => r.isOpen && p r

/-- `UPDATE overrides SET ... WHERE released_at IS NULL AND p`. -/
def close (db : Overrides ι τ) (p : OverrideRow ι τ → Bool) (reason : ReleaseReason) :
    Overrides ι τ where
  rows := db.rows.map (OverrideRow.closeIf p reason)
  unique := by rw [map_id_closeIf]; exact db.unique
  one_open := by
    rw [filter_isOpen_closeIf]
    refine db.one_open.sublist (List.Sublist.map _ ?_)
    exact List.monotone_filter_right _ fun r hr => (Bool.and_eq_true_iff.mp hr).1

variable [DecidableEq ι] [DecidableEq τ]

/-- `INSERT INTO overrides`; `none` where a constraint refuses the row. -/
def insert (db : Overrides ι τ) (r : OverrideRow ι τ) : Option (Overrides ι τ) :=
  if h : r.isOpen = true ∧ r.id ∉ db.rows.map OverrideRow.id ∧
      r.target ∉ db.live.map OverrideRow.target then
    some {
      rows := r :: db.rows
      unique := List.nodup_cons.mpr ⟨h.2.1, db.unique⟩
      one_open := by
        rw [List.filter_cons_of_pos h.1]
        exact List.nodup_cons.mpr ⟨h.2.2, db.one_open⟩ }
  else none

/-- Why `create` refuses. -/
inductive CreateError where
  | duration
  | duty
  | clockUntrusted
  /-- The transaction was rolled back. -/
  | integrity
  deriving DecidableEq

/-- `create`: the table, the placed row, and the rows it superseded. -/
def create (db : Overrides ι τ) (trusted : Bool) (now : ℚ) (id : ι) (target : τ)
    (duty durationS : ℚ) (transition : Transition) :
    Except CreateError (Overrides ι τ × OverrideRow ι τ × List (OverrideRow ι τ)) :=
  if durationS ≤ 0 then .error .duration
  else if ¬ (0 ≤ duty ∧ duty ≤ 1) then .error .duty
  else if trusted = false then .error .clockUntrusted
  else
    let row : OverrideRow ι τ := ⟨id, target, duty, now + durationS, transition, none⟩
    let onTarget := fun r : OverrideRow ι τ => decide (r.target = target)
    match (db.close onTarget .superseded).insert row with
    | some placed => .ok (placed, row, db.closing onTarget)
    | none => .error .integrity

omit [DecidableEq ι] [DecidableEq τ] in
/-- `load_active`: what has lapsed is closed and reported, what is live is armed. -/
def loadActive (db : Overrides ι τ) (mono wall : ℚ) :
    Overrides ι τ × List (ActiveOverride ι τ) × List (OverrideRow ι τ) :=
  let due := fun r : OverrideRow ι τ => decide (r.expiresAt ≤ wall)
  let db' := db.close due .lapsed
  (db', db'.live.map fun r => r.active.arm mono wall, db.closing due)

omit [DecidableEq τ] in
/-- `release`: the table, and the row if one matched. -/
def release (db : Overrides ι τ) (id : ι) (reason : ReleaseReason) :
    Overrides ι τ × Option (OverrideRow ι τ) :=
  let isRow := fun r : OverrideRow ι τ => decide (r.id = id)
  (db.close isRow reason, (db.closing isRow).head?)

omit [DecidableEq ι] [DecidableEq τ] in
/-- `list_active`. -/
def listActive (db : Overrides ι τ) : List (ActiveOverride ι τ) :=
  db.live.map OverrideRow.active

omit [DecidableEq τ] in
/-- The `release_reason` of a row. -/
def reasonOf (db : Overrides ι τ) (id : ι) : Option ReleaseReason :=
  (db.rows.find? (·.id = id)).bind OverrideRow.releaseReason

variable {db : Overrides ι τ} {p : OverrideRow ι τ → Bool} {reason : ReleaseReason} {id : ι}

omit [DecidableEq τ] in
/-- An id finds the one row that has it. -/
theorem find_eq_some_iff {r : OverrideRow ι τ} :
    db.rows.find? (·.id = id) = some r ↔ r ∈ db.rows ∧ r.id = id :=
  find_key_eq_some_iff db.unique

omit [DecidableEq τ] in
/-- **What a `close` leaves behind**: the reason on the rows it returns, and no other change. -/
theorem reasonOf_close :
    (db.close p reason).reasonOf id =
      if id ∈ (db.closing p).map OverrideRow.id then some reason else db.reasonOf id := by
  have hfind : (db.close p reason).rows.find? (·.id = id) =
      (db.rows.find? (·.id = id)).map (OverrideRow.closeIf p reason) := by
    rw [close, List.find?_map]
    congr 2
    funext r
    rw [Function.comp_apply, OverrideRow.closeIf]
    split <;> rfl
  rw [reasonOf, reasonOf, hfind]
  cases hr : db.rows.find? (·.id = id) with
  | none =>
      rw [if_neg]
      · rfl
      · intro hmem
        obtain ⟨r, hc, hid⟩ := List.mem_map.mp hmem
        exact List.find?_eq_none.mp hr r (List.mem_filter.mp hc).1 (decide_eq_true hid)
  | some r =>
      obtain ⟨hmem, rfl⟩ := find_eq_some_iff.mp hr
      rw [Option.map_some, Option.bind_some, Option.bind_some, OverrideRow.closeIf]
      by_cases h : (r.isOpen && p r) = true
      · have hin : r.id ∈ (db.closing p).map OverrideRow.id :=
          List.mem_map_of_mem (List.mem_filter.mpr ⟨hmem, h⟩)
        rw [if_pos h, if_pos hin]
      · rw [if_neg h, if_neg]
        intro hc
        obtain ⟨x, hx, hid⟩ := List.mem_map.mp hc
        obtain ⟨hxmem, hxp⟩ := List.mem_filter.mp hx
        rw [List.inj_on_of_nodup_map db.unique hxmem hmem hid] at hxp
        exact h hxp

omit [DecidableEq τ] in
/-- A row that is returned was open. -/
theorem reasonOf_of_mem_closing (h : id ∈ (db.closing p).map OverrideRow.id) :
    db.reasonOf id = none := by
  obtain ⟨r, hr, rfl⟩ := List.mem_map.mp h
  obtain ⟨hmem, hr⟩ := List.mem_filter.mp hr
  obtain ⟨ho, -⟩ := Bool.and_eq_true_iff.mp hr
  rw [reasonOf, find_eq_some_iff.mpr ⟨hmem, rfl⟩]
  exact Option.isNone_iff_eq_none.mp ho

omit [DecidableEq ι] [DecidableEq τ] in
theorem nodup_closing : ((db.closing p).map OverrideRow.id).Nodup :=
  db.unique.sublist (List.filter_sublist.map _)

/-- A row that is inserted has not ended, and no other row changes. -/
theorem reasonOf_insert {r : OverrideRow ι τ} {db' : Overrides ι τ} (h : db.insert r = some db') :
    db'.reasonOf id = db.reasonOf id := by
  rw [insert] at h
  split at h
  · next hr =>
      have ho := hr.1
      have hnew := hr.2.1
      cases h
      rw [reasonOf, reasonOf]
      by_cases hid : r.id = id
      · have hnone : db.rows.find? (·.id = id) = none := by
          refine List.find?_eq_none.mpr fun x hx he => hnew ?_
          rw [hid, ← of_decide_eq_true he]
          exact List.mem_map_of_mem hx
        rw [List.find?_cons_of_pos (by simpa using hid), hnone]
        exact Option.isNone_iff_eq_none.mp ho
      · rw [List.find?_cons_of_neg (by simpa using hid)]
  · cases h

omit [DecidableEq τ] in
/-- What `release` closes: the row, if it is open. -/
theorem closing_id : db.closing (fun r => decide (r.id = id)) =
    ((db.rows.find? (·.id = id)).filter OverrideRow.isOpen).toList := by
  have hnodup := db.unique
  rw [closing]
  revert hnodup
  induction db.rows with
  | nil => intro _; rfl
  | cons r rows ih =>
      intro hnodup
      obtain ⟨hr, hrows⟩ := List.nodup_cons.mp hnodup
      by_cases hid : r.id = id
      · have hnone : rows.filter (fun r => r.isOpen && decide (r.id = id)) = [] := by
          refine List.filter_eq_nil_iff.mpr fun x hx he => hr ?_
          obtain ⟨-, he⟩ := Bool.and_eq_true_iff.mp he
          rw [hid, ← of_decide_eq_true he]
          exact List.mem_map_of_mem hx
        rw [List.find?_cons_of_pos (by simpa using hid), Option.filter_some]
        cases ho : r.isOpen with
        | true => rw [List.filter_cons_of_pos (by simp [ho, hid]), hnone]; rfl
        | false => rw [List.filter_cons_of_neg (by simp [ho]), hnone]; rfl
      · rw [List.filter_cons_of_neg (by simp [hid]), List.find?_cons_of_neg (by simpa using hid),
          ih hrows]

omit [DecidableEq τ] in
/-- A release closes the one row of its id. -/
theorem closing_of_release {r : OverrideRow ι τ} (h : (db.release id reason).2 = some r) :
    db.closing (fun r => decide (r.id = id)) = [r] := by
  rw [release, closing_id] at h
  rw [closing_id]
  cases hr : (db.rows.find? (·.id = id)).filter OverrideRow.isOpen with
  | none => rw [hr] at h; cases h
  | some x => rw [hr] at h; cases h; rfl

omit [DecidableEq τ] in
/-- An open row is closed by its release. -/
theorem closing_of_open (hid : id ∈ db.rows.map OverrideRow.id) (ho : db.reasonOf id = none) :
    ∃ r : OverrideRow ι τ, r.id = id ∧ db.closing (fun r => decide (r.id = id)) = [r] := by
  obtain ⟨r, hr, rfl⟩ := List.mem_map.mp hid
  have hfind : db.rows.find? (·.id = r.id) = some r := find_eq_some_iff.mpr ⟨hr, rfl⟩
  rw [reasonOf, hfind, Option.bind_some] at ho
  have hopen : r.isOpen = true := Option.isNone_iff_eq_none.mpr ho
  refine ⟨r, rfl, ?_⟩
  rw [closing_id, hfind, Option.filter_some, if_pos hopen]
  rfl

omit [DecidableEq ι] [DecidableEq τ] in
@[simp] theorem map_id_close : (db.close p reason).rows.map OverrideRow.id =
    db.rows.map OverrideRow.id := map_id_closeIf

/-- What `create` does: a supersede, and a new open row. -/
theorem create_eq_ok {db' : Overrides ι τ} {row : OverrideRow ι τ} {superseded : List (OverrideRow ι τ)}
    {trusted : Bool} {now duty durationS : ℚ} {target : τ} {transition : Transition}
    (h : db.create trusted now id target duty durationS transition = .ok (db', row, superseded)) :
    superseded = db.closing (fun r => decide (r.target = target)) ∧
      (db.close (fun r => decide (r.target = target)) .superseded).insert row = some db' := by
  simp only [create] at h
  split at h
  · cases h
  · split at h
    · cases h
    · split at h
      · cases h
      · split at h
        · next hi => cases h; exact ⟨rfl, hi⟩
        · cases h

/-- An inserted row is added to the ids. -/
theorem map_id_insert {r : OverrideRow ι τ} {db' : Overrides ι τ} (h : db.insert r = some db') :
    db'.rows.map OverrideRow.id = r.id :: db.rows.map OverrideRow.id := by
  rw [insert] at h
  split at h
  · cases h; rfl
  · cases h

/-! ### What the store's transactions keep -/

omit [DecidableEq ι] [DecidableEq τ] in
/-- A row is read back as it was placed, however it ended. -/
@[simp] theorem map_active_close : (db.close p reason).rows.map OverrideRow.active =
    db.rows.map OverrideRow.active := by
  rw [close, List.map_map]
  refine List.map_congr_left fun r _ => ?_
  rw [Function.comp_apply, OverrideRow.closeIf]
  split <;> rfl

/-- An insert puts the new hold in front. -/
theorem map_active_insert {r : OverrideRow ι τ} {db' : Overrides ι τ}
    (h : db.insert r = some db') :
    db'.rows.map OverrideRow.active = r.active :: db.rows.map OverrideRow.active := by
  rw [insert] at h
  split at h
  · cases h; rfl
  · cases h

omit [DecidableEq ι] [DecidableEq τ] in
/-- A hold is told by its id. -/
theorem eq_of_id_eq {o o' : ActiveOverride ι τ} (ho : o ∈ db.rows.map OverrideRow.active)
    (ho' : o' ∈ db.rows.map OverrideRow.active) (h : o.id = o'.id) : o = o' := by
  obtain ⟨r, hr, rfl⟩ := List.mem_map.mp ho
  obtain ⟨r', hr', rfl⟩ := List.mem_map.mp ho'
  rw [List.inj_on_of_nodup_map db.unique hr hr' h]

omit [DecidableEq τ] in
/-- `list_active` is the holds that have not ended. -/
theorem mem_listActive_iff {o : ActiveOverride ι τ} : o ∈ db.listActive ↔
    o ∈ db.rows.map OverrideRow.active ∧ db.reasonOf o.id = none := by
  have hopen : ∀ r ∈ db.rows, db.reasonOf r.id = r.releaseReason := fun r hr => by
    rw [reasonOf, find_eq_some_iff.mpr ⟨hr, rfl⟩]; rfl
  rw [listActive, live]
  constructor
  · intro h
    obtain ⟨r, hr, rfl⟩ := List.mem_map.mp h
    obtain ⟨hr, ho⟩ := List.mem_filter.mp hr
    refine ⟨List.mem_map_of_mem hr, ?_⟩
    change db.reasonOf r.id = none
    rw [hopen r hr]
    exact Option.isNone_iff_eq_none.mp ho
  · rintro ⟨h, ho⟩
    obtain ⟨r, hr, rfl⟩ := List.mem_map.mp h
    have ho : db.reasonOf r.id = none := ho
    rw [hopen r hr] at ho
    exact List.mem_map_of_mem (List.mem_filter.mpr ⟨hr, Option.isNone_iff_eq_none.mpr ho⟩)

omit [DecidableEq ι] [DecidableEq τ] in
/-- Active holds differ in id. -/
theorem nodup_id_listActive : (db.listActive.map ActiveOverride.id).Nodup := by
  rw [listActive, List.map_map]
  exact db.unique.sublist (List.filter_sublist.map _)

omit [DecidableEq ι] [DecidableEq τ] in
/-- Active holds differ in target. -/
theorem nodup_target_listActive : (db.listActive.map ActiveOverride.target).Nodup := by
  rw [listActive, List.map_map]
  exact db.one_open

/-- A transaction that ends rows with `reason`: it removes none, and what has ended stays so. -/
structure EndedBy (db db' : Overrides ι τ) (reason : ReleaseReason) : Prop where
  known : db.rows.map OverrideRow.active ⊆ db'.rows.map OverrideRow.active
  reasons : ∀ id, db'.reasonOf id = db.reasonOf id ∨
    db.reasonOf id = none ∧ db'.reasonOf id = some reason

omit [DecidableEq τ] in
/-- To close rows ends their holds, for the one reason. -/
theorem endedBy_close : db.EndedBy (db.close p reason) reason := by
  refine ⟨by rw [map_active_close]; exact fun _ => id, fun id => ?_⟩
  rw [reasonOf_close]
  split
  · next h => exact .inr ⟨reasonOf_of_mem_closing h, rfl⟩
  · exact .inl rfl

/-- To create a hold ends what it supersedes. -/
theorem endedBy_create {db' : Overrides ι τ} {row : OverrideRow ι τ}
    {superseded : List (OverrideRow ι τ)} {trusted : Bool} {now duty durationS : ℚ} {target : τ}
    {transition : Transition}
    (h : db.create trusted now id target duty durationS transition = .ok (db', row, superseded)) :
    db.EndedBy db' .superseded := by
  obtain ⟨-, hi⟩ := create_eq_ok h
  have hc : db.EndedBy (db.close (fun r => decide (r.target = target)) .superseded) .superseded :=
    endedBy_close
  refine ⟨fun o ho => ?_, fun id => ?_⟩
  · rw [map_active_insert hi]
    exact List.mem_cons_of_mem _ (hc.known ho)
  · rw [reasonOf_insert hi]
    exact hc.reasons id

omit [DecidableEq τ] in
/-- To release a hold ends it. -/
theorem endedBy_release : db.EndedBy (db.release id reason).1 reason := endedBy_close

omit [DecidableEq τ] in
/-- A release ends no other row. -/
theorem reasonOf_release_of_ne {id' : ι} (h : id' ≠ id) :
    (db.release id reason).1.reasonOf id' = db.reasonOf id' := by
  rw [release, reasonOf_close, if_neg]
  intro hmem
  obtain ⟨r, hr, rfl⟩ := List.mem_map.mp hmem
  obtain ⟨-, hr⟩ := Bool.and_eq_true_iff.mp (List.mem_filter.mp hr).2
  exact h (of_decide_eq_true hr)

omit [DecidableEq τ] in
/-- A row that was released has ended. -/
theorem reasonOf_release_ne_none {o : ActiveOverride ι τ}
    (ho : o ∈ db.rows.map OverrideRow.active) :
    (db.release o.id reason).1.reasonOf o.id ≠ none := by
  obtain ⟨r, hr, rfl⟩ := List.mem_map.mp ho
  change (db.release r.id reason).1.reasonOf r.id ≠ none
  rw [release, reasonOf_close]
  split
  · nofun
  · next h =>
      intro hnone
      obtain ⟨x, hx, hclosing⟩ := closing_of_open (List.mem_map_of_mem hr) hnone
      rw [hclosing] at h
      exact h (List.mem_singleton.mpr hx.symm)

end Overrides

end BellasReef.Db
