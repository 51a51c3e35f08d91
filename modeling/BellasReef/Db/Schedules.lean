import BellasReef.Support.KeyedTable
import BellasReef.Support.Machine
import Mathlib.Data.List.AList
import Mathlib.Data.List.Sort

/-!
# Db — Schedules

`ScheduleStore` (`schedules.py`): named curves and the channels that they drive, under READ
COMMITTED, with a unique name, one assignment a channel, and a foreign key that restricts.  Calls
run concurrently, statement by statement.  A statement that another transaction's lock keeps
waiting is not taken until that one ends; what it then finds is what it acts on.

* `Sound`: no assignment names a schedule that is not there, and none that a call has deleted or is
  about to commit as deleted.
* `database_iff`: a call ends in an error of the database's own just where the store reaches the
  backstop, or Postgres cannot hold a text or breaks a circle of renames.
* `schedule_store_iff`: whatever the interleaving, every assignment has its one curve; and every
  call that fails says so in an error of its own if and only if no step meets that condition.
-/

namespace BellasReef.Db.Schedules
open BellasReef.Support

/-! ### The calls -/

/-- A `ScheduleDefinition`: its name, and the rest of it. -/
structure Definition (δ : Type) where
  name : String
  curve : δ
  fits : 1 ≤ name.length ∧ name.length ≤ 64

/-- A request to the store. -/
inductive Request (ι δ : Type) where
  /-- `create`, with the id that `uuid4` gives. -/
  | create (id : ι) (definition : Definition δ)
  | update (id : ι) (definition : Definition δ)
  | delete (id : ι)
  | assign (channelId : String) (id : ι)
  | unassign (channelId : String)

/-- What the store raises, by design. -/
inductive StoreError (ι : Type) where
  /-- A schedule of this name already exists. -/
  | valueError (name : String)
  | keyError (id : ι)
  /-- The schedule is assigned to this channel. -/
  | scheduleInUse (id : ι) (channelId : String)
  /-- An exception of the driver's, as it is. -/
  | database
  deriving DecidableEq

/-- What a request is answered. -/
inductive Answer (ι δ : Type) where
  /-- `StoredSchedule`. -/
  | stored (id : ι) (definition : Definition δ) (assignedChannels : List String)
  | deleted
  | assigned
  /-- Whether there was one. -/
  | unassigned (existed : Bool)

/-- Where a call is. -/
inductive Stage (ι δ : Type) where
  /-- At its first statement. -/
  | called
  /-- Past the check of `delete` and of `assign`. -/
  | checked
  /-- In the `UPDATE`, with its row written and its name to be checked. -/
  | naming
  /-- Past the `UPDATE`. -/
  | listing
  /-- At its commit. -/
  | written (answer : Answer ι δ)
  | returned (answer : Answer ι δ)
  | raised (error : StoreError ι)

/-- A request, and where it is. -/
structure Call (ι δ : Type) where
  request : Request ι δ
  stage : Stage ι δ

/-- The two tables, and the calls by their transactions. -/
structure Store (τ ι δ : Type) where
  schedules : Keyed ι τ (Definition δ)
  assignments : Keyed String τ ι
  call : τ → Option (Call ι δ)

/-- What a statement comes to. -/
inductive Reply (ι δ : Type) where
  | waits
  | goes (stage : Stage ι δ)
  | schedule (id : ι) (row : Option (Definition δ)) (stage : Stage ι δ)
  | assignment (channelId : String) (row : Option ι) (stage : Stage ι δ)
  | raises (error : StoreError ι)
  | commits (answer : Answer ι δ)

/-- A text of at most `n` characters that Postgres takes: it holds no NUL. -/
def storable (n : ℕ) (text : String) : Bool :=
  decide (text.length ≤ n) && !text.toList.contains (Char.ofNat 0)

variable {τ ι δ : Type} [DecidableEq τ] [DecidableEq ι]

namespace Store
variable (s : Store τ ι δ)

/-! ### What a statement finds -/

/-- The call has written a name that is not checked yet, and not in the index. -/
def isNaming (u : τ) : Bool :=
  match s.call u with
  | some ⟨_, .naming⟩ => true
  | _ => false

/-- The transaction that gives the name up, or has taken it. -/
def holder (name : String) (c : Cell τ (Definition δ)) : Option τ :=
  match c.pending with
  | some (u, v) =>
      if c.committed.any (·.name = name) || (v.any (·.name = name) && !s.isNaming u) then some u
      else none
  | none => none

/-- The index waits for another transaction to end. -/
def nameHeld (t : τ) (id : ι) (name : String) : Bool :=
  s.schedules.any fun id' c => decide (id' ≠ id) && (s.holder name c).any (· ≠ t)

/-- `uq_lighting_schedules_name` refuses the name. -/
def nameTaken (t : τ) (id : ι) (name : String) : Bool :=
  (s.schedules.select t (·.name = name)).any (· ≠ id)

/-- The channels that a statement of `t` finds assigned. -/
def assignedTo (t : τ) (id : ι) : List String := s.assignments.select t (· = id)

/-- Another call's `INSERT` has its foreign key's lock on the row. -/
def keyShared (t : τ) (id : ι) : Bool :=
  s.assignments.any fun _ c =>
    match c.pending with
    | some (u, some id') => decide (u ≠ t ∧ id' = id ∧ c.committed ≠ some id)
    | _ => false

/-- The row is deleted or renamed by another call, so that a foreign key's lock waits. -/
def keyLocked (t : τ) (id : ι) : Bool :=
  match (s.schedules.cell id).pending with
  | some (u, v) =>
      decide (u ≠ t ∧ v.map Definition.name ≠ (s.schedules.cell id).committed.map Definition.name)
  | none => false

/-- `ON DELETE RESTRICT` finds a row that refers to the schedule, and is not on its way out. -/
def referenced (id : ι) : Bool :=
  s.assignments.any fun _ c =>
    decide (c.committed = some id) &&
      match c.pending with
      | some (_, none) => false
      | _ => true

/-- It finds one that is. -/
def leaving (id : ι) : Bool := s.assignments.any fun _ c => decide (c.committed = some id)

/-! ### The methods -/

/-- The next statement of a call. -/
def respond (t : τ) : Request ι δ → Stage ι δ → Reply ι δ
  | .create id d, .called =>
      if !storable 64 d.name then .raises .database
      -- `uuid4` gives no id twice
      else if id ∈ s.schedules.keys then .waits
      else if s.nameHeld t id d.name then .waits
      else if s.nameTaken t id d.name then .raises (.valueError d.name)
      else .schedule id (some d) (.written (.stored id d []))
  | .update id d, .called =>
      if !storable 64 d.name then .raises .database
      else
        match (s.schedules.cell id).view t with
        | none => .raises (.keyError id)
        | some old =>
            if !(s.schedules.cell id).free t then .waits
            else if decide (old.name ≠ d.name) && s.keyShared t id then .waits
            else .schedule id (some d) .naming
  | .update id d, .naming =>
      if s.nameHeld t id d.name then .waits
      else if s.nameTaken t id d.name then .raises (.valueError d.name)
      else .goes .listing
  | .update id d, .listing =>
      .goes (.written (.stored id d ((s.assignedTo t id).insertionSort (· ≤ ·))))
  | .delete id, .called =>
      match (s.assignedTo t id).head? with
      | some channelId => .raises (.scheduleInUse id channelId)
      | none => .goes .checked
  | .delete id, .checked =>
      match (s.schedules.cell id).view t with
      | none => .raises (.keyError id)
      | some _ =>
          if !(s.schedules.cell id).free t || s.keyShared t id then .waits
          else if s.referenced id then .raises .database
          else if s.leaving id then .waits
          else .schedule id none (.written .deleted)
  | .assign _ id, .called =>
      match (s.schedules.cell id).view t with
      | none => .raises (.keyError id)
      | some _ => .goes .checked
  | .assign channelId id, .checked =>
      if !storable 64 channelId then .raises .database
      else if !(s.assignments.cell channelId).free t then .waits
      -- a schedule that stays the same is not checked again
      else if (s.assignments.cell channelId).view t = some id then
        .assignment channelId (some id) (.written .assigned)
      else
        match (s.schedules.cell id).view t with
        | none => .raises .database
        | some _ =>
            if s.keyLocked t id then .waits
            else .assignment channelId (some id) (.written .assigned)
  | .unassign channelId, .called =>
      if !storable channelId.length channelId then .raises .database
      else
        match (s.assignments.cell channelId).view t with
        | none => .goes (.written (.unassigned false))
        | some _ =>
            if !(s.assignments.cell channelId).free t then .waits
            else .assignment channelId none (.written (.unassigned true))
  | _, .written answer => .commits answer
  | _, _ => .waits

/-- To raise is to roll back. -/
def take (t : τ) (r : Request ι δ) : Reply ι δ → Option (Store τ ι δ)
  | .waits => none
  | .goes stage => some { s with call := Function.update s.call t (some ⟨r, stage⟩) }
  | .schedule id row stage =>
      some { s with
        schedules := s.schedules.write t id row
        call := Function.update s.call t (some ⟨r, stage⟩) }
  | .assignment channelId row stage =>
      some { s with
        assignments := s.assignments.write t channelId row
        call := Function.update s.call t (some ⟨r, stage⟩) }
  | .raises e =>
      some {
        schedules := s.schedules.abort t
        assignments := s.assignments.abort t
        call := Function.update s.call t (some ⟨r, .raised e⟩) }
  | .commits answer =>
      some {
        schedules := s.schedules.commit t
        assignments := s.assignments.commit t
        call := Function.update s.call t (some ⟨r, .returned answer⟩) }

/-- A rename waits for another call: it is that one's to give the name up, or not. -/
def waitsFor (t u : τ) : Bool :=
  match s.call t with
  | some ⟨.update id d, .naming⟩ =>
      s.schedules.any fun id' c => decide (id' ≠ id) && decide (s.holder d.name c = some u)
  | _ => false

/-- `assigned_curves`: one join, and a dict of its rows. -/
def assignedCurves : AList fun _ : String => Definition δ :=
  (s.assignments.rows.filterMap fun (channelId, id) =>
    (s.schedules.cell id).committed.map (channelId, ·)).foldl (fun d r => d.insert r.1 r.2) ∅

end Store

/-- A request begins or goes on, or Postgres breaks a deadlock. -/
inductive Action (τ ι δ : Type) where
  | begin (t : τ) (request : Request ι δ)
  /-- The next statement, or the commit. -/
  | run (t : τ)
  /-- Each waits for the next, and the last for the first, which Postgres aborts. -/
  | deadlock (t : τ) (others : List τ)

/-- One statement of one request. -/
def Store.step (s : Store τ ι δ) (a : Action τ ι δ) : Option (Store τ ι δ) :=
  match a with
  | .begin t r =>
      match s.call t with
      | none => some { s with call := Function.update s.call t (some ⟨r, .called⟩) }
      | some _ => none
  | .run t => (s.call t).bind fun c => s.take t c.request (s.respond t c.request c.stage)
  | .deadlock t others =>
      (s.call t).bind fun c =>
        if List.IsChain (fun t u => s.waitsFor t u = true) (t :: others ++ [t]) then
          s.take t c.request (.raises .database)
        else none

/-- The store, and its calls. -/
def store (τ ι δ : Type) [DecidableEq τ] [DecidableEq ι] :
    Machine (Store τ ι δ) (Action τ ι δ) where
  step := fun s a => s.step a

/-! ### What a statement can come to -/

/-- Every reply but to wait, with what was found. -/
inductive Responds (s : Store τ ι δ) (t : τ) : Request ι δ → Stage ι δ → Reply ι δ → Prop where
  | createUnstorable {id : ι} {d : Definition δ} (hs : storable 64 d.name = false) :
      Responds s t (.create id d) .called (.raises .database)
  | createTaken {id : ι} {d : Definition δ} (hs : storable 64 d.name = true) :
      Responds s t (.create id d) .called (.raises (.valueError d.name))
  | created {id : ι} {d : Definition δ} (hs : storable 64 d.name = true)
      (hid : id ∉ s.schedules.keys) :
      Responds s t (.create id d) .called (.schedule id (some d) (.written (.stored id d [])))
  | updateUnstorable {id : ι} {d : Definition δ} (hs : storable 64 d.name = false) :
      Responds s t (.update id d) .called (.raises .database)
  | updateUnknown {id : ι} {d : Definition δ} (hs : storable 64 d.name = true) :
      Responds s t (.update id d) .called (.raises (.keyError id))
  | updated {id : ι} {d : Definition δ} {old : Definition δ} (hs : storable 64 d.name = true)
      (hview : (s.schedules.cell id).view t = some old)
      (hfree : (s.schedules.cell id).free t = true) :
      Responds s t (.update id d) .called (.schedule id (some d) .naming)
  | renameTaken {id : ι} {d : Definition δ} :
      Responds s t (.update id d) .naming (.raises (.valueError d.name))
  | renamed {id : ι} {d : Definition δ} : Responds s t (.update id d) .naming (.goes .listing)
  | listed {id : ι} {d : Definition δ} (assignedChannels : List String) :
      Responds s t (.update id d) .listing (.goes (.written (.stored id d assignedChannels)))
  | deleteInUse {id : ι} {channelId : String} :
      Responds s t (.delete id) .called (.raises (.scheduleInUse id channelId))
  | deleteChecked {id : ι} : Responds s t (.delete id) .called (.goes .checked)
  | deleteUnknown {id : ι} (hview : (s.schedules.cell id).view t = none) :
      Responds s t (.delete id) .checked (.raises (.keyError id))
  | deleteRestricted {id : ι} (href : s.referenced id = true) :
      Responds s t (.delete id) .checked (.raises .database)
  | deleted {id : ι} {old : Definition δ} (hview : (s.schedules.cell id).view t = some old)
      (hfree : (s.schedules.cell id).free t = true) (hshared : s.keyShared t id = false)
      (href : s.referenced id = false) (hleaving : s.leaving id = false) :
      Responds s t (.delete id) .checked (.schedule id none (.written .deleted))
  | assignUnknown {id : ι} {channelId : String} :
      Responds s t (.assign channelId id) .called (.raises (.keyError id))
  | assignChecked {id : ι} {channelId : String} :
      Responds s t (.assign channelId id) .called (.goes .checked)
  | assignUnstorable {id : ι} {channelId : String} (hs : storable 64 channelId = false) :
      Responds s t (.assign channelId id) .checked (.raises .database)
  | assignMissing {id : ι} {channelId : String} (hs : storable 64 channelId = true)
      (hview : (s.schedules.cell id).view t = none) :
      Responds s t (.assign channelId id) .checked (.raises .database)
  | assignedSame {id : ι} {channelId : String} (hs : storable 64 channelId = true)
      (hfree : (s.assignments.cell channelId).free t = true)
      (hview : (s.assignments.cell channelId).view t = some id) :
      Responds s t (.assign channelId id) .checked
        (.assignment channelId (some id) (.written .assigned))
  | assigned {id : ι} {d : Definition δ} {channelId : String} (hs : storable 64 channelId = true)
      (hfree : (s.assignments.cell channelId).free t = true)
      (hview : (s.schedules.cell id).view t = some d) (hlock : s.keyLocked t id = false) :
      Responds s t (.assign channelId id) .checked
        (.assignment channelId (some id) (.written .assigned))
  | unassignUnstorable {channelId : String} (hs : storable channelId.length channelId = false) :
      Responds s t (.unassign channelId) .called (.raises .database)
  | unassignedNone {channelId : String} (hs : storable channelId.length channelId = true) :
      Responds s t (.unassign channelId) .called (.goes (.written (.unassigned false)))
  | unassigned {channelId : String} (hs : storable channelId.length channelId = true)
      (hfree : (s.assignments.cell channelId).free t = true) :
      Responds s t (.unassign channelId) .called
        (.assignment channelId none (.written (.unassigned true)))
  | commits {r : Request ι δ} {answer : Answer ι δ} :
      Responds s t r (.written answer) (.commits answer)

variable {s s' : Store τ ι δ} {a : Action τ ι δ} {t u : τ} {id : ι} {d : Definition δ}
  {channelId : String} {r : Request ι δ} {stage stage' : Stage ι δ} {answer : Answer ι δ}
  {reply : Reply ι δ}

/-- The first statement of a call. -/
theorem responds_called (hne : s.respond t r .called ≠ .waits) :
    Responds s t r .called (s.respond t r .called) := by
  cases r with
  | create id d =>
      simp only [Store.respond] at hne ⊢
      split_ifs at hne ⊢ with hs hid hheld htaken
      · exact .createUnstorable (by simpa using hs)
      · exact absurd rfl hne
      · exact absurd rfl hne
      · exact .createTaken (by simpa using hs)
      · exact .created (by simpa using hs) hid
  | update id d =>
      cases hview : (s.schedules.cell id).view t with
      | none =>
          simp only [Store.respond, hview] at hne ⊢
          split_ifs at hne ⊢ with hs
          · exact .updateUnstorable (by simpa using hs)
          · exact .updateUnknown (by simpa using hs)
      | some old =>
          simp only [Store.respond, hview] at hne ⊢
          split_ifs at hne ⊢ with hs hfree hshared
          · exact .updateUnstorable (by simpa using hs)
          · exact absurd rfl hne
          · exact absurd rfl hne
          · exact .updated (by simpa using hs) hview (by simpa using hfree)
  | delete id =>
      simp only [Store.respond]
      split
      · exact .deleteInUse
      · exact .deleteChecked
  | assign channelId id =>
      simp only [Store.respond]
      split
      · exact .assignUnknown
      · exact .assignChecked
  | unassign channelId =>
      cases hview : (s.assignments.cell channelId).view t with
      | none =>
          simp only [Store.respond, hview] at hne ⊢
          split_ifs at hne ⊢ with hs
          · exact .unassignUnstorable (by simpa using hs)
          · exact .unassignedNone (by simpa using hs)
      | some old =>
          simp only [Store.respond, hview] at hne ⊢
          split_ifs at hne ⊢ with hs hfree
          · exact .unassignUnstorable (by simpa using hs)
          · exact absurd rfl hne
          · exact .unassigned (by simpa using hs) (by simpa using hfree)

/-- The second one of a method that looks before it writes. -/
theorem responds_checked (hne : s.respond t r .checked ≠ .waits) :
    Responds s t r .checked (s.respond t r .checked) := by
  cases r with
  | create | update | unassign => exact absurd rfl hne
  | delete id =>
      cases hview : (s.schedules.cell id).view t with
      | none =>
          simp only [Store.respond, hview]
          exact .deleteUnknown hview
      | some old =>
          simp only [Store.respond, hview] at hne ⊢
          split_ifs at hne ⊢ with hlock href hleaving
          · exact absurd rfl hne
          · exact .deleteRestricted href
          · exact absurd rfl hne
          · rw [Bool.or_eq_true, not_or] at hlock
            exact .deleted hview (by simpa using hlock.1) (by simpa using hlock.2)
              (by simpa using href) (by simpa using hleaving)
  | assign channelId id =>
      cases hview : (s.schedules.cell id).view t with
      | none =>
          simp only [Store.respond, hview] at hne ⊢
          split_ifs at hne ⊢ with hs hfree hsame
          · exact .assignUnstorable (by simpa using hs)
          · exact absurd rfl hne
          · exact .assignedSame (by simpa using hs) (by simpa using hfree) hsame
          · exact .assignMissing (by simpa using hs) hview
      | some old =>
          simp only [Store.respond, hview] at hne ⊢
          split_ifs at hne ⊢ with hs hfree hsame hlock
          · exact .assignUnstorable (by simpa using hs)
          · exact absurd rfl hne
          · exact .assignedSame (by simpa using hs) (by simpa using hfree) hsame
          · exact absurd rfl hne
          · exact .assigned (by simpa using hs) (by simpa using hfree) hview
              (by simpa using hlock)

/-- **Inversion.**  A statement that does not wait comes to one of these. -/
theorem responds (hne : s.respond t r stage ≠ .waits) :
    Responds s t r stage (s.respond t r stage) := by
  cases stage with
  | written answer => cases r <;> exact .commits
  | returned => cases r <;> exact absurd rfl hne
  | raised => cases r <;> exact absurd rfl hne
  | naming =>
      cases r with
      | update id d =>
          simp only [Store.respond] at hne ⊢
          split_ifs with hheld htaken
          · exact absurd (if_pos hheld) hne
          · exact .renameTaken
          · exact .renamed
      | create | delete | assign | unassign => exact absurd rfl hne
  | listing =>
      cases r with
      | update id d => exact .listed _
      | create | delete | assign | unassign => exact absurd rfl hne
  | called => exact responds_called hne
  | checked => exact responds_checked hne

/-! ### What every step keeps -/

/-- What a call has written of a schedule. -/
def scheduleEffect : Request ι δ → Stage ι δ → Option (ι × Option (Definition δ))
  | .create id d, .written _ | .update id d, .naming | .update id d, .listing
  | .update id d, .written _ => some (id, some d)
  | .delete id, .written _ => some (id, none)
  | _, _ => none

/-- What it has written of an assignment. -/
def assignmentEffect : Request ι δ → Stage ι δ → Option (String × Option ι)
  | .assign channelId id, .written _ => some (channelId, some id)
  | .unassign channelId, .written (.unassigned true) => some (channelId, none)
  | _, _ => none

/-- The errors that a method declares. -/
def Request.Declares : Request ι δ → StoreError ι → Prop
  | .create _ d, e => e = .valueError d.name
  | .update id d, e => e = .keyError id ∨ e = .valueError d.name
  | .delete id, e => e = .keyError id ∨ ∃ channelId, e = .scheduleInUse id channelId
  | .assign _ id, e => e = .keyError id
  | .unassign _, _ => False

/-- The channel is assigned to the schedule, or is about to be. -/
def Refers (s : Store τ ι δ) (channelId : String) (id : ι) : Prop :=
  (s.assignments.cell channelId).committed = some id ∨
    ∃ u, (s.assignments.cell channelId).pending = some (u, some id)

/-- The schedule is there, and is not about to go. -/
def Present (s : Store τ ι δ) (id : ι) : Prop :=
  (∃ d, (s.schedules.cell id).committed = some d) ∧
    ∀ u, (s.schedules.cell id).pending ≠ some (u, none)

/-- What every step of the store keeps. -/
structure Sound (s : Store τ ι δ) : Prop where
  refers : ∀ channelId id, Refers s channelId id → Present s id
  /-- A row is written by the call whose stage says so. -/
  schedules : ∀ id u row, (s.schedules.cell id).pending = some (u, row) ↔
    ∃ c, s.call u = some c ∧ scheduleEffect c.request c.stage = some (id, row)
  assignments : ∀ channelId u row, (s.assignments.cell channelId).pending = some (u, row) ↔
    ∃ c, s.call u = some c ∧ assignmentEffect c.request c.stage = some (channelId, row)
  errors : ∀ u c e, s.call u = some c → c.stage = .raised e → c.request.Declares e ∨ e = .database

variable {row : Option (Definition δ)} {row' : Option ι} {e : StoreError ι}

omit [DecidableEq τ] [DecidableEq ι] in
theorem exists_call_iff {c : Call ι δ} {P : Call ι δ → Prop} (hc : s.call t = some c) :
    (∃ c', s.call t = some c' ∧ P c') ↔ P c := by
  refine ⟨fun ⟨c', hc', h⟩ => ?_, fun h => ⟨c, hc, h⟩⟩
  obtain rfl := Option.some.inj (hc.symm.trans hc')
  exact h

omit [DecidableEq τ] [DecidableEq ι] in
/-- What a call has pending in the schedules is what its stage says. -/
theorem Sound.pending_schedule (hS : Sound s) (hc : s.call t = some ⟨r, stage⟩) :
    (s.schedules.cell id).pending = some (t, row) ↔ scheduleEffect r stage = some (id, row) := by
  rw [hS.schedules]
  exact exists_call_iff hc

omit [DecidableEq τ] [DecidableEq ι] in
/-- What it has pending in the assignments, too. -/
theorem Sound.pending_assignment (hS : Sound s) (hc : s.call t = some ⟨r, stage⟩) :
    (s.assignments.cell channelId).pending = some (t, row') ↔
      assignmentEffect r stage = some (channelId, row') := by
  rw [hS.assignments]
  exact exists_call_iff hc

omit [DecidableEq ι] in
/-- A call that has written no schedule sees what is committed. -/
theorem Sound.view_schedule (hS : Sound s) (hc : s.call t = some ⟨r, stage⟩)
    (h : scheduleEffect r stage = none) :
    (s.schedules.cell id).view t = (s.schedules.cell id).committed := by
  refine Cell.view_of_other fun row hp => ?_
  cases h.symm.trans ((hS.pending_schedule hc).mp hp)

omit [DecidableEq ι] in
/-- A call goes on: the others' rows are as they were, and its own are as its stage says. -/
theorem Sound.goesOn (hS : Sound s)
    (hcall : s'.call = Function.update s.call t (some ⟨r, stage'⟩))
    (hrefers : ∀ channelId id, Refers s' channelId id → Present s' id)
    (hschedules : ∀ id u row, u ≠ t → ((s'.schedules.cell id).pending = some (u, row) ↔
      (s.schedules.cell id).pending = some (u, row)))
    (hassignments : ∀ channelId u row, u ≠ t →
      ((s'.assignments.cell channelId).pending = some (u, row) ↔
        (s.assignments.cell channelId).pending = some (u, row)))
    (hselfS : ∀ id row, (s'.schedules.cell id).pending = some (t, row) ↔
      scheduleEffect r stage' = some (id, row))
    (hselfA : ∀ channelId row, (s'.assignments.cell channelId).pending = some (t, row) ↔
      assignmentEffect r stage' = some (channelId, row))
    (herror : ∀ e, stage' = .raised e → r.Declares e ∨ e = .database) : Sound s' := by
  have hself : s'.call t = some ⟨r, stage'⟩ := by rw [hcall, Function.update_self]
  have hother : ∀ u ≠ t, s'.call u = s.call u := fun u hu => by
    rw [hcall, Function.update_of_ne hu]
  refine ⟨hrefers, fun id u row => ?_, fun channelId u row => ?_, fun u c e hc => ?_⟩
  · -- a call's own row is the one that its stage says, and another's has not moved
    by_cases hu : u = t
    · subst hu
      rw [hselfS, exists_call_iff hself]
    · rw [hschedules id u row hu, hS.schedules, hother u hu]
  · by_cases hu : u = t
    · subst hu
      rw [hselfA, exists_call_iff hself]
    · rw [hassignments channelId u row hu, hS.assignments, hother u hu]
  · by_cases hu : u = t
    · subst hu
      obtain rfl := Option.some.inj (hself.symm.trans hc)
      exact herror e
    · exact hS.errors u c e ((hother u hu).symm.trans hc)

/-- A statement that only reads keeps the store sound. -/
theorem Sound.goes (hS : Sound s) (hc : s.call t = some ⟨r, stage⟩)
    (hs : s.take t r (.goes stage') = some s')
    (heffect : scheduleEffect r stage' = scheduleEffect r stage)
    (heffect' : assignmentEffect r stage' = assignmentEffect r stage)
    (hstage : ∀ e, stage' ≠ .raised e) : Sound s' := by
  obtain rfl := Option.some.inj hs
  refine hS.goesOn rfl hS.refers (fun _ _ _ _ => .rfl) (fun _ _ _ _ => .rfl) (fun id row => ?_)
    (fun channelId row => ?_) fun e h => absurd h (hstage e)
  · rw [heffect]
    exact hS.pending_schedule hc
  · rw [heffect']
    exact hS.pending_assignment hc

/-- So does a write of a schedule that nobody else has locked. -/
theorem Sound.writeSchedule (hS : Sound s) (hc : s.call t = some ⟨r, stage⟩)
    (hs : s.take t r (.schedule id row stage') = some s')
    (hfree : (s.schedules.cell id).free t = true)
    (hgone : row = none → ∀ channelId, ¬Refers s channelId id)
    (hbefore : scheduleEffect r stage = none)
    (heffect : scheduleEffect r stage' = some (id, row))
    (heffect' : assignmentEffect r stage' = assignmentEffect r stage)
    (hstage : ∀ e, stage' ≠ .raised e) : Sound s' := by
  obtain rfl := Option.some.inj hs
  refine hS.goesOn rfl (fun channelId id' href => ?_)
    (fun _ _ _ hu => Keyed.pending_write hfree hu) (fun _ _ _ _ => .rfl) (fun id' row' => ?_)
    (fun channelId row => ?_) fun e h => absurd h (hstage e)
  · -- what is referred to has its row still, and it is not this one that goes
    obtain ⟨⟨d, hd⟩, hkept⟩ := hS.refers channelId id' href
    refine ⟨⟨d, Keyed.committed_write.trans hd⟩, fun u hu => ?_⟩
    by_cases hne : id' = id
    · subst hne
      rw [Keyed.cell_write_self] at hu
      exact hgone (Prod.mk.inj (Option.some.inj hu)).2 channelId href
    · rw [Keyed.cell_write_of_ne hne] at hu
      exact hkept u hu
  · rw [heffect]
    by_cases hne : id' = id
    · subst hne
      rw [Keyed.cell_write_self]
      simp [Cell.write]
    · rw [Keyed.cell_write_of_ne hne, hS.pending_schedule hc, hbefore]
      exact iff_of_false nofun fun h => hne (Prod.mk.inj (Option.some.inj h)).1.symm
  · rw [heffect']
    exact hS.pending_assignment hc

/-- So does a write of an assignment to a schedule that stays. -/
theorem Sound.writeAssignment (hS : Sound s) (hc : s.call t = some ⟨r, stage⟩)
    (hs : s.take t r (.assignment channelId row' stage') = some s')
    (hfree : (s.assignments.cell channelId).free t = true)
    (hthere : ∀ id, row' = some id → Present s id)
    (hbefore : assignmentEffect r stage = none)
    (heffect : scheduleEffect r stage' = scheduleEffect r stage)
    (heffect' : assignmentEffect r stage' = some (channelId, row'))
    (hstage : ∀ e, stage' ≠ .raised e) : Sound s' := by
  obtain rfl := Option.some.inj hs
  refine hS.goesOn rfl (fun channelId' id href => ?_) (fun _ _ _ _ => .rfl)
    (fun _ _ _ hu => Keyed.pending_write hfree hu) (fun id row => ?_) (fun channelId' row => ?_)
    fun e h => absurd h (hstage e)
  · -- there is one reference more than before, and its schedule is there
    have hold : Refers s channelId' id ∨ row' = some id := by
      obtain href | ⟨u, hu⟩ := href
      · exact .inl (.inl (Keyed.committed_write.symm.trans href))
      · by_cases hne : channelId' = channelId
        · subst hne
          rw [Keyed.cell_write_self] at hu
          exact .inr (Prod.mk.inj (Option.some.inj hu)).2
        · rw [Keyed.cell_write_of_ne hne] at hu
          exact .inl (.inr ⟨u, hu⟩)
    exact hold.elim (hS.refers channelId' id) (hthere id)
  · rw [heffect]
    exact hS.pending_schedule hc
  · rw [heffect']
    by_cases hne : channelId' = channelId
    · subst hne
      rw [Keyed.cell_write_self]
      simp [Cell.write]
    · rw [Keyed.cell_write_of_ne hne, hS.pending_assignment hc, hbefore]
      exact iff_of_false nofun fun h => hne (Prod.mk.inj (Option.some.inj h)).1.symm

/-- So does a rollback. -/
theorem Sound.rollBack (hS : Sound s) (hs : s.take t r (.raises e) = some s')
    (he : r.Declares e ∨ e = .database) : Sound s' := by
  obtain rfl := Option.some.inj hs
  refine hS.goesOn rfl (fun channelId id href => ?_)
    (fun _ _ _ hu => Keyed.pending_abort.trans (and_iff_right hu))
    (fun _ _ _ hu => Keyed.pending_abort.trans (and_iff_right hu))
    (fun id row => iff_of_false (fun h => (Keyed.pending_abort.mp h).1 rfl) ?_)
    (fun channelId row => iff_of_false (fun h => (Keyed.pending_abort.mp h).1 rfl) ?_)
    fun e' h => ?_
  · -- what is referred to afterwards was before
    have hold : Refers s channelId id :=
      href.imp (Keyed.committed_abort.symm.trans ·) fun ⟨u, hu⟩ =>
        ⟨u, (Keyed.pending_abort.mp hu).2⟩
    obtain ⟨⟨d, hd⟩, hkept⟩ := hS.refers channelId id hold
    exact ⟨⟨d, Keyed.committed_abort.trans hd⟩, fun u hu => hkept u (Keyed.pending_abort.mp hu).2⟩
  · cases r <;> exact nofun
  · cases r <;> exact nofun
  · obtain rfl := Stage.raised.inj h
    exact he

/-- So does a commit. -/
theorem Sound.commit (hS : Sound s) (hs : s.take t r (.commits answer) = some s') : Sound s' := by
  obtain rfl := Option.some.inj hs
  refine hS.goesOn rfl (fun channelId id href => ?_)
    (fun _ _ _ hu => Keyed.pending_commit.trans (and_iff_right hu))
    (fun _ _ _ hu => Keyed.pending_commit.trans (and_iff_right hu))
    (fun id row => iff_of_false (fun h => (Keyed.pending_commit.mp h).1 rfl) ?_)
    (fun channelId row => iff_of_false (fun h => (Keyed.pending_commit.mp h).1 rfl) ?_) nofun
  · have hold : Refers s channelId id := by
      obtain href | ⟨u, hu⟩ := href
      · obtain ⟨v, hv, heq⟩ | ⟨-, heq⟩ := Keyed.committed_commit (T := s.assignments) (t := t)
        · exact .inr ⟨t, by rw [hv, ← heq, href]⟩
        · exact .inl (heq.symm.trans href)
      · exact .inr ⟨u, (Keyed.pending_commit.mp hu).2⟩
    obtain ⟨⟨d, hd⟩, hkept⟩ := hS.refers channelId id hold
    refine ⟨?_, fun u hu => hkept u (Keyed.pending_commit.mp hu).2⟩
    -- a row that is about to go is referred to by nothing, so that the commit takes none away
    obtain ⟨v, hv, heq⟩ | ⟨-, heq⟩ := Keyed.committed_commit (T := s.schedules) (t := t) (k := id)
    · cases v with
      | none => exact absurd hv (hkept t)
      | some d' => exact ⟨d', heq⟩
    · exact ⟨d, heq.trans hd⟩
  · cases r <;> exact nofun
  · cases r <;> exact nofun

/-! ### What was found -/

omit [DecidableEq τ] in
/-- A schedule that is leaving is assigned to nothing. -/
theorem committed_of_leaving (h : s.leaving id = false) (channelId : String) :
    (s.assignments.cell channelId).committed ≠ some id := by
  intro hc
  have hany : s.leaving id = true :=
    (Keyed.any_iff fun _ => rfl).mpr ⟨channelId, decide_eq_true hc⟩
  exact Bool.false_ne_true (h.symm.trans hany)

/-- Where nobody else shares its key, whoever is to assign the schedule had it assigned already. -/
theorem committed_of_keyShared (h : s.keyShared t id = false) (hu : u ≠ t)
    (hp : (s.assignments.cell channelId).pending = some (u, some id)) :
    (s.assignments.cell channelId).committed = some id := by
  by_contra hc
  have hany : s.keyShared t id = true := by
    refine (Keyed.any_iff fun _ => rfl).mpr ⟨channelId, ?_⟩
    rw [hp]
    exact decide_eq_true ⟨hu, rfl, hc⟩
  exact Bool.false_ne_true (h.symm.trans hany)

/-- Nothing refers to the schedule that a `DELETE` gets past. -/
theorem Sound.not_refers (hS : Sound s) (hc : s.call t = some ⟨.delete id, stage⟩)
    (hshared : s.keyShared t id = false) (hleaving : s.leaving id = false) (channelId : String) :
    ¬Refers s channelId id := by
  rintro (href | ⟨u, hu⟩)
  · exact committed_of_leaving hleaving channelId href
  · by_cases hut : u = t
    · subst hut
      -- a `DELETE` writes no assignment of its own
      have heffect := (hS.pending_assignment hc).mp hu
      cases stage <;> cases heffect
    · exact committed_of_leaving hleaving channelId (committed_of_keyShared hshared hut hu)

omit [DecidableEq ι] in
/-- A schedule that the foreign key's lock is taken on is there to stay. -/
theorem Sound.present (hS : Sound s) (hc : s.call t = some ⟨.assign channelId id, stage⟩)
    (hview : (s.schedules.cell id).view t = some d) (hlock : s.keyLocked t id = false) :
    Present s id := by
  have hbefore : scheduleEffect (.assign channelId id : Request ι δ) stage = none := by
    cases stage <;> rfl
  rw [hS.view_schedule hc hbefore] at hview
  refine ⟨⟨d, hview⟩, fun u hu => ?_⟩
  by_cases hut : u = t
  · subst hut
    cases hbefore.symm.trans ((hS.pending_schedule hc).mp hu)
  · have hlocked : s.keyLocked t id = true := by
      rw [Store.keyLocked, hu]
      exact decide_eq_true ⟨hut, by rw [hview]; nofun⟩
    exact Bool.false_ne_true (hlock.symm.trans hlocked)

omit [DecidableEq ι] in
/-- So is the one that the channel is assigned to already. -/
theorem Sound.present_same (hS : Sound s)
    (hview : (s.assignments.cell channelId).view t = some id) : Present s id := by
  refine hS.refers channelId id ?_
  obtain ⟨v, hv⟩ | hother := Cell.pending_cases t (s.assignments.cell channelId)
  · simp only [Cell.view, hv, if_true] at hview
    exact .inr ⟨t, by rw [hv, hview]⟩
  · exact .inl ((Cell.view_of_other hother).symm.trans hview)

/-- **Each statement keeps the store sound.** -/
theorem Sound.take (hS : Sound s) (hc : s.call t = some ⟨r, stage⟩)
    (hr : Responds s t r stage reply) (hs : s.take t r reply = some s') : Sound s' := by
  cases hr with
  | created _ hid =>
      refine hS.writeSchedule hc hs ?_ nofun rfl rfl rfl nofun
      rw [s.schedules.known _ hid]
      rfl
  | updated _ _ hfree => exact hS.writeSchedule hc hs hfree nofun rfl rfl rfl nofun
  | deleted _ hfree hshared _ hleaving =>
      exact hS.writeSchedule hc hs hfree (fun _ => hS.not_refers hc hshared hleaving) rfl rfl rfl
        nofun
  | assignedSame _ hfree hview =>
      refine hS.writeAssignment hc hs hfree (fun id hid => ?_) rfl rfl rfl nofun
      exact Option.some.inj hid ▸ hS.present_same hview
  | assigned _ hfree hview hlock =>
      refine hS.writeAssignment hc hs hfree (fun id hid => ?_) rfl rfl rfl nofun
      exact Option.some.inj hid ▸ hS.present hc hview hlock
  | unassigned _ hfree => exact hS.writeAssignment hc hs hfree nofun rfl rfl rfl nofun
  | renamed | listed | deleteChecked | assignChecked | unassignedNone =>
      exact hS.goes hc hs rfl rfl nofun
  | commits => exact hS.commit hs
  | createTaken | assignUnknown => exact hS.rollBack hs (.inl rfl)
  | updateUnknown | deleteUnknown => exact hS.rollBack hs (.inl (.inl rfl))
  | renameTaken => exact hS.rollBack hs (.inl (.inr rfl))
  | deleteInUse => exact hS.rollBack hs (.inl (.inr ⟨_, rfl⟩))
  | createUnstorable | updateUnstorable | deleteRestricted | assignUnstorable | assignMissing
  | unassignUnstorable => exact hS.rollBack hs (.inr rfl)

/-! ### Every step -/

/-- A step is a call that begins, or a statement, or a deadlock that is broken. -/
theorem step_cases (hs : (store τ ι δ).step s a = some s') :
    (∃ t r, a = .begin t r ∧ s.call t = none ∧
      s' = { s with call := Function.update s.call t (some ⟨r, .called⟩) }) ∨
    (∃ t r stage, a = .run t ∧ s.call t = some ⟨r, stage⟩ ∧
      Responds s t r stage (s.respond t r stage) ∧
      s.take t r (s.respond t r stage) = some s') ∨
    ∃ t others r, a = .deadlock t others ∧ s.call t = some ⟨r, .naming⟩ ∧
      s.take t r (.raises .database) = some s' := by
  change s.step a = some s' at hs
  cases a with
  | begin t r =>
      simp only [Store.step] at hs
      split at hs
      · next hnone => exact .inl ⟨t, r, rfl, hnone, (Option.some.inj hs).symm⟩
      · cases hs
  | run t =>
      obtain ⟨⟨r, stage⟩, hc, hs⟩ := Option.bind_eq_some_iff.mp hs
      refine .inr (.inl ⟨t, r, stage, rfl, hc, responds fun hwaits => ?_, hs⟩)
      simp only [hwaits] at hs
      cases hs
  | deadlock t others =>
      obtain ⟨⟨r, stage⟩, hc, hs⟩ := Option.bind_eq_some_iff.mp hs
      obtain ⟨hchain, hs⟩ := Option.ite_none_right_eq_some.mp hs
      -- the cycle has at least one edge, and only a rename waits
      have hwaits : ∃ u, s.waitsFor t u = true := by
        cases others with
        | nil => exact ⟨t, (List.isChain_cons_cons.mp hchain).1⟩
        | cons u others => exact ⟨u, (List.isChain_cons_cons.mp hchain).1⟩
      obtain ⟨u, hu⟩ := hwaits
      simp only [Store.waitsFor, hc] at hu
      split at hu
      · next heq =>
          obtain ⟨-, rfl⟩ := Call.mk.inj (Option.some.inj heq)
          exact .inr (.inr ⟨t, others, r, rfl, hc, hs⟩)
      · cases hu

/-- **Step.**  The store stays sound. -/
theorem sound_step (hS : Sound s) (hs : (store τ ι δ).step s a = some s') : Sound s' := by
  obtain ⟨t, r, rfl, hnone, rfl⟩ | ⟨t, r, stage, rfl, hc, hr, hs⟩ | ⟨t, others, r, rfl, hc, hs⟩ :=
    step_cases hs
  · -- a call that begins has written nothing
    refine hS.goesOn rfl hS.refers (fun _ _ _ _ => .rfl) (fun _ _ _ _ => .rfl) (fun id row => ?_)
      (fun channelId row => ?_) nofun
    · rw [hS.schedules, hnone]
      cases r <;> exact iff_of_false (fun ⟨c, hc, _⟩ => nomatch hc) nofun
    · rw [hS.assignments, hnone]
      cases r <;> exact iff_of_false (fun ⟨c, hc, _⟩ => nomatch hc) nofun
  · exact hS.take hc hr hs
  · exact hS.rollBack hs (.inr rfl)

/-! ### Errors of the database's own -/

/-- What a statement is spared: a text that Postgres cannot hold, and the foreign key, from either
side. -/
def Spared (s : Store τ ι δ) : Request ι δ → Stage ι δ → Prop
  | .create _ d, .called | .update _ d, .called => storable 64 d.name = true
  | .delete id, .checked => ∀ channelId, (s.assignments.cell channelId).committed = some id →
      ∃ u, (s.assignments.cell channelId).pending = some (u, none)
  | .assign channelId id, .checked =>
      storable 64 channelId = true ∧ ∃ d, (s.schedules.cell id).committed = some d
  | .unassign channelId, .called => storable channelId.length channelId = true
  | _, _ => True

/-- A step that is no broken deadlock, and whose statement is spared. -/
def Clean (s : Store τ ι δ) : Action τ ι δ → Prop
  | .begin _ _ => True
  | .run t => ∀ c, s.call t = some c → Spared s c.request c.stage
  | .deadlock _ _ => False

omit [DecidableEq τ] in
/-- A schedule is referenced if a committed assignment names it that no call has pending to go. -/
theorem referenced_iff : s.referenced id = true ↔
    ∃ channelId, (s.assignments.cell channelId).committed = some id ∧
      ∀ u, (s.assignments.cell channelId).pending ≠ some (u, none) := by
  rw [Store.referenced, Keyed.any_iff fun _ => rfl]
  refine exists_congr fun channelId => ?_
  rw [Bool.and_eq_true, decide_eq_true_iff]
  refine and_congr_right fun _ => ?_
  rcases (s.assignments.cell channelId).pending with _ | ⟨u, _ | v⟩ <;> simp

/-- **Where the database speaks for itself.** -/
theorem database_iff (hS : Sound s) (hc : s.call t = some ⟨r, stage⟩)
    (hr : Responds s t r stage reply) : reply = .raises .database ↔ ¬Spared s r stage := by
  cases hr with
  | createUnstorable hs | updateUnstorable hs | unassignUnstorable hs =>
      exact iff_of_true rfl (Bool.eq_false_iff.mp hs)
  | createTaken hs | created hs | updateUnknown hs | updated hs | unassignedNone hs
  | unassigned hs => exact iff_of_false nofun (not_not.mpr hs)
  | renameTaken | renamed | listed | deleteInUse | deleteChecked | assignUnknown
  | assignChecked => exact iff_of_false nofun (not_not.mpr trivial)
  | commits => cases r <;> exact iff_of_false nofun (not_not.mpr trivial)
  -- a row that is not there has no reference to it either
  | deleteUnknown hview =>
      refine iff_of_false nofun (not_not.mpr fun channelId href => ?_)
      obtain ⟨⟨d, hd⟩, -⟩ := hS.refers channelId _ (.inl href)
      rw [hS.view_schedule hc rfl, hd] at hview
      cases hview
  | deleteRestricted href =>
      obtain ⟨channelId, hcomm, hpend⟩ := referenced_iff.mp href
      refine iff_of_true rfl fun hspared => ?_
      obtain ⟨u, hu⟩ := hspared channelId hcomm
      exact hpend u hu
  | deleted _ _ _ _ hleaving =>
      exact iff_of_false nofun (not_not.mpr fun channelId hcomm =>
        absurd hcomm (committed_of_leaving hleaving channelId))
  | assignUnstorable hs => exact iff_of_true rfl fun h => Bool.false_ne_true (hs.symm.trans h.1)
  | assignMissing _ hview =>
      refine iff_of_true rfl fun h => ?_
      obtain ⟨d, hd⟩ := h.2
      rw [hS.view_schedule hc rfl, hd] at hview
      cases hview
  -- both writes of an assignment find its schedule committed
  | assignedSame hs _ hview =>
      exact iff_of_false nofun (not_not.mpr ⟨hs, (hS.present_same hview).1⟩)
  | assigned hs _ hview hlock =>
      exact iff_of_false nofun (not_not.mpr ⟨hs, (hS.present hc hview hlock).1⟩)

/-- A call has ended in an error of the database's own. -/
def Failed (s : Store τ ι δ) : Prop := ∃ t r, s.call t = some ⟨r, .raised .database⟩

/-- A call that takes a step had not ended, and ends in an error just if it raises it. -/
theorem call_take (hr : Responds s t r stage reply) (hs : s.take t r reply = some s') :
    (∀ e, stage ≠ .raised e) ∧ ∃ stage', s'.call = Function.update s.call t (some ⟨r, stage'⟩) ∧
      (stage' = .raised .database ↔ reply = .raises .database) := by
  cases hr <;> obtain rfl := Option.some.inj hs <;> refine ⟨nofun, _, rfl, ?_⟩ <;> simp

/-- What has failed stays failed. -/
theorem failed_stays (hf : Failed s) (hs : (store τ ι δ).step s a = some s') : Failed s' := by
  -- a call that has ended takes no step again
  obtain ⟨u, r', hu⟩ := hf
  have hkeeps : ∀ t r stage, s.call t = some ⟨r, stage⟩ → (∀ e, stage ≠ .raised e) → u ≠ t := by
    rintro t r stage hc hne rfl
    exact hne _ (congrArg Call.stage (Option.some.inj (hc.symm.trans hu)))
  refine ⟨u, r', ?_⟩
  obtain ⟨t, r, rfl, hnone, rfl⟩ | ⟨t, r, stage, rfl, hc, hr, hs⟩ | ⟨t, others, r, rfl, hc, hs⟩ :=
    step_cases hs
  · have hut : u ≠ t := by
      rintro rfl
      cases hnone.symm.trans hu
    exact (Function.update_of_ne hut ..).trans hu
  · obtain ⟨hne, stage', hcall, -⟩ := call_take hr hs
    rw [hcall]
    exact (Function.update_of_ne (hkeeps t r stage hc hne) ..).trans hu
  · obtain rfl := Option.some.inj hs
    exact (Function.update_of_ne (hkeeps t r _ hc nofun) ..).trans hu

/-- **One step**: it fails if and only if it is not clean. -/
theorem failed_iff (hS : Sound s) (hf : ¬Failed s) (hs : (store τ ι δ).step s a = some s') :
    Failed s' ↔ ¬Clean s a := by
  obtain ⟨t, r, rfl, hnone, rfl⟩ | ⟨t, r, stage, rfl, hc, hr, hs⟩ | ⟨t, others, r, rfl, hc, hs⟩ :=
    step_cases hs
  · refine iff_of_false (fun ⟨u, r', hu⟩ => ?_) (not_not.mpr trivial)
    by_cases hut : u = t
    · subst hut
      cases (Function.update_self ..).symm.trans hu
    · exact hf ⟨u, r', (Function.update_of_ne hut ..).symm.trans hu⟩
  · have hclean : Clean s (.run t) ↔ Spared s r stage := by
      refine ⟨fun h => h _ hc, fun h c hc' => ?_⟩
      obtain rfl := Option.some.inj (hc.symm.trans hc')
      exact h
    obtain ⟨-, stage', hcall, hstage⟩ := call_take hr hs
    rw [hclean, ← database_iff hS hc hr, ← hstage]
    constructor
    · rintro ⟨u, r', hu⟩
      rw [hcall] at hu
      by_cases hut : u = t
      · subst hut
        rw [Function.update_self] at hu
        exact congrArg Call.stage (Option.some.inj hu)
      · exact absurd ⟨u, r', (Function.update_of_ne hut ..).symm.trans hu⟩ hf
    · rintro rfl
      exact ⟨t, r, by rw [hcall, Function.update_self]⟩
  · obtain rfl := Option.some.inj hs
    exact iff_of_true ⟨t, r, Function.update_self ..⟩ id

/-! ### Every run -/

/-- A store that no call has begun on. -/
structure Starts (s : Store τ ι δ) : Prop where
  schedules : s.schedules.Settled
  assignments : s.assignments.Settled
  calls : ∀ t, s.call t = none
  refers : ∀ channelId id, (s.assignments.cell channelId).committed = some id →
    ∃ d, (s.schedules.cell id).committed = some d

omit [DecidableEq τ] [DecidableEq ι] in
/-- A store that starts is sound. -/
theorem sound_start (h : Starts s) : Sound s where
  refers := by
    rintro channelId id (href | ⟨u, hu⟩)
    · exact ⟨h.refers channelId id href, fun u hu => nomatch (h.schedules id).symm.trans hu⟩
    · cases (h.assignments channelId).symm.trans hu
  schedules id u row := iff_of_false (fun hu => nomatch (h.schedules id).symm.trans hu)
    fun ⟨_, hc, _⟩ => nomatch (h.calls u).symm.trans hc
  assignments channelId u row :=
    iff_of_false (fun hu => nomatch (h.assignments channelId).symm.trans hu)
      fun ⟨_, hc, _⟩ => nomatch (h.calls u).symm.trans hc
  errors u _ _ hc := nomatch (h.calls u).symm.trans hc

/-- What a call that returns has done. -/
def TakesEffect (s : Store τ ι δ) : Request ι δ → Answer ι δ → Prop
  | .create id d, _ | .update id d, _ => (s.schedules.cell id).committed = some d
  | .delete id, _ => (s.schedules.cell id).committed = none
  | .assign channelId id, _ => (s.assignments.cell channelId).committed = some id
  | .unassign channelId, .unassigned true => (s.assignments.cell channelId).committed = none
  | .unassign _, _ => True

/-- **A commit does what its request asked.** -/
theorem commit_takesEffect (hS : Sound s) (hc : s.call t = some ⟨r, .written answer⟩)
    (hs : (store τ ι δ).step s (.run t) = some s') : TakesEffect s' r answer := by
  have hs : s.take t r (s.respond t r (.written answer)) = some s' := by
    obtain ⟨c, hc', hs⟩ := Option.bind_eq_some_iff.mp hs
    obtain rfl := Option.some.inj (hc.symm.trans hc')
    exact hs
  have hcommits : s.respond t r (.written answer) = .commits answer := by cases r <;> rfl
  rw [hcommits] at hs
  obtain rfl := Option.some.inj hs
  -- the commit makes of what the call has pending what is there
  have hschedule : ∀ id row, scheduleEffect r (.written answer) = some (id, row) →
      ((s.schedules.commit t).cell id).committed = row := fun id row h => by
    rw [Keyed.cell_commit, Cell.commit_of_pending ((hS.pending_schedule hc).mpr h)]
  have hassignment : ∀ channelId row, assignmentEffect r (.written answer) = some (channelId, row) →
      ((s.assignments.commit t).cell channelId).committed = row := fun channelId row h => by
    rw [Keyed.cell_commit, Cell.commit_of_pending ((hS.pending_assignment hc).mpr h)]
  cases r with
  | create | update | delete => exact hschedule _ _ rfl
  | assign => exact hassignment _ _ rfl
  | unassign channelId =>
      cases answer with
      | unassigned existed =>
          cases existed with
          | true => exact hassignment _ _ rfl
          | false => trivial
      | stored | deleted | assigned => trivial

/-- What the scheduler reads: each assigned channel's one curve, as it is now, and no others. -/
structure Answers (s : Store τ ι δ) : Prop where
  assigned : ∀ channelId id, (s.assignments.cell channelId).committed = some id →
    ∃ d, (s.schedules.cell id).committed = some d ∧ s.assignedCurves.lookup channelId = some d
  only : ∀ channelId, (s.assignments.cell channelId).committed = none →
    s.assignedCurves.lookup channelId = none

omit [DecidableEq τ] [DecidableEq ι] in
/-- The curves are of committed assignments to committed schedules. -/
theorem lookup_assignedCurves : s.assignedCurves.lookup channelId = some d ↔
    ∃ id, (s.assignments.cell channelId).committed = some id ∧
      (s.schedules.cell id).committed = some d := by
  rw [Store.assignedCurves, lookup_dict, List.mem_filterMap]
  · constructor
    · rintro ⟨⟨channelId', id⟩, hrow, hd⟩
      obtain ⟨d', hd', heq⟩ := Option.map_eq_some_iff.mp hd
      obtain ⟨rfl, rfl⟩ := Prod.mk.inj heq
      exact ⟨id, Keyed.mem_rows.mp hrow, hd'⟩
    · rintro ⟨id, hc, hd⟩
      exact ⟨(channelId, id), Keyed.mem_rows.mpr hc, by simp only [hd, Option.map_some]⟩
  · -- the join has no more rows than the assignments it starts from
    have hrows := List.pairwise_map.mp (Keyed.nodup_rows (T := s.assignments))
    refine List.pairwise_map.mpr (hrows.filterMap _ fun p p' hne q hq q' hq' => ?_)
    obtain ⟨d, -, rfl⟩ := Option.map_eq_some_iff.mp hq
    obtain ⟨d', -, rfl⟩ := Option.map_eq_some_iff.mp hq'
    exact hne

omit [DecidableEq τ] [DecidableEq ι] in
/-- What a sound store answers is so. -/
theorem Sound.answers (hS : Sound s) : Answers s where
  assigned channelId id hc := by
    obtain ⟨⟨d, hd⟩, -⟩ := hS.refers channelId id (.inl hc)
    exact ⟨d, hd, lookup_assignedCurves.mpr ⟨id, hc, hd⟩⟩
  only channelId hnone := by
    refine Option.eq_none_iff_forall_ne_some.mpr fun d hd => ?_
    obtain ⟨id, hc, -⟩ := lookup_assignedCurves.mp hd
    cases hnone.symm.trans hc

/-- Every call that has raised an error has declared it. -/
def Declared (s : Store τ ι δ) : Prop :=
  ∀ t r e, s.call t = some ⟨r, .raised e⟩ → r.Declares e

omit [DecidableEq ι] in
theorem not_declares_database (r : Request ι δ) : ¬r.Declares .database := by
  cases r <;> simp [Request.Declares]

omit [DecidableEq τ] [DecidableEq ι] in
/-- A request raises something undeclared exactly where the database failed it. -/
theorem Sound.declared_iff (hS : Sound s) : Declared s ↔ ¬Failed s := by
  constructor
  · rintro h ⟨t, r, hc⟩
    exact not_declares_database r (h t r _ hc)
  · intro hf t r e hc
    refine (hS.errors t _ e hc rfl).resolve_right ?_
    rintro rfl
    exact hf ⟨t, r, hc⟩

/-- **The schedule store**: no assignment names a missing schedule, the scheduler reads each
channel's one curve, and a call that returns has done what it was to do.  That a call that does not
has an error of its own to say so is just that every step was clean. -/
theorem schedule_store_iff {s₀ s : Store τ ι δ} {as : List (Action τ ι δ)} (h₀ : Starts s₀)
    (hrun : (store τ ι δ).Run s₀ as s) :
    (∀ channelId id, (s.assignments.cell channelId).committed = some id →
      ∃ d, (s.schedules.cell id).committed = some d) ∧
    Answers s ∧
    (∀ t r answer s', s.call t = some ⟨r, .written answer⟩ →
      (store τ ι δ).step s (.run t) = some s' → TakesEffect s' r answer) ∧
    (Declared s ↔ (store τ ι δ).RunIf Clean s₀ as s) := by
  have hS : Sound s := hrun.invariant (sound_start h₀) fun _ _ _ _ => sound_step
  refine ⟨fun channelId id hc => (hS.refers channelId id (.inl hc)).1, hS.answers,
    fun t r answer s' => commit_takesEffect hS, ?_⟩
  have hf₀ : ¬Failed s₀ := fun ⟨t, r, hc⟩ => nomatch (h₀.calls t).symm.trans hc
  -- clean steps keep both, and a step that is not makes a failure that stays
  have hgood : ∀ s a s', Clean s a → Sound s ∧ ¬Failed s → (store τ ι δ).step s a = some s' →
      Sound s' ∧ ¬Failed s' := fun s a s' hC h hs =>
    ⟨sound_step h.1 hs, fun hf => (failed_iff h.1 h.2 hs).mp hf hC⟩
  rw [hS.declared_iff]
  constructor
  · exact hrun.of_not_bad ⟨sound_start h₀, hf₀⟩ hgood
      (fun s a s' hC h hs => (failed_iff h.1 h.2 hs).mpr hC) fun _ _ _ => failed_stays
  · exact fun h => (h.invariant ⟨sound_start h₀, hf₀⟩ hgood).2

/-! ### Three runs -/

/-- A schedule. -/
def day : Definition Unit := ⟨"day", (), by decide⟩

/-- Another. -/
def night : Definition Unit := ⟨"night", (), by decide⟩

/-- Two schedules, and no channel. -/
def twoSchedules : Store ℕ ℕ Unit where
  schedules := Keyed.ofRows [(0, day), (1, night)] (by decide)
  assignments := Keyed.ofRows [] (by decide)
  call := fun _ => none

theorem starts_twoSchedules : Starts twoSchedules :=
  ⟨fun _ => rfl, fun _ => rfl, fun _ => rfl, fun _ _ h => nomatch h⟩

/-- The call has raised an exception of the driver's. -/
def raisesDatabase (s : Store ℕ ℕ Unit) (t : ℕ) : Bool :=
  match s.call t with
  | some ⟨_, .raised .database⟩ => true
  | _ => false

theorem not_declared_of_raises {s : Store ℕ ℕ Unit} {t : ℕ} (h : raisesDatabase s t = true) :
    ¬Declared s := by
  intro hd
  rw [raisesDatabase] at h
  split at h
  · next r hc => exact not_declares_database r (hd t r _ hc)
  · cases h

/-- An assignment that commits between the check of a `delete` and its `DELETE`. -/
def assignedMeanwhile : List (Action ℕ ℕ Unit) :=
  [.begin 0 (.assign "led-blue" 0), .run 0, .begin 1 (.delete 0), .run 1, .run 0, .run 0, .run 1]

/-- A deletion that commits between the check of an `assign` and its `INSERT`. -/
def deletedMeanwhile : List (Action ℕ ℕ Unit) :=
  [.begin 0 (.assign "led-blue" 0), .run 0, .begin 1 (.delete 0), .run 1, .run 1, .run 1, .run 0]

/-- Two schedules that take each other's names. -/
def swappedNames : List (Action ℕ ℕ Unit) :=
  [.begin 0 (.update 0 night), .run 0, .begin 1 (.update 1 day), .run 1, .deadlock 0 [1]]

/-- A run that is cut short by the database. -/
theorem undeclared_of_exec {as : List (Action ℕ ℕ Unit)}
    (h : ((store ℕ ℕ Unit).exec twoSchedules as).any
      (fun s => raisesDatabase s 0 || raisesDatabase s 1) = true) :
    ∃ s, (store ℕ ℕ Unit).Run twoSchedules as s ∧ ¬Declared s := by
  obtain ⟨s, hexec, hraises⟩ := (Option.any_eq_true _ _).mp h
  refine ⟨s, Machine.exec_eq_some.mp hexec, fun hd => ?_⟩
  obtain h | h := Bool.or_eq_true_iff.mp hraises
  · exact not_declared_of_raises h hd
  · exact not_declared_of_raises h hd

/-- A schedule is deleted while it is assigned, assigned while it is deleted, and two are swapped at
once. -/
theorem not_schedule_store :
    (∃ s, (store ℕ ℕ Unit).Run twoSchedules assignedMeanwhile s ∧ ¬Declared s) ∧
      (∃ s, (store ℕ ℕ Unit).Run twoSchedules deletedMeanwhile s ∧ ¬Declared s) ∧
      ∃ s, (store ℕ ℕ Unit).Run twoSchedules swappedNames s ∧ ¬Declared s :=
  ⟨undeclared_of_exec (by decide +kernel), undeclared_of_exec (by decide +kernel),
    undeclared_of_exec (by decide +kernel)⟩

/-- The run in which the `DELETE` meets the foreign key. -/
theorem schedule_store_iff_assignedMeanwhile : ∃ s,
    (store ℕ ℕ Unit).Run twoSchedules assignedMeanwhile s ∧ Answers s ∧
      ¬(store ℕ ℕ Unit).RunIf Clean twoSchedules assignedMeanwhile s := by
  have heval : ((store ℕ ℕ Unit).exec twoSchedules assignedMeanwhile).any
      (fun s => raisesDatabase s 1) = true := by decide +kernel
  obtain ⟨s, hexec, hraises⟩ := (Option.any_eq_true _ _).mp heval
  have hrun := Machine.exec_eq_some.mp hexec
  obtain ⟨-, hanswers, -, hdeclared⟩ := schedule_store_iff starts_twoSchedules hrun
  exact ⟨s, hrun, hanswers, fun h => not_declared_of_raises hraises (hdeclared.mpr h)⟩

end BellasReef.Db.Schedules
