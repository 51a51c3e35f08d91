import BellasReef.Support.Machine
import BellasReef.Support.KeyedTable
import Mathlib.Algebra.Order.Ring.Rat
import Mathlib.Data.Fintype.Basic

/-!
# Api — FirstBoot

What the hub writes when it is first asked for, and never again: its identity (`Store.hub_id`) and
the key that signs its tokens (`Store.signing_secret`, and the cache of each process before it).

Both look first and write where there is nothing, and others may do the same meanwhile.  The unique
index of `hub_identity` decides which write counts; `signing_keys` has none.

* `one_identity`: every answer, in every interleaving, is the row's id.
* `one_signing_key`: every answer is the one key's secret, where none is committed while another call
  has looked and found none; `not_one_signing_key`: otherwise there may be two.
-/

namespace BellasReef.Api.FirstBoot
open BellasReef.Support

/-! ### The identity -/

/-- A call of `hub_id`. -/
inductive Naming (υ : Type) where
  | idle
  | looking
  /-- There is no row. -/
  | minting
  | inserting (id : υ)
  | rereading (id : υ)
  /-- The transaction has the answer, and is about to commit. -/
  | leaving (id : υ)
  deriving DecidableEq

/-- `hub_identity`, of which `singleton` is unique and true: one row at most. -/
structure Identity (κ υ : Type) where
  row : Cell κ υ
  calls : κ → Naming υ

/-- A call of `ensure_identity` arrives, goes on, or is answered. -/
inductive NamingAction (κ υ : Type) where
  | arrive (k : κ)
  | select (k : κ)
  /-- `uuid4`. -/
  | mint (k : κ) (id : υ)
  | insert (k : κ)
  | reread (k : κ)
  | commit (k : κ)
  /-- The call raises, or its process stops. -/
  | fail (k : κ)
  deriving DecidableEq

section Naming
variable {κ υ : Type} [DecidableEq κ]

/-- Call `k` is now at `p`. -/
def Identity.become (s : Identity κ υ) (k : κ) (p : Naming υ) : Identity κ υ :=
  { s with calls := Function.update s.calls k p }

/-- `INSERT ... ON CONFLICT (singleton) DO NOTHING`; `none` while it waits for another's. -/
def insertIdentity (k : κ) (id : υ) (row : Cell κ υ) : Option (Cell κ υ) :=
  if row.free k then
    match row.view k with
    | some _ => some row
    | none => some (row.write k (some id))
  else none

/-- One step of one call. -/
def Identity.step (s : Identity κ υ) : NamingAction κ υ → Option (Identity κ υ)
  | .arrive k => if (s.calls k) matches .idle then some (s.become k .looking) else none
  | .select k =>
      match s.calls k with
      | .looking => some (s.become k ((s.row.view k).elim .minting .leaving))
      | _ => none
  | .mint k id => if (s.calls k) matches .minting then some (s.become k (.inserting id)) else none
  | .insert k =>
      match s.calls k with
      | .inserting id =>
          (insertIdentity k id s.row).map fun row => { s.become k (.rereading id) with row := row }
      | _ => none
  | .reread k =>
      match s.calls k with
      | .rereading id => some (s.become k (.leaving ((s.row.view k).getD id)))
      | _ => none
  | .commit k =>
      match s.calls k with
      | .leaving _ => some { s.become k .idle with row := s.row.commit k }
      | _ => none
  | .fail k => some { s.become k .idle with row := s.row.abort k }

/-- What the calls have returned. -/
def Identity.note (s : Identity κ υ) (a : NamingAction κ υ) (_ : Identity κ υ) (answers : List υ) :
    List υ :=
  match a with
  | .commit k =>
      match s.calls k with
      | .leaving id => id :: answers
      | _ => answers
  | _ => answers

/-- The calls, with what each has answered. -/
abbrev naming (κ υ : Type) [DecidableEq κ] : Machine (Identity κ υ × List υ) (NamingAction κ υ) :=
  Machine.ghost ⟨Identity.step⟩ Identity.note

/-- The table as it is found, with or without a row. -/
def Identity.found (id : Option υ) : Identity κ υ := ⟨⟨id, none⟩, fun _ => .idle⟩

/-- The invariant. -/
structure Named (found : Option υ) (s : Identity κ υ) (answers : List υ) : Prop where
  /-- A row is written where there is none, by the call that minted its id. -/
  pending : ∀ k v, s.row.pending = some (k, v) → s.row.committed = none ∧
    ∃ id, v = some id ∧ (s.calls k = .rereading id ∨ s.calls k = .leaving id)
  rereading : ∀ k id, s.calls k = .rereading id →
    s.row.committed.isSome ∨ s.row.pending = some (k, some id)
  leaving : ∀ k id, s.calls k = .leaving id →
    s.row.committed = some id ∨ s.row.pending = some (k, some id)
  answers : ∀ id ∈ answers, s.row.committed = some id
  kept : ∀ id, found = some id → s.row.committed = some id

variable {s s' : Identity κ υ} {answers : List υ} {a : NamingAction κ υ} {k j : κ} {id : υ}
  {found : Option υ} {p : Naming υ}

omit [DecidableEq κ] in
theorem named_found : Named found (.found found : Identity κ υ) [] := by
  refine ⟨?_, ?_, ?_, ?_, fun id h => h⟩
  · rintro k v ⟨⟩
  · rintro k id ⟨⟩
  · rintro k id ⟨⟩
  · exact fun id h => absurd h List.not_mem_nil

omit [DecidableEq κ] in
/-- A call that is in neither of its last stages has written nothing. -/
theorem Named.not_pending (h : Named found s answers) (hr : ∀ id, s.calls k ≠ .rereading id)
    (hl : ∀ id, s.calls k ≠ .leaving id) (v : Option υ) : s.row.pending ≠ some (k, v) := by
  intro hp
  obtain ⟨-, id, -, hc | hc⟩ := h.pending k v hp
  · exact hr id hc
  · exact hl id hc

omit [DecidableEq κ] in
/-- Where the row is committed, nobody has written it. -/
theorem Named.settled (h : Named found s answers) (hc : s.row.committed.isSome) :
    s.row.pending = none := by
  cases hp : s.row.pending with
  | none => rfl
  | some w =>
      rw [(h.pending w.1 w.2 hp).1] at hc
      cases hc

theorem view_of_not_pending {row : Cell κ υ} (h : ∀ v, row.pending ≠ some (k, v)) :
    row.view k = row.committed := by
  rw [Cell.view]
  split
  · next j v hp =>
      refine if_neg ?_
      rintro rfl
      exact h v hp
  · rfl

/-- **Frame.**  A call goes on, and the row stays. -/
theorem Named.become (h : Named found s answers)
    (hp : ∀ v, s.row.pending = some (k, v) → ∃ id, v = some id ∧ (p = .rereading id ∨ p = .leaving id))
    (hr : ∀ id, p = .rereading id → s.row.committed.isSome ∨ s.row.pending = some (k, some id))
    (hl : ∀ id, p = .leaving id → s.row.committed = some id ∨ s.row.pending = some (k, some id)) :
    Named found (s.become k p) answers := by
  refine ⟨fun j v hj => ?_, fun j id hj => ?_, fun j id hj => ?_, h.answers, h.kept⟩
  · refine ⟨(h.pending j v hj).1, ?_⟩
    by_cases he : j = k
    · subst he
      simpa [Identity.become] using hp v hj
    · simpa [Identity.become, he] using (h.pending j v hj).2
  · by_cases he : j = k
    · subst he
      exact hr id (by simpa [Identity.become] using hj)
    · exact h.rereading j id (by simpa [Identity.become, he] using hj)
  · by_cases he : j = k
    · subst he
      exact hl id (by simpa [Identity.become] using hj)
    · exact h.leaving j id (by simpa [Identity.become, he] using hj)

/-- It goes on to a stage that knows nothing of the row. -/
theorem Named.early (h : Named found s answers) (hk : ∀ v, s.row.pending ≠ some (k, v))
    (hr : ∀ id, p ≠ .rereading id) (hl : ∀ id, p ≠ .leaving id) :
    Named found (s.become k p) answers :=
  h.become (fun v hv => absurd hv (hk v)) (fun id hid => absurd hid (hr id))
    fun id hid => absurd hid (hl id)

/-- A call that looks finds the identity, or is to make one. -/
theorem Named.select (h : Named found s answers) (hk : s.calls k = .looking) :
    Named found (s.become k ((s.row.view k).elim .minting .leaving)) answers := by
  have hno := h.not_pending (k := k) (by simp [hk]) (by simp [hk])
  rw [view_of_not_pending hno]
  cases hc : s.row.committed with
  | none => exact h.early hno (by simp) (by simp)
  | some id =>
      refine h.become (fun v hv => absurd hv (hno v)) (by simp) ?_
      rintro id' ⟨⟩
      exact .inl hc

/-- An insert is the first, or does nothing. -/
theorem Named.insert (h : Named found s answers) (hk : s.calls k = .inserting id) {row : Cell κ υ}
    (hi : insertIdentity k id s.row = some row) :
    Named found { s.become k (.rereading id) with row := row } answers := by
  have hno := h.not_pending (k := k) (by simp [hk]) (by simp [hk])
  unfold insertIdentity at hi
  rw [view_of_not_pending hno] at hi
  split at hi
  · next hfree =>
      have hnone : s.row.pending = none := by
        cases hp : s.row.pending with
        | none => rfl
        | some w =>
            rw [Cell.free, hp] at hfree
            exact absurd (of_decide_eq_true hfree ▸ hp) (hno w.2)
      split at hi
      · next c hc =>
          cases hi
          refine h.become (fun v hv => absurd hv (hno v)) (fun id' _ => .inl ?_) (by simp)
          rw [hc]
          rfl
      · next hc =>
          cases hi
          refine ⟨?_, fun j id' hj => ?_, fun j id' hj => ?_, fun id' hid => ?_, fun id' hid => ?_⟩
          · rintro j v ⟨⟩
            exact ⟨hc, id, rfl, .inl (by simp [Identity.become])⟩
          · by_cases he : j = k
            · subst he
              obtain rfl : id = id' := by simpa [Identity.become] using hj
              exact .inr rfl
            · -- another call that is as far as this one has seen the row
              have hj' := h.rereading j id' (by simpa [Identity.become, he] using hj)
              rw [hc, hnone] at hj'
              simp at hj'
          · by_cases he : j = k
            · subst he
              simp [Identity.become] at hj
            · have hj' := h.leaving j id' (by simpa [Identity.become, he] using hj)
              rw [hc, hnone] at hj'
              simp at hj'
          · have := h.answers id' hid
            rw [hc] at this
            cases this
          · have := h.kept id' hid
            rw [hc] at this
            cases this
  · cases hi

/-- What is read again is what is there. -/
theorem Named.reread (h : Named found s answers) (hk : s.calls k = .rereading id) :
    Named found (s.become k (.leaving ((s.row.view k).getD id))) answers := by
  obtain hc | hp := h.rereading k id hk
  · obtain ⟨c, hc'⟩ := Option.isSome_iff_exists.mp hc
    have hnone := h.settled hc
    have hno : ∀ v, s.row.pending ≠ some (k, v) := by simp [hnone]
    rw [view_of_not_pending hno, hc', Option.getD_some]
    refine h.become (fun v hv => absurd hv (hno v)) (by simp) ?_
    rintro id' ⟨⟩
    exact .inl hc'
  · have hview : s.row.view k = some id := by
      rw [Cell.view, hp]
      exact if_pos rfl
    rw [hview, Option.getD_some]
    refine h.become (fun v hv => ?_) (by simp) ?_
    · rw [hp] at hv
      cases hv
      exact ⟨id, rfl, .inr rfl⟩
    · rintro id' ⟨⟩
      exact .inr hp

/-- A commit makes the first identity stay. -/
theorem Named.commit (h : Named found s answers) (hk : s.calls k = .leaving id) :
    Named found { s.become k .idle with row := s.row.commit k } (id :: answers) := by
  obtain hc | hp := h.leaving k id hk
  · have hnone := h.settled (by rw [hc]; rfl)
    rw [Cell.commit_of_other (by simp [hnone])]
    have hb := h.early (k := k) (p := .idle) (by simp [hnone]) (by simp) (by simp)
    exact ⟨hb.pending, hb.rereading, hb.leaving, List.forall_mem_cons.mpr ⟨hc, hb.answers⟩, hb.kept⟩
  · obtain ⟨hc, -⟩ := h.pending k _ hp
    rw [Cell.commit_of_pending hp]
    refine ⟨?_, fun j id' _ => .inl rfl, fun j id' hj => .inl ?_, ?_, fun id' hid => ?_⟩
    · rintro j v ⟨⟩
    · by_cases he : j = k
      · subst he
        simp [Identity.become] at hj
      · have hj' := h.leaving j id' (by simpa [Identity.become, he] using hj)
        rw [hc, hp] at hj'
        simp [Ne.symm he] at hj'
    · refine List.forall_mem_cons.mpr ⟨rfl, fun id' hid => ?_⟩
      have := h.answers id' hid
      rw [hc] at this
      cases this
    · have := h.kept id' hid
      rw [hc] at this
      cases this

/-- A call that fails answers nothing. -/
theorem Named.fail (h : Named found s answers) :
    Named found { s.become k .idle with row := s.row.abort k } answers := by
  by_cases hp : ∃ v, s.row.pending = some (k, v)
  · obtain ⟨v, hp⟩ := hp
    obtain ⟨hc, -⟩ := h.pending k v hp
    rw [Cell.abort_of_pending hp, hc]
    refine ⟨?_, fun j id hj => ?_, fun j id hj => ?_, fun id hid => ?_, fun id hid => ?_⟩
    · rintro j v ⟨⟩
    · by_cases he : j = k
      · subst he
        simp [Identity.become] at hj
      · have hj' := h.rereading j id (by simpa [Identity.become, he] using hj)
        rw [hc, hp] at hj'
        simp [Ne.symm he] at hj'
    · by_cases he : j = k
      · subst he
        simp [Identity.become] at hj
      · have hj' := h.leaving j id (by simpa [Identity.become, he] using hj)
        rw [hc, hp] at hj'
        simp [Ne.symm he] at hj'
    · exact absurd (h.answers id hid) (by simp [hc])
    · exact absurd (h.kept id hid) (by simp [hc])
  · have hno : ∀ v, s.row.pending ≠ some (k, v) := fun v hv => hp ⟨v, hv⟩
    rw [Cell.abort_of_other hno]
    exact h.early hno (by simp) (by simp)

/-- **Step.**  Every call answers the one identity. -/
theorem named_step (h : Named found s answers) (hs : s.step a = some s') :
    Named found s' (s.note a s' answers) := by
  cases a with
  | arrive k =>
      simp only [Identity.step] at hs
      split at hs
      · next hk =>
          cases hs
          have hk : s.calls k = .idle := by
            revert hk
            cases s.calls k <;> simp
          exact h.early (h.not_pending (by simp [hk]) (by simp [hk])) (by simp) (by simp)
      · cases hs
  | select k =>
      simp only [Identity.step] at hs
      split at hs
      · next hk => cases hs; exact h.select hk
      · cases hs
  | mint k id =>
      simp only [Identity.step] at hs
      split at hs
      · next hk =>
          cases hs
          have hk : s.calls k = .minting := by
            revert hk
            cases s.calls k <;> simp
          exact h.early (h.not_pending (by simp [hk]) (by simp [hk])) (by simp) (by simp)
      · cases hs
  | insert k =>
      simp only [Identity.step] at hs
      split at hs
      · next id hk =>
          obtain ⟨row, hi, rfl⟩ := Option.map_eq_some_iff.mp hs
          exact h.insert hk hi
      · cases hs
  | reread k =>
      simp only [Identity.step] at hs
      split at hs
      · next id hk => cases hs; exact h.reread hk
      · cases hs
  | commit k =>
      simp only [Identity.step] at hs
      split at hs
      · next id hk =>
          cases hs
          simp only [Identity.note, hk]
          exact h.commit hk
      · cases hs
  | fail k =>
      cases hs
      exact h.fail

/-- **One identity.**  Every answer is the row's, and what was found is kept. -/
theorem one_identity {as : List (NamingAction κ υ)}
    (h : (naming κ υ).Run (.found found, []) as (s, answers)) :
    (∀ id ∈ answers, s.row.committed = some id) ∧ ∀ id, found = some id → s.row.committed = some id := by
  have hi : Named found s answers :=
    h.invariant (I := fun p => Named found p.1 p.2) named_found
      (Machine.ghost_preserves fun _ _ _ _ _ hi hs => named_step hi hs)
  exact ⟨hi.answers, hi.kept⟩

end Naming

/-- Two calls find no row; the second waits for the first to write it. -/
def namedTwice : List (NamingAction (Fin 3) ℕ) :=
  [.arrive 0, .arrive 1, .select 0, .select 1, .mint 0 5, .mint 1 6, .insert 0, .reread 0, .commit 0,
    .insert 1, .reread 1, .commit 1]

/-- Two calls of a first boot answer the same. -/
theorem one_identity_twice : ∃ s answers,
    (naming (Fin 3) ℕ).Run (.found none, []) namedTwice (s, answers) ∧ answers = [5, 5] ∧
      (∀ id ∈ answers, s.row.committed = some id) ∧
        ∀ id, none = some id → s.row.committed = some id := by
  have hrun : ((naming (Fin 3) ℕ).exec (.found none, []) namedTwice).map Prod.snd = some [5, 5] := by
    decide +kernel
  obtain ⟨⟨s, answers⟩, hexec, hanswers⟩ := Option.map_eq_some_iff.mp hrun
  have h := Machine.exec_eq_some.mp hexec
  exact ⟨s, answers, h, hanswers, one_identity h⟩

/-! ### The signing key -/

/-- A row of `signing_keys`. -/
structure KeyRow (σ : Type) where
  secret : σ
  createdAt : ℚ
  /-- `retired_at IS NOT NULL`. -/
  retired : Bool
  deriving DecidableEq

/-- `WHERE retired_at IS NULL`. -/
def live {σ : Type} (rows : List (KeyRow σ)) : List (KeyRow σ) := rows.filter fun r => !r.retired

/-- A call of `signing_secret`. -/
inductive Fetching (σ : Type) where
  | idle
  | looking
  /-- There is no key; the transaction began then. -/
  | missing (began : ℚ)
  | inserted (secret : σ) (began : ℚ)
  /-- `Store.signing_secret` has returned. -/
  | resuming (secret : σ)
  deriving DecidableEq

/-- It has looked and found no key, and has not committed its own. -/
def Fetching.unseeing {σ : Type} : Fetching σ → Bool
  | .missing _ | .inserted _ _ => true
  | _ => false

/-- The table, the calls, and the cache of each process. -/
structure Signing (κ ω σ : Type) where
  rows : List (KeyRow σ)
  calls : κ → Fetching σ
  caches : ω → Option σ
  now : ℚ

/-- A call of the signing key arrives, goes on, or is answered. -/
inductive SigningAction (κ ω σ : Type) where
  | arrive (k : κ)
  /-- `SELECT ... ORDER BY created_at DESC LIMIT 1` finds this row, or none. -/
  | select (k : κ) (found : Option (KeyRow σ))
  /-- `new_signing_secret`, and the `INSERT`. -/
  | insert (k : κ) (secret : σ)
  | commit (k : κ)
  | fail (k : κ)
  /-- The call goes on behind its `await`. -/
  | resume (k : κ)
  /-- A process starts again. -/
  | restart (w : ω)
  | setClock (now : ℚ)
  deriving DecidableEq

section Signing
variable {κ ω σ : Type} [DecidableEq κ] [DecidableEq ω] [DecidableEq σ] (worker : κ → ω)

/-- The row is a newest one of those that are not retired. -/
def newest (rows : List (KeyRow σ)) : Option (KeyRow σ) → Bool
  | none => (live rows).isEmpty
  | some r => decide (r ∈ live rows) && (live rows).all fun r' => r'.createdAt ≤ r.createdAt

/-- Call `k` is now at `p`. -/
def Signing.become (s : Signing κ ω σ) (k : κ) (p : Fetching σ) : Signing κ ω σ :=
  { s with calls := Function.update s.calls k p }

/-- One step of one call. -/
def Signing.step (s : Signing κ ω σ) : SigningAction κ ω σ → Option (Signing κ ω σ)
  | .arrive k =>
      match s.calls k, s.caches (worker k) with
      | .idle, none => some (s.become k .looking)
      | .idle, some _ => some s  -- answered at once
      | _, _ => none
  | .select k found =>
      match s.calls k with
      | .looking =>
          if newest s.rows found then
            some (s.become k (found.elim (.missing s.now) fun r => .resuming r.secret))
          else none
      | _ => none
  | .insert k secret =>
      match s.calls k with
      | .missing began => some (s.become k (.inserted secret began))
      | _ => none
  | .commit k =>
      match s.calls k with
      | .inserted secret began =>
          some { s.become k (.resuming secret) with rows := s.rows ++ [⟨secret, began, false⟩] }
      | _ => none
  | .fail k => some (s.become k .idle)
  | .resume k =>
      match s.calls k with
      | .resuming secret =>
          some { s.become k .idle with caches := Function.update s.caches (worker k) (some secret) }
      | _ => none
  | .restart w =>
      some { s with
        calls := fun k => if worker k = w then .idle else s.calls k
        caches := Function.update s.caches w none }
  | .setClock now => some { s with now := now }

/-- What the calls have returned. -/
def Signing.note (s : Signing κ ω σ) (a : SigningAction κ ω σ) (_ : Signing κ ω σ)
    (answers : List σ) : List σ :=
  match a with
  | .arrive k => (s.caches (worker k)).toList ++ answers
  | .resume k =>
      match s.calls k with
      | .resuming secret => secret :: answers
      | _ => answers
  | _ => answers

/-- The calls, with what each has answered. -/
abbrev signing : Machine (Signing κ ω σ × List σ) (SigningAction κ ω σ) :=
  Machine.ghost ⟨Signing.step worker⟩ (Signing.note worker)

/-- The table as it is found. -/
def Signing.found (rows : List (KeyRow σ)) (now : ℚ) : Signing κ ω σ :=
  ⟨rows, fun _ => .idle, fun _ => none, now⟩

/-- No key is committed while another call has looked and found none. -/
def Alone (s : Signing κ ω σ) : SigningAction κ ω σ → Prop
  | .commit k => ∀ j, j ≠ k → (s.calls j).unseeing = false
  | _ => True

/-- There is one key at most, and what was answered is its secret. -/
structure OneKey (s : Signing κ ω σ) (answers : List σ) : Prop where
  one : (live s.rows).length ≤ 1
  answered : ∀ secret ∈ answers, ∃ r, live s.rows = [r] ∧ r.secret = secret

/-- The invariant. -/
structure Signed (s : Signing κ ω σ) (answers : List σ) : Prop where
  one : (live s.rows).length ≤ 1
  /-- Where there is a key, every call that has looked has found it. -/
  seen : live s.rows ≠ [] → ∀ k, (s.calls k).unseeing = false
  answered : ∀ secret ∈ answers, ∃ r, live s.rows = [r] ∧ r.secret = secret
  resuming : ∀ k secret, s.calls k = .resuming secret → ∃ r, live s.rows = [r] ∧ r.secret = secret
  cached : ∀ w secret, s.caches w = some secret → ∃ r, live s.rows = [r] ∧ r.secret = secret

variable {worker} {s s' : Signing κ ω σ} {answers : List σ} {a : SigningAction κ ω σ} {k : κ}
  {p : Fetching σ} {secret : σ}

omit [DecidableEq κ] [DecidableEq ω] [DecidableEq σ] in
/-- A hub with one live key at most. -/
theorem signed_found {rows : List (KeyRow σ)} {now : ℚ} (h : (live rows).length ≤ 1) :
    Signed (.found rows now : Signing κ ω σ) [] := by
  refine ⟨h, fun _ _ => rfl, fun secret hs => absurd hs List.not_mem_nil, ?_, ?_⟩
  · rintro k secret ⟨⟩
  · rintro w secret ⟨⟩

omit [DecidableEq ω] [DecidableEq σ] in
/-- A call goes on, and the table stays. -/
theorem Signed.become (h : Signed s answers) (hu : live s.rows ≠ [] → p.unseeing = false)
    (hr : ∀ secret, p = .resuming secret → ∃ r, live s.rows = [r] ∧ r.secret = secret) :
    Signed (s.become k p) answers := by
  refine ⟨h.one, fun hne j => ?_, h.answered, fun j secret hj => ?_, h.cached⟩
  · by_cases he : j = k
    · subst he
      simpa [Signing.become] using hu hne
    · simpa [Signing.become, he] using h.seen hne j
  · by_cases he : j = k
    · subst he
      exact hr secret (by simpa [Signing.become] using hj)
    · exact h.resuming j secret (by simpa [Signing.become, he] using hj)

omit [DecidableEq ω] in
/-- A call that looks finds the live key, or is to make one. -/
theorem Signed.select (h : Signed s answers) {found : Option (KeyRow σ)}
    (hf : newest s.rows found = true) :
    Signed (s.become k (found.elim (.missing s.now) fun r => .resuming r.secret)) answers := by
  cases found with
  | none =>
      have hnil : live s.rows = [] := List.isEmpty_iff.mp hf
      exact h.become (fun hne => absurd hnil hne) (by simp)
  | some r =>
      obtain ⟨hr, -⟩ := Bool.and_eq_true_iff.mp hf
      have hr : r ∈ live s.rows := of_decide_eq_true hr
      refine h.become (fun _ => rfl) ?_
      rintro secret ⟨⟩
      obtain hnil | ⟨r', hr'⟩ := (Nat.le_one_iff_eq_zero_or_eq_one.mp h.one).imp
        List.length_eq_zero_iff.mp List.length_eq_one_iff.mp
      · rw [hnil] at hr
        exact absurd hr List.not_mem_nil
      · rw [hr', List.mem_singleton] at hr
        exact ⟨r', hr', by rw [hr]⟩

omit [DecidableEq ω] [DecidableEq σ] in
/-- A key is committed by the only call that has found none. -/
theorem Signed.commit (h : Signed s answers) {began : ℚ} (hk : s.calls k = .inserted secret began)
    (hC : ∀ j, j ≠ k → (s.calls j).unseeing = false) :
    Signed { s.become k (.resuming secret) with rows := s.rows ++ [⟨secret, began, false⟩] }
      answers := by
  have hnil : live s.rows = [] := by
    by_contra hne
    have := h.seen hne k
    rw [hk] at this
    cases this
  have hlive : live (s.rows ++ [⟨secret, began, false⟩]) = [⟨secret, began, false⟩] := by
    rw [live, List.filter_append, show s.rows.filter (fun r => !r.retired) = [] from hnil]
    rfl
  have hnone : ∀ {secret : σ}, (∃ r, live s.rows = [r] ∧ r.secret = secret) → False := by
    rintro secret ⟨r, hr, -⟩
    rw [hnil] at hr
    cases hr
  refine ⟨by rw [hlive]; exact le_refl 1, fun _ j => ?_, fun x hx => (hnone (h.answered x hx)).elim,
    fun j x hj => ?_, fun w x hw => (hnone (h.cached w x hw)).elim⟩
  · by_cases he : j = k
    · subst he
      simp [Signing.become, Fetching.unseeing]
    · simpa [Signing.become, he] using hC j he
  · by_cases he : j = k
    · subst he
      obtain rfl : secret = x := by simpa [Signing.become] using hj
      exact ⟨_, hlive, rfl⟩
    · exact (hnone (h.resuming j x (by simpa [Signing.become, he] using hj))).elim

/-- **Step.**  Every call answers the one key. -/
theorem signed_step (h : Signed s answers) (hC : Alone s a) (hs : s.step worker a = some s') :
    Signed s' (s.note worker a s' answers) := by
  cases a with
  | arrive k =>
      simp only [Signing.step] at hs
      split at hs
      · next hcache =>
          cases hs
          simp only [Signing.note, hcache]
          exact h.become (fun _ => rfl) (by simp)
      · next x hcache =>
          cases hs
          simp only [Signing.note, hcache]
          exact ⟨h.one, h.seen, List.forall_mem_cons.mpr ⟨h.cached _ _ hcache, h.answered⟩, h.resuming,
            h.cached⟩
      · cases hs
  | select k found =>
      simp only [Signing.step] at hs
      split at hs
      · split at hs
        · next hf => cases hs; exact h.select hf
        · cases hs
      · cases hs
  | insert k secret =>
      simp only [Signing.step] at hs
      split at hs
      · next began hk =>
          cases hs
          refine h.become (fun hne => ?_) (by simp)
          have := h.seen hne k
          rw [hk] at this
          cases this
      · cases hs
  | commit k =>
      simp only [Signing.step] at hs
      split at hs
      · next secret began hk => cases hs; exact h.commit hk hC
      · cases hs
  | fail k =>
      cases hs
      exact h.become (fun _ => rfl) (by simp)
  | resume k =>
      simp only [Signing.step] at hs
      split at hs
      · next secret hk =>
          cases hs
          simp only [Signing.note, hk]
          have hr := h.resuming k secret hk
          have hb := h.become (k := k) (p := .idle) (fun _ => rfl) (by simp)
          refine ⟨hb.one, hb.seen, List.forall_mem_cons.mpr ⟨hr, hb.answered⟩, hb.resuming,
            fun w x hw => ?_⟩
          by_cases he : w = worker k
          · subst he
            obtain rfl : secret = x := by simpa using hw
            exact hr
          · exact h.cached w x (by simpa [Signing.become, he] using hw)
      · cases hs
  | restart w =>
      cases hs
      refine ⟨h.one, fun hne j => ?_, h.answered, fun j x hj => ?_, fun v x hv => ?_⟩
      · dsimp only
        split
        · rfl
        · exact h.seen hne j
      · dsimp only at hj
        split at hj
        · cases hj
        · exact h.resuming j x hj
      · by_cases he : v = w
        · subst he
          simp at hv
        · exact h.cached v x (by simpa [he] using hv)
  | setClock now =>
      cases hs
      exact ⟨h.one, h.seen, h.answered, h.resuming, h.cached⟩

/-- **One signing key**, where no key is committed while another call has found none. -/
theorem one_signing_key {rows : List (KeyRow σ)} {now : ℚ} {as : List (SigningAction κ ω σ)}
    (hone : (live rows).length ≤ 1)
    (h : (signing worker).RunIf (fun p a => Alone p.1 a) (.found rows now, []) as (s, answers)) :
    OneKey s answers := by
  have hi : Signed s answers :=
    h.invariant (I := fun p => Signed p.1 p.2) (signed_found hone)
      (Machine.ghost_preserves fun _ _ _ _ hC hi hs => signed_step hi hC hs)
  exact ⟨hi.one, hi.answered⟩

end Signing

/-- Every call is of one process. -/
def oneWorker (_ : Fin 3) : Unit := ()

instance decidableAlone (s : Signing (Fin 3) Unit ℕ) :
    (a : SigningAction (Fin 3) Unit ℕ) → Decidable (Alone s a)
  | .commit k => Nat.decidableForallFin fun j => j ≠ k → (s.calls j).unseeing = false
  | .arrive _ | .select _ _ | .insert _ _ | .fail _ | .resume _ | .restart _ | .setClock _ =>
      isTrue trivial

/-- The first call writes the key, the second finds it, and the third has it from the cache. -/
def signedOnce : List (SigningAction (Fin 3) Unit ℕ) :=
  [.arrive 0, .arrive 1, .select 0 none, .insert 0 7, .commit 0, .select 1 (some ⟨7, 60, false⟩),
    .resume 0, .resume 1, .arrive 2]

/-- Three calls, of which the first makes the key, answer it. -/
theorem one_signing_key_once : ∃ s answers,
    (signing oneWorker).RunIf (fun p a => Alone p.1 a) (.found [⟨3, 0, true⟩] 60, []) signedOnce
      (s, answers) ∧ answers = [7, 7, 7] ∧ OneKey s answers := by
  have hrun : ((signing oneWorker).execIf (fun p a => Alone p.1 a) (.found [⟨3, 0, true⟩] 60, [])
      signedOnce).map Prod.snd = some [7, 7, 7] := by
    decide +kernel
  obtain ⟨⟨s, answers⟩, hexec, hanswers⟩ := Option.map_eq_some_iff.mp hrun
  have h := Machine.execIf_eq_some.mp hexec
  exact ⟨s, answers, h, hanswers, one_signing_key (by decide) h⟩

/-- Both calls find none. -/
def signedTwice : List (SigningAction (Fin 3) Unit ℕ) :=
  [.arrive 0, .arrive 1, .select 0 none, .select 1 none, .insert 0 7, .insert 1 8, .commit 0,
    .commit 1, .resume 0, .resume 1]

/-- The index that `hub_identity` has and `signing_keys` lacks is what makes the difference. -/
theorem not_one_signing_key : ¬ ∀ as s answers,
    (signing oneWorker).Run (.found ([] : List (KeyRow ℕ)) 0, []) as (s, answers) →
      OneKey s answers := by
  intro h
  have hrun : ((signing oneWorker).exec (.found [] 0, []) signedTwice).map
      (fun p => (live p.1.rows).length) = some 2 := by
    decide +kernel
  obtain ⟨⟨s, answers⟩, hexec, hlen⟩ := Option.map_eq_some_iff.mp hrun
  have hone := (h signedTwice s answers (Machine.exec_eq_some.mp hexec)).one
  rw [hlen] at hone
  exact absurd hone (by decide)

end BellasReef.Api.FirstBoot
