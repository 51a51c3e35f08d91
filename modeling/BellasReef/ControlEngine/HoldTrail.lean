import BellasReef.Db.Overrides
import BellasReef.Support.Lists
import BellasReef.Support.Machine

/-!
# ControlEngine — Hold trail

How each hold ends in the audit trail.

Four endings are written to the `overrides` table: the API's manual releases and supersedes, the
engine's expiries, and what it lapses at wake.  Whoever ended a hold audits it, after the
commit.  The engine acts on `_held`, a copy that its last reload made, and it audits an expiry
whether or not the store says that the row was still open.

`audited_once_iff`: each ended hold has one audit event, with the reason on its row, in exactly the
runs where the engine never expires a hold that somebody else has ended.
-/

namespace BellasReef.ControlEngine
open BellasReef.Db BellasReef.Support

variable {ι τ : Type}

/-! ### The API and the engine -/

/-- Where the engine is in a tick. -/
inductive Pass (ι τ : Type) where
  | idle
  /-- `_expire_overrides`: the holds it has still to look at. -/
  | expiring (rest : List (ActiveOverride ι τ))
  /-- `_reload_overrides`, with the answer of `list_active`. -/
  | reloading (fresh : List (ActiveOverride ι τ))
  deriving DecidableEq

/-- The holds of a hub, and its clock. -/
structure Holds (ι τ : Type) where
  store : Overrides ι τ
  /-- Devices registered `observe_only`. -/
  observeOnly : List τ
  trusted : Bool
  mono : ℚ
  wall : ℚ
  /-- `_held`, one per target. -/
  held : List (ActiveOverride ι τ)
  pass : Pass ι τ
  /-- Endings that the engine has still to audit, before it goes on. -/
  engineOwes : List (ι × ReleaseReason)
  /-- Endings that API requests have still to audit. -/
  apiOwes : List (ι × ReleaseReason)
  /-- The `override.released` events, oldest first. -/
  audited : List (ι × ReleaseReason)

/-- What the API, the engine and the clock do. -/
inductive HoldAction (ι τ : Type) where
  /-- `createOverride`. -/
  | create (id : ι) (target : τ) (duty durationS : ℚ) (transition : Transition)
  /-- `releaseOverride`. -/
  | release (id : ι)
  /-- A request audits an ending it caused. -/
  | apiAudit (i : ℕ)
  /-- A tick begins. -/
  | tick
  /-- `_expire_overrides` looks at its next hold. -/
  | expire
  /-- `_audit_override_release`. -/
  | engineAudit
  | listActive
  /-- `_held` is rebuilt from the answer. -/
  | reload
  /-- The engine starts again. -/
  | wake
  | clock (mono wall : ℚ) (trusted : Bool)

/-- What a closed row is audited as. -/
def ended (reason : ReleaseReason) (r : OverrideRow ι τ) : ι × ReleaseReason := (r.id, reason)

/-- The hold that the engine is about to expire. -/
def Holds.expiring (s : Holds ι τ) : Option ι :=
  match s.pass with
  | .expiring (o :: _) => if o.isExpired s.mono s.wall then some o.id else none
  | _ => none

variable [DecidableEq ι] [DecidableEq τ]

/-- `_reload_overrides`: a hold that is held already keeps its deadline. -/
def Holds.rearmed (s : Holds ι τ) (fresh : ActiveOverride ι τ) : ActiveOverride ι τ :=
  match s.held.find? (·.target = fresh.target) with
  | some current => if current.id = fresh.id then current else fresh.arm s.mono s.wall
  | none => fresh.arm s.mono s.wall

/-- One step of one of them. -/
def Holds.step (s : Holds ι τ) : HoldAction ι τ → Option (Holds ι τ)
  | .create id target duty durationS transition =>
      if target ∈ s.observeOnly then none
      else
        match s.store.create s.trusted s.wall id target duty durationS transition with
        | .ok (store, _, superseded) =>
            some { s with
              store := store
              apiOwes := s.apiOwes ++ superseded.map (ended .superseded) }
        | .error _ => none
  | .release id =>
      match s.store.release id .manual with
      | (store, some r) =>
          some { s with store := store, apiOwes := s.apiOwes ++ [ended .manual r] }
      | (_, none) => none
  | .apiAudit i =>
      s.apiOwes[i]?.map fun e =>
        { s with apiOwes := s.apiOwes.eraseIdx i, audited := s.audited ++ [e] }
  | .tick =>
      match s.pass, s.engineOwes with
      | .idle, [] => some { s with pass := .expiring s.held }
      | _, _ => none
  | .expire =>
      match s.pass, s.engineOwes with
      | .expiring (o :: rest), [] =>
          if o.isExpired s.mono s.wall then
            -- whatever `release` returns
            some { s with
              store := (s.store.release o.id .expired).1
              held := s.held.filter (·.target ≠ o.target)
              pass := .expiring rest
              engineOwes := [(o.id, .expired)] }
          else some { s with pass := .expiring rest }
      | _, _ => none
  | .engineAudit =>
      match s.engineOwes with
      | e :: rest => some { s with engineOwes := rest, audited := s.audited ++ [e] }
      | [] => none
  | .listActive =>
      match s.pass, s.engineOwes with
      | .expiring [], [] => some { s with pass := .reloading s.store.listActive }
      | _, _ => none
  | .reload =>
      match s.pass with
      | .reloading fresh => some { s with held := fresh.map s.rearmed, pass := .idle }
      | _ => none
  | .wake =>
      match s.pass, s.engineOwes with
      | .idle, [] =>
          let (store, live, lapsed) := s.store.loadActive s.mono s.wall
          some { s with store := store, held := live, engineOwes := lapsed.map (ended .lapsed) }
      | _, _ => none
  | .clock mono wall trusted =>
      some { s with mono := mono, wall := wall, trusted := trusted }

/-- The API's override requests and the engine, over one table. -/
def holds (ι τ : Type) [DecidableEq ι] [DecidableEq τ] : Machine (Holds ι τ) (HoldAction ι τ) where
  step := fun s a => s.step a

omit [DecidableEq ι] [DecidableEq τ] in
/-- A hub on which nobody has held anything yet. -/
def Holds.fresh (observeOnly : List τ) (mono wall : ℚ) (trusted : Bool) : Holds ι τ where
  store := ⟨[], List.nodup_nil, List.nodup_nil⟩
  observeOnly := observeOnly
  trusted := trusted
  mono := mono
  wall := wall
  held := []
  pass := .idle
  engineOwes := []
  apiOwes := []
  audited := []

/-! ### The trail -/

omit [DecidableEq ι] [DecidableEq τ] in
/-- Every ending that has been audited or is going to be. -/
def Holds.endings (s : Holds ι τ) : List (ι × ReleaseReason) :=
  s.audited ++ s.engineOwes ++ s.apiOwes

/-- The reasons that a hold is audited with. -/
def reasons (id : ι) (endings : List (ι × ReleaseReason)) : List ReleaseReason :=
  (endings.filter (·.1 = id)).map Prod.snd

/-- Each ended hold is audited once, with the reason on its row, and no other hold is. -/
def Holds.AuditedOnce (s : Holds ι τ) : Prop :=
  ∀ id, reasons id s.endings = (s.store.reasonOf id).toList

/-- What the engine expires has not ended. -/
def Holds.StillOpen (s : Holds ι τ) : HoldAction ι τ → Prop
  | .expire => ∀ id ∈ s.expiring, s.store.reasonOf id = none
  | _ => True

instance (s : Holds ι τ) : (a : HoldAction ι τ) → Decidable (s.StillOpen a)
  | .expire => inferInstanceAs (Decidable (∀ id ∈ s.expiring, s.store.reasonOf id = none))
  | .create _ _ _ _ _ | .release _ | .apiAudit _ | .tick | .engineAudit | .listActive | .reload
  | .wake | .clock _ _ _ => .isTrue trivial

/-! ### What a step can do -/

/-- What a step can do. -/
inductive HoldMoves (s : Holds ι τ) : HoldAction ι τ → Holds ι τ → Prop where
  | create {id : ι} {target : τ} {duty durationS : ℚ} {transition : Transition}
      {row : OverrideRow ι τ} {store : Overrides ι τ}
      (hi : (s.store.close (fun r => decide (r.target = target)) .superseded).insert row =
        some store) :
      HoldMoves s (.create id target duty durationS transition)
        { s with
          store := store
          apiOwes := s.apiOwes ++
            (s.store.closing fun r => decide (r.target = target)).map (ended .superseded) }
  | release {id : ι} :
      HoldMoves s (.release id)
        { s with
          store := s.store.close (fun r => decide (r.id = id)) .manual
          apiOwes := s.apiOwes ++
            (s.store.closing fun r => decide (r.id = id)).map (ended .manual) }
  | apiAudit {i : ℕ} {e : ι × ReleaseReason} (he : s.apiOwes[i]? = some e) :
      HoldMoves s (.apiAudit i)
        { s with apiOwes := s.apiOwes.eraseIdx i, audited := s.audited ++ [e] }
  | tick : HoldMoves s .tick { s with pass := .expiring s.held }
  | expire {o : ActiveOverride ι τ} {rest : List (ActiveOverride ι τ)}
      (hp : s.pass = .expiring (o :: rest)) (ho : s.engineOwes = [])
      (hx : s.expiring = some o.id) :
      HoldMoves s .expire
        { s with
          store := s.store.close (fun r => decide (r.id = o.id)) .expired
          held := s.held.filter (·.target ≠ o.target)
          pass := .expiring rest
          engineOwes := [(o.id, .expired)] }
  | keep {o : ActiveOverride ι τ} {rest : List (ActiveOverride ι τ)}
      (hp : s.pass = .expiring (o :: rest)) (hx : s.expiring = none) :
      HoldMoves s .expire { s with pass := .expiring rest }
  | engineAudit {e : ι × ReleaseReason} {rest : List (ι × ReleaseReason)}
      (he : s.engineOwes = e :: rest) :
      HoldMoves s .engineAudit { s with engineOwes := rest, audited := s.audited ++ [e] }
  | listActive : HoldMoves s .listActive { s with pass := .reloading s.store.listActive }
  | reload {fresh : List (ActiveOverride ι τ)} (hp : s.pass = .reloading fresh) :
      HoldMoves s .reload { s with held := fresh.map s.rearmed, pass := .idle }
  | wake (hp : s.pass = .idle) (ho : s.engineOwes = []) :
      HoldMoves s .wake
        { s with
          store := (s.store.loadActive s.mono s.wall).1
          held := (s.store.loadActive s.mono s.wall).2.1
          engineOwes := (s.store.loadActive s.mono s.wall).2.2.map (ended .lapsed) }
  | clock (mono wall : ℚ) (trusted : Bool) :
      HoldMoves s (.clock mono wall trusted)
        { s with mono := mono, wall := wall, trusted := trusted }

variable {s s' : Holds ι τ} {a : HoldAction ι τ} {id : ι}

/-- **Inversion.**  A step is one of `HoldMoves`. -/
theorem hold_moves (h : (holds ι τ).step s a = some s') : HoldMoves s a s' := by
  change s.step a = some s' at h
  cases a with
  | create id target duty durationS transition =>
      simp only [Holds.step] at h
      split at h
      · cases h
      · split at h
        · next store row superseded hc =>
            cases h
            obtain ⟨rfl, hi⟩ := Overrides.create_eq_ok hc
            exact .create hi
        · cases h
  | release id =>
      simp only [Holds.step] at h
      split at h
      · next store r hr =>
          cases h
          have hstore : store = s.store.close (fun r => decide (r.id = id)) .manual :=
            (congrArg Prod.fst hr).symm
          have hrow := Overrides.closing_of_release (congrArg Prod.snd hr)
          have hm : HoldMoves s (.release id) _ := .release
          rwa [hrow, ← hstore] at hm
      · cases h
  | apiAudit i =>
      obtain ⟨e, he, rfl⟩ := Option.map_eq_some_iff.mp h
      exact .apiAudit he
  | tick =>
      simp only [Holds.step] at h
      split at h
      · cases h; exact .tick
      · cases h
  | expire =>
      simp only [Holds.step] at h
      split at h
      · next o rest hp ho =>
          split at h
          · next hx => cases h; exact .expire hp ho (by rw [Holds.expiring, hp]; exact if_pos hx)
          · next hx => cases h; exact .keep hp (by rw [Holds.expiring, hp]; exact if_neg hx)
      · cases h
  | engineAudit =>
      simp only [Holds.step] at h
      split at h
      · next he => cases h; exact .engineAudit he
      · cases h
  | listActive =>
      simp only [Holds.step] at h
      split at h
      · cases h; exact .listActive
      · cases h
  | reload =>
      simp only [Holds.step] at h
      split at h
      · next hp => cases h; exact .reload hp
      · cases h
  | wake =>
      simp only [Holds.step] at h
      split at h
      · next hp ho => cases h; exact .wake hp ho
      · cases h
  | clock mono wall trusted => cases h; exact .clock mono wall trusted

/-! ### What a step does to the trail -/

/-- The holds that the engine knows. -/
def Holds.watched (s : Holds ι τ) : List (ActiveOverride ι τ) :=
  s.held ++
    match s.pass with
    | .idle => []
    | .expiring rest => rest
    | .reloading fresh => fresh

/-- The engine knows of no hold that the table does not have. -/
def Holds.Known (s : Holds ι τ) : Prop :=
  ∀ o ∈ s.watched, o.id ∈ s.store.rows.map OverrideRow.id

/-- What a step ends and what it owes the trail. -/
inductive Ends (s : Holds ι τ) (a : HoldAction ι τ) (s' : Holds ι τ) : Prop where
  | quiet (hC : s.StillOpen a) (he : s'.endings.Perm s.endings)
      (hr : ∀ id, s'.store.reasonOf id = s.store.reasonOf id)
  | ends (p : OverrideRow ι τ → Bool) (reason : ReleaseReason) (hC : s.StillOpen a)
      (he : s'.endings.Perm (s.endings ++ (s.store.closing p).map (ended reason)))
      (hr : ∀ id, s'.store.reasonOf id = (s.store.close p reason).reasonOf id)
  | again (id : ι) (hC : ¬ s.StillOpen a) (he : s'.endings.Perm (s.endings ++ [(id, .expired)]))
      (hid : s.store.reasonOf id ≠ none)

omit [DecidableEq ι] [DecidableEq τ] in
/-- The engine owes what it has just ended. -/
theorem perm_owe_engine {x : List (ι × ReleaseReason)} (h : s.engineOwes = []) :
    (s.audited ++ x ++ s.apiOwes).Perm (s.endings ++ x) := by
  rw [Holds.endings, h, List.append_nil, List.append_assoc, List.append_assoc]
  exact List.perm_append_comm.append_left _

omit [DecidableEq ι] [DecidableEq τ] in
/-- What was owed is audited. -/
theorem perm_audit_api {i : ℕ} {e : ι × ReleaseReason} (h : s.apiOwes[i]? = some e) :
    (s.audited ++ [e] ++ s.engineOwes ++ s.apiOwes.eraseIdx i).Perm s.endings := by
  have hmiddle : (s.audited ++ [e] ++ s.engineOwes ++ s.apiOwes.eraseIdx i).Perm
      (s.audited ++ s.engineOwes ++ e :: s.apiOwes.eraseIdx i) := by
    rw [List.append_assoc, List.append_assoc, List.append_assoc, List.singleton_append]
    exact List.perm_middle.symm.append_left _
  exact hmiddle.trans ((perm_cons_eraseIdx h).append_left _)

/-- **What a step ends.**  Every step closes rows and owes an event for each, or closes none and
owes none, unless it expires a hold that has ended. -/
theorem ends_step (hk : s.Known) (hm : HoldMoves s a s') : Ends s a s' := by
  cases hm with
  | create hi =>
      exact .ends _ .superseded trivial (.of_eq (List.append_assoc _ _ _).symm)
        fun id => Overrides.reasonOf_insert hi
  | release =>
      exact .ends _ .manual trivial (.of_eq (List.append_assoc _ _ _).symm) fun _ => rfl
  | apiAudit he => exact .quiet trivial (perm_audit_api he) fun _ => rfl
  | @expire o rest hp howes hx =>
      have he := perm_owe_engine (x := [(o.id, ReleaseReason.expired)]) howes
      cases ho : s.store.reasonOf o.id with
      | some reason =>
          refine .again o.id (fun hC => ?_) he (by rw [ho]; nofun)
          have hn := hC o.id hx
          rw [ho] at hn
          cases hn
      | none =>
          have hid : o.id ∈ s.store.rows.map OverrideRow.id := by
            refine hk o (List.mem_append_right _ ?_)
            rw [hp]
            exact List.mem_cons_self
          obtain ⟨r, hr, hclosing⟩ := Overrides.closing_of_open hid ho
          refine .ends (fun r => decide (r.id = o.id)) .expired ?_ ?_ fun _ => rfl
          · intro id hmem
            rw [Option.mem_def.mp hmem] at hx
            cases hx
            exact ho
          · have hended : [r].map (ended .expired) = [(o.id, .expired)] := by rw [← hr]; rfl
            rw [hclosing, hended]
            exact he
  | keep _ hx =>
      refine .quiet (fun id hmem => ?_) (.refl _) fun _ => rfl
      rw [Option.mem_def.mp hmem] at hx
      cases hx
  | engineAudit he =>
      refine .quiet trivial (.of_eq ?_) fun _ => rfl
      simp [Holds.endings, he]
  | wake _ howes => exact .ends _ .lapsed trivial (perm_owe_engine howes) fun _ => rfl
  | tick | listActive | reload | clock => exact .quiet trivial (.refl _) fun _ => rfl

theorem rearmed_id (o : ActiveOverride ι τ) : (s.rearmed o).id = o.id := by
  rw [Holds.rearmed]
  split
  · split
    · next hid => exact hid
    · rfl
  · rfl

omit [DecidableEq ι] [DecidableEq τ] in
theorem id_mem_of_listActive {db : Overrides ι τ} {o : ActiveOverride ι τ} (h : o ∈ db.listActive) :
    o.id ∈ db.rows.map OverrideRow.id := by
  obtain ⟨r, hr, rfl⟩ := List.mem_map.mp h
  exact List.mem_map_of_mem (f := OverrideRow.id) (List.mem_filter.mp hr).1

omit [DecidableEq ι] [DecidableEq τ] in
/-- A step that closes rows, and watches nothing new. -/
theorem Holds.Known.close (hk : s.Known) {p : OverrideRow ι τ → Bool} {reason : ReleaseReason}
    (hstore : s'.store = s.store.close p reason) (hsub : s'.watched ⊆ s.watched) : s'.Known := by
  intro o ho
  have hid := hk o (hsub ho)
  rwa [hstore, Overrides.map_id_close]

/-- **What the engine watches is in the table.**  It takes every hold from there, and the table
loses no row. -/
theorem known_step (hk : s.Known) (hm : HoldMoves s a s') : s'.Known := by
  cases hm with
  | @create _ _ _ _ _ _ store hi =>
      intro o ho
      have hid := hk o ho
      change o.id ∈ store.rows.map OverrideRow.id
      rw [Overrides.map_id_insert hi, Overrides.map_id_close]
      exact List.mem_cons_of_mem _ hid
  | release => exact hk.close rfl fun _ => id
  | apiAudit | engineAudit | clock => exact hk
  | tick =>
      intro o ho
      rcases List.mem_append.mp ho with ho | ho <;> exact hk o (List.mem_append_left _ ho)
  | expire hp =>
      refine hk.close rfl fun x hx => ?_
      rcases List.mem_append.mp hx with hx | hx
      · exact List.mem_append_left _ (List.mem_filter.mp hx).1
      · exact List.mem_append_right _ (by rw [hp]; exact List.mem_cons_of_mem _ hx)
  | keep hp =>
      intro x hx
      rcases List.mem_append.mp hx with hx | hx
      · exact hk x (List.mem_append_left _ hx)
      · exact hk x (List.mem_append_right _ (by rw [hp]; exact List.mem_cons_of_mem _ hx))
  | listActive =>
      intro o ho
      rcases List.mem_append.mp ho with ho | ho
      · exact hk o (List.mem_append_left _ ho)
      · exact id_mem_of_listActive ho
  | reload hp =>
      intro o ho
      rcases List.mem_append.mp ho with ho | ho
      · obtain ⟨x, hx, rfl⟩ := List.mem_map.mp ho
        rw [rearmed_id]
        exact hk x (List.mem_append_right _ (by rw [hp]; exact hx))
      · cases ho
  | wake hp =>
      intro o ho
      rcases List.mem_append.mp ho with ho | ho
      · obtain ⟨r, hr, rfl⟩ := List.mem_map.mp ho
        exact List.mem_map_of_mem (f := OverrideRow.id) (List.mem_filter.mp hr).1
      · rw [hp] at ho
        cases ho

/-! ### The trail of a run -/

omit [DecidableEq τ] in
theorem reasons_append {l l' : List (ι × ReleaseReason)} :
    reasons id (l ++ l') = reasons id l ++ reasons id l' := by
  rw [reasons, List.filter_append, List.map_append, reasons, reasons]

/-- The endings that are owed are owed in any order. -/
theorem reasons_perm (id : ι) {l l' : List (ι × ReleaseReason)} (h : l.Perm l') :
    (reasons id l).Perm (reasons id l') :=
  (h.filter _).map _

omit [DecidableEq τ] in
/-- What a `close` owes a hold: the reason, if it closed it. -/
theorem reasons_closing {db : Overrides ι τ} {p : OverrideRow ι τ → Bool} {reason : ReleaseReason} :
    reasons id ((db.closing p).map (ended reason)) =
      if id ∈ (db.closing p).map OverrideRow.id then [reason] else [] := by
  have hnodup := db.nodup_closing (p := p)
  revert hnodup
  induction db.closing p with
  | nil => intro _; rfl
  | cons r rows ih =>
      intro hnodup
      obtain ⟨hr, hrows⟩ := List.nodup_cons.mp hnodup
      rw [List.map_cons, ← List.singleton_append, reasons_append, ih hrows, List.map_cons]
      by_cases hid : r.id = id
      · subst hid
        rw [if_neg hr, if_pos List.mem_cons_self]
        simp [reasons, ended]
      · have hmem : id ∈ r.id :: rows.map OverrideRow.id ↔ id ∈ rows.map OverrideRow.id := by
          simp [Ne.symm hid]
        simp [reasons, ended, hid, hmem]

omit [DecidableEq ι] [DecidableEq τ] in
theorem eq_toList_of_perm {α : Type} {l : List α} {o : Option α} (h : l.Perm o.toList) :
    l = o.toList := by
  cases o with
  | none => exact List.perm_nil.mp h
  | some x => exact List.perm_singleton.mp h

omit [DecidableEq τ] in
/-- A step that expires nothing ended keeps the trail. -/
theorem auditedOnce_step (h : s.AuditedOnce) (hC : s.StillOpen a) (he : Ends s a s') :
    s'.AuditedOnce := by
  intro id
  cases he with
  | quiet _ he hr =>
      have hp := reasons_perm id he
      rw [h id] at hp
      rw [hr id]
      exact eq_toList_of_perm hp
  | ends p reason _ he hr =>
      have hp := reasons_perm id he
      rw [reasons_append, h id, reasons_closing] at hp
      rw [hr id, Overrides.reasonOf_close]
      refine eq_toList_of_perm (hp.trans ?_)
      by_cases hc : id ∈ (s.store.closing p).map OverrideRow.id
      · rw [if_pos hc, if_pos hc, Overrides.reasonOf_of_mem_closing hc]
        exact .refl _
      · rw [if_neg hc, if_neg hc, List.append_nil]
  | again _ hC' => exact absurd hC hC'

/-- A hold that is audited twice. -/
def Holds.AuditedTwice (s : Holds ι τ) : Prop := ∃ id, 2 ≤ (reasons id s.endings).length

omit [DecidableEq τ] in
/-- What was audited twice stays so. -/
theorem auditedTwice_step (h : s.AuditedTwice) (he : Ends s a s') : s'.AuditedTwice := by
  obtain ⟨id, hid⟩ := h
  refine ⟨id, ?_⟩
  cases he with
  | quiet _ he _ => rw [(reasons_perm id he).length_eq]; exact hid
  | ends p reason _ he _ =>
      rw [(reasons_perm id he).length_eq, reasons_append, List.length_append]
      omega
  | again _ _ he _ =>
      rw [(reasons_perm id he).length_eq, reasons_append, List.length_append]
      omega

omit [DecidableEq τ] in
/-- To expire a hold that has ended audits it twice. -/
theorem auditedTwice_of_again (h : s.AuditedOnce) (hC : ¬ s.StillOpen a) (he : Ends s a s') :
    s'.AuditedTwice := by
  cases he with
  | quiet hC' => exact absurd hC' hC
  | ends _ _ hC' => exact absurd hC' hC
  | again id _ he hid =>
      refine ⟨id, ?_⟩
      obtain ⟨reason, hreason⟩ := Option.ne_none_iff_exists'.mp hid
      rw [(reasons_perm id he).length_eq, reasons_append, h id, hreason]
      simp [reasons]

omit [DecidableEq τ] in
/-- Twice is not once. -/
theorem not_auditedOnce_of_twice (h : s.AuditedTwice) : ¬ s.AuditedOnce := by
  intro hone
  obtain ⟨id, hid⟩ := h
  rw [hone id] at hid
  cases hr : s.store.reasonOf id <;> simp [hr] at hid

/-- **Each hold ends once in the trail**, with the reason on its row, in exactly the runs whose
engine never expires a hold that has already ended. -/
theorem audited_once_iff {observeOnly : List τ} {mono wall : ℚ} {trusted : Bool}
    {as : List (HoldAction ι τ)} :
    (holds ι τ).RunIf Holds.StillOpen (Holds.fresh observeOnly mono wall trusted) as s ↔
      (holds ι τ).Run (Holds.fresh observeOnly mono wall trusted) as s ∧ s.AuditedOnce := by
  have hknown : (Holds.fresh (ι := ι) observeOnly mono wall trusted).Known := nofun
  have honce : (Holds.fresh (ι := ι) observeOnly mono wall trusted).AuditedOnce := fun _ => rfl
  constructor
  · intro h
    refine ⟨h.toRun, (h.invariant (I := fun s => s.Known ∧ s.AuditedOnce) ⟨hknown, honce⟩ ?_).2⟩
    rintro s a s' hC ⟨hk, hone⟩ hs
    have hm := hold_moves hs
    exact ⟨known_step hk hm, auditedOnce_step hone hC (ends_step hk hm)⟩
  · rintro ⟨h, hend⟩
    refine Machine.RunIf.of_not_bad (I := fun s => s.Known ∧ s.AuditedOnce)
      (B := fun s => s.Known ∧ s.AuditedTwice) h ⟨hknown, honce⟩ ?_ ?_ ?_
      fun hbad => not_auditedOnce_of_twice hbad.2 hend
    · rintro s a s' hC ⟨hk, hone⟩ hs
      have hm := hold_moves hs
      exact ⟨known_step hk hm, auditedOnce_step hone hC (ends_step hk hm)⟩
    · rintro s a s' hC ⟨hk, hone⟩ hs
      have hm := hold_moves hs
      exact ⟨known_step hk hm, auditedTwice_of_again hone hC (ends_step hk hm)⟩
    · rintro s a s' ⟨hk, htwice⟩ hs
      have hm := hold_moves hs
      exact ⟨known_step hk hm, auditedTwice_step htwice (ends_step hk hm)⟩

/-- A minute's hold, picked up by a tick, released by hand at the end of the minute, and then
looked at by the next tick. -/
def releasedBeforeExpiry : List (HoldAction ℕ ℕ) :=
  [.wake, .create 0 0 (1 / 2) 60 .ramp, .tick, .listActive, .reload, .clock 60 60 true, .release 0,
    .apiAudit 0, .tick, .expire, .engineAudit]

/-- The engine audits as expired what was released by hand. -/
theorem not_audited_once :
    ¬ ∀ (observeOnly : List ℕ) (mono wall : ℚ) (trusted : Bool) (as : List (HoldAction ℕ ℕ))
      (s : Holds ℕ ℕ), (holds ℕ ℕ).Run (Holds.fresh observeOnly mono wall trusted) as s →
      s.AuditedOnce := by
  intro h
  have hrun : ((holds ℕ ℕ).exec (Holds.fresh [] 0 0 true) releasedBeforeExpiry).map
      (fun s => (reasons 0 s.endings, s.store.reasonOf 0)) =
      some ([.manual, .expired], some .manual) := by
    decide +kernel
  obtain ⟨s, hs, hl⟩ := Option.map_eq_some_iff.mp hrun
  obtain ⟨hreasons, hrow⟩ := Prod.ext_iff.mp hl
  have hone := h _ _ _ _ _ s (Machine.exec_eq_some.mp hs) 0
  have hreasons : reasons 0 s.endings = [.manual, .expired] := hreasons
  have hrow : s.store.reasonOf 0 = some .manual := hrow
  rw [hreasons, hrow] at hone
  cases hone

end BellasReef.ControlEngine
