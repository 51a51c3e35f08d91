import BellasReef.Api.Pairing
import BellasReef.Support.Tickets
import Mathlib.Data.Fintype.Basic

/-!
# Api — Grants

How many clients an unattended credential lets in, over every interleaving of the pairing calls.

A window and a pairing request are tickets: the `UPDATE` that finds the row free takes it, and a
call that finds it taken discards the client it has minted.  The setup code is decided by the latch
that never comes off, and blind trust-on-first-use by a count under a lock which the other grants
do not take.  `one_grant`: where no other grant is decided while a first client is between its
count and its insert, no credential lets in two, and a first client is the first ever; where no
other row is inserted then, its row is also the oldest.

* `windows_step`, `requests_step`, `setup_step`, `rows_step`: one invariant each, over `PairMoves`.
* `grants_step`: all of them, over a step; `first_step`, `firstRow_step`: what needs a condition.
-/

namespace BellasReef.Api
open BellasReef.Support

variable {κ η : Type}

/-- The client of an approved request. -/
def PairingRequest.grantedTo (x : PairingRequest κ η) : Option κ :=
  if x.state = .approved then x.clientPk else none

section Statement
variable [DecidableEq κ]

omit [DecidableEq κ] in
/-- The calls whose grant is decided, newest first. -/
def keptOrder (s : Pairing κ η) (a : PairAction κ η) (s' : Pairing κ η) (order : List κ) : List κ :=
  match a with
  | .go k _ =>
      if (s.calls k).kept = none ∧ (s'.calls k).kept.isSome then k :: order else order
  | .arrive _ _ => order

/-- One grant for each credential. -/
structure OneGrant (s : Pairing κ η) (order : List κ) : Prop where
  /-- A recovery window lets in one client at most. -/
  window : ∀ w j k, (s.calls j).kept = some (.window w) → (s.calls k).kept = some (.window w) → j = k
  /-- The setup code lets in one client at most. -/
  setupCode : ∀ j k, (s.calls j).kept = some .setupCode → (s.calls k).kept = some .setupCode → j = k
  /-- A first client is the first client ever. -/
  tofu : ∀ k, (s.calls k).kept = some .tofu → order.getLast? = some k
  /-- An approved request has one client, which is there. -/
  approval : ∀ x ∈ s.hub.requests, x.state = .approved → ∃ k, x.clientPk = some k ∧
    (∃ c ∈ s.hub.clients, c.id = k) ∧ ∀ j, (s.calls j).kept = some (.approval x.id) ↔ j = k
  /-- No two rows are one client. -/
  clients : (s.hub.clients.map ClientRow.id).Nodup
  /-- A call that has been granted nothing leaves no client. -/
  lost : ∀ k a, s.calls k = .done a → (∀ m, a ≠ .granted m) → ∀ c ∈ s.hub.clients, c.id ≠ k

/-- The decider that a call is about to run would go its way. -/
def PairStage.decides (h : Hub κ η) (now : ℚ) : PairStage κ η → Bool
  | .deciding m => h.wins now m
  | _ => false

/-- No grant is decided while a first client is between its count and its insert. -/
def NoneBetween (s : Pairing κ η) : PairAction κ η → Prop
  | .go k t => (s.calls k).decides s.hub t.now = true → ∀ j, s.calls j ≠ .inserting
  | .arrive _ _ => True

/-- The call is about to insert the row of a client that is not a first one. -/
def PairStage.creates : PairStage κ η → Bool
  | .creating _ => true
  | _ => false

/-- No other row is inserted while a first client is between its count and its insert. -/
def NoRowBetween (s : Pairing κ η) : PairAction κ η → Prop
  | .go k _ => (s.calls k).creates = true → ∀ j, s.calls j ≠ .inserting
  | .arrive _ _ => True

/-- The row of a first client is the oldest in the table. -/
def FirstRow (s : Pairing κ η) : Prop :=
  ∀ k, (s.calls k).kept = some .tofu → (s.hub.clients.map ClientRow.id).getLast? = some k

end Statement

/-! ### Frames -/

namespace Hub
variable {h : Hub κ η}

@[simp] theorem clients_completeSetup : h.completeSetup.clients = h.clients := by
  rw [completeSetup]; split <;> rfl

@[simp] theorem windows_completeSetup : h.completeSetup.windows = h.windows := by
  rw [completeSetup]; split <;> rfl

@[simp] theorem requests_completeSetup : h.completeSetup.requests = h.requests := by
  rw [completeSetup]; split <;> rfl

@[simp] theorem firstLock_completeSetup : h.completeSetup.firstLock = h.firstLock := by
  rw [completeSetup]; split <;> rfl

@[simp] theorem tokens_completeSetup : h.completeSetup.tokens = h.tokens := by
  rw [completeSetup]; split <;> rfl

/-- `complete_setup` latches once. -/
theorem latches_completeSetup : h.completeSetup.latches = false := by
  unfold completeSetup
  split
  · rfl
  · next hl => exact Bool.eq_false_iff.mpr hl

end Hub

/-- A call that has decided nothing has kept nothing. -/
theorem kept_of_quiet {p : PairStage κ η} (h : p.quiet = true) : p.kept = none := by
  unfold PairStage.kept
  split
  · cases h
  · cases h
  · cases h
  · rfl

theorem hasRow_of_quiet {p : PairStage κ η} (h : p.quiet = true) : p.hasRow = false := by
  unfold PairStage.hasRow
  split
  all_goals first | cases h | rfl

/-- Who is granted has a row. -/
theorem hasRow_of_kept {p : PairStage κ η} {m : GrantMethod κ} (h : p.kept = some m) :
    p.hasRow = true := by
  unfold PairStage.kept at h
  split at h
  · rfl
  · rfl
  · rfl
  · cases h

section Calls
variable [DecidableEq κ] {h h' : Hub κ η} {now : ℚ} {k : κ} {p p' : PairStage κ η}
  {calls : κ → PairStage κ η} {m : GrantMethod κ}

/-- A step of one call changes what that call has kept. -/
theorem kept_update (j : κ) :
    (Function.update calls k p' j).kept = if j = k then p'.kept else (calls j).kept := by
  by_cases hj : j = k
  · rw [hj, Function.update_self, if_pos rfl]
  · rw [Function.update_of_ne hj, if_neg hj]

/-- Where a step decides no grant of this kind, the calls have won what they had. -/
theorem kept_update_iff {β : Type} {f : β → GrantMethod κ}
    (hk : ∀ b, p'.kept = some (f b) ↔ (calls k).kept = some (f b)) (j : κ) (b : β) :
    (Function.update calls k p' j).kept = some (f b) ↔ (calls j).kept = some (f b) := by
  rw [kept_update]
  split
  · next hj => rw [hj]; exact hk b
  · rfl

/-- Where it decides one, that call has won it too. -/
theorem kept_update_take {β : Type} {f : β → GrantMethod κ} {b₀ : β} (hf : Function.Injective f)
    (hp : (calls k).kept = none) (hp' : p'.kept = some (f b₀)) (j : κ) (b : β) :
    (Function.update calls k p' j).kept = some (f b) ↔
      (calls j).kept = some (f b) ∨ j = k ∧ b = b₀ := by
  rw [kept_update]
  split
  · next hj =>
      rw [hj, hp, hp']
      constructor
      · exact fun he => .inr ⟨rfl, (hf (Option.some.inj he)).symm⟩
      · rintro (he | ⟨-, rfl⟩)
        · cases he
        · rfl
  · next hj => exact ⟨.inl, fun he => he.resolve_right fun hjk => hj hjk.1⟩

/-- A call that is done takes no step. -/
theorem PairMoves.ne_done (hm : PairMoves h now k p h' p') (a : PairAnswer κ η) : p ≠ .done a := by
  cases hm with
  | reads _ hd _ => exact hd a
  | _ => nofun

/-- A call that is done stays done. -/
theorem PairMoves.update_done (hm : PairMoves h now k (calls k) h' p') {j : κ} {a : PairAnswer κ η}
    (hj : calls j = .done a) : Function.update calls k p' j = .done a := by
  have hne : j ≠ k := by
    rintro rfl
    exact hm.ne_done a hj
  rw [Function.update_of_ne hne, hj]

/-- A step decides a grant where its decider goes its way, or inserts a first client. -/
theorem PairMoves.kept (hm : PairMoves h now k p h' p') : p'.kept = p.kept ∨
    p.kept = none ∧ ((∃ m, p = .deciding m ∧ h.wins now m = true ∧ p'.kept = some m) ∨
      p = .inserting ∧ p'.kept = some .tofu) := by
  cases hm with
  | reads hp _ hp' => exact .inl ((kept_of_quiet hp').trans (kept_of_quiet hp).symm)
  | inserts => exact .inr ⟨rfl, .inr ⟨rfl, rfl⟩⟩
  | latchesCode hw => exact .inr ⟨rfl, .inl ⟨_, rfl, hw, rfl⟩⟩
  | spends hw => exact .inr ⟨rfl, .inl ⟨_, rfl, hw, rfl⟩⟩
  | approves hw => exact .inr ⟨rfl, .inl ⟨_, rfl, hw, rfl⟩⟩
  | _ => exact .inl rfl

/-- A first client is inserted after a count of zero. -/
theorem PairMoves.inserting (hm : PairMoves h now k p h' .inserting) : h.clients = [] := by
  cases hm with
  | reads _ _ hp' => cases hp'
  | counts hc => exact hc

end Calls

/-! ### The windows and the requests -/

/-- The windows are spent by those who were granted them. -/
structure Windows (h : Hub κ η) (calls : κ → PairStage κ η) : Prop where
  tickets : Tickets PairingWindow.id PairingWindow.usedBy h.windows
    fun j w => (calls j).kept = some (.window w)
  opened : ∀ x ∈ h.windows, calls x.id = .done .windowOpened

/-- The requests are approved for those who were granted them. -/
structure Requests (h : Hub κ η) (calls : κ → PairStage κ η) : Prop where
  tickets : Tickets PairingRequest.id PairingRequest.grantedTo h.requests
    fun j r => (calls j).kept = some (.approval r)
  opened : ∀ x ∈ h.requests, ∃ code, calls x.id = .done (.requested code)

section Tables
variable [DecidableEq κ] {h h' : Hub κ η} {now : ℚ} {k : κ} {p' : PairStage κ η}
  {calls : κ → PairStage κ η}

/-- A new row is named by the call that makes it, and no row is there of that name. -/
theorem not_mem_ids {κ η : Type} {calls : κ → PairStage κ η} {k : κ} {ρ : Type} {id : ρ → κ}
    {rows : List ρ} {P : PairStage κ η → Prop}
    (hopened : ∀ x ∈ rows, P (calls (id x))) (hk : ¬ P (calls k)) : k ∉ rows.map id := by
  intro hmem
  obtain ⟨x, hx, rfl⟩ := List.mem_map.mp hmem
  exact hk (hopened x hx)

/-- **Step.**  A window is used by the one call that consumed it. -/
theorem windows_step (hi : Windows h calls) (hm : PairMoves h now k (calls k) h' p') :
    Windows h' (Function.update calls k p') := by
  have hopened : ∀ x ∈ h.windows, Function.update calls k p' x.id = .done .windowOpened :=
    fun x hx => hm.update_done (hi.opened x hx)
  have hsame : h'.windows = h.windows →
      (∀ w, p'.kept = some (.window w) ↔ (calls k).kept = some (.window w)) →
      Windows h' (Function.update calls k p') := by
    intro hrows hk
    constructor
    · rw [hrows]
      exact hi.tickets.congr (kept_update_iff hk)
    · rw [hrows]
      exact hopened
  generalize hp : calls k = p at hm hsame
  cases hm with
  | reads hq _ hq' => exact hsame rfl fun w => by rw [kept_of_quiet hq, kept_of_quiet hq']
  | sweeps =>
      constructor
      · refine (hi.tickets.congr (kept_update_iff fun w => by rw [hp]; rfl)).filter ?_
        intro x _ hx
        simp only [decide_eq_false_iff_not, not_not] at hx
        exact hx.1
      · exact fun x hx => hopened x (List.mem_filter.mp hx).1
  | opensWindow hid hu =>
      constructor
      · refine (hi.tickets.congr (kept_update_iff fun w => by rw [hp]; rfl)).cons ?_ hu
        rw [hid]
        refine not_mem_ids (P := (· = .done .windowOpened)) hi.opened ?_
        rw [hp]
        nofun
      · intro x hx
        rcases List.mem_cons.mp hx with rfl | hx
        · rw [hid, Function.update_self]
        · exact hopened x hx
  | @spends w hw =>
      obtain ⟨x, hx, hxw⟩ := List.any_eq_true.mp hw
      obtain ⟨hid, hopen⟩ := Bool.and_eq_true_iff.mp hxw
      obtain rfl := of_decide_eq_true hid
      have hfree : x.usedBy = none := (of_decide_eq_true hopen).1
      constructor
      · refine hi.tickets.take (k := k) (x := x) ?_ hx hfree ?_ ?_ ?_
        · intro y
          split <;> rfl
        · rw [if_pos ⟨rfl, hopen⟩]
        · exact fun y _ hne => by rw [if_neg fun he => hne he.1]
        · exact kept_update_take (fun _ _ he => by cases he; rfl) (by rw [hp]; rfl) rfl
      · intro y hy
        obtain ⟨z, hz, rfl⟩ := List.mem_map.mp hy
        have hzid : (if z.id = x.id ∧ z.isOpen now then { z with usedBy := some k } else z).id = z.id := by
          split <;> rfl
        rw [hzid]
        exact hopened z hz
  | inserts => exact hsame rfl fun w => by simp [PairStage.kept]
  | latchesCode => exact hsame Hub.windows_completeSetup fun w => by simp [PairStage.kept]
  | approves => exact hsame rfl fun w => by simp [PairStage.kept]
  | latches => exact hsame Hub.windows_completeSetup fun w => Iff.rfl
  | _ => exact hsame rfl fun w => Iff.rfl

omit [DecidableEq κ] in
theorem grantedTo_of_pending {x : PairingRequest κ η} (h : x.state = .pending) : x.grantedTo = none := by
  rw [PairingRequest.grantedTo, if_neg]
  rw [h]
  rintro ⟨⟩

omit [DecidableEq κ] in
/-- To expire a request is to give it to nobody. -/
theorem grantedTo_age {x : PairingRequest κ η} : (x.age now).grantedTo = x.grantedTo := by
  have hage : (x.age now).grantedTo = if x.stateAt now = .approved then x.clientPk else none := rfl
  rw [hage, PairingRequest.grantedTo, PairingRequest.stateAt]
  by_cases hx : x.state = .pending ∧ x.expiresAt ≤ now
  · rw [if_pos hx, if_neg (by rintro ⟨⟩), if_neg (by rw [hx.1]; rintro ⟨⟩)]
  · rw [if_neg hx]

/-- **Step.**  A request is granted by the one call that approved it. -/
theorem requests_step (hi : Requests h calls) (hm : PairMoves h now k (calls k) h' p') :
    Requests h' (Function.update calls k p') := by
  have hopened : ∀ x ∈ h.requests, ∃ code, Function.update calls k p' x.id = .done (.requested code) :=
    fun x hx => (hi.opened x hx).imp fun _ => hm.update_done
  have hsame : h'.requests = h.requests →
      (∀ r, p'.kept = some (.approval r) ↔ (calls k).kept = some (.approval r)) →
      Requests h' (Function.update calls k p') := by
    intro hrows hk
    constructor
    · rw [hrows]
      exact hi.tickets.congr (kept_update_iff hk)
    · rw [hrows]
      exact hopened
  -- rows rewritten in place
  have hmap : ∀ {f : PairingRequest κ η → PairingRequest κ η}, (∀ x, (f x).id = x.id) →
      ∀ x ∈ h.requests.map f, ∃ code, Function.update calls k p' x.id = .done (.requested code) := by
    intro f hf x hx
    obtain ⟨y, hy, rfl⟩ := List.mem_map.mp hx
    rw [hf]
    exact hopened y hy
  generalize hp : calls k = p at hm hsame
  cases hm with
  | reads hq _ hq' => exact hsame rfl fun w => by rw [kept_of_quiet hq, kept_of_quiet hq']
  | sweeps =>
      have ht : Tickets PairingRequest.id PairingRequest.grantedTo h.requests
          fun j r => (Function.update calls k .opening j).kept = some (.approval r) :=
        hi.tickets.congr (kept_update_iff fun w => by rw [hp]; rfl)
      constructor
      · refine (ht.map (f := (·.age now)) (fun _ => rfl) fun x _ => grantedTo_age).filter ?_
        intro x _ hx
        simp only [decide_eq_false_iff_not, not_not] at hx
        rw [PairingRequest.grantedTo, if_neg]
        rcases hx.1 with he | he <;> (rw [he]; rintro ⟨⟩)
      · exact fun x hx => hmap (f := (·.age now)) (fun _ => rfl) x (List.mem_filter.mp hx).1
  | @opens x hid hx =>
      constructor
      · refine (hi.tickets.congr (kept_update_iff fun w => by rw [hp]; rfl)).cons ?_
          (grantedTo_of_pending hx)
        rw [hid]
        refine not_mem_ids (P := fun p => ∃ code, p = .done (.requested code)) hi.opened ?_
        rw [hp]
        rintro ⟨code, he⟩
        cases he
      · intro y hy
        rcases List.mem_cons.mp hy with rfl | hy
        · rw [hid, Function.update_self]
          exact ⟨_, rfl⟩
        · exact hopened y hy
  | @denies r =>
      have hid : ∀ x : PairingRequest κ η, (if x.id = r ∧ x.state = .pending then
          { x with state := .denied, approved_has_client := by rintro ⟨⟩ } else x).id = x.id := by
        intro x
        split <;> rfl
      refine ⟨(hi.tickets.congr (kept_update_iff fun w => by rw [hp]; rfl)).map hid ?_, hmap hid⟩
      intro x _
      split
      · next hx => rw [grantedTo_of_pending hx.2]; rfl
      · rfl
  | @approves r hw =>
      obtain ⟨x, hx, hxr⟩ := List.any_eq_true.mp hw
      obtain ⟨rfl, hpending⟩ := of_decide_eq_true hxr
      have hid : ∀ y : PairingRequest κ η, (if y.id = x.id ∧ y.state = .pending then
          { y with
            state := .approved, clientPk := some k, approved_has_client := fun _ => rfl } else y).id =
            y.id := by
        intro y
        split <;> rfl
      refine ⟨hi.tickets.take (k := k) hid hx (grantedTo_of_pending hpending) ?_ ?_ ?_, hmap hid⟩
      · rw [if_pos ⟨rfl, hpending⟩]
        rfl
      · exact fun y _ hne => by rw [if_neg fun he => hne he.1]
      · exact kept_update_take (fun _ _ he => by cases he; rfl) (by rw [hp]; rfl) rfl
  | inserts => exact hsame rfl fun w => by simp [PairStage.kept]
  | latchesCode => exact hsame Hub.requests_completeSetup fun w => by simp [PairStage.kept]
  | spends => exact hsame rfl fun w => by simp [PairStage.kept]
  | latches => exact hsame Hub.requests_completeSetup fun w => Iff.rfl
  | _ => exact hsame rfl fun w => Iff.rfl

end Tables

/-! ### The clients, the lock and the setup -/

/-- The clients are those of the calls that have a row. -/
structure ClientRows (h : Hub κ η) (calls : κ → PairStage κ η) : Prop where
  nodup : (h.clients.map ClientRow.id).Nodup
  row_iff : ∀ j, j ∈ h.clients.map ClientRow.id ↔ (calls j).hasRow = true

/-- Who is between the count and the insert of a first client holds the lock. -/
def Locked (h : Hub κ η) (calls : κ → PairStage κ η) : Prop :=
  ∀ j, calls j = .locked ∨ calls j = .inserting → h.firstLock = some j

/-- The setup code was latched by one call, and stays so. -/
structure SetupDone (h : Hub κ η) (calls : κ → PairStage κ η) : Prop where
  latched : ∀ j, (calls j).kept = some .setupCode → h.identity.isSome ∧ h.latches = false
  unique : ∀ j j', (calls j).kept = some .setupCode → (calls j').kept = some .setupCode → j = j'

section Others
variable [DecidableEq κ] {h h' : Hub κ η} {now : ℚ} {k : κ} {p' : PairStage κ η}
  {calls : κ → PairStage κ η}

/-- **What a step does to the rows of the clients**: it leaves them there, inserts its own or
discards it. -/
theorem PairMoves.clients {p : PairStage κ η} (hm : PairMoves h now k p h' p') :
    (h'.clients.map ClientRow.id = h.clients.map ClientRow.id ∧ p'.hasRow = p.hasRow) ∨
    (h'.clients = ⟨k, false⟩ :: h.clients ∧ p.hasRow = false ∧ p'.hasRow = true ∧
      (p = .inserting ∨ p.creates = true)) ∨
    (h'.clients = h.clients.filter (·.id ≠ k) ∧ p'.hasRow = false) := by
  cases hm with
  | reads hq _ hq' => exact .inl ⟨rfl, (hasRow_of_quiet hq').trans (hasRow_of_quiet hq).symm⟩
  | inserts => exact .inr (.inl ⟨rfl, rfl, rfl, .inl rfl⟩)
  | creates => exact .inr (.inl ⟨rfl, rfl, rfl, .inr rfl⟩)
  | losesApproval => exact .inr (.inr ⟨rfl, rfl⟩)
  | discards => exact .inr (.inr ⟨rfl, rfl⟩)
  | latchesCode => exact .inl ⟨congrArg _ Hub.clients_completeSetup, rfl⟩
  | latches => exact .inl ⟨congrArg _ Hub.clients_completeSetup, rfl⟩
  | revokes =>
      refine .inl ⟨?_, rfl⟩
      rw [Hub.revoke, List.map_map]
      refine List.map_congr_left fun c _ => ?_
      rw [Function.comp_apply]
      split <;> rfl
  | _ => exact .inl ⟨rfl, rfl⟩

/-- **Step.**  A client's row is there as long as its call has not given it up. -/
theorem rows_step (hi : ClientRows h calls) (hm : PairMoves h now k (calls k) h' p') :
    ClientRows h' (Function.update calls k p') := by
  rcases hm.clients with ⟨hids, hrow⟩ | ⟨hc, hrow, hrow', -⟩ | ⟨hc, hrow'⟩
  · refine ⟨hids ▸ hi.nodup, fun j => ?_⟩
    rw [hids, hi.row_iff]
    by_cases hj : j = k
    · rw [hj, Function.update_self, hrow]
    · rw [Function.update_of_ne hj]
  · have hnew : k ∉ h.clients.map ClientRow.id := by
      rw [hi.row_iff, hrow]
      rintro ⟨⟩
    refine ⟨by rw [hc]; exact List.nodup_cons.mpr ⟨hnew, hi.nodup⟩, fun j => ?_⟩
    rw [hc, List.map_cons, List.mem_cons, hi.row_iff]
    by_cases hj : j = k
    · rw [hj, Function.update_self]
      exact iff_of_true (.inl rfl) hrow'
    · rw [Function.update_of_ne hj]
      exact ⟨fun he => he.resolve_left hj, .inr⟩
  · refine ⟨by rw [hc]; exact hi.nodup.sublist (List.filter_sublist.map _), fun j => ?_⟩
    by_cases hj : j = k
    · rw [hj, Function.update_self, hrow', hc]
      refine iff_of_false (fun hmem => ?_) (by rintro ⟨⟩)
      obtain ⟨c, hc, hid⟩ := List.mem_map.mp hmem
      exact of_decide_eq_true (List.mem_filter.mp hc).2 hid
    · rw [Function.update_of_ne hj, ← hi.row_iff, hc]
      constructor
      · intro hmem
        obtain ⟨c, hc, rfl⟩ := List.mem_map.mp hmem
        exact List.mem_map_of_mem (List.mem_filter.mp hc).1
      · intro hmem
        obtain ⟨c, hc, rfl⟩ := List.mem_map.mp hmem
        exact List.mem_map_of_mem (List.mem_filter.mpr ⟨hc, decide_eq_true hj⟩)

/-- **Step.**  One first client at a time is between its count and its commit. -/
theorem lock_step (hi : Locked h calls) (hm : PairMoves h now k (calls k) h' p') :
    Locked h' (Function.update calls k p') := by
  intro j hj
  by_cases hjk : j = k
  · rw [hjk, Function.update_self] at hj
    generalize hp : calls k = p at hm
    cases hm with
    | reads _ _ hq' => rcases hj with rfl | rfl <;> cases hq'
    | locks => rw [hjk]
    | counts => rw [hjk, hi k (.inl hp)]
    | _ => rcases hj with hj | hj <;> cases hj
  · rw [Function.update_of_ne hjk] at hj
    have hl := hi j hj
    -- whoever gives the lock up is the one who has it
    have hother : ¬ (calls k = .locked ∨ calls k = .inserting) := by
      intro hk
      exact hjk (Option.some.inj (hl.symm.trans (hi k hk)))
    generalize calls k = p at hm hother
    cases hm with
    | locks hnone => rw [hnone] at hl; cases hl
    | unlocks => exact absurd (.inl rfl) hother
    | inserts => exact absurd (.inr rfl) hother
    | latchesCode => exact Hub.firstLock_completeSetup.trans hl
    | latches => exact Hub.firstLock_completeSetup.trans hl
    | _ => exact hl

omit [DecidableEq κ] in
theorem isSome_completeSetup (hs : h.identity.isSome) : h.completeSetup.identity.isSome := by
  rw [Hub.completeSetup]
  split
  · rfl
  · exact hs

/-- The latch never comes off. -/
theorem PairMoves.latched {p : PairStage κ η} (hm : PairMoves h now k p h' p')
    (hd : h.identity.isSome ∧ h.latches = false) : h'.identity.isSome ∧ h'.latches = false := by
  obtain ⟨hs, hl⟩ := hd
  obtain ⟨i, hident⟩ := Option.isSome_iff_exists.mp hs
  have hlatches : h.latches = !i.setupCompleted := by rw [Hub.latches, hident]; rfl
  cases hm with
  | latchesCode => exact ⟨isSome_completeSetup hs, Hub.latches_completeSetup⟩
  | latches => exact ⟨isSome_completeSetup hs, Hub.latches_completeSetup⟩
  | identifies =>
      refine ⟨rfl, ?_⟩
      rw [Hub.latches, Hub.hubId, hident]
      exact hlatches.symm.trans hl
  | stores =>
      rw [Hub.latches, Hub.setSetupCodeHash, hident]
      exact ⟨rfl, hlatches.symm.trans hl⟩
  | _ => exact ⟨hs, hl⟩

/-- **Step.**  The setup code is spent by the one call that latched it. -/
theorem setup_step (hi : SetupDone h calls) (hm : PairMoves h now k (calls k) h' p') :
    SetupDone h' (Function.update calls k p') := by
  have hsame : (p'.kept = some .setupCode ↔ (calls k).kept = some .setupCode) →
      SetupDone h' (Function.update calls k p') := by
    intro hk
    have hiff := kept_update_iff (f := fun _ : Unit => GrantMethod.setupCode) (fun _ => hk)
    exact ⟨fun j hj => hm.latched (hi.latched j ((hiff j ()).mp hj)),
      fun j j' hj hj' => hi.unique j j' ((hiff j ()).mp hj) ((hiff j' ()).mp hj')⟩
  generalize hp : calls k = p at hm hsame
  cases hm with
  | reads hq _ hq' => exact hsame (by rw [kept_of_quiet hq, kept_of_quiet hq'])
  | latchesCode hw =>
      -- nobody has had the setup code: the latch is on
      have hnone : ∀ j, (calls j).kept ≠ some .setupCode := by
        intro j hj
        have hl : h.latches = true := hw
        rw [(hi.latched j hj).2] at hl
        cases hl
      have honly : ∀ j, (Function.update calls k (.done (.granted .setupCode)) j).kept =
          some .setupCode → j = k := by
        intro j hj
        by_contra hne
        rw [Function.update_of_ne hne] at hj
        exact hnone j hj
      refine ⟨fun j _ => ⟨?_, Hub.latches_completeSetup⟩, fun j j' hj hj' => ?_⟩
      · exact isSome_completeSetup (Option.isSome_of_any hw)
      · rw [honly j hj, honly j' hj']
  | inserts => exact hsame (by simp [PairStage.kept])
  | spends => exact hsame (by simp [PairStage.kept])
  | approves => exact hsame (by simp [PairStage.kept])
  | _ => exact hsame Iff.rfl

end Others

/-! ### All of them -/

/-- What every step keeps. -/
structure Grants (h : Hub κ η) (calls : κ → PairStage κ η) : Prop where
  windows : Windows h calls
  requests : Requests h calls
  rows : ClientRows h calls
  lock : Locked h calls
  setup : SetupDone h calls

/-- What the steps keep where no other grant comes between. -/
structure First (calls : κ → PairStage κ η) (order : List κ) : Prop where
  order_iff : ∀ j, j ∈ order ↔ (calls j).kept.isSome
  inserting : ∀ j, calls j = .inserting → order = []
  tofu : ∀ j, (calls j).kept = some .tofu → order.getLast? = some j

section Runs
variable [DecidableEq κ] [DecidableEq η] {s s' : Pairing κ η} {a : PairAction κ η} {order : List κ}

/-- **Step.** -/
theorem grants_step (hi : Grants s.hub s.calls) (hs : s.step a = some s') :
    Grants s'.hub s'.calls := by
  obtain ⟨k, now, p', hm, hcalls, -⟩ := Pairing.step_moves hs
  rw [hcalls]
  exact ⟨windows_step hi.windows hm, requests_step hi.requests hm, rows_step hi.rows hm,
    lock_step hi.lock hm, setup_step hi.setup hm⟩

omit [DecidableEq κ] [DecidableEq η] in
/-- Nobody has been granted anything while there is no client. -/
theorem order_eq_nil (hg : Grants s.hub s.calls) (hi : First s.calls order)
    (hc : s.hub.clients = []) : order = [] := by
  rw [List.eq_nil_iff_forall_not_mem]
  intro j hj
  obtain ⟨m, hm⟩ := Option.isSome_iff_exists.mp ((hi.order_iff j).mp hj)
  have hrow := (hg.rows.row_iff j).mpr (hasRow_of_kept hm)
  rw [hc] at hrow
  cases hrow

omit [DecidableEq η] in
/-- The order after a step. -/
theorem keptOrder_eq {k : κ} {now : ℚ} {p' : PairStage κ η}
    (hm : PairMoves s.hub now k (s.calls k) s'.hub p') (hcalls : s'.calls = Function.update s.calls k p')
    (ha : (∃ t : Reading η, a = .go k t ∧ t.now = now) ∨ ∃ c, a = .arrive k c ∧ p' = .arrived c) :
    keptOrder s a s' order =
      if (s.calls k).kept = none ∧ p'.kept.isSome then k :: order else order := by
  rcases ha with ⟨t, rfl, -⟩ | ⟨c, rfl, rfl⟩
  · rw [keptOrder, hcalls, Function.update_self]
  · rw [keptOrder, if_neg]
    exact fun he => Bool.false_ne_true he.2

/-- **Step**, where no other grant is decided between a first client's count and its insert. -/
theorem first_step (hg : Grants s.hub s.calls) (hi : First s.calls order) (hC : NoneBetween s a)
    (hs : s.step a = some s') : First s'.calls (keptOrder s a s' order) := by
  obtain ⟨k, now, p', hm, hcalls, ha⟩ := Pairing.step_moves hs
  rw [hcalls, keptOrder_eq hm hcalls ha]
  rcases hm.kept with hsame | ⟨hnone, hdecided⟩
  · -- nothing is decided
    have hkept : ∀ j, (Function.update s.calls k p' j).kept = (s.calls j).kept := by
      intro j
      rw [kept_update]
      split
      · next hj => rw [hj, hsame]
      · rfl
    rw [if_neg (by rw [hsame]; rintro ⟨hn, he⟩; rw [hn] at he; cases he)]
    refine ⟨fun j => by rw [hi.order_iff, hkept], ?_, fun j hj => hi.tofu j (hkept j ▸ hj)⟩
    intro j hj
    by_cases hjk : j = k
    · rw [hjk, Function.update_self] at hj
      rw [hj] at hm
      exact order_eq_nil hg hi hm.inserting
    · rw [Function.update_of_ne hjk] at hj
      exact hi.inserting j hj
  · have hsome : p'.kept.isSome := by
      rcases hdecided with ⟨m, -, -, hp'⟩ | ⟨-, hp'⟩ <;> (rw [hp']; rfl)
    rw [if_pos ⟨hnone, hsome⟩]
    have hiff : ∀ j, j ∈ k :: order ↔ (Function.update s.calls k p' j).kept.isSome := by
      intro j
      rw [List.mem_cons, hi.order_iff, kept_update]
      split
      · next hj => exact iff_of_true (.inl hj) hsome
      · next hj => exact ⟨fun he => he.resolve_left hj, .inr⟩
    -- who decides is not at the insert any more
    have hinserting : ∀ j, Function.update s.calls k p' j = .inserting →
        j ≠ k ∧ s.calls j = .inserting := by
      intro j hj
      by_cases hjk : j = k
      · rw [hjk, Function.update_self] at hj
        rw [hj] at hsome
        cases hsome
      · rw [Function.update_of_ne hjk] at hj
        exact ⟨hjk, hj⟩
    rcases hdecided with ⟨m, hp, hwins, hp'⟩ | ⟨hp, hp'⟩
    · -- the decider of another grant: nobody is at the insert
      have hnobody : ∀ j, s.calls j ≠ .inserting := by
        rcases ha with ⟨t, rfl, rfl⟩ | ⟨c, -, rfl⟩
        · refine hC ?_
          rw [hp]
          exact hwins
        · cases hp'
      have hm' : m ≠ .tofu := by
        rintro rfl
        cases hwins
      refine ⟨hiff, fun j hj => absurd (hinserting j hj).2 (hnobody j), fun j hj => ?_⟩
      rw [kept_update] at hj
      split at hj
      · rw [hp'] at hj
        exact absurd (Option.some.inj hj) hm'
      · have hlast := hi.tofu j hj
        rw [List.getLast?_cons, hlast]
        rfl
    · -- the first client
      obtain rfl := hi.inserting k hp
      refine ⟨hiff, fun j hj => ?_, fun j hj => ?_⟩
      · obtain ⟨hjk, hj⟩ := hinserting j hj
        have hjl := hg.lock j (.inr hj)
        rw [hg.lock k (.inr hp)] at hjl
        exact absurd (Option.some.inj hjl).symm hjk
      · have hmem : j ∈ [k] := (hiff j).mpr (by rw [hj]; rfl)
        rw [List.mem_singleton.mp hmem]
        rfl

/-- There is no client while one is between its count and its insert. -/
def EmptyUntilFirst (s : Pairing κ η) : Prop :=
  ∀ j, s.calls j = .inserting → s.hub.clients = []

/-- **Step**, where no other row is inserted between a first client's count and its insert. -/
theorem empty_step (hg : Grants s.hub s.calls) (hi : EmptyUntilFirst s) (hC : NoRowBetween s a)
    (hs : s.step a = some s') : EmptyUntilFirst s' := by
  obtain ⟨k, now, p', hm, hcalls, ha⟩ := Pairing.step_moves hs
  intro j hj
  rw [hcalls] at hj
  by_cases hjk : j = k
  · rw [hjk, Function.update_self] at hj
    subst hj
    have hc := hm.inserting
    rcases hm.clients with ⟨hids, -⟩ | ⟨-, -, hrow, -⟩ | ⟨hdrop, -⟩
    · rw [hc] at hids
      exact List.map_eq_nil_iff.mp hids
    · cases hrow
    · rw [hdrop, hc, List.filter_nil]
  · rw [Function.update_of_ne hjk] at hj
    have hc := hi j hj
    rcases hm.clients with ⟨hids, -⟩ | ⟨-, -, hrow, hk | hk⟩ | ⟨hdrop, -⟩
    · rw [hc] at hids
      exact List.map_eq_nil_iff.mp hids
    · -- one call has the lock
      have hlock := (hg.lock k (.inr hk)).symm.trans (hg.lock j (.inr hj))
      exact absurd (Option.some.inj hlock).symm hjk
    · rcases ha with ⟨t, rfl, -⟩ | ⟨c, -, rfl⟩
      · exact absurd hj (hC hk j)
      · cases hrow
    · rw [hdrop, hc, List.filter_nil]

/-- **Step.**  A first client's row is inserted in an empty table, and is not discarded. -/
theorem firstRow_step (hempty : EmptyUntilFirst s) (hi : FirstRow s) (hs : s.step a = some s') :
    FirstRow s' := by
  obtain ⟨k, now, p', hm, hcalls, -⟩ := Pairing.step_moves hs
  intro j hj
  rw [hcalls] at hj
  by_cases hjk : j = k
  · subst hjk
    rw [Function.update_self] at hj
    rcases hm.kept with hsame | ⟨-, ⟨m, -, hwins, hm'⟩ | ⟨hp, -⟩⟩
    · rw [hsame] at hj
      rcases hm.clients with ⟨hids, -⟩ | ⟨-, hrow, -⟩ | ⟨-, hrow⟩
      · rw [hids]
        exact hi j hj
      · rw [hasRow_of_kept hj] at hrow
        cases hrow
      · rw [hasRow_of_kept (hsame.trans hj)] at hrow
        cases hrow
    · cases hm'.symm.trans hj
      cases hwins
    · rcases hm.clients with ⟨-, hrow⟩ | ⟨hc, -⟩ | ⟨-, hrow⟩
      · rw [hasRow_of_kept hj, hp] at hrow
        cases hrow
      · rw [hc, hempty j hp]
        rfl
      · rw [hasRow_of_kept hj] at hrow
        cases hrow
  · rw [Function.update_of_ne hjk] at hj
    obtain ⟨newer, hids⟩ := List.getLast?_eq_some_iff.mp (hi j hj)
    rcases hm.clients with ⟨hids', -⟩ | ⟨hc, -⟩ | ⟨hdrop, -⟩
    · rw [hids', hids, List.getLast?_concat]
    · rw [hc, List.map_cons, hids, ← List.cons_append, List.getLast?_concat]
    · have hfilter : (s.hub.clients.filter (·.id ≠ k)).map ClientRow.id =
          (s.hub.clients.map ClientRow.id).filter (· ≠ k) := by
        rw [List.filter_map]
        rfl
      have hlast : [j].filter (· ≠ k) = [j] := by simp [hjk]
      rw [hdrop, hfilter, hids, List.filter_append, hlast, List.getLast?_concat]

/-! ### Runs -/

/-- The calls of one hub, with the order of the grants. -/
abbrev granting (κ η : Type) [DecidableEq κ] [DecidableEq η] :
    Machine (Pairing κ η × List κ) (PairAction κ η) :=
  (pairing κ η).ghost keptOrder

omit [DecidableEq κ] [DecidableEq η] in
theorem grants_fresh : Grants (Pairing.fresh : Pairing κ η).hub (Pairing.fresh : Pairing κ η).calls where
  windows := ⟨Tickets.nil.congr fun _ _ => iff_of_false nofun id, nofun⟩
  requests := ⟨Tickets.nil.congr fun _ _ => iff_of_false nofun id, nofun⟩
  rows := ⟨List.nodup_nil, fun _ => iff_of_false nofun nofun⟩
  lock := fun _ hj => by rcases hj with hj | hj <;> cases hj
  setup := ⟨nofun, nofun⟩

omit [DecidableEq κ] [DecidableEq η] in
/-- What every step keeps is one grant for each credential. -/
theorem Grants.oneGrant (hg : Grants s.hub s.calls) (hi : First s.calls order) : OneGrant s order where
  window := fun _ _ _ => hg.windows.tickets.unique_taker
  setupCode := hg.setup.unique
  tofu := hi.tofu
  approval := by
    intro x hx ha
    obtain ⟨k, hk⟩ := Option.isSome_iff_exists.mp (x.approved_has_client ha)
    have hgranted : x.grantedTo = some k := by rw [PairingRequest.grantedTo, if_pos ha, hk]
    have hkept := (hg.requests.tickets.won_row hx).mpr hgranted
    have hrow := (hg.rows.row_iff k).mpr (hasRow_of_kept hkept)
    refine ⟨k, hk, List.mem_map.mp hrow, fun j => ?_⟩
    rw [hg.requests.tickets.won_row hx, hgranted, Option.some_inj]
    exact eq_comm
  clients := hg.rows.nodup
  lost := by
    intro k a hk ha c hc hid
    have hrow := (hg.rows.row_iff k).mp (List.mem_map.mpr ⟨c, hc, hid⟩)
    rw [hk] at hrow
    cases a with
    | granted m => exact ha m rfl
    | _ => cases hrow

/-- **One grant for each credential**, where no other grant is decided while a first client is
between its count and its insert; and where no other row is inserted then, a first client's row is
the oldest. -/
theorem one_grant {as : List (PairAction κ η)}
    (h : (granting κ η).RunIf (fun p a => NoneBetween p.1 a) (Pairing.fresh, []) as (s, order)) :
    OneGrant s order ∧
      ((granting κ η).RunIf (fun p a => NoRowBetween p.1 a) (Pairing.fresh, []) as (s, order) →
        FirstRow s) := by
  have hi : Grants s.hub s.calls ∧ First s.calls order := h.invariant
    (I := fun p => Grants p.1.hub p.1.calls ∧ First p.1.calls p.2)
    ⟨grants_fresh, fun _ => iff_of_false nofun nofun, nofun, nofun⟩
    (Machine.ghost_preserves fun _ _ _ _ hC hi hs =>
      ⟨grants_step hi.1 hs, first_step hi.1 hi.2 hC hs⟩)
  refine ⟨hi.1.oneGrant hi.2, fun hrows => ?_⟩
  have hrow : Grants s.hub s.calls ∧ EmptyUntilFirst s ∧ FirstRow s := hrows.invariant
    (I := fun p => Grants p.1.hub p.1.calls ∧ EmptyUntilFirst p.1 ∧ FirstRow p.1)
    ⟨grants_fresh, fun _ hj => (by cases hj), fun _ hj => (by cases hj)⟩
    (Machine.ghost_preserves fun s _ a s' hC hi (hs : s.step a = some s') =>
      ⟨grants_step hi.1 hs, empty_step (s := s) hi.1 hi.2.1 hC hs,
        firstRow_step (s := s) hi.2.1 hi.2.2 hs⟩)
  exact hrow.2.2

instance [Fintype κ] (s : Pairing κ η) (a : PairAction κ η) : Decidable (NoneBetween s a) := by
  unfold NoneBetween
  split <;> infer_instance

instance [Fintype κ] (s : Pairing κ η) (a : PairAction κ η) : Decidable (NoRowBetween s a) := by
  unfold NoRowBetween
  split <;> infer_instance

end Runs

/-- Every clock reads zero. -/
def atZero : Reading ℕ := ⟨0, 0, 0⟩

/-- The next `n` steps of a call. -/
def goes {κ : Type} (n : ℕ) (k : κ) : List (PairAction κ ℕ) := List.replicate n (.go k atZero)

/-- Two devices pair first at once; a third asks, and is approved. -/
def firstOfTwo : List (PairAction (Fin 4) ℕ) :=
  [.arrive 0 (.pair none), .arrive 1 (.pair none)] ++ goes 3 0 ++ goes 3 1 ++ goes 4 0 ++ goes 2 1 ++
    [.arrive 2 (.pair none)] ++ goes 6 2 ++ [.arrive 3 (.approve 2)] ++ goes 5 3

/-- Of two first clients at once one is granted and the other told to try again. -/
theorem one_grant_firstOfTwo : ∃ s order,
    (granting (Fin 4) ℕ).RunIf (fun p a => NoneBetween p.1 a) (Pairing.fresh, []) firstOfTwo
      (s, order) ∧
      s.calls 0 = .done (.granted .tofu) ∧ s.calls 1 = .done (.raced .tofu) ∧
      s.calls 3 = .done (.granted (.approval 2)) ∧ OneGrant s order ∧ FirstRow s := by
  have hrun : ((granting (Fin 4) ℕ).execIf (fun p a => NoneBetween p.1 a ∧ NoRowBetween p.1 a)
      (Pairing.fresh, []) firstOfTwo).map
      (fun p => (p.1.calls 0, p.1.calls 1, p.1.calls 3)) =
      some (.done (.granted .tofu), .done (.raced .tofu), .done (.granted (.approval 2))) := by
    decide +kernel
  obtain ⟨⟨s, order⟩, hs, hl⟩ := Option.map_eq_some_iff.mp hrun
  obtain ⟨h0, hl⟩ := Prod.ext_iff.mp hl
  obtain ⟨h1, h3⟩ := Prod.ext_iff.mp hl
  have h := Machine.execIf_eq_some.mp hs
  have hdecided := h.mono fun _ _ hC => hC.1
  obtain ⟨hone, hfirst⟩ := one_grant hdecided
  exact ⟨s, order, hdecided, h0, h1, h3, hone, hfirst (h.mono fun _ _ hC => hC.2)⟩

/-- A recovery window is opened and spent after a first client's count. -/
def windowBetween : List (PairAction (Fin 3) ℕ) :=
  [.arrive 0 (.pair none)] ++ goes 5 0 ++ [.arrive 1 (.openWindow 300)] ++ goes 1 1 ++
    [.arrive 2 (.pair none)] ++ goes 5 2 ++ goes 2 0

/-- The first client is the second. -/
theorem not_one_grant :
    ¬ ∀ (as : List (PairAction (Fin 3) ℕ)) (s : Pairing (Fin 3) ℕ) (order : List (Fin 3)),
      (granting (Fin 3) ℕ).Run (Pairing.fresh, []) as (s, order) → OneGrant s order := by
  intro h
  have hrun : ((granting (Fin 3) ℕ).exec (Pairing.fresh, []) windowBetween).map
      (fun p => ((p.1.calls 0).kept, p.2)) = some (some .tofu, [0, 2]) := by
    decide +kernel
  obtain ⟨⟨s, order⟩, hs, hl⟩ := Option.map_eq_some_iff.mp hrun
  obtain ⟨hkept, horder⟩ := Prod.ext_iff.mp hl
  have hlast := (h _ s order (Machine.exec_eq_some.mp hs)).tofu 0 hkept
  have horder : order = [0, 2] := horder
  rw [horder] at hlast
  cases hlast

end BellasReef.Api
