import BellasReef.Support.Machine
import BellasReef.Support.Lists
import Mathlib.Data.List.MinMax
import Mathlib.Algebra.Order.Ring.Rat
import Mathlib.Data.Rat.Floor

/-!
# Api — Pairing

The pairing endpoints (`app.py`) and the store's methods under them, call by call and transaction
by transaction, with the two things the process keeps in memory: the tokens that were approved and
not collected, and the failed setup codes.

A `uuid4` is the name of the call that draws it.  A single `UPDATE`, `INSERT` or `DELETE` is one
step, and so is the sweep, whose statements write rows that nobody writes again.  Who may call is
not modelled: any call may come at any time.

* `pairing_moves`: what a step of a call can do.
-/

namespace BellasReef.Api
open BellasReef.Support

variable {κ η : Type}

/-- The audit detail's `method`, with the window or the request it is about. -/
inductive GrantMethod (κ : Type) where
  | setupCode
  | window (w : κ)
  | tofu
  | approval (request : κ)
  deriving DecidableEq

/-- A row of `paired_clients`. -/
structure ClientRow (κ : Type) where
  id : κ
  revoked : Bool
  deriving DecidableEq

/-- A row of `pairing_windows`. -/
structure PairingWindow (κ : Type) where
  id : κ
  openedAt : ℚ
  expiresAt : ℚ
  usedBy : Option κ
  deriving DecidableEq

/-- `pairing_requests.state`. -/
inductive PairingState where
  | pending
  | approved
  | denied
  | expired
  deriving DecidableEq

/-- A row of `pairing_requests`. -/
structure PairingRequest (κ η : Type) where
  id : κ
  state : PairingState
  expiresAt : ℚ
  pairingCode : η
  clientPk : Option κ
  /-- The check of that name. -/
  approved_has_client : state = .approved → clientPk.isSome
  deriving DecidableEq

/-- The row of `hub_identity`. -/
structure HubIdentity (η : Type) where
  setupCodeHash : Option η
  setupCompleted : Bool
  deriving DecidableEq

/-- The tables, newest row first, and the process' memory. -/
structure Hub (κ η : Type) where
  identity : Option (HubIdentity η)
  clients : List (ClientRow κ)
  windows : List (PairingWindow κ)
  requests : List (PairingRequest κ η)
  /-- Who holds the advisory lock `paired_clients:first`. -/
  firstLock : Option κ
  /-- `_PendingTokens`: the client whose token waits for the poller of a request. -/
  tokens : κ → Option κ
  /-- `_SetupThrottle`. -/
  failures : List ℚ

/-- A call of an endpoint or of the CLI. -/
inductive PairCall (κ η : Type) where
  /-- `POST /pair`, with the hash of the setup code. -/
  | pair (setupCode : Option η)
  | approve (request : κ)
  | claim (code : η)
  | deny (request : κ)
  /-- `GET /pair/{request_id}`. -/
  | poll (request : κ)
  | revoke (client : κ)
  /-- `bellasreef pair`. -/
  | openWindow (ttl : ℚ)
  /-- `bellasreef setup-code`. -/
  | mint (hash : η)
  deriving DecidableEq

/-- What a call comes to. -/
inductive PairAnswer (κ η : Type) where
  /-- A client's call, or its approver's, that has made a client. -/
  | granted (m : GrantMethod κ)
  | alreadySetUp
  | throttled (retryAfter : ℤ)
  | wrongCode
  | codeNeeded
  /-- The 409 of the loser. -/
  | raced (m : GrantMethod κ)
  | noApprover
  /-- 202 with the code to show. -/
  | requested (code : η)
  /-- No free pairing code. -/
  | raised
  /-- 409: the request is not pending. -/
  | notPending
  | noSuchCode
  | noSuchRequest
  | requestExpired
  | requestDenied
  | stillPending
  /-- 200 with the client's credential. -/
  | collected (client : κ)
  | alreadyCollected
  | denied
  | revoked
  | unknownClient
  | windowOpened
  | minted
  | setupComplete
  deriving DecidableEq

/-- Where a call is. -/
inductive PairStage (κ η : Type) where
  | idle
  | arrived (c : PairCall κ η)
  /-- A `/pair` that has read `setup_state`. -/
  | checking (setupCode : Option η) (codeHash : Option η) (inSetup : Bool)
  /-- About to read `total_clients_ever`. -/
  | counting
  /-- `create_first_client`: about to lock, about to count, and with a count of zero. -/
  | first
  | locked
  | inserting
  | approvers
  /-- `open_pairing_request`: about to sweep, and to insert. -/
  | sweeping
  | opening
  /-- About to mint the client of this grant. -/
  | creating (m : GrantMethod κ)
  /-- The client is minted, and the grant is to be decided. -/
  | deciding (m : GrantMethod κ)
  /-- The grant is lost, and the client to be discarded. -/
  | discarding (m : GrantMethod κ)
  /-- Approved, with the token in hand. -/
  | putting (request : κ)
  /-- Decided, and about to complete the setup. -/
  | latching (m : GrantMethod κ)
  /-- A poll that has read `approved`. -/
  | collecting (request : κ)
  /-- `bellasreef setup-code`: the row is there, and setup is not complete. -/
  | minting (hash : η)
  | storing (hash : η)
  | done (a : PairAnswer κ η)
  deriving DecidableEq

/-- What a step reads off the clocks, and the digits that an `INSERT` draws. -/
structure Reading (η : Type) where
  now : ℚ
  monotonic : ℚ
  drawn : η

/-- `PAIRING_TTL_S`. -/
def pairingTtlS : ℚ := 300

/-- `PAIRING_RETENTION_S`. -/
def pairingRetentionS : ℚ := 24 * 3600

/-- `_SetupThrottle.retry_after`: the failures that still count, and how long to wait. -/
def retryAfter (failures : List ℚ) (now : ℚ) : List ℚ × Option ℤ :=
  match failures.dropWhile fun t => decide (60 < now - t) with
  | [] => ([], none)
  | t :: ts => (t :: ts, if (t :: ts).length < 10 then none else some (⌊60 - (now - t)⌋ + 1))

/-- `used_at IS NULL AND expires_at > :now`. -/
def PairingWindow.isOpen (x : PairingWindow κ) (now : ℚ) : Bool :=
  decide (x.usedBy = none ∧ now < x.expiresAt)

/-- The state, with the expiry applied. -/
def PairingRequest.stateAt (x : PairingRequest κ η) (now : ℚ) : PairingState :=
  if x.state = .pending ∧ x.expiresAt ≤ now then .expired else x.state

theorem stateAt_eq_approved {x : PairingRequest κ η} {now : ℚ} (h : x.stateAt now = .approved) :
    x.state = .approved := by
  rw [PairingRequest.stateAt] at h
  split at h
  · cases h
  · exact h

/-- The row after the `UPDATE` of a sweep. -/
def PairingRequest.age (x : PairingRequest κ η) (now : ℚ) : PairingRequest κ η :=
  { x with
    state := x.stateAt now
    approved_has_client := fun h => x.approved_has_client (stateAt_eq_approved h) }

namespace Hub

/-- `setup_completed_at IS NULL`, off a row that may not be there. -/
def inSetup (h : Hub κ η) : Bool := h.identity.all fun i => !i.setupCompleted

/-- `setup_code_hash`. -/
def setupCodeHash (h : Hub κ η) : Option η := h.identity.bind HubIdentity.setupCodeHash

/-- `complete_setup` would latch. -/
def latches (h : Hub κ η) : Bool := h.identity.any fun i => !i.setupCompleted

/-- `complete_setup`. -/
def completeSetup (h : Hub κ η) : Hub κ η :=
  if h.latches then { h with identity := some ⟨none, true⟩ } else h

/-- `hub_id`. -/
def hubId (h : Hub κ η) : Hub κ η := { h with identity := some (h.identity.getD ⟨none, false⟩) }

/-- `set_setup_code_hash`. -/
def setSetupCodeHash (h : Hub κ η) (hash : η) : Hub κ η :=
  { h with identity := h.identity.map fun i => { i with setupCodeHash := some hash } }

/-- `create_client`. -/
def createClient (h : Hub κ η) (k : κ) : Hub κ η := { h with clients := ⟨k, false⟩ :: h.clients }

variable [DecidableEq κ]

/-- `discard_client`. -/
def discardClient (h : Hub κ η) (k : κ) : Hub κ η :=
  { h with clients := h.clients.filter (·.id ≠ k) }

/-- `revoke`. -/
def revoke (h : Hub κ η) (k : κ) : Hub κ η :=
  { h with clients := h.clients.map fun c => if c.id = k then { c with revoked := true } else c }

omit [DecidableEq κ] in
/-- `open_window`. -/
def openWindow (h : Hub κ η) (now : ℚ) : Option κ :=
  ((h.windows.filter (·.isOpen now)).argmax PairingWindow.openedAt).map PairingWindow.id

/-- `consume_window` would spend it. -/
def spends (h : Hub κ η) (w : κ) (now : ℚ) : Bool :=
  h.windows.any fun x => decide (x.id = w) && x.isOpen now

/-- `consume_window`. -/
def consumeWindow (h : Hub κ η) (w k : κ) (now : ℚ) : Hub κ η :=
  { h with windows := h.windows.map fun x =>
      if x.id = w ∧ x.isOpen now then { x with usedBy := some k } else x }

/-- `pairing_state`; `none` where there is no such request. -/
def pairingState (h : Hub κ η) (r : κ) (now : ℚ) : Option PairingState :=
  (h.requests.find? (·.id = r)).map fun x => x.stateAt now

omit [DecidableEq κ] in
/-- `pairing_request_for_code`: the request that can be claimed, or else the newest. -/
def requestForCode [DecidableEq η] (h : Hub κ η) (code : η) (now : ℚ) : Option (κ × PairingState) :=
  ((h.requests.find? fun x => x.pairingCode = code ∧ x.state = .pending ∧ now < x.expiresAt).or
    (h.requests.find? (·.pairingCode = code))).map fun x => (x.id, x.stateAt now)

/-- There is a pending row of the request. -/
def isPending (h : Hub κ η) (r : κ) : Bool :=
  h.requests.any fun x => decide (x.id = r ∧ x.state = .pending)

/-- `UPDATE pairing_requests ... WHERE id = r AND state = 'pending'`. -/
def updatePending (h : Hub κ η) (r : κ) (f : PairingRequest κ η → PairingRequest κ η) : Hub κ η :=
  { h with requests := h.requests.map fun x => if x.id = r ∧ x.state = .pending then f x else x }

/-- The `UPDATE` of `approve_pairing`. -/
def approvePairing (h : Hub κ η) (r k : κ) : Hub κ η :=
  h.updatePending r fun x =>
    { x with state := .approved, clientPk := some k, approved_has_client := fun _ => rfl }

/-- `deny_pairing`. -/
def denyPairing (h : Hub κ η) (r : κ) : Hub κ η :=
  h.updatePending r fun x => { x with state := .denied, approved_has_client := nofun }

omit [DecidableEq κ] in
/-- `sweep_pairing`. -/
def sweep (h : Hub κ η) (now : ℚ) : Hub κ η :=
  { h with
    requests := (h.requests.map (·.age now)).filter fun x =>
      ¬ ((x.state = .expired ∨ x.state = .denied) ∧ x.expiresAt < now - pairingRetentionS)
    windows := h.windows.filter fun x =>
      ¬ (x.usedBy = none ∧ x.expiresAt < now - pairingRetentionS) }

/-- The decider of a grant would go its way. -/
def wins (h : Hub κ η) (now : ℚ) : GrantMethod κ → Bool
  | .setupCode => h.latches
  | .window w => h.spends w now
  | .approval r => h.isPending r
  | .tofu => false

end Hub

section Steps
variable [DecidableEq κ] [DecidableEq η]

/-- The next step of a call `k`: the hub, and where the call then is. -/
def PairStage.next (h : Hub κ η) (t : Reading η) (k : κ) :
    PairStage κ η → Option (Hub κ η × PairStage κ η)
  | .arrived (.pair setupCode) => some (h, .checking setupCode h.setupCodeHash h.inSetup)
  | .checking (some setupCode) codeHash inSetup =>
      if !inSetup then some (h, .done .alreadySetUp)
      else
        match retryAfter h.failures t.monotonic with
        | (failures, some after) => some ({ h with failures := failures }, .done (.throttled after))
        | (failures, none) =>
            if codeHash = some setupCode then
              some ({ h with failures := failures }, .creating .setupCode)
            else some ({ h with failures := failures ++ [t.monotonic] }, .done .wrongCode)
  | .checking none codeHash inSetup =>
      match h.openWindow t.now with
      | some w => some (h, .creating (.window w))
      | none => if inSetup && codeHash.isSome then some (h, .done .codeNeeded) else some (h, .counting)
  | .counting => if h.clients = [] then some (h, .first) else some (h, .approvers)
  | .first =>
      match h.firstLock with
      | some _ => none  -- blocks
      | none => some ({ h with firstLock := some k }, .locked)
  | .locked =>
      if h.clients = [] then some (h, .inserting)
      else some ({ h with firstLock := none }, .done (.raced .tofu))
  | .inserting => some ({ h.createClient k with firstLock := none }, .latching .tofu)
  | .approvers =>
      if h.clients.all ClientRow.revoked then some (h, .done .noApprover) else some (h, .sweeping)
  | .sweeping => some (h.sweep t.now, .opening)
  | .opening =>
      -- `uq_pairing_requests_pending_code`
      if h.requests.any fun x => decide (x.pairingCode = t.drawn ∧ x.state = .pending) then
        some (h, .done .raised)
      else
        some ({ h with
          requests := ⟨k, .pending, t.now + pairingTtlS, t.drawn, none, nofun⟩ :: h.requests },
          .done (.requested t.drawn))
  | .creating .tofu | .deciding .tofu => none  -- `create_first_client` does both at once
  | .creating m => some (h.createClient k, .deciding m)
  | .deciding .setupCode =>
      if h.wins t.now .setupCode then some (h.completeSetup, .done (.granted .setupCode))
      else some (h, .discarding .setupCode)
  | .deciding (.window w) =>
      if h.wins t.now (.window w) then some (h.consumeWindow w k t.now, .latching (.window w))
      else some (h, .discarding (.window w))
  | .deciding (.approval r) =>
      if h.wins t.now (.approval r) then
        some (h.approvePairing r k, .putting r)
      else some (h.discardClient k, .done .notPending)
  | .discarding m => some (h.discardClient k, .done (.raced m))
  | .putting r => some ({ h with tokens := Function.update h.tokens r (some k) }, .latching (.approval r))
  | .latching m => some (h.completeSetup, .done (.granted m))
  | .arrived (.approve r) =>
      if h.pairingState r t.now = some .pending then some (h, .creating (.approval r))
      else some (h, .done .notPending)
  | .arrived (.claim code) =>
      match h.requestForCode code t.now with
      | none => some (h, .done .noSuchCode)
      | some (r, state) =>
          if state = .pending then some (h, .arrived (.approve r)) else some (h, .done .notPending)
  | .arrived (.deny r) =>
      if h.isPending r then some (h.denyPairing r, .done .denied)
      else some (h, .done .notPending)
  | .arrived (.poll r) =>
      match h.pairingState r t.now with
      | none => some (h, .done .noSuchRequest)
      | some .expired => some (h, .done .requestExpired)
      | some .denied => some (h, .done .requestDenied)
      | some .pending => some (h, .done .stillPending)
      | some .approved => some (h, .collecting r)
  | .collecting r =>
      match h.tokens r with
      | some client =>
          some ({ h with tokens := Function.update h.tokens r none }, .done (.collected client))
      | none => some (h, .done .alreadyCollected)
  | .arrived (.revoke c) =>
      if h.clients.any fun x => decide (x.id = c) && !x.revoked then some (h.revoke c, .done .revoked)
      else some (h, .done .unknownClient)
  | .arrived (.openWindow ttl) =>
      some ({ h with windows := ⟨k, t.now, t.now + ttl, none⟩ :: h.windows }, .done .windowOpened)
  | .arrived (.mint hash) => some (h.hubId, .minting hash)
  | .minting hash => if h.inSetup then some (h, .storing hash) else some (h, .done .setupComplete)
  | .storing hash => some (h.setSetupCodeHash hash, .done .minted)
  | .idle | .done _ => none

/-- The hub and the calls on it. -/
structure Pairing (κ η : Type) where
  hub : Hub κ η
  calls : κ → PairStage κ η

/-- A call arrives, or goes on. -/
inductive PairAction (κ η : Type) where
  | arrive (k : κ) (c : PairCall κ η)
  /-- The call's next step. -/
  | go (k : κ) (t : Reading η)

/-- One step of one call. -/
def Pairing.step (s : Pairing κ η) : PairAction κ η → Option (Pairing κ η)
  | .arrive k c =>
      match s.calls k with
      | .idle => some { s with calls := Function.update s.calls k (.arrived c) }
      | _ => none
  | .go k t =>
      ((s.calls k).next s.hub t k).map fun (h, p) => ⟨h, Function.update s.calls k p⟩

/-- The calls of one hub. -/
def pairing (κ η : Type) [DecidableEq κ] [DecidableEq η] : Machine (Pairing κ η) (PairAction κ η) where
  step := fun s a => s.step a

end Steps

/-- A hub that nobody has called. -/
def Pairing.fresh : Pairing κ η := ⟨⟨none, [], [], [], none, fun _ => none, []⟩, fun _ => .idle⟩

/-! ### What a step can do -/

/-- The call has minted a client whose row is there. -/
def PairStage.hasRow : PairStage κ η → Bool
  | .deciding _ | .discarding _ | .putting _ | .latching _ | .done (.granted _) => true
  | _ => false

/-- The grant that is decided for the call. -/
def PairStage.kept : PairStage κ η → Option (GrantMethod κ)
  | .putting r => some (.approval r)
  | .latching m | .done (.granted m) => some m
  | _ => none

/-- Nothing in the hub is about this stage. -/
def PairStage.quiet : PairStage κ η → Bool
  | .locked | .inserting | .deciding _ | .discarding _ | .putting _ | .latching _ | .collecting _ => false
  | .done (.granted _) | .done (.collected _) | .done .alreadyCollected | .done .windowOpened
  | .done (.requested _) => false
  | _ => true

section Moves
variable [DecidableEq κ] [DecidableEq η]

/-- Every step of a call, with what it changes. -/
inductive PairMoves (h : Hub κ η) (now : ℚ) (k : κ) :
    PairStage κ η → Hub κ η → PairStage κ η → Prop where
  /-- A read, or an attempt at the setup code. -/
  | reads {p p' : PairStage κ η} {failures : List ℚ} (hp : p.quiet = true) (hd : ∀ a, p ≠ .done a)
      (hp' : p'.quiet = true) : PairMoves h now k p { h with failures := failures } p'
  | locks (hl : h.firstLock = none) : PairMoves h now k .first { h with firstLock := some k } .locked
  | counts (hc : h.clients = []) : PairMoves h now k .locked h .inserting
  | unlocks : PairMoves h now k .locked { h with firstLock := none } (.done (.raced .tofu))
  | inserts : PairMoves h now k .inserting { h.createClient k with firstLock := none } (.latching .tofu)
  | sweeps : PairMoves h now k .sweeping (h.sweep now) .opening
  | opens {x : PairingRequest κ η} (hid : x.id = k) (hx : x.state = .pending) :
      PairMoves h now k .opening { h with requests := x :: h.requests } (.done (.requested x.pairingCode))
  | creates {m : GrantMethod κ} : PairMoves h now k (.creating m) (h.createClient k) (.deciding m)
  | latchesCode (hw : h.wins now .setupCode = true) :
      PairMoves h now k (.deciding .setupCode) h.completeSetup (.done (.granted .setupCode))
  | spends {w : κ} (hw : h.wins now (.window w) = true) :
      PairMoves h now k (.deciding (.window w)) (h.consumeWindow w k now) (.latching (.window w))
  | approves {r : κ} (hw : h.wins now (.approval r) = true) :
      PairMoves h now k (.deciding (.approval r)) (h.approvePairing r k) (.putting r)
  | loses {m : GrantMethod κ} : PairMoves h now k (.deciding m) h (.discarding m)
  | losesApproval {r : κ} :
      PairMoves h now k (.deciding (.approval r)) (h.discardClient k) (.done .notPending)
  | discards {m : GrantMethod κ} :
      PairMoves h now k (.discarding m) (h.discardClient k) (.done (.raced m))
  | puts {r : κ} : PairMoves h now k (.putting r) { h with tokens := Function.update h.tokens r (some k) }
      (.latching (.approval r))
  | latches {m : GrantMethod κ} :
      PairMoves h now k (.latching m) h.completeSetup (.done (.granted m))
  | denies {r : κ} : PairMoves h now k (.arrived (.deny r)) (h.denyPairing r) (.done .denied)
  | polls {r : κ} {x : PairingRequest κ η} (hx : x ∈ h.requests) (hid : x.id = r)
      (ha : x.state = .approved) : PairMoves h now k (.arrived (.poll r)) h (.collecting r)
  | collects {r client : κ} (hc : h.tokens r = some client) : PairMoves h now k (.collecting r)
      { h with tokens := Function.update h.tokens r none } (.done (.collected client))
  | misses {r : κ} (hc : h.tokens r = none) :
      PairMoves h now k (.collecting r) h (.done .alreadyCollected)
  | revokes {c : κ} : PairMoves h now k (.arrived (.revoke c)) (h.revoke c) (.done .revoked)
  | opensWindow {x : PairingWindow κ} {ttl : ℚ} (hid : x.id = k) (hu : x.usedBy = none) :
      PairMoves h now k (.arrived (.openWindow ttl)) { h with windows := x :: h.windows }
        (.done .windowOpened)
  | identifies {hash : η} : PairMoves h now k (.arrived (.mint hash)) h.hubId (.minting hash)
  | stores {hash : η} : PairMoves h now k (.storing hash) (h.setSetupCodeHash hash) (.done .minted)

omit [DecidableEq η] in
/-- A step that reads, and leaves the hub alone. -/
theorem PairMoves.still {h : Hub κ η} {now : ℚ} {k : κ} {p p' : PairStage κ η}
    (hp : p.quiet = true) (hd : ∀ a, p ≠ .done a) (hp' : p'.quiet = true) : PairMoves h now k p h p' :=
  PairMoves.reads hp hd hp'

variable {h h' : Hub κ η} {t : Reading η} {k : κ} {p p' : PairStage κ η}

/-- What a call does that has just arrived. -/
theorem arrival_moves {c : PairCall κ η} (hn : (PairStage.arrived c).next h t k = some (h', p')) :
    PairMoves h t.now k (.arrived c) h' p' := by
  cases c with
  | pair setupCode => cases hn; exact .still rfl nofun rfl
  | approve r =>
      simp only [PairStage.next] at hn
      split at hn <;> (cases hn; exact .still rfl nofun rfl)
  | claim code =>
      simp only [PairStage.next] at hn
      split at hn
      · cases hn; exact .still rfl nofun rfl
      · split at hn <;> (cases hn; exact .still rfl nofun rfl)
  | deny r =>
      simp only [PairStage.next] at hn
      split at hn
      · cases hn; exact .denies
      · cases hn; exact .still rfl nofun rfl
  | poll r =>
      simp only [PairStage.next] at hn
      split at hn
      all_goals try (cases hn; exact .still rfl nofun rfl)
      next hs =>
        cases hn
        obtain ⟨x, hx, ha⟩ := Option.map_eq_some_iff.mp hs
        refine .polls (List.mem_of_find?_eq_some hx) ?_ (stateAt_eq_approved ha)
        simpa using List.find?_some hx
  | revoke c =>
      simp only [PairStage.next] at hn
      split at hn
      · cases hn; exact .revokes
      · cases hn; exact .still rfl nofun rfl
  | openWindow ttl => cases hn; exact .opensWindow rfl rfl
  | mint hash => cases hn; exact .identifies

/-- What `pair` does with the setup code, or without one. -/
theorem setup_moves {setupCode codeHash : Option η} {inSetup : Bool}
    (hn : (PairStage.checking setupCode codeHash inSetup).next h t k = some (h', p')) :
    PairMoves h t.now k (.checking setupCode codeHash inSetup) h' p' := by
  cases setupCode with
  | none =>
      simp only [PairStage.next] at hn
      split at hn
      · cases hn; exact .still rfl nofun rfl
      · split at hn <;> (cases hn; exact .still rfl nofun rfl)
  | some code =>
      simp only [PairStage.next] at hn
      split at hn
      · cases hn; exact .still rfl nofun rfl
      · split at hn
        · cases hn; exact .reads rfl nofun rfl
        · split at hn <;> (cases hn; exact .reads rfl nofun rfl)

/-- How a grant is decided. -/
theorem decision_moves {m : GrantMethod κ}
    (hn : (PairStage.deciding m).next h t k = some (h', p')) :
    PairMoves h t.now k (.deciding m) h' p' := by
  cases m with
  | setupCode =>
      simp only [PairStage.next] at hn
      split at hn
      · next hw => cases hn; exact .latchesCode hw
      · cases hn; exact .loses
  | window w =>
      simp only [PairStage.next] at hn
      split at hn
      · next hw => cases hn; exact .spends hw
      · cases hn; exact .loses
  | tofu => cases hn
  | approval r =>
      simp only [PairStage.next] at hn
      split at hn
      · next hw => cases hn; exact .approves hw
      · cases hn; exact .losesApproval

/-- **Inversion.**  A step of a call does one of `PairMoves`. -/
theorem pairing_moves (hn : p.next h t k = some (h', p')) : PairMoves h t.now k p h' p' := by
  cases p with
  | idle => cases hn
  | done => cases hn
  | arrived c => exact arrival_moves hn
  | checking setupCode codeHash inSetup => exact setup_moves hn
  | counting =>
      simp only [PairStage.next] at hn
      split at hn <;> (cases hn; exact .still rfl nofun rfl)
  | first =>
      simp only [PairStage.next] at hn
      split at hn
      · cases hn
      · next hl => cases hn; exact .locks hl
  | locked =>
      simp only [PairStage.next] at hn
      split at hn
      · next hc => cases hn; exact .counts hc
      · cases hn; exact .unlocks
  | inserting => cases hn; exact .inserts
  | approvers =>
      simp only [PairStage.next] at hn
      split at hn <;> (cases hn; exact .still rfl nofun rfl)
  | sweeping => cases hn; exact .sweeps
  | opening =>
      simp only [PairStage.next] at hn
      split at hn
      · cases hn; exact .still rfl nofun rfl
      · cases hn
        exact .opens (x := ⟨k, .pending, t.now + pairingTtlS, t.drawn, none, nofun⟩) rfl rfl
  | creating m =>
      cases m with
      | tofu => cases hn
      | _ => cases hn; exact .creates
  | deciding m => exact decision_moves hn
  | discarding m => cases hn; exact .discards
  | putting r => cases hn; exact .puts
  | latching m => cases hn; exact .latches
  | collecting r =>
      simp only [PairStage.next] at hn
      split at hn
      · next hc => cases hn; exact .collects hc
      · next hc => cases hn; exact .misses hc
  | minting hash =>
      simp only [PairStage.next] at hn
      split at hn <;> (cases hn; exact .still rfl nofun rfl)
  | storing hash => cases hn; exact .stores

/-- A step of the hub is a call's, or the arrival of one. -/
theorem Pairing.step_moves {s s' : Pairing κ η} {a : PairAction κ η} (hs : s.step a = some s') :
    ∃ k now p', PairMoves s.hub now k (s.calls k) s'.hub p' ∧
      s'.calls = Function.update s.calls k p' ∧
      ((∃ t : Reading η, a = .go k t ∧ t.now = now) ∨ ∃ c, a = .arrive k c ∧ p' = .arrived c) := by
  cases a with
  | arrive k c =>
      simp only [Pairing.step] at hs
      split at hs
      · next hidle =>
          cases hs
          refine ⟨k, 0, .arrived c, .still ?_ ?_ rfl, rfl, .inr ⟨c, rfl, rfl⟩⟩
          · rw [hidle]; rfl
          · rw [hidle]; nofun
      · cases hs
  | go k t =>
      obtain ⟨⟨h, p⟩, hn, he⟩ := Option.map_eq_some_iff.mp hs
      cases he
      exact ⟨k, t.now, p, pairing_moves hn, rfl, .inl ⟨t, rfl, rfl⟩⟩

end Moves

end BellasReef.Api
