import BellasReef.Support.Machine
import BellasReef.Api.Telemetry
import Mathlib.Tactic.Linarith

/-!
# Api — Sessions

Refresh tokens, access tokens and revocation (`security.py`, the clients of `store.py`, and the
token, client and stream endpoints of `app.py`), over every interleaving of the calls.

A client is a row.  `POST /token` looks a refresh token up by its hash and mints an access token;
`current_client` verifies an access token and then reads whether its client is still active; a
revocation clears the hash and stamps the row in one statement; a stream reads again whether its
client is active, where its last reading is more than ten seconds old.  One step is the stretch of a call between
two suspensions.  Refresh tokens enter as their hashes, and the signing of tokens (PyJWT) is a
parameter; a call that creates a client names it.

* `revocation_final`: no look-up and no check of a client succeeds after its revocation, and it
  is revoked once.
* `accepted_entitled`: a request is let in on a token that was minted for its client, after a
  refresh token of the client was looked up, and before the token expired.
* `stream_revoked_within`: when a stream stops, once its client is revoked.
-/

namespace BellasReef.Api.Sessions
open BellasReef.Support
open BellasReef.Api.Telemetry (truncated)

variable {κ ν η σ τ : Type}

/-! ### Access tokens -/

/-- What `payload.get("client_id")` is. -/
inductive ClientIdClaim (κ : Type) where
  | missing
  | notUuid
  | uuid (id : κ)
  deriving DecidableEq

/-- The claims of an access token. -/
structure Payload (κ : Type) where
  clientId : ClientIdClaim κ
  iat : ℤ
  exp : ℤ
  deriving DecidableEq

/-- `jwt.ExpiredSignatureError`, and any other `jwt.InvalidTokenError`. -/
inductive JwtError where
  | expiredSignature
  | invalidToken
  deriving DecidableEq, Repr

/-- The `jwt` package: `encode`, and `decode` at an instant of the host clock. -/
structure Jwt (κ σ τ : Type) where
  encode : Payload κ → σ → τ
  decode : τ → σ → ℚ → Except JwtError (Payload κ)

/-- `TokenError`. -/
inductive TokenError where
  | expired
  | invalid
  | noClientId
  | notUuid
  deriving DecidableEq, Repr

/-- `ACCESS_TOKEN_TTL_S`. -/
def accessTokenTtlS : ℤ := 900

/-- The claims that `issue_access_token` writes. -/
def payloadFor (id : κ) (ttlS : ℤ) (issued : ℚ) : Payload κ :=
  ⟨.uuid id, truncated issued, truncated (issued + ttlS)⟩

/-- `issue_access_token`. -/
def issueAccessToken (jwt : Jwt κ σ τ) (id : κ) (secret : σ) (ttlS : ℤ) (issued : ℚ) : τ :=
  jwt.encode (payloadFor id ttlS issued) secret

/-- `verify_access_token`. -/
def verifyAccessToken (jwt : Jwt κ σ τ) (token : τ) (secret : σ) (now : ℚ) : Except TokenError κ :=
  match jwt.decode token secret now with
  | .error .expiredSignature => .error .expired
  | .error .invalidToken => .error .invalid
  | .ok payload =>
      match payload.clientId with
      | .missing => .error .noClientId
      | .notUuid => .error .notUuid
      | .uuid id => .ok id

/-- A token is accepted if it decodes, and its subject is a client. -/
theorem verify_eq_ok {jwt : Jwt κ σ τ} {token : τ} {secret : σ} {now : ℚ} {id : κ}
    (h : verifyAccessToken jwt token secret now = .ok id) :
    ∃ payload, jwt.decode token secret now = .ok payload ∧ payload.clientId = .uuid id := by
  unfold verifyAccessToken at h
  split at h
  · cases h
  · cases h
  · next payload hd =>
      refine ⟨payload, hd, ?_⟩
      split at h
      · cases h
      · cases h
      · next id' he => cases h; exact he

/-! ### Clients -/

/-- A row of `paired_clients`: its hash is cleared where it is revoked, and nowhere else. -/
structure ClientRow (κ ν η : Type) where
  id : κ
  name : ν
  refreshTokenHash : Option η
  lastSeenAt : Option ℚ
  revokedAt : Option ℚ
  /-- `revoked_iff_hash_cleared`. -/
  checked : revokedAt.isSome = refreshTokenHash.isNone
  deriving DecidableEq

theorem live_checked (hash : η) : (none : Option ℚ).isSome = (some hash).isNone := rfl

theorem revoked_checked (at_ : ℚ) : (some at_).isSome = (none : Option η).isNone := rfl

/-- The row of a client just created. -/
def ClientRow.live (id : κ) (name : ν) (hash : η) : ClientRow κ ν η :=
  ⟨id, name, some hash, none, none, live_checked hash⟩

/-- What the `UPDATE` of a revocation leaves. -/
def ClientRow.revoke (at_ : ℚ) (r : ClientRow κ ν η) : ClientRow κ ν η :=
  ⟨r.id, r.name, none, r.lastSeenAt, some at_, revoked_checked at_⟩

/-- What the look-up of its refresh token leaves. -/
def ClientRow.touch (at_ : ℚ) (r : ClientRow κ ν η) : ClientRow κ ν η :=
  { r with lastSeenAt := some at_ }

section Statements
variable [DecidableEq κ] [DecidableEq ν] [DecidableEq η]

/-- The hash is unique. -/
def hashTaken (rows : List (ClientRow κ ν η)) (hash : η) : Bool :=
  rows.any fun r => r.refreshTokenHash = some hash

/-- `client_for_refresh_token`, whom it finds. -/
def clientForRefreshToken (rows : List (ClientRow κ ν η)) (hash : η) : Option κ :=
  (rows.find? fun r => r.refreshTokenHash = some hash).map ClientRow.id

/-- `client_for_refresh_token`, the row it stamps. -/
def seen (rows : List (ClientRow κ ν η)) (id : κ) (at_ : ℚ) : List (ClientRow κ ν η) :=
  rows.map fun r => if r.id = id then r.touch at_ else r

/-- `is_active`. -/
def isActive (rows : List (ClientRow κ ν η)) (id : κ) : Bool :=
  (rows.find? fun r => r.id = id).any fun r => r.revokedAt.isNone

/-- `discard_client`. -/
def discardClient (rows : List (ClientRow κ ν η)) (id : κ) : List (ClientRow κ ν η) :=
  rows.filter fun r => r.id ≠ id

/-- `revoke`, whether it finds a row. -/
def revokes (rows : List (ClientRow κ ν η)) (id : κ) : Bool :=
  rows.any fun r => r.id = id && r.revokedAt.isNone

/-- `revoke`, the rows it leaves. -/
def revoke (rows : List (ClientRow κ ν η)) (id : κ) (at_ : ℚ) : List (ClientRow κ ν η) :=
  rows.map fun r => if r.id = id && r.revokedAt.isNone then r.revoke at_ else r

/-- What the operator types after `bellasreef revoke`: a text that is a UUID, or a name. -/
inductive RevokeTarget (κ ν : Type) where
  | uuid (id : κ)
  | name (n : ν)
  deriving DecidableEq

/-- `_resolve`: the client that a target names, or the candidates. -/
def resolve (casefold : ν → ν) (rows : List (ClientRow κ ν η)) :
    RevokeTarget κ ν → Option (ClientRow κ ν η) × List (ClientRow κ ν η)
  | .uuid id => (rows.find? fun r => r.id = id, [])
  | .name n =>
      let exact_ := rows.filter fun r => r.name = n
      let found := if exact_ = [] then rows.filter fun r => casefold r.name = casefold n else exact_
      match found with
      | [r] => (some r, [])
      | _ => (none, found)

end Statements

/-! ### Calls -/

/-- What waits behind `current_client`; a stream makes the same two checks. -/
inductive Guarded (κ : Type) where
  | request
  | revokeSelf
  | revokeClient (target : κ)
  | stream
  deriving DecidableEq

/-- A call, with what it brings. -/
inductive Call (κ ν η τ : Type) where
  /-- Any grant of a pairing: it creates a client, and may lose it again. -/
  | pair (name : ν) (hash : η)
  /-- `POST /token`. -/
  | token (hash : η)
  /-- A call that bears an access token, if it does. -/
  | guarded (bearer : Option τ) (then_ : Guarded κ)
  /-- `bellasreef revoke`. -/
  | revokeCommand (target : RevokeTarget κ ν)

/-- Who asks for a revocation. -/
inductive Revoker where
  | self
  | client
  | command
  deriving DecidableEq, Repr

/-- What a call is answered. -/
inductive Answer (τ : Type) where
  | granted
  /-- The grant went to another call, or the row could not be written. -/
  | notGranted
  | minted (token : τ)
  /-- 401, or a stream closed with 1008. -/
  | unauthorized
  | served
  | revoked
  /-- 404, or `raced`. -/
  | notRevoked
  | unknown
  | ambiguous
  | alreadyRevoked
  | hungUp
  deriving DecidableEq

/-- Where a call stands. -/
inductive Stage (κ ν η τ : Type) where
  | idle
  | arrived (call : Call κ ν η τ)
  /-- The client is created, and its grant not decided. -/
  | granting
  /-- The refresh token's client is found, and its access token not minted. -/
  | minting (id : κ)
  /-- The access token is verified, and its client not read. -/
  | checking (token : τ) (id : κ) (then_ : Guarded κ)
  | revoking (target : κ) (who : Revoker)
  /-- A stream whose client was found active; `waiting`: it holds a frame to send. -/
  | confirmed (id : κ) (waiting : Bool)
  | streaming (id : κ) (lastAuthorized : ℚ)
  /-- A stream that holds a frame, and reads again whether its client is active. -/
  | rechecking (id : κ)
  | done (answer : Answer τ)

/-- `STREAM_REVOKE_RECHECK_S`. -/
def streamRevokeRecheckS : ℚ := 10

/-- The clients and the calls, the host clock and `monotonic()`. -/
structure Hub (κ ν η τ : Type) where
  clients : List (ClientRow κ ν η)
  calls : κ → Stage κ ν η τ
  wall : ℚ
  now : ℚ

/-- What a step does that matters to a client's entitlement. -/
inductive Event (κ τ : Type) where
  /-- A refresh token of the client was looked up. -/
  | lookedUp (id : κ)
  | minted (id : κ) (token : τ) (exp : ℤ)
  /-- An access token was verified, at an instant of the host clock. -/
  | verified (id : κ) (token : τ) (wall : ℚ)
  /-- The bearer of a verified token was found active. -/
  | accepted (id : κ) (token : τ)
  /-- The client of an open stream was found active again. -/
  | rechecked (id : κ)
  | revoked (id : κ) (now : ℚ)
  /-- A frame was sent. -/
  | sent (id : κ) (now : ℚ)
  deriving DecidableEq

section Step
variable [DecidableEq κ] [DecidableEq ν] [DecidableEq η]
  (jwt : Jwt κ σ τ) (secret : σ) (ttlS : ℤ) (casefold : ν → ν)

/-- What follows the check of `current_client`. -/
def Guarded.next (id : κ) : Guarded κ → Stage κ ν η τ
  | .request => .done .served
  | .revokeSelf => .revoking id .self
  | .revokeClient target => .revoking target .client
  | .stream => .confirmed id false

/-- What a revocation answers; `revoke_self` does not ask whether it found a row. -/
def Revoker.answer (found : Bool) : Revoker → Answer τ
  | .self => .revoked
  | .client | .command => if found then .revoked else .notRevoked

/-- One step of a call: the clients and the stage it leaves, and its event. -/
def Stage.next (s : Hub κ ν η τ) (k : κ) :
    Stage κ ν η τ → Option (List (ClientRow κ ν η) × Stage κ ν η τ × Option (Event κ τ))
  | .idle | .done _ => none
  | .arrived (.pair name hash) =>
      if hashTaken s.clients hash then some (s.clients, .done .notGranted, none)
      else some (.live k name hash :: s.clients, .granting, none)
  | .granting => some (s.clients, .done .granted, none)
  | .arrived (.token hash) =>
      match clientForRefreshToken s.clients hash with
      | none => some (s.clients, .done .unauthorized, none)
      | some id => some (seen s.clients id s.wall, .minting id, some (.lookedUp id))
  | .minting id =>
      let token := issueAccessToken jwt id secret ttlS s.wall
      some (s.clients, .done (.minted token),
        some (.minted id token (payloadFor id ttlS s.wall).exp))
  | .arrived (.guarded none _) => some (s.clients, .done .unauthorized, none)
  | .arrived (.guarded (some token) then_) =>
      match verifyAccessToken jwt token secret s.wall with
      | .error _ => some (s.clients, .done .unauthorized, none)
      | .ok id => some (s.clients, .checking token id then_, some (.verified id token s.wall))
  | .checking token id then_ =>
      if isActive s.clients id then some (s.clients, then_.next id, some (.accepted id token))
      else some (s.clients, .done .unauthorized, none)
  | .arrived (.revokeCommand target) =>
      match resolve casefold s.clients target with
      | (none, []) => some (s.clients, .done .unknown, none)
      | (none, _ :: _) => some (s.clients, .done .ambiguous, none)
      | (some r, _) =>
          if r.revokedAt.isSome then some (s.clients, .done .alreadyRevoked, none)
          else some (s.clients, .revoking r.id .command, none)
  | .revoking target who =>
      if revokes s.clients target then
        some (revoke s.clients target s.wall, .done (who.answer true), some (.revoked target s.now))
      else some (s.clients, .done (who.answer false), none)
  | .confirmed id waiting =>
      some (s.clients, .streaming id s.now, if waiting then some (.sent id s.now) else none)
  | .streaming id last =>
      if streamRevokeRecheckS < s.now - last then some (s.clients, .rechecking id, none)
      else some (s.clients, .streaming id last, some (.sent id s.now))
  | .rechecking id =>
      if isActive s.clients id then some (s.clients, .confirmed id true, some (.rechecked id))
      else some (s.clients, .done .unauthorized, none)

/-- A call arrives, or goes on; a client is discarded; time passes. -/
inductive Action (κ ν η τ : Type) where
  | arrive (k : κ) (call : Call κ ν η τ)
  | go (k : κ)
  /-- A grant that went to another call: its client is discarded. -/
  | discard (k : κ)
  /-- A stream's client disconnects. -/
  | hangUp (k : κ)
  | tick (dt : ℚ)
  | setClock (wall : ℚ)

/-- One step of one call, with what it tells the outside. -/
def Hub.step (s : Hub κ ν η τ) : Action κ ν η τ → Option (Hub κ ν η τ × Option (Event κ τ))
  | .arrive k call =>
      match s.calls k with
      | .idle => some ({ s with calls := Function.update s.calls k (.arrived call) }, none)
      | _ => none
  | .go k =>
      ((s.calls k).next jwt secret ttlS casefold s k).map fun (rows, p, e) =>
        ({ s with clients := rows, calls := Function.update s.calls k p }, e)
  | .discard k =>
      match s.calls k with
      | .granting =>
          some ({ s with
            clients := discardClient s.clients k
            calls := Function.update s.calls k (.done .notGranted) }, none)
      | _ => none
  | .hangUp k =>
      match s.calls k with
      | .streaming _ _ | .confirmed _ _ =>
          some ({ s with calls := Function.update s.calls k (.done .hungUp) }, none)
      | _ => none
  | .tick dt => if 0 ≤ dt then some ({ s with now := s.now + dt }, none) else none
  | .setClock wall => some ({ s with wall := wall }, none)

/-- The calls of one hub. -/
def sessions : Machine (Hub κ ν η τ) (Action κ ν η τ) where
  step := fun s a => (s.step jwt secret ttlS casefold a).map Prod.fst

end Step

/-- A hub nobody has paired with. -/
def Hub.fresh (wall now : ℚ) : Hub κ ν η τ := ⟨[], fun _ => .idle, wall, now⟩

/-! ### What is to be shown -/

/-- The events, newest first, and when each call last found its client active. -/
structure Notes (κ τ : Type) where
  log : List (Event κ τ)
  readAt : κ → ℚ

/-- Nothing has been noted. -/
def Notes.blank : Notes κ τ := ⟨[], fun _ => 0⟩

/-- Whose being active an event relies on. -/
def Event.reliesOn : Event κ τ → Option κ
  | .lookedUp id | .accepted id _ | .rechecked id | .revoked id _ => some id
  | .minted _ _ _ | .verified _ _ _ | .sent _ _ => none

/-- The call is about to read whether its client is active. -/
def Stage.reads : Stage κ ν η τ → Bool
  | .checking _ _ _ | .rechecking _ => true
  | _ => false

/-- What an event takes to have come before it. -/
def Event.EntitledBy (before : List (Event κ τ)) : Event κ τ → Prop
  | .minted id _ _ => .lookedUp id ∈ before
  | .verified id token wall => ∃ exp : ℤ, .minted id token exp ∈ before ∧ wall < exp
  | .accepted id token => ∃ wall, .verified id token wall ∈ before
  | .rechecked id | .sent id _ => ∃ token, .accepted id token ∈ before
  | .lookedUp _ | .revoked _ _ => True

/-- Every event had what it takes before it. -/
def Entitled : List (Event κ τ) → Prop
  | [] => True
  | e :: log => e.EntitledBy log ∧ Entitled log

section Spec
variable [DecidableEq κ] [DecidableEq ν] [DecidableEq η]
  (jwt : Jwt κ σ τ) (secret : σ) (ttlS : ℤ) (casefold : ν → ν)

omit [DecidableEq ν] [DecidableEq η] in
/-- The readings, after a step. -/
def Notes.readAfter (n : Notes κ τ) (s : Hub κ ν η τ) : Action κ ν η τ → κ → ℚ
  | .go k => if (s.calls k).reads then Function.update n.readAt k s.now else n.readAt
  | _ => n.readAt

/-- The event of a step, and the readings. -/
def note (s : Hub κ ν η τ) (a : Action κ ν η τ) (_ : Hub κ ν η τ) (n : Notes κ τ) : Notes κ τ where
  log := ((s.step jwt secret ttlS casefold a).bind Prod.snd).toList ++ n.log
  readAt := n.readAfter s a

/-- The calls of one hub, and their events. -/
abbrev notedSessions : Machine (Hub κ ν η τ × Notes κ τ) (Action κ ν η τ) :=
  (sessions jwt secret ttlS casefold).ghost (note jwt secret ttlS casefold)

/-- A revocation is final. -/
structure RevocationFinal (s : Hub κ ν η τ) (log : List (Event κ τ)) : Prop where
  /-- Nothing after it relies on its client, a second revocation least of all. -/
  final : log.Pairwise fun later earlier =>
    ∀ id at_, earlier = .revoked id at_ → later.reliesOn ≠ some id
  /-- Its client stays without a refresh token, and inactive. -/
  gone : ∀ id at_, .revoked id at_ ∈ log →
    isActive s.clients id = false ∧ ∀ hash, clientForRefreshToken s.clients hash ≠ some id

end Spec

section Conditions
variable (jwt : Jwt κ σ τ) (secret : σ) (ttlS : ℤ)

/-- Nobody but the hub signs with its secret: a token that arrives was minted, or does not verify. -/
def Unforged (p : Hub κ ν η τ × Notes κ τ) : Action κ ν η τ → Prop
  | .arrive _ (.guarded (some token) _) =>
      (∃ id exp, .minted id token exp ∈ p.2.log) ∨
        ∀ wall payload, jwt.decode token secret wall ≠ .ok payload
  | _ => True

/-- A stream goes on within `δ` of the reading that found its client active. -/
def Prompt (δ : ℚ) (p : Hub κ ν η τ × Notes κ τ) : Action κ ν η τ → Prop
  | .go k =>
      match p.1.calls k with
      | .confirmed _ _ => p.1.now ≤ p.2.readAt k + δ
      | _ => True
  | _ => True

/-- What is relied on of `jwt`: what was encoded decodes to itself or not at all, and nothing
decodes from its `exp` on. -/
structure Jwt.Sound (jwt : Jwt κ σ τ) : Prop where
  reads : ∀ {payload secret wall payload'},
    jwt.decode (jwt.encode payload secret) secret wall = .ok payload' → payload' = payload
  expires : ∀ {token secret wall payload},
    jwt.decode token secret wall = .ok payload → wall < payload.exp

/-- No frame is sent later than this after the revocation of its client. -/
def StopsWithin (limit : ℚ) (log : List (Event κ τ)) : Prop :=
  log.Pairwise fun later earlier =>
    ∀ id revokedAt sentAt, earlier = .revoked id revokedAt → later = .sent id sentAt →
      sentAt ≤ revokedAt + limit

/-- What a call at this stage has behind it. -/
def Stage.FoundedOn (log : List (Event κ τ)) : Stage κ ν η τ → Prop
  | .arrived (.guarded (some token) _) => (∃ id exp, .minted id token exp ∈ log) ∨
      ∀ wall payload, jwt.decode token secret wall ≠ .ok payload
  | .minting id => .lookedUp id ∈ log
  | .checking token id _ => ∃ wall, .verified id token wall ∈ log
  | .confirmed id _ | .streaming id _ | .rechecking id => ∃ token, .accepted id token ∈ log
  | _ => True

/-- Every call has what its stage takes behind it, and every event; what was minted was signed. -/
structure Founded (s : Hub κ ν η τ) (log : List (Event κ τ)) : Prop where
  signed : ∀ id token exp, .minted id token exp ∈ log → ∃ issued : ℚ,
    token = issueAccessToken jwt id secret ttlS issued ∧ exp = (payloadFor id ttlS issued).exp
  calls : ∀ k, (s.calls k).FoundedOn jwt secret log
  entitled : Entitled log

/-- How long ago the client of an open stream was found active. -/
def Stage.StopsBy (δ now readAt : ℚ) (log : List (Event κ τ)) : Stage κ ν η τ → Prop
  | .confirmed id _ => readAt ≤ now ∧ ∀ at_, .revoked id at_ ∈ log → readAt ≤ at_
  | .streaming id last => last ≤ now ∧ ∀ at_, .revoked id at_ ∈ log → last ≤ at_ + δ
  | _ => True

/-- Every stream's client was found active at most `δ` after its revocation. -/
structure Streams (δ : ℚ) (s : Hub κ ν η τ) (n : Notes κ τ) : Prop where
  past : ∀ id at_, .revoked id at_ ∈ n.log → at_ ≤ s.now
  calls : ∀ k, (s.calls k).StopsBy δ s.now (n.readAt k) n.log
  stops : StopsWithin (streamRevokeRecheckS + δ) n.log

end Conditions

/-! ### The statements on the table -/

section Table
variable [DecidableEq κ] [DecidableEq ν] [DecidableEq η] {rows : List (ClientRow κ ν η)} {id c : κ}
  {at_ : ℚ}

/-- Every row of the client is revoked. -/
def Gone (rows : List (ClientRow κ ν η)) (id : κ) : Prop :=
  ∀ r ∈ rows, r.id = id → r.revokedAt.isSome = true

omit [DecidableEq κ] [DecidableEq ν] [DecidableEq η] in
/-- Who is revoked has no refresh token. -/
theorem Gone.hash {r : ClientRow κ ν η} (h : Gone rows id) (hr : r ∈ rows) (hid : r.id = id) :
    r.refreshTokenHash = none := by
  have hc := r.checked
  rw [h r hr hid] at hc
  exact Option.isNone_iff_eq_none.mp hc.symm

omit [DecidableEq ν] [DecidableEq η] in
/-- Who is revoked is not active. -/
theorem Gone.isActive (h : Gone rows id) : isActive rows id = false := by
  rw [Sessions.isActive, Option.any_eq_false]
  intro r hr
  have hid : r.id = id := by simpa using List.find?_some hr
  have hs := h r (List.mem_of_find?_eq_some hr) hid
  rw [← Option.not_isNone, Bool.not_eq_true'] at hs
  rw [hs]

omit [DecidableEq ν] [DecidableEq η] in
/-- Who is revoked is not revoked again. -/
theorem Gone.revokes (h : Gone rows id) : revokes rows id = false := by
  rw [Sessions.revokes, List.any_eq_false]
  intro r hr hb
  obtain ⟨hid, hn⟩ := Bool.and_eq_true_iff.mp hb
  have hs := h r hr (by simpa using hid)
  rw [Option.isNone_iff_eq_none.mp hn] at hs
  cases hs

omit [DecidableEq κ] [DecidableEq ν] in
/-- No refresh token is of who is revoked. -/
theorem Gone.lookup (h : Gone rows id) (hash : η) : clientForRefreshToken rows hash ≠ some id := by
  intro hf
  obtain ⟨r, hr, hid⟩ := Option.map_eq_some_iff.mp hf
  have hh : r.refreshTokenHash = some hash := by simpa using List.find?_some hr
  rw [h.hash (List.mem_of_find?_eq_some hr) hid] at hh
  cases hh

omit [DecidableEq κ] [DecidableEq ν] [DecidableEq η] in
/-- A statement that keeps each row's client, and never takes a stamp away, keeps this. -/
theorem Gone.map {f : ClientRow κ ν η → ClientRow κ ν η} (h : Gone rows id)
    (hid : ∀ r, (f r).id = r.id) (hs : ∀ r, r.revokedAt.isSome = true → (f r).revokedAt.isSome = true) :
    Gone (rows.map f) id := by
  intro r' hr' he
  obtain ⟨r, hr, rfl⟩ := List.mem_map.mp hr'
  rw [hid] at he
  exact hs r (h r hr he)

omit [DecidableEq ν] [DecidableEq η] in
/-- To see a client does not bring back another. -/
theorem Gone.seen (h : Gone rows id) : Gone (seen rows c at_) id := by
  refine h.map (fun r => ?_) fun r hr => ?_
  · split <;> rfl
  · split
    · exact hr
    · exact hr

omit [DecidableEq ν] [DecidableEq η] in
/-- Nor does a revocation. -/
theorem Gone.revoke (h : Gone rows id) : Gone (revoke rows c at_) id := by
  refine h.map (fun r => ?_) fun r hr => ?_
  · split <;> rfl
  · split
    · rfl
    · exact hr

omit [DecidableEq ν] [DecidableEq η] in
/-- A revocation leaves its client no row that is not revoked. -/
theorem gone_revoke : Gone (revoke rows id at_) id := by
  intro r hr hid
  obtain ⟨r, -, rfl⟩ := List.mem_map.mp hr
  split at hid
  · next hc => rw [if_pos hc]; rfl
  · next hc =>
      rw [if_neg hc]
      have hn : r.revokedAt.isNone = false := by simpa only [hid, decide_true, Bool.true_and, Bool.not_eq_true] using hc
      rw [← Option.not_isNone, hn]
      rfl

omit [DecidableEq ν] [DecidableEq η] in
/-- Nor does a discard. -/
theorem Gone.discard (h : Gone rows id) : Gone (discardClient rows c) id :=
  fun r hr => h r (List.mem_filter.mp hr).1

end Table

/-- The call has done something: no client of its name is created any more, or one is. -/
def Stage.started : Stage κ ν η τ → Bool
  | .idle | .arrived _ => false
  | _ => true

/-! ### What a step can do -/

section Moves
variable [DecidableEq κ] [DecidableEq ν] [DecidableEq η]
  (jwt : Jwt κ σ τ) (secret : σ) (ttlS : ℤ) (casefold : ν → ν)

/-- Every step of a call, with what it changes. -/
inductive Goes (s : Hub κ ν η τ) (k : κ) :
    Stage κ ν η τ → List (ClientRow κ ν η) → Stage κ ν η τ → Option (Event κ τ) → Prop where
  | ends {p : Stage κ ν η τ} (a : Answer τ) (hp : p ≠ .idle) : Goes s k p s.clients (.done a) none
  | creates {name : ν} {hash : η} :
      Goes s k (.arrived (.pair name hash)) (.live k name hash :: s.clients) .granting none
  | looksUp {hash : η} {id : κ} (h : clientForRefreshToken s.clients hash = some id) :
      Goes s k (.arrived (.token hash)) (seen s.clients id s.wall) (.minting id)
        (some (.lookedUp id))
  | mints {id : κ} (a : Answer τ) :
      Goes s k (.minting id) s.clients (.done a)
        (some (.minted id (issueAccessToken jwt id secret ttlS s.wall)
          (payloadFor id ttlS s.wall).exp))
  | verifies {token : τ} {id : κ} {then_ : Guarded κ}
      (h : verifyAccessToken jwt token secret s.wall = .ok id) :
      Goes s k (.arrived (.guarded (some token) then_)) s.clients (.checking token id then_)
        (some (.verified id token s.wall))
  | accepts {token : τ} {id : κ} {then_ : Guarded κ} (h : isActive s.clients id = true) :
      Goes s k (.checking token id then_) s.clients (then_.next id) (some (.accepted id token))
  | resolves {target : RevokeTarget κ ν} (id : κ) :
      Goes s k (.arrived (.revokeCommand target)) s.clients (.revoking id .command) none
  | revokes {target : κ} {who : Revoker} (a : Answer τ) (h : revokes s.clients target = true) :
      Goes s k (.revoking target who) (revoke s.clients target s.wall) (.done a)
        (some (.revoked target s.now))
  | opens {id : κ} {waiting : Bool} {e : Option (Event κ τ)} (he : e = none ∨ e = some (.sent id s.now)) :
      Goes s k (.confirmed id waiting) s.clients (.streaming id s.now) e
  | sends {id : κ} {last : ℚ} (h : s.now ≤ last + streamRevokeRecheckS) :
      Goes s k (.streaming id last) s.clients (.streaming id last) (some (.sent id s.now))
  | rereads {id : κ} {last : ℚ} : Goes s k (.streaming id last) s.clients (.rechecking id) none
  | rechecks {id : κ} (h : isActive s.clients id = true) :
      Goes s k (.rechecking id) s.clients (.confirmed id true) (some (.rechecked id))

/-- Every step. -/
inductive Moves (s : Hub κ ν η τ) : Action κ ν η τ → Hub κ ν η τ → Option (Event κ τ) → Prop where
  | arrives {k : κ} {call : Call κ ν η τ} (hk : s.calls k = .idle) :
      Moves s (.arrive k call) { s with calls := Function.update s.calls k (.arrived call) } none
  | goes {k : κ} {rows : List (ClientRow κ ν η)} {p : Stage κ ν η τ} {e : Option (Event κ τ)}
      (h : Goes jwt secret ttlS s k (s.calls k) rows p e) :
      Moves s (.go k) { s with clients := rows, calls := Function.update s.calls k p } e
  | discards {k : κ} (hk : s.calls k = .granting) :
      Moves s (.discard k)
        { s with
          clients := discardClient s.clients k
          calls := Function.update s.calls k (.done .notGranted) } none
  | hangsUp {k : κ} (hk : s.calls k ≠ .idle) :
      Moves s (.hangUp k) { s with calls := Function.update s.calls k (.done .hungUp) } none
  | ticks {dt : ℚ} (h : 0 ≤ dt) : Moves s (.tick dt) { s with now := s.now + dt } none
  | setsClock {wall : ℚ} : Moves s (.setClock wall) { s with wall := wall } none

variable {jwt secret ttlS casefold} {s s' : Hub κ ν η τ} {k : κ} {a : Action κ ν η τ}
  {e : Option (Event κ τ)} {rows : List (ClientRow κ ν η)} {p p' : Stage κ ν η τ}

/-- The first step of a call is one of `Goes`. -/
theorem goes_of_arrived {call : Call κ ν η τ}
    (h : (Stage.arrived call).next jwt secret ttlS casefold s k = some (rows, p', e)) :
    Goes jwt secret ttlS s k (.arrived call) rows p' e := by
  cases call with
  | pair name hash =>
      simp only [Stage.next] at h
      split at h
      · cases h; exact .ends _ (by simp)
      · cases h; exact .creates
  | token hash =>
      simp only [Stage.next] at h
      split at h
      · cases h; exact .ends _ (by simp)
      · cases h; exact .looksUp ‹_›
  | guarded bearer then_ =>
      cases bearer with
      | none => cases h; exact .ends _ (by simp)
      | some token =>
          simp only [Stage.next] at h
          split at h
          · cases h; exact .ends _ (by simp)
          · cases h; exact .verifies ‹_›
  | revokeCommand target =>
      simp only [Stage.next] at h
      split at h
      · cases h; exact .ends _ (by simp)
      · cases h; exact .ends _ (by simp)
      · split at h
        · cases h; exact .ends _ (by simp)
        · cases h; exact .resolves _

/-- **Inversion** of a step of a call. -/
theorem goes_of_next (h : p.next jwt secret ttlS casefold s k = some (rows, p', e)) :
    Goes jwt secret ttlS s k p rows p' e := by
  cases p with
  | idle => cases h
  | done answer => cases h
  | arrived call => exact goes_of_arrived h
  | granting => cases h; exact .ends _ (by simp)
  | minting id => cases h; exact .mints _
  | checking token id then_ =>
      simp only [Stage.next] at h
      split at h
      · cases h; exact .accepts ‹_›
      · cases h; exact .ends _ (by simp)
  | revoking target who =>
      simp only [Stage.next] at h
      split at h
      · cases h; exact .revokes _ ‹_›
      · cases h; exact .ends _ (by simp)
  | confirmed id waiting =>
      cases h
      cases waiting with
      | true => exact .opens (.inr rfl)
      | false => exact .opens (.inl rfl)
  | streaming id last =>
      simp only [Stage.next] at h
      split at h
      · cases h; exact .rereads
      · next hl => cases h; exact .sends (by linarith)
  | rechecking id =>
      simp only [Stage.next] at h
      split at h
      · cases h; exact .rechecks ‹_›
      · cases h; exact .ends _ (by simp)

/-- **Inversion.** -/
theorem step_moves (h : s.step jwt secret ttlS casefold a = some (s', e)) :
    Moves jwt secret ttlS s a s' e := by
  cases a with
  | arrive k call =>
      simp only [Hub.step] at h
      split at h
      · cases h; exact .arrives ‹_›
      · cases h
  | go k =>
      obtain ⟨⟨rows, p, e'⟩, hn, he⟩ := Option.map_eq_some_iff.mp h
      cases he
      exact .goes (goes_of_next hn)
  | discard k =>
      simp only [Hub.step] at h
      split at h
      · cases h; exact .discards ‹_›
      · cases h
  | hangUp k =>
      simp only [Hub.step] at h
      split at h
      · next hk => cases h; exact .hangsUp (by rw [hk]; simp)
      · next hk => cases h; exact .hangsUp (by rw [hk]; simp)
      · cases h
  | tick dt =>
      simp only [Hub.step] at h
      split at h
      · cases h; exact .ticks ‹_›
      · cases h
  | setClock wall => cases h; exact .setsClock

/-- A step, with the event that it notes. -/
theorem noted_step {n : Notes κ τ}
    (h : (sessions jwt secret ttlS casefold).step s a = some s') :
    ∃ e, Moves jwt secret ttlS s a s' e ∧
      (note jwt secret ttlS casefold s a s' n).log = e.toList ++ n.log := by
  obtain ⟨⟨s₁, e⟩, hs, rfl⟩ := Option.map_eq_some_iff.mp h
  refine ⟨e, step_moves hs, ?_⟩
  change ((s.step jwt secret ttlS casefold a).bind Prod.snd).toList ++ n.log = _
  rw [hs]
  rfl

/-! ### A revocation is final -/

omit [DecidableEq ν] in
theorem Goes.started (h : Goes jwt secret ttlS s k p rows p' e) : p'.started = true := by
  cases h with
  | accepts => rename_i then_ _; cases then_ <;> rfl
  | _ => rfl

omit [DecidableEq ν] in
/-- A client whose rows are all revoked stays so, unless it is yet to be created. -/
theorem Gone.goes {id : κ} (h : Gone s.clients id) (hid : (s.calls id).started = true)
    (hg : Goes jwt secret ttlS s k p rows p' e) (hk : s.calls k = p) : Gone rows id := by
  cases hg with
  | creates =>
      intro r hr hrid
      rcases List.mem_cons.mp hr with rfl | hr
      · have hkid : k = id := hrid
        rw [← hkid, hk] at hid
        cases hid
      · exact h r hr hrid
  | looksUp => exact h.seen
  | revokes => exact h.revoke
  | _ => exact h

omit [DecidableEq ν] in
/-- What relies on a client finds it active. -/
theorem Goes.relies {ev : Event κ τ} {id : κ} (hg : Goes jwt secret ttlS s k p rows p' (some ev))
    (hr : ev.reliesOn = some id) : ¬ Gone s.clients id := by
  intro h
  cases hg with
  | looksUp hf => cases hr; exact h.lookup _ hf
  | accepts ha => cases hr; rw [h.isActive] at ha; cases ha
  | revokes a hv => cases hr; rw [h.revokes] at hv; cases hv
  | rechecks ha => cases hr; rw [h.isActive] at ha; cases ha
  | mints => cases hr
  | verifies => cases hr
  | sends => cases hr
  | opens he =>
      rcases he with he | he
      · cases he
      · cases he; cases hr

/-- Each row's call has started, and the clients on record as revoked are gone. -/
structure OnRecord (s : Hub κ ν η τ) (log : List (Event κ τ)) : Prop where
  started : ∀ r ∈ s.clients, (s.calls r.id).started = true
  gone : ∀ id at_, .revoked id at_ ∈ log → Gone s.clients id ∧ (s.calls id).started = true

omit [DecidableEq ν] [DecidableEq η] in
/-- A call that has started goes on having started. -/
theorem started_update {calls : κ → Stage κ ν η τ} {j : κ} (hp : p.started = true ∨ (calls k).started = false)
    (hj : (calls j).started = true) : (Function.update calls k p j).started = true := by
  by_cases hjk : j = k
  · subst hjk
    rw [Function.update_self]
    exact hp.resolve_right (by simp [hj])
  · rwa [Function.update_of_ne hjk]

omit [DecidableEq ν] in
/-- A row is a new one, or of a client that was there. -/
theorem mem_ids_goes (hg : Goes jwt secret ttlS s k p rows p' e) {r : ClientRow κ ν η}
    (hr : r ∈ rows) : r.id = k ∨ ∃ r₀ ∈ s.clients, r₀.id = r.id := by
  have hmap : ∀ {f : ClientRow κ ν η → ClientRow κ ν η}, (∀ r, (f r).id = r.id) →
      r ∈ s.clients.map f → r.id = k ∨ ∃ r₀ ∈ s.clients, r₀.id = r.id := by
    intro f hf hr
    obtain ⟨r₀, hr₀, rfl⟩ := List.mem_map.mp hr
    exact .inr ⟨r₀, hr₀, (hf r₀).symm⟩
  cases hg with
  | creates =>
      rcases List.mem_cons.mp hr with rfl | hr
      · exact .inl rfl
      · exact .inr ⟨r, hr, rfl⟩
  | looksUp => exact hmap (fun r => by split <;> rfl) hr
  | revokes => exact hmap (fun r => by split <;> rfl) hr
  | _ => exact .inr ⟨r, hr, rfl⟩

omit [DecidableEq ν] in
/-- A call's step keeps to what is on record. -/
theorem onRecord_goes {log : List (Event κ τ)} (h : OnRecord s log)
    (hg : Goes jwt secret ttlS s k (s.calls k) rows p' e) :
    OnRecord { s with clients := rows, calls := Function.update s.calls k p' }
      (e.toList ++ log) where
  started := by
    intro r hr
    rcases mem_ids_goes hg hr with hid | ⟨r₀, hr₀, hid⟩
    · change (Function.update s.calls k p' r.id).started = true
      rw [hid, Function.update_self]
      exact hg.started
    · rw [← hid]
      exact started_update (.inl hg.started) (h.started r₀ hr₀)
  gone := by
    intro id at_ hmem
    rcases List.mem_append.mp hmem with hnew | hold
    · have he : e = some (.revoked id at_) := Option.mem_toList.mp hnew
      subst he
      generalize hk : s.calls k = p₀ at hg
      cases hg with
      | opens he => rcases he with he | he <;> cases he
      | revokes a hv =>
          refine ⟨gone_revoke, started_update (.inl rfl) ?_⟩
          obtain ⟨r, hr, hb⟩ := List.any_eq_true.mp hv
          have hid : r.id = id := by simpa using (Bool.and_eq_true_iff.mp hb).1
          rw [← hid]
          exact h.started r hr
    · obtain ⟨hgone, hst⟩ := h.gone id at_ hold
      exact ⟨hgone.goes hst hg rfl, started_update (.inl hg.started) hst⟩

omit [DecidableEq ν] in
/-- **Step.**  The clients and their revocations are on record. -/
theorem onRecord_step {log : List (Event κ τ)} (h : OnRecord s log)
    (hm : Moves jwt secret ttlS s a s' e) : OnRecord s' (e.toList ++ log) := by
  have hcalls : ∀ {k : κ} {p : Stage κ ν η τ} {rows : List (ClientRow κ ν η)},
      (p.started = true ∨ (s.calls k).started = false) → (∀ r ∈ rows, r ∈ s.clients) →
      OnRecord { s with clients := rows, calls := Function.update s.calls k p } log := by
    intro k p rows hp hrows
    constructor
    · exact fun r hr => started_update hp (h.started r (hrows r hr))
    · intro id at_ hmem
      obtain ⟨hgone, hst⟩ := h.gone id at_ hmem
      exact ⟨fun r hr => hgone r (hrows r hr), started_update hp hst⟩
  cases hm with
  | arrives hk => exact hcalls (.inr (by rw [hk]; rfl)) fun _ hr => hr
  | goes hg => exact onRecord_goes h hg
  | discards => exact hcalls (.inl rfl) fun r hr => (List.mem_filter.mp hr).1
  | hangsUp => exact hcalls (.inl rfl) fun _ hr => hr
  | ticks => exact ⟨h.started, h.gone⟩
  | setsClock => exact ⟨h.started, h.gone⟩

/-- **Revocation is final**: in every interleaving, once a client is revoked no refresh token of
it is looked up, no request and no stream of it is let in, and it is not revoked again. -/
theorem revocation_final (wall now : ℚ) {as : List (Action κ ν η τ)} {n : Notes κ τ}
    (h : (notedSessions jwt secret ttlS casefold).Run (.fresh wall now, .blank) as (s, n)) :
    RevocationFinal s n.log := by
  have hi : OnRecord s n.log ∧ n.log.Pairwise fun later earlier =>
      ∀ id at_, earlier = .revoked id at_ → later.reliesOn ≠ some id := by
    refine h.invariant (I := fun q => OnRecord q.1 q.2.log ∧ q.2.log.Pairwise fun later earlier =>
      ∀ id at_, earlier = .revoked id at_ → later.reliesOn ≠ some id) ?_ ?_
    · exact ⟨⟨by simp [Hub.fresh], by simp [Notes.blank]⟩, .nil⟩
    · refine Machine.ghost_preserves fun s n a s' _ hi hs => ?_
      obtain ⟨e, hm, hlog⟩ := noted_step (n := n) hs
      rw [hlog]
      refine ⟨onRecord_step hi.1 hm, ?_⟩
      cases e with
      | none => exact hi.2
      | some ev =>
          refine List.pairwise_cons.mpr ⟨?_, hi.2⟩
          rintro earlier hmem id at_ rfl hr
          cases hm with
          | goes hg => exact hg.relies hr (hi.1.gone id at_ hmem).1
  refine ⟨hi.2, fun id at_ hmem => ?_⟩
  have hgone := (hi.1.gone id at_ hmem).1
  exact ⟨hgone.isActive, hgone.lookup⟩

/-! ### Who is let in -/

omit [DecidableEq κ] [DecidableEq ν] [DecidableEq η] in
theorem Stage.FoundedOn.mono {log log' : List (Event κ τ)} (h : p.FoundedOn jwt secret log)
    (hsub : ∀ ev ∈ log, ev ∈ log') : p.FoundedOn jwt secret log' := by
  unfold Stage.FoundedOn at h ⊢
  split at h
  · exact h.imp_left fun ⟨id, exp, hmem⟩ => ⟨id, exp, hsub _ hmem⟩
  · exact hsub _ h
  · exact h.imp fun _ hmem => hsub _ hmem
  · exact h.imp fun _ hmem => hsub _ hmem
  · exact h.imp fun _ hmem => hsub _ hmem
  · exact h.imp fun _ hmem => hsub _ hmem
  · exact h

omit [DecidableEq κ] [DecidableEq ν] [DecidableEq η] in
/-- A token that verifies was minted for the client it names, and has not expired. -/
theorem Founded.verified {log : List (Event κ τ)} {token : τ} {id : κ} {then_ : Guarded κ}
    (h : Founded jwt secret ttlS s log) (hjwt : jwt.Sound)
    (hk : s.calls k = .arrived (.guarded (some token) then_))
    (hv : verifyAccessToken jwt token secret s.wall = .ok id) :
    ∃ exp : ℤ, .minted id token exp ∈ log ∧ s.wall < exp := by
  obtain ⟨payload, hd, hid⟩ := verify_eq_ok hv
  have hf := h.calls k
  rw [hk] at hf
  rcases hf with ⟨id', exp, hmem⟩ | hno
  · obtain ⟨issued, rfl, rfl⟩ := h.signed id' token exp hmem
    obtain rfl := hjwt.reads hd
    cases hid
    exact ⟨_, hmem, hjwt.expires hd⟩
  · exact absurd hd (hno _ _)

omit [DecidableEq κ] [DecidableEq ν] [DecidableEq η] in
/-- An event that is entitled extends a log that is. -/
theorem entitled_append {log : List (Event κ τ)} (h : Entitled log)
    (he : ∀ ev, e = some ev → ev.EntitledBy log) : Entitled (e.toList ++ log) := by
  cases e with
  | none => exact h
  | some ev => exact ⟨he ev rfl, h⟩

omit [DecidableEq κ] [DecidableEq ν] [DecidableEq η] in
theorem Guarded.next_foundedOn {log : List (Event κ τ)} {token : τ} {id : κ} (then_ : Guarded κ)
    (h : .accepted id token ∈ log) :
    (then_.next id : Stage κ ν η τ).FoundedOn jwt secret log := by
  cases then_ with
  | stream => exact ⟨token, h⟩
  | _ => trivial

omit [DecidableEq ν] in
/-- The event of a call's step has what it takes before it, and so has the stage it leaves. -/
theorem Founded.goes {log : List (Event κ τ)} (h : Founded jwt secret ttlS s log)
    (hjwt : jwt.Sound) (hg : Goes jwt secret ttlS s k p rows p' e) (hk : s.calls k = p) :
    (∀ ev, e = some ev → ev.EntitledBy log) ∧ p'.FoundedOn jwt secret (e.toList ++ log) := by
  have hf := h.calls k
  rw [hk] at hf
  cases hg with
  | ends => exact ⟨by simp, trivial⟩
  | creates => exact ⟨by simp, trivial⟩
  | resolves => exact ⟨by simp, trivial⟩
  | revokes =>
      refine ⟨?_, trivial⟩
      rintro ev ⟨⟩
      trivial
  | looksUp =>
      refine ⟨?_, List.mem_cons_self⟩
      rintro ev ⟨⟩
      trivial
  | mints =>
      refine ⟨?_, trivial⟩
      rintro ev ⟨⟩
      exact hf
  | verifies hv =>
      refine ⟨?_, _, List.mem_cons_self⟩
      rintro ev ⟨⟩
      exact h.verified hjwt hk hv
  | accepts =>
      rename_i token id then_ _
      refine ⟨?_, then_.next_foundedOn List.mem_cons_self⟩
      rintro ev ⟨⟩
      exact hf
  | opens he =>
      refine ⟨?_, hf.imp fun _ hmem => List.mem_append_right _ hmem⟩
      rintro ev rfl
      rcases he with he | he
      · cases he
      · cases he
        exact hf
  | sends =>
      refine ⟨?_, hf.imp fun _ hmem => List.mem_append_right _ hmem⟩
      rintro ev ⟨⟩
      exact hf
  | rereads => exact ⟨by simp, hf⟩
  | rechecks =>
      refine ⟨?_, hf.imp fun _ hmem => List.mem_append_right _ hmem⟩
      rintro ev ⟨⟩
      exact hf

omit [DecidableEq ν] in
/-- A token that was minted was signed with its expiry. -/
theorem Founded.signed_append {log : List (Event κ τ)} (h : Founded jwt secret ttlS s log)
    (hg : Goes jwt secret ttlS s k p rows p' e) {id : κ} {token : τ} {exp : ℤ}
    (hmem : .minted id token exp ∈ e.toList ++ log) : ∃ issued : ℚ,
      token = issueAccessToken jwt id secret ttlS issued ∧ exp = (payloadFor id ttlS issued).exp := by
  rcases List.mem_append.mp hmem with hnew | hold
  · have he : e = some (.minted id token exp) := Option.mem_toList.mp hnew
    subst he
    cases hg with
    | mints => exact ⟨s.wall, rfl, rfl⟩
    | opens he => rcases he with he | he <;> cases he
  · exact h.signed id token exp hold

omit [DecidableEq ν] in
/-- **Step.**  What a call goes on is founded on the log. -/
theorem founded_step {n : Notes κ τ} (hjwt : jwt.Sound) (hC : Unforged jwt secret (s, n) a)
    (h : Founded jwt secret ttlS s n.log) (hm : Moves jwt secret ttlS s a s' e) :
    Founded jwt secret ttlS s' (e.toList ++ n.log) := by
  have hother : ∀ {k : κ} {p : Stage κ ν η τ} {calls : κ → Stage κ ν η τ},
      calls = Function.update s.calls k p → p.FoundedOn jwt secret n.log →
      ∀ j, (calls j).FoundedOn jwt secret n.log := by
    rintro k p _ rfl hp j
    by_cases hjk : j = k
    · subst hjk
      rwa [Function.update_self]
    · rw [Function.update_of_ne hjk]
      exact h.calls j
  cases hm with
  | arrives hk =>
      refine ⟨h.signed, hother rfl ?_, h.entitled⟩
      rename_i k call
      cases call with
      | guarded bearer then_ =>
          cases bearer with
          | none => trivial
          | some token => exact hC
      | _ => trivial
  | goes hg =>
      obtain ⟨hev, hp⟩ := h.goes hjwt hg rfl
      refine ⟨fun id token exp => h.signed_append hg, fun j => ?_, entitled_append h.entitled hev⟩
      rename_i k _ p
      by_cases hjk : j = k
      · subst hjk
        change (Function.update s.calls j p j).FoundedOn jwt secret _
        rwa [Function.update_self]
      · change (Function.update s.calls k p j).FoundedOn jwt secret _
        rw [Function.update_of_ne hjk]
        exact (h.calls j).mono fun _ hmem => List.mem_append_right _ hmem
  | discards => exact ⟨h.signed, hother rfl trivial, h.entitled⟩
  | hangsUp => exact ⟨h.signed, hother rfl trivial, h.entitled⟩
  | ticks => exact ⟨h.signed, h.calls, h.entitled⟩
  | setsClock => exact ⟨h.signed, h.calls, h.entitled⟩

/-- **Who is let in is entitled.**  Where nobody else signs with the hub's secret, every request
and every stream is let in on a token that was verified before it expired, that was minted for
its client, and for which a refresh token of that client was looked up. -/
theorem accepted_entitled (hjwt : jwt.Sound) (wall now : ℚ) {as : List (Action κ ν η τ)}
    {n : Notes κ τ}
    (h : (notedSessions jwt secret ttlS casefold).RunIf (Unforged jwt secret)
      (.fresh wall now, .blank) as (s, n)) : Entitled n.log := by
  have hi : Founded jwt secret ttlS s n.log := by
    refine h.invariant (I := fun q => Founded jwt secret ttlS q.1 q.2.log) ?_ ?_
    · exact ⟨by simp [Notes.blank], fun _ => trivial, trivial⟩
    · refine Machine.ghost_preserves fun s n a s' hC hi hs => ?_
      obtain ⟨e, hm, hlog⟩ := noted_step (n := n) hs
      rw [hlog]
      exact founded_step hjwt hC hi hm
  exact hi.entitled

/-! ### When a stream stops -/

omit [DecidableEq κ] [DecidableEq ν] [DecidableEq η] in
/-- A stream that is to stop by then is still to. -/
theorem Stage.StopsBy.later {δ now now' readAt : ℚ} {log : List (Event κ τ)}
    (h : p.StopsBy δ now readAt log) (hnow : now ≤ now') : p.StopsBy δ now' readAt log := by
  unfold Stage.StopsBy at h ⊢
  split at h
  · exact ⟨h.1.trans hnow, h.2⟩
  · exact ⟨h.1.trans hnow, h.2⟩
  · trivial

omit [DecidableEq κ] [DecidableEq ν] [DecidableEq η] in
/-- An event of this instant leaves a stream as it was. -/
theorem Stage.StopsBy.append {δ now readAt : ℚ} {log : List (Event κ τ)}
    (h : p.StopsBy δ now readAt log) (hδ : 0 ≤ δ)
    (he : ∀ id at_, e = some (.revoked id at_) → at_ = now) :
    p.StopsBy δ now readAt (e.toList ++ log) := by
  have hold : ∀ {id : κ} {at_ : ℚ}, .revoked id at_ ∈ e.toList ++ log →
      at_ = now ∨ .revoked id at_ ∈ log := by
    intro id at_ hmem
    rcases List.mem_append.mp hmem with hnew | hold
    · exact .inl (he id at_ (Option.mem_toList.mp hnew))
    · exact .inr hold
  unfold Stage.StopsBy at h ⊢
  split at h
  · refine ⟨h.1, fun at_ hmem => ?_⟩
    rcases hold hmem with rfl | hmem
    · exact h.1
    · exact h.2 at_ hmem
  · refine ⟨h.1, fun at_ hmem => ?_⟩
    rcases hold hmem with rfl | hmem
    · linarith [h.1]
    · exact h.2 at_ hmem
  · trivial

omit [DecidableEq ν] in
/-- A revocation is told at its own time. -/
theorem Goes.revoked_now {id : κ} {at_ : ℚ}
    (hg : Goes jwt secret ttlS s k p rows p' (some (.revoked id at_))) : at_ = s.now := by
  cases hg with
  | revokes => rfl
  | opens he => rcases he with he | he <;> cases he

omit [DecidableEq ν] in
/-- A frame is sent at most ten seconds and `δ` after the revocation of its client. -/
theorem Streams.sent {δ : ℚ} {n : Notes κ τ} {id : κ} {at_ r : ℚ} (h : Streams δ s n)
    (hC : Prompt δ (s, n) (.go k : Action κ ν η τ)) (hk : s.calls k = p)
    (hg : Goes jwt secret ttlS s k p rows p' (some (.sent id at_)))
    (hr : .revoked id r ∈ n.log) : at_ ≤ r + (streamRevokeRecheckS + δ) := by
  have hp := h.calls k
  simp only [Prompt, hk] at hC
  rw [hk] at hp
  cases hg with
  | opens he =>
      rcases he with he | he
      · cases he
      · cases he
        have hread := hp.2 r hr
        have hten : (0 : ℚ) ≤ streamRevokeRecheckS := by unfold streamRevokeRecheckS; norm_num
        change s.now ≤ n.readAt k + δ at hC
        linarith
  | sends hl =>
      have hlast := hp.2 r hr
      linarith

omit [DecidableEq ν] in
/-- The stage that a call's step leaves. -/
theorem Streams.goes {δ : ℚ} {n : Notes κ τ} {readAt : ℚ} (h : Streams δ s n)
    (hrec : OnRecord s n.log) (hC : Prompt δ (s, n) (.go k : Action κ ν η τ)) (hk : s.calls k = p)
    (hread : p.reads = true → readAt = s.now)
    (hg : Goes jwt secret ttlS s k p rows p' e) :
    p'.StopsBy δ s.now readAt n.log := by
  have hp := h.calls k
  simp only [Prompt, hk] at hC
  rw [hk] at hp
  cases hg with
  | accepts ha =>
      rename_i token id then_
      cases then_ with
      | stream =>
          refine ⟨(hread rfl).le, fun at_ hmem => ?_⟩
          rw [(hrec.gone id at_ hmem).1.isActive] at ha
          cases ha
      | _ => trivial
  | opens he =>
      refine ⟨le_rfl, fun at_ hmem => ?_⟩
      have hr := hp.2 at_ hmem
      change s.now ≤ n.readAt k + δ at hC
      linarith
  | sends => exact hp
  | rechecks ha =>
      rename_i id
      refine ⟨(hread rfl).le, fun at_ hmem => ?_⟩
      rw [(hrec.gone id at_ hmem).1.isActive] at ha
      cases ha
  | _ => trivial

omit [DecidableEq ν] in
/-- **Step.**  A stream of a revoked client is to stop in time. -/
theorem streams_step {δ : ℚ} {n n' : Notes κ τ} (hδ : 0 ≤ δ) (hC : Prompt δ (s, n) a)
    (h : Streams δ s n) (hrec : OnRecord s n.log) (hm : Moves jwt secret ttlS s a s' e)
    (hlog : n'.log = e.toList ++ n.log)
    (hread : n'.readAt = n.readAfter s a) :
    Streams δ s' n' := by
  have hother : ∀ {k : κ} {p : Stage κ ν η τ} {readAt : κ → ℚ}, (∀ j, j ≠ k → readAt j = n.readAt j) →
      p.StopsBy δ s.now (readAt k) n.log →
      ∀ j, (Function.update s.calls k p j).StopsBy δ s.now (readAt j) n.log := by
    intro k p readAt hr hp j
    by_cases hjk : j = k
    · subst hjk
      rwa [Function.update_self]
    · rw [Function.update_of_ne hjk, hr j hjk]
      exact h.calls j
  cases hm with
  | arrives hk =>
      refine ⟨?_, ?_, ?_⟩
      · rw [hlog]; exact h.past
      · rw [hlog, hread]; exact hother (fun _ _ => rfl) trivial
      · rw [hlog]; exact h.stops
  | goes hg =>
      rename_i k _ p
      have hnow : ∀ id at_, e = some (.revoked id at_) → at_ = s.now := by
        rintro id at_ rfl
        exact hg.revoked_now
      have hreads : (s.calls k).reads = true → n'.readAt k = s.now := by
        intro hr
        rw [hread]
        change (if (s.calls k).reads then Function.update n.readAt k s.now else n.readAt) k = s.now
        rw [if_pos hr, Function.update_self]
      have hkept : ∀ j, j ≠ k → n'.readAt j = n.readAt j := by
        intro j hj
        rw [hread]
        change (if (s.calls k).reads then Function.update n.readAt k s.now else n.readAt) j = _
        split
        · exact Function.update_of_ne hj ..
        · rfl
      refine ⟨fun id at_ hmem => ?_, fun j => ?_, ?_⟩
      · rw [hlog] at hmem
        rcases List.mem_append.mp hmem with hnew | hold
        · exact (hnow id at_ (Option.mem_toList.mp hnew)).le
        · exact h.past id at_ hold
      · rw [hlog]
        exact (hother hkept (h.goes hrec hC rfl hreads hg) j).append hδ hnow
      · rw [hlog]
        cases e with
        | none => exact h.stops
        | some ev =>
            refine List.pairwise_cons.mpr ⟨?_, h.stops⟩
            rintro earlier hmem id r at_ rfl rfl
            exact h.sent hC rfl hg hmem
  | discards =>
      refine ⟨?_, ?_, ?_⟩
      · rw [hlog]; exact h.past
      · rw [hlog, hread]; exact hother (fun _ _ => rfl) trivial
      · rw [hlog]; exact h.stops
  | hangsUp =>
      refine ⟨?_, ?_, ?_⟩
      · rw [hlog]; exact h.past
      · rw [hlog, hread]; exact hother (fun _ _ => rfl) trivial
      · rw [hlog]; exact h.stops
  | ticks hdt =>
      rename_i dt
      refine ⟨?_, ?_, ?_⟩
      · rw [hlog]
        intro id at_ hmem
        have hp := h.past id at_ hmem
        change at_ ≤ s.now + dt
        linarith
      · rw [hlog, hread]
        exact fun j => (h.calls j).later (by change s.now ≤ s.now + dt; linarith)
      · rw [hlog]; exact h.stops
  | setsClock =>
      refine ⟨?_, ?_, ?_⟩
      · rw [hlog]; exact h.past
      · rw [hlog, hread]; exact h.calls
      · rw [hlog]; exact h.stops

/-- **A stream stops.**  Where every stream goes on within `δ` of the reading that found its client
active, it sends no frame later than ten seconds and `δ` after its client is revoked. -/
theorem stream_revoked_within {δ : ℚ} (hδ : 0 ≤ δ) (wall now : ℚ) {as : List (Action κ ν η τ)}
    {n : Notes κ τ}
    (h : (notedSessions jwt secret ttlS casefold).RunIf (Prompt δ) (.fresh wall now, .blank) as (s, n)) :
    StopsWithin (streamRevokeRecheckS + δ) n.log := by
  have hi : Streams δ s n ∧ OnRecord s n.log := by
    refine h.invariant (I := fun q => Streams δ q.1 q.2 ∧ OnRecord q.1 q.2.log) ?_ ?_
    · exact ⟨⟨by simp [Notes.blank], fun _ => trivial, .nil⟩, by simp [Hub.fresh], by simp [Notes.blank]⟩
    · refine Machine.ghost_preserves fun s n a s' hC hi hs => ?_
      obtain ⟨e, hm, hlog⟩ := noted_step (n := n) hs
      refine ⟨streams_step hδ hC hi.1 hi.2 hm hlog rfl, ?_⟩
      rw [hlog]
      exact onRecord_step hi.2 hm
  exact hi.1.stops

/-- The stage of a call decides it. -/
instance decidablePrompt (δ : ℚ) (p : Hub κ ν η τ × Notes κ τ) :
    (a : Action κ ν η τ) → Decidable (Prompt δ p a)
  | .go k => by
      change Decidable (match p.1.calls k with
        | .confirmed _ _ => p.1.now ≤ p.2.readAt k + δ
        | _ => True)
      split <;> infer_instance
  | .arrive _ _ | .discard _ | .hangUp _ | .tick _ | .setClock _ => isTrue trivial

end Moves

/-! ### A run

The first client pairs, mints a token and opens a stream; a command revokes it by its name, and its
refresh token is tried again.
-/

local instance neZeroFive : NeZero 5 := inferInstance

/-- A signature that names its secret. -/
def named : Jwt (Fin 5) ℕ (Payload (Fin 5) × ℕ) where
  encode payload secret := (payload, secret)
  decode token secret wall :=
    if token.2 = secret then
      if wall < token.1.exp then .ok token.1 else .error .expiredSignature
    else .error .invalidToken

/-- A library that names its payloads is sound. -/
theorem named_sound : named.Sound where
  reads := by
    intro payload secret wall payload' h
    simp only [named] at h
    split at h
    · split at h
      · cases h; rfl
      · cases h
    · cases h
  expires := by
    intro token secret wall payload h
    simp only [named] at h
    split at h
    · split at h
      · next hw => cases h; exact hw
      · cases h
    · cases h

/-- What the first client is minted at 1000. -/
def firstToken : Payload (Fin 5) × ℕ := issueAccessToken named 0 8 accessTokenTtlS 1000

/-- A client pairs and streams, is revoked, and has a minute. -/
def pairsStreamsRevoked : List (Action (Fin 5) ℕ ℕ (Payload (Fin 5) × ℕ)) :=
  [.arrive 0 (.pair 6 3), .go 0, .go 0, .arrive 1 (.token 3), .go 1, .go 1,
    .arrive 2 (.guarded (some firstToken) .stream), .go 2, .go 2, .go 2, .tick 5, .go 2,
    .arrive 3 (.revokeCommand (.name 6)), .go 3, .go 3, .tick 4, .go 2, .tick 4, .go 2, .go 2,
    .arrive 4 (.token 3), .go 4]

/-- The events of that run, newest first. -/
def firstEvents : List (Event (Fin 5) (Payload (Fin 5) × ℕ)) :=
  [.sent 0 9, .revoked 0 5, .sent 0 5, .accepted 0 firstToken, .verified 0 firstToken 1000,
    .minted 0 firstToken 1900, .lookedUp 0]

/-- A client pairs and streams, and is revoked. -/
theorem revocation_final_run : ∃ s n,
    (notedSessions named 8 accessTokenTtlS (id : ℕ → ℕ)).Run (.fresh 1000 0, .blank)
        pairsStreamsRevoked (s, n) ∧
      n.log = firstEvents ∧ RevocationFinal s n.log := by
  have hrun : ((notedSessions named 8 accessTokenTtlS (id : ℕ → ℕ)).exec
      (Hub.fresh 1000 0, Notes.blank) pairsStreamsRevoked).map (fun q => q.2.log) =
        some firstEvents := by
    decide +kernel
  obtain ⟨⟨s, n⟩, hs, hl⟩ := Option.map_eq_some_iff.mp hrun
  have h := Machine.exec_eq_some.mp hs
  exact ⟨s, n, h, hl, revocation_final 1000 0 h⟩

/-- The token of a guarded call is one of those minted. -/
def Presented (p : Hub (Fin 5) ℕ ℕ (Payload (Fin 5) × ℕ) × Notes (Fin 5) (Payload (Fin 5) × ℕ)) :
    Action (Fin 5) ℕ ℕ (Payload (Fin 5) × ℕ) → Prop
  | .arrive _ (.guarded (some token) _) => .minted 0 token 1900 ∈ p.2.log
  | _ => True

instance decidablePresented
    (p : Hub (Fin 5) ℕ ℕ (Payload (Fin 5) × ℕ) × Notes (Fin 5) (Payload (Fin 5) × ℕ)) :
    (a : Action (Fin 5) ℕ ℕ (Payload (Fin 5) × ℕ)) → Decidable (Presented p a)
  | .arrive _ (.guarded (some token) _) =>
      inferInstanceAs (Decidable (Event.minted 0 token 1900 ∈ p.2.log))
  | .arrive _ (.guarded none _) | .arrive _ (.pair _ _) | .arrive _ (.token _)
  | .arrive _ (.revokeCommand _) | .go _ | .discard _ | .hangUp _ | .tick _ | .setClock _ =>
      isTrue trivial

theorem Presented.unforged
    {p : Hub (Fin 5) ℕ ℕ (Payload (Fin 5) × ℕ) × Notes (Fin 5) (Payload (Fin 5) × ℕ)}
    {a : Action (Fin 5) ℕ ℕ (Payload (Fin 5) × ℕ)} (h : Presented p a) : Unforged named 8 p a := by
  unfold Unforged
  split
  · exact .inl ⟨0, 1900, h⟩
  · trivial

/-- What the run accepts was minted. -/
theorem accepted_entitled_run : ∃ s n,
    (notedSessions named 8 accessTokenTtlS (id : ℕ → ℕ)).RunIf (Unforged named 8)
        (.fresh 1000 0, .blank) pairsStreamsRevoked (s, n) ∧
      n.log = firstEvents ∧ Entitled n.log := by
  have hrun : ((notedSessions named 8 accessTokenTtlS (id : ℕ → ℕ)).execIf Presented
      (Hub.fresh 1000 0, Notes.blank) pairsStreamsRevoked).map (fun q => q.2.log) =
        some firstEvents := by
    decide +kernel
  obtain ⟨⟨s, n⟩, hs, hl⟩ := Option.map_eq_some_iff.mp hrun
  have h := (Machine.execIf_eq_some.mp hs).mono fun _ _ => Presented.unforged
  exact ⟨s, n, h, hl, accepted_entitled named_sound 1000 0 h⟩

/-- The revoked client's stream stops within its recheck. -/
theorem stream_revoked_within_run : ∃ s n,
    (notedSessions named 8 accessTokenTtlS (id : ℕ → ℕ)).RunIf (Prompt 0)
        (.fresh 1000 0, .blank) pairsStreamsRevoked (s, n) ∧
      n.log = firstEvents ∧ StopsWithin streamRevokeRecheckS n.log := by
  have hrun : ((notedSessions named 8 accessTokenTtlS (id : ℕ → ℕ)).execIf (Prompt 0)
      (Hub.fresh 1000 0, Notes.blank) pairsStreamsRevoked).map (fun q => q.2.log) =
        some firstEvents := by
    decide +kernel
  obtain ⟨⟨s, n⟩, hs, hl⟩ := Option.map_eq_some_iff.mp hrun
  have h := Machine.execIf_eq_some.mp hs
  have hstops := stream_revoked_within le_rfl 1000 0 h
  rw [add_zero] at hstops
  exact ⟨s, n, h, hl, hstops⟩

end BellasReef.Api.Sessions
