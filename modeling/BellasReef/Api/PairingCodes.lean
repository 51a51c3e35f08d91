import BellasReef.Api.Grants
import Mathlib.Data.List.Find
import Mathlib.Data.List.Pairwise

/-!
# Api — PairingCodes

The six digits a device shows (`open_pairing_request`), and what they find when an operator types
them on another (`pairing_request_for_code`, `claim`).  Digits recur: a code is free again when the
request that showed it was decided, or a sweep has seen that it expired.

* `codes_step`: no two requests that are pending show one code.
* `requestForCode_eq_some_iff`, `requestForCode_sweep`: what a code finds, and that no sweep
  changes it.
* `codes_resolve`: over every interleaving, a typed code lets in the device that shows it.
-/

namespace BellasReef.Api
open BellasReef.Support

variable {κ η : Type}

/-- The claims that found a pending request, newest first: the call, what was typed, what it
found. -/
def claimsNoted (s : Pairing κ η) (a : PairAction κ η) (s' : Pairing κ η)
    (claims : List (κ × η × κ)) : List (κ × η × κ) :=
  match a with
  | .arrive _ _ => claims
  | .go k _ =>
      match s.calls k, s'.calls k with
      | .arrived (.claim code), .arrived (.approve r) => (k, code, r) :: claims
      | _, _ => claims

/-- It is pending, and has not expired. -/
def PairingRequest.Live (x : PairingRequest κ η) (now : ℚ) : Prop :=
  x.state = .pending ∧ now < x.expiresAt

/-- A sweep would delete it. -/
def PairingRequest.Forgotten (x : PairingRequest κ η) (now : ℚ) : Prop :=
  (x.stateAt now = .expired ∨ x.stateAt now = .denied) ∧ x.expiresAt < now - pairingRetentionS

section Statement
variable [DecidableEq κ] [DecidableEq η]

/-- What the codes do. -/
structure CodesResolve (s : Pairing κ η) (claims : List (κ × η × κ)) : Prop where
  /-- Two requests that are pending show two codes. -/
  distinct : ∀ x ∈ s.hub.requests, ∀ y ∈ s.hub.requests, x.state = .pending → y.state = .pending →
    x.pairingCode = y.pairingCode → x = y
  /-- A device was shown the code of its request, and no other. -/
  shown : ∀ x ∈ s.hub.requests, s.calls x.id = .done (.requested x.pairingCode)
  /-- Its code finds a live request, and what a code finds pending is live and shows that code. -/
  found : ∀ code now r, s.hub.requestForCode code now = some (r, .pending) ↔
    ∃ x ∈ s.hub.requests, x.id = r ∧ x.pairingCode = code ∧ x.Live now
  /-- A sweep that has been before changes no answer, unless it deletes a request of that code. -/
  swept : ∀ code before now, before ≤ now →
    (∀ x ∈ s.hub.requests, x.pairingCode = code → ¬ x.Forgotten before) →
    (s.hub.sweep before).requestForCode code now = s.hub.requestForCode code now
  /-- What was typed lets in the device that shows it, under the client minted for it. -/
  granted : ∀ k code r, (k, code, r) ∈ claims → s.calls r = .done (.requested code) ∧
    ∀ m, (s.calls k).kept = some m → m = .approval r ∧ ∃ x ∈ s.hub.requests, x.id = r ∧
      x.pairingCode = code ∧ x.state = .approved ∧ x.clientPk = some k

end Statement

/-! ### What a code finds -/

section Lookup
variable {x : PairingRequest κ η} {now before : ℚ}

/-- A sweep before has aged no row that is not aged now. -/
theorem stateAt_age (hle : before ≤ now) : (x.age before).stateAt now = x.stateAt now := by
  by_cases hx : x.state = .pending ∧ x.expiresAt ≤ before
  · have hnow : x.state = .pending ∧ x.expiresAt ≤ now := ⟨hx.1, hx.2.trans hle⟩
    simp [PairingRequest.age, PairingRequest.stateAt, hx, hnow]
  · simp [PairingRequest.age, PairingRequest.stateAt, hx]

/-- A request is live until it is decided or expires. -/
theorem live_iff_stateAt : x.Live now ↔ x.stateAt now = .pending := by
  unfold PairingRequest.stateAt PairingRequest.Live
  split
  · next hx => simp [hx.2.not_gt]
  · next hx =>
      constructor
      · exact And.left
      · exact fun hp => ⟨hp, not_le.mp fun hle => hx ⟨hp, hle⟩⟩

/-- To mark what has expired changes nothing of what is live. -/
theorem live_age (hle : before ≤ now) : (x.age before).Live now ↔ x.Live now := by
  rw [live_iff_stateAt, live_iff_stateAt, stateAt_age hle]

/-- What a sweep leaves of those that a search finds. -/
theorem find?_sweep {h : Hub κ η} {q : PairingRequest κ η → Bool}
    (hkept : ∀ x ∈ h.requests, q (x.age before) = true → ¬ x.Forgotten before) :
    (h.sweep before).requests.find? q =
      (h.requests.find? fun x => q (x.age before)).map (·.age before) := by
  rw [Hub.sweep, List.find?_filter, List.find?_map]
  refine congrArg _ (List.find?_congr fun x hx => Bool.eq_iff_iff.mpr ?_)
  rw [Function.comp_apply, Bool.decide_and, Bool.and_eq_true, decide_eq_true_iff,
    Bool.decide_eq_true]
  refine and_iff_right_of_imp fun hq => ?_
  rw [decide_eq_true_iff]
  exact hkept x hx hq

variable [DecidableEq η]

/-- **No sweep changes what a code finds**, unless it deletes a request of that code. -/
theorem requestForCode_sweep {h : Hub κ η} {code : η} (hle : before ≤ now)
    (hkept : ∀ x ∈ h.requests, x.pairingCode = code → ¬ x.Forgotten before) :
    (h.sweep before).requestForCode code now = h.requestForCode code now := by
  have hlive : ((h.sweep before).requests.find? fun x =>
      decide (x.pairingCode = code ∧ x.state = .pending ∧ now < x.expiresAt)) =
      (h.requests.find? fun x =>
        decide (x.pairingCode = code ∧ x.state = .pending ∧ now < x.expiresAt)).map
        (·.age before) := by
    rw [find?_sweep fun x hx hq => hkept x hx (of_decide_eq_true hq).1]
    refine congrArg _ (List.find?_congr fun x _ => decide_eq_decide.mpr ?_)
    exact and_congr_right fun _ => live_age hle
  have hany : ((h.sweep before).requests.find? fun x => decide (x.pairingCode = code)) =
      (h.requests.find? fun x => decide (x.pairingCode = code)).map (·.age before) :=
    find?_sweep fun x hx hq => hkept x hx (of_decide_eq_true hq)
  rw [Hub.requestForCode, hlive, hany, ← Option.map_or, Option.map_map]
  refine congrArg (Option.map · _) (funext fun x => ?_)
  exact congrArg (Prod.mk x.id) (stateAt_age hle)

/-- **What a code finds pending** is the live request that shows it. -/
theorem requestForCode_eq_some_iff {h : Hub κ η} {code : η} {r : κ}
    (hdistinct : ∀ x ∈ h.requests, ∀ y ∈ h.requests, x.state = .pending → y.state = .pending →
      x.pairingCode = y.pairingCode → x = y) :
    h.requestForCode code now = some (r, .pending) ↔
      ∃ x ∈ h.requests, x.id = r ∧ x.pairingCode = code ∧ x.Live now := by
  rw [Hub.requestForCode]
  cases hfind : h.requests.find? fun x =>
      decide (x.pairingCode = code ∧ x.state = .pending ∧ now < x.expiresAt) with
  | some x =>
      have hx := List.mem_of_find?_eq_some hfind
      have hshows : x.pairingCode = code ∧ x.Live now := by
        simpa [PairingRequest.Live] using List.find?_some hfind
      obtain ⟨hcode, hlive⟩ := hshows
      rw [Option.some_or, Option.map_some, Option.some_inj, Prod.mk.injEq,
        and_iff_left (live_iff_stateAt.mp hlive)]
      constructor
      · rintro rfl
        exact ⟨x, hx, rfl, hcode, hlive⟩
      · rintro ⟨y, hy, rfl, hycode, hylive⟩
        rw [hdistinct x hx y hy hlive.1 hylive.1 (hcode.trans hycode.symm)]
  | none =>
      have hnone : ∀ x ∈ h.requests, x.pairingCode = code → ¬ x.Live now := fun x hx hcode hlive =>
        List.find?_eq_none.mp hfind x hx (decide_eq_true ⟨hcode, hlive⟩)
      refine iff_of_false ?_ ?_
      · rw [Option.none_or, Option.map_eq_some_iff]
        rintro ⟨x, hx, hstate⟩
        have hcode : x.pairingCode = code := by simpa using List.find?_some hx
        refine hnone x (List.mem_of_find?_eq_some hx) hcode ?_
        exact live_iff_stateAt.mpr (congrArg Prod.snd hstate)
      · rintro ⟨x, hx, -, hcode, hlive⟩
        exact hnone x hx hcode hlive

end Lookup

/-! ### The codes in play -/

/-- What the codes of the requests are, and whose. -/
structure Codes (h : Hub κ η) (calls : κ → PairStage κ η) : Prop where
  distinct : h.requests.Pairwise fun x y =>
    x.state = .pending → y.state = .pending → x.pairingCode ≠ y.pairingCode
  shown : ∀ x ∈ h.requests, calls x.id = .done (.requested x.pairingCode)

section Codes
variable [DecidableEq κ] {h h' : Hub κ η} {now : ℚ} {k : κ} {p' : PairStage κ η}
  {calls : κ → PairStage κ η}

/-- A row rewritten in place: whose it is and what it shows stays, and no row is pending again. -/
structure Rewrites (f : PairingRequest κ η → PairingRequest κ η) : Prop where
  id_eq : ∀ x, (f x).id = x.id
  code_eq : ∀ x, (f x).pairingCode = x.pairingCode
  pending : ∀ x, (f x).state = .pending → x.state = .pending

omit [DecidableEq κ] in
theorem rewrites_id : Rewrites (id : PairingRequest κ η → PairingRequest κ η) :=
  ⟨fun _ => rfl, fun _ => rfl, fun _ hx => hx⟩

omit [DecidableEq κ] in
/-- To mark what has expired changes no code. -/
theorem rewrites_age : Rewrites fun x : PairingRequest κ η => x.age now :=
  ⟨fun _ => rfl, fun _ => rfl, fun _ hx => (live_iff_stateAt.mpr hx).1⟩

/-- What an `UPDATE` of a pending request does. -/
theorem rewrites_pending {r : κ} {f : PairingRequest κ η → PairingRequest κ η}
    (hf : ∀ x, (f x).id = x.id ∧ (f x).pairingCode = x.pairingCode) :
    Rewrites fun x => if x.id = r ∧ x.state = .pending then f x else x := by
  refine ⟨fun x => ?_, fun x => ?_, fun x => ?_⟩
  · split
    · exact (hf x).1
    · rfl
  · split
    · exact (hf x).2
    · rfl
  · split
    · next hx => exact fun _ => hx.2
    · exact id

/-- Every step but the opening of a request rewrites rows, or drops them. -/
theorem PairMoves.rewrites (hm : PairMoves h now k (calls k) h' p')
    (hne : ∀ code, p' ≠ .done (.requested code)) :
    ∃ f, Rewrites f ∧ h'.requests.Sublist (h.requests.map f) := by
  have hsame : h'.requests = h.requests →
      ∃ f, Rewrites f ∧ h'.requests.Sublist (h.requests.map f) := by
    intro hrows
    refine ⟨id, rewrites_id, ?_⟩
    rw [hrows, List.map_id]
  generalize calls k = p at hm
  cases hm with
  | sweeps => exact ⟨_, rewrites_age, List.filter_sublist⟩
  | opens hid hx => exact absurd rfl (hne _)
  | denies =>
      refine ⟨_, ?_, List.Sublist.refl _⟩
      exact rewrites_pending fun _ => ⟨rfl, rfl⟩
  | approves hw =>
      refine ⟨_, ?_, List.Sublist.refl _⟩
      exact rewrites_pending fun _ => ⟨rfl, rfl⟩
  | latchesCode hw => exact hsame Hub.requests_completeSetup
  | latches => exact hsame Hub.requests_completeSetup
  | _ => exact hsame rfl

omit [DecidableEq κ] in
/-- Rows rewritten or dropped. -/
theorem Codes.rewrite {calls' : κ → PairStage κ η} {f : PairingRequest κ η → PairingRequest κ η}
    (hi : Codes h calls) (hf : Rewrites f) (hrows : h'.requests.Sublist (h.requests.map f))
    (hdone : ∀ j code, calls j = .done (.requested code) → calls' j = .done (.requested code)) :
    Codes h' calls' where
  distinct := by
    refine List.Pairwise.sublist hrows (List.pairwise_map.mpr (hi.distinct.imp ?_))
    intro x y hxy hx hy
    rw [hf.code_eq, hf.code_eq]
    exact hxy (hf.pending x hx) (hf.pending y hy)
  shown := by
    intro y hy
    obtain ⟨x, hx, rfl⟩ := List.mem_map.mp (hrows.subset hy)
    rw [hf.id_eq, hf.code_eq]
    exact hdone _ _ (hi.shown x hx)

omit [DecidableEq κ] in
/-- Two pending requests of one code are one. -/
theorem Codes.eq_of_code (hi : Codes h calls) : ∀ x ∈ h.requests, ∀ y ∈ h.requests,
    x.state = .pending → y.state = .pending → x.pairingCode = y.pairingCode → x = y := by
  intro x hx y hy hpx hpy hcode
  by_contra hne
  have hsymm : Std.Symm fun x y : PairingRequest κ η =>
      x.state = .pending → y.state = .pending → x.pairingCode ≠ y.pairingCode :=
    ⟨fun _ _ hxy hpx hpy => (hxy hpy hpx).symm⟩
  exact hi.distinct.forall hx hy hne hpx hpy hcode

end Codes

section Steps
variable [DecidableEq κ] [DecidableEq η] {h h' : Hub κ η} {t : Reading η} {k : κ}
  {s s' : Pairing κ η} {a : PairAction κ η}

/-- A request opens under a code that no pending one has. -/
theorem opening_free {code : η}
    (hn : (PairStage.opening : PairStage κ η).next h t k = some (h', .done (.requested code))) :
    ∀ x ∈ h.requests, x.state = .pending → x.pairingCode ≠ code := by
  simp only [PairStage.next] at hn
  split at hn
  · cases hn
  · next hfree =>
      cases hn
      intro x hx hpending hcode
      exact hfree (List.any_eq_true.mpr ⟨x, hx, decide_eq_true ⟨hcode, hpending⟩⟩)

/-- **Step.**  Pending requests differ in code. -/
theorem Codes.go {p' : PairStage κ η} {calls : κ → PairStage κ η} (hi : Codes h calls)
    (hn : (calls k).next h t k = some (h', p')) : Codes h' (Function.update calls k p') := by
  have hm := pairing_moves hn
  by_cases hopens : ∃ code, p' = .done (.requested code)
  · obtain ⟨code, rfl⟩ := hopens
    have hdone : ∀ x ∈ h.requests,
        Function.update calls k (.done (.requested code)) x.id = .done (.requested x.pairingCode) :=
      fun x hx => hm.update_done (hi.shown x hx)
    generalize calls k = p at hm hn
    cases hm with
    | reads _ _ hp' => cases hp'
    | @opens x hid hx =>
        refine ⟨List.pairwise_cons.mpr ⟨fun y hy _ hpending => ?_, hi.distinct⟩, ?_⟩
        · exact (opening_free hn y hy hpending).symm
        · refine List.forall_mem_cons.mpr ⟨?_, hdone⟩
          rw [hid, Function.update_self]
  · rw [not_exists] at hopens
    obtain ⟨f, hf, hrows⟩ := hm.rewrites hopens
    exact hi.rewrite hf hrows fun j code => hm.update_done

omit [DecidableEq η] in
/-- A call that arrives changes no code. -/
theorem Codes.arrive {c : PairCall κ η} {calls : κ → PairStage κ η} (hi : Codes h calls)
    (hidle : calls k = .idle) : Codes h (Function.update calls k (.arrived c)) := by
  refine hi.rewrite rewrites_id (by rw [List.map_id]) fun j code hj => ?_
  have hne : j ≠ k := by
    rintro rfl
    rw [hidle] at hj
    cases hj
  rw [Function.update_of_ne hne, hj]

/-- **No two requests that are pending show one code.** -/
theorem codes_step (hi : Codes s.hub s.calls) (hs : s.step a = some s') :
    Codes s'.hub s'.calls := by
  cases a with
  | arrive k c =>
      simp only [Pairing.step] at hs
      split at hs
      · next hidle =>
          cases hs
          exact hi.arrive hidle
      · cases hs
  | go k t =>
      obtain ⟨⟨h, p⟩, hn, he⟩ := Option.map_eq_some_iff.mp hs
      cases he
      exact hi.go hn

end Steps

/-! ### The claims -/

/-- A call that approves the request, or has. -/
def PairStage.Approving (r : κ) : PairStage κ η → Prop
  | .arrived (.approve q) | .putting q => q = r
  | .creating m | .deciding m | .discarding m | .latching m => m = .approval r
  | .done a => ∀ m, a = .granted m → m = .approval r
  | _ => False

theorem PairStage.Approving.kept {p : PairStage κ η} {r : κ} {m : GrantMethod κ}
    (hp : p.Approving r) (hm : p.kept = some m) : m = .approval r := by
  cases p with
  | putting q =>
      cases hm
      exact congrArg _ hp
  | latching m' =>
      cases hm
      exact hp
  | done a =>
      cases a with
      | granted m' =>
          cases hm
          exact hp m rfl
      | _ => cases hm
  | _ => cases hm

section Claims
variable [DecidableEq κ] [DecidableEq η] {h h' : Hub κ η} {t : Reading η} {k r : κ}
  {p p' : PairStage κ η} {s s' : Pairing κ η} {a : PairAction κ η} {claims : List (κ × η × κ)}

/-- It approves that one and no other. -/
theorem PairStage.Approving.next (hp : p.Approving r) (hn : p.next h t k = some (h', p')) :
    p'.Approving r := by
  cases p with
  | arrived c =>
      cases c with
      | approve q =>
          obtain rfl : q = r := hp
          simp only [PairStage.next] at hn
          split at hn <;> cases hn
          · rfl
          · rintro m ⟨⟩
      | _ => exact hp.elim
  | creating m =>
      obtain rfl : m = .approval r := hp
      cases hn
      rfl
  | deciding m =>
      obtain rfl : m = .approval r := hp
      simp only [PairStage.next] at hn
      split at hn <;> cases hn
      · rfl
      · rintro m ⟨⟩
  | discarding m =>
      cases hn
      rintro m' ⟨⟩
  | putting q =>
      obtain rfl : q = r := hp
      cases hn
      rfl
  | latching m =>
      cases hn
      rintro m' ⟨⟩
      exact hp
  | done a => cases hn
  | _ => exact hp.elim

/-- What the claims found. -/
def Claimed (s : Pairing κ η) (claims : List (κ × η × κ)) : Prop :=
  ∀ k code r, (k, code, r) ∈ claims →
    s.calls r = .done (.requested code) ∧ (s.calls k).Approving r

omit [DecidableEq κ] [DecidableEq η] in
/-- A claim is noted when it has found a pending request. -/
theorem mem_claimsNoted {j : κ} {code : η} (hmem : (j, code, r) ∈ claimsNoted s a s' claims) :
    (j, code, r) ∈ claims ∨ (∃ t, a = .go j t) ∧ s.calls j = .arrived (.claim code) ∧
      s'.calls j = .arrived (.approve r) := by
  cases a with
  | arrive k c => exact .inl hmem
  | go k t =>
      simp only [claimsNoted] at hmem
      split at hmem
      · next code' r' hp hp' =>
          obtain he | hmem := List.mem_cons.mp hmem
          · cases he
            exact .inr ⟨⟨t, rfl⟩, hp, hp'⟩
          · exact .inl hmem
      · exact .inl hmem

/-- A claim by code goes on to the live request of that code. -/
theorem claim_found {code : η} (hn : (PairStage.arrived (.claim code) : PairStage κ η).next h t k =
    some (h', .arrived (.approve r))) : h.requestForCode code t.now = some (r, .pending) := by
  simp only [PairStage.next] at hn
  split at hn
  · cases hn
  · next r' state hfound =>
      split at hn
      · next hpending =>
          cases hn
          rw [hfound, hpending]
      · cases hn

omit [DecidableEq κ] in
/-- What a code finds pending is the request of the device that shows it. -/
theorem Codes.found {calls : κ → PairStage κ η} {code : η} {now : ℚ} (hi : Codes h calls) :
    h.requestForCode code now = some (r, .pending) ↔
      ∃ x ∈ h.requests, x.id = r ∧ x.pairingCode = code ∧ x.Live now :=
  requestForCode_eq_some_iff hi.eq_of_code

/-- **Step.**  A claim approves the request that its code was of. -/
theorem claimed_step (hc : Codes s.hub s.calls) (hi : Claimed s claims)
    (hs : s.step a = some s') : Claimed s' (claimsNoted s a s' claims) := by
  intro j code r hmem
  obtain hold | ⟨⟨t, rfl⟩, hp, hp'⟩ := mem_claimsNoted hmem
  · obtain ⟨hshown, happroving⟩ := hi j code r hold
    obtain ⟨k, now, p', hm, hcalls, -⟩ := Pairing.step_moves hs
    refine ⟨by rw [hcalls]; exact hm.update_done hshown, ?_⟩
    cases a with
    | arrive k c =>
        simp only [Pairing.step] at hs
        split at hs
        · next hidle =>
            cases hs
            have hne : j ≠ k := by
              rintro rfl
              rw [hidle] at happroving
              exact happroving
            dsimp only
            rwa [Function.update_of_ne hne]
        · cases hs
    | go k t =>
        obtain ⟨⟨h, p⟩, hn, he⟩ := Option.map_eq_some_iff.mp hs
        cases he
        dsimp only
        by_cases hj : j = k
        · rw [hj, Function.update_self]
          exact (hj ▸ happroving).next hn
        · rwa [Function.update_of_ne hj]
  · obtain ⟨⟨h, p⟩, hn, he⟩ := Option.map_eq_some_iff.mp hs
    cases he
    dsimp only at hp' ⊢
    rw [Function.update_self] at hp'
    rw [hp, hp'] at hn
    obtain ⟨x, hx, rfl, rfl, -⟩ := hc.found.mp (claim_found hn)
    have hne : x.id ≠ j := by
      intro hid
      have hdone := hc.shown x hx
      rw [hid, hp] at hdone
      cases hdone
    refine ⟨?_, ?_⟩
    · rw [Function.update_of_ne hne]
      exact hc.shown x hx
    · rw [Function.update_self, hp']
      rfl

end Claims

/-! ### Runs -/

/-- The calls of one hub, with what the claims found. -/
abbrev selecting (κ η : Type) [DecidableEq κ] [DecidableEq η] :
    Machine (Pairing κ η × List (κ × η × κ)) (PairAction κ η) :=
  (pairing κ η).ghost claimsNoted

section Runs
variable [DecidableEq κ] [DecidableEq η] {s : Pairing κ η} {claims : List (κ × η × κ)}

omit [DecidableEq κ] in
theorem CodesResolve.of (hg : Grants s.hub s.calls) (hc : Codes s.hub s.calls)
    (hi : Claimed s claims) : CodesResolve s claims where
  distinct := hc.eq_of_code
  shown := hc.shown
  found code now r := hc.found
  swept code before now hle hkept := requestForCode_sweep hle hkept
  granted k code r hmem := by
    obtain ⟨hshown, happroving⟩ := hi k code r hmem
    refine ⟨hshown, fun m hm => ?_⟩
    obtain rfl := happroving.kept hm
    refine ⟨rfl, ?_⟩
    obtain ⟨x, hx, rfl, howner⟩ := (hg.requests.tickets.won_iff k r).mp hm
    obtain ⟨hstate, hclient⟩ := Option.ite_none_right_eq_some.mp howner
    have hcode : x.pairingCode = code := by
      have hdone := (hc.shown x hx).symm.trans hshown
      cases hdone
      rfl
    exact ⟨x, hx, rfl, hcode, hstate, hclient⟩

/-- **A typed code lets in the device that shows it**, over every interleaving of the calls. -/
theorem codes_resolve {as : List (PairAction κ η)}
    (h : (selecting κ η).Run (Pairing.fresh, []) as (s, claims)) : CodesResolve s claims := by
  have hinv : Grants s.hub s.calls ∧ Codes s.hub s.calls ∧ Claimed s claims := by
    refine h.invariant
      (I := fun p => Grants p.1.hub p.1.calls ∧ Codes p.1.hub p.1.calls ∧ Claimed p.1 p.2)
      ⟨grants_fresh, ⟨.nil, fun x hx => absurd hx List.not_mem_nil⟩,
        fun k code r hmem => absurd hmem List.not_mem_nil⟩ ?_
    refine Machine.ghost_preserves fun s claims a s' _ hi hs => ?_
    obtain ⟨hg, hc, hclaimed⟩ := hi
    exact ⟨grants_step hg hs, codes_step hc hs, claimed_step hc hclaimed hs⟩
  exact .of hinv.1 hinv.2.1 hinv.2.2

end Runs

/-- Two devices are shown the same digits, the second after the first's request has expired, and
they are typed on a third. -/
def sameDigits : List (PairAction (Fin 4) ℕ) :=
  [.arrive 0 (.pair none)] ++ goes 7 0 ++ [.arrive 1 (.pair none)] ++ goes 6 1 ++
    [.arrive 2 (.pair none)] ++ List.replicate 6 (.go 2 ⟨400, 400, 0⟩) ++
    [.arrive 3 (.claim 0)] ++ List.replicate 6 (.go 3 ⟨400, 400, 0⟩)

/-- A code is drawn again after its first request expired, and approves the second. -/
theorem codes_resolve_sameDigits : ∃ s claims,
    (selecting (Fin 4) ℕ).Run (Pairing.fresh, []) sameDigits (s, claims) ∧
      s.calls 1 = .done (.requested 0) ∧ claims = [(3, 0, 2)] ∧
      s.calls 3 = .done (.granted (.approval 2)) ∧ CodesResolve s claims := by
  have hrun : ((selecting (Fin 4) ℕ).exec (Pairing.fresh, []) sameDigits).map
      (fun p => (p.1.calls 1, p.2, p.1.calls 3)) =
      some (.done (.requested 0), [(3, 0, 2)], .done (.granted (.approval 2))) := by
    decide +kernel
  obtain ⟨⟨s, claims⟩, hs, hl⟩ := Option.map_eq_some_iff.mp hrun
  obtain ⟨h1, hl⟩ := Prod.ext_iff.mp hl
  obtain ⟨hclaims, h3⟩ := Prod.ext_iff.mp hl
  have h := Machine.exec_eq_some.mp hs
  exact ⟨s, claims, h, h1, hclaims, h3, codes_resolve h⟩

end BellasReef.Api
