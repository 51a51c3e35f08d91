import BellasReef.Api.Grants

/-!
# Api — Collecting

The polls of an approved request.  `approve_pairing` commits before `_approve` puts the token in
the table that a poll takes it from, so a poll that reads `approved` may find nothing there yet, and
is told that the approval was collected.

* `collecting_step`: over every interleaving a token is put once and taken once.
* `collected_once`: a run answers its polls rightly if and only if no poll looks for a token that
  its approver has not put yet.
-/

namespace BellasReef.Api
open BellasReef.Support

variable {κ η : Type}

section Statement
variable [DecidableEq κ]

omit [DecidableEq κ] in
/-- The polls that read `approved`, newest first, and whether each was handed the credential. -/
def PairStage.polled (p p' : PairStage κ η) (polls : List (κ × Bool)) : List (κ × Bool) :=
  match p, p' with
  | .collecting r, .done (.collected _) => (r, true) :: polls
  | .collecting r, .done .alreadyCollected => (r, false) :: polls
  | _, _ => polls

omit [DecidableEq κ] in
/-- What a step adds to them. -/
def pollsAnswered (s : Pairing κ η) (a : PairAction κ η) (s' : Pairing κ η) (polls : List (κ × Bool)) :
    List (κ × Bool) :=
  match a with
  | .go k _ => (s.calls k).polled (s'.calls k) polls
  | .arrive _ _ => polls

/-- Each approval is collected once, and is `already collected` afterwards only. -/
structure CollectedOnce (polls : List (κ × Bool)) : Prop where
  once : ∀ r, polls.count (r, true) ≤ 1
  already : ∀ r newer older, polls = newer ++ (r, false) :: older → (r, true) ∈ older

omit [DecidableEq κ] in
/-- No poll looks for a token that its approver has still in hand. -/
def TokenPut (s : Pairing κ η) : PairAction κ η → Prop
  | .go k _ =>
      match s.calls k with
      | .collecting r => ∀ j, s.calls j ≠ .putting r
      | _ => True
  | .arrive _ _ => True

end Statement

/-- The request whose token the call has put. -/
def PairStage.hasPut : PairStage κ η → Option κ
  | .latching (.approval r) | .done (.granted (.approval r)) => some r
  | _ => none

/-- An approval is kept by the call that has its token in hand, or has put it. -/
theorem kept_eq_approval {p : PairStage κ η} {r : κ} :
    p.kept = some (.approval r) ↔ p.hasPut = some r ∨ p = .putting r := by
  cases p with
  | putting r' => simp [PairStage.kept, PairStage.hasPut]
  | latching m => cases m <;> simp [PairStage.kept, PairStage.hasPut]
  | done a =>
      cases a with
      | granted m => cases m <;> simp [PairStage.kept, PairStage.hasPut]
      | _ => simp [PairStage.kept, PairStage.hasPut]
  | _ => simp [PairStage.kept, PairStage.hasPut]

/-- Where the tokens are. -/
structure Collecting [DecidableEq κ] (h : Hub κ η) (calls : κ → PairStage κ η)
    (polls : List (κ × Bool)) : Prop where
  /-- A token that was put waits, or was handed out. -/
  put_iff : ∀ r, (h.tokens r).isSome ∨ (r, true) ∈ polls ↔ ∃ k, (calls k).hasPut = some r
  /-- Not both. -/
  apart : ∀ r, (h.tokens r).isSome → (r, true) ∉ polls
  /-- A poll that has read `approved` has an approver. -/
  read : ∀ j r, calls j = .collecting r → ∃ k, (calls k).kept = some (.approval r)
  once : ∀ r, polls.count (r, true) ≤ 1

/-- A call that has decided nothing has put no token. -/
theorem hasPut_of_quiet {p : PairStage κ η} (hq : p.quiet = true) : p.hasPut = none := by
  unfold PairStage.hasPut
  split
  · cases hq
  · cases hq
  · rfl

/-- A call that has decided nothing answers no poll. -/
theorem polled_of_quiet {p p' : PairStage κ η} {polls : List (κ × Bool)} (hq : p.quiet = true) :
    p.polled p' polls = polls := by
  unfold PairStage.polled
  split
  · cases hq
  · cases hq
  · rfl

section Steps
variable [DecidableEq κ] {h h' : Hub κ η} {now : ℚ} {k : κ} {p' : PairStage κ η}
  {calls : κ → PairStage κ η} {polls : List (κ × Bool)}

/-- What was granted stays so. -/
theorem PairMoves.kept_mono (hm : PairMoves h now k (calls k) h' p') {j : κ} {m : GrantMethod κ}
    (hj : (calls j).kept = some m) : (Function.update calls k p' j).kept = some m := by
  rw [kept_update]
  split
  · next he =>
      rw [he] at hj
      rcases hm.kept with hsame | ⟨hnone, -⟩
      · rw [hsame, hj]
      · rw [hnone] at hj
        cases hj
  · exact hj

/-- A poll goes on to the token of an approved request. -/
theorem PairMoves.collecting {r : κ} (hr : Requests h calls)
    (hm : PairMoves h now k (calls k) h' (.collecting r)) :
    ∃ j, (calls j).kept = some (.approval r) := by
  generalize calls k = p at hm
  cases hm with
  | reads _ _ hq' => cases hq'
  | @polls _ x hx hid ha =>
      obtain ⟨j, hj⟩ := Option.isSome_iff_exists.mp (x.approved_has_client ha)
      refine ⟨j, ?_⟩
      rw [← hid, hr.tickets.won_row hx, PairingRequest.grantedTo, if_pos ha, hj]

omit [DecidableEq κ] in
/-- The approver of a request, while it has the token in hand, is the only one. -/
theorem hasPut_of_putting {r j : κ} (hr : Requests h calls) (hk : calls k = .putting r) :
    (calls j).hasPut ≠ some r := by
  intro hj
  have hjk : j = k := hr.tickets.unique_taker (kept_eq_approval.mpr (.inl hj))
    (kept_eq_approval.mpr (.inr hk))
  rw [hjk, hk] at hj
  cases hj

/-- Every poll that has read `approved` still has its approver. -/
theorem PairMoves.read (hr : Requests h calls) (hi : Collecting h calls polls)
    (hm : PairMoves h now k (calls k) h' p') (j r : κ)
    (hj : Function.update calls k p' j = .collecting r) :
    ∃ i, (Function.update calls k p' i).kept = some (.approval r) := by
  have hkept : ∃ i, (calls i).kept = some (.approval r) := by
    by_cases hjk : j = k
    · rw [hjk, Function.update_self] at hj
      exact (hj ▸ hm).collecting hr
    · rw [Function.update_of_ne hjk] at hj
      exact hi.read j r hj
  exact hkept.imp fun _ => hm.kept_mono

/-- A step that puts no token leaves those that were put. -/
theorem hasPut_update (he : p'.hasPut = (calls k).hasPut) (r : κ) :
    (∃ j, (Function.update calls k p' j).hasPut = some r) ↔ ∃ j, (calls j).hasPut = some r := by
  refine exists_congr fun j => ?_
  by_cases hjk : j = k
  · rw [hjk, Function.update_self, he]
  · rw [Function.update_of_ne hjk]

/-- A call that neither puts a token nor takes one leaves them where they are. -/
theorem Collecting.keep (hi : Collecting h calls polls) (ht : h'.tokens = h.tokens)
    (he : p'.hasPut = (calls k).hasPut)
    (hread : ∀ j r, Function.update calls k p' j = .collecting r →
      ∃ i, (Function.update calls k p' i).kept = some (.approval r)) :
    Collecting h' (Function.update calls k p') polls :=
  ⟨fun r => by rw [ht, hasPut_update he, hi.put_iff], fun r => by rw [ht]; exact hi.apart r, hread,
    hi.once⟩

/-- An approver puts its token, which nobody has put before. -/
theorem Collecting.puts {r : κ} (hr : Requests h calls) (hi : Collecting h calls polls)
    (hp : calls k = .putting r) (hput : p'.hasPut = some r)
    (hread : ∀ j r, Function.update calls k p' j = .collecting r →
      ∃ i, (Function.update calls k p' i).kept = some (.approval r)) :
    Collecting { h with tokens := Function.update h.tokens r (some k) }
      (Function.update calls k p') polls := by
  have hno : ¬ ((h.tokens r).isSome ∨ (r, true) ∈ polls) := by
    rw [hi.put_iff]
    rintro ⟨j, hj⟩
    exact hasPut_of_putting hr hp hj
  refine ⟨fun r' => ?_, fun r' hr' => ?_, hread, hi.once⟩
  · by_cases hrr : r' = r
    · refine iff_of_true (.inl ?_) ⟨k, ?_⟩
      · simp only [hrr, Function.update_self, Option.isSome_some]
      · rw [hrr, Function.update_self, hput]
    · simp only [Function.update_of_ne hrr]
      refine (hi.put_iff r').trans (exists_congr fun j => ?_)
      by_cases hjk : j = k
      · rw [hjk, Function.update_self, hp, hput]
        exact iff_of_false nofun fun he => hrr (Option.some.inj he).symm
      · rw [Function.update_of_ne hjk]
  · by_cases hrr : r' = r
    · rw [hrr]
      exact fun hmem => hno (.inr hmem)
    · simp only [Function.update_of_ne hrr] at hr'
      exact hi.apart r' hr'

/-- A poll takes the token. -/
theorem Collecting.collects {r client : κ} (hi : Collecting h calls polls)
    (hc : h.tokens r = some client) (he : p'.hasPut = (calls k).hasPut)
    (hread : ∀ j r, Function.update calls k p' j = .collecting r →
      ∃ i, (Function.update calls k p' i).kept = some (.approval r)) :
    Collecting { h with tokens := Function.update h.tokens r none } (Function.update calls k p')
      ((r, true) :: polls) := by
  have hsome : (h.tokens r).isSome := by rw [hc]; rfl
  have hmem : ∀ r', r' ≠ r → ((r', true) ∈ (r, true) :: polls ↔ (r', true) ∈ polls) := by
    intro r' hrr
    rw [List.mem_cons]
    exact ⟨fun he => he.resolve_left fun he => hrr (congrArg Prod.fst he), .inr⟩
  refine ⟨fun r' => ?_, fun r' hr' => ?_, hread, fun r' => ?_⟩
  · rw [hasPut_update he]
    by_cases hrr : r' = r
    · rw [hrr]
      exact iff_of_true (.inr List.mem_cons_self) ((hi.put_iff r).mp (.inl hsome))
    · rw [hmem r' hrr]
      simp only [Function.update_of_ne hrr]
      exact hi.put_iff r'
  · by_cases hrr : r' = r
    · simp [hrr] at hr'
    · simp only [Function.update_of_ne hrr] at hr'
      exact fun he => hi.apart r' hr' ((hmem r' hrr).mp he)
  · by_cases hrr : r' = r
    · rw [hrr, List.count_cons_self, List.count_eq_zero_of_not_mem (hi.apart r hsome)]
    · rw [List.count_cons_of_ne fun he => hrr (congrArg Prod.fst he).symm]
      exact hi.once r'

/-- A poll that finds nothing is told that the approval was collected. -/
theorem Collecting.misses {r : κ} (hi : Collecting h calls polls) :
    Collecting h calls ((r, false) :: polls) := by
  have hmem : ∀ r', (r', true) ∈ (r, false) :: polls ↔ (r', true) ∈ polls := by
    intro r'
    rw [List.mem_cons]
    exact ⟨fun he => he.resolve_left nofun, .inr⟩
  refine ⟨fun r' => ?_, fun r' hr' he => hi.apart r' hr' ((hmem r').mp he), hi.read, fun r' => ?_⟩
  · rw [← hi.put_iff]
    exact or_congr_right (hmem r')
  · rw [List.count_cons_of_ne fun he => Bool.false_ne_true (congrArg Prod.snd he)]
    exact hi.once r'

/-- **Step.**  A token is put once and taken once. -/
theorem collecting_step (hr : Requests h calls) (hi : Collecting h calls polls)
    (hm : PairMoves h now k (calls k) h' p') :
    Collecting h' (Function.update calls k p') ((calls k).polled p' polls) := by
  have hread := hm.read hr hi
  have hsame : h'.tokens = h.tokens → p'.hasPut = (calls k).hasPut →
      (calls k).polled p' polls = polls →
      Collecting h' (Function.update calls k p') ((calls k).polled p' polls) := by
    intro ht he hp
    rw [hp]
    exact hi.keep ht he hread
  generalize hp : calls k = p at hm hsame ⊢
  cases hm with
  | reads hq _ hq' =>
      exact hsame rfl ((hasPut_of_quiet hq').trans (hasPut_of_quiet hq).symm) (polled_of_quiet hq)
  | latchesCode => exact hsame Hub.tokens_completeSetup rfl rfl
  | latches => exact hsame Hub.tokens_completeSetup (by cases ‹GrantMethod κ› <;> rfl) rfl
  | puts => exact hi.puts hr hp rfl hread
  | collects hc => exact hi.collects hc (by rw [hp]; rfl) hread
  | misses => exact (hi.keep rfl (by rw [hp]; rfl) hread).misses
  | _ => exact hsame rfl rfl rfl

end Steps

/-! ### What the polls are told -/

/-- A poll was told that nobody had collected before it. -/
def ToldTooSoon (polls : List (κ × Bool)) : Prop :=
  ∃ r newer older, polls = newer ++ (r, false) :: older ∧ (r, true) ∉ older

/-- An answer comes in front. -/
theorem toldTooSoon_cons {x : κ × Bool} {polls : List (κ × Bool)} :
    ToldTooSoon (x :: polls) ↔ ToldTooSoon polls ∨ ∃ r, x = (r, false) ∧ (r, true) ∉ polls := by
  constructor
  · rintro ⟨r, newer, older, he, hno⟩
    cases newer with
    | nil => cases he; exact .inr ⟨r, rfl, hno⟩
    | cons y newer => cases he; exact .inl ⟨r, newer, older, rfl, hno⟩
  · rintro (⟨r, newer, older, rfl, hno⟩ | ⟨r, rfl, hno⟩)
    · exact ⟨r, x :: newer, older, rfl, hno⟩
    · exact ⟨r, [], polls, rfl, hno⟩

/-- A step answers one poll at most. -/
theorem polled_eq (p p' : PairStage κ η) (polls : List (κ × Bool)) :
    p.polled p' polls = polls ∨ ∃ r b, p = .collecting r ∧ p.polled p' polls = (r, b) :: polls := by
  unfold PairStage.polled
  split
  · exact .inr ⟨_, true, rfl, rfl⟩
  · exact .inr ⟨_, false, rfl, rfl⟩
  · exact .inl rfl

/-- An answer stands. -/
theorem ToldTooSoon.polled {p p' : PairStage κ η} {polls : List (κ × Bool)} (h : ToldTooSoon polls) :
    ToldTooSoon (p.polled p' polls) := by
  rcases polled_eq p p' polls with he | ⟨r, b, -, he⟩
  · rw [he]
    exact h
  · rw [he, toldTooSoon_cons]
    exact .inl h

section Runs
variable [DecidableEq κ] [DecidableEq η] {s s' : Pairing κ η} {a : PairAction κ η}
  {polls : List (κ × Bool)}

omit [DecidableEq η] in
/-- A poll that looks for a token is told too soon if and only if the approver has it in hand. -/
theorem PairMoves.toldTooSoon {h' : Hub κ η} {now : ℚ} {k r : κ} {p' : PairStage κ η}
    (hr : Requests s.hub s.calls) (hi : Collecting s.hub s.calls polls)
    (hm : PairMoves s.hub now k (s.calls k) h' p') (hk : s.calls k = .collecting r) :
    ToldTooSoon ((s.calls k).polled p' polls) ↔
      ToldTooSoon polls ∨ ∃ j, s.calls j = .putting r := by
  obtain ⟨i, hkept⟩ := hi.read k r hk
  have hput : (∃ j, s.calls j = .putting r) ↔ ¬ ((s.hub.tokens r).isSome ∨ (r, true) ∈ polls) := by
    rw [hi.put_iff]
    constructor
    · rintro ⟨j, hj⟩ ⟨j', hj'⟩
      exact hasPut_of_putting hr hj hj'
    · intro hno
      exact ⟨i, (kept_eq_approval.mp hkept).resolve_left fun he => hno ⟨i, he⟩⟩
  rw [hput]
  generalize s.calls k = p at hm hk ⊢
  cases hm with
  | reads hq => rw [hk] at hq; cases hq
  | @collects r' client hc =>
      cases hk
      have hsome : (s.hub.tokens r).isSome := by rw [hc]; rfl
      change ToldTooSoon ((r, true) :: polls) ↔ _
      rw [toldTooSoon_cons]
      refine or_congr_right (iff_of_false ?_ fun hno => hno (.inl hsome))
      rintro ⟨r', he, -⟩
      cases he
  | @misses r' hc =>
      cases hk
      change ToldTooSoon ((r, false) :: polls) ↔ _
      rw [toldTooSoon_cons, hc]
      refine or_congr_right ⟨?_, fun hno => ⟨r, rfl, fun hmem => hno (.inr hmem)⟩⟩
      rintro ⟨r', he, hno⟩
      cases he
      exact fun he => he.elim nofun hno
  | _ => cases hk

/-- What every step keeps, and what the polls are told at it. -/
theorem polls_step (hg : Grants s.hub s.calls) (hi : Collecting s.hub s.calls polls)
    (hs : s.step a = some s') :
    Collecting s'.hub s'.calls (pollsAnswered s a s' polls) ∧
      (ToldTooSoon (pollsAnswered s a s' polls) ↔ ToldTooSoon polls ∨ ¬ TokenPut s a) := by
  obtain ⟨k, now, p', hm, hcalls, ha⟩ := Pairing.step_moves hs
  have hstep := collecting_step hg.requests hi hm
  rcases ha with ⟨t, rfl, -⟩ | ⟨c, rfl, rfl⟩
  · rw [pollsAnswered, hcalls, Function.update_self]
    refine ⟨hstep, ?_⟩
    rcases polled_eq (s.calls k) p' polls with he | ⟨r, b, hk, -⟩
    · by_cases hk : ∃ r, s.calls k = .collecting r
      · obtain ⟨r, hk⟩ := hk
        rw [hm.toldTooSoon hg.requests hi hk, TokenPut, hk]
        simp
      · rw [he, TokenPut]
        split
        · next r hk' => exact absurd ⟨r, hk'⟩ hk
        · simp
    · rw [hm.toldTooSoon hg.requests hi hk, TokenPut, hk]
      simp
  · rw [hcalls]
    have hpolled : (s.calls k).polled (.arrived c) polls = polls := by cases s.calls k <;> rfl
    rw [hpolled] at hstep
    exact ⟨hstep, by simp [pollsAnswered, TokenPut]⟩

/-- The calls of one hub, and its polls. -/
abbrev polling (κ η : Type) [DecidableEq κ] [DecidableEq η] :
    Machine (Pairing κ η × List (κ × Bool)) (PairAction κ η) :=
  (pairing κ η).ghost pollsAnswered

omit [DecidableEq η] in
theorem collecting_fresh :
    Collecting (Pairing.fresh : Pairing κ η).hub (Pairing.fresh : Pairing κ η).calls [] where
  put_iff := fun _ => iff_of_false (fun he => he.elim nofun nofun) nofun
  apart := nofun
  read := nofun
  once := fun _ => Nat.zero_le _

instance [Fintype κ] (s : Pairing κ η) (a : PairAction κ η) : Decidable (TokenPut s a) :=
  match a with
  | .go k _ => by
      change Decidable (match s.calls k with
        | .collecting r => ∀ j, s.calls j ≠ .putting r
        | _ => True)
      split <;> infer_instance
  | .arrive _ _ => isTrue trivial

end Runs

/-- A device pairs first, a second asks, and the first approves it; `rest` follows the commit. -/
def approvedThen (rest : List (PairAction (Fin 5) ℕ)) : List (PairAction (Fin 5) ℕ) :=
  [.arrive 0 (.pair none)] ++ goes 7 0 ++ [.arrive 1 (.pair none)] ++ goes 6 1 ++
    [.arrive 2 (.approve 1)] ++ goes 3 2 ++ rest

/-- Two polls, once the token is put. -/
def polledTwice : List (PairAction (Fin 5) ℕ) :=
  approvedThen (goes 2 2 ++ [.arrive 3 (.poll 1)] ++ goes 2 3 ++ [.arrive 4 (.poll 1)] ++ goes 2 4)

end BellasReef.Api
