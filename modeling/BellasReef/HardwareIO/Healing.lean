import BellasReef.HardwareIO.Draining
import BellasReef.Support.Machine

/-!
# HardwareIO — Healing

The command consumer's subscription (`CommandConsumer.drain_once` and `_heal` in `spine.py`),
call after call: a fetch that finds the consumer gone starts a heal, and each call from then on
heals until one of them subscribes again.

* `heal_budget`: on any run of calls after a first subscribe, a call raises `ConsumerLostError`
  exactly if it heals and more than `MAX_HEAL_ATTEMPTS` heals have begun since the last subscribe;
  it never finds itself not subscribed; it does not fetch while the consumer is lost; and a heal
  that succeeds leaves a fresh consumer.
* `heal_seventh`: the error is raised again by the calls after it, if there are any.
-/

namespace BellasReef.HardwareIO
open BellasReef.Support

variable {ι L : Type}

/-- What tells `drain_once` that the consumer is gone. -/
inductive LossCause where
  | notFound
  | serviceUnavailable
  deriving DecidableEq, Repr

/-- What goes wrong with re-provisioning or re-subscribing. -/
inductive HealError where
  /-- `BadRequestError` with `_FILTER_NOT_UNIQUE`. -/
  | filterNotUnique
  | badRequest
  | other
  deriving DecidableEq, Repr

/-- How a fetch ends. -/
inductive Fetch (ι L : Type) where
  | messages (ds : List (Delivery ι L))
  | timeout
  | lost (cause : LossCause)

/-- What one call of `drain_once` meets, as far as it comes to it. -/
structure Round (ι L : Type) where
  fetch : Fetch ι L
  provision : Except HealError Unit
  subscribe : Except HealError Unit

/-- `_sub`, `_heal_attempts` and `_heal_cause`. -/
structure Subscription where
  subscribed : Bool
  healAttempts : ℕ
  healCause : Option LossCause
  deriving DecidableEq, Repr

/-- `MAX_HEAL_ATTEMPTS`. -/
def maxHealAttempts : ℕ := 5

/-- `HEAL_BACKOFF_S`. -/
def healBackoffS : ℚ := 1 / 2

/-- What a call performs on the broker and in the log. -/
inductive HealEffect where
  | fetch
  /-- "command consumer lost; commands are not being applied". -/
  | lost (attempt : ℕ)
  | exiting
  | backoff (seconds : ℚ)
  | provision
  | subscribe
  | failed (e : HealError)
  /-- "command consumer recovered". -/
  | recovered
  deriving DecidableEq

/-- What escapes `drain_once`. -/
inductive DrainError where
  /-- The bare `RuntimeError`. -/
  | notSubscribed
  | consumerLost
  /-- An exception out of the batch. -/
  | escaped
  deriving DecidableEq, Repr

/-- A call of `drain_once`, and what it did. -/
abbrev DrainCall := Traced DrainError HealEffect (List CommandOutcome)

namespace Subscription

/-- The consumer after `subscribe`, the first time. -/
def fresh : Subscription := ⟨true, 0, none⟩

/-- `_heal`, and the empty list that `drain_once` returns after it. -/
def heal (s : Subscription) (cause : LossCause) (r : Round ι L) : Subscription × DrainCall :=
  let attempts := s.healAttempts + 1
  let lost : Subscription := ⟨false, attempts, some cause⟩
  let backoff := healBackoffS * 2 ^ (attempts - 1)
  if maxHealAttempts < attempts then
    (lost, ⟨[.lost attempts, .exiting], .error .consumerLost⟩)
  else
    match r.provision, r.subscribe with
    | .error e, _ =>
        (lost, ⟨[.lost attempts, .backoff backoff, .provision, .failed e], .ok []⟩)
    | .ok (), .error e =>
        (lost, ⟨[.lost attempts, .backoff backoff, .provision, .subscribe, .failed e], .ok []⟩)
    | .ok (), .ok () =>
        (⟨true, 0, none⟩,
          ⟨[.lost attempts, .backoff backoff, .provision, .subscribe, .recovered], .ok []⟩)

/-- `drain_once`. -/
def drainOnce (s : Subscription) (r : Round ι L) : Subscription × DrainCall :=
  if s.subscribed then
    match r.fetch with
    | .timeout => (s, ⟨[.fetch], .ok []⟩)
    | .lost cause =>
        let healed := s.heal cause r
        (healed.1, ⟨.fetch :: healed.2.trace, healed.2.result⟩)
    | .messages ds => (s, ⟨[.fetch], (drainBatch ds).result.mapError fun _ => .escaped⟩)
  else
    match s.healCause with
    | none => (s, .raise .notSubscribed)
    | some cause => s.heal cause r

end Subscription

/-- The calls of `drain_once`, one after the other. -/
def drainCalls : Machine Subscription (Round ι L) where
  step s r := some (s.drainOnce r).1

/-- The calls, with everything they have performed. -/
abbrev tracedCalls : Machine (Subscription × List HealEffect) (Round ι L) :=
  drainCalls.ghost fun s r _ t => t ++ (s.drainOnce r).2.trace

/-- A heal begins with its log line and ends the count when it succeeds. -/
def countHeal (n : ℕ) : HealEffect → ℕ
  | .lost _ => n + 1
  | .recovered => 0
  | _ => n

/-- How many heals have begun since the last one that succeeded. -/
def healsSince (t : List HealEffect) : ℕ := t.foldl countHeal 0

/-- The subscription was found lost. -/
def HealEffect.isLost : HealEffect → Bool
  | .lost _ => true
  | _ => false

/-! ### One call -/

variable {s : Subscription} {t : List HealEffect}

/-- **A heal** past the budget raises; within it, it fails or leaves a fresh consumer. -/
theorem heal_cases (s : Subscription) (cause : LossCause) (r : Round ι L) :
    (maxHealAttempts < s.healAttempts + 1 ∧
        s.heal cause r = (⟨false, s.healAttempts + 1, some cause⟩,
          ⟨[.lost (s.healAttempts + 1), .exiting], .error .consumerLost⟩)) ∨
      s.healAttempts + 1 ≤ maxHealAttempts ∧ ∃ backoff,
        ((∃ e tail, (tail = [.failed e] ∨ tail = [.subscribe, .failed e]) ∧
            s.heal cause r = (⟨false, s.healAttempts + 1, some cause⟩,
              ⟨.lost (s.healAttempts + 1) :: .backoff backoff :: .provision :: tail, .ok []⟩)) ∨
          s.heal cause r = (.fresh,
            ⟨[.lost (s.healAttempts + 1), .backoff backoff, .provision, .subscribe, .recovered],
              .ok []⟩)) := by
  rw [Subscription.heal]
  by_cases h : maxHealAttempts < s.healAttempts + 1
  · exact .inl ⟨h, if_pos h⟩
  · refine .inr ⟨not_lt.mp h, healBackoffS * 2 ^ s.healAttempts, ?_⟩
    rw [if_neg h]
    obtain e | ⟨⟩ := r.provision
    · exact .inl ⟨e, _, .inl rfl, rfl⟩
    · obtain e | ⟨⟩ := r.subscribe
      · exact .inl ⟨e, _, .inr rfl, rfl⟩
      · exact .inr rfl

/-- The state and the count of what has been performed. -/
structure Tracked (s : Subscription) (n : ℕ) : Prop where
  attempts : s.healAttempts = n
  subscribed : s.subscribed = true ↔ n = 0
  cause : s.subscribed = false → s.healCause ≠ none

/-- What a heal leaves to say of the call it is part of, at a count of `n`. -/
structure HealSpec (n : ℕ) (s' : Subscription) (d : DrainCall) : Prop where
  tracked : Tracked s' (d.trace.foldl countHeal n)
  subscribed : d.result ≠ .error .notSubscribed
  contained : d.result ≠ .error .escaped
  lost : d.result = .error .consumerLost ↔
    d.trace.any HealEffect.isLost = true ∧ maxHealAttempts < d.trace.foldl countHeal n
  recovered : .recovered ∈ d.trace → s' = .fresh

/-- A subscription that was never lost. -/
theorem tracked_fresh : Tracked .fresh 0 := ⟨rfl, by simp [Subscription.fresh], nofun⟩

/-- What one attempt to heal does. -/
theorem heal_spec {n : ℕ} (h : s.healAttempts = n) (cause : LossCause) (r : Round ι L) :
    HealSpec n (s.heal cause r).1 (s.heal cause r).2 ∧ .fetch ∉ (s.heal cause r).2.trace := by
  subst h
  obtain ⟨hmax, he⟩ | ⟨hmax, backoff, ⟨e, tail, ht, he⟩ | he⟩ := heal_cases s cause r
  · rw [he]
    exact ⟨⟨⟨rfl, by simp [countHeal], by simp⟩, by simp, by simp,
      by simpa [HealEffect.isLost, countHeal] using hmax, by simp⟩, by simp⟩
  · rw [he]
    obtain rfl | rfl := ht <;>
      exact ⟨⟨⟨rfl, by simp [countHeal], by simp⟩, by simp, by simp,
        by simpa [HealEffect.isLost, countHeal] using hmax, by simp⟩, by simp⟩
  · rw [he]
    exact ⟨⟨tracked_fresh, by simp, by simp, by simp [countHeal], fun _ => rfl⟩, by simp⟩

/-- **What a call does**: it fetches if and only if the consumer is not lost. -/
theorem drainOnce_spec {n : ℕ} (h : Tracked s n) (r : Round ι L) :
    HealSpec n (s.drainOnce r).1 (s.drainOnce r).2 ∧
      (.fetch ∈ (s.drainOnce r).2.trace ↔ n = 0) := by
  cases hs : s.subscribed with
  | true =>
      have hn : n = 0 := h.subscribed.mp hs
      rw [Subscription.drainOnce, if_pos hs]
      cases r.fetch with
      | timeout =>
          exact ⟨⟨h, by simp, by simp, by simp [HealEffect.isLost], by simp⟩, by simp [hn]⟩
      | messages ds =>
          simp only [result_drainBatch]
          exact ⟨⟨h, by simp [Except.mapError], by simp [Except.mapError],
            by simp [Except.mapError, HealEffect.isLost], by simp⟩, by simp [hn]⟩
      | lost cause =>
          obtain ⟨hheal, -⟩ := heal_spec h.attempts cause r
          exact ⟨⟨hheal.tracked, hheal.subscribed, hheal.contained, hheal.lost,
            by simpa using hheal.recovered⟩, by simp [hn]⟩
  | false =>
      -- the consumer is lost already, so that the call heals before it fetches
      have hn : n ≠ 0 := fun hn => by simp [h.subscribed.mpr hn] at hs
      obtain ⟨cause, hcause⟩ := Option.ne_none_iff_exists'.mp (h.cause hs)
      obtain ⟨hheal, hfetch⟩ := heal_spec h.attempts cause r
      rw [Subscription.drainOnce, if_neg (by simp [hs]), hcause]
      exact ⟨hheal, by simp [hn, hfetch]⟩

/-! ### Every run -/

/-- Over a run the attempts are counted from the last success. -/
theorem tracked_run {as : List (Round ι L)} (hrun : tracedCalls.Run (.fresh, []) as (s, t)) :
    Tracked s (healsSince t) := by
  refine hrun.invariant (I := fun p => Tracked p.1 (healsSince p.2)) tracked_fresh ?_
  refine Machine.ghost_preserves fun s t r s' _ h hs => ?_
  obtain rfl := Option.some.inj hs
  -- the count goes on from where the last call left it
  rw [healsSince, List.foldl_append]
  exact (drainOnce_spec h r).1.tracked

/-- **The heal budget.** -/
theorem heal_budget {as : List (Round ι L)} {s : Subscription} {t : List HealEffect}
    (hrun : tracedCalls.Run (.fresh, []) as (s, t)) (r : Round ι L) :
    let s' := (s.drainOnce r).1
    let d := (s.drainOnce r).2
    d.result ≠ .error .notSubscribed ∧ d.result ≠ .error .escaped ∧
    (d.result = .error .consumerLost ↔
      d.trace.any HealEffect.isLost = true ∧ maxHealAttempts < healsSince (t ++ d.trace)) ∧
    (0 < healsSince t → .fetch ∉ d.trace) ∧
    (.recovered ∈ d.trace → s' = .fresh) := by
  obtain ⟨h, hfetch⟩ := drainOnce_spec (tracked_run hrun) r
  refine ⟨h.subscribed, h.contained, ?_, fun hpos hmem => hpos.ne' (hfetch.mp hmem), h.recovered⟩
  rw [healsSince, List.foldl_append]
  exact h.lost

/-- A fetch that finds the consumer deleted, and a broker that does not take it back. -/
def deletedRound : Round Unit Unit := ⟨.lost .notFound, .ok (), .error .filterNotUnique⟩

/-- The call after the one that raised heals, too, and raises again. -/
theorem heal_seventh :
    ¬∀ (as : List (Round Unit Unit)) (s : Subscription) (t : List HealEffect) (r : Round Unit Unit),
      tracedCalls.Run (.fresh, []) as (s, t) →
      ((s.drainOnce r).2.result = .error .consumerLost ↔
        (s.drainOnce r).2.trace.any HealEffect.isLost = true ∧
          healsSince (t ++ (s.drainOnce r).2.trace) = maxHealAttempts + 1) := by
  intro h
  have heval : (tracedCalls.exec (.fresh, []) (List.replicate 6 deletedRound)).map
      (fun p => (p.1, healsSince (p.2 ++ (p.1.drainOnce deletedRound).2.trace))) =
      some (⟨false, 6, some .notFound⟩, 7) := by decide +kernel
  obtain ⟨⟨s, t⟩, hexec, heval⟩ := Option.map_eq_some_iff.mp heval
  obtain ⟨rfl, hcount⟩ := Prod.mk.inj heval
  have hexact := (h _ _ t deletedRound (Machine.exec_eq_some.mp hexec)).mp rfl
  exact absurd (hcount.symm.trans hexact.2) (by decide)

/-- The sixth heal is the one that gives up. -/
theorem heal_budget_sixth : ∃ s t,
    tracedCalls.Run (.fresh, []) (List.replicate 5 deletedRound) (s, t) ∧
    (s.drainOnce deletedRound).2.result = .error .consumerLost := by
  have heval : (tracedCalls.exec (.fresh, []) (List.replicate 5 deletedRound)).map
      (fun p => (p.1, healsSince (p.2 ++ (p.1.drainOnce deletedRound).2.trace))) =
      some (⟨false, 5, some .notFound⟩, 6) := by decide +kernel
  obtain ⟨⟨s, t⟩, hexec, heval⟩ := Option.map_eq_some_iff.mp heval
  obtain ⟨rfl, hcount⟩ := Prod.mk.inj heval
  have hrun := Machine.exec_eq_some.mp hexec
  exact ⟨_, t, hrun, (heal_budget hrun deletedRound).2.2.1.mpr ⟨rfl, by rw [hcount]; decide⟩⟩

end BellasReef.HardwareIO
