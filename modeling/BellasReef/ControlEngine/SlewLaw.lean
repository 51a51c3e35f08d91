import BellasReef.ControlEngine.Scheduler
import BellasReef.Support.Machine
import Mathlib.Tactic.Linarith
import Mathlib.Tactic.Positivity

/-!
# ControlEngine — Slew law

How far a tick moves a channel that no snap hold moves.

The allowance of a step counts from the channel's last emission, and a channel that has settled
emits nothing until its refresh is due.  So a target that moves after a quiet while is met with
the allowance of the whole while, in one tick.  `slew_law_iff` is the exact condition, tick by
tick, for the law that a tick moves a channel by at most the rate times the time since the tick
before it: `Paced`.
-/

namespace BellasReef.ControlEngine
open BellasReef.Support

variable {ι : Type} [LinearOrder ι]

/-- The duty a channel was last commanded, `SAFE_DUTY` before the first. -/
def LightingScheduler.commanded (s : LightingScheduler ι) (c : ι) : ℚ :=
  (s.lastDuty.lookup c).getD safeDuty

/-- Where a channel is to go: the hold's duty, or its resting one. -/
def LightingScheduler.target (s : LightingScheduler ι) (now : ℚ) (overrides : Dict ι HeldTarget)
    (c : ι) : ℚ :=
  (overrides.lookup c).elim (s.resting now c) HeldTarget.duty

/-- Neither snap-held nor releasing a snap hold. -/
def LightingScheduler.Slewed (s : LightingScheduler ι) (hold : Option HeldTarget) (c : ι) : Prop :=
  hold.map HeldTarget.transition ≠ some .snap ∧
    ¬ (hold = none ∧ s.lastHold.lookup c = some .snap)

instance (s : LightingScheduler ι) (hold : Option HeldTarget) (c : ι) :
    Decidable (s.Slewed hold c) := inferInstanceAs (Decidable (_ ∧ ¬ (_ ∧ _)))

/-! ### Ticks -/

/-- A scheduler, and the time of its last tick. -/
structure Ticking (ι : Type) where
  scheduler : LightingScheduler ι
  lastTick : Option ℚ

/-- A change of profiles, or a whole tick. -/
inductive TickAction (ι : Type) where
  | setProfiles (profiles : List (ChannelProfile ι))
  /-- A tick whose every intent is published and marked, under these holds. -/
  | tick (now : ℚ) (overrides : Dict ι HeldTarget)

/-- One of them, at a time that never goes back. -/
def Ticking.step (s : Ticking ι) : TickAction ι → Option (Ticking ι)
  | .setProfiles ps => (s.scheduler.setProfiles ps).map fun sch => { s with scheduler := sch }
  | .tick now overrides =>
      if ∀ t ∈ s.lastTick, t ≤ now then some ⟨s.scheduler.tick now overrides, some now⟩ else none

/-- Profile swaps, and ticks at times that do not go back. -/
def ticking (ι : Type) [LinearOrder ι] : Machine (Ticking ι) (TickAction ι) where
  step := fun s a => s.step a

/-- A scheduler that has not ticked. -/
def Ticking.init (settings : Settings) (profiles : List (ChannelProfile ι))
    (h : (profiles.map ChannelProfile.channelId).Nodup) : Ticking ι :=
  ⟨.init settings profiles h, none⟩

/-- The time since the last tick. -/
def Ticking.since (s : Ticking ι) (now : ℚ) : ℚ := now - s.lastTick.getD now

/-! ### The law -/

/-- A tick moves each slewed channel by at most the rate times the time since the last tick. -/
def Ticking.SlewLaw (s : Ticking ι) : TickAction ι → Prop
  | .setProfiles _ => True
  | .tick now overrides => ∀ r ∈ s.scheduler.settings.maxDutyDeltaPerS, ∀ c,
      s.scheduler.Slewed (overrides.lookup c) c →
      |(s.scheduler.tick now overrides).commanded c - s.scheduler.commanded c| ≤ r * s.since now

/-- A move that is not worth a message: within reach, below the deadband, no convergence to
finish, no hold to announce, no refresh due. -/
def LightingScheduler.Unannounced (s : LightingScheduler ι) (r now : ℚ)
    (overrides : Dict ι HeldTarget) (c : ι) : Prop :=
  (∀ h ∈ overrides.lookup c, s.lastHold.lookup c = some h.transition) ∧
    ∀ a ∈ s.lastEmittedAt.lookup c,
      |s.target now overrides c - s.commanded c| ≤ r * (now - a) ∧
      |s.target now overrides c - s.commanded c| < s.settings.deadband ∧
      c ∉ s.slewing ∧ now - a < s.settings.refreshS

/-- Each slewed channel was never commanded, or was last at the last tick; or its target is within
the reach of one tick; or its move is not worth a message. -/
def Ticking.Paced (s : Ticking ι) : TickAction ι → Prop
  | .setProfiles _ => True
  | .tick now overrides => ∀ r ∈ s.scheduler.settings.maxDutyDeltaPerS, ∀ c,
      s.scheduler.Slewed (overrides.lookup c) c → s.scheduler.Surfaced overrides c →
      s.scheduler.lastEmittedAt.lookup c = none ∨
        s.scheduler.lastEmittedAt.lookup c = s.lastTick ∨
        |s.scheduler.target now overrides c - s.scheduler.commanded c| ≤ r * s.since now ∨
        s.scheduler.Unannounced r now overrides c

/-! ### What a tick does to a slewed channel -/

namespace LightingScheduler
variable {s : LightingScheduler ι} {c : ι} {rest now r prev at_ : ℚ} {hold : Option HeldTarget}
  {overrides : Dict ι HeldTarget} {i : Intent ι}

/-- A slewed intent is one limited step. -/
theorem emitFor_slewed (hs : s.Slewed hold c) (h : s.emitFor c rest now hold = some i) :
    i.duty = s.limit (s.commanded c) (hold.elim rest HeldTarget.duty)
      (now - (s.lastEmittedAt.lookup c).getD now) := by
  simp only [emitFor, if_neg hs.1, if_neg hs.2] at h
  repeat' split at h
  all_goals first | (cases h; rfl) | cases h

/-- **When a slewed channel stays quiet.** -/
theorem emitFor_eq_none_iff (hs : s.Slewed hold c) (hd : s.lastDuty.lookup c = some prev)
    (ha : s.lastEmittedAt.lookup c = some at_) :
    s.emitFor c rest now hold = none ↔
      (∀ h ∈ hold, s.lastHold.lookup c = some h.transition) ∧
      s.limit prev (hold.elim rest HeldTarget.duty) (now - at_) = hold.elim rest HeldTarget.duty ∧
      |hold.elim rest HeldTarget.duty - prev| < s.settings.deadband ∧
      c ∉ s.slewing ∧ now - at_ < s.settings.refreshS := by
  simp only [emitFor, if_neg hs.2, hd, ha, Option.getD_some, Option.isNone_some, hs.1, false_and,
    if_false]
  by_cases hhold : ∀ h ∈ hold, s.lastHold.lookup c = some h.transition
  · have htag : ¬ (hold.map HeldTarget.transition ≠ none ∧
        s.lastHold.lookup c ≠ hold.map HeldTarget.transition) := by
      rintro ⟨hne, hl⟩
      cases hold with
      | none => exact hne rfl
      | some h => exact hl (hhold h rfl)
    rw [if_neg htag]
    by_cases hlim : s.limit prev (hold.elim rest HeldTarget.duty) (now - at_) =
        hold.elim rest HeldTarget.duty
    · simp only [hlim, ne_eq, not_true_eq_false, decide_false, Bool.false_eq_true, if_false,
        reduceCtorEq, false_or, true_and]
      refine ⟨fun h => ?_, fun ⟨_, hsmall, hslew, hfresh⟩ => ?_⟩
      · split at h
        · cases h
        · split at h
          · cases h
          · split at h
            · cases h
            · exact ⟨hhold, not_le.mp ‹_›, ‹_›, not_le.mp ‹_›⟩
      · rw [if_neg (not_le.mpr hsmall), if_neg hslew, if_neg (not_le.mpr hfresh)]
    · simp [hlim]
  · have htag : hold.map HeldTarget.transition ≠ none ∧
        s.lastHold.lookup c ≠ hold.map HeldTarget.transition := by
      cases hold with
      | none => exact absurd (by rintro h ⟨⟩) hhold
      | some h => exact ⟨by simp, fun he => hhold (by rintro h' ⟨⟩; exact he)⟩
    rw [if_pos htag]
    exact ⟨fun h => absurd h (by simp), fun h => absurd h.1 hhold⟩

omit [LinearOrder ι] in
/-- `_limit` goes towards the target by the rate times the time. -/
theorem limit_eq {dt target : ℚ} (hr : s.settings.maxDutyDeltaPerS = some r) (hdt : 0 ≤ dt) :
    s.limit prev target dt = toward (r * dt) prev target := by
  rw [limit, hr]
  simp only [max_eq_left hdt]

/-- **An unannounced move** is one that a tick sends no intent for. -/
theorem unannounced_iff (hs : s.Slewed (overrides.lookup c) c) (hsurf : s.Surfaced overrides c)
    (hr : s.settings.maxDutyDeltaPerS = some r) (hd : s.lastDuty.lookup c = some prev)
    (ha : s.lastEmittedAt.lookup c = some at_) (hgap : at_ ≤ now) :
    s.Unannounced r now overrides c ↔ s.emission now overrides c = none := by
  have hgap : 0 ≤ now - at_ := sub_nonneg.mpr hgap
  have hreach : 0 ≤ r * (now - at_) := mul_nonneg (s.settings.rate_pos r hr).le hgap
  have hcommanded : s.commanded c = prev := by
    rw [commanded, hd]; rfl
  have hquiet : s.emitFor c (s.resting now c) now (overrides.lookup c) = none ↔ _ :=
    emitFor_eq_none_iff hs hd ha
  rw [show (overrides.lookup c).elim (s.resting now c) HeldTarget.duty =
    s.target now overrides c from rfl, limit_eq hr hgap, toward_eq_target_iff hreach] at hquiet
  have hemit : s.emission now overrides c =
      s.emitFor c (s.resting now c) now (overrides.lookup c) := if_pos hsurf
  rw [hemit, hquiet, Unannounced, ha, hcommanded]
  simp

/-- A tick moves the channels that it emits for. -/
theorem commanded_tick : (s.tick now overrides).commanded c =
    (s.emission now overrides c).elim (s.commanded c) Intent.duty := by
  have h : (s.tick now overrides).lastDuty.lookup c = _ := congrArg Memory.duty memory_tick
  rw [commanded, h]
  cases s.emission now overrides c <;> rfl

end LightingScheduler

/-! ### The exact condition -/

/-- A channel has a duty exactly when it has a time of emission, no later than the last tick. -/
def Ticking.Timely (s : Ticking ι) : Prop :=
  ∀ c, ((s.scheduler.memory c).duty.isSome ↔ (s.scheduler.memory c).emittedAt.isSome) ∧
    ∀ a ∈ (s.scheduler.memory c).emittedAt, ∃ t ∈ s.lastTick, a ≤ t

/-- A scheduler that has not ticked. -/
theorem timely_init (settings : Settings) (profiles : List (ChannelProfile ι))
    (h : (profiles.map ChannelProfile.channelId).Nodup) :
    (Ticking.init settings profiles h).Timely := by
  intro c
  simp [Ticking.init, LightingScheduler.init, LightingScheduler.memory]

/-- What a step of the machine is. -/
theorem ticking_step {s s' : Ticking ι} {a : TickAction ι} (hs : (ticking ι).step s a = some s') :
    (∃ ps h, a = .setProfiles ps ∧
      s' = { s with scheduler := { s.scheduler with profiles := ps, profiles_nodup := h } }) ∨
    ∃ now overrides, a = .tick now overrides ∧ (∀ t ∈ s.lastTick, t ≤ now) ∧
      s' = ⟨s.scheduler.tick now overrides, some now⟩ := by
  change s.step a = some s' at hs
  cases a with
  | setProfiles ps =>
      obtain ⟨sch, hsch, rfl⟩ := Option.map_eq_some_iff.mp hs
      rw [LightingScheduler.setProfiles] at hsch
      split at hsch
      · cases hsch; exact .inl ⟨ps, ‹_›, rfl, rfl⟩
      · cases hsch
  | tick now overrides =>
      rw [Ticking.step] at hs
      split at hs
      · cases hs; exact .inr ⟨now, overrides, rfl, ‹_›, rfl⟩
      · cases hs

theorem tick_step {s : Ticking ι} {now : ℚ} {overrides : Dict ι HeldTarget}
    (h : ∀ t ∈ s.lastTick, t ≤ now) :
    (ticking ι).step s (.tick now overrides) = some ⟨s.scheduler.tick now overrides, some now⟩ :=
  if_pos h

/-- **Step.**  Nothing was emitted after the last tick. -/
theorem timely_step {s s' : Ticking ι} {a : TickAction ι} (h : s.Timely)
    (hs : (ticking ι).step s a = some s') : s'.Timely := by
  obtain ⟨ps, hps, -, rfl⟩ | ⟨now, overrides, -, hnow, rfl⟩ := ticking_step hs
  · exact h
  · intro c
    rw [LightingScheduler.memory_tick]
    cases s.scheduler.emission now overrides c with
    | none =>
        refine ⟨(h c).1, fun a ha => ?_⟩
        obtain ⟨t, ht, hat⟩ := (h c).2 a ha
        exact ⟨now, rfl, hat.trans (hnow t ht)⟩
    | some i =>
        refine ⟨by simp [Intent.memory], fun a ha => ?_⟩
        cases ha
        exact ⟨now, rfl, le_refl _⟩

/-- **One channel, one tick.** -/
theorem slewLaw_channel_iff {s : Ticking ι} {now r : ℚ} {overrides : Dict ι HeldTarget} {c : ι}
    (h : s.Timely) (hnow : ∀ t ∈ s.lastTick, t ≤ now)
    (hr : s.scheduler.settings.maxDutyDeltaPerS = some r)
    (hs : s.scheduler.Slewed (overrides.lookup c) c) :
    |(s.scheduler.tick now overrides).commanded c - s.scheduler.commanded c| ≤ r * s.since now ↔
      (s.scheduler.Surfaced overrides c →
        s.scheduler.lastEmittedAt.lookup c = none ∨
        s.scheduler.lastEmittedAt.lookup c = s.lastTick ∨
        |s.scheduler.target now overrides c - s.scheduler.commanded c| ≤ r * s.since now ∨
        s.scheduler.Unannounced r now overrides c) := by
  have hr0 : 0 < r := s.scheduler.settings.rate_pos r hr
  have hsince : 0 ≤ s.since now := by
    rw [Ticking.since]
    cases ht : s.lastTick with
    | none => simp
    | some t => simpa using hnow t ht
  have hstill : s.scheduler.emission now overrides c = none →
      |(s.scheduler.tick now overrides).commanded c - s.scheduler.commanded c| ≤
        r * s.since now := by
    intro he
    rw [LightingScheduler.commanded_tick, he, Option.elim_none, sub_self, abs_zero]
    positivity
  by_cases hsurf : s.scheduler.Surfaced overrides c
  swap
  · refine iff_of_true (hstill ?_) fun hc => absurd hc hsurf
    rw [LightingScheduler.emission, if_neg hsurf]
  have hemit : s.scheduler.emission now overrides c = s.scheduler.emitFor c
      (s.scheduler.resting now c) now (overrides.lookup c) := if_pos hsurf
  have hduty : ∀ i, s.scheduler.emission now overrides c = some i → i.duty =
      s.scheduler.limit (s.scheduler.commanded c) (s.scheduler.target now overrides c)
        (now - (s.scheduler.lastEmittedAt.lookup c).getD now) :=
    fun i hi => LightingScheduler.emitFor_slewed hs (hemit ▸ hi)
  simp only [hsurf, true_imp_iff]
  obtain ⟨hsome, hat⟩ := h c
  cases ha : s.scheduler.lastEmittedAt.lookup c with
  | none =>
      -- a cold start has no allowance, and stays where it is
      refine iff_of_true ?_ (.inl rfl)
      cases he : s.scheduler.emission now overrides c with
      | none => exact hstill he
      | some i =>
          rw [ha, Option.getD_none, sub_self] at hduty
          rw [LightingScheduler.commanded_tick, he, Option.elim_some, hduty i he,
            LightingScheduler.limit_eq hr (le_refl 0), mul_zero, toward_zero, sub_self, abs_zero]
          positivity
  | some a =>
      obtain ⟨prev, hprev⟩ := Option.isSome_iff_exists.mp (hsome.mpr (by
        rw [LightingScheduler.memory, ha]; rfl))
      have hprev : s.scheduler.lastDuty.lookup c = some prev := hprev
      have hcommanded : s.scheduler.commanded c = prev := by
        rw [LightingScheduler.commanded, hprev]; rfl
      obtain ⟨t, ht, hlat⟩ := hat a ha
      have ht : s.lastTick = some t := ht
      have hgap : 0 ≤ now - a := by linarith [hnow t ht]
      have hlimit : s.scheduler.limit prev (s.scheduler.target now overrides c) (now - a) =
          toward (r * (now - a)) prev (s.scheduler.target now overrides c) :=
        LightingScheduler.limit_eq hr hgap
      rw [LightingScheduler.unannounced_iff hs hsurf hr hprev ha (sub_nonneg.mp hgap)]
      cases he : s.scheduler.emission now overrides c with
      | none => exact iff_of_true (hstill he) (.inr (.inr (.inr rfl)))
      | some i =>
          have hi := hduty i he
          rw [ha, hcommanded, Option.getD_some, hlimit] at hi
          rw [LightingScheduler.commanded_tick, he, Option.elim_some, hi, hcommanded,
            abs_toward_sub (by positivity), min_le_iff, Ticking.since, ht, Option.getD_some]
          have hreach : r * (now - a) ≤ r * (now - t) ↔ a = t := by
            rw [mul_le_mul_iff_right₀ hr0]
            exact ⟨fun hle => le_antisymm hlat (by linarith), fun he => by rw [he]⟩
          rw [hreach]
          simp [or_comm]

/-- **The slew law, exactly**: a run satisfies it at every tick if and only if every tick is
paced. -/
theorem slew_law_iff (settings : Settings) (profiles : List (ChannelProfile ι))
    (h : (profiles.map ChannelProfile.channelId).Nodup) (as : List (TickAction ι))
    (s : Ticking ι) :
    (ticking ι).RunIf Ticking.SlewLaw (.init settings profiles h) as s ↔
      (ticking ι).RunIf Ticking.Paced (.init settings profiles h) as s := by
  refine Machine.RunIf.congr (I := Ticking.Timely) (timely_init settings profiles h)
    (fun _ _ _ _ => timely_step) fun s a s' hI hs => ?_
  obtain ⟨ps, hps, rfl, -⟩ | ⟨now, overrides, rfl, hnow, -⟩ := ticking_step hs
  · exact Iff.rfl
  · refine forall₂_congr fun r hr => forall₂_congr fun c hslewed => ?_
    exact slewLaw_channel_iff hI hnow hr hslewed

/-- A hundredth of full duty a second. -/
def gentle : Settings where
  deadband := 5 / 1000
  refreshS := 300
  maxDutyDeltaPerS := some (1 / 100)
  deadband_nonneg := by norm_num
  refreshS_pos := five_minutes_pos
  rate_pos := hundredth_rate_pos

/-- A ramp hold of the one channel. -/
def rampHold (duty : ℚ) : Dict Unit HeldTarget :=
  AList.singleton () ⟨duty, .ramp⟩

/-- Two ticks towards a ramp hold. -/
theorem slew_law_iff_ramp :
    ∃ s, (ticking Unit).RunIf Ticking.SlewLaw (.init gentle [] .nil)
      [.tick 0 (rampHold 1), .tick 1 (rampHold 1)] s := by
  obtain ⟨s, hs⟩ : ∃ s, (ticking Unit).RunIf Ticking.Paced (.init gentle [] .nil)
      [.tick 0 (rampHold 1), .tick 1 (rampHold 1)] s := by
    refine ⟨_, .more (fun r _ c _ _ => .inl rfl) (tick_step (by rintro t ⟨⟩))
      (.more (fun r _ c _ _ => .inr (.inl ?_)) (tick_step ?_) (.refl _))⟩
    · cases c
      decide +kernel
    · rintro t ⟨⟩
      exact zero_le_one
  exact ⟨s, (slew_law_iff gentle [] .nil _ s).mpr hs⟩

/-- A hundred quiet seconds, and then a hold at full duty: the channel goes there in one tick. -/
theorem not_slew_law :
    ¬ ∀ (settings : Settings) (profiles : List (ChannelProfile Unit))
      (h : (profiles.map ChannelProfile.channelId).Nodup) (as : List (TickAction Unit))
      (s : Ticking Unit), (ticking Unit).Run (.init settings profiles h) as s →
      (ticking Unit).RunIf Ticking.SlewLaw (.init settings profiles h) as s := by
  intro h
  have hrun : ∃ s, (ticking Unit).Run (.init gentle [] .nil)
      [.tick 0 (rampHold 0), .tick 100 (rampHold 0), .tick 101 (rampHold 1)] s := by
    refine ⟨_, .more trivial (tick_step (by rintro t ⟨⟩)) (.more trivial (tick_step ?_)
      (.more trivial (tick_step ?_) (.refl _)))⟩
    · rintro t ⟨⟩; norm_num
    · rintro t ⟨⟩; norm_num
  obtain ⟨s, hs⟩ := hrun
  cases h _ _ _ _ s hs with
  | more _ h₁ t => cases t with
    | more _ h₂ t => cases t with
      | more hC _ _ =>
          obtain ⟨ps, hps, he, -⟩ | ⟨now, overrides, he, -, rfl⟩ := ticking_step h₁
          · cases he
          obtain ⟨ps, hps, he', -⟩ | ⟨now', overrides', he', -, rfl⟩ := ticking_step h₂
          · cases he'
          cases he
          cases he'
          have hlaw := hC (1 / 100) (by decide +kernel) () (by decide +kernel)
          exact absurd hlaw (by decide +kernel)

end BellasReef.ControlEngine
