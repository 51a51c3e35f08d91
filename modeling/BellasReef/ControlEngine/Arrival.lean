import BellasReef.ControlEngine.SnapLaw

/-!
# ControlEngine — Arrival

How a channel gets to a target that stays where it is.

A `Window` is a stretch of ticks through which one channel keeps its hold and its target.  Each
emission of the window that falls short is marked as converging, so the next tick takes another
step, and what is left of the gap shrinks by the rate times the time that passes: `Underway`.  The
deadband has a say at the start only.  A move that was not worth a message when the window began
waits for the refresh: `Window.Suppressed`.  `arrives` is what holds of each tick.
-/

namespace BellasReef.ControlEngine
open BellasReef.Support

variable {ι : Type}

/-- A scheduler at the start of a stretch of ticks, and a channel's hold and target through it. -/
structure Window (ι : Type) where
  start : LightingScheduler ι
  channelId : ι
  hold : Option HeldTarget
  target : ℚ
  rate : ℚ

/-- When an action ticks. -/
def TickAction.time : TickAction ι → Option ℚ
  | .setProfiles _ => none
  | .tick now _ => some now

/-- Time does not go back between ticks. -/
def Ticks.Forward (s : Ticks ι) : TicksAction ι → Prop
  | .due now _ => s.now ≤ now
  | _ => True

variable [LinearOrder ι]

/-- Ticks, with the first of them written down beside them. -/
abbrev sinceFirst (ι : Type) [LinearOrder ι] : Machine (Ticking ι × Option ℚ) (TickAction ι) :=
  (ticking ι).ghost fun _ a _ first => first <|> a.time

namespace Window

/-- The channel's duty when the window begins. -/
def duty (w : Window ι) : ℚ := w.start.commanded w.channelId

/-- When the window began to move the channel: its emission before the window, or its first
tick. -/
def base (w : Window ι) (first : ℚ) : ℚ := (w.start.lastEmittedAt.lookup w.channelId).getD first

/-- A ramp hold, or none, and none to release; and a rate. -/
structure Opens (w : Window ι) : Prop where
  rate : w.start.settings.maxDutyDeltaPerS = some w.rate
  unheld_or_ramp : ∀ h ∈ w.hold, h.transition = .ramp
  no_release : w.start.lastHold.lookup w.channelId ≠ some .snap

/-- A tick after the last one, under the window's hold, to the window's target. -/
def Steady (w : Window ι) (s : Ticking ι) : TickAction ι → Prop
  | .setProfiles _ => True
  | .tick now overrides => (∀ t ∈ s.lastTick, t < now) ∧
      overrides.lookup w.channelId = w.hold ∧
      s.scheduler.target now overrides w.channelId = w.target

/-- Not worth a message: the channel's last emission before the window was announced, had arrived,
and is not long ago; and the gap was within reach at the first tick, below the deadband. -/
structure Suppressed (w : Window ι) (first now : ℚ) : Prop where
  announced : ∀ h ∈ w.hold, w.start.lastHold.lookup w.channelId = some h.transition
  settled : w.channelId ∉ w.start.slewing
  small : |w.target - w.duty| < w.start.settings.deadband
  recent : ∃ a ∈ w.start.lastEmittedAt.lookup w.channelId,
    |w.target - w.duty| ≤ w.rate * (first - a) ∧ now - a < w.start.settings.refreshS

/-- **What a tick of the window does to the channel.** -/
structure Arrives (w : Window ι) (s : Ticking ι) (first : Option ℚ) (now : ℚ)
    (overrides : Dict ι HeldTarget) : Prop where
  /-- It moves towards the target, not past it. -/
  toward : (s.scheduler.tick now overrides).commanded w.channelId ∈
    Set.uIcc (s.scheduler.commanded w.channelId) w.target
  within : (s.scheduler.tick now overrides).commanded w.channelId ∈ Set.uIcc w.duty w.target
  unit : w.duty ∈ Set.Icc 0 1 → w.target ∈ Set.Icc 0 1 →
    (s.scheduler.tick now overrides).commanded w.channelId ∈ Set.Icc 0 1
  /-- It moves by what it says. -/
  said : ∀ i ∈ s.scheduler.emission now overrides w.channelId,
    i.duty = (s.scheduler.tick now overrides).commanded w.channelId
  /-- The step that arrives is said. -/
  arrival : s.scheduler.commanded w.channelId ≠ w.target →
    (s.scheduler.tick now overrides).commanded w.channelId = w.target →
    ∃ i ∈ s.scheduler.emission now overrides w.channelId, i.duty = w.target
  /-- It is there when the time that has passed covers the gap. -/
  reaches : |w.target - w.duty| ≤ w.rate * (now - w.base (first.getD now)) →
    ¬ w.Suppressed (first.getD now) now →
    (s.scheduler.tick now overrides).commanded w.channelId = w.target
  /-- A move that is not worth a message waits for the refresh. -/
  suppressed : w.Suppressed (first.getD now) now →
    s.scheduler.emission now overrides w.channelId = none
  /-- Once it has arrived, it is quiet until the refresh. -/
  quiet : s.scheduler.commanded w.channelId = w.target → 0 < w.start.settings.deadband →
    ∀ f ∈ first, ∀ a ∈ s.scheduler.lastEmittedAt.lookup w.channelId, f ≤ a →
      now - a < w.start.settings.refreshS → s.scheduler.emission now overrides w.channelId = none
  /-- At rest with neither profile nor hold, it is quiet. -/
  rest : s.scheduler.commanded w.channelId = w.target → w.hold = none →
    w.channelId ∉ s.scheduler.profiles.map ChannelProfile.channelId →
    s.scheduler.emission now overrides w.channelId = none

/-- Each tick does. -/
def Kept (w : Window ι) (p : Ticking ι × Option ℚ) : TickAction ι → Prop
  | .setProfiles _ => True
  | .tick now overrides => w.Arrives p.1 p.2 now overrides

end Window

/-! ### What a tick says of a slewed channel -/

namespace LightingScheduler
variable {s : LightingScheduler ι} {c : ι} {rest now r : ℚ} {hold : Option HeldTarget}
  {overrides : Dict ι HeldTarget} {i : Intent ι}

theorem settings_tick : (s.tick now overrides).settings = s.settings := by
  rw [tick]
  generalize s.due now overrides = is
  induction is generalizing s with
  | nil => rfl
  | cons i is ih => rw [List.foldl_cons, ih, markEmitted]

/-- Every branch tags the intent with the hold, and marks it as converging when it falls short. -/
theorem emitFor_tagged (hs : s.Slewed hold c) (h : s.emitFor c rest now hold = some i) :
    i.hold = hold.map HeldTarget.transition ∧
      i.converging = decide (i.duty ≠ hold.elim rest HeldTarget.duty) := by
  simp only [emitFor, if_neg hs.1, if_neg hs.2] at h
  repeat' split at h
  all_goals first | (cases h; exact ⟨rfl, by simp_all⟩) | cases h

/-- **A slewed intent**: a step of the rate from the last emission, and whether it arrives. -/
theorem emission_slewed (hs : s.Slewed (overrides.lookup c) c)
    (hr : s.settings.maxDutyDeltaPerS = some r)
    (hpast : ∀ a ∈ s.lastEmittedAt.lookup c, a ≤ now) (h : s.emission now overrides c = some i) :
    i.duty = toward (r * (now - (s.lastEmittedAt.lookup c).getD now)) (s.commanded c)
        (s.target now overrides c) ∧
      i.hold = (overrides.lookup c).map HeldTarget.transition ∧
      i.converging = decide (i.duty ≠ s.target now overrides c) := by
  rw [emission] at h
  split at h
  · refine ⟨?_, emitFor_tagged hs h⟩
    have hdt : 0 ≤ now - (s.lastEmittedAt.lookup c).getD now := by
      cases ha : s.lastEmittedAt.lookup c with
      | none => simp
      | some a => simpa using hpast a ha
    rw [emitFor_slewed hs h, limit_eq hr hdt]
    rfl
  · cases h

/-- A channel that is not where it is to go is considered. -/
theorem surfaced_of_commanded_ne (h : s.commanded c ≠ s.target now overrides c) :
    s.Surfaced overrides c := by
  by_contra hs
  have hp : c ∉ s.profiles.map ChannelProfile.channelId := fun hp => hs (.inl hp)
  have hfree : overrides.lookup c = none := by
    by_contra hne
    exact hs (surfaced_of_profiled_or_held (.inr (Option.isSome_iff_ne_none.mpr hne)))
  refine h ?_
  rw [commanded_of_not_surfaced hs, target, hfree, Option.elim_none, resting_of_not_mem hp]

/-- A dark channel with neither profile nor hold, nor a snap hold to release, is not. -/
theorem not_surfaced (hp : c ∉ s.profiles.map ChannelProfile.channelId)
    (hfree : overrides.lookup c = none) (hdark : s.commanded c = safeDuty)
    (hsnap : s.lastHold.lookup c ≠ some .snap) : ¬ s.Surfaced overrides c := by
  rintro (hmem | hmem)
  · exact hp hmem
  · have hmem := List.mem_dedup.mp (List.mem_filter.mp hmem).1
    rcases List.mem_append.mp hmem with hmem | hmem
    · rcases List.mem_append.mp hmem with hmem | hmem
      · exact absurd (AList.lookup_isSome.mpr hmem) (by simp [hfree])
      · obtain ⟨⟨c', duty⟩, hentry, rfl⟩ := List.mem_map.mp hmem
        obtain ⟨hentry, hne⟩ := List.mem_filter.mp hentry
        have hd : s.lastDuty.lookup c' = some duty := AList.mem_lookup_iff.mpr hentry
        rw [commanded, hd] at hdark
        exact of_decide_eq_true hne hdark
    · obtain ⟨⟨c', x⟩, hentry, rfl⟩ := List.mem_map.mp hmem
      obtain ⟨hentry, hx⟩ := List.mem_filter.mp hentry
      obtain rfl : x = .snap := of_decide_eq_true hx
      exact hsnap (AList.mem_lookup_iff.mpr hentry)

end LightingScheduler

/-! ### The invariant -/

/-- The window has said nothing of the channel: it had nothing to say, or nothing worth saying. -/
structure Window.Untouched (w : Window ι) (s : Ticking ι) (first : Option ℚ) : Prop where
  memory : s.scheduler.memory w.channelId = w.start.memory w.channelId
  waits : ∀ f ∈ first, w.duty = w.target ∨ ∀ t ∈ s.lastTick, w.Suppressed f t

/-- The window's last emission of the channel: it has arrived, or it was at the last tick and what
is left of the gap is covered by the time that is left. -/
structure Window.Moved (w : Window ι) (s : Ticking ι) (first : Option ℚ) (i : Intent ι)
    (a f : ℚ) : Prop where
  first : first = some f
  le : f ≤ a
  past : ∃ t ∈ s.lastTick, a ≤ t
  memory : s.scheduler.memory w.channelId = i.memory a
  hold : i.hold = w.hold.map HeldTarget.transition
  within : i.duty ∈ Set.uIcc w.duty w.target
  unsuppressed : ¬ w.Suppressed f a
  converging : i.converging = decide (i.duty ≠ w.target)
  pace : i.duty ≠ w.target → s.lastTick = some a ∧
    |w.target - i.duty| + w.rate * (a - w.base f) ≤ |w.target - w.duty|

/-- The window after some of its ticks. -/
structure Window.Underway (w : Window ι) (s : Ticking ι) (first : Option ℚ) : Prop where
  settings : s.scheduler.settings = w.start.settings
  warm : (w.start.lastDuty.lookup w.channelId).isSome ↔
    (w.start.lastEmittedAt.lookup w.channelId).isSome
  before : ∀ a ∈ w.start.lastEmittedAt.lookup w.channelId,
    (∃ t ∈ s.lastTick, a ≤ t) ∧ ∀ f ∈ first, a < f
  begun : ∀ f ∈ first, ∃ t ∈ s.lastTick, f ≤ t
  memory : w.Untouched s first ∨ ∃ i a f, w.Moved s first i a f

namespace Window
variable {w : Window ι} {s : Ticking ι} {first : Option ℚ} {now : ℚ} {overrides : Dict ι HeldTarget}
  {i : Intent ι} {a f : ℚ}

/-- What is suppressed was suppressed before. -/
theorem Suppressed.earlier {t : ℚ} (h : w.Suppressed f now) (ht : t ≤ now) : w.Suppressed f t where
  announced := h.announced
  settled := h.settled
  small := h.small
  recent := by
    obtain ⟨a, ha, hreach, hrecent⟩ := h.recent
    exact ⟨a, ha, hreach, lt_of_le_of_lt (sub_le_sub_right ht a) hrecent⟩

/-- Before its first tick the channel is where the window began. -/
theorem Untouched.commanded (h : w.Untouched s first) :
    s.scheduler.commanded w.channelId = w.duty := by
  have hd : s.scheduler.lastDuty.lookup w.channelId = w.start.lastDuty.lookup w.channelId :=
    congrArg Memory.duty h.memory
  rw [LightingScheduler.commanded, hd]
  rfl

/-- A channel that was moved is where it was last told to go. -/
theorem Moved.commanded (h : w.Moved s first i a f) :
    s.scheduler.commanded w.channelId = i.duty := by
  have hd : s.scheduler.lastDuty.lookup w.channelId = some i.duty := congrArg Memory.duty h.memory
  rw [LightingScheduler.commanded, hd]
  rfl

/-- A channel under way is between its start and its target. -/
theorem Underway.within (h : w.Underway s first) :
    s.scheduler.commanded w.channelId ∈ Set.uIcc w.duty w.target := by
  rcases h.memory with hu | ⟨i, a, f, hm⟩
  · rw [hu.commanded]
    exact Set.left_mem_uIcc
  · rw [hm.commanded]
    exact hm.within

/-- No snap hold is remembered. -/
theorem Underway.no_snap (ho : w.Opens) (h : w.Underway s first) :
    s.scheduler.lastHold.lookup w.channelId ≠ some .snap := by
  rcases h.memory with hu | ⟨i, a, f, hm⟩
  · rw [show s.scheduler.lastHold.lookup w.channelId = w.start.lastHold.lookup w.channelId from
      congrArg Memory.hold hu.memory]
    exact ho.no_release
  · rw [show s.scheduler.lastHold.lookup w.channelId = i.hold from congrArg Memory.hold hm.memory,
      hm.hold]
    cases hh : w.hold with
    | none => simp
    | some x => simp [ho.unheld_or_ramp x hh]

/-- And it goes at the slew's rate. -/
theorem Underway.slewed (ho : w.Opens) (h : w.Underway s first) :
    s.scheduler.Slewed w.hold w.channelId := by
  refine ⟨?_, fun hr => h.no_snap ho hr.2⟩
  cases hh : w.hold with
  | none => simp
  | some x => simp [ho.unheld_or_ramp x hh]

/-- No emission is later than the last tick. -/
theorem Underway.past (h : w.Underway s first)
    (ha : a ∈ s.scheduler.lastEmittedAt.lookup w.channelId) : ∃ t ∈ s.lastTick, a ≤ t := by
  rcases h.memory with hu | ⟨i, a', f, hm⟩
  · rw [show s.scheduler.lastEmittedAt.lookup w.channelId =
      w.start.lastEmittedAt.lookup w.channelId from congrArg Memory.emittedAt hu.memory] at ha
    exact (h.before a ha).1
  · rw [show s.scheduler.lastEmittedAt.lookup w.channelId = some a' from
      congrArg Memory.emittedAt hm.memory] at ha
    cases ha
    exact hm.past

/-! ### One tick -/

/-- What a steady tick looks at. -/
structure AtTick (w : Window ι) (s : Ticking ι) (first : Option ℚ) (now : ℚ)
    (overrides : Dict ι HeldTarget) : Prop where
  opens : w.Opens
  underway : w.Underway s first
  after : ∀ t ∈ s.lastTick, t < now
  look : overrides.lookup w.channelId = w.hold
  target : s.scheduler.target now overrides w.channelId = w.target

namespace AtTick

theorem rate (h : w.AtTick s first now overrides) :
    s.scheduler.settings.maxDutyDeltaPerS = some w.rate := by
  rw [h.underway.settings, h.opens.rate]

theorem rate_pos (h : w.AtTick s first now overrides) : 0 < w.rate :=
  w.start.settings.rate_pos _ h.opens.rate

theorem slewed (h : w.AtTick s first now overrides) :
    s.scheduler.Slewed (overrides.lookup w.channelId) w.channelId :=
  h.look ▸ h.underway.slewed h.opens

/-- Its last emission is not in the future. -/
theorem past (h : w.AtTick s first now overrides)
    (ha : a ∈ s.scheduler.lastEmittedAt.lookup w.channelId) : a ≤ now := by
  obtain ⟨t, ht, hat⟩ := h.underway.past ha
  exact hat.trans (h.after t ht).le

theorem first_le (h : w.AtTick s first now overrides) : first.getD now ≤ now := by
  cases hf : first with
  | none => exact le_refl _
  | some f =>
      obtain ⟨t, ht, hft⟩ := h.underway.begun f hf
      exact hft.trans (h.after t ht).le

/-- Where the channel is to go, it stays quiet exactly if that is not worth a message. -/
theorem quiet_iff (h : w.AtTick s first now overrides) {prev : ℚ}
    (hsurf : s.scheduler.Surfaced overrides w.channelId)
    (hd : s.scheduler.lastDuty.lookup w.channelId = some prev)
    (ha : s.scheduler.lastEmittedAt.lookup w.channelId = some a) :
    s.scheduler.emission now overrides w.channelId = none ↔
      (∀ x ∈ w.hold, s.scheduler.lastHold.lookup w.channelId = some x.transition) ∧
      |w.target - prev| ≤ w.rate * (now - a) ∧ |w.target - prev| < w.start.settings.deadband ∧
      w.channelId ∉ s.scheduler.slewing ∧ now - a < w.start.settings.refreshS := by
  have hiff : s.scheduler.Unannounced w.rate now overrides w.channelId ↔ _ :=
    LightingScheduler.unannounced_iff h.slewed hsurf h.rate hd ha (h.past ha)
  have hc : s.scheduler.commanded w.channelId = prev := by
    rw [LightingScheduler.commanded, hd]; rfl
  rw [← hiff, LightingScheduler.Unannounced, ha, h.look, h.target, hc, h.underway.settings]
  simp

/-- What was suppressed at the start stays so while nothing is said. -/
theorem quiet_of_suppressed (h : w.AtTick s first now overrides) (hu : w.Untouched s first)
    (hs : w.Suppressed (first.getD now) now) :
    s.scheduler.emission now overrides w.channelId = none := by
  by_cases hsurf : s.scheduler.Surfaced overrides w.channelId
  swap
  · rw [LightingScheduler.emission, if_neg hsurf]
  obtain ⟨a, ha, hreach, hrecent⟩ := hs.recent
  obtain ⟨prev, hprev⟩ := Option.isSome_iff_exists.mp (h.underway.warm.mpr (by rw [ha]; rfl))
  have hduty : w.duty = prev := by
    rw [duty, LightingScheduler.commanded, hprev]; rfl
  have hd : s.scheduler.lastDuty.lookup w.channelId = some prev :=
    (congrArg Memory.duty hu.memory).trans hprev
  have hat : s.scheduler.lastEmittedAt.lookup w.channelId = some a :=
    (congrArg Memory.emittedAt hu.memory).trans ha
  have hhold : s.scheduler.lastHold.lookup w.channelId = w.start.lastHold.lookup w.channelId :=
    congrArg Memory.hold hu.memory
  have hslew : decide (w.channelId ∈ s.scheduler.slewing) = decide (w.channelId ∈ w.start.slewing) :=
    congrArg Memory.slewing hu.memory
  rw [decide_eq_decide] at hslew
  have hsmall := hs.small
  rw [hduty] at hsmall hreach
  refine (h.quiet_iff hsurf hd hat).mpr
    ⟨hhold ▸ hs.announced, hreach.trans ?_, hsmall, fun hc => hs.settled (hslew.mp hc), hrecent⟩
  exact mul_le_mul_of_nonneg_left (sub_le_sub_right h.first_le a) h.rate_pos.le

/-- Nothing is said of a move that was not begun only if it is not worth a message. -/
theorem suppressed_of_quiet (h : w.AtTick s first now overrides) (hu : w.Untouched s first)
    (hne : w.duty ≠ w.target) (hq : s.scheduler.emission now overrides w.channelId = none) :
    w.Suppressed (first.getD now) now := by
  have hsurf : s.scheduler.Surfaced overrides w.channelId :=
    LightingScheduler.surfaced_of_commanded_ne (by rwa [hu.commanded, h.target])
  have hquiet := hq
  rw [LightingScheduler.emission, if_pos hsurf] at hquiet
  obtain ⟨-, -, hwarm, -, -, a, hat, -⟩ := LightingScheduler.emitFor_quiet hquiet
  obtain ⟨prev, hd⟩ := Option.isSome_iff_exists.mp hwarm
  obtain ⟨hheld, hreach, hsmall, hslew, hfresh⟩ := (h.quiet_iff hsurf hd hat).mp hq
  have ha : w.start.lastEmittedAt.lookup w.channelId = some a :=
    (congrArg Memory.emittedAt hu.memory).symm.trans hat
  have hduty : w.duty = prev := by
    rw [← hu.commanded, LightingScheduler.commanded, hd]; rfl
  have hhold : s.scheduler.lastHold.lookup w.channelId = w.start.lastHold.lookup w.channelId :=
    congrArg Memory.hold hu.memory
  have hset : decide (w.channelId ∈ s.scheduler.slewing) = decide (w.channelId ∈ w.start.slewing) :=
    congrArg Memory.slewing hu.memory
  rw [decide_eq_decide] at hset
  rw [← hduty] at hreach hsmall
  refine ⟨hhold ▸ hheld, fun hc => hslew (hset.mpr hc), hsmall, a, ha, ?_, hfresh⟩
  cases hf : first with
  | none => exact hreach
  | some f =>
      obtain ⟨t, ht, -⟩ := h.underway.begun f hf
      obtain ⟨a', ha', hreach', -⟩ := ((hu.waits f hf).resolve_left hne t ht).recent
      cases ha.symm.trans ha'
      exact hreach'

theorem getD_mem {f : ℚ} (hf : f ∈ (first <|> some now)) : f = first.getD now := by
  cases first <;> (cases hf; rfl)

theorem after_first (h : w.AtTick s first now overrides) :
    ∀ a ∈ w.start.lastEmittedAt.lookup w.channelId, a < first.getD now := by
  intro a ha
  obtain ⟨⟨t, ht, hat⟩, hfirst⟩ := h.underway.before a ha
  cases hf : first with
  | none => exact lt_of_le_of_lt hat (h.after t ht)
  | some f => exact hfirst f hf

/-- A tick that says nothing of the channel. -/
theorem silent (h : w.AtTick s first now overrides)
    (hq : s.scheduler.emission now overrides w.channelId = none) :
    w.Untouched ⟨s.scheduler.tick now overrides, some now⟩ (first <|> some now) ∨
      ∃ i a f, w.Moved ⟨s.scheduler.tick now overrides, some now⟩ (first <|> some now) i a f := by
  have hmemory : (s.scheduler.tick now overrides).memory w.channelId =
      s.scheduler.memory w.channelId := by
    rw [LightingScheduler.memory_tick, hq, Option.elim_none]
  rcases h.underway.memory with hu | ⟨i, a, f, hm⟩
  · refine .inl ⟨hmemory.trans hu.memory, fun f hf => ?_⟩
    by_cases hd : w.duty = w.target
    · exact .inl hd
    · refine .inr ?_
      rintro t ⟨⟩
      rw [getD_mem hf]
      exact h.suppressed_of_quiet hu hd hq
  · -- a channel that converges is not left there
    have harrived : i.duty = w.target := by
      by_contra hne
      have hsurf : s.scheduler.Surfaced overrides w.channelId :=
        LightingScheduler.surfaced_of_commanded_ne (by rwa [hm.commanded, h.target])
      rw [LightingScheduler.emission, if_pos hsurf] at hq
      have hslew : decide (w.channelId ∈ s.scheduler.slewing) = i.converging :=
        congrArg Memory.slewing hm.memory
      rw [hm.converging, decide_eq_decide] at hslew
      exact (LightingScheduler.emitFor_quiet hq).2.2.2.2.1 (hslew.mpr hne)
    obtain ⟨t, ht, hat⟩ := hm.past
    refine .inr ⟨i, a, f, ?_, hm.le, ⟨now, rfl, hat.trans (h.after t ht).le⟩,
      hmemory.trans hm.memory, hm.hold, hm.within, hm.unsuppressed, hm.converging,
      fun hne => absurd harrived hne⟩
    rw [hm.first]
    rfl

/-- What is left of the gap after a step that falls short. -/
theorem pace (h : w.AtTick s first now overrides)
    (hshort : w.rate * (now - (s.scheduler.lastEmittedAt.lookup w.channelId).getD now) <
      |w.target - s.scheduler.commanded w.channelId|) :
    |w.target - s.scheduler.commanded w.channelId| -
        w.rate * (now - (s.scheduler.lastEmittedAt.lookup w.channelId).getD now) +
      w.rate * (now - w.base (first.getD now)) ≤ |w.target - w.duty| := by
  rcases h.underway.memory with hu | ⟨i, a, f, hm⟩
  · have hat : s.scheduler.lastEmittedAt.lookup w.channelId =
        w.start.lastEmittedAt.lookup w.channelId := congrArg Memory.emittedAt hu.memory
    rw [hu.commanded, hat] at hshort ⊢
    rw [base]
    cases ha : w.start.lastEmittedAt.lookup w.channelId with
    | some a => simp
    | none =>
        -- a cold start is said at the first tick
        have hnow : first.getD now = now := by
          cases hf : first with
          | none => rfl
          | some f =>
              obtain ⟨t, ht, -⟩ := h.underway.begun f hf
              rcases hu.waits f hf with hd | hs
              · rw [ha, hd] at hshort
                simp at hshort
              · obtain ⟨a, ha', -⟩ := (hs t ht).recent
                rw [ha] at ha'
                cases ha'
        simp [hnow]
  · have hat : s.scheduler.lastEmittedAt.lookup w.channelId = some a :=
      congrArg Memory.emittedAt hm.memory
    rw [hm.commanded, hat, Option.getD_some] at hshort ⊢
    have hle : a ≤ now := h.past hat
    have hne : i.duty ≠ w.target := by
      intro he
      rw [he, sub_self, abs_zero] at hshort
      exact absurd hshort (not_lt.mpr (mul_nonneg h.rate_pos.le (sub_nonneg.mpr hle)))
    obtain ⟨-, hpace⟩ := hm.pace hne
    rw [hm.first, Option.getD_some]
    linarith

/-- A tick that says something of it. -/
theorem spoken (h : w.AtTick s first now overrides)
    (hi : s.scheduler.emission now overrides w.channelId = some i) :
    w.Moved ⟨s.scheduler.tick now overrides, some now⟩ (first <|> some now) i now
      (first.getD now) := by
  have hpast : ∀ a ∈ s.scheduler.lastEmittedAt.lookup w.channelId, a ≤ now := fun _ => h.past
  obtain ⟨hduty, hhold, hconv⟩ := LightingScheduler.emission_slewed h.slewed h.rate hpast hi
  rw [h.target] at hduty hconv
  have hdt : 0 ≤ w.rate * (now - (s.scheduler.lastEmittedAt.lookup w.channelId).getD now) := by
    refine mul_nonneg h.rate_pos.le (sub_nonneg.mpr ?_)
    cases ha : s.scheduler.lastEmittedAt.lookup w.channelId with
    | none => exact le_refl _
    | some a => exact hpast a ha
  refine ⟨?_, h.first_le, ⟨now, rfl, le_refl _⟩, ?_, h.look ▸ hhold, ?_, fun hs => ?_, hconv,
    fun hne => ⟨rfl, ?_⟩⟩
  · cases first <;> rfl
  · rw [LightingScheduler.memory_tick, hi, Option.elim_some]
  · rw [hduty]
    exact Set.uIcc_subset_uIcc_right h.underway.within (toward_mem_uIcc hdt)
  · rcases h.underway.memory with hu | ⟨j, a, f, hm⟩
    · rw [h.quiet_of_suppressed hu hs] at hi
      cases hi
    · obtain ⟨t, ht, hat⟩ := hm.past
      rw [hm.first] at hs
      exact hm.unsuppressed (hs.earlier (hat.trans (h.after t ht).le))
  · have hshort : w.rate * (now - (s.scheduler.lastEmittedAt.lookup w.channelId).getD now) <
        |w.target - s.scheduler.commanded w.channelId| := by
      by_contra hle
      exact hne (hduty.trans (toward_eq_target (not_lt.mp hle)))
    rw [hduty, abs_sub_toward hshort]
    exact h.pace hshort

/-- A tick keeps a window under way. -/
theorem underway_tick (h : w.AtTick s first now overrides) :
    w.Underway ⟨s.scheduler.tick now overrides, some now⟩ (first <|> some now) where
  settings := by
    rw [← h.underway.settings]
    exact LightingScheduler.settings_tick
  warm := h.underway.warm
  before := by
    intro a ha
    refine ⟨⟨now, rfl, ((h.after_first a ha).trans_le h.first_le).le⟩, fun f hf => ?_⟩
    rw [getD_mem hf]
    exact h.after_first a ha
  begun := by
    intro f hf
    rw [getD_mem hf]
    exact ⟨now, rfl, h.first_le⟩
  memory := by
    cases hi : s.scheduler.emission now overrides w.channelId with
    | none => exact h.silent hi
    | some i => exact .inr ⟨i, now, _, h.spoken hi⟩

/-- **A tick of the window does what it should.** -/
theorem arrives_tick (h : w.AtTick s first now overrides) : w.Arrives s first now overrides := by
  have hnext := h.underway_tick
  have htoward : (s.scheduler.tick now overrides).commanded w.channelId ∈
      Set.uIcc (s.scheduler.commanded w.channelId) w.target := by
    rw [LightingScheduler.commanded_tick]
    cases hi : s.scheduler.emission now overrides w.channelId with
    | none => exact Set.left_mem_uIcc
    | some i =>
        have hpast : ∀ a ∈ s.scheduler.lastEmittedAt.lookup w.channelId, a ≤ now := fun _ => h.past
        rw [Option.elim_some, (LightingScheduler.emission_slewed h.slewed h.rate hpast hi).1,
          h.target]
        refine toward_mem_uIcc (mul_nonneg h.rate_pos.le (sub_nonneg.mpr ?_))
        cases ha : s.scheduler.lastEmittedAt.lookup w.channelId with
        | none => exact le_refl _
        | some a => exact hpast a ha
  have hwithin : (s.scheduler.tick now overrides).commanded w.channelId ∈
      Set.uIcc w.duty w.target := hnext.within
  have hsaid : ∀ i ∈ s.scheduler.emission now overrides w.channelId,
      i.duty = (s.scheduler.tick now overrides).commanded w.channelId := by
    intro i hi
    rw [LightingScheduler.commanded_tick, hi, Option.elim_some]
  refine ⟨htoward, hwithin, fun hd ht => Set.uIcc_subset_Icc hd ht hwithin, hsaid, ?_, ?_, ?_, ?_,
    ?_⟩
  · intro hne harrive
    cases hi : s.scheduler.emission now overrides w.channelId with
    | none =>
        rw [LightingScheduler.commanded_tick, hi] at harrive
        exact absurd harrive hne
    | some i => exact ⟨i, rfl, (hsaid i hi).trans harrive⟩
  · intro hcover hfree
    have hfirst : (first <|> some now) = some (first.getD now) := by cases first <;> rfl
    rcases hnext.memory with hu | ⟨i, a, f, hm⟩
    · rcases hu.waits _ hfirst with hd | hs
      · exact hu.commanded.trans hd
      · exact absurd (hs now rfl) hfree
    · by_contra hne
      have hc := hm.commanded
      obtain ⟨hlast, hpace⟩ := hm.pace (hc ▸ hne)
      cases hlast
      cases hfirst.symm.trans hm.first
      have hzero : |w.target - i.duty| ≤ 0 := by linarith
      exact hne (hc.trans (sub_eq_zero.mp (abs_nonpos_iff.mp hzero)).symm)
  · intro hs
    rcases h.underway.memory with hu | ⟨i, a, f, hm⟩
    · exact h.quiet_of_suppressed hu hs
    · obtain ⟨t, ht, hat⟩ := hm.past
      rw [hm.first] at hs
      exact absurd (hs.earlier (hat.trans (h.after t ht).le)) hm.unsuppressed
  · intro hc hdead f hf a ha hfa hrecent
    by_cases hsurf : s.scheduler.Surfaced overrides w.channelId
    swap
    · rw [LightingScheduler.emission, if_neg hsurf]
    rcases h.underway.memory with hu | ⟨i, a', f', hm⟩
    · have hat : w.start.lastEmittedAt.lookup w.channelId = some a :=
        (congrArg Memory.emittedAt hu.memory).symm.trans ha
      exact absurd hfa (not_le.mpr ((h.underway.before a hat).2 f hf))
    · have hduty : i.duty = w.target := hm.commanded.symm.trans hc
      have hslew : decide (w.channelId ∈ s.scheduler.slewing) = i.converging :=
        congrArg Memory.slewing hm.memory
      rw [hm.converging, decide_eq_decide] at hslew
      have hhold : s.scheduler.lastHold.lookup w.channelId = i.hold :=
        congrArg Memory.hold hm.memory
      refine (h.quiet_iff hsurf (congrArg Memory.duty hm.memory) ha).mpr
        ⟨fun x hx => ?_, ?_, ?_, fun hs => hslew.mp hs hduty, hrecent⟩
      · rw [hhold, hm.hold, hx, Option.map_some]
      · rw [hduty, sub_self, abs_zero]
        exact mul_nonneg h.rate_pos.le (sub_nonneg.mpr (h.past ha))
      · rwa [hduty, sub_self, abs_zero]
  · intro hc hfree hp
    have hlook : overrides.lookup w.channelId = none := h.look.trans hfree
    have htarget := h.target
    rw [LightingScheduler.target, hlook, Option.elim_none,
      LightingScheduler.resting_of_not_mem hp] at htarget
    rw [LightingScheduler.emission, if_neg]
    exact LightingScheduler.not_surfaced hp hlook (hc.trans htarget.symm)
      (h.underway.no_snap h.opens)

end AtTick

end Window

/-! ### Before the window -/

/-- A channel has a duty exactly when it has a time of emission, no later than the last tick. -/
def Ticks.Dated (s : Ticks ι) : Prop :=
  ∀ c, ((s.scheduler.memory c).duty.isSome ↔ (s.scheduler.memory c).emittedAt.isSome) ∧
    ∀ a ∈ (s.scheduler.memory c).emittedAt, a ≤ s.now

/-- A scheduler that has emitted nothing. -/
theorem dated_init (settings : Settings) (profiles : List (ChannelProfile ι))
    (h : (profiles.map ChannelProfile.channelId).Nodup) (now : ℚ) :
    (Ticks.init settings profiles h now).Dated := by
  intro c
  simp [Ticks.init, LightingScheduler.init, LightingScheduler.memory]

/-- To forget, to reset or to swap the profiles leaves a channel its memory, or none. -/
theorem memory_edit {sch sch' : LightingScheduler ι} {a : TicksAction ι} {x : SchedulerAction ι}
    (ha : a.edit = some x) (hs : (scheduling ι).step sch x = some sch') (c : ι) :
    sch'.memory c = sch.memory c ∨ sch'.memory c = .cold := by
  cases a with
  | due | mark | drop => cases ha
  | forget c' =>
      cases ha
      cases hs
      rw [LightingScheduler.memory_forget]
      split
      · exact .inr rfl
      · exact .inl rfl
  | reset =>
      cases ha
      cases hs
      exact .inr (by simp [LightingScheduler.reset, LightingScheduler.memory, Memory.cold])
  | setProfiles ps =>
      cases ha
      change sch.setProfiles ps = some sch' at hs
      rw [LightingScheduler.setProfiles] at hs
      split at hs
      · cases hs; exact .inl rfl
      · cases hs

/-- **Step.**  No emission is of the future. -/
theorem dated_step {s s' : Ticks ι} {a : TicksAction ι} (hf : s.Forward a) (h : s.Dated)
    (hs : (ticks ι).step s a = some s') : s'.Dated := by
  intro c
  cases ticks_moves hs with
  | due _ => exact ⟨(h c).1, fun a ha => ((h c).2 a ha).trans hf⟩
  | drop _ => exact h c
  | @mark i rest _ =>
      rw [LightingScheduler.memory_markEmitted]
      split
      · refine ⟨by simp [Intent.memory], ?_⟩
        rintro a ⟨⟩
        exact le_refl _
      · exact h c
  | edit ha hx =>
      rcases memory_edit ha hx c with hm | hm
      · rw [hm]
        exact h c
      · rw [hm]
        exact ⟨by simp [Memory.cold], by rintro _ ⟨⟩⟩

/-! ### The law of a window -/

namespace Window
variable {w : Window ι} {s s' : Ticking ι} {first : Option ℚ} {a : TickAction ι}

/-- A window begins. -/
theorem underway_init {p : Ticks ι} (hp : p.Dated) (hw : w.start = p.scheduler) :
    w.Underway ⟨p.scheduler, some p.now⟩ none where
  settings := by rw [hw]
  warm := hw ▸ (hp w.channelId).1
  before := by
    intro a ha
    exact ⟨⟨p.now, rfl, (hp w.channelId).2 a (hw ▸ ha)⟩, by rintro _ ⟨⟩⟩
  begun := by rintro _ ⟨⟩
  memory := .inl ⟨by rw [hw], by rintro _ ⟨⟩⟩

/-- **Step.**  The window stays under way. -/
theorem underway_step (ho : w.Opens) (hC : w.Steady s a) (h : w.Underway s first)
    (hs : (ticking ι).step s a = some s') : w.Underway s' (first <|> a.time) := by
  obtain ⟨ps, hps, rfl, rfl⟩ | ⟨now, overrides, rfl, -, rfl⟩ := ticking_step hs
  · rw [show (first <|> (TickAction.setProfiles ps).time) = first by cases first <;> rfl]
    refine ⟨h.settings, h.warm, h.before, h.begun, ?_⟩
    rcases h.memory with hu | ⟨i, a, f, hm⟩
    · exact .inl ⟨hu.memory, hu.waits⟩
    · exact .inr ⟨i, a, f, hm.first, hm.le, hm.past, hm.memory, hm.hold, hm.within,
        hm.unsuppressed, hm.converging, hm.pace⟩
  · obtain ⟨hafter, hlook, htarget⟩ := hC
    exact AtTick.underway_tick ⟨ho, h, hafter, hlook, htarget⟩

end Window

/-- **A slewed channel arrives**, whatever the scheduler went through before: each tick of a window
moves it towards its target and not past it, it is there when the time that has passed covers the
gap, and it is quiet afterwards; but a move that is not worth a message waits for the refresh. -/
theorem arrives (settings : Settings) (profiles : List (ChannelProfile ι))
    (h : (profiles.map ChannelProfile.channelId).Nodup) (built : ℚ) (as₀ : List (TicksAction ι))
    (p : Ticks ι)
    (hhistory : (ticks ι).RunIf Ticks.Forward (.init settings profiles h built) as₀ p)
    (w : Window ι) (hstart : w.start = p.scheduler) (hopens : w.Opens)
    (as : List (TickAction ι)) (q : Ticking ι × Option ℚ)
    (hrun : (sinceFirst ι).RunIf (fun q a => w.Steady q.1 a)
      (⟨p.scheduler, some p.now⟩, none) as q) :
    (sinceFirst ι).RunIf w.Kept (⟨p.scheduler, some p.now⟩, none) as q := by
  have hdated : p.Dated := hhistory.invariant (dated_init settings profiles h built)
    fun _ _ _ hf hd hs => dated_step hf hd hs
  refine hrun.keeps (I := fun q => w.Underway q.1 q.2) (Window.underway_init hdated hstart)
    (Machine.ghost_preserves fun _ _ _ _ hC hI hs => Window.underway_step hopens hC hI hs) ?_
  rintro ⟨s, first⟩ a - hC hI -
  cases a with
  | setProfiles => trivial
  | tick now overrides =>
      obtain ⟨hafter, hlook, htarget⟩ := hC
      exact Window.AtTick.arrives_tick ⟨hopens, hI, hafter, hlook, htarget⟩

/-- Two ticks under the window's hold. -/
theorem Window.two_ticks (w : Window ι) (overrides : Dict ι HeldTarget) (t₀ t₁ t₂ : ℚ)
    {x : HeldTarget} (hx : w.hold = some x) (hd : x.duty = w.target)
    (hlook : overrides.lookup w.channelId = w.hold) (s : LightingScheduler ι)
    (h₁ : t₀ < t₁) (h₂ : t₁ < t₂) : ∃ q, (sinceFirst ι).RunIf (fun q a => w.Steady q.1 a)
      (⟨s, some t₀⟩, none) [.tick t₁ overrides, .tick t₂ overrides] q := by
  have htarget : ∀ (s : LightingScheduler ι) now, s.target now overrides w.channelId = w.target := by
    intro s now
    rw [LightingScheduler.target, hlook, hx, Option.elim_some, hd]
  have hstep : ∀ (s : Ticking ι) (first : Option ℚ) {t now : ℚ}, s.lastTick = some t → t < now →
      w.Steady s (.tick now overrides) ∧ (sinceFirst ι).step (s, first) (.tick now overrides) =
        some (⟨s.scheduler.tick now overrides, some now⟩, first <|> some now) := by
    intro s first t now ht hlt
    have hafter : ∀ t' ∈ s.lastTick, t' < now := by
      rintro t' ht'
      cases ht.symm.trans ht'
      exact hlt
    exact ⟨⟨hafter, hlook, htarget _ _⟩,
      Machine.ghost_step.mpr ⟨tick_step fun t' ht' => (hafter t' ht').le, rfl⟩⟩
  obtain ⟨hC₁, hs₁⟩ := hstep ⟨s, some t₀⟩ none rfl h₁
  obtain ⟨hC₂, hs₂⟩ := hstep ⟨s.tick t₁ overrides, some t₁⟩ (some t₁) rfl h₂
  exact ⟨_, .more hC₁ hs₁ (.one hC₂ hs₂)⟩

/-- A cold start towards a ramp hold at full duty. -/
def coldWindow : Window Unit where
  start := .init gentle [] .nil
  channelId := ()
  hold := some ⟨1, .ramp⟩
  target := 1
  rate := 1 / 100

/-- A cold channel goes to its hold. -/
theorem arrives_cold : ∃ q, (sinceFirst Unit).RunIf coldWindow.Kept
    (⟨.init gentle [] .nil, some 0⟩, none) [.tick 1 (rampHold 1), .tick 101 (rampHold 1)] q := by
  have hopens : coldWindow.Opens := by
    refine ⟨rfl, ?_, by decide⟩
    rintro x ⟨⟩
    rfl
  obtain ⟨q, hq⟩ := coldWindow.two_ticks (rampHold 1) 0 1 101 rfl rfl rfl (.init gentle [] .nil)
    (by norm_num) (by norm_num)
  exact ⟨q, arrives gentle [] .nil 0 [] (.init gentle [] .nil 0) (.refl _) coldWindow rfl hopens
    _ _ hq⟩

/-- In every window of a scheduler of the one channel, each tick does `P`. -/
def EveryWindow (P : Window Unit → Ticking Unit × Option ℚ → TickAction Unit → Prop) : Prop :=
  ∀ (settings : Settings) (profiles : List (ChannelProfile Unit))
    (h : (profiles.map ChannelProfile.channelId).Nodup) (built : ℚ)
    (as₀ : List (TicksAction Unit)) (p : Ticks Unit),
    (ticks Unit).RunIf Ticks.Forward (.init settings profiles h built) as₀ p →
    ∀ w : Window Unit, w.start = p.scheduler → w.Opens →
    ∀ (as : List (TickAction Unit)) (q : Ticking Unit × Option ℚ),
    (sinceFirst Unit).RunIf (fun q a => w.Steady q.1 a) (⟨p.scheduler, some p.now⟩, none) as q →
    (sinceFirst Unit).RunIf (P w) (⟨p.scheduler, some p.now⟩, none) as q

/-- It is there when the ticks of the window have covered the gap. -/
def Window.Covers (w : Window Unit) (q : Ticking Unit × Option ℚ) : TickAction Unit → Prop
  | .setProfiles _ => True
  | .tick now overrides => |w.target - w.duty| ≤ w.rate * (now - q.2.getD now) →
      (q.1.scheduler.tick now overrides).commanded w.channelId = w.target

/-- Once it has arrived, it is quiet until the refresh, whatever the deadband. -/
def Window.Quiets (w : Window Unit) (q : Ticking Unit × Option ℚ) : TickAction Unit → Prop
  | .setProfiles _ => True
  | .tick now overrides => q.1.scheduler.commanded w.channelId = w.target →
      ∀ f ∈ q.2, ∀ a ∈ q.1.scheduler.lastEmittedAt.lookup w.channelId, f ≤ a →
        now - a < w.start.settings.refreshS →
        q.1.scheduler.emission now overrides w.channelId = none

/-- A hundredth of full duty a second, and every tick worth a message. -/
def restless : Settings where
  deadband := 0
  refreshS := 300
  maxDutyDeltaPerS := some (1 / 100)
  deadband_nonneg := le_refl 0
  refreshS_pos := five_minutes_pos
  rate_pos := gentle.rate_pos

/-- Settled under a ramp hold at rest, and then held at three thousandths: below the deadband, and
nothing is said of it.  And a deadband of nothing suppresses nothing. -/
theorem not_arrives : ¬ EveryWindow Window.Covers ∧ ¬ EveryWindow Window.Quiets := by
  refine ⟨fun h => ?_, fun h => ?_⟩
  · let i : Intent Unit := ⟨(), 0, .hold, some .ramp, false⟩
    let p : Ticks Unit :=
      ⟨(LightingScheduler.init gentle [] .nil).markEmitted i 1, 1, rampHold 0, []⟩
    let w : Window Unit := ⟨p.scheduler, (), some ⟨3 / 1000, .ramp⟩, 3 / 1000, 1 / 100⟩
    have hdue : (LightingScheduler.init gentle [] .nil).due 1 (rampHold 0) = [i] := by
      decide +kernel
    have h₁ : (ticks Unit).step (.init gentle [] .nil 0) (.due 1 (rampHold 0)) =
        some ⟨.init gentle [] .nil, 1, rampHold 0, [i]⟩ := by
      rw [← hdue]
      rfl
    have hhistory : (ticks Unit).RunIf Ticks.Forward (.init gentle [] .nil 0)
        [.due 1 (rampHold 0), .mark] p := .more (zero_le_one' ℚ) h₁ (.one trivial rfl)
    have hopens : w.Opens := by
      refine ⟨rfl, ?_, by decide +kernel⟩
      rintro x ⟨⟩
      rfl
    obtain ⟨q, hq⟩ := w.two_ticks (rampHold (3 / 1000)) 1 6 11 rfl rfl rfl p.scheduler
      (by norm_num) (by norm_num)
    cases h gentle [] .nil 0 _ p hhistory w rfl hopens _ q hq with
    | more _ h₁ t => cases t with
      | more hC _ _ =>
          obtain ⟨hs, hfirst⟩ := Machine.ghost_step.mp h₁
          obtain ⟨ps, hps, he, -⟩ | ⟨now, overrides, he, -, hs⟩ := ticking_step hs
          · cases he
          cases he
          rw [Window.Covers, hs, hfirst] at hC
          exact absurd (hC (by decide +kernel)) (by decide +kernel)
  · let w : Window Unit := ⟨.init restless [] .nil, (), some ⟨0, .ramp⟩, 0, 1 / 100⟩
    have hopens : w.Opens := by
      refine ⟨rfl, ?_, by decide +kernel⟩
      rintro x ⟨⟩
      rfl
    obtain ⟨q, hq⟩ := w.two_ticks (rampHold 0) 0 1 2 rfl rfl rfl (.init restless [] .nil)
      (by norm_num) (by norm_num)
    cases h restless [] .nil 0 [] (.init restless [] .nil 0) (.refl _) w rfl hopens _ q hq with
    | more _ h₁ t => cases t with
      | more hC _ _ =>
          obtain ⟨hs, hfirst⟩ := Machine.ghost_step.mp h₁
          obtain ⟨ps, hps, he, -⟩ | ⟨now, overrides, he, -, hs⟩ := ticking_step hs
          · cases he
          cases he
          rw [Window.Quiets, hs, hfirst] at hC
          exact absurd (hC (by decide +kernel) 1 rfl 1 (by decide +kernel) (le_refl 1)
            (by decide +kernel)) (by decide +kernel)

end BellasReef.ControlEngine
