import BellasReef.Db.Overrides
import BellasReef.Support.Slew
import Mathlib.Algebra.Order.Ring.Rat
import Mathlib.Data.Finset.Sort
import Mathlib.Data.List.AList
import Mathlib.Data.List.Sort
import Mathlib.Tactic.NormNum

/-!
# ControlEngine — Scheduler

`LightingScheduler` (`scheduler.py`).  `due` turns the profiles, the holds and a clock into
intents and changes nothing; `markEmitted` records an intent that was published.  Duties and
instants are rationals, and a profile is its channel and its curve over time, whatever the curve.

`Memory` is what the scheduler remembers of one channel.  Each channel's next intent depends on
its own memory only (`emission`), and a tick that records what it emits updates each channel's
memory by its own intent: `memory_tick`.
-/

namespace BellasReef.ControlEngine
open BellasReef.Db BellasReef.Support

/-- A Python dictionary whose order nothing reads. -/
abbrev Dict (κ ν : Type) : Type := AList fun _ : κ => ν

/-- `SAFE_DUTY`. -/
def safeDuty : ℚ := 0

/-- `ChannelProfile`: a channel and its duty over time. -/
structure ChannelProfile (ι : Type) where
  channelId : ι
  dutyAt : ℚ → ℚ

/-- A hold on a channel, as the scheduler is handed it. -/
structure HeldTarget where
  duty : ℚ
  transition : Transition
  deriving DecidableEq

/-- `Intent.reason`. -/
inductive IntentReason where
  | release
  | hold
  | initial
  | converge
  | ramp
  | refresh
  deriving DecidableEq, Repr

/-- A decision, not yet a command. -/
structure Intent (ι : Type) where
  channelId : ι
  duty : ℚ
  reason : IntentReason
  hold : Option Transition
  converging : Bool
  deriving DecidableEq

/-- What the scheduler remembers of a channel. -/
structure Memory where
  duty : Option ℚ
  emittedAt : Option ℚ
  hold : Option Transition
  slewing : Bool
  deriving DecidableEq

/-- No emission history. -/
def Memory.cold : Memory := ⟨none, none, none, false⟩

/-- The memory of a channel whose last intent was published at `at_`. -/
def Intent.memory {ι : Type} (i : Intent ι) (at_ : ℚ) : Memory :=
  ⟨some i.duty, some at_, i.hold, i.converging⟩

/-- The scheduler's settings, as its constructor checks them. -/
structure Settings where
  deadband : ℚ
  refreshS : ℚ
  /-- `max_duty_delta_per_s`; `none` disables the slew. -/
  maxDutyDeltaPerS : Option ℚ
  deadband_nonneg : 0 ≤ deadband
  refreshS_pos : 0 < refreshS
  rate_pos : ∀ r ∈ maxDutyDeltaPerS, 0 < r

theorem hundredth_nonneg : (0 : ℚ) ≤ 1 / 100 := by norm_num

theorem five_minutes_pos : (0 : ℚ) < 300 := by norm_num

theorem no_rate_pos : ∀ r ∈ (none : Option ℚ), 0 < r := nofun

theorem hundredth_rate_pos : ∀ r ∈ some (1 / 100 : ℚ), 0 < r := by
  rintro r ⟨⟩
  norm_num

/-- `LightingScheduler`, with what it remembers of each channel. -/
structure LightingScheduler (ι : Type) where
  settings : Settings
  profiles : List (ChannelProfile ι)
  profiles_nodup : (profiles.map ChannelProfile.channelId).Nodup
  lastDuty : Dict ι ℚ
  lastEmittedAt : Dict ι ℚ
  lastHold : Dict ι Transition
  slewing : Finset ι

namespace LightingScheduler
variable {ι : Type}

/-- A scheduler just built: no emission history. -/
def init (settings : Settings) (profiles : List (ChannelProfile ι))
    (h : (profiles.map ChannelProfile.channelId).Nodup) : LightingScheduler ι where
  settings := settings
  profiles := profiles
  profiles_nodup := h
  lastDuty := ∅
  lastEmittedAt := ∅
  lastHold := ∅
  slewing := ∅

/-- `_limit`. -/
def limit (s : LightingScheduler ι) (previous target dtS : ℚ) : ℚ :=
  match s.settings.maxDutyDeltaPerS with
  | none => target
  | some r => toward (r * max dtS 0) previous target

variable [LinearOrder ι]

/-- `set_profiles`; `none` for its `ValueError`. -/
def setProfiles (s : LightingScheduler ι) (profiles : List (ChannelProfile ι)) :
    Option (LightingScheduler ι) :=
  if h : (profiles.map ChannelProfile.channelId).Nodup then
    some { s with profiles := profiles, profiles_nodup := h }
  else none

/-- `_emit_for`. -/
def emitFor (s : LightingScheduler ι) (channelId : ι) (resting now : ℚ)
    (hold : Option HeldTarget) : Option (Intent ι) :=
  let cold := (s.lastDuty.lookup channelId).isNone
  let previous := (s.lastDuty.lookup channelId).getD safeDuty
  let dtS := now - (s.lastEmittedAt.lookup channelId).getD now
  let remembered := s.lastHold.lookup channelId
  if hold = none ∧ remembered = some .snap then
    some ⟨channelId, resting, .release, none, false⟩
  else
    let target := hold.elim resting HeldTarget.duty
    let tag := hold.map HeldTarget.transition
    let duty := if tag = some .snap then target else s.limit previous target dtS
    let converging := decide (duty ≠ target)
    if tag ≠ none ∧ remembered ≠ tag then
      -- arrival, or a supersede that changed the mode
      some ⟨channelId, duty, .hold, tag, converging⟩
    else if tag = some .snap ∧ duty ≠ previous then some ⟨channelId, duty, .hold, tag, converging⟩
    else if cold then some ⟨channelId, duty, .initial, tag, converging⟩
    else if converging then some ⟨channelId, duty, .converge, tag, true⟩
    else if s.settings.deadband ≤ |duty - previous| then some ⟨channelId, duty, .ramp, tag, false⟩
    else if channelId ∈ s.slewing then some ⟨channelId, duty, .converge, tag, false⟩
    else if s.lastEmittedAt.lookup channelId = none ∨ s.settings.refreshS ≤ dtS then
      some ⟨channelId, duty, .refresh, tag, false⟩
    else none

/-- `mark_emitted`. -/
def markEmitted (s : LightingScheduler ι) (i : Intent ι) (at_ : ℚ) : LightingScheduler ι :=
  { s with
    lastDuty := s.lastDuty.insert i.channelId i.duty
    lastEmittedAt := s.lastEmittedAt.insert i.channelId at_
    lastHold := i.hold.elim (s.lastHold.erase i.channelId) (s.lastHold.insert i.channelId)
    slewing :=
      if i.converging then insert i.channelId s.slewing else s.slewing.erase i.channelId }

/-- `reset`. -/
def reset (s : LightingScheduler ι) : LightingScheduler ι :=
  { s with lastDuty := ∅, lastEmittedAt := ∅, lastHold := ∅, slewing := ∅ }

/-- `forget`. -/
def forget (s : LightingScheduler ι) (channelId : ι) : LightingScheduler ι :=
  { s with
    lastDuty := s.lastDuty.erase channelId
    lastEmittedAt := s.lastEmittedAt.erase channelId
    lastHold := s.lastHold.erase channelId
    slewing := s.slewing.erase channelId }

attribute [local instance] lawfulBEq_of_linearOrder in
/-- The channels `due` considers besides the profiled ones, unordered: held, not yet back at
`SAFE_DUTY`, or remembered as a snap hold. -/
def unprofiled (s : LightingScheduler ι) (overrides : Dict ι HeldTarget) : List ι :=
  (overrides.keys ++ (s.lastDuty.entries.filter (·.2 ≠ safeDuty)).map Sigma.fst ++
    (s.lastHold.entries.filter (·.2 = .snap)).map Sigma.fst).dedup.filter
      (· ∉ s.profiles.map ChannelProfile.channelId)

/-- `due`. -/
def due (s : LightingScheduler ι) (now : ℚ) (overrides : Dict ι HeldTarget) :
    List (Intent ι) :=
  (s.profiles.filterMap fun p =>
    s.emitFor p.channelId (p.dutyAt now) now (overrides.lookup p.channelId)) ++
  ((s.unprofiled overrides).insertionSort (· ≤ ·)).filterMap fun c =>
    s.emitFor c safeDuty now (overrides.lookup c)

/-- One tick whose every intent is published and marked. -/
def tick (s : LightingScheduler ι) (now : ℚ) (overrides : Dict ι HeldTarget) :
    LightingScheduler ι :=
  (s.due now overrides).foldl (fun s i => s.markEmitted i now) s

/-! ### One channel at a time -/

/-- What is remembered of a channel. -/
def memory (s : LightingScheduler ι) (c : ι) : Memory :=
  ⟨s.lastDuty.lookup c, s.lastEmittedAt.lookup c, s.lastHold.lookup c, decide (c ∈ s.slewing)⟩

/-- What a channel should be at when nobody holds it. -/
def resting (s : LightingScheduler ι) (now : ℚ) (c : ι) : ℚ :=
  (s.profiles.find? (·.channelId = c)).elim safeDuty (·.dutyAt now)

/-- `due` considers the channel. -/
def Surfaced (s : LightingScheduler ι) (overrides : Dict ι HeldTarget) (c : ι) : Prop :=
  c ∈ s.profiles.map ChannelProfile.channelId ∨ c ∈ s.unprofiled overrides

instance (s : LightingScheduler ι) (overrides : Dict ι HeldTarget) (c : ι) :
    Decidable (s.Surfaced overrides c) := inferInstanceAs (Decidable (_ ∨ _))

/-- The intent of one channel. -/
def emission (s : LightingScheduler ι) (now : ℚ) (overrides : Dict ι HeldTarget) (c : ι) :
    Option (Intent ι) :=
  if s.Surfaced overrides c then s.emitFor c (s.resting now c) now (overrides.lookup c) else none

variable {s : LightingScheduler ι} {now at_ : ℚ} {overrides : Dict ι HeldTarget} {c : ι}
  {i : Intent ι}

omit [LinearOrder ι] in
theorem forall_mem_ite {p : Prop} [Decidable p] {P : Intent ι → Prop} {x y : Option (Intent ι)}
    (hx : ∀ i ∈ x, P i) (hy : ∀ i ∈ y, P i) : ∀ i ∈ if p then x else y, P i := by
  split
  · exact hx
  · exact hy

/-- An intent for a channel names it. -/
theorem emitFor_channelId {rest : ℚ} {hold : Option HeldTarget}
    (h : s.emitFor c rest now hold = some i) : i.channelId = c := by
  have hsome : ∀ {duty reason hold converging},
      ∀ j ∈ some (⟨c, duty, reason, hold, converging⟩ : Intent ι), j.channelId = c := by
    rintro _ _ _ _ j ⟨⟩
    rfl
  have hmem : ∀ j ∈ s.emitFor c rest now hold, j.channelId = c :=
    forall_mem_ite hsome (forall_mem_ite hsome (forall_mem_ite hsome (forall_mem_ite hsome
      (forall_mem_ite hsome (forall_mem_ite hsome (forall_mem_ite hsome
        (forall_mem_ite hsome nofun)))))))
  exact hmem i h

/-- A forget makes one channel cold. -/
@[simp] theorem memory_forget (c' : ι) :
    (s.forget c).memory c' = if c' = c then Memory.cold else s.memory c' := by
  split
  · next h => subst h; simp [memory, forget, Memory.cold]
  · next h => simp [memory, forget, h]

/-- A mark is remembered of its channel. -/
theorem memory_markEmitted (c' : ι) :
    (s.markEmitted i at_).memory c' = if c' = i.channelId then i.memory at_ else s.memory c' := by
  obtain ⟨c, duty, reason, hold, converging⟩ := i
  split
  · next h =>
      subst h
      cases hold <;> cases converging <;> simp [memory, markEmitted, Intent.memory]
  · next h =>
      cases hold <;> cases converging <;> simp [memory, markEmitted, h]

/-- Marking intents of different channels updates each channel by its own. -/
theorem memory_foldl_markEmitted {is : List (Intent ι)} (h : (is.map Intent.channelId).Nodup) :
    (is.foldl (fun s i => s.markEmitted i at_) s).memory c =
      (is.find? (·.channelId = c)).elim (s.memory c) (·.memory at_) := by
  induction is generalizing s with
  | nil => rfl
  | cons i is ih =>
      obtain ⟨hi, hnodup⟩ := List.nodup_cons.mp h
      rw [List.foldl_cons, ih hnodup, memory_markEmitted]
      by_cases hc : i.channelId = c
      · have hnone : is.find? (·.channelId = c) = none := by
          refine List.find?_eq_none.mpr fun j hj he => hi ?_
          rw [hc, ← of_decide_eq_true he]
          exact List.mem_map_of_mem hj
        rw [hnone, List.find?_cons_of_pos (by simpa using hc), if_pos hc.symm]
        rfl
      · rw [List.find?_cons_of_neg (by simpa using hc), if_neg (Ne.symm hc)]

/-- A profile is found by its channel. -/
theorem find_profile {p : ChannelProfile ι} (hp : p ∈ s.profiles) :
    s.profiles.find? (·.channelId = p.channelId) = some p :=
  (find_key_eq_some_iff s.profiles_nodup).mpr ⟨hp, rfl⟩

/-- A channel with a profile rests on its curve. -/
theorem resting_of_mem {p : ChannelProfile ι} (hp : p ∈ s.profiles) :
    s.resting now p.channelId = p.dutyAt now := by
  rw [resting, find_profile hp]; rfl

/-- A channel without one rests at `SAFE_DUTY`. -/
theorem resting_of_not_mem (hc : c ∉ s.profiles.map ChannelProfile.channelId) :
    s.resting now c = safeDuty := by
  have hnone : s.profiles.find? (·.channelId = c) = none :=
    List.find?_eq_none.mpr fun p hp he => hc (of_decide_eq_true he ▸ List.mem_map_of_mem hp)
  rw [resting, hnone]; rfl

theorem not_mem_ids_of_unprofiled (hc : c ∈ s.unprofiled overrides) :
    c ∉ s.profiles.map ChannelProfile.channelId := by
  simpa using List.of_mem_filter hc

/-- **`due` lists each channel's own intent.** -/
theorem mem_due_iff : i ∈ s.due now overrides ↔ s.emission now overrides i.channelId = some i := by
  rw [due, List.mem_append, List.mem_filterMap, List.mem_filterMap]
  constructor
  · rintro (⟨p, hp, hi⟩ | ⟨c, hc, hi⟩)
    · rw [emitFor_channelId hi, emission, if_pos (.inl (List.mem_map_of_mem hp)), resting_of_mem hp]
      exact hi
    · rw [List.mem_insertionSort] at hc
      rw [emitFor_channelId hi, emission, if_pos (.inr hc),
        resting_of_not_mem (not_mem_ids_of_unprofiled hc)]
      exact hi
  · intro h
    rw [emission] at h
    split at h
    · next hs =>
        rcases hs with hc | hc
        · obtain ⟨p, hp, he⟩ := List.mem_map.mp hc
          rw [← he, resting_of_mem hp] at h
          exact .inl ⟨p, hp, h⟩
        · rw [resting_of_not_mem (not_mem_ids_of_unprofiled hc)] at h
          exact .inr ⟨_, (List.mem_insertionSort _).mpr hc, h⟩
    · cases h

omit [LinearOrder ι] in
theorem nodup_filterMap {β : Type} {f : β → Option (Intent ι)} {g : β → ι} {l : List β}
    (hf : ∀ b i, f b = some i → i.channelId = g b) (h : (l.map g).Nodup) :
    ((l.filterMap f).map Intent.channelId).Nodup := by
  induction l with
  | nil => exact .nil
  | cons b l ih =>
      obtain ⟨hb, hl⟩ := List.nodup_cons.mp h
      cases he : f b with
      | none => rw [List.filterMap_cons_none he]; exact ih hl
      | some i =>
          rw [List.filterMap_cons_some he, List.map_cons, List.nodup_cons]
          refine ⟨fun hmem => hb ?_, ih hl⟩
          obtain ⟨j, hj, hij⟩ := List.mem_map.mp hmem
          obtain ⟨b', hb', hj⟩ := List.mem_filterMap.mp hj
          rw [← hf b i he, ← hij, hf b' j hj]
          exact List.mem_map_of_mem hb'

/-- No channel has two intents in one tick. -/
theorem due_nodup : ((s.due now overrides).map Intent.channelId).Nodup := by
  rw [due, List.map_append]
  refine List.Nodup.append ?_ ?_ ?_
  · exact nodup_filterMap (fun _ _ => emitFor_channelId) s.profiles_nodup
  · refine nodup_filterMap (g := id) (fun _ _ => emitFor_channelId) ?_
    rw [List.map_id]
    exact (List.perm_insertionSort _ _).nodup_iff.mpr ((List.nodup_dedup _).filter _)
  · intro c hc hc'
    obtain ⟨i, hi, rfl⟩ := List.mem_map.mp hc
    obtain ⟨p, hp, hi⟩ := List.mem_filterMap.mp hi
    obtain ⟨j, hj, hij⟩ := List.mem_map.mp hc'
    obtain ⟨c, hc, hj⟩ := List.mem_filterMap.mp hj
    have hmem := not_mem_ids_of_unprofiled ((List.mem_insertionSort _).mp hc)
    rw [← emitFor_channelId hj, hij, emitFor_channelId hi] at hmem
    exact hmem (List.mem_map_of_mem hp)

/-- What is emitted for a channel names it. -/
theorem emission_channelId (h : s.emission now overrides c = some i) : i.channelId = c := by
  rw [emission] at h
  split at h
  · exact emitFor_channelId h
  · cases h

/-- `due` has one intent at most for a channel. -/
theorem find_due : (s.due now overrides).find? (·.channelId = c) = s.emission now overrides c := by
  cases hf : (s.due now overrides).find? (·.channelId = c) with
  | none =>
      cases he : s.emission now overrides c with
      | none => rfl
      | some i =>
          have hc := emission_channelId he
          have hi : i ∈ s.due now overrides := mem_due_iff.mpr (hc ▸ he)
          exact absurd (by simpa using hc) (List.find?_eq_none.mp hf i hi)
  | some i =>
      have hc : i.channelId = c := by simpa using List.find?_some hf
      rw [← hc, mem_due_iff.mp (List.mem_of_find?_eq_some hf)]

/-- **A tick is a tick of each channel.** -/
theorem memory_tick : (s.tick now overrides).memory c =
    (s.emission now overrides c).elim (s.memory c) (·.memory now) := by
  rw [tick, memory_foldl_markEmitted due_nodup, find_due]

end LightingScheduler

end BellasReef.ControlEngine
