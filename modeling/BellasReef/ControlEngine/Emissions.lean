import BellasReef.ControlEngine.SlewLaw

/-!
# ControlEngine — Emissions

What the scheduler's memory is, over every sequence of `mark_emitted`, `forget`, `reset` and
`set_profiles`, and what it means that `due` says nothing of a channel.

`Emissions` is what a reader of the sequence would write down: the last intent of each channel
that was marked since the channel was last forgotten.  The memory is that intent's (`Recorded`),
so to stay quiet, which is to take none of the branches of `_emit_for`, is a fact about it:
`quiet_is_right`.
-/

namespace BellasReef.ControlEngine
open BellasReef.Db BellasReef.Support

variable {ι : Type} [LinearOrder ι]

/-! ### The scheduler's own steps -/

/-- The calls that change a scheduler. -/
inductive SchedulerAction (ι : Type) where
  | markEmitted (i : Intent ι) (at_ : ℚ)
  | forget (channelId : ι)
  | reset
  | setProfiles (profiles : List (ChannelProfile ι))

/-- One edit of the scheduler. -/
def LightingScheduler.step (s : LightingScheduler ι) :
    SchedulerAction ι → Option (LightingScheduler ι)
  | .markEmitted i at_ => some (s.markEmitted i at_)
  | .forget c => some (s.forget c)
  | .reset => some s.reset
  | .setProfiles ps => s.setProfiles ps

/-- The scheduler, over any order of its edits. -/
def scheduling (ι : Type) [LinearOrder ι] : Machine (LightingScheduler ι) (SchedulerAction ι) where
  step := fun s a => s.step a

/-- The last intent of each channel marked since the channel was last forgotten, and when. -/
abbrev Emissions (ι : Type) : Type := ι → Option (Intent ι × ℚ)

/-- A mark is noted, and a forget forgets it. -/
def Emissions.note (e : Emissions ι) : SchedulerAction ι → Emissions ι
  | .markEmitted i at_ => Function.update e i.channelId (some (i, at_))
  | .forget c => Function.update e c none
  | .reset => fun _ => none
  | .setProfiles _ => e

/-- The scheduler, with its emissions written down beside it. -/
abbrev recording (ι : Type) [LinearOrder ι] :
    Machine (LightingScheduler ι × Emissions ι) (SchedulerAction ι) :=
  (scheduling ι).ghost fun _ a _ e => e.note a

/-- The channel was emitted on its way to where it stands, under the hold that is owed, and not
long ago. -/
structure Stands (settings : Settings) (now target : ℚ) (hold : Option HeldTarget)
    (i : Intent ι) (at_ : ℚ) : Prop where
  near : |target - i.duty| < settings.deadband ∨ i.duty = target
  arrived : i.converging = false
  held : ∀ h ∈ hold, i.hold = some h.transition
  free : hold = none → i.hold ≠ some .snap
  fresh : now - at_ < settings.refreshS

/-! ### The memory is the last emission -/

/-- A channel's memory is that of its last emission. -/
def Recorded (s : LightingScheduler ι) (e : Emissions ι) : Prop :=
  ∀ c, s.memory c = (e c).elim .cold fun p => p.1.memory p.2

namespace LightingScheduler
variable {s s' : LightingScheduler ι} {e : Emissions ι} {a : SchedulerAction ι} {c : ι}
  {rest now : ℚ} {hold : Option HeldTarget} {overrides : Dict ι HeldTarget}

/-- A scheduler that has emitted nothing. -/
theorem recorded_init (settings : Settings) (profiles : List (ChannelProfile ι))
    (h : (profiles.map ChannelProfile.channelId).Nodup) :
    Recorded (init settings profiles h) fun _ => none := by
  intro c
  simp [init, memory, Memory.cold]

/-- **Step.**  What the scheduler remembers is what was emitted last. -/
theorem recorded_step (h : Recorded s e) (hs : (scheduling ι).step s a = some s') :
    Recorded s' (e.note a) := by
  intro c
  change s.step a = some s' at hs
  cases a with
  | markEmitted i at_ =>
      cases hs
      rw [memory_markEmitted, Emissions.note, Function.update_apply]
      split
      · rfl
      · exact h c
  | forget c' =>
      cases hs
      rw [memory_forget, Emissions.note, Function.update_apply]
      split
      · rfl
      · exact h c
  | reset =>
      cases hs
      simp [reset, memory, Memory.cold, Emissions.note]
  | setProfiles ps =>
      rw [step, setProfiles] at hs
      split at hs
      · cases hs; exact h c
      · cases hs

omit [LinearOrder ι] in
theorem ite_eq_none {p : Prop} [Decidable p] {i : Intent ι} {o : Option (Intent ι)}
    (h : (if p then some i else o) = none) : ¬ p ∧ o = none := by
  split at h
  · cases h
  · exact ⟨‹_›, h⟩

/-- What is so when none of the branches that emit is taken. -/
theorem emitFor_quiet (h : s.emitFor c rest now hold = none) :
    ¬ (hold = none ∧ s.lastHold.lookup c = some .snap) ∧
    (∀ x ∈ hold, s.lastHold.lookup c = some x.transition) ∧
    (s.lastDuty.lookup c).isSome ∧
    |hold.elim rest HeldTarget.duty - s.commanded c| < s.settings.deadband ∧ c ∉ s.slewing ∧
    ∃ at_, s.lastEmittedAt.lookup c = some at_ ∧ now - at_ < s.settings.refreshS := by
  obtain ⟨hrelease, h⟩ := ite_eq_none h
  obtain ⟨hannounce, h⟩ := ite_eq_none h
  obtain ⟨hjump, h⟩ := ite_eq_none h
  obtain ⟨hcold, h⟩ := ite_eq_none h
  obtain ⟨hconverging, h⟩ := ite_eq_none h
  obtain ⟨hramp, h⟩ := ite_eq_none h
  obtain ⟨hslewing, h⟩ := ite_eq_none h
  obtain ⟨hrefresh, -⟩ := ite_eq_none h
  have harrived := of_not_not fun hne => hconverging (decide_eq_true hne)
  rw [harrived] at hramp
  have hwarm : (s.lastDuty.lookup c).isSome := by simpa [Option.isSome_iff_ne_none] using hcold
  refine ⟨hrelease, fun x hx => ?_, hwarm, not_le.mp hramp, hslewing, ?_⟩
  · cases hx
    exact of_not_not fun hne => hannounce ⟨by simp, hne⟩
  · obtain ⟨hat, hfresh⟩ := not_or.mp hrefresh
    obtain ⟨at_, hat⟩ := Option.ne_none_iff_exists'.mp hat
    rw [hat, Option.getD_some, not_le] at hfresh
    exact ⟨at_, hat, hfresh⟩

/-- A channel of which `due` says nothing emits nothing. -/
theorem emission_eq_none (h : ∀ i ∈ s.due now overrides, i.channelId ≠ c) :
    s.emission now overrides c = none := by
  rw [← find_due, List.find?_eq_none]
  intro i hi he
  exact h i hi (of_decide_eq_true he)

/-- A channel with a profile or a hold is considered. -/
theorem surfaced_of_profiled_or_held
    (h : c ∈ s.profiles.map ChannelProfile.channelId ∨ (overrides.lookup c).isSome) :
    s.Surfaced overrides c := by
  by_cases hp : c ∈ s.profiles.map ChannelProfile.channelId
  · exact .inl hp
  · refine .inr (List.mem_filter.mpr ⟨List.mem_dedup.mpr ?_, decide_eq_true hp⟩)
    have hkey : c ∈ overrides := AList.lookup_isSome.mp (h.resolve_left hp)
    exact List.mem_append_left _ (List.mem_append_left _ hkey)

/-- A channel that `due` has no reason to look at is dark. -/
theorem commanded_of_not_surfaced (h : ¬ s.Surfaced overrides c) : s.commanded c = safeDuty := by
  cases hd : s.lastDuty.lookup c with
  | none => rw [commanded, hd]; rfl
  | some duty =>
      rw [commanded, hd, Option.getD_some]
      by_contra hne
      refine h ?_
      by_cases hp : c ∈ s.profiles.map ChannelProfile.channelId
      · exact .inl hp
      · refine .inr (List.mem_filter.mpr ⟨List.mem_dedup.mpr ?_, decide_eq_true hp⟩)
        have hmem : (⟨c, duty⟩ : Sigma fun _ => ℚ) ∈ s.lastDuty.entries.filter (·.2 ≠ safeDuty) :=
          List.mem_filter.mpr ⟨AList.mem_lookup_iff.mp hd, decide_eq_true hne⟩
        exact List.mem_append_left _ (List.mem_append_right _ (List.mem_map_of_mem hmem))

/-- What the last emission of a channel was, when `_emit_for` stays quiet about it. -/
theorem stands_of_quiet (hr : Recorded s e) (h : s.emitFor c rest now hold = none) :
    ∃ i at_, e c = some (i, at_) ∧
      |hold.elim rest HeldTarget.duty - i.duty| < s.settings.deadband ∧
      Stands s.settings now (hold.elim rest HeldTarget.duty) hold i at_ := by
  obtain ⟨hrelease, hannounced, hwarm, hnear, hslewing, at_, hat, hfresh⟩ := emitFor_quiet h
  have hc := hr c
  cases he : e c with
  | none =>
      rw [he] at hc
      rw [show s.lastDuty.lookup c = none from congrArg Memory.duty hc] at hwarm
      cases hwarm
  | some p =>
      obtain ⟨i, t⟩ := p
      rw [he] at hc
      have hduty : s.lastDuty.lookup c = some i.duty := congrArg Memory.duty hc
      have ht : s.lastEmittedAt.lookup c = some t := congrArg Memory.emittedAt hc
      have hhold : s.lastHold.lookup c = i.hold := congrArg Memory.hold hc
      have hconv : decide (c ∈ s.slewing) = i.converging := congrArg Memory.slewing hc
      rw [commanded, hduty, Option.getD_some] at hnear
      obtain rfl : t = at_ := Option.some.inj (ht.symm.trans hat)
      rw [hhold] at hrelease hannounced
      refine ⟨i, t, rfl, hnear, .inl hnear, ?_, hannounced, fun hn hs => hrelease ⟨hn, hs⟩, hfresh⟩
      rw [← hconv, decide_eq_false hslewing]

end LightingScheduler

/-- **Silence means it is right.**  Of a channel with a profile or a hold, `due` says nothing only
if its last emission stands; of one with neither, only if it is dark or nearly so.  It says no more
than one thing of a channel. -/
theorem quiet_is_right (settings : Settings) (profiles : List (ChannelProfile ι))
    (h : (profiles.map ChannelProfile.channelId).Nodup) (as : List (SchedulerAction ι))
    (s : LightingScheduler ι) (e : Emissions ι)
    (hrun : (recording ι).Run (.init settings profiles h, fun _ => none) as (s, e))
    (now : ℚ) (overrides : Dict ι HeldTarget) :
    (∀ c, (∀ i ∈ s.due now overrides, i.channelId ≠ c) →
      (c ∈ s.profiles.map ChannelProfile.channelId ∨ (overrides.lookup c).isSome) →
      ∃ i at_, e c = some (i, at_) ∧
        Stands s.settings now (s.target now overrides c) (overrides.lookup c) i at_) ∧
    (∀ c i at_, (∀ j ∈ s.due now overrides, j.channelId ≠ c) →
      c ∉ s.profiles.map ChannelProfile.channelId → overrides.lookup c = none →
      e c = some (i, at_) → i.duty = safeDuty ∨
        |safeDuty - i.duty| < s.settings.deadband ∧ now - at_ < s.settings.refreshS) ∧
    ((s.due now overrides).map Intent.channelId).Nodup := by
  have hr : Recorded s e := hrun.invariant (I := fun p => Recorded p.1 p.2)
    (LightingScheduler.recorded_init settings profiles h)
    (Machine.ghost_preserves fun _ _ _ _ _ hr hs => LightingScheduler.recorded_step hr hs)
  refine ⟨fun c hquiet hc => ?_, fun c i at_ hquiet hp hfree he => ?_, LightingScheduler.due_nodup⟩
  · have hnone := LightingScheduler.emission_eq_none hquiet
    rw [LightingScheduler.emission,
      if_pos (LightingScheduler.surfaced_of_profiled_or_held hc)] at hnone
    obtain ⟨i, at_, he, -, hs⟩ := LightingScheduler.stands_of_quiet hr hnone
    exact ⟨i, at_, he, hs⟩
  · have hnone := LightingScheduler.emission_eq_none hquiet
    by_cases hs : s.Surfaced overrides c
    · rw [LightingScheduler.emission, if_pos hs, hfree,
        LightingScheduler.resting_of_not_mem hp] at hnone
      obtain ⟨j, t, hj, hnear, hstands⟩ := LightingScheduler.stands_of_quiet hr hnone
      cases he.symm.trans hj
      exact .inr ⟨hnear, hstands.fresh⟩
    · have hdark := LightingScheduler.commanded_of_not_surfaced hs
      have hc := hr c
      rw [he] at hc
      rw [LightingScheduler.commanded,
        show s.lastDuty.lookup c = some i.duty from congrArg Memory.duty hc] at hdark
      exact .inl hdark

/-- A ramp hold that has arrived. -/
theorem quiet_is_right_held :
    ∃ s e, (recording Unit).Run (.init gentle [] .nil, fun _ => none)
        [.markEmitted ⟨(), 1 / 2, .hold, some .ramp, false⟩ 0] (s, e) ∧
      s.due 5 (rampHold (1 / 2)) = [] ∧
      ∃ i at_, e () = some (i, at_) ∧ Stands s.settings 5 (1 / 2) (some ⟨1 / 2, .ramp⟩) i at_ := by
  have hrun := Machine.RunIf.one (M := recording Unit) (C := fun _ _ => True) trivial
    (Machine.ghost_step.mpr ⟨rfl, rfl⟩ : (recording Unit).step (.init gentle [] .nil, fun _ => none)
      (.markEmitted ⟨(), 1 / 2, .hold, some .ramp, false⟩ 0) = some (_, _))
  have hquiet : (LightingScheduler.markEmitted (.init gentle [] .nil)
      ⟨(), 1 / 2, .hold, some .ramp, false⟩ 0).due 5 (rampHold (1 / 2)) = [] := by decide +kernel
  refine ⟨_, _, hrun, hquiet, ?_⟩
  refine (quiet_is_right gentle [] .nil _ _ _ hrun 5 (rampHold (1 / 2))).1 () (fun i hi => ?_) ?_
  · cases hquiet ▸ hi
  · exact .inr (by decide)

end BellasReef.ControlEngine
