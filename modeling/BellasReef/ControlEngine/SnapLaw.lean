import BellasReef.ControlEngine.Emissions

/-!
# ControlEngine — Snap law

A snap hold's two ends, along every run of ticks.

A tick is `due` and then the marks of what it returned, one by one; a forget, a reset or a new set
of profiles may come at any point of it (`Ticks`).  `Aired` is what was published.  The scheduler
snaps a channel back on the memory of its last emission, and that emission was under a snap hold
only if the last tick saw the channel under one (`Governed`): `snap_governs`.
-/

namespace BellasReef.ControlEngine
open BellasReef.Db BellasReef.Support

variable {ι : Type}

/-! ### Ticks -/

/-- A scheduler, and its last tick: when it was, the holds it saw, and the intents that it has
still to turn to. -/
structure Ticks (ι : Type) where
  scheduler : LightingScheduler ι
  now : ℚ
  held : Dict ι HeldTarget
  pending : List (Intent ι)

/-- What a tick does, publish by publish, and what comes between. -/
inductive TicksAction (ι : Type) where
  | due (now : ℚ) (held : Dict ι HeldTarget)
  /-- The next intent is published and marked. -/
  | mark
  /-- The next intent is not published. -/
  | drop
  | forget (channelId : ι)
  | reset
  | setProfiles (profiles : List (ChannelProfile ι))

/-- What it does to the scheduler, besides a mark. -/
def TicksAction.edit : TicksAction ι → Option (SchedulerAction ι)
  | .forget c => some (.forget c)
  | .reset => some .reset
  | .setProfiles ps => some (.setProfiles ps)
  | .due _ _ | .mark | .drop => none

variable [LinearOrder ι]

/-- One step of a tick. -/
def Ticks.step (s : Ticks ι) : TicksAction ι → Option (Ticks ι)
  | .due now held =>
      if s.pending.isEmpty then some ⟨s.scheduler, now, held, s.scheduler.due now held⟩ else none
  | .mark =>
      match s.pending with
      | i :: rest => some { s with scheduler := s.scheduler.markEmitted i s.now, pending := rest }
      | [] => none
  | .drop =>
      match s.pending with
      | _ :: rest => some { s with pending := rest }
      | [] => none
  | .forget c => some { s with scheduler := s.scheduler.forget c }
  | .reset => some { s with scheduler := s.scheduler.reset }
  | .setProfiles ps => (s.scheduler.setProfiles ps).map fun sch => { s with scheduler := sch }

/-- The scheduler, over ticks whose publishes may fail. -/
def ticks (ι : Type) [LinearOrder ι] : Machine (Ticks ι) (TicksAction ι) where
  step := fun s a => s.step a

/-- A scheduler built at `now`, that has not ticked. -/
def Ticks.init (settings : Settings) (profiles : List (ChannelProfile ι))
    (h : (profiles.map ChannelProfile.channelId).Nodup) (now : ℚ) : Ticks ι :=
  ⟨.init settings profiles h, now, ∅, []⟩

/-! ### What was published -/

/-- The emissions that the scheduler has not been told to forget, and the last intent of each
channel that was published. -/
structure Aired (ι : Type) where
  last : Emissions ι
  published : ι → Option (Intent ι)

/-- What is noted at a step. -/
def Aired.note (s : Ticks ι) (a : TicksAction ι) (g : Aired ι) : Aired ι :=
  match a, s.pending with
  | .mark, i :: _ =>
      ⟨g.last.note (.markEmitted i s.now), Function.update g.published i.channelId (some i)⟩
  | a, _ => { g with last := a.edit.elim g.last g.last.note }

/-- The machine of ticks, with what was published written down beside it. -/
abbrev airing (ι : Type) [LinearOrder ι] : Machine (Ticks ι × Aired ι) (TicksAction ι) :=
  (ticks ι).ghost fun s a _ g => g.note s a

/-- The channel's last emission was under a snap hold. -/
def Emissions.UnderSnap (e : Emissions ι) (c : ι) : Prop := ∃ p ∈ e c, p.1.hold = some .snap

/-- The last tick saw the channel under a snap hold. -/
def Ticks.SawSnap (s : Ticks ι) (c : ι) : Prop :=
  (s.held.lookup c).map HeldTarget.transition = some .snap

/-- **Snap governs both ends of a hold.** -/
structure SnapGoverned (s : Ticks ι) (g : Aired ι) : Prop where
  /-- A tick that sees a channel under a snap hold leaves it at the hold's duty. -/
  arrives : s.pending = [] → ∀ c, ∀ h ∈ s.held.lookup c, h.transition = .snap →
    ∃ i, g.published c = some i ∧ i.duty = h.duty
  /-- A tick that sees a channel unheld whose last emission was under a snap hold says one thing
  of it: that it is released, at its resting duty. -/
  releases : ∀ now (held : Dict ι HeldTarget) c, held.lookup c = none → g.last.UnderSnap c →
    (s.scheduler.due now held).filter (·.channelId = c) =
      [⟨c, s.scheduler.resting now c, .release, none, false⟩]
  /-- No other tick says so; and the tick before it saw the channel under a snap hold. -/
  only : s.pending = [] → ∀ now (held : Dict ι HeldTarget), ∀ i ∈ s.scheduler.due now held,
    i.reason = .release →
      held.lookup i.channelId = none ∧ g.last.UnderSnap i.channelId ∧ s.SawSnap i.channelId

/-! ### What `due` says of a channel -/

/-- The intent is tagged with the hold, and is at its duty if that is a snap hold. -/
def Intent.Under (hold : Option HeldTarget) (i : Intent ι) : Prop :=
  i.hold = hold.map HeldTarget.transition ∧ ∀ x ∈ hold, x.transition = .snap → i.duty = x.duty

namespace LightingScheduler
variable {s : LightingScheduler ι} {c : ι} {rest now : ℚ} {hold : Option HeldTarget}
  {overrides : Dict ι HeldTarget} {i : Intent ι}

/-- `due` has for a channel what is emitted for it. -/
theorem filter_due : (s.due now overrides).filter (·.channelId = c) =
    (s.emission now overrides c).toList := by
  rw [filter_key_eq due_nodup, find_due]

/-- A remembered snap hold that is no longer owed. -/
theorem emission_release (hfree : overrides.lookup c = none)
    (hsnap : s.lastHold.lookup c = some .snap) : s.emission now overrides c =
      some ⟨c, s.resting now c, .release, none, false⟩ := by
  have hsurf : s.Surfaced overrides c := by
    by_cases hp : c ∈ s.profiles.map ChannelProfile.channelId
    · exact .inl hp
    · refine .inr (List.mem_filter.mpr ⟨List.mem_dedup.mpr ?_, decide_eq_true hp⟩)
      have hmem : (⟨c, .snap⟩ : Sigma fun _ => Transition) ∈
          s.lastHold.entries.filter (·.2 = .snap) :=
        List.mem_filter.mpr ⟨AList.mem_lookup_iff.mp hsnap, rfl⟩
      exact List.mem_append_right _ (List.mem_map_of_mem hmem)
  rw [emission, if_pos hsurf, hfree]
  exact if_pos ⟨rfl, hsnap⟩

/-- What an intent says of the hold that is owed; and only a channel whose snap hold is no longer
owed is released. -/
theorem emitFor_under (h : s.emitFor c rest now hold = some i) : i.Under hold ∧
    (i.reason = .release → hold = none ∧ s.lastHold.lookup c = some .snap) := by
  by_cases hrelease : hold = none ∧ s.lastHold.lookup c = some .snap
  · have hi : some _ = some i := (if_pos hrelease).symm.trans h
    cases hi
    obtain ⟨rfl, hsnap⟩ := hrelease
    exact ⟨⟨rfl, nofun⟩, fun _ => ⟨rfl, hsnap⟩⟩
  · have h := (if_neg hrelease).symm.trans h
    -- every other branch gives the tag and the duty of the hold, and another reason
    have hsome : ∀ {d : ℚ} {reason : IntentReason} {converging : Bool}, reason ≠ .release →
        ∀ j ∈ some (⟨c, if hold.map HeldTarget.transition = some .snap
          then hold.elim rest HeldTarget.duty else d, reason, hold.map HeldTarget.transition,
          converging⟩ : Intent ι), j.Under hold ∧ j.reason ≠ .release := by
      rintro d reason converging hne j ⟨⟩
      refine ⟨⟨rfl, ?_⟩, hne⟩
      rintro x ⟨⟩ hx
      rw [Option.map_some, hx, if_pos rfl]
      rfl
    have hall : ∀ {o : Option (Intent ι)}, o = some i →
        (∀ j ∈ o, j.Under hold ∧ j.reason ≠ .release) → i.Under hold ∧ i.reason ≠ .release :=
      fun h hall => hall i h
    obtain ⟨hunder, hne⟩ := hall h (forall_mem_ite (hsome (by decide))
      (forall_mem_ite (hsome (by decide)) (forall_mem_ite (hsome (by decide))
        (forall_mem_ite (hsome (by decide)) (forall_mem_ite (hsome (by decide))
          (forall_mem_ite (hsome (by decide)) (forall_mem_ite (hsome (by decide)) nofun)))))))
    exact ⟨hunder, fun he => absurd he hne⟩

/-- A channel that stands under a snap hold is at its duty. -/
theorem emitFor_quiet_snap {x : HeldTarget} (h : s.emitFor c rest now hold = none)
    (hhold : hold = some x) (hx : x.transition = .snap) :
    s.lastHold.lookup c = some .snap ∧ s.commanded c = x.duty := by
  have hheld := (emitFor_quiet h).2.1 x hhold
  obtain ⟨-, h⟩ := ite_eq_none h
  obtain ⟨-, h⟩ := ite_eq_none h
  obtain ⟨hjump, -⟩ := ite_eq_none h
  have htag : hold.map HeldTarget.transition = some .snap := by rw [hhold, Option.map_some, hx]
  refine ⟨hheld.trans (congrArg some hx), ?_⟩
  have harrived := of_not_not fun hne => hjump ⟨htag, hne⟩
  rw [if_pos htag, hhold] at harrived
  exact harrived.symm

end LightingScheduler

/-! ### What a step can do -/

/-- What a step does, by cases. -/
inductive TicksMoves (s : Ticks ι) : TicksAction ι → Ticks ι → Prop where
  | due {now : ℚ} {held : Dict ι HeldTarget} (hp : s.pending = []) :
      TicksMoves s (.due now held) ⟨s.scheduler, now, held, s.scheduler.due now held⟩
  | mark {i : Intent ι} {rest : List (Intent ι)} (hp : s.pending = i :: rest) :
      TicksMoves s .mark
        { s with scheduler := s.scheduler.markEmitted i s.now, pending := rest }
  | drop {i : Intent ι} {rest : List (Intent ι)} (hp : s.pending = i :: rest) :
      TicksMoves s .drop { s with pending := rest }
  | edit {a : TicksAction ι} {x : SchedulerAction ι} {sch : LightingScheduler ι}
      (ha : a.edit = some x) (hs : (scheduling ι).step s.scheduler x = some sch) :
      TicksMoves s a { s with scheduler := sch }

variable {s s' : Ticks ι} {g : Aired ι} {a : TicksAction ι}

/-- **Inversion.** -/
theorem ticks_moves (h : (ticks ι).step s a = some s') : TicksMoves s a s' := by
  change s.step a = some s' at h
  cases a with
  | due now held =>
      rw [Ticks.step] at h
      split at h
      · next hp => cases h; exact .due (List.isEmpty_iff.mp hp)
      · cases h
  | mark =>
      rw [Ticks.step] at h
      split at h
      · next hp => cases h; exact .mark hp
      · cases h
  | drop =>
      rw [Ticks.step] at h
      split at h
      · next hp => cases h; exact .drop hp
      · cases h
  | forget c => cases h; exact .edit rfl rfl
  | reset => cases h; exact .edit rfl rfl
  | setProfiles ps =>
      obtain ⟨sch, hs, rfl⟩ := Option.map_eq_some_iff.mp h
      exact .edit rfl hs

theorem note_mark {i : Intent ι} {rest : List (Intent ι)} (hp : s.pending = i :: rest) :
    g.note s .mark = ⟨g.last.note (.markEmitted i s.now),
      Function.update g.published i.channelId (some i)⟩ := by
  simp only [Aired.note, hp]

theorem note_edit {x : SchedulerAction ι} (ha : a.edit = some x) :
    g.note s a = { g with last := g.last.note x } := by
  cases a with
  | due | mark | drop => cases ha
  | forget | reset | setProfiles => cases ha; rfl

/-- To forget, to reset or to swap the profiles records no emission. -/
theorem mem_note_edit {x : SchedulerAction ι} (ha : a.edit = some x) {e : Emissions ι} {c : ι}
    {p : Intent ι × ℚ} (hp : p ∈ e.note x c) : p ∈ e c := by
  cases a with
  | due | mark | drop => cases ha
  | forget c' =>
      cases ha
      rw [Emissions.note, Function.update_apply] at hp
      split at hp
      · cases hp
      · exact hp
  | reset => cases ha; cases hp
  | setProfiles => cases ha; exact hp

/-! ### The invariant -/

/-- The memory is the last emission's; what a tick has still to mark is under the holds it saw;
and a channel it saw under a snap hold has arrived, or is still to be marked. -/
structure Governed (s : Ticks ι) (g : Aired ι) : Prop where
  recorded : Recorded s.scheduler g.last
  kept : ∀ c, ∀ p ∈ g.last c, g.published c = some p.1
  nodup : (s.pending.map Intent.channelId).Nodup
  under : ∀ i ∈ s.pending, i.Under (s.held.lookup i.channelId)
  saw : ∀ c, g.last.UnderSnap c → s.SawSnap c ∨ ∃ i ∈ s.pending, i.channelId = c
  arrives : ∀ c, ∀ h ∈ s.held.lookup c, h.transition = .snap →
    (∃ i ∈ s.pending, i.channelId = c) ∨ ∃ i, g.published c = some i ∧ i.duty = h.duty

/-- The scheduler remembers a snap hold of the channels that are under one. -/
theorem Recorded.lastHold_eq_snap_iff {s : LightingScheduler ι} {e : Emissions ι}
    (hr : Recorded s e) {c : ι} : s.lastHold.lookup c = some .snap ↔ e.UnderSnap c := by
  have hhold : s.lastHold.lookup c = _ := congrArg Memory.hold (hr c)
  rw [hhold]
  cases he : e c with
  | none => exact ⟨nofun, fun ⟨p, hp, _⟩ => by cases he ▸ hp⟩
  | some p =>
      refine ⟨fun h => ⟨p, he, h⟩, ?_⟩
      rintro ⟨q, hq, h⟩
      obtain rfl : p = q := Option.some.inj (he.symm.trans hq)
      exact h

/-- A scheduler that has emitted nothing. -/
theorem governed_init (settings : Settings) (profiles : List (ChannelProfile ι))
    (h : (profiles.map ChannelProfile.channelId).Nodup) (now : ℚ) :
    Governed (Ticks.init settings profiles h now) ⟨fun _ => none, fun _ => none⟩ where
  recorded := LightingScheduler.recorded_init settings profiles h
  kept := nofun
  nodup := .nil
  under := nofun
  saw := fun _ ⟨_, h, _⟩ => nomatch h
  arrives := nofun

/-- A tick decides. -/
theorem Governed.due {now : ℚ} {held : Dict ι HeldTarget} (hi : Governed s g) :
    Governed ⟨s.scheduler, now, held, s.scheduler.due now held⟩ g where
  recorded := hi.recorded
  kept := hi.kept
  nodup := LightingScheduler.due_nodup
  under := by
    intro i hmem
    have he := LightingScheduler.mem_due_iff.mp hmem
    rw [LightingScheduler.emission] at he
    split at he
    · exact (LightingScheduler.emitFor_under he).1
    · cases he
  saw := by
    intro c hsnap
    have hlast := hi.recorded.lastHold_eq_snap_iff.mpr hsnap
    cases hheld : held.lookup c with
    | none =>
        refine .inr ⟨⟨c, s.scheduler.resting now c, .release, none, false⟩, ?_, rfl⟩
        exact LightingScheduler.mem_due_iff.mpr (LightingScheduler.emission_release hheld hlast)
    | some h =>
        cases ht : h.transition with
        | snap => exact .inl (by rw [Ticks.SawSnap, hheld, Option.map_some, ht])
        | ramp =>
            refine .inr ?_
            by_contra hquiet
            have hnone := LightingScheduler.emission_eq_none fun i hmem he => hquiet ⟨i, hmem, he⟩
            rw [LightingScheduler.emission, if_pos
              (LightingScheduler.surfaced_of_profiled_or_held (.inr (by rw [hheld]; rfl)))] at hnone
            have hramp := (LightingScheduler.emitFor_quiet hnone).2.1 h hheld
            rw [hlast, ht] at hramp
            cases hramp
  arrives := by
    intro c h hheld hsnap
    by_cases hmem : ∃ i ∈ s.scheduler.due now held, i.channelId = c
    · exact .inl hmem
    · refine .inr ?_
      have hnone := LightingScheduler.emission_eq_none fun i hi he => hmem ⟨i, hi, he⟩
      rw [LightingScheduler.emission, if_pos
        (LightingScheduler.surfaced_of_profiled_or_held (.inr (by rw [hheld]; rfl)))] at hnone
      obtain ⟨i, t, he, -, -⟩ := LightingScheduler.stands_of_quiet hi.recorded hnone
      obtain ⟨-, hduty⟩ := LightingScheduler.emitFor_quiet_snap hnone hheld hsnap
      have hmemory := hi.recorded c
      rw [he] at hmemory
      have hlast : s.scheduler.lastDuty.lookup c = some i.duty := congrArg Memory.duty hmemory
      rw [LightingScheduler.commanded, hlast] at hduty
      exact ⟨i, hi.kept c _ he, hduty⟩

/-- An intent is published. -/
theorem Governed.mark {i : Intent ι} {rest : List (Intent ι)} (hi : Governed s g)
    (hp : s.pending = i :: rest) :
    Governed { s with scheduler := s.scheduler.markEmitted i s.now, pending := rest }
      (g.note s .mark) := by
  rw [note_mark hp]
  have hnodup := hi.nodup
  rw [hp] at hnodup
  obtain ⟨hfresh, hrest⟩ := List.nodup_cons.mp hnodup
  have hunder : ∀ j ∈ i :: rest, j.Under (s.held.lookup j.channelId) := hp ▸ hi.under
  have hself : g.last.note (.markEmitted i s.now) i.channelId = some (i, s.now) :=
    Function.update_self ..
  have hne : ∀ c, c ≠ i.channelId → g.last.note (.markEmitted i s.now) c = g.last c :=
    fun c hc => Function.update_of_ne hc ..
  -- of another channel, what was to be marked still is
  have hother : ∀ c, c ≠ i.channelId → (∃ j ∈ s.pending, j.channelId = c) →
      ∃ j ∈ rest, j.channelId = c := by
    rintro c hc ⟨j, hj, rfl⟩
    rw [hp] at hj
    rcases List.mem_cons.mp hj with rfl | hj
    · exact absurd rfl hc
    · exact ⟨j, hj, rfl⟩
  refine ⟨LightingScheduler.recorded_step (a := .markEmitted i s.now) hi.recorded rfl,
    fun c p hlast => ?_, hrest, fun j hj => hunder j (List.mem_cons_of_mem _ hj),
    fun c hsnap => ?_, fun c h hheld hsnap => ?_⟩
  · by_cases hc : c = i.channelId
    · subst hc
      cases hself.symm.trans hlast
      exact Function.update_self ..
    · exact (Function.update_of_ne hc ..).trans (hi.kept c p ((hne c hc).symm.trans hlast))
  · by_cases hc : c = i.channelId
    · subst hc
      obtain ⟨p, hlast, hsnap⟩ := hsnap
      cases hself.symm.trans hlast
      exact .inl ((hunder i List.mem_cons_self).1.symm.trans hsnap)
    · obtain ⟨p, hlast, hsnap⟩ := hsnap
      exact (hi.saw c ⟨p, (hne c hc).symm.trans hlast, hsnap⟩).imp_right (hother c hc)
  · by_cases hc : c = i.channelId
    · subst hc
      exact .inr ⟨i, Function.update_self .., (hunder i List.mem_cons_self).2 h hheld hsnap⟩
    · rcases hi.arrives c h hheld hsnap with hmem | ⟨j, hj, hduty⟩
      · exact .inl (hother c hc hmem)
      · exact .inr ⟨j, (Function.update_of_ne hc ..).trans hj, hduty⟩

/-- The scheduler forgets, or has its profiles swapped. -/
theorem Governed.edit {x : SchedulerAction ι} {sch : LightingScheduler ι} (hi : Governed s g)
    (ha : a.edit = some x) (hs : (scheduling ι).step s.scheduler x = some sch) :
    Governed { s with scheduler := sch } (g.note s a) := by
  rw [note_edit ha]
  refine ⟨LightingScheduler.recorded_step hi.recorded hs, fun c p hlast => ?_, hi.nodup, hi.under,
    fun c ⟨p, hlast, hsnap⟩ => ?_, hi.arrives⟩
  · exact hi.kept c p (mem_note_edit ha hlast)
  · exact hi.saw c ⟨p, mem_note_edit ha hlast, hsnap⟩

/-- **Step.**  Every snap hold that was announced governs its channel. -/
theorem governed_step (ha : a ≠ .drop) (hi : Governed s g) (h : (ticks ι).step s a = some s') :
    Governed s' (g.note s a) := by
  cases ticks_moves h with
  | due => exact hi.due
  | mark hp => exact hi.mark hp
  | drop => exact absurd rfl ha
  | edit ha hs => exact hi.edit ha hs

theorem Governed.snapGoverned (hi : Governed s g) : SnapGoverned s g where
  arrives := by
    intro hp c h hheld hsnap
    rcases hi.arrives c h hheld hsnap with ⟨i, hmem, -⟩ | hpub
    · cases hp ▸ hmem
    · exact hpub
  releases := by
    intro now held c hfree hsnap
    rw [LightingScheduler.filter_due,
      LightingScheduler.emission_release hfree (hi.recorded.lastHold_eq_snap_iff.mpr hsnap)]
    rfl
  only := by
    intro hp now held i hmem hreason
    have he := LightingScheduler.mem_due_iff.mp hmem
    rw [LightingScheduler.emission] at he
    split at he
    · obtain ⟨hfree, hsnap⟩ := (LightingScheduler.emitFor_under he).2 hreason
      have hlast := hi.recorded.lastHold_eq_snap_iff.mp hsnap
      refine ⟨hfree, hlast, (hi.saw _ hlast).resolve_right ?_⟩
      rintro ⟨j, hj, -⟩
      cases hp ▸ hj
    · cases he

/-- **Snap governs both ends of a hold**, in every state of every run of ticks whose every intent is
published, whatever is forgotten, reset or rescheduled on the way. -/
theorem snap_governs (settings : Settings) (profiles : List (ChannelProfile ι))
    (h : (profiles.map ChannelProfile.channelId).Nodup) (now : ℚ) (as : List (TicksAction ι))
    (s : Ticks ι) (g : Aired ι)
    (hrun : (airing ι).RunIf (fun _ a => a ≠ .drop)
      (.init settings profiles h now, ⟨fun _ => none, fun _ => none⟩) as (s, g)) :
    SnapGoverned s g := by
  have hi : Governed s g := hrun.invariant (I := fun p => Governed p.1 p.2)
    (governed_init settings profiles h now)
    (Machine.ghost_preserves fun _ _ _ _ ha hi hs => governed_step ha hi hs)
  exact hi.snapGoverned

/-- A snap hold of the one channel. -/
def snapHold (duty : ℚ) : Dict Unit HeldTarget :=
  AList.singleton () ⟨duty, .snap⟩

/-- A snap hold is released, and the channel is where its curve is. -/
theorem snap_governs_released :
    ∃ s g, (airing Unit).RunIf (fun _ a => a ≠ .drop)
        (.init gentle [] .nil 0, ⟨fun _ => none, fun _ => none⟩)
        [.due 1 (snapHold 1), .mark] (s, g) ∧
      (s.scheduler.due 6 ∅).filter (·.channelId = ()) = [⟨(), 0, .release, none, false⟩] := by
  let i : Intent Unit := ⟨(), 1, .hold, some .snap, false⟩
  have hdue : (LightingScheduler.init gentle [] .nil).due 1 (snapHold 1) = [i] := by
    decide +kernel
  let s₁ : Ticks Unit := ⟨.init gentle [] .nil, 1, snapHold 1, [i]⟩
  let g : Aired Unit := ⟨fun _ => none, fun _ => none⟩
  have h₁ : (airing Unit).step (.init gentle [] .nil 0, g) (.due 1 (snapHold 1)) = some (s₁, g) :=
    Machine.ghost_step.mpr ⟨by simp only [s₁, ← hdue]; rfl, rfl⟩
  have h₂ : (airing Unit).step (s₁, g) .mark =
      some ({ s₁ with scheduler := s₁.scheduler.markEmitted i 1, pending := [] }, g.note s₁ .mark) :=
    Machine.ghost_step.mpr ⟨rfl, rfl⟩
  have hrun := Machine.RunIf.more (C := fun _ a => a ≠ .drop) (by simp) h₁ (.one (by simp) h₂)
  refine ⟨_, _, hrun, ?_⟩
  refine (snap_governs gentle [] .nil 0 _ _ _ hrun).releases 6 ∅ () rfl ?_
  exact ⟨(i, 1), rfl, rfl⟩

end BellasReef.ControlEngine
