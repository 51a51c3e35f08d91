import BellasReef.ControlEngine.Alerts
import Mathlib.Tactic.NormNum

/-!
# ControlEngine — Resync

`AlertSupervisor.resync` beside `AlertSupervisor.on_reading` on another task, each running to its
next await.  A reading holds one of the map's sets from its start to its end; the resync puts new
sets in the place of all of them, so that what the reading does to its own after that is lost.

The map and the record are off by what is under way; `gap` is what will stay.

* `replace_gap`: what the resync leaves of it; `gap_step`: after the resync it does not change.
* `resync_loses_nothing_iff`: so that the map comes to be what the record says exactly if the resync
  is undisturbed as it replaces the map.
-/

namespace BellasReef.ControlEngine
open BellasReef.Support

variable {δ : Type}

/-- Where the resync is: what it awaits, with what it has copied and read. -/
inductive ResyncStage (δ : Type) where
  | waiting
  | loading (before : δ → AlertBound → Bool)
  | loaded (before fresh : δ → AlertBound → Bool)
  | done

/-- Where the reading is: its transition before the store's commit, after it, and while it is
published, with those that are left. -/
inductive JudgeStage (δ : Type) where
  | idle
  | writing (d : δ) (t : AlertTransition) (ts : List AlertTransition)
  | written (d : δ) (t : AlertTransition) (ts : List AlertTransition)
  | publishing (d : δ) (ts : List AlertTransition)

/-- The record and the supervisor with its two tasks. -/
structure AlertTasks (δ : Type) where
  /-- A threshold episode is open. -/
  episodes : δ → AlertBound → Bool
  /-- `_open`. -/
  opened : δ → AlertBound → Bool
  resyncing : ResyncStage δ
  judging : JudgeStage δ
  /-- The set that the reading holds is one of the map's. -/
  attached : Bool

/-- What the resync, the record and the readings do. -/
inductive ResyncAction (δ : Type) where
  /-- The resync begins; the record is read; the resync goes on to its end. -/
  | resync
  | load
  | replace
  | reading (d : δ) (value : ℚ) (thresholds : Thresholds)
  /-- What the reading awaits is done, and it runs on. -/
  | go

/-- On to the next transition. -/
def JudgeStage.next (d : δ) : List AlertTransition → JudgeStage δ
  | [] => .idle
  | t :: ts => .writing d t ts

section Steps
variable [DecidableEq δ]

/-- The reading's next step; `none` where the store refuses the write. -/
def AlertTasks.go (s : AlertTasks δ) : Option (AlertTasks δ) :=
  match s.judging with
  | .idle => none
  | .writing d t ts =>
      if s.episodes d t.bound = decide (t.state = .breach) then none
      else some { s with
        episodes := setBound s.episodes d t.bound (decide (t.state = .breach))
        judging := .written d t ts }
  | .written d t ts =>
      some { s with
        opened :=
          if s.attached then setBound s.opened d t.bound (decide (t.state = .breach)) else s.opened
        judging := .publishing d ts }
  | .publishing d ts => some { s with judging := .next d ts }

/-- One step of one of the tasks. -/
def AlertTasks.step (s : AlertTasks δ) : ResyncAction δ → Option (AlertTasks δ)
  | .resync =>
      match s.resyncing with
      | .waiting => some { s with resyncing := .loading s.opened }
      | _ => none
  | .load =>
      match s.resyncing with
      | .loading before => some { s with resyncing := .loaded before s.episodes }
      | _ => none
  | .replace =>
      match s.resyncing with
      | .loaded before fresh =>
          some { s with
            opened := reconcile before s.opened fresh
            resyncing := .done
            attached := false }
      | _ => none
  | .reading d value thresholds =>
      match s.judging with
      | .idle => some { s with
          judging := .next d (evaluate value thresholds (s.opened d))
          attached := true }
      | _ => none
  | .go => s.go

/-- One resync, and readings, one after the other. -/
def alertTasks (δ : Type) [DecidableEq δ] : Machine (AlertTasks δ) (ResyncAction δ) where
  step := AlertTasks.step

end Steps

/-- Nothing has begun, whatever the map and the record say. -/
def AlertTasks.resting (episodes opened : δ → AlertBound → Bool) : AlertTasks δ :=
  ⟨episodes, opened, .waiting, .idle, true⟩

/-- The device of the reading, and its transitions that are still to be written. -/
def JudgeStage.unwritten : JudgeStage δ → Option (δ × List AlertTransition)
  | .idle => none
  | .writing d t ts => some (d, t :: ts)
  | .written d _ ts | .publishing d ts => some (d, ts)

section Ghosts
variable [DecidableEq δ]

/-- A transition of the bound is still to be written. -/
def AlertTasks.toWrite (s : AlertTasks δ) (d : δ) (b : AlertBound) : Bool :=
  s.judging.unwritten.any fun x => decide (x.1 = d ∧ b ∈ x.2.map AlertTransition.bound)

/-- One has been written, and the reading's set is still to follow. -/
def AlertTasks.toMirror (s : AlertTasks δ) (d : δ) (b : AlertBound) : Bool :=
  match s.judging with
  | .written d' t _ => decide (d' = d ∧ t.bound = b)
  | _ => false

/-- The map and the record will differ, when what is under way is done. -/
def AlertTasks.gap (s : AlertTasks δ) (d : δ) (b : AlertBound) : Bool :=
  (s.opened d b ^^ (s.attached && s.toMirror d b)) ^^
    (s.episodes d b ^^ (!s.attached && s.toWrite d b))

/-- As the resync replaces the map: of a bound that the map has changed since it was copied no
transition is under way, and of each other the record says what it said when it was read exactly if
none is still to be written. -/
def UndisturbedResync (s : AlertTasks δ) : ResyncAction δ → Prop
  | .replace => ∀ before fresh, s.resyncing = .loaded before fresh → ∀ d b,
      (s.opened d b ≠ before d b → s.toWrite d b = false ∧ s.toMirror d b = false) ∧
      (s.opened d b = before d b → (s.episodes d b = fresh d b ↔ s.toWrite d b = false))
  | _ => True

end Ghosts

/-- Both tasks have come to their end. -/
def AlertTasks.Finished (s : AlertTasks δ) : Prop := s.resyncing = .done ∧ s.judging = .idle

instance (s : AlertTasks δ) : Decidable s.Finished :=
  match hresync : s.resyncing, hjudge : s.judging with
  | .done, .idle => .isTrue ⟨hresync, hjudge⟩
  | .done, .writing .. | .done, .written .. | .done, .publishing .. =>
      .isFalse fun h => by rw [h.2] at hjudge; cases hjudge
  | .waiting, _ | .loading _, _ | .loaded _ _, _ =>
      .isFalse fun h => by rw [h.1] at hresync; cases hresync

/-! ### The reading -/

/-- What is under way is of each bound once, and turns it. -/
structure Judging (s : AlertTasks δ) : Prop where
  nodup : ∀ d ts, s.judging.unwritten = some (d, ts) → (ts.map AlertTransition.bound).Nodup
  apart : ∀ d t ts, s.judging = .written d t ts → t.bound ∉ ts.map AlertTransition.bound
  turns : s.attached = true → ∀ d ts, s.judging.unwritten = some (d, ts) → ∀ t ∈ ts,
    s.opened d t.bound = !decide (t.state = .breach)
  turned : s.attached = true → ∀ d t ts, s.judging = .written d t ts →
    s.opened d t.bound = (!decide (t.state = .breach)) ∧
      s.episodes d t.bound = decide (t.state = .breach)

section Reading
variable [DecidableEq δ] {s s' : AlertTasks δ} {d : δ} {b : AlertBound}

omit [DecidableEq δ] in
/-- The first of several transitions is not written yet. -/
theorem unwritten_next (d : δ) (ts : List AlertTransition) :
    (JudgeStage.next d ts).unwritten = if ts = [] then none else some (d, ts) := by
  cases ts <;> rfl

omit [DecidableEq δ] in
theorem next_ne_written {d d' : δ} {t : AlertTransition} {ts us : List AlertTransition} :
    JudgeStage.next d ts ≠ .written d' t us := by
  cases ts <;> rintro ⟨⟩

omit [DecidableEq δ] in
/-- Before its first transition, a reading has all of them to write. -/
theorem Judging.next (d : δ) {ts : List AlertTransition} (hjudging : s.judging = .next d ts)
    (hn : (ts.map AlertTransition.bound).Nodup)
    (hturns : s.attached = true → ∀ t ∈ ts, s.opened d t.bound = !decide (t.state = .breach)) :
    Judging s := by
  have hunwritten : ∀ d' us, s.judging.unwritten = some (d', us) → d' = d ∧ us = ts := by
    intro d' us h
    rw [hjudging, unwritten_next] at h
    split at h
    · cases h
    · cases h
      exact ⟨rfl, rfl⟩
  refine ⟨fun d' us h => ?_, fun d' t us h => ?_, fun ha d' us h => ?_, fun ha d' t us h => ?_⟩
  · obtain ⟨rfl, rfl⟩ := hunwritten d' us h
    exact hn
  · exact absurd (hjudging.symm.trans h) next_ne_written
  · obtain ⟨rfl, rfl⟩ := hunwritten d' us h
    exact hturns ha
  · exact absurd (hjudging.symm.trans h) next_ne_written

omit [DecidableEq δ] in
/-- A reading is judged by the mirror. -/
theorem Judging.reading (s : AlertTasks δ) (d : δ) (value : ℚ) (thresholds : Thresholds) :
    Judging { s with
      judging := .next d (evaluate value thresholds (s.opened d))
      attached := true } := by
  refine .next d rfl (nodup_evaluate value thresholds (s.opened d)) fun _ t ht => ?_
  have hstate := (mem_evaluate ht).2
  cases hopen : s.opened d t.bound <;> simp [hstate, hopen]

/-- **The reading's step**, by where it is. -/
inductive GoesOn (s : AlertTasks δ) : AlertTasks δ → Prop where
  | commits (d t ts) (hstage : s.judging = .writing d t ts)
      (htaken : s.episodes d t.bound = !decide (t.state = .breach)) :
      GoesOn s { s with
        episodes := setBound s.episodes d t.bound (decide (t.state = .breach))
        judging := .written d t ts }
  | follows (d t ts) (hstage : s.judging = .written d t ts) :
      GoesOn s { s with
        opened :=
          if s.attached then setBound s.opened d t.bound (decide (t.state = .breach)) else s.opened
        judging := .publishing d ts }
  | turns (d ts) (hstage : s.judging = .publishing d ts) :
      GoesOn s { s with judging := .next d ts }

/-- A step of the reading's task is one of `GoesOn`. -/
theorem go_goesOn (h : s.go = some s') : GoesOn s s' := by
  rw [AlertTasks.go] at h
  split at h
  · cases h
  · next d t ts hstage =>
      split at h
      · cases h
      · next htaken =>
          obtain rfl := Option.some.inj h
          exact .commits d t ts hstage (by simpa [Bool.eq_not] using htaken)
  · next d t ts hstage =>
      obtain rfl := Option.some.inj h
      exact .follows d t ts hstage
  · next d ts hstage =>
      obtain rfl := Option.some.inj h
      exact .turns d ts hstage

/-- To go on keeps what is in hand. -/
theorem Judging.go (h : Judging s) (hs : GoesOn s s') : Judging s' := by
  obtain ⟨hnodup, hapart, hturns, hturned⟩ := h
  cases hs with
  | commits d t ts hstage htaken =>
      have hunwritten : s.judging.unwritten = some (d, t :: ts) := by rw [hstage]; rfl
      obtain ⟨ht, hts⟩ := List.nodup_cons.mp (hnodup d (t :: ts) hunwritten)
      refine ⟨?_, ?_, fun ha => ?_, fun ha => ?_⟩
      · rintro _ _ ⟨⟩
        exact hts
      · rintro _ _ _ ⟨⟩
        exact ht
      · rintro _ _ ⟨⟩ u hu
        exact hturns ha d (t :: ts) hunwritten u (List.mem_cons_of_mem t hu)
      · rintro _ _ _ ⟨⟩
        exact ⟨hturns ha d (t :: ts) hunwritten t List.mem_cons_self, by simp [setBound]⟩
  | follows d t ts hstage =>
      have hunwritten : s.judging.unwritten = some (d, ts) := by rw [hstage]; rfl
      have ht := hapart d t ts hstage
      refine ⟨?_, by rintro _ _ _ ⟨⟩, fun ha => ?_, by rintro _ _ _ _ ⟨⟩⟩
      · rintro _ _ ⟨⟩
        exact hnodup d ts hunwritten
      · rintro _ _ ⟨⟩ u hu
        have ha : s.attached = true := ha
        have hne : u.bound ≠ t.bound := fun he => ht (he ▸ List.mem_map_of_mem hu)
        simpa [ha, setBound, hne] using hturns ha d ts hunwritten u hu
  | turns d ts hstage =>
      have hunwritten : s.judging.unwritten = some (d, ts) := by rw [hstage]; rfl
      exact .next d rfl (hnodup d ts hunwritten) fun ha => hturns ha d ts hunwritten

/-- **The gap** stays as it is while the reading goes on. -/
theorem gap_go (h : Judging s) (hs : GoesOn s s') (d : δ) (b : AlertBound) :
    s'.gap d b = s.gap d b := by
  obtain ⟨hnodup, hapart, hturns, hturned⟩ := h
  cases hs with
  | commits d₀ t ts hstage htaken =>
      have hunwritten : s.judging.unwritten = some (d₀, t :: ts) := by rw [hstage]; rfl
      obtain ⟨ht, -⟩ := List.nodup_cons.mp (hnodup d₀ (t :: ts) hunwritten)
      by_cases hself : d = d₀ ∧ b = t.bound
      · -- the record turns, and one transition less is to be written, or one more to be mirrored
        obtain ⟨rfl, rfl⟩ := hself
        have ht : ¬∃ u ∈ ts, u.bound = t.bound := by simpa using ht
        simp only [AlertTasks.gap, AlertTasks.toMirror, AlertTasks.toWrite, hstage,
          JudgeStage.unwritten, htaken, setBound]
        cases s.attached <;> cases s.opened d t.bound <;> simp [ht]
      · have hsame : (d₀ = d ∧ b ∈ (t :: ts).map AlertTransition.bound) ↔
            d₀ = d ∧ b ∈ ts.map AlertTransition.bound := by
          refine and_congr_right fun hd => ?_
          simp [show b ≠ t.bound from fun hb => hself ⟨hd.symm, hb⟩]
        have hmirror : ¬(d₀ = d ∧ t.bound = b) := fun hm => hself ⟨hm.1.symm, hm.2.symm⟩
        simp only [AlertTasks.gap, AlertTasks.toMirror, AlertTasks.toWrite, hstage,
          JudgeStage.unwritten, setBound, if_neg hself, Option.any_some, hsame, hmirror,
          decide_false]
  | follows d₀ t ts hstage =>
      by_cases hself : d = d₀ ∧ b = t.bound
      · obtain ⟨rfl, rfl⟩ := hself
        simp only [AlertTasks.gap, AlertTasks.toMirror, AlertTasks.toWrite, hstage,
          JudgeStage.unwritten]
        cases ha : s.attached with
        | false => simp
        | true => simp [setBound, (hturned ha d t ts hstage).1]
      · have hmirror : ¬(d₀ = d ∧ t.bound = b) := fun hm => hself ⟨hm.1.symm, hm.2.symm⟩
        simp only [AlertTasks.gap, AlertTasks.toMirror, AlertTasks.toWrite, hstage,
          JudgeStage.unwritten, hmirror, decide_false]
        cases s.attached <;> simp [setBound, hself]
  | turns d₀ ts hstage =>
      simp only [AlertTasks.gap, AlertTasks.toMirror, AlertTasks.toWrite, hstage,
        JudgeStage.unwritten]
      cases ts <;> simp [JudgeStage.next]

/-- **And as one begins.** -/
theorem gap_reading (hidle : s.judging = .idle) (d₀ : δ) (ts : List AlertTransition) (d : δ)
    (b : AlertBound) :
    AlertTasks.gap { s with judging := .next d₀ ts, attached := true } d b = s.gap d b := by
  have hmirror :
      AlertTasks.toMirror { s with judging := .next d₀ ts, attached := true } d b = false := by
    cases ts <;> rfl
  have hbefore : s.toMirror d b = false := by simp [AlertTasks.toMirror, hidle]
  have hwrite : s.toWrite d b = false := by simp [AlertTasks.toWrite, hidle, JudgeStage.unwritten]
  simp [AlertTasks.gap, hmirror, hbefore, hwrite]

end Reading

/-! ### The resync -/

/-- Until the map is replaced, the reading holds one of its sets, and of each bound that has changed
since it was copied it is what the record says, or about to be. -/
structure Resyncing (s : AlertTasks δ) [DecidableEq δ] : Prop where
  judging : Judging s
  attached : s.resyncing ≠ .done → s.attached = true
  changed : ∀ before,
    (s.resyncing = .loading before ∨ ∃ fresh, s.resyncing = .loaded before fresh) →
    ∀ d b, s.opened d b ≠ before d b → (s.opened d b ^^ s.toMirror d b) = s.episodes d b

variable [DecidableEq δ] {s s' : AlertTasks δ}

/-- A transition that is under way is to be written or to be mirrored. -/
theorem Judging.not_both (h : Judging s) (d : δ) (b : AlertBound) (hw : s.toWrite d b = true) :
    s.toMirror d b = false := by
  cases hstage : s.judging with
  | written d' t ts =>
      simp only [AlertTasks.toWrite, AlertTasks.toMirror, hstage, JudgeStage.unwritten,
        Option.any_some, decide_eq_true_eq, decide_eq_false_iff_not] at hw ⊢
      rintro ⟨-, rfl⟩
      exact h.apart d' t ts hstage hw.2
  | idle => simp [AlertTasks.toMirror, hstage]
  | writing d' t ts => simp [AlertTasks.toMirror, hstage]
  | publishing d' ts => simp [AlertTasks.toMirror, hstage]

/-- **What the resync leaves** of the gap: nothing, of a bound of which it is undisturbed. -/
theorem replace_gap {before fresh : δ → AlertBound → Bool} (h : Resyncing s)
    (hstage : s.resyncing = .loaded before fresh) (d : δ) (b : AlertBound) :
    AlertTasks.gap { s with
        opened := reconcile before s.opened fresh
        resyncing := .done
        attached := false } d b = false ↔
      (s.opened d b ≠ before d b → s.toWrite d b = false ∧ s.toMirror d b = false) ∧
      (s.opened d b = before d b → (s.episodes d b = fresh d b ↔ s.toWrite d b = false)) := by
  have hboth := h.judging.not_both d b
  have hchanged := h.changed before (.inr ⟨fresh, hstage⟩) d b
  have hwrite : AlertTasks.toWrite { s with
      opened := reconcile before s.opened fresh, resyncing := .done, attached := false } d b =
      s.toWrite d b := rfl
  simp only [AlertTasks.gap, Bool.false_and, Bool.xor_false, Bool.not_false, Bool.true_and, hwrite,
    reconcile]
  revert hboth hchanged
  cases s.toWrite d b <;> cases s.toMirror d b <;> cases s.opened d b <;> cases before d b <;>
    cases fresh d b <;> cases s.episodes d b <;> simp

/-! ### Every step -/

/-- A step of a reading whose set is the map's leaves a bound as it is, or right. -/
theorem right_or_same_go (h : Judging s) (ha : s.attached = true) (hs : GoesOn s s') (d : δ)
    (b : AlertBound) : (s'.opened d b ^^ s'.toMirror d b) = s'.episodes d b ∨
      s'.opened d b = s.opened d b ∧ s'.toMirror d b = s.toMirror d b ∧
        s'.episodes d b = s.episodes d b := by
  cases hs with
  | commits d₀ t ts hstage htaken =>
      have hturns := h.turns ha d₀ (t :: ts) (by rw [hstage]; rfl) t List.mem_cons_self
      by_cases hself : d = d₀ ∧ b = t.bound
      · obtain ⟨rfl, rfl⟩ := hself
        exact .inl (by simp [AlertTasks.toMirror, setBound, hturns])
      · have hmirror : ¬(d₀ = d ∧ t.bound = b) := fun hm => hself ⟨hm.1.symm, hm.2.symm⟩
        refine .inr ⟨rfl, ?_, if_neg hself⟩
        simp only [AlertTasks.toMirror, hstage, hmirror, decide_false]
  | follows d₀ t ts hstage =>
      have hturned := h.turned ha d₀ t ts hstage
      by_cases hself : d = d₀ ∧ b = t.bound
      · obtain ⟨rfl, rfl⟩ := hself
        exact .inl (by simp [AlertTasks.toMirror, setBound, ha, hturned])
      · have hmirror : ¬(d₀ = d ∧ t.bound = b) := fun hm => hself ⟨hm.1.symm, hm.2.symm⟩
        refine .inr ⟨by simp [ha, setBound, hself], ?_, rfl⟩
        simp only [AlertTasks.toMirror, hstage, hmirror, decide_false]
  | turns d₀ ts hstage =>
      refine .inr ⟨rfl, ?_, rfl⟩
      simp only [AlertTasks.toMirror, hstage]
      cases ts <;> rfl

/-- The reading's task leaves the resync where it is. -/
theorem GoesOn.stage (hs : GoesOn s s') :
    s'.resyncing = s.resyncing ∧ s'.attached = s.attached := by
  cases hs <;> exact ⟨rfl, rfl⟩

/-- What a bound that has changed comes to is right until the map is replaced. -/
theorem resyncing_step {a : ResyncAction δ} (h : Resyncing s)
    (hs : (alertTasks δ).step s a = some s') : Resyncing s' := by
  obtain ⟨hjudging, hattached, hchanged⟩ := h
  cases a with
  | resync =>
      simp only [alertTasks, AlertTasks.step] at hs
      split at hs
      · next hwaiting =>
          obtain rfl := Option.some.inj hs
          obtain ⟨hnodup, hapart, hturns, hturned⟩ := hjudging
          have ha : s.attached = true := hattached (by rw [hwaiting]; simp)
          refine ⟨⟨hnodup, hapart, hturns, hturned⟩, fun _ => ha, ?_⟩
          rintro _ (⟨⟨⟩⟩ | ⟨_, ⟨⟩⟩) d b hne
          exact absurd rfl hne
      · cases hs
  | load =>
      simp only [alertTasks, AlertTasks.step] at hs
      split at hs
      · next before hloading =>
          obtain rfl := Option.some.inj hs
          obtain ⟨hnodup, hapart, hturns, hturned⟩ := hjudging
          have ha : s.attached = true := hattached (by rw [hloading]; simp)
          refine ⟨⟨hnodup, hapart, hturns, hturned⟩, fun _ => ha, ?_⟩
          rintro _ (⟨⟨⟩⟩ | ⟨_, ⟨⟩⟩)
          exact hchanged before (.inl hloading)
      · cases hs
  | replace =>
      simp only [alertTasks, AlertTasks.step] at hs
      split at hs
      · obtain rfl := Option.some.inj hs
        obtain ⟨hnodup, hapart, -, -⟩ := hjudging
        refine ⟨⟨hnodup, hapart, by rintro ⟨⟩, by rintro ⟨⟩⟩, fun hne => absurd rfl hne, ?_⟩
        rintro _ (⟨⟨⟩⟩ | ⟨_, ⟨⟩⟩)
      · cases hs
  | reading d value thresholds =>
      simp only [alertTasks, AlertTasks.step] at hs
      split at hs
      · next hidle =>
          obtain rfl := Option.some.inj hs
          refine ⟨.reading s d value thresholds, fun _ => rfl, fun before hb d' b hne => ?_⟩
          have hsame := hchanged before hb d' b hne
          have hbefore : s.toMirror d' b = false := by simp [AlertTasks.toMirror, hidle]
          rw [hbefore] at hsame
          rw [← hsame]
          refine congrArg (s.opened d' b ^^ ·) ?_
          rw [AlertTasks.toMirror]
          split
          · next hw => exact absurd hw next_ne_written
          · rfl
      · cases hs
  | go =>
      have hgoes := go_goesOn hs
      obtain ⟨hresyncing, hset⟩ := hgoes.stage
      have hset : s'.resyncing ≠ .done → s'.attached = true := by
        rw [hresyncing, hset]
        exact hattached
      refine ⟨hjudging.go hgoes, hset, fun before hb d b hne => ?_⟩
      rw [hresyncing] at hb
      have ha : s.attached = true := hattached (by obtain hb | ⟨_, hb⟩ := hb <;> rw [hb] <;> simp)
      obtain hright | ⟨hopened, hmirror, hepisodes⟩ := right_or_same_go hjudging ha hgoes d b
      · exact hright
      · rw [hopened] at hne ⊢
        rw [hmirror, hepisodes]
        exact hchanged before hb d b hne

/-- **After the resync** the gap stays what it is. -/
theorem gap_step {a : ResyncAction δ} (h : Judging s) (hdone : s.resyncing = .done)
    (hs : (alertTasks δ).step s a = some s') :
    s'.resyncing = .done ∧ ∀ d b, s'.gap d b = s.gap d b := by
  cases a with
  | resync => simp [alertTasks, AlertTasks.step, hdone] at hs
  | load => simp [alertTasks, AlertTasks.step, hdone] at hs
  | replace => simp [alertTasks, AlertTasks.step, hdone] at hs
  | reading d value thresholds =>
      simp only [alertTasks, AlertTasks.step] at hs
      split at hs
      · next hidle =>
          obtain rfl := Option.some.inj hs
          exact ⟨hdone, gap_reading hidle d _⟩
      · cases hs
  | go =>
      have hgoes := go_goesOn hs
      exact ⟨hgoes.stage.1.trans hdone, gap_go h hgoes⟩

/-- **The step that replaces the map** closes every gap exactly if it is undisturbed. -/
theorem replace_iff (h : Resyncing s) (hs : (alertTasks δ).step s .replace = some s') :
    s'.resyncing = .done ∧ (UndisturbedResync s .replace ↔ ∀ d b, s'.gap d b = false) := by
  simp only [alertTasks, AlertTasks.step] at hs
  split at hs
  · next before fresh hstage =>
      obtain rfl := Option.some.inj hs
      refine ⟨rfl, fun hC d b => (replace_gap h hstage d b).mpr (hC before fresh hstage d b), ?_⟩
      intro hgap before' fresh' hstage' d b
      cases hstage.symm.trans hstage'
      exact (replace_gap h hstage d b).mp (hgap d b)
  · cases hs

omit [DecidableEq δ] in
/-- When both have finished, the gap is what the map and the record differ in. -/
theorem AlertTasks.Finished.gap [DecidableEq δ] (h : s.Finished) (d : δ) (b : AlertBound) :
    s.gap d b = (s.opened d b ^^ s.episodes d b) := by
  simp [AlertTasks.gap, AlertTasks.toMirror, AlertTasks.toWrite, h.2, JudgeStage.unwritten]

/-- At rest nothing is in hand. -/
theorem resyncing_resting (episodes opened : δ → AlertBound → Bool) :
    Resyncing (.resting episodes opened) :=
  ⟨⟨by rintro _ _ ⟨⟩, by rintro _ _ _ ⟨⟩, by rintro _ _ _ ⟨⟩, by rintro _ _ _ _ ⟨⟩⟩, fun _ => rfl,
    by rintro _ (⟨⟨⟩⟩ | ⟨_, ⟨⟩⟩)⟩

/-- The map is replaced in one step, and nothing else ends the resync. -/
theorem done_replace {a : ResyncAction δ} (h : s.resyncing ≠ .done) (h' : s'.resyncing = .done)
    (hs : (alertTasks δ).step s a = some s') : a = .replace := by
  cases a with
  | replace => rfl
  | resync =>
      simp only [alertTasks, AlertTasks.step] at hs
      split at hs
      · obtain rfl := Option.some.inj hs
        cases h'
      · cases hs
  | load =>
      simp only [alertTasks, AlertTasks.step] at hs
      split at hs
      · obtain rfl := Option.some.inj hs
        cases h'
      · cases hs
  | reading d value thresholds =>
      simp only [alertTasks, AlertTasks.step] at hs
      split at hs
      · obtain rfl := Option.some.inj hs
        exact absurd h' h
      · cases hs
  | go => exact absurd ((go_goesOn hs).stage.1.symm.trans h') h

/-- **Resync**, whatever the map and the record say at first: when both tasks have finished, the
map is what the record says exactly if the resync was undisturbed as it replaced the map. -/
theorem resync_loses_nothing_iff (episodes opened : δ → AlertBound → Bool)
    {as : List (ResyncAction δ)} {q : AlertTasks δ}
    (h : (alertTasks δ).Run (.resting episodes opened) as q) (hq : q.Finished) :
    (∀ d b, q.opened d b = q.episodes d b) ↔
      (alertTasks δ).RunIf UndisturbedResync (.resting episodes opened) as q := by
  have hgap : ∀ d b, q.gap d b = false ↔ q.opened d b = q.episodes d b := by
    intro d b
    rw [hq.gap]
    simp
  have hgood : ∀ s a s', UndisturbedResync s a →
      (Resyncing s ∧ (s.resyncing = .done → ∀ d b, s.gap d b = false)) →
      (alertTasks δ).step s a = some s' →
      Resyncing s' ∧ (s'.resyncing = .done → ∀ d b, s'.gap d b = false) := by
    rintro s a s' hC ⟨hI, hclosed⟩ hs
    refine ⟨resyncing_step hI hs, fun hdone' d b => ?_⟩
    by_cases hdone : s.resyncing = .done
    · rw [(gap_step hI.judging hdone hs).2, hclosed hdone]
    · obtain rfl := done_replace hdone hdone' hs
      exact (replace_iff hI hs).2.mp hC d b
  have hstart : Resyncing (AlertTasks.resting episodes opened) ∧
      ((AlertTasks.resting episodes opened).resyncing = .done →
        ∀ d b, (AlertTasks.resting episodes opened).gap d b = false) :=
    ⟨resyncing_resting episodes opened, by rintro ⟨⟩⟩
  constructor
  · intro hsame
    -- a gap that the resync leaves is there to the end
    refine h.of_not_bad (B := fun s => Resyncing s ∧ s.resyncing = .done ∧ ∃ d b, s.gap d b = true)
      hstart hgood ?_ ?_ ?_
    · rintro s a s' hC ⟨hI, -⟩ hs
      obtain rfl : a = .replace := by
        cases a with
        | replace => rfl
        | _ => exact absurd trivial hC
      obtain ⟨hdone, hiff⟩ := replace_iff hI hs
      refine ⟨resyncing_step hI hs, hdone, ?_⟩
      have hopen : ¬∀ d b, s'.gap d b = false := fun hall => hC (hiff.mpr hall)
      push Not at hopen
      simpa using hopen
    · rintro s a s' ⟨hI, hdone, d, b, hopen⟩ hs
      obtain ⟨hdone', hkept⟩ := gap_step hI.judging hdone hs
      exact ⟨resyncing_step hI hs, hdone', d, b, (hkept d b).trans hopen⟩
    · rintro ⟨-, -, d, b, hopen⟩
      rw [(hgap d b).mpr (hsame d b)] at hopen
      cases hopen
  · intro hif d b
    exact (hgap d b).mp ((hif.invariant hstart hgood).2 hq.1 d b)

/-- Above 26 is a breach. -/
def resyncBand : Thresholds :=
  ⟨none, some 26, 1 / 2, half_degree_pos, reachable_without_minimum⟩

/-- A breach that begins and is mirrored after the copy and before the record is read. -/
theorem resync_loses_nothing_breach : ∃ q : AlertTasks Unit,
    (alertTasks Unit).RunIf UndisturbedResync (.resting (fun _ _ => false) fun _ _ => false)
      [.resync, .reading () 27 resyncBand, .go, .go, .go, .load, .replace] q ∧
    q.opened () .max = true := by
  have hrun : ((alertTasks Unit).exec (.resting (fun _ _ => false) fun _ _ => false)
      [.resync, .reading () 27 resyncBand, .go, .go, .go, .load, .replace]).map
        (fun q => (decide q.Finished, [AlertBound.min, .max].map fun b =>
          (q.opened () b, q.episodes () b))) =
      some (true, [(false, false), (true, true)]) := by decide +kernel
  obtain ⟨q, hexec, hresult⟩ := Option.map_eq_some_iff.mp hrun
  obtain ⟨hfinished, hbounds⟩ := Prod.mk.inj hresult
  simp only [List.map_cons, List.map_nil, List.cons.injEq, Prod.mk.injEq] at hbounds
  obtain ⟨⟨hmin, hmin'⟩, ⟨hmax, hmax'⟩, -⟩ := hbounds
  have h := Machine.exec_eq_some.mp hexec
  refine ⟨q, (resync_loses_nothing_iff _ _ h (of_decide_eq_true hfinished)).mp ?_, hmax⟩
  rintro ⟨⟩ (_ | _)
  · exact hmin.trans hmin'.symm
  · exact hmax.trans hmax'.symm

/-- A breach that is written after the record has been read and mirrored after the map has been
replaced: the record has it, and the map has not. -/
theorem not_resync_loses_nothing : ∃ q : AlertTasks Unit,
    (alertTasks Unit).Run (.resting (fun _ _ => false) fun _ _ => false)
      [.resync, .load, .reading () 27 resyncBand, .go, .replace, .go, .go] q ∧ q.Finished ∧
    q.episodes () .max = true ∧ q.opened () .max = false := by
  have hrun : ((alertTasks Unit).exec (.resting (fun _ _ => false) fun _ _ => false)
      [.resync, .load, .reading () 27 resyncBand, .go, .replace, .go, .go]).map
        (fun q => (decide q.Finished, q.episodes () .max, q.opened () .max)) =
      some (true, true, false) := by decide +kernel
  obtain ⟨q, hexec, hresult⟩ := Option.map_eq_some_iff.mp hrun
  obtain ⟨hfinished, hends⟩ := Prod.mk.inj hresult
  obtain ⟨hepisodes, hopened⟩ := Prod.mk.inj hends
  exact ⟨q, Machine.exec_eq_some.mp hexec, of_decide_eq_true hfinished, hepisodes, hopened⟩

end BellasReef.ControlEngine
