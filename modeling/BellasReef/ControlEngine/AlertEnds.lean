import BellasReef.ControlEngine.SilenceExact
import BellasReef.ControlEngine.SilenceFaults
import Mathlib.Tactic.NormNum

/-!
# ControlEngine — Alert ends

Whether a recovery ends its alert, by a wall clock that goes back and forth.  The record takes no
clear that is stamped before the raise, and what it does not take raises: the reading is dropped
before its transitions that follow, and after a silence before its thresholds are evaluated.

* `applyAll_append`: the loop over the transitions, from one part to the next.
* `closes_iff`: which transitions of a reading close their episodes.
* `recovery_ends_iff`: recoveries end their alerts exactly in the runs whose clocks and messages let
  them.
-/

namespace BellasReef.ControlEngine
open BellasReef.Support

variable {δ : Type}

/-- The reading has come back from beyond the bound, by the margin. -/
def Thresholds.recovers (t : Thresholds) (b : AlertBound) (value : ℚ) : Prop :=
  match b with
  | .min => ∃ minimum, t.minimum = some minimum ∧ minimum + t.clearMargin ≤ value
  | .max => ∃ maximum, t.maximum = some maximum ∧ value ≤ maximum - t.clearMargin

/-- The store takes all that its constraints let it take; messages may be lost. -/
def StoreReachable : AlertingAction δ → Prop
  | .sweep _ fates => fates.cadences = true ∧ ∀ d, fates.raise d = .succeeds
  | .reading _ _ calls => calls.silence.clear = .succeeds ∧ calls.silence.cadences = true ∧
      calls.bands = true ∧ calls.resync = true ∧ ∀ b, calls.write b = .succeeds
  | _ => True

/-- The band that a reading is judged by, and the mirror. -/
def Alerting.bandFor (refreshS : ℚ) (s : Alerting δ) (calls : ReadingCalls) (d : δ) :
    Option Thresholds :=
  if calls.monotonic - s.thresholdsReadAt < refreshS then s.thresholds d
  else (s.bands d).filter Thresholds.configured

/-- What `_opened` answers of a bound: a refresh, if one is due, has just replaced it. -/
def Alerting.mirrorFor (refreshS : ℚ) (s : Alerting δ) (calls : ReadingCalls) (d : δ)
    (b : AlertBound) : Bool :=
  if calls.monotonic - s.thresholdsReadAt < refreshS then s.opened d b else (s.episodes d b).isSome

section Ends
variable [DecidableEq δ]

/-- The record takes the transition, and its message gets out. -/
def Alerting.goesThrough (s : Alerting δ) (d : δ) (calls : ReadingCalls) (t : AlertTransition) :
    Prop :=
  (s.write d t (calls.emittedAt t.bound)).isSome ∧ calls.publish t.bound = true

/-- A good reading closes the silence of its probe and each open episode that it recovers from, and
one that ends a silence is evaluated. -/
def EndsAlerts (refreshS : ℚ) (s : Alerting δ) (a : AlertingAction δ) : Prop :=
  ∀ s', (alerting δ refreshS).step s a = some s' →
    match a with
    | .reading r _ calls => ∀ value, r.evaluable = some value →
        ((s.watch.episodes r.sensorId).isSome → s'.watch.episodes r.sensorId = none ∧
          ∀ t, s.bandFor refreshS calls r.sensorId = some t → t.configured = true →
            s'.judged = s.judged ++ [(r, t)]) ∧
        ∀ t, s.bandFor refreshS calls r.sensorId = some t → ∀ b,
          (s.episodes r.sensorId b).isSome → t.recovers b value → s'.episodes r.sensorId b = none
    | _ => True

/-- A good reading is stamped no earlier than the silence of its probe was raised, and the message of
its clear gets out if there is a band; each open episode that it recovers from was raised no later
than the clear is stamped; and of the high bound, the transition of the low one goes through before. -/
def LetsEnd (refreshS : ℚ) (s : Alerting δ) : AlertingAction δ → Prop
  | .reading r _ calls => ∀ value, r.evaluable = some value →
      (∀ e, s.watch.episodes r.sensorId = some e → e.raisedAt ≤ calls.heardAt ∧
        ∀ t, s.bandFor refreshS calls r.sensorId = some t → t.configured = true →
          calls.silence.publish = true) ∧
      ∀ t, s.bandFor refreshS calls r.sensorId = some t → ∀ b raisedAt,
        s.episodes r.sensorId b = some raisedAt → t.recovers b value →
          raisedAt ≤ calls.emittedAt b ∧
          (b = .max → ∀ low ∈ evaluate value t (s.mirrorFor refreshS calls r.sensorId),
            low.bound = .min → s.goesThrough r.sensorId calls low)
  | _ => True

end Ends

/-! ### The transitions of one reading -/

section Transitions
variable [DecidableEq δ] {s s' : Alerting δ} {d d' : δ} {b : AlertBound} {calls : ReadingCalls}
  {t : AlertTransition} {ts us : List AlertTransition} {emittedAt : ℚ}

theorem setEpisode_self {raisedAt : Option ℚ} :
    (s.setEpisode d b raisedAt).episodes d b = raisedAt := by
  simp [Alerting.setEpisode]

theorem setEpisode_other {b' : AlertBound} {raisedAt : Option ℚ} (h : ¬(d' = d ∧ b' = b)) :
    (s.setEpisode d b raisedAt).episodes d' b' = s.episodes d' b' := by
  by_cases hd : d' = d
  · subst hd
    have hb : b' ≠ b := fun hb => h ⟨rfl, hb⟩
    simp [Alerting.setEpisode, hb]
  · simp [Alerting.setEpisode, hd]

/-- What the record takes: a raise where nothing is open, and a clear of what began before. -/
theorem write_eq_some : s.write d t emittedAt = some s' ↔
    (t.state = .breach ∧ s.episodes d t.bound = none ∧
      s' = s.setEpisode d t.bound (some emittedAt)) ∨
    t.state = .clear ∧ ∃ raisedAt, s.episodes d t.bound = some raisedAt ∧ raisedAt ≤ emittedAt ∧
      s' = s.setEpisode d t.bound none := by
  cases hst : t.state <;> cases he : s.episodes d t.bound <;>
    simp [Alerting.write, hst, he, eq_comm]

/-- One turn of the loop, the store being there. -/
theorem applyAll_cons (hw : ∀ b, calls.write b = .succeeds) :
    Alerting.applyAll d calls (t :: ts) s =
      match s.write d t (calls.emittedAt t.bound) with
      | none => (s, false)
      | some s' =>
          if calls.publish t.bound then Alerting.applyAll d calls ts (s'.mirror d t)
          else (s'.mirror d t, false) := by
  rw [Alerting.applyAll, hw]
  cases s.write d t (calls.emittedAt t.bound) <;> rfl

/-- **The loop** goes on with the rest if it has come to the end of the first part. -/
theorem applyAll_append (hw : ∀ b, calls.write b = .succeeds) :
    Alerting.applyAll d calls (ts ++ us) s =
      if (Alerting.applyAll d calls ts s).2 then
        Alerting.applyAll d calls us (Alerting.applyAll d calls ts s).1
      else Alerting.applyAll d calls ts s := by
  induction ts generalizing s with
  | nil => rfl
  | cons t ts ih =>
      rw [List.cons_append, applyAll_cons hw, applyAll_cons hw]
      cases s.write d t (calls.emittedAt t.bound) with
      | none => rfl
      | some s' =>
          simp only
          split
          · exact ih
          · rfl

/-- It concerns the bounds that it has transitions of. -/
theorem applyAll_other (hw : ∀ b, calls.write b = .succeeds)
    (h : ¬(d' = d ∧ ∃ t ∈ ts, t.bound = b)) :
    (Alerting.applyAll d calls ts s).1.episodes d' b = s.episodes d' b := by
  induction ts generalizing s with
  | nil => rfl
  | cons t ts ih =>
      have hhead : ¬(d' = d ∧ b = t.bound) := fun ⟨hd, hb⟩ =>
        h ⟨hd, t, List.mem_cons_self, hb.symm⟩
      have htail : ¬(d' = d ∧ ∃ t ∈ ts, t.bound = b) := fun ⟨hd, u, hu, hb⟩ =>
        h ⟨hd, u, List.mem_cons_of_mem t hu, hb⟩
      rw [applyAll_cons hw]
      cases hwrite : s.write d t (calls.emittedAt t.bound) with
      | none => rfl
      | some s' =>
          have hsame : (s'.mirror d t).episodes d' b = s.episodes d' b := by
            obtain ⟨-, -, rfl⟩ | ⟨-, -, -, -, rfl⟩ := write_eq_some.mp hwrite
            · exact setEpisode_other hhead
            · exact setEpisode_other hhead
          simp only
          split
          · exact (ih htail).trans hsame
          · exact hsame

theorem applyAll_one (hw : ∀ b, calls.write b = .succeeds) :
    (Alerting.applyAll d calls [t] s).2 = true ↔ s.goesThrough d calls t := by
  rw [applyAll_cons hw, Alerting.goesThrough]
  cases s.write d t (calls.emittedAt t.bound) with
  | none => simp
  | some s' => cases hp : calls.publish t.bound <;> simp [Alerting.applyAll]

/-- A clear that the loop comes to closes its episode if it is stamped no earlier than the raise. -/
theorem applyAll_clear (hw : ∀ b, calls.write b = .succeeds) {raisedAt : ℚ}
    (ht : t.state = .clear) (hopen : s.episodes d t.bound = some raisedAt)
    (hts : ∀ u ∈ ts, u.bound ≠ t.bound) :
    (Alerting.applyAll d calls (t :: ts) s).1.episodes d t.bound = none ↔
      raisedAt ≤ calls.emittedAt t.bound := by
  rw [applyAll_cons hw]
  by_cases hle : raisedAt ≤ calls.emittedAt t.bound
  · rw [write_eq_some.mpr (.inr ⟨ht, raisedAt, hopen, hle, rfl⟩)]
    refine iff_of_true ?_ hle
    simp only
    split
    · rw [applyAll_other hw fun ⟨_, u, hu, hb⟩ => hts u hu hb]
      exact setEpisode_self
    · exact setEpisode_self
  · have hrefused : s.write d t (calls.emittedAt t.bound) = none := by
      simp [Alerting.write, ht, hopen, hle]
    rw [hrefused]
    exact iff_of_false (by simp [hopen]) hle

/-- The mirror has each open episode, and one more or less follows. -/
theorem applyAll_opened (hw : ∀ b, calls.write b = .succeeds)
    (h : ∀ d b, (s.episodes d b).isSome → s.opened d b = true) (d' : δ) (b : AlertBound)
    (hb : ((Alerting.applyAll d calls ts s).1.episodes d' b).isSome) :
    (Alerting.applyAll d calls ts s).1.opened d' b = true := by
  induction ts generalizing s with
  | nil => exact h d' b hb
  | cons t ts ih =>
      rw [applyAll_cons hw] at hb ⊢
      cases hwrite : s.write d t (calls.emittedAt t.bound) with
      | none =>
          rw [hwrite] at hb
          exact h d' b hb
      | some s₁ =>
          have hmirror : ∀ d' b, ((s₁.mirror d t).episodes d' b).isSome →
              (s₁.mirror d t).opened d' b = true := by
            intro d' b hb
            by_cases hself : d' = d ∧ b = t.bound
            · obtain ⟨rfl, rfl⟩ := hself
              obtain ⟨hstate, -, rfl⟩ | ⟨-, -, -, -, rfl⟩ := write_eq_some.mp hwrite
              · simp [Alerting.mirror, setBound, hstate]
              · simp [Alerting.mirror, setEpisode_self] at hb
            · have hsame : (s₁.episodes d' b).isSome = (s.episodes d' b).isSome ∧
                  s₁.opened = s.opened := by
                obtain ⟨-, -, rfl⟩ | ⟨-, -, -, -, rfl⟩ := write_eq_some.mp hwrite
                · exact ⟨by rw [setEpisode_other hself], rfl⟩
                · exact ⟨by rw [setEpisode_other hself], rfl⟩
              have hb : (s₁.episodes d' b).isSome := hb
              simpa [Alerting.mirror, setBound, hself, hsame.2] using h d' b (hsame.1 ▸ hb)
          rw [hwrite] at hb
          simp only at hb ⊢
          split at hb
          · next hp => rw [if_pos hp]; exact ih hmirror hb
          · next hp => rw [if_neg hp]; exact hmirror d' b hb

/-- A reading that recovers from an open bound is to clear it. -/
theorem clear_mem_evaluate {value : ℚ} {t : Thresholds} {o : AlertBound → Bool}
    (h : t.recovers b value) (ho : o b = true) :
    ∃ change ∈ evaluate value t o, change.bound = b ∧ change.state = .clear := by
  cases b with
  | min =>
      obtain ⟨minimum, hmin, hle⟩ := h
      exact ⟨⟨.min, .clear, value, minimum⟩, by simp [evaluate, hmin, ho, hle], rfl, rfl⟩
  | max =>
      obtain ⟨maximum, hmax, hle⟩ := h
      exact ⟨⟨.max, .clear, value, maximum⟩, by simp [evaluate, hmax, ho, hle], rfl, rfl⟩

/-- **Which open episodes a reading closes**, of those that it recovers from. -/
theorem closes_iff (hw : ∀ b, calls.write b = .succeeds) {value raisedAt : ℚ} {t : Thresholds}
    {o : AlertBound → Bool} (hopen : s.episodes d b = some raisedAt) (ho : o b = true)
    (h : t.recovers b value) :
    (Alerting.applyAll d calls (evaluate value t o) s).1.episodes d b = none ↔
      raisedAt ≤ calls.emittedAt b ∧ (b = .max → ∀ low ∈ evaluate value t o,
        low.bound = .min → s.goesThrough d calls low) := by
  obtain ⟨change, hmem, rfl, hclear⟩ := clear_mem_evaluate h ho
  obtain ⟨lows, highs, heq, hlows, hhighs⟩ := evaluate_eq_append value t o
  rw [heq] at hmem ⊢
  have hhigh : ∀ high ∈ highs, high.bound = .max := fun high hh => by
    obtain rfl | ⟨_, rfl, hb⟩ := hhighs
    · cases hh
    · rwa [List.mem_singleton.mp hh]
  obtain hmem | hmem := List.mem_append.mp hmem
  · -- of the low bound, which comes first
    obtain rfl | ⟨low, rfl, hmin⟩ := hlows
    · cases hmem
    · obtain rfl := List.mem_singleton.mp hmem
      have hne : ∀ high ∈ highs, high.bound ≠ change.bound := fun high hh => by
        rw [hhigh high hh, hmin]
        simp
      rw [List.singleton_append, applyAll_clear hw hclear hopen hne]
      simp [hmin]
  · -- of the high bound, after what there is of the low one
    have hmax := hhigh change hmem
    obtain rfl | ⟨high, rfl, -⟩ := hhighs
    · cases hmem
    · obtain rfl := List.mem_singleton.mp hmem
      obtain rfl | ⟨low, rfl, hmin⟩ := hlows
      · rw [List.nil_append, applyAll_clear hw hclear hopen (by simp)]
        simp [hmax]
      · have hthrough := applyAll_one (d := d) (s := s) (t := low) hw
        have hother : (Alerting.applyAll d calls [low] s).1.episodes d change.bound =
            some raisedAt := by
          rw [applyAll_other hw (by simp [hmin, hmax]), hopen]
        rw [applyAll_append hw]
        split
        · next hgo =>
            rw [applyAll_clear hw hclear hother (by simp)]
            simp [hmax, hmin, hthrough.mp hgo]
        · next hstop =>
            refine iff_of_false (by simp [hother]) fun hC => hstop (hthrough.mpr ?_)
            exact hC.2 hmax low (by simp) hmin

end Transitions

/-! ### One reading -/

variable [DecidableEq δ] {s s' : Alerting δ} {d : δ} {calls : ReadingCalls} {refreshS : ℚ}
  {r : SensorReading δ} {value : ℚ}

omit [DecidableEq δ] in
/-- What the refresh of a reading leaves, the store being there. -/
theorem refresh_eq (refreshS : ℚ) (s : Alerting δ) (hb : calls.bands = true)
    (hr : calls.resync = true) :
    (s.refresh refreshS calls).1.thresholds = s.bandFor refreshS calls ∧
      (s.refresh refreshS calls).1.opened = s.mirrorFor refreshS calls ∧
      (s.refresh refreshS calls).1.episodes = s.episodes := by
  rw [Alerting.refresh, if_pos hb, if_pos hr]
  by_cases hdue : calls.monotonic - s.thresholdsReadAt < refreshS
  · rw [if_pos hdue]
    refine ⟨funext fun d => ?_, funext fun d => funext fun b => ?_, rfl⟩
    · simp [Alerting.bandFor, hdue]
    · simp [Alerting.mirrorFor, hdue]
  · rw [if_neg hdue]
    refine ⟨funext fun d => ?_, funext fun d => funext fun b => ?_, rfl⟩
    · simp [Alerting.bandFor, hdue]
    · simp [Alerting.mirrorFor, hdue, reconcile_self]

omit [DecidableEq δ] in
/-- A mirror that has each open episode has it after the refresh, too. -/
theorem mirrorFor_of_open (hm : ∀ d b, (s.episodes d b).isSome → s.opened d b = true)
    {b : AlertBound} (hopen : (s.episodes d b).isSome) :
    s.mirrorFor refreshS calls d b = true := by
  rw [Alerting.mirrorFor]
  split
  · exact hm d b hopen
  · exact hopen

/-- Whether a transition goes through is a matter of the open episodes. -/
theorem goesThrough_congr (h : s'.episodes = s.episodes) {t : AlertTransition} :
    s'.goesThrough d calls t ↔ s.goesThrough d calls t := by
  refine and_congr_left fun _ => ?_
  cases hst : t.state <;> cases he : s.episodes d t.bound <;> simp [Alerting.write, hst, he, h]

/-- A band has the bounds that it has recoveries from. -/
theorem Thresholds.recovers.configured {t : Thresholds} {b : AlertBound} (h : t.recovers b value) :
    t.configured = true := by
  cases b with
  | min =>
      obtain ⟨minimum, hmin, -⟩ := h
      simp [Thresholds.configured, hmin]
  | max =>
      obtain ⟨maximum, hmax, -⟩ := h
      simp [Thresholds.configured, hmax]

/-- **What is judged** ends the episodes that it recovers from, where it is let to. -/
theorem judge_closes (hw : ∀ b, calls.write b = .succeeds) (hvalue : r.evaluable = some value)
    (hs : s.watch.watcher.silent r.sensorId = false)
    (hm : ∀ d b, (s.episodes d b).isSome → s.opened d b = true) :
    (∀ t, s.thresholds r.sensorId = some t → ∀ b, (s.episodes r.sensorId b).isSome →
        t.recovers b value → (s.judge r calls).episodes r.sensorId b = none) ↔
      ∀ t, s.thresholds r.sensorId = some t → ∀ b raisedAt,
        s.episodes r.sensorId b = some raisedAt → t.recovers b value →
          raisedAt ≤ calls.emittedAt b ∧ (b = .max → ∀ low ∈ evaluate value t (s.opened r.sensorId),
            low.bound = .min → s.goesThrough r.sensorId calls low) := by
  refine forall₃_congr fun t ht b => ?_
  have hone : ∀ raisedAt, s.episodes r.sensorId b = some raisedAt → t.recovers b value →
      ((s.judge r calls).episodes r.sensorId b = none ↔
        raisedAt ≤ calls.emittedAt b ∧ (b = .max → ∀ low ∈ evaluate value t (s.opened r.sensorId),
          low.bound = .min → s.goesThrough r.sensorId calls low)) := by
    intro raisedAt hopen hrec
    have hjudge : s.judge r calls = (Alerting.applyAll r.sensorId calls
        (evaluate value t (s.opened r.sensorId)) { s with judged := s.judged ++ [(r, t)] }).1 := by
      simp [Alerting.judge, ht, hvalue, hrec.configured, hs]
    have hthrough : ∀ low, Alerting.goesThrough { s with judged := s.judged ++ [(r, t)] }
        r.sensorId calls low ↔ s.goesThrough r.sensorId calls low := by
      intro low
      apply goesThrough_congr
      rfl
    rw [hjudge, closes_iff hw (s := { s with judged := s.judged ++ [(r, t)] }) hopen
      (hm r.sensorId b (by simp [hopen])) hrec]
    simp only [hthrough]
  constructor
  · intro h raisedAt hopen hrec
    exact (hone raisedAt hopen hrec).mp (h (by simp [hopen]) hrec)
  · intro h hopen hrec
    obtain ⟨raisedAt, hopen⟩ := Option.isSome_iff_exists.mp hopen
    exact (hone raisedAt hopen hrec).mpr (h raisedAt hopen hrec)

/-- The memory of both classes, by the record: of the silences it is the same, and of the threshold
class it has each open episode. -/
structure Mirrored (s : Alerting δ) : Prop where
  silent : ∀ d, s.watch.watcher.silent d = (s.watch.episodes d).isSome
  opened : ∀ d b, (s.episodes d b).isSome → s.opened d b = true

/-- Of the threshold class, a reading that is heard does as it is judged. -/
theorem heard_closes (hm : ∀ d b, (s.episodes d b).isSome → s.opened d b = true)
    (hbands : calls.bands = true) (hresync : calls.resync = true)
    (hw : ∀ b, calls.write b = .succeeds) (hvalue : r.evaluable = some value) {sensorType : String}
    (hret : (s.watch.onReading r sensorType calls.heardAt calls.silence).2 = true)
    (hs : (s.watch.onReading r sensorType calls.heardAt calls.silence).1.watcher.silent
      r.sensorId = false) :
    (∀ t, s.bandFor refreshS calls r.sensorId = some t → ∀ b, (s.episodes r.sensorId b).isSome →
        t.recovers b value →
          (s.onReading refreshS r sensorType calls).episodes r.sensorId b = none) ↔
      ∀ t, s.bandFor refreshS calls r.sensorId = some t → ∀ b raisedAt,
        s.episodes r.sensorId b = some raisedAt → t.recovers b value →
          raisedAt ≤ calls.emittedAt b ∧
          (b = .max → ∀ low ∈ evaluate value t (s.mirrorFor refreshS calls r.sensorId),
            low.bound = .min → s.goesThrough r.sensorId calls low) := by
  rw [Alerting.onReading_heard hret hbands hresync]
  set heard : Alerting δ :=
    { s with watch := (s.watch.onReading r sensorType calls.heardAt calls.silence).1 } with hheard
  obtain ⟨hthresholds, hopened, hepisodes⟩ := refresh_eq refreshS heard hbands hresync
  have hepisodes : (heard.refresh refreshS calls).1.episodes = s.episodes := hepisodes
  have hmirror : ∀ d b, ((heard.refresh refreshS calls).1.episodes d b).isSome →
      (heard.refresh refreshS calls).1.opened d b = true := by
    rw [hopened, hepisodes]
    exact fun d b hopen => mirrorFor_of_open hm hopen
  have hcloses := judge_closes (s := (heard.refresh refreshS calls).1) hw hvalue
    (by rw [Alerting.refresh_watch]; exact hs) hmirror
  have hthrough : ∀ low, (heard.refresh refreshS calls).1.goesThrough r.sensorId calls low ↔
      s.goesThrough r.sensorId calls low := fun low => goesThrough_congr hepisodes
  simp only [hthresholds, hopened, hthrough] at hcloses
  rw [hepisodes] at hcloses
  exact hcloses

/-- **A reading** ends the alerts that it is to end exactly if it is let to. -/
theorem reading_ends_iff (h : Mirrored s) (sensorType : String)
    (hclear : calls.silence.clear = .succeeds) (hcadences : calls.silence.cadences = true)
    (hbands : calls.bands = true) (hresync : calls.resync = true)
    (hw : ∀ b, calls.write b = .succeeds) :
    LetsEnd refreshS s (.reading r sensorType calls) ↔
      EndsAlerts refreshS s (.reading r sensorType calls) := by
  have hstep : (alerting δ refreshS).step s (.reading r sensorType calls) =
      some (s.onReading refreshS r sensorType calls) := rfl
  rw [EndsAlerts, Machine.forall_step hstep]
  refine forall₂_congr fun value hvalue => ?_
  have hgood : r.evaluable.isSome := by simp [hvalue]
  simp only [Alerting.onReading_watch]
  cases hs : s.watch.watcher.silent r.sensorId with
  | false =>
      have hnone : s.watch.episodes r.sensorId = none := by
        simpa [hs] using (h.silent r.sensorId).symm
      have hresult : s.watch.onReading r sensorType calls.heardAt calls.silence =
          (s.watch.seen r.sensorId sensorType calls.heardAt, true) := onReading_not_silent hgood hs
      refine and_congr (iff_of_true (by simp [hnone]) (by simp [hnone])) (Iff.symm ?_)
      exact heard_closes h.opened hbands hresync hw hvalue (by rw [hresult]) (by rw [hresult]; exact hs)
  | true =>
      obtain ⟨e, he⟩ := Option.isSome_iff_exists.mp ((h.silent r.sensorId).symm.trans hs)
      have hheard : HeardTo calls.silence calls.heardAt s.watch r.sensorId
        (s.watch.onReading r sensorType calls.heardAt calls.silence) :=
        onReading_heardTo sensorType hgood hs
      generalize hresult : s.watch.onReading r sensorType calls.heardAt calls.silence = result at *
      cases hheard with
      | adrift hopen hfate hsilent hepisodes =>
          rw [hclear] at hfate
          cases hfate
      | refused hwhy hsilent hepisodes =>
          refine iff_of_false (fun hC => ?_) fun hD => ?_
          · exact absurd (hC.1 e he).1 (not_le.mpr (hwhy hclear e he))
          · have hended := (hD.1 (by simp [he])).1
            rw [hepisodes, he] at hended
            cases hended
      | @cleared w' _ hopen hle hfate hsilent hepisodes =>
          obtain rfl := Option.some.inj (hopen.symm.trans he)
          cases hp : calls.silence.publish with
          | true =>
              have hret : (s.watch.onReading r sensorType calls.heardAt calls.silence).2 = true := by
                rw [hresult, hcadences, hp]
                rfl
              have hended : (s.watch.onReading r sensorType calls.heardAt
                  calls.silence).1.watcher.silent r.sensorId = false := by
                simp [hresult, hsilent]
              refine and_congr (iff_of_true ?_ fun _ => ⟨by simp [hepisodes], fun t ht hc => ?_⟩)
                (heard_closes h.opened hbands hresync hw hvalue hret hended).symm
              · simpa [he] using hle
              · have hthresholds : (s.onReading refreshS r sensorType calls).thresholds =
                    s.bandFor refreshS calls := by
                  rw [Alerting.onReading_heard hret hbands hresync, Alerting.judge_thresholds]
                  exact (refresh_eq refreshS _ hbands hresync).1
                exact Alerting.onReading_judged hret hbands hresync hgood
                  (by rw [Alerting.onReading_watch]; exact hended) (by rw [hthresholds]; exact ht) hc
          | false =>
              -- the reading is dropped
              have hret : (s.watch.onReading r sensorType calls.heardAt calls.silence).2 = false := by
                rw [hresult, hp, Bool.and_false]
              rw [Alerting.onReading_dropped hret]
              constructor
              · rintro ⟨hfirst, -⟩
                have hno : ∀ t, s.bandFor refreshS calls r.sensorId = some t →
                    t.configured = false := fun t ht =>
                  Bool.eq_false_iff.mpr fun hc => Bool.false_ne_true ((hfirst _ he).2 t ht hc)
                refine ⟨fun _ => ⟨by simp [hepisodes], fun t ht hc => ?_⟩, fun t ht b _ hrec => ?_⟩
                · simp [hno t ht] at hc
                · have hc := hrec.configured
                  simp [hno t ht] at hc
              · rintro ⟨hfirst, -⟩
                have hno : ∀ t, s.bandFor refreshS calls r.sensorId = some t →
                    t.configured = false := fun t ht => by
                  refine Bool.eq_false_iff.mpr fun hc => ?_
                  simpa using (hfirst (by simp [he])).2 t ht hc
                refine ⟨fun e' he' => ⟨?_, fun t ht hc => ?_⟩, fun t ht b _ _ hrec => ?_⟩
                · obtain rfl := Option.some.inj (he.symm.trans he')
                  exact hle
                · simp [hno t ht] at hc
                · have hc := hrec.configured
                  simp [hno t ht] at hc

/-! ### Every run -/

/-- A bound that is still open after a reading was open in the mirror. -/
theorem judge_opened (hw : ∀ b, calls.write b = .succeeds)
    (hm : ∀ d b, (s.episodes d b).isSome → s.opened d b = true) (d : δ) (b : AlertBound)
    (hb : ((s.judge r calls).episodes d b).isSome) : (s.judge r calls).opened d b = true := by
  rw [Alerting.judge] at hb ⊢
  split at hb
  · split at hb
    · next hc => rw [if_pos hc]; exact applyAll_opened hw (by exact hm) d b hb
    · next hc => rw [if_neg hc]; exact hm d b hb
  · exact hm d b hb

/-- So it is through the whole handling of a reading. -/
theorem onReading_opened (hbands : calls.bands = true) (hresync : calls.resync = true)
    (hw : ∀ b, calls.write b = .succeeds) {sensorType : String}
    (hm : ∀ d b, (s.episodes d b).isSome → s.opened d b = true) (d : δ) (b : AlertBound)
    (hb : ((s.onReading refreshS r sensorType calls).episodes d b).isSome) :
    (s.onReading refreshS r sensorType calls).opened d b = true := by
  cases hret : (s.watch.onReading r sensorType calls.heardAt calls.silence).2 with
  | false =>
      rw [Alerting.onReading_dropped hret] at hb ⊢
      exact hm d b hb
  | true =>
      rw [Alerting.onReading_heard hret hbands hresync] at hb ⊢
      set heard : Alerting δ :=
        { s with watch := (s.watch.onReading r sensorType calls.heardAt calls.silence).1 }
      obtain ⟨-, hopened, hepisodes⟩ := refresh_eq refreshS heard hbands hresync
      refine judge_opened hw (fun d b hopen => ?_) d b hb
      rw [hepisodes] at hopen
      rw [hopened]
      exact mirrorFor_of_open hm hopen

/-- **Every step** keeps the memory, the store being there. -/
theorem mirrored_step {a : AlertingAction δ} (h : Mirrored s) (ha : StoreReachable a)
    (hs : (alerting δ refreshS).step s a = some s') : Mirrored s' := by
  obtain ⟨hsilent, hopened⟩ := h
  cases a with
  | declare cadences =>
      obtain rfl := Option.some.inj hs
      exact ⟨hsilent, hopened⟩
  | setThresholds d band now =>
      obtain ⟨-, heq⟩ := Option.ite_none_right_eq_some.mp hs
      obtain rfl := Option.some.inj heq
      refine ⟨hsilent, fun d' b hb => hopened d' b ?_⟩
      by_cases hd : d' = d
      · subst hd
        simp only [Function.update_self] at hb
        split at hb
        · exact hb
        · cases hb
      · simpa [hd] using hb
  | start now monotonic =>
      obtain rfl := Option.some.inj hs
      exact ⟨fun _ => rfl, fun _ _ hb => hb⟩
  | sweep now fates =>
      obtain rfl := Option.some.inj hs
      obtain ⟨hread, hraise⟩ := ha
      refine ⟨fun d => ?_, hopened⟩
      have hswept : SweptTo (fates.raise d) s.watch (s.watch.sweep now fates).1 d := by
        rw [SilenceWatch.sweep, if_pos hread]
        exact sweepOver_sweptTo s.watch.cadences.nodup d
      cases hswept with
      | same hs he => simp only [hs, he, hsilent d]
      | raised _ _ _ hs he => simp only [hs, he]
      | adrift hfate _ _ _ _ =>
          rw [hraise d] at hfate
          cases hfate
  | reading r sensorType calls =>
      obtain rfl := Option.some.inj hs
      obtain ⟨hclear, hcadences, hbands, hresync, hw⟩ := ha
      refine ⟨fun d => ?_, onReading_opened hbands hresync hw hopened⟩
      rw [Alerting.onReading_watch]
      exact onReading_mirrors r sensorType (by simp [hclear]) hsilent d

/-- **Recoveries end their alerts**, from a start over any record and the store being there, exactly
in the runs in which each is let to. -/
theorem recovery_ends_iff (refreshS : ℚ) (cadences : Cadences δ)
    (silences : δ → Option SilenceEpisode) (bands : δ → Option Thresholds)
    (episodes : δ → AlertBound → Option ℚ) (now monotonic : ℚ) {as : List (AlertingAction δ)}
    {q : Alerting δ} :
    (alerting δ refreshS).RunIf (fun s a => StoreReachable a ∧ EndsAlerts refreshS s a)
        ((Alerting.stopped cadences silences bands episodes).start now monotonic) as q ↔
      (alerting δ refreshS).RunIf (fun s a => StoreReachable a ∧ LetsEnd refreshS s a)
        ((Alerting.stopped cadences silences bands episodes).start now monotonic) as q := by
  have hstart : Mirrored ((Alerting.stopped cadences silences bands episodes).start now monotonic) :=
    ⟨fun _ => rfl, fun _ _ hb => hb⟩
  refine (Machine.RunIf.congr hstart ?_ ?_).symm
  · exact fun s a s' hC hI hs => mirrored_step hI hC.1 hs
  · intro s a s' hI hs
    refine and_congr_right fun ha => ?_
    cases a with
    | declare cadences => simp [LetsEnd, EndsAlerts]
    | setThresholds d band now => simp [LetsEnd, EndsAlerts]
    | start now monotonic => simp [LetsEnd, EndsAlerts]
    | sweep now fates => simp [LetsEnd, EndsAlerts]
    | reading r sensorType calls =>
        obtain ⟨hclear, hcadences, hbands, hresync, hw⟩ := ha
        exact reading_ends_iff hI sensorType hclear hcadences hbands hresync hw

/-- At most 26 degrees, and back by half a degree. -/
def atMost26 : Thresholds :=
  ⟨none, some 26, 1 / 2, half_degree_pos, reachable_without_minimum⟩

/-- A probe with that band; nothing is open, and the engine has started at 0. -/
def oneBand : Alerting Unit :=
  (Alerting.stopped noCadences (fun _ => none) (fun _ => some atMost26) fun _ _ => none).start 0 0

/-- A good reading of the one probe. -/
def readingOf (value : ℚ) : SensorReading Unit := ⟨(), some value, .ok, required_value value⟩

/-- An alert is raised at 100, the clock is set back to 50, and the temperature is as it should be: the
record does not take the clear, and the alert stays open. -/
theorem not_recovery_ends :
    ∃ s, (alerting Unit 60).RunIf (fun s a => StoreReachable a ∧ EndsAlerts 60 s a) oneBand
      [.reading (readingOf 27) "ds18b20" (calmAt 100)] s ∧
        ¬EndsAlerts 60 s (.reading (readingOf 25) "ds18b20" (calmAt 50)) := by
  have hcalm : ∀ now, (calmAt now).silence.clear = .succeeds ∧ (calmAt now).silence.cadences = true ∧
      (calmAt now).bands = true ∧ (calmAt now).resync = true ∧
        ∀ b, (calmAt now).write b = .succeeds := fun now => ⟨rfl, rfl, rfl, rfl, fun _ => rfl⟩
  have hnone : ∀ d b, oneBand.episodes d b = none := fun _ _ => rfl
  refine ⟨_, .one ⟨hcalm 100, ?_⟩ rfl, fun h => ?_⟩
  · rintro s' hs' value hvalue
    refine ⟨fun hopen => ?_, fun t _ b hopen => ?_⟩
    · cases hopen
    · simp [hnone] at hopen
  · have hstill : ((oneBand.onReading 60 (readingOf 27) "ds18b20" (calmAt 100)).onReading 60
        (readingOf 25) "ds18b20" (calmAt 50)).episodes () .max = some 100 := by decide +kernel
    have hopen : (oneBand.onReading 60 (readingOf 27) "ds18b20" (calmAt 100)).episodes () .max =
        some 100 := by decide +kernel
    have hband : (oneBand.onReading 60 (readingOf 27) "ds18b20" (calmAt 100)).bandFor 60
        (calmAt 50) () = some atMost26 := by decide +kernel
    have hclosed := (h _ rfl 25 (by decide +kernel)).2 atMost26 hband .max (by simp [hopen])
      ⟨26, rfl, by norm_num [atMost26]⟩
    cases hstill.symm.trans hclosed

end BellasReef.ControlEngine
