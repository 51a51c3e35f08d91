import BellasReef.ControlEngine.Silence

/-!
# ControlEngine — Alerting

`_on_reading`, `_refresh_thresholds` and `_sweep_silence` of `app.py`, with both watchers of
`alerts.py` and what they read and write of the record.  A reading is heard, then judged against the
bands, which are read again once in a while; what raises on the way drops it.

Each call of the store and of the broker has a fate, and each clock that is read says something:
both are given with the action.  The wall clock goes back and forth as it likes.

* `applyAll_frame`: the transitions of a reading concern the threshold class alone.
* `onReading_watch`: the silence class of a reading is what the silence watcher makes of it.
* `onReading_judged`: a good reading that is heard is evaluated against its band, once.
-/

namespace BellasReef.ControlEngine
open BellasReef.Support

variable {δ : Type}

/-- The engine's alerting, and the record. -/
structure Alerting (δ : Type) where
  watch : SilenceWatch δ
  /-- The band on each sensor's row. -/
  bands : δ → Option Thresholds
  /-- When the open threshold episode of a bound was raised. -/
  episodes : δ → AlertBound → Option ℚ
  thresholds : δ → Option Thresholds
  thresholdsReadAt : ℚ
  /-- `AlertSupervisor._open`. -/
  opened : δ → AlertBound → Bool
  /-- The readings that have been evaluated, and against what. -/
  judged : List (SensorReading δ × Thresholds)

/-- What comes of the calls made for one reading, and what the clocks say. -/
structure ReadingCalls where
  /-- The wall clock, as the probe is heard. -/
  heardAt : ℚ
  silence : ReadingFates
  monotonic : ℚ
  /-- The bands are read, if it is time, and the open episodes. -/
  bands : Bool
  resync : Bool
  /-- Of the transition of each bound: its stamp, its write and its message. -/
  emittedAt : AlertBound → ℚ
  write : AlertBound → CallFate
  publish : AlertBound → Bool

/-- What the API, the probes and the watcher do. -/
inductive AlertingAction (δ : Type) where
  /-- The table of cadences changes. -/
  | declare (cadences : Cadences δ)
  /-- The API's `set_thresholds`, by the database's clock. -/
  | setThresholds (d : δ) (band : Option Thresholds) (now : ℚ)
  | start (now monotonic : ℚ)
  | sweep (now : ℚ) (fates : SweepFates δ)
  | reading (r : SensorReading δ) (sensorType : String) (calls : ReadingCalls)

section Steps
variable [DecidableEq δ]

/-- The open episode of a bound, or none. -/
def Alerting.setEpisode (s : Alerting δ) (d : δ) (b : AlertBound) (raisedAt : Option ℚ) :
    Alerting δ :=
  { s with episodes := Function.update s.episodes d (Function.update (s.episodes d) b raisedAt) }

/-- `raise_episode` and `clear_episode`; `none` where the record does not take it. -/
def Alerting.write (s : Alerting δ) (d : δ) (t : AlertTransition) (emittedAt : ℚ) :
    Option (Alerting δ) :=
  match t.state, s.episodes d t.bound with
  | .breach, none => some (s.setEpisode d t.bound (some emittedAt))
  | .breach, some _ => none  -- `uq_sensor_alerts_one_active_per_class_bound`
  | .clear, some raisedAt =>
      if raisedAt ≤ emittedAt then some (s.setEpisode d t.bound none)
      else none  -- `cleared_after_raised`
  | .clear, none => none  -- no open episode to clear

/-- `open_bounds.add` and `open_bounds.discard`. -/
def Alerting.mirror (s : Alerting δ) (d : δ) (t : AlertTransition) : Alerting δ :=
  { s with opened := setBound s.opened d t.bound (decide (t.state = .breach)) }

/-- The loop of `AlertSupervisor.on_reading`: what it leaves, and whether it comes to its end. -/
def Alerting.applyAll (d : δ) (calls : ReadingCalls) :
    List AlertTransition → Alerting δ → Alerting δ × Bool
  | [], s => (s, true)
  | t :: ts, s =>
      match (calls.write t.bound).of s (s.write d t (calls.emittedAt t.bound)) with
      | (s', false) => (s', false)
      | (s', true) =>
          if calls.publish t.bound then applyAll d calls ts (s'.mirror d t)
          else (s'.mirror d t, false)

/-- `AlertSupervisor.on_reading`, if there is a band and the probe is not recorded silent. -/
def Alerting.judge (s : Alerting δ) (r : SensorReading δ) (calls : ReadingCalls) : Alerting δ :=
  match s.thresholds r.sensorId, r.evaluable with
  | some t, some value =>
      if t.configured && !s.watch.watcher.silent r.sensorId then
        (Alerting.applyAll r.sensorId calls (evaluate value t (s.opened r.sensorId))
          { s with judged := s.judged ++ [(r, t)] }).1
      else s
  | _, _ => s

omit [DecidableEq δ] in
/-- `_refresh_thresholds`. -/
def Alerting.refresh (refreshS : ℚ) (s : Alerting δ) (calls : ReadingCalls) : Alerting δ × Bool :=
  if calls.monotonic - s.thresholdsReadAt < refreshS then (s, true)
  else if calls.bands then
    let s := { s with
      thresholdsReadAt := calls.monotonic
      thresholds := fun d => (s.bands d).filter Thresholds.configured }
    if calls.resync then
      ({ s with opened := reconcile s.opened s.opened fun d b => (s.episodes d b).isSome }, true)
    else (s, false)
  else ({ s with thresholdsReadAt := calls.monotonic }, false)

/-- One reading, from the subscription's callback to its end. -/
def Alerting.onReading (refreshS : ℚ) (s : Alerting δ) (r : SensorReading δ) (sensorType : String)
    (calls : ReadingCalls) : Alerting δ :=
  match s.watch.onReading r sensorType calls.heardAt calls.silence with
  | (w, false) => { s with watch := w }
  | (w, true) =>
      match Alerting.refresh refreshS { s with watch := w } calls with
      | (s', false) => s'
      | (s', true) => s'.judge r calls

/-- `_start_alerting`, with all calls returning. -/
def Alerting.start (s : Alerting δ) (now monotonic : ℚ) : Alerting δ :=
  { s with
    watch :=
      { SilenceWatch.primed s.watch.cadences s.watch.episodes now with
        published := s.watch.published }
    thresholds := fun d => (s.bands d).filter Thresholds.configured
    thresholdsReadAt := monotonic
    opened := fun d b => (s.episodes d b).isSome }

/-- The record takes the closing of the episodes of the bounds that the band has not. -/
def Alerting.closes (s : Alerting δ) (d : δ) (band : Option Thresholds) (now : ℚ) : Bool :=
  [AlertBound.min, .max].all fun b => watches band b || (s.episodes d b).all (· ≤ now)

/-- A step of the engine's alerting, or of what changes the record beside it. -/
def Alerting.step (refreshS : ℚ) (s : Alerting δ) : AlertingAction δ → Option (Alerting δ)
  | .declare cadences => some { s with watch := { s.watch with cadences := cadences } }
  | .setThresholds d band now =>
      if s.closes d band now then
        some { s with
          bands := Function.update s.bands d band
          episodes := Function.update s.episodes d fun b =>
            if watches band b then s.episodes d b else none }
      else none
  | .start now monotonic => some (s.start now monotonic)
  | .sweep now fates => some { s with watch := (s.watch.sweep now fates).1 }
  | .reading r sensorType calls => some (s.onReading refreshS r sensorType calls)

/-- The engine's alerting; `refreshS` is `threshold_refresh_s`. -/
def alerting (δ : Type) [DecidableEq δ] (refreshS : ℚ) :
    Machine (Alerting δ) (AlertingAction δ) where
  step := Alerting.step refreshS

end Steps

/-- The engine is about to start, over any record. -/
def Alerting.stopped (cadences : Cadences δ) (silences : δ → Option SilenceEpisode)
    (bands : δ → Option Thresholds) (episodes : δ → AlertBound → Option ℚ) : Alerting δ :=
  { watch := ⟨cadences, silences, ⟨fun _ => none, fun _ => none, fun _ => false⟩, []⟩
    bands := bands
    episodes := episodes
    thresholds := fun _ => none
    thresholdsReadAt := 0
    opened := fun _ _ => false
    judged := [] }

/-! ### What a reading comes to -/

variable [DecidableEq δ] {s s' : Alerting δ} {r : SensorReading δ} {calls : ReadingCalls}
  {refreshS : ℚ} {sensorType : String}

/-- The write of a transition leaves all but the episodes. -/
theorem of_write_frame (s : Alerting δ) (d : δ) (fate : CallFate) (t : AlertTransition)
    (emittedAt : ℚ) :
    ∃ episodes, (fate.of s (s.write d t emittedAt)).1 = { s with episodes := episodes } := by
  cases hw : s.write d t emittedAt with
  | none => exact ⟨s.episodes, by cases fate <;> rfl⟩
  | some s' =>
      have hs' : ∃ episodes, s' = { s with episodes := episodes } := by
        rw [Alerting.write] at hw
        split at hw
        · exact ⟨_, (Option.some.inj hw).symm⟩
        · cases hw
        · split at hw
          · exact ⟨_, (Option.some.inj hw).symm⟩
          · cases hw
        · cases hw
      cases fate
      · exact hs'
      · exact ⟨s.episodes, rfl⟩
      · exact hs'

/-- **The transitions of a reading** change the episodes and their mirror, and nothing else. -/
theorem Alerting.applyAll_frame (d : δ) (calls : ReadingCalls) (ts : List AlertTransition)
    (s : Alerting δ) : ∃ episodes opened, (Alerting.applyAll d calls ts s).1 =
      { s with episodes := episodes, opened := opened } := by
  induction ts generalizing s with
  | nil => exact ⟨s.episodes, s.opened, rfl⟩
  | cons t ts ih =>
      obtain ⟨written, hwritten⟩ :=
        of_write_frame s d (calls.write t.bound) t (calls.emittedAt t.bound)
      rw [Alerting.applyAll]
      generalize (calls.write t.bound).of s (s.write d t (calls.emittedAt t.bound)) = result at *
      obtain ⟨s₁, returned⟩ := result
      obtain rfl : s₁ = { s with episodes := written } := hwritten
      cases returned with
      | false => exact ⟨written, s.opened, rfl⟩
      | true =>
          simp only
          split
          · exact ih _
          · exact ⟨written, _, rfl⟩

/-- And so does what is judged of it, but for the note that it has been. -/
theorem Alerting.judge_frame (s : Alerting δ) (r : SensorReading δ) (calls : ReadingCalls) :
    ∃ episodes opened judged,
      s.judge r calls = { s with episodes := episodes, opened := opened, judged := judged } := by
  rw [Alerting.judge]
  split
  · split
    · next t value _ _ _ =>
        obtain ⟨episodes, opened, h⟩ := Alerting.applyAll_frame r.sensorId calls
          (evaluate value t (s.opened r.sensorId)) { s with judged := s.judged ++ [(r, t)] }
        exact ⟨episodes, opened, s.judged ++ [(r, t)], h⟩
    · exact ⟨s.episodes, s.opened, s.judged, rfl⟩
  · exact ⟨s.episodes, s.opened, s.judged, rfl⟩

@[simp]
theorem Alerting.judge_watch : (s.judge r calls).watch = s.watch := by
  obtain ⟨episodes, opened, judged, h⟩ := s.judge_frame r calls
  rw [h]

@[simp]
theorem Alerting.judge_thresholds : (s.judge r calls).thresholds = s.thresholds := by
  obtain ⟨episodes, opened, judged, h⟩ := s.judge_frame r calls
  rw [h]

/-- A good reading of a probe that is not recorded silent is evaluated against its band, once. -/
theorem Alerting.judge_judged {t : Thresholds} (ht : s.thresholds r.sensorId = some t)
    (hr : r.evaluable.isSome) (hc : t.configured = true)
    (hs : s.watch.watcher.silent r.sensorId = false) :
    (s.judge r calls).judged = s.judged ++ [(r, t)] := by
  obtain ⟨value, hr⟩ := Option.isSome_iff_exists.mp hr
  obtain ⟨episodes, opened, h⟩ := Alerting.applyAll_frame r.sensorId calls
    (evaluate value t (s.opened r.sensorId)) { s with judged := s.judged ++ [(r, t)] }
  simp [Alerting.judge, ht, hr, hc, hs, h]

omit [DecidableEq δ] in
/-- A refresh changes the bands that are known, and what is open by the mirror. -/
theorem Alerting.refresh_frame (s : Alerting δ) (refreshS : ℚ) (calls : ReadingCalls) :
    ∃ thresholds readAt opened, (s.refresh refreshS calls).1 =
      { s with thresholds := thresholds, thresholdsReadAt := readAt, opened := opened } := by
  rw [Alerting.refresh]
  split
  · exact ⟨s.thresholds, s.thresholdsReadAt, s.opened, rfl⟩
  · split
    · simp only
      split <;> exact ⟨_, _, _, rfl⟩
    · exact ⟨s.thresholds, calls.monotonic, s.opened, rfl⟩

omit [DecidableEq δ] in
@[simp]
theorem Alerting.refresh_watch : (s.refresh refreshS calls).1.watch = s.watch := by
  obtain ⟨thresholds, readAt, opened, h⟩ := s.refresh_frame refreshS calls
  rw [h]

omit [DecidableEq δ] in
@[simp]
theorem Alerting.refresh_judged : (s.refresh refreshS calls).1.judged = s.judged := by
  obtain ⟨thresholds, readAt, opened, h⟩ := s.refresh_frame refreshS calls
  rw [h]

omit [DecidableEq δ] in
/-- A refresh whose calls return comes to its end. -/
theorem Alerting.refresh_returns (hb : calls.bands = true) (hr : calls.resync = true) :
    (s.refresh refreshS calls).2 = true := by
  rw [Alerting.refresh, if_pos hb, if_pos hr]
  split <;> rfl

/-- **The silence class** of a reading is what `SilenceWatcher` makes of it. -/
@[simp]
theorem Alerting.onReading_watch : (s.onReading refreshS r sensorType calls).watch =
    (s.watch.onReading r sensorType calls.heardAt calls.silence).1 := by
  rw [Alerting.onReading]
  split
  · next hw => rw [hw]
  · next w hw =>
      have hrefresh : (Alerting.refresh refreshS { s with watch := w } calls).1.watch = w :=
        Alerting.refresh_watch
      split
      · next hs => rw [hs] at hrefresh; rw [hw]; exact hrefresh
      · next hs => rw [hs] at hrefresh; rw [hw, Alerting.judge_watch]; exact hrefresh

/-- A reading whose silence class raises goes no further. -/
theorem Alerting.onReading_dropped
    (hw : (s.watch.onReading r sensorType calls.heardAt calls.silence).2 = false) :
    s.onReading refreshS r sensorType calls =
      { s with watch := (s.watch.onReading r sensorType calls.heardAt calls.silence).1 } := by
  rw [Alerting.onReading]
  generalize s.watch.onReading r sensorType calls.heardAt calls.silence = heard at hw ⊢
  obtain ⟨w, ok⟩ := heard
  obtain rfl : ok = false := hw
  rfl

/-- **A reading that is heard** is judged, after the bands have been refreshed. -/
theorem Alerting.onReading_heard
    (hw : (s.watch.onReading r sensorType calls.heardAt calls.silence).2 = true)
    (hb : calls.bands = true) (hr : calls.resync = true) :
    s.onReading refreshS r sensorType calls = (Alerting.refresh refreshS
      { s with watch := (s.watch.onReading r sensorType calls.heardAt calls.silence).1 }
      calls).1.judge r calls := by
  rw [Alerting.onReading]
  generalize s.watch.onReading r sensorType calls.heardAt calls.silence = heard at hw ⊢
  obtain ⟨w, ok⟩ := heard
  obtain rfl : ok = true := hw
  have hreturns : (Alerting.refresh refreshS { s with watch := w } calls).2 = true :=
    Alerting.refresh_returns hb hr
  simp only
  generalize Alerting.refresh refreshS { s with watch := w } calls = refreshed at hreturns ⊢
  obtain ⟨s', ok⟩ := refreshed
  obtain rfl : ok = true := hreturns
  rfl

/-- And so it is evaluated against its band, if it is good. -/
theorem Alerting.onReading_judged {t : Thresholds}
    (hw : (s.watch.onReading r sensorType calls.heardAt calls.silence).2 = true)
    (hb : calls.bands = true) (hr : calls.resync = true) (hgood : r.evaluable.isSome)
    (hs : (s.onReading refreshS r sensorType calls).watch.watcher.silent r.sensorId = false)
    (ht : (s.onReading refreshS r sensorType calls).thresholds r.sensorId = some t)
    (hc : t.configured = true) :
    (s.onReading refreshS r sensorType calls).judged = s.judged ++ [(r, t)] := by
  rw [Alerting.onReading_heard hw hb hr] at hs ht ⊢
  rw [Alerting.judge_watch] at hs
  rw [Alerting.judge_thresholds] at ht
  rw [Alerting.judge_judged ht hgood hc hs, Alerting.refresh_judged]

end BellasReef.ControlEngine
