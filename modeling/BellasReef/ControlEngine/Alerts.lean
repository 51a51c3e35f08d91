import BellasReef.Support.Machine
import Mathlib.Algebra.Order.Ring.Rat
import Mathlib.Tactic.NormNum

/-!
# ControlEngine — Alerts

The threshold evaluator (`alerts.py`, with `_on_reading` and `_refresh_thresholds` of `app.py`)
beside the API's `set_thresholds`, over one table of episodes.

The engine takes one reading at a time, against bands that it read up to a refresh interval ago.  A
`set_thresholds` is two statements and a commit: it writes the band, closes the open episodes of
the bounds that it removes, and commits both.  At most one is under way for a device, since it holds
the device's row; a transaction that has closed an episode holds that, too.  The silence class is
left out.

* `reconcile_self`: a resync makes the supervisor's mirror what the record says.
* `mem_evaluate`: what a reading can change.
* `raisedWatched_of_current`: an engine whose bands are current raises watched bounds only.
* `none_unwatched`: where the engine raises no episode under a bound that has been removed, no
  episode is open under one.
-/

namespace BellasReef.ControlEngine
open BellasReef.Support

variable {δ : Type}

/-- `AlertBound`. -/
inductive AlertBound where
  | min
  | max
  deriving DecidableEq, Repr

/-- An alert begins or ends. -/
inductive AlertState where
  | breach
  | clear
  deriving DecidableEq, Repr

/-- What a sensor is allowed to read, and how far back it must come. -/
structure Thresholds where
  minimum : Option ℚ
  maximum : Option ℚ
  clearMargin : ℚ
  clear_margin_pos : 0 < clearMargin
  clear_zone_is_reachable : ∀ lo ∈ minimum, ∀ hi ∈ maximum, lo + clearMargin < hi - clearMargin
  deriving DecidableEq

/-- The bound is set. -/
def Thresholds.has (t : Thresholds) : AlertBound → Bool
  | .min => t.minimum.isSome
  | .max => t.maximum.isSome

/-- A bound is set. -/
def Thresholds.configured (t : Thresholds) : Bool := t.minimum.isSome || t.maximum.isSome

/-- A change of alert state for one bound. -/
structure AlertTransition where
  bound : AlertBound
  state : AlertState
  value : ℚ
  threshold : ℚ
  deriving DecidableEq

/-- Decide what changed, given a reading and what is already in breach. -/
def evaluate (value : ℚ) (thresholds : Thresholds) (openBounds : AlertBound → Bool) :
    List AlertTransition :=
  (match thresholds.minimum with
    | some minimum =>
        if !openBounds .min && value < minimum then [⟨.min, .breach, value, minimum⟩]
        else if openBounds .min && minimum + thresholds.clearMargin ≤ value then
          [⟨.min, .clear, value, minimum⟩]
        else []
    | none => []) ++
  (match thresholds.maximum with
    | some maximum =>
        if !openBounds .max && maximum < value then [⟨.max, .breach, value, maximum⟩]
        else if openBounds .max && value ≤ maximum - thresholds.clearMargin then
          [⟨.max, .clear, value, maximum⟩]
        else []
    | none => [])

/-- What a driver says of its reading. -/
inductive Quality where
  | ok
  | stale
  | fault
  deriving DecidableEq, Repr

/-- One sample from one sensor. -/
structure SensorReading (δ : Type) where
  sensorId : δ
  value : Option ℚ
  quality : Quality
  value_required_when_ok : quality = .ok → value.isSome
  deriving DecidableEq

theorem required_value (value : ℚ) : Quality.ok = .ok → (some value).isSome := fun _ => rfl

/-- `should_evaluate`, with the value of a reading that should be. -/
def SensorReading.evaluable (r : SensorReading δ) : Option ℚ :=
  if r.quality = .ok then r.value else none

/-- Where the engine is with the reading in hand; there is none while it starts. -/
inductive ReadingStage (δ : Type) where
  | off
  | priming
  /-- `_refresh_thresholds`: about to read the bands, and about to resync. -/
  | refreshing (r : Option (SensorReading δ))
  | resyncing (r : Option (SensorReading δ))
  | idle
  | evaluating (r : SensorReading δ)
  /-- The transitions of a reading that are still to be written. -/
  | applying (sensorId : δ) (transitions : List AlertTransition)

/-- The engine's cache and the supervisor's mirror. -/
structure AlertEngine (δ : Type) where
  stage : ReadingStage δ
  thresholds : δ → Option Thresholds
  thresholdsReadAt : ℚ
  /-- `AlertSupervisor._open`. -/
  opened : δ → AlertBound → Bool

/-- A `set_thresholds` under way. -/
structure SetThresholds where
  band : Option Thresholds
  /-- The episodes that its second statement has closed, once it has run. -/
  closed : Option (AlertBound → Bool)

/-- The bound is set by the row. -/
def watches (band : Option Thresholds) (b : AlertBound) : Bool := band.any (·.has b)

/-- The record, the API's writes and the engine. -/
structure Alerts (δ : Type) where
  /-- The band on each sensor's row. -/
  bands : δ → Option Thresholds
  /-- `sensor_alerts`: a threshold episode is open; there is one at most. -/
  episodes : δ → AlertBound → Bool
  writing : δ → Option SetThresholds
  engine : AlertEngine δ

/-- Whether what a step asks of the store and of the broker succeeds. -/
inductive Fate where
  | succeeds
  | storeFails
  | publishFails
  deriving DecidableEq

/-- What the API and the engine's tasks do. -/
inductive AlertAction (δ : Type) where
  /-- The first statement of a `set_thresholds`. -/
  | write (d : δ) (band : Option Thresholds)
  /-- The second. -/
  | close (d : δ)
  | commit (d : δ)
  | abort (d : δ)
  | start
  | stop
  | reading (r : SensorReading δ) (now : ℚ)
  /-- The engine's next step. -/
  | go (now : ℚ) (fate : Fate)

/-- What a resync makes of the mirror: what changed during the read goes on top of the record. -/
def reconcile (before after fresh : δ → AlertBound → Bool) : δ → AlertBound → Bool :=
  fun d b => (fresh d b || (after d b && !before d b)) && !(before d b && !after d b)

/-- A transaction that is under way has closed the episode. -/
def Alerts.held (s : Alerts δ) (d : δ) (b : AlertBound) : Bool :=
  (s.writing d).any fun w => w.closed.any fun closed => closed b

section Steps
variable [DecidableEq δ]

/-- One entry of a map of devices and bounds. -/
def setBound (m : δ → AlertBound → Bool) (d : δ) (b : AlertBound) (v : Bool) : δ → AlertBound → Bool :=
  fun d' b' => if d' = d ∧ b' = b then v else m d' b'

omit [DecidableEq δ] in
/-- An exception drops the reading in hand, or ends the start. -/
def AlertEngine.raised (e : AlertEngine δ) (r : Option (SensorReading δ)) : AlertEngine δ :=
  { e with stage := if r.isSome then .idle else .off }

/-- The store's part of a transition: the episodes after it, and `none` where it raises. -/
def Alerts.write (s : Alerts δ) (d : δ) (t : AlertTransition) : Option (δ → AlertBound → Bool) :=
  match t.state, s.episodes d t.bound with
  | .breach, false => some (setBound s.episodes d t.bound true)
  | .clear, true => some (setBound s.episodes d t.bound false)
  | .breach, true => none  -- `uq_sensor_alerts_one_active_per_class_bound`
  | .clear, false => none  -- no open episode to clear

/-- The engine's next step; `none` where it waits for a transaction. -/
def Alerts.advance (s : Alerts δ) (now : ℚ) (fate : Fate) : Option (Alerts δ) :=
  let e := s.engine
  match e.stage with
  | .off | .idle => none
  | .priming =>
      if fate = .succeeds then
        some { s with engine :=
          { e with stage := .refreshing none, thresholdsReadAt := now, opened := s.episodes } }
      else some { s with engine := e.raised none }
  | .refreshing r =>
      if fate = .succeeds then
        some { s with engine :=
          { e with
            stage := .resyncing r
            thresholds := fun d => (s.bands d).filter Thresholds.configured } }
      else some { s with engine := e.raised r }
  | .resyncing r =>
      if fate = .succeeds then
        some { s with engine :=
          { e with
            stage := r.elim .idle .evaluating
            opened := reconcile e.opened e.opened s.episodes } }
      else some { s with engine := e.raised r }
  | .evaluating r =>
      match e.thresholds r.sensorId, r.evaluable with
      | some t, some value =>
          if t.configured then
            some { s with engine :=
              { e with stage := .applying r.sensorId (evaluate value t (e.opened r.sensorId)) } }
          else some { s with engine := { e with stage := .idle } }
      | _, _ => some { s with engine := { e with stage := .idle } }
  | .applying _ [] => some { s with engine := { e with stage := .idle } }
  | .applying d (t :: ts) =>
      if fate = .storeFails then some { s with engine := { e with stage := .idle } }
      else if s.held d t.bound then none
      else
        match s.write d t with
        | none => some { s with engine := { e with stage := .idle } }
        | some episodes =>
            some { s with
              episodes := episodes
              engine :=
                { e with
                  stage := if fate = .publishFails then .idle else .applying d ts
                  opened := setBound e.opened d t.bound (decide (t.state = .breach)) } }

/-- A step of the API or of the engine. -/
def Alerts.step (refreshS : ℚ) (s : Alerts δ) : AlertAction δ → Option (Alerts δ)
  | .write d band =>
      match s.writing d with
      | some _ => none
      | none => some { s with writing := Function.update s.writing d (some ⟨band, none⟩) }
  | .close d =>
      match s.writing d with
      | some ⟨band, none⟩ =>
          let closed := fun b => s.episodes d b && !watches band b
          some { s with writing := Function.update s.writing d (some ⟨band, some closed⟩) }
      | _ => none
  | .commit d =>
      match s.writing d with
      | some ⟨band, some closed⟩ =>
          some { s with
            bands := Function.update s.bands d band
            episodes := Function.update s.episodes d fun b => s.episodes d b && !closed b
            writing := Function.update s.writing d none }
      | _ => none
  | .abort d =>
      match s.writing d with
      | some _ => some { s with writing := Function.update s.writing d none }
      | none => none
  | .start =>
      match s.engine.stage with
      | .off => some { s with engine := ⟨.priming, fun _ => none, 0, fun _ _ => false⟩ }
      | _ => none
  | .stop => some { s with engine := { s.engine with stage := .off } }
  | .reading r now =>
      match s.engine.stage with
      | .idle =>
          if now - s.engine.thresholdsReadAt < refreshS then
            some { s with engine := { s.engine with stage := .evaluating r } }
          else
            some { s with engine :=
              { s.engine with stage := .refreshing (some r), thresholdsReadAt := now } }
      | _ => none
  | .go now fate => s.advance now fate

/-- The API and the engine; `refreshS` is `threshold_refresh_s`. -/
def alerts (δ : Type) [DecidableEq δ] (refreshS : ℚ) : Machine (Alerts δ) (AlertAction δ) where
  step := Alerts.step refreshS

end Steps

/-- The engine is off, and no write is under way. -/
def Alerts.resting (bands : δ → Option Thresholds) (episodes : δ → AlertBound → Bool) : Alerts δ :=
  ⟨bands, episodes, fun _ => none, ⟨.off, fun _ => none, 0, fun _ _ => false⟩⟩

/-! ### Following the bands -/

/-- How far the engine has followed the last `set_thresholds`. -/
inductive Followed where
  | behind
  /-- A refresh has read the bands since. -/
  | reading
  /-- And has resynced. -/
  | refreshed
  deriving DecidableEq

/-- A `set_thresholds` that commits starts it anew. -/
def Followed.note (s : Alerts δ) (a : AlertAction δ) (s' : Alerts δ) (f : Followed) : Followed :=
  match a with
  | .commit _ => .behind
  | .go _ _ =>
      match s.engine.stage, s'.engine.stage with
      | .refreshing _, .resyncing _ => .reading
      | .resyncing none, .idle | .resyncing (some _), .evaluating _ =>
          if f = .reading then .refreshed else f
      | _, _ => f
  | _ => f

/-- Once a refresh has followed the last `set_thresholds`, no episode is open under a bound that is
not configured on its device. -/
def NoneUnwatched (s : Alerts δ) (f : Followed) : Prop :=
  f = .refreshed → ∀ d b, s.episodes d b = true → watches (s.bands d) b = true

/-- The engine raises an episode only under a bound that is set on the row, and that no
`set_thresholds` that is past its closing statement removes. -/
def RaisedWatched (s : Alerts δ) : AlertAction δ → Prop
  | .go _ fate =>
      match s.engine.stage with
      | .applying d (t :: _) =>
          fate ≠ .storeFails → t.state = .breach → watches (s.bands d) t.bound = true ∧
            ∀ w ∈ s.writing d, w.closed.isSome → watches w.band t.bound = true
      | _ => True
  | _ => True

/-! ### The evaluator and the mirror -/

/-- **A resync** makes the mirror what the record says, where no reading comes in between. -/
theorem reconcile_self {before fresh : δ → AlertBound → Bool} :
    reconcile before before fresh = fresh := by
  funext d b
  simp [reconcile]

/-- Each bound has two thresholds, one to open it and one to clear it. -/
theorem mem_bound {isOpen opens clears : Bool} {breach clear t : AlertTransition}
    (h : t ∈ if !isOpen && opens then [breach] else if isOpen && clears then [clear] else []) :
    t = breach ∧ isOpen = false ∨ t = clear ∧ isOpen = true := by
  split at h
  · next ho =>
      rw [Bool.and_eq_true, Bool.not_eq_true'] at ho
      exact .inl ⟨List.mem_singleton.mp h, ho.1⟩
  · split at h
    · next ho =>
        rw [Bool.and_eq_true] at ho
        exact .inr ⟨List.mem_singleton.mp h, ho.1⟩
    · cases h

/-- **What a reading can change**: a bound that is set, from open to clear or back. -/
theorem mem_evaluate {value : ℚ} {thresholds : Thresholds} {openBounds : AlertBound → Bool}
    {t : AlertTransition} (h : t ∈ evaluate value thresholds openBounds) :
    thresholds.has t.bound = true ∧ (t.state = .breach ↔ openBounds t.bound = false) := by
  rcases List.mem_append.mp h with h | h
  · cases hmin : thresholds.minimum with
    | none => simp [hmin] at h
    | some minimum =>
        rw [hmin] at h
        have hhas : thresholds.has .min = true := by rw [Thresholds.has, hmin]; rfl
        obtain ⟨rfl, ho⟩ | ⟨rfl, ho⟩ := mem_bound h
        · exact ⟨hhas, by simp [ho]⟩
        · exact ⟨hhas, by simp [ho]⟩
  · cases hmax : thresholds.maximum with
    | none => simp [hmax] at h
    | some maximum =>
        rw [hmax] at h
        have hhas : thresholds.has .max = true := by rw [Thresholds.has, hmax]; rfl
        obtain ⟨rfl, ho⟩ | ⟨rfl, ho⟩ := mem_bound h
        · exact ⟨hhas, by simp [ho]⟩
        · exact ⟨hhas, by simp [ho]⟩

/-- At most one transition of the low bound, then at most one of the high one. -/
theorem evaluate_eq_append (value : ℚ) (t : Thresholds) (o : AlertBound → Bool) :
    ∃ lows highs, evaluate value t o = lows ++ highs ∧
      (lows = [] ∨ ∃ low, lows = [low] ∧ low.bound = .min) ∧
      (highs = [] ∨ ∃ high, highs = [high] ∧ high.bound = .max) := by
  refine ⟨_, _, rfl, ?_, ?_⟩
  · split
    · split
      · exact .inr ⟨_, rfl, rfl⟩
      · split
        · exact .inr ⟨_, rfl, rfl⟩
        · exact .inl rfl
    · exact .inl rfl
  · split
    · split
      · exact .inr ⟨_, rfl, rfl⟩
      · split
        · exact .inr ⟨_, rfl, rfl⟩
        · exact .inl rfl
    · exact .inl rfl

/-- Of each bound there is one transition at most. -/
theorem nodup_evaluate (value : ℚ) (t : Thresholds) (o : AlertBound → Bool) :
    ((evaluate value t o).map AlertTransition.bound).Nodup := by
  obtain ⟨lows, highs, heq, rfl | ⟨low, rfl, hlow⟩, rfl | ⟨high, rfl, hhigh⟩⟩ :=
    evaluate_eq_append value t o
  · simp [heq]
  · simp [heq]
  · simp [heq]
  · simp [heq, hlow, hhigh]

/-! ### Steps -/

section Invariant
variable [DecidableEq δ] {s s' : Alerts δ} {now : ℚ} {fate : Fate}

/-- **The engine and the record.**  The engine changes the episodes only, and those only by writing
a transition. -/
theorem Alerts.advance_record (h : s.advance now fate = some s') :
    s'.bands = s.bands ∧ s'.writing = s.writing ∧ (s'.episodes = s.episodes ∨
      ∃ d t ts, s.engine.stage = .applying d (t :: ts) ∧ fate ≠ .storeFails ∧
        s.write d t = some s'.episodes) := by
  simp only [Alerts.advance] at h
  split at h
  · cases h
  · cases h
  · split at h <;> (cases h; exact ⟨rfl, rfl, .inl rfl⟩)
  · split at h <;> (cases h; exact ⟨rfl, rfl, .inl rfl⟩)
  · split at h <;> (cases h; exact ⟨rfl, rfl, .inl rfl⟩)
  · split at h
    · split at h <;> (cases h; exact ⟨rfl, rfl, .inl rfl⟩)
    · cases h; exact ⟨rfl, rfl, .inl rfl⟩
  · cases h; exact ⟨rfl, rfl, .inl rfl⟩
  · next d t ts hstage =>
      split at h
      · cases h; exact ⟨rfl, rfl, .inl rfl⟩
      · next hfate =>
          split at h
          · cases h
          · split at h
            · cases h; exact ⟨rfl, rfl, .inl rfl⟩
            · next hw => cases h; exact ⟨rfl, rfl, .inr ⟨d, t, ts, hstage, hfate, hw⟩⟩

/-- A transition that is written opens its bound, or closes it, and no other. -/
theorem Alerts.write_apply {d d' : δ} {t : AlertTransition} {b : AlertBound}
    {episodes : δ → AlertBound → Bool} (h : s.write d t = some episodes)
    (hb : episodes d' b = true) :
    s.episodes d' b = true ∨ d' = d ∧ b = t.bound ∧ t.state = .breach := by
  unfold Alerts.write at h
  split at h
  · next hstate _ =>
      cases h
      rw [setBound] at hb
      split at hb
      · next he => exact .inr ⟨he.1, he.2, hstate⟩
      · exact .inl hb
  · cases h
    rw [setBound] at hb
    split at hb
    · cases hb
    · exact .inl hb
  · cases h
  · cases h

/-- Every open episode is watched, and will be when the writes under way have committed. -/
structure Watched (s : Alerts δ) : Prop where
  watched : ∀ d b, s.episodes d b = true → watches (s.bands d) b = true
  closing : ∀ d band closed b, s.writing d = some ⟨band, some closed⟩ → s.episodes d b = true →
    closed b = false → watches band b = true

/-- A write under way that has not run its closing statement has closed nothing. -/
theorem Watched.begun (hi : Watched s) {d : δ} {w : Option SetThresholds}
    (hw : ∀ band closed, w ≠ some ⟨band, some closed⟩) :
    Watched { s with writing := Function.update s.writing d w } where
  watched := hi.watched
  closing := by
    intro d' band closed b hwriting
    by_cases hd : d' = d
    · simp only [hd, Function.update_self] at hwriting
      exact absurd hwriting (hw band closed)
    · simp only [Function.update_of_ne hd] at hwriting
      exact hi.closing d' band closed b hwriting

/-- The closing statement finds every open episode of the bounds that go. -/
theorem Watched.close (hi : Watched s) {d : δ} {band : Option Thresholds} {closes : AlertBound → Bool}
    (hcloses : ∀ b, closes b = (s.episodes d b && !watches band b)) :
    Watched { s with writing := Function.update s.writing d (some ⟨band, some closes⟩) } where
  watched := hi.watched
  closing := by
    intro d' band' closed b hwriting hopen hclosed
    by_cases hd : d' = d
    · simp only [hd, Function.update_self, Option.some.injEq, SetThresholds.mk.injEq] at hwriting
      obtain ⟨rfl, rfl⟩ := hwriting
      have hopen : s.episodes d' b = true := hopen
      rw [hd] at hopen
      simpa [hcloses, hopen] using hclosed
    · simp only [Function.update_of_ne hd] at hwriting
      exact hi.closing d' band' closed b hwriting hopen hclosed

/-- The commit leaves no episode open under a bound that it removes. -/
theorem Watched.commit (hi : Watched s) {d : δ} {band : Option Thresholds}
    {closed : AlertBound → Bool} (hw : s.writing d = some ⟨band, some closed⟩) :
    Watched { s with
      bands := Function.update s.bands d band
      episodes := Function.update s.episodes d fun b => s.episodes d b && !closed b
      writing := Function.update s.writing d none } where
  watched := by
    intro d' b hopen
    by_cases hd : d' = d
    · simp only [hd, Function.update_self, Bool.and_eq_true, Bool.not_eq_true'] at hopen ⊢
      exact hi.closing d band closed b hw hopen.1 hopen.2
    · simp only [Function.update_of_ne hd] at hopen ⊢
      exact hi.watched d' b hopen
  closing := by
    intro d' band' closed' b hwriting hopen hclosed
    by_cases hd : d' = d
    · simp only [hd, Function.update_self] at hwriting
      cases hwriting
    · simp only [Function.update_of_ne hd] at hwriting hopen
      exact hi.closing d' band' closed' b hwriting hopen hclosed

/-- The engine's step. -/
theorem Watched.advance (hi : Watched s) (hC : RaisedWatched s (.go now fate))
    (h : s.advance now fate = some s') : Watched s' := by
  obtain ⟨hbands, hwriting, hepisodes⟩ := Alerts.advance_record h
  -- an episode that is open after the step was so before, or is raised under a watched bound
  have hopen : ∀ d b, s'.episodes d b = true → s.episodes d b = true ∨
      watches (s.bands d) b = true ∧
        ∀ w ∈ s.writing d, w.closed.isSome → watches w.band b = true := by
    intro d b hb
    rcases hepisodes with hsame | ⟨d', t, ts, hstage, hfate, hw⟩
    · rw [hsame] at hb
      exact .inl hb
    · refine (Alerts.write_apply hw hb).imp id ?_
      rintro ⟨rfl, rfl, hstate⟩
      simp only [RaisedWatched, hstage] at hC
      exact hC hfate hstate
  refine ⟨fun d b hb => ?_, fun d band closed b hw hb hclosed => ?_⟩
  · rw [hbands]
    exact (hopen d b hb).elim (hi.watched d b) And.left
  · rw [hwriting] at hw
    rcases hopen d b hb with hb | ⟨-, hwatched⟩
    · exact hi.closing d band closed b hw hb hclosed
    · exact hwatched _ hw rfl

/-- **Step.** -/
theorem watched_step {refreshS : ℚ} {a : AlertAction δ} (hi : Watched s) (hC : RaisedWatched s a)
    (h : (alerts δ refreshS).step s a = some s') : Watched s' := by
  change s.step refreshS a = some s' at h
  cases a with
  | write d band =>
      simp only [Alerts.step] at h
      split at h
      · cases h
      · cases h; exact hi.begun nofun
  | close d =>
      simp only [Alerts.step] at h
      split at h
      · cases h; exact hi.close fun _ => rfl
      · cases h
  | commit d =>
      simp only [Alerts.step] at h
      split at h
      · next hw => cases h; exact hi.commit hw
      · cases h
  | abort d =>
      simp only [Alerts.step] at h
      split at h
      · cases h; exact hi.begun nofun
      · cases h
  | start =>
      simp only [Alerts.step] at h
      split at h
      · cases h; exact ⟨hi.watched, hi.closing⟩
      · cases h
  | stop => cases h; exact ⟨hi.watched, hi.closing⟩
  | reading r now =>
      simp only [Alerts.step] at h
      split at h
      · split at h <;> (cases h; exact ⟨hi.watched, hi.closing⟩)
      · cases h
  | go now fate => exact hi.advance hC h

/-- The transitions in hand are of bounds that the cache watches. -/
def InHand (e : AlertEngine δ) : Prop :=
  ∀ d ts, e.stage = .applying d ts → ∀ t ∈ ts, watches (e.thresholds d) t.bound = true

omit [DecidableEq δ] in
/-- A stage that applies nothing has nothing in hand. -/
theorem inHand_of_not_applying {e : AlertEngine δ} (h : ∀ d ts, e.stage ≠ .applying d ts) : InHand e :=
  fun d ts hstage => absurd hstage (h d ts)

/-- What the engine has in hand it keeps in hand. -/
theorem InHand.advance (hi : InHand s.engine) (h : s.advance now fate = some s') :
    InHand s'.engine := by
  simp only [Alerts.advance] at h
  split at h
  · cases h
  · cases h
  · split at h <;> (cases h; exact inHand_of_not_applying nofun)
  · next r _ =>
      split at h
      · cases h; exact inHand_of_not_applying nofun
      · cases h; cases r <;> exact inHand_of_not_applying nofun
  · next r _ =>
      split at h
      · cases h; cases r <;> exact inHand_of_not_applying nofun
      · cases h; cases r <;> exact inHand_of_not_applying nofun
  · next r hstage =>
      split at h
      · next t value ht _ =>
          split at h
          · cases h
            intro d ts hts x hx
            cases hts
            exact ht ▸ (mem_evaluate hx).1
          · cases h; exact inHand_of_not_applying nofun
      · cases h; exact inHand_of_not_applying nofun
  · cases h; exact inHand_of_not_applying nofun
  · next d t ts hstage =>
      split at h
      · cases h; exact inHand_of_not_applying nofun
      · split at h
        · cases h
        · split at h
          · cases h; exact inHand_of_not_applying nofun
          · cases h
            intro d' ts' hts x hx
            by_cases hfate : fate = .publishFails
            · simp [hfate] at hts
            · simp only [hfate, if_false, ReadingStage.applying.injEq] at hts
              obtain ⟨rfl, rfl⟩ := hts
              exact hi d _ hstage x (List.mem_cons_of_mem _ hx)

/-- **The transitions in hand** are of bounds that the cache watches, in every state. -/
theorem inHand_step {refreshS : ℚ} {a : AlertAction δ} (hi : InHand s.engine)
    (h : (alerts δ refreshS).step s a = some s') : InHand s'.engine := by
  change s.step refreshS a = some s' at h
  cases a with
  | go now fate => exact hi.advance h
  | start =>
      simp only [Alerts.step] at h
      split at h
      · cases h; exact inHand_of_not_applying nofun
      · cases h
  | stop => cases h; exact inHand_of_not_applying nofun
  | reading r now =>
      simp only [Alerts.step] at h
      split at h
      · split at h <;> (cases h; exact inHand_of_not_applying nofun)
      · cases h
  | _ =>
      simp only [Alerts.step] at h
      split at h
      all_goals first | (cases h; exact hi) | cases h

omit [DecidableEq δ] in
/-- An engine whose cache is what the row says, while nobody writes it, raises watched bounds. -/
theorem raisedWatched_of_current (hi : InHand s.engine)
    (hcurrent : ∀ d, s.engine.thresholds d = (s.bands d).filter Thresholds.configured)
    (hwriting : ∀ d, s.writing d = none) (a : AlertAction δ) : RaisedWatched s a := by
  unfold RaisedWatched
  split
  · split
    · next d t ts hstage =>
        intro _ _
        have ht := hi d _ hstage t List.mem_cons_self
        rw [hcurrent, watches] at ht
        obtain ⟨band, hband, hhas⟩ := (Option.any_eq_true _ _).mp ht
        obtain ⟨hband, -⟩ := Option.filter_eq_some_iff.mp hband
        refine ⟨(Option.any_eq_true _ _).mpr ⟨band, hband, hhas⟩, fun w hw => ?_⟩
        rw [hwriting] at hw
        cases hw
    · trivial
  · trivial

end Invariant

/-! ### Runs -/

section Runs
variable [DecidableEq δ] {refreshS : ℚ} {s : Alerts δ} {f : Followed}

/-- The API and the engine, and how far the engine has followed. -/
abbrev followed (δ : Type) [DecidableEq δ] (refreshS : ℚ) :
    Machine (Alerts δ × Followed) (AlertAction δ) :=
  (alerts δ refreshS).ghost Followed.note

/-- **No episode is left open under a bound nobody watches**, where the engine raises none under a
bound that has been removed. -/
theorem none_unwatched {bands : δ → Option Thresholds} {episodes : δ → AlertBound → Bool}
    {as : List (AlertAction δ)} (h₀ : ∀ d b, episodes d b = true → watches (bands d) b = true)
    (h : (followed δ refreshS).RunIf (fun p a => RaisedWatched p.1 a)
      (.resting bands episodes, .behind) as (s, f)) : NoneUnwatched s f := by
  have hi : Watched s := h.invariant (I := fun p => Watched p.1) ⟨h₀, nofun⟩
    (Machine.ghost_preserves fun _ _ _ _ hC hi hs => watched_step hi hC hs)
  exact fun _ => hi.watched

instance (s : Alerts δ) (a : AlertAction δ) : Decidable (RaisedWatched s a) := by
  unfold RaisedWatched
  split
  · split <;> infer_instance
  · infer_instance

end Runs

/-- From 24 to 26, and back by half a degree. -/
def reefBand : Thresholds := ⟨some 24, some 26, 1 / 2, by norm_num, by
  rintro lo ⟨⟩ hi ⟨⟩
  norm_num⟩

theorem half_degree_pos : (0 : ℚ) < 1 / 2 := by norm_num

theorem reachable_without_minimum :
    ∀ lo ∈ (none : Option ℚ), ∀ hi ∈ some (26 : ℚ), lo + 1 / 2 < hi - 1 / 2 := nofun

/-- The same without the minimum. -/
def noMinimum : Thresholds :=
  ⟨none, some 26, 1 / 2, half_degree_pos, reachable_without_minimum⟩

/-- A good reading of the only sensor. -/
def degrees (value : ℚ) : SensorReading Unit := ⟨(), some value, .ok, required_value value⟩

/-- The next `n` steps of the engine, all of which succeed. -/
def goOn (n : ℕ) : List (AlertAction Unit) := List.replicate n (.go 0 .succeeds)

/-- The minimum is removed. -/
def minimumRemoved : List (AlertAction Unit) := [.write () (some noMinimum), .close (), .commit ()]

theorem watches_nothingOpen : ∀ (_ : Unit) (b : AlertBound), false = true → watches (some reefBand) b = true :=
  fun _ _ => nofun

/-- A cold tank is noticed, the minimum is removed, and the engine refreshes. -/
theorem none_unwatched_noticed : ∃ s f,
    (followed Unit 30).RunIf (fun p a => RaisedWatched p.1 a)
      (.resting (fun _ => some reefBand) fun _ _ => false, .behind)
      ([.start] ++ goOn 3 ++ [.reading (degrees 20) 1] ++ goOn 3 ++ minimumRemoved ++
        [.reading (degrees 20) 40] ++ goOn 2) (s, f) ∧ f = .refreshed ∧ NoneUnwatched s f := by
  have hrun : ((followed Unit 30).execIf (fun p a => RaisedWatched p.1 a)
      (.resting (fun _ => some reefBand) fun _ _ => false, .behind)
      ([.start] ++ goOn 3 ++ [.reading (degrees 20) 1] ++ goOn 3 ++ minimumRemoved ++
        [.reading (degrees 20) 40] ++ goOn 2)).map Prod.snd = some .refreshed := by
    decide +kernel
  obtain ⟨⟨s, f⟩, hs, hl⟩ := Option.map_eq_some_iff.mp hrun
  have h := Machine.execIf_eq_some.mp hs
  exact ⟨s, f, h, hl, none_unwatched watches_nothingOpen h⟩

/-- A cold tank is noticed after the minimum is removed, by the band of the last refresh. -/
theorem not_none_unwatched :
    ¬ ∀ (bands : Unit → Option Thresholds) (episodes : Unit → AlertBound → Bool)
      (as : List (AlertAction Unit)) (s : Alerts Unit) (f : Followed),
      (∀ d b, episodes d b = true → watches (bands d) b = true) →
        (followed Unit 30).Run (.resting bands episodes, .behind) as (s, f) → NoneUnwatched s f := by
  intro h
  have hrun : ((followed Unit 30).exec (.resting (fun _ => some reefBand) fun _ _ => false, .behind)
      ([.start] ++ goOn 3 ++ minimumRemoved ++ [.reading (degrees 20) 1] ++ goOn 3 ++
        [.reading (degrees 20) 40] ++ goOn 2)).map
      (fun p => (p.2, p.1.episodes () .min, watches (p.1.bands ()) .min)) =
      some (.refreshed, true, false) := by
    decide +kernel
  obtain ⟨⟨s, f⟩, hs, hl⟩ := Option.map_eq_some_iff.mp hrun
  obtain ⟨hf, hl⟩ := Prod.ext_iff.mp hl
  obtain ⟨hopen, hband⟩ := Prod.ext_iff.mp hl
  have hw := h _ _ _ s f watches_nothingOpen (Machine.exec_eq_some.mp hs) hf () .min hopen
  exact Bool.false_ne_true (hband.symm.trans hw)

end BellasReef.ControlEngine
