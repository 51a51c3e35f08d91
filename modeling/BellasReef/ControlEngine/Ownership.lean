import BellasReef.Api.Reconcile
import BellasReef.ControlEngine.Alerts

/-!
# ControlEngine — Ownership

The API's writes to `devices` beside the engine's alarms of both classes (`alerts.py`, with
`_on_reading` and `_sweep_silence` of `app.py`).

The engine asks which sensors have a cadence and which have a band, and not which are adopted.  An
episode names its device by an id, no key ties it to the row, and neither `unadopt_device` nor
`forget_device` closes one.

A request and a sweep are one step each.  A reading is three: it is heard, the bands are refreshed
if that is due, and it is judged.  A store call that raises refuses the step that makes it.

* `isAdopted_of_step`: only an unbind ends an adoption.
* `sweepOver_spec`: what a sweep opens.
* `silence_of_step`, `episode_of_step`: no step opens anything but a sweep and the judging of a
  reading.
* `noted_step`: the open episodes are what the sweeps, the readings and the bands have left.
* `alarms_follow_iff`: alarms follow ownership along exactly the runs whose steps are `Attended`.
-/

namespace BellasReef.Api.Devices

/-! ### What ends an adoption -/

variable {ι χ : Type} [LinearOrder ι] {db db' : Devices ι χ} {r y : DeviceRow ι χ} {d e : ι}

/-- A device is adopted if its row is. -/
theorem isAdopted_iff :
    db.isAdopted d = true ↔ ∃ r ∈ db.rows, r.deviceId = d ∧ r.adopted = true := by
  simp [isAdopted, and_comm]

/-- The adoption of a row is what its own `UPDATE` says, and no other row's. -/
theorem isAdopted_update (hr : r ∈ db.rows) (hid : y.deviceId = r.deviceId)
    (hy : d = r.deviceId → y.adopted = true) (hd : db.isAdopted d = true) :
    (db.update y).isAdopted d = true := by
  obtain ⟨x, hx, rfl, had⟩ := isAdopted_iff.mp hd
  by_cases he : x.deviceId = r.deviceId
  · exact isAdopted_iff.mpr ⟨y, (mem_update hr hid).mpr (.inl rfl), hid.trans he.symm, hy he⟩
  · exact isAdopted_iff.mpr ⟨x, (mem_update hr hid).mpr (.inr ⟨hx, he⟩), rfl, had⟩

theorem isAdopted_insert (h : db.insert r = some db') (hd : db.isAdopted d = true) :
    db'.isAdopted d = true := by
  obtain ⟨x, hx, hid, had⟩ := isAdopted_iff.mp hd
  exact isAdopted_iff.mpr ⟨x, (mem_insert h).mpr (.inr hx), hid, had⟩

theorem isAdopted_upsertSensor (hd : db.isAdopted d = true) :
    (db.upsertSensor e).isAdopted d = true := by
  obtain ⟨x, hx, hid, had⟩ := isAdopted_iff.mp hd
  exact isAdopted_iff.mpr ⟨x, mem_upsertSensor.mpr (.inl hx), hid, had⟩

/-- An unbind ends the adoption of its own device. -/
theorem isAdopted_unadoptDevice (h : db.unadoptDevice e = some (db', r)) (hne : d ≠ e)
    (hd : db.isAdopted d = true) : db'.isAdopted d = true := by
  rw [unadoptDevice] at h
  split at h
  · next x hx =>
      split at h
      · cases h
        obtain ⟨hmem, rfl⟩ := find_eq_some_iff.mp hx
        exact isAdopted_update hmem rfl (fun he => absurd he hne) hd
      · cases h
  · cases h

/-- A row that is forgotten was not adopted. -/
theorem isAdopted_forgetDevice {referenced : Bool}
    (h : db.forgetDevice e referenced = .forgotten db') (hd : db.isAdopted d = true) :
    db'.isAdopted d = true := by
  rw [forgetDevice] at h
  split at h
  · next x hx =>
      split at h
      · cases h
      · next hno =>
          split at h
          · cases h
          · cases h
            obtain ⟨y, hy, rfl, had⟩ := isAdopted_iff.mp hd
            have hne : y.deviceId ≠ e := by
              intro he
              rw [find_eq_some_iff.mpr ⟨hy, he⟩] at hx
              cases hx
              exact hno had
            exact isAdopted_iff.mpr ⟨y, mem_delete.mpr ⟨hy, hne⟩, rfl, had⟩
  · cases h

variable [DecidableEq χ]

theorem isAdopted_readoptDevice (h : db.readoptDevice e = .readopted db' r)
    (hd : db.isAdopted d = true) : db'.isAdopted d = true := by
  rw [readoptDevice] at h
  split at h
  · next x hx =>
      split at h
      · split at h
        · cases h
        · cases h
          exact isAdopted_update (find_eq_some_iff.mp hx).1 rfl (fun _ => rfl) hd
      · cases h
  · cases h

theorem isAdopted_bindDevice {kind : DeviceKind} {driverType : DriverType} {binding : Binding χ}
    {role : Option ActuatorRole} {bound : ι} {created : Bool}
    (h : db.bindDevice e kind driverType binding role = some (db', bound, created))
    (hd : db.isAdopted d = true) : db'.isAdopted d = true := by
  rw [bindDevice] at h
  split at h
  · next x hx =>
      cases h
      exact isAdopted_update (matching_eq_some hx).1 rfl (fun _ => rfl) hd
  · obtain ⟨db₁, hins, he⟩ := Option.map_eq_some_iff.mp h
    cases he
    exact isAdopted_insert hins hd

end BellasReef.Api.Devices

namespace BellasReef.ControlEngine
open BellasReef.Api BellasReef.Support

variable {δ χ : Type}

/-! ### The silence class -/

/-- `SILENCE_CADENCE_MULTIPLE`. -/
def silenceCadenceMultiple : ℚ := 6

/-- `SILENCE_FLOOR_S`. -/
def silenceFloorS : ℚ := 30

/-- How long this probe may be quiet before it counts as silent. -/
def silenceDeadlineS (cadenceS : ℚ) : ℚ := max (cadenceS * silenceCadenceMultiple) silenceFloorS

/-- Where the engine is with the reading in hand. -/
inductive Handling (δ : Type) where
  | idle
  /-- Past `SilenceWatcher.on_reading`. -/
  | heard (r : SensorReading δ)
  /-- Past `_refresh_thresholds`. -/
  | refreshed (r : SensorReading δ)

/-- What the engine's two watchers remember. -/
structure AlarmEngine (δ : Type) where
  handling : Handling δ
  /-- `SilenceWatcher._last_seen`. -/
  lastSeen : δ → Option ℚ
  /-- `SilenceWatcher._silent`. -/
  silent : δ → Bool
  thresholds : δ → Option Thresholds
  thresholdsReadAt : ℚ
  /-- `AlertSupervisor._open`. -/
  opened : δ → AlertBound → Bool

/-- The columns of a device's row that the engine reads. -/
structure SensorColumns where
  pollIntervalS : Option ℚ
  enabled : Bool
  band : Option Thresholds

/-- The columns of a new row. -/
def SensorColumns.fresh (pollIntervalS : Option ℚ) : SensorColumns := ⟨pollIntervalS, true, none⟩

/-- The record and the engine. -/
structure Alarms (δ χ : Type) where
  devices : Devices δ χ
  columns : δ → SensorColumns
  /-- `sensor_alerts`: a threshold episode is open; there is one at most. -/
  episodes : δ → AlertBound → Bool
  /-- And a silence. -/
  silences : δ → Bool
  engine : AlarmEngine δ

/-- What the API, the probes, the watcher and the database do. -/
inductive AlarmAction (δ χ : Type) where
  | bind (deviceId : δ) (kind : DeviceKind) (driverType : DriverType) (binding : Binding χ)
      (role : Option ActuatorRole) (pollIntervalS : Option ℚ)
  | unbind (deviceId : δ)
  | readopt (deviceId : δ)
  | forget (deviceId : δ) (referenced : Bool)
  /-- A sensor announces itself. -/
  | announce (deviceId : δ) (pollIntervalS : ℚ)
  | setThresholds (deviceId : δ) (band : Option Thresholds)
  /-- The engine starts, at a wall and a monotonic time. -/
  | start (now monotonic : ℚ)
  /-- A reading comes in; `told`: the message that it may cause gets out. -/
  | hear (r : SensorReading δ) (now : ℚ) (told : Bool)
  | refresh (monotonic : ℚ)
  | judge (told : AlertBound → Bool)
  /-- A sweep, over the cadences in the order in which the store returns them. -/
  | sweep (now : ℚ) (cadences : List (δ × ℚ)) (told : δ → Bool)

/-- `evaluate` on a reading that should be evaluated, against the cache; nothing while the probe is
recorded silent. -/
def AlarmEngine.transitions (e : AlarmEngine δ) (r : SensorReading δ) : List AlertTransition :=
  match e.thresholds r.sensorId, r.evaluable with
  | some t, some value =>
      if t.configured && !e.silent r.sensorId then evaluate value t (e.opened r.sensorId) else []
  | _, _ => []

/-- The probe has been heard, is not known to be silent, and is past its deadline. -/
def AlarmEngine.overdue (e : AlarmEngine δ) (now : ℚ) (x : δ × ℚ) : Bool :=
  !e.silent x.1 && (e.lastSeen x.1).any fun last => decide (silenceDeadlineS x.2 ≤ now - last)

/-- How far a loop gets that a message which fails ends. -/
def reached (told : δ → Bool) : List δ → List δ
  | [] => []
  | d :: ds => d :: if told d then reached told ds else []

namespace Alarms
variable [LinearOrder δ]

/-- `cadences`. -/
def cadences (s : Alarms δ χ) : List (δ × ℚ) :=
  s.devices.rows.filterMap fun r =>
    let w := s.columns r.deviceId
    if r.kind = .sensor ∧ w.enabled then w.pollIntervalS.map fun c => (r.deviceId, c) else none

/-- `thresholds`: the bands of the sensors that have a bound. -/
def bands (s : Alarms δ χ) (d : δ) : Option Thresholds :=
  match s.devices.find d with
  | some r =>
      if r.kind = .sensor then (s.columns d).band.filter Thresholds.configured else none
  | none => none

/-- An episode of either class is open on the device. -/
def sounding (s : Alarms δ χ) (d : δ) : Prop :=
  s.silences d = true ∨ ∃ b, s.episodes d b = true

/-- `raise_silence`, and the mirror. -/
def raiseSilence (s : Alarms δ χ) (d : δ) : Option (Alarms δ χ) :=
  if s.silences d then none  -- `uq_sensor_alerts_one_active_per_class_bound`
  else some { s with
    silences := Function.update s.silences d true
    engine := { s.engine with silent := Function.update s.engine.silent d true } }

/-- `clear_silence`, and the mirror. -/
def clearSilence (s : Alarms δ χ) (d : δ) : Option (Alarms δ χ) :=
  if s.silences d then
    some { s with
      silences := Function.update s.silences d false
      engine := { s.engine with silent := Function.update s.engine.silent d false } }
  else none  -- no open silence to clear

/-- `raise_episode` and `clear_episode`, and the mirror. -/
def write (s : Alarms δ χ) (d : δ) (t : AlertTransition) : Option (Alarms δ χ) :=
  match t.state, s.episodes d t.bound with
  | .breach, false => some { s with
      episodes := setBound s.episodes d t.bound true
      engine := { s.engine with opened := setBound s.engine.opened d t.bound true } }
  | .clear, true => some { s with
      episodes := setBound s.episodes d t.bound false
      engine := { s.engine with opened := setBound s.engine.opened d t.bound false } }
  | .breach, true => none  -- `uq_sensor_alerts_one_active_per_class_bound`
  | .clear, false => none  -- no open episode to clear

/-- The loop of `AlertSupervisor.on_reading`. -/
def applyAll (d : δ) (told : AlertBound → Bool) :
    List AlertTransition → Alarms δ χ → Option (Alarms δ χ)
  | [], s => some s
  | t :: ts, s => (s.write d t).bind fun s => if told t.bound then applyAll d told ts s else some s

/-- The loop of `SilenceWatcher.sweep`. -/
def sweepOver (now : ℚ) (told : δ → Bool) : List (δ × ℚ) → Alarms δ χ → Option (Alarms δ χ)
  | [], s => some s
  | x :: xs, s =>
      if s.engine.overdue now x then
        (s.raiseSilence x.1).bind fun s => if told x.1 then sweepOver now told xs s else some s
      else sweepOver now told xs s

/-- The engine turns to the next message. -/
def idle (s : Alarms δ χ) : Alarms δ χ := { s with engine := { s.engine with handling := .idle } }

/-- `SilenceWatcher.on_reading`; a message that fails drops the reading. -/
def hear (s : Alarms δ χ) (r : SensorReading δ) (now : ℚ) (told : Bool) : Option (Alarms δ χ) :=
  if r.evaluable.isSome then
    let seen := { s with engine :=
      { s.engine with
        handling := .heard r
        lastSeen := Function.update s.engine.lastSeen r.sensorId (some now) } }
    if s.engine.silent r.sensorId then
      (seen.clearSilence r.sensorId).map fun s => if told then s else s.idle
    else some seen
  else some { s with engine := { s.engine with handling := .heard r } }

/-- The bands and the open episodes, read again. -/
def reread (s : Alarms δ χ) (monotonic : ℚ) : AlarmEngine δ :=
  { s.engine with
    thresholds := s.bands
    thresholdsReadAt := monotonic
    opened := reconcile s.engine.opened s.engine.opened s.episodes }

attribute [local instance] lawfulBEq_of_linearOrder in
/-- `_start_alerting`. -/
def start (s : Alarms δ χ) (now monotonic : ℚ) : Alarms δ χ :=
  let primed : AlarmEngine δ :=
    { handling := .idle
      lastSeen := fun d => if d ∈ s.cadences.map Prod.fst then some now else none
      silent := s.silences
      thresholds := fun _ => none
      thresholdsReadAt := 0
      opened := s.episodes }
  { s with engine := { s with engine := primed }.reread monotonic }

end Alarms

section Steps
variable [LinearOrder δ] [DecidableEq χ]

/-- A step of the API or of the engine. -/
def Alarms.step (refreshS : ℚ) (s : Alarms δ χ) : AlarmAction δ χ → Option (Alarms δ χ)
  | .bind deviceId kind driverType binding role pollIntervalS =>
      match s.devices.bindDevice deviceId kind driverType binding role with
      | some (db, d, true) => some { s with
          devices := db
          columns := Function.update s.columns d (.fresh pollIntervalS) }
      | some (db, _, false) => some { s with devices := db }
      | none => none
  | .unbind deviceId =>
      (s.devices.unadoptDevice deviceId).map fun (db, _) => { s with devices := db }
  | .readopt deviceId =>
      match s.devices.readoptDevice deviceId with
      | .readopted db _ => some { s with devices := db }
      | .channelHeld _ | .missing => none
  | .forget deviceId referenced =>
      match s.devices.forgetDevice deviceId referenced with
      | .forgotten db => some { s with devices := db }
      | .adopted | .missing | .referenced => none
  | .announce deviceId pollIntervalS =>
      let w := match s.devices.find deviceId with
        | some _ => { s.columns deviceId with pollIntervalS := some pollIntervalS }
        | none => .fresh (some pollIntervalS)
      some { s with
        devices := s.devices.upsertSensor deviceId
        columns := Function.update s.columns deviceId w }
  | .setThresholds deviceId band =>
      match s.devices.find deviceId with
      | some _ => some { s with
          columns := Function.update s.columns deviceId { s.columns deviceId with band := band }
          episodes := Function.update s.episodes deviceId fun b =>
            s.episodes deviceId b && watches band b }
      | none => none
  | .start now monotonic => some (s.start now monotonic)
  | .hear r now told =>
      match s.engine.handling with
      | .idle => s.hear r now told
      | .heard _ | .refreshed _ => none
  | .refresh monotonic =>
      match s.engine.handling with
      | .heard r =>
          let e := if monotonic - s.engine.thresholdsReadAt < refreshS then s.engine
            else s.reread monotonic
          some { s with engine := { e with handling := .refreshed r } }
      | .idle | .refreshed _ => none
  | .judge told =>
      match s.engine.handling with
      | .refreshed r =>
          (Alarms.applyAll r.sensorId told (s.engine.transitions r) s).map Alarms.idle
      | .idle | .heard _ => none
  | .sweep now cadences told =>
      if cadences.Perm s.cadences then Alarms.sweepOver now told cadences s else none

/-- The API and the engine; `refreshS` is `threshold_refresh_s`. -/
def alarms (δ χ : Type) [LinearOrder δ] [DecidableEq χ] (refreshS : ℚ) :
    Machine (Alarms δ χ) (AlarmAction δ χ) where
  step := Alarms.step refreshS

end Steps

/-! ### Following ownership -/

/-- What has followed the unbind or the forget of a device. -/
structure Since where
  swept : Bool
  refreshed : Bool
  deriving DecidableEq

/-- A sweep and a refresh have followed it. -/
def Since.answered (n : Option Since) : Bool := n.any fun n => n.swept && n.refreshed

/-- What has come to pass, of each device. -/
structure AlarmNotes (δ : Type) where
  /-- Since its unbind or its forget. -/
  since : δ → Option Since
  /-- A sweep has missed it, and no good reading has been heard since. -/
  missed : δ → Bool
  /-- A reading was out of the bound; none since was back in it, and the bound was not dropped. -/
  outside : δ → AlertBound → Bool

/-- How far the loop of `on_reading` gets. -/
def judged (told : AlertBound → Bool) : List AlertTransition → List AlertTransition
  | [] => []
  | t :: ts => t :: if told t.bound then judged told ts else []

section Follow
variable [LinearOrder δ] [DecidableEq χ]

/-- No unbind and no forget is on record yet, and what is open is to be accounted for. -/
def AlarmNotes.start (s : Alarms δ χ) : AlarmNotes δ := ⟨fun _ => none, s.silences, s.episodes⟩

/-- An unbind starts it anew; a forget does where no unbind has. -/
def Alarms.noteSince (refreshS : ℚ) (s : Alarms δ χ) (a : AlarmAction δ χ) (f : δ → Option Since) :
    δ → Option Since :=
  match a with
  | .unbind d => Function.update f d (some ⟨false, false⟩)
  | .forget d _ => Function.update f d (some ((f d).getD ⟨false, false⟩))
  | .sweep _ _ _ => fun d => (f d).map fun n => { n with swept := true }
  | .refresh monotonic =>
      if monotonic - s.engine.thresholdsReadAt < refreshS then f
      else fun d => (f d).map fun n => { n with refreshed := true }
  | .start _ _ => fun d => (f d).map fun n => { n with refreshed := true }
  | _ => f

/-- A sweep misses the devices that it comes to, until a reading of one is heard. -/
def Alarms.noteMissed (s : Alarms δ χ) (a : AlarmAction δ χ) (m : δ → Bool) : δ → Bool :=
  match a with
  | .sweep now cadences told => fun d =>
      m d || (reached told ((cadences.filter (s.engine.overdue now)).map Prod.fst)).any
        fun d' => decide (d' = d)
  | .hear r _ _ =>
      if r.evaluable.isSome && s.engine.silent r.sensorId then Function.update m r.sensorId false
      else m
  | _ => m

/-- A reading goes out of a bound or comes back in it, and `set_thresholds` drops bounds. -/
def Alarms.noteOutside (s : Alarms δ χ) (a : AlarmAction δ χ) (o : δ → AlertBound → Bool) :
    δ → AlertBound → Bool :=
  match a, s.engine.handling with
  | .judge told, .refreshed r =>
      (judged told (s.engine.transitions r)).foldl
        (fun o t => setBound o r.sensorId t.bound (decide (t.state = .breach))) o
  | .setThresholds d band, _ => Function.update o d fun b => o d b && watches band b
  | _, _ => o

/-- What is noted at a step. -/
def Alarms.note (refreshS : ℚ) (s : Alarms δ χ) (a : AlarmAction δ χ) (f : AlarmNotes δ) :
    AlarmNotes δ :=
  ⟨s.noteSince refreshS a f.since, s.noteMissed a f.missed, s.noteOutside a f.outside⟩

/-- The API and the engine, and what has come to pass. -/
abbrev followedAlarms (δ χ : Type) [LinearOrder δ] [DecidableEq χ] (refreshS : ℚ) :
    Machine (Alarms δ χ × AlarmNotes δ) (AlarmAction δ χ) :=
  (alarms δ χ refreshS).ghost fun s a _ => s.note refreshS a

/-- Once a sweep and a refresh have followed its unbind or forget, no episode is open on a device
that is not adopted. -/
def Quiet (p : Alarms δ χ × AlarmNotes δ) : Prop :=
  ∀ d, Since.answered (p.2.since d) = true → p.1.devices.isAdopted d = false → ¬ p.1.sounding d

/-- The step opens silences of adopted devices only, and leaves the devices quiet. -/
def FollowsOwnership (refreshS : ℚ) (p : Alarms δ χ × AlarmNotes δ) (a : AlarmAction δ χ) : Prop :=
  ∀ q, (followedAlarms δ χ refreshS).step p a = some q → Quiet q ∧
    ∀ d, p.1.silences d = false → q.1.silences d = true → p.1.devices.isAdopted d = true

/-- Somebody attends to the probes that nobody owns: nothing in the step would leave an alarm on
one. -/
structure Attended (refreshS : ℚ) (p : Alarms δ χ × AlarmNotes δ) (a : AlarmAction δ χ) :
    Prop where
  /-- By the time that the sweep and the refresh are both there, a good reading has been heard of it
  since the last sweep that missed it, and of each bound that a reading was out of, one has been
  back in it since, or the bound has been dropped. -/
  cleared : ∀ d, Since.answered (p.2.since d) = false →
    Since.answered (p.1.noteSince refreshS a p.2.since d) = true →
      p.1.devices.isAdopted d = false → p.2.missed d = false ∧ ∀ b, p.2.outside d b = false
  /-- No sweep comes to one that is overdue. -/
  reports : ∀ now cadences told, a = .sweep now cadences told →
    ∀ d ∈ reached told ((cadences.filter (p.1.engine.overdue now)).map Prod.fst),
      p.1.devices.isAdopted d = true
  /-- And no reading of it is out of the band that the engine has of it. -/
  inBand : ∀ r told, p.1.engine.handling = .refreshed r → a = .judge told →
    Since.answered (p.2.since r.sensorId) = true → p.1.devices.isAdopted r.sensorId = false →
      ∀ t ∈ p.1.engine.transitions r, t.state ≠ .breach

end Follow

/-! ### A sweep -/

section Steps
variable [LinearOrder δ] {refreshS now : ℚ} {s s' : Alarms δ χ} {d e : δ} {b : AlertBound}

/-- What a sweep does that opens these silences. -/
structure Swept (s s' : Alarms δ χ) (raised : List δ) : Prop where
  devices : s'.devices = s.devices
  episodes : s'.episodes = s.episodes
  silences : ∀ d, s'.silences d = true ↔ s.silences d = true ∨ d ∈ raised
  fresh : ∀ d ∈ raised, s.silences d = false

/-- `raise_silence` marks its own device, and no other. -/
theorem overdue_raiseSilence {x : δ × ℚ} (h : s.raiseSilence d = some s') (hne : x.1 ≠ d) :
    s'.engine.overdue now x = s.engine.overdue now x := by
  unfold Alarms.raiseSilence at h
  split at h
  · cases h
  · cases h
    simp [AlarmEngine.overdue, Function.update_of_ne hne]

/-- To raise a silence is to sweep one probe. -/
theorem swept_raiseSilence (h : s.raiseSilence d = some s') : Swept s s' [d] := by
  unfold Alarms.raiseSilence at h
  split at h
  · cases h
  · next hno =>
      cases h
      refine ⟨rfl, rfl, fun e => ?_, fun e he => ?_⟩
      · by_cases hed : e = d
        · simp [hed]
        · simp [hed]
      · rw [List.mem_singleton.mp he]
        exact Bool.eq_false_iff.mpr hno

omit [LinearOrder δ] in
/-- A sweep that goes on after it has raised one. -/
theorem Swept.trans {s₁ : Alarms δ χ} {ds : List δ} (h₁ : Swept s s₁ [d]) (h₂ : Swept s₁ s' ds) :
    Swept s s' (d :: ds) where
  devices := h₂.devices.trans h₁.devices
  episodes := h₂.episodes.trans h₁.episodes
  silences := fun e => by
    rw [h₂.silences e, h₁.silences e, List.mem_singleton, List.mem_cons, or_assoc]
  fresh := by
    intro e he
    rcases List.mem_cons.mp he with rfl | he
    · exact h₁.fresh e List.mem_cons_self
    · by_contra hopen
      have hopen := (h₁.silences e).mpr (.inl (Bool.eq_true_of_not_eq_false hopen))
      exact Bool.false_ne_true ((h₂.fresh e he).symm.trans hopen)

/-- **A sweep opens a silence for every probe that is overdue**, as far as it gets. -/
theorem sweepOver_spec {told : δ → Bool} {xs : List (δ × ℚ)} (hxs : (xs.map Prod.fst).Nodup)
    (h : Alarms.sweepOver now told xs s = some s') :
    Swept s s' (reached told ((xs.filter (s.engine.overdue now)).map Prod.fst)) := by
  induction xs generalizing s with
  | nil =>
      cases h
      exact ⟨rfl, rfl, fun d => by simp [reached], nofun⟩
  | cons x xs ih =>
      obtain ⟨hx, hxs⟩ := List.nodup_cons.mp hxs
      rw [Alarms.sweepOver] at h
      split at h
      · next hdue =>
          obtain ⟨s₁, h₁, h⟩ := Option.bind_eq_some_iff.mp h
          rw [List.filter_cons_of_pos hdue, List.map_cons, reached]
          split at h
          · next htold =>
              rw [if_pos htold]
              have hrest : xs.filter (s₁.engine.overdue now) = xs.filter (s.engine.overdue now) :=
                List.filter_congr fun y hy => overdue_raiseSilence h₁ fun he =>
                  hx (he ▸ List.mem_map_of_mem hy)
              exact (swept_raiseSilence h₁).trans (hrest ▸ ih hxs h)
          · next htold =>
              cases h
              rw [if_neg htold]
              exact swept_raiseSilence h₁
      · next hdue =>
          rw [List.filter_cons_of_neg hdue]
          exact ih hxs h

omit [LinearOrder δ] in
/-- The store returns a cadence for a device once. -/
theorem nodup_cadences : (s.cadences.map Prod.fst).Nodup := by
  have hsub : (s.cadences.map Prod.fst).Sublist (s.devices.rows.map DeviceRow.deviceId) := by
    unfold Alarms.cadences
    induction s.devices.rows with
    | nil => exact .slnil
    | cons r rs ih =>
        rw [List.filterMap_cons, List.map_cons]
        split
        · exact ih.cons _
        · next x hx =>
            have hid : x.1 = r.deviceId := by
              simp only at hx
              split at hx
              · obtain ⟨c, -, rfl⟩ := Option.map_eq_some_iff.mp hx
                rfl
              · cases hx
            rw [List.map_cons, hid]
            exact ih.cons_cons _
  exact s.devices.unique.sublist hsub

/-! ### A reading -/

/-- **What a transition writes**: its own bound, which must be in the other state. -/
theorem write_spec {t : AlertTransition} (h : s.write d t = some s') :
    s'.devices = s.devices ∧ s'.silences = s.silences ∧
      (s.episodes d t.bound = true ↔ t.state = .clear) ∧
      s'.episodes = setBound s.episodes d t.bound (decide (t.state = .breach)) := by
  unfold Alarms.write at h
  split at h
  · next hstate hopen => cases h; simp [hstate, hopen]
  · next hstate hopen => cases h; simp [hstate, hopen]
  · cases h
  · cases h

/-- What a reading changes is its own episodes. -/
theorem applyAll_frame {told : AlertBound → Bool} {ts : List AlertTransition}
    (h : Alarms.applyAll d told ts s = some s') :
    s'.devices = s.devices ∧ s'.silences = s.silences := by
  induction ts generalizing s with
  | nil => cases h; exact ⟨rfl, rfl⟩
  | cons t ts ih =>
      obtain ⟨s₁, hw, h⟩ := Option.bind_eq_some_iff.mp h
      obtain ⟨hdevices, hsilences, -⟩ := write_spec hw
      split at h
      · exact ⟨(ih h).1.trans hdevices, (ih h).2.trans hsilences⟩
      · cases h; exact ⟨hdevices, hsilences⟩

/-- An episode that is open after the transitions was so before, or is the breach of one. -/
theorem applyAll_opens {told : AlertBound → Bool} {ts : List AlertTransition}
    (h : Alarms.applyAll d told ts s = some s') (hb : s'.episodes e b = true) :
    s.episodes e b = true ∨ e = d ∧ ∃ t ∈ ts, t.state = .breach := by
  induction ts generalizing s with
  | nil => cases h; exact .inl hb
  | cons t ts ih =>
      obtain ⟨s₁, hw, h⟩ := Option.bind_eq_some_iff.mp h
      have h₁ : s₁.episodes e b = true ∨ e = d ∧ ∃ t ∈ ts, t.state = .breach := by
        split at h
        · exact ih h
        · cases h; exact .inl hb
      rcases h₁ with h₁ | ⟨he, t', ht', hbreach⟩
      · rw [(write_spec hw).2.2.2, setBound] at h₁
        split at h₁
        · next he => exact .inr ⟨he.1, t, List.mem_cons_self, of_decide_eq_true h₁⟩
        · exact .inl h₁
      · exact .inr ⟨he, t', List.mem_cons_of_mem _ ht', hbreach⟩

/-- A bound that is open stays so through transitions that do not clear it. -/
theorem applyAll_keeps {told : AlertBound → Bool} {ts : List AlertTransition}
    (h : Alarms.applyAll d told ts s = some s') (hb : s.episodes d b = true)
    (hno : ∀ t ∈ ts, t.bound = b → t.state = .breach) : s'.episodes d b = true := by
  induction ts generalizing s with
  | nil => cases h; exact hb
  | cons t ts ih =>
      obtain ⟨s₁, hw, h⟩ := Option.bind_eq_some_iff.mp h
      have h₁ : s₁.episodes d b = true := by
        rw [(write_spec hw).2.2.2, setBound]
        split
        · next he => exact decide_eq_true (hno t List.mem_cons_self he.2.symm)
        · exact hb
      split at h
      · exact ih h h₁ fun t ht => hno t (List.mem_cons_of_mem _ ht)
      · cases h; exact h₁

/-- **A device with nothing open** has something open after any transition. -/
theorem applyAll_of_none {told : AlertBound → Bool} {ts : List AlertTransition}
    (h : Alarms.applyAll d told ts s = some s') (hnone : ∀ b, s.episodes d b = false)
    (hts : ts ≠ []) (hsame : ∀ t ∈ ts, ∀ t' ∈ ts, t.bound = t'.bound → t.state = t'.state) :
    ∃ b, s'.episodes d b = true := by
  cases ts with
  | nil => exact absurd rfl hts
  | cons t ts =>
      obtain ⟨s₁, hw, h⟩ := Option.bind_eq_some_iff.mp h
      obtain ⟨-, -, hclear, hep⟩ := write_spec hw
      have hbreach : t.state = .breach := by
        cases hstate : t.state with
        | breach => rfl
        | clear => exact absurd (hclear.mpr hstate) (Bool.eq_false_iff.mp (hnone t.bound))
      have h₁ : s₁.episodes d t.bound = true := by simp [hep, setBound, hbreach]
      refine ⟨t.bound, ?_⟩
      split at h
      · refine applyAll_keeps h h₁ fun t' ht' hb => ?_
        exact (hsame t' (List.mem_cons_of_mem _ ht') t List.mem_cons_self hb).trans hbreach
      · cases h; exact h₁

omit [LinearOrder δ] in
/-- A reading breaches a bound that is not open, and clears one that is. -/
theorem state_of_mem_transitions {engine : AlarmEngine δ} {r : SensorReading δ}
    {t : AlertTransition} (ht : t ∈ engine.transitions r) :
    t.state = .breach ↔ engine.opened r.sensorId t.bound = false := by
  unfold AlarmEngine.transitions at ht
  split at ht
  · split at ht
    · exact (mem_evaluate ht).2
    · cases ht
  · cases ht

omit [LinearOrder δ] in
/-- Two transitions of a reading that are of one bound go the same way. -/
theorem transitions_same {engine : AlarmEngine δ} {r : SensorReading δ} {t t' : AlertTransition}
    (ht : t ∈ engine.transitions r) (ht' : t' ∈ engine.transitions r) (hb : t.bound = t'.bound) :
    t.state = t'.state := by
  have hs : t.state = .breach ↔ t'.state = .breach := by
    rw [state_of_mem_transitions ht, state_of_mem_transitions ht', hb]
  cases hstate : t.state with
  | breach => exact (hs.mp hstate).symm
  | clear =>
      cases hstate' : t'.state with
      | breach => exact absurd (hstate.symm.trans (hs.mpr hstate')) nofun
      | clear => rfl

end Steps

/-! ### A step -/

section Invariant
variable [LinearOrder δ] [DecidableEq χ] {refreshS : ℚ} {s s' : Alarms δ χ} {d : δ}
  {a : AlarmAction δ χ} {f : AlarmNotes δ}

/-- A sweep raises silences of the probes that it reaches. -/
theorem step_sweep {now : ℚ} {cadences : List (δ × ℚ)} {told : δ → Bool}
    (h : s.step refreshS (.sweep now cadences told) = some s') :
    Swept s s' (reached told ((cadences.filter (s.engine.overdue now)).map Prod.fst)) := by
  simp only [Alarms.step] at h
  split at h
  · next hperm => exact sweepOver_spec ((hperm.map Prod.fst).nodup_iff.mpr nodup_cadences) h
  · cases h

/-- A reading is judged by the bands that the engine has in hand. -/
theorem step_judge {told : AlertBound → Bool} (h : s.step refreshS (.judge told) = some s') :
    ∃ r s₁, s.engine.handling = .refreshed r ∧
      Alarms.applyAll r.sensorId told (s.engine.transitions r) s = some s₁ ∧ s' = s₁.idle := by
  simp only [Alarms.step] at h
  split at h
  · next r hr =>
      obtain ⟨s₁, h₁, rfl⟩ := Option.map_eq_some_iff.mp h
      exact ⟨r, s₁, hr, h₁, rfl⟩
  · cases h
  · cases h

/-- Every step, with what it changes of the record. -/
inductive AlarmMoves (s : Alarms δ χ) : AlarmAction δ χ → Alarms δ χ → Prop where
  /-- A request: only an unbind ends an adoption, and no episode is opened. -/
  | request {a : AlarmAction δ χ} {db : Devices δ χ} {columns : δ → SensorColumns}
      {episodes : δ → AlertBound → Bool}
      (hdb : ∀ d, a ≠ .unbind d → s.devices.isAdopted d = true → db.isAdopted d = true)
      (hep : ∀ d b, episodes d b = true → s.episodes d b = true) :
      AlarmMoves s a { s with devices := db, columns := columns, episodes := episodes }
  /-- A start, a reading that is heard and a refresh: no silence is opened. -/
  | listen {a : AlarmAction δ χ} {silences : δ → Bool} {engine : AlarmEngine δ}
      (hsil : ∀ d, silences d = true → s.silences d = true) :
      AlarmMoves s a { s with silences := silences, engine := engine }
  | judge {r : SensorReading δ} {told : AlertBound → Bool} {s₁ : Alarms δ χ}
      (hr : s.engine.handling = .refreshed r)
      (h₁ : Alarms.applyAll r.sensorId told (s.engine.transitions r) s = some s₁) :
      AlarmMoves s (.judge told) s₁.idle
  | sweep {now : ℚ} {cadences : List (δ × ℚ)} {told : δ → Bool} {s' : Alarms δ χ}
      (h : Swept s s' (reached told ((cadences.filter (s.engine.overdue now)).map Prod.fst))) :
      AlarmMoves s (.sweep now cadences told) s'

omit [DecidableEq χ] in
/-- `SilenceWatcher.on_reading` closes a silence, or nothing. -/
theorem hear_moves {r : SensorReading δ} {now : ℚ} {told : Bool}
    (h : s.hear r now told = some s') : AlarmMoves s (.hear r now told) s' := by
  unfold Alarms.hear at h
  split at h
  · simp only at h
    split at h
    · obtain ⟨s₁, h₁, rfl⟩ := Option.map_eq_some_iff.mp h
      unfold Alarms.clearSilence at h₁
      split at h₁
      · next hopen =>
          cases h₁
          have hsub : ∀ e, Function.update s.silences r.sensorId false e = true →
              s.silences e = true := by
            intro e he
            by_cases hed : e = r.sensorId
            · rw [hed]; exact hopen
            · rwa [Function.update_of_ne hed] at he
          cases told <;> exact .listen hsub
      · cases h₁
    · cases h; exact .listen fun _ => id
  · cases h; exact .listen fun _ => id

/-- **Inversion.**  A step does one of `AlarmMoves`. -/
theorem alarm_moves (h : s.step refreshS a = some s') : AlarmMoves s a s' := by
  cases a with
  | bind =>
      simp only [Alarms.step] at h
      split at h
      · next hb =>
          cases h
          exact .request (fun _ _ => Devices.isAdopted_bindDevice hb) fun _ _ => id
      · next hb =>
          cases h
          exact .request (fun _ _ => Devices.isAdopted_bindDevice hb) fun _ _ => id
      · cases h
  | unbind e =>
      obtain ⟨⟨db, r⟩, hu, rfl⟩ := Option.map_eq_some_iff.mp h
      refine .request (fun d hne => ?_) fun _ _ => id
      exact Devices.isAdopted_unadoptDevice hu fun he => hne (he ▸ rfl)
  | readopt =>
      simp only [Alarms.step] at h
      split at h
      · next hr =>
          cases h
          exact .request (fun _ _ => Devices.isAdopted_readoptDevice hr) fun _ _ => id
      · cases h
      · cases h
  | forget =>
      simp only [Alarms.step] at h
      split at h
      · next hf =>
          cases h
          exact .request (fun _ _ => Devices.isAdopted_forgetDevice hf) fun _ _ => id
      · cases h
      · cases h
      · cases h
  | announce =>
      cases h
      exact .request (fun _ _ => Devices.isAdopted_upsertSensor) fun _ _ => id
  | setThresholds d band =>
      simp only [Alarms.step] at h
      split at h
      · cases h
        refine .request (fun _ _ => id) fun e b hb => ?_
        by_cases he : e = d
        · subst he
          simp only [Function.update_self, Bool.and_eq_true] at hb
          exact hb.1
        · simpa only [Function.update_of_ne he] using hb
      · cases h
  | start => cases h; exact .listen fun _ => id
  | hear =>
      simp only [Alarms.step] at h
      split at h
      · exact hear_moves h
      · cases h
      · cases h
  | refresh =>
      simp only [Alarms.step] at h
      split at h
      · cases h; exact .listen fun _ => id
      · cases h
      · cases h
  | judge told =>
      obtain ⟨r, s₁, hr, h₁, rfl⟩ := step_judge h
      exact .judge hr h₁
  | sweep => exact .sweep (step_sweep h)

/-- **Only an unbind ends an adoption**, its own device's. -/
theorem isAdopted_of_step (h : s.step refreshS a = some s') (hne : a ≠ .unbind d)
    (hd : s.devices.isAdopted d = true) : s'.devices.isAdopted d = true := by
  cases alarm_moves h with
  | request hdb => exact hdb d hne hd
  | listen => exact hd
  | judge _ h₁ =>
      rw [Alarms.idle, (applyAll_frame h₁).1]
      exact hd
  | sweep h => rw [h.devices]; exact hd

/-- **A silence that is open after a step** was so before, or the step is a sweep that comes to its
device. -/
theorem silence_of_step (h : s.step refreshS a = some s') (hd : s'.silences d = true) :
    s.silences d = true ∨ ∃ now cadences told, a = .sweep now cadences told ∧
      d ∈ reached told ((cadences.filter (s.engine.overdue now)).map Prod.fst) := by
  cases alarm_moves h with
  | request => exact .inl hd
  | listen hsil => exact .inl (hsil d hd)
  | judge _ h₁ => exact .inl ((applyAll_frame h₁).2 ▸ hd)
  | sweep h => exact ((h.silences d).mp hd).imp id fun hd => ⟨_, _, _, rfl, hd⟩

/-- **An episode that is open after a step** was so before, or the step judges a reading of its
device that has a breach. -/
theorem episode_of_step {b : AlertBound} (h : s.step refreshS a = some s')
    (hb : s'.episodes d b = true) : s.episodes d b = true ∨ ∃ r told,
      s.engine.handling = .refreshed r ∧ a = .judge told ∧ d = r.sensorId ∧
        ∃ t ∈ s.engine.transitions r, t.state = .breach := by
  cases alarm_moves h with
  | request _ hep => exact .inl (hep d b hb)
  | listen => exact .inl hb
  | judge hr h₁ => exact (applyAll_opens h₁ hb).imp id fun ⟨he, ht⟩ => ⟨_, _, hr, rfl, he, ht⟩
  | sweep h => exact .inl (h.episodes ▸ hb)

omit [DecidableEq χ] in
/-- An unbind leaves nothing answered. -/
theorem ne_unbind_of_answered {f : δ → Option Since}
    (h : Since.answered (s.noteSince refreshS a f d) = true) : a ≠ .unbind d := by
  rintro rfl
  simp [Alarms.noteSince, Since.answered] at h

/-- A step that answers an unbind or a forget writes no row, and closes nothing. -/
theorem frame_of_answering {f : δ → Option Since} (h : s.step refreshS a = some s')
    (hno : Since.answered (f d) = false)
    (hyes : Since.answered (s.noteSince refreshS a f d) = true) :
    s'.devices = s.devices ∧ (s.sounding d → s'.sounding d) := by
  cases a with
  | sweep =>
      have hsw := step_sweep h
      refine ⟨hsw.devices, ?_⟩
      rintro (hsil | ⟨b, hb⟩)
      · exact .inl ((hsw.silences d).mpr (.inl hsil))
      · exact .inr ⟨b, hsw.episodes ▸ hb⟩
  | start => cases h; exact ⟨rfl, id⟩
  | refresh =>
      simp only [Alarms.step] at h
      split at h
      · cases h; exact ⟨rfl, id⟩
      · cases h
      · cases h
  | unbind e =>
      by_cases hd : d = e
      · exact absurd (hd ▸ rfl) (ne_unbind_of_answered hyes)
      · simp only [Alarms.noteSince, Function.update_of_ne hd] at hyes
        exact absurd (hno.symm.trans hyes) Bool.false_ne_true
  | forget e =>
      have hsame :
          Since.answered (s.noteSince refreshS (.forget e ‹_›) f d) = Since.answered (f d) := by
        by_cases hd : d = e
        · subst hd
          cases hf : f d <;> simp [Alarms.noteSince, Since.answered, hf]
        · simp only [Alarms.noteSince, Function.update_of_ne hd]
      exact absurd (hno.symm.trans (hsame.symm.trans hyes)) Bool.false_ne_true
  | _ => exact absurd (hno.symm.trans hyes) Bool.false_ne_true

/-! ### What is open -/

/-- The open episodes are those that the notes account for. -/
def Noted (s : Alarms δ χ) (f : AlarmNotes δ) : Prop :=
  s.silences = f.missed ∧ s.episodes = f.outside

omit [DecidableEq χ] in
/-- `SilenceWatcher.on_reading` closes the silence of a probe that it knows to be silent. -/
theorem hear_silences {r : SensorReading δ} {now : ℚ} {told : Bool}
    (h : s.hear r now told = some s') :
    s'.silences = s.noteMissed (.hear r now told) s.silences ∧ s'.episodes = s.episodes := by
  unfold Alarms.hear at h
  split at h
  · next hgood =>
      simp only at h
      split at h
      · next hsilent =>
          obtain ⟨s₁, h₁, rfl⟩ := Option.map_eq_some_iff.mp h
          unfold Alarms.clearSilence at h₁
          split at h₁
          · cases h₁
            cases told <;> simp [Alarms.noteMissed, Alarms.idle, hgood, hsilent]
          · cases h₁
      · next hsilent =>
          cases h
          simp [Alarms.noteMissed, hsilent]
  · next hgood =>
      cases h
      simp [Alarms.noteMissed, hgood]

omit [DecidableEq χ] in
/-- The transitions, as far as they get. -/
theorem applyAll_episodes {told : AlertBound → Bool} {ts : List AlertTransition}
    (h : Alarms.applyAll d told ts s = some s') :
    s'.episodes = (judged told ts).foldl
      (fun o t => setBound o d t.bound (decide (t.state = .breach))) s.episodes := by
  induction ts generalizing s with
  | nil => cases h; rfl
  | cons t ts ih =>
      obtain ⟨s₁, hw, h⟩ := Option.bind_eq_some_iff.mp h
      rw [judged, List.foldl_cons, ← (write_spec hw).2.2.2]
      split at h
      · next htold =>
          rw [if_pos htold]
          exact ih h
      · next htold =>
          cases h
          rw [if_neg htold]
          rfl

/-- **Step.**  What is open is what the sweeps, the readings and the bands have left. -/
theorem noted_step (hrec : Noted s f) (h : s.step refreshS a = some s') :
    Noted s' (s.note refreshS a f) := by
  obtain ⟨hsil, hep⟩ := hrec
  change s'.silences = s.noteMissed a f.missed ∧ s'.episodes = s.noteOutside a f.outside
  rw [← hsil, ← hep]
  cases a with
  | bind =>
      simp only [Alarms.step] at h
      split at h <;> cases h <;> exact ⟨rfl, rfl⟩
  | unbind =>
      obtain ⟨⟨db, r⟩, -, rfl⟩ := Option.map_eq_some_iff.mp h
      exact ⟨rfl, rfl⟩
  | readopt =>
      simp only [Alarms.step] at h
      split at h <;> cases h
      exact ⟨rfl, rfl⟩
  | forget =>
      simp only [Alarms.step] at h
      split at h <;> cases h
      exact ⟨rfl, rfl⟩
  | announce => cases h; exact ⟨rfl, rfl⟩
  | setThresholds =>
      simp only [Alarms.step] at h
      split at h <;> cases h
      exact ⟨rfl, rfl⟩
  | start => cases h; exact ⟨rfl, rfl⟩
  | hear =>
      simp only [Alarms.step] at h
      split at h
      · exact hear_silences h
      · cases h
      · cases h
  | refresh =>
      simp only [Alarms.step] at h
      split at h <;> cases h
      exact ⟨rfl, rfl⟩
  | judge told =>
      obtain ⟨r, s₁, hr, h₁, rfl⟩ := step_judge h
      refine ⟨(applyAll_frame h₁).2, ?_⟩
      simp only [Alarms.noteOutside, hr]
      exact (applyAll_episodes h₁ :)
  | sweep now cadences told =>
      have hsw := step_sweep h
      refine ⟨funext fun d => ?_, hsw.episodes⟩
      rw [Bool.eq_iff_iff, hsw.silences]
      simp [Alarms.noteMissed]

omit [LinearOrder δ] [DecidableEq χ] in
/-- Nothing is open on a device that the notes have nothing on. -/
theorem Noted.sounding_iff (hrec : Noted s f) :
    ¬ s.sounding d ↔ f.missed d = false ∧ ∀ b, f.outside d b = false := by
  simp [Alarms.sounding, hrec.1, hrec.2]

/-- **Step.**  What is attended to follows ownership. -/
theorem follows_of_attended (hrec : Noted s f) (hquiet : Quiet (s, f)) (hC : Attended refreshS (s, f) a)
    (h : s.step refreshS a = some s') : Quiet (s', s.note refreshS a f) ∧
      ∀ d, s.silences d = false → s'.silences d = true → s.devices.isAdopted d = true := by
  have hopens : ∀ d, s.silences d = false → s'.silences d = true →
      s.devices.isAdopted d = true := by
    intro d hno hyes
    rcases silence_of_step h hyes with hold | ⟨now, cadences, told, ha, hd⟩
    · exact absurd (hno.symm.trans hold) Bool.false_ne_true
    · exact hC.reports now cadences told ha d hd
  refine ⟨fun d hd had => ?_, hopens⟩
  -- the device was not adopted before the step either, and nothing was open on it
  have hbefore : s.devices.isAdopted d = false := by
    by_contra hyes
    have hafter := isAdopted_of_step h (ne_unbind_of_answered hd)
      (Bool.eq_true_of_not_eq_false hyes)
    exact Bool.false_ne_true (had.symm.trans hafter)
  have hclosed : ¬ s.sounding d := by
    cases hf : Since.answered (f.since d) with
    | true => exact hquiet d hf hbefore
    | false => exact hrec.sounding_iff.mpr (hC.cleared d hf hd hbefore)
  rintro (hsil | ⟨b, hb⟩)
  · have hno : s.silences d = false := Bool.eq_false_iff.mpr fun hyes => hclosed (.inl hyes)
    exact Bool.false_ne_true (hbefore.symm.trans (hopens d hno hsil))
  · rcases episode_of_step h hb with hold | ⟨r, told, hr, ha, rfl, t, ht, hbreach⟩
    · exact hclosed (.inr ⟨b, hold⟩)
    · have hanswered : Since.answered (f.since r.sensorId) = true := by rw [ha] at hd; exact hd
      exact hC.inBand r told hr ha hanswered hbefore t ht hbreach

/-- **Step.**  What follows ownership is attended to. -/
theorem attended_of_follows (hrec : Noted s f) (hquiet : Quiet (s, f)) (h : s.step refreshS a = some s')
    (hquiet' : Quiet (s', s.note refreshS a f))
    (hopens : ∀ d, s.silences d = false → s'.silences d = true → s.devices.isAdopted d = true) :
    Attended refreshS (s, f) a where
  cleared := by
    intro d hno hyes had
    refine hrec.sounding_iff.mp fun hsounding => ?_
    obtain ⟨hdevices, hkeeps⟩ := frame_of_answering h hno hyes
    have had' : s'.devices.isAdopted d = false := by rw [hdevices]; exact had
    exact hquiet' d hyes had' (hkeeps hsounding)
  reports := by
    rintro now cadences told rfl d hd
    have hsw := step_sweep h
    exact hopens d (hsw.fresh d hd) ((hsw.silences d).mpr (.inr hd))
  inBand := by
    rintro r told hr rfl hyes had t ht -
    obtain ⟨r', s₁, hr', h₁, rfl⟩ := step_judge h
    obtain rfl : r = r' := by
      rw [hr] at hr'
      cases hr'
      rfl
    have hnone : ∀ b, s.episodes r.sensorId b = false := fun b =>
      Bool.eq_false_iff.mpr fun hb => hquiet r.sensorId hyes had (.inr ⟨b, hb⟩)
    obtain ⟨b, hb⟩ := applyAll_of_none h₁ hnone (List.ne_nil_of_mem ht)
      fun t ht t' ht' => transitions_same ht ht'
    have had' : s₁.devices.isAdopted r.sensorId = false := by
      rw [(applyAll_frame h₁).1]
      exact had
    exact hquiet' r.sensorId hyes had' (.inr ⟨b, hb⟩)

end Invariant

/-! ### Runs -/

section Runs
variable [LinearOrder δ] [DecidableEq χ] {refreshS : ℚ}

/-- **Alarms follow ownership** along exactly the runs of which every step is attended to, from any
state in which no unbind and no forget is on record yet. -/
theorem alarms_follow_iff {s : Alarms δ χ} {as : List (AlarmAction δ χ)}
    {q : Alarms δ χ × AlarmNotes δ} :
    (followedAlarms δ χ refreshS).RunIf (FollowsOwnership refreshS) (s, .start s) as q ↔
      (followedAlarms δ χ refreshS).RunIf (Attended refreshS) (s, .start s) as q := by
  refine Machine.RunIf.congr (I := fun p => Noted p.1 p.2 ∧ Quiet p)
    ⟨⟨rfl, rfl⟩, fun d hd => absurd hd Bool.false_ne_true⟩ ?_ ?_
  · rintro ⟨s, f⟩ a ⟨s', f'⟩ hD ⟨hrec, -⟩ h
    obtain ⟨hs, rfl⟩ := Machine.ghost_step.mp h
    exact ⟨noted_step hrec hs, (hD _ h).1⟩
  rintro ⟨s, f⟩ a ⟨s', f'⟩ ⟨hrec, hquiet⟩ h
  obtain ⟨hs, rfl⟩ := Machine.ghost_step.mp h
  constructor
  · intro hD
    obtain ⟨hquiet', hopens⟩ := hD _ h
    exact attended_of_follows hrec hquiet hs hquiet' hopens
  · intro hC q hq
    obtain ⟨hs', hf'⟩ := Machine.ghost_step.mp hq
    obtain ⟨s'', f''⟩ := q
    have he : s' = s'' := Option.some.inj (hs.symm.trans hs')
    have hf : f'' = s.note refreshS a f := hf'
    subst he hf
    exact follows_of_attended hrec hquiet hC hs

end Runs

/-- A hub with no devices, whose engine has just started. -/
def Alarms.bare : Alarms ℕ ℕ where
  devices := ⟨[], List.nodup_nil⟩
  columns := fun _ => .fresh none
  episodes := fun _ _ => false
  silences := fun _ => false
  engine := ⟨.idle, fun _ => none, fun _ => false, fun _ => none, 0, fun _ _ => false⟩

/-- A good reading of one of two probes. -/
def reads (probe : ℕ) (value : ℚ) : SensorReading ℕ := ⟨probe, some value, .ok, required_value value⟩

/-- A cold probe is unbound.  A sweep a hundred seconds later finds that it does not report, and a
reading of the other probe brings a refresh. -/
def coldAndUnbound : List (AlarmAction ℕ ℕ) :=
  [.bind 1 .sensor .ds18b20 (.rom 28) none (some 5), .setThresholds 1 (some reefBand),
    .announce 2 5, .hear (reads 1 20) 0 true, .refresh 40, .judge fun _ => true,
    .unbind 1, .sweep 100 [(1, 5), (2, 5)] fun _ => true,
    .hear (reads 2 25) 101 true, .refresh 141]

/-- The sweep opens a silence for a probe that nobody owns, and the cold stays on record. -/
theorem not_alarms_follow :
    ¬ ∀ (as : List (AlarmAction ℕ ℕ)) (q : Alarms ℕ ℕ × AlarmNotes ℕ),
      (followedAlarms ℕ ℕ 30).Run (.bare, .start .bare) as q →
        (followedAlarms ℕ ℕ 30).RunIf (FollowsOwnership 30) (.bare, .start .bare) as q := by
  intro h
  have hrun : ((followedAlarms ℕ ℕ 30).exec (.bare, .start .bare) coldAndUnbound).map
      (fun q => (Since.answered (q.2.since 1), q.1.devices.isAdopted 1, q.1.silences 1,
        q.1.episodes 1 .min)) = some (true, false, true, true) := by
    decide +kernel
  obtain ⟨q, hq, hl⟩ := Option.map_eq_some_iff.mp hrun
  simp only [Prod.mk.injEq] at hl
  obtain ⟨hanswered, hno, hsilent, -⟩ := hl
  have hq := h _ q (Machine.exec_eq_some.mp hq)
  have hquiet : Quiet q := hq.invariant (fun d hd => absurd hd Bool.false_ne_true)
    fun _ _ q hD _ hs => (hD q hs).1
  exact hquiet 1 hanswered hno (.inl hsilent)

end BellasReef.ControlEngine
