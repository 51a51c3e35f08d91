import BellasReef.Contracts.Messages
import BellasReef.ControlEngine.Alerts
import BellasReef.Support.Binary64
import BellasReef.Support.Machine

/-!
# Api — Telemetry

`TelemetryWriter` (`telemetry.py`): what it writes to VictoriaMetrics for sensor, state and alert
messages, however often and however concurrently they are delivered.  The labels of a state or an
alert are looked up by each delivery, in a cache with a time limit or else in the database, whose
failure makes them `unknown`.  A write that raises may have been stored all the same.  `_handle`
acknowledges nothing then, but the client does, for a subscription with a callback and without
`manual_ack`, once the callback has returned.

* `Kept.step`: the cache is right, and a delivery has the lines of its lookup, after every step.
* `Whole.step`, `Whole.fails`: what a step does to the stored writes and to what is acknowledged.
* `history_whole_iff`: a message is acknowledged only after a write of it, its writes are the same,
  and they have the labels of its device, exactly if no write that was stored is of a state or an
  alert whose lookup failed, and no write failed of a message that had none.
* `history_forks`: a write after a failed lookup starts a second series.
-/

namespace BellasReef.Api.Telemetry
open BellasReef.Contracts BellasReef.Support
open BellasReef.ControlEngine (Quality AlertBound AlertState)

variable {κ ν : Type}

/-! ### Messages and rows -/

/-- `ControlAuthority`. -/
inductive ControlAuthority where
  | authoritative
  | advisory
  | observeOnly
  deriving DecidableEq, Repr

/-- `Transport`. -/
inductive Transport where
  | «local»
  | network
  deriving DecidableEq, Repr

/-- The texts that a label's value is one of. -/
def ControlAuthority.text : ControlAuthority → String
  | .authoritative => "authoritative"
  | .advisory => "advisory"
  | .observeOnly => "observe_only"

/-- A transport as a label. -/
def Transport.text : Transport → String
  | .local => "local"
  | .network => "network"

/-- A quality as a label. -/
def qualityText : Quality → String
  | .ok => "ok"
  | .stale => "stale"
  | .fault => "fault"

/-- A bound as a label. -/
def boundText : AlertBound → String
  | .min => "min"
  | .max => "max"

/-- A reason as a label. -/
def reasonText : StateReason → String
  | .commanded => "commanded"
  | .safeState => "safe_state"
  | .interlockLatch => "interlock_latch"
  | .manualOverride => "manual_override"
  | .startup => "startup"

/-- The instant of a message, in microseconds from the epoch. -/
abbrev Instant := ℤ

/-- `SensorReading`. -/
structure SensorReading where
  sensorId : String
  sensorType : String
  value : Option Double
  unit : String
  quality : Quality
  emittedAt : Instant

/-- `ActuatorState`. -/
structure ActuatorState where
  actuatorId : String
  level : ActuatorLevel
  reason : StateReason
  commandAcked : Option Bool
  lastExchangeAgeS : Option Double
  emittedAt : Instant

/-- `SensorAlert`. -/
structure SensorAlert where
  deviceId : String
  sensorType : String
  state : AlertState
  bound : AlertBound
  emittedAt : Instant

/-- A payload that satisfies its contract, by the callback it is for. -/
inductive Message where
  | sensor (reading : SensorReading)
  | state (state : ActuatorState)
  | alert (alert : SensorAlert)

/-- The device whose labels a message is written with. -/
def Message.labelled : Message → Option String
  | .sensor _ => none
  | .state s => some s.actuatorId
  | .alert a => some a.deviceId

/-- The columns of `devices` that `device_labels` reads. -/
structure Row where
  controlAuthority : Option ControlAuthority
  transport : Option Transport

/-- What `labels_for` returns: the values of the two labels. -/
structure Labels where
  authority : String
  transport : String
  deriving DecidableEq, Repr

/-- What a failed lookup returns. -/
def Labels.unknown : Labels := ⟨"unknown", "unknown"⟩

/-- `resolved`, of what `device_labels` returned. -/
def resolve : Option Row → Labels
  | some row =>
      ⟨(row.controlAuthority.map ControlAuthority.text).getD "not_applicable",
        (row.transport.map Transport.text).getD "not_applicable"⟩
  | none => .unknown

/-! ### Samples -/

/-- Towards zero. -/
def truncated (q : ℚ) : ℤ := if 0 ≤ q then ⌊q⌋ else ⌈q⌉

/-- `_millis`. -/
def millis (at_ : Instant) : ℤ := truncated (rounded (rounded (at_ / 10 ^ 6) * 1000))

/-- What one line of an import says. -/
structure Sample where
  name : String
  labels : List (String × String)
  value : Double
  timestamp : ℤ
  deriving DecidableEq

/-- `_line`. -/
def line (name : String) (labels : List (String × String)) (value : Double) (at_ : Instant) :
    Sample :=
  ⟨name, labels.filter (·.2 ≠ ""), value, millis at_⟩

/-- A boolean as a label. -/
def boolText (b : Bool) : String := if b then "true" else "false"

/-- A Boolean, as a double. -/
def ofBool (b : Bool) : Double := .ofRat (if b then 1 else 0)

/-- `_sensor_lines`. -/
def sensorLines (r : SensorReading) : List Sample :=
  match r.value with
  | none =>
      [line "bellasreef_sensor_fault" [("device_id", r.sensorId), ("sensor_type", r.sensorType)]
        (.ofRat 1) r.emittedAt]
  | some value =>
      [line "bellasreef_sensor_reading"
        [("device_id", r.sensorId), ("sensor_type", r.sensorType), ("unit", r.unit),
          ("quality", qualityText r.quality)] value r.emittedAt]

/-- `level.kind`. -/
def levelKind : ActuatorLevel → String
  | .binary _ => "binary"
  | .pwm _ => "pwm"

/-- A level as a sample. -/
def levelValue : ActuatorLevel → Double
  | .binary on => ofBool on
  | .pwm duty => .ofRat duty

/-- `_state_lines`, past its lookup. -/
def stateLines (s : ActuatorState) (labels : Labels) : List Sample :=
  let acked := match s.commandAcked with
    | some acked =>
        if labels.authority = "advisory" then [("command_acked", boolText acked)] else []
    | none => []
  let age := match s.lastExchangeAgeS with
    | some age =>
        if labels.authority = "advisory" then
          [line "bellasreef_actuator_last_exchange_age_seconds"
            [("device_id", s.actuatorId), ("control_authority", labels.authority)] age s.emittedAt]
        else []
    | none => []
  line "bellasreef_actuator_level"
    ([("device_id", s.actuatorId), ("actuator_class", levelKind s.level),
      ("control_authority", labels.authority), ("reason", reasonText s.reason)] ++ acked)
    (levelValue s.level) s.emittedAt :: age

/-- `_alert_lines`, past its lookup. -/
def alertLines (a : SensorAlert) (labels : Labels) : List Sample :=
  [line "bellasreef_alert_state"
    [("device_id", a.deviceId), ("sensor_type", a.sensorType), ("bound", boundText a.bound),
      ("control_authority", labels.authority), ("transport", labels.transport)]
    (ofBool (a.state = .breach)) a.emittedAt]

/-- The lines of a message, with the labels that were looked up for it. -/
def lines (m : Message) (labels : Labels) : List Sample :=
  match m with
  | .sensor r => sensorLines r
  | .state s => stateLines s labels
  | .alert a => alertLines a labels

/-! ### The writer -/

/-- Where `_handle` is with a delivery. -/
inductive Handling where
  /-- In `device_labels`, from `now` on. -/
  | looking (m : Message) (device : String) (now : ℚ)
  /-- In `_push`. -/
  | pushing (samples : List Sample)
  | done (acked : Bool)

/-- `AUTHORITY_TTL_S`. -/
def authorityTtlS : ℚ := 30

/-- The writer, with its cache, and the deliveries `κ` that it handles or has handled, each with the
stored message `ν` that it is one of. -/
structure Writer (κ ν : Type) where
  /-- `time.monotonic()`. -/
  clock : ℚ
  /-- `_labels`. -/
  labels : String → Option (Labels × ℚ)
  deliveries : κ → Option (ν × Handling)

/-- What the broker, the database and VictoriaMetrics do. -/
inductive WriterAction (κ ν : Type) where
  | wait (seconds : ℚ)
  /-- A message is delivered, for the first time or again. -/
  | deliver (k : κ) (id : ν)
  /-- `device_labels` returns, or raises. -/
  | looksUp (k : κ) (answers : Bool)
  /-- `_push` returns, or raises.  What it posted has been stored, or not. -/
  | pushes (k : κ) (stored returns : Bool)

section Writer
variable [DecidableEq κ]

/-- The stream's stored messages, the rows of their devices, and the client.  A payload that does
not satisfy its contract is `none`. -/
structure World (ν : Type) where
  payload : ν → Option Message
  row : String → Row
  /-- The client acknowledges a message whose callback has returned.  nats-py does, unless
  `subscribe` is given `manual_ack`. -/
  acksOnReturn : Bool

/-- The cached labels of a device, if they are young enough. -/
def Writer.cached (w : Writer κ ν) (device : String) : Option Labels :=
  match w.labels device with
  | some (labels, at_) => if w.clock - at_ < authorityTtlS then some labels else none
  | none => none

/-- Delivery `k`, of message `id`, is now at `h`. -/
def Writer.set (w : Writer κ ν) (k : κ) (id : ν) (h : Handling) : Writer κ ν :=
  { w with deliveries := Function.update w.deliveries k (some (id, h)) }

/-- `_handle`, up to its first `await`. -/
def Writer.handle (W : World ν) (w : Writer κ ν) (k : κ) (id : ν) : Writer κ ν :=
  match W.payload id with
  | none => w.set k id (.done true)
  | some m =>
      match m.labelled with
      | none => w.set k id (.pushing (lines m .unknown))
      | some device =>
          match w.cached device with
          | some labels => w.set k id (.pushing (lines m labels))
          | none => w.set k id (.looking m device w.clock)

/-- One step. -/
def Writer.step (W : World ν) (w : Writer κ ν) : WriterAction κ ν → Option (Writer κ ν)
  | .wait seconds => if 0 ≤ seconds then some { w with clock := w.clock + seconds } else none
  | .deliver k id =>
      match w.deliveries k with
      | some _ => none
      | none => some (w.handle W k id)
  | .looksUp k answers =>
      match w.deliveries k with
      | some (id, .looking m device now) =>
          if answers then
            let resolved := resolve (some (W.row device))
            some { (w.set k id (.pushing (lines m resolved))) with
              labels := Function.update w.labels device (some (resolved, now)) }
          else some (w.set k id (.pushing (lines m .unknown)))
      | _ => none
  | .pushes k stored returns =>
      match w.deliveries k with
      | some (id, .pushing _) =>
          if returns && !stored then none
          else some (w.set k id (.done (returns || W.acksOnReturn)))
      | _ => none

/-- The writer. -/
def writer (κ : Type) [DecidableEq κ] (W : World ν) : Machine (Writer κ ν) (WriterAction κ ν) :=
  ⟨Writer.step W⟩

/-- Before the first delivery. -/
def Writer.start (clock : ℚ) : Writer κ ν := ⟨clock, fun _ => none, fun _ => none⟩

/-- What has come of the deliveries. -/
structure Notes (κ ν : Type) where
  /-- What was stored, write after write, for the message that it was a write of. -/
  writes : List (ν × List Sample)
  /-- What was acknowledged, with the writes until then. -/
  acked : List (ν × List (ν × List Sample))
  /-- The deliveries whose lookup failed. -/
  failed : List κ

omit [DecidableEq κ] in
/-- What a step adds to the notes. -/
def note (W : World ν) (w : Writer κ ν) (a : WriterAction κ ν) (_ : Writer κ ν)
    (n : Notes κ ν) : Notes κ ν :=
  match a with
  | .wait _ => n
  | .deliver _ id =>
      if (W.payload id).isNone then { n with acked := n.acked ++ [(id, n.writes)] } else n
  | .looksUp k answers => if answers then n else { n with failed := n.failed ++ [k] }
  | .pushes k stored returns =>
      match w.deliveries k with
      | some (id, .pushing samples) =>
          let writes := if stored then n.writes ++ [(id, samples)] else n.writes
          { n with
            writes := writes
            acked := if returns || W.acksOnReturn then n.acked ++ [(id, writes)] else n.acked }
      | _ => n

/-- The writer, with the notes. -/
abbrev notedWriter (κ : Type) [DecidableEq κ] (W : World ν) :
    Machine (Writer κ ν × Notes κ ν) (WriterAction κ ν) :=
  (writer κ W).ghost (note W)

/-- What a step must be: no write that is stored has the labels of a failed lookup, and none that is
not stored is of a message without a write, which the client would acknowledge. -/
def Faithful (W : World ν) (p : Writer κ ν × Notes κ ν) : WriterAction κ ν → Prop
  | .pushes k true _ => k ∉ p.2.failed
  | .pushes k false _ => W.acksOnReturn = true →
      ∀ x ∈ p.1.deliveries k, x.1 ∈ p.2.writes.map Prod.fst
  | _ => True

instance [DecidableEq ν] (W : World ν) (p : Writer κ ν × Notes κ ν) :
    (a : WriterAction κ ν) → Decidable (Faithful W p a)
  | .pushes _ true _ => inferInstanceAs (Decidable (_ ∉ _))
  | .pushes _ false _ => inferInstanceAs (Decidable (_ = _ → ∀ x ∈ _, _))
  | .wait _ | .deliver .. | .looksUp .. => .isTrue trivial

end Writer

/-! ### Lines -/

variable {W : World ν} {m : Message} {d : String} {labels : Labels}

/-- The labels of the device's row, where the message is written with any. -/
def World.labelsOf (W : World ν) (m : Message) : Labels :=
  match m.labelled with
  | some device => resolve (some (W.row device))
  | none => .unknown

/-- What is to be written for a message. -/
def World.expected (W : World ν) (m : Message) : List Sample := lines m (W.labelsOf m)

/-- A message is a sample at least. -/
theorem lines_ne_nil (m : Message) (labels : Labels) : lines m labels ≠ [] := by
  cases m with
  | sensor r => rw [lines, sensorLines]; split <;> simp
  | state s => simp [lines, stateLines]
  | alert a => simp [lines, alertLines]

/-- A row's labels are never those of a failed lookup. -/
theorem resolve_authority (row : Row) :
    (resolve (some row)).authority ≠ "" ∧ (resolve (some row)).authority ≠ "unknown" := by
  obtain ⟨_ | _ | _ | _, _⟩ := row <;> simp [resolve, ControlAuthority.text]

theorem resolve_transport (row : Row) : (resolve (some row)).transport ≠ "" := by
  obtain ⟨_, _ | _ | _⟩ := row <;> simp [resolve, Transport.text]

/-- Each sample of a state or an alert says which authority it is written under. -/
theorem authority_mem (hm : m.labelled = some d) (hl : labels.authority ≠ "") :
    ∀ x ∈ lines m labels, ("control_authority", labels.authority) ∈ x.labels := by
  intro x hx
  cases m with
  | sensor r => cases hm
  | state s =>
      obtain rfl | hx := List.mem_cons.mp hx
      · simp [line, hl]
      · split at hx
        · split at hx
          · obtain rfl := List.mem_singleton.mp hx
            simp [line, hl]
          · cases hx
        · cases hx
  | alert a =>
      obtain rfl := List.mem_singleton.mp hx
      simp [line, hl]

/-- Each sample of an alert says which transport it is written under. -/
theorem transport_mem {a : SensorAlert} (hl : labels.transport ≠ "") :
    ∀ x ∈ lines (.alert a) labels, ("transport", labels.transport) ∈ x.labels := by
  intro x hx
  obtain rfl := List.mem_singleton.mp hx
  simp [line, hl]

/-- A sample that was written after a failed lookup says so, and nothing else. -/
theorem unknown_only (hm : m.labelled = some d) :
    ∃ x ∈ lines m .unknown, ∀ a, ("control_authority", a) ∈ x.labels → a = "unknown" := by
  cases m with
  | sensor r => cases hm
  | state s =>
      refine ⟨_, List.mem_cons_self, fun a ha => ?_⟩
      have hacked : (match s.commandAcked with
          | some acked =>
              if Labels.unknown.authority = "advisory" then [("command_acked", boolText acked)]
              else []
          | none => ([] : List (String × String))) = [] := by
        cases s.commandAcked <;> rfl
      rw [hacked] at ha
      have ha : a = "unknown" ∧ ¬a = "" := by simpa [line, Labels.unknown] using ha
      exact ha.1
  | alert al =>
      refine ⟨_, List.mem_cons_self, fun a ha => ?_⟩
      have ha : a = "unknown" ∧ ¬a = "" := by simpa [line, Labels.unknown] using ha
      exact ha.1

/-! ### The writer's invariants -/

section Invariants
variable [DecidableEq κ] {w w' : Writer κ ν} {n : Notes κ ν} {a : WriterAction κ ν} {k : κ} {id : ν}

/-- What a delivery is to be at, by what has been noted of it. -/
def HandlingOk (W : World ν) (failed : Prop) (id : ν) : Handling → Prop
  | .looking m device _ => W.payload id = some m ∧ m.labelled = some device ∧ ¬failed
  | .pushing samples => ∃ m, W.payload id = some m ∧
      (¬failed ∧ samples = W.expected m ∨
        failed ∧ m.labelled.isSome ∧ samples = lines m .unknown)
  | .done _ => True

/-- The cache is right, and each delivery has the lines of its lookup. -/
structure Kept (W : World ν) (w : Writer κ ν) (n : Notes κ ν) : Prop where
  cache : ∀ d labels at_, w.labels d = some (labels, at_) → labels = resolve (some (W.row d))
  new : ∀ k, w.deliveries k = none → k ∉ n.failed
  deliveries : ∀ k id h, w.deliveries k = some (id, h) → HandlingOk W (k ∈ n.failed) id h

omit [DecidableEq κ] in
theorem kept_start (W : World ν) (clock : ℚ) :
    Kept W (.start clock : Writer κ ν) ⟨[], [], []⟩ where
  cache _ _ _ h := by cases h
  new _ _ := List.not_mem_nil
  deliveries _ _ _ h := by cases h

/-- To handle one delivery leaves the others. -/
@[simp] theorem set_deliveries {h : Handling} :
    (w.set k id h).deliveries = Function.update w.deliveries k (some (id, h)) := rfl

/-- One delivery has gone on, and nothing was noted of another. -/
theorem Kept.set {h : Handling} {n' : Notes κ ν} (hw : Kept W w n)
    (hfailed : ∀ j, j ≠ k → (j ∈ n'.failed ↔ j ∈ n.failed))
    (hk : HandlingOk W (k ∈ n'.failed) id h) : Kept W (w.set k id h) n' := by
  refine ⟨hw.cache, fun j hj => ?_, fun j id' h' hj => ?_⟩
  · rw [set_deliveries] at hj
    by_cases he : j = k
    · subst he
      simp at hj
    · rw [Function.update_of_ne he] at hj
      rw [hfailed j he]
      exact hw.new j hj
  · rw [set_deliveries] at hj
    by_cases he : j = k
    · subst he
      rw [Function.update_self, Option.some.injEq, Prod.mk.injEq] at hj
      obtain ⟨rfl, rfl⟩ := hj
      exact hk
    · rw [Function.update_of_ne he] at hj
      rw [hfailed j he]
      exact hw.deliveries j id' h' hj

omit [DecidableEq κ] in
/-- The labels of a device's row are cached. -/
theorem Kept.caches (hw : Kept W w n) (d : String) (at_ : ℚ) :
    Kept W { w with
      labels := Function.update w.labels d (some (resolve (some (W.row d)), at_)) } n := by
  refine ⟨fun d' labels at' hl => ?_, hw.new, hw.deliveries⟩
  by_cases he : d' = d
  · subst he
    have hl : resolve (some (W.row d')) = labels ∧ at_ = at' := by simpa using hl
    exact hl.1.symm
  · simp only [Function.update_of_ne he] at hl
    exact hw.cache d' labels at' hl

omit [DecidableEq κ] in
/-- What the cache gives is what the database would. -/
theorem Kept.cached (hw : Kept W w n) (hc : w.cached d = some labels) :
    labels = resolve (some (W.row d)) := by
  rw [Writer.cached] at hc
  split at hc
  · next l at_ hl =>
      split at hc
      · obtain rfl := Option.some.inj hc
        exact hw.cache d l at_ hl
      · cases hc
  · cases hc

omit [DecidableEq κ] in
theorem handlingOk_pushing {failed : Prop} (hm : W.payload id = some m) (hf : ¬failed)
    (hl : ∀ device, m.labelled = some device → labels = resolve (some (W.row device)))
    (hn : m.labelled = none → labels = .unknown) :
    HandlingOk W failed id (.pushing (lines m labels)) := by
  refine ⟨m, hm, .inl ⟨hf, ?_⟩⟩
  rw [World.expected, World.labelsOf]
  split
  · next device hd => rw [hl device hd]
  · next hd => rw [hn hd]

/-- The first delivery of a payload goes as far as its lookup. -/
theorem Kept.handle {n' : Notes κ ν} (hw : Kept W w n) (hk : w.deliveries k = none)
    (hfailed : n'.failed = n.failed) : Kept W (w.handle W k id) n' := by
  have hf : ∀ j, j ≠ k → (j ∈ n'.failed ↔ j ∈ n.failed) := fun j _ => by rw [hfailed]
  have hnew : k ∉ n'.failed := by
    rw [hfailed]
    exact hw.new k hk
  rw [Writer.handle]
  split
  · exact hw.set hf trivial
  · next m hm =>
      split
      · next hd =>
          exact hw.set hf (handlingOk_pushing hm hnew (by simp [hd]) fun _ => rfl)
      · next device hd =>
          split
          · next labels hc =>
              refine hw.set hf (handlingOk_pushing hm hnew (fun d' hd' => ?_) ?_)
              · obtain rfl := Option.some.inj (hd.symm.trans hd')
                exact hw.cached hc
              · simp [hd]
          · exact hw.set hf ⟨hm, hd, hnew⟩

/-- Every step keeps the cache and the deliveries right. -/
theorem Kept.step (hw : Kept W w n) (hs : w.step W a = some w') :
    Kept W w' (note W w a w' n) := by
  cases a with
  | wait seconds =>
      rw [Writer.step] at hs
      split at hs
      · obtain rfl := Option.some.inj hs
        exact ⟨hw.cache, hw.new, hw.deliveries⟩
      · cases hs
  | deliver k id =>
      rw [Writer.step] at hs
      split at hs
      · cases hs
      · next hk =>
          obtain rfl := Option.some.inj hs
          refine hw.handle hk ?_
          rw [note]
          split <;> rfl
  | looksUp k answers =>
      rw [Writer.step] at hs
      split at hs
      · next id m device now hk =>
          obtain ⟨hm, hd, hnew⟩ := hw.deliveries k id _ hk
          cases answers with
          | true =>
              obtain rfl := Option.some.inj hs
              refine Kept.caches (hw.set (fun _ _ => Iff.rfl) ?_) device now
              refine handlingOk_pushing hm hnew (fun d' hd' => ?_) (by simp [hd])
              obtain rfl := Option.some.inj (hd.symm.trans hd')
              rfl
          | false =>
              obtain rfl := Option.some.inj hs
              refine hw.set (fun j he => ?_) ⟨m, hm, .inr ⟨?_, by simp [hd], rfl⟩⟩
              · simp [note, he]
              · simp [note]
      · cases hs
  | pushes k stored returns =>
      rw [Writer.step] at hs
      split at hs
      · next id samples hk =>
          split at hs
          · cases hs
          · next hstored =>
              obtain rfl := Option.some.inj hs
              simp only [note, hk]
              exact hw.set (fun _ _ => Iff.rfl) trivial
      · cases hs

omit [DecidableEq κ] in
/-- What is written is written by a post that was stored, and stays. -/
theorem mem_writes (w' : Writer κ ν) {x : ν × List Sample} :
    x ∈ (note W w a w' n).writes ↔
      x ∈ n.writes ∨ ∃ k returns, a = .pushes k true returns ∧
        w.deliveries k = some (x.1, .pushing x.2) := by
  cases a with
  | wait seconds => simp [note]
  | deliver k id =>
      rw [note]
      split <;> simp
  | looksUp k answers => cases answers <;> simp [note]
  | pushes k stored returns =>
      rw [note]
      split
      · next id samples hk =>
          cases stored with
          | true =>
              simp only [if_true, List.mem_append, List.mem_singleton]
              refine or_congr_right ⟨?_, ?_⟩
              · rintro rfl
                exact ⟨k, returns, rfl, hk⟩
              · rintro ⟨_, _, ⟨⟩, hk'⟩
                obtain ⟨rfl, rfl⟩ := by simpa using hk.symm.trans hk'
                rfl
          | false => simp
      · next hk =>
          refine ⟨.inl, fun h => h.elim id ?_⟩
          rintro ⟨_, _, ⟨⟩, hk'⟩
          exact absurd hk' (hk _ _)

omit [DecidableEq κ] in
/-- What is acknowledged is no message at all, or one whose callback has returned. -/
theorem mem_acked (w' : Writer κ ν) {x : ν × List (ν × List Sample)} :
    x ∈ (note W w a w' n).acked ↔ x ∈ n.acked ∨ x.2 = (note W w a w' n).writes ∧
      ((∃ k, a = .deliver k x.1 ∧ W.payload x.1 = none) ∨ ∃ k stored returns samples,
        a = .pushes k stored returns ∧ (returns || W.acksOnReturn) = true ∧
          w.deliveries k = some (x.1, .pushing samples)) := by
  obtain ⟨id', before⟩ := x
  cases a with
  | wait seconds => simp [note]
  | looksUp k answers => cases answers <;> simp [note]
  | deliver k id =>
      rw [note]
      split
      · next hnone =>
          rw [Option.isNone_iff_eq_none] at hnone
          simp only [List.mem_append, List.mem_singleton]
          refine or_congr_right ⟨?_, ?_⟩
          · rintro ⟨rfl, rfl⟩
            exact ⟨rfl, .inl ⟨k, rfl, hnone⟩⟩
          · rintro ⟨rfl, ⟨_, ⟨⟩, -⟩ | ⟨_, _, _, _, ⟨⟩, -⟩⟩
            rfl
      · next hsome =>
          refine ⟨.inl, fun h => h.resolve_right ?_⟩
          rintro ⟨rfl, ⟨_, ⟨⟩, hnone⟩ | ⟨_, _, _, _, ⟨⟩, -⟩⟩
          exact absurd (Option.isNone_iff_eq_none.mpr hnone) hsome
  | pushes k stored returns =>
      rw [note]
      split
      · next id samples hk =>
          dsimp only
          split
          · next hacks =>
              simp only [List.mem_append, List.mem_singleton]
              refine or_congr_right ⟨?_, ?_⟩
              · rintro ⟨rfl, rfl⟩
                exact ⟨rfl, .inr ⟨k, stored, returns, samples, rfl, hacks, hk⟩⟩
              · rintro ⟨rfl, ⟨_, ⟨⟩, -⟩ | ⟨_, _, _, _, ⟨⟩, -, hk'⟩⟩
                obtain ⟨rfl, -⟩ := by simpa using hk.symm.trans hk'
                rfl
          · next hacks =>
              refine ⟨.inl, fun h => h.resolve_right ?_⟩
              rintro ⟨rfl, ⟨_, ⟨⟩, -⟩ | ⟨_, _, _, _, ⟨⟩, hacks', -⟩⟩
              exact absurd hacks' hacks
      · next hk =>
          refine ⟨.inl, fun h => h.resolve_right ?_⟩
          rintro ⟨rfl, ⟨_, ⟨⟩, -⟩ | ⟨_, _, _, _, ⟨⟩, -, hk'⟩⟩
          exact absurd hk' (hk _ _)

/-- What each delivery is at, that each write is what is to be written, and that a message had one
when it was acknowledged. -/
structure Whole (W : World ν) (p : Writer κ ν × Notes κ ν) : Prop where
  kept : Kept W p.1 p.2
  writes : ∀ id samples, (id, samples) ∈ p.2.writes →
    ∃ m, W.payload id = some m ∧ samples = W.expected m
  acked : ∀ x ∈ p.2.acked, (∀ y ∈ x.2, y ∈ p.2.writes) ∧
    (W.payload x.1 ≠ none → x.1 ∈ x.2.map Prod.fst)

/-- A write with the labels of a failed lookup. -/
def Forked (W : World ν) (p : Writer κ ν × Notes κ ν) : Prop :=
  ∃ id m, W.payload id = some m ∧ m.labelled.isSome ∧ (id, lines m .unknown) ∈ p.2.writes

/-- A message that was acknowledged with no write of it. -/
def Dropped (W : World ν) (p : Writer κ ν × Notes κ ν) : Prop :=
  ∃ x ∈ p.2.acked, W.payload x.1 ≠ none ∧ x.1 ∉ x.2.map Prod.fst

omit [DecidableEq κ] in
/-- A writer that has done nothing. -/
theorem whole_start (W : World ν) (clock : ℚ) :
    Whole W ((.start clock : Writer κ ν), ⟨[], [], []⟩) where
  kept := kept_start W clock
  writes _ _ h := by cases h
  acked _ h := by cases h

omit [DecidableEq κ] in
/-- What was written stays written. -/
theorem writes_stay (w' : Writer κ ν) {x : ν × List Sample} (hx : x ∈ n.writes) :
    x ∈ (note W w a w' n).writes := (mem_writes w').mpr (.inl hx)

/-- **Step.**  A faithful step keeps the history whole. -/
theorem Whole.step (hC : Faithful W (w, n) a) (hw : Whole W (w, n)) (hs : w.step W a = some w') :
    Whole W (w', note W w a w' n) := by
  refine ⟨hw.kept.step hs, fun id samples hmem => ?_, fun x hx => ?_⟩
  · obtain hmem | ⟨k, returns, rfl, hk⟩ := (mem_writes w').mp hmem
    · exact hw.writes id samples hmem
    · obtain ⟨m, hm, ⟨_, he⟩ | ⟨hf, _⟩⟩ := hw.kept.deliveries k _ _ hk
      · exact ⟨m, hm, he⟩
      · exact absurd hf hC
  · obtain hx | ⟨hbefore, hnew⟩ := (mem_acked w').mp hx
    · exact ⟨fun y hy => writes_stay w' ((hw.acked x hx).1 y hy), (hw.acked x hx).2⟩
    · refine ⟨fun y hy => hbefore ▸ hy, fun hpayload => ?_⟩
      rw [hbefore]
      obtain ⟨_, _, hnone⟩ | ⟨k, stored, returns, samples, rfl, hacks, hk⟩ := hnew
      · exact absurd hnone hpayload
      · cases stored with
        | true =>
            have hwrote : (x.1, samples) ∈ (note W w (.pushes k true returns) w' n).writes :=
              (mem_writes w').mpr (.inr ⟨k, returns, rfl, hk⟩)
            exact List.mem_map_of_mem hwrote
        | false =>
            -- a write that returns is stored, so it is the client that acknowledges
            obtain rfl : returns = false := by
              rw [Writer.step, hk] at hs
              cases returns with
              | true => cases hs
              | false => rfl
            obtain ⟨y, hy, he⟩ := List.mem_map.mp (hC hacks _ hk)
            exact he ▸ List.mem_map_of_mem (writes_stay w' hy)

/-- A step that is not faithful writes what is not to be written, or drops a message. -/
theorem Whole.fails (hC : ¬Faithful W (w, n) a) (hw : Whole W (w, n)) (hs : w.step W a = some w') :
    Forked W (w', note W w a w' n) ∨ Dropped W (w', note W w a w' n) := by
  cases a with
  | wait | deliver | looksUp => exact absurd trivial hC
  | pushes k stored returns =>
      have hk : ∃ id samples, w.deliveries k = some (id, .pushing samples) := by
        rw [Writer.step] at hs
        split at hs
        · next id samples hk => exact ⟨id, samples, hk⟩
        · cases hs
      obtain ⟨id, samples, hk⟩ := hk
      obtain ⟨m, hm, hlines⟩ := hw.kept.deliveries k _ _ hk
      cases stored with
      | true =>
          obtain ⟨hnew, _⟩ | ⟨_, hl, rfl⟩ := hlines
          · exact absurd (not_not.mp hC) hnew
          · exact .inl ⟨id, m, hm, hl, (mem_writes _).mpr (.inr ⟨k, returns, rfl, hk⟩)⟩
      | false =>
          obtain ⟨hauto, hunwritten⟩ := Classical.not_imp.mp hC
          have hnone : id ∉ n.writes.map Prod.fst := by
            intro hmem
            refine hunwritten fun x hx => ?_
            obtain rfl := Option.some.inj (hk.symm.trans hx)
            exact hmem
          have hsame : (note W w (.pushes k false returns) w' n).writes = n.writes := by
            simp [note, hk]
          refine .inr ⟨(id, n.writes), (mem_acked w').mpr (.inr ⟨hsame.symm, .inr
            ⟨k, false, returns, samples, rfl, by simp [hauto], hk⟩⟩), by simp [hm], hnone⟩

omit [DecidableEq κ] in
/-- A fork stays. -/
theorem Forked.step (hf : Forked W (w, n)) : Forked W (w', note W w a w' n) := by
  obtain ⟨id, m, hm, hl, hmem⟩ := hf
  exact ⟨id, m, hm, hl, writes_stay w' hmem⟩

omit [DecidableEq κ] in
/-- What was dropped stays dropped. -/
theorem Dropped.step (hd : Dropped W (w, n)) : Dropped W (w', note W w a w' n) := by
  obtain ⟨x, hx, hpayload, hnone⟩ := hd
  exact ⟨x, (mem_acked w').mpr (.inl hx), hpayload, hnone⟩

end Invariants

/-! ### A device's history -/

/-- Of what has been acknowledged and stored: nothing is dropped, no message has two series, and the
series are those of the devices' rows. -/
structure HistoryWhole (W : World ν) (n : Notes κ ν) : Prop where
  acked : ∀ x ∈ n.acked, W.payload x.1 ≠ none →
    ∃ samples, samples ≠ [] ∧ (x.1, samples) ∈ x.2 ∧ (x.1, samples) ∈ n.writes
  same : ∀ id samples samples', (id, samples) ∈ n.writes → (id, samples') ∈ n.writes →
    samples = samples'
  authority : ∀ id m device samples, W.payload id = some m → m.labelled = some device →
    (id, samples) ∈ n.writes → ∀ x ∈ samples,
      ("control_authority", (resolve (some (W.row device))).authority) ∈ x.labels
  transport : ∀ id a samples, W.payload id = some (.alert a) → (id, samples) ∈ n.writes →
    ∀ x ∈ samples, ("transport", (resolve (some (W.row a.deviceId))).transport) ∈ x.labels

/-- A device's samples carry the labels of its row. -/
theorem World.expected_of_labelled (hd : m.labelled = some d) :
    W.expected m = lines m (resolve (some (W.row d))) := by
  rw [World.expected, World.labelsOf, hd]

/-- Where the writer's invariants hold, the history is whole. -/
theorem Whole.historyWhole {p : Writer κ ν × Notes κ ν} (hp : Whole W p) :
    HistoryWhole W p.2 where
  acked x hx hpayload := by
    obtain ⟨hbefore, hwritten⟩ := hp.acked x hx
    obtain ⟨⟨id, samples⟩, hmem, rfl⟩ := List.mem_map.mp (hwritten hpayload)
    obtain ⟨m, _, rfl⟩ := hp.writes _ samples (hbefore _ hmem)
    exact ⟨W.expected m, lines_ne_nil m _, hmem, hbefore _ hmem⟩
  same id samples samples' hmem hmem' := by
    obtain ⟨m, hm, rfl⟩ := hp.writes id samples hmem
    obtain ⟨m', hm', rfl⟩ := hp.writes id samples' hmem'
    obtain rfl := Option.some.inj (hm.symm.trans hm')
    rfl
  authority id m device samples hm hd hmem := by
    obtain ⟨m', hm', rfl⟩ := hp.writes id samples hmem
    obtain rfl := Option.some.inj (hm.symm.trans hm')
    rw [World.expected_of_labelled hd]
    exact authority_mem hd (resolve_authority _).1
  transport id a samples hm hmem := by
    obtain ⟨m', hm', rfl⟩ := hp.writes id samples hmem
    obtain rfl := Option.some.inj (hm.symm.trans hm')
    rw [World.expected_of_labelled rfl]
    exact transport_mem (resolve_transport _)

/-- A write with the labels of a failed lookup is not under the authority of the row. -/
theorem HistoryWhole.not_forked {p : Writer κ ν × Notes κ ν} (h : HistoryWhole W p.2) :
    ¬Forked W p := by
  rintro ⟨id, m, hm, hl, hmem⟩
  obtain ⟨device, hd⟩ := Option.isSome_iff_exists.mp hl
  obtain ⟨x, hx, hunknown⟩ := unknown_only hd
  have hrow := h.authority id m device _ hm hd hmem x hx
  exact (resolve_authority (W.row device)).2 (hunknown _ hrow)

/-- A message that was acknowledged without a write is dropped. -/
theorem HistoryWhole.not_dropped {p : Writer κ ν × Notes κ ν} (h : HistoryWhole W p.2) :
    ¬Dropped W p := by
  rintro ⟨x, hx, hpayload, hnone⟩
  obtain ⟨samples, -, hmem, -⟩ := h.acked x hx hpayload
  exact hnone (List.mem_map_of_mem hmem)

/-- **A device's history.**  After any run, each message that was acknowledged had been written by
then, the writes of a message are the same, and have the labels of its device's row, exactly if no
write that was stored was of a delivery whose lookup had failed, and none that was not stored was of
a message that had no write and that the client then acknowledged. -/
theorem history_whole_iff [DecidableEq κ] {W : World ν} {clock : ℚ}
    {as : List (WriterAction κ ν)} {w : Writer κ ν} {n : Notes κ ν}
    (h : (notedWriter κ W).Run (.start clock, ⟨[], [], []⟩) as (w, n)) :
    HistoryWhole W n ↔
      (notedWriter κ W).RunIf (Faithful W) (.start clock, ⟨[], [], []⟩) as (w, n) := by
  have hstep := Machine.ghost_preserves (M := writer κ W) (g := note W) (I := Whole W)
    fun _ _ _ _ hC hI hs => Whole.step hC hI hs
  refine ⟨fun hend => ?_, fun hif => (hif.invariant (whole_start W clock) hstep).historyWhole⟩
  refine h.of_not_bad (B := fun p => Forked W p ∨ Dropped W p) (whole_start W clock) hstep ?_ ?_
    (not_or.mpr ⟨HistoryWhole.not_forked (p := (w, n)) hend,
      HistoryWhole.not_dropped (p := (w, n)) hend⟩)
  · rintro ⟨v, c⟩ a ⟨v', c'⟩ hC hI hs
    obtain ⟨hs, hc⟩ := Machine.ghost_step.mp hs
    obtain rfl : c' = note W v a v' c := hc
    exact Whole.fails hC hI hs
  · rintro ⟨v, c⟩ a ⟨v', c'⟩ hf hs
    obtain ⟨_, hc⟩ := Machine.ghost_step.mp hs
    obtain rfl : c' = note W v a v' c := hc
    exact hf.imp Forked.step Dropped.step

/-- A lamp, switched on and off. -/
def lamp : World Bool where
  payload on := some (.state ⟨"lamp", .binary on, .commanded, none, none, 0⟩)
  row _ := ⟨some .authoritative, some .local⟩
  acksOnReturn := true

/-- The write is stored, though it raises.  The message is delivered again in an outage of the
database, and that write is lost. -/
def outage : List (WriterAction Bool Bool) :=
  [.deliver false true, .looksUp false true, .pushes false true false, .wait 30,
    .deliver true true, .looksUp true false, .pushes true false false]

/-- VictoriaMetrics fails once, and the message is delivered again. -/
theorem history_whole_outage :
    ∃ w n, (notedWriter Bool lamp).Run (.start 0, ⟨[], [], []⟩) outage (w, n) ∧
      HistoryWhole lamp n := by
  have hsome : ((notedWriter Bool lamp).execIf (Faithful lamp) (.start 0, ⟨[], [], []⟩)
      outage).isSome = true := by decide +kernel
  obtain ⟨⟨w, n⟩, hexec⟩ := Option.isSome_iff_exists.mp hsome
  have hif := Machine.execIf_eq_some.mp hexec
  exact ⟨w, n, hif.toRun, (history_whole_iff hif.toRun).mpr hif⟩

/-- The lamp is switched on in an outage of the database, and off after it. -/
def switched : List (WriterAction Bool Bool) :=
  [.deliver false true, .looksUp false false, .pushes false true true,
    .deliver true false, .looksUp true true, .pushes true true true]

/-- The lamp has two series. -/
theorem history_forks :
    ¬∀ (W : World Bool) (clock : ℚ) (as : List (WriterAction Bool Bool)) (w : Writer Bool Bool)
      (n : Notes Bool Bool), (notedWriter Bool W).Run (.start clock, ⟨[], [], []⟩) as (w, n) →
        HistoryWhole W n := by
  intro h
  have hwrites : ((notedWriter Bool lamp).exec (.start 0, ⟨[], [], []⟩) switched).map
      (fun p => p.2.writes.map fun x => (x.1, x.2.map Sample.labels)) =
        some [(true, [[("device_id", "lamp"), ("actuator_class", "binary"),
            ("control_authority", "unknown"), ("reason", "commanded")]]),
          (false, [[("device_id", "lamp"), ("actuator_class", "binary"),
            ("control_authority", "authoritative"), ("reason", "commanded")]])] := by
    decide +kernel
  obtain ⟨⟨w, n⟩, hexec, hlabels⟩ := Option.map_eq_some_iff.mp hwrites
  have hlabels : n.writes.map (fun x => (x.1, x.2.map Sample.labels)) = [_, _] := hlabels
  obtain ⟨⟨on, samples⟩, rest, hn, hx, -⟩ := List.map_eq_cons_iff.mp hlabels
  obtain ⟨rfl, hsamples⟩ := Prod.ext_iff.mp hx
  obtain ⟨x, _, rfl, hlabels, -⟩ := List.map_eq_cons_iff.mp hsamples
  have hrow := (h lamp 0 _ w n (Machine.exec_eq_some.mp hexec)).authority true _ "lamp" _ rfl rfl
    (by rw [hn]; exact List.mem_cons_self) x List.mem_cons_self
  rw [hlabels] at hrow
  simp [lamp, resolve, ControlAuthority.text] at hrow

end BellasReef.Api.Telemetry
