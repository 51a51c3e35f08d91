import BellasReef.Api.DeviceChecks

/-!
# Api — DeviceWrites

Every statement of the store that writes `devices` (`store.py`), with what the validators in front
of it let through, against the constraints of the table.

* `execute_eq_none_iff`: which statements a check turns down, whatever is in the table.
* `registered_iff`: what the contract asks of an actuator's registration is what the constraints ask
  of its row.
-/

namespace BellasReef.Api.DeviceChecks
open BellasReef.Contracts BellasReef.Support BellasReef.Support.Checks
open BellasReef.ControlEngine.Binary64 (gtZero)
open BellasReef.Api.Bands (sqlOrder sqlAdd AlertThresholds)

/-! ### The statements -/

/-- `driver_type`. -/
def driverName : DriverType → String
  | .piPwm => "pi-pwm"
  | .pca9685 => "pca9685"
  | .ds18b20 => "ds18b20"

/-- `role`. -/
def roleName : ActuatorRole → String
  | .light => "light"
  | .heater => "heater"
  | .pump => "pump"
  | .doser => "doser"
  | .outlet => "outlet"

/-- How a device is reached. -/
inductive Transport where
  | «local»
  | network
  deriving DecidableEq, Repr

/-- A transport as the table writes it. -/
def Transport.name : Transport → String
  | .local => "local"
  | .network => "network"

section Statements
variable {nanPasses : Bool} {ι χ : Type}

/-- `BindDeviceRequest`, of a probe or a light; `bind_device` refuses the others. -/
structure BindDeviceRequest (nanPasses : Bool) (ι χ : Type) where
  deviceId : ι
  driverType : DriverType
  channel : χ
  role : Option ActuatorRole
  displayName : Option Text
  pollIntervalS : Option Double
  displayName_length : ∀ name ∈ displayName, 1 ≤ name.length ∧ name.length ≤ 128
  pollIntervalS_gt : ∀ x ∈ pollIntervalS, gtZero nanPasses x = true
  probe : driverType = .ds18b20 → pollIntervalS.isSome = true ∧ role = none
  light : driverType ≠ .ds18b20 → role = some .light

/-- `is_sensor`. -/
def BindDeviceRequest.isSensor (b : BindDeviceRequest nanPasses ι χ) : Bool :=
  b.driverType = .ds18b20

/-- A probe is bound to a ROM, anything else to a channel. -/
def BindDeviceRequest.binding (b : BindDeviceRequest nanPasses ι χ) : Binding χ :=
  if b.isSensor then .rom b.channel else .channel b.channel

theorem isDouble_hours : |(64800 : ℤ)| < 2 ^ 53 ∧ -1074 ≤ (0 : ℤ) ∧ (0 : ℤ) ≤ 971 := by decide

theorem isDouble_half_minute : |(30 : ℤ)| < 2 ^ 53 ∧ -1074 ≤ (0 : ℤ) ∧ (0 : ℤ) ≤ 971 := by decide

/-- `LIGHT_MAX_RUNTIME_S`: eighteen hours. -/
def lightMaxRuntimeS : Double := .scaled 64800 0 isDouble_hours

/-- `LIGHT_HEARTBEAT_TIMEOUT_S`. -/
def lightHeartbeatTimeoutS : Double := .scaled 30 0 isDouble_half_minute

/-- What `bind_device` inserts. -/
def BindDeviceRequest.row (b : BindDeviceRequest nanPasses ι χ) : Row ι χ where
  deviceId := b.deviceId
  kind := if b.isSensor then "sensor" else "actuator"
  sensorType := if b.isSensor then some "temp" else none
  pollIntervalS := if b.isSensor then b.pollIntervalS else none
  actuatorClass := if b.isSensor then none else some "pwm"
  controlAuthority := if b.isSensor then none else some "authoritative"
  failsafeCapable := if b.isSensor then none else some true
  transport := some "local"
  role := b.role.map roleName
  safeState := if b.isSensor then none else some (.pwm Duty.zero)
  maxRuntimeS := if b.isSensor then none else some lightMaxRuntimeS
  heartbeatTimeoutS := if b.isSensor then none else some lightHeartbeatTimeoutS
  alertMin := none
  alertMax := none
  alertClearMargin := none
  displayName := b.displayName
  driverType := some (driverName b.driverType)
  binding := some b.binding
  adopted := true

/-- What it makes of the row that it matched. -/
def BindDeviceRequest.onto (b : BindDeviceRequest nanPasses ι χ) (r : Row ι χ) : Row ι χ :=
  { r with
    driverType := some (driverName b.driverType)
    binding := some b.binding
    adopted := true
    role := (b.role.map roleName).or r.role
    displayName := b.displayName.or r.displayName }

/-- `SensorRegistration`. -/
structure SensorRegistration (nanPasses : Bool) (ι : Type) where
  sensorId : ι
  sensorType : String
  transport : Transport
  pollIntervalS : Double
  pollIntervalS_gt : gtZero nanPasses pollIntervalS = true

/-- What `upsert_sensor` inserts. -/
def SensorRegistration.row (s : SensorRegistration nanPasses ι) : Row ι χ where
  deviceId := s.sensorId
  kind := "sensor"
  sensorType := some s.sensorType
  pollIntervalS := some s.pollIntervalS
  actuatorClass := none
  controlAuthority := none
  failsafeCapable := none
  transport := some s.transport.name
  role := none
  safeState := none
  maxRuntimeS := none
  heartbeatTimeoutS := none
  alertMin := none
  alertMax := none
  alertClearMargin := none
  displayName := none
  driverType := none
  binding := none
  adopted := false

/-- What it makes of the row that has the id. -/
def SensorRegistration.onto (s : SensorRegistration nanPasses ι) (r : Row ι χ) : Row ι χ :=
  { r with
    sensorType := some s.sensorType
    pollIntervalS := some s.pollIntervalS
    transport := some s.transport.name }

/-- `_blank_is_not_a_name`. -/
def blankIsNotAName (displayName : Option Text) : Option Text :=
  displayName.bind fun name => if name.strip = [] then none else some name.strip

/-- The statements that write the table, each with what its validators let through. -/
inductive Statement (nanPasses : Bool) (ι χ : Type) where
  /-- The `INSERT` of `bind_device`. -/
  | insertBound (b : BindDeviceRequest nanPasses ι χ)
  /-- Its `UPDATE`. -/
  | updateBound (deviceId : ι) (b : BindDeviceRequest nanPasses ι χ)
  | unadopt (deviceId : ι)
  | readopt (deviceId : ι)
  | forget (deviceId : ι)
  | upsertSensor (s : SensorRegistration nanPasses ι)
  | setDisplayName (deviceId : ι) (displayName : Option Text)
  | setThresholds (deviceId : ι) (t : AlertThresholds nanPasses) (accepted : t.apiAccepts)

namespace Statement

/-- The device whose row it writes. -/
def target : Statement nanPasses ι χ → ι
  | insertBound b => b.deviceId
  | upsertSensor s => s.sensorId
  | updateBound d _ | unadopt d | readopt d | forget d => d
  | setDisplayName d _ | setThresholds d _ _ => d

/-- The row that it offers to insert. -/
def offers : Statement nanPasses ι χ → Option (Row ι χ)
  | insertBound b => some b.row
  | upsertSensor s => some s.row
  | _ => none

/-- What it makes of the row that is there; a conflict that does nothing leaves it, and so, for the
checks, does a `DELETE`. -/
def edit : Statement nanPasses ι χ → Row ι χ → Row ι χ
  | insertBound _, r => r
  | updateBound _ b, r => b.onto r
  | unadopt _, r => { r with adopted := false }
  | readopt _, r => { r with adopted := true }
  | forget _, r => r
  | upsertSensor s, r => s.onto r
  | setDisplayName _ name, r => { r with displayName := blankIsNotAName name }
  | setThresholds _ t _, r =>
      { r with alertMin := t.minimum, alertMax := t.maximum, alertClearMargin := t.clearMargin }

end Statement

/-- The table; `device_id` is unique, and every row has passed the checks. -/
structure Table (ι χ : Type) where
  rows : List (Row ι χ)
  unique : (rows.map Row.deviceId).Nodup
  accepted : ∀ r ∈ rows, r.accepts = true

namespace Statement
variable [DecidableEq ι]

/-- The rows that Postgres checks. -/
def written (w : Statement nanPasses ι χ) (t : Table ι χ) : List (Row ι χ) :=
  w.offers.toList ++ (t.rows.filter (·.deviceId = w.target)).map w.edit

/-- The statement fails. -/
def refused (w : Statement nanPasses ι χ) (t : Table ι χ) : Bool :=
  (w.written t).any fun r => !r.accepts

/-- The rows that it leaves, if it does not fail. -/
def leaves (w : Statement nanPasses ι χ) (t : Table ι χ) : List (Row ι χ) :=
  match w with
  | forget d => t.rows.filter (·.deviceId ≠ d)
  | w =>
      let edited := t.rows.map fun r => if r.deviceId = w.target then w.edit r else r
      match w.offers with
      | some r => if w.target ∈ t.rows.map Row.deviceId then edited else r :: edited
      | none => edited

variable {w : Statement nanPasses ι χ} {t : Table ι χ} {r : Row ι χ}

omit [DecidableEq ι] in
@[simp]
theorem deviceId_edit : (w.edit r).deviceId = r.deviceId := by
  cases w <;> rfl

omit [DecidableEq ι] in
/-- What a write offers is of the device it is for. -/
theorem deviceId_offers (h : w.offers = some r) : r.deviceId = w.target := by
  cases w <;> cases h <;> rfl

/-- An edit keeps the ids. -/
theorem ids_edited : (t.rows.map fun r => if r.deviceId = w.target then w.edit r else r).map
    Row.deviceId = t.rows.map Row.deviceId := by
  rw [List.map_map]
  refine List.map_congr_left fun r _ => ?_
  rw [Function.comp_apply]
  split
  · exact deviceId_edit
  · rfl

/-- A write that is not refused leaves each id once. -/
theorem unique_leaves : ((w.leaves t).map Row.deviceId).Nodup := by
  have hedited := (ids_edited (w := w) (t := t)) ▸ t.unique
  unfold leaves
  split
  · exact t.unique.sublist (List.filter_sublist.map _)
  · next w =>
      split
      · next r hr =>
          split
          · exact hedited
          · next hnew =>
              rw [List.map_cons, ids_edited, deviceId_offers hr]
              exact List.nodup_cons.mpr ⟨hnew, t.unique⟩
      · exact hedited

/-- What is left was there, or was checked. -/
theorem mem_leaves (h : r ∈ w.leaves t) : r ∈ t.rows ∨ r ∈ w.written t := by
  have hedited : ∀ {w : Statement nanPasses ι χ},
      r ∈ (t.rows.map fun r => if r.deviceId = w.target then w.edit r else r) →
        r ∈ t.rows ∨ r ∈ w.written t := by
    intro w hr
    obtain ⟨x, hx, rfl⟩ := List.mem_map.mp hr
    split
    · next hd =>
        exact .inr (List.mem_append_right _
          (List.mem_map_of_mem (List.mem_filter.mpr ⟨hx, decide_eq_true hd⟩)))
    · exact .inl hx
  unfold leaves at h
  split at h
  · exact .inl (List.mem_filter.mp h).1
  · next w =>
      split at h
      · next x hx =>
          split at h
          · exact hedited h
          · obtain rfl | h := List.mem_cons.mp h
            · exact .inr (List.mem_append_left _ (Option.mem_toList.mpr hx))
            · exact hedited h
      · exact hedited h

/-- A write that is not refused leaves only rows that the table accepts. -/
theorem accepted_leaves (h : w.refused t = false) : ∀ r ∈ w.leaves t, r.accepts = true := by
  intro r hr
  obtain hr | hr := mem_leaves hr
  · exact t.accepted r hr
  · simpa using List.any_eq_false.mp h r hr

/-- `none` where a check turns the statement down. -/
def execute (w : Statement nanPasses ι χ) (t : Table ι χ) : Option (Table ι χ) :=
  if h : w.refused t = false then some ⟨w.leaves t, unique_leaves, accepted_leaves h⟩ else none

end Statement

/-! ### What is turned down -/

/-- A name of nothing but spaces. -/
def BindDeviceRequest.Blank (b : BindDeviceRequest nanPasses ι χ) : Prop :=
  ∃ name ∈ b.displayName, ∀ c ∈ name, c = ' '

section Exceptions
variable (t : AlertThresholds nanPasses)

/-- Some column of the band is set. -/
def Sets : Prop := t.minimum ≠ none ∨ t.maximum ≠ none ∨ t.clearMargin ≠ none

/-- Postgres does not find the band in order, though Python finds nothing wrong with it: the minimum
or the lower end of its clear zone is NaN, or an end of the zone is beyond the range. -/
def Unordered : Prop :=
  ∃ lo ∈ t.minimum, ∃ hi ∈ t.maximum, ∃ margin ∈ t.clearMargin,
    lo = .nan ∨ lo + margin = .nan ∨ sqlAdd lo margin = none ∨ sqlAdd hi (-margin) = none

end Exceptions

/-- The statements that a check turns down. -/
def Statement.Excepted (t : Table ι χ) : Statement nanPasses ι χ → Prop
  | .insertBound b => b.Blank
  | .updateBound d b => b.Blank ∧ ∃ r ∈ t.rows, r.deviceId = d
  | .readopt d => ∃ r ∈ t.rows, r.deviceId = d ∧ (r.driverType = none ∨ r.binding = none)
  | .upsertSensor s => s.transport = .network ∧
      ∃ r ∈ t.rows, r.deviceId = s.sensorId ∧ r.controlAuthority = some "authoritative"
  | .setThresholds d band _ =>
      ∃ r ∈ t.rows, r.deviceId = d ∧ (r.kind = "actuator" ∧ Sets band ∨ Unordered band)
  | .unadopt _ | .forget _ | .setDisplayName _ _ => False

section Kept
variable {b : BindDeviceRequest nanPasses ι χ} {s : SensorRegistration nanPasses ι} {r : Row ι χ}
  {band : AlertThresholds nanPasses} {x : Double}

theorem isPositive_of_gtZero (h : gtZero nanPasses x = true) : IsPositive (some x) :=
  ⟨x, rfl, Bands.sqlOrder_pos_of_gtZero h⟩

theorem isPositive_lightMaxRuntimeS : IsPositive (some lightMaxRuntimeS) :=
  ⟨_, rfl, by decide +kernel⟩

theorem isPositive_lightHeartbeatTimeoutS : IsPositive (some lightHeartbeatTimeoutS) :=
  ⟨_, rfl, by decide +kernel⟩

/-- The columns that an actuator's authority is made of are the same. -/
theorem IsActuator.congr {r' : Row ι χ} (h : IsActuator r) (hkind : r'.kind = r.kind)
    (hclass : r'.actuatorClass = r.actuatorClass)
    (hauthority : r'.controlAuthority = r.controlAuthority)
    (hfailsafe : r'.failsafeCapable = r.failsafeCapable) (htransport : r'.transport = r.transport)
    (hstate : r'.safeState = r.safeState) (hmax : r'.maxRuntimeS = r.maxRuntimeS)
    (hbeat : r'.heartbeatTimeoutS = r.heartbeatTimeoutS)
    (hrole : IsAmong ["light", "heater", "pump", "doser", "outlet"] r'.role)
    (hband : r'.alertMin = none ∧ r'.alertMax = none ∧ r'.alertClearMargin = none) :
    IsActuator r' := by
  refine ⟨hkind.trans h.kind, hclass ▸ h.actuatorClass, hrole, h.authority.imp ?_ ?_, hband⟩
  · rintro ⟨ha, hf, ht, hs, hm, hb⟩
    exact ⟨hauthority.trans ha, hfailsafe.trans hf, htransport.trans ht, hstate ▸ hs, hmax ▸ hm,
      hbeat ▸ hb⟩
  · rintro ⟨ha, hf, ht, hs⟩
    exact ⟨hauthority ▸ ha, hfailsafe ▸ hf, htransport ▸ ht, hstate.trans hs⟩

/-- A name that is no name of spaces is one that the table accepts. -/
theorem named_iff : (∀ name, b.displayName = some name → ∃ c ∈ name, c ≠ ' ') ↔ ¬ b.Blank := by
  simp only [BindDeviceRequest.Blank, Option.mem_def, not_exists, not_and, not_forall, exists_prop]

/-- Every driver type has a word that the table accepts. -/
theorem driverName_valid (d : DriverType) : driverName d ∈ ["pi-pwm", "pca9685", "ds18b20"] := by
  cases d <;> decide

/-- Every role has one. -/
theorem roleName_valid (x : ActuatorRole) :
    roleName x ∈ ["light", "heater", "pump", "doser", "outlet"] := by
  cases x <;> decide

/-- Every transport has one. -/
theorem Transport.name_valid (x : Transport) : x.name ∈ ["local", "network"] := by
  cases x <;> decide

/-- A band of no columns passes. -/
theorem accepts_blank : (Bands.Columns.mk none none none).accepts = true := rfl

/-- The row of a bind. -/
theorem sound_row_bind : Sound (b.row (χ := χ)) ↔ ¬ b.Blank := by
  refine ⟨fun h => named_iff.mp h.named, fun hb => ⟨?_, ?_, ?_, fun _ => ⟨rfl, rfl⟩,
    named_iff.mpr hb, accepts_blank⟩⟩
  · by_cases hd : b.driverType = .ds18b20
    · have hs : b.isSensor = true := decide_eq_true hd
      obtain ⟨x, hx⟩ := Option.isSome_iff_exists.mp (b.probe hd).1
      have hpoll : IsPositive b.pollIntervalS := hx ▸ isPositive_of_gtZero (b.pollIntervalS_gt x hx)
      left
      constructor <;> simp [BindDeviceRequest.row, hs, hpoll]
    · have hs : b.isSensor = false := decide_eq_false hd
      have hrole : b.role.map roleName = some "light" := by
        rw [b.light hd]
        rfl
      right
      refine ⟨?_, ?_, ?_, .inl ⟨?_, ?_, ?_, ?_, ?_, ?_⟩, ⟨rfl, rfl, rfl⟩⟩ <;>
        simp [BindDeviceRequest.row, hs, hrole, isPositive_lightMaxRuntimeS,
          isPositive_lightHeartbeatTimeoutS]
  · intro w hw
    cases hs : b.isSensor <;> simp_all [BindDeviceRequest.row]
  · rintro w ⟨⟩
    exact driverName_valid _

/-- The row that a bind has written over. -/
theorem sound_onto (hr : Sound r) : Sound (b.onto r) ↔ ¬ b.Blank := by
  refine ⟨fun h => named_iff.mp fun name hname => h.named name ?_, fun hb => ⟨?_, hr.actuatorClass,
    ?_, fun _ => ⟨rfl, rfl⟩, ?_, hr.band⟩⟩
  · change b.displayName.or r.displayName = some name
    rw [hname]
    rfl
  · refine hr.kind.imp ?_ fun ha => ha.congr rfl rfl rfl rfl rfl rfl rfl rfl ?_ ha.unwatched
    · rintro ⟨hkind, htype, hpoll, htransport, hauthority, hfailsafe⟩
      exact ⟨hkind, htype, hpoll, htransport, hauthority, hfailsafe⟩
    · change IsAmong _ ((b.role.map roleName).or r.role)
      cases b.role with
      | none => exact ha.role
      | some x => exact isAmong_some.mpr (roleName_valid x)
  · rintro w ⟨⟩
    exact driverName_valid _
  · intro name hname
    change b.displayName.or r.displayName = some name at hname
    cases hb' : b.displayName with
    | none =>
        rw [hb'] at hname
        exact hr.named name hname
    | some own =>
        rw [hb'] at hname
        obtain rfl := Option.some.inj hname
        exact named_iff.mpr hb own hb'

/-- An adoption that is taken back, or given. -/
theorem sound_adopted {adopted : Bool} (hr : Sound r)
    (hbound : adopted = true → r.driverType.isSome = true ∧ r.binding.isSome = true) :
    Sound { r with adopted := adopted } := by
  refine ⟨hr.kind.imp ?_ fun ha => ha.congr rfl rfl rfl rfl rfl rfl rfl rfl ha.role ha.unwatched,
    hr.actuatorClass, hr.driverType, hbound, hr.named, hr.band⟩
  rintro ⟨hkind, htype, hpoll, htransport, hauthority, hfailsafe⟩
  exact ⟨hkind, htype, hpoll, htransport, hauthority, hfailsafe⟩

/-- To adopt a bound device again keeps it sound. -/
theorem sound_readopted (hr : Sound r) :
    Sound { r with adopted := true } ↔ ¬ (r.driverType = none ∨ r.binding = none) := by
  rw [not_or]
  constructor
  · intro h
    obtain ⟨hdriver, hbinding⟩ := h.bound rfl
    exact ⟨Option.isSome_iff_ne_none.mp hdriver, Option.isSome_iff_ne_none.mp hbinding⟩
  · rintro ⟨hdriver, hbinding⟩
    exact sound_adopted hr fun _ =>
      ⟨Option.isSome_iff_ne_none.mpr hdriver, Option.isSome_iff_ne_none.mpr hbinding⟩

/-- What Python strips to something has a character that Postgres does not trim. -/
theorem exists_ne_space {name : Text} (h : name.strip ≠ []) : ∃ c ∈ name.strip, c ≠ ' ' := by
  have hlast : ¬ Text.isSpace (name.strip.getLast h) = true := List.rdropWhile_last_not _ _ h
  refine ⟨_, List.getLast_mem h, fun heq => hlast ?_⟩
  rw [heq]
  decide

/-- To name a device keeps it sound. -/
theorem sound_named (hr : Sound r) (name : Option Text) :
    Sound { r with displayName := blankIsNotAName name } := by
  refine ⟨hr.kind.imp ?_ fun ha => ha.congr rfl rfl rfl rfl rfl rfl rfl rfl ha.role ha.unwatched,
    hr.actuatorClass, hr.driverType, hr.bound, ?_, hr.band⟩
  · rintro ⟨hkind, htype, hpoll, htransport, hauthority, hfailsafe⟩
    exact ⟨hkind, htype, hpoll, htransport, hauthority, hfailsafe⟩
  · intro stored hstored
    obtain ⟨raw, -, hraw⟩ := Option.bind_eq_some_iff.mp hstored
    split at hraw
    · cases hraw
    · next hne =>
        obtain rfl := Option.some.inj hraw
        exact exists_ne_space hne

/-- The row of a registration. -/
theorem sound_row_sensor : Sound (s.row (χ := χ)) := by
  refine ⟨.inl ⟨rfl, rfl, isPositive_of_gtZero s.pollIntervalS_gt,
    isAmong_some.mpr s.transport.name_valid, rfl, rfl⟩, ?_, ?_, ?_, ?_, accepts_blank⟩
  · rintro w ⟨⟩
  · rintro w ⟨⟩
  · rintro ⟨⟩
  · rintro name ⟨⟩

/-- The row that a registration has written over; it need not be a sensor's. -/
theorem sound_upserted (hr : Sound r) : Sound (s.onto r) ↔
    ¬ (s.transport = .network ∧ r.controlAuthority = some "authoritative") := by
  constructor
  · rintro h ⟨hnetwork, hauthority⟩
    obtain ⟨-, ⟨-, hobeyed⟩ | ⟨hmem, -⟩⟩ := h.authority hauthority
    · have hlocal : some s.transport.name = some "local" := hobeyed.transport
      rw [hnetwork] at hlocal
      exact absurd hlocal (by decide)
    · exact absurd hmem (by decide)
  · intro h
    refine ⟨hr.kind.imp (fun hs => ?_) fun ha => ?_, hr.actuatorClass, hr.driverType, hr.bound,
      hr.named, hr.band⟩
    · exact ⟨hs.kind, rfl, isPositive_of_gtZero s.pollIntervalS_gt,
        isAmong_some.mpr s.transport.name_valid, hs.noAuthority, hs.noFailsafe⟩
    · refine ⟨ha.kind, ha.actuatorClass, ha.role, ha.authority.imp ?_ ?_, ha.unwatched⟩
      · intro ho
        have hlocal : s.transport = .local := by
          cases ht : s.transport with
          | «local» => rfl
          | network => exact absurd ⟨ht, ho.authority⟩ h
        refine ⟨ho.authority, ho.failsafe, ?_, ho.safeState, ho.maxRuntime, ho.heartbeatTimeout⟩
        change some s.transport.name = some "local"
        rw [hlocal]
        rfl
      · intro hu
        exact ⟨hu.authority, hu.failsafe, isAmong_some.mpr s.transport.name_valid, hu.noSafeState⟩

/-! ### The band -/

theorem sqlOrder_lt_iff {x y : Double} (h : ¬ y ≤ x) : sqlOrder x < sqlOrder y ↔ x ≠ .nan := by
  constructor
  · rintro hlt rfl
    exact not_top_lt hlt
  · intro hx
    by_cases hy : y = .nan
    · subst hy
      obtain ⟨b, hb⟩ := Option.ne_none_iff_exists'.mp (mt Double.extended_eq_none.mp hx)
      rw [sqlOrder, sqlOrder, hb]
      exact WithTop.coe_lt_top b
    · exact Bands.sqlOrder_lt_of_lt (Double.lt_of_not_le hy hx h)

/-- Two bounds that Python finds in order, as Postgres finds them. -/
theorem inOrder_iff {lo hi margin : Double} (hband : ¬ hi ≤ lo)
    (hzone : ¬ hi - margin ≤ lo + margin) :
    (sqlOrder lo < sqlOrder hi ∧ ∃ low high, sqlAdd lo margin = some low ∧
      sqlAdd hi (-margin) = some high ∧ sqlOrder low < sqlOrder high) ↔
      ¬ (lo = .nan ∨ lo + margin = .nan ∨ sqlAdd lo margin = none ∨
        sqlAdd hi (-margin) = none) := by
  rw [sqlOrder_lt_iff hband]
  constructor
  · rintro ⟨hlo, low, high, hlow, hhigh, hlt⟩ (h | h | h | h)
    · exact hlo h
    · obtain rfl := Bands.sqlAdd_eq_some hlow
      obtain rfl := Bands.sqlAdd_eq_some hhigh
      exact (sqlOrder_lt_iff hzone).mp hlt h
    · rw [h] at hlow
      cases hlow
    · rw [h] at hhigh
      cases hhigh
  · intro h
    obtain ⟨hlo, hsum, hlow, hhigh⟩ : lo ≠ .nan ∧ lo + margin ≠ .nan ∧ sqlAdd lo margin ≠ none ∧
        sqlAdd hi (-margin) ≠ none := by
      simpa only [not_or] using h
    obtain ⟨low, hlow⟩ := Option.ne_none_iff_exists'.mp hlow
    obtain ⟨high, hhigh⟩ := Option.ne_none_iff_exists'.mp hhigh
    refine ⟨hlo, low, high, hlow, hhigh, ?_⟩
    obtain rfl := Bands.sqlAdd_eq_some hlow
    obtain rfl := Bands.sqlAdd_eq_some hhigh
    exact (sqlOrder_lt_iff hzone).mpr hsum

/-- A band that the API lets through. -/
theorem accepts_iff (h : band.apiAccepts) : band.columns.accepts = true ↔ ¬ Unordered band := by
  by_cases hset : band.minimum.isSome ∨ band.maximum.isSome
  · obtain ⟨hmargin, hcrossed⟩ := (Bands.apiAccepts_iff hset).mp h
    obtain ⟨margin, hm⟩ := Option.isSome_iff_exists.mp hmargin
    have hzero : band.marginOrZero = margin := by
      rw [AlertThresholds.marginOrZero, hm]
      rfl
    refine (Bands.storeAccepts_iff hset).trans ?_
    rw [and_iff_right hmargin, hzero]
    have hinOrder := fun lo hlo hi hhi => @inOrder_iff lo hi margin
      (fun hle => hcrossed ⟨lo, hlo, hi, hhi, .inl hle⟩)
      (fun hle => hcrossed ⟨lo, hlo, hi, hhi, .inr (by rwa [hzero])⟩)
    constructor
    · rintro hall ⟨lo, hlo, hi, hhi, margin', hmargin', hbad⟩
      obtain rfl := Option.mem_unique hm hmargin'
      exact (hinOrder lo hlo hi hhi).mp (hall lo hlo hi hhi) hbad
    · intro hnot lo hlo hi hhi
      exact (hinOrder lo hlo hi hhi).mpr fun hbad => hnot ⟨lo, hlo, hi, hhi, margin, hm, hbad⟩
  · -- neither bound is set
    rw [not_or, Option.not_isSome_iff_eq_none, Option.not_isSome_iff_eq_none] at hset
    obtain ⟨hlo, hhi⟩ := hset
    refine iff_of_true ?_ ?_
    · have hpos : ∀ margin ∈ band.clearMargin, sqlOrder 0 < sqlOrder margin :=
        fun margin hm => Bands.sqlOrder_pos_of_gtZero (band.clear_margin_gt margin hm)
      cases hm : band.clearMargin with
      | none =>
          rw [AlertThresholds.columns, hlo, hhi, hm]
          rfl
      | some margin =>
          simp [AlertThresholds.columns, hlo, hhi, hm, Bands.Columns.accepts,
            Bands.Columns.clearMarginPositive, Bands.Columns.alertBandOrdered,
            Bands.Columns.thresholdsRequireClearMargin, Bands.Columns.clearZoneIsReachable,
            hpos margin hm]
    · rintro ⟨lo, hmem, -⟩
      rw [hlo] at hmem
      cases hmem

/-- The row that a band has been written to. -/
theorem sound_watched (hr : Sound r) (h : band.apiAccepts) :
    Sound { r with
      alertMin := band.minimum, alertMax := band.maximum, alertClearMargin := band.clearMargin } ↔
      ¬ (r.kind = "actuator" ∧ Sets band ∨ Unordered band) := by
  rw [not_or, ← accepts_iff h]
  constructor
  · intro hs
    refine ⟨?_, hs.band⟩
    rintro ⟨hkind, hsets⟩
    obtain ⟨hlo, hhi, hmargin⟩ := (hs.actuator hkind).unwatched
    obtain hset | hset | hset := hsets
    · exact hset hlo
    · exact hset hhi
    · exact hset hmargin
  · rintro ⟨hkind, hband⟩
    refine ⟨hr.kind.imp ?_ fun ha => ?_, hr.actuatorClass, hr.driverType, hr.bound, hr.named, hband⟩
    · rintro ⟨hsensor, htype, hpoll, htransport, hauthority, hfailsafe⟩
      exact ⟨hsensor, htype, hpoll, htransport, hauthority, hfailsafe⟩
    · refine ha.congr rfl rfl rfl rfl rfl rfl rfl rfl ha.role ?_
      have hnot : ¬ Sets band := fun hsets => hkind ⟨ha.kind, hsets⟩
      simpa only [Sets, not_or, not_not] using hnot

end Kept

section Refused
variable [DecidableEq ι] {w : Statement nanPasses ι χ} {t : Table ι χ} {r : Row ι χ}

/-- A statement fails by the row that it offers, or by a row of its device. -/
theorem refused_eq_true : w.refused t = true ↔ (∃ r, w.offers = some r ∧ ¬ Sound r) ∨
    ∃ x ∈ t.rows, x.deviceId = w.target ∧ ¬ Sound (w.edit x) := by
  simp only [Statement.refused, Statement.written, List.any_append, Bool.or_eq_true,
    List.any_eq_true, Option.mem_toList, Bool.not_eq_true', ← Bool.not_eq_true, accepts_iff_sound]
  refine or_congr Iff.rfl ?_
  constructor
  · rintro ⟨r, hr, hs⟩
    obtain ⟨x, hx, rfl⟩ := List.mem_map.mp hr
    obtain ⟨hx, hid⟩ := List.mem_filter.mp hx
    exact ⟨x, hx, of_decide_eq_true hid, hs⟩
  · rintro ⟨x, hx, hid, hs⟩
    exact ⟨w.edit x, List.mem_map_of_mem (List.mem_filter.mpr ⟨hx, decide_eq_true hid⟩), hs⟩

omit [DecidableEq ι] in
/-- Every row of the table is sound. -/
theorem Table.sound (t : Table ι χ) : ∀ r ∈ t.rows, Sound r :=
  fun r hr => accepts_iff_sound.mp (t.accepted r hr)

/-- Where what it offers is sound, a statement fails by what it makes of its device's row. -/
theorem refused_iff_edit {P : Row ι χ → Prop} (hoffers : ∀ r, w.offers = some r → Sound r)
    (hP : ∀ x, Sound x → (Sound (w.edit x) ↔ ¬ P x)) :
    w.refused t = true ↔ ∃ x ∈ t.rows, x.deviceId = w.target ∧ P x := by
  rw [refused_eq_true, or_iff_right_of_imp]
  · refine exists_congr fun x => and_congr_right fun hx => and_congr_right fun _ => ?_
    rw [hP x (t.sound x hx), not_not]
  · rintro ⟨r, hr, hs⟩
    exact absurd (hoffers r hr) hs

/-- What offers and edits soundly is not refused. -/
theorem not_refused (hoffers : ∀ r, w.offers = some r → Sound r)
    (hedit : ∀ x, Sound x → Sound (w.edit x)) : ¬ w.refused t = true := by
  rw [refused_iff_edit (P := fun _ => False) hoffers fun x hx =>
    iff_of_true (hedit x hx) not_false]
  rintro ⟨x, -, -, h⟩
  exact h

/-- **A write is refused** exactly where it meets one of the exceptions. -/
theorem refused_iff_excepted : w.refused t = true ↔ w.Excepted t := by
  cases w with
  | insertBound b =>
      rw [refused_eq_true, or_iff_left_of_imp]
      · simp [Statement.offers, Statement.Excepted, sound_row_bind]
      · rintro ⟨x, hx, -, hs⟩
        exact absurd (t.sound x hx) hs
  | updateBound d b =>
      refine Iff.trans (refused_iff_edit (P := fun _ => b.Blank) (by rintro r ⟨⟩)
        fun x hx => sound_onto hx) ?_
      constructor
      · rintro ⟨x, hx, hid, hblank⟩
        exact ⟨hblank, x, hx, hid⟩
      · rintro ⟨hblank, x, hx, hid⟩
        exact ⟨x, hx, hid, hblank⟩
  | unadopt d =>
      refine iff_of_false (not_refused (by rintro r ⟨⟩) fun x hx => sound_adopted hx ?_) not_false
      rintro ⟨⟩
  | readopt d =>
      exact refused_iff_edit (P := fun x => x.driverType = none ∨ x.binding = none)
        (by rintro r ⟨⟩) fun x hx => sound_readopted hx
  | forget d => exact iff_of_false (not_refused (by rintro r ⟨⟩) fun x hx => hx) not_false
  | upsertSensor s =>
      refine Iff.trans (refused_iff_edit
        (P := fun x => s.transport = .network ∧ x.controlAuthority = some "authoritative")
        (by rintro r ⟨⟩; exact sound_row_sensor) fun x hx => sound_upserted hx) ?_
      constructor
      · rintro ⟨x, hx, hid, hnetwork, hauthority⟩
        exact ⟨hnetwork, x, hx, hid, hauthority⟩
      · rintro ⟨hnetwork, x, hx, hid, hauthority⟩
        exact ⟨x, hx, hid, hnetwork, hauthority⟩
  | setDisplayName d name =>
      exact iff_of_false (not_refused (by rintro r ⟨⟩) fun x hx => sound_named hx name) not_false
  | setThresholds d band h =>
      exact refused_iff_edit (P := fun x => x.kind = "actuator" ∧ Sets band ∨ Unordered band)
        (by rintro r ⟨⟩) fun x hx => sound_watched hx h

/-- Whatever is in the table, the checks turn down these statements and no others. -/
theorem execute_eq_none_iff : w.execute t = none ↔ w.Excepted t := by
  rw [← refused_iff_excepted, Statement.execute]
  split
  · next h => simp [h]
  · next h => simpa using h

end Refused

end Statements

/-! ### The contract -/

/-- What levels an actuator takes. -/
inductive ActuatorClass where
  | binary
  | pwm
  deriving DecidableEq, Repr

/-- A class as the table writes it. -/
def ActuatorClass.name : ActuatorClass → String
  | .binary => "binary"
  | .pwm => "pwm"

/-- Who decides an actuator's level, and whether it fails safe. -/
inductive ControlAuthority where
  | authoritative
  | advisory
  | observeOnly
  deriving DecidableEq, Repr

/-- An authority as the table writes it. -/
def ControlAuthority.name : ControlAuthority → String
  | .authoritative => "authoritative"
  | .advisory => "advisory"
  | .observeOnly => "observe_only"

/-- `kind`, of a level. -/
def levelKind : ActuatorLevel → ActuatorClass
  | .binary _ => .binary
  | .pwm _ => .pwm

/-- `ActuatorRegistration`, as its fields admit it. -/
structure ActuatorRegistration (nanPasses : Bool) (ι : Type) where
  actuatorId : ι
  actuatorClass : ActuatorClass
  role : ActuatorRole
  controlAuthority : ControlAuthority
  failsafeCapable : Bool
  transport : Transport
  safeState : Option ActuatorLevel
  maxRuntimeS : Option Double
  heartbeatTimeoutS : Option Double
  maxRuntimeS_gt : ∀ x ∈ maxRuntimeS, gtZero nanPasses x = true
  heartbeatTimeoutS_gt : ∀ x ∈ heartbeatTimeoutS, gtZero nanPasses x = true

namespace ActuatorRegistration
variable {nanPasses : Bool} {ι χ : Type}

/-- The parts of the safety triple that it does not declare. -/
def missing (a : ActuatorRegistration nanPasses ι) : List String :=
  (if a.safeState.isNone then ["safe_state"] else []) ++
    (if a.maxRuntimeS.isNone then ["max_runtime_s"] else []) ++
    (if a.heartbeatTimeoutS.isNone then ["heartbeat_timeout_s"] else [])

/-- `_authority_governs_safety`. -/
def authorityGovernsSafety (a : ActuatorRegistration nanPasses ι) : Except String Unit :=
  if a.controlAuthority = .authoritative then
    if a.failsafeCapable = false then .error "authoritative devices must be failsafe_capable"
    else if a.transport ≠ .local then .error "authoritative devices must be transport='local'"
    else if a.missing ≠ [] then
      .error ("authoritative devices must declare the full safety triple; missing: " ++
        ", ".intercalate a.missing)
    else .ok ()
  else if a.safeState.isSome then
    .error (a.controlAuthority.name ++ " devices must not declare a safe_state: it could not be " ++
      "enforced, and a value here is indistinguishable from one that is")
  else .ok ()

/-- `_safe_state_matches_class`. -/
def safeStateMatchesClass (a : ActuatorRegistration nanPasses ι) : Except String Unit :=
  match a.safeState with
  | none => .ok ()
  | some level =>
      if levelKind level ≠ a.actuatorClass then
        .error ("safe_state.kind='" ++ (levelKind level).name ++
          "' does not match actuator_class='" ++ a.actuatorClass.name ++ "'")
      else .ok ()

/-- The model's validators, in their order. -/
def validate (a : ActuatorRegistration nanPasses ι) : Except String Unit := do
  a.authorityGovernsSafety
  a.safeStateMatchesClass

/-- Its row, bound to nothing. -/
def row (a : ActuatorRegistration nanPasses ι) : Row ι χ where
  deviceId := a.actuatorId
  kind := "actuator"
  sensorType := none
  pollIntervalS := none
  actuatorClass := some a.actuatorClass.name
  controlAuthority := some a.controlAuthority.name
  failsafeCapable := some a.failsafeCapable
  transport := some a.transport.name
  role := some (roleName a.role)
  safeState := a.safeState
  maxRuntimeS := a.maxRuntimeS
  heartbeatTimeoutS := a.heartbeatTimeoutS
  alertMin := none
  alertMax := none
  alertClearMargin := none
  displayName := none
  driverType := none
  binding := none
  adopted := false

variable {a : ActuatorRegistration nanPasses ι} {x : Option Double}

theorem isPositive_iff (h : ∀ y ∈ x, gtZero nanPasses y = true) :
    IsPositive x ↔ x.isSome = true := by
  constructor
  · rintro ⟨y, rfl, -⟩
    rfl
  · intro hs
    obtain ⟨y, rfl⟩ := Option.isSome_iff_exists.mp hs
    exact isPositive_of_gtZero (h y rfl)

/-- Nothing is missing where the safe state and both bounds are there. -/
theorem missing_eq_nil : a.missing = [] ↔ a.safeState.isSome = true ∧
    a.maxRuntimeS.isSome = true ∧ a.heartbeatTimeoutS.isSome = true := by
  cases hs : a.safeState <;> cases hm : a.maxRuntimeS <;> cases hh : a.heartbeatTimeoutS <;>
    simp [missing, hs, hm, hh]

/-- The API's model asks of an authority what the table asks. -/
theorem authorityGovernsSafety_eq_ok : a.authorityGovernsSafety = .ok () ↔
    (a.controlAuthority = .authoritative → a.failsafeCapable = true ∧ a.transport = .local ∧
      a.missing = []) ∧ (a.controlAuthority ≠ .authoritative → a.safeState = none) := by
  unfold authorityGovernsSafety
  split_ifs <;> simp_all [Option.isSome_iff_ne_none]

theorem authority_name_inj {x y : ControlAuthority} : x.name = y.name ↔ x = y := by
  cases x <;> cases y <;> decide

theorem transport_name_inj {x y : Transport} : x.name = y.name ↔ x = y := by
  cases x <;> cases y <;> decide

/-- An authoritative declaration makes an authoritative row. -/
theorem authoritative_row (ha : a.controlAuthority = .authoritative) :
    Authoritative (a.row (χ := χ)) ↔ a.authorityGovernsSafety = .ok () := by
  rw [authorityGovernsSafety_eq_ok, missing_eq_nil, ← isPositive_iff a.maxRuntimeS_gt,
    ← isPositive_iff a.heartbeatTimeoutS_gt]
  constructor
  · rintro ⟨-, hfailsafe, htransport, hstate, hmax, hbeat⟩
    exact ⟨fun _ => ⟨Option.some.inj hfailsafe, transport_name_inj.mp (Option.some.inj htransport),
      hstate, hmax, hbeat⟩, fun hne => absurd ha hne⟩
  · rintro ⟨h, -⟩
    obtain ⟨hfailsafe, htransport, hstate, hmax, hbeat⟩ := h ha
    refine ⟨?_, congrArg some hfailsafe, ?_, hstate, hmax, hbeat⟩
    · exact congrArg some (authority_name_inj.mpr ha)
    · exact congrArg some (transport_name_inj.mpr htransport)

/-- Any other makes one without a safe state. -/
theorem unenforceable_row (ha : a.controlAuthority ≠ .authoritative) :
    Unenforceable (a.row (χ := χ)) ↔ a.authorityGovernsSafety = .ok () := by
  rw [authorityGovernsSafety_eq_ok]
  constructor
  · intro h
    exact ⟨fun heq => absurd heq ha, fun _ => h.noSafeState⟩
  · rintro ⟨-, h⟩
    refine ⟨isAmong_some.mpr ?_, rfl, isAmong_some.mpr a.transport.name_valid, h ha⟩
    cases hc : a.controlAuthority with
    | authoritative => exact absurd hc ha
    | advisory => decide
    | observeOnly => decide

/-- The row of a registration is sound by its authority. -/
theorem sound_row : Sound (a.row (χ := χ)) ↔ a.authorityGovernsSafety = .ok () := by
  have hclass : a.actuatorClass.name ∈ ["binary", "pwm"] := by
    cases a.actuatorClass <;> decide
  have hof : Authoritative (a.row (χ := χ)) ∨ Unenforceable (a.row (χ := χ)) →
      Sound (a.row (χ := χ)) := by
    intro h
    refine ⟨.inr ⟨rfl, rfl, isAmong_some.mpr (roleName_valid a.role), h, rfl, rfl, rfl⟩, ?_, ?_, ?_,
      ?_, accepts_blank⟩
    · rintro w ⟨⟩
      exact hclass
    · rintro w ⟨⟩
    · rintro ⟨⟩
    · rintro name ⟨⟩
  by_cases ha : a.controlAuthority = .authoritative
  · rw [← authoritative_row (χ := χ) ha]
    refine ⟨fun h => ?_, fun h => hof (.inl h)⟩
    obtain ho | hu := (h.actuator rfl).authority
    · exact ho
    · obtain ⟨v, hv, hname⟩ := hu.authority
      obtain rfl := Option.some.inj hname
      rw [ha] at hv
      exact absurd hv (by decide)
  · rw [← unenforceable_row (χ := χ) ha]
    refine ⟨fun h => ?_, fun h => hof (.inr h)⟩
    obtain ho | hu := (h.actuator rfl).authority
    · have hname : a.controlAuthority.name = ControlAuthority.authoritative.name :=
        Option.some.inj ho.authority
      exact absurd (authority_name_inj.mp hname) ha
    · exact hu

/-- A safe state is a level of the device's class. -/
theorem safeStateMatchesClass_eq_ok : a.safeStateMatchesClass = .ok () ↔
    ∀ level ∈ a.safeState, levelKind level = a.actuatorClass := by
  cases hs : a.safeState with
  | none => simp [safeStateMatchesClass, hs]
  | some level =>
      by_cases hk : levelKind level = a.actuatorClass <;> simp [safeStateMatchesClass, hs, hk]

/-- What the contract asks of a registration is what the checks ask of its row, and that the safe
state is of the class. -/
theorem registered_iff : a.validate = .ok () ↔
    (a.row (χ := χ)).accepts = true ∧ ∀ level ∈ a.safeState, levelKind level = a.actuatorClass := by
  rw [accepts_iff_sound, sound_row, ← safeStateMatchesClass_eq_ok, validate]
  cases a.authorityGovernsSafety with
  | error e =>
      refine iff_of_false ?_ ?_
      · rintro ⟨⟩
      · rintro ⟨⟨⟩, -⟩
  | ok u => exact (and_iff_right rfl).symm

end ActuatorRegistration

end BellasReef.Api.DeviceChecks
