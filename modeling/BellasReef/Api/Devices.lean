import BellasReef.Contracts.Assignments
import BellasReef.Support.Lists

/-!
# Api — Devices

The `devices` table and the store's writes to it (`store.py`), one transaction each.  A row
carries the table's check and the table its unique key, so no write can leave either broken.
-/

namespace BellasReef.Api
open BellasReef.Contracts BellasReef.Support

/-- `ActuatorRole`. -/
inductive ActuatorRole where
  | light
  | heater
  | pump
  | doser
  | outlet
  deriving DecidableEq, Repr

/-- `BindDeviceRequest.driver_type`. -/
inductive DriverType where
  | piPwm
  | pca9685
  | ds18b20
  deriving DecidableEq, Repr

/-- A row is of a sensor or of an actuator. -/
inductive DeviceKind where
  | sensor
  | actuator
  deriving DecidableEq, Repr

/-- A binding: `{"channel": c}` or `{"rom": r}`. -/
inductive Binding (χ : Type) where
  | channel (c : χ)
  | rom (r : χ)
  deriving DecidableEq

/-- `COALESCE(binding ->> 'channel', binding ->> 'rom')`. -/
def Binding.key {χ : Type} : Binding χ → χ
  | .channel c => c
  | .rom r => r

/-- The assignments the API publishes. -/
abbrev Assignment (ι χ : Type) := DeviceAssignment ι ActuatorRole DriverType (Binding χ)

/-- A row of `devices`. -/
structure DeviceRow (ι χ : Type) where
  deviceId : ι
  kind : DeviceKind
  role : Option ActuatorRole
  driverType : Option DriverType
  binding : Option (Binding χ)
  adopted : Bool
  /-- The check of that name. -/
  adopted_devices_are_bound : adopted = true → driverType.isSome ∧ binding.isSome
  deriving DecidableEq

/-- The table. -/
structure Devices (ι χ : Type) where
  rows : List (DeviceRow ι χ)
  unique : (rows.map DeviceRow.deviceId).Nodup

/-- What `unadopt_device` and `readopt_device` return of a row is published as it stands. -/
def DeviceRow.assignment {ι χ : Type} (r : DeviceRow ι χ) : Assignment ι χ :=
  ⟨r.deviceId, r.adopted, r.role, r.driverType, r.binding, r.adopted_devices_are_bound⟩

/-- The row of a device on its channel, adopted. -/
def DeviceRow.bind {ι χ : Type} (r : DeviceRow ι χ) (driverType : DriverType) (binding : Binding χ)
    (role : Option ActuatorRole) : DeviceRow ι χ :=
  { r with
    driverType := some driverType
    binding := some binding
    adopted := true
    role := role.or r.role
    adopted_devices_are_bound := fun _ => ⟨rfl, rfl⟩ }

/-- The row stays bound, and is inert. -/
def DeviceRow.unadopt {ι χ : Type} (r : DeviceRow ι χ) : DeviceRow ι χ :=
  { r with adopted := false, adopted_devices_are_bound := nofun }

/-- A row that is bound can be adopted again. -/
def DeviceRow.readopt {ι χ : Type} (r : DeviceRow ι χ)
    (h : r.driverType.isSome ∧ r.binding.isSome) : DeviceRow ι χ :=
  { r with adopted := true, adopted_devices_are_bound := fun _ => h }

namespace Devices
variable {ι χ : Type} [DecidableEq ι] [DecidableEq χ]

omit [DecidableEq χ] in
/-- `WHERE device_id = ...`. -/
def find (db : Devices ι χ) (deviceId : ι) : Option (DeviceRow ι χ) :=
  db.rows.find? (·.deviceId = deviceId)

omit [DecidableEq ι] in
/-- The row is on this channel. -/
def onChannel (driverType : DriverType) (channel : χ) (r : DeviceRow ι χ) : Bool :=
  decide (r.driverType = some driverType ∧ r.binding.map Binding.key = some channel)

omit [DecidableEq χ] in
/-- `UPDATE ... WHERE device_id = r.device_id`. -/
def update (db : Devices ι χ) (r : DeviceRow ι χ) : Devices ι χ where
  rows := db.rows.map fun x => if x.deviceId = r.deviceId then r else x
  unique := by
    have hids : (db.rows.map fun x => if x.deviceId = r.deviceId then r else x).map
        DeviceRow.deviceId = db.rows.map DeviceRow.deviceId := by
      rw [List.map_map]
      refine List.map_congr_left fun x _ => ?_
      by_cases hx : x.deviceId = r.deviceId
      · rw [Function.comp_apply, if_pos hx, hx]
      · rw [Function.comp_apply, if_neg hx]
    rw [hids]
    exact db.unique

omit [DecidableEq χ] in
/-- `INSERT ... ON CONFLICT (device_id) DO NOTHING`; `none` where there was a conflict. -/
def insert (db : Devices ι χ) (r : DeviceRow ι χ) : Option (Devices ι χ) :=
  if h : r.deviceId ∈ db.rows.map DeviceRow.deviceId then none
  else some {
    rows := r :: db.rows
    unique := List.nodup_cons.mpr ⟨h, db.unique⟩ }

omit [DecidableEq χ] in
/-- `DELETE ... WHERE device_id = ...`. -/
def delete (db : Devices ι χ) (deviceId : ι) : Devices ι χ where
  rows := db.rows.filter (·.deviceId ≠ deviceId)
  unique := db.unique.sublist (List.filter_sublist.map _)

/-- `device_bound_to`. -/
def deviceBoundTo (db : Devices ι χ) (driverType : DriverType) (channel : χ) : Option ι :=
  (db.rows.find? fun r => r.adopted && onChannel driverType channel r).map DeviceRow.deviceId

/-- The first look of `bind_device`: the row that carries the channel. -/
def carrier (db : Devices ι χ) (driverType : DriverType) (channel : χ) : Option (DeviceRow ι χ) :=
  db.rows.find? (onChannel driverType channel)

/-- Its second, for a sensor: the row of that id, announced and not bound yet. -/
def announced (db : Devices ι χ) (deviceId : ι) : Option (DeviceRow ι χ) :=
  db.rows.find? fun r => decide (r.binding = none ∧ r.kind = .sensor ∧ r.deviceId = deviceId)

/-- The row that `bind_device` takes for this hardware, whatever id was proposed. -/
def matching (db : Devices ι χ) (deviceId : ι) (kind : DeviceKind) (driverType : DriverType)
    (channel : χ) : Option (DeviceRow ι χ) :=
  match db.carrier driverType channel, kind with
  | none, .sensor => db.announced deviceId
  | existing, _ => existing

/-- `bind_device`: the table, the device and whether it was created; `none` for
`DeviceIdConflictError`. -/
def bindDevice (db : Devices ι χ) (deviceId : ι) (kind : DeviceKind) (driverType : DriverType)
    (binding : Binding χ) (role : Option ActuatorRole) : Option (Devices ι χ × ι × Bool) :=
  match db.matching deviceId kind driverType binding.key with
  | some r => some (db.update (r.bind driverType binding role), r.deviceId, false)
  | none =>
      (db.insert ⟨deviceId, kind, role, some driverType, some binding, true,
        fun _ => ⟨rfl, rfl⟩⟩).map fun db => (db, deviceId, true)

omit [DecidableEq χ] in
/-- `unadopt_device`: the table and the row as it now is. -/
def unadoptDevice (db : Devices ι χ) (deviceId : ι) : Option (Devices ι χ × DeviceRow ι χ) :=
  match db.find deviceId with
  | some r => if r.adopted then some (db.update r.unadopt, r.unadopt) else none
  | none => none

/-- What `readopt_device` comes to. -/
inductive Readoption (ι χ : Type) where
  | readopted (db : Devices ι χ) (row : DeviceRow ι χ)
  /-- `ChannelHeldError`. -/
  | channelHeld (holder : ι)
  /-- Unknown, adopted already, or never bound. -/
  | missing

/-- `readopt_device`. -/
def readoptDevice (db : Devices ι χ) (deviceId : ι) : Readoption ι χ :=
  match db.find deviceId with
  | some r =>
      if h : r.adopted = false ∧ r.driverType.isSome ∧ r.binding.isSome then
        match db.rows.find? fun x =>
            decide (x.driverType = r.driverType ∧
              x.binding.map Binding.key = r.binding.map Binding.key ∧
              x.adopted = true ∧ x.deviceId ≠ deviceId) with
        | some holder => .channelHeld holder.deviceId
        | none => .readopted (db.update (r.readopt h.2)) (r.readopt h.2)
      else .missing
  | none => .missing

/-- What `forget_device` comes to. -/
inductive Forgetting (ι χ : Type) where
  | forgotten (db : Devices ι χ)
  | adopted
  | missing
  /-- `DeviceReferencedError`. -/
  | referenced

omit [DecidableEq χ] in
/-- `forget_device`.  `referenced`: calibration records or dosing entries point at the row. -/
def forgetDevice (db : Devices ι χ) (deviceId : ι) (referenced : Bool) : Forgetting ι χ :=
  match db.find deviceId with
  | some r =>
      if r.adopted then .adopted
      else if referenced then .referenced
      else .forgotten (db.delete deviceId)
  | none => .missing

omit [DecidableEq χ] in
/-- `upsert_sensor`: a sensor that announces itself gets a row, adopted by nobody. -/
def upsertSensor (db : Devices ι χ) (deviceId : ι) : Devices ι χ :=
  (db.insert ⟨deviceId, .sensor, none, none, none, false, nofun⟩).getD db

/-! ### What a write changes -/

variable {db db' : Devices ι χ} {r x : DeviceRow ι χ} {deviceId : ι}

omit [DecidableEq χ] in
/-- An id finds the one row that has it. -/
theorem find_eq_some_iff : db.find deviceId = some r ↔ r ∈ db.rows ∧ r.deviceId = deviceId :=
  find_key_eq_some_iff db.unique

omit [DecidableEq χ] in
/-- An id finds nothing where no row has it. -/
theorem find_eq_none_iff : db.find deviceId = none ↔ ∀ r ∈ db.rows, r.deviceId ≠ deviceId := by
  simp [find]

omit [DecidableEq ι] [DecidableEq χ] in
/-- A row is told by its device id. -/
theorem eq_of_deviceId (hr : r ∈ db.rows) (hx : x ∈ db.rows) (h : r.deviceId = x.deviceId) : r = x :=
  List.inj_on_of_nodup_map db.unique hr hx h

omit [DecidableEq χ] in
/-- An `UPDATE` of a row that is there puts the new row in its place. -/
theorem mem_update {y : DeviceRow ι χ} (hr : r ∈ db.rows) (hid : y.deviceId = r.deviceId) :
    x ∈ (db.update y).rows ↔ x = y ∨ x ∈ db.rows ∧ x.deviceId ≠ r.deviceId := by
  rw [update, List.mem_map, hid]
  constructor
  · rintro ⟨z, hz, rfl⟩
    by_cases he : z.deviceId = r.deviceId
    · rw [if_pos he]; exact .inl rfl
    · rw [if_neg he]; exact .inr ⟨hz, he⟩
  · rintro (rfl | ⟨hx, hne⟩)
    · exact ⟨r, hr, if_pos rfl⟩
    · exact ⟨x, hx, if_neg hne⟩

omit [DecidableEq χ] in
/-- An insert adds the row. -/
theorem mem_insert (h : db.insert r = some db') : x ∈ db'.rows ↔ x = r ∨ x ∈ db.rows := by
  rw [insert] at h
  split at h
  · cases h
  · cases h; exact List.mem_cons

omit [DecidableEq χ] in
/-- An `INSERT` is refused by a row of the same id only. -/
theorem insert_eq_none_iff : db.insert r = none ↔ db.find r.deviceId ≠ none := by
  rw [insert, ne_eq, find_eq_none_iff]
  split
  · next h =>
      obtain ⟨y, hy, hid⟩ := List.mem_map.mp h
      exact iff_of_true rfl fun hall => hall y hy hid
  · next h =>
      exact iff_of_false nofun fun hall => hall fun y hy hid =>
        h (hid ▸ List.mem_map_of_mem hy)

omit [DecidableEq χ] in
/-- A delete takes out the row of its id. -/
theorem mem_delete : x ∈ (db.delete deviceId).rows ↔ x ∈ db.rows ∧ x.deviceId ≠ deviceId := by
  rw [delete, List.mem_filter, decide_eq_true_iff]

omit [DecidableEq χ] in
/-- A sensor that announces itself is a new row, or changes none. -/
theorem mem_upsertSensor : x ∈ (db.upsertSensor deviceId).rows ↔ x ∈ db.rows ∨
    db.find deviceId = none ∧ x = ⟨deviceId, .sensor, none, none, none, false, nofun⟩ := by
  rw [upsertSensor]
  cases h : db.insert ⟨deviceId, .sensor, none, none, none, false, nofun⟩ with
  | none =>
      have hfind := insert_eq_none_iff.mp h
      exact ⟨.inl, fun hx => hx.resolve_right fun hno => hfind hno.1⟩
  | some db' =>
      have hfind : db.find deviceId = none := by
        by_contra hne
        rw [insert_eq_none_iff.mpr hne] at h
        cases h
      rw [Option.getD_some, mem_insert h]
      exact ⟨fun hx => hx.elim (fun he => .inr ⟨hfind, he⟩) .inl,
        fun hx => hx.elim .inr fun he => .inl he.2⟩

omit [DecidableEq ι] in
/-- What carries a channel is on it. -/
theorem carrier_eq_some {t : DriverType} {c : χ} (h : db.carrier t c = some r) :
    r ∈ db.rows ∧ onChannel t c r = true :=
  ⟨List.mem_of_find?_eq_some h, List.find?_some (p := onChannel t c) h⟩

omit [DecidableEq ι] in
/-- Where nothing carries a channel no row is on it. -/
theorem carrier_eq_none {t : DriverType} {c : χ} (h : db.carrier t c = none) :
    ∀ x ∈ db.rows, onChannel t c x = false :=
  fun x hx => Bool.eq_false_iff.mpr (List.find?_eq_none.mp h x hx)

omit [DecidableEq χ] in
/-- A probe that was announced and not bound. -/
theorem announced_eq_some (h : db.announced deviceId = some r) :
    r ∈ db.rows ∧ r.binding = none ∧ r.deviceId = deviceId := by
  have hp := List.find?_some h
  obtain ⟨hb, -, hid⟩ := of_decide_eq_true hp
  exact ⟨List.mem_of_find?_eq_some h, hb, hid⟩

/-- The row that a bind takes for its hardware. -/
theorem matching_eq_some {kind : DeviceKind} {t : DriverType} {c : χ}
    (h : db.matching deviceId kind t c = some r) :
    r ∈ db.rows ∧ (onChannel t c r = true ∨
      r.binding = none ∧ ∀ x ∈ db.rows, onChannel t c x = false) := by
  unfold matching at h
  cases hc : db.carrier t c with
  | some x =>
      rw [hc] at h
      cases h
      exact (carrier_eq_some hc).imp_right .inl
  | none =>
      rw [hc] at h
      cases kind with
      | actuator => cases h
      | sensor =>
          obtain ⟨hr, hb, -⟩ := announced_eq_some h
          exact ⟨hr, .inr ⟨hb, carrier_eq_none hc⟩⟩

/-- Where a bind matches nothing no row is on its channel. -/
theorem matching_eq_none {kind : DeviceKind} {t : DriverType} {c : χ}
    (h : db.matching deviceId kind t c = none) : ∀ x ∈ db.rows, onChannel t c x = false := by
  unfold matching at h
  cases hc : db.carrier t c with
  | some x => rw [hc] at h; cases h
  | none => exact carrier_eq_none hc

end Devices

end BellasReef.Api
