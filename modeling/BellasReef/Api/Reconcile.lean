import BellasReef.Api.Devices
import BellasReef.Support.Machine
import Mathlib.Algebra.Order.Ring.Rat
import Mathlib.Data.List.Sort

/-!
# Api — Reconcile

The device requests, the assignments they owe the stream, and the API's startup.

A request commits first and publishes afterwards, best effort: the publish may fail, the process
may stop before it, and the publishes of concurrent requests may overtake each other.  At its
startup the API publishes every adopted row again, and no row that is not adopted.

`reconciled_iff`: the startup makes the stream what Postgres says exactly when no device that
Postgres does not hold as adopted was last heard of as adopted.
-/

namespace BellasReef.Api
open BellasReef.Contracts BellasReef.Support

variable {ι χ : Type}

/-! ### The requests -/

/-- `CapabilitySource`. -/
inductive CapabilitySource where
  | piPwm
  | pca9685
  | w1Bus
  deriving DecidableEq, Repr

instance CapabilitySource.lawfulBEq [DecidableEq χ] : LawfulBEq (CapabilitySource × χ) :=
  inferInstance

/-- `CAPABILITY_SOURCE_FOR_DRIVER`. -/
def DriverType.source : DriverType → CapabilitySource
  | .piPwm => .piPwm
  | .pca9685 => .pca9685
  | .ds18b20 => .w1Bus

/-- `BindDeviceRequest`. -/
structure BindDeviceRequest (ι χ : Type) where
  deviceId : ι
  driverType : DriverType
  channel : χ
  role : Option ActuatorRole
  pollIntervalS : Option ℚ
  /-- `Literal["light"]`. -/
  role_light : ∀ r ∈ role, r = .light
  poll_pos : ∀ p ∈ pollIntervalS, 0 < p

theorem light_role : ∀ r ∈ some ActuatorRole.light, r = .light := by
  rintro r ⟨⟩
  rfl

theorem no_role : ∀ r ∈ (none : Option ActuatorRole), r = .light := nofun

theorem interval_pos {x : ℚ} (h : 0 < x) : ∀ p ∈ some x, 0 < p := by
  rintro p ⟨⟩
  exact h

theorem no_interval : ∀ p ∈ (none : Option ℚ), 0 < p := nofun

/-- `is_sensor`. -/
def BindDeviceRequest.kind (r : BindDeviceRequest ι χ) : DeviceKind :=
  if r.driverType = .ds18b20 then .sensor else .actuator

/-- A probe is bound to a ROM, anything else to a channel. -/
def BindDeviceRequest.binding (r : BindDeviceRequest ι χ) : Binding χ :=
  if r.driverType = .ds18b20 then .rom r.channel else .channel r.channel

/-- Why `bindDevice` refuses. -/
inductive BindRefusal (ι : Type) where
  | noCapability
  | channelBound (holder : ι)
  | noPollInterval
  | sensorWithRole
  | noRole
  | deviceIdConflict
  deriving DecidableEq

/-- A device request.  `forget` knows whether records point at the device. -/
inductive Request (ι χ : Type) where
  | bind (body : BindDeviceRequest ι χ)
  | unbind (deviceId : ι)
  | readopt (deviceId : ι)
  | forget (deviceId : ι) (referenced : Bool)

section Requests
variable [DecidableEq ι] [DecidableEq χ]

/-- `bindDevice`: the table and the assignment to publish. -/
def bindDevice (db : Devices ι χ) (capabilities : List (CapabilitySource × χ))
    (body : BindDeviceRequest ι χ) : Except (BindRefusal ι) (Devices ι χ × Assignment ι χ) :=
  if (body.driverType.source, body.channel) ∉ capabilities then .error .noCapability
  else
    match body.kind, (db.deviceBoundTo body.driverType body.channel).filter (· ≠ body.deviceId) with
    | .actuator, some holder => .error (.channelBound holder)
    | kind, _ =>
        if kind = .sensor ∧ body.pollIntervalS = none then .error .noPollInterval
        else if kind = .sensor ∧ body.role ≠ none then .error .sensorWithRole
        else if kind = .actuator ∧ body.role = none then .error .noRole
        else
          match db.bindDevice body.deviceId kind body.driverType body.binding body.role with
          | some (db, deviceId, _) =>
              .ok (db, ⟨deviceId, true, body.role, some body.driverType, some body.binding,
                fun _ => ⟨rfl, rfl⟩⟩)
          | none => .error .deviceIdConflict

/-- A request that is not refused: what it commits, and the assignment it then publishes. -/
def Request.commit (db : Devices ι χ) (capabilities : List (CapabilitySource × χ)) :
    Request ι χ → Option (Devices ι χ × List (Assignment ι χ))
  | .bind body => (bindDevice db capabilities body).toOption.map fun (db, a) => (db, [a])
  | .unbind deviceId => (db.unadoptDevice deviceId).map fun (db, r) => (db, [r.assignment])
  | .readopt deviceId =>
      match db.readoptDevice deviceId with
      | .readopted db r => some (db, [r.assignment])
      | .channelHeld _ | .missing => none
  | .forget deviceId referenced =>
      match db.forgetDevice deviceId referenced with
      | .forgotten db => some (db, [])
      | .adopted | .missing | .referenced => none

end Requests

/-! ### The stream -/

/-- Postgres and the retained stream. -/
structure Registry (ι χ : Type) where
  devices : Devices ι χ
  capabilities : List (CapabilitySource × χ)
  /-- Assignments of committed requests, not published yet. -/
  outbox : List (Assignment ι χ)
  /-- What the stream retains. -/
  retained : List (Assignment ι χ)

/-- A request, the end of a publish, or a restart. -/
inductive RegistryAction (ι χ : Type) where
  | request (r : Request ι χ)
  /-- The publish of an outstanding assignment ends, in whatever order. -/
  | published (i : ℕ) (succeeds : Bool)
  /-- The API starts again; its publishes of these devices fail. -/
  | start (failed : List ι)
  /-- hardware-io announces what it can see. -/
  | announced (capabilities : List (CapabilitySource × χ))
  /-- A sensor announces itself. -/
  | registered (deviceId : ι)

/-- A hub with this table and an empty stream: a new one, or one restored from its archive. -/
def Registry.restored (devices : Devices ι χ) : Registry ι χ := ⟨devices, [], [], []⟩

variable [LinearOrder ι]

/-- `adopted_assignments`, as the startup publishes them. -/
def Devices.adoptedAssignments (db : Devices ι χ) : List (Assignment ι χ) :=
  ((db.rows.filter fun r => r.adopted && r.driverType.isSome && r.binding.isSome).insertionSort
    (·.deviceId ≤ ·.deviceId)).map DeviceRow.assignment

/-- `lifespan`: every adopted row is published again. -/
def Registry.start (s : Registry ι χ) (failed : List ι) : Registry ι χ :=
  { s with
    outbox := []
    retained := (s.devices.adoptedAssignments.filter (·.deviceId ∉ failed)).foldl
      (retain DeviceAssignment.deviceId) s.retained }

/-- The stream's adopted assignments are those of Postgres. -/
def Registry.Reconciled [DecidableEq χ] (s : Registry ι χ) : Prop :=
  adoptedEntries s.retained = adoptedEntries s.devices.adoptedAssignments

/-- Postgres holds the device as adopted. -/
def Devices.isAdopted (db : Devices ι χ) (deviceId : ι) : Bool :=
  db.rows.any fun r => r.adopted && decide (r.deviceId = deviceId)

variable [DecidableEq χ]

/-- One step; a request commits before it publishes. -/
def Registry.step (s : Registry ι χ) : RegistryAction ι χ → Option (Registry ι χ)
  | .request r =>
      (r.commit s.devices s.capabilities).map fun (db, as) =>
        { s with devices := db, outbox := s.outbox ++ as }
  | .published i succeeds =>
      s.outbox[i]?.map fun a =>
        { s with
          outbox := s.outbox.eraseIdx i
          retained := if succeeds then retain DeviceAssignment.deviceId s.retained a
            else s.retained }
  | .start failed => some (s.start failed)
  | .announced capabilities => some { s with capabilities := capabilities }
  | .registered deviceId => some { s with devices := s.devices.upsertSensor deviceId }

/-- The API, Postgres and the stream. -/
def registry (ι χ : Type) [LinearOrder ι] [DecidableEq χ] :
    Machine (Registry ι χ) (RegistryAction ι χ) where
  step := fun s a => s.step a

/-- The publishes that got through, oldest first. -/
def Registry.note (s : Registry ι χ) (a : RegistryAction ι χ) (_ : Registry ι χ)
    (heard : List (Assignment ι χ)) : List (Assignment ι χ) :=
  match a with
  | .published i true => heard ++ s.outbox[i]?.toList
  | .start failed => heard ++ s.devices.adoptedAssignments.filter (·.deviceId ∉ failed)
  | _ => heard

/-- The registry, and the publishes that got through. -/
abbrev registryHeard (ι χ : Type) [LinearOrder ι] [DecidableEq χ] :
    Machine (Registry ι χ × List (Assignment ι χ)) (RegistryAction ι χ) :=
  (registry ι χ).ghost Registry.note

/-! ### What got through -/

variable {s s' : Registry ι χ} {heard : List (Assignment ι χ)} {a : RegistryAction ι χ}
  {db : Devices ι χ} {d : ι}

/-- The stream retains, device by device, the last assignment that got through. -/
structure Retains (p : Registry ι χ × List (Assignment ι χ)) : Prop where
  distinct : (p.1.retained.map DeviceAssignment.deviceId).Nodup
  last : ∀ d, last DeviceAssignment.deviceId d p.1.retained =
    last DeviceAssignment.deviceId d p.2

omit [DecidableEq χ] in
/-- A start publishes every adopted device but those whose publish fails. -/
theorem retains_start (h : Retains (s, heard)) (failed : List ι) :
    Retains (s.start failed,
      heard ++ s.devices.adoptedAssignments.filter (·.deviceId ∉ failed)) where
  distinct := nodup_foldl_retain h.distinct
  last := fun d => by
    change last DeviceAssignment.deviceId d (List.foldl _ _ _) = _
    rw [last_foldl_retain, last_append, h.last d]

/-- **Every step keeps it**, whichever publishes fail and whatever their order. -/
theorem retains_step (h : Retains (s, heard)) (hs : (registry ι χ).step s a = some s') :
    Retains (s', Registry.note s a s' heard) := by
  change s.step a = some s' at hs
  cases a with
  | request r =>
      obtain ⟨⟨db, as⟩, -, rfl⟩ := Option.map_eq_some_iff.mp hs
      exact ⟨h.distinct, h.last⟩
  | published i succeeds =>
      obtain ⟨a, ha, rfl⟩ := Option.map_eq_some_iff.mp hs
      cases succeeds with
      | false => exact ⟨h.distinct, h.last⟩
      | true =>
          refine ⟨nodup_retain h.distinct, fun d => ?_⟩
          change last DeviceAssignment.deviceId d (retain DeviceAssignment.deviceId s.retained a) =
            last DeviceAssignment.deviceId d (heard ++ s.outbox[i]?.toList)
          rw [ha, Option.toList_some, last_retain, last_concat, h.last d]
  | start failed => cases hs; exact retains_start h failed
  | announced => cases hs; exact ⟨h.distinct, h.last⟩
  | registered => cases hs; exact ⟨h.distinct, h.last⟩

/-! ### What Postgres says -/

omit [DecidableEq χ] in
/-- What is published at a start is of adopted devices. -/
theorem mem_adoptedAssignments {a : Assignment ι χ} :
    a ∈ db.adoptedAssignments ↔ ∃ r ∈ db.rows, r.adopted = true ∧ r.assignment = a := by
  rw [Devices.adoptedAssignments, List.mem_map]
  constructor
  · rintro ⟨r, hr, rfl⟩
    obtain ⟨hmem, hr⟩ := List.mem_filter.mp ((List.mem_insertionSort _).mp hr)
    rw [Bool.and_assoc, Bool.and_eq_true_iff] at hr
    exact ⟨r, hmem, hr.1, rfl⟩
  · rintro ⟨r, hmem, had, rfl⟩
    obtain ⟨hd, hb⟩ := r.adopted_devices_are_bound had
    refine ⟨r, (List.mem_insertionSort _).mpr (List.mem_filter.mpr ⟨hmem, ?_⟩), rfl⟩
    rw [had, hd, hb]
    rfl

omit [DecidableEq χ] in
/-- One assignment for each. -/
theorem nodup_adoptedAssignments :
    (db.adoptedAssignments.map DeviceAssignment.deviceId).Nodup := by
  rw [Devices.adoptedAssignments, List.map_map]
  refine ((List.perm_insertionSort _ _).map _).nodup_iff.mpr ?_
  exact db.unique.sublist (List.filter_sublist.map _)

omit [DecidableEq χ] in
/-- A device has an assignment there when Postgres holds it as adopted. -/
theorem last_adoptedAssignments :
    last DeviceAssignment.deviceId d db.adoptedAssignments = none ↔ db.isAdopted d = false := by
  rw [last_eq_none_iff, Devices.isAdopted, List.any_eq_false]
  constructor
  · intro h r hr hd
    obtain ⟨had, hid⟩ := Bool.and_eq_true_iff.mp hd
    exact h r.assignment (mem_adoptedAssignments.mpr ⟨r, hr, had, rfl⟩) (of_decide_eq_true hid)
  · rintro h a ha rfl
    obtain ⟨r, hr, had, rfl⟩ := mem_adoptedAssignments.mp ha
    exact h r hr (Bool.and_eq_true_iff.mpr ⟨had, decide_eq_true rfl⟩)

omit [LinearOrder ι] [DecidableEq χ] in
/-- hardware-io is offered what is adopted. -/
theorem offer_eq_none_iff {a : Option (Assignment ι χ)} :
    offer a = none ↔ a.any DeviceAssignment.adopted = false := by
  cases a with
  | none => exact iff_of_true rfl rfl
  | some a => cases hd : a.adopted <;> simp [offer, Option.filter_some, hd]

/-- **When reconciliation is complete.**  After any history of requests and publishes, a startup
whose every publish succeeds makes the stream's adopted assignments those of Postgres if and only
if, for each device that Postgres does not hold as adopted, the last assignment that had got
through was not an adoption. -/
theorem reconciled_iff {devices : Devices ι χ} {as : List (RegistryAction ι χ)}
    (h : (registryHeard ι χ).Run (Registry.restored devices, []) as (s, heard)) :
    (s.start []).Reconciled ↔ ∀ d, s.devices.isAdopted d = false →
      (last DeviceAssignment.deviceId d heard).any DeviceAssignment.adopted = false := by
  have hI : Retains (s, heard) := h.invariant ⟨List.nodup_nil, fun _ => rfl⟩
    (Machine.ghost_preserves fun _ _ _ _ _ hI hs => retains_step hI hs)
  have hall : s.devices.adoptedAssignments.filter (·.deviceId ∉ ([] : List ι)) =
      s.devices.adoptedAssignments := by simp
  have hlast : ∀ d, last DeviceAssignment.deviceId d (s.start []).retained =
      (last DeviceAssignment.deviceId d s.devices.adoptedAssignments).or
        (last DeviceAssignment.deviceId d heard) := by
    intro d
    rw [Registry.start, hall, last_foldl_retain, hI.last d]
  refine (adoptedEntries_eq_iff (retains_start hI []).distinct nodup_adoptedAssignments).trans
    (forall_congr' fun d => ?_)
  change offer (last DeviceAssignment.deviceId d (s.start []).retained) =
    offer (last DeviceAssignment.deviceId d s.devices.adoptedAssignments) ↔ _
  rw [hlast d]
  cases hd : last DeviceAssignment.deviceId d s.devices.adoptedAssignments with
  | some a =>
      -- Postgres holds the device, and its row has just been published
      refine iff_of_true rfl fun hn => ?_
      rw [← last_adoptedAssignments, hd] at hn
      cases hn
  | none =>
      rw [Option.none_or]
      have hn := last_adoptedAssignments.mp hd
      exact offer_eq_none_iff.trans ⟨fun ha _ => ha, fun ha => ha hn⟩

/-- A light on channel `0`. -/
def bindLight : BindDeviceRequest ℕ ℕ :=
  ⟨0, .pca9685, 0, some .light, none, light_role, no_interval⟩

/-- An empty table. -/
def noDevices : Devices ℕ ℕ := ⟨[], List.nodup_nil⟩

/-- The light is bound and unbound, and its tombstone is published or not. -/
def boundAndUnbound (tombstone : Bool) : List (RegistryAction ℕ ℕ) :=
  [.announced [(.pca9685, 0)], .request (.bind bindLight), .published 0 true,
    .request (.unbind 0), .published 0 tombstone]

/-- A light is bound and unbound, and the API starts again. -/
theorem reconciled_iff_light :
    ∃ p, (registryHeard ℕ ℕ).Run (Registry.restored noDevices, []) (boundAndUnbound true) p ∧
      ((p.1.start []).Reconciled ↔ ∀ d, p.1.devices.isAdopted d = false →
        (last DeviceAssignment.deviceId d p.2).any DeviceAssignment.adopted = false) ∧
      p.1.devices.isAdopted 0 = false := by
  have hrun : ((registryHeard ℕ ℕ).exec (Registry.restored noDevices, [])
      (boundAndUnbound true)).map (fun p => p.1.devices.isAdopted 0) = some false := by
    decide +kernel
  obtain ⟨p, hp, hunbound⟩ := Option.map_eq_some_iff.mp hrun
  have hp := Machine.exec_eq_some.mp hp
  exact ⟨p, hp, reconciled_iff hp, hunbound⟩

/-- The tombstone's publish fails: the startup leaves the light adopted on the stream. -/
theorem not_reconciled :
    ¬ ∀ (devices : Devices ℕ ℕ) (as : List (RegistryAction ℕ ℕ)) (s : Registry ℕ ℕ),
      (registry ℕ ℕ).Run (Registry.restored devices) as s → (s.start []).Reconciled := by
  intro h
  have hrun : ((registry ℕ ℕ).exec (Registry.restored noDevices) (boundAndUnbound false)).map
      (fun s => decide (adoptedEntries (s.start []).retained =
        adoptedEntries (s.start []).devices.adoptedAssignments)) = some false := by
    decide +kernel
  obtain ⟨s, hs, hl⟩ := Option.map_eq_some_iff.mp hrun
  exact of_decide_eq_false hl (h _ _ s (Machine.exec_eq_some.mp hs))

end BellasReef.Api
