import BellasReef.Api.Reconcile
import Mathlib.Data.Fintype.Basic

/-!
# Api — Interleaving

The device requests statement by statement (`store.py`), under READ COMMITTED.

A statement reads what is committed when it begins.  A request writes one row, in its last
statement: the write waits for whoever has written the row before it, goes by the version that it
finds then, and is committed with the request.  So a write is one step here, and so is each read.
What a request publishes and audits after its commit is not modelled.

* `settle_eq`: alone, a request commits what its one transaction does.
* `one_per_channel`: where the binds of one channel onto different devices do not overlap, no two
  rows carry one channel.
-/

namespace BellasReef.Api
open BellasReef.Contracts BellasReef.Support

variable {κ ι χ : Type}

/-! ### The requests -/

/-- A request of the registry, or a registration that the API has received. -/
inductive DeviceRequest (ι χ : Type) where
  | bind (body : BindDeviceRequest ι χ)
  | unbind (deviceId : ι)
  | readopt (deviceId : ι)
  | forget (deviceId : ι)
  /-- `upsert_sensor`. -/
  | register (deviceId : ι)

/-- What a request is answered. -/
inductive Outcome (ι : Type) where
  | bound (deviceId : ι) (created : Bool)
  | refused (why : BindRefusal ι)
  | unbound
  | readopted
  | forgotten
  | registered
  | missing
  | adopted
  | referenced
  | held (holder : ι)
  /-- An exception that nothing handles. -/
  | raised
  deriving DecidableEq

/-- One of the answers that a request declares for having done nothing. -/
def Outcome.declared {ι : Type} : Outcome ι → Bool
  | .refused _ | .missing | .adopted | .referenced | .held _ => true
  | _ => false

/-- Where a request is. -/
inductive Doing (ι χ : Type) where
  | idle
  | arrived (r : DeviceRequest ι χ)
  /-- A bind that has passed the endpoint's checks. -/
  | checked (body : BindDeviceRequest ι χ)
  /-- A bind of a probe that found nothing on its channel, and looks for the announced row next. -/
  | uncarried (body : BindDeviceRequest ι χ)
  /-- A bind with the device that it will write, and whether it takes it for new. -/
  | matched (body : BindDeviceRequest ι χ) (target : ι) (created : Bool)
  /-- A readoption that has read its row, detached. -/
  | detached (r : DeviceRow ι χ)
  /-- A readoption whose channel nobody held. -/
  | reattaching (deviceId : ι)
  /-- A forget that has read its row, not adopted. -/
  | unclaimed (deviceId : ι)
  /-- A forget that has found no record of the device. -/
  | deleting (deviceId : ι)
  /-- Answered, and whether a row was written. -/
  | done (outcome : Outcome ι) (wrote : Bool)

/-- The table, the records that point at devices, and the requests. -/
structure Interleaving (κ ι χ : Type) where
  devices : Devices ι χ
  capabilities : List (CapabilitySource × χ)
  records : List ι
  doing : κ → Doing ι χ

/-- A request arrives, or goes on; or a record is made elsewhere. -/
inductive InterleavingAction (κ ι χ : Type) where
  | arrive (k : κ) (r : DeviceRequest ι χ)
  /-- The request's next statement. -/
  | go (k : κ)
  /-- A calibration or a dose is recorded. -/
  | record (deviceId : ι)

section Steps
variable [DecidableEq ι] [DecidableEq χ]

/-- Why the endpoint refuses a bind, with what `device_bound_to` has answered. -/
def bindRefusal (capabilities : List (CapabilitySource × χ)) (boundTo : Option ι)
    (body : BindDeviceRequest ι χ) : Option (BindRefusal ι) :=
  if (body.driverType.source, body.channel) ∉ capabilities then some .noCapability
  else
    match body.kind, boundTo.filter (· ≠ body.deviceId) with
    | .actuator, some holder => some (.channelBound holder)
    | kind, _ =>
        if kind = .sensor ∧ body.pollIntervalS = none then some .noPollInterval
        else if kind = .sensor ∧ body.role ≠ none then some .sensorWithRole
        else if kind = .actuator ∧ body.role = none then some .noRole
        else none

omit [DecidableEq ι] [DecidableEq χ] in
theorem BindDeviceRequest.bound (body : BindDeviceRequest ι χ) :
    true = true → (some body.driverType).isSome ∧ (some body.binding).isSome :=
  fun _ => ⟨rfl, rfl⟩

/-- The row that a bind inserts. -/
def BindDeviceRequest.row (body : BindDeviceRequest ι χ) : DeviceRow ι χ :=
  ⟨body.deviceId, body.kind, body.role, some body.driverType, some body.binding, true, body.bound⟩

/-- The row of a device, bound. -/
def BindDeviceRequest.onto (body : BindDeviceRequest ι χ) (r : DeviceRow ι χ) : DeviceRow ι χ :=
  r.bind body.driverType body.binding body.role

/-- The holder that stands in a readoption's way. -/
def Devices.holder (db : Devices ι χ) (r : DeviceRow ι χ) : Option (DeviceRow ι χ) :=
  db.rows.find? fun x => decide (x.driverType = r.driverType ∧
    x.binding.map Binding.key = r.binding.map Binding.key ∧ x.adopted = true ∧
      x.deviceId ≠ r.deviceId)

/-- The next statement of a request: the table, and where the request then is. -/
def next (db : Devices ι χ) (capabilities : List (CapabilitySource × χ)) (records : List ι) :
    Doing ι χ → Option (Devices ι χ × Doing ι χ)
  | .arrived (.bind body) =>
      match bindRefusal capabilities (db.deviceBoundTo body.driverType body.channel) body with
      | some why => some (db, .done (.refused why) false)
      | none => some (db, .checked body)
  | .checked body =>
      match db.carrier body.driverType body.channel, body.kind with
      | some r, _ => some (db, .matched body r.deviceId false)
      | none, .sensor => some (db, .uncarried body)
      | none, .actuator => some (db, .matched body body.deviceId true)
  | .uncarried body =>
      match db.announced body.deviceId with
      | some r => some (db, .matched body r.deviceId false)
      | none => some (db, .matched body body.deviceId true)
  | .matched body target true =>
      match db.insert body.row with
      | some db => some (db, .done (.bound target true) true)
      | none => some (db, .done (.refused .deviceIdConflict) false)
  | .matched body target false =>
      -- the row count of the `UPDATE` is not looked at
      match db.find target with
      | some r => some (db.update (body.onto r), .done (.bound target false) true)
      | none => some (db, .done (.bound target false) false)
  | .arrived (.unbind deviceId) =>
      match db.unadoptDevice deviceId with
      | some (db, _) => some (db, .done .unbound true)
      | none => some (db, .done .missing false)
  | .arrived (.readopt deviceId) =>
      match db.find deviceId with
      | some r =>
          if r.adopted = false ∧ r.driverType.isSome ∧ r.binding.isSome then some (db, .detached r)
          else some (db, .done .missing false)
      | none => some (db, .done .missing false)
  | .detached r =>
      match db.holder r with
      | some holder => some (db, .done (.held holder.deviceId) false)
      | none => some (db, .reattaching r.deviceId)
  | .reattaching deviceId =>
      match db.find deviceId with
      | some r =>
          if h : r.driverType.isSome ∧ r.binding.isSome then
            some (db.update (r.readopt h), .done .readopted true)
          else some (db, .done .raised false)  -- `adopted_devices_are_bound`
      | none => some (db, .done .raised false)  -- `.one()` finds no row
  | .arrived (.forget deviceId) =>
      match db.find deviceId with
      | some r =>
          if r.adopted then some (db, .done .adopted false) else some (db, .unclaimed deviceId)
      | none => some (db, .done .missing false)
  | .unclaimed deviceId =>
      if deviceId ∈ records then some (db, .done .referenced false)
      else some (db, .deleting deviceId)
  | .deleting deviceId =>
      match db.find deviceId with
      | some _ =>
          -- a record that has come since makes the `DELETE` fail, and is counted again
          if deviceId ∈ records then some (db, .done .referenced false)
          else some (db.delete deviceId, .done .forgotten true)
      | none => some (db, .done .forgotten false)
  | .arrived (.register deviceId) => some (db.upsertSensor deviceId, .done .registered true)
  | .idle | .done _ _ => none

variable [DecidableEq κ]

/-- One statement of one request. -/
def Interleaving.step (s : Interleaving κ ι χ) :
    InterleavingAction κ ι χ → Option (Interleaving κ ι χ)
  | .arrive k r =>
      match s.doing k with
      | .idle => some { s with doing := Function.update s.doing k (.arrived r) }
      | _ => none
  | .go k =>
      (next s.devices s.capabilities s.records (s.doing k)).map fun (db, doing) =>
        { s with devices := db, doing := Function.update s.doing k doing }
  | .record deviceId =>
      if s.devices.find deviceId = none then none
      else some { s with records := deviceId :: s.records }

/-- The table and the requests on it. -/
def interleaving (κ ι χ : Type) [DecidableEq κ] [DecidableEq ι] [DecidableEq χ] :
    Machine (Interleaving κ ι χ) (InterleavingAction κ ι χ) where
  step := fun s a => s.step a

end Steps

/-- No request has arrived. -/
def Interleaving.start (devices : Devices ι χ) (capabilities : List (CapabilitySource × χ)) :
    Interleaving κ ι χ := ⟨devices, capabilities, [], fun _ => .idle⟩

/-! ### What a statement can do -/

section Moves
variable [DecidableEq ι] [DecidableEq χ]

/-- Every statement, with what it changes. -/
inductive Moves (db : Devices ι χ) (records : List ι) :
    Doing ι χ → Devices ι χ → Doing ι χ → Prop where
  /-- An answer that the request declares. -/
  | declines {p : Doing ι χ} {o : Outcome ι} (ho : o.declared = true) :
      Moves db records p db (.done o false)
  | checks {body : BindDeviceRequest ι χ} :
      Moves db records (.arrived (.bind body)) db (.checked body)
  | finds {body : BindDeviceRequest ι χ} {r : DeviceRow ι χ} (hr : r ∈ db.rows)
      (h : Devices.onChannel body.driverType body.channel r = true) :
      Moves db records (.checked body) db (.matched body r.deviceId false)
  | findsNone {body : BindDeviceRequest ι χ}
      (h : ∀ x ∈ db.rows, Devices.onChannel body.driverType body.channel x = false) :
      Moves db records (.checked body) db (.matched body body.deviceId true)
  | looksOn {body : BindDeviceRequest ι χ}
      (h : ∀ x ∈ db.rows, Devices.onChannel body.driverType body.channel x = false) :
      Moves db records (.checked body) db (.uncarried body)
  | adopts {body : BindDeviceRequest ι χ} {r : DeviceRow ι χ} (hr : r ∈ db.rows)
      (hb : r.binding = none) (hid : r.deviceId = body.deviceId) :
      Moves db records (.uncarried body) db (.matched body r.deviceId false)
  | creates {body : BindDeviceRequest ι χ} :
      Moves db records (.uncarried body) db (.matched body body.deviceId true)
  | inserts {body : BindDeviceRequest ι χ} {target : ι} {db' : Devices ι χ}
      (h : db.insert body.row = some db') :
      Moves db records (.matched body target true) db' (.done (.bound target true) true)
  | updates {body : BindDeviceRequest ι χ} {r : DeviceRow ι χ} (hr : r ∈ db.rows) :
      Moves db records (.matched body r.deviceId false) (db.update (body.onto r))
        (.done (.bound r.deviceId false) true)
  /-- The row that was matched is gone. -/
  | misses {body : BindDeviceRequest ι χ} {target : ι} (h : db.find target = none) :
      Moves db records (.matched body target false) db (.done (.bound target false) false)
  | unbinds {r : DeviceRow ι χ} (hr : r ∈ db.rows) :
      Moves db records (.arrived (.unbind r.deviceId)) (db.update r.unadopt) (.done .unbound true)
  | detaches {r : DeviceRow ι χ} (hr : r ∈ db.rows) (hb : r.driverType.isSome ∧ r.binding.isSome) :
      Moves db records (.arrived (.readopt r.deviceId)) db (.detached r)
  | holds {r : DeviceRow ι χ} : Moves db records (.detached r) db (.reattaching r.deviceId)
  | readopts {r : DeviceRow ι χ} (hr : r ∈ db.rows)
      (hb : r.driverType.isSome ∧ r.binding.isSome) :
      Moves db records (.reattaching r.deviceId) (db.update (r.readopt hb)) (.done .readopted true)
  | raises {deviceId : ι}
      (h : ∀ r ∈ db.rows, r.deviceId = deviceId → ¬ (r.driverType.isSome ∧ r.binding.isSome)) :
      Moves db records (.reattaching deviceId) db (.done .raised false)
  | releases {r : DeviceRow ι χ} (hr : r ∈ db.rows) (had : r.adopted = false) :
      Moves db records (.arrived (.forget r.deviceId)) db (.unclaimed r.deviceId)
  | counts {deviceId : ι} : Moves db records (.unclaimed deviceId) db (.deleting deviceId)
  | deletes {r : DeviceRow ι χ} (hr : r ∈ db.rows) (hrec : r.deviceId ∉ records) :
      Moves db records (.deleting r.deviceId) (db.delete r.deviceId) (.done .forgotten true)
  /-- The row is gone already. -/
  | deletesNone {deviceId : ι} (h : db.find deviceId = none) :
      Moves db records (.deleting deviceId) db (.done .forgotten false)
  | registers {deviceId : ι} :
      Moves db records (.arrived (.register deviceId)) (db.upsertSensor deviceId)
        (.done .registered true)

omit [DecidableEq ι] [DecidableEq χ] in
/-- What a device is bound to is the channel that the request names. -/
@[simp] theorem key_binding {body : BindDeviceRequest ι χ} : body.binding.key = body.channel := by
  rw [BindDeviceRequest.binding]
  split <;> rfl

/-- What the first statement of a request does. -/
theorem arrived_moves {db db' : Devices ι χ} {capabilities : List (CapabilitySource × χ)}
    {records : List ι} {r : DeviceRequest ι χ} {p' : Doing ι χ}
    (h : next db capabilities records (.arrived r) = some (db', p')) :
    Moves db records (.arrived r) db' p' := by
  cases r with
  | bind body =>
      simp only [next] at h
      split at h
      · cases h; exact .declines rfl
      · cases h; exact .checks
  | unbind deviceId =>
      simp only [next, Devices.unadoptDevice] at h
      split at h
      · next hu =>
          split at hu
          · next r hr =>
              split at hu
              · obtain ⟨hmem, rfl⟩ := Devices.find_eq_some_iff.mp hr
                cases hu
                cases h
                exact .unbinds hmem
              · cases hu
          · cases hu
      · cases h; exact .declines rfl
  | readopt deviceId =>
      simp only [next] at h
      split at h
      · next r hr =>
          obtain ⟨hmem, rfl⟩ := Devices.find_eq_some_iff.mp hr
          split at h
          · next hb => cases h; exact .detaches hmem hb.2
          · cases h; exact .declines rfl
      · cases h; exact .declines rfl
  | forget deviceId =>
      simp only [next] at h
      split at h
      · next r hr =>
          obtain ⟨hmem, rfl⟩ := Devices.find_eq_some_iff.mp hr
          split at h
          · cases h; exact .declines rfl
          · next had => cases h; exact .releases hmem (Bool.eq_false_iff.mpr had)
      · cases h; exact .declines rfl
  | register deviceId => cases h; exact .registers

/-- **Inversion.**  A statement does one of `Moves`. -/
theorem next_moves {db db' : Devices ι χ} {capabilities : List (CapabilitySource × χ)}
    {records : List ι} {p p' : Doing ι χ} (h : next db capabilities records p = some (db', p')) :
    Moves db records p db' p' := by
  cases p with
  | idle => cases h
  | done => cases h
  | arrived r => exact arrived_moves h
  | checked body =>
      simp only [next] at h
      split at h
      · next r _ hr =>
          cases h
          obtain ⟨hr, hc⟩ := Devices.carrier_eq_some hr
          exact .finds hr hc
      · next hnone _ => cases h; exact .looksOn (Devices.carrier_eq_none hnone)
      · next hnone _ => cases h; exact .findsNone (Devices.carrier_eq_none hnone)
  | uncarried body =>
      simp only [next] at h
      split at h
      · next r hr =>
          cases h
          obtain ⟨hr, hb, hid⟩ := Devices.announced_eq_some hr
          exact .adopts hr hb hid
      · cases h; exact .creates
  | matched body target created =>
      cases created with
      | true =>
          simp only [next] at h
          split at h
          · next hi => cases h; exact .inserts hi
          · cases h; exact .declines rfl
      | false =>
          simp only [next] at h
          split at h
          · next r hr =>
              obtain ⟨hmem, rfl⟩ := Devices.find_eq_some_iff.mp hr
              cases h
              exact .updates hmem
          · next hnone => cases h; exact .misses hnone
  | detached r =>
      simp only [next] at h
      split at h
      · cases h; exact .declines rfl
      · cases h; exact .holds
  | reattaching deviceId =>
      simp only [next] at h
      split at h
      · next r hr =>
          obtain ⟨hmem, rfl⟩ := Devices.find_eq_some_iff.mp hr
          split at h
          · next hb => cases h; exact .readopts hmem hb
          · next hb =>
              cases h
              refine .raises fun x hx hid => ?_
              rw [Devices.eq_of_deviceId hx hmem hid]
              exact hb
      · next hnone =>
          cases h
          exact .raises fun x hx hid => absurd hid (Devices.find_eq_none_iff.mp hnone x hx)
  | unclaimed deviceId =>
      simp only [next] at h
      split at h
      · cases h; exact .declines rfl
      · cases h; exact .counts
  | deleting deviceId =>
      simp only [next] at h
      split at h
      · next r hr =>
          obtain ⟨hmem, rfl⟩ := Devices.find_eq_some_iff.mp hr
          split at h
          · cases h; exact .declines rfl
          · next hrec => cases h; exact .deletes hmem hrec
      · next hnone => cases h; exact .deletesNone hnone

end Moves

/-! ### A request alone -/

section Alone
variable [DecidableEq ι] [DecidableEq χ]

/-- What `n` statements of a request commit, with nothing between them. -/
def settle (capabilities : List (CapabilitySource × χ)) (records : List ι) :
    ℕ → Devices ι χ → Doing ι χ → Devices ι χ
  | 0, db, _ => db
  | n + 1, db, p =>
      match next db capabilities records p with
      | some (db', p') => settle capabilities records n db' p'
      | none => db

/-- The same request, as one transaction. -/
def DeviceRequest.atOnce (db : Devices ι χ) (capabilities : List (CapabilitySource × χ))
    (records : List ι) : DeviceRequest ι χ → Devices ι χ
  | .bind body => ((Request.bind body).commit db capabilities).elim db Prod.fst
  | .unbind d => ((Request.unbind d).commit db capabilities).elim db Prod.fst
  | .readopt d => ((Request.readopt d).commit db capabilities).elim db Prod.fst
  | .forget d => ((Request.forget d (decide (d ∈ records))).commit db capabilities).elim db Prod.fst
  | .register d => db.upsertSensor d

variable {db : Devices ι χ} {capabilities : List (CapabilitySource × χ)} {records : List ι}

/-- The endpoint's checks, and then the store. -/
theorem bindDevice_eq {body : BindDeviceRequest ι χ} :
    bindDevice db capabilities body =
      match bindRefusal capabilities (db.deviceBoundTo body.driverType body.channel) body with
      | some why => .error why
      | none =>
          match db.bindDevice body.deviceId body.kind body.driverType body.binding body.role with
          | some (db, deviceId, _) =>
              .ok (db, ⟨deviceId, true, body.role, some body.driverType, some body.binding,
                fun _ => ⟨rfl, rfl⟩⟩)
          | none => .error .deviceIdConflict := by
  unfold bindDevice bindRefusal
  by_cases hcap : (body.driverType.source, body.channel) ∉ capabilities
  · rw [if_pos hcap, if_pos hcap]
  · rw [if_neg hcap, if_neg hcap]
    generalize (db.deviceBoundTo body.driverType body.channel).filter (· ≠ body.deviceId) = holder
    generalize body.kind = kind
    -- the checks are the same, in the same order
    cases kind with
    | sensor =>
        dsimp only
        by_cases hpoll : body.pollIntervalS = none
        · simp [hpoll]
        · by_cases hrole : body.role = none
          · rcases db.bindDevice body.deviceId .sensor body.driverType body.binding body.role with
              _ | ⟨db, deviceId, created⟩
            · simp [hpoll, hrole]
            · simp [hpoll, hrole]
          · simp [hpoll, hrole]
    | actuator =>
        cases holder with
        | some holder => rfl
        | none =>
            dsimp only
            by_cases hrole : body.role = none
            · simp [hrole]
            · rcases db.bindDevice body.deviceId .actuator body.driverType body.binding body.role
                with _ | ⟨db, deviceId, created⟩
              · simp [hrole]
              · simp [hrole]

/-- **Alone**, a request commits what its one transaction does. -/
theorem settle_eq (r : DeviceRequest ι χ) :
    settle capabilities records 4 db (.arrived r) = r.atOnce db capabilities records := by
  cases r with
  | bind body =>
      simp only [DeviceRequest.atOnce, Request.commit, bindDevice_eq, settle, next]
      cases hr : bindRefusal capabilities (db.deviceBoundTo body.driverType body.channel) body with
      | some why => rfl
      | none =>
          simp only [Devices.bindDevice, Devices.matching, key_binding]
          -- an update of a row that was found, and an insert where none was
          have hfind {r : DeviceRow ι χ} (hr : r ∈ db.rows) : db.find r.deviceId = some r :=
            Devices.find_eq_some_iff.mpr ⟨hr, rfl⟩
          cases hc : db.carrier body.driverType body.channel with
          | some r => simp only [hfind (Devices.carrier_eq_some hc).1]; rfl
          | none =>
              cases hk : body.kind with
              | actuator =>
                  simp only
                  rw [← hk, ← BindDeviceRequest.row]
                  cases db.insert body.row <;> rfl
              | sensor =>
                  cases ha : db.announced body.deviceId with
                  | some r => simp only [ha, hfind (Devices.announced_eq_some ha).1]; rfl
                  | none =>
                      simp only [ha]
                      rw [← hk, ← BindDeviceRequest.row]
                      cases db.insert body.row <;> rfl
  | unbind d =>
      simp only [settle, next, DeviceRequest.atOnce, Request.commit]
      cases db.unadoptDevice d <;> rfl
  | readopt d =>
      simp only [settle, next, DeviceRequest.atOnce, Request.commit]
      cases hf : db.find d with
      | none =>
          rw [Devices.readoptDevice, hf]
          rfl
      | some r =>
          obtain ⟨-, rfl⟩ := Devices.find_eq_some_iff.mp hf
          by_cases h : r.adopted = false ∧ r.driverType.isSome ∧ r.binding.isSome
          · have hread : db.readoptDevice r.deviceId = match db.holder r with
                | some holder => .channelHeld holder.deviceId
                | none => .readopted (db.update (r.readopt h.2)) (r.readopt h.2) := by
              unfold Devices.readoptDevice Devices.holder
              rw [hf]
              exact dif_pos h
            rw [hread]
            simp only [if_pos h]
            cases db.holder r with
            | some holder => rfl
            | none => simp only [hf, dif_pos h.2, Option.elim]
          · rw [Devices.readoptDevice, hf]
            simp only [dif_neg h, if_neg h, Option.elim]
  | forget d =>
      simp only [settle, next, DeviceRequest.atOnce, Request.commit, Devices.forgetDevice]
      cases hf : db.find d with
      | none => rfl
      | some r =>
          cases had : r.adopted with
          | true => simp [had]
          | false =>
              by_cases hrec : d ∈ records
              · simp [had, hrec]
              · simp [had, hrec, hf]
  | register d => rfl

end Alone

/-! ### One device per channel -/

section Channels
variable [DecidableEq ι] [DecidableEq χ] {db db' : Devices ι χ} {p p' : Doing ι χ}
  {r x : DeviceRow ι χ} {t : DriverType} {c : χ}

/-- Two rows never carry one channel, and two adopted ones do not either. -/
structure OnePerChannel (db : Devices ι χ) : Prop where
  rows : ∀ t c, (db.rows.filter (Devices.onChannel t c)).length ≤ 1
  holders : ∀ t c, (db.rows.filter fun r => r.adopted && Devices.onChannel t c r).length ≤ 1

/-- The bind of a request that is about to write, and the device it is for. -/
def Doing.writing : Doing ι χ → Option (BindDeviceRequest ι χ × ι)
  | .matched body target _ => some (body, target)
  | _ => none

/-- The bind of a request that has looked at its channel, and the device it will be for. -/
def Doing.aiming : Doing ι χ → Option (BindDeviceRequest ι χ × ι)
  | .uncarried body => some (body, body.deviceId)
  | .matched body target _ => some (body, target)
  | _ => none

omit [DecidableEq ι] [DecidableEq χ] in
/-- A bind that is to write aims at the row that it is to write. -/
theorem aiming_of_writing {y : BindDeviceRequest ι χ × ι} (h : p.writing = some y) :
    p.aiming = some y := by
  cases p with
  | matched => exact h
  | _ => cases h

/-- A bind writes only while no other bind of its channel, past its first look, is for another
device. -/
def NotOvertaken (s : Interleaving κ ι χ) : InterleavingAction κ ι χ → Prop
  | .go k => ∀ x ∈ (s.doing k).writing, ∀ k', ∀ y ∈ (s.doing k').aiming,
      y.1.driverType = x.1.driverType → y.1.channel = x.1.channel → y.2 = x.2
  | _ => True

omit [DecidableEq ι] in
/-- A row is on a channel if its driver and its binding's key are the channel's. -/
theorem onChannel_iff : Devices.onChannel t c r = true ↔
    r.driverType = some t ∧ r.binding.map Binding.key = some c := decide_eq_true_iff

omit [DecidableEq ι] in
/-- A row that is bound is on its channel, and on no other. -/
theorem onChannel_bound {driverType : DriverType} {binding : Binding χ}
    (hd : r.driverType = some driverType) (hb : r.binding = some binding) :
    Devices.onChannel t c r = true ↔ driverType = t ∧ binding.key = c := by
  rw [onChannel_iff, hd, hb, Option.map_some, Option.some_inj, Option.some_inj]

omit [DecidableEq ι] [DecidableEq χ] in
theorem driverType_onto {body : BindDeviceRequest ι χ} :
    (body.onto r).driverType = some body.driverType := rfl

omit [DecidableEq ι] [DecidableEq χ] in
theorem binding_onto {body : BindDeviceRequest ι χ} :
    (body.onto r).binding = some body.binding := rfl

/-- **What a statement does to the channels**: a row that is on one was on it, or has been bound. -/
theorem Moves.onChannel {records : List ι} (h : Moves db records p db' p')
    (htarget : ∀ body target, p = .matched body target true → target = body.deviceId)
    (hx : x ∈ db'.rows) (hc : Devices.onChannel t c x = true) :
    (∃ y ∈ db.rows, y.deviceId = x.deviceId ∧ Devices.onChannel t c y = true) ∨
      ∃ body, p.writing = some (body, x.deviceId) ∧ body.driverType = t ∧ body.channel = c := by
  -- a row that is written in place of one on the same channel
  have hsame : ∀ {r z : DeviceRow ι χ}, r ∈ db.rows → z.deviceId = r.deviceId →
      z.driverType = r.driverType → z.binding = r.binding → x ∈ (db.update z).rows →
      ∃ y ∈ db.rows, y.deviceId = x.deviceId ∧ Devices.onChannel t c y = true := by
    intro r z hr hid hd hb hx
    rcases (Devices.mem_update hr hid).mp hx with rfl | ⟨hx, -⟩
    · rw [onChannel_iff, hd, hb, ← onChannel_iff] at hc
      exact ⟨r, hr, hid.symm, hc⟩
    · exact ⟨x, hx, rfl, hc⟩
  cases h with
  | inserts hi =>
      rcases (Devices.mem_insert hi).mp hx with rfl | hx
      · obtain ⟨hd, hk⟩ := (onChannel_bound rfl rfl).mp hc
        rw [key_binding] at hk
        refine .inr ⟨_, ?_, hd, hk⟩
        rw [Doing.writing, htarget _ _ rfl]
        rfl
      · exact .inl ⟨x, hx, rfl, hc⟩
  | @updates body r hr =>
      rcases (Devices.mem_update (y := body.onto r) hr rfl).mp hx with rfl | ⟨hx, -⟩
      · obtain ⟨hd, hk⟩ := (onChannel_bound driverType_onto binding_onto).mp hc
        rw [key_binding] at hk
        exact .inr ⟨body, rfl, hd, hk⟩
      · exact .inl ⟨x, hx, rfl, hc⟩
  | @unbinds r hr => exact .inl (hsame (z := r.unadopt) hr rfl rfl rfl hx)
  | @readopts r hr hb => exact .inl (hsame (z := r.readopt hb) hr rfl rfl rfl hx)
  | deletes hr hrec => exact .inl ⟨x, (Devices.mem_delete.mp hx).1, rfl, hc⟩
  | registers =>
      rcases Devices.mem_upsertSensor.mp hx with hx | ⟨-, rfl⟩
      · exact .inl ⟨x, hx, rfl, hc⟩
      · cases (onChannel_iff.mp hc).1
  | _ => exact .inl ⟨x, hx, rfl, hc⟩

/-- A bind that is about to insert writes the device it names. -/
theorem Moves.target {records : List ι} {body : BindDeviceRequest ι χ} {target : ι}
    (h : Moves db records p db' p') (hp : p' = .matched body target true) :
    target = body.deviceId := by
  cases h with
  | findsNone | creates => cases hp; rfl
  | _ => cases hp

/-- What the statements of binds that are not overtaken keep. -/
structure Distinct (db : Devices ι χ) (doing : κ → Doing ι χ) : Prop where
  rows : ∀ t c, ∀ r ∈ db.rows, ∀ r' ∈ db.rows, Devices.onChannel t c r = true →
    Devices.onChannel t c r' = true → r.deviceId = r'.deviceId
  target : ∀ k body target, doing k = .matched body target true → target = body.deviceId
  /-- What a bind will write is the only device on its channel, if any is. -/
  sole : ∀ k body target, (doing k).aiming = some (body, target) →
    ∀ r ∈ db.rows, Devices.onChannel body.driverType body.channel r = true → r.deviceId = target

variable [DecidableEq κ] {s s' : Interleaving κ ι χ} {a : InterleavingAction κ ι χ}

omit [DecidableEq ι] [DecidableEq χ] in
/-- Every bind that is about to insert writes the device it names, when one request goes on. -/
theorem target_update {k : κ} {doing : κ → Doing ι χ}
    (h : ∀ k body target, doing k = .matched body target true → target = body.deviceId)
    (hp : ∀ body target, p = .matched body target true → target = body.deviceId) :
    ∀ k' body target, Function.update doing k p k' = .matched body target true →
      target = body.deviceId :=
  (Function.forall_update_iff doing fun _ p => ∀ body target,
    p = .matched body target true → target = body.deviceId).mpr ⟨hp, fun k' _ => h k'⟩

/-- A request goes on. -/
theorem Distinct.go {k : κ} {records : List ι} {doing : κ → Doing ι χ} (hi : Distinct db doing)
    (hC : ∀ x ∈ (doing k).writing, ∀ k', ∀ y ∈ (doing k').aiming,
      y.1.driverType = x.1.driverType → y.1.channel = x.1.channel → y.2 = x.2)
    (hm : Moves db records (doing k) db' p') : Distinct db' (Function.update doing k p') := by
  have hchannel : ∀ {t c x}, x ∈ db'.rows → Devices.onChannel t c x = true →
      (∃ y ∈ db.rows, y.deviceId = x.deviceId ∧ Devices.onChannel t c y = true) ∨
        ∃ body, (doing k).writing = some (body, x.deviceId) ∧ body.driverType = t ∧
          body.channel = c := fun hx hc => hm.onChannel (hi.target k) hx hc
  have hown : ∀ body target, (doing k).writing = some (body, target) → ∀ {x}, x ∈ db'.rows →
      Devices.onChannel body.driverType body.channel x = true → x.deviceId = target := by
    intro body target hw x hx hc
    rcases hchannel hx hc with ⟨y, hy, hid, hc⟩ | ⟨body', hw', -, -⟩
    · rw [← hid]
      exact hi.sole k body target (aiming_of_writing hw) y hy hc
    · rw [hw] at hw'
      cases hw'
      rfl
  refine ⟨?_, target_update hi.target fun _ _ => hm.target, ?_⟩
  · intro t c r hr r' hr' hc hc'
    rcases hchannel hr hc with ⟨y, hy, hid, hcy⟩ | ⟨body, hw, rfl, rfl⟩
    · rcases hchannel hr' hc' with ⟨y', hy', hid', hcy'⟩ | ⟨body, hw, rfl, rfl⟩
      · rw [← hid, ← hid']
        exact hi.rows _ _ y hy y' hy' hcy hcy'
      · exact hown _ _ hw hr hc
    · exact (hown _ _ hw hr' hc').symm
  · intro k' body target h x hx hc
    by_cases he : k' = k
    · rw [he, Function.update_self] at h
      have hself := hi.sole k
      generalize doing k = p at hm hself
      cases hm with
      | finds hr hfound =>
          cases h
          exact hi.rows _ _ x hx _ hr hc hfound
      | findsNone hnone | looksOn hnone =>
          cases h
          rw [hnone x hx] at hc
          cases hc
      | @adopts body r hr hb hid =>
          cases h
          exact (hself _ _ rfl x hx hc).trans hid.symm
      | creates =>
          cases h
          exact hself _ _ rfl x hx hc
      | _ => cases h
    · rw [Function.update_of_ne he] at h
      rcases hchannel hx hc with ⟨y, hy, hid, hcy⟩ | ⟨body', hw, hd, hch⟩
      · rw [← hid]
        exact hi.sole k' body target h y hy hcy
      · exact (hC _ hw k' _ h hd.symm hch.symm).symm

/-- **Step.** -/
theorem distinct_step (hi : Distinct s.devices s.doing) (hC : NotOvertaken s a)
    (h : (interleaving κ ι χ).step s a = some s') : Distinct s'.devices s'.doing := by
  change s.step a = some s' at h
  cases a with
  | arrive k r =>
      simp only [Interleaving.step] at h
      split at h
      · cases h
        refine ⟨hi.rows, target_update hi.target nofun, fun k' body target h => ?_⟩
        by_cases he : k' = k
        · simp [he, Doing.aiming] at h
        · simp only [Function.update_of_ne he] at h
          exact hi.sole k' body target h
      · cases h
  | go k =>
      obtain ⟨⟨db, p'⟩, hn, he⟩ := Option.map_eq_some_iff.mp h
      cases he
      exact hi.go hC (next_moves hn)
  | record deviceId =>
      simp only [Interleaving.step] at h
      split at h
      · cases h
      · cases h; exact hi

omit [DecidableEq κ] [DecidableEq ι] in
/-- Rows that differ in channel leave one to each. -/
theorem Distinct.onePerChannel {doing : κ → Doing ι χ} (hi : Distinct db doing) :
    OnePerChannel db := by
  have hrows : ∀ t c, (db.rows.filter (Devices.onChannel t c)).length ≤ 1 := by
    intro t c
    match h : db.rows.filter (Devices.onChannel t c) with
    | [] => exact Nat.zero_le _
    | [_] => exact le_refl _
    | r :: r' :: rest =>
        obtain ⟨hr, hc⟩ := List.mem_filter.mp (h ▸ List.mem_cons_self :
          r ∈ db.rows.filter (Devices.onChannel t c))
        obtain ⟨hr', hc'⟩ := List.mem_filter.mp (h ▸ List.mem_cons_of_mem _ List.mem_cons_self :
          r' ∈ db.rows.filter (Devices.onChannel t c))
        have hnodup : ((db.rows.filter (Devices.onChannel t c)).map DeviceRow.deviceId).Nodup :=
          db.unique.sublist (List.filter_sublist.map _)
        rw [h] at hnodup
        exact absurd (List.mem_cons.mpr (.inl (hi.rows t c r hr r' hr' hc hc')))
          (List.nodup_cons.mp hnodup).1
  refine ⟨hrows, fun t c => le_trans ?_ (hrows t c)⟩
  exact (List.monotone_filter_right _ fun r hr => (Bool.and_eq_true_iff.mp hr).2).length_le

/-- **One device per channel**, where no bind is overtaken by another of its channel. -/
theorem one_per_channel {devices : Devices ι χ} {capabilities : List (CapabilitySource × χ)}
    {as : List (InterleavingAction κ ι χ)} (h₀ : OnePerChannel devices)
    (h : (interleaving κ ι χ).RunIf NotOvertaken (Interleaving.start devices capabilities) as s) :
    OnePerChannel s.devices := by
  have hstart : Distinct devices (fun _ : κ => (Doing.idle : Doing ι χ)) := by
    refine ⟨?_, nofun, nofun⟩
    intro t c r hr r' hr' hc hc'
    obtain ⟨a, ha⟩ | hnil := Nat.le_one_iff_eq_zero_or_eq_one.mp (h₀.rows t c) |>.symm.imp
      List.length_eq_one_iff.mp id
    · have hr := List.mem_filter.mpr ⟨hr, hc⟩
      have hr' := List.mem_filter.mpr ⟨hr', hc'⟩
      rw [ha] at hr hr'
      rw [List.mem_singleton.mp hr, List.mem_singleton.mp hr']
    · have hr := List.mem_filter.mpr ⟨hr, hc⟩
      rw [List.length_eq_zero_iff.mp hnil] at hr
      cases hr
  have hI : Distinct s.devices s.doing := h.invariant
    (I := fun s => Distinct s.devices s.doing) hstart fun _ _ _ hC hi hs => distinct_step hi hC hs
  exact hI.onePerChannel

instance [Fintype κ] (s : Interleaving κ ι χ) (a : InterleavingAction κ ι χ) :
    Decidable (NotOvertaken s a) := by
  unfold NotOvertaken
  split <;> infer_instance

end Channels

/-- A light on channel `0`, under this id. -/
def bindAs (deviceId : ℕ) : BindDeviceRequest ℕ ℕ :=
  ⟨deviceId, .pca9685, 0, some .light, none, light_role, no_interval⟩

theorem onePerChannel_noDevices : OnePerChannel noDevices :=
  ⟨fun _ _ => Nat.zero_le _, fun _ _ => Nat.zero_le _⟩

/-- The light is bound, unbound, and bound under another id. -/
def boundAgain : List (InterleavingAction (Fin 3) ℕ ℕ) :=
  [.arrive 0 (.bind (bindAs 0)), .go 0, .go 0, .go 0, .arrive 1 (.unbind 0), .go 1,
    .arrive 2 (.bind (bindAs 1)), .go 2, .go 2, .go 2]

/-- A channel is bound, freed and bound again. -/
theorem one_per_channel_boundAgain : ∃ s,
    (interleaving (Fin 3) ℕ ℕ).RunIf NotOvertaken
      (Interleaving.start noDevices [(.pca9685, 0)]) boundAgain s ∧
      s.devices.rows.map (fun r => (r.deviceId, r.adopted)) = [(0, true)] ∧
      OnePerChannel s.devices := by
  have hrun : ((interleaving (Fin 3) ℕ ℕ).execIf NotOvertaken
      (Interleaving.start noDevices [(.pca9685, 0)]) boundAgain).map
      (fun s => s.devices.rows.map fun r => (r.deviceId, r.adopted)) = some [(0, true)] := by
    decide +kernel
  obtain ⟨s, hs, hl⟩ := Option.map_eq_some_iff.mp hrun
  have h := Machine.execIf_eq_some.mp hs
  exact ⟨s, h, hl, one_per_channel onePerChannel_noDevices h⟩

/-- Two clients bind the free channel at once, under two ids. -/
def boundTwice : List (InterleavingAction (Fin 2) ℕ ℕ) :=
  [.arrive 0 (.bind (bindAs 0)), .arrive 1 (.bind (bindAs 1)), .go 0, .go 1, .go 0, .go 1, .go 0,
    .go 1]

/-- One channel gets two devices, both adopted. -/
theorem not_one_per_channel :
    ¬ ∀ (devices : Devices ℕ ℕ) (capabilities : List (CapabilitySource × ℕ))
      (as : List (InterleavingAction (Fin 2) ℕ ℕ)) (s : Interleaving (Fin 2) ℕ ℕ),
      OnePerChannel devices →
        (interleaving (Fin 2) ℕ ℕ).Run (Interleaving.start devices capabilities) as s →
          OnePerChannel s.devices := by
  intro h
  have hrun : ((interleaving (Fin 2) ℕ ℕ).exec
      (Interleaving.start noDevices [(.pca9685, 0)]) boundTwice).map
      (fun s => (s.devices.rows.filter (Devices.onChannel .pca9685 0)).length) = some 2 := by
    decide +kernel
  obtain ⟨s, hs, hl⟩ := Option.map_eq_some_iff.mp hrun
  have hone := (h _ _ _ s onePerChannel_noDevices (Machine.exec_eq_some.mp hs)).rows .pca9685 0
  have hl : (s.devices.rows.filter (Devices.onChannel .pca9685 0)).length = 2 := hl
  omega

end BellasReef.Api
