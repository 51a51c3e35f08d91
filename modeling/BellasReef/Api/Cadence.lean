import BellasReef.Api.Reconcile
import BellasReef.HardwareIO.Startup
import Mathlib.Tactic.NormNum

/-!
# Api — Cadence

The way of a probe's `poll_interval_s`: declared in a bind, stored in the row, and announced by the
driver that hardware-io builds from the assignment.

The assignment does not carry it.  `build_from_assignments` leaves a `DS18B20` its default, which
the driver announces and `upsert_sensor` writes over the row; and a bind that matches a row leaves
its cadence alone.  So where a probe has settled, both values are the default: `cadence_counts_iff`.
-/

namespace BellasReef.Api
open BellasReef.Contracts BellasReef.HardwareIO BellasReef.Support

variable {ι χ : Type}

/-! ### The driver -/

/-- `DS18B20.__init__`'s default. -/
def defaultPollIntervalS : ℚ := 5

/-- `DS18B20`. -/
@[ext] structure DS18B20 (ι χ : Type) where
  rom : χ
  driverId : ι
  pollIntervalS : ℚ
  pollIntervalS_pos : 0 < pollIntervalS

instance {ι χ : Type} [DecidableEq ι] [DecidableEq χ] : DecidableEq (DS18B20 ι χ) := fun a b =>
  decidable_of_iff
    (a.rom = b.rom ∧ a.driverId = b.driverId ∧ a.pollIntervalS = b.pollIntervalS)
    DS18B20.ext_iff.symm

/-- `SensorRegistration`. -/
structure SensorRegistration (ι : Type) where
  sensorId : ι
  pollIntervalS : ℚ
  deriving DecidableEq

/-- What the driver announces: its interval is the one it was built with. -/
def DS18B20.registration (k : DS18B20 ι χ) : SensorRegistration ι := ⟨k.driverId, k.pollIntervalS⟩

/-- `build_from_assignments`, for a probe; one with no ROM is skipped. -/
def build (a : Assignment ι χ) : Option (DS18B20 ι χ) :=
  match a.adopted, a.driverType, a.binding with
  | true, some .ds18b20, some (.rom r) =>
      some ⟨r, a.deviceId, defaultPollIntervalS, by norm_num [defaultPollIntervalS]⟩
  | _, _, _ => none

/-! ### The machine -/

/-- The API with Postgres and its registry consumer, hardware-io, and the streams between them. -/
structure Cadence (ι χ : Type) where
  registry : Registry ι χ
  /-- `devices.poll_interval_s`. -/
  pollIntervalS : ι → Option ℚ
  /-- The drivers that hardware-io polls. -/
  sensors : List (DS18B20 ι χ)
  /-- What it has still to announce. -/
  announcing : List (SensorRegistration ι)
  /-- `BR_REGISTRY`. -/
  registrations : List (SensorRegistration ι)
  consumer : Drain (SensorRegistration ι)

/-- What the API, the broker and hardware-io do. -/
inductive CadenceAction (ι χ : Type) where
  | request (r : Request ι χ)
  /-- The publish of an outstanding assignment ends. -/
  | published (i : ℕ) (succeeds : Bool)
  | capabilities (capabilities : List (CapabilitySource × χ))
  /-- The API starts again, and its consumer with it. -/
  | startApi (failed : List ι)
  /-- hardware-io starts again: it reads the assignments and builds what they say. -/
  | rebuild
  /-- It announces the next of its drivers. -/
  | announce
  /-- The broker sends the consumer `n` messages. -/
  | deliver (n : ℕ)
  | onMessage

variable [LinearOrder ι] [DecidableEq χ]

/-- What a bind writes of the cadence: a row that it creates has the one declared. -/
def BindDeviceRequest.pollInterval (body : BindDeviceRequest ι χ) (db : Devices ι χ)
    (column : ι → Option ℚ) : ι → Option ℚ :=
  match db.matching body.deviceId body.kind body.driverType body.binding.key with
  | some _ => column
  | none => Function.update column body.deviceId
      (if body.kind = .sensor then body.pollIntervalS else none)

/-- What a committed request writes of it. -/
def Request.pollInterval (db : Devices ι χ) (column : ι → Option ℚ) :
    Request ι χ → ι → Option ℚ
  | .bind body => body.pollInterval db column
  | _ => column

/-- One step of the three. -/
def Cadence.step (s : Cadence ι χ) : CadenceAction ι χ → Option (Cadence ι χ)
  | .request (.forget _ _) => none  -- no forget in these runs
  | .request r => (s.registry.step (.request r)).map fun registry =>
      { s with
        registry := registry
        pollIntervalS := r.pollInterval s.registry.devices s.pollIntervalS }
  | .published i succeeds => (s.registry.step (.published i succeeds)).map fun registry =>
      { s with registry := registry }
  | .capabilities cs => (s.registry.step (.announced cs)).map fun registry =>
      { s with registry := registry }
  | .startApi failed =>
      some { s with registry := s.registry.start failed, consumer := Drain.start s.registrations }
  | .rebuild =>
      let sensors := (lastPerDevice s.registry.retained).filterMap build
      some { s with sensors := sensors, announcing := sensors.map DS18B20.registration }
  | .announce =>
      match s.announcing with
      | m :: rest =>
          some { s with
            announcing := rest
            registrations := retain SensorRegistration.sensorId s.registrations m
            consumer := s.consumer.publish SensorRegistration.sensorId m }
      | [] => none
  | .deliver n => some { s with consumer := s.consumer.fetch n }
  | .onMessage =>
      match s.consumer with
      | ⟨m :: batch, backlog⟩ =>
          some { s with
            registry := { s.registry with devices := s.registry.devices.upsertSensor m.sensorId }
            pollIntervalS := Function.update s.pollIntervalS m.sensorId (some m.pollIntervalS)
            consumer := ⟨batch, backlog⟩ }
      | _ => none

/-- What the last bind of each device declared. -/
def Cadence.note (s : Cadence ι χ) (a : CadenceAction ι χ) (declared : ι → Option ℚ) :
    ι → Option ℚ :=
  match a with
  | .request (.bind body) =>
      match bindDevice s.registry.devices s.registry.capabilities body with
      | .ok (_, a) => Function.update declared a.deviceId body.pollIntervalS
      | .error _ => declared
  | _ => declared

/-- The machine, and what was declared. -/
abbrev cadence (ι χ : Type) [LinearOrder ι] [DecidableEq χ] :
    Machine (Cadence ι χ × (ι → Option ℚ)) (CadenceAction ι χ) :=
  Machine.ghost ⟨fun s a => s.step a⟩ fun s a _ declared => s.note a declared

omit [LinearOrder ι] [DecidableEq χ] in
/-- A hub before hardware-io has built its first driver. -/
def Cadence.start (registry : Registry ι χ) (pollIntervalS : ι → Option ℚ)
    (registrations : List (SensorRegistration ι)) : Cadence ι χ :=
  ⟨registry, pollIntervalS, [], [], registrations, .start registrations⟩

omit [LinearOrder ι] [DecidableEq χ] in
/-- The probe is adopted, hardware-io has built and announced it, and no message is in flight. -/
structure Settled (s : Cadence ι χ) (d : ι) : Prop where
  adopted : ∃ r ∈ s.registry.devices.rows, r.deviceId = d ∧ r.adopted = true
  built : ∃ k ∈ s.sensors, k.driverId = d
  quiet : s.registry.outbox = [] ∧ s.announcing = [] ∧ s.consumer.pending = []

instance (s : Cadence ι χ) (d : ι) : Decidable (Settled s d) :=
  decidable_of_iff ((∃ r ∈ s.registry.devices.rows, r.deviceId = d ∧ r.adopted = true) ∧
    (∃ k ∈ s.sensors, k.driverId = d) ∧
    s.registry.outbox = [] ∧ s.announcing = [] ∧ s.consumer.pending = [])
    ⟨fun ⟨ha, hb, hq⟩ => ⟨ha, hb, hq⟩, fun h => ⟨h.adopted, h.built, h.quiet⟩⟩

omit [LinearOrder ι] [DecidableEq χ] in
/-- **The cadence counts**: it is the one that the silence watch reads, and that hardware-io polls
at. -/
def Counts (s : Cadence ι χ) (d : ι) (x : ℚ) : Prop :=
  s.pollIntervalS d = some x ∧ ∀ k ∈ s.sensors, k.driverId = d → k.pollIntervalS = x

/-! ### Rows stay -/

section Rows
variable {db db' : Devices ι χ} {capabilities : List (CapabilitySource × χ)} {d : ι}

omit [DecidableEq χ] in
/-- An update removes no device. -/
theorem find_update {r : DeviceRow ι χ} (h : db.find d ≠ none) : (db.update r).find d ≠ none := by
  rw [ne_eq, Devices.find_eq_none_iff] at h ⊢
  intro hall
  refine h fun x hx hd => ?_
  refine hall _ (List.mem_map_of_mem hx) ?_
  split
  · next he => exact he.symm.trans hd
  · exact hd

omit [DecidableEq χ] in
/-- Nor does an insert. -/
theorem find_insert {r : DeviceRow ι χ} (hi : db.insert r = some db') (h : db.find d ≠ none) :
    db'.find d ≠ none := by
  rw [ne_eq, Devices.find_eq_none_iff] at h ⊢
  exact fun hall => h fun x hx => hall x ((Devices.mem_insert hi).mpr (.inr hx))

/-- A bind takes a row, or makes the one it was to make. -/
theorem bindDevice_matching {body : BindDeviceRequest ι χ} {a : Assignment ι χ}
    (h : bindDevice db capabilities body = .ok (db', a)) :
    (db.find d ≠ none → db'.find d ≠ none) ∧
      (db.matching body.deviceId body.kind body.driverType body.binding.key = none →
        db.find body.deviceId = none) := by
  rw [bindDevice] at h
  repeat' split at h
  all_goals cases h
  all_goals
    next hb =>
      rw [Devices.bindDevice] at hb
      split at hb
      · next hm =>
          cases hb
          exact ⟨find_update, fun hn => absurd (hn.symm.trans hm) nofun⟩
      · obtain ⟨db₁, hi, he⟩ := Option.map_eq_some_iff.mp hb
        cases he
        refine ⟨find_insert hi, fun _ => ?_⟩
        by_contra hne
        rw [Devices.insert_eq_none_iff.mpr hne] at hi
        cases hi

/-- A request that forgets no device leaves each its row. -/
theorem find_commit {r : Request ι χ} {as : List (Assignment ι χ)}
    (hr : ∀ d b, r ≠ .forget d b) (h : r.commit db capabilities = some (db', as))
    (hd : db.find d ≠ none) : db'.find d ≠ none := by
  cases r with
  | bind body =>
      rw [Request.commit] at h
      cases hb : bindDevice db capabilities body with
      | error e => rw [hb] at h; cases h
      | ok p =>
          rw [hb] at h
          cases h
          exact (bindDevice_matching hb).1 hd
  | unbind d' =>
      obtain ⟨⟨db₁, row⟩, hu, he⟩ := Option.map_eq_some_iff.mp h
      cases he
      rw [Devices.unadoptDevice] at hu
      repeat' split at hu
      all_goals cases hu
      exact find_update hd
  | readopt d' =>
      rw [Request.commit, Devices.readoptDevice] at h
      repeat' split at h
      all_goals cases h
      next he =>
        repeat' split at he
        all_goals cases he
        exact find_update hd
  | forget d' b => exact absurd rfl (hr d' b)

omit [DecidableEq χ] in
/-- Nor does a registration. -/
theorem find_upsertSensor {d' : ι} (h : db.find d ≠ none) : (db.upsertSensor d').find d ≠ none := by
  rw [Devices.upsertSensor]
  cases hi : db.insert ⟨d', .sensor, none, none, none, false, by rintro ⟨⟩⟩ with
  | none => exact h
  | some db' => exact find_insert hi h

omit [DecidableEq χ] in
/-- A sensor that announces itself has a row. -/
theorem find_upsertSensor_self : (db.upsertSensor d).find d ≠ none := by
  rw [Devices.upsertSensor]
  cases hi : db.insert ⟨d, .sensor, none, none, none, false, by rintro ⟨⟩⟩ with
  | none => exact Devices.insert_eq_none_iff.mp hi
  | some db' =>
      rw [Option.getD_some, ne_eq, Devices.find_eq_none_iff]
      exact fun hall => hall _ ((Devices.mem_insert hi).mpr (.inl rfl)) rfl

end Rows

/-! ### What is announced -/

section
variable {s s' : Cadence ι χ} {declared : ι → Option ℚ} {a : CadenceAction ι χ} {d : ι}

/-- The default of `d` is retained, and the API is to read it, or has it in the row. -/
def Told (s : Cadence ι χ) (d : ι) : Prop :=
  last SensorRegistration.sensorId d s.registrations = some ⟨d, defaultPollIntervalS⟩ ∧
    (last SensorRegistration.sensorId d s.consumer.pending = some ⟨d, defaultPollIntervalS⟩ ∨
      last SensorRegistration.sensorId d s.consumer.pending = none ∧
        s.pollIntervalS d = some defaultPollIntervalS ∧ s.registry.devices.find d ≠ none)

/-- Every driver has the default, and has told the API so, or is to. -/
structure Announced (s : Cadence ι χ) : Prop where
  drivers : ∀ k ∈ s.sensors, k.pollIntervalS = defaultPollIntervalS
  announcing : ∀ m ∈ s.announcing, m.pollIntervalS = defaultPollIntervalS
  told : ∀ k ∈ s.sensors, k.registration ∈ s.announcing ∨ Told s k.driverId

omit [LinearOrder ι] [DecidableEq χ] in
/-- The factory builds every probe with the driver's default interval. -/
theorem build_eq_some {a : Assignment ι χ} {k : DS18B20 ι χ} (h : build a = some k) :
    k.pollIntervalS = defaultPollIntervalS ∧ k.driverId = a.deviceId := by
  rw [build] at h
  split at h
  · cases h; exact ⟨rfl, rfl⟩
  · cases h

omit [DecidableEq χ] in
/-- To write elsewhere leaves what the API was told. -/
theorem Told.frame (h : Told s d) (hr : s'.registrations = s.registrations)
    (hc : s'.consumer.pending = s.consumer.pending)
    (hp : s.registry.devices.find d ≠ none →
      s'.pollIntervalS d = s.pollIntervalS d ∧ s'.registry.devices.find d ≠ none) : Told s' d := by
  rw [Told, hr, hc]
  refine ⟨h.1, h.2.imp_right fun ⟨hn, hcol, hrow⟩ => ⟨hn, ?_, (hp hrow).2⟩⟩
  rw [(hp hrow).1, hcol]

omit [DecidableEq χ] in
/-- A registration handled. -/
theorem Told.onMessage {m : SensorRegistration ι} {batch backlog : List (SensorRegistration ι)}
    (h : Told s d) (hc : s.consumer = ⟨m :: batch, backlog⟩) :
    Told { s with
      registry := { s.registry with devices := s.registry.devices.upsertSensor m.sensorId }
      pollIntervalS := Function.update s.pollIntervalS m.sensorId (some m.pollIntervalS)
      consumer := ⟨batch, backlog⟩ } d := by
  refine ⟨h.1, ?_⟩
  have hpending : s.consumer.pending = m :: (batch ++ backlog) := by rw [hc]; rfl
  have hlast := h.2
  rw [hpending, last_cons] at hlast
  change last _ d (batch ++ backlog) = _ ∨ last _ d (batch ++ backlog) = none ∧ _
  cases hrest : last SensorRegistration.sensorId d (batch ++ backlog) with
  | some m' =>
      rw [hrest] at hlast
      exact .inl (hlast.resolve_right fun hn => nomatch hn.1)
  | none =>
      refine .inr ⟨rfl, ?_⟩
      rw [hrest, Option.none_or] at hlast
      by_cases hm : m.sensorId = d
      · rw [if_pos hm] at hlast
        obtain hm' := Option.some.inj (hlast.resolve_right fun hn => nomatch hn.1)
        subst hm'
        exact ⟨Function.update_self .., find_upsertSensor_self⟩
      · rw [if_neg hm] at hlast
        obtain ⟨-, hcol, hrow⟩ := hlast.resolve_left nofun
        exact ⟨(Function.update_of_ne (Ne.symm hm) ..).trans hcol, find_upsertSensor hrow⟩

omit [DecidableEq χ] in
/-- A step of the API that leaves each device its row, and the cadence of each that has one. -/
theorem Announced.frame (h : Announced s) (hk : s'.sensors = s.sensors)
    (ha : s'.announcing = s.announcing) (hr : s'.registrations = s.registrations)
    (hc : s'.consumer.pending = s.consumer.pending)
    (hp : ∀ d, s.registry.devices.find d ≠ none →
      s'.pollIntervalS d = s.pollIntervalS d ∧ s'.registry.devices.find d ≠ none) :
    Announced s' where
  drivers := hk ▸ h.drivers
  announcing := ha ▸ h.announcing
  told := by
    rw [hk, ha]
    exact fun k hmem => (h.told k hmem).imp_right fun ht => ht.frame hr hc (hp _)

/-- A bind writes the cadence of no device that has a row. -/
theorem pollInterval_of_row {r : Request ι χ} {registry : Registry ι χ}
    (hs : s.registry.step (.request r) = some registry) (hd : s.registry.devices.find d ≠ none) :
    r.pollInterval s.registry.devices s.pollIntervalS d = s.pollIntervalS d := by
  cases r with
  | bind body =>
      rw [Request.pollInterval, BindDeviceRequest.pollInterval]
      cases hm : s.registry.devices.matching body.deviceId body.kind body.driverType
        body.binding.key with
      | some r => rfl
      | none =>
          obtain ⟨⟨db, as⟩, hcommit, -⟩ := Option.map_eq_some_iff.mp hs
          rw [Request.commit] at hcommit
          cases hb : bindDevice s.registry.devices s.registry.capabilities body with
          | error e => rw [hb] at hcommit; cases hcommit
          | ok p =>
              have hnone := (bindDevice_matching (d := d) hb).2 hm
              refine Function.update_of_ne ?_ ..
              rintro rfl
              exact hd hnone
  | _ => rfl

/-- A request that forgets nothing keeps what is announced. -/
theorem announced_request {r : Request ι χ} {registry : Registry ι χ} (h : Announced s)
    (hr : ∀ d b, r ≠ .forget d b) (hs : s.registry.step (.request r) = some registry) :
    Announced { s with
      registry := registry
      pollIntervalS := r.pollInterval s.registry.devices s.pollIntervalS } := by
  refine h.frame rfl rfl rfl rfl fun d hd => ⟨pollInterval_of_row hs hd, ?_⟩
  obtain ⟨⟨db, as⟩, hcommit, rfl⟩ := Option.map_eq_some_iff.mp hs
  exact find_commit hr hcommit hd

/-- **Every step keeps it.** -/
theorem announced_step (h : Announced s) (hs : s.step a = some s') : Announced s' := by
  cases a with
  | request r =>
      cases r with
      | forget => cases hs
      | bind | unbind | readopt =>
          obtain ⟨registry, hreg, rfl⟩ := Option.map_eq_some_iff.mp hs
          exact announced_request h nofun hreg
  | published i succeeds =>
      obtain ⟨registry, hreg, rfl⟩ := Option.map_eq_some_iff.mp hs
      obtain ⟨a, -, rfl⟩ := Option.map_eq_some_iff.mp hreg
      exact h.frame rfl rfl rfl rfl fun _ hd => ⟨rfl, hd⟩
  | capabilities cs =>
      cases hs
      exact h.frame rfl rfl rfl rfl fun _ hd => ⟨rfl, hd⟩
  | startApi failed =>
      cases hs
      refine ⟨h.drivers, h.announcing, fun k hk => (h.told k hk).imp_right fun ht => ?_⟩
      exact ⟨ht.1, .inl ht.1⟩
  | rebuild =>
      cases hs
      refine ⟨fun k hk => ?_, fun m hm => ?_, fun k hk => .inl (List.mem_map_of_mem hk)⟩
      · obtain ⟨a, -, hb⟩ := List.mem_filterMap.mp hk
        exact (build_eq_some hb).1
      · obtain ⟨k, hk, rfl⟩ := List.mem_map.mp hm
        obtain ⟨a, -, hb⟩ := List.mem_filterMap.mp hk
        exact (build_eq_some hb).1
  | announce =>
      cases ha : s.announcing with
      | nil => rw [Cadence.step, ha] at hs; cases hs
      | cons m rest =>
          rw [Cadence.step, ha] at hs
          cases hs
          have hm : m.pollIntervalS = defaultPollIntervalS :=
            h.announcing m (ha ▸ List.mem_cons_self)
          refine ⟨h.drivers, fun m' hm' => h.announcing m' (ha ▸ List.mem_cons_of_mem _ hm'),
            fun k hk => ?_⟩
          by_cases hid : m.sensorId = k.driverId
          · have he : m = ⟨k.driverId, defaultPollIntervalS⟩ := by rw [← hid, ← hm]
            refine .inr ⟨?_, .inl ?_⟩
            · rw [last_retain, if_pos hid, he]
            · rw [Drain.last_pending_publish, if_pos hid, he]
          · rcases h.told k hk with hmem | ht
            · rw [ha] at hmem
              rcases List.mem_cons.mp hmem with rfl | hmem
              · exact absurd rfl hid
              · exact .inl hmem
            · refine .inr ⟨?_, ?_⟩
              · rw [last_retain, if_neg hid]
                exact ht.1
              · rw [Drain.last_pending_publish, if_neg hid]
                exact ht.2
  | deliver n =>
      cases hs
      exact h.frame rfl rfl rfl Drain.pending_fetch fun _ hd => ⟨rfl, hd⟩
  | onMessage =>
      cases hc : s.consumer with
      | mk batch backlog =>
          cases batch with
          | nil => rw [Cadence.step, hc] at hs; cases hs
          | cons m batch =>
              rw [Cadence.step, hc] at hs
              cases hs
              exact ⟨h.drivers, h.announcing, fun k hk =>
                (h.told k hk).imp_right fun ht => ht.onMessage hc⟩

omit [DecidableEq χ] in
/-- Where a probe has settled, the default is what counts. -/
theorem Announced.counts (h : Announced s) (hs : Settled s d) : Counts s d defaultPollIntervalS := by
  obtain ⟨hout, hann, hpending⟩ := hs.quiet
  refine ⟨?_, fun k hk _ => h.drivers k hk⟩
  obtain ⟨k, hk, rfl⟩ := hs.built
  have ht := (h.told k hk).resolve_left (by rw [hann]; exact List.not_mem_nil)
  rw [Told, hpending] at ht
  exact (ht.2.resolve_left nofun).2.1

end

/-- **Whose cadence counts**: where a probe has settled, what was declared counts if and only if it
is the driver's default. -/
theorem cadence_counts_iff (registry : Registry ι χ) (pollIntervalS : ι → Option ℚ)
    (registrations : List (SensorRegistration ι)) (declared₀ : ι → Option ℚ)
    (as : List (CadenceAction ι χ)) (s : Cadence ι χ) (declared : ι → Option ℚ)
    (hrun : (cadence ι χ).Run (.start registry pollIntervalS registrations, declared₀) as
      (s, declared))
    (d : ι) (hs : Settled s d) (x : ℚ) (hx : declared d = some x) :
    Counts s d x ↔ x = defaultPollIntervalS := by
  have hi : Announced s := hrun.invariant (I := fun p => Announced p.1) ⟨nofun, nofun, nofun⟩
    (Machine.ghost_preserves fun _ _ _ _ _ hI hs => announced_step hI hs)
  have hdefault := hi.counts hs
  constructor
  · intro hc
    exact Option.some.inj (hc.1.symm.trans hdefault.1)
  · rintro rfl
    exact hdefault

theorem five_seconds_pos : (0 : ℚ) < 5 := by norm_num

theorem ten_seconds_pos : (0 : ℚ) < 10 := by norm_num

/-- A probe is bound, built, announced and recorded. -/
def probeSettled (x : ℚ) (hx : 0 < x) : List (CadenceAction ℕ ℕ) :=
  [.request (.bind ⟨0, .ds18b20, 0, none, some x, no_role, interval_pos hx⟩),
    .published 0 true, .rebuild, .announce, .deliver 1, .onMessage]

/-- A hub with one probe on its bus. -/
def oneProbe : Cadence ℕ ℕ :=
  .start { Registry.restored noDevices with capabilities := [(.w1Bus, 0)] } (fun _ => none) []

/-- Every five seconds was declared. -/
theorem cadence_counts_iff_default : ∃ s declared, (cadence ℕ ℕ).Run (oneProbe, fun _ => none)
    (probeSettled 5 five_seconds_pos) (s, declared) ∧ Settled s 0 ∧ declared 0 = some 5 ∧
    Counts s 0 5 := by
  have hp : ((cadence ℕ ℕ).exec (oneProbe, fun _ => none) (probeSettled 5 five_seconds_pos)).map
      (fun p => decide (Settled p.1 0 ∧ p.2 0 = some 5)) = some true := by decide +kernel
  obtain ⟨⟨s, declared⟩, hrun, he⟩ := Option.map_eq_some_iff.mp hp
  obtain ⟨hs, hx⟩ := of_decide_eq_true he
  have hrun := Machine.exec_eq_some.mp hrun
  exact ⟨s, declared, hrun, hs, hx, (cadence_counts_iff _ _ _ _ _ s declared hrun 0 hs 5 hx).mpr rfl⟩

/-- Every ten seconds was declared; the driver polls every five, and the row says so. -/
theorem not_cadence_counts :
    ¬ ∀ (as : List (CadenceAction ℕ ℕ)) (s : Cadence ℕ ℕ) (declared : ℕ → Option ℚ),
      (cadence ℕ ℕ).Run (oneProbe, fun _ => none) as (s, declared) →
      ∀ d, Settled s d → ∀ x, declared d = some x → Counts s d x := by
  intro h
  have hp : ((cadence ℕ ℕ).exec (oneProbe, fun _ => none) (probeSettled 10 ten_seconds_pos)).map
      (fun p => decide (Settled p.1 0 ∧ p.2 0 = some 10 ∧ p.1.pollIntervalS 0 = some 5)) =
        some true := by decide +kernel
  obtain ⟨⟨s, declared⟩, hrun, he⟩ := Option.map_eq_some_iff.mp hp
  obtain ⟨hs, hx, hcol⟩ := of_decide_eq_true he
  have hcount := (h _ s declared (Machine.exec_eq_some.mp hrun) 0 hs 10 hx).1
  rw [hcol] at hcount
  exact absurd hcount (by decide +kernel)

end BellasReef.Api
