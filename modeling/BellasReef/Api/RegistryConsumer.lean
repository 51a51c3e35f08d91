import BellasReef.Api.Claims
import BellasReef.Support.Retained

/-!
# Api — RegistryConsumer

The registry consumer (`registry.py`) beside the requests on the `devices` table.

hardware-io announces a device on the subject of its id; `BR_REGISTRY` keeps the last message of
each subject, however old; the consumer starts at what is retained, and each sensor registration
that it handles is an upsert.  `stays_forgotten`: where the API subscribes while no registration
of a forgotten device is retained, and forgets no device whose registration it has still to
handle, a forgotten device has no row until it is announced or bound again.
-/

namespace BellasReef.Api
open BellasReef.Contracts BellasReef.Support

variable {κ ι χ : Type}

/-- What is announced under `bellasreef.registry.>`: actuators share the subject family. -/
inductive Registration (ι : Type) where
  | sensor (sensorId : ι)
  | actuator (actuatorId : ι)
  deriving DecidableEq

/-- The id in the subject. -/
def Registration.deviceId : Registration ι → ι
  | .sensor d | .actuator d => d

/-- The API with its registry consumer, and the stream. -/
structure RegistryConsumer (κ ι χ : Type) where
  api : Interleaving κ ι χ
  /-- `BR_REGISTRY`. -/
  retained : List (Registration ι)
  /-- The subscription, with what it has still to hand to `_on_message`. -/
  consumer : Option (Drain (Registration ι))

/-- What hardware-io, the consumer and the requests do. -/
inductive RegistryConsumerAction (κ ι χ : Type) where
  /-- hardware-io announces a device. -/
  | publish (m : Registration ι)
  /-- `_subscribe`. -/
  | subscribe
  /-- The broker sends `n` messages. -/
  | deliver (n : ℕ)
  /-- `_on_message`; the database may fail it. -/
  | onMessage (stored : Bool)
  | api (a : InterleavingAction κ ι χ)
  /-- The API stops, with its requests and its connection. -/
  | stop

section Steps
variable [DecidableEq κ] [DecidableEq ι] [DecidableEq χ]

omit [DecidableEq κ] [DecidableEq χ] in
/-- What `_on_message` does to the table. -/
def Registration.upsert (db : Devices ι χ) : Registration ι → Devices ι χ
  | .sensor d => db.upsertSensor d
  | .actuator _ => db  -- not a sensor registration; ignored

/-- One step of the three. -/
def RegistryConsumer.step (s : RegistryConsumer κ ι χ) :
    RegistryConsumerAction κ ι χ → Option (RegistryConsumer κ ι χ)
  | .publish m =>
      some { s with
        retained := retain Registration.deviceId s.retained m
        consumer := s.consumer.map fun d => d.publish Registration.deviceId m }
  | .subscribe =>
      match s.consumer with
      | some _ => none
      | none => some { s with consumer := some (Drain.start s.retained) }
  | .deliver n => s.consumer.map fun d => { s with consumer := some (d.fetch n) }
  | .onMessage stored =>
      match s.consumer with
      | some ⟨m :: batch, backlog⟩ =>
          some { s with
            api := if stored then { s.api with devices := m.upsert s.api.devices } else s.api
            consumer := some ⟨batch, backlog⟩ }
      | _ => none
  -- registrations come over the stream
  | .api (.arrive _ (.register _)) => none
  | .api a => (s.api.step a).map fun api => { s with api := api }
  | .stop => some { s with api := { s.api with doing := fun _ => .idle }, consumer := none }

omit [DecidableEq κ] [DecidableEq χ] in
/-- What a statement of a request adds to what is forgotten, or takes from it. -/
def Doing.forgets (p p' : Doing ι χ) (forgotten : List ι) : List ι :=
  match p, p' with
  | .deleting d, .done .forgotten _ => d :: forgotten
  | _, .done (.bound d _) true => forgotten.filter (· ≠ d)
  | _, _ => forgotten

/-- The devices that were forgotten and neither announced nor bound since. -/
def RegistryConsumer.note (s : RegistryConsumer κ ι χ) (a : RegistryConsumerAction κ ι χ)
    (s' : RegistryConsumer κ ι χ) (forgotten : List ι) : List ι :=
  match a with
  | .publish m => forgotten.filter (· ≠ m.deviceId)
  | .api (.go k) => (s.api.doing k).forgets (s'.api.doing k) forgotten
  | _ => forgotten

/-- The API, and what it has forgotten. -/
abbrev registryConsumer (κ ι χ : Type) [DecidableEq κ] [DecidableEq ι] [DecidableEq χ] :
    Machine (RegistryConsumer κ ι χ × List ι) (RegistryConsumerAction κ ι χ) :=
  Machine.ghost ⟨RegistryConsumer.step⟩ RegistryConsumer.note

end Steps

/-- The API has not subscribed yet. -/
def RegistryConsumer.start (devices : Devices ι χ) (capabilities : List (CapabilitySource × χ))
    (retained : List (Registration ι)) : RegistryConsumer κ ι χ :=
  ⟨.start devices capabilities, retained, none⟩

/-- What the consumer has still to handle. -/
def RegistryConsumer.pending (s : RegistryConsumer κ ι χ) : List (Registration ι) :=
  s.consumer.elim [] Drain.pending

/-- A forgotten device has no row. -/
def StaysForgotten (s : RegistryConsumer κ ι χ) (forgotten : List ι) : Prop :=
  ∀ d ∈ forgotten, ∀ r ∈ s.api.devices.rows, r.deviceId ≠ d

/-- The API subscribes while no forgotten device is retained, and forgets none that is pending. -/
def NoneRemembered (s : RegistryConsumer κ ι χ) (forgotten : List ι) : RegistryConsumerAction κ ι χ → Prop
  | .subscribe => ∀ d ∈ forgotten, .sensor d ∉ s.retained
  | .api (.go k) =>
      match s.api.doing k with
      | .deleting d => .sensor d ∉ s.pending
      | _ => True
  | _ => True

/-! ### What is pending -/

section Forgetting
variable [DecidableEq ι] [DecidableEq χ] {db db' : Devices ι χ} {p p' : Doing ι χ}
  {records forgotten : List ι} {d : ι}

omit [DecidableEq χ] in
/-- A handled registration adds its own device, if any. -/
theorem mem_upsert {m : Registration ι} {r : DeviceRow ι χ} (hr : r ∈ (m.upsert db).rows) :
    r ∈ db.rows ∨ m = .sensor r.deviceId := by
  cases m with
  | actuator => exact .inl hr
  | sensor d =>
      rcases Devices.mem_upsertSensor.mp hr with hr | ⟨-, rfl⟩
      · exact .inl hr
      · exact .inr rfl

omit [DecidableEq χ] in
/-- What is forgotten was so before, or is deleted now. -/
theorem mem_forgets (h : d ∈ p.forgets p' forgotten) : d ∈ forgotten ∨ p = .deleting d := by
  unfold Doing.forgets at h
  split at h
  · rcases List.mem_cons.mp h with rfl | h
    · exact .inr rfl
    · exact .inl h
  · exact .inl (List.mem_filter.mp h).1
  · exact .inl h

/-- **Frame.**  A statement adds no device but one that it binds or registers. -/
theorem Moves.deviceId {r : DeviceRow ι χ} (h : Moves db records p db' p') (hr : r ∈ db'.rows) :
    (∃ x ∈ db.rows, x.deviceId = r.deviceId) ∨ p = .arrived (.register r.deviceId) ∨
      ∃ body target, p = .matched body target true ∧ r.deviceId = body.deviceId ∧
        p' = .done (.bound target true) true := by
  -- a row that is written in place of one of the same id
  have hsame : ∀ {x y : DeviceRow ι χ}, x ∈ db.rows → y.deviceId = x.deviceId →
      r ∈ (db.update y).rows → ∃ z ∈ db.rows, z.deviceId = r.deviceId := by
    intro x y hx hid hr
    rcases (Devices.mem_update hx hid).mp hr with rfl | ⟨hr, -⟩
    · exact ⟨x, hx, hid.symm⟩
    · exact ⟨r, hr, rfl⟩
  cases h with
  | @inserts body target _ hi =>
      rcases (Devices.mem_insert hi).mp hr with rfl | hr
      · exact .inr (.inr ⟨body, target, rfl, rfl, rfl⟩)
      · exact .inl ⟨r, hr, rfl⟩
  | @updates body x hx => exact .inl (hsame (y := body.onto x) hx rfl hr)
  | @unbinds x hx => exact .inl (hsame (y := x.unadopt) hx rfl hr)
  | @readopts x hx hb => exact .inl (hsame (y := x.readopt hb) hx rfl hr)
  | deletes => exact .inl ⟨r, (Devices.mem_delete.mp hr).1, rfl⟩
  | registers =>
      rcases Devices.mem_upsertSensor.mp hr with hr | ⟨-, rfl⟩
      · exact .inl ⟨r, hr, rfl⟩
      · exact .inr (.inl rfl)
  | _ => exact .inl ⟨r, hr, rfl⟩

/-- What a forget has deleted has no row. -/
theorem Moves.gone {r : DeviceRow ι χ} {wrote : Bool}
    (h : Moves db records (.deleting d) db' (.done .forgotten wrote)) (hr : r ∈ db'.rows) :
    r.deviceId ≠ d := by
  cases h with
  | declines ho => cases ho
  | deletes hx hrec => exact (Devices.mem_delete.mp hr).2
  | deletesNone hnone => exact Devices.find_eq_none_iff.mp hnone r hr

/-- A statement of a request leaves every forgotten device without a row. -/
theorem Moves.staysForgotten (h : Moves db records p db' p')
    (hp : ∀ d, p ≠ .arrived (.register d))
    (htarget : ∀ body target, p = .matched body target true → target = body.deviceId)
    (hi : ∀ d ∈ forgotten, ∀ r ∈ db.rows, r.deviceId ≠ d) :
    ∀ d ∈ p.forgets p' forgotten, ∀ r ∈ db'.rows, r.deviceId ≠ d := by
  intro d hd r hr he
  rcases h.deviceId hr with ⟨x, hx, hid⟩ | hreg | ⟨body, target, rfl, hid, rfl⟩
  · unfold Doing.forgets at hd
    split at hd
    · rcases List.mem_cons.mp hd with rfl | hd
      · exact h.gone hr he
      · exact hi d hd x hx (hid.trans he)
    · exact hi d (List.mem_filter.mp hd).1 x hx (hid.trans he)
    · exact hi d hd x hx (hid.trans he)
  · exact hp _ hreg
  · have hne := of_decide_eq_true (List.mem_filter.mp hd).2
    exact hne (he.symm.trans (hid.trans (htarget body target rfl).symm))

end Forgetting

/-! ### Runs -/

/-- What the steps keep where no forgotten device is remembered. -/
structure Forgets (s : RegistryConsumer κ ι χ) (forgotten : List ι) : Prop where
  rows : StaysForgotten s forgotten
  pending : ∀ d ∈ forgotten, .sensor d ∉ s.pending
  requests : ∀ k d, s.api.doing k ≠ .arrived (.register d)
  target : ∀ k body target, s.api.doing k = .matched body target true → target = body.deviceId

section Runs
variable [DecidableEq κ] [DecidableEq ι] [DecidableEq χ] {s s' : RegistryConsumer κ ι χ}
  {a : RegistryConsumerAction κ ι χ} {forgotten : List ι}

/-- A request arrives or goes on, or a record is made. -/
theorem Forgets.api {b : InterleavingAction κ ι χ} {api : Interleaving κ ι χ}
    (hi : Forgets s forgotten) (hC : NoneRemembered s forgotten (.api b))
    (hb : ∀ k d, b ≠ .arrive k (.register d)) (h : s.api.step b = some api) :
    Forgets { s with api := api }
      (RegistryConsumer.note s (.api b) { s with api := api } forgotten) := by
  cases b with
  | arrive k r =>
      simp only [Interleaving.step] at h
      split at h
      · cases h
        refine ⟨hi.rows, hi.pending, fun k' d he => ?_, target_update hi.target (by rintro _ _ ⟨⟩)⟩
        by_cases hk : k' = k
        · simp only [hk, Function.update_self] at he
          cases he
          exact hb k d rfl
        · simp only [Function.update_of_ne hk] at he
          exact hi.requests k' d he
      · cases h
  | go k =>
      obtain ⟨⟨db, p'⟩, hn, he⟩ := Option.map_eq_some_iff.mp h
      cases he
      have hm := next_moves hn
      change Forgets _ ((s.api.doing k).forgets (Function.update s.api.doing k p' k) forgotten)
      rw [Function.update_self]
      refine ⟨hm.staysForgotten (hi.requests k) (hi.target k) hi.rows, ?_, ?_,
        target_update hi.target fun _ _ => hm.target⟩
      · intro d hd
        rcases mem_forgets hd with hd | hd
        · exact hi.pending d hd
        · simp only [NoneRemembered, hd] at hC
          exact hC
      · intro k' d he
        by_cases hk : k' = k
        · simp only [hk, Function.update_self] at he
          rw [he] at hm
          generalize s.api.doing k = p at hm
          cases hm
        · simp only [Function.update_of_ne hk] at he
          exact hi.requests k' d he
  | record deviceId =>
      simp only [Interleaving.step] at h
      split at h
      · cases h
      · cases h; exact ⟨hi.rows, hi.pending, hi.requests, hi.target⟩

/-- **Step.** -/
theorem forgets_step (hi : Forgets s forgotten) (hC : NoneRemembered s forgotten a)
    (h : s.step a = some s') : Forgets s' (RegistryConsumer.note s a s' forgotten) := by
  cases a with
  | publish m =>
      cases h
      refine ⟨?_, ?_, hi.requests, hi.target⟩
      · exact fun d hd => hi.rows d (List.mem_filter.mp hd).1
      · intro d hd hmem
        obtain ⟨hd, hne⟩ := List.mem_filter.mp hd
        cases hc : s.consumer with
        | none =>
            simp [RegistryConsumer.pending, hc] at hmem
        | some c =>
            simp only [RegistryConsumer.pending, hc, Option.map_some, Option.elim] at hmem
            rcases Drain.mem_pending_publish hmem with hmem | hmem
            · exact hi.pending d hd (by simpa [RegistryConsumer.pending, hc] using hmem)
            · exact of_decide_eq_true hne (by rw [← hmem]; rfl)
  | subscribe =>
      simp only [RegistryConsumer.step] at h
      split at h
      · cases h
      · cases h
        exact ⟨hi.rows, hC, hi.requests, hi.target⟩
  | deliver n =>
      obtain ⟨c, hc, rfl⟩ := Option.map_eq_some_iff.mp h
      refine ⟨hi.rows, fun d hd hmem => hi.pending d hd ?_, hi.requests, hi.target⟩
      simpa [RegistryConsumer.pending, hc] using hmem
  | onMessage stored =>
      simp only [RegistryConsumer.step] at h
      split at h
      · next m batch backlog hc =>
          cases h
          have hpending : ∀ x, x ∈ s.pending ↔ x = m ∨ x ∈ batch ++ backlog := by
            intro x
            rw [RegistryConsumer.pending, hc]
            exact List.mem_cons
          refine ⟨?_, ?_, ?_, ?_⟩
          · intro d hd r hr
            cases stored with
            | false => exact hi.rows d hd r hr
            | true =>
                rcases mem_upsert hr with hr | hm
                · exact hi.rows d hd r hr
                · rintro rfl
                  exact hi.pending _ hd ((hpending _).mpr (.inl hm.symm))
          · exact fun d hd hmem => hi.pending d hd ((hpending _).mpr (.inr hmem))
          · cases stored <;> exact hi.requests
          · cases stored <;> exact hi.target
      · cases h
  | api b =>
      have hb : ∀ k d, b ≠ .arrive k (.register d) := by
        rintro k d rfl
        cases h
      have h : (s.api.step b).map (fun api => { s with api := api }) = some s' := by
        cases b with
        | arrive k r =>
            cases r with
            | register d => cases h
            | _ => exact h
        | _ => exact h
      obtain ⟨api, ha, rfl⟩ := Option.map_eq_some_iff.mp h
      exact hi.api hC hb ha
  | stop =>
      cases h
      exact ⟨hi.rows, fun _ _ => List.not_mem_nil, nofun, nofun⟩

/-- **A forgotten device stays forgotten**, where none is remembered. -/
theorem stays_forgotten {devices : Devices ι χ} {capabilities : List (CapabilitySource × χ)}
    {retained : List (Registration ι)} {as : List (RegistryConsumerAction κ ι χ)}
    (h : (registryConsumer κ ι χ).RunIf (fun p a => NoneRemembered p.1 p.2 a)
      (.start devices capabilities retained, []) as (s, forgotten)) :
    StaysForgotten s forgotten := by
  have hi : Forgets s forgotten := h.invariant (I := fun p => Forgets p.1 p.2)
    ⟨nofun, nofun, nofun, nofun⟩
    (Machine.ghost_preserves fun _ _ _ _ hC hi hs => forgets_step hi hC hs)
  exact hi.rows

instance (s : RegistryConsumer κ ι χ) (forgotten : List ι) (a : RegistryConsumerAction κ ι χ) :
    Decidable (NoneRemembered s forgotten a) := by
  unfold NoneRemembered
  split
  · infer_instance
  · split <;> infer_instance
  · infer_instance

end Runs

/-- The probe of ROM `0`. -/
def bindProbe : BindDeviceRequest ℕ ℕ :=
  ⟨0, .ds18b20, 0, none, some 10, no_role, interval_pos (by decide)⟩

/-- The probe is bound and announced, and the API restarts; the probe is unbound and forgotten. -/
def probeForgotten (rest : List (RegistryConsumerAction (Fin 3) ℕ ℕ)) :
    List (RegistryConsumerAction (Fin 3) ℕ ℕ) :=
  [.subscribe, .api (.arrive 0 (.bind bindProbe)), .api (.go 0), .api (.go 0), .api (.go 0),
    .publish (.sensor 0), .stop, .subscribe, .deliver 1, .onMessage true,
    .api (.arrive 1 (.unbind 0)), .api (.go 1), .api (.arrive 2 (.forget 0)), .api (.go 2),
    .api (.go 2), .api (.go 2)] ++ rest

/-- A probe is forgotten, and another is announced. -/
theorem stays_forgotten_next : ∃ s forgotten,
    (registryConsumer (Fin 3) ℕ ℕ).RunIf (fun p a => NoneRemembered p.1 p.2 a)
      (.start noDevices [(.w1Bus, 0)] [], [])
      (probeForgotten [.publish (.sensor 1), .deliver 1, .onMessage true]) (s, forgotten) ∧
      s.api.devices.rows.map DeviceRow.deviceId = [1] ∧ forgotten = [0] ∧
      StaysForgotten s forgotten := by
  have hrun : ((registryConsumer (Fin 3) ℕ ℕ).execIf (fun p a => NoneRemembered p.1 p.2 a)
      (.start noDevices [(.w1Bus, 0)] [], [])
      (probeForgotten [.publish (.sensor 1), .deliver 1, .onMessage true])).map
      (fun p => (p.1.api.devices.rows.map DeviceRow.deviceId, p.2)) = some ([1], [0]) := by
    decide +kernel
  obtain ⟨⟨s, forgotten⟩, hs, hl⟩ := Option.map_eq_some_iff.mp hrun
  obtain ⟨hrows, hf⟩ := Prod.ext_iff.mp hl
  have h := Machine.execIf_eq_some.mp hs
  exact ⟨s, forgotten, h, hrows, hf, stays_forgotten h⟩

/-- The API restarts, and the stream brings the probe back. -/
theorem not_stays_forgotten :
    ¬ ∀ (devices : Devices ℕ ℕ) (capabilities : List (CapabilitySource × ℕ))
      (retained : List (Registration ℕ)) (as : List (RegistryConsumerAction (Fin 3) ℕ ℕ))
      (s : RegistryConsumer (Fin 3) ℕ ℕ) (forgotten : List ℕ),
      (registryConsumer (Fin 3) ℕ ℕ).Run (.start devices capabilities retained, []) as
        (s, forgotten) → StaysForgotten s forgotten := by
  intro h
  have hrun : ((registryConsumer (Fin 3) ℕ ℕ).exec (.start noDevices [(.w1Bus, 0)] [], [])
      (probeForgotten [.stop, .subscribe, .deliver 1, .onMessage true])).map
      (fun p => (p.1.api.devices.rows.map DeviceRow.deviceId, p.2)) = some ([0], [0]) := by
    decide +kernel
  obtain ⟨⟨s, forgotten⟩, hs, hl⟩ := Option.map_eq_some_iff.mp hrun
  obtain ⟨hrows, hf⟩ := Prod.ext_iff.mp hl
  have hrows : s.api.devices.rows.map DeviceRow.deviceId = [0] := hrows
  obtain ⟨r, hr, hid⟩ := List.mem_map.mp (hrows ▸ List.mem_cons_self :
    0 ∈ s.api.devices.rows.map DeviceRow.deviceId)
  refine h _ _ _ _ s forgotten (Machine.exec_eq_some.mp hs) 0 ?_ r hr hid
  have hf : forgotten = [0] := hf
  rw [hf]
  exact List.mem_cons_self

end BellasReef.Api
