import BellasReef.Api.Interleaving

/-!
# Api — Claims

What a forget may delete, and what a successful bind or readoption leaves behind, while other
requests run between its statements.

A forget reads `adopted` in one statement and deletes by id in another; a bind writes the row that
it matched before; a readoption expects the row that it read.  `claims_kept`: where no request
commits to a device that another has read and is about to write, in a way that the other does not
allow for, no claimed device is deleted, every success lasts until an unbind, and no request
fails.
-/

namespace BellasReef.Api
open BellasReef.Contracts BellasReef.Support

variable {κ ι χ : Type}

/-- The device that a request has read and is about to write. -/
def Doing.holds : Doing ι χ → Option ι
  | .matched _ target false => some target
  | .detached r => some r.deviceId
  | .reattaching deviceId | .unclaimed deviceId | .deleting deviceId => some deviceId
  | _ => none

/-- The device that a forget has read as not adopted. -/
def Doing.forgetting : Doing ι χ → Option ι
  | .unclaimed deviceId | .deleting deviceId => some deviceId
  | _ => none

/-- The bind that has matched a device, and the device. -/
def Doing.rebinding : Doing ι χ → Option (BindDeviceRequest ι χ × ι)
  | .matched body target false => some (body, target)
  | _ => none

/-- The channel of a row. -/
def DeviceRow.channel (r : DeviceRow ι χ) : Option (DriverType × χ) :=
  r.driverType.bind fun t => r.binding.map fun b => (t, b.key)

/-- What the successes have promised, and what the forgets have deleted. -/
structure Ledger (ι χ : Type) where
  /-- Each bind and readoption that reported success, until an unbind of its device commits. -/
  claims : List (ι × DriverType × χ)
  /-- The rows that forgets deleted, as they were. -/
  deleted : List (DeviceRow ι χ)

section Requests
variable [DecidableEq ι] [DecidableEq χ]

/-- What a statement writes down. -/
def Ledger.write (db : Devices ι χ) (p p' : Doing ι χ) (l : Ledger ι χ) : Ledger ι χ :=
  match p, p' with
  | .matched body target _, .done (.bound _ _) _ =>
      { l with claims := (target, body.driverType, body.channel) :: l.claims }
  | .reattaching deviceId, .done .readopted _ =>
      { l with claims := (((db.find deviceId).bind DeviceRow.channel).map fun c =>
          (deviceId, c)).toList ++ l.claims }
  | .arrived (.unbind deviceId), .done .unbound _ =>
      { l with claims := l.claims.filter (·.1 ≠ deviceId) }
  | .deleting deviceId, .done .forgotten _ =>
      { l with deleted := (db.find deviceId).toList ++ l.deleted }
  | _, _ => l

/-- What a step writes down. -/
def Ledger.note (s : Interleaving κ ι χ) (a : InterleavingAction κ ι χ) (s' : Interleaving κ ι χ)
    (l : Ledger ι χ) : Ledger ι χ :=
  match a with
  | .go k => l.write s.devices (s.doing k) (s'.doing k)
  | _ => l

/-- The requests and their ledger. -/
abbrev claiming (κ ι χ : Type) [DecidableEq κ] [DecidableEq ι] [DecidableEq χ] :
    Machine (Interleaving κ ι χ × Ledger ι χ) (InterleavingAction κ ι χ) :=
  (interleaving κ ι χ).ghost Ledger.note

/-- Claimed hardware stays, and every request is answered. -/
structure ClaimsKept (s : Interleaving κ ι χ) (l : Ledger ι χ) : Prop where
  /-- No row was adopted when it was deleted. -/
  deleted : ∀ r ∈ l.deleted, r.adopted = false
  /-- What reported success is there, adopted and on its channel. -/
  claims : ∀ x ∈ l.claims, ∃ r ∈ s.devices.rows, r.deviceId = x.1 ∧ r.adopted = true ∧
    Devices.onChannel x.2.1 x.2.2 r = true
  /-- A request that wrote nothing says why. -/
  answered : ∀ k outcome, s.doing k = .done outcome false → outcome.declared = true

omit [DecidableEq χ] in
/-- Where a request `q` has read a row, what another `p` may commit to it. -/
def Compatible (records : List ι) (p q : Doing ι χ) : Prop :=
  match p with
  | .matched body target false =>
      q.forgetting ≠ some target ∧ ∀ y ∈ q.rebinding, y.2 = target →
        y.1.driverType = body.driverType ∧ y.1.channel = body.channel
  | .reattaching deviceId => q.forgetting ≠ some deviceId
  | .deleting deviceId => deviceId ∉ records → q.holds ≠ some deviceId
  | _ => True

/-- A request goes on where every other can allow for what it commits. -/
def Undisturbed (s : Interleaving κ ι χ) : InterleavingAction κ ι χ → Prop
  | .go k => ∀ k', k' ≠ k → Compatible s.records (s.doing k) (s.doing k')
  | _ => True

/-! ### What a request relies on -/

/-- What a request that is about to write a row relies on. -/
def Doing.Needs (r : DeviceRow ι χ) : Doing ι χ → Prop
  | .matched body _ false => r.binding = none ∨
      Devices.onChannel body.driverType body.channel r = true
  | .detached _ | .reattaching _ => r.driverType.isSome ∧ r.binding.isSome
  | .unclaimed _ | .deleting _ => r.adopted = false
  | _ => True

/-- What the steps of undisturbed requests keep. -/
structure Steady (db : Devices ι χ) (doing : κ → Doing ι χ) (l : Ledger ι χ) : Prop where
  holds : ∀ k d, (doing k).holds = some d → ∃ r ∈ db.rows, r.deviceId = d ∧ (doing k).Needs r
  target : ∀ k body target, doing k = .matched body target true → target = body.deviceId
  answered : ∀ k outcome, doing k = .done outcome false → outcome.declared = true
  deleted : ∀ r ∈ l.deleted, r.adopted = false
  claims : ∀ x ∈ l.claims, ∃ r ∈ db.rows, r.deviceId = x.1 ∧ r.adopted = true ∧
    Devices.onChannel x.2.1 x.2.2 r = true

variable {db db' : Devices ι χ} {p p' q : Doing ι χ} {r x y : DeviceRow ι χ} {d : ι}
  {l : Ledger ι χ}

omit [DecidableEq χ] in
/-- A row that was there is there after an `UPDATE`, unless it is the one written. -/
theorem exists_update {P : DeviceRow ι χ → Prop} (hr : r ∈ db.rows)
    (hid : y.deviceId = r.deviceId) (h : ∃ x ∈ db.rows, x.deviceId = d ∧ P x)
    (hP : d = r.deviceId → P r → P y) : ∃ x ∈ (db.update y).rows, x.deviceId = d ∧ P x := by
  obtain ⟨x, hx, rfl, hPx⟩ := h
  by_cases he : x.deviceId = r.deviceId
  · obtain rfl := Devices.eq_of_deviceId hx hr he
    exact ⟨y, (Devices.mem_update hr hid).mpr (.inl rfl), hid, hP rfl hPx⟩
  · exact ⟨x, (Devices.mem_update hr hid).mpr (.inr ⟨hx, he⟩), rfl, hPx⟩

omit [DecidableEq ι] [DecidableEq χ] in
theorem exists_mono {P : DeviceRow ι χ → Prop} (hsub : ∀ x ∈ db.rows, x ∈ db'.rows)
    (h : ∃ x ∈ db.rows, x.deviceId = d ∧ P x) : ∃ x ∈ db'.rows, x.deviceId = d ∧ P x := by
  obtain ⟨x, hx, hid, hP⟩ := h
  exact ⟨x, hsub x hx, hid, hP⟩

omit [DecidableEq ι] in
/-- What a row is on goes by its driver and its binding. -/
theorem onChannel_congr {t : DriverType} {c : χ} (hd : y.driverType = r.driverType)
    (hb : y.binding = r.binding) : Devices.onChannel t c y = Devices.onChannel t c r := by
  rw [Devices.onChannel, Devices.onChannel, hd, hb]

/-- **Frame.**  What a request relies on is there after a statement that is compatible with it. -/
theorem Moves.needs {records : List ι} (h : Moves db records p db' p')
    (hC : Compatible records p q) (hd : q.holds = some d)
    (hq : ∃ r ∈ db.rows, r.deviceId = d ∧ q.Needs r) : ∃ r ∈ db'.rows, r.deviceId = d ∧ q.Needs r := by
  cases h with
  | inserts hi => exact exists_mono (fun x hx => (Devices.mem_insert hi).mpr (.inr hx)) hq
  | @updates body r hr =>
      refine exists_update hr rfl hq fun hdr hn => ?_
      obtain ⟨hforget, hbind⟩ := hC
      cases q with
      | matched body' target' created =>
          cases created with
          | true => cases hd
          | false =>
              cases hd
              obtain ⟨ht, hc⟩ := hbind _ rfl hdr
              refine .inr ((onChannel_bound driverType_onto binding_onto).mpr ⟨ht.symm, ?_⟩)
              rw [key_binding, hc]
      | detached => exact ⟨rfl, rfl⟩
      | reattaching => exact ⟨rfl, rfl⟩
      | unclaimed => cases hd; exact absurd (congrArg some hdr) hforget
      | deleting => cases hd; exact absurd (congrArg some hdr) hforget
      | _ => cases hd
  | @unbinds r hr =>
      refine exists_update (y := r.unadopt) hr rfl hq fun _ hn => ?_
      cases q with
      | matched body' target' created =>
          cases created with
          | true => cases hd
          | false => exact hn.imp id fun h => (onChannel_congr rfl rfl).trans h
      | unclaimed => rfl
      | deleting => rfl
      | _ => exact hn
  | @readopts r hr hb =>
      refine exists_update (y := r.readopt hb) hr rfl hq fun hdr hn => ?_
      cases q with
      | matched body' target' created =>
          cases created with
          | true => cases hd
          | false => exact hn.imp id fun h => (onChannel_congr rfl rfl).trans h
      | unclaimed => cases hd; exact absurd (congrArg some hdr) hC
      | deleting => cases hd; exact absurd (congrArg some hdr) hC
      | _ => exact hn
  | @deletes r hr hrec =>
      obtain ⟨x, hx, rfl, hn⟩ := hq
      exact ⟨x, Devices.mem_delete.mpr ⟨hx, fun he => hC hrec (he ▸ hd)⟩, rfl, hn⟩
  | registers => exact exists_mono (fun x hx => Devices.mem_upsertSensor.mpr (.inl hx)) hq
  | _ => exact hq

/-- What a request relies on when it has gone on. -/
theorem Moves.needs_self {records : List ι} (h : Moves db records p db' p')
    (hp : ∀ d, p.holds = some d → ∃ r ∈ db.rows, r.deviceId = d ∧ p.Needs r)
    (hd : p'.holds = some d) : ∃ r ∈ db'.rows, r.deviceId = d ∧ p'.Needs r := by
  cases h with
  | finds hr hc => cases hd; exact ⟨_, hr, rfl, .inr hc⟩
  | adopts hr hb => cases hd; exact ⟨_, hr, rfl, .inl hb⟩
  | detaches hr hb => cases hd; exact ⟨_, hr, rfl, hb⟩
  | holds => exact hp d hd
  | releases hr had => cases hd; exact ⟨_, hr, rfl, had⟩
  | counts => exact hp d hd
  | _ => cases hd

/-- A request that finds what it relies on says why it has written nothing. -/
theorem Moves.answered {records : List ι} {outcome : Outcome ι} (h : Moves db records p db' p')
    (hp : ∀ d, p.holds = some d → ∃ r ∈ db.rows, r.deviceId = d ∧ p.Needs r)
    (ho : p' = .done outcome false) : outcome.declared = true := by
  cases h with
  | declines hdecl => cases ho; exact hdecl
  | misses hnone =>
      obtain ⟨r, hr, hid, -⟩ := hp _ rfl
      exact absurd hid (Devices.find_eq_none_iff.mp hnone r hr)
  | raises hno =>
      obtain ⟨r, hr, hid, hn⟩ := hp _ rfl
      exact absurd hn (hno r hr hid)
  | deletesNone hnone =>
      obtain ⟨r, hr, hid, -⟩ := hp _ rfl
      exact absurd hid (Devices.find_eq_none_iff.mp hnone r hr)
  | _ => cases ho

omit [DecidableEq ι] in
theorem channel_eq_some {t : DriverType} {c : χ} (h : r.channel = some (t, c)) :
    Devices.onChannel t c r = true := by
  obtain ⟨t', ht, h⟩ := Option.bind_eq_some_iff.mp h
  obtain ⟨b, hb, he⟩ := Option.map_eq_some_iff.mp h
  cases he
  exact (onChannel_bound ht hb).mpr ⟨rfl, rfl⟩

omit [DecidableEq ι] in
/-- A claim that is there is of a row that is bound. -/
theorem binding_ne_none {t : DriverType} {c : χ} (h : Devices.onChannel t c r = true) :
    r.binding ≠ none := by
  intro hb
  rw [onChannel_iff, hb] at h
  cases h.2

omit [DecidableEq χ] in
/-- A request that declines claims and deletes nothing. -/
theorem write_declined {outcome : Outcome ι} (h : outcome.declared = true) :
    l.write db p (.done outcome false) = l := by
  unfold Ledger.write
  split <;> first | rfl | (next he => cases he; cases h)

/-- A claim is there after a statement, and so is one that the statement has made. -/
theorem Moves.claims {records : List ι} (h : Moves db records p db' p')
    (hp : ∀ d, p.holds = some d → ∃ r ∈ db.rows, r.deviceId = d ∧ p.Needs r)
    (htarget : ∀ body target, p = .matched body target true → target = body.deviceId)
    (hl : ∀ x ∈ l.claims, ∃ r ∈ db.rows, r.deviceId = x.1 ∧ r.adopted = true ∧
      Devices.onChannel x.2.1 x.2.2 r = true) :
    ∀ x ∈ (l.write db p p').claims, ∃ r ∈ db'.rows, r.deviceId = x.1 ∧ r.adopted = true ∧
      Devices.onChannel x.2.1 x.2.2 r = true := by
  intro x hx
  cases h with
  | @inserts body target _ hi =>
      rcases List.mem_cons.mp hx with rfl | hx
      · refine ⟨_, (Devices.mem_insert hi).mpr (.inl rfl), (htarget _ _ rfl).symm, rfl, ?_⟩
        exact (onChannel_bound rfl rfl).mpr ⟨rfl, key_binding⟩
      · exact exists_mono (fun x hx => (Devices.mem_insert hi).mpr (.inr hx)) (hl x hx)
  | @updates body r hr =>
      rcases List.mem_cons.mp hx with rfl | hx
      · refine ⟨body.onto r, (Devices.mem_update (y := body.onto r) hr rfl).mpr (.inl rfl), rfl, rfl, ?_⟩
        exact (onChannel_bound driverType_onto binding_onto).mpr ⟨rfl, key_binding⟩
      · refine exists_update hr rfl (hl x hx) fun _ hP => ⟨rfl, ?_⟩
        -- the row was claimed, so it was bound, and the bind is for its channel
        obtain ⟨r', hr', hid, hn⟩ := hp _ rfl
        obtain rfl := Devices.eq_of_deviceId hr' hr hid
        obtain ⟨ht, hb⟩ := onChannel_iff.mp (hn.resolve_left (binding_ne_none hP.2))
        obtain ⟨ht', hb'⟩ := onChannel_iff.mp hP.2
        rw [ht] at ht'
        rw [hb] at hb'
        refine (onChannel_bound driverType_onto binding_onto).mpr ⟨Option.some.inj ht', ?_⟩
        rw [key_binding]
        exact Option.some.inj hb'
  | @unbinds r hr =>
      obtain ⟨hx, hne⟩ := List.mem_filter.mp hx
      obtain ⟨y, hy, hid, hP⟩ := hl x hx
      refine ⟨y, (Devices.mem_update (y := r.unadopt) hr rfl).mpr (.inr ⟨hy, ?_⟩), hid, hP⟩
      rw [hid]
      exact of_decide_eq_true hne
  | @readopts r hr hb =>
      rcases List.mem_append.mp hx with hx | hx
      · rw [Devices.find_eq_some_iff.mpr ⟨hr, rfl⟩, Option.mem_toList] at hx
        obtain ⟨⟨t, c⟩, hc, rfl⟩ := Option.map_eq_some_iff.mp hx
        refine ⟨r.readopt hb, (Devices.mem_update (y := r.readopt hb) hr rfl).mpr (.inl rfl), rfl,
          rfl, ?_⟩
        exact (onChannel_congr rfl rfl).trans (channel_eq_some hc)
      · exact exists_update (y := r.readopt hb) hr rfl (hl x hx) fun _ hP =>
          ⟨rfl, (onChannel_congr rfl rfl).trans hP.2⟩
  | @deletes r hr hrec =>
      obtain ⟨y, hy, hid, hP⟩ := hl x hx
      refine ⟨y, Devices.mem_delete.mpr ⟨hy, fun he => ?_⟩, hid, hP⟩
      obtain ⟨r', hr', hid', hn⟩ := hp _ rfl
      obtain rfl := Devices.eq_of_deviceId hr' hr hid'
      rw [Devices.eq_of_deviceId hy hr' he] at hP
      exact Bool.false_ne_true (hn.symm.trans hP.1)
  | registers =>
      exact exists_mono (fun x hx => Devices.mem_upsertSensor.mpr (.inl hx)) (hl x hx)
  | misses hnone =>
      obtain ⟨r, hr, hid, -⟩ := hp _ rfl
      exact absurd hid (Devices.find_eq_none_iff.mp hnone r hr)
  | declines ho =>
      rw [write_declined ho] at hx
      exact hl x hx
  | _ => exact hl x hx

/-- A row that is deleted was not adopted. -/
theorem Moves.deleted {records : List ι} (h : Moves db records p db' p')
    (hp : ∀ d, p.holds = some d → ∃ r ∈ db.rows, r.deviceId = d ∧ p.Needs r)
    (hl : ∀ r ∈ l.deleted, r.adopted = false) :
    ∀ r ∈ (l.write db p p').deleted, r.adopted = false := by
  intro x hx
  cases h with
  | @deletes r hr hrec =>
      rcases List.mem_append.mp hx with hx | hx
      · rw [Devices.find_eq_some_iff.mpr ⟨hr, rfl⟩] at hx
        obtain rfl := List.mem_singleton.mp hx
        obtain ⟨r', hr', hid, hn⟩ := hp _ rfl
        obtain rfl := Devices.eq_of_deviceId hr' hr hid
        exact hn
      · exact hl x hx
  | deletesNone hnone =>
      obtain ⟨r, hr, hid, -⟩ := hp _ rfl
      exact absurd hid (Devices.find_eq_none_iff.mp hnone r hr)
  | declines ho =>
      rw [write_declined ho] at hx
      exact hl x hx
  | _ => exact hl x hx

variable [DecidableEq κ] {s s' : Interleaving κ ι χ} {a : InterleavingAction κ ι χ}

/-- A request goes on. -/
theorem Steady.go {k : κ} {records : List ι} {doing : κ → Doing ι χ} (hi : Steady db doing l)
    (hC : ∀ k', k' ≠ k → Compatible records (doing k) (doing k'))
    (hm : Moves db records (doing k) db' p') :
    Steady db' (Function.update doing k p') (l.write db (doing k) p') where
  holds := by
    intro k' d hd
    by_cases he : k' = k
    · rw [he, Function.update_self] at hd ⊢
      exact hm.needs_self (hi.holds k) hd
    · rw [Function.update_of_ne he] at hd ⊢
      exact hm.needs (hC k' he) hd (hi.holds k' d hd)
  target := target_update hi.target fun _ _ => hm.target
  answered := by
    intro k' outcome h
    by_cases he : k' = k
    · rw [he, Function.update_self] at h
      exact hm.answered (hi.holds k) h
    · rw [Function.update_of_ne he] at h
      exact hi.answered k' outcome h
  deleted := hm.deleted (hi.holds k) hi.deleted
  claims := hm.claims (hi.holds k) (hi.target k) hi.claims

/-- **Step.**  Undisturbed requests stay steady. -/
theorem steady_step (hi : Steady s.devices s.doing l) (hC : Undisturbed s a)
    (h : (interleaving κ ι χ).step s a = some s') :
    Steady s'.devices s'.doing (Ledger.note s a s' l) := by
  change s.step a = some s' at h
  cases a with
  | arrive k r =>
      simp only [Interleaving.step] at h
      split at h
      · cases h
        refine ⟨?_, target_update hi.target (by rintro _ _ ⟨⟩), ?_, hi.deleted, hi.claims⟩
        · intro k' d hd
          by_cases he : k' = k
          · simp [he, Doing.holds] at hd
          · simp only [Function.update_of_ne he] at hd ⊢
            exact hi.holds k' d hd
        · intro k' outcome h
          by_cases he : k' = k
          · simp [he] at h
          · simp only [Function.update_of_ne he] at h
            exact hi.answered k' outcome h
      · cases h
  | go k =>
      obtain ⟨⟨db, p'⟩, hn, he⟩ := Option.map_eq_some_iff.mp h
      cases he
      change Steady db (Function.update s.doing k p')
        (l.write s.devices (s.doing k) (Function.update s.doing k p' k))
      rw [Function.update_self]
      exact hi.go hC (next_moves hn)
  | record deviceId =>
      simp only [Interleaving.step] at h
      split at h
      · cases h
      · cases h; exact hi

instance (records : List ι) (p q : Doing ι χ) : Decidable (Compatible records p q) := by
  unfold Compatible
  split <;> infer_instance

instance [Fintype κ] (s : Interleaving κ ι χ) (a : InterleavingAction κ ι χ) :
    Decidable (Undisturbed s a) :=
  match a with
  | .go _ => inferInstanceAs (Decidable (∀ _, _ → _))
  | .arrive _ _ | .record _ => isTrue trivial

end Requests

/-- The light is unbound; a forget and a bind of its channel arrive, and the bind is first. -/
def unboundAndForgotten (rest : List (InterleavingAction (Fin 4) ℕ ℕ)) :
    List (InterleavingAction (Fin 4) ℕ ℕ) :=
  [.arrive 0 (.bind (bindAs 0)), .go 0, .go 0, .go 0, .arrive 1 (.unbind 0), .go 1,
    .arrive 2 (.forget 0), .arrive 3 (.bind (bindAs 0))] ++ rest

end BellasReef.Api
