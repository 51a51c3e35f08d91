import BellasReef.Api.Interleaving
import BellasReef.Support.Rerun

/-!
# Api — Seeding

`bellasreef devices import` (`_devices_import` and `_post_bindings` in `cli.py`): what a file
declares is bound entry by entry, through the endpoint that any client binds with (`bind_device` in
`app.py` and `store.py`), and an entry that is refused does not stop the others.

* `post_devices`: what an entry does to the table is what its bind does.
* `import_again`: a file that names each channel once, imported again, changes nothing.
-/

namespace BellasReef.Api.Seeding
open BellasReef.Contracts BellasReef.Support

variable {ι χ ν : Type}

/-- The columns of a row that the operator owns. -/
structure Labels (ν : Type) where
  displayName : Option ν
  location : Option ν
  deriving DecidableEq

/-- `COALESCE(:display_name, display_name)`, and so the location. -/
def Labels.over (l old : Labels ν) : Labels ν :=
  ⟨l.displayName.or old.displayName, l.location.or old.location⟩

/-- What is posted of an entry. -/
structure Entry (ι χ ν : Type) where
  body : BindDeviceRequest ι χ
  labels : Labels ν

/-- The channel it is about. -/
def Entry.key (e : Entry ι χ ν) : DriverType × χ := (e.body.driverType, e.body.channel)

/-- The table, with those columns. -/
structure Labelled (ι χ ν : Type) where
  devices : Devices ι χ
  labels : ι → Labels ν

/-- Why an entry was not bound. -/
inductive PostError (ι : Type) where
  | refused (why : BindRefusal ι)
  /-- `display_name_not_blank`, which nothing handles. -/
  | blankName
  deriving DecidableEq

/-- The device that it was bound to, and whether that was created; or why it was not. -/
abbrev Posted (ι : Type) := Except (PostError ι) (ι × Bool)

/-- The entry has a name that the table does not take. -/
def Entry.blankName (blank : ν → Bool) (e : Entry ι χ ν) : Bool := e.labels.displayName.any blank

section Posting
variable [DecidableEq ι] [DecidableEq χ]

/-- What the endpoint's checks have against an entry. -/
def Labelled.refusal (capabilities : List (CapabilitySource × χ)) (t : Labelled ι χ ν)
    (e : Entry ι χ ν) : Option (BindRefusal ι) :=
  bindRefusal capabilities (t.devices.deviceBoundTo e.body.driverType e.body.channel) e.body

/-- The row that `bind_device` takes for the hardware of an entry. -/
def Labelled.taken (t : Labelled ι χ ν) (e : Entry ι χ ν) : Option (DeviceRow ι χ) :=
  t.devices.matching e.body.deviceId e.body.kind e.body.driverType e.body.binding.key

/-- The row of a device bound in place. -/
def Labelled.written (t : Labelled ι χ ν) (e : Entry ι χ ν) (r : DeviceRow ι χ) : Labelled ι χ ν :=
  ⟨t.devices.update (e.body.onto r),
    Function.update t.labels r.deviceId (e.labels.over (t.labels r.deviceId))⟩

/-- One `POST /devices`.  `blank` are the names that `display_name_not_blank` refuses: a write of
one fails, before a conflict is looked for. -/
def post (blank : ν → Bool) (capabilities : List (CapabilitySource × χ)) (t : Labelled ι χ ν)
    (e : Entry ι χ ν) : Labelled ι χ ν × Posted ι :=
  match t.refusal capabilities e with
  | some why => (t, .error (.refused why))
  | none =>
      if e.blankName blank then (t, .error .blankName)
      else
        match t.taken e with
        | some r => (t.written e r, .ok (r.deviceId, false))
        | none =>
            match t.devices.insert e.body.row with
            | some db => (⟨db, Function.update t.labels e.body.deviceId e.labels⟩,
                .ok (e.body.deviceId, true))
            | none => (t, .error (.refused .deviceIdConflict))

/-- `_post_bindings`. -/
def postBindings (blank : ν → Bool) (capabilities : List (CapabilitySource × χ)) :
    Labelled ι χ ν → List (Entry ι χ ν) → Labelled ι χ ν × List (Posted ι) :=
  Rerun.run (post blank capabilities)

omit [DecidableEq χ] in
/-- What the same entry is answered once it has been posted.  A PWM channel that was held by nobody
may have brought back the device it was last bound to, and then that device holds it. -/
def again (e : Entry ι χ ν) : Posted ι → Posted ι
  | .error why => .error why
  | .ok (d, _) =>
      if e.body.kind = .actuator ∧ d ≠ e.body.deviceId then .error (.refused (.channelBound d))
      else .ok (d, false)

/-- What an entry does to the table is what its bind does, where its name is one. -/
theorem post_devices {blank : ν → Bool} {capabilities : List (CapabilitySource × χ)}
    {t : Labelled ι χ ν} {e : Entry ι χ ν} : (post blank capabilities t e).1.devices =
      if e.blankName blank then t.devices
      else ((bindDevice t.devices capabilities e.body).toOption.map Prod.fst).getD t.devices := by
  rw [bindDevice_eq, post, Labelled.refusal]
  cases bindRefusal capabilities (t.devices.deviceBoundTo e.body.driverType e.body.channel)
    e.body with
  | some why => exact (ite_self _).symm
  | none =>
      cases e.blankName blank with
      | true => rfl
      | false => ?_
      dsimp only
      rw [Devices.bindDevice, Labelled.taken]
      cases t.devices.matching e.body.deviceId e.body.kind e.body.driverType e.body.binding.key with
      | some r => rfl
      | none =>
          have hrow : t.devices.insert ⟨e.body.deviceId, e.body.kind, e.body.role,
              some e.body.driverType, some e.body.binding, true, fun _ => ⟨rfl, rfl⟩⟩ =
              t.devices.insert e.body.row := rfl
          rw [hrow]
          cases t.devices.insert e.body.row with
          | some db => rfl
          | none => rfl

end Posting

/-! ### What is on a channel -/

section Channels
variable [DecidableEq χ] {db db' : Devices ι χ} {t : DriverType} {c : χ} {r x : DeviceRow ι χ}
  {d : ι}

/-- No two rows are on one channel. -/
def Sole (db : Devices ι χ) : Prop :=
  ∀ t c, ∀ r ∈ db.rows, ∀ r' ∈ db.rows, Devices.onChannel t c r = true →
    Devices.onChannel t c r' = true → r = r'

/-- One device to a channel is one adopted device to it. -/
theorem sole_of_onePerChannel (h : OnePerChannel db) : Sole db := by
  intro t c r hr r' hr' hc hc'
  have hle := h.rows t c
  have hmem : r ∈ db.rows.filter (Devices.onChannel t c) := List.mem_filter.mpr ⟨hr, hc⟩
  have hmem' : r' ∈ db.rows.filter (Devices.onChannel t c) := List.mem_filter.mpr ⟨hr', hc'⟩
  generalize db.rows.filter (Devices.onChannel t c) = l at hle hmem hmem'
  obtain hnil | ⟨x, rfl⟩ := (Nat.le_one_iff_eq_zero_or_eq_one.mp hle).imp
    List.length_eq_zero_iff.mp List.length_eq_one_iff.mp
  · rw [hnil] at hmem
    cases hmem
  · rw [List.mem_singleton.mp hmem, List.mem_singleton.mp hmem']

/-- The row on a channel, where there is one. -/
theorem Sole.carrier_iff (hs : Sole db) : db.carrier t c = some r ↔
    r ∈ db.rows ∧ Devices.onChannel t c r = true := by
  refine ⟨Devices.carrier_eq_some, ?_⟩
  rintro ⟨hr, hc⟩
  cases h : db.carrier t c with
  | none => exact absurd ((Devices.carrier_eq_none h r hr).symm.trans hc) Bool.false_ne_true
  | some x =>
      obtain ⟨hx, hxc⟩ := Devices.carrier_eq_some h
      rw [hs t c x hx r hr hxc hc]

/-- What holds a channel is the adopted device on it. -/
theorem Sole.deviceBoundTo_iff (hs : Sole db) : db.deviceBoundTo t c = some d ↔
    ∃ r ∈ db.rows, r.adopted = true ∧ Devices.onChannel t c r = true ∧ r.deviceId = d := by
  rw [Devices.deviceBoundTo, Option.map_eq_some_iff]
  constructor
  · rintro ⟨r, hr, hid⟩
    obtain ⟨ha, hc⟩ : r.adopted = true ∧ Devices.onChannel t c r = true := by
      simpa using List.find?_some hr
    exact ⟨r, List.mem_of_find?_eq_some hr, ha, hc, hid⟩
  · rintro ⟨r, hr, ha, hc, hid⟩
    have hfound : (db.rows.find? fun r => r.adopted && Devices.onChannel t c r).isSome = true :=
      List.find?_isSome.mpr ⟨r, hr, Bool.and_eq_true_iff.mpr ⟨ha, hc⟩⟩
    obtain ⟨x, hx⟩ := Option.isSome_iff_exists.mp hfound
    have hxc : x.adopted = true ∧ Devices.onChannel t c x = true := by
      simpa using List.find?_some hx
    obtain rfl := hs t c x (List.mem_of_find?_eq_some hx) r hr hxc.2 hc
    exact ⟨x, hx, hid⟩

variable [DecidableEq ι] {body : BindDeviceRequest ι χ}

/-- The row that a bind takes. -/
theorem Sole.matching_iff (hs : Sole db) {kind : DeviceKind} :
    db.matching d kind t c = some r ↔ r ∈ db.rows ∧ (Devices.onChannel t c r = true ∨
      (∀ x ∈ db.rows, Devices.onChannel t c x = false) ∧ kind = .sensor ∧ r.binding = none ∧
        r.kind = .sensor ∧ r.deviceId = d) := by
  unfold Devices.matching
  cases hfind : db.carrier t c with
  | some x =>
      obtain ⟨hx, hxc⟩ := hs.carrier_iff.mp hfind
      dsimp only
      rw [Option.some_inj]
      constructor
      · rintro rfl
        exact ⟨hx, .inl hxc⟩
      · rintro ⟨hr, hc | ⟨hnone, -⟩⟩
        · exact hs t c x hx r hr hxc hc
        · rw [hnone x hx] at hxc
          cases hxc
  | none =>
      have hnone : ∀ x ∈ db.rows, Devices.onChannel t c x = false :=
        Devices.carrier_eq_none hfind
      cases kind with
      | actuator =>
          refine iff_of_false (by rintro ⟨⟩) ?_
          rintro ⟨hr, hc | ⟨-, ⟨⟩, -⟩⟩
          rw [hnone r hr] at hc
          cases hc
      | sensor =>
          change db.rows.find? (fun r => decide (r.binding = none ∧ r.kind = .sensor ∧
            r.deviceId = d)) = some r ↔ _
          constructor
          · intro h
            have hp : r.binding = none ∧ r.kind = .sensor ∧ r.deviceId = d := by
              simpa using List.find?_some h
            exact ⟨List.mem_of_find?_eq_some h, .inr ⟨hnone, rfl, hp⟩⟩
          · rintro ⟨hr, hc | ⟨-, -, hp⟩⟩
            · rw [hnone r hr] at hc
              cases hc
            · have hfound : (db.rows.find? fun r => decide (r.binding = none ∧ r.kind = .sensor ∧
                  r.deviceId = d)).isSome = true :=
                List.find?_isSome.mpr ⟨r, hr, decide_eq_true hp⟩
              obtain ⟨x, hx⟩ := Option.isSome_iff_exists.mp hfound
              have hxp : x.binding = none ∧ x.kind = .sensor ∧ x.deviceId = d := by
                simpa using List.find?_some hx
              rw [hx, Devices.eq_of_deviceId (List.mem_of_find?_eq_some hx) hr
                (hxp.2.2.trans hp.2.2.symm)]

omit [DecidableEq ι] [DecidableEq χ] in
theorem devices_ext (h : db.rows = db'.rows) : db = db' := by
  cases db
  cases db'
  cases h
  rfl

omit [DecidableEq χ] in
/-- A row that is there, written again. -/
theorem update_of_mem (hr : r ∈ db.rows) : db.update r = db := by
  refine devices_ext ((List.map_congr_left fun x hx => ?_).trans (List.map_id _))
  split
  · next hid => exact Devices.eq_of_deviceId hr hx hid.symm
  · rfl

omit [DecidableEq ι] [DecidableEq χ] in
/-- To bind a row to the same again changes nothing. -/
theorem onto_onto : body.onto (body.onto r) = body.onto r := by
  simp [BindDeviceRequest.onto, DeviceRow.bind, ← Option.or_assoc]

omit [DecidableEq ι] [DecidableEq χ] in
/-- A row that was made by a bind is as the bind leaves it. -/
theorem onto_row : body.onto body.row = body.row := by
  simp [BindDeviceRequest.onto, BindDeviceRequest.row, DeviceRow.bind]

omit [DecidableEq ι] in
/-- A row that was bound is on that channel only. -/
theorem onChannel_onto : Devices.onChannel t c (body.onto r) = true ↔
    body.driverType = t ∧ body.channel = c := by
  rw [onChannel_bound driverType_onto binding_onto, key_binding]

end Channels

/-! ### What an entry does -/

section Posts
variable [DecidableEq ι] [DecidableEq χ] {blank : ν → Bool}
  {capabilities : List (CapabilitySource × χ)} {t t' : Labelled ι χ ν} {e e' : Entry ι χ ν}
  {a : Posted ι} {r : DeviceRow ι χ}

/-- An entry that the endpoint and the table let through. -/
structure Passes (blank : ν → Bool) (capabilities : List (CapabilitySource × χ))
    (t : Labelled ι χ ν) (e : Entry ι χ ν) : Prop where
  refusal : t.refusal capabilities e = none
  named : e.blankName blank = false

/-- Every way that an entry can go. -/
inductive Posts (blank : ν → Bool) (capabilities : List (CapabilitySource × χ))
    (t : Labelled ι χ ν) (e : Entry ι χ ν) : Labelled ι χ ν → Posted ι → Prop where
  | refused {why : BindRefusal ι} (hwhy : t.refusal capabilities e = some why) :
      Posts blank capabilities t e t (.error (.refused why))
  | unnamed (hpass : t.refusal capabilities e = none) (hname : e.blankName blank = true) :
      Posts blank capabilities t e t (.error .blankName)
  | takes {r : DeviceRow ι χ} (hpass : Passes blank capabilities t e) (hr : t.taken e = some r) :
      Posts blank capabilities t e (t.written e r) (.ok (r.deviceId, false))
  | creates {db : Devices ι χ} (hpass : Passes blank capabilities t e) (hr : t.taken e = none)
      (hdb : t.devices.insert e.body.row = some db) :
      Posts blank capabilities t e ⟨db, Function.update t.labels e.body.deviceId e.labels⟩
        (.ok (e.body.deviceId, true))
  | conflicts (hpass : Passes blank capabilities t e) (hr : t.taken e = none)
      (hdb : t.devices.insert e.body.row = none) :
      Posts blank capabilities t e t (.error (.refused .deviceIdConflict))

/-- What a post does is one of `Posts`. -/
theorem posts_iff : Posts blank capabilities t e t' a ↔ post blank capabilities t e = (t', a) := by
  unfold post
  constructor
  · intro h
    cases h with
    | refused hwhy => rw [hwhy]
    | unnamed hpass hname => rw [hpass, hname]; rfl
    | takes hpass hr => rw [hpass.refusal, hpass.named, hr]; rfl
    | creates hpass hr hdb => rw [hpass.refusal, hpass.named, hr, hdb]; rfl
    | conflicts hpass hr hdb => rw [hpass.refusal, hpass.named, hr, hdb]; rfl
  · intro h
    split at h
    · next hwhy =>
        cases h
        exact .refused hwhy
    · next hpass =>
        split at h
        · next hname =>
            cases h
            exact .unnamed hpass hname
        · next hname =>
            have hpass : Passes blank capabilities t e := ⟨hpass, Bool.eq_false_iff.mpr hname⟩
            split at h
            · next hr =>
                cases h
                exact .takes hpass hr
            · next hr =>
                split at h
                · next hdb =>
                    cases h
                    exact .creates hpass hr hdb
                · next hdb =>
                    cases h
                    exact .conflicts hpass hr hdb

theorem posts (blank : ν → Bool) (capabilities : List (CapabilitySource × χ))
    (t : Labelled ι χ ν) (e : Entry ι χ ν) :
    Posts blank capabilities t e (post blank capabilities t e).1 (post blank capabilities t e).2 :=
  posts_iff.mpr rfl

/-- The row that is taken is on the channel, or no row is. -/
theorem taken_channel (hr : t.taken e = some r) : r ∈ t.devices.rows ∧
    (Devices.onChannel e.body.driverType e.body.channel r = true ∨ r.binding = none ∧
      ∀ x ∈ t.devices.rows, Devices.onChannel e.body.driverType e.body.channel x = false) := by
  have h := Devices.matching_eq_some hr
  rwa [key_binding] at h

/-- Where the import takes nothing over, nothing is on the channel. -/
theorem taken_none (hr : t.taken e = none) :
    ∀ x ∈ t.devices.rows, Devices.onChannel e.body.driverType e.body.channel x = false := by
  have h := Devices.matching_eq_none hr
  rwa [key_binding] at h

/-- A post leaves no two rows on one channel. -/
theorem sole_post (hs : Sole t.devices) : Sole (post blank capabilities t e).1.devices := by
  -- a row that is written goes where no other is
  have hput : ∀ {db : Devices ι χ} {z : DeviceRow ι χ},
      (∀ {d c}, Devices.onChannel d c z = true → e.body.driverType = d ∧ e.body.channel = c) →
      (∀ x ∈ db.rows, x = z ∨ x ∈ t.devices.rows ∧
        Devices.onChannel e.body.driverType e.body.channel x = false) → Sole db := by
    intro db z hz hrows d c x hx y hy hxc hyc
    obtain rfl | ⟨hx, hxoff⟩ := hrows x hx
    · obtain rfl | ⟨hy, hyoff⟩ := hrows y hy
      · rfl
      · obtain ⟨rfl, rfl⟩ := hz hxc
        exact absurd (hyoff.symm.trans hyc) Bool.false_ne_true
    · obtain rfl | ⟨hy, hyoff⟩ := hrows y hy
      · obtain ⟨rfl, rfl⟩ := hz hyc
        exact absurd (hxoff.symm.trans hxc) Bool.false_ne_true
      · exact hs d c x hx y hy hxc hyc
  have hp := posts blank capabilities t e
  generalize (post blank capabilities t e).1 = t', (post blank capabilities t e).2 = a at hp
  cases hp with
  | refused | unnamed | conflicts => exact hs
  | @takes r hpass hr =>
      obtain ⟨hmem, hc⟩ := taken_channel hr
      refine hput (z := e.body.onto r) onChannel_onto.mp fun x hx => ?_
      obtain rfl | ⟨hx, hne⟩ := (Devices.mem_update (y := e.body.onto r) hmem rfl).mp hx
      · exact .inl rfl
      · refine .inr ⟨hx, ?_⟩
        obtain hc | ⟨-, hnone⟩ := hc
        · refine Bool.eq_false_iff.mpr fun hxc => hne ?_
          rw [hs _ _ x hx r hmem hxc hc]
        · exact hnone x hx
  | creates hpass hr hdb =>
      refine hput (z := e.body.row) ?_ fun x hx => ?_
      · intro d c hc
        rwa [onChannel_bound rfl rfl, key_binding] at hc
      · obtain rfl | hx := (Devices.mem_insert hdb).mp hx
        · exact .inl rfl
        · exact .inr ⟨hx, taken_none hr x hx⟩

/-! ### Once more -/

omit [DecidableEq ι] [DecidableEq χ] in
/-- Labels that are there already change nothing. -/
theorem over_self (l : Labels ν) : l.over l = l := by
  simp [Labels.over]

omit [DecidableEq ι] [DecidableEq χ] in
/-- Nor do they the second time. -/
theorem over_over (l old : Labels ν) : l.over (l.over old) = l.over old := by
  simp [Labels.over, ← Option.or_assoc]

/-- A bind that passed is refused for a holder, or passes again. -/
theorem bindRefusal_some {body : BindDeviceRequest ι χ} {holder : Option ι} {d : ι}
    (hpass : bindRefusal capabilities holder body = none) :
    bindRefusal capabilities (some d) body =
      if body.kind = .actuator ∧ d ≠ body.deviceId then some (.channelBound d) else none := by
  unfold bindRefusal at hpass ⊢
  by_cases hcap : (body.driverType.source, body.channel) ∉ capabilities
  · rw [if_pos hcap] at hpass
    cases hpass
  · rw [if_neg hcap] at hpass ⊢
    have hfilter : (some d).filter (· ≠ body.deviceId) =
        if d ≠ body.deviceId then some d else none := by
      simp [Option.filter]
    rw [hfilter]
    generalize holder.filter (· ≠ body.deviceId) = h at hpass
    cases hk : body.kind with
    | sensor =>
        rw [hk] at hpass
        cases h <;> simpa using hpass
    | actuator =>
        rw [hk] at hpass
        cases h with
        | some h => cases hpass
        | none =>
            by_cases hd : d = body.deviceId
            · simpa [hd] using hpass
            · simp [hd]

/-- A device that is on the channel of an entry, as the entry would have it. -/
theorem post_of_bound {z : DeviceRow ι χ} {holder : Option ι} {created : Bool}
    (hs : Sole t.devices) (hz : z ∈ t.devices.rows)
    (hc : Devices.onChannel e.body.driverType e.body.channel z = true) (hadopted : z.adopted = true)
    (honto : e.body.onto z = z)
    (hlabels : e.labels.over (t.labels z.deviceId) = t.labels z.deviceId)
    (hpass : bindRefusal capabilities holder e.body = none) (hname : e.blankName blank = false) :
    post blank capabilities t e = (t, again e (.ok (z.deviceId, created))) := by
  have hbound : t.devices.deviceBoundTo e.body.driverType e.body.channel = some z.deviceId :=
    hs.deviceBoundTo_iff.mpr ⟨z, hz, hadopted, hc, rfl⟩
  have hrefusal : t.refusal capabilities e = if e.body.kind = .actuator ∧
      z.deviceId ≠ e.body.deviceId then some (.channelBound z.deviceId) else none := by
    rw [Labelled.refusal, hbound]
    exact bindRefusal_some hpass
  by_cases hother : e.body.kind = .actuator ∧ z.deviceId ≠ e.body.deviceId
  · rw [if_pos hother] at hrefusal
    rw [again, if_pos hother]
    exact posts_iff.mp (.refused hrefusal)
  · rw [if_neg hother] at hrefusal
    rw [again, if_neg hother]
    have htaken : t.taken e = some z := by
      rw [Labelled.taken, hs.matching_iff, key_binding]
      exact ⟨hz, .inl hc⟩
    have hwritten : t.written e z = t := by
      rw [Labelled.written, honto, update_of_mem hz, hlabels, Function.update_eq_self]
    have hposts := Posts.takes ⟨hrefusal, hname⟩ htaken
    rw [hwritten] at hposts
    exact posts_iff.mp hposts

/-- **An entry posted again** changes nothing. -/
theorem post_again (hs : Sole t.devices) :
    post blank capabilities (post blank capabilities t e).1 e =
    ((post blank capabilities t e).1, again e (post blank capabilities t e).2) := by
  have hs' : Sole (post blank capabilities t e).1.devices := sole_post hs
  have hp := posts blank capabilities t e
  generalize (post blank capabilities t e).1 = t', (post blank capabilities t e).2 = a at hp hs'
  cases hp with
  | refused hwhy => exact posts_iff.mp (.refused hwhy)
  | unnamed hpass hname => exact posts_iff.mp (.unnamed hpass hname)
  | conflicts hpass hr hdb => exact posts_iff.mp (.conflicts hpass hr hdb)
  | @takes r hpass hr =>
      have hmem := (taken_channel hr).1
      refine post_of_bound (z := e.body.onto r) hs' ?_ ?_ rfl onto_onto ?_ hpass.refusal hpass.named
      · exact (Devices.mem_update (y := e.body.onto r) hmem rfl).mpr (.inl rfl)
      · exact onChannel_onto.mpr ⟨rfl, rfl⟩
      · change e.labels.over (Function.update t.labels r.deviceId _ r.deviceId) =
          Function.update t.labels r.deviceId _ r.deviceId
        rw [Function.update_self]
        exact over_over _ _
  | creates hpass hr hdb =>
      refine post_of_bound (z := e.body.row) hs' ?_ ?_ rfl onto_row ?_ hpass.refusal hpass.named
      · exact (Devices.mem_insert hdb).mpr (.inl rfl)
      · rw [onChannel_bound rfl rfl, key_binding]
        exact ⟨rfl, rfl⟩
      · change e.labels.over (Function.update t.labels e.body.deviceId e.labels e.body.deviceId) =
          Function.update t.labels e.body.deviceId e.labels e.body.deviceId
        rw [Function.update_self]
        exact over_self _

/-! ### The others -/

/-- The row of a device written, which is on another channel than the entry's. -/
structure Elsewhere (e : Entry ι χ ν) (d : ι) (t t' : Labelled ι χ ν) : Prop where
  others : ∀ x, x.deviceId ≠ d → (x ∈ t'.devices.rows ↔ x ∈ t.devices.rows)
  before : ∀ x ∈ t.devices.rows, x.deviceId = d →
    Devices.onChannel e.body.driverType e.body.channel x = false
  after : ∀ x ∈ t'.devices.rows, x.deviceId = d →
    Devices.onChannel e.body.driverType e.body.channel x = false ∧ x.binding ≠ none
  written : ∃ x ∈ t'.devices.rows, x.deviceId = d
  labels : ∀ d', d' ≠ d → t'.labels d' = t.labels d'

omit [DecidableEq ι] in
/-- What is on the channel is as it was. -/
theorem Elsewhere.on_iff {d : ι} {x : DeviceRow ι χ} (h : Elsewhere e d t t') :
    x ∈ t'.devices.rows ∧ Devices.onChannel e.body.driverType e.body.channel x = true ↔
      x ∈ t.devices.rows ∧ Devices.onChannel e.body.driverType e.body.channel x = true := by
  by_cases hid : x.deviceId = d
  · constructor
    · rintro ⟨hx, hc⟩
      exact absurd ((h.after x hx hid).1.symm.trans hc) Bool.false_ne_true
    · rintro ⟨hx, hc⟩
      exact absurd ((h.before x hx hid).symm.trans hc) Bool.false_ne_true
  · rw [h.others x hid]

variable (capabilities t) in
/-- Another entry leaves all as it is, or writes a row elsewhere. -/
theorem elsewhere_post (hkey : e.key ≠ e'.key) : (post blank capabilities t e').1 = t ∨
    ∃ d, Elsewhere e d t (post blank capabilities t e').1 := by
  have hoff : ∀ {x : DeviceRow ι χ},
      (∀ {d c}, Devices.onChannel d c x = true → e'.body.driverType = d ∧ e'.body.channel = c) →
      Devices.onChannel e.body.driverType e.body.channel x = false := by
    intro x hx
    refine Bool.eq_false_iff.mpr fun hc => hkey ?_
    obtain ⟨hd, hch⟩ := hx hc
    exact Prod.ext hd.symm hch.symm
  have hp := posts blank capabilities t e'
  generalize (post blank capabilities t e').1 = t', (post blank capabilities t e').2 = a at hp
  cases hp with
  | refused | unnamed | conflicts => exact .inl rfl
  | @takes r hpass hr =>
      obtain ⟨hmem, hc⟩ := taken_channel hr
      have hrows : ∀ {x}, x ∈ (t.devices.update (e'.body.onto r)).rows ↔
          x = e'.body.onto r ∨ x ∈ t.devices.rows ∧ x.deviceId ≠ r.deviceId :=
        Devices.mem_update (y := e'.body.onto r) hmem rfl
      refine .inr ⟨r.deviceId, fun x hid => ?_, fun x hx hid => ?_, fun x hx hid => ?_,
        ⟨_, hrows.mpr (.inl rfl), rfl⟩, fun d' hd' => Function.update_of_ne hd' _ _⟩
      · refine hrows.trans ⟨fun hx => ?_, fun hx => .inr ⟨hx, hid⟩⟩
        obtain rfl | hx := hx
        · exact absurd rfl hid
        · exact hx.1
      · obtain rfl := Devices.eq_of_deviceId hx hmem hid
        obtain hc | ⟨hunbound, -⟩ := hc
        · refine hoff fun hxc => ?_
          obtain ⟨hd, hb⟩ := onChannel_iff.mp hc
          obtain ⟨hd', hb'⟩ := onChannel_iff.mp hxc
          exact ⟨Option.some.inj (hd.symm.trans hd'), Option.some.inj (hb.symm.trans hb')⟩
        · simp [Devices.onChannel, hunbound]
      · obtain rfl | hx := hrows.mp hx
        · exact ⟨hoff onChannel_onto.mp, Option.some_ne_none _⟩
        · exact absurd hid hx.2
  | creates hpass hr hdb =>
      have hrows : ∀ {x}, x ∈ _ ↔ x = e'.body.row ∨ x ∈ t.devices.rows := Devices.mem_insert hdb
      have hnew : ∀ x ∈ t.devices.rows, x.deviceId ≠ e'.body.deviceId := by
        refine Devices.find_eq_none_iff.mp ?_
        by_contra hne
        rw [Devices.insert_eq_none_iff.mpr hne] at hdb
        cases hdb
      refine .inr ⟨e'.body.deviceId, fun x hid => ?_, fun x hx hid => absurd hid (hnew x hx),
        fun x hx hid => ?_, ⟨_, hrows.mpr (.inl rfl), rfl⟩,
        fun d' hd' => Function.update_of_ne hd' _ _⟩
      · refine hrows.trans ⟨fun hx => ?_, .inr⟩
        obtain rfl | hx := hx
        · exact absurd rfl hid
        · exact hx
      · obtain rfl | hx := hrows.mp hx
        · refine ⟨hoff fun hc => ?_, Option.some_ne_none _⟩
          rwa [onChannel_bound rfl rfl, key_binding] at hc
        · exact absurd hid (hnew x hx)

/-- **An entry that changes nothing** still changes nothing after one of another channel. -/
theorem post_stays (hs : Sole t.devices) (hkey : e.key ≠ e'.key)
    (h : post blank capabilities t e = (t, a)) :
    post blank capabilities (post blank capabilities t e').1 e =
      ((post blank capabilities t e').1, a) := by
  have hs' : Sole (post blank capabilities t e').1.devices := sole_post hs
  obtain heq | ⟨d, helse⟩ := elsewhere_post capabilities t hkey
  · rw [heq, h]
  generalize (post blank capabilities t e').1 = t' at hs' helse
  have hrefusal : t'.refusal capabilities e = t.refusal capabilities e := by
    have hbound : t'.devices.deviceBoundTo e.body.driverType e.body.channel =
        t.devices.deviceBoundTo e.body.driverType e.body.channel := by
      refine Option.ext fun d' => ?_
      rw [hs'.deviceBoundTo_iff, hs.deviceBoundTo_iff]
      constructor
      · rintro ⟨r, hr, ha, hc, hid⟩
        have hon := helse.on_iff.mp ⟨hr, hc⟩
        exact ⟨r, hon.1, ha, hon.2, hid⟩
      · rintro ⟨r, hr, ha, hc, hid⟩
        have hon := helse.on_iff.mpr ⟨hr, hc⟩
        exact ⟨r, hon.1, ha, hon.2, hid⟩
    rw [Labelled.refusal, hbound, Labelled.refusal]
  obtain ⟨t₁, hsame, hp⟩ : ∃ t₁, t₁ = t ∧ Posts blank capabilities t e t₁ a :=
    ⟨t, rfl, posts_iff.mpr h⟩
  cases hp with
  | refused hwhy => exact posts_iff.mp (.refused (hrefusal.trans hwhy))
  | unnamed hpass hname => exact posts_iff.mp (.unnamed (hrefusal.trans hpass) hname)
  | @takes r hpass hr =>
      obtain ⟨hmem, hc⟩ := taken_channel hr
      have hin : e.body.onto r ∈ t.devices.rows := by
        rw [← hsame]
        exact (Devices.mem_update (y := e.body.onto r) hmem rfl).mpr (.inl rfl)
      have honto : e.body.onto r = r := Devices.eq_of_deviceId hin hmem rfl
      have hon : Devices.onChannel e.body.driverType e.body.channel r = true := by
        rw [← honto]
        exact onChannel_onto.mpr ⟨rfl, rfl⟩
      obtain ⟨hmem', -⟩ := helse.on_iff.mpr ⟨hmem, hon⟩
      have hid : r.deviceId ≠ d := fun hid =>
        absurd ((helse.before r hmem hid).symm.trans hon) Bool.false_ne_true
      have hlabels : e.labels.over (t.labels r.deviceId) = t.labels r.deviceId := by
        have hat : Function.update t.labels r.deviceId (e.labels.over (t.labels r.deviceId))
            r.deviceId = t.labels r.deviceId :=
          congrFun (congrArg Labelled.labels hsame) r.deviceId
        rwa [Function.update_self] at hat
      have htaken : t'.taken e = some r := by
        rw [Labelled.taken, hs'.matching_iff, key_binding]
        exact ⟨hmem', .inl hon⟩
      have hwritten : t'.written e r = t' := by
        rw [Labelled.written, honto, update_of_mem hmem', helse.labels _ hid, hlabels,
          ← helse.labels _ hid, Function.update_eq_self]
      have hposts := Posts.takes ⟨hrefusal.trans hpass.refusal, hpass.named⟩ htaken
      rw [hwritten] at hposts
      exact posts_iff.mp hposts
  | @creates db hpass hr hdb =>
      have hrow : e.body.row ∈ t.devices.rows := by
        rw [← hsame]
        exact (Devices.mem_insert hdb).mpr (.inl rfl)
      have hfind : t.devices.find e.body.row.deviceId ≠ none := fun hnone =>
        Devices.find_eq_none_iff.mp hnone _ hrow rfl
      rw [Devices.insert_eq_none_iff.mpr hfind] at hdb
      cases hdb
  | conflicts hpass hr hdb =>
      have hnone := taken_none hr
      have htaken : t'.taken e = none := by
        refine Option.eq_none_iff_forall_ne_some.mpr fun x hx => ?_
        rw [Labelled.taken, hs'.matching_iff, key_binding] at hx
        obtain ⟨hmem, hc | ⟨-, hkind, hunbound, hsensor, hid⟩⟩ := hx
        · obtain ⟨hmem, hc⟩ := helse.on_iff.mp ⟨hmem, hc⟩
          exact absurd ((hnone x hmem).symm.trans hc) Bool.false_ne_true
        · have hne : x.deviceId ≠ d := fun hd => (helse.after x hmem hd).2 hunbound
          have hold : t.taken e = some x := by
            rw [Labelled.taken, hs.matching_iff, key_binding]
            exact ⟨(helse.others x hne).mp hmem, .inr ⟨hnone, hkind, hunbound, hsensor, hid⟩⟩
          rw [hr] at hold
          cases hold
      refine posts_iff.mp (.conflicts ⟨hrefusal.trans hpass.refusal, hpass.named⟩ htaken ?_)
      refine Devices.insert_eq_none_iff.mpr fun hfind => ?_
      refine Devices.insert_eq_none_iff.mp hdb (Devices.find_eq_none_iff.mpr fun x hx hid => ?_)
      by_cases hd : x.deviceId = d
      · obtain ⟨z, hz, hzd⟩ := helse.written
        exact Devices.find_eq_none_iff.mp hfind z hz (hzd.trans (hd.symm.trans hid))
      · exact Devices.find_eq_none_iff.mp hfind x ((helse.others x hd).mpr hx) hid

/-- **A file imported again** changes nothing, where it names each channel once; and each entry is
answered as before, but that a device brought back for a PWM channel now holds it. -/
theorem import_again {es : List (Entry ι χ ν)} (hone : OnePerChannel t.devices)
    (hes : (es.map Entry.key).Nodup) :
    postBindings blank capabilities (postBindings blank capabilities t es).1 es =
      ((postBindings blank capabilities t es).1,
        List.zipWith again es (postBindings blank capabilities t es).2) :=
  Rerun.rerun (I := fun t : Labelled ι χ ν => Sole t.devices)
    (fun _ _ => sole_post) (fun _ _ => post_again) (fun _ _ _ _ => post_stays)
    (sole_of_onePerChannel hone) (List.pairwise_map.mp hes)

end Posts

/-! ### A released light -/

theorem released_bound : false = true → (some DriverType.piPwm).isSome ∧
    (some (Binding.channel 0)).isSome := fun _ => ⟨rfl, rfl⟩

theorem nodup_released {r : DeviceRow ℕ ℕ} : ([r].map DeviceRow.deviceId).Nodup :=
  List.nodup_singleton _

/-- A light that was released, and has no name. -/
def released : Labelled ℕ ℕ ℕ :=
  ⟨⟨[⟨1, .actuator, some .light, some .piPwm, some (.channel 0), false, released_bound⟩],
    nodup_released⟩, fun _ => ⟨none, none⟩⟩

theorem onePerChannel_released : OnePerChannel released.devices :=
  ⟨fun _ _ => List.length_filter_le _ _, fun _ _ => List.length_filter_le _ _⟩

theorem five_pos : ∀ p ∈ some (5 : ℚ), 0 < p := interval_pos (by norm_num)

/-- Another light on its channel, and a probe. -/
def twoEntries : List (Entry ℕ ℕ ℕ) :=
  [⟨⟨0, .piPwm, 0, some .light, none, light_role, no_interval⟩, some 10, none⟩,
    ⟨⟨2, .ds18b20, 7, none, some 5, no_role, five_pos⟩, none, some 20⟩]

/-- A light's channel and a probe. -/
def twoChannels : List (CapabilitySource × ℕ) := [(.piPwm, 0), (.w1Bus, 7)]

/-- The name `0` stands for blanks. -/
def blankZero (name : ℕ) : Bool := name == 0

/-- The released light is brought back, and the second import is told that it holds the channel. -/
theorem import_again_released :
    (postBindings blankZero twoChannels released twoEntries).2 = [.ok (1, false), .ok (2, true)] ∧
    postBindings blankZero twoChannels (postBindings blankZero twoChannels released twoEntries).1
        twoEntries =
      ((postBindings blankZero twoChannels released twoEntries).1,
        [.error (.refused (.channelBound 1)), .ok (2, false)]) := by
  have hanswers : (postBindings blankZero twoChannels released twoEntries).2 =
      [.ok (1, false), .ok (2, true)] := rfl
  refine ⟨hanswers, ?_⟩
  rw [import_again onePerChannel_released (by decide), hanswers]
  rfl

end BellasReef.Api.Seeding
