import BellasReef.Api.Interleaving
import BellasReef.Support.DecimalText
import BellasReef.Support.Mirror
import Mathlib.Data.Char
import Mathlib.Data.List.AList
import Mathlib.Data.List.Lex

/-!
# Api — Capabilities

What the hub's hardware can offer, as the API has it: the `capabilities` table (`store.py`), its
consumer (`registry.py`), and the listing that the app binds from.

* `capabilities_follow`: of each source the table has what it had, or all of one announcement, and
  never goes back to an earlier one; it has the last one where none is to come and its store did not
  fail; and an API that starts again can bring it there.
* `chips_follow`: the same of each chip's state.
* `listing_agrees`: the listing has each capability once, in natural order and with the device that
  holds it; and a bind finds no capability, or finds it bound, exactly as the listing says.
-/

namespace BellasReef.Api
open BellasReef.Contracts BellasReef.Support

/-! ### The table -/

/-- A row of `capabilities`. -/
structure CapabilityRow (δ : Type) where
  source : CapabilitySource
  channel : Text
  detail : δ
  announcedAt : ℚ
  deriving DecidableEq

/-- The primary key. -/
def CapabilityRow.key {δ : Type} (r : CapabilityRow δ) : CapabilitySource × Text :=
  (r.source, r.channel)

/-- The table; `(source, channel)` is unique. -/
structure Capabilities (δ : Type) where
  rows : List (CapabilityRow δ)
  unique : (rows.map CapabilityRow.key).Nodup

namespace Capabilities
variable {δ : Type}

/-- `SELECT 1 ... WHERE source = :source AND channel = :channel`. -/
def find (t : Capabilities δ) (source : CapabilitySource) (channel : Text) :
    Option (CapabilityRow δ) :=
  t.rows.find? (·.key = (source, channel))

/-- `capability_exists`. -/
def capabilityExists (t : Capabilities δ) (source : CapabilitySource) (channel : Text) : Bool :=
  (t.find source channel).isSome

/-- `DELETE ... WHERE source = :source AND channel <> ALL(:keep)`. -/
def deleteGone (t : Capabilities δ) (source : CapabilitySource) (keep : List Text) :
    Capabilities δ where
  rows := t.rows.filter fun r => ¬ (r.source = source ∧ ∀ c ∈ keep, r.channel ≠ c)
  unique := t.unique.sublist (List.filter_sublist.map _)

/-- `DELETE ... WHERE source = :source`. -/
def deleteSource (t : Capabilities δ) (source : CapabilitySource) : Capabilities δ where
  rows := t.rows.filter fun r => r.source ≠ source
  unique := t.unique.sublist (List.filter_sublist.map _)

/-- `SET detail = EXCLUDED.detail, announced_at = EXCLUDED.announced_at`, on the row of that key. -/
def updated (new r : CapabilityRow δ) : CapabilityRow δ := if r.key = new.key then new else r

/-- An update in place keeps the keys. -/
theorem map_key_updated (new : CapabilityRow δ) (rows : List (CapabilityRow δ)) :
    (rows.map (updated new)).map CapabilityRow.key = rows.map CapabilityRow.key := by
  rw [List.map_map]
  refine List.map_congr_left fun r _ => ?_
  rw [Function.comp_apply, updated]
  split
  · next h => exact h.symm
  · rfl

theorem nodup_inserted {new : CapabilityRow δ} {rows : List (CapabilityRow δ)}
    (h : (rows.map CapabilityRow.key).Nodup) (hnew : new.key ∉ rows.map CapabilityRow.key) :
    ((rows ++ [new]).map CapabilityRow.key).Nodup := by
  rw [List.map_append]
  refine h.append (List.nodup_singleton _) ?_
  intro k hk hk'
  exact hnew (List.mem_singleton.mp hk' ▸ hk)

/-- `INSERT ... ON CONFLICT (source, channel) DO UPDATE`. -/
def upsert (t : Capabilities δ) (new : CapabilityRow δ) : Capabilities δ :=
  if h : new.key ∈ t.rows.map CapabilityRow.key then
    ⟨t.rows.map (updated new), (map_key_updated new t.rows).symm ▸ t.unique⟩
  else ⟨t.rows ++ [new], nodup_inserted t.unique h⟩

/-- The loop over the channels; `now` reads the clock for each. -/
def insertAll (source : CapabilitySource) :
    List (Text × δ) → (ℕ → ℚ) → Capabilities δ → Capabilities δ
  | [], _, t => t
  | (channel, detail) :: channels, now, t =>
      insertAll source channels (fun i => now (i + 1)) (t.upsert ⟨source, channel, detail, now 0⟩)

/-- `replace_capabilities`: one transaction. -/
def replace (t : Capabilities δ) (source : CapabilitySource) (channels : List (Text × δ))
    (now : ℕ → ℚ) : Capabilities δ :=
  insertAll source channels now
    (if channels ≠ [] then t.deleteGone source (channels.map Prod.fst) else t.deleteSource source)

/-- What the source offers, by channel. -/
def offers (t : Capabilities δ) (source : CapabilitySource) (channel : Text) : Option δ :=
  (t.find source channel).map CapabilityRow.detail

end Capabilities

/-- A message on `bellasreef.capability.<source>`: its channels, if it validates. -/
structure CapabilityMessage (δ : Type) where
  source : CapabilitySource
  channels : Option (List (Text × δ))
  deriving DecidableEq

/-- What a list of channels says of one: the last entry counts. -/
def lastDetail {δ : Type} (channels : List (Text × δ)) (channel : Text) : Option δ :=
  (last Prod.fst channel channels).map Prod.snd

section Table
variable {δ : Type} {t : Capabilities δ} {r new : CapabilityRow δ} {source s : CapabilitySource}
  {channel c : Text} {channels : List (Text × δ)} {now : ℕ → ℚ}

/-- A key finds the one row that it is of. -/
theorem Capabilities.find_eq_some_iff :
    t.find source channel = some r ↔ r ∈ t.rows ∧ r.key = (source, channel) :=
  find_key_eq_some_iff t.unique

/-- To delete rows finds the others as before. -/
theorem find_filter (p : CapabilityRow δ → Bool) {h : ((t.rows.filter p).map CapabilityRow.key).Nodup} :
    (Capabilities.mk (t.rows.filter p) h).find source channel = (t.find source channel).filter p := by
  apply Option.ext
  intro r
  rw [Capabilities.find_eq_some_iff, Option.filter_eq_some_iff, Capabilities.find_eq_some_iff,
    List.mem_filter]
  tauto

/-- An upsert replaces the row of its key. -/
theorem find_upsert : (t.upsert new).find source channel =
    if new.key = (source, channel) then some new else t.find source channel := by
  apply Option.ext
  intro r
  rw [Capabilities.find_eq_some_iff, Capabilities.upsert]
  split
  · -- the row of that key is replaced
    next hmem =>
      obtain ⟨old, hold, hkey⟩ := List.mem_map.mp hmem
      rw [List.mem_map]
      split
      · next hnew =>
          constructor
          · rintro ⟨⟨x, hx, rfl⟩, hk⟩
            unfold Capabilities.updated at hk ⊢
            split at hk
            · next he => rw [if_pos he]
            · next he => exact absurd (hk.trans hnew.symm) he
          · rintro ⟨⟩
            exact ⟨⟨old, hold, if_pos hkey⟩, hnew⟩
      · next hnew =>
          rw [Capabilities.find_eq_some_iff]
          constructor
          · rintro ⟨⟨x, hx, rfl⟩, hk⟩
            unfold Capabilities.updated at hk ⊢
            split at hk
            · exact absurd hk hnew
            · next he => rw [if_neg he]; exact ⟨hx, hk⟩
          · rintro ⟨hr, hk⟩
            exact ⟨⟨r, hr, if_neg fun he => hnew (he.symm.trans hk)⟩, hk⟩
  · next hmem =>
      rw [List.mem_append, List.mem_singleton]
      split
      · next hnew =>
          constructor
          · rintro ⟨hr | rfl, hk⟩
            · exact absurd (List.mem_map.mpr ⟨r, hr, hk.trans hnew.symm⟩) hmem
            · rfl
          · rintro ⟨⟩
            exact ⟨.inr rfl, hnew⟩
      · next hnew =>
          rw [Capabilities.find_eq_some_iff]
          constructor
          · rintro ⟨hr | rfl, hk⟩
            · exact ⟨hr, hk⟩
            · exact absurd hk hnew
          · rintro ⟨hr, hk⟩
            exact ⟨.inl hr, hk⟩

/-- After an upsert the channel is offered with its new detail. -/
theorem offers_upsert : (t.upsert new).offers s c =
    if new.source = s ∧ new.channel = c then some new.detail else t.offers s c := by
  rw [Capabilities.offers, find_upsert, CapabilityRow.key]
  by_cases h : new.source = s ∧ new.channel = c
  · rw [if_pos (Prod.ext h.1 h.2), if_pos h]
    rfl
  · rw [if_neg fun he => h (Prod.mk.inj he), if_neg h]
    rfl

/-- A later mention of a channel overrides an earlier. -/
theorem lastDetail_cons {detail : δ} : lastDetail ((channel, detail) :: channels) c =
    (lastDetail channels c).or (if channel = c then some detail else none) := by
  rw [lastDetail, lastDetail, last_cons, Option.map_or]
  congr 1
  by_cases h : channel = c <;> simp [h]

/-- The inserts of a message leave each of its channels with its last detail. -/
theorem offers_insertAll : (Capabilities.insertAll source channels now t).offers s c =
    if source = s then (lastDetail channels c).or (t.offers s c) else t.offers s c := by
  induction channels generalizing t now with
  | nil =>
      rw [Capabilities.insertAll, lastDetail]
      split <;> rfl
  | cons entry channels ih =>
      obtain ⟨channel, detail⟩ := entry
      rw [Capabilities.insertAll, ih, offers_upsert]
      by_cases hs : source = s
      · rw [if_pos hs, if_pos hs, lastDetail_cons, Option.or_assoc]
        by_cases hc : channel = c <;> simp [hs, hc]
      · rw [if_neg hs, if_neg hs, if_neg fun h => hs h.1]

/-- A channel has no detail if the message does not name it. -/
theorem lastDetail_eq_none_iff : lastDetail channels c = none ↔ c ∉ channels.map Prod.fst := by
  rw [lastDetail, Option.map_eq_none_iff, last_eq_none_iff, List.mem_map]
  constructor
  · rintro h ⟨m, hm, he⟩
    exact h m hm he
  · exact fun h m hm he => h ⟨m, hm, he⟩

/-- **A source's announcement** replaces what it offered, and nothing of another's. -/
theorem offers_replace : (t.replace source channels now).offers s c =
    if source = s then lastDetail channels c else t.offers s c := by
  rw [Capabilities.replace, offers_insertAll]
  by_cases hs : source = s
  · rw [if_pos hs, if_pos hs]
    subst hs
    split
    · cases hd : lastDetail channels c with
      | some d => rfl
      | none =>
          -- a channel that is not kept is gone
          have hgone := lastDetail_eq_none_iff.mp hd
          rw [Option.none_or, Capabilities.offers, Capabilities.deleteGone, find_filter,
            Option.map_eq_none_iff, Option.filter_eq_none_iff]
          intro r hr
          obtain ⟨rfl, rfl⟩ := Prod.mk.inj (Capabilities.find_eq_some_iff.mp hr).2
          simpa using fun d hd => hgone (List.mem_map.mpr ⟨_, hd, rfl⟩)
    · next hnil =>
        obtain rfl : channels = [] := not_not.mp hnil
        rw [Capabilities.offers, Capabilities.deleteSource, find_filter]
        refine (congrArg _ ?_).trans (Option.or_none ..)
        rw [Option.map_eq_none_iff, Option.filter_eq_none_iff]
        intro r hr
        obtain ⟨rfl, rfl⟩ := Prod.mk.inj (Capabilities.find_eq_some_iff.mp hr).2
        simp
  · rw [if_neg hs, if_neg hs]
    have hkeep : ∀ p : CapabilityRow δ → Bool, (∀ r, r.source ≠ source → p r = true) →
        ((t.find s c).filter p).map CapabilityRow.detail = t.offers s c := by
      intro p hp
      rw [Capabilities.offers]
      congr 1
      cases hr : t.find s c with
      | none => rfl
      | some r =>
          obtain ⟨rfl, -⟩ := Prod.mk.inj (Capabilities.find_eq_some_iff.mp hr).2
          exact Option.filter_some_pos (hp r (Ne.symm hs))
    split
    · rw [Capabilities.offers, Capabilities.deleteGone, find_filter]
      exact hkeep _ fun r hr => by simp [hr]
    · rw [Capabilities.offers, Capabilities.deleteSource, find_filter]
      exact hkeep _ fun r hr => by simp [hr]

/-! ### The consumer -/

/-- `_on_message`, up to its `ack`; `none` where the message does not validate. -/
def CapabilityMessage.store (now : ℕ → ℚ) (t : Capabilities δ) (m : CapabilityMessage δ) :
    Option (Capabilities δ) :=
  m.channels.map fun channels => t.replace m.source channels now

/-- **What a message leaves**: its channels, and no others of its source. -/
theorem offers_store (now : ℕ → ℚ) (t : Capabilities δ) (m : CapabilityMessage δ)
    (t' : Capabilities δ) (h : m.store now t = some t') (s : CapabilitySource) :
    t'.offers s = if m.source = s then lastDetail (m.channels.getD []) else t.offers s := by
  obtain ⟨channels, hc, rfl⟩ := Option.map_eq_some_iff.mp h
  funext c
  rw [offers_replace, hc, Option.getD_some]
  split <;> rfl

end Table

/-- `CapabilityConsumer`: it subscribes to the last message of each subject. -/
def capabilityConsumer (δ : Type) :
    LastWins CapabilitySource (CapabilityMessage δ) (Capabilities δ) (Text → Option δ) (ℕ → ℚ) where
  key := CapabilityMessage.source
  take := CapabilityMessage.store
  view := Capabilities.offers
  value := fun m => lastDetail (m.channels.getD [])
  view_take := offers_store

section Consumer
variable {δ : Type} {table : Capabilities δ}
variable {s : Mirror (CapabilityMessage δ) (Capabilities δ)}
variable {n : MirrorNotes CapabilitySource (CapabilityMessage δ)}

/-- All of what an announcement says is what the table has of its source. -/
def Offered (t : Capabilities δ) (m : Sent (CapabilityMessage δ)) : Prop :=
  ∃ channels, m.body.channels = some channels ∧ t.offers m.body.source = lastDetail channels

/-- What the table has, of what it had at first. -/
structure CapabilitiesFollow (table : Capabilities δ)
    (s : Mirror (CapabilityMessage δ) (Capabilities δ))
    (n : MirrorNotes CapabilitySource (CapabilityMessage δ)) : Prop where
  /-- Of each source, what it had, or an announcement. -/
  whole : ∀ source, s.store.offers source = table.offers source ∧ n.shown source = 0 ∨
    ∃ m ∈ n.log, m.body.source = source ∧ m.seq = n.shown source ∧ Offered s.store m
  /-- The last announcement, where none is to come and it did not fail. -/
  settled : ∀ d, s.reader = some d → ∀ m ∈ s.retained,
    (∀ x ∈ d.pending, x.body.source ≠ m.body.source) → m.body.source ∉ n.failed →
      Offered s.store m
  /-- Never an earlier one again. -/
  forward : ∀ bs s' n', (mirror (capabilityConsumer δ)).Run (s, n) bs (s', n') →
    ∀ source, n.shown source ≤ n'.shown source
  /-- An API that starts again can have the last announcement of each. -/
  heals : (∀ m ∈ s.retained, m.body.channels.isSome) → ∃ bs s' n',
    (mirror (capabilityConsumer δ)).Run (s, n) bs (s', n') ∧ s'.retained = s.retained ∧
      ∀ m ∈ s.retained, Offered s'.store m

/-- A message that was taken is what the source offers. -/
theorem offered_of_taken {t : Capabilities δ} {m : Sent (CapabilityMessage δ)}
    (ht : (capabilityConsumer δ).Taken m)
    (h : t.offers m.body.source = lastDetail (m.body.channels.getD [])) : Offered t m := by
  obtain ⟨now, t₀, t₁, htake⟩ := ht
  obtain ⟨channels, hc, -⟩ := Option.map_eq_some_iff.mp htake
  refine ⟨channels, hc, ?_⟩
  rw [h, hc, Option.getD_some]

/-- **The table follows the announcements.** -/
theorem capabilities_follow {as : List (MirrorAction CapabilitySource (CapabilityMessage δ) (ℕ → ℚ))}
    (h : (mirror (capabilityConsumer δ)).Run (.start table, .start) as (s, n)) :
    CapabilitiesFollow table s n := by
  have hm := mirrored h
  have hf := follows_run h
  have hlast : ∀ {m}, m ∈ s.retained →
      last (capabilityConsumer δ).sentKey m.body.source s.retained = some m :=
    fun hmem => (last_eq_some_iff hf.unique).mpr ⟨hmem, rfl⟩
  refine ⟨fun source => ?_, fun d hd m hmem hnone hfailed => ?_, fun bs s' n' h' =>
    Mirror.forward h h', fun hvalid => ?_⟩
  · refine (hm.whole source).imp_right ?_
    rintro ⟨m, hmem, htaken, rfl, hseq, hview⟩
    exact ⟨m, hmem, rfl, hseq, offered_of_taken htaken hview⟩
  · obtain ⟨htaken, hview⟩ := hm.settled d hd m.body.source m (hlast hmem)
      (last_eq_none_iff.mpr hnone) hfailed
    exact offered_of_taken htaken hview
  · obtain ⟨bs, s', n', hrun, hret, hview⟩ := Mirror.heals h (fun _ => 0) fun m hmem t => by
      obtain ⟨channels, hc⟩ := Option.isSome_iff_exists.mp (hvalid m hmem)
      exact Option.isSome_iff_exists.mpr ⟨_, Option.map_eq_some_iff.mpr ⟨channels, hc, rfl⟩⟩
    refine ⟨bs, s', n', hrun, hret, fun m hmem => ?_⟩
    obtain ⟨channels, hc⟩ := Option.isSome_iff_exists.mp (hvalid m hmem)
    refine ⟨channels, hc, (hview m.body.source m (hlast hmem)).trans ?_⟩
    change lastDetail (m.body.channels.getD []) = _
    rw [hc, Option.getD_some]

end Consumer

/-- Two channels are announced and stored, then one, which the store fails; the API starts again, and
is sent it twice. -/
def announcedTwice : List (MirrorAction CapabilitySource (CapabilityMessage ℕ) (ℕ → ℚ)) :=
  [.subscribe, .publish ⟨.piPwm, some [(['0'], 12), (['1'], 13)]⟩, .deliver 1,
    .handle (some fun _ => 0), .publish ⟨.piPwm, some [(['0'], 18)]⟩, .deliver 1, .handle none, .stop,
    .subscribe, .deliver 1, .handle (some fun _ => 60), .redeliver .piPwm, .deliver 1, .handle none]

theorem noCapability_nodup :
    (([] : List (CapabilityRow ℕ)).map CapabilityRow.key).Nodup := List.nodup_nil

/-- A table that nothing was announced in. -/
def noCapabilities : Capabilities ℕ := ⟨[], noCapability_nodup⟩

/-- A source announces twice, and the second announcement counts. -/
theorem capabilities_follow_twice : ∃ s n,
    (mirror (capabilityConsumer ℕ)).Run (.start noCapabilities, .start) announcedTwice (s, n) ∧
      s.store.rows = [⟨.piPwm, ['0'], 18, 60⟩] ∧ CapabilitiesFollow noCapabilities s n := by
  have hrun : ((mirror (capabilityConsumer ℕ)).exec (.start noCapabilities, .start)
      announcedTwice).map (fun p => p.1.store.rows) = some [⟨.piPwm, ['0'], 18, 60⟩] := by
    decide +kernel
  obtain ⟨⟨s, n⟩, hexec, hrows⟩ := Option.map_eq_some_iff.mp hrun
  have h := Machine.exec_eq_some.mp hexec
  exact ⟨s, n, h, hrows, capabilities_follow h⟩

/-! ### Chips -/

/-- A row of `chip_state`, of its `(source, instance)`. -/
structure ChipRow (φ : Type) where
  initialised : Bool
  initialisedAt : Option ℚ
  facts : φ
  announcedAt : ℚ
  deriving DecidableEq

/-- `ChipState`. -/
structure ChipState (φ : Type) where
  initialised : Bool
  initialisedAt : Option ℚ
  facts : φ
  emittedAt : ℚ
  deriving DecidableEq

/-- A message on `bellasreef.chip.<source>.<instance>`: the state, if it validates. -/
structure ChipMessage (φ : Type) where
  chip : CapabilitySource × Text
  state : Option (ChipState φ)
  deriving DecidableEq

/-- `chip_state`. -/
abbrev Chips (φ : Type) := AList fun _ : CapabilitySource × Text => ChipRow φ

/-- The row of a state is as old as the state, whenever it is stored. -/
def ChipState.row {φ : Type} (c : ChipState φ) : ChipRow φ :=
  ⟨c.initialised, c.initialisedAt, c.facts, c.emittedAt⟩

/-- `upsert_chip_state`. -/
def ChipMessage.store {φ : Type} (_ : Unit) (t : Chips φ) (m : ChipMessage φ) : Option (Chips φ) :=
  m.state.map fun c => t.insert m.chip c.row

/-- A chip's state is its last. -/
theorem lookup_chipStore {φ : Type} (e : Unit) (t : Chips φ) (m : ChipMessage φ) (t' : Chips φ)
    (h : m.store e t = some t') (k : CapabilitySource × Text) :
    t'.lookup k = if m.chip = k then m.state.map ChipState.row else t.lookup k := by
  obtain ⟨c, hc, rfl⟩ := Option.map_eq_some_iff.mp h
  split
  · next hk => rw [← hk, AList.lookup_insert, hc, Option.map_some]
  · next hk => rw [AList.lookup_insert_ne (Ne.symm hk)]

/-- `ChipConsumer`. -/
def chipConsumer (φ : Type) :
    LastWins (CapabilitySource × Text) (ChipMessage φ) (Chips φ) (Option (ChipRow φ)) Unit where
  key := ChipMessage.chip
  take := ChipMessage.store
  view := fun t k => t.lookup k
  value := fun m => m.state.map ChipState.row
  view_take := lookup_chipStore

/-- **The chips** are as they last said, where none has more to say and the store did not fail it. -/
theorem chips_follow {φ : Type} {table : Chips φ} {s : Mirror (ChipMessage φ) (Chips φ)}
    {n : MirrorNotes (CapabilitySource × Text) (ChipMessage φ)}
    {as : List (MirrorAction (CapabilitySource × Text) (ChipMessage φ) Unit)}
    (h : (mirror (chipConsumer φ)).Run (.start table, .start) as (s, n))
    {d : Drain (Sent (ChipMessage φ))} (hd : s.reader = some d) {m : Sent (ChipMessage φ)}
    (hm : m ∈ s.retained) (hnone : ∀ x ∈ d.pending, x.body.chip ≠ m.body.chip)
    (hfailed : m.body.chip ∉ n.failed) :
    ∃ c, m.body.state = some c ∧ s.store.lookup m.body.chip = some c.row := by
  have hlast : last (chipConsumer φ).sentKey m.body.chip s.retained = some m :=
    (last_eq_some_iff (follows_run h).unique).mpr ⟨hm, rfl⟩
  obtain ⟨⟨e, t, t', htake⟩, hview⟩ := (mirrored h).settled d hd m.body.chip m hlast
    (last_eq_none_iff.mpr hnone) hfailed
  obtain ⟨c, hc, -⟩ := Option.map_eq_some_iff.mp htake
  refine ⟨c, hc, hview.trans ?_⟩
  change m.body.state.map ChipState.row = _
  rw [hc, Option.map_some]

/-! ### The listing -/

/-- Its name. -/
def CapabilitySource.word : CapabilitySource → Text
  | .piPwm => "pi-pwm".toList
  | .pca9685 => "pca9685".toList
  | .w1Bus => "w1-bus".toList

/-- A driver type as the API writes it. -/
def DriverType.word : DriverType → Text
  | .piPwm => "pi-pwm".toList
  | .pca9685 => "pca9685".toList
  | .ds18b20 => "ds18b20".toList

/-- `CapabilityView`. -/
structure CapabilityView (ι δ : Type) where
  source : CapabilitySource
  channel : Text
  detail : δ
  announcedAt : ℚ
  boundTo : Option ι
  deriving DecidableEq

/-- How the database orders texts. -/
structure Collation where
  le : Text → Text → Bool
  total : ∀ a b, le a b = true ∨ le b a = true
  trans : ∀ a b c, le a b = true → le b c = true → le a c = true
  antisymm : ∀ a b, le a b = true → le b a = true → a = b

/-- The greatest `integer`. -/
def maxInteger : ℕ := 2147483647

section Listing
variable {ι δ : Type}

/-- A row as `GET /capabilities` answers it. -/
def CapabilityRow.view (r : CapabilityRow δ) (boundTo : Option ι) : CapabilityView ι δ :=
  ⟨r.source, r.channel, r.detail, r.announcedAt, boundTo⟩

/-- The condition of the join. -/
def joins (r : CapabilityRow δ) (d : DeviceRow ι Text) : Bool :=
  (d.driverType.any fun t => t.word = r.source.word || (t = .ds18b20 && r.source = .w1Bus)) &&
    d.adopted && d.binding.map Binding.key = some r.channel

/-- `LEFT JOIN`: a row that no device joins is there once. -/
def joined (t : Capabilities δ) (db : Devices ι Text) : List (CapabilityView ι δ) :=
  t.rows.flatMap fun r =>
    match db.rows.filter (joins r) with
    | [] => [r.view none]
    | ds => ds.map fun d => r.view (some d.deviceId)

/-- The order of a channel within its source: `c.channel::integer` where it is digits, with
`NULLS LAST`, and then `c.channel`. -/
def channelBefore (co : Collation) (a b : Text) : Bool :=
  match DecimalText.natural a, DecimalText.natural b with
  | some x, some y => x < y || (x = y && co.le a b)
  | some _, none => true
  | none, some _ => false
  | none, none => co.le a b

/-- `ORDER BY`. -/
def before (co : Collation) (a b : CapabilityView ι δ) : Bool :=
  if a.source = b.source then channelBefore co a.channel b.channel
  else co.le a.source.word b.source.word

/-- The cast of its channel does not fail. -/
def CapabilityRow.inRange (r : CapabilityRow δ) : Bool :=
  (DecimalText.natural r.channel).all fun x => x ≤ maxInteger

/-- `list_capabilities`; `none` where the database raises. -/
def listCapabilities (co : Collation) (t : Capabilities δ) (db : Devices ι Text) :
    Option (List (CapabilityView ι δ)) :=
  if t.rows.all CapabilityRow.inRange then
    some ((joined t db).insertionSort fun a b => before co a b = true)
  else none

/-! ### What is listed -/

/-- The driver of a source. -/
def CapabilitySource.driver : CapabilitySource → DriverType
  | .piPwm => .piPwm
  | .pca9685 => .pca9685
  | .w1Bus => .ds18b20

/-- The listing, beside the table, the devices, and what a bind makes of them. -/
structure Listing [DecidableEq ι] (co : Collation) (t : Capabilities δ) (db : Devices ι Text)
    (l : List (CapabilityView ι δ)) : Prop where
  ascending : l.Pairwise fun a b => before co a b = true
  /-- Each capability, with the device that holds it. -/
  exact : ∀ v, v ∈ l ↔ ∃ r ∈ t.rows, v = r.view (db.deviceBoundTo r.source.driver r.channel)
  once : (l.map fun v => (v.source, v.channel)).Perm (t.rows.map CapabilityRow.key)
  /-- What a bind finds no capability for is not listed. -/
  unannounced : ∀ body, bindDevice db (t.rows.map CapabilityRow.key) body = .error .noCapability ↔
    ∀ v ∈ l, ¬ (v.source = body.driverType.source ∧ v.channel = body.channel)
  /-- What a bind finds bound is listed with its holder. -/
  held : ∀ body holder,
    bindDevice db (t.rows.map CapabilityRow.key) body = .error (.channelBound holder) ↔
      body.kind = .actuator ∧ holder ≠ body.deviceId ∧ ∃ v ∈ l,
        v.source = body.driverType.source ∧ v.channel = body.channel ∧ v.boundTo = some holder

variable {co : Collation} {t : Capabilities δ} {db : Devices ι Text} {r : CapabilityRow δ}
  {d : DeviceRow ι Text} {a b c : CapabilityView ι δ} {x y z : Text} {v : CapabilityView ι δ}

/-- A driver type's source is its own. -/
theorem driver_source (t : DriverType) : t.source.driver = t := by
  cases t <;> rfl

/-- The words of the join match where the source is the driver's. -/
theorem words_join (t : DriverType) (s : CapabilitySource) :
    (t.word = s.word ∨ t = .ds18b20 ∧ s = .w1Bus) ↔ s.driver = t := by
  cases t <;> cases s <;> decide

/-- The join is `device_bound_to`, of adopted devices. -/
theorem joins_eq : joins r d = (d.adopted && Devices.onChannel r.source.driver r.channel d) := by
  cases hd : d.driverType with
  | none => simp [joins, Devices.onChannel, hd]
  | some t =>
      have hjoin := words_join t r.source
      rw [Bool.eq_iff_iff]
      simp only [joins, Devices.onChannel, hd, Option.any_some, Bool.and_eq_true, Bool.or_eq_true,
        decide_eq_true_eq, Option.some.injEq]
      rw [hjoin, eq_comm (a := t)]
      tauto

/-- Any two channels are in order. -/
theorem channelBefore_total : channelBefore co x y = true ∨ channelBefore co y x = true := by
  unfold channelBefore
  cases hx : DecimalText.natural x with
  | none =>
      cases hy : DecimalText.natural y with
      | none => exact co.total x y
      | some n => exact .inr rfl
  | some m =>
      cases hy : DecimalText.natural y with
      | none => exact .inl rfl
      | some n =>
          simp only [Bool.or_eq_true, Bool.and_eq_true, decide_eq_true_eq]
          obtain hlt | rfl | hlt := lt_trichotomy m n
          · exact .inl (.inl hlt)
          · exact (co.total x y).imp (fun h => .inr ⟨rfl, h⟩) fun h => .inr ⟨rfl, h⟩
          · exact .inr (.inl hlt)

theorem channelBefore_trans (h : channelBefore co x y = true) (h' : channelBefore co y z = true) :
    channelBefore co x z = true := by
  unfold channelBefore at h h' ⊢
  cases hx : DecimalText.natural x with
  | none =>
      rw [hx] at h
      cases hy : DecimalText.natural y with
      | some n => rw [hy] at h; cases h
      | none =>
          rw [hy] at h h'
          cases hz : DecimalText.natural z with
          | some k => rw [hz] at h'; cases h'
          | none =>
              rw [hz] at h'
              exact co.trans x y z h h'
  | some m =>
      cases hz : DecimalText.natural z with
      | none => rfl
      | some k =>
          rw [hx] at h
          rw [hz] at h'
          cases hy : DecimalText.natural y with
          | none => rw [hy] at h'; cases h'
          | some n =>
              rw [hy] at h h'
              simp only [Bool.or_eq_true, Bool.and_eq_true, decide_eq_true_eq] at h h' ⊢
              obtain hlt | ⟨rfl, hle⟩ := h
              · obtain hlt' | ⟨rfl, -⟩ := h'
                · exact .inl (hlt.trans hlt')
                · exact .inl hlt
              · obtain hlt' | ⟨rfl, hle'⟩ := h'
                · exact .inl hlt'
                · exact .inr ⟨rfl, co.trans x y z hle hle'⟩

/-- Any two rows of the list are in order. -/
theorem before_total (a b : CapabilityView ι δ) : before co a b = true ∨ before co b a = true := by
  unfold before
  by_cases h : a.source = b.source
  · rw [if_pos h, if_pos h.symm]
    exact channelBefore_total
  · rw [if_neg h, if_neg (Ne.symm h)]
    exact co.total _ _

theorem word_injective : Function.Injective CapabilitySource.word := by
  intro s s' h
  cases s <;> cases s' <;> first | rfl | (revert h; decide)

theorem before_trans (h : before co a b = true) (h' : before co b c = true) :
    before co a c = true := by
  unfold before at h h' ⊢
  by_cases hab : a.source = b.source
  · rw [if_pos hab] at h
    by_cases hbc : b.source = c.source
    · rw [if_pos hbc] at h'
      rw [if_pos (hab.trans hbc)]
      exact channelBefore_trans h h'
    · rw [if_neg hbc] at h'
      rw [if_neg fun hac => hbc (hab.symm.trans hac), hab]
      exact h'
  · rw [if_neg hab] at h
    by_cases hbc : b.source = c.source
    · rw [if_pos hbc] at h'
      rw [if_neg fun hac => hab (hac.trans hbc.symm), ← hbc]
      exact h
    · rw [if_neg hbc] at h'
      have hac := co.trans _ _ _ h h'
      split
      · next he =>
          -- the two sources are told apart by the collation
          rw [he] at h
          exact absurd (word_injective (co.antisymm _ _ h' h)) hbc
      · exact hac

section Bound
variable [DecidableEq ι]

/-- What the endpoint's checks refuse is what the bind comes to. -/
theorem bindDevice_error {capabilities : List (CapabilitySource × Text)}
    {body : BindDeviceRequest ι Text} {why : BindRefusal ι} (hw : why ≠ .deviceIdConflict) :
    bindDevice db capabilities body = .error why ↔
      bindRefusal capabilities (db.deviceBoundTo body.driverType body.channel) body = some why := by
  rw [bindDevice_eq]
  cases bindRefusal capabilities (db.deviceBoundTo body.driverType body.channel) body with
  | some w => simp
  | none =>
      rcases db.bindDevice body.deviceId body.kind body.driverType body.binding body.role with
        _ | ⟨db, deviceId, created⟩
      · simp [Ne.symm hw]
      · simp

/-- A bind is refused for want of a capability exactly where there is none. -/
theorem bindRefusal_noCapability {capabilities : List (CapabilitySource × Text)}
    {boundTo : Option ι} {body : BindDeviceRequest ι Text} :
    bindRefusal capabilities boundTo body = some .noCapability ↔
      (body.driverType.source, body.channel) ∉ capabilities := by
  unfold bindRefusal
  by_cases hc : (body.driverType.source, body.channel) ∉ capabilities
  · rw [if_pos hc]
    exact iff_of_true rfl hc
  · rw [if_neg hc]
    refine iff_of_false (fun h => ?_) hc
    repeat' split at h
    all_goals cases h

/-- A bind is refused as held exactly where the channel is there and is held. -/
theorem bindRefusal_channelBound {capabilities : List (CapabilitySource × Text)}
    {boundTo : Option ι} {body : BindDeviceRequest ι Text} {holder : ι} :
    bindRefusal capabilities boundTo body = some (.channelBound holder) ↔
      (body.driverType.source, body.channel) ∈ capabilities ∧ body.kind = .actuator ∧
        boundTo = some holder ∧ holder ≠ body.deviceId := by
  unfold bindRefusal
  by_cases hc : (body.driverType.source, body.channel) ∉ capabilities
  · rw [if_pos hc]
    exact iff_of_false (by rintro ⟨⟩) fun h => hc h.1
  · rw [if_neg hc]
    have hfilter : boundTo.filter (· ≠ body.deviceId) = some holder ↔
        boundTo = some holder ∧ holder ≠ body.deviceId := by
      rw [Option.filter_eq_some_iff]
      simp
    rw [not_not] at hc
    rw [← hfilter, and_iff_right hc]
    generalize boundTo.filter (· ≠ body.deviceId) = bound
    cases hk : body.kind with
    | sensor =>
        refine iff_of_false (fun h => ?_) (by rintro ⟨⟨⟩, -⟩)
        dsimp only at h
        repeat' split at h
        all_goals cases h
    | actuator =>
        cases bound with
        | some holder' => simp
        | none =>
            refine iff_of_false (fun h => ?_) (by rintro ⟨-, ⟨⟩⟩)
            dsimp only at h
            repeat' split at h
            all_goals cases h

omit [DecidableEq ι] in
/-- Where a channel has one device, it is the one that `device_bound_to` answers. -/
theorem holders_eq (hone : OnePerChannel db) : db.rows.filter (joins r) =
    ((db.rows.find? fun d => d.adopted && Devices.onChannel r.source.driver r.channel d)).toList := by
  have hle := hone.holders r.source.driver r.channel
  have hjoins : joins (ι := ι) r =
      fun d => d.adopted && Devices.onChannel r.source.driver r.channel d := funext fun _ => joins_eq
  rw [hjoins, ← List.head?_filter]
  generalize db.rows.filter (fun d => d.adopted && Devices.onChannel r.source.driver r.channel d) = l
    at hle
  obtain hnil | ⟨d, rfl⟩ := (Nat.le_one_iff_eq_zero_or_eq_one.mp hle).imp List.length_eq_zero_iff.mp
    List.length_eq_one_iff.mp
  · rw [hnil]
    rfl
  · rfl

omit [DecidableEq ι] in
/-- With one device to a channel, each capability is listed once, with its device. -/
theorem joined_eq (hone : OnePerChannel db) : joined t db =
    t.rows.map fun r => r.view (db.deviceBoundTo r.source.driver r.channel) := by
  rw [joined, ← List.flatMap_singleton' (t.rows.map _), List.flatMap_map]
  refine List.flatMap_congr fun r _ => ?_
  rw [holders_eq hone, Devices.deviceBoundTo]
  cases db.rows.find? fun d => d.adopted && Devices.onChannel r.source.driver r.channel d with
  | none => rfl
  | some d => rfl

/-- What `capability_exists` finds. -/
theorem capabilityExists_iff {source : CapabilitySource} {channel : Text} :
    t.capabilityExists source channel = true ↔ (source, channel) ∈ t.rows.map CapabilityRow.key := by
  simp [Capabilities.capabilityExists, Capabilities.find, List.find?_isSome]

/-- A bind finds no capability where `capability_exists` says so. -/
theorem bindDevice_noCapability {body : BindDeviceRequest ι Text} :
    bindDevice db (t.rows.map CapabilityRow.key) body = .error .noCapability ↔
      ¬ t.capabilityExists body.driverType.source body.channel = true := by
  have hne : (BindRefusal.noCapability : BindRefusal ι) ≠ .deviceIdConflict := by rintro ⟨⟩
  rw [bindDevice_error hne, bindRefusal_noCapability, capabilityExists_iff]

/-- **The listing** is what the table and the devices say, and what a bind goes by. -/
theorem listing_agrees {l : List (CapabilityView ι δ)} (hone : OnePerChannel db)
    (h : listCapabilities co t db = some l) : Listing co t db l := by
  unfold listCapabilities at h
  split at h
  · have htotal : Std.Total fun a b : CapabilityView ι δ => before co a b = true := ⟨before_total⟩
    have htrans : IsTrans (CapabilityView ι δ) fun a b => before co a b = true :=
      ⟨fun _ _ _ => before_trans⟩
    cases h
    have hexact : ∀ v, v ∈ (joined t db).insertionSort (fun a b => before co a b = true) ↔
        ∃ r ∈ t.rows, v = r.view (db.deviceBoundTo r.source.driver r.channel) := by
      intro v
      rw [List.mem_insertionSort, joined_eq hone, List.mem_map]
      simp only [eq_comm]
    refine ⟨List.pairwise_insertionSort _ _, hexact, ?_, fun body => ?_, fun body holder => ?_⟩
    · refine ((List.perm_insertionSort _ _).map _).trans ?_
      rw [joined_eq hone, List.map_map]
      exact .refl _
    · rw [bindDevice_noCapability, capabilityExists_iff, List.mem_map]
      simp only [hexact]
      constructor
      · rintro hno v ⟨r, hr, rfl⟩ ⟨hs, hc⟩
        exact hno ⟨r, hr, Prod.ext hs hc⟩
      · rintro hno ⟨r, hr, hkey⟩
        obtain ⟨hs, hc⟩ := Prod.mk.inj hkey
        exact hno _ ⟨r, hr, rfl⟩ ⟨hs, hc⟩
    · have hne : BindRefusal.channelBound holder ≠ .deviceIdConflict := by rintro ⟨⟩
      rw [bindDevice_error hne, bindRefusal_channelBound, List.mem_map]
      simp only [hexact]
      constructor
      · rintro ⟨⟨r, hr, hkey⟩, hkind, hbound, hne⟩
        obtain ⟨hs, hc⟩ := Prod.mk.inj hkey
        refine ⟨hkind, hne, _, ⟨r, hr, rfl⟩, hs, hc, ?_⟩
        rw [CapabilityRow.view, hs, hc, driver_source, hbound]
      · rintro ⟨hkind, hne, v, ⟨r, hr, rfl⟩, hs, hc, hbound⟩
        change r.source = _ at hs
        change r.channel = _ at hc
        refine ⟨⟨r, hr, Prod.ext hs hc⟩, hkind, ?_, hne⟩
        rw [CapabilityRow.view, hs, hc, driver_source] at hbound
        exact hbound
  · cases h

end Bound

end Listing

theorem byteOrder_total (a b : Text) : decide (a ≤ b) = true ∨ decide (b ≤ a) = true :=
  (le_total a b).imp decide_eq_true decide_eq_true

theorem byteOrder_trans (a b c : Text) (h : decide (a ≤ b) = true) (h' : decide (b ≤ c) = true) :
    decide (a ≤ c) = true :=
  decide_eq_true ((of_decide_eq_true h).trans (of_decide_eq_true h'))

theorem byteOrder_antisymm (a b : Text) (h : decide (a ≤ b) = true) (h' : decide (b ≤ a) = true) :
    a = b :=
  le_antisymm (of_decide_eq_true h) (of_decide_eq_true h')

/-- The collation `C`. -/
def byteOrder : Collation :=
  ⟨fun a b => decide (a ≤ b), byteOrder_total, byteOrder_trans, byteOrder_antisymm⟩

theorem nodup_threeChannels : ([(⟨.pca9685, ['1', '0'], 64, 0⟩ : CapabilityRow ℕ),
    ⟨.w1Bus, "28-00".toList, 1, 0⟩, ⟨.pca9685, ['9'], 64, 0⟩].map CapabilityRow.key).Nodup := by
  decide

/-- Two channels of a chip and a probe, out of order. -/
def threeChannels : Capabilities ℕ :=
  ⟨[⟨.pca9685, ['1', '0'], 64, 0⟩, ⟨.w1Bus, "28-00".toList, 1, 0⟩, ⟨.pca9685, ['9'], 64, 0⟩],
    nodup_threeChannels⟩

theorem nodup_oneLight {r : DeviceRow ℕ Text} : ([r].map DeviceRow.deviceId).Nodup :=
  List.nodup_singleton _

theorem bound_oneLight : true = true → (some DriverType.pca9685).isSome ∧
    (some (Binding.channel ['1', '0'])).isSome := fun _ => ⟨rfl, rfl⟩

/-- A light on the second of the chip's channels. -/
def oneLight : Devices ℕ Text :=
  ⟨[⟨7, .actuator, some .light, some .pca9685, some (.channel ['1', '0']), true, bound_oneLight⟩],
    nodup_oneLight⟩

theorem onePerChannel_oneLight : OnePerChannel oneLight :=
  ⟨fun _ _ => List.length_filter_le _ _, fun _ _ => List.length_filter_le _ _⟩

/-- Three channels are listed in order, and the bound one with its device. -/
theorem listing_agrees_threeChannels : ∃ l, listCapabilities byteOrder threeChannels oneLight = some l ∧
    l.map (fun v => (v.channel, v.boundTo)) =
      [(['9'], none), (['1', '0'], some 7), ("28-00".toList, none)] ∧
    Listing byteOrder threeChannels oneLight l := by
  have hlist : (listCapabilities byteOrder threeChannels oneLight).map
      (fun l => l.map fun v => (v.channel, v.boundTo)) =
        some [(['9'], none), (['1', '0'], some 7), ("28-00".toList, none)] := by
    decide +kernel
  obtain ⟨l, hl, hmap⟩ := Option.map_eq_some_iff.mp hlist
  exact ⟨l, hl, hmap, listing_agrees onePerChannel_oneLight hl⟩

end BellasReef.Api
