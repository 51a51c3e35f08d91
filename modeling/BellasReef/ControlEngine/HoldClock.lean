import BellasReef.Db.Overrides
import BellasReef.Support.Lists
import BellasReef.Support.Machine
import Mathlib.Tactic.Linarith

/-!
# ControlEngine — Hold clock

How long the engine commands a hold, by its two clocks.

At its wake the engine lapses what is over and arms what is left (`load_active`), by the wall
clock.  From then on it goes by the monotonic clock: a tick releases what is past its deadline,
reads the open rows again, and keeps the object of every hold that it holds already.  Store calls
fail, the wall clock is stepped, and other clients place and release holds at any moment.

* `hold_kept`: within a run every hold keeps the time it was armed with.
* `promise_kept`: across a restart none outlives its `expires_at`, if the wall clock at the wake is
  not behind the true time, and no release of a hold that was placed before it fails.
-/

namespace BellasReef.ControlEngine
open BellasReef.Db BellasReef.Support

variable {ι τ : Type}

/-! ### The engine and its holds -/

/-- Where the engine's process is. -/
inductive Watch (ι τ : Type) where
  /-- Not started. -/
  | down
  /-- In `load_active`, which has read the wall clock. -/
  | waking (wallNow : ℚ)
  /-- Between two ticks. -/
  | idle
  /-- In `_expire_overrides`, with the holds it has still to look at. -/
  | expiring (rest : List (ActiveOverride ι τ))
  /-- In `release` of an expired hold. -/
  | releasing (o : ActiveOverride ι τ) (rest : List (ActiveOverride ι τ))
  /-- In `_reload_overrides`, with the answer of `list_active`. -/
  | rebuilding (fresh : List (ActiveOverride ι τ))
  /-- The held set is settled, and `due` is next. -/
  | deciding
  deriving DecidableEq

/-- The holds that the tick has not dealt with. -/
def Watch.pending : Watch ι τ → List (ActiveOverride ι τ)
  | .expiring rest => rest
  | .releasing o rest => o :: rest
  | _ => []

/-- The rest of the loop of `_expire_overrides`, while it runs. -/
def Watch.looking : Watch ι τ → Option (List (ActiveOverride ι τ))
  | .expiring rest => some rest
  | .releasing o rest => some (o :: rest)
  | _ => none

/-- In a tick. -/
def Watch.ticking : Watch ι τ → Bool
  | .expiring _ | .releasing _ _ | .rebuilding _ | .deciding => true
  | _ => false

/-- The table and the engine, with the two clocks. -/
structure Keeper (ι τ : Type) where
  store : Overrides ι τ
  mono : ℚ
  wall : ℚ
  trusted : Bool
  /-- `_held`, one per target. -/
  held : List (ActiveOverride ι τ)
  watch : Watch ι τ

/-- What the other clients, the clocks and the engine do. -/
inductive KeeperAction (ι τ : Type) where
  /-- Another client places a hold, with its own word for the clock's trust. -/
  | create (id : ι) (target : τ) (duty durationS : ℚ) (transition : Transition) (trusted : Bool)
  /-- Another client releases one. -/
  | release (id : ι)
  /-- Time passes, and the wall clock may be stepped. -/
  | clock (mono wall : ℚ) (trusted : Bool)
  /-- `_rearm_overrides` reads the wall clock. -/
  | wake
  /-- `load_active` lapses, reads and arms. -/
  | load
  /-- `_tick`. -/
  | tick
  /-- `_expire_overrides` turns to its next hold. -/
  | look
  /-- `release` succeeds. -/
  | released
  /-- `release` raises, whether or not the row was closed. -/
  | releaseFails (committed : Bool)
  /-- `list_active` answers. -/
  | read
  | readFails
  /-- `_held` is rebuilt from the answer. -/
  | reload
  /-- `due` is called with the held set. -/
  | due

/-- An engine that has not started, over this table. -/
def Keeper.down (db : Overrides ι τ) (mono wall : ℚ) (trusted : Bool) : Keeper ι τ :=
  ⟨db, mono, wall, trusted, [], .down⟩

variable [DecidableEq ι] [DecidableEq τ]

/-- The object that a row read again is held as already. -/
def kept (held : List (ActiveOverride ι τ)) (fresh : ActiveOverride ι τ) :
    Option (ActiveOverride ι τ) :=
  (held.find? (·.target = fresh.target)).filter (·.id = fresh.id)

/-- What `due` is told of a target. -/
def Keeper.commanded (s : Keeper ι τ) (target : τ) : Option (ActiveOverride ι τ) :=
  s.held.find? (·.target = target)

/-- One step, of a client or of the engine's loop. -/
def Keeper.step (s : Keeper ι τ) : KeeperAction ι τ → Option (Keeper ι τ)
  | .create id target duty durationS transition trusted =>
      match s.store.create trusted s.wall id target duty durationS transition with
      | .ok (store, _, _) => some { s with store := store }
      | .error _ => none
  | .release id => some { s with store := (s.store.release id .manual).1 }
  | .clock mono wall trusted =>
      if s.mono ≤ mono then some { s with mono := mono, wall := wall, trusted := trusted }
      else none
  | .wake =>
      match s.watch with
      | .down => some { s with watch := .waking s.wall }
      | _ => none
  | .load =>
      match s.watch with
      | .waking wallNow =>
          let (store, live, _) := s.store.loadActive s.mono wallNow
          some { s with store := store, held := live, watch := .idle }
      | _ => none
  | .tick =>
      match s.watch with
      | .idle => if s.trusted then some { s with watch := .expiring s.held } else none
      | _ => none
  | .look =>
      match s.watch with
      | .expiring (o :: rest) =>
          if o.isExpired s.mono s.wall then some { s with watch := .releasing o rest }
          else some { s with watch := .expiring rest }
      | _ => none
  | .released =>
      match s.watch with
      | .releasing o rest =>
          some { s with
            store := (s.store.release o.id .expired).1
            held := s.held.filter (·.target ≠ o.target)
            watch := .expiring rest }
      | _ => none
  | .releaseFails committed =>
      match s.watch with
      | .releasing o rest =>
          -- the hold stays in `_held`, and the next tick tries again
          some { s with
            store := if committed then (s.store.release o.id .expired).1 else s.store
            watch := .expiring rest }
      | _ => none
  | .read =>
      match s.watch with
      | .expiring [] => some { s with watch := .rebuilding s.store.listActive }
      | _ => none
  | .readFails =>
      match s.watch with
      | .expiring [] => some { s with watch := .deciding }
      | _ => none
  | .reload =>
      match s.watch with
      | .rebuilding fresh =>
          some { s with
            held := fresh.map fun f => (kept s.held f).getD (f.arm s.mono s.wall)
            watch := .deciding }
      | _ => none
  | .due =>
      match s.watch with
      | .deciding => some { s with watch := .idle }
      | _ => none

/-- The engine's holds, the store and the other clients. -/
def keeper (ι τ : Type) [DecidableEq ι] [DecidableEq τ] :
    Machine (Keeper ι τ) (KeeperAction ι τ) where
  step := fun s a => s.step a

/-! ### What a run leaves behind -/

/-- A hold as it was armed, when, and with what time left. -/
structure Arming (ι τ : Type) where
  hold : ActiveOverride ι τ
  at_ : ℚ
  remaining : ℚ

/-- The monotonic time until which the hold is owed. -/
def Arming.deadline (h : Arming ι τ) : ℚ := h.at_ + h.remaining

/-- What a reader of the run would write down. -/
structure Diary (ι τ : Type) where
  armed : List (Arming ι τ)
  /-- Holds whose release as expired has succeeded. -/
  released : List ι
  /-- When the first tick began, and the last. -/
  firstTick : Option ℚ
  lastTick : ℚ

/-- Nothing has been placed. -/
def Diary.start : Diary ι τ := ⟨[], [], none, 0⟩

/-- The arming of a hold that was just read. -/
def arming (mono wall : ℚ) (o : ActiveOverride ι τ) : Arming ι τ :=
  ⟨o.arm mono wall, mono, max (o.expiresAt - wall) 0⟩

/-- What a step writes down. -/
def Diary.note (s : Keeper ι τ) (a : KeeperAction ι τ) (_ : Keeper ι τ) (d : Diary ι τ) :
    Diary ι τ :=
  match a, s.watch with
  | .load, .waking wallNow =>
      let due := fun r : OverrideRow ι τ => decide (r.expiresAt ≤ wallNow)
      { d with armed := (s.store.close due .lapsed).listActive.map (arming s.mono wallNow) }
  | .reload, .rebuilding fresh =>
      { d with
        armed := d.armed ++
          (fresh.filter fun f => (kept s.held f).isNone).map (arming s.mono s.wall) }
  | .released, .releasing o _ => { d with released := o.id :: d.released }
  | .tick, _ => { d with firstTick := d.firstTick.or (some s.mono), lastTick := s.mono }
  | _, _ => d

/-- The engine and its diary. -/
abbrev keeping (ι τ : Type) [DecidableEq ι] [DecidableEq τ] :
    Machine (Keeper ι τ × Diary ι τ) (KeeperAction ι τ) := (keeper ι τ).ghost Diary.note

/-! ### What a step can do -/

/-- Every step, with what it changes. -/
inductive KeeperMoves (s : Keeper ι τ) : KeeperAction ι τ → Keeper ι τ → Prop where
  | others {a : KeeperAction ι τ} {store : Overrides ι τ} {why : ReleaseReason}
      (ha : (∃ id target duty durationS transition trusted,
        a = .create id target duty durationS transition trusted) ∨ ∃ id, a = .release id)
      (he : s.store.EndedBy store why) (hw : why = .manual ∨ why = .superseded) :
      KeeperMoves s a { s with store := store }
  | clock {mono wall : ℚ} {trusted : Bool} (hm : s.mono ≤ mono) :
      KeeperMoves s (.clock mono wall trusted)
        { s with mono := mono, wall := wall, trusted := trusted }
  | wake (hw : s.watch = .down) : KeeperMoves s .wake { s with watch := .waking s.wall }
  | load {wallNow : ℚ} (hw : s.watch = .waking wallNow) :
      KeeperMoves s .load
        { s with
          store := (s.store.loadActive s.mono wallNow).1
          held := (s.store.loadActive s.mono wallNow).2.1
          watch := .idle }
  | tick (hw : s.watch = .idle) : KeeperMoves s .tick { s with watch := .expiring s.held }
  | take {o : ActiveOverride ι τ} {rest : List (ActiveOverride ι τ)}
      (hw : s.watch = .expiring (o :: rest)) (he : o.isExpired s.mono s.wall = true) :
      KeeperMoves s .look { s with watch := .releasing o rest }
  | skip {o : ActiveOverride ι τ} {rest : List (ActiveOverride ι τ)}
      (hw : s.watch = .expiring (o :: rest)) (he : o.isExpired s.mono s.wall = false) :
      KeeperMoves s .look { s with watch := .expiring rest }
  | released {o : ActiveOverride ι τ} {rest : List (ActiveOverride ι τ)}
      (hw : s.watch = .releasing o rest) :
      KeeperMoves s .released
        { s with
          store := (s.store.release o.id .expired).1
          held := s.held.filter (·.target ≠ o.target)
          watch := .expiring rest }
  | releaseLost {o : ActiveOverride ι τ} {rest : List (ActiveOverride ι τ)}
      (hw : s.watch = .releasing o rest) :
      KeeperMoves s (.releaseFails true)
        { s with store := (s.store.release o.id .expired).1, watch := .expiring rest }
  | releaseFails {o : ActiveOverride ι τ} {rest : List (ActiveOverride ι τ)}
      (hw : s.watch = .releasing o rest) :
      KeeperMoves s (.releaseFails false) { s with watch := .expiring rest }
  | read (hw : s.watch = .expiring []) :
      KeeperMoves s .read { s with watch := .rebuilding s.store.listActive }
  | readFails (hw : s.watch = .expiring []) : KeeperMoves s .readFails { s with watch := .deciding }
  | reload {fresh : List (ActiveOverride ι τ)} (hw : s.watch = .rebuilding fresh) :
      KeeperMoves s .reload
        { s with
          held := fresh.map fun f => (kept s.held f).getD (f.arm s.mono s.wall)
          watch := .deciding }
  | due (hw : s.watch = .deciding) : KeeperMoves s .due { s with watch := .idle }

variable {s s' : Keeper ι τ} {d : Diary ι τ} {a : KeeperAction ι τ}

/-- **Inversion.**  A step is one of `KeeperMoves`. -/
theorem keeper_moves (h : (keeper ι τ).step s a = some s') : KeeperMoves s a s' := by
  change s.step a = some s' at h
  cases a with
  | create id target duty durationS transition trusted =>
      simp only [Keeper.step] at h
      split at h
      · next hc =>
          cases h
          exact .others (.inl ⟨_, _, _, _, _, _, rfl⟩) (Overrides.endedBy_create hc) (.inr rfl)
      · cases h
  | release id =>
      cases h
      exact .others (.inr ⟨_, rfl⟩) Overrides.endedBy_release (.inl rfl)
  | clock mono wall trusted =>
      simp only [Keeper.step] at h
      split at h
      · next hm => cases h; exact .clock hm
      · cases h
  | wake =>
      simp only [Keeper.step] at h
      split at h
      · next hw => cases h; exact .wake hw
      · cases h
  | load =>
      simp only [Keeper.step] at h
      split at h
      · next hw => cases h; exact .load hw
      · cases h
  | tick =>
      simp only [Keeper.step] at h
      split at h
      · next hw =>
          split at h
          · cases h; exact .tick hw
          · cases h
      · cases h
  | look =>
      simp only [Keeper.step] at h
      split at h
      · next hw =>
          split at h
          · next he => cases h; exact .take hw he
          · next he => cases h; exact .skip hw (by simpa using he)
      · cases h
  | released =>
      simp only [Keeper.step] at h
      split at h
      · next hw => cases h; exact .released hw
      · cases h
  | releaseFails committed =>
      simp only [Keeper.step] at h
      split at h
      · next hw =>
          cases h
          cases committed with
          | true => exact .releaseLost hw
          | false => exact .releaseFails hw
      · cases h
  | read =>
      simp only [Keeper.step] at h
      split at h
      · next hw => cases h; exact .read hw
      · cases h
  | readFails =>
      simp only [Keeper.step] at h
      split at h
      · next hw => cases h; exact .readFails hw
      · cases h
  | reload =>
      simp only [Keeper.step] at h
      split at h
      · next hw => cases h; exact .reload hw
      · cases h
  | due =>
      simp only [Keeper.step] at h
      split at h
      · next hw => cases h; exact .due hw
      · cases h

/-! ### The invariant -/

/-- A hold, as its row has it. -/
def unarmed (o : ActiveOverride ι τ) : ActiveOverride ι τ := { o with monotonicDeadline := none }

/-- A hold that is armed and has not ended is held. -/
def Tracked (s : Keeper ι τ) (d : Diary ι τ) : Prop :=
  ∀ h ∈ d.armed, s.store.reasonOf h.hold.id = none → h.hold ∈ s.held

/-- What the answer of `list_active` says of the holds that were armed before it. -/
structure Fresh (s : Keeper ι τ) (d : Diary ι τ) (fresh : List (ActiveOverride ι τ)) : Prop where
  ids : (fresh.map ActiveOverride.id).Nodup
  targets : (fresh.map ActiveOverride.target).Nodup
  known : fresh ⊆ s.store.rows.map OverrideRow.active
  complete : ∀ h ∈ d.armed, s.store.reasonOf h.hold.id = none → unarmed h.hold ∈ fresh
  back : ∀ f ∈ fresh, ∀ h ∈ d.armed, h.hold.id = f.id → h.hold ∈ s.held
  gone : ∀ f ∈ fresh, f.id ∉ d.released
  reasons : ∀ f ∈ fresh, s.store.reasonOf f.id ≠ some .expired ∧ s.store.reasonOf f.id ≠ some .lapsed

/-- What every step keeps. -/
structure Watching (s : Keeper ι τ) (d : Diary ι τ) : Prop where
  asleep : (s.watch = .down ∨ ∃ w, s.watch = .waking w) → s.held = [] ∧ d = Diary.start
  targets : (s.held.map ActiveOverride.target).Nodup
  pending : s.watch.pending.Sublist s.held
  /-- Each held object is one that was armed, and no other was armed for its row. -/
  origin : ∀ o ∈ s.held, ∃ h ∈ d.armed, h.hold = o
  same : ∀ o ∈ s.held, ∀ h ∈ d.armed, h.hold.id = o.id → h.hold = o
  armed : ∀ h ∈ d.armed, h.hold.monotonicDeadline = some h.deadline ∧
    unarmed h.hold ∈ s.store.rows.map OverrideRow.active ∧
    s.store.reasonOf h.hold.id ≠ some .lapsed
  tracked : Tracked s d
  early : ∀ h ∈ d.armed, s.store.reasonOf h.hold.id = some .expired → h.deadline ≤ s.mono
  expired : ∀ o rest, s.watch = .releasing o rest → ∀ t ∈ o.monotonicDeadline, t ≤ s.mono
  gone : ∀ id ∈ d.released, s.store.reasonOf id ≠ none ∧ ∀ o ∈ s.held, o.id ≠ id
  fresh : ∀ fresh, s.watch = .rebuilding fresh → Fresh s d fresh

omit [DecidableEq ι] [DecidableEq τ] in
@[simp] theorem unarmed_arm {o : ActiveOverride ι τ} {mono wall : ℚ}
    (h : o.monotonicDeadline = none) : unarmed (o.arm mono wall) = o := by
  rw [unarmed, ActiveOverride.arm, ← h]

/-- A reload keeps the deadline of a hold that is held on its target already. -/
theorem kept_eq_some_iff {held : List (ActiveOverride ι τ)} {f o : ActiveOverride ι τ}
    (h : (held.map ActiveOverride.target).Nodup) :
    kept held f = some o ↔ o ∈ held ∧ o.target = f.target ∧ o.id = f.id := by
  rw [kept, Option.filter_eq_some_iff, find_key_eq_some_iff h, decide_eq_true_iff, and_assoc]

omit [DecidableEq τ] in
/-- Rows end, other than at wake. -/
theorem Watching.ends {store : Overrides ι τ} {why : ReleaseReason} (hi : Watching s d)
    (he : s.store.EndedBy store why) (hlapsed : why ≠ .lapsed)
    (hearly : why = .expired → ∀ h ∈ d.armed, s.store.reasonOf h.hold.id = none →
      store.reasonOf h.hold.id = some .expired → h.deadline ≤ s.mono)
    (hfresh : ∀ fresh, s.watch = .rebuilding fresh → why ≠ .expired) :
    Watching { s with store := store } d := by
  have hnone : ∀ id, store.reasonOf id = none → s.store.reasonOf id = none := fun id h => by
    rcases he.reasons id with hr | ⟨hr, -⟩
    · exact hr ▸ h
    · exact hr
  have hwas : ∀ id r, r ≠ why → store.reasonOf id = some r → s.store.reasonOf id = some r :=
    fun id r hne h => by
      rcases he.reasons id with hr | ⟨-, hr⟩
      · exact hr ▸ h
      · exact absurd (Option.some.inj (h.symm.trans hr)) hne
  refine { hi with armed := ?_, tracked := ?_, early := ?_, gone := ?_, fresh := ?_ }
  · intro h hh
    obtain ⟨hd, hknown, hl⟩ := hi.armed h hh
    exact ⟨hd, he.known hknown, fun hr => hl (hwas _ _ hlapsed.symm hr)⟩
  · intro h hh hr
    exact hi.tracked h hh (hnone _ hr)
  · intro h hh hr
    by_cases hwhy : why = .expired
    · by_cases ho : s.store.reasonOf h.hold.id = none
      · exact hearly hwhy h hh ho hr
      · rcases he.reasons h.hold.id with hsame | ⟨hwas, -⟩
        · exact hi.early h hh (hsame ▸ hr)
        · exact absurd hwas ho
    · exact hi.early h hh (hwas _ _ (Ne.symm hwhy) hr)
  · intro id hid
    obtain ⟨hr, hheld⟩ := hi.gone id hid
    exact ⟨fun h => hr (hnone _ h), hheld⟩
  · intro fresh hw
    have hf := hi.fresh fresh hw
    refine { hf with known := ?_, complete := ?_, reasons := ?_ }
    · exact fun o ho => he.known (hf.known ho)
    · exact fun h hh hr => hf.complete h hh (hnone _ hr)
    · intro f hmem
      obtain ⟨hexp, hl⟩ := hf.reasons f hmem
      exact ⟨fun h => hexp (hwas _ _ (hfresh fresh hw).symm h), fun h => hl (hwas _ _ hlapsed.symm h)⟩

omit [DecidableEq τ] in
/-- The engine's process goes on, and nothing else changes. -/
theorem Watching.goes {w : Watch ι τ} (hi : Watching s d)
    (hasleep : w = .down ∨ (∃ wall, w = .waking wall) → s.held = [] ∧ d = Diary.start)
    (hpending : w.pending.Sublist s.held)
    (hexpired : ∀ o rest, w = .releasing o rest → ∀ t ∈ o.monotonicDeadline, t ≤ s.mono)
    (hfresh : ∀ fresh, w = .rebuilding fresh → Fresh s d fresh) :
    Watching { s with watch := w } d where
  asleep := hasleep
  targets := hi.targets
  pending := hpending
  origin := hi.origin
  same := hi.same
  armed := hi.armed
  tracked := hi.tracked
  early := hi.early
  expired := hexpired
  gone := hi.gone
  fresh := fun fresh h =>
    have hf := hfresh fresh h
    ⟨hf.ids, hf.targets, hf.known, hf.complete, hf.back, hf.gone, hf.reasons⟩

omit [DecidableEq τ] in
/-- The clocks may move while the engine holds what it holds. -/
theorem Watching.clock {mono wall : ℚ} {trusted : Bool} (hi : Watching s d)
    (hm : s.mono ≤ mono) :
    Watching { s with mono := mono, wall := wall, trusted := trusted } d :=
  { hi with
    early := fun h hh hr => (hi.early h hh hr).trans hm
    expired := fun o rest hw t ht => (hi.expired o rest hw t ht).trans hm
    fresh := fun fresh hw =>
      have hf := hi.fresh fresh hw
      ⟨hf.ids, hf.targets, hf.known, hf.complete, hf.back, hf.gone, hf.reasons⟩ }

omit [DecidableEq τ] in
/-- `load_active` arms every hold that it leaves open. -/
theorem Watching.load {wallNow : ℚ} (hi : Watching s d) (hw : s.watch = .waking wallNow) :
    Watching
      { s with
        store := (s.store.loadActive s.mono wallNow).1
        held := (s.store.loadActive s.mono wallNow).2.1
        watch := .idle }
      { d with
        armed := (s.store.close (fun r => decide (r.expiresAt ≤ wallNow)) .lapsed).listActive.map
          (arming s.mono wallNow) } := by
  obtain ⟨-, rfl⟩ := hi.asleep (.inr ⟨_, hw⟩)
  set db := s.store.close (fun r => decide (r.expiresAt ≤ wallNow)) .lapsed with hdb
  have hheld : (s.store.loadActive s.mono wallNow).2.1 =
      db.listActive.map fun o => o.arm s.mono wallNow := by
    rw [Overrides.listActive, List.map_map]; rfl
  have hplain : ∀ o ∈ db.listActive, o.monotonicDeadline = none := by
    intro o ho
    obtain ⟨r, -, rfl⟩ := List.mem_map.mp ho
    rfl
  have hopen : ∀ o ∈ db.listActive,
      o ∈ db.rows.map OverrideRow.active ∧ db.reasonOf o.id = none :=
    fun o ho => Overrides.mem_listActive_iff.mp ho
  rw [hheld]
  refine ⟨?_, ?_, List.nil_sublist _, ?_, ?_, ?_, ?_, ?_, by rintro _ _ ⟨⟩, by rintro _ ⟨⟩,
    by rintro _ ⟨⟩⟩
  · rintro (h | ⟨_, h⟩) <;> cases h
  · rw [List.map_map]
    exact db.nodup_target_listActive
  · intro o ho
    obtain ⟨f, hf, rfl⟩ := List.mem_map.mp ho
    exact ⟨arming s.mono wallNow f, List.mem_map_of_mem hf, rfl⟩
  · intro o ho h hh hid
    obtain ⟨f, hf, rfl⟩ := List.mem_map.mp ho
    obtain ⟨f', hf', rfl⟩ := List.mem_map.mp hh
    have hid : f'.id = f.id := hid
    rw [List.inj_on_of_nodup_map db.nodup_id_listActive hf' hf hid]
    rfl
  · intro h hh
    obtain ⟨f, hf, rfl⟩ := List.mem_map.mp hh
    obtain ⟨hknown, hnone⟩ := hopen f hf
    refine ⟨rfl, ?_, ?_⟩
    · change unarmed (f.arm s.mono wallNow) ∈ db.rows.map OverrideRow.active
      rwa [unarmed_arm (hplain f hf)]
    · change db.reasonOf f.id ≠ some .lapsed
      rw [hnone]
      rintro ⟨⟩
  · intro h hh _
    obtain ⟨f, hf, rfl⟩ := List.mem_map.mp hh
    exact List.mem_map_of_mem hf
  · intro h hh hr
    obtain ⟨f, hf, rfl⟩ := List.mem_map.mp hh
    have hr : db.reasonOf f.id = some .expired := hr
    rw [(hopen f hf).2] at hr
    cases hr

/-- A hold whose deadline is past is released, and let go of. -/
theorem Watching.released {o : ActiveOverride ι τ} {rest : List (ActiveOverride ι τ)}
    (hi : Watching s d) (hw : s.watch = .releasing o rest) :
    Watching { s with store := (s.store.release o.id .expired).1, watch := .expiring rest } d ∧
    Watching
      { s with
        store := (s.store.release o.id .expired).1
        held := s.held.filter (·.target ≠ o.target)
        watch := .expiring rest }
      { d with released := o.id :: d.released } := by
  have hpending : (o :: rest).Sublist s.held := by
    have := hi.pending
    rwa [hw] at this
  have ho : o ∈ s.held := hpending.subset List.mem_cons_self
  -- every armed object of the row is `o`, whose deadline is past
  have hpast : ∀ h ∈ d.armed, h.hold.id = o.id → h.deadline ≤ s.mono := by
    intro h hh hid
    have hsame := hi.same o ho h hh hid
    refine hi.expired o rest hw h.deadline ?_
    rw [← hsame]
    exact (hi.armed h hh).1
  have hkept : Watching
      { s with store := (s.store.release o.id .expired).1, watch := .expiring rest } d := by
    have hrel : s.store.EndedBy (s.store.release o.id .expired).1 .expired :=
      Overrides.endedBy_release
    refine (hi.ends hrel nofun ?_ ?_).goes
      nofun ((List.sublist_cons_self o rest).trans hpending) nofun nofun
    · intro _ h hh hnone hr
      refine hpast h hh (Decidable.byContradiction fun hne => ?_)
      rw [Overrides.reasonOf_release_of_ne hne, hnone] at hr
      cases hr
    · intro fresh hfresh
      rw [hw] at hfresh
      cases hfresh
  refine ⟨hkept, ?_⟩
  have hnodup := hkept.targets
  have hids : ∀ x ∈ s.held, x.id = o.id → x = o := by
    intro x hx hid
    obtain ⟨h, hh, rfl⟩ := hi.origin x hx
    exact hi.same o ho h hh hid
  have hended : (s.store.release o.id .expired).1.reasonOf o.id ≠ none := by
    obtain ⟨h, hh, rfl⟩ := hi.origin o ho
    exact Overrides.reasonOf_release_ne_none (o := unarmed h.hold) (hi.armed h hh).2.1
  refine { hkept with
    asleep := nofun, targets := ?_, pending := ?_, origin := ?_, same := ?_, tracked := ?_
    expired := nofun, gone := ?_, fresh := nofun }
  · exact hnodup.sublist (List.filter_sublist.map _)
  · -- what is still to look at has another target
    have hsub := hpending.filter (fun x : ActiveOverride ι τ => decide (x.target ≠ o.target))
    rw [List.filter_cons_of_neg (by simp), List.filter_eq_self.mpr] at hsub
    · exact hsub
    · intro x hx
      have hne := (List.nodup_cons.mp (hnodup.sublist (hpending.map _))).1
      exact decide_eq_true fun he => hne (he ▸ List.mem_map_of_mem hx)
  · exact fun x hx => hkept.origin x (List.mem_filter.mp hx).1
  · exact fun x hx => hkept.same x (List.mem_filter.mp hx).1
  · intro h hh hr
    have hx := hkept.tracked h hh hr
    refine List.mem_filter.mpr ⟨hx, decide_eq_true fun he => hended ?_⟩
    rwa [List.inj_on_of_nodup_map hnodup hx ho he] at hr
  · intro id hid
    rcases List.mem_cons.mp hid with rfl | hid
    · refine ⟨hended, fun x hx he => ?_⟩
      obtain ⟨hx, hne⟩ := List.mem_filter.mp hx
      exact of_decide_eq_true hne (congrArg ActiveOverride.target (hids x hx he))
    · obtain ⟨hr, hheld⟩ := hkept.gone id hid
      exact ⟨hr, fun x hx => hheld x (List.mem_filter.mp hx).1⟩

omit [DecidableEq τ] in
/-- What `list_active` answers. -/
theorem Watching.listed (hi : Watching s d) : Fresh s d s.store.listActive where
  ids := s.store.nodup_id_listActive
  targets := s.store.nodup_target_listActive
  known := fun _ hf => (Overrides.mem_listActive_iff.mp hf).1
  complete := fun h hh hr => Overrides.mem_listActive_iff.mpr ⟨(hi.armed h hh).2.1, hr⟩
  back := fun f hf h hh hid =>
    hi.tracked h hh (hid.symm ▸ (Overrides.mem_listActive_iff.mp hf).2)
  gone := fun f hf hover => (hi.gone f.id hover).1 (Overrides.mem_listActive_iff.mp hf).2
  reasons := fun f hf => by
    rw [(Overrides.mem_listActive_iff.mp hf).2]
    exact ⟨nofun, nofun⟩

/-- A row that is read again is the row of the hold that was armed for it. -/
theorem Watching.kept_of_armed {fresh : List (ActiveOverride ι τ)} {f : ActiveOverride ι τ}
    {h : Arming ι τ} (hi : Watching s d) (hf : Fresh s d fresh) (hmem : f ∈ fresh)
    (hh : h ∈ d.armed) (hid : h.hold.id = f.id) : kept s.held f = some h.hold := by
  have hrow : unarmed h.hold = f := s.store.eq_of_id_eq (hi.armed h hh).2.1 (hf.known hmem) hid
  have htarget : (unarmed h.hold).target = f.target := congrArg ActiveOverride.target hrow
  exact (kept_eq_some_iff hi.targets).mpr ⟨hf.back f hmem h hh hid, htarget, hid⟩

/-- What is held after a reload. -/
theorem Watching.mem_reloaded {fresh : List (ActiveOverride ι τ)} {o : ActiveOverride ι τ}
    {mono wall : ℚ} (hi : Watching s d)
    (ho : o ∈ fresh.map fun f => (kept s.held f).getD (f.arm mono wall)) :
    ∃ f ∈ fresh, o.id = f.id ∧
      (o ∈ s.held ∧ kept s.held f = some o ∨ kept s.held f = none ∧ o = f.arm mono wall) := by
  obtain ⟨f, hmem, rfl⟩ := List.mem_map.mp ho
  cases hk : kept s.held f with
  | none => exact ⟨f, hmem, rfl, .inr ⟨hk, rfl⟩⟩
  | some x =>
      obtain ⟨hx, -, hid⟩ := (kept_eq_some_iff hi.targets).mp hk
      exact ⟨f, hmem, hid, .inl ⟨hx, hk⟩⟩

theorem mem_newlyArmed {held fresh : List (ActiveOverride ι τ)} {h : Arming ι τ} {mono wall : ℚ}
    (hh : h ∈ (fresh.filter fun f => (kept held f).isNone).map (arming mono wall)) :
    ∃ f ∈ fresh, kept held f = none ∧ h = arming mono wall f := by
  obtain ⟨f, hmem, rfl⟩ := List.mem_map.mp hh
  obtain ⟨hmem, hk⟩ := List.mem_filter.mp hmem
  exact ⟨f, hmem, Option.isNone_iff_eq_none.mp hk, rfl⟩

/-- The rebuilt set: a hold that was armed keeps its object, and any other is armed now. -/
theorem Watching.reload {fresh : List (ActiveOverride ι τ)} (hi : Watching s d)
    (hw : s.watch = .rebuilding fresh) :
    Watching
      { s with
        held := fresh.map fun f => (kept s.held f).getD (f.arm s.mono s.wall)
        watch := .deciding }
      { d with
        armed := d.armed ++
          (fresh.filter fun f => (kept s.held f).isNone).map (arming s.mono s.wall) } := by
  have hf := hi.fresh fresh hw
  have hplain : ∀ f ∈ fresh, f.monotonicDeadline = none := by
    intro f hmem
    obtain ⟨r, -, rfl⟩ := List.mem_map.mp (hf.known hmem)
    rfl
  refine ⟨nofun, ?_, List.nil_sublist _, ?_, ?_, ?_, ?_, ?_, nofun, ?_, nofun⟩
  · have htargets : (fresh.map fun f => (kept s.held f).getD (f.arm s.mono s.wall)).map
        ActiveOverride.target = fresh.map ActiveOverride.target := by
      rw [List.map_map]
      refine List.map_congr_left fun f _ => ?_
      rw [Function.comp_apply]
      cases hk : kept s.held f with
      | none => rfl
      | some x => exact ((kept_eq_some_iff hi.targets).mp hk).2.1
    exact htargets ▸ hf.targets
  · intro o ho
    obtain ⟨f, hmem, -, ⟨hold, -⟩ | ⟨hk, rfl⟩⟩ := hi.mem_reloaded ho
    · obtain ⟨h, hh, he⟩ := hi.origin o hold
      exact ⟨h, List.mem_append_left _ hh, he⟩
    · refine ⟨arming s.mono s.wall f, List.mem_append_right _ (List.mem_map_of_mem ?_), rfl⟩
      exact List.mem_filter.mpr ⟨hmem, Option.isNone_iff_eq_none.mpr hk⟩
  · intro o ho h hh hid
    obtain ⟨f, hmem, hof, hk⟩ := hi.mem_reloaded ho
    rcases List.mem_append.mp hh with hh | hh
    · have hfound := hi.kept_of_armed hf hmem hh (hid.trans hof)
      rcases hk with ⟨-, hk⟩ | ⟨hk, -⟩
      · exact Option.some.inj (hfound.symm.trans hk)
      · rw [hk] at hfound; cases hfound
    · obtain ⟨f', hmem', hk', rfl⟩ := mem_newlyArmed hh
      obtain rfl : f' = f := List.inj_on_of_nodup_map hf.ids hmem' hmem (hid.trans hof)
      rcases hk with ⟨-, hk⟩ | ⟨-, rfl⟩
      · rw [hk'] at hk; cases hk
      · rfl
  · intro h hh
    rcases List.mem_append.mp hh with hh | hh
    · exact hi.armed h hh
    · obtain ⟨f, hmem, -, rfl⟩ := mem_newlyArmed hh
      refine ⟨rfl, ?_, (hf.reasons f hmem).2⟩
      change unarmed (f.arm s.mono s.wall) ∈ s.store.rows.map OverrideRow.active
      rw [unarmed_arm (hplain f hmem)]
      exact hf.known hmem
  · intro h hh hr
    rcases List.mem_append.mp hh with hh | hh
    · have hmem := hf.complete h hh hr
      refine List.mem_map.mpr ⟨_, hmem, ?_⟩
      rw [hi.kept_of_armed hf hmem hh rfl, Option.getD_some]
    · obtain ⟨f, hmem, hk, rfl⟩ := mem_newlyArmed hh
      refine List.mem_map.mpr ⟨f, hmem, ?_⟩
      rw [hk]
      rfl
  · intro h hh hr
    rcases List.mem_append.mp hh with hh | hh
    · exact hi.early h hh hr
    · obtain ⟨f, hmem, -, rfl⟩ := mem_newlyArmed hh
      exact absurd hr (hf.reasons f hmem).1
  · intro id hid
    refine ⟨(hi.gone id hid).1, fun o ho he => ?_⟩
    obtain ⟨f, hmem, hof, -⟩ := hi.mem_reloaded ho
    exact hf.gone f hmem (hof ▸ he ▸ hid)

omit [DecidableEq τ] in
/-- An engine that is down holds nothing. -/
theorem watching_down {db : Overrides ι τ} {mono wall : ℚ} {trusted : Bool} :
    Watching (Keeper.down db mono wall trusted) Diary.start where
  asleep := fun _ => ⟨rfl, rfl⟩
  targets := List.nodup_nil
  pending := List.nil_sublist _
  origin := fun _ ho => absurd ho List.not_mem_nil
  same := fun _ ho => absurd ho List.not_mem_nil
  armed := fun _ hh => absurd hh List.not_mem_nil
  tracked := fun _ hh => absurd hh List.not_mem_nil
  early := fun _ hh => absurd hh List.not_mem_nil
  expired := nofun
  gone := fun _ hid => absurd hid List.not_mem_nil
  fresh := nofun

/-- **Step.**  Every step keeps `Watching`. -/
theorem watching_step (hi : Watching s d) (h : (keeper ι τ).step s a = some s') :
    Watching s' (Diary.note s a s' d) := by
  cases keeper_moves h with
  | @others a store why ha he hw =>
      have hd : Diary.note s a { s with store := store } d = d := by
        rcases ha with ⟨_, _, _, _, _, _, rfl⟩ | ⟨_, rfl⟩ <;> rfl
      rw [hd]
      rcases hw with rfl | rfl <;> exact hi.ends he nofun nofun nofun
  | clock hm => exact hi.clock hm
  | wake hw => exact hi.goes (fun _ => hi.asleep (.inl hw)) (List.nil_sublist _) nofun nofun
  | load hw =>
      simp only [Diary.note, hw]
      exact hi.load hw
  | tick hw =>
      -- the diary's ticks are no part of the invariant
      have hgo := hi.goes (w := .expiring s.held) nofun (List.Sublist.refl _) nofun nofun
      exact { hgo with asleep := nofun, fresh := nofun }
  | take hw he =>
      have hsub := hi.pending
      rw [hw] at hsub
      refine hi.goes nofun hsub ?_ nofun
      rintro _ _ ⟨⟩ t ht
      rw [ActiveOverride.isExpired, Option.mem_def.mp ht] at he
      exact of_decide_eq_true he
  | @skip o rest hw he =>
      have hsub := hi.pending
      rw [hw] at hsub
      exact hi.goes nofun ((List.sublist_cons_self o rest).trans hsub) nofun nofun
  | released hw =>
      simp only [Diary.note, hw]
      exact (hi.released hw).2
  | releaseLost hw => exact (hi.released hw).1
  | @releaseFails o rest hw =>
      have hsub := hi.pending
      rw [hw] at hsub
      exact hi.goes nofun ((List.sublist_cons_self o rest).trans hsub) nofun nofun
  | read hw =>
      refine hi.goes nofun (List.nil_sublist _) nofun ?_
      rintro _ ⟨⟩
      exact hi.listed
  | readFails hw => exact hi.goes nofun (List.nil_sublist _) nofun nofun
  | reload hw =>
      simp only [Diary.note, hw]
      exact hi.reload hw
  | due hw => exact hi.goes nofun (List.nil_sublist _) nofun nofun

/-- **Run.**  Every reachable state is `Watching`. -/
theorem watching_run {C : Keeper ι τ × Diary ι τ → KeeperAction ι τ → Prop} {db : Overrides ι τ}
    {mono wall : ℚ} {trusted : Bool} {as : List (KeeperAction ι τ)}
    (h : (keeping ι τ).RunIf C (Keeper.down db mono wall trusted, Diary.start) as (s, d)) :
    Watching s d := by
  refine h.invariant (I := fun p => Watching p.1 p.2) watching_down (Machine.ghost_preserves ?_)
  intro s d a s' _ hi hs
  exact watching_step hi hs

/-! ### Within a run -/

/-- A hold keeps its time. -/
structure HoldKept (s : Keeper ι τ) (d : Diary ι τ) : Prop where
  /-- Before its deadline it is commanded, unless another client ended it. -/
  commanded : s.watch = .deciding → ∀ h ∈ d.armed, s.mono < h.deadline →
    s.commanded h.hold.target = some h.hold ∨
      s.store.reasonOf h.hold.id = some .manual ∨ s.store.reasonOf h.hold.id = some .superseded
  /-- It is released as expired only from its deadline on. -/
  not_early : ∀ h ∈ d.armed, s.store.reasonOf h.hold.id = some .expired → h.deadline ≤ s.mono
  /-- It is not commanded again after that release. -/
  gone : ∀ id ∈ d.released, ∀ target, ∀ o ∈ s.commanded target, o.id ≠ id

/-- **A hold keeps its duration within a run**, whatever the wall clock and the store do. -/
theorem hold_kept {db : Overrides ι τ} {mono wall : ℚ} {trusted : Bool}
    {as : List (KeeperAction ι τ)}
    (h : (keeping ι τ).Run (Keeper.down db mono wall trusted, Diary.start) as (s, d)) :
    HoldKept s d := by
  have hi := watching_run h
  refine ⟨fun _ a ha hlt => ?_, hi.early, fun id hid target o ho => ?_⟩
  · cases hr : s.store.reasonOf a.hold.id with
    | none =>
        exact .inl ((find_key_eq_some_iff hi.targets).mpr ⟨hi.tracked a ha hr, rfl⟩)
    | some r =>
        cases r with
        | manual => exact .inr (.inl rfl)
        | superseded => exact .inr (.inr rfl)
        | expired => exact absurd (hi.early a ha hr) (not_le.mpr hlt)
        | lapsed => exact absurd hr (hi.armed a ha).2.2
  · exact (hi.gone id hid).2 o (List.mem_of_find?_eq_some ho)

/-- A minute's hold. -/
def minute : Overrides ℕ ℕ where
  rows := [⟨0, 0, 1 / 2, 60, .ramp, none⟩]
  unique := by decide
  one_open := by decide

/-- The wall clock jumps an hour ahead, and the store stops answering. -/
def steppedMidRun : List (KeeperAction ℕ ℕ) :=
  [.wake, .load, .clock 30 3600 true, .tick, .look, .readFails]

/-- The wall clock is set ahead, and the hold keeps its minute. -/
theorem hold_kept_stepped : ∃ s d,
    (keeping ℕ ℕ).Run (Keeper.down minute 0 0 true, Diary.start) steppedMidRun (s, d) ∧
      s.watch = .deciding ∧ s.commanded 0 = some ⟨0, 0, 1 / 2, 60, .ramp, some 60⟩ ∧
      HoldKept s d := by
  have hrun : ((keeping ℕ ℕ).exec (Keeper.down minute 0 0 true, Diary.start) steppedMidRun).map
      (fun p => (p.1.watch, p.1.commanded 0)) =
      some (.deciding, some ⟨0, 0, 1 / 2, 60, .ramp, some 60⟩) := by
    decide +kernel
  obtain ⟨⟨s, d⟩, hs, hl⟩ := Option.map_eq_some_iff.mp hrun
  obtain ⟨hw, hc⟩ := Prod.ext_iff.mp hl
  have h := Machine.exec_eq_some.mp hs
  exact ⟨s, d, h, hw, hc, hold_kept h⟩

/-! ### Across a restart -/

/-- No hold of before the outage is commanded by a tick that begins after its `expires_at`.  The
true time of the monotonic origin is `origin`. -/
def PromiseKept (origin : ℚ) (db : Overrides ι τ) (s : Keeper ι τ) (d : Diary ι τ) : Prop :=
  s.watch = .deciding → ∀ r ∈ db.rows, (∃ o ∈ s.commanded r.target, o.id = r.id) →
    ∃ t₁, d.firstTick = some t₁ ∧ origin + t₁ ≤ r.expiresAt ∧
      d.lastTick - t₁ ≤ r.expiresAt - (origin + t₁)

/-- The hold was due when the tick began. -/
def Diary.past (d : Diary ι τ) (o : ActiveOverride ι τ) : Prop :=
  ∃ t ∈ o.monotonicDeadline, t ≤ d.lastTick

/-- The wall clock that `load_active` arms a hold of before the outage by is not behind the true
time, and the store does not fail a release that is due. -/
def Promised (origin : ℚ) (db : Overrides ι τ) (p : Keeper ι τ × Diary ι τ)
    (a : KeeperAction ι τ) : Prop :=
  match a, p.1.watch with
  | .load, .waking wallNow =>
      (∃ r ∈ db.rows, p.1.store.reasonOf r.id = none ∧ wallNow < r.expiresAt) →
        origin + p.1.mono ≤ wallNow
  | .releaseFails false, .releasing o _ => o.id ∈ db.rows.map OverrideRow.id → ¬ p.2.past o
  | .readFails, _ => ∀ o ∈ p.1.held, o.id ∈ db.rows.map OverrideRow.id → ¬ p.2.past o
  | _, _ => True

/-- What every promised step keeps. -/
structure Owed (origin : ℚ) (db : Overrides ι τ) (s : Keeper ι τ) (d : Diary ι τ) : Prop where
  rows : db.rows.map OverrideRow.active ⊆ s.store.rows.map OverrideRow.active
  first : ∀ t ∈ d.firstTick, t ≤ d.lastTick ∧ d.lastTick ≤ s.mono
  begun : s.watch.ticking = true → d.firstTick ≠ none
  loaded : s.watch ≠ .down → (∀ w, s.watch ≠ .waking w) → ∀ id ∈ db.rows.map OverrideRow.id,
    s.store.reasonOf id = none → ∃ h ∈ d.armed, h.hold.id = id
  promised : ∀ h ∈ d.armed, h.hold.id ∈ db.rows.map OverrideRow.id →
    origin + h.deadline ≤ h.hold.expiresAt
  /-- A hold that was due, and that the loop has passed, has ended. -/
  looked : ∀ rest ∈ s.watch.looking, ∀ o ∈ s.held, o.id ∈ db.rows.map OverrideRow.id → o ∉ rest →
    d.past o → s.store.reasonOf o.id ≠ none
  read : ∀ fresh, s.watch = .rebuilding fresh → ∀ f ∈ fresh, f.id ∈ db.rows.map OverrideRow.id →
    ∃ h ∈ d.armed, h.hold.id = f.id ∧ ¬ d.past h.hold
  decided : s.watch = .deciding → ∀ o ∈ s.held, o.id ∈ db.rows.map OverrideRow.id → ¬ d.past o

variable {origin : ℚ} {db : Overrides ι τ}

omit [DecidableEq τ] in
/-- Rows end, in a tick or between two. -/
theorem Owed.ends {store : Overrides ι τ} {why : ReleaseReason} (ho : Owed origin db s d)
    (he : s.store.EndedBy store why) : Owed origin db { s with store := store } d := by
  have hended : ∀ id, s.store.reasonOf id ≠ none → store.reasonOf id ≠ none := fun id h => by
    rcases he.reasons id with hr | ⟨hr, -⟩
    · exact hr ▸ h
    · exact absurd hr h
  exact { ho with
    rows := fun _ h => he.known (ho.rows h)
    loaded := fun hd hw id hid hr =>
      ho.loaded hd hw id hid (Decidable.byContradiction fun h => hended id h hr)
    looked := fun rest hrest o hold hid hpast hdue =>
      hended _ (ho.looked rest hrest o hold hid hpast hdue) }

omit [DecidableEq τ] in
/-- The engine's process goes on, awake, and nothing else changes. -/
theorem Owed.goes {w : Watch ι τ} (ho : Owed origin db s d)
    (hawake : s.watch ≠ .down ∧ ∀ wall, s.watch ≠ .waking wall)
    (hticking : w.ticking = true → s.watch.ticking = true)
    (hlooked : ∀ rest ∈ w.looking, ∀ o ∈ s.held, o.id ∈ db.rows.map OverrideRow.id → o ∉ rest →
      d.past o → s.store.reasonOf o.id ≠ none)
    (hread : ∀ fresh, w = .rebuilding fresh → ∀ f ∈ fresh, f.id ∈ db.rows.map OverrideRow.id →
      ∃ h ∈ d.armed, h.hold.id = f.id ∧ ¬ d.past h.hold)
    (hdecided : w = .deciding → ∀ o ∈ s.held, o.id ∈ db.rows.map OverrideRow.id → ¬ d.past o) :
    Owed origin db { s with watch := w } d :=
  ⟨ho.rows, ho.first, fun h => ho.begun (hticking h), fun _ _ => ho.loaded hawake.1 hawake.2,
    ho.promised, hlooked, hread, hdecided⟩

omit [DecidableEq τ] in
/-- `load_active` arms what is owed for what is left of it. -/
theorem Owed.load {wallNow : ℚ} (hi : Watching s d) (ho : Owed origin db s d)
    (hw : s.watch = .waking wallNow) (hclock : (∃ r ∈ db.rows,
      s.store.reasonOf r.id = none ∧ wallNow < r.expiresAt) → origin + s.mono ≤ wallNow) :
    Owed origin db
      { s with
        store := (s.store.loadActive s.mono wallNow).1
        held := (s.store.loadActive s.mono wallNow).2.1
        watch := .idle }
      { d with
        armed := (s.store.close (fun r => decide (r.expiresAt ≤ wallNow)) .lapsed).listActive.map
          (arming s.mono wallNow) } := by
  obtain ⟨-, rfl⟩ := hi.asleep (.inr ⟨_, hw⟩)
  set store := s.store.close (fun r => decide (r.expiresAt ≤ wallNow)) .lapsed with hstore
  have hrows : db.rows.map OverrideRow.active ⊆ store.rows.map OverrideRow.active := by
    rw [hstore, Overrides.map_active_close]
    exact ho.rows
  refine ⟨hrows, nofun, nofun, ?_, ?_, nofun, nofun, nofun⟩
  · intro _ _ id hid hr
    obtain ⟨r, hr', rfl⟩ := List.mem_map.mp hid
    have hlive : r.active ∈ store.listActive :=
      Overrides.mem_listActive_iff.mpr ⟨hrows (List.mem_map_of_mem hr'), hr⟩
    exact ⟨_, List.mem_map_of_mem hlive, rfl⟩
  · intro h hh hid
    obtain ⟨f, hf, rfl⟩ := List.mem_map.mp hh
    -- what is still open was open, and has time left by the wall clock
    obtain ⟨r, hr, rfl⟩ := List.mem_map.mp hf
    rw [Overrides.live, hstore, Overrides.close, filter_isOpen_closeIf] at hr
    obtain ⟨hr, hopen⟩ := List.mem_filter.mp hr
    obtain ⟨hopen, hleft⟩ := Bool.and_eq_true_iff.mp hopen
    have hleft : wallNow < r.expiresAt := by simpa using hleft
    obtain ⟨r', hr', hid⟩ := List.mem_map.mp hid
    have hrow : r'.active = r.active :=
      s.store.eq_of_id_eq (ho.rows (List.mem_map_of_mem hr')) (List.mem_map_of_mem hr) hid
    have hbefore : origin + s.mono ≤ wallNow := by
      refine hclock ⟨r', hr', ?_, ?_⟩
      · have hlive : r.active ∈ s.store.listActive :=
          List.mem_map_of_mem (List.mem_filter.mpr ⟨hr, hopen⟩)
        rw [hid]
        exact (Overrides.mem_listActive_iff.mp hlive).2
      · exact lt_of_lt_of_eq hleft (congrArg ActiveOverride.expiresAt hrow).symm
    change origin + (s.mono + max (r.expiresAt - wallNow) 0) ≤ r.expiresAt
    rw [max_eq_left (by linarith)]
    linarith

omit [DecidableEq τ] in
/-- A hold that is due is released, or is still held while its row has ended. -/
theorem Owed.released {o : ActiveOverride ι τ} {rest : List (ActiveOverride ι τ)}
    (hi : Watching s d) (ho : Owed origin db s d) (hw : s.watch = .releasing o rest) :
    Owed origin db
      { s with store := (s.store.release o.id .expired).1, watch := .expiring rest } d := by
  have hrel : s.store.EndedBy (s.store.release o.id .expired).1 .expired :=
    Overrides.endedBy_release
  have hstore := ho.ends hrel
  refine hstore.goes ⟨by rw [hw]; nofun, by rw [hw]; nofun⟩ (fun _ => by rw [hw]; rfl) ?_ nofun nofun
  rintro _ ⟨⟩ x hx hid hnot hdue
  by_cases he : x = o
  · obtain ⟨h, hh, hhold⟩ := hi.origin x hx
    rw [he] at hhold ⊢
    have hknown := (hi.armed h hh).2.1
    rw [hhold] at hknown
    exact Overrides.reasonOf_release_ne_none (o := unarmed o) hknown
  · exact hstore.looked (o :: rest) (by rw [hw]; rfl) x hx hid
      (fun hmem => (List.mem_cons.mp hmem).elim he hnot) hdue

omit [DecidableEq τ] in
/-- A tick begins with all that is held. -/
theorem Owed.tick (ho : Owed origin db s d) (hw : s.watch = .idle) :
    Owed origin db { s with watch := .expiring s.held }
      { d with firstTick := d.firstTick.or (some s.mono), lastTick := s.mono } := by
  have hloaded := ho.loaded (by rw [hw]; nofun) (by rw [hw]; nofun)
  refine ⟨ho.rows, ?_, ?_, fun _ _ => hloaded, ho.promised, ?_, nofun, nofun⟩
  · intro t ht
    refine ⟨?_, le_refl _⟩
    change t ∈ d.firstTick.or (some s.mono) at ht
    cases hf : d.firstTick with
    | none => rw [hf] at ht; cases ht; exact le_refl _
    | some t₁ =>
        rw [hf] at ht
        cases ht
        exact (ho.first t hf).1.trans (ho.first t hf).2
  · intro _ hnone
    change d.firstTick.or (some s.mono) = none at hnone
    cases hf : d.firstTick <;> (rw [hf] at hnone; cases hnone)
  · rintro _ ⟨⟩ o hold _ hnot
    exact absurd hold hnot

/-- A reload keeps every row of before the outage that it reads again. -/
theorem Owed.reload {fresh : List (ActiveOverride ι τ)} (hi : Watching s d)
    (ho : Owed origin db s d) (hw : s.watch = .rebuilding fresh) :
    Owed origin db
      { s with
        held := fresh.map fun f => (kept s.held f).getD (f.arm s.mono s.wall)
        watch := .deciding }
      { d with
        armed := d.armed ++
          (fresh.filter fun f => (kept s.held f).isNone).map (arming s.mono s.wall) } := by
  have hf := hi.fresh fresh hw
  have hbegun := ho.begun (by rw [hw]; rfl)
  have hloaded := ho.loaded (by rw [hw]; nofun) (by rw [hw]; nofun)
  -- each row of before the outage that was read again is kept
  have hread : ∀ f ∈ fresh, f.id ∈ db.rows.map OverrideRow.id →
      ∃ h ∈ d.armed, kept s.held f = some h.hold ∧ ¬ d.past h.hold := by
    intro f hmem hid
    obtain ⟨h, hh, he, hdue⟩ := ho.read fresh hw f hmem hid
    exact ⟨h, hh, hi.kept_of_armed hf hmem hh he, hdue⟩
  refine ⟨ho.rows, ho.first, fun _ => hbegun, ?_, ?_, nofun, nofun, ?_⟩
  · intro _ _ id hid hr
    obtain ⟨h, hh, he⟩ := hloaded id hid hr
    exact ⟨h, List.mem_append_left _ hh, he⟩
  · intro h hh hid
    rcases List.mem_append.mp hh with hh | hh
    · exact ho.promised h hh hid
    · obtain ⟨f, hmem, hk, rfl⟩ := mem_newlyArmed hh
      obtain ⟨_, _, hk', _⟩ := hread f hmem hid
      rw [hk] at hk'
      cases hk'
  · intro _ o hold hid
    obtain ⟨f, hmem, hof, hk⟩ := hi.mem_reloaded hold
    rw [hof] at hid
    obtain ⟨h, hh, hk', hdue⟩ := hread f hmem hid
    rcases hk with ⟨-, hk⟩ | ⟨hk, -⟩
    · obtain rfl : h.hold = o := Option.some.inj (hk'.symm.trans hk)
      exact hdue
    · rw [hk] at hk'; cases hk'

/-- **Step.**  A promised step keeps what is owed. -/
theorem owed_step (hi : Watching s d) (ho : Owed origin db s d) (hC : Promised origin db (s, d) a)
    (h : (keeper ι τ).step s a = some s') : Owed origin db s' (Diary.note s a s' d) := by
  cases keeper_moves h with
  | @others a store why ha he hw =>
      have hd : Diary.note s a { s with store := store } d = d := by
        rcases ha with ⟨_, _, _, _, _, _, rfl⟩ | ⟨_, rfl⟩ <;> rfl
      rw [hd]
      exact ho.ends he
  | clock hm =>
      exact { ho with first := fun t ht => ⟨(ho.first t ht).1, (ho.first t ht).2.trans hm⟩ }
  | wake hw =>
      exact ⟨ho.rows, ho.first, nofun, fun _ hno => absurd rfl (hno _), ho.promised, nofun, nofun,
        nofun⟩
  | load hw =>
      simp only [Diary.note, hw]
      simp only [Promised, hw] at hC
      exact ho.load hi hw hC
  | tick hw => exact ho.tick hw
  | @take o rest hw he =>
      refine ho.goes ⟨by rw [hw]; nofun, by rw [hw]; nofun⟩ (fun _ => by rw [hw]; rfl) ?_ nofun nofun
      rintro _ ⟨⟩
      exact ho.looked (o :: rest) (by rw [hw]; rfl)
  | @skip o rest hw he =>
      refine ho.goes ⟨by rw [hw]; nofun, by rw [hw]; nofun⟩ (fun _ => by rw [hw]; rfl) ?_ nofun nofun
      rintro _ ⟨⟩ x hold hid hnot hdue
      refine ho.looked (o :: rest) (by rw [hw]; rfl) x hold hid (fun hmem => ?_) hdue
      rcases List.mem_cons.mp hmem with rfl | hmem
      · -- it was not due by the clock now, which is not before the tick's start
        obtain ⟨t, ht, hle⟩ := hdue
        obtain ⟨t₁, ht₁⟩ := Option.ne_none_iff_exists'.mp (ho.begun (by rw [hw]; rfl))
        rw [ActiveOverride.isExpired, Option.mem_def.mp ht] at he
        exact of_decide_eq_false he (hle.trans (ho.first t₁ ht₁).2)
      · exact hnot hmem
  | @released o rest hw =>
      simp only [Diary.note, hw]
      have hrel := ho.released hi hw
      refine ⟨hrel.rows, hrel.first, hrel.begun, hrel.loaded, hrel.promised, ?_, nofun, nofun⟩
      rintro _ ⟨⟩ x hold
      exact hrel.looked rest rfl x (List.mem_filter.mp hold).1
  | releaseLost hw => exact ho.released hi hw
  | @releaseFails o rest hw =>
      simp only [Promised, hw] at hC
      refine ho.goes ⟨by rw [hw]; nofun, by rw [hw]; nofun⟩ (fun _ => by rw [hw]; rfl) ?_ nofun nofun
      rintro _ ⟨⟩ x hold hid hnot hdue
      refine ho.looked (o :: rest) (by rw [hw]; rfl) x hold hid (fun hmem => ?_) hdue
      rcases List.mem_cons.mp hmem with rfl | hmem
      · exact hC hid hdue
      · exact hnot hmem
  | read hw =>
      refine ho.goes ⟨by rw [hw]; nofun, by rw [hw]; nofun⟩ (fun _ => by rw [hw]; rfl) nofun ?_ nofun
      rintro _ ⟨⟩ f hf hid
      obtain ⟨-, hnone⟩ := Overrides.mem_listActive_iff.mp hf
      obtain ⟨h, hh, he⟩ := ho.loaded (by rw [hw]; nofun) (by rw [hw]; nofun) f.id hid hnone
      refine ⟨h, hh, he, fun hdue => ?_⟩
      rw [← he] at hnone hid
      exact ho.looked [] (by rw [hw]; rfl) h.hold (hi.tracked h hh hnone) hid nofun hdue hnone
  | readFails hw =>
      exact ho.goes ⟨by rw [hw]; nofun, by rw [hw]; nofun⟩ (fun _ => by rw [hw]; rfl) nofun nofun
        fun _ => hC
  | reload hw =>
      simp only [Diary.note, hw]
      exact ho.reload hi hw
  | due hw =>
      exact ho.goes ⟨by rw [hw]; nofun, by rw [hw]; nofun⟩ nofun nofun nofun nofun

/-- **No hold outlives its promise across a restart**, in a run whose steps are all promised. -/
theorem promise_kept {mono wall : ℚ} {trusted : Bool} {as : List (KeeperAction ι τ)}
    (h : (keeping ι τ).RunIf (Promised origin db) (Keeper.down db mono wall trusted, Diary.start)
      as (s, d)) : PromiseKept origin db s d := by
  have hdown : Owed origin db (Keeper.down db mono wall trusted) Diary.start :=
    ⟨fun _ => id, nofun, nofun, fun hne => absurd rfl hne, nofun, nofun, nofun, nofun⟩
  have hrun : Watching s d ∧ Owed origin db s d := by
    refine h.invariant (I := fun p => Watching p.1 p.2 ∧ Owed origin db p.1 p.2)
      ⟨watching_down, hdown⟩ (Machine.ghost_preserves ?_)
    rintro s d a s' hC ⟨hi, ho⟩ hs
    exact ⟨watching_step hi hs, owed_step hi ho hC hs⟩
  obtain ⟨hi, ho⟩ := hrun
  intro hw r hr hcommanded
  obtain ⟨o, hc, hid⟩ := hcommanded
  have hold : o ∈ s.held := List.mem_of_find?_eq_some hc
  obtain ⟨a, ha, rfl⟩ := hi.origin o hold
  obtain ⟨hdeadline, hknown, -⟩ := hi.armed a ha
  have hmem : a.hold.id ∈ db.rows.map OverrideRow.id := hid ▸ List.mem_map_of_mem hr
  -- the hold is the one the row promised
  have hrow : unarmed a.hold = r.active :=
    s.store.eq_of_id_eq hknown (ho.rows (List.mem_map_of_mem hr)) hid
  have hpromise : origin + a.deadline ≤ r.expiresAt :=
    (ho.promised a ha hmem).trans_eq (congrArg ActiveOverride.expiresAt hrow)
  have hbefore : d.lastTick < a.deadline :=
    not_le.mp fun hle => ho.decided hw a.hold hold hmem ⟨_, hdeadline, hle⟩
  obtain ⟨t₁, ht₁⟩ := Option.ne_none_iff_exists'.mp (ho.begun (by rw [hw]; rfl))
  obtain ⟨hfirst, -⟩ := ho.first t₁ ht₁
  exact ⟨t₁, ht₁, by linarith, by linarith⟩

instance (d : Diary ι τ) (o : ActiveOverride ι τ) : Decidable (d.past o) :=
  match h : o.monotonicDeadline with
  | none => .isFalse fun ⟨_, ht, _⟩ => by rw [h] at ht; cases ht
  | some t => decidable_of_iff (t ≤ d.lastTick)
      ⟨fun hle => ⟨t, h, hle⟩, fun ⟨_, ht, hle⟩ => by rw [h] at ht; cases ht; exact hle⟩

instance (p : Keeper ι τ × Diary ι τ) (a : KeeperAction ι τ) : Decidable (Promised origin db p a) := by
  unfold Promised
  split <;> infer_instance

/-- The engine is back ten minutes into a hold of half an hour. -/
def halfHour : Overrides ℕ ℕ where
  rows := [⟨0, 0, 1 / 2, 1800, .ramp, none⟩]
  unique := by decide
  one_open := by decide

/-- The clock is set ahead between a reload's look at it and the next tick. -/
def backInTime : List (KeeperAction ℕ ℕ) :=
  [.wake, .load, .clock 10 610 true, .tick, .look, .read, .reload]

/-- A hold of half an hour, armed after the clock was set back. -/
theorem promise_kept_halfHour : ∃ s d,
    (keeping ℕ ℕ).RunIf (Promised 600 halfHour)
      (Keeper.down halfHour 0 600 false, Diary.start) backInTime (s, d) ∧
      s.watch = .deciding ∧ s.commanded 0 = some ⟨0, 0, 1 / 2, 1800, .ramp, some 1200⟩ ∧
      PromiseKept 600 halfHour s d := by
  have hrun : ((keeping ℕ ℕ).execIf (Promised 600 halfHour)
      (Keeper.down halfHour 0 600 false, Diary.start) backInTime).map
      (fun p => (p.1.watch, p.1.commanded 0)) =
      some (.deciding, some ⟨0, 0, 1 / 2, 1800, .ramp, some 1200⟩) := by
    decide +kernel
  obtain ⟨⟨s, d⟩, hs, hl⟩ := Option.map_eq_some_iff.mp hrun
  obtain ⟨hw, hc⟩ := Prod.ext_iff.mp hl
  have h := Machine.execIf_eq_some.mp hs
  exact ⟨s, d, h, hw, hc, promise_kept h⟩

/-- The outage lasts an hour, and the board comes back with its clock behind. -/
def backLate : List (KeeperAction ℕ ℕ) :=
  [.wake, .load, .clock 10 3610 true, .tick, .look, .read, .reload]

/-- A hold that was over half an hour ago is commanded. -/
theorem not_promise_kept :
    ¬ ∀ (origin : ℚ) (db : Overrides ℕ ℕ) (mono wall : ℚ) (trusted : Bool)
      (as : List (KeeperAction ℕ ℕ)) (s : Keeper ℕ ℕ) (d : Diary ℕ ℕ),
      (keeping ℕ ℕ).Run (Keeper.down db mono wall trusted, Diary.start) as (s, d) →
      (∀ a ∈ as, ∀ committed, a ≠ .releaseFails committed) → .readFails ∉ as →
      PromiseKept origin db s d := by
  intro h
  have hrun : ((keeping ℕ ℕ).exec (Keeper.down halfHour 0 1000 false, Diary.start) backLate).map
      (fun p => (p.1.watch, p.1.commanded 0, p.2.firstTick)) =
      some (.deciding, some ⟨0, 0, 1 / 2, 1800, .ramp, some 800⟩, some 10) := by
    decide +kernel
  obtain ⟨⟨s, d⟩, hs, hl⟩ := Option.map_eq_some_iff.mp hrun
  obtain ⟨hw, hl⟩ := Prod.ext_iff.mp hl
  obtain ⟨hc, hfirst⟩ := Prod.ext_iff.mp hl
  have hkept := h 3600 halfHour 0 1000 false backLate s d (Machine.exec_eq_some.mp hs)
    (by simp [backLate]) (by simp [backLate]) hw _ List.mem_cons_self ⟨_, hc, rfl⟩
  obtain ⟨t₁, ht₁, hpast, -⟩ := hkept
  have hfirst : d.firstTick = some 10 := hfirst
  rw [hfirst] at ht₁
  cases ht₁
  norm_num at hpast

end BellasReef.ControlEngine
