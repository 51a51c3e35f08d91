import BellasReef.Contracts.Assignments
import BellasReef.ControlEngine.Assignments
import BellasReef.Support.Machine

/-!
# ControlEngine — Redrain

How the engine's ledger follows the retained assignment stream.

Assignments reach the ledger on two paths: a core subscription, which loses what is published
while the client is disconnected, and `load_assignments`, which drains the stream.  A reconnect
asks for another drain by clearing `_assignments_loaded`, and a drain that ends sets it, whatever
became of the connection meanwhile.

`drained_ledger` says when the ledger is what the stream retains: no reconnect is handled inside a
drain, and a drain that ends while connected has left nothing behind, unless another is to come.
-/

namespace BellasReef.ControlEngine
open BellasReef.Contracts BellasReef.Support

variable {ι R T B : Type}

/-! ### The engine's two readers -/

/-- `load_assignments`, between two moments at which it waits. -/
inductive Load (μ : Type) where
  | idle
  /-- Called, and the pull consumer not there yet. -/
  | opening
  | reading (d : Drain μ)
  deriving DecidableEq

/-- The stream, the connection and the ledger. -/
structure Ledgers (ι R T B : Type) where
  provisioned : Bool
  /-- What the stream retains. -/
  retained : List (DeviceAssignment ι R T B)
  connected : Bool
  /-- The client is back, and `_on_reconnected` has still to run. -/
  reconnecting : Bool
  /-- On the core subscription, and not handed over yet. -/
  live : List (DeviceAssignment ι R T B)
  assignments : AssignmentLedger ι
  /-- `_assignments_loaded`. -/
  loaded : Bool
  load : Load (DeviceAssignment ι R T B)

/-- What the API, the broker, the connection and the loop do. -/
inductive LedgerAction (ι R T B : Type) where
  /-- hardware-io provisions the stream. -/
  | provision
  | publish (a : DeviceAssignment ι R T B)
  /-- The core subscription hands a message to `apply`. -/
  | deliver
  | disconnect
  | connect
  /-- `_on_reconnected`. -/
  | reconnected
  /-- `_loop` asks whether the assignments are loaded. -/
  | check
  /-- The pull consumer is there. -/
  | subscribed
  /-- There is no stream. -/
  | notFound
  /-- A fetch returns `n` messages. -/
  | fetch (n : ℕ)
  /-- The drain hands a message to `apply`. -/
  | apply
  /-- A fetch times out, which ends the drain. -/
  | timeout

/-- What the core subscription will hand over, after a publish. -/
def Ledgers.published (s : Ledgers ι R T B) (a : DeviceAssignment ι R T B) :
    List (DeviceAssignment ι R T B) :=
  if s.connected then s.live ++ [a] else s.live

/-- The pull consumer is there. -/
def Load.isReading {μ : Type} : Load μ → Bool
  | .reading _ => true
  | .idle | .opening => false

/-- What the broker has still to send the drain. -/
def Load.backlog {μ : Type} : Load μ → List μ
  | .reading d => d.backlog
  | .idle | .opening => []

variable [DecidableEq ι]

/-- The drain after a publish. -/
def Load.publish : Load (DeviceAssignment ι R T B) → DeviceAssignment ι R T B →
    Load (DeviceAssignment ι R T B)
  | .reading d, a => .reading (d.publish DeviceAssignment.deviceId a)
  | load, _ => load

/-- One step of one of them. -/
def Ledgers.step (s : Ledgers ι R T B) : LedgerAction ι R T B → Option (Ledgers ι R T B)
  | .provision => some { s with provisioned := true }
  | .publish a =>
      if s.provisioned then
        some { s with
          retained := retain DeviceAssignment.deviceId s.retained a
          live := s.published a
          load := s.load.publish a }
      else none
  | .deliver =>
      match s.live with
      | a :: rest => some { s with live := rest, assignments := (s.assignments.apply a).1 }
      | [] => none
  | .disconnect => some { s with connected := false, live := [] }
  | .connect =>
      if s.connected then none else some { s with connected := true, reconnecting := true }
  | .reconnected =>
      if s.reconnecting then some { s with reconnecting := false, loaded := false } else none
  | .check =>
      match s.load with
      | .idle =>
          if s.connected && !s.loaded then some { s with load := .opening } else some s
      | _ => none
  | .subscribed =>
      match s.load with
      | .opening =>
          if s.connected && s.provisioned then
            some { s with load := .reading (.start s.retained) }
          else none
      | _ => none
  | .notFound =>
      match s.load with
      | .opening =>
          if s.provisioned then none else some { s with load := .idle, loaded := false }
      | _ => none
  | .fetch n =>
      match s.load with
      | .reading ⟨[], backlog⟩ =>
          if s.connected then some { s with load := .reading (Drain.fetch ⟨[], backlog⟩ n) }
          else none
      | _ => none
  | .apply =>
      match s.load with
      | .reading ⟨a :: batch, backlog⟩ =>
          some { s with
            load := .reading ⟨batch, backlog⟩
            assignments := (s.assignments.apply a).1 }
      | _ => none
  | .timeout =>
      match s.load with
      | .reading ⟨[], _⟩ => some { s with load := .idle, loaded := true }
      | _ => none

/-- The engine's ledger, its two readers and the stream. -/
def ledgers (ι R T B : Type) [DecidableEq ι] : Machine (Ledgers ι R T B) (LedgerAction ι R T B) where
  step := fun s a => s.step a

/-- `run`, when the subscription is there and the first drain has been called.  The stream, where
it is provisioned, retains what had been published. -/
def Ledgers.started (stream : Option (List (DeviceAssignment ι R T B))) : Ledgers ι R T B where
  provisioned := stream.isSome
  retained := (stream.getD []).foldl (retain DeviceAssignment.deviceId) []
  connected := true
  reconnecting := false
  live := []
  assignments := ⟨∅⟩
  loaded := false
  load := .opening

/-- Whether the loop has run, connected, since the last reconnect. -/
def Ledgers.note (s : Ledgers ι R T B) (a : LedgerAction ι R T B) (_ : Ledgers ι R T B)
    (ran : Bool) : Bool :=
  match a with
  | .check => ran || s.connected
  | .reconnected => false
  | _ => ran

/-- The machine, and whether the loop has run since the last reconnect. -/
abbrev ledgersRan (ι R T B : Type) [DecidableEq ι] :
    Machine (Ledgers ι R T B × Bool) (LedgerAction ι R T B) := (ledgers ι R T B).ghost Ledgers.note

/-- Connected, with no drain in progress. -/
def Ledgers.AtRest (s : Ledgers ι R T B) : Prop :=
  s.connected = true ∧ s.reconnecting = false ∧ s.load = .idle

/-- The ledger, once what is on the core subscription has been handed over; with nothing in
flight, the ledger. -/
def Ledgers.upToDate (s : Ledgers ι R T B) : AssignmentLedger ι :=
  s.live.foldl (fun l a => (l.apply a).1) s.assignments

/-- `_on_reconnected` does not run inside a drain, and a drain that ends while connected, with none
to run, leaves nothing behind. -/
def Undisturbed (p : Ledgers ι R T B × Bool) : LedgerAction ι R T B → Prop
  | .reconnected => p.1.load.isReading = false
  | .timeout => p.1.connected = true → p.1.reconnecting = false → p.1.load.backlog = []
  | _ => True

instance (p : Ledgers ι R T B × Bool) : (a : LedgerAction ι R T B) → Decidable (Undisturbed p a)
  | .reconnected => inferInstanceAs (Decidable (_ = _))
  | .timeout => inferInstanceAs (Decidable (_ → _ → _ = []))
  | .provision | .publish _ | .deliver | .disconnect | .connect | .check | .subscribed
  | .notFound | .fetch _ | .apply => .isTrue trivial

/-! ### What a step can do -/

/-- What the drain has still to hand over. -/
def Load.pending : Load (DeviceAssignment ι R T B) → List (DeviceAssignment ι R T B)
  | .reading d => d.pending
  | .idle | .opening => []

/-- Every step, with what it changes. -/
inductive LedgerMoves (s : Ledgers ι R T B) : LedgerAction ι R T B → Ledgers ι R T B → Prop where
  | provision : LedgerMoves s .provision { s with provisioned := true }
  | publish (a : DeviceAssignment ι R T B) (hp : s.provisioned = true) :
      LedgerMoves s (.publish a)
        { s with
          retained := retain DeviceAssignment.deviceId s.retained a
          live := s.published a
          load := s.load.publish a }
  | deliver {a : DeviceAssignment ι R T B} {rest : List (DeviceAssignment ι R T B)}
      (hl : s.live = a :: rest) :
      LedgerMoves s .deliver { s with live := rest, assignments := (s.assignments.apply a).1 }
  | disconnect : LedgerMoves s .disconnect { s with connected := false, live := [] }
  | connect (hc : s.connected = false) :
      LedgerMoves s .connect { s with connected := true, reconnecting := true }
  | reconnected : LedgerMoves s .reconnected { s with reconnecting := false, loaded := false }
  | drain (hl : s.load = .idle) : LedgerMoves s .check { s with load := .opening }
  | checked (hl : s.load = .idle) (hc : s.connected = true → s.loaded = true) :
      LedgerMoves s .check s
  | subscribed (hl : s.load = .opening) :
      LedgerMoves s .subscribed { s with load := .reading (.start s.retained) }
  | notFound (hl : s.load = .opening) (hp : s.provisioned = false) :
      LedgerMoves s .notFound { s with load := .idle, loaded := false }
  | fetch {d : Drain (DeviceAssignment ι R T B)} {n : ℕ} (hl : s.load = .reading d) :
      LedgerMoves s (.fetch n) { s with load := .reading (d.fetch n) }
  | apply {a : DeviceAssignment ι R T B} {batch backlog : List (DeviceAssignment ι R T B)}
      (hl : s.load = .reading ⟨a :: batch, backlog⟩) :
      LedgerMoves s .apply
        { s with
          load := .reading ⟨batch, backlog⟩
          assignments := (s.assignments.apply a).1 }
  | timeout {backlog : List (DeviceAssignment ι R T B)} (hl : s.load = .reading ⟨[], backlog⟩) :
      LedgerMoves s .timeout { s with load := .idle, loaded := true }

variable {s s' : Ledgers ι R T B} {a : LedgerAction ι R T B} {ran : Bool}

/-- **Inversion.**  A step is one of `LedgerMoves`. -/
theorem ledger_moves (h : (ledgers ι R T B).step s a = some s') : LedgerMoves s a s' := by
  change s.step a = some s' at h
  cases a with
  | provision => cases h; exact .provision
  | publish a =>
      simp only [Ledgers.step] at h
      split at h
      · next hp => cases h; exact .publish a hp
      · cases h
  | deliver =>
      simp only [Ledgers.step] at h
      split at h
      · next hl => cases h; exact .deliver hl
      · cases h
  | disconnect => cases h; exact .disconnect
  | connect =>
      simp only [Ledgers.step] at h
      split at h
      · cases h
      · next hc => cases h; exact .connect (by simpa using hc)
  | reconnected =>
      simp only [Ledgers.step] at h
      split at h
      · cases h; exact .reconnected
      · cases h
  | check =>
      simp only [Ledgers.step] at h
      split at h
      · next hl =>
          split at h
          · cases h; exact .drain hl
          · next hc => cases h; exact .checked hl (by simpa using hc)
      · cases h
  | subscribed =>
      simp only [Ledgers.step] at h
      split at h
      · next hl =>
          split at h
          · cases h; exact .subscribed hl
          · cases h
      · cases h
  | notFound =>
      simp only [Ledgers.step] at h
      split at h
      · next hl =>
          split at h
          · cases h
          · next hp => cases h; exact .notFound hl (by simpa using hp)
      · cases h
  | fetch n =>
      simp only [Ledgers.step] at h
      split at h
      · next hl =>
          split at h
          · cases h; exact .fetch hl
          · cases h
      · cases h
  | apply =>
      simp only [Ledgers.step] at h
      split at h
      · next hl => cases h; exact .apply hl
      · cases h
  | timeout =>
      simp only [Ledgers.step] at h
      split at h
      · next hl => cases h; exact .timeout hl
      · cases h

/-! ### The invariant -/

/-- The ledger says of a device what the stream retains. -/
def Follows (retained : List (DeviceAssignment ι R T B)) (l : AssignmentLedger ι) (c : ι) : Prop :=
  c ∈ l.adopted ↔ (last DeviceAssignment.deviceId c retained).any DeviceAssignment.adopted = true

/-- The stream has been looked at since the connection came up. -/
def Synced (p : Ledgers ι R T B × Bool) : Prop :=
  (p.1.connected = true ∧ p.1.reconnecting = false) ∧ p.1.load ≠ .opening ∧
    (p.1.load = .idle → p.1.loaded = true ∨ p.2 = true)

/-- What undisturbed drains keep. -/
structure Redrained (p : Ledgers ι R T B × Bool) : Prop where
  distinct : (p.1.retained.map DeviceAssignment.deviceId).Nodup
  absent : p.1.provisioned = false → p.1.retained = []
  lost : p.1.connected = false → p.1.live = []
  seen : ∀ c ∈ p.1.assignments.adopted,
    (last DeviceAssignment.deviceId c p.1.retained).isSome = true
  live : Trails DeviceAssignment.deviceId p.1.retained p.1.live
  pending : Trails DeviceAssignment.deviceId p.1.retained p.1.load.pending
  follows : Synced p → ∀ c, last DeviceAssignment.deviceId c p.1.live = none →
    last DeviceAssignment.deviceId c p.1.load.pending = none →
    Follows p.1.retained p.1.assignments c

section Messages
variable {retained rest : List (DeviceAssignment ι R T B)} {l : AssignmentLedger ι}
  {a : DeviceAssignment ι R T B} {c : ι}

/-- Handing over the next message: its device follows the stream if no later message of it is to
come, and so does every other device that did. -/
theorem follows_apply (h : Trails DeviceAssignment.deviceId retained (a :: rest))
    (hr : last DeviceAssignment.deviceId c rest = none)
    (hf : last DeviceAssignment.deviceId c (a :: rest) = none → Follows retained l c) :
    Follows retained (l.apply a).1 c := by
  rw [Follows, AssignmentLedger.mem_apply]
  by_cases hc : a.deviceId = c
  · subst hc
    rw [if_pos rfl, h.head hr]
    rfl
  · rw [if_neg hc]
    exact hf (by rw [last_cons, hr, if_neg hc]; rfl)

/-- What the ledger has adopted the stream has an assignment of. -/
theorem seen_apply (h : Trails DeviceAssignment.deviceId retained (a :: rest))
    (hl : ∀ c ∈ l.adopted, (last DeviceAssignment.deviceId c retained).isSome = true) :
    ∀ c ∈ (l.apply a).1.adopted, (last DeviceAssignment.deviceId c retained).isSome = true := by
  intro c hc
  rw [AssignmentLedger.mem_apply] at hc
  split at hc
  · next he =>
      have hmem : a ∈ a :: rest := List.mem_cons_self
      obtain ⟨m, hm⟩ := Option.isSome_iff_exists.mp
        (isSome_last_of_mem DeviceAssignment.deviceId hmem)
      rw [he] at hm
      rw [h c m hm]
      rfl
  · exact hl c hc

end Messages

theorem last_pending_publish_ne {load : Load (DeviceAssignment ι R T B)}
    {a : DeviceAssignment ι R T B} {c : ι} (hc : a.deviceId ≠ c) :
    last DeviceAssignment.deviceId c (load.publish a).pending =
      last DeviceAssignment.deviceId c load.pending := by
  cases load with
  | idle | opening => rfl
  | reading d => exact Drain.last_pending_publish.trans (if_neg hc)

/-- A publish is the last that the core subscription has to hand over. -/
theorem last_published {a : DeviceAssignment ι R T B} {c : ι} (hc : s.connected = true) :
    last DeviceAssignment.deviceId c (s.published a) =
      if a.deviceId = c then some a else last DeviceAssignment.deviceId c s.live := by
  rw [Ledgers.published, if_pos hc]
  exact last_concat

omit [DecidableEq ι] in
/-- While the connection is down the core subscription gets nothing. -/
theorem published_lost {a : DeviceAssignment ι R T B} (hc : s.connected = false) :
    s.published a = s.live := by
  rw [Ledgers.published, hc]
  rfl

/-- An engine that starts has drained nothing. -/
theorem redrained_started (stream : Option (List (DeviceAssignment ι R T B))) :
    Redrained (Ledgers.started stream, false) where
  distinct := nodup_foldl_retain List.nodup_nil
  absent := by
    intro hp
    cases stream with
    | none => rfl
    | some _ => cases hp
  lost := fun hc => by cases hc
  seen := fun c hc => absurd hc (Finset.notMem_empty c)
  live := .nil
  pending := .nil
  follows := fun hs => absurd rfl hs.2.1

omit [DecidableEq ι] in
/-- While the retained states are read, the stream has been looked at. -/
theorem synced_of_reading {d : Drain (DeviceAssignment ι R T B)}
    (hc : s.connected = true ∧ s.reconnecting = false) (hl : s.load = .reading d) :
    Synced (s, ran) :=
  ⟨hc, by rw [hl]; exact nofun, by rw [hl]; exact nofun⟩

/-- The ledger has no device that the stream does not. -/
theorem follows_of_unseen {l : AssignmentLedger ι} {c : ι}
    (hseen : ∀ c ∈ l.adopted, (last DeviceAssignment.deviceId c s.retained).isSome = true)
    (hn : last DeviceAssignment.deviceId c s.retained = none) : Follows s.retained l c := by
  rw [Follows, hn]
  refine ⟨fun hc => ?_, nofun⟩
  have := hseen c hc
  rw [hn] at this
  cases this

/-- A publish reaches every live subscription and every drain in progress. -/
theorem Redrained.publish (h : Redrained (s, ran)) (a : DeviceAssignment ι R T B)
    (hp : s.provisioned = true) :
    Redrained ({ s with
      retained := retain DeviceAssignment.deviceId s.retained a
      live := s.published a
      load := s.load.publish a }, ran) := by
  refine ⟨nodup_retain h.distinct, fun hn => ?_, fun hc => ?_, fun c hmem => ?_, ?_, ?_,
    fun hs c hl hp => ?_⟩
  · have hn : s.provisioned = false := hn
    rw [hp] at hn
    cases hn
  · have hc : s.connected = false := hc
    change s.published a = []
    rw [published_lost hc]
    exact h.lost hc
  · rw [last_retain]
    split
    · rfl
    · exact h.seen c hmem
  · by_cases hc : s.connected = true
    · exact h.live.publish fun c => last_published hc
    · have hc : s.connected = false := by simpa using hc
      rw [published_lost hc, h.lost hc]
      exact .nil
  · cases hload : s.load with
    | idle | opening => exact .nil
    | reading d =>
        have hpending : Trails DeviceAssignment.deviceId s.retained s.load.pending := h.pending
        rw [hload] at hpending
        exact hpending.publish fun c => Drain.last_pending_publish
  · have hc : s.connected = true := hs.1.1
    rw [last_published hc] at hl
    split at hl
    · cases hl
    · next hne =>
        rw [Follows, last_retain, if_neg hne]
        refine h.follows ⟨hs.1, fun ho => hs.2.1 ?_, fun hi => hs.2.2 ?_⟩ c hl ?_
        · have ho : s.load = .opening := ho
          change s.load.publish a = .opening
          rw [ho]; rfl
        · have hi : s.load = .idle := hi
          change s.load.publish a = .idle
          rw [hi]; rfl
        · exact (last_pending_publish_ne hne).symm.trans hp

/-- **The invariant is kept** by every undisturbed step. -/
theorem redrained_step (h : Redrained (s, ran)) (hC : Undisturbed (s, ran) a)
    (hm : LedgerMoves s a s') : Redrained (s', Ledgers.note s a s' ran) := by
  have hpub := h.publish
  obtain ⟨hdistinct, habsent, hlost, hseen, hlive, hpending, hfollows⟩ := h
  cases hm with
  | provision => exact ⟨hdistinct, nofun, hlost, hseen, hlive, hpending, hfollows⟩
  | publish a hp => exact hpub a hp
  | @deliver a rest hl =>
      refine ⟨hdistinct, habsent, fun hc => ?_, ?_, ?_, hpending, fun hs c hr hp => ?_⟩
      · rw [hlost hc] at hl; cases hl
      · exact seen_apply (hl ▸ hlive) hseen
      · exact (hl ▸ hlive).tail
      · exact follows_apply (hl ▸ hlive) hr fun hn => hfollows hs c (hl ▸ hn) hp
  | disconnect =>
      exact ⟨hdistinct, habsent, fun _ => rfl, hseen, .nil, hpending,
        fun hs => absurd hs.1.1 Bool.false_ne_true⟩
  | connect hc =>
      -- whatever has been read, `_on_reconnected` is to ask for more
      exact ⟨hdistinct, habsent, nofun, hseen, hlive, hpending,
        fun hs => absurd hs.1.2.symm Bool.false_ne_true⟩
  | reconnected =>
      refine ⟨hdistinct, habsent, hlost, hseen, hlive, hpending, fun hs c _ _ => ?_⟩
      -- no drain is in progress, so nothing has been looked at yet
      obtain ⟨-, ho, hi⟩ := hs
      cases hload : s.load with
      | idle =>
          rcases hi hload with hl | hr
          · cases hl
          · cases hr
      | opening => exact absurd hload ho
      | reading d =>
          have hr : s.load.isReading = false := hC
          rw [hload] at hr
          cases hr
  | drain hl =>
      refine ⟨hdistinct, habsent, hlost, hseen, hlive, .nil, fun hs => absurd rfl hs.2.1⟩
  | checked hl hc =>
      exact ⟨hdistinct, habsent, hlost, hseen, hlive, hpending,
        fun hs => hfollows ⟨hs.1, hs.2.1, fun _ => .inl (hc hs.1.1)⟩⟩
  | subscribed hl =>
      refine ⟨hdistinct, habsent, hlost, hseen, hlive, fun c m hm => hm, fun hs c _ hp => ?_⟩
      -- All that is retained has still to be read.
      exact follows_of_unseen hseen hp
  | notFound hl hp =>
      refine ⟨hdistinct, habsent, hlost, hseen, hlive, .nil, fun hs c _ _ => ?_⟩
      have hn : s.retained = [] := habsent hp
      exact follows_of_unseen hseen (by rw [hn]; rfl)
  | @fetch d n hl =>
      have hpend : (Load.reading (d.fetch n)).pending = s.load.pending := by
        rw [hl]; exact Drain.pending_fetch
      refine ⟨hdistinct, habsent, hlost, hseen, hlive, hpend ▸ hpending, fun hs c hn hp => ?_⟩
      exact hfollows (synced_of_reading hs.1 hl) c hn (hpend ▸ hp)
  | @apply a batch backlog hl =>
      rw [hl] at hpending
      refine ⟨hdistinct, habsent, hlost, seen_apply hpending hseen, hlive, hpending.tail,
        fun hs c hn hp => follows_apply hpending hp fun hp => ?_⟩
      exact hfollows (synced_of_reading hs.1 hl) c hn (by rw [hl]; exact hp)
  | @timeout backlog hl =>
      refine ⟨hdistinct, habsent, hlost, hseen, hlive, .nil, fun hs c hn _ => ?_⟩
      have hb : s.load.backlog = [] := hC hs.1.1 hs.1.2
      refine hfollows (synced_of_reading hs.1 hl) c hn ?_
      rw [hl] at hb ⊢
      exact congrArg (last DeviceAssignment.deviceId c) hb

/-- **The ledger is what the stream retains**, in a run whose drains are undisturbed: once the
loop has run since the last reconnect, the client is connected and no drain is in progress. -/
theorem drained_ledger {stream : Option (List (DeviceAssignment ι R T B))}
    {as : List (LedgerAction ι R T B)}
    (h : (ledgersRan ι R T B).RunIf Undisturbed (Ledgers.started stream, false) as (s, true))
    (hrest : s.AtRest) : s.upToDate.adopted = adoptedDevices s.retained := by
  have hI : Redrained (s, true) := h.invariant (redrained_started stream)
    (Machine.ghost_preserves fun _ _ _ _ hC hI hs => redrained_step hI hC (ledger_moves hs))
  obtain ⟨hc, hr, hl⟩ := hrest
  have hs : Synced (s, true) := ⟨⟨hc, hr⟩, by rw [hl]; exact nofun, fun _ => .inr rfl⟩
  ext c
  rw [mem_adoptedDevices hI.distinct, Ledgers.upToDate]
  have hview : (c ∈ (s.live.foldl (fun l a => (l.apply a).1) s.assignments).adopted) = _ :=
    foldl_last (fun l a => (AssignmentLedger.apply l a).1) (fun l => c ∈ l.adopted)
      (fun a => a.adopted = true) (fun l a => propext AssignmentLedger.mem_apply) s.assignments
  rw [hview]
  cases hlast : last DeviceAssignment.deviceId c s.live with
  | none => exact hI.follows hs c hlast (by rw [hl]; rfl)
  | some a => rw [hI.live c a hlast]; rfl

instance [DecidableEq R] [DecidableEq T] [DecidableEq B] (s : Ledgers ι R T B) :
    Decidable s.AtRest := inferInstanceAs (Decidable (_ ∧ _ ∧ _))

/-- Device `0` with its channel, or its tombstone. -/
def light (adopted : Bool) : DeviceAssignment ℕ Unit Unit Unit :=
  ⟨0, adopted, none, some (), some (), bound_unit adopted⟩

/-- A drain that reads one message, up to its last fetch. -/
def drainOne : List (LedgerAction ℕ Unit Unit Unit) := [.subscribed, .fetch 32, .apply]

/-- The light's tombstone is published while the client is away. -/
def tombstoneAway : List (LedgerAction ℕ Unit Unit Unit) :=
  [.disconnect, .publish (light false), .connect, .reconnected]

/-- The first drain has ended when the client comes back, and the next one reads the tombstone. -/
theorem drained_ledger_tombstone :
    ∃ s, (ledgersRan ℕ Unit Unit Unit).RunIf Undisturbed (Ledgers.started (some [light true]), false)
        (drainOne ++ .timeout :: tombstoneAway ++ .check :: drainOne ++ [.timeout]) (s, true) ∧
      s.assignments = ⟨∅⟩ ∧ s.upToDate.adopted = adoptedDevices s.retained := by
  have hrun : ((ledgersRan ℕ Unit Unit Unit).execIf Undisturbed
      (Ledgers.started (some [light true]), false)
      (drainOne ++ .timeout :: tombstoneAway ++ .check :: drainOne ++ [.timeout])).map
      (fun p => (p.2, decide p.1.AtRest, p.1.assignments)) = some (true, true, ⟨∅⟩) := by
    decide +kernel
  obtain ⟨⟨s, ran⟩, hs, hl⟩ := Option.map_eq_some_iff.mp hrun
  obtain ⟨hran, hl⟩ := Prod.ext_iff.mp hl
  obtain ⟨hrest, hempty⟩ := Prod.ext_iff.mp hl
  obtain rfl : ran = true := hran
  have hs := Machine.execIf_eq_some.mp hs
  exact ⟨s, hs, hempty, drained_ledger hs (of_decide_eq_true hrest)⟩

/-- The client goes and comes back while the drain waits for its last fetch: the fetch times out,
the drain reports the assignments loaded, and the light stays adopted. -/
theorem not_drained_ledger :
    ¬ ∀ (stream : Option (List (DeviceAssignment ℕ Unit Unit Unit)))
      (as : List (LedgerAction ℕ Unit Unit Unit)) (s : Ledgers ℕ Unit Unit Unit),
      (ledgersRan ℕ Unit Unit Unit).Run (Ledgers.started stream, false) as (s, true) →
      s.AtRest → s.live = [] → s.assignments.adopted = adoptedDevices s.retained := by
  intro h
  have hrun : ((ledgersRan ℕ Unit Unit Unit).exec (Ledgers.started (some [light true]), false)
      (drainOne ++ tombstoneAway ++ [.timeout, .check])).map
      (fun p => (p.2, decide (p.1.AtRest ∧ p.1.live = []),
        decide (p.1.assignments.adopted = adoptedDevices p.1.retained))) =
      some (true, true, false) := by
    decide +kernel
  obtain ⟨⟨s, ran⟩, hs, hl⟩ := Option.map_eq_some_iff.mp hrun
  obtain ⟨hran, hl⟩ := Prod.ext_iff.mp hl
  obtain ⟨hrest, hfollows⟩ := Prod.ext_iff.mp hl
  obtain rfl : ran = true := hran
  obtain ⟨hrest, hlive⟩ := of_decide_eq_true hrest
  exact of_decide_eq_false hfollows (h _ _ s (Machine.exec_eq_some.mp hs) hrest hlive)

end BellasReef.ControlEngine
