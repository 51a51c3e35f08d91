import BellasReef.Support.Machine
import BellasReef.Support.Retained

/-!
# Api — StreamBridge

How a new client of the stream learns where things stand: `subscribe` reads the states that
`BR_STATE` retains, deletes the consumer it read them with, puts the frames in a queue and joins
the set that `_on_message` fans out to.

A state that is fanned out after the last fetch and before the join reaches neither, and a queue
holds 256 frames.  `learns`: where neither happens, a client that has joined has a frame of the
last state of every actuator as soon as nothing is on its way to the bridge.

* `Informed`: where the last state of an actuator is, while a client subscribes.
* `informed_step`: every step that meets `Timely` keeps it.
-/

namespace BellasReef.Api
open BellasReef.Support

variable {κ ι α ω : Type}

/-- A frame for a client; `other` is a sensor's, an alert's or a host's. -/
inductive Frame (α ω : Type) where
  | state (payload : α) (override : Option ω)
  | other
  deriving DecidableEq

/-- The state in a frame, if it is one. -/
def Frame.payload : Frame α ω → Option α
  | .state m _ => some m
  | .other => none

/-- The states that frames carry. -/
def payloads (frames : List (Frame α ω)) : List α := frames.filterMap Frame.payload

/-- `asyncio.Queue(maxsize=256)`. -/
def queueSize : ℕ := 256

/-- `sub.fetch(batch=64)`. -/
def replayBatch : ℕ := 64

/-- A client's socket, from before `subscribe` to `unsubscribe`. -/
inductive Client (α ω : Type) where
  | idle
  /-- `_retained_state`, with a fetch to come. -/
  | reading (consumer : Drain α) (frames : List (Frame α ω))
  /-- After its last fetch: the batch is encoded, and the consumer deleted. -/
  | replayed (batch : List α) (frames : List (Frame α ω))
  /-- In the set of subscribers: what it was sent, and its queue. -/
  | joined (sent queue : List (Frame α ω))
  /-- `subscribe` raised `QueueFull`. -/
  | failed
  deriving DecidableEq

namespace Client

/-- `queue.put_nowait`, where a full queue drops the frame. -/
def fanOut (f : Frame α ω) : Client α ω → Client α ω
  | joined sent queue => joined sent (if queue.length < queueSize then queue ++ [f] else queue)
  | c => c

/-- The stream has stored a state, and its consumers are to deliver it. -/
def stored [DecidableEq ι] (actuator : α → ι) (m : α) : Client α ω → Client α ω
  | reading consumer frames => reading (consumer.publish actuator m) frames
  | c => c

/-- A batch that is not full is the last. -/
def fetched (consumer : Drain α) (frames : List (Frame α ω)) : Client α ω :=
  if consumer.batch.length < replayBatch then replayed consumer.batch frames
  else reading consumer frames

/-- A client that has subscribed takes what the stream retains. -/
def fetch : Client α ω → Option (Client α ω)
  | reading ⟨[], backlog⟩ frames =>
      some (fetched (Drain.fetch ⟨[], backlog⟩ replayBatch) frames)
  | _ => none

/-- `_encode` of the next message, with the override that it found. -/
def encode (override : Option ω) : Client α ω → Option (Client α ω)
  | reading ⟨m :: batch, backlog⟩ frames =>
      some (reading ⟨batch, backlog⟩ (frames ++ [.state m override]))
  | replayed (m :: batch) frames => some (replayed batch (frames ++ [.state m override]))
  | _ => none

/-- The consumer is deleted: `subscribe` puts its frames in the queue, and joins. -/
def join : Client α ω → Option (Client α ω)
  | replayed [] frames => some (if frames.length ≤ queueSize then joined [] frames else failed)
  | _ => none

/-- The endpoint sends the next frame. -/
def get : Client α ω → Option (Client α ω)
  | joined sent (f :: queue) => some (joined (sent ++ [f]) queue)
  | _ => none

end Client

/-- `BR_STATE`, the bridge and its clients. -/
structure StreamBridge (κ α ω : Type) where
  /-- `_ensure_connected` has subscribed to the states. -/
  connected : Bool
  /-- Published states on their way to the stream, oldest first. -/
  storing : List α
  retained : List α
  /-- Published states on their way to the bridge, the one that `_on_message` encodes included. -/
  arriving : List α
  clients : κ → Client α ω

/-- What the publisher, the bridge and the clients do. -/
inductive BridgeAction (κ α ω : Type) where
  | publish (m : α)
  | stored
  | connect
  /-- `_on_message` has encoded a state, and fans it out. -/
  | onMessage (override : Option ω)
  /-- It fans out another frame. -/
  | other
  | subscribe (k : κ)
  | fetch (k : κ)
  | encode (k : κ) (override : Option ω)
  | join (k : κ)
  | get (k : κ)
  | unsubscribe (k : κ)

variable [DecidableEq κ] [DecidableEq ι]

/-- A client's own step. -/
def StreamBridge.client (s : StreamBridge κ α ω) (k : κ) (c : Option (Client α ω)) :
    Option (StreamBridge κ α ω) :=
  c.map fun c => { s with clients := Function.update s.clients k c }

/-- One step of the three. -/
def StreamBridge.step (actuator : α → ι) (s : StreamBridge κ α ω) :
    BridgeAction κ α ω → Option (StreamBridge κ α ω)
  | .publish m =>
      some { s with
        storing := s.storing ++ [m]
        arriving := if s.connected then s.arriving ++ [m] else s.arriving }
  | .stored =>
      match s.storing with
      | m :: rest =>
          some { s with
            storing := rest
            retained := retain actuator s.retained m
            clients := fun k => (s.clients k).stored actuator m }
      | [] => none
  | .connect => some { s with connected := true }
  | .onMessage override =>
      match s.arriving with
      | m :: rest =>
          some { s with
            arriving := rest
            clients := fun k => (s.clients k).fanOut (.state m override) }
      | [] => none
  | .other => some { s with clients := fun k => (s.clients k).fanOut .other }
  | .subscribe k =>
      match s.connected, s.clients k with
      | true, .idle => s.client k (some (.reading (.start s.retained) []))
      | _, _ => none
  | .fetch k => s.client k (s.clients k).fetch
  | .encode k override => s.client k ((s.clients k).encode override)
  | .join k => s.client k (s.clients k).join
  | .get k => s.client k (s.clients k).get
  | .unsubscribe k =>
      match s.clients k with
      | .joined _ _ => s.client k (some .idle)
      | _ => none

omit [DecidableEq κ] [DecidableEq ι] in
/-- Every state published, oldest first. -/
def BridgeAction.note (a : BridgeAction κ α ω) (published : List α) : List α :=
  match a with
  | .publish m => published ++ [m]
  | _ => published

/-- The machine, and what was published. -/
abbrev bridging (κ ω : Type) [DecidableEq κ] (actuator : α → ι) :
    Machine (StreamBridge κ α ω × List α) (BridgeAction κ α ω) :=
  Machine.ghost ⟨fun s a => s.step actuator a⟩ fun _ a _ published => a.note published

omit [DecidableEq κ] in
/-- A hub of which `BR_STATE` retains these states. -/
def StreamBridge.start (retained : List α) : StreamBridge κ α ω :=
  ⟨false, [], retained, [], fun _ => .idle⟩

namespace Client

/-- A state that is fanned out now reaches the client, or has been read for it, or is to be. -/
def Hears (m : α) : Client α ω → Prop
  | replayed batch frames => m ∈ batch ∨ m ∈ payloads frames
  | joined _ queue => queue.length < queueSize
  | _ => True

instance [DecidableEq α] (m : α) : DecidablePred (Hears m : Client α ω → Prop)
  | replayed _ _ => inferInstanceAs (Decidable (_ ∨ _))
  | joined _ _ => inferInstanceAs (Decidable (_ < _))
  | idle | reading _ _ | failed => inferInstanceAs (Decidable True)

/-- The next fetch is the last. -/
def Ends : Client α ω → Prop
  | reading ⟨[], backlog⟩ _ => backlog.length < replayBatch
  | _ => False

instance : DecidablePred (Ends : Client α ω → Prop)
  | reading ⟨[], _⟩ _ => inferInstanceAs (Decidable (_ < _))
  | reading ⟨_ :: _, _⟩ _ | idle | replayed _ _ | joined _ _ | failed =>
      inferInstanceAs (Decidable False)

/-- What has been read fits in the queue. -/
def Fits : Client α ω → Prop
  | replayed _ frames => frames.length ≤ queueSize
  | _ => True

instance : DecidablePred (Fits : Client α ω → Prop)
  | replayed _ _ => inferInstanceAs (Decidable (_ ≤ _))
  | idle | reading _ _ | joined _ _ | failed => inferInstanceAs (Decidable True)

end Client

/-- For client `k`: the last state of an actuator is not fanned out while the client does not hear
it, and has not been fanned out before the stream has it when the client reads its last; and what
the client has read fits in its queue. -/
def Timely (actuator : α → ι) (k : κ) (p : StreamBridge κ α ω × List α) :
    BridgeAction κ α ω → Prop
  | .onMessage _ => ∀ m ∈ p.1.arriving.head?,
      last actuator (actuator m) p.2 = some m → (p.1.clients k).Hears m
  | .fetch k' => k' = k → (p.1.clients k).Ends →
      ∀ m ∈ p.1.storing, last actuator (actuator m) p.2 = some m → m ∈ p.1.arriving
  | .join k' => k' = k → (p.1.clients k).Fits
  | _ => True

instance [DecidableEq α] (actuator : α → ι) (k : κ) (p : StreamBridge κ α ω × List α) :
    DecidablePred (Timely actuator k p)
  | .onMessage _ => inferInstanceAs (Decidable (∀ m ∈ p.1.arriving.head?, _ → _))
  | .fetch _ => inferInstanceAs (Decidable (_ → _ → ∀ m ∈ p.1.storing, _))
  | .join _ => inferInstanceAs (Decidable (_ → _))
  | .publish _ | .stored | .connect | .other | .subscribe _ | .encode _ _ | .get _
  | .unsubscribe _ => inferInstanceAs (Decidable True)

/-! ### Where the last state is -/

/-- A state is on its way to the client, or is in its frames. -/
def Known (storing arriving : List α) (m : α) : Client α ω → Prop
  | .idle => True
  | .reading consumer frames => m ∈ storing ∨ m ∈ consumer.pending ∨ m ∈ payloads frames
  | .replayed batch frames => m ∈ arriving ∨ m ∈ batch ∨ m ∈ payloads frames
  | .joined sent queue => m ∈ arriving ∨ m ∈ payloads (sent ++ queue)
  | .failed => True

/-- What a client is to be told is on its way, in order. -/
structure Informed (actuator : α → ι) (k : κ) (s : StreamBridge κ α ω) (published : List α) :
    Prop where
  /-- The stream has the last state of each actuator, or is to have it. -/
  stream : ∀ i, last actuator i published = last actuator i (s.retained ++ s.storing)
  connected : s.clients k ≠ .idle → s.connected = true
  succeeds : s.clients k ≠ .failed
  known : ∀ m, last actuator (actuator m) published = some m →
    Known s.storing s.arriving m (s.clients k)

section
variable {actuator : α → ι} {storing arriving rest : List α} {m m' : α} {c c' : Client α ω}
  {frames : List (Frame α ω)} {f : Frame α ω} {override : Option ω} {k : κ}
  {s s' : StreamBridge κ α ω} {published : List α} {a : BridgeAction κ α ω}

omit [DecidableEq κ] [DecidableEq ι]

@[simp] theorem payloads_append (frames' : List (Frame α ω)) :
    payloads (frames ++ frames') = payloads frames ++ payloads frames' :=
  List.filterMap_append

@[simp] theorem payloads_nil : payloads ([] : List (Frame α ω)) = [] := rfl

@[simp] theorem payloads_state : payloads [(.state m override : Frame α ω)] = [m] := rfl

/-- What a client knows of, it knows of while more is on its way. -/
theorem Known.mono (h : Known storing arriving m c) {storing' arriving' : List α}
    (hs : m ∈ storing → m ∈ storing') (ha : m ∈ arriving → m ∈ arriving') :
    Known storing' arriving' m c := by
  cases c with
  | idle | failed => trivial
  | reading consumer frames => exact Or.imp_left hs h
  | replayed batch frames => exact Or.imp_left ha h
  | joined sent queue => exact Or.imp_left ha h

/-- To fan a frame out connects nobody. -/
@[simp] theorem fanOut_eq_idle : c.fanOut f = .idle ↔ c = .idle := by
  cases c <;> simp [Client.fanOut]

@[simp] theorem fanOut_eq_failed : c.fanOut f = .failed ↔ c = .failed := by
  cases c <;> simp [Client.fanOut]

@[simp] theorem stored_eq_idle [DecidableEq ι] : c.stored actuator m = .idle ↔ c = .idle := by
  cases c <;> simp [Client.stored]

@[simp] theorem stored_eq_failed [DecidableEq ι] :
    c.stored actuator m = .failed ↔ c = .failed := by
  cases c <;> simp [Client.stored]

/-- A fetch is of a client that is there. -/
theorem fetch_awake (hc : c.fetch = some c') : c ≠ .idle ∧ c' ≠ .failed := by
  unfold Client.fetch at hc
  split at hc <;> cases hc
  rw [Client.fetched]
  split <;> exact ⟨nofun, nofun⟩

theorem encode_awake (hc : c.encode override = some c') : c ≠ .idle ∧ c' ≠ .failed := by
  unfold Client.encode at hc
  split at hc <;> cases hc <;> exact ⟨nofun, nofun⟩

theorem get_awake (hc : c.get = some c') : c ≠ .idle ∧ c' ≠ .failed := by
  unfold Client.get at hc
  split at hc <;> cases hc
  exact ⟨nofun, nofun⟩

theorem join_awake (hc : c.join = some c') (hfits : c.Fits) : c ≠ .idle ∧ c' ≠ .failed := by
  unfold Client.join at hc
  split at hc <;> cases hc
  next frames =>
    have hlen : frames.length ≤ queueSize := hfits
    rw [if_pos hlen]
    exact ⟨nofun, nofun⟩

/-- The last fetch takes all there is. -/
theorem known_fetch (h : Known storing arriving m c) (hc : c.fetch = some c')
    (hC : c.Ends → m ∈ storing → m ∈ arriving) : Known storing arriving m c' := by
  unfold Client.fetch at hc
  split at hc <;> cases hc
  next backlog frames =>
    rw [Client.fetched]
    split
    · next hl =>
        have hshort : backlog.length < replayBatch := by
          have hmin : min replayBatch backlog.length < replayBatch := by
            simpa [Drain.fetch] using hl
          omega
        have hall : (Drain.fetch ⟨[], backlog⟩ replayBatch).batch = backlog :=
          List.take_of_length_le (Nat.le_of_lt hshort)
        rcases h with h | h | h
        · exact .inl (hC hshort h)
        · exact .inr (.inl (hall.symm ▸ h))
        · exact .inr (.inr h)
    · exact h.imp_right (Or.imp_left fun hm => Drain.pending_fetch.symm ▸ hm)

/-- An encoded state is still to be told. -/
theorem known_encode (h : Known storing arriving m c) (hc : c.encode override = some c') :
    Known storing arriving m c' := by
  unfold Client.encode at hc
  split at hc
  · cases hc
    simpa [Known, Drain.pending, or_assoc, or_comm, or_left_comm] using h
  · cases hc
    simpa [Known, or_assoc, or_comm, or_left_comm] using h
  · cases hc

/-- So is what was fetched, when the client joins. -/
theorem known_join (h : Known storing arriving m c) (hc : c.join = some c') :
    Known storing arriving m c' := by
  unfold Client.join at hc
  split at hc
  · cases hc
    split
    · simpa [Known] using h
    · trivial
  · cases hc

/-- What the client gets it has been told. -/
theorem known_get (h : Known storing arriving m c) (hc : c.get = some c') :
    Known storing arriving m c' := by
  unfold Client.get at hc
  split at hc
  · cases hc
    simpa [Known] using h
  · cases hc

/-- To fan out takes no frame from a client. -/
theorem Known.fanOut (h : Known storing arriving m c) :
    Known storing arriving m (c.fanOut f) := by
  cases c with
  | idle | failed | reading | replayed => exact h
  | joined sent queue =>
      rw [Client.fanOut]
      split
      · refine h.imp_right fun hm => ?_
        rw [← List.append_assoc, payloads_append]
        exact List.mem_append_left _ hm
      · exact h

/-- A state that is fanned out was read, or goes into a queue with room for it. -/
theorem known_fanOut (h : Known storing (m' :: rest) m c) (hC : m = m' → c.Hears m) :
    Known storing rest m (c.fanOut (.state m' override)) := by
  by_cases hm : m = m'
  · have hears := hC hm
    cases c with
    | idle | failed => trivial
    | reading consumer frames => exact h
    | replayed batch frames => exact .inr hears
    | joined sent queue =>
        have hroom : queue.length < queueSize := hears
        rw [Client.fanOut, if_pos hroom]
        exact .inr (by simp [hm])
  · exact (h.mono id fun hmem => (List.mem_cons.mp hmem).resolve_left hm).fanOut

end

/-! ### Every step -/

section Steps
variable {actuator : α → ι} {storing arriving rest retained : List α} {m m' : α}
  {c c' : Client α ω} {override : Option ω} {k k' : κ} {s s' : StreamBridge κ α ω}
  {published : List α} {a : BridgeAction κ α ω}

omit [DecidableEq κ] in
/-- What the stream stores, a client that reads it is to read: the last state of its actuator, or
one that a later state on its way makes old. -/
theorem known_stored (h : Known (m' :: rest) arriving m c)
    (hlast : last actuator (actuator m) (retained ++ m' :: rest) = some m) :
    Known rest arriving m (c.stored actuator m') := by
  cases c with
  | idle | failed | replayed | joined => exact h
  | reading consumer frames =>
      rw [last_append, last_cons] at hlast
      by_cases hm : actuator m' = actuator m
      · rw [if_pos hm] at hlast
        cases hrest : last actuator (actuator m) rest with
        | some x =>
            rw [hrest] at hlast
            obtain rfl : x = m := Option.some.inj hlast
            exact .inl (mem_of_last hrest).1
        | none =>
            rw [hrest] at hlast
            obtain rfl : m' = m := Option.some.inj hlast
            have hpending : last actuator (actuator m')
                (consumer.publish actuator m').pending = some m' := by
              rw [Drain.last_pending_publish, if_pos rfl]
            exact .inr (.inl (mem_of_last hpending).1)
      · rcases h with h | h | h
        · rcases List.mem_cons.mp h with rfl | h
          · exact absurd rfl hm
          · exact .inl h
        · refine .inr (.inl ?_)
          rcases List.mem_append.mp h with h | h
          · exact List.mem_append_left _ h
          · refine List.mem_append_right _ (List.mem_append_left _ (List.mem_filter.mpr ⟨h, ?_⟩))
            simpa using Ne.symm hm
        · exact .inr (.inr h)

omit [DecidableEq κ] in
/-- What is so of a client's socket is so of the client. -/
theorem informed_of (hc : s.clients k = c)
    (hstream : ∀ i, last actuator i published = last actuator i (s.retained ++ s.storing))
    (hconn : c ≠ .idle → s.connected = true) (hf : c ≠ .failed)
    (hknown : ∀ m, last actuator (actuator m) published = some m →
      Known s.storing s.arriving m c) : Informed actuator k s published := by
  subst hc
  exact ⟨hstream, hconn, hf, hknown⟩

/-- A step of one client's own. -/
theorem Informed.client {c : Option (Client α ω)} (h : Informed actuator k s published)
    (hs : s.client k' c = some s')
    (hown : ∀ c', c = some c' → k' = k → s.connected = true ∧ c' ≠ .failed ∧
      ∀ m, last actuator (actuator m) published = some m → Known s.storing s.arriving m c') :
    Informed actuator k s' published := by
  obtain ⟨c', hc, rfl⟩ := Option.map_eq_some_iff.mp hs
  by_cases hk : k' = k
  · subst hk
    obtain ⟨hconn, hf, hknown⟩ := hown c' hc rfl
    exact informed_of (Function.update_self ..) h.stream (fun _ => hconn) hf hknown
  · exact informed_of (Function.update_of_ne (Ne.symm hk) ..) h.stream h.connected h.succeeds
      h.known

/-- A state that is published is on its way to the stream and, if it is connected, to the bridge. -/
theorem Informed.publish {m' : α} (h : Informed actuator k s published)
    (hs : s.step actuator (.publish m') = some s') :
    Informed actuator k s' (published ++ [m']) := by
  cases hs
  refine ⟨fun i => ?_, h.connected, h.succeeds, fun m hm => ?_⟩
  · change last actuator i (published ++ [m'])
      = last actuator i (s.retained ++ (s.storing ++ [m']))
    rw [← List.append_assoc, last_concat, last_concat, h.stream i]
  · change last actuator (actuator m) (published ++ [m']) = some m at hm
    rw [last_concat] at hm
    change Known (s.storing ++ [m']) (if s.connected then s.arriving ++ [m'] else s.arriving) m
      (s.clients k)
    split_ifs at hm with hi
    · obtain rfl : m' = m := Option.some.inj hm
      cases hc : s.clients k with
      | idle | failed => trivial
      | reading consumer frames => exact .inl (by simp)
      | replayed batch frames =>
          have hconn : s.connected = true := h.connected (by rw [hc]; rintro ⟨⟩)
          rw [if_pos hconn]
          exact .inl (by simp)
      | joined sent queue =>
          have hconn : s.connected = true := h.connected (by rw [hc]; rintro ⟨⟩)
          rw [if_pos hconn]
          exact .inl (by simp)
    · refine (h.known m hm).mono (List.mem_append_left _) fun ha => ?_
      split
      · exact List.mem_append_left _ ha
      · exact ha

/-- The stream stores the oldest state on its way to it. -/
theorem Informed.stored (h : Informed actuator k s published)
    (hs : s.step actuator .stored = some s') : Informed actuator k s' published := by
  cases hst : s.storing with
  | nil => rw [StreamBridge.step, hst] at hs; cases hs
  | cons m' rest =>
      rw [StreamBridge.step, hst] at hs
      cases hs
      have hstream := h.stream
      have hknown := h.known
      rw [hst] at hstream hknown
      refine informed_of rfl (fun i => ?_) (fun hi => h.connected (mt stored_eq_idle.mpr hi))
        (mt stored_eq_failed.mp h.succeeds)
        fun m hm => known_stored (hknown m hm) (hstream _ ▸ hm)
      change last actuator i published = last actuator i (retain actuator s.retained m' ++ rest)
      rw [hstream i, last_append, last_append, last_retain, last_cons, Option.or_assoc]
      congr 1
      split <;> rfl

/-- **Step.**  Each client is told the last state, or is to be. -/
theorem informed_step (hC : Timely actuator k (s, published) a)
    (h : Informed actuator k s published) (hs : s.step actuator a = some s') :
    Informed actuator k s' (a.note published) := by
  cases a with
  | publish m' => exact h.publish hs
  | stored => exact h.stored hs
  | connect =>
      cases hs
      exact ⟨h.stream, fun _ => rfl, h.succeeds, h.known⟩
  | onMessage override =>
      cases har : s.arriving with
      | nil => rw [StreamBridge.step, har] at hs; cases hs
      | cons m' rest =>
          rw [StreamBridge.step, har] at hs
          cases hs
          have hknown := h.known
          rw [har] at hknown
          refine informed_of rfl h.stream (fun hi => h.connected (mt fanOut_eq_idle.mpr hi))
            (mt fanOut_eq_failed.mp h.succeeds) fun m hm => known_fanOut (hknown m hm) ?_
          rintro rfl
          exact hC m (by simp [har]) hm
  | other =>
      cases hs
      exact informed_of rfl h.stream (fun hi => h.connected (mt fanOut_eq_idle.mpr hi))
        (mt fanOut_eq_failed.mp h.succeeds) fun m hm => (h.known m hm).fanOut
  | subscribe k' =>
      rw [StreamBridge.step] at hs
      split at hs
      · next hconn _ =>
          refine h.client hs fun c' hc _ => ?_
          cases hc
          refine ⟨hconn, nofun, fun m hm => ?_⟩
          rw [h.stream] at hm
          rcases List.mem_append.mp (mem_of_last hm).1 with hm | hm
          · exact .inr (.inl hm)
          · exact .inl hm
      · cases hs
  | fetch k' =>
      refine h.client hs fun c' hc hk => ?_
      subst hk
      obtain ⟨hi, hf⟩ := fetch_awake hc
      exact ⟨h.connected hi, hf, fun m hm => known_fetch (h.known m hm) hc
        fun he hst => hC rfl he m hst hm⟩
  | encode k' override =>
      refine h.client hs fun c' hc hk => ?_
      subst hk
      obtain ⟨hi, hf⟩ := encode_awake hc
      exact ⟨h.connected hi, hf, fun m hm => known_encode (h.known m hm) hc⟩
  | join k' =>
      refine h.client hs fun c' hc hk => ?_
      subst hk
      obtain ⟨hi, hf⟩ := join_awake hc (hC rfl)
      exact ⟨h.connected hi, hf, fun m hm => known_join (h.known m hm) hc⟩
  | get k' =>
      refine h.client hs fun c' hc hk => ?_
      subst hk
      obtain ⟨hi, hf⟩ := get_awake hc
      exact ⟨h.connected hi, hf, fun m hm => known_get (h.known m hm) hc⟩
  | unsubscribe k' =>
      rw [StreamBridge.step] at hs
      split at hs
      · next sent queue hj =>
          refine h.client hs fun c' hc hk => ?_
          subst hk
          cases hc
          exact ⟨h.connected (by rw [hj]; nofun), nofun, fun _ _ => trivial⟩
      · cases hs

end Steps

/-- **A new client learns where things stand.**  Where no state is missed and the frames fit,
`subscribe` succeeds, and a client that has joined has the last state of every actuator among its
frames as soon as none is on its way to the bridge. -/
theorem learns (actuator : α → ι) (retained : List α) (k : κ) (as : List (BridgeAction κ α ω))
    (s : StreamBridge κ α ω) (published : List α)
    (hrun : (bridging κ ω actuator).RunIf (Timely actuator k) (.start retained, retained) as
      (s, published)) :
    s.clients k ≠ .failed ∧
      (s.arriving = [] → ∀ sent queue, s.clients k = .joined sent queue →
        ∀ i m, last actuator i published = some m → m ∈ payloads (sent ++ queue)) := by
  have hi : Informed actuator k s published :=
    hrun.invariant (I := fun p => Informed actuator k p.1 p.2)
      (informed_of rfl (fun i => by rw [StreamBridge.start, List.append_nil]) nofun nofun
        fun _ _ => trivial)
      (Machine.ghost_preserves fun _ _ _ _ hC hI hs => informed_step hC hI hs)
  refine ⟨hi.succeeds, fun hquiet sent queue hj i m hm => ?_⟩
  obtain rfl : actuator m = i := (mem_of_last hm).2
  have hknown := hi.known m hm
  rw [hj, hquiet] at hknown
  exact hknown.resolve_left List.not_mem_nil

/-- A client subscribes, and a second light changes before it joins: its change is fanned out
after. -/
theorem learns_two : ∃ (s : StreamBridge ℕ (ℕ × ℕ) ℕ) (published : List (ℕ × ℕ)),
    (bridging ℕ ℕ Prod.fst).RunIf (Timely Prod.fst 0) (.start [(0, 5)], [(0, 5)])
      [.connect, .subscribe 0, .fetch 0, .encode 0 none, .publish (1, 7), .stored, .join 0,
        .onMessage none] (s, published) ∧
    ∃ sent queue, s.clients 0 = .joined sent queue ∧ (1, 7) ∈ payloads (sent ++ queue) := by
  have hp : ((bridging ℕ ℕ Prod.fst).execIf (Timely Prod.fst 0) (.start [(0, 5)], [(0, 5)])
      [.connect, .subscribe 0, .fetch 0, .encode 0 none, .publish (1, 7), .stored, .join 0,
        .onMessage none]).map (fun p => decide (p.1.arriving = [] ∧
          last Prod.fst 1 p.2 = some (1, 7) ∧
          p.1.clients 0 = .joined [] [.state (0, 5) none, .state (1, 7) none])) = some true := by
    decide +kernel
  obtain ⟨⟨s, published⟩, hrun, he⟩ := Option.map_eq_some_iff.mp hp
  obtain ⟨hquiet, hlast, hj⟩ := of_decide_eq_true he
  have hrun := Machine.execIf_eq_some.mp hrun
  exact ⟨s, published, hrun, _, _, hj,
    (learns Prod.fst _ 0 _ s published hrun).2 hquiet _ _ hj 1 (1, 7) hlast⟩

/-- The states of 257 lights. -/
def manyStates : List (ℕ × ℕ) := (List.range 257).map fun i => (i, 0)

/-- `n` full batches, fetched and encoded. -/
def fullBatches : ℕ → List (BridgeAction ℕ (ℕ × ℕ) ℕ)
  | 0 => []
  | n + 1 => .fetch 0 :: (List.replicate replayBatch (.encode 0 none) ++ fullBatches n)

/-- A light goes from 5 to 9 while the consumer is deleted: the client has 5, and nothing is in
flight.  And where 257 states are retained, `subscribe` fails. -/
theorem not_learns :
    (¬ ∀ (as : List (BridgeAction ℕ (ℕ × ℕ) ℕ)) (s : StreamBridge ℕ (ℕ × ℕ) ℕ)
        (published : List (ℕ × ℕ)),
        (bridging ℕ ℕ Prod.fst).Run (.start [(0, 5)], [(0, 5)]) as (s, published) →
        s.storing = [] → s.arriving = [] → ∀ sent queue, s.clients 0 = .joined sent queue →
          ∀ i m, last Prod.fst i published = some m → m ∈ payloads (sent ++ queue)) ∧
      ¬ ∀ (as : List (BridgeAction ℕ (ℕ × ℕ) ℕ)) (s : StreamBridge ℕ (ℕ × ℕ) ℕ)
        (published : List (ℕ × ℕ)),
        (bridging ℕ ℕ Prod.fst).Run (.start manyStates, manyStates) as (s, published) →
          s.clients 0 ≠ .failed := by
  constructor
  · intro h
    have hp : ((bridging ℕ ℕ Prod.fst).exec (.start [(0, 5)], [(0, 5)])
        [.connect, .subscribe 0, .fetch 0, .encode 0 none, .publish (0, 9), .stored,
          .onMessage none, .join 0]).map (fun p => decide (p.1.storing = [] ∧ p.1.arriving = [] ∧
            last Prod.fst 0 p.2 = some (0, 9) ∧
            p.1.clients 0 = .joined [] [.state (0, 5) none])) = some true := by
      decide +kernel
    obtain ⟨⟨s, published⟩, hrun, he⟩ := Option.map_eq_some_iff.mp hp
    obtain ⟨hst, har, hlast, hj⟩ := of_decide_eq_true he
    have hmem := h _ s published (Machine.exec_eq_some.mp hrun) hst har _ _ hj 0 (0, 9) hlast
    simp [payloads, Frame.payload] at hmem
  · intro h
    have hp : ((bridging ℕ ℕ Prod.fst).exec (.start manyStates, manyStates)
        (.connect :: .subscribe 0 :: fullBatches 4 ++
          [.fetch 0, .encode 0 none, .join 0])).map
            (fun p => decide (p.1.clients 0 = .failed)) = some true := by
      decide +kernel
    obtain ⟨⟨s, published⟩, hrun, he⟩ := Option.map_eq_some_iff.mp hp
    exact h _ s published (Machine.exec_eq_some.mp hrun) (of_decide_eq_true he)

end BellasReef.Api
