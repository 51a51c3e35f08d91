import BellasReef.Support.Json
import BellasReef.Support.Lists
import BellasReef.Support.Machine

/-!
# Api — AuditWriter

From `BR_AUDIT` to `audit_log`: `_to_row`, `drain_once`, and the durable consumer that delivers a
message again, at most five times, until it is acknowledged.

A batch is built and inserted whole, so a message that has no row takes its neighbours with it.
`lands_iff`: a run meets the condition of `Spares` at each step, that no message to be recorded is
in a batch that fails while it has no delivery left, if and only if in every state it reaches each
such message that is out of deliveries or acknowledged has its row.  Two messages that bring no id
have a row each, however alike they are: `recording` notes whose each row is.

* `logRow_isSome`: whether a message has a row does not depend on the clock or on `uuid4`.
* `recorded_of_rows`, `apart_made`: what a batch that is inserted leaves in the log.
* `audited_step`: the invariant, over every step.
-/

namespace BellasReef.Api
open BellasReef.Support

/-! ### Rows -/

/-- A Python `str`, by its code points. -/
abbrev Str := List ℕ

/-- A Lean text as a Python one. -/
def str (s : String) : Str := s.toList.map Char.toNat

/-- What UTF-8 and a Postgres text can hold: no NUL, and no half of a surrogate pair. -/
def encodable (c : ℕ) : Bool := c ≠ 0 ∧ ¬(0xD800 ≤ c ∧ c ≤ 0xDFFF)

/-- What a `JSONB` text can hold: `json.dumps` escapes two adjacent halves as it escapes the
character that they are of, so a first half is one with the second half that follows it. -/
def jsonText : Str → Bool
  | [] => true
  | [c] => encodable c
  | c :: d :: s =>
      if 0xD800 ≤ c ∧ c ≤ 0xDBFF ∧ 0xDC00 ≤ d ∧ d ≤ 0xDFFF then jsonText s
      else encodable c && jsonText (d :: s)

/-- A `uuid.UUID`. -/
abbrev Uuid := BitVec 128

/-- A `datetime`, in microseconds; a naive one has no offset. -/
structure Timestamp where
  micros : ℤ
  offset : Option ℤ
  deriving DecidableEq

/-- As an instant it is within the years 1 to 9999, where `astimezone` does not overflow. -/
def Timestamp.instant (t : Timestamp) : Option ℤ :=
  t.offset.bind fun o =>
    if -62135596800000000 ≤ t.micros - o ∧ t.micros - o ≤ 253402300799999999 then
      some (t.micros - o)
    else none

/-- What `_to_row` and the driver call of Python's libraries. -/
structure Library where
  loads : Bytes → Except LoadsError (Json Str)
  /-- `data.decode("utf-8", "replace")`. -/
  decode : Bytes → Str
  /-- `datetime.fromisoformat`; nothing for a `ValueError`. -/
  fromisoformat : Str → Option Timestamp
  /-- `str()` of what is not a text. -/
  str : Json Str → Str
  /-- A text as a `UUID`. -/
  uuid : Str → Option Uuid

/-- Python's truth. -/
def truthy : Json Str → Bool
  | .null => false
  | .bool b => b
  | .int n => n ≠ 0
  | .float x => x ≠ 0
  | .nonFinite => true
  | .str s => !s.isEmpty
  | .list xs => !xs.isEmpty
  | .dict fields => !fields.isEmpty

/-- `_VALID_CATEGORIES`. -/
def validCategories : List Str :=
  ["command", "config", "auth", "state", "safety", "calibration", "alert"].map str

/-- `_TIMESTAMP_KEYS`. -/
def timestampKeys : List Str := ["occurred_at", "emitted_at", "observed_at"].map str

/-- `_DEVICE_KEYS`. -/
def deviceKeys : List Str := ["actuator_id", "device_id", "target", "channel_id"].map str

/-- A `dict` that `json.loads` made, in the order of its keys. -/
abbrev Event := List (Str × Json Str)

/-- `{**event, key: value}`. -/
def setItem (event : Event) (key : Str) (value : Json Str) : Event :=
  if (event.lookup key).isSome then
    event.map fun (k, v) => if k = key then (k, value) else (k, v)
  else event ++ [(key, value)]

/-- `subject.split(".")[-1]`. -/
def lastToken (subject : Str) : Str := (subject.reverse.takeWhile (· ≠ '.'.toNat)).reverse

/-- What `_to_row` raises. -/
inductive RowError where
  | loads (e : LoadsError)
  | attributeError
  | typeError
  deriving DecidableEq

/-- `event.get("message_id")`, or what `uuid4` made. -/
inductive MessageId where
  | given (v : Json Str)
  | synthesised (u : Uuid)

/-- What `_to_row` returns. -/
structure Row where
  messageId : MessageId
  occurredAt : Timestamp
  category : Str
  actor : Str
  subject : Str
  deviceId : Option Str
  event : Event

section
variable (py : Library)

/-- `_event_time`. -/
def eventTime (now : Timestamp) (event : Event) : Timestamp :=
  (timestampKeys.findSome? fun key =>
    match event.lookup key with
    | some (.str raw) => (py.fromisoformat raw).filter fun t => t.offset.isSome
    | _ => none).getD now

/-- `_event_device_id`. -/
def eventDeviceId (event : Event) : Option Str :=
  deviceKeys.findSome? fun key =>
    match event.lookup key with
    | some (.str raw) => if raw.isEmpty then none else some raw
    | _ => none

/-- How `_to_row` begins: what is not JSON is kept as it is. -/
def loaded (data : Bytes) : Except RowError (Json Str) :=
  match py.loads data with
  | .ok event => .ok event
  | .error e =>
      if e.kind = .jsonDecodeError then .ok (.dict [(str "raw", .str (py.decode data))])
      else .error (.loads e)

/-- The event and its category; a subject that is of none is parked. -/
def eventOf (subject : Str) (data : Bytes) : Except RowError (Event × Str) :=
  match loaded py data with
  | .error e => .error e
  | .ok (.dict event) =>
      if lastToken subject ∈ validCategories then .ok (event, lastToken subject)
      else .ok (setItem event (str "original_category") (.str (lastToken subject)), str "safety")
  | .ok _ => .error (if lastToken subject ∈ validCategories then .attributeError else .typeError)

/-- `str(event.get("actor", "unknown"))`. -/
def actorOf (event : Event) : Str :=
  match event.lookup (str "actor") with
  | some (.str s) => s
  | some v => py.str v
  | none => str "unknown"

/-- `event.get("message_id") or str(uuid.uuid4())`. -/
def messageIdOf (uuid4 : Uuid) (event : Event) : MessageId :=
  match event.lookup (str "message_id") with
  | some v => if truthy v then .given v else .synthesised uuid4
  | none => .synthesised uuid4

/-- `_to_row`. -/
def toRow (now : Timestamp) (uuid4 : Uuid) (subject : Str) (data : Bytes) : Except RowError Row :=
  (eventOf py subject data).map fun (event, category) =>
    { messageId := messageIdOf uuid4 event
      occurredAt := eventTime py now event
      category := category
      actor := actorOf py event
      subject := subject
      deviceId := eventDeviceId event
      event := event }

/-- A row of `audit_log`; its event is what `json.dumps` was given. -/
structure AuditLog where
  messageId : Uuid
  occurredAt : ℤ
  category : Str
  actor : Str
  subject : Str
  deviceId : Option Str
  event : Event

/-- `String(n)`: Postgres refuses a longer text, unless what is over is blank. -/
def varchar (n : ℕ) (s : Str) : Option Str :=
  if s.all encodable && (s.drop n).all (· = ' '.toNat) then some (s.take n) else none

/-- What Postgres makes of a message id. -/
def MessageId.uuid : MessageId → Option Uuid
  | .given (.str s) => py.uuid s
  | .given _ => none
  | .synthesised u => some u

/-- The texts of a row, in their columns, where the event is one that `JSONB` takes. -/
def Row.columns (row : Row) : Option (Str × Str × Str × Option Str) := do
  let category ← varchar 32 row.category
  let actor ← varchar 64 row.actor
  let subject ← varchar 255 row.subject
  let deviceId ← row.deviceId.elim (some none) fun d => (varchar 64 d).map some
  if category ∈ validCategories && (Json.dict row.event).portable jsonText then
    some (category, actor, subject, deviceId)
  else none

/-- The row, as `_INSERT` would store it; nothing where a column refuses its value. -/
def Row.stored (row : Row) : Option AuditLog :=
  match row.messageId.uuid py, row.occurredAt.instant, row.columns with
  | some messageId, some occurredAt, some (category, actor, subject, deviceId) =>
      some ⟨messageId, occurredAt, category, actor, subject, deviceId, row.event⟩
  | _, _, _ => none

/-- The row of a message. -/
def logRow (now : Timestamp) (uuid4 : Uuid) (subject : Str) (data : Bytes) : Option AuditLog :=
  match toRow py now uuid4 subject data with
  | .ok row => row.stored py
  | .error _ => none

/-- Whether a message has a row. -/
def storable (subject : Str) (data : Bytes) : Bool :=
  (logRow py ⟨0, some 0⟩ 0 subject data).isSome

/-- The id that a message brings: none, or one that is a `UUID`; otherwise it brings another. -/
def givenId (event : Event) : Option (Option Uuid) :=
  match event.lookup (str "message_id") with
  | none | some .null => some none
  | some (.str s) => (py.uuid s).map some
  | some _ => none

end

/-! ### Deliveries -/

/-- `max_deliver`. -/
def maxDeliver : ℕ := 5

/-- A message of `BR_AUDIT`, and what the broker keeps of it. -/
structure Delivery where
  subject : Str
  data : Bytes
  deliveries : ℕ
  /-- Delivered, and within its `ack_wait`. -/
  outstanding : Bool
  acked : Bool

/-- Where `drain_once` is; a batch is of places in the stream. -/
inductive Draining where
  | idle
  | fetched (batch : List ℕ)
  | acking (batch : List ℕ)
  deriving DecidableEq

/-- The stream, the writer and the table. -/
structure Auditing where
  stream : List Delivery
  writer : Draining
  log : List AuditLog

/-- What the publishers, the broker and the writer do. -/
inductive AuditAction where
  | publish (subject : Str) (data : Bytes)
  | fetch (batch : List ℕ)
  /-- The batch is built and inserted, in one transaction. -/
  | insert (now : Timestamp) (uuid4 : ℕ → Uuid)
  | ack
  /-- `ack_wait` passes. -/
  | expire (n : ℕ)
  /-- The process starts again. -/
  | restart

/-- The broker may deliver the message. -/
def Delivery.due (d : Delivery) : Bool :=
  !d.acked && !d.outstanding && decide (d.deliveries < maxDeliver)

/-- It is no longer outstanding: it is acknowledged, or its `ack_wait` has passed. -/
def Delivery.settle (acked : Bool) (d : Delivery) : Delivery :=
  { d with outstanding := false, acked := acked || d.acked }

namespace Auditing

/-- The message is delivered once more. -/
def deliver (stream : List Delivery) (n : ℕ) : List Delivery :=
  stream.modify n fun d => { d with deliveries := d.deliveries + 1, outstanding := true }

/-- The row of a message of the stream. -/
def row (py : Library) (s : Auditing) (now : Timestamp) (uuid4 : ℕ → Uuid) (n : ℕ) :
    Option AuditLog :=
  s.stream[n]?.bind fun d => logRow py now (uuid4 n) d.subject d.data

/-- `rows`, if `audit_log` takes them all. -/
def rows (py : Library) (s : Auditing) (now : Timestamp) (uuid4 : ℕ → Uuid) (batch : List ℕ) :
    Option (List AuditLog) :=
  if batch.all fun n => (s.row py now uuid4 n).isSome then
    some (batch.filterMap (s.row py now uuid4))
  else none

/-- An id of `uuid4` is nowhere else. -/
def Fresh (s : Auditing) (uuid4 : ℕ → Uuid) (batch : List ℕ) (rows : List AuditLog) : Prop :=
  ∀ n ∈ batch, uuid4 n ∉ s.log.map AuditLog.messageId ∧
    (rows.map AuditLog.messageId).count (uuid4 n) ≤ 1

instance (s : Auditing) (uuid4 : ℕ → Uuid) (batch : List ℕ) (rows : List AuditLog) :
    Decidable (s.Fresh uuid4 batch rows) :=
  inferInstanceAs (Decidable (∀ n ∈ batch, _))

/-- One step; none is possible that the writer, where it is, does not take. -/
def step (py : Library) (s : Auditing) : AuditAction → Option Auditing
  | .publish subject data =>
      some { s with stream := s.stream ++ [⟨subject, data, 0, false, false⟩] }
  | .fetch batch =>
      if s.writer = .idle ∧ batch ≠ [] ∧ batch.length ≤ 64 ∧ batch.Nodup ∧
          batch.all fun n => (s.stream[n]?.map Delivery.due).getD false then
        some { s with stream := batch.foldl deliver s.stream, writer := .fetched batch }
      else none
  | .insert now uuid4 =>
      match s.writer with
      | .fetched batch =>
          if now.instant.isSome then
            match s.rows py now uuid4 batch with
            | none => some { s with writer := .idle }
            | some rows =>
                if s.Fresh uuid4 batch rows then
                  some { s with
                    writer := .acking batch
                    log := rows.foldl (insertNew AuditLog.messageId) s.log }
                else none
          else none
      | _ => none
  | .ack =>
      match s.writer with
      | .acking (n :: batch) =>
          some { s with
            stream := s.stream.modify n (Delivery.settle true)
            writer := .acking batch }
      | .acking [] => some { s with writer := .idle }
      | _ => none
  | .expire n => some { s with stream := s.stream.modify n (Delivery.settle false) }
  | .restart => some { s with writer := .idle }

end Auditing

/-- The machine of these steps. -/
abbrev auditing (py : Library) : Machine Auditing AuditAction := ⟨fun s a => s.step py a⟩

/-- For each message, the id of the row that was last made of it in a batch that was inserted. -/
abbrev RowIds := ℕ → Option Uuid

/-- The ids of the rows of a batch. -/
def Auditing.made (py : Library) (s : Auditing) (now : Timestamp) (uuid4 : ℕ → Uuid)
    (batch : List ℕ) (ids : RowIds) : RowIds := fun n =>
  if n ∈ batch then (s.row py now uuid4 n).map AuditLog.messageId else ids n

/-- An insert that is refused, and any other step, makes no row. -/
def Auditing.note (py : Library) (s : Auditing) (a : AuditAction) (ids : RowIds) : RowIds :=
  match a, s.writer with
  | .insert now uuid4, .fetched batch =>
      if (s.rows py now uuid4 batch).isSome then s.made py now uuid4 batch ids else ids
  | _, _ => ids

/-- The writer, with a note of whose each row is. -/
abbrev recording (py : Library) : Machine (Auditing × RowIds) AuditAction :=
  (auditing py).ghost fun s a _ => s.note py a

/-- Every message still to be delivered, and a log. -/
def Auditing.start (messages : List (Str × Bytes)) (log : List AuditLog) : Auditing :=
  ⟨messages.map fun (subject, data) => ⟨subject, data, 0, false, false⟩, .idle, log⟩

/-! ### What is owed -/

section
variable (py : Library)

/-- The message is to be recorded: a JSON object with a `UUID` for an id, or none; or anything else
that has a row. -/
def Delivery.owed (d : Delivery) : Bool :=
  storable py d.subject d.data ||
    match py.loads d.data with
    | .ok (.dict event) => (givenId py event).isSome
    | _ => false

/-- The message brings the id. -/
def Delivery.Brings (d : Delivery) (u : Uuid) : Prop :=
  ∃ event, py.loads d.data = .ok (.dict event) ∧ givenId py event = some (some u)

/-- Message `n` has the row that was made of it, or there is one of the id it brings. -/
def Recorded (log : List AuditLog) (ids : RowIds) (n : ℕ) (d : Delivery) : Prop :=
  (∃ r ∈ log, ids n = some r.messageId ∧
      ∃ now uuid4, logRow py now uuid4 d.subject d.data = some r) ∨
    ∃ u, d.Brings py u ∧ u ∈ log.map AuditLog.messageId

/-- Two messages have one row only where one of them brings its id. -/
def Apart (stream : List Delivery) (ids : RowIds) : Prop :=
  ∀ m n u, ids m = some u → ids n = some u →
    m = n ∨ ∃ k d, (k = m ∨ k = n) ∧ stream[k]? = some d ∧ d.Brings py u

/-- The writer has the message in hand. -/
def Draining.holds (n : ℕ) : Draining → Prop
  | .fetched batch => n ∈ batch
  | _ => False

/-- **The audit trail**: what is owed and is acknowledged, or out of deliveries, is recorded, in a
row of its own unless it brings an id; and no message id has two rows. -/
structure Lands (s : Auditing) (ids : RowIds) : Prop where
  recorded : ∀ n d, s.stream[n]? = some d → d.owed py = true →
    d.acked = true ∨ d.deliveries = maxDeliver → ¬ s.writer.holds n → Recorded py s.log ids n d
  apart : Apart py s.stream ids
  once : (s.log.map AuditLog.messageId).Nodup

/-- A message that the writer has in hand and is owed is recorded, or may be delivered again. -/
def Auditing.CanWait (s : Auditing) (ids : RowIds) (n : ℕ) : Prop :=
  ∀ d, s.stream[n]? = some d → d.owed py = true →
    d.deliveries < maxDeliver ∨ Recorded py s.log ids n d

/-- A batch of which a message has no row, or which the writer drops, can wait. -/
def Spares (s : Auditing) (ids : RowIds) : AuditAction → Prop
  | .insert _ _ => ∀ batch, s.writer = .fetched batch →
      (∃ n ∈ batch, ∃ d, s.stream[n]? = some d ∧ storable py d.subject d.data = false) →
        ∀ n ∈ batch, s.CanWait py ids n
  | .restart => ∀ batch, s.writer = .fetched batch → ∀ n ∈ batch, s.CanWait py ids n
  | _ => True

end

/-! ### One message -/

section Message
variable {py : Library} {now now' : Timestamp} {uuid4 uuid4' : Uuid} {subject : Str} {data : Bytes}
  {event : Event} {category : Str} {r : AuditLog} {log log' : List AuditLog} {d d' : Delivery}
  {ids : RowIds} {n : ℕ} {stream stream' : List Delivery}

theorem logRow_eq_some :
    logRow py now uuid4 subject data = some r ↔ ∃ row, toRow py now uuid4 subject data = .ok row ∧
      row.stored py = some r := by
  rw [logRow]
  cases toRow py now uuid4 subject data with
  | error e => simp
  | ok row => simp

/-- The clock is read where the event has no time of its own, and it tells one. -/
theorem instant_eventTime_isSome (h : now.instant.isSome) (h' : now'.instant.isSome) :
    (eventTime py now event).instant.isSome = (eventTime py now' event).instant.isSome := by
  rw [eventTime, eventTime]
  cases timestampKeys.findSome? _ with
  | some t => rfl
  | none => exact h.trans h'.symm

/-- What `uuid4` makes is a `UUID`. -/
theorem uuid_messageIdOf_isSome :
    ((messageIdOf uuid4 event).uuid py).isSome = ((messageIdOf uuid4' event).uuid py).isSome := by
  rw [messageIdOf, messageIdOf]
  cases event.lookup (str "message_id") with
  | none => rfl
  | some v => by_cases hv : truthy v <;> simp [hv, MessageId.uuid]

/-- A row is stored if the id, the time and the texts are. -/
theorem stored_isSome (row : Row) : (row.stored py).isSome =
    ((row.messageId.uuid py).isSome && row.occurredAt.instant.isSome && row.columns.isSome) := by
  rw [Row.stored]
  cases row.messageId.uuid py <;> cases row.occurredAt.instant <;> cases row.columns <;> rfl

/-- Whether a message has a row does not depend on the clock or on `uuid4`. -/
theorem logRow_isSome (h : now.instant.isSome) :
    (logRow py now uuid4 subject data).isSome = storable py subject data := by
  rw [storable, logRow, logRow, toRow, toRow]
  cases eventOf py subject data with
  | error e => rfl
  | ok p =>
      have hi : ((messageIdOf uuid4 p.1).uuid py).isSome = ((messageIdOf 0 p.1).uuid py).isSome :=
        uuid_messageIdOf_isSome
      have ht : (eventTime py now p.1).instant.isSome =
          (eventTime py ⟨0, some 0⟩ p.1).instant.isSome := instant_eventTime_isSome h rfl
      simp only [Except.map, stored_isSome, hi, ht, Row.columns]

/-- To set a key leaves the others. -/
theorem lookup_setItem {key k : Str} {value : Json Str} (hk : k ≠ key) :
    (setItem event key value).lookup k = event.lookup k := by
  have hb : (k == key) = false := beq_false_of_ne hk
  have hmap : ∀ l : Event,
      (l.map fun (k, v) => if k = key then (k, value) else (k, v)).lookup k = l.lookup k := by
    intro l
    induction l with
    | nil => rfl
    | cons p l ih =>
        obtain ⟨k', v⟩ := p
        rw [List.map_cons, List.lookup_cons, List.lookup_cons, ih]
        by_cases hk' : k' = key
        · simp [hk', hb]
        · simp [hk']
  rw [setItem]
  split
  · exact hmap event
  · rw [List.lookup_append, List.lookup_cons, hb]
    simp

/-- The event of an object is the object, its category apart; any other has no id. -/
theorem eventOf_eq_ok (h : eventOf py subject data = .ok (event, category)) :
    event.lookup (str "message_id") = none ∨ ∃ event₀, py.loads data = .ok (.dict event₀) ∧
      event.lookup (str "message_id") = event₀.lookup (str "message_id") := by
  have hne : str "message_id" ≠ str "original_category" := by decide +kernel
  have hcases : ∃ event₀, loaded py data = .ok (.dict event₀) ∧
      event.lookup (str "message_id") = event₀.lookup (str "message_id") := by
    rw [eventOf] at h
    split at h
    · cases h
    · next event₀ hl =>
        refine ⟨event₀, hl, ?_⟩
        split_ifs at h
        · cases h
          rfl
        · cases h
          exact lookup_setItem hne
    · cases h
  obtain ⟨event₀, hl, hlookup⟩ := hcases
  rw [loaded] at hl
  split at hl
  · next hpy =>
      cases hl
      exact .inr ⟨event₀, hpy, hlookup⟩
  · split_ifs at hl
    cases hl
    refine .inl (hlookup.trans ?_)
    rw [List.lookup_cons, beq_false_of_ne (by decide +kernel)]
    rfl

/-- The id of a row is synthesised, or brought. -/
theorem uuid_messageIdOf {u : Uuid} (h : (messageIdOf uuid4 event).uuid py = some u) :
    u = uuid4 ∨ givenId py event = some (some u) := by
  rw [messageIdOf] at h
  rw [givenId]
  cases hl : event.lookup (str "message_id") with
  | none =>
      rw [hl] at h
      exact .inl (Option.some.inj h).symm
  | some v =>
      simp only [hl] at h
      split_ifs at h with hv
      · cases v with
        | str s =>
            have hs : py.uuid s = some u := h
            exact .inr (by simp [hs])
        | _ => cases h
      · exact .inl (Option.some.inj h).symm

/-- A message that brings an id has it in its row; one that brings none has what `uuid4` made. -/
theorem messageId_logRow (h : logRow py now uuid4 subject data = some r) :
    r.messageId = uuid4 ∨ ∃ event, py.loads data = .ok (.dict event) ∧
      givenId py event = some (some r.messageId) := by
  obtain ⟨row, hrow, hr⟩ := logRow_eq_some.mp h
  have hid : row.messageId.uuid py = some r.messageId := by
    rw [Row.stored] at hr
    split at hr
    · next hu _ _ => cases hr; exact hu
    · cases hr
  rw [toRow] at hrow
  cases he : eventOf py subject data with
  | error e => rw [he] at hrow; cases hrow
  | ok p =>
      rw [he] at hrow
      cases hrow
      refine (uuid_messageIdOf hid).imp_right fun hg => ?_
      rcases eventOf_eq_ok he with hnone | ⟨event₀, hl, hlookup⟩
      · rw [givenId, hnone] at hg
        cases Option.some.inj hg
      · refine ⟨event₀, hl, ?_⟩
        rw [givenId, ← hlookup]
        exact hg

/-- Rows are never taken out of the log. -/
theorem Recorded.mono (h : Recorded py log ids n d) (hl : ∀ r ∈ log, r ∈ log') :
    Recorded py log' ids n d := by
  refine h.imp (fun ⟨r, hr, hrow⟩ => ⟨r, hl r hr, hrow⟩) fun ⟨u, hu, hmem⟩ => ?_
  obtain ⟨r, hr, rfl⟩ := List.mem_map.mp hmem
  exact ⟨_, hu, List.mem_map_of_mem (hl r hr)⟩

/-- It goes by the message and its own note. -/
theorem Recorded.congr {ids' : RowIds} (h : Recorded py log ids n d) (hids : ids' n = ids n) :
    Recorded py log ids' n d :=
  h.imp_left fun ⟨r, hr, hid, hrow⟩ => ⟨r, hr, hids.trans hid, hrow⟩

/-- What a message brings does not change with its deliveries. -/
theorem Apart.mono (h : Apart py stream ids)
    (hkeep : ∀ (k : ℕ) (d : Delivery), stream[k]? = some d →
      ∃ d', stream'[k]? = some d' ∧ d'.data = d.data) : Apart py stream' ids := by
  intro m n u hm hn
  refine (h m n u hm hn).imp_right ?_
  rintro ⟨k, d, hk, hd, hbrings⟩
  obtain ⟨d', hd', hdata⟩ := hkeep k d hd
  refine ⟨k, d', hk, hd', ?_⟩
  rw [Delivery.Brings, hdata]
  exact hbrings

end Message

/-! ### The log -/

section Log
variable {py : Library} {s s' : Auditing} {now : Timestamp} {uuid4 : ℕ → Uuid} {batch : List ℕ}
  {rows : List AuditLog} {n : ℕ} {d : Delivery} {a : AuditAction} {stream : List Delivery}
  {ids : RowIds}

namespace Auditing

/-- A batch is inserted if and only if each of its messages has a row. -/
theorem rows_eq_some : s.rows py now uuid4 batch = some rows ↔
    (∀ n ∈ batch, (s.row py now uuid4 n).isSome) ∧
      batch.filterMap (s.row py now uuid4) = rows := by
  rw [Auditing.rows]
  split
  · next h =>
      exact ⟨fun he => ⟨List.all_eq_true.mp h, Option.some.inj he⟩, fun he => congrArg some he.2⟩
  · next h => exact ⟨nofun, fun he => absurd (List.all_eq_true.mpr he.1) h⟩

/-- A batch cannot be inserted if and only if one of its messages has no row. -/
theorem rows_eq_none (hnow : now.instant.isSome)
    (hd : ∀ n ∈ batch, ∃ d, s.stream[n]? = some d) :
    s.rows py now uuid4 batch = none ↔
      ∃ n ∈ batch, ∃ d, s.stream[n]? = some d ∧ storable py d.subject d.data = false := by
  have hrow : ∀ n d, s.stream[n]? = some d →
      (s.row py now uuid4 n).isSome = storable py d.subject d.data := by
    intro n d hn
    rw [row, hn]
    exact logRow_isSome hnow
  rw [Auditing.rows]
  split
  · next hall =>
      refine iff_of_false nofun ?_
      rintro ⟨n, hn, d, hnd, hst⟩
      have hsome := List.all_eq_true.mp hall n hn
      rw [hrow n d hnd, hst] at hsome
      cases hsome
  · next hall =>
      refine iff_of_true rfl ?_
      obtain ⟨n, hn, hnone⟩ : ∃ n ∈ batch, (s.row py now uuid4 n).isSome = false := by
        simpa using hall
      obtain ⟨d, hnd⟩ := hd n hn
      exact ⟨n, hn, d, hnd, hrow n d hnd ▸ hnone⟩

/-- **What a batch leaves in the log**: a row of every message, or of its id. -/
theorem recorded_of_rows (hr : s.rows py now uuid4 batch = some rows)
    (hf : s.Fresh uuid4 batch rows) (hn : n ∈ batch) (hd : s.stream[n]? = some d) :
    Recorded py (rows.foldl (insertNew AuditLog.messageId) s.log) (s.made py now uuid4 batch ids) n
      d := by
  obtain ⟨hall, rfl⟩ := rows_eq_some.mp hr
  obtain ⟨r, hrow⟩ := Option.isSome_iff_exists.mp (hall n hn)
  have hmem : r ∈ batch.filterMap (s.row py now uuid4) := List.mem_filterMap.mpr ⟨n, hn, hrow⟩
  have hlog : logRow py now (uuid4 n) d.subject d.data = some r := by
    rw [row, hd] at hrow
    exact hrow
  have hmade : s.made py now uuid4 batch ids n = some r.messageId := by
    rw [made, if_pos hn, hrow]
    rfl
  rcases messageId_logRow hlog with hid | ⟨event, hl, hg⟩
  · refine .inl ⟨r, ?_, hmade, now, uuid4 n, hlog⟩
    obtain ⟨hout, hone⟩ := hf n hn
    rw [← hid] at hout hone
    have hpos : 0 < ((batch.filterMap (s.row py now uuid4)).map AuditLog.messageId).count
        r.messageId := List.count_pos_iff.mpr (List.mem_map_of_mem hmem)
    exact mem_foldl_insertNew_of_fresh hmem hout (by omega)
  · exact .inr ⟨_, ⟨event, hl, hg⟩, key_mem_foldl_insertNew hmem⟩

/-- The id of a row of a batch is what `uuid4` made, and then no other has it, or it is brought. -/
theorem made_eq_some (hr : s.rows py now uuid4 batch = some rows) (hf : s.Fresh uuid4 batch rows)
    (hids : ∀ n u, ids n = some u → u ∈ s.log.map AuditLog.messageId) {m : ℕ} {u : Uuid}
    (hmb : m ∈ batch) (hm : s.made py now uuid4 batch ids m = some u)
    (hn : s.made py now uuid4 batch ids n = some u) :
    m = n ∨ ∃ d, s.stream[m]? = some d ∧ d.Brings py u := by
  obtain ⟨-, rfl⟩ := rows_eq_some.mp hr
  obtain ⟨hout, hone⟩ := hf m hmb
  have hm' := hm
  rw [made, if_pos hmb] at hm'
  obtain ⟨r, hrow, rfl⟩ := Option.map_eq_some_iff.mp hm'
  obtain ⟨d, hd, hlog⟩ := Option.bind_eq_some_iff.mp hrow
  rcases messageId_logRow hlog with hid | hbrings
  · refine .inl ?_
    rw [← hid] at hout hone
    by_cases hnb : n ∈ batch
    · rw [made, if_pos hnb] at hn
      rw [List.map_filterMap] at hone
      exact eq_of_count_filterMap_le_one hone hmb hnb hm' hn
    · rw [made, if_neg hnb] at hn
      exact absurd (hids n _ hn) hout
  · exact .inr ⟨d, hd, hbrings⟩

/-- A batch that is inserted makes a row for each of its messages. -/
theorem apart_made (h : Apart py s.stream ids) (hr : s.rows py now uuid4 batch = some rows)
    (hf : s.Fresh uuid4 batch rows)
    (hids : ∀ n u, ids n = some u → u ∈ s.log.map AuditLog.messageId) :
    Apart py s.stream (s.made py now uuid4 batch ids) := by
  intro m n u hm hn
  by_cases hmb : m ∈ batch
  · exact (made_eq_some hr hf hids hmb hm hn).imp_right fun ⟨d, hd⟩ => ⟨m, d, .inl rfl, hd⟩
  by_cases hnb : n ∈ batch
  · exact (made_eq_some hr hf hids hnb hn hm).imp Eq.symm fun ⟨d, hd⟩ => ⟨n, d, .inr rfl, hd⟩
  · rw [made, if_neg hmb] at hm
    rw [made, if_neg hnb] at hn
    exact h m n u hm hn

/-- A fetch delivers the messages of its batch once more, and no others. -/
theorem getElem?_deliver (hb : batch.Nodup) : (batch.foldl deliver stream)[n]? =
    if n ∈ batch then
      stream[n]?.map fun d => { d with deliveries := d.deliveries + 1, outstanding := true }
    else stream[n]? := by
  induction batch generalizing stream with
  | nil => rfl
  | cons m batch ih =>
      obtain ⟨hm, hb⟩ := List.nodup_cons.mp hb
      rw [List.foldl_cons, ih hb, deliver, List.getElem?_modify]
      by_cases hn : m = n
      · subst hn
        simp [hm]
      · simp [hn, Ne.symm hn]

end Auditing

end Log

/-! ### Every step -/

/-- The audit trail, and what it rests on. -/
structure Audited (py : Library) (s : Auditing) (ids : RowIds) : Prop where
  lands : Lands py s ids
  /-- What is noted is the id of a row. -/
  noted : ∀ n u, ids n = some u → u ∈ s.log.map AuditLog.messageId
  /-- What the writer is to acknowledge has its rows. -/
  acking : ∀ batch, s.writer = .acking batch → ∀ n ∈ batch, ∃ d, s.stream[n]? = some d ∧
    Recorded py s.log ids n d
  /-- What it has fetched is there, and not acknowledged. -/
  fetched : ∀ batch, s.writer = .fetched batch → ∀ n ∈ batch, ∃ d, s.stream[n]? = some d ∧
    d.acked = false
  deliveries : ∀ (n : ℕ) (d : Delivery), s.stream[n]? = some d → d.deliveries ≤ maxDeliver

section Steps
variable {py : Library} {s s' : Auditing} {now : Timestamp} {uuid4 : ℕ → Uuid} {batch : List ℕ}
  {rows : List AuditLog} {n : ℕ} {d : Delivery} {a : AuditAction} {writer : Draining}
  {ids : RowIds}

/-- The writer gives up its batch, or has none. -/
theorem Audited.drop (h : Audited py s ids)
    (hwait : ∀ batch, s.writer = .fetched batch → ∀ n ∈ batch, s.CanWait py ids n) :
    Audited py { s with writer := .idle } ids where
  lands := by
    refine ⟨fun n d hn ho hout _ => ?_, h.lands.apart, h.lands.once⟩
    by_cases hh : s.writer.holds n
    · cases hw : s.writer with
      | fetched batch =>
          rw [hw] at hh
          obtain ⟨d', hd', hacked⟩ := h.fetched batch hw n hh
          obtain rfl : d = d' := Option.some.inj (hn.symm.trans hd')
          have hlast : d.deliveries = maxDeliver :=
            hout.resolve_left (by rw [hacked]; exact Bool.false_ne_true)
          exact (hwait batch hw n hh d hn ho).resolve_left (by omega)
      | _ => rw [hw] at hh; exact hh.elim
    · exact h.lands.recorded n d hn ho hout hh
  noted := h.noted
  acking := nofun
  fetched := nofun
  deliveries := h.deliveries

theorem getElem?_modify_eq_some {stream : List Delivery} {f : Delivery → Delivery} {m : ℕ}
    (h : (stream.modify m f)[n]? = some d) :
    ∃ d₀, stream[n]? = some d₀ ∧ d = if m = n then f d₀ else d₀ := by
  rw [List.getElem?_modify] at h
  obtain ⟨d₀, hd₀, he⟩ := Option.map_eq_some_iff.mp h
  exact ⟨d₀, hd₀, he.symm⟩

/-- A message that is published is still to be delivered. -/
theorem Audited.publish (h : Audited py s ids) {subject : Str} {data : Bytes} :
    Audited py { s with stream := s.stream ++ [⟨subject, data, 0, false, false⟩] } ids := by
  have hget : ∀ (n : ℕ) (d : Delivery),
      (s.stream ++ [⟨subject, data, 0, false, false⟩])[n]? = some d →
      s.stream[n]? = some d ∨ d = ⟨subject, data, 0, false, false⟩ := by
    intro n d hn
    rcases Nat.lt_trichotomy n s.stream.length with hlt | rfl | hgt
    · rw [List.getElem?_append_left hlt] at hn
      exact .inl hn
    · rw [List.getElem?_concat_length] at hn
      exact .inr (Option.some.inj hn).symm
    · rw [List.getElem?_eq_none (by simpa using Nat.succ_le_of_lt hgt)] at hn
      cases hn
  have hold : ∀ (n : ℕ) (d : Delivery), s.stream[n]? = some d →
      (s.stream ++ [⟨subject, data, 0, false, false⟩])[n]? = some d := fun n d hn => by
    rw [List.getElem?_append_left (List.getElem?_eq_some_iff.mp hn).1, hn]
  have hapart := h.lands.apart.mono fun k d hd => ⟨d, hold k d hd, rfl⟩
  refine ⟨⟨fun n d hn ho hout hh => ?_, hapart, h.lands.once⟩, h.noted, fun batch hw n hn => ?_,
    fun batch hw n hn => ?_, fun n d hn => ?_⟩
  · rcases hget n d hn with hn | rfl
    · exact h.lands.recorded n d hn ho hout hh
    · exact absurd hout (by simp [maxDeliver])
  · obtain ⟨d, hd, hrec⟩ := h.acking batch hw n hn
    exact ⟨d, hold n d hd, hrec⟩
  · obtain ⟨d, hd, hacked⟩ := h.fetched batch hw n hn
    exact ⟨d, hold n d hd, hacked⟩
  · rcases hget n d hn with hn | rfl
    · exact h.deliveries n d hn
    · exact Nat.zero_le _

/-- A message that is fetched is in hand. -/
theorem Audited.fetch (h : Audited py s ids) (hw : s.writer = .idle) (hb : batch.Nodup)
    (hdue : ∀ n ∈ batch, ∃ d, s.stream[n]? = some d ∧ d.due = true) :
    Audited py { s with
      stream := batch.foldl Auditing.deliver s.stream, writer := .fetched batch } ids := by
  have hout : ∀ n, n ∉ batch → (batch.foldl Auditing.deliver s.stream)[n]? = s.stream[n]? :=
    fun n hn => by rw [Auditing.getElem?_deliver hb, if_neg hn]
  have hin : ∀ n ∈ batch, ∃ d, s.stream[n]? = some d ∧ d.due = true ∧
      (batch.foldl Auditing.deliver s.stream)[n]? =
        some { d with deliveries := d.deliveries + 1, outstanding := true } := by
    intro n hn
    obtain ⟨d, hd, hdd⟩ := hdue n hn
    exact ⟨d, hd, hdd, by rw [Auditing.getElem?_deliver hb, if_pos hn, hd]; rfl⟩
  have hapart : Apart py (batch.foldl Auditing.deliver s.stream) ids := by
    refine h.lands.apart.mono fun k d hd => ?_
    rw [Auditing.getElem?_deliver hb, hd]
    split
    · exact ⟨_, rfl, rfl⟩
    · exact ⟨d, rfl, rfl⟩
  refine ⟨⟨fun n d hn ho hset hh => ?_, hapart, h.lands.once⟩, h.noted, nofun,
    fun batch' hw' n hn => ?_, fun n d hn => ?_⟩
  · rw [hout n hh] at hn
    exact h.lands.recorded n d hn ho hset (by rw [hw]; exact id)
  · cases hw'
    obtain ⟨d, -, hdd, hnew⟩ := hin n hn
    simp only [Delivery.due, Bool.and_eq_true, Bool.not_eq_true'] at hdd
    exact ⟨_, hnew, hdd.1.1⟩
  · by_cases hb' : n ∈ batch
    · obtain ⟨d₀, -, hdd, hnew⟩ := hin n hb'
      obtain rfl := Option.some.inj (hn.symm.trans hnew)
      simp only [Delivery.due, Bool.and_eq_true, decide_eq_true_eq] at hdd
      exact hdd.2
    · rw [hout n hb'] at hn
      exact h.deliveries n d hn

/-- A batch is inserted: each of its messages is recorded, and what was recorded still is. -/
theorem Audited.insert (h : Audited py s ids) (hw : s.writer = .fetched batch)
    (hr : s.rows py now uuid4 batch = some rows) (hf : s.Fresh uuid4 batch rows) :
    Audited py { s with
      writer := .acking batch
      log := rows.foldl (insertNew AuditLog.messageId) s.log } (s.made py now uuid4 batch ids) := by
  have hapart := Auditing.apart_made h.lands.apart hr hf h.noted
  refine ⟨⟨fun n d hn ho hout _ => ?_, hapart, nodup_foldl_insertNew h.lands.once⟩,
    fun n u hn => ?_, fun batch' hw' n hn => ?_, nofun, h.deliveries⟩
  · by_cases hb : n ∈ batch
    · exact Auditing.recorded_of_rows hr hf hb hn
    · have hout' : ¬ s.writer.holds n := by rw [hw]; exact hb
      have hrec : Recorded py s.log ids n d := h.lands.recorded n d hn ho hout hout'
      exact (hrec.mono fun r => mem_foldl_insertNew).congr (if_neg hb)
  · by_cases hb : n ∈ batch
    · rw [Auditing.made, if_pos hb] at hn
      obtain ⟨r, hrow, rfl⟩ := Option.map_eq_some_iff.mp hn
      obtain ⟨-, rfl⟩ := Auditing.rows_eq_some.mp hr
      exact key_mem_foldl_insertNew (List.mem_filterMap.mpr ⟨n, hb, hrow⟩)
    · rw [Auditing.made, if_neg hb] at hn
      obtain ⟨r, hmem, rfl⟩ := List.mem_map.mp (h.noted n u hn)
      exact List.mem_map_of_mem (mem_foldl_insertNew hmem)
  · cases hw'
    obtain ⟨d, hd, -⟩ := h.fetched batch hw n hn
    exact ⟨d, hd, Auditing.recorded_of_rows hr hf hn hd⟩

/-- A message is no longer outstanding; if it is acknowledged, it is recorded. -/
theorem Audited.settle (h : Audited py s ids) {m : ℕ} {acked : Bool}
    (hrec : acked = true → ∀ d, s.stream[m]? = some d → Recorded py s.log ids m d)
    (hholds : ∀ n, s.writer.holds n → writer.holds n)
    (hacking : ∀ b, writer = .acking b → ∃ b', s.writer = .acking b' ∧ ∀ n ∈ b, n ∈ b')
    (hfetched : ∀ b, writer = .fetched b → s.writer = .fetched b ∧ acked = false) :
    Audited py { s with
      stream := s.stream.modify m (Delivery.settle acked), writer := writer } ids := by
  have hthere : ∀ (n : ℕ) (d₀ : Delivery), s.stream[n]? = some d₀ →
      (s.stream.modify m (Delivery.settle acked))[n]? =
        some (if m = n then d₀.settle acked else d₀) :=
    fun n d₀ hd₀ => by
      rw [List.getElem?_modify, hd₀]
      rfl
  have hapart : Apart py (s.stream.modify m (Delivery.settle acked)) ids :=
    h.lands.apart.mono fun k d hd => ⟨_, hthere k d hd, by split <;> rfl⟩
  refine ⟨⟨fun n d hn ho hout hh => ?_, hapart, h.lands.once⟩, h.noted, fun b hb n hn => ?_,
    fun b hb n hn => ?_, fun n d hn => ?_⟩
  · obtain ⟨d₀, hd₀, rfl⟩ := getElem?_modify_eq_some hn
    by_cases hmn : m = n
    · subst hmn
      rw [if_pos rfl] at ho hout ⊢
      by_cases ha : acked = true
      · exact hrec ha d₀ hd₀
      · rw [Delivery.settle, Bool.eq_false_iff.mpr ha] at hout
        exact h.lands.recorded m d₀ hd₀ ho hout (mt (hholds m) hh)
    · rw [if_neg hmn] at ho hout ⊢
      exact h.lands.recorded n d₀ hd₀ ho hout (mt (hholds n) hh)
  · obtain ⟨b', hb', hsub⟩ := hacking b hb
    obtain ⟨d₀, hd₀, hr⟩ := h.acking b' hb' n (hsub n hn)
    refine ⟨_, hthere n d₀ hd₀, ?_⟩
    split <;> exact hr
  · obtain ⟨hb', ha⟩ := hfetched b hb
    obtain ⟨d₀, hd₀, hacked⟩ := h.fetched b hb' n hn
    refine ⟨_, hthere n d₀ hd₀, ?_⟩
    split
    · rw [ha]
      exact hacked
    · exact hacked
  · obtain ⟨d₀, hd₀, rfl⟩ := getElem?_modify_eq_some hn
    split <;> exact h.deliveries n d₀ hd₀

/-- What is acknowledged has been inserted. -/
theorem Audited.ack (h : Audited py s ids) {m : ℕ} (hw : s.writer = .acking (m :: batch)) :
    Audited py { s with
      stream := s.stream.modify m (Delivery.settle true), writer := .acking batch } ids := by
  refine h.settle (fun _ d hd => ?_) (fun n hn => ?_) (fun b hb => ⟨_, hw, ?_⟩) nofun
  · obtain ⟨d', hd', hr⟩ := h.acking _ hw m List.mem_cons_self
    exact Option.some.inj (hd'.symm.trans hd) ▸ hr
  · rw [hw] at hn
    exact hn
  · cases hb
    exact fun _ => List.mem_cons_of_mem _

/-- `ack_wait` acknowledges nothing. -/
theorem Audited.expire (h : Audited py s ids) (m : ℕ) :
    Audited py { s with stream := s.stream.modify m (Delivery.settle false) } ids :=
  h.settle nofun (fun _ => id) (fun b hb => ⟨b, hb, fun _ => id⟩) fun _ hb => ⟨hb, rfl⟩

theorem note_insert (hw : s.writer = .fetched batch) : s.note py (.insert now uuid4) ids =
    if (s.rows py now uuid4 batch).isSome then s.made py now uuid4 batch ids else ids := by
  simp only [Auditing.note, hw]

/-- **Step.**  A step that spares what is owed keeps the audit trail. -/
theorem audited_step (hC : Spares py s ids a) (h : Audited py s ids)
    (hs : s.step py a = some s') : Audited py s' (s.note py a ids) := by
  cases a with
  | publish subject data => cases hs; exact h.publish
  | fetch batch =>
      rw [Auditing.step] at hs
      split_ifs at hs with hg
      cases hs
      obtain ⟨hw, -, -, hb, hdue⟩ := hg
      refine h.fetch hw hb fun n hn => ?_
      have hd := List.all_eq_true.mp hdue n hn
      cases hget : s.stream[n]? with
      | none => rw [hget] at hd; cases hd
      | some d => rw [hget] at hd; exact ⟨d, rfl, hd⟩
  | insert now uuid4 =>
      rw [Auditing.step] at hs
      split at hs
      · next batch hw =>
          rw [note_insert hw]
          split_ifs at hs with hnow
          cases hr : s.rows py now uuid4 batch with
          | none =>
              rw [hr] at hs
              cases hs
              have hthere : ∀ n ∈ batch, ∃ d, s.stream[n]? = some d := fun n hn =>
                (h.fetched batch hw n hn).imp fun _ => And.left
              refine h.drop fun batch' hw' => ?_
              obtain rfl : batch = batch' := by simpa using hw.symm.trans hw'
              exact hC batch hw ((Auditing.rows_eq_none hnow hthere).mp hr)
          | some rows =>
              rw [hr] at hs
              simp only at hs
              split_ifs at hs with hf
              cases hs
              exact h.insert hw hr hf
      · cases hs
  | ack =>
      rw [Auditing.step] at hs
      split at hs
      · next n batch hw => cases hs; exact h.ack hw
      · next hw => cases hs; exact h.drop fun batch hb => by rw [hw] at hb; cases hb
      · cases hs
  | expire n => cases hs; exact h.expire n
  | restart => cases hs; exact h.drop hC

/-- To lose nothing that is owed is to have spared it. -/
theorem spares_of_lands (h : Audited py s ids) (hs : s.step py a = some s')
    (hl : Lands py s' (s.note py a ids)) : Spares py s ids a := by
  have wait : Lands py { s with writer := .idle } ids → ∀ n, s.CanWait py ids n := by
    intro hl n d hn ho
    rcases Nat.lt_or_eq_of_le (h.deliveries n d hn) with hlt | heq
    · exact .inl hlt
    · exact .inr (hl.recorded n d hn ho (.inr heq) id)
  cases a with
  | insert now uuid4 =>
      rintro batch hw hbad n -
      have hthere : ∀ n ∈ batch, ∃ d, s.stream[n]? = some d := fun n hn =>
        (h.fetched batch hw n hn).imp fun _ => And.left
      rw [Auditing.step, hw] at hs
      simp only at hs
      split_ifs at hs with hnow
      have hnone : s.rows py now uuid4 batch = none :=
        (Auditing.rows_eq_none hnow hthere).mpr hbad
      rw [hnone] at hs
      cases hs
      rw [note_insert hw, hnone] at hl
      exact wait hl n
  | restart =>
      cases hs
      exact fun _ _ n _ => wait hl n
  | publish | fetch | ack | expire => trivial

end Steps

/-- **The audit trail, exactly.**  A run spares what is owed at each step if and only if in every
state it reaches the trail is whole: what is owed and is acknowledged, or out of deliveries, is
recorded, in a row of its own unless it brings an id, and each message id once. -/
theorem lands_iff (py : Library) (messages : List (Str × Bytes)) (log : List AuditLog)
    (hlog : (log.map AuditLog.messageId).Nodup) (as : List AuditAction) (p : Auditing × RowIds) :
    (recording py).RunIf (fun p a => Spares py p.1 p.2 a) (.start messages log, fun _ => none)
        as p ↔
      (recording py).RunIf (fun p a => ∀ q, (recording py).step p a = some q → Lands py q.1 q.2)
        (.start messages log, fun _ => none) as p := by
  have hnew : ∀ (n : ℕ) (d : Delivery), (Auditing.start messages log).stream[n]? = some d →
      d.deliveries = 0 ∧ d.acked = false := by
    intro n d hn
    obtain ⟨p, -, rfl⟩ := List.mem_map.mp (List.mem_of_getElem? hn)
    exact ⟨rfl, rfl⟩
  have h₀ : Audited py (.start messages log) fun _ => none := by
    refine ⟨⟨fun n d hn _ hout _ => ?_, nofun, hlog⟩, nofun, nofun, nofun, fun n d hn => ?_⟩
    · obtain ⟨hd, ha⟩ := hnew n d hn
      rw [hd, ha] at hout
      exact absurd hout (by simp [maxDeliver])
    · rw [(hnew n d hn).1]
      exact Nat.zero_le _
  refine Machine.RunIf.congr (I := fun p => Audited py p.1 p.2) h₀
    (Machine.ghost_preserves fun _ _ _ _ => audited_step) fun p a q hI h => ⟨fun hC r hr => ?_,
    fun hl => ?_⟩
  · obtain ⟨hs, hids⟩ := Machine.ghost_step.mp hr
    rw [hids]
    exact (audited_step hC hI hs).lands
  · obtain ⟨hs, hids⟩ := Machine.ghost_step.mp h
    have hlands := hl q h
    rw [hids] at hlands
    exact spares_of_lands hI hs hlands

/-- Every message has a delivery left. -/
def Auditing.early (s : Auditing) : Bool := s.stream.all fun d => d.deliveries < maxDeliver

/-- While every message has a delivery left, no step loses one. -/
theorem spares_of_early {py : Library} {s : Auditing} {ids : RowIds} {a : AuditAction}
    (h : s.early = true) : Spares py s ids a := by
  have wait : ∀ n, s.CanWait py ids n := fun n d hn _ =>
    .inl (of_decide_eq_true (List.all_eq_true.mp h d (List.mem_of_getElem? hn)))
  cases a with
  | insert => exact fun _ _ _ n _ => wait n
  | restart => exact fun _ _ n _ => wait n
  | publish | fetch | ack | expire => trivial

/-! ### Two messages -/

/-- A text of ASCII as bytes. -/
def ascii (s : String) : Bytes := s.toList.map fun c => .ofNat c.toNat

/-- Two events of one hub; the client of the first has a name of 65 characters. -/
def longName : Bytes :=
  ascii ("\x7b\"actor\": \"" ++ String.ofList (List.replicate 65 'k') ++ "\"\x7d")

/-- The client of the second is the API. -/
def shortName : Bytes := ascii "\x7b\"actor\": \"api\"\x7d"

/-- Python's libraries, as far as the two need them. -/
def twoEvents : Library where
  loads data :=
    if data = longName then .ok (.dict [(str "actor", .str (List.replicate 65 'k'.toNat))])
    else if data = shortName then .ok (.dict [(str "actor", .str (str "api"))])
    else .error ⟨.jsonDecodeError, "Expecting value: line 1 column 1 (char 0)"⟩
  decode data := data.map UInt8.toNat
  fromisoformat _ := none
  str _ := str "None"
  uuid _ := none

/-- The subject of both. -/
def configSubject : Str := str "bellasreef.audit.config"

/-- The two in one batch, which cannot be inserted; `ack_wait` passes. -/
def failedBatch : List AuditAction :=
  [.fetch [0, 1], .insert ⟨0, some 0⟩ fun n => n, .expire 0, .expire 1]

/-- Both are delivered in one batch that fails, and then the second alone: it is recorded. -/
theorem lands_iff_shortName : ∃ p, p.1.log.length = 1 ∧ (recording twoEvents).RunIf
    (fun p a => ∀ q, (recording twoEvents).step p a = some q → Lands twoEvents q.1 q.2)
    (.start [(configSubject, longName), (configSubject, shortName)] [], fun _ => none)
    (failedBatch ++ [.fetch [1], .insert ⟨0, some 0⟩ fun n => n, .ack, .ack]) p := by
  have hp : ((recording twoEvents).execIf (fun p _ => p.1.early = true)
      (.start [(configSubject, longName), (configSubject, shortName)] [], fun _ => none)
      (failedBatch ++ [.fetch [1], .insert ⟨0, some 0⟩ fun n => n, .ack, .ack])).map
        (fun p => decide (p.1.log.length = 1)) = some true := by
    decide +kernel
  obtain ⟨p, hrun, he⟩ := Option.map_eq_some_iff.mp hp
  have hspares : (recording twoEvents).RunIf (fun p a => Spares twoEvents p.1 p.2 a) _ _ p :=
    (Machine.execIf_eq_some.mp hrun).mono fun _ _ => spares_of_early
  exact ⟨p, of_decide_eq_true he, (lands_iff twoEvents _ [] List.nodup_nil _ p).mp hspares⟩

/-- Both are delivered five times in one batch, and neither is recorded. -/
theorem not_lands : ¬ ∀ as p, (recording twoEvents).Run
    (.start [(configSubject, longName), (configSubject, shortName)] [], fun _ => none) as p →
      Lands twoEvents p.1 p.2 := by
  intro h
  have hp : ((recording twoEvents).exec
      (.start [(configSubject, longName), (configSubject, shortName)] [], fun _ => none)
      (List.replicate maxDeliver failedBatch).flatten).map (fun p => decide (p.1.writer = .idle) &&
        p.1.log.isEmpty && (p.1.stream[1]?.map fun d =>
          d.owed twoEvents && decide (d.deliveries = maxDeliver)).getD false) = some true := by
    decide +kernel
  obtain ⟨⟨s, ids⟩, hrun, he⟩ := Option.map_eq_some_iff.mp hp
  simp only [Bool.and_eq_true, decide_eq_true_eq, List.isEmpty_iff] at he
  obtain ⟨⟨hw, hlog⟩, hd⟩ := he
  cases hn : s.stream[1]? with
  | none => rw [hn] at hd; cases hd
  | some d =>
      rw [hn] at hd
      obtain ⟨ho, hlast⟩ : d.owed twoEvents = true ∧ d.deliveries = maxDeliver := by simpa using hd
      have hrec := (h _ (s, ids) (Machine.exec_eq_some.mp hrun)).recorded 1 d hn ho (.inr hlast)
        (by rw [hw]; exact id)
      rw [hlog] at hrec
      rcases hrec with ⟨r, hr, -⟩ | ⟨u, -, hu⟩
      · cases hr
      · cases hu

end BellasReef.Api
