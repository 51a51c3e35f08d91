import BellasReef.Api.ChannelIds
import BellasReef.Support.Retained
import Mathlib.Data.List.Induction

/-!
# API — Subjects

The subjects of the spine (`subjects.py`), the streams that keep them (`spine.py`,
`telemetry.py`) and the frames that `stream.py` makes of them.

A builder checks its tokens and joins them with dots; a subscription ends in `>`, which stands for
one token or more.  What a broker does with a filter is `receives`.

* `addressed`: a subject splits into the tokens it was built from, exactly one subscription
  receives it, at most one stream keeps it, and `parse_device_id` gives its last token back.
* `subject_eq_iff`: two subjects are the same exactly where their addresses are; only the instances
  of two chips may differ, in a dot for a dash.
* `mem_retained_iff`: what a stream retains is what no later message to its address has replaced.
-/

namespace BellasReef.Api.Subjects
open BellasReef.Support
open BellasReef.Api.ChannelIds (SubjectError validateToken validateToken_iff IsToken NewlineTailed)

/-! ### Subjects -/

/-- The second token of a subject. -/
inductive Kind where
  | sensor
  | alert
  | silence
  | capability
  | chip
  | host
  | assignment
  | cmd
  | state
  | heartbeat
  | audit
  | registry
  deriving DecidableEq, Repr

/-- The second token of a subject. -/
def Kind.word : Kind → Str
  | .sensor => str "sensor"
  | .alert => str "alert"
  | .silence => str "silence"
  | .capability => str "capability"
  | .chip => str "chip"
  | .host => str "host"
  | .assignment => str "assignment"
  | .cmd => str "cmd"
  | .state => str "state"
  | .heartbeat => str "heartbeat"
  | .audit => str "audit"
  | .registry => str "registry"

/-- `ROOT`. -/
def root : Str := str "bellasreef"

/-- `.`, `-`, `*` and `>`. -/
def dot : ℕ := 46
def dash : ℕ := 45
def star : ℕ := 42
def rest : ℕ := 62

/-- What the builders and `parse_device_id` raise. -/
inductive Error where
  | token (e : SubjectError)
  | notOurs (text : Str)
  /-- A chip without an instance. -/
  | noInstance
  deriving DecidableEq

/-- A token is checked under the name of its field. -/
def checked (token : Str) (field : String) : Except Error Str :=
  (validateToken token (str field)).mapError .token

/-- The tokens behind the root, joined. -/
def subject (tokens : List Str) : Str := [dot].intercalate (root :: tokens)

/-- A subject with one token to check. -/
def one (kind : Kind) (field : String) (id : Str) : Except Error Str :=
  (checked id field).map fun id => subject [kind.word, id]

/-- A subject with two. -/
def two (kind : Kind) (field field' : String) (id id' : Str) : Except Error Str :=
  (checked id field).bind fun id => (checked id' field').map fun id' => subject [kind.word, id, id']

/-- `instance.replace(".", "-")`. -/
def dashed (text : Str) : Str := text.map fun c => if c = dot then dash else c

/-- `bellasreef.sensor.{sensor_type}.{sensor_id}`. -/
def sensor : Str → Str → Except Error Str := two .sensor "sensor_type" "sensor_id"

/-- `bellasreef.alert.{device_id}`. -/
def alert : Str → Except Error Str := one .alert "device_id"

/-- `bellasreef.silence.{device_id}`. -/
def silence : Str → Except Error Str := one .silence "device_id"

/-- `bellasreef.capability.{source}`. -/
def capability : Str → Except Error Str := one .capability "source"

/-- `bellasreef.host.status`. -/
def hostStatus : Str := subject [Kind.host.word, str "status"]

/-- `bellasreef.assignment.{device_id}`. -/
def assignment : Str → Except Error Str := one .assignment "device_id"

/-- `bellasreef.cmd.{actuator_class}.{actuator_id}`. -/
def cmd : Str → Str → Except Error Str := two .cmd "actuator_class" "actuator_id"

/-- `bellasreef.state.{device_id}`. -/
def state : Str → Except Error Str := one .state "device_id"

/-- `bellasreef.heartbeat.{component}`. -/
def heartbeat : Str → Except Error Str := one .heartbeat "component"

/-- `bellasreef.audit.{category}`. -/
def audit : Str → Except Error Str := one .audit "category"

/-- `bellasreef.registry.{device_id}`. -/
def registry : Str → Except Error Str := one .registry "device_id"

/-- Its instance is not checked but for being there. -/
def chip (source instance_ : Str) : Except Error Str :=
  (checked source "source").bind fun source =>
    if instance_ = [] then .error .noInstance
    else .ok (subject [Kind.chip.word, source, dashed instance_])

/-- `parse_device_id`. -/
def parseDeviceId (text : Str) : Except Error Str :=
  let parts := text.splitOn dot
  if parts.length < 3 ∨ parts.head? ≠ some root then .error (.notOurs text)
  else checked (parts.getLast?.getD []) "device_id"

/-- A message's addressee, as its builder takes it. -/
inductive Address where
  | sensor (sensorType sensorId : Str)
  | alert (deviceId : Str)
  | silence (deviceId : Str)
  | capability (source : Str)
  | chip (source instance_ : Str)
  | hostStatus
  | assignment (deviceId : Str)
  | cmd (actuatorClass actuatorId : Str)
  | state (deviceId : Str)
  | heartbeat (component : Str)
  | audit (category : Str)
  | registry (deviceId : Str)
  deriving DecidableEq

namespace Address

/-- The subject of a message. -/
def build : Address → Except Error Str
  | .sensor t i => Subjects.sensor t i
  | .alert i => Subjects.alert i
  | .silence i => Subjects.silence i
  | .capability s => Subjects.capability s
  | .chip s i => Subjects.chip s i
  | .hostStatus => .ok Subjects.hostStatus
  | .assignment i => Subjects.assignment i
  | .cmd c i => Subjects.cmd c i
  | .state i => Subjects.state i
  | .heartbeat c => Subjects.heartbeat c
  | .audit c => Subjects.audit c
  | .registry i => Subjects.registry i

/-- The kind of an address. -/
def kind : Address → Kind
  | .sensor _ _ => .sensor
  | .alert _ => .alert
  | .silence _ => .silence
  | .capability _ => .capability
  | .chip _ _ => .chip
  | .hostStatus => .host
  | .assignment _ => .assignment
  | .cmd _ _ => .cmd
  | .state _ => .state
  | .heartbeat _ => .heartbeat
  | .audit _ => .audit
  | .registry _ => .registry

/-- The tokens behind the kind. -/
def ids : Address → List Str
  | .sensor a b | .cmd a b => [a, b]
  | .chip s i => [s, dashed i]
  | .hostStatus => [str "status"]
  | .alert i | .silence i | .capability i | .assignment i | .state i | .heartbeat i | .audit i
  | .registry i => [i]

/-- The address, but that the instance of a chip is dashed. -/
def onWire : Address → Address
  | .chip s i => .chip s (dashed i)
  | a => a

end Address

/-! ### Subscriptions and streams -/

/-- What a filter receives: `*` stands for one token, a final `>` for one or more. -/
def receives : List Str → List Str → Bool
  | [], [] => true
  | [f], t :: ts => f = [rest] || ((f = [star] || f = t) && ts.isEmpty)
  | f :: f' :: fs, t :: ts => (f = [star] || f = t) && receives (f' :: fs) ts
  | [], _ :: _ | _ :: _, [] => false

/-- `ALL_SENSORS`, `ALL_ALERTS` and the other wildcards. -/
def all (kind : Kind) : Str := subject [kind.word, [rest]]

/-- A subscription to all of a kind receives the subject. -/
def Kind.receives (kind : Kind) (text : Str) : Bool :=
  Subjects.receives ((all kind).splitOn dot) (text.splitOn dot)

/-- The streams of the spine and of the telemetry writer, and what each keeps. -/
inductive StreamName where
  | cmd
  | state
  | registry
  | capability
  | chip
  | host
  | assignment
  | audit
  | telemetry
  deriving DecidableEq, Repr

/-- `StreamConfig.subjects`. -/
def StreamName.subjects : StreamName → List Kind
  | .cmd => [.cmd]
  | .state => [.state]
  | .registry => [.registry]
  | .capability => [.capability]
  | .chip => [.chip]
  | .host => [.host]
  | .assignment => [.assignment]
  | .audit => [.audit]
  | .telemetry => [.sensor, .alert]

/-- The stream takes the subject. -/
def StreamName.keeps (name : StreamName) (text : Str) : Bool :=
  name.subjects.any fun kind => kind.receives text

/-- The streams with `max_msgs_per_subject=1`. -/
def StreamName.lastPerSubject : StreamName → Bool
  | .state | .registry | .capability | .chip | .host | .assignment => true
  | .cmd | .audit | .telemetry => false

/-- `str.startswith`, with the root and a kind, and a dot behind each. -/
def startsWith (kind : Kind) (text : Str) : Bool :=
  (subject [kind.word, []]).isPrefixOf text

/-- What `StreamBridge._encode` takes a message for. -/
def frameKind (text : Str) : Kind :=
  if startsWith .state text then .state
  else if startsWith .alert text then .alert
  else if startsWith .host text then .host
  else .sensor

/-- What `StreamBridge` subscribes to. -/
def bridged : List Kind := [.state, .sensor, .alert, .host]

/-- What a stream holds after a publish; a builder that raises publishes nothing. -/
def StreamName.publish {μ : Type} (name : StreamName) (kept : List (Address × μ)) (p : Address × μ) :
    List (Address × μ) :=
  match p.1.build with
  | .error _ => kept
  | .ok text =>
      if !name.keeps text then kept
      else if name.lastPerSubject then retain (fun q => q.1.build.toOption) kept p
      else kept ++ [p]

/-- And after every message of a log. -/
def StreamName.retained {μ : Type} (name : StreamName) (log : List (Address × μ)) :
    List (Address × μ) :=
  log.foldl name.publish []

/-! ### What is to be shown -/

/-- What `validate_token` accepts. -/
def Accepted (token : Str) : Prop := IsToken token ∨ NewlineTailed token

/-- The ids that a builder accepts. -/
def Address.Sound : Address → Prop
  | .sensor a b | .cmd a b => Accepted a ∧ Accepted b
  | .chip s i => Accepted s ∧ i ≠ []
  | .hostStatus => True
  | .alert i | .silence i | .capability i | .assignment i | .state i | .heartbeat i | .audit i
  | .registry i => Accepted i

/-- What becomes of a subject. -/
structure Addressed (x : Address) (text : Str) : Prop where
  tokens : text.splitOn dot = root :: x.kind.word :: x.ids
  /-- One subscription receives it. -/
  received : ∀ kind : Kind, kind.receives text = true ↔ kind = x.kind
  /-- A stream keeps it, unless it is a heartbeat or a silence. -/
  kept : (∃ name : StreamName, name.keeps text = true) ↔ x.kind ≠ .heartbeat ∧ x.kind ≠ .silence
  keptOnce : ∀ name name' : StreamName, name.keeps text = true → name'.keeps text = true →
    name = name'
  /-- The last token comes back, where it is one. -/
  parsed : ∀ id, parseDeviceId text = .ok id ↔ x.ids.getLast? = some id ∧ Accepted id
  /-- A frame is made of it by its kind. -/
  framed : x.kind ∈ bridged → frameKind text = x.kind

/-! ### Tokens -/

variable {token text : Str} {tokens : List Str} {kind kind' : Kind} {x y : Address}

/-- A check raises, or gives its token back. -/
theorem checked_cases (token : Str) (field : String) :
    (checked token field = .ok token ∧ Accepted token) ∨
      ∃ e, checked token field = .error e ∧ ¬ Accepted token := by
  have hiff : validateToken token (str field) = .ok token ↔ _ := validateToken_iff
  unfold checked
  unfold validateToken at hiff ⊢
  split at hiff
  · next h =>
      rw [if_pos h]
      exact .inl ⟨rfl, hiff.mp rfl⟩
  · next h =>
      rw [if_neg h]
      refine .inr ⟨_, rfl, fun hok => ?_⟩
      cases hiff.mpr hok

/-- A token is checked and kept as it is. -/
theorem checked_eq_ok {field : String} {t : Str} :
    checked token field = .ok t ↔ t = token ∧ Accepted token := by
  obtain ⟨hc, hok⟩ | ⟨e, hc, hn⟩ := checked_cases token field
  · simp [hc, hok, eq_comm]
  · simp [hc, hn]

/-- A token has no dot. -/
theorem Accepted.no_dot (h : Accepted token) : dot ∉ token := by
  intro hmem
  have htoken : ∀ t : Str, IsToken t → dot ∉ t := by
    intro t ht hd
    exact (ChannelIds.plain_of_tail (ht.tail dot hd)).2 (by decide)
  obtain h | ⟨t, ht, rfl⟩ := h
  · exact htoken token h hmem
  · obtain hd | hd := List.mem_append.mp hmem
    · exact htoken t ht hd
    · exact absurd (List.mem_singleton.mp hd) (by decide)

/-- Nor has an instance whose dots are dashes. -/
theorem no_dot_dashed (text : Str) : dot ∉ dashed text := by
  intro h
  obtain ⟨c, -, hc⟩ := List.mem_map.mp h
  split at hc
  · exact absurd hc (by decide)
  · next hn => exact hn hc

theorem no_dot_word (kind : Kind) : dot ∉ kind.word := by
  cases kind <;> decide

theorem dashed_dashed (text : Str) : dashed (dashed text) = dashed text := by
  refine List.map_congr_left (fun c hc => if_neg ?_) |>.trans (List.map_id _)
  rintro rfl
  exact no_dot_dashed text hc

/-- Every kind. -/
def kinds : List Kind :=
  [.sensor, .alert, .silence, .capability, .chip, .host, .assignment, .cmd, .state, .heartbeat,
    .audit, .registry]

theorem find_word (kind : Kind) : (kinds.find? fun k => k.word = kind.word) = some kind := by
  cases kind <;> decide

/-- Kinds differ in their word. -/
theorem word_injective (h : kind.word = kind'.word) : kind = kind' := by
  have h' := find_word kind
  rw [h, find_word] at h'
  exact (Option.some.inj h').symm

/-- **A subject splits** into its tokens. -/
theorem split_subject (h : ∀ t ∈ tokens, dot ∉ t) : (subject tokens).splitOn dot = root :: tokens := by
  refine List.splitOn_intercalate dot ?_ (List.cons_ne_nil _ _)
  exact List.forall_mem_cons.mpr ⟨by decide, h⟩

/-! ### Addresses -/

/-- The ids of an address have no dot. -/
theorem Address.Sound.no_dot (h : x.Sound) : ∀ t ∈ x.ids, dot ∉ t := by
  cases x with
  | sensor a b => simp [Address.ids, h.1.no_dot, h.2.no_dot]
  | cmd a b => simp [Address.ids, h.1.no_dot, h.2.no_dot]
  | chip s i => simp [Address.ids, h.1.no_dot, no_dot_dashed]
  | hostStatus => simpa [Address.ids] using (by decide : dot ∉ str "status")
  | _ i => simpa [Address.ids] using Accepted.no_dot h

/-- What a builder of one token builds. -/
theorem one_eq_ok {field : String} {id : Str} :
    one kind field id = .ok text ↔ text = subject [kind.word, id] ∧ Accepted id := by
  unfold one
  obtain ⟨hc, hok⟩ | ⟨e, hc, hn⟩ := checked_cases id field
  · simp [hc, Except.map, hok, eq_comm]
  · simp [hc, Except.map, hn]

/-- What a builder of two builds. -/
theorem two_eq_ok {field field' : String} {id id' : Str} :
    two kind field field' id id' = .ok text ↔
      text = subject [kind.word, id, id'] ∧ Accepted id ∧ Accepted id' := by
  unfold two
  obtain ⟨hc, hok⟩ | ⟨e, hc, hn⟩ := checked_cases id field
  · obtain ⟨hc', hok'⟩ | ⟨e', hc', hn'⟩ := checked_cases id' field'
    · simp [hc, hc', Except.bind, Except.map, hok, hok', eq_comm]
    · simp [hc, hc', Except.bind, Except.map, hn']
  · simp [hc, Except.bind, hn]

/-- What the builder of a chip's subject builds. -/
theorem chip_eq_ok {source instance_ : Str} : chip source instance_ = .ok text ↔
    text = subject [Kind.chip.word, source, dashed instance_] ∧ Accepted source ∧ instance_ ≠ [] := by
  unfold chip
  obtain ⟨hc, hok⟩ | ⟨e, hc, hn⟩ := checked_cases source "source"
  · by_cases hi : instance_ = []
    · simp [hc, Except.bind, hi]
    · simp [hc, Except.bind, hi, hok, eq_comm]
  · simp [hc, Except.bind, hn]

/-- **A builder** joins its tokens where it accepts its ids. -/
theorem build_eq_ok : x.build = .ok text ↔ text = subject (x.kind.word :: x.ids) ∧ x.Sound := by
  cases x with
  | sensor | cmd => exact two_eq_ok
  | chip => exact chip_eq_ok
  | hostStatus => simp [Address.build, Address.Sound, hostStatus, Address.ids, Address.kind, eq_comm]
  | _ => exact one_eq_ok

/-- A subject splits into the tokens that it was built of. -/
theorem split_of_build (h : x.build = .ok text) :
    text.splitOn dot = root :: x.kind.word :: x.ids := by
  obtain ⟨rfl, hs⟩ := build_eq_ok.mp h
  exact split_subject (List.forall_mem_cons.mpr ⟨no_dot_word _, hs.no_dot⟩)

/-- The address of a kind and its ids. -/
def Address.ofIds : Kind → List Str → Option Address
  | .sensor, [a, b] => some (.sensor a b)
  | .cmd, [a, b] => some (.cmd a b)
  | .chip, [s, i] => some (.chip s i)
  | .host, [_] => some .hostStatus
  | .alert, [i] => some (.alert i)
  | .silence, [i] => some (.silence i)
  | .capability, [i] => some (.capability i)
  | .assignment, [i] => some (.assignment i)
  | .state, [i] => some (.state i)
  | .heartbeat, [i] => some (.heartbeat i)
  | .audit, [i] => some (.audit i)
  | .registry, [i] => some (.registry i)
  | _, _ => none

/-- An address is read back from its kind and its ids, as it is on the wire. -/
theorem ofIds_ids (x : Address) : Address.ofIds x.kind x.ids = some x.onWire := by
  cases x <;> rfl

theorem onWire_kind (x : Address) : x.onWire.kind = x.kind := by
  cases x <;> rfl

theorem onWire_ids (x : Address) : x.onWire.ids = x.ids := by
  cases x with
  | chip s i => exact congrArg (fun t => [s, t]) (dashed_dashed i)
  | _ => rfl

/-- **Two subjects are the same** exactly where their addresses are the same on the wire. -/
theorem subject_eq_iff {text' : Str} (hx : x.build = .ok text) (hy : y.build = .ok text') :
    text = text' ↔ x.onWire = y.onWire := by
  constructor
  · rintro rfl
    have h := (split_of_build hx).symm.trans (split_of_build hy)
    simp only [List.cons.injEq, true_and] at h
    have hk := word_injective h.1
    have ho := ofIds_ids x
    rw [hk, h.2, ofIds_ids] at ho
    exact (Option.some.inj ho).symm
  · intro h
    rw [(build_eq_ok.mp hx).1, (build_eq_ok.mp hy).1, ← onWire_kind x, ← onWire_ids x, h,
      onWire_kind, onWire_ids]

/-! ### Subscriptions -/

theorem split_all (kind : Kind) : (all kind).splitOn dot = [root, kind.word, [rest]] := by
  refine split_subject ?_
  simpa [no_dot_word] using (by decide : dot ∉ [rest])

theorem word_ne_star (kind : Kind) : kind.word ≠ [star] := by
  cases kind <;> decide

/-- **A wildcard** receives what has its kind behind the root, and one token or more behind it. -/
theorem receives_iff : kind.receives text = true ↔
    ∃ t ts, text.splitOn dot = root :: kind.word :: t :: ts := by
  unfold Kind.receives
  rw [split_all]
  constructor
  · rcases text.splitOn dot with _ | ⟨a, _ | ⟨b, _ | ⟨c, ts⟩⟩⟩
    · simp [receives]
    · simp [receives]
    · simp [receives]
    · intro h
      simp only [receives, Bool.and_eq_true, Bool.or_eq_true, decide_eq_true_eq, word_ne_star,
        false_or] at h
      obtain ⟨ha, hb, -⟩ := h
      have ha : root = a := ha.resolve_left (by decide)
      exact ⟨c, ts, by rw [ha, hb]⟩
  · rintro ⟨t, ts, h⟩
    rw [h]
    simp [receives]

/-- A subject is of one kind. -/
theorem received_unique (h : kind.receives text = true) (h' : kind'.receives text = true) :
    kind = kind' := by
  obtain ⟨t, ts, ht⟩ := receives_iff.mp h
  obtain ⟨t', ts', ht'⟩ := receives_iff.mp h'
  rw [ht] at ht'
  simp only [List.cons.injEq, true_and] at ht'
  exact word_injective ht'.1

theorem ids_ne_nil (x : Address) : ∃ t ts, x.ids = t :: ts := by
  cases x <;> exact ⟨_, _, rfl⟩

/-- **Match.**  A subscription receives the subjects of its own kind. -/
theorem received_of_build (h : x.build = .ok text) : kind.receives text = true ↔ kind = x.kind := by
  have hown : x.kind.receives text = true := by
    obtain ⟨t, ts, hids⟩ := ids_ne_nil x
    exact receives_iff.mpr ⟨t, ts, by rw [split_of_build h, hids]⟩
  exact ⟨fun hk => received_unique hk hown, fun hk => hk ▸ hown⟩

/-- **No two streams overlap**, whatever the text. -/
theorem kept_once {name name' : StreamName} (h : name.keeps text = true)
    (h' : name'.keeps text = true) : name = name' := by
  obtain ⟨kind, hmem, hk⟩ := List.any_eq_true.mp h
  obtain ⟨kind', hmem', hk'⟩ := List.any_eq_true.mp h'
  obtain rfl := received_unique hk hk'
  cases name <;> cases name' <;> simp_all [StreamName.subjects]

/-- A stream keeps the subjects of its kinds. -/
theorem keeps_of_build {name : StreamName} (h : x.build = .ok text) :
    name.keeps text = true ↔ x.kind ∈ name.subjects := by
  constructor
  · intro hk
    obtain ⟨kind, hmem, hr⟩ := List.any_eq_true.mp hk
    rwa [(received_of_build h).mp hr] at hmem
  · exact fun hmem => List.any_eq_true.mpr ⟨_, hmem, (received_of_build h).mpr rfl⟩

/-- Every kind has its stream, but for two. -/
theorem has_stream_iff (kind : Kind) :
    (∃ name : StreamName, kind ∈ name.subjects) ↔ kind ≠ .heartbeat ∧ kind ≠ .silence := by
  constructor
  · rintro ⟨name, h⟩
    constructor
    · rintro rfl
      cases name <;> simp [StreamName.subjects] at h
    · rintro rfl
      cases name <;> simp [StreamName.subjects] at h
  · intro h
    cases kind with
    | heartbeat => simp at h
    | silence => simp at h
    | sensor => exact ⟨.telemetry, by decide⟩
    | alert => exact ⟨.telemetry, by decide⟩
    | capability => exact ⟨.capability, by decide⟩
    | chip => exact ⟨.chip, by decide⟩
    | host => exact ⟨.host, by decide⟩
    | assignment => exact ⟨.assignment, by decide⟩
    | cmd => exact ⟨.cmd, by decide⟩
    | state => exact ⟨.state, by decide⟩
    | audit => exact ⟨.audit, by decide⟩
    | registry => exact ⟨.registry, by decide⟩

/-! ### Readers -/

theorem getLast_cons_cons (x : Address) (a b : Str) :
    (a :: b :: x.ids).getLast? = x.ids.getLast? := by
  obtain ⟨t, ts, h⟩ := ids_ne_nil x
  rw [h]
  rfl

/-- `parse_device_id` gives back the last id. -/
theorem parsed_of_build {id : Str} (h : x.build = .ok text) :
    parseDeviceId text = .ok id ↔ x.ids.getLast? = some id ∧ Accepted id := by
  obtain ⟨t, ts, hids⟩ := ids_ne_nil x
  unfold parseDeviceId
  rw [split_of_build h, if_neg (by simp [hids]), getLast_cons_cons, checked_eq_ok]
  obtain ⟨last, hlast⟩ : ∃ last, x.ids.getLast? = some last := by
    rw [hids, List.getLast?_cons]
    exact ⟨_, rfl⟩
  rw [hlast, Option.getD_some, Option.some.injEq]
  constructor
  · rintro ⟨rfl, hok⟩
    exact ⟨rfl, hok⟩
  · rintro ⟨rfl, hok⟩
    exact ⟨rfl, hok⟩

/-- A text starts with a kind where its second token is the word of it, and a third follows. -/
theorem startsWith_iff (h : x.build = .ok text) : startsWith kind text = true ↔ kind = x.kind := by
  have hprefix : ∀ k : Kind, subject [k.word, []] = root ++ dot :: (k.word ++ [dot]) := by
    intro k
    simp [subject, List.intercalate_cons_cons]
  have hroot : dot ∉ root := by decide
  rw [startsWith, List.isPrefixOf_iff_prefix, hprefix]
  constructor
  · rintro ⟨t, rfl⟩
    have hsplit := split_of_build h
    rw [List.append_assoc, List.cons_append, List.splitOn_append_cons_self_of_not_mem hroot,
      List.append_assoc, List.singleton_append,
      List.splitOn_append_cons_self_of_not_mem (no_dot_word kind)] at hsplit
    simp only [List.cons.injEq, true_and] at hsplit
    exact word_injective hsplit.1
  · rintro rfl
    obtain ⟨t, ts, hids⟩ := ids_ne_nil x
    rw [(build_eq_ok.mp h).1, hids]
    refine ⟨[dot].intercalate (t :: ts), ?_⟩
    simp [subject, List.intercalate_cons_cons]

/-- A frame that the bridge makes of a subject has its kind. -/
theorem framed_of_build (h : x.build = .ok text) (hb : x.kind ∈ bridged) :
    frameKind text = x.kind := by
  have hs : ∀ k : Kind, startsWith k text = decide (k = x.kind) := fun k => by
    rw [Bool.eq_iff_iff, startsWith_iff h, decide_eq_true_iff]
  unfold frameKind
  rw [hs, hs, hs]
  generalize x.kind = k at hb
  cases k <;> simp_all [bridged]

/-- **What becomes of a subject.** -/
theorem addressed (h : x.build = .ok text) : Addressed x text where
  tokens := split_of_build h
  received _ := received_of_build h
  kept := by
    rw [← has_stream_iff]
    exact exists_congr fun _ => keeps_of_build h
  keptOnce _ _ := kept_once
  parsed _ := parsed_of_build h
  framed := framed_of_build h

theorem addressed_chip : ∃ text, Addressed (.chip (str "pipwm") (str "1f00098000.pwm")) text :=
  ⟨str "bellasreef.chip.pipwm.1f00098000-pwm", addressed (by decide +kernel)⟩

/-! ### What a stream retains -/

section Retained
variable {μ : Type} {name : StreamName} {log kept : List (Address × μ)} {p q : Address × μ}

/-- A message that a stream takes. -/
def StreamName.Takes (name : StreamName) (p : Address × μ) : Prop :=
  p.1.Sound ∧ p.1.kind ∈ name.subjects

/-- An address whose ids are tokens has a subject. -/
theorem build_of_sound (h : x.Sound) : x.build = .ok (subject (x.kind.word :: x.ids)) :=
  build_eq_ok.mpr ⟨rfl, h⟩

/-- Any other has none. -/
theorem not_built (h : ¬ x.Sound) : ∃ e, x.build = .error e := by
  cases hb : x.build with
  | error e => exact ⟨e, rfl⟩
  | ok text => exact absurd (build_eq_ok.mp hb).2 h

/-- A publish that a stream takes replaces what has its address; another changes nothing. -/
theorem mem_publish (hname : name.lastPerSubject = true) (hkept : ∀ q ∈ kept, name.Takes q) :
    q ∈ name.publish kept p ↔
      (q ∈ kept ∧ ¬ (name.Takes p ∧ q.1.onWire = p.1.onWire)) ∨ (name.Takes p ∧ q = p) := by
  unfold StreamName.publish
  by_cases hs : p.1.Sound
  · rw [build_of_sound hs]
    by_cases hk : p.1.kind ∈ name.subjects
    · have ht : name.Takes p := ⟨hs, hk⟩
      simp only [(keeps_of_build (build_of_sound hs)).mpr hk, Bool.not_true, Bool.false_eq_true,
        if_false, hname, if_true, retain, List.mem_append, List.mem_filter, List.mem_singleton, ht,
        true_and]
      refine or_congr (and_congr_right fun hq => ?_) Iff.rfl
      have hq := (hkept q hq).1
      rw [← subject_eq_iff (build_of_sound hq) (build_of_sound hs)]
      simp [build_of_sound hq, build_of_sound hs, Except.toOption]
    · have hn : name.keeps (subject (p.1.kind.word :: p.1.ids)) = false := by
        rw [← Bool.not_eq_true, keeps_of_build (build_of_sound hs)]
        exact hk
      simp [hn, StreamName.Takes, hk]
  · obtain ⟨e, he⟩ := not_built hs
    simp [he, StreamName.Takes, hs]

/-- **What a stream retains** of a log: every message that it took and that no later message with
the same address on the wire has replaced. -/
theorem mem_retained_iff (hname : name.lastPerSubject = true) : p ∈ name.retained log ↔
    ∃ before after, log = before ++ p :: after ∧ name.Takes p ∧
      ∀ q ∈ after, name.Takes q → q.1.onWire ≠ p.1.onWire := by
  induction log using List.reverseRecOn generalizing p with
  | nil => simp [StreamName.retained]
  | append_singleton log m ih =>
      have hkept : ∀ q ∈ name.retained log, name.Takes q := by
        intro q hq
        obtain ⟨_, _, -, ht, -⟩ := ih.mp hq
        exact ht
      have hpub : name.retained (log ++ [m]) = name.publish (name.retained log) m := by
        simp [StreamName.retained]
      rw [hpub, mem_publish hname hkept, ih]
      constructor
      · rintro (⟨⟨before, after, rfl, ht, hafter⟩, hm⟩ | ⟨ht, rfl⟩)
        · refine ⟨before, after ++ [m], by simp, ht, fun q hq htq => ?_⟩
          obtain hq | hq := List.mem_append.mp hq
          · exact hafter q hq htq
          · obtain rfl := List.mem_singleton.mp hq
            exact fun he => hm ⟨htq, he.symm⟩
        · exact ⟨log, [], rfl, ht, by simp⟩
      · rintro ⟨before, after, hlog, ht, hafter⟩
        cases after using List.reverseRecOn with
        | nil =>
            obtain ⟨-, he⟩ := List.append_inj' hlog rfl
            obtain rfl := List.singleton_injective he
            exact .inr ⟨ht, rfl⟩
        | append_singleton after m' =>
            rw [← List.cons_append, ← List.append_assoc] at hlog
            obtain ⟨rfl, he⟩ := List.append_inj' hlog rfl
            obtain rfl := List.singleton_injective he
            refine .inl ⟨⟨before, after, rfl, ht, fun q hq => ?_⟩, fun hm => ?_⟩
            · exact hafter q (List.mem_append_left _ hq)
            · exact hafter m (by simp) hm.1 hm.2.symm

end Retained

/-- A light is set twice, and a pump once, while a reading goes by. -/
def statesLog : List (Address × ℕ) :=
  [(.state (str "light"), 0), (.sensor (str "temp") (str "probe"), 1), (.state (str "pump"), 2),
    (.state (str "light"), 3)]

/-- Of two states of a light the stream retains the second. -/
theorem mem_retained_iff_states :
    ((.state (str "light"), 0) : Address × ℕ) ∉ StreamName.state.retained statesLog ∧
      ∀ p, p ∈ StreamName.state.retained statesLog ↔
        ∃ before after, statesLog = before ++ p :: after ∧ StreamName.state.Takes p ∧
          ∀ q ∈ after, StreamName.state.Takes q → q.1.onWire ≠ p.1.onWire :=
  ⟨by decide +kernel, fun _ => mem_retained_iff rfl⟩

end BellasReef.Api.Subjects
