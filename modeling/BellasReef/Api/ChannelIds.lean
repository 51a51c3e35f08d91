import BellasReef.Api.AuditWriter
import BellasReef.Support.Machine
import BellasReef.Support.Regex
import Mathlib.Data.List.Lex
import Mathlib.Data.List.Sort

/-!
# API — Channel ids

One pattern for the id of a channel, read by two engines: Python's `re`, in `assign_schedule` and in
`validate_token`, and pydantic's, in the engine's `ChannelProfile`.  To Python a text ends before a
final newline, too.

The hub's part is what `assign_schedule` stores and what `_reload_schedules` makes of it: a profile
for every assignment, or none anew.  `channel_ids_iff` says that the readings part on a token with a
newline behind it and on no other text, and that a store stays fit to reload as long as none of
these is assigned.
-/

namespace BellasReef.Api.ChannelIds
open BellasReef.Support

/-! ### The pattern and its readings -/

/-- `[a-z0-9]`. -/
def lead (c : ℕ) : Bool := (97 ≤ c && c ≤ 122) || (48 ≤ c && c ≤ 57)

/-- `[a-z0-9_-]`. -/
def tail (c : ℕ) : Bool := lead c || c == 95 || c == 45

/-- A line feed. -/
def newline : ℕ := 10

/-- `^[a-z0-9][a-z0-9_-]{0,63}$`. -/
def channelIdPattern : Regex ℕ := .seq .start (.seq (.one lead) (.seq (.upTo 63 (.one tail)) .stop))

/-- The `$` of Python's `re`, not in multiline mode. -/
def pythonEnd (text : Str) : Bool := text == [] || text == [newline]

/-- The `$` of Rust's `regex`. -/
def rustEnd (text : Str) : Bool := text == []

/-- `_CHANNEL_ID_RE.match`, in `assign_schedule`. -/
def channelIdRe (s : Str) : Bool := channelIdPattern.matchesAt pythonEnd s

/-- `Field(pattern=CHANNEL_ID_PATTERN)`, of `ChannelProfile`. -/
def fieldPattern (s : Str) : Bool := channelIdPattern.search rustEnd s

/-- `SubjectError`: the field and the token that must match the pattern. -/
inductive SubjectError where
  | mustMatch (field token : Str)
  deriving DecidableEq

/-- `validate_token`; `_TOKEN_RE` is the same pattern. -/
def validateToken (token field : Str) : Except SubjectError Str :=
  if channelIdPattern.matchesAt pythonEnd token then .ok token else .error (.mustMatch field token)

/-- From 1 to 64 lowercase letters, digits and separators, the first of them no separator. -/
def IsToken (s : Str) : Prop := ∃ c run, s = c :: run ∧ lead c = true ∧
  (∀ x ∈ run, tail x = true) ∧ run.length ≤ 63

/-- A token, and a newline behind it. -/
def NewlineTailed (s : Str) : Prop := ∃ token, IsToken token ∧ s = token ++ [newline]

/-- `.`, `*` and `>`, which re-shape a subject. -/
def natsStructure : List ℕ := [46, 42, 62]

/-- What `str.isspace` holds for. -/
def isspace (c : ℕ) : Bool :=
  (9 ≤ c && c ≤ 13) || (28 ≤ c && c ≤ 32) || c == 133 || c == 160 || c == 5760 ||
    (8192 ≤ c && c ≤ 8202) || c == 8232 || c == 8233 || c == 8239 || c == 8287 || c == 12288

/-- A character of a token's tail is no blank, and nothing to NATS. -/
theorem plain_of_tail {c : ℕ} (h : tail c = true) : isspace c = false ∧ c ∉ natsStructure := by
  simp [tail, lead, isspace, natsStructure] at h ⊢
  omega

/-- **What the pattern matches** is a token, with what is taken for the end of the text behind it. -/
theorem matchesAt_iff_token {dollar : Str → Bool} {s : Str} :
    channelIdPattern.matchesAt dollar s = true ↔
      ∃ token rest, s = token ++ rest ∧ IsToken token ∧ dollar rest = true := by
  rw [channelIdPattern, Regex.matchesAt_iff]
  constructor
  · rintro ⟨e, he⟩
    obtain ⟨a, ha, he⟩ := Regex.mem_ends_seq.mp he
    obtain ⟨-, rfl⟩ := Regex.mem_ends_start.mp ha
    obtain ⟨b, hb, he⟩ := Regex.mem_ends_seq.mp he
    obtain ⟨c, hc, hlead, -⟩ := Regex.mem_ends_one.mp hb
    obtain ⟨d, hd, he⟩ := Regex.mem_ends_seq.mp he
    obtain ⟨run, hrun, hlen, htext, -⟩ := Regex.mem_ends_upTo_one.mp hd
    obtain ⟨hdollar, -⟩ := Regex.mem_ends_stop.mp he
    exact ⟨c :: run, d.2, by rw [List.cons_append, ← htext, ← hlead],
      ⟨c, run, rfl, hc, hrun, hlen⟩, hdollar⟩
  · rintro ⟨_, rest, rfl, ⟨c, run, rfl, hc, hrun, hlen⟩, hdollar⟩
    refine ⟨(1 + run.length, rest), Regex.mem_ends_seq.mpr ⟨(0, c :: run ++ rest), ?_, ?_⟩⟩
    · exact Regex.mem_ends_start.mpr ⟨rfl, rfl⟩
    · refine Regex.mem_ends_seq.mpr ⟨(1, run ++ rest), ?_, ?_⟩
      · exact Regex.mem_ends_one.mpr ⟨c, hc, rfl, rfl⟩
      · refine Regex.mem_ends_seq.mpr ⟨(1 + run.length, rest), ?_, ?_⟩
        · exact Regex.mem_ends_upTo_one.mpr ⟨run, hrun, hlen, rfl, rfl⟩
        · exact Regex.mem_ends_stop.mpr ⟨hdollar, rfl⟩

/-- Python's reading. -/
theorem channelIdRe_iff {s : Str} : channelIdRe s = true ↔ IsToken s ∨ NewlineTailed s := by
  rw [channelIdRe, matchesAt_iff_token]
  simp only [pythonEnd, Bool.or_eq_true, beq_iff_eq]
  constructor
  · rintro ⟨token, rest, rfl, htoken, rfl | rfl⟩
    · exact .inl (by rwa [List.append_nil])
    · exact .inr ⟨token, htoken, rfl⟩
  · rintro (h | ⟨token, htoken, rfl⟩)
    · exact ⟨s, [], by rw [List.append_nil], h, .inl rfl⟩
    · exact ⟨token, [newline], rfl, htoken, .inr rfl⟩

/-- And pydantic's. -/
theorem fieldPattern_iff {s : Str} : fieldPattern s = true ↔ IsToken s := by
  rw [fieldPattern, channelIdPattern, Regex.search_start, ← channelIdPattern, matchesAt_iff_token]
  simp only [rustEnd, beq_iff_eq]
  constructor
  · rintro ⟨token, _, rfl, htoken, rfl⟩
    rwa [List.append_nil]
  · exact fun h => ⟨s, [], by rw [List.append_nil], h, rfl⟩

/-- `$` lets one newline through. -/
theorem validateToken_iff {s field : Str} :
    validateToken s field = .ok s ↔ IsToken s ∨ NewlineTailed s := by
  rw [← channelIdRe_iff, validateToken, channelIdRe]
  split <;> simp_all

theorem IsToken.tail {s : Str} (h : IsToken s) : ∀ x ∈ s, tail x = true := by
  obtain ⟨c, run, rfl, hc, hrun, -⟩ := h
  exact List.forall_mem_cons.mpr ⟨by simp [ChannelIds.tail, hc], hrun⟩

/-- A token has 64 characters at most. -/
theorem IsToken.length_le {s : Str} (h : IsToken s) : s.length ≤ 64 := by
  obtain ⟨c, run, rfl, -, -, hlen⟩ := h
  exact Nat.succ_le_succ hlen

/-- No token ends in a newline. -/
theorem IsToken.not_newlineTailed {s : Str} (h : IsToken s) : ¬NewlineTailed s := by
  rintro ⟨token, -, rfl⟩
  have := h.tail newline (by simp)
  simp [ChannelIds.tail, lead, newline] at this

/-- The three checks of an id agree, and none lets a structural character in. -/
structure Agrees (s : Str) : Prop where
  api_iff_engine : channelIdRe s = true ↔ fieldPattern s = true
  wire_iff : ∀ field, validateToken s field = .ok s ↔ IsToken s
  wire_plain : ∀ field, validateToken s field = .ok s →
    ∀ x ∈ s, isspace x = false ∧ x ∉ natsStructure

/-- **The readings part** on a token with a newline behind it, and nowhere else. -/
theorem agrees_iff {s : Str} : Agrees s ↔ ¬NewlineTailed s := by
  constructor
  · rintro h htailed
    have htoken := fieldPattern_iff.mp (h.api_iff_engine.mp (channelIdRe_iff.mpr (.inr htailed)))
    exact htoken.not_newlineTailed htailed
  · intro h
    have hiff : IsToken s ∨ NewlineTailed s ↔ IsToken s := or_iff_left h
    refine ⟨?_, fun _ => validateToken_iff.trans hiff, fun _ hs x hx => ?_⟩
    · rw [channelIdRe_iff, fieldPattern_iff, hiff]
    · exact plain_of_tail ((hiff.mp (validateToken_iff.mp hs)).tail x hx)

/-! ### Assignments and reloads -/

variable {σ δ : Type}

/-- A channel and its day. -/
structure ChannelProfile (δ : Type) where
  channelId : Str
  definition : δ
  channel_id_pattern : fieldPattern channelId = true

/-- `ChannelProfile.from_definition`; the definition has been through the same rules already. -/
def fromDefinition (row : Str × δ) : Option (ChannelProfile δ) :=
  if h : fieldPattern row.1 = true then some ⟨row.1, row.2, h⟩ else none

/-- The tables, and what the engine has made of them. -/
structure Hub (σ δ : Type) where
  /-- `lighting_schedules`. -/
  schedules : List (σ × δ)
  /-- The channels that are registered `observe_only`. -/
  observeOnly : Str → Bool
  /-- `schedule_assignments`, by channel. -/
  assignments : List (Str × σ)
  profiles : List (ChannelProfile δ)
  lastCurves : List (Str × δ)
  scheduleReadFailing : Bool
  scheduleReloadErrors : ℕ

/-- The operator's requests, and the engine's reloads. -/
inductive HubAction (σ δ : Type) where
  /-- A schedule is created, or edited. -/
  | define (schedule : σ) (definition : δ)
  | assign (channel : Str) (schedule : σ)
  | unassign (channel : Str)
  /-- The engine's tick reads the tables, or fails to. -/
  | reload (reads : Bool)

section Steps
variable [DecidableEq σ] [DecidableEq δ]

/-- `assigned_curves`, sorted as the reload goes through them. -/
def Hub.assignedCurves (s : Hub σ δ) : List (Str × δ) :=
  (s.assignments.filterMap fun row => (s.schedules.lookup row.2).map (row.1, ·)).insertionSort
    fun a b => a.1 ≤ b.1

/-- A request that is answered with an error leaves the tables as they were. -/
def Hub.assign (s : Hub σ δ) (channel : Str) (schedule : σ) : Hub σ δ :=
  if !channelIdRe channel then s  -- 422
  else if s.observeOnly channel then s  -- 409
  else if (s.schedules.lookup schedule).isNone then s  -- 404
  else if 64 < channel.length then s  -- longer than the column
  else { s with
    assignments := s.assignments.filter (·.1 ≠ channel) ++ [(channel, schedule)] }

/-- `_reload_schedules`: what it cannot read or build leaves the last good set. -/
def Hub.reload (s : Hub σ δ) (reads : Bool) : Hub σ δ :=
  let failed :=
    { s with scheduleReadFailing := true, scheduleReloadErrors := s.scheduleReloadErrors + 1 }
  if !reads then failed
  else if s.assignedCurves = s.lastCurves then { s with scheduleReadFailing := false }
  else
    match s.assignedCurves.mapM fromDefinition with
    | none => failed
    | some profiles =>
        { s with
          scheduleReadFailing := false
          profiles := profiles
          lastCurves := s.assignedCurves }

/-- One request, or one reload. -/
def Hub.step (s : Hub σ δ) : HubAction σ δ → Option (Hub σ δ)
  | .define schedule definition =>
      some { s with schedules := (schedule, definition) :: s.schedules.filter (·.1 ≠ schedule) }
  | .assign channel schedule => some (s.assign channel schedule)
  | .unassign channel => some { s with assignments := s.assignments.filter (·.1 ≠ channel) }
  | .reload reads => some (s.reload reads)

/-- The API's requests and the engine's reloads. -/
def hub (σ δ : Type) [DecidableEq σ] [DecidableEq δ] : Machine (Hub σ δ) (HubAction σ δ) where
  step := Hub.step

/-- A reload that can read the tables goes through. -/
def Hub.Reloadable (s : Hub σ δ) : Prop := (s.reload true).scheduleReadFailing = false

/-- The step leaves the hub fit to reload. -/
def StaysReloadable (s : Hub σ δ) (a : HubAction σ δ) : Prop :=
  ∀ s', (hub σ δ).step s a = some s' → s'.Reloadable

omit [DecidableEq δ] in
/-- No newline-tailed id that fits the column is assigned a schedule that exists. -/
def Spares (s : Hub σ δ) : HubAction σ δ → Prop
  | .assign channel schedule => s.observeOnly channel = false →
      (s.schedules.lookup schedule).isSome → channel.length ≤ 64 → ¬NewlineTailed channel
  | _ => True

end Steps

/-- Every id that is assigned, or built on already, is a token. -/
structure Hub.Tokens (s : Hub σ δ) : Prop where
  assigned : ∀ row ∈ s.assignments, IsToken row.1
  built : ∀ row ∈ s.lastCurves, IsToken row.1

variable [DecidableEq σ] [DecidableEq δ] {s : Hub σ δ}

omit [DecidableEq δ] in
/-- The curves that the reload goes through. -/
theorem mem_assignedCurves {row : Str × δ} : row ∈ s.assignedCurves ↔
    ∃ schedule, (row.1, schedule) ∈ s.assignments ∧ s.schedules.lookup schedule = some row.2 := by
  obtain ⟨channel, definition⟩ := row
  simp only [Hub.assignedCurves, List.mem_insertionSort, List.mem_filterMap, Option.map_eq_some_iff]
  constructor
  · rintro ⟨⟨c, schedule⟩, hmem, _, hlookup, rfl, rfl⟩
    exact ⟨schedule, hmem, hlookup⟩
  · rintro ⟨schedule, hmem, hlookup⟩
    exact ⟨_, hmem, _, hlookup, rfl⟩

omit [DecidableEq δ] in
/-- A reload builds every profile if every channel id passes the field's pattern. -/
theorem mapM_fromDefinition (rows : List (Str × δ)) :
    (rows.mapM fromDefinition).isSome ↔ ∀ row ∈ rows, fieldPattern row.1 = true := by
  induction rows with
  | nil => simp
  | cons row rows ih =>
      rw [List.mapM_cons, List.forall_mem_cons, ← ih]
      by_cases h : fieldPattern row.1 = true <;>
        cases rows.mapM fromDefinition <;> simp [fromDefinition, h]

/-- **A reload goes through** when the ids of the curves are tokens, or nothing has changed. -/
theorem reloadable_iff : s.Reloadable ↔
    s.assignedCurves = s.lastCurves ∨ ∀ row ∈ s.assignedCurves, fieldPattern row.1 = true := by
  rw [← mapM_fromDefinition, Hub.Reloadable, Hub.reload]
  by_cases heq : s.assignedCurves = s.lastCurves
  · simp [heq]
  · cases s.assignedCurves.mapM fromDefinition <;> simp [heq]

/-- A hub whose channel ids are tokens can be reloaded. -/
theorem Hub.Tokens.reloadable (h : s.Tokens) : s.Reloadable := by
  refine reloadable_iff.mpr (.inr fun row hrow => ?_)
  obtain ⟨schedule, hmem, -⟩ := mem_assignedCurves.mp hrow
  exact fieldPattern_iff.mpr (h.assigned _ hmem)

omit [DecidableEq δ] in
/-- What is assigned after a request: what was, and, if it is accepted, its own row. -/
theorem assign_eq (channel : Str) (schedule : σ) : s.assign channel schedule = s ∨
    (channelIdRe channel = true ∧ s.observeOnly channel = false ∧
      (s.schedules.lookup schedule).isSome ∧ channel.length ≤ 64 ∧
      s.assign channel schedule = { s with
        assignments := s.assignments.filter (·.1 ≠ channel) ++ [(channel, schedule)] }) := by
  rw [Hub.assign]
  split_ifs with hre hobserve hschedule hlength
  · exact .inl rfl
  · exact .inl rfl
  · exact .inl rfl
  · exact .inl rfl
  · refine .inr ⟨by simpa using hre, by simpa using hobserve, ?_, by omega, rfl⟩
    simpa [Option.isSome_iff_ne_none] using hschedule

/-- **Tokens stay tokens**, as long as no newline-tailed id is assigned. -/
theorem tokens_step {s' : Hub σ δ} {a : HubAction σ δ} (hC : Spares s a) (h : s.Tokens)
    (hs : (hub σ δ).step s a = some s') : s'.Tokens := by
  obtain ⟨hassigned, hbuilt⟩ := h
  cases a with
  | define schedule definition =>
      obtain rfl := Option.some.inj hs
      exact ⟨hassigned, hbuilt⟩
  | unassign channel =>
      obtain rfl := Option.some.inj hs
      exact ⟨fun row hrow => hassigned row (List.mem_of_mem_filter hrow), hbuilt⟩
  | assign channel schedule =>
      obtain rfl := Option.some.inj hs
      obtain heq | ⟨hre, hobserve, hschedule, hlength, heq⟩ := @assign_eq _ _ _ s channel schedule
      · rw [heq]
        exact ⟨hassigned, hbuilt⟩
      · rw [heq]
        refine ⟨fun row hrow => ?_, hbuilt⟩
        obtain hrow | hrow := List.mem_append.mp hrow
        · exact hassigned row (List.mem_of_mem_filter hrow)
        · obtain rfl := List.mem_singleton.mp hrow
          exact (channelIdRe_iff.mp hre).resolve_right (hC hobserve hschedule hlength)
  | reload reads =>
      obtain rfl := Option.some.inj hs
      simp only [Hub.reload]
      split_ifs
      · exact ⟨hassigned, hbuilt⟩
      · exact ⟨hassigned, hbuilt⟩
      · split
        · exact ⟨hassigned, hbuilt⟩
        · refine ⟨hassigned, fun row hrow => ?_⟩
          obtain ⟨schedule, hmem, -⟩ := mem_assignedCurves.mp hrow
          exact hassigned _ hmem

/-- An id that no profile has, assigned, keeps the hub from reloading. -/
theorem not_reloadable {channel : Str} {definition : δ}
    (hcurve : (channel, definition) ∈ s.assignedCurves) (hchannel : ¬IsToken channel)
    (hbuilt : ∀ row ∈ s.lastCurves, IsToken row.1) : ¬s.Reloadable := by
  intro h
  obtain heq | hall := reloadable_iff.mp h
  · exact hchannel (hbuilt _ (heq ▸ hcurve))
  · exact hchannel (fieldPattern_iff.mp (hall _ hcurve))

/-- **The hub stays fit to reload** where no newline-tailed id is assigned, and there only. -/
theorem spares_iff {s' : Hub σ δ} {a : HubAction σ δ} (h : s.Tokens)
    (hs : (hub σ δ).step s a = some s') : StaysReloadable s a ↔ Spares s a := by
  constructor
  · intro hstays
    cases a with
    | assign channel schedule =>
        intro hobserve hschedule hlength htailed
        obtain ⟨definition, hlookup⟩ := Option.isSome_iff_exists.mp hschedule
        have hre := channelIdRe_iff.mpr (.inr htailed)
        have heq : s.assign channel schedule = { s with
            assignments := s.assignments.filter (·.1 ≠ channel) ++ [(channel, schedule)] } := by
          rw [Hub.assign]
          simp [hre, hobserve, hlookup, Nat.not_lt.mpr hlength]
        have hbad := hstays _ rfl
        rw [heq] at hbad
        have hchannel : ¬IsToken channel := fun htoken => htoken.not_newlineTailed htailed
        have hcurve : (channel, definition) ∈ Hub.assignedCurves { s with
            assignments := s.assignments.filter (·.1 ≠ channel) ++ [(channel, schedule)] } :=
          mem_assignedCurves.mpr ⟨schedule, by simp, hlookup⟩
        exact not_reloadable hcurve hchannel h.built hbad
    | _ => trivial
  · rintro hC s'' hs''
    exact (tokens_step hC h hs'').reloadable

/-- **Ids of channels.**  The three checks of an id agree exactly where it is no token with a newline
behind it; and in a run from where all ids are tokens, each step leaves the hub fit to reload exactly
where none assigns such an id, that fits the column, to a channel. -/
theorem channel_ids_iff {as : List (HubAction σ δ)} {s' : Hub σ δ} (h : s.Tokens) :
    (∀ id, Agrees id ↔ ¬NewlineTailed id) ∧
      ((hub σ δ).RunIf StaysReloadable s as s' ↔ (hub σ δ).RunIf Spares s as s') := by
  refine ⟨fun _ => agrees_iff, (Machine.RunIf.congr h ?_ ?_).symm⟩
  · exact fun s a s' hC hI hs => tokens_step hC hI hs
  · exact fun s a s' hI hs => (spares_iff hI hs).symm

/-! ### What one such id does -/

/-- The id is assigned a schedule, and has been built on by no reload. -/
structure Hub.Stuck (s : Hub σ δ) (channel : Str) : Prop where
  assigned : ∃ definition, (channel, definition) ∈ s.assignedCurves
  built : ∀ row ∈ s.lastCurves, IsToken row.1

omit [DecidableEq δ] in
theorem lookup_define {l : List (σ × δ)} {schedule i : σ} {definition d : δ}
    (h : l.lookup i = some d) :
    ∃ d', ((schedule, definition) :: l.filter (·.1 ≠ schedule)).lookup i = some d' := by
  by_cases hi : i = schedule
  · exact ⟨definition, by simp [hi]⟩
  · refine ⟨d, ?_⟩
    rw [List.lookup_cons, beq_eq_false_iff_ne.mpr hi]
    induction l with
    | nil => simp at h
    | cons row l ih =>
        obtain ⟨j, e⟩ := row
        by_cases hj : i = j
        · subst hj
          rw [List.filter_cons_of_pos (by simpa using hi)]
          simpa [List.lookup_cons] using h
        · rw [List.lookup_cons, beq_eq_false_iff_ne.mpr hj] at h
          by_cases hk : j = schedule
          · rw [List.filter_cons_of_neg (by simpa using hk)]
            exact ih h
          · rw [List.filter_cons_of_pos (by simpa using hk), List.lookup_cons,
              beq_eq_false_iff_ne.mpr hj]
            exact ih h

/-- **Step.**  A channel id that is no token holds the reload up until it is unassigned. -/
theorem stuck_step {s' : Hub σ δ} {a : HubAction σ δ} {channel : Str} (hchannel : ¬IsToken channel)
    (ha : a ≠ .unassign channel) (h : s.Stuck channel) (hs : (hub σ δ).step s a = some s') :
    s'.Stuck channel := by
  obtain ⟨⟨definition, hcurve⟩, hbuilt⟩ := h
  obtain ⟨schedule, hmem, hlookup⟩ := mem_assignedCurves.mp hcurve
  cases a with
  | define i d =>
      obtain rfl := Option.some.inj hs
      obtain ⟨d', hd'⟩ := @lookup_define _ _ _ _ i _ d _ hlookup
      exact ⟨⟨d', mem_assignedCurves.mpr ⟨schedule, hmem, hd'⟩⟩, hbuilt⟩
  | unassign c =>
      obtain rfl := Option.some.inj hs
      have hc : channel ≠ c := fun hc => ha (hc ▸ rfl)
      exact ⟨⟨definition, mem_assignedCurves.mpr
        ⟨schedule, List.mem_filter.mpr ⟨hmem, by simpa using hc⟩, hlookup⟩⟩, hbuilt⟩
  | assign c i =>
      obtain rfl := Option.some.inj hs
      obtain heq | ⟨-, -, hexists, -, heq⟩ := @assign_eq _ _ _ s c i
      · rw [heq]
        exact ⟨⟨definition, hcurve⟩, hbuilt⟩
      · rw [heq]
        obtain ⟨d, hd⟩ := Option.isSome_iff_exists.mp hexists
        refine ⟨?_, hbuilt⟩
        by_cases hc : channel = c
        · exact ⟨d, mem_assignedCurves.mpr ⟨i, by simp [hc], hd⟩⟩
        · refine ⟨definition, mem_assignedCurves.mpr ⟨schedule, ?_, hlookup⟩⟩
          exact List.mem_append_left _ (List.mem_filter.mpr ⟨hmem, by simpa using hc⟩)
  | reload reads =>
      obtain rfl := Option.some.inj hs
      have hnone : s.assignedCurves.mapM fromDefinition = none := by
        by_contra hsome
        have hall := (mapM_fromDefinition _).mp (Option.isSome_iff_ne_none.mpr hsome)
        exact hchannel (fieldPattern_iff.mp (hall _ hcurve))
      rw [Hub.reload, hnone]
      split_ifs <;> exact ⟨⟨definition, hcurve⟩, hbuilt⟩

/-- **From then on no reload goes through**, until the id is unassigned. -/
theorem stuck_run {as : List (HubAction σ δ)} {s' : Hub σ δ} {channel : Str}
    (hchannel : ¬IsToken channel) (h : s.Stuck channel) (hrun : (hub σ δ).Run s as s')
    (has : .unassign channel ∉ as) : ¬s'.Reloadable := by
  have hstuck : s'.Stuck channel :=
    hrun.invariant_avoiding (fun a ha (heq : a = .unassign channel) => has (heq ▸ ha)) h
      fun s a s' ha _ hI hs => stuck_step hchannel ha hI hs
  obtain ⟨_, hcurve⟩ := hstuck.assigned
  exact not_reloadable hcurve hchannel hstuck.built

/-! ### Runs -/

/-- Nothing is assigned, and there is one schedule. -/
def oneSchedule : Hub Unit Unit := ⟨[((), ())], fun _ => false, [], [], [], false, 0⟩

theorem oneSchedule_tokens : oneSchedule.Tokens := ⟨by simp [oneSchedule], by simp [oneSchedule]⟩

/-- `led-blue`, as a token. -/
def ledBlue : Str := str "led-blue"

theorem isToken_ledBlue : IsToken ledBlue :=
  ⟨108, str "ed-blue", rfl, rfl, by decide, by decide⟩

/-- A plain id is assigned, and the engine reloads. -/
theorem channel_ids_iff_ledBlue :
    ¬NewlineTailed ledBlue ∧ (hub Unit Unit).RunIf StaysReloadable oneSchedule
      [.assign ledBlue (), .reload true]
      ((oneSchedule.assign ledBlue ()).reload true) := by
  obtain ⟨hagree, hruns⟩ := @channel_ids_iff Unit Unit _ _ oneSchedule
    [.assign ledBlue (), .reload true] ((oneSchedule.assign ledBlue ()).reload true)
    oneSchedule_tokens
  have hplain := isToken_ledBlue.not_newlineTailed
  refine ⟨hplain, hruns.mpr ?_⟩
  exact .more (fun _ _ _ => hplain) rfl (.more trivial rfl (.refl _))

/-- The API takes `led-blue` with a newline behind it, the engine does not; and once it is assigned,
a reload fails. -/
theorem not_channel_ids :
    (channelIdRe (ledBlue ++ [newline]) = true ∧ fieldPattern (ledBlue ++ [newline]) = false) ∧
      ∃ s', (hub Unit Unit).Run oneSchedule
        [.assign (ledBlue ++ [newline]) (), .assign ledBlue (), .reload true] s' ∧
          s'.scheduleReadFailing = true ∧ s'.profiles.length = 0 := by
  refine ⟨⟨by decide +kernel, by decide +kernel⟩, ?_⟩
  have hrun : ((hub Unit Unit).exec oneSchedule
      [.assign (ledBlue ++ [newline]) (), .assign ledBlue (), .reload true]).map
        (fun s => (s.scheduleReadFailing, s.profiles.length)) = some (true, 0) := by decide +kernel
  obtain ⟨s', hexec, hresult⟩ := Option.map_eq_some_iff.mp hrun
  obtain ⟨hfailing, hprofiles⟩ := Prod.mk.inj hresult
  exact ⟨s', Machine.exec_eq_some.mp hexec, hfailing, hprofiles⟩

end BellasReef.Api.ChannelIds
