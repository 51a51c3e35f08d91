import BellasReef.Support.DecimalText
import BellasReef.Support.JsonText
import BellasReef.Support.Timestamp
import Mathlib.Data.List.Sort

/-!
# API — Export

`_jsonl_samples` (`history.py`): the raw export, as VictoriaMetrics answers, one JSON object on
each line, and the samples that are read off it.

* `jsonlSamples_of_clean`: where no label has a line break in it, what is read is what each entry's
  finite samples come to, and an instant that is no `datetime` raises.
* `jsonlSamples_of_break`: where one has, the first such line is cut in two, and raises.
* `jsonl_exact_iff`: so the export is exact if and only if no label has a line break in it and every
  finite sample's instant comes out of a double of seconds as it went in.

`str` of a label and `ts_ms / 1000` are of the texts and the whole numbers that the store answers
with; anything else in their place is taken to raise.
-/

namespace BellasReef.Api.Export
open BellasReef.Support
open BellasReef.Support.JsonText (Value Style Reads printString printArray printMember printObject)
open BellasReef.Support.Calendar (Instant fromTimestamp)
open BellasReef.Support.DecimalText (float minus integer printInteger integer_printInteger
  isDigit_toDigits)

/-! ### Samples -/

/-- A finite double; of the two zeros, `negZero` says which. -/
@[ext]
structure Finite where
  value : ℚ
  isDouble : IsDouble value
  negZero : Bool
  zero_of_negZero : negZero = true → value = 0

instance : DecidableEq Finite := fun _ _ => decidable_of_iff' _ Finite.ext_iff

/-- Label names and values, in the order they are written. -/
abbrev Labels := List (Text × Text)

/-- `RawSample`. -/
structure RawSample where
  «at» : Instant
  value : Finite
  labels : Labels

/-- `"__name__"`. -/
def nameLabel : Text := ['_', '_', 'n', 'a', 'm', 'e', '_', '_']

/-- `"device_id"`. -/
def deviceIdLabel : Text := ['d', 'e', 'v', 'i', 'c', 'e', '_', 'i', 'd']

/-- `_IDENTITY_LABELS`. -/
def identityLabels : List Text := [nameLabel, deviceIdLabel]

/-! ### Reading the export -/

/-- `d[name] = v`, of a dict in the order of its first insertions. -/
def setItem (d : List (Text × Value)) (name : Text) (v : Value) : List (Text × Value) :=
  if name ∈ d.map Prod.fst then d.map fun f => if f.1 = name then (name, v) else f
  else d ++ [(name, v)]

/-- The dict of an object's fields. -/
def dictOf (fields : List (Text × Value)) : List (Text × Value) :=
  fields.foldl (fun d f => setItem d f.1 f.2) []

/-- `"metric"`. -/
def metricKey : Text := ['m', 'e', 't', 'r', 'i', 'c']

/-- `"values"`. -/
def valuesKey : Text := ['v', 'a', 'l', 'u', 'e', 's']

/-- `"timestamps"`. -/
def timestampsKey : Text := ['t', 'i', 'm', 'e', 's', 't', 'a', 'm', 'p', 's']

/-- `str(value)`, of a label. -/
def label : Text × Value → Option (Text × Text)
  | (name, .string s) => some (name, s)
  | _ => none

/-- `labels`. -/
def labelsOf (metric : List (Text × Value)) : Option Labels :=
  ((dictOf metric).filter fun f => f.1 ∉ identityLabels).mapM label

theorem zero_of_negZero {minus : Bool} {q : ℚ} (h : (minus && decide (q = 0)) = true) : q = 0 :=
  of_decide_eq_true (Bool.and_elim_right h)

/-- `math.isfinite`; `minus` is the sign, if it is zero. -/
def finite? (minus : Bool) : Double → Option Finite
  | .finite q h => some ⟨q, h, minus && decide (q = 0), zero_of_negZero⟩
  | _ => none

/-- `float(raw)`, if it is finite; within, `none` where the loop goes on to the next sample, and
without, where something is raised that nothing catches: an `int` that no float is as large as. -/
def finiteFloat : Value → Option (Option Finite)
  | .null | .array _ | .object _ => some none
  | .bool b => some (finite? false (Double.ofRat (if b then 1 else 0)))
  | .string s => some ((float s).bind (finite? (minus s)))
  | .number token =>
      -- an `int` has one zero
      match (float token).bind (finite? (minus token && (integer token).isNone)) with
      | some value => some (some value)
      | none => if (integer token).isSome then none else some none

/-- `ts_ms`. -/
def timestamp : Value → Option ℤ
  | .number token => integer token
  | _ => none

/-- One round of the inner loop. -/
def sampleOf (offset : ℤ) (labels : Labels) (p : Value × Value) : Option (Option RawSample) := do
  match ← finiteFloat p.2 with
  | none => some none
  | some value => some (some ⟨← fromTimestamp offset (← timestamp p.1), value, labels⟩)

/-- `entry.get(key, [])`, of an array. -/
def arrayAt (entry : List (Text × Value)) (key : Text) : Option (List Value) :=
  match entry.lookup key with
  | none => some []
  | some (.array xs) => some xs
  | some _ => none

/-- The samples of a line. -/
def samplesOf (offset : ℤ) : Value → Option (List RawSample)
  | .object fields => do
      let entry := dictOf fields
      let labels ← match entry.lookup metricKey with
        | none => some []
        | some (.object metric) => labelsOf metric
        | some _ => none
      let times ← arrayAt entry timestampsKey
      let values ← arrayAt entry valuesKey
      let samples ← (times.zip values).mapM (sampleOf offset labels)
      -- `zip` is strict
      if times.length = values.length then some samples.reduceOption else none
  | _ => none

/-- One round of the outer loop. -/
def lineSamples (offset : ℤ) (line : Text) : Option (List RawSample) :=
  if line.strip = [] then some [] else (JsonText.loads line).bind (samplesOf offset)

/-- `_jsonl_samples`, with `tz` always `offset` microseconds ahead of UTC; `none` where it
raises. -/
def jsonlSamples (offset : ℤ) (body : Text) : Option (List RawSample) := do
  let samples ← body.splitlines.mapM (lineSamples offset)
  some (samples.flatten.insertionSort fun a b => a.at.micros ≤ b.at.micros)

/-! ### What the store answers -/

/-- A token that is a finite number's. -/
structure Writes (token : Text) (value : Finite) : Prop where
  valid : JsonText.validNumber token = true
  chars : token.all JsonText.isNumberChar = true
  reads : (float token).bind (finite? (minus token && (integer token).isNone)) = some value

/-- A stored value: a NaN, which marks staleness, is written as `null`, and an infinity as a
string. -/
inductive Reading where
  | number (token : Text) (value : Finite) (writes : Writes token value)
  | stale
  | infinite (negative : Bool)

/-- The samples of one label set. -/
structure Entry where
  metric : Labels
  distinct : (metric.map Prod.fst).Nodup
  points : List (ℤ × Reading)

/-- What the store writes of an infinity. -/
def infinityWord (negative : Bool) : Text :=
  if negative then '-' :: JsonText.infinity else JsonText.infinity

/-- A value, as `/api/v1/export` writes it. -/
def Reading.print (style : Style) : Reading → Text
  | .number token _ _ => token
  | .stale => ['n', 'u', 'l', 'l']
  | .infinite negative => printString style (infinityWord negative)

/-- The `metric` object. -/
def printLabels (style : Style) (metric : Labels) : Text :=
  printObject (metric.map fun l => printMember style l.1 (printString style l.2))

/-- The line of an entry. -/
def Entry.print (style : Style) (e : Entry) : Text :=
  printObject
    [printMember style metricKey (printLabels style e.metric),
      printMember style valuesKey (printArray (e.points.map fun p => p.2.print style)),
      printMember style timestampsKey (printArray (e.points.map fun p => printInteger p.1))]

/-- The answer. -/
def exportBody (style : Style) (entries : List Entry) : Text :=
  entries.flatMap fun e => e.print style ++ ['\n']

/-! ### What is to be read off it -/

/-- A reading that is a number. -/
def Reading.finite : Reading → Option Finite
  | .number _ value _ => some value
  | _ => none

/-- The labels that are not the hub's own. -/
def Entry.labels (e : Entry) : Labels := e.metric.filter fun l => l.1 ∉ identityLabels

/-- The finite samples, each with its instant in microseconds. -/
def Entry.samples (e : Entry) : List (ℤ × Finite × Labels) :=
  e.points.filterMap fun p => p.2.finite.map fun value => (1000 * p.1, value, e.labels)

/-- All of them, in time order. -/
def timeline (entries : List Entry) : List (ℤ × Finite × Labels) :=
  (entries.flatMap Entry.samples).insertionSort fun a b => a.1 ≤ b.1

/-- What a sample says, its instant as a number. -/
def RawSample.told (s : RawSample) : ℤ × Finite × Labels := (s.at.sinceEpoch, s.value, s.labels)

/-! ### An entry's line is read back -/

variable {style : Style} {offset : ℤ} {e : Entry} {entries : List Entry}

/-- A reading as JSON. -/
def Reading.json : Reading → Value
  | .number token _ _ => .number token
  | .stale => .null
  | .infinite negative => .string (infinityWord negative)

/-- An entry as JSON. -/
def Entry.json (e : Entry) : Value :=
  .object
    [(metricKey, .object (e.metric.map fun l => (l.1, .string l.2))),
      (valuesKey, .array (e.points.map fun p => p.2.json)),
      (timestampsKey, .array (e.points.map fun p => .number (printInteger p.1)))]

/-- What the store writes of a value reads back. -/
theorem Reading.reads (r : Reading) : Reads (r.print style) r.json := by
  cases r with
  | number token value writes => exact .number writes.valid writes.chars
  | stale => exact .null
  | infinite negative => exact .string _ _

/-- Digits with no zero in front are a JSON number, with a sign or without. -/
theorem validNumber_cons {d : Char} {t : Text} (hd : d.isDigit = true) (hzero : d ≠ '0')
    (ht : ∀ c ∈ t, c.isDigit = true) :
    JsonText.validNumber (d :: t) = true ∧ JsonText.validNumber ('-' :: d :: t) = true := by
  have hminus : d ≠ '-' := by rintro rfl; cases hd
  have htake : t.takeWhile Char.isDigit = t := List.takeWhile_eq_self_iff.mpr ht
  have hdrop : t.dropWhile Char.isDigit = [] := List.dropWhile_eq_nil_iff.mpr ht
  simp [JsonText.validNumber, hd, hzero, hminus, htake, hdrop, JsonText.validFraction,
    JsonText.validExponent]

theorem isNumberChar_printInteger (n : ℤ) :
    ∀ c ∈ printInteger n, JsonText.isNumberChar c = true := by
  have hdigits := isDigit_toDigits n.natAbs
  intro c hc
  rw [printInteger] at hc
  split_ifs at hc
  · obtain rfl | hc := List.mem_cons.mp hc
    · rfl
    · simp [JsonText.isNumberChar, hdigits c hc]
  · simp [JsonText.isNumberChar, hdigits c hc]

/-- An integer is a number to JSON. -/
theorem printInteger_reads (n : ℤ) : Reads (printInteger n) (.number (printInteger n)) := by
  have hdigits := isDigit_toDigits n.natAbs
  refine .number ?_ (by simpa using isNumberChar_printInteger n)
  obtain hzero | ⟨d, t, ht, hd, hne⟩ := DecimalText.toDigits_cases n.natAbs
  · obtain rfl := Int.natAbs_eq_zero.mp hzero
    rfl
  · rw [ht] at hdigits
    have hvalid := validNumber_cons hd hne fun c hc => hdigits c (.tail _ hc)
    rw [printInteger, ht]
    split_ifs
    · exact hvalid.2
    · exact hvalid.1

/-- An entry reads back whole. -/
theorem Entry.reads (style : Style) (e : Entry) : Reads (e.print style) e.json := by
  have hmetric : Reads (printLabels style e.metric)
      (.object (e.metric.map fun l => (l.1, .string l.2))) :=
    .object (forall₂_map fun l _ => ⟨_, rfl, .string style l.2⟩)
  refine .object (.cons ⟨_, rfl, hmetric⟩ (.cons ⟨_, rfl, ?_⟩ (.cons ⟨_, rfl, ?_⟩ .nil)))
  · exact .array (forall₂_map fun p _ => p.2.reads)
  · exact .array (forall₂_map fun p _ => printInteger_reads p.1)

/-! ### The samples of an entry's line -/

/-- A name that is new goes to the end. -/
theorem setItem_of_notMem {d : List (Text × Value)} {name : Text} (h : name ∉ d.map Prod.fst)
    (v : Value) : setItem d name v = d ++ [(name, v)] := by
  rw [setItem, if_neg h]

/-- Names that differ are all kept. -/
theorem dictOf_of_nodup {fields : List (Text × Value)} (h : (fields.map Prod.fst).Nodup) :
    dictOf fields = fields := by
  have hfold : ∀ d : List (Text × Value), ((d ++ fields).map Prod.fst).Nodup →
      fields.foldl (fun d f => setItem d f.1 f.2) d = d ++ fields := by
    clear h
    induction fields with
    | nil => simp
    | cons f fields ih =>
      intro d h
      have hnot : f.1 ∉ d.map Prod.fst := by
        intro hmem
        rw [List.map_append, List.nodup_append] at h
        exact h.2.2 _ hmem _ (.head _) rfl
      rw [List.foldl_cons, setItem_of_notMem hnot, ih]
      · simp
      · simpa using h
  exact hfold [] h

/-- The hub's own labels are taken out. -/
theorem labelsOf_json (e : Entry) :
    labelsOf (e.metric.map fun l => (l.1, .string l.2)) = some e.labels := by
  have hnodup : ((e.metric.map fun l => (l.1, Value.string l.2)).map Prod.fst).Nodup := by
    simpa [Function.comp_def] using e.distinct
  rw [labelsOf, dictOf_of_nodup hnodup, List.filter_map]
  have h : (e.labels.map fun l => (l.1, Value.string l.2)).mapM label = some (e.labels.map id) :=
    mapM_map_eq_some fun l _ => rfl
  rw [List.map_id] at h
  exact h

/-- `none` within for a reading that is no finite number. -/
theorem finiteFloat_json (r : Reading) : finiteFloat r.json = some r.finite := by
  cases r with
  | number token value writes =>
    simp [Reading.json, finiteFloat, writes.reads, Reading.finite]
  | stale => rfl
  | infinite negative => cases negative <;> rfl

/-- The points that are numbers. -/
def Entry.finitePoints (points : List (ℤ × Reading)) : List (ℤ × Finite) :=
  points.filterMap fun p => p.2.finite.map fun value => (p.1, value)

/-- What a finite point comes to. -/
def sampleAt (offset : ℤ) (labels : Labels) (p : ℤ × Finite) : Option RawSample :=
  (fromTimestamp offset p.1).map fun t => ⟨t, p.2, labels⟩

/-- What an entry's points come to. -/
def Entry.read (offset : ℤ) (e : Entry) : Option (List RawSample) :=
  (Entry.finitePoints e.points).mapM (sampleAt offset e.labels)

/-- A value that is no number is skipped. -/
theorem sampleOf_json (labels : Labels) (p : ℤ × Reading) :
    sampleOf offset labels (.number (printInteger p.1), p.2.json) =
      match p.2.finite with
      | none => some none
      | some value => (sampleAt offset labels (p.1, value)).map some := by
  rw [sampleOf, finiteFloat_json]
  cases p.2.finite with
  | none => rfl
  | some value =>
    simp only [timestamp, integer_printInteger, sampleAt, Option.bind_eq_bind, Option.bind_some]
    cases fromTimestamp offset p.1 <;> rfl

/-- The points of an entry that are numbers are its samples. -/
theorem mapM_sampleOf (offset : ℤ) (labels : Labels) (points : List (ℤ × Reading)) :
    ((points.map fun p => (Value.number (printInteger p.1), p.2.json)).mapM
        (sampleOf offset labels)).map List.reduceOption =
      (Entry.finitePoints points).mapM (sampleAt offset labels) := by
  induction points with
  | nil => rfl
  | cons p points ih =>
    rw [Entry.finitePoints] at ih ⊢
    rw [List.map_cons, List.mapM_cons, sampleOf_json, List.filterMap_cons]
    cases p.2.finite with
    -- what is no finite number is dropped, and its instant is not looked at
    | none =>
      refine Eq.trans ?_ ih
      cases (points.map fun p => (Value.number (printInteger p.1), p.2.json)).mapM
        (sampleOf offset labels) <;> rfl
    | some value =>
      simp only [Option.map_some, List.mapM_cons, ← ih]
      cases sampleAt offset labels (p.1, value) with
      | none => rfl
      | some sample =>
        cases (points.map fun p => (Value.number (printInteger p.1), p.2.json)).mapM
          (sampleOf offset labels) <;> rfl

/-- The reader takes of an entry what `Entry.read` says. -/
theorem samplesOf_json (offset : ℤ) (e : Entry) : samplesOf offset e.json = e.read offset := by
  have hentry : ∀ m v t : Value, dictOf [(metricKey, m), (valuesKey, v), (timestampsKey, t)] =
      [(metricKey, m), (valuesKey, v), (timestampsKey, t)] := fun m v t => rfl
  have hmapM := mapM_sampleOf offset e.labels e.points
  have hmetric : ∀ m v t : Value, List.lookup metricKey
      [(metricKey, m), (valuesKey, v), (timestampsKey, t)] = some m := fun m v t => rfl
  have hvalues : ∀ m v t : Value, List.lookup valuesKey
      [(metricKey, m), (valuesKey, v), (timestampsKey, t)] = some v := fun m v t => rfl
  have htimestamps : ∀ m v t : Value, List.lookup timestampsKey
      [(metricKey, m), (valuesKey, v), (timestampsKey, t)] = some t := fun m v t => rfl
  rw [Entry.read, ← hmapM]
  simp only [samplesOf, Entry.json, hentry, arrayAt, hmetric, hvalues, htimestamps, labelsOf_json,
    Option.bind_eq_bind, Option.bind_some, List.zip_map', List.length_map, if_true]
  cases (e.points.map fun p => (Value.number (printInteger p.1), p.2.json)).mapM
    (sampleOf offset e.labels) <;> rfl

/-! ### Line breaks -/

/-- A break that JSON does not escape. -/
def Breaks (c : Char) : Prop := c.toNat = 0x85 ∨ c.toNat = 0x2028 ∨ c.toNat = 0x2029

/-- The characters of an entry's labels, names and values. -/
def Entry.labelChars (e : Entry) : Text := e.metric.flatMap fun l => l.1 ++ l.2

/-- No label has a line break in it. -/
def Entry.Clean (e : Entry) : Prop := ∀ c ∈ e.labelChars, ¬Breaks c

variable {c d : Char} {s : Text} {ts : List Text}

theorem isBreak_of_breaks (h : Breaks c) : Text.isBreak c = true := by
  obtain h | h | h := h <;> simp [Text.isBreak, h]

theorem breaks_of_isBreak (h : Text.isBreak c = true) (hc : 32 ≤ c.toNat) : Breaks c := by
  have hfeed : c ≠ '\n' ∧ c ≠ '\r' := by
    constructor <;> rintro rfl <;> exact absurd hc (by decide)
  simp [Text.isBreak, hfeed] at h
  simp only [Breaks]
  omega

/-- Where `splitlines` breaks and JSON does not escape, the character is not ASCII. -/
theorem le_toNat_of_breaks (h : Breaks c) : 128 ≤ c.toNat := by
  simp only [Breaks] at h
  omega

theorem showsOnly_of_isNumberChar {t : Text} (h : ∀ c ∈ t, JsonText.isNumberChar c = true) :
    JsonText.ShowsOnly s t := by
  intro c hc
  have hc : c.isDigit = true ∨ c = '-' ∨ c = '+' ∨ c = '.' ∨ c = 'e' ∨ c = 'E' := by
    simpa [JsonText.isNumberChar, or_assoc] using h c hc
  obtain hc | rfl | rfl | rfl | rfl | rfl := hc
  · have hrange := Text.toNat_of_isDigit hc
    exact ⟨by omega, .inl (by omega)⟩
  all_goals exact ⟨by decide, .inl (by decide)⟩

/-- A value is written in ASCII. -/
theorem Reading.showsOnly (r : Reading) : JsonText.ShowsOnly s (r.print style) := by
  cases r with
  | number token value writes =>
    have hchars : ∀ c ∈ token, JsonText.isNumberChar c = true := by simpa using writes.chars
    exact showsOnly_of_isNumberChar hchars
  | stale =>
    intro d hd
    have hd : d = 'n' ∨ d = 'u' ∨ d = 'l' := by simpa [Reading.print] using hd
    obtain rfl | rfl | rfl := hd <;> exact ⟨by decide, .inl (by decide)⟩
  | infinite negative =>
    refine (JsonText.showsOnly_printString style _).of_ascii ?_
    cases negative <;> rfl

/-- What is not ASCII in an entry is of its labels. -/
theorem Entry.showsOnly (e : Entry) : JsonText.ShowsOnly e.labelChars (e.print style) := by
  have hkey : ∀ key : Text, (key.all fun d => d.toNat < 128) = true →
      JsonText.ShowsOnly e.labelChars (printString style key) := fun key hkey =>
    (JsonText.showsOnly_printString style key).of_ascii hkey
  -- only the labels can bring in a character that is not ASCII
  have hlabels : JsonText.ShowsOnly e.labelChars (printLabels style e.metric) := by
    refine .printObject fun t ht => ?_
    obtain ⟨l, hl, rfl⟩ := List.mem_map.mp ht
    have hsub : l.1 ++ l.2 ⊆ e.labelChars := fun c hc => List.mem_flatMap.mpr ⟨l, hl, hc⟩
    refine .printMember ?_ ?_
    · exact (JsonText.showsOnly_printString style l.1).mono fun c hc =>
        hsub (List.mem_append_left _ hc)
    · exact (JsonText.showsOnly_printString style l.2).mono fun c hc =>
        hsub (List.mem_append_right _ hc)
  have hvalues : JsonText.ShowsOnly e.labelChars
      (printArray (e.points.map fun p => p.2.print style)) := by
    refine .printArray fun t ht => ?_
    obtain ⟨p, -, rfl⟩ := List.mem_map.mp ht
    exact p.2.showsOnly
  have htimes : JsonText.ShowsOnly e.labelChars
      (printArray (e.points.map fun p => printInteger p.1)) := by
    refine .printArray fun t ht => ?_
    obtain ⟨p, -, rfl⟩ := List.mem_map.mp ht
    exact showsOnly_of_isNumberChar (isNumberChar_printInteger p.1)
  refine .printObject fun t ht => ?_
  simp only [List.mem_cons, List.not_mem_nil, or_false] at ht
  obtain rfl | rfl | rfl := ht
  · exact .printMember (hkey _ rfl) hlabels
  · exact .printMember (hkey _ rfl) hvalues
  · exact .printMember (hkey _ rfl) htimes

/-- A break in a label is written as it is. -/
theorem mem_print (h : Breaks c) (hc : c ∈ e.labelChars) : c ∈ e.print style := by
  obtain ⟨l, hl, hc⟩ := List.mem_flatMap.mp hc
  have hmember : c ∈ printMember style l.1 (printString style l.2) := by
    obtain hc | hc := List.mem_append.mp hc
    · exact List.mem_append_left _ (JsonText.mem_printString hc (le_toNat_of_breaks h))
    · exact List.mem_append_right _
        (.tail _ (JsonText.mem_printString hc (le_toNat_of_breaks h)))
  have hlabels : c ∈ printLabels style e.metric :=
    .tail _ (JsonText.mem_joinItems (List.mem_map_of_mem hl) hmember)
  exact .tail _ (JsonText.mem_joinItems (.head _) (List.mem_append_right _ (.tail _ hlabels)))

/-- A line of the answer breaks at the labels' line breaks only. -/
theorem isBreak_print_iff : (∃ c ∈ e.print style, Text.isBreak c = true) ↔ ¬e.Clean := by
  constructor
  · rintro ⟨c, hc, hbreak⟩ hclean
    obtain ⟨hlo, hshown⟩ := e.showsOnly c hc
    have hbreaks := breaks_of_isBreak hbreak hlo
    have := le_toNat_of_breaks hbreaks
    obtain hlt | hmem := hshown
    · omega
    · exact hclean c hmem hbreaks
  · intro h
    obtain ⟨c, hc, hbreaks⟩ : ∃ c ∈ e.labelChars, Breaks c := by
      simpa [Entry.Clean] using h
    exact ⟨c, mem_print hbreaks hc, isBreak_of_breaks hbreaks⟩

/-! ### The whole answer -/

theorem print_cons (style : Style) (e : Entry) : ∃ t, e.print style = '{' :: t := ⟨_, rfl⟩

/-- A line that begins with a brace is not blank. -/
theorem strip_brace (t : Text) : Text.strip ('{' :: t) ≠ [] := by
  rw [Text.strip, List.dropWhile_cons_of_neg (by decide), Ne, List.rdropWhile_eq_nil_iff]
  intro h
  exact absurd (h '{' (.head _)) (by decide)

/-- A line of the export is read as its entry. -/
theorem lineSamples_print (offset : ℤ) (style : Style) (e : Entry) :
    lineSamples offset (e.print style) = e.read offset := by
  obtain ⟨t, ht⟩ := print_cons style e
  have hloads : JsonText.loads (e.print style) = some e.json :=
    (e.reads style).loads (by rw [ht, JsonText.skipBlanks_cons rfl])
  rw [lineSamples, if_neg (by rw [ht]; exact strip_brace t), hloads, Option.bind_some,
    samplesOf_json]

/-- **Where no label has a line break in it**, the lines are the entries'. -/
theorem jsonlSamples_of_clean (h : ∀ e ∈ entries, e.Clean) :
    jsonlSamples offset (exportBody style entries) =
      (entries.mapM (Entry.read offset)).map fun samples =>
        samples.flatten.insertionSort fun a b => a.at.micros ≤ b.at.micros := by
  have hlines : ∀ e ∈ entries, ∀ c ∈ e.print style, Text.isBreak c = false := by
    intro e he c hc
    by_contra hbreak
    exact isBreak_print_iff.mp ⟨c, hc, by simpa using hbreak⟩ (h e he)
  have hsplit := Text.splitlines_flatMap hlines []
  rw [List.append_nil] at hsplit
  have hread : (fun e : Entry => lineSamples offset (e.print style)) = Entry.read offset := by
    funext e
    exact lineSamples_print offset style e
  rw [jsonlSamples, exportBody, hsplit, show Text.splitlines [] = [] from rfl, List.append_nil,
    List.mapM_map, Function.comp_def, hread]
  cases entries.mapM (Entry.read offset) <;> rfl

/-- A piece of a line, up to the first break in it. -/
theorem lineSamples_piece {line t : Text} (hline : ∀ c ∈ line, Text.isBreak c = false)
    (hc : Text.isBreak c = true) (h : e.print style = line ++ c :: t) :
    lineSamples offset line = none := by
  cases line with
  | nil =>
    obtain ⟨u, hu⟩ := print_cons style e
    obtain ⟨rfl, -⟩ := List.cons.inj (hu.symm.trans h)
    cases hc
  | cons d line =>
    obtain ⟨u, hu⟩ := print_cons style e
    obtain ⟨rfl, -⟩ := List.cons.inj (hu.symm.trans h)
    have hloads := JsonText.loads_eq_none_of_append (List.cons_ne_nil c t) (h ▸ e.reads style)
    rw [lineSamples, if_neg (strip_brace line), hloads]
    rfl

/-- **Where one has**, its line is cut in two, and what is before the cut is not JSON. -/
theorem jsonlSamples_of_break (he : e ∈ entries) (h : ¬e.Clean) :
    jsonlSamples offset (exportBody style entries) = none := by
  obtain ⟨line, hmem, hnone⟩ : ∃ line ∈ (exportBody style entries).splitlines,
      lineSamples offset line = none := by
    induction entries with
    | nil => cases he
    | cons e' entries ih =>
      rw [exportBody, List.flatMap_cons, List.append_assoc]
      by_cases hclean : e'.Clean
      · -- a clean line in front is read as a line, and the one that breaks is further on
        have hlines : ∀ c ∈ e'.print style, Text.isBreak c = false := by
          intro c hc
          by_contra hbreak
          exact isBreak_print_iff.mp ⟨c, hc, by simpa using hbreak⟩ hclean
        have he : e ∈ entries := by
          obtain rfl | he := List.mem_cons.mp he
          · exact absurd hclean h
          · exact he
        obtain ⟨line, hmem, hnone⟩ := ih he
        rw [List.singleton_append, Text.splitlines_line hlines]
        exact ⟨line, .tail _ hmem, hnone⟩
      · -- else the line is cut at its first break, which is no part of a `\r\n`
        obtain ⟨line, c, t, ht, hline, hc⟩ :=
          Text.exists_first_break (isBreak_print_iff.mpr hclean)
        have hreturn : c ≠ '\r' := by
          rintro rfl
          have hmem : '\r' ∈ e'.print style := ht ▸ List.mem_append_right _ (.head _)
          exact absurd (e'.showsOnly _ hmem).1 (by decide)
        rw [ht, List.append_assoc, List.cons_append, Text.splitlines_break hline hc hreturn]
        exact ⟨line, .head _, lineSamples_piece hline hc ht⟩
  rw [jsonlSamples, mapM_eq_none hmem hnone]
  rfl

/-- **The export is exact**: it is read without an error, as the finite samples of all entries, each
with its instant and its entry's labels, in time order. -/
def JsonlExact (style : Style) (offset : ℤ) (entries : List Entry) : Prop :=
  ∃ out, jsonlSamples offset (exportBody style entries) = some out ∧
    out.map RawSample.told = timeline entries

/-- An instant that comes out of a double of seconds as it went in. -/
def Kept (offset ms : ℤ) : Prop := ∃ t, fromTimestamp offset ms = some t ∧ t.sinceEpoch = 1000 * ms

/-- Every instant within 2³³ seconds of 1970 is, up to the year 2242. -/
theorem kept_of_lt {ms : ℤ} (hms : |ms| < 2 ^ 33 * 1000) (hoffset : |offset| ≤ Calendar.dayMicros) :
    Kept offset ms :=
  Calendar.fromTimestamp_of_lt hms hoffset

/-- Every finite sample's instant is. -/
def Entry.Kept (offset : ℤ) (e : Entry) : Prop :=
  ∀ p ∈ Entry.finitePoints e.points, Export.Kept offset p.1

theorem samples_eq (e : Entry) :
    e.samples = (Entry.finitePoints e.points).map fun p => (1000 * p.1, p.2, e.labels) := by
  rw [Entry.samples, Entry.finitePoints, List.map_filterMap]
  congr 1
  funext p
  cases p.2.finite <;> rfl

/-- Instants are ordered as their numbers. -/
theorem told_le_iff (a b : RawSample) : a.at.micros ≤ b.at.micros ↔ a.told.1 ≤ b.told.1 := by
  simp only [RawSample.told, Instant.sinceEpoch]
  omega

theorem mapM_sampleAt (labels : Labels) {points : List (ℤ × Finite)}
    (h : ∀ p ∈ points, Kept offset p.1) :
    ∃ out, points.mapM (sampleAt offset labels) = some out ∧
      out.map RawSample.told = points.map fun p => (1000 * p.1, p.2, labels) := by
  induction points with
  | nil => exact ⟨[], rfl, rfl⟩
  | cons p points ih =>
    obtain ⟨t, ht, hkept⟩ := h p (.head _)
    obtain ⟨out, hout, htold⟩ := ih fun q hq => h q (.tail _ hq)
    refine ⟨⟨t, p.2, labels⟩ :: out, ?_, ?_⟩
    · rw [List.mapM_cons, sampleAt, ht, hout]
      rfl
    · rw [List.map_cons, List.map_cons, htold, RawSample.told, hkept]

/-- Entries whose instants are kept are read as they are. -/
theorem mapM_read (h : ∀ e ∈ entries, e.Kept offset) :
    ∃ out, entries.mapM (Entry.read offset) = some out ∧
      out.flatten.map RawSample.told = entries.flatMap Entry.samples := by
  induction entries with
  | nil => exact ⟨[], rfl, rfl⟩
  | cons e entries ih =>
    obtain ⟨samples, hsamples, htold⟩ := mapM_sampleAt e.labels (h e (.head _))
    obtain ⟨out, hout, hrest⟩ := ih fun e' he => h e' (.tail _ he)
    refine ⟨samples :: out, ?_, ?_⟩
    · rw [List.mapM_cons, Entry.read, hsamples, hout]
      rfl
    · rw [List.flatten_cons, List.map_append, htold, hrest, List.flatMap_cons, samples_eq]

/-- As the timeline's instants are whole milliseconds, no sample with another one is in it. -/
theorem kept_of_told {samples : List (List RawSample)}
    (hread : entries.mapM (Entry.read offset) = some samples)
    (htold : ∀ s ∈ samples.flatten, s.told ∈ timeline entries) (he : e ∈ entries) :
    e.Kept offset := by
  intro p hp
  obtain ⟨out, hout, hread⟩ := exists_of_mapM hread he
  obtain ⟨s, hs, hat⟩ := exists_of_mapM hread hp
  obtain ⟨t, ht, rfl⟩ := Option.map_eq_some_iff.mp hat
  -- less than half a millisecond off, a whole millisecond is the one it was
  refine ⟨t, ht, Calendar.fromTimestamp_exact_of_dvd ht ?_⟩
  have hmem := htold _ (List.mem_flatten.mpr ⟨out, hout, hs⟩)
  rw [timeline, List.mem_insertionSort] at hmem
  obtain ⟨e', -, hmem⟩ := List.mem_flatMap.mp hmem
  rw [samples_eq] at hmem
  obtain ⟨q, -, hq⟩ := List.mem_map.mp hmem
  exact ⟨q.1, (congrArg Prod.fst hq).symm⟩

/-- **The export reads back exactly** where no label breaks a line and every instant is kept. -/
theorem jsonl_exact_iff : JsonlExact style offset entries ↔
    (∀ e ∈ entries, e.Clean) ∧ ∀ e ∈ entries, e.Kept offset := by
  constructor
  · rintro ⟨out, hout, htold⟩
    have hclean : ∀ e ∈ entries, e.Clean := by
      intro e he
      by_contra h
      rw [jsonlSamples_of_break he h] at hout
      cases hout
    refine ⟨hclean, ?_⟩
    rw [jsonlSamples_of_clean hclean] at hout
    obtain ⟨samples, hsamples, rfl⟩ := Option.map_eq_some_iff.mp hout
    intro e he
    refine kept_of_told hsamples (fun s hs => ?_) he
    rw [← htold]
    exact List.mem_map_of_mem ((List.mem_insertionSort _).mpr hs)
  · -- sorting by the instant and telling the samples can be done in either order
    rintro ⟨hclean, hkept⟩
    obtain ⟨samples, hsamples, htold⟩ := mapM_read hkept
    refine ⟨_, by rw [jsonlSamples_of_clean hclean, hsamples, Option.map_some], ?_⟩
    rw [timeline, ← htold]
    exact List.map_insertionSort _ _ _ _ fun a _ b _ => told_le_iff a b

end BellasReef.Api.Export
