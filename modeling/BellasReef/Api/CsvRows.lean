import BellasReef.Api.Export
import BellasReef.Support.Csv

/-!
# API — CSV rows

`csv_rows` and `_rfc3339_ms` (`history.py`): the export as a file, drained from its buffer a
thousand rows at a time.

* `flatten_csvRows`: the chunks are the header and one row for each sample, whatever the number of
  samples is.
* `rfc3339Ms_lt_iff`: the timestamps sort as text as the milliseconds do.
* `csv_exact_iff`: and the file is read back unless a field is longer than what `csv` reads.
* `export_iff`: so the export loses and invents nothing if and only if no label has a line break in
  it, every instant comes out of a double of seconds as it went in, and no field is too long.
-/

namespace BellasReef.Api.Export
open BellasReef.Support
open BellasReef.Support.Calendar (Instant pad fields Fits yearOf monthOf dayOf)

/-! ### The file -/

/-- `CSV_HEADER`. -/
def csvHeader : List Text :=
  [['t', 'i', 'm', 'e', 's', 't', 'a', 'm', 'p'], deviceIdLabel, metricKey,
    ['v', 'a', 'l', 'u', 'e'], ['q', 'u', 'a', 'l', 'i', 't', 'y']]

/-- `CSV_CHUNK_ROWS`. -/
def csvChunkRows : ℕ := 1000

/-- `"quality"`. -/
def qualityLabel : Text := ['q', 'u', 'a', 'l', 'i', 't', 'y']

/-- `labels.get("quality", "")`. -/
def quality (labels : Labels) : Text := (labels.lookup qualityLabel).getD []

/-- `_rfc3339_ms`. -/
def rfc3339Ms (t : Instant) : Text :=
  pad 4 (yearOf t.date) ++ '-' :: (pad 2 (monthOf t.date) ++ '-' :: (pad 2 (dayOf t.date) ++
    'T' :: (pad 2 t.hour ++ ':' :: (pad 2 t.minute ++ ':' :: (pad 2 t.second ++
      '.' :: (pad 3 (t.microsecond / 1000) ++ ['Z']))))))

variable (deviceId metric : Text)

/-- The row of a sample. -/
def row (s : RawSample) : List Text :=
  [rfc3339Ms s.at, deviceId, metric, DecimalText.repr s.value.negZero s.value.value s.value.isDouble,
    quality s.labels]

/-- The loop, with what is in the buffer and how many rows are pending; the buffer's remainder comes
last. -/
def drainFrom : Text → ℕ → List RawSample → List Text
  | buffer, _, [] => if buffer = [] then [] else [buffer]
  | buffer, pending, s :: samples =>
      let buffer := buffer ++ Csv.writeRow (row deviceId metric s)
      if csvChunkRows ≤ pending + 1 then buffer :: drainFrom [] 0 samples
      else drainFrom buffer (pending + 1) samples

/-- `csv_rows`: the chunks that it yields. -/
def csvRows (samples : List RawSample) : List Text :=
  drainFrom deviceId metric (Csv.writeRow csvHeader) 0 samples

/-- The default of `csv.field_size_limit`. -/
def fieldLimit : ℕ := 131072

/-! ### What is to be read off it -/

/-- The fields of a sample's row, whose value reads as the sample's, and a zero with its sign. -/
def Records (s : RawSample) (fields : List Text) : Prop :=
  ∃ value, fields = [rfc3339Ms s.at, deviceId, metric, value, quality s.labels] ∧
    (DecimalText.float value).bind (finite? (DecimalText.minus value)) = some s.value

/-- **The file is exact**: its chunks are the header and a row for each sample in order, they are
read back with each sample's value and quality, and the timestamps sort as text in time order. -/
structure CsvExact (samples : List RawSample) : Prop where
  written : (csvRows deviceId metric samples).flatten =
    (csvHeader :: samples.map (row deviceId metric)).flatMap Csv.writeRow
  readBack : ∃ rows, Csv.read fieldLimit (csvRows deviceId metric samples).flatten =
    some (csvHeader :: rows) ∧ List.Forall₂ (Records deviceId metric) samples rows
  sorted : ∀ a ∈ samples, ∀ b ∈ samples, rfc3339Ms a.at < rfc3339Ms b.at ↔ a.at.millis < b.at.millis

variable {deviceId metric} {samples : List RawSample} {t u : Instant}

/-! ### Chunks -/

/-- To drain the buffer in pieces loses nothing of it. -/
theorem flatten_drainFrom (buffer : Text) (pending : ℕ) (samples : List RawSample) :
    (drainFrom deviceId metric buffer pending samples).flatten =
      buffer ++ (samples.map (row deviceId metric)).flatMap Csv.writeRow := by
  induction samples generalizing buffer pending with
  | nil =>
    rw [drainFrom]
    split_ifs with h
    · simp [h]
    · simp
  | cons s samples ih =>
    rw [drainFrom]
    split_ifs
    · rw [List.flatten_cons, ih]
      simp
    · rw [ih]
      simp

/-- What is sent is the header and a row for each sample. -/
theorem flatten_csvRows (samples : List RawSample) : (csvRows deviceId metric samples).flatten =
    (csvHeader :: samples.map (row deviceId metric)).flatMap Csv.writeRow := by
  rw [csvRows, flatten_drainFrom, List.flatMap_cons]

/-! ### Timestamps -/

/-- `%Y-%m-%dT%H:%M:%S.%f` in milliseconds: digits, and what follows them. -/
def stampLayout : List (ℕ × Char) :=
  [(4, '-'), (2, '-'), (2, 'T'), (2, ':'), (2, ':'), (2, '.'), (3, 'Z')]

/-- The numbers that a timestamp writes. -/
def stampNumbers (t : Instant) : List ℕ :=
  [yearOf t.date, monthOf t.date, dayOf t.date, t.hour, t.minute, t.second, t.microsecond / 1000]

/-- A timestamp is its numbers in their layout. -/
theorem rfc3339Ms_eq_fields (t : Instant) : rfc3339Ms t = fields stampLayout (stampNumbers t) := rfl

theorem stampNumbers_fit (t : Instant) : Fits stampLayout (stampNumbers t) := by
  have hdate : t.date < Calendar.days := Nat.div_lt_of_lt_mul (by
    rw [Nat.mul_comm]
    exact t.valid)
  have hyear := Calendar.year_le t.date
  have hmonth := Calendar.month_le t.date
  have hday := Calendar.day_le hdate
  have hhour : t.hour < 24 := Nat.mod_lt _ (by decide)
  have hminute : t.minute < 60 := Nat.mod_lt _ (by decide)
  have hsecond : t.second < 60 := Nat.mod_lt _ (by decide)
  have hmicrosecond : t.microsecond < 1000000 := Nat.mod_lt _ (by decide)
  simp only [Fits, stampLayout, stampNumbers, List.forall₂_cons]
  exact ⟨by omega, by omega, by omega, by omega, by omega, by omega, by omega, .nil⟩

/-- An earlier millisecond has smaller numbers. -/
theorem stampNumbers_lt (h : t.millis < u.millis) : stampNumbers t < stampNumbers u := by
  have hle : t.date ≤ u.date := by
    simp only [Instant.millis, Instant.date, Calendar.dayMicros] at *
    omega
  obtain hlt | hdate := hle.lt_or_eq
  · -- the first field that differs decides, be it of the date
    obtain h | ⟨hyear, h | ⟨hmonth, h⟩⟩ := Calendar.date_lt hlt
    · exact .rel h
    · rw [stampNumbers, hyear]
      exact .cons (.rel h)
    · rw [stampNumbers, hyear, hmonth]
      exact .cons (.cons (.rel h))
  · -- or of the time of day
    rw [stampNumbers, hdate]
    refine .cons (.cons (.cons ?_))
    obtain h | ⟨hhour, h | ⟨hminute, h | ⟨hsecond, h⟩⟩⟩ := Calendar.time_lt hdate h
    · exact .rel h
    · rw [hhour]
      exact .cons (.rel h)
    · rw [hhour, hminute]
      exact .cons (.cons (.rel h))
    · rw [hhour, hminute, hsecond]
      exact .cons (.cons (.cons (.rel h)))

/-- The numbers are of the millisecond. -/
theorem stampNumbers_eq (h : t.millis = u.millis) : stampNumbers t = stampNumbers u := by
  simp only [Instant.millis] at h
  have hdate : t.date = u.date := by
    simp only [Instant.date, Calendar.dayMicros]
    omega
  have htime : t.hour = u.hour ∧ t.minute = u.minute ∧ t.second = u.second ∧
      t.microsecond / 1000 = u.microsecond / 1000 := by
    simp only [Instant.hour, Instant.minute, Instant.second, Instant.microsecond]
    omega
  rw [stampNumbers, stampNumbers, hdate, htime.1, htime.2.1, htime.2.2.1, htime.2.2.2]

/-- Timestamps are ordered as texts as they are in time. -/
theorem rfc3339Ms_lt_iff : rfc3339Ms t < rfc3339Ms u ↔ t.millis < u.millis := by
  have hlt : ∀ {t u : Instant}, t.millis < u.millis → rfc3339Ms t < rfc3339Ms u := fun h =>
    Calendar.fields_lt (stampNumbers_fit _) (stampNumbers_fit _) (stampNumbers_lt h)
  refine ⟨fun h => ?_, hlt⟩
  obtain hlt' | heq | hgt := lt_trichotomy (t.millis) (u.millis)
  · exact hlt'
  · rw [rfc3339Ms_eq_fields, rfc3339Ms_eq_fields, stampNumbers_eq heq] at h
    exact absurd h (List.lt_irrefl _)
  · exact absurd h (List.lt_asymm (hlt hgt))

example : (Instant.ofSinceEpoch 1788466504123456).map rfc3339Ms =
    some "2026-09-03T20:15:04.123Z".toList := by
  decide +kernel

theorem length_rfc3339Ms (t : Instant) : (rfc3339Ms t).length = 24 := by
  simp [rfc3339Ms, Calendar.length_pad]

/-! ### The file is read back -/

/-- The fields of a file that may be long. -/
def FieldsFit (deviceId metric : Text) (samples : List RawSample) : Prop :=
  ∀ s ∈ samples, deviceId.length ≤ fieldLimit ∧ metric.length ≤ fieldLimit ∧
    (quality s.labels).length ≤ fieldLimit

/-- The fields of a row are short where the three that vary are. -/
theorem row_fits_iff {s : RawSample} : (∀ f ∈ row deviceId metric s, f.length ≤ fieldLimit) ↔
    deviceId.length ≤ fieldLimit ∧ metric.length ≤ fieldLimit ∧
      (quality s.labels).length ≤ fieldLimit := by
  have hstamp := length_rfc3339Ms s.at
  have hvalue : (DecimalText.repr s.value.negZero s.value.value s.value.isDouble).length ≤ 10000 :=
    DecimalText.length_repr_le s.value.isDouble
  simp only [row, List.forall_mem_cons, List.not_mem_nil, false_imp_iff, implies_true, and_true,
    fieldLimit]
  omega

theorem header_fits : ∀ f ∈ csvHeader, f.length ≤ fieldLimit := by
  decide

/-- The value of a row is read back. -/
theorem Finite.read_repr (v : Finite) :
    (DecimalText.float (DecimalText.repr v.negZero v.value v.isDouble)).bind
      (finite? (DecimalText.minus (DecimalText.repr v.negZero v.value v.isDouble))) = some v := by
  obtain ⟨q, hq, negZero, hzero⟩ := v
  rw [DecimalText.float_repr, Option.bind_some]
  by_cases h : q = 0
  · subst h
    simp [finite?, DecimalText.minus_repr]
  · have hneg : negZero = false := Bool.eq_false_iff.mpr fun hn => h (hzero hn)
    simp [finite?, h, hneg]

/-- A row says what its sample says. -/
theorem row_records (s : RawSample) : Records deviceId metric s (row deviceId metric s) :=
  ⟨_, rfl, s.value.read_repr⟩

/-- **The export reads back exactly** where no field is too long for the reader. -/
theorem csv_exact_iff : CsvExact deviceId metric samples ↔ FieldsFit deviceId metric samples := by
  have hrows : List.Forall₂ (Records deviceId metric) samples
      (samples.map (row deviceId metric)) := by
    rw [List.forall₂_map_right_iff, List.forall₂_same]
    exact fun s _ => row_records s
  constructor
  · rintro ⟨-, ⟨rows, hread, hrecords⟩, -⟩ s hs
    -- a row that was read has no field longer than the limit
    obtain ⟨fields, hmem, value, rfl, -⟩ := exists_of_forall₂ hrecords hs
    have hlen := Csv.length_le_of_read hread _ (.tail _ hmem)
    exact ⟨hlen _ (by simp), hlen _ (by simp), hlen _ (by simp)⟩
  · intro hfit
    refine ⟨flatten_csvRows samples, ⟨samples.map (row deviceId metric), ?_, hrows⟩,
      fun a _ b _ => rfc3339Ms_lt_iff⟩
    rw [flatten_csvRows, Csv.read_write_iff]
    rintro _ (_ | ⟨_, hmem⟩)
    · exact header_fits
    · obtain ⟨s, hs, rfl⟩ := List.mem_map.mp hmem
      exact row_fits_iff.mpr (hfit s hs)

/-- **The export loses and invents nothing** if and only if no label has a line break in it that
JSON does not escape, every finite sample's instant comes out of a double of seconds as it went
in, and no field is longer than what `csv` reads. -/
theorem export_iff (style : JsonText.Style) (offset : ℤ) (entries : List Entry)
    (deviceId metric : Text) (samples : List RawSample) :
    JsonlExact style offset entries ∧ CsvExact deviceId metric samples ↔
      ((∀ e ∈ entries, e.Clean) ∧ ∀ e ∈ entries, e.Kept offset) ∧
        FieldsFit deviceId metric samples := by
  rw [jsonl_exact_iff, csv_exact_iff]

/-! ### A label with a line separator in it -/

/-- A style that escapes what JSON makes it escape, and nothing else. -/
def plainStyle : JsonText.Style := ⟨fun _ => true, fun _ => false⟩

/-- 24.5. -/
def warm : Finite where
  value := 49 / 2
  isDouble := ⟨49, -1, by decide, by decide, by decide, by norm_num⟩
  negZero := false
  zero_of_negZero := by decide

theorem writes_warm : Writes ['2', '4', '.', '5'] warm where
  valid := by decide
  chars := by decide
  reads := by decide +kernel

/-- An entry with a line separator in a label. -/
def splitEntry : Entry where
  metric := [(qualityLabel, ['a', '\u2028', 'b'])]
  distinct := by decide
  points := [(1788466504123, .number ['2', '4', '.', '5'] warm writes_warm)]

/-- Its line is split where no line ends, and the export raises. -/
theorem not_export : ¬(JsonlExact plainStyle 0 [splitEntry] ∧ CsvExact [] [] []) := by
  rintro ⟨⟨out, hout, -⟩, -⟩
  have hnone : (jsonlSamples 0 (exportBody plainStyle [splitEntry])).isNone = true := by
    decide +kernel
  rw [hout] at hnone
  cases hnone

end BellasReef.Api.Export
