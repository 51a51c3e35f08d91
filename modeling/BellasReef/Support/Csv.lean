import BellasReef.Support.JsonText

/-!
# Support — CSV text

Python's `csv` in its default dialect, but for lines that end in a line feed: commas, and quotes
around the fields that need them, doubled within.

The reader takes one character at a time and an end of line after every line feed, as it is handed
line after line of a text; it refuses a field of more characters than its limit.

* `feed_writeField`, `feed_writeRow`: what the reader does over one field and over one row.
* `read_write_iff`: rows are read back as they were written if and only if no field is too long.
-/

namespace BellasReef.Support.Csv

/-! ### Writing -/

/-- The writer quotes the field. -/
def needsQuotes (f : Text) : Bool := f.any fun c => c = ',' || c = '"' || c = '\n' || c = '\r'

/-- A quote is written twice. -/
def doubled (c : Char) : Text := if c = '"' then ['"', '"'] else [c]

/-- A field, as the writer writes it. -/
def writeField (f : Text) : Text :=
  if needsQuotes f then '"' :: f.flatMap doubled ++ ['"'] else f

/-- Fields with commas between them, and the line feed after them. -/
def joinFields : List Text → Text
  | [] => ['\n']
  | [f] => writeField f ++ ['\n']
  | f :: fs => writeField f ++ ',' :: joinFields fs

/-- `writerow`: one empty field on its own is quoted, so that it is no empty row. -/
def writeRow : List Text → Text
  | [[]] => ['"', '"', '\n']
  | fs => joinFields fs

/-! ### Reading -/

/-- Where a reader is in a record. -/
inductive Mode where
  | startRecord
  | startField
  | inField
  | inQuotedField
  | quoteInQuotedField
  | eatCrnl
  deriving DecidableEq

/-- The field, the fields and the rows that are read already, each from its end. -/
structure Reader where
  mode : Mode
  field : Text
  fields : List Text
  rows : List (List Text)

namespace Reader

/-- One more character of the field, if it is not too long. -/
def addChar (limit : ℕ) (r : Reader) (mode : Mode) (c : Char) : Option Reader :=
  if r.field.length < limit then some { r with mode := mode, field := c :: r.field } else none

/-- The field is complete. -/
def saveField (r : Reader) (mode : Mode) : Reader :=
  { r with mode := mode, field := [], fields := r.field.reverse :: r.fields }

/-- The record is complete. -/
def emit (r : Reader) : Reader := ⟨.startRecord, [], [], r.fields.reverse :: r.rows⟩

/-- The start of a field. -/
def startField (limit : ℕ) (r : Reader) (c : Char) : Option Reader :=
  if c = '\n' ∨ c = '\r' then some (r.saveField .eatCrnl)
  else if c = '"' then some { r with mode := .inQuotedField }
  else if c = ',' then some (r.saveField .startField)
  else r.addChar limit .inField c

/-- `parse_process_char`; `none` where it raises. -/
def step (limit : ℕ) (r : Reader) (c : Char) : Option Reader :=
  match r.mode with
  | .startRecord =>
      if c = '\n' ∨ c = '\r' then some { r with mode := .eatCrnl } else r.startField limit c
  | .startField => r.startField limit c
  | .inField =>
      if c = '\n' ∨ c = '\r' then some (r.saveField .eatCrnl)
      else if c = ',' then some (r.saveField .startField)
      else r.addChar limit .inField c
  | .inQuotedField =>
      if c = '"' then some { r with mode := .quoteInQuotedField }
      else r.addChar limit .inQuotedField c
  | .quoteInQuotedField =>
      if c = '"' then r.addChar limit .inQuotedField c
      else if c = ',' then some (r.saveField .startField)
      else if c = '\n' ∨ c = '\r' then some (r.saveField .eatCrnl)
      else r.addChar limit .inField c
  | .eatCrnl => if c = '\n' ∨ c = '\r' then some r else none

/-- The end of a line, after which a row is complete unless a quoted field goes on. -/
def endLine (r : Reader) : Reader :=
  match r.mode with
  | .startRecord | .eatCrnl => r.emit
  | .startField | .inField | .quoteInQuotedField => (r.saveField .startRecord).emit
  | .inQuotedField => r

/-- The reader over a text, line by line. -/
def feed (limit : ℕ) : Reader → Text → Option Reader
  | r, [] => some r
  | r, c :: s => do
      let r ← r.step limit c
      feed limit (if c = '\n' then r.endLine else r) s

/-- The end of the text: of a line without a line feed, or in a quoted field. -/
def finish (r : Reader) : List (List Text) :=
  let r := if r.mode = .startRecord then r else r.endLine
  (if r.mode = .startRecord then r else (r.saveField .startRecord).emit).rows.reverse

end Reader

/-- The rows of `csv.reader`, over a text's lines; `none` where it raises. -/
def read (limit : ℕ) (s : Text) : Option (List (List Text)) :=
  (Reader.feed limit ⟨.startRecord, [], [], []⟩ s).map Reader.finish

/-! ### A field is read back -/

namespace Reader

variable {limit : ℕ} {r : Reader} {c : Char} {f acc s : Text} {fs : List Text}
  {rows : List (List Text)}

theorem feed_cons (c : Char) (s : Text) : feed limit r (c :: s) =
    (r.step limit c).bind fun r => feed limit (if c = '\n' then r.endLine else r) s := rfl

theorem feed_plain (h : needsQuotes f = false) (hlen : acc.length + f.length ≤ limit) (s : Text) :
    feed limit ⟨.inField, acc, fs, rows⟩ (f ++ s) =
      feed limit ⟨.inField, f.reverse ++ acc, fs, rows⟩ s := by
  induction f generalizing acc with
  | nil => rfl
  | cons c f ih =>
    obtain ⟨hc, hf⟩ : (c ≠ ',' ∧ c ≠ '"' ∧ c ≠ '\n' ∧ c ≠ '\r') ∧ needsQuotes f = false := by
      simpa [needsQuotes, and_assoc] using h
    have hlt : acc.length < limit := by simp at hlen; omega
    rw [List.cons_append, feed_cons]
    simp only [step, hc, or_self, if_false, addChar, hlt, if_true, Option.bind_some]
    rw [ih hf (by simp at hlen ⊢; omega)]
    simp

theorem feed_quoted (hlen : acc.length + f.length ≤ limit) (s : Text) :
    feed limit ⟨.inQuotedField, acc, fs, rows⟩ (f.flatMap doubled ++ s) =
      feed limit ⟨.inQuotedField, f.reverse ++ acc, fs, rows⟩ s := by
  induction f generalizing acc with
  | nil => rfl
  | cons c f ih =>
    have hlt : acc.length < limit := by simp at hlen; omega
    have hc : feed limit ⟨.inQuotedField, acc, fs, rows⟩ (doubled c ++ (f.flatMap doubled ++ s)) =
        feed limit ⟨.inQuotedField, c :: acc, fs, rows⟩ (f.flatMap doubled ++ s) := by
      by_cases hq : c = '"'
      · subst hq
        simp [doubled, feed_cons, step, addChar, hlt]
      -- an end of line does nothing within quotes
      · simp [doubled, hq, feed_cons, step, addChar, hlt, endLine]
    rw [List.flatMap_cons, List.append_assoc, hc, ih (by simp at hlen ⊢; omega)]
    simp

/-- What follows a field: the next one, or the end of the row. -/
def afterField (d : Char) (fs : List Text) (rows : List (List Text)) : Reader :=
  if d = ',' then ⟨.startField, [], fs, rows⟩ else ⟨.startRecord, [], [], fs.reverse :: rows⟩

theorem feed_writeField {mode : Mode} {d : Char} (hmode : mode = .startRecord ∨ mode = .startField)
    (hfirst : mode = .startRecord → f ≠ [] ∨ d = ',') (hd : d = ',' ∨ d = '\n')
    (hlen : f.length ≤ limit) (s : Text) :
    feed limit ⟨mode, [], fs, rows⟩ (writeField f ++ d :: s) =
      feed limit (afterField d (f :: fs) rows) s := by
  -- but for an empty row, a row's first field is read as any other
  have hstart : ∀ c, (mode = .startRecord → c ≠ '\n' ∧ c ≠ '\r') →
      step limit ⟨mode, [], fs, rows⟩ c = startField limit ⟨mode, [], fs, rows⟩ c := by
    intro c hc
    obtain rfl | rfl := hmode
    · simp [step, hc rfl]
    · rfl
  rw [writeField]
  split_ifs with hq
  · -- quoted: the quote opens the field, and what closes it is before `d`
    have hopen : feed limit ⟨mode, [], fs, rows⟩ ('"' :: (f.flatMap doubled ++ '"' :: d :: s)) =
        feed limit ⟨.inQuotedField, [], fs, rows⟩ (f.flatMap doubled ++ '"' :: d :: s) := by
      rw [feed_cons, hstart _ fun _ => by decide]
      rfl
    simp only [List.append_assoc, List.cons_append, List.nil_append]
    rw [hopen, feed_quoted (by simpa using hlen)]
    obtain rfl | rfl := hd <;>
      simp [feed_cons, step, saveField, afterField, endLine, emit]
  · rw [Bool.not_eq_true] at hq
    cases f with
    | nil =>
      -- empty: `d` ends the field at once
      have hd' : mode = .startRecord → d ≠ '\n' ∧ d ≠ '\r' := by
        intro hm
        obtain rfl : d = ',' := by simpa using hfirst hm
        decide
      rw [List.nil_append, feed_cons, hstart _ hd']
      obtain rfl | rfl := hd <;>
        simp [startField, saveField, afterField, endLine, emit]
    | cons c f =>
      -- plain: none of its characters means anything to the reader
      obtain ⟨hc, hf⟩ : (c ≠ ',' ∧ c ≠ '"' ∧ c ≠ '\n' ∧ c ≠ '\r') ∧ needsQuotes f = false := by
        simpa [needsQuotes, and_assoc] using hq
      have hlimit : 0 < limit := by simp at hlen; omega
      have hfirst : feed limit ⟨mode, [], fs, rows⟩ (c :: (f ++ d :: s)) =
          feed limit ⟨.inField, [c], fs, rows⟩ (f ++ d :: s) := by
        rw [feed_cons, hstart _ fun _ => hc.2.2]
        simp [startField, hc, addChar, hlimit]
      rw [List.cons_append, hfirst, feed_plain hf (by simp at hlen ⊢; omega)]
      obtain rfl | rfl := hd <;>
        simp [feed_cons, step, saveField, afterField, endLine, emit]

theorem feed_joinFields {row : List Text} (hne : row ≠ []) (hlen : ∀ f ∈ row, f.length ≤ limit)
    (s : Text) : feed limit ⟨.startField, [], fs, rows⟩ (joinFields row ++ s) =
      feed limit ⟨.startRecord, [], [], (row.reverse ++ fs).reverse :: rows⟩ s := by
  induction row generalizing fs with
  | nil => exact absurd rfl hne
  | cons f row ih =>
    have hf := hlen f (.head _)
    cases row with
    | nil =>
      rw [joinFields, List.append_assoc, List.singleton_append,
        feed_writeField (.inr rfl) (by simp) (.inr rfl) hf]
      rfl
    | cons g row =>
      rw [joinFields, List.append_assoc, List.cons_append,
        feed_writeField (.inr rfl) (by simp) (.inl rfl) hf]
      · simp [afterField, ih (List.cons_ne_nil _ _) fun x hx => hlen x (.tail _ hx)]
      · exact List.cons_ne_nil _ _

theorem feed_writeRow {row : List Text} (hlen : ∀ f ∈ row, f.length ≤ limit) (s : Text) :
    feed limit ⟨.startRecord, [], [], rows⟩ (writeRow row ++ s) =
      feed limit ⟨.startRecord, [], [], row :: rows⟩ s := by
  match row, hlen with
  | [], _ => rfl
  | [[]], _ => rfl
  | [c :: f], hlen =>
    rw [writeRow, joinFields, List.append_assoc, List.singleton_append,
      feed_writeField (.inl rfl) (by simp) (.inr rfl) (hlen _ (.head _))]
    · rfl
    · simp
  | f :: g :: row, hlen =>
    rw [writeRow, joinFields, List.append_assoc, List.cons_append,
      feed_writeField (.inl rfl) (by simp) (.inl rfl) (hlen _ (.head _))]
    · simp [afterField, feed_joinFields (List.cons_ne_nil _ _) fun x hx => hlen x (.tail _ hx)]
    · exact List.cons_ne_nil _ _
    · simp

theorem feed_writeRows {new : List (List Text)} (hlen : ∀ row ∈ new, ∀ f ∈ row, f.length ≤ limit) :
    feed limit ⟨.startRecord, [], [], rows⟩ (new.flatMap writeRow) =
      some ⟨.startRecord, [], [], new.reverse ++ rows⟩ := by
  induction new generalizing rows with
  | nil => rfl
  | cons row new ih =>
    rw [List.flatMap_cons, feed_writeRow (hlen _ (.head _)), ih fun r hr => hlen r (.tail _ hr)]
    simp

/-! ### No field is too long -/

/-- What is read already is no longer than the limit. -/
structure Bounded (limit : ℕ) (r : Reader) : Prop where
  field : r.field.length ≤ limit
  fields : ∀ f ∈ r.fields, f.length ≤ limit
  rows : ∀ row ∈ r.rows, ∀ f ∈ row, f.length ≤ limit

theorem Bounded.saveField (h : Bounded limit r) (mode : Mode) :
    Bounded limit (r.saveField mode) where
  field := Nat.zero_le _
  fields := by
    rintro f (_ | ⟨_, hf⟩)
    · simpa using h.field
    · exact h.fields f hf
  rows := h.rows

theorem Bounded.emit (h : Bounded limit r) : Bounded limit r.emit where
  field := Nat.zero_le _
  fields := by simp [Reader.emit]
  rows := by
    rintro row (_ | ⟨_, hrow⟩) f hf
    · exact h.fields f (by simpa using hf)
    · exact h.rows row hrow f hf

theorem Bounded.addChar {r' : Reader} {mode : Mode} (h : Bounded limit r)
    (hr : r.addChar limit mode c = some r') : Bounded limit r' := by
  obtain ⟨hlt, hr⟩ := Option.ite_none_right_eq_some.mp hr
  obtain rfl := Option.some.inj hr
  exact ⟨hlt, h.fields, h.rows⟩

theorem Bounded.startField {r' : Reader} (h : Bounded limit r)
    (hr : r.startField limit c = some r') : Bounded limit r' := by
  unfold Reader.startField at hr
  split_ifs at hr
  · exact Option.some.inj hr ▸ h.saveField _
  · exact Option.some.inj hr ▸ ⟨h.field, h.fields, h.rows⟩
  · exact Option.some.inj hr ▸ h.saveField _
  · exact h.addChar hr

theorem Bounded.step {r' : Reader} (h : Bounded limit r) (hr : r.step limit c = some r') :
    Bounded limit r' := by
  have hmode : ∀ mode, Bounded limit { r with mode := mode } :=
    fun _ => ⟨h.field, h.fields, h.rows⟩
  unfold Reader.step at hr
  -- by the mode: only the first two read a character as the start of a field
  split at hr
  · split_ifs at hr
    · exact Option.some.inj hr ▸ hmode _
    · exact h.startField hr
  · exact h.startField hr
  all_goals
    split_ifs at hr
    all_goals
      first
        | exact h.addChar hr
        | exact Option.some.inj hr ▸ h
        | exact Option.some.inj hr ▸ hmode _
        | exact Option.some.inj hr ▸ h.saveField _

theorem Bounded.endLine (h : Bounded limit r) : Bounded limit r.endLine := by
  unfold Reader.endLine
  split
  · exact h.emit
  · exact h.emit
  all_goals first | exact (h.saveField _).emit | exact h

theorem Bounded.feed {r' : Reader} (h : Bounded limit r) (hr : r.feed limit s = some r') :
    Bounded limit r' := by
  induction s generalizing r with
  | nil => exact Option.some.inj hr ▸ h
  | cons c s ih =>
    obtain ⟨q, hq, hr⟩ := Option.bind_eq_some_iff.mp hr
    have hq := h.step hq
    refine ih ?_ hr
    split_ifs
    · exact hq.endLine
    · exact hq

end Reader

/-- What is read has no field that is too long. -/
theorem length_le_of_read {limit : ℕ} {s : Text} {rows : List (List Text)}
    (h : read limit s = some rows) : ∀ row ∈ rows, ∀ f ∈ row, f.length ≤ limit := by
  obtain ⟨r, hr, rfl⟩ := Option.map_eq_some_iff.mp h
  have hr : r.Bounded limit := Reader.Bounded.feed ⟨Nat.zero_le _, by simp, by simp⟩ hr
  have hfinish : ∀ r : Reader, r.Bounded limit → (if r.mode = .startRecord then r
      else (r.saveField .startRecord).emit).Bounded limit := by
    intro r hr
    split_ifs
    · exact hr
    · exact (hr.saveField _).emit
  intro row hrow f hf
  refine (hfinish (if r.mode = .startRecord then r else r.endLine) ?_).rows row
    (List.mem_reverse.mp hrow) f hf
  split_ifs
  · exact hr
  · exact hr.endLine

theorem read_write_iff {limit : ℕ} {rows : List (List Text)} :
    read limit (rows.flatMap writeRow) = some rows ↔
      ∀ row ∈ rows, ∀ f ∈ row, f.length ≤ limit := by
  constructor
  · exact length_le_of_read
  · intro hlen
    rw [read, Reader.feed_writeRows hlen]
    simp [Reader.finish]

end BellasReef.Support.Csv
