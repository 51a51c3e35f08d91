import BellasReef.Support.Except
import BellasReef.Support.Json

/-!
# Api — Backup

`backup.py`: `write_archive`, `open_archive` with its two members, and `restore_backup`.

The gzip and tar readers are a `Tarfile`, JSON and the manifest's validation a `Codec`.  What a
reader raises is a `ReadError`, and `open_archive` catches four of its six kinds:
`restore_refuses_iff` says of which archives it raises nothing but `RestoreRefusedError`
(`Spared`), and what is so of every archive.
-/

namespace BellasReef.Api.Backup
open BellasReef.Support

/-! ### What reads an archive -/

/-- What the gzip and tar readers raise. -/
inductive ReadErrorKind where
  | tarError
  | badGzipFile
  | eofError
  | osError
  | zlibError
  | keyError
  deriving DecidableEq

/-- An exception of the gzip or the tar reader, and its text. -/
structure ReadError where
  kind : ReadErrorKind
  text : String
  deriving DecidableEq

/-- `except (tarfile.TarError, gzip.BadGzipFile, EOFError, OSError)`. -/
def ReadError.caught (e : ReadError) : Bool :=
  match e.kind with
  | .zlibError | .keyError => false
  | _ => true

/-- An open member: what its reads of at most `_CHUNK` bytes give, one after another. -/
inductive Stream where
  | eof
  | raises (e : ReadError)
  | chunk (byte : UInt8) (bytes : Bytes) (rest : Stream)

/-- `handle.read()`. -/
def Stream.read : Stream → Except ReadError Bytes
  | .eof => .ok []
  | .raises e => .error e
  | .chunk b bs rest => rest.read.map (b :: bs ++ ·)

/-- A file of these bytes, where all of them can be read. -/
def Stream.ofBytes : Bytes → Stream
  | [] => .eof
  | b :: bs => .chunk b bs .eof

/-- A file of given bytes reads as them. -/
theorem read_ofBytes (data : Bytes) : (Stream.ofBytes data).read = .ok data := by
  cases data <;> simp [Stream.ofBytes, Stream.read, Except.map]

/-- The two members of an archive, in the order in which `write_archive` adds them. -/
def manifestName : String := "manifest.json"
def dumpName : String := "postgres.dump"

/-- `tarfile`, over the contents of a file. -/
structure Tarfile where
  Content : Type
  Tar : Type
  Member : Type
  /-- `tarfile.open(archive, "r:gz")`. -/
  opened : Content → Except ReadError Tar
  /-- A name that the archive does not have is a `KeyError`. -/
  getmember : Tar → String → Except ReadError Member
  /-- Nothing for a member that is neither a file nor a link. -/
  extractfile : Tar → Member → Except ReadError (Option Stream)
  /-- What `tarfile.open(fileobj=handle, mode="w:gz")` makes of members added in this order. -/
  packed : List (String × Bytes) → Content

namespace Tarfile

variable (lib : Tarfile)

/-- The archive has a file of this name, and reading it to its end gives `data`. -/
def Holds (tar : lib.Tar) (name : String) (data : Bytes) : Prop :=
  ∃ member stream, lib.getmember tar name = .ok member ∧
    lib.extractfile tar member = .ok (some stream) ∧ stream.read = .ok data

/-- Looking the name up, opening the member or reading it raises `e`. -/
def Raises (tar : lib.Tar) (name : String) (e : ReadError) : Prop :=
  (lib.getmember tar name = .error e ∧ e.kind ≠ .keyError) ∨
    ∃ member, lib.getmember tar name = .ok member ∧
      (lib.extractfile tar member = .error e ∨
        ∃ stream, lib.extractfile tar member = .ok (some stream) ∧ stream.read = .error e)

variable {lib} in
/-- A member has one content. -/
theorem Holds.unique {tar : lib.Tar} {name : String} {d d' : Bytes} (h : lib.Holds tar name d)
    (h' : lib.Holds tar name d') : d = d' := by
  obtain ⟨member, s, hm, hx, hr⟩ := h
  obtain ⟨member', s', hm', hx', hr'⟩ := h'
  obtain rfl : member = member' := Except.ok.inj (hm.symm.trans hm')
  obtain rfl : s = s' := Option.some.inj (Except.ok.inj (hx.symm.trans hx'))
  exact Except.ok.inj (hr.symm.trans hr')

/-- A manifest and a dump that are packed can be read again. -/
def Lawful : Prop :=
  ∀ manifestJson dump, ∃ tar,
    lib.opened (lib.packed [(manifestName, manifestJson), (dumpName, dump)]) = .ok tar ∧
      lib.Holds tar manifestName manifestJson ∧ lib.Holds tar dumpName dump

end Tarfile

/-! ### The manifest -/

/-- The manifest's `hub`. -/
structure HubIdentity where
  hubId : Option (BitVec 128)
  databaseHost : String
  database : String
  postgresVersion : String
  takenOn : String
  deriving DecidableEq

/-- The manifest's `postgres`: what was dumped, and its digest. -/
structure DumpInfo where
  file : String
  format : String
  sha256 : String
  bytes : ℤ
  pgDumpVersion : String
  deriving DecidableEq

/-- The manifest's `telemetry`. -/
structure TelemetrySnapshot where
  taken : Bool
  snapshot : Option String
  vmUrl : Option String
  note : String
  deriving DecidableEq

/-- What a backup leaves out, and how to recover it. -/
structure Omission where
  what : String
  why : String
  recover : String
  deriving DecidableEq

/-- What a backup holds that must be handled with care. -/
structure Contains where
  what : String
  why : String
  handling : String
  deriving DecidableEq

/-- `Manifest`, as it is validated. -/
structure Manifest where
  manifestVersion : ℤ
  /-- In microseconds of the Unix clock. -/
  createdAt : ℤ
  hub : HubIdentity
  schemaRevision : String
  contractsVersion : String
  toolVersion : String
  postgres : DumpInfo
  telemetry : TelemetrySnapshot
  omissions : List Omission
  contains : List Contains
  deriving DecidableEq

/-- `json`, pydantic and `hashlib`, as far as a manifest needs them. -/
structure Codec where
  loads : Bytes → Except LoadsError (Json String)
  repr : Json String → String
  /-- `Manifest.model_validate`, or the text of its `ValidationError`. -/
  modelValidate : Json String → Except String Manifest
  /-- `manifest.model_dump_json(indent=2).encode()`. -/
  modelDumpJson : Manifest → Bytes
  /-- The hex digest of what a hash was updated with. -/
  sha256 : Bytes → String

/-- The manifest, once written, can be read again. -/
def Codec.ReadsBack (codec : Codec) (m : Manifest) : Prop :=
  ∃ fields, codec.loads (codec.modelDumpJson m) = .ok (.dict fields) ∧
    fields.lookup "manifest_version" = some (.int m.manifestVersion) ∧
    codec.modelValidate (.dict fields) = .ok m

/-! ### Writing -/

/-- `MANIFEST_VERSION`. -/
def manifestVersion : ℤ := 1

/-- `KNOWN_REVISIONS`. -/
def knownRevisions : List String :=
  ["0001", "0002", "0003", "0004", "0005", "0006", "0007", "0008", "0009", "0010", "0011", "0012",
    "0013", "0014", "0015", "0016", "0017", "0018", "0019", "0020", "0021"]

variable (lib : Tarfile) (codec : Codec)

/-- Manifest first, so a reader meets it first. -/
def writeArchive (manifestJson dump : Bytes) : lib.Content :=
  lib.packed [(manifestName, manifestJson), (dumpName, dump)]

/-! ### Reading -/

/-- `RestoreRefusedError`: a stable reason, and a detail for the operator. -/
structure RestoreRefusedError where
  reason : String
  detail : String
  deriving DecidableEq

/-- What `open_archive` and `restore_backup` raise. -/
inductive RestoreError where
  | refused (e : RestoreRefusedError)
  | read (e : ReadError)
  | loads (e : LoadsError)
  | backupError (text : String)
  | sqlalchemyError (text : String)
  deriving DecidableEq

/-- `raise RestoreRefusedError(reason, detail)`. -/
def refuse {α : Type} (reason detail : String) : Except RestoreError α :=
  .error (.refused ⟨reason, detail⟩)

/-- How `_read_manifest` and `_extract_dump` begin: `getmember`, then `extractfile`. -/
def handleOf (tar : lib.Tar) (name missing : String) : Except RestoreError Stream :=
  match lib.getmember tar name with
  | .error e =>
      if e.kind = .keyError then refuse missing s!"the archive contains no {name}"
      else .error (.read e)
  | .ok member =>
      match lib.extractfile tar member with
      | .error e => .error (.read e)
      | .ok none => refuse missing s!"{name} is not a regular file"
      | .ok (some handle) => .ok handle

/-- `_read_manifest`, from the value that was parsed: version before shape. -/
def validated (raw : Json String) : Except RestoreError Manifest :=
  match raw with
  | .dict fields =>
      let version := (fields.lookup "manifest_version").getD .null
      if version.eqInt manifestVersion then
        match codec.modelValidate raw with
        | .error text =>
            refuse "manifest-incomplete" s!"{manifestName} is missing or malformed: {text}"
        | .ok manifest => .ok manifest
      else
        refuse "manifest-version-unsupported"
          (s!"archive manifest is version {codec.repr version}; " ++
            s!"this build reads version {manifestVersion}")
  | _ => refuse "manifest-unreadable" s!"{manifestName} is not a JSON object"

/-- `_read_manifest`. -/
def readManifest (tar : lib.Tar) : Except RestoreError Manifest := do
  let handle ← handleOf lib tar manifestName "manifest-missing"
  let data ← handle.read.mapError .read
  match codec.loads data with
  | .error e =>
      if e.kind = .recursionError then .error (.loads e)
      else refuse "manifest-unreadable" s!"{manifestName} is not valid JSON: {e.text}"
  | .ok raw => validated codec raw

/-- What the loop of `_extract_dump` keeps: what the hash was updated with, the count, the file. -/
structure Extracted where
  digest : Bytes
  written : ℕ
  out : Bytes

/-- One turn of the copying loop of `_extract_dump`. -/
def Extracted.add (x : Extracted) (chunk : Bytes) : Extracted :=
  ⟨x.digest ++ chunk, x.written + chunk.length, x.out ++ chunk⟩

/-- `while chunk := handle.read(_CHUNK)`. -/
def Stream.extract : Stream → Extracted → Except ReadError Extracted
  | .eof, x => .ok x
  | .raises e, _ => .error e
  | .chunk b bs rest, x => rest.extract (x.add (b :: bs))

/-- `_extract_dump`, and the file that it leaves. -/
def extractDump (tar : lib.Tar) (manifest : Manifest) : Except RestoreError Bytes := do
  let handle ← handleOf lib tar dumpName "payload-missing"
  let x ← (handle.extract ⟨[], 0, []⟩).mapError .read
  if (x.written : ℤ) ≠ manifest.postgres.bytes then
    refuse "payload-corrupt"
      s!"{dumpName} is {x.written} bytes; the manifest recorded {manifest.postgres.bytes}"
  else if codec.sha256 x.digest ≠ manifest.postgres.sha256 then
    refuse "payload-corrupt"
      (s!"{dumpName} does not match the sha256 the manifest recorded — the " ++
        "archive is damaged and must not be restored")
  else .ok x.out

/-- `_check_schema_revision`. -/
def checkSchemaRevision (manifest : Manifest) : Except RestoreError Unit :=
  if manifest.schemaRevision ∈ knownRevisions then .ok ()
  else
    refuse "schema-revision-unknown"
      (s!"archive was taken at schema revision {codec.repr (.str manifest.schemaRevision)}, " ++
        "which this build does not know (it knows up to '0021'). Restore with a " ++
        "hub build at least as new as the one that wrote the backup.")

/-- The manifest, and the file at `dump_path`. -/
structure VerifiedArchive where
  manifest : Manifest
  dump : Bytes
  deriving DecidableEq

/-- The `except` clauses of `open_archive`. -/
def unreadable {α : Type} (archive : String) (x : Except RestoreError α) : Except RestoreError α :=
  match x with
  | .error (.read e) =>
      if e.caught then
        refuse "archive-unreadable" s!"{archive} is not a readable backup archive: {e.text}"
      else .error (.read e)
  | x => x

/-- What `open_archive` does with the file that is open. -/
def unpack (content : lib.Content) : Except RestoreError VerifiedArchive := do
  let tar ← (lib.opened content).mapError .read
  let manifest ← readManifest lib codec tar
  let dump ← extractDump lib codec tar manifest
  pure ⟨manifest, dump⟩

/-- `open_archive`, at the path `archive`, where the file may not be. -/
def openArchive (archive : String) (file : Option lib.Content) :
    Except RestoreError VerifiedArchive :=
  match file with
  | none => refuse "archive-missing" s!"no archive at {archive}"
  | some content => do
      let v ← unreadable archive (unpack lib codec content)
      checkSchemaRevision codec v.manifest
      pure v

/-! ### Restore -/

/-- What `restore_backup` runs against. -/
structure Target where
  /-- `pg_restore` is installed. -/
  pgBinary : Except String Unit
  uri : String
  /-- `_public_table_count`, or the text of what it raises. -/
  publicTableCount : Except String ℕ
  dumpPath : String
  /-- `pg_restore`, of its arguments and the file at `dump_path`: the exit code and stderr. -/
  pgRestore : List String → Bytes → ℤ × String

/-- What `pg_restore` is started with. -/
def Target.args (t : Target) (force : Bool) : List String :=
  ["--no-owner", "--no-privileges", "--exit-on-error", "--single-transaction",
    s!"--dbname={t.uri}"] ++ (if force then ["--clean", "--if-exists"] else []) ++ [t.dumpPath]

/-- What a call did: the run of `pg_restore` that it started, if it did, and what it returned. -/
structure Restore where
  started : Option (List String × Bytes)
  result : Except RestoreError Manifest

/-- What `restore_backup` checks before it starts `pg_restore`. -/
def verified (t : Target) (archive : String) (file : Option lib.Content) (force : Bool) :
    Except RestoreError VerifiedArchive := do
  t.pgBinary.mapError .backupError
  let v ← openArchive lib codec archive file
  let existing ← t.publicTableCount.mapError .sqlalchemyError
  if existing ≠ 0 ∧ !force then
    refuse "target-not-empty"
      (s!"the target database already holds {existing} table(s). Restore expects an " ++
        "empty database — on fresh hardware, create the database and do NOT run " ++
        "migrations, because the archive carries the schema. Pass --force to drop " ++
        "and replace what is there.")
  else .ok v

/-- `restore_backup`. -/
def restoreBackup (t : Target) (archive : String) (file : Option lib.Content) (force : Bool) :
    Restore :=
  match verified lib codec t archive file force with
  | .error e => ⟨none, .error e⟩
  | .ok verified =>
      let (code, stderr) := t.pgRestore (t.args force) verified.dump
      ⟨some (t.args force, verified.dump),
        if code ≠ 0 then
          refuse "pg-restore-failed"
            (s!"pg_restore exited {code} and the transaction was rolled back, so the target " ++
              s!"is unchanged: {stderr}")
        else .ok verified.manifest⟩

/-! ### What the archive says -/

/-- The one exception that the caller expects. -/
def RestoreError.IsRefusal (x : RestoreError) : Prop := ∃ e, x = .refused e

/-- The archive has a manifest of this build's version, and it is `m`. -/
def Records (tar : lib.Tar) (m : Manifest) : Prop :=
  ∃ data fields, lib.Holds tar manifestName data ∧ codec.loads data = .ok (.dict fields) ∧
    ((fields.lookup "manifest_version").getD .null).eqInt manifestVersion = true ∧
      codec.modelValidate (.dict fields) = .ok m

/-- Nothing that `open_archive` reads of the file raises what it does not catch. -/
structure Spared (content : lib.Content) : Prop where
  opened : ∀ e, lib.opened content = .error e → e.caught = true
  manifest : ∀ tar e, lib.opened content = .ok tar →
    lib.Raises tar manifestName e → e.caught = true
  parsed : ∀ tar data e, lib.opened content = .ok tar →
    lib.Holds tar manifestName data → codec.loads data = .error e → e.kind ≠ .recursionError
  /-- The dump is read only where the manifest is good. -/
  dump : ∀ tar m e, lib.opened content = .ok tar → Records lib codec tar m →
    lib.Raises tar dumpName e → e.caught = true

/-- The dump is what the manifest records, of a schema that this build knows. -/
structure VerifiedArchive.Whole (v : VerifiedArchive) : Prop where
  bytes : v.manifest.postgres.bytes = v.dump.length
  sha256 : v.manifest.postgres.sha256 = codec.sha256 v.dump
  schemaRevision : v.manifest.schemaRevision ∈ knownRevisions

/-! ### What each step raises -/

section Steps
variable {lib : Tarfile} {codec : Codec} {tar : lib.Tar} {name missing : String} {data : Bytes}
  {content : lib.Content} {s : Stream} {m : Manifest} {e : ReadError} {x : RestoreError}
  {raw : Json String} {reason detail : String} {v : VerifiedArchive}

theorem isRefusal_refused {r : RestoreRefusedError} : RestoreError.IsRefusal (.refused r) :=
  ⟨r, rfl⟩

/-- A handle is had of a member that is a file. -/
theorem handleOf_eq_ok :
    handleOf lib tar name missing = .ok s ↔
      ∃ member, lib.getmember tar name = .ok member ∧
        lib.extractfile tar member = .ok (some s) := by
  rw [handleOf]
  cases hm : lib.getmember tar name with
  | error e => by_cases hk : e.kind = .keyError <;> simp [hk, refuse]
  | ok member =>
      cases hx : lib.extractfile tar member with
      | error e => simp [hx]
      | ok o => cases o <;> simp [hx, refuse]

/-- What the reader raises comes through, but for a name that is missing. -/
theorem handleOf_eq_read :
    handleOf lib tar name missing = .error (.read e) ↔
      (lib.getmember tar name = .error e ∧ e.kind ≠ .keyError) ∨
        ∃ member, lib.getmember tar name = .ok member ∧ lib.extractfile tar member = .error e := by
  rw [handleOf]
  cases hm : lib.getmember tar name with
  | error e' =>
      by_cases hk : e'.kind = .keyError
      · have hne : ∀ e, e' = e → ¬ e.kind ≠ .keyError := fun e he => he ▸ not_not_intro hk
        simpa [hk, refuse] using hne e
      · have hne : ∀ e, e' = e → e.kind ≠ .keyError := fun e he => he ▸ hk
        simpa [hk] using hne e
  | ok member =>
      cases hx : lib.extractfile tar member with
      | error e => simp [hx]
      | ok o => cases o <;> simp [hx, refuse]

theorem handleOf_error (h : handleOf lib tar name missing = .error x) :
    x.IsRefusal ∨ ∃ e, x = .read e := by
  rw [handleOf] at h
  split at h
  · split at h
    · cases h; exact .inl isRefusal_refused
    · cases h; exact .inr ⟨_, rfl⟩
  · split at h
    · cases h; exact .inr ⟨_, rfl⟩
    · cases h; exact .inl isRefusal_refused
    · cases h

/-- To hold a member is to have a handle of it and to read it to its end. -/
theorem holds_iff :
    lib.Holds tar name data ↔ ∃ s, handleOf lib tar name missing = .ok s ∧ s.read = .ok data := by
  constructor
  · rintro ⟨member, s, hm, hx, hr⟩
    exact ⟨s, handleOf_eq_ok.mpr ⟨member, hm, hx⟩, hr⟩
  · rintro ⟨s, hs, hr⟩
    obtain ⟨member, hm, hx⟩ := handleOf_eq_ok.mp hs
    exact ⟨member, s, hm, hx, hr⟩

/-- A member is not had, or not read to its end. -/
theorem raises_iff :
    lib.Raises tar name e ↔ handleOf lib tar name missing = .error (.read e) ∨
      ∃ s, handleOf lib tar name missing = .ok s ∧ s.read = .error e := by
  constructor
  · rintro (h | ⟨member, hm, hx | ⟨s, hx, hr⟩⟩)
    · exact .inl (handleOf_eq_read.mpr (.inl h))
    · exact .inl (handleOf_eq_read.mpr (.inr ⟨member, hm, hx⟩))
    · exact .inr ⟨s, handleOf_eq_ok.mpr ⟨member, hm, hx⟩, hr⟩
  · rintro (h | ⟨s, hs, hr⟩)
    · rcases handleOf_eq_read.mp h with h | ⟨member, hm, hx⟩
      · exact .inl h
      · exact .inr ⟨member, hm, .inl hx⟩
    · obtain ⟨member, hm, hx⟩ := handleOf_eq_ok.mp hs
      exact .inr ⟨member, hm, .inr ⟨s, hx, hr⟩⟩

/-- A manifest is accepted if it is an object of this version and validates. -/
theorem validated_eq_ok :
    validated codec raw = .ok m ↔ ∃ fields, raw = .dict fields ∧
      ((fields.lookup "manifest_version").getD .null).eqInt manifestVersion = true ∧
        codec.modelValidate raw = .ok m := by
  cases raw with
  | dict fields =>
      simp only [validated, Json.dict.injEq, exists_eq_left']
      split
      · next hv => cases hm : codec.modelValidate (.dict fields) <;> simp [hv, refuse]
      · next hv => simp [hv, refuse]
  | _ => simp [validated, refuse]

/-- What is wrong with a manifest is refused. -/
theorem isRefusal_of_validated (h : validated codec raw = .error x) : x.IsRefusal := by
  cases raw with
  | dict fields =>
      simp only [validated] at h
      split_ifs at h
      · cases hm : codec.modelValidate (.dict fields) with
        | error text => rw [hm] at h; cases h; exact isRefusal_refused
        | ok m => rw [hm] at h; cases h
      · cases h; exact isRefusal_refused
  | _ => cases h; exact isRefusal_refused

/-- What `open_archive` takes for the manifest is the one that the archive records. -/
theorem readManifest_eq_ok : readManifest lib codec tar = .ok m ↔ Records lib codec tar m := by
  simp only [readManifest, bind_eq_ok, mapError_eq_ok]
  constructor
  · rintro ⟨s, hs, data, hr, h⟩
    cases hl : codec.loads data with
    | error e =>
        rw [hl] at h
        by_cases hk : e.kind = .recursionError <;> simp [hk, refuse] at h
    | ok raw =>
        rw [hl] at h
        obtain ⟨fields, rfl, hv, hm⟩ := validated_eq_ok.mp h
        exact ⟨data, fields, holds_iff.mpr ⟨s, hs, hr⟩, hl, hv, hm⟩
  · rintro ⟨data, fields, hd, hl, hv, hm⟩
    obtain ⟨s, hs, hr⟩ := holds_iff.mp hd
    refine ⟨s, hs, data, hr, ?_⟩
    rw [hl]
    exact validated_eq_ok.mpr ⟨fields, rfl, hv, hm⟩

/-- What `_read_manifest` raises, a refusal apart. -/
theorem readManifest_error (h : readManifest lib codec tar = .error x) :
    x.IsRefusal ∨ (∃ e, x = .read e ∧ lib.Raises tar manifestName e) ∨
      ∃ data e, x = .loads e ∧ lib.Holds tar manifestName data ∧ codec.loads data = .error e ∧
        e.kind = .recursionError := by
  simp only [readManifest, bind_eq_error, mapError_eq_error, mapError_eq_ok] at h
  rcases h with h | ⟨s, hs, ⟨e, hr, rfl⟩ | ⟨data, hr, h⟩⟩
  · rcases handleOf_error h with hx | ⟨e, rfl⟩
    · exact .inl hx
    · exact .inr (.inl ⟨e, rfl, raises_iff.mpr (.inl h)⟩)
  · exact .inr (.inl ⟨e, rfl, raises_iff.mpr (.inr ⟨s, hs, hr⟩)⟩)
  · cases hl : codec.loads data with
    | ok raw =>
        rw [hl] at h
        exact .inl (isRefusal_of_validated h)
    | error e =>
        rw [hl] at h
        by_cases hk : e.kind = .recursionError
        · simp only [hk, if_pos, Except.error.injEq] at h
          exact .inr (.inr ⟨data, e, h.symm, holds_iff.mpr ⟨s, hs, hr⟩, hl, hk⟩)
        · simp only [hk, if_false, refuse, Except.error.injEq] at h
          exact .inl ⟨_, h.symm⟩

/-- What the reader raises at the manifest escapes `_read_manifest`. -/
theorem readManifest_of_raises (h : lib.Raises tar manifestName e) :
    readManifest lib codec tar = .error (.read e) := by
  simp only [readManifest, bind_eq_error, mapError_eq_error, mapError_eq_ok]
  rcases raises_iff.mp h with h | ⟨s, hs, hr⟩
  · exact .inl h
  · exact .inr ⟨s, hs, .inl ⟨e, hr, rfl⟩⟩

/-- So does a manifest that is nested too deeply. -/
theorem readManifest_of_recursion {e : LoadsError} (hd : lib.Holds tar manifestName data)
    (hl : codec.loads data = .error e) (hk : e.kind = .recursionError) :
    readManifest lib codec tar = .error (.loads e) := by
  simp only [readManifest, bind_eq_error, mapError_eq_ok]
  obtain ⟨s, hs, hr⟩ := holds_iff.mp hd
  exact .inr ⟨s, hs, .inr ⟨data, hr, by simp [hl, hk]⟩⟩

/-- Whatever its chunks, the loop hashes, counts and writes what one read would give. -/
theorem extract_eq (s : Stream) (x : Extracted) : s.extract x = s.read.map x.add := by
  induction s generalizing x with
  | eof => simp [Stream.extract, Stream.read, Except.map, Extracted.add]
  | raises e => rfl
  | chunk b bs rest ih =>
      rw [Stream.extract, ih, Stream.read]
      cases rest.read with
      | error e => rfl
      | ok data =>
          have hw : x.written + (bs.length + 1) + data.length
              = x.written + (bs.length + data.length + 1) := by omega
          simp [Except.map, Extracted.add, hw]

/-- A dump is extracted if its length and digest are the manifest's. -/
theorem extractDump_eq_ok {dump : Bytes} :
    extractDump lib codec tar m = .ok dump ↔ lib.Holds tar dumpName dump ∧
      m.postgres.bytes = dump.length ∧ m.postgres.sha256 = codec.sha256 dump := by
  simp only [extractDump, bind_eq_ok, mapError_eq_ok, extract_eq]
  constructor
  · rintro ⟨s, hs, x, hx, h⟩
    cases hr : s.read with
    | error e => rw [hr] at hx; cases hx
    | ok data =>
        rw [hr] at hx
        obtain rfl : Extracted.add ⟨[], 0, []⟩ data = x := Except.ok.inj hx
        split_ifs at h with hb hd
        · cases h
        · cases h
        · obtain rfl : data = dump := by simpa [Extracted.add] using h
          exact ⟨holds_iff.mpr ⟨s, hs, hr⟩, by simpa [Extracted.add] using (not_not.mp hb).symm,
            by simpa [Extracted.add] using (not_not.mp hd).symm⟩
  · rintro ⟨hd, hb, hsha⟩
    obtain ⟨s, hs, hr⟩ := holds_iff.mp hd
    refine ⟨s, hs, _, by rw [hr]; rfl, ?_⟩
    simp [Extracted.add, hb, hsha]

/-- What `_extract_dump` raises, a refusal apart. -/
theorem extractDump_error (h : extractDump lib codec tar m = .error x) :
    x.IsRefusal ∨ ∃ e, x = .read e ∧ lib.Raises tar dumpName e := by
  simp only [extractDump, bind_eq_error, mapError_eq_error, mapError_eq_ok, extract_eq] at h
  rcases h with h | ⟨s, hs, ⟨e, hx, rfl⟩ | ⟨y, -, h⟩⟩
  · rcases handleOf_error h with hx | ⟨e, rfl⟩
    · exact .inl hx
    · exact .inr ⟨e, rfl, raises_iff.mpr (.inl h)⟩
  · refine .inr ⟨e, rfl, raises_iff.mpr (.inr ⟨s, hs, ?_⟩)⟩
    cases hr : s.read with
    | error e' => rw [hr] at hx; exact congrArg _ (Except.error.inj hx)
    | ok data => rw [hr] at hx; cases hx
  · split_ifs at h
    · cases h; exact .inl isRefusal_refused
    · cases h; exact .inl isRefusal_refused

/-- What the reader raises at the dump escapes `_extract_dump`. -/
theorem extractDump_of_raises (h : lib.Raises tar dumpName e) :
    extractDump lib codec tar m = .error (.read e) := by
  simp only [extractDump, bind_eq_error, mapError_eq_error, extract_eq]
  rcases raises_iff.mp h with h | ⟨s, hs, hr⟩
  · exact .inl h
  · exact .inr ⟨s, hs, .inl ⟨e, by rw [hr]; rfl, rfl⟩⟩

/-- What is unpacked is recorded, and its dump is whole. -/
theorem unpack_eq_ok :
    unpack lib codec content = .ok v ↔ ∃ tar, lib.opened content = .ok tar ∧
      Records lib codec tar v.manifest ∧ lib.Holds tar dumpName v.dump ∧
        v.manifest.postgres.bytes = v.dump.length ∧
          v.manifest.postgres.sha256 = codec.sha256 v.dump := by
  simp only [unpack, bind_eq_ok, mapError_eq_ok, readManifest_eq_ok, extractDump_eq_ok]
  constructor
  · rintro ⟨tar, ht, m, hm, dump, hd, h⟩
    cases h
    exact ⟨tar, ht, hm, hd⟩
  · rintro ⟨tar, ht, hm, hd⟩
    exact ⟨tar, ht, v.manifest, hm, v.dump, hd, rfl⟩

/-- What is raised while the file is read, a refusal apart: each case breaks a part of `Spared`. -/
theorem unpack_error (hs : Spared lib codec content) (h : unpack lib codec content = .error x) :
    x.IsRefusal ∨ ∃ e, x = .read e ∧ e.caught = true := by
  simp only [unpack, bind_eq_error, mapError_eq_error, mapError_eq_ok] at h
  rcases h with ⟨e, ho, rfl⟩ | ⟨tar, ho, h | ⟨m, hm, h | ⟨dump, -, h⟩⟩⟩
  · exact .inr ⟨e, rfl, hs.opened e ho⟩
  · rcases readManifest_error h with hx | ⟨e, rfl, hr⟩ | ⟨data, e, rfl, hd, hl, hk⟩
    · exact .inl hx
    · exact .inr ⟨e, rfl, hs.manifest tar e ho hr⟩
    · exact absurd hk (hs.parsed tar data e ho hd hl)
  · rcases extractDump_error h with hx | ⟨e, rfl, hr⟩
    · exact .inl hx
    · exact .inr ⟨e, rfl, hs.dump tar m e ho (readManifest_eq_ok.mp hm) hr⟩
  · cases h

theorem unreadable_eq_ok {α : Type} {archive : String} {y : Except RestoreError α} {a : α} :
    unreadable archive y = .ok a ↔ y = .ok a := by
  cases y with
  | ok b => rfl
  | error x =>
      cases x with
      | read e => by_cases he : e.caught = true <;> simp [unreadable, he, refuse]
      | _ => simp [unreadable]

/-- What `open_archive` catches it refuses. -/
theorem isRefusal_of_unreadable {α : Type} {archive : String} {y : Except RestoreError α}
    (hy : ∀ x, y = .error x → x.IsRefusal ∨ ∃ e, x = .read e ∧ e.caught = true)
    (h : unreadable archive y = .error x) : x.IsRefusal := by
  unfold unreadable at h
  split at h
  · next e =>
      split_ifs at h with he
      · cases h; exact isRefusal_refused
      · rcases hy _ rfl with ⟨r, hr⟩ | ⟨e', he', hc⟩
        · cases hr
        · cases he'
          exact absurd hc he
  · next hne =>
      rcases hy x h with hx | ⟨e, rfl, -⟩
      · exact hx
      · exact absurd h (hne e)

/-- A schema revision is taken if it is known. -/
theorem checkSchemaRevision_eq_ok {u : Unit} :
    checkSchemaRevision codec m = .ok u ↔ m.schemaRevision ∈ knownRevisions := by
  by_cases hm : m.schemaRevision ∈ knownRevisions <;> simp [checkSchemaRevision, hm, refuse]

theorem isRefusal_of_checkSchemaRevision (h : checkSchemaRevision codec m = .error x) :
    x.IsRefusal := by
  rw [checkSchemaRevision] at h
  split_ifs at h
  cases h
  exact isRefusal_refused

variable {archive : String} {file : Option lib.Content}

/-- **What is accepted** is recorded in the file, and whole. -/
theorem openArchive_eq_ok :
    openArchive lib codec archive file = .ok v ↔ ∃ content tar, file = some content ∧
      lib.opened content = .ok tar ∧ Records lib codec tar v.manifest ∧
        lib.Holds tar dumpName v.dump ∧ v.Whole codec := by
  cases file with
  | none => simp [openArchive, refuse]
  | some content =>
      simp only [openArchive, bind_eq_ok, unreadable_eq_ok, unpack_eq_ok, checkSchemaRevision_eq_ok]
      constructor
      · rintro ⟨w, ⟨tar, ho, hm, hd, hb, hsha⟩, -, hr, hw⟩
        cases hw
        exact ⟨content, tar, rfl, ho, hm, hd, hb, hsha, hr⟩
      · rintro ⟨_, tar, hc, ho, hm, hd, hw⟩
        cases hc
        exact ⟨v, ⟨tar, ho, hm, hd, hw.bytes, hw.sha256⟩, (), hw.schemaRevision, rfl⟩

/-- Where the file is spared, the whole of `open_archive` refuses and does nothing else. -/
theorem isRefusal_of_spared (hs : Spared lib codec content)
    (h : openArchive lib codec archive (some content) = .error x) : x.IsRefusal := by
  rcases bind_eq_error.mp h with h | ⟨v, -, h⟩
  · exact isRefusal_of_unreadable (fun y hy => unpack_error hs hy) h
  · rcases bind_eq_error.mp h with h | ⟨-, -, h⟩
    · exact isRefusal_of_checkSchemaRevision h
    · cases h

/-- What escapes the `except` clauses escapes `open_archive`. -/
theorem openArchive_of_unpack (h : unpack lib codec content = .error x)
    (hx : ∀ e, x = .read e → e.caught = false) :
    openArchive lib codec archive (some content) = .error x := by
  refine bind_eq_error.mpr (.inl ?_)
  rw [h]
  cases x with
  | read e => simp [unreadable, hx e rfl]
  | _ => rfl

theorem unpack_of_opened (h : lib.opened content = .error e) :
    unpack lib codec content = .error (.read e) :=
  bind_eq_error.mpr (.inl (mapError_eq_error.mpr ⟨e, h, rfl⟩))

theorem unpack_of_manifest (h : lib.opened content = .ok tar)
    (hx : readManifest lib codec tar = .error x) : unpack lib codec content = .error x :=
  bind_eq_error.mpr (.inr ⟨tar, mapError_eq_ok.mpr h, bind_eq_error.mpr (.inl hx)⟩)

theorem unpack_of_dump (h : lib.opened content = .ok tar) (hm : Records lib codec tar m)
    (hx : extractDump lib codec tar m = .error x) : unpack lib codec content = .error x :=
  bind_eq_error.mpr (.inr ⟨tar, mapError_eq_ok.mpr h, bind_eq_error.mpr
    (.inr ⟨m, readManifest_eq_ok.mpr hm, bind_eq_error.mpr (.inl hx)⟩)⟩)

/-- An archive that is only ever refused is spared. -/
theorem spared_of_refuses
    (h : ∀ x, openArchive lib codec archive (some content) = .error x → x.IsRefusal) :
    Spared lib codec content := by
  have read : ∀ e, unpack lib codec content = .error (.read e) → e.caught = true := by
    intro e hu
    by_contra hc
    obtain ⟨r, hr⟩ := h _ (openArchive_of_unpack hu fun e' he' => by
      cases he'; exact Bool.eq_false_iff.mpr hc)
    cases hr
  refine ⟨fun e ho => read e (unpack_of_opened ho),
    fun tar e ho hr => read e (unpack_of_manifest ho (readManifest_of_raises hr)),
    fun tar data e ho hd hl hk => ?_,
    fun tar m e ho hm hr => read e (unpack_of_dump ho hm (extractDump_of_raises hr))⟩
  obtain ⟨r, hr⟩ := h _ (openArchive_of_unpack
    (unpack_of_manifest ho (readManifest_of_recursion hd hl hk)) nofun)
  cases hr

/-! ### Restore -/

/-- What `restore_backup` has found when it starts `pg_restore`. -/
theorem restoreBackup_started {t : Target} {force : Bool} {args : List String} {dump : Bytes}
    (h : (restoreBackup lib codec t archive file force).started = some (args, dump)) :
    ∃ v, openArchive lib codec archive file = .ok v ∧ dump = v.dump ∧ args = t.args force ∧
      (force = true ∨ t.publicTableCount = .ok 0) := by
  unfold restoreBackup at h
  cases hv : verified lib codec t archive file force with
  | error x => rw [hv] at h; cases h
  | ok w =>
      rw [hv] at h
      cases h
      simp only [verified, bind_eq_ok, mapError_eq_ok] at hv
      obtain ⟨_, -, v, ho, existing, hc, hv⟩ := hv
      split_ifs at hv with hforce
      · cases hv
      · cases hv
        refine ⟨w, ho, rfl, rfl, ?_⟩
        by_cases hf : force = true
        · exact .inl hf
        · have h0 : existing = 0 := by
            by_contra hne
            exact hforce ⟨hne, by simpa using hf⟩
          exact .inr (h0 ▸ hc)

/-! ### Round trip -/

/-- **Round trip.**  What is written is accepted again, if its version is this one. -/
theorem openArchive_writeArchive (hlib : lib.Lawful) (hcodec : codec.ReadsBack m) {dump : Bytes}
    (hw : VerifiedArchive.Whole codec ⟨m, dump⟩) :
    openArchive lib codec archive (some (writeArchive lib (codec.modelDumpJson m) dump)) =
        .ok ⟨m, dump⟩ ↔ m.manifestVersion = manifestVersion := by
  obtain ⟨tar, ho, hman, hdump⟩ := hlib (codec.modelDumpJson m) dump
  obtain ⟨fields, hl, hver, hm⟩ := hcodec
  rw [openArchive_eq_ok]
  constructor
  · rintro ⟨content, tar', hc, ho', ⟨data, fields', hd, hl', hv, -⟩, -, -⟩
    cases hc
    obtain rfl : tar = tar' := Except.ok.inj (ho.symm.trans ho')
    obtain rfl : codec.modelDumpJson m = data := hman.unique hd
    obtain rfl : fields = fields' := by
      have := Except.ok.inj (hl.symm.trans hl')
      simpa using this
    simpa [hver, Json.eqInt] using hv
  · intro hv
    refine ⟨_, tar, rfl, ho, ⟨_, fields, hman, hl, ?_, hm⟩, hdump, hw⟩
    simp [hver, Json.eqInt, hv]

end Steps

/-! ### The law -/

/-- Of every file: `open_archive` raises nothing but a refusal if and only if it is spared, and
what it returns is whole; `pg_restore` starts only with a verified dump, and only into an empty
database unless forced; and a manifest of this build's version comes back with its dump. -/
theorem restore_refuses_iff (hlib : lib.Lawful) (archive : String) :
    (∀ content,
      (∀ x, openArchive lib codec archive (some content) = .error x → x.IsRefusal) ↔
        Spared lib codec content) ∧
    (∀ x, openArchive lib codec archive none = .error x → x.IsRefusal) ∧
    (∀ file v, openArchive lib codec archive file = .ok v → v.Whole codec) ∧
    (∀ t file force args dump,
      (restoreBackup lib codec t archive file force).started = some (args, dump) →
        (∃ v, openArchive lib codec archive file = .ok v ∧ dump = v.dump) ∧
          (force = true ∨ t.publicTableCount = .ok 0)) ∧
    ∀ m dump, codec.ReadsBack m → VerifiedArchive.Whole codec ⟨m, dump⟩ →
      (openArchive lib codec archive (some (writeArchive lib (codec.modelDumpJson m) dump)) =
          .ok ⟨m, dump⟩ ↔ m.manifestVersion = manifestVersion) := by
  refine ⟨fun content => ⟨spared_of_refuses, fun hs x hx => isRefusal_of_spared hs hx⟩, ?_, ?_, ?_,
    fun m dump hm hw => openArchive_writeArchive hlib hm hw⟩
  · intro x hx
    cases hx
    exact isRefusal_refused
  · intro file v hv
    obtain ⟨content, tar, -, -, -, -, hw⟩ := openArchive_eq_ok.mp hv
    exact hw
  · intro t file force args dump h
    obtain ⟨v, ho, hd, -, ht⟩ := restoreBackup_started h
    exact ⟨⟨v, ho, hd⟩, ht⟩

/-! ### A backup, and a damaged one -/

/-- A file whose members are listed; one that is a link that leads nowhere is an error. -/
def listed : Tarfile where
  Content := List (String × Except ReadError Stream)
  Tar := List (String × Except ReadError Stream)
  Member := Except ReadError Stream
  opened := .ok
  getmember tar name :=
    match tar.reverse.lookup name with
    | some member => .ok member
    | none => .error ⟨.keyError, name⟩
  extractfile _ member := member.map some
  packed files := files.map fun (name, data) => (name, .ok (.ofBytes data))

/-- A name that is there once holds what it is listed with. -/
theorem listed_holds {tar : List (String × Except ReadError Stream)} {name : String} {s : Stream}
    {data : Bytes} (hn : (tar.map Prod.fst).Nodup) (hm : (name, .ok s) ∈ tar)
    (hr : s.read = .ok data) : listed.Holds tar name data := by
  have hl : tar.reverse.lookup name = some (.ok s) := by
    obtain ⟨l₁, l₂, h⟩ := List.append_of_mem (List.mem_reverse.mpr hm)
    refine List.lookup_eq_some_iff.mpr ⟨l₁, l₂, h, fun p hp => ?_⟩
    have hn' : ((l₁ ++ (name, .ok s) :: l₂).map Prod.fst).Nodup := by
      rw [← h, List.map_reverse]
      exact List.pairwise_reverse.mpr (hn.imp Ne.symm)
    rw [List.map_append, List.nodup_append] at hn'
    simpa using (hn'.2.2 p.1 (List.mem_map_of_mem hp) name (by simp)).symm
  exact ⟨.ok s, s, by simp [listed, hl], rfl, hr⟩

/-- A list of two members reads back. -/
theorem listed_lawful : listed.Lawful := by
  intro manifestJson dump
  have hn : [manifestName, dumpName].Nodup := by simp [manifestName, dumpName]
  exact ⟨_, rfl, listed_holds hn List.mem_cons_self (read_ofBytes manifestJson),
    listed_holds hn (List.mem_cons_of_mem _ List.mem_cons_self) (read_ofBytes dump)⟩

/-- A dump of five bytes. -/
def fiveBytes : Bytes := [80, 71, 68, 77, 80]

/-- The manifest of a dump of five bytes. -/
def fiveBytesManifest : Manifest where
  manifestVersion := 1
  createdAt := 1767225600000000
  hub := ⟨none, "bellasreef.local", "bellasreef", "17.2", "bellasreef"⟩
  schemaRevision := "0021"
  contractsVersion := "1.0.0"
  toolVersion := "1.0.0"
  postgres := ⟨dumpName, "custom",
    "b5a26a21290c39819235a235b8ed66b3bd98ed90c8316c8949bfbb7419cac878", 5,
    "pg_dump (PostgreSQL) 17.2"⟩
  telemetry := ⟨false, none, none, "no telemetry snapshot was taken for this archive"⟩
  omissions := []
  contains := []

/-- Its text. -/
def fiveBytesJson : Bytes :=
  ("\n".intercalate
    ["\x7b", "  \"manifest_version\": 1,", "  \"created_at\": \"2026-01-01T00:00:00Z\",",
      "  \"hub\": \x7b", "    \"hub_id\": null,", "    \"database_host\": \"bellasreef.local\",",
      "    \"database\": \"bellasreef\",", "    \"postgres_version\": \"17.2\",",
      "    \"taken_on\": \"bellasreef\"", "  \x7d,", "  \"schema_revision\": \"0021\",",
      "  \"contracts_version\": \"1.0.0\",", "  \"tool_version\": \"1.0.0\",",
      "  \"postgres\": \x7b", "    \"file\": \"postgres.dump\",", "    \"format\": \"custom\",",
      "    \"sha256\": \"b5a26a21290c39819235a235b8ed66b3bd98ed90c8316c8949bfbb7419cac878\",",
      "    \"bytes\": 5,", "    \"pg_dump_version\": \"pg_dump (PostgreSQL) 17.2\"", "  \x7d,",
      "  \"telemetry\": \x7b", "    \"taken\": false,", "    \"snapshot\": null,",
      "    \"vm_url\": null,",
      "    \"note\": \"no telemetry snapshot was taken for this archive\"", "  \x7d,",
      "  \"omissions\": [],", "  \"contains\": []", "\x7d"]).toUTF8.toList

/-- What it parses to. -/
def fiveBytesFields : List (String × Json String) :=
  [("manifest_version", .int 1), ("created_at", .str "2026-01-01T00:00:00Z"),
    ("hub", .dict [("hub_id", .null), ("database_host", .str "bellasreef.local"),
      ("database", .str "bellasreef"), ("postgres_version", .str "17.2"),
      ("taken_on", .str "bellasreef")]),
    ("schema_revision", .str "0021"), ("contracts_version", .str "1.0.0"),
    ("tool_version", .str "1.0.0"),
    ("postgres", .dict [("file", .str "postgres.dump"), ("format", .str "custom"),
      ("sha256", .str "b5a26a21290c39819235a235b8ed66b3bd98ed90c8316c8949bfbb7419cac878"),
      ("bytes", .int 5), ("pg_dump_version", .str "pg_dump (PostgreSQL) 17.2")]),
    ("telemetry", .dict [("taken", .bool false), ("snapshot", .null), ("vm_url", .null),
      ("note", .str "no telemetry snapshot was taken for this archive")]),
    ("omissions", .list []), ("contains", .list [])]

/-- The codec, at this manifest and this dump. -/
def fiveBytesCodec : Codec where
  loads data :=
    if data = fiveBytesJson then .ok (.dict fiveBytesFields)
    else .error ⟨.jsonDecodeError, "Expecting value: line 1 column 1 (char 0)"⟩
  repr
    | .str s => s!"'{s}'"
    | .int n => s!"{n}"
    | _ => "None"
  modelValidate _ := .ok fiveBytesManifest
  modelDumpJson _ := fiveBytesJson
  sha256 data :=
    if data = fiveBytes then "b5a26a21290c39819235a235b8ed66b3bd98ed90c8316c8949bfbb7419cac878"
    else "e3b0c44298fc1c149afbf4c8996fb92427ae41e4649b934ca495991b7852b855"

theorem fiveBytes_readsBack : fiveBytesCodec.ReadsBack fiveBytesManifest :=
  ⟨fiveBytesFields, if_pos rfl, by simp [fiveBytesFields, fiveBytesManifest], rfl⟩

theorem fiveBytes_whole : VerifiedArchive.Whole fiveBytesCodec ⟨fiveBytesManifest, fiveBytes⟩ :=
  ⟨by simp [fiveBytesManifest, fiveBytes], by simp [fiveBytesManifest, fiveBytesCodec],
    by simp [fiveBytesManifest, knownRevisions]⟩

/-- The backup of five bytes is restored. -/
theorem restore_refuses_iff_fiveBytes :
    openArchive listed fiveBytesCodec "reef.tar.gz"
        (some (writeArchive listed (fiveBytesCodec.modelDumpJson fiveBytesManifest) fiveBytes)) =
      .ok ⟨fiveBytesManifest, fiveBytes⟩ :=
  ((restore_refuses_iff listed fiveBytesCodec listed_lawful "reef.tar.gz").2.2.2.2
    fiveBytesManifest fiveBytes fiveBytes_readsBack fiveBytes_whole).mpr rfl

/-- The same backup, with a byte changed in the deflated dump. -/
def damaged : listed.Content :=
  [(manifestName, .ok (.ofBytes fiveBytesJson)),
    (dumpName, .ok (.chunk 80 [71] (.raises ⟨.zlibError,
      "Error -3 while decompressing data: invalid distance too far back"⟩)))]

/-- It raises what is not a `RestoreRefusedError`. -/
theorem not_restore_refuses :
    ∃ x, openArchive listed fiveBytesCodec "reef.tar.gz" (some damaged) = .error x ∧
      ¬ x.IsRefusal := by
  have hn : (damaged.map Prod.fst).Nodup := by simp [damaged, manifestName, dumpName]
  have hman : listed.Holds damaged manifestName fiveBytesJson :=
    listed_holds hn (by simp [damaged]) (read_ofBytes _)
  have hrec : Records listed fiveBytesCodec damaged fiveBytesManifest :=
    ⟨fiveBytesJson, fiveBytesFields, hman, if_pos rfl,
      by simp [fiveBytesFields, Json.eqInt, manifestVersion], rfl⟩
  have hr : listed.Raises damaged dumpName ⟨.zlibError,
      "Error -3 while decompressing data: invalid distance too far back"⟩ :=
    .inr ⟨_, by simp [listed, damaged, manifestName, dumpName]; rfl, .inr ⟨_, rfl, rfl⟩⟩
  refine ⟨_, openArchive_of_unpack (unpack_of_dump rfl hrec (extractDump_of_raises hr)) ?_, ?_⟩
  · rintro e h
    cases h
    rfl
  · rintro ⟨e, h⟩
    cases h

end BellasReef.Api.Backup
