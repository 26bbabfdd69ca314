/-
The command journal (`crates/workflow-journal/src/lib.rs`).

The journal is one JSONL file to which every phase of every command is appended
under an increasing sequence number. The writer keeps an index from each command
to the place, length and digest of its lines, so that `history` reads only them.
Before every operation `refresh` compares the entry at the journal's path with
what the writer remembers of it (identity, length, modification time) and
opens it anew when they differ. A file that is torn, unreadable or out of order
is never repaired: it is renamed away intact, a fresh file takes its place, and
the commands of the archive stay uncertain.

An entry that is not a regular file, or has a second hard link, is put in place
by another program; those checks are left out, and so is the directory listing
that finds the archives. The path is fixed, so an archive is named by its number.
-/
import BobbyBrowser.JsonlSequence
import BobbyBrowser.Ledger
import BobbyBrowser.Outcomes

set_option autoImplicit false

namespace BobbyBrowser.CommandJournal

open Lines Jsonl Outcomes
open Ledger (Digest)

/-! ## Records and their text -/

/-- `JournalRecord`. The journal itself looks at the sequence number and the command;
`content` is what it only carries: the time, the phase, the envelope, the outcome and the
prepared result. -/
structure JournalRecord (X : Type) where
  sequence : ℕ
  command_id : CommandId
  content : X
  deriving DecidableEq

structure JournalScan (X : Type) where
  records : List (JournalRecord X) := []
  torn_tail : Bool := false
  /-- Unreadable lines, or an archived history whose integrity cannot be established. Any
  nonzero value makes records diagnostic only. -/
  incompatible_records : ℕ := 0
  deriving DecidableEq

inductive JournalError
  | io (error : IoError)
  | serialization (message : String)
  | uncertain_command
  deriving DecidableEq, Repr

def is_ascii_whitespace (b : UInt8) : Bool :=
  b = 0x20 || b = 0x09 || b = 0x0a || b = 0x0c || b = 0x0d

/-- `serde_json` on journal lines, and SHA-256. A record is written without a newline and is read
back from its line; what is read from other texts, and the two probes, are left open. -/
structure Codec (X : Type) where
  record_bytes : JournalRecord X → Bytes
  decode_record : Bytes → Option (JournalRecord X)
  /-- `RecordProbe`: the sequence of a line this build cannot decode. -/
  probe_sequence : Bytes → Option ℕ
  /-- `ArchiveRecordProbe`: the command of a line this build cannot decode. -/
  probe_command_id : Bytes → Option CommandId
  sha256 : Bytes → Digest
  decode_record_line : ∀ r : JournalRecord X, r.sequence ≤ u64_max →
    decode_record (record_bytes r ++ [newline]) = some r
  newline_notMem_record : ∀ r, newline ∉ record_bytes r
  record_not_blank : ∀ r, (record_bytes r).all is_ascii_whitespace = false

section

variable {X : Type} (C : Codec X)

/-- The line of a record. -/
def Codec.line (r : JournalRecord X) : Bytes := C.record_bytes r ++ [newline]

/-! ## The index -/

/-- `IndexedRecord`: rebuildable checks against the bytes validated at open or durably
appended. -/
structure IndexedRecord where
  offset : ℕ
  len : ℕ
  digest : Digest

def IndexedRecord.new (offset : ℕ) (bytes : Bytes) : IndexedRecord :=
  ⟨offset, bytes.length, C.sha256 bytes⟩

structure ArchivedRecordLocation where
  archive : ℕ
  offset : ℕ
  len : ℕ

/-- `HashMap<CommandId, Vec<_>>` that only grows by `entry(id).or_default().push(_)`: the pushes in
order. A key is present once something was pushed under it. -/
abbrev Index (ρ : Type) := List (CommandId × ρ)

/-- `entry(id).or_default().push(r)`. -/
def Index.push {ρ : Type} (index : Index ρ) (id : CommandId) (r : ρ) : Index ρ := index ++ [(id, r)]

/-- What was pushed under `id`. -/
def Index.entries {ρ : Type} (index : Index ρ) (id : CommandId) : List ρ :=
  (index.filter fun e => e.1 = id).map Prod.snd

def Index.contains_key {ρ : Type} (index : Index ρ) (id : CommandId) : Bool :=
  index.any fun e => e.1 = id

/-! ## The scan of the journal's file -/

/-- `Scan`, with the index that `CommandDecoder` fills. -/
structure Scan where
  torn_tail : Bool
  incompatible_records : ℕ
  max_sequence : Option ℕ
  offsets : Index IndexedRecord

def command_decoder : LedgerDecoder (Index IndexedRecord) (JournalRecord X) where
  decode index line :=
    (if line.bytes.all is_ascii_whitespace then ⟨.skip, none⟩
    else match C.decode_record line.bytes with
      | some record => ⟨.accepted (some record.sequence), some record⟩
      | none => ⟨.rejected (C.probe_sequence line.bytes) .decode, none⟩, index)
  apply index line prepared _ :=
    -- invalid sequence records retain diagnostic identity, never replay authority
    .ok (match prepared.record with
      | some record => index.push record.command_id (.new C line.offset line.bytes)
      | none => index, .continue)

variable (max_record_bytes : ℕ)

/-- The options of `scan_file`. -/
def scan_options : ScanOptions := ⟨some max_record_bytes, .increasing⟩

/-- What `scan_file` takes over from the health. -/
def scan_of (health : LedgerHealth) (offsets : Index IndexedRecord) : Scan where
  torn_tail := 0 < health.issue_count .torn_tail
  incompatible_records := health.incompatible_records + health.issue_count .oversized_line
  max_sequence := health.max_observed_sequence
  offsets := offsets

def scan_file (bytes : Bytes) : Except IoError Scan :=
  match scan_jsonl (scan_options max_record_bytes) (command_decoder C) bytes [] with
  | .error e => .error e
  | .ok (health, offsets) => .ok (scan_of health offsets)

/-! ## Archives -/

/-- What `open_writer` gathers from the archives. -/
structure Archived where
  offsets : Index ArchivedRecordLocation := []
  torn_tail : Bool := false
  incompatible_records : ℕ := 0

/-- One line of an archive that is within the bound. -/
def note_archived (archive offset : ℕ) (line : Bytes) (acc : Archived) : Archived :=
  let acc := if line.getLast? = some newline then acc else { acc with torn_tail := true }
  if line.all is_ascii_whitespace then acc
  else match C.decode_record line with
    | some record =>
      { acc with offsets := acc.offsets.push record.command_id ⟨archive, offset, line.length⟩ }
    | none =>
      -- incompatible records still reserve their command id
      let acc := { acc with incompatible_records := acc.incompatible_records + 1 }
      match C.probe_command_id line with
      | some id => { acc with offsets := acc.offsets.push id ⟨archive, offset, line.length⟩ }
      | none => acc

/-- The read loop of `open_writer` over one archive; every round reads a byte or more, so the
length of the archive is fuel enough. -/
def scan_archive (max_record_bytes archive : ℕ) : ℕ → ℕ → Bytes → Archived → Archived
  | 0, _, _, acc => acc
  | fuel + 1, offset, reader, acc =>
    let line := read_until (limited (some max_record_bytes) reader)
    let rest := reader.drop line.length
    if line = [] then acc
    else if max_record_bytes < line.length then
      -- at the limit the newline may already be consumed; drain the remainder otherwise
      let drained := if line.getLast? = some newline then 0 else (read_until rest).length
      scan_archive max_record_bytes archive fuel (offset + line.length + drained)
        (rest.drop drained) { acc with incompatible_records := acc.incompatible_records + 1 }
    else
      scan_archive max_record_bytes archive fuel (offset + line.length) rest
        (note_archived C archive offset line acc)

/-- All archives, from the one with number `archive` on. -/
def scan_archives (max_record_bytes : ℕ) : ℕ → List Bytes → Archived → Archived
  | _, [], acc => acc
  | archive, bytes :: rest, acc =>
    scan_archives max_record_bytes (archive + 1) rest
      (scan_archive C max_record_bytes archive bytes.length 0 bytes acc)

/-! ## The file system -/

/-- A file: what `same_file::Handle` compares, its bytes and its modification time. -/
structure JournalFile where
  identity : ℕ
  bytes : Bytes
  modified : ℕ

/-- The entry at the journal's path, the archives beside it, and the next file identity. -/
structure Disk where
  entry : Option JournalFile := none
  archives : List Bytes := []
  fresh : ℕ := 0

/-- `open` with `create(true)`: the entry, or a new empty file. -/
def Disk.open_entry (disk : Disk) (created : ℕ) : JournalFile × Disk :=
  match disk.entry with
  | some file => (file, disk)
  | none =>
    let file : JournalFile := ⟨disk.fresh, [], created⟩
    (file, { disk with entry := some file, fresh := disk.fresh + 1 })

/-- `archive_damaged_journal`: rename the entry away, intact. -/
def Disk.archive_damaged_journal (disk : Disk) : Disk :=
  match disk.entry with
  | some file => { disk with entry := none, archives := disk.archives ++ [file.bytes] }
  | none => disk

/-! ## The writer -/

/-- `WriterState`; of the archives only their number is looked at. -/
structure WriterState where
  identity : ℕ
  next_sequence : ℕ
  file_len : ℕ
  modified : ℕ
  offsets : Index IndexedRecord
  archives : ℕ
  archived_offsets : Index ArchivedRecordLocation
  archived_torn_tail : Bool
  archived_incompatible_records : ℕ

/-- How far opening got when it failed. -/
inductive OpenPoint
  /-- Nothing was created. -/
  | before
  /-- The entry is there, created if it was missing. -/
  | opened
  /-- A damaged entry has been renamed away. -/
  | archived
  /-- Everything on disk is done. -/
  | late
  deriving DecidableEq, Repr

/-- What the file system does during an open: a failure, and the time a created file gets. -/
structure OpenEnv where
  failure : Option (OpenPoint × IoError) := none
  created : ℕ := 0

variable (env : OpenEnv)

/-- The error of a failure at this point. -/
def OpenEnv.fails (point : OpenPoint) : Option IoError :=
  match env.failure with
  | some (p, e) => if p = point then some e else none
  | none => none

/-- The end of `open_writer`: look at the file and gather the archives. -/
def writer_of (disk : Disk) (file : JournalFile)
    (offsets : Index IndexedRecord) (next_sequence : ℕ) : WriterState :=
  let archived := scan_archives C max_record_bytes 0 disk.archives {}
  { identity := file.identity
    next_sequence := next_sequence
    file_len := file.bytes.length
    modified := file.modified
    offsets := offsets
    archives := disk.archives.length
    archived_offsets := archived.offsets
    archived_torn_tail := archived.torn_tail
    archived_incompatible_records := archived.incompatible_records }

/-- Close an open: the writer, or the error of a late failure. -/
def finish_open (disk : Disk) (file : JournalFile)
    (offsets : Index IndexedRecord) (next_sequence : ℕ) : Except JournalError WriterState × Disk :=
  match env.fails .late with
  | some e => (.error (.io e), disk)
  | none => (.ok (writer_of C max_record_bytes disk file offsets next_sequence), disk)

/-- The scan found something that makes the whole file uncertain. -/
def Scan.damaged (scan : Scan) : Bool :=
  scan.torn_tail || 0 < scan.incompatible_records || scan.max_sequence = some u64_max

def open_writer (disk : Disk) : Except JournalError WriterState × Disk :=
  match env.fails .before with
  | some e => (.error (.io e), disk)
  | none =>
    let (file, disk) := disk.open_entry env.created
    match env.fails .opened with
    | some e => (.error (.io e), disk)
    | none =>
      match scan_file C max_record_bytes file.bytes with
      | .error e => (.error (.io e), disk)
      | .ok scan =>
        if scan.damaged then
          let disk := disk.archive_damaged_journal
          match env.fails .archived with
          | some e => (.error (.io e), disk)
          | none =>
            let (file, disk) := disk.open_entry env.created
            finish_open C max_record_bytes env disk file [] 0
        else
          finish_open C max_record_bytes env disk file scan.offsets
            (scan.max_sequence.elim 0 (· + 1))

/-- The entry is the file the writer knows. -/
def WriterState.knows (writer : WriterState) (file : JournalFile) : Bool :=
  file.identity = writer.identity && file.bytes.length = writer.file_len
    && file.modified = writer.modified

/-- `refresh`: keep the writer while it knows the entry, open the entry anew otherwise. -/
def refresh (writer : WriterState) (disk : Disk) : Except JournalError WriterState × Disk :=
  match env.fails .before with
  | some e => (.error (.io e), disk)
  | none =>
    if disk.entry.any writer.knows then (.ok writer, disk)
    else open_writer C max_record_bytes env disk

/-! ## Append -/

/-- How the write of a line ends. -/
inductive WriteFault
  | none
  /-- An error up to and including `sync_data`, with this many bytes written. -/
  | write (written : ℕ) (error : IoError)
  /-- The line is durable and indexed; the closing `metadata` call fails. -/
  | metadata (error : IoError)
  deriving DecidableEq, Repr

/-- What the file system does during an append. -/
structure AppendEnv extends OpenEnv where
  write : WriteFault := .none
  /-- The modification time the file has after the write. -/
  written_at : ℕ := 0

/-- Bytes at the end of the entry. Writing none leaves its modification time alone. -/
def Disk.write (disk : Disk) (bytes : Bytes) (written_at : ℕ) : Disk :=
  if bytes = [] then disk
  else { disk with entry := disk.entry.map fun file =>
    { file with bytes := file.bytes ++ bytes, modified := written_at } }

/-- The message of `BoundedBuffer`. -/
def exceeds_limit : String := "serialized data exceeds byte limit"

/-- `serde_json::to_writer` into a `BoundedBuffer`, and the newline behind it. -/
def serialize (record : JournalRecord X) : Except JournalError Bytes :=
  if max_record_bytes < (C.record_bytes record).length then .error (.serialization exceeds_limit)
  else if max_record_bytes < (C.line record).length then
    .error (.io ⟨.invalid_data, exceeds_limit⟩)
  else .ok (C.line record)

/-- The part of `append` after the record is serialized: write, index, advance. -/
def write_record (env : AppendEnv) (next : ℕ) (id : CommandId) (bytes : Bytes)
    (writer : WriterState) (disk : Disk) : Except JournalError Unit × WriterState × Disk :=
  match env.write with
  | .write written e => (.error (.io e), writer, disk.write (bytes.take written) env.written_at)
  | fault =>
    let disk := disk.write bytes env.written_at
    let writer := { writer with
      offsets := writer.offsets.push id (.new C writer.file_len bytes)
      file_len := writer.file_len + bytes.length }
    match fault with
    | .metadata e => (.error (.io e), writer, disk)
    | _ => (.ok (), { writer with modified := env.written_at, next_sequence := next }, disk)

/-- `append` of a record for `id`; its sequence number is the writer's next. -/
def append (env : AppendEnv) (id : CommandId) (content : X)
    (writer : WriterState) (disk : Disk) : Except JournalError Unit × WriterState × Disk :=
  match refresh C max_record_bytes env.toOpenEnv writer disk with
  | (.error e, disk) => (.error e, writer, disk)
  | (.ok writer, disk) =>
    if writer.archived_offsets.contains_key id then (.error .uncertain_command, writer, disk)
    else match checked_succ writer.next_sequence with
      | none => (.error .uncertain_command, writer, disk)
      | some next =>
        match serialize C max_record_bytes ⟨writer.next_sequence, id, content⟩ with
        | .error e => (.error e, writer, disk)
        | .ok bytes => write_record C env next id bytes writer disk

/-! ## History -/

/-- `seek` and `read_exact`; `none` at an unexpected end. -/
def read_exact (bytes : Bytes) (offset len : ℕ) : Option Bytes :=
  if offset + len ≤ bytes.length then some ((bytes.drop offset).take len) else none

/-- `read_indexed_records`: `none` when a line is not what was indexed. -/
def read_indexed_records (bytes : Bytes) (id : CommandId) :
    List IndexedRecord → Option (List (JournalRecord X))
  | [] => some []
  | entry :: entries =>
    match read_exact bytes entry.offset entry.len with
    | none => none
    | some line =>
      if line.getLast? ≠ some newline ∨ C.sha256 line ≠ entry.digest then none
      else match C.decode_record line with
        | none => none
        | some record =>
          if record.command_id ≠ id then none
          else (read_indexed_records bytes id entries).map (record :: ·)

/-- One archived line of `history`. Archives are never removed, so its archive is there. -/
def read_archived (archives : List Bytes) (id : CommandId) (scan : JournalScan X)
    (entry : ArchivedRecordLocation) : JournalScan X :=
  match archives[entry.archive]? with
  | none => { scan with incompatible_records := scan.incompatible_records + 1 }
  | some bytes =>
    let line := read_until ((bytes.drop entry.offset).take entry.len)
    let scan := if line.getLast? = some newline then scan else { scan with torn_tail := true }
    match C.decode_record line with
    | none => scan
    | some record =>
      if record.command_id = id then { scan with records := scan.records ++ [record] }
      else { scan with incompatible_records := scan.incompatible_records + 1 }

/-- What the file system does during a history read: the refresh, a failing read, and the archiving
and opening after in-place damage. -/
structure HistoryEnv where
  refresh : OpenEnv := {}
  read : Option IoError := none
  reopen : OpenEnv := {}

/-- The end of `history`: what the archives hold of the command, never without a mark when there
is an archive. -/
def archived_history (env : HistoryEnv) (id : CommandId) (writer : WriterState) (disk : Disk) :
    Except JournalError (JournalScan X) :=
  let entries := writer.archived_offsets.entries id
  match env.read, entries with
  | some e, _ :: _ => .error (.io e)
  | _, _ =>
    let scan := entries.foldl (read_archived C disk.archives id)
      { torn_tail := writer.archived_torn_tail
        incompatible_records := writer.archived_incompatible_records }
    if writer.archives = 0 then .ok scan
    else .ok { scan with incompatible_records := max scan.incompatible_records 1 }

/-- The part of `history` after in-place damage was found: archive the entry and open a fresh
one. -/
def archive_and_reopen (disk : Disk) : Except JournalError WriterState × Disk :=
  match env.fails .before with
  | some e => (.error (.io e), disk)
  | none => open_writer C max_record_bytes env disk.archive_damaged_journal

def history (env : HistoryEnv) (id : CommandId) (writer : WriterState)
    (disk : Disk) : Except JournalError (JournalScan X) × WriterState × Disk :=
  match refresh C max_record_bytes env.refresh writer disk with
  | (.error e, disk) => (.error e, writer, disk)
  | (.ok writer, disk) =>
    if writer.offsets.contains_key id && !writer.archived_offsets.contains_key id then
      match env.read with
      | some e => (.error (.io e), writer, disk)
      | none =>
        -- after `refresh` the writer's handle is the entry
        let bytes := disk.entry.elim [] JournalFile.bytes
        match read_indexed_records C bytes id (writer.offsets.entries id) with
        | some records => (.ok { records := records }, writer, disk)
        | none =>
          -- in-place damage can leave identity, size and mtime unchanged
          match archive_and_reopen C max_record_bytes env.reopen disk with
          | (.error e, disk) => (.error e, writer, disk)
          | (.ok writer, disk) => (archived_history C env id writer disk, writer, disk)
    else (archived_history C env id writer disk, writer, disk)

end

end BobbyBrowser.CommandJournal
