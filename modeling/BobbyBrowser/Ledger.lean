/-
The idempotency ledger on disk (`crates/interface-core/src/idempotency/durable.rs`).

A version-2 ledger is one header line, which holds a snapshot of the entries,
followed by one line for each change since. Every line carries a SHA-256 over
its content, every change carries the checksum of the line before it and a
consecutive sequence number, and the reader stops at the first line that breaks
any of this. A version-1 ledger is a bare snapshot.

Three things come from outside the workspace and are parameters: `serde_json`
(the text of a record and the way back), SHA-256, and the clock. What the
development assumes of the first is the list of laws of `Codec`; of SHA-256 it
assumes nothing.
-/
import BobbyBrowser.Jsonl
import BobbyBrowser.Keyed
import BobbyBrowser.Outcomes

set_option autoImplicit false

namespace BobbyBrowser.Ledger

open Lines Jsonl

/-! ## What a ledger holds -/

/-- `DateTime<Utc>` as nanoseconds since the epoch. -/
abbrev Instant := ℕ

/-- The last instant `chrono` can represent, `+262142-12-31T23:59:59.999999999Z`. -/
def max_instant : Instant := 8210266876799999999999

/-- `PrincipalId`, a UUID. -/
abbrev PrincipalId := Fin (2 ^ 128)

/-- `[u8; 32]`, a SHA-256 digest. -/
abbrev Digest := Vector UInt8 32

/-- `IdempotencyKey`: 1 to 128 printable ASCII bytes, checked on construction and on decoding. -/
structure IdempotencyKey where
  bytes : Bytes
  nonempty : 1 ≤ bytes.length
  bounded : bytes.length ≤ 128
  printable : ∀ b ∈ bytes, 0x20 ≤ b ∧ b ≤ 0x7e
  deriving DecidableEq

inductive InterfaceOperation
  | runtime_info | create_session | read_session | delete_session | open_page | read_page
  | close_page | submit_command | create_checkpoint | read_checkpoint | recover_workflow
  | read_artifact | read_context | capture_artifact | subscribe_events | submit_job | read_job
  | cancel_job | resolve_job | issue_principal | revoke_principal
  deriving DecidableEq, Repr

/-- `Key`: what an entry is filed under. -/
abbrev Key := PrincipalId × IdempotencyKey

instance : LawfulBEq Key := inferInstance

section

variable (V : Type)

/-- `DurableState`, with `V` for `serde_json::Value`. -/
inductive DurableState
  | reserved
  | unresolved
  | retained (value : V)
  deriving DecidableEq

structure DurableEntry where
  principal_id : PrincipalId
  key : IdempotencyKey
  operation : InterfaceOperation
  canonical_sha256 : Digest
  expires_at : Option Instant
  last_used : ℕ
  state : DurableState V
  deriving DecidableEq

/-- `DurableSnapshot`, the whole of a version-1 ledger. -/
structure DurableSnapshot where
  schema_version : ℕ
  entries : List (DurableEntry V)

/-- `Header`, the first line of a version-2 ledger. -/
structure Header where
  schema_version : ℕ
  entries : List (DurableEntry V)
  sha256 : Digest

/-- `Change`: the entries written and the keys dropped since the line before. -/
structure Change where
  sequence : ℕ
  previous_sha256 : Digest
  updates : List (DurableEntry V)
  removes : List Key

/-- `Record`, every later line of a version-2 ledger. -/
structure Record where
  schema_version : ℕ
  change : Change V
  sha256 : Digest

end

/-- The key an entry is filed under. -/
def DurableEntry.identity {V : Type} (e : DurableEntry V) : Key := (e.principal_id, e.key)

def MAX_LINE_BYTES : ℕ := (64 * 1024 + 2048) * 4096

def COMPACT_RECORDS : ℕ := 4096

def COMPACT_BYTES : ℕ := 16 * 1024 * 1024

/-- The instants and counters of an entry are ones the types of the source can hold. -/
def DurableEntry.Representable {V : Type} (e : DurableEntry V) : Prop :=
  (∀ t ∈ e.expires_at, t ≤ max_instant) ∧ e.last_used < 2 ^ 64

/-! ## The text of a ledger -/

/-- The length of a retained value's text. -/
def value_length {V : Type} (value_bytes : V → Bytes) : DurableState V → ℕ
  | .retained v => (value_bytes v).length
  | _ => 0

/-- `serde_json` and SHA-256 as the ledger uses them.

The laws say that `serde_json` reads back what it wrote, with or without the newline that ends
the line, that the empty text is no JSON, that compact JSON holds no raw newline, that a header
is not a record (`Record` has a `change` field and denies unknown ones), and how long a text can
get. The last two bounds are generous: an entry takes a 36-byte UUID, a key of at most 256 bytes
when escaped, an operation name, a digest of at most 129 bytes, an RFC 3339 instant and a 20-digit
counter next to its value, which is below 1 KiB, and a removed key is below 512 bytes. -/
structure Codec (V : Type) where
  value_bytes : V → Bytes
  header_bytes : Header V → Bytes
  record_bytes : Record V → Bytes
  decode_header : Bytes → Option (Header V)
  decode_record : Bytes → Option (Record V)
  decode_snapshot : Bytes → Option (DurableSnapshot V)
  /-- `canonical_sha256` of `DurableSnapshot { schema_version: 2, entries }`. -/
  snapshot_sha256 : List (DurableEntry V) → Digest
  /-- `canonical_sha256` of a `Change`. -/
  change_sha256 : Change V → Digest
  decode_header_line : ∀ h, decode_header (header_bytes h ++ [newline]) = some h
  decode_header_nil : decode_header [] = none
  decode_record_line : ∀ r, decode_record (record_bytes r ++ [newline]) = some r
  decode_record_header_line : ∀ h, decode_record (header_bytes h ++ [newline]) = none
  newline_notMem_header : ∀ h, newline ∉ header_bytes h
  newline_notMem_record : ∀ r, newline ∉ record_bytes r
  header_length : ∀ h, h.schema_version < 2 ^ 16 → (∀ e ∈ h.entries, e.Representable) →
    (header_bytes h).length
      < 1024 + (h.entries.map fun e => 1024 + value_length value_bytes e.state).sum
  record_length : ∀ r, r.schema_version < 2 ^ 16 → r.change.sequence < 2 ^ 64 →
    (∀ e ∈ r.change.updates, e.Representable) →
    (record_bytes r).length
      < 1024 + (r.change.updates.map fun e => 1024 + value_length value_bytes e.state).sum
        + 512 * r.change.removes.length

/-! ## Reading a ledger -/

section

variable {V : Type} (C : Codec V)

/-- The payload-free reasons why durable history cannot authorize writes. -/
inductive IntegrityIssue
  | unreadable_ledger
  | invalid_ledger_state
  | ledger_capacity_exceeded
  | duplicate_ledger_key
  | ledger_write_failed
  deriving DecidableEq, Repr

def invalid : IoError := ⟨.invalid_data, "idempotency history requires repair"⟩

variable (now : Instant)

/-- An entry whose time has come. -/
def DurableEntry.expired (e : DurableEntry V) : Bool := e.expires_at.any (· ≤ now)

variable (entries : List (DurableEntry V))

/-- The entries whose time has not come. -/
def live : List (DurableEntry V) := entries.filter fun e => !e.expired now

/-- The checks `validate` makes of one entry before it looks at its key. -/
def validate_entry (e : DurableEntry V) : Except IntegrityIssue Unit :=
  match e.state with
  | .retained value =>
    if 64 * 1024 < (C.value_bytes value).length then .error .ledger_capacity_exceeded else .ok ()
  | _ => if e.expires_at.isSome then .error .invalid_ledger_state else .ok ()

/-- The loop of `validate`, with its set of keys and its count for each principal. -/
def validate_loop (now : Instant) :
    List (DurableEntry V) → List Key → (PrincipalId → ℕ) → Except IntegrityIssue Unit
  | [], _, _ => .ok ()
  | e :: es, keys, counts =>
    match validate_entry C e with
    | .error issue => .error issue
    | .ok () =>
      -- Expired successes cannot authorize replay, but unresolved keys never expire.
      if e.expired now then validate_loop now es keys counts
      else if e.identity ∈ keys then .error .duplicate_ledger_key
      else
        let count := counts e.principal_id + 1
        if 256 < count ∨ 4096 < keys.length + 1 then .error .ledger_capacity_exceeded
        else validate_loop now es (e.identity :: keys)
          (fun p => if p = e.principal_id then count else counts p)

def validate : Except IntegrityIssue Unit := validate_loop C now entries [] fun _ => 0

/-- `V2Decoder`, with its map of entries as a keyed list. -/
structure V2Decoder (V : Type) where
  header : Option (Header V)
  entries : List (DurableEntry V)
  sequence : ℕ
  sha256 : Digest
  appended_bytes : ℕ

inductive V2Prepared (V : Type)
  | header (entries : List (DurableEntry V)) (sha256 : Digest)
  | change (record : Record V)

def rejected (kind : LedgerIssueKind) (sequence : Option ℕ) : PreparedRecord (V2Prepared V) :=
  ⟨.rejected sequence kind, none⟩

/-- What `decode` returns for a record it accepts. -/
def accepted_change (record : Record V) : PreparedRecord (V2Prepared V) :=
  ⟨.accepted (some record.change.sequence), some (.change record)⟩

/-- Collecting the header's entries, which fails at the second entry of a key. -/
def collect_entries : List (DurableEntry V) → List (DurableEntry V) → Option (List (DurableEntry V))
  | [], entries => some entries
  | e :: es, entries =>
    if (Keyed.get DurableEntry.identity e.identity entries).isSome then none
    else collect_entries es (Keyed.insert DurableEntry.identity e entries)

/-- The header branch of `V2Decoder::decode`. -/
def decode_header_record (header : Header V) : PreparedRecord (V2Prepared V) :=
  if header.schema_version ≠ 2 then rejected .schema none
  else if header.sha256 ≠ C.snapshot_sha256 header.entries then rejected .checksum none
  else match validate C now header.entries with
    | .error _ => rejected .invalid_state none
    | .ok () =>
      match collect_entries header.entries [] with
      | none => rejected .invalid_state none
      | some entries => ⟨.accepted none, some (.header entries header.sha256)⟩

/-- The loop of `decode` over the removed keys, with its set of changed keys. -/
def check_removes (entries : List (DurableEntry V)) : List Key → List Key → Option (List Key)
  | [], changed => some changed
  | k :: ks, changed =>
    if k ∈ changed ∨ (Keyed.get DurableEntry.identity k entries).isNone then none
    else check_removes entries ks (k :: changed)

/-- The loop of `decode` over the updates, which also counts the entries that are new. -/
def check_updates (entries : List (DurableEntry V)) :
    List (DurableEntry V) → List Key → ℕ → Option ℕ
  | [], _, size => some size
  | e :: es, changed, size =>
    if e.identity ∈ changed then none
    else check_updates entries es (e.identity :: changed)
      (if (Keyed.get DurableEntry.identity e.identity entries).isNone then size + 1 else size)

/-- The record branch of `V2Decoder::decode`. -/
def decode_change_record (d : V2Decoder V) (bytes : Bytes) : PreparedRecord (V2Prepared V) :=
  match C.decode_record bytes with
  | none => rejected .decode none
  | some record =>
    let sequence := some record.change.sequence
    if record.schema_version ≠ 2 then rejected .schema sequence
    else if record.change.previous_sha256 ≠ d.sha256
        ∨ C.change_sha256 record.change ≠ record.sha256 then rejected .checksum sequence
    else match check_removes d.entries record.change.removes [] with
      | none => rejected .invalid_state sequence
      | some changed =>
        match check_updates d.entries record.change.updates changed
            (d.entries.length - record.change.removes.length) with
        | none => rejected .invalid_state sequence
        | some size =>
          if 4096 < size ∨ COMPACT_RECORDS ≤ d.sequence
              ∨ COMPACT_BYTES + MAX_LINE_BYTES < d.appended_bytes + bytes.length then
            rejected .invalid_state sequence
          else accepted_change record

/-- `V2Decoder::decode`; the header was parsed when the format was detected. -/
def V2Decoder.decode (d : V2Decoder V) (line : JsonlLine) :
    PreparedRecord (V2Prepared V) × V2Decoder V :=
  match d.header with
  | some header => (decode_header_record C now header, { d with header := none })
  | none => (decode_change_record C d line.bytes, d)

/-- Dropping the removed keys and filing the updates. -/
def Change.apply (change : Change V) (entries : List (DurableEntry V)) : List (DurableEntry V) :=
  Keyed.insertAll DurableEntry.identity change.updates
    (Keyed.removeAll DurableEntry.identity change.removes entries)

def V2Decoder.apply (d : V2Decoder V) (line : JsonlLine)
    (prepared : PreparedRecord (V2Prepared V)) (verdict : SequenceVerdict) :
    Except IoError (V2Decoder V × ScanControl) :=
  if verdict = .invalid then .ok (d, .stop)
  else match prepared.record with
    | some (.header entries sha256) =>
      .ok ({ d with sha256 := sha256, entries := entries }, .continue)
    | some (.change record) =>
      .ok ({ d with
        entries := record.change.apply d.entries
        sequence := record.change.sequence
        sha256 := record.sha256
        appended_bytes := d.appended_bytes + line.bytes.length }, .continue)
    | none => .error invalid

/-- The version-2 decoder at a moment of the clock. -/
def v2_decoder : LedgerDecoder (V2Decoder V) (V2Prepared V) where
  decode := V2Decoder.decode C now
  apply := V2Decoder.apply

/-- How a version-2 ledger is scanned. -/
def v2_options : ScanOptions := ⟨some MAX_LINE_BYTES, .consecutive 1⟩

/-- `[0; 32]`. -/
def zero_sha256 : Digest := Vector.replicate 32 0

structure Loaded (V : Type) where
  entries : List (DurableEntry V)
  format : ℕ
  sequence : ℕ
  sha256 : Digest
  appended_bytes : ℕ

/-- The version-1 branch of `load`: a whole snapshot, including multiline or no-newline input. -/
def load_snapshot (bytes : Bytes) : Except IoError (Option (Loaded V)) :=
  if MAX_LINE_BYTES < bytes.length then .error invalid
  else match C.decode_snapshot bytes with
    | none => .error invalid
    | some snapshot =>
      if snapshot.schema_version ≠ 1 then .error invalid
      else .ok (some ⟨snapshot.entries, 1, 0, zero_sha256, 0⟩)

/-- `load`, on the contents of the file, or `none` when there is no file. -/
def load (file : Option Bytes) : Except IoError (Option (Loaded V)) :=
  match file with
  | none => .ok none
  | some bytes =>
    let first := read_jsonl_line (some MAX_LINE_BYTES) bytes
    let header := match first.1 with
      | .complete first_bytes | .torn first_bytes => C.decode_header first_bytes
      | .eof => C.decode_header []
      | .too_long => none
    match first.1, header with
    | .too_long, _ => .error invalid
    | _, none => load_snapshot C bytes
    | first_read, some header =>
      match scan_jsonl_prefetched v2_options (v2_decoder C now) first_read first.2
          ⟨some header, [], 0, zero_sha256, 0⟩ with
      | .error e => .error e
      | .ok (health, d) =>
        if health.first_issue.isSome then .error invalid
        else .ok (some ⟨d.entries, 2, d.sequence, d.sha256, d.appended_bytes⟩)

/-! ## Writing a ledger -/

/-- The ledger file: what a reader finds now, and what else a crash may leave in its place,
because the write or the rename that replaced it has not been synced. -/
structure Disk where
  file : Option Bytes
  older : List (Option Bytes)

/-- Everything the file can hold after a crash. -/
def Disk.images (disk : Disk) : List (Option Bytes) := disk.file :: disk.older

/-- How a write to the ledger fails. One failure of the source is left out, the one that `replace` does
not notice: it calls `sync_all` without a flush, which passes over an error of the write that is
still buffered, so that a checkpoint can be reported as written over a file that ends inside its
header line, or is empty. -/
inductive Fault
  | none
  /-- `write_all` stops after `written` bytes; a checkpoint writes to a temporary file. -/
  | write (written : ℕ)
  /-- Every byte is written, or the rename is made, and the sync behind it fails. -/
  | sync
  /-- The checkpoint is in place and cannot be opened for appending. -/
  | reopen
  deriving DecidableEq, Repr

/-- `Journal`; `has_file` says whether there is a handle to append through. -/
structure Journal where
  has_file : Bool
  format : ℕ
  sequence : ℕ
  sha256 : Digest
  appended_bytes : ℕ
  deriving DecidableEq

def Journal.needs_checkpoint (j : Journal) : Bool :=
  j.format ≠ 2 || COMPACT_RECORDS ≤ j.sequence || COMPACT_BYTES ≤ j.appended_bytes

/-- The header line of a checkpoint. -/
def header_line : Bytes := C.header_bytes ⟨2, entries, C.snapshot_sha256 entries⟩ ++ [newline]

/-- The line of a change. -/
def record_line (change : Change V) : Bytes :=
  C.record_bytes ⟨2, change, C.change_sha256 change⟩ ++ [newline]

/-- Appending `bytes` to the file, cut after `written` of them and not synced. -/
def Disk.append_unsynced (disk : Disk) (bytes : Bytes) (written : ℕ) : Disk where
  file := some (disk.file.getD [] ++ bytes.take written)
  older := disk.older ++ (List.range written).map fun k => some (disk.file.getD [] ++ bytes.take k)

/-- `replace`, which writes and syncs a temporary file, renames it and syncs the directory. -/
def Disk.replace (disk : Disk) (bytes : Bytes) (fault : Fault) : Except IoError Unit × Disk :=
  match fault with
  | .none | .reopen => (.ok (), ⟨some bytes, []⟩)
  | .write _ => (.error ⟨.other, "write failed"⟩, disk)
  | .sync => (.error ⟨.other, "sync failed"⟩, ⟨some bytes, disk.images⟩)

def Journal.checkpoint (j : Journal) (disk : Disk) (entries : List (DurableEntry V))
    (fault : Fault) : Except IoError Unit × Journal × Disk :=
  match disk.replace (header_line C entries) fault with
  | (.error e, disk) => (.error e, j, disk)
  | (.ok (), disk) =>
    if fault = .reopen then (.error ⟨.other, "open failed"⟩, j, disk)
    else (.ok (), ⟨true, 2, 0, C.snapshot_sha256 entries, 0⟩, disk)

def Journal.append (j : Journal) (disk : Disk) (updates : List (DurableEntry V))
    (removes : List Key) (fault : Fault) : Except IoError Unit × Journal × Disk :=
  match checked_succ j.sequence with
  | none => (.error invalid, j, disk)
  | some sequence =>
    let change : Change V := ⟨sequence, j.sha256, updates, removes⟩
    let bytes := record_line C change
    if MAX_LINE_BYTES < bytes.length then (.error invalid, j, disk)
    else if !j.has_file then (.error invalid, j, disk)
    else match fault with
      | .write written =>
        (.error ⟨.other, "write failed"⟩, j, disk.append_unsynced bytes written)
      | .sync => (.error ⟨.other, "sync failed"⟩, j, disk.append_unsynced bytes bytes.length)
      | .none | .reopen =>
        (.ok (), { j with
          sequence := j.sequence + 1
          sha256 := C.change_sha256 change
          appended_bytes := j.appended_bytes + bytes.length },
          ⟨some (disk.file.getD [] ++ bytes), []⟩)

/-- `Persistence::open`, once the lock is held: the journal to append to, and the entries, or
why they cannot be used. The clock moves between the header's validation and the last one. -/
def open_journal (loaded_at validated_at : Instant) (disk : Disk) :
    Journal × Except IntegrityIssue (List (DurableEntry V)) :=
  match load C loaded_at disk.file with
  | .error _ => (⟨false, 0, 0, zero_sha256, 0⟩, .error .unreadable_ledger)
  | .ok none => (⟨false, 0, 0, zero_sha256, 0⟩, .ok [])
  | .ok (some loaded) =>
    (⟨loaded.format == 2, loaded.format, loaded.sequence, loaded.sha256, loaded.appended_bytes⟩,
      match validate C validated_at loaded.entries with
      | .error issue => .error issue
      | .ok () => .ok loaded.entries)

end

end BobbyBrowser.Ledger
