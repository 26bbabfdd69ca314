/-
The durable job store (`crates/task-scheduler/src/store.rs`).

A job journal is a JSONL file with one line for each transition of a job, and
the store keeps an index of the latest state of every job in memory. `append`
writes a line and moves the index; from time to time the file is replaced by one
that holds only the index. `open` rebuilds the index: it takes the last valid
line of every job, never believes a job that was `Running` when the process
stopped, and believes nothing at all of a file with any damage.

Unlike the command journal, the store does not look at the file again before it
writes: what an earlier append left behind is still there when the next one
comes.
-/
import BobbyBrowser.Job
import BobbyBrowser.JsonlSequence

set_option autoImplicit false

namespace BobbyBrowser.Jobs

open Lines Jsonl

/-! ## Records and their text -/

def JOURNAL_SCHEMA_VERSION : ℕ := 1

/-- `JournalRecord`, without the time of recording. -/
structure JournalRecord where
  schema_version : ℕ := JOURNAL_SCHEMA_VERSION
  sequence : ℕ
  event : JobEvent
  job : Job
  deriving DecidableEq

/-- What is read back of a record. -/
def JournalRecord.durable (r : JournalRecord) : JournalRecord := { r with job := r.job.durable }

inductive StoreError
  | integrity
  | io (error : IoError)
  deriving DecidableEq, Repr

/-- `StoreError::to_string`. -/
def StoreError.message : StoreError → String
  | .integrity => "job journal integrity requires repair before mutation"
  | .io error => "store I/O failed: " ++ error.message

/-- The byte a JSON object begins with. -/
def object_start : UInt8 := 0x7b

/-- `serde_json` on job records. A record is an object on one line and is read back without the
latch, which is not serialized. What follows an unfinished or finished object is never read as a
record: a value that is not closed by the end of the text, or that has more behind it, is an error.
-/
structure Codec where
  record_bytes : JournalRecord → Bytes
  decode_record : Bytes → Option JournalRecord
  decode_record_bytes : ∀ r, decode_record (record_bytes r) = some r.durable
  newline_notMem_record : ∀ r, newline ∉ record_bytes r
  record_head : ∀ r, (record_bytes r).head? = some object_start
  decode_glued : ∀ (text : Bytes) (r : JournalRecord), text.head? = some object_start →
    decode_record (text ++ record_bytes r) = none

section

variable (C : Codec)

/-- The line of a record. -/
def Codec.line (r : JournalRecord) : Bytes := C.record_bytes r ++ [newline]

/-! ## The scan -/

/-- `Scan`, without the counts that only `inspect` reports. -/
structure Scan where
  jobs : List Job := []
  torn_tail : Bool := false
  max_sequence : Option ℕ := none
  incompatible_records : ℕ := 0

/-- The event is one that leads to the job's status. -/
def JournalRecord.event_matches_status (record : JournalRecord) : Bool :=
  record.event = .from_status record.job.status
    || (record.event = .submitted && record.job.status = .pending)

/-- The `issue` of `JobDecoder::decode`. -/
def JournalRecord.issue (record : JournalRecord) : Option LedgerIssueKind :=
  if record.schema_version ≠ JOURNAL_SCHEMA_VERSION then some .schema
  else if !record.job.has_valid_resolution || !record.event_matches_status then
    some .invalid_state
  else none

/-- What `JobDecoder::decode` reports of a record it could read. -/
def JournalRecord.observation (record : JournalRecord) : RecordObservation :=
  match record.issue with
  | some kind => .rejected (some record.sequence) kind
  | none => .accepted (some record.sequence)

/-- `JobDecoder`, with `latest` as its state. -/
def job_decoder (collect_jobs : Bool) : LedgerDecoder (List Job) JournalRecord where
  decode latest line :=
    let body := line.bytes.dropLast
    (if body = [] then ⟨.skip, none⟩
    else match C.decode_record body with
      | none => ⟨.rejected none .decode, none⟩
      | some record => ⟨record.observation, some record⟩, latest)
  apply latest _ prepared verdict :=
    .ok (match prepared.record with
      | some record =>
        if collect_jobs && verdict = .valid then Keyed.insert Job.id record.job latest else latest
      | none => latest, .continue)

/-- The entry at the journal's path. -/
abbrev Disk := Option Bytes

/-- `scan_path`. A missing file is an empty scan. -/
def scan_path (disk : Disk) (collect_jobs : Bool) : Except IoError Scan :=
  match disk with
  | none => .ok {}
  | some bytes =>
    match scan_jsonl ⟨none, .increasing⟩ (job_decoder C collect_jobs) bytes [] with
    | .error e => .error e
    | .ok (health, latest) => .ok
      { jobs := latest
        torn_tail := 0 < health.issue_count .torn_tail
        max_sequence := health.max_observed_sequence
        incompatible_records := health.incompatible_records }

/-! ## Compaction -/

def COMPACT_THRESHOLD : ℕ := 4096

def COMPACT_RETAINED_TERMINAL : ℕ := 1024

/-- The records `compact_journal` writes: the oldest job first, numbered from zero. -/
def compact_records (jobs : List Job) : List JournalRecord :=
  (jobs.insertionSort fun a b => a.created_at ≤ b.created_at).mapIdx fun sequence job =>
    { sequence := sequence, event := .from_status job.status, job := job }

/-- What `compact_journal` has in its temporary file when it renames it. The writes are buffered: one
that fails is reported to the next, and behind the last there is only `sync_all`, which reports
nothing. With `kept` that last write has failed, and so much of its line is in the file. -/
def Codec.published (kept : Option ℕ) (jobs : List Job) : Bytes :=
  let lines := (compact_records jobs).map C.line
  match kept with
  | none => lines.flatten
  | some n => lines.dropLast.flatten ++ (lines.getLast?.getD []).take n

/-- `compact_journal`: publish the jobs under a temporary name and rename. A failure that is reported
comes before or after the rename. -/
def compact_journal (failure : Option (Bool × IoError)) (kept : Option ℕ) (jobs : List Job)
    (disk : Disk) : Except StoreError Unit × Disk :=
  match failure with
  | some (false, e) => (.error (.io e), disk)
  | some (true, e) => (.error (.io e), some (C.published kept jobs))
  | none => (.ok (), some (C.published kept jobs))

/-- When a job ended, for the order in which terminal jobs are dropped. -/
def Job.ended_at (job : Job) : Ledger.Instant := job.completed_at.getD job.created_at

/-- The terminal jobs, the one that ended first in front. -/
def terminal_jobs (jobs : List Job) : List Job :=
  (jobs.filter fun job => job.status.is_terminal).insertionSort fun a b => a.ended_at ≤ b.ended_at

/-- The terminal jobs beyond `retained`, oldest first. -/
def excess_terminal (retained : ℕ) (jobs : List Job) : List JobId :=
  let terminal := terminal_jobs jobs
  (terminal.take (terminal.length - retained)).map Job.id

/-- Drop terminal jobs beyond `retained`, oldest first. -/
def prune_index (retained : ℕ) (jobs : List Job) : List Job :=
  Keyed.removeAll Job.id (excess_terminal retained jobs) jobs

/-! ## The store -/

/-- `JournalJobStore`: the index, the next sequence number, and whether the writer's file is the
one at the journal's path. -/
structure JournalJobStore where
  index : List Job
  next_sequence : ℕ
  attached : Bool := true

/-- What the file system does to a compaction and to the two steps after it. -/
structure CompactEnv where
  compact : Option (Bool × IoError) := none
  /-- How much is kept of the last line, if its write fails unnoticed. -/
  kept : Option ℕ := none
  reopen : Option IoError := none
  rescan : Option IoError := none

/-- The rename of the compaction happens. -/
def CompactEnv.renames (env : CompactEnv) : Bool :=
  match env.compact with
  | some (renamed, _) => renamed
  | none => true

/-- Compact, then open the path again and scan it, so that later appends never target an unlinked
file. Returns the compaction's own result and the scan, whether the writer is at the path, and the
disk. -/
def compact_and_rescan (env : CompactEnv) (jobs : List Job) (collect_jobs attached : Bool)
    (disk : Disk) : Except StoreError (Except StoreError Unit × Scan) × Bool × Disk :=
  let (result, disk) := compact_journal C env.compact env.kept jobs disk
  match env.reopen with
  | some e => (.error (.io e), attached && !env.renames, disk)
  | none =>
    match env.rescan with
    | some e => (.error (.io e), true, disk)
    | none =>
      match scan_path C disk collect_jobs with
      | .error e => (.error (.io e), true, disk)
      | .ok scan => (.ok (result, scan), true, disk)

/-- What the file system does to an append: a write that fails after some bytes, and the
compaction that may follow. -/
structure AppendEnv extends CompactEnv where
  write : Option (ℕ × IoError) := none

namespace JournalJobStore

/-- Bytes at the end of the writer's file; if that is not the entry, they are lost with it. -/
def write (store : JournalJobStore) (bytes : Bytes) (disk : Disk) : Disk :=
  if store.attached then disk.map (· ++ bytes) else disk

/-- The part of `append` behind the write: compact once enough lines are superfluous. -/
def compact_if_due (env : CompactEnv) (store : JournalJobStore) (disk : Disk) :
    Except StoreError Unit × JournalJobStore × Disk :=
  if store.next_sequence < store.index.length + COMPACT_THRESHOLD then (.ok (), store, disk)
  else
    match compact_and_rescan C env store.index false store.attached disk with
    | (.error e, attached, disk) => (.error e, { store with attached := attached }, disk)
    | (.ok (result, scan), attached, disk) =>
      match scan.max_sequence.bind checked_succ with
      | none => (.error .integrity, { store with attached := attached }, disk)
      | some n => (result, { store with attached := attached, next_sequence := n }, disk)

/-- The record an append writes. -/
def next_record (store : JournalJobStore) (event : JobEvent) (job : Job) : JournalRecord :=
  { sequence := store.next_sequence, event := event, job := job }

def append (env : AppendEnv) (event : JobEvent) (job : Job) (store : JournalJobStore)
    (disk : Disk) : Except StoreError Unit × JournalJobStore × Disk :=
  match checked_succ store.next_sequence with
  | none => (.error .integrity, store, disk)
  | some next =>
    let bytes := C.line (store.next_record event job)
    match env.write with
    | some (written, e) => (.error (.io e), store, store.write (bytes.take written) disk)
    | none =>
      compact_if_due C env.toCompactEnv
        { store with next_sequence := next, index := Keyed.insert Job.id job store.index }
        (store.write bytes disk)

/-- The event under which `put` records a job. -/
def put_event (job : Job) : JobEvent :=
  if job.status = .pending then .submitted else .from_status job.status

def put (env : AppendEnv) (job : Job) (store : JournalJobStore) (disk : Disk) :
    Except StoreError Unit × JournalJobStore × Disk :=
  store.append C env (put_event job) job disk

def update (env : AppendEnv) (job : Job) (event : JobEvent) (store : JournalJobStore)
    (disk : Disk) : Except StoreError Unit × JournalJobStore × Disk :=
  store.append C env event job disk

def prune_terminal (env : CompactEnv) (retained : ℕ) (store : JournalJobStore) (disk : Disk) :
    Except StoreError Unit × JournalJobStore × Disk :=
  if (terminal_jobs store.index).length ≤ retained then (.ok (), store, disk)
  else
    match compact_and_rescan C env (prune_index retained store.index) true store.attached disk with
    | (.error e, attached, disk) => (.error e, { store with attached := attached }, disk)
    | (.ok (result, scan), attached, disk) =>
      (result,
        { index := scan.jobs
          next_sequence := (scan.max_sequence.bind checked_succ).getD 0
          attached := attached }, disk)

/-! ## Opening -/

/-- The state in which a job found in the journal is handed out. -/
def reopened (damaged : Bool) (job : Job) : Job :=
  let job :=
    if damaged then
      { job with resolution := none }.require_reconciliation
        "job history was damaged and archived; reconciliation required"
    else if job.status = .running then
      job.require_reconciliation "execution interrupted; outcome must be reconciled"
    else job
  if job.status = .reconciliation_required then
    job.require_reconciliation (job.error.getD "uncertain execution")
  else job

/-- What the file system does to an open. -/
structure OpenEnv where
  scan : Option IoError := none
  /-- A failure while archiving, before or after the rename. -/
  archive : Option (Bool × IoError) := none
  compact : Option (Bool × IoError) := none
  /-- How much the compaction keeps of its last line, if that write fails unnoticed. -/
  kept : Option ℕ := none
  file : Option IoError := none
  /-- The appends that record interrupted jobs, in order. -/
  recovered : ℕ → AppendEnv := fun _ => {}

/-- The scan found something that makes the whole journal uncertain. -/
def damaged (scan : Scan) : Bool :=
  scan.torn_tail || 0 < scan.incompatible_records || scan.max_sequence = some u64_max

/-- `archive_damaged_journal`: the file is renamed away and never read again. -/
def archive (failure : Option (Bool × IoError)) (disk : Disk) : Except StoreError Unit × Disk :=
  match failure with
  | some (false, e) => (.error (.io e), disk)
  | some (true, e) => (.error (.io e), none)
  | none => (.ok (), none)

/-- The `Recovered` appends at the end of `open`. -/
def append_recovered (env : ℕ → AppendEnv) :
    ℕ → List Job → JournalJobStore → Disk → Except StoreError JournalJobStore × Disk
  | _, [], store, disk => (.ok store, disk)
  | n, job :: jobs, store, disk =>
    match store.append C (env n) .recovered job disk with
    | (.error e, _, disk) => (.error e, disk)
    | (.ok (), store, disk) => append_recovered env (n + 1) jobs store disk

/-- The end of `open`: open or create the file, and record the interrupted jobs. -/
def finish_open (env : OpenEnv) (store : JournalJobStore) (recovered : List Job) (disk : Disk) :
    Except StoreError JournalJobStore × Disk :=
  match env.file with
  | some e => (.error (.io e), disk)
  | none => append_recovered C env.recovered 0 recovered store (some (disk.getD []))

/-- The interrupted jobs of an intact journal. -/
def interrupted (jobs : List Job) : List Job :=
  (jobs.filter fun job => job.status = .running).map (reopened false)

/-- `JournalJobStore::open`. -/
def open_store (env : OpenEnv) (disk : Disk) : Except StoreError JournalJobStore × Disk :=
  match env.scan with
  | some e => (.error (.io e), disk)
  | none =>
    match scan_path C disk true with
    | .error e => (.error (.io e), disk)
    | .ok scan =>
      if damaged scan then
        match archive env.archive disk with
        | (.error e, disk) => (.error e, disk)
        | (.ok (), disk) =>
          let index := scan.jobs.map (reopened true)
          match compact_journal C env.compact env.kept index disk with
          | (.error e, disk) => (.error e, disk)
          | (.ok (), disk) =>
            finish_open C env { index := index, next_sequence := index.length } [] disk
      else if scan.max_sequence.any (COMPACT_THRESHOLD ≤ ·) then
        let index := prune_index COMPACT_RETAINED_TERMINAL (scan.jobs.map (reopened false))
        match compact_journal C env.compact env.kept index disk with
        | (.error e, disk) => (.error e, disk)
        | (.ok (), disk) =>
          finish_open C env { index := index, next_sequence := index.length }
            (interrupted scan.jobs) disk
      else
        finish_open C env
          { index := scan.jobs.map (reopened false)
            next_sequence := (scan.max_sequence.bind checked_succ).getD 0 }
          (interrupted scan.jobs) disk

/-- The terminal jobs that an open drops from a journal that has grown long. -/
def open_prunes (env : OpenEnv) (disk : Disk) : List JobId :=
  match scan_path C disk true with
  | .error _ => []
  | .ok scan =>
    if damaged scan || !scan.max_sequence.any (COMPACT_THRESHOLD ≤ ·)
        || env.compact.any (!·.1) then []
    else excess_terminal COMPACT_RETAINED_TERMINAL (scan.jobs.map (reopened false))

/-- A compaction of the open, its own or that of a `Recovered` append, may lose its last line. -/
def open_loses (env : OpenEnv) (disk : Disk) : Bool :=
  match scan_path C disk true with
  | .error _ => false
  | .ok scan => env.kept.isSome
    || (List.range (interrupted scan.jobs).length).any fun n => (env.recovered n).kept.isSome

end JournalJobStore

end

end BobbyBrowser.Jobs
