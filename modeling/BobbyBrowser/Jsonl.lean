/-
The JSONL reader that every ledger of the workspace shares
(`crates/workflow-journal/src/health.rs` and the physical reads of `lib.rs`).

A ledger is a sequence of newline-terminated records. `read_jsonl_line` reads
one line, `scan` drives a ledger's own decoder over the lines and keeps the
observations in a `LedgerHealth`. The decoder decides what a record means; the
scan decides whether its sequence number may follow the ones before it.

`scan` is written as the source's loop over a reader. `scan_eq` turns it into a
fold over `Lines.lines`, which is the form every ledger below uses.

`usize` and `u64` counters that count lines or bytes of one file are natural
numbers: a file of `2 ^ 64` bytes does not exist, so their saturating additions
never saturate. A record's own sequence number is data and keeps its bound.
-/
import BobbyBrowser.Lines

set_option autoImplicit false

namespace BobbyBrowser.Jsonl

open Option
open List hiding tail
open Lines

/-! ## Errors of the file layer -/

/-- `std::io::ErrorKind`, as far as the ledgers look at it. -/
inductive IoErrorKind
  | not_found
  | invalid_data
  | other
  deriving DecidableEq, Repr

/-- `std::io::Error`. -/
structure IoError where
  kind : IoErrorKind
  message : String
  deriving DecidableEq, Repr

/-! ## One physical read -/

/-- `JsonlRead`: one physical read. Ledgers decide what a torn or oversized line means. -/
inductive JsonlRead
  | eof
  /-- Includes the trailing newline. -/
  | complete (bytes : Bytes)
  /-- Bytes with no trailing newline. -/
  | torn (bytes : Bytes)
  | too_long
  deriving DecidableEq, Repr

/-- A length is within `max_bytes`; `none` is the limit `u64::MAX`, which no file reaches. -/
def within (max_bytes : Option ℕ) (n : ℕ) : Bool :=
  match max_bytes with
  | none => true
  | some m => n ≤ m

/-- What `take(max_bytes + 1)` leaves of a reader. -/
def limited (max_bytes : Option ℕ) (reader : Bytes) : Bytes :=
  match max_bytes with
  | none => reader
  | some m => reader.take (m + 1)

/-- `read_until(b'\n')`: everything up to and including the first newline. -/
def read_until : Bytes → Bytes
  | [] => []
  | b :: bs => if b = newline then [b] else b :: read_until bs

/-- `read_jsonl_line`: one line, capped at `max_bytes`, and where the reader stands after it. -/
def read_jsonl_line (max_bytes : Option ℕ) (reader : Bytes) : JsonlRead × Bytes :=
  let bytes := read_until (limited max_bytes reader)
  let read :=
    if bytes = [] then .eof
    else if !within max_bytes bytes.length then .too_long
    else if bytes.getLast? = some newline then .complete bytes
    else .torn bytes
  (read, reader.drop bytes.length)

/-! ## The scan -/

inductive SequenceRule
  | none
  | increasing
  | consecutive (first : ℕ)
  deriving DecidableEq, Repr

inductive SequenceVerdict
  | unsequenced
  | valid
  | invalid
  deriving DecidableEq, Repr

inductive ScanControl
  | continue
  | stop
  deriving DecidableEq, Repr

inductive LedgerIssueKind
  | torn_tail
  | oversized_line
  | decode
  | schema
  | sequence
  | sequence_exhausted
  | checksum
  | invalid_state
  deriving DecidableEq, Repr

/-- `LedgerIssue`; the scan always knows the line and the offset. -/
structure LedgerIssue where
  kind : LedgerIssueKind
  line : ℕ
  offset : ℕ
  deriving DecidableEq, Repr

/-- `LedgerHealth`: diagnostic observations only; counts do not confer replay authority. -/
structure LedgerHealth where
  bytes_observed : ℕ := 0
  complete_lines : ℕ := 0
  accepted_records : ℕ := 0
  decoded_records : ℕ := 0
  incompatible_records : ℕ := 0
  max_observed_sequence : Option ℕ := none
  last_accepted_sequence : Option ℕ := none
  issue_counts : LedgerIssueKind → ℕ := fun _ => 0
  first_issue : Option LedgerIssue := none

def LedgerHealth.issue_count (health : LedgerHealth) (kind : LedgerIssueKind) : ℕ :=
  health.issue_counts kind

/-- `LedgerHealth::issue`: count it, and remember it when it is the first. -/
def LedgerHealth.issue (health : LedgerHealth) (kind : LedgerIssueKind) (line offset : ℕ) :
    LedgerHealth :=
  { health with
    issue_counts := fun k => if k = kind then health.issue_counts k + 1 else health.issue_counts k
    first_issue := some (health.first_issue.getD ⟨kind, line, offset⟩) }

inductive RecordObservation
  | skip
  | accepted (sequence : Option ℕ)
  | rejected (sequence_hint : Option ℕ) (kind : LedgerIssueKind)
  deriving DecidableEq, Repr

structure PreparedRecord (ρ : Type) where
  observation : RecordObservation
  record : Option ρ

/-- `JsonlLine`: one complete line, including its trailing newline. -/
structure JsonlLine where
  offset : ℕ
  number : ℕ
  bytes : Bytes

/-- `LedgerDecoder`, with the decoder's own fields as `σ`. `decode` prepares and validates;
`apply` commits, and only after the sequence was checked. -/
structure LedgerDecoder (σ ρ : Type) where
  decode : σ → JsonlLine → PreparedRecord ρ × σ
  apply : σ → JsonlLine → PreparedRecord ρ → SequenceVerdict → Except IoError (σ × ScanControl)

structure ScanOptions where
  max_line_bytes : Option ℕ
  sequence_rule : SequenceRule

/-- `u64::MAX`, the sequence number after which a ledger cannot continue. -/
abbrev u64_max : ℕ := 2 ^ 64 - 1

/-- `u64::checked_add(1)`. -/
def checked_succ (n : ℕ) : Option ℕ := if n + 1 ≤ u64_max then some (n + 1) else none

theorem checked_succ_eq_some {n m : ℕ} (h : checked_succ n = some m) : m = n + 1 ∧ n < u64_max := by
  rw [checked_succ] at h
  split at h
  · rename_i hle
    exact ⟨(Option.some.inj h).symm, hle⟩
  · nomatch h

/-- The `sequence_valid` of the scan. -/
def sequence_valid (rule : SequenceRule) (health : LedgerHealth) (sequence : Option ℕ) : Bool :=
  match rule, sequence with
  | .none, _ => true
  | _, none => true
  | .increasing, some n => health.max_observed_sequence.all fun previous => previous < n
  | .consecutive first, some n =>
    (match health.last_accepted_sequence with
      | some previous => checked_succ previous
      | none => some first) = some n

/-- The sequence number a record brings. -/
def RecordObservation.sequence : RecordObservation → Option ℕ
  | .skip => none
  | .accepted sequence => sequence
  | .rejected sequence_hint _ => sequence_hint

/-- The decoder refused the record. -/
def RecordObservation.is_rejected : RecordObservation → Bool
  | .rejected _ _ => true
  | _ => false

/-- The line holds no record. -/
def RecordObservation.is_skipped : RecordObservation → Bool
  | .skip => true
  | _ => false

/-- Count a decoded record, and the issue of a rejected one. -/
def note_prepared {ρ : Type} (health : LedgerHealth) (prepared : PreparedRecord ρ)
    (number offset : ℕ) : LedgerHealth :=
  let health := { health with
    decoded_records := health.decoded_records + (if prepared.record.isSome then 1 else 0) }
  match prepared.observation with
  | .rejected _ kind => health.issue kind number offset
  | _ => health

/-- Keep the largest sequence number seen, and note the one after which none can follow. -/
def observe_sequence (health : LedgerHealth) (sequence : Option ℕ) (number offset : ℕ) :
    LedgerHealth :=
  match sequence with
  | none => health
  | some n =>
    let health := { health with
      max_observed_sequence := some (max (health.max_observed_sequence.getD 0) n) }
    if n = u64_max ∧ health.issue_count .sequence_exhausted = 0 then
      health.issue .sequence_exhausted number offset
    else health

/-- The verdict on a record: `Invalid` when it was rejected or is out of order. -/
def verdict_of (rule : SequenceRule) (observation : RecordObservation) (in_order : Bool) :
    SequenceVerdict :=
  if observation.is_rejected || !in_order then .invalid
  else if observation.sequence.isSome && rule ≠ .none then .valid
  else .unsequenced

/-- Count an accepted record and move the last accepted sequence, or count an incompatible one. -/
def note_verdict (health : LedgerHealth) (observation : RecordObservation)
    (verdict : SequenceVerdict) : LedgerHealth :=
  if verdict = .invalid then
    { health with incompatible_records := health.incompatible_records + 1 }
  else if observation.is_skipped then health
  else { health with
    accepted_records := health.accepted_records + 1
    last_accepted_sequence := observation.sequence.or health.last_accepted_sequence }

/-- What the scan concludes from one prepared record: the health after it and the verdict. -/
def judge {ρ : Type} (rule : SequenceRule) (health : LedgerHealth) (prepared : PreparedRecord ρ)
    (number offset : ℕ) : LedgerHealth × SequenceVerdict :=
  let noted := note_prepared health prepared number offset
  let in_order := sequence_valid rule noted prepared.observation.sequence
  let noted := if in_order then noted else noted.issue .sequence number offset
  let noted := observe_sequence noted prepared.observation.sequence number offset
  let verdict := verdict_of rule prepared.observation in_order
  (note_verdict noted prepared.observation verdict, verdict)

section

variable {σ ρ : Type}

/-- The line that is read next, after what `health` has seen. -/
def next_line (health : LedgerHealth) (bytes : Bytes) : JsonlLine :=
  ⟨health.bytes_observed, health.complete_lines + 1, bytes⟩

/-- Count a complete line and its bytes. -/
def count_line (health : LedgerHealth) (bytes : Bytes) : LedgerHealth :=
  { health with
    bytes_observed := health.bytes_observed + bytes.length
    complete_lines := health.complete_lines + 1 }

variable (options : ScanOptions) (decoder : LedgerDecoder σ ρ)

/-- The body of the scan's loop for one complete line. -/
def scan_line (bytes : Bytes)
    (s : LedgerHealth × σ) : Except IoError ((LedgerHealth × σ) × ScanControl) :=
  let line := next_line s.1 bytes
  let (prepared, d) := decoder.decode s.2 line
  let (health, verdict) := judge options.sequence_rule (count_line s.1 bytes) prepared
    line.number line.offset
  match decoder.apply d line prepared verdict with
  | .error e => .error e
  | .ok (d, control) => .ok ((health, d), control)

/-- What the scan records for a torn tail. -/
def note_torn (bytes : Bytes) (health : LedgerHealth) : LedgerHealth :=
  { health with bytes_observed := health.bytes_observed + bytes.length }.issue .torn_tail
    (health.complete_lines + 1) health.bytes_observed

/-- What the scan records for an oversized line. -/
def note_too_long (health : LedgerHealth) : LedgerHealth :=
  { health with
    bytes_observed := health.bytes_observed + (options.max_line_bytes.getD u64_max + 1) }.issue
    .oversized_line (health.complete_lines + 1) health.bytes_observed

/-- The loop of `scan`, from a line that has been read. Each round reads a line, so the length
of the file is fuel enough. -/
def scan_from (options : ScanOptions) (decoder : LedgerDecoder σ ρ) :
    ℕ → JsonlRead → Bytes → LedgerHealth × σ → Except IoError (LedgerHealth × σ)
  | _, .eof, _, s => .ok s
  | _, .too_long, _, s => .ok (note_too_long options s.1, s.2)
  | _, .torn bytes, _, s => .ok (note_torn bytes s.1, s.2)
  | 0, .complete _, _, s => .ok s
  | fuel + 1, .complete bytes, rest, s =>
    match scan_line options decoder bytes s with
    | .error e => .error e
    | .ok (s, .stop) => .ok s
    | .ok (s, .continue) =>
      let read := read_jsonl_line options.max_line_bytes rest
      scan_from options decoder fuel read.1 read.2 s

/-- `scan_jsonl_prefetched`: the first line has been read already. -/
def scan_jsonl_prefetched (first : JsonlRead)
    (rest : Bytes) (d : σ) : Except IoError (LedgerHealth × σ) :=
  scan_from options decoder (rest.length + 1) first rest ({}, d)

def scan_jsonl (reader : Bytes) (d : σ) : Except IoError (LedgerHealth × σ) :=
  let first := read_jsonl_line options.max_line_bytes reader
  scan_from options decoder (reader.length + 1) first.1 first.2 ({}, d)

end

/-! ## What one judgement does to the health -/

namespace LedgerHealth

variable (health : LedgerHealth) (kind : LedgerIssueKind) (line offset : ℕ)

@[simp] theorem issue_max_observed_sequence :
    (health.issue kind line offset).max_observed_sequence = health.max_observed_sequence := rfl

@[simp] theorem issue_last_accepted_sequence :
    (health.issue kind line offset).last_accepted_sequence = health.last_accepted_sequence := rfl

@[simp] theorem issue_bytes_observed :
    (health.issue kind line offset).bytes_observed = health.bytes_observed := rfl

@[simp] theorem issue_first_issue_isSome :
    (health.issue kind line offset).first_issue.isSome = true := rfl

end LedgerHealth

section

variable {ρ : Type} (health : LedgerHealth) (prepared : PreparedRecord ρ) (number offset : ℕ)

@[simp] theorem note_prepared_frame :
    (note_prepared health prepared number offset).max_observed_sequence
      = health.max_observed_sequence ∧
    (note_prepared health prepared number offset).last_accepted_sequence
      = health.last_accepted_sequence ∧
    (note_prepared health prepared number offset).bytes_observed = health.bytes_observed := by
  obtain ⟨observation, record⟩ := prepared
  cases observation <;> exact ⟨rfl, rfl, rfl⟩

theorem note_prepared_first_issue (h : prepared.observation.is_rejected = false) :
    (note_prepared health prepared number offset).first_issue = health.first_issue := by
  obtain ⟨observation, record⟩ := prepared
  cases observation with
  | rejected hint kind => cases h
  | skip => rfl
  | accepted n => rfl

@[simp] theorem observe_sequence_frame (sequence : Option ℕ) :
    (observe_sequence health sequence number offset).last_accepted_sequence
      = health.last_accepted_sequence ∧
    (observe_sequence health sequence number offset).bytes_observed = health.bytes_observed := by
  unfold observe_sequence
  split
  · exact ⟨rfl, rfl⟩
  · simp only
    split <;> exact ⟨rfl, rfl⟩

theorem observe_sequence_max_observed_sequence (sequence : Option ℕ) :
    (observe_sequence health sequence number offset).max_observed_sequence
      = match sequence with
        | none => health.max_observed_sequence
        | some n => some (max (health.max_observed_sequence.getD 0) n) := by
  unfold observe_sequence
  split
  · rfl
  · simp only
    split <;> rfl

variable {sequence : Option ℕ}

theorem observe_sequence_first_issue (h : sequence ≠ some u64_max) :
    (observe_sequence health sequence number offset).first_issue = health.first_issue := by
  cases sequence with
  | none => rfl
  | some n =>
    have hn : n ≠ u64_max := fun hn => h (by rw [hn])
    simp only [observe_sequence, hn, false_and, if_false]

theorem observe_sequence_first_issue_ne_none (h : health.first_issue ≠ none) :
    (observe_sequence health sequence number offset).first_issue ≠ none := by
  cases sequence with
  | none => exact h
  | some n =>
    simp only [observe_sequence]
    split
    · exact some_ne_none _
    · exact h

@[simp] theorem note_verdict_frame (observation : RecordObservation) (verdict : SequenceVerdict) :
    (note_verdict health observation verdict).max_observed_sequence = health.max_observed_sequence ∧
    (note_verdict health observation verdict).first_issue = health.first_issue ∧
    (note_verdict health observation verdict).bytes_observed = health.bytes_observed := by
  unfold note_verdict
  split
  · exact ⟨rfl, rfl, rfl⟩
  · split <;> exact ⟨rfl, rfl, rfl⟩

variable (rule : SequenceRule)

theorem sequence_valid_note_prepared (sequence : Option ℕ) :
    sequence_valid rule (note_prepared health prepared number offset) sequence
      = sequence_valid rule health sequence := by
  unfold sequence_valid
  simp only [note_prepared_frame]

/-- **The verdict**: rejected records and records out of order are invalid. -/
theorem judge_verdict :
    (judge rule health prepared number offset).2
      = verdict_of rule prepared.observation
          (sequence_valid rule health prepared.observation.sequence) := by
  simp only [judge, sequence_valid_note_prepared]

theorem judge_max_observed_sequence :
    (judge rule health prepared number offset).1.max_observed_sequence
      = match prepared.observation.sequence with
        | none => health.max_observed_sequence
        | some n => some (max (health.max_observed_sequence.getD 0) n) := by
  simp only [judge, note_verdict_frame, observe_sequence_max_observed_sequence]
  split <;> split <;> simp

theorem judge_last_accepted_sequence (h : (judge rule health prepared number offset).2 ≠ .invalid)
    (hskip : prepared.observation.is_skipped = false) :
    (judge rule health prepared number offset).1.last_accepted_sequence
      = prepared.observation.sequence.or health.last_accepted_sequence := by
  rw [judge_verdict] at h
  simp only [judge, sequence_valid_note_prepared, note_verdict, if_neg h, hskip]
  rw [if_neg Bool.false_ne_true]
  simp only [observe_sequence_frame]
  split <;> simp

theorem judge_first_issue (hrej : prepared.observation.is_rejected = false)
    (hseq : sequence_valid rule health prepared.observation.sequence)
    (hmax : prepared.observation.sequence ≠ some u64_max) :
    (judge rule health prepared number offset).1.first_issue = health.first_issue := by
  simp only [judge, note_verdict_frame, sequence_valid_note_prepared, hseq, if_true]
  rw [observe_sequence_first_issue _ _ _ hmax, note_prepared_first_issue _ _ _ _ hrej]

/-- A line that is judged invalid leaves an issue behind. -/
theorem judge_first_issue_ne_none (h : (judge rule health prepared number offset).2 = .invalid) :
    (judge rule health prepared number offset).1.first_issue ≠ none := by
  rw [judge_verdict, verdict_of] at h
  simp only [judge, note_verdict_frame, sequence_valid_note_prepared]
  apply observe_sequence_first_issue_ne_none
  cases hseq : sequence_valid rule health prepared.observation.sequence with
  | false =>
    rw [if_neg Bool.false_ne_true]
    exact some_ne_none _
  | true =>
    -- in order, so it was rejected, and the rejection was counted first
    rw [if_pos rfl]
    cases hobs : prepared.observation with
    | rejected hint kind =>
      simp only [note_prepared, hobs]
      exact some_ne_none _
    | skip | accepted =>
      rw [hobs] at h hseq
      simp [hseq, RecordObservation.is_rejected] at h
      split at h <;> cases h

end

/-! ## What one read returns -/

variable {t : Bytes}

theorem read_until_of_notMem (ht : newline ∉ t) : read_until t = t := by
  induction t with
  | nil => rfl
  | cons b t ih =>
    simp only [mem_cons, not_or] at ht
    rw [read_until, if_neg (Ne.symm ht.1), ih ht.2]

variable {body : Bytes}

theorem read_until_line (hbody : newline ∉ body) (g : Bytes) :
    read_until (body ++ newline :: g) = body ++ [newline] := by
  induction body with
  | nil => exact if_pos rfl
  | cons b body ih =>
    simp only [mem_cons, not_or] at hbody
    rw [cons_append, read_until, if_neg (Ne.symm hbody.1), ih hbody.2, cons_append]

variable {max_bytes : Option ℕ}

/-- What is left without a newline is read as a torn line, if it fits. -/
theorem read_jsonl_line_tail (ht : newline ∉ t) (hne : t ≠ []) (hfit : within max_bytes t.length) :
    (read_jsonl_line max_bytes t).1 = .torn t := by
  have hlim : limited max_bytes t = t := by
    cases max_bytes with
    | none => rfl
    | some m =>
      simp only [within, decide_eq_true_eq] at hfit
      exact take_of_length_le (by omega)
  have hlast : t.getLast? ≠ some newline := fun h => ht (mem_of_getLast? h)
  simp only [read_jsonl_line, hlim, read_until_of_notMem ht, hne, hfit, hlast, if_false,
    Bool.not_true, Bool.false_eq_true]

/-- A line that fits is read with its newline, and what follows is left to read. -/
theorem read_jsonl_line_complete (hbody : newline ∉ body)
    (g : Bytes) (hfit : within max_bytes (body.length + 1)) :
    read_jsonl_line max_bytes (body ++ newline :: g) = (.complete (body ++ [newline]), g) := by
  have hread : read_until (limited max_bytes (body ++ newline :: g)) = body ++ [newline] := by
    unfold limited
    cases max_bytes with
    | none => exact read_until_line hbody g
    | some m =>
      simp only [within, decide_eq_true_eq] at hfit
      have htake : (body ++ newline :: g).take (m + 1)
          = body ++ newline :: g.take (m - body.length) := by
        rw [take_append, take_of_length_le (by omega),
          show m + 1 - body.length = (m - body.length) + 1 by omega, take_succ_cons]
      simp only [htake, read_until_line hbody]
  have hlen : (body ++ [newline]).length = body.length + 1 := by simp
  have hdrop : (body ++ newline :: g).drop (body.length + 1) = g := by
    rw [show body ++ newline :: g = (body ++ [newline]) ++ g by simp, ← hlen, drop_left]
  simp only [read_jsonl_line, hread, hlen, hdrop, hfit]
  simp

theorem length_read_until_take {m : ℕ} (hno : newline ∉ t.take m) (hlong : m < t.length) :
    (read_until (t.take (m + 1))).length = m + 1 := by
  induction m generalizing t with
  | zero =>
    obtain ⟨b, t, rfl⟩ := exists_cons_of_length_pos hlong
    rw [take_succ_cons, take_zero, read_until]
    split <;> rfl
  | succ m ih =>
    obtain ⟨b, t, rfl⟩ := exists_cons_of_length_pos (Nat.zero_lt_of_lt hlong)
    rw [take_succ_cons, mem_cons, not_or] at hno
    rw [take_succ_cons, read_until, if_neg (Ne.symm hno.1), length_cons,
      ih hno.2 (Nat.lt_of_succ_lt_succ hlong)]

/-- A line without a newline within the limit is too long, however it goes on. -/
theorem read_jsonl_line_too_long {m : ℕ} (hno : newline ∉ t.take m) (hlong : m < t.length) :
    (read_jsonl_line (some m) t).1 = .too_long := by
  have hread := length_read_until_take hno hlong
  have hne : read_until (t.take (m + 1)) ≠ [] := by
    intro h
    rw [h] at hread
    simp at hread
  have hover : within (some m) (read_until (t.take (m + 1))).length = false := by
    simp only [hread, within, decide_eq_false_iff_not]
    omega
  simp only [read_jsonl_line, limited, hne, hover, if_false, Bool.not_false, if_true]

theorem read_long_line {max : Option ℕ} (hbody : newline ∉ body) (rest : Bytes)
    (hfit : ¬ within max (body.length + 1)) :
    (read_jsonl_line max (body ++ newline :: rest)).1 = .too_long := by
  cases max with
  | none => exact absurd rfl hfit
  | some m =>
    have hlong : m < body.length + 1 := by
      simpa only [within, decide_eq_true_eq, not_le] using hfit
    apply read_jsonl_line_too_long
    · -- the limit falls inside the body, where there is no newline
      rw [take_append_of_le_length (Nat.le_of_lt_succ hlong)]
      exact fun h => hbody (mem_of_mem_take h)
    · rw [length_append, length_cons]
      omega

theorem read_long_tail {max : Option ℕ} {t : Bytes} (ht : newline ∉ t)
    (hfit : ¬ within max t.length) : (read_jsonl_line max t).1 = .too_long := by
  cases max with
  | none => exact absurd rfl hfit
  | some m =>
    refine read_jsonl_line_too_long (fun h => ht (mem_of_mem_take h)) ?_
    simpa only [within, decide_eq_true_eq, not_le] using hfit

/-! ## The scan as a fold over the lines -/

section

variable {σ ρ : Type} (options : ScanOptions) (decoder : LedgerDecoder σ ρ)

/-- The scan's loop over complete lines, with whether it stopped before the end. -/
def fold_lines : List Bytes → LedgerHealth × σ → Except IoError ((LedgerHealth × σ) × ScanControl)
  | [], s => .ok (s, .continue)
  | l :: ls, s =>
    if within options.max_line_bytes l.length then
      match scan_line options decoder l s with
      | .error e => .error e
      | .ok (s, .stop) => .ok (s, .stop)
      | .ok (s, .continue) => fold_lines ls s
    else .ok ((note_too_long options s.1, s.2), .stop)

/-- What the scan makes of the bytes behind the last newline. -/
def scan_tail (t : Bytes) (s : LedgerHealth × σ) : LedgerHealth × σ :=
  if t = [] then s
  else if within options.max_line_bytes t.length then (note_torn t s.1, s.2)
  else (note_too_long options s.1, s.2)

/-- The scan of the lines and then of the tail. -/
def scan_lines (ls : List Bytes) (t : Bytes) (s : LedgerHealth × σ) :
    Except IoError (LedgerHealth × σ) :=
  match fold_lines options decoder ls s with
  | .error e => .error e
  | .ok (s, .stop) => .ok s
  | .ok (s, .continue) => .ok (scan_tail options t s)

/-- The end of a scan, when no newline is left. -/
theorem scan_from_tail (fuel : ℕ) (ht : newline ∉ t) (s : LedgerHealth × σ) :
    scan_from options decoder fuel (read_jsonl_line options.max_line_bytes t).1
      (read_jsonl_line options.max_line_bytes t).2 s = .ok (scan_tail options t s) := by
  by_cases hne : t = []
  · subst hne
    have hread : (read_jsonl_line options.max_line_bytes []).1 = .eof := by
      cases h : options.max_line_bytes <;> rfl
    rw [hread, scan_tail, if_pos rfl, scan_from]
  rw [scan_tail, if_neg hne]
  by_cases hfit : within options.max_line_bytes t.length = true
  · rw [read_jsonl_line_tail ht hne hfit, if_pos hfit, scan_from]
  rw [read_long_tail ht hfit, if_neg hfit, scan_from]

/-- **The loop is the fold**: from a line that has just been read, with fuel for every line. -/
theorem scan_from_eq (ls : List Bytes) (hls : ∀ l ∈ ls, IsLine l) (ht : newline ∉ t) :
    ∀ (fuel : ℕ) (s : LedgerHealth × σ), ls.length ≤ fuel →
      scan_from options decoder fuel (read_jsonl_line options.max_line_bytes (ls.flatten ++ t)).1
        (read_jsonl_line options.max_line_bytes (ls.flatten ++ t)).2 s
      = scan_lines options decoder ls t s := by
  induction ls with
  | nil =>
    intro fuel s _
    exact scan_from_tail options decoder fuel ht s
  | cons l ls ih =>
    intro fuel s hfuel
    obtain ⟨body, hbody, rfl⟩ := hls l mem_cons_self
    have hrest := ih fun m hm => hls m (mem_cons_of_mem _ hm)
    obtain ⟨fuel, rfl⟩ : ∃ n, fuel = n + 1 := by
      rw [length_cons] at hfuel
      exact ⟨fuel - 1, by omega⟩
    have hfuel : ls.length ≤ fuel := by simpa using hfuel
    have hfile : ((body ++ [newline]) :: ls).flatten ++ t = body ++ newline :: (ls.flatten ++ t) := by
      simp
    have hlen : (body ++ [newline]).length = body.length + 1 := by simp
    rw [hfile, scan_lines, fold_lines, hlen]
    by_cases hfit : within options.max_line_bytes (body.length + 1) = true
    · rw [read_jsonl_line_complete hbody _ hfit, if_pos hfit, scan_from]
      -- both sides now run the same body on the same line
      rcases scan_line options decoder (body ++ [newline]) s with e | ⟨s', _ | _⟩
      · rfl
      · exact hrest fuel s' hfuel
      · rfl
    rw [read_long_line hbody _ hfit, if_neg hfit, scan_from]

/-- **`scan_jsonl` is the fold over the file's lines.** -/
theorem scan_jsonl_eq (reader : Bytes) (d : σ) :
    scan_jsonl options decoder reader d
      = scan_lines options decoder (lines reader) (tail reader) ({}, d) := by
  have hfile := join_split reader
  have hfuel : (lines reader).length ≤ reader.length + 1 :=
    (length_lines_le reader).trans (Nat.le_succ _)
  have h := scan_from_eq options decoder (lines reader)
    (isLine_of_mem reader) (newline_notMem_tail reader) (reader.length + 1) ({}, d) hfuel
  rw [hfile] at h
  exact h

/-- **A scan that was handed its first line** is the fold over the lines and the tail of the whole
file. -/
theorem scan_jsonl_prefetched_eq (reader : Bytes) (d : σ) :
    scan_jsonl_prefetched options decoder (read_jsonl_line options.max_line_bytes reader).1
      (read_jsonl_line options.max_line_bytes reader).2 d
      = scan_lines options decoder (lines reader) (tail reader) ({}, d) := by
  rw [← scan_jsonl_eq, scan_jsonl, scan_jsonl_prefetched]
  have hfile := join_split reader
  rcases hls : lines reader with _ | ⟨l, ls⟩
  · -- no complete line, and the tail needs no fuel
    rw [hls, flatten_nil, nil_append] at hfile
    have ht := newline_notMem_tail reader
    rw [hfile] at ht
    simp only [scan_from_tail options decoder _ ht]
  obtain ⟨body, hbody, rfl⟩ := isLine_of_mem reader l (hls ▸ mem_cons_self)
  have hrest : ∀ m ∈ ls, IsLine m := fun m hm =>
    isLine_of_mem reader m (hls ▸ mem_cons_of_mem _ hm)
  have hlines : ∀ m ∈ (body ++ [newline]) :: ls, IsLine m := fun m hm =>
    isLine_of_mem reader m (hls ▸ hm)
  have ht := newline_notMem_tail reader
  have hcount : ls.length ≤ (ls.flatten ++ tail reader).length := by
    have h := length_lines_le (ls.flatten ++ tail reader)
    rw [lines, split_flatten hrest, length_append] at h
    omega
  rw [hls] at hfile
  clear hls
  generalize tail reader = t at *
  obtain rfl : reader = body ++ newline :: (ls.flatten ++ t) := by
    rw [← hfile]
    simp
  by_cases hfit : within options.max_line_bytes (body.length + 1) = true
  · have hc := read_jsonl_line_complete hbody (ls.flatten ++ t) hfit
    have hshort := scan_from_eq options decoder _ hlines ht
      ((ls.flatten ++ t).length + 1) ({}, d) (by rw [length_cons]; omega)
    have hlong := scan_from_eq options decoder _ hlines ht
      ((body ++ newline :: (ls.flatten ++ t)).length + 1) ({}, d)
      (by simp only [length_append, length_cons] at hcount ⊢; omega)
    rw [hfile] at hshort hlong
    rw [hlong, ← hshort, hc]
  rw [read_long_line hbody _ hfit, scan_from, scan_from]

end

end BobbyBrowser.Jsonl
