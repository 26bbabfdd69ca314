/-
What a job journal says, whatever has been written to it.

`reading` is the scan as a fold over the lines of the file: the latest valid
state of every job, the largest sequence number, and how many lines were not
believed. Bytes at the end of a file that is not damaged can only change what it
says about a job by being a whole line that says so.
-/
import BobbyBrowser.JobStore

set_option autoImplicit false

namespace BobbyBrowser.Jobs

open List hiding tail
open Lines Jsonl

variable {health : LedgerHealth} {collect_jobs : Bool} {latest jobs : List Job}
  {f : Bytes} {r : JournalRecord}

section

variable (C : Codec)

/-! ## The scan as a fold -/

/-- What the complete lines of a journal say. -/
structure Reading where
  latest : List Job := []
  max_sequence : Option ℕ := none
  incompatible_records : ℕ := 0

/-- The record may follow and is one that this build believes. -/
def Reading.accepts (s : Reading) (r : JournalRecord) : Bool :=
  r.issue.isNone && s.max_sequence.all (· < r.sequence)

/-- One record. -/
def Reading.read_record (s : Reading) (r : JournalRecord) : Reading :=
  { latest := if s.accepts r then Keyed.insert Job.id r.job s.latest else s.latest
    max_sequence := some (max (s.max_sequence.getD 0) r.sequence)
    incompatible_records := s.incompatible_records + (if s.accepts r then 0 else 1) }

/-- One line. -/
def Reading.read_line (s : Reading) (line : Bytes) : Reading :=
  if line.dropLast = [] then s
  else match C.decode_record line.dropLast with
    | none => { s with incompatible_records := s.incompatible_records + 1 }
    | some r => s.read_record r

/-- The lines of a file, in order. -/
def reading (bytes : Bytes) : Reading := (lines bytes).foldl (Reading.read_line C) {}

/-- The scan's state agrees with a reading. -/
structure Agrees (collect_jobs : Bool) (health : LedgerHealth) (latest : List Job) (s : Reading) :
    Prop where
  latest : latest = if collect_jobs then s.latest else []
  max_sequence : health.max_observed_sequence = s.max_sequence
  incompatible_records : health.incompatible_records = s.incompatible_records
  torn_tail : health.issue_count .torn_tail = 0

/-- The options of `scan_path`. -/
abbrev scan_options : ScanOptions := ⟨none, .increasing⟩

variable {C} {s : Reading}

theorem observation_sequence (r : JournalRecord) : r.observation.sequence = some r.sequence := by
  rw [JournalRecord.observation]
  split <;> rfl

theorem observation_is_rejected (r : JournalRecord) :
    r.observation.is_rejected = !r.issue.isNone := by
  rw [JournalRecord.observation]
  cases r.issue <;> rfl

theorem observation_ne_torn (r : JournalRecord) (hint : Option ℕ) :
    r.observation ≠ .rejected hint .torn_tail := by
  intro h
  rw [JournalRecord.observation] at h
  split at h
  · rename_i kind hissue
    rw [(RecordObservation.rejected.inj h).2, JournalRecord.issue] at hissue
    split at hissue
    · nomatch hissue
    · split at hissue <;> nomatch hissue
  · nomatch h

/-- The scan and the reading accept the same records. -/
theorem judge_verdict_reading
    (hmax : health.max_observed_sequence = s.max_sequence) (r : JournalRecord) (number offset : ℕ) :
    (judge .increasing health ⟨r.observation, some r⟩ number offset).2
      = if s.accepts r then .valid else .invalid := by
  have hvalid : sequence_valid .increasing health (some r.sequence)
      = s.max_sequence.all (· < r.sequence) := by
    rw [sequence_valid, hmax]
  rw [judge_verdict, observation_sequence, hvalid, verdict_of, observation_is_rejected,
    observation_sequence, Reading.accepts]
  cases r.issue.isNone <;> cases s.max_sequence.all (· < r.sequence) <;> rfl

section

variable (h : Agrees collect_jobs health latest s)

include h

/-- The scan and the reading go on in step at every record. -/
theorem Agrees.read_record (r : JournalRecord) (number offset : ℕ) :
    Agrees collect_jobs (judge .increasing health ⟨r.observation, some r⟩ number offset).1
      (if collect_jobs
          && (judge .increasing health ⟨r.observation, some r⟩ number offset).2 = .valid then
        Keyed.insert Job.id r.job latest else latest) (s.read_record r) := by
  have hverdict := judge_verdict_reading h.max_sequence r number offset
  refine ⟨?_, ?_, ?_, ?_⟩
  · rw [hverdict, Reading.read_record, h.latest]
    cases collect_jobs <;> cases s.accepts r <;> rfl
  · rw [judge_max_observed_sequence, observation_sequence, h.max_sequence]
    rfl
  · rw [judge_incompatible_records, hverdict, h.incompatible_records, Reading.read_record]
    cases s.accepts r <;> rfl
  · rw [judge_torn_tail _ _ (observation_ne_torn r)]
    exact h.torn_tail

/-- A line without a record, which may count as one that is not believed. -/
theorem Agrees.unread (prepared : PreparedRecord JournalRecord) (number offset : ℕ)
    (hsequence : prepared.observation.sequence = none)
    (hkind : ∀ hint, prepared.observation ≠ .rejected hint .torn_tail) :
    Agrees collect_jobs (judge .increasing health prepared number offset).1 latest
      { s with incompatible_records := s.incompatible_records
        + if (judge .increasing health prepared number offset).2 = .invalid then 1 else 0 } := by
  refine ⟨h.latest, ?_, ?_, ?_⟩
  · rw [judge_max_observed_sequence, hsequence]
    exact h.max_sequence
  · rw [judge_incompatible_records, h.incompatible_records]
  · rw [judge_torn_tail _ _ hkind]
    exact h.torn_tail

/-- The scan and the reading go on in step at every line, whatever is in it. -/
theorem Agrees.scan_line (l : Bytes) :
    ∃ (health' : LedgerHealth) (latest' : List Job),
      scan_line scan_options (job_decoder C collect_jobs) l (health, latest)
        = .ok ((health', latest'), .continue) ∧
      Agrees collect_jobs health' latest' (s.read_line C l) := by
  -- counting the line moves neither the marks nor the sequence
  have hcount : Agrees collect_jobs (count_line health l) latest s :=
    ⟨h.latest, h.max_sequence, h.incompatible_records, h.torn_tail⟩
  refine ⟨_, _, rfl, ?_⟩
  simp only [job_decoder, Reading.read_line, next_line]
  by_cases hbody : l.dropLast = []
  · rw [if_pos hbody, if_pos hbody]
    exact hcount.unread ⟨.skip, none⟩ (health.complete_lines + 1) health.bytes_observed rfl nofun
  · rw [if_neg hbody, if_neg hbody]
    cases hdecode : C.decode_record l.dropLast with
    | none => exact hcount.unread ⟨.rejected none .decode, none⟩ _ _ rfl nofun
    | some r => exact hcount.read_record r _ _

end

/-- **The scan reads the whole journal**: it never stops and never fails. -/
theorem fold_lines_reading (ls : List Bytes) (h : Agrees collect_jobs health latest s) :
    ∃ (health' : LedgerHealth) (latest' : List Job),
      fold_lines scan_options (job_decoder C collect_jobs) ls (health, latest)
        = .ok ((health', latest'), .continue) ∧
      Agrees collect_jobs health' latest' (ls.foldl (Reading.read_line C) s) := by
  induction ls generalizing health latest s with
  | nil => exact ⟨health, latest, rfl, h⟩
  | cons l ls ih =>
    obtain ⟨health', latest', hscan, hagrees⟩ := h.scan_line l
    obtain ⟨final, jobs, hfold, hfinal⟩ := ih hagrees
    refine ⟨final, jobs, ?_, hfinal⟩
    have hfit : within scan_options.max_line_bytes l.length = true := rfl
    rw [fold_lines, if_pos hfit, hscan]
    exact hfold

variable (C)

/-- **What `scan_path` returns** for a file. -/
theorem scan_path_eq (bytes : Bytes) (collect_jobs : Bool) :
    scan_path C (some bytes) collect_jobs = .ok
      { jobs := if collect_jobs then (reading C bytes).latest else []
        torn_tail := tail bytes ≠ []
        max_sequence := (reading C bytes).max_sequence
        incompatible_records := (reading C bytes).incompatible_records } := by
  have hstart : Agrees collect_jobs {} [] {} := ⟨by cases collect_jobs <;> rfl, rfl, rfl, rfl⟩
  obtain ⟨health, latest, hfold, h⟩ := fold_lines_reading (C := C) (lines bytes) hstart
  have hscan : scan_jsonl scan_options (job_decoder C collect_jobs) bytes []
      = .ok (scan_tail scan_options (tail bytes) (health, latest)) := by
    rw [scan_jsonl_eq, scan_lines, hfold]
  rw [scan_path, hscan]
  by_cases ht : tail bytes = []
  · have htail : scan_tail scan_options (tail bytes) (health, latest) = (health, latest) :=
      if_pos ht
    rw [htail]
    simp only [Except.ok.injEq, Scan.mk.injEq]
    exact ⟨h.latest, by simp [h.torn_tail, ht], h.max_sequence, h.incompatible_records⟩
  · have htail : scan_tail scan_options (tail bytes) (health, latest)
        = (note_torn (tail bytes) health, latest) := if_neg ht
    rw [htail]
    simp only [Except.ok.injEq, Scan.mk.injEq]
    refine ⟨h.latest, ?_, h.max_sequence, h.incompatible_records⟩
    simp [note_torn, issue_count_issue_self, ht]

/-! ## Bytes at the end of a journal -/

/-- What is torn off at the end of a journal is the beginning of a record. -/
def Sane (bytes : Bytes) : Prop := tail bytes = [] ∨ (tail bytes).head? = some object_start

variable {C}

theorem dropLast_append_line (text : Bytes) (r : JournalRecord) :
    (text ++ C.line r).dropLast = text ++ C.record_bytes r := by
  rw [Codec.line, ← append_assoc, dropLast_concat]

theorem record_bytes_ne_nil (r : JournalRecord) : C.record_bytes r ≠ [] := by
  intro h
  have := C.record_head r
  rw [h] at this
  nomatch this

theorem read_line_line (s : Reading) (r : JournalRecord) :
    s.read_line C (C.line r) = s.read_record r.durable := by
  have hbody : (C.line r).dropLast = C.record_bytes r := dropLast_append_line [] r
  rw [Reading.read_line, hbody, if_neg (record_bytes_ne_nil r), C.decode_record_bytes]

theorem read_line_glued (s : Reading) {text : Bytes} (htext : text.head? = some object_start)
    (r : JournalRecord) :
    s.read_line C (text ++ C.line r)
      = { s with incompatible_records := s.incompatible_records + 1 } := by
  have hbody : text ++ C.record_bytes r ≠ [] := by
    rw [ne_eq, append_eq_nil_iff, not_and]
    exact fun _ => record_bytes_ne_nil r
  rw [Reading.read_line, dropLast_append_line, if_neg hbody, C.decode_glued text r htext]

theorem tail_append_line (f : Bytes) (r : JournalRecord) : tail (f ++ C.line r) = [] :=
  congrArg Prod.snd (split_append_glued f (C.newline_notMem_record r))

/-- **A whole line at the end** is read together with what is torn off before it. -/
theorem reading_append_line (f : Bytes) (r : JournalRecord) :
    reading C (f ++ C.line r) = (reading C f).read_line C (tail f ++ C.line r) := by
  have hlines : lines (f ++ C.line r) = lines f ++ [tail f ++ C.record_bytes r ++ [newline]] :=
    congrArg Prod.fst (split_append_glued f (C.newline_notMem_record r))
  rw [reading, hlines, foldl_append, foldl_cons, foldl_nil, reading, Codec.line, append_assoc]

theorem tail_append_torn (f : Bytes) {t : Bytes} (ht : newline ∉ t) : tail (f ++ t) = tail f ++ t :=
  congrArg Prod.snd (split_append_torn f ht)

/-- Bytes behind the last line end are not read. -/
theorem reading_append_torn (f : Bytes) {t : Bytes} (ht : newline ∉ t) :
    reading C (f ++ t) = reading C f := by
  rw [reading, lines, split_append_torn f ht, reading]

/-- A write of a line ends within it, with nothing torn off that was not torn off before, or as a
whole line. -/
theorem take_line_cases (r : JournalRecord) (k : ℕ) :
    (C.line r).take k = C.line r ∨ newline ∉ (C.line r).take k := by
  by_cases hk : (C.record_bytes r).length < k
  · exact .inl (take_line_of_length_lt hk)
  · exact .inr (newline_notMem_take (C.newline_notMem_record r) (by omega))

theorem head_take_line (r : JournalRecord) {k : ℕ} (hne : (C.line r).take k ≠ []) :
    ((C.line r).take k).head? = some object_start := by
  have hhead : (C.line r).head? = some object_start := by
    rw [Codec.line, head?_append, C.record_head r]
    rfl
  cases k with
  | zero => exact absurd rfl hne
  | succ k => rw [head?_take, if_neg (Nat.succ_ne_zero k), hhead]

theorem Sane.write (h : Sane f) (r : JournalRecord) (k : ℕ) : Sane (f ++ (C.line r).take k) := by
  rcases take_line_cases r k with hall | hpart
  · rw [hall]
    exact .inl (tail_append_line f r)
  rw [Sane, tail_append_torn f hpart]
  rcases h with hwhole | htorn
  · rw [hwhole, nil_append]
    by_cases hne : (C.line r).take k = []
    · exact .inl hne
    · exact .inr (head_take_line r hne)
  · right
    rw [head?_append, htorn]
    rfl

/-! ## Undamaged journals -/

variable (C)

/-- Opening the journal finds no damage. -/
structure Intact (bytes : Bytes) : Prop where
  whole : tail bytes = []
  compatible : (reading C bytes).incompatible_records = 0
  continues : (reading C bytes).max_sequence ≠ some u64_max

variable {C}

theorem accepts_of_read_record (h : (s.read_record r).incompatible_records = 0) :
    s.accepts r = true ∧ s.incompatible_records = 0 := by
  rw [Reading.read_record] at h
  cases hacc : s.accepts r with
  | false =>
    rw [hacc] at h
    simp at h
  | true =>
    rw [hacc] at h
    exact ⟨rfl, by simpa using h⟩

/-- An accepted record is above every other, so the number before it was not the last one. -/
theorem ne_max_of_accepts (hacc : s.accepts r)
    (hbound : r.sequence ≤ u64_max) : s.max_sequence ≠ some u64_max := by
  intro hmax
  rw [Reading.accepts, hmax, Option.all_some, Bool.and_eq_true, decide_eq_true_eq] at hacc
  omega

/-- **Bytes written at the end of a journal.** If it is intact afterwards it was so before, and a
whole line was written or nothing. -/
theorem intact_write (hs : Sane f) (hbound : r.sequence ≤ u64_max)
    (k : ℕ) (h : Intact C (f ++ (C.line r).take k)) :
    Intact C f ∧ ((C.line r).take k = [] ∨ ((C.line r).take k = C.line r ∧
      (reading C (f ++ (C.line r).take k)).latest
        = Keyed.insert Job.id r.job.durable (reading C f).latest)) := by
  rcases take_line_cases (C := C) r k with hall | hpart
  · rw [hall] at h ⊢
    have hcompatible := h.compatible
    rw [reading_append_line] at hcompatible ⊢
    rcases hs with hwhole | htorn
    · rw [hwhole, nil_append, read_line_line] at hcompatible ⊢
      obtain ⟨hacc, hbefore⟩ := accepts_of_read_record hcompatible
      refine ⟨⟨hwhole, hbefore, ne_max_of_accepts hacc hbound⟩, .inr ⟨rfl, ?_⟩⟩
      rw [Reading.read_record, hacc]
      rfl
    · -- the line is glued to what was torn off, and the journal is damaged
      rw [read_line_glued _ htorn] at hcompatible
      exact absurd hcompatible (Nat.succ_ne_zero _)
  · have hwhole := h.whole
    rw [tail_append_torn f hpart, append_eq_nil_iff] at hwhole
    rw [hwhole.2, append_nil] at h
    exact ⟨h, .inl hwhole.2⟩

/-! ## A compacted journal -/

variable (rs : List JournalRecord)

theorem split_flatten_lines : split (rs.map C.line).flatten = (rs.map C.line, []) :=
  split_lines (forall_mem_map.mpr fun r _ => ⟨C.record_bytes r, C.newline_notMem_record r, rfl⟩)

theorem tail_flatten_lines : tail (rs.map C.line).flatten = [] :=
  congrArg Prod.snd (split_flatten_lines rs)

theorem reading_flatten_lines :
    reading C (rs.map C.line).flatten = rs.foldl (fun s r => s.read_record r.durable) {} := by
  rw [reading, lines, split_flatten_lines, foldl_map]
  congr 1
  funext s r
  exact read_line_line s r

/-- A job that was read is one of the jobs that were recorded. -/
theorem mem_latest_foldl {job : Job}
    (h : job ∈ (rs.foldl (fun s r => s.read_record r.durable) s).latest) :
    job ∈ s.latest ∨ ∃ r ∈ rs, job = r.job.durable := by
  induction rs generalizing s with
  | nil => exact .inl h
  | cons r rs ih =>
    rcases ih h with hmem | ⟨r', hr', hjob⟩
    · simp only [Reading.read_record] at hmem
      split at hmem
      · rcases Keyed.mem_insert.mp hmem with hold | hnew
        · exact .inl hold.1
        · exact .inr ⟨r, mem_cons_self, hnew⟩
      · exact .inl hmem
    · exact .inr ⟨r', mem_cons_of_mem _ hr', hjob⟩

theorem mem_compact_records (h : r ∈ compact_records jobs) : r.job ∈ jobs := by
  obtain ⟨n, hn, hr⟩ := mem_mapIdx.mp h
  rw [← hr]
  exact (perm_insertionSort _ _).subset (getElem_mem hn)

/-- The journal that is written from these jobs. -/
abbrev Codec.compacted (C : Codec) (jobs : List Job) : Bytes :=
  ((compact_records jobs).map C.line).flatten

/-- **What a compaction publishes**: every line, or all but the last and a part of that one. -/
theorem published_cases (kept : Option ℕ) (jobs : List Job) :
    C.published kept jobs = C.compacted jobs ∨
      kept.isSome = true ∧ ∃ (rs : List JournalRecord) (last : JournalRecord) (n : ℕ),
        compact_records jobs = rs ++ [last] ∧ newline ∉ (C.line last).take n ∧
        C.published kept jobs = (rs.map C.line).flatten ++ (C.line last).take n := by
  rw [Codec.compacted]
  cases kept with
  | none => exact .inl rfl
  | some n =>
    rcases eq_nil_or_concat (compact_records jobs) with hnil | ⟨rs, last, hrecords⟩
    · left
      rw [Codec.published, hnil]
      exact take_nil
    rw [concat_eq_append] at hrecords
    simp only [Codec.published, hrecords, map_append, map_cons, map_nil, dropLast_concat, getLast?_concat,
      Option.getD_some, flatten_append, flatten_cons, flatten_nil, append_nil]
    rcases take_line_cases (C := C) last n with hall | hpart
    · rw [hall]
      exact .inl rfl
    · exact .inr ⟨rfl, rs, last, n, rfl, hpart, rfl⟩

theorem sane_published (kept : Option ℕ) (jobs : List Job) : Sane (C.published kept jobs) := by
  rcases published_cases (C := C) kept jobs with hall | ⟨-, rs, last, n, -, -, hcut⟩
  · rw [hall]
    exact .inl (tail_flatten_lines _)
  · rw [hcut]
    exact Sane.write (.inl (tail_flatten_lines rs)) last n

/-- A compacted file, however much of it was kept, shows no job that was not there. -/
theorem mem_reading_published {kept : Option ℕ} {job : Job}
    (h : job ∈ (reading C (C.published kept jobs)).latest) :
    ∃ found ∈ jobs, job = found.durable := by
  -- the records that are read are some of those that were written
  obtain ⟨rs, hsubset, hread⟩ : ∃ rs, rs ⊆ compact_records jobs ∧
      reading C (C.published kept jobs) = reading C (rs.map C.line).flatten := by
    rcases published_cases (C := C) kept jobs with hall | ⟨-, rs, last, n, hrecords, hpart, hcut⟩
    · exact ⟨_, Subset.refl _, congrArg (reading C) hall⟩
    · refine ⟨rs, hrecords ▸ subset_append_left _ _, ?_⟩
      rw [hcut, reading_append_torn _ hpart]
  rw [hread, reading_flatten_lines] at h
  rcases mem_latest_foldl _ h with hmem | ⟨r, hr, rfl⟩
  · nomatch hmem
  · exact ⟨r.job, mem_compact_records (hsubset hr), rfl⟩

end

end BobbyBrowser.Jobs
