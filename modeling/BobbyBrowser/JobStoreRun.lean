/-
What a job journal gives back when it is opened again.

A run opens the journal, puts and updates jobs, and opens it again. The world
records on the side what was acknowledged. As long as an append that fails has
put nothing into the file, a compaction has written its last line, and an open
finds no more terminal jobs than it retains, opening hands out every
acknowledged job in its last acknowledged state; only a job that was `Running`
needs reconciliation.

An append that fails after its first byte breaks this. The store writes the next
line behind what was left, the two are read as one line that is not a record,
and the acknowledged transition on it is lost.
-/
import BobbyBrowser.JobStoreSpec
import BobbyBrowser.JobStoreWire
import BobbyBrowser.Transition

set_option autoImplicit false

namespace BobbyBrowser.Jobs

open Keyed hiding insert
open Option hiding map_map
open List hiding tail
open Lines Jsonl Transition
open JournalJobStore

variable {job : Job} {jobs acknowledged : List Job} {r : JournalRecord} {event : JobEvent}
  {disk : Disk}

variable {C : Codec} {store : JournalJobStore} {bytes : Bytes}

/-! ## Restored jobs -/

/-- The state in which an acknowledged job is handed out again. -/
def Job.restored (job : Job) : Job := reopened false job.durable

/-- How a job comes back from a journal that is not damaged: one that was running needs
reconciliation, and all others are as they were. -/
theorem reopened_false (job : Job) :
    reopened false job =
      if job.status = .running then
        job.require_reconciliation "execution interrupted; outcome must be reconciled"
      else if job.status = .reconciliation_required then
        job.require_reconciliation (job.error.getD "uncertain execution")
      else job := by
  rw [reopened]
  simp only [Bool.false_eq_true, if_false]
  by_cases hrunning : job.status = .running
  · rw [if_pos hrunning, if_pos hrunning]
    exact if_pos rfl
  · rw [if_neg hrunning, if_neg hrunning]

theorem reopened_durable (job : Job) :
    (reopened false job).durable = reopened false job.durable := by
  rw [reopened_false, reopened_false, Job.durable_status]
  by_cases hrunning : job.status = .running
  · rw [if_pos hrunning, if_pos hrunning]
    rfl
  rw [if_neg hrunning, if_neg hrunning]
  by_cases hrequired : job.status = .reconciliation_required
  · rw [if_pos hrequired, if_pos hrequired]
    rfl
  · rw [if_neg hrequired, if_neg hrequired]

theorem reopened_reopened (job : Job) : reopened false (reopened false job) = reopened false job := by
  rw [reopened_false job]
  split_ifs with hrunning hrequired
  · exact reopened_false _
  · exact reopened_false _
  · rw [reopened_false, if_neg hrunning, if_neg hrequired]

theorem restored_reopened (job : Job) : (reopened false job).restored = job.restored := by
  rw [Job.restored, reopened_durable, reopened_reopened, Job.restored]

theorem restored_is_terminal (job : Job) :
    job.restored.status.is_terminal = job.status.is_terminal := by
  rw [Job.restored, reopened_false, ← Job.durable_status job]
  split_ifs with hrunning hrequired
  · rw [hrunning]
    rfl
  · rw [hrequired]
    rfl
  · rfl

/-- A job that comes back still has a valid resolution. -/
theorem has_valid_resolution_reopened (h : job.has_valid_resolution) :
    (reopened false job).has_valid_resolution = true := by
  -- a job with a receipt is `Resolved`, and opening leaves those alone
  have hreconciled : job.status ≠ .resolved → ∀ reason,
      (job.require_reconciliation reason).has_valid_resolution = true := by
    intro hstatus reason
    rw [Job.has_valid_resolution] at h ⊢
    cases hresolution : job.resolution with
    | none =>
      simp only [Job.require_reconciliation, hresolution]
      rfl
    | some receipt =>
      rw [hresolution] at h
      simp only [Bool.and_eq_true, decide_eq_true_eq] at h
      exact absurd h.1.1.1.1.1.2 hstatus
  rw [reopened_false]
  split_ifs with hrunning hrequired
  · exact hreconciled (by rw [hrunning]; nofun) _
  · exact hreconciled (by rw [hrequired]; nofun) _
  · exact h

/-! ## Jobs that are kept -/

/-- Every acknowledged job, and nothing else, is there in its restored state. -/
def Shows (jobs acknowledged : List Job) : Prop :=
  ∀ id, (get Job.id id jobs).map Job.restored = (get Job.id id acknowledged).map Job.restored

theorem Shows.trans {between : List Job} (h₁ : Shows jobs between)
    (h₂ : Shows between acknowledged) : Shows jobs acknowledged :=
  fun id => (h₁ id).trans (h₂ id)

theorem Shows.insert {found : Job} (h : Shows jobs acknowledged) (hid : found.id = job.id)
    (hrestored : found.restored = job.restored) :
    Shows (Keyed.insert Job.id found jobs) (Keyed.insert Job.id job acknowledged) := by
  intro id
  by_cases hsame : id = job.id
  · subst hsame
    rw [get_insert_self, ← hid, get_insert_self, Option.map_some, Option.map_some, hrestored]
  · rw [get_insert_of_ne hsame, get_insert_of_ne (hid ▸ hsame)]
    exact h id

/-- The store shows no more terminal jobs than were acknowledged, since each one it shows was. -/
theorem Shows.terminal_le (h : Shows jobs acknowledged) (hu : Unique Job.id jobs) :
    (terminal_jobs jobs).length ≤ (terminal_jobs acknowledged).length := by
  rw [terminal_jobs, terminal_jobs, length_insertionSort, length_insertionSort]
  have hnodup : ((jobs.filter fun job => job.status.is_terminal).map Job.id).Nodup := hu.filter _
  have hsubset : (jobs.filter fun job => job.status.is_terminal).map Job.id
      ⊆ (acknowledged.filter fun job => job.status.is_terminal).map Job.id := by
    intro id hid
    obtain ⟨job, hjob, rfl⟩ := mem_map.mp hid
    obtain ⟨hmem, hterminal⟩ := mem_filter.mp hjob
    have hsame := h job.id
    rw [hu.get_of_mem hmem rfl] at hsame
    obtain ⟨found, hfound, hrestored⟩ := map_eq_some_iff.mp hsame.symm
    refine mem_map.mpr ⟨found, mem_filter.mpr ⟨mem_of_get hfound, ?_⟩, key_of_get hfound⟩
    rw [← restored_is_terminal found, hrestored, restored_is_terminal]
    exact hterminal
  have hle := (subperm_of_subset hnodup hsubset).length_le
  rwa [length_map, length_map] at hle

/-- Retention drops nothing as long as there are not too many terminal jobs. -/
theorem prune_index_eq_self {retained : ℕ} (h : (terminal_jobs jobs).length ≤ retained) :
    prune_index retained jobs = jobs := by
  have hnone : excess_terminal retained jobs = [] := by
    rw [excess_terminal, Nat.sub_eq_zero_of_le h, take_zero, map_nil]
  rw [prune_index, hnone, removeAll_eq_filter]
  exact filter_eq_self.mpr fun _ _ => rfl

theorem shows_map_reopened (jobs : List Job) : Shows (jobs.map (reopened false)) jobs := by
  intro id
  rw [get_map_reopened, Option.map_map]
  congr 1
  funext job
  exact restored_reopened job

/-! ## Jobs that would be read back -/

/-- Jobs with one entry for each identifier, all of which a journal would believe. -/
structure Readable (jobs : List Job) : Prop where
  unique : Unique Job.id jobs
  valid : ∀ job ∈ jobs, job.has_valid_resolution = true

namespace Readable

section

variable (h : Readable jobs)

include h

theorem insert (hjob : job.has_valid_resolution) :
    Readable (Keyed.insert Job.id job jobs) := by
  refine ⟨h.unique.insert, fun other hother => ?_⟩
  rcases mem_insert.mp hother with hold | rfl
  · exact h.valid other hold.1
  · exact hjob

theorem sublist {kept : List Job} (hkept : kept.Sublist jobs) : Readable kept :=
  ⟨h.unique.sublist hkept, fun job hjob => h.valid job (hkept.subset hjob)⟩

theorem prune_index (retained : ℕ) : Readable (prune_index retained jobs) :=
  h.sublist (removeAll_sublist _ _)

theorem reopened : Readable (jobs.map (reopened false)) := by
  refine ⟨unique_map_reopened h.unique false, fun job hjob => ?_⟩
  obtain ⟨found, hfound, rfl⟩ := mem_map.mp hjob
  exact has_valid_resolution_reopened (h.valid found hfound)

end

end Readable

theorem readable_damaged (hu : Unique Job.id jobs) : Readable (jobs.map (reopened true)) := by
  refine ⟨unique_map_reopened hu true, fun job hjob => ?_⟩
  obtain ⟨found, -, rfl⟩ := mem_map.mp hjob
  rfl

/-! ## Journals that appends alone have written -/

/-- The number behind all that were read. -/
def Reading.next (s : Reading) : ℕ := s.max_sequence.elim 0 (· + 1)

theorem Reading.accepts_iff {s : Reading} :
    s.accepts r = true ↔ r.issue = none ∧ s.next ≤ r.sequence := by
  rw [Reading.accepts, Bool.and_eq_true, isNone_iff_eq_none, Reading.next]
  cases s.max_sequence with
  | none => simp
  | some m => exact and_congr_right fun _ => decide_eq_true_iff.trans Nat.lt_iff_add_one_le

theorem Reading.next_read_record (s : Reading) (r : JournalRecord) :
    (s.read_record r).next = max s.next (r.sequence + 1) := by
  rw [Reading.read_record, Reading.next, Reading.next]
  cases s.max_sequence with
  | none => simp
  | some m => exact (Nat.succ_max_succ m r.sequence).symm

/-- What any reading of a journal satisfies. -/
structure Reading.WellFormed (s : Reading) : Prop extends Readable s.latest where
  length : s.latest.length ≤ s.next

theorem has_valid_resolution_of_issue (h : r.issue = none) : r.job.has_valid_resolution = true := by
  rw [JournalRecord.issue] at h
  split at h
  · cases h
  split at h
  · cases h
  · rename_i hvalid
    simp only [Bool.or_eq_true, Bool.not_eq_true', not_or, Bool.not_eq_false] at hvalid
    exact hvalid.1

/-- Reading a record keeps the jobs readable, and no more of them than numbers were used. -/
theorem Reading.WellFormed.read_record {s : Reading} (h : s.WellFormed) (r : JournalRecord) :
    (s.read_record r).WellFormed := by
  have hlength := h.length
  have hnext := s.next_read_record r
  rw [Reading.read_record] at hnext ⊢
  cases hacc : s.accepts r with
  | false =>
    rw [hacc] at hnext
    exact ⟨h.toReadable, hlength.trans (hnext ▸ Nat.le_max_left _ _)⟩
  | true =>
    rw [hacc] at hnext
    obtain ⟨hissue, habove⟩ := Reading.accepts_iff.mp hacc
    refine ⟨h.toReadable.insert (has_valid_resolution_of_issue hissue), ?_⟩
    -- the new number is above the old ones, so there is room for one more job
    refine length_insert_le.trans (hnext ▸ ?_)
    omega

/-- The reading of any file is well formed, by induction on its lines. -/
theorem wellFormed_reading (bytes : Bytes) : (reading C bytes).WellFormed := by
  have hlines : ∀ (ls : List Bytes) {s : Reading}, s.WellFormed →
      (ls.foldl (Reading.read_line C) s).WellFormed := by
    intro ls
    induction ls with
    | nil => exact fun h => h
    | cons l ls ih =>
      intro s h
      apply ih
      rw [Reading.read_line]
      split
      · exact h
      · split
        · exact ⟨h.toReadable, h.length⟩
        · exact h.read_record _
  exact hlines _ ⟨⟨nodup_nil, forall_mem_nil _⟩, Nat.le_refl 0⟩

theorem readable_scan {scan : Scan} (h : scan_path C disk true = .ok scan) : Readable scan.jobs := by
  cases disk with
  | none =>
    cases h
    exact ⟨nodup_nil, forall_mem_nil _⟩
  | some bytes =>
    rw [scan_path_eq] at h
    cases h
    exact (wellFormed_reading bytes).toReadable

variable (C) in
/-- A journal that holds whole records in order, and no number that cannot be continued. -/
structure Tidy (bytes : Bytes) : Prop where
  whole : tail bytes = []
  compatible : (reading C bytes).incompatible_records = 0
  below : (reading C bytes).next ≤ u64_max
  durable : ∀ job ∈ (reading C bytes).latest, job.durable = job

theorem tidy_empty : Tidy C [] := ⟨rfl, rfl, Nat.zero_le _, forall_mem_nil _⟩

theorem Tidy.length_le (h : Tidy C bytes) : (reading C bytes).latest.length ≤ u64_max :=
  (wellFormed_reading bytes).length.trans h.below

/-- A tidy file is scanned without damage, and the scan says what the reading says. -/
theorem Tidy.scan (h : Tidy C bytes) :
    ∃ scan, scan_path C (some bytes) true = .ok scan ∧ damaged scan = false ∧
      scan.jobs = (reading C bytes).latest ∧
      scan.max_sequence = (reading C bytes).max_sequence := by
  refine ⟨_, scan_path_eq C bytes true, ?_, rfl, rfl⟩
  have hmax : (reading C bytes).max_sequence ≠ some u64_max := by
    intro hmax
    have hbelow := h.below
    rw [Reading.next, hmax] at hbelow
    exact Nat.not_succ_le_self _ hbelow
  simp only [damaged, h.whole, h.compatible, hmax]
  rfl

/-- **A whole record at the end** is read, and nothing else changes. -/
theorem reading_append_record (hwhole : tail bytes = [])
    (hissue : r.issue = none) (habove : (reading C bytes).next ≤ r.sequence) :
    reading C (bytes ++ C.line r) =
      { latest := Keyed.insert Job.id r.job.durable (reading C bytes).latest
        max_sequence := some r.sequence
        incompatible_records := (reading C bytes).incompatible_records } := by
  have hacc : (reading C bytes).accepts r.durable = true := Reading.accepts_iff.mpr ⟨hissue, habove⟩
  have hmax : some (max ((reading C bytes).max_sequence.getD 0) r.sequence) = some r.sequence := by
    rw [Reading.next] at habove
    cases hmax : (reading C bytes).max_sequence with
    | none => exact congrArg some (Nat.max_eq_right (Nat.zero_le _))
    | some m =>
      rw [hmax] at habove
      exact congrArg some (Nat.max_eq_right (Nat.le_of_lt habove))
  rw [reading_append_line, hwhole, nil_append, read_line_line, Reading.read_record, hacc]
  simp only [if_true, Reading.mk.injEq]
  exact ⟨rfl, hmax, rfl⟩

theorem Tidy.append (h : Tidy C bytes) (hissue : r.issue = none)
    (habove : (reading C bytes).next ≤ r.sequence) (hbound : r.sequence < u64_max) :
    Tidy C (bytes ++ C.line r) := by
  have hread := reading_append_record h.whole hissue habove
  refine ⟨tail_append_line bytes r, ?_, ?_, ?_⟩
  · rw [hread]
    exact h.compatible
  · rw [hread]
    exact hbound
  · intro job hjob
    rw [hread] at hjob
    rcases mem_insert.mp hjob with hold | rfl
    · exact h.durable job hold.1
    · rfl

/-! ## A compacted journal -/

/-- Records numbered from `n`. -/
def numbered (n : ℕ) : List Job → List JournalRecord
  | [] => []
  | job :: jobs => ⟨JOURNAL_SCHEMA_VERSION, n, .from_status job.status, job⟩ :: numbered (n + 1) jobs

theorem mapIdx_eq_numbered (jobs : List Job) (n : ℕ) :
    (jobs.mapIdx fun sequence job =>
      (⟨JOURNAL_SCHEMA_VERSION, n + sequence, .from_status job.status, job⟩ : JournalRecord))
      = numbered n jobs := by
  induction jobs generalizing n with
  | nil => rfl
  | cons job jobs ih =>
    rw [mapIdx_cons, numbered, ← ih (n + 1)]
    congr 2
    funext i job
    rw [Nat.add_assoc, Nat.add_comm 1 i]

theorem compact_records_eq (jobs : List Job) :
    compact_records jobs
      = numbered 0 (jobs.insertionSort fun a b => a.created_at ≤ b.created_at) := by
  rw [← mapIdx_eq_numbered, compact_records]
  congr 1
  funext i job
  rw [Nat.zero_add]

theorem job_of_compact_records (jobs : List Job) :
    ((compact_records jobs).map JournalRecord.job).Perm jobs := by
  have hnumbered : ∀ (jobs : List Job) (n : ℕ), (numbered n jobs).map JournalRecord.job = jobs := by
    intro jobs
    induction jobs with
    | nil => exact fun _ => rfl
    | cons job jobs ih => exact fun n => congrArg (cons job) (ih (n + 1))
  rw [compact_records_eq, hnumbered]
  exact perm_insertionSort _ _

theorem issue_from_status (h : job.has_valid_resolution) (n : ℕ) :
    (⟨JOURNAL_SCHEMA_VERSION, n, .from_status job.status, job⟩ : JournalRecord).issue = none := by
  rw [JournalRecord.issue, if_neg (by simp), JournalRecord.event_matches_status]
  simp [h]

/-- Records with ascending numbers at the end of a file are all read, each in place of the job's
last one. -/
theorem reading_numbered (jobs : List Job) {f : Bytes} {n : ℕ} (hwhole : tail f = [])
    (hvalid : ∀ job ∈ jobs, job.has_valid_resolution = true) (habove : (reading C f).next ≤ n) :
    reading C (f ++ ((numbered n jobs).map C.line).flatten) =
      { latest := Keyed.insertAll Job.id (jobs.map Job.durable) (reading C f).latest
        max_sequence :=
          if jobs = [] then (reading C f).max_sequence else some (n + jobs.length - 1)
        incompatible_records := (reading C f).incompatible_records } := by
  induction jobs generalizing f n with
  | nil =>
    rw [numbered, map_nil, flatten_nil, append_nil]
    rfl
  | cons job jobs ih =>
    have hread := reading_append_record hwhole
      (issue_from_status (hvalid job mem_cons_self) n) habove
    have habove' : (reading C (f ++ C.line
        ⟨JOURNAL_SCHEMA_VERSION, n, .from_status job.status, job⟩)).next ≤ n + 1 := by
      rw [hread]
      exact Nat.le_refl _
    rw [numbered, map_cons, flatten_cons, ← append_assoc,
      ih (tail_append_line _ _) (fun j hj => hvalid j (mem_cons_of_mem _ hj)) habove', hread]
    simp only [Reading.mk.injEq, and_true]
    refine ⟨rfl, ?_⟩
    rw [if_neg (cons_ne_nil _ _), length_cons]
    split
    · rename_i hnil
      rw [hnil]
      rfl
    · congr 1
      omega

section

variable (h : Readable jobs)

include h

/-- **A compacted journal is read as the jobs it was written from.** -/
theorem reading_compacted :
    ∃ sorted : List Job, sorted.Perm jobs ∧ reading C (C.compacted jobs) =
        { latest := sorted.map Job.durable
          max_sequence := if jobs = [] then none else some (jobs.length - 1)
          incompatible_records := 0 } := by
  have hperm := perm_insertionSort (fun a b : Job => a.created_at ≤ b.created_at) jobs
  rw [Codec.compacted, compact_records_eq]
  generalize jobs.insertionSort (fun a b => a.created_at ≤ b.created_at) = sorted at hperm
  have hread := reading_numbered (C := C) sorted (f := []) (n := 0) rfl
    (fun job hjob => h.valid job (hperm.subset hjob)) (Nat.le_refl 0)
  have hudurable : Unique Job.id (sorted.map Job.durable) := by
    rw [Keyed.Unique, map_map]
    exact h.unique.perm hperm
  have hnil : sorted = [] ↔ jobs = [] :=
    ⟨fun h => nil_perm.mp (h ▸ hperm), fun h => perm_nil.mp (h ▸ hperm)⟩
  refine ⟨sorted, hperm, hread.trans ?_⟩
  rw [insertAll_eq hudurable, hperm.length_eq, Nat.zero_add]
  simp only [hnil]
  rfl

/-- **A compacted file shows the same jobs**, as far as they are durable. -/
theorem get_compacted (id : JobId) :
    get Job.id id (reading C (C.compacted jobs)).latest = (get Job.id id jobs).map Job.durable := by
  obtain ⟨sorted, hperm, hread⟩ := reading_compacted (C := C) h
  -- the identifiers are distinct, so the order does not matter
  have hsame : get Job.id id sorted = get Job.id id jobs := by
    apply ext
    intro job
    rw [get_eq_some_iff_of_unique (h.unique.perm hperm),
      get_eq_some_iff_of_unique h.unique, hperm.mem_iff]
  rw [hread, ← hsame, Keyed.get, find?_map]
  rfl

/-- Every job is written once: without its line there is nothing about it. -/
theorem get_unwritten {rs : List JournalRecord} {last : JournalRecord}
    (hrecords : compact_records jobs = rs ++ [last]) :
    get Job.id last.job.id (reading C (rs.map C.line).flatten).latest = none := by
  refine get_eq_none_iff.mpr fun job hjob => ?_
  rw [reading_flatten_lines] at hjob
  obtain ⟨r, hr, rfl⟩ := (mem_latest_foldl _ hjob).resolve_left not_mem_nil
  have hunique : Unique Job.id ((compact_records jobs).map JournalRecord.job) :=
    h.unique.perm (job_of_compact_records jobs)
  rw [hrecords, map_append, Keyed.Unique, map_append] at hunique
  exact (nodup_append.mp hunique).2.2 _ (mem_map_of_mem (mem_map_of_mem hr)) _ mem_cons_self

/-- **What a published journal says**: the same, or, if the last write was lost, nothing about its
job. -/
theorem get_published (kept : Option ℕ) (id : JobId) :
    get Job.id id (reading C (C.published kept jobs)).latest = (get Job.id id jobs).map Job.durable ∨
      kept.isSome = true ∧ get Job.id id (reading C (C.published kept jobs)).latest = none := by
  rw [← get_compacted h id (C := C)]
  rcases published_cases (C := C) kept jobs with hall | ⟨hkept, rs, last, n, hrecords, hpart, hcut⟩
  · rw [hall]
    exact .inl rfl
  rw [hcut, reading_append_torn _ hpart]
  by_cases hid : id = last.job.id
  · rw [hid]
    exact .inr ⟨hkept, get_unwritten h hrecords⟩
  · left
    have hlines : C.compacted jobs = (rs.map C.line).flatten ++ C.line last := by
      rw [Codec.compacted, hrecords, map_append, flatten_append]
      simp
    rw [hlines, reading_append_line, tail_flatten_lines, nil_append, read_line_line,
      Reading.read_record]
    split
    · exact (get_insert_of_ne (a := last.job.durable) hid).symm
    · rfl

/-- **What a compacted journal says**: the jobs, and how many they are. -/
theorem compacted_spec (hbound : jobs.length ≤ u64_max) :
    Tidy C (C.compacted jobs) ∧ Shows (reading C (C.compacted jobs)).latest jobs ∧
      (reading C (C.compacted jobs)).next = jobs.length := by
  have hget := get_compacted (C := C) h
  obtain ⟨sorted, hperm, hread⟩ := reading_compacted (C := C) h
  have hnext : (reading C (C.compacted jobs)).next = jobs.length := by
    rw [hread, Reading.next]
    split
    · rename_i hnil
      rw [hnil]
      rfl
    · rename_i hnil
      exact Nat.sub_add_cancel (length_pos_iff.mpr hnil)
  refine ⟨⟨tail_flatten_lines _, ?_, hnext.trans_le hbound, ?_⟩, ?_, hnext⟩
  · rw [hread]
  · intro job hjob
    rw [hread] at hjob
    obtain ⟨found, -, rfl⟩ := mem_map.mp hjob
    rfl
  · intro id
    rw [hget id]
    cases get Job.id id jobs <;> rfl

theorem next_of_compacted (hbound : jobs.length ≤ u64_max) (hne : jobs ≠ []) :
    (reading C (C.compacted jobs)).max_sequence.bind checked_succ = some jobs.length := by
  have hpos := length_pos_iff.mpr hne
  obtain ⟨sorted, -, hread⟩ := reading_compacted (C := C) h
  rw [hread, if_neg hne, bind_some, checked_succ, if_pos (by omega), Nat.sub_add_cancel hpos]

end

/-- **What is scanned after the rename** is what was published. -/
theorem compact_and_rescan_published {env : CompactEnv} (hrenames : env.renames)
    (hreopen : env.reopen = none) (hrescan : env.rescan = none) (jobs : List Job)
    (collect_jobs attached : Bool) (disk : Disk) :
    ∃ scan, compact_and_rescan C env jobs collect_jobs attached disk
        = (.ok ((compact_journal C env.compact env.kept jobs disk).1, scan), true,
          some (C.published env.kept jobs)) ∧
      scan_path C (some (C.published env.kept jobs)) collect_jobs = .ok scan ∧
      scan.max_sequence = (reading C (C.published env.kept jobs)).max_sequence := by
  have hdisk := compact_journal_renames (C := C) env jobs disk
  rw [if_pos hrenames] at hdisk
  rw [compact_and_rescan, hreopen, hrescan]
  simp only [hdisk, scan_path_eq]
  exact ⟨_, rfl, rfl, rfl⟩

/-! ## A store that is in step with its journal -/

variable (C) in
/-- The store's index is what its journal says, and it can go on writing. -/
structure Current (store : JournalJobStore) (bytes : Bytes) : Prop where
  attached : store.attached = true
  readable : Readable store.index
  length : store.index.length ≤ store.next_sequence
  bound : store.next_sequence ≤ u64_max
  above : (reading C bytes).next ≤ store.next_sequence
  tidy : Tidy C bytes
  shows_index : Shows (reading C bytes).latest store.index

theorem current_compacted {index : List Job} (h : Readable index)
    (hbound : index.length ≤ u64_max) :
    Current C { index := index, next_sequence := index.length } (C.compacted index) := by
  obtain ⟨htidy, hshows, hnext⟩ := compacted_spec (C := C) h hbound
  exact ⟨rfl, h, Nat.le_refl _, hbound, hnext.le, htidy, hshows⟩

/-- A record that is written whole leaves the file current. -/
theorem Current.written (h : Current C store bytes)
    (hissue : (store.next_record event job).issue = none) (hlast : store.next_sequence < u64_max) :
    Current C { store with
        next_sequence := store.next_sequence + 1, index := Keyed.insert Job.id job store.index }
      (bytes ++ C.line (store.next_record event job)) := by
  have htidy := h.tidy.append hissue h.above hlast
  have hread := reading_append_record h.tidy.whole hissue h.above
  refine ⟨h.attached, h.readable.insert (has_valid_resolution_of_issue hissue), ?_, hlast, ?_, htidy,
    ?_⟩
  · exact length_insert_le.trans (Nat.succ_le_succ h.length)
  · rw [hread]
    exact Nat.le_refl _
  · rw [hread]
    exact h.shows_index.insert rfl rfl

theorem insert_ne_nil (job : Job) (jobs : List Job) : Keyed.insert Job.id job jobs ≠ [] := by
  exact append_ne_nil_of_right_ne_nil _ (cons_ne_nil _ _)

variable {env : AppendEnv}

/-- An append that puts nothing into the file when it fails, and whose compaction writes all its
lines. -/
structure AppendEnv.Whole (env : AppendEnv) : Prop where
  write : ∀ k e, env.write = some (k, e) → k = 0
  compact : env.compact = none
  kept : env.kept = none
  reopen : env.reopen = none
  rescan : env.rescan = none

/-- A compaction that loses nothing leaves the file current, and the index as it was. -/
theorem Current.compact_if_due (h : Current C store bytes) (hne : store.index ≠ [])
    (hwhole : env.Whole) :
    ∃ (store' : JournalJobStore) (bytes' : Bytes),
      compact_if_due C env.toCompactEnv store (some bytes) = (.ok (), store', some bytes') ∧
      Current C store' bytes' ∧ store'.index = store.index := by
  by_cases hdue : store.next_sequence < store.index.length + COMPACT_THRESHOLD
  · exact ⟨store, bytes, if_pos hdue, h, rfl⟩
  have hbound := h.length.trans h.bound
  have hrenames : env.renames = true := by
    rw [CompactEnv.renames, hwhole.compact]
  have hpublished : C.published env.kept store.index = C.compacted store.index := by
    rw [hwhole.kept]
    rfl
  obtain ⟨scan, hscan, -, hsequence⟩ := compact_and_rescan_published (C := C) hrenames hwhole.reopen
    hwhole.rescan store.index false store.attached (some bytes)
  rw [hpublished] at hscan hsequence
  refine ⟨_, C.compacted store.index, ?_, current_compacted h.readable hbound, rfl⟩
  rw [JournalJobStore.compact_if_due, if_neg hdue, hscan]
  simp only [hsequence, next_of_compacted h.readable hbound hne, hwhole.compact, compact_journal]

/-- **An append** that is acknowledged leaves the store in step, with the job in its index. One that
fails has put nothing into the file and changes nothing. -/
theorem Current.append (h : Current C store bytes)
    (hissue : (store.next_record event job).issue = none) (hwhole : env.Whole) :
    (∃ (store' : JournalJobStore) (bytes' : Bytes),
      store.append C env event job (some bytes) = (.ok (), store', some bytes') ∧
      Current C store' bytes' ∧ store'.index = Keyed.insert Job.id job store.index) ∨
    ∃ e, store.append C env event job (some bytes) = (.error e, store, some bytes) := by
  have hdisk : ∀ text, store.write text (some bytes) = some (bytes ++ text) := by
    intro text
    rw [JournalJobStore.write, h.attached]
    rfl
  rw [JournalJobStore.append]
  cases hnext : checked_succ store.next_sequence with
  | none => exact .inr ⟨_, rfl⟩
  | some next =>
    obtain ⟨rfl, hlast⟩ := checked_succ_eq_some hnext
    cases hwrite : env.write with
    | some fault =>
      obtain ⟨k, e⟩ := fault
      obtain rfl := hwhole.write k e hwrite
      refine .inr ⟨.io e, ?_⟩
      simp only [take_zero, hdisk, append_nil]
    | none =>
      simp only [hdisk]
      exact .inl ((h.written hissue hlast).compact_if_due (insert_ne_nil _ _) hwhole)

/-! ## Opening -/

/-- Recording the jobs that need reconciliation changes nothing in the index, by induction on those
that are left. -/
theorem Current.append_recovered {env : ℕ → AppendEnv} (jobs : List Job) (n : ℕ)
    (h : Current C store bytes) (hjobs : ∀ job ∈ jobs, get Job.id job.id store.index = some job ∧
      job.status = .reconciliation_required) (hwhole : ∀ n, (env n).Whole) :
    ∃ (store' : JournalJobStore) (bytes' : Bytes), Current C store' bytes' ∧
      (∀ id, get Job.id id store'.index = get Job.id id store.index) ∧
      (append_recovered C env n jobs store (some bytes) = (.ok store', some bytes') ∨
        ∃ e, append_recovered C env n jobs store (some bytes) = (.error e, some bytes')) := by
  induction jobs generalizing store bytes n with
  | nil => exact ⟨store, bytes, h, fun _ => rfl, .inl rfl⟩
  | cons job jobs ih =>
    obtain ⟨hget, hstatus⟩ := hjobs job mem_cons_self
    have hissue : (store.next_record .recovered job).issue = none := by
      have hmatch := issue_from_status (h.readable.valid job (mem_of_get hget)) store.next_sequence
      rw [hstatus] at hmatch
      exact hmatch
    rw [JournalJobStore.append_recovered]
    rcases h.append hissue (hwhole n) with ⟨store₁, bytes₁, happend, hcurrent, hindex⟩ | ⟨e, happend⟩
    · have hsame : ∀ id, get Job.id id store₁.index = get Job.id id store.index := by
        intro id
        rw [hindex]
        by_cases hid : id = job.id
        · rw [hid, get_insert_self, hget]
        · exact get_insert_of_ne hid
      rw [happend]
      obtain ⟨store', bytes', hcurrent', hsame', hresult⟩ := ih (n + 1) hcurrent
        (fun j hj => ⟨(hsame j.id).trans (hjobs j (mem_cons_of_mem _ hj)).1,
          (hjobs j (mem_cons_of_mem _ hj)).2⟩)
      exact ⟨store', bytes', hcurrent', fun id => (hsame' id).trans (hsame id), hresult⟩
    · rw [happend]
      exact ⟨store, bytes, h, fun _ => rfl, .inr ⟨e, rfl⟩⟩

/-- What opening a journal leaves behind: a journal that still has every acknowledged job, and, if it
succeeds, a store in step with it that hands them out. -/
structure Restores (C : Codec) (acknowledged : List Job)
    (r : Except StoreError JournalJobStore × Disk) : Prop where
  tidy : Tidy C (r.2.getD [])
  shows_journal : Shows (reading C (r.2.getD [])).latest acknowledged
  store : ∀ store, r.1 = .ok store → (∃ bytes, r.2 = some bytes ∧ Current C store bytes) ∧
    Shows store.index acknowledged ∧ ∀ job ∈ store.index, job.restored = job

/-- **The end of an open** with whole writes: the store shows what was acknowledged. -/
theorem Current.finish_open {env : OpenEnv} {recovered : List Job}
    (h : Current C store (disk.getD []))
    (hrecovered : ∀ job ∈ recovered, get Job.id job.id store.index = some job ∧
      job.status = .reconciliation_required)
    (hshows : Shows store.index acknowledged) (hrestored : ∀ job ∈ store.index, job.restored = job)
    (hwhole : ∀ n, (env.recovered n).Whole) :
    Restores C acknowledged (finish_open C env store recovered disk) := by
  rw [JournalJobStore.finish_open]
  cases hfile : env.file with
  | some e => exact ⟨h.tidy, h.shows_index.trans hshows, nofun⟩
  | none =>
    obtain ⟨store', bytes', hcurrent, hsame, hresult⟩ := h.append_recovered recovered 0 hrecovered hwhole
    have hindex : Shows store'.index acknowledged := by
      intro id
      rw [hsame id]
      exact hshows id
    have hjournal := hcurrent.shows_index.trans hindex
    have hfixed : ∀ job ∈ store'.index, job.restored = job := by
      intro job hjob
      have hget := hcurrent.readable.unique.get_of_mem hjob rfl
      rw [hsame] at hget
      exact hrestored job (mem_of_get hget)
    rcases hresult with hresult | ⟨e, hresult⟩
    · rw [hresult]
      refine ⟨hcurrent.tidy, hjournal, fun found hfound => ?_⟩
      obtain rfl := Except.ok.inj hfound
      exact ⟨⟨bytes', rfl, hcurrent⟩, hindex, hfixed⟩
    · rw [hresult]
      exact ⟨hcurrent.tidy, hjournal, nofun⟩

theorem Tidy.scan_disk (h : Tidy C (disk.getD [])) :
    ∃ scan, scan_path C disk true = .ok scan ∧ damaged scan = false ∧
      scan.jobs = (reading C (disk.getD [])).latest ∧
      scan.max_sequence = (reading C (disk.getD [])).max_sequence := by
  cases disk with
  | none => exact ⟨{}, rfl, rfl, rfl, rfl⟩
  | some bytes => exact h.scan

theorem get_of_interrupted (hu : Unique Job.id jobs) (h : job ∈ interrupted jobs) :
    get Job.id job.id (jobs.map (reopened false)) = some job ∧
      job.status = .reconciliation_required := by
  obtain ⟨found, hfound, rfl⟩ := mem_map.mp h
  obtain ⟨hmem, hrunning⟩ := mem_filter.mp hfound
  constructor
  · rw [get_map_reopened, reopened_id, hu.get_of_mem hmem rfl]
    rfl
  · rw [reopened_false, if_pos (of_decide_eq_true hrunning)]
    rfl

/-- An open whose appends are whole, and whose compaction writes all its lines. -/
structure JournalJobStore.OpenEnv.Whole (env : OpenEnv) : Prop where
  kept : env.kept = none
  recovered : ∀ n, (env.recovered n).Whole

/-- **Opening restores what was acknowledged**, if there is nothing that retention would drop. -/
theorem Tidy.open_store {env : OpenEnv} (h : Tidy C (disk.getD []))
    (hshows : Shows (reading C (disk.getD [])).latest acknowledged)
    (hroom : (terminal_jobs acknowledged).length ≤ COMPACT_RETAINED_TERMINAL)
    (hwhole : env.Whole) : Restores C acknowledged (open_store C env disk) := by
  obtain ⟨scan, hscan, hintact, hjobs, hmax⟩ := h.scan_disk
  obtain ⟨hlatest, hnumbers⟩ := wellFormed_reading (C := C) (disk.getD [])
  have hlength := h.length_le
  have hdurable := h.durable
  have hunchanged : ∀ e, Restores C acknowledged (.error e, disk) := fun e => ⟨h, hshows, nofun⟩
  rw [← hjobs] at hshows hlatest hnumbers hlength hdurable
  -- the index is the latest state of every job, as opening hands it out
  have hreadable := hlatest.reopened
  have hrecovered : ∀ job ∈ interrupted scan.jobs,
      get Job.id job.id (scan.jobs.map (reopened false)) = some job ∧
        job.status = .reconciliation_required := fun job hjob => get_of_interrupted hlatest.unique hjob
  have hrestored : ∀ job ∈ scan.jobs.map (reopened false), job.restored = job := by
    intro job hjob
    obtain ⟨found, hfound, rfl⟩ := mem_map.mp hjob
    rw [restored_reopened, Job.restored, hdurable found hfound]
  have hindex : Shows (scan.jobs.map (reopened false)) acknowledged :=
    (shows_map_reopened scan.jobs).trans hshows
  rw [JournalJobStore.open_store]
  cases hfault : env.scan with
  | some e => exact hunchanged _
  | none =>
    simp only [hscan, hintact, Bool.false_eq_true, if_false,
      prune_index_eq_self ((hindex.terminal_le hreadable.unique).trans hroom), hwhole.kept]
    by_cases hdue : scan.max_sequence.any (COMPACT_THRESHOLD ≤ ·) = true
    · rw [if_pos hdue]
      have hcurrent := current_compacted (C := C) hreadable ((length_map _).trans_le hlength)
      -- the compaction succeeds, fails before its rename, or fails behind it
      rcases hf : env.compact with _ | ⟨_ | _, e⟩
      · exact hcurrent.finish_open hrecovered hindex hrestored hwhole.recovered
      · exact hunchanged _
      · exact ⟨hcurrent.tidy, hcurrent.shows_index.trans hindex, nofun⟩
    rw [if_neg hdue]
    have hnext : (scan.max_sequence.bind checked_succ).getD 0
        = (reading C (disk.getD [])).next := by
      have hbelow := h.below
      rw [Reading.next] at hbelow ⊢
      rw [hmax]
      cases hm : (reading C (disk.getD [])).max_sequence with
      | none => rfl
      | some m =>
        rw [hm] at hbelow
        exact congrArg (Option.getD · 0) (if_pos hbelow)
    have hcurrent : Current C
        { index := scan.jobs.map (reopened false)
          next_sequence := (scan.max_sequence.bind checked_succ).getD 0 } (disk.getD []) := by
      rw [hnext]
      refine ⟨rfl, hreadable, (length_map _).trans_le hnumbers, h.below, Nat.le_refl _, h, ?_⟩
      rw [← hjobs]
      exact fun id => (shows_map_reopened scan.jobs id).symm
    exact hcurrent.finish_open hrecovered hindex hrestored hwhole.recovered

/-! ## Runs -/

/-- The journal, the process's store if it has one open, and the last acknowledged state of every
job. -/
structure World where
  disk : Disk := none
  store : Option JournalJobStore := none
  acknowledged : List Job := []

/-- What can happen to a job journal. -/
inductive Action
  /-- `JournalJobStore::open`, in this process or the next. -/
  | open_journal (env : OpenEnv)
  | put (env : AppendEnv) (job : Job)
  | update (env : AppendEnv) (job : Job) (event : JobEvent)

/-- The world after an append that returned `r`. -/
def World.appended (w : World) (job : Job)
    (r : Except StoreError Unit × JournalJobStore × Disk) : World :=
  { disk := r.2.2
    store := some r.2.1
    acknowledged :=
      match r.1 with
      | .ok () => Keyed.insert Job.id job w.acknowledged
      | .error _ => w.acknowledged }

variable {w : World}

variable (C) in
/-- One action. -/
def step (w : World) : Action → Option World
  | .open_journal env =>
    match open_store C env w.disk with
    | (.ok store, disk) => some { w with disk := disk, store := some store }
    | (.error _, disk) => some { w with disk := disk, store := none }
  | .put env job => w.store.map fun store => w.appended job (store.put C env job w.disk)
  | .update env job event =>
    w.store.map fun store => w.appended job (store.update C env job event w.disk)

/-- The actions of a run in which an append that fails has put nothing into the file and a compaction
has written its last line. An open finds no more terminal jobs than it retains, and jobs are recorded
as the scheduler records them: with a receipt exactly if they are `Resolved`, and under an event that
leads to their status. -/
def Orderly (w : World) : Action → Prop
  | .open_journal env =>
    env.Whole ∧ (terminal_jobs w.acknowledged).length ≤ COMPACT_RETAINED_TERMINAL
  | .put env job => env.Whole ∧ job.has_valid_resolution = true
  | .update env job event => env.Whole ∧ job.has_valid_resolution = true ∧
      event = .from_status job.status

variable (C) in
/-- States reached by runs from no journal at all whose actions meet `ok`. -/
abbrev ReachedWith (ok : World → Action → Prop) (w : World) : Prop :=
  Reachable (· = {}) (step C) ok w

variable (C) in
/-- The journal has every acknowledged job, and an open store is in step with it. -/
structure Consistent (w : World) : Prop where
  tidy : Tidy C (w.disk.getD [])
  shows_journal : Shows (reading C (w.disk.getD [])).latest w.acknowledged
  store : ∀ store, w.store = some store →
    Shows store.index w.acknowledged ∧ ∃ bytes, w.disk = some bytes ∧ Current C store bytes

theorem consistent_start : Consistent C {} := ⟨tidy_empty, fun _ => rfl, nofun⟩

theorem Current.consistent (h : Current C store bytes) (hshows : Shows store.index acknowledged) :
    Consistent C ⟨some bytes, some store, acknowledged⟩ := by
  refine ⟨h.tidy, h.shows_index.trans hshows, ?_⟩
  intro found hfound
  obtain rfl := some.inj hfound
  exact ⟨hshows, bytes, rfl, h⟩

/-- An append with whole writes is acknowledged only when its record is in the file. -/
theorem Consistent.appended (h : Consistent C w) (hstore : w.store = some store)
    (hwhole : env.Whole) (hissue : (store.next_record event job).issue = none) :
    Consistent C (w.appended job (store.append C env event job w.disk)) := by
  obtain ⟨hshows, bytes, hdisk, hcurrent⟩ := h.store store hstore
  rw [hdisk]
  rcases hcurrent.append hissue hwhole with
    ⟨store', bytes', happend, hcurrent', hindex⟩ | ⟨e, happend⟩
  · rw [happend, World.appended]
    refine hcurrent'.consistent ?_
    rw [hindex]
    exact hshows.insert rfl rfl
  · rw [happend, World.appended]
    exact hcurrent.consistent hshows

theorem issue_put_event (h : job.has_valid_resolution) :
    (store.next_record (put_event job) job).issue = none := by
  by_cases hpending : job.status = .pending
  · rw [put_event, if_pos hpending, JournalRecord.issue, if_neg (by simp [next_record]),
      JournalRecord.event_matches_status]
    simp [next_record, h, hpending]
  · rw [put_event, if_neg hpending]
    exact issue_from_status h store.next_sequence

/-- **One orderly step** keeps store, file and acknowledgements consistent. -/
theorem Consistent.step {w' : World} {action : Action} (h : Consistent C w)
    (horderly : Orderly w action) (hstep : step C w action = some w') : Consistent C w' := by
  cases action with
  | open_journal env =>
    have hrestores := h.tidy.open_store h.shows_journal horderly.2 horderly.1
    rw [Jobs.step] at hstep
    rcases hr : open_store C env w.disk with ⟨e | store, disk⟩
    · rw [hr] at hstep hrestores
      cases hstep
      exact ⟨hrestores.tidy, hrestores.shows_journal, nofun⟩
    rw [hr] at hstep hrestores
    cases hstep
    obtain ⟨⟨bytes, rfl, hcurrent⟩, hshows, -⟩ := hrestores.store store rfl
    exact hcurrent.consistent hshows
  | put env job =>
    obtain ⟨store, hstore, rfl⟩ := map_eq_some_iff.mp hstep
    exact h.appended hstore horderly.1 (issue_put_event horderly.2)
  | update env job event =>
    obtain ⟨store, hstore, rfl⟩ := map_eq_some_iff.mp hstep
    obtain ⟨hwhole, hvalid, rfl⟩ := horderly
    exact h.appended hstore hwhole (issue_from_status hvalid store.next_sequence)

theorem consistent_of_reached (h : ReachedWith C Orderly w) : Consistent C w :=
  h.invariant (fun _ hw => hw ▸ consistent_start) fun _ _ _ hw hok ht => hw.step hok ht

/-- **Reopening hands out every acknowledged job** in its last acknowledged state, in every run whose
failed appends put nothing into the file, whose compactions write their last line, and whose opens,
this one included, find no more terminal jobs than they retain. -/
theorem reopened_keeps_acknowledged {w : World} (h : ReachedWith C Orderly w) {env : OpenEnv}
    (horderly : Orderly w (.open_journal env)) {store : JournalJobStore} {disk : Disk}
    (hopen : open_store C env w.disk = (.ok store, disk)) {job : Job}
    (hjob : get Job.id job.id w.acknowledged = some job) :
    get Job.id job.id store.index = some job.restored := by
  have hconsistent := consistent_of_reached h
  have hrestores := hconsistent.tidy.open_store hconsistent.shows_journal horderly.2 horderly.1
  obtain ⟨-, hshows, hfixed⟩ := hrestores.store store (by rw [hopen])
  have hsame := hshows job.id
  rw [hjob] at hsame
  obtain ⟨found, hfound, hrestored⟩ := map_eq_some_iff.mp hsame
  rw [hfound, ← hrestored, hfixed found (mem_of_get hfound)]

/-! ## Two runs -/

/-- A job as it is submitted. -/
def submitted_job (id : JobId) : Job := { id := id, name := "noop", created_at := 0 }

/-- Two submissions, the first of which ends as `fault` says. -/
def two_puts (fault : Option (ℕ × IoError)) : List Action :=
  [.open_journal {}, .put { write := fault } (submitted_job 1), .put {} (submitted_job 2)]

/-- The index that opening the journal of a world gives. -/
def reopen (w : World) : Option (List Job) :=
  match (open_store wire_codec {} w.disk).1 with
  | .ok store => some store.index
  | .error _ => none

theorem open_store_of_reopen {index : List Job} (h : reopen w = some index) :
    ∃ store disk, open_store wire_codec {} w.disk = (.ok store, disk) ∧ store.index = index := by
  rw [reopen] at h
  rcases hr : open_store wire_codec {} w.disk with ⟨e | store, disk⟩
  · rw [hr] at h
    nomatch h
  · rw [hr] at h
    exact ⟨store, disk, rfl, some.inj h⟩

/-- **An acknowledged job can be lost.** The first submission fails after one byte, the second is
acknowledged, and after reopening there is no trace of it. -/
theorem acknowledged_job_lost :
    ∃ (w : World) (store : JournalJobStore) (disk : Disk),
      ReachedWith wire_codec (fun _ _ => True) w ∧
      open_store wire_codec {} w.disk = (.ok store, disk) ∧
      w.acknowledged = [submitted_job 2] ∧ store.index = [] := by
  obtain ⟨w, hrun, hacknowledged, hindex⟩ : ∃ w ∈ run (step wire_codec) {}
      (two_puts (some (1, ⟨.other, "write"⟩))),
      w.acknowledged = [submitted_job 2] ∧ reopen w = some [] := by
    decide +kernel
  obtain ⟨store, disk, hopen, hstore⟩ := open_store_of_reopen hindex
  exact ⟨w, store, disk, reachable_of_run (.start rfl) (fun _ _ _ => True.intro) hrun, hopen,
    hacknowledged, hstore⟩

/-- When the first submission fails before its first byte, the second one is there. -/
theorem acknowledged_job_kept :
    ∃ (w : World) (store : JournalJobStore) (disk : Disk),
      ReachedWith wire_codec Orderly w ∧
      open_store wire_codec {} w.disk = (.ok store, disk) ∧
      w.acknowledged = [submitted_job 2] ∧
      get Job.id 2 store.index = some (submitted_job 2).restored := by
  obtain ⟨w, hrun, hacknowledged, hreopens⟩ : ∃ w ∈ run (step wire_codec) {}
      (two_puts (some (0, ⟨.other, "write"⟩))),
      w.acknowledged = [submitted_job 2] ∧ (reopen w).isSome = true := by
    decide +kernel
  obtain ⟨index, hindex⟩ := isSome_iff_exists.mp hreopens
  obtain ⟨store, disk, hopen, -⟩ := open_store_of_reopen hindex
  have hwhole : ∀ fault : Option (ℕ × IoError), (∀ k e, fault = some (k, e) → k = 0) →
      AppendEnv.Whole { write := fault } := fun _ h => ⟨h, rfl, rfl, rfl, rfl⟩
  have hopens : OpenEnv.Whole {} := ⟨rfl, fun _ => hwhole none nofun⟩
  have hreached : ReachedWith wire_codec Orderly w := by
    obtain ⟨opened, hopened, hputs⟩ := bind_eq_some_iff.mp hrun
    have hstart : Orderly {} (.open_journal {}) := ⟨hopens, by decide⟩
    refine reachable_of_run (.next (.start rfl) hstart hopened) ?_ hputs
    intro action haction s
    simp only [mem_cons, not_mem_nil, or_false] at haction
    rcases haction with rfl | rfl
    · refine ⟨hwhole _ ?_, rfl⟩
      intro k e h
      exact (Prod.mk.inj (some.inj h)).1.symm
    · exact ⟨hwhole none nofun, rfl⟩
  have hjob : get Job.id (submitted_job 2).id w.acknowledged = some (submitted_job 2) := by
    rw [hacknowledged]
    exact get_insert_self (l := [])
  refine ⟨w, store, disk, hreached, hopen, hacknowledged, ?_⟩
  exact reopened_keeps_acknowledged hreached ⟨hopens, hacknowledged ▸ by decide⟩ hopen hjob

end BobbyBrowser.Jobs
