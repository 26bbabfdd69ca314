/-
What is in the journal after a compaction.

A compaction writes the jobs of the index anew, in the order in which they were
created and numbered from zero, and the store scans what it has written. Every
job that the scheduler keeps is one that the scan believes, so that it finds the
retained jobs and nothing else.

A retention prune that fails before its rename scans the old file all the same
and takes its index from there. If a record of that file cannot be read, because
the write before it was cut short, the job is gone from the index. It is gone
too if the last write of the compaction fails: nothing flushes the file before
it is renamed, so nobody notices.
-/
import BobbyBrowser.SchedulerValid
import BobbyBrowser.SchedulerSettled

set_option autoImplicit false

namespace BobbyBrowser.Scheduling

open Jobs JournalJobStore Jsonl List Option Keyed

variable {C : Codec} {config : SchedulerConfig} {store : JournalJobStore} {disk : Disk}
  {jobs : List Job} {retained : ℕ}

/-! ## Retention -/

/-- Of the terminal jobs retention keeps the last ones. -/
theorem terminal_prune_index (hu : Keyed.Unique Job.id jobs) (retained : ℕ) :
    ((prune_index retained jobs).filter fun job => job.status.is_terminal).Perm
      ((terminal_jobs jobs).drop ((terminal_jobs jobs).length - retained)) := by
  have hperm : (terminal_jobs jobs).Perm (jobs.filter fun job => job.status.is_terminal) :=
    perm_insertionSort _ _
  have hunique : Unique Job.id (terminal_jobs jobs) := (hu.filter _).perm hperm
  rw [prune_index, removeAll_eq_filter, filter_comm]
  refine (hperm.symm.filter _).trans (Perm.of_eq ?_)
  -- the excess is in front, and no job behind it has an identifier of one in it
  rw [← take_append_drop ((terminal_jobs jobs).length - retained) (terminal_jobs jobs)]
    at hunique
  have hrest := filter_notMem_front hunique
  rw [take_append_drop] at hrest
  exact hrest

/-- What retention keeps: every job that is not terminal, and of the terminal ones as many as it may,
those that ended last. -/
structure Retains (retained : ℕ) (jobs kept : List Job) : Prop where
  sublist : kept.Sublist jobs
  live : ∀ job ∈ jobs, job.status.is_terminal = false → job ∈ kept
  older : ∀ job ∈ jobs, job ∉ kept → ∀ other ∈ kept, other.status.is_terminal = true →
    job.ended_at ≤ other.ended_at
  count : (kept.filter fun job => job.status.is_terminal).length
    = min retained (jobs.filter fun job => job.status.is_terminal).length

/-- **What retention keeps**: every job that is not terminal, and of the others the last to end, as
many as it may. -/
theorem retains_prune_index (hu : Keyed.Unique Job.id jobs) (retained : ℕ) :
    Retains retained jobs (prune_index retained jobs) := by
  have hterminal := terminal_prune_index hu retained
  have hdropped {job : Job} (hjob : job ∈ jobs) (hnot : job ∉ prune_index retained jobs) :
      job ∈ (terminal_jobs jobs).take ((terminal_jobs jobs).length - retained) := by
    rw [prune_index, removeAll_eq_filter, mem_filter, not_and, decide_eq_true_eq, not_not] at hnot
    obtain ⟨other, hother, hid⟩ := mem_map.mp (hnot hjob)
    have hmem := mem_of_mem_take hother
    rw [terminal_jobs, mem_insertionSort, mem_filter] at hmem
    rw [← inj_on_of_nodup_map hu hmem.1 hjob hid]
    exact hother
  refine ⟨?_, ?_, ?_, ?_⟩
  · exact removeAll_sublist _ _
  · intro job hjob hlive
    by_contra hnot
    have hmem := mem_of_mem_take (hdropped hjob hnot)
    rw [terminal_jobs, mem_insertionSort, mem_filter, hlive] at hmem
    cases hmem.2
  · intro job hjob hnot other hother hended
    -- the terminal jobs are sorted, and the excess is in front
    have hsorted : (terminal_jobs jobs).Pairwise fun a b => a.ended_at ≤ b.ended_at :=
      pairwise_insertionSort _ _
    rw [← take_append_drop ((terminal_jobs jobs).length - retained) (terminal_jobs jobs)]
      at hsorted
    refine (pairwise_append.mp hsorted).2.2 job (hdropped hjob hnot) other ?_
    exact hterminal.subset (mem_filter.mpr ⟨hother, hended⟩)
  · rw [hterminal.length_eq, length_drop, terminal_jobs, length_insertionSort]
    omega

/-! ## What a compaction leaves -/

variable (C) in
/-- What a scan of the journal should yield: nothing torn, nothing that is not believed, exactly
these jobs, and no number that the next append would not exceed. -/
def Yields (jobs : List Job) (next_sequence : ℕ) (disk : Disk) : Prop :=
  ∃ scan, scan_path C disk true = .ok scan ∧ scan.torn_tail = false ∧
    scan.incompatible_records = 0 ∧ scan.jobs.Perm (jobs.map Job.durable) ∧
    ∀ n ∈ scan.max_sequence, n < next_sequence

/-- A compacted journal yields the jobs it was written from. -/
theorem yields_compacted (h : Readable jobs) {next_sequence : ℕ}
    (hnext : jobs ≠ [] → next_sequence = jobs.length) :
    Yields C jobs next_sequence (some (C.compacted jobs)) := by
  obtain ⟨sorted, hperm, hread⟩ := reading_compacted (C := C) h
  refine ⟨_, scan_path_eq C _ true, ?_, ?_, ?_, ?_⟩
  · simp [tail_flatten_lines]
  · rw [hread]
  · rw [hread]
    exact hperm.map _
  · intro n hn
    change n ∈ (reading C _).max_sequence at hn
    rw [hread] at hn
    split at hn
    · nomatch hn
    · rename_i hne
      rw [hnext hne, ← mem_some_iff.mp hn]
      exact Nat.sub_lt (length_pos_iff.mpr hne) Nat.one_pos

/-- **What a compaction publishes yields the jobs** exactly if every line is in it. -/
theorem yields_published_iff (h : Readable jobs) {kept : Option ℕ} {next_sequence : ℕ}
    (hnext : C.published kept jobs = C.compacted jobs → jobs ≠ [] → next_sequence = jobs.length) :
    Yields C jobs next_sequence (some (C.published kept jobs)) ↔
      C.published kept jobs = C.compacted jobs := by
  constructor
  · rintro ⟨scan, hscan, -, -, hperm, -⟩
    rcases published_cases (C := C) kept jobs with hall | ⟨-, rs, last, n, hrecords, hpart, hcut⟩
    · exact hall
    -- the job of the lost line would have been found
    rw [hcut, scan_path_eq, reading_append_torn _ hpart] at hscan
    rw [← Except.ok.inj hscan] at hperm
    have hlast : last.job ∈ jobs := mem_compact_records (hrecords ▸ mem_append_right _ mem_cons_self)
    have hfound : last.job.durable ∈ (reading C (rs.map C.line).flatten).latest :=
      hperm.mem_iff.mpr (mem_map_of_mem hlast)
    exact absurd rfl (get_eq_none_iff.mp (get_unwritten h hrecords) last.job.durable hfound)
  · intro hall
    rw [hall]
    exact yields_compacted h (hnext hall)

variable (C config) in
/-- The stores of the scheduler: between two transitions, and before the first. -/
inductive ReachedStore : JournalJobStore → Disk → Prop
  | up {m : Memory} (h : Reached C config (.up m)) : ReachedStore m.store m.disk
  | opened {left : Remains} {env : OpenEnv} {store : JournalJobStore} {disk : Disk}
      (h : Reached C config (.down left))
      (hopen : open_store C env left.disk = (.ok store, disk)) : ReachedStore store disk

theorem ReachedStore.readable (h : ReachedStore C config store disk) : Readable store.index := by
  cases h with
  | up h => exact h.valid.index
  | opened h hopen => exact (open_store_reloaded (C := C) _ (congrArg Prod.fst hopen)).toReadable

theorem succ_of_mem {found : Option ℕ} {n : ℕ} (hn : n ∈ found) (hlast : n < u64_max) :
    found.bind checked_succ = some (n + 1) := by
  rw [mem_def.mp hn, bind_some, checked_succ, if_pos (Nat.succ_le_of_lt hlast)]

/-- **A compaction that is due.** Scanning the file that it renames yields the jobs of the index
exactly if every line is in it; and then the next append exceeds every number. -/
theorem compact_if_due_yields {env : CompactEnv} (h : Readable store.index)
    (hlength : store.index.length ≤ u64_max) (hreopen : env.reopen = none)
    (hrescan : env.rescan = none)
    (hdue : ¬ store.next_sequence < store.index.length + COMPACT_THRESHOLD)
    (hrenames : env.renames) :
    Yields C store.index (compact_if_due C env store disk).2.1.next_sequence
        (compact_if_due C env store disk).2.2 ↔
      C.published env.kept store.index = C.compacted store.index := by
  obtain ⟨scan, heq, -, hmax⟩ := compact_and_rescan_published (C := C) hrenames hreopen hrescan
    store.index false store.attached disk
  rw [compact_if_due, if_neg hdue, heq]
  simp only [hmax]
  have hnext (hall : C.published env.kept store.index = C.compacted store.index)
      (hne : store.index ≠ []) :
      (reading C (C.published env.kept store.index)).max_sequence.bind checked_succ
        = some store.index.length := hall ▸ next_of_compacted h hlength hne
  split
  · rename_i hnone
    exact yields_published_iff h fun hall hne =>
      absurd ((hnext hall hne).symm.trans hnone) (some_ne_none _)
  · rename_i n hsome
    exact yields_published_iff h fun hall hne => some.inj (hsome.symm.trans (hnext hall hne))

/-- A prune takes over what it finds at the path, whether or not it has put it there. -/
theorem prune_terminal_scanned {env : CompactEnv} (hreopen : env.reopen = none)
    (hrescan : env.rescan = none) (hexcess : retained < (terminal_jobs store.index).length)
    (disk : Disk) :
    (store.prune_terminal C env retained disk).2.2
        = (compact_journal C env.compact env.kept (prune_index retained store.index) disk).2 ∧
      ∃ scan, scan_path C (compact_journal C env.compact env.kept (prune_index retained store.index) disk).2
          true = .ok scan ∧
        (store.prune_terminal C env retained disk).2.1 = ⟨scan.jobs,
          (scan.max_sequence.bind checked_succ).getD 0, true⟩ := by
  obtain ⟨scan, hscan⟩ := scan_path_ok (C := C)
    (compact_journal C env.compact env.kept (prune_index retained store.index) disk).2
  rw [JournalJobStore.prune_terminal, if_neg (not_le.mpr hexcess)]
  unfold compact_and_rescan
  simp only [hreopen, hrescan, hscan]
  exact ⟨trivial, scan, rfl, rfl⟩

/-- A scheduler that keeps no terminal jobs. -/
def forgetting : SchedulerConfig := { retrying with retained_terminal_jobs := 0 }

/-- The first job is submitted with a write that is cut short, two more follow, and the last one is
cancelled; no file can be opened when it is to be pruned. -/
def cut_short : List Happening :=
  [.open_journal {} {}, .deed (.submit { put := { write := some (5, ⟨.other, "write"⟩) } }
      { id := 1, name := "fetch", created_at := 0 }),
    .deed (.submit {} { id := 2, name := "fetch", created_at := 0 }),
    .deed (.submit {} { id := 3, name := "fetch", created_at := 0 }),
    .deed (.cancel_job
      { now := 1
        prune := { compact := some (false, ⟨.other, "open"⟩), reopen := some ⟨.other, "open"⟩ } }
      3)]

theorem reached_cut_short :
    ∃ m, Reached wire_codec forgetting (.up m) ∧ m.store.index.length = 2 ∧
      (terminal_jobs m.store.index).length = 1 ∧ status_in m.store.index 2 = some .pending ∧
      status_in (m.store.prune_terminal wire_codec { compact := some (false, ⟨.other, "open"⟩) }
        forgetting.retained_terminal_jobs m.disk).2.1.index 2 = none := by
  refine exists_up cut_short (fun _ _ _ => trivial) ?_
  decide +kernel

/-- The second of two jobs is cancelled, and the prune behind it leaves the file alone. -/
def one_cancelled : List Happening :=
  [.open_journal {} {}, .deed (.submit {} { id := 1, name := "fetch", created_at := 0 }),
    .deed (.submit {} { id := 2, name := "fetch", created_at := 0 }),
    .deed (.cancel_job { now := 1, prune := { compact := some (false, ⟨.other, "open"⟩) } } 2)]

end BobbyBrowser.Scheduling
