/-
What the job store's operations do to its index and to the file.

A compaction leaves the file alone or replaces it, an append writes some part of
a line and may compact, a retention prune publishes the jobs that stay and takes
over what it finds in the file then. Each operation is told once, case by case,
wherever the file system fails it.
-/
import BobbyBrowser.JobStoreFile

set_option autoImplicit false

namespace BobbyBrowser.Jobs

open Jsonl List

variable {jobs : List Job} {scan : Scan} {event : JobEvent} {job : Job} {retained : ℕ}
  {store' : JournalJobStore}

variable {C : Codec} {store : JournalJobStore} {disk : Disk} {id : JobId}

/-! ## The file -/

/-- The journal at the path, if there is one, is sane. -/
def SaneDisk (disk : Disk) : Prop := ∀ bytes ∈ disk, Sane bytes

/-! ## Compaction -/

theorem compact_journal_rule {P : Disk → Prop} {kept : Option ℕ} (h : P disk)
    (hnew : P (some (C.published kept jobs))) (failure : Option (Bool × IoError)) :
    P (compact_journal C failure kept jobs disk).2 := by
  rcases failure with _ | ⟨_ | _, e⟩
  · exact hnew
  · exact h
  · exact hnew

theorem compact_journal_renames (env : CompactEnv) (jobs : List Job) (disk : Disk) :
    (compact_journal C env.compact env.kept jobs disk).2
      = if env.renames then some (C.published env.kept jobs) else disk := by
  rw [CompactEnv.renames]
  rcases env.compact with _ | ⟨_ | _, e⟩ <;> rfl

theorem compact_journal_ok {failure : Option (Bool × IoError)} {kept : Option ℕ}
    (h : (compact_journal C failure kept jobs disk).1 = .ok ()) :
    (compact_journal C failure kept jobs disk).2 = some (C.published kept jobs) := by
  rcases failure with _ | ⟨_ | _, e⟩
  · rfl
  · nomatch h
  · nomatch h

theorem saneDisk_published (kept : Option ℕ) (jobs : List Job) :
    SaneDisk (some (C.published kept jobs)) := by
  intro bytes hbytes
  rw [← Option.mem_some_iff.mp hbytes]
  exact sane_published kept jobs

/-- What a compaction with a scan can do: fail, or read the journal it has left. -/
theorem compact_and_rescan_cases (C : Codec) (env : CompactEnv) (jobs : List Job)
    (collect_jobs attached : Bool) (disk : Disk) :
    (∃ e attached', compact_and_rescan C env jobs collect_jobs attached disk
      = (.error e, attached', (compact_journal C env.compact env.kept jobs disk).2)) ∨
    ∃ scan, scan_path C (compact_journal C env.compact env.kept jobs disk).2 collect_jobs = .ok scan ∧
      compact_and_rescan C env jobs collect_jobs attached disk
        = (.ok ((compact_journal C env.compact env.kept jobs disk).1, scan), true,
          (compact_journal C env.compact env.kept jobs disk).2) := by
  rw [compact_and_rescan]
  simp only
  split
  · exact .inl ⟨_, _, rfl⟩
  split
  · exact .inl ⟨_, _, rfl⟩
  split
  · exact .inl ⟨_, _, rfl⟩
  · rename_i scan hscan
    exact .inr ⟨scan, hscan, rfl⟩

variable {env : CompactEnv}

/-! ## Append -/

namespace JournalJobStore

theorem compact_if_due_index (env : CompactEnv) (store : JournalJobStore) (disk : Disk) :
    (compact_if_due C env store disk).2.1.index = store.index := by
  rw [compact_if_due]
  split
  · rfl
  · split
    · rfl
    · split <;> rfl

theorem compact_if_due_rule {P : Disk → Prop} (h : P disk)
    (hnew : P (some (C.published env.kept store.index))) : P (compact_if_due C env store disk).2.2 := by
  have hjournal := compact_journal_rule h hnew env.compact
  rw [compact_if_due]
  split
  · exact h
  rcases compact_and_rescan_cases C env store.index false store.attached disk with
    ⟨e, attached, heq⟩ | ⟨scan, -, heq⟩ <;> rw [heq]
  · exact hjournal
  · simp only
    split <;> exact hjournal

theorem compact_if_due_attached (hattached : store.attached)
    (h : (compact_if_due C env store disk).1 = .ok ()) :
    (compact_if_due C env store disk).2.1.attached = true := by
  rw [compact_if_due] at h ⊢
  split
  · exact hattached
  rename_i hdue
  rw [if_neg hdue] at h
  rcases compact_and_rescan_cases C env store.index false store.attached disk with
    ⟨e, attached, heq⟩ | ⟨scan, -, heq⟩ <;> rw [heq] at h
  · nomatch h
  · rw [heq]
    simp only
    split <;> rfl

theorem sane_write (hs : SaneDisk disk) (hattached : store.attached) (r : JournalRecord)
    (k : ℕ) : SaneDisk (store.write ((C.line r).take k) disk) := by
  rw [write, if_pos hattached]
  intro bytes hbytes
  obtain ⟨f, hf, rfl⟩ := Option.map_eq_some_iff.mp hbytes
  exact (hs f hf).write r k

/-- What an append can do: refuse, fail after some bytes, or write the line and perhaps compact. -/
theorem append_cases (C : Codec) (env : AppendEnv) (event : JobEvent) (job : Job)
    (store : JournalJobStore) (disk : Disk) :
    (store.append C env event job disk = (.error .integrity, store, disk)) ∨
    (store.next_sequence ≤ u64_max ∧ ∃ written e,
      store.append C env event job disk = (.error (.io e), store,
        store.write ((C.line (store.next_record event job)).take written) disk)) ∨
    (store.next_sequence ≤ u64_max ∧ ∃ next,
      store.append C env event job disk = compact_if_due C env.toCompactEnv
        { store with next_sequence := next, index := Keyed.insert Job.id job store.index }
        (store.write (C.line (store.next_record event job)) disk)) := by
  rw [append]
  cases hnext : checked_succ store.next_sequence with
  | none => exact .inl rfl
  | some next =>
    have hbound := (checked_succ_eq_some hnext).2.le
    right
    cases hwrite : env.write with
    | some fault => exact .inl ⟨hbound, fault.1, fault.2, rfl⟩
    | none => exact .inr ⟨hbound, next, rfl⟩

theorem take_line (r : JournalRecord) : C.line r = (C.line r).take (C.line r).length :=
  (take_length).symm

theorem sane_append (hs : SaneDisk disk) (hattached : store.attached) (env : AppendEnv)
    (event : JobEvent) (job : Job) : SaneDisk (store.append C env event job disk).2.2 := by
  rcases append_cases C env event job store disk with
    heq | ⟨-, written, e, heq⟩ | ⟨-, next, heq⟩ <;> rw [heq]
  · exact hs
  · exact sane_write hs hattached _ _
  refine compact_if_due_rule ?_ (saneDisk_published _ _)
  rw [take_line]
  exact sane_write hs hattached _ _

/-- An append that succeeds has written the line. -/
theorem append_ok {env : AppendEnv} (hok : (store.append C env event job disk).1 = .ok ()) :
    store.next_sequence ≤ u64_max ∧ ∃ next,
      store.append C env event job disk = compact_if_due C env.toCompactEnv
        { store with next_sequence := next, index := Keyed.insert Job.id job store.index }
        (store.write (C.line (store.next_record event job)) disk) := by
  rcases append_cases C env event job store disk with
    heq | ⟨-, written, e, heq⟩ | hwritten
  · rw [heq] at hok
    nomatch hok
  · rw [heq] at hok
    nomatch hok
  · exact hwritten

theorem attached_of_append_ok (hattached : store.attached) {env : AppendEnv}
    (hok : (store.append C env event job disk).1 = .ok ()) :
    (store.append C env event job disk).2.1.attached = true := by
  obtain ⟨-, next, heq⟩ := append_ok hok
  rw [heq] at hok ⊢
  exact compact_if_due_attached hattached hok

/-! ## Retention -/

/-- What retention drops is terminal, and there are more of those than are retained. -/
theorem mem_excess_terminal (h : id ∈ excess_terminal retained jobs) :
    ∃ job ∈ jobs, job.id = id ∧ job.status.is_terminal = true ∧
      retained < (terminal_jobs jobs).length := by
  obtain ⟨job, hjob, hid⟩ := mem_map.mp h
  have hterminal := mem_of_mem_take hjob
  rw [terminal_jobs, (perm_insertionSort _ _).mem_iff, mem_filter] at hterminal
  refine ⟨job, hterminal.1, hid, hterminal.2, ?_⟩
  -- something was taken, so the excess is not zero
  have hlength := length_pos_of_mem hjob
  rw [length_take] at hlength
  omega

/-- What a prune can do: nothing, or publish the jobs that stay, with or without taking over what it
has published. -/
theorem prune_terminal_cases (C : Codec) (env : CompactEnv) (retained : ℕ)
    (store : JournalJobStore) (disk : Disk) :
    (terminal_jobs store.index).length ≤ retained ∧
        store.prune_terminal C env retained disk = (.ok (), store, disk) ∨
      (∃ e store', store'.index = store.index ∧ store.prune_terminal C env retained disk
        = (.error e, store',
          (compact_journal C env.compact env.kept (prune_index retained store.index) disk).2)) ∨
      ∃ scan store', scan_path C
          (compact_journal C env.compact env.kept (prune_index retained store.index) disk).2 true
          = .ok scan ∧ store'.index = scan.jobs ∧ store.prune_terminal C env retained disk
          = ((compact_journal C env.compact env.kept (prune_index retained store.index) disk).1, store',
            (compact_journal C env.compact env.kept (prune_index retained store.index) disk).2) := by
  unfold prune_terminal
  split
  · rename_i hdue
    exact .inl ⟨hdue, rfl⟩
  right
  rcases compact_and_rescan_cases C env (prune_index retained store.index) true store.attached disk
    with ⟨e, attached, heq⟩ | ⟨scan, hscan, heq⟩ <;> rw [heq]
  · exact .inl ⟨e, { store with attached := attached }, rfl, rfl⟩
  · exact .inr ⟨scan, _, hscan, rfl, rfl⟩

/-! ## Opening -/

theorem reopened_id (damaged : Bool) (job : Job) : (reopened damaged job).id = job.id := by
  unfold reopened
  simp only
  split_ifs <;> rfl

theorem get_map_reopened (damaged : Bool) (jobs : List Job) (id : JobId) :
    Keyed.get Job.id id (jobs.map (reopened damaged))
      = (Keyed.get Job.id id jobs).map (reopened damaged) := by
  rw [Keyed.get, find?_map]
  congr 2
  funext job
  simp only [Function.comp_apply, reopened_id]

theorem unique_map_reopened (h : Keyed.Unique Job.id jobs) (damaged : Bool) :
    Keyed.Unique Job.id (jobs.map (reopened damaged)) := by
  have hids : (jobs.map (reopened damaged)).map Job.id = jobs.map Job.id := by
    rw [map_map]
    exact map_congr_left fun job _ => reopened_id damaged job
  rw [Keyed.Unique, hids]
  exact h

theorem append_ok_index {env : AppendEnv} (hok : (store.append C env event job disk).1 = .ok ()) :
    (store.append C env event job disk).2.1.index = Keyed.insert Job.id job store.index := by
  obtain ⟨-, next, heq⟩ := append_ok hok
  rw [heq, compact_if_due_index]

/-- A prune that succeeds leaves the index alone, or takes it from the journal it has written. -/
theorem prune_terminal_ok (hok : (store.prune_terminal C env retained disk).1 = .ok ()) :
    (excess_terminal retained store.index = [] ∧ store.prune_terminal C env retained disk = (.ok (), store, disk)) ∨
      ((store.prune_terminal C env retained disk).2.1.index
          = (reading C (C.published env.kept (prune_index retained store.index))).latest ∧
        (store.prune_terminal C env retained disk).2.2
          = some (C.published env.kept (prune_index retained store.index))) := by
  rcases prune_terminal_cases C env retained store disk with
    ⟨hdue, hsame⟩ | ⟨e, store', -, heq⟩ | ⟨scan, store', hscan, hindex, heq⟩
  · left
    refine ⟨?_, hsame⟩
    unfold excess_terminal
    simp only
    rw [Nat.sub_eq_zero_of_le hdue]
    rfl
  · rw [heq] at hok
    nomatch hok
  · right
    rw [heq] at hok ⊢
    have hpublished := compact_journal_ok hok
    rw [hpublished, scan_path_eq] at hscan
    refine ⟨?_, hpublished⟩
    rw [hindex, ← Except.ok.inj hscan]
    rfl

end JournalJobStore

end BobbyBrowser.Jobs
