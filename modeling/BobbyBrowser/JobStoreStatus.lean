/-
What a store and its journal say about one job.

`get_job` answers from the index, and after a crash from the journal, so the two
have to be followed together. Every operation of the store is described by what
it does to the status of one job: a predicate on that status which holds in the
index, and in the journal if it is not damaged, holds afterwards, unless the
operation is about this very job or drops it by the retention limit.
-/
import BobbyBrowser.JobStoreRun

set_option autoImplicit false

namespace BobbyBrowser.Jobs

open Keyed
open Option hiding map_map
open Lines Jsonl JournalJobStore List

variable {job : Job} {jobs : List Job} {retained : ℕ} {event : JobEvent} {scan : Scan}

variable {C : Codec} {store : JournalJobStore} {disk : Disk} {id : JobId}
  {Q R : Option JobStatus → Prop}

/-! ## Statuses -/

/-- The status a job has in an index. -/
def status_in (jobs : List Job) (id : JobId) : Option JobStatus :=
  (Keyed.get Job.id id jobs).map Job.status

theorem status_in_insert_self (job : Job) (jobs : List Job) :
    status_in (Keyed.insert Job.id job jobs) job.id = some job.status := by
  rw [status_in, get_insert_self]
  rfl

theorem status_in_insert_of_ne (h : id ≠ job.id) (jobs : List Job) :
    status_in (Keyed.insert Job.id job jobs) id = status_in jobs id := by
  rw [status_in, get_insert_of_ne h, status_in]

/-- The status in which a job of an undamaged journal is handed out. -/
def reopened_status (status : JobStatus) : JobStatus :=
  if status = .running then .reconciliation_required else status

theorem status_reopened (job : Job) : (reopened false job).status = reopened_status job.status := by
  rw [reopened_false, reopened_status]
  split_ifs with hrunning hrequired
  · rfl
  · exact hrequired.symm
  · rfl

theorem status_in_map_reopened (jobs : List Job) (id : JobId) :
    status_in (jobs.map (reopened false)) id = (status_in jobs id).map reopened_status := by
  rw [status_in, get_map_reopened, status_in]
  cases get Job.id id jobs with
  | none => rfl
  | some job => exact congrArg some (status_reopened job)

theorem status_in_prune_index (retained : ℕ) (jobs : List Job) (id : JobId) :
    status_in (prune_index retained jobs) id
      = if id ∈ excess_terminal retained jobs then none else status_in jobs id := by
  rw [status_in, prune_index, get_removeAll]
  split <;> rfl

/-- What a published journal says of a job satisfies what the job does, and, if the last write may be
lost, what one does that is not there. -/
theorem status_in_published (h : Readable jobs) {kept : Option ℕ} (hjobs : Q (status_in jobs id))
    (hcut : kept.isSome = true → Q none) :
    Q (status_in (reading C (C.published kept jobs)).latest id) := by
  rw [status_in] at hjobs ⊢
  rcases get_published (C := C) h kept id with hsame | ⟨hkept, hnone⟩
  · rw [hsame, Option.map_map]
    exact hjobs
  · rw [hnone]
    exact hcut hkept

theorem terminal_of_excess (hu : Keyed.Unique Job.id jobs)
    (h : id ∈ excess_terminal retained jobs) :
    ∃ status, status_in jobs id = some status ∧ status.is_terminal = true := by
  obtain ⟨job, hjob, hid, hterminal, -⟩ := mem_excess_terminal h
  refine ⟨job.status, ?_, hterminal⟩
  rw [status_in, hu.get_of_mem hjob hid]
  rfl

theorem scan_path_ok (disk : Disk) : ∃ scan, scan_path C disk true = .ok scan := by
  cases disk with
  | none => exact ⟨{}, rfl⟩
  | some bytes => exact ⟨_, scan_path_eq C bytes true⟩

/-! ## Saying -/

variable (C) in
/-- If opening the journal finds no damage, it finds the job in such a status. -/
def JournalSays (Q : Option JobStatus → Prop) (disk : Disk) (id : JobId) : Prop :=
  Intact C (disk.getD []) → Q (status_in (reading C (disk.getD [])).latest id)

variable (C) in
/-- The job has such a status in the index, and in the journal. -/
structure Says (Q : Option JobStatus → Prop) (store : JournalJobStore) (disk : Disk) (id : JobId) :
    Prop where
  index : Q (status_in store.index id)
  journal : JournalSays C Q disk id

theorem JournalSays.mono (h : JournalSays C Q disk id) (hmono : ∀ o, Q o → R o) :
    JournalSays C R disk id :=
  fun hintact => hmono _ (h hintact)

theorem Says.mono (h : Says C Q store disk id) (hmono : ∀ o, Q o → R o) : Says C R store disk id :=
  ⟨hmono _ h.index, h.journal.mono hmono⟩

/-- A store that writes where it is read again, and would be read as it is. -/
structure Fit (store : JournalJobStore) (disk : Disk) : Prop where
  attached : store.attached = true
  readable : Readable store.index
  sane : SaneDisk disk
  present : disk.isSome = true

theorem journalSays_published (hjobs : Readable jobs) {kept : Option ℕ}
    (h : Q (status_in jobs id)) (hcut : kept.isSome = true → Q none) :
    JournalSays C Q (some (C.published kept jobs)) id :=
  fun _ => status_in_published hjobs h hcut

namespace JournalJobStore

/-! ## Append -/

/-- What the journal says of a job survives part of a line at its end, and a whole line of another
job. -/
theorem journalSays_write (hs : SaneDisk disk) (hattached : store.attached)
    {r : JournalRecord} (hbound : r.sequence ≤ u64_max) (k : ℕ) (h : JournalSays C Q disk id)
    (hjob : id = r.job.id → Q (some r.job.status)) :
    JournalSays C Q (store.write ((C.line r).take k) disk) id := by
  rw [write, if_pos hattached]
  cases hd : disk with
  | none =>
    rw [hd] at h
    exact h
  | some f =>
    intro hintact
    rw [map_some, getD_some] at hintact ⊢
    rw [hd] at h
    obtain ⟨hbefore, hnone | ⟨-, hlatest⟩⟩ := intact_write (hs f hd) hbound k hintact
    · rw [hnone, append_nil]
      exact h hbefore
    rw [hlatest]
    by_cases hid : id = r.job.id
    · subst hid
      rw [show r.job.id = r.job.durable.id from rfl, status_in_insert_self]
      exact hjob rfl
    · rw [status_in_insert_of_ne (show id ≠ r.job.durable.id from hid)]
      exact h hbefore

/-- After a line of a job, the journal says what that line says. -/
theorem journalSays_line (hs : SaneDisk disk) (hattached : store.attached)
    (hpresent : disk.isSome) {r : JournalRecord} (hbound : r.sequence ≤ u64_max) :
    JournalSays C (· = some r.job.status) (store.write (C.line r) disk) r.job.id := by
  obtain ⟨f, hf⟩ := isSome_iff_exists.mp hpresent
  rw [write, if_pos hattached, take_line, hf]
  intro hintact
  obtain ⟨-, hnone | ⟨-, hlatest⟩⟩ := intact_write (hs f hf) hbound _ hintact
  · rw [← take_line] at hnone
    exact absurd hnone (by simp [Codec.line])
  · rw [map_some, getD_some, hlatest]
    exact status_in_insert_self r.job.durable _

variable {env : CompactEnv}

theorem says_compact_if_due (hindex : Readable store.index)
    (hcut : env.kept.isSome = true → Q none) (h : Says C Q store disk id) :
    Says C Q (compact_if_due C env store disk).2.1 (compact_if_due C env store disk).2.2 id := by
  constructor
  · rw [compact_if_due_index]
    exact h.index
  · exact compact_if_due_rule (P := (JournalSays C Q · id)) h.journal
      (journalSays_published hindex h.index hcut)

section

variable (h : Fit store disk) {env : AppendEnv} (hvalid : job.has_valid_resolution)

include h hvalid

/-- **An append changes what is said about its own job only**, unless its compaction loses a line. -/
theorem append_tells (hcut : env.kept.isSome = true → Q none)
    (htold : Says C Q store disk id) (hjob : id = job.id → Q (some job.status)) :
    Says C Q (store.append C env event job disk).2.1 (store.append C env event job disk).2.2 id := by
  rcases append_cases C env event job store disk with
    heq | ⟨hbound, written, e, heq⟩ | ⟨hbound, next, heq⟩ <;> rw [heq]
  · exact htold
  · exact ⟨htold.index, journalSays_write h.sane h.attached hbound written htold.journal hjob⟩
  refine says_compact_if_due (h.readable.insert hvalid) hcut ⟨?_, ?_⟩
  · by_cases hid : id = job.id
    · subst hid
      rw [status_in_insert_self]
      exact hjob rfl
    · rw [status_in_insert_of_ne hid]
      exact htold.index
  · rw [take_line]
    exact journalSays_write h.sane h.attached hbound _ htold.journal hjob

/-- **An append that succeeds is what is said about its job.** -/
theorem append_ok_tells (hcut : env.kept.isSome = true → Q none) (hjob : Q (some job.status))
    (hok : (store.append C env event job disk).1 = .ok ()) :
    Says C Q (store.append C env event job disk).2.1
      (store.append C env event job disk).2.2 job.id := by
  obtain ⟨hbound, next, heq⟩ := append_ok hok
  rw [heq]
  refine says_compact_if_due (h.readable.insert hvalid) hcut ⟨?_, ?_⟩
  · rw [status_in_insert_self]
    exact hjob
  · refine (journalSays_line h.sane h.attached h.present hbound).mono ?_
    rintro _ rfl
    exact hjob

end

theorem present_write {bytes : Bytes} (h : disk.isSome) :
    (store.write bytes disk).isSome = true := by
  rw [write]
  split
  · rw [isSome_map]
    exact h
  · exact h

/-- **An append leaves a fit store**, if it leaves the writer at the path. -/
theorem append_fit (h : Fit store disk) {env : AppendEnv} (hvalid : job.has_valid_resolution)
    (hattached : (store.append C env event job disk).2.1.attached) :
    Fit (store.append C env event job disk).2.1 (store.append C env event job disk).2.2 := by
  have hsane := sane_append (C := C) h.sane h.attached env event job
  rcases append_cases C env event job store disk with
    heq | ⟨-, written, e, heq⟩ | ⟨-, next, heq⟩ <;> rw [heq] at hattached hsane ⊢
  · exact h
  · exact ⟨h.attached, h.readable, hsane, present_write h.present⟩
  refine ⟨hattached, ?_, hsane, ?_⟩
  · rw [compact_if_due_index]
    exact h.readable.insert hvalid
  · exact compact_if_due_rule (P := (·.isSome = true)) (present_write h.present) rfl

/-! ## Retention -/

theorem status_in_scan (hscan : scan_path C disk true = .ok scan) :
    status_in scan.jobs id = status_in (reading C (disk.getD [])).latest id := by
  cases disk with
  | none =>
    cases hscan
    rfl
  | some bytes =>
    rw [scan_path_eq] at hscan
    cases hscan
    rfl

/-- **Retention changes what is said about the jobs it drops only**, unless it loses a line. -/
theorem prune_terminal_tells (h : Fit store disk)
    (hkeeps : env.renames = false → Intact C (disk.getD [])) (htold : Says C Q store disk id)
    (hmono : ∀ o, Q o → R o) (hcut : env.kept.isSome = true → R none)
    (hdrop : env.renames = true → id ∈ excess_terminal retained store.index → R none) :
    Says C R (store.prune_terminal C env retained disk).2.1
      (store.prune_terminal C env retained disk).2.2 id := by
  have hpruned := h.readable.prune_index retained
  have hstays : env.renames = true → R (status_in (prune_index retained store.index) id) := by
    intro hrenames
    rw [status_in_prune_index]
    split
    · rename_i hmem
      exact hdrop hrenames hmem
    · exact hmono _ htold.index
  -- the file is the published one or the old one, and both say enough of the job
  have hjournal : JournalSays C R
      (compact_journal C env.compact env.kept (prune_index retained store.index) disk).2 id := by
    rw [compact_journal_renames]
    split
    · rename_i hrenames
      exact journalSays_published hpruned (hstays hrenames) hcut
    · exact htold.journal.mono hmono
  rcases prune_terminal_cases C env retained store disk with
    ⟨-, heq⟩ | ⟨e, store', hindex, heq⟩ | ⟨scan, store', hscan, hindex, heq⟩ <;> rw [heq]
  · exact htold.mono hmono
  · refine ⟨?_, hjournal⟩
    rw [hindex]
    exact hmono _ htold.index
  refine ⟨?_, hjournal⟩
  rw [hindex, status_in_scan hscan, compact_journal_renames]
  cases hrenames : env.renames with
  | true =>
    rw [if_pos rfl, getD_some]
    exact status_in_published hpruned (hstays hrenames) hcut
  | false =>
    rw [if_neg Bool.false_ne_true]
    exact hmono _ (htold.journal (hkeeps hrenames))

/-- Retention leaves index and file in order, while the store is attached. -/
theorem prune_terminal_fit (h : Fit store disk)
    (hattached : (store.prune_terminal C env retained disk).2.1.attached) :
    Fit (store.prune_terminal C env retained disk).2.1
      (store.prune_terminal C env retained disk).2.2 := by
  have hsane := compact_journal_rule h.sane
    (saneDisk_published (C := C) env.kept (prune_index retained store.index)) env.compact
  have hpresent : (compact_journal C env.compact env.kept (prune_index retained store.index) disk).2.isSome
      = true := compact_journal_rule (P := (·.isSome = true)) h.present rfl _
  rcases prune_terminal_cases C env retained store disk with ⟨-, heq⟩ |
    ⟨e, store', hindex, heq⟩ | ⟨scan, store', hscan, hindex, heq⟩ <;> rw [heq] at hattached ⊢
  · exact h
  · exact ⟨hattached, hindex ▸ h.readable, hsane, hpresent⟩
  · exact ⟨hattached, hindex ▸ readable_scan hscan, hsane, hpresent⟩

/-! ## Opening -/

/-- What an open leaves behind: a journal, and if it succeeds a store. -/
structure OpenSays (C : Codec) (Q : Option JobStatus → Prop) (id : JobId)
    (r : Except StoreError JournalJobStore × Disk) : Prop where
  sane : SaneDisk r.2
  journal : JournalSays C Q r.2 id
  store : ∀ store, r.1 = .ok store → Says C Q store r.2 id ∧ Fit store r.2

/-- Recording the recovered jobs tells nothing else of a job, unless a write is cut. -/
theorem append_recovered_tells {env : ℕ → AppendEnv} {n : ℕ}
    (hcut : ∀ i, i < jobs.length → (env (n + i)).kept.isSome = true → Q none)
    (hjobs : ∀ job ∈ jobs, job.has_valid_resolution = true ∧ (id = job.id → Q (some job.status)))
    (h : Fit store disk) (htold : Says C Q store disk id) :
    OpenSays C Q id (append_recovered C env n jobs store disk) := by
  induction jobs generalizing n store disk with
  | nil =>
    refine ⟨h.sane, htold.journal, fun store' hok => ?_⟩
    cases hok
    exact ⟨htold, h⟩
  | cons job jobs ih =>
    obtain ⟨hvalid, hjob⟩ := hjobs job mem_cons_self
    have hsane := sane_append (C := C) h.sane h.attached (env n) .recovered job
    have htold' := @append_tells job .recovered C store disk id Q h (env n) hvalid
      (hcut 0 (Nat.succ_pos _)) htold hjob
    have hattached := @attached_of_append_ok .recovered job C store disk h.attached (env n)
    have hfit := @append_fit job .recovered C store disk h (env n) hvalid
    rw [append_recovered]
    rcases hr : store.append C (env n) .recovered job disk with ⟨_ | u, between, disk'⟩
    · rw [hr] at hsane htold'
      exact ⟨hsane, htold'.journal, fun _ hok => by cases hok⟩
    · rw [hr] at htold' hattached hfit
      refine ih (fun i hi => ?_) (fun other hother => hjobs other (mem_cons_of_mem _ hother))
        (hfit (hattached rfl)) htold'
      rw [Nat.add_assoc, Nat.add_comm 1 i]
      exact hcut (i + 1) (Nat.succ_lt_succ hi)

theorem interrupted_valid (h : Readable jobs) (hs : Q ((status_in jobs id).map reopened_status)) :
    ∀ job ∈ interrupted jobs, job.has_valid_resolution = true ∧
      (id = job.id → Q (some job.status)) := by
  intro job hjob
  have hget := (get_of_interrupted h.unique hjob).1
  refine ⟨h.reopened.valid job (mem_of_get hget), ?_⟩
  rintro rfl
  rw [← status_in_map_reopened, status_in, hget] at hs
  exact hs

/-- The end of an open tells of a job what the index and the recovered jobs say of it. -/
theorem finish_open_tells {env : OpenEnv} {index recovered : List Job} {next : ℕ}
    (hcut : ∀ i, i < recovered.length → (env.recovered i).kept.isSome = true → Q none)
    (hrecovered : ∀ job ∈ recovered, job.has_valid_resolution = true ∧
      (id = job.id → Q (some job.status)))
    (hindex : Readable index) (hsane : SaneDisk disk) (htold : Q (status_in index id)) (hjournal : JournalSays C Q disk id) :
    OpenSays C Q id (finish_open C env { index := index, next_sequence := next } recovered disk) := by
  unfold finish_open
  cases env.file with
  | some e => exact ⟨hsane, hjournal, nofun⟩
  | none =>
    refine append_recovered_tells (n := 0) (by simpa using hcut) hrecovered ⟨rfl, hindex, ?_, rfl⟩
      ⟨htold, hjournal⟩
    intro bytes hbytes
    rw [← mem_some_iff.mp hbytes]
    cases disk with
    | none => exact .inl rfl
    | some f => exact hsane f rfl

theorem damaged_scan (hscan : scan_path C disk true = .ok scan) :
    damaged scan = false ↔ Intact C (disk.getD []) := by
  cases disk with
  | none =>
    cases hscan
    exact ⟨fun _ => ⟨rfl, rfl, nofun⟩, fun _ => rfl⟩
  | some bytes =>
    rw [scan_path_eq] at hscan
    cases hscan
    simp only [damaged, Bool.or_eq_false_iff, decide_eq_false_iff_not, not_lt, Nat.le_zero, ne_eq,
      not_not]
    exact ⟨fun h => ⟨h.1.1, h.1.2, h.2⟩, fun h => ⟨⟨h.whole, h.compatible⟩, h.continues⟩⟩

theorem status_in_map_damaged (jobs : List Job) (id : JobId) :
    status_in (jobs.map (reopened true)) id
      = (status_in jobs id).map fun _ => .reconciliation_required := by
  rw [status_in, get_map_reopened, status_in, Option.map_map, Option.map_map]
  rfl

/-- **Opening a damaged journal** leaves every job to be reconciled. -/
theorem open_damaged_tells (env : OpenEnv) (hscan : scan_path C disk true = .ok scan)
    (hsane : SaneDisk disk) (hs : JournalSays C Q disk id) (hdamaged : damaged scan)
    (hnone : Q none) (hrequired : Q (some .reconciliation_required)) :
    OpenSays C Q id (open_store C env disk) := by
  have hunchanged : ∀ e, OpenSays C Q id (.error e, disk) := fun e => ⟨hsane, hs, nofun⟩
  have hgone : SaneDisk none := fun bytes hbytes => absurd hbytes (not_mem_none bytes)
  have hnothing : JournalSays C Q none id := fun _ => hnone
  have hreadable := readable_damaged (readable_scan hscan).unique
  have hindex : Q (status_in (scan.jobs.map (reopened true)) id) := by
    rw [status_in_map_damaged]
    cases status_in scan.jobs id with
    | none => exact hnone
    | some status => exact hrequired
  unfold open_store
  cases env.scan with
  | some e => exact hunchanged _
  | none =>
    simp only [hscan, hdamaged, if_true]
    rcases env.archive with _ | ⟨_ | _, e⟩
    · have hleft := compact_journal_rule (P := fun d => SaneDisk d ∧ JournalSays C Q d id)
        ⟨hgone, hnothing⟩ ⟨saneDisk_published env.kept _,
          journalSays_published hreadable hindex fun _ => hnone⟩ env.compact
      simp only [archive]
      rcases hr : compact_journal C env.compact env.kept (scan.jobs.map (reopened true)) none with
        ⟨e | u, disk'⟩
      all_goals rw [hr] at hleft
      · exact ⟨hleft.1, hleft.2, nofun⟩
      · exact finish_open_tells (fun _ _ _ => hnone) (forall_mem_nil _) hreadable hleft.1 hindex hleft.2
    · exact hunchanged _
    · exact ⟨hgone, hnothing, nofun⟩

/-- **Opening a journal changes what is said about interrupted jobs**, about the terminal ones that
it drops, about one whose line a compaction loses, and if the journal is damaged about all. -/
theorem open_store_tells (env : OpenEnv) (hsane : SaneDisk disk) (hs : JournalSays C Q disk id)
    (hreopened : ∀ status, Q (some status) → Q (some (reopened_status status)))
    (hdrop : id ∈ open_prunes C env disk → Q none)
    (hcut : open_loses C env disk = true → Q none)
    (hlost : ¬ Intact C (disk.getD []) → Q none ∧ Q (some .reconciliation_required)) :
    OpenSays C Q id (open_store C env disk) := by
  obtain ⟨scan, hscan⟩ := scan_path_ok (C := C) disk
  cases hdamaged : damaged scan with
  | true =>
    have hnot : ¬ Intact C (disk.getD []) := by
      rw [← damaged_scan hscan, hdamaged]
      nofun
    exact open_damaged_tells env hscan hsane hs hdamaged (hlost hnot).1 (hlost hnot).2
  | false =>
    have hstatus := hs ((damaged_scan hscan).mp hdamaged)
    simp only [open_loses, hscan, Bool.or_eq_true, List.any_eq_true, mem_range] at hcut
    have hcuts : ∀ i, i < (interrupted scan.jobs).length →
        (env.recovered i).kept.isSome = true → Q none := fun i hi hkept => hcut (.inr ⟨i, hi, hkept⟩)
    unfold open_prunes at hdrop
    unfold open_store
    cases env.scan with
    | some e => exact ⟨hsane, hs, nofun⟩
    | none =>
      have hmap : Q ((status_in scan.jobs id).map reopened_status) := by
        rw [← status_in_scan hscan] at hstatus
        generalize status_in scan.jobs id = found at hstatus ⊢
        cases found with
        | none => exact hstatus
        | some status => exact hreopened status hstatus
      have hreadable := (readable_scan hscan).reopened
      have hrecovered := interrupted_valid (readable_scan hscan) hmap
      simp only [hscan, hdamaged, Bool.false_eq_true, if_false] at hdrop ⊢
      split
      · rename_i hlong
        -- the journal has grown long: the index is pruned and published
        have hpruned : env.compact.any (!·.1) = false →
            Q (status_in (prune_index COMPACT_RETAINED_TERMINAL
              (scan.jobs.map (reopened false))) id) := by
          intro hrenames
          rw [status_in_prune_index, status_in_map_reopened]
          split
          · rename_i hmem
            apply hdrop
            rw [hlong, hrenames]
            exact hmem
          · exact hmap
        have hretained := hreadable.prune_index COMPACT_RETAINED_TERMINAL
        have hpublished := saneDisk_published (C := C) env.kept
          (prune_index COMPACT_RETAINED_TERMINAL (scan.jobs.map (reopened false)))
        -- the compaction succeeds, fails before its rename, or fails behind it
        rcases hcompact : env.compact with _ | ⟨_ | _, e⟩
        · rw [hcompact] at hpruned
          exact finish_open_tells hcuts hrecovered hretained hpublished (hpruned rfl)
            (journalSays_published hretained (hpruned rfl) fun hkept => hcut (.inl hkept))
        · exact ⟨hsane, hs, nofun⟩
        · rw [hcompact] at hpruned
          exact ⟨hpublished, journalSays_published hretained (hpruned rfl) fun hkept =>
            hcut (.inl hkept), nofun⟩
      · exact finish_open_tells hcuts hrecovered hreadable hsane
          (by rw [status_in_map_reopened]; exact hmap) hs

theorem open_store_fit (env : OpenEnv) (hsane : SaneDisk disk) :
    SaneDisk (open_store C env disk).2 ∧
      ∀ store, (open_store C env disk).1 = .ok store → Fit store (open_store C env disk).2 := by
  have h : OpenSays C (fun _ => True) (0 : JobId) (open_store C env disk) :=
    open_store_tells env hsane (fun _ => True.intro) (fun _ _ => True.intro) (fun _ => True.intro)
      (fun _ => True.intro) fun _ => ⟨True.intro, True.intro⟩
  exact ⟨h.sane, fun store hok => (h.store store hok).2⟩

/-! ## What an opened store knows -/

/-- The index of a store that was just opened: one entry for each job, as it would be read back, and
no job is `Running`. -/
structure Reloaded (jobs : List Job) : Prop extends Readable jobs where
  idle : ∀ job ∈ jobs, job.status ≠ .running

theorem reopened_ne_running (job : Job) : (reopened false job).status ≠ .running := by
  rw [status_reopened, reopened_status]
  split
  · nofun
  · assumption

theorem reloaded_reopened (h : Readable jobs) : Reloaded (jobs.map (reopened false)) := by
  refine ⟨h.reopened, fun job hjob => ?_⟩
  obtain ⟨found, -, rfl⟩ := mem_map.mp hjob
  exact reopened_ne_running found

theorem reloaded_damaged (h : Keyed.Unique Job.id jobs) : Reloaded (jobs.map (reopened true)) := by
  refine ⟨readable_damaged h, fun job hjob => ?_⟩
  obtain ⟨found, -, rfl⟩ := mem_map.mp hjob
  nofun

theorem Reloaded.prune_index (h : Reloaded jobs) (retained : ℕ) :
    Reloaded (prune_index retained jobs) := by
  refine ⟨h.toReadable.prune_index retained, fun job hjob => h.idle job ?_⟩
  exact (removeAll_sublist _ _).subset hjob

variable {store' : JournalJobStore}

/-- No job is running in a store that was just opened. -/
theorem append_recovered_reloaded (env : ℕ → AppendEnv)
    (hjobs : ∀ job ∈ jobs, job.has_valid_resolution = true ∧ job.status ≠ .running) (n : ℕ)
    (h : Reloaded store.index) (hok : (append_recovered C env n jobs store disk).1 = .ok store') :
    Reloaded store'.index := by
  induction jobs generalizing n store disk with
  | nil =>
    cases hok
    exact h
  | cons job jobs ih =>
    obtain ⟨hvalid, hidle⟩ := hjobs job mem_cons_self
    have hindex := @append_ok_index .recovered job C store disk (env n)
    rw [append_recovered] at hok
    rcases hr : store.append C (env n) .recovered job disk with ⟨_ | _, store'', disk''⟩
    · rw [hr] at hok
      cases hok
    · rw [hr] at hok hindex
      refine ih (fun other hother => hjobs other (mem_cons_of_mem _ hother)) (n + 1) ?_ hok
      rw [hindex rfl]
      refine ⟨h.toReadable.insert hvalid, fun other hother => ?_⟩
      rcases mem_insert.mp hother with ⟨hmem, -⟩ | rfl
      · exact h.idle other hmem
      · exact hidle

theorem finish_open_reloaded (env : OpenEnv) {recovered : List Job}
    (hrecovered : ∀ job ∈ recovered, job.has_valid_resolution = true ∧ job.status ≠ .running)
    (h : Reloaded store.index) (hok : (finish_open C env store recovered disk).1 = .ok store') :
    Reloaded store'.index := by
  unfold finish_open at hok
  split at hok
  · nomatch hok
  · exact append_recovered_reloaded env.recovered hrecovered 0 h hok

/-- **An opened store has no `Running` job**, and every job in it would be read back. -/
theorem open_store_reloaded (env : OpenEnv)
    (hok : (open_store C env disk).1 = .ok store') : Reloaded store'.index := by
  unfold open_store at hok
  split at hok
  · nomatch hok
  split at hok
  · nomatch hok
  rename_i scan hscan
  have hreopened := reloaded_reopened (readable_scan hscan)
  have hinterrupted : ∀ job ∈ interrupted scan.jobs,
      job.has_valid_resolution = true ∧ job.status ≠ .running := by
    intro job hjob
    have hmem := mem_of_get (get_of_interrupted (readable_scan hscan).unique hjob).1
    exact ⟨hreopened.valid job hmem, hreopened.idle job hmem⟩
  split at hok
  · split at hok
    · nomatch hok
    · simp only at hok
      split at hok
      · nomatch hok
      · exact finish_open_reloaded env (forall_mem_nil _) (reloaded_damaged (readable_scan hscan).unique)
          hok
  split at hok
  · simp only at hok
    split at hok
    · nomatch hok
    · exact finish_open_reloaded env hinterrupted (hreopened.prune_index _) hok
  · exact finish_open_reloaded env hinterrupted hreopened hok

theorem prune_terminal_reloaded (h : Reloaded store.index)
    (hok : (store.prune_terminal C env retained disk).1 = .ok ()) :
    Reloaded (store.prune_terminal C env retained disk).2.1.index := by
  rcases prune_terminal_ok hok with ⟨-, hsame⟩ | ⟨hindex, -⟩
  · rw [hsame]
    exact h
  · rw [hindex]
    refine ⟨(wellFormed_reading _).toReadable, fun job hjob => ?_⟩
    obtain ⟨found, hfound, rfl⟩ := mem_reading_published hjob
    exact (h.prune_index retained).idle found hfound

end JournalJobStore

end BobbyBrowser.Jobs
