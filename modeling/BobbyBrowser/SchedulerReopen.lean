/-
What a scheduler finds in its queue when it opens its journal again.

Opening a journal without a fault of the file system always gives a store. The
jobs that are `Pending` in it are those whose last durable record says so, if the
journal is not damaged; the jobs of a damaged one all need reconciliation.

There may be more of them than were queued: a job whose handler failed waits for
its retry as `Pending` without a place in the queue, which may be full meanwhile.
`hydrate` queues them all under the same limit, and gives up at the first that
does not fit.
-/
import BobbyBrowser.SchedulerSettled

set_option autoImplicit false

namespace BobbyBrowser.Jobs

open Jsonl List Option Keyed

variable {C : Codec} {store : JournalJobStore} {disk : Disk} {jobs : List Job}

/-! ## A store that can go on -/

namespace JournalJobStore

/-- The store can write: its jobs would be read back, and there are numbers left. -/
structure Healthy (store : JournalJobStore) : Prop where
  readable : Readable store.index
  room : store.index.length + COMPACT_THRESHOLD < u64_max
  next : store.next_sequence ≤ store.index.length + COMPACT_THRESHOLD

theorem faultless : CompactEnv.renames {} = true := rfl

/-- **Without faults a compaction that is due succeeds.** -/
theorem Healthy.compact_if_due (hindex : Readable store.index)
    (hroom : store.index.length + COMPACT_THRESHOLD < u64_max) (hne : store.index ≠ []) :
    ∃ store' disk', compact_if_due C {} store disk = (.ok (), store', disk') ∧ store'.Healthy ∧
      store'.index = store.index := by
  unfold JournalJobStore.compact_if_due
  split
  · rename_i hdue
    exact ⟨store, disk, rfl, ⟨hindex, hroom, Nat.le_of_lt hdue⟩, rfl⟩
  have hbound : store.index.length ≤ u64_max := by omega
  have hpublished : C.published none store.index = C.compacted store.index := rfl
  obtain ⟨scan, hscan, -, hmax⟩ := compact_and_rescan_published (C := C) faultless rfl rfl
    store.index false store.attached disk
  rw [hscan]
  simp only [hmax, hpublished, next_of_compacted hindex hbound hne]
  exact ⟨_, _, rfl, ⟨hindex, hroom, Nat.le_add_right _ _⟩, rfl⟩

/-- **Recording a job again that the index has.** -/
theorem Healthy.append (h : store.Healthy) (event : JobEvent) {job : Job}
    (hjob : get Job.id job.id store.index = some job) :
    ∃ store' disk', store.append C {} event job disk = (.ok (), store', disk') ∧ store'.Healthy ∧
      ∀ id, get Job.id id store'.index = get Job.id id store.index := by
  have hmem := mem_of_get hjob
  have hnext : checked_succ store.next_sequence = some (store.next_sequence + 1) := by
    have := h.next
    have := h.room
    rw [checked_succ, if_pos (by omega)]
  have hlength : (insert Job.id job store.index).length = store.index.length := by
    rw [length_insert h.readable.unique, hjob]
    rfl
  unfold JournalJobStore.append
  rw [hnext]
  let written : JournalJobStore :=
    { store with
      next_sequence := store.next_sequence + 1, index := insert Job.id job store.index }
  obtain ⟨store', disk', hcompact, hhealthy, hindex⟩ := @Healthy.compact_if_due C written
    (store.write (C.line (store.next_record event job)) disk)
    (h.readable.insert (h.readable.valid job hmem)) (hlength ▸ h.room) (insert_ne_nil _ _)
  refine ⟨store', disk', hcompact, hhealthy, fun id => ?_⟩
  rw [hindex]
  by_cases hid : id = job.id
  · rw [hid, get_insert_self, hjob]
  · exact get_insert_of_ne hid

/-- The jobs that were interrupted are recorded, and nothing else happens to the index. -/
theorem Healthy.append_recovered (jobs : List Job) (n : ℕ) (h : store.Healthy)
    (hjobs : ∀ job ∈ jobs, get Job.id job.id store.index = some job) :
    ∃ store' disk', append_recovered C (fun _ => {}) n jobs store disk = (.ok store', disk') ∧
      store'.Healthy ∧ ∀ id, get Job.id id store'.index = get Job.id id store.index := by
  induction jobs generalizing n store disk with
  | nil => exact ⟨store, disk, rfl, h, fun _ => rfl⟩
  | cons job jobs ih =>
    obtain ⟨between, disk₁, happend, hbetween, hindex⟩ :=
      h.append (C := C) .recovered (hjobs job mem_cons_self)
    have hrest : ∀ other ∈ jobs, get Job.id other.id between.index = some other := by
      intro other hother
      rw [hindex]
      exact hjobs other (mem_cons_of_mem _ hother)
    obtain ⟨store', disk', hrecovered, hhealthy, hindex'⟩ := @ih between disk₁ (n + 1) hbetween hrest
    refine ⟨store', disk', ?_, hhealthy, fun id => (hindex' id).trans (hindex id)⟩
    rw [JournalJobStore.append_recovered, happend]
    exact hrecovered

/-! ## Opening without faults -/

theorem pending_map_reopened (jobs : List Job) (id : JobId) :
    status_in (jobs.map (reopened false)) id = some .pending ↔ status_in jobs id = some .pending := by
  rw [status_in_map_reopened]
  rcases status_in jobs id with _ | status
  · exact Iff.rfl
  · cases status <;> decide

theorem get_prune_index_of_live (hu : Keyed.Unique Job.id jobs) {retained : ℕ}
    {job : Job} (hget : get Job.id job.id jobs = some job)
    (hlive : job.status.is_terminal = false) :
    get Job.id job.id (prune_index retained jobs) = some job := by
  rw [prune_index, get_removeAll, if_neg, hget]
  intro hmem
  obtain ⟨other, hother, hid, hterminal, -⟩ := mem_excess_terminal hmem
  have hsame := hu.get_of_mem hother hid
  rw [some.inj (hget.symm.trans hsame), hterminal] at hlive
  cases hlive

theorem pending_prune_index (hu : Keyed.Unique Job.id jobs) (retained : ℕ)
    (id : JobId) :
    status_in (prune_index retained jobs) id = some .pending ↔ status_in jobs id = some .pending := by
  rw [status_in_prune_index]
  split
  · rename_i hmem
    obtain ⟨status, hstatus, hterminal⟩ := terminal_of_excess hu hmem
    rw [hstatus]
    refine ⟨nofun, fun h => ?_⟩
    rw [some.inj h] at hterminal
    nomatch hterminal
  · exact Iff.rfl

theorem length_prune_index_le (retained : ℕ) (jobs : List Job) :
    (prune_index retained jobs).length ≤ jobs.length :=
  (removeAll_sublist _ _).length_le

theorem healthy {index : List Job} (hindex : Readable index)
    (hroom : index.length + COMPACT_THRESHOLD < u64_max) {next : ℕ}
    (hnext : next ≤ index.length + COMPACT_THRESHOLD) :
    Healthy { index := index, next_sequence := next } :=
  ⟨hindex, hroom, hnext⟩

/-- An open in which nothing fails ends with a healthy store and the pending jobs of the journal. -/
theorem finish_open_ok {jobs index : List Job} {next : ℕ} (hu : Keyed.Unique Job.id jobs)
    (h : Healthy { index := index, next_sequence := next })
    (hlive : ∀ job, get Job.id job.id (jobs.map (reopened false)) = some job →
      job.status.is_terminal = false → get Job.id job.id index = some job)
    (hpending : ∀ id, status_in index id = some .pending ↔
      status_in (jobs.map (reopened false)) id = some .pending) :
    ∃ store disk', finish_open C {} { index := index, next_sequence := next } (interrupted jobs) disk
        = (.ok store, disk') ∧ store.Healthy ∧
      ∀ id, status_in store.index id = some .pending ↔ status_in jobs id = some .pending := by
  have hrecovered : ∀ job ∈ interrupted jobs, get Job.id job.id index = some job := by
    intro job hjob
    obtain ⟨hget, hstatus⟩ := get_of_interrupted hu hjob
    refine hlive job hget ?_
    rw [hstatus]
    rfl
  obtain ⟨store, disk', hopen, hstore, hindex⟩ := h.append_recovered (C := C) _ 0 hrecovered
  refine ⟨store, disk', hopen, hstore, fun id => ?_⟩
  rw [status_in, hindex, ← pending_map_reopened jobs, ← hpending]
  rfl

/-- **Without faults an open succeeds.** The jobs that are then `Pending` are those of the journal,
if it is not damaged. -/
theorem open_store_ok {scan : Scan} (hscan : scan_path C disk true = .ok scan)
    (hroom : scan.jobs.length + COMPACT_THRESHOLD < u64_max) :
    ∃ store disk', open_store C {} disk = (.ok store, disk') ∧ store.Healthy ∧
      ∀ id, status_in store.index id = some .pending ↔
        damaged scan = false ∧ status_in scan.jobs id = some .pending := by
  have hreadable := readable_scan hscan
  unfold JournalJobStore.open_store
  simp only [hscan]
  cases hdamaged : damaged scan with
  | true =>
    -- every job is to be reconciled, and nothing is recorded behind the compaction
    refine ⟨_, _, rfl, healthy (readable_damaged hreadable.unique) ?_ (Nat.le_add_right _ _),
      fun id => ⟨fun hpending => ?_, nofun⟩⟩
    · rw [length_map]
      exact hroom
    · rw [status_in_map_damaged] at hpending
      obtain ⟨status, -, hstatus⟩ := map_eq_some_iff.mp hpending
      nomatch hstatus
  | false =>
    have hreopened := hreadable.reopened
    have hroom' : (scan.jobs.map (reopened false)).length + COMPACT_THRESHOLD < u64_max := by
      rw [length_map]
      exact hroom
    simp only [Bool.false_eq_true, if_false, true_and]
    split
    · refine finish_open_ok hreadable.unique (healthy (hreopened.prune_index _) ?_ (Nat.le_add_right _ _))
        (fun job hget hlive => get_prune_index_of_live hreopened.unique hget hlive)
        (pending_prune_index hreopened.unique _)
      have := length_prune_index_le COMPACT_RETAINED_TERMINAL (scan.jobs.map (reopened false))
      exact lt_of_le_of_lt (Nat.add_le_add_right this _) hroom'
    rename_i hshort
    refine finish_open_ok hreadable.unique (healthy hreopened hroom' ?_) (fun _ hget _ => hget)
      fun _ => Iff.rfl
    -- the journal is shorter than the threshold
    cases hmax : scan.max_sequence with
    | none => exact Nat.zero_le _
    | some n =>
      rw [hmax] at hshort
      have hn : n < COMPACT_THRESHOLD := by
        simpa using hshort
      have hsucc : checked_succ n = some (n + 1) := by
        rw [checked_succ, if_pos (by omega)]
      rw [bind_some, hsucc, getD_some]
      omega

/-- **Without faults the retention limit is applied**, and no job that is `Pending` is lost. -/
theorem Healthy.prune_terminal (h : store.Healthy) (retained : ℕ) :
    ∃ store' disk', store.prune_terminal C {} retained disk = (.ok (), store', disk') ∧
      Keyed.Unique Job.id store'.index ∧
      ∀ id, status_in store'.index id = some .pending ↔ status_in store.index id = some .pending := by
  unfold JournalJobStore.prune_terminal
  split
  · exact ⟨store, disk, rfl, h.readable.unique, fun _ => Iff.rfl⟩
  obtain ⟨scan, heq, hscan, -⟩ := compact_and_rescan_published (C := C) faultless rfl rfl
    (prune_index retained store.index) true store.attached disk
  rw [heq]
  refine ⟨_, _, rfl, (readable_scan hscan).unique, fun id => ?_⟩
  rw [← pending_prune_index h.readable.unique retained, status_in_scan hscan, getD_some]
  -- the compaction has written every job
  exact status_in_published (Q := fun found => found = some .pending ↔
    status_in (prune_index retained store.index) id = some .pending)
    (h.readable.prune_index retained) Iff.rfl nofun

end JournalJobStore

end BobbyBrowser.Jobs

namespace BobbyBrowser.Scheduling

open Jobs
open List hiding get
open Option hiding get

variable {C : Codec} {config : SchedulerConfig}

/-! ## The jobs that wait -/

/-- The jobs that are `Pending`. -/
def pending_jobs (jobs : List Job) : List Job := jobs.filter fun job => job.status = .pending

theorem mem_pending_jobs {jobs : List Job} (hu : Keyed.Unique Job.id jobs) {id : JobId} :
    id ∈ (pending_jobs jobs).map Job.id ↔ status_in jobs id = some .pending := by
  rw [status_in, map_eq_some_iff]
  constructor
  · intro h
    obtain ⟨job, hjob, hid⟩ := mem_map.mp h
    obtain ⟨hmem, hpending⟩ := mem_filter.mp hjob
    exact ⟨job, hu.get_of_mem hmem hid, of_decide_eq_true hpending⟩
  · rintro ⟨job, hget, hpending⟩
    refine mem_map.mpr ⟨job, mem_filter.mpr ⟨Keyed.mem_of_get hget, ?_⟩, Keyed.key_of_get hget⟩
    exact decide_eq_true hpending

theorem perm_pending_jobs {jobs others : List Job} (hu : Keyed.Unique Job.id jobs)
    (hothers : Keyed.Unique Job.id others)
    (h : ∀ id, status_in jobs id = some .pending ↔ status_in others id = some .pending) :
    ((pending_jobs jobs).map Job.id).Perm ((pending_jobs others).map Job.id) := by
  refine (perm_ext_iff_of_nodup (hu.filter _) (hothers.filter _)).mpr fun id => ?_
  rw [← pending_jobs, ← pending_jobs, mem_pending_jobs hu, mem_pending_jobs hothers]
  exact h id

/-- Where there is room for all pending jobs, all are queued. -/
theorem queue_pending_of_room {jobs queue : List Job}
    (h : queue.length + (pending_jobs jobs).length ≤ config.max_queue_size) :
    queue_pending config jobs queue = .ok (queue ++ pending_jobs jobs) := by
  induction jobs generalizing queue with
  | nil => rw [queue_pending, pending_jobs, filter_nil, append_nil]
  | cons job jobs ih =>
    rw [queue_pending]
    split
    · rename_i hpending
      have hcons : pending_jobs (job :: jobs) = job :: pending_jobs jobs :=
        filter_cons_of_pos (decide_eq_true hpending)
      rw [hcons, length_cons] at h
      rw [requeue, if_neg (by omega), hcons]
      simp only
      rw [ih, append_assoc, singleton_append]
      rw [length_append, length_singleton]
      omega
    · rename_i hpending
      have hcons : pending_jobs (job :: jobs) = pending_jobs jobs :=
        filter_cons_of_neg (by rw [decide_eq_true_eq]; exact hpending)
      rw [hcons] at h ⊢
      exact ih h

/-! ## Opening again -/

/-- The registry and the queue of a scheduler are read off the store, once it is pruned. -/
theorem hydrate_eq {m after : Memory} (hprune : prune_store C config {} m = .ok (.ok (), after)) :
    hydrate C config {} m =
      match queue_pending config after.store.index [] with
      | .error error => .ok (.error error, after)
      | .ok queue => .ok (.ok (), { after with registry := after.store.index, queue := queue }) := by
  have hunread : ({} : PruneEnv).unread = {} := rfl
  unfold hydrate
  rw [hunread]
  simp only [bind, StateT.bind, hprune, Except.bind, get, getThe, MonadStateOf.get, StateT.get, pure,
    Except.pure]
  cases queue_pending config after.store.index [] <;> rfl

/-- Pruning a healthy store leaves its pending jobs. -/
theorem prune_store_ok {store : JournalJobStore} (h : store.Healthy) {m : Memory}
    (hstore : m.store = store) :
    ∃ after : Memory, prune_store C config {} m = .ok (.ok (), after) ∧
      Keyed.Unique Job.id after.store.index ∧
      ∀ id, status_in after.store.index id = some .pending ↔
        status_in store.index id = some .pending := by
  obtain ⟨store', disk', hprune, hu, hpending⟩ :=
    @JournalJobStore.Healthy.prune_terminal C store m.disk h config.retained_terminal_jobs
  rw [← hstore] at hprune
  let notes : Notes := { pruned := excess_terminal config.retained_terminal_jobs m.store.index }
  refine ⟨(m.read []).stored (.ok (), store', disk') notes, ?_, hu, hpending⟩
  unfold prune_store call_store
  simp only [Memory.read, map_nil, append_nil, hprune]
  rfl

/-- A store that opens and is pruned gives a scheduler, if the queue takes its pending jobs. -/
theorem open_journal_eq {left : Remains} {store : JournalJobStore} {disk : Disk} {after : Memory}
    (hopen : JournalJobStore.open_store C {} left.disk = (.ok store, disk))
    (hprune : prune_store C config {} (left.reopened C {} store disk) = .ok (.ok (), after)) :
    open_journal C config {} {} left =
      match queue_pending config after.store.index [] with
      | .error _ => .down after.unopened
      | .ok queue =>
        let m := { after with registry := after.store.index, queue := queue }
        .up { m with history := m.observed } := by
  unfold Remains.reopened at hprune
  unfold open_journal
  simp only [hopen]
  rw [hydrate_eq hprune]
  cases queue_pending config after.store.index [] <;> rfl

/-- What some happenings leave behind, from no journal at all. -/
def left_after (config : SchedulerConfig) (happenings : List Happening) : Option Remains :=
  match Transition.run (step wire_codec config) (.down {}) happenings with
  | some (.down left) => some left
  | _ => none

theorem reached_left_after {happenings : List Happening} {left : Remains}
    (h : left_after config happenings = some left) : Reached wire_codec config (.down left) := by
  unfold left_after at h
  split at h
  · rename_i left' hrun
    rw [← some.inj h]
    exact Transition.reachable_of_run (.start rfl) (fun _ _ _ => True.intro) hrun
  · nomatch h

/-- A scheduler whose queue holds one job. -/
def narrow : SchedulerConfig := { retrying with max_queue_size := 1 }

/-- A job fails and waits for its retry, while another has taken its place in the queue. -/
def one_retrying : List Happening :=
  one_started ++ [.deed (.submit {} { id := 2, name := "fetch", created_at := 2 }),
    .deed (.finish_job { now := 3, outcome := .error "unreachable" } 1)]

/-- One job is submitted, and the process dies after five bytes of the next one's record. -/
def torn_submission : List Happening :=
  [.open_journal {} {}, .deed (.submit {} { id := 1, name := "fetch", created_at := 0 }),
    .deed (.submit { put := { write := some (5, ⟨.other, "write"⟩), crash := true } }
      { id := 2, name := "fetch", created_at := 0 })]

end BobbyBrowser.Scheduling
