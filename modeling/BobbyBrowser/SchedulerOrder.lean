/-
The order that the scheduler keeps between its registry, its queue and its tasks.

Every queued job is registered as `Pending`, every `Running` job has one task and
no place in the queue, and a task that was told to stop belongs to a job that is
settled already, so that a handler which still returns changes nothing. None of
it depends on the store: a write that fails, or an accident of the journal,
leaves the registry, the queue and the tasks in order.

While a transition is under way its job is `Apart`: it has no place in the queue
and no task, and may be registered in any status. The transition takes the job
apart, sets its status, and puts it back.
-/
import BobbyBrowser.JobStoreStatus
import BobbyBrowser.SchedulerProtocol

set_option autoImplicit false

namespace BobbyBrowser.Scheduling

open Keyed
open Option hiding all_eq_true
open Jobs List

variable {id : JobId} {job : Job} {status : JobStatus} {queue jobs : List Job}

variable {C : Codec} {config : SchedulerConfig} {m : Memory}

/-! ## The status of a registered job -/

theorem mem_set_job {found : Job} :
    found ∈ (m.set_job job).registry ↔ (found ∈ m.registry ∧ found.id ≠ job.id) ∨ found = job :=
  mem_insert

theorem get_set_job (m : Memory) (job : Job) :
    get Job.id job.id (m.set_job job).registry = some job := get_insert_self

@[simp] theorem status_of_set_job_self (m : Memory) (job : Job) :
    (m.set_job job).status_of job.id = some job.status := status_of_get (get_set_job m job)

theorem status_of_set_job_of_ne (h : id ≠ job.id) :
    (m.set_job job).status_of id = m.status_of id := by
  unfold Memory.status_of Memory.set_job
  rw [get_insert_of_ne h]

theorem set_registered_eq {found : Job}
    (h : get Job.id job.id m.registry = some found) : m.set_registered job = m.set_job job := by
  rw [Memory.set_registered, h]
  rfl

theorem is_settled_iff : is_settled status = true ↔ status ≠ .pending ∧ status ≠ .running := by
  cases status <;> decide

/-! ## The queue -/

theorem eraseP_of_find? {α : Type} {p : α → Bool} {l : List α} {a : α} (h : l.find? p = some a) :
    ∃ before after, l = before ++ a :: after ∧ l.eraseP p = before ++ after := by
  obtain ⟨hp, before, after, rfl, hbefore⟩ := find?_eq_some_iff_append.mp h
  refine ⟨before, after, rfl, ?_⟩
  have hnot : ∀ b ∈ before, ¬ p b = true := by
    intro b hb
    have := hbefore b hb
    simpa using this
  rw [eraseP_append_right _ hnot, eraseP_cons_of_pos hp]

theorem next_job_spec {rest : List Job} (h : next_job queue = some (job, rest)) :
    ∃ before after, queue = before ++ job :: after ∧ rest = before ++ after := by
  obtain ⟨priority, -, hfound⟩ := exists_of_findSome?_eq_some h
  obtain ⟨found, hfind, hpair⟩ := map_eq_some_iff.mp hfound
  obtain ⟨rfl, rfl⟩ := Prod.mk.inj hpair
  exact eraseP_of_find? hfind

/-- The job that is taken from the queue is no longer in it. -/
theorem next_job_of_nodup {rest : List Job}
    (h : next_job queue = some (job, rest)) (hnodup : (queue.map Job.id).Nodup) :
    job ∈ queue ∧ rest.Sublist queue ∧ rest.length < queue.length ∧ job.id ∉ rest.map Job.id := by
  obtain ⟨before, after, rfl, rfl⟩ := next_job_spec h
  refine ⟨mem_append_right _ mem_cons_self, ?_, ?_, ?_⟩
  · exact Sublist.append (Sublist.refl _) (sublist_cons_self _ _)
  · simp only [length_append, length_cons]
    omega
  · rw [map_append, map_cons, nodup_middle, nodup_cons, ← map_append]
      at hnodup
    exact hnodup.1

/-- A job is in the queue once, so erasing it takes it out. -/
theorem notMem_eraseP (h : (queue.map Job.id).Nodup) :
    id ∉ (queue.eraseP (·.id = id)).map Job.id := by
  cases hfind : queue.find? (·.id = id) with
  | none =>
    have hnone := find?_eq_none.mp hfind
    rw [eraseP_of_forall_not hnone]
    intro hmem
    obtain ⟨job, hjob, hid⟩ := mem_map.mp hmem
    exact hnone job hjob (decide_eq_true hid)
  | some job =>
    obtain ⟨before, after, hqueue, herase⟩ := eraseP_of_find? hfind
    have hid : job.id = id := by
      have hfound := find?_some hfind
      exact of_decide_eq_true hfound
    rw [hqueue, map_append, map_cons, nodup_middle, nodup_cons, ← map_append, hid] at h
    rw [herase]
    exact h.1

theorem nodup_append_singleton (h : (jobs.map Job.id).Nodup)
    (hout : job.id ∉ jobs.map Job.id) : ((jobs ++ [job]).map Job.id).Nodup :=
  Unique.append_singleton h hout

/-! ## The invariant -/

/-- The queue is in order, and so are the jobs that wait to be queued again. No job has two tasks,
and no more tasks hold a permit than there are. -/
structure Lined (config : SchedulerConfig) (m : Memory) : Prop where
  unique : Unique Job.id m.registry
  queued : ∀ job ∈ m.queue, m.status_of job.id = some .pending
  queue_nodup : (m.queue.map Job.id).Nodup
  queue_length : m.queue.length ≤ config.max_queue_size
  waiting : ∀ job ∈ m.backoff, job.status = .pending ∧ job.id ∉ m.queue.map Job.id ∧
    m.status_of job.id ≠ some .running
  backoff_nodup : (m.backoff.map Job.id).Nodup
  in_flight_nodup : m.in_flight.Nodup
  permits : m.permits_held ≤ config.permits

/-- The tasks are in order too: one for every `Running` job, and those that were told to stop are
of settled jobs. -/
structure Ordered (config : SchedulerConfig) (m : Memory) : Prop extends Lined config m where
  running : ∀ id, id ∈ m.in_flight ↔ m.status_of id = some .running
  aborted : ∀ id ∈ m.aborted, ∀ status, m.status_of id = some status → is_settled status = true

/-- The same but for one job, which has no task and no place in the queue. -/
structure Apart (config : SchedulerConfig) (id : JobId) (m : Memory) : Prop
    extends Lined config m where
  queue : id ∉ m.queue.map Job.id
  in_flight : id ∉ m.in_flight
  left : id ∉ m.aborted
  running : ∀ other, other ≠ id → (other ∈ m.in_flight ↔ m.status_of other = some .running)
  aborted : ∀ id ∈ m.aborted, ∀ status, m.status_of id = some status → is_settled status = true

/-! ### Changing the queue -/

section

variable (h : Lined config m)

include h

theorem Lined.notMem_queue (hstatus : m.status_of id = some status)
    (hidle : status ≠ .pending) : id ∉ m.queue.map Job.id := by
  intro hmem
  obtain ⟨queued, hqueued, rfl⟩ := mem_map.mp hmem
  rw [h.queued queued hqueued] at hstatus
  exact hidle (some.inj hstatus).symm

/-- A queue may lose jobs. -/
theorem Lined.with_queue
    (hnodup : (queue.map Job.id).Nodup) (hsub : queue.map Job.id ⊆ m.queue.map Job.id)
    (hlength : queue.length ≤ config.max_queue_size) : Lined config { m with queue := queue } := by
  refine { h with queued := ?_, queue_nodup := hnodup, queue_length := hlength, waiting := ?_ }
  · intro job hjob
    obtain ⟨queued, hqueued, hid⟩ := mem_map.mp (hsub (mem_map_of_mem hjob))
    rw [← hid]
    exact h.queued queued hqueued
  · intro job hjob
    obtain ⟨hpending, hnot, hidle⟩ := h.waiting job hjob
    exact ⟨hpending, fun hmem => hnot (hsub hmem), hidle⟩

theorem Lined.drop_queued (hsub : queue.Sublist m.queue) : Lined config { m with queue := queue } :=
  h.with_queue (h.queue_nodup.sublist (hsub.map Job.id)) (hsub.map Job.id).subset
    (le_trans hsub.length_le h.queue_length)

theorem Lined.drop_waiting {backoff : List Job}
    (hsub : backoff.Sublist m.backoff) : Lined config { m with backoff := backoff } :=
  { h with
    waiting := fun job hjob => h.waiting job (hsub.subset hjob)
    backoff_nodup := h.backoff_nodup.sublist (hsub.map Job.id) }

/-- Setting a job: one in the queue stays `Pending`, and one that waits is not `Running`. -/
theorem Lined.set_job (hqueue : job.status = .pending ∨ job.id ∉ m.queue.map Job.id)
    (hbackoff : job.status = .running → job.id ∉ m.backoff.map Job.id) :
    Lined config (m.set_job job) := by
  refine { h with unique := h.unique.insert, queued := ?_, waiting := ?_ }
  · intro queued hqueued
    by_cases hid : queued.id = job.id
    · rw [hid, status_of_set_job_self]
      rcases hqueue with hpending | hout
      · rw [hpending]
      · exact absurd (hid ▸ mem_map_of_mem hqueued) hout
    · rw [status_of_set_job_of_ne hid]
      exact h.queued queued hqueued
  intro waiting hwaiting
  obtain ⟨hpending, hnot, hidle⟩ := h.waiting waiting hwaiting
  refine ⟨hpending, hnot, ?_⟩
  by_cases hid : waiting.id = job.id
  · rw [hid, status_of_set_job_self]
    intro hrunning
    exact hbackoff (some.inj hrunning) (hid ▸ mem_map_of_mem hwaiting)
  · rw [status_of_set_job_of_ne hid]
    exact hidle

theorem Lined.permits_of_le {in_flight aborted : List JobId}
    (hle : in_flight.length + aborted.length ≤ m.in_flight.length + m.aborted.length) :
    { m with in_flight := in_flight, aborted := aborted }.permits_held ≤ config.permits :=
  le_trans hle h.permits

/-! ### Taking a job apart and putting it back -/

end

/-- A job that is not `Running` has no task, and a job that is not settled was not told to stop. -/
theorem Ordered.apart (h : Ordered config m)
    (hstatus : m.status_of id = some status) (hunsettled : is_settled status = false)
    (hsub : queue.Sublist m.queue) (hout : id ∉ queue.map Job.id) :
    Apart config id { m with queue := queue, in_flight := m.in_flight.erase id } := by
  have hnot : id ∉ m.aborted := by
    intro hmem
    have hsettled := h.aborted id hmem status hstatus
    rw [hunsettled] at hsettled
    cases hsettled
  refine { h.toLined.drop_queued hsub with
    in_flight_nodup := h.in_flight_nodup.erase _
    permits := h.permits_of_le (Nat.add_le_add_right length_erase_le _)
    queue := hout
    in_flight := h.in_flight_nodup.not_mem_erase
    left := hnot
    running := ?_
    aborted := h.aborted }
  intro other hne
  rw [mem_erase_of_ne hne]
  exact h.running other

theorem Ordered.apart_pending (h : Ordered config m) (hpending : m.status_of id = some .pending)
    (hsub : queue.Sublist m.queue) (hout : id ∉ queue.map Job.id) :
    Apart config id { m with queue := queue } := by
  have hnotin : id ∉ m.in_flight := by
    rw [h.running, hpending]
    nofun
  have hapart := h.apart hpending rfl hsub hout
  rw [erase_of_not_mem hnotin] at hapart
  exact hapart

theorem Apart.set_job (h : Apart config job.id m)
    (hbackoff : job.status = .running → job.id ∉ m.backoff.map Job.id) :
    Apart config job.id (m.set_job job) := by
  refine { h with
    toLined := h.toLined.set_job (.inr h.queue) hbackoff
    running := ?_
    aborted := ?_ }
  · intro other hne
    rw [status_of_set_job_of_ne hne]
    exact h.running other hne
  · intro other hmem status
    rw [status_of_set_job_of_ne fun hid => h.left (hid ▸ hmem)]
    exact h.aborted other hmem status

/-- **A job that is not `Running` needs no task.** -/
theorem Apart.ordered (h : Apart config id m) (hidle : m.status_of id ≠ some .running) :
    Ordered config m := by
  refine { h with running := fun other => ?_ }
  by_cases hid : other = id
  · rw [hid]
    exact ⟨fun hmem => absurd hmem h.in_flight, fun hrunning => absurd hrunning hidle⟩
  · exact h.running other hid

/-- **A `Running` job is given its task.** -/
theorem Apart.launch (h : Apart config id m) (hrunning : m.status_of id = some .running)
    (hpermit : m.permits_held < config.permits) :
    Ordered config { m with in_flight := m.in_flight ++ [id] } := by
  refine { h with in_flight_nodup := ?_, permits := ?_, running := ?_ }
  · rw [nodup_append]
    refine ⟨h.in_flight_nodup, nodup_singleton _, ?_⟩
    rintro other hmem _ hself rfl
    rw [mem_singleton.mp hself] at hmem
    exact h.in_flight hmem
  · unfold Memory.permits_held at hpermit ⊢
    simp only [length_append, length_singleton]
    omega
  · intro other
    change other ∈ m.in_flight ++ [id] ↔ m.status_of other = some .running
    rw [mem_append, mem_singleton]
    by_cases hid : other = id
    · rw [hid, hrunning]
      exact ⟨fun _ => rfl, fun _ => .inr rfl⟩
    · rw [h.running other hid]
      exact ⟨fun hor => hor.resolve_right hid, .inl⟩

/-- A pending job that is in neither place may wait for its backoff. -/
theorem Ordered.wait (h : Ordered config m) (hstatus : job.status = .pending)
    (hpending : m.status_of job.id = some .pending) (hqueue : job.id ∉ m.queue.map Job.id)
    (hbackoff : job.id ∉ m.backoff.map Job.id) :
    Ordered config { m with backoff := m.backoff ++ [job] } := by
  refine { h with waiting := ?_, backoff_nodup := nodup_append_singleton h.backoff_nodup hbackoff }
  refine forall_mem_append.mpr ⟨h.waiting, forall_mem_singleton.mpr ?_⟩
  refine ⟨hstatus, hqueue, ?_⟩
  change m.status_of job.id ≠ some .running
  rw [hpending]
  nofun

/-- A settled job may change into another settled one. -/
theorem Ordered.set_settled (h : Ordered config m)
    (hbefore : m.status_of job.id = some status) (hsettled : is_settled status)
    (hafter : is_settled job.status) : Ordered config (m.set_job job) := by
  obtain ⟨hnotpending, hnotrunning⟩ := is_settled_iff.mp hsettled
  obtain ⟨-, hidle⟩ := is_settled_iff.mp hafter
  have hqueue := h.notMem_queue hbefore hnotpending
  refine { h with
    toLined := h.toLined.set_job (.inr hqueue) fun hrunning => absurd hrunning hidle
    running := ?_
    aborted := ?_ }
  · intro id
    by_cases hid : id = job.id
    · rw [hid, status_of_set_job_self]
      have hrunning := h.running job.id
      rw [hbefore] at hrunning
      change job.id ∈ m.in_flight ↔ _
      rw [hrunning]
      exact ⟨fun he => absurd (some.inj he) hnotrunning, fun he => absurd (some.inj he) hidle⟩
    · rw [status_of_set_job_of_ne hid]
      exact h.running id
  · intro id hmem status hstatus
    by_cases hid : id = job.id
    · rw [hid, status_of_set_job_self] at hstatus
      cases hstatus
      exact hafter
    · rw [status_of_set_job_of_ne hid] at hstatus
      exact h.aborted id hmem status hstatus

/-! ## Pruning -/

/-- Retention takes terminal jobs from the registry, and leaves all others as they are. -/
theorem get_prune_registry {registry : List Job} (h : Unique Job.id registry) (retained : ℕ)
    (id : JobId) :
    get Job.id id (prune_registry retained registry) = get Job.id id registry ∨
      (get Job.id id (prune_registry retained registry) = none ∧
        ∃ job, get Job.id id registry = some job ∧ job.status.is_terminal = true) := by
  unfold prune_registry
  rw [get_removeAll]
  split
  · rename_i hmem
    right
    obtain ⟨dropped, hdropped, hid⟩ := mem_map.mp hmem
    have hterminal := mem_of_mem_take hdropped
    rw [(perm_insertionSort _ _).mem_iff, mem_filter] at hterminal
    exact ⟨rfl, dropped, h.get_of_mem hterminal.1 hid, hterminal.2⟩
  · exact .inl rfl

theorem status_of_prune_registry (h : Unique Job.id m.registry) (retained : ℕ) (id : JobId) :
    { m with registry := prune_registry retained m.registry }.status_of id = m.status_of id ∨
      ({ m with registry := prune_registry retained m.registry }.status_of id = none ∧
        ∃ status, m.status_of id = some status ∧ status.is_terminal = true) := by
  unfold Memory.status_of
  rcases get_prune_registry h retained id with hsame | ⟨hnone, job, hjob, hterminal⟩
  · exact .inl (congrArg (Option.map Job.status) hsame)
  · refine .inr ⟨congrArg (Option.map Job.status) hnone, job.status, ?_, hterminal⟩
    rw [hjob]
    rfl

theorem status_of_pruned (h : Unique Job.id m.registry) (retained : ℕ) (id : JobId)
    (hstatus : status.is_terminal = false) :
    { m with registry := prune_registry retained m.registry }.status_of id = some status ↔
      m.status_of id = some status := by
  rcases status_of_prune_registry h retained id with hsame | ⟨hnone, found, hfound, hterminal⟩
  · rw [hsame]
  · rw [hnone, hfound]
    refine ⟨by rintro ⟨⟩, fun he => ?_⟩
    rw [some.inj he, hstatus] at hterminal
    cases hterminal

/-- Retention disturbs no order: what it takes is neither queued nor running. -/
theorem Ordered.prune_registry (h : Ordered config m) (retained : ℕ) :
    Ordered config { m with registry := prune_registry retained m.registry } := by
  refine { h with unique := ?_, queued := ?_, waiting := ?_, running := ?_, aborted := ?_ }
  · exact h.unique.removeAll _
  · intro job hjob
    rw [status_of_pruned h.unique retained _ rfl]
    exact h.queued job hjob
  · intro job hjob
    obtain ⟨hpending, hnot, hidle⟩ := h.waiting job hjob
    refine ⟨hpending, hnot, ?_⟩
    rw [Ne, status_of_pruned h.unique retained _ rfl]
    exact hidle
  · intro id
    rw [status_of_pruned h.unique retained _ rfl]
    exact h.running id
  · intro id hmem status hstatus
    rcases status_of_prune_registry h.unique retained id with hsame | ⟨hnone, -⟩
    · rw [hsame] at hstatus
      exact h.aborted id hmem status hstatus
    · rw [hnone] at hstatus
      nomatch hstatus

/-! ## Persisting or reconciling -/

/-- The job is apart, and not `Running`. -/
structure Resting (config : SchedulerConfig) (id : JobId) (m : Memory) : Prop
    extends Apart config id m where
  idle : m.status_of id ≠ some .running

theorem Resting.ordered (h : Resting config id m) : Ordered config m := h.toApart.ordered h.idle

theorem Apart.rest (h : Apart config job.id m) (hidle : job.status ≠ .running) :
    Resting config job.id (m.set_job job) := by
  refine { h.set_job (fun he => absurd he hidle) with idle := ?_ }
  rw [status_of_set_job_self]
  exact fun he => hidle (some.inj he)

/-- **A `Pending` job is queued.** -/
theorem Apart.enqueue (h : Apart config job.id m) (hpending : job.status = .pending)
    (hbackoff : job.id ∉ m.backoff.map Job.id) (hroom : m.queue.length < config.max_queue_size) :
    Ordered config { m.set_job job with queue := m.queue ++ [job] } := by
  have hidle : job.status ≠ .running := by
    rw [hpending]
    nofun
  have hm := (h.rest hidle).ordered
  refine { hm with queued := ?_, queue_nodup := ?_, queue_length := ?_, waiting := ?_ }
  · refine forall_mem_append.mpr ⟨hm.queued, forall_mem_singleton.mpr ?_⟩
    rw [← hpending]
    exact status_of_set_job_self m job
  · exact nodup_append_singleton h.queue_nodup h.queue
  · rw [length_append, length_singleton]
    omega
  · intro waiting hwaiting
    obtain ⟨hwpending, hnot, hidle⟩ := hm.waiting waiting hwaiting
    refine ⟨hwpending, ?_, hidle⟩
    rw [map_append, map_singleton, mem_append, not_or, mem_singleton]
    refine ⟨hnot, fun he => hbackoff ?_⟩
    rw [← he]
    exact mem_map_of_mem hwaiting

/-! ## Submitting -/

/-- What a new identifier is not the identifier of. -/
structure Fresh (C : Codec) (id : JobId) (m : Memory) : Prop where
  registry : get Job.id id m.registry = none
  backoff : id ∉ m.backoff.map Job.id
  aborted : id ∉ m.aborted
  reports : ∀ report ∈ m.reports, report.1 ≠ id
  index : get Job.id id m.store.index = none
  journal : get Job.id id (journal_jobs C m.disk) = none
  settled : .settled id ∉ m.history
  started : ∀ name, .started id name ∉ m.history

/-- A fresh id is in none of the books. -/
theorem Memory.fresh_spec (h : m.fresh C id) : Fresh C id m := by
  simp only [Memory.fresh, Bool.and_eq_true, all_eq_true, decide_eq_true_eq] at h
  obtain ⟨⟨⟨⟨⟨⟨hregistry, hbackoff⟩, hhistory⟩, haborted⟩, hreports⟩, hindex⟩, hjournal⟩ := h
  refine ⟨get_eq_none_iff.mpr hregistry, ?_, ?_, hreports, get_eq_none_iff.mpr hindex,
    get_eq_none_iff.mpr hjournal, ?_, ?_⟩
  · intro hmem
    obtain ⟨job, hjob, hid⟩ := mem_map.mp hmem
    exact hbackoff job hjob hid
  · exact fun hmem => haborted id hmem rfl
  · exact fun hmem => absurd (hhistory _ hmem) (by simp)
  · exact fun name hmem => absurd (hhistory _ hmem) (by simp)

theorem Ordered.unregistered (h : Ordered config m) (hid : m.status_of id = none) :
    id ∉ m.queue.map Job.id ∧ id ∉ m.in_flight := by
  constructor
  · intro hmem
    obtain ⟨queued, hqueued, rfl⟩ := mem_map.mp hmem
    rw [h.queued queued hqueued] at hid
    nomatch hid
  · rw [h.running, hid]
    nofun

/-- A new job is apart. -/
theorem Ordered.fresh (h : Ordered config m) (hfresh : Fresh C id m) : Apart config id m := by
  have hnone : m.status_of id = none := by
    rw [Memory.status_of, hfresh.registry]
    rfl
  obtain ⟨hqueue, hflight⟩ := h.unregistered hnone
  exact { h with
    queue := hqueue
    in_flight := hflight
    left := hfresh.aborted
    running := fun other _ => h.running other }

/-! ## Starting -/

variable {queued : Job} {now : Ledger.Instant}

/-- The job that the queue hands out is registered as `Pending`, and started from there. -/
theorem Ordered.starting (h : Ordered config m) {rest : List Job}
    (hnext : next_job m.queue = some (queued, rest)) (hstart : starting now m queued = some job) :
    ∃ found, get Job.id job.id m.registry = some found ∧ found.status = .pending ∧
      job = found.start now ∧ rest.Sublist m.queue ∧ rest.length < m.queue.length ∧
      job.id ∉ rest.map Job.id ∧ job.id ∈ m.queue.map Job.id ∧ job.id ∉ m.backoff.map Job.id := by
  obtain ⟨hmem, hsub, hlength, hout⟩ := next_job_of_nodup hnext h.queue_nodup
  have hpending := h.queued queued hmem
  obtain ⟨found, hget, hstatus⟩ := map_eq_some_iff.mp hpending
  have hjob : job = found.start now := by
    rw [Scheduling.starting, hget] at hstart
    simp only [hstatus] at hstart
    exact (some.inj hstart).symm
  have hkey : found.id = queued.id := key_of_get hget
  have hid : job.id = queued.id := by
    rw [hjob]
    exact hkey
  rw [hid]
  refine ⟨found, hget, hstatus, hjob, hsub, hlength, hout, mem_map_of_mem hmem, ?_⟩
  intro hwaiting
  obtain ⟨waiting, hwaiting, hwid⟩ := mem_map.mp hwaiting
  apply (h.waiting waiting hwaiting).2.1
  rw [hwid]
  exact mem_map_of_mem hmem

theorem Ordered.starting_ne_none (h : Ordered config m) {rest : List Job}
    (now : Ledger.Instant) (hnext : next_job m.queue = some (queued, rest)) :
    Scheduling.starting now m queued ≠ none := by
  obtain ⟨hmem, -⟩ := next_job_of_nodup hnext h.queue_nodup
  obtain ⟨found, hget, hstatus⟩ := map_eq_some_iff.mp (h.queued queued hmem)
  rw [Scheduling.starting, hget]
  simp [hstatus]

/-- The job under way: it is apart, and there is room for it in the queue and a permit. -/
structure Starting (config : SchedulerConfig) (job : Job) (m : Memory) : Prop
    extends Apart config job.id m where
  registered : (get Job.id job.id m.registry).isSome = true
  started : m.status_of job.id = some .running
  backoff : job.id ∉ m.backoff.map Job.id
  room : m.queue.length < config.max_queue_size
  permit : m.permits_held < config.permits

/-- The job that is started is taken from the queue, and put back if it must be. -/
theorem Ordered.take (h : Ordered config m) {rest : List Job}
    (hpermit : m.permits_held < config.permits) (hnext : next_job m.queue = some (queued, rest))
    (hstart : Scheduling.starting now m queued = some job) :
    Starting config job ({ m with queue := rest }.set_registered job) := by
  obtain ⟨found, hget, hpending, hjob, hsub, hlength, hout, -, hbackoff⟩ := h.starting hnext hstart
  have hstatus : m.status_of job.id = some .pending := by
    rw [status_of_get hget, hpending]
  have hapart := h.apart_pending hstatus hsub hout
  have hregistered : get Job.id job.id { m with queue := rest }.registry = some found := hget
  rw [set_registered_eq hregistered]
  refine { hapart.set_job fun _ => hbackoff with
    registered := ?_, started := ?_, backoff := hbackoff, room := ?_, permit := hpermit }
  · rw [get_set_job]
    rfl
  · rw [status_of_set_job_self, hjob]
    rfl
  · exact lt_of_lt_of_le hlength h.queue_length

theorem Starting.put_back (h : Starting config job m) :
    m.set_registered (put_back job) = m.set_job (put_back job) ∧
      Apart config (Scheduling.put_back job).id m := by
  obtain ⟨registered, hregistered⟩ := isSome_iff_exists.mp h.registered
  have hregistered : get Job.id (Scheduling.put_back job).id m.registry = some registered :=
    hregistered
  exact ⟨set_registered_eq hregistered, h.toApart⟩

/-! ## Aborting -/

/-- The tasks have been told to stop, and the `Running` jobs among `jobs` are still to be marked. -/
structure Stopping (config : SchedulerConfig) (jobs : List Job) (m : Memory) : Prop
    extends Lined config m where
  jobs_unique : Unique Job.id jobs
  listed : ∀ job ∈ jobs, get Job.id job.id m.registry = some job
  in_flight : m.in_flight = []
  running : ∀ id, m.status_of id = some .running → id ∈ jobs.map Job.id
  aborted : ∀ id ∈ m.aborted, ∀ status, m.status_of id = some status →
    status = .running ∨ is_settled status = true

/-- A shutdown drops the tasks first, and then goes through the jobs that were running. -/
theorem Ordered.stop (h : Ordered config m) : Stopping config m.registry
    { m with in_flight := [], aborted := m.aborted ++ m.in_flight } := by
  refine { h with
    in_flight_nodup := nodup_nil
    permits := ?_
    jobs_unique := h.unique
    listed := ?_
    in_flight := rfl
    running := ?_
    aborted := ?_ }
  · apply h.permits_of_le
    simp only [length_nil, length_append]
    omega
  · intro job hjob
    exact h.unique.get_of_mem hjob rfl
  · intro id hrunning
    obtain ⟨job, hget, -⟩ := map_eq_some_iff.mp hrunning
    exact mem_map.mpr ⟨job, mem_of_get hget, key_of_get hget⟩
  · intro id hmem status hstatus
    rcases mem_append.mp hmem with hold | hnew
    · exact .inr (h.aborted id hold status hstatus)
    · have hrunning : m.status_of id = some status := hstatus
      rw [(h.running id).mp hnew] at hrunning
      exact .inl (some.inj hrunning).symm

theorem Stopping.ordered (h : Stopping config [] m) : Ordered config m := by
  refine { h with running := ?_, aborted := ?_ }
  · intro id
    rw [h.in_flight]
    exact ⟨nofun, h.running id⟩
  · intro id hmem status hstatus
    rcases h.aborted id hmem status hstatus with rfl | hsettled
    · exact absurd (h.running id hstatus) not_mem_nil
    · exact hsettled

theorem Stopping.skip (h : Stopping config (job :: jobs) m)
    (hidle : job.status ≠ .running) : Stopping config jobs m := by
  refine { h with
    jobs_unique := (nodup_cons.mp h.jobs_unique).2
    listed := fun other hother => h.listed other (mem_cons_of_mem _ hother)
    running := ?_ }
  intro id hrunning
  rcases mem_cons.mp (h.running id hrunning) with rfl | hrest
  · rw [status_of_get (h.listed job mem_cons_self)] at hrunning
    exact absurd (some.inj hrunning) hidle
  · exact hrest

/-- A job that was running when the scheduler stopped needs reconciliation. -/
theorem Stopping.mark (h : Stopping config (job :: jobs) m)
    (hrunning : job.status = .running) (reason : String) :
    Stopping config jobs (m.set_job (job.require_reconciliation reason)) := by
  obtain ⟨hout, hunique⟩ := nodup_cons.mp h.jobs_unique
  have hstatus : m.status_of job.id = some .running := by
    rw [status_of_get (h.listed job mem_cons_self), hrunning]
  have hqueue := h.notMem_queue hstatus nofun
  refine { h with
    toLined := h.toLined.set_job (.inr hqueue) nofun
    jobs_unique := hunique
    listed := ?_
    running := ?_
    aborted := ?_ }
  · intro other hother
    have hne : other.id ≠ (job.require_reconciliation reason).id := by
      intro hid
      exact hout (mem_map.mpr ⟨other, hother, hid⟩)
    change get Job.id other.id (insert Job.id _ m.registry) = some other
    rw [get_insert_of_ne hne]
    exact h.listed other (mem_cons_of_mem _ hother)
  · intro id hrun
    by_cases hid : id = (job.require_reconciliation reason).id
    · rw [hid, status_of_set_job_self] at hrun
      nomatch hrun
    · rw [status_of_set_job_of_ne hid] at hrun
      exact (mem_cons.mp (h.running id hrun)).resolve_left hid
  · intro id hmem status hstatus'
    by_cases hid : id = (job.require_reconciliation reason).id
    · rw [hid, status_of_set_job_self] at hstatus'
      rw [← some.inj hstatus']
      exact .inr rfl
    · rw [status_of_set_job_of_ne hid] at hstatus'
      exact h.aborted id hmem status hstatus'

/-! ## Finishing -/

section

variable (h : Ordered config m)

include h

theorem Ordered.drop_task (id : JobId) : Ordered config { m with aborted := m.aborted.erase id } :=
  { h with
    permits := h.permits_of_le (Nat.add_le_add_left length_erase_le _)
    aborted := fun other hmem => h.aborted other (mem_of_mem_erase hmem) }

theorem Ordered.leave (hidle : m.status_of id ≠ some .running) :
    Ordered config { m with in_flight := m.in_flight.erase id, aborted := m.aborted.erase id } := by
  have hnotin : id ∉ m.in_flight := fun hmem => hidle ((h.running id).mp hmem)
  rw [erase_of_not_mem hnotin]
  exact h.drop_task id

/-- A job that waits to be queued again is apart when its wait is over. -/
theorem Ordered.wake (hwaiting : job ∈ m.backoff) (hpending : m.status_of job.id = some .pending) :
    Apart config job.id { m with backoff := m.backoff.erase job } ∧
      job.id ∉ (m.backoff.erase job).map Job.id := by
  have hleft : Ordered config { m with backoff := m.backoff.erase job } :=
    { h with toLined := h.toLined.drop_waiting erase_sublist }
  constructor
  · exact hleft.apart_pending hpending (Sublist.refl _) (h.waiting job hwaiting).2.1
  · -- identifiers of waiting jobs are distinct
    have hnodup := h.backoff_nodup
    have hperm := (perm_cons_erase hwaiting).map Job.id
    rw [hperm.nodup_iff, map_cons, nodup_cons] at hnodup
    exact hnodup.1

/-! ## Cancelling and resolving -/

/-- A running job that is cancelled gives its permit back, and is settled. -/
theorem Ordered.cancel
    (hrunning : m.status_of job.id = some .running) (hsettled : is_settled job.status) :
    Ordered config { m.set_job job with
      in_flight := m.in_flight.erase job.id
      aborted := if job.id ∈ m.in_flight then m.aborted ++ [job.id] else m.aborted } := by
  have hmem : job.id ∈ m.in_flight := (h.running job.id).mpr hrunning
  have hqueue := h.notMem_queue hrunning nofun
  have hmarked := ((h.apart hrunning rfl (Sublist.refl _) hqueue).rest
    (is_settled_iff.mp hsettled).2).ordered
  rw [if_pos hmem]
  refine { hmarked with permits := ?_, aborted := ?_ }
  · have hlength : (m.in_flight.erase job.id).length = m.in_flight.length - 1 :=
      length_erase_of_mem hmem
    have hpos : 0 < m.in_flight.length := length_pos_of_mem hmem
    apply h.permits_of_le
    simp only [length_append, length_singleton]
    omega
  · intro id hid status hstatus
    rcases mem_append.mp hid with hold | hnew
    · exact hmarked.aborted id hold status hstatus
    · change (m.set_job job).status_of id = some status at hstatus
      rw [mem_singleton.mp hnew, status_of_set_job_self] at hstatus
      cases hstatus
      exact hsettled

theorem Ordered.cancel_queued (hpending : m.status_of job.id = some .pending)
    (hsettled : is_settled job.status) :
    Ordered config { m.set_job job with queue := m.queue.eraseP (·.id = job.id) } := by
  have hapart := h.apart_pending hpending eraseP_sublist (notMem_eraseP h.queue_nodup)
  exact { (hapart.rest (is_settled_iff.mp hsettled).2).ordered with }

end

/-! ## Opening -/

/-- The pending jobs of a journal are queued in their order, if they all fit. -/
theorem queue_pending_eq_ok {queue' : List Job} (h : queue_pending config jobs queue = .ok queue') :
    queue' = queue ++ jobs.filter (fun job => job.status = .pending) ∧
      (queue.length ≤ config.max_queue_size → queue'.length ≤ config.max_queue_size) := by
  induction jobs generalizing queue with
  | nil =>
    rw [← Except.ok.inj h, filter_nil, append_nil]
    exact ⟨rfl, fun hlength => hlength⟩
  | cons job jobs ih =>
    rw [queue_pending] at h
    split at h
    · rename_i hpending
      split at h
      · nomatch h
      rename_i between hrequeue
      obtain ⟨rfl, hroom⟩ := requeue_eq_ok hrequeue
      obtain ⟨hqueue, hlength⟩ := ih h
      constructor
      · rw [hqueue, append_assoc, singleton_append]
        simp only [hpending, filter_cons, decide_true, if_true]
      · intro _
        apply hlength
        rw [length_append, length_singleton]
        omega
    · rename_i hpending
      obtain ⟨hqueue, hlength⟩ := ih h
      refine ⟨?_, hlength⟩
      rw [hqueue]
      simp only [hpending, filter_cons, decide_false, Bool.false_eq_true, if_false]

/-- The process has opened its store and knows nothing else. -/
structure Blank (m : Memory) : Prop where
  reloaded : JournalJobStore.Reloaded m.store.index
  registry : m.registry = []
  queue : m.queue = []
  in_flight : m.in_flight = []
  aborted : m.aborted = []
  backoff : m.backoff = []

/-- A scheduler that has just opened its journal is in order. -/
theorem Blank.ordered (h : Blank m) (hqueue : queue_pending config m.store.index [] = .ok queue) :
    Ordered config { m with registry := m.store.index, queue := queue } := by
  obtain ⟨rfl, hlength⟩ := queue_pending_eq_ok hqueue
  have hget : ∀ job ∈ m.store.index, get Job.id job.id m.store.index = some job :=
    fun job hjob => h.reloaded.unique.get_of_mem hjob rfl
  refine
    { unique := h.reloaded.unique
      queued := ?_
      queue_nodup := h.reloaded.unique.filter _
      queue_length := hlength (Nat.zero_le _)
      waiting := ?_
      backoff_nodup := ?_
      in_flight_nodup := ?_
      permits := ?_
      running := ?_
      aborted := ?_ }
  · intro job hjob
    obtain ⟨hmem, hpending⟩ := mem_filter.mp hjob
    exact (status_of_get (hget job hmem)).trans (congrArg some (of_decide_eq_true hpending))
  · simp only [h.backoff]
    exact forall_mem_nil _
  · simp only [h.backoff]
    exact nodup_nil
  · simp only [h.in_flight]
    exact nodup_nil
  · unfold Memory.permits_held
    simp only [h.in_flight, h.aborted]
    exact Nat.zero_le _
  · intro id
    simp only [h.in_flight]
    refine ⟨nofun, fun hrunning => ?_⟩
    obtain ⟨job, hfound, hstatus⟩ := map_eq_some_iff.mp hrunning
    exact absurd hstatus (h.reloaded.idle job (mem_of_get hfound))
  · simp only [h.aborted]
    exact forall_mem_nil _

/-! ## A transition -/

/-- A job that waits to be queued again once its record is acknowledged. -/
structure Retrying (job : Job) (m : Memory) : Prop where
  status : job.status = .pending
  registered : m.status_of job.id = some .pending
  queue : job.id ∉ m.queue.map Job.id
  backoff : job.id ∉ m.backoff.map Job.id

/-- The order in a transition that is under way. -/
def InOrder (config : SchedulerConfig) : Position → Memory → Prop
  | .submitting job, m | .admitted job, m =>
    Ordered config m ∧ Apart config job.id m ∧ job.id ∉ m.backoff.map Job.id ∧ job.status = .pending
  | .starting job, m | .started job, m | .unstarted job, m => Starting config job m
  | .shown job event _, m | .unrecorded job event _, m =>
    Resting config job.id m ∧ (event = .retried → Retrying job m)
  | .recorded job event, m => Ordered config m ∧ (event = .retried → Retrying job m)
  | .recording job before, m | .acknowledged job before, m =>
    Ordered config m ∧ m.status_of job.id = some before ∧ is_settled job.status = true
  | .aborting jobs, m | .aborted _ jobs, m => Stopping config jobs m
  | .opening, m | .opened, m => Blank m
  | .unopened, _ => True
  | .ready, m | .done, m | .marked _ _, m | .pruning, m => Ordered config m

theorem framed_ordered : Framed (Ordered config) where
  stored _ _ _ h := { h with }
  read _ _ h := { h with }

theorem Framed.and {P Q : Memory → Prop} (hP : Framed P) (hQ : Framed Q) :
    Framed fun m => P m ∧ Q m where
  stored m r notes h := ⟨hP.stored m r notes h.1, hQ.stored m r notes h.2⟩
  read m readers h := ⟨hP.read m readers h.1, hQ.read m readers h.2⟩

theorem framed_retrying (job : Job) (event : JobEvent) :
    Framed fun m => event = .retried → Retrying job m where
  stored _ _ _ h he := { h he with }
  read _ _ h he := { h he with }

/-- A write to the store leaves the scheduler in order, acknowledged or not. -/
theorem InOrder.write {t acknowledged failed : Position} {write : Write}
    (hm : InOrder config t m) (hwrite : Writes t write acknowledged failed) :
    InOrder config (Position.next acknowledged failed (write.answer C config m).1)
      (write.after C config m) := by
  cases hwrite with
  | put env job =>
    refine write_of_framed hm (framed_ordered.and (Framed.and ?_ ?_)) fun hm => ⟨hm, hm.1⟩
    · exact ⟨fun _ _ _ h => { h with }, fun _ _ h => { h with }⟩
    · exact ⟨fun _ _ _ h => h, fun _ _ h => h⟩
  | start env job =>
    refine write_of_framed hm ?_ fun hm => ⟨hm, hm⟩
    exact ⟨fun _ _ _ (h : Starting config job _) => { h with },
      fun _ _ (h : Starting config job _) => { h with }⟩
  | persist env job event exposed =>
    refine write_of_framed hm (Framed.and ?_ (framed_retrying job event)) fun hm =>
      ⟨⟨hm.1.ordered, hm.2⟩, hm⟩
    exact ⟨fun _ _ _ h => { h with }, fun _ _ h => { h with }⟩
  | reconcile | prune => exact write_of_framed hm framed_ordered fun hm => ⟨hm, hm⟩
  | record env job event before =>
    refine write_of_framed hm (framed_ordered.and ?_) fun hm => ⟨hm, hm.1⟩
    exact ⟨fun _ _ _ h => h, fun _ _ h => h⟩
  | abort env job jobs =>
    refine write_of_framed hm ?_ fun hm => ⟨hm, hm⟩
    exact ⟨fun _ _ _ (h : Stopping config jobs _) => { h with },
      fun _ _ (h : Stopping config jobs _) => { h with }⟩
  | reopen env =>
    refine Position.next_of (P := (InOrder config · _)) (fun hok => ?_) True.intro
    have hm : Blank m := hm
    exact { hm with reloaded := JournalJobStore.prune_terminal_reloaded hm.reloaded hok }

/-- **Every move of a transition** leaves the scheduler in order; by cases on the move. -/
theorem InOrder.move {deed : Deed} {t t' : Position} {m' : Memory} (hm : InOrder config t m)
    (hmove : Moves C config deed t m t' m') : InOrder config t' m' := by
  cases hmove with
  | pass => exact hm
  | submit hfresh hprepared =>
    have hfresh := Memory.fresh_spec hfresh
    simp only [is_prepared, Bool.and_eq_true, decide_eq_true_eq] at hprepared
    exact ⟨hm, hm.fresh hfresh, hfresh.backoff, hprepared.1⟩
  | @enlist m job hroom =>
    obtain ⟨-, hapart, hbackoff, hpending⟩ := hm
    exact hapart.enqueue hpending hbackoff hroom
  | refuse | rest | prune_store => exact hm.1
  | take hpermit hnext hstart => exact hm.take hpermit hnext hstart
  | discard hnext hnone => exact absurd hnone (hm.starting_ne_none _ hnext)
  | launch m job => exact { hm.toApart.launch hm.started hm.permit with }
  | @put_back m back job hback hroom =>
    obtain ⟨hset, hapart⟩ := hm.put_back
    rw [hback, hset] at hroom ⊢
    exact { hapart.enqueue rfl hm.backoff hroom with }
  | lose hback =>
    obtain ⟨hset, hapart⟩ := hm.put_back
    rw [hback, hset]
    exact (hapart.rest nofun).ordered
  | leave hidle => exact hm.leave hidle
  | @finish m found job event hget hrunning hjob =>
    have hstatus : m.status_of found.id = some .running := by rw [status_of_get hget, hrunning]
    have hqueue := hm.notMem_queue hstatus nofun
    have hapart : Apart config found.id { m with
        in_flight := m.in_flight.erase found.id, aborted := m.aborted.erase found.id } :=
      (hm.drop_task found.id).apart hstatus rfl (Sublist.refl _) hqueue
    have hbackoff : found.id ∉ m.backoff.map Job.id := by
      intro hmem
      obtain ⟨waiting, hwaiting, hid⟩ := mem_map.mp hmem
      exact (hm.waiting waiting hwaiting).2.2 (hid ▸ hstatus)
    rw [← hjob.id] at hapart hqueue hbackoff ⊢
    refine ⟨hapart.rest ?_, ?_⟩
    · rcases hjob.status with ⟨-, hpending, -⟩ | ⟨-, hsettled, -⟩
      · rw [hpending]
        nofun
      · exact (is_settled_iff.mp hsettled).2
    · intro hevent
      rcases hjob.status with ⟨-, hpending, -⟩ | ⟨hnot, -⟩
      · refine ⟨hpending, ?_, hqueue, hbackoff⟩
        rw [status_of_set_job_self, hpending]
      · exact absurd hevent hnot
  | @mark m job found event exposed reason hget =>
    have hapart : Apart config (found.require_reconciliation reason).id m := by
      rw [Job.require_reconciliation_id, key_of_get hget]
      exact hm.1.toApart
    exact (hapart.rest nofun).ordered
  | vanish => exact hm.1.ordered
  | prune => exact hm.1.prune_registry _
  | wait m job =>
    have hjob := hm.2 rfl
    exact hm.1.wait hjob.status hjob.registered hjob.queue hjob.backoff
  | wake => exact { hm with toLined := hm.toLined.drop_waiting erase_sublist }
  | @requeue m job hwaiting hpending hroom =>
    obtain ⟨hapart, hgone⟩ := hm.wake hwaiting hpending
    exact hapart.enqueue (hm.waiting job hwaiting).1 hgone hroom
  | @overflow m job now hwaiting hpending hfull =>
    have hapart : Apart config (job.fail now "requeue failed: queue is full").id
      { m with backoff := m.backoff.erase job } := (hm.wake hwaiting hpending).1
    exact ⟨hapart.rest nofun, nofun⟩
  | cancel_pending now hget hpending =>
    refine ⟨hm, ?_, rfl⟩
    rw [← hpending]
    exact status_of_get hget
  | cancelled m job => exact ⟨hm.1.cancel_queued hm.2.1 hm.2.2, nofun⟩
  | cancel_running reason hget hrunning =>
    have hstatus := status_of_get hget
    rw [hrunning] at hstatus
    exact hm.cancel hstatus rfl
  | @latch m found env actor input hdeed hinput howner hget hstatus =>
    have hlatched : is_settled { found with resolution_pending := true }.status = true := by
      rw [hstatus]
      rfl
    have hbefore := status_of_get hget
    rw [hstatus] at hbefore
    refine ⟨hm.set_settled hbefore rfl hlatched, ?_, rfl⟩
    exact (status_of_set_job_self m { found with resolution_pending := true }).trans
      (congrArg some hstatus)
  | resolved m job => exact ⟨hm.1.set_settled hm.2.1 rfl hm.2.2, nofun⟩
  | halt => exact hm.stop
  | skip m hidle => exact hm.skip hidle
  | abort m reason hrunning => exact hm.mark hrunning reason
  | halted m failing =>
    exact { hm.ordered with toLined := { hm.ordered.toLined.drop_waiting (nil_sublist _) with } }
  | hydrate hqueue => exact hm.ordered hqueue
  | give_up => exact True.intro
  | look => exact framed_ordered.read _ _ hm
  | drop_task m id => exact hm.drop_task id
  | shut_down => exact { hm with }

theorem keeps_order (deed : Deed) : Keeps C config deed (InOrder config) fun _ => True where
  move hmove hm := hm.move hmove
  write hwrite _ hm := hm.write hwrite
  crash _ _ _ _ := True.intro

variable (C config) in
/-- Worlds reached from no journal at all. -/
abbrev Reached (w : World) : Prop :=
  Transition.Reachable (· = .down {}) (step C config) (fun _ _ => True) w

theorem reached_of_run {w : World} {happenings : List Happening}
    (h : Transition.run (step C config) (.down {}) happenings = some w) : Reached C config w :=
  Transition.reachable_of_run (.start rfl) (fun _ _ _ => trivial) h

theorem blank_reopened {left : Remains} {env : JournalJobStore.OpenEnv} {store : JournalJobStore}
    {disk : Disk} (hopen : JournalJobStore.open_store C env left.disk = (.ok store, disk)) :
    Blank (left.reopened C env store disk) :=
  ⟨JournalJobStore.open_store_reloaded _ (congrArg Prod.fst hopen), rfl, rfl, rfl, rfl, rfl⟩

theorem lives_in_order : Lives C config (fun _ _ => True) (InOrder config) fun _ => True where
  deed _ hm := ⟨_, keeps_order _, hm, fun _ hm => hm⟩
  observe hm := { hm with }
  crash _ := True.intro
  failed _ _ _ := True.intro
  opened _ _ hopen := blank_reopened hopen
  unopened _ := True.intro
  keeps := ⟨_, keeps_order .request_shutdown⟩

theorem Reached.ordered (h : Reached C config (.up m)) : Ordered config m :=
  lives_in_order.reached True.intro h

end BobbyBrowser.Scheduling
