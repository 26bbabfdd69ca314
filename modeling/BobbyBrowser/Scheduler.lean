/-
The job scheduler over a journal (`crates/task-scheduler/src/scheduler.rs`,
`queue.rs`).

The scheduler keeps a registry of jobs, a queue of those that may start, and the
store. Every transition of a job holds the transition lock from its first read
of the registry to its last write to the store, so each is one step here; a
submission holds the queue's lock, which a start needs too. Between two writes
of one transition the process can still die, and what is left then is the
journal. Transitions are written as programs that can be interrupted at every
call to the store.

Three books are kept on the side: a history of handlers that were started and of
jobs that were seen in the registry as terminal or in need of reconciliation, the
answers that `get_job` gave, and the jobs that retention dropped. A write during
which the registry is not locked comes with those who read while it is under way.

A caller that is dropped while it waits for its write to the store is left out. In
the source the write can land all the same, and the registry does not follow: the
journal has a job as cancelled that is still pending in memory.
-/
import BobbyBrowser.Interrupt
import BobbyBrowser.JobStore

set_option autoImplicit false

namespace BobbyBrowser.Scheduling

open Ledger (Instant PrincipalId)
open Interrupt Jobs

/-! ## Configuration, errors and the queue -/

/-- The part of `SchedulerConfig` and of the registered handlers that decides what runs. A handler
is there as whether it is safe to retry. -/
structure SchedulerConfig where
  max_concurrent_jobs : ℕ
  max_queue_size : ℕ
  max_output_bytes : ℕ
  retained_terminal_jobs : ℕ
  handlers : String → Option Bool

/-- The handler of the name is one that may be started more than once. -/
def SchedulerConfig.replay_safe (config : SchedulerConfig) (name : String) : Bool :=
  (config.handlers name).any id

/-- `JobStatus::to_string`. -/
def status_display : JobStatus → String
  | .pending => "pending"
  | .running => "running"
  | .completed => "completed"
  | .failed => "failed"
  | .cancelled => "cancelled"
  | .reconciliation_required => "reconciliationRequired"
  | .resolved => "resolved"

/-- `JobId::to_string`: the UUID in its usual groups of hexadecimal digits. -/
def job_id_display (id : JobId) : String :=
  let digits := Nat.toDigits 16 id.val
  let padded := List.replicate (32 - digits.length) '0' ++ digits
  let group (start length : ℕ) := String.ofList ((padded.drop start).take length)
  "job_" ++ group 0 8 ++ "-" ++ group 8 4 ++ "-" ++ group 12 4 ++ "-" ++ group 16 4 ++ "-"
    ++ group 20 12

/-- `JobError`, those the functions below return. -/
inductive JobError
  | resolution_uncertain
  | execution (message : String)
  | queue_full
  | not_found (id : JobId)
  | store (message : String)
  | admission_uncertain (job_id : JobId) (message : String)
  deriving DecidableEq

def store_err (e : StoreError) : JobError := .store e.message

def store_err_for_job (id : JobId) (e : StoreError) : JobError :=
  .store ("job " ++ job_id_display id ++ ": " ++ e.message)

/-- `JobQueue::next_job`: the first pending job of the highest priority, and the queue without it.
-/
def next_job (queue : List Job) : Option (Job × List Job) :=
  let ready (priority : JobPriority) (job : Job) : Bool :=
    job.priority = priority && job.status = .pending
  [.critical, .high, .normal, .low].findSome? fun priority =>
    (queue.find? (ready priority)).map fun job => (job, queue.eraseP (ready priority))

def requeue (config : SchedulerConfig) (queue : List Job) (job : Job) :
    Except JobError (List Job) :=
  if config.max_queue_size ≤ queue.length then .error .queue_full else .ok (queue ++ [job])

/-- The order of `completed_at`, in which no time comes first. -/
def completed_before (a b : Job) : Bool :=
  match a.completed_at, b.completed_at with
  | none, _ => true
  | some _, none => false
  | some s, some t => s ≤ t

/-- The registry's part of `prune_terminal`: jobs that ended first go first. -/
def prune_registry (retained : ℕ) (registry : List Job) : List Job :=
  let terminal := (registry.filter fun job => job.status.is_terminal).insertionSort
    fun a b => completed_before a b = true
  Keyed.removeAll Job.id ((terminal.take (terminal.length - retained)).map Job.id) registry

/-! ## The process -/

/-- What is recorded of a run. -/
inductive Event
  /-- A handler was started for the job. -/
  | started (id : JobId) (name : String)
  /-- The registry had the job as terminal or in need of reconciliation. -/
  | settled (id : JobId)
  deriving DecidableEq

/-- The status is one in which a job must not be started. -/
def is_settled (status : JobStatus) : Bool :=
  status.is_terminal || status = .reconciliation_required

/-- `JobScheduler` with its run loop, and the journal. Tasks whose handler runs are in `in_flight`,
with the abort handle of the job, and those that wait to be queued again in `backoff`. A task that
was told to stop is in `aborted` until it is gone; its handler may still return before. -/
structure Memory where
  store : JournalJobStore
  disk : Disk
  registry : List Job := []
  queue : List Job := []
  in_flight : List JobId := []
  aborted : List JobId := []
  backoff : List Job := []
  shutdown : Bool := false
  /-- The run loop could not record a start and is about to return. -/
  failing : Bool := false
  history : List Event := []
  /-- The answers of `get_job`. -/
  reports : List (JobId × Option JobStatus) := []
  /-- The jobs that retention dropped from the journal. -/
  pruned : List JobId := []
  /-- One of the accidents that `SchedulerRun` describes has happened. -/
  mishap : Bool := false
  /-- One of the accidents that `SchedulerReports` describes has happened. -/
  retracted : Bool := false

/-- What is left of a process that died. -/
structure Remains where
  disk : Disk := none
  history : List Event := []
  reports : List (JobId × Option JobStatus) := []
  pruned : List JobId := []
  mishap : Bool := false
  retracted : Bool := false

variable (m : Memory)

/-- The history with what the registry shows now. -/
def Memory.observed : List Event :=
  m.history ++ (m.registry.filter fun job => is_settled job.status).map fun job => .settled job.id

/-- What would be left if the process died now. -/
def Memory.remains : Remains where
  disk := m.disk
  history := m.observed
  reports := m.reports
  pruned := m.pruned
  mishap := m.mishap
  retracted := m.retracted

/-- `get_job`: from the registry, else from the store. -/
def Memory.get_job (id : JobId) : Option Job :=
  (Keyed.get Job.id id m.registry).or (Keyed.get Job.id id m.store.index)

/-- The jobs are asked for. -/
def Memory.read (readers : List JobId) : Memory :=
  { m with reports := m.reports ++ readers.map fun id => (id, (m.get_job id).map Job.status) }

/-- Set a job that is registered. -/
def Memory.set_job (job : Job) : Memory := { m with registry := Keyed.insert Job.id job m.registry }

/-- Set a job if it is registered. -/
def Memory.set_registered (job : Job) : Memory :=
  if (Keyed.get Job.id job.id m.registry).isSome then m.set_job job else m

/-- A transition of the scheduler. -/
abbrev Transition := Prog Memory Remains

/-- Look at the registry. -/
def observe : Transition Unit := modify fun m => { m with history := m.observed }

/-- What a call to the store leaves in the books. -/
structure Notes where
  mishap : Bool := false
  retracted : Bool := false
  pruned : List JobId := []

/-- The memory after a call to the store. The store's file must stay the one at the path. -/
def Memory.stored (r : Except StoreError Unit × JournalJobStore × Disk) (notes : Notes) : Memory :=
  { m with
    store := r.2.1
    disk := r.2.2
    pruned := m.pruned ++ notes.pruned
    mishap := m.mishap || !r.2.1.attached || notes.mishap
    retracted := m.retracted || !r.2.1.attached || notes.retracted }

/-- Call the store; the process may die before the call returns. -/
def call_store (crash : Bool) (readers : List JobId)
    (call : JournalJobStore → Disk → Except StoreError Unit × JournalJobStore × Disk)
    (notes : Except StoreError Unit → Memory → Notes) : Transition (Except StoreError Unit) := fun m =>
  let m := m.read readers
  let r := call m.store m.disk
  let after := m.stored r (notes r.1 m)
  if crash then .error after.remains else .ok (r.1, after)

/-- What happens to a write: the file system's part, whether the process dies before it returns,
and who asks for a job meanwhile. -/
structure WriteEnv extends AppendEnv where
  crash : Bool := false
  readers : List JobId := []

/-- The write is made with the registry locked: who asks for a job has to wait. -/
def WriteEnv.locked (env : WriteEnv) : WriteEnv := { env with readers := [] }

/-- What happens to a prune of the store. -/
structure PruneEnv extends CompactEnv where
  crash : Bool := false
  readers : List JobId := []

/-- The prune is made before anybody has the scheduler. -/
def PruneEnv.unread (env : PruneEnv) : PruneEnv := { env with readers := [] }

section

variable (C : Codec) (config : SchedulerConfig)

/-- The registry shows the job in a terminal status. -/
def Memory.shows_terminal (m : Memory) (id : JobId) : Bool :=
  (Keyed.get Job.id id m.registry).any fun job => job.status.is_terminal

/-- `JobStore::update`. A write on which a job's safety depends is `vital`. -/
def update (env : WriteEnv) (job : Job) (event : JobEvent) (vital : Bool) :
    Transition (Except StoreError Unit) :=
  call_store env.crash env.readers
    (fun store disk => store.update C env.toAppendEnv job event disk) fun result m =>
      { mishap := vital && !result.isOk
        retracted := m.shows_terminal job.id && !result.isOk || env.kept.isSome }

def put (env : WriteEnv) (job : Job) : Transition (Except StoreError Unit) :=
  call_store env.crash env.readers (fun store disk => store.put C env.toAppendEnv job disk)
    fun _ _ => { retracted := env.kept.isSome }

/-- The journal is one that opening would archive. -/
def journal_damaged (disk : Disk) : Bool :=
  match scan_path C disk true with
  | .ok scan => JournalJobStore.damaged scan
  | .error _ => true

/-- `JobStore::prune_terminal`. -/
def prune_store (env : PruneEnv) : Transition (Except StoreError Unit) :=
  call_store env.crash env.readers
    (fun store disk =>
      store.prune_terminal C env.toCompactEnv config.retained_terminal_jobs disk) fun _ m =>
      { mishap := !env.renames && journal_damaged C m.disk
        retracted := !env.renames && journal_damaged C m.disk || env.kept.isSome
        pruned := if env.renames then excess_terminal config.retained_terminal_jobs m.store.index
          else [] }

/-- `prune_terminal` and `prune_store_terminal`, one after the other. -/
def prune_terminal (env : PruneEnv) : Transition Unit := do
  modify fun m => { m with registry := prune_registry config.retained_terminal_jobs m.registry }
  let _ ← prune_store C config env
  return ()

/-- `persist_or_reconcile`. With `exposed` the registry shows what is not recorded yet. -/
def persist_or_reconcile (persist reconcile : WriteEnv) (snapshot : Job) (event : JobEvent)
    (exposed : Bool) : Transition Bool := do
  match ← update C persist snapshot event (exposed && persist.crash) with
  | .ok () => return true
  | .error error =>
    match Keyed.get Job.id snapshot.id (← get).registry with
    | none => return false
    | some job =>
      let unresolved := job.require_reconciliation
        (event.debug ++ " persistence uncertain: " ++ error.message)
      modify (·.set_job unresolved)
      let _ ← update C reconcile unresolved .recovered (exposed || event = .retried)
      return false

/-! ## Submitting -/

/-- What comes with a submission. -/
structure SubmitEnv where
  put : WriteEnv := {}

/-- The jobs of the journal. -/
def journal_jobs (disk : Disk) : List Job :=
  match scan_path C disk true with
  | .ok scan => scan.jobs
  | .error _ => []

/-- No job, no task, no event and no answer of this run has the identifier. Identifiers are random
UUIDs. -/
def Memory.fresh (m : Memory) (id : JobId) : Bool :=
  (m.registry.all (·.id ≠ id) && m.backoff.all (·.id ≠ id) && m.history.all fun
    | .started seen _ => seen ≠ id
    | .settled seen => seen ≠ id)
  && m.aborted.all (· ≠ id) && m.reports.all (·.1 ≠ id) && m.store.index.all (·.id ≠ id)
  && (journal_jobs C m.disk).all (·.id ≠ id)

/-- The job is as `JobQueue::prepare` builds it. -/
def is_prepared (job : Job) : Bool := job.status = .pending && job.resolution = none

/-- `submit`, of a job that `JobQueue::prepare` has built. -/
def submit (env : SubmitEnv) (job : Job) : Transition (Except JobError JobId) := do
  let m ← get
  if config.max_queue_size ≤ m.queue.length then return .error .queue_full
  match ← put C env.put job with
  | .error error => return .error (.admission_uncertain job.id error.message)
  | .ok () =>
    match requeue config (← get).queue job with
    | .error error => return .error error
    | .ok queue =>
      modify fun m => { m.set_job job with queue := queue }
      return .ok job.id

/-! ## Starting -/

/-- The part of `abort_all_running` that goes through the registry. -/
def abort_jobs (env : ℕ → WriteEnv) : ℕ → List Job → Transition Unit
  | _, [] => return ()
  | n, job :: jobs => do
    if job.status = .running then
      let aborted := job.require_reconciliation
        "shutdown interrupted handler; effect may have occurred"
      modify (·.set_job aborted)
      let _ ← update C (env n).locked aborted .recovered false
    abort_jobs env (n + 1) jobs

def abort_all_running (env : ℕ → WriteEnv) : Transition Unit := do
  modify fun m => { m with in_flight := [], aborted := m.aborted ++ m.in_flight }
  abort_jobs C env 0 (← get).registry

/-- What comes with a turn of the run loop. -/
structure StartEnv where
  now : Instant
  started : WriteEnv := {}

/-- The state a job is started in: the registered one, unless it was cancelled. -/
def starting (now : Instant) (m : Memory) (job : Job) : Option Job :=
  match Keyed.get Job.id job.id m.registry with
  | some registered =>
    if registered.status = .cancelled then none else some (registered.start now)
  | none => some (job.start now)

/-- The job whose start was not recorded, as it is put back. -/
def put_back (job : Job) : Job := { job with status := .pending, started_at := none }

/-- The permits of the semaphore. -/
def SchedulerConfig.permits (config : SchedulerConfig) : ℕ := max config.max_concurrent_jobs 1

/-- The permits that are held, by tasks that run and by tasks that are not gone yet. -/
def Memory.permits_held (m : Memory) : ℕ := m.in_flight.length + m.aborted.length

/-- One turn of `run_with_drain` outside of a shutdown, up to where it gives up the transition
lock. -/
def start_next (env : StartEnv) : Transition (Except JobError Unit) := do
  let m ← get
  if m.shutdown || m.failing || config.permits ≤ m.permits_held then return .ok ()
  match next_job m.queue with
  | none => return .ok ()
  | some (queued, queue) =>
    modify fun m => { m with queue := queue }
    match starting env.now m queued with
    | none => return .ok ()
    | some job =>
      modify (·.set_registered job)
      match ← update C env.started job .started false with
      | .error error =>
        let job := put_back job
        modify (·.set_registered job)
        match requeue config (← get).queue job with
        | .error error => return .error error
        | .ok queue =>
          modify fun m => { m with queue := queue, failing := true }
          return .error (store_err_for_job job.id error)
      | .ok () =>
        modify fun m =>
          { m with
            in_flight := m.in_flight ++ [job.id]
            history := m.history ++ [.started job.id job.name] }
        return .ok ()

/-- The rest of `run_with_drain` after a start that could not be recorded. -/
def stop_failed (aborted : ℕ → WriteEnv) : Transition Unit := do
  if (← get).failing then
    abort_all_running C aborted
    -- the tasks of this loop are dropped with it, also those that only wait
    modify fun m => { m with backoff := [], failing := false }

/-- The forced end of a drain. -/
def drain (aborted : ℕ → WriteEnv) : Transition Unit := do
  let m ← get
  if m.shutdown && !m.failing then
    abort_all_running C aborted
    modify fun m => { m with backoff := [] }

/-! ## Finishing -/

/-- How a handler ends. -/
inductive HandlerOutcome
  | ok (output_bytes : ℕ)
  | error (message : String)
  | timed_out
  deriving DecidableEq

/-- The `JobResult` of a handler that returned: `execute_job`. -/
def execute_job (now : Instant) (job : Job) : HandlerOutcome → JobResult
  | .timed_out => ⟨false, some "job timeout", now⟩
  | outcome =>
    match config.handlers job.name with
    | none => ⟨false, some ("no handler registered for job: " ++ job.name), now⟩
    | some _ =>
      match outcome with
      | .ok output_bytes =>
        if output_bytes ≤ config.max_output_bytes then ⟨true, none, now⟩
        else ⟨false, some ("job output exceeds " ++ toString config.max_output_bytes ++ " bytes"),
          now⟩
      | .error message => ⟨false, some message, now⟩
      | .timed_out => ⟨false, some "job timeout", now⟩

/-- What comes with the end of a handler. -/
structure FinishEnv where
  now : Instant
  outcome : HandlerOutcome
  persist : WriteEnv := {}
  reconcile : WriteEnv := {}
  prune : PruneEnv := {}

/-- The end of a job in a terminal status. -/
def finish_terminal (env : FinishEnv) (job : Job) (event : JobEvent) : Transition Unit := do
  modify (·.set_job job)
  if ← persist_or_reconcile C env.persist env.reconcile job event false then
    prune_terminal C config env.prune

/-- `finish_job`, by a task of the job, which then gives up its permit. What is to be queued again
waits. -/
def finish_job (env : FinishEnv) (id : JobId) : Transition Unit := do
  let m ← get
  if id ∉ m.in_flight ∧ id ∉ m.aborted then return ()
  modify fun m =>
    { m with in_flight := m.in_flight.erase id, aborted := m.aborted.erase id }
  match Keyed.get Job.id id m.registry with
  | none => return ()
  | some job =>
    if job.status ≠ .running then return ()
    let result := execute_job config env.now job env.outcome
    if env.outcome = .timed_out then
      let job := job.require_reconciliation "handler timed out; effect may have occurred"
      modify (·.set_job job)
      let _ ← persist_or_reconcile C env.persist env.reconcile job .recovered false
    else if result.success then
      finish_terminal C config env (job.complete env.now result) .completed
    else
      let failed : Job := { job.fail env.now (result.error.getD "job failed") with
        result := some result }
      if !failed.can_retry || !config.replay_safe job.name then
        finish_terminal C config env failed .failed
      else
        let job := failed.prepare_retry
        modify (·.set_job job)
        if ← persist_or_reconcile C env.persist env.reconcile job .retried false then
          modify fun m => { m with backoff := m.backoff ++ [job] }

/-- What comes with the end of a backoff. -/
structure RequeueEnv where
  now : Instant
  persist : WriteEnv := {}
  reconcile : WriteEnv := {}
  prune : PruneEnv := {}

def requeue_after_backoff (env : RequeueEnv) (requeue_job : Job) : Transition Unit := do
  let m ← get
  if requeue_job ∉ m.backoff then return ()
  modify fun m => { m with backoff := m.backoff.erase requeue_job }
  if m.shutdown then return ()
  match Keyed.get Job.id requeue_job.id m.registry with
  | none => return ()
  | some job =>
    if job.status ≠ .pending then return ()
    match requeue config m.queue requeue_job with
    | .ok queue => modify fun m => { m.set_job requeue_job with queue := queue }
    | .error _ =>
      let failed := requeue_job.fail env.now "requeue failed: queue is full"
      modify (·.set_job failed)
      if ← persist_or_reconcile C env.persist env.reconcile failed .failed true then
        let _ ← prune_store C config env.prune

/-! ## Cancelling and resolving -/

/-- What comes with a cancellation or a resolution. -/
structure OrderEnv where
  now : Instant
  write : WriteEnv := {}
  prune : PruneEnv := {}

def cancel_job (env : OrderEnv) (id : JobId) : Transition (Except JobError Unit) := do
  match Keyed.get Job.id id (← get).registry with
  | none => return .error (.not_found id)
  | some job =>
    match job.status with
    | .pending =>
      let snapshot := job.cancel env.now
      match ← update C env.write.locked snapshot .cancelled false with
      | .error error => return .error (store_err_for_job id error)
      | .ok () =>
        modify fun m => { m.set_job snapshot with queue := m.queue.eraseP (·.id = id) }
        prune_terminal C config env.prune
        return .ok ()
    | .running =>
      let snapshot := job.require_reconciliation
        "running job cancelled; handler effect may have occurred"
      modify fun m =>
        { m.set_job snapshot with
          in_flight := m.in_flight.erase id
          aborted := if id ∈ m.in_flight then m.aborted ++ [id] else m.aborted }
      match ← update C env.write.locked snapshot .recovered false with
      | .error error => return .error (store_err_for_job id error)
      | .ok () => return .ok ()
    | .reconciliation_required =>
      return .error (.execution
        ("job " ++ job_id_display id ++ " requires reconciliation before cancellation"))
    | status =>
      return .error (.execution
        ("job " ++ job_id_display id ++ " already finished with status " ++ (status_display status)))

/-- The job with its receipt. -/
def resolved_job (job : Job) (receipt : JobResolutionReceipt) : Job :=
  { job with
    resolution_pending := false, status := .resolved, completed_at := some receipt.resolved_at
    result := none, error := none, resolution := some receipt }

def resolve_job (env : OrderEnv) (id : JobId) (actor : PrincipalId) (input : JobResolutionRequest) :
    Transition (Except JobError JobResolutionReceipt) := do
  match input.validate with
  | .error reason => return .error (.execution reason)
  | .ok () =>
    match Keyed.get Job.id id (← get).registry with
    | none => return .error (.not_found id)
    | some job =>
      if job.owner ≠ some actor then return .error (.not_found id)
      if job.resolution_pending || !job.has_valid_resolution then
        return .error .resolution_uncertain
      match job.resolution with
      | some receipt =>
        if receipt.actor = actor ∧ receipt.decision = input.decision
            ∧ receipt.evidence_sha256 = input.evidence_sha256 then
          return .ok receipt
        return .error (.execution "job resolution conflicts with its durable receipt")
      | none =>
        if job.status ≠ .reconciliation_required then
          return .error (.execution "only reconciliation-required jobs can be resolved")
        modify (·.set_job { job with resolution_pending := true })
        let receipt : JobResolutionReceipt :=
          ⟨id, input.decision, input.evidence_sha256, actor, env.now, "operatorAttested"⟩
        match ← update C env.write.locked (resolved_job job receipt) .resolved false with
        | .error _ => return .error .resolution_uncertain
        | .ok () =>
          modify (·.set_job (resolved_job job receipt))
          prune_terminal C config env.prune
          return .ok receipt

/-! ## Opening -/

/-- The part of `hydrate` that fills the queue. -/
def queue_pending : List Job → List Job → Except JobError (List Job)
  | [], queue => .ok queue
  | job :: jobs, queue =>
    if job.status = .pending then
      match requeue config queue job with
      | .error error => .error error
      | .ok queue => queue_pending jobs queue
    else queue_pending jobs queue

def hydrate (prune : PruneEnv) : Transition (Except JobError Unit) := do
  match ← prune_store C config prune.unread with
  | .error error => return .error (store_err error)
  | .ok () =>
    let jobs := (← get).store.index
    match queue_pending config jobs [] with
    | .error error => return .error error
    | .ok queue =>
      modify fun m => { m with registry := jobs, queue := queue }
      return .ok ()

/-! ## Runs -/

/-- A process with its journal, or what is left of one. -/
inductive World
  | up (m : Memory)
  | down (remains : Remains)

/-- What can happen to a scheduler that runs. -/
inductive Deed
  | submit (env : SubmitEnv) (job : Job)
  | start_next (env : StartEnv)
  | finish_job (env : FinishEnv) (id : JobId)
  | requeue_after_backoff (env : RequeueEnv) (job : Job)
  | cancel_job (env : OrderEnv) (id : JobId)
  | resolve_job (env : OrderEnv) (id : JobId) (actor : PrincipalId) (input : JobResolutionRequest)
  | get_job (id : JobId)
  /-- A task that was told to stop is gone. -/
  | drop_task (id : JobId)
  | stop_failed (aborted : ℕ → WriteEnv)
  | request_shutdown
  | drain (aborted : ℕ → WriteEnv)

inductive Happening
  | deed (deed : Deed)
  /-- The process dies between two transitions. -/
  | crash
  /-- `open_journal`. -/
  | open_journal (env : JournalJobStore.OpenEnv) (prune : PruneEnv)

/-- Carry out a deed. A job that is submitted is new. -/
def perform : Deed → Transition Unit
  | .submit env job => do
    if (← get).fresh C job.id && is_prepared job then
      let _ ← submit C config env job
  | .start_next env => do
    let _ ← start_next C config env
  | .finish_job env id => finish_job C config env id
  | .requeue_after_backoff env job => requeue_after_backoff C config env job
  | .cancel_job env id => do
    let _ ← cancel_job C config env id
  | .resolve_job env id actor input => do
    let _ ← resolve_job C config env id actor input
  | .get_job id => modify (·.read [id])
  | .drop_task id => modify fun m => { m with aborted := m.aborted.erase id }
  | .stop_failed aborted => stop_failed C aborted
  | .request_shutdown => modify fun m => { m with shutdown := true }
  | .drain aborted => drain C aborted

/-- What is left of a process that could not be opened: nobody has looked at its registry. -/
def Memory.unopened (m : Memory) : Remains := { m.remains with history := m.history }

/-- `open_journal` on what is left of an earlier process. -/
def open_journal (env : JournalJobStore.OpenEnv) (prune : PruneEnv) (left : Remains) : World :=
  let pruned := left.pruned ++ JournalJobStore.open_prunes C env left.disk
  let retracted := left.retracted || JournalJobStore.open_loses C env left.disk
  match JournalJobStore.open_store C env left.disk with
  | (.error _, disk) => .down { left with disk := disk, pruned := pruned, retracted := retracted }
  | (.ok store, disk) =>
    match hydrate C config prune
        { store := store, disk := disk, history := left.history, reports := left.reports
          pruned := pruned, mishap := left.mishap, retracted := retracted } with
    | .error remains => .down remains
    | .ok (.error _, m) => .down m.unopened
    | .ok (.ok (), m) => .up { m with history := m.observed }

def step : World → Happening → Option World
  | .up m, .deed deed =>
    match (do perform C config deed; observe : Transition Unit) m with
    | .error remains => some (.down remains)
    | .ok (_, m) => some (.up m)
  | .up m, .crash => some (.down m.remains)
  | .down left, .open_journal env prune => some (open_journal C config env prune left)
  | _, _ => none

/-- The history of a world. -/
def World.history : World → List Event
  | .up m => m.history
  | .down left => left.history

/-- One of the accidents of `SchedulerRun` has happened. -/
def World.mishap : World → Bool
  | .up m => m.mishap
  | .down left => left.mishap

/-- One of the accidents of `SchedulerReports` has happened. -/
def World.retracted : World → Bool
  | .up m => m.retracted
  | .down left => left.retracted

/-- The answers of `get_job` in a world. -/
def World.reports : World → List (JobId × Option JobStatus)
  | .up m => m.reports
  | .down left => left.reports

/-- The jobs that retention dropped in a world. -/
def World.pruned : World → List JobId
  | .up m => m.pruned
  | .down left => left.pruned

end

end BobbyBrowser.Scheduling
