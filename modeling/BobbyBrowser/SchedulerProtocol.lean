/-
The protocol of the scheduler's transitions.

A transition changes the registry, the queue and the tasks, calls the store, and
goes on by what the store answers. `Moves` tells what is changed between two calls
and what was found out before, `Writes` which call is made where and where its
answer leads. The programs are followed through them once; an invariant of the
scheduler is then shown for the moves and the writes, with what it says of a
transition that is under way.
-/
import BobbyBrowser.Scheduler
import BobbyBrowser.Transition

set_option autoImplicit false

namespace BobbyBrowser.Scheduling

open Interrupt Jobs Option Keyed
open Triple (change_bind get_bind keep modify_bind set_bind stay)
open Ledger (Instant PrincipalId)

variable {id : JobId} {job found : Job} {status : JobStatus} {queue jobs : List Job}

variable {C : Codec} {config : SchedulerConfig} {m : Memory}

/-! ## The status of a registered job -/

/-- The status in which a job is registered. -/
def Memory.status_of (m : Memory) (id : JobId) : Option JobStatus :=
  (get Job.id id m.registry).map Job.status

theorem status_of_get (h : get Job.id id m.registry = some job) :
    m.status_of id = some job.status := by
  rw [Memory.status_of, h]
  rfl

theorem eq_ok_of_isOk {r : Except StoreError Unit} (h : r.isOk) : r = .ok () := by
  cases r with
  | ok u => rfl
  | error e => nomatch h

theorem requeue_eq_ok {queue' : List Job} (h : requeue config queue job = .ok queue') :
    queue' = queue ++ [job] ∧ queue.length < config.max_queue_size := by
  rw [requeue] at h
  split at h
  · nomatch h
  · rename_i hroom
    exact ⟨(Except.ok.inj h).symm, Nat.not_le.mp hroom⟩

theorem requeue_eq_error {error : JobError} (h : requeue config queue job = .error error) :
    config.max_queue_size ≤ queue.length := by
  rw [requeue] at h
  split at h
  · assumption
  · nomatch h

/-! ## Calls to the store -/

/-- A call to the store. -/
inductive Write
  | put (env : WriteEnv) (job : Job)
  | update (env : WriteEnv) (job : Job) (event : JobEvent) (vital : Bool)
  | prune (env : PruneEnv)

namespace Write

/-- The process dies before the call returns. -/
def crash : Write → Bool
  | .put env _ | .update env _ _ _ => env.crash
  | .prune env => env.crash

/-- Who asks for a job meanwhile. -/
def readers : Write → List JobId
  | .put env _ | .update env _ _ _ => env.readers
  | .prune env => env.readers

variable (C : Codec) (config : SchedulerConfig)

def perform : Write → Transition (Except StoreError Unit)
  | .put env job => Scheduling.put C env job
  | .update env job event vital => Scheduling.update C env job event vital
  | .prune env => prune_store C config env

/-- What the store answers, and what becomes of it. -/
def answer (m : Memory) : Write → Except StoreError Unit × JournalJobStore × Disk
  | .put env job => m.store.put C env.toAppendEnv job m.disk
  | .update env job event _ => m.store.update C env.toAppendEnv job event m.disk
  | .prune env =>
    m.store.prune_terminal C env.toCompactEnv config.retained_terminal_jobs m.disk

/-- What the call leaves in the books. -/
def notes (m : Memory) : Write → Notes
  | .put env _ => { retracted := env.kept.isSome }
  | .update env job event vital =>
    let failed := !(m.store.update C env.toAppendEnv job event m.disk).1.isOk
    { mishap := vital && failed
      retracted := m.shows_terminal job.id && failed || env.kept.isSome }
  | .prune env =>
    { mishap := !env.renames && journal_damaged C m.disk
      retracted := !env.renames && journal_damaged C m.disk || env.kept.isSome
      pruned := if env.renames then excess_terminal config.retained_terminal_jobs m.store.index
        else [] }

/-- The memory after the call. -/
def after (m : Memory) (write : Write) : Memory :=
  (m.read write.readers).stored (write.answer C config m)
    (write.notes C config (m.read write.readers))

end Write

variable {Q : Except StoreError Unit → Memory → Prop} {E : Remains → Prop} {P : Memory → Prop}

/-- The rule for a call to the store, which may be the last thing the process does. -/
theorem call_store_triple {crash : Bool} {readers : List JobId}
    {call : JournalJobStore → Disk → Except StoreError Unit × JournalJobStore × Disk}
    {notes : Except StoreError Unit → Memory → Notes}
    (hpost : ∀ m, P m → Q (call m.store m.disk).1 ((m.read readers).stored (call m.store m.disk)
      (notes (call m.store m.disk).1 (m.read readers))))
    (hcrash : ∀ m, P m → crash = true → E ((m.read readers).stored (call m.store m.disk)
      (notes (call m.store m.disk).1 (m.read readers))).remains) :
    Triple P (call_store crash readers call notes) Q E := by
  intro m hm
  unfold call_store
  split
  · rename_i a t heq
    split at heq
    · nomatch heq
    · obtain ⟨rfl, rfl⟩ := Prod.mk.inj (Except.ok.inj heq)
      exact hpost m hm
  · rename_i e heq
    split at heq
    · rename_i hc
      obtain rfl := Except.error.inj heq
      exact hcrash m hm hc
    · nomatch heq

theorem Write.perform_triple (write : Write)
    (hpost : ∀ m, P m → Q (write.answer C config m).1 (write.after C config m))
    (hcrash : ∀ m, P m → write.crash = true → E (write.after C config m).remains) :
    Triple P (write.perform C config) Q E := by
  cases write with
  | put env job =>
    rw [perform, Scheduling.put]
    exact call_store_triple hpost hcrash
  | update env job event vital =>
    rw [perform, Scheduling.update]
    exact call_store_triple hpost hcrash
  | prune env =>
    rw [perform, prune_store]
    exact call_store_triple hpost hcrash

/-! ## Where a transition stands -/

inductive Position
  | ready
  /-- The job is new, and to be recorded. -/
  | submitting (job : Job)
  | admitted (job : Job)
  /-- The registry shows the job as `Running`, which is to be recorded. -/
  | starting (job : Job)
  | started (job : Job)
  | unstarted (job : Job)
  /-- The registry shows the job, and the event is to be recorded. With `exposed` the journal may
  have the job as `Pending`. -/
  | shown (job : Job) (event : JobEvent) (exposed : Bool)
  | recorded (job : Job) (event : JobEvent)
  | unrecorded (job : Job) (event : JobEvent) (exposed : Bool)
  /-- The registry shows the job as one to reconcile, which is to be recorded. -/
  | marked (job : Job) (vital : Bool)
  /-- The job is to be recorded before the registry shows it in place of one of this status. -/
  | recording (job : Job) (before : JobStatus)
  | acknowledged (job : Job) (before : JobStatus)
  | pruning
  /-- The tasks were told to stop, and these jobs are to be marked. -/
  | aborting (jobs : List Job)
  | aborted (job : Job) (jobs : List Job)
  /-- A store was opened, and its terminal jobs are to be pruned. -/
  | opening
  | opened
  | unopened
  | done

/-- How the end of a handler changes its job: it is settled, or waits to be started again. -/
structure Finishes (config : SchedulerConfig) (found job : Job) (event : JobEvent) : Prop where
  id : job.id = found.id
  resolution : job.resolution = found.resolution
  status : event = .retried ∧ job.status = .pending ∧ config.replay_safe found.name = true ∨
    event ≠ .retried ∧ is_settled job.status = true ∧ job.status ≠ .resolved

variable (C config) in
/-- **What a transition changes between two calls to the store.** -/
inductive Moves (deed : Deed) : Position → Memory → Position → Memory → Prop
  | pass (m : Memory) : Moves deed .ready m .done m
  -- submitting
  | submit {m : Memory} {job : Job} (hfresh : m.fresh C job.id = true)
      (hprepared : is_prepared job = true) : Moves deed .ready m (.submitting job) m
  | enlist {m : Memory} {job : Job} (hroom : m.queue.length < config.max_queue_size) :
    Moves deed (.admitted job) m .done { m.set_job job with queue := m.queue ++ [job] }
  | refuse {m : Memory} {job : Job} (hfull : config.max_queue_size ≤ m.queue.length) :
    Moves deed (.admitted job) m .done m
  -- starting
  | take {m : Memory} {queued job : Job} {queue : List Job} {now : Instant}
      (hpermit : m.permits_held < config.permits) (hnext : next_job m.queue = some (queued, queue))
      (hstart : starting now m queued = some job) :
    Moves deed .ready m (.starting job) ({ m with queue := queue }.set_registered job)
  | discard {m : Memory} {queued : Job} {queue : List Job} {now : Instant}
      (hnext : next_job m.queue = some (queued, queue)) (hnone : starting now m queued = none) :
    Moves deed .ready m .done { m with queue := queue }
  | launch (m : Memory) (job : Job) :
    Moves deed (.started job) m .done
      { m with
        in_flight := m.in_flight ++ [job.id]
        history := m.history ++ [.started job.id job.name] }
  | put_back {m back : Memory} {job : Job} (hback : back = m.set_registered (put_back job))
      (hroom : back.queue.length < config.max_queue_size) :
    Moves deed (.unstarted job) m .done
      { back with queue := back.queue ++ [put_back job], failing := true }
  | lose {m back : Memory} {job : Job} (hback : back = m.set_registered (put_back job))
      (hfull : config.max_queue_size ≤ back.queue.length) :
    Moves deed (.unstarted job) m .done back
  -- finishing
  | leave {m : Memory} {id : JobId} (hidle : m.status_of id ≠ some .running) :
    Moves deed .ready m .done
      { m with in_flight := m.in_flight.erase id, aborted := m.aborted.erase id }
  | finish {m : Memory} {found job : Job} {event : JobEvent}
      (hget : get Job.id found.id m.registry = some found)
      (hrunning : found.status = .running) (hjob : Finishes config found job event) :
    Moves deed .ready m (.shown job event false)
      ({ m with
        in_flight := m.in_flight.erase found.id
        aborted := m.aborted.erase found.id }.set_job job)
  | mark {m : Memory} {job found : Job} {event : JobEvent} {exposed : Bool} (reason : String)
      (hget : get Job.id job.id m.registry = some found) :
    Moves deed (.unrecorded job event exposed) m
      (.marked (found.require_reconciliation reason) (exposed || event = .retried))
      (m.set_job (found.require_reconciliation reason))
  | vanish {m : Memory} {job : Job} {event : JobEvent} {exposed : Bool}
      (hnone : get Job.id job.id m.registry = none) :
    Moves deed (.unrecorded job event exposed) m .done m
  | rest {job : Job} {event : JobEvent} (m : Memory) (hevent : event ≠ .retried) :
    Moves deed (.recorded job event) m .done m
  | prune {job : Job} {event : JobEvent} (m : Memory) (hevent : event ≠ .retried) :
    Moves deed (.recorded job event) m .pruning
      { m with registry := prune_registry config.retained_terminal_jobs m.registry }
  | prune_store {job : Job} {event : JobEvent} (m : Memory) (hevent : event ≠ .retried) :
    Moves deed (.recorded job event) m .pruning m
  | wait (m : Memory) (job : Job) :
    Moves deed (.recorded job .retried) m .done { m with backoff := m.backoff ++ [job] }
  -- queueing again
  | wake {m : Memory} {job : Job} (hwaiting : job ∈ m.backoff)
      (hidle : m.shutdown = true ∨ m.status_of job.id ≠ some .pending) :
    Moves deed .ready m .done { m with backoff := m.backoff.erase job }
  | requeue {m : Memory} {job : Job} (hwaiting : job ∈ m.backoff)
      (hpending : m.status_of job.id = some .pending)
      (hroom : m.queue.length < config.max_queue_size) :
    Moves deed .ready m .done
      { { m with backoff := m.backoff.erase job }.set_job job with queue := m.queue ++ [job] }
  | overflow {m : Memory} {job : Job} (now : Instant) (hwaiting : job ∈ m.backoff)
      (hpending : m.status_of job.id = some .pending)
      (hfull : config.max_queue_size ≤ m.queue.length) :
    Moves deed .ready m (.shown (job.fail now "requeue failed: queue is full") .failed true)
      ({ m with backoff := m.backoff.erase job }.set_job
        (job.fail now "requeue failed: queue is full"))
  -- cancelling and resolving
  | cancel_pending {m : Memory} {found : Job} (now : Instant)
      (hget : get Job.id found.id m.registry = some found)
      (hpending : found.status = .pending) :
    Moves deed .ready m (.recording (found.cancel now) .pending) m
  | cancelled (m : Memory) (job : Job) :
    Moves deed (.acknowledged job .pending) m (.recorded job .cancelled)
      { m.set_job job with queue := m.queue.eraseP (·.id = job.id) }
  | cancel_running {m : Memory} {found : Job} (reason : String)
      (hget : get Job.id found.id m.registry = some found)
      (hrunning : found.status = .running) :
    Moves deed .ready m (.marked (found.require_reconciliation reason) false)
      { m.set_job (found.require_reconciliation reason) with
        in_flight := m.in_flight.erase found.id
        aborted := if found.id ∈ m.in_flight then m.aborted ++ [found.id] else m.aborted }
  | latch {m : Memory} {found : Job} {env : OrderEnv} {actor : PrincipalId}
      {input : JobResolutionRequest} (hdeed : deed = .resolve_job env found.id actor input)
      (hinput : input.validate = .ok ()) (howner : found.owner = some actor)
      (hget : get Job.id found.id m.registry = some found)
      (hstatus : found.status = .reconciliation_required) :
    Moves deed .ready m
      (.recording (resolved_job found
        ⟨found.id, input.decision, input.evidence_sha256, actor, env.now, "operatorAttested"⟩)
        .reconciliation_required)
      (m.set_job { found with resolution_pending := true })
  | resolved (m : Memory) (job : Job) :
    Moves deed (.acknowledged job .reconciliation_required) m (.recorded job .resolved)
      (m.set_job job)
  -- stopping
  | halt {m : Memory} (h : (∃ aborted, deed = .stop_failed aborted) ∧ m.failing = true ∨
      m.shutdown = true) :
    Moves deed .ready m (.aborting m.registry)
      { m with in_flight := [], aborted := m.aborted ++ m.in_flight }
  | skip {job : Job} {jobs : List Job} (m : Memory) (hidle : job.status ≠ .running) :
    Moves deed (.aborting (job :: jobs)) m (.aborting jobs) m
  | abort {job : Job} {jobs : List Job} (m : Memory) (reason : String)
      (hrunning : job.status = .running) :
    Moves deed (.aborting (job :: jobs)) m (.aborted (job.require_reconciliation reason) jobs)
      (m.set_job (job.require_reconciliation reason))
  | halted (m : Memory) (failing : Bool) :
    Moves deed (.aborting []) m .done { m with backoff := [], failing := failing }
  -- opening
  | hydrate {m : Memory} {queue : List Job}
      (hqueue : queue_pending config m.store.index [] = .ok queue) :
    Moves deed .opened m .done { m with registry := m.store.index, queue := queue }
  | give_up (m : Memory) : Moves deed .opened m .unopened m
  -- what else can happen
  | look (m : Memory) (id : JobId) : Moves deed .ready m .done (m.read [id])
  | drop_task (m : Memory) (id : JobId) :
    Moves deed .ready m .done { m with aborted := m.aborted.erase id }
  | shut_down (m : Memory) (h : deed = .request_shutdown) :
    Moves deed .ready m .done { m with shutdown := true }

/-- **Which call is made where**, and where it leads if the store acknowledges it, and if not. -/
inductive Writes : Position → Write → Position → Position → Prop
  | put (env : WriteEnv) (job : Job) : Writes (.submitting job) (.put env job) (.admitted job) .done
  | start (env : WriteEnv) (job : Job) :
    Writes (.starting job) (.update env job .started false) (.started job) (.unstarted job)
  | persist (env : WriteEnv) (job : Job) (event : JobEvent) (exposed : Bool) :
    Writes (.shown job event exposed) (.update env job event (exposed && env.crash))
      (.recorded job event) (.unrecorded job event exposed)
  | reconcile (env : WriteEnv) (job : Job) (vital : Bool) :
    Writes (.marked job vital) (.update env job .recovered vital) .done .done
  | record (env : WriteEnv) (job : Job) (event : JobEvent) (before : JobStatus) :
    Writes (.recording job before) (.update env.locked job event false)
      (.acknowledged job before) .done
  | abort (env : WriteEnv) (job : Job) (jobs : List Job) :
    Writes (.aborted job jobs) (.update env.locked job .recovered false)
      (.aborting jobs) (.aborting jobs)
  | prune (env : PruneEnv) : Writes .pruning (.prune env) .done .done
  | reopen (env : PruneEnv) : Writes .opening (.prune env.unread) .opened .unopened

/-- Where the answer of the store leads. -/
def Position.next (acknowledged failed : Position) : Except StoreError Unit → Position
  | .ok () => acknowledged
  | .error _ => failed

theorem Position.next_of {P : Position → Prop} {acknowledged failed : Position}
    {result : Except StoreError Unit} (hok : result = .ok () → P acknowledged) (hfailed : P failed) :
    P (.next acknowledged failed result) := by
  cases result with
  | ok u => exact hok rfl
  | error error => exact hfailed

variable {deed : Deed} {J : Position → Memory → Prop} {E : Remains → Prop}

variable (C config deed) in
/-- An invariant of a transition, and what it says of a process that dies. -/
structure Keeps (J : Position → Memory → Prop) (E : Remains → Prop) : Prop where
  move : ∀ {t m t' m'}, Moves C config deed t m t' m' → J t m → J t' m'
  write : ∀ {t write acknowledged failed}, Writes t write acknowledged failed → ∀ m, J t m →
    J (Position.next acknowledged failed (write.answer C config m).1) (write.after C config m)
  crash : ∀ {t write acknowledged failed}, Writes t write acknowledged failed →
    write.crash = true → ∀ m, J t m → E (write.after C config m).remains

/-- The property looks at neither the store nor the journal nor the books. -/
structure Framed (P : Memory → Prop) : Prop where
  stored : ∀ m r notes, P m → P (m.stored r notes)
  read : ∀ m readers, P m → P (m.read readers)

theorem write_of_framed {t acknowledged failed : Position} {write : Write} (hm : J t m)
    (hframed : Framed (J t)) (hanswer : ∀ {m}, J t m → J acknowledged m ∧ J failed m) :
    J (Position.next acknowledged failed (write.answer C config m).1)
      (write.after C config m) := by
  have hafter := hanswer (hframed.stored _ (write.answer C config m)
    (write.notes C config (m.read write.readers)) (hframed.read m write.readers hm))
  exact Position.next_of (P := (J · _)) (fun _ => hafter.1) hafter.2

/-! ## The programs keep to it -/

namespace Keeps

variable (h : Keeps C config deed J E)

include h

theorem call {t acknowledged failed : Position} {write : Write}
    (hwrite : Writes t write acknowledged failed) :
    Triple (J t) (write.perform C config) (fun result => J (.next acknowledged failed result)) E :=
  write.perform_triple (h.write hwrite) fun m hm hcrash => h.crash hwrite hcrash m hm

theorem prune_store_done (env : PruneEnv) :
    Triple (J .pruning) (prune_store C config env) (fun _ => J .done) E := by
  refine (h.call (.prune env)).mono (fun _ hm => hm) ?_
  rintro (error | u) m hm <;> exact hm

variable {event : JobEvent}

theorem prune_terminal_done (hevent : event ≠ .retried) (env : PruneEnv) :
    Triple (J (.recorded job event)) (prune_terminal C config env) (fun _ => J .done) E :=
  modify_bind (J .pruning) (fun m hm => h.move (.prune m hevent) hm)
    ((h.prune_store_done env).bind fun _ => keep)

/-- A change that is shown is recorded, or else the job needs reconciliation. -/
theorem persist {persist reconcile : WriteEnv} {exposed : Bool} :
    Triple (J (.shown job event exposed))
      (persist_or_reconcile C persist reconcile job event exposed)
      (fun recorded => J (if recorded then .recorded job event else .done)) E := by
  refine (h.call (.persist persist job event exposed)).bind fun result => ?_
  cases result with
  | ok u => exact Triple.pure _ fun _ hm => hm
  | error error =>
    refine get_bind fun m hm => ?_
    split
    · rename_i hnone
      exact stay (h.move (.vanish hnone) hm)
    rename_i found hget
    generalize event.debug ++ " persistence uncertain: " ++ error.message = reason
    refine change_bind (h.move (.mark reason hget) hm) ?_
    refine (h.call (.reconcile reconcile _ _)).bind fun result => ?_
    cases result <;> exact Triple.pure _ fun _ hm => hm

/-- A submission follows the protocol. -/
theorem submit_done (env : SubmitEnv) (hm : J .ready m) (hfresh : m.fresh C job.id)
    (hprepared : is_prepared job) :
    Triple (· = m) (submit C config env job) (fun _ => J .done) E := by
  refine get_bind ?_
  rintro _ rfl
  split
  · exact stay (h.move (.pass _) hm)
  have hready := h.move (.submit hfresh hprepared) hm
  refine Triple.bind ((h.call (.put env.put job)).pre fun _ hs => hs ▸ hready) fun result => ?_
  cases result with
  | error error => exact Triple.pure _ fun _ hs => hs
  | ok u =>
    refine get_bind fun s hs => ?_
    split
    · rename_i hfull
      exact stay (h.move (.refuse (requeue_eq_error hfull)) hs)
    rename_i queue hqueue
    obtain ⟨rfl, hroom⟩ := requeue_eq_ok hqueue
    exact change_bind (h.move (.enlist hroom) hs) keep

/-- The start of the next job follows the protocol. -/
theorem start_next_done (env : StartEnv) :
    Triple (J .ready) (start_next C config env) (fun _ => J .done) E := by
  refine get_bind fun m hm => ?_
  split
  · exact stay (h.move (.pass m) hm)
  rename_i hpermit
  simp only [Bool.or_eq_true, decide_eq_true_eq, not_or, Nat.not_le] at hpermit
  split
  · exact stay (h.move (.pass m) hm)
  rename_i queued queue hnext
  refine set_bind ?_
  split
  · rename_i hnone
    exact stay (h.move (.discard hnext hnone) hm)
  rename_i job hstart
  refine change_bind (h.move (.take hpermit.2 hnext hstart) hm) ?_
  refine (h.call (.start env.started job)).bind fun result => ?_
  cases result with
  | ok u =>
    exact modify_bind (J .done) (fun s hs => h.move (.launch s job) hs) keep
  | error error =>
    refine modify_bind
      (fun back => ∃ m, J (.unstarted job) m ∧ back = m.set_registered (put_back job)) ?_ ?_
    · exact fun m hm => ⟨m, hm, rfl⟩
    refine get_bind fun back ⟨m, hm, hback⟩ => ?_
    split
    · rename_i hfull
      exact stay (h.move (.lose hback (requeue_eq_error hfull)) hm)
    rename_i queue hqueue
    obtain ⟨rfl, hroom⟩ := requeue_eq_ok hqueue
    exact change_bind (h.move (.put_back hback hroom) hm) keep

/-- The end of a run that is not retried follows the protocol. -/
theorem finish_terminal_done (env : FinishEnv) (hm : J .ready m)
    (hget : get Job.id found.id m.registry = some found) (hrunning : found.status = .running)
    (hjob : Finishes config found job event) (hevent : event ≠ .retried) :
    Triple (· = { m with
        in_flight := m.in_flight.erase found.id, aborted := m.aborted.erase found.id })
      (finish_terminal C config env job event) (fun _ => J .done) E := by
  refine change_bind (h.move (.finish hget hrunning hjob) hm) ?_
  refine h.persist.bind fun recorded => ?_
  cases recorded with
  | true => exact h.prune_terminal_done hevent env.prune
  | false => exact keep

/-- The end of a run follows the protocol: it is terminal, retried, or a job that was settled
meanwhile. -/
theorem finish_job_done (env : FinishEnv) (id : JobId) :
    Triple (J .ready) (finish_job C config env id) (fun _ => J .done) E := by
  refine get_bind fun m hm => ?_
  split
  · exact stay (h.move (.pass m) hm)
  refine set_bind ?_
  split
  · rename_i hnone
    refine stay (h.move (.leave ?_) hm)
    rw [Memory.status_of, hnone]
    rintro ⟨⟩
  rename_i found hget
  obtain rfl : found.id = id := key_of_get hget
  split
  · rename_i hidle
    refine stay (h.move (.leave ?_) hm)
    rw [status_of_get hget]
    exact fun he => hidle (some.inj he)
  rename_i hrunning
  have hrunning := not_not.mp hrunning
  simp only
  split
  · generalize "handler timed out; effect may have occurred" = reason
    have hjob : Finishes config found (found.require_reconciliation reason) .recovered :=
      ⟨rfl, rfl, .inr ⟨by rintro ⟨⟩, rfl, by rintro ⟨⟩⟩⟩
    refine change_bind (h.move (.finish hget hrunning hjob) hm) ?_
    refine h.persist.bind fun recorded => ?_
    cases recorded with
    | true => exact Triple.pure _ fun s hs => h.move (.rest s (by rintro ⟨⟩)) hs
    | false => exact keep
  split
  · exact h.finish_terminal_done env hm hget hrunning
      ⟨rfl, rfl, .inr ⟨by rintro ⟨⟩, rfl, by rintro ⟨⟩⟩⟩ (by rintro ⟨⟩)
  split
  · exact h.finish_terminal_done env hm hget hrunning
      ⟨rfl, rfl, .inr ⟨by rintro ⟨⟩, rfl, by rintro ⟨⟩⟩⟩ (by rintro ⟨⟩)
  rename_i hsafe
  simp only [Bool.or_eq_true, Bool.not_eq_true', not_or, Bool.not_eq_false] at hsafe
  generalize hretry : Job.prepare_retry _ = job
  have hjob : Finishes config found job .retried := by
    rw [← hretry]
    exact ⟨rfl, rfl, .inl ⟨rfl, rfl, hsafe.2⟩⟩
  refine change_bind (h.move (.finish hget hrunning hjob) hm) ?_
  refine h.persist.bind fun recorded => ?_
  cases recorded with
  | true => exact Triple.modify _ fun s hs => h.move (.wait s job) hs
  | false => exact keep

/-- A job that is queued again follows the protocol. -/
theorem requeue_after_backoff_done (env : RequeueEnv) (job : Job) :
    Triple (J .ready) (requeue_after_backoff C config env job) (fun _ => J .done) E := by
  refine get_bind fun m hm => ?_
  split
  · exact stay (h.move (.pass m) hm)
  rename_i hwaiting
  have hwaiting := not_not.mp hwaiting
  refine set_bind ?_
  split
  · rename_i hshutdown
    exact stay (h.move (.wake hwaiting (.inl hshutdown)) hm)
  split
  · rename_i hnone
    refine stay (h.move (.wake hwaiting (.inr ?_)) hm)
    rw [Memory.status_of, hnone]
    rintro ⟨⟩
  rename_i found hget
  split
  · rename_i hidle
    refine stay (h.move (.wake hwaiting (.inr ?_)) hm)
    rw [status_of_get hget]
    exact fun he => hidle (some.inj he)
  rename_i hpending
  have hpending : m.status_of job.id = some .pending := by
    rw [status_of_get hget, not_not.mp hpending]
  split
  · rename_i queue hqueue
    obtain ⟨rfl, hroom⟩ := requeue_eq_ok hqueue
    refine Triple.modify _ ?_
    rintro _ rfl
    exact h.move (.requeue hwaiting hpending hroom) hm
  · rename_i hfull
    refine change_bind
      (h.move (.overflow env.now hwaiting hpending (requeue_eq_error hfull)) hm) ?_
    refine h.persist.bind fun recorded => ?_
    cases recorded with
    | true =>
      refine ((h.prune_store_done env.prune).pre ?_).bind fun _ => keep
      exact fun s hs => h.move (.prune_store s (by rintro ⟨⟩)) hs
    | false => exact keep

/-- A cancellation follows the protocol. -/
theorem cancel_job_done (env : OrderEnv) (id : JobId) :
    Triple (J .ready) (cancel_job C config env id) (fun _ => J .done) E := by
  refine get_bind fun m hm => ?_
  have hpass := h.move (.pass m) hm
  split
  · exact stay hpass
  rename_i found hget
  obtain rfl : found.id = id := key_of_get hget
  split
  · rename_i hpending
    have hready := h.move (.cancel_pending env.now hget hpending) hm
    refine ((h.call (.record env.write _ .cancelled _)).pre fun _ hs => hs ▸ hready).bind
      fun result => ?_
    cases result with
    | error error => exact keep
    | ok u =>
      refine modify_bind (J (.recorded (found.cancel env.now) .cancelled)) ?_ ?_
      · exact fun s hs => h.move (.cancelled s (found.cancel env.now)) hs
      · exact (h.prune_terminal_done (by nofun) env.prune).bind fun _ => keep
  · rename_i hrunning
    generalize "running job cancelled; handler effect may have occurred" = reason
    refine change_bind (h.move (.cancel_running reason hget hrunning) hm) ?_
    refine (h.call (.reconcile env.write.locked _ false)).bind fun result => ?_
    cases result <;> exact keep
  · exact stay hpass
  · exact stay hpass

/-- A resolution follows the protocol. -/
theorem resolve_job_done {env : OrderEnv} {id : JobId} {actor : PrincipalId}
    {input : JobResolutionRequest} (hdeed : deed = .resolve_job env id actor input) :
    Triple (J .ready) (resolve_job C config env id actor input) (fun _ => J .done) E := by
  have hpass : ∀ m, J .ready m → J .done m := fun m hm => h.move (.pass m) hm
  unfold resolve_job
  split
  · exact Triple.pure _ hpass
  rename_i hinput
  refine get_bind fun m hm => ?_
  have hpass := hpass m hm
  split
  · exact stay hpass
  rename_i found hget
  obtain rfl : found.id = id := key_of_get hget
  split
  · exact stay hpass
  rename_i howner
  split
  · exact stay hpass
  split
  · split <;> exact stay hpass
  split
  · exact stay hpass
  rename_i hstatus
  have hready := h.move (.latch hdeed hinput (not_not.mp howner) hget (not_not.mp hstatus)) hm
  simp only
  generalize resolved_job found _ = job at hready ⊢
  refine change_bind hready ?_
  refine (h.call (.record env.write _ .resolved _)).bind fun result => ?_
  cases result with
  | error error => exact keep
  | ok u =>
    refine modify_bind (J (.recorded job .resolved)) ?_ ?_
    · exact fun s hs => h.move (.resolved s job) hs
    · exact (h.prune_terminal_done (by nofun) env.prune).bind fun _ => keep

/-- A shutdown marks the jobs that were running, by induction on those that are left. -/
theorem abort_jobs_done (env : ℕ → WriteEnv) (n : ℕ) (jobs : List Job) :
    Triple (J (.aborting jobs)) (abort_jobs C env n jobs) (fun _ => J (.aborting [])) E := by
  induction jobs generalizing n with
  | nil => exact keep
  | cons job jobs ih =>
    rw [abort_jobs]
    split
    · rename_i hrunning
      generalize "shutdown interrupted handler; effect may have occurred" = reason
      refine modify_bind (J (.aborted (job.require_reconciliation reason) jobs)) ?_ ?_
      · exact fun m hm => h.move (.abort m reason hrunning) hm
      refine (h.call (.abort (env n) _ jobs)).bind fun result => ?_
      cases result <;> exact ih (n + 1)
    · rename_i hidle
      exact (ih (n + 1)).pre fun m hm => h.move (.skip m hidle) hm

theorem halt_done (env : ℕ → WriteEnv) (hm : J .ready m)
    (hhalt : (∃ aborted, deed = .stop_failed aborted) ∧ m.failing = true ∨ m.shutdown = true) :
    Triple (· = m) (abort_all_running C env) (fun _ => J (.aborting [])) E := by
  refine set_bind (get_bind ?_)
  rintro _ rfl
  exact (h.abort_jobs_done env 0 m.registry).pre fun s hs => hs ▸ h.move (.halt hhalt) hm

/-- **A transition makes the moves and the writes of the protocol, and no others.** -/
theorem perform : Triple (J .ready) (perform C config deed) (fun _ => J .done) E := by
  cases deed with
  | submit env job =>
    refine get_bind fun m hm => ?_
    split
    · rename_i hnew
      obtain ⟨hfresh, hprepared⟩ := Bool.and_eq_true_iff.mp hnew
      exact (h.submit_done env hm hfresh hprepared).bind fun _ => keep
    · exact stay (h.move (.pass m) hm)
  | start_next env => exact (h.start_next_done env).bind fun _ => keep
  | finish_job env id => exact h.finish_job_done env id
  | requeue_after_backoff env job => exact h.requeue_after_backoff_done env job
  | cancel_job env id => exact (h.cancel_job_done env id).bind fun _ => keep
  | resolve_job env id actor input =>
    exact (h.resolve_job_done rfl).bind fun _ => keep
  | get_job id => exact Triple.modify _ fun m hm => h.move (.look m id) hm
  | drop_task id => exact Triple.modify _ fun m hm => h.move (.drop_task m id) hm
  | stop_failed aborted =>
    refine get_bind fun m hm => ?_
    split
    · rename_i hfailing
      refine (h.halt_done aborted hm (.inl ⟨⟨aborted, rfl⟩, hfailing⟩)).bind fun _ => ?_
      exact Triple.modify _ fun s hs => h.move (.halted s false) hs
    · exact stay (h.move (.pass m) hm)
  | request_shutdown => exact Triple.modify _ fun m hm => h.move (.shut_down m rfl) hm
  | drain aborted =>
    refine get_bind fun m hm => ?_
    split
    · rename_i hshutdown
      have hshutdown := (Bool.and_eq_true_iff.mp hshutdown).1
      refine (h.halt_done aborted hm (.inr hshutdown)).bind fun _ => ?_
      exact Triple.modify _ fun s hs => h.move (.halted s s.failing) hs
    · exact stay (h.move (.pass m) hm)

/-- What a transition of the scheduler leaves: a process in which the invariant holds, or what is
left of one that died. -/
theorem step {w : World} (hm : J .ready m)
    (hstep : Scheduling.step C config (.up m) (.deed deed) = some w) :
    (∃ m', w = .up { m' with history := m'.observed } ∧ J .done m') ∨
      ∃ left, w = .down left ∧ E left := by
  have htriple : Triple (J .ready)
      (do Scheduling.perform C config deed; observe : Transition Unit)
      (fun _ m => ∃ m', m = { m' with history := m'.observed } ∧ J .done m') E :=
    h.perform.bind fun _ => Triple.modify _ fun m hm => ⟨m, rfl, hm⟩
  have hm := htriple m hm
  unfold Scheduling.step at hstep
  simp only at hstep
  split at hstep
  · rename_i left heq
    rw [heq] at hm
    exact .inr ⟨left, (some.inj hstep).symm, hm⟩
  · rename_i m' heq
    rw [heq] at hm
    obtain ⟨before, rfl, hbefore⟩ := hm
    exact .inl ⟨before, (some.inj hstep).symm, hbefore⟩

theorem hydrate_done (prune : PruneEnv) :
    Triple (J .opening) (hydrate C config prune)
      (fun result => J (if result.isOk then .done else .unopened)) E := by
  refine (h.call (.reopen prune)).bind fun result => ?_
  cases result with
  | error error => exact Triple.pure _ fun _ hm => hm
  | ok u =>
    refine get_bind fun m hm => ?_
    simp only
    split
    · exact stay (h.move (.give_up m) hm)
    rename_i queue hqueue
    exact change_bind (h.move (.hydrate hqueue) hm) (Triple.pure _ fun _ hm => hm)

end Keeps

/-- An invariant beside another. -/
theorem Keeps.beside {K : Position → Memory → Prop} {F : Remains → Prop}
    (h : Keeps C config deed J E)
    (hmove : ∀ {t m t' m'}, Moves C config deed t m t' m' → J t m → K t m → K t' m')
    (hwrite : ∀ {t write acknowledged failed}, Writes t write acknowledged failed → ∀ m, J t m →
      K t m → K (Position.next acknowledged failed (write.answer C config m).1)
        (write.after C config m))
    (hcrash : ∀ {t write acknowledged failed}, Writes t write acknowledged failed →
      write.crash = true → ∀ m, J t m → K t m → F (write.after C config m).remains) :
    Keeps C config deed (fun t m => J t m ∧ K t m) F where
  move hmoves hm := ⟨h.move hmoves hm.1, hmove hmoves hm.1 hm.2⟩
  write hwrites m hm := ⟨h.write hwrites m hm.1, hwrite hwrites m hm.1 hm.2⟩
  crash hwrites hdies m hm := hcrash hwrites hdies m hm.1 hm.2

/-! ## Runs -/

/-- The memory of a process that has opened its store. -/
def Remains.reopened (left : Remains) (C : Codec) (env : JournalJobStore.OpenEnv)
    (store : JournalJobStore) (disk : Disk) : Memory where
  store := store
  disk := disk
  history := left.history
  reports := left.reports
  pruned := left.pruned ++ JournalJobStore.open_prunes C env left.disk
  mishap := left.mishap
  retracted := left.retracted || JournalJobStore.open_loses C env left.disk

/-- What an invariant says of a world. -/
def World.Holds (J : Position → Memory → Prop) (E : Remains → Prop) : World → Prop
  | .up m => J .done m
  | .down left => E left

variable (C config) in
/-- An invariant of a scheduler through its transitions, its end and its restart, in runs whose
happenings all meet a condition. -/
structure Lives (ok : World → Happening → Prop) (J : Position → Memory → Prop)
    (E : Remains → Prop) : Prop where
  deed : ∀ {deed m}, ok (.up m) (.deed deed) → J .done m →
    ∃ K, Keeps C config deed K E ∧ K .ready m ∧ ∀ m, K .done m → J .done m
  observe : ∀ {m}, J .done m → J .done { m with history := m.observed }
  crash : ∀ {m}, J .done m → E m.remains
  failed : ∀ {left env prune error disk}, ok (.down left) (.open_journal env prune) → E left →
    JournalJobStore.open_store C env left.disk = (.error error, disk) →
    E { left with
      disk := disk
      pruned := left.pruned ++ JournalJobStore.open_prunes C env left.disk
      retracted := left.retracted || JournalJobStore.open_loses C env left.disk }
  opened : ∀ {left env prune store disk}, ok (.down left) (.open_journal env prune) → E left →
    JournalJobStore.open_store C env left.disk = (.ok store, disk) →
    J .opening (left.reopened C env store disk)
  unopened : ∀ {m}, J .unopened m → E m.unopened
  keeps : ∃ deed, Keeps C config deed J E

section

variable {ok : World → Happening → Prop} (h : Lives C config ok J E)

include h

/-- A run goes on with the journal that a process left. -/
theorem Lives.open_journal
    {left : Remains} {env : JournalJobStore.OpenEnv} {prune : PruneEnv}
    (hok : ok (.down left) (.open_journal env prune)) (hleft : E left) :
    (open_journal C config env prune left).Holds J E := by
  unfold Scheduling.open_journal
  rcases hopen : JournalJobStore.open_store C env left.disk with ⟨error | store, disk⟩
  · exact h.failed hok hleft hopen
  obtain ⟨deed, hkeeps⟩ := h.keeps
  have hhydrate := hkeeps.hydrate_done prune _ (h.opened hok hleft hopen)
  simp only
  unfold Remains.reopened at hhydrate
  split
  · rename_i remains hr
    rw [hr] at hhydrate
    exact hhydrate
  · rename_i error m hr
    rw [hr] at hhydrate
    exact h.unopened hhydrate
  · rename_i m hr
    rw [hr] at hhydrate
    exact h.observe hhydrate

/-- **What is kept through every transition holds in every run.** -/
theorem Lives.reached (hinit : E {})
    {w : World} (hw : Transition.Reachable (· = .down {}) (step C config) ok w) : w.Holds J E := by
  refine Transition.Reachable.invariant (fun _ hw => hw ▸ hinit) ?_ hw
  intro w happening w' hw hok hstep
  cases w with
  | up m =>
    cases happening with
    | deed deed =>
      obtain ⟨K, hkeeps, hready, hdone⟩ := h.deed hok hw
      rcases hkeeps.step hready hstep with ⟨m', rfl, hm'⟩ | ⟨left, rfl, hleft⟩
      · exact h.observe (hdone m' hm')
      · exact hleft
    | crash =>
      cases hstep
      exact h.crash hw
    | open_journal env prune => nomatch hstep
  | down left =>
    cases happening with
    | deed | crash => nomatch hstep
    | open_journal env prune =>
      cases hstep
      exact h.open_journal hok hw

end

end BobbyBrowser.Scheduling
