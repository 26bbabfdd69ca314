/-
Jobs that are settled stay as they are.

Once a job is terminal or in need of reconciliation, the registry shows it so
until an operator resolves it or retention drops it. In particular a handler that
returns after its job was cancelled changes nothing: the end of a handler looks
for a job that is `Running`, and a settled job never is.
-/
import BobbyBrowser.SchedulerOrder

set_option autoImplicit false

namespace BobbyBrowser.Scheduling

open Jobs Option Keyed

variable {C : Codec} {config : SchedulerConfig} {m : Memory} {job other : Job} {deed : Deed}

/-! ## Settled jobs stay as they are -/

/-- The job is registered as it is. -/
def Shows (job : Job) (m : Memory) : Prop := get Job.id job.id m.registry = some job

/-- The job is registered as it is, or it has ended and retention has dropped it. -/
def Stays (job : Job) (m : Memory) : Prop :=
  Shows job m ∨ (job.status.is_terminal = true ∧ get Job.id job.id m.registry = none)

theorem Shows.set_job (h : Shows job m) (hid : job.id ≠ other.id) :
    Shows job (m.set_job other) := (get_insert_of_ne hid).trans h

theorem Shows.set_registered (h : Shows job m) (hid : job.id ≠ other.id) :
    Shows job (m.set_registered other) := by
  unfold Memory.set_registered
  split
  · exact h.set_job hid
  · exact h

theorem Shows.ne_id {id : JobId} (h : Shows job m)
    (hother : get Job.id id m.registry = some other) (hstatus : job.status ≠ other.status) :
    job.id ≠ id := by
  rintro rfl
  rw [Shows, hother] at h
  exact hstatus (congrArg Job.status (some.inj h).symm)

theorem Shows.prune_registry (h : Shows job m) (hunique : Keyed.Unique Job.id m.registry)
    (retained : ℕ) : Stays job { m with registry := prune_registry retained m.registry } := by
  rcases get_prune_registry hunique retained job.id with hsame | ⟨hnone, found, hfound, hterminal⟩
  · exact .inl (hsame.trans h)
  · rw [h] at hfound
    rw [← some.inj hfound] at hterminal
    exact .inr ⟨hterminal, hnone⟩

/-- The registry shows the job, which is none of those that a transition under way changes. -/
def Showing (job : Job) : Position → Memory → Prop
  | .pruning, m | .done, m => Stays job m
  | .submitting other, m | .admitted other, m | .starting other, m | .started other, m
  | .unstarted other, m | .shown other _ _, m | .unrecorded other _ _, m | .recorded other _, m
  | .recording other _, m | .acknowledged other _, m => Shows job m ∧ job.id ≠ other.id
  | .ready, m | .marked _ _, m | .aborting _, m | .aborted _ _, m => Shows job m
  | .opening, _ | .opened, _ | .unopened, _ => False

theorem framed_showing (t : Position) : Framed (Showing job t) := by
  cases t <;> exact ⟨fun _ _ _ h => h, fun _ _ h => h⟩

theorem Showing.answer {t acknowledged failed : Position} {write : Write}
    (hwrite : Writes t write acknowledged failed) (hm : Showing job t m) :
    Showing job acknowledged m ∧ Showing job failed m := by
  cases hwrite with
  | put | record => exact ⟨hm, .inl hm.1⟩
  | start | persist | abort | prune => exact ⟨hm, hm⟩
  | reconcile env other vital => exact ⟨.inl hm, .inl hm⟩
  | reopen env => nomatch hm

/-- **A handler that returns late changes nothing**: only a job that is `Running` is finished, and
only a resolution changes a settled job. -/
theorem Showing.move {t t' : Position} {m' : Memory} (hm : Showing job t m)
    (hmove : Moves C config deed t m t' m') (hordered : InOrder config t m)
    (hsettled : is_settled job.status)
    (hdeed : ∀ env actor input, deed = .resolve_job env job.id actor input →
      job.status ≠ .reconciliation_required) : Showing job t' m' := by
  obtain ⟨hnotpending, hnotrunning⟩ := is_settled_iff.mp hsettled
  cases hmove with
  | @submit m other hfresh hprepared =>
    refine ⟨hm, fun hid => ?_⟩
    have hregistered := (Memory.fresh_spec hfresh).registry
    rw [← hid, hm] at hregistered
    nomatch hregistered
  | enlist => exact .inl (hm.1.set_job hm.2)
  | refuse | launch | vanish | rest | wait | prune_store => exact .inl hm.1
  | take hpermit hnext hstart =>
    obtain ⟨found, hget, hpending, -⟩ := hordered.starting hnext hstart
    have hid := hm.ne_id hget (hpending ▸ hnotpending)
    exact ⟨Shows.set_registered hm hid, hid⟩
  | put_back hback | lose hback =>
    rw [hback]
    exact .inl (hm.1.set_registered hm.2)
  | finish hget hrunning hjob =>
    have hid := Shows.ne_id hm hget (hrunning ▸ hnotrunning)
    rw [← hjob.id] at hid
    exact ⟨Shows.set_job hm hid, hid⟩
  | mark reason hget =>
    refine hm.1.set_job ?_
    rw [Job.require_reconciliation_id, key_of_get hget]
    exact hm.2
  | prune => exact hm.1.prune_registry hordered.1.unique _
  | requeue hwaiting hpending hroom =>
    obtain ⟨found, hget, hstatus⟩ := map_eq_some_iff.mp hpending
    exact .inl (Shows.set_job hm (hm.ne_id hget (hstatus ▸ hnotpending)))
  | overflow now hwaiting hpending hfull =>
    obtain ⟨found, hget, hstatus⟩ := map_eq_some_iff.mp hpending
    have hid := Shows.ne_id hm hget (hstatus ▸ hnotpending)
    exact ⟨Shows.set_job hm hid, hid⟩
  | cancel_pending now hget hpending => exact ⟨hm, Shows.ne_id hm hget (hpending ▸ hnotpending)⟩
  | cancelled | resolved => exact ⟨hm.1.set_job hm.2, hm.2⟩
  | cancel_running reason hget hrunning =>
    exact Shows.set_job hm (hm.ne_id hget (hrunning ▸ hnotrunning))
  | @latch m found env actor input hresolve hinput howner hget hstatus =>
    have hid : job.id ≠ found.id := by
      intro he
      have hshows := hm
      rw [Showing, Shows, he, hget] at hshows
      obtain rfl := some.inj hshows
      exact hdeed env actor input hresolve hstatus
    exact ⟨Shows.set_job hm hid, hid⟩
  | abort m reason hrunning =>
    have hget := hordered.listed _ List.mem_cons_self
    exact Shows.set_job hm (hm.ne_id hget (hrunning ▸ hnotrunning))
  | halt | skip => exact hm
  | pass | discard | leave | wake | halted | look | drop_task | shut_down => exact .inl hm
  | hydrate | give_up => nomatch hm

theorem keeps_showing (hsettled : is_settled job.status)
    (hdeed : ∀ env actor input, deed = .resolve_job env job.id actor input →
      job.status ≠ .reconciliation_required) :
    Keeps C config deed (fun t m => InOrder config t m ∧ Showing job t m) fun _ => True :=
  (keeps_order deed).beside (fun hmove ho hm => hm.move hmove ho hsettled hdeed)
    (fun hwrite _ _ hm => write_of_framed hm (framed_showing _) (Showing.answer hwrite))
    fun _ _ _ _ _ => True.intro

/-! ## The order of a run -/

/-- **The order of the scheduler.** In every state that a run reaches: the queue has distinct jobs,
all of them registered as `Pending`; a `Running` job has exactly one task in flight and no place in
the queue; no more permits are held than there are, and there is at least one; and whatever happens
next, the end of a handler included, a job that was cancelled, resolved or otherwise settled is
left as it is until it is resolved or retention drops it. -/
theorem scheduler_in_order (h : Reached C config (.up m)) :
    (m.queue.map Job.id).Nodup ∧
    (∀ job ∈ m.queue, m.status_of job.id = some .pending) ∧
    (∀ id, m.status_of id = some .running → m.in_flight.count id = 1 ∧ id ∉ m.queue.map Job.id) ∧
    m.in_flight.length + m.aborted.length ≤ max config.max_concurrent_jobs 1 ∧
    ∀ job deed m', get Job.id job.id m.registry = some job →
      is_settled job.status = true →
      (∀ env actor input, deed = .resolve_job env job.id actor input →
        job.status ≠ .reconciliation_required) →
      step C config (.up m) (.deed deed) = some (.up m') →
      get Job.id job.id m'.registry = some job ∨
        (job.status.is_terminal = true ∧ get Job.id job.id m'.registry = none) := by
  have hm : Ordered config m := h.ordered
  refine ⟨hm.queue_nodup, hm.queued, ?_, hm.permits, ?_⟩
  · intro id hrunning
    refine ⟨List.count_eq_one_of_mem hm.in_flight_nodup ((hm.running id).mpr hrunning), ?_⟩
    exact hm.notMem_queue hrunning nofun
  intro job deed m' hshows hsettled hdeed hstep
  rcases (keeps_showing hsettled hdeed).step ⟨hm, hshows⟩ hstep with
    ⟨after, hafter, -, hstays⟩ | ⟨left, hleft, -⟩
  · obtain rfl := World.up.inj hafter
    exact hstays
  · nomatch hleft

/-- A scheduler whose one handler is safe to retry. -/
def retrying : SchedulerConfig where
  max_concurrent_jobs := 1
  max_queue_size := 8
  max_output_bytes := 8
  retained_terminal_jobs := 8
  handlers name := if name = "fetch" then some true else none

/-- A journal is opened, and a job is submitted and started. -/
def one_started : List Happening :=
  [.open_journal {} {}, .deed (.submit {} { id := 1, name := "fetch", created_at := 0 }),
    .deed (.start_next { now := 1 })]

/-- The state after some happenings, from no journal at all. -/
def up_after (config : SchedulerConfig) (happenings : List Happening) : Option Memory :=
  match Transition.run (step wire_codec config) (.down {}) happenings with
  | some (.up m) => some m
  | _ => none

variable {happenings : List Happening}

theorem run_of_up_after (h : up_after config happenings = some m) :
    Transition.run (step wire_codec config) (.down {}) happenings = some (.up m) := by
  unfold up_after at h
  split at h
  · rename_i m' hrun
    rw [hrun, some.inj h]
  · nomatch h

/-- A process is up, with a memory for which `P` holds. -/
def World.is_up (P : Memory → Bool) : World → Bool
  | .up m => P m
  | .down _ => false

theorem up_of_any {next : Option World} {P : Memory → Bool} (h : next.any (World.is_up P)) :
    ∃ m, next = some (.up m) ∧ P m = true := by
  rcases next with _ | m | left
  · nomatch h
  · exact ⟨m, rfl, h⟩
  · nomatch h

theorem exists_up {ok : World → Happening → Prop} {P : Memory → Prop} (happenings : List Happening)
    (hok : ∀ happening ∈ happenings, ∀ w, ok w happening)
    (h : ∃ m ∈ up_after config happenings, P m) :
    ∃ m, Transition.Reachable (· = .down {}) (step wire_codec config) ok (.up m) ∧ P m := by
  obtain ⟨m, hm, hP⟩ := h
  exact ⟨m, Transition.reachable_of_run (.start rfl) hok (run_of_up_after hm), hP⟩

/-- **With no jobs allowed at once, one runs.** -/
theorem one_handler_in_flight :
    ∃ config m, Reached wire_codec config (.up m) ∧ config.max_concurrent_jobs = 0 ∧
      m.in_flight = [1] := by
  obtain ⟨m, hreached, hflight⟩ : ∃ m, Reached wire_codec
      { retrying with max_concurrent_jobs := 0 } (.up m) ∧ m.in_flight = [1] := by
    refine exists_up one_started (fun _ _ _ => trivial) ?_
    decide +kernel
  exact ⟨_, m, hreached, rfl, hflight⟩

/-- A job is cancelled while its handler runs, and the handler still returns. -/
theorem late_handler_changes_nothing :
    ∃ m m', Reached wire_codec retrying (.up m) ∧ m.aborted = [1] ∧
      step wire_codec retrying (.up m)
        (.deed (.finish_job { now := 3, outcome := .ok 0 } 1)) = some (.up m') ∧
      m'.aborted = [] ∧ m'.status_of 1 = some .reconciliation_required := by
  let cancelled := one_started ++ [.deed (.cancel_job { now := 2 } 1)]
  let job : Job :=
    { id := 1, name := "fetch", created_at := 0, started_at := some 1
      status := .reconciliation_required
      error := some "running job cancelled; handler effect may have occurred" }
  obtain ⟨m, hreached, haborted, hget, hnext⟩ : ∃ m, Reached wire_codec retrying (.up m) ∧
      m.aborted = [1] ∧ get Job.id 1 m.registry = some job ∧
      (step wire_codec retrying (.up m)
        (.deed (.finish_job { now := 3, outcome := .ok 0 } 1))).any
          (World.is_up fun m => m.aborted = []) = true := by
    refine exists_up cancelled (fun _ _ _ => trivial) ?_
    decide +kernel
  obtain ⟨m', hstep, hended⟩ := up_of_any hnext
  refine ⟨m, m', hreached, haborted, hstep, of_decide_eq_true hended, ?_⟩
  have hstays := (scheduler_in_order hreached).2.2.2.2 job
    (.finish_job { now := 3, outcome := .ok 0 } 1) m' hget rfl
  rcases hstays (fun _ _ _ h => nomatch h) hstep with hsame | ⟨hterminal, -⟩
  · exact status_of_get hsame
  · nomatch hterminal

/-- **A job is in one place.** Whatever has happened, the jobs that are queued, that wait for their
retry and that run are all different, and the queue is not longer than it may be. -/
theorem jobs_in_one_place (C : Codec) (config : SchedulerConfig) (happenings : List Happening) :
    match Transition.run (step C config) (.down {}) happenings with
    | some (.up m) => (m.queue.map Job.id ++ m.backoff.map Job.id ++ m.in_flight).Nodup ∧
        m.queue.length ≤ config.max_queue_size
    | _ => True := by
  split
  · rename_i m hrun
    have hm := (reached_of_run hrun).ordered
    refine ⟨List.nodup_append'.mpr ⟨List.nodup_append'.mpr
      ⟨hm.queue_nodup, hm.backoff_nodup, ?_⟩, hm.in_flight_nodup, ?_⟩, hm.queue_length⟩
    · intro id hqueue hbackoff
      obtain ⟨job, hjob, rfl⟩ := List.mem_map.mp hbackoff
      exact (hm.waiting job hjob).2.1 hqueue
    · intro id hplaced hflight
      have hrunning := (hm.running id).mp hflight
      rcases List.mem_append.mp hplaced with hqueue | hbackoff
      · exact hm.notMem_queue hrunning nofun hqueue
      · obtain ⟨job, hjob, rfl⟩ := List.mem_map.mp hbackoff
        exact (hm.waiting job hjob).2.2 hrunning
  · trivial

end BobbyBrowser.Scheduling
