/-
Where a `Pending` job waits.

A job that the registry shows as `Pending` is in the queue, or a task of the run
loop waits to queue it again. The tasks live in the run loop: when the loop
returns because a start could not be recorded, they are dropped, and a job that
one of them was waiting for stays `Pending` in the registry and has no place.
-/
import BobbyBrowser.SchedulerSettled

set_option autoImplicit false

namespace BobbyBrowser.Scheduling

open Jobs List Option Keyed

variable {C : Codec} {config : SchedulerConfig} {m : Memory} {deed : Deed} {apart : Option JobId}
  {id : JobId} {job : Job}

/-- Every `Pending` job has a place, but for the one that a transition has in hand. -/
def Placed (apart : Option JobId) (m : Memory) : Prop :=
  ∀ id, m.status_of id = some .pending →
    apart = some id ∨ id ∈ m.queue.map Job.id ∨ id ∈ m.backoff.map Job.id

theorem Placed.set_job (h : Placed apart m) (hapart : ∀ id, apart = some id → id = job.id) :
    Placed (some job.id) (m.set_job job) := by
  intro id hpending
  by_cases hid : id = job.id
  · exact .inl (congrArg some hid.symm)
  · rw [status_of_set_job_of_ne hid] at hpending
    exact .inr ((h id hpending).resolve_left fun he => hid (hapart id he))

/-- What the transition has in hand is put in its place, or is not `Pending`. -/
theorem Placed.settle (h : Placed (some id) m) (hid : m.status_of id = some .pending →
    id ∈ m.queue.map Job.id ∨ id ∈ m.backoff.map Job.id) : Placed none m := by
  intro other hpending
  rcases h other hpending with he | hplace
  · obtain rfl := some.inj he
    exact .inr (hid hpending)
  · exact .inr hplace

theorem Placed.set_idle (h : Placed apart m) (hapart : ∀ id, apart = some id → id = job.id)
    (hidle : job.status ≠ .pending) : Placed none (m.set_job job) := by
  refine (h.set_job hapart).settle fun hpending => ?_
  rw [status_of_set_job_self] at hpending
  exact absurd (some.inj hpending) hidle

/-- The job that is taken from the queue is the only one that loses its place. -/
theorem Placed.next_job (h : Placed none m) {queued : Job} {rest : List Job}
    (hnext : next_job m.queue = some (queued, rest)) :
    Placed (some queued.id) { m with queue := rest } := by
  obtain ⟨before, after, hqueue, rfl⟩ := next_job_spec hnext
  intro id hpending
  rcases h id hpending with he | hplace | hplace
  · nomatch he
  · rw [hqueue, map_append, map_cons, mem_append, mem_cons] at hplace
    rw [map_append, mem_append]
    rcases hplace with hbefore | rfl | hafter
    · exact .inr (.inl (.inl hbefore))
    · exact .inl rfl
    · exact .inr (.inl (.inr hafter))
  · exact .inr (.inr hplace)

theorem Placed.wake (h : Placed none m) (job : Job) :
    Placed (some job.id) { m with backoff := m.backoff.erase job } := by
  intro id hpending
  rcases h id hpending with he | hplace | hplace
  · nomatch he
  · exact .inr (.inl hplace)
  · obtain ⟨waiting, hwaiting, rfl⟩ := mem_map.mp hplace
    by_cases hjob : waiting = job
    · exact .inl (congrArg (some ·.id) hjob.symm)
    · exact .inr (.inr (mem_map_of_mem ((mem_erase_of_ne hjob).mpr hwaiting)))

theorem Placed.enqueue (h : Placed (some job.id) m) :
    Placed none { m with queue := m.queue ++ [job] } := by
  intro id hpending
  rw [map_append, mem_append, map_singleton, mem_singleton]
  rcases h id hpending with he | hplace | hplace
  · exact .inr (.inl (.inr (some.inj he).symm))
  · exact .inr (.inl (.inl hplace))
  · exact .inr (.inr hplace)

theorem Placed.wait (h : Placed (some job.id) m) :
    Placed none { m with backoff := m.backoff ++ [job] } := by
  intro id hpending
  rw [map_append, mem_append, map_singleton, mem_singleton]
  rcases h id hpending with he | hplace | hplace
  · exact .inr (.inr (.inr (some.inj he).symm))
  · exact .inr (.inl hplace)
  · exact .inr (.inr (.inl hplace))

theorem starting_id {now : Ledger.Instant} {queued : Job} (h : starting now m queued = some job) :
    job.id = queued.id := by
  rw [starting] at h
  split at h
  · rename_i registered hget
    split at h
    · cases h
    · have hid : registered.id = queued.id := key_of_get hget
      rw [← some.inj h]
      exact hid
  · rw [← some.inj h]
    rfl

/-- A journal's `Pending` jobs are queued when it is opened. -/
theorem placed_of_opened {queue : List Job}
    (hqueue : queue_pending config m.store.index [] = .ok queue) :
    Placed none { m with registry := m.store.index, queue := queue } := by
  obtain ⟨rfl, -⟩ := queue_pending_eq_ok hqueue
  intro id hpending
  obtain ⟨job, hget, hstatus⟩ := map_eq_some_iff.mp hpending
  refine .inr (.inl (mem_map.mpr ⟨job, ?_, key_of_get hget⟩))
  exact mem_filter.mpr ⟨mem_of_get hget, decide_eq_true hstatus⟩

/-- The places in a transition that is under way. The run loop drops its tasks when it stops. -/
def PlacedAt (deed : Deed) : Position → Memory → Prop
  | .ready, m => Placed none m ∧ ((∃ aborted, deed = .stop_failed aborted) → m.failing = true →
    ∀ job ∈ m.backoff, m.status_of job.id ≠ some .pending)
  | .starting job, m | .started job, m | .unstarted job, m => Placed (some job.id) m
  | .shown job event _, m | .unrecorded job event _, m | .recorded job event, m =>
    Placed (some job.id) m ∧ (event ≠ .retried → m.status_of job.id ≠ some .pending)
  | .aborting _, m | .aborted _ _, m =>
    ∀ id, m.status_of id = some .pending → id ∈ m.queue.map Job.id
  | _, m => Placed none m

/-- **Every move of a transition** leaves each pending job its place; by cases on the move. -/
theorem PlacedAt.move {t t' : Position} {m' : Memory} (hm : PlacedAt deed t m)
    (hmove : Moves C config deed t m t' m') (hordered : InOrder config t m)
    (hshutdown : m.shutdown = false) : PlacedAt deed t' m' := by
  cases hmove with
  | pass | submit | leave | cancel_pending | drop_task | look | shut_down => exact hm.1
  | enlist => exact (hm.set_job (by simp)).enqueue
  | refuse | skip | give_up => exact hm
  | @take m queued job queue now hpermit hnext hstart =>
    obtain ⟨found, hget, -⟩ := hordered.starting hnext hstart
    have hregistered : get Job.id job.id { m with queue := queue }.registry = some found := hget
    have hid := starting_id hstart
    rw [set_registered_eq hregistered]
    exact (hm.1.next_job hnext).set_job fun id he => (some.inj he).symm.trans hid.symm
  | discard hnext hnone => exact absurd hnone (hordered.starting_ne_none _ hnext)
  | launch m job =>
    refine hm.settle fun hpending => ?_
    rw [hordered.started] at hpending
    cases hpending
  | @put_back m back job hback hroom =>
    rw [hback, hordered.put_back.1]
    have hset : Placed (some (put_back job).id) (m.set_job (put_back job)) :=
      hm.set_job fun id he => (some.inj he).symm
    exact hset.enqueue
  | lose hback hfull =>
    rw [hback, hordered.put_back.1] at hfull
    exact absurd hordered.room (Nat.not_lt.mpr hfull)
  | @finish m found job event hget hrunning hjob =>
    refine ⟨hm.1.set_job (by simp), fun hevent => ?_⟩
    rw [status_of_set_job_self]
    rcases hjob.status with ⟨he, -⟩ | ⟨-, hsettled, -⟩
    · exact absurd he hevent
    · exact fun hpending => (is_settled_iff.mp hsettled).1 (some.inj hpending)
  | mark reason hget =>
    exact hm.1.set_idle (fun id he => (some.inj he).symm.trans (key_of_get hget).symm)
      (by rintro ⟨⟩)
  | vanish hnone =>
    refine hm.1.settle fun hpending => ?_
    rw [Memory.status_of, hnone] at hpending
    cases hpending
  | rest m hevent | prune_store m hevent =>
    exact hm.1.settle fun hpending => absurd hpending (hm.2 hevent)
  | prune m hevent =>
    intro id hpending
    rw [status_of_pruned hordered.1.unique _ id rfl] at hpending
    exact hm.1.settle (fun hpending => absurd hpending (hm.2 hevent)) id hpending
  | wait => exact hm.1.wait
  | @wake m job hwaiting hidle =>
    refine (hm.1.wake job).settle fun hpending => ?_
    rcases hidle with hstopped | hidle
    · rw [hshutdown] at hstopped
      cases hstopped
    · exact absurd hpending hidle
  | @requeue m job hwaiting hpending hroom =>
    exact ((hm.1.wake job).set_job fun id he => (some.inj he).symm).enqueue
  | @overflow m job now hwaiting hpending hfull =>
    refine ⟨(hm.1.wake job).set_job fun id he => (some.inj he).symm, fun _ => ?_⟩
    rw [status_of_set_job_self]
    rintro ⟨⟩
  | cancelled m job =>
    have hset : Placed (some job.id) (m.set_job job) := hm.set_job (by simp)
    refine ⟨fun id hpending => ?_, fun _ hpending => ?_⟩
    · rcases hset id hpending with he | hplace | hplace
      · exact .inl he
      · obtain ⟨queued, hqueued, rfl⟩ := mem_map.mp hplace
        by_cases hid : queued.id = job.id
        · exact .inl (congrArg some hid.symm)
        · refine .inr (.inl (mem_map_of_mem ?_))
          exact (mem_eraseP_of_neg (by simpa using hid)).mpr hqueued
      · exact .inr (.inr hplace)
    · have hstatus := (status_of_set_job_self m job).symm.trans hpending
      exact (is_settled_iff.mp hordered.2.2).1 (some.inj hstatus)
  | cancel_running => exact hm.1.set_idle (by simp) (by rintro ⟨⟩)
  | latch hdeed hinput howner hget hstatus =>
    exact hm.1.set_idle (by simp) (hstatus ▸ by rintro ⟨⟩)
  | resolved m job =>
    refine ⟨hm.set_job (by simp), fun _ hpending => ?_⟩
    rw [status_of_set_job_self] at hpending
    exact (is_settled_iff.mp hordered.2.2).1 (some.inj hpending)
  | halt hstops =>
    intro id hpending
    rcases hstops with ⟨hdeed, hfailing⟩ | hstopped
    · rcases hm.1 id hpending with he | hplace | hplace
      · cases he
      · exact hplace
      · obtain ⟨waiting, hwaiting, rfl⟩ := mem_map.mp hplace
        exact absurd hpending (hm.2 hdeed hfailing waiting hwaiting)
    · rw [hshutdown] at hstopped
      cases hstopped
  | @abort job jobs m reason hrunning =>
    intro id hpending
    by_cases hid : id = (job.require_reconciliation reason).id
    · rw [hid, status_of_set_job_self] at hpending
      cases hpending
    · rw [status_of_set_job_of_ne hid] at hpending
      exact hm id hpending
  | halted => exact fun id hpending => .inr (.inl (hm id hpending))
  | hydrate hqueue => exact placed_of_opened hqueue

/-! ## Runs -/

/-- Nobody asks for a shutdown. -/
def Unstopped : Happening → Prop
  | .deed .request_shutdown => False
  | _ => True

/-- When the run loop returns after a start that could not be recorded, no job is `Pending` that
waits to be queued again. -/
def Spares : World → Happening → Prop
  | .up m, .deed (.stop_failed _) =>
    m.failing = true → ∀ job ∈ m.backoff, m.status_of job.id ≠ some .pending
  | _, _ => True

theorem shutdown_set_registered : (m.set_registered job).shutdown = m.shutdown := by
  unfold Memory.set_registered
  split <;> rfl

theorem Moves.shutdown {t t' : Position} {m' : Memory} (hmove : Moves C config deed t m t' m')
    (hdeed : Unstopped (.deed deed)) : m'.shutdown = m.shutdown := by
  cases hmove with
  | take => exact shutdown_set_registered
  | put_back hback | lose hback =>
    rw [hback]
    exact shutdown_set_registered
  | shut_down m h =>
    subst h
    exact hdeed.elim
  | _ => rfl

theorem keeps_placed (hdeed : Unstopped (.deed deed)) :
    Keeps C config deed
      (fun t m => InOrder config t m ∧ m.shutdown = false ∧ PlacedAt deed t m) fun _ => True := by
  refine (keeps_order deed).beside
    (fun hmove ho hm => ⟨(hmove.shutdown hdeed).trans hm.1, hm.2.move hmove ho hm.1⟩)
    (fun hwrite _ _ hm => ?_) fun _ _ _ _ _ => True.intro
  -- the places have nothing to do with the store
  refine write_of_framed (J := fun t m => m.shutdown = false ∧ PlacedAt deed t m) hm ?_ ?_
  · cases hwrite <;> exact ⟨fun _ _ _ h => h, fun _ _ h => h⟩
  · cases hwrite <;> exact fun hm => ⟨hm, hm⟩

/-- Pending jobs have a place in every run that spares the waiting ones and is not shut down. -/
theorem lives_placed :
    Lives C config (fun w happening => Unstopped happening ∧ Spares w happening)
      (fun t m => InOrder config t m ∧ m.shutdown = false ∧ PlacedAt (.get_job 0) t m)
      fun _ => True where
  deed {deed m} hok hm := by
    refine ⟨_, keeps_placed hok.1, ⟨hm.1, hm.2.1, hm.2.2, ?_⟩, fun _ hm => hm⟩
    rintro ⟨aborted, rfl⟩
    exact hok.2
  observe hm := ⟨{ hm.1 with }, hm.2⟩
  crash _ := True.intro
  failed _ _ _ := True.intro
  opened _ _ hopen := ⟨blank_reopened hopen, rfl, fun _ h => nomatch h⟩
  unopened _ := True.intro
  keeps := ⟨_, keeps_placed True.intro⟩

/-- **No job is stranded**, in a run without a shutdown request in which no job that waits to be
queued again is `Pending` when the run loop returns after a start that could not be recorded: every
registered `Pending` job is in the queue, or a task waits to put it there. -/
theorem pending_jobs_have_a_place (h : Transition.Reachable (· = .down {}) (step C config)
      (fun w happening => Unstopped happening ∧ Spares w happening) (.up m)) :
    ∀ id, m.status_of id = some .pending → id ∈ m.queue.map Job.id ∨ id ∈ m.backoff.map Job.id := by
  have hplaced := (lives_placed.reached True.intro h).2.2
  exact fun id hpending => (hplaced id hpending).resolve_left nofun

/-- A `Started` record that cannot be written. -/
def unwritten : WriteEnv := { write := some (0, ⟨.other, "no space left on device"⟩) }

/-- The handler of a first job fails, and the job waits to be queued again; the start of a second
job cannot be recorded, and the run loop returns and is started again. -/
def loop_restarted : List Happening :=
  one_started ++ [.deed (.finish_job { now := 2, outcome := .error "reset" } 1),
    .deed (.submit {} { id := 2, name := "fetch", created_at := 2 }),
    .deed (.start_next { now := 3, started := unwritten }),
    .deed (.stop_failed fun _ => {}), .deed (.start_next { now := 4 })]

/-- **The first job is stranded.** -/
theorem retry_stranded :
    ∃ m, Transition.Reachable (· = .down {}) (step wire_codec retrying)
        (fun _ happening => Unstopped happening) (.up m) ∧
      m.status_of 1 = some .pending ∧ m.queue = [] ∧ m.backoff = [] ∧ m.in_flight = [2] := by
  refine exists_up loop_restarted ?_ ?_
  · simp [loop_restarted, one_started, Unstopped]
  · decide +kernel

/-- A job whose start could not be recorded is back in the queue when the run loop has returned. -/
theorem unrecorded_start_requeued :
    ∃ m, Transition.Reachable (· = .down {}) (step wire_codec retrying)
        (fun w happening => Unstopped happening ∧ Spares w happening) (.up m) ∧
      m.status_of 1 = some .pending ∧ m.failing = false ∧
      (1 ∈ m.queue.map Job.id ∨ 1 ∈ m.backoff.map Job.id) := by
  let refused : List Happening := [.open_journal {} {},
    .deed (.submit {} { id := 1, name := "fetch", created_at := 0 }),
    .deed (.start_next { now := 1, started := unwritten })]
  obtain ⟨m, hup, hbackoff, hnext⟩ : ∃ m, Transition.Reachable (· = .down {})
      (step wire_codec retrying) (fun w happening => Unstopped happening ∧ Spares w happening)
      (.up m) ∧ m.backoff = [] ∧
      (step wire_codec retrying (.up m) (.deed (.stop_failed fun _ => {}))).any
        (World.is_up fun m => m.status_of 1 = some .pending ∧ m.failing = false) = true := by
    refine exists_up refused ?_ ?_
    · simp [refused, Unstopped, Spares]
    · decide +kernel
  obtain ⟨m', hstep, hfacts⟩ := up_of_any hnext
  obtain ⟨hpending, hfailing⟩ := of_decide_eq_true hfacts
  have hreached := hup.next (a := Happening.deed (.stop_failed fun _ => {}))
    ⟨True.intro, by rw [Spares, hbackoff]; exact fun _ => forall_mem_nil _⟩ hstep
  exact ⟨m', hreached, hpending, hfailing, pending_jobs_have_a_place hreached 1 hpending⟩

end BobbyBrowser.Scheduling
