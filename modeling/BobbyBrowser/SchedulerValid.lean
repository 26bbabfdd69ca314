/-
Jobs that would be read back.

A journal believes a record only if its job has a receipt exactly when it is
`Resolved`, and the receipt is one for this job. Every job that the scheduler
registers, lets wait or records is of this kind, and so is every job in the index
of its store, whatever the file system does and whatever the journal held when it
was opened.
-/
import BobbyBrowser.SchedulerOrder

set_option autoImplicit false

namespace BobbyBrowser.Scheduling

open Jobs JournalJobStore List Option Keyed

variable {C : Codec} {config : SchedulerConfig} {m : Memory} {job : Job}

/-! ## Jobs without a receipt -/

theorem resolution_eq_none (h : job.has_valid_resolution)
    (hstatus : job.status ≠ .resolved) : job.resolution = none := by
  rw [Job.has_valid_resolution] at h
  cases hresolution : job.resolution with
  | none => rfl
  | some receipt =>
    rw [hresolution] at h
    simp only [Bool.and_eq_true, decide_eq_true_eq] at h
    exact absurd h.1.1.1.1.1.2 hstatus

theorem valid_of_resolution_eq_none (h : job.resolution = none)
    (hstatus : job.status ≠ .resolved) : job.has_valid_resolution = true := by
  rw [Job.has_valid_resolution, h]
  exact decide_eq_true hstatus

/-- A job that was not `Resolved` and is not has no receipt before and after. -/
theorem valid_of_unresolved {found : Job} (hvalid : found.has_valid_resolution)
    (hfound : found.status ≠ .resolved) (hresolution : job.resolution = found.resolution)
    (hstatus : job.status ≠ .resolved) : job.has_valid_resolution = true :=
  valid_of_resolution_eq_none (hresolution.trans (resolution_eq_none hvalid hfound)) hstatus

/-- A resolution that passes its checks is valid for the job of its owner. -/
theorem valid_resolved_job {actor : Ledger.PrincipalId} {input : JobResolutionRequest}
    {now : Ledger.Instant} (hinput : input.validate = .ok ()) (howner : job.owner = some actor) :
    (resolved_job job ⟨job.id, input.decision, input.evidence_sha256, actor, now,
      "operatorAttested"⟩).has_valid_resolution = true := by
  have hreceipt : (⟨job.id, input.decision, input.evidence_sha256, actor, now,
      "operatorAttested"⟩ : JobResolutionReceipt).validate = .ok () := by
    unfold JobResolutionReceipt.validate
    rw [show JobResolutionRequest.mk input.decision input.evidence_sha256 = input from rfl, hinput]
    rfl
  unfold Job.has_valid_resolution resolved_job
  simp only [hreceipt, howner]
  simp [Except.isOk, Except.toBool]

/-! ## Damage -/

variable {disk : Disk}

theorem intact_of_not_damaged (h : journal_damaged C disk = false) : Intact C (disk.getD []) := by
  obtain ⟨scan, hscan⟩ := scan_path_ok (C := C) disk
  rw [journal_damaged, hscan] at h
  exact (damaged_scan hscan).mp h

theorem intact_of_kept {env : CompactEnv}
    (hkeeps : (!env.renames && journal_damaged C m.disk) = false) (hrenames : env.renames = false) :
    Intact C (m.disk.getD []) := by
  rw [hrenames, Bool.not_false, Bool.true_and] at hkeeps
  exact intact_of_not_damaged hkeeps

/-! ## The invariant -/

/-- Every job that the process knows would be read back. -/
structure Valid (m : Memory) : Prop where
  index : Readable m.store.index
  registry : Readable m.registry
  waiting : ∀ job ∈ m.backoff, job.has_valid_resolution = true

theorem Valid.set_job (h : Valid m) (hjob : job.has_valid_resolution) : Valid (m.set_job job) :=
  { h with registry := h.registry.insert hjob }

theorem Valid.set_registered (h : Valid m) (hjob : job.has_valid_resolution) :
    Valid (m.set_registered job) := by
  unfold Memory.set_registered
  split
  · exact h.set_job hjob
  · exact h

/-- The job that a call records. -/
def Write.job? : Write → Option Job
  | .put _ job | .update _ job _ _ => some job
  | .prune _ => none

variable {store : JournalJobStore}

theorem readable_append (env : AppendEnv) (event : JobEvent)
    (hindex : Readable store.index) (hjob : job.has_valid_resolution) :
    Readable (store.append C env event job disk).2.1.index := by
  rcases append_cases C env event job store disk with
    heq | ⟨-, written, e, heq⟩ | ⟨-, next, heq⟩ <;> rw [heq]
  · exact hindex
  · exact hindex
  · rw [compact_if_due_index]
    exact hindex.insert hjob

/-- **What a call to the store leaves in the index.** -/
theorem Valid.write (h : Valid m) {write : Write}
    (hjob : ∀ job ∈ write.job?, job.has_valid_resolution = true) :
    Valid (write.after C config m) := by
  have hafter : Readable (write.answer C config m).2.1.index := by
    cases write with
    | put env job | update env job event vital =>
      exact readable_append _ _ h.index (hjob job rfl)
    | prune env =>
      rcases prune_terminal_cases C env.toCompactEnv config.retained_terminal_jobs m.store
        m.disk with ⟨-, heq⟩ | ⟨e, store', hindex, heq⟩ | ⟨scan, store', hscan, hindex, heq⟩ <;>
        rw [Write.answer, heq]
      · exact h.index
      · exact hindex ▸ h.index
      · exact hindex ▸ readable_scan hscan
  exact ⟨hafter, h.registry, h.waiting⟩

/-! ## A transition -/

/-- The job that a transition under way is about. -/
def Position.job? : Position → Option Job
  | .submitting job | .admitted job | .starting job | .started job | .unstarted job
  | .shown job _ _ | .recorded job _ | .unrecorded job _ _ | .marked job _ | .recording job _
  | .acknowledged job _ | .aborted job _ => some job
  | _ => none

/-- What a failed record takes back is not `Resolved`. -/
def Position.Unresolved (m : Memory) : Position → Prop
  | .starting job | .unstarted job => job.status = .running
  | .shown job _ _ | .unrecorded job _ _ => m.status_of job.id ≠ some .resolved
  | _ => True

/-- The invariant in a transition that is under way. -/
structure ValidAt (t : Position) (m : Memory) : Prop extends Valid m where
  job : ∀ job ∈ t.job?, job.has_valid_resolution = true
  unresolved : t.Unresolved m

theorem Valid.at {t : Position} (h : Valid m) (ht : t.job? = none := by rfl)
    (hunresolved : t.Unresolved m := by trivial) : ValidAt t m := by
  refine ⟨h, ?_, hunresolved⟩
  rw [ht]
  exact fun job hjob => absurd hjob (not_mem_none job)

theorem Valid.about {t : Position} (h : Valid m) (hjob : job.has_valid_resolution)
    (ht : t.job? = some job := by rfl) (hunresolved : t.Unresolved m := by trivial) :
    ValidAt t m := by
  refine ⟨h, fun other hother => ?_, hunresolved⟩
  rw [ht] at hother
  rw [← mem_some_iff.mp hother]
  exact hjob

theorem ValidAt.write {t acknowledged failed : Position} {write : Write} (h : ValidAt t m)
    (hwrite : Writes t write acknowledged failed) :
    ValidAt (Position.next acknowledged failed (write.answer C config m).1)
      (write.after C config m) := by
  have hafter : Valid (write.after C config m) := by
    refine h.toValid.write ?_
    cases hwrite <;> exact h.job
  cases hwrite with
  | put env job | record env job event before =>
    exact Position.next_of (P := (ValidAt · _)) (fun _ => ⟨hafter, h.job, True.intro⟩)
      (hafter.at)
  | start env job | persist env job event exposed =>
    exact Position.next_of (P := (ValidAt · _)) (fun _ => ⟨hafter, h.job, True.intro⟩)
      ⟨hafter, h.job, h.unresolved⟩
  | reconcile | abort | prune | reopen =>
    exact Position.next_of (P := (ValidAt · _)) (fun _ => hafter.at)
      (hafter.at)

/-- **Every move of a transition** keeps resolutions valid; by cases on the move. -/
theorem ValidAt.move {deed : Deed} {t t' : Position} {m' : Memory} (h : ValidAt t m)
    (hmove : Moves C config deed t m t' m') (hordered : InOrder config t m) : ValidAt t' m' := by
  have hvalid := h.toValid
  -- a job that is `Resolved` neither before nor after has no receipt
  have hkept (job : Job) {found : Job} {id : JobId} (hget : get Job.id id m.registry = some found)
      (hfound : found.status ≠ .resolved) (hresolution : job.resolution = found.resolution)
      (hstatus : job.status ≠ .resolved) : job.has_valid_resolution = true :=
    valid_of_unresolved (hvalid.registry.valid found (mem_of_get hget)) hfound hresolution hstatus
  cases hmove with
  | pass | refuse | vanish | rest | prune_store | skip | give_up => exact hvalid.at
  | submit hfresh hprepared =>
    simp only [is_prepared, Bool.and_eq_true, decide_eq_true_eq] at hprepared
    exact hvalid.about (valid_of_resolution_eq_none hprepared.2 (hprepared.1 ▸ by rintro ⟨⟩))
  | enlist => exact Valid.at { hvalid.set_job (h.job _ rfl) with }
  | @take _ queued job queue now hpermit hnext hstart =>
    obtain ⟨found, hget, hpending, hjob, -⟩ := hordered.starting hnext hstart
    have hstarted : job.has_valid_resolution = true := by
      rw [hjob]
      exact hkept _ hget (hpending ▸ by rintro ⟨⟩) rfl (by rintro ⟨⟩)
    have hleft : Valid { m with queue := queue } := { hvalid with }
    refine (hleft.set_registered hstarted).about hstarted rfl ?_
    rw [hjob]
    rfl
  | @put_back _ back job hback | @lose _ back job hback =>
    have hrunning : job.status = .running := h.unresolved
    have hjob : (put_back job).has_valid_resolution = true :=
      valid_of_unresolved (h.job job rfl) (hrunning ▸ by rintro ⟨⟩) rfl (by rintro ⟨⟩)
    rw [hback]
    exact Valid.at { hvalid.set_registered hjob with }
  | @finish _ found job event hget hrunning hjob =>
    have hstatus : job.status ≠ .resolved := by
      rcases hjob.status with ⟨-, hpending, -⟩ | ⟨-, -, hstatus⟩
      · rw [hpending]
        rintro ⟨⟩
      · exact hstatus
    have hended : job.has_valid_resolution = true :=
      hkept job hget (hrunning ▸ by rintro ⟨⟩) hjob.resolution hstatus
    refine Valid.about { hvalid.set_job hended with } hended rfl fun hresolved => ?_
    rw [status_of_set_job_self] at hresolved
    exact hstatus (some.inj hresolved)
  | @mark _ job found event exposed reason hget =>
    have hfound : found.status ≠ .resolved := by
      intro hresolved
      exact h.unresolved ((status_of_get hget).trans (congrArg some hresolved))
    have hmarked := hkept (found.require_reconciliation reason) hget hfound rfl (by rintro ⟨⟩)
    exact (hvalid.set_job hmarked).about hmarked
  | prune =>
    exact Valid.at { hvalid with registry := hvalid.registry.sublist (removeAll_sublist _ _) }
  | wait m job =>
    refine Valid.at { hvalid with waiting := ?_ }
    exact forall_mem_append.mpr ⟨hvalid.waiting, forall_mem_singleton.mpr (h.job job rfl)⟩
  | wake =>
    exact Valid.at { hvalid with
      waiting := fun other hother => hvalid.waiting other (mem_of_mem_erase hother) }
  | @requeue _ job hwaiting =>
    exact Valid.at { hvalid.set_job (hvalid.waiting job hwaiting) with
      waiting := fun other hother => hvalid.waiting other (mem_of_mem_erase hother) }
  | @overflow _ job now hwaiting =>
    have hfailed : (job.fail now "requeue failed: queue is full").has_valid_resolution = true :=
      valid_of_unresolved (hvalid.waiting job hwaiting)
        ((hordered.waiting job hwaiting).1 ▸ by rintro ⟨⟩) rfl (by rintro ⟨⟩)
    refine Valid.about { hvalid.set_job hfailed with
      waiting := fun other hother => hvalid.waiting other (mem_of_mem_erase hother) }
      hfailed rfl fun hresolved => ?_
    rw [status_of_set_job_self] at hresolved
    cases hresolved
  | @cancel_pending _ found now hget hpending =>
    have hcancelled := hkept (found.cancel now) hget (hpending ▸ by rintro ⟨⟩) rfl (by rintro ⟨⟩)
    exact hvalid.about hcancelled
  | cancelled m job =>
    exact Valid.about { hvalid.set_job (h.job job rfl) with } (h.job job rfl)
  | @cancel_running _ found reason hget hrunning =>
    have hmarked := hkept (found.require_reconciliation reason) hget (hrunning ▸ by rintro ⟨⟩) rfl
      (by rintro ⟨⟩)
    exact Valid.about { hvalid.set_job hmarked with } hmarked
  | @latch _ found env actor input hdeed hinput howner hget hstatus =>
    have hfound : found.status ≠ .resolved := hstatus ▸ by rintro ⟨⟩
    have hlatched := hkept { found with resolution_pending := true } hget hfound rfl hfound
    exact (hvalid.set_job hlatched).about (valid_resolved_job hinput howner)
  | resolved m job => exact (hvalid.set_job (h.job job rfl)).about (h.job job rfl)
  | @abort job jobs _ reason hrunning =>
    have hmarked := hkept (job.require_reconciliation reason)
      (hordered.listed job mem_cons_self) (hrunning ▸ by rintro ⟨⟩) rfl (by rintro ⟨⟩)
    exact (hvalid.set_job hmarked).about hmarked
  | halted =>
    exact Valid.at { hvalid with waiting := forall_mem_nil _ }
  | hydrate => exact Valid.at { hvalid with registry := hvalid.index }
  | discard | launch | leave | halt | look | drop_task | shut_down =>
    exact Valid.at { hvalid with }

theorem keeps_valid (deed : Deed) :
    Keeps C config deed (fun t m => InOrder config t m ∧ ValidAt t m) fun _ => True :=
  (keeps_order deed).beside (fun hmove ho hm => hm.move hmove ho) (fun hwrite _ _ hm => hm.write hwrite)
    fun _ _ _ _ _ => True.intro

theorem valid_reopened {left : Remains} {env : OpenEnv}
    (hopen : open_store C env left.disk = (.ok store, disk)) :
    ValidAt .opening (left.reopened C env store disk) := by
  have hempty : Readable [] := ⟨nodup_nil, forall_mem_nil _⟩
  exact Valid.at ⟨(blank_reopened hopen).reloaded.toReadable, hempty, forall_mem_nil _⟩ rfl

theorem ValidAt.ready (h : ValidAt .done m) : ValidAt .ready m := h.toValid.at

theorem ValidAt.observe (h : ValidAt .done m) : ValidAt .done { m with history := m.observed } :=
  Valid.at { h.toValid with }

/-- **Every job that the scheduler keeps would be read back**, in every run. -/
theorem lives_valid :
    Lives C config (fun _ _ => True) (fun t m => InOrder config t m ∧ ValidAt t m)
      fun _ => True where
  deed _ hm := ⟨_, keeps_valid _, ⟨hm.1, hm.2.ready⟩, fun _ hm => hm⟩
  observe hm := ⟨{ hm.1 with }, hm.2.observe⟩
  crash _ := True.intro
  failed _ _ _ := True.intro
  opened _ _ hopen := ⟨blank_reopened hopen, valid_reopened hopen⟩
  unopened _ := True.intro
  keeps := ⟨_, keeps_valid .request_shutdown⟩

theorem Reached.valid (h : Reached C config (.up m)) : Valid m :=
  (lives_valid.reached True.intro h).2.toValid

/-- **Resolutions stay valid.** Whatever has happened, a job that is registered, recorded or waiting
for its retry has a resolution exactly if it is `Resolved`, and one that fits the job. -/
theorem resolutions_valid (C : Codec) (config : SchedulerConfig) (happenings : List Happening) :
    match Transition.run (step C config) (.down {}) happenings with
    | some (.up m) => ∀ job ∈ m.registry ++ m.store.index ++ m.backoff,
        job.has_valid_resolution = true
    | _ => True := by
  split
  · rename_i m hrun
    have hm := (reached_of_run hrun).valid
    rw [forall_mem_append, forall_mem_append]
    exact ⟨⟨hm.registry.valid, hm.index.valid⟩, hm.waiting⟩
  · trivial

end BobbyBrowser.Scheduling
