/-
At most one start for a handler that is not safe to retry.

A job is spent once it was seen as terminal or in need of reconciliation, or once
a handler that is not safe to retry was started for it. The invariant keeps every
spent job, and every registered job that is not `Pending`, closed in the store,
so that neither this process nor one that opens the journal after it can start
the job again.

Three accidents break it, and `mishap` records them: the store's file is no
longer the one at the path, because the path could not be opened again after a
compaction; a retention prune fails before its rename on a damaged journal and
takes its index over; and a job that the registry shows as settled is still
`Pending` in the journal, because a `Retried` record, or the `Failed` record of a
job that did not fit into the queue, failed and the `Recovered` record behind it
failed too.
-/
import BobbyBrowser.SchedulerSettled
import BobbyBrowser.SchedulerValid

set_option autoImplicit false

namespace BobbyBrowser.Scheduling

open Keyed
open Option hiding map_map
open Jobs JournalJobStore List

variable {id : JobId} {event : JobEvent} {persist reconcile : WriteEnv} {w : World}

variable {C : Codec} {config : SchedulerConfig} {m : Memory}

/-! ## What must hold of a history -/

variable (config) in
/-- The job must not be started any more. -/
def Spent (history : List Event) (id : JobId) : Prop :=
  .settled id ∈ history ∨ ∃ name, config.replay_safe name = false ∧ .started id name ∈ history

theorem spent_append {history events : List Event} (h : Spent config (history ++ events) id) :
    Spent config history id ∨ Spent config events id := by
  simp only [Spent, mem_append] at h ⊢
  grind

variable (config) in
/-- No start comes after an event that forbids it. -/
def Once (history : List Event) : Prop :=
  history.Pairwise fun a b => ∀ id name, b = .started id name →
    a ≠ .settled id ∧ (config.replay_safe name = false → a ≠ .started id name)

theorem Once.start {history : List Event} (h : Once config history) (name : String)
    (hspent : ¬ Spent config history id) : Once config (history ++ [.started id name]) := by
  refine pairwise_append.mpr ⟨h, pairwise_singleton _ _, ?_⟩
  intro a ha b hb id' name' hevent
  rw [mem_singleton.mp hb] at hevent
  obtain ⟨rfl, rfl⟩ := Event.started.inj hevent
  constructor
  · rintro rfl
    exact hspent (.inl ha)
  · rintro hunsafe rfl
    exact hspent (.inr ⟨name, hunsafe, ha⟩)

theorem Once.settle {history : List Event} (h : Once config history) (ids : List JobId) :
    Once config (history ++ ids.map Event.settled) := by
  refine pairwise_append.mpr ⟨h, ?_, ?_⟩
  · apply Pairwise.map _ _ (pairwise_of_forall (R := fun _ _ => True) fun _ _ => True.intro)
    intro _ _ _ id name hevent
    nomatch hevent
  · intro _ _ b hb id name hevent
    obtain ⟨id', -, rfl⟩ := mem_map.mp hb
    nomatch hevent

/-! ## The invariant -/

variable (config) in
/-- The job is one that nobody may find `Pending`. -/
def Guarded (m : Memory) (id : JobId) : Prop :=
  Spent config m.history id ∨ ∃ job ∈ m.registry, job.id = id ∧ job.status ≠ .pending

variable (config) in
/-- The job may still be started. -/
def Startable (job : Job) : Prop :=
  job.status = .pending ∨ job.status = .running ∧ config.replay_safe job.name = true

theorem Startable.unsettled {job : Job} (h : Startable config job) : is_settled job.status = false := by
  rcases h with h | ⟨h, -⟩ <;> rw [h] <;> rfl

variable (C config) in
/-- No guarded job can be found `Pending`. -/
structure Safe (m : Memory) : Prop where
  fit : Fit m.store m.disk
  closed : ∀ id, Guarded config m id → Says C (· ≠ some .pending) m.store m.disk id
  unspent : ∀ job ∈ m.registry, Startable config job → ¬ Spent config m.history job.id
  once : Once config m.history

variable (C config) in
/-- The same for what is left of a process. -/
structure SafeLeft (left : Remains) : Prop where
  sane : SaneDisk left.disk
  closed : ∀ id, Spent config left.history id → JournalSays C (· ≠ some .pending) left.disk id
  once : Once config left.history

variable (C config) in
/-- The invariant of a process, up to an accident. -/
abbrev Kept (m : Memory) : Prop := m.mishap = false → Safe C config m

variable (C config) in
/-- The invariant of what is left, up to an accident. -/
abbrev Left (left : Remains) : Prop := left.mishap = false → SafeLeft C config left

/-! ## Looking at the registry -/

theorem observed_eq (m : Memory) :
    m.observed = m.history
      ++ ((m.registry.filter fun job => is_settled job.status).map Job.id).map Event.settled := by
  rw [Memory.observed, map_map]
  rfl

/-- A job is spent by its history, or by being settled now. -/
theorem spent_observed (h : Spent config m.observed id) :
    Spent config m.history id ∨ ∃ job ∈ m.registry, job.id = id ∧ is_settled job.status = true := by
  rw [observed_eq] at h
  refine (spent_append h).imp_right ?_
  rintro (hsettled | ⟨name, -, hstarted⟩)
  · obtain ⟨id', hid', hevent⟩ := mem_map.mp hsettled
    obtain rfl := Event.settled.inj hevent
    obtain ⟨job, hjob, rfl⟩ := mem_map.mp hid'
    obtain ⟨hmem, hstatus⟩ := mem_filter.mp hjob
    exact ⟨job, hmem, rfl, hstatus⟩
  · obtain ⟨id', -, hevent⟩ := mem_map.mp hstarted
    nomatch hevent

theorem once_observed (h : Once config m.history) : Once config m.observed := by
  rw [observed_eq]
  exact h.settle _

/-- **What a process leaves behind is safe**, also when its registry shows a job that runs and is
not recorded. -/
theorem Safe.remains_of {before : Memory} (h : Safe C config before) (hdisk : m.disk = before.disk)
    (hhistory : m.history = before.history)
    (hregistry : ∀ job ∈ m.registry, is_settled job.status = true → job ∈ before.registry) :
    SafeLeft C config m.remains := by
  have hsane : SaneDisk m.disk := hdisk ▸ h.fit.sane
  refine ⟨hsane, ?_, once_observed (hhistory ▸ h.once)⟩
  intro id hspent
  change JournalSays C (· ≠ some .pending) m.disk id
  rw [hdisk]
  rcases spent_observed hspent with hold | ⟨job, hjob, hid, hsettled⟩
  · rw [hhistory] at hold
    exact (h.closed id (.inl hold)).journal
  · exact (h.closed id (.inr ⟨job, hregistry job hjob hsettled, hid,
      (is_settled_iff.mp hsettled).1⟩)).journal

/-- Seeing the registry spends no job that could still start. -/
theorem Safe.observe (h : Safe C config m) (hu : Unique Job.id m.registry) :
    Safe C config { m with history := m.observed } := by
  refine { h with closed := ?_, unspent := ?_, once := once_observed h.once }
  · rintro id (hspent | hregistered)
    · rcases spent_observed hspent with hold | ⟨job, hjob, hid, hsettled⟩
      · exact h.closed id (.inl hold)
      · exact h.closed id (.inr ⟨job, hjob, hid, (is_settled_iff.mp hsettled).1⟩)
    · exact h.closed id (.inr hregistered)
  · intro job hjob hopen hspent
    rcases spent_observed hspent with hold | ⟨other, hother, hid, hsettled⟩
    · exact h.unspent job hjob hopen hold
    · rw [inj_on_of_nodup_map hu hother hjob hid, hopen.unsettled] at hsettled
      cases hsettled

/-! ## Calls to the store -/

variable {notes : Notes} {r : Except StoreError Unit × JournalJobStore × Disk}

theorem Safe.stored (h : Safe C config m) (hfit : Fit r.2.1 r.2.2)
    (hclosed : ∀ id, Guarded config m id → Says C (· ≠ some .pending) r.2.1 r.2.2 id) :
    Safe C config (m.stored r notes) :=
  { h with fit := hfit, closed := hclosed }

theorem not_mishap_stored (h : (m.stored r notes).mishap = false) :
    m.mishap = false ∧ r.2.1.attached = true ∧ notes.mishap = false := by
  simp only [Memory.stored, Bool.or_eq_false_iff, Bool.not_eq_false'] at h
  exact ⟨h.1.1, h.1.2, h.2⟩

variable {env : AppendEnv}

/-- **Recording a job that is not `Pending`, or one that is not guarded, keeps the invariant.** -/
theorem Safe.appended (h : Safe C config m) (job : Job) (notes : Notes)
    (hvalid : job.has_valid_resolution) (hjob : Guarded config m job.id → job.status ≠ .pending)
    (hattached : (m.store.append C env event job m.disk).2.1.attached) :
    Safe C config (m.stored (m.store.append C env event job m.disk) notes) := by
  refine h.stored (append_fit h.fit hvalid hattached) ?_
  intro id hguarded
  refine append_tells h.fit hvalid (fun _ => nofun) (h.closed id hguarded) ?_
  rintro rfl hpending
  exact hjob hguarded (some.inj hpending)

theorem Safe.pruned (h : Safe C config m) {env : CompactEnv} {retained : ℕ}
    (hnotes : notes.mishap = (!env.renames && journal_damaged C m.disk))
    (hmishap : (m.stored (m.store.prune_terminal C env retained m.disk) notes).mishap = false) :
    Safe C config (m.stored (m.store.prune_terminal C env retained m.disk) notes) := by
  obtain ⟨-, hattached, hindex⟩ := not_mishap_stored hmishap
  rw [hnotes] at hindex
  refine h.stored (prune_terminal_fit h.fit hattached) fun id hguarded => ?_
  exact prune_terminal_tells h.fit (intact_of_kept hindex) (h.closed id hguarded)
    (fun _ hnot => hnot) (fun _ => nofun) fun _ _ => nofun

theorem Kept.remains (h : Kept C config m) : Left C config m.remains :=
  fun hmishap => (h hmishap).remains_of rfl rfl fun _ hjob _ => hjob

theorem Kept.read (h : Kept C config m) (readers : List JobId) : Kept C config (m.read readers) :=
  fun hmishap => { h hmishap with }

theorem Kept.pruned (h : Kept C config m) (env : PruneEnv) :
    Kept C config (Write.after C config m (.prune env)) := fun hmishap =>
  (h.read env.readers (not_mishap_stored hmishap).1).pruned rfl hmishap

variable {job : Job}

theorem Kept.updated (h : Kept C config m) (hvalid : job.has_valid_resolution)
    (hjob : job.status ≠ .pending) :
    Kept C config (m.stored (m.store.update C env job event m.disk) notes) := by
  intro hmishap
  obtain ⟨hbefore, hattached, -⟩ := not_mishap_stored hmishap
  exact (h hbefore).appended job notes hvalid (fun _ => hjob) hattached

/-! ## Setting a registered job -/

section

variable (h : Safe C config m)

include h

/-- **Setting a job.** One that is not `Pending` is closed already, and one that may still run is
not spent. -/
theorem Safe.set_job (job : Job)
    (hclosed : job.status ≠ .pending → Says C (· ≠ some .pending) m.store m.disk job.id)
    (hspent : is_settled job.status = false → ¬ Spent config m.history job.id) :
    Safe C config (m.set_job job) := by
  refine { h with closed := ?_, unspent := ?_ }
  · rintro id (hold | ⟨other, hother, rfl, hstatus⟩)
    · exact h.closed id (.inl hold)
    · rcases mem_set_job.mp hother with ⟨hmem, -⟩ | rfl
      · exact h.closed other.id (.inr ⟨other, hmem, rfl, hstatus⟩)
      · exact hclosed hstatus
  · intro other hother hopen
    rcases mem_set_job.mp hother with ⟨hmem, -⟩ | rfl
    · exact h.unspent other hmem hopen
    · exact hspent hopen.unsettled

theorem Safe.set_settled {found job : Job} (hfound : found ∈ m.registry)
    (hid : found.id = job.id) (hclosed : found.status ≠ .pending)
    (hsettled : is_settled job.status) : Safe C config (m.set_job job) := by
  refine h.set_job job (fun _ => h.closed _ (.inr ⟨found, hfound, hid, hclosed⟩)) fun hnot => ?_
  rw [hsettled] at hnot
  nomatch hnot

theorem Safe.set_pending (job : Job) (hstatus : job.status = .pending)
    (hspent : ¬ Spent config m.history job.id) : Safe C config (m.set_job job) :=
  h.set_job job (fun hnot => absurd hstatus hnot) fun _ => hspent

/-- **An acknowledged record of a job that is not `Pending`** lets the registry show it. -/
theorem Safe.recorded (job : Job) (notes : Notes)
    (hvalid : job.has_valid_resolution) (hstatus : job.status ≠ .pending)
    (hspent : job.status = .running → ¬ Spent config m.history job.id)
    (hok : (m.store.append C env event job m.disk).1 = .ok ()) :
    Safe C config ((m.set_job job).stored (m.store.append C env event job m.disk) notes) := by
  have hafter := h.appended job notes hvalid (fun _ => hstatus)
    (attached_of_append_ok h.fit.attached hok)
  refine hafter.set_job job (fun _ => ?_) fun hnot => hspent ?_
  · exact append_ok_tells h.fit hvalid (fun _ => nofun) (fun hsame => hstatus (some.inj hsame)) hok
  · by_contra hidle
    rw [is_settled_iff.mpr ⟨hstatus, hidle⟩] at hnot
    nomatch hnot

theorem Safe.not_guarded (hu : Unique Job.id m.registry)
    (hjob : job ∈ m.registry) (hpending : job.status = .pending) : ¬ Guarded config m job.id := by
  rintro (hspent | ⟨other, hother, hid, hstatus⟩)
  · exact h.unspent job hjob (.inl hpending) hspent
  · rw [inj_on_of_nodup_map hu hother hjob hid] at hstatus
    exact hstatus hpending

theorem Safe.prune_registry (retained : ℕ) :
    Safe C config { m with registry := prune_registry retained m.registry } := by
  have hsub : (Scheduling.prune_registry retained m.registry).Sublist m.registry :=
    removeAll_sublist _ _
  refine
    { h with
      closed := ?_
      unspent := fun job hjob => h.unspent job (hsub.subset hjob) }
  rintro id (hspent | ⟨job, hjob, hguarded⟩)
  · exact h.closed id (.inl hspent)
  · exact h.closed id (.inr ⟨job, hsub.subset hjob, hguarded⟩)

/-! ## Persisting or reconciling -/

end

/-- The registered job under an identifier is not `Pending`. -/
def NotPending (id : JobId) (m : Memory) : Prop :=
  ∃ found, Keyed.get Job.id id m.registry = some found ∧ found.status ≠ .pending

theorem set_job_set_job (m : Memory) {a b : Job} (h : a.id = b.id) :
    (m.set_job b).set_job a = m.set_job a := by
  rw [Memory.set_job, Memory.set_job, Memory.set_job]
  simp only [insert_insert h]

variable (C config) in
/-- The registry shows a job that the journal may still have in another status. -/
def Exposed (job : Job) (m : Memory) : Prop := ∃ base, m = base.set_job job ∧ Kept C config base

section

variable (h : Exposed C config job m)

include h

theorem Exposed.read (readers : List JobId) : Exposed C config job (m.read readers) := by
  obtain ⟨base, rfl, hbase⟩ := h
  exact ⟨{ base with reports := ((base.set_job job).read readers).reports }, rfl,
    fun hmishap => { hbase hmishap with }⟩

theorem Exposed.mark {found : Job} (reason : String)
    (hget : Keyed.get Job.id job.id m.registry = some found) :
    Exposed C config (found.require_reconciliation reason)
      (m.set_job (found.require_reconciliation reason)) := by
  obtain ⟨base, rfl, hbase⟩ := h
  rw [get_set_job] at hget
  obtain rfl := some.inj hget
  exact ⟨base, set_job_set_job _ (Job.require_reconciliation_id job reason), hbase⟩

theorem Exposed.updated (hvalid : job.has_valid_resolution) (hstatus : job.status ≠ .pending) :
    Exposed C config job (m.stored (m.store.update C env job event m.disk) notes) := by
  obtain ⟨base, rfl, hbase⟩ := h
  exact ⟨base.stored (base.store.update C env job event base.disk) notes, rfl,
    hbase.updated hvalid hstatus⟩

/-- **A record on which the job's safety depends.** -/
theorem Exposed.recorded (hvalid : job.has_valid_resolution)
    (hstatus : job.status ≠ .pending)
    (hspent : m.mishap = false → job.status = .running → ¬ Spent config m.history job.id)
    (hok : (m.stored (m.store.update C env job event m.disk) notes).mishap = false →
      (m.store.update C env job event m.disk).1 = .ok ()) :
    Kept C config (m.stored (m.store.update C env job event m.disk) notes) := by
  obtain ⟨base, rfl, hbase⟩ := h
  intro hmishap
  have hbefore := (not_mishap_stored hmishap).1
  exact (hbase hbefore).recorded job notes hvalid hstatus (hspent hbefore) (hok hmishap)

end

/-! ## Starting -/

/-- A job that starts was not spent, and is from now on. -/
theorem Safe.note_start (h : Safe C config m) (hu : Unique Job.id m.registry) (job : Job)
    (hjob : job ∈ m.registry) (hrunning : job.status = .running)
    (hspent : ¬ Spent config m.history job.id) :
    Safe C config { m with
      in_flight := m.in_flight ++ [job.id]
      history := m.history ++ [.started job.id job.name] } := by
  -- only this job can have become spent, and only if its handler is not safe to retry
  have hsplit : ∀ {id : JobId}, Spent config (m.history ++ [.started job.id job.name]) id →
      Spent config m.history id ∨ (id = job.id ∧ config.replay_safe job.name = false) := by
    intro id hspent
    refine (spent_append hspent).imp_right ?_
    rintro (hsettled | ⟨name, hname, hstarted⟩)
    · cases mem_singleton.mp hsettled
    · obtain ⟨rfl, rfl⟩ := Event.started.inj (mem_singleton.mp hstarted)
      exact ⟨rfl, hname⟩
  refine { h with closed := ?_, unspent := ?_, once := h.once.start job.name hspent }
  · rintro id (hspent' | hregistered)
    · rcases hsplit hspent' with hold | ⟨rfl, -⟩
      · exact h.closed id (.inl hold)
      · refine h.closed job.id (.inr ⟨job, hjob, rfl, ?_⟩)
        rw [hrunning]
        rintro ⟨⟩
    · exact h.closed id (.inr hregistered)
  · intro other hother hopen hspent'
    rcases hsplit hspent' with hold | ⟨hid, hunsafe⟩
    · exact h.unspent other hother hopen hold
    · rw [inj_on_of_nodup_map hu hother hjob hid, Startable, hrunning, hunsafe] at hopen
      rcases hopen with hpending | ⟨-, hsafe⟩
      · cases hpending
      · cases hsafe

variable (C config) in
/-- The registry shows the job as `Running`, and it may be started. -/
structure Begun (job : Job) (m : Memory) : Prop where
  exposed : Exposed C config job m
  running : job.status = .running
  unspent : m.mishap = false → ¬ Spent config m.history job.id

section

variable {job : Job} {env : AppendEnv} {notes : Notes}

section

variable (h : Begun C config job m)

include h

theorem Begun.read (readers : List JobId) : Begun C config job (m.read readers) :=
  { h with exposed := h.exposed.read readers }

theorem Begun.updated (hvalid : job.has_valid_resolution) :
    Begun C config job (m.stored (m.store.update C env job .started m.disk) notes) :=
  { h with
    exposed := h.exposed.updated hvalid (h.running ▸ nofun)
    unspent := fun hmishap => h.unspent (not_mishap_stored hmishap).1 }

/-- **A start that is acknowledged.** -/
theorem Begun.launched (hu : Unique Job.id m.registry) (hvalid : job.has_valid_resolution)
    (hok : (m.store.update C env job .started m.disk).1 = .ok ()) :
    let after := m.stored (m.store.update C env job .started m.disk) notes
    Kept C config { after with
      in_flight := after.in_flight ++ [job.id]
      history := after.history ++ [.started job.id job.name] } := by
  intro after hmishap
  have hrecorded : Kept C config after := h.exposed.recorded hvalid (h.running ▸ nofun)
    (fun hbefore _ => h.unspent hbefore) fun _ => hok
  obtain ⟨base, rfl, -⟩ := h.exposed
  exact (hrecorded hmishap).note_start hu job (mem_set_job.mpr (.inr rfl)) h.running
    (h.unspent (not_mishap_stored hmishap).1)

/-- A crash right behind the record of a start leaves what is safe to open again, up to an
accident. -/
theorem Begun.left (hvalid : job.has_valid_resolution) :
    Left C config (m.stored (m.store.update C env job .started m.disk) notes).remains := by
  have hrunning := h.running
  obtain ⟨base, rfl, hbase⟩ := h.exposed
  intro hmishap
  have hsafe : Safe C config
      (base.stored (base.store.update C env job .started base.disk) notes) :=
    hbase.updated hvalid (hrunning ▸ nofun) hmishap
  refine hsafe.remains_of rfl rfl ?_
  intro other hother hsettled
  rcases mem_set_job.mp hother with ⟨hmem, -⟩ | rfl
  · exact hmem
  · rw [hrunning] at hsettled
    nomatch hsettled

end

/-- **A start that is not acknowledged** puts the job back. -/
theorem Begun.put_back (h : Begun C config job m) :
    Kept C config (m.set_registered (put_back job)) := by
  have hunspent := h.unspent
  obtain ⟨base, rfl, hbase⟩ := h.exposed
  intro hmishap
  have hregistered : get Job.id (Scheduling.put_back job).id (base.set_job job).registry
      = some job := get_set_job base job
  have hid : (Scheduling.put_back job).id = job.id := rfl
  rw [set_registered_eq hregistered, set_job_set_job base hid] at hmishap ⊢
  exact (hbase hmishap).set_pending (Scheduling.put_back job) rfl (hunspent hmishap)

end

/-! ## A transition -/

theorem Fresh.not_guarded (h : Fresh C id m) : ¬ Guarded config m id := by
  rintro ((hsettled | ⟨name, -, hstarted⟩) | ⟨job, hjob, hid, -⟩)
  · exact h.settled hsettled
  · exact h.started name hstarted
  · exact get_eq_none_iff.mp h.registry job hjob hid

/-- The job is `Pending`, or not there. -/
def AtMostPending (found : Option JobStatus) : Prop := ∀ status, found = some status → status = .pending

variable (C) in
/-- What the index has in another status, the journal does not have as `Pending`. -/
def Tallies (store : JournalJobStore) (disk : Disk) : Prop :=
  ∀ id, Says C (· ≠ some .pending) store disk id ∨ Says C AtMostPending store disk id

variable (C config) in
/-- The invariant in a transition that is under way. -/
def Keeping : Position → Memory → Prop
  | .submitting job, m | .admitted job, m => Kept C config m ∧ ¬ Guarded config m job.id
  | .starting job, m | .unstarted job, m => Begun C config job m
  | .started job, m =>
    Kept C config { m with
      in_flight := m.in_flight ++ [job.id]
      history := m.history ++ [.started job.id job.name] }
  | .shown job _ true, m => Exposed C config job m ∧ is_settled job.status = true
  | .shown job event false, m =>
    Kept C config m ∧ Keyed.get Job.id job.id m.registry = some job ∧
      (event ≠ .retried → job.status ≠ .pending)
  | .unrecorded job _ true, m => Exposed C config job m
  | .unrecorded job event false, m => Kept C config m ∧ (event ≠ .retried → NotPending job.id m)
  | .marked job vital, m =>
    job.status = .reconciliation_required ∧
      if vital then Exposed C config job m else Kept C config m
  | .acknowledged job _, m => Kept C config m ∧ Kept C config (m.set_job job)
  | .aborted job _, m => Kept C config m ∧ job.status ≠ .pending
  | .opening, m | .opened, m =>
    Kept C config m ∧ (m.mishap = false → Tallies C m.store m.disk)
  | _, m => Kept C config m

theorem Tallies.prune_terminal {store : JournalJobStore} {disk : Disk} {env : CompactEnv}
    {retained : ℕ} (h : Tallies C store disk) (hfit : Fit store disk)
    (hkeeps : env.renames = false → Intact C (disk.getD [])) :
    Tallies C (store.prune_terminal C env retained disk).2.1
      (store.prune_terminal C env retained disk).2.2 := by
  intro id
  rcases h id with hclosed | hpending
  · exact .inl (prune_terminal_tells hfit hkeeps hclosed (fun _ hnot => hnot) (fun _ => nofun)
      fun _ _ => nofun)
  · exact .inr (prune_terminal_tells hfit hkeeps hpending (fun _ hsame => hsame)
      (fun _ => by rintro _ ⟨⟩) fun _ _ => by rintro _ ⟨⟩)

theorem Write.ok_of_vital {env : WriteEnv}
    (h : ((Write.update env job event true).notes C config m).mishap = false) :
    (m.store.update C env.toAppendEnv job event m.disk).1 = .ok () := by
  rw [Write.notes, Bool.true_and, Bool.not_eq_false'] at h
  exact eq_ok_of_isOk h

/-- **A write to the store** keeps jobs from starting twice, also in the journal that a crash would
leave. -/
theorem Keeping.write {t acknowledged failed : Position} {write : Write}
    (hm : Keeping C config t m) (hwrite : Writes t write acknowledged failed)
    (hordered : InOrder config t m) (hvalid : ∀ job ∈ t.job?, job.has_valid_resolution = true) :
    Keeping C config (Position.next acknowledged failed (write.answer C config m).1)
        (write.after C config m) ∧
      (write.crash = true → Left C config (write.after C config m).remains) := by
  -- where the process is safe after the call, what is left of it is safe too
  have hkept (hafter : Kept C config (write.after C config m))
      (hok : (write.answer C config m).1 = .ok () →
        Keeping C config acknowledged (write.after C config m))
      (hfailed : Keeping C config failed (write.after C config m)) :=
    And.intro (Position.next_of (P := (Keeping C config · _)) hok hfailed)
      fun _ : write.crash = true => hafter.remains
  cases hwrite with
  | put env job =>
    have hafter : Kept C config (Write.after C config m (.put env job)) := by
      intro hmishap
      obtain ⟨hbefore, hattached, -⟩ := not_mishap_stored hmishap
      exact (hm.1.read env.readers hbefore).appended job _ (hvalid job rfl)
        (fun h => absurd h hm.2) hattached
    exact hkept hafter (fun _ => ⟨hafter, hm.2⟩) hafter
  | start env job =>
    have hread := Begun.read hm env.readers
    have hjob := hvalid job rfl
    exact ⟨Position.next_of (P := (Keeping C config · _))
      (fun hok => hread.launched hordered.unique hjob hok) (hread.updated hjob),
      fun _ => hread.left hjob⟩
  | persist env job event exposed =>
    cases exposed with
    | true =>
      have hread := hm.1.read env.readers
      have hjob := hvalid job rfl
      obtain ⟨hpending, hidle⟩ := is_settled_iff.mp hm.2
      refine ⟨Position.next_of (P := (Keeping C config · _))
        (fun hok => hread.recorded hjob hpending (fun _ hrunning => absurd hrunning hidle)
          fun _ => hok) (hread.updated hjob hpending),
        fun hcrash => ?_⟩
      -- a crash that leaves the record behind is none
      refine Kept.remains (hread.recorded hjob hpending
        (fun _ hrunning => absurd hrunning hidle) fun hmishap => ?_)
      have hvital := (not_mishap_stored hmishap).2.2
      have hcrash : env.crash = true := hcrash
      rw [hcrash] at hvital
      exact Write.ok_of_vital hvital
    | false =>
      obtain ⟨hm, hget, hstatus⟩ := hm
      have hafter : Kept C config
          (Write.after C config m (.update env job event (false && env.crash))) := by
        intro hmishap
        obtain ⟨hbefore, hattached, -⟩ := not_mishap_stored hmishap
        have hsafe := hm.read env.readers hbefore
        refine hsafe.appended job _ (hvalid job rfl) (fun hguarded hpending => ?_) hattached
        exact hsafe.not_guarded hordered.1.unique (mem_of_get hget) hpending hguarded
      exact hkept hafter (fun _ => hafter) ⟨hafter, fun hevent => ⟨job, hget, hstatus hevent⟩⟩
  | reconcile env job vital =>
    obtain ⟨hstatus, hm⟩ := hm
    have hafter : Kept C config (Write.after C config m (.update env job .recovered vital)) := by
      cases vital with
      | true =>
        exact Exposed.recorded (Exposed.read hm env.readers) (hvalid job rfl) (hstatus ▸ nofun)
          (fun _ hrunning => nomatch hstatus.symm.trans hrunning)
          fun hmishap => Write.ok_of_vital (not_mishap_stored hmishap).2.2
      | false =>
        exact (Kept.read hm env.readers).updated (hvalid job rfl) (hstatus ▸ nofun)
    exact hkept hafter (fun _ => hafter) hafter
  | record env job event before =>
    obtain ⟨hpending, hidle⟩ := is_settled_iff.mp hordered.2.2
    have hread : Kept C config (m.read env.locked.readers) := Kept.read hm _
    have hafter : Kept C config (Write.after C config m (.update env.locked job event false)) :=
      hread.updated (hvalid job rfl) hpending
    refine hkept hafter (fun hok => ⟨hafter, fun hmishap => ?_⟩) hafter
    exact (hread (not_mishap_stored hmishap).1).recorded job _ (hvalid job rfl) hpending
      (fun hrunning => absurd hrunning hidle) hok
  | abort env job jobs =>
    have hafter : Kept C config (Write.after C config m (.update env.locked job .recovered false)) :=
      (hm.1.read _).updated (hvalid job rfl) hm.2
    exact hkept hafter (fun _ => hafter) hafter
  | prune env => exact hkept (Kept.pruned hm env) (fun _ => Kept.pruned hm env) (Kept.pruned hm env)
  | reopen env =>
    have hafter := hm.1.pruned env.unread
    refine hkept hafter (fun _ => ⟨hafter, fun hmishap => ?_⟩) hafter
    obtain ⟨hbefore, -, hindex⟩ := not_mishap_stored hmishap
    exact (hm.2 hbefore).prune_terminal (hm.1 hbefore).fit (intact_of_kept hindex)

/-- **A process that opens the journal of a safe one is safe.** -/
theorem Kept.hydrate (h : Kept C config m) (htallies : m.mishap = false → Tallies C m.store m.disk)
    (hreloaded : Reloaded m.store.index) {queue : List Job} :
    Kept C config { m with registry := m.store.index, queue := queue } := by
  intro hmishap
  have hsafe := h hmishap
  have hindex {job : Job} (hjob : job ∈ m.store.index) :
      status_in m.store.index job.id = some job.status := by
    rw [status_in, hreloaded.unique.get_of_mem hjob rfl]
    rfl
  refine
    { hsafe with
      closed := ?_
      unspent := ?_ }
  · rintro id (hspent | ⟨job, hjob, rfl, hstatus⟩)
    · exact hsafe.closed id (.inl hspent)
    · -- what the index does not have as `Pending`, the journal has not either
      rcases htallies hmishap job.id with hclosed | hpending
      · exact hclosed
      · exact absurd (hpending.index job.status (hindex hjob)) hstatus
  · rintro job hjob (hpending | ⟨hrunning, -⟩) hspent
    · exact (hsafe.closed job.id (.inl hspent)).index ((hindex hjob).trans (congrArg some hpending))
    · exact hreloaded.idle job hjob hrunning

/-- **Every move of a transition** keeps jobs from starting twice; by cases on the move. -/
theorem Keeping.move {deed : Deed} {t t' : Position} {m' : Memory}
    (hmove : Moves C config deed t m t' m') (hordered : InOrder config t m)
    (hm : Keeping C config t m) : Keeping C config t' m' := by
  cases hmove with
  | pass | launch | rest | prune_store | cancel_pending | skip => exact hm
  | submit hfresh => exact ⟨hm, (Memory.fresh_spec hfresh).not_guarded⟩
  | @enlist m job hroom =>
    intro hmishap
    exact { (hm.1 hmishap).set_pending job hordered.2.2.2 fun h => hm.2 (.inl h) with }
  | refuse => exact hm.1
  | @take m queued job queue now hpermit hnext hstart =>
    obtain ⟨found, hget, hpending, hjob, -⟩ := hordered.starting hnext hstart
    have hregistered : get Job.id job.id { m with queue := queue }.registry = some found := hget
    have hid : found.id = job.id := key_of_get hget
    rw [set_registered_eq hregistered]
    refine ⟨⟨{ m with queue := queue }, rfl, fun hmishap => { hm hmishap with }⟩, ?_,
      fun hmishap => ?_⟩
    · rw [hjob]
      rfl
    · rw [← hid]
      exact (hm hmishap).unspent found (mem_of_get hget) (.inl hpending)
  | put_back hback hroom =>
    rw [hback]
    exact fun hmishap => { Begun.put_back hm hmishap with }
  | lose hback =>
    rw [hback]
    exact Begun.put_back hm
  | @finish m found job event hget hrunning hjob =>
    have hmem := mem_of_get hget
    have hclosed : found.status ≠ .pending := by
      rw [hrunning]
      nofun
    have hleft : Kept C config { m with
        in_flight := m.in_flight.erase found.id, aborted := m.aborted.erase found.id } :=
      fun hmishap => { hm hmishap with }
    rcases hjob.status with ⟨hevent, hpending, hsafe⟩ | ⟨-, hsettled, -⟩
    · refine ⟨fun hmishap => (hleft hmishap).set_pending job hpending ?_, get_set_job _ job,
        fun hnot => absurd hevent hnot⟩
      rw [hjob.id]
      exact (hm hmishap).unspent found hmem (.inr ⟨hrunning, hsafe⟩)
    · exact ⟨fun hmishap => (hleft hmishap).set_settled hmem hjob.id.symm hclosed hsettled,
        get_set_job _ job, fun _ => (is_settled_iff.mp hsettled).1⟩
  | @mark m job found event exposed reason hget =>
    refine ⟨rfl, ?_⟩
    cases exposed with
    | true => exact Exposed.mark hm reason hget
    | false =>
      split
      · exact ⟨m, rfl, hm.1⟩
      · rename_i hevent
        obtain ⟨registered, hregistered, hclosed⟩ := hm.2 fun he => hevent (by rw [he]; rfl)
        rw [hget] at hregistered
        obtain rfl := some.inj hregistered
        exact fun hmishap => (hm.1 hmishap).set_settled (mem_of_get hget) rfl hclosed rfl
  | @vanish m job event exposed hnone =>
    cases exposed with
    | true =>
      obtain ⟨base, rfl, -⟩ := hm
      rw [get_set_job] at hnone
      nomatch hnone
    | false => exact hm.1
  | prune => exact fun hmishap => (hm hmishap).prune_registry _
  | @requeue m job hwaiting hpending hroom =>
    intro hmishap
    obtain ⟨found, hget, hstatus⟩ := map_eq_some_iff.mp hpending
    have hspent := (hm hmishap).unspent found (mem_of_get hget) (.inl hstatus)
    rw [key_of_get hget] at hspent
    have hleft : Safe C config { m with backoff := m.backoff.erase job } := { hm hmishap with }
    exact { hleft.set_pending job (hordered.waiting job hwaiting).1 hspent with }
  | overflow now hwaiting hpending hfull =>
    exact ⟨⟨_, rfl, fun hmishap => { hm hmishap with }⟩, rfl⟩
  | cancelled => exact fun hmishap => { hm.2 hmishap with }
  | cancel_running reason hget hrunning =>
    refine ⟨rfl, fun hmishap => ?_⟩
    exact { (hm hmishap).set_settled (mem_of_get hget)
      (Job.require_reconciliation_id _ reason).symm (hrunning ▸ nofun) rfl with }
  | latch hdeed hinput howner hget hstatus =>
    exact fun hmishap => (hm hmishap).set_settled (mem_of_get hget) rfl (hstatus ▸ nofun)
      (hstatus ▸ rfl)
  | resolved => exact hm.2
  | abort m reason hrunning =>
    refine ⟨fun hmishap => ?_, nofun⟩
    exact (hm hmishap).set_settled (mem_of_get (hordered.listed _ mem_cons_self)) rfl
      (hrunning ▸ nofun) rfl
  | look => exact Kept.read hm _
  | hydrate => exact hm.1.hydrate hm.2 hordered.reloaded
  | give_up => exact hm.1
  | discard | leave | wait | wake | halt | halted | drop_task | shut_down =>
    exact fun hmishap => { hm hmishap with }

theorem keeps_kept (deed : Deed) :
    Keeps C config deed
      (fun t m => (InOrder config t m ∧ ValidAt t m) ∧ Keeping C config t m) (Left C config) :=
  (keeps_valid deed).beside (fun hmove ho hm => hm.move hmove ho.1)
    (fun hwrite _ ho hm => (hm.write hwrite ho.1 ho.2.job).1)
    fun hwrite hcrash _ ho hm => (hm.write hwrite ho.1 ho.2.job).2 hcrash

/-! ## Runs -/

theorem open_store_closed (env : OpenEnv) {disk : Disk} (hsane : SaneDisk disk)
    (h : JournalSays C (· ≠ some .pending) disk id) :
    OpenSays C (· ≠ some .pending) id (open_store C env disk) := by
  refine open_store_tells env hsane h ?_ (fun _ => nofun) (fun _ => nofun) fun _ => ⟨nofun, nofun⟩
  intro status hstatus
  rw [reopened_status]
  split
  · nofun
  · exact hstatus

/-- **An opened store tallies with its journal.** -/
theorem open_store_tallies {env : OpenEnv} {disk disk' : Disk} {store : JournalJobStore}
    (hsane : SaneDisk disk) (hopen : open_store C env disk = (.ok store, disk')) :
    Tallies C store disk' := by
  intro id
  by_cases hclosed : JournalSays C (· ≠ some .pending) disk id
  · have htold := open_store_closed env hsane hclosed
    rw [hopen] at htold
    exact .inl (htold.store store rfl).1
  · -- the journal is undamaged and has the job as `Pending`
    obtain ⟨hintact, hnot⟩ := Classical.not_imp.mp hclosed
    have hpending : AtMostPending (status_in (reading C (disk.getD [])).latest id) := by
      intro status hstatus
      exact some.inj (hstatus.symm.trans (not_not.mp hnot))
    have hnone : AtMostPending none := by rintro _ ⟨⟩
    have htold := open_store_tells env hsane (fun _ => hpending) ?_ (fun _ => hnone)
      (fun _ => hnone) fun hdamaged => absurd hintact hdamaged
    · rw [hopen] at htold
      exact .inr (htold.store store rfl).1
    · intro status hstatus
      rw [hstatus status rfl]
      exact fun _ hsame => (some.inj hsame).symm

/-- The invariant holds in every run, over all crashes and reopenings. -/
theorem lives_kept :
    Lives C config (fun _ _ => True)
      (fun t m => (InOrder config t m ∧ ValidAt t m) ∧ Keeping C config t m) (Left C config) where
  deed _ hm := ⟨_, keeps_kept _, ⟨⟨hm.1.1, hm.1.2.ready⟩, hm.2⟩, fun _ hm => hm⟩
  observe hm := ⟨⟨{ hm.1.1 with }, hm.1.2.observe⟩,
    fun hmishap => (hm.2 hmishap).observe hm.1.1.unique⟩
  crash hm := hm.2.remains
  failed {left env prune error disk} _ hleft hopen := by
    intro hmishap
    have hsafe := hleft hmishap
    have hfit := open_store_fit (C := C) env hsafe.sane
    rw [hopen] at hfit
    refine ⟨hfit.1, fun id hspent => ?_, hsafe.once⟩
    have hclosed := open_store_closed env hsafe.sane (hsafe.closed id hspent)
    rw [hopen] at hclosed
    exact hclosed.journal
  opened {left env prune store disk} _ hleft hopen := by
    refine ⟨⟨blank_reopened hopen, valid_reopened hopen⟩, fun hmishap => ?_, fun hmishap => ?_⟩
    · -- with an empty registry there is nothing but the history to keep
      have hsafe := hleft hmishap
      have hfit := open_store_fit (C := C) env hsafe.sane
      rw [hopen] at hfit
      refine ⟨hfit.2 store rfl, ?_, forall_mem_nil _, hsafe.once⟩
      rintro id (hspent | ⟨job, hjob, -⟩)
      · have hclosed := open_store_closed env hsafe.sane (hsafe.closed id hspent)
        rw [hopen] at hclosed
        exact (hclosed.store store rfl).1
      · nomatch hjob
    · exact open_store_tallies (hleft hmishap).sane hopen
  unopened hm hmishap :=
    ⟨(hm.2 hmishap).fit.sane, fun id hspent => ((hm.2 hmishap).closed id (.inl hspent)).journal,
      (hm.2 hmishap).once⟩
  keeps := ⟨_, keeps_kept .request_shutdown⟩

/-- **At most one start.** In every run without an accident, a handler that is not safe to retry is
started at most once for a job, and no job is started after it was terminal or in need of
reconciliation. -/
theorem started_at_most_once {w : World} (h : Reached C config w) (hmishap : w.mishap = false) :
    (∀ id name, config.replay_safe name = false → w.history.count (.started id name) ≤ 1) ∧
      ∀ before after id name, w.history = before ++ .started id name :: after →
        .settled id ∉ before := by
  have honce : Once config w.history := by
    have hleft : Left C config {} := by
      refine fun _ => ⟨?_, ?_, Pairwise.nil⟩
      · intro bytes hbytes
        exact absurd hbytes (not_mem_none bytes)
      · intro id _ _ hpending
        nomatch hpending
    have hw := lives_kept.reached hleft h
    cases w with
    | up m => exact (hw.2 hmishap).once
    | down left => exact (hw hmishap).once
  constructor
  · intro id name hunsafe
    by_contra hcount
    -- two starts stand in the history one after the other
    have hsub : [Event.started id name, .started id name].Sublist w.history := by
      have htwo : [Event.started id name, .started id name] = replicate 2 (.started id name) := rfl
      rw [htwo]
      exact replicate_sublist_iff.mpr (by omega)
    have hpair := Pairwise.sublist hsub honce
    simp only [pairwise_cons, mem_singleton, forall_eq] at hpair
    exact (hpair.1 id name rfl).2 hunsafe rfl
  · intro before after id name hhistory hsettled
    rw [hhistory] at honce
    exact ((pairwise_append.mp honce).2.2 _ hsettled _ mem_cons_self id name rfl).1 rfl

/-! ## Two runs -/

/-- A write that fails after at most `written` bytes. -/
def failing (written : ℕ) : WriteEnv := { write := some (written, ⟨.other, "write"⟩) }

/-- A job is started and its handler fails; the `Retried` record and the `Recovered` record behind
it end as told, and the process is restarted. -/
def failed_retry (retried recovered : WriteEnv) : List Happening :=
  [.open_journal {} {}, .deed (.submit {} { id := 1, name := "fetch", created_at := 0 }),
    .deed (.start_next { now := 1 }),
    .deed (.finish_job
      { now := 2, outcome := .error "reset", persist := retried, reconcile := recovered } 1),
    .crash, .open_journal {} {}, .deed (.start_next { now := 3 })]

/-- **A job can be started after it was in need of reconciliation.** The whole `Retried` record
reaches the file and the write fails all the same; the `Recovered` record fails before its first
byte. -/
theorem started_after_settled :
    ∃ w, Reached wire_codec retrying w ∧
      w.history = [.started 1 "fetch", .settled 1, .settled 1, .started 1 "fetch"] := by
  refine Transition.exists_of_run (failed_retry (failing 1000) (failing 0)) rfl
    (fun _ _ _ => trivial) ?_
  decide +kernel

/-- When the `Recovered` record is written, the job is not started again. -/
theorem not_started_after_recovered :
    ∃ w, Reached wire_codec retrying w ∧ w.mishap = false ∧
      w.history.count (.started 1 "fetch") = 1 ∧ Event.settled 1 ∈ w.history ∧
      ∀ before after id name, w.history = before ++ .started id name :: after →
        .settled id ∉ before := by
  obtain ⟨w, hreached, hmishap, hcount, hsettled⟩ : ∃ w, Reached wire_codec retrying w ∧
      w.mishap = false ∧ w.history.count (.started 1 "fetch") = 1 ∧
        Event.settled 1 ∈ w.history := by
    refine Transition.exists_of_run (failed_retry (failing 1000) {}) rfl (fun _ _ _ => trivial) ?_
    decide +kernel
  exact ⟨w, hreached, hmishap, hcount, hsettled, (started_at_most_once hreached hmishap).2⟩

end BobbyBrowser.Scheduling
