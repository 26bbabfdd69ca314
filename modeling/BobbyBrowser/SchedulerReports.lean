/-
What `get_job` has answered.

Once it has reported a job as `Completed`, `Failed`, `Cancelled` or `Resolved`,
it should report the same ever after, in this process and in the next, unless
retention drops the job. Two transitions break this: the end of a handler and
the end of a backoff show the new status in the registry before it is recorded.
When the record fails, the registry takes the status back. A compaction breaks
it too if its last write fails unnoticed, since the job on that line is lost.

The invariant says for every job what the index and the journal have to agree
on. A terminal status that the registry shows, or that has been reported, is
what both say, up to retention. While a transition has shown a status that it
still has to record, one job is exempt.
-/
import BobbyBrowser.SchedulerSettled
import BobbyBrowser.SchedulerValid

set_option autoImplicit false

namespace BobbyBrowser.Scheduling

open Jobs JournalJobStore List Option Keyed

variable {job : Job} {event : JobEvent}

variable {C : Codec} {config : SchedulerConfig} {m : Memory} {shown : Option JobId} {id : JobId}
  {status : JobStatus}

/-! ## Answers -/

/-- The later of two answers, after a terminal status: the same, or that retention dropped the
job. -/
def Agrees (pruned : List JobId) (a b : JobId × Option JobStatus) : Prop :=
  b.1 = a.1 → ∀ status, a.2 = some status → status.is_terminal = true →
    b.2 = some status ∨ (b.2 = none ∧ b.1 ∈ pruned)

/-- A status that lasts until retention drops the job. -/
def Lasts (pruned : List JobId) (id : JobId) (status : JobStatus) (found : Option JobStatus) : Prop :=
  found = some status ∨ (found = none ∧ id ∈ pruned)

/-- The job is in no terminal status. -/
def Unsettled (found : Option JobStatus) : Prop :=
  ∀ status, found = some status → status.is_terminal = false

/-- What `get_job` answers. -/
def Memory.answer (m : Memory) (id : JobId) : Option JobStatus := (m.get_job id).map Job.status

theorem answer_of_registered (h : m.status_of id = some status) : m.answer id = some status := by
  obtain ⟨job, hget, hstatus⟩ := map_eq_some_iff.mp h
  rw [Memory.answer, Memory.get_job, hget]
  exact congrArg some hstatus

theorem answer_of_unregistered (h : m.status_of id = none) :
    m.answer id = status_in m.store.index id := by
  rw [Memory.answer, Memory.get_job, map_eq_none_iff.mp h]
  rfl

theorem Agrees.mono {pruned more : List JobId} {a b : JobId × Option JobStatus}
    (h : Agrees pruned a b) : Agrees (pruned ++ more) a b := by
  intro hid status hstatus hterminal
  rcases h hid status hstatus hterminal with hsame | ⟨hnone, hmem⟩
  · exact .inl hsame
  · exact .inr ⟨hnone, mem_append_left _ hmem⟩

theorem Lasts.mono {pruned : List JobId} (more : List JobId) (found : Option JobStatus)
    (h : Lasts pruned id status found) : Lasts (pruned ++ more) id status found := by
  rcases h with hsame | ⟨hnone, hmem⟩
  · exact .inl hsame
  · exact .inr ⟨hnone, mem_append_left _ hmem⟩

/-! ## The invariant -/

variable (C) in
/-- The store and the journal have the job in a status that lasts. -/
abbrev Stands (m : Memory) (id : JobId) (status : JobStatus) : Prop :=
  Says C (Lasts m.pruned id status) m.store m.disk id

variable (C) in
/-- What the store and the journal can have of a job that is not registered: a status that lasts, or
none that is terminal. -/
def Known (m : Memory) (id : JobId) : Prop :=
  (∃ status, status.is_terminal = true ∧ Stands C m id status) ∨ Says C Unsettled m.store m.disk id

variable (C) in
/-- Every terminal status that is shown or was reported stands. The job in `shown` is about to be
recorded. -/
structure Told (shown : Option JobId) (m : Memory) : Prop where
  fit : Fit m.store m.disk
  stands : ∀ id status, m.status_of id = some status ∨ (id, some status) ∈ m.reports →
    status.is_terminal = true → shown ≠ some id → Stands C m id status
  unregistered : ∀ id, m.status_of id = none → Known C m id
  reported : ∀ id status, (id, some status) ∈ m.reports → status.is_terminal = true →
    m.status_of id = some status ∨ m.status_of id = none
  answers : m.reports.Pairwise (Agrees m.pruned)

variable (C) in
/-- The same for what is left of a process. -/
structure ToldLeft (left : Remains) : Prop where
  reported : ∀ id status, (id, some status) ∈ left.reports → status.is_terminal = true →
    JournalSays C (Lasts left.pruned id status) left.disk id
  answers : left.reports.Pairwise (Agrees left.pruned)

variable (C) in
/-- The invariant of a process, up to an accident. -/
abbrev Telling (shown : Option JobId) (m : Memory) : Prop := m.retracted = false → Told C shown m

variable (C) in
/-- The invariant of what is left, up to an accident. -/
abbrev TellingLeft (left : Remains) : Prop := left.retracted = false → ToldLeft C left

theorem Stands.of_index {other : JobStatus} (h : Stands C m id other)
    (hindex : status_in m.store.index id = some status) : Stands C m id status := by
  rcases h.index with hsame | ⟨hnone, -⟩
  · rw [hindex] at hsame
    rw [some.inj hsame]
    exact h
  · rw [hindex] at hnone
    nomatch hnone

/-! ## Asking -/

/-- What was reported of a job as terminal is still the answer, unless retention dropped it. -/
theorem Told.answer_agrees (h : Told C shown m) (hshown : ∀ id, shown = some id →
    m.status_of id ≠ none) (hreported : (id, some status) ∈ m.reports)
    (hterminal : status.is_terminal) :
    m.answer id = some status ∨ (m.answer id = none ∧ id ∈ m.pruned) := by
  rcases h.reported id status hreported hterminal with hregistered | hnone
  · exact .inl (answer_of_registered hregistered)
  · rw [answer_of_unregistered hnone]
    exact (h.stands id status (.inr hreported) hterminal fun hid => hshown id hid hnone).index

/-- An answer that a job is terminal stands in the store and the journal, unless the change is only
shown so far. -/
theorem Told.answer_stands (h : Told C shown m) (hanswer : m.answer id = some status)
    (hterminal : status.is_terminal) :
    (m.status_of id = some status ∨ m.status_of id = none) ∧
      (shown ≠ some id → Stands C m id status) := by
  cases hstatus : m.status_of id with
  | some registered =>
    rw [answer_of_registered hstatus] at hanswer
    rw [hanswer]
    exact ⟨.inl rfl, h.stands id status (.inl (hstatus.trans hanswer)) hterminal⟩
  | none =>
    rw [answer_of_unregistered hstatus] at hanswer
    refine ⟨.inr rfl, fun _ => ?_⟩
    rcases h.unregistered id hstatus with ⟨other, -, hstands⟩ | hunsettled
    · exact hstands.of_index hanswer
    · rw [hunsettled.index status hanswer] at hterminal
      cases hterminal

/-- Reports are answers, and stand when they are given. -/
theorem Told.read (h : Told C shown m) (hshown : ∀ id, shown = some id → m.status_of id ≠ none)
    (readers : List JobId) : Told C shown (m.read readers) := by
  have hreports : ∀ id status, (id, some status) ∈ (m.read readers).reports →
      status.is_terminal = true → (m.status_of id = some status ∨ m.status_of id = none) ∧
        (shown ≠ some id → Stands C m id status) := by
    intro id status hmem hterminal
    rcases mem_append.mp hmem with hold | hnew
    · exact ⟨h.reported id status hold hterminal, h.stands id status (.inr hold) hterminal⟩
    · obtain ⟨reader, -, heq⟩ := mem_map.mp hnew
      obtain ⟨rfl, hanswer⟩ := Prod.mk.inj heq
      exact h.answer_stands hanswer hterminal
  refine { h with
    stands := fun id status hknown hterminal => hknown.elim
      (fun hsame => h.stands id status (.inl hsame) hterminal)
      fun hmem => (hreports id status hmem hterminal).2
    reported := fun id status hmem hterminal => (hreports id status hmem hterminal).1
    answers := ?_ }
  refine pairwise_append.mpr ⟨h.answers, ?_, ?_⟩
  · -- two answers of the same moment
    refine Pairwise.map _ (fun a b _ => ?_)
      (pairwise_of_forall (R := fun _ _ => True) fun _ _ => True.intro)
    rintro hid status hstatus -
    left
    rw [show b = a from hid]
    exact hstatus
  · rintro ⟨reported, found⟩ hold b hnew hid status hstatus hterminal
    obtain ⟨reader, -, rfl⟩ := mem_map.mp hnew
    obtain rfl : reader = reported := hid
    obtain rfl : found = some status := hstatus
    exact h.answer_agrees hshown hold hterminal

/-! ## Setting a registered job -/

theorem Told.unreported (h : Told C shown m) {live : JobStatus} (hlive : m.status_of id = some live)
    (hstatus : live.is_terminal = false) (hreported : (id, some status) ∈ m.reports) :
    status.is_terminal = false := by
  cases hterminal : status.is_terminal with
  | false => rfl
  | true =>
    rcases h.reported id status hreported hterminal with hsame | hnone
    · rw [hlive] at hsame
      rw [some.inj hsame, hterminal] at hstatus
      nomatch hstatus
    · rw [hlive] at hnone
      nomatch hnone

/-- **A job is shown in a new status**, which is still to be recorded. -/
theorem Told.expose (h : Told C none m)
    (hquiet : ∀ status, (job.id, some status) ∈ m.reports → status.is_terminal = false) :
    Told C (some job.id) (m.set_job job) := by
  refine { h with stands := ?_, unregistered := ?_, reported := ?_ }
  · intro id status hknown hterminal hid
    have hne : id ≠ job.id := fun he => hid (congrArg some he.symm)
    rw [status_of_set_job_of_ne hne] at hknown
    exact h.stands id status hknown hterminal (by rintro ⟨⟩)
  · intro id hnone
    have hne : id ≠ job.id := by
      rintro rfl
      rw [status_of_set_job_self] at hnone
      cases hnone
    rw [status_of_set_job_of_ne hne] at hnone
    exact h.unregistered id hnone
  intro id status hmem hterminal
  by_cases hid : id = job.id
  · subst hid
    rw [hquiet status hmem] at hterminal
    cases hterminal
  · rw [status_of_set_job_of_ne hid]
    exact h.reported id status hmem hterminal

/-- **What was shown is recorded**, or not terminal. -/
theorem Told.settle (h : Told C (some id) m) (hid : m.status_of id = some status)
    (hstands : status.is_terminal = true → Stands C m id status) : Told C none m := by
  refine { h with stands := fun other found hknown hterminal _ => ?_ }
  by_cases hother : other = id
  · subst hother
    have hsame : m.status_of other = some found ∨ m.status_of other = none :=
      hknown.elim .inl fun hmem => h.reported other found hmem hterminal
    rw [hid] at hsame
    rcases hsame with hsame | hnone
    · rw [← some.inj hsame] at hterminal ⊢
      exact hstands hterminal
    · nomatch hnone
  · exact h.stands other found hknown hterminal fun he => hother (some.inj he).symm

/-- **A job that is not terminal is set to another status that is not.** -/
theorem Told.set_live (h : Told C none m) {live : JobStatus}
    (hfound : m.status_of job.id = some live) (hlive : live.is_terminal = false)
    (hjob : job.status.is_terminal = false) : Told C none (m.set_job job) := by
  refine (h.expose fun _ => h.unreported hfound hlive).settle (status_of_set_job_self m job) ?_
  rw [hjob]
  rintro ⟨⟩

/-- **Retention drops jobs from the registry**, whose status stands. -/
theorem Told.prune_registry (h : Told C none m) (hu : Keyed.Unique Job.id m.registry)
    (retained : ℕ) : Told C none { m with registry := prune_registry retained m.registry } := by
  have hstatus := status_of_prune_registry hu retained
  refine { h with stands := ?_, unregistered := ?_, reported := ?_ }
  · intro id status hknown
    refine h.stands id status (hknown.imp_left fun hfound => ?_)
    rcases hstatus id with hsame | ⟨hnone, -⟩
    · exact hsame.symm.trans hfound
    · nomatch hnone.symm.trans hfound
  · intro id hnone
    rcases hstatus id with hsame | ⟨-, status, hfound, hterminal⟩
    · rw [hsame] at hnone
      exact h.unregistered id hnone
    · exact .inl ⟨status, hterminal, h.stands id status (.inl hfound) hterminal nofun⟩
  · intro id status hmem hterminal
    rcases hstatus id with hsame | ⟨hnone, -⟩
    · rw [hsame]
      exact h.reported id status hmem hterminal
    · exact .inr hnone

/-! ## Calls to the store -/

variable {notes : Notes} {r : Except StoreError Unit × JournalJobStore × Disk}

theorem not_retracted_stored (h : (m.stored r notes).retracted = false) :
    m.retracted = false ∧ r.2.1.attached = true ∧ notes.retracted = false := by
  simp only [Memory.stored, Bool.or_eq_false_iff, Bool.not_eq_false'] at h
  exact ⟨h.1.1, h.1.2, h.2⟩

/-- A call to the store keeps the reports, if what stands there still does afterwards. -/
theorem Told.stored (h : Told C shown m) (hfit : Fit r.2.1 r.2.2)
    (hstands : ∀ id status, Stands C m id status → shown ≠ some id →
      (m.status_of id = some status ∨ (id, some status) ∈ m.reports) → status.is_terminal = true →
      Says C (Lasts (m.pruned ++ notes.pruned) id status) r.2.1 r.2.2 id)
    (hunregistered : ∀ id, m.status_of id = none → Known C m id → Known C (m.stored r notes) id) :
    Told C shown (m.stored r notes) :=
  { h with
    fit := hfit
    stands := fun id status hknown hterminal hid =>
      hstands id status (h.stands id status hknown hterminal hid) hid hknown hterminal
    unregistered := fun id hnone => hunregistered id hnone (h.unregistered id hnone)
    answers := h.answers.imp fun hab => hab.mono }

/-- The job is registered, and its status is not one that stands already. -/
structure Open (shown : Option JobId) (id : JobId) (m : Memory) : Prop where
  registered : m.status_of id ≠ none
  live : shown ≠ some id → ∀ status, m.status_of id = some status → status.is_terminal = false
  only : ∀ other, shown = some other → other = id

theorem Open.known (h : Open shown id m) : ∀ id, shown = some id → m.status_of id ≠ none := by
  intro other hother
  rw [h.only other hother]
  exact h.registered

variable {env : AppendEnv}

theorem absurd_kept {kept : Option ℕ} {P : Prop} (h : kept.isSome = false) : kept.isSome = true → P :=
  fun hsome => absurd (h.symm.trans hsome) Bool.false_ne_true

theorem Told.append_others (h : Told C shown m) (more : List JobId) (hkept : env.kept.isSome = false)
    (hvalid : job.has_valid_resolution) (hid : id ≠ job.id) (hstands : Stands C m id status) :
    Says C (Lasts (m.pruned ++ more) id status) (m.store.append C env event job m.disk).2.1
      (m.store.append C env event job m.disk).2.2 id := by
  apply Says.mono (R := Lasts (m.pruned ++ more) id status) _ (Lasts.mono more)
  exact append_tells h.fit hvalid (absurd_kept hkept) hstands fun he => absurd he hid

/-- **A record of a job whose status does not stand yet.** -/
theorem Told.appended (h : Told C shown m) (hkept : env.kept.isSome = false) (hvalid : job.has_valid_resolution)
    (hquiet : shown ≠ some job.id → ∀ status,
      m.status_of job.id = some status ∨ (job.id, some status) ∈ m.reports →
      status.is_terminal = false) (hunregistered : m.status_of job.id = none →
      Says C Unsettled m.store m.disk job.id ∧ job.status.is_terminal = false)
    (hattached : (m.store.append C env event job m.disk).2.1.attached) :
    Told C shown (m.stored (m.store.append C env event job m.disk) notes) := by
  refine h.stored (append_fit h.fit hvalid hattached) ?_ ?_
  · intro id status hstands hid hknown hterminal
    refine h.append_others notes.pruned hkept hvalid ?_ hstands
    rintro rfl
    rw [hquiet hid status hknown] at hterminal
    cases hterminal
  intro id hnone hbefore
  by_cases hid : id = job.id
  · subst hid
    obtain ⟨hunsettled, hjob⟩ := hunregistered hnone
    refine .inr (append_tells h.fit hvalid (absurd_kept hkept) hunsettled
      fun _ status hstatus => ?_)
    rw [← some.inj hstatus]
    exact hjob
  · rcases hbefore with ⟨status, hterminal, hstands⟩ | hunsettled
    · exact .inl ⟨status, hterminal, h.append_others notes.pruned hkept hvalid hid hstands⟩
    · exact .inr (append_tells h.fit hvalid (absurd_kept hkept) hunsettled
        fun he => absurd he hid)

/-- A record of a job that was not terminal touches no report. -/
theorem Told.updated (h : Told C shown m) (hkept : env.kept.isSome = false)
    (hvalid : job.has_valid_resolution) (hopen : Open shown job.id m)
    (hattached : (m.store.append C env event job m.disk).2.1.attached) :
    Told C shown (m.stored (m.store.append C env event job m.disk) notes) := by
  refine h.appended hkept hvalid ?_ (fun hnone => absurd hnone hopen.registered) hattached
  intro hid status hknown
  obtain ⟨live, hlive⟩ := ne_none_iff_exists'.mp hopen.registered
  rcases hknown with hsame | hmem
  · exact hopen.live hid status hsame
  · exact h.unreported hlive (hopen.live hid live hlive) hmem

theorem Told.recorded (h : Told C shown m) (hkept : env.kept.isSome = false)
    (hvalid : job.has_valid_resolution)
    (hok : (m.store.append C env event job m.disk).1 = .ok ()) :
    Stands C (m.stored (m.store.append C env event job m.disk) notes) job.id job.status :=
  append_ok_tells h.fit hvalid (absurd_kept hkept) (.inl rfl) hok

section

variable {env : PruneEnv} {retained : ℕ} {notes : Notes}

/-- Retention leaves what stands, or has noted that it dropped the job. -/
theorem stands_pruned (hfit : Fit m.store m.disk)
    (hnotes : notes.pruned = if env.renames then excess_terminal retained m.store.index else [])
    (hkeeps : (!env.renames && journal_damaged C m.disk) = false) (hkept : env.kept.isSome = false)
    (hs : Stands C m id status) :
    Stands C (m.stored (m.store.prune_terminal C env.toCompactEnv retained m.disk) notes) id
      status := by
  refine prune_terminal_tells hfit (intact_of_kept hkeeps) hs (Lasts.mono _) (absurd_kept hkept) ?_
  intro hrenames hmem
  refine .inr ⟨rfl, mem_append_right _ ?_⟩
  rw [hnotes, if_pos hrenames]
  exact hmem

end

theorem Told.pruned (h : Told C none m) {env : PruneEnv} {retained : ℕ}
    (hnotes : notes.pruned = if env.renames then excess_terminal retained m.store.index else [])
    (hkeeps : (!env.renames && journal_damaged C m.disk) = false) (hkept : env.kept.isSome = false)
    (hattached : (m.store.prune_terminal C env.toCompactEnv retained m.disk).2.1.attached) :
    Told C none (m.stored (m.store.prune_terminal C env.toCompactEnv retained m.disk) notes) := by
  refine h.stored (prune_terminal_fit h.fit hattached)
    (fun _ _ hs _ _ _ => stands_pruned h.fit hnotes hkeeps hkept hs) ?_
  rintro id - (⟨status, hterminal, hs⟩ | hunsettled)
  · exact .inl ⟨status, hterminal, stands_pruned h.fit hnotes hkeeps hkept hs⟩
  · exact .inr (prune_terminal_tells h.fit (intact_of_kept hkeeps) hunsettled
      (fun _ hw => hw) (absurd_kept hkept) fun _ _ => nofun)

theorem Told.remains (h : Told C none m) : ToldLeft C m.remains where
  reported id status hmem hterminal := (h.stands id status (.inr hmem) hterminal nofun).journal
  answers := h.answers

theorem Telling.remains (h : Telling C none m) : TellingLeft C m.remains :=
  fun hretracted => (h hretracted).remains

/-! ## Recording -/

theorem Telling.read (h : Telling C shown m) (hshown : ∀ id, shown = some id → m.status_of id ≠ none)
    (readers : List JobId) : Telling C shown (m.read readers) :=
  fun hretracted => (h hretracted).read hshown readers

/-- The registry shows the job, in a status that is not terminal. -/
def Live (id : JobId) (m : Memory) : Prop :=
  ∃ status, m.status_of id = some status ∧ status.is_terminal = false

theorem Live.open (h : Live id m) : Open none id m := by
  obtain ⟨live, hlive, hterminal⟩ := h
  refine ⟨?_, fun _ status hstatus => ?_, nofun⟩
  · rw [hlive]
    nofun
  · rw [hlive] at hstatus
    cases hstatus
    exact hterminal

theorem live_set_job (m : Memory) (h : job.status.is_terminal = false) :
    Live job.id (m.set_job job) :=
  ⟨job.status, status_of_set_job_self m job, h⟩

variable (C) in
/-- The registry shows the job as live, and another state of it may be recorded. -/
structure Recordable (job : Job) (m : Memory) : Prop where
  telling : Telling C none m
  live : Live job.id m

variable {vital : Bool}

section

variable (h : Recordable C job m) (hvalid : job.has_valid_resolution) {env : WriteEnv}

include h hvalid

/-- **Recording a job that the registry shows as live**, whatever is recorded. -/
theorem Recordable.updated : Recordable C job (Write.after C config m (.update env job event vital)) := by
  refine ⟨fun hretracted => ?_, h.live⟩
  obtain ⟨hbefore, hattached, hnotes⟩ := not_retracted_stored hretracted
  have hread : Told C none (m.read env.readers) := h.telling.read nofun env.readers hbefore
  exact hread.updated (Bool.or_eq_false_iff.mp hnotes).2 hvalid (Live.open h.live) hattached

/-- A record that is acknowledged stands. -/
theorem Recordable.recorded (hok : ((Write.update env job event vital).answer C config m).1 = .ok ())
    (hretracted : (Write.after C config m (.update env job event vital)).retracted = false) :
    Stands C (Write.after C config m (.update env job event vital)) job.id job.status := by
  obtain ⟨hbefore, -, hnotes⟩ := not_retracted_stored hretracted
  exact (h.telling.read nofun env.readers hbefore).recorded (Bool.or_eq_false_iff.mp hnotes).2 hvalid
    hok

end

/-- **What was recorded first is shown.** -/
theorem Recordable.settle (h : Recordable C job m)
    (hstands : m.retracted = false → Stands C m job.id job.status) :
    Telling C none (m.set_job job) := by
  intro hretracted
  obtain ⟨live, hlive, hnot⟩ := h.live
  exact ((h.telling hretracted).expose fun _ =>
    (h.telling hretracted).unreported hlive hnot).settle (status_of_set_job_self m job)
      fun _ => hstands hretracted

theorem Telling.set_live (h : Telling C none m) {found : Job} (hid : found.id = job.id)
    (hget : Keyed.get Job.id found.id m.registry = some found)
    (hlive : found.status.is_terminal = false) (hjob : job.status.is_terminal = false) :
    Recordable C job (m.set_job job) := by
  refine ⟨fun hretracted => ?_, live_set_job m hjob⟩
  exact (h hretracted).set_live (hid ▸ status_of_get hget) hlive hjob

theorem Recordable.mark (h : Recordable C job m) {found : Job}
    (hget : Keyed.get Job.id job.id m.registry = some found) (reason : String) :
    Recordable C (found.require_reconciliation reason)
      (m.set_job (found.require_reconciliation reason)) := by
  obtain ⟨live, hlive, hnot⟩ := h.live
  rw [status_of_get hget] at hlive
  have hid : found.id = job.id := key_of_get hget
  exact h.telling.set_live (Job.require_reconciliation_id found reason).symm (hid ▸ hget)
    (some.inj hlive ▸ hnot) rfl

theorem Recordable.put_back (h : Recordable C job m) :
    Telling C none (m.set_registered (put_back job)) := by
  obtain ⟨live, hlive, hnot⟩ := h.live
  obtain ⟨registered, hregistered, -⟩ := map_eq_some_iff.mp hlive
  have hback : get Job.id (Scheduling.put_back job).id m.registry = some registered := hregistered
  rw [set_registered_eq hback]
  intro hretracted
  exact (h.telling hretracted).set_live hlive hnot rfl

theorem retracted_after {write : Write} (h : m.retracted) :
    (write.after C config m).retracted = true := by
  simp only [Write.after, Memory.stored, Memory.read, h, Bool.true_or]

theorem telling_of_retracted (h : m.retracted) : Telling C none m := by
  intro hretracted
  rw [h] at hretracted
  nomatch hretracted

variable (C) in
/-- The registry shows a job in a terminal status that is still to be recorded. -/
structure Shown (job : Job) (m : Memory) : Prop where
  telling : Telling C (some job.id) m
  registered : Keyed.get Job.id job.id m.registry = some job

theorem Shown.open (h : Shown C job m) : Open (some job.id) job.id m := by
  refine ⟨?_, fun hne => absurd rfl hne, fun other hother => (some.inj hother).symm⟩
  rw [status_of_get h.registered]
  nofun

theorem Shown.read (h : Shown C job m) (readers : List JobId) : Shown C job (m.read readers) :=
  { h with telling := h.telling.read h.open.known readers }

/-- A job that was shown too early is taken back, and somebody may have seen it. -/
theorem Shown.acknowledged (h : Shown C job m) (hterminal : job.status.is_terminal) {env : WriteEnv}
    (hretracted : (Write.after C config m (.update env job event vital)).retracted = false) :
    ((Write.update env job event vital).answer C config m).1 = .ok () := by
  have hshows : (m.read env.readers).shows_terminal job.id = true := by
    rw [Memory.shows_terminal, (h.read env.readers).registered]
    exact hterminal
  have hnotes : ((Write.update env job event vital).notes C config (m.read env.readers)).retracted
    = false := (not_retracted_stored hretracted).2.2
  have hresult := (Bool.or_eq_false_iff.mp hnotes).1
  rw [hshows, Bool.true_and, Bool.not_eq_false'] at hresult
  exact eq_ok_of_isOk hresult

/-- **Recording a terminal status that the registry shows already.** -/
theorem Shown.updated (h : Shown C job m) (hvalid : job.has_valid_resolution)
    (hterminal : job.status.is_terminal) {env : WriteEnv} :
    Telling C none (Write.after C config m (.update env job event vital)) := by
  intro hretracted
  obtain ⟨hbefore, hattached, hnotes⟩ := not_retracted_stored hretracted
  have hread := h.read env.readers
  have hkept : env.kept.isSome = false := (Bool.or_eq_false_iff.mp hnotes).2
  exact ((hread.telling hbefore).updated hkept hvalid hread.open hattached).settle
    (status_of_get h.registered) fun _ =>
      (hread.telling hbefore).recorded hkept hvalid (h.acknowledged hterminal hretracted)

theorem Telling.expose (h : Telling C none m) (hlive : Live job.id m) :
    Shown C job (m.set_job job) := by
  refine ⟨fun hretracted => ?_, get_set_job m job⟩
  obtain ⟨live, hstatus, hnot⟩ := hlive
  exact (h hretracted).expose fun _ => (h hretracted).unreported hstatus hnot

/-! ## Submitting and resolving -/

variable (C) in
/-- Nobody has heard of the job but the store, which has it in no terminal status. -/
structure Unheard (id : JobId) (m : Memory) : Prop where
  registry : m.status_of id = none
  reports : ∀ status, (id, some status) ∈ m.reports → status.is_terminal = false
  unsettled : Says C Unsettled m.store m.disk id

theorem Fresh.unheard (h : Fresh C id m) : Unheard C id m where
  registry := map_eq_none_iff.mpr h.registry
  reports status hmem := absurd rfl (h.reports (id, some status) hmem)
  unsettled := by
    constructor
    · rw [status_in, h.index]
      rintro _ ⟨⟩
    intro _
    have hjournal := h.journal
    unfold journal_jobs at hjournal
    obtain ⟨scan, hscan⟩ := scan_path_ok (C := C) m.disk
    rw [hscan] at hjournal
    rw [← status_in_scan hscan, status_in, hjournal]
    rintro _ ⟨⟩

theorem Unheard.read (h : Unheard C id m) (readers : List JobId) :
    Unheard C id (m.read readers) := by
  refine { h with reports := ?_ }
  intro status hmem
  rcases mem_append.mp hmem with hold | hnew
  · exact h.reports status hold
  obtain ⟨reader, -, heq⟩ := mem_map.mp hnew
  obtain ⟨rfl, hanswer⟩ := Prod.mk.inj heq
  exact h.unsettled.index status ((answer_of_unregistered h.registry).symm.trans hanswer)

/-- **A job that nobody has heard of is recorded as `Pending`.** -/
theorem Told.put (h : Told C none m) (hkept : env.kept.isSome = false) (hvalid : job.has_valid_resolution)
    (hstatus : job.status = .pending) (hunheard : Unheard C job.id m)
    (hattached : (m.store.append C env event job m.disk).2.1.attached) :
    Told C none (m.stored (m.store.append C env event job m.disk) notes) := by
  refine h.appended hkept hvalid ?_ (fun _ => ⟨hunheard.unsettled, hstatus ▸ rfl⟩) hattached
  rintro - status (hsame | hmem)
  · rw [hunheard.registry] at hsame
    nomatch hsame
  · exact hunheard.reports status hmem

/-! ## Opening -/

theorem reopened_status_is_terminal (status : JobStatus) :
    (reopened_status status).is_terminal = status.is_terminal := by
  cases status <;> rfl

/-- **Opening an undamaged journal.** Every status that was reported stands. -/
theorem ToldLeft.opened {left : Remains} (h : ToldLeft C left)
    (hintact : Intact C (left.disk.getD [])) {env : OpenEnv}
    (hkept : open_loses C env left.disk = false) :
    let pruned := left.pruned ++ open_prunes C env left.disk
    (∀ id status, (id, some status) ∈ left.reports → status.is_terminal = true →
        OpenSays C (Lasts pruned id status) id
          (open_store C env left.disk)) ∧
      ∀ m : Memory, (open_store C env left.disk) = (.ok m.store, m.disk) →
        m.pruned = pruned → Fit m.store m.disk ∧ ∀ id, Known C m id := by
  intro pruned
  have hsane : SaneDisk left.disk := by
    intro bytes hbytes
    rw [mem_def.mp hbytes] at hintact
    exact .inl hintact.whole
  -- the journal is not damaged
  have hopens {Q : Option JobStatus → Prop} {id : JobId}
      (hstatus : Q (status_in (reading C (left.disk.getD [])).latest id))
      (hreopened : ∀ status, Q (some status) → Q (some (reopened_status status)))
      (hdrop : id ∈ open_prunes C env left.disk → Q none) :
      OpenSays C Q id (open_store C env left.disk) :=
    open_store_tells env hsane (fun _ => hstatus) hreopened hdrop
      (fun hloses => absurd (hkept.symm.trans hloses) Bool.false_ne_true) fun hdamaged => absurd hintact hdamaged
  -- a terminal status is opened as it is: only `Running` is changed
  have hlasts : ∀ id status, status.is_terminal = true →
      Lasts left.pruned id status (status_in (reading C (left.disk.getD [])).latest id) →
      OpenSays C (Lasts pruned id status) id
        (open_store C env left.disk) := by
    intro id status hterminal hstatus
    refine hopens (hstatus.mono _ _) ?_ ?_
    · rintro found (hsame | ⟨hnone, -⟩)
      · left
        rw [some.inj hsame, reopened_status, if_neg]
        rintro rfl
        cases hterminal
      · cases hnone
    · intro hmem
      exact .inr ⟨rfl, mem_append_right _ hmem⟩
  refine ⟨fun id status hmem hterminal => hlasts id status hterminal
    (h.reported id status hmem hterminal hintact), ?_⟩
  intro m hopen hpruned
  have hok := congrArg Prod.fst hopen
  have hdisk : m.disk = (open_store C env left.disk).2 := by
    rw [hopen]
  constructor
  · rw [hdisk]
    exact (open_store_fit env hsane).2 m.store hok
  intro id
  unfold Known Stands
  rw [hdisk, hpruned]
  -- by the status in the journal
  by_cases hsettled : ∃ status, status_in (reading C (left.disk.getD [])).latest id = some status ∧
      status.is_terminal = true
  · obtain ⟨status, hstatus, hterminal⟩ := hsettled
    exact .inl ⟨status, hterminal,
      ((hlasts id status hterminal (.inl hstatus)).store m.store hok).1⟩
  refine .inr ((hopens (Q := Unsettled) ?_ ?_ fun _ => by rintro _ ⟨⟩).store m.store hok).1
  · exact fun status hstatus => eq_false_of_ne_true fun hterminal => hsettled ⟨status, hstatus, hterminal⟩
  · intro found hfound status hsame
    rw [← some.inj hsame, reopened_status_is_terminal]
    exact hfound found rfl

/-- **The jobs of the store are registered.** -/
theorem Told.hydrate (h : Told C none m) (hregistry : m.registry = []) (queue : List Job) :
    Told C none { m with registry := m.store.index, queue := queue } := by
  have hnone : ∀ id, m.status_of id = none := by
    intro id
    rw [Memory.status_of, hregistry]
    rfl
  refine
    { h with
      stands := ?_
      unregistered := fun id _ => h.unregistered id (hnone id)
      reported := ?_ }
  · rintro id status (hfound | hmem) hterminal -
    · rcases h.unregistered id (hnone id) with ⟨other, -, hs⟩ | hunsettled
      · exact hs.of_index hfound
      · rw [hunsettled.index status hfound] at hterminal
        cases hterminal
    · exact h.stands id status (.inr hmem) hterminal (by rintro ⟨⟩)
  · intro id status hmem hterminal
    exact (h.stands id status (.inr hmem) hterminal (by rintro ⟨⟩)).index.imp_right And.left

/-! ## A transition -/

variable (C) in
/-- The invariant in a transition that is under way. -/
def TellingAt : Position → Memory → Prop
  | .submitting job, m => Telling C none m ∧ Unheard C job.id m
  | .admitted job, m =>
    Telling C none m ∧ ∀ status, (job.id, some status) ∈ m.reports → status.is_terminal = false
  | .starting job, m | .unstarted job, m => Recordable C job m
  | .shown job _ _, m =>
    if job.status.is_terminal then Shown C job m else Recordable C job m
  | .unrecorded job _ _, m | .marked job _, m => m.retracted = true ∨ Recordable C job m
  | .recording job _, m | .aborted job _, m => Recordable C job m
  | .acknowledged job _, m =>
    Recordable C job m ∧ (m.retracted = false → Stands C m job.id job.status)
  | _, m => Telling C none m

theorem Telling.pruned (h : Telling C none m) (env : PruneEnv) :
    Telling C none (Write.after C config m (.prune env)) := by
  intro hretracted
  obtain ⟨hbefore, hattached, hnotes⟩ := not_retracted_stored hretracted
  obtain ⟨hkeeps, hkept⟩ := Bool.or_eq_false_iff.mp hnotes
  exact (h.read nofun env.readers hbefore).pruned rfl hkeeps hkept hattached

/-- **A write to the store** keeps what was reported, in memory and in what a crash leaves. -/
theorem TellingAt.write {t acknowledged failed : Position} {write : Write} (hm : TellingAt C t m)
    (hwrite : Writes t write acknowledged failed) (hordered : InOrder config t m)
    (hvalid : ∀ job ∈ t.job?, job.has_valid_resolution = true) :
    TellingAt C (Position.next acknowledged failed (write.answer C config m).1)
        (write.after C config m) ∧
      TellingLeft C (write.after C config m).remains := by
  have hnext (hafter : Telling C none (write.after C config m))
      (hok : (write.answer C config m).1 = .ok () →
        TellingAt C acknowledged (write.after C config m))
      (hfailed : TellingAt C failed (write.after C config m)) :=
    And.intro (Position.next_of (P := (TellingAt C · _)) hok hfailed) hafter.remains
  cases hwrite with
  | put env job =>
    -- nobody has been told of a job that is only now submitted
    obtain ⟨hm, hunheard⟩ := hm
    have hafter : Telling C none (Write.after C config m (.put env job)) := by
      intro hretracted
      obtain ⟨hbefore, hattached, hkept⟩ := not_retracted_stored hretracted
      exact (hm.read nofun env.readers hbefore).put hkept (hvalid job rfl) hordered.2.2.2
        (hunheard.read env.readers) hattached
    exact hnext hafter (fun _ => ⟨hafter, (hunheard.read env.readers).reports⟩) hafter
  | start env job =>
    have hafter : Recordable C job (Write.after C config m (.update env job .started false)) :=
      Recordable.updated hm (hvalid job rfl)
    exact hnext hafter.telling (fun _ => hafter.telling) hafter
  | persist env job event exposed =>
    have hjob := hvalid job rfl
    rw [TellingAt] at hm
    split at hm
    · rename_i hterminal
      -- if the record fails, the registry takes the status back
      refine ⟨?_, (hm.updated hjob hterminal).remains⟩
      cases hretracted :
        (Write.after C config m (.update env job event (exposed && env.crash))).retracted with
      | true =>
        exact Position.next_of (P := (TellingAt C · _)) (fun _ => hm.updated hjob hterminal)
          (.inl hretracted)
      | false =>
        rw [hm.acknowledged hterminal hretracted]
        exact hm.updated hjob hterminal
    · have hafter : Recordable C job
          (Write.after C config m (.update env job event (exposed && env.crash))) :=
        hm.updated hjob
      exact hnext hafter.telling (fun _ => hafter.telling) (.inr hafter)
  | reconcile env job vital =>
    have hafter : Telling C none (Write.after C config m (.update env job .recovered vital)) := by
      -- a status that was taken back is noted, and then nothing is claimed any more
      rcases hm with hretracted | hm
      · exact telling_of_retracted (retracted_after hretracted)
      · exact (hm.updated (hvalid job rfl)).telling
    exact hnext hafter (fun _ => hafter) hafter
  | record env job event before =>
    have hjob := hvalid job rfl
    have hafter : Recordable C job (Write.after C config m (.update env.locked job event false)) :=
      Recordable.updated hm hjob
    exact hnext hafter.telling (fun hok => ⟨hafter, Recordable.recorded hm hjob hok⟩) hafter.telling
  | abort env job jobs =>
    have hafter : Recordable C job
        (Write.after C config m (.update env.locked job .recovered false)) :=
      Recordable.updated hm (hvalid job rfl)
    exact hnext hafter.telling (fun _ => hafter.telling) hafter.telling
  | prune env =>
    have hafter : Telling C none (Write.after C config m (.prune env)) := Telling.pruned hm env
    exact hnext hafter (fun _ => hafter) hafter
  | reopen env =>
    have hafter : Telling C none (Write.after C config m (.prune env.unread)) :=
      Telling.pruned hm env.unread
    exact hnext hafter (fun _ => hafter) hafter

/-- **Every move of a transition** keeps what was reported; by cases on the move. -/
theorem TellingAt.move {deed : Deed} {t t' : Position} {m' : Memory} (hm : TellingAt C t m)
    (hmove : Moves C config deed t m t' m') (hordered : InOrder config t m) :
    TellingAt C t' m' := by
  cases hmove with
  | pass | rest | prune_store | skip | give_up => exact hm
  | submit hfresh => exact ⟨hm, (Memory.fresh_spec hfresh).unheard⟩
  | @enlist m job hroom =>
    obtain ⟨hm, hquiet⟩ := hm
    intro hretracted
    have hset := ((hm hretracted).expose hquiet).settle (status_of_set_job_self m job)
      (by rw [hordered.2.2.2]; nofun)
    exact { hset with }
  | refuse => exact hm.1
  | @take m queued job queue now hpermit hnext hstart =>
    obtain ⟨found, hget, hpending, hjob, -⟩ := hordered.starting hnext hstart
    have hid : found.id = job.id := key_of_get hget
    have hregistered : get Job.id job.id { m with queue := queue }.registry = some found := hget
    have htaken : Telling C none { m with queue := queue } := fun hretracted =>
      { hm hretracted with }
    rw [set_registered_eq hregistered]
    refine htaken.set_live hid (hid ▸ hget) (hpending ▸ rfl) ?_
    rw [hjob]
    rfl
  | put_back hback hroom =>
    rw [hback]
    exact fun hretracted => { Recordable.put_back hm hretracted with }
  | lose hback =>
    rw [hback]
    exact Recordable.put_back hm
  | @finish m found job event hget hrunning hjob =>
    have hleft : Telling C none { m with
        in_flight := m.in_flight.erase found.id, aborted := m.aborted.erase found.id } :=
      fun hretracted => { hm hretracted with }
    have hlive : found.status.is_terminal = false := by
      rw [hrunning]
      rfl
    rw [TellingAt]
    split
    · refine hleft.expose ⟨found.status, ?_, hlive⟩
      rw [hjob.id]
      exact status_of_get hget
    · rename_i hnot
      exact hleft.set_live hjob.id.symm hget hlive (eq_false_of_ne_true hnot)
  | mark reason hget => exact hm.imp id fun hm => hm.mark hget reason
  | vanish => exact hm.elim telling_of_retracted Recordable.telling
  | prune => exact fun hretracted => (hm hretracted).prune_registry hordered.1.unique _
  | @requeue m job hwaiting hpending hroom =>
    intro hretracted
    have hleft : Told C none { m with backoff := m.backoff.erase job } := { hm hretracted with }
    exact { hleft.set_live hpending rfl ((hordered.waiting job hwaiting).1 ▸ rfl) with }
  | @overflow m job now hwaiting hpending hfull =>
    have hleft : Telling C none { m with backoff := m.backoff.erase job } :=
      fun hretracted => { hm hretracted with }
    exact hleft.expose ⟨.pending, hpending, rfl⟩
  | @cancel_pending m found now hget hpending =>
    refine ⟨hm, .pending, ?_, rfl⟩
    rw [← hpending]
    exact status_of_get hget
  | cancelled => exact fun hretracted => { hm.1.settle hm.2 hretracted with }
  | cancel_running reason hget hrunning =>
    have hset := Telling.set_live hm (Job.require_reconciliation_id _ reason).symm hget
      (hrunning ▸ rfl) rfl
    exact .inr ⟨fun hretracted => { hset.telling hretracted with }, hset.live⟩
  | @latch m found env actor input hdeed hinput howner hget hstatus =>
    -- the latch changes no status
    have hset := @Telling.set_live { found with resolution_pending := true } C m hm found rfl hget
      (hstatus ▸ rfl) (hstatus ▸ rfl)
    exact ⟨hset.telling, hset.live⟩
  | resolved => exact hm.1.settle hm.2
  | abort m reason hrunning =>
    have hget := hordered.listed _ mem_cons_self
    exact Telling.set_live hm (Job.require_reconciliation_id _ reason).symm hget (hrunning ▸ rfl) rfl
  | look => exact Telling.read hm nofun _
  | hydrate => exact fun hretracted => (hm hretracted).hydrate hordered.registry _
  | discard | launch | leave | wait | wake | halt | halted | drop_task | shut_down =>
    exact fun hretracted => { hm hretracted with }

theorem keeps_telling (deed : Deed) :
    Keeps C config deed
      (fun t m => (InOrder config t m ∧ ValidAt t m) ∧ TellingAt C t m) (TellingLeft C) :=
  (keeps_valid deed).beside (fun hmove ho hm => hm.move hmove ho.1)
    (fun hwrite _ ho hm => (hm.write hwrite ho.1 ho.2.job).1)
    fun hwrite _ _ ho hm => (hm.write hwrite ho.1 ho.2.job).2

/-! ## Runs -/

variable (C) in
/-- A journal that is opened is not damaged. -/
def Undamaged : World → Happening → Prop
  | .down left, .open_journal _ _ => journal_damaged C left.disk = false
  | _, _ => True

instance (w : World) (happening : Happening) : Decidable (Undamaged C w happening) := by
  unfold Undamaged
  split <;> infer_instance

/-- **Whatever happens keeps the invariant**, if the journals that are opened are not damaged. -/
theorem lives_telling :
    Lives C config (Undamaged C)
      (fun t m => (InOrder config t m ∧ ValidAt t m) ∧ TellingAt C t m) (TellingLeft C) where
  deed _ hm := ⟨_, keeps_telling _, ⟨⟨hm.1.1, hm.1.2.ready⟩, hm.2⟩, fun _ hm => hm⟩
  observe hm := ⟨⟨{ hm.1.1 with }, hm.1.2.observe⟩, fun hretracted => { hm.2 hretracted with }⟩
  crash hm := hm.2.remains
  failed {left env prune error disk} hundamaged hleft hopen := by
    intro hretracted
    obtain ⟨hbefore, hkept⟩ := Bool.or_eq_false_iff.mp hretracted
    obtain ⟨hreported, -⟩ := (hleft hbefore).opened (intact_of_not_damaged hundamaged) hkept
    rw [hopen] at hreported
    exact ⟨fun id status hmem hterminal => (hreported id status hmem hterminal).journal,
      (hleft hbefore).answers.imp fun hab => hab.mono⟩
  opened {left env prune store disk} hundamaged hleft hopen := by
    refine ⟨⟨blank_reopened hopen, valid_reopened hopen⟩, fun hretracted => ?_⟩
    obtain ⟨hbefore, hkept⟩ := Bool.or_eq_false_iff.mp hretracted
    obtain ⟨hreported, hfound⟩ := (hleft hbefore).opened (intact_of_not_damaged hundamaged) hkept
    obtain ⟨hfit, hknown⟩ := hfound (left.reopened C env store disk) hopen rfl
    rw [hopen] at hreported
    exact
      { fit := hfit
        stands := fun id status hknown hterminal _ =>
          ((hreported id status (hknown.resolve_left nofun) hterminal).store store rfl).1
        unregistered := fun id _ => hknown id
        reported := fun _ _ _ _ => .inr rfl
        answers := (hleft hbefore).answers.imp fun hab => hab.mono }
  unopened hm hretracted := { (hm.2 hretracted).remains with }
  keeps := ⟨_, keeps_telling .request_shutdown⟩

variable (C config) in
/-- Worlds reached without opening a damaged journal. -/
abbrev ReachedUndamaged (w : World) : Prop :=
  Transition.Reachable (· = .down {}) (step C config) (Undamaged C) w

/-- **A terminal status that was reported is reported ever after**, or retention has dropped the
job: in every run in which no accident happens and no damaged journal is opened. -/
theorem reported_status_lasts {w : World} (h : ReachedUndamaged C config w)
    (hretracted : w.retracted = false) : w.reports.Pairwise (Agrees w.pruned) := by
  have hleft : TellingLeft C {} := fun _ =>
    ⟨nofun, Pairwise.nil⟩
  have hw := lives_telling.reached hleft h
  cases w with
  | up m => exact (hw.2 hretracted).answers
  | down left => exact (hw hretracted).answers

/-- A handler ends well, and somebody asks for the job while that is recorded and again later. -/
def asked_at_end (persist : WriteEnv) : List Happening :=
  one_started ++ [.deed (.finish_job { now := 2, outcome := .ok 0, persist := persist } 1),
    .deed (.get_job 1)]

/-- **A status is taken back.** The end of the handler cannot be recorded, but has been reported. -/
theorem completed_then_reconciliation_required :
    ∃ w, ReachedUndamaged wire_codec retrying w ∧
      w.reports = [(1, some .completed), (1, some .reconciliation_required)] := by
  refine Transition.exists_of_orderly_run (asked_at_end
    { write := some (0, ⟨.other, "no space left on device"⟩), readers := [1] }) rfl ?_
  decide +kernel

/-- A status that was recorded is reported also after a crash. -/
theorem completed_ever_after :
    ∃ w, ReachedUndamaged wire_codec retrying w ∧
      w.retracted = false ∧
      w.reports = [(1, some .completed), (1, some .completed), (1, some .completed)] ∧
      w.reports.Pairwise (Agrees w.pruned) := by
  obtain ⟨w, hreached, hretracted, hreports⟩ : ∃ w, ReachedUndamaged wire_codec retrying w ∧
      w.retracted = false ∧
        w.reports = [(1, some .completed), (1, some .completed), (1, some .completed)] := by
    refine Transition.exists_of_orderly_run (asked_at_end { readers := [1] } ++
      [.crash, .open_journal {} {}, .deed (.get_job 1)]) rfl ?_
    decide +kernel
  exact ⟨w, hreached, hretracted, hreports, reported_status_lasts hreached hretracted⟩

end BobbyBrowser.Scheduling
