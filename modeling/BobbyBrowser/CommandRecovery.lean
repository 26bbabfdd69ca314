/-
Recovering a command from the journal.

Commands are executed one after the other, under identifiers that may repeat, and
the process may stop anywhere in an execution. `recover_command` then decides from
the history of an identifier what became of the command.

It looks for the last outcome under the identifier before it looks at how far the
last attempt came. So an attempt that was cut short while a worker ran it is
reported with the outcome of an earlier attempt, and that may be one that invites
to try again. Likewise it takes the class of the command from the first envelope
under the identifier.
-/
import BobbyBrowser.ExecutorRun

set_option autoImplicit false

namespace BobbyBrowser.PageRuntime

open Outcomes Commands CommandLog Calls List Option
open Transition
open CommandJournal (JournalError)

/-! ## Runs -/

/-- An execution of a command, with the records its identifier had before. -/
structure Attempt where
  envelope : CommandEnvelope
  before : List Content
  calls : List Answered

/-- The durable state, and the last attempt under every identifier. -/
structure System where
  world : World := {}
  last : CommandId → Option Attempt := fun _ => none

inductive Action
  /-- `execute_with_session_gate`, in a process that stops after `fuel` calls if the execution
  needs more. -/
  | execute (envelope : CommandEnvelope) (gate : SessionGate) (env : Env) (fuel : ℕ)
  | recover (id : CommandId) (env : Env)
  /-- The end of the journal's file is damaged. -/
  | tear

section

variable (runtime : Runtime)

/-- The world after a process has executed a command, or has stopped in it. -/
def executed (envelope : CommandEnvelope) (gate : SessionGate) (env : Env) (fuel : ℕ) (w : World) :
    World :=
  (stop handler env fuel 0 (execute_with_session_gate runtime envelope gate)
    { w with calls := [] }).2

/-- What `recover_command` returns. -/
def recovered (id : CommandId) (env : Env) (w : World) : Outcome :=
  (run handler env 0 (recover_command runtime id) w).1

/-- The system after an execution, which is the last attempt under its identifier. -/
def System.execute (s : System) (envelope : CommandEnvelope) (gate : SessionGate) (env : Env)
    (fuel : ℕ) : System :=
  let world := executed runtime envelope gate env fuel s.world
  let attempt := ⟨envelope, s.world.log.of envelope.command_id, world.calls⟩
  { world := world
    last := fun id => if id = envelope.command_id then some attempt else s.last id }

/-- One step of a run. -/
def step (s : System) : Action → Option System
  | .execute envelope gate env fuel => some (s.execute runtime envelope gate env fuel)
  | .recover id env =>
    some { s with world := (run handler env 0 (recover_command runtime id) s.world).2 }
  | .tear => some { s with world := { s.world with log := { s.world.log with torn := true } } }

/-- Systems reached from an empty journal. -/
def Reached : System → Prop := Reachable (· = {}) (step runtime) fun _ _ => True

end

/-! ## What a history tells -/

/-- The outcome invites to try again. -/
def retryable : Outcome → Bool
  | .retryable_failure _ _ | .resource_exhausted _ _ _ => true
  | .failed _ error _ => error.retryable
  | .completed _ _ | .needs_reconciliation _ _ _ | .policy_denied _ _
  | .restarted _ _ _ _ _ => false

/-- The outcome asks for reconciliation. -/
def needs_reconciliation : Outcome → Bool
  | .needs_reconciliation _ _ _ => true
  | _ => false

/-- What `recover_records` decides. -/
def Decides (records : List Content) (outcome : Outcome) : Prop :=
  match last_outcome records with
  | some last => outcome = last
  | none =>
    if (last_prepared records).isSome || may_have_reached records then
      needs_reconciliation outcome = true
    else retryable outcome = true

variable {runtime : Runtime} {w : World} {id : CommandId}

/-- The calls of `recover_command`. -/
def Recovers : Call → Prop
  | .history _ | .finalize_prepared_download _ _ _ | .finalize_prepared_artifact _ _ _ _ _
  | .cleanup_prepared_download _ => True
  | _ => False

/-- Whatever the records are, recovering them finalizes or cleans up and dispatches nothing. -/
theorem only_recover_records (id : CommandId) (records : List Content) :
    Only Recovers (recover_records id records) := by
  have hdownload (prepared : PreparedResult) : Only Recovers (finalize_download prepared) := by
    unfold finalize_download
    split
    · exact only_pure _
    split
    · exact only_pure _
    split
    · exact only_pure _
    · refine only_ask_bind trivial ?_
      intro answer
      cases answer <;> exact only_pure _
  have hartifact (prepared : PreparedResult) :
      Only Recovers (finalize_artifact records prepared) := by
    unfold finalize_artifact
    split
    · split
      · exact only_pure _
      · refine only_ask_bind trivial ?_
        intro answer
        cases answer <;> exact only_pure _
    · exact only_pure _
  unfold recover_records
  split
  · refine only_bind ?_ fun _ => only_pure _
    unfold cleanup_download
    split
    · exact only_ask_bind trivial fun _ => only_pure _
    · exact only_pure _
  split
  · refine only_bind (hdownload _) ?_
    intro error
    cases error with
    | some error => exact only_pure _
    | none =>
      refine only_bind (hartifact _) ?_
      intro error
      cases error <;> exact only_pure _
  · split <;> exact only_pure _

theorem only_recover_command (runtime : Runtime) (id : CommandId) :
    Only Recovers (recover_command runtime id) := by
  unfold recover_command
  split
  · exact only_pure _
  refine only_ask_bind trivial ?_
  intro answer
  cases answer with
  | error error => exact only_pure _
  | ok scan =>
    simp only
    split
    · exact only_pure _
    · exact only_recover_records id scan.records

/-- **What is decided from an undamaged history**, whatever the files of a prepared result are
like. -/
theorem holds_recover_records (records : List Content) :
    Holds handler (fun _ => True) (recover_records id records)
      (fun outcome _ => Decides records outcome) w := by
  have hany {α : Type} (p : Prog α) (w : World) :
      Holds handler (fun _ => True) p (fun _ _ => True) w :=
    (only_all p).holds (fun _ _ _ _ _ => trivial) trivial
  unfold recover_records Decides
  cases hlast : last_outcome records with
  | some outcome => exact holds_bind ((hany _ w).post fun _ _ _ => rfl)
  | none =>
    cases hprepared : last_prepared records with
    | some prepared =>
      apply holds_bind
      refine (hany _ w).post ?_
      intro error w₁ _
      cases error with
      | some error => exact rfl
      | none =>
        apply holds_bind
        refine (hany _ w₁).post ?_
        intro error w₂ _
        cases error with
        | some | none => exact rfl
    | none =>
      simp only [isSome_none, Bool.false_or]
      split
      · exact rfl
      · exact rfl

/-- What reading the history of a command answers. -/
def read (id : CommandId) (env : Env) (w : World) : Except JournalError (History Content) :=
  (w.log.history (env.choose 0 (.history id)) id).1

/-- **What `recover_command` returns**, by what the read of the history answers. -/
theorem recovered_spec (hjournal : runtime.journal) (env : Env) (w : World) :
    ((∀ scan, read id env w = .ok scan → scan.damaged = true) →
      needs_reconciliation (recovered runtime id env w) = true) ∧
    ∀ scan, read id env w = .ok scan → scan.damaged = false →
      Decides scan.records (recovered runtime id env w) := by
  unfold recovered recover_command
  rw [hjournal, if_neg (by decide), PageRuntime.ask, run_ask_bind]
  have hread : (handler.handle (.history id) (env.choose 0 (.history id)) w).1 = read id env w :=
    rfl
  rw [hread]
  generalize (handler.handle (.history id) (env.choose 0 (.history id)) w).2 = w₁
  cases read id env w with
  | error error => exact ⟨fun _ => rfl, nofun⟩
  | ok scan =>
    simp only
    constructor
    · intro hdamaged
      rw [if_pos (hdamaged scan rfl)]
      rfl
    · rintro _ ⟨⟩ hclean
      rw [hclean, if_neg Bool.false_ne_true]
      exact (holds_recover_records scan.records).run env 1

/-- A recovery writes no record: the journal keeps what it had. -/
theorem recover_kept (env : Env) (w : World) :
    w.log.Kept (run handler env 0 (recover_command runtime id) w).2.log := by
  have hholds : Holds handler (fun w' => w.log.Kept w'.log) (recover_command runtime id)
      (fun _ w' => w.log.Kept w'.log) w := by
    refine (only_recover_command runtime id).holds ?_ (Log.Kept.refl w.log)
    intro call hcall choice w' hw'
    cases call with
    | history id => exact hw'.trans (Log.history_spec choice id w'.log).1
    | finalize_prepared_download | finalize_prepared_artifact | cleanup_prepared_download =>
      exact hw'
    | _ => exact hcall.elim
  exact hholds.run env 0

/-! ## The records of the last attempt -/

/-- The last attempts are where the journal says they are. -/
def Attempted (runtime : Runtime) (s : System) : Prop :=
  ∀ id attempt, s.last id = some attempt → attempt.envelope.command_id = id ∧
    (id ∉ s.world.log.reserved → ∃ added, s.world.log.of id = attempt.before ++ added ∧
      Added runtime attempt.envelope (ran attempt.calls) (acknowledged attempt.calls) added)

variable {s : System}

theorem Attempted.kept (h : Attempted runtime s) {w : World}
    (hk : s.world.log.Kept w.log) : Attempted runtime { s with world := w } := by
  intro id attempt hlast
  obtain ⟨hid, hrecords⟩ := h id attempt hlast
  refine ⟨hid, ?_⟩
  intro hfree
  rw [hk.of id hfree]
  exact hrecords fun hr => hfree (hk.reserved id hr)

/-- **An execution that may stop anywhere** leaves the records of one attempt behind those from
before it. -/
theorem executed_stopped (envelope : CommandEnvelope) (gate : SessionGate) (env : Env) (fuel : ℕ)
    (w : World) : Stopped runtime envelope w.log (executed runtime envelope gate env fuel w) := by
  let start : World := { w with calls := [] }
  have h : Holds handler (Stopped runtime envelope start.log)
      (execute_with_session_gate runtime envelope gate)
      (fun _ => Stopped runtime envelope start.log) start :=
    execute_stopped gate rfl
  have hstop := h.stop env fuel 0
  unfold executed
  revert hstop
  rcases stop handler env fuel 0 (execute_with_session_gate runtime envelope gate)
    { w with calls := [] } with ⟨_ | outcome, w'⟩
  · exact fun h => h
  · exact fun h => h

/-- An execution becomes its command's last attempt, and leaves the attempts of the others where
they were. -/
theorem Attempted.execute (h : Attempted runtime s) (envelope : CommandEnvelope)
    (gate : SessionGate) (env : Env) (fuel : ℕ) :
    Attempted runtime (s.execute runtime envelope gate env fuel) := by
  have hstopped : Stopped runtime envelope s.world.log
      (executed runtime envelope gate env fuel s.world) :=
    executed_stopped envelope gate env fuel s.world
  obtain ⟨added, hwrote, hadded⟩ := hstopped
  intro id attempt hlast
  simp only [System.execute] at hlast
  split at hlast
  · rename_i hid
    rw [← some.inj hlast, hid]
    exact ⟨rfl, fun hfree => ⟨added, hwrote.own hfree, hadded⟩⟩
  rename_i hid
  obtain ⟨hattempt, hrecords⟩ := h id attempt hlast
  refine ⟨hattempt, ?_⟩
  intro hfree
  change ∃ added, (executed runtime envelope gate env fuel s.world).log.of id = _ ∧ _
  rw [hwrote.others id hid hfree]
  exact hrecords fun hr => hfree (hwrote.reserved id hr)

/-- **Every step** keeps the attempts where the journal says they are. -/
theorem Attempted.step {t : System} {action : Action} (h : Attempted runtime s)
    (ht : PageRuntime.step runtime s action = some t) : Attempted runtime t := by
  cases action with
  | execute envelope gate env fuel =>
    cases ht
    exact h.execute envelope gate env fuel
  | recover id env =>
    cases ht
    exact h.kept (recover_kept env s.world)
  | tear =>
    cases ht
    exact h.kept ⟨fun _ hr => hr, fun _ _ => rfl⟩

theorem Reached.attempted (h : Reached runtime s) : Attempted runtime s := by
  refine Reachable.invariant ?_ ?_ h
  · intro s hs id attempt hlast
    rw [hs] at hlast
    nomatch hlast
  · intro s action t hs _ ht
    exact hs.step ht

variable (before : List Content)

theorem last_outcome_append (added : List Content) :
    last_outcome (before ++ added) = (last_outcome added).or (last_outcome before) := by
  rw [last_outcome, reverse_append, findSome?_append]
  rfl

theorem last_prepared_append (added : List Content) :
    last_prepared (before ++ added) = (last_prepared added).or (last_prepared before) := by
  rw [last_prepared, reverse_append, findSome?_append]
  rfl

variable {outcome : Outcome}

section

variable {envelope : CommandEnvelope} {midway : List Content}

theorem Added.last_outcome {attempted : Bool} {added : List Content}
    (h : Added runtime envelope attempted (some outcome) added) :
    PageRuntime.last_outcome added = some outcome := by
  cases h with
  | ended _ midway hmidway phase outcome' _ hstored =>
    rw [last_outcome_append]
    rcases hstored with hstored | hstored
    · nomatch hstored
    · rw [some.inj hstored]
      rfl

/-- An attempt that a worker ran, and that has journaled no outcome, stands between its admission
and its end. -/
theorem Added.running_of_ran {stored : Option Outcome} {added : List Content}
    (h : Added runtime envelope true stored added) (hopen : PageRuntime.last_outcome added = none) :
    ∃ midway, (∀ c ∈ midway, Midway c) ∧ added = admissions runtime envelope ++ midway := by
  cases h with
  | running _ midway hmidway => exact ⟨midway, hmidway, rfl⟩
  | ended _ midway hmidway phase outcome _ hstored =>
    rw [last_outcome_append] at hopen
    nomatch hopen

/-- Its last phase is then one in which the command may have reached the browser, unless a result
was prepared. -/
theorem last_phase_running (h : ∀ c ∈ midway, Midway c) (hprepared : last_prepared midway = none) :
    (((before ++ (admissions runtime envelope ++ midway)).getLast?.map Content.phase).any
      fun phase => phase = .executing || phase = .verifying) = true := by
  rcases eq_nil_or_concat midway with hnil | ⟨rest, last, hlast⟩
  · rw [hnil, append_nil]
    have hadmissions : (admissions runtime envelope).getLast?
        = some (admission_record runtime envelope .executing) := rfl
    rw [getLast?_append, hadmissions]
    rfl
  rw [hlast, concat_eq_append, ← append_assoc, ← append_assoc, getLast?_concat]
  have hmem : last ∈ midway := by
    rw [hlast, concat_eq_append]
    exact mem_append_right _ mem_cons_self
  rcases (h last hmem).2 with hphase | hresult
  · simp [hphase]
  · -- a prepared result would be found
    rw [last_prepared, findSome?_eq_none_iff] at hprepared
    rw [hprepared last (mem_reverse.mpr hmem)] at hresult
    nomatch hresult

theorem first_envelope_running :
    (before ++ (admissions runtime envelope ++ midway)).findSome? Content.envelope
      = (before.findSome? Content.envelope).or (some (envelope.journal_safe runtime.safe_url)) := by
  rw [findSome?_append, findSome?_append]
  rfl

end

/-- What was journaled under an identifier before its last attempt hides that a worker ran it: the
last outcome of an earlier attempt invites to try again, or there is none, nor a prepared result,
and the first command under the identifier was replayable. -/
def Misled (before records : List Content) : Prop :=
  match last_outcome before with
  | some outcome => retryable outcome = true
  | none =>
    last_prepared records = none ∧
      ∃ first, before.findSome? Content.envelope = some first ∧ first.command.class = .replayable

theorem needs_reconciliation_ne (h : needs_reconciliation outcome) : retryable outcome ≠ true := by
  cases outcome with
  | needs_reconciliation id error evidence => nofun
  | _ => nomatch h

/-- **When an attempt that was cut short is reported as retryable.** -/
theorem decides_retryable {attempt : Attempt} {added : List Content}
    (hclass : attempt.envelope.command.class ≠ .replayable)
    (hadded : Added runtime attempt.envelope true (acknowledged attempt.calls) added)
    (hopen : last_outcome added = none) (h : Decides (attempt.before ++ added) outcome) :
    retryable outcome = true ↔ Misled attempt.before (attempt.before ++ added) := by
  obtain ⟨midway, hmidway, hrunning⟩ := hadded.running_of_ran hopen
  unfold Decides at h
  rw [last_outcome_append, hopen, none_or] at h
  unfold Misled
  cases hbefore : last_outcome attempt.before with
  | some earlier =>
    rw [hbefore] at h
    rw [h]
  | none =>
    rw [hbefore] at h
    cases hprepared : last_prepared (attempt.before ++ added) with
    | some prepared =>
      rw [hprepared, isSome_some, Bool.true_or, if_pos rfl] at h
      refine ⟨fun hr => absurd hr (needs_reconciliation_ne h), ?_⟩
      rintro ⟨hnone, -⟩
      exact absurd hnone (some_ne_none prepared)
    | none =>
      rw [hprepared, isSome_none, Bool.false_or] at h
      have hnone : last_prepared midway = none := by
        rw [hrunning, last_prepared_append, last_prepared_append] at hprepared
        exact (or_eq_none_iff.mp (or_eq_none_iff.mp hprepared).1).1
      have hphase : (((attempt.before ++ added).getLast?.map Content.phase).any
          fun phase => phase = .executing || phase = .verifying) = true := by
        rw [hrunning]
        exact last_phase_running attempt.before hmidway hnone
      have hreached : may_have_reached (attempt.before ++ added)
          = ((attempt.before ++ added).findSome? Content.envelope).any
              (fun envelope => envelope.command.class ≠ .replayable) := by
        rw [may_have_reached, hphase, Bool.and_true]
      rw [hreached, hrunning, first_envelope_running] at h
      cases hfirst : attempt.before.findSome? Content.envelope with
      | none =>
        -- the attempt's own envelope is the first
        rw [hfirst, none_or, any_some, class_journal_safe, if_pos (decide_eq_true hclass)] at h
        refine ⟨fun hr => absurd hr (needs_reconciliation_ne h), ?_⟩
        rintro ⟨-, first, hfirst', -⟩
        exact absurd hfirst'.symm (some_ne_none first)
      | some first =>
        rw [hfirst, some_or, any_some] at h
        by_cases hreplayable : first.command.class = .replayable
        · rw [if_neg (by simp [hreplayable])] at h
          exact ⟨fun _ => ⟨rfl, first, rfl, hreplayable⟩, fun _ => h⟩
        rw [if_pos (decide_eq_true hreplayable)] at h
        refine ⟨fun hr => absurd hr (needs_reconciliation_ne h), ?_⟩
        rintro ⟨-, first', hfirst', hreplayable'⟩
        rw [← some.inj hfirst'] at hreplayable'
        exact absurd hreplayable' hreplayable

/-- What the last attempt under an identifier has added to its records. -/
def added (s : System) (id : CommandId) (attempt : Attempt) : List Content :=
  (s.world.log.of id).drop attempt.before.length

/-- **Recovering a command**, after any executions that may have been cut short anywhere. A torn or
damaged history asks for reconciliation. From an undamaged one the durable outcome of the last
attempt is returned. And a command that may not be repeated, that a worker ran, and whose last
attempt has no durable outcome is reported as retryable exactly when the records of earlier attempts
mislead. -/
theorem recover_command_after_stop (hjournal : runtime.journal = true) {s : System}
    (h : Reached runtime s) (id : CommandId) (env : Env) :
    (s.world.log.torn = true ∨ id ∈ s.world.log.reserved →
      needs_reconciliation (recovered runtime id env s.world) = true) ∧
    ((∀ scan, read id env s.world = .ok scan → scan.damaged = true) →
      needs_reconciliation (recovered runtime id env s.world) = true) ∧
    ∀ scan, read id env s.world = .ok scan → scan.damaged = false →
      ∀ attempt, s.last id = some attempt →
        (∀ outcome, acknowledged attempt.calls = some outcome →
          last_outcome (added s id attempt) = some outcome) ∧
        (∀ outcome, last_outcome (added s id attempt) = some outcome →
          recovered runtime id env s.world = outcome) ∧
        (attempt.envelope.command.class ≠ .replayable → ran attempt.calls = true →
          last_outcome (added s id attempt) = none →
          (retryable (recovered runtime id env s.world) = true
            ↔ Misled attempt.before (s.world.log.of id))) := by
  obtain ⟨hdamaged, hdecides⟩ := @recovered_spec runtime id hjournal env s.world
  refine ⟨?_, hdamaged, ?_⟩
  · intro huncertain
    exact hdamaged fun scan hscan => Log.damaged_of_uncertain _ huncertain hscan
  intro scan hread hclean attempt hlast
  obtain ⟨hkept, hrecords⟩ := Log.history_spec (env.choose 0 (.history id)) id s.world.log
  obtain ⟨hfree, hof⟩ := hrecords scan hread hclean
  obtain ⟨-, hattempt⟩ := h.attempted id attempt hlast
  obtain ⟨new, hnew, hadded⟩ := hattempt fun hr => hfree (hkept.reserved id hr)
  have hadd : added s id attempt = new := by
    rw [added, hnew, drop_left]
  have hspec := hdecides scan hread hclean
  rw [hof, hnew] at hspec
  rw [hadd, hnew]
  refine ⟨?_, ?_, ?_⟩
  · intro outcome hstored
    rw [hstored] at hadded
    exact hadded.last_outcome
  · intro outcome houtcome
    rw [Decides, last_outcome_append, houtcome, some_or] at hspec
    exact hspec
  · intro hclass hran hopen
    rw [hran] at hadded
    exact decides_retryable hclass hadded hopen hspec

/-! ### A click that is sent twice under one identifier -/

/-- A click that is verified by the URL it leads to. -/
def sent_click : CommandEnvelope where
  command_id := 1
  workflow_id := 2
  attempt_id := 3
  session_id := 4
  page_id := some 5
  deadline := 100
  command := .primitive (.click
    { selector := "#send", boundary := false, expected_url := some "https://a.example/sent" })

/-- The page the click is on. -/
def open_page : PageState := ⟨5, 4, none⟩

/-- The click lands, and the page does not get to the URL. -/
def unverified : Env where
  choose _ call := match call with
    | .verify _ _ _ _ => .error (verification_error "click did not reach expected URL")
    | call => calm open_page call
  fired _ := false

/-- The click is sent and its verification fails; then it is sent again, and the process stops while
a worker runs it. -/
def resent : System :=
  (System.execute {} {} sent_click {} unverified 100).execute {} sent_click {} unverified 10

theorem reached_resent : Reached {} resent := by
  have hfirst : Reached {} (System.execute {} {} sent_click {} unverified 100) :=
    .next (.start rfl) trivial (a := .execute sent_click {} unverified 100) rfl
  exact .next hfirst trivial (a := .execute sent_click {} unverified 10) rfl

/-- Its failed verification is what recovery then returns, although the second click may have
landed. -/
theorem resent_click_retryable :
    ∃ attempt, Reached {} resent ∧ resent.last 1 = some attempt ∧
      attempt.envelope.command.class ≠ .replayable ∧ ran attempt.calls = true ∧
      last_outcome (added resent 1 attempt) = none ∧
      retryable (recovered {} 1 unverified resent.world) = true := by
  refine ⟨_, reached_resent, rfl, ?_, ?_, ?_, ?_⟩
  · decide +kernel
  · decide +kernel
  · decide +kernel
  · decide +kernel

/-- The same click once: the process stops while a worker runs it, and it asks for
reconciliation. -/
def sent_once : System := System.execute {} {} sent_click {} unverified 10

/-- A command that was dispatched once and stopped there needs reconciliation and is not
retryable. -/
theorem sent_once_not_retryable :
    needs_reconciliation (recovered {} 1 unverified sent_once.world) = true ∧
      retryable (recovered {} 1 unverified sent_once.world) ≠ true := by
  have hreached : Reached {} sent_once :=
    .next (.start rfl) trivial (a := .execute sent_click {} unverified 10) rfl
  have hspec := (recover_command_after_stop rfl hreached 1 unverified).2.2 _ rfl rfl _ rfl
  have hmisled := hspec.2.2 (by decide +kernel) (by decide +kernel) (by decide +kernel)
  refine ⟨by decide +kernel, ?_⟩
  rw [Ne, hmisled]
  rintro ⟨-, first, hfirst, -⟩
  nomatch hfirst

end BobbyBrowser.PageRuntime
