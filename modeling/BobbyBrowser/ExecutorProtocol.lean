/-
The protocol of an execution.

An execution journals its admission, gets a worker and writes the settings of the
session to it, has the worker run the command, and concludes. After a lost
connection it looks for the page again, and only a replayable command is run a
second time. `Moves` tells which call can be made where, and where its answer
leads. The program is followed through it once; what holds of an execution is then
read off the moves.
-/
import BobbyBrowser.Executor

set_option autoImplicit false

namespace BobbyBrowser.PageRuntime

open Outcomes Commands Calls
open CommandJournal (JournalError)

/-! ## Where an execution stands -/

/-- The phases that an admission journals. -/
abbrev admission_phases : List CommandPhase := [.accepted, .prepared, .executing]

inductive Stage
  /-- These phases are journaled, and the command was not run. -/
  | admitting (phases : List CommandPhase)
  /-- The command was run so often, and failed last. -/
  | failed (runs : ℕ) (failure : AdaptiveFailure)
  /-- The command was run so often, and left this evidence last. -/
  | ran (runs : ℕ) (evidence : List Evidence)
  | verifying (evidence : List Evidence)
  | verified (evidence : List Evidence)
  | unverified (error : CommandError)
  | ended (outcome : Outcome)

/-- The worker that an execution has, and what was written to it. -/
inductive Hand
  | empty
  | fingerprinted (worker : WorkerId)
  | ready (worker : WorkerId)

structure Position where
  stage : Stage
  hand : Hand

/-- The transport may be lost, which the executor tries to mend. -/
def transport_lost (error : CommandError) : Bool :=
  is_dead_worker_error error || error.message = "browser page is not open"

/-- The outcome does not say that the command has completed. -/
def Uncompleted (outcome : Outcome) : Prop := ∀ id evidence, outcome ≠ .completed id evidence

/-- How a command fails. -/
def Fails (envelope : CommandEnvelope) : Stage → Outcome → Prop
  | .admitting _, outcome => Uncompleted outcome
  | .failed _ failure, outcome =>
    outcome = classify_failure envelope failure.error failure.evidence ∨
      transport_lost failure.error = true ∧ Uncompleted outcome
  | .ran _ evidence, outcome => ∃ error, outcome = prepared_failure envelope error evidence
  | .verifying evidence, outcome =>
    (∃ intent, envelope.command = .intent intent) ∧
      evidence.any (· = .intent_execution) = false ∧
      ∃ error, outcome = classify_failure envelope error []
  | .unverified error, outcome => outcome = classify_failure envelope error []
  | _, _ => False

/-- How a command completes. An intent verifies itself. -/
def Succeeds (envelope : CommandEnvelope) : Stage → List Evidence → Prop
  | .verifying found, evidence =>
    (∃ intent, envelope.command = .intent intent) ∧
      found.any (· = .intent_execution) = true ∧ evidence = found
  | .verified found, evidence => evidence = found
  | _, _ => False

/-- The admission is not under way. -/
def Stage.Admitted (stage : Stage) : Prop :=
  ∀ phases, stage = .admitting phases → phases = admission_phases

/-- The outcome that is journaled last. -/
def Concludes (envelope : CommandEnvelope) (stage : Stage) (outcome : Outcome) : Prop :=
  Fails envelope stage outcome ∧ stage.Admitted ∨
    ∃ evidence, Succeeds envelope stage evidence ∧ outcome = .completed envelope.command_id evidence

/-- The command may be run: it was not run yet, or once, is replayable and its transport was lost. -/
inductive Ready (envelope : CommandEnvelope) : Stage → ℕ → List Evidence → Prop
  | first : Ready envelope (.admitting admission_phases) 0 []
  | again (failure : AdaptiveFailure) (note : List Evidence)
      (hclass : envelope.command.class = .replayable)
      (hnote : note = [] ∨ note = [reattach_evidence]) : Ready envelope (.failed 1 failure) 1 note

/-! ## Which calls it makes -/

/-- The calls that leave an execution where it stands: they look at what is there, find a worker,
or need the one that is ready. -/
def Resting (hand : Hand) : Call → Prop
  | .now | .get_page _ | .load_checkpoint _ | .lease _ | .invalidate_session_if_worker _ _
  | .list_pages _ | .reconnect_live_process _ | .commit_http_state _ _ => True
  | .open_page worker _ | .navigate worker _ _ | .inspect worker _ _ => hand = .ready worker
  | _ => False

section

variable (envelope : CommandEnvelope)

def after_admission (phases : List CommandPhase) (phase : CommandPhase) :
    Except JournalError Unit → Stage
  | .ok () => .admitting (phases ++ [phase])
  | .error error => .ended (journal_failure envelope error false)

def after_run (runs : ℕ) (note : List Evidence) : Except AdaptiveFailure AdaptiveExecution → Stage
  | .ok execution => .ran (runs + 1) (execution.evidence ++ note)
  | .error failure => .failed (runs + 1) failure

def after_prepare (runs : ℕ) (evidence : List Evidence) : Except CommandError Unit → Stage
  | .ok () => .ran runs evidence
  | .error error => .ended (prepared_failure envelope error evidence)

def after_mark (evidence : List Evidence) : Except JournalError Unit → Stage
  | .ok () => .verifying evidence
  | .error error => .ended (journal_failure envelope error true)

def after_verify : Except CommandError (List Evidence) → Stage
  | .ok evidence => .verified evidence
  | .error error => .unverified error

/-- The outcome that is reported, when it was to be journaled. -/
def reported (outcome : Outcome) : Except JournalError Unit → Outcome
  | .ok () => outcome
  | .error error => journal_failure envelope error true

variable (runtime : Runtime) (gate : SessionGate)

/-- **The protocol of an execution**: from where, by which call and answer, to where. -/
inductive Moves : Position → (call : Call) → Res call → Position → Prop
  | rest (stage : Stage) {hand : Hand} {call : Call} (answer : Res call) (h : Resting hand call) :
    Moves ⟨stage, hand⟩ call answer ⟨stage, hand⟩
  | record (hand : Hand) {phases : List CommandPhase} {phase : CommandPhase}
      (answer : Except JournalError Unit) (h : phases ++ [phase] <+: admission_phases) :
    Moves ⟨.admitting phases, hand⟩
      (.append envelope.command_id (admission_record runtime envelope phase)) answer
      ⟨after_admission envelope phases phase answer, hand⟩
  | fingerprint (stage : Stage) (hand : Hand) (worker : WorkerId)
      (answer : Except CommandError Unit) :
    Moves ⟨stage, hand⟩ (.set_fingerprint_enabled worker gate.fingerprint) answer
      ⟨stage, .fingerprinted worker⟩
  | humanize (stage : Stage) (worker : WorkerId) (answer : Except CommandError Unit) :
    Moves ⟨stage, .fingerprinted worker⟩ (.set_humanization_enabled worker gate.humanize) answer
      ⟨stage, .ready worker⟩
  | run {stage : Stage} {worker : WorkerId} {runs : ℕ} {note : List Evidence}
      (page : Option PageState) (answer : Except AdaptiveFailure AdaptiveExecution)
      (h : Ready envelope stage runs note) :
    Moves ⟨stage, .ready worker⟩ (.adaptive_execute worker envelope page gate) answer
      ⟨after_run runs note answer, .ready worker⟩
  | prepare {runs : ℕ} {evidence : List Evidence} (hand : Hand) (result : PreparedResult)
      (answer : Except CommandError Unit) :
    Moves ⟨.ran runs evidence, hand⟩
      (.durable_prepare envelope.command_id (prepared_record result)) answer
      ⟨after_prepare envelope runs evidence answer, hand⟩
  | mark {runs : ℕ} {evidence : List Evidence} (hand : Hand) (answer : Except JournalError Unit) :
    Moves ⟨.ran runs evidence, hand⟩ (.append envelope.command_id { phase := .verifying }) answer
      ⟨after_mark envelope evidence answer, hand⟩
  | verify {evidence : List Evidence} {worker : WorkerId} (typed_on : Option String)
      (answer : Except CommandError (List Evidence)) {primitive : PrimitiveCommand}
      (h : envelope.command = .primitive primitive) :
    Moves ⟨.verifying evidence, .ready worker⟩ (.verify worker envelope evidence typed_on) answer
      ⟨after_verify answer, .ready worker⟩
  | finish {stage : Stage} (hand : Hand) (phase : CommandPhase) {outcome : Outcome}
      (answer : Except JournalError Unit) (h : Concludes envelope stage outcome) :
    Moves ⟨stage, hand⟩ (.append envelope.command_id (terminal_record runtime phase outcome)) answer
      ⟨.ended (reported envelope outcome answer), hand⟩

/-- Where an execution returns. -/
def Ends (outcome : Outcome) (position : Position) : Prop :=
  position.stage = .ended outcome ∨ Fails envelope position.stage outcome

/-- A part of the execution leads here, or ends it. -/
def Passes (here : Position) : Except Outcome Unit → Position → Prop
  | .ok (), position => position = here
  | .error outcome, position => Ends envelope outcome position

/-- Where the command was run, or not. -/
def Results : ExecutionResult → Position → Prop
  | .ok (execution, worker), position =>
    ∃ runs, position = ⟨.ran runs execution.evidence, .ready worker⟩
  | .error outcome, position => Ends envelope outcome position

end

variable {runtime : Runtime} {envelope : CommandEnvelope} {gate : SessionGate} {worker : WorkerId}
  {stage : Stage} {hand : Hand} {outcome : Outcome} {failure : AdaptiveFailure}

/-! ## Outcomes -/

theorem uncompleted_classify_failure (error : CommandError) (evidence : List Evidence) :
    Uncompleted (classify_failure envelope error evidence) := by
  unfold classify_failure
  simp only
  split
  · nofun
  · split
    · nofun
    · split <;> nofun

theorem uncompleted_journal_failure (error : JournalError) (may_have_executed : Bool) :
    Uncompleted (journal_failure envelope error may_have_executed) := by
  unfold journal_failure
  split <;> nofun

/-- No stage fails with the outcome of a command that has completed. -/
theorem Fails.uncompleted (h : Fails envelope stage outcome) : Uncompleted outcome := by
  cases stage with
  | admitting phases => exact h
  | failed runs failure =>
    rcases h with rfl | ⟨-, h⟩
    · exact uncompleted_classify_failure _ _
    · exact h
  | ran runs evidence =>
    obtain ⟨error, rfl⟩ := h
    nofun
  | verifying evidence =>
    obtain ⟨-, -, error, rfl⟩ := h
    exact uncompleted_classify_failure _ _
  | unverified error =>
    rw [show outcome = _ from h]
    exact uncompleted_classify_failure _ _
  | _ => exact h.elim

/-! ## Admission -/

/-- What follows calls that leave the execution where it stands. -/
theorem follows_resting {α β : Type} {p : Prog α} {f : α → Prog β} {Q : β → Position → Prop}
    (h : Only (Resting hand) p)
    (hf : ∀ a, Follows (Moves envelope runtime gate) (f a) Q ⟨stage, hand⟩) :
    Follows (Moves envelope runtime gate) (p >>= f) Q ⟨stage, hand⟩ := by
  refine follows_bind ((h.follows fun _ hcall answer => .rest stage answer hcall).post ?_)
  rintro a _ rfl
  exact hf a

/-- The checks on the page look at what is there and run nothing. -/
theorem only_validate_page (page_id : PageId) :
    Only (Resting hand) (validate_page runtime envelope page_id) := by
  refine only_ask_bind trivial ?_
  intro answer
  cases answer with
  | none => exact only_pure _
  | some page =>
    simp only
    split
    · exact only_pure _
    split
    · exact only_pure _
    split
    · refine only_ask_bind trivial ?_
      intro answer
      cases answer with
      | error e => exact only_pure _
      | ok checkpoint =>
        simp only
        split <;> exact only_pure _
    · exact only_pure _

theorem only_validate : Only (Resting hand) (validate runtime envelope) := by
  unfold validate
  split
  · exact only_pure _
  refine only_ask_bind trivial ?_
  intro now
  split
  · exact only_pure _
  split
  · exact only_pure _
  · split
    · exact only_pure _
    · exact only_validate_page _

/-- The phases of the admission are journaled in their order, by induction on those that are
left. -/
theorem follows_journal_phases (rest phases : List CommandPhase)
    (h : phases ++ rest = admission_phases) :
    Follows (Moves envelope runtime gate) (journal_phases runtime envelope rest)
      (Passes envelope ⟨.admitting admission_phases, hand⟩) ⟨.admitting phases, hand⟩ := by
  induction rest generalizing phases with
  | nil =>
    rw [List.append_nil] at h
    rw [h]
    exact rfl
  | cons phase rest ih =>
    have hnext : phases ++ [phase] ++ rest = admission_phases := by
      rw [List.append_assoc]
      exact h
    refine follows_ask_bind (fun answer => .record hand answer ⟨rest, hnext⟩) ?_
    intro answer
    cases answer with
    | error error => exact .inl rfl
    | ok u => exact ih _ hnext

theorem follows_admission :
    Follows (Moves envelope runtime gate) (admission runtime envelope)
      (Passes envelope ⟨.admitting admission_phases, hand⟩) ⟨.admitting [], hand⟩ := by
  refine follows_resting only_validate fun valid => ?_
  cases valid with
  | error error => exact .inr nofun
  | ok u =>
    simp only
    split
    · exact .inr nofun
    split
    · exact .inr nofun
    · exact follows_journal_phases _ [] rfl

/-! ## Ending -/

theorem follows_finish_failure (h : Fails envelope stage outcome) (hstage : stage.Admitted) :
    Follows (Moves envelope runtime gate) (finish_failure runtime envelope outcome)
      (Ends envelope) ⟨stage, hand⟩ := by
  unfold finish_failure finish_failure_durable
  apply follows_bind
  split
  · exact .inr h
  refine follows_ask_bind (fun answer => .finish hand .failed answer (.inl ⟨h, hstage⟩)) ?_
  intro answer
  cases answer with
  | ok | error => exact .inl rfl

/-! ## Running -/

/-- A failure is reported as it is, or as what came of mending the transport. -/
theorem follows_finish (runs : ℕ) (h : Fails envelope (.failed runs failure) outcome) :
    Follows (Moves envelope runtime gate)
      (do return .error (← finish_failure runtime envelope outcome)) (Results envelope)
      ⟨.failed runs failure, hand⟩ :=
  follows_bind ((follows_finish_failure h nofun).post fun _ _ hends => hends)

/-- The second run of a command, which must be replayable. -/
theorem follows_retry (hclass : envelope.command.class = .replayable) (page : PageState)
    {note : List Evidence} (hnote : note = [] ∨ note = [reattach_evidence]) :
    Follows (Moves envelope runtime gate) (retry runtime envelope gate worker page note)
      (Results envelope) ⟨.failed 1 failure, .ready worker⟩ := by
  refine follows_ask_bind (fun answer => .run (some page) answer (.again failure note hclass hnote)) ?_
  intro answer
  cases answer with
  | ok execution => exact ⟨2, rfl⟩
  | error failure => exact follows_finish 2 (.inl rfl)

section

variable (hlost : transport_lost failure.error)

include hlost

theorem follows_mended (other : AdaptiveFailure) :
    Follows (Moves envelope runtime gate)
      (do return .error (← finish runtime envelope other)) (Results envelope)
      ⟨.failed 1 failure, hand⟩ :=
  follows_finish 1 (.inr ⟨hlost, uncompleted_classify_failure _ _⟩)

theorem follows_after_reattach (page : PageState) :
    Follows (Moves envelope runtime gate)
      (after_reattach runtime envelope gate failure worker page) (Results envelope)
      ⟨.failed 1 failure, .ready worker⟩ := by
  refine follows_resting (only_ask trivial) fun listed => ?_
  split
  · exact follows_mended hlost failure
  split
  · rename_i hclass
    exact follows_retry hclass page (.inr rfl)
  · exact follows_mended hlost _

/-- A browser that cannot be reattached is launched again; the command is run again only if it is
replayable. -/
theorem follows_revive (page : PageState) (probe_error : Option String) (reattach_error : String) :
    Follows (Moves envelope runtime gate)
      (revive runtime envelope gate failure worker page probe_error reattach_error)
      (Results envelope) ⟨.failed 1 failure, hand⟩ := by
  refine follows_resting (only_ask trivial) fun _ => ?_
  refine follows_resting (only_ask trivial) fun leased => ?_
  cases leased with
  | error e => exact follows_mended hlost failure
  | ok revived =>
    refine follows_ask_bind (fun answer => .fingerprint _ hand revived answer) ?_
    intro _
    refine follows_ask_bind (fun answer => .humanize _ revived answer) ?_
    intro _
    refine follows_resting (only_ask rfl) fun opened => ?_
    cases opened with
    | error e => exact follows_mended hlost failure
    | ok u =>
      have hrest : Follows (Moves envelope runtime gate)
          (if envelope.command.class = .replayable then
            retry runtime envelope gate revived page []
            else do return .error (← finish runtime envelope
              (revived_failure failure probe_error reattach_error)))
          (Results envelope) ⟨.failed 1 failure, .ready revived⟩ := by
        split
        · rename_i hclass
          exact follows_retry hclass page (.inl rfl)
        · exact follows_mended hlost _
      simp only [reload]
      cases page.url with
      | none => exact hrest
      | some url => exact follows_resting (only_ask rfl) fun _ => hrest

/-- The way from a dead transport: probe it, reattach, or launch a new browser. -/
theorem follows_recover (page : PageState) :
    Follows (Moves envelope runtime gate) (recover runtime envelope gate failure worker page)
      (Results envelope) ⟨.failed 1 failure, .ready worker⟩ := by
  refine follows_resting (only_ask trivial) fun probe => ?_
  cases probe with
  | ok evidence =>
    simp only
    split
    · exact follows_mended hlost failure
    split
    · rename_i hclass
      exact follows_retry hclass page (.inl rfl)
    · exact follows_finish 1 (.inr ⟨hlost, nofun⟩)
  | error probe_error =>
    refine follows_resting (only_ask trivial) fun reconnected => ?_
    cases reconnected with
    | ok u => exact follows_after_reattach hlost page
    | error e => exact follows_revive hlost page _ _

end

/-- The run of the command on its page, from the admission to its result. -/
theorem follows_run_with_deadline (page : Option PageState) :
    Follows (Moves envelope runtime gate) (run_with_deadline runtime envelope gate worker page)
      (Results envelope) ⟨.admitting admission_phases, .ready worker⟩ := by
  refine follows_ask_bind (fun answer => .run page answer .first) ?_
  intro answer
  cases answer with
  | ok execution => exact ⟨1, by rw [after_run, List.append_nil]⟩
  | error failure =>
    cases page with
    | none => exact follows_finish 1 (.inl rfl)
    | some page =>
      simp only
      split
      · rename_i hlost
        exact follows_recover hlost page
      · exact follows_finish 1 (.inl rfl)

/-! ## Concluding -/

/-- A result that was prepared over HTTP is journaled before its state is committed to the
worker. -/
theorem follows_prepare {runs : ℕ} (execution : AdaptiveExecution) :
    Follows (Moves envelope runtime gate) (prepare runtime envelope worker execution)
      (Passes envelope ⟨.ran runs execution.evidence, hand⟩) ⟨.ran runs execution.evidence, hand⟩ := by
  unfold prepare
  split
  · exact rfl
  refine follows_ask_bind (fun answer => .prepare hand _ answer) ?_
  intro durable
  cases durable with
  | error error => exact .inl rfl
  | ok u =>
    refine follows_resting (only_ask trivial) fun committed => ?_
    cases committed with
    | ok u => exact rfl
    | error error =>
      have hfails : Fails envelope (.ran runs execution.evidence) _ := ⟨error, rfl⟩
      exact follows_bind ((follows_finish_failure hfails nofun).post fun _ _ hends => hends)

variable {evidence : List Evidence}

/-- The verification, which can turn a command that ran into one that failed. -/
theorem follows_verify_command (typed_on : Option String) :
    Follows (Moves envelope runtime gate) (verify_command envelope worker evidence typed_on)
      (fun verified position => match verified with
        | .ok found => Succeeds envelope position.stage found
        | .error error => Fails envelope position.stage (classify_failure envelope error []) ∧
          position.stage.Admitted) ⟨.verifying evidence, .ready worker⟩ := by
  unfold verify_command
  split
  · rename_i intent hintent
    split
    · rename_i hrecord
      exact ⟨⟨intent, hintent⟩, hrecord, rfl⟩
    · rename_i hrecord
      exact ⟨⟨⟨intent, hintent⟩, Bool.eq_false_iff.mpr hrecord, _, rfl⟩, nofun⟩
  · rename_i primitive hprimitive
    intro verified
    refine ⟨_, .verify typed_on verified hprimitive, ?_⟩
    cases verified with
    | ok found => exact rfl
    | error error => exact ⟨rfl, nofun⟩

/-- What follows a run that succeeded: prepare, verify, and end. -/
theorem follows_conclude {runs : ℕ} (typed_on : Option String) :
    Follows (Moves envelope runtime gate) (conclude runtime envelope worker evidence typed_on)
      (Ends envelope) ⟨.ran runs evidence, .ready worker⟩ := by
  refine follows_ask_bind (fun answer => .mark _ answer) ?_
  intro marked
  cases marked with
  | error error => exact .inl rfl
  | ok u =>
    refine follows_bind ((follows_verify_command typed_on).post ?_)
    rintro (error | found) ⟨stage, hand⟩ hverified
    · exact follows_finish_failure hverified.1 hverified.2
    refine follows_ask_bind (fun answer => .finish hand _ answer (.inr ⟨found, hverified, rfl⟩)) ?_
    intro answer
    cases answer with
    | ok | error => exact .inl rfl

/-! ## The whole execution -/

theorem only_page_state : Only (Resting hand) (page_state envelope) := by
  unfold page_state
  split
  · exact only_pure _
  refine only_ask_bind trivial ?_
  intro found
  cases found with
  | none | some => exact only_pure _

theorem only_typed_on : Only (Resting (.ready worker)) (typed_on envelope worker) := by
  unfold typed_on
  split
  · split
    · refine only_ask_bind rfl ?_
      intro inspected
      cases inspected with
      | ok | error => exact only_pure _
    · exact only_pure _
  · exact only_pure _

theorem follows_refused (error : CommandError) :
    Follows (Moves envelope runtime gate)
      (finish_failure runtime envelope (classify_failure envelope error []))
      (Ends envelope) ⟨.admitting admission_phases, hand⟩ :=
  follows_finish_failure (uncompleted_classify_failure _ _) fun _ h => (Stage.admitting.inj h).symm

/-- The part of an execution that has a worker. -/
theorem follows_dispatch :
    Follows (Moves envelope runtime gate) (dispatch runtime envelope gate worker)
      (Ends envelope) ⟨.admitting admission_phases, .ready worker⟩ := by
  refine follows_resting only_page_state fun found => ?_
  cases found with
  | none => exact follows_refused _
  | some page =>
    refine follows_resting only_typed_on fun typed_on => ?_
    refine follows_bind ((follows_run_with_deadline page).post ?_)
    rintro (outcome | ⟨execution, worker⟩) position hresult
    · exact hresult
    obtain ⟨runs, rfl⟩ := hresult
    refine follows_bind ((follows_prepare execution).post ?_)
    rintro (outcome | u) position hprepared
    · exact hprepared
    rw [hprepared]
    exact follows_conclude typed_on

/-- **An execution keeps to the protocol.** -/
theorem follows_execute (runtime : Runtime) (envelope : CommandEnvelope) (gate : SessionGate) :
    Follows (Moves envelope runtime gate) (execute_with_session_gate runtime envelope gate)
      (Ends envelope) ⟨.admitting [], .empty⟩ := by
  refine follows_bind (follows_admission.post ?_)
  rintro (outcome | u) position hadmitted
  · exact hadmitted
  rw [hadmitted]
  refine follows_resting (only_ask trivial) fun leased => ?_
  cases leased with
  | error error => exact follows_refused error
  | ok worker =>
    refine follows_ask_bind (fun answer => .fingerprint _ _ worker answer) ?_
    intro fingerprint
    cases fingerprint with
    | error error => exact follows_refused error
    | ok u =>
      refine follows_ask_bind (fun answer => .humanize _ worker answer) ?_
      intro humanization
      cases humanization with
      | error error => exact follows_refused error
      | ok u => exact follows_dispatch

end BobbyBrowser.PageRuntime
