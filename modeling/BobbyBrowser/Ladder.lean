/-
The recovery ladder (`crates/page-runtime/src/skill_recovery.rs` and
`skill_recovery/`): what it decides without a call.

A command that does not complete is put into a kind of failure, for which the
strategy of `Skills` names a tactic. What a tactic did is kept as evidence, and in
a receipt when the tactic takes over the session's browser.

Digests and the JSON of the evidence are parameters; of the JSON it is assumed
that it can be read back.
-/
import BobbyBrowser.Executor
import BobbyBrowser.Tasks

set_option autoImplicit false

namespace BobbyBrowser.Ladder

open Outcomes Commands Skills PageRuntime Option
open Ledger (Instant)

inductive SkillTacticEffect
  | postcondition_confirmed | observed | re_resolved | command_retried
  | challenge_solve_attempted | challenge_detection_clean | checkpoint_resumed
  | session_replaced | engine_replaced | durable_boundary_restarted | reconciliation_required
  deriving DecidableEq, Repr

structure SkillTacticEvidence where
  tactic : SkillTactic
  trigger : SkillFailure
  effect : SkillTacticEffect
  remaining_deadline_ms : ℕ
  tactic_budget_ms : ℕ
  deriving DecidableEq

structure SkillRecoveryExecution where
  command_outcome : Outcome
  skill_outcome : SkillOutcome
  tactic_evidence : List SkillTacticEvidence
  deriving DecidableEq

inductive TacticProgress
  | continued (effect : SkillTacticEffect)
  | completed (evidence : List Evidence) (effect : SkillTacticEffect)
  | restarted (outcome : Outcome) (effect : SkillTacticEffect)
  | effect_uncertain (effect : SkillTacticEffect)
  | outcome (outcome : Outcome) (effect : SkillTacticEffect)

/-- The effect of a tactic. -/
def TacticProgress.effect : TacticProgress → SkillTacticEffect
  | .continued effect | .completed _ effect | .restarted _ effect | .effect_uncertain effect
  | .outcome _ effect => effect

/-- Digests, texts and their limits. -/
structure Coding where
  /-- The text of a postcondition may be shown. -/
  safe_text : String → Bool
  command_sha256 : RuntimeCommand → String
  checkpoint_sha256 : WorkflowCheckpoint → String
  tactic_json : SkillTacticEvidence → String
  tactic_of_json : String → Option SkillTacticEvidence
  tactic_of_json_json : ∀ evidence, tactic_of_json (tactic_json evidence) = some evidence
  /-- The JSON of a receipt is no longer than `MAX_RECOVERY_RECEIPT_BYTES`. -/
  receipt_fits : RecoveryReceipt → Bool
  /-- The debug text of an outcome, and of a failure. -/
  debug_outcome : Outcome → String
  debug_failure : SkillFailure → String

/-- `SkillRecoveryCoordinator`, without what it keeps in memory. -/
structure Coordinator where
  runtime : Runtime
  coding : Coding
  session_gate : SessionGate := {}
  /-- The recovery coordinator has workers. -/
  recovery_workers : Bool := true

/-! ## Errors -/

def recovery_error (code : ErrorCode) (message : String) (retryable : Bool) : CommandError :=
  ⟨code, message, .workflow, retryable⟩

variable (message : String)

def deadline_error : CommandError := recovery_error .deadline_exceeded message false

def OWNED_TERMINAL_PREFIX : String := "owned recovery finalized: "

def OUTBOX_PENDING_PREFIX : String := "recovery outbox pending: "

def starts_with (text part : String) : Bool := part.toList.isPrefixOf text.toList

def is_owned_terminal_error (error : CommandError) : Bool :=
  starts_with error.message OWNED_TERMINAL_PREFIX

def is_outbox_pending_error (error : CommandError) : Bool :=
  starts_with error.message OUTBOX_PENDING_PREFIX

def skill_contract_error : CommandError :=
  recovery_error .internal ("skill evidence contract failed: " ++ message) false

def skill_state_error : CommandError :=
  recovery_error .internal ("skill state persistence failed: " ++ message) false

variable (coding : Coding)

def skill_failure_error (failure : SkillFailure) : CommandError :=
  recovery_error (if failure = .deadline_exceeded then .deadline_exceeded else .internal)
    ("skill recovery failed: " ++ coding.debug_failure failure) false

/-- `RecoveryError::to_string`. -/
def recovery_message : RecoveryError → String
  | .invariant_mismatch message => "checkpoint invariants failed: " ++ message
  | .not_found => "checkpoint for workflow was not found"
  | .store message => message
  | .workers_unavailable => "browser workers are not configured for recovery"
  | .browser message => "browser recovery failed: " ++ message

def checkpoint_mismatch_error : CommandError :=
  recovery_error .verification_failed ("checkpoint mismatch: " ++ message) false

def recovery_coordinator_error (error : RecoveryError) : CommandError :=
  let message := "checkpoint recovery failed: " ++ recovery_message error
  if contains message "checkpoint invariants failed"
      || contains message "checkpoint changed after" then
    checkpoint_mismatch_error message
  else recovery_error .verification_failed message false

def browser_error (error : CommandError) : RecoveryError := .browser error.message

/-! ## Failures -/

def failure_from_error (error : CommandError) : SkillFailure :=
  match error.code with
  | .deadline_exceeded => .deadline_exceeded
  | .target_not_found | .target_ambiguous | .frame_not_found | .shadow_root_unavailable
  | .target_detached | .target_obscured | .target_out_of_bounds => .target_drift
  | .browser_launch_failed | .resource_exhausted => .engine_unavailable
  | .verification_failed | .wait_condition_timed_out => .postcondition_failed
  | .policy_denied | .network_policy_denied | .invalid_request => .configuration_conflict
  | _ => if error.retryable then .target_drift else .postcondition_failed

def failure_from_outcome (outcome : Outcome) (command_class : CommandClass) : SkillFailure :=
  match outcome with
  | .needs_reconciliation _ error _ =>
    if command_class = .boundary then .effect_uncertain else failure_from_error error
  | .retryable_failure _ error | .policy_denied _ error | .resource_exhausted _ error _
  | .failed _ error _ => failure_from_error error
  | .restarted _ _ _ _ _ => .checkpoint_mismatch
  | .completed _ _ => .configuration_conflict

variable (envelope : CommandEnvelope)

def command_failure (error : CommandError) (failure : SkillFailure) : Outcome :=
  if failure = .effect_uncertain || envelope.command.class = .boundary then
    .needs_reconciliation envelope.command_id error []
  else .failed envelope.command_id error []

/-! ## Evidence -/

variable (decision : SkillDecision)

def tactic_record (effect : SkillTacticEffect) : SkillTacticEvidence :=
  ⟨decision.tactic, decision.trigger, effect, decision.remaining_deadline_ms,
    decision.tactic_budget_ms⟩

def append_tactic_evidence (outcome : Outcome)
    (tactic_evidence : List SkillTacticEvidence) : Outcome :=
  let added := tactic_evidence.map fun tactic =>
    Evidence.configuration "skillRecoveryTactic" (coding.tactic_json tactic)
  match outcome with
  | .completed id evidence => .completed id (evidence ++ added)
  | .needs_reconciliation id error evidence => .needs_reconciliation id error (evidence ++ added)
  | .restarted id prior_attempt_id attempt_id reason evidence =>
    .restarted id prior_attempt_id attempt_id reason (evidence ++ added)
  | outcome => outcome

/-! ## Identities and receipts -/

/-- `issued_command_identity` and `recovery_identity`. -/
def issued_command_identity (envelope : CommandEnvelope) :
    SkillCommandIdentity where
  command_id := envelope.command_id
  workflow_id := envelope.workflow_id
  attempt_id := envelope.attempt_id
  session_id := envelope.session_id
  page_id := envelope.page_id
  command_class := envelope.command.class
  command_sha256 := coding.command_sha256 envelope.command

def command_outcome_id : Outcome → CommandId
  | .completed id _ | .retryable_failure id _ | .needs_reconciliation id _ _
  | .policy_denied id _ | .resource_exhausted id _ _ | .restarted id _ _ _ _
  | .failed id _ _ => id

def MAX_RECOVERY_RECEIPT_EVIDENCE : ℕ := 32

/-- `RecoveryReceipt::validate`. The digest of a receipt is that of its contents. -/
def validate_receipt (receipt : RecoveryReceipt) : Except String Unit :=
  if receipt.tactic_evidence.length > MAX_RECOVERY_RECEIPT_EVIDENCE then
    .error "recovery receipt tactic evidence exceeds its bound"
  else if command_outcome_id receipt.command_outcome ≠ receipt.identity.command_id then
    .error "recovery receipt command identity does not match its outcome"
  else if !coding.receipt_fits receipt then .error "recovery receipt exceeds its byte bound"
  else .ok ()

def recovery_receipt (c : Coordinator) (envelope : CommandEnvelope) (issued : SkillIssuedDecision)
    (command_outcome : Outcome) (skill_outcome : SkillOutcome)
    (tactic_evidence : List SkillTacticEvidence) (now : Instant) :
    Except CommandError RecoveryReceipt :=
  let identity := issued_command_identity c.coding envelope
  if issued.command_identity ≠ some identity then
    .error (recovery_error .invalid_request
      "issued recovery identity changed before receipt persistence" false)
  else
    let receipt : RecoveryReceipt :=
      { identity := identity
        state := .unresolved
        reservation_id := issued.reservation_id
        decision := issued.decision
        command_outcome := journal_safe_outcome c.runtime.safe_url command_outcome
        skill_outcome := skill_outcome
        tactic_evidence := tactic_evidence.map fun tactic =>
          .configuration "skillRecoveryReceiptTactic" (c.coding.tactic_json tactic)
        recorded_at := now }
    match validate_receipt c.coding receipt with
    | .ok () => .ok receipt
    | .error message => .error (skill_contract_error message)

/-- The tactics that a receipt tells of. -/
def receipt_tactics (coding : Coding) : List Evidence → Except CommandError (List SkillTacticEvidence)
  | [] => .ok []
  | .configuration name value :: evidence =>
    if name = "skillRecoveryReceiptTactic" then
      match coding.tactic_of_json value with
      | none => .error (skill_contract_error "invalid tactic evidence")
      | some tactic => (receipt_tactics coding evidence).map (tactic :: ·)
    else receipt_tactics coding evidence
  | _ :: evidence => receipt_tactics coding evidence

def execution_from_receipt (receipt : RecoveryReceipt) :
    Except CommandError SkillRecoveryExecution :=
  (receipt_tactics coding receipt.tactic_evidence).map fun tactics =>
    ⟨receipt.command_outcome, receipt.skill_outcome, tactics⟩

/-- What is told of a command whose recovery could not be followed to its end: its effect is
uncertain when it must not be repeated, and otherwise it ran out of time. -/
def deadline_failure : SkillFailure :=
  if envelope.command.class = .boundary then .effect_uncertain else .deadline_exceeded

/-- Its outcome, with the two texts of the caller. -/
def deadline_outcome (envelope : CommandEnvelope) (late uncertain : String) : Outcome :=
  let failure := deadline_failure envelope
  let error :=
    if failure = .deadline_exceeded then deadline_error late
    else recovery_error .verification_failed uncertain false
  append_tactic_evidence coding (command_failure envelope error failure)
    [tactic_record decision .reconciliation_required]

/-! ## Checkpoints -/

/-- The failed invariants of a checkpoint, as texts. -/
def invariant_failure (evidence : List Evidence) : CheckpointInvariant → Option String
  | .url value =>
    if evidence.any fun
      | .navigation url _ => url = value
      | .inspection _ url _ _ => url = value
      | _ => false
    then none else some ("URL invariant not observed: " ++ value)
  | .title value =>
    if evidence.any fun
      | .navigation _ title => title = value
      | .inspection _ _ title _ => title = value
      | _ => false
    then none else some ("title invariant not observed: " ++ value)
  | .text selector value =>
    if evidence.any fun
      | .element actual text => actual = selector && text = some value
      | .inspection actual _ _ text => actual = some selector && text = value
      | _ => false
    then none else some ("text invariant not observed for " ++ selector ++ ": " ++ value)

def evaluate_invariants (invariants : List CheckpointInvariant) (evidence : List Evidence) :
    List String :=
  invariants.filterMap (invariant_failure evidence)

def checkpoint_authority_digest (checkpoint : WorkflowCheckpoint) : String :=
  coding.checkpoint_sha256 { checkpoint with recovery_history := [], recovery_receipts := [] }

/-- The checkpoint of a decision. -/
def decision_checkpoint : RecoveryDecision → CheckpointId
  | .resumed checkpoint_id _ _ | .needs_reconciliation checkpoint_id _ _ _
  | .restarted checkpoint_id _ _ => checkpoint_id

def ensure_checkpoint_authority (recovered : RecoveryDecision) : Except CommandError Unit :=
  if decision.checkpoint_id ≠ some (decision_checkpoint recovered) then
    .error (recovery_error .invalid_request
      "recovery checkpoint does not match the reviewed skill decision" false)
  else .ok ()

/-- `CommandOutcome::Restarted` for a restart. -/
def restarted_outcome (lineage : RestartLineage) (evidence : List Evidence) : Outcome :=
  .restarted envelope.command_id lineage.abandoned_attempt_id lineage.attempt_id lineage.reason
    evidence

def recovery_progress (decision : RecoveryDecision) (effect : SkillTacticEffect)
    (envelope : CommandEnvelope) : TacticProgress :=
  match decision with
  | .resumed _ _ _ => .continued effect
  | .needs_reconciliation _ _ _ _ => .effect_uncertain .reconciliation_required
  | .restarted _ lineage evidence =>
    .restarted (restarted_outcome envelope lineage evidence) effect

/-! ## Commands -/

def expected_postcondition : RuntimeCommand → String
  | .intent _ => "intent postcondition is observed"
  | .primitive command =>
    match command with
    | .navigate _ => "navigation final URL is observed"
    | .click _ => "click expected URL is observed"
    | .type_text _ => "typed value is observed at the original target"
    | .inspect _ => "inspection evidence is observed"
    | .upload_files _ => "upload evidence is observed"
    | .upload_and_confirm _ => "upload evidence and confirmation state are observed"
    | .open_page _ => "opened page evidence is observed"
    | .list_pages => "page list evidence is observed"
    | .close_page _ => "page closure evidence is observed"
    | .activate_page _ => "activated page evidence is observed"
    | .accessibility_snapshot => "accessibility snapshot evidence is observed"
    | .extract_structured => "structured extraction evidence is observed"
    | .get_cookies => "cookie state is observed"
    | .print_to_pdf => "PDF artifact is observed"
    | .handle_dialog => "dialog handling is observed"
    | .emulate => "emulation is observed"
    | .network_log => "network log artifact is observed"
    | .set_cookies | .delete_cookies => "cookie mutation is observed"
    | .click_and_wait_for_popup _ => "popup evidence is observed"
    | .click_and_wait_for_download _ | .download_url _ _ => "download evidence is observed"
    | .wait_for => "wait condition is observed"
    | .capture_screenshot => "screenshot artifact is observed"
    | .set_focus_emulation | .set_emulated_media => "requested page configuration is observed"
    | .evaluate_javascript _ => "JavaScript result is observed"
    | .control_action _ => "typed control state is observed"

def alternate_target (selector : String) (target : Option TargetSpec) :
    String × Option TargetSpec :=
  match target with
  | none => (selector, some { css := some selector })
  | some existing =>
    match existing.css with
    | some css => (css, none)
    | none => (selector, some existing)

/-- The command with its target named the other way. -/
def alternate_command : RuntimeCommand → RuntimeCommand
  | .primitive (.click command) =>
    let (selector, target) := alternate_target command.selector command.target
    .primitive (.click { command with selector := selector, target := target })
  | .primitive (.type_text command) =>
    let (selector, target) := alternate_target command.selector command.target
    .primitive (.type_text { command with selector := selector, target := target })
  | .primitive (.upload_files command) =>
    let (selector, target) := alternate_target command.selector command.target
    .primitive (.upload_files { command with selector := selector, target := target })
  | .primitive (.upload_and_confirm upload) =>
    let (selector, target) := alternate_target upload.selector upload.target
    .primitive (.upload_and_confirm { upload with selector := selector, target := target })
  | .primitive (.click_and_wait_for_popup command) =>
    let (selector, target) := alternate_target command.selector command.target
    .primitive (.click_and_wait_for_popup { command with selector := selector, target := target })
  | .primitive (.click_and_wait_for_download command) =>
    let (selector, target) := alternate_target command.selector command.target
    .primitive
      (.click_and_wait_for_download { command with selector := selector, target := target })
  | command => command

/-- `preserves_postcondition`. The expected state of an upload is not part of this model; the
change of a target does not touch it. -/
def preserves_postcondition : RuntimeCommand → RuntimeCommand → Bool
  | .primitive (.click left), .primitive (.click right) =>
    left.boundary = right.boundary && left.expected_url = right.expected_url
  | .primitive (.type_text left), .primitive (.type_text right) =>
    left.value = right.value && left.clear_first = right.clear_first
  | .primitive (.upload_files left), .primitive (.upload_files right) => left.paths = right.paths
  | .primitive (.upload_and_confirm left), .primitive (.upload_and_confirm right) =>
    left.paths = right.paths
  | .primitive (.click_and_wait_for_popup left), .primitive (.click_and_wait_for_popup right) =>
    left.timeout_ms = right.timeout_ms
  | .primitive (.click_and_wait_for_download left),
    .primitive (.click_and_wait_for_download right) => left.timeout_ms = right.timeout_ms
  | original, alternate => original = alternate

def alternate_interaction_envelope : Except CommandError CommandEnvelope :=
  let alternate := { envelope with command := alternate_command envelope.command }
  if preserves_postcondition envelope.command alternate.command then .ok alternate
  else .error (recovery_error .invalid_request
    "interaction-method change altered the original postcondition" false)

/-- What `observe_postcondition` looks at. -/
def observation (command : RuntimeCommand) : InspectCommand :=
  match command with
  | .primitive (.type_text command) =>
    { selector := if command.selector.isEmpty then none else some command.selector
      target := command.target }
  | .primitive (.click command) => { target := command.target }
  | _ => {}

/-- What was seen is the postcondition of the command. -/
def postcondition_matched (command : RuntimeCommand) (evidence : List Evidence) : Bool :=
  match command with
  | .primitive (.navigate command) =>
    evidence.any fun
      | .inspection _ url _ _ => url = command.url
      | _ => false
  | .primitive (.click command) =>
    match command.expected_url with
    | none => false
    | some expected =>
      evidence.any fun
        | .inspection _ url _ _ => url = expected
        | _ => false
  | .primitive (.type_text command) =>
    evidence.any fun
      | .inspection _ _ _ text => text = command.value
      | _ => false
  | .primitive (.inspect _) => !evidence.isEmpty
  | _ => false

/-- The last URL that recovery has seen. -/
def observed_url (evidence : List Evidence) : Option String :=
  evidence.reverse.findSome? fun
    | .navigation url _ => some url
    | .inspection _ url _ _ => some url
    | _ => none

/-- `VISION_CONFIDENCE_FLOOR`, in hundredths. -/
def VISION_CONFIDENCE_FLOOR : ℕ := 75

/-- The navigation of a restart. -/
def restart_navigation (command_id : CommandId)
    (attempt_id : AttemptId) (restart_url : String) (budget_ms : ℕ) : CommandEnvelope :=
  { envelope with
    command_id := command_id
    attempt_id := attempt_id
    command := .primitive (.navigate ⟨restart_url, .interactive, budget_ms⟩) }

/-- The intent that looks for a challenge, in at most a third of the budget. -/
def detect_envelope (budget_ms : ℕ) : CommandEnvelope :=
  { envelope with
    command := .intent (.detect_challenge
      ("check whether a human-verification challenge blocks this page so that "
        ++ expected_postcondition envelope.command) none (max 1 (min (budget_ms / 3) 15000))) }

/-- What a completed detection has found. -/
def detection (outcome : Outcome) : Option (ℕ × Option DetectedChallenge) :=
  match outcome with
  | .completed _ evidence =>
    evidence.findSome? fun
      | .challenge_detection confidence detection => some (confidence, detection)
      | _ => none
  | _ => none

variable (found : Option (ℕ × Option DetectedChallenge))

/-- The page is clean, and certainly so. -/
def detected_clean : Bool :=
  match found with
  | some (confidence, none) => VISION_CONFIDENCE_FLOOR ≤ confidence
  | _ => false

/-- The intent that solves the challenge. -/
def solve_envelope (remaining_ms : ℕ) : CommandEnvelope :=
  let challenge := found.bind Prod.snd
  let named := match challenge with
    | some challenge => "solve the " ++ challenge.challenge_type ++ " challenge"
    | none => "solve the human-verification challenge"
  { envelope with
    command := .intent (.solve_challenge
      (named ++ " blocking this page so that " ++ expected_postcondition envelope.command)
      (challenge.bind DetectedChallenge.region) (max 1 remaining_ms)) }

/-! ## A coding

The digests tell nothing apart, and a tactic is written as three letters and two
unary numbers. -/

/-- The failures, in the order of their letters. -/
def failures : List SkillFailure :=
  [.unsupported_capability, .configuration_conflict, .deadline_exceeded, .target_drift,
    .postcondition_failed, .effect_uncertain, .checkpoint_mismatch, .strategy_exhausted,
    .engine_unavailable]

/-- The effects, in the order of their letters. -/
def effects : List SkillTacticEffect :=
  [.postcondition_confirmed, .observed, .re_resolved, .command_retried,
    .challenge_solve_attempted, .challenge_detection_clean, .checkpoint_resumed,
    .session_replaced, .engine_replaced, .durable_boundary_restarted, .reconciliation_required]

/-- The letter of a value: its place in the list. -/
def letter {α : Type} [DecidableEq α] (values : List α) (a : α) : Char :=
  Char.ofNat (97 + values.idxOf a)

/-- The value of a letter. -/
def of_letter {α : Type} (values : List α) (c : Char) : Option α := values[c.toNat - 97]?

/-- Two numbers in unary. -/
def unary (n m : ℕ) : List Char := List.replicate n 'a' ++ 'b' :: List.replicate m 'a'

theorem takeWhile_unary (n m : ℕ) : ((unary n m).takeWhile (· = 'a')).length = n := by
  rw [unary, List.takeWhile_append]
  simp

theorem length_unary (n m : ℕ) : (unary n m).length - n - 1 = m := by
  simp [unary]

/-- Write the evidence of a tactic. -/
def tactic_text (evidence : SkillTacticEvidence) : String :=
  String.ofList (letter LADDER evidence.tactic :: letter failures evidence.trigger
    :: letter effects evidence.effect
    :: unary evidence.remaining_deadline_ms evidence.tactic_budget_ms)

/-- Read the evidence of a tactic. -/
def tactic_of_text (text : String) : Option SkillTacticEvidence :=
  match text.toList with
  | tactic :: trigger :: effect :: numbers => do
    let tactic ← of_letter LADDER tactic
    let trigger ← of_letter failures trigger
    let effect ← of_letter effects effect
    let remaining := (numbers.takeWhile (· = 'a')).length
    return ⟨tactic, trigger, effect, remaining, numbers.length - remaining - 1⟩
  | _ => none

/-- The text of a tactic is read back as the tactic. -/
theorem tactic_of_text_text (evidence : SkillTacticEvidence) :
    tactic_of_text (tactic_text evidence) = some evidence := by
  obtain ⟨tactic, trigger, effect, remaining, budget⟩ := evidence
  have htactic : of_letter LADDER (letter LADDER tactic) = some tactic := by
    cases tactic <;> decide
  have htrigger : of_letter failures (letter failures trigger) = some trigger := by
    cases trigger <;> decide
  have heffect : of_letter effects (letter effects effect) = some effect := by
    cases effect <;> decide
  rw [tactic_text, tactic_of_text, String.toList_ofList]
  simp only [htactic, htrigger, heffect, takeWhile_unary, length_unary, bind_eq_bind,
    bind_some, pure_def]

/-- A coding in which every text may be shown and every receipt fits. -/
def plain_coding : Coding where
  safe_text _ := true
  command_sha256 _ := ""
  checkpoint_sha256 _ := ""
  tactic_json := tactic_text
  tactic_of_json := tactic_of_text
  tactic_of_json_json := tactic_of_text_text
  receipt_fits _ := true
  debug_outcome _ := ""
  debug_failure _ := ""

end BobbyBrowser.Ladder
