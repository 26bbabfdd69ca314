/-
The command executor (`crates/page-runtime/src/executor.rs` and `executor/`).

A command is admitted, which journals its phases up to `Executing`, run on a
leased worker, and verified; every way to end after admission is journaled as a
terminal record with the outcome in its durable form. When the transport to the
browser fails, the executor probes it, reattaches to it or launches a new browser,
and runs the command again only if it is replayable.

Logging, metrics and the hooks of tests answer nothing and are left out. So is the
context graph, which does answer: `record_execution_context` appends to the evidence
of a command that succeeded the generation it counts for the page. That is one more
item of evidence, which no function modelled here reads.
-/
import BobbyBrowser.RuntimeCalls

set_option autoImplicit false

namespace BobbyBrowser.PageRuntime

open Outcomes Commands
open CommandJournal (JournalError)

/-- `PageRuntime`: which of its parts are configured, and how URLs are sanitised. -/
structure Runtime where
  journal : Bool := true
  workers : Bool := true
  checkpoints : Bool := true
  safe_url : String → String := id

/-! ## Errors -/

def validation_error (message : String) : CommandError :=
  ⟨.invalid_request, message, .workflow, false⟩

def missing_page_error : CommandError :=
  ⟨.not_found, "runtime resource was not found", .workflow, false⟩

def verification_error (message : String) : CommandError :=
  ⟨.verification_failed, message, .page, true⟩

def contains (text part : String) : Bool := part.toList <:+: text.toList

def TARGET_GONE_MESSAGE : String :=
  "the browser target is gone (crashed or closed); re-list pages or recover the session before retrying"

def FIREFOX_WORKER_CLOSED_MESSAGE : String := "Firefox companion worker is closed"

def BROWSER_GONE_MESSAGE : String :=
  "this session's browser is gone; create a new session and close this one"

def is_firefox_bidi_transport_dead (message : String) : Bool :=
  contains message "Firefox BiDi" && !contains message "client closed"
    && (contains message "connection closed" || contains message "connection ended"
      || contains message "disconnected" || contains message "command channel closed"
      || contains message "command capacity closed" || contains message "response channel closed")

def is_closed_page_message (message : String) : Bool :=
  contains message "receiver is gone" || contains message "session closed"
    || contains message "Session with given id not found" || contains message "oneshot canceled"
    || contains message TARGET_GONE_MESSAGE || is_firefox_bidi_transport_dead message

variable (error : CommandError)

def is_dead_worker_error : Bool :=
  is_closed_page_message error.message || error.message = "browser worker is closed"

/-! ## Classification -/

def requires_reconciliation (envelope : CommandEnvelope) : Bool :=
  envelope.command.class = .boundary || match envelope.command with
    | .primitive (.download_url _ _) => true
    | _ => false

/-- `is_pre_effect`: errors raised before the command could reach the browser, or before anything
landed. -/
def is_pre_effect : Bool :=
  match error.code with
  | .invalid_request | .target_not_found | .target_ambiguous | .frame_not_found
  | .shadow_root_unavailable | .intent_compile_failed | .intent_action_mismatch
  | .http_response_too_large | .expected_state_pre_satisfied => true
  | _ => false

/-- `is_postcondition_failure`: the act landed, the wait or the verification did not. -/
def is_postcondition_failure : Bool :=
  match error.code with
  | .verification_failed | .verification_code_required | .wait_condition_timed_out => true
  | _ => false

def is_transient_target_loss : Bool := error.code = .target_detached

/-- What a caller is told of a closed worker. -/
def tell_browser_gone : CommandError :=
  if error.message = FIREFOX_WORKER_CLOSED_MESSAGE then
    { error with message := BROWSER_GONE_MESSAGE }
  else error

def classify_failure (envelope : CommandEnvelope) (failure : CommandError)
    (evidence : List Evidence) : Outcome :=
  let error := tell_browser_gone failure
  if error.code = .network_policy_denied || error.code = .policy_denied then
    .policy_denied envelope.command_id error
  else if requires_reconciliation envelope && !is_pre_effect error
      && !is_postcondition_failure error && !is_transient_target_loss error then
    .needs_reconciliation envelope.command_id error evidence
  else if error.retryable then .retryable_failure envelope.command_id error
  else .failed envelope.command_id error evidence

def prepared_failure (envelope : CommandEnvelope) (error : CommandError)
    (evidence : List Evidence) : Outcome :=
  .needs_reconciliation envelope.command_id error evidence

def journal_failure (envelope : CommandEnvelope) (error : JournalError)
    (may_have_executed : Bool) : Outcome :=
  if may_have_executed && requires_reconciliation envelope then
    .needs_reconciliation envelope.command_id (journal_error .journal error) []
  else .retryable_failure envelope.command_id (journal_error .journal error)

/-! ## Evidence of a lost transport -/

def reattach_evidence : Evidence :=
  .configuration "cdpReattach"
    "websocket reset with the browser process still alive; reattached to the same process and page state is preserved"

def transient_target_loss_evidence (original_message : String) : Evidence :=
  .configuration "transientTargetLoss" original_message

def browser_revived_evidence (probe_error : Option String)
    (reattach_error original_message : String) : Evidence :=
  let probe := match probe_error with
    | some message => "err: " ++ message
    | none => "ok"
  .configuration "browserRevived"
    ("probe: " ++ probe ++ " | reattach: " ++ reattach_error ++ " | original: " ++ original_message)

def page_still_listed (evidence : List Evidence) (page_id : PageId) : Bool :=
  evidence.any fun
    | .pages listed => listed.any fun entry => entry.1 = page_id
    | _ => false

section

variable (runtime : Runtime)

/-! ## Admission -/

/-- The checks of `validate` on the command alone. -/
def command_error : RuntimeCommand → Option CommandError
  | .primitive (.navigate command) =>
    if command.url.startsWith "http://" || command.url.startsWith "https://"
        || command.url.startsWith "data:" then none
    else some (validation_error "navigation URL scheme is not supported")
  | .primitive (.click command) =>
    if command.modifiers.Nodup then none
    else some (validation_error "click modifiers must be unique")
  | _ => none

variable (envelope : CommandEnvelope)

/-- The checkpoint is the one that was taken for this command. -/
def checkpoint_matches (page_id : PageId) (checkpoint : WorkflowCheckpoint) : Bool :=
  checkpoint.attempt_id = envelope.attempt_id && checkpoint.session_id = envelope.session_id
    && checkpoint.page_id = page_id && checkpoint.recovery_class = .boundary
    && checkpoint.boundary_command_id = some envelope.command_id

/-- The part of `validate` for commands with a page. -/
def validate_page (page_id : PageId) :
    Prog (Except CommandError Unit) := do
  match ← ask (.get_page page_id) with
  | none => return .error missing_page_error
  | some page =>
    if page.session_id ≠ envelope.session_id then
      return .error (validation_error "page does not belong to session")
    else match command_error envelope.command with
      | some error => return .error error
      | none =>
        if envelope.command.class = .boundary && runtime.checkpoints then
          match ← ask (.load_checkpoint envelope.workflow_id) with
          | .error _ =>
            return .error (validation_error "a verified pre-action checkpoint is required")
          | .ok checkpoint =>
            if checkpoint_matches envelope page_id checkpoint then return .ok ()
            else
              return .error
                (validation_error "boundary checkpoint does not match the command context")
        else return .ok ()

def validate : Prog (Except CommandError Unit) := do
  if envelope.schema_version ≠ SCHEMA_VERSION then
    return .error (validation_error "unsupported command schema version")
  else if envelope.deadline ≤ (← ask .now) then
    return .error ⟨.deadline_exceeded, "command deadline has elapsed", .workflow, false⟩
  else if envelope.command = .primitive .list_pages then return .ok ()
  else match envelope.page_id with
    | none => return .error (validation_error "pageId is required for page commands")
    | some page_id => validate_page runtime envelope page_id

/-- The record that `admit` journals for a phase. -/
def admission_record (phase : CommandPhase) : Content :=
  { phase := phase
    envelope := if phase = .accepted then some (envelope.journal_safe runtime.safe_url) else none }

/-- The loop of `admit`. -/
def journal_phases (envelope : CommandEnvelope) : List CommandPhase → Prog (Except Outcome Unit)
  | [] => return .ok ()
  | phase :: phases => do
    match ← ask (.append envelope.command_id (admission_record runtime envelope phase)) with
    | .error error => return .error (journal_failure envelope error false)
    | .ok () => journal_phases envelope phases

/-- `admit`. -/
def admission : Prog (Except Outcome Unit) := do
  let failed (error : CommandError) : Outcome := .failed envelope.command_id error []
  match ← validate runtime envelope with
  | .error error => return .error (failed error)
  | .ok () =>
    if !runtime.journal then
      return .error (failed (internal_error "command journal is not configured"))
    else if !runtime.workers then
      return .error (failed (internal_error "browser workers are not configured"))
    else journal_phases runtime envelope [.accepted, .prepared, .executing]

/-! ## Ending -/

/-- The terminal record of an outcome. -/
def terminal_record (phase : CommandPhase) (outcome : Outcome) : Content :=
  { phase := phase, outcome := some (journal_safe_outcome runtime.safe_url outcome) }

def finish_failure_durable (outcome : Outcome) :
    Prog (Outcome × Bool) := do
  if !runtime.journal then return (outcome, false)
  else
    match ← ask (.append envelope.command_id (terminal_record runtime .failed outcome)) with
    | .ok () => return (outcome, true)
    | .error error => return (journal_failure envelope error true, false)

def finish_failure (outcome : Outcome) : Prog Outcome := do
  return (← finish_failure_durable runtime envelope outcome).1

def finish (failure : AdaptiveFailure) : Prog Outcome :=
  finish_failure runtime envelope (classify_failure envelope failure.error failure.evidence)

/-! ## Running, with recovery of the transport -/

abbrev ExecutionResult := Except Outcome (AdaptiveExecution × WorkerId)

variable (gate : SessionGate) (failure : AdaptiveFailure) (worker : WorkerId)

def retry (page : PageState) (evidence : List Evidence) : Prog ExecutionResult := do
  match ← ask (.adaptive_execute worker envelope (some page) gate) with
  | .ok execution =>
    return .ok ({ execution with evidence := execution.evidence ++ evidence }, worker)
  | .error failure => return .error (← finish runtime envelope failure)

/-- The error of a command that a new browser was launched for. -/
def revived_failure (probe_error : Option String) (reattach_error : String) : AdaptiveFailure :=
  { error :=
      ⟨.target_detached, "the browser transport was lost and could not be reattached; a fresh browser was launched and the page reloaded to its last URL -- inspect current state and re-issue the command", .driver, false⟩
    evidence := failure.evidence
      ++ [browser_revived_evidence probe_error reattach_error failure.error.message] }

/-- Load the page's last URL in a new browser. -/
def reload (page : PageState) : Prog Unit := do
  match page.url with
  | some url =>
    let _ ← ask (.navigate worker page.id url)
    return ()
  | none => return ()

/-- `ExecutionContext::revive`. The settings of the new worker are written, and what that
answers is not looked at. -/
def revive (page : PageState) (probe_error : Option String) (reattach_error : String) :
    Prog ExecutionResult := do
  let _ ← ask (.invalidate_session_if_worker envelope.session_id worker)
  match ← ask (.lease envelope.session_id) with
  | .error _ => return .error (← finish runtime envelope failure)
  | .ok revived =>
    let _ ← ask (.set_fingerprint_enabled revived gate.fingerprint)
    let _ ← ask (.set_humanization_enabled revived gate.humanize)
    match ← ask (.open_page revived page.id) with
    | .error _ => return .error (← finish runtime envelope failure)
    | .ok () =>
      reload revived page
      if envelope.command.class = .replayable then
        retry runtime envelope gate revived page []
      else
        return .error (← finish runtime envelope
          (revived_failure failure probe_error reattach_error))

/-- The failure of a mutating command whose transport was reattached. -/
def reattached_failure : AdaptiveFailure :=
  { error :=
      { failure.error with
        message := failure.error.message
          ++ " (CDP transport reset; reattached to the live browser — page state preserved, inspect before re-issuing)"
        retryable := true }
    evidence := failure.evidence ++ [reattach_evidence] }

/-- A failed listing is not proof that the page closed. -/
def page_open (listed : Except CommandError (List Evidence)) (page_id : PageId) : Bool :=
  match listed with
  | .ok evidence => page_still_listed evidence page_id
  | .error _ => true

def after_reattach (page : PageState) : Prog ExecutionResult := do
  if !page_open (← ask (.list_pages worker)) page.id then return .error (← finish runtime envelope failure)
  else if envelope.command.class = .replayable then
    retry runtime envelope gate worker page [reattach_evidence]
  else return .error (← finish runtime envelope (reattached_failure failure))

/-- The outcome of a mutating command that lost its target for a moment. -/
def transient_target_loss : Outcome :=
  .failed envelope.command_id
    ⟨.target_detached, "transient target loss; the browser and page are intact -- re-resolve the target and re-issue the command", .driver, true⟩
    [transient_target_loss_evidence failure.error.message]

def recover (page : PageState) : Prog ExecutionResult := do
  match ← ask (.list_pages worker) with
  | .ok evidence =>
    if !page_still_listed evidence page.id then
      return .error (← finish runtime envelope failure)
    else if envelope.command.class = .replayable then
      retry runtime envelope gate worker page []
    else
      return .error (← finish_failure runtime envelope (transient_target_loss envelope failure))
  | .error probe_error =>
    match ← ask (.reconnect_live_process worker) with
    | .ok () => after_reattach runtime envelope gate failure worker page
    | .error error =>
      revive runtime envelope gate failure worker page (some probe_error.message) error.message

def run_with_deadline (page_state : Option PageState) : Prog ExecutionResult := do
  match ← ask (.adaptive_execute worker envelope page_state gate) with
  | .ok execution => return .ok (execution, worker)
  | .error failure =>
    match page_state with
    | none => return .error (← finish runtime envelope failure)
    | some page =>
      if is_dead_worker_error failure.error
          || failure.error.message = "browser page is not open" then
        recover runtime envelope gate failure worker page
      else return .error (← finish runtime envelope failure)

/-! ## Results that were fetched directly -/

/-- The evidence of a prepared result, without the landing path of a download. -/
def without_landing_path : Evidence → Evidence
  | .download path sha256 _ => .download path sha256 none
  | evidence => evidence

/-- The `PreparedResult` of an execution. -/
def prepared_result (evidence : List Evidence) (prepared : PreparedHttp) : PreparedResult where
  command_id := envelope.command_id
  attempt_id := envelope.attempt_id
  state_version := prepared.state_version
  evidence := evidence.map without_landing_path
  artifact_id := prepared.artifact.map ArtifactRecord.artifact_id
  artifact_sha256 := prepared.artifact.map ArtifactRecord.sha256
  artifact_bytes := prepared.artifact.map ArtifactRecord.bytes
  artifact_staging_id := prepared.artifact.bind ArtifactRecord.staging_id
  download := prepared.download

def prepared_record (result : PreparedResult) : Content :=
  { phase := .result_prepared, prepared_result := some result }

/-- Make the prepared result of an execution durable. -/
def prepare (execution : AdaptiveExecution) :
    Prog (Except Outcome Unit) := do
  match execution.prepared_http with
  | none => return .ok ()
  | some prepared =>
    let result := prepared_result envelope execution.evidence prepared
    match ← ask (.durable_prepare envelope.command_id (prepared_record result)) with
    | .error error => return .error (prepared_failure envelope error execution.evidence)
    | .ok () =>
      match ← ask (.commit_http_state worker prepared.state_version) with
      | .ok () => return .ok ()
      | .error error =>
        return .error (← finish_failure runtime envelope
          (prepared_failure envelope error execution.evidence))

/-! ## Verifying -/

/-- `verify`: an intent verifies itself and leaves a record of its execution. -/
def verify_command (evidence : List Evidence)
    (typed_on : Option String) : Prog (Except CommandError (List Evidence)) :=
  match envelope.command with
  | .intent _ =>
    if evidence.any (· = .intent_execution) then return .ok evidence
    else return .error (verification_error "intent command returned no execution record")
  | .primitive _ => ask (.verify worker envelope evidence typed_on)

/-- The end of `execute_with_session_gate`, from the `Verifying` phase on. -/
def conclude (evidence : List Evidence) (typed_on : Option String) : Prog Outcome := do
  match ← ask (.append envelope.command_id { phase := .verifying }) with
  | .error error => return journal_failure envelope error true
  | .ok () =>
    match ← verify_command envelope worker evidence typed_on with
    | .error error => finish_failure runtime envelope (classify_failure envelope error [])
    | .ok evidence =>
      let outcome : Outcome := .completed envelope.command_id evidence
      match ← ask (.append envelope.command_id (terminal_record runtime .completed outcome)) with
      | .ok () => return outcome
      | .error error => return journal_failure envelope error true

/-! ## Execution -/

/-- The URL that a text with a line break is typed on; a failed look at it does not matter. -/
def typed_on : Prog (Option String) := do
  match envelope.command, envelope.page_id with
  | .primitive (.type_text command), some page_id =>
    if command.value.toList.any (fun c => c = '\n' || c = '\r') then
      match ← ask (.inspect worker page_id {}) with
      | .ok evidence =>
        return evidence.findSome? fun
          | .inspection _ url _ _ => some url
          | _ => none
      | .error _ => return none
    else return none
  | _, _ => return none

/-- The page of the command before its dispatch; `none` when it has disappeared. -/
def page_state : Prog (Option (Option PageState)) := do
  match envelope.page_id with
  | none => return some none
  | some page_id =>
    match ← ask (.get_page page_id) with
    | some page => return some (some page)
    | none => return none

/-- What follows the settings of the worker. -/
def dispatch (envelope : CommandEnvelope) (gate : SessionGate) (worker : WorkerId) :
    Prog Outcome := do
  match ← page_state envelope with
  | none =>
    finish_failure runtime envelope
      (classify_failure envelope (internal_error "page disappeared before dispatch") [])
  | some page =>
    let typed_on ← typed_on envelope worker
    match ← run_with_deadline runtime envelope gate worker page with
    | .error outcome => return outcome
    | .ok (execution, worker) =>
      match ← prepare runtime envelope worker execution with
      | .error outcome => return outcome
      | .ok () => conclude runtime envelope worker execution.evidence typed_on

def execute_with_session_gate : Prog Outcome := do
  match ← admission runtime envelope with
  | .error outcome => return outcome
  | .ok () =>
    match ← ask (.lease envelope.session_id) with
    | .error error => finish_failure runtime envelope (classify_failure envelope error [])
    | .ok worker =>
      -- workers are pooled and re-leased across sessions, so both flags are written on every lease
      match ← ask (.set_fingerprint_enabled worker gate.fingerprint) with
      | .error error => finish_failure runtime envelope (classify_failure envelope error [])
      | .ok () =>
        match ← ask (.set_humanization_enabled worker gate.humanize) with
        | .error error => finish_failure runtime envelope (classify_failure envelope error [])
        | .ok () => dispatch runtime envelope gate worker

def execute : Prog Outcome := execute_with_session_gate runtime envelope {}

/-! ## Recovery of one command -/

/-- Publish what a prepared result says was downloaded. -/
def finalize_download (prepared : PreparedResult) : Prog (Option CommandError) := do
  match prepared.download with
  | none => return none
  | some download =>
    match prepared.artifact_sha256 with
    | none => return some (internal_error "prepared download is missing its digest")
    | some sha256 =>
      match prepared.artifact_bytes with
      | none => return some (internal_error "prepared download is missing its byte count")
      | some bytes =>
        match ← ask (.finalize_prepared_download download sha256 bytes) with
        | .ok () => return none
        | .error error => return some error

variable (records : List Content)

/-- Publish the artifact of a prepared result, for the session of the first envelope. -/
def finalize_artifact (prepared : PreparedResult) :
    Prog (Option CommandError) := do
  match prepared.artifact_id, prepared.artifact_staging_id, prepared.artifact_sha256,
      prepared.artifact_bytes with
  | some artifact_id, some staging_id, some sha256, some bytes =>
    match records.findSome? Content.envelope with
    | none => return none
    | some envelope =>
      match ← ask (.finalize_prepared_artifact envelope.session_id artifact_id staging_id sha256
          bytes) with
      | .ok () => return none
      | .error error => return some error
  | _, _, _, _ => return none

/-- The last outcome in a history. -/
def last_outcome : Option Outcome := records.reverse.findSome? Content.outcome

/-- The last prepared result in a history. -/
def last_prepared : Option PreparedResult := records.reverse.findSome? Content.prepared_result

/-- The first envelope is that of a command that may not be repeated, and the last phase is one in
which it may have reached the browser. -/
def may_have_reached : Bool :=
  (records.findSome? Content.envelope).any (fun envelope => envelope.command.class ≠ .replayable)
    && (records.getLast?.map Content.phase).any fun phase =>
      phase = .executing || phase = .verifying

/-- Remove the staging files of a download whose command has ended. -/
def cleanup_download : Prog Unit := do
  match (last_prepared records).bind PreparedResult.download with
  | some download =>
    let _ ← ask (.cleanup_prepared_download download)
    return ()
  | none => return ()

/-- What `recover_command` decides from an undamaged history. -/
def recover_records (command_id : CommandId) (records : List Content) : Prog Outcome := do
  match last_outcome records with
  | some outcome =>
    cleanup_download records
    return outcome
  | none =>
    match last_prepared records with
    | some prepared =>
      let needs_reconciliation (error : CommandError) : Outcome :=
        .needs_reconciliation command_id error prepared.evidence
      match ← finalize_download prepared with
      | some error => return needs_reconciliation error
      | none =>
        match ← finalize_artifact records prepared with
        | some error => return needs_reconciliation error
        | none =>
          return needs_reconciliation ⟨.http_equivalence_unproven,
            "durable prepared result requires deterministic finalization", .workflow, false⟩
    | none =>
      if may_have_reached records then
        return .needs_reconciliation command_id ⟨.internal,
          "durable non-replayable command may have reached the browser", .workflow, false⟩ []
      else
        return .retryable_failure command_id (internal_error "no durable prepared result exists")

def recover_command (command_id : CommandId) : Prog Outcome := do
  if !runtime.journal then
    return .failed command_id (internal_error "command journal is not configured") []
  else
    match ← ask (.history command_id) with
    | .error error => return .needs_reconciliation command_id (journal_error .journal error) []
    | .ok scan =>
      if scan.damaged then
        return .needs_reconciliation command_id (internal_error
          "command history was damaged and archived; reconciliation is required") []
      else recover_records command_id scan.records

end

end BobbyBrowser.PageRuntime
