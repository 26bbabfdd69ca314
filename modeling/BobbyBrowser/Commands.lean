/-
Commands and what is recorded of them (`crates/bobby-browser-client/src/commands.rs`,
`outcomes.rs`, the records of `crates/workflow-journal/src/lib.rs`).

A command carries the fields that a modelled function reads. The targets keep the
selector, which is all that the change of an interaction method touches, and the
plain locators; the paths into frames and shadow roots are left out. Sanitising a
URL parses it, so the text it leaves is a parameter.
-/
import BobbyBrowser.Ledger
import BobbyBrowser.Outcomes

set_option autoImplicit false

namespace BobbyBrowser.Commands

open Outcomes
open Ledger (Instant)

abbrev SessionId := Fin (2 ^ 128)

abbrev PageId := Fin (2 ^ 128)

abbrev WorkflowId := Fin (2 ^ 128)

/-! ## Primitive commands -/

structure TargetSpec where
  css : Option String := none
  test_id : Option String := none
  role : Option String := none
  accessible_name : Option String := none
  label : Option String := none
  ordinal : Option ℕ := none
  allow_best_match : Bool := false
  deriving DecidableEq

inductive WaitUntil
  | commit | dom_content_loaded | interactive | network_idle
  deriving DecidableEq

structure NavigateCommand where
  url : String
  wait_until : WaitUntil
  timeout_ms : ℕ
  deriving DecidableEq

inductive ClickModifier
  | shift | ctrl | alt | meta_key
  deriving DecidableEq

structure ClickCommand where
  selector : String
  target : Option TargetSpec := none
  boundary : Bool
  expected_url : Option String := none
  modifiers : List ClickModifier := []
  deriving DecidableEq

structure TypeTextCommand where
  selector : String
  target : Option TargetSpec := none
  value : String
  clear_first : Bool
  expected_url : Option String := none
  deriving DecidableEq

structure UploadFilesCommand where
  selector : String
  target : Option TargetSpec := none
  paths : List String
  deriving DecidableEq

/-- `ClickAndWaitForPopupCommand` and `ClickAndWaitForDownloadCommand`. -/
structure ClickAndWaitCommand where
  selector : String
  target : Option TargetSpec := none
  timeout_ms : ℕ
  deriving DecidableEq

structure InspectCommand where
  selector : Option String := none
  target : Option TargetSpec := none
  include_html : Bool := false
  deriving DecidableEq

inductive ControlAction
  | set_text (value : String) (clear_first : Bool)
  | set_checked (checked : Bool)
  | select_one (value : String)
  | select_many (values : List String)
  | set_files (paths : List String)
  | clear
  | activate
  | password_manager_fill
  | credential (name : String)
  deriving DecidableEq

inductive PrimitiveCommand
  | navigate (command : NavigateCommand)
  | download_url (url : String) (save_as : Option String)
  | inspect (command : InspectCommand)
  | click (command : ClickCommand)
  | type_text (command : TypeTextCommand)
  | upload_files (command : UploadFilesCommand)
  | upload_and_confirm (upload : UploadFilesCommand)
  | open_page (url : Option String)
  | list_pages
  | close_page (page_id : PageId)
  | activate_page (page_id : PageId)
  | accessibility_snapshot
  | extract_structured
  | get_cookies
  | print_to_pdf
  | handle_dialog
  | emulate
  | network_log
  | set_cookies
  | delete_cookies
  | click_and_wait_for_popup (command : ClickAndWaitCommand)
  | click_and_wait_for_download (command : ClickAndWaitCommand)
  | wait_for
  | capture_screenshot
  | control_action (action : ControlAction)
  | set_focus_emulation
  | set_emulated_media
  | evaluate_javascript (expression : String)
  deriving DecidableEq

def PrimitiveCommand.class : PrimitiveCommand → CommandClass
  | .navigate _ | .inspect _ | .open_page _ | .list_pages | .wait_for | .activate_page _
  | .emulate | .network_log | .accessibility_snapshot | .extract_structured | .get_cookies
  | .print_to_pdf | .capture_screenshot => .replayable
  | .set_cookies | .delete_cookies | .handle_dialog => .reconciliable
  | .download_url _ _ | .type_text _ | .upload_files _ | .close_page _
  | .evaluate_javascript _ => .reconciliable
  | .control_action _ => .reconciliable
  | .click_and_wait_for_popup _ | .click_and_wait_for_download _ | .upload_and_confirm _ =>
    .boundary
  | .click command => if command.boundary then .boundary else .reconciliable
  | .set_focus_emulation => .reconciliable
  | .set_emulated_media => .reconciliable

/-! ## Intents -/

/-- `ScreenRegion` of a challenge. -/
structure Region where
  x : ℕ
  y : ℕ
  width : ℕ
  height : ℕ
  deriving DecidableEq

/-- `IntentCommand`, with what decides its class and what the recovery ladder fills in. -/
inductive IntentCommand
  | locate
  | fill (value : ControlAction)
  | complete_form (values : List ControlAction)
  | submit_and_verify
  | wait_for_state
  | follow (boundary : Bool)
  | dismiss_obstruction
  | extract
  | solve_challenge (purpose : String) (region : Option Region) (timeout_ms : ℕ)
  | detect_challenge (purpose : String) (region : Option Region) (timeout_ms : ℕ)
  | enter_code (code : String) (submit : Bool)
  deriving DecidableEq

def IntentCommand.class : IntentCommand → CommandClass
  | .locate | .wait_for_state | .extract => .replayable
  | .detect_challenge _ _ _ => .replayable
  | .fill _ | .complete_form _ | .dismiss_obstruction => .reconciliable
  | .solve_challenge _ _ _ => .reconciliable
  | .enter_code _ submit => if submit then .boundary else .reconciliable
  | .submit_and_verify => .boundary
  | .follow boundary => if boundary then .boundary else .reconciliable

inductive RuntimeCommand
  | primitive (command : PrimitiveCommand)
  | intent (command : IntentCommand)
  deriving DecidableEq

def RuntimeCommand.class : RuntimeCommand → CommandClass
  | .primitive command => command.class
  | .intent command => command.class

structure CommandEnvelope where
  schema_version : ℕ := 2
  command_id : CommandId
  workflow_id : WorkflowId
  attempt_id : AttemptId
  session_id : SessionId
  page_id : Option PageId
  deadline : Instant
  command : RuntimeCommand
  deriving DecidableEq

def SCHEMA_VERSION : ℕ := 2

/-! ## Evidence -/

/-- `ChallengeDetection`, the part a ladder step reads. -/
structure DetectedChallenge where
  challenge_type : String
  region : Option Region
  deriving DecidableEq

/-- `Evidence`. What no modelled function reads is `other`. -/
inductive Evidence
  | navigation (url title : String)
  | inspection (selector : Option String) (url title text : String)
  | element (selector : String) (text : Option String)
  | pages (pages : List (PageId × String))
  | download (path sha256 : String) (saved_to : Option String)
  | configuration (name value : String)
  /-- The confidence in hundredths. -/
  | challenge_detection (confidence : ℕ) (detection : Option DetectedChallenge)
  | intent_execution
  | other (digest : ℕ)
  deriving DecidableEq

/-- `CommandOutcome` of this development. -/
abbrev Outcome := CommandOutcome Evidence

/-! ## What may be stored -/

section

variable (safe_url : String → String)

def Evidence.journal_safe : Evidence → Evidence
  | .navigation url title => .navigation (safe_url url) title
  | .inspection selector url title text => .inspection selector (safe_url url) title text
  | .pages listed => .pages (listed.map fun page => (page.1, safe_url page.2))
  | .download _ sha256 _ => .download ("artifact://sha256/" ++ sha256) sha256 none
  | evidence => evidence

/-- The error as it is stored. -/
def redact_error (error : CommandError) : CommandError :=
  { error with message := "redacted durable diagnostic" }

/-- `CommandOutcome::journal_safe`. -/
def journal_safe_outcome : Outcome → Outcome
  | .completed id evidence => .completed id (evidence.map (Evidence.journal_safe safe_url))
  | .retryable_failure id error => .retryable_failure id (redact_error error)
  | .needs_reconciliation id error evidence =>
    .needs_reconciliation id (redact_error error) (evidence.map (Evidence.journal_safe safe_url))
  | .policy_denied id error => .policy_denied id (redact_error error)
  | .resource_exhausted id error retry_after_ms =>
    .resource_exhausted id (redact_error error) retry_after_ms
  | .restarted id prior_attempt_id attempt_id reason evidence =>
    .restarted id prior_attempt_id attempt_id reason
      (evidence.map (Evidence.journal_safe safe_url))
  | .failed id error evidence =>
    .failed id (redact_error error) (evidence.map (Evidence.journal_safe safe_url))

/-- The paths of an upload as they are stored. -/
def redact_paths (paths : List String) : List String :=
  paths.zipIdx.map fun p => "upload://input/" ++ toString p.2

def PrimitiveCommand.sanitize_urls : PrimitiveCommand → PrimitiveCommand
  | .navigate command => .navigate { command with url := safe_url command.url }
  | .download_url url save_as =>
    .download_url (safe_url url) (save_as.map fun _ => "[redacted-download-path]")
  | .upload_files command => .upload_files { command with paths := redact_paths command.paths }
  | .upload_and_confirm upload =>
    .upload_and_confirm { upload with paths := redact_paths upload.paths }
  | .open_page url => .open_page (url.map safe_url)
  | .click command => .click { command with expected_url := command.expected_url.map safe_url }
  | .control_action (.set_files paths) => .control_action (.set_files (redact_paths paths))
  | command => command

def RuntimeCommand.sanitize_urls : RuntimeCommand → RuntimeCommand
  | .primitive command => .primitive (command.sanitize_urls safe_url)
  | .intent (.enter_code _ submit) => .intent (.enter_code "[redacted-code]" submit)
  | .intent command => .intent command

def CommandEnvelope.journal_safe (envelope : CommandEnvelope) : CommandEnvelope :=
  { envelope with command := envelope.command.sanitize_urls safe_url }

end

variable {safe_url : String → String}

theorem class_primitive_sanitize_urls (command : PrimitiveCommand) :
    (command.sanitize_urls safe_url).class = command.class := by
  cases command with
  | control_action action => cases action <;> rfl
  | _ => rfl

theorem class_journal_safe (envelope : CommandEnvelope) :
    (envelope.journal_safe safe_url).command.class = envelope.command.class := by
  rw [CommandEnvelope.journal_safe]
  cases envelope.command with
  | primitive command => exact class_primitive_sanitize_urls command
  | intent command => cases command <;> rfl

/-! ## Journal records -/

structure PreparedDownload where
  staging_id : String
  metadata_sha256 : String
  deriving DecidableEq

/-- `PreparedResult`, without the state delta, which is always null. -/
structure PreparedResult where
  command_id : CommandId
  attempt_id : AttemptId
  state_version : ℕ
  evidence : List Evidence
  artifact_id : Option String
  artifact_sha256 : Option String
  artifact_bytes : Option ℕ
  artifact_staging_id : Option String
  download : Option PreparedDownload
  deriving DecidableEq

/-- What a `JournalRecord` holds besides its sequence number, its time and its command. -/
structure Content where
  phase : CommandPhase
  envelope : Option CommandEnvelope := none
  outcome : Option Outcome := none
  prepared_result : Option PreparedResult := none
  deriving DecidableEq

end BobbyBrowser.Commands
