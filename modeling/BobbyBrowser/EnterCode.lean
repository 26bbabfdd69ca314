/-
Entering a one-time code (`crates/intent-engine/src/engine/enter_code.rs`, with
the parts of `engine/locate.rs`, `code_entry.rs` and `verify.rs` it runs through).

The code is a credential that must not appear in what the intent reports. Its
reports are built on two ways out: `failed` and the completed outcome mask the
code, while a control that cannot be located ends the run with the outcome
`locate` built.

The page is whatever the browser answers. Every call is numbered, and an answer
is a function of that number, so a browser is any sequence of answers. Where the
code step is read (`code_entry::detect`) its result is taken as the answer: it
only decides which fields there are. Evidence is the value serde writes for it,
and reading a value back is a parameter. A run keeps a trace of the answers that
end up in its outcome; no part of the run reads it.
-/
import BobbyBrowser.Documents
import BobbyBrowser.Interrupt
import BobbyBrowser.Replace
import BobbyBrowser.Targets

set_option autoImplicit false

namespace BobbyBrowser.EnterCode

open Documents Outcomes Resolver Targets Texts

/-! ## Evidence -/

/-- `Evidence`, as serde writes it. -/
abbrev Evidence := Value

/-- A record with the names of its fields. -/
def record (fields : List (String × Value)) : Value :=
  .record (fields.map fun field => (field.1.toList, field.2))

/-- A fixed string. -/
def string (text : String) : Value := .string text.toList

def candidate_evidence (evidence : CandidateEvidence) : Value :=
  record [("role", .option_string evidence.role), ("name", .option_string evidence.name),
    ("score", .number evidence.score), ("reasons", .array (evidence.reasons.map .string))]

def text_match : Option TextMatch → Value
  | none => .null
  | some (.exact value) => record [("kind", string "exact"), ("value", .string value)]
  | some (.contains value) => record [("kind", string "contains"), ("value", .string value)]
  | some (.regex pattern) => record [("kind", string "regex"), ("value", .string pattern)]

mutual

/-- `TargetSpec`. -/
def target_value : TargetSpec → Value
  | ⟨css, test_id, role, accessible_name, label, text, attributes, frame_path, shadow_path, ordinal,
      allow_best_match⟩ =>
    record [("css", .option_string css), ("testId", .option_string test_id),
      ("role", .option_string role), ("accessibleName", .option_string accessible_name),
      ("label", .option_string label), ("text", text_match text),
      ("attributes", .string_map attributes.entries),
      ("framePath", .array (target_values frame_path)),
      ("shadowPath", .array (target_values shadow_path)),
      ("ordinal", .option_number ordinal), ("allowBestMatch", .bool allow_best_match)]

/-- `Vec<Box<TargetSpec>>`. -/
def target_values : List TargetSpec → List Value
  | [] => []
  | target :: targets => target_value target :: target_values targets

end

/-- `SemanticTargetSegment`. -/
def segment_value (segment : SemanticTargetSegment) : Value :=
  record [("role", .string segment.role), ("accessibleName", .string segment.accessible_name),
    ("ordinal", .option_number segment.ordinal)]

/-- `FormControlTarget`. -/
def control_target_value (target : FormControlTarget) : Value :=
  record [("attributes", .string_map target.attributes.entries), ("role", .string target.role),
    ("accessibleName", .string target.accessible_name), ("ordinal", .option_number target.ordinal),
    ("framePath", .array (target.frame_path.map segment_value)),
    ("shadowPath", .array (target.shadow_path.map segment_value))]

def fingerprint (page_id : Text) (candidate : Candidate) : Value :=
  record [("pageId", .string page_id), ("frame", .null), ("role", .option_string candidate.role),
    ("name", .option_string candidate.name),
    ("stableAttributes", .string_map (identity_attributes candidate).entries)]

def resolution (page_id : Text) (target : TargetSpec) (candidate : Candidate)
    (evidence : CandidateEvidence) (best_match_authorized : Bool) : Evidence :=
  record [("kind", string "resolution"), ("target", target_value target),
    ("fingerprint", fingerprint page_id candidate),
    ("candidates", .array [candidate_evidence evidence]),
    ("bestMatchAuthorized", .bool best_match_authorized)]

def configuration (name value : Text) : Evidence :=
  record [("kind", string "configuration"), ("name", .string name), ("value", .string value)]

/-- `intent_evidence(execution_record(..))` of this intent. -/
def intent_evidence (plan_summary : Text) (candidates : List CandidateEvidence)
    (wait_elapsed_ms : Option ℤ) (verification : Text) : Evidence :=
  record [("kind", string "intentExecution"),
    ("record", record [("intentKind", string "enterCode"),
      ("purpose", string "enter the one-time code"), ("resolutionPath", string "deterministic"),
      ("planSummary", .string plan_summary),
      ("candidates", .array (candidates.map candidate_evidence)),
      ("waitElapsedMs", (wait_elapsed_ms.map Value.number).getD .null),
      ("verification", .string verification), ("artifactIds", .array []),
      ("visionProposalSha256", .null)])]

/-! ## Code steps -/

structure CodeField where
  id : Text
  target : Option FormControlTarget
  max_length : Option ℕ

/-- `CodeStep`: it has a field. -/
structure CodeStep where
  first : CodeField
  others : List CodeField := []
  code_length : Option ℕ := none
  destination_hint : Option Text := none
  submit : Option FormControlTarget := none

/-- The fields of a code step. -/
def CodeStep.fields (step : CodeStep) : List CodeField := step.first :: step.others

def CodeStep.evidence (step : CodeStep) : Evidence :=
  record [("kind", string "codeEntry"),
    ("fields", .array ((step.fields.filterMap CodeField.target).map control_target_value)),
    ("codeLength", .option_number step.code_length),
    ("destinationHint", .option_string step.destination_hint)]

/-- `FormControlState`, as far as a code field is read back. -/
inductive FormControlState
  | text (value : Text)
  | empty
  | other

/-- `FormControl`, as far as a code field is read back. -/
structure FormControl where
  id : Text
  target : Option FormControlTarget
  state : FormControlState

/-- `holds`: the control shows the text, spaces and dashes apart. -/
def holds (control : FormControl) (expected : Text) : Option Bool :=
  match control.state with
  | .text value => some (value.filter (fun c => !is_whitespace c && c != '-') == expected)
  | .empty => some expected.isEmpty
  | .other => none

/-- What a snapshot shows of a field: `none` when its control is gone or unreadable. -/
def shows (snapshot : List FormControl) (field : CodeField) (expected : Text) : Option Bool :=
  ((snapshot.find? fun control => control.id == field.id).filter fun control =>
    control.target == field.target).bind fun control => holds control expected

def wrong_fields (snapshot : List FormControl) (fields : List (CodeField × Text)) :
    List (CodeField × Text) :=
  fields.filter fun field => shows snapshot field.1 field.2 == some false

def target_spec (target : FormControlTarget) : TargetSpec where
  role := some target.role
  accessible_name := some target.accessible_name
  ordinal := target.ordinal
  frame_path := target.frame_path.map segment_spec
  shadow_path := target.shadow_path.map segment_spec

/-! ## Masking -/

/-- `OneTimeCode::normalized`: spaces and dashes removed. -/
def normalized (code : Text) : Text :=
  code.filter fun c =>
    !is_whitespace c && !(c == '-' || (0x2010 ≤ c.toNat && c.toNat ≤ 0x2015))

/-- What stands where the code was. -/
def REDACTED : Text := "[redacted]".toList

/-- `mask`: a code shorter than four characters is too short to mask. -/
def mask (text code : Text) : Text :=
  if code.length < 4 then text else Replace.replace code REDACTED text

/-- `mask_evidence`; `reread` is `serde_json::from_value`, and what it refuses is dropped. -/
def mask_evidence (reread : Value → Option Value) (evidence : List Evidence) (code : Text) :
    List Evidence :=
  evidence.filterMap fun item => reread (item.walk fun text => mask text code)

/-! ## Outcomes -/

inductive IntentOutcome
  | completed (evidence : List Evidence)
  | failed (error : CommandError) (evidence : List Evidence)

/-- An error of the page layer. -/
def page_error (code : ErrorCode) (message : String) : CommandError := ⟨code, message, .page, false⟩

/-- `Display` of a `ResolutionError`. -/
def resolution_error_message : ResolutionError → Text
  | .regex_too_long => "target regular expression exceeds configured limit".toList
  | .invalid_regex message => "invalid target regular expression: ".toList ++ message
  | .candidate_limit_exceeded count limit first_matches =>
    s!"candidate limit exceeded: {count} candidates (limit {limit}); first matches: ".toList
      ++ first_matches
      ++ ". Narrow the target with role + accessibleName, label, testId, CSS, or ordinal".toList

/-- The message of a target that was not found or is ambiguous, with vision off. -/
def stuck_message (verification : String) : String :=
  verification ++ "; no vision fallback ran because vision assist is off for "
    ++ "this session (executionPolicy.visionAssist)"

/-- The outcome of a target that was not found or is ambiguous, with vision off: the code never
leaves for a vision provider. -/
def stuck_outcome (code : ErrorCode) (summary : Text) (candidates : List CandidateEvidence)
    (verification : String) : IntentOutcome :=
  .failed (page_error code (stuck_message verification))
    [intent_evidence summary candidates none verification.toList]

/-- `locate`, once the browser has answered with its candidates. -/
def locate (regex_new : RegexNew) (summary : Text) (target : TargetSpec)
    (answer : Except CommandError (List Candidate)) :
    Except IntentOutcome (Candidate × CandidateEvidence × Bool) :=
  match answer with
  | .error error =>
    .error (.failed error [intent_evidence summary [] none "gatherFailed".toList])
  | .ok census =>
    match resolve_candidates regex_new target census {} with
    | .error error =>
      .error (.failed
        (page_error .invalid_request (String.ofList (resolution_error_message error)))
        [intent_evidence summary [] none "resolveFailed".toList])
    | .ok (.resolved candidate evidence authorized) => .ok (candidate, evidence, authorized)
    | .ok .not_found => .error (stuck_outcome .target_not_found summary [] "targetNotFound")
    | .ok (.ambiguous candidates) =>
      .error (stuck_outcome .target_ambiguous summary candidates "targetAmbiguous")

/-! ## Runs -/

/-- The answers of a browser, by the number of the call. -/
structure Browser where
  /-- `read_code_step`. -/
  code_step : ℕ → Except CommandError (Option CodeStep)
  /-- `form_snapshot`. -/
  form_snapshot : ℕ → Except CommandError (Option (List FormControl))
  /-- `collect_candidates`. -/
  collect_candidates : ℕ → TargetSpec → Except CommandError (List Candidate)
  /-- `type_text`, and whether its evidence verifies the typed text. -/
  type_text : ℕ → Except CommandError Bool
  /-- `click`. -/
  click : ℕ → Except CommandError (List Evidence)
  /-- `wait_for`. -/
  wait_for : ℕ → Except CommandError (List Evidence)
  /-- How often the page is polled before the code step's exit is due. -/
  polls : ℕ

/-- What an outcome is made from. -/
inductive Event
  | located (summary : Text) (target : TargetSpec) (answer : Except CommandError (List Candidate))
  | shown (step : CodeStep)
  | answered (evidence : List Evidence)

/-- `Run`: the calls made so far, and the trace, are not the source's. -/
structure Run where
  summary : Text
  resolutions : List Evidence := []
  calls : ℕ := 0
  trace : List Event := []

/-- What a run is given. -/
structure Request where
  page_id : Text
  code : Text
  submit : Bool
  expects_state : Bool
  regex_new : RegexNew
  reread : Value → Option Value
  browser : Browser

/-- Code that may return an outcome early. -/
abbrev Program := Interrupt.Prog Run (IntentOutcome × List Event)

/-- One call of the browser. -/
def call {α : Type} (answer : ℕ → α) : Program α := fun run =>
  .ok (answer run.calls, { run with calls := run.calls + 1 })

/-- An answer that goes into the outcome. -/
def note (event : Event) : Program Unit := fun run =>
  .ok ((), { run with trace := run.trace ++ [event] })

/-- An early return. -/
def leave {α : Type} (outcome : Run → IntentOutcome) : Program α := fun run =>
  .error (outcome run, run.trace)

section Program

variable (request : Request)

/-- The code as the page receives it. -/
def Request.typed : Text := normalized request.code

def failed (error : CommandError) (evidence : List Evidence) (verification : String) (run : Run) :
    IntentOutcome :=
  .failed
    { error with message := String.ofList (mask error.message.toList request.typed) }
    (mask_evidence request.reread
      (run.resolutions ++ evidence ++ [intent_evidence run.summary [] none verification.toList])
      request.typed)

/-- `Run::locate`. -/
def run_locate (target : FormControlTarget) : Program Candidate := do
  let spec := target_spec target
  let answer ← call fun n => request.browser.collect_candidates n spec
  let summary := (← get).summary
  note (.located summary spec answer)
  match locate request.regex_new summary spec answer with
  | .error outcome => leave fun _ => outcome
  | .ok (candidate, evidence, authorized) => do
    modify fun run => { run with
      resolutions := run.resolutions
        ++ [resolution request.page_id spec candidate evidence authorized] }
    pure candidate

def reads_back (field : CodeField) (expected : Text) : Program Bool := do
  match ← call request.browser.form_snapshot with
  | .ok (some snapshot) => pure (shows snapshot field expected == some true)
  | _ => pure false

def fill (field : CodeField) (chunk : Text) (split : Bool) : Program Unit := do
  match field.target with
  | none =>
    leave (failed request (page_error .intent_action_mismatch
      "a code field has no accessible name, so it cannot be targeted; pass hints naming it") []
      "unnamedField")
  | some target => do
    let _ ← run_locate request target
    match ← call request.browser.type_text with
    | .error error =>
      -- With one character per box there is nothing safe to keep of the message.
      let message :=
        if split then "typing into a code box failed"
        else "typing the code failed: " ++ error.message
      leave (failed request { error with message := message } [] "actFailed")
    | .ok verified => do
      if split || verified then pure ()
      else if ← reads_back request field chunk then pure ()
      else leave (failed request
        (page_error .verification_failed "the code field did not keep the entered code") []
        "verifyFailed")

/-- The loop of `fill` over fields. -/
def fill_all (split : Bool) : List (CodeField × Text) → Program Unit
  | [] => pure ()
  | (field, chunk) :: fields => do
    fill request field chunk split
    fill_all split fields

def REFILL_PASSES : ℕ := 3

/-- One pass over the filled fields: nothing to do when the page cannot be read or shows them all. -/
def unless_filled (fields : List (CodeField × Text))
    (otherwise : List (CodeField × Text) → Program Unit) : Program Unit := do
  match ← call request.browser.form_snapshot with
  | .ok (some snapshot) =>
    if (wrong_fields snapshot fields).isEmpty then pure ()
    else otherwise (wrong_fields snapshot fields)
  | _ => pure ()

/-- `Run::verify_filled`, with the passes that are left. -/
def verify_filled (fields : List (CodeField × Text)) (split : Bool) : ℕ → Program Unit
  | 0 => unless_filled request fields fun _ =>
    leave (failed request (page_error .verification_failed
      "the page did not keep the entered code in every code field") [] "verifyFailed")
  | passes + 1 => unless_filled request fields fun wrong => do
    fill_all request split wrong
    verify_filled fields split passes

/-- `Run::verify_typed_through`, with the passes that are left. -/
def verify_typed_through (fields : List (CodeField × Text)) : ℕ → Program Unit
  | 0 => unless_filled request fields fun _ =>
    leave (failed request (page_error .verification_failed
      ("the code was typed from the first code box, but the page did not move each character "
        ++ "into its own box")) [] "verifyFailed")
  | passes + 1 => unless_filled request fields fun _ => verify_typed_through fields passes

def post_navigation_context_loss (error : CommandError) : Bool :=
  let message := to_ascii_lowercase error.message.toList
  error.code == .browser_command_failed
    && (contains message "cannot find context with specified id".toList
      || contains message "execution context was destroyed".toList)

/-- The end of `Run::press_submit`: the page may have navigated while the press returned. -/
def pressed (acted : Except CommandError (List Evidence)) : Program (List Evidence) :=
  match acted with
  | .ok evidence => do
    note (.answered evidence)
    pure evidence
  | .error error =>
    if post_navigation_context_loss error then pure []
    else leave (failed request error [] "actFailed")

variable (step : CodeStep)

/-- `Run::press_submit`: the step's submit control, or Enter in the last field the page names. -/
def press_submit : Program (List Evidence) := do
  match step.submit with
  | some submit => do
    let _ ← run_locate request submit
    pressed request (← call request.browser.click)
  | none =>
    match step.fields.reverse.findSome? CodeField.target with
    | none => pure []
    | some last => do
      let _ ← run_locate request last
      pressed request ((← call request.browser.type_text).map fun _ => [])

/-- `step.evidence()`, where it goes into an outcome. -/
def carried : Program Evidence := do
  note (.shown step)
  pure step.evidence

def rejected {α : Type} (waited : Option CommandError) (evidence : List Evidence) : Program α := do
  match ← call request.browser.code_step with
  | .ok (some step) => do
    let shown ← carried step
    leave (failed request (page_error .verification_failed
      ("the page still asks for a code after it was submitted: the code may be wrong or "
        ++ "expired. Get a fresh code, then call intent_enter_code again"))
      (evidence ++ [shown]) "codeRejected")
  | _ =>
    let message := match waited with
      | some error => "the code was submitted but the expected post-state did not hold: "
          ++ error.message
      | none => "the code was submitted but the page did not reach a new state"
    leave (failed request (page_error .verification_failed message) evidence "verifyFailed")

/-- `Run::await_exit`, with the polls that are left. -/
def await_exit (evidence : List Evidence) : ℕ → Program Unit
  | 0 => do
    match ← call request.browser.code_step with
    | .ok none => pure ()
    | .ok (some _) => rejected request none evidence
    | .error error => leave (failed request error evidence "verifyFailed")
  | polls + 1 => do
    match ← call request.browser.code_step with
    | .ok none => pure ()
    | _ => await_exit evidence polls

variable (evidence : List Evidence)

/-- The elapsed time of the first `Evidence::Wait`. -/
def wait_elapsed_ms : Option ℤ :=
  evidence.findSome? fun item =>
    match item with
    | .record fields =>
      match fields.lookup "kind".toList, fields.lookup "elapsedMs".toList with
      | some (.string kind), some (.number elapsed) =>
        if kind = "wait".toList then some elapsed else none
      | _, _ => none
    | _ => none

/-- The submission of `execute_enter_code`: what the evidence gains, and how long it waited. -/
def submit_code :
    Program (List Evidence × Option ℤ) := do
  let acted ← press_submit request step
  let evidence := evidence ++ acted
  if request.expects_state then
    match ← call request.browser.wait_for with
    | .ok waited => do
      note (.answered waited)
      pure (evidence ++ waited, wait_elapsed_ms waited)
    | .error error => rejected request (some error) evidence
  else do
    await_exit request evidence request.browser.polls
    pure (evidence, none)

/-- A mismatch between the code and the fields, with the code step as evidence. -/
def length_mismatch {α : Type} (step : CodeStep) (message : String) : Program α := do
  let shown ← carried step
  leave (failed request (page_error .intent_action_mismatch message) [shown] "lengthMismatch")

/-- The checks of `execute_enter_code` on the length of the code. -/
def check_length : Program Unit := do
  let split := decide (1 < step.fields.length)
  let length := request.typed.length
  if split && length != step.fields.length then
    length_mismatch request step
      s!"the page shows {step.fields.length} code boxes but the code has {length} characters"
  else match step.first.max_length with
    | some limit =>
      if !split && decide (limit < length) then
        length_mismatch request step
          s!"the code field takes at most {limit} characters but the code has {length}"
      else pure ()
    | none => pure ()

/-- The filling of `execute_enter_code`. -/
def fill_step : Program Unit := do
  let split := decide (1 < step.fields.length)
  let chunks : List (CodeField × Text) :=
    if split then (step.fields.zip request.typed).map fun (field, c) => (field, [c])
    else [(step.first, request.typed)]
  -- Boxes with no name after a named first box cannot be targeted: the code is typed from the
  -- first box, and the page moves the focus.
  if split && step.first.target.isSome && step.others.any fun field => field.target.isNone then do
    fill request step.first request.typed true
    verify_typed_through request chunks REFILL_PASSES
  else do
    fill_all request split chunks
    verify_filled request chunks split REFILL_PASSES

/-- The first read of the code step in `execute_enter_code`. -/
def first_step : Program CodeStep := do
  match ← call request.browser.code_step with
  | .ok (some step) => pure step
  | .ok none => leave (failed request (page_error .target_not_found
      ("no one-time-code field is on the page; take a form_snapshot and pass the field as "
        ++ "hints")) [] "codeFieldNotFound")
  | .error error => leave (failed request error [] "gatherFailed")

/-- The evidence of the entered code. -/
def entered (step : CodeStep) : Evidence :=
  configuration "enterCode".toList
    s!"entered {request.typed.length} characters in {step.fields.length} field(s)".toList

/-- `execute_enter_code` once the fields are filled. -/
def finish : Program (List Evidence) :=
  if request.submit then do
    let (evidence, elapsed) ← submit_code request step evidence
    let run ← get
    pure (evidence ++ [intent_evidence run.summary [] elapsed "codeAccepted".toList])
  else do
    let run ← get
    pure (evidence ++ [intent_evidence run.summary [] none "filled".toList])

/-- The body of `execute_enter_code`. -/
def body : Program (List Evidence) := do
  let step ← first_step request
  modify fun run => { run with
    summary := s!"enterCode fields={step.fields.length} submit={request.submit}".toList }
  check_length request step
  fill_step request step
  modify fun run => { run with resolutions := run.resolutions ++ [entered request step] }
  let run ← get
  finish request step run.resolutions

/-- `execute_enter_code`, with the trace of the run. -/
def execute_enter_code : IntentOutcome × List Event :=
  match body request { summary := "enterCode".toList } with
  | .ok (evidence, run) =>
    (.completed (mask_evidence request.reread evidence request.typed), run.trace)
  | .error left => left

end Program

end BobbyBrowser.EnterCode
