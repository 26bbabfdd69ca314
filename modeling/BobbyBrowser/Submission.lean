/-
Submitting a command (`crates/sdk-core/src/lib.rs`).

The session's policy decides whether a command may run at all and with which gate:
the vision grants, and the two settings of its browser. A session with the recovery
ladder runs its page commands under it, with a strategy that is built for the one
command from the workflow's checkpoint.
-/
import BobbyBrowser.LadderProgram

set_option autoImplicit false

namespace BobbyBrowser.Submission

open Outcomes Commands Skills PageRuntime
open Ladder (Coding Coordinator SkillRecoveryExecution)
open Ledger (Instant)

/-- `ExecutionPolicy`, as far as it is read here. -/
structure ExecutionPolicy where
  javascript_evaluation : Bool := false
  password_manager : Bool := false
  vision_assist : Bool := false
  fingerprint : Bool := false
  humanize : Bool := false
  vision_node : Option String := none
  deriving DecidableEq

/-- The session of a command. -/
structure Session where
  execution_policy : ExecutionPolicy := {}
  zigzagzig : Bool := false
  deriving DecidableEq

/-- `ApplicationService`, without its sessions. -/
structure Service where
  pages : Runtime
  coding : Coding
  recovery : Bool := true
  recovery_workers : Bool := true
  collect_training_data : Bool := false
  vision_nodes : List String := []

def uses_password_manager : RuntimeCommand → Bool
  | .primitive (.control_action action) => action = .password_manager_fill
  | .intent (.fill value) => value = .password_manager_fill
  | .intent (.complete_form values) => values.any (· = .password_manager_fill)
  | _ => false

variable (service : Service)

def vision_node_selection (policy : ExecutionPolicy) : NodeSelection :=
  match policy.vision_node with
  | none => .not_requested
  | some name => if name ∈ service.vision_nodes then .resolved name else .unresolved

variable (session : Option Session)

/-- The policy of a session; an absent one permits nothing. -/
def policy : ExecutionPolicy := (session.map Session.execution_policy).getD {}

/-- The session has the ladder. -/
def zigzagzig : Bool := (session.map Session.zigzagzig).getD false

/-- The vision grants of a command. -/
def vision_gate (command : RuntimeCommand)
    (vision_capability_ok one_shot_session_ok : Bool) : VisionGate :=
  match command with
  | .intent _ =>
    ⟨(policy session).vision_assist || one_shot_session_ok, vision_capability_ok⟩
  | .primitive _ =>
    if zigzagzig session then ⟨(policy session).vision_assist, vision_capability_ok⟩ else {}

/-- The gate of a session for a command. -/
def session_gate (command : RuntimeCommand)
    (vision_capability_ok one_shot_session_ok : Bool) : SessionGate where
  vision := vision_gate session command vision_capability_ok one_shot_session_ok
  fingerprint := (policy session).fingerprint
  humanize := (policy session).humanize
  collect_training_data := service.collect_training_data
  vision_node := vision_node_selection service (policy session)

variable (envelope : CommandEnvelope)

/-- A command that the policy refuses. -/
def policy_refusal : Option Outcome :=
  let denied (message : String) : Outcome :=
    .policy_denied envelope.command_id ⟨.policy_denied, message, .workflow, false⟩
  let javascript := match envelope.command with
    | .primitive (.evaluate_javascript _) => true
    | _ => false
  if javascript && !(policy session).javascript_evaluation then
    some (denied "javascript evaluation is not permitted for this session")
  else if uses_password_manager envelope.command && !(policy session).password_manager then
    some (denied
      "password manager fill is not permitted for this session; start it with executionPolicy.passwordManager")
  else none

def zigzagzig_unavailable (reason : String) : CommandError :=
  ⟨.internal, "zigzagzig ladder unavailable: " ++ reason, .workflow, false⟩

def ZIGZAGZIG_TACTIC_BUDGET_MS : ℕ := 30000

/-- The proof that the ladder is given of a stored checkpoint: a digest of all of it. -/
def checkpoint_proof (coding : Coding) (envelope : CommandEnvelope)
    (checkpoint : WorkflowCheckpoint) (now : Instant) : SkillCheckpointProof :=
  ⟨checkpoint.checkpoint_id, envelope.session_id, now, coding.checkpoint_sha256 checkpoint⟩

/-- The strategy for one command. Nothing of an earlier run is in it, and no engines. -/
def strategy (coding : Coding) (envelope : CommandEnvelope)
    (checkpoint : Option WorkflowCheckpoint) (now : Instant) : SkillZigZagZig where
  state :=
    { session_id := envelope.session_id
      last_checkpoint_id := checkpoint.map WorkflowCheckpoint.checkpoint_id
      verified_checkpoint := checkpoint.map fun checkpoint =>
        checkpoint_proof coding envelope checkpoint now
      deadline := envelope.deadline }
  per_tactic_budget_ms := ZIGZAGZIG_TACTIC_BUDGET_MS
  compatible_engines := []

/-- The coordinator of a ladder run. -/
def Service.coordinator (gate : SessionGate) : Coordinator where
  runtime := service.pages
  coding := service.coding
  session_gate := gate
  recovery_workers := service.recovery_workers

/-- `execute_with_zigzagzig`, whose callers have checked that there are recovery and workers. -/
def execute_with_zigzagzig (gate : SessionGate) :
    Prog (Except CommandError SkillRecoveryExecution) := do
  match envelope.page_id with
  | none => return .error (zigzagzig_unavailable "the command has no page identity")
  | some page_id =>
    match ← ask (.get_page page_id) with
    | none =>
      return .error (zigzagzig_unavailable "page state unreadable: page not found")
    | some page =>
      let checkpoint := (← ask (.load_checkpoint envelope.workflow_id)).toOption
      let now ← ask .now
      let ran ← Ladder.execute_with_adaptation (service.coordinator gate) envelope page
        (strategy service.coding envelope checkpoint now)
      return ran.1

/-- The command runs under the ladder. -/
def ladder_ready : Bool :=
  zigzagzig session && envelope.page_id.isSome && service.recovery && service.pages.workers

/-- `submit_with_vision_grant_inner`. -/
def submit (vision_capability_ok one_shot_session_ok : Bool) : Prog Outcome := do
  match policy_refusal session envelope with
  | some outcome => return outcome
  | none =>
    let gate := session_gate service session envelope.command vision_capability_ok
      one_shot_session_ok
    if ladder_ready service session envelope then
      match ← execute_with_zigzagzig service envelope gate with
      | .ok execution => return execution.command_outcome
      | .error error => return .failed envelope.command_id error []
    else execute_with_session_gate service.pages envelope gate

/-! ### A service, and commands for it -/

/-- A service with everything configured. -/
def plain_service : Service where
  pages := {}
  coding := Ladder.plain_coding

/-- Surroundings in which everything succeeds. -/
def calm_env : Env where
  choose _ call := calm ⟨5, 4, none⟩ call
  fired _ := false

/-- A click on that page. -/
def click : CommandEnvelope where
  command_id := 1
  workflow_id := 2
  attempt_id := 3
  session_id := 4
  page_id := some 5
  deadline := 5000000
  command := .primitive (.click { selector := "#send", boundary := false })

/-- A click that must not be repeated, with the URL it leads to. -/
def pay : CommandEnvelope :=
  { click with
    command := .primitive (.click
      { selector := "#pay", boundary := true, expected_url := some "https://a.example/paid" }) }

/-- The checkpoint that was taken for it. -/
def pay_checkpoint : WorkflowCheckpoint where
  checkpoint_id := 9
  workflow_id := 2
  attempt_id := 3
  session_id := 4
  page_id := 5
  restart_url := "https://a.example/"
  current_url := "https://a.example/"
  boundary_command_id := some 1
  recovery_class := .boundary

/-- A world with this checkpoint. -/
def pay_world : World where
  checkpoints id := if id = 2 then some pay_checkpoint else none

end BobbyBrowser.Submission
