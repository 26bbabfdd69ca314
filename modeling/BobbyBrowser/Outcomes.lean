/-
How commands end (`crates/bobby-browser-client/src/outcomes.rs`).

The evidence an outcome carries is page data that no modelled function looks
into, so it is a type parameter.
-/
import Mathlib.Algebra.Order.BigOperators.Ring.Finset

set_option autoImplicit false

namespace BobbyBrowser.Outcomes

/-- The UUIDs have a zero. -/
instance nonempty_uuid : NeZero (2 ^ 128) := ⟨by decide⟩

/-- `CommandId`, a UUID. -/
abbrev CommandId := Fin (2 ^ 128)

/-- `AttemptId`, a UUID. -/
abbrev AttemptId := Fin (2 ^ 128)

inductive ErrorCode
  | invalid_request | not_found | deadline_exceeded | browser_launch_failed
  | browser_command_failed | verification_failed | journal_failed | resource_exhausted
  | policy_denied | internal | target_not_found | target_ambiguous | frame_not_found
  | shadow_root_unavailable | target_detached | target_obscured | target_out_of_bounds
  | wait_condition_timed_out | screenshot_capture_failed | network_policy_denied
  | http_response_too_large | http_transfer_failed | http_state_conflict
  | http_equivalence_unproven | intent_compile_failed | intent_action_mismatch
  | obstruction_suspected | vision_assist_denied | vision_assist_failed
  | expected_state_pre_satisfied | boundary_already_executed | verification_code_required
  deriving DecidableEq, Repr

inductive ErrorLayer
  | interface | broker | workflow | page | driver | browser | network | site | journal
  deriving DecidableEq, Repr

structure CommandError where
  code : ErrorCode
  message : String
  layer : ErrorLayer
  retryable : Bool
  deriving DecidableEq, Repr

inductive CommandPhase
  | accepted | prepared | executing | result_prepared | verifying | recovering | completed | failed
  deriving DecidableEq, Repr

inductive CommandClass
  | replayable | reconciliable | boundary
  deriving DecidableEq, Repr

/-- `CommandOutcome`, with `E` for `Evidence`. -/
inductive CommandOutcome (E : Type)
  | completed (command_id : CommandId) (evidence : List E)
  | retryable_failure (command_id : CommandId) (error : CommandError)
  | needs_reconciliation (command_id : CommandId) (error : CommandError) (evidence : List E)
  | policy_denied (command_id : CommandId) (error : CommandError)
  | resource_exhausted (command_id : CommandId) (error : CommandError) (retry_after_ms : ℕ)
  | restarted (command_id : CommandId) (prior_attempt_id attempt_id : AttemptId) (reason : String)
      (evidence : List E)
  | failed (command_id : CommandId) (error : CommandError) (evidence : List E)
  deriving DecidableEq

/-- The command an outcome is of. -/
def CommandOutcome.command_id {E : Type} : CommandOutcome E → CommandId
  | .completed command_id _ | .retryable_failure command_id _
  | .needs_reconciliation command_id _ _ | .policy_denied command_id _
  | .resource_exhausted command_id _ _ | .restarted command_id _ _ _ _
  | .failed command_id _ _ => command_id

end BobbyBrowser.Outcomes
