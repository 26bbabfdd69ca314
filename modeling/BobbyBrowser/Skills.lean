/-
The recovery strategy (`crates/skill-runtime/src/zigzagzig.rs`, with the types of
`crates/bobby-browser-client/src/skills.rs` and `recovery.rs`).

For a failed command the strategy names one tactic at a time, in the order of a
ladder and each at most once. Issuing a decision reserves its tactic until the
decision's outcome is recorded or a receipt for it is settled.

The evidence references of an outcome are digests of what the outcome already
says; they are left out, as are the session's profile but for its engine and the
versions of the active skills. Whether a text may be shown is a parameter.
-/
import BobbyBrowser.Commands

set_option autoImplicit false

namespace BobbyBrowser.Skills

open Outcomes Commands
open Ledger (Instant)

abbrev CheckpointId := Fin (2 ^ 128)

inductive SkillFailure
  | unsupported_capability | configuration_conflict | deadline_exceeded | target_drift
  | postcondition_failed | effect_uncertain | checkpoint_mismatch | strategy_exhausted
  | engine_unavailable
  deriving DecidableEq, Repr

inductive SkillTactic
  | observe_again | resolve_semantic_target | change_interaction_method | solve_challenge
  | reconcile_checkpoint | fresh_ghost_session | select_compatible_engine
  | restart_durable_boundary
  deriving DecidableEq, Repr

inductive SkillBrowserEngine
  | firefox | chromium | webkit
  deriving DecidableEq, Repr

def LADDER : List SkillTactic :=
  [.observe_again, .resolve_semantic_target, .change_interaction_method, .solve_challenge,
    .reconcile_checkpoint, .fresh_ghost_session, .select_compatible_engine,
    .restart_durable_boundary]

/-- `requires_checkpoint`, and `is_owned_recovery_tactic` of the coordinator. -/
def requires_checkpoint : SkillTactic → Bool
  | .reconcile_checkpoint | .fresh_ghost_session | .select_compatible_engine
  | .restart_durable_boundary => true
  | .observe_again | .resolve_semantic_target | .change_interaction_method
  | .solve_challenge => false

/-! ## Decisions -/

structure SkillCheckpointProof where
  checkpoint_id : CheckpointId
  session_id : SessionId
  verified_at : Instant
  attestation : String
  deriving DecidableEq

/-- Nanoseconds in a millisecond. -/
def nanos_per_milli : ℕ := 1000000

/-- `SkillCheckpointProof::is_fresh_at`, with its age limit of 15 minutes. -/
def SkillCheckpointProof.is_fresh_at (proof : SkillCheckpointProof) (now : Instant) : Bool :=
  proof.verified_at ≤ now && now - proof.verified_at ≤ 15 * 60 * 1000 * nanos_per_milli

structure SkillDecision where
  tactic : SkillTactic
  trigger : SkillFailure
  expected_postcondition : String
  remaining_deadline_ms : ℕ
  tactic_budget_ms : ℕ
  checkpoint_id : Option CheckpointId := none
  selected_engine : Option SkillBrowserEngine := none
  deriving DecidableEq

/-- `SkillCommandIdentity`, and `RecoveryCommandIdentity`, which has the same fields. -/
structure SkillCommandIdentity where
  command_id : CommandId
  workflow_id : WorkflowId
  attempt_id : AttemptId
  session_id : SessionId
  page_id : Option PageId
  command_class : CommandClass
  command_sha256 : String
  deriving DecidableEq

structure SkillIssuedDecision where
  reservation_id : CommandId
  session_id : SessionId
  command_identity : Option SkillCommandIdentity
  decision : SkillDecision
  checkpoint_proof : Option SkillCheckpointProof
  issued_at : Instant
  deadline : Instant
  deriving DecidableEq

inductive SkillOutcome
  | applied
  | adapted (tactic : SkillTactic)
  | stopped
  | failed (failure : SkillFailure)
  deriving DecidableEq

structure SkillTrigger where
  failure : SkillFailure
  expected_postcondition : String

/-- `SkillTrigger::new`: the text of the postcondition must be one that may be shown. -/
def SkillTrigger.new (safe_text : String → Bool) (failure : SkillFailure) (text : String) :
    Except SkillFailure SkillTrigger :=
  if safe_text text then .ok ⟨failure, text⟩ else .error .configuration_conflict

/-! ## Receipts -/

inductive RecoveryReceiptState
  | pending_journal | committed | unresolved
  deriving DecidableEq

/-- `RecoveryReceipt`. The idempotency key is the command of its identity. -/
structure RecoveryReceipt where
  identity : SkillCommandIdentity
  state : RecoveryReceiptState
  reservation_id : CommandId
  decision : SkillDecision
  command_outcome : Outcome
  skill_outcome : SkillOutcome
  tactic_evidence : List Evidence
  recorded_at : Instant
  deriving DecidableEq

/-! ## The strategy -/

structure SkillSessionState where
  session_id : SessionId
  engine : Option SkillBrowserEngine := none
  last_checkpoint_id : Option CheckpointId := none
  verified_checkpoint : Option SkillCheckpointProof := none
  reserved_tactic : Option SkillTactic := none
  pending_issuance : Option SkillIssuedDecision := none
  attempted_tactics : List SkillTactic := []
  deadline : Instant
  deriving DecidableEq

structure SkillZigZagZig where
  state : SkillSessionState
  per_tactic_budget_ms : ℕ
  compatible_engines : List SkillBrowserEngine
  stopped : Bool := false
  deriving DecidableEq

def remaining_deadline_ms (deadline now : Instant) : Except SkillFailure ℕ :=
  let remaining := (deadline - now) / nanos_per_milli
  if remaining = 0 then .error .deadline_exceeded else .ok remaining

namespace SkillZigZagZig

variable (skills : SkillZigZagZig)

def verified_checkpoint (now : Instant) : Option SkillCheckpointProof :=
  skills.state.verified_checkpoint.filter fun proof =>
    skills.state.last_checkpoint_id = some proof.checkpoint_id
      && proof.session_id = skills.state.session_id && proof.is_fresh_at now

def select_compatible_engine : Option SkillBrowserEngine :=
  skills.state.engine.bind fun current => skills.compatible_engines.find? (· ≠ current)

def eligible (tactic : SkillTactic) (now : Instant) : Bool :=
  tactic ∉ skills.state.attempted_tactics
    && (!requires_checkpoint tactic || (skills.verified_checkpoint now).isSome)
    && (tactic ≠ .select_compatible_engine || skills.select_compatible_engine.isSome)

def next_tactic (failure : SkillFailure) (now : Instant) : Option SkillTactic :=
  if failure = .effect_uncertain then
    if skills.eligible .reconcile_checkpoint now then some .reconcile_checkpoint else none
  else LADDER.find? fun tactic => skills.eligible tactic now

def terminal_failure (trigger : SkillFailure) : SkillFailure :=
  if trigger = .effect_uncertain then .effect_uncertain else .strategy_exhausted

/-- `SkillZigZagZig::next_decision_for_command`. The reservation is a fresh UUID. The checks of
`SkillDecision` and `SkillIssuedDecision` hold of what is built here. -/
def next_decision_for_command (trigger : SkillTrigger) (identity : SkillCommandIdentity)
    (reservation_id : CommandId) (now : Instant) :
    Except SkillFailure (SkillDecision × SkillIssuedDecision × SkillZigZagZig) := do
  let remaining ← remaining_deadline_ms skills.state.deadline now
  if skills.stopped || skills.state.pending_issuance.isSome || skills.per_tactic_budget_ms = 0 then
    throw .strategy_exhausted
  match skills.next_tactic trigger.failure now with
  | none => throw (terminal_failure trigger.failure)
  | some tactic =>
    let proof := if requires_checkpoint tactic then skills.verified_checkpoint now else none
    let decision : SkillDecision :=
      { tactic := tactic
        trigger := trigger.failure
        expected_postcondition := trigger.expected_postcondition
        remaining_deadline_ms := remaining
        tactic_budget_ms := min skills.per_tactic_budget_ms remaining
        checkpoint_id := proof.map SkillCheckpointProof.checkpoint_id
        selected_engine :=
          if tactic = .select_compatible_engine then skills.select_compatible_engine else none }
    if identity.session_id ≠ skills.state.session_id then throw .configuration_conflict
    let issued : SkillIssuedDecision :=
      { reservation_id := reservation_id
        session_id := skills.state.session_id
        command_identity := some identity
        decision := decision
        checkpoint_proof := proof
        issued_at := now
        deadline := skills.state.deadline }
    return (decision, issued,
      { skills with
        state :=
          { skills.state with
            attempted_tactics := skills.state.attempted_tactics ++ [tactic]
            reserved_tactic := some tactic
            pending_issuance := some issued } })

/-- The state once nothing is reserved. -/
def released : SkillZigZagZig :=
  { skills with state := { skills.state with reserved_tactic := none, pending_issuance := none } }

def outcome_tactic : SkillOutcome → Option SkillTactic
  | .adapted tactic => some tactic
  | .applied | .stopped | .failed _ => none

def record_outcome (decision : SkillDecision) (outcome : SkillOutcome) (now : Instant) :
    Except SkillFailure SkillZigZagZig :=
  if skills.state.deadline < now then .error .deadline_exceeded
  else match skills.state.pending_issuance with
    | none => .error .configuration_conflict
    | some issued =>
      let proof_is_unchanged := issued.checkpoint_proof.all fun proof =>
        skills.verified_checkpoint now = some proof
      if now < issued.issued_at || decision ≠ issued.decision || !proof_is_unchanged
          || (outcome_tactic outcome).any (· ≠ decision.tactic) then
        .error .configuration_conflict
      else .ok skills.released

/-- `settle_committed_receipt_state`. -/
def settle_committed_receipt (receipt : RecoveryReceipt) : Except SkillFailure SkillZigZagZig :=
  if receipt.state ≠ .committed then .error .configuration_conflict
  else match skills.state.pending_issuance with
    | none => .ok skills
    | some issued =>
      if issued.command_identity ≠ some receipt.identity
          || issued.reservation_id ≠ receipt.reservation_id
          || issued.decision ≠ receipt.decision
          || (outcome_tactic receipt.skill_outcome).any (· ≠ receipt.decision.tactic) then
        .error .configuration_conflict
      else .ok skills.released

end SkillZigZagZig

end BobbyBrowser.Skills
