/-
The recovery ladder: its programs.

A run first settles what an earlier run has left, then executes the command, and
then climbs: it issues a decision, stores it, carries out its tactic and records
what came of it. The tactics that take over the session's browser end in a receipt,
which is stored in the checkpoint before the outcome is journaled.

The strategy is the local state of these tasks; it is built anew for every run of
a command. Budgets are timers, which may fire between any two calls.
-/
import BobbyBrowser.Ladder

set_option autoImplicit false

namespace BobbyBrowser.Ladder

open Outcomes Commands Skills PageRuntime
open Calls
open Calls.Task (throw get set lift expired of_except)
open Ledger (Instant)

/-- A task of the ladder, with the strategy as its state. -/
abbrev Climb := Task Res SkillZigZagZig CommandError

/-- Make a call. -/
abbrev call (op : Call) : Climb (Res op) := Task.call op

section

variable (c : Coordinator) (envelope : CommandEnvelope)

/-! ## The journal and the receipts -/

def clear_skill_issuance (workflow_id : WorkflowId) : Climb Unit := do
  of_except recovery_coordinator_error (← call (.remove_skill_issuance workflow_id))

/-- The phase of a terminal record of the ladder. -/
def terminal_phase : Outcome → CommandPhase
  | .completed _ _ | .restarted _ _ _ _ _ => .completed
  | _ => .failed

def persist_recovery_outcome (outcome : Outcome) : Climb Unit := do
  if !c.runtime.journal then
    throw (recovery_error .internal "command journal is not configured" false)
  else
    of_except (journal_error .workflow)
      (← call (.append envelope.command_id { phase := .recovering }))
    of_except (journal_error .workflow)
      (← call (.append envelope.command_id
        (terminal_record c.runtime (terminal_phase outcome) outcome)))

variable (receipt : RecoveryReceipt)

def flush_recovery_receipt : Climb Unit := do
  if !c.runtime.journal then
    throw (recovery_error .internal "command journal is not configured" false)
  else
    let durable := journal_safe_outcome c.runtime.safe_url receipt.command_outcome
    let history ← of_except (journal_error .workflow) (← call (.history envelope.command_id))
    if history.damaged then
      throw (recovery_error .internal
        "command history was damaged and archived; reconciliation required" false)
    else if history.records.any fun record => record.outcome = some durable then return ()
    else persist_recovery_outcome c envelope receipt.command_outcome

variable (decision : SkillDecision)

def issued_for_receipt : Climb SkillIssuedDecision := do
  match (← get).state.pending_issuance with
  | none =>
    throw (recovery_error .invalid_request "owned recovery receipt requires its issued decision"
      false)
  | some issued =>
    if issued.decision ≠ decision
        || issued.command_identity ≠ some (issued_command_identity c.coding envelope) then
      throw (recovery_error .invalid_request
        "owned recovery receipt does not match its issued decision" false)
    else return issued

def settle_committed_receipt : Climb Unit := do
  let settled ← of_except (skill_failure_error c.coding)
    ((← get).settle_committed_receipt receipt)
  of_except skill_state_error (← call (.replace_skill_state settled.state))
  set settled
  clear_skill_issuance receipt.identity.workflow_id

/-- The receipt is stored, its outcome is journaled, and the receipt is committed. -/
def commit_receipt : Climb RecoveryReceipt := do
  of_except recovery_coordinator_error (← call (.persist_recovery_receipt receipt))
  of_except recovery_coordinator_error
    (← call (.transition_recovery_receipt receipt.identity .pending_journal))
  match ← (flush_recovery_receipt c envelope receipt).attempt with
  | .error error =>
    throw (recovery_error error.code (OUTBOX_PENDING_PREFIX ++ error.message) error.retryable)
  | .ok () =>
    of_except recovery_coordinator_error
      (← call (.transition_recovery_receipt receipt.identity .committed))
    return { receipt with state := .committed }

/-- The receipt of an outcome. -/
def new_receipt (outcome : Outcome) (skill_outcome : SkillOutcome)
    (tactic_evidence : List SkillTacticEvidence) : Climb RecoveryReceipt := do
  let issued ← issued_for_receipt c envelope decision
  let now ← call .now
  of_except id (recovery_receipt c envelope issued outcome skill_outcome tactic_evidence now)

def commit_owned_execution (outcome : Outcome)
    (skill_outcome : SkillOutcome) (tactic_evidence : List SkillTacticEvidence) :
    Climb SkillRecoveryExecution := do
  let receipt ← new_receipt c envelope decision outcome skill_outcome tactic_evidence
  let receipt ← commit_receipt c envelope receipt
  settle_committed_receipt c receipt
  of_except id (execution_from_receipt c.coding receipt)

def record_decision (outcome : SkillOutcome) : Climb Unit := do
  let before ← get
  let now ← call .now
  let recorded ← of_except (skill_failure_error c.coding)
    (before.record_outcome decision outcome now)
  of_except skill_state_error (← call (.replace_skill_state recorded.state))
  set recorded
  match before.state.pending_issuance.bind SkillIssuedDecision.command_identity with
  | none => throw (recovery_error .internal "issued decision lost command identity" false)
  | some identity => clear_skill_issuance identity.workflow_id

/-- What a recovery that could not be followed to its end tells of its tactic. -/
def deadline_receipt (late uncertain : String) : Climb RecoveryReceipt :=
  new_receipt c envelope decision (deadline_outcome c.coding decision envelope late uncertain)
    (.failed (deadline_failure envelope)) [tactic_record decision .reconciliation_required]

def finalize_owned_deadline : Climb Unit := do
  let receipt ← deadline_receipt c envelope decision
    "owned recovery stabilized after the command deadline"
    "owned boundary recovery stabilized with an uncertain effect"
  let receipt ← commit_receipt c envelope receipt
  match ← (settle_committed_receipt c receipt).attempt with
  | .ok () => return ()
  | .error error =>
    throw (recovery_error error.code (OWNED_TERMINAL_PREFIX ++ error.message) error.retryable)

def persist_unresolved_deadline : Climb Unit := do
  let receipt ← deadline_receipt c envelope decision
    "owned recovery did not stabilize within its finalization budget"
    "owned boundary recovery is still stabilizing with an uncertain effect"
  of_except recovery_coordinator_error (← call (.persist_recovery_receipt receipt))

/-! ## What an earlier run has left -/

/-- The receipt that decides the command, if there is one; an unresolved one does not. -/
def receipt_to_replay (checkpoint : WorkflowCheckpoint) (pending : Option SkillIssuedDecision) :
    Except CommandError (Option RecoveryReceipt) :=
  let identity := issued_command_identity c.coding envelope
  if pending.any fun pending => pending.command_identity ≠ some identity then
    .error (recovery_error .invalid_request
      "pending recovery issuance belongs to a different command identity" false)
  else match checkpoint.recovery_receipts.findSome? fun receipt =>
      match validate_receipt c.coding receipt with
      | .ok () => none
      | .error message => some message with
    | some message =>
      .error (recovery_error .invalid_request
        ("invalid durable recovery receipt: " ++ message) false)
    | none =>
      match checkpoint.recovery_receipts.find? fun receipt => receipt.identity = identity with
      | none =>
        if checkpoint.recovery_receipts.any fun receipt =>
            receipt.identity.command_id = identity.command_id then
          .error (recovery_error .invalid_request
            "durable recovery receipt belongs to a different command payload" false)
        else if checkpoint.recovery_receipts.any fun receipt =>
            receipt.identity.session_id = envelope.session_id && receipt.state ≠ .committed then
          .error (recovery_error .invalid_request
            "a recovery receipt for a different command identity must be reconciled first" false)
        else .ok none
      | some receipt => if receipt.state = .unresolved then .ok none else .ok (some receipt)

/-- A receipt that is replayed is the one of this command, and is pending or committed. -/
theorem receipt_to_replay_some {c : Coordinator} {envelope : CommandEnvelope}
    {checkpoint : WorkflowCheckpoint} {pending : Option SkillIssuedDecision}
    {receipt : RecoveryReceipt}
    (h : receipt_to_replay c envelope checkpoint pending = .ok (some receipt)) :
    checkpoint.recovery_receipts.find?
        (fun receipt => receipt.identity = issued_command_identity c.coding envelope)
      = some receipt ∧ receipt.state ≠ .unresolved := by
  unfold receipt_to_replay at h
  simp only at h
  split at h
  · nomatch h
  split at h
  · nomatch h
  split at h
  · split at h
    · nomatch h
    · split at h
      · nomatch h
      · nomatch Except.ok.inj h
  · rename_i found hfind
    split at h
    · nomatch Except.ok.inj h
    · rename_i hstate
      rw [← Option.some.inj (Except.ok.inj h)]
      exact ⟨hfind, hstate⟩

/-- A receipt whose outcome may not be journaled yet is committed. -/
def flush_pending : Climb RecoveryReceipt := do
  if receipt.state = .pending_journal then
    flush_recovery_receipt c envelope receipt
    of_except recovery_coordinator_error
      (← call (.transition_recovery_receipt receipt.identity .committed))
    return { receipt with state := .committed }
  else return receipt

/-- The issuance a run goes by: the strategy's own, or the stored one. -/
def pending_issuance : Climb (Option SkillIssuedDecision) := do
  match (← get).state.pending_issuance with
  | some pending => return some pending
  | none =>
    of_except recovery_coordinator_error (← call (.load_skill_issuance envelope.workflow_id))

def replay_recovery_receipt : Climb (Option SkillRecoveryExecution) := do
  match ← call (.load_checkpoint envelope.workflow_id) with
  | .error .not_found => return none
  | .error error => throw (recovery_coordinator_error error)
  | .ok checkpoint =>
    let pending ← pending_issuance envelope
    match ← of_except id (receipt_to_replay c envelope checkpoint pending) with
    | none => return none
    | some receipt =>
      let receipt ← flush_pending c envelope receipt
      settle_committed_receipt c receipt
      clear_skill_issuance envelope.workflow_id
      let execution ← of_except id (execution_from_receipt c.coding receipt)
      return some execution

/-- The end of `reconcile_pending_decision`, for a pending issuance of this command. -/
def reconcile_issuance (pending : SkillIssuedDecision) : Climb SkillRecoveryExecution := do
  let now ← call .now
  let candidate ← of_except id (recovery_receipt c envelope pending
    (deadline_outcome c.coding pending.decision envelope
      "reconciled a pending owned recovery before command execution"
      "reconciled a pending boundary recovery with an uncertain effect")
    (.failed (deadline_failure envelope))
    [tactic_record pending.decision .reconciliation_required] now)
  let checkpoint ← of_except recovery_coordinator_error
    (← call (.load_checkpoint envelope.workflow_id))
  let receipt :=
    (checkpoint.recovery_receipts.find? fun receipt =>
      receipt.identity = candidate.identity).getD candidate
  of_except recovery_coordinator_error (← call (.persist_recovery_receipt receipt))
  of_except recovery_coordinator_error
    (← call (.transition_recovery_receipt receipt.identity .pending_journal))
  flush_recovery_receipt c envelope receipt
  of_except recovery_coordinator_error
    (← call (.transition_recovery_receipt receipt.identity .committed))
  let receipt := { receipt with state := .committed }
  settle_committed_receipt c receipt
  of_except id (execution_from_receipt c.coding receipt)

def reconcile_pending_decision : Climb (Option SkillRecoveryExecution) := do
  if ← expired then throw (deadline_error "owned recovery is still stabilizing")
  else match (← get).state.pending_issuance with
    | none => return none
    | some pending =>
      if pending.command_identity ≠ some (issued_command_identity c.coding envelope) then
        throw (recovery_error .invalid_request
          "pending recovery issuance belongs to a different command identity" false)
      else
        let execution ← reconcile_issuance c envelope pending
        return some execution

/-! ## Looking at the page -/

variable (page : PageState)

def observe_postcondition : Climb (Bool × List Evidence) := do
  let worker ← of_except id (← call (.lease envelope.session_id))
  let evidence ← of_except id
    (← call (.inspect worker page.id (observation envelope.command)))
  return (postcondition_matched envelope.command evidence, evidence)

variable (recovered : RecoveryDecision)

def sync_recovered_page (page : PageState) : Climb Unit := do
  let url ← match recovered with
    | .resumed _ _ evidence => pure (observed_url evidence)
    | .needs_reconciliation _ _ _ evidence => pure (observed_url evidence)
    | .restarted _ _ _ => do
      let checkpoint ← of_except recovery_coordinator_error
        (← call (.load_checkpoint envelope.workflow_id))
      pure (some checkpoint.restart_url)
  match url with
  | none => return ()
  | some url =>
    of_except
      (fun message => recovery_error .internal
        ("recovered page state update failed: " ++ message) false)
      (← call (.set_url page.id url))

/-! ## Tactics that take over the browser -/

/-- The five identities of a checkpoint, its proof and its class are those of the decision and of
the command. -/
def authority_matches (coding : Coding) (decision : SkillDecision) (envelope : CommandEnvelope)
    (page_id : PageId) (checkpoint : WorkflowCheckpoint) (proof : SkillCheckpointProof)
    (now : Instant) : Bool :=
  decision.checkpoint_id = some checkpoint.checkpoint_id
    && checkpoint.workflow_id = envelope.workflow_id
    && checkpoint.attempt_id = envelope.attempt_id
    && checkpoint.session_id = envelope.session_id
    && checkpoint.page_id = page_id
    && proof.checkpoint_id = checkpoint.checkpoint_id
    && proof.session_id = checkpoint.session_id
    && proof.is_fresh_at now
    && proof.attestation = checkpoint_authority_digest coding checkpoint
    && (envelope.command.class ≠ .boundary
      || (checkpoint.recovery_class = .boundary
        && checkpoint.boundary_command_id = some envelope.command_id))

def ensure_recovery_authority : Climb WorkflowCheckpoint := do
  let checkpoint ← of_except recovery_coordinator_error
    (← call (.load_checkpoint envelope.workflow_id))
  let failures := evaluate_invariants checkpoint.invariants checkpoint.evidence
  if !failures.isEmpty then
    throw (recovery_coordinator_error (.invariant_mismatch ("; ".intercalate failures)))
  else
    let issued := (← get).state.pending_issuance.filter fun issued => issued.decision = decision
    match issued.bind SkillIssuedDecision.checkpoint_proof, envelope.page_id with
    | none, _ =>
      throw (checkpoint_mismatch_error "issued recovery decision has no checkpoint proof")
    | some _, none =>
      throw (recovery_error .invalid_request "recovery command is missing its page identity" false)
    | some proof, some page_id =>
      let now ← call .now
      if !authority_matches c.coding decision envelope page_id checkpoint proof now then
        throw (checkpoint_mismatch_error
          "recovery checkpoint does not match the reviewed command authority")
      else
        of_except recovery_coordinator_error
          (← call (.verify_unchanged checkpoint.workflow_id))
        return checkpoint

def stabilize_recovery_pool (session_id : SessionId) : Climb Unit := do
  if !c.recovery_workers then throw (recovery_coordinator_error .workers_unavailable)
  else
    of_except (recovery_coordinator_error ∘ browser_error)
      (← call (.invalidate_session session_id))

variable (checkpoint : WorkflowCheckpoint)

/-- `prepare_owned_pool_tactic`: what is done to the session's browser, and the effect of it. A
restart has none of its own. -/
def prepare_owned_pool_tactic :
    Climb (Option SkillTacticEffect) := do
  match decision.tactic with
  | .fresh_ghost_session =>
    of_except id (← call (.release_session envelope.session_id))
    return some .session_replaced
  | .select_compatible_engine =>
    match decision.selected_engine with
    | none =>
      throw (recovery_error .invalid_request
        "engine replacement decision omitted its reviewed engine" false)
    | some engine =>
      of_except id (← call (.replace_session envelope.session_id engine))
      return some .engine_replaced
  | .restart_durable_boundary =>
    stabilize_recovery_pool c checkpoint.session_id
    return none
  | _ =>
    stabilize_recovery_pool c checkpoint.session_id
    return some .checkpoint_resumed

def reattach_recovery_pool : Climb WorkerId := do
  if !c.recovery_workers then throw (recovery_coordinator_error .workers_unavailable)
  else
    let worker ← of_except (recovery_coordinator_error ∘ browser_error)
      (← call (.lease checkpoint.session_id))
    of_except (recovery_coordinator_error ∘ browser_error)
      (← call (.open_page worker checkpoint.page_id))
    return worker

/-- The elements whose text a checkpoint asserts. -/
def inspect_texts (worker : WorkerId) (page_id : PageId) :
    List CheckpointInvariant → Climb (List Evidence)
  | [] => return []
  | .text selector _ :: invariants => do
    let evidence ← of_except (recovery_coordinator_error ∘ browser_error)
      (← call (.inspect worker page_id { selector := some selector }))
    let rest ← inspect_texts worker page_id invariants
    return evidence ++ rest
  | _ :: invariants => inspect_texts worker page_id invariants

/-- What the state of the page after recovery is taken for. -/
def recovery_decision (worker : WorkerId) (checkpoint : WorkflowCheckpoint)
    (evidence : List Evidence) : Climb RecoveryDecision := do
  let failures := evaluate_invariants checkpoint.invariants evidence
  if failures.isEmpty then
    return .resumed checkpoint.checkpoint_id checkpoint.attempt_id evidence
  else if checkpoint.recovery_class = .boundary then
    return .needs_reconciliation checkpoint.checkpoint_id checkpoint.attempt_id
      ("; ".intercalate failures) evidence
  else
    let restart_evidence ← of_except (recovery_coordinator_error ∘ browser_error)
      (← call (.navigate worker checkpoint.page_id checkpoint.restart_url))
    let attempt_id ← call .fresh_id
    return .restarted checkpoint.checkpoint_id
      ⟨checkpoint.workflow_id, checkpoint.attempt_id, attempt_id, "; ".intercalate failures⟩
      restart_evidence

/-- Store what was decided in the checkpoint. -/
def save_decision (decision : RecoveryDecision) :
    Climb Unit := do
  of_except recovery_coordinator_error (← call (.save_if_unchanged
    { checkpoint with recovery_history := checkpoint.recovery_history ++ [decision] }))

def complete_prepared_recovery (worker : WorkerId) :
    Climb RecoveryDecision := do
  of_except recovery_coordinator_error (← call (.verify_unchanged checkpoint.workflow_id))
  let navigated ← of_except (recovery_coordinator_error ∘ browser_error)
    (← call (.navigate worker checkpoint.page_id checkpoint.current_url))
  let inspected ← of_except (recovery_coordinator_error ∘ browser_error)
    (← call (.inspect worker checkpoint.page_id {}))
  let texts ← inspect_texts worker checkpoint.page_id checkpoint.invariants
  let decision ← recovery_decision worker checkpoint (navigated ++ inspected ++ texts)
  save_decision checkpoint decision
  return decision

def after_replacement (effect : SkillTacticEffect) (page : PageState) : Climb TacticProgress := do
  sync_recovered_page envelope recovered page
  match recovered with
  | .resumed _ _ _ =>
    match ← observe_postcondition envelope page with
    | (true, evidence) => return .completed evidence effect
    | (false, _) => return recovery_progress recovered effect envelope
  | _ => return recovery_progress recovered effect envelope

/-- What a reconciled checkpoint says of the command. -/
def reconcile_progress (effect : SkillTacticEffect) (envelope : CommandEnvelope) : TacticProgress :=
  match recovered with
  | .resumed _ _ _ =>
    if envelope.command.class = .boundary then .effect_uncertain effect else .continued effect
  | .restarted _ lineage evidence =>
    .restarted (restarted_outcome envelope lineage evidence) .durable_boundary_restarted
  | .needs_reconciliation _ _ _ _ => .effect_uncertain .reconciliation_required

/-- The first part of `finish_owned_tactic`. -/
def finish_recovery (effect : SkillTacticEffect) : Climb TacticProgress := do
  let worker ← reattach_recovery_pool c checkpoint
  let recovered ← complete_prepared_recovery checkpoint worker
  of_except id (ensure_checkpoint_authority decision recovered)
  if decision.tactic = .reconcile_checkpoint then
    sync_recovered_page envelope recovered page
    return reconcile_progress recovered effect envelope
  else after_replacement envelope recovered effect page

/-- The second part of `finish_owned_tactic`. The restart's own navigation is a command of its
own. -/
def finish_restart :
    Climb TacticProgress := do
  let _ ← reattach_recovery_pool c checkpoint
  let attempt_id ← call .fresh_id
  let lineage : RestartLineage := ⟨checkpoint.workflow_id, checkpoint.attempt_id, attempt_id,
    "restarted from reviewed durable boundary"⟩
  of_except id (ensure_checkpoint_authority decision
    (.restarted checkpoint.checkpoint_id lineage []))
  let command_id ← call .fresh_id
  let navigation := restart_navigation envelope command_id attempt_id checkpoint.restart_url
    decision.tactic_budget_ms
  match ← lift (execute c.runtime navigation) with
  | .completed _ evidence =>
    let restarted := RecoveryDecision.restarted checkpoint.checkpoint_id lineage evidence
    save_decision checkpoint restarted
    return recovery_progress restarted .durable_boundary_restarted envelope
  | outcome =>
    throw (recovery_error .verification_failed
      ("durable restart navigation failed: " ++ c.coding.debug_outcome outcome) false)

def finish_owned_tactic (prepared : Option SkillTacticEffect) : Climb TacticProgress :=
  match prepared with
  | some effect => finish_recovery c envelope decision page checkpoint effect
  | none => finish_restart c envelope decision checkpoint

/-- How the task that takes over the browser ends: within its budget, within the time for
finalization, or not before it is aborted, wherever it is then. -/
inductive PoolPhase
  | done (prepared : Option SkillTacticEffect)
  | late
  | unfinished

/-- The task that takes over the browser. -/
def pool_phase (p : Climb (Option SkillTacticEffect)) : Climb PoolPhase := do
  if !(← expired) then
    let prepared ← p
    return .done prepared
  else if !(← expired) then
    let _ ← p.attempt
    return .late
  else if !(← expired) then
    let _ ← p.attempt
    return .unfinished
  else return .unfinished

/-- The text of a tactic that ran out of its budget. -/
def tactic_deadline : String := "skill tactic exceeded its remaining total deadline"

/-- The outcome of a tactic that took over the browser and ran out of its budget. -/
def finalize_late : Climb TacticProgress := do
  finalize_owned_deadline c envelope decision
  throw (deadline_error (OWNED_TERMINAL_PREFIX ++ tactic_deadline))

/-- The second half of `execute_tactic`. -/
def owned_tactic : Climb TacticProgress := do
  let checkpoint ← ensure_recovery_authority c envelope decision
  of_except recovery_coordinator_error (← call (.verify_unchanged checkpoint.workflow_id))
  match ← pool_phase (prepare_owned_pool_tactic c envelope decision checkpoint) with
  | .late => finalize_late c envelope decision
  | .unfinished =>
    persist_unresolved_deadline c envelope decision
    throw (deadline_error (OWNED_TERMINAL_PREFIX ++ "owned recovery is still stabilizing"))
  | .done prepared =>
    if ← expired then finalize_late c envelope decision
    else
      match ← (finish_owned_tactic c envelope decision page checkpoint prepared).within with
      | some progress => return progress
      | none => finalize_late c envelope decision

/-! ## Tactics on the page as it is -/

/-- `remaining_duration`, in milliseconds. -/
def remaining_duration (deadline now : Instant) : Except CommandError ℕ :=
  let millis := (deadline - now) / nanos_per_milli
  if millis = 0 then .error (deadline_error "command deadline has elapsed") else .ok millis

/-- `tactic_budget`, in milliseconds. -/
def tactic_budget : Climb ℕ := do
  let total ← of_except id (remaining_duration envelope.deadline (← call .now))
  let budget := min (min total decision.remaining_deadline_ms) decision.tactic_budget_ms
  if budget = 0 then throw (deadline_error "skill tactic has no remaining deadline budget")
  else return budget

/-- The `ChangeInteractionMethod` of `execute_tactic_inner`. -/
def change_interaction_method : Climb TacticProgress := do
  let alternate ← of_except id (alternate_interaction_envelope envelope)
  match ← lift (execute c.runtime alternate) with
  | .completed _ evidence => return .completed evidence .command_retried
  | outcome => return .outcome outcome .command_retried

/-- The `SolveChallenge` of `execute_tactic_inner`. Both intents run under the identifier of the
command. -/
def solve_challenge : Climb TacticProgress := do
  let budget ← tactic_budget envelope decision
  let started ← call .now
  let found := detection
    (← lift (execute_with_session_gate c.runtime (detect_envelope envelope budget) c.session_gate))
  if detected_clean found then return .continued .challenge_detection_clean
  else
    let elapsed := ((← call .now) - started) / nanos_per_milli
    match ← lift (execute_with_session_gate c.runtime
        (solve_envelope envelope found (budget - elapsed)) c.session_gate) with
    | .completed _ _ =>
      match ← observe_postcondition envelope page with
      | (true, evidence) => return .completed evidence .challenge_solve_attempted
      | (false, _) => return .continued .challenge_solve_attempted
    | _ => return .continued .challenge_solve_attempted

/-- `execute_tactic_inner`, which is reached with the tactics that leave the browser alone. -/
def execute_tactic_inner : Climb TacticProgress := do
  match decision.tactic with
  | .change_interaction_method => change_interaction_method c envelope
  | .solve_challenge => solve_challenge c envelope decision page
  | _ =>
    match ← observe_postcondition envelope page with
    | (true, evidence) => return .completed evidence .postcondition_confirmed
    | (false, _) =>
      return .continued
        (if decision.tactic = .observe_again then .observed else .re_resolved)

def execute_tactic : Climb TacticProgress := do
  let _ ← tactic_budget envelope decision
  if decision.tactic = .reconcile_checkpoint then
    match ← (observe_postcondition envelope page).within with
    | none => throw (deadline_error tactic_deadline)
    | some (true, evidence) => return .completed evidence .postcondition_confirmed
    | some (false, _) =>
      if ← expired then throw (deadline_error tactic_deadline)
      else owned_tactic c envelope decision page
  else if requires_checkpoint decision.tactic then owned_tactic c envelope decision page
  else
    match ← (execute_tactic_inner c envelope decision page).within with
    | none => throw (deadline_error tactic_deadline)
    | some progress => return progress

/-! ## The climb -/

def issue_decision (trigger : SkillTrigger) : Climb (Except SkillFailure SkillDecision) := do
  let before ← get
  let now ← call .now
  let reservation_id ← call .fresh_id
  match before.next_decision_for_command trigger (issued_command_identity c.coding envelope)
      reservation_id now with
  | .error failure => return .error failure
  | .ok (decision, issued, after) =>
    match ← call (.save_skill_issuance envelope.workflow_id issued) with
    | .error _ =>
      let _ ← call (.replace_skill_state before.state)
      return .error .configuration_conflict
    | .ok () =>
      match ← call (.replace_skill_state after.state) with
      | .error _ => return .error .configuration_conflict
      | .ok () =>
        set after
        return .ok decision

/-- The end of a run whose last tactic has decided it. -/
def conclude_tactic (recorded : SkillOutcome) (outcome : Outcome)
    (skill_outcome : SkillOutcome) (tactic_evidence : List SkillTacticEvidence) :
    Climb SkillRecoveryExecution := do
  let outcome := append_tactic_evidence c.coding outcome tactic_evidence
  if requires_checkpoint decision.tactic then
    commit_owned_execution c envelope decision outcome skill_outcome tactic_evidence
  else
    record_decision c decision recorded
    persist_recovery_outcome c envelope outcome
    return ⟨outcome, skill_outcome, tactic_evidence⟩

/-- The end of a run whose last tactic has failed. -/
def failed_tactic (error : CommandError)
    (tactic_evidence : List SkillTacticEvidence) : Climb SkillRecoveryExecution := do
  let replayed ←
    if is_owned_terminal_error error then replay_recovery_receipt c envelope else pure none
  match replayed with
  | some execution => return execution
  | none =>
    let tactic_evidence := tactic_evidence ++ [tactic_record decision .reconciliation_required]
    let outcome := command_failure envelope error decision.trigger
    if is_owned_terminal_error error || is_outbox_pending_error error then
      return ⟨append_tactic_evidence c.coding outcome tactic_evidence, .failed decision.trigger,
        tactic_evidence⟩
    else
      conclude_tactic c envelope decision (.failed decision.trigger) outcome
        (.failed decision.trigger) tactic_evidence

/-- The error of a boundary command whose effect is not known. -/
def uncertain_error : CommandError :=
  recovery_error .verification_failed "boundary effect remains uncertain after reconciliation" false

variable (next : Outcome → List SkillTacticEvidence → Climb SkillRecoveryExecution)

/-- What follows a tactic that has not failed. -/
def progressed (decision : SkillDecision) (progress : TacticProgress) (outcome : Outcome)
    (tactic_evidence : List SkillTacticEvidence) : Climb SkillRecoveryExecution := do
  let tactic_evidence := tactic_evidence ++ [tactic_record decision progress.effect]
  let recorded := SkillOutcome.adapted decision.tactic
  match progress with
  | .completed observed _ =>
    conclude_tactic c envelope decision recorded (.completed envelope.command_id observed) recorded
      tactic_evidence
  | .restarted restarted _ =>
    conclude_tactic c envelope decision recorded restarted recorded tactic_evidence
  | .effect_uncertain _ =>
    conclude_tactic c envelope decision recorded
      (.needs_reconciliation envelope.command_id uncertain_error []) (.failed .effect_uncertain)
      tactic_evidence
  | .continued _ =>
    record_decision c decision recorded
    next outcome tactic_evidence
  | .outcome outcome _ =>
    record_decision c decision recorded
    next outcome tactic_evidence

/-- The body of the loop of `execute_with_adaptation`, with the next turn of the loop. -/
def rung (outcome : Outcome) (tactic_evidence : List SkillTacticEvidence) :
    Climb SkillRecoveryExecution := do
  let trigger ← of_except (skill_failure_error c.coding)
    (SkillTrigger.new c.coding.safe_text (failure_from_outcome outcome envelope.command.class)
      (expected_postcondition envelope.command))
  match ← issue_decision c envelope trigger with
  | .error terminal =>
    let outcome := append_tactic_evidence c.coding outcome tactic_evidence
    persist_recovery_outcome c envelope outcome
    return ⟨outcome, .failed terminal, tactic_evidence⟩
  | .ok decision =>
    match ← (execute_tactic c envelope decision page).attempt with
    | .error error => failed_tactic c envelope decision error tactic_evidence
    | .ok progress => progressed c envelope next decision progress outcome tactic_evidence

/-- The loop, for at most `n + 1` turns. A tactic is tried once, so that `LADDER.length` is
enough. -/
def climb (page : PageState) :
    ℕ → Outcome → List SkillTacticEvidence → Climb SkillRecoveryExecution
  | 0 => rung c envelope page fun _ _ => throw (skill_failure_error c.coding .strategy_exhausted)
  | n + 1 => rung c envelope page (climb page n)

def validate_context : Climb Unit := do
  let mismatch := recovery_error .invalid_request
    "adaptation page does not match the command context" false
  if envelope.page_id ≠ some page.id || envelope.session_id ≠ page.session_id then
    throw mismatch
  else
    match ← call (.get_page page.id) with
    | none => throw mismatch
    | some _ =>
      if (← get).state.session_id ≠ envelope.session_id then
        throw (recovery_error .invalid_request
          "skill authority does not belong to the command session" false)
      else return ()

/-- The outcome of a command that has exceeded its total deadline. -/
def total_deadline_outcome (error : CommandError) : Outcome :=
  if envelope.command.class = .boundary then .needs_reconciliation envelope.command_id error []
  else .retryable_failure envelope.command_id error

/-- The first execution of the command, within its total deadline. -/
def first_attempt : Climb Outcome := do
  match remaining_duration envelope.deadline (← call .now) with
  | .error error => return total_deadline_outcome envelope error
  | .ok _ =>
    match ← (lift (execute c.runtime envelope) : Climb Outcome).within with
    | some outcome => return outcome
    | none =>
      return total_deadline_outcome envelope
        (deadline_error "command exceeded its total deadline")

/-- The command is executed, and the ladder climbed unless it completes. -/
def attempt_and_climb : Climb SkillRecoveryExecution := do
  validate_context envelope page
  match ← first_attempt c envelope with
  | .completed id evidence => return ⟨.completed id evidence, .applied, []⟩
  | outcome => climb c envelope page LADDER.length outcome []

def execute_with_adaptation : Climb SkillRecoveryExecution := do
  match ← replay_recovery_receipt c envelope with
  | some execution => return execution
  | none =>
    match ← reconcile_pending_decision c envelope with
    | some execution => return execution
    | none =>
      match ← replay_recovery_receipt c envelope with
      | some execution => return execution
      | none => attempt_and_climb c envelope page

end

end BobbyBrowser.Ladder
