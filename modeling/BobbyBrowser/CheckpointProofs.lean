/-
Whether the proof of a checkpoint is accepted
(`crates/sdk-core/src/lib.rs`, `crates/page-runtime/src/skill_recovery/checkpoint.rs`).

The proof is minted when the run of a ladder begins, from a digest of the whole
checkpoint. The check compares it with a digest that leaves out the history and the
receipts of recoveries, so that a run may append to them. The two digests agree only
for a checkpoint that had neither.
-/
import BobbyBrowser.Submission

set_option autoImplicit false

namespace BobbyBrowser.Submission

open Outcomes Commands Skills PageRuntime Ladder Option
open Calls
open Ledger (Instant)

/-- The checkpoint, after recoveries have been appended to it. -/
def appended (checkpoint : WorkflowCheckpoint) (history : List RecoveryDecision)
    (receipts : List RecoveryReceipt) : WorkflowCheckpoint :=
  { checkpoint with
    recovery_history := checkpoint.recovery_history ++ history
    recovery_receipts := checkpoint.recovery_receipts ++ receipts }

/-- What the check asks for besides the attestation: the checkpoint is that of the command, its
invariants hold, and the proof is not too old. -/
def Reviewed (envelope : CommandEnvelope) (checkpoint : WorkflowCheckpoint)
    (minted_at now : Instant) : Prop :=
  evaluate_invariants checkpoint.invariants checkpoint.evidence = [] ∧
    checkpoint.workflow_id = envelope.workflow_id ∧
    checkpoint.attempt_id = envelope.attempt_id ∧
    checkpoint.session_id = envelope.session_id ∧
    envelope.page_id = some checkpoint.page_id ∧
    (minted_at ≤ now ∧ now - minted_at ≤ 15 * 60 * 1000 * nanos_per_milli) ∧
    (envelope.command.class = .boundary → checkpoint.recovery_class = .boundary ∧
      checkpoint.boundary_command_id = some envelope.command_id)

/-- The decision was issued with the proof that was minted from the checkpoint. -/
structure Minted (coding : Coding) (envelope : CommandEnvelope) (checkpoint : WorkflowCheckpoint)
    (minted_at : Instant) (decision : SkillDecision) (skills : SkillZigZagZig) : Prop where
  decided : decision.checkpoint_id = some checkpoint.checkpoint_id
  issued : ∃ issued, skills.state.pending_issuance = some issued ∧ issued.decision = decision ∧
    issued.checkpoint_proof = some (checkpoint_proof coding envelope checkpoint minted_at)

/-- Surroundings in which the store can be read and the clock says `now`. -/
structure Answering (env : Env) (now : Instant) : Prop where
  load : ∀ n id, env.choose n (.load_checkpoint id) = none
  clock : ∀ n, env.choose n .now = now
  unchanged : ∀ n id, env.choose n (.verify_unchanged id) = .ok ()

variable {coding : Coding} {envelope : CommandEnvelope} {checkpoint : WorkflowCheckpoint}
  {minted_at now : Instant} {decision : SkillDecision} {page_id : PageId}

/-- Nothing that is appended to a checkpoint changes the digest that is compared. -/
theorem checkpoint_authority_digest_appended (history : List RecoveryDecision)
    (receipts : List RecoveryReceipt) :
    checkpoint_authority_digest coding (appended checkpoint history receipts)
      = checkpoint_authority_digest coding checkpoint :=
  rfl

/-- The digest of the whole checkpoint is the one that is compared only when there is nothing to
leave out. -/
theorem attested_iff
    (hsha : ∀ other, coding.checkpoint_sha256 checkpoint = coding.checkpoint_sha256 other →
      checkpoint = other) :
    coding.checkpoint_sha256 checkpoint = checkpoint_authority_digest coding checkpoint ↔
      checkpoint.recovery_history = [] ∧ checkpoint.recovery_receipts = [] := by
  constructor
  · intro hdigest
    have hsame := hsha _ hdigest
    exact ⟨congrArg WorkflowCheckpoint.recovery_history hsame,
      congrArg WorkflowCheckpoint.recovery_receipts hsame⟩
  · rintro ⟨hhistory, hreceipts⟩
    rw [checkpoint_authority_digest, ← hhistory, ← hreceipts]

/-- A proof minted from a checkpoint is accepted, whatever was appended to it since, exactly when
the review stands and the digest of the whole checkpoint is the one without its history and
receipts. -/
theorem authority_matches_minted (hdecided : decision.checkpoint_id = some checkpoint.checkpoint_id)
    (hvalid : evaluate_invariants checkpoint.invariants checkpoint.evidence = [])
    (hpage : envelope.page_id = some page_id) (history : List RecoveryDecision)
    (receipts : List RecoveryReceipt) :
    authority_matches coding decision envelope page_id (appended checkpoint history receipts)
        (checkpoint_proof coding envelope checkpoint minted_at) now = true ↔
      Reviewed envelope checkpoint minted_at now ∧
        coding.checkpoint_sha256 checkpoint = checkpoint_authority_digest coding checkpoint := by
  rw [authority_matches, checkpoint_authority_digest_appended, Reviewed, hpage]
  generalize checkpoint_authority_digest coding checkpoint = digest
  simp only [appended, checkpoint_proof, SkillCheckpointProof.is_fresh_at, hdecided, hvalid,
    Bool.and_eq_true, Bool.or_eq_true, decide_eq_true_eq, some.injEq, true_and]
  grind

variable {c : Coordinator} {skills : SkillZigZagZig} {w : World} {env : Env}

/-- **A proof is accepted** when the rest of the check is met and there was nothing of a recovery
in the checkpoint it was minted from. -/
theorem minted_proof_accepted_iff
    (hsha : ∀ other, c.coding.checkpoint_sha256 checkpoint = c.coding.checkpoint_sha256 other →
      checkpoint = other)
    (hminted : Minted c.coding envelope checkpoint minted_at decision skills)
    (history : List RecoveryDecision) (receipts : List RecoveryReceipt)
    (hstored : w.checkpoints envelope.workflow_id = some (appended checkpoint history receipts))
    (henv : Answering env now) (n : ℕ) :
    (∃ accepted, (run handler env n
        (ensure_recovery_authority c envelope decision skills) w).1.1 = .ok accepted) ↔
      Reviewed envelope checkpoint minted_at now ∧
        checkpoint.recovery_history = [] ∧ checkpoint.recovery_receipts = [] := by
  set stored := appended checkpoint history receipts
  obtain ⟨issued, hpending, hdecision, hproof⟩ := hminted.issued
  have hload : (handler.handle (.load_checkpoint envelope.workflow_id)
      (env.choose n (.load_checkpoint envelope.workflow_id)) w).1
      = .ok stored := by
    rw [henv.load]
    simp [handler, World.respond, World.load_checkpoint, hstored]
  have hissued : (skills.state.pending_issuance.filter fun issued =>
      decide (issued.decision = decision)) = some issued := by
    rw [hpending, filter_some, if_pos (decide_eq_true hdecision)]
  rw [← attested_iff hsha]
  unfold ensure_recovery_authority
  rw [Task.run_call_bind, hload, Task.run_ok_bind]
  generalize (handler.handle (.load_checkpoint envelope.workflow_id)
    (env.choose n (.load_checkpoint envelope.workflow_id)) w).2 = w₁
  by_cases hvalid : evaluate_invariants checkpoint.invariants checkpoint.evidence = []
  · have hempty : (evaluate_invariants stored.invariants
        stored.evidence).isEmpty = true :=
      List.isEmpty_iff.mpr hvalid
    simp only [hempty, Bool.not_true, Bool.false_eq_true, if_false]
    rw [Task.run_get_bind, hissued]
    cases hpage : envelope.page_id with
    | none =>
      simp only [bind_some, hproof]
      refine iff_of_false (fun ⟨_, hok⟩ => nomatch hok) ?_
      rintro ⟨⟨-, -, -, -, hsome, -⟩, -⟩
      rw [hpage] at hsome
      nomatch hsome
    | some page_id =>
      simp only [bind_some, hproof]
      have hclock : (handler.handle .now (env.choose (n + 1) .now) w₁).1 = now := henv.clock _
      rw [← authority_matches_minted hminted.decided hvalid hpage history receipts,
        Task.run_call_bind, hclock]
      cases hmatches : authority_matches c.coding decision envelope page_id
        stored
        (checkpoint_proof c.coding envelope checkpoint minted_at) now with
      | false => exact iff_of_false (fun ⟨_, hok⟩ => nomatch hok) Bool.false_ne_true
      | true =>
        refine iff_of_true ⟨stored, ?_⟩ rfl
        simp only [Bool.not_true, Bool.false_eq_true, if_false]
        rw [Task.run_call_bind]
        have hunchanged := henv.unchanged (n + 1 + 1)
          stored.workflow_id
        simp only [handler, World.respond, hunchanged]
        rfl
  · have hfailing : (evaluate_invariants stored.invariants
        stored.evidence).isEmpty = false := by
      rw [← Bool.not_eq_true, List.isEmpty_iff]
      exact hvalid
    simp only [hfailing, Bool.not_false, if_true]
    exact iff_of_false (fun ⟨_, hok⟩ => nomatch hok) fun hreviewed => hvalid hreviewed.1.1

/-! ### A checkpoint with and without a recovery -/

/-- A coding that tells a checkpoint from what a recovery makes of it. -/
def telling_coding : Coding :=
  { plain_coding with
    checkpoint_sha256 := fun checkpoint => if checkpoint = pay_checkpoint then "plain" else "recovered" }

/-- The decision to reconcile the payment with its checkpoint. -/
def reconcile_payment : SkillDecision where
  tactic := .reconcile_checkpoint
  trigger := .effect_uncertain
  expected_postcondition := ""
  remaining_deadline_ms := 1
  tactic_budget_ms := 1
  checkpoint_id := some 9

/-- The strategy of a run that has issued it. -/
def reconciling (checkpoint : WorkflowCheckpoint) : SkillZigZagZig :=
  let skills := strategy telling_coding pay (some checkpoint) 0
  { skills with
    state :=
      { skills.state with
        pending_issuance := some
          { reservation_id := 0
            session_id := 4
            command_identity := none
            decision := reconcile_payment
            checkpoint_proof := some (checkpoint_proof telling_coding pay checkpoint 0)
            issued_at := 0
            deadline := 5000000 } } }

/-- The coordinator of that run. -/
def reviewing : Coordinator := { plain_service.coordinator {} with coding := telling_coding }

/-- What the check says to that decision. -/
def review (checkpoint : WorkflowCheckpoint) : Except CommandError WorkflowCheckpoint :=
  (run handler calm_env 0
    (ensure_recovery_authority reviewing pay reconcile_payment (reconciling checkpoint))
    { checkpoints := fun _ => some checkpoint }).1.1

/-- The checkpoint of the payment, resumed once. -/
def resumed_checkpoint : WorkflowCheckpoint :=
  { pay_checkpoint with recovery_history := [.resumed 9 3 []] }

/-- **The proof of a checkpoint that was resumed before is refused**, although the checkpoint is
that of the command and the proof is fresh. -/
theorem recovered_checkpoint_refused :
    Reviewed pay resumed_checkpoint 0 0 ∧
      review resumed_checkpoint = .error (checkpoint_mismatch_error
        "recovery checkpoint does not match the reviewed command authority") :=
  ⟨⟨rfl, rfl, rfl, rfl, rfl, ⟨Nat.le_refl 0, Nat.zero_le _⟩, fun _ => ⟨rfl, rfl⟩⟩,
    by decide +kernel⟩

/-- The checkpoint of a payment, with no history and no receipts, is accepted. -/
theorem fresh_checkpoint_accepted : ∃ accepted, review pay_checkpoint = .ok accepted := by
  have hsha : ∀ other, reviewing.coding.checkpoint_sha256 pay_checkpoint
      = reviewing.coding.checkpoint_sha256 other → pay_checkpoint = other := by
    intro other hsame
    by_contra hne
    simp [reviewing, telling_coding, Ne.symm hne] at hsame
  have hminted : Minted reviewing.coding pay pay_checkpoint 0 reconcile_payment
      (reconciling pay_checkpoint) := ⟨rfl, _, rfl, rfl, rfl⟩
  have henv : Answering calm_env 0 := ⟨fun _ _ => rfl, fun _ => rfl, fun _ _ => rfl⟩
  have hstored : ({ checkpoints := fun _ => some pay_checkpoint } : World).checkpoints
      pay.workflow_id = some (appended pay_checkpoint [] []) := rfl
  refine (minted_proof_accepted_iff hsha hminted [] [] hstored henv 0).mpr ⟨?_, rfl, rfl⟩
  exact ⟨rfl, rfl, rfl, rfl, rfl, ⟨Nat.le_refl 0, Nat.zero_le _⟩, fun _ => ⟨rfl, rfl⟩⟩

end BobbyBrowser.Submission
