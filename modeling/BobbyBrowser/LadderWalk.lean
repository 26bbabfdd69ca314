/-
One walk through the ladder.

For a reading that is sound for the command, every part of the ladder but the
executions of the command keeps everything that is stored justified. The parts are
taken in the order of `LadderProgram`, each with what it returns: a receipt is of
the command and of the outcome it was made for, and a tactic that reports the
command as completed has seen its postcondition.
-/
import BobbyBrowser.LadderKept

set_option autoImplicit false

namespace BobbyBrowser.Ladder

open Outcomes Commands Skills PageRuntime List Option
open Calls

variable {outcome : Outcome} {skill_outcome : SkillOutcome} {tactics : List SkillTacticEvidence}
  {now : Ledger.Instant} {checkpoint : WorkflowCheckpoint}
  {page : PageState}

/-- The commands that the ladder runs besides the command itself. -/
inductive Aside (envelope : CommandEnvelope) : CommandEnvelope → Prop
  | detect (budget_ms : ℕ) : Aside envelope (detect_envelope envelope budget_ms)
  | solve (found : Option (ℕ × Option DetectedChallenge)) (remaining_ms : ℕ) :
    Aside envelope (solve_envelope envelope found remaining_ms)
  | restart (command_id : CommandId) (attempt_id : AttemptId) (url : String) (budget_ms : ℕ) :
    Aside envelope (restart_navigation envelope command_id attempt_id url budget_ms)

/-- An outcome of this kind is justified for the command. -/
abbrev Reading.Own (R : Reading) (c : Coordinator) (envelope : CommandEnvelope) :
    Verdict → List Answered → Prop :=
  R.Fit (issued_command_identity c.coding envelope)

/-- A reading is sound for a command: what the ladder says of it is justified. -/
structure Sound (R : Reading) (c : Coordinator) (envelope : CommandEnvelope) : Prop where
  recovering : ∀ calls, R.Note envelope.command_id { phase := .recovering } calls
  terminal : ∀ {outcome calls},
    R.Own c envelope (verdict outcome) calls →
    R.Note envelope.command_id (terminal_record c.runtime (terminal_phase outcome) outcome) calls
  uncertain : ∀ calls, R.Own c envelope .uncertain calls
  restarted : ∀ calls, R.Own c envelope .restarted calls
  refused : envelope.command.class ≠ .boundary → ∀ calls, R.Own c envelope .refused calls
  /-- The postcondition was seen on the page of the command. -/
  observed : ∀ {worker page_id evidence calls}, envelope.page_id = some page_id →
    (⟨.inspect worker page_id (observation envelope.command), .ok evidence⟩ : Answered) ∈ calls →
    postcondition_matched envelope.command evidence = true →
    R.Own c envelope .completed calls
  aside : ∀ {e : CommandEnvelope} (gate : SessionGate), Aside envelope e → ∀ {base w},
    R.Stands base w → Holds handler (R.Stands base) (execute_with_session_gate c.runtime e gate)
      (fun _ => R.Stands base) w

variable {R : Reading} {c : Coordinator} {envelope : CommandEnvelope} {base : List Answered}

/-- A tactic that has failed leaves the command uncertain, or refused when it may be repeated. -/
theorem Sound.failure (hS : Sound R c envelope) (error : CommandError) (failure : SkillFailure)
    (calls : List Answered) :
    R.Own c envelope (verdict (command_failure envelope error failure)) calls := by
  unfold command_failure
  split
  · exact hS.uncertain calls
  · rename_i hclass
    simp only [Bool.or_eq_true, decide_eq_true_eq, not_or] at hclass
    exact hS.refused hclass.2 calls

variable {issued : SkillIssuedDecision}

section

variable (hR : R.Steady) (hS : Sound R c envelope) (decision : SkillDecision)

include hR

/-! ## The journal and the receipts -/

theorem keeps_clear_skill_issuance (workflow_id : WorkflowId) :
    Keeps R base (clear_skill_issuance workflow_id) fun _ _ => True := by
  exact keeps_asked hR fun _ _ => trivial

include hS

theorem keeps_persist_recovery_outcome (h : ∀ calls, R.After base calls →
      R.Note envelope.command_id (terminal_record c.runtime (terminal_phase outcome) outcome) calls) :
    Keeps R base (persist_recovery_outcome c envelope outcome) fun _ _ => True := by
  unfold persist_recovery_outcome
  split
  · exact keeps_throw
  refine keeps_asked_bind hR (hS.recovering _) fun _ => ?_
  exact keeps_asked hR h

theorem keeps_flush_recovery_receipt {receipt : RecoveryReceipt}
    (hfit : R.Own c envelope (verdict receipt.command_outcome) base) :
    Keeps R base (flush_recovery_receipt c envelope receipt) fun _ _ => True := by
  unfold flush_recovery_receipt
  split
  · exact keeps_throw
  refine keeps_asked_bind hR trivial fun history => ?_
  split
  · exact keeps_throw
  split
  · exact keeps_done
  · apply keeps_persist_recovery_outcome hR hS
    intro calls hcalls
    exact hS.terminal (hR.fit_extends hfit hcalls)

omit hR hS in
theorem keeps_issued_for_receipt :
    Keeps R base (issued_for_receipt c envelope decision) fun _ _ => True := by
  refine keeps_get.next fun skills => ?_
  split
  · exact keeps_throw
  · split
    · exact keeps_throw
    · exact keeps_done

omit hS in
theorem keeps_settle_committed_receipt (receipt : RecoveryReceipt) :
    Keeps R base (settle_committed_receipt c receipt) fun _ _ => True := by
  refine keeps_get.next fun skills => ?_
  refine keeps_of_except.next fun settled => ?_
  refine keeps_asked_bind hR trivial fun _ => ?_
  refine (keeps_set settled).next fun _ => ?_
  exact keeps_clear_skill_issuance hR _

/-- A receipt is of the command, and its outcome is of a kind. -/
def Receipted (c : Coordinator) (envelope : CommandEnvelope) (v : Verdict)
    (receipt : RecoveryReceipt) : Prop :=
  receipt.identity = issued_command_identity c.coding envelope ∧ verdict receipt.command_outcome = v

variable {receipt : RecoveryReceipt} {v : Verdict}

/-- A receipt is committed with the outcome it was stored with. -/
theorem keeps_commit_receipt (hreceipt : Receipted c envelope v receipt)
    (hfit : R.Own c envelope v base) :
    Keeps R base (commit_receipt c envelope receipt)
      fun committed _ => Receipted c envelope v committed := by
  obtain ⟨hidentity, rfl⟩ := hreceipt
  refine keeps_store_bind hR ?_ fun _ => ?_
  · intro calls hcalls
    change R.Fit receipt.identity _ calls
    rw [hidentity]
    exact hR.fit_extends hfit hcalls
  refine keeps_asked_bind hR trivial fun _ => ?_
  refine (keeps_flush_recovery_receipt hR hS hfit).attempt.next fun flushed => ?_
  cases flushed with
  | error error => exact keeps_throw
  | ok u =>
    refine keeps_asked_bind hR trivial fun _ => ?_
    exact keeps_pure fun _ _ => ⟨hidentity, rfl⟩

omit hR hS in
theorem receipted_of_recovery_receipt
    (h : recovery_receipt c envelope issued outcome skill_outcome tactics now = .ok receipt) :
    Receipted c envelope (verdict outcome) receipt := by
  unfold recovery_receipt at h
  simp only at h
  split at h
  · nomatch h
  · split at h
    · cases h
      exact ⟨rfl, verdict_journal_safe _ _⟩
    · nomatch h

omit hS in
theorem keeps_new_receipt (outcome : Outcome)
    (skill_outcome : SkillOutcome) (tactics : List SkillTacticEvidence) :
    Keeps R base (new_receipt c envelope decision outcome skill_outcome tactics)
      fun receipt _ => Receipted c envelope (verdict outcome) receipt := by
  refine (keeps_issued_for_receipt decision).next fun issued => ?_
  refine keeps_call_bind hR trivial fun now => ?_
  exact keeps_of_except.post fun receipt _ _ hok => receipted_of_recovery_receipt hok

omit hR hS in
theorem execution_verdict {execution : SkillRecoveryExecution}
    (h : execution_from_receipt c.coding receipt = .ok execution) :
    verdict execution.command_outcome = verdict receipt.command_outcome := by
  unfold execution_from_receipt at h
  cases hread : receipt_tactics c.coding receipt.tactic_evidence with
  | error e =>
    rw [hread] at h
    nomatch h
  | ok tactics =>
    rw [hread] at h
    rw [← Except.ok.inj h]

/-- An execution of the ladder's own ends with its outcome, by way of a receipt. -/
theorem keeps_commit_owned_execution (hfit : R.Own c envelope (verdict outcome) base) :
    Keeps R base (commit_owned_execution c envelope decision outcome skill_outcome tactics)
      fun execution _ => verdict execution.command_outcome = verdict outcome := by
  refine (keeps_new_receipt hR decision outcome skill_outcome tactics).given fun receipt hreceipt => ?_
  refine (keeps_commit_receipt hR hS hreceipt hfit).given fun committed hcommitted => ?_
  refine (keeps_settle_committed_receipt hR committed).next fun _ => ?_
  refine keeps_of_except.post ?_
  intro execution _ _ hok
  rw [execution_verdict hok, hcommitted.2]

omit hS in
theorem keeps_record_decision (outcome : SkillOutcome) :
    Keeps R base (record_decision c decision outcome) fun _ _ => True := by
  refine keeps_get.next fun before => ?_
  refine keeps_call_bind hR trivial fun now => ?_
  refine keeps_of_except.next fun recorded => ?_
  refine keeps_asked_bind hR trivial fun _ => ?_
  refine (keeps_set recorded).next fun _ => ?_
  split
  · exact keeps_throw
  · exact keeps_clear_skill_issuance hR _

omit hR hS in
theorem verdict_deadline_outcome (c : Coordinator) (envelope : CommandEnvelope)
    (decision : SkillDecision) (late uncertain : String) :
    ∃ error, verdict (deadline_outcome c.coding decision envelope late uncertain)
      = verdict (command_failure envelope error (deadline_failure envelope)) :=
  ⟨_, verdict_append_tactic_evidence _ _ _⟩

/-- A recovery that could not be followed to its end leaves a receipt that is justified. -/
theorem keeps_deadline_receipt (late uncertain : String) :
    Keeps R base (deadline_receipt c envelope decision late uncertain) fun receipt calls =>
      ∃ v, Receipted c envelope v receipt ∧ R.Own c envelope v calls := by
  refine (keeps_new_receipt hR decision _ _ _).post ?_
  intro receipt calls _ hreceipt
  refine ⟨_, hreceipt, ?_⟩
  obtain ⟨error, hverdict⟩ := verdict_deadline_outcome c envelope decision late uncertain
  rw [hverdict]
  exact hS.failure error _ calls

theorem keeps_finalize_owned_deadline :
    Keeps R base (finalize_owned_deadline c envelope decision) fun _ _ => True := by
  refine (keeps_deadline_receipt hR hS decision _ _).bind ?_
  rintro receipt calls _ ⟨v, hreceipt, hfit⟩
  refine (keeps_commit_receipt hR hS hreceipt hfit).next fun committed => ?_
  refine (keeps_settle_committed_receipt hR committed).attempt.next fun settled => ?_
  cases settled with
  | ok u => exact keeps_done
  | error error => exact keeps_throw

theorem keeps_persist_unresolved_deadline :
    Keeps R base (persist_unresolved_deadline c envelope decision) fun _ _ => True := by
  refine (keeps_deadline_receipt hR hS decision _ _).bind ?_
  rintro receipt calls _ ⟨v, ⟨hidentity, hverdict⟩, hfit⟩
  refine keeps_asked hR ?_
  intro calls₁ hcalls₁
  change R.Fit receipt.identity (verdict receipt.command_outcome) calls₁
  rw [hidentity, hverdict]
  exact hR.fit_extends hfit hcalls₁

/-! ## What an earlier run has left -/

omit hS in
theorem keeps_pending_issuance : Keeps R base (pending_issuance envelope) fun _ _ => True := by
  refine keeps_get.next fun skills => ?_
  split
  · exact keeps_done
  · exact keeps_asked hR fun _ _ => trivial

theorem keeps_flush_pending (hreceipt : Receipted c envelope v receipt)
    (hfit : R.Own c envelope v base) :
    Keeps R base (flush_pending c envelope receipt)
      fun committed _ => Receipted c envelope v committed := by
  unfold flush_pending
  split
  · obtain ⟨hidentity, rfl⟩ := hreceipt
    refine (keeps_flush_recovery_receipt hR hS hfit).next fun _ => ?_
    refine keeps_asked_bind hR trivial fun _ => ?_
    exact keeps_pure fun _ _ => ⟨hidentity, rfl⟩
  · exact keeps_pure fun _ _ => hreceipt

omit hR hS in
theorem mem_of_receipt_to_replay {pending : Option SkillIssuedDecision}
    (h : receipt_to_replay c envelope checkpoint pending = .ok (some receipt)) :
    receipt ∈ checkpoint.recovery_receipts ∧
      receipt.identity = issued_command_identity c.coding envelope := by
  obtain ⟨hfind, -⟩ := receipt_to_replay_some h
  have hidentity := find?_some hfind
  exact ⟨mem_of_find?_eq_some hfind, of_decide_eq_true hidentity⟩

/-- A replay ends with the outcome of a stored receipt, which is one of the command's own. -/
theorem keeps_replay_recovery_receipt :
    Keeps R base (replay_recovery_receipt c envelope) fun replayed calls =>
      ∀ execution, replayed = some execution →
        R.Own c envelope (verdict execution.command_outcome) calls := by
  refine (keeps_load_checkpoint hR _).bind ?_
  intro answer calls _ hgood
  split
  · exact keeps_pure fun _ _ _ hnone => absurd hnone.symm (some_ne_none _)
  · exact keeps_throw
  rename_i checkpoint
  refine (keeps_pending_issuance hR).next fun pending => ?_
  refine keeps_of_except.given fun replay hreplay => ?_
  cases replay with
  | none => exact keeps_pure fun _ _ _ hnone => absurd hnone.symm (some_ne_none _)
  | some receipt =>
    obtain ⟨hmem, hidentity⟩ := mem_of_receipt_to_replay hreplay
    have hfit := hgood checkpoint rfl receipt hmem
    rw [hidentity] at hfit
    refine (keeps_flush_pending hR hS ⟨hidentity, rfl⟩ hfit).given fun committed hcommitted => ?_
    refine (keeps_settle_committed_receipt hR committed).next fun _ => ?_
    refine (keeps_clear_skill_issuance hR _).next fun _ => ?_
    refine keeps_of_except.given fun execution hok => ?_
    refine keeps_pure ?_
    intro calls₁ hcalls₁ execution' hsome
    rw [← some.inj hsome, execution_verdict hok, hcommitted.2]
    exact hR.fit_extends hfit hcalls₁

/-- An issuance that is found pending ends in a receipt: the stored one, or else a new one that says
how the deadline was missed. -/
theorem keeps_reconcile_issuance (pending : SkillIssuedDecision) :
    Keeps R base (reconcile_issuance c envelope pending) fun execution calls =>
      R.Own c envelope (verdict execution.command_outcome) calls := by
  refine keeps_call_bind hR trivial fun now => ?_
  refine keeps_of_except.given fun candidate hcandidate => ?_
  obtain ⟨hidentity, hverdict⟩ := receipted_of_recovery_receipt hcandidate
  refine (keeps_load_checkpoint hR _).bind ?_
  intro answer calls _ hgood
  refine keeps_of_except.given fun checkpoint hanswer => ?_
  -- the stored receipt of the command, or the one that was made for it now
  have hreceipt : ∀ receipt, receipt = (checkpoint.recovery_receipts.find? fun receipt =>
      receipt.identity = candidate.identity).getD candidate →
      ∃ v, Receipted c envelope v receipt ∧ R.Own c envelope v calls := by
    intro receipt hreceipt
    cases hfind : checkpoint.recovery_receipts.find? fun receipt =>
        receipt.identity = candidate.identity with
    | none =>
      rw [hfind] at hreceipt
      rw [hreceipt]
      refine ⟨_, ⟨hidentity, hverdict⟩, ?_⟩
      obtain ⟨error, hfailure⟩ := verdict_deadline_outcome c envelope pending.decision
        "reconciled a pending owned recovery before command execution"
        "reconciled a pending boundary recovery with an uncertain effect"
      rw [hfailure]
      exact hS.failure error _ calls
    | some stored =>
      rw [hfind] at hreceipt
      have hstored := find?_some hfind
      have hown : stored.identity = issued_command_identity c.coding envelope :=
        (of_decide_eq_true hstored : stored.identity = candidate.identity).trans hidentity
      have hfit := hgood checkpoint hanswer stored (mem_of_find?_eq_some hfind)
      rw [hown] at hfit
      rw [hreceipt]
      exact ⟨_, ⟨hown, rfl⟩, hfit⟩
  generalize (checkpoint.recovery_receipts.find? fun receipt =>
    receipt.identity = candidate.identity).getD candidate = receipt at hreceipt ⊢
  obtain ⟨v, ⟨hown, rfl⟩, hfit⟩ := hreceipt receipt rfl
  refine keeps_store_bind hR ?_ fun _ => ?_
  · intro calls₁ hcalls₁
    change R.Fit receipt.identity (verdict receipt.command_outcome) calls₁
    rw [hown]
    exact hR.fit_extends hfit hcalls₁
  refine keeps_asked_bind hR trivial fun _ => ?_
  refine (keeps_flush_recovery_receipt hR hS hfit).next fun _ => ?_
  refine keeps_asked_bind hR trivial fun _ => ?_
  refine (keeps_settle_committed_receipt hR _).next fun _ => ?_
  refine keeps_of_except.post ?_
  intro execution calls₁ hcalls₁ hok
  rw [execution_verdict hok]
  exact hR.fit_extends hfit hcalls₁

/-- A pending decision is reconciled with an outcome of the command's own. -/
theorem keeps_reconcile_pending_decision :
    Keeps R base (reconcile_pending_decision c envelope) fun reconciled calls =>
      ∀ execution, reconciled = some execution →
        R.Own c envelope (verdict execution.command_outcome) calls := by
  refine keeps_expired.next fun late => ?_
  split
  · exact keeps_throw
  refine keeps_get.next fun skills => ?_
  split
  · exact keeps_pure fun _ _ _ hnone => absurd hnone.symm (some_ne_none _)
  split
  · exact keeps_throw
  refine (keeps_reconcile_issuance hR hS _).bind ?_
  intro execution calls₂ _ hfit
  refine keeps_pure ?_
  intro calls₃ hcalls₃ execution' hsome
  cases hsome
  exact hR.fit_extends hfit hcalls₃

/-! ## Looking at the page -/

/-- A postcondition that is seen on the page completes the command. -/
theorem keeps_observe_postcondition (hpage : envelope.page_id = some page.id) :
    Keeps R base (observe_postcondition envelope page) fun seen calls =>
      seen.1 = true → R.Own c envelope .completed calls := by
  refine keeps_asked_bind hR trivial fun worker => ?_
  refine (keeps_call hR ?_).bind ?_
  · exact fun _ _ => trivial
  intro answer calls _ hmem
  refine keeps_of_except.given fun evidence hanswer => ?_
  rw [hanswer] at hmem
  refine keeps_pure ?_
  intro calls₁ hcalls₁ hmatched
  exact hS.observed hpage (hcalls₁.grown.subset hmem) hmatched

omit hS in
/-- Bringing the page registry up to date touches neither journal nor checkpoints. -/
theorem keeps_sync_recovered_page (recovered : RecoveryDecision) (page : PageState) :
    Keeps R base (sync_recovered_page envelope recovered page) fun _ _ => True := by
  cases recovered with
  | resumed _ _ evidence | needs_reconciliation _ _ _ evidence =>
    dsimp only [sync_recovered_page]
    cases observed_url evidence with
    | none => exact keeps_done
    | some url => exact keeps_asked hR fun _ _ => trivial
  | restarted checkpoint_id lineage evidence =>
    refine keeps_asked_bind hR trivial fun checkpoint => ?_
    exact keeps_asked hR fun _ _ => trivial

/-! ## Tactics that take over the browser -/

omit hS in
/-- The checkpoint that a decision is checked against is a good one. -/
theorem keeps_ensure_recovery_authority :
    Keeps R base (ensure_recovery_authority c envelope decision)
      fun checkpoint calls => R.Good calls checkpoint := by
  refine (keeps_load_checkpoint hR _).bind ?_
  intro answer calls _ hgood
  refine keeps_of_except.given fun checkpoint hanswer => ?_
  simp only
  split
  · exact keeps_throw
  refine keeps_get.next fun skills => ?_
  split
  · exact keeps_throw
  · exact keeps_throw
  refine keeps_call_bind hR trivial fun now => ?_
  split
  · exact keeps_throw
  refine keeps_asked_bind hR trivial fun _ => ?_
  refine keeps_pure ?_
  intro calls₁ hcalls₁
  exact hR.good_extends (hgood checkpoint hanswer) hcalls₁

omit hS in
theorem keeps_stabilize_recovery_pool (session_id : SessionId) :
    Keeps R base (stabilize_recovery_pool c session_id) fun _ _ => True := by
  unfold stabilize_recovery_pool
  split
  · exact keeps_throw
  · exact keeps_asked hR fun _ _ => trivial

omit hS in
theorem keeps_prepare_owned_pool_tactic (checkpoint : WorkflowCheckpoint) :
    Keeps R base (prepare_owned_pool_tactic c envelope decision checkpoint) fun _ _ => True := by
  unfold prepare_owned_pool_tactic
  split
  · refine keeps_asked_bind hR trivial fun _ => ?_
    exact keeps_done
  · split
    · exact keeps_throw
    · refine keeps_asked_bind hR trivial fun _ => ?_
      exact keeps_done
  · refine (keeps_stabilize_recovery_pool hR _).next fun _ => ?_
    exact keeps_done
  · refine (keeps_stabilize_recovery_pool hR _).next fun _ => ?_
    exact keeps_done

omit hS in
theorem keeps_reattach_recovery_pool (checkpoint : WorkflowCheckpoint) :
    Keeps R base (reattach_recovery_pool c checkpoint) fun _ _ => True := by
  unfold reattach_recovery_pool
  split
  · exact keeps_throw
  refine keeps_asked_bind hR trivial fun worker => ?_
  refine keeps_asked_bind hR trivial fun _ => ?_
  exact keeps_done

omit hS in
/-- The texts that the invariants of a checkpoint ask for are only read. -/
theorem keeps_inspect_texts (worker : WorkerId) (page_id : PageId)
    (invariants : List CheckpointInvariant) :
    Keeps R base (inspect_texts worker page_id invariants) fun _ _ => True := by
  induction invariants generalizing base with
  | nil => exact keeps_done
  | cons invariant invariants ih =>
    cases invariant with
    | url | title => exact ih
    | text selector value =>
      refine keeps_asked_bind hR trivial fun evidence => ?_
      refine Keeps.bind (Q := fun _ _ => True) ih ?_
      intro rest calls₂ _ _
      exact keeps_done

omit hS in
theorem keeps_recovery_decision (worker : WorkerId) (checkpoint : WorkflowCheckpoint)
    (evidence : List Evidence) :
    Keeps R base (recovery_decision worker checkpoint evidence) fun _ _ => True := by
  unfold recovery_decision
  simp only
  split
  · exact keeps_done
  split
  · exact keeps_done
  refine keeps_asked_bind hR trivial fun restart_evidence => ?_
  refine keeps_call_bind hR trivial fun attempt_id => ?_
  exact keeps_done

omit hS in
theorem keeps_save_decision (hgood : R.Good base checkpoint) (decision : RecoveryDecision) :
    Keeps R base (save_decision checkpoint decision) fun _ _ => True := by
  exact keeps_asked hR fun calls hcalls => hR.good_extends hgood hcalls

omit hS in
/-- What is saved when a recovery completes is the good checkpoint, with a longer history. -/
theorem keeps_complete_prepared_recovery (hgood : R.Good base checkpoint) (worker : WorkerId) :
    Keeps R base (complete_prepared_recovery checkpoint worker) fun _ _ => True := by
  refine keeps_asked_bind hR trivial fun _ => ?_
  refine keeps_asked_bind hR trivial fun navigated => ?_
  refine keeps_asked_bind hR trivial fun inspected => ?_
  refine (keeps_inspect_texts hR _ _ _).next fun texts => ?_
  refine (keeps_recovery_decision hR _ _ _).next fun decision => ?_
  refine (keeps_save_decision hR hgood _).next fun _ => ?_
  exact keeps_done

end

/-- What a tactic other than `ChangeInteractionMethod` may report: a completed command was seen to
be so. -/
def Reported (R : Reading) (c : Coordinator) (envelope : CommandEnvelope) :
    TacticProgress → List Answered → Prop
  | .completed _ _, calls => R.Own c envelope .completed calls
  | .restarted outcome _, _ => verdict outcome = .restarted
  | .effect_uncertain _, _ | .continued _, _ => True
  | .outcome _ _, _ => False

section

variable (hR : R.Steady) (hS : Sound R c envelope) (decision : SkillDecision)

include hR hS

omit hS in
theorem Reported.extends {progress : TacticProgress} {calls calls' : List Answered} (h : Reported R c envelope progress calls)
    (hcalls : R.After calls calls') : Reported R c envelope progress calls' := by
  cases progress with
  | completed evidence effect => exact hR.fit_extends h hcalls
  | _ => exact h

/-- After a replacement the command is completed only by a postcondition that is seen on the
page. -/
theorem keeps_after_replacement (recovered : RecoveryDecision) (effect : SkillTacticEffect)
    (hpage : envelope.page_id = some page.id) :
    Keeps R base (after_replacement envelope recovered effect page)
      (Reported R c envelope) := by
  refine (keeps_sync_recovered_page hR recovered page).next fun _ => ?_
  cases recovered with
  | resumed checkpoint_id attempt_id evidence =>
    refine (keeps_observe_postcondition hR hS hpage).bind ?_
    rintro ⟨matched, evidence⟩ calls₁ _ hseen
    cases matched with
    | true => exact keeps_pure fun calls₂ hcalls₂ => hR.fit_extends (hseen rfl) hcalls₂
    | false => exact keeps_pure fun _ _ => trivial
  | needs_reconciliation checkpoint_id attempt_id reason evidence =>
    exact keeps_pure fun _ _ => trivial
  | restarted checkpoint_id lineage evidence => exact keeps_pure fun _ _ => rfl

omit hR hS in
theorem reported_reconcile_progress (recovered : RecoveryDecision) (effect : SkillTacticEffect)
    (calls : List Answered) :
    Reported R c envelope (reconcile_progress recovered effect envelope)
      calls := by
  cases recovered with
  | resumed checkpoint_id attempt_id evidence =>
    unfold reconcile_progress
    simp only
    split <;> exact trivial
  | needs_reconciliation checkpoint_id attempt_id reason evidence => exact trivial
  | restarted checkpoint_id lineage evidence => exact rfl

/-- A recovery ends in a report, and completes the command only by a postcondition that is seen. -/
theorem keeps_finish_recovery (hpage : envelope.page_id = some page.id)
    (hgood : R.Good base checkpoint) (effect : SkillTacticEffect) :
    Keeps R base (finish_recovery c envelope decision page checkpoint effect)
      (Reported R c envelope) := by
  refine (keeps_reattach_recovery_pool hR checkpoint).next fun worker => ?_
  refine (keeps_complete_prepared_recovery hR hgood worker).next fun recovered => ?_
  refine keeps_of_except.next fun _ => ?_
  split
  · refine (keeps_sync_recovered_page hR recovered page).next fun _ => ?_
    exact keeps_pure fun calls₄ _ => reported_reconcile_progress recovered effect calls₄
  · exact keeps_after_replacement hR hS recovered effect hpage

omit hR in
theorem keeps_aside {e : CommandEnvelope} (gate : SessionGate) (h : Aside envelope e) :
    Keeps R base (Task.lift (execute_with_session_gate c.runtime e gate)) fun _ _ => True :=
  keeps_lift fun _ hw => (hS.aside gate h hw).post fun _ _ hstands => ⟨hstands, trivial⟩

/-- A restart runs a navigation of its own, saves a good checkpoint and ends in a report. -/
theorem keeps_finish_restart (hgood : R.Good base checkpoint) :
    Keeps R base (finish_restart c envelope decision checkpoint)
      (Reported R c envelope) := by
  refine (keeps_reattach_recovery_pool hR checkpoint).next fun worker => ?_
  refine keeps_call_bind hR trivial fun attempt_id => ?_
  refine keeps_of_except.next fun _ => ?_
  refine keeps_call_bind hR trivial fun command_id => ?_
  refine (keeps_aside hS {} (.restart _ _ _ _)).next fun outcome => ?_
  cases outcome with
  | completed id evidence =>
    refine (keeps_save_decision hR hgood _).next fun _ => ?_
    exact keeps_pure fun _ _ => rfl
  | _ => exact keeps_throw

theorem keeps_finish_owned_tactic (hpage : envelope.page_id = some page.id)
    (hgood : R.Good base checkpoint) (prepared : Option SkillTacticEffect) :
    Keeps R base (finish_owned_tactic c envelope decision page checkpoint prepared)
      (Reported R c envelope) := by
  cases prepared with
  | some effect => exact keeps_finish_recovery hR hS decision hpage hgood effect
  | none => exact keeps_finish_restart hR hS decision hgood

omit hR hS in
theorem keeps_pool_phase {p : Climb (Option SkillTacticEffect)}
    (hp : Keeps R base p fun _ _ => True) : Keeps R base (pool_phase p) fun _ _ => True := by
  refine keeps_expired.next fun late => ?_
  split
  · refine hp.next fun prepared => ?_
    exact keeps_done
  refine keeps_expired.next fun late => ?_
  split
  · refine hp.attempt.next fun prepared => ?_
    exact keeps_done
  refine keeps_expired.next fun late => ?_
  split
  · refine hp.attempt.next fun prepared => ?_
    exact keeps_done
  · exact keeps_done

theorem keeps_finalize_late {Q : TacticProgress → List Answered → Prop} :
    Keeps R base (finalize_late c envelope decision) Q := by
  refine (keeps_finalize_owned_deadline hR hS decision).next fun _ => ?_
  exact keeps_throw

/-- A tactic that needs the checkpoint ends in a report, whether it is in time or late. -/
theorem keeps_owned_tactic (hpage : envelope.page_id = some page.id) :
    Keeps R base (owned_tactic c envelope decision page)
      (Reported R c envelope) := by
  refine (keeps_ensure_recovery_authority hR decision).bind ?_
  intro checkpoint calls _ hgood
  refine keeps_asked_bind hR trivial fun _ => ?_
  refine (keeps_pool_phase (keeps_prepare_owned_pool_tactic hR decision checkpoint)).next
    fun phase => ?_
  cases phase with
  | late => exact keeps_finalize_late hR hS decision
  | unfinished =>
    refine (keeps_persist_unresolved_deadline hR hS decision).next fun _ => ?_
    exact keeps_throw
  | done prepared =>
    refine keeps_expired.next fun late => ?_
    split
    · exact keeps_finalize_late hR hS decision
    refine (keeps_finish_owned_tactic hR hS decision hpage hgood prepared).within.bind ?_
    intro finished calls₁ _ hreported
    cases finished with
    | none => exact keeps_finalize_late hR hS decision
    | some progress =>
      exact keeps_pure fun calls₂ hcalls₂ => (hreported progress rfl).extends hR hcalls₂

/-! ## Tactics on the page as it is -/

omit hS in
theorem keeps_tactic_budget : Keeps R base (tactic_budget envelope decision) fun _ _ => True := by
  refine keeps_call_bind hR trivial fun now => ?_
  refine keeps_of_except.next fun total => ?_
  simp only
  split
  · exact keeps_throw
  · exact keeps_done

/-- The tactic that has a challenge solved runs commands aside, and ends in a report. -/
theorem keeps_solve_challenge (hpage : envelope.page_id = some page.id) :
    Keeps R base (solve_challenge c envelope decision page)
      (Reported R c envelope) := by
  refine (keeps_tactic_budget hR decision).next fun budget => ?_
  refine keeps_call_bind hR trivial fun started => ?_
  refine (keeps_aside hS c.session_gate (.detect budget)).next fun detected => ?_
  simp only
  split
  · exact keeps_pure fun _ _ => trivial
  refine keeps_call_bind hR trivial fun now => ?_
  refine (keeps_aside hS c.session_gate (.solve _ _)).next fun solved => ?_
  cases solved with
  | completed id evidence =>
    refine (keeps_observe_postcondition hR hS hpage).bind ?_
    rintro ⟨matched, evidence⟩ calls₅ _ hseen
    cases matched with
    | true => exact keeps_pure fun calls₆ hcalls₆ => hR.fit_extends (hseen rfl) hcalls₆
    | false => exact keeps_pure fun _ _ => trivial
  | _ => exact keeps_pure fun _ _ => trivial

section

variable (hchange : decision.tactic ≠ .change_interaction_method)
  (hpage : envelope.page_id = some page.id)

include hchange hpage

/-- The tactics that leave the browser alone, but for the one that runs the command again. -/
theorem keeps_execute_tactic_inner :
    Keeps R base (execute_tactic_inner c envelope decision page)
      (Reported R c envelope) := by
  unfold execute_tactic_inner
  split
  · rename_i h
    exact absurd h hchange
  · exact keeps_solve_challenge hR hS decision hpage
  refine (keeps_observe_postcondition hR hS hpage).bind ?_
  rintro ⟨matched, evidence⟩ calls _ hseen
  cases matched with
  | true => exact keeps_pure fun calls₁ hcalls₁ => hR.fit_extends (hseen rfl) hcalls₁
  | false => exact keeps_pure fun _ _ => trivial

/-- **A tactic other than the one that runs the command again.** -/
theorem keeps_execute_tactic :
    Keeps R base (execute_tactic c envelope decision page)
      (Reported R c envelope) := by
  refine (keeps_tactic_budget hR decision).next fun budget => ?_
  split
  · refine (keeps_observe_postcondition hR hS hpage).within.bind ?_
    intro seen calls₁ _ hseen
    split
    · exact keeps_throw
    · exact keeps_pure fun calls₂ hcalls₂ => hR.fit_extends (hseen _ rfl rfl) hcalls₂
    refine keeps_expired.next fun late => ?_
    split
    · exact keeps_throw
    · exact keeps_owned_tactic hR hS decision hpage
  split
  · exact keeps_owned_tactic hR hS decision hpage
  · refine (keeps_execute_tactic_inner hR hS _ hchange hpage).within.bind ?_
    intro progress calls₁ _ hreported
    cases progress with
    | none => exact keeps_throw
    | some progress =>
      exact keeps_pure fun calls₂ hcalls₂ => (hreported progress rfl).extends hR hcalls₂

end

/-! ## The climb -/

omit hR hS in
/-- What is decided for a command whose effect is uncertain is to reconcile its checkpoint. -/
theorem next_decision_spec {skills after : SkillZigZagZig} {trigger : SkillTrigger}
    {identity : SkillCommandIdentity} {reservation_id : CommandId}
    (h : skills.next_decision_for_command trigger identity reservation_id now
      = .ok (decision, issued, after)) :
    decision.trigger = trigger.failure ∧
      skills.next_tactic trigger.failure now = some decision.tactic := by
  unfold SkillZigZagZig.next_decision_for_command at h
  simp only [bind, Except.bind, pure, Except.pure, throw, throwThe, MonadExceptOf.throw] at h
  split at h
  · nomatch h
  split at h
  · nomatch h
  split at h
  · nomatch h
  rename_i tactic htactic
  split at h
  · nomatch h
  have heq := Except.ok.inj h
  have htrigger : trigger.failure = decision.trigger := congrArg (fun issue => issue.1.trigger) heq
  have hsame : tactic = decision.tactic := congrArg (fun issue => issue.1.tactic) heq
  exact ⟨htrigger.symm, hsame ▸ htactic⟩

omit hR hS in
theorem reconcile_of_effect_uncertain {skills : SkillZigZagZig}
    {tactic : SkillTactic} (h : skills.next_tactic .effect_uncertain now = some tactic) :
    tactic = .reconcile_checkpoint := by
  unfold SkillZigZagZig.next_tactic at h
  rw [if_pos rfl] at h
  split at h
  · exact (some.inj h).symm
  · nomatch h

omit hS in
/-- **Which tactic is issued**: when the effect is uncertain, it is the one that reconciles the
checkpoint. -/
theorem keeps_issue_decision (trigger : SkillTrigger) :
    Keeps R base (issue_decision c envelope trigger) fun issued _ =>
      ∀ decision, issued = .ok decision → trigger.failure = .effect_uncertain →
        decision.tactic = .reconcile_checkpoint := by
  refine keeps_get.next fun before => ?_
  refine keeps_call_bind hR trivial fun now => ?_
  refine keeps_call_bind hR trivial fun reservation_id => ?_
  split
  · exact keeps_pure fun _ _ => nofun
  rename_i decision issued after hnext
  refine keeps_call_bind hR trivial fun answer => ?_
  cases answer with
  | error e =>
    refine keeps_call_bind hR trivial fun answer => ?_
    exact keeps_pure fun _ _ => nofun
  | ok u =>
    refine keeps_call_bind hR trivial fun answer => ?_
    cases answer with
    | error e => exact keeps_pure fun _ _ => nofun
    | ok u =>
      refine (keeps_set after).next fun _ => ?_
      refine keeps_pure ?_
      intro calls₆ _ decision' hdecision huncertain
      obtain ⟨-, htactic⟩ := next_decision_spec _ hnext
      rw [huncertain] at htactic
      cases hdecision
      exact reconcile_of_effect_uncertain htactic

/-- **A run that a tactic has decided** ends with an outcome of that kind. -/
theorem keeps_conclude_tactic {recorded : SkillOutcome}
    (hfit : R.Own c envelope (verdict outcome) base) :
    Keeps R base (conclude_tactic c envelope decision recorded outcome skill_outcome tactics)
      fun execution _ => verdict execution.command_outcome = verdict outcome := by
  have hfit' : R.Own c envelope
      (verdict (append_tactic_evidence c.coding outcome tactics)) base := by
    rw [verdict_append_tactic_evidence]
    exact hfit
  unfold conclude_tactic
  split
  · refine (keeps_commit_owned_execution hR hS _ hfit').post ?_
    intro execution _ _ hverdict
    rw [hverdict, verdict_append_tactic_evidence]
  refine (keeps_record_decision hR decision recorded).next fun _ => ?_
  refine (keeps_persist_recovery_outcome hR hS ?_).next fun _ => ?_
  · intro calls hcalls
    exact hS.terminal (hR.fit_extends hfit' hcalls)
  · exact keeps_pure fun _ _ => verdict_append_tactic_evidence _ _ _

/-- **A run whose last tactic has failed** ends with a justified outcome. -/
theorem keeps_failed_tactic (error : CommandError) (tactics : List SkillTacticEvidence) :
    Keeps R base (failed_tactic c envelope decision error tactics) fun execution calls =>
      R.Own c envelope (verdict execution.command_outcome) calls := by
  have hfailed : ∀ calls, Keeps R calls
      (let tactics := tactics ++ [tactic_record decision .reconciliation_required]
       let outcome := command_failure envelope error decision.trigger
       if is_owned_terminal_error error || is_outbox_pending_error error then
         pure ⟨append_tactic_evidence c.coding outcome tactics, .failed decision.trigger, tactics⟩
       else conclude_tactic c envelope decision (.failed decision.trigger) outcome
         (.failed decision.trigger) tactics)
      fun execution calls => R.Own c envelope (verdict execution.command_outcome) calls := by
    intro calls
    split
    · refine keeps_pure ?_
      intro calls₁ _
      rw [verdict_append_tactic_evidence]
      exact hS.failure error _ calls₁
    · refine (keeps_conclude_tactic hR hS _ (hS.failure error _ calls)).post ?_
      intro execution calls₁ _ hverdict
      rw [hverdict]
      exact hS.failure error _ calls₁
  unfold failed_tactic
  by_cases hterminal : is_owned_terminal_error error = true
  · rw [if_pos hterminal]
    refine (keeps_replay_recovery_receipt hR hS).bind ?_
    intro replayed calls _ hreplayed
    cases replayed with
    | some execution =>
      exact keeps_pure fun calls₁ hcalls₁ => hR.fit_extends (hreplayed execution rfl) hcalls₁
    | none => exact hfailed calls
  · rw [if_neg hterminal]
    exact hfailed base

omit hS in
/-- The ladder runs on the command's own page. -/
theorem keeps_validate_context (page : PageState) :
    Keeps R base (validate_context envelope page) fun _ _ =>
      envelope.page_id = some page.id := by
  unfold validate_context
  split
  · exact keeps_throw
  rename_i hsame
  have hpage : envelope.page_id = some page.id := by
    by_contra hne
    simp [hne] at hsame
  refine keeps_call_bind hR trivial fun answer => ?_
  cases answer with
  | none => exact keeps_throw
  | some found =>
    refine keeps_get.next fun skills => ?_
    split
    · exact keeps_throw
    · exact keeps_pure fun _ _ => hpage

end

end BobbyBrowser.Ladder
