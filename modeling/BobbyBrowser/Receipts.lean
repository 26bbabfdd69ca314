/-
What becomes of a stored recovery receipt (`crates/page-runtime/src/recovery.rs`,
`crates/checkpoint-store/src/lib.rs`, `crates/sdk-core/src/lib.rs`).

Receipts are kept in the checkpoint of their workflow. They are added and moved on
under the lock of the workflow, with the checkpoint that was read. The checkpoint is
also replaced as a whole, by a client that saves one and by the runtime before a
boundary command.
-/
import BobbyBrowser.Ladder
import BobbyBrowser.Transition

set_option autoImplicit false

namespace BobbyBrowser.Receipts

open Commands Skills PageRuntime List
open Ladder Transition

/-! ## Saving checkpoints -/

def MAX_RECOVERY_RECEIPTS : ℕ := 64

def identity_changed : RecoveryError := .store "checkpoint workflow or session identity changed"

section

variable (coding : Coding)

/-- The loop of `validate_schema`. -/
def validate_receipts (checkpoint : WorkflowCheckpoint) :
    List RecoveryReceipt → Except RecoveryError Unit
  | [] => .ok ()
  | receipt :: receipts =>
    if receipt.identity.workflow_id ≠ checkpoint.workflow_id
        ∨ receipt.identity.session_id ≠ checkpoint.session_id then
      .error identity_changed
    else
      match validate_receipt coding receipt with
      | .error message => .error (.store message)
      | .ok () => validate_receipts checkpoint receipts

def validate_schema (checkpoint : WorkflowCheckpoint) : Except RecoveryError Unit :=
  if MAX_RECOVERY_RECEIPTS < checkpoint.recovery_receipts.length then
    .error (.store "checkpoint recovery receipts exceed their bound")
  else validate_receipts coding checkpoint checkpoint.recovery_receipts

def save (w : World) (choice : SaveChoice) (checkpoint : WorkflowCheckpoint) :
    Except RecoveryError Unit × World :=
  match validate_schema coding checkpoint with
  | .error error => (.error error, w)
  | .ok () =>
    if (w.checkpoints checkpoint.workflow_id).any (·.session_id ≠ checkpoint.session_id) then
      (.error identity_changed, w)
    else w.save choice (w.put_checkpoint checkpoint)

def save_verified (w : World) (choice : SaveChoice) (checkpoint : WorkflowCheckpoint)
    (evidence : List Evidence) : Except RecoveryError Unit × World :=
  let failures := evaluate_invariants checkpoint.invariants evidence
  if failures ≠ [] then (.error (.invariant_mismatch ("; ".intercalate failures)), w)
  else save coding w choice { checkpoint with evidence := evidence }

/-- The checkpoint of `submit_with_auto_checkpoint`. -/
def auto_checkpoint (checkpoint_id : CheckpointId) (envelope : CommandEnvelope) (page_id : PageId)
    (url : Option String) : WorkflowCheckpoint where
  checkpoint_id := checkpoint_id
  workflow_id := envelope.workflow_id
  attempt_id := envelope.attempt_id
  session_id := envelope.session_id
  page_id := page_id
  restart_url := url.getD ""
  current_url := url.getD ""
  boundary_command_id := some envelope.command_id
  recovery_class := .boundary

def record_locked_decision (w : World) (choice : SaveChoice) (workflow_id : WorkflowId)
    (decision : RecoveryDecision) : Except RecoveryError Unit × World :=
  match w.checkpoints workflow_id with
  | none => (.error .not_found, w)
  | some checkpoint =>
    if decision_checkpoint decision ≠ checkpoint.checkpoint_id then
      (.error (.invariant_mismatch "recovery decision checkpoint changed before persistence"), w)
    else
      w.save choice (w.put_checkpoint
        { checkpoint with recovery_history := checkpoint.recovery_history ++ [decision] })

/-! ## Runs -/

/-- What can happen to a checkpoint. -/
inductive Action
  | save (choice : SaveChoice) (checkpoint : WorkflowCheckpoint) (evidence : List Evidence)
  | auto_save (choice : SaveChoice) (checkpoint_id : CheckpointId) (envelope : CommandEnvelope)
      (page_id : PageId) (url : Option String) (evidence : List Evidence)
  | recover (choice : SaveChoice) (workflow_id : WorkflowId) (decision : RecoveryDecision)
  | persist (choice : SaveChoice) (receipt : RecoveryReceipt)
  | transition (choice : SaveChoice) (identity : SkillCommandIdentity) (state : RecoveryReceiptState)
  | remove (workflow_id : WorkflowId)

def step (w : World) : Action → Option World
  | .save choice checkpoint evidence => some (save_verified coding w choice checkpoint evidence).2
  | .auto_save choice checkpoint_id envelope page_id url evidence =>
    some (save_verified coding w choice (auto_checkpoint checkpoint_id envelope page_id url)
      evidence).2
  | .recover choice workflow_id decision =>
    some (record_locked_decision w choice workflow_id decision).2
  | .persist choice receipt => some (w.persist_recovery_receipt choice receipt).2
  | .transition choice identity state =>
    some (w.transition_recovery_receipt choice identity state).2
  | .remove workflow_id =>
    some { w with checkpoints := fun id => if id = workflow_id then none else w.checkpoints id }

end

/-- The receipts that are stored for the workflow. -/
def stored (w : World) (workflow_id : WorkflowId) : List RecoveryReceipt :=
  (w.checkpoints workflow_id).elim [] (·.recovery_receipts)

/-- How far a receipt has come. -/
def rank : RecoveryReceiptState → ℕ
  | .unresolved => 0
  | .pending_journal => 1
  | .committed => 2

/-- The receipt goes on with the same payload, and not back. -/
def Follows (receipt next : RecoveryReceipt) : Prop :=
  next = { receipt with state := next.state } ∧ rank receipt.state ≤ rank next.state

/-- Every receipt goes on. -/
def Continues (receipts next : List RecoveryReceipt) : Prop :=
  ∀ receipt ∈ receipts, ∃ later ∈ next, Follows receipt later

/-- No two receipts share an identity. -/
def Distinct (receipts : List RecoveryReceipt) : Prop :=
  (receipts.map RecoveryReceipt.identity).Nodup

/-- **The condition on steps.** A checkpoint that is saved carries on the receipts that are stored. -/
def Tended (w : World) : Action → Prop
  | .save _ checkpoint _ => Continues (stored w checkpoint.workflow_id) checkpoint.recovery_receipts
    ∧ Distinct checkpoint.recovery_receipts
  | .auto_save _ _ envelope _ _ _ => stored w envelope.workflow_id = []
  | _ => True

/-! ## What every write carries on -/

section

variable {w : World} {checkpoint : WorkflowCheckpoint} {workflow_id : WorkflowId}
  {receipts next : List RecoveryReceipt}

theorem Continues.refl (receipts : List RecoveryReceipt) : Continues receipts receipts :=
  fun receipt hmem => ⟨receipt, hmem, rfl, le_rfl⟩

theorem Continues.trans {last : List RecoveryReceipt} (h : Continues receipts next)
    (h' : Continues next last) : Continues receipts last := by
  intro receipt hmem
  obtain ⟨later, hlater, hpayload, hrank⟩ := h receipt hmem
  obtain ⟨latest, hlatest, hpayload', hrank'⟩ := h' later hlater
  refine ⟨latest, hlatest, ?_, hrank.trans hrank'⟩
  rw [hpayload', hpayload]

/-- A checkpoint is in the file of its workflow, and its receipts are distinct. -/
structure Sound (w : World) : Prop where
  filed : ∀ id, ∀ checkpoint ∈ w.checkpoints id, checkpoint.workflow_id = id
  distinct : ∀ id, Distinct (stored w id)

/-- The step leaves the world sound and carries on the receipts of the workflow. -/
def Carried (w w' : World) (workflow_id : WorkflowId) : Prop :=
  Sound w' ∧ Continues (stored w workflow_id) (stored w' workflow_id)

theorem Sound.carried (h : Sound w) (workflow_id : WorkflowId) : Carried w w workflow_id :=
  ⟨h, .refl _⟩

/-- **A write carries on all receipts** if the checkpoint does that is written, whether or not the
write succeeds. -/
theorem Sound.write (h : Sound w) (choice : SaveChoice)
    (hcontinues : Continues (stored w checkpoint.workflow_id) checkpoint.recovery_receipts)
    (hdistinct : Distinct checkpoint.recovery_receipts) :
    Carried w (w.save choice (w.put_checkpoint checkpoint)).2 workflow_id := by
  have hput : Carried w (w.put_checkpoint checkpoint) workflow_id := by
    refine ⟨⟨?_, ?_⟩, ?_⟩
    · intro id found hfound
      simp only [World.put_checkpoint] at hfound
      split at hfound
      · rename_i hid
        cases hfound
        exact hid.symm
      · exact h.filed id found hfound
    · intro id
      simp only [stored, World.put_checkpoint]
      split
      · exact hdistinct
      · exact h.distinct id
    · simp only [stored, World.put_checkpoint]
      split
      · rename_i hid
        rw [hid]
        exact hcontinues
      · exact .refl _
  match choice with
  | none => exact hput
  | some (error, true) => exact hput
  | some (error, false) => exact h.carried workflow_id

variable {choice : SaveChoice}

/-- A checkpoint that continues the stored receipts carries them. -/
theorem Sound.save_verified (h : Sound w) {coding : Coding} {evidence : List Evidence}
    (hcontinues : Continues (stored w checkpoint.workflow_id) checkpoint.recovery_receipts)
    (hdistinct : Distinct checkpoint.recovery_receipts) :
    Carried w (Receipts.save_verified coding w choice checkpoint evidence).2 workflow_id := by
  unfold Receipts.save_verified
  simp only
  split
  · exact h.carried workflow_id
  unfold save
  split
  · exact h.carried workflow_id
  split
  · exact h.carried workflow_id
  · exact h.write choice hcontinues hdistinct

/-- The checkpoint that is read is the one that is replaced. -/
theorem Sound.read (h : Sound w) {id : WorkflowId} (hget : w.checkpoints id = some checkpoint) :
    stored w checkpoint.workflow_id = checkpoint.recovery_receipts
      ∧ Distinct checkpoint.recovery_receipts := by
  have hdistinct := h.distinct id
  rw [h.filed id checkpoint hget]
  rw [stored, hget, Option.elim_some] at hdistinct ⊢
  exact ⟨rfl, hdistinct⟩

variable {state : RecoveryReceiptState} {identity : SkillCommandIdentity}
  {receipt : RecoveryReceipt}

/-- A receipt is moved on in its place. -/
theorem continues_set_receipt_state (hfind : receipts.find? (·.identity = identity) = some receipt)
    (hrank : rank receipt.state ≤ rank state) :
    Continues receipts (World.set_receipt_state identity state receipts) := by
  induction receipts with
  | nil => nomatch hfind
  | cons head receipts ih =>
    rw [find?_cons] at hfind
    unfold World.set_receipt_state
    split at hfind
    · rename_i hhead
      obtain rfl := Option.some.inj hfind
      rw [if_pos (of_decide_eq_true hhead)]
      intro found hfound
      rcases mem_cons.mp hfound with rfl | hfound
      · exact ⟨_, mem_cons_self, rfl, hrank⟩
      · exact ⟨found, mem_cons_of_mem _ hfound, rfl, le_rfl⟩
    · rename_i hhead
      rw [if_neg (of_decide_eq_false hhead)]
      intro found hfound
      rcases mem_cons.mp hfound with rfl | hfound
      · exact ⟨found, mem_cons_self, rfl, le_rfl⟩
      · obtain ⟨later, hlater, hfollows⟩ := ih hfind found hfound
        exact ⟨later, mem_cons_of_mem _ hlater, hfollows⟩

theorem identities_set_receipt_state (identity : SkillCommandIdentity) (state : RecoveryReceiptState)
    (receipts : List RecoveryReceipt) :
    (World.set_receipt_state identity state receipts).map RecoveryReceipt.identity
      = receipts.map RecoveryReceipt.identity := by
  induction receipts with
  | nil => rfl
  | cons head receipts ih =>
    unfold World.set_receipt_state
    split
    · rfl
    · rw [map_cons, map_cons, ih]

theorem rank_le_of_allowed {state' : RecoveryReceiptState}
    (h : World.receipt_transition_allowed state state') : rank state ≤ rank state' := by
  revert h
  cases state <;> cases state' <;> decide

/-- Adding a receipt carries those that are stored. -/
theorem Sound.persist (h : Sound w) :
    Carried w (w.persist_recovery_receipt choice receipt).2 workflow_id := by
  unfold World.persist_recovery_receipt
  split
  · exact h.carried workflow_id
  rename_i checkpoint hget
  split
  · split <;> exact h.carried workflow_id
  rename_i hnone
  split
  · exact h.carried workflow_id
  obtain ⟨hstored, hdistinct⟩ := h.read hget
  apply h.write
  · rw [hstored]
    intro found hfound
    exact ⟨found, mem_append_left _ hfound, rfl, le_rfl⟩
  simp only [Distinct, map_append, map_singleton]
  refine nodup_append.mpr ⟨hdistinct, nodup_singleton _, ?_⟩
  intro identity hidentity other hother
  obtain ⟨found, hfound, rfl⟩ := mem_map.mp hidentity
  rw [mem_singleton.mp hother]
  simpa using find?_eq_none.mp hnone found hfound

/-- Moving a receipt on carries it, with the others. -/
theorem Sound.transition (h : Sound w) :
    Carried w (w.transition_recovery_receipt choice identity state).2 workflow_id := by
  unfold World.transition_recovery_receipt
  split
  · exact h.carried workflow_id
  rename_i checkpoint hget
  split
  · exact h.carried workflow_id
  rename_i receipt hfind
  split
  · exact h.carried workflow_id
  split
  · exact h.carried workflow_id
  rename_i hallowed
  obtain ⟨hstored, hdistinct⟩ := h.read hget
  apply h.write
  · rw [hstored]
    exact continues_set_receipt_state hfind (rank_le_of_allowed (by simpa using hallowed))
  · rw [Distinct, identities_set_receipt_state]
    exact hdistinct

theorem Sound.recover (h : Sound w) {id : WorkflowId} {decision : RecoveryDecision} :
    Carried w (record_locked_decision w choice id decision).2 workflow_id := by
  unfold record_locked_decision
  split
  · exact h.carried workflow_id
  rename_i checkpoint hget
  split
  · exact h.carried workflow_id
  obtain ⟨hstored, hdistinct⟩ := h.read hget
  apply h.write
  · rw [hstored]
    exact .refl _
  · exact hdistinct

/-- **One step.** Only a removal takes the receipts of a workflow away. -/
theorem Sound.step (h : Sound w) (workflow_id : WorkflowId) {coding : Coding} {action : Action}
    {w' : World} (htended : Tended w action) (hstep : Receipts.step coding w action = some w') :
    Sound w' ∧ (action ≠ .remove workflow_id →
      Continues (stored w workflow_id) (stored w' workflow_id)) := by
  have hcarried (hcarries : Carried w w' workflow_id) : Sound w' ∧ (action ≠ .remove workflow_id →
      Continues (stored w workflow_id) (stored w' workflow_id)) :=
    ⟨hcarries.1, fun _ => hcarries.2⟩
  cases action with
  | save choice checkpoint evidence =>
    cases hstep
    exact hcarried (h.save_verified htended.1 htended.2)
  | auto_save choice checkpoint_id envelope page_id url evidence =>
    cases hstep
    refine hcarried (h.save_verified ?_ nodup_nil)
    -- the checkpoint carries no receipts, which is enough where none is stored
    rw [show stored w (auto_checkpoint checkpoint_id envelope page_id url).workflow_id = [] from htended]
    exact .refl _
  | recover choice id decision =>
    cases hstep
    exact hcarried h.recover
  | persist choice receipt =>
    cases hstep
    exact hcarried h.persist
  | transition choice identity state =>
    cases hstep
    exact hcarried h.transition
  | remove id =>
    cases hstep
    refine ⟨⟨?_, ?_⟩, ?_⟩
    · intro other found hfound
      simp only at hfound
      split at hfound
      · nomatch hfound
      · exact h.filed other found hfound
    · intro other
      simp only [stored]
      split
      · exact nodup_nil
      · exact h.distinct other
    · intro hother
      simp only [stored]
      rw [if_neg fun heq => hother (by rw [heq])]
      exact .refl _

end

/-- **In every run in which each checkpoint that is saved carries on the receipts that are stored,
no two receipts share an identity, and from then on a stored receipt stays, with its payload and a
state that only moves forward, until the checkpoint is removed.** -/
theorem receipts_kept_in_tended_runs (coding : Coding) (workflow_id : WorkflowId) (w w' : World)
    (hw : Reachable (fun w => ∀ id, w.checkpoints id = none) (step coding) Tended w)
    (hw' : Reachable (· = w) (step coding)
      (fun w action => Tended w action ∧ action ≠ .remove workflow_id) w') :
    Distinct (stored w' workflow_id) ∧ Continues (stored w workflow_id) (stored w' workflow_id) := by
  have hsound : Sound w := by
    refine hw.invariant ?_ fun w action w' h htended hstep =>
      (h.step workflow_id htended hstep).1
    intro w hnone
    refine ⟨?_, ?_⟩
    · intro id checkpoint hcheckpoint
      rw [hnone id] at hcheckpoint
      nomatch hcheckpoint
    · intro id
      rw [stored, hnone id]
      exact nodup_nil
  have hboth : Sound w' ∧ Continues (stored w workflow_id) (stored w' workflow_id) := by
    refine hw'.invariant (I := fun w' => Sound w' ∧ Continues (stored w workflow_id)
      (stored w' workflow_id)) ?_ ?_
    · rintro w' rfl
      exact ⟨hsound, .refl _⟩
    · rintro w₁ action w₂ ⟨hsound₁, hcontinues⟩ ⟨htended, hnot⟩ hstep
      obtain ⟨hsound₂, hstep⟩ := hsound₁.step workflow_id htended hstep
      exact ⟨hsound₂, hcontinues.trans (hstep hnot)⟩
  exact ⟨hboth.1.distinct workflow_id, hboth.2⟩

/-- A boundary click. -/
def sample_envelope : CommandEnvelope where
  command_id := 1
  workflow_id := 2
  attempt_id := 3
  session_id := 4
  page_id := some 5
  deadline := 100
  command := .primitive (.click { selector := "#send", boundary := true })

/-- The receipt of its recovery. -/
def sample_receipt : RecoveryReceipt where
  identity := ⟨1, 2, 3, 4, some 5, .boundary, ""⟩
  state := .unresolved
  reservation_id := 6
  decision := ⟨.reconcile_checkpoint, .configuration_conflict, "", 0, 0, none, none⟩
  command_outcome := .completed 1 []
  skill_outcome := .applied
  tactic_evidence := []
  recorded_at := 0

/-- A checkpoint is saved before the click, and the receipt of its recovery is stored. -/
def receipted : List Action :=
  [.auto_save none 0 sample_envelope 5 none [], .persist none sample_receipt]

/-- The checkpoint that is saved before the next boundary command of the workflow takes the receipt
away. -/
theorem auto_checkpoint_erases_receipt :
    (run (step plain_coding) {} receipted).map (stored · 2) = some [sample_receipt]
      ∧ (run (step plain_coding) {} (receipted
        ++ [.auto_save none 7 { sample_envelope with command_id := 8 } 5 none []])).map (stored · 2)
          = some [] := by
  decide +kernel

/-- A receipt that is stored and moved on is still there. -/
theorem receipt_kept_by_transition :
    ∃ w ∈ run (step plain_coding) {} receipted,
      ∃ w' ∈ step plain_coding w (.transition none sample_receipt.identity .pending_journal),
        Distinct (stored w' 2) ∧ Continues (stored w 2) (stored w' 2) := by
  have hempty : Reachable (fun w => ∀ id, w.checkpoints id = none) (step plain_coding) Tended {} :=
    .start fun _ => rfl
  have hsaved := hempty.next (a := Action.auto_save none 0 sample_envelope 5 none []) rfl rfl
  have hstored := hsaved.next (a := Action.persist none sample_receipt) True.intro rfl
  refine ⟨_, rfl, _, rfl, receipts_kept_in_tended_runs plain_coding 2 _ _ hstored ?_⟩
  exact .next (a := Action.transition none sample_receipt.identity .pending_journal) (.start rfl)
    ⟨True.intro, fun heq => nomatch heq⟩ rfl

end BobbyBrowser.Receipts
