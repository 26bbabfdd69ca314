/-
What the page runtime calls.

The executor and the recovery ladder are programs whose calls are listed here: to
the clock, the page registry, the journal, the checkpoint store, the worker pool
and the workers. The journal and the stores answer from their state and may fail
as their files can; everything else may answer anything. The world keeps the
calls of a run with their answers, in order.

A checkpoint file is replaced as a whole under the lock of its workflow, so a call
that saves one either has replaced it or not, whatever it reports. Left out is the
save that succeeds with a file cut short: `replace_exclusive` has no flush before its
`sync_all`, which passes over an error of the write that is still buffered.
-/
import BobbyBrowser.Calls
import BobbyBrowser.CommandLog
import BobbyBrowser.Skills

set_option autoImplicit false

namespace BobbyBrowser.PageRuntime

open Outcomes Commands Skills CommandLog
open Ledger (Instant)
open CommandJournal (JournalError)

abbrev WorkerId := Fin (2 ^ 128)

/-! ## What the calls are about -/

structure PageState where
  id : PageId
  session_id : SessionId
  url : Option String := none
  deriving DecidableEq

structure VisionGate where
  session_ok : Bool := false
  capability_ok : Bool := false
  deriving DecidableEq

/-- `NodeSelection`; a provider is known by its name. -/
inductive NodeSelection
  | not_requested
  | resolved (node : String)
  | unresolved
  deriving DecidableEq

structure SessionGate where
  vision : VisionGate := {}
  fingerprint : Bool := false
  humanize : Bool := false
  collect_training_data : Bool := false
  vision_node : NodeSelection := .not_requested
  deriving DecidableEq

structure AdaptiveFailure where
  error : CommandError
  evidence : List Evidence
  deriving DecidableEq

/-- The record of a pending artifact. -/
structure ArtifactRecord where
  artifact_id : String
  sha256 : String
  bytes : ℕ
  staging_id : Option String
  deriving DecidableEq

structure PreparedHttp where
  state_version : ℕ
  artifact : Option ArtifactRecord
  download : Option PreparedDownload
  deriving DecidableEq

structure AdaptiveExecution where
  evidence : List Evidence
  prepared_http : Option PreparedHttp := none
  deriving DecidableEq

inductive CheckpointInvariant
  | url (value : String)
  | title (value : String)
  | text (selector value : String)
  deriving DecidableEq

structure RestartLineage where
  workflow_id : WorkflowId
  abandoned_attempt_id : AttemptId
  attempt_id : AttemptId
  reason : String
  deriving DecidableEq

inductive RecoveryDecision
  | resumed (checkpoint_id : CheckpointId) (attempt_id : AttemptId) (evidence : List Evidence)
  | needs_reconciliation (checkpoint_id : CheckpointId) (attempt_id : AttemptId)
      (reason : String) (evidence : List Evidence)
  | restarted (checkpoint_id : CheckpointId) (lineage : RestartLineage) (evidence : List Evidence)
  deriving DecidableEq

structure WorkflowCheckpoint where
  checkpoint_id : CheckpointId
  workflow_id : WorkflowId
  attempt_id : AttemptId
  session_id : SessionId
  page_id : PageId
  restart_url : String
  current_url : String
  boundary_command_id : Option CommandId := none
  recovery_class : CommandClass
  invariants : List CheckpointInvariant := []
  evidence : List Evidence := []
  recovery_history : List RecoveryDecision := []
  recovery_receipts : List RecoveryReceipt := []
  deriving DecidableEq

inductive RecoveryError
  | invariant_mismatch (message : String)
  | not_found
  | store (message : String)
  | workers_unavailable
  | browser (message : String)
  deriving DecidableEq

/-! ## The calls -/

/-- The calls of the page runtime. -/
inductive Call
  | now
  /-- `CommandId::new` and `AttemptId::new`. -/
  | fresh_id
  | get_page (page_id : PageId)
  | set_url (page_id : PageId) (url : String)
  | append (command_id : CommandId) (content : Content)
  /-- The task that makes a prepared result durable and then publishes its files. -/
  | durable_prepare (command_id : CommandId) (content : Content)
  | history (command_id : CommandId)
  | load_checkpoint (workflow_id : WorkflowId)
  | verify_unchanged (workflow_id : WorkflowId)
  | save_if_unchanged (checkpoint : WorkflowCheckpoint)
  | persist_recovery_receipt (receipt : RecoveryReceipt)
  | transition_recovery_receipt (identity : SkillCommandIdentity) (state : RecoveryReceiptState)
  | save_skill_issuance (workflow_id : WorkflowId) (issuance : SkillIssuedDecision)
  | load_skill_issuance (workflow_id : WorkflowId)
  | remove_skill_issuance (workflow_id : WorkflowId)
  | replace_skill_state (state : SkillSessionState)
  | lease (session_id : SessionId)
  | invalidate_session (session_id : SessionId)
  | invalidate_session_if_worker (session_id : SessionId) (worker : WorkerId)
  | release_session (session_id : SessionId)
  | replace_session (session_id : SessionId) (engine : SkillBrowserEngine)
  | reconnect_live_process (worker : WorkerId)
  | set_fingerprint_enabled (worker : WorkerId) (enabled : Bool)
  | set_humanization_enabled (worker : WorkerId) (enabled : Bool)
  | open_page (worker : WorkerId) (page_id : PageId)
  | list_pages (worker : WorkerId)
  | navigate (worker : WorkerId) (page_id : PageId) (url : String)
  | inspect (worker : WorkerId) (page_id : PageId) (command : InspectCommand)
  | commit_http_state (worker : WorkerId) (state_version : ℕ)
  /-- `AdaptiveExecutor::execute` under the deadline of the envelope: the worker is made to run
  the command. -/
  | adaptive_execute (worker : WorkerId) (envelope : CommandEnvelope) (page : Option PageState)
      (gate : SessionGate)
  /-- The verifiers of primitive commands. -/
  | verify (worker : WorkerId) (envelope : CommandEnvelope) (evidence : List Evidence)
      (typed_on : Option String)
  | finalize_prepared_download (download : PreparedDownload) (sha256 : String) (bytes : ℕ)
  | finalize_prepared_artifact (session_id : SessionId)
      (artifact_id staging_id sha256 : String) (bytes : ℕ)
  | cleanup_prepared_download (download : PreparedDownload)

/-- What they answer. -/
@[reducible] def Res : Call → Type
  | .now => Instant
  | .fresh_id => CommandId
  | .get_page _ => Option PageState
  | .set_url _ _ => Except String Unit
  | .append _ _ => Except JournalError Unit
  | .durable_prepare _ _ => Except CommandError Unit
  | .history _ => Except JournalError (History Content)
  | .load_checkpoint _ => Except RecoveryError WorkflowCheckpoint
  | .verify_unchanged _ => Except RecoveryError Unit
  | .save_if_unchanged _ => Except RecoveryError Unit
  | .persist_recovery_receipt _ => Except RecoveryError Unit
  | .transition_recovery_receipt _ _ => Except RecoveryError Unit
  | .save_skill_issuance _ _ => Except RecoveryError Unit
  | .load_skill_issuance _ => Except RecoveryError (Option SkillIssuedDecision)
  | .remove_skill_issuance _ => Except RecoveryError Unit
  | .replace_skill_state _ => Except String Unit
  | .lease _ => Except CommandError WorkerId
  | .invalidate_session _ => Except CommandError Unit
  | .invalidate_session_if_worker _ _ => Except CommandError Unit
  | .release_session _ => Except CommandError Unit
  | .replace_session _ _ => Except CommandError Unit
  | .reconnect_live_process _ => Except CommandError Unit
  | .set_fingerprint_enabled _ _ => Except CommandError Unit
  | .set_humanization_enabled _ _ => Except CommandError Unit
  | .open_page _ _ => Except CommandError Unit
  | .list_pages _ => Except CommandError (List Evidence)
  | .navigate _ _ _ => Except CommandError (List Evidence)
  | .inspect _ _ _ => Except CommandError (List Evidence)
  | .commit_http_state _ _ => Except CommandError Unit
  | .adaptive_execute _ _ _ _ => Except AdaptiveFailure AdaptiveExecution
  | .verify _ _ _ _ => Except CommandError (List Evidence)
  | .finalize_prepared_download _ _ _ => Except CommandError Unit
  | .finalize_prepared_artifact _ _ _ _ _ => Except CommandError Unit
  | .cleanup_prepared_download _ => Except CommandError Unit

/-- A program of the page runtime. -/
abbrev Prog := Calls.Prog Res

/-- Make a call. -/
abbrev ask (call : Call) : Prog (Res call) := Calls.Prog.ask call

/-- A call with its answer. -/
abbrev Answered := (call : Call) × Res call

/-! ## The world -/

/-- The durable state of a runtime, and what a run has called. -/
structure World where
  log : Log Content := {}
  checkpoints : WorkflowId → Option WorkflowCheckpoint := fun _ => none
  issuances : WorkflowId → Option SkillIssuedDecision := fun _ => none
  calls : List Answered := []

/-- A save fails with an error, and may have replaced the file all the same. -/
abbrev SaveChoice := Option (RecoveryError × Bool)

/-- What the surroundings decide of a call. -/
@[reducible] def Choice : Call → Type
  | .append _ _ => Log.AppendChoice
  | .durable_prepare _ _ => Log.AppendChoice × Option CommandError
  | .history _ => Log.HistoryChoice Content
  | .load_checkpoint _ => Option RecoveryError
  | .load_skill_issuance _ => Option RecoveryError
  | .save_if_unchanged _ => SaveChoice
  | .persist_recovery_receipt _ => SaveChoice
  | .transition_recovery_receipt _ _ => SaveChoice
  | .save_skill_issuance _ _ => SaveChoice
  | .remove_skill_issuance _ => SaveChoice
  | call => Res call

/-- `internal_error` of the executor. -/
def internal_error (message : String) : CommandError := ⟨.internal, message, .page, false⟩

/-- `journal_error`, whose layer is the caller's: `.journal` in the executor, `.workflow` in the
ladder. -/
def journal_error (layer : ErrorLayer) (error : JournalError) : CommandError :=
  ⟨.journal_failed, error_message error, layer, true⟩

namespace World

variable (w : World)

/-- The journal after a call to it. -/
def with_log {α : Type} (r : α × Log Content) : α × World := (r.1, { w with log := r.2 })

/-- Put a checkpoint in its file. -/
def put_checkpoint (checkpoint : WorkflowCheckpoint) : World :=
  { w with
    checkpoints := fun id =>
      if id = checkpoint.workflow_id then some checkpoint else w.checkpoints id }

/-- Put an issuance in its file, or remove it. -/
def put_issuance (workflow_id : WorkflowId) (issuance : Option SkillIssuedDecision) : World :=
  { w with issuances := fun id => if id = workflow_id then issuance else w.issuances id }

/-- A save, with the file as it is afterwards. -/
def save (choice : SaveChoice) (saved : World) : Except RecoveryError Unit × World :=
  match choice with
  | none => (.ok (), saved)
  | some (error, true) => (.error error, saved)
  | some (error, false) => (.error error, w)

/-- `CheckpointStore::load`. -/
def load_checkpoint (choice : Option RecoveryError) (workflow_id : WorkflowId) :
    Except RecoveryError WorkflowCheckpoint :=
  match choice with
  | some error => .error error
  | none => match w.checkpoints workflow_id with
    | some checkpoint => .ok checkpoint
    | none => .error .not_found

def persist_recovery_receipt (choice : SaveChoice) (receipt : RecoveryReceipt) :
    Except RecoveryError Unit × World :=
  match w.checkpoints receipt.identity.workflow_id with
  | none => (.error .not_found, w)
  | some checkpoint =>
    match checkpoint.recovery_receipts.find? fun existing =>
        existing.identity = receipt.identity with
    | some existing =>
      if existing = receipt then (.ok (), w)
      else (.error (.invariant_mismatch "recovery receipt payload is immutable"), w)
    | none =>
      if receipt.state ≠ .unresolved then
        (.error (.invariant_mismatch "recovery receipt must start unresolved"), w)
      else
        w.save choice (w.put_checkpoint
          { checkpoint with recovery_receipts := checkpoint.recovery_receipts ++ [receipt] })

/-- The transitions a receipt may make. -/
def receipt_transition_allowed : RecoveryReceiptState → RecoveryReceiptState → Bool
  | .unresolved, .pending_journal => true
  | .pending_journal, .committed => true
  | _, _ => false

/-- Set the state of the first receipt of an identity. -/
def set_receipt_state (identity : SkillCommandIdentity) (state : RecoveryReceiptState) :
    List RecoveryReceipt → List RecoveryReceipt
  | [] => []
  | receipt :: receipts =>
    if receipt.identity = identity then { receipt with state := state } :: receipts
    else receipt :: set_receipt_state identity state receipts

def transition_recovery_receipt (choice : SaveChoice) (identity : SkillCommandIdentity)
    (state : RecoveryReceiptState) : Except RecoveryError Unit × World :=
  match w.checkpoints identity.workflow_id with
  | none => (.error .not_found, w)
  | some checkpoint =>
    match checkpoint.recovery_receipts.find? fun receipt => receipt.identity = identity with
    | none => (.error (.invariant_mismatch "recovery receipt disappeared"), w)
    | some receipt =>
      if receipt.state = state then (.ok (), w)
      else if !receipt_transition_allowed receipt.state state then
        (.error (.invariant_mismatch "invalid recovery receipt state transition"), w)
      else
        w.save choice (w.put_checkpoint
          { checkpoint with
            recovery_receipts := set_receipt_state identity state checkpoint.recovery_receipts })

/-- The task of `Call.durable_prepare`. -/
def durable_prepare (choice : Log.AppendChoice × Option CommandError) (id : CommandId)
    (content : Content) : Except CommandError Unit × World :=
  match w.log.append choice.1 id content with
  | (.error error, log) => (.error (journal_error .journal error), { w with log := log })
  | (.ok (), log) =>
    match choice.2 with
    | some error => (.error error, { w with log := log })
    | none => (.ok (), { w with log := log })

/-- What a call answers, and what it does to the durable state. -/
def respond : (call : Call) → Choice call → Res call × World
  | .append id content, choice => w.with_log (w.log.append choice id content)
  | .durable_prepare id content, choice => w.durable_prepare choice id content
  | .history id, choice => w.with_log (w.log.history choice id)
  | .load_checkpoint workflow_id, choice => (w.load_checkpoint choice workflow_id, w)
  | .save_if_unchanged checkpoint, choice => w.save choice (w.put_checkpoint checkpoint)
  | .persist_recovery_receipt receipt, choice => w.persist_recovery_receipt choice receipt
  | .transition_recovery_receipt identity state, choice =>
    w.transition_recovery_receipt choice identity state
  | .save_skill_issuance workflow_id issuance, choice =>
    w.save choice (w.put_issuance workflow_id (some issuance))
  | .load_skill_issuance workflow_id, choice =>
    (match choice with
      | some error => .error error
      | none => .ok (w.issuances workflow_id), w)
  | .remove_skill_issuance workflow_id, choice => w.save choice (w.put_issuance workflow_id none)
  | .now, answer | .fresh_id, answer | .get_page _, answer | .set_url _ _, answer
  | .verify_unchanged _, answer | .replace_skill_state _, answer | .lease _, answer
  | .invalidate_session _, answer | .invalidate_session_if_worker _ _, answer
  | .release_session _, answer | .replace_session _ _, answer
  | .reconnect_live_process _, answer | .set_fingerprint_enabled _ _, answer
  | .set_humanization_enabled _ _, answer | .open_page _ _, answer | .list_pages _, answer
  | .navigate _ _ _, answer | .inspect _ _ _, answer | .commit_http_state _ _, answer
  | .adaptive_execute _ _ _ _, answer | .verify _ _ _ _, answer
  | .finalize_prepared_download _ _ _, answer | .finalize_prepared_artifact _ _ _ _ _, answer
  | .cleanup_prepared_download _, answer => (answer, w)

/-- Note a call with its answer. -/
def noted (call : Call) (answer : Res call) : World :=
  { w with calls := w.calls ++ [⟨call, answer⟩] }

end World

/-- The calls on a world. -/
def handler : Calls.Handler Res World where
  Choice := Choice
  handle call choice w :=
    ((w.respond call choice).1, (w.respond call choice).2.noted call (w.respond call choice).1)

/-- The surroundings of a run. -/
abbrev Env := Calls.Env handler

/-- Surroundings in which a page is open and nothing fails. -/
def calm (page : PageState) : (call : Call) → Choice call
  | .get_page _ => some page
  | .append _ _ => {}
  | .durable_prepare _ _ => ({}, none)
  | .history _ => {}
  | .load_checkpoint _ | .load_skill_issuance _ => none
  | .save_if_unchanged _ | .persist_recovery_receipt _ | .transition_recovery_receipt _ _
  | .save_skill_issuance _ _ | .remove_skill_issuance _ => none
  | .now => (0 : ℕ)
  | .fresh_id => (0 : CommandId)
  | .lease _ => .ok 0
  | .list_pages _ | .navigate _ _ _ | .inspect _ _ _ => .ok []
  | .adaptive_execute _ _ _ _ => .ok { evidence := [] }
  | .verify _ _ evidence _ => .ok evidence
  | .set_url _ _ | .replace_skill_state _ => .ok ()
  | .verify_unchanged _ => .ok ()
  | .invalidate_session _ | .invalidate_session_if_worker _ _ | .release_session _
  | .replace_session _ _ | .reconnect_live_process _ | .set_fingerprint_enabled _ _
  | .set_humanization_enabled _ _ | .open_page _ _ | .commit_http_state _ _
  | .finalize_prepared_download _ _ _ | .finalize_prepared_artifact _ _ _ _ _
  | .cleanup_prepared_download _ => .ok ()

end BobbyBrowser.PageRuntime
