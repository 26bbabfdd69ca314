/-
Jobs and their life cycle (`crates/task-scheduler/src/job.rs`,
`crates/bobby-browser-client/src/job_resolution.rs`).

A job is submitted as `Pending`, becomes `Running` when its handler is started,
and ends as `Completed`, `Failed`, `Cancelled` or, after an operator has attested
what became of an uncertain effect, as `Resolved`. Wherever the effect of a
handler cannot be known the job is `ReconciliationRequired`.

A job's payload, its correlation id and the output of its result are carried and
never looked at here; they are left out. An identifier is `job_` and a UUID, so
it is the UUID that is kept.
-/
import BobbyBrowser.Ledger

set_option autoImplicit false

namespace BobbyBrowser.Jobs

open Ledger (Instant PrincipalId)

abbrev JobId := Fin (2 ^ 128)

/-- `JobPriority`, from the lowest to the highest. -/
inductive JobPriority
  | low | normal | high | critical
  deriving DecidableEq, Repr

inductive JobStatus
  | pending | running | completed | failed | cancelled | reconciliation_required | resolved
  deriving DecidableEq, Repr

/-- The status is one of those that `prune_terminal` drops. -/
def JobStatus.is_terminal : JobStatus → Bool
  | .completed | .failed | .cancelled | .resolved => true
  | .pending | .running | .reconciliation_required => false

/-! ## Resolutions -/

inductive JobResolutionDecision
  | effect_observed | effect_absent
  deriving DecidableEq, Repr

structure JobResolutionRequest where
  decision : JobResolutionDecision
  evidence_sha256 : String
  deriving DecidableEq, Repr

def JobResolutionRequest.validate (request : JobResolutionRequest) : Except String Unit :=
  let digits := request.evidence_sha256.toList
  if digits.length = 64 ∧ digits.all fun c => c.isDigit || ('a' ≤ c && c ≤ 'f') then .ok ()
  else .error "evidenceSha256 must be a lowercase SHA-256 digest"

structure JobResolutionReceipt where
  job_id : JobId
  decision : JobResolutionDecision
  evidence_sha256 : String
  actor : PrincipalId
  resolved_at : Instant
  provenance : String
  deriving DecidableEq, Repr

/-- `JobResolutionReceipt::validate`. The identifier is one by its type. -/
def JobResolutionReceipt.validate (receipt : JobResolutionReceipt) : Except String Unit :=
  match JobResolutionRequest.validate ⟨receipt.decision, receipt.evidence_sha256⟩ with
  | .error e => .error e
  | .ok () =>
    if receipt.provenance = "operatorAttested" then .ok ()
    else .error "invalid resolution provenance"

/-! ## Jobs -/

structure JobResult where
  success : Bool
  error : Option String
  completed_at : Instant
  deriving DecidableEq, Repr

structure Job where
  /-- Process-local latch: an interrupted resolution write needs authoritative reload. -/
  resolution_pending : Bool := false
  resolution : Option JobResolutionReceipt := none
  id : JobId
  name : String
  priority : JobPriority := .normal
  status : JobStatus := .pending
  created_at : Instant
  started_at : Option Instant := none
  completed_at : Option Instant := none
  retry_count : ℕ := 0
  max_retries : ℕ := 3
  result : Option JobResult := none
  error : Option String := none
  timeout_ms : Option ℕ := none
  owner : Option PrincipalId := none
  deriving DecidableEq, Repr

namespace Job

variable (job : Job) (now : Instant)

def start : Job := { job with status := .running, started_at := some now }

def complete (result : JobResult) : Job :=
  { job with status := .completed, completed_at := some now, result := some result, error := none }

def fail (error : String) : Job :=
  { job with status := .failed, completed_at := some now, error := some error }

def cancel : Job := { job with status := .cancelled, completed_at := some now }

def require_reconciliation (reason : String) : Job :=
  { job with
    status := .reconciliation_required, result := none, completed_at := none, error := some reason }

def has_valid_resolution : Bool :=
  match job.resolution with
  | some receipt =>
    receipt.validate.isOk && job.status = .resolved && receipt.job_id = job.id
      && job.owner = some receipt.actor && job.completed_at = some receipt.resolved_at
      && job.result.isNone && job.error.isNone
  | none => job.status ≠ .resolved

def can_retry : Bool :=
  job.retry_count < job.max_retries && (job.status = .failed || job.status = .pending)

/-- `Job::prepare_retry`: reset a failed job to pending for another attempt. -/
def prepare_retry : Job :=
  { job with
    retry_count := job.retry_count + 1, status := .pending, started_at := none
    completed_at := none, error := none, result := none }

/-- What the journal keeps of a job: everything but the process-local latch. -/
def durable : Job := { job with resolution_pending := false }

@[simp] theorem require_reconciliation_id (reason : String) :
    (job.require_reconciliation reason).id = job.id := rfl
@[simp] theorem durable_status : job.durable.status = job.status := rfl
end Job

inductive JobEvent
  | submitted | started | completed | failed | retried | cancelled | recovered | resolved
  deriving DecidableEq, Repr

def JobEvent.from_status : JobStatus → JobEvent
  | .pending => .retried
  | .running => .started
  | .completed => .completed
  | .failed => .failed
  | .cancelled => .cancelled
  | .reconciliation_required => .recovered
  | .resolved => .resolved

/-- The name an event has in a message, `{event:?}`. -/
def JobEvent.debug : JobEvent → String
  | .submitted => "Submitted"
  | .started => "Started"
  | .completed => "Completed"
  | .failed => "Failed"
  | .retried => "Retried"
  | .cancelled => "Cancelled"
  | .recovered => "Recovered"
  | .resolved => "Resolved"

end BobbyBrowser.Jobs
