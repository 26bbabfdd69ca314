/-
A text format for job journals that meets the laws of `Codec`.

Jobs are written in the format of `Wire`, field by field and without the latch,
as the journal has them.
-/
import BobbyBrowser.JobStore
import BobbyBrowser.Wire

set_option autoImplicit false

namespace BobbyBrowser.Jobs

open Wire

def priority_wire : Wire JobPriority :=
  among [.low, .normal, .high, .critical] fun p => by cases p <;> decide

def status_wire : Wire JobStatus :=
  among [.pending, .running, .completed, .failed, .cancelled, .reconciliation_required, .resolved]
    fun s => by cases s <;> decide

def event_wire : Wire JobEvent :=
  among [.submitted, .started, .completed, .failed, .retried, .cancelled, .recovered, .resolved]
    fun e => by cases e <;> decide

def decision_wire : Wire JobResolutionDecision :=
  among [.effect_observed, .effect_absent] fun d => by cases d <;> decide

def receipt_wire : Wire JobResolutionReceipt :=
  ((fin (2 ^ 128)).both (decision_wire.both (text.both ((fin (2 ^ 128)).both
    (nat.both text))))).embed
    (fun r => (r.job_id, r.decision, r.evidence_sha256, r.actor, r.resolved_at, r.provenance))
    (fun p => some ⟨p.1, p.2.1, p.2.2.1, p.2.2.2.1, p.2.2.2.2.1, p.2.2.2.2.2⟩) fun _ => rfl

def result_wire : Wire JobResult :=
  ((among [false, true] mem_bools).both (text.option.both nat)).embed
    (fun r => (r.success, r.error, r.completed_at)) (fun p => some ⟨p.1, p.2.1, p.2.2⟩)
    fun _ => rfl

/-- The fields of a job that are serialized, in their order. -/
abbrev JobParts := Option JobResolutionReceipt × JobId × String × JobPriority × JobStatus ×
  Ledger.Instant × Option Ledger.Instant × Option Ledger.Instant × ℕ × ℕ × Option JobResult ×
  Option String × Option ℕ × Option Ledger.PrincipalId

def parts_wire : Wire JobParts :=
  receipt_wire.option.both ((fin (2 ^ 128)).both (text.both (priority_wire.both (status_wire.both
    (nat.both (nat.option.both (nat.option.both (nat.both (nat.both (result_wire.option.both
      (text.option.both (nat.option.both (fin (2 ^ 128)).option))))))))))))

/-- The parts of a job. -/
def Job.parts (job : Job) : JobParts :=
  (job.resolution, job.id, job.name, job.priority, job.status, job.created_at, job.started_at,
    job.completed_at, job.retry_count, job.max_retries, job.result, job.error, job.timeout_ms,
    job.owner)

/-- The job with these parts. -/
def Job.of_parts : JobParts → Job
  | (resolution, id, name, priority, status, created_at, started_at, completed_at, retry_count,
      max_retries, result, error, timeout_ms, owner) =>
    ⟨false, resolution, id, name, priority, status, created_at, started_at, completed_at,
      retry_count, max_retries, result, error, timeout_ms, owner⟩

/-- The parts of a record. -/
def record_parts_wire : Wire (ℕ × ℕ × JobEvent × JobParts) :=
  nat.both (nat.both (event_wire.both parts_wire))

/-- **The laws of `Codec` can be met.** -/
def wire_codec : Codec where
  record_bytes r :=
    record_parts_wire.frame 0x6a (r.schema_version, r.sequence, r.event, r.job.parts)
  decode_record bytes :=
    (record_parts_wire.unframe 0x6a bytes).map fun p => ⟨p.1, p.2.1, p.2.2.1, .of_parts p.2.2.2⟩
  decode_record_bytes r := by
    rw [unframe_frame_bare]
    rfl
  newline_notMem_record r := newline_notMem_frame (by decide) _
  record_head r := rfl
  decode_glued text r htext := by
    have hne : text ≠ [] := by
      rintro rfl
      nomatch htext
    have h : record_parts_wire.unframe 0x6a (text ++ (record_parts_wire.frame 0x6a
        (r.schema_version, r.sequence, r.event, r.job.parts) ++ [])) = none :=
      unframe_glued hne _ [] (by decide)
    rw [List.append_nil] at h
    rw [h]
    rfl

end BobbyBrowser.Jobs
