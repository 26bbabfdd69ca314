/-
What the increasing-sequence scan makes of a ledger that was written in order.

The command journal and the job journal are both scanned under
`SequenceRule::Increasing`, and both treat any issue as damage to the whole
file. This module says what the scan reports, line by line: a record whose
number is above every number before it is valid and leaves no mark, a torn tail
always does.
-/
import BobbyBrowser.Jsonl

set_option autoImplicit false

namespace BobbyBrowser.Jsonl

open Lines

/-! ## Issue counts -/

theorem issue_count_issue_of_ne (health : LedgerHealth) {kind other : LedgerIssueKind}
    (h : other ≠ kind) (line offset : ℕ) :
    (health.issue kind line offset).issue_count other = health.issue_count other :=
  if_neg h

theorem issue_count_issue_self (health : LedgerHealth) (kind : LedgerIssueKind) (line offset : ℕ) :
    (health.issue kind line offset).issue_count kind = health.issue_count kind + 1 :=
  if_pos rfl

/-- The scan has met nothing that a ledger under `Increasing` treats as damage. -/
structure LedgerHealth.Intact (health : LedgerHealth) : Prop where
  incompatible_records : health.incompatible_records = 0
  torn_tail : health.issue_count .torn_tail = 0
  oversized_line : health.issue_count .oversized_line = 0

theorem LedgerHealth.Intact.empty : LedgerHealth.Intact {} := ⟨rfl, rfl, rfl⟩

/-- `sequence` may follow what the scan has seen. -/
def LedgerHealth.Below (health : LedgerHealth) (sequence : ℕ) : Prop :=
  ∀ previous ∈ health.max_observed_sequence, previous < sequence

theorem sequence_valid_increasing {health : LedgerHealth} {n : ℕ} :
    sequence_valid .increasing health (some n) = true ↔ health.Below n := by
  cases h : health.max_observed_sequence with
  | none | some => simp [sequence_valid, LedgerHealth.Below, h]

section

variable {ρ : Type} {health : LedgerHealth} {n : ℕ} {record : Option ρ} {number offset : ℕ}

/-! ## A record in order -/

theorem judge_accepted_verdict (h : health.Below n) :
    (judge .increasing health ⟨.accepted (some n), record⟩ number offset).2 = .valid := by
  rw [judge_verdict]
  have hvalid : sequence_valid .increasing health (some n) = true := sequence_valid_increasing.mpr h
  simp [verdict_of, RecordObservation.is_rejected, RecordObservation.sequence, hvalid]

theorem judge_accepted_max (h : health.Below n) :
    (judge .increasing health ⟨.accepted (some n), record⟩ number offset).1.max_observed_sequence
      = some n := by
  rw [judge_max_observed_sequence]
  simp only [RecordObservation.sequence, Option.some.injEq]
  -- the number is above the largest one so far, or it is the first
  cases hm : health.max_observed_sequence with
  | none => simp
  | some m =>
    have := h m hm
    simp only [Option.getD_some]
    omega

variable (rule : SequenceRule) (prepared : PreparedRecord ρ)

theorem judge_bytes_observed :
    (judge rule health prepared number offset).1.bytes_observed = health.bytes_observed := by
  simp only [judge, note_verdict_frame, observe_sequence_frame]
  split <;> simp

theorem observe_sequence_issue_count (sequence : Option ℕ) {kind : LedgerIssueKind}
    (hkind : kind ≠ .sequence_exhausted) :
    (observe_sequence health sequence number offset).issue_count kind
      = health.issue_count kind := by
  cases sequence with
  | none => rfl
  | some n =>
    rw [observe_sequence]
    split
    · rw [issue_count_issue_of_ne _ hkind]
      rfl
    · rfl

theorem observe_sequence_incompatible_records (sequence : Option ℕ) :
    (observe_sequence health sequence number offset).incompatible_records
      = health.incompatible_records := by
  cases sequence with
  | none => rfl
  | some n =>
    rw [observe_sequence]
    split <;> rfl

theorem note_prepared_incompatible_records :
    (note_prepared health prepared number offset).incompatible_records
      = health.incompatible_records := by
  rw [note_prepared]
  split <;> rfl

theorem note_verdict_incompatible_records (observation : RecordObservation)
    (verdict : SequenceVerdict) :
    (note_verdict health observation verdict).incompatible_records
      = health.incompatible_records + (if verdict = .invalid then 1 else 0) := by
  rw [note_verdict]
  by_cases hv : verdict = .invalid
  · rw [if_pos hv, if_pos hv]
  · rw [if_neg hv, if_neg hv]
    split <;> rfl

/-- **Every invalid record is counted**, and no other. -/
theorem judge_incompatible_records :
    (judge rule health prepared number offset).1.incompatible_records
      = health.incompatible_records
        + (if (judge rule health prepared number offset).2 = .invalid then 1 else 0) := by
  have hnoted : ∀ in_order : Bool, (observe_sequence
      (if in_order then note_prepared health prepared number offset
        else (note_prepared health prepared number offset).issue .sequence number offset)
      prepared.observation.sequence number offset).incompatible_records
        = health.incompatible_records := by
    intro in_order
    rw [observe_sequence_incompatible_records]
    cases in_order <;> exact note_prepared_incompatible_records prepared
  exact (note_verdict_incompatible_records _ _).trans (congrArg (· + _) (hnoted _))

/-- Only a line that was rejected as torn counts as torn. -/
theorem judge_torn_tail (hkind : ∀ hint, prepared.observation ≠ .rejected hint .torn_tail) :
    (judge rule health prepared number offset).1.issue_count .torn_tail
      = health.issue_count .torn_tail := by
  have hnoted : (note_prepared health prepared number offset).issue_count .torn_tail
      = health.issue_count .torn_tail := by
    rw [note_prepared]
    split
    · rename_i hint kind hobs
      rw [issue_count_issue_of_ne]
      · rfl
      · rintro rfl
        exact hkind hint hobs
    · rfl
  have hordered : ∀ in_order : Bool, (observe_sequence
      (if in_order then note_prepared health prepared number offset
        else (note_prepared health prepared number offset).issue .sequence number offset)
      prepared.observation.sequence number offset).issue_count .torn_tail
        = health.issue_count .torn_tail := by
    intro in_order
    rw [observe_sequence_issue_count _ (by decide), ← hnoted]
    cases in_order
    · exact issue_count_issue_of_ne _ (by decide) _ _
    · rfl
  simp only [judge, note_verdict]
  split
  · exact hordered _
  · split <;> exact hordered _

/-- **A record in order leaves no mark.** -/
theorem judge_accepted_intact (h : health.Below n) (hi : health.Intact) :
    (judge .increasing health ⟨.accepted (some n), record⟩ number offset).1.Intact := by
  have hvalid : sequence_valid .increasing
      (note_prepared health ⟨.accepted (some n), record⟩ number offset) (some n) = true := by
    rw [sequence_valid_note_prepared]
    exact sequence_valid_increasing.mpr h
  have hverdict : verdict_of .increasing (.accepted (some n)) true = .valid := rfl
  simp only [judge, RecordObservation.sequence, hvalid, if_true, hverdict]
  constructor
  · change (observe_sequence _ _ _ _).incompatible_records = 0
    rw [observe_sequence_incompatible_records]
    exact hi.incompatible_records
  · change (observe_sequence _ _ _ _).issue_count _ = 0
    rw [observe_sequence_issue_count _ (by decide)]
    exact hi.torn_tail
  · change (observe_sequence _ _ _ _).issue_count _ = 0
    rw [observe_sequence_issue_count _ (by decide)]
    exact hi.oversized_line

end

/-! ## A file in order -/

section

variable {σ ρ : Type} {options : ScanOptions} {decoder : LedgerDecoder σ ρ}

/-- The decoder accepts the line under `sequence` and, told that it is in order, goes on. -/
def Accepts (decoder : LedgerDecoder σ ρ) (d : σ) (line : JsonlLine) (sequence : ℕ)
    (d' : σ) : Prop :=
  ∃ (record : Option ρ) (e : σ),
    decoder.decode d line = (⟨.accepted (some sequence), record⟩, e) ∧
    decoder.apply e line ⟨.accepted (some sequence), record⟩ .valid = .ok (d', .continue)

/-- A line that the decoder accepts, with a number above those before it, keeps the scan intact. -/
theorem scan_line_accepts {s : LedgerHealth × σ} {bytes : Bytes} {n : ℕ} {d' : σ}
    (hrule : options.sequence_rule = .increasing)
    (hacc : Accepts decoder s.2 (next_line s.1 bytes) n d') (hbelow : s.1.Below n)
    (hi : s.1.Intact) :
    ∃ health : LedgerHealth,
      scan_line options decoder bytes s = .ok ((health, d'), .continue) ∧
      health.Intact ∧ health.max_observed_sequence = some n ∧
      health.bytes_observed = s.1.bytes_observed + bytes.length := by
  obtain ⟨record, e, hdecode, happly⟩ := hacc
  -- counting the line touches none of the marks
  have hbelow' : (count_line s.1 bytes).Below n := hbelow
  have hi' : (count_line s.1 bytes).Intact :=
    ⟨hi.incompatible_records, hi.torn_tail, hi.oversized_line⟩
  refine ⟨(judge .increasing (count_line s.1 bytes) ⟨.accepted (some n), record⟩
    (next_line s.1 bytes).number (next_line s.1 bytes).offset).1, ?_,
    judge_accepted_intact hbelow' hi', judge_accepted_max hbelow', judge_bytes_observed _ _⟩
  rw [scan_line, hdecode]
  simp only [hrule, judge_accepted_verdict hbelow', happly]

theorem scan_tail_not_intact {t : Bytes} (ht : t ≠ []) (s : LedgerHealth × σ) :
    ¬ (scan_tail options t s).1.Intact := by
  intro hi
  rw [scan_tail, if_neg ht] at hi
  split at hi
  · have := hi.torn_tail
    rw [note_torn, issue_count_issue_self] at this
    omega
  · have := hi.oversized_line
    rw [note_too_long, issue_count_issue_self] at this
    omega

end

end BobbyBrowser.Jsonl
