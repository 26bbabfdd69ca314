/-
A text format for ledgers that meets the laws of `Codec`.

The development takes `serde_json` as a parameter with laws. This module shows
that the laws can be met together: it writes headers and records in the format
of `Wire` and proves the laws of that, the bounds on the length of a text
included. A retained value is written as its own format has it.
-/
import BobbyBrowser.Ledger
import BobbyBrowser.Wire

set_option autoImplicit false

namespace BobbyBrowser.Ledger

open Lines Wire List

variable {V : Type} (values : Wire V)

/-! ## The parts of an entry -/

def operation_wire : Wire InterfaceOperation :=
  among [.runtime_info, .create_session, .read_session, .delete_session, .open_page, .read_page,
    .close_page, .submit_command, .create_checkpoint, .read_checkpoint, .recover_workflow,
    .read_artifact, .read_context, .capture_artifact, .subscribe_events, .submit_job, .read_job,
    .cancel_job, .resolve_job, .issue_principal, .revoke_principal] fun op => by cases op <;> decide

instance printable (bytes : Bytes) : Decidable (∀ b ∈ bytes, 0x20 ≤ b ∧ b ≤ 0x7e) :=
  List.decidableBAll _ _

/-- A key, if the bytes can be one. -/
def key_of_bytes (bytes : Bytes) : Option IdempotencyKey :=
  if h : 1 ≤ bytes.length ∧ bytes.length ≤ 128 ∧ ∀ b ∈ bytes, 0x20 ≤ b ∧ b ≤ 0x7e then
    some ⟨bytes, h.1, h.2.1, h.2.2⟩
  else none

def key_wire : Wire Key :=
  (fin (2 ^ 128)).both (byte.list.embed IdempotencyKey.bytes key_of_bytes fun k => by
    rw [key_of_bytes, dif_pos ⟨k.nonempty, k.bounded, k.printable⟩])

def digest_wire : Wire Digest :=
  byte.list.embed Vector.toList
    (fun bytes => if h : bytes.length = 32 then some ⟨bytes.toArray, by simpa using h⟩ else none)
    fun d => by
      rw [dif_pos (by simp)]
      exact congrArg some (Vector.toArray_inj.mp (Array.toArray_toList))

def expiry_wire : Wire (Option Instant) :=
  nat.embed (fun t => t.elim 0 (· + 1)) (fun n => some (if n = 0 then none else some (n - 1)))
    fun t => by cases t <;> simp

/-- A state as its kind, with the value of a retained one. -/
def state_parts : DurableState V → ℕ × List V
  | .reserved => (0, [])
  | .unresolved => (1, [])
  | .retained value => (2, [value])

/-- The state with these parts. -/
def state_of_parts : ℕ × List V → Option (DurableState V)
  | (0, []) => some .reserved
  | (1, []) => some .unresolved
  | (2, [value]) => some (.retained value)
  | _ => none

def state_wire : Wire (DurableState V) :=
  (nat.both values.list).embed state_parts state_of_parts fun s => by cases s <;> rfl

def entry_wire : Wire (DurableEntry V) :=
  (key_wire.both (operation_wire.both (digest_wire.both (expiry_wire.both
    (nat.both (state_wire values)))))).embed
    (fun e => ((e.principal_id, e.key), e.operation, e.canonical_sha256, e.expires_at,
      e.last_used, e.state))
    (fun p => some ⟨p.1.1, p.1.2, p.2.1, p.2.2.1, p.2.2.2.1, p.2.2.2.2.1, p.2.2.2.2.2⟩)
    fun _ => rfl

/-! ## The lines of a ledger -/

def header_wire : Wire (Header V) :=
  (nat.both ((entry_wire values).list.both digest_wire)).embed
    (fun h => (h.schema_version, h.entries, h.sha256)) (fun p => some ⟨p.1, p.2.1, p.2.2⟩)
    fun _ => rfl

def change_wire : Wire (Change V) :=
  (nat.both (digest_wire.both ((entry_wire values).list.both key_wire.list))).embed
    (fun c => (c.sequence, c.previous_sha256, c.updates, c.removes))
    (fun p => some ⟨p.1, p.2.1, p.2.2.1, p.2.2.2⟩) fun _ => rfl

def record_wire : Wire (Record V) :=
  (nat.both ((change_wire values).both digest_wire)).embed
    (fun r => (r.schema_version, r.change, r.sha256)) (fun p => some ⟨p.1, p.2.1, p.2.2⟩)
    fun _ => rfl

/-! ## How long they are -/

theorem length_bytes_put_le {bytes : Bytes} {n k : ℕ} (hn : bytes.length ≤ n) (hk : n < 16 ^ k) :
    (byte.list.put bytes).length ≤ k + 1 + 3 * n := by
  have hcount : (nat.put bytes.length).length ≤ k + 1 := length_nat_put_le_of_lt (by omega)
  have hvalues : (bytes.flatMap byte.put).length ≤ 3 * bytes.length := by
    clear hn hcount
    induction bytes with
    | nil => simp
    | cons b bs ih =>
      have := length_byte_put_le b
      rw [flatMap_cons, length_append, length_cons]
      omega
  rw [Wire.list, length_append]
  omega

theorem length_key_put_le (k : Key) : (key_wire.put k).length ≤ 420 := by
  have hp : ((fin (2 ^ 128)).put k.1).length ≤ 33 :=
    length_nat_put_le_of_lt (show k.1.val < 16 ^ 32 from lt_of_lt_of_eq k.1.isLt (by decide))
  have hk : (byte.list.put k.2.bytes).length ≤ 2 + 1 + 3 * 128 :=
    length_bytes_put_le k.2.bounded (by decide)
  rw [key_wire, both, length_append]
  exact Nat.add_le_add hp hk

theorem length_digest_put_le (d : Digest) : (digest_wire.put d).length ≤ 99 :=
  length_bytes_put_le (k := 2) (n := 32) (by simp) (by decide)

theorem length_operation_put_le (op : InterfaceOperation) : (operation_wire.put op).length ≤ 3 :=
  length_nat_put_le_of_lt (k := 2) (by cases op <;> decide)

theorem length_expiry_put_le {t : Option Instant} (h : ∀ i ∈ t, i ≤ max_instant) :
    (expiry_wire.put t).length ≤ 20 := by
  refine length_nat_put_le_of_lt (k := 19) ?_
  cases t with
  | none => decide
  | some i =>
    have hi := h i rfl
    have : max_instant + 1 < 16 ^ 19 := by decide
    exact lt_of_le_of_lt (Nat.succ_le_succ hi) this

theorem length_state_put_le (s : DurableState V) :
    ((state_wire values).put s).length ≤ 4 + value_length values.put s := by
  cases s with
  | reserved | unresolved => exact Nat.le_of_ble_eq_true rfl
  | retained v =>
    refine le_of_eq ?_
    change (nat.put 2 ++ (nat.put 1 ++ (values.put v ++ []))).length = 4 + (values.put v).length
    rw [length_append, length_append, append_nil]
    have h₂ : (nat.put 2).length = 2 := by decide
    have h₁ : (nat.put 1).length = 2 := by decide
    omega

/-- An entry is written in fewer than 1024 bytes besides its value. -/
theorem length_entry_put_le {e : DurableEntry V} (h : e.Representable) :
    ((entry_wire values).put e).length + 1 ≤ 1024 + value_length values.put e.state := by
  have hkey := length_key_put_le (e.principal_id, e.key)
  have hop := length_operation_put_le e.operation
  have hsha := length_digest_put_le e.canonical_sha256
  have hexp := length_expiry_put_le h.1
  have hused : (nat.put e.last_used).length ≤ 17 :=
    length_nat_put_le_of_lt (lt_of_lt_of_eq h.2 (by decide))
  have hstate := length_state_put_le values e.state
  simp only [entry_wire, embed, both, length_append] at *
  omega

/-- The length of a header is bounded by its entries. -/
theorem length_header_put_lt (h : Header V) (hv : h.schema_version < 2 ^ 16)
    (hrep : ∀ e ∈ h.entries, e.Representable) :
    ((header_wire values).frame 0x68 h).length
      < 1024 + (h.entries.map fun e => 1024 + value_length values.put e.state).sum := by
  have hversion : (nat.put h.schema_version).length ≤ 5 :=
    length_nat_put_le_of_lt (lt_of_lt_of_eq hv (by decide))
  have hentries := length_list_put_le (entry_wire values)
    (fun e => 1024 + value_length values.put e.state) h.entries
    fun e he => length_entry_put_le values (hrep e he)
  have hsha := length_digest_put_le h.sha256
  rw [length_frame]
  simp only [header_wire, embed, both, length_append] at *
  omega

/-- The length of a change is bounded by its updates and removals. -/
theorem length_record_put_lt (r : Record V) (hv : r.schema_version < 2 ^ 16)
    (hseq : r.change.sequence < 2 ^ 64) (hrep : ∀ e ∈ r.change.updates, e.Representable) :
    ((record_wire values).frame 0x72 r).length
      < 1024 + (r.change.updates.map fun e => 1024 + value_length values.put e.state).sum
        + 512 * r.change.removes.length := by
  have hversion : (nat.put r.schema_version).length ≤ 5 :=
    length_nat_put_le_of_lt (lt_of_lt_of_eq hv (by decide))
  have hsequence : (nat.put r.change.sequence).length ≤ 17 :=
    length_nat_put_le_of_lt (lt_of_lt_of_eq hseq (by decide))
  have hupdates := length_list_put_le (entry_wire values)
    (fun e => 1024 + value_length values.put e.state) r.change.updates
    fun e he => length_entry_put_le values (hrep e he)
  have hremoves : (key_wire.list.put r.change.removes).length
      ≤ 1 + (r.change.removes.map fun _ => 512).sum :=
    length_list_put_le key_wire (fun _ => 512) _ fun k _ => by
      have := length_key_put_le k
      omega
  rw [map_const', sum_replicate_nat] at hremoves
  have hsha := length_digest_put_le r.sha256
  have hprevious := length_digest_put_le r.change.previous_sha256
  rw [length_frame]
  simp only [record_wire, change_wire, embed, both, length_append] at *
  omega

/-! ## The format -/

/-- **The laws of `Codec` can be met.** The checksums are constant: no law asks anything of them. -/
def wire_codec : Codec V where
  value_bytes := values.put
  header_bytes := (header_wire values).frame 0x68
  record_bytes := (record_wire values).frame 0x72
  decode_header := (header_wire values).unframe 0x68
  decode_record := (record_wire values).unframe 0x72
  decode_snapshot _ := none
  snapshot_sha256 _ := zero_sha256
  change_sha256 _ := zero_sha256
  decode_header_line := unframe_frame
  decode_header_nil := rfl
  decode_record_line := unframe_frame
  decode_record_header_line h := unframe_frame_of_ne (by decide) h _
  newline_notMem_header := newline_notMem_frame (by decide)
  newline_notMem_record := newline_notMem_frame (by decide)
  header_length := length_header_put_lt values
  record_length := length_record_put_lt values

end BobbyBrowser.Ledger
