/-
What a version-2 ledger means.

`load` reads a ledger by scanning it; this module says what the scan computes.
`Admits` is the set of conditions a record has to meet after the lines before
it, `V2Decoder.after` is the state behind it, and `scan_change_line` shows that
one round of the scan is exactly that. From the round follow the two facts the
store's proofs use: how `load` moves when a record line is appended
(`load_append_record`), and that a ledger cut inside a line is refused
(`load_torn`).
-/
import BobbyBrowser.Ledger

set_option autoImplicit false

namespace BobbyBrowser.Ledger

open Keyed hiding Unique insert
open Option hiding any_eq_false
open List hiding tail
open Lines Jsonl
open DurableEntry (identity)

variable {now later : Instant} {bytes file l : Bytes} {ls : List Bytes} {V : Type} (C : Codec V)
  (entries : List (DurableEntry V))

/-- No two entries share a key. -/
abbrev DistinctKeys : Prop := Keyed.Unique identity entries

/-! ## `validate` as a condition -/

/-- What `validate` demands of one entry: only a retained value may expire, and it is bounded. -/
def EntryValid (e : DurableEntry V) : Prop :=
  match e.state with
  | .retained value => (C.value_bytes value).length ≤ 64 * 1024
  | _ => e.expires_at = none

/-- How many entries belong to a principal. -/
def principal_count (p : PrincipalId) (entries : List (DurableEntry V)) : ℕ :=
  entries.countP fun e => p = e.principal_id

theorem validate_entry_eq_ok {e : DurableEntry V} :
    validate_entry C e = .ok () ↔ EntryValid C e := by
  unfold validate_entry EntryValid
  cases e.state with
  | retained value =>
    split <;> simp_all
  | reserved | unresolved => cases h : e.expires_at <;> simp

/-- The keys are distinct, and none of them was seen before. -/
abbrev Fresh (seen ks : List Key) : Prop := ks.Nodup ∧ ∀ k ∈ ks, k ∉ seen

/-- Keys are fresh one after the other. -/
theorem fresh_cons {k : Key} {ks seen seen' : List Key} (hk : k ∉ seen)
    (hseen : ∀ k', k' ∈ seen' ↔ k' = k ∨ k' ∈ seen) : Fresh seen' ks ↔ Fresh seen (k :: ks) := by
  simp only [Fresh, hseen, nodup_cons, mem_cons, forall_eq_or_imp, not_or]
  constructor
  · rintro ⟨hnodup, hfresh⟩
    exact ⟨⟨fun hmem => (hfresh k hmem).1 rfl, hnodup⟩, hk, fun a ha => (hfresh a ha).2⟩
  · rintro ⟨⟨hnew, hnodup⟩, -, hfresh⟩
    exact ⟨hnodup, fun a ha => ⟨fun heq => hnew (heq ▸ ha), hfresh a ha⟩⟩

/-- **What `validate` accepts**: valid entries, of which those that have not expired have distinct
keys and keep within the capacities. By induction on the entries. -/
theorem validate_loop_eq_ok (now : Instant) (es : List (DurableEntry V)) (keys : List Key)
    (counts : PrincipalId → ℕ) (hcounts : ∀ p, counts p ≤ 256) (hkeys : keys.length ≤ 4096) :
    validate_loop C now es keys counts = .ok () ↔
      (∀ e ∈ es, EntryValid C e) ∧ Fresh keys ((live now es).map identity) ∧
      (∀ p, counts p + principal_count p (live now es) ≤ 256) ∧
      keys.length + (live now es).length ≤ 4096 := by
  induction es generalizing keys counts with
  | nil => simp [validate_loop, live, Fresh, principal_count, hcounts, hkeys]
  | cons e es ih =>
    rw [validate_loop]
    cases hv : validate_entry C e with
    | error issue =>
      have hno : ¬ EntryValid C e := by
        rw [← validate_entry_eq_ok, hv]
        exact nofun
      simp only [reduceCtorEq, false_iff]
      exact fun h => hno (h.1 e mem_cons_self)
    | ok u =>
      have hvalid : EntryValid C e := (validate_entry_eq_ok C).mp hv
      by_cases hexp : e.expired now = true
      · have hlive : live now (e :: es) = live now es := by simp [live, hexp]
        rw [if_pos hexp, ih keys counts hcounts hkeys, hlive]
        simp [hvalid]
      have hlive : live now (e :: es) = e :: live now es := by simp [live, hexp]
      have hcount : ∀ p, principal_count p (e :: live now es)
          = principal_count p (live now es) + (if p = e.principal_id then 1 else 0) := by
        intro p
        simp only [principal_count, countP_cons, decide_eq_true_eq]
      rw [if_neg hexp, hlive]
      by_cases hmem : e.identity ∈ keys
      · rw [if_pos hmem]
        simp only [reduceCtorEq, false_iff]
        exact fun h => h.2.1.2 _ mem_cons_self hmem
      rw [if_neg hmem]
      by_cases hcap : 256 < counts e.principal_id + 1 ∨ 4096 < keys.length + 1
      · rw [if_pos hcap]
        simp only [reduceCtorEq, false_iff]
        rintro ⟨-, -, hprincipal, htotal⟩
        have h := hprincipal e.principal_id
        rw [hcount, if_pos rfl] at h
        rw [length_cons] at htotal
        omega
      -- the new key and the new count are within bounds, so the loop goes on with them
      push Not at hcap
      have hcounts' : ∀ p, (if p = e.principal_id then counts e.principal_id + 1
          else counts p) ≤ 256 := by
        intro p
        split
        · exact hcap.1
        · exact hcounts p
      rw [if_neg (by omega), ih _ _ hcounts' (by simpa using hcap.2)]
      have hsplit : ∀ p, (if p = e.principal_id then counts e.principal_id + 1
          else counts p) + principal_count p (live now es)
          = counts p + principal_count p (e :: live now es) := by
        intro p
        rw [hcount]
        by_cases hp : p = e.principal_id
        · subst hp
          rw [if_pos rfl, if_pos rfl]
          omega
        · rw [if_neg hp, if_neg hp]
          rfl
      rw [fresh_cons hmem fun _ => mem_cons, length_cons, Nat.succ_add_eq_add_succ]
      simp only [hsplit, length_cons, map_cons, forall_mem_cons, hvalid, true_and]

variable {es : List (DurableEntry V)}

theorem validate_eq_ok :
    validate C now es = .ok () ↔
      (∀ e ∈ es, EntryValid C e) ∧ DistinctKeys (live now es) ∧
      (∀ p, principal_count p (live now es) ≤ 256) ∧ (live now es).length ≤ 4096 := by
  rw [validate, validate_loop_eq_ok C now es [] (fun _ => 0) (fun _ => by omega) (by simp)]
  simp [Keyed.Unique]

theorem live_sublist (h : now ≤ later) (es : List (DurableEntry V)) :
    (live later es).Sublist (live now es) := by
  apply monotone_filter_right
  intro e he
  simp only [DurableEntry.expired, Bool.not_eq_true', Option.any_eq_false,
    decide_eq_false_iff_not, not_le] at he ⊢
  exact fun t ht => lt_of_le_of_lt h (he t ht)

theorem validate_mono (h : now ≤ later)
    (hv : validate C now es = .ok ()) : validate C later es = .ok () := by
  rw [validate_eq_ok] at hv ⊢
  obtain ⟨hentries, hunique, hprincipal, htotal⟩ := hv
  have hsub := live_sublist h es
  exact ⟨hentries, hunique.sublist hsub,
    fun p => (hsub.countP_le).trans (hprincipal p), hsub.length_le.trans htotal⟩

/-! ## What a record has to meet -/

/-- Entries are collected when no key is listed twice. -/
theorem collect_entries_eq (es acc : List (DurableEntry V)) (hacc : DistinctKeys acc) :
    collect_entries es acc
      = if Fresh (acc.map identity) (es.map identity)
        then some (acc ++ es) else none := by
  induction es generalizing acc with
  | nil => simp [collect_entries]
  | cons e es ih =>
    rw [collect_entries]
    by_cases hmem : e.identity ∈ acc.map identity
    · rw [if_pos (get_isSome_iff.mpr hmem), if_neg]
      exact fun h => h.2 _ mem_cons_self hmem
    have hnone : get identity e.identity acc = none := get_eq_none_iff_notMem.mpr hmem
    have hinsert : Keyed.insert identity e acc = acc ++ [e] := by
      rw [Keyed.insert, remove_of_notMem hmem]
    rw [hnone, isSome_none, if_neg Bool.false_ne_true, hinsert,
      ih (acc ++ [e]) (hacc.append_singleton hmem), append_assoc, singleton_append]
    have hfresh : Fresh ((acc ++ [e]).map identity) (es.map identity) ↔ _ :=
      fresh_cons hmem fun k' => by simp [or_comm]
    simp only [hfresh, map_cons]

theorem collect_entries_nil (es : List (DurableEntry V)) :
    collect_entries es [] = if (es.map identity).Nodup then some es else none := by
  rw [collect_entries_eq es [] nodup_nil]
  simp [Fresh]

/-- Keys are removed when they are there, and none is changed twice. -/
theorem check_removes_eq (ks changed : List Key) :
    check_removes entries ks changed
      = if Fresh changed ks ∧ ∀ k ∈ ks, k ∈ entries.map identity
        then some (ks.reverse ++ changed) else none := by
  induction ks generalizing changed with
  | nil => simp [check_removes]
  | cons k ks ih =>
    rw [check_removes]
    by_cases hbad : k ∈ changed ∨ (get identity k entries).isNone
    · rw [if_pos hbad, if_neg]
      rintro ⟨hfresh, hpresent⟩
      rcases hbad with hch | hnone
      · exact hfresh.2 k mem_cons_self hch
      · have := get_isSome_iff.mpr (hpresent k mem_cons_self)
        simp_all
    rw [if_neg hbad, ih]
    push Not at hbad
    have hpresent : k ∈ entries.map identity := by
      rw [← get_isSome_iff, isSome_iff_ne_none]
      simpa using hbad.2
    have hfresh : Fresh (k :: changed) ks ↔ _ := fresh_cons hbad.1 fun k' => mem_cons
    simp only [hfresh, forall_mem_cons, hpresent, true_and, reverse_cons,
      append_assoc, singleton_append]

/-- The size the decoder counts is the size after the change, as long as the keys it has not
seen yet are present in the map it started from exactly when they are present now. -/
theorem check_updates_eq (es : List (DurableEntry V))
    (changed : List Key) (cur : List (DurableEntry V)) (hcur : DistinctKeys cur)
    (hsame : ∀ k, k ∉ changed → ((Keyed.get identity k entries).isNone
      = (Keyed.get identity k cur).isNone)) :
    check_updates entries es changed cur.length
      = if Fresh changed (es.map identity)
        then some (Keyed.insertAll identity es cur).length else none := by
  induction es generalizing changed cur with
  | nil => simp [check_updates, insertAll]
  | cons e es ih =>
    rw [check_updates]
    by_cases hmem : e.identity ∈ changed
    · rw [if_pos hmem, if_neg]
      exact fun h => h.2 _ mem_cons_self hmem
    have hsize : (if (get identity e.identity entries).isNone
          then cur.length + 1 else cur.length)
        = (Keyed.insert identity e cur).length := by
      rw [hsame _ hmem, length_insert hcur]
    have hsame' : ∀ k, k ∉ e.identity :: changed → ((get identity k entries).isNone
          = (get identity k (Keyed.insert identity e cur)).isNone) := by
      intro k hk
      simp only [mem_cons, not_or] at hk
      rw [get_insert_of_ne hk.1, hsame k hk.2]
    rw [if_neg hmem, hsize, ih _ _ hcur.insert hsame']
    have hfresh : Fresh (e.identity :: changed) (es.map identity) ↔ _ :=
      fresh_cons hmem fun k' => mem_cons
    simp only [hfresh]
    rfl

/-- What `decode` demands of a record after the lines that led to `d`. -/
structure RecordOk (d : V2Decoder V) (record : Record V) (length : ℕ) : Prop where
  schema : record.schema_version = 2
  chained : record.change.previous_sha256 = d.sha256
  checksum : C.change_sha256 record.change = record.sha256
  removes_nodup : record.change.removes.Nodup
  removes_present : ∀ k ∈ record.change.removes, k ∈ d.entries.map identity
  updates_unique : DistinctKeys record.change.updates
  updates_disjoint : ∀ e ∈ record.change.updates, e.identity ∉ record.change.removes
  size : (record.change.apply d.entries).length ≤ 4096
  records : d.sequence < COMPACT_RECORDS
  bytes : d.appended_bytes + length ≤ COMPACT_BYTES + MAX_LINE_BYTES

/-- A record that is accepted after `d`: what `decode` demands, and the next sequence number. -/
structure Admits (d : V2Decoder V) (record : Record V) (length : ℕ) : Prop
    extends RecordOk C d record length where
  next : record.change.sequence = d.sequence + 1

/-- The decoder behind an accepted record. -/
def V2Decoder.after (d : V2Decoder V) (record : Record V) (length : ℕ) : V2Decoder V :=
  { d with
    entries := record.change.apply d.entries
    sequence := record.change.sequence
    sha256 := record.sha256
    appended_bytes := d.appended_bytes + length }

variable {change : Change V} {entries}

theorem Change.apply_unique (h : DistinctKeys entries) : DistinctKeys (change.apply entries) :=
  (h.removeAll _).insertAll _

/-- The two loops of `decode` succeed exactly on distinct keys, the removed ones present, and
then count the size of the map after the change. -/
theorem check_change_eq (change : Change V) (hunique : DistinctKeys entries)
    (hnodup : change.removes.Nodup) (hpresent : ∀ k ∈ change.removes, k ∈ entries.map identity) :
    check_updates entries change.updates (change.removes.reverse ++ [])
        (entries.length - change.removes.length)
      = if DistinctKeys change.updates
          ∧ ∀ e ∈ change.updates, e.identity ∉ change.removes
        then some (change.apply entries).length else none := by
  have hlen := length_removeAll hunique hnodup hpresent
  have hsize : entries.length - change.removes.length
      = (removeAll identity change.removes entries).length := by omega
  have hsame : ∀ k, k ∉ change.removes.reverse ++ [] → ((get identity k entries).isNone
        = (get identity k (removeAll identity change.removes entries)).isNone) := by
    intro k hk
    simp only [append_nil, mem_reverse] at hk
    rw [get_removeAll, if_neg hk]
  rw [hsize, check_updates_eq entries change.updates _ _ (hunique.removeAll _) hsame]
  simp only [Fresh, append_nil, mem_reverse, List.forall_mem_map]
  rfl

/-- **`decode` on a record line** accepts what `RecordOk` says, and rejects the rest. -/
theorem decode_change_record_eq {d : V2Decoder V} {record : Record V}
    (hunique : DistinctKeys d.entries) (hdecode : C.decode_record bytes = some record) :
    (RecordOk C d record bytes.length ∧ decode_change_record C d bytes = accepted_change record) ∨
    (¬ RecordOk C d record bytes.length ∧
      ∃ kind, decode_change_record C d bytes = rejected kind (some record.change.sequence)) := by
  unfold decode_change_record
  simp only [hdecode]
  split
  · rename_i hschema
    exact .inr ⟨fun h => hschema h.schema, _, rfl⟩
  split
  · rename_i hsum
    exact .inr ⟨fun h => hsum.elim (· h.chained) (· h.checksum), _, rfl⟩
  rename_i hschema hsum
  push Not at hschema hsum
  rw [check_removes_eq]
  by_cases hremoves : Fresh [] record.change.removes
      ∧ ∀ k ∈ record.change.removes, k ∈ d.entries.map identity
  · rw [if_pos hremoves]
    simp only [check_change_eq record.change hunique hremoves.1.1 hremoves.2]
    by_cases hupdates : DistinctKeys record.change.updates
        ∧ ∀ e ∈ record.change.updates, e.identity ∉ record.change.removes
    · rw [if_pos hupdates]
      simp only
      split
      · refine .inr ⟨fun h => ?_, _, rfl⟩
        have h1 := h.size
        have h2 := h.records
        have h3 := h.bytes
        omega
      · rename_i hbounds
        push Not at hbounds
        exact .inl ⟨⟨hschema, hsum.1, hsum.2, hremoves.1.1, hremoves.2, hupdates.1, hupdates.2,
          hbounds.1, hbounds.2.1, hbounds.2.2⟩, rfl⟩
    · rw [if_neg hupdates]
      exact .inr ⟨fun h => hupdates ⟨h.updates_unique, h.updates_disjoint⟩, _, rfl⟩
  · rw [if_neg hremoves]
    exact .inr ⟨fun h => hremoves ⟨⟨h.removes_nodup, by simp⟩, h.removes_present⟩, _, rfl⟩

/-! ## One round of the scan -/

/-- Where the scan of a ledger stands after the header, as long as nothing was wrong. -/
structure Scanned (health : LedgerHealth) (d : V2Decoder V) : Prop where
  clean : health.first_issue = none
  past_header : d.header = none
  unique : DistinctKeys d.entries
  last : health.last_accepted_sequence = if d.sequence = 0 then none else some d.sequence
  bounded : d.sequence ≤ COMPACT_RECORDS

/-- The record a line holds is accepted after `d`. -/
def LineAdmitted (d : V2Decoder V) (bytes : Bytes) (record : Record V) : Prop :=
  C.decode_record bytes = some record ∧ Admits C d record bytes.length

variable {health : LedgerHealth} {d : V2Decoder V}

theorem Scanned.sequence_valid_iff (hs : Scanned health d) (n : ℕ) :
    sequence_valid (.consecutive 1) health (some n) = true ↔ n = d.sequence + 1 := by
  have hb := hs.bounded
  simp only [COMPACT_RECORDS] at hb
  simp only [sequence_valid, hs.last, decide_eq_true_eq]
  by_cases h0 : d.sequence = 0
  · simp only [h0, if_true, some.injEq]
    omega
  · simp only [h0, if_false, checked_succ]
    rw [if_pos (by simp only [u64_max]; omega), some.injEq, eq_comm]

section

variable {prepared : PreparedRecord (V2Prepared V)} {d' : V2Decoder V}

/-- A line that is rejected, or has the wrong number, stops the scan with an issue. -/
theorem scan_line_invalid (now : Instant)
    (hdecode : V2Decoder.decode C now d (next_line health bytes) = (prepared, d'))
    (hbad : prepared.observation.is_rejected = true
      ∨ sequence_valid (.consecutive 1) health prepared.observation.sequence = false) :
    ∃ health', scan_line v2_options (v2_decoder C now) bytes (health, d)
        = .ok ((health', d'), .stop) ∧ health'.first_issue ≠ none := by
  have hverdict : (judge (.consecutive 1) (count_line health bytes) prepared
      (next_line health bytes).number (next_line health bytes).offset).2 = .invalid := by
    have hbad' : (prepared.observation.is_rejected
        || !sequence_valid (.consecutive 1) (count_line health bytes)
          prepared.observation.sequence) = true := by
      rw [Bool.or_eq_true, Bool.not_eq_true']
      exact hbad
    rw [judge_verdict, verdict_of, if_pos hbad']
  refine ⟨_, ?_, judge_first_issue_ne_none _ _ _ _ _ hverdict⟩
  simp only [scan_line, v2_decoder, v2_options, hdecode, V2Decoder.apply, hverdict, if_true]

/-- A line with the next number is applied, and the scan goes on. -/
theorem scan_line_applied (now : Instant) {d'' : V2Decoder V}
    (hdecode : V2Decoder.decode C now d (next_line health bytes) = (prepared, d'))
    (hobservation : prepared.observation.is_rejected = false ∧ prepared.observation.is_skipped = false)
    (hvalid : sequence_valid (.consecutive 1) health prepared.observation.sequence)
    (hmax : prepared.observation.sequence ≠ some u64_max) (happly : ∀ verdict, verdict ≠ .invalid →
      d'.apply (next_line health bytes) prepared verdict = .ok (d'', .continue)) :
    ∃ health', scan_line v2_options (v2_decoder C now) bytes (health, d)
        = .ok ((health', d''), .continue) ∧ health'.first_issue = health.first_issue ∧
      health'.last_accepted_sequence
        = prepared.observation.sequence.or health.last_accepted_sequence := by
  have hverdict : (judge (.consecutive 1) (count_line health bytes) prepared
      (next_line health bytes).number (next_line health bytes).offset).2 ≠ .invalid := by
    rw [judge_verdict, verdict_of, hobservation.1,
      show sequence_valid _ (count_line health bytes) _ = true from hvalid]
    cases prepared.observation.sequence <;> rintro ⟨⟩
  have hlast := judge_last_accepted_sequence _ _ _ _ _ hverdict hobservation.2
  refine ⟨_, ?_, judge_first_issue (count_line health bytes) _ _ _ _ hobservation.1 hvalid hmax, hlast⟩
  simp only [scan_line, v2_decoder, v2_options, hdecode, happly _ hverdict]

end

/-- A change that the decoder admits is applied to its entries. -/
theorem scan_line_admitted (now : Instant) (hs : Scanned health d)
    {record : Record V} (hadm : Admits C d record bytes.length)
    (hdecode : V2Decoder.decode C now d (next_line health bytes) = (accepted_change record, d)) :
    ∃ health', scan_line v2_options (v2_decoder C now) bytes (health, d)
        = .ok ((health', d.after record bytes.length), .continue) ∧
      Scanned health' (d.after record bytes.length) := by
  have hnext := hadm.next
  have hbound := hadm.records
  have hmax : (some record.change.sequence) ≠ some u64_max := by
    simp only [hnext, ne_eq, some.injEq, u64_max]
    simp only [COMPACT_RECORDS] at hbound
    omega
  obtain ⟨health', hscan, hissue, hlast⟩ := scan_line_applied C now hdecode ⟨rfl, rfl⟩
    ((hs.sequence_valid_iff _).mpr hnext) hmax fun verdict hverdict => if_neg hverdict
  refine ⟨health', hscan, hissue.trans hs.clean, hs.past_header, Change.apply_unique hs.unique,
    ?_, ?_⟩
  · rw [hlast]
    simp only [accepted_change, RecordObservation.sequence, some_or, V2Decoder.after, hnext]
    rw [if_neg (Nat.succ_ne_zero _)]
  · simp only [V2Decoder.after, hnext]
    omega

/-- **One round of the scan** over a line behind the header. -/
theorem scan_change_line (now : Instant) (hs : Scanned health d) (bytes : Bytes) :
    (∃ record health', LineAdmitted C d bytes record ∧
      scan_line v2_options (v2_decoder C now) bytes (health, d)
        = .ok ((health', d.after record bytes.length), .continue) ∧
      Scanned health' (d.after record bytes.length)) ∨
    ((∀ record, ¬ LineAdmitted C d bytes record) ∧ ∃ health',
      scan_line v2_options (v2_decoder C now) bytes (health, d) = .ok ((health', d), .stop) ∧
      health'.first_issue ≠ none) := by
  have hdecode : V2Decoder.decode C now d (next_line health bytes)
      = (decode_change_record C d bytes, d) := by
    simp only [V2Decoder.decode, hs.past_header, next_line]
  cases hrec : C.decode_record bytes with
  | none =>
    have hdec : decode_change_record C d bytes = rejected .decode none := by
      simp only [decode_change_record, hrec]
    rw [hdec] at hdecode
    refine .inr ⟨fun record h => ?_, scan_line_invalid C now hdecode (.inl rfl)⟩
    rw [LineAdmitted, hrec] at h
    cases h.1
  | some record =>
    have hsame : ∀ record', LineAdmitted C d bytes record' → record' = record := fun record' h =>
      some.inj (h.1.symm.trans hrec)
    rcases decode_change_record_eq C hs.unique hrec with ⟨hok, hdec⟩ | ⟨hno, kind, hdec⟩ <;>
      rw [hdec] at hdecode
    · by_cases hnext : record.change.sequence = d.sequence + 1
      · obtain ⟨health', hscan, hs'⟩ := scan_line_admitted C now hs ⟨hok, hnext⟩ hdecode
        exact .inl ⟨record, health', ⟨hrec, hok, hnext⟩, hscan, hs'⟩
      · have hseq : sequence_valid (.consecutive 1) health (some record.change.sequence) = false :=
          Bool.eq_false_iff.mpr fun h => hnext ((hs.sequence_valid_iff _).mp h)
        refine .inr ⟨fun record' h => ?_, scan_line_invalid C now hdecode (.inr hseq)⟩
        exact hnext (hsame record' h ▸ h.2.next)
    · refine .inr ⟨fun record' h => ?_, scan_line_invalid C now hdecode (.inl rfl)⟩
      exact hno (hsame record' h ▸ h.2.toRecordOk)

/-! ## The header round -/

/-- What `decode` demands of the header, at the time of the load. -/
structure HeaderOk (now : Instant) (header : Header V) : Prop where
  schema : header.schema_version = 2
  checksum : header.sha256 = C.snapshot_sha256 header.entries
  valid : validate C now header.entries = .ok ()
  unique : DistinctKeys header.entries

/-- The decoder behind the header. -/
def Header.decoder (header : Header V) : V2Decoder V := ⟨none, header.entries, 0, header.sha256, 0⟩

/-- The decoder in front of the header, which was parsed when the format was detected. -/
def Header.pending (header : Header V) : V2Decoder V := ⟨some header, [], 0, zero_sha256, 0⟩

/-- A header is accepted or rejected by its checks alone. -/
theorem decode_header_record_eq (now : Instant) (header : Header V) :
    (HeaderOk C now header ∧ decode_header_record C now header
        = ⟨.accepted none, some (.header header.entries header.sha256)⟩) ∨
    (¬ HeaderOk C now header ∧ ∃ kind, decode_header_record C now header = rejected kind none) := by
  unfold decode_header_record
  split
  · rename_i hschema
    exact .inr ⟨fun h => hschema h.schema, _, rfl⟩
  split
  · rename_i hsum
    exact .inr ⟨fun h => hsum h.checksum, _, rfl⟩
  rename_i hschema hsum
  push Not at hschema hsum
  cases hvalid : validate C now header.entries with
  | error issue =>
    refine .inr ⟨fun h => ?_, _, rfl⟩
    rw [h.valid] at hvalid
    cases hvalid
  | ok u =>
    simp only [collect_entries_nil]
    by_cases hunique : (header.entries.map identity).Nodup
    · rw [if_pos hunique]
      exact .inl ⟨⟨hschema, hsum, hvalid, hunique⟩, rfl⟩
    · rw [if_neg hunique]
      exact .inr ⟨fun h => hunique h.unique, _, rfl⟩

variable {header : Header V}

/-- A header that is in order starts the scan with its entries. -/
theorem scan_header_line (now : Instant) (hok : HeaderOk C now header) (bytes : Bytes) :
    ∃ health', scan_line v2_options (v2_decoder C now) bytes ({}, header.pending)
        = .ok ((health', header.decoder), .continue) ∧ Scanned health' header.decoder := by
  have hdec : decode_header_record C now header
      = ⟨.accepted none, some (.header header.entries header.sha256)⟩ := by
    rcases decode_header_record_eq C now header with ⟨-, h⟩ | ⟨hno, -⟩
    · exact h
    · exact absurd hok hno
  have hdecode : V2Decoder.decode C now header.pending (next_line {} bytes)
      = (⟨.accepted none, some (.header header.entries header.sha256)⟩,
        { header.pending with header := none }) := by
    simp only [V2Decoder.decode, Header.pending, hdec]
  obtain ⟨health', hscan, hissue, hlast⟩ := scan_line_applied C now hdecode ⟨rfl, rfl⟩ rfl nofun
    fun verdict hverdict => if_neg hverdict
  exact ⟨health', hscan, hissue, rfl, hok.unique, hlast, Nat.zero_le _⟩

/-- Any other header stops it. -/
theorem scan_header_line_invalid (now : Instant) (hno : ¬ HeaderOk C now header) (bytes : Bytes) :
    ∃ health' d', scan_line v2_options (v2_decoder C now) bytes ({}, header.pending)
        = .ok ((health', d'), .stop) ∧ health'.first_issue ≠ none := by
  obtain ⟨kind, hdec⟩ : ∃ kind, decode_header_record C now header = rejected kind none := by
    rcases decode_header_record_eq C now header with ⟨hok, -⟩ | ⟨-, h⟩
    · exact absurd hok hno
    · exact h
  have hdecode : V2Decoder.decode C now header.pending (next_line {} bytes)
      = (rejected kind none, { header.pending with header := none }) := by
    simp only [V2Decoder.decode, Header.pending, hdec]
  obtain ⟨health', hscan, hissue⟩ := scan_line_invalid C now hdecode (.inl rfl)
  exact ⟨health', _, hscan, hissue⟩

/-! ## What `load` accepts -/

/-- The lines `ls` lead from `d` to `d'`, each accepted after the ones before it. -/
inductive Replays : V2Decoder V → List Bytes → V2Decoder V → Prop
  | nil (d : V2Decoder V) : Replays d [] d
  | cons {d d' : V2Decoder V} {bytes : Bytes} {ls : List Bytes} {record : Record V}
      (hfit : bytes.length ≤ MAX_LINE_BYTES) (hadm : LineAdmitted C d bytes record)
      (hrest : Replays (d.after record bytes.length) ls d') : Replays d (bytes :: ls) d'

theorem Replays.functional {d d₁ d₂ : V2Decoder V} (h₁ : Replays C d ls d₁)
    (h₂ : Replays C d ls d₂) : d₁ = d₂ := by
  induction h₁ with
  | nil d =>
    cases h₂
    rfl
  | cons _ hadm _ ih =>
    cases h₂ with
    | cons _ hadm' hrest =>
      obtain rfl := some.inj (hadm'.1.symm.trans hadm.1)
      exact ih hrest

theorem Replays.append {d d₁ d₂ : V2Decoder V} {ms : List Bytes} (h₁ : Replays C d ls d₁)
    (h₂ : Replays C d₁ ms d₂) : Replays C d (ls ++ ms) d₂ := by
  induction h₁ with
  | nil d => exact h₂
  | cons hfit hadm _ ih => exact .cons hfit hadm (ih h₂)

theorem Replays.of_append {d d₂ : V2Decoder V} {ms : List Bytes}
    (h : Replays C d (ls ++ ms) d₂) : ∃ d₁, Replays C d ls d₁ ∧ Replays C d₁ ms d₂ := by
  induction ls generalizing d with
  | nil => exact ⟨d, .nil d, h⟩
  | cons bytes ls ih =>
    cases h with
    | cons hfit hadm hrest =>
      obtain ⟨d₁, h₁, h₂⟩ := ih hrest
      exact ⟨d₁, .cons hfit hadm h₁, h₂⟩

/-- **The scan of the changes**: all of them replay, or it stops with an issue. By induction on the
lines. -/
theorem fold_change_lines (now : Instant) (ls : List Bytes) (hs : Scanned health d) :
    (∃ health' d', fold_lines v2_options (v2_decoder C now) ls (health, d)
        = .ok ((health', d'), .continue) ∧ Scanned health' d' ∧ Replays C d ls d') ∨
    (∃ health' d', fold_lines v2_options (v2_decoder C now) ls (health, d)
        = .ok ((health', d'), .stop) ∧ health'.first_issue ≠ none ∧ ∀ d'', ¬ Replays C d ls d'') := by
  induction ls generalizing health d with
  | nil => exact .inl ⟨health, d, rfl, hs, .nil d⟩
  | cons bytes ls ih =>
    rw [fold_lines]
    by_cases hfit : within v2_options.max_line_bytes bytes.length = true
    · have hfit' : bytes.length ≤ MAX_LINE_BYTES := of_decide_eq_true hfit
      rw [if_pos hfit]
      rcases scan_change_line C now hs bytes with
        ⟨record, health', hadm, hscan, hs'⟩ | ⟨hno, health', hscan, hissue⟩
      · simp only [hscan]
        rcases ih hs' with ⟨health'', d', hfold, hs'', hrep⟩ | ⟨health'', d', hfold, hissue, hrep⟩
        · exact .inl ⟨health'', d', hfold, hs'', .cons hfit' hadm hrep⟩
        refine .inr ⟨health'', d', hfold, hissue, fun d'' h => ?_⟩
        cases h with
        | cons _ hadm' hrest =>
          obtain rfl := some.inj (hadm'.1.symm.trans hadm.1)
          exact hrep d'' hrest
      · simp only [hscan]
        refine .inr ⟨health', d, rfl, hissue, fun d'' h => ?_⟩
        cases h with
        | cons _ hadm _ => exact hno _ hadm
    · rw [if_neg hfit]
      refine .inr ⟨_, _, rfl, some_ne_none _, fun d'' h => ?_⟩
      cases h with
      | cons hfit' _ _ => exact hfit (decide_eq_true hfit')

/-- A version-2 file that `load` accepts, and the decoder it ends with. -/
structure Accepted (now : Instant) (file : Bytes) (d : V2Decoder V) : Prop where
  intro ::
  whole : tail file = []
  parsed : ∃ l ls header, lines file = l :: ls ∧ l.length ≤ MAX_LINE_BYTES
    ∧ C.decode_header l = some header ∧ HeaderOk C now header ∧ Replays C header.decoder ls d

/-- What `load` returns for a decoder. -/
def V2Decoder.loaded (d : V2Decoder V) : Loaded V :=
  ⟨d.entries, 2, d.sequence, d.sha256, d.appended_bytes⟩

variable {loaded : Loaded V}

theorem load_snapshot_format
    (h : load_snapshot C bytes = .ok (some loaded)) : loaded.format = 1 := by
  unfold load_snapshot at h
  split at h
  · cases h
  split at h
  · cases h
  split at h
  · cases h
  cases h
  rfl

/-- A file that begins with a header is scanned line by line. -/
theorem load_of_header {rest : Bytes}
    (hread : read_jsonl_line (some MAX_LINE_BYTES) file = (.complete l, rest))
    (hheader : C.decode_header l = some header) :
    load C now (some file)
      = match scan_lines v2_options (v2_decoder C now) (lines file) (tail file)
            ({}, header.pending) with
        | .error e => .error e
        | .ok (health, d) =>
          if health.first_issue.isSome then .error invalid else .ok (some d.loaded) := by
  have hscan := scan_jsonl_prefetched_eq v2_options (v2_decoder C now) file header.pending
  rw [show v2_options.max_line_bytes = some MAX_LINE_BYTES from rfl, hread] at hscan
  simp only [load, hread, hheader]
  rw [show (⟨some header, [], 0, zero_sha256, 0⟩ : V2Decoder V) = header.pending from rfl, hscan]
  rfl

theorem exists_first_line (hls : lines file = l :: ls) :
    ∃ body rest, newline ∉ body ∧ l = body ++ [newline] ∧ file = body ++ newline :: rest := by
  obtain ⟨body, hbody, rfl⟩ := isLine_of_mem file l (hls ▸ mem_cons_self)
  have hfile := join_split file
  rw [hls, flatten_cons, append_assoc, append_assoc, singleton_append] at hfile
  exact ⟨body, _, hbody, rfl, hfile.symm⟩

theorem read_first_line (hls : lines file = l :: ls) (hfit : l.length ≤ MAX_LINE_BYTES) :
    ∃ rest, read_jsonl_line (some MAX_LINE_BYTES) file = (.complete l, rest) := by
  obtain ⟨body, rest, hbody, rfl, rfl⟩ := exists_first_line hls
  exact ⟨rest, read_jsonl_line_complete hbody rest (by simpa [within] using hfit)⟩

/-- **An accepted file loads**, and `load` returns the decoder its lines lead to. -/
theorem Accepted.load_eq (h : Accepted C now file d) :
    load C now (some file) = .ok (some d.loaded) := by
  obtain ⟨hwhole, l, ls, header, hls, hfit, hheader, hok, hrep⟩ := h
  obtain ⟨rest, hread⟩ := read_first_line hls hfit
  obtain ⟨health', hscan, hs⟩ := scan_header_line C now hok l
  rw [load_of_header C hread hheader, hls, hwhole, scan_lines, fold_lines,
    if_pos (show within v2_options.max_line_bytes l.length = true from decide_eq_true hfit)]
  simp only [hscan]
  rcases fold_change_lines C now ls hs with ⟨health'', d', hfold, hs', hrep'⟩ | ⟨_, _, -, -, hno⟩
  · obtain rfl := hrep.functional C hrep'
    simp only [hfold, scan_tail, if_true, hs'.clean]
    rfl
  · exact absurd hrep (hno d)

/-- A file without a newline can only be one of the old format. -/
theorem load_format_of_lines_nil
    (hls : lines file = []) (h : load C now (some file) = .ok (some loaded)) :
    loaded.format = 1 := by
  have hfile := join_split file
  rw [hls, flatten_nil, nil_append] at hfile
  have hno := newline_notMem_tail file
  rw [hfile] at hno
  have hscan := scan_jsonl_prefetched_eq v2_options (v2_decoder C now) file
  simp only [show v2_options.max_line_bytes = some MAX_LINE_BYTES from rfl] at hscan
  by_cases hempty : file = []
  · subst hempty
    simp only [load, show (read_jsonl_line (some MAX_LINE_BYTES) []).1 = .eof from rfl,
      C.decode_header_nil] at h
    exact load_snapshot_format C h
  by_cases hfit : within (some MAX_LINE_BYTES) file.length = true
  · have hread := read_jsonl_line_tail hno hempty hfit
    simp only [load, hread] at h hscan
    cases hheader : C.decode_header file with
    | none =>
      simp only [hheader] at h
      exact load_snapshot_format C h
    | some header =>
      -- a torn header is scanned, and the torn tail is an issue
      have htail : (scan_tail v2_options file (({} : LedgerHealth), header.pending)).1.first_issue
          ≠ none := by
        simp only [scan_tail, hempty, if_false, v2_options, hfit, if_true]
        exact some_ne_none _
      simp only [hheader] at h
      rw [show (⟨some header, [], 0, zero_sha256, 0⟩ : V2Decoder V) = header.pending from rfl,
        hscan header.pending, hls, scan_lines, fold_lines, hfile] at h
      simp only [isSome_iff_ne_none.mpr htail, if_true] at h
      cases h
  · simp only [load, read_long_tail hno hfit] at h
    cases h

theorem load_too_long (now : Instant)
    (hls : lines file = l :: ls) (hlong : MAX_LINE_BYTES < l.length) :
    load C now (some file) = .error invalid := by
  obtain ⟨body, rest, hbody, rfl, rfl⟩ := exists_first_line hls
  have hfit : ¬ within (some MAX_LINE_BYTES) (body.length + 1) = true := by
    simpa [within] using hlong
  simp only [load, read_long_line hbody rest hfit]

/-- **What loads as version 2 is accepted.** -/
theorem accepted_of_load
    (h : load C now (some file) = .ok (some loaded)) (hformat : loaded.format = 2) :
    ∃ d, Accepted C now file d ∧ loaded = d.loaded := by
  rcases hls : lines file with _ | ⟨l, ls⟩
  · have := load_format_of_lines_nil C hls h
    omega
  by_cases hfit : l.length ≤ MAX_LINE_BYTES
  · obtain ⟨rest, hread⟩ := read_first_line hls hfit
    cases hheader : C.decode_header l with
    | none =>
      simp only [load, hread, hheader] at h
      have := load_snapshot_format C h
      omega
    | some header =>
      rw [load_of_header C hread hheader, hls, scan_lines, fold_lines,
        if_pos (show within v2_options.max_line_bytes l.length = true from decide_eq_true hfit)] at h
      by_cases hok : HeaderOk C now header
      · obtain ⟨health', hscan, hs⟩ := scan_header_line C now hok l
        simp only [hscan] at h
        rcases fold_change_lines C now ls hs with
          ⟨health'', d', hfold, hs', hrep⟩ | ⟨health'', d', hfold, hissue, -⟩
        · simp only [hfold] at h
          by_cases hwhole : tail file = []
          · simp only [hwhole, scan_tail, if_true, hs'.clean] at h
            cases h
            exact ⟨d', ⟨hwhole, l, ls, header, hls, hfit, hheader, hok, hrep⟩, rfl⟩
          have htail : (scan_tail v2_options (tail file) (health'', d')).1.first_issue ≠ none := by
            simp only [scan_tail, hwhole, if_false]
            split <;> exact some_ne_none _
          simp only [isSome_iff_ne_none.mpr htail, if_true] at h
          cases h
        · simp only [hfold, isSome_iff_ne_none.mpr hissue, if_true] at h
          cases h
      · obtain ⟨health', d', hscan, hissue⟩ := scan_header_line_invalid C now hok l
        simp only [hscan, isSome_iff_ne_none.mpr hissue, if_true] at h
        cases h
  · rw [load_too_long C now hls (not_le.mp hfit)] at h
    cases h

/-! ## How `load` moves -/

theorem HeaderOk.mono (h : now ≤ later) (hok : HeaderOk C now header) : HeaderOk C later header :=
  ⟨hok.schema, hok.checksum, validate_mono C h hok.valid, hok.unique⟩

theorem Accepted.mono (h : now ≤ later) (ha : Accepted C now file d) : Accepted C later file d := by
  obtain ⟨hwhole, l, ls, header, hls, hfit, hheader, hok, hrep⟩ := ha
  exact ⟨hwhole, l, ls, header, hls, hfit, hheader, hok.mono C h, hrep⟩

/-- The record a change is written as. -/
def Change.record (change : Change V) : Record V := ⟨2, change, C.change_sha256 change⟩

theorem decode_record_record_line (change : Change V) :
    C.decode_record (record_line C change) = some (change.record C) :=
  C.decode_record_line _

theorem isLine_record_line (change : Change V) : IsLine (record_line C change) :=
  ⟨_, C.newline_notMem_record _, rfl⟩

theorem isLine_header_line (entries : List (DurableEntry V)) : IsLine (header_line C entries) :=
  ⟨_, C.newline_notMem_header _, rfl⟩

theorem split_header_line (entries : List (DurableEntry V)) :
    split (header_line C entries) = ([header_line C entries], []) :=
  split_line_append (C.newline_notMem_header _) []

theorem accepted_header_line (hvalid : validate C now entries = .ok ())
    (hunique : DistinctKeys entries) (hfit : (header_line C entries).length ≤ MAX_LINE_BYTES) :
    Accepted C now (header_line C entries) ⟨none, entries, 0, C.snapshot_sha256 entries, 0⟩ := by
  refine ⟨congrArg Prod.snd (split_header_line C entries), _, _,
    ⟨2, entries, C.snapshot_sha256 entries⟩, congrArg Prod.fst (split_header_line C entries), hfit, C.decode_header_line _, ⟨rfl, rfl, hvalid, hunique⟩, ?_⟩
  exact .nil _

theorem split_append_record (hwhole : tail file = []) (change : Change V) :
    lines (file ++ record_line C change) = lines file ++ [record_line C change] ∧
      tail (file ++ record_line C change) = [] := by
  have hsplit := split_append_line hwhole (C.newline_notMem_record (change.record C))
  exact ⟨congrArg Prod.fst hsplit, congrArg Prod.snd hsplit⟩

/-- **Appending a record.** The next change takes an accepted file to an accepted file. -/
theorem Accepted.append_record (ha : Accepted C now file d)
    (hfit : (record_line C change).length ≤ MAX_LINE_BYTES)
    (hadm : Admits C d (change.record C) (record_line C change).length) :
    Accepted C now (file ++ record_line C change)
      (d.after (change.record C) (record_line C change).length) := by
  obtain ⟨hwhole, l, ls, header, hls, hlfit, hheader, hok, hrep⟩ := ha
  obtain ⟨hlines, htail⟩ := split_append_record C hwhole change
  rw [hls] at hlines
  refine ⟨htail, l, ls ++ [record_line C change], header, hlines, hlfit, hheader, hok, ?_⟩
  exact hrep.append C (.cons hfit ⟨decode_record_record_line C change, hadm⟩ (.nil _))

/-- A file of whole lines that starts with a header, whether it loads or not. -/
def Headed (file : Bytes) : Prop :=
  tail file = [] ∧ ∃ l ls header, lines file = l :: ls ∧ C.decode_header l = some header

theorem Accepted.headed (h : Accepted C now file d) : Headed C file := by
  obtain ⟨hwhole, l, ls, header, hls, -, hheader, -, -⟩ := h
  exact ⟨hwhole, l, ls, header, hls, hheader⟩

theorem headed_header_line (entries : List (DurableEntry V)) : Headed C (header_line C entries) :=
  ⟨congrArg Prod.snd (split_header_line C entries), _, _, _,
    congrArg Prod.fst (split_header_line C entries), C.decode_header_line _⟩

theorem Headed.append_record (h : Headed C file) (change : Change V) :
    Headed C (file ++ record_line C change) := by
  obtain ⟨hwhole, l, ls, header, hls, hheader⟩ := h
  obtain ⟨hlines, htail⟩ := split_append_record C hwhole change
  rw [hls] at hlines
  exact ⟨htail, l, ls ++ [record_line C change], header, hlines, hheader⟩

variable {loaded : Option (Loaded V)}

/-- A file with a header that loads is accepted, line by line. -/
theorem accepted_of_load_headed (hls : lines file = l :: ls)
    (hheader : C.decode_header l = some header)
    (h : load C now (some file) = .ok loaded) : ∃ d, Accepted C now file d ∧ loaded = d.loaded := by
  by_cases hfit : l.length ≤ MAX_LINE_BYTES
  · obtain ⟨rest, hread⟩ := read_first_line hls hfit
    have hload := h
    rw [load_of_header C hread hheader] at h
    split at h
    · cases h
    split at h
    · cases h
    cases h
    exact accepted_of_load C hload rfl |>.imp fun d hd => ⟨hd.1, congrArg some hd.2⟩
  · rw [load_too_long C now hls (not_le.mp hfit)] at h
    cases h

/-- What follows the header of an accepted file is replayed from its entries. -/
theorem Accepted.replays (h : Accepted C now file d) (hls : lines file = header_line C entries :: ls) :
    Replays C ⟨none, entries, 0, C.snapshot_sha256 entries, 0⟩ ls d := by
  obtain ⟨-, l, ls', header, hls', -, hheader, -, hrep⟩ := h
  rw [hls] at hls'
  obtain ⟨rfl, rfl⟩ := cons.inj hls'
  obtain rfl := some.inj ((C.decode_header_line _).symm.trans hheader)
  exact hrep

theorem load_header_line (h : load C now (some (header_line C entries)) = .ok loaded) :
    ∃ l, loaded = some l ∧ l.entries = entries := by
  have hls : lines (header_line C entries) = [header_line C entries] :=
    congrArg Prod.fst (split_header_line C entries)
  obtain ⟨d, ha, rfl⟩ := accepted_of_load_headed C hls (C.decode_header_line _) h
  cases ha.replays C hls
  exact ⟨_, rfl, rfl⟩

/-- **A ledger cut inside a line is refused**, whatever the time of the load. -/
theorem Headed.load_torn {t : Bytes} (hf : Headed C file) (hne : t ≠ []) (hno : newline ∉ t)
    (now : Instant) (loaded : Option (Loaded V)) : load C now (some (file ++ t)) ≠ .ok loaded := by
  intro h
  obtain ⟨hwhole, l, ls, header, hls, hheader⟩ := hf
  have hsplit := split_append_torn file hno
  obtain ⟨d, ha, -⟩ := accepted_of_load_headed C (by rw [lines, hsplit]; exact hls) hheader h
  have hwhole' := ha.whole
  rw [tail, hsplit, hwhole] at hwhole'
  exact hne (by simpa using hwhole')

/-- A file that loads with one more change loads without it, and admits the change. -/
theorem Headed.load_append_record (hf : Headed C file)
    (h : load C now (some (file ++ record_line C change)) = .ok loaded) :
    ∃ d, Accepted C now file d ∧ Admits C d (change.record C) (record_line C change).length ∧
      loaded = (d.after (change.record C) (record_line C change).length).loaded := by
  obtain ⟨hwhole, l, ls, header, hls, hheader⟩ := hf
  have hls' := (split_append_record C hwhole change).1
  rw [hls, cons_append] at hls'
  obtain ⟨d', ⟨-, l', ls', header', hl', hfit, hheader', hok, hrep⟩, rfl⟩ :=
    accepted_of_load_headed C hls' hheader h
  rw [hls'] at hl'
  obtain ⟨rfl, rfl⟩ := cons.inj hl'
  obtain ⟨d, hrep₁, hrep₂⟩ := hrep.of_append C
  cases hrep₂ with
  | cons _ hadm hnil =>
    cases hnil
    obtain rfl := some.inj (hadm.1.symm.trans (decode_record_record_line C change))
    exact ⟨d, ⟨hwhole, l, ls, header', hls, hfit, hheader', hok, hrep₁⟩, hadm.2, rfl⟩

/-! ## What writing leaves -/

/-- **`Journal::checkpoint`, case by case**: the file is untouched, replaced for good, or replaced
with the old one still able to come back. -/
theorem Journal.checkpoint_cases (j : Journal) (disk : Disk) (entries : List (DurableEntry V))
    (fault : Fault) :
    let result := j.checkpoint C disk entries fault
    (∃ e, fault ≠ .none ∧ result = (.error e, j, disk)) ∨
    (∃ e, fault ≠ .none ∧ result = (.error e, j, ⟨some (header_line C entries), disk.images⟩)) ∨
    (∃ e, fault ≠ .none ∧ result = (.error e, j, ⟨some (header_line C entries), []⟩)) ∨
    result = (.ok (), ⟨true, 2, 0, C.snapshot_sha256 entries, 0⟩,
      ⟨some (header_line C entries), []⟩) := by
  cases fault with
  | none => exact .inr (.inr (.inr rfl))
  | write written => exact .inl ⟨_, by simp, rfl⟩
  | sync => exact .inr (.inl ⟨_, by simp, rfl⟩)
  | reopen => exact .inr (.inr (.inl ⟨_, by simp, rfl⟩))

theorem Journal.format_of_no_checkpoint {j : Journal} (h : j.needs_checkpoint = false) :
    j.format = 2 := by
  unfold needs_checkpoint at h
  simp only [Bool.or_eq_false_iff, decide_eq_false_iff_not, not_not] at h
  exact h.1.1

/-- The change a journal would append. -/
def Journal.next_change (j : Journal) (updates : List (DurableEntry V)) (removes : List Key) :
    Change V := ⟨j.sequence + 1, j.sha256, updates, removes⟩

/-- **`Journal::append`, case by case**: nothing is written, some of the line is, or all of it. -/
theorem Journal.append_cases (j : Journal) (disk : Disk) (updates : List (DurableEntry V))
    (removes : List Key) (fault : Fault) :
    let line := record_line C (j.next_change updates removes)
    let result := j.append C disk updates removes fault
    (∃ e, result = (.error e, j, disk) ∧
      (u64_max ≤ j.sequence ∨ MAX_LINE_BYTES < line.length ∨ j.has_file = false)) ∨
    (∃ e written, fault ≠ .none ∧ j.has_file = true ∧
      result = (.error e, j, disk.append_unsynced line written)) ∨
    (j.has_file = true ∧ line.length ≤ MAX_LINE_BYTES ∧
      result = (.ok (), { j with
        sequence := j.sequence + 1
        sha256 := C.change_sha256 (j.next_change updates removes)
        appended_bytes := j.appended_bytes + line.length },
        ⟨some (disk.file.getD [] ++ line), []⟩)) := by
  simp only [append, next_change]
  cases hseq : checked_succ j.sequence with
  | none =>
    refine .inl ⟨_, rfl, .inl ?_⟩
    unfold checked_succ at hseq
    split at hseq
    · cases hseq
    · omega
  | some sequence =>
    obtain ⟨rfl, -⟩ := checked_succ_eq_some hseq
    simp only
    split
    · exact .inl ⟨_, rfl, .inr (.inl ‹_›)⟩
    rename_i hlen
    cases hfile : j.has_file with
    | false => exact .inl ⟨_, rfl, .inr (.inr rfl)⟩
    | true =>
      right
      simp only [Bool.not_true, Bool.false_eq_true, if_false]
      cases fault with
      | none | reopen => exact .inr ⟨trivial, not_lt.mp hlen, rfl⟩
      | write written => exact .inl ⟨_, written, by simp, trivial, rfl⟩
      | sync => exact .inl ⟨_, _, by simp, trivial, rfl⟩

/-- The images of a file that a line was being appended to: the ones from before, and the file
with some of the line. -/
theorem Disk.mem_images_append_unsynced {disk : Disk} {line : Bytes} {written : ℕ}
    {image : Option Bytes} (h : image ∈ (disk.append_unsynced line written).images) :
    image ∈ disk.older ∨ ∃ k, image = some (disk.file.getD [] ++ line.take k) := by
  rcases mem_cons.mp h with rfl | h
  · exact .inr ⟨written, rfl⟩
  · rcases mem_append.mp h with h | h
    · exact .inl h
    · obtain ⟨k, -, rfl⟩ := mem_map.mp h
      exact .inr ⟨k, rfl⟩

end BobbyBrowser.Ledger
