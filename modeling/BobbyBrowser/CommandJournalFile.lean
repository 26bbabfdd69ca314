/-
What the command journal makes of a file that its own appends have written.

Such a file is the text of records in increasing order, with at most the
beginning of one more line behind it. Opening it indexes exactly those records,
reading through the index gives them back, and a torn line is always noticed.
An archive keeps every command of its records reserved.
-/
import BobbyBrowser.CommandJournal

set_option autoImplicit false

namespace BobbyBrowser.CommandJournal

open List hiding tail
open Lines Jsonl Outcomes

/-! ## The index -/

namespace Index

variable {ρ : Type} {index : Index ρ} {id other : CommandId} {r : ρ}

theorem contains_key_push :
    (index.push id r).contains_key other = true ↔ index.contains_key other = true ∨ id = other := by
  simp [contains_key, push]

end Index

section

variable {X : Type} (C : Codec X)

/-! ## Text in order -/

variable (rs : List (JournalRecord X))

/-- The text of records, line by line. -/
def Codec.text : Bytes := (rs.map C.line).flatten

theorem text_append (r : JournalRecord X) : C.text (rs ++ [r]) = C.text rs ++ C.line r := by
  simp [Codec.text]

theorem isLine_lines : ∀ l ∈ rs.map C.line, IsLine l :=
  forall_mem_map.mpr fun r _ => ⟨C.record_bytes r, C.newline_notMem_record r, rfl⟩

/-- Records as appends leave them: in increasing order, below the last sequence number, and within
the bound. -/
structure Ordered (max_record_bytes : ℕ) (rs : List (JournalRecord X)) : Prop where
  increasing : rs.Pairwise fun a b => a.sequence < b.sequence
  bounded : ∀ r ∈ rs, r.sequence < u64_max
  fits : ∀ r ∈ rs, (C.line r).length ≤ max_record_bytes

variable {C} {max_record_bytes : ℕ}

theorem Ordered.nil : Ordered C max_record_bytes [] := ⟨.nil, forall_mem_nil _, forall_mem_nil _⟩

variable {r : JournalRecord X} {rs}

theorem Ordered.tail (h : Ordered C max_record_bytes (r :: rs)) : Ordered C max_record_bytes rs :=
  ⟨h.increasing.of_cons, fun a ha => h.bounded a (mem_cons_of_mem _ ha),
    fun a ha => h.fits a (mem_cons_of_mem _ ha)⟩

/-- A record above all others that fits in a line goes at the end of an ordered file. -/
theorem Ordered.append (h : Ordered C max_record_bytes rs)
    (habove : ∀ a ∈ rs, a.sequence < r.sequence)
    (hbound : r.sequence < u64_max) (hfit : (C.line r).length ≤ max_record_bytes) :
    Ordered C max_record_bytes (rs ++ [r]) := by
  refine ⟨pairwise_append.mpr ⟨h.increasing, pairwise_singleton _ _, ?_⟩, ?_, ?_⟩
  · intro a ha b hb
    rw [mem_singleton.mp hb]
    exact habove a ha
  · exact forall_mem_append.mpr ⟨h.bounded, forall_mem_singleton.mpr hbound⟩
  · exact forall_mem_append.mpr ⟨h.fits, forall_mem_singleton.mpr hfit⟩

variable {t : Bytes}

theorem split_text_append (rs : List (JournalRecord X)) (ht : newline ∉ t) :
    split (C.text rs ++ t) = (rs.map C.line, t) := by
  have hlast := split_of_notMem ht
  rw [Codec.text, split_flatten (isLine_lines C rs), show lines t = [] from congrArg Prod.fst hlast,
    show tail t = t from congrArg Prod.snd hlast, append_nil]

variable (C)

/-! ## Opening -/

/-- The index of records whose text starts at `offset`. -/
def index_from : ℕ → List (JournalRecord X) → Index IndexedRecord
  | _, [] => []
  | offset, r :: rs =>
    (r.command_id, .new C offset (C.line r)) :: index_from (offset + (C.line r).length) rs

theorem index_from_append (offset : ℕ) (rs : List (JournalRecord X)) (r : JournalRecord X) :
    index_from C offset (rs ++ [r])
      = (index_from C offset rs).push r.command_id
          (.new C (offset + (C.text rs).length) (C.line r)) := by
  induction rs generalizing offset with
  | nil => rfl
  | cons a rs ih =>
    rw [cons_append, index_from, index_from, ih]
    simp only [Index.push, cons_append, Codec.text, map_cons, flatten_cons,
      length_append, Nat.add_assoc]

/-- The index has an entry for exactly the commands that have a record. -/
theorem contains_key_index_from {offset : ℕ} {id : CommandId} :
    (index_from C offset rs).contains_key id = true ↔ ∃ r ∈ rs, r.command_id = id := by
  induction rs generalizing offset with
  | nil => simp [index_from, Index.contains_key]
  | cons a rs ih =>
    have hcons : (index_from C offset (a :: rs)).contains_key id = true ↔ a.command_id = id
          ∨ (index_from C (offset + (C.line a).length) rs).contains_key id = true := by
      simp [index_from, Index.contains_key]
    rw [hcons, ih]
    simp

theorem line_not_blank (r : JournalRecord X) : (C.line r).all is_ascii_whitespace = false := by
  rw [Codec.line, all_append, C.record_not_blank, Bool.false_and]

theorem accepts_line (hr : r.sequence ≤ u64_max) (index : Index IndexedRecord) (offset number : ℕ) :
    Accepts (command_decoder C) index ⟨offset, number, C.line r⟩ r.sequence
      (index.push r.command_id (.new C offset (C.line r))) := by
  refine ⟨some r, index, ?_, rfl⟩
  simp only [command_decoder, line_not_blank, Bool.false_eq_true, if_false]
  rw [Codec.line, C.decode_record_line r hr]

variable {health : LedgerHealth}

/-- **The scan over records in order** accepts and indexes each of them. -/
theorem fold_records (hrs : Ordered C max_record_bytes rs) (index : Index IndexedRecord)
    (hi : health.Intact) (hbelow : ∀ r ∈ rs, health.Below r.sequence) :
    ∃ health' : LedgerHealth,
      fold_lines (scan_options max_record_bytes) (command_decoder C) (rs.map C.line)
        (health, index)
        = .ok ((health', index ++ index_from C health.bytes_observed rs), .continue) ∧
      health'.Intact ∧
      health'.max_observed_sequence
        = (rs.getLast?.map JournalRecord.sequence).or health.max_observed_sequence := by
  induction rs generalizing health index with
  | nil => exact ⟨health, by simp [fold_lines, index_from], hi, rfl⟩
  | cons r rs ih =>
    have hr : r.sequence ≤ u64_max := (hrs.bounded r mem_cons_self).le
    have hfit : within (scan_options max_record_bytes).max_line_bytes (C.line r).length = true :=
      decide_eq_true (hrs.fits r mem_cons_self)
    have hrule : (scan_options max_record_bytes).sequence_rule = .increasing := rfl
    obtain ⟨next, hscan, hnext, hmax, hbytes⟩ := scan_line_accepts (s := (health, index)) hrule
      (accepts_line C hr index health.bytes_observed (health.complete_lines + 1))
      (hbelow r mem_cons_self) hi
    -- the rest is above `r`, which is now the largest number seen
    have hrest : ∀ a ∈ rs, next.Below a.sequence := by
      intro a ha previous hp
      rw [hmax, Option.mem_some_iff] at hp
      rw [← hp]
      exact rel_of_pairwise_cons hrs.increasing ha
    obtain ⟨final, hfold, hfinal, hlast⟩ :=
      ih hrs.tail (index.push r.command_id (.new C health.bytes_observed (C.line r))) hnext hrest
    refine ⟨final, ?_, hfinal, ?_⟩
    · rw [map_cons, fold_lines, if_pos hfit, hscan]
      simp only
      rw [hfold, hbytes, Index.push, index_from, append_assoc, singleton_append]
    rw [hlast, hmax]
    cases rs with
    | nil => rfl
    | cons a rs =>
      rw [getLast?_cons_cons, getLast?_eq_some_getLast (cons_ne_nil a rs)]
      rfl

variable {C}

theorem scan_of_intact (hi : health.Intact) (offsets : Index IndexedRecord) :
    scan_of health offsets = ⟨false, 0, health.max_observed_sequence, offsets⟩ := by
  simp only [scan_of, hi.torn_tail, hi.incompatible_records, hi.oversized_line, lt_irrefl,
    decide_false]

/-- A scan of a file that is not intact reports damage, in one of its two counts. -/
theorem scan_of_damaged (hi : ¬ health.Intact)
    (offsets : Index IndexedRecord) : (scan_of health offsets).damaged = true := by
  rw [Scan.damaged]
  by_cases htorn : health.issue_count .torn_tail = 0
  · by_cases hbad : health.incompatible_records + health.issue_count .oversized_line = 0
    · obtain ⟨hbad, hlong⟩ := Nat.add_eq_zero_iff.mp hbad
      exact absurd ⟨hbad, htorn, hlong⟩ hi
    · have h : decide (0 < (scan_of health offsets).incompatible_records) = true :=
        decide_eq_true (Nat.pos_of_ne_zero hbad)
      rw [h, Bool.or_true, Bool.true_or]
  · have h : (scan_of health offsets).torn_tail = true :=
      decide_eq_true (Nat.pos_of_ne_zero htorn)
    rw [h, Bool.true_or, Bool.true_or]

section

variable (hrs : Ordered C max_record_bytes rs)

include hrs

/-- **The scan of a file** of whole records and a rest without a newline: it indexes the records,
and what it says of the rest is up to the tail. -/
theorem scan_file_eq (ht : newline ∉ t) :
    ∃ health : LedgerHealth, health.Intact ∧
      health.max_observed_sequence = rs.getLast?.map JournalRecord.sequence ∧
      scan_file C max_record_bytes (C.text rs ++ t)
        = .ok (scan_of
            (scan_tail (scan_options max_record_bytes) t (health, index_from C 0 rs)).1
            (scan_tail (scan_options max_record_bytes) t (health, index_from C 0 rs)).2) := by
  obtain ⟨health, hfold, hi, hmax⟩ := fold_records C hrs [] LedgerHealth.Intact.empty
    (fun r _ => nofun)
  have hsplit := split_text_append (C := C) rs ht
  have hlines : lines (C.text rs ++ t) = rs.map C.line := congrArg Prod.fst hsplit
  have htail : tail (C.text rs ++ t) = t := congrArg Prod.snd hsplit
  refine ⟨health, hi, by rw [hmax, Option.or_none], ?_⟩
  rw [scan_file, scan_jsonl_eq, hlines, htail, scan_lines, hfold]
  rfl

/-- **A file in order scans clean**, and its index is that of its records. -/
theorem scan_file_text :
    ∃ scan, scan_file C max_record_bytes (C.text rs) = .ok scan ∧ scan.damaged = false ∧
      scan.max_sequence = rs.getLast?.map JournalRecord.sequence ∧
      scan.offsets = index_from C 0 rs := by
  obtain ⟨health, hi, hmax, hscan⟩ := scan_file_eq hrs (t := []) not_mem_nil
  rw [append_nil] at hscan
  refine ⟨_, hscan, ?_, hmax, rfl⟩
  -- the last number is below the one that ends the journal
  have hlast : rs.getLast?.map JournalRecord.sequence ≠ some u64_max := by
    intro h
    obtain ⟨r, hr, hseq⟩ := Option.map_eq_some_iff.mp h
    have := hrs.bounded r (mem_of_getLast? hr)
    omega
  simp only [scan_tail, if_true]
  rw [scan_of_intact hi, hmax]
  simp [Scan.damaged, hlast]

/-- **A torn line is always noticed.** -/
theorem scan_file_torn (ht : newline ∉ t) (hne : t ≠ []) :
    ∃ scan, scan_file C max_record_bytes (C.text rs ++ t) = .ok scan ∧ scan.damaged = true := by
  obtain ⟨health, -, -, hscan⟩ := scan_file_eq hrs ht
  exact ⟨_, hscan, scan_of_damaged (scan_tail_not_intact hne _) _⟩

end

/-! ## Reading through the index -/

theorem read_exact_middle (pre line post : Bytes) :
    read_exact (pre ++ (line ++ post)) pre.length line.length = some line := by
  rw [read_exact, if_pos (by simp), drop_left, take_left]

/-- **The index reads back exactly the command's records.** -/
theorem read_indexed_records_text (id : CommandId)
    (hrs : ∀ r ∈ rs, r.sequence ≤ u64_max) (pre post : Bytes) :
    read_indexed_records C (pre ++ (C.text rs ++ post)) id
        ((index_from C pre.length rs).entries id)
      = some (rs.filter fun r => r.command_id = id) := by
  induction rs generalizing pre with
  | nil => rfl
  | cons r rs ih =>
    have htext : pre ++ (C.text (r :: rs) ++ post) = pre ++ (C.line r ++ (C.text rs ++ post)) := by
      simp [Codec.text]
    have hrest := ih (fun a ha => hrs a (mem_cons_of_mem _ ha)) (pre ++ C.line r)
    rw [append_assoc, length_append] at hrest
    by_cases hid : r.command_id = id
    · have hentries : (index_from C pre.length (r :: rs)).entries id
          = .new C pre.length (C.line r)
            :: (index_from C (pre.length + (C.line r).length) rs).entries id := by
        simp [index_from, Index.entries, hid]
      have hlast : (C.line r).getLast? = some newline := by simp [Codec.line]
      have hdecode : C.decode_record (C.line r) = some r :=
        C.decode_record_line r (hrs r mem_cons_self)
      rw [htext, hentries, read_indexed_records]
      simp only [IndexedRecord.new, read_exact_middle, hlast, hdecode, hid, ne_eq,
        not_true_eq_false, or_self, if_false]
      rw [hrest]
      simp [hid]
    · have hentries : (index_from C pre.length (r :: rs)).entries id
          = (index_from C (pre.length + (C.line r).length) rs).entries id := by
        simp [index_from, Index.entries, hid]
      rw [htext, hentries, hrest]
      simp [hid]

/-! ## Archives -/

variable (C)

/-- The command belongs to an archive. -/
def Reserved (max_record_bytes : ℕ) (archives : List Bytes) (id : CommandId) : Prop :=
  (scan_archives C max_record_bytes 0 archives {}).offsets.contains_key id = true

variable {C} {id : CommandId} (archive : ℕ)

/-- A line of an archive reserves commands and frees none. -/
theorem note_archived_contains_key (offset : ℕ) (line : Bytes) {acc : Archived}
    (h : acc.offsets.contains_key id) :
    (note_archived C archive offset line acc).offsets.contains_key id = true := by
  have hacc : (if line.getLast? = some newline then acc
      else { acc with torn_tail := true } : Archived).offsets.contains_key id = true := by
    split <;> exact h
  unfold note_archived
  simp only
  split
  · exact hacc
  split
  · exact Index.contains_key_push.mpr (.inl hacc)
  · split
    · exact Index.contains_key_push.mpr (.inl hacc)
    · exact hacc

theorem note_archived_line (offset : ℕ) (hr : r.sequence ≤ u64_max) (acc : Archived) :
    (note_archived C archive offset (C.line r) acc).offsets.contains_key r.command_id = true := by
  have hdecode : C.decode_record (C.line r) = some r := C.decode_record_line r hr
  simp only [note_archived, line_not_blank, hdecode, Bool.false_eq_true, if_false]
  exact Index.contains_key_push.mpr (.inr rfl)

/-- The scan of an archive frees no command that was reserved before it. -/
theorem scan_archive_contains_key (fuel : ℕ) :
    ∀ (offset : ℕ) (reader : Bytes) {acc : Archived}, acc.offsets.contains_key id = true →
      (scan_archive C max_record_bytes archive fuel offset reader acc).offsets.contains_key id
        = true := by
  induction fuel with
  | zero => exact fun _ _ _ h => h
  | succ fuel ih =>
    intro offset reader acc h
    rw [scan_archive]
    split
    · exact h
    · split
      · exact ih _ _ h
      · exact ih _ _ (note_archived_contains_key archive offset _ h)

/-- **Every command of an archived file stays reserved**, whatever is torn behind its records. -/
theorem scan_archive_text (hrs : Ordered C max_record_bytes rs) (t : Bytes) (hr : r ∈ rs) :
    ∀ (fuel offset : ℕ) (acc : Archived), rs.length ≤ fuel →
      (scan_archive C max_record_bytes archive fuel offset (C.text rs ++ t)
        acc).offsets.contains_key r.command_id = true := by
  induction rs with
  | nil => nomatch hr
  | cons a rs ih =>
    intro fuel offset acc hfuel
    obtain ⟨fuel, rfl⟩ : ∃ n, fuel = n + 1 := by
      rw [length_cons] at hfuel
      exact ⟨fuel - 1, by omega⟩
    have hbound : a.sequence ≤ u64_max := (hrs.bounded a mem_cons_self).le
    have hfit : (C.line a).length ≤ max_record_bytes := hrs.fits a mem_cons_self
    have hlen : (C.line a).length = (C.record_bytes a).length + 1 := by simp [Codec.line]
    have htext : C.text (a :: rs) ++ t
        = C.record_bytes a ++ newline :: (C.text rs ++ t) := by
      simp [Codec.text, Codec.line]
    -- the bounded read returns the line, and the reader then stands behind it
    have hread : read_until (limited (some max_record_bytes) (C.text (a :: rs) ++ t))
        = C.line a := by
      rw [htext, limited, take_append, take_of_length_le (by omega),
        show max_record_bytes + 1 - (C.record_bytes a).length
          = (max_record_bytes - (C.record_bytes a).length) + 1 by omega,
        take_succ_cons, read_until_line (C.newline_notMem_record a)]
      rfl
    have hdrop : (C.text (a :: rs) ++ t).drop (C.line a).length = C.text rs ++ t := by
      rw [show C.text (a :: rs) ++ t = C.line a ++ (C.text rs ++ t) by simp [Codec.text], drop_left]
    have hne : C.line a ≠ [] := by simp [Codec.line]
    rw [scan_archive]
    simp only [hread, hdrop, hne, if_false, not_lt.mpr hfit]
    rcases mem_cons.mp hr with rfl | hr
    · exact scan_archive_contains_key archive fuel _ _ (note_archived_line archive offset hbound acc)
    · exact ih hrs.tail hr fuel _ _ (by simpa using hfuel)

/-- The newest archive is scanned last, with the number that follows the others. -/
theorem scan_archives_append (archives : List Bytes) (bytes : Bytes) :
    ∀ (archive : ℕ) (acc : Archived),
      scan_archives C max_record_bytes archive (archives ++ [bytes]) acc
        = scan_archive C max_record_bytes (archive + archives.length) bytes.length 0 bytes
            (scan_archives C max_record_bytes archive archives acc) := by
  induction archives with
  | nil => exact fun _ _ => rfl
  | cons first rest ih =>
    intro archive acc
    rw [cons_append, scan_archives, ih, scan_archives, length_cons]
    congr 1
    omega

theorem Reserved.append {archives : List Bytes} (h : Reserved C max_record_bytes archives id)
    (bytes : Bytes) : Reserved C max_record_bytes (archives ++ [bytes]) id := by
  rw [Reserved, scan_archives_append]
  exact scan_archive_contains_key _ _ _ _ h

/-- A file that is archived reserves the command of every record in it, torn or not. -/
theorem reserved_of_mem (archives : List Bytes)
    (hrs : Ordered C max_record_bytes rs) (t : Bytes) (hr : r ∈ rs) :
    Reserved C max_record_bytes (archives ++ [C.text rs ++ t]) r.command_id := by
  have hlength : rs.length ≤ (C.text rs ++ t).length := by
    have h := length_lines_le (C.text rs)
    rw [Codec.text, lines_flatten (isLine_lines C rs), length_map] at h
    rw [length_append]
    exact h.trans (Nat.le_add_right _ _)
  rw [Reserved, scan_archives_append]
  exact scan_archive_text _ hrs t hr _ _ _ hlength

end

end BobbyBrowser.CommandJournal
