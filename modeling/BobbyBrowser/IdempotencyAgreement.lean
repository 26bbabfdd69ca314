/-
The ledger and the memory of the idempotency store.

While no write fails, the ledger the store writes is one it would load, and it
holds what was in memory at the last persist. The store does not write its
entries out: a checkpoint does, but in between it appends the dirty keys only,
and the reader checks each record against what it has read so far. So the two
have to be followed together: every key that is not dirty is in memory what the
ledger says (`Tracked.clean`), and a key that is dirty and gone from memory is
in the ledger, or the record that removes it would be refused
(`Tracked.removed`).

There is one gap. Restarting turns a reservation into an unresolved entry, and
so does an outcome the resolver does not know, without marking the key dirty:
the ledger goes on saying what it said before (`Mirrors`). So a run keeps on the
side how its processes opened the ledger (`Opening`).
-/
import BobbyBrowser.IdempotencyLedger

set_option autoImplicit false

namespace BobbyBrowser.Ledger

open Lines List

variable {now : Instant} {k : Key} {V : Type} (C : Codec V)

/-! ## Ledgers that load -/

/-- Entries that are valid at any time, and not too many. -/
structure Wellformed (entries : List (DurableEntry V)) : Prop where
  unique : DistinctKeys entries
  valid : ∀ d ∈ entries, EntryValid C d
  representable : ∀ d ∈ entries, d.Representable
  principal : ∀ p, principal_count p entries ≤ 256
  total : entries.length ≤ 4096

variable {C} {entries : List (DurableEntry V)}

theorem wellformed_nil : Wellformed C ([] : List (DurableEntry V)) :=
  ⟨nodup_nil, nofun, nofun, fun _ => Nat.zero_le _, Nat.zero_le _⟩

theorem Wellformed.validate (h : Wellformed C entries) (now : Instant) :
    validate C now entries = .ok () := by
  have hsub : (live now entries).Sublist entries := filter_sublist
  rw [validate_eq_ok]
  exact ⟨h.valid, h.unique.sublist hsub, fun p => hsub.countP_le.trans (h.principal p),
    hsub.length_le.trans h.total⟩

theorem value_length_le {d : DurableEntry V} (h : EntryValid C d) :
    value_length C.value_bytes d.state ≤ 64 * 1024 := by
  unfold EntryValid at h
  cases hs : d.state with
  | retained v =>
    rw [hs] at h
    exact h
  | reserved | unresolved => exact Nat.zero_le _

/-- A header of 4096 entries at most fits in a line: every part of an entry has a longest text. -/
theorem Wellformed.header_fits (h : Wellformed C entries) :
    (header_line C entries).length ≤ MAX_LINE_BYTES := by
  have hlen := C.header_length ⟨2, entries, C.snapshot_sha256 entries⟩ (show 2 < 2 ^ 16 by decide) h.representable
  have hsum : (entries.map fun d => 1024 + value_length C.value_bytes d.state).sum
      ≤ entries.length * (1024 + 64 * 1024) := by
    rw [← length_map]
    refine sum_le_card_nsmul _ _ fun n hn => ?_
    obtain ⟨d, hd, rfl⟩ := mem_map.mp hn
    exact Nat.add_le_add_left (value_length_le (h.valid d hd)) _
  have htotal := h.total
  rw [header_line, length_append, length_singleton, MAX_LINE_BYTES]
  simp only at hlen
  omega

variable (C)

/-- The journal that goes on behind a decoder. -/
def V2Decoder.journal (d : V2Decoder V) : Journal :=
  ⟨true, 2, d.sequence, d.sha256, d.appended_bytes⟩

/-- A file, the entries it holds, and a journal that may go on with it. -/
inductive Holds : Option Bytes → List (DurableEntry V) → Journal → Prop
  | absent {journal : Journal} (hformat : journal.format ≠ 2) : Holds none [] journal
  | ledger {bytes : Bytes} {d : V2Decoder V} (base : List (DurableEntry V))
      (changes : List (Change V)) (haccepted : Accepted C 0 bytes d)
      (hlines : lines bytes = ledger_lines C base changes)
      (hvalid : ∀ change ∈ changes, ∀ e ∈ change.updates, EntryValid C e) :
      Holds (some bytes) d.entries d.journal

variable {C}

theorem Wellformed.holds (h : Wellformed C entries) :
    Holds C (some (header_line C entries)) entries
      ⟨true, 2, 0, C.snapshot_sha256 entries, 0⟩ :=
  Holds.ledger entries [] (accepted_header_line C (h.validate 0) h.unique h.header_fits)
    (congrArg Prod.fst (split_line_append (C.newline_notMem_header _) [])) nofun

/-- What a change has to meet to be read back. -/
structure ChangeOk (entries : List (DurableEntry V)) (change : Change V) : Prop where
  removes_nodup : change.removes.Nodup
  removes_present : ∀ k ∈ change.removes, k ∈ entries.map DurableEntry.identity
  updates_unique : DistinctKeys change.updates
  updates_disjoint : ∀ e ∈ change.updates, e.identity ∉ change.removes
  size : (change.apply entries).length ≤ 4096

/-- **Appending to a ledger.** A change that meets the reader's conditions, made while no checkpoint
is due, leaves a ledger that holds the changed entries. -/
theorem Holds.append {file : Option Bytes} {journal : Journal} (h : Holds C file entries journal)
    (hneeds : journal.needs_checkpoint = false) {updates : List (DurableEntry V)}
    {removes : List Key} (hok : ChangeOk entries (journal.next_change updates removes))
    (hvalid : ∀ e ∈ updates, EntryValid C e)
    (hfit : (record_line C (journal.next_change updates removes)).length ≤ MAX_LINE_BYTES) :
    Holds C (some (file.getD [] ++ record_line C (journal.next_change updates removes)))
      ((journal.next_change updates removes).apply entries)
      { journal with
        sequence := journal.sequence + 1
        sha256 := C.change_sha256 (journal.next_change updates removes)
        appended_bytes := journal.appended_bytes
          + (record_line C (journal.next_change updates removes)).length } := by
  simp only [Journal.needs_checkpoint, Bool.or_eq_false_iff, decide_eq_false_iff_not, not_le,
    not_not] at hneeds
  obtain ⟨⟨hformat, hrecords⟩, hbytes⟩ := hneeds
  cases h with
  | absent hno => exact absurd hformat hno
  | @ledger bytes d base changes haccepted hlines hchanges =>
    have hadm : Admits C d ((d.journal.next_change updates removes).record C)
        (record_line C (d.journal.next_change updates removes)).length :=
      { schema := rfl
        chained := rfl
        checksum := rfl
        removes_nodup := hok.removes_nodup
        removes_present := hok.removes_present
        updates_unique := hok.updates_unique
        updates_disjoint := hok.updates_disjoint
        size := hok.size
        records := hrecords
        bytes := Nat.add_le_add (Nat.le_of_lt hbytes) hfit
        next := rfl }
    have hsplit := split_append_line haccepted.whole
      (C.newline_notMem_record ((d.journal.next_change updates removes).record C))
    refine Holds.ledger base (changes ++ [d.journal.next_change updates removes])
      (haccepted.append_record C hfit hadm) ?_ ?_
    · rw [record_line, ← Change.record, lines, hsplit, hlines, ledger_lines, ledger_lines,
        map_append]
      rfl
    exact forall_mem_append.mpr ⟨hchanges, forall_mem_singleton.mpr hvalid⟩

/-- In a ledger that replays, every change applies to the entries that those before it left, and
there is room for it. -/
theorem Replays.change_ok {d d' : V2Decoder V} {changes : List (Change V)}
    (h : Replays C d (changes.map (record_line C)) d') (n : ℕ) {change : Change V}
    (hn : changes[n]? = some change) :
    ChangeOk (recorded d.entries (changes.take n)) change ∧ d.sequence + n < COMPACT_RECORDS := by
  induction changes generalizing d n with
  | nil => simp at hn
  | cons c cs ih =>
    cases h with
    | cons hfit hadm hrest =>
      obtain rfl := Option.some.inj (hadm.1.symm.trans (decode_record_record_line C c))
      cases n with
      | zero =>
        obtain rfl : c = change := by simpa using hn
        have hok := hadm.2
        exact ⟨⟨hok.removes_nodup, hok.removes_present, hok.updates_unique, hok.updates_disjoint,
          hok.size⟩, hok.records⟩
      | succ n =>
        obtain ⟨hok, hlt⟩ := ih hrest n (by simpa using hn)
        have hnext : (d.after (c.record C) (record_line C c).length).sequence = d.sequence + 1 :=
          hadm.2.next
        refine ⟨hok, ?_⟩
        omega

end BobbyBrowser.Ledger

namespace BobbyBrowser.Idempotency

open Function
open Keyed hiding Unique
open Lines Ledger RetainedOutcome List Option
open Transition Outcomes

variable {journal : Journal} {now : Instant} {k : Key} {disk : Disk} {permit : Permit} {t : ℕ}

variable {O V : Type} [RetainedOutcome O V] (C : Codec V)

/-! ## What memory and ledger say of a key -/

/-- How a process opened the store: the resolver it was given, and the entries it found in the
ledger. -/
structure Opening (O V : Type) where
  resolve : V → Option O := fun _ => none
  found : List (DurableEntry V) := []

variable (opening : Opening O V)

/-- The ledger says what the entry is recorded as; or it still says what the process found, and the
entry still is what the resolver made of that. -/
def Mirrors (e : Entry O) (d : DurableEntry V) : Prop :=
  RecordedAs C e d ∨ (d ∈ opening.found ∧ e = restore_entry opening.resolve d)

/-- What the ledger says under a key. -/
abbrev filed (k : Key) (F : List (DurableEntry V)) : Option (DurableEntry V) :=
  get DurableEntry.identity k F

/-- The ledger mirrors the entries, key by key. -/
abbrev Reflects (entries : List (Entry O)) (F : List (DurableEntry V)) : Prop :=
  ∀ k, Option.Rel (Mirrors C opening) (find_entry k entries) (filed k F)

/-- An entry the types of the source can hold, with an expiry on an outcome only. -/
structure EntryOk (e : Entry O) : Prop where
  expires : e.expires_at ≠ none → ∃ outcome safety_relevant, e.state = .retained outcome safety_relevant
  instant : ∀ t ∈ e.expires_at, t ≤ max_instant
  last_used : e.last_used < 2 ^ 64
  generation : ∀ generation changed, e.state = .reserved generation changed → generation < 2 ^ 64

variable {C opening} {e : Entry O} {d : DurableEntry V}

/-- The record of an entry that is in order is valid, and can be written. -/
theorem EntryOk.recorded (h : EntryOk e)
    (hd : RecordedAs C e d) : EntryValid C d ∧ d.Representable := by
  have hfields := hd.fields
  refine ⟨?_, ?_⟩
  · unfold RecordedAs durable_entry at hd
    have hnone : (∀ outcome safety_relevant, e.state ≠ .retained outcome safety_relevant) →
        e.expires_at = none := by
      intro hno
      by_contra hsome
      obtain ⟨outcome, safety, hs⟩ := h.expires hsome
      exact hno outcome safety hs
    split at hd
    · rename_i hs
      cases hd
      exact hnone (by simp [hs])
    · rename_i hs
      cases hd
      exact hnone (by simp [hs])
    split at hd
    · cases hd
    split at hd
    · cases hd
    rename_i hlen
    cases hd
    exact not_lt.mp hlen
  · rw [hfields]
    exact ⟨h.instant, h.last_used⟩

variable {entries : List (Entry O)} {F : List (DurableEntry V)}

omit [RetainedOutcome O V] in
/-- Memory and ledger have the same keys, if they say something of the same ones. -/
theorem keys_perm {R : Entry O → DurableEntry V → Prop} (hu : UniqueKeys entries)
    (hF : DistinctKeys F) (h : ∀ k, Option.Rel R (find_entry k entries) (filed k F)) :
    (F.map DurableEntry.identity).Perm (entries.map Entry.identity) := by
  refine (perm_ext_iff_of_nodup hF hu).mpr fun k => ?_
  rw [← get_isSome_iff, ← get_isSome_iff]
  have hk : Rel R (get Entry.identity k entries)
    (get DurableEntry.identity k F) := h k
  generalize get Entry.identity k entries = a at hk ⊢
  generalize get DurableEntry.identity k F = b at hk ⊢
  cases hk <;> exact Iff.rfl

omit [RetainedOutcome O V] in
/-- The ledger is well formed when it has the keys of sound entries and each of its entries is. -/
theorem wellformed_of_keys {config : Config} (hdurable : config.durable) (hs : SoundEntries config entries)
    (hunique : DistinctKeys F)
    (hkeys : (F.map DurableEntry.identity).Perm (entries.map Entry.identity))
    (hvalid : ∀ d ∈ F, EntryValid C d ∧ d.Representable) : Wellformed C F := by
  obtain ⟨hprincipal, hglobal, -⟩ := config.durable_default hdurable
  refine ⟨hunique, fun d hd => (hvalid d hd).1, fun d hd => (hvalid d hd).2, fun p => ?_, ?_⟩
  · have hcount : principal_count p F
        = (F.map DurableEntry.identity).countP fun k => k.1 = p := by
      rw [principal_count, countP_map]
      refine countP_congr fun d _ => ?_
      rw [decide_eq_true_eq, comp_apply, decide_eq_true_eq]
      exact eq_comm
    rw [hcount, hkeys.countP_eq, ← hprincipal]
    exact hs.fits.principal p
  · rw [← length_map DurableEntry.identity, hkeys.length_eq, ← hglobal]
    exact hs.fits.total

/-! ## Following the dirty keys -/

variable (C opening)

/-- Memory against the ledger: a key that is not dirty is what the ledger says, and one that is
dirty and gone is in the ledger. -/
structure Tracked (F : List (DurableEntry V)) (state : StoreState O) : Prop where
  nodup : state.dirty.Nodup
  entries : ∀ e ∈ state.entries, EntryOk e
  clean : ∀ k, k ∉ state.dirty → Option.Rel (Mirrors C opening) (find_entry k state.entries) (filed k F)
  removed : ∀ k ∈ state.dirty, find_entry k state.entries = none → filed k F ≠ none

/-- The same between two sections, where what the ledger does not know is unresolved: it can be
neither evicted nor released before it has been persisted. -/
structure Ready (F : List (DurableEntry V)) (state : StoreState O) : Prop
    extends Tracked C opening F state where
  unfiled : ∀ k e, find_entry k state.entries = some e → filed k F = none → e.state = .unresolved

variable {C opening} {F : List (DurableEntry V)} {state old new : StoreState O}

theorem Ready.of_clean (hentries : ∀ e ∈ state.entries, EntryOk e) (hdirty : state.dirty = [])
    (h : Reflects C opening state.entries F) : Ready C opening F state where
  nodup := by rw [hdirty]; exact nodup_nil
  entries := hentries
  clean := fun k _ => h k
  removed := by rw [hdirty]; exact nofun
  unfiled := by
    intro k e hf hnone
    have hk := h k
    rw [hf, hnone] at hk
    cases hk

/-- Entries that are dropped from memory become dirty, and the ledger knows them: what it does not
know cannot be dropped. -/
theorem Ready.shrinks (h : Ready C opening F old)
    (hs : Shrinks (Droppable now) old new) (hu : UniqueKeys old.entries) : Ready C opening F new where
  nodup := hs.nodup h.nodup
  entries := fun e he => h.entries e (hs.sublist.subset he)
  clean := by
    intro k hk
    have hold := h.clean k fun hk' => hk (hs.dirty k hk')
    cases hf : find_entry k old.entries with
    | none => rw [hs.find_none hu hf]; rw [hf] at hold; exact hold
    | some e =>
      rcases hs.find_or_gone hu hf with hnew | ⟨-, hdirty, -⟩
      · rw [hnew]; rw [hf] at hold; exact hold
      · exact absurd hdirty hk
  removed := by
    intro k hk hnone hfile
    cases hf : find_entry k old.entries with
    | none =>
      rcases hs.marked k hk with hdirty | hkey
      · exact h.removed k hdirty hf hfile
      · exact get_eq_none_iff_notMem.mp hf hkey
    | some e =>
      -- an entry the ledger does not know is unresolved, and those are not dropped
      have hun := h.unfiled k e hf hfile
      rcases hs.find_or_gone hu hf with hnew | ⟨hgone, -, -⟩
      · rw [hnone] at hnew
        cases hnew
      rcases hgone with hexp | hevict
      · obtain ⟨t, ht, -⟩ : ∃ t, e.expires_at = some t ∧ t ≤ now := by
          unfold Entry.expired at hexp
          cases hx : e.expires_at with
          | none => rw [hx] at hexp; cases hexp
          | some t => rw [hx] at hexp; exact ⟨t, rfl, of_decide_eq_true hexp⟩
        obtain ⟨outcome, safety, hret⟩ :=
          (h.entries e (mem_of_get hf)).expires (by rw [ht]; exact some_ne_none t)
        rw [hun] at hret
        cases hret
      · rw [entry_is_evictable, hun] at hevict
        cases hevict
  unfiled := fun k e hf => h.unfiled k e (hs.find_of_find hu hf)

/-- A key is marked and nothing else moves; when it is gone then, the ledger has it. -/
theorem Tracked.marks (h : Tracked C opening F old)
    (hdirty : new.dirty = mark k old.dirty) (hentries : ∀ e ∈ new.entries, EntryOk e)
    (helsewhere : ∀ k', k' ≠ k → find_entry k' new.entries = find_entry k' old.entries)
    (hgone : find_entry k new.entries = none → filed k F ≠ none) : Tracked C opening F new where
  nodup := by rw [hdirty]; exact nodup_mark h.nodup
  entries := hentries
  clean := by
    intro k' hk
    rw [hdirty, mem_mark, not_or] at hk
    rw [helsewhere k' hk.1]
    exact h.clean k' hk.2
  removed := by
    intro k' hk hnone
    by_cases hne : k' = k
    · rw [hne] at hnone ⊢
      exact hgone hnone
    · rw [hdirty, mem_mark] at hk
      rw [helsewhere k' hne] at hnone
      exact h.removed k' (hk.resolve_left hne) hnone

theorem Tracked.puts (h : Tracked C opening F old)
    (hp : Puts old.entries new.entries e) (hu : UniqueKeys new.entries)
    (hdirty : new.dirty = mark e.identity old.dirty) (hok : EntryOk e) : Tracked C opening F new := by
  refine h.marks hdirty (fun e' he' => ?_) hp.elsewhere fun hnone => ?_
  · rcases hp.mem hu he' with rfl | hold
    · exact hok
    · exact h.entries e' hold
  · rw [hp.here] at hnone
    cases hnone

/-! ## Persisting -/

omit [RetainedOutcome O V] in
theorem rel_some {R : Entry O → DurableEntry V → Prop} {a : Option (Entry O)}
    (h : Option.Rel R a (some d)) : ∃ e, a = some e ∧ R e d := by
  cases h with
  | some h => exact ⟨_, rfl, h⟩

omit [RetainedOutcome O V] in
theorem rel_mono {R S : Entry O → DurableEntry V → Prop} (himp : ∀ e d, R e d → S e d)
    {a : Option (Entry O)} {b : Option (DurableEntry V)} (h : Option.Rel R a b) :
    Option.Rel S a b := by
  cases h with
  | none => exact .none
  | some h => exact .some (himp _ _ h)

/-- The entries of a sound store make a checkpoint that loads. -/
theorem wellformed_snapshot {config : Config} (hdurable : config.durable) (hs : SoundEntries config entries)
    (hok : ∀ e ∈ entries, EntryOk e) {ds : List (DurableEntry V)}
    (h : durable_entries C entries = .ok ds) : Wellformed C ds := by
  have hkeys := durable_entries_keys C h
  have hunique : DistinctKeys ds := by
    rw [DistinctKeys, Keyed.Unique, hkeys]
    exact hs.unique
  refine wellformed_of_keys hdurable hs hunique (by rw [hkeys]) fun d hd => ?_
  obtain ⟨e, he, hrec⟩ := durable_entries_mem C h hd
  exact (hok e he).recorded hrec

section

variable {config : Config} {state : StoreState O} {updates : List (DurableEntry V)}

variable (h : Tracked C opening F state)
  (hupdates : durable_entries C (dirty_entries state) = .ok updates) (journal : Journal)

include h hupdates

theorem Tracked.append_mirrors :
    Reflects C opening state.entries ((journal.next_change updates (dirty_removes state)).apply F) := by
  intro k
  have hget := next_change_get C (updates_unique C h.nodup hupdates) hupdates journal F k
  by_cases hk : k ∈ state.dirty
  · exact rel_mono (fun _ _ => .inl) (hget.1 hk)
  · rw [filed, hget.2 hk]
    exact h.clean k hk

variable (hdurable : config.durable) (hs : SoundEntries config state.entries)
  (hF : Wellformed C F)

include hdurable hs hF

/-- What the ledger holds after a change is valid and not too much. -/
theorem Tracked.append_wellformed :
    Wellformed C ((journal.next_change updates (dirty_removes state)).apply F) := by
  have hunique : Keyed.Unique DurableEntry.identity
      ((journal.next_change updates (dirty_removes state)).apply F) := Change.apply_unique hF.unique
  refine wellformed_of_keys hdurable hs hunique
    (keys_perm hs.unique hunique (h.append_mirrors hupdates journal)) fun d hd => ?_
  have hget := hunique.get_of_mem hd rfl
  have hcases := next_change_get C (updates_unique C h.nodup hupdates) hupdates journal F
    d.identity
  rw [hget] at hcases
  by_cases hk : d.identity ∈ state.dirty
  · obtain ⟨e, hf, hrec⟩ := rel_some (hcases.1 hk)
    exact (h.entries e (mem_of_get hf)).recorded hrec
  · have hmem := mem_of_get (hcases.2 hk).symm
    exact ⟨hF.valid d hmem, hF.representable d hmem⟩

/-- **What is appended is read back**: the removed keys are in the ledger, no key is repeated, and
there are not too many. -/
theorem Tracked.change_ok :
    ChangeOk F (journal.next_change updates (dirty_removes state)) where
  removes_nodup := h.nodup.filter _
  removes_present := by
    intro k hk
    obtain ⟨hdirty, hnone⟩ := mem_filter.mp hk
    rw [← get_isSome_iff, isSome_iff_ne_none]
    exact h.removed k hdirty (isNone_iff_eq_none.mp hnone)
  updates_unique := updates_unique C h.nodup hupdates
  updates_disjoint := by
    intro d hd hrem
    have hmem : d.identity ∈ (dirty_entries state).map Entry.identity := by
      rw [← durable_entries_keys C hupdates]
      exact mem_map_of_mem hd
    rw [← get_isSome_iff] at hmem
    have hfound := find_dirty_entries state d.identity
    rw [find_entry] at hfound
    rw [hfound, if_pos (mem_filter.mp hrem).1] at hmem
    rw [isNone_iff_eq_none.mp (mem_filter.mp hrem).2] at hmem
    cases hmem
  size := (h.append_wellformed hupdates journal hdurable hs hF).total

end

variable (C)

/-- The ledger on disk holds `F`, and nothing else can come back in a crash. -/
structure OnDisk (disk : Disk) (F : List (DurableEntry V)) (journal : Journal) : Prop where
  older : disk.older = []
  holds : Holds C disk.file F journal
  wellformed : Wellformed C F

variable {C}

/-- **Persisting without an I/O failure.** It succeeds and the ledger then mirrors memory, or it is
refused and nothing has changed but that the store may have latched. -/
theorem persist_agrees (store : Store O) (hdurable : store.config.durable)
    (hdisk : OnDisk C disk F store.journal) (hs : SoundEntries store.config store.state.entries)
    (h : Tracked C opening F store.state) :
    let result := persist_locked C store disk .none
    (∃ F', result.1 = .ok () ∧ OnDisk C result.2.2 F' result.2.1.journal ∧
      Ready C opening F' result.2.1.state ∧ Reflects C opening store.state.entries F') ∨
    (∃ e, result.1 = .error e ∧ result.2.1.state = store.state ∧
      result.2.1.journal = store.journal ∧ result.2.2 = disk) := by
  rcases persist_locked_cases C store disk .none with
    ⟨e, hr⟩ | ⟨-, hclean, hr⟩ | ⟨-, -, -, entries, hentries, hr⟩ |
    ⟨-, -, hneeds, updates, hupdates, hr⟩
  -- refused; nothing to write; a checkpoint; an append
  · simp only [hr]
    exact .inr ⟨e, rfl, trivial, trivial, trivial⟩
  · have hall : Reflects C opening store.state.entries F :=
      fun k => h.clean k (by rw [hclean hdurable]; exact not_mem_nil)
    simp only [hr]
    exact .inl ⟨F, trivial, hdisk, .of_clean h.entries rfl hall, hall⟩
  · rcases store.journal.checkpoint_cases C disk entries .none with
      ⟨e, hno, -⟩ | ⟨e, hno, -⟩ | ⟨e, hno, -⟩ | hc
    · exact absurd rfl hno
    · exact absurd rfl hno
    · exact absurd rfl hno
    · have hwf := wellformed_snapshot hdurable hs h.entries hentries
      have hall : Reflects C opening store.state.entries entries :=
        fun k => rel_mono (fun _ _ => .inl) (durable_entries_get C hentries k)
      simp only [hr, hc, Store.settle]
      exact .inl ⟨entries, trivial, ⟨rfl, hwf.holds, hwf⟩, .of_clean h.entries rfl hall, hall⟩
  rcases store.journal.append_cases C disk updates (dirty_removes store.state) .none with
    ⟨e, hc, -⟩ | ⟨e, written, hno, -⟩ | ⟨-, hfit, hc⟩
  · simp only [hr, hc, Store.settle]
    exact .inr ⟨e, rfl, trivial, trivial, trivial⟩
  · exact absurd rfl hno
  have hwf := h.append_wellformed hupdates store.journal hdurable hs hdisk.wellformed
  have hall := h.append_mirrors hupdates store.journal
  have hvalid : ∀ d ∈ updates, EntryValid C d := by
    intro d hd
    obtain ⟨e, he, hrec⟩ := durable_entries_mem C hupdates hd
    obtain ⟨k, -, hf⟩ := mem_filterMap.mp he
    exact ((h.entries e (mem_of_get hf)).recorded hrec).1
  simp only [hr, hc, Store.settle]
  exact .inl ⟨_, trivial, ⟨rfl, hdisk.holds.append hneeds
    (h.change_ok hupdates store.journal hdurable hs hdisk.wellformed) hvalid hfit, hwf⟩,
    .of_clean h.entries rfl hall, hall⟩

/-! ## The sections -/

theorem wrapping_succ_lt (n : ℕ) : wrapping_succ n < 2 ^ 64 := Nat.mod_lt _ (by decide)

theorem mark_of_mem {dirty : List Key} (h : k ∈ dirty) : mark k dirty = dirty := if_pos h

/-- Only the entry of one key may have changed, and it is unresolved where the ledger does not know
it. -/
theorem Ready.of_tracked (h : Ready C opening F old) (ht : Tracked C opening F new)
    (helsewhere : ∀ k', k' ≠ k → find_entry k' new.entries = find_entry k' old.entries)
    (hhere : ∀ e, find_entry k new.entries = some e → filed k F = none → e.state = .unresolved) :
    Ready C opening F new where
  toTracked := ht
  unfiled := by
    intro k' e hf hnone
    by_cases hne : k' = k
    · rw [hne] at hf hnone
      exact hhere e hf hnone
    · rw [helsewhere k' hne] at hf
      exact h.unfiled k' e hf hnone

theorem Ready.filed_reserved (h : Ready C opening F state)
    (hf : find_entry k state.entries = some e) (hr : e.state.channel.isSome) :
    filed k F ≠ none := by
  intro hnone
  rw [h.unfiled k e hf hnone] at hr
  cases hr

/-- An entry that becomes unresolved is dirty, and may stay unknown to the ledger. -/
theorem Ready.unresolve {old mid : StoreState O} {new : List (Entry O)} (h : Ready C opening F old)
    (hmid : Tracked C opening F mid) (hp : Puts mid.entries new e) (hu : UniqueKeys new)
    (hk : e.identity ∈ mid.dirty) (hstate : e.state = .unresolved) (hok : EntryOk e)
    (hsame : ∀ k, k ≠ e.identity → find_entry k mid.entries = find_entry k old.entries) :
    Ready C opening F { mid with entries := new } := by
  refine h.of_tracked (hmid.puts hp hu (mark_of_mem hk).symm hok)
    (fun k hne => (hp.elsewhere k hne).trans (hsame k hne)) fun e' hf _ => ?_
  rw [← some.inj (hp.here.symm.trans hf)]
  exact hstate

omit [RetainedOutcome O V] in
theorem entryOk_unresolved (hstate : e.state = .unresolved)
    (hexpires : e.expires_at = none) (hused : e.last_used < 2 ^ 64) : EntryOk e where
  expires := fun hne => absurd hexpires hne
  instant := by rw [hexpires]; exact nofun
  last_used := hused
  generation := by rw [hstate]; exact nofun

/-- A look drops what has expired and marks what it uses; neither gets ahead of the ledger. -/
theorem Ready.look (h : Ready C opening F state) (hu : UniqueKeys state.entries)
    (request : Request) (now : Instant) : Ready C opening F (look state request now).1 := by
  have hshrink := cleanup_expired_droppable state now
  have hclean := h.shrinks hshrink hu
  have hu' := hshrink.unique hu
  rcases look_cases state request now hu with
    ⟨-, hres⟩ | ⟨e, hfind, -, href, -, hdirty, -⟩ | ⟨e, hfind, -, -, href, -, hdirty, -⟩
  · rw [hres]
    exact ⟨⟨hclean.nodup, hclean.entries, hclean.clean, hclean.removed⟩, hclean.unfiled⟩
  · -- the entry goes back as it was
    have hk : e.identity = request.identity := key_of_get hfind
    have hsame : ∀ k, find_entry k (Idempotency.look state request now).1.entries
        = find_entry k (cleanup_expired state now).entries := by
      intro k
      by_cases hne : k = e.identity
      · rw [hne, href.here, hk, hfind]
      · exact href.elsewhere k hne
    have hentries : ∀ e' ∈ (Idempotency.look state request now).1.entries, EntryOk e' := by
      intro e' he'
      rcases href.mem (href.unique hu') he' with rfl | hold
      · exact hclean.entries e' (mem_of_get hfind)
      · exact hclean.entries e' hold
    refine ⟨⟨hdirty ▸ hclean.nodup, hentries, ?_, ?_⟩, ?_⟩
    · simpa only [hdirty, hsame] using hclean.clean
    · simpa only [hdirty, hsame] using hclean.removed
    · simpa only [hsame] using hclean.unfiled
  have hk : e.identity = request.identity := key_of_get hfind
  have hok := hclean.entries e (mem_of_get hfind)
  refine hclean.of_tracked (hclean.toTracked.puts href.toPuts (href.unique hu') ?_
    ⟨hok.expires, hok.instant, wrapping_succ_lt _, hok.generation⟩) href.elsewhere
    fun e' hf hnone => ?_
  · rw [hdirty, ← hk]
    rfl
  rw [← some.inj (href.here.symm.trans hf)]
  exact hclean.unfiled e.identity e (by rw [hk, hfind]) hnone

variable (C)

/-- Ledger and memory of an open store agree: the ledger mirrors what was in memory at the last
persist, for the process that made it, and the store knows where it stands. -/
def Agreed (current source : Opening O V) (store : Store O) (disk : Disk)
    (persisted : List (Entry O)) : Prop :=
  ∃ F journal, OnDisk C disk F journal ∧ Reflects C source persisted F ∧
    (store.writable = true → store.journal = journal ∧ Ready C current F store.state)

variable {C} {current source : Opening O V} {store : Store O} {persisted : List (Entry O)}

section

variable (h : Agreed C current source store disk persisted)

include h

theorem Agreed.on_disk : ∃ F journal, OnDisk C disk F journal ∧ Reflects C source persisted F := by
  obtain ⟨F, journal, hdisk, hmirror, -⟩ := h
  exact ⟨F, journal, hdisk, hmirror⟩

theorem Agreed.memory (hready : ∀ F, Ready C current F store.state → Ready C current F state) :
    Agreed C current source { store with state := state } disk persisted := by
  obtain ⟨F, journal, hdisk, hmirror, hopen⟩ := h
  exact ⟨F, journal, hdisk, hmirror, fun hw => ⟨(hopen hw).1, hready F (hopen hw).2⟩⟩

/-- **A section that persists.** `state` is what it persists; on a success the ledger mirrors that,
and on a failure the section leaves `failed` behind. -/
theorem Agreed.persists (hdurable : store.config.durable)
    (hs : SoundEntries store.config state.entries)
    (htracked : ∀ F, Ready C current F store.state → Tracked C current F state)
    {failed : List (Entry O) → List (Entry O)} (hfailed : store.writable = true → ∀ F,
      Ready C current F store.state → Ready C current F { state with entries := failed state.entries })
    {α : Type} {won lost : α} {p : α → Bool}
    (hwon : p won = true) (hlost : p lost = false) {result : α × Store O × Disk}
    (hp : Persists C store disk .none state won lost failed result) :
    Agreed C current (if p result.1 then current else source) result.2.1 result.2.2
      (if p result.1 then result.2.1.state.entries else persisted) := by
  obtain ⟨F, journal, hdisk, hmirror, hopen⟩ := h
  cases hw : store.writable with
  | false =>
    -- a store that is not writable refuses, and its memory does not count any more
    obtain ⟨e, hr⟩ := persist_locked_refused C { store with state := state } hw disk .none
    cases hp with
    | ok hp => cases hr.symm.trans hp
    | error hp =>
      cases hr.symm.trans hp
      rw [hlost]
      exact ⟨F, journal, hdisk, hmirror, fun hw' => absurd (hw.symm.trans hw') Bool.false_ne_true⟩
  | true =>
    obtain ⟨rfl, hready⟩ := hopen hw
    rcases persist_agrees { store with state := state } hdurable hdisk hs (htracked F hready) with
      ⟨F', hok, hdisk', hready', hmirror'⟩ | ⟨e, herr, hstate, hj, hd⟩
    · cases hp with
      | error hp =>
        rw [hp] at hok
        cases hok
      | ok hp =>
        have hspec := persist_locked_spec C { store with state := state } disk .none
        rw [hp] at hdisk' hready' hspec
        rw [hwon]
        refine ⟨F', _, hdisk', fun k => ?_, fun _ => ⟨rfl, hready'⟩⟩
        rw [if_pos rfl, show _ = state.entries from hspec.entries]
        exact hmirror' k
    · cases hp with
      | ok hp =>
        rw [hp] at herr
        cases herr
      | error hp =>
        rw [hp] at hstate hj hd
        rw [hlost, show _ = disk from hd]
        refine ⟨F, _, hdisk, hmirror, fun _ => ⟨hj, ?_⟩⟩
        rw [show _ = state from hstate]
        exact hfailed hw F hready

end

/-- **An acquisition without an I/O failure** leaves ledger and memory in agreement. -/
theorem Agreed.acquire (h : Agreed C current source store disk persisted) (hdurable : store.config.durable)
    (hs : SoundEntries store.config store.state.entries) (request : Request) (now : Instant)
    (channel : ChannelId) :
    let result := acquire C store disk request now channel .none
    Agreed C current (if result.1.persists then current else source) result.2.1 result.2.2
      (if result.1.persists then result.2.1.state.entries else persisted) := by
  have hclean := cleanup_expired_droppable store.state now
  have hspace := make_space_shrinks store request now
  rcases acquire_cases C store disk request now channel .none with
    ⟨-, hr⟩ | ⟨-, -, hr⟩ | ⟨-, -, -, hr⟩ | ⟨-, hnone, hp, ht, hpersists⟩
  · simp only [hr]
    exact h
  · simp only [hr]
    exact h.memory fun F hF => hF.shrinks hclean hs.unique
  · simp only [hr]
    exact h.memory fun F hF => hF.shrinks hspace hs.unique
  obtain ⟨hfiled, hsound⟩ := filed_state_keeps channel hs hnone hp ht
  have htracked : ∀ F, Ready C current F store.state →
      Tracked C current F (filed_state (make_space store request now) request channel) := fun F hF =>
    (hF.shrinks hspace hs.unique).toTracked.puts hfiled.toPuts hsound.unique rfl
      ⟨fun hne => absurd rfl hne, nofun, wrapping_succ_lt _,
        fun g ch hg => by cases hg; exact wrapping_succ_lt _⟩
  have hhere : find_entry request.identity
      (filed_state (make_space store request now) request channel).entries = some _ := hfiled.here
  have href := refiled_unresolve hhere
  have hfailed : ∀ F, Ready C current F store.state → Ready C current F
      { filed_state (make_space store request now) request channel with
        entries := modify_first (fun e => e.identity = request.identity) Entry.unresolve
          (filed_state (make_space store request now) request channel).entries } := fun F hF =>
    (hF.shrinks hspace hs.unique).unresolve (htracked F hF) href.toPuts
      (href.unique hsound.unique) (mem_mark.mpr (.inl rfl)) rfl
      (entryOk_unresolved rfl rfl (wrapping_succ_lt _)) fun k hk => hfiled.elsewhere k hk
  exact h.persists hdurable hsound htracked (fun _ => hfailed) rfl rfl hpersists

variable {entry : Entry O}

/-- **A finish without an I/O failure** leaves ledger and memory in agreement: the outcome is
persisted, or the entry is left unresolved. -/
theorem Agreed.finish_section (h : Agreed C current source store disk persisted) (hdurable : store.config.durable)
    (hs : SoundEntries store.config store.state.entries)
    (hfind : find_entry permit.identity store.state.entries = some entry)
    (hmatch : permit.matches entry) (outcome : O) (hnow : now + store.config.ttl ≤ max_instant) :
    let result := finish_section C store disk permit outcome now .none
    Agreed C current (if result.1.persists then current else source) result.2.1 result.2.2
      (if result.1.persists then result.2.1.state.entries else persisted) := by
  obtain ⟨hsound, helsewhere, -⟩ := finish_state_files outcome now hs hfind
  obtain ⟨changed, hchannel⟩ := isSome_iff_exists.mp (Permit.matches_channel hmatch)
  obtain ⟨-, -, changed', hreserved⟩ := Permit.matches_reserved hmatch
  have hk : entry.identity = permit.identity := key_of_get hfind
  have hdirty : (finish_state store permit entry outcome now).dirty
      = mark permit.identity store.state.dirty := by
    unfold finish_state
    split <;> rfl
  have htracked : ∀ F, Ready C current F store.state →
      Tracked C current F (finish_state store permit entry outcome now) := by
    intro F hF
    -- an outcome that gives the key free removes its entry, any other is retained
    cases hrel : releases_reservation outcome with
    | true =>
      obtain ⟨hun, -⟩ := finish_state_releases now hs.unique hfind hrel
      exact hF.marks hdirty (fun e he => hF.entries e (hun.mem hsound.unique he)) hun.elsewhere
        fun _ => hF.filed_reserved hfind (Permit.matches_channel hmatch)
    | false =>
      obtain ⟨href, hseq, -⟩ := finish_state_retains now hs.unique hfind hrel
      refine hF.toTracked.puts href.toPuts hsound.unique ?_ ⟨fun _ => ⟨_, _, rfl⟩, ?_, ?_, nofun⟩
      · rw [hdirty, ← hk]
        rfl
      · intro t ht
        simp only [Entry.retain, expiry] at ht
        split at ht
        · cases ht
        · cases ht
          exact hnow
      · simp only [Entry.retain, hseq]
        exact wrapping_succ_lt _
  have hmem : permit.identity ∈ (finish_state store permit entry outcome now).dirty := by
    rw [hdirty]
    exact mem_mark.mpr (.inl rfl)
  have hfailed : ∀ F, Ready C current F store.state → Ready C current F
      { finish_state store permit entry outcome now with
        entries := unresolve_or_push permit (finish_state store permit entry outcome now).entries } := by
    intro F hF
    -- when the write fails the key becomes unresolved, also if its entry is gone already
    rcases unresolve_or_push_cases permit (finish_state store permit entry outcome now).entries with
      ⟨e', hf, href⟩ | ⟨hnone, hpush⟩
    · have hk' : e'.identity = permit.identity := key_of_get hf
      have hused := ((htracked F hF).entries e' (mem_of_get hf)).last_used
      refine hF.unresolve (htracked F hF) href.toPuts (href.unique hsound.unique) ?_ rfl
        (entryOk_unresolved rfl rfl hused) fun k hne => helsewhere k ?_
      · exact hk' ▸ hmem
      · exact fun heq => hne (heq.trans hk'.symm)
    · have hgen : permit.generation < 2 ^ 64 :=
        (hF.entries entry (mem_of_get hfind)).generation _ _ hreserved
      exact hF.unresolve (htracked F hF) hpush.toPuts
        (hpush.unique hsound.unique hnone) hmem rfl (entryOk_unresolved rfl rfl hgen) helsewhere
  exact h.persists hdurable hsound htracked (fun _ => hfailed) rfl rfl
    (finish_section_matched C disk outcome now .none hfind hmatch hchannel)

/-- The first section of an abandon takes the entry out of memory and marks its key. -/
theorem Ready.abandon_entry (h : Ready C opening F state) (hu : UniqueKeys state.entries)
    (hfind : find_entry permit.identity state.entries = some entry)
    (hmatch : permit.matches entry) : Ready C opening F (abandon_entry state permit).1 := by
  obtain ⟨hun, -, hdirty, -⟩ := abandon_entry_matched hu hfind hmatch
  refine h.of_tracked (h.marks hdirty (fun e he => h.entries e (hun.mem (hun.unique hu) he))
    hun.elsewhere fun _ => h.filed_reserved hfind (Permit.matches_channel hmatch)) hun.elsewhere
    fun e hf => ?_
  rw [hun.here] at hf
  cases hf

/-- The second section persists the removal, or puts an unresolved entry back. -/
theorem Agreed.abandon_persist (h : Agreed C current source store disk persisted) (hdurable : store.config.durable)
    (hs : SoundEntries store.config store.state.entries)
    (hnone : find_entry permit.identity store.state.entries = none)
    (hreleasing : store.writable = true →
      permit.identity ∈ store.state.dirty ∧ permit.generation < 2 ^ 64) :
    let result := abandon_persist C store disk permit .none
    Agreed C current (if result.1 then current else source) result.2.1 result.2.2
      (if result.1 then result.2.1.state.entries else persisted) := by
  have hpush : Filed store.state.entries (store.state.entries ++ [permit.unresolved_entry])
      permit.unresolved_entry := filed_push hnone
  refine h.persists hdurable hs (fun F hF => hF.toTracked) (fun hw F hF => ?_) (p := id) rfl rfl
    (abandon_persist_persists C store disk permit .none)
  exact hF.unresolve hF.toTracked hpush.toPuts (hpush.unique hs.unique hnone) (hreleasing hw).1 rfl
    (entryOk_unresolved rfl rfl (hreleasing hw).2) fun _ _ => rfl

/-- A permit that is dropped leaves its entry unresolved. -/
theorem Ready.drop_entry (h : Ready C opening F store.state)
    (hdurable : store.config.durable) (hs : SoundEntries store.config store.state.entries)
    (hfind : find_entry permit.identity store.state.entries = some entry)
    (hmatch : permit.matches entry) : Ready C opening F (drop_entry store permit).1 := by
  rw [Idempotency.drop_entry, if_pos hdurable]
  obtain ⟨href, -, hdirty, -⟩ := unresolve_entry_matched hs.unique hfind hmatch
  have hk : entry.identity = permit.identity := key_of_get hfind
  have hmem := mem_of_get hfind
  have hok : EntryOk entry.unresolve := entryOk_unresolved rfl
    (hs.eternal entry hmem (Permit.matches_channel hmatch)) (h.entries entry hmem).last_used
  refine h.of_tracked (h.toTracked.puts href.toPuts (href.unique hs.unique) ?_ hok) href.elsewhere
    fun e hf _ => ?_
  · rw [hdirty, ← hk]
    rfl
  rw [← some.inj (href.here.symm.trans hf)]
  rfl

/-! ## Opening -/

theorem find_restore (resolve : V → Option O) (now : Instant) (hF : DistinctKeys F) (k : Key) :
    find_entry k (restore resolve now F).entries
      = ((filed k F).filter fun d => !d.expired now).map (restore_entry resolve) := by
  rw [find_entry, Keyed.get, restore, find?_map, filed, ← Keyed.get_filter hF]
  rfl

/-- What a resolver makes of a recorded entry is in order. -/
theorem entryOk_restore_entry (hrep : d.Representable)
    (resolve : V → Option O) : EntryOk (restore_entry resolve d) := by
  obtain ⟨principal_id, key, operation, sha, expires_at, last_used, state⟩ := d
  cases state with
  | reserved | unresolved => exact entryOk_unresolved rfl rfl hrep.2
  | retained v =>
    cases hr : resolve v with
    | none =>
      refine entryOk_unresolved ?_ ?_ hrep.2
      · simp only [restore_entry, hr]
      · simp only [restore_entry, hr]
    | some outcome =>
      refine ⟨fun _ => ⟨outcome, RetainedOutcome.safety_relevant outcome, ?_⟩, ?_, hrep.2, ?_⟩
      · simp only [restore_entry, hr]
      · intro t ht
        simp only [restore_entry, hr] at ht
        split at ht
        · exact hrep.1 t ht
        · cases ht
      · intro g ch hs
        simp only [restore_entry, hr] at hs
        cases hs

/-- **What a restart restores is followed**: what it dropped or changed for the ledger is dirty, and
everything else mirrors it. -/
theorem ready_restore (hF : Wellformed C F) (resolve : V → Option O) (now : Instant) :
    Ready C ⟨resolve, F⟩ F (restore resolve now F) where
  nodup := nodup_mark_all nodup_nil
  entries := by
    intro e he
    obtain ⟨d, hd, rfl⟩ := mem_map.mp he
    exact entryOk_restore_entry (hF.representable d (filter_sublist.subset hd)) resolve
  clean := by
    intro k hk
    rw [find_restore resolve now hF.unique]
    cases hf : filed k F with
    | none => exact .none
    | some d =>
      rw [filter_some]
      split
      · exact .some (.inr ⟨mem_of_get hf, rfl⟩)
      · rename_i hexp
        refine absurd (mem_mark_all.mpr (.inl ?_)) hk
        rw [← key_of_get hf]
        exact mem_map_of_mem (mem_filter.mpr ⟨mem_of_get hf, by simp_all⟩)
  removed := by
    intro k hk _
    rcases mem_mark_all.mp hk with hk | hk
    · have hkey := (filter_sublist.map _).subset hk
      rw [← get_isSome_iff, isSome_iff_ne_none] at hkey
      exact hkey
    · cases hk
  unfiled := by
    intro k e hf hnone
    rw [find_restore resolve now hF.unique, hnone] at hf
    cases hf

variable (C) in
/-- The opening of a process. -/
def opening_of (disk : Disk) (resolve : V → Option O) (loaded_at validated_at : Instant) :
    Opening O V where
  resolve := resolve
  found :=
    match (Ledger.open_journal C loaded_at validated_at disk).2 with
    | .ok entries => entries
    | .error _ => []

/-- A ledger that no failure has touched opens, with the entries it holds. -/
theorem OnDisk.open_journal (h : OnDisk C disk F journal) (loaded_at validated_at : Instant) :
    ∃ journal', Ledger.open_journal C loaded_at validated_at disk = (journal', .ok F) ∧
      OnDisk C disk F journal' := by
  obtain ⟨file, older⟩ := disk
  obtain ⟨holder, hholds, hwf⟩ := h
  unfold Ledger.open_journal
  cases hholds with
  | absent hformat => exact ⟨_, rfl, holder, .absent (by decide), hwf⟩
  | @ledger bytes d base changes haccepted hlines hvalid =>
    have hload := (haccepted.mono C (Nat.zero_le loaded_at)).load_eq
    have hv : validate C validated_at d.loaded.entries = .ok () := hwf.validate validated_at
    simp only [hload, hv]
    exact ⟨_, rfl, holder, .ledger base changes haccepted hlines hvalid, hwf⟩

/-- **Reopening the store.** The process that opens it starts in agreement: memory is what its
resolver makes of the entries in the ledger. -/
theorem OnDisk.open_durable (h : OnDisk C disk F journal) (hmirror : Reflects C source persisted F)
    (resolve : V → Option O) (loaded_at : Instant) {validated_at : Instant}
    (hnow : validated_at ≤ now) :
    let result := open_durable C disk resolve loaded_at validated_at now .none
    let persists := open_persists C disk resolve loaded_at validated_at now && result.1.writable
    let opened := opening_of C disk resolve loaded_at validated_at
    Agreed C opened (if persists then opened else source) result.1 result.2
      (if persists then result.1.state.entries else persisted) := by
  obtain ⟨journal', hopened, hdisk⟩ := h.open_journal loaded_at validated_at
  have hvalid : validate C validated_at F = .ok () := h.wellformed.validate validated_at
  have hfound : opening_of C disk resolve loaded_at validated_at = ⟨resolve, F⟩ := by
    rw [opening_of, hopened]
  have hagreed : Agreed C ⟨resolve, F⟩ source (restored_store resolve now journal' F) disk persisted :=
    ⟨F, journal', hdisk, hmirror, fun _ => ⟨rfl, ready_restore h.wellformed resolve now⟩⟩
  have hsound := restore_sound C hnow resolve hvalid
  have hpersist := fun {result} (hp : Persists C (restored_store resolve now journal' F) disk .none
      (restored_store resolve now journal' F).state true false id result) =>
    hagreed.persists rfl hsound (fun F hF => hF.toTracked) (fun _ F hF => hF) (p := id) rfl rfl hp
  have hpersists : open_persists C disk resolve loaded_at validated_at now
      = (live now F).any (loses_expiry resolve) := by
    rw [open_persists, hopened]
  have hcases := open_durable_cases C disk resolve loaded_at validated_at now .none
  simp only [hopened] at hcases
  rcases hcases with ⟨issue, hissue, -⟩ | ⟨entries, hentries, hcases⟩
  · cases hissue
  cases hentries
  simp only [hpersists, hfound]
  rcases hcases with
    ⟨hno, hr⟩ | ⟨hyes, ⟨u, store', disk', hp, hr⟩ | ⟨e, store', disk', hp, hr⟩⟩
  -- no entry loses its expiry, so the opening writes nothing
  · simp only [hr, hno, Bool.false_and]
    exact hagreed
  · have hspec := persist_locked_spec C (restored_store resolve now journal' F) disk .none
    rw [hp] at hspec
    simp only [hr, hyes, Bool.true_and, if_pos (hspec.ok u rfl).2.1]
    exact hpersist (.ok hp)
  · have hunwritable : { store' with
        integrity_issue := some IntegrityIssue.ledger_write_failed }.writable = false := rfl
    obtain ⟨F', journal'', hdisk', hmirror', -⟩ := hpersist (.error hp)
    simp only [hr, hyes, hunwritable, Bool.and_false]
    exact ⟨F', journal'', hdisk', hmirror', fun hw => absurd (hunwritable.symm.trans hw)
      Bool.false_ne_true⟩

/-! ## Every run -/

/-- A world, how its process opened the store, and how the one did that made the last persist. -/
structure Traced (O V : Type) where
  world : World O
  current : Opening O V := {}
  source : Opening O V := {}

variable (C)

/-- The action persists something, and the persist succeeds. -/
def World.persists (w : World O) : Action O V → Bool
  | .acquire task fault =>
    match w.tasks task with
    | .acquiring request now =>
      (Idempotency.acquire C w.store w.disk request now w.next_channel fault).1.persists
    | _ => false
  | .finish_section task fault =>
    match w.tasks task with
    | .finishing permit outcome now =>
      (Idempotency.finish_section C w.store w.disk permit outcome now fault).1.persists
    | _ => false
  | .abandon_persist task fault =>
    match w.tasks task with
    | .releasing permit _ => (Idempotency.abandon_persist C w.store w.disk permit fault).1
    | _ => false
  | .reopen resolve loaded_at validated_at now fault =>
    open_persists C w.disk resolve loaded_at validated_at now &&
      (open_durable C w.disk resolve loaded_at validated_at now fault).1.writable
  | _ => false

/-- What is kept of the openings when an action leads to another world. -/
def Traced.next (s : Traced O V) (a : Action O V) (world : World O) : Traced O V :=
  let current := match a with
    | .reopen resolve loaded_at validated_at _ _ =>
      opening_of C s.world.disk resolve loaded_at validated_at
    | _ => s.current
  ⟨world, current, if s.world.persists C a then current else s.source⟩

/-- One step, with the openings kept on the side. -/
def Traced.step (s : Traced O V) (a : Action O V) : Option (Traced O V) :=
  (Idempotency.step C s.world a).map (s.next C a)

/-- What a task may be at: an outcome is finished at a time that has passed, and a key that is
being released is dirty. -/
def Task.Steady (w : World O) : Task O → Prop
  | .finishing _ _ now => now ≤ w.clock
  | .releasing permit _ => w.store.writable = true →
    permit.identity ∈ w.store.state.dirty ∧ permit.generation < 2 ^ 64
  | _ => True

/-- Ledger and memory agree, and the tasks do nothing that would end that. -/
structure Agrees (s : Traced O V) : Prop where
  durable : s.world.store.config.durable = true
  clock : s.world.clock + s.world.store.config.ttl ≤ max_instant
  tasks : ∀ i, (s.world.tasks i).Steady s.world
  on_disk : ∃ F journal, OnDisk C s.world.disk F journal ∧ Reflects C s.source s.world.persisted F
  agreed : s.world.opened = true →
    Agreed C s.current s.source s.world.store s.world.disk s.world.persisted

/-- No write fails. -/
def Action.quiet : Action O V → Prop
  | .acquire _ fault | .finish_section _ fault | .abandon_persist _ fault
  | .reopen _ _ _ _ fault => fault = .none
  | _ => True

variable {C} {w : World O} {s : Traced O V}

theorem Traced.next_of_writes {a : Action O V} (h : a.writes = false) (world : World O) :
    s.next C a world = ⟨world, s.current, s.source⟩ := by
  cases a <;> first | rfl | cases h

section

variable (h : Agrees C s)

include h

/-- A step that moves one task. Who else is releasing a key has marked it already. -/
theorem Agrees.of_task {w' : World O} {source : Opening O V} (hs : Sound s.world) (t : ℕ)
    (task : Task O) (hothers : s.world.lock = none ∨ s.world.lock = some t ∨ w'.store = s.world.store)
    (htasks : w'.tasks = Function.update s.world.tasks t task)
    (hconfig : w'.store.config = s.world.store.config) (hclock : w'.clock = s.world.clock)
    (htask : task.Steady w') (hagreed : Agreed C s.current source w'.store w'.disk w'.persisted) :
    Agrees C ⟨w', s.current, source⟩ where
  durable := hconfig ▸ h.durable
  clock := by
    change w'.clock + w'.store.config.ttl ≤ max_instant
    rw [hconfig, hclock]
    exact h.clock
  tasks := by
    intro i
    change ((w'.tasks i).Steady w')
    rw [htasks, update_apply]
    split <;> rename_i hit
    · exact htask
    have hold := h.tasks i
    cases hi : s.world.tasks i with
    | finishing permit outcome now =>
      rw [hi] at hold
      rw [Task.Steady, hclock]
      exact hold
    | releasing permit changed =>
      have hmine := (hs.releasing i permit changed hi).1
      rcases hothers with hnone | hlock | hsame
      · cases hnone.symm.trans hmine
      · cases hlock.symm.trans hmine
        exact absurd rfl hit
      · rw [hi] at hold
        rw [Task.Steady, hsame]
        exact hold
    | _ => trivial
  on_disk := hagreed.on_disk
  agreed := fun _ => hagreed

theorem Agrees.set_task (hs : Sound s.world) (hopen : s.world.opened) (t : ℕ) (task : Task O)
    (htask : task.Steady (s.world.set_task t task)) :
    Agrees C ⟨s.world.set_task t task, s.current, s.source⟩ :=
  h.of_task hs t task (.inr (.inr rfl)) rfl rfl rfl htask (h.agreed hopen)

theorem Agrees.drop_section (hs : Sound s.world) (hopen : s.world.opened)
    (hlock : s.world.lock = none) (hpermit : (s.world.tasks t).permit? = some permit) :
    Agrees C ⟨s.world.drop_section t permit, s.current, s.source⟩ := by
  obtain ⟨entry, hfind, hmatch⟩ := hs.matched t permit hpermit
  exact h.of_task hs t _ (.inl hlock) rfl rfl rfl trivial
    ((h.agreed hopen).memory fun F hF => hF.drop_entry h.durable hs.entries hfind hmatch)

theorem Agrees.down (hdisk : disk = s.world.disk) :
    Agrees C ⟨s.world.down disk, s.current, s.source⟩ where
  durable := h.durable
  clock := h.clock
  tasks := fun _ => trivial
  on_disk := by
    change ∃ F journal, OnDisk C disk F journal ∧ Reflects C s.source s.world.persisted F
    rw [hdisk]
    exact h.on_disk
  agreed := nofun

theorem Agrees.older : s.world.disk.older = [] := by
  obtain ⟨F, journal, hF, -⟩ := h.on_disk
  exact hF.older

/-- Between the sections of an abandon ledger and memory agree on all keys but the one that is
dirty. -/
theorem Agrees.abandon_entry (hs : Sound s.world) (hopen : s.world.opened)
    (hlock : s.world.lock = none) (hpermit : (s.world.tasks t).permit? = some permit) :
    Agrees C ⟨s.world.abandon_entry t permit, s.current, s.source⟩ := by
  obtain ⟨entry, hfind, hmatch⟩ := hs.matched t permit hpermit
  obtain ⟨-, -, hdirty, -⟩ := abandon_entry_matched hs.unique hfind hmatch
  obtain ⟨-, -, changed, hreserved⟩ := Permit.matches_reserved hmatch
  have hagreed := (h.agreed hopen).memory fun F hF => hF.abandon_entry hs.unique hfind hmatch
  refine h.of_task hs t _ (.inl hlock) rfl rfl rfl (fun hw => ?_) hagreed
  obtain ⟨F, journal, -, -, hready⟩ := h.agreed hopen
  refine ⟨?_, ((hready hw).2.entries entry (mem_of_get hfind)).generation _ _ hreserved⟩
  rw [show (s.world.abandon_entry t permit).store.state.dirty = _ from hdirty]
  exact mem_mark.mpr (.inl rfl)

/-- The clock may go on: who has looked at it before has seen an earlier time. -/
theorem Agrees.advance (duration : ℕ)
    (hmax : s.world.clock + duration + s.world.store.config.ttl ≤ max_instant) :
    Agrees C ⟨{ s.world with clock := s.world.clock + duration }, s.current, s.source⟩ := by
  refine ⟨h.durable, hmax, fun i => ?_, h.on_disk, h.agreed⟩
  have hi := h.tasks i
  change Task.Steady _ (s.world.tasks i)
  generalize s.world.tasks i = task at hi ⊢
  cases task with
  | finishing => exact Nat.le_add_right_of_le hi
  | _ => exact hi

/-- A process that opens the ledger agrees with it: what it restores is its own opening. -/
theorem Agrees.reopen {validated_at now : Instant} (hs : Sound s.world)
    (hdurable : s.world.store.config.durable = true) (hclosed : s.world.opened = false)
    (hnow : validated_at ≤ now) (hmax : now + s.world.store.config.ttl ≤ max_instant)
    (resolve : V → Option O) (loaded_at : Instant) :
    Agrees C (s.next C (.reopen resolve loaded_at validated_at now .none)
      (s.world.reopen C resolve loaded_at validated_at now .none)) := by
  obtain ⟨F, journal, hF, hmirror⟩ := h.on_disk
  have hconfig := (open_durable_sound C s.world.disk resolve loaded_at hnow .none).1
  have hidle : ∀ i, (s.world.reopen C resolve loaded_at validated_at now .none).tasks i = .idle :=
    hs.closed hclosed
  refine ⟨congrArg Config.durable hconfig, ?_, fun i => ?_,
    (hF.open_durable hmirror resolve loaded_at hnow).on_disk,
    fun _ => hF.open_durable hmirror resolve loaded_at hnow⟩
  · rw [(s.world.store.config.durable_default hdurable).2.2] at hmax
    change now + (s.world.reopen C resolve loaded_at validated_at now .none).store.config.ttl ≤ _
    rw [show (s.world.reopen C resolve loaded_at validated_at now .none).store.config = _
      from hconfig]
    exact hmax
  · change ((s.world.reopen C resolve loaded_at validated_at now .none).tasks i).Steady _
    rw [hidle]
    trivial

end

theorem Look.task_steady (request : Request) (now : Instant) (found : Look O) :
    (found.task request now).Steady w := by
  cases found <;> trivial

theorem Acquisition.task_steady (request : Request) (now : Instant) (result : Acquisition) :
    (result.task request now).Steady w := by
  cases result <;> trivial

theorem Finish.task_steady (result : Finish O) : result.task.Steady w := by
  cases result <;> trivial

/-- **One step without a failed write keeps ledger and memory in agreement.** -/
theorem Agrees.step {w' : World O} {a : Action O V} (h : Agrees C s) (hs : Sound s.world)
    (hquiet : a.quiet) (hstep : step C s.world a = some w') : Agrees C (s.next C a w') := by
  cases step_inv C hstep with
  | reserve hopen htask hnow =>
    exact h.set_task hs hopen _ _ (by split <;> trivial)
  | look hopen hlock htask =>
    exact h.of_task hs _ _ (.inl hlock) rfl rfl rfl
      (Look.task_steady _ _ _)
      ((h.agreed hopen).memory fun F hF => hF.look hs.unique _ _)
  | wake hopen htask hready =>
    exact h.set_task hs hopen _ _ (by cases s.world.channels _ <;> trivial)
  | time_out hopen | cancel hopen => exact h.set_task hs hopen _ _ trivial
  | acquire hopen hlock htask =>
    cases hquiet
    have hagreed := (h.agreed hopen).acquire h.durable hs.entries
    simp only [Traced.next, World.persists, htask]
    exact h.of_task hs _ _ (.inl hlock) rfl (acquire_keeps C _ _ _ _ _ hs.entries).1 rfl
      (Acquisition.task_steady _ _ _) (hagreed _ _ _)
  | leave hopen htask hleaves hwrites =>
    rw [Traced.next_of_writes hwrites]
    refine h.set_task hs hopen _ _ ?_
    cases hleaves <;> first | assumption | trivial
  | @finish_section task permit outcome now fault hopen hlock htask =>
    cases hquiet
    obtain ⟨entry, hfind, hmatch⟩ := hs.matched _ _ (congrArg Task.permit? htask)
    obtain ⟨changed, hchannel⟩ := isSome_iff_exists.mp (Permit.matches_channel hmatch)
    have hpassed := h.tasks task
    rw [htask] at hpassed
    have hnow : now + s.world.store.config.ttl ≤ max_instant :=
      (Nat.add_le_add_right hpassed _).trans h.clock
    have hagreed := (h.agreed hopen).finish_section h.durable hs.entries hfind hmatch outcome hnow
    simp only [Traced.next, World.persists, htask]
    exact h.of_task hs task _ (.inl hlock) rfl
      (finish_section_matched C _ _ _ _ hfind hmatch hchannel).config rfl
      (Finish.task_steady _) hagreed
  | abandon_entry hopen hlock htask =>
    exact h.abandon_entry hs hopen hlock (congrArg Task.permit? htask)
  | @abandon_persist task permit changed fault hopen htask =>
    cases hquiet
    obtain ⟨hlock, hnone, -⟩ := hs.releasing task permit changed htask
    have hreleasing := h.tasks task
    rw [htask] at hreleasing
    have hagreed := (h.agreed hopen).abandon_persist h.durable hs.entries hnone hreleasing
    have hconfig := (abandon_persist_persists C s.world.store s.world.disk permit .none).config
    simp only [Traced.next, World.persists, htask]
    exact h.of_task hs task _ (.inr (.inl hlock)) rfl hconfig rfl trivial hagreed
  | drop_section hopen hlock hpermit hwrites =>
    rw [Traced.next_of_writes hwrites]
    exact h.drop_section hs hopen hlock hpermit
  | advance hmax => exact h.advance _ hmax
  | @crash image hdurable himage =>
    -- the file is the only image
    rw [Disk.images, h.older] at himage
    rw [mem_singleton.mp himage]
    refine h.down ?_
    rw [← h.older]
  | exit hdurable hopen => exact h.down rfl
  | reopen hdurable hclosed hloaded hvalidated hnow hmax =>
    cases hquiet
    exact h.reopen hs hdurable hclosed hnow hmax _ _

variable (C)

/-- Where runs of a durable store lead that start without a ledger and in which no write fails. -/
abbrev ReachedQuiet (s : Traced O V) : Prop :=
  Reachable (fun s : Traced O V => Initial s.world ∧ s.world.disk = ⟨none, []⟩ ∧
      s.world.store.config.durable = true ∧ s.source = {})
    (Traced.step C) (fun _ a => a.quiet) s

variable {C}

/-- The openings are kept on the side: they forbid nothing, and every run has them. -/
theorem exists_traced {w : World O}
    (h : Reachable (fun w : World O => Initial w ∧ w.disk = ⟨none, []⟩ ∧
      w.store.config.durable = true) (step C) (fun _ a => a.quiet) w) :
    ∃ s, ReachedQuiet C s ∧ s.world = w := by
  induction h with
  | start h => exact ⟨⟨_, {}, {}⟩, .start ⟨h.1, h.2.1, h.2.2, rfl⟩, rfl⟩
  | @next _ w' a _ hquiet hstep ih =>
    obtain ⟨s, hs, rfl⟩ := ih
    refine ⟨s.next C a w', .next hs hquiet ?_, rfl⟩
    rw [Traced.step, hstep]
    rfl

/-- **In every run without an I/O failure** ledger and memory agree, by induction on its steps. -/
theorem ReachedQuiet.agrees (h : ReachedQuiet C s) : Sound s.world ∧ Agrees C s := by
  refine Reachable.invariant (I := fun s => Sound s.world ∧ Agrees C s) (fun s hi => ?_)
    (fun s a s' hs hquiet hstep => ?_) h
  · obtain ⟨hinit, hdisk, hdurable, -⟩ := hi
    refine ⟨hinit.sound, hdurable, hinit.clock, ?_, ?_, ?_⟩
    · rw [hinit.tasks]
      exact fun _ => trivial
    · rw [hdisk, hinit.persisted]
      exact ⟨[], ⟨false, 0, 0, zero_sha256, 0⟩, ⟨rfl, .absent (by decide), wellformed_nil⟩,
        fun _ => .none⟩
    · rw [hinit.opened, hdurable]
      exact nofun
  · obtain ⟨w', hw', rfl⟩ := map_eq_some_iff.mp hstep
    exact ⟨hs.1.step C hw', hs.2.step hs.1 hquiet hw'⟩

/-- Reserve a key, restart, and reserve another one. -/
def reserve_across_restart : List (Action (CommandOutcome Unit) CommandId) :=
  [.reopen (fun _ => none) 0 0 0 .none, .reserve 0 sample_request 0, .look 0, .acquire 0 .none,
    .exit, .reopen (fun _ => none) 0 0 0 .none, .reserve 0 other_request 0, .look 0,
    .acquire 0 .none]

/-- Where that leads: the first key is unresolved in memory, and the ledger has a header with it
and a change with the second key. -/
theorem reserve_across_restart_reached :
    ∃ (s : Traced (CommandOutcome Unit) CommandId) (bytes : Bytes) (loaded : Loaded CommandId),
      ReachedQuiet command_codec s ∧ s.world.disk.file = some bytes ∧ (lines bytes).length = 2 ∧
      load command_codec 0 (some bytes) = .ok (some loaded) ∧
      (find_entry sample_request.identity s.world.persisted).map Entry.state = some .unresolved ∧
      (get DurableEntry.identity sample_request.identity loaded.entries).map
        DurableEntry.state = some .reserved := by
  obtain ⟨s, hrun, bytes, hbytes, hlines, hmemory, l, hl, loaded, hloaded, hledger⟩ :
      ∃ s ∈ run (Traced.step command_codec) ⟨World.start .open_durable ⟨none, []⟩ 0, {}, {}⟩
          reserve_across_restart,
        ∃ bytes ∈ s.world.disk.file, (lines bytes).length = 2 ∧
        (find_entry sample_request.identity s.world.persisted).map Entry.state = some .unresolved ∧
        ∃ l ∈ (load command_codec 0 (some bytes)).toOption, ∃ loaded ∈ l,
          (get DurableEntry.identity sample_request.identity loaded.entries).map
            DurableEntry.state = some .reserved := by
    decide +kernel
  have hload : load command_codec 0 (some bytes) = .ok (some loaded) := by
    cases hx : load command_codec 0 (some bytes) with
    | error e => rw [hx] at hl; cases hl
    | ok x => rw [hx] at hl; cases hl; rw [hloaded]
  refine ⟨s, bytes, loaded, reachable_of_run
    (.start ⟨Initial.start ⟨none, []⟩ (by decide), rfl, rfl, rfl⟩) (fun a ha _ => ?_) hrun, hbytes,
    hlines, hload, hmemory, hledger⟩
  revert a
  simp [reserve_across_restart, Action.quiet]

end BobbyBrowser.Idempotency
