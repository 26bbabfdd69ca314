/-
What runs of the idempotency store leave on disk.

`step_ledger` is the rule for properties of the ledger and of the handle the
store appends through: they hold along every run when they survive a persist, a
crash and a load, since nothing else touches the file. The first property shown
with it is what the ledger consists of, whatever writes fail and wherever the
machine goes down: one header, changes numbered from one, and at most one line
that is torn. A reader of such lines cannot be misled: dropping, repeating or
reordering them is noticed, or leaves a ledger the store had written before
(`load_of_rearranged_ledger`).
-/
import BobbyBrowser.IdempotencyInvariant

set_option autoImplicit false

namespace BobbyBrowser.Ledger

open Option
open List hiding getElem?_eq_some_iff
open Lines

variable {V : Type} (C : Codec V)

/-! ## The lines of a ledger -/

/-- The lines of a ledger: a snapshot, and the changes since. -/
def ledger_lines (entries : List (DurableEntry V)) (changes : List (Change V)) : List Bytes :=
  header_line C entries :: changes.map (record_line C)

/-- The entries a snapshot and the changes since amount to. -/
def recorded (entries : List (DurableEntry V)) (changes : List (Change V)) :
    List (DurableEntry V) :=
  changes.foldl (fun entries change => change.apply entries) entries

/-- The changes are numbered from one. -/
def Numbered (changes : List (Change V)) : Prop :=
  ∀ (n : ℕ) (change : Change V), changes[n]? = some change → change.sequence = n + 1

theorem numbered_nil : Numbered ([] : List (Change V)) := by
  intro n change h
  simp at h

variable {changes : List (Change V)}

theorem Numbered.append_singleton (h : Numbered changes)
    {change : Change V} (hnext : change.sequence = changes.length + 1) :
    Numbered (changes ++ [change]) := by
  intro n c hc
  rcases Nat.lt_trichotomy n changes.length with hn | rfl | hn
  · rw [getElem?_append_left hn] at hc
    exact h n c hc
  · rw [getElem?_concat_length] at hc
    rw [← some.inj hc, hnext]
  · rw [getElem?_eq_none (by rw [length_append, length_singleton]; omega)] at hc
    cases hc

theorem Numbered.getElem? (h : Numbered changes) {change : Change V}
    (hmem : change ∈ changes) {n : ℕ} (hn : change.sequence = n + 1) :
    changes[n]? = some change := by
  obtain ⟨m, hm⟩ := mem_iff_getElem?.mp hmem
  have := h m change hm
  obtain rfl : m = n := by omega
  exact hm

variable {entries : List (DurableEntry V)}

/-- **Lines of a ledger that replay are the next ones, in order.** The reader asks each line for
the next number, and only one line of the ledger has it: the header has none. -/
theorem replays_drawn (hnum : Numbered changes) {d d' : V2Decoder V} {ls : List Bytes}
    (h : Replays C d ls d') (hdrawn : ∀ l ∈ ls, l ∈ ledger_lines C entries changes) :
    ls = ((changes.drop d.sequence).take ls.length).map (record_line C) ∧
      d'.entries = recorded d.entries ((changes.drop d.sequence).take ls.length) ∧
      d'.sequence = d.sequence + ls.length := by
  induction h with
  | nil d => exact ⟨rfl, rfl, rfl⟩
  | @cons d d' bytes ls record hfit hadm hrest ih =>
    obtain ⟨change, hmem, rfl⟩ : ∃ change ∈ changes, record_line C change = bytes := by
      rcases mem_cons.mp (hdrawn bytes mem_cons_self) with rfl | h
      · have := hadm.1
        rw [header_line, C.decode_record_header_line] at this
        cases this
      · exact mem_map.mp h
    obtain rfl := some.inj (hadm.1.symm.trans (decode_record_record_line C change))
    have hnext : change.sequence = d.sequence + 1 := hadm.2.next
    obtain ⟨hlt, hget⟩ := List.getElem?_eq_some_iff.mp (hnum.getElem? hmem hnext)
    have hdrop : changes.drop d.sequence = change :: changes.drop (d.sequence + 1) := by
      rw [drop_eq_getElem_cons hlt, hget]
    obtain ⟨hls, hentries, hseq⟩ := ih fun l hl => hdrawn l (mem_cons_of_mem _ hl)
    have hafter : (d.after (change.record C) (record_line C change).length).sequence
        = d.sequence + 1 := hnext
    rw [hafter] at hls hentries hseq
    refine ⟨?_, ?_, ?_⟩
    · rw [hdrop, length_cons, take_succ_cons, map_cons, ← hls]
    · rw [hdrop, length_cons, take_succ_cons, hentries]
      rfl
    · rw [hseq, length_cons]
      omega

theorem isLine_of_mem_ledger_lines
    {l : Bytes} (h : l ∈ ledger_lines C entries changes) : IsLine l := by
  rcases mem_cons.mp h with rfl | h
  · exact isLine_header_line C entries
  · obtain ⟨change, -, rfl⟩ := mem_map.mp h
    exact isLine_record_line C change

/-- **What a rearranged ledger loads as.** Lines of the ledger behind its header, in any order, with
repetitions and omissions, load only when they are the first changes in order. -/
theorem load_rearranged (hnum : Numbered changes) {ls : List Bytes}
    (hdrawn : ∀ l ∈ ls, l ∈ ledger_lines C entries changes) {now : Instant}
    {loaded : Option (Loaded V)}
    (h : load C now (some (header_line C entries :: ls).flatten) = .ok loaded) :
    header_line C entries :: ls <+: ledger_lines C entries changes ∧
      ∃ sha256 bytes, loaded = some ⟨recorded entries (changes.take ls.length), 2, ls.length,
        sha256, bytes⟩ := by
  have hlines : lines (header_line C entries :: ls).flatten = header_line C entries :: ls := by
    refine lines_flatten fun l hl => ?_
    rcases mem_cons.mp hl with rfl | hl
    · exact isLine_header_line C entries
    · exact isLine_of_mem_ledger_lines C (hdrawn l hl)
  obtain ⟨d, ha, rfl⟩ := accepted_of_load_headed C hlines (C.decode_header_line _) h
  obtain ⟨hls, hentries, hseq⟩ := replays_drawn C hnum (ha.replays C hlines) hdrawn
  simp only [drop_zero, Nat.zero_add] at hls hentries hseq
  constructor
  · rw [ledger_lines, prefix_cons_inj]
    rw [hls]
    exact (List.take_prefix _ _).map _
  · exact ⟨d.sha256, d.appended_bytes, by rw [V2Decoder.loaded, hentries, hseq]⟩

end BobbyBrowser.Ledger

namespace BobbyBrowser.Idempotency

open Option
open List hiding tail
open Lines Jsonl Ledger
open Transition Outcomes

variable {disk : Disk} {journal : Journal} {O V : Type} [RetainedOutcome O V] (C : Codec V)

/-! ## Properties of the ledger along a run -/

/-- What a property of the store's handle and the disk has to survive to hold along a run. -/
structure LedgerRule (I : Store O → Disk → Prop) : Prop where
  /-- It looks at the handle only, and only while the store is writable. -/
  congr : ∀ {store store' : Store O} {disk : Disk}, I store disk →
    store'.config = store.config → store'.journal = store.journal →
    (store'.writable = true → store.writable = true) → I store' disk
  persist : ∀ {store : Store O} {disk : Disk} (fault : Fault), I store disk →
    I (persist_locked C store disk fault).2.1 (persist_locked C store disk fault).2.2
  crash : ∀ {store : Store O} {disk : Disk} {image : Option Bytes}, I store disk →
    image ∈ disk.images → I (Store.closed store.config) ⟨image, []⟩
  exit : ∀ {store : Store O} {disk : Disk}, I store disk → I (Store.closed store.config) disk
  load : ∀ {store store' : Store O} {disk : Disk} (loaded_at validated_at : Instant),
    I store disk → store'.journal = (open_journal C loaded_at validated_at disk).1 → I store' disk

variable {C} {I : Store O → Disk → Prop} {store : Store O} {fault : Fault} {state : StoreState O}

section

variable (rule : LedgerRule C I)

include rule

theorem LedgerRule.persist_state {r : Except IoError Unit}
    (h : I store disk) {store' : Store O} {disk' : Disk}
    (hp : persist_locked C { store with state := state } disk fault = (r, store', disk')) :
    I store' disk' := by
  have hmem : I { store with state := state } disk := rule.congr h rfl rfl id
  have hpersist := rule.persist fault hmem
  rw [hp] at hpersist
  exact hpersist

theorem LedgerRule.persists (h : I store disk) {α : Type} {won lost : α} {fallback : List (Entry O) → List (Entry O)}
    {result : α × Store O × Disk}
    (hp : Persists C store disk fault state won lost fallback result) :
    I result.2.1 result.2.2 := by
  cases hp with
  | ok hp => exact rule.persist_state h hp
  | error hp => exact rule.congr (rule.persist_state h hp) rfl rfl id

/-- The rule covers an acquisition: it persists at most once. -/
theorem LedgerRule.acquire
    (h : I store disk) (request : Request) (now : Instant) (channel : ChannelId) (fault : Fault) :
    let result := acquire C store disk request now channel fault
    I result.2.1 result.2.2 := by
  rcases acquire_cases C store disk request now channel fault with
    ⟨-, hr⟩ | ⟨-, -, hr⟩ | ⟨-, -, -, hr⟩ | ⟨-, -, -, -, hpersists⟩
  · simp only [hr]
    exact h
  · simp only [hr]
    exact rule.congr h rfl rfl id
  · simp only [hr]
    exact rule.congr h rfl rfl id
  · exact rule.persists h hpersists

/-- The rule covers a finish: it persists at most once. -/
theorem LedgerRule.finish_section
    (h : I store disk) (permit : Permit) (outcome : O) (now : Instant) (fault : Fault) :
    let result := finish_section C store disk permit outcome now fault
    I result.2.1 result.2.2 := by
  simp only [Idempotency.finish_section]
  split
  · exact h
  split
  · rcases hp : persist_locked C _ disk fault with ⟨r, store', disk'⟩
    cases r with
    | ok u => exact rule.persist_state h hp
    | error e => exact rule.congr (rule.persist_state h hp) rfl rfl id
  · exact rule.congr h rfl rfl id

/-- The rule covers a reopening: it loads, and may persist what it restored. -/
theorem LedgerRule.open_durable (h : I store disk) (resolve : V → Option O)
    (loaded_at validated_at now : Instant) (fault : Fault) :
    let result := open_durable C disk resolve loaded_at validated_at now fault
    I result.1 result.2 := by
  rcases open_durable_cases C disk resolve loaded_at validated_at now fault with
    ⟨issue, -, hr⟩ | ⟨entries, -, ⟨-, hr⟩ | ⟨-, ⟨u, store', disk', hp, hr⟩ | ⟨e, store', disk', hp, hr⟩⟩⟩
  · simp only [hr]
    exact rule.load loaded_at validated_at h rfl
  · simp only [hr]
    exact rule.load loaded_at validated_at h rfl
  all_goals
    have hopened : I (restored_store resolve now (open_journal C loaded_at validated_at disk).1
        entries) disk := rule.load loaded_at validated_at h rfl
    have hpersist := rule.persist fault hopened
    rw [hp] at hpersist
    simp only [hr]
  · exact hpersist
  · exact rule.congr hpersist rfl rfl fun hw => by simp [Store.writable_iff] at hw

/-- **The ledger along a run.** A property that survives what `LedgerRule` lists survives every
step. -/
theorem step_ledger {w w' : World O} {a : Action O V}
    (h : I w.store w.disk) (hstep : step C w a = some w') : I w'.store w'.disk := by
  cases step_inv C hstep with
  | acquire => exact rule.acquire h _ _ _ _
  | finish_section => exact rule.finish_section h _ _ _ _
  | abandon_persist => exact rule.persists h (abandon_persist_persists C ..)
  | crash hdurable himage => exact rule.crash h himage
  | exit => exact rule.exit h
  | reopen => exact rule.open_durable h _ _ _ _ _
  | look | abandon_entry | drop_section => exact rule.congr h rfl rfl id
  | reserve | wake | time_out | leave | cancel | advance => exact h

end

/-! ## What a ledger consists of -/

variable (C)

/-- A file the store can have written: a header and numbered changes, the last line maybe torn. -/
def Produced (image : Option Bytes) : Prop :=
  ∀ bytes, image = some bytes →
    ∃ entries changes, Numbered changes ∧ lines bytes = ledger_lines C entries changes

/-- The file is made of whole lines, and the next change gets the next number. -/
def Aligned (journal : Journal) (file : Option Bytes) : Prop :=
  ∃ bytes entries changes, file = some bytes ∧ tail bytes = [] ∧ Numbered changes ∧
    lines bytes = ledger_lines C entries changes ∧ journal.sequence = changes.length

/-- Every image of the ledger is one the store can have written, and a store that appends to it
knows where it ends. -/
structure Written (store : Store O) (disk : Disk) : Prop where
  images : ∀ image ∈ disk.images, Produced C image
  aligned : store.writable = true → store.journal.has_file = true → store.journal.format = 2 →
    Aligned C store.journal disk.file

variable {file : Option Bytes}

/-- However much of a change gets written, the file is one that the store can have written. -/
theorem Aligned.produced_append
    (h : Aligned C journal file) (updates : List (DurableEntry V)) (removes : List Key) (k : ℕ) :
    Produced C (some (file.getD [] ++ (record_line C (journal.next_change updates removes)).take k)) := by
  obtain ⟨bytes, entries, changes, rfl, htail, hnum, hlines, hseq⟩ := h
  rintro _ ⟨rfl⟩
  have hno := C.newline_notMem_record ((journal.next_change updates removes).record C)
  rw [getD_some]
  -- short of its newline the line only adds to the tail
  by_cases hk : k ≤ (C.record_bytes ((journal.next_change updates removes).record C)).length
  · refine ⟨entries, changes, hnum, ?_⟩
    rw [lines, record_line, ← Change.record, split_append_torn bytes (newline_notMem_take hno hk)]
    exact hlines
  refine ⟨entries, changes ++ [journal.next_change updates removes],
    hnum.append_singleton (by rw [← hseq]; rfl), ?_⟩
  rw [record_line, ← Change.record, take_line_of_length_lt (not_le.mp hk), lines,
    split_append_line htail hno, hlines, ledger_lines, ledger_lines, map_append]
  rfl

/-- A change that is written whole leaves whole lines, with the next number next. -/
theorem Aligned.append (h : Aligned C journal file)
    (journal' : Journal) (updates : List (DurableEntry V)) (removes : List Key)
    (hseq' : journal'.sequence = journal.sequence + 1) :
    Aligned C journal'
      (some (file.getD [] ++ record_line C (journal.next_change updates removes))) := by
  obtain ⟨bytes, entries, changes, rfl, htail, hnum, hlines, hseq⟩ := h
  have hsplit := split_append_line htail
    (C.newline_notMem_record ((journal.next_change updates removes).record C))
  refine ⟨_, entries, changes ++ [journal.next_change updates removes], rfl,
    congrArg Prod.snd hsplit, hnum.append_singleton (by rw [← hseq]; rfl), ?_, ?_⟩
  · rw [getD_some, record_line, ← Change.record, lines, hsplit, hlines, ledger_lines,
      ledger_lines, map_append]
    rfl
  · rw [hseq', hseq, length_append, length_singleton]

theorem not_writable_of_failed (store : Store O) (hdurable : store.config.durable) :
    { store with failed := true }.writable = false := by
  apply Bool.eq_false_iff.mpr
  intro hw
  have := (Store.writable_iff.mp hw).2 hdurable
  cases this

/-- **What a store that can still write has done to its ledger**: nothing, a checkpoint, or an
append, and the write is whole and synced. -/
theorem persist_locked_writable (hw : (persist_locked C store disk fault).2.1.writable) :
    let result := persist_locked C store disk fault
    (store.writable = true ∧ result.2.1.journal = store.journal ∧ result.2.2 = disk) ∨
    (∃ entries, durable_entries C store.state.entries = .ok entries ∧
      result.2.1.journal = ⟨true, 2, 0, C.snapshot_sha256 entries, 0⟩ ∧
      result.2.2 = ⟨some (header_line C entries), []⟩) ∨
    (∃ updates, durable_entries C (dirty_entries store.state) = .ok updates ∧
      store.writable = true ∧ store.journal.has_file = true ∧ store.journal.format = 2 ∧
      result.2.1.journal.sequence = store.journal.sequence + 1 ∧
      result.2.2 = ⟨some (disk.file.getD [] ++ record_line C
        (store.journal.next_change updates (dirty_removes store.state))), []⟩) := by
  -- a write that failed has latched, so the store is not writable any more
  have hfailed : ∀ journal, store.config.durable = true →
      { store with journal := journal, failed := true }.writable ≠ true := by
    intro journal hdurable
    rw [not_writable_of_failed { store with journal := journal } hdurable]
    exact Bool.false_ne_true
  rcases persist_locked_cases C store disk fault with
    ⟨e, hr⟩ | ⟨hstore, -, hr⟩ | ⟨-, hdurable, -, entries, hentries, hr⟩ |
      ⟨hstore, hdurable, hneeds, updates, hupdates, hr⟩
  · rw [hr] at hw ⊢
    exact .inl ⟨hw, rfl, rfl⟩
  · rw [hr]
    exact .inl ⟨hstore, rfl, rfl⟩
  · rcases store.journal.checkpoint_cases C disk entries fault with
      ⟨e, -, hc⟩ | ⟨e, -, hc⟩ | ⟨e, -, hc⟩ | hc <;> rw [hr, hc] at hw ⊢
    · exact absurd hw (hfailed _ hdurable)
    · exact absurd hw (hfailed _ hdurable)
    · exact absurd hw (hfailed _ hdurable)
    · exact .inr (.inl ⟨entries, hentries, rfl, rfl⟩)
  · have hformat := Journal.format_of_no_checkpoint hneeds
    rcases store.journal.append_cases C disk updates (dirty_removes store.state) fault with
      ⟨e, hc, -⟩ | ⟨e, written, -, hfile, hc⟩ | ⟨hfile, -, hc⟩ <;> rw [hr, hc] at hw ⊢
    · exact absurd hw (hfailed _ hdurable)
    · exact absurd hw (hfailed _ hdurable)
    · exact .inr (.inr ⟨updates, hupdates, hstore, hfile, hformat, rfl, rfl⟩)

/-- Whatever becomes of a persist, every image of the ledger is one the store can have written. -/
theorem Written.persist_images (fault : Fault) (h : Written C store disk) :
    ∀ image ∈ (persist_locked C store disk fault).2.2.images, Produced C image := by
  have hheader : ∀ entries, Produced C (some (header_line C entries)) := by
    rintro entries _ ⟨rfl⟩
    exact ⟨entries, [], numbered_nil, congrArg Prod.fst (split_header_line C entries)⟩
  rcases persist_locked_cases C store disk fault with
    ⟨e, hr⟩ | ⟨-, -, hr⟩ | ⟨-, -, -, entries, -, hr⟩ | ⟨hw, -, hneeds, updates, -, hr⟩
  · rw [hr]
    exact h.images
  · rw [hr]
    exact h.images
  · rcases store.journal.checkpoint_cases C disk entries fault with
      ⟨e, -, hc⟩ | ⟨e, -, hc⟩ | ⟨e, -, hc⟩ | hc <;> rw [hr, hc] <;> intro image himage
    · exact h.images image himage
    · rcases mem_cons.mp himage with rfl | himage
      · exact hheader entries
      · exact h.images image himage
    · rw [mem_singleton.mp himage]
      exact hheader entries
    · rw [mem_singleton.mp himage]
      exact hheader entries
  have hformat := Journal.format_of_no_checkpoint hneeds
  rcases store.journal.append_cases C disk updates (dirty_removes store.state) fault with
    ⟨e, hc, -⟩ | ⟨e, written, -, hfile, hc⟩ | ⟨hfile, -, hc⟩ <;> rw [hr, hc] <;> intro image himage
  · exact h.images image himage
  · rcases Disk.mem_images_append_unsynced himage with himage | ⟨k, rfl⟩
    · exact h.images image (mem_cons_of_mem _ himage)
    · exact (h.aligned hw hfile hformat).produced_append C _ _ k
  rw [mem_singleton.mp himage]
  have hall := (h.aligned hw hfile hformat).produced_append C updates
    (dirty_removes store.state) (record_line C
      (store.journal.next_change updates (dirty_removes store.state))).length
  rwa [take_length] at hall

/-- Persisting, failing or not, leaves a ledger of this kind. -/
theorem Written.persist (fault : Fault) (h : Written C store disk) :
    Written C (persist_locked C store disk fault).2.1 (persist_locked C store disk fault).2.2 := by
  refine ⟨h.persist_images C fault, fun hw hfile hformat => ?_⟩
  rcases persist_locked_writable C hw with
    ⟨hwritable, hjournal, hdisk⟩ | ⟨entries, -, hjournal, hdisk⟩ |
      ⟨updates, -, hwritable, hfile, hformat, hseq, hdisk⟩
  · rw [hdisk, hjournal]
    rw [hjournal] at hfile hformat
    exact h.aligned hwritable hfile hformat
  · rw [hdisk, hjournal]
    exact ⟨_, entries, [], rfl, congrArg Prod.snd (split_header_line C entries),
      numbered_nil, congrArg Prod.fst (split_header_line C entries), rfl⟩
  · rw [hdisk]
    exact (h.aligned hwritable hfile hformat).append C _ updates _ hseq

/-- A handle to append through comes only with a ledger that was accepted. -/
theorem open_journal_handle {loaded_at validated_at : Instant}
    (h : (open_journal C loaded_at validated_at disk).1.has_file) :
    ∃ bytes d, disk.file = some bytes ∧ Accepted C loaded_at bytes d ∧
      (open_journal C loaded_at validated_at disk).1
        = ⟨true, 2, d.sequence, d.sha256, d.appended_bytes⟩ := by
  unfold open_journal at h ⊢
  rcases hload : load C loaded_at disk.file with e | (_ | loaded)
  · rw [hload] at h
    cases h
  · rw [hload] at h
    cases h
  rw [hload] at h
  have hformat : loaded.format = 2 := by simpa using h
  rcases hfile : disk.file with _ | bytes
  · rw [hfile] at hload
    cases hload
  · rw [hfile] at hload
    obtain ⟨d, ha, rfl⟩ := accepted_of_load C hload hformat
    exact ⟨bytes, d, rfl, ha, rfl⟩

/-- A file that the store wrote, and that is accepted, has no torn line, and its sequence is the
number of its changes. -/
theorem aligned_of_accepted {now : Instant} {bytes : Bytes} {d : V2Decoder V}
    (h : Accepted C now bytes d) (hproduced : Produced C (some bytes))
    (hseq : journal.sequence = d.sequence) : Aligned C journal (some bytes) := by
  obtain ⟨entries, changes, hnum, hlines⟩ := hproduced bytes rfl
  have hdrawn : ∀ l ∈ changes.map (record_line C), l ∈ ledger_lines C entries changes :=
    fun l hl => mem_cons_of_mem _ hl
  have hcount := (replays_drawn C hnum (h.replays C hlines) hdrawn).2.2
  refine ⟨bytes, entries, changes, rfl, h.whole, hnum, hlines, ?_⟩
  rw [hseq, hcount, length_map]
  exact Nat.zero_add _

/-- **What a ledger consists of**, along every run. -/
theorem written_rule : LedgerRule C (Written C (O := O)) where
  congr h _ hjournal hw := ⟨h.images, by rw [hjournal]; exact fun hw' => h.aligned (hw hw')⟩
  persist fault h := h.persist C fault
  crash h himage := ⟨fun image hi => by rw [mem_singleton.mp hi]; exact h.images _ himage, nofun⟩
  exit h := ⟨h.images, nofun⟩
  load loaded_at validated_at h hjournal := by
    refine ⟨h.images, fun _ hfile _ => ?_⟩
    rw [hjournal] at hfile
    obtain ⟨bytes, d, hbytes, ha, hj⟩ := open_journal_handle C hfile
    rw [hbytes, hjournal, hj]
    exact aligned_of_accepted C ha (h.images _ (by rw [← hbytes]; exact mem_cons_self)) rfl

/-- The worlds that runs lead to that start without a ledger. -/
abbrev ReachedFresh (w : World O) : Prop :=
  Reachable (fun w : World O => Initial w ∧ w.disk = ⟨none, []⟩) (step C) (fun _ _ => True) w

theorem ReachedFresh.written {w : World O} (h : ReachedFresh C w) : Written C w.store w.disk := by
  refine Reachable.invariant (I := fun w => Written C w.store w.disk) (fun w hi => ?_)
    (fun w a w' hw _ hstep => step_ledger (written_rule C) hw hstep) h
  rw [hi.1.store, hi.2]
  refine ⟨fun image himage => ?_, nofun⟩
  rw [mem_singleton.mp himage]
  exact nofun

/-- **A ledger of the store cannot be rearranged.** Take any ledger that runs of the store leave,
whichever writes failed and whenever the machine went down, and any sequence of its lines behind
its header, with omissions, repetitions and in any order. If that loads, it is a prefix of the
ledger, and it loads as what the changes in it had recorded. And no cut inside a change loads. -/
theorem load_of_rearranged_ledger {w : World O} (h : ReachedFresh C w) {bytes : Bytes}
    (hfile : w.disk.file = some bytes) :
    ∃ entries changes, lines bytes = ledger_lines C entries changes ∧
      (∀ ls now loaded, (∀ l ∈ ls, l ∈ lines bytes) →
        load C now (some (header_line C entries :: ls).flatten) = .ok loaded →
        header_line C entries :: ls <+: lines bytes ∧
          loaded.map Loaded.entries = some (recorded entries (changes.take ls.length))) ∧
      (∀ n change k now loaded, changes[n]? = some change → 0 < k →
        k < (record_line C change).length →
        load C now (some ((ledger_lines C entries (changes.take n)).flatten
          ++ (record_line C change).take k)) ≠ .ok loaded) := by
  have hmem : w.disk.file ∈ w.disk.images := mem_cons_self
  obtain ⟨entries, changes, hnum, hlines⟩ := h.written.images _ hmem bytes hfile
  refine ⟨entries, changes, hlines, ?_, ?_⟩
  · intro ls now loaded hdrawn hload
    rw [hlines] at hdrawn ⊢
    obtain ⟨hpre, sha256, n, rfl⟩ := load_rearranged C hnum hdrawn hload
    exact ⟨hpre, rfl⟩
  intro n change k now loaded _ hpos hk
  have hheaded : Headed C (ledger_lines C entries (changes.take n)).flatten := by
    have hall : ∀ l ∈ ledger_lines C entries (changes.take n), IsLine l :=
      fun l hl => isLine_of_mem_ledger_lines C hl
    exact ⟨congrArg Prod.snd (split_lines hall), _, _, _, lines_flatten hall, C.decode_header_line _⟩
  refine hheaded.load_torn C (fun hnil => ?_) ?_ now loaded
  · rw [take_eq_nil_iff] at hnil
    rcases hnil with rfl | hnil
    · omega
    · rw [hnil] at hk
      cases hk
  · rw [record_line, length_append, length_singleton] at hk
    exact newline_notMem_take (C.newline_notMem_record _) (Nat.lt_succ_iff.mp hk)

/-- Open a store without a ledger, reserve a key and abandon it. -/
def reserve_and_abandon : List (Action (CommandOutcome Unit) CommandId) :=
  [.reopen (fun _ => none) 0 0 0 .none, .reserve 0 sample_request 0, .look 0, .acquire 0 .none,
    .abandon 0, .abandon_entry 0, .abandon_persist 0 .none]

/-- The ledger of a key that was reserved and abandoned: a header with the key and a change that
removes it. No sequence of those lines but a prefix loads. -/
theorem load_of_rearranged_ledger_after_abandon :
    ∃ (w : World (CommandOutcome Unit)) (bytes : Bytes),
      run (step command_codec) (World.start .open_durable ⟨none, []⟩ 0)
        reserve_and_abandon = some w ∧ w.disk.file = some bytes ∧ (lines bytes).length = 2 ∧
      ∃ entries, ∀ ls now loaded, (∀ l ∈ ls, l ∈ lines bytes) →
        load command_codec now (some (header_line command_codec entries :: ls).flatten)
          = .ok loaded →
        header_line command_codec entries :: ls <+: lines bytes := by
  obtain ⟨w, hrun, bytes, hfile, htwo⟩ : ∃ w ∈ run (step command_codec)
      (World.start .open_durable ⟨none, []⟩ 0) reserve_and_abandon,
      ∃ bytes ∈ w.disk.file, (lines bytes).length = 2 := by
    decide +kernel
  have hreached : ReachedFresh command_codec w :=
    reachable_of_run (.start ⟨Initial.start ⟨none, []⟩ (by decide), rfl⟩) (fun _ _ _ => trivial) hrun
  obtain ⟨entries, changes, -, hload, -⟩ := load_of_rearranged_ledger _ hreached hfile
  exact ⟨w, bytes, hrun, hfile, htwo, entries,
    fun ls now loaded hdrawn h => (hload ls now loaded hdrawn h).1⟩

end BobbyBrowser.Idempotency
