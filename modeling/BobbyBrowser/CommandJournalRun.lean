/-
The command journal over whole runs.

A run opens the journal, appends, reads histories and opens it again, with
every call free to fail where the file system can fail it: while opening, after
any number of bytes of a line, or in the `metadata` call that closes an append.
The world records on the side which records were attempted and which were
acknowledged, so that what `history` returns can be compared with both.

The comparison fails in one way. When the closing `metadata` call of an append
fails, the line is on disk and in the index but the next sequence number has not
moved. If the write left the modification time as it was, which a coarse clock
allows, `refresh` sees nothing to do and the next append takes the same number.
-/
import BobbyBrowser.CommandJournalFile
import BobbyBrowser.Transition
import BobbyBrowser.Wire

set_option autoImplicit false

namespace BobbyBrowser.CommandJournal

open Lines Jsonl Outcomes Transition List Option

section

variable {X : Type} (C : Codec X) (max_record_bytes : ℕ)

/-! ## Runs -/

/-- The disk, the process's writer if it has the journal open, and what was asked of it. -/
structure World (X : Type) where
  disk : Disk := {}
  writer : Option WriterState := none
  acknowledged : List (JournalRecord X) := []
  attempted : List (JournalRecord X) := []

inductive Action (X : Type)
  /-- `JsonlJournal::open`, in this process or the next. -/
  | open_journal (env : OpenEnv)
  | append (env : AppendEnv) (id : CommandId) (content : X)
  | history (env : HistoryEnv) (id : CommandId)

/-- The record an append tries to write, if its refresh succeeds. -/
def attempt (env : AppendEnv) (id : CommandId) (content : X) (writer : WriterState) (disk : Disk) :
    List (JournalRecord X) :=
  match (refresh C max_record_bytes env.toOpenEnv writer disk).1 with
  | .ok next => [⟨next.next_sequence, id, content⟩]
  | .error _ => []

/-- One step of a run. Only an open journal can be appended to or read. -/
def step (w : World X) : Action X → Option (World X)
  | .open_journal env =>
    let (result, disk) := open_writer C max_record_bytes env w.disk
    some { w with disk := disk, writer := result.toOption }
  | .append env id content =>
    w.writer.map fun writer =>
      let (result, next, disk) := append C max_record_bytes env id content writer w.disk
      let record := attempt C max_record_bytes env id content writer w.disk
      { disk := disk
        writer := some next
        acknowledged := w.acknowledged ++ (if result.isOk then record else [])
        attempted := w.attempted ++ record }
  | .history env id =>
    w.writer.map fun writer =>
      let (_, next, disk) := history C max_record_bytes env id writer w.disk
      { w with disk := disk, writer := some next }

/-- No append fails in its closing `metadata` call while its write leaves the modification time
that the writer remembers. -/
def Distinguishable (w : World X) : Action X → Prop
  | .append env _ _ =>
    ∀ error, env.write = .metadata error → ∀ writer ∈ w.writer, ∀ next : WriterState,
      (refresh C max_record_bytes env.toOpenEnv writer w.disk).1 = .ok next →
        env.written_at ≠ next.modified
  | _ => True

/-- Worlds reached from an empty directory by steps that meet a condition. -/
def ReachedWith (ok : World X → Action X → Prop) : World X → Prop :=
  Reachable (· = {}) (step C max_record_bytes) ok

/-- The scan tells its reader not to rely on the records. -/
def JournalScan.damaged (scan : JournalScan X) : Bool :=
  scan.torn_tail || 0 < scan.incompatible_records

/-- **What a history owes its reader**: it reports damage, or its records are in strictly
increasing sequence, hold every acknowledged record of the command in the order of
acknowledgement, and are all records of the command whose append was attempted. -/
def Faithful (acknowledged attempted : List (JournalRecord X)) (id : CommandId)
    (scan : JournalScan X) : Prop :=
  scan.damaged = true ∨
    (scan.records.Pairwise fun a b => a.sequence < b.sequence) ∧
    (acknowledged.filter fun r => r.command_id = id).Sublist scan.records ∧
    ∀ r ∈ scan.records, r.command_id = id ∧ r ∈ attempted

end

section

variable {X : Type} (C : Codec X) (cap : ℕ)

/-! ## What holds of the file -/

/-- The records whose append was acknowledged, and all whose append was attempted. -/
structure Log (X : Type) where
  acknowledged : List (JournalRecord X)
  attempted : List (JournalRecord X)

/-- The bytes at the journal's path. -/
def Disk.content (disk : Disk) : Bytes := disk.entry.elim [] JournalFile.bytes

/-- Every acknowledged record of a command that no archive reserves is among the records. -/
def Covered (archives : List Bytes) (acknowledged rs : List (JournalRecord X)) : Prop :=
  ∀ id, ¬ Reserved C cap archives id →
    (acknowledged.filter fun r => r.command_id = id).Sublist (rs.filter fun r => r.command_id = id)

/-- The file is records in order with at most one torn line behind them. It holds only attempted
records, and every acknowledged record of a command that no archive reserves. -/
structure Kept (disk : Disk) (log : Log X) (rs : List (JournalRecord X)) (t : Bytes) : Prop where
  content : disk.content = C.text rs ++ t
  ordered : Ordered C cap rs
  torn : newline ∉ t
  attempted : ∀ r ∈ rs, r ∈ log.attempted
  acknowledged : Covered C cap disk.archives log.acknowledged rs
  fresh : ∀ file ∈ disk.entry, file.identity < disk.fresh

/-- The writer's view is that of the file and the archives. -/
structure Synced (disk : Disk) (rs : List (JournalRecord X)) (t : Bytes) (writer : WriterState) :
    Prop where
  whole : t = []
  next_sequence : ∀ r ∈ rs, r.sequence < writer.next_sequence
  offsets : writer.offsets = index_from C 0 rs
  archives : writer.archives = disk.archives.length
  archived_offsets : writer.archived_offsets = (scan_archives C cap 0 disk.archives {}).offsets
  archived_torn_tail : writer.archived_torn_tail
    = (scan_archives C cap 0 disk.archives {}).torn_tail
  archived_incompatible_records : writer.archived_incompatible_records
    = (scan_archives C cap 0 disk.archives {}).incompatible_records

/-- A writer that still knows the entry has the right view of it. -/
structure Tracks (disk : Disk) (rs : List (JournalRecord X)) (t : Bytes) (writer : WriterState) :
    Prop where
  identity : writer.identity < disk.fresh
  synced : disk.entry.any writer.knows = true → Synced C cap disk rs t writer

/-- The invariant of a run. -/
def Consistent (w : World X) : Prop :=
  ∃ (rs : List (JournalRecord X)) (t : Bytes),
    Kept C cap w.disk ⟨w.acknowledged, w.attempted⟩ rs t ∧
    ∀ writer ∈ w.writer, Tracks C cap w.disk rs t writer

variable {C cap}
variable {disk : Disk} {log : Log X} {rs : List (JournalRecord X)} {t : Bytes}

/-! ## The file system's steps -/

variable {writer : WriterState} {file : JournalFile}

theorem knows_iff :
    writer.knows file = true ↔ file.identity = writer.identity ∧
      file.bytes.length = writer.file_len ∧ file.modified = writer.modified := by
  simp only [WriterState.knows, Bool.and_eq_true, decide_eq_true_eq, and_assoc]

theorem any_knows_iff {disk : Disk} :
    disk.entry.any writer.knows = true ↔
      ∃ file, disk.entry = some file ∧ writer.knows file = true := by
  cases disk.entry <;> simp

theorem open_entry_entry (disk : Disk) (created : ℕ) :
    (disk.open_entry created).2.entry = some (disk.open_entry created).1 := by
  cases h : disk.entry with
  | none | some => simp only [Disk.open_entry, h]

theorem open_entry_archives (disk : Disk) (created : ℕ) :
    (disk.open_entry created).2.archives = disk.archives := by
  cases h : disk.entry with
  | none | some => simp only [Disk.open_entry, h]

theorem open_entry_content (disk : Disk) (created : ℕ) :
    (disk.open_entry created).2.content = disk.content := by
  cases h : disk.entry with
  | none | some => simp only [Disk.open_entry, Disk.content, h, Option.elim]

/-- Creating an empty file where there is none changes nothing that is kept. -/
theorem Kept.open_entry (h : Kept C cap disk log rs t) (created : ℕ) :
    Kept C cap (disk.open_entry created).2 log rs t where
  content := (open_entry_content disk created).trans h.content
  ordered := h.ordered
  torn := h.torn
  attempted := h.attempted
  acknowledged := by
    rw [open_entry_archives]
    exact h.acknowledged
  fresh := by
    intro file hfile
    cases hd : disk.entry with
    | none =>
      simp only [Disk.open_entry, hd, mem_def, some.injEq] at hfile ⊢
      rw [← hfile]
      exact Nat.lt_succ_self _
    | some other =>
      simp only [Disk.open_entry, hd] at hfile ⊢
      exact h.fresh file (hd ▸ hfile)

/-- A writer that tracks the file still does when an empty one is created. -/
theorem Tracks.open_entry (h : Tracks C cap disk rs t writer)
    (created : ℕ) : Tracks C cap (disk.open_entry created).2 rs t writer := by
  cases hd : disk.entry with
  | none =>
    refine ⟨?_, ?_⟩
    · simp only [Disk.open_entry, hd]
      exact Nat.lt_succ_of_lt h.identity
    · intro hknows
      simp only [Disk.open_entry, hd, any_some] at hknows
      have hsame : disk.fresh = writer.identity := (knows_iff.mp hknows).1
      exact absurd h.identity (by omega)
  | some file =>
    have hsame : (disk.open_entry created).2 = disk := by simp only [Disk.open_entry, hd]
    rw [hsame]
    exact h

/-- **Archiving keeps everything**: the commands of the file become reserved. -/
theorem Kept.archive (h : Kept C cap disk log rs t) :
    Kept C cap disk.archive_damaged_journal log [] [] := by
  cases hd : disk.entry with
  | none =>
    -- nothing to rename, and then nothing was in the file
    have hsame : disk.archive_damaged_journal = disk := by
      simp only [Disk.archive_damaged_journal, hd]
    have hempty : C.text rs ++ t = [] := by
      rw [← h.content, Disk.content, hd]
      rfl
    have hrs : rs = [] := by
      cases rs with
      | nil => rfl
      | cons r rs => simp [Codec.text, Codec.line] at hempty
    subst hrs
    have ht : t = [] := hempty
    subst ht
    rw [hsame]
    exact h
  | some file =>
    have hbytes : file.bytes = C.text rs ++ t := by
      rw [← h.content, Disk.content, hd]
      rfl
    have harchived : disk.archive_damaged_journal
        = { disk with entry := none, archives := disk.archives ++ [file.bytes] } := by
      simp only [Disk.archive_damaged_journal, hd]
    rw [harchived]
    refine ⟨rfl, .nil, not_mem_nil, forall_mem_nil _, ?_, fun _ hfile => by cases hfile⟩
    intro id hid
    -- the command has no record in the file, or the archive would reserve it
    have hnone : rs.filter (fun r => r.command_id = id) = [] := by
      rw [filter_eq_nil_iff]
      intro r hr hrid
      rw [decide_eq_true_eq] at hrid
      rw [hbytes, ← hrid] at hid
      exact hid (reserved_of_mem disk.archives h.ordered t hr)
    have hbefore := h.acknowledged id (fun hres => hid (hres.append _))
    rwa [hnone] at hbefore

theorem Tracks.archive (h : Tracks C cap disk rs t writer) (hd : disk.entry.isSome) :
    Tracks C cap disk.archive_damaged_journal [] [] writer := by
  obtain ⟨file, hfile⟩ := isSome_iff_exists.mp hd
  simp only [Disk.archive_damaged_journal, hfile]
  exact ⟨h.identity, nofun⟩

theorem archive_archives (h : disk.entry.isSome) :
    disk.archive_damaged_journal.archives = disk.archives ++ [disk.content] := by
  obtain ⟨file, hfile⟩ := isSome_iff_exists.mp h
  simp only [Disk.archive_damaged_journal, Disk.content, hfile, Option.elim]

/-! ## Opening -/

/-- What an open may do to the file: it leaves it as it is, or renames it away when it is torn. -/
inductive Turned (disk : Disk) (rs : List (JournalRecord X)) (t : Bytes) :
    Disk → List (JournalRecord X) → Bytes → Prop
  | same {disk' : Disk} (harchives : disk'.archives = disk.archives) : Turned disk rs t disk' rs t
  | archived {disk' : Disk} (htorn : t ≠ [])
      (harchives : disk'.archives = disk.archives ++ [disk.content]) :
      Turned disk rs t disk' [] []

/-- What an open leaves behind: the file is kept, writers from before still track
it, and the writer it returns knows it. -/
structure Opened (C : Codec X) (cap : ℕ) (disk : Disk)
    (log : Log X) (rs : List (JournalRecord X)) (t : Bytes)
    (r : Except JournalError WriterState × Disk) : Prop where
  kept : ∃ (rs' : List (JournalRecord X)) (t' : Bytes),
    Turned disk rs t r.2 rs' t' ∧ Kept C cap r.2 log rs' t' ∧
    (∀ old, Tracks C cap disk rs t old → Tracks C cap r.2 rs' t' old) ∧
    ∀ writer, r.1 = .ok writer → Tracks C cap r.2 rs' t' writer ∧ r.2.entry.any writer.knows = true

theorem writer_of_knows (hd : disk.entry = some file)
    (offsets : Index IndexedRecord) (next_sequence : ℕ) :
    disk.entry.any (writer_of C cap disk file offsets next_sequence).knows = true := by
  simp [hd, WriterState.knows, writer_of]

variable {next_sequence : ℕ}

theorem writer_of_tracks (h : Kept C cap disk log rs []) (hd : disk.entry = some file)
    (hnext : ∀ r ∈ rs, r.sequence < next_sequence) :
    Tracks C cap disk rs []
      (writer_of C cap disk file (index_from C 0 rs) next_sequence) :=
  ⟨h.fresh file hd, fun _ => ⟨rfl, hnext, rfl, rfl, rfl, rfl, rfl⟩⟩

/-- The end of an open, with a whole file: the writer that comes of it tracks that file. -/
theorem finish_open_opened {before : Disk} {rs₀ : List (JournalRecord X)} {t₀ : Bytes}
    (hturned : Turned before rs₀ t₀ disk rs []) (h : Kept C cap disk log rs [])
    (hold : ∀ old, Tracks C cap before rs₀ t₀ old → Tracks C cap disk rs [] old)
    (hd : disk.entry = some file) (env : OpenEnv)
    (hnext : ∀ r ∈ rs, r.sequence < next_sequence) :
    Opened C cap before log rs₀ t₀
      (finish_open C cap env disk file (index_from C 0 rs) next_sequence) := by
  rw [finish_open]
  split
  · exact ⟨rs, [], hturned, h, hold, nofun⟩
  · refine ⟨rs, [], hturned, h, hold, ?_⟩
    intro writer hw
    cases hw
    exact ⟨writer_of_tracks h hd hnext, writer_of_knows hd _ _⟩

/-- The next number is above those of all records, since they ascend. -/
theorem lt_next_sequence (hrs : Ordered C cap rs) {r : JournalRecord X} (hr : r ∈ rs) :
    r.sequence < (rs.getLast?.map JournalRecord.sequence).elim 0 (· + 1) := by
  have hne : rs ≠ [] := ne_nil_of_mem hr
  rw [getLast?_eq_some_getLast hne]
  have hsplit := dropLast_append_getLast hne
  have hinc := hrs.increasing
  rw [← hsplit] at hr hinc
  rcases mem_append.mp hr with hr | hr
  · exact Nat.lt_succ_of_lt
      ((pairwise_append.mp hinc).2.2 r hr _ (mem_singleton_self _))
  · rw [mem_singleton.mp hr]
    exact Nat.lt_succ_self _

/-- **Opening keeps the journal**, wherever it fails. -/
theorem open_writer_opened (h : Kept C cap disk log rs t) (env : OpenEnv) :
    Opened C cap disk log rs t
      (open_writer C cap env disk) := by
  have hopen := h.open_entry env.created
  have hfile := open_entry_entry disk env.created
  have hold : ∀ old, Tracks C cap disk rs t old →
      Tracks C cap (disk.open_entry env.created).2 rs t old :=
    fun old hold => hold.open_entry env.created
  rw [open_writer]
  split
  · exact ⟨rs, t, .same rfl, h, fun _ hold => hold, nofun⟩
  have harchives := open_entry_archives disk env.created
  simp only
  split
  · exact ⟨rs, t, .same harchives, hopen, hold, nofun⟩
  have hbytes : (disk.open_entry env.created).1.bytes = C.text rs ++ t := by
    rw [← hopen.content, Disk.content, hfile]
    rfl
  rw [hbytes]
  by_cases ht : t = []
  · subst ht
    obtain ⟨scan, hscan, hclean, hmax, hindex⟩ := scan_file_text h.ordered
    rw [append_nil, hscan]
    simp only [hclean, Bool.false_eq_true, if_false, hmax, hindex]
    exact finish_open_opened (.same harchives) hopen hold hfile env
      fun r hr => lt_next_sequence h.ordered hr
  -- a torn file is renamed away, and a fresh one takes its place
  obtain ⟨scan, hscan, hdamaged⟩ := scan_file_torn h.ordered h.torn ht
  rw [hscan]
  simp only [hdamaged, if_true]
  have hsome : (disk.open_entry env.created).2.entry.isSome = true := by
    rw [hfile]
    rfl
  have harchive := hopen.archive
  have hrenamed : (disk.open_entry env.created).2.archive_damaged_journal.archives
      = disk.archives ++ [disk.content] := by
    rw [archive_archives hsome, harchives, open_entry_content]
  have hold' : ∀ old, Tracks C cap disk rs t old →
      Tracks C cap (disk.open_entry env.created).2.archive_damaged_journal [] []
        old := fun old htrack => (hold old htrack).archive hsome
  split
  · exact ⟨[], [], .archived ht hrenamed, harchive, hold', nofun⟩
  · exact finish_open_opened (.archived ht ((open_entry_archives _ _).trans hrenamed))
      (harchive.open_entry env.created)
      (fun old htrack => (hold' old htrack).open_entry env.created) (open_entry_entry _ _) env
      (forall_mem_nil _)

/-! ## Writing a line -/

theorem content_write (hd : disk.entry = some file) (bytes : Bytes)
    (written_at : ℕ) : (disk.write bytes written_at).content = disk.content ++ bytes := by
  rw [Disk.write]
  split
  · rename_i h
    rw [h, append_nil]
  · simp [Disk.content, hd]

theorem archives_write (disk : Disk) (bytes : Bytes) (written_at : ℕ) :
    (disk.write bytes written_at).archives = disk.archives := by
  rw [Disk.write]
  split <;> rfl

theorem fresh_write (bytes : Bytes) (written_at : ℕ) :
    (disk.write bytes written_at).fresh = disk.fresh := by
  rw [Disk.write]
  split <;> rfl

variable {bytes : Bytes}

theorem entry_write (hd : disk.entry = some file) (hne : bytes ≠ []) (written_at : ℕ) :
    (disk.write bytes written_at).entry
      = some { file with bytes := file.bytes ++ bytes, modified := written_at } := by
  rw [Disk.write, if_neg hne, hd]
  rfl

/-- Bytes that make another ordered file of what is there keep it, for the log they stand for. -/
theorem Kept.write (h : Kept C cap disk log rs []) (hd : disk.entry = some file) (written_at : ℕ)
    {log' : Log X} {rs' : List (JournalRecord X)} {t' : Bytes}
    (hcontent : C.text rs ++ bytes = C.text rs' ++ t') (hrs : Ordered C cap rs')
    (ht : newline ∉ t') (hatt : ∀ r ∈ rs', r ∈ log'.attempted)
    (hack : Covered C cap disk.archives log'.acknowledged rs') :
    Kept C cap (disk.write bytes written_at) log' rs' t' where
  content := by
    rw [content_write hd, h.content, append_nil, hcontent]
  ordered := hrs
  torn := ht
  attempted := hatt
  acknowledged := by
    rw [archives_write]
    exact hack
  fresh := by
    intro other hother
    rw [fresh_write]
    by_cases hne : bytes = []
    · rw [Disk.write, if_pos hne] at hother
      exact h.fresh other hother
    · rw [entry_write hd hne, mem_some_iff] at hother
      rw [← hother]
      exact h.fresh file hd

theorem not_knows_write (hd : disk.entry = some file)
    (hknows : disk.entry.any writer.knows) (hne : bytes ≠ [])
    (written_at : ℕ) : (disk.write bytes written_at).entry.any writer.knows = false := by
  rw [Bool.eq_false_iff]
  intro hgrown
  rw [hd, any_some, knows_iff] at hknows
  rw [entry_write hd hne, any_some, knows_iff, length_append] at hgrown
  have := length_pos_of_ne_nil hne
  omega

/-- Everything an append may rely on once its refresh has succeeded. -/
structure Ready (C : Codec X) (cap : ℕ) (disk : Disk)
    (log : Log X) (rs : List (JournalRecord X)) (writer : WriterState)
    (file : JournalFile) : Prop where
  kept : Kept C cap disk log rs []
  entry : disk.entry = some file
  knows : disk.entry.any writer.knows = true
  tracks : Tracks C cap disk rs [] writer

section

variable (h : Kept C cap disk log rs t) (hw : Tracks C cap disk rs t writer)

include h hw

theorem ready_of_knows
    (hknows : disk.entry.any writer.knows) :
    t = [] ∧ ∃ file, Ready C cap disk log rs writer file := by
  obtain ⟨file, hfile, -⟩ := any_knows_iff.mp hknows
  have ht := (hw.synced hknows).whole
  subst ht
  exact ⟨rfl, file, h, hfile, hknows, hw⟩

/-- **A refresh keeps the journal**: it fails, and its writer still tracks the file, or what it
returns can be appended to. -/
theorem refresh_cases (env : OpenEnv) :
    (∃ e disk' rs' t', refresh C cap env writer disk = (.error e, disk') ∧
      Turned disk rs t disk' rs' t' ∧ Kept C cap disk' log rs' t' ∧
      Tracks C cap disk' rs' t' writer) ∨
    ∃ next disk' rs' file, refresh C cap env writer disk = (.ok next, disk') ∧
      Turned disk rs t disk' rs' [] ∧ Ready C cap disk' log rs' next file := by
  rw [refresh]
  split
  · exact .inl ⟨_, _, rs, t, rfl, .same rfl, h, hw⟩
  split
  · rename_i hknows
    obtain ⟨rfl, file, hready⟩ := ready_of_knows h hw hknows
    exact .inr ⟨writer, disk, rs, file, rfl, .same rfl, hready⟩
  obtain ⟨rs', t', hturned, hkept, hold, hnew⟩ := (open_writer_opened h env).kept
  rcases hr : open_writer C cap env disk with ⟨result, disk'⟩
  rw [hr] at hturned hkept hold hnew
  cases result with
  | error e => exact .inl ⟨e, disk', rs', t', rfl, hturned, hkept, hold writer hw⟩
  | ok next =>
    obtain ⟨htracks, hknows⟩ := hnew next rfl
    obtain ⟨rfl, file, hready⟩ := ready_of_knows hkept htracks hknows
    exact .inr ⟨next, disk', rs', file, rfl, hturned, hready⟩

end

/-- How the write of a record ends: it stands behind the others, or a part of its line does, which
may be none of it. -/
inductive Adds (rs : List (JournalRecord X)) (r : JournalRecord X) :
    Except JournalError Unit → List (JournalRecord X) → Bytes → Prop
  | stored : Adds rs r (.ok ()) (rs ++ [r]) []
  | whole (e : JournalError) : Adds rs r (.error e) (rs ++ [r]) []
  | part (e : JournalError) {t : Bytes} : Adds rs r (.error e) rs t

namespace Ready

variable {writer : WriterState} {file : JournalFile} {r : JournalRecord X}
  (h : Ready C cap disk log rs writer file)

include h

theorem synced : Synced C cap disk rs [] writer := h.tracks.synced h.knows

theorem reserved_iff {id : CommandId} :
    writer.archived_offsets.contains_key id = true ↔ Reserved C cap disk.archives id := by
  rw [h.synced.archived_offsets]
  rfl

theorem file_len : writer.file_len = (C.text rs).length := by
  have hknows := h.knows
  have hcontent := h.kept.content
  rw [Disk.content, h.entry, append_nil] at hcontent
  rw [h.entry, any_some, knows_iff] at hknows
  rw [← hknows.2.1, ← hcontent]
  rfl

theorem ordered_append (hseq : r.sequence = writer.next_sequence) {next : ℕ}
    (hnext : checked_succ writer.next_sequence = some next)
    (hfit : (C.line r).length ≤ cap) : Ordered C cap (rs ++ [r]) := by
  apply h.kept.ordered.append _ _ hfit
  · intro a ha
    rw [hseq]
    exact h.synced.next_sequence a ha
  · have hlast := (checked_succ_eq_some hnext).2
    omega

theorem acknowledged_append : Covered C cap disk.archives log.acknowledged (rs ++ [r]) := by
  intro id hid
  rw [filter_append]
  exact (h.kept.acknowledged id hid).trans (sublist_append_left _ _)

/-- **The whole line is in the file**: it is kept with the record behind the others. -/
theorem kept_line (hrs : Ordered C cap (rs ++ [r])) (written_at : ℕ)
    {acknowledged : List (JournalRecord X)}
    (hack : Covered C cap disk.archives acknowledged (rs ++ [r])) :
    Kept C cap (disk.write (C.line r) written_at) ⟨acknowledged, log.attempted ++ [r]⟩
      (rs ++ [r]) [] := by
  refine h.kept.write h.entry written_at ?_ hrs not_mem_nil ?_ hack
  · rw [text_append, append_nil]
  · intro a ha
    rcases mem_append.mp ha with ha | ha
    · exact mem_append_left _ (h.kept.attempted a ha)
    · exact mem_append_right _ ha

/-- **A part of the line is in the file**: it is torn, or the whole line after all. -/
theorem kept_part (hrs : Ordered C cap (rs ++ [r])) (written written_at : ℕ) (e : JournalError) :
    ∃ (rs' : List (JournalRecord X)) (t' : Bytes), Adds rs r (.error e) rs' t' ∧
      Kept C cap (disk.write ((C.line r).take written) written_at)
        ⟨log.acknowledged, log.attempted ++ [r]⟩ rs' t' ∧
      Tracks C cap (disk.write ((C.line r).take written) written_at) rs' t'
        writer := by
  by_cases hall : (C.record_bytes r).length < written
  · -- every byte is there, the newline included
    have htake : (C.line r).take written = C.line r := take_line_of_length_lt hall
    have hne : C.line r ≠ [] := by simp [Codec.line]
    rw [htake]
    refine ⟨rs ++ [r], [], .whole e, h.kept_line hrs written_at h.acknowledged_append, ?_, ?_⟩
    · rw [fresh_write]
      exact h.tracks.identity
    · rw [not_knows_write h.entry h.knows hne]
      rintro ⟨⟩
  have htorn : newline ∉ (C.line r).take written :=
    newline_notMem_take (C.newline_notMem_record r) (by omega)
  refine ⟨rs, (C.line r).take written, .part e, ?_, ?_, ?_⟩
  · refine h.kept.write h.entry written_at rfl h.kept.ordered htorn ?_ h.kept.acknowledged
    exact fun a ha => mem_append_left _ (h.kept.attempted a ha)
  · rw [fresh_write]
    exact h.tracks.identity
  intro hknows
  by_cases hnone : (C.line r).take written = []
  · -- not a byte was written
    rw [hnone, Disk.write, if_pos rfl]
    exact h.synced
  · rw [not_knows_write h.entry h.knows hnone] at hknows
    cases hknows

end Ready

/-! ## Append -/

/-- What an append does to the file: its refresh fails, or is followed by the write of a record,
which is refused when an archive reserves the command. -/
inductive Ends (C : Codec X) (cap : ℕ) (disk : Disk) (rs : List (JournalRecord X)) (t : Bytes) :
    List (JournalRecord X) → Except JournalError Unit × WriterState × Disk →
      List (JournalRecord X) → Bytes → Prop
  | unrefreshed {e : JournalError} {writer : WriterState} {disk' : Disk}
      {rs' : List (JournalRecord X)} {t' : Bytes} (hturned : Turned disk rs t disk' rs' t') :
      Ends C cap disk rs t [] (.error e, writer, disk') rs' t'
  | reserved {r : JournalRecord X} {writer : WriterState} {disk' : Disk}
      {rs' : List (JournalRecord X)} (hturned : Turned disk rs t disk' rs' [])
      (hreserved : Reserved C cap disk'.archives r.command_id) :
      Ends C cap disk rs t [r] (.error .uncertain_command, writer, disk') rs' []
  | written {r : JournalRecord X} {disk₁ : Disk} {rs₁ rs' : List (JournalRecord X)} {t' : Bytes}
      {out : Except JournalError Unit × WriterState × Disk}
      (hturned : Turned disk rs t disk₁ rs₁ [])
      (hfree : ¬Reserved C cap disk₁.archives r.command_id) (hadds : Adds rs₁ r out.1 rs' t')
      (harchives : out.2.2.archives = disk₁.archives) : Ends C cap disk rs t [r] out rs' t'

/-- What an append leaves behind, with what it adds to the record of the run. -/
def Appended (C : Codec X) (cap : ℕ) (log : Log X) (record : List (JournalRecord X))
    (out : Except JournalError Unit × WriterState × Disk)
    (ends : List (JournalRecord X) → Bytes → Prop) : Prop :=
  ∃ (rs' : List (JournalRecord X)) (t' : Bytes), ends rs' t' ∧ Kept C cap out.2.2
      ⟨log.acknowledged ++ (if out.1.isOk then record else []), log.attempted ++ record⟩ rs' t' ∧
    Tracks C cap out.2.2 rs' t' out.2.1

theorem Kept.more_attempted (h : Kept C cap disk log rs t) (record : List (JournalRecord X)) :
    Kept C cap disk ⟨log.acknowledged, log.attempted ++ record⟩ rs t :=
  { h with attempted := fun r hr => mem_append_left _ (h.attempted r hr) }

theorem acknowledged_of_error (acknowledged record : List (JournalRecord X)) (e : JournalError) :
    acknowledged ++ (if (Except.error e : Except JournalError Unit).isOk then record else [])
      = acknowledged :=
  append_nil acknowledged

theorem appended_of_refused (h : Kept C cap disk log rs t)
    (hw : Tracks C cap disk rs t writer) (e : JournalError) (record : List (JournalRecord X))
    {ends : List (JournalRecord X) → Bytes → Prop} (hends : ends rs t) :
    Appended C cap log record (.error e, writer, disk) ends := by
  refine ⟨rs, t, hends, ?_, hw⟩
  rw [acknowledged_of_error]
  exact h.more_attempted record

/-- **The write of a line**, however it ends, as long as a failed `metadata` call leaves a trace in
the modification time. -/
theorem Ready.write_record (h : Ready C cap disk log rs writer file) {env : AppendEnv}
    (hmeta : ∀ e, env.write = .metadata e → env.written_at ≠ writer.modified) {next : ℕ}
    (hnext : checked_succ writer.next_sequence = some next) (id : CommandId) (content : X)
    (hfit : (C.line ⟨writer.next_sequence, id, content⟩).length ≤ cap) :
    let out := write_record C env next id (C.line ⟨writer.next_sequence, id, content⟩) writer disk
    out.2.2.archives = disk.archives ∧
      Appended C cap log [⟨writer.next_sequence, id, content⟩] out
        (Adds rs ⟨writer.next_sequence, id, content⟩ out.1) := by
  have hrs := h.ordered_append (r := ⟨writer.next_sequence, id, content⟩) rfl hnext hfit
  generalize hr : (⟨writer.next_sequence, id, content⟩ : JournalRecord X) = r at *
  have hne : C.line r ≠ [] := by simp [Codec.line]
  have hentry := entry_write h.entry hne env.written_at
  dsimp only
  rw [CommandJournal.write_record]
  cases hwrite : env.write with
  | write written e =>
    -- some first part of the line is in the file, and it may be all of it
    obtain ⟨rs', t', hadds, hkept, htracks⟩ := h.kept_part hrs written env.written_at (.io e)
    refine ⟨archives_write .., rs', t', hadds, ?_, htracks⟩
    rw [acknowledged_of_error]
    exact hkept
  | metadata e =>
    refine ⟨archives_write .., rs ++ [r], [], .whole _, ?_, ?_, ?_⟩
    · rw [acknowledged_of_error]
      exact h.kept_line hrs env.written_at h.acknowledged_append
    · rw [fresh_write]
      exact h.tracks.identity
    · -- the writer has moved with the file, so only the time can tell that it failed
      intro hknows
      simp only [hentry, any_some, knows_iff] at hknows
      exact absurd hknows.2.2 (hmeta e hwrite)
  | none =>
    refine ⟨archives_write .., rs ++ [r], [], .stored, ?_, ?_, ?_⟩
    · refine h.kept_line hrs env.written_at ?_
      intro other hother
      simp only [Except.isOk, Except.toBool, if_true, filter_append]
      exact (h.kept.acknowledged other hother).append (Sublist.refl _)
    · rw [fresh_write]
      exact h.tracks.identity
    intro _
    have harchives := archives_write disk (C.line r) env.written_at
    refine ⟨rfl, ?_, ?_, ?_, ?_, ?_, ?_⟩
    · -- the new record took the number below `next`, the others are below it
      intro a ha
      have hsucc := (checked_succ_eq_some hnext).1
      change a.sequence < next
      rcases mem_append.mp ha with ha | ha
      · have := h.synced.next_sequence a ha
        omega
      · rw [mem_singleton.mp ha, ← hr, hsucc]
        exact Nat.lt_succ_self _
    · rw [index_from_append, ← h.synced.offsets, h.file_len, Nat.zero_add, ← hr]
    · rw [harchives]
      exact h.synced.archives
    · rw [harchives]
      exact h.synced.archived_offsets
    · change writer.archived_torn_tail
        = (scan_archives _ _ _ (disk.write _ _).archives _).torn_tail
      rw [harchives]
      exact h.synced.archived_torn_tail
    · change writer.archived_incompatible_records
        = (scan_archives _ _ _ (disk.write _ _).archives _).incompatible_records
      rw [harchives]
      exact h.synced.archived_incompatible_records

theorem serialize_ok {record : JournalRecord X} (h : serialize C cap record = .ok bytes) :
    bytes = C.line record ∧ (C.line record).length ≤ cap := by
  rw [serialize] at h
  split at h
  · nomatch h
  · split at h
    · nomatch h
    · rename_i hfit
      exact ⟨(Except.ok.inj h).symm, Nat.le_of_not_lt hfit⟩

/-- **One append**, whatever fails in it: the file is refreshed, then refuses a reserved command or
gets some of the line. A failed `metadata` call is assumed to leave a trace in the time of the
file. -/
theorem append_appended (h : Kept C cap disk log rs t)
    (hw : Tracks C cap disk rs t writer) {env : AppendEnv}
    (hmeta : ∀ e, env.write = .metadata e → ∀ next : WriterState,
      (refresh C cap env.toOpenEnv writer disk).1 = .ok next →
        env.written_at ≠ next.modified) (id : CommandId) (content : X) :
    Appended C cap log
      (attempt C cap env id content writer disk)
      (append C cap env id content writer disk)
      (Ends C cap disk rs t (attempt C cap env id content writer disk)
        (append C cap env id content writer disk)) := by
  rw [append, attempt]
  obtain ⟨e, disk', rs', t', hr, hturned, hkept, htracks⟩ |
    ⟨next, disk', rs', file, hr, hturned, hready⟩ := refresh_cases h hw env.toOpenEnv
  · rw [hr]
    exact appended_of_refused hkept htracks e [] (.unrefreshed hturned)
  rw [hr] at hmeta ⊢
  simp only
  split
  · rename_i hkey
    exact appended_of_refused hready.kept hready.tracks _ _
      (.reserved hturned (hready.reserved_iff.mp hkey))
  rename_i hkey
  have hfree : ¬Reserved C cap disk'.archives id := fun hres => hkey (hready.reserved_iff.mpr hres)
  split
  · exact appended_of_refused hready.kept hready.tracks _ _ (.written hturned hfree (.part _) rfl)
  rename_i succ hsucc
  split
  · exact appended_of_refused hready.kept hready.tracks _ _ (.written hturned hfree (.part _) rfl)
  rename_i bytes hbytes
  obtain ⟨rfl, hfit⟩ := serialize_ok hbytes
  obtain ⟨harchives, rs₂, t₂, hadds, hkept, htracks⟩ :=
    hready.write_record (fun e he => hmeta e he next rfl) hsucc id content hfit
  exact ⟨rs₂, t₂, .written hturned hfree hadds harchives, hkept, htracks⟩

/-! ## History -/

variable {scan : JournalScan X}

theorem archived_history_damaged {env : HistoryEnv} {id : CommandId} (hne : writer.archives ≠ 0)
    (h : archived_history C env id writer disk = .ok scan) : scan.damaged = true := by
  rw [archived_history] at h
  split at h
  · nomatch h
  · rw [if_neg hne] at h
    cases h
    simp [JournalScan.damaged]

namespace Ready

variable {writer : WriterState} {file : JournalFile} {id : CommandId}
  (h : Ready C cap disk log rs writer file)

include h

theorem read_indexed_records (id : CommandId) :
    read_indexed_records C disk.content id (writer.offsets.entries id)
      = some (rs.filter fun r => r.command_id = id) := by
  have hbound : ∀ r ∈ rs, r.sequence ≤ u64_max := fun r hr => (h.kept.ordered.bounded r hr).le
  rw [h.kept.content, h.synced.offsets]
  exact read_indexed_records_text id hbound [] []

/-- The records of the file are a faithful history of a command that is not reserved. -/
theorem faithful_records (hfree : writer.archived_offsets.contains_key id = false) :
    Faithful log.acknowledged log.attempted id { records := rs.filter fun r => r.command_id = id } := by
  refine .inr ⟨h.kept.ordered.increasing.filter _, ?_, ?_⟩
  · apply h.kept.acknowledged
    rw [← h.reserved_iff, hfree]
    nofun
  · intro r hr
    obtain ⟨hr, hid⟩ := mem_filter.mp hr
    exact ⟨of_decide_eq_true hid, h.kept.attempted r hr⟩

/-- So is what the archives say of one that is reserved or has no record in the file. -/
theorem faithful_archived {env : HistoryEnv}
    (hnot : (writer.offsets.contains_key id && !writer.archived_offsets.contains_key id) ≠ true)
    (hscan : archived_history C env id writer disk = .ok scan) :
    Faithful log.acknowledged log.attempted id scan := by
  by_cases hnone : writer.archives = 0
  · -- no archive, so the command has no record in the file either
    have hempty : disk.archives = [] := by
      rw [h.synced.archives] at hnone
      exact length_eq_zero_iff.mp hnone
    have hfree : writer.archived_offsets = [] := by
      rw [h.synced.archived_offsets, hempty]
      rfl
    have hno : rs.filter (fun r => r.command_id = id) = [] := by
      rw [filter_eq_nil_iff]
      intro r hr hid
      apply hnot
      rw [hfree, h.synced.offsets, (contains_key_index_from C).mpr ⟨r, hr, of_decide_eq_true hid⟩]
      rfl
    have hkey : writer.archived_offsets.contains_key id = false := by
      rw [hfree]
      rfl
    have hfaithful := h.faithful_records hkey
    rw [hno] at hfaithful
    rw [archived_history, hfree] at hscan
    simp only [Index.entries, filter_nil, map_nil, foldl_nil, hnone, if_true]
      at hscan
    have hrecords : scan.records = [] := by
      split at hscan
      · cases hscan
      · rw [← Except.ok.inj hscan]
    rcases hfaithful with hdamaged | hfaithful
    · cases hdamaged
    · refine .inr ?_
      rw [hrecords]
      exact hfaithful
  · exact .inl (archived_history_damaged hnone hscan)

end Ready

/-- **What a history returns** from a file that is kept is faithful, and the file stays kept. -/
theorem history_spec (h : Kept C cap disk log rs t)
    (hw : Tracks C cap disk rs t writer) (env : HistoryEnv) (id : CommandId) :
    (∃ rs' t', Kept C cap (history C cap env id writer disk).2.2
        log rs' t' ∧ Tracks C cap (history C cap env id writer disk).2.2 rs' t'
        (history C cap env id writer disk).2.1) ∧
    ∀ scan, (history C cap env id writer disk).1 = .ok scan →
      Faithful log.acknowledged log.attempted id scan := by
  rw [history]
  obtain ⟨e, disk', rs', t', hr, -, hkept, htracks⟩ | ⟨next, disk', rs', file, hr, -, hready⟩ :=
    refresh_cases h hw env.refresh
  · rw [hr]
    exact ⟨⟨rs', t', hkept, htracks⟩, nofun⟩
  rw [hr]
  simp only
  split
  · rename_i hindexed
    rw [Bool.and_eq_true, Bool.not_eq_true'] at hindexed
    split
    · exact ⟨⟨rs', [], hready.kept, hready.tracks⟩, nofun⟩
    have hread := hready.read_indexed_records id
    rw [Disk.content] at hread
    rw [hread]
    refine ⟨⟨rs', [], hready.kept, hready.tracks⟩, ?_⟩
    intro scan hscan
    cases hscan
    exact hready.faithful_records hindexed.2
  · rename_i hnot
    exact ⟨⟨rs', [], hready.kept, hready.tracks⟩,
      fun scan hscan => hready.faithful_archived hnot hscan⟩

/-! ## Runs -/

/-- **One step of the journal** keeps file, writer and history consistent, if a failed `metadata`
call can be told. -/
theorem Consistent.step {w w' : World X} (h : Consistent C cap w) {action : Action X}
    (hok : Distinguishable C cap w action) (hs : CommandJournal.step C cap w action = some w') :
    Consistent C cap w' := by
  obtain ⟨rs, t, hkept, htracks⟩ := h
  cases action with
  | open_journal env =>
    obtain ⟨rs', t', -, hkept', -, hnew⟩ := (open_writer_opened hkept env).kept
    rcases hr : open_writer C cap env w.disk with ⟨result, disk'⟩
    rw [hr] at hkept' hnew
    rw [CommandJournal.step, hr] at hs
    obtain rfl := some.inj hs
    refine ⟨rs', t', hkept', ?_⟩
    intro writer hwriter
    cases result with
    | error e => nomatch hwriter
    | ok next =>
      obtain rfl := mem_some_iff.mp hwriter
      exact (hnew next rfl).1
  | append env id content =>
    obtain ⟨writer, hwriter, rfl⟩ := map_eq_some_iff.mp hs
    have hmeta := fun e he next hnext => hok e he writer hwriter next hnext
    obtain ⟨rs', t', -, hkept', htracks'⟩ :=
      append_appended hkept (htracks writer hwriter) hmeta id content
    refine ⟨rs', t', hkept', ?_⟩
    intro next hnext
    rw [← mem_some_iff.mp hnext]
    exact htracks'
  | history env id =>
    obtain ⟨writer, hwriter, rfl⟩ := map_eq_some_iff.mp hs
    obtain ⟨rs', t', hkept', htracks'⟩ := (history_spec hkept (htracks writer hwriter) env id).1
    refine ⟨rs', t', hkept', ?_⟩
    intro next hnext
    rw [← mem_some_iff.mp hnext]
    exact htracks'

theorem consistent_init : Consistent C cap {} :=
  ⟨[], [], ⟨rfl, .nil, not_mem_nil, forall_mem_nil _, fun _ _ => .slnil, nofun⟩, nofun⟩

theorem ReachedWith.consistent {w : World X} (h : ReachedWith C cap (Distinguishable C cap) w) :
    Consistent C cap w :=
  Reachable.invariant (by rintro _ rfl; exact consistent_init)
    (fun _ _ _ hw hok hs => hw.step hok hs) h

end

/-- **Histories are faithful** in every run in which no append's closing `metadata` call fails
unnoticed. -/
theorem history_faithful {X : Type} {C : Codec X} {max_record_bytes : ℕ} {w : World X}
    (h : ReachedWith C max_record_bytes (Distinguishable C max_record_bytes) w)
    {writer : WriterState} (hw : w.writer = some writer) {env : HistoryEnv} {id : CommandId}
    {scan : JournalScan X} (hscan : (history C max_record_bytes env id writer w.disk).1 = .ok scan) :
    Faithful w.acknowledged w.attempted id scan := by
  obtain ⟨rs, t, hkept, htracks⟩ := h.consistent
  exact (history_spec hkept (htracks writer hw) env id).2 scan hscan

/-! ## A format, and two runs -/

open Wire in
/-- **The laws of `Codec` can be met**, by the format of `Wire`. -/
def wire_codec {X : Type} (contents : Wire X) : Codec X :=
  let w : Wire (JournalRecord X) := (nat.both ((fin (2 ^ 128)).both contents)).embed
    (fun r => (r.sequence, r.command_id, r.content)) (fun p => some ⟨p.1, p.2.1, p.2.2⟩)
    fun _ => rfl
  { record_bytes := w.frame 0x63
    decode_record := w.unframe 0x63
    probe_sequence := fun _ => none
    probe_command_id := fun _ => none
    sha256 := fun _ => Ledger.zero_sha256
    decode_record_line := fun r _ => unframe_frame r
    newline_notMem_record := newline_notMem_frame (by decide)
    record_not_blank := fun _ => rfl }

/-- Records whose content is a number. -/
abbrev number_codec : Codec ℕ := wire_codec Wire.nat

/-- Read the history of a command in the state a run has reached. -/
def read_back (w : World ℕ) (id : CommandId) : Option (JournalScan ℕ) :=
  w.writer.bind fun writer => (history number_codec 64 {} id writer w.disk).1.toOption

/-- What is observed of a history is observed in a state that the run has reached. -/
theorem history_of_read_back {actions : List (Action ℕ)} {id : CommandId} {Seen : Type}
    {seen : World ℕ → JournalScan ℕ → Seen} {x : Seen}
    (h : ((run (step number_codec 64) {} actions).bind fun w => (read_back w id).map (seen w))
      = some x) :
    ∃ w writer scan, run (step number_codec 64) {} actions = some w ∧ w.writer = some writer ∧
      (history number_codec 64 {} id writer w.disk).1 = .ok scan ∧ seen w scan = x := by
  obtain ⟨w, hrun, h⟩ := bind_eq_some_iff.mp h
  obtain ⟨scan, h, hseen⟩ := map_eq_some_iff.mp h
  obtain ⟨writer, hwriter, h⟩ := bind_eq_some_iff.mp h
  refine ⟨w, writer, scan, hrun, hwriter, ?_, hseen⟩
  cases hr : (history number_codec 64 {} id writer w.disk).1 with
  | error e =>
    rw [hr] at h
    nomatch h
  | ok found =>
    rw [hr] at h
    exact congrArg Except.ok (some.inj h)

/-- Three appends for one command within one tick of the file system's clock; the second one ends
as `fault` says. -/
def interrupted_append (fault : WriteFault) : List (Action ℕ) :=
  [.open_journal {}, .append {} 0 10, .append { write := fault } 0 11, .append {} 0 12]

/-- **A history can repeat a sequence number.** The closing `metadata` call of the second append
fails, the third one takes the same number, and nothing is reported. -/
theorem history_repeats_sequence :
    ∃ (w : World ℕ) (writer : WriterState) (scan : JournalScan ℕ),
      ReachedWith number_codec 64 (fun _ _ => True) w ∧ w.writer = some writer ∧
      (history number_codec 64 {} 0 writer w.disk).1 = .ok scan ∧
      scan.records.map JournalRecord.sequence = [0, 1, 1] ∧
      ¬ Faithful w.acknowledged w.attempted 0 scan := by
  have h : ((run (step number_codec 64) {}
      (interrupted_append (.metadata ⟨.other, "metadata"⟩))).bind fun w =>
      (read_back w 0).map fun scan => (scan.records.map JournalRecord.sequence, scan.damaged))
        = some ([0, 1, 1], false) := by
    decide +kernel
  obtain ⟨w, writer, scan, hrun, hwriter, hhistory, hfacts⟩ := history_of_read_back h
  obtain ⟨hsequences, hdamaged⟩ := Prod.mk.inj hfacts
  refine ⟨w, writer, scan, reachable_of_run (.start rfl) (fun _ _ _ => trivial) hrun, hwriter,
    hhistory, hsequences, ?_⟩
  rintro (hreported | ⟨hincreasing, -⟩)
  · rw [hdamaged] at hreported
    nomatch hreported
  · have hpairs := pairwise_map.mpr hincreasing
    rw [hsequences] at hpairs
    simp at hpairs

/-- When the second append fails after its last byte instead, the third one opens the file anew and
the history is faithful. -/
theorem history_faithful_after_failed_sync :
    ∃ (w : World ℕ) (writer : WriterState) (scan : JournalScan ℕ),
      ReachedWith number_codec 64 (Distinguishable number_codec 64) w ∧ w.writer = some writer ∧
      (history number_codec 64 {} 0 writer w.disk).1 = .ok scan ∧
      scan.records.map JournalRecord.sequence = [0, 1, 2] ∧ scan.damaged = false ∧
      w.acknowledged.map JournalRecord.sequence = [0, 2] ∧
      Faithful w.acknowledged w.attempted 0 scan := by
  have h : ((run (step number_codec 64) {}
      (interrupted_append (.write 64 ⟨.other, "sync_data"⟩))).bind fun w =>
        (read_back w 0).map fun scan => (scan.records.map JournalRecord.sequence, scan.damaged,
          w.acknowledged.map JournalRecord.sequence)) = some ([0, 1, 2], false, [0, 2]) := by
    decide +kernel
  obtain ⟨w, writer, scan, hrun, hwriter, hhistory, hfacts⟩ := history_of_read_back h
  obtain ⟨hsequences, hfacts⟩ := Prod.mk.inj hfacts
  obtain ⟨hdamaged, hacknowledged⟩ := Prod.mk.inj hfacts
  have hreached : ReachedWith number_codec 64 (Distinguishable number_codec 64) w := by
    refine reachable_of_run (.start rfl) ?_ hrun
    intro action haction s
    simp only [interrupted_append, mem_cons, not_mem_nil, or_false] at haction
    -- no append of the run fails in its `metadata` call
    rcases haction with rfl | rfl | rfl | rfl <;> first | exact True.intro | nofun
  exact ⟨w, writer, scan, hreached, hwriter, hhistory, hsequences, hdamaged, hacknowledged,
    history_faithful hreached hwriter hhistory⟩

end BobbyBrowser.CommandJournal
