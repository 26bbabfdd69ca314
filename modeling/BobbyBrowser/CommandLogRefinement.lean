/-
The command journal is a command log.

The executor and the ladder are verified over the log of `CommandLog`, which has no
bytes. This module shows that the journal of `CommandJournal` is such a log: with the
records of its file, its torn line and the commands its archives reserve, every append,
every read and every open of the journal is one of the log, with the same answer and
for choices that its failures determine. What is proved of every log therefore holds of
the journal, in every run in which a failed `metadata` call leaves a trace.
-/
import BobbyBrowser.CommandJournalRun
import BobbyBrowser.CommandLog

set_option autoImplicit false

namespace BobbyBrowser.CommandJournal

open Lines Jsonl Outcomes List

variable {X : Type} (C : Codec X) (cap : ℕ)

/-! ## What the log has of the file -/

/-- The log has the records of the file, knows whether it ends in a torn line and whether there is an
archive, and reserves no command that the archives do not. An archive may reserve more, since the
journal looks into its torn line, too; of those commands there is no record in the file. -/
structure Abstracts (disk : Disk) (rs : List (JournalRecord X)) (t : Bytes)
    (log : CommandLog.Log X) : Prop where
  records : log.records = rs.map fun r => (r.command_id, r.content)
  torn : log.torn = true ↔ t ≠ []
  archived : log.archived = true ↔ disk.archives ≠ []
  reserved : ∀ id ∈ log.reserved, Reserved C cap disk.archives id
  free : ∀ r ∈ rs, ¬Reserved C cap disk.archives r.command_id

variable {C cap}
variable {disk disk' : Disk} {rs rs' : List (JournalRecord X)} {t t' : Bytes}
  {log : CommandLog.Log X} {past : Log X}

/-- The records of a command in the log are the contents of its records in the file. -/
theorem Abstracts.of_eq (h : Abstracts C cap disk rs t log) (id : CommandId) :
    log.of id = (rs.filter fun r => r.command_id = id).map JournalRecord.content := by
  rw [CommandLog.Log.of, h.records, filter_map, map_map]
  rfl

theorem Abstracts.of_archives (h : Abstracts C cap disk rs t log)
    (harchives : disk'.archives = disk.archives) : Abstracts C cap disk' rs t log where
  records := h.records
  torn := h.torn
  archived := by
    rw [harchives]
    exact h.archived
  reserved := by
    rw [harchives]
    exact h.reserved
  free := by
    rw [harchives]
    exact h.free

/-- A file that is renamed away leaves its commands reserved. -/
theorem Abstracts.rename (h : Abstracts C cap disk rs t log) (hkept : Kept C cap disk past rs t)
    (htorn : t ≠ []) (harchives : disk'.archives = disk.archives ++ [disk.content]) :
    Abstracts C cap disk' [] [] log.refresh := by
  rw [CommandLog.Log.refresh, if_pos (h.torn.mpr htorn)]
  refine ⟨rfl, by simp, ?_, ?_, forall_mem_nil _⟩
  · simp [harchives]
  · intro id hid
    rw [harchives, hkept.content]
    rcases mem_append.mp hid with hid | hid
    · exact (h.reserved id hid).append _
    · rw [h.records, map_map] at hid
      obtain ⟨r, hr, rfl⟩ := mem_map.mp hid
      exact reserved_of_mem disk.archives hkept.ordered t hr

/-- **An open that fails** is a refresh of the log that fails. -/
theorem Abstracts.unrefreshed (h : Abstracts C cap disk rs t log)
    (hkept : Kept C cap disk past rs t) (hturned : Turned disk rs t disk' rs' t')
    (e : JournalError) :
    ∃ choice, (log.refreshed choice).1 = .error e ∧
      Abstracts C cap disk' rs' t' (log.refreshed choice).2 := by
  cases hturned with
  | same harchives => exact ⟨some (e, false), rfl, h.of_archives harchives⟩
  | archived htorn harchives => exact ⟨some (e, true), rfl, h.rename hkept htorn harchives⟩

/-- **An open that succeeds** is a refresh of the log that succeeds. -/
theorem Abstracts.refreshed (h : Abstracts C cap disk rs t log)
    (hkept : Kept C cap disk past rs t) (hturned : Turned disk rs t disk' rs' []) :
    Abstracts C cap disk' rs' [] log.refresh := by
  generalize ht' : ([] : Bytes) = t' at hturned
  cases hturned with
  | same harchives =>
    subst ht'
    have hwhole : ¬log.torn = true := fun htorn => h.torn.mp htorn rfl
    rw [CommandLog.Log.refresh, if_neg hwhole]
    exact h.of_archives harchives
  | archived htorn harchives => exact h.rename hkept htorn harchives

/-! ## Appends -/

variable {id : CommandId} {x : X} {r : JournalRecord X}

theorem Abstracts.push (h : Abstracts C cap disk rs [] log)
    (hfree : ¬Reserved C cap disk.archives r.command_id) :
    Abstracts C cap disk (rs ++ [r]) [] (log.push r.command_id r.content) := by
  refine ⟨?_, h.torn, h.archived, h.reserved, ?_⟩
  · rw [CommandLog.Log.push, h.records, map_append, map_singleton]
  · exact forall_mem_append.mpr ⟨h.free, forall_mem_singleton.mpr hfree⟩

theorem Abstracts.tear (h : Abstracts C cap disk rs [] log) (ht : t ≠ []) :
    Abstracts C cap disk rs t { log with torn := true } :=
  ⟨h.records, iff_of_true rfl ht, h.archived, h.reserved, h.free⟩

/-- **What an append does to the file, the log does**, with the same answer. -/
theorem Abstracts.ends {record : List (JournalRecord X)}
    {out : Except JournalError Unit × WriterState × Disk} (h : Abstracts C cap disk rs t log)
    (hkept : Kept C cap disk past rs t) (hends : Ends C cap disk rs t record out rs' t')
    (hrecord : ∀ r ∈ record, r.command_id = id ∧ r.content = x) :
    ∃ choice, (log.append choice id x).1 = out.1 ∧
      Abstracts C cap out.2.2 rs' t' (log.append choice id x).2 := by
  cases hends with
  | @unrefreshed e writer disk' rs' t' hturned =>
    obtain ⟨choice, herror, habstracts⟩ := h.unrefreshed hkept hturned e
    refine ⟨{ refresh := choice }, ?_⟩
    rw [CommandLog.Log.append]
    dsimp only
    rcases hr : log.refreshed choice with ⟨result, log'⟩
    rw [hr] at herror habstracts
    cases herror
    exact ⟨rfl, habstracts⟩
  | reserved hturned _ =>
    -- the log may not know that the command is reserved, and then refuses the write
    have habstracts := h.refreshed hkept hturned
    refine ⟨{ write := .refused .uncertain_command }, ?_⟩
    rw [CommandLog.Log.append, CommandLog.Log.refreshed]
    dsimp only
    split
    · exact ⟨rfl, habstracts⟩
    · exact ⟨rfl, habstracts⟩
  | @written r disk₁ rs₁ rs' t' out hturned hfree hadds harchives =>
    obtain ⟨rfl, rfl⟩ := hrecord r (mem_singleton_self r)
    have habstracts := h.refreshed hkept hturned
    have hunreserved : r.command_id ∉ log.refresh.reserved :=
      fun hreserved => hfree (habstracts.reserved _ hreserved)
    have happend (write : CommandLog.Log.Write) := CommandLog.Log.append.eq_def
      { write := write } r.command_id r.content log
    simp only [CommandLog.Log.refreshed, hunreserved, if_false] at happend
    generalize out.1 = result at hadds
    cases hadds with
    | stored =>
      refine ⟨{ write := .stored }, ?_⟩
      rw [happend]
      exact ⟨rfl, (habstracts.push hfree).of_archives harchives⟩
    | whole e =>
      refine ⟨{ write := .whole e }, ?_⟩
      rw [happend]
      exact ⟨rfl, (habstracts.push hfree).of_archives harchives⟩
    -- if not a byte was written, the log has refused the record
    | part e =>
      by_cases ht : t' = []
      · subst ht
        refine ⟨{ write := .refused e }, ?_⟩
        rw [happend]
        exact ⟨rfl, habstracts.of_archives harchives⟩
      · refine ⟨{ write := .part e }, ?_⟩
        rw [happend]
        exact ⟨rfl, (habstracts.tear ht).of_archives harchives⟩

/-! ## Reads -/

/-- A scan as the log returns it. -/
def JournalScan.view (scan : JournalScan X) : CommandLog.History X :=
  ⟨scan.records.map JournalRecord.content, scan.torn_tail, scan.incompatible_records⟩

/-- What a read of the log answers once it is refreshed. -/
def answer (choice : CommandLog.Log.HistoryChoice X) (id : CommandId) (log : CommandLog.Log X) :
    Except JournalError (CommandLog.History X) :=
  match choice.read with
  | some error => .error error
  | none =>
    if log.uncertain id then
      .ok ⟨choice.diagnostic, choice.torn_tail, max 1 choice.incompatible_records⟩
    else .ok { records := log.of id }

theorem history_of_refresh {choice : CommandLog.Log.HistoryChoice X} (h : choice.refresh = none) :
    log.history choice id = (answer choice id log.refresh, log.refresh) := by
  rw [CommandLog.Log.history, h, CommandLog.Log.refreshed, answer]
  dsimp only
  cases choice.read with
  | some error => rfl
  | none =>
    dsimp only
    split <;> rfl

variable {writer : WriterState} {env : HistoryEnv} {scan : JournalScan X}

theorem archived_history_some (hne : writer.archives ≠ 0)
    (h : archived_history C env id writer disk = .ok scan) : 1 ≤ scan.incompatible_records := by
  rw [archived_history] at h
  split at h
  · cases h
  · rw [if_neg hne] at h
    cases h
    exact Nat.le_max_right _ _

section

variable {file : JournalFile}
  (h : Abstracts C cap disk rs [] log) (hready : Ready C cap disk past rs writer file)

include h hready

/-- The command has a record in the file and no archive reserves it. -/
theorem Abstracts.certain
    (hkey : (writer.offsets.contains_key id && !writer.archived_offsets.contains_key id) = true) :
    log.uncertain id = false := by
  rw [Bool.and_eq_true, Bool.not_eq_true'] at hkey
  obtain ⟨hindexed, hfree⟩ := hkey
  rw [hready.synced.offsets] at hindexed
  obtain ⟨r, hr, hid⟩ := (contains_key_index_from C).mp hindexed
  have hunreserved : id ∉ log.reserved := by
    intro hreserved
    rw [hready.reserved_iff.mpr (h.reserved id hreserved)] at hfree
    cases hfree
  have hsome : (log.of id).isEmpty = false := by
    rw [h.of_eq, isEmpty_eq_false_iff]
    exact ne_nil_of_mem (mem_map_of_mem (mem_filter.mpr ⟨hr, decide_eq_true hid⟩))
  rw [CommandLog.Log.uncertain, hsome, Bool.and_false, Bool.or_false]
  exact decide_eq_false hunreserved

/-- The file has no record of a command that is not certain. -/
theorem Abstracts.of_eq_nil
    (hkey : ¬(writer.offsets.contains_key id && !writer.archived_offsets.contains_key id) = true) :
    log.of id = [] := by
  rw [h.of_eq, map_eq_nil_iff, filter_eq_nil_iff]
  intro r hr hid
  have hid : r.command_id = id := of_decide_eq_true hid
  apply hkey
  have hfree : ¬writer.archived_offsets.contains_key id = true := by
    rw [hready.reserved_iff, ← hid]
    exact h.free r hr
  rw [hready.synced.offsets, (contains_key_index_from C).mpr ⟨r, hr, hid⟩,
    Bool.eq_false_iff.mpr hfree]
  rfl

/-- **What the archives say of a command** is what a log says of one whose history is uncertain; when
there is no archive, it is that there is no record. -/
theorem Abstracts.archived_answer (env : HistoryEnv)
    (hkey : ¬(writer.offsets.contains_key id && !writer.archived_offsets.contains_key id) = true) :
    ∃ choice, choice.refresh = none ∧
      answer choice id log = (archived_history C env id writer disk).map JournalScan.view := by
  have hnil := h.of_eq_nil hready hkey
  cases hresult : archived_history C env id writer disk with
  | error e => exact ⟨{ read := some e }, rfl, rfl⟩
  | ok scan =>
    -- behind an archive a command without records is uncertain
    by_cases hnone : disk.archives = []
    · have hcertain : log.uncertain id = false := by
        have harchived : log.archived = false :=
          Bool.eq_false_iff.mpr fun hsome => h.archived.mp hsome hnone
        have hunreserved : id ∉ log.reserved := by
          intro hreserved
          have := h.reserved id hreserved
          rw [hnone] at this
          nomatch this
        rw [CommandLog.Log.uncertain, harchived, Bool.false_and, Bool.or_false]
        exact decide_eq_false hunreserved
      have hempty : scan = {} := by
        have hsynced := hready.synced
        have hoffsets : writer.archived_offsets = [] := by
          rw [hsynced.archived_offsets, hnone]
          rfl
        rw [archived_history, hoffsets, hsynced.archives, hsynced.archived_torn_tail,
          hsynced.archived_incompatible_records, hnone] at hresult
        cases hread : env.read with
        | none | some e =>
          rw [hread] at hresult
          exact (Except.ok.inj hresult).symm
      refine ⟨{}, rfl, ?_⟩
      rw [answer, hcertain, hnil, hempty]
      rfl
    · have huncertain : log.uncertain id = true := by
        rw [CommandLog.Log.uncertain, hnil, h.archived.mpr hnone]
        exact Bool.or_true _
      have hsome : 1 ≤ scan.incompatible_records := by
        refine archived_history_some ?_ hresult
        rw [hready.synced.archives]
        exact fun hzero => hnone (length_eq_zero_iff.mp hzero)
      refine ⟨{ diagnostic := scan.view.records, torn_tail := scan.torn_tail,
                incompatible_records := scan.incompatible_records }, rfl, ?_⟩
      rw [answer, huncertain]
      dsimp only
      rw [if_pos rfl, Nat.max_eq_right hsome]
      rfl

end

/-- **A read of a file that is kept** is a read of its log. -/
theorem Abstracts.history (h : Abstracts C cap disk rs t log) (hkept : Kept C cap disk past rs t)
    (hw : Tracks C cap disk rs t writer) (env : HistoryEnv) (id : CommandId) :
    ∃ choice rs' t', (log.history choice id).1
        = (history C cap env id writer disk).1.map JournalScan.view ∧
      Kept C cap (history C cap env id writer disk).2.2 past rs' t' ∧
      Tracks C cap (history C cap env id writer disk).2.2 rs' t'
        (history C cap env id writer disk).2.1 ∧
      Abstracts C cap (history C cap env id writer disk).2.2 rs' t' (log.history choice id).2 := by
  rw [CommandJournal.history]
  obtain ⟨e, disk', rs', t', hr, hturned, hkept', htracks'⟩ |
    ⟨next, disk', rs', file, hr, hturned, hready⟩ := refresh_cases hkept hw env.refresh
  · rw [hr]
    obtain ⟨choice, herror, h'⟩ := h.unrefreshed hkept hturned e
    refine ⟨{ refresh := choice }, rs', t', ?_, hkept', htracks', ?_⟩ <;>
      rw [CommandLog.Log.history] <;> dsimp only <;>
      rcases hlog : log.refreshed choice with ⟨result, log'⟩ <;> rw [hlog] at herror h' <;>
      cases herror
    · rfl
    · exact h'
  rw [hr]
  dsimp only
  have h' := h.refreshed hkept hturned
  split
  -- the command has records in the file, and none in an archive
  · rename_i hkey
    have hcertain := h'.certain hready hkey
    cases env.read with
    | some e =>
      refine ⟨{ read := some (.io e) }, rs', [], ?_⟩
      rw [history_of_refresh rfl]
      exact ⟨rfl, hready.kept, hready.tracks, h'⟩
    | none =>
      have hread := hready.read_indexed_records id
      rw [Disk.content] at hread
      dsimp only
      rw [hread]
      refine ⟨{}, rs', [], ?_⟩
      rw [history_of_refresh rfl, answer, hcertain, h'.of_eq]
      exact ⟨rfl, hready.kept, hready.tracks, h'⟩
  · rename_i hkey
    obtain ⟨choice, hrefresh, hanswer⟩ := h'.archived_answer hready env hkey
    refine ⟨choice, rs', [], ?_⟩
    rw [history_of_refresh hrefresh]
    exact ⟨hanswer, hready.kept, hready.tracks, h'⟩

/-! ## Runs -/

variable (C cap) in
/-- The journal's file and archives are those of the log, and its writer sees them as they are. -/
def Shows (w : World X) (log : CommandLog.Log X) : Prop :=
  ∃ rs t, Kept C cap w.disk ⟨w.acknowledged, w.attempted⟩ rs t ∧
    (∀ writer ∈ w.writer, Tracks C cap w.disk rs t writer) ∧ Abstracts C cap w.disk rs t log

variable {w w' : World X}

/-- **An open of the journal** is a refresh of the log. -/
theorem Shows.open_journal (h : Shows C cap w log) (env : OpenEnv)
    (hstep : step C cap w (.open_journal env) = some w') :
    ∃ choice, Shows C cap w' (log.refreshed choice).2 := by
  obtain ⟨rs, t, hkept, -, habstracts⟩ := h
  obtain ⟨rs', t', hturned, hkept', -, hnew⟩ := (open_writer_opened hkept env).kept
  rcases hr : open_writer C cap env w.disk with ⟨result, disk'⟩
  rw [hr] at hturned hkept' hnew
  rw [step, hr] at hstep
  cases hstep
  cases result with
  | error e =>
    obtain ⟨choice, -, habstracts'⟩ := habstracts.unrefreshed hkept hturned e
    exact ⟨choice, rs', t', hkept', fun _ hnone => absurd hnone.symm (Option.some_ne_none _),
      habstracts'⟩
  | ok next =>
    obtain ⟨htracks, hknows⟩ := hnew next rfl
    obtain rfl := (htracks.synced hknows).whole
    refine ⟨none, rs', [], hkept', ?_, habstracts.refreshed hkept hturned⟩
    intro writer hwriter
    cases hwriter
    exact htracks

/-- **An append to the journal** is one to the log, with the same answer. -/
theorem Shows.append {writer : WriterState} {env : AppendEnv} (h : Shows C cap w log)
    (hok : Distinguishable C cap w (.append env id x)) (hwriter : w.writer = some writer)
    (hstep : step C cap w (.append env id x) = some w') :
    ∃ choice, (log.append choice id x).1 = (append C cap env id x writer w.disk).1 ∧
      Shows C cap w' (log.append choice id x).2 := by
  obtain ⟨rs, t, hkept, htracks, habstracts⟩ := h
  have hmeta := fun e he next hnext => hok e he writer hwriter next hnext
  obtain ⟨rs', t', hends, hkept', htracks'⟩ :=
    append_appended hkept (htracks writer hwriter) hmeta id x
  have hrecord : ∀ r ∈ attempt C cap env id x writer w.disk, r.command_id = id ∧ r.content = x := by
    intro r hr
    rw [attempt] at hr
    split at hr
    · rw [mem_singleton.mp hr]
      exact ⟨rfl, rfl⟩
    · exact absurd hr not_mem_nil
  obtain ⟨choice, hanswer, habstracts'⟩ := habstracts.ends hkept hends hrecord
  rw [step, hwriter] at hstep
  cases hstep
  refine ⟨choice, hanswer, rs', t', hkept', ?_, habstracts'⟩
  intro next hnext
  cases hnext
  exact htracks'

/-- **A read of the journal** is one of the log: it fails with the same error, or returns the same
records with the same marks of damage. -/
theorem Shows.history {writer : WriterState} {env : HistoryEnv} (h : Shows C cap w log)
    (hwriter : w.writer = some writer) (hstep : step C cap w (.history env id) = some w') :
    ∃ choice, (log.history choice id).1
        = (history C cap env id writer w.disk).1.map JournalScan.view ∧
      Shows C cap w' (log.history choice id).2 := by
  obtain ⟨rs, t, hkept, htracks, habstracts⟩ := h
  obtain ⟨choice, rs', t', hanswer, hkept', htracks', habstracts'⟩ :=
    habstracts.history hkept (htracks writer hwriter) env id
  rw [step, hwriter] at hstep
  cases hstep
  refine ⟨choice, hanswer, rs', t', hkept', ?_, habstracts'⟩
  intro next hnext
  cases hnext
  exact htracks'

/-- **The journal is a log**, in every run in which a failed `metadata` call leaves a trace. -/
theorem ReachedWith.shows (h : ReachedWith C cap (Distinguishable C cap) w) :
    ∃ log, Shows C cap w log := by
  refine Transition.Reachable.invariant (I := fun w => ∃ log, Shows C cap w log) ?_ ?_ h
  · rintro _ rfl
    refine ⟨{}, [], [], ⟨rfl, .nil, not_mem_nil, forall_mem_nil _, fun _ _ => .slnil, nofun⟩, nofun,
      rfl, by simp, by simp, nofun, nofun⟩
  · rintro w action w' ⟨log, hlog⟩ hok hstep
    cases action with
    | open_journal env =>
      obtain ⟨choice, hshows⟩ := hlog.open_journal env hstep
      exact ⟨_, hshows⟩
    | append env id content =>
      obtain ⟨writer, hwriter, -⟩ := Option.map_eq_some_iff.mp hstep
      obtain ⟨choice, -, hshows⟩ := hlog.append hok hwriter hstep
      exact ⟨_, hshows⟩
    | history env id =>
      obtain ⟨writer, hwriter, -⟩ := Option.map_eq_some_iff.mp hstep
      obtain ⟨choice, -, hshows⟩ := hlog.history hwriter hstep
      exact ⟨_, hshows⟩

end BobbyBrowser.CommandJournal
