/-
What the command journal is for.

The journal of `CommandJournal`, without its bytes: the records of the file in
the order of their appends, whether the file ends in a torn line, and the commands
that an archive reserves. An append is refused, or it is stored, or it fails after
the line was written in part or as a whole. The next call finds a torn file and
renames it away, and then the commands it held are uncertain for good.
-/
import BobbyBrowser.CommandJournal

set_option autoImplicit false

namespace BobbyBrowser.CommandLog

open Outcomes List
open CommandJournal (JournalError)

variable {X : Type}

/-- The journal's file and archives. -/
structure Log (X : Type) where
  records : List (CommandId × X) := []
  torn : Bool := false
  archived : Bool := false
  reserved : List CommandId := []

/-- `JournalScan`, of which a reader looks at the contents. -/
structure History (X : Type) where
  records : List X := []
  torn_tail : Bool := false
  incompatible_records : ℕ := 0
  deriving DecidableEq

/-- The records are not to be relied on. -/
def History.damaged (history : History X) : Bool :=
  history.torn_tail || 0 < history.incompatible_records

/-- `JournalError::to_string`. -/
def error_message : JournalError → String
  | .io error => "journal I/O failed: " ++ error.message
  | .serialization message => "journal serialization failed: " ++ message
  | .uncertain_command => "command belongs to archived, uncertain journal history"

namespace Log

/-- The records of a command, in order. -/
def of (log : Log X) (id : CommandId) : List X :=
  (log.records.filter fun r => r.1 = id).map Prod.snd

/-- `refresh`: a torn file is archived, and a fresh one takes its place. -/
def refresh (log : Log X) : Log X :=
  if log.torn then
    { archived := true, reserved := log.reserved ++ log.records.map Prod.fst }
  else log

/-- How the write of a line ends. -/
inductive Write
  | stored
  /-- Nothing is written. -/
  | refused (error : JournalError)
  /-- The whole line is written, but its append is reported as failed. -/
  | whole (error : JournalError)
  /-- A part of the line is written. -/
  | part (error : JournalError)

/-- What happens to an append. A refresh that fails leaves the file as it is, or has archived it
by then. -/
structure AppendChoice where
  refresh : Option (JournalError × Bool) := none
  write : Write := .stored

/-- The refresh of an append or a read. -/
def refreshed (choice : Option (JournalError × Bool)) (log : Log X) : Except JournalError Unit × Log X :=
  match choice with
  | some (error, archived) => (.error error, if archived then log.refresh else log)
  | none => (.ok (), log.refresh)

/-- A line more. -/
def push (log : Log X) (id : CommandId) (x : X) : Log X :=
  { log with records := log.records ++ [(id, x)] }

def append (choice : AppendChoice) (id : CommandId) (x : X) (log : Log X) :
    Except JournalError Unit × Log X :=
  match log.refreshed choice.refresh with
  | (.error error, log) => (.error error, log)
  | (.ok (), log) =>
    if id ∈ log.reserved then (.error .uncertain_command, log)
    else match choice.write with
      | .stored => (.ok (), log.push id x)
      | .refused error => (.error error, log)
      | .whole error => (.error error, log.push id x)
      | .part error => (.error error, { log with torn := true })

/-- What happens to a read. -/
structure HistoryChoice (X : Type) where
  refresh : Option (JournalError × Bool) := none
  read : Option JournalError := none
  /-- What is reported of a command whose history is uncertain. -/
  diagnostic : List X := []
  torn_tail : Bool := false
  incompatible_records : ℕ := 1

/-- The history of a command is uncertain: an archive reserves it, or may have held it. -/
def uncertain (log : Log X) (id : CommandId) : Bool :=
  id ∈ log.reserved || (log.archived && (log.of id).isEmpty)

variable (choice : HistoryChoice X)

def history (id : CommandId) (log : Log X) : Except JournalError (History X) × Log X :=
  match log.refreshed choice.refresh with
  | (.error error, log) => (.error error, log)
  | (.ok (), log) =>
    match choice.read with
    | some error => (.error error, log)
    | none =>
      if log.uncertain id then
        (.ok ⟨choice.diagnostic, choice.torn_tail, max 1 choice.incompatible_records⟩, log)
      else (.ok { records := log.of id }, log)

/-! ## What the operations do to a command's records -/

variable {log : Log X} {id other : CommandId} {x : X}

theorem of_push_self : (log.push id x).of id = log.of id ++ [x] := by
  simp [of, push, filter_append]

theorem of_push_ne (h : id ≠ other) : (log.push id x).of other = log.of other := by
  simp [of, push, filter_append, h]

/-- A command that is not reserved after a refresh keeps its records: they are there, or there were
none. -/
theorem of_refresh (h : id ∉ log.refresh.reserved) : log.refresh.of id = log.of id := by
  unfold refresh at h ⊢
  split
  · rename_i htorn
    rw [if_pos htorn] at h
    have hnone : ∀ r ∈ log.records, r.1 ≠ id := by
      intro r hr hid
      exact h (mem_append_right _ (mem_map.mpr ⟨r, hr, hid⟩))
    have hfilter : log.records.filter (fun r => r.1 = id) = [] := by
      rw [filter_eq_nil_iff]
      intro r hr hid
      exact hnone r hr (of_decide_eq_true hid)
    rw [of, of, hfilter]
    rfl
  · rfl

theorem reserved_refresh (h : id ∈ log.reserved) : id ∈ log.refresh.reserved := by
  unfold refresh
  split
  · exact mem_append_left _ h
  · exact h

/-- What an operation may do to the log apart from adding a record. -/
structure Kept (log log' : Log X) : Prop where
  reserved : ∀ id, id ∈ log.reserved → id ∈ log'.reserved
  of : ∀ id, id ∉ log'.reserved → log'.of id = log.of id

theorem Kept.refl (log : Log X) : Kept log log := ⟨fun _ h => h, fun _ _ => rfl⟩

theorem Kept.trans {log log' log'' : Log X} (h : Kept log log') (h' : Kept log' log'') :
    Kept log log'' where
  reserved id hid := h'.reserved id (h.reserved id hid)
  of id hfree := by rw [h'.of id hfree, h.of id fun hr => hfree (h'.reserved id hr)]

theorem kept_refresh (log : Log X) : Kept log log.refresh :=
  ⟨fun _ h => reserved_refresh h, fun _ h => of_refresh h⟩

theorem kept_refreshed (choice : Option (JournalError × Bool)) (log : Log X) :
    Kept log (log.refreshed choice).2 := by
  unfold refreshed
  split
  · split
    · exact kept_refresh log
    · exact Kept.refl log
  · exact kept_refresh log

/-- **What an append does.** It leaves everything as it is, or adds the record behind the others;
when it succeeds it has added it. -/
theorem append_spec (choice : AppendChoice) (id : CommandId) (x : X) (log : Log X) :
    ∃ log', Kept log log' ∧
      ((log.append choice id x).2 = log'.push id x ∨
        (∃ e, (log.append choice id x).1 = .error e) ∧
          ((log.append choice id x).2 = log' ∨
            (log.append choice id x).2 = { log' with torn := true })) := by
  have hkept := kept_refreshed choice.refresh log
  rw [append]
  rcases hr : log.refreshed choice.refresh with ⟨result, log'⟩
  rw [hr] at hkept
  refine ⟨log', hkept, ?_⟩
  cases result with
  | error e => exact .inr ⟨⟨e, rfl⟩, .inl rfl⟩
  | ok u =>
    simp only
    split
    · exact .inr ⟨⟨_, rfl⟩, .inl rfl⟩
    split
    · exact .inl rfl
    · exact .inr ⟨⟨_, rfl⟩, .inl rfl⟩
    · exact .inl rfl
    · exact .inr ⟨⟨_, rfl⟩, .inr rfl⟩

/-- Every record of a command that is not reserved meets `P`. -/
def All (P : CommandId → X → Prop) (log : Log X) : Prop :=
  ∀ id, id ∉ log.reserved → ∀ x ∈ log.of id, P id x

variable {P : CommandId → X → Prop}

theorem All.kept {log' : Log X} (h : log.All P) (hk : Kept log log') : log'.All P := by
  intro id hfree x hx
  rw [hk.of id hfree] at hx
  exact h id (fun hr => hfree (hk.reserved id hr)) x hx

theorem All.push (h : log.All P) (hx : P id x) : (log.push id x).All P := by
  intro other hfree y hy
  by_cases hother : id = other
  · rw [← hother, of_push_self] at hy
    rcases mem_append.mp hy with hy | hy
    · exact hother ▸ h id (hother ▸ hfree) y hy
    · rw [← hother, mem_singleton.mp hy]
      exact hx
  · rw [of_push_ne hother] at hy
    exact h other hfree y hy

theorem All.append (h : log.All P) (choice : AppendChoice)
    (hx : P id x) : (log.append choice id x).2.All P := by
  obtain ⟨log', hkept, hpush | ⟨-, hsame | htorn⟩⟩ := append_spec choice id x log
  · rw [hpush]
    exact (h.kept hkept).push hx
  · rw [hsame]
    exact h.kept hkept
  · rw [htorn]
    have hall : log'.All P := h.kept hkept
    exact hall

/-- **What a read returns.** An undamaged history is the command's records. -/
theorem history_spec (id : CommandId) (log : Log X) :
    Kept log (log.history choice id).2 ∧
      ∀ scan, (log.history choice id).1 = .ok scan → scan.damaged = false →
        id ∉ (log.history choice id).2.reserved ∧ scan.records = log.of id := by
  have hkept := kept_refreshed choice.refresh log
  rw [history]
  rcases hr : log.refreshed choice.refresh with ⟨result, log'⟩
  rw [hr] at hkept
  cases result with
  | error e => exact ⟨hkept, nofun⟩
  | ok u =>
    simp only
    split
    · exact ⟨hkept, nofun⟩
    split
    · refine ⟨hkept, ?_⟩
      intro scan hscan hclean
      rw [← Except.ok.inj hscan] at hclean
      simp [History.damaged] at hclean
    rename_i hcertain
    refine ⟨hkept, ?_⟩
    intro scan hscan _
    have hfree : id ∉ log'.reserved := by
      intro hid
      simp [uncertain, hid] at hcertain
    cases hscan
    exact ⟨hfree, hkept.of id hfree⟩

/-- **No read of a torn file, or of a reserved command, is undamaged.** -/
theorem damaged_of_uncertain (h : log.torn = true ∨ id ∈ log.reserved)
    {scan : History X} (hscan : (log.history choice id).1 = .ok scan) : scan.damaged = true := by
  -- a torn file is renamed away by the read, with everything it holds
  have huncertain : log.refresh.uncertain id = true := by
    unfold uncertain
    rcases h with htorn | hreserved
    · rw [refresh, if_pos htorn]
      simp [of]
    · simp [reserved_refresh hreserved]
  rw [history] at hscan
  cases hchoice : choice.refresh with
  | some failure =>
    rw [hchoice] at hscan
    nomatch hscan
  | none =>
    rw [hchoice, refreshed] at hscan
    simp only [huncertain, if_true] at hscan
    split at hscan
    · nomatch hscan
    · cases hscan
      simp [History.damaged]

end Log

end BobbyBrowser.CommandLog
