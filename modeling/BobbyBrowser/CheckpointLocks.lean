/-
The locks of the checkpoint store (`crates/checkpoint-store/src/lib.rs`).

Every call on a workflow takes the workflow's lock, which it gets from a map that
the clones of the store share. A call drops the entries of the map that nobody else
has a handle of before it looks for its own, so a lock may be dropped and made anew.

A call may return with an error, or be dropped, wherever it waits; it then gives up
its lock and its handle. Reads and writes may fail, and a write may fail after it has
replaced the file. Its rename and its removal run on a blocking thread: a call that
is dropped while it waits for one of them cannot take it back, and the file changes
later, when the lock is somebody else's. The content is written into the temporary
file without a flush, so that a rename may also put only a first part of it in place.
-/
import BobbyBrowser.Transition
import Mathlib.Data.Finset.Card

set_option autoImplicit false

namespace BobbyBrowser.CheckpointLocks

open Transition Option Function

/-! ## The store -/

/-- Checkpoints and their files: serde gives back what it has written, and the digest, SHA-256 in
the source, tells contents apart. -/
structure Format (W S C B D : Type) where
  workflow_id : C → W
  session_id : C → S
  validate_schema : C → Bool
  to_vec : C → B
  from_slice : B → Option C
  /-- The first bytes of a content. -/
  cut : B → ℕ → B
  checkpoint_digest : B → D
  from_slice_to_vec : ∀ c, from_slice (to_vec c) = some c
  collision_free : Function.Injective checkpoint_digest

variable {W S C B D : Type} [DecidableEq W] [DecidableEq S] [DecidableEq D]

def Format.decode_checkpoint (F : Format W S C B D) (workflow_id : W) (bytes : B) : Option C :=
  (F.from_slice bytes).filter fun c => F.validate_schema c && F.workflow_id c = workflow_id

/-- What is in the temporary file when it is renamed: all of the checkpoint, or its first bytes. -/
def Format.written (F : Format W S C B D) (checkpoint : C) : Option ℕ → B
  | none => F.to_vec checkpoint
  | some n => F.cut (F.to_vec checkpoint) n

/-- The calls that take a lock. Those on the issuance of a workflow leave its checkpoint alone. -/
inductive Request (W C : Type)
  | save (checkpoint : C)
  | lock_snapshot (workflow_id : W)
  | remove (workflow_id : W)
  | issuance (workflow_id : W)

/-- How far a call has come. A snapshot has the lock until it is dropped, and `seen` is the file that
it has read or, since, written. -/
inductive Stage (W C B D : Type)
  | waiting (request : Request W C)
  | entered (request : Request W C)
  | checked (checkpoint : C)
  | snapshot (checkpoint : C) (content_digest : D) (seen : B)
  | verified (checkpoint : C) (content_digest : D) (seen : B) (next : C)
  | done

/-- A call: its workflow, its handle of a lock, and how far it has come. -/
structure Task (W C B D : Type) where
  workflow_id : W
  lock : ℕ
  stage : Stage W C B D

/-- `owners` are the calls that have a handle of a lock, besides the map. `late` are the renames and
the removals, `none`, that run on although their calls were dropped. -/
structure State (W C B D : Type) where
  workflow_locks : W → Option ℕ
  next_lock : ℕ
  owners : ℕ → Finset ℕ
  tasks : ℕ → Option (Task W C B D)
  files : W → Option B
  late : List (W × Option B)

/-- What a call does next. `verify` are the tests of `save_if_unchanged`, and a write that was
verified may be given up, or replace the file and report an error all the same. If `kept` is given,
only so many bytes have reached the file. -/
inductive Move (C : Type)
  | acquire
  | read
  | remove
  | verify (next : C)
  | give_up
  | write (failed : Bool) (kept : Option ℕ)

inductive Action (W C : Type)
  | call (t : ℕ) (request : Request W C)
  | move (t : ℕ) (m : Move C)
  /-- The call returns, or is dropped with no rename or removal under way, or its snapshot is. -/
  | finish (t : ℕ)
  /-- The call is dropped while its rename or its removal runs. -/
  | drop (t : ℕ) (kept : Option ℕ)
  /-- A rename or a removal of a call that was dropped is done. -/
  | land (i : ℕ)

variable (F : Format W S C B D)

def Request.workflow_id : Request W C → W
  | .save checkpoint => F.workflow_id checkpoint
  | .lock_snapshot workflow_id | .remove workflow_id | .issuance workflow_id => workflow_id

/-- The tests before the lock is taken. -/
def Request.admitted : Request W C → Bool
  | .save checkpoint => F.validate_schema checkpoint
  | _ => true

/-- The entries that `workflow_lock` retains: those with a `strong_count` above one. -/
def State.retained (s : State W C B D) (workflow_id : W) : Option ℕ :=
  (s.workflow_locks workflow_id).filter fun lock => 1 < 1 + (s.owners lock).card

/-- `workflow_lock`, of the call `t`. -/
def State.workflow_lock (s : State W C B D) (workflow_id : W) (t : ℕ) : ℕ × State W C B D :=
  match s.retained workflow_id with
  | some lock => (lock, { s with
      workflow_locks := s.retained
      owners := update s.owners lock (insert t (s.owners lock)) })
  | none => (s.next_lock, { s with
      workflow_locks := update s.retained workflow_id (some s.next_lock)
      next_lock := s.next_lock + 1
      owners := update s.owners s.next_lock (insert t (s.owners s.next_lock)) })

/-- The call has the lock. -/
def Stage.holds : Stage W C B D → Bool
  | .waiting _ => false
  | _ => true

/-- Nobody has the lock. -/
def State.free (s : State W C B D) (lock : ℕ) : Bool :=
  ∀ u ∈ s.owners lock, (s.tasks u).all fun task => !task.stage.holds

/-- What a move makes of a call and of the checkpoint file of its workflow. -/
def move (free : Bool) (workflow_id : W) (file : Option B) :
    Stage W C B D → Move C → Option (Stage W C B D × Option B)
  | .waiting request, .acquire => if free then some (.entered request, file) else none
  | .entered (.save checkpoint), .read =>
    match file with
    | none => some (.checked checkpoint, file)
    | some bytes => (F.decode_checkpoint workflow_id bytes).bind fun existing =>
      if F.session_id existing = F.session_id checkpoint then some (.checked checkpoint, file)
      else none
  | .entered (.lock_snapshot _), .read =>
    file.bind fun bytes => (F.decode_checkpoint workflow_id bytes).map fun checkpoint =>
      (.snapshot checkpoint (F.checkpoint_digest bytes) bytes, file)
  | .entered (.remove _), .remove => some (.done, none)
  | .checked checkpoint, .write _ kept => some (.done, some (F.written checkpoint kept))
  | .snapshot checkpoint digest seen, .verify next =>
    if file.map F.checkpoint_digest = some digest ∧
        F.workflow_id next = F.workflow_id checkpoint ∧
        F.session_id next = F.session_id checkpoint ∧ F.validate_schema next then
      some (.verified checkpoint digest seen next, file)
    else none
  | .verified checkpoint digest seen _, .give_up => some (.snapshot checkpoint digest seen, file)
  | .verified checkpoint digest seen next, .write failed kept =>
    -- the digest is taken of what should have been written
    let bytes := F.to_vec next
    some (if failed then .snapshot checkpoint digest seen
      else .snapshot next (F.checkpoint_digest bytes) bytes, some (F.written next kept))
  | _, _ => none

/-- The rename or the removal that a call may be waiting for. -/
def Stage.running (kept : Option ℕ) : Stage W C B D → Option (Option B)
  | .checked checkpoint | .verified _ _ _ checkpoint => some (some (F.written checkpoint kept))
  | .entered (.remove _) => some none
  | _ => none

/-- The call gives up its lock and its handle. -/
def State.leave (s : State W C B D) (t : ℕ) (task : Task W C B D) : State W C B D where
  workflow_locks := s.workflow_locks
  next_lock := s.next_lock
  owners := update s.owners task.lock ((s.owners task.lock).erase t)
  tasks := update s.tasks t none
  files := s.files
  late := s.late

def step (s : State W C B D) : Action W C → Option (State W C B D)
  | .call t request =>
    if s.tasks t = none ∧ request.admitted F then
      let (lock, s) := s.workflow_lock (request.workflow_id F) t
      let task := ⟨request.workflow_id F, lock, .waiting request⟩
      some { s with tasks := update s.tasks t (some task) }
    else none
  | .move t m =>
    (s.tasks t).bind fun task =>
      (move F (s.free task.lock) task.workflow_id (s.files task.workflow_id) task.stage m).map
        fun (stage, file) => { s with
          tasks := update s.tasks t (some { task with stage := stage })
          files := update s.files task.workflow_id file }
  | .finish t => (s.tasks t).map (s.leave t)
  | .drop t kept =>
    (s.tasks t).bind fun task => (task.stage.running F kept).map fun file =>
      { s.leave t task with late := s.late ++ [(task.workflow_id, file)] }
  | .land i =>
    s.late[i]?.map fun (workflow_id, file) => { s with
      files := update s.files workflow_id file
      late := s.late.eraseIdx i }

/-! ## What a call relies on -/

/-- The session of the checkpoint in a file. -/
def session_in (workflow_id : W) (file : Option B) : Option S :=
  (file.bind (F.decode_checkpoint workflow_id)).map F.session_id

/-- What holds while the call stands there, as long as nobody else writes the file. -/
def Sound (workflow_id : W) (file : Option B) : Stage W C B D → Prop
  | .waiting request | .entered request =>
    request.admitted F = true ∧ request.workflow_id F = workflow_id
  | .checked checkpoint => F.decode_checkpoint workflow_id (F.to_vec checkpoint) = some checkpoint ∧
    (file = none ∨ session_in F workflow_id file = some (F.session_id checkpoint))
  | .snapshot checkpoint digest seen =>
    F.decode_checkpoint workflow_id seen = some checkpoint ∧ digest = F.checkpoint_digest seen
  | .verified checkpoint digest seen next =>
    (F.decode_checkpoint workflow_id seen = some checkpoint ∧ digest = F.checkpoint_digest seen) ∧
    file = some seen ∧ F.decode_checkpoint workflow_id (F.to_vec next) = some next ∧
    F.session_id next = F.session_id checkpoint
  | .done => True

section

variable {F} {s s' : State W C B D} {t : ℕ} {workflow_id : W} {file file' : Option B} {free : Bool}
  {stage stage' : Stage W C B D} {m : Move C}

omit [DecidableEq S] [DecidableEq D] in
theorem decode_to_vec {checkpoint : C} (hschema : F.validate_schema checkpoint)
    (hid : F.workflow_id checkpoint = workflow_id) :
    F.decode_checkpoint workflow_id (F.to_vec checkpoint) = some checkpoint := by
  rw [Format.decode_checkpoint, F.from_slice_to_vec]
  simp [Option.filter, hschema, hid]

omit [DecidableEq S] [DecidableEq D] in
theorem workflow_id_of_decode {bytes : B} {checkpoint : C}
    (h : F.decode_checkpoint workflow_id bytes = some checkpoint) :
    F.workflow_id checkpoint = workflow_id := by
  have hfilter := (filter_eq_some_iff.mp h).2
  simp only [Bool.and_eq_true, decide_eq_true_eq] at hfilter
  exact hfilter.2

/-- A call that waits leaves the file as it is, and moves only when the lock is free. -/
theorem move_of_waiting (hmove : move F free workflow_id file stage m = some (stage', file'))
    (hwaits : stage.holds = false) : free = true ∧ file' = file := by
  cases stage with
  | waiting request =>
    cases m with
    | acquire =>
      obtain ⟨hfree, heq⟩ := of_guard hmove
      exact ⟨hfree, (congrArg Prod.snd heq).symm⟩
    | _ => nomatch hmove
  | _ => nomatch hwaits

/-- The move neither removes the checkpoint nor cuts it short. -/
def Move.whole : Move C → Bool
  | .remove => false
  | .write _ kept => kept.isNone
  | _ => true

/-- **One move.** The call is sound where it then stands, and the session in the file stays unless the
file is removed or cut short. -/
theorem Sound.move (h : Sound F workflow_id file stage)
    (hmove : move F free workflow_id file stage m = some (stage', file')) :
    Sound F workflow_id file' stage' ∧ (m.whole = true → ∀ session,
      session_in F workflow_id file = some session →
        session_in F workflow_id file' = some session) := by
  unfold CheckpointLocks.move at hmove
  split at hmove
  · -- the lock is acquired
    split at hmove <;> cases hmove
    exact ⟨h, fun _ _ hsession => hsession⟩
  · -- a save reads the file
    obtain ⟨hschema, hid⟩ := h
    split at hmove
    · cases hmove
      exact ⟨⟨decode_to_vec hschema hid, .inl rfl⟩, fun _ _ hsession => hsession⟩
    · rename_i bytes
      obtain ⟨existing, hexisting, hsame⟩ := bind_eq_some_iff.mp hmove
      split at hsame <;> cases hsame
      rename_i hsession
      refine ⟨⟨decode_to_vec hschema hid, .inr ?_⟩, fun _ _ hsession => hsession⟩
      rw [session_in, bind_some, hexisting, map_some, hsession]
  · -- a snapshot reads the file
    obtain ⟨bytes, rfl, hread⟩ := bind_eq_some_iff.mp hmove
    obtain ⟨checkpoint, hdecode, hpair⟩ := map_eq_some_iff.mp hread
    cases hpair
    exact ⟨⟨hdecode, rfl⟩, fun _ _ hsession => hsession⟩
  · cases hmove
    exact ⟨trivial, nofun⟩
  · -- a save replaces the file
    rename_i kept
    cases hmove
    refine ⟨trivial, fun hwhole session hsession => ?_⟩
    cases kept with
    -- a cut write is excluded; a whole one is of the session that the save has read, or the first
    | some n => nomatch hwhole
    | none =>
      rcases h.2 with hnone | hsame
      · rw [hnone] at hsession
        nomatch hsession
      · rw [session_in, bind_some, Format.written, h.1, map_some, ← hsame, hsession]
  · -- a snapshot is verified
    split at hmove <;> cases hmove
    rename_i htests
    obtain ⟨hdigest, hid, hsession, hschema⟩ := htests
    -- an equal digest means that the file is still the one the snapshot has read
    obtain ⟨bytes, hfile, hbytes⟩ := map_eq_some_iff.mp hdigest
    rw [h.2] at hbytes
    rw [F.collision_free hbytes] at hfile
    rw [workflow_id_of_decode h.1] at hid
    exact ⟨⟨h, hfile, decode_to_vec hschema hid, hsession⟩, fun _ _ hkept => hkept⟩
  · cases hmove
    exact ⟨h.1, fun _ _ hsession => hsession⟩
  · -- a snapshot replaces the file
    rename_i kept
    obtain ⟨hsnapshot, hfile, hnext, hsame⟩ := h
    cases hmove
    refine ⟨?_, fun hwhole session hsession => ?_⟩
    · split
      · exact hsnapshot
      · exact ⟨hnext, rfl⟩
    · cases kept with
      | some n => nomatch hwhole
      | none =>
        rw [hfile, session_in, bind_some, hsnapshot.1, map_some] at hsession
        rw [session_in, bind_some, Format.written, hnext, map_some, hsame, hsession]
  · nomatch hmove

omit [DecidableEq S] [DecidableEq D] in
theorem Sound.of_waiting (h : Sound F workflow_id file stage) (hwaits : stage.holds = false) :
    Sound F workflow_id file' stage := by
  cases stage with
  | waiting request => exact h
  | _ => nomatch hwaits

/-! ## Who has a lock -/

/-- The map has the lock that a call has a handle of, and one call at most has it locked. -/
structure Locked (s : State W C B D) : Prop where
  mapped : ∀ t task, s.tasks t = some task →
    s.workflow_locks task.workflow_id = some task.lock ∧ t ∈ s.owners task.lock
  alone : ∀ t u task other, s.tasks t = some task → s.tasks u = some other →
    task.lock = other.lock → task.stage.holds = true → other.stage.holds = true → t = u

omit [DecidableEq W] [DecidableEq D] in
/-- **Pruning drops no lock that a call has a handle of.** -/
theorem Locked.retained (h : Locked s) {task : Task W C B D} (htask : s.tasks t = some task) :
    s.retained task.workflow_id = some task.lock := by
  obtain ⟨hmapped, howner⟩ := h.mapped t task htask
  have hcard : 0 < (s.owners task.lock).card := Finset.card_pos.mpr ⟨t, howner⟩
  rw [State.retained, hmapped]
  exact if_pos (decide_eq_true (by omega))

omit [DecidableEq D] in
/-- The call gets the one lock of its workflow, and nobody else's is dropped. -/
theorem Locked.workflow_lock (h : Locked s) (workflow_id : W) (t : ℕ) :
    ∃ lock locked, s.workflow_lock workflow_id t = (lock, locked) ∧ locked.tasks = s.tasks ∧
      (locked.files = s.files ∧ locked.late = s.late) ∧
      locked.workflow_locks workflow_id = some lock ∧
      t ∈ locked.owners lock ∧ ∀ u task, s.tasks u = some task →
        locked.workflow_locks task.workflow_id = some task.lock ∧ u ∈ locked.owners task.lock := by
  have howners (lock u : ℕ) (task : Task W C B D) (htask : s.tasks u = some task) :
      u ∈ update s.owners lock (insert t (s.owners lock)) task.lock := by
    have howner := (h.mapped u task htask).2
    by_cases hlock : task.lock = lock
    · rw [hlock] at howner ⊢
      rw [update_self]
      exact Finset.mem_insert_of_mem howner
    · rw [update_of_ne hlock]
      exact howner
  have hmine (lock : ℕ) : t ∈ update s.owners lock (insert t (s.owners lock)) lock := by
    rw [update_self]
    exact Finset.mem_insert_self _ _
  unfold State.workflow_lock
  cases hretained : s.retained workflow_id with
  | some lock =>
    exact ⟨lock, _, rfl, rfl, ⟨rfl, rfl⟩, hretained, hmine lock, fun u task htask =>
      ⟨h.retained htask, howners lock u task htask⟩⟩
  | none =>
    refine ⟨s.next_lock, _, rfl, rfl, ⟨rfl, rfl⟩, update_self .., hmine _, fun u task htask =>
      ⟨?_, howners _ u task htask⟩⟩
    change update s.retained workflow_id _ task.workflow_id = _
    rw [update_of_ne, h.retained htask]
    rintro rfl
    rw [h.retained htask] at hretained
    nomatch hretained

/-- The calls after one of them has changed. -/
theorem update_eq_some {α : Type} {f : ℕ → Option α} {x : Option α} {u : ℕ} {a : α}
    (h : update f t x u = some a) : u = t ∧ x = some a ∨ u ≠ t ∧ f u = some a := by
  by_cases hu : u = t
  · rw [hu, update_self] at h
    exact .inl ⟨hu, h⟩
  · rw [update_of_ne hu] at h
    exact .inr ⟨hu, h⟩

/-- A new call waits, with its request, and changes no file. -/
theorem Locked.call (h : Locked s) {request : Request W C}
    (hstep : step F s (.call t request) = some s') :
    Locked s' ∧ (s'.files = s.files ∧ s'.late = s.late) ∧ ∀ u task, s'.tasks u = some task →
      s.tasks u = some task ∨ request.admitted F = true ∧
        task.stage = .waiting request ∧ task.workflow_id = request.workflow_id F := by
  simp only [CheckpointLocks.step] at hstep
  split at hstep <;> cases hstep
  rename_i hcall
  obtain ⟨lock, locked, heq, htasks, hsame, hlock, howner, hothers⟩ :=
    h.workflow_lock (request.workflow_id F) t
  rw [heq]
  refine ⟨⟨?_, ?_⟩, hsame, ?_⟩ <;> simp only [htasks]
  · intro u task htask
    rcases update_eq_some htask with ⟨rfl, ⟨⟩⟩ | ⟨-, htask⟩
    · exact ⟨hlock, howner⟩
    · exact hothers u task htask
  · intro u v task other htask hother hsame hholds hholds'
    rcases update_eq_some htask with ⟨rfl, ⟨⟩⟩ | ⟨-, htask⟩
    · nomatch hholds
    rcases update_eq_some hother with ⟨rfl, ⟨⟩⟩ | ⟨-, hother⟩
    · nomatch hholds'
    exact h.alone u v task other htask hother hsame hholds hholds'
  · intro u task htask
    rcases update_eq_some htask with ⟨rfl, ⟨⟩⟩ | ⟨-, htask⟩
    · exact .inr ⟨hcall.2, rfl, rfl⟩
    · exact .inl htask

/-- The others with a handle of the lock of a call that moves do not have it locked. -/
theorem Locked.others (h : Locked s) {task : Task W C B D} (htask : s.tasks t = some task)
    (hmove : move F (s.free task.lock) task.workflow_id (s.files task.workflow_id) task.stage m =
      some (stage', file')) {u : ℕ} {other : Task W C B D} (hu : u ≠ t)
    (hother : s.tasks u = some other) (hsame : other.lock = task.lock) :
    other.stage.holds = false := by
  by_contra hholds
  rw [Bool.not_eq_false] at hholds
  by_cases hmine : task.stage.holds = true
  · exact hu (h.alone u t other task hother htask hsame hholds hmine)
  · have hfree := (move_of_waiting hmove (Bool.not_eq_true _ ▸ hmine)).1
    have howner := (h.mapped u other hother).2
    rw [hsame] at howner
    have hfalse := of_decide_eq_true hfree u howner
    rw [hother, all_some, hholds] at hfalse
    nomatch hfalse

/-- The state after a move. -/
def State.moved (s : State W C B D) (t : ℕ) (task : Task W C B D) (stage : Stage W C B D)
    (file : Option B) : State W C B D :=
  { s with
    tasks := update s.tasks t (some { task with stage := stage })
    files := update s.files task.workflow_id file }

/-- A call that takes, keeps or gives back its lock leaves every lock with one holder at most. -/
theorem Locked.move (h : Locked s) {task : Task W C B D} (htask : s.tasks t = some task)
    (hmove : move F (s.free task.lock) task.workflow_id (s.files task.workflow_id) task.stage m =
      some (stage', file')) : Locked (s.moved t task stage' file') := by
  refine ⟨?_, ?_⟩
  · intro u other hother
    rcases update_eq_some hother with ⟨rfl, ⟨⟩⟩ | ⟨-, hother⟩
    · exact h.mapped u task htask
    · exact h.mapped u other hother
  · intro u v other another hother hanother hsame hholds hholds'
    rcases update_eq_some hother with ⟨rfl, ⟨⟩⟩ | ⟨hu, hbefore⟩
    · rcases update_eq_some hanother with ⟨rfl, -⟩ | ⟨hv, hbefore⟩
      · rfl
      · rw [h.others htask hmove hv hbefore hsame.symm] at hholds'
        nomatch hholds'
    · rcases update_eq_some hanother with ⟨rfl, ⟨⟩⟩ | ⟨-, hbefore'⟩
      · rw [h.others htask hmove hu hbefore hsame] at hholds
        nomatch hholds
      · exact h.alone u v other another hbefore hbefore' hsame hholds hholds'

omit [DecidableEq W] [DecidableEq D] in
theorem tasks_leave {task other : Task W C B D} {u : ℕ}
    (hother : (s.leave t task).tasks u = some other) : u ≠ t ∧ s.tasks u = some other :=
  (update_eq_some hother).resolve_left fun h => nomatch h.2

omit [DecidableEq W] [DecidableEq D] in
/-- A call that leaves drops its own handle; every other call keeps its lock. -/
theorem Locked.leave (h : Locked s) (task : Task W C B D) : Locked (s.leave t task) := by
  refine ⟨?_, ?_⟩
  · intro u other hother
    obtain ⟨hu, hother⟩ := tasks_leave hother
    obtain ⟨hmapped, howner⟩ := h.mapped u other hother
    refine ⟨hmapped, ?_⟩
    change u ∈ update s.owners task.lock _ other.lock
    by_cases hlock : other.lock = task.lock
    · rw [hlock] at howner ⊢
      rw [update_self]
      exact Finset.mem_erase.mpr ⟨hu, howner⟩
    · rw [update_of_ne hlock]
      exact howner
  · intro u v other another hother hanother
    exact h.alone u v other another (tasks_leave hother).2 (tasks_leave hanother).2

/-- Every step, those of dropped calls included, leaves the locks in order. -/
theorem Locked.step (h : Locked s) {action : Action W C} (hstep : step F s action = some s') :
    Locked s' := by
  cases action with
  | call t request => exact (h.call hstep).1
  | move t m =>
    obtain ⟨task, htask, hmap⟩ := bind_eq_some_iff.mp hstep
    obtain ⟨⟨stage', file'⟩, hmove, rfl⟩ := map_eq_some_iff.mp hmap
    exact h.move htask hmove
  | finish t =>
    obtain ⟨task, -, rfl⟩ := map_eq_some_iff.mp hstep
    exact h.leave task
  | drop t kept =>
    obtain ⟨task, -, hmap⟩ := bind_eq_some_iff.mp hstep
    obtain ⟨file, -, rfl⟩ := map_eq_some_iff.mp hmap
    exact ⟨(h.leave task).mapped, (h.leave task).alone⟩
  | land i =>
    obtain ⟨_, -, rfl⟩ := map_eq_some_iff.mp hstep
    exact ⟨h.mapped, h.alone⟩

/-! ## What the lock protects -/

variable (F) in
/-- The calls can rely on what they have read, and no rename or removal is out of their hands. -/
structure Inv (s : State W C B D) : Prop where
  locked : Locked s
  sound : ∀ t task, s.tasks t = some task →
    Sound F task.workflow_id (s.files task.workflow_id) task.stage
  late : s.late = []

theorem Inv.call (h : Inv F s) {request : Request W C}
    (hstep : step F s (.call t request) = some s') : Inv F s' ∧ s'.files = s.files := by
  obtain ⟨hlocked, ⟨hfiles, hlate⟩, htasks⟩ := h.locked.call hstep
  refine ⟨⟨hlocked, fun u task htask => ?_, hlate.trans h.late⟩, hfiles⟩
  rcases htasks u task htask with hbefore | ⟨hadmitted, hstage, hid⟩
  · rw [hfiles]
    exact h.sound u task hbefore
  · rw [hstage]
    exact ⟨hadmitted, hid.symm⟩

/-- **A move** of a call that has the lock, or gets it, disturbs nobody else. -/
theorem Inv.move (h : Inv F s) {task : Task W C B D} (htask : s.tasks t = some task)
    (hmove : move F (s.free task.lock) task.workflow_id (s.files task.workflow_id) task.stage m =
      some (stage', file')) : Inv F (s.moved t task stage' file') := by
  refine ⟨h.locked.move htask hmove, fun u other hother => ?_, h.late⟩
  change Sound F _ (update s.files task.workflow_id file' other.workflow_id) _
  rcases update_eq_some hother with ⟨rfl, ⟨⟩⟩ | ⟨hu, hother⟩
  · rw [update_self]
    exact ((h.sound u task htask).move hmove).1
  by_cases hsame : other.workflow_id = task.workflow_id
  · have hlock := (h.locked.mapped u other hother).1
    rw [hsame, (h.locked.mapped t task htask).1] at hlock
    exact (h.sound u other hother).of_waiting
      (h.locked.others htask hmove hu hother (some.inj hlock).symm)
  · rw [update_of_ne hsame]
    exact h.sound u other hother

/-- No call is dropped while its rename or its removal runs. -/
def Action.attended : Action W C → Bool
  | .drop _ _ => false
  | _ => true

/-- What is renamed is all of the checkpoint. -/
def Action.whole : Action W C → Bool
  | .move _ (.write _ kept) => kept.isNone
  | _ => true

/-- The step removes the checkpoint of the workflow. -/
def Removes (workflow_id : W) (s : State W C B D) : Action W C → Prop
  | .move t .remove => ∃ task ∈ s.tasks t, task.workflow_id = workflow_id
  | _ => False

/-- **One step**, with no call dropped while its rename runs: the invariant is kept, and a whole
action that does not remove a workflow's file leaves the session in it as it was. -/
theorem Inv.step (h : Inv F s) {action : Action W C} (hattended : action.attended = true)
    (hstep : step F s action = some s') :
    Inv F s' ∧ (action.whole = true → ∀ workflow_id session, ¬ Removes workflow_id s action →
      session_in F workflow_id (s.files workflow_id) = some session →
      session_in F workflow_id (s'.files workflow_id) = some session) := by
  cases action with
  | call t request =>
    obtain ⟨hinv, hfiles⟩ := h.call hstep
    rw [hfiles]
    exact ⟨hinv, fun _ _ _ _ hsession => hsession⟩
  | move t m =>
    obtain ⟨task, htask, hmap⟩ := bind_eq_some_iff.mp hstep
    obtain ⟨⟨stage', file'⟩, hmove, rfl⟩ := map_eq_some_iff.mp hmap
    refine ⟨h.move htask hmove, fun hwhole workflow_id session hkept hsession => ?_⟩
    change session_in F workflow_id (update s.files task.workflow_id file' workflow_id) = _
    by_cases hsame : workflow_id = task.workflow_id
    · subst hsame
      rw [update_self]
      refine ((h.sound t task htask).move hmove).2 ?_ session hsession
      cases m with
      | remove => exact absurd ⟨task, htask, rfl⟩ hkept
      | write failed kept => exact hwhole
      | _ => rfl
    · rw [update_of_ne hsame]
      exact hsession
  | finish t =>
    obtain ⟨task, htask, rfl⟩ := map_eq_some_iff.mp hstep
    exact ⟨⟨h.locked.leave task, fun u other hother => h.sound u other (tasks_leave hother).2, h.late⟩,
      fun _ _ _ _ hsession => hsession⟩
  | drop t kept => nomatch hattended
  | land i =>
    rw [CheckpointLocks.step, h.late] at hstep
    nomatch hstep

end

/-- No call is under way, no lock was made, and no rename or removal runs. -/
def Fresh (s : State W C B D) : Prop :=
  (∀ t, s.tasks t = none) ∧ (∀ workflow_id, s.workflow_locks workflow_id = none) ∧ s.late = []

omit [DecidableEq S] [DecidableEq D] in
theorem Fresh.inv {s : State W C B D} (h : Fresh s) : Inv F s := by
  have hno : ∀ t task, s.tasks t ≠ some task := by
    intro t task htask
    rw [h.1 t] at htask
    nomatch htask
  exact ⟨⟨fun t task htask => absurd htask (hno t task),
    fun t _ task _ htask => absurd htask (hno t task)⟩,
    fun t task htask => absurd htask (hno t task), h.2.2⟩

/-- **The locks do their work although idle ones are dropped.** In every run, from any files, one
call at most has the lock of a workflow. If no call is dropped while its rename or its removal runs,
a write through a snapshot replaces the file that the snapshot has read or written; and if also no
write is cut short, the session of a stored workflow stays as long as its checkpoint is not removed. -/
theorem locked_calls_exclusive (s : State W C B D)
    (h : Reachable Fresh (step F) (fun _ _ => True) s) :
    (∀ t u task other, s.tasks t = some task → s.tasks u = some other →
      task.workflow_id = other.workflow_id → task.stage.holds = true →
      other.stage.holds = true → t = u) ∧
    (Reachable Fresh (step F) (fun _ action => action.attended = true) s →
      (∀ t task checkpoint digest seen next, s.tasks t = some task →
        task.stage = .verified checkpoint digest seen next →
        s.files task.workflow_id = some seen) ∧
      ∀ workflow_id session s', session_in F workflow_id (s.files workflow_id) = some session →
        Reachable (· = s) (step F) (fun s action => action.attended = true ∧ action.whole = true ∧
          ¬ Removes workflow_id s action) s' →
        session_in F workflow_id (s'.files workflow_id) = some session) := by
  refine ⟨?_, fun hattended => ?_⟩
  · have hlocked : Locked s := h.invariant (fun s hs => (Fresh.inv F hs).locked)
      fun s action s' hs _ hstep => hs.step hstep
    intro t u task other htask hother hsame
    have hlock := (hlocked.mapped t task htask).1
    rw [hsame, (hlocked.mapped u other hother).1] at hlock
    exact hlocked.alone t u task other htask hother (some.inj hlock).symm
  have hinv : Inv F s := hattended.invariant (fun s hs => Fresh.inv F hs)
    fun s action s' hs ha hstep => (hs.step ha hstep).1
  refine ⟨?_, ?_⟩
  · intro t task checkpoint digest seen next htask hstage
    have hsound := hinv.sound t task htask
    rw [hstage] at hsound
    exact hsound.2.1
  intro workflow_id session s' hsession hrun
  have hboth : Inv F s' ∧ session_in F workflow_id (s'.files workflow_id) = some session := by
    refine hrun.invariant (I := fun s' => Inv F s' ∧
      session_in F workflow_id (s'.files workflow_id) = some session) ?_ ?_
    · rintro _ rfl
      exact ⟨hinv, hsession⟩
    · intro s action s' hs ⟨ha, hwhole, hkept⟩ hstep
      obtain ⟨hinv', hsame⟩ := hs.1.step ha hstep
      exact ⟨hinv', hsame hwhole workflow_id session hkept hs.2⟩
  exact hboth.2

/-- Checkpoints of one workflow that are two digits, the first of them the session, and files that
are checkpoints. -/
def plain : Format Unit ℕ ℕ ℕ ℕ where
  workflow_id _ := ()
  session_id := (· / 10)
  validate_schema _ := true
  to_vec := id
  from_slice := some
  cut _ n := n
  checkpoint_digest := id
  from_slice_to_vec _ := rfl
  collision_free := Function.injective_id

/-- A store without files. -/
def empty : State Unit ℕ ℕ ℕ := ⟨fun _ => none, 0, fun _ => ∅, fun _ => none, fun _ => none, []⟩

theorem fresh_empty : Fresh empty := ⟨fun _ => rfl, fun _ => rfl, rfl⟩

/-- The checkpoint 71 is saved, and a snapshot of it is verified. -/
def saved_and_verified : List (Action Unit ℕ) :=
  [.call 0 (.save 71), .move 0 .acquire, .move 0 .read, .move 0 (.write false none), .finish 0,
    .call 1 (.lock_snapshot ()), .move 1 .acquire, .move 1 .read, .move 1 (.verify 72)]

/-- The snapshot that has verified the file holds the lock, and the file is the one it has read. -/
theorem verified_file_seen :
    ∃ s, run (step plain) empty saved_and_verified = some s ∧
      s.workflow_locks () = some 1 ∧ s.files () = some 71 := by
  refine ⟨_, rfl, rfl, ?_⟩
  have hrun : run (step plain) empty saved_and_verified = some _ := rfl
  exact ((locked_calls_exclusive plain _ (reachable_of_run (.start fresh_empty)
    (fun _ _ _ => trivial) hrun)).2 (reachable_of_run (.start fresh_empty)
    (fun action h _ => by revert action; decide) hrun)).1 1 _ 71 71 71 72 rfl rfl

/-- A save is dropped while its rename runs, and the rename is done later. It may be done behind
the back of a snapshot that has verified its file, which then writes over a version it has never
read; and it may put back the session of a checkpoint that another session has stored since. -/
theorem late_rename_behind_lock :
    (∃ s s', run (step plain) empty
        [.call 0 (.save 71), .move 0 .acquire, .move 0 .read, .move 0 (.write false none), .finish 0,
          .call 1 (.save 73), .move 1 .acquire, .move 1 .read, .drop 1 none,
          .call 2 (.lock_snapshot ()), .move 2 .acquire, .move 2 .read, .move 2 (.verify 72),
          .land 0] = some s ∧
      (s.tasks 2).map Task.stage = some (.verified 71 71 71 72) ∧ s.files () = some 73 ∧
      step plain s (.move 2 (.write false none)) = some s' ∧ s'.files () = some 72) ∧
    ∃ s s', run (step plain) empty
        [.call 0 (.save 71), .move 0 .acquire, .move 0 .read, .drop 0 none,
          .call 1 (.save 80), .move 1 .acquire, .move 1 .read, .move 1 (.write false none),
          .finish 1] = some s ∧
      session_in plain () (s.files ()) = some 8 ∧ step plain s (.land 0) = some s' ∧
      session_in plain () (s'.files ()) = some 7 :=
  ⟨⟨_, _, rfl, rfl, rfl, rfl, rfl⟩, _, _, rfl, rfl, rfl, rfl⟩

end BobbyBrowser.CheckpointLocks
