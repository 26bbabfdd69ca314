/-
Runs of the idempotency store.

Any number of tasks call `reserve`, `finish` and `abandon` and drop their
permits. A `World` is one store with all of them: where each task stands, who
holds the store's mutex, what each reservation's channel says, the clock, and
the ledger file with everything a crash may leave of it. A step is one thing one
task does between two points where another may run.

The mutex is held over a whole section, so every section is one step, except
that of `abandon`, which publishes `Released` before it persists: there a waiter
may wake in between, and the section is two steps with the mutex held across
them. A crash in the middle of a write is the write failing part-way and the
crash after it; nothing of the section's memory survives either way.

`history` and `persisted` are there for the properties only: what the owners did,
and what the last persist that succeeded found in memory.
-/
import BobbyBrowser.Idempotency
import BobbyBrowser.Transition

set_option autoImplicit false

namespace BobbyBrowser.Idempotency

open Lines Ledger RetainedOutcome Transition

/-! ## The world -/

section

variable (O : Type)

/-- How a task ended. -/
inductive Ending
  | replayed (outcome : O)
  | failed (error : InterfaceError)
  | finished
  | finish_failed (error : InterfaceError)
  | abandoned
  | dropped
  | cancelled

/-- Where a task stands. -/
inductive Task
  | idle
  /-- Before the first section of `reserve`; `released` is the channel it was woken by. -/
  | looking (request : Request) (now : Instant) (released : Option ChannelId)
  | waiting (request : Request) (changed : ChannelId)
  /-- Before the second section of `reserve`, which runs in a task of its own. -/
  | acquiring (request : Request) (now : Instant)
  | holding (permit : Permit)
  /-- In `finish_inner`, before its section: the permit is disarmed. -/
  | finishing (permit : Permit) (outcome : O) (now : Instant)
  /-- In `abandon_inner`, before its section: the permit is disarmed. -/
  | abandoning (permit : Permit)
  /-- In the section of `abandon_inner`, before it persists, with the mutex held. -/
  | releasing (permit : Permit) (changed : Option ChannelId)
  /-- Dropped while the mutex was held: the spawned drop has not run. -/
  | dropping (permit : Permit)
  | done (ending : Ending O)

/-- What the owners of reservations did, oldest first. A reservation is named by its channel. -/
inductive Event
  /-- `reserve` returned `Acquired`, at this time of the clock. -/
  | acquired (key : Key) (changed : ChannelId) (at_clock : Instant)
  /-- `finish` was called, and would let the outcome expire at that instant. -/
  | finished (key : Key) (changed : ChannelId) (outcome : O) (expires_at : Option Instant)
  | abandoned (key : Key) (changed : ChannelId)
  /-- What the owner did to this reservation is durable. -/
  | recorded (changed : ChannelId)
  | evicted (key : Key)
  /-- The resolver of a reopen returned this outcome for this key. -/
  | restored (key : Key) (outcome : O)
  deriving DecidableEq

/-- One store and everything around it. -/
structure World where
  store : Store O
  /-- The process is up and the store is open. -/
  opened : Bool
  disk : Disk
  clock : Instant
  /-- The task that holds the mutex across two steps. -/
  lock : Option ℕ
  tasks : ℕ → Task O
  channels : ChannelId → ReservationUpdate O
  next_channel : ChannelId
  history : List (Event O)
  /-- The entries in memory at the last persist that succeeded. -/
  persisted : List (Entry O)

end

/-- What can happen next. -/
inductive Action (O V : Type)
  /-- A task calls `reserve`, with the time it read before. -/
  | reserve (task : ℕ) (request : Request) (now : Instant)
  | look (task : ℕ)
  /-- A waiter's channel changed. -/
  | wake (task : ℕ)
  /-- A waiter's deadline passed. -/
  | time_out (task : ℕ)
  | acquire (task : ℕ) (fault : Fault)
  | finish (task : ℕ) (outcome : O) (now : Instant)
  | finish_section (task : ℕ) (fault : Fault)
  | abandon (task : ℕ)
  | abandon_entry (task : ℕ)
  | abandon_persist (task : ℕ) (fault : Fault)
  | drop (task : ℕ)
  | drop_section (task : ℕ)
  /-- A permit is dropped while the mutex is held and no runtime is left to spawn on. -/
  | forget (task : ℕ)
  /-- The caller of `reserve` goes away. -/
  | cancel (task : ℕ)
  | advance (duration : ℕ)
  /-- The machine goes down and leaves this image of the file. -/
  | crash (image : Option Bytes)
  /-- The process ends and the machine stays up. -/
  | exit
  | reopen (resolve : V → Option O) (loaded_at validated_at now : Instant) (fault : Fault)

/-- The action ends with a write to the ledger, if it has anything to write. -/
def Action.writes {O V : Type} : Action O V → Bool
  | .acquire _ _ | .finish_section _ _ | .abandon_persist _ _ | .reopen _ _ _ _ _ => true
  | _ => false

/-! ## Steps -/

section

variable {O V : Type}

namespace World

/-- The mutex can be taken. -/
def free (w : World O) : Bool := w.opened && w.lock.isNone

/-- Moving a task. -/
def set_task (w : World O) (task : ℕ) (t : Task O) : World O :=
  { w with tasks := Function.update w.tasks task t }

/-- A sender for this channel is still around: in an entry. -/
def has_sender (w : World O) (changed : ChannelId) : Bool :=
  w.store.state.entries.any fun e => e.state.channel = some changed

end World

/-- `send_replace` on a reservation's channel, if there is one. -/
def send (channels : ChannelId → ReservationUpdate O)
    (message : Option (ChannelId × ReservationUpdate O)) : ChannelId → ReservationUpdate O :=
  match message with
  | none => channels
  | some (changed, update) => Function.update channels changed update

/-- The keys that were evicted between two states of the entries. -/
def evictions (before after : List (Entry O)) : List Key :=
  (before.map Entry.identity).filter fun k => (find_entry k after).isNone

/-- The permit of a task that has one, armed or not, before its section has run. -/
def Task.permit? : Task O → Option Permit
  | .holding permit => some permit
  | .finishing permit _ _ => some permit
  | .abandoning permit => some permit
  | .dropping permit => some permit
  | _ => none

variable [RetainedOutcome O V] (C : Codec V) (request : Request)

/-- Where the first section of `reserve` leads. -/
def Look.task (now : Instant) : Look O → Task O
  | .failed error => .done (.failed error)
  | .replay outcome => .done (.replayed outcome)
  | .wait changed => .waiting request changed
  | .absent => .acquiring request now

variable (w : World O)

/-- The first section of `reserve`. -/
def World.look (task : ℕ) (request : Request) (now : Instant) : World O :=
  let result := Idempotency.look w.store.state request now
  { w with
    store := { w.store with state := result.1 }
    tasks := Function.update w.tasks task (result.2.task request now) }

/-- Where a waiter goes from the value of its channel. -/
def ReservationUpdate.task (now : Instant) (changed : ChannelId) :
    ReservationUpdate O → Task O
  | .replay outcome => .done (.replayed outcome)
  | .unresolved => .done (.failed (unresolved_error request.correlation_id))
  | .released | .pending => .looking request now (some changed)

/-- What a waiter does with the value of its channel. -/
def World.wake (task : ℕ) (request : Request) (changed : ChannelId) : World O :=
  w.set_task task ((w.channels changed).task request w.clock changed)

/-- Where the second section of `reserve` leads. -/
def Acquisition.task (now : Instant) : Acquisition → Task O
  | .failed error => .done (.failed error)
  | .occupied => .looking request now none
  | .granted permit => .holding permit

/-- The evictions of the second section of `reserve`, when it gets to making room. -/
def World.evicted (w : World O) (request : Request) (now : Instant) : List (Event O) :=
  if w.store.writable && (find_entry request.identity
      (cleanup_expired w.store.state now).entries).isNone then
    (evictions (cleanup_expired w.store.state now).entries
      (make_space w.store request now).entries).map .evicted
  else []

/-- What the second section of `reserve` adds to the history. -/
def Acquisition.events (changed : ChannelId) (clock : Instant) :
    Acquisition → List (Event O)
  | .granted _ => [.acquired request.identity changed clock]
  | _ => []

/-- The reservation was persisted. -/
def Acquisition.persists : Acquisition → Bool
  | .granted _ => true
  | _ => false

/-- The second section of `reserve`, with a channel that is new. -/
def World.acquire (task : ℕ) (request : Request) (now : Instant) (fault : Fault) : World O :=
  let result := Idempotency.acquire C w.store w.disk request now w.next_channel fault
  { w with
    store := result.2.1
    disk := result.2.2
    tasks := Function.update w.tasks task (result.1.task request now)
    channels := Function.update w.channels w.next_channel .pending
    next_channel := w.next_channel + 1
    history := w.history ++ w.evicted request now ++ result.1.events request w.next_channel w.clock
    persisted := if result.1.persists then result.2.1.state.entries else w.persisted }

/-- When an outcome would expire. -/
def expiry (store : Store O) (outcome : O) (now : Instant) : Option Instant :=
  if releases_reservation outcome || safety_relevant outcome then none
  else some (now + store.config.ttl)

/-- How a finish ends. -/
def Finish.task : Finish O → Task O
  | .conflict error => .done (.finish_failed error)
  | .unrecorded _ error => .done (.finish_failed error)
  | .recorded _ _ => .done .finished

/-- What a finish publishes. -/
def Finish.message : Finish O → Option (ChannelId × ReservationUpdate O)
  | .conflict _ => none
  | .unrecorded changed _ => some (changed, .unresolved)
  | .recorded changed update => some (changed, update)

/-- What a finish adds to the history. -/
def Finish.events (key : Key) (outcome : O) (expires_at : Option Instant) :
    Finish O → List (Event O)
  | .conflict _ => []
  | .unrecorded changed _ => [.finished key changed outcome expires_at]
  | .recorded changed _ => [.finished key changed outcome expires_at, .recorded changed]

/-- What the owner did was persisted. -/
def Finish.persists : Finish O → Bool
  | .recorded _ _ => true
  | _ => false

/-- The section of `finish_inner`. -/
def World.finish_section (task : ℕ) (permit : Permit) (outcome : O) (now : Instant)
    (fault : Fault) : World O :=
  let result := Idempotency.finish_section C w.store w.disk permit outcome now fault
  { w with
    store := result.2.1
    disk := result.2.2
    tasks := Function.update w.tasks task result.1.task
    channels := send w.channels result.1.message
    history := w.history ++ result.1.events permit.identity outcome (expiry w.store outcome now)
    persisted := if result.1.persists then result.2.1.state.entries else w.persisted }

/-- The section of `abandon_inner` up to the write. -/
def World.abandon_entry (task : ℕ) (permit : Permit) : World O :=
  let result := Idempotency.abandon_entry w.store.state permit
  { w with
    store := { w.store with state := result.1 }
    lock := some task
    tasks := Function.update w.tasks task (.releasing permit result.2)
    channels := send w.channels (result.2.map fun changed => (changed, .released))
    history := w.history ++ result.2.toList.map (.abandoned permit.identity) }

/-- The section of `abandon_inner` from the write on. -/
def World.abandon_persist (task : ℕ) (permit : Permit) (changed : Option ChannelId)
    (fault : Fault) : World O :=
  let result := Idempotency.abandon_persist C w.store w.disk permit fault
  { w with
    store := result.2.1
    disk := result.2.2
    lock := none
    tasks := Function.update w.tasks task (.done .abandoned)
    history := w.history ++ if result.1 then changed.toList.map .recorded else []
    persisted := if result.1 then result.2.1.state.entries else w.persisted }

/-- What a dropped permit does to the memory: a durable store keeps the key as unresolved. -/
def drop_entry (store : Store O) (permit : Permit) : StoreState O × Option ChannelId :=
  if store.config.durable then unresolve_entry store.state permit
  else Idempotency.abandon_entry store.state permit

/-- What a dropped permit does once it has the mutex. -/
def World.drop_section (task : ℕ) (permit : Permit) : World O :=
  let result := drop_entry w.store permit
  { w with
    store := { w.store with state := result.1 }
    tasks := Function.update w.tasks task (.done .dropped)
    channels := send w.channels (result.2.map fun changed =>
      (changed, if w.store.config.durable then .unresolved else .released))
    history := w.history ++ if w.store.config.durable then [] else
      result.2.toList.flatMap fun changed =>
        [.abandoned permit.identity changed, .recorded changed] }

/-- `Drop` of an armed permit: inline when the mutex is free, spawned otherwise. -/
def World.drop (task : ℕ) (permit : Permit) : World O :=
  if w.lock.isNone then w.drop_section task permit else w.set_task task (.dropping permit)

/-- The store of a process that has not opened it. -/
def Store.closed (config : Config) : Store O :=
  ⟨config, ⟨[], 0, []⟩, ⟨false, 0, 0, zero_sha256, 0⟩, false, none⟩

/-- The process is gone: nothing of its memory is left. -/
def World.down (disk : Disk) : World O :=
  { w with
    store := Store.closed w.store.config
    opened := false
    disk := disk
    lock := none
    tasks := fun _ => .idle }

/-- The outcomes a reopened store replays. -/
def restorations (store : Store O) : List (Event O) :=
  store.state.entries.filterMap fun e =>
    match e.state with
    | .retained outcome _ => some (.restored e.identity outcome)
    | _ => none

/-- Opening has to persist what it could not resolve. -/
def open_persists (disk : Disk) (resolve : V → Option O) (loaded_at validated_at now : Instant) :
    Bool :=
  match (open_journal C loaded_at validated_at disk).2 with
  | .ok entries => (live now entries).any (loses_expiry resolve)
  | .error _ => false

/-- `open_durable` in a new process. -/
def World.reopen (resolve : V → Option O) (loaded_at validated_at now : Instant)
    (fault : Fault) : World O :=
  let result := open_durable C w.disk resolve loaded_at validated_at now fault
  { w with
    store := result.1
    disk := result.2
    opened := true
    clock := now
    history := w.history ++ restorations result.1
    persisted :=
      if open_persists C w.disk resolve loaded_at validated_at now && result.1.writable then
        result.1.state.entries
      else w.persisted }

def step (w : World O) : Action O V → Option (World O)
  | .reserve task request now =>
    match w.tasks task with
    | .idle =>
      if w.opened ∧ now ≤ w.clock then
        some (w.set_task task (if w.store.writable then .looking request now none
          else .done (.failed (unwritable_error request.correlation_id))))
      else none
    | _ => none
  | .look task =>
    match w.tasks task with
    | .looking request now _ => if w.free then some (w.look task request now) else none
    | _ => none
  | .wake task =>
    match w.tasks task, w.opened with
    | .waiting request changed, true =>
      match w.channels changed with
      -- the wait only ends on `Pending` when every sender is gone
      | .pending => if w.has_sender changed then none else some (w.wake task request changed)
      | _ => some (w.wake task request changed)
    | _, _ => none
  | .time_out task =>
    match w.tasks task with
    | .waiting request _ =>
      if w.opened ∧ request.deadline ≤ w.clock then
        some (w.set_task task (.done (.failed (deadline_error request.correlation_id))))
      else none
    | _ => none
  | .acquire task fault =>
    match w.tasks task with
    | .acquiring request now => if w.free then some (w.acquire C task request now fault) else none
    | _ => none
  | .finish task outcome now =>
    match w.tasks task with
    | .holding permit =>
      if w.opened ∧ now ≤ w.clock then
        some (if w.store.writable then w.set_task task (.finishing permit outcome now)
          else w.drop task permit)
      else none
    | _ => none
  | .finish_section task fault =>
    match w.tasks task with
    | .finishing permit outcome now =>
      if w.free then some (w.finish_section C task permit outcome now fault) else none
    | _ => none
  | .abandon task =>
    match w.tasks task, w.opened with
    | .holding permit, true => some (w.set_task task (.abandoning permit))
    | _, _ => none
  | .abandon_entry task =>
    match w.tasks task with
    | .abandoning permit => if w.free then some (w.abandon_entry task permit) else none
    | _ => none
  | .abandon_persist task fault =>
    match w.tasks task with
    | .releasing permit changed =>
      if w.opened ∧ w.lock = some task then
        some (w.abandon_persist C task permit changed fault) else none
    | _ => none
  | .drop task =>
    match w.tasks task, w.opened with
    | .holding permit, true => some (w.drop task permit)
    | _, _ => none
  | .drop_section task =>
    match w.tasks task with
    | .dropping permit => if w.free then some (w.drop_section task permit) else none
    | _ => none
  | .forget task =>
    match w.tasks task with
    | .holding _ =>
      if w.opened ∧ w.lock.isSome then some (w.set_task task (.done .dropped)) else none
    | _ => none
  | .cancel task =>
    match w.tasks task, w.opened with
    | .looking _ _ _, true | .waiting _ _, true => some (w.set_task task (.done .cancelled))
    | _, _ => none
  | .advance duration =>
    if w.clock + duration + w.store.config.ttl ≤ max_instant then
      some { w with clock := w.clock + duration } else none
  | .crash image =>
    if w.store.config.durable ∧ image ∈ w.disk.images then some (w.down ⟨image, []⟩) else none
  | .exit => if w.store.config.durable ∧ w.opened then some (w.down w.disk) else none
  | .reopen resolve loaded_at validated_at now fault =>
    if w.store.config.durable ∧ w.opened = false ∧ w.clock ≤ loaded_at ∧ loaded_at ≤ validated_at
        ∧ validated_at ≤ now ∧ now + w.store.config.ttl ≤ max_instant then
      some (w.reopen C resolve loaded_at validated_at now fault)
    else none

/-- Where a permit goes when its owner lets go of it without the mutex. -/
inductive Permit.Leaves (permit : Permit) (clock : Instant) : Task O → Prop
  | finishing {outcome : O} {now : Instant} (hnow : now ≤ clock) :
      Leaves permit clock (.finishing permit outcome now)
  | abandoning : Leaves permit clock (.abandoning permit)
  | dropping : Leaves permit clock (.dropping permit)
  | forgotten : Leaves permit clock (.done .dropped)

/-- What each action does and when it can be taken, read off `step` once for all proofs. A permit
that is dropped is dropped at once or leaves. -/
inductive Step (w : World O) : Action O V → World O → Prop
  | reserve {task : ℕ} {request : Request} {now : Instant} (hopen : w.opened = true)
      (htask : w.tasks task = .idle) (hnow : now ≤ w.clock) :
      Step w (.reserve task request now) (w.set_task task
        (if w.store.writable then .looking request now none
          else .done (.failed (unwritable_error request.correlation_id))))
  | look {task : ℕ} {request : Request} {now : Instant} {released : Option ChannelId}
      (hopen : w.opened = true) (hlock : w.lock = none)
      (htask : w.tasks task = .looking request now released) :
      Step w (.look task) (w.look task request now)
  | wake {task : ℕ} {request : Request} {changed : ChannelId} (hopen : w.opened = true)
      (htask : w.tasks task = .waiting request changed)
      (hready : w.channels changed = .pending → w.has_sender changed = false) :
      Step w (.wake task) (w.wake task request changed)
  | time_out {task : ℕ} {request : Request} {changed : ChannelId} (hopen : w.opened = true)
      (htask : w.tasks task = .waiting request changed) (hlate : request.deadline ≤ w.clock) :
      Step w (.time_out task)
        (w.set_task task (.done (.failed (deadline_error request.correlation_id))))
  | acquire {task : ℕ} {request : Request} {now : Instant} {fault : Fault}
      (hopen : w.opened = true) (hlock : w.lock = none)
      (htask : w.tasks task = .acquiring request now) :
      Step w (.acquire task fault) (w.acquire C task request now fault)
  | leave {a : Action O V} {task : ℕ} {permit : Permit} {t : Task O} (hopen : w.opened = true)
      (htask : w.tasks task = .holding permit) (hleaves : permit.Leaves w.clock t)
      (hwrites : a.writes = false) : Step w a (w.set_task task t)
  | finish_section {task : ℕ} {permit : Permit} {outcome : O} {now : Instant} {fault : Fault}
      (hopen : w.opened = true) (hlock : w.lock = none)
      (htask : w.tasks task = .finishing permit outcome now) :
      Step w (.finish_section task fault) (w.finish_section C task permit outcome now fault)
  | abandon_entry {task : ℕ} {permit : Permit} (hopen : w.opened = true) (hlock : w.lock = none)
      (htask : w.tasks task = .abandoning permit) :
      Step w (.abandon_entry task) (w.abandon_entry task permit)
  | abandon_persist {task : ℕ} {permit : Permit} {changed : Option ChannelId} {fault : Fault}
      (hopen : w.opened = true) (htask : w.tasks task = .releasing permit changed) :
      Step w (.abandon_persist task fault) (w.abandon_persist C task permit changed fault)
  | drop_section {a : Action O V} {task : ℕ} {permit : Permit} (hopen : w.opened = true)
      (hlock : w.lock = none) (hpermit : (w.tasks task).permit? = some permit)
      (hwrites : a.writes = false) : Step w a (w.drop_section task permit)
  | cancel {task : ℕ} (hopen : w.opened = true)
      (htask : (∃ request now released, w.tasks task = .looking request now released) ∨
        ∃ request changed, w.tasks task = .waiting request changed) :
      Step w (.cancel task) (w.set_task task (.done .cancelled))
  | advance {duration : ℕ} (hmax : w.clock + duration + w.store.config.ttl ≤ max_instant) :
      Step w (.advance duration) { w with clock := w.clock + duration }
  | crash {image : Option Bytes} (hdurable : w.store.config.durable = true)
      (himage : image ∈ w.disk.images) : Step w (.crash image) (w.down ⟨image, []⟩)
  | exit (hdurable : w.store.config.durable = true) (hopen : w.opened = true) :
      Step w .exit (w.down w.disk)
  | reopen {resolve : V → Option O} {loaded_at validated_at now : Instant} {fault : Fault}
      (hdurable : w.store.config.durable = true) (hclosed : w.opened = false)
      (hloaded : w.clock ≤ loaded_at) (hvalidated : loaded_at ≤ validated_at)
      (hnow : validated_at ≤ now) (hmax : now + w.store.config.ttl ≤ max_instant) :
      Step w (.reopen resolve loaded_at validated_at now fault)
        (w.reopen C resolve loaded_at validated_at now fault)

variable {w}

theorem World.free_iff : w.free = true ↔ w.opened = true ∧ w.lock = none := by
  rw [World.free, Bool.and_eq_true, Option.isNone_iff_eq_none]

theorem of_free {α : Type} {a b : α}
    (h : (if w.free then some a else none) = some b) : w.opened = true ∧ w.lock = none ∧ a = b := by
  obtain ⟨hfree, heq⟩ := of_guard h
  obtain ⟨hopen, hlock⟩ := World.free_iff.mp hfree
  exact ⟨hopen, hlock, heq⟩

theorem Step.drop {a : Action O V} {task : ℕ} {permit : Permit}
    (hopen : w.opened) (htask : w.tasks task = .holding permit) (hwrites : a.writes = false) :
    Step C w a (w.drop task permit) := by
  unfold World.drop
  split
  · rename_i hlock
    exact .drop_section hopen (Option.isNone_iff_eq_none.mp hlock) (by rw [htask]; rfl) hwrites
  · exact .leave hopen htask .dropping hwrites

/-- **What a step can be**, action by action, with its guards. -/
theorem step_inv {w' : World O} {a : Action O V} (h : step C w a = some w') : Step C w a w' := by
  cases a <;> simp only [step] at h
  case reserve task request now =>
    split at h
    · rename_i htask
      obtain ⟨hg, rfl⟩ := of_guard h
      exact .reserve hg.1 htask hg.2
    · cases h
  case look task =>
    split at h
    · rename_i htask
      obtain ⟨hopen, hlock, rfl⟩ := of_free h
      exact .look hopen hlock htask
    · cases h
  case wake task =>
    split at h
    · rename_i request changed htask hopen
      split at h
      · rename_i hpending
        split at h
        · cases h
        · rename_i hsender
          cases h
          exact .wake hopen htask fun _ => Bool.eq_false_iff.mpr hsender
      · rename_i hne
        cases h
        exact .wake hopen htask fun hp => absurd hp hne
    · cases h
  case time_out task =>
    split at h
    · rename_i htask
      obtain ⟨hg, rfl⟩ := of_guard h
      exact .time_out hg.1 htask hg.2
    · cases h
  case acquire task fault =>
    split at h
    · rename_i htask
      obtain ⟨hopen, hlock, rfl⟩ := of_free h
      exact .acquire hopen hlock htask
    · cases h
  case finish task outcome now =>
    split at h
    · rename_i htask
      obtain ⟨hg, rfl⟩ := of_guard h
      split
      · exact .leave hg.1 htask (.finishing hg.2) rfl
      · exact .drop C hg.1 htask rfl
    · cases h
  case finish_section task fault =>
    split at h
    · rename_i htask
      obtain ⟨hopen, hlock, rfl⟩ := of_free h
      exact .finish_section hopen hlock htask
    · cases h
  case abandon task =>
    split at h
    · rename_i htask hopen
      cases h
      exact .leave hopen htask .abandoning rfl
    · cases h
  case abandon_entry task =>
    split at h
    · rename_i htask
      obtain ⟨hopen, hlock, rfl⟩ := of_free h
      exact .abandon_entry hopen hlock htask
    · cases h
  case abandon_persist task fault =>
    split at h
    · rename_i htask
      obtain ⟨hg, rfl⟩ := of_guard h
      exact .abandon_persist hg.1 htask
    · cases h
  case drop task =>
    split at h
    · rename_i htask hopen
      cases h
      exact .drop C hopen htask rfl
    · cases h
  case drop_section task =>
    split at h
    · rename_i htask
      obtain ⟨hopen, hlock, rfl⟩ := of_free h
      exact .drop_section hopen hlock (by rw [htask]; rfl) rfl
    · cases h
  case forget task =>
    split at h
    · rename_i htask
      obtain ⟨hg, rfl⟩ := of_guard h
      exact .leave hg.1 htask .forgotten rfl
    · cases h
  case cancel task =>
    split at h
    · rename_i htask hopen
      cases h
      exact .cancel hopen (.inl ⟨_, _, _, htask⟩)
    · rename_i htask hopen
      cases h
      exact .cancel hopen (.inr ⟨_, _, htask⟩)
    · cases h
  case advance duration =>
    obtain ⟨hmax, rfl⟩ := of_guard h
    exact .advance hmax
  case crash image =>
    obtain ⟨hg, rfl⟩ := of_guard h
    exact .crash hg.1 hg.2
  case exit =>
    obtain ⟨hg, rfl⟩ := of_guard h
    exact .exit hg.1 hg.2
  case reopen resolve loaded_at validated_at now fault =>
    obtain ⟨hg, rfl⟩ := of_guard h
    exact .reopen hg.1 hg.2.1 hg.2.2.1 hg.2.2.2.1 hg.2.2.2.2.1 hg.2.2.2.2.2

/-- A store nobody has used, on a disk, at a time of the clock. -/
def World.start (config : Config) (disk : Disk) (clock : Instant) : World O :=
  ⟨Store.closed config, !config.durable, disk, clock, none, fun _ => .idle, fun _ => .pending, 0, [], []⟩

/-- A world in which nothing has happened yet: a store in memory is there from the start, a
durable one has to be opened, on whatever file there is. -/
structure Initial (w : World O) : Prop where
  store : w.store = Store.closed w.store.config
  opened : w.opened = !w.store.config.durable
  lock : w.lock = none
  tasks : w.tasks = fun _ => .idle
  clock : w.clock + w.store.config.ttl ≤ max_instant
  history : w.history = []
  persisted : w.persisted = []

theorem Initial.start {config : Config} (disk : Disk) {clock : Instant}
    (h : clock + config.ttl ≤ max_instant) : Initial (World.start config disk clock : World O) :=
  ⟨rfl, rfl, rfl, rfl, h, rfl, rfl⟩

end

end BobbyBrowser.Idempotency
