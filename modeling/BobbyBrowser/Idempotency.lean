/-
The idempotency store in memory (`crates/interface-core/src/idempotency.rs`).

A caller reserves a key, runs its request under the permit it gets, and finishes
or abandons the permit; everyone else who brings the key waits for the owner or
replays what the owner retained. This module holds the store's data and its
critical sections as functions: what one holder of the store's mutex does
between taking it and releasing it. `IdempotencyRun` interleaves them.

The source keeps the entries in a map from principals to vectors. Here they are
one list whose entries carry their principal; a principal's bucket is the part
of the list with that principal, in the same order, and an empty bucket is no
bucket. `Vec::remove` at a found position drops the first match only
(`remove_first`): that keys are unique is a theorem, not a property of the
representation.
-/
import BobbyBrowser.Ledger
import BobbyBrowser.Outcomes

set_option autoImplicit false

namespace BobbyBrowser.Idempotency

open Jsonl Ledger Outcomes

/-! ## Errors -/

/-- `CorrelationId`, a UUID. -/
abbrev CorrelationId := Fin (2 ^ 128)

inductive InterfaceErrorCode
  | invalid_request | unsupported_interface_version | invalid_idempotency_key
  | idempotency_conflict | deadline_exceeded | authentication_failed | token_expired
  | missing_capability | malformed_scope | artifact_denied | unsupported_operation | not_found
  | resource_exhausted | engine_unreachable | internal
  deriving DecidableEq, Repr

/-- `InterfaceError`. The store's errors name no command and no capability. -/
structure InterfaceError where
  code : InterfaceErrorCode
  layer : ErrorLayer
  message : String
  correlation_id : CorrelationId
  retryable : Bool
  retry_after_ms : Option ℕ
  reconciliation_required : Bool
  deriving DecidableEq, Repr

variable (correlation_id : CorrelationId)

def conflict_error : InterfaceError :=
  ⟨.idempotency_conflict, .interface, "idempotency key conflicts with a retained request",
    correlation_id, false, none, false⟩

def unresolved_error : InterfaceError :=
  ⟨.idempotency_conflict, .interface,
    "idempotency outcome is unresolved; inspect the authoritative operation before retrying",
    correlation_id, false, none, true⟩

/-- The error of `ensure_writable`. -/
def unwritable_error : InterfaceError :=
  { unresolved_error correlation_id with
    message := "durable idempotency history requires repair before mutation" }

def persistence_error : InterfaceError :=
  ⟨.internal, .interface, "idempotency state could not be durably recorded",
    correlation_id, false, none, true⟩

def deadline_error : InterfaceError :=
  ⟨.deadline_exceeded, .interface, "request deadline exceeded while awaiting idempotent result",
    correlation_id, false, none, false⟩

def resource_exhausted_error : InterfaceError :=
  ⟨.resource_exhausted, .interface, "idempotency capacity exhausted",
    correlation_id, true, some 1000, false⟩

/-! ## Entries -/

/-- `RetainedOutcome`: outcome types the store can retain and replay, with `V` for the JSON
values they are stored as. -/
class RetainedOutcome (O : Type) (V : outParam Type) where
  /-- Finishing with this outcome releases the reservation instead of retaining it. -/
  releases_reservation : O → Bool
  /-- This outcome must never expire or be evicted. -/
  safety_relevant : O → Bool
  /-- The effect behind this outcome is unknown. -/
  uncertain : O → Bool
  durable_value : O → Option V

open RetainedOutcome

def outcome_releases {E : Type} : CommandOutcome E → Bool
  | .retryable_failure _ _ | .resource_exhausted _ _ _ | .policy_denied _ _ => true
  | .failed _ error _ => error.retryable
  | _ => false

/-- Command outcomes store only their journal identity; the command journal remains the source of
page evidence. -/
instance (E : Type) : RetainedOutcome (CommandOutcome E) CommandId where
  releases_reservation := outcome_releases
  safety_relevant
    | .completed _ _ => false
    | _ => true
  uncertain
    | .needs_reconciliation _ _ _ => true
    | _ => false
  durable_value outcome := some outcome.command_id

/-- A `watch` channel: its number in the order of creation. -/
abbrev ChannelId := ℕ

section

variable (O : Type)

inductive EntryState
  | reserved (generation : ℕ) (changed : ChannelId)
  | retained (outcome : O) (safety_relevant : Bool)
  | unresolved
  deriving DecidableEq

/-- `ReservationUpdate`: what a reservation's channel holds. -/
inductive ReservationUpdate
  | pending
  | replay (outcome : O)
  | released
  | unresolved

/-- `Entry`, with the principal whose bucket it is in. -/
structure Entry where
  principal_id : PrincipalId
  key : IdempotencyKey
  operation : InterfaceOperation
  canonical_sha256 : Digest
  state : EntryState O
  expires_at : Option Instant
  last_used : ℕ

structure StoreState where
  entries : List (Entry O)
  sequence : ℕ
  dirty : List Key

end

/-- What a caller asks for with `reserve`. -/
structure Request where
  principal_id : PrincipalId
  key : IdempotencyKey
  operation : InterfaceOperation
  canonical_sha256 : Digest
  deadline : Instant
  correlation_id : CorrelationId
  deriving DecidableEq

/-- `IdempotencyPermit`. Whether it is armed is where the task that holds it stands. -/
structure Permit where
  principal_id : PrincipalId
  key : IdempotencyKey
  operation : InterfaceOperation
  canonical_sha256 : Digest
  generation : ℕ
  correlation_id : CorrelationId
  deriving DecidableEq

/-- The key a request is filed under. -/
def Request.identity (r : Request) : Key := (r.principal_id, r.key)

/-- The key a permit is for. -/
def Permit.identity (p : Permit) : Key := (p.principal_id, p.key)

section

variable {O V : Type}

/-- The key an entry is filed under. -/
def Entry.identity (e : Entry O) : Key := (e.principal_id, e.key)

/-- The channel of a reserved entry. -/
def EntryState.channel : EntryState O → Option ChannelId
  | .reserved _ changed => some changed
  | _ => none

/-- The entry is still the reservation the permit was given for. -/
def Permit.matches (p : Permit) (e : Entry O) : Bool :=
  e.operation = p.operation && e.canonical_sha256 = p.canonical_sha256 &&
    match e.state with
    | .reserved generation _ => generation = p.generation
    | _ => false

/-- `u64::wrapping_add(1)`. -/
def wrapping_succ (n : ℕ) : ℕ := (n + 1) % 2 ^ 64

/-- `HashSet::insert`. -/
def mark (k : Key) (dirty : List Key) : List Key := if k ∈ dirty then dirty else k :: dirty

/-- Inserting many keys. -/
def mark_all (ks : List Key) (dirty : List Key) : List Key := ks.foldr mark dirty

/-- `Vec::remove` at the position of the first entry with the key. -/
def remove_first (k : Key) (entries : List (Entry O)) : List (Entry O) :=
  entries.eraseP fun e => e.identity = k

/-- Changing the first entry that meets `p`, as `iter_mut().find` does. -/
def modify_first (p : Entry O → Bool) (f : Entry O → Entry O) : List (Entry O) → List (Entry O)
  | [] => []
  | e :: es => if p e then f e :: es else e :: modify_first p f es

/-- The entry a lookup finds. -/
def find_entry (k : Key) (entries : List (Entry O)) : Option (Entry O) :=
  Keyed.get Entry.identity k entries

/-! ## Expiry and eviction -/

/-- An entry whose time has come. -/
def Entry.expired (now : Instant) (e : Entry O) : Bool := e.expires_at.any (· ≤ now)

variable (state : StoreState O)

def cleanup_expired (now : Instant) : StoreState O :=
  { state with
    entries := state.entries.filter fun e => !e.expired now
    dirty := mark_all ((state.entries.filter (Entry.expired now)).map Entry.identity) state.dirty }

def entry_is_evictable (e : Entry O) : Bool :=
  match e.state with
  | .retained _ safety_relevant => !safety_relevant
  | _ => false

/-- `min_by_key` on `last_used`: the first of the least recently used. -/
def oldest : List (Entry O) → Option (Entry O)
  | [] => none
  | e :: es =>
    match oldest es with
    | none => some e
    | some m => if m.last_used < e.last_used then some m else some e

/-- Dropping the least recently used evictable entry among the `member`s. -/
def remove_oldest_evictable (member : Entry O → Bool) (entries : List (Entry O)) :
    Option (Key × List (Entry O)) :=
  match oldest (entries.filter fun e => member e && entry_is_evictable e) with
  | none => none
  | some m => some (m.identity, entries.eraseP fun e =>
      member e && entry_is_evictable e && e.last_used = m.last_used && e.identity = m.identity)

/-- The loop of `make_principal_room` and `make_global_room`: evict until fewer than `capacity`
of the `member`s are left, or none of them can go. Every round drops an entry, so the number of
entries is fuel enough. -/
def make_room (member : Entry O → Bool) (capacity : ℕ) : ℕ → StoreState O → StoreState O
  | 0, state => state
  | fuel + 1, state =>
    if state.entries.countP member < capacity then state
    else match remove_oldest_evictable member state.entries with
      | none => state
      | some (key, entries) =>
        make_room member capacity fuel
          { state with entries := entries, dirty := mark key state.dirty }

variable (principal : PrincipalId)

/-- The entries of one principal. -/
def in_bucket (e : Entry O) : Bool := e.principal_id = principal

def make_principal_room (capacity : ℕ) : StoreState O :=
  make_room (in_bucket principal) capacity state.entries.length state

def make_global_room (capacity : ℕ) : StoreState O :=
  make_room (fun _ => true) capacity state.entries.length state

def entry_count : ℕ := state.entries.length

/-- The length of a principal's bucket. -/
def principal_len : ℕ := state.entries.countP (in_bucket principal)

/-! ## The store -/

/-- The fixed part of a store. `open_durable` always builds on `Default`, so a durable store has
the default capacities and lifetime. -/
structure Config where
  per_principal_capacity : ℕ
  global_capacity : ℕ
  ttl : ℕ
  durable : Bool
  durable_default : durable = true →
    per_principal_capacity = 256 ∧ global_capacity = 4096 ∧ ttl = 15 * 60 * 1000000000

/-- The configuration of a durable store. -/
def Config.open_durable : Config := ⟨256, 4096, 15 * 60 * 1000000000, true, fun _ => ⟨rfl, rfl, rfl⟩⟩

/-- `IdempotencyStore`, with the persistence of a durable one. -/
structure Store (O : Type) where
  config : Config
  state : StoreState O
  journal : Journal
  failed : Bool
  integrity_issue : Option IntegrityIssue

/-- `integrity_issue`: why durable history cannot authorize writes. -/
def Store.issue (store : Store O) : Option IntegrityIssue :=
  store.integrity_issue.or
    (if store.config.durable && store.failed then some .ledger_write_failed else none)

/-- `ensure_writable`, as a check. -/
def Store.writable (store : Store O) : Bool := store.issue.isNone

variable [RetainedOutcome O V] (C : Codec V)

def durable_entry (e : Entry O) : Except IoError (DurableEntry V) :=
  let build (state : DurableState V) : DurableEntry V :=
    ⟨e.principal_id, e.key, e.operation, e.canonical_sha256, e.expires_at, e.last_used, state⟩
  match e.state with
  | .reserved _ _ => .ok (build .reserved)
  | .unresolved => .ok (build .unresolved)
  | .retained outcome _ =>
    match durable_value outcome with
    | none => .error ⟨.other, "outcome has no durable value"⟩
    | some value =>
      if 64 * 1024 < (C.value_bytes value).length then
        .error ⟨.other, "idempotency outcome exceeds durable bound"⟩
      else .ok (build (.retained value))

/-- `durable_entry` of each, up to the first that fails. -/
def durable_entries : List (Entry O) → Except IoError (List (DurableEntry V))
  | [] => .ok []
  | e :: es =>
    match durable_entry C e with
    | .error error => .error error
    | .ok d =>
      match durable_entries es with
      | .error error => .error error
      | .ok ds => .ok (d :: ds)

/-- The dirty keys that still have an entry. -/
def dirty_entries : List (Entry O) := state.dirty.filterMap (find_entry · state.entries)

/-- The dirty keys that have none. -/
def dirty_removes : List Key := state.dirty.filter fun k => (find_entry k state.entries).isNone

/-- Clearing the dirty keys after a write, or latching its failure. -/
def Store.settle (store : Store O) (result : Except IoError Unit × Journal × Disk) :
    Except IoError Unit × Store O × Disk :=
  match result with
  | (.ok (), journal, disk) =>
    (.ok (), { store with state := { store.state with dirty := [] }, journal := journal }, disk)
  | (.error e, journal, disk) => (.error e, { store with journal := journal, failed := true }, disk)

def persist_locked (store : Store O) (disk : Disk) (fault : Fault) :
    Except IoError Unit × Store O × Disk :=
  if store.issue.isSome then
    (.error ⟨.other, "durable idempotency history requires repair"⟩, store, disk)
  else if !store.config.durable then
    (.ok (), { store with state := { store.state with dirty := [] } }, disk)
  else if store.journal.needs_checkpoint then
    match durable_entries C store.state.entries with
    | .error e => (.error e, store, disk)
    | .ok entries => store.settle (store.journal.checkpoint C disk entries fault)
  else
    match durable_entries C (dirty_entries store.state) with
    | .error e => (.error e, store, disk)
    | .ok updates =>
      if updates = [] ∧ dirty_removes store.state = [] then (.ok (), store, disk)
      else store.settle (store.journal.append C disk updates (dirty_removes store.state) fault)

/-! ## The sections of `reserve` -/

/-- What the first section of `reserve` finds. -/
inductive Look (O : Type)
  | failed (error : InterfaceError)
  | replay (outcome : O)
  | wait (changed : ChannelId)
  | absent

/-- A different request under this key has to reconcile first. -/
def EntryState.is_uncertain : EntryState O → Bool
  | .unresolved => true
  | .retained outcome _ => uncertain outcome
  | .reserved _ _ => false

variable (request : Request)

/-- The first section of `reserve`: look the key up, and touch its entry. -/
def look (state : StoreState O) (request : Request) (now : Instant) : StoreState O × Look O :=
  let state := cleanup_expired state now
  let state := { state with sequence := wrapping_succ state.sequence }
  match find_entry request.identity state.entries with
  | none => (state, .absent)
  | some entry =>
    let rest := remove_first request.identity state.entries
    if entry.operation ≠ request.operation
        ∨ entry.canonical_sha256 ≠ request.canonical_sha256 then
      ({ state with entries := rest ++ [entry] },
        .failed (if entry.state.is_uncertain then unresolved_error request.correlation_id
          else conflict_error request.correlation_id))
    else
      let state := { state with
        entries := rest ++ [{ entry with last_used := state.sequence }]
        dirty := mark request.identity state.dirty }
      match entry.state with
      | .reserved _ changed => (state, .wait changed)
      | .retained outcome _ => (state, .replay outcome)
      | .unresolved => (state, .failed (unresolved_error request.correlation_id))

/-- What the second section of `reserve` returns. -/
inductive Acquisition
  | failed (error : InterfaceError)
  /-- Somebody else took the key in between: look again. -/
  | occupied
  | granted (permit : Permit)

/-- The entry with its outcome unknown. -/
def Entry.unresolve (e : Entry O) : Entry O := { e with state := .unresolved }

/-- The reservation `reserve` files, under a generation and a channel. -/
def Request.entry (generation : ℕ) (channel : ChannelId) : Entry O :=
  ⟨request.principal_id, request.key, request.operation, request.canonical_sha256,
    .reserved generation channel, none, generation⟩

/-- The permit for it. -/
def Request.permit (generation : ℕ) : Permit :=
  ⟨request.principal_id, request.key, request.operation, request.canonical_sha256, generation,
    request.correlation_id⟩

/-- The state in which the second section of `reserve` files its entry. -/
def make_space (store : Store O) (request : Request) (now : Instant) : StoreState O :=
  make_global_room
    (make_principal_room (cleanup_expired store.state now) request.principal_id
      store.config.per_principal_capacity)
    store.config.global_capacity

/-- The state with the reservation filed, under the next generation. -/
def filed_state (channel : ChannelId) : StoreState O :=
  let generation := wrapping_succ state.sequence
  ⟨state.entries ++ [request.entry generation channel], generation,
    mark request.identity state.dirty⟩

/-- The second section of `reserve`: make room, file the reservation and persist it. -/
def acquire (store : Store O) (disk : Disk) (request : Request) (now : Instant)
    (channel : ChannelId) (fault : Fault) : Acquisition × Store O × Disk :=
  if !store.writable then (.failed (unwritable_error request.correlation_id), store, disk)
  else if (find_entry request.identity (cleanup_expired store.state now).entries).isSome then
    (.occupied, { store with state := cleanup_expired store.state now }, disk)
  else
    let state := make_space store request now
    if store.config.per_principal_capacity = 0 ∨ store.config.global_capacity = 0
        ∨ store.config.per_principal_capacity ≤ principal_len state request.principal_id
        ∨ store.config.global_capacity ≤ entry_count state then
      (.failed (resource_exhausted_error request.correlation_id), { store with state := state }, disk)
    else
      match persist_locked C { store with state := filed_state state request channel } disk
          fault with
      | (.ok (), store, disk) =>
        (.granted (request.permit (wrapping_succ state.sequence)), store, disk)
      | (.error _, store, disk) =>
        (.failed (persistence_error request.correlation_id),
          { store with state := { store.state with
              entries := modify_first (fun e => e.identity = request.identity) Entry.unresolve
                store.state.entries } }, disk)

/-! ## The sections of the permit -/

variable (permit : Permit)

/-- An unresolved entry for a permit whose release could not be recorded. -/
def Permit.unresolved_entry : Entry O :=
  ⟨permit.principal_id, permit.key, permit.operation, permit.canonical_sha256, .unresolved, none,
    permit.generation⟩

/-- What `finish_inner` leaves behind when its outcome could not be recorded. -/
def unresolve_or_push (entries : List (Entry O)) : List (Entry O) :=
  if (find_entry permit.identity entries).isSome then
    modify_first (fun e => e.identity = permit.identity)
      (fun e => { e with state := .unresolved, expires_at := none }) entries
  else entries ++ [permit.unresolved_entry]

/-- The state `finish_inner` persists: the entry retained, or removed when the outcome
releases it. -/
def finish_state (store : Store O) (permit : Permit) (entry : Entry O) (outcome : O)
    (now : Instant) : StoreState O :=
  let rest := remove_first permit.identity store.state.entries
  let dirty := mark permit.identity store.state.dirty
  if releases_reservation outcome then { store.state with entries := rest, dirty := dirty }
  else
    let sequence := wrapping_succ store.state.sequence
    ⟨rest ++ [{ entry with
        last_used := sequence
        expires_at := if safety_relevant outcome then none else some (now + store.config.ttl)
        state := .retained outcome (safety_relevant outcome) }], sequence, dirty⟩

/-- What `finish_inner` returns, with what it publishes on the reservation's channel. -/
inductive Finish (O : Type)
  /-- The permit matches no reservation. -/
  | conflict (error : InterfaceError)
  | unrecorded (changed : ChannelId) (error : InterfaceError)
  | recorded (changed : ChannelId) (update : ReservationUpdate O)

/-- The section of `finish_inner`, which a store that is not writable never enters. -/
def finish_section (store : Store O) (disk : Disk) (permit : Permit) (outcome : O) (now : Instant)
    (fault : Fault) : Finish O × Store O × Disk :=
  match find_entry permit.identity store.state.entries with
  | none => (.conflict (conflict_error permit.correlation_id), store, disk)
  | some entry =>
    match permit.matches entry, entry.state.channel with
    | true, some changed =>
      match persist_locked C { store with
          state := finish_state store permit entry outcome now } disk fault with
      | (.ok (), store, disk) =>
        (.recorded changed (if releases_reservation outcome then .released else .replay outcome),
          store, disk)
      | (.error _, store, disk) =>
        (.unrecorded changed (persistence_error permit.correlation_id),
          { store with state := { store.state with
              entries := unresolve_or_push permit store.state.entries } }, disk)
    | _, _ =>
      (.conflict (conflict_error permit.correlation_id),
        { store with state := { store.state with
            entries := remove_first permit.identity store.state.entries ++ [entry] } }, disk)

/-- `abandon_entry`: remove the reservation and say whose waiters are released. -/
def abandon_entry : StoreState O × Option ChannelId :=
  let mine (e : Entry O) : Bool := e.identity = permit.identity && permit.matches e
  match state.entries.find? mine with
  | none => (state, none)
  | some entry =>
    ({ state with
      entries := state.entries.eraseP mine
      dirty := mark permit.identity state.dirty }, entry.state.channel)

/-- `unresolve_entry`: keep the reservation as an unresolved entry. -/
def unresolve_entry : StoreState O × Option ChannelId :=
  let mine (e : Entry O) : Bool := e.identity = permit.identity && permit.matches e
  match state.entries.find? mine with
  | none => (state, none)
  | some entry =>
    ({ state with
      entries := modify_first mine Entry.unresolve state.entries
      dirty := mark permit.identity state.dirty }, entry.state.channel)

/-- The end of `abandon_inner`: persist the release, or file the key as unresolved. -/
def abandon_persist (store : Store O) (disk : Disk) (permit : Permit) (fault : Fault) :
    Bool × Store O × Disk :=
  match persist_locked C store disk fault with
  | (.ok (), store, disk) => (true, store, disk)
  | (.error _, store, disk) =>
    (false, { store with state := { store.state with
        entries := store.state.entries ++ [permit.unresolved_entry] } }, disk)

/-! ## Opening -/

variable (resolve : V → Option O)

/-- What `open_durable` restores an entry to, and whether the ledger has to say so. -/
def restore_entry (d : DurableEntry V) : Entry O :=
  let state : EntryState O := match d.state with
    | .reserved | .unresolved => .unresolved
    -- An outcome that cannot be resolved is unknown, so the key is unresolved.
    | .retained value =>
      match resolve value with
      | some outcome => .retained outcome (safety_relevant outcome)
      | none => .unresolved
  let expires_at := match state with
    | .retained _ false => d.expires_at
    -- Missing authority cannot become permission to retry after TTL.
    | _ => none
  ⟨d.principal_id, d.key, d.operation, d.canonical_sha256, state, expires_at, d.last_used⟩

/-- The expiry of the recorded entry does not survive its restoration. -/
def loses_expiry (d : DurableEntry V) : Bool :=
  d.expires_at.isSome && (restore_entry resolve d).expires_at.isNone

/-- The loop of `open_durable` over the loaded entries. -/
def restore (now : Instant) (entries : List (DurableEntry V)) :
    StoreState O where
  entries := (live now entries).map (restore_entry resolve)
  sequence := (live now entries).foldl (fun n d => max n d.last_used) 0
  dirty := mark_all ((entries.filter fun d => d.expired now || loses_expiry resolve d).map
    DurableEntry.identity) []

/-- The store as `open_durable` restores it, before it protects what it could not resolve. -/
def restored_store (now : Instant) (journal : Journal)
    (entries : List (DurableEntry V)) : Store O :=
  ⟨.open_durable, restore resolve now entries, journal, false, none⟩

/-- `open_durable`. The clock moves on between loading the file, validating its entries and
restoring them. -/
def open_durable (disk : Disk) (resolve : V → Option O) (loaded_at validated_at now : Instant)
    (fault : Fault) : Store O × Disk :=
  let opened := open_journal C loaded_at validated_at disk
  match opened.2 with
  | .error issue => (⟨.open_durable, ⟨[], 0, []⟩, opened.1, false, some issue⟩, disk)
  | .ok entries =>
    let store := restored_store resolve now opened.1 entries
    if (live now entries).any (loses_expiry resolve) then
      match persist_locked C store disk fault with
      | (.ok (), store, disk) => (store, disk)
      | (.error _, store, disk) =>
        ({ store with integrity_issue := some .ledger_write_failed }, disk)
    else (store, disk)

end

end BobbyBrowser.Idempotency
