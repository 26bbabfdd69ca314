/-
Bearer tokens that survive a restart.

`AuthorityStore` is the live registry: it enrols the hash of a bearer, and answers
whether a bearer authenticates. `PersistentAuthority` mirrors it to a file. It issues
a bearer and revokes a principal in two sections each, one under the lock of the store
and one under the lock of the records, and at boot it enrols again what the file holds.
-/
import BobbyBrowser.Lines
import BobbyBrowser.Transition

set_option autoImplicit false

namespace BobbyBrowser.Authority

open Lines (Bytes)

/-! ## The live store -/

abbrev PrincipalId := ℕ

abbrev Instant := ℕ

/-- `Capability`, by its place in the enumeration. -/
abbrev Capability := ℕ

/-- `[u8; 32]`. -/
abbrev Bytes32 := { bytes : Bytes // bytes.length = 32 }

/-- `InterfaceErrorCode`, as far as an authority uses it. -/
inductive InterfaceErrorCode
  | authentication_failed
  | resource_exhausted
  | internal
  deriving DecidableEq, Repr

/-- `InterfaceError`. Its other fields are the same for all three. -/
structure InterfaceError where
  code : InterfaceErrorCode
  message : String
  deriving DecidableEq, Repr

def authentication_error : InterfaceError := ⟨.authentication_failed, "authentication failed"⟩

def resource_exhausted_error : InterfaceError :=
  ⟨.resource_exhausted, "authority capacity exhausted"⟩

structure AuthorityRecord where
  token_hash : Bytes32
  principal_id : PrincipalId
  capabilities : List Capability
  expires_at : Instant
  revoked : Bool := false
  deriving DecidableEq

structure CapabilityHandle where
  principal_id : PrincipalId
  capabilities : List Capability
  expires_at : Instant
  deriving DecidableEq

structure AuthorityStore where
  records : List AuthorityRecord
  capacity : ℕ

def capability_handle (record : AuthorityRecord) : CapabilityHandle :=
  ⟨record.principal_id, record.capabilities, record.expires_at⟩

/-- The record may authenticate at that time. -/
def AuthorityRecord.live (now : Instant) (record : AuthorityRecord) : Bool :=
  now < record.expires_at && !record.revoked

/-- `AuthorityStore::enroll_hash`. Dead records make room even when there is none in the end. -/
def AuthorityStore.enroll_hash (store : AuthorityStore) (record : AuthorityRecord) (now : Instant) :
    Except InterfaceError CapabilityHandle × AuthorityStore :=
  if record.expires_at ≤ now then (.error authentication_error, store)
  else
    let records := store.records.filter (AuthorityRecord.live now)
    if store.capacity ≤ records.length then
      (.error resource_exhausted_error, { store with records })
    else (.ok (capability_handle record), { store with records := records ++ [record] })

/-- `AuthorityStore::authenticate`, by the hash of the bearer: the first record counts. -/
def AuthorityStore.authenticate (store : AuthorityStore) (hash : Bytes32) (now : Instant) :
    Except InterfaceError CapabilityHandle :=
  match store.records.find? fun record => record.token_hash = hash with
  | none => .error authentication_error
  | some record =>
    if record.revoked || record.expires_at ≤ now then .error authentication_error
    else .ok (capability_handle record)

def AuthorityStore.revoke (store : AuthorityStore) (principal : PrincipalId) : AuthorityStore :=
  { store with
    records := store.records.map fun record =>
      if record.principal_id = principal then { record with revoked := true } else record }

/-! ## The persisted records -/

structure PersistedRecord where
  token_hash_hex : String
  principal_id : PrincipalId
  capabilities : List Capability
  expires_at : Instant
  revoked : Bool := false
  deriving DecidableEq

/-- `MIN_BEARER_BYTES` and `MAX_BEARER_BYTES`. -/
def MIN_BEARER_BYTES : ℕ := 32

def MAX_BEARER_BYTES : ℕ := 512 - 7

def valid_bearer (bearer : String) : Bool :=
  MIN_BEARER_BYTES ≤ bearer.utf8ByteSize && bearer.utf8ByteSize ≤ MAX_BEARER_BYTES &&
    bearer.toList.all fun c => '!' ≤ c && c ≤ '~'

/-- The libraries: base64 for URLs, SHA-256, hexadecimal digits and JSON. -/
structure Coding where
  encode : Bytes32 → String
  sha256 : String → Bytes32
  hex_encode : Bytes → String
  hex_decode : String → Option Bytes
  to_vec_pretty : List PersistedRecord → Bytes
  from_slice : Bytes → Option (List PersistedRecord)
  valid_encode : ∀ token, valid_bearer (encode token) = true
  hex_decode_encode : ∀ bytes, hex_decode (hex_encode bytes) = some bytes
  from_slice_to_vec : ∀ records, from_slice (to_vec_pretty records) = some records

def Coding.decode_hash (coding : Coding) (hex : String) : Option Bytes32 :=
  match coding.hex_decode hex with
  | none => none
  | some bytes => if h : bytes.length = 32 then some ⟨bytes, h⟩ else none

/-- `EnrolledAuthority::authenticate`. A valid bearer is within the bound on the input of
`AuthorityStore::authenticate`. -/
def Coding.authenticate (coding : Coding) (store : AuthorityStore) (bearer : String)
    (now : Instant) : Except InterfaceError CapabilityHandle :=
  if !valid_bearer bearer then .error authentication_error
  else store.authenticate (coding.sha256 bearer) now

def compact (records : List PersistedRecord) (now : Instant) : List PersistedRecord :=
  records.filter fun record => !record.revoked && now < record.expires_at

structure StartupCredential where
  token_hash : Bytes32
  principal_id : PrincipalId
  capabilities : List Capability
  expires_at : Instant

/-- `EnrolledAuthority::enroll`. One place is reserved for the startup credential. -/
def enroll (startup : StartupCredential) (max_principals : ℕ) (now : Instant) :
    Option AuthorityStore :=
  match AuthorityStore.enroll_hash ⟨[], max_principals + 1⟩
      { token_hash := startup.token_hash, principal_id := startup.principal_id,
        capabilities := startup.capabilities, expires_at := startup.expires_at } now with
  | (.error _, _) => none
  | (.ok _, store) => some store

/-- The live record of a persisted one. -/
def PersistedRecord.restored (record : PersistedRecord) (hash : Bytes32) : AuthorityRecord where
  token_hash := hash
  principal_id := record.principal_id
  capabilities := record.capabilities
  expires_at := record.expires_at

/-- The loop of `PersistentAuthority::open`, with the time of each turn. A full store ends it, any
other refusal fails the boot. -/
def restore (coding : Coding) (store : AuthorityStore) :
    List (PersistedRecord × Instant) → Option AuthorityStore
  | [] => some store
  | (record, now) :: rest =>
    match coding.decode_hash record.token_hash_hex with
    | none => none
    | some hash =>
      match store.enroll_hash (record.restored hash) now with
      | (.ok _, store) => restore coding store rest
      | (.error error, store) => if error.code = .resource_exhausted then some store else none

/-- What the file holds for `PersistentAuthority::open`: nothing if it is absent, or if it is
unreadable and moved aside. -/
def loaded (coding : Coding) (file : Option Bytes) : List PersistedRecord :=
  ((file.bind coding.from_slice)).getD []

/-! ## The process, and its restarts -/

/-- An issue between its two sections. -/
structure Issue where
  /-- The random bytes of the bearer. -/
  token : Bytes32
  principal_id : PrincipalId
  capabilities : List Capability
  expires_at : Instant
  /-- No section of a revocation of the principal has run since the bearer was enrolled. -/
  spared : Bool := true
  deriving DecidableEq

/-- A revocation between its two sections, with the bearers that its first one has stopped. -/
structure Revocation where
  principal_id : PrincipalId
  stopped : List Bytes32
  deriving DecidableEq

/-- A `PersistentAuthority`, and the calls that are under way. -/
structure Process where
  store : AuthorityStore
  records : List PersistedRecord
  issuing : List Issue := []
  revoking : List Revocation := []

/-- The file, the process, and what has happened. -/
structure State where
  file : Option Bytes := none
  process : Option Process := none
  /-- The hashes that have been enrolled, persisted or loaded. -/
  known : List Bytes32 := []
  /-- The bearers that a completed revocation has stopped. -/
  stopped : List Bytes32 := []
  /-- The issues that were acknowledged, and whose principal was not revoked since. -/
  standing : List Issue := []
  /-- The latest time that was read off the clock. -/
  latest : Instant := 0

/-- How `persist` ends. It has no flush before its `sync_all`, so in the source it can also report
success over a file that was cut short; that end is left out. -/
inductive Persist
  | stored
  /-- It fails before the file is replaced. -/
  | failed
  /-- It fails after the file was replaced. -/
  | replaced
  deriving DecidableEq, Repr

/-- The file is replaced. -/
def Persist.writes : Persist → Bool
  | .stored | .replaced => true
  | .failed => false

/-- What can happen. A call that its client abandons may end between its two sections. -/
inductive Action
  | issue_enroll (token : Bytes32) (principal : PrincipalId) (capabilities : List Capability)
      (expires_at now : Instant)
  | issue_persist (index : ℕ) (now : Instant) (persist : Persist)
  | issue_dropped (index : ℕ)
  | revoke_live (principal : PrincipalId)
  | revoke_persist (index : ℕ) (now : Instant) (persist : Persist)
  | revoke_dropped (index : ℕ)
  | stop
  | boot (startup : StartupCredential) (max_principals : ℕ) (enroll_at compact_at : Instant)
      (restore_at : List Instant)

section

variable (coding : Coding)

/-- The hash of a bearer that is made of a token. -/
def Coding.hash (token : Bytes32) : Bytes32 := coding.sha256 (coding.encode token)

/-- The record of an issue. -/
def persisted (issue : Issue) : PersistedRecord where
  token_hash_hex := coding.hex_encode (coding.hash issue.token).1
  principal_id := issue.principal_id
  capabilities := issue.capabilities
  expires_at := issue.expires_at

/-- The live record of an issue. -/
def enrolled (issue : Issue) : AuthorityRecord where
  token_hash := coding.hash issue.token
  principal_id := issue.principal_id
  capabilities := issue.capabilities
  expires_at := issue.expires_at

/-- The second section of `PersistentAuthority::issue` and `revoke`: `persist` writes the records
that are left of these. -/
def persist_records (s : State) (p : Process) (records : List PersistedRecord) (now : Instant)
    (persist : Persist) : State :=
  { s with
    file := if persist.writes then some (coding.to_vec_pretty (compact records now)) else s.file
    process := some { p with records := compact records now }
    latest := max s.latest now }

/-- A revocation of the principal has a section. -/
def spare (principal : PrincipalId) (issues : List Issue) : List Issue :=
  issues.map fun issue =>
    if issue.principal_id = principal then { issue with spared := false } else issue

/-- One step. The token of an issue is random: its hash is none of those known. -/
def step (s : State) : Action → Option State
  | .issue_enroll token principal capabilities expires_at now => do
    let p ← s.process
    let issue : Issue := { token, principal_id := principal, capabilities, expires_at }
    if coding.hash token ∈ s.known then none
    else
      let s := { s with known := coding.hash token :: s.known, latest := max s.latest now }
      match p.store.enroll_hash (enrolled coding issue) now with
      | (.error _, store) => some { s with process := some { p with store } }
      | (.ok _, store) =>
        some { s with process := some { p with store, issuing := p.issuing ++ [issue] } }
  | .issue_persist index now persist => do
    let p ← s.process
    let issue ← p.issuing[index]?
    let p := { p with issuing := p.issuing.eraseIdx index }
    let s := persist_records coding s p (p.records ++ [persisted coding issue]) now persist
    some { s with
      standing := if persist = .stored && issue.spared then issue :: s.standing else s.standing }
  | .issue_dropped index => do
    let p ← s.process
    some { s with process := some { p with issuing := p.issuing.eraseIdx index } }
  | .revoke_live principal => do
    let p ← s.process
    let stopped := (p.store.records.filter fun record => record.principal_id = principal).map
      AuthorityRecord.token_hash
    some { s with
      process := some { p with
        store := p.store.revoke principal
        issuing := spare principal p.issuing
        revoking := p.revoking ++ [⟨principal, stopped⟩] }
      standing := s.standing.filter fun issue => issue.principal_id ≠ principal }
  | .revoke_persist index now persist => do
    let p ← s.process
    let revocation ← p.revoking[index]?
    let p := { p with
      issuing := spare revocation.principal_id p.issuing
      revoking := p.revoking.eraseIdx index }
    let records := p.records.map fun record =>
      if record.principal_id = revocation.principal_id then { record with revoked := true }
      else record
    let s := persist_records coding s p records now persist
    some { s with
      stopped := if persist = .stored then revocation.stopped ++ s.stopped else s.stopped
      standing := s.standing.filter fun issue => issue.principal_id ≠ revocation.principal_id }
  | .revoke_dropped index => do
    let p ← s.process
    some { s with process := some { p with revoking := p.revoking.eraseIdx index } }
  | .stop => some { s with process := none }
  | .boot startup max_principals enroll_at compact_at restore_at =>
    let records := compact (loaded coding s.file) compact_at
    if restore_at.length ≠ records.length then none
    else
      let file := if (s.file.bind coding.from_slice).isSome then s.file else none
      let store := do
        let store ← enroll startup max_principals enroll_at
        restore coding store (records.zip restore_at)
      some { s with
        file
        process := store.map fun store => { store, records }
        known := startup.token_hash :: s.known
        latest := (enroll_at :: compact_at :: restore_at).foldl max s.latest }

/-- The hashes of persisted records. -/
def hashes (records : List PersistedRecord) : List Bytes32 :=
  records.filterMap fun record => coding.decode_hash record.token_hash_hex

/-- A file in which no hash occurs twice, and nothing has happened. -/
def Initial (s : State) : Prop :=
  ∃ file, (hashes coding (loaded coding file)).Nodup ∧
    s = { file, known := hashes coding (loaded coding file) }

end

end BobbyBrowser.Authority
