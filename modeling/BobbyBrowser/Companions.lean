/-
Companions of a browser profile, their connections, and their revocation.

A companion authenticates with a pairing code or with the credential it was given
before. A task then serves its socket: it subscribes to revocations, pairs if it has
to, registers the connection, and leaves its loop when the socket ends or when it is
told that its companion was revoked. The channel that tells it keeps only the latest
revocation.
-/
import BobbyBrowser.Keyed
import BobbyBrowser.Transition
import BobbyBrowser.Watch

set_option autoImplicit false

namespace BobbyBrowser.Companions

open Watch

abbrev CompanionId := ℕ

abbrev ProfileId := ℕ

abbrev Instant := ℕ

/-- The SHA-256 of a credential. -/
abbrev Digest := ℕ

/-! ## The registry -/

/-- `RegistryError`, as far as pairing and authentication use it. -/
inductive RegistryError
  | pairing_code_invalid
  | profile_not_found
  | profile_mismatch
  | revoked
  | credential_invalid
  deriving DecidableEq, Repr

/-- `PairingInput`. What the browser says of itself is left out. -/
structure PairingInput where
  pairing_code : String
  companion_id : CompanionId
  profile_id : ProfileId
  deriving DecidableEq, Repr

structure PairedCompanion where
  companion_id : CompanionId
  profile_id : ProfileId
  deriving DecidableEq, Repr

/-- `PairingCodeClaim`, which is also how a code is held. -/
structure PairingCodeClaim where
  pairing_code : String
  expires_at : Instant
  deriving DecidableEq, Repr

/-- `CompanionRecord`, with its key. -/
structure CompanionRecord where
  companion_id : CompanionId
  profile_id : ProfileId
  credential_sha256 : Digest
  revoked : Bool
  deriving DecidableEq, Repr

inductive ConnectionAuthentication
  | pairing (claim : PairingCodeClaim)
  | reconnect (paired : PairedCompanion)
  deriving DecidableEq, Repr

/-- `CompanionRegistry`, without attachments. -/
structure CompanionRegistry where
  pairing_codes : List PairingCodeClaim := []
  companions : List CompanionRecord := []
  profiles : List (ProfileId × CompanionId) := []
  credentials : List (Digest × CompanionId) := []
  revocations : Channel CompanionId := ⟨0, 0⟩

namespace CompanionRegistry

variable (registry : CompanionRegistry)

/-- The record of a companion. -/
def companion (id : CompanionId) : Option CompanionRecord :=
  Keyed.get CompanionRecord.companion_id id registry.companions

/-- The companion is revoked. -/
def is_revoked (id : CompanionId) : Bool := (registry.companion id).any CompanionRecord.revoked

/-- `issue_pairing_code`, with the code and the time it expires at. -/
def issue_pairing_code (code : String) (now expires_at : Instant) : CompanionRegistry :=
  { registry with
    pairing_codes := Keyed.insert PairingCodeClaim.pairing_code ⟨code, expires_at⟩
      (registry.pairing_codes.filter fun claim => now < claim.expires_at) }

/-- The code is taken out, whether or not it has expired. -/
def take_code (code : String) : CompanionRegistry :=
  { registry with
    pairing_codes := Keyed.remove PairingCodeClaim.pairing_code code registry.pairing_codes }

def claim_pairing_code (code : String) (now : Instant) :
    Except RegistryError PairingCodeClaim × CompanionRegistry :=
  match Keyed.get PairingCodeClaim.pairing_code code registry.pairing_codes with
  | none => (.error .pairing_code_invalid, registry)
  | some claim =>
    if claim.expires_at ≤ now then (.error .pairing_code_invalid, registry.take_code code)
    else (.ok claim, registry.take_code code)

/-- The second half of `authenticate_bearer`, for a bearer that is no code. -/
def authenticate_digest (digest : Digest) : Except RegistryError PairedCompanion :=
  match Keyed.get Prod.fst digest registry.credentials with
  | none => .error .credential_invalid
  | some (_, companion_id) =>
    match registry.companion companion_id with
    | none => .error .credential_invalid
    | some record =>
      if record.revoked then .error .revoked
      else if record.credential_sha256 ≠ digest then .error .credential_invalid
      else .ok ⟨companion_id, record.profile_id⟩

def authenticate_bearer (sha256 : String → Digest) (bearer : String)
    (now : Instant) : Except RegistryError ConnectionAuthentication × CompanionRegistry :=
  match Keyed.get PairingCodeClaim.pairing_code bearer registry.pairing_codes with
  | some claim =>
    if claim.expires_at ≤ now then (.error .pairing_code_invalid, registry.take_code bearer)
    else (.ok (.pairing claim), registry.take_code bearer)
  | none =>
    match registry.authenticate_digest (sha256 bearer) with
    | .error error => (.error error, registry)
    | .ok paired => (.ok (.reconnect paired), registry)

/-- The refusals of `pair_claimed`. -/
def pairing_refusal (claim : PairingCodeClaim) (input : PairingInput)
    (now : Instant) : Option RegistryError :=
  if claim.pairing_code ≠ input.pairing_code || claim.expires_at ≤ now then
    some .pairing_code_invalid
  else if registry.is_revoked input.companion_id then some .revoked
  else if (registry.companion input.companion_id).any fun record =>
      record.profile_id ≠ input.profile_id then some .profile_mismatch
  else if (Keyed.get Prod.fst input.profile_id registry.profiles).any fun entry =>
      entry.2 ≠ input.companion_id then some .profile_mismatch
  else none

/-- `pair_claimed`, with the digest of the new credential. -/
def pair_claimed (claim : PairingCodeClaim) (input : PairingInput)
    (now : Instant) (credential_sha256 : Digest) :
    Except RegistryError PairedCompanion × CompanionRegistry :=
  match registry.pairing_refusal claim input now with
  | some error => (.error error, registry)
  | none =>
    let credentials := match registry.companion input.companion_id with
      | some previous =>
        Keyed.remove Prod.fst previous.credential_sha256 registry.credentials
      | none => registry.credentials
    (.ok ⟨input.companion_id, input.profile_id⟩,
      { registry with
        profiles := Keyed.insert Prod.fst (input.profile_id, input.companion_id) registry.profiles
        credentials := Keyed.insert Prod.fst (credential_sha256, input.companion_id) credentials
        companions := Keyed.insert CompanionRecord.companion_id
          ⟨input.companion_id, input.profile_id, credential_sha256, false⟩ registry.companions })

/-- `revoke`. The announcement is lost when no task listens. -/
def revoke (id : CompanionId) (listened : Bool) : Except RegistryError Unit × CompanionRegistry :=
  match registry.companion id with
  | none => (.error .profile_not_found, registry)
  | some _ =>
    (.ok (), { registry with
      companions := registry.companions.map fun record =>
        if record.companion_id = id then { record with revoked := true } else record
      revocations := registry.revocations.send listened id })

end CompanionRegistry

/-! ## The connection tasks -/

/-- Where a task of `companion_upgrade` and `serve_socket` stands. -/
inductive Stage
  /-- Authenticated; the socket is not served yet. -/
  | upgrading (authentication : ConnectionAuthentication)
  /-- Subscribed, in `complete_pairing`. -/
  | pairing (claim : PairingCodeClaim)
  /-- Subscribed and paired, before `register`. -/
  | paired (companion : PairedCompanion)
  /-- In the loop. -/
  | serving (companion : PairedCompanion)
  /-- `revocations.changed()` has returned, and the value is not read yet. -/
  | notified (companion : PairedCompanion)
  /-- Out of the loop, before `unregister`. -/
  | closing (companion : PairedCompanion)
  | done
  deriving DecidableEq, Repr

/-- A task, with the version of the channel it has seen. -/
structure Task where
  stage : Stage
  seen : ℕ := 0
  deriving DecidableEq, Repr

/-- `ActiveSession`, with its key. The identifier of a connection is the number of its task. -/
structure ActiveSession where
  profile_id : ProfileId
  connection_id : ℕ
  companion_id : CompanionId
  deriving DecidableEq, Repr

/-- The server. -/
structure Server where
  registry : CompanionRegistry := {}
  tasks : List Task := []
  sessions : List ActiveSession := []
  /-- Codes that were claimed without a socket. -/
  claims : List PairingCodeClaim := []

/-- The task holds a receiver. -/
def Stage.listens : Stage → Bool
  | .pairing _ | .paired _ | .serving _ | .notified _ | .closing _ => true
  | .upgrading _ | .done => false

/-- `CompanionRequest::Pair`, by what `complete_pairing` looks at. -/
structure PairRequest where
  protocol_version : ℕ
  input : PairingInput
  deriving DecidableEq, Repr

def PROTOCOL_VERSION : ℕ := 1

inductive Action
  | issue_pairing_code (code : String) (now expires_at : Instant)
  | claim_pairing_code (code : String) (now : Instant)
  | pair_claimed (index : ℕ) (input : PairingInput) (now : Instant) (credential_sha256 : Digest)
  | upgrade (bearer : String) (now : Instant)
  | serve (task : ℕ)
  /-- The first request, if there is one before the code expires. -/
  | complete_pairing (task : ℕ) (request : Option PairRequest) (now : Instant)
      (credential_sha256 : Digest)
  /-- The socket fails before the connection is registered. -/
  | abandon (task : ℕ)
  | register (task : ℕ)
  | changed (task : ℕ)
  | borrow (task : ℕ)
  /-- Another branch of the loop ends it. -/
  | leave (task : ℕ)
  | unregister (task : ℕ)
  | revoke (companion_id : CompanionId)

namespace Server

/-- A task goes on. -/
def advance (s : Server) (k : ℕ) (task : Task) : Server := { s with tasks := s.tasks.set k task }

/-- `SessionCoordinator::register`: a new connection takes the place of the profile's old one. -/
def register (s : Server) (k : ℕ) (paired : PairedCompanion) : Server :=
  { s with
    sessions := Keyed.insert ActiveSession.profile_id ⟨paired.profile_id, k, paired.companion_id⟩
      s.sessions }

def unregister (s : Server) (k : ℕ) (paired : PairedCompanion) : Server :=
  if (Keyed.get ActiveSession.profile_id paired.profile_id s.sessions).any fun session =>
      session.connection_id = k then
    { s with sessions := Keyed.remove ActiveSession.profile_id paired.profile_id s.sessions }
  else s

end Server

def step (sha256 : String → Digest) (s : Server) : Action → Option Server
  | .issue_pairing_code code now expires_at =>
    some { s with registry := s.registry.issue_pairing_code code now expires_at }
  | .claim_pairing_code code now =>
    match s.registry.claim_pairing_code code now with
    | (.error _, registry) => some { s with registry }
    | (.ok claim, registry) => some { s with registry, claims := s.claims ++ [claim] }
  | .pair_claimed index input now credential_sha256 => do
    let claim ← s.claims[index]?
    let (_, registry) := s.registry.pair_claimed claim input now credential_sha256
    some { s with registry, claims := s.claims.eraseIdx index }
  | .upgrade bearer now =>
    match s.registry.authenticate_bearer sha256 bearer now with
    | (.error _, registry) => some { s with registry }
    | (.ok authentication, registry) =>
      some { s with registry, tasks := s.tasks ++ [{ stage := .upgrading authentication }] }
  | .serve k => do
    let task ← s.tasks[k]?
    -- the task subscribes before it looks at how it was authenticated
    let seen := s.registry.revocations.subscribe
    match task.stage with
    | .upgrading (.pairing claim) => some (s.advance k ⟨.pairing claim, seen⟩)
    | .upgrading (.reconnect paired) => some (s.advance k ⟨.paired paired, seen⟩)
    | _ => none
  | .complete_pairing k request now credential_sha256 => do
    let task ← s.tasks[k]?
    match task.stage, request with
    | .pairing _, none => some (s.advance k { task with stage := .done })
    | .pairing claim, some request =>
      if request.protocol_version ≠ PROTOCOL_VERSION ||
          request.input.pairing_code ≠ claim.pairing_code then
        some (s.advance k { task with stage := .done })
      else
        match s.registry.pair_claimed claim request.input now credential_sha256 with
        | (.error _, registry) =>
          some ({ s with registry }.advance k { task with stage := .done })
        | (.ok paired, registry) =>
          some ({ s with registry }.advance k { task with stage := .paired paired })
    | _, _ => none
  | .abandon k => do
    let task ← s.tasks[k]?
    match task.stage with
    | .upgrading _ | .pairing _ | .paired _ => some (s.advance k { task with stage := .done })
    | _ => none
  | .register k => do
    let task ← s.tasks[k]?
    match task.stage with
    | .paired paired =>
      some ((s.register k paired).advance k { task with stage := .serving paired })
    | _ => none
  | .changed k => do
    let task ← s.tasks[k]?
    match task.stage with
    | .serving paired =>
      if s.registry.revocations.has_changed task.seen then
        some (s.advance k ⟨.notified paired, s.registry.revocations.version⟩)
      else none
    | _ => none
  | .borrow k => do
    let task ← s.tasks[k]?
    match task.stage with
    | .notified paired =>
      if s.registry.revocations.value = paired.companion_id then
        some (s.advance k { task with stage := .closing paired })
      else some (s.advance k { task with stage := .serving paired })
    | _ => none
  | .leave k => do
    let task ← s.tasks[k]?
    match task.stage with
    | .serving paired => some (s.advance k { task with stage := .closing paired })
    | _ => none
  | .unregister k => do
    let task ← s.tasks[k]?
    match task.stage with
    | .closing paired =>
      some ((s.unregister k paired).advance k { task with stage := .done })
    | _ => none
  | .revoke companion_id =>
    let (_, registry) := s.registry.revoke companion_id
      (s.tasks.any fun task => task.stage.listens)
    some { s with registry }

/-- The task has handled everything it was told. A task that has not registered need not. -/
def handled (revocations : Channel CompanionId) (task : Task) : Bool :=
  match task.stage with
  | .serving _ => !revocations.has_changed task.seen
  | .notified _ | .closing _ => false
  | .upgrading _ | .pairing _ | .paired _ | .done => true

/-- No task has a notification left to handle. -/
def Quiet (s : Server) : Prop := ∀ task ∈ s.tasks, handled s.registry.revocations task = true

instance (s : Server) : Decidable (Quiet s) := inferInstanceAs (Decidable (∀ task ∈ s.tasks, _))

end BobbyBrowser.Companions
