import PasswdSso.Vault.Rotation

/-!
# Emergency access grants

The routes under `/api/emergency-access` that move a grant through its states: acceptance by token or
by id, `confirm`, `request`, `approve`, `revoke`, and the `vault` route, which promotes a request whose
waiting period is over. All of them end in `transition`, a compare-and-swap on the status that follows
the matrix. The rows of an owner are in the tenant of the owner, and the routes of grantees run without
row-level security, so it is left out here.
-/

namespace PasswdSso.EmergencyAccess

open ReadCommitted Vault

/-- The error responses. -/
inductive Refusal
  | notFound
  | invitationExpired
  | invitationWrongEmail
  | invitationAlreadyUsed
  | notAuthorizedForGrant
  | cannotGrantSelf
  | grantNotPending
  | userNotFound
  | incompatibleKeyAlgorithm
  | invalidStatus
  | notActivated
  | grantRevoked
  | emergencyRecoveryKeyMissing
  | thrown (error : Thrown)

/-- `withBypassRls` around a transaction that writes. -/
def withBypassRls {α : Type} (label : α → Event) (body : Server (Except Thrown α)) : Server (Except Thrown α) :=
  Prog.transaction label body

/-- `transition`: whether a row was updated. -/
def transition (sel : EmergencyGrant → Bool) (target : EaStatus) (actor : EaActor)
    (extraData : EmergencyGrant → EmergencyGrant) : Server (Except Thrown Bool) := do
  let count ← bulkTransition sel target actor extraData
  if count > 1 then return .error .transitionMatchedMany else return .ok (count = 1)

/-- `emergencyAccessGrant.findUnique`. -/
def Store.grant (db : Store) (id : Uuid) : Option EmergencyGrant := db.grants.find? (·.id = id)

def grantEvent (id : Uuid) (event : GrantEvent) (ok : Bool) : Event :=
  if ok then .grant id event else .other

section Accept

/-- What a grantee submits with an acceptance; `now` is the clock of the route. -/
structure AcceptRequest where
  userId : Uuid
  email : String
  granteePublicKey : String
  encryptedPrivateKey : Sealed
  now : Millis

variable (toLowerCase : String → String) (req : AcceptRequest)

/-- `emergencyAccessKeyPair.create`. -/
def createKeyPair (row : EmergencyKeyPair) : Server (Except Thrown Unit) := do
  if ← .insert [.keyPair row.grantId]
      (fun db : Store ↦ db.keyPairs.any (·.grantId = row.grantId)) (keyPairTable.append [row]) then
    return .error .uniqueViolation
  return .ok ()

def AcceptRequest.apply (row : EmergencyGrant) : EmergencyGrant :=
  { row with granteeId := some req.userId, granteePublicKey := some req.granteePublicKey }

/-- The transaction of an acceptance: the key pair is created only if the grant was pending. -/
def acceptBody (grant : EmergencyGrant) (sel : EmergencyGrant → Bool) : Server (Except Thrown Bool) :=
  Prog.andThen (transition sel .accepted .grantee req.apply) fun ok ↦
    if ok then
      Prog.andThen (createKeyPair ⟨grant.id, grant.tenantId, req.encryptedPrivateKey⟩) fun _ ↦
        return .ok true
    else return .ok false

def acceptGrant (grant : EmergencyGrant) (sel : EmergencyGrant → Bool) (conflict : Refusal) :
    Server (Except Refusal EaStatus) := do
  match ← withBypassRls (fun _ ↦ .other) (acceptBody req grant sel) with
  | .error thrown => return .error (.thrown thrown)
  | .ok ok => if ok then return .ok .accepted else return .error conflict

/-- `POST /api/emergency-access/accept`; `tokenHash` is the hash of the submitted token. -/
def acceptByToken (tokenHash : String) : Server (Except Refusal EaStatus) := do
  match ← .readOnly fun db : Store ↦ db.grants.find? (·.tokenHash = tokenHash) with
  | none => return .error .notFound
  | some grant =>
    if grant.tokenExpiresAt < req.now then return .error .invitationExpired
    else if toLowerCase grant.granteeEmail ≠ toLowerCase req.email then
      return .error .invitationWrongEmail
    else if grant.ownerId = req.userId then return .error .cannotGrantSelf
    else
      acceptGrant req grant (fun row ↦ row.id = grant.id && row.tokenHash = grant.tokenHash) .invitationAlreadyUsed

/-- `POST /api/emergency-access/[id]/accept`. -/
def acceptById (id : Uuid) : Server (Except Refusal EaStatus) := do
  match ← .readOnly (Store.grant · id) with
  | none => return .error .notFound
  | some grant =>
    if grant.tokenExpiresAt < req.now then return .error .invitationExpired
    else if toLowerCase grant.granteeEmail ≠ toLowerCase req.email then
      return .error .notAuthorizedForGrant
    else if grant.ownerId = req.userId then return .error .cannotGrantSelf
    else
      acceptGrant req grant (fun row ↦ row.id = id && row.granteeEmail = grant.granteeEmail) .grantNotPending

end Accept

def transitionAsOwner (ownerId id : Uuid) (target : EaStatus) (event : Bool → Event)
    (extraData : EmergencyGrant → EmergencyGrant) : Server (Except Refusal EaStatus) := do
  match ← withUserTenantRls ownerId event fun _ ↦
      transition (fun row ↦ row.id = id && row.ownerId = ownerId) target .owner extraData with
  | .error thrown => return .error (.thrown thrown)
  | .ok ok => if ok then return .ok target else return .error .invalidStatus

structure ConfirmRequest where
  userId : Uuid
  id : Uuid
  ownerEphemeralPublicKey : String
  encryptedSecretKey : Sealed
  hkdfSalt : String
  wrapVersion : Nat

def supportedKeyAlgorithms : Nat → List String
  | 1 => ["ECDH-P256"]
  | _ => []

def ConfirmRequest.apply (req : ConfirmRequest) (keyVersion : Nat) (row : EmergencyGrant) :
    EmergencyGrant :=
  { row with
    ownerEphemeralPublicKey := some req.ownerEphemeralPublicKey
    encryptedSecretKey := some req.encryptedSecretKey
    hkdfSalt := some req.hkdfSalt
    wrapVersion := req.wrapVersion
    keyVersion := some keyVersion }

/-- `POST /api/emergency-access/[id]/confirm`; the key version is read in a transaction of its own. -/
def confirmGrant (req : ConfirmRequest) : Server (Except Refusal EaStatus) := do
  match ← readAsUser req.userId (Store.grant · req.id) with
  | .error thrown => return .error (.thrown thrown)
  | .ok none => return .error .notFound
  | .ok (some grant) =>
    if grant.ownerId ≠ req.userId then return .error .notFound
    else
      match ← readAsUser req.userId fun db ↦ db.users req.userId with
      | .error thrown => return .error (.thrown thrown)
      | .ok none => return .error .userNotFound
      | .ok (some owner) =>
        if grant.keyAlgorithm ∉ supportedKeyAlgorithms req.wrapVersion then
          return .error .incompatibleKeyAlgorithm
        else
          transitionAsOwner req.userId req.id .idle
            (grantEvent req.id (.confirmed req.userId owner.keyVersion)) (req.apply owner.keyVersion)

/-- The routes of the owner of a grant that have nothing to check but the owner. -/
def asOwner (userId id : Uuid) (next : Server (Except Refusal EaStatus)) : Server (Except Refusal EaStatus) := do
  match ← readAsUser userId (Store.grant · id) with
  | .error thrown => return .error (.thrown thrown)
  | .ok none => return .error .notFound
  | .ok (some grant) => if grant.ownerId ≠ userId then return .error .notFound else next

/-- `POST /api/emergency-access/[id]/approve`. -/
def approveGrant (userId id : Uuid) (now : Millis) : Server (Except Refusal EaStatus) :=
  asOwner userId id <| transitionAsOwner userId id .activated (grantEvent id .approved)
    fun row ↦ { row with activatedAt := some now }

def revokedGrant (now : Millis) (row : EmergencyGrant) : EmergencyGrant :=
  { row with
    revokedAt := some now
    encryptedSecretKey := none
    ownerEphemeralPublicKey := none
    hkdfSalt := none }

def resumedGrant (row : EmergencyGrant) : EmergencyGrant :=
  { row with requestedAt := none, waitExpiresAt := none }

/-- `POST /api/emergency-access/[id]/revoke`: revoke the grant, or reject the request only. -/
def revokeGrant (userId id : Uuid) (permanent : Bool) (now : Millis) : Server (Except Refusal EaStatus) :=
  asOwner userId id <|
    if permanent then transitionAsOwner userId id .revoked (fun _ ↦ .other) (revokedGrant now)
    else transitionAsOwner userId id .idle (grantEvent id .resumed) resumedGrant

section Grantee

def requestedGrant (waitDays : Nat) (now : Millis) (row : EmergencyGrant) : EmergencyGrant :=
  { row with requestedAt := some now, waitExpiresAt := some (now + waitDays * msPerDay) }

/-- `POST /api/emergency-access/[id]/request`. -/
def requestAccess (userId id : Uuid) (now : Millis) : Server (Except Refusal EaStatus) := do
  match ← .readOnly (Store.grant · id) with
  | none => return .error .notFound
  | some grant =>
    if grant.granteeId ≠ some userId then return .error .notFound
    else
      match ← withBypassRls (grantEvent id (.requested now))
          (transition (fun row ↦ row.id = id && row.granteeId = some userId) .requested .grantee
            (requestedGrant grant.waitDays now)) with
      | .error thrown => return .error (.thrown thrown)
      | .ok ok => if ok then return .ok .requested else return .error .invalidStatus

/-- What a grantee gets to open the vault of the owner, without the name and email of the owner. -/
structure GrantCryptoFields where
  grant : EmergencyGrant
  keyPair : EmergencyKeyPair

inductive AutoPromoteResult
  | ok (fields : GrantCryptoFields)
  | notEligible
  | revoked
  | noEscrow

def Store.grantWithKeyPair (db : Store) (id : Uuid) : Option (EmergencyGrant × Option EmergencyKeyPair) :=
  (Store.grant db id).map fun grant ↦ (grant, db.keyPairs.find? (·.grantId = id))

/-- A request of a grantee to open a vault: `routeNow` is the clock reading of the route's own check,
`now` the one it passes on. -/
structure VaultRequest where
  userId : Uuid
  id : Uuid
  routeNow : Millis
  now : Millis

variable (req : VaultRequest)

def promotionResult : Option (EmergencyGrant × Option EmergencyKeyPair) → AutoPromoteResult
  | none => .revoked
  | some (updated, keyPair) =>
    if updated.revokedAt.isSome then .revoked
    else match updated.encryptedSecretKey, keyPair with
      | some _, some keyPair => .ok ⟨updated, keyPair⟩
      | _, _ => .noEscrow

def VaultRequest.elapsed (current : EmergencyGrant) : Option Millis :=
  current.waitExpiresAt.filter fun waitExpiresAt ↦
    current.granteeId = some req.userId && current.status = .requested && waitExpiresAt ≤ req.now

/-- The transaction of `autoPromoteIfElapsed`: the result, and for the record the end of the waiting
period that it had read, if it has promoted the grant. -/
def autoPromoteIfElapsed : Server (Except Thrown (AutoPromoteResult × Option Millis)) := do
  match (← .read (Store.grant · req.id)).bind req.elapsed with
  | none => return .ok (.notEligible, none)
  | some waitExpiresAt =>
    Prog.andThen (transition (fun row ↦ row.id = req.id && row.granteeId = some req.userId)
      .activated .system fun row ↦ { row with activatedAt := some req.now }) fun promoted ↦ do
      if promoted then
        let updated ← .read (Store.grantWithKeyPair · req.id)
        return .ok (promotionResult updated, some waitExpiresAt)
      else return .ok (.notEligible, none)

/-- The event of a promotion. -/
def VaultRequest.event : AutoPromoteResult × Option Millis → Event
  | (_, some waitExpiresAt) => .grant req.id (.promoted req.now waitExpiresAt)
  | (_, none) => .other

def activatedResponse : EmergencyGrant × Option EmergencyKeyPair → Except Refusal GrantCryptoFields
  | (grant, keyPair) =>
    if grant.status ≠ .activated then .error .notActivated
    else match grant.encryptedSecretKey, keyPair with
      | some _, some keyPair => .ok ⟨grant, keyPair⟩
      | _, _ => .error .emergencyRecoveryKeyMissing

/-- `GET /api/emergency-access/[id]/vault`. -/
def openVault : Server (Except Refusal GrantCryptoFields) := do
  match ← .readOnly (Store.grantWithKeyPair · req.id) with
  | none => return .error .notFound
  | some (grant, keyPair) =>
    if grant.granteeId ≠ some req.userId then return .error .notFound
    else if grant.status = .requested && grant.waitExpiresAt.any (· ≤ req.routeNow) then
      match ← withBypassRls req.event (autoPromoteIfElapsed req) with
      | .error thrown => return .error (.thrown thrown)
      | .ok (.ok fields, _) => return .ok fields
      | .ok (.revoked, _) => return .error .grantRevoked
      | .ok (.noEscrow, _) => return .error .emergencyRecoveryKeyMissing
      | .ok (.notEligible, _) => return activatedResponse (grant, keyPair)
    else return activatedResponse (grant, keyPair)

end Grantee

/-- The requests on grants, and rotations of vault keys. -/
inductive GrantRequest
  | acceptByToken (req : AcceptRequest) (tokenHash : String)
  | acceptById (req : AcceptRequest) (id : Uuid)
  | confirm (req : ConfirmRequest)
  | request (userId id : Uuid) (now : Millis)
  | approve (userId id : Uuid) (now : Millis)
  | revoke (userId id : Uuid) (permanent : Bool) (now : Millis)
  | openVault (req : VaultRequest)
  | rotateKey (req : RotateRequest)

/-- The program of a request, and whether it succeeded. -/
def GrantRequest.serve (env : Env) (toLowerCase : String → String) : GrantRequest → Server Bool
  | .acceptByToken req tokenHash => do
    return (← EmergencyAccess.acceptByToken toLowerCase req tokenHash).isOk
  | .acceptById req id => do return (← EmergencyAccess.acceptById toLowerCase req id).isOk
  | .confirm req => do return (← confirmGrant req).isOk
  | .request userId id now => do return (← requestAccess userId id now).isOk
  | .approve userId id now => do return (← approveGrant userId id now).isOk
  | .revoke userId id permanent now => do return (← revokeGrant userId id permanent now).isOk
  | .openVault req => do return (← EmergencyAccess.openVault req).isOk
  | .rotateKey req => do return (← Vault.rotateKey env req).isOk

end PasswdSso.EmergencyAccess
