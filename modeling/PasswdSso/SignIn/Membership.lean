import PasswdSso.SignIn.Registry

/-!
# The tenant of a sign-in

`ensureTenantMembershipForSignIn` of `src/auth.ts`. A sign-in without a claim changes nothing. With a claim, a user
without an active membership joins the tenant of the claim, and so does, in one transaction, a user of a bootstrap
tenant, whose rows are moved to the new tenant; a user of any other tenant has to be a member of the claimed one.
A membership is an upsert with an empty `update`: a row that is there stays as it is.
-/

namespace PasswdSso.SignIn

open ReadCommitted

def memberLock (key : Uuid × Uuid) : Lock := .member key.1 key.2

/-- The `where` of a membership. -/
def isMember (tenantId userId : Uuid) (member : TenantMember) : Bool :=
  member.tenantId = tenantId && member.userId = userId

/-- `tenantMember.upsert` with an empty `update`. -/
def joinTenant (tenantId userId : Uuid) : Server Unit := do
  let _ ← .upsert memberTable memberLock (.member tenantId userId) (isMember tenantId userId) id
    ⟨tenantId, userId, none⟩
  return ()

def migrateRows (userId oldTenantId newTenantId : Uuid) : List Migration → Server Unit
  | [] => return ()
  | migration :: rest => do
    let _ ← .updateMany rowTable .row (migration.selects userId oldTenantId) fun row ↦
      { row with tenantId := newTenantId }
    migrateRows userId oldTenantId newTenantId rest

/-- `assertBootstrapSingleMember`: the number of active members. -/
def Store.activeCount (db : Store) (tenantId : Uuid) : Nat :=
  db.members.countP fun member ↦ member.tenantId = tenantId && member.deactivatedAt.isNone

def migrateBootstrap (userId oldTenantId newTenantId : Uuid) : Server (Except Thrown Unit) := do
  let activeCount ← .read fun db ↦ db.activeCount oldTenantId
  if activeCount > 1 then return .error .bootstrapMigrationAborted
  else
    let updated ← .updateMany userTable .user (·.id = userId) fun user ↦ { user with tenantId := newTenantId }
    if updated = 0 then return .error .recordNotFound
    else
      migrateRows userId oldTenantId newTenantId migrations
      joinTenant newTenantId userId
      let _ ← .deleteMany memberTable memberLock (isMember oldTenantId userId)
      return .ok ()

section SignIn

inductive FailureReason
  | tenantMismatch
  | tenantClaimUnmapped
  deriving DecidableEq

inductive SignInTenantResult
  | ok
  | denied (reason : FailureReason) (tenantId : Option Uuid) (claim : Option (List Char)) (claimRefusal : Option String)
  deriving DecidableEq

def claimRefusalReason : ClaimTenantResolution → FailureReason
  | .claimInvalid _ => .tenantMismatch
  | _ => .tenantClaimUnmapped

/-- The `tenantId` of a refusal. -/
def refusalOwner : ClaimTenantResolution → Option Uuid
  | .claimTaken tenantId => some tenantId
  | .claimCollision tenantId => some tenantId
  | _ => none

def claimRefusalOf : ClaimTenantResolution → Option String
  | .claimInvalid refusal => some refusal
  | _ => none

def refuse (tenantClaim : List Char) (existingTenantId : Option Uuid) (target : ClaimTenantResolution) :
    SignInTenantResult :=
  .denied (claimRefusalReason target) ((refusalOwner target).or existingTenantId) (some tenantClaim)
    (claimRefusalOf target)

/-- The denial of a member of another tenant: `lookupRefusalReason`, `lookupOwnerId` and `lookupRefusalDiagnosis`. -/
def denyMember (tenantClaim : List Char) (existingTenantId : Uuid) (lookup : ClaimLookup) : SignInTenantResult :=
  match lookup, resolutionOf lookup with
  | .tenant _, _ => .denied .tenantMismatch (some existingTenantId) (some tenantClaim) none
  | _, none => .denied .tenantClaimUnmapped (some existingTenantId) (some tenantClaim) none
  | _, some refusal => refuse tenantClaim (some existingTenantId) refusal

variable (m : CaseMapping) (sha256Hex : List Char → List Char)

/-- A sign-in: the setting, the account, the profile, and what the call generates. -/
structure SignInRequest where
  userId : Uuid
  setting : Option String
  provider : Option String
  profile : Option Profile
  tenantId : Uuid
  claimId : Uuid
  slugSuffix : List Char
  createdAt : Millis

def SignInRequest.findOrCreate (req : SignInRequest) (tenantClaim : List Char) : FindOrCreate where
  tenantClaim := tenantClaim
  tenantId := req.tenantId
  claimId := req.claimId
  slugSuffix := req.slugSuffix
  createdAt := req.createdAt

def resolveTargetTenant (lookup : ClaimLookup) (call : FindOrCreate) :
    Server (Except Thrown ClaimTenantResolution) :=
  match resolutionOf lookup with
  | some resolution => return .ok resolution
  | none => findOrCreateTenantForClaim m sha256Hex call

/-- Rows 4 and 8: a user without an active membership joins the tenant of the claim. -/
def joinClaimed (req : SignInRequest) (tenantClaim : List Char) (lookup : ClaimLookup) :
    Server (Except Thrown SignInTenantResult) :=
  Prog.andThen (resolveTargetTenant m sha256Hex lookup (req.findOrCreate tenantClaim)) fun
    | .tenant id => do
      joinTenant id req.userId
      return .ok .ok
    | target => return .ok (refuse tenantClaim none target)

/-- Rows 6 and 9a: a user of a bootstrap tenant is moved to the tenant of the claim. -/
def migrateClaimed (req : SignInRequest) (tenantClaim : List Char) (lookup : ClaimLookup) (existingTenantId : Uuid) :
    Server (Except Thrown SignInTenantResult) :=
  Prog.andThen (resolveTargetTenant m sha256Hex lookup (req.findOrCreate tenantClaim)) fun
    | .tenant id => .andThen (migrateBootstrap req.userId existingTenantId id) fun _ ↦ return .ok .ok
    | target => return .ok (refuse tenantClaim (some existingTenantId) target)

def signInMember (req : SignInRequest) (tenantClaim : List Char) (lookup : ClaimLookup) (existingTenantId : Uuid) :
    Server (Except Thrown SignInTenantResult) := do
  if lookup = .tenant existingTenantId then
    joinTenant existingTenantId req.userId
    return .ok .ok
  else
    let isBootstrapTenant ← .read fun db ↦ (db.tenants.find? (·.id = existingTenantId)).any Tenant.isBootstrap
    if isBootstrapTenant then migrateClaimed m sha256Hex req tenantClaim lookup existingTenantId
    else return .ok (denyMember tenantClaim existingTenantId lookup)

def signInResolved (req : SignInRequest) (tenantClaim : List Char) (lookup : ClaimLookup) :
    Except TenantError Uuid → Server (Except Thrown SignInTenantResult)
  | .error .multiTenantMembershipNotSupported => return .error .multiTenantMembershipNotSupported
  | .error .tenantNotResolved => joinClaimed m sha256Hex req tenantClaim lookup
  | .ok existingTenantId => signInMember m sha256Hex req tenantClaim lookup existingTenantId

def signInWithClaim (req : SignInRequest) (tenantClaim : List Char) : Server (Except Thrown SignInTenantResult) := do
  let lookup ← resolveTenantByClaim m tenantClaim
  let existing ← .read fun db ↦ resolveUserTenantId db.members req.userId
  signInResolved m sha256Hex req tenantClaim lookup existing

def signInWithoutClaim (userId : Uuid) (diagnosis : Option String) : Server (Except Thrown SignInTenantResult) := do
  match ← .readOnly fun db ↦ resolveUserTenantId db.members userId, diagnosis with
  | .error .multiTenantMembershipNotSupported, diagnosis => return .ok (.denied .tenantMismatch none none diagnosis)
  | .error .tenantNotResolved, some diagnosis => return .ok (.denied .tenantMismatch none none (some diagnosis))
  | .ok tenantId, some diagnosis => return .ok (.denied .tenantMismatch (some tenantId) none (some diagnosis))
  | _, none => return .ok .ok

def ensureTenantMembershipForSignIn (req : SignInRequest) : Server (Except Thrown SignInTenantResult) :=
  match extractTenantClaimValue m req.setting req.provider req.profile with
  | none => return .error .noClaimKeys
  | some .absent => signInWithoutClaim req.userId none
  | some (.malformed diagnosis) => signInWithoutClaim req.userId (some diagnosis)
  | some (.claim tenantClaim) =>
    Prog.transaction (fun _ ↦ .signedIn req.userId) (signInWithClaim m sha256Hex req tenantClaim)

end SignIn

end PasswdSso.SignIn
