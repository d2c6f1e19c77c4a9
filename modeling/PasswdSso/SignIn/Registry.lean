import PasswdSso.ReadCommitted.Statement
import PasswdSso.SignIn.ScopedRows
import PasswdSso.SignIn.TenantClaim

/-!
# The registry of tenant claims

`resolveTenantByClaim` and `findOrCreateTenantForClaim` of `src/lib/tenant/tenant-management.ts`, and the commands
`add` and `remove` of `scripts/tenant-domain.ts`, as programs of database statements. Both lookups read the claim row,
then the tenant with exactly this external id, then they check whether the claim can be stored and whether an external
id folds onto it. The second one holds an advisory lock on the key meanwhile, and creates the tenant and its claim row
in the end. A refusal writes nothing.

SHA-256 is a parameter. Generated identifiers, the random slug suffix and clock readings are fields of the requests.
-/

namespace PasswdSso.SignIn

open ReadCommitted

/-- A `tenants` row. -/
structure Tenant where
  id : Uuid
  externalId : Option (List Char)
  name : List Char
  slug : List Char
  isBootstrap : Bool
  createdAt : Millis

structure TenantClaim where
  id : Uuid
  tenantId : Uuid
  claim : List Char
  createdBy : String
  revokedAt : Option Millis
  deriving DecidableEq

/-- `TENANT_CLAIM_EVENT_OPERATION`, those that the application writes. -/
inductive ClaimOperation
  | register
  | revoke
  | unrevoke
  | reassign
  deriving DecidableEq

structure TenantClaimEvent where
  claim : List Char
  operation : ClaimOperation
  oldTenantId : Option Uuid
  newTenantId : Option Uuid
  oldRevokedAt : Option Millis
  newRevokedAt : Option Millis
  actorLabel : String

/-- A `users` row. -/
structure User where
  id : Uuid
  tenantId : Uuid
  deriving DecidableEq

/-- The tables of the registry, and those of the users. -/
structure Store where
  tenants : List Tenant
  claims : List TenantClaim
  events : List TenantClaimEvent
  users : List User
  members : List TenantMember
  rows : List ScopedRow

/-- The unique keys that statements lock, and the advisory lock of a key of the registry. -/
inductive Lock
  | claimKey (key : List Char)
  | tenant (id : Uuid)
  | externalId (externalId : List Char)
  | slug (slug : List Char)
  | claimRow (id : Uuid)
  | claim (claim : List Char)
  | user (id : Uuid)
  | member (tenantId userId : Uuid)
  | row (key : ScopedTable × Uuid)
  deriving DecidableEq

/-- What a committed transaction did. -/
inductive Event
  | routed (tenantClaim : List Char) (tenantId : Uuid)
  | refused (tenantClaim : List Char)
  | registered (claim : List Char) (tenantId : Uuid)
  | unrevoked (claim : List Char)
  | reassigned (claim : List Char)
  | revoked (claim : List Char)
  | signedIn (userId : Uuid)

abbrev Server := Prog Store Lock Event

def claimTable : Table Store Uuid TenantClaim where
  rows := Store.claims
  put db rows := { db with claims := rows }
  key := TenantClaim.id

def memberTable : Table Store (Uuid × Uuid) TenantMember where
  rows := Store.members
  put db rows := { db with members := rows }
  key member := (member.tenantId, member.userId)

def userTable : Table Store Uuid User where
  rows := Store.users
  put db rows := { db with users := rows }
  key := User.id

/-- The tenant-scoped tables. -/
def rowTable : Table Store (ScopedTable × Uuid) ScopedRow where
  rows := Store.rows
  put db rows := { db with rows := rows }
  key row := (row.table, row.id)

/-- `findClaimRow`, by the unique index. -/
def Store.findClaimRow (db : Store) (claim : List Char) : Option TenantClaim := db.claims.find? (·.claim = claim)

/-- `tenant.findUnique` by external id. -/
def Store.byExternalId (db : Store) (externalId : List Char) : Option Tenant :=
  db.tenants.find? (·.externalId = some externalId)

/-- `findFoldedExternalIdOwner`: of the tenants whose external id folds onto the claim, the oldest one. -/
def Store.findFoldedExternalIdOwner (db : Store) (claim : List Char) : Option Uuid :=
  ((db.tenants.filter fun tenant ↦ tenant.externalId.any (externalIdFold · = claim)).insertionSort
    fun first second ↦ first.createdAt < second.createdAt ∨
      (first.createdAt = second.createdAt ∧ first.id ≤ second.id)).head?.map Tenant.id

def asciiPrintable (c : Char) : Bool := 0x20 ≤ c.toNat && c.toNat ≤ 0x7E

/-- The first issue that `storableClaimSchema` has with a claim. -/
def storableClaimIssue (m : CaseMapping) (claim : List Char) : Option String :=
  if claim = [] then some "Too small: expected string to have >=1 characters"
  else if jsLength (String.ofList claim) > maxTenantClaimLength then
    some "Too big: expected string to have <=255 characters"
  else if claim ≠ normalizeTenantClaim m claim then some "claim must already be normalized (trim + lowercase)"
  else if !claim.all asciiPrintable then some "claim must be printable ASCII"
  else none

inductive ClaimLookup
  | tenant (id : Uuid)
  | revoked (tenantId : Uuid)
  | unstorable (refusal : String)
  | collision (tenantId : Uuid)
  | unregistered
  deriving DecidableEq

def resolveTenantByClaim (m : CaseMapping) (tenantClaim : List Char) : Server ClaimLookup := do
  let claim := normalizeTenantClaim m tenantClaim
  match ← .read fun db ↦ db.findClaimRow claim with
  | some row => return if row.revokedAt = none then .tenant row.tenantId else .revoked row.tenantId
  | none =>
    match ← .read fun db ↦ db.byExternalId tenantClaim with
    | some tenant => return .tenant tenant.id
    | none =>
      match storableClaimIssue m claim with
      | some issue => return .unstorable (claimRefusal issue)
      | none =>
        match ← .read fun db ↦ db.findFoldedExternalIdOwner claim with
        | some owner => return .collision owner
        | none => return .unregistered

inductive ClaimTenantResolution
  | tenant (id : Uuid)
  | claimTaken (tenantId : Uuid)
  | claimCollision (tenantId : Uuid)
  | claimInvalid (refusal : String)

/-- `refusalFromLookup`, and the tenant that a lookup finds; `none` is a claim that nobody owns. -/
def resolutionOf : ClaimLookup → Option ClaimTenantResolution
  | .tenant id => some (.tenant id)
  | .revoked tenantId => some (.claimTaken tenantId)
  | .collision tenantId => some (.claimCollision tenantId)
  | .unstorable refusal => some (.claimInvalid refusal)
  | .unregistered => none

section Create

def slugMaxLength : Nat := 50

def bootstrapSlugHashLength : Nat := 24

def slugChar (c : Char) : Bool := ('a' ≤ c && c ≤ 'z') || ('0' ≤ c && c ≤ '9')

def hyphenate : List Char → List Char
  | [] => []
  | c :: rest =>
    if slugChar c then c :: hyphenate rest
    else match hyphenate rest with
      | '-' :: tail => '-' :: tail
      | slug => '-' :: slug

def slugifyTenant (m : CaseMapping) (sha256Hex : List Char → List Char) (input : List Char) : List Char :=
  let hyphenated := hyphenate (m.toLowerCase (jsTrim input))
  let slug := (((hyphenated.dropWhile (· = '-')).reverse.dropWhile (· = '-')).reverse).take slugMaxLength
  if slug = [] then (sha256Hex (jsTrim input)).take bootstrapSlugHashLength
  else if "bootstrap-".toList <+: slug ∨ "u-".toList <+: slug then ("t-".toList ++ slug).take slugMaxLength
  else slug

inductive Thrown
  | uniqueViolation
  | multiTenantMembershipNotSupported
  | bootstrapMigrationAborted
  | recordNotFound
  | noClaimKeys
  deriving DecidableEq

/-- A call of `findOrCreateTenantForClaim`. -/
structure FindOrCreate where
  tenantClaim : List Char
  tenantId : Uuid
  claimId : Uuid
  slugSuffix : List Char
  createdAt : Millis

/-- The tenant that the call creates. -/
def FindOrCreate.tenant (req : FindOrCreate) (slug : List Char) : Tenant where
  id := req.tenantId
  externalId := some req.tenantClaim
  name := req.tenantClaim
  slug := slug
  isBootstrap := false
  createdAt := req.createdAt

def FindOrCreate.claimRow (req : FindOrCreate) (m : CaseMapping) : TenantClaim where
  id := req.claimId
  tenantId := req.tenantId
  claim := normalizeTenantClaim m req.tenantClaim
  createdBy := "signin"
  revokedAt := none

def Store.addTenant (tenant : Tenant) (row : TenantClaim) (db : Store) : Store :=
  { db with tenants := db.tenants ++ [tenant], claims := db.claims ++ [row] }

def Store.clashes (tenant : Tenant) (row : TenantClaim) (db : Store) : Bool :=
  db.tenants.any (fun other ↦ other.id = tenant.id || other.slug = tenant.slug || other.externalId = tenant.externalId) ||
    db.claims.any fun other ↦ other.id = row.id || other.claim = row.claim

/-- `tenant.create` with its claim; `true` is a unique violation, after which nothing is written. -/
def createTenant (m : CaseMapping) (req : FindOrCreate) (slug : List Char) : Server Bool :=
  Prog.insert [.tenant req.tenantId, .slug slug, .externalId req.tenantClaim, .claimRow req.claimId,
      .claim (req.claimRow m).claim]
    (Store.clashes (req.tenant slug) (req.claimRow m)) (Store.addTenant (req.tenant slug) (req.claimRow m))

def recordTenantClaimEvent (event : TenantClaimEvent) : Server Unit :=
  Prog.write [] (fun db ↦ { db with events := db.events ++ [event] }) fun _ ↦ ()

def recordCreation (m : CaseMapping) (req : FindOrCreate) : Server (Except Thrown ClaimTenantResolution) := do
  recordTenantClaimEvent {
    claim := normalizeTenantClaim m req.tenantClaim
    operation := .register
    oldTenantId := none
    newTenantId := some req.tenantId
    oldRevokedAt := none
    newRevokedAt := none
    actorLabel := "signin" }
  return .ok (.tenant req.tenantId)

variable (m : CaseMapping) (sha256Hex : List Char → List Char)

def FindOrCreate.retrySlug (req : FindOrCreate) : List Char :=
  (slugifyTenant m sha256Hex req.tenantClaim).take (slugMaxLength - req.slugSuffix.length - 1) ++ ['-'] ++ req.slugSuffix

/-- `findOrCreateTenantForClaim`; a second unique violation is not caught. -/
def findOrCreateTenantForClaim (req : FindOrCreate) : Server (Except Thrown ClaimTenantResolution) := do
  let claim := normalizeTenantClaim m req.tenantClaim
  let _ ← .lockingRead [(.claimKey claim, .exclusive)] fun _ ↦ ()
  match ← .read fun db ↦ db.findClaimRow claim with
  | some row => return .ok (if row.revokedAt = none then .tenant row.tenantId else .claimTaken row.tenantId)
  | none =>
    match ← .read fun db ↦ db.byExternalId req.tenantClaim with
    | some tenant => return .ok (.tenant tenant.id)
    | none =>
      match storableClaimIssue m claim with
      | some issue => return .ok (.claimInvalid (claimRefusal issue))
      | none =>
        match ← .read fun db ↦ db.findFoldedExternalIdOwner claim with
        | some owner => return .ok (.claimCollision owner)
        | none =>
          if ← createTenant m req (slugifyTenant m sha256Hex req.tenantClaim) then
            if ← createTenant m req (req.retrySlug m sha256Hex) then return .error .uniqueViolation
            else recordCreation m req
          else recordCreation m req

/-- The label of the transaction around a lookup. -/
def ClaimLookup.label (tenantClaim : List Char) : ClaimLookup → Event
  | .tenant id => .routed tenantClaim id
  | _ => .refused tenantClaim

def lookUpClaim (tenantClaim : List Char) : Server (Except Thrown ClaimLookup) :=
  Prog.transaction (ClaimLookup.label tenantClaim) do return .ok (← resolveTenantByClaim m tenantClaim)

/-- The label of the transaction around a call. -/
def FindOrCreate.label (req : FindOrCreate) : ClaimTenantResolution → Event
  | .tenant id => .routed req.tenantClaim id
  | _ => .refused req.tenantClaim

def routeClaim (req : FindOrCreate) : Server (Except Thrown ClaimTenantResolution) :=
  Prog.transaction req.label (findOrCreateTenantForClaim m sha256Hex req)

end Create

section Operator

variable (m : CaseMapping)

inductive TenantRef
  | id (id : Uuid)
  | text (ref : List Char)

def resolveTenantRef : TenantRef → Server (Option Tenant)
  | .id id => .read fun db ↦ db.tenants.find? (·.id = id)
  | .text ref => do
    match ← .read fun db ↦ db.findClaimRow (normalizeTenantClaim m ref) with
    | some row => .read fun db ↦ db.tenants.find? (·.id = row.tenantId)
    | none => .read fun db ↦ db.byExternalId ref

/-- `DOMAIN_LABEL_RE`. -/
def domainLabel (label : List Char) : Bool :=
  label.all (fun c ↦ slugChar c || c = '-') && label.head?.any slugChar && label.getLast?.any slugChar

/-- `operatorDomainSchema`. -/
def operatorDomain (claim : List Char) : Bool :=
  storableClaimIssue m claim = none && '.' ∈ claim && (jsSplit '.' claim).all domainLabel

inductive CommandError
  | invalidDomain
  | tenantNotFound
  | nothingToReassign
  | notTheOwner
  | ownedByAnother
  | notConfirmed
  | modifiedConcurrently
  | notRegistered
  deriving DecidableEq

/-- `tenant-domain add`. -/
structure AddClaim where
  tenant : TenantRef
  domain : List Char
  actor : String
  fromTenant : Option Uuid
  confirmed : Bool
  claimId : Uuid

def swapClaim (existing : TenantClaim) (change : TenantClaim → TenantClaim) : Server Nat :=
  Prog.updateMany claimTable .claimRow (fun row ↦ row.id = existing.id && row.tenantId = existing.tenantId &&
    row.revokedAt = existing.revokedAt) change

def reassignClaim (req : AddClaim) (existing : TenantClaim) (tenant : Tenant) : Server (Except CommandError Event) := do
  let count ← swapClaim existing fun row ↦ { row with tenantId := tenant.id, revokedAt := none }
  if count = 0 then return .error .modifiedConcurrently
  recordTenantClaimEvent {
    claim := existing.claim
    operation := .reassign
    oldTenantId := some existing.tenantId
    newTenantId := some tenant.id
    oldRevokedAt := existing.revokedAt
    newRevokedAt := none
    actorLabel := req.actor }
  return .ok (.reassigned existing.claim)

def unrevokeClaim (req : AddClaim) (existing : TenantClaim) (tenant : Tenant) : Server (Except CommandError Event) := do
  let count ← swapClaim existing fun row ↦ { row with revokedAt := none }
  if count = 0 then return .error .modifiedConcurrently
  recordTenantClaimEvent {
    claim := existing.claim
    operation := .unrevoke
    oldTenantId := some tenant.id
    newTenantId := some tenant.id
    oldRevokedAt := existing.revokedAt
    newRevokedAt := none
    actorLabel := req.actor }
  return .ok (.unrevoked existing.claim)

/-- The row of a new claim. -/
def AddClaim.row (req : AddClaim) (claim : List Char) (tenant : Tenant) : TenantClaim where
  id := req.claimId
  tenantId := tenant.id
  claim := claim
  createdBy := req.actor
  revokedAt := none

def registerClaim (req : AddClaim) (claim : List Char) (tenant : Tenant) : Server (Except CommandError Event) := do
  if ← .insert [.claimRow req.claimId, .claim claim]
      (fun db ↦ db.claims.any fun other ↦ other.id = req.claimId || other.claim = claim)
      (claimTable.append [req.row claim tenant]) then
    return .error .modifiedConcurrently
  else
    recordTenantClaimEvent {
      claim
      operation := .register
      oldTenantId := none
      newTenantId := some tenant.id
      oldRevokedAt := none
      newRevokedAt := none
      actorLabel := req.actor }
    return .ok (.registered claim tenant.id)

/-- The body of `cmdAdd` for a valid claim; a claim that is registered already is no change. -/
def addClaim (req : AddClaim) (claim : List Char) : Server (Except CommandError Event) := do
  match ← resolveTenantRef m req.tenant with
  | none => return .error .tenantNotFound
  | some tenant =>
    match ← .read fun db ↦ db.findClaimRow claim with
    | none =>
      if req.fromTenant ≠ none then return .error .nothingToReassign
      else if !req.confirmed then return .error .notConfirmed
      else registerClaim req claim tenant
    | some existing =>
      if req.fromTenant.any (· ≠ existing.tenantId) then return .error .notTheOwner
      else if existing.tenantId ≠ tenant.id ∧ req.fromTenant = none then return .error .ownedByAnother
      else if existing.tenantId = tenant.id ∧ existing.revokedAt = none then return .ok (.refused claim)
      else if !req.confirmed then return .error .notConfirmed
      else if existing.tenantId ≠ tenant.id then reassignClaim req existing tenant
      else unrevokeClaim req existing tenant

def cmdAdd (req : AddClaim) : Server (Except CommandError Event) :=
  let claim := normalizeTenantClaim m req.domain
  if operatorDomain m claim then Prog.transaction id (addClaim m req claim) else return .error .invalidDomain

/-- `tenant-domain remove`. -/
structure RemoveClaim where
  tenant : TenantRef
  domain : List Char
  actor : String
  confirmed : Bool
  now : Millis

/-- The body of `cmdRemove` for a valid claim; a claim that is revoked already is no change. -/
def removeClaim (req : RemoveClaim) (claim : List Char) : Server (Except CommandError Event) := do
  match ← resolveTenantRef m req.tenant with
  | none => return .error .tenantNotFound
  | some tenant =>
    match ← .read fun db ↦ db.findClaimRow claim with
    | none => return .error .notRegistered
    | some existing =>
      if existing.tenantId ≠ tenant.id then return .error .ownedByAnother
      else if existing.revokedAt ≠ none then return .ok (.refused claim)
      else if !req.confirmed then return .error .notConfirmed
      else
        let count ← .updateMany claimTable .claimRow
          (fun row ↦ row.claim = claim && row.tenantId = tenant.id && row.revokedAt = none)
          fun row ↦ { row with revokedAt := some req.now }
        if count = 0 then return .error .modifiedConcurrently
        else
          recordTenantClaimEvent {
            claim
            operation := .revoke
            oldTenantId := some tenant.id
            newTenantId := some tenant.id
            oldRevokedAt := none
            newRevokedAt := some req.now
            actorLabel := req.actor }
          return .ok (.revoked claim)

def cmdRemove (req : RemoveClaim) : Server (Except CommandError Event) :=
  let claim := normalizeTenantClaim m req.domain
  if storableClaimIssue m claim = none then Prog.transaction id (removeClaim m req claim)
  else return .error .invalidDomain

end Operator

end PasswdSso.SignIn
