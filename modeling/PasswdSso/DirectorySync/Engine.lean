import PasswdSso.Common
import PasswdSso.ReadCommitted.Statement

/-!
# The directory sync engine

`src/lib/directory-sync/engine.ts`: a run claims the configuration, fetches the users of the identity provider,
compares them with the external mappings and the memberships of the tenant, and, unless the safety guard or a
dry run stops it, applies what differs in one transaction.

The transaction runs under the row-level security of the tenant: it sees the users, members and mappings of the
tenant, while the unique indexes range over all rows. What the provider answers, the generated identifiers, the
clock and the failures of the database are given by the environment of the run.
-/

namespace PasswdSso.DirectorySync

open ReadCommitted (Table)

inductive TenantRole
  | owner
  | admin
  | member
  deriving DecidableEq

inductive ProvisioningSource
  | manual
  | scim
  deriving DecidableEq

/-- A `users` row. -/
structure User where
  id : Uuid
  tenantId : Uuid
  email : Option String
  name : Option String

/-- A `tenant_members` row. -/
structure Member where
  id : Uuid
  tenantId : Uuid
  userId : Uuid
  role : TenantRole
  deactivatedAt : Option Millis
  scimManaged : Bool
  provisioningSource : ProvisioningSource
  lastScimSyncedAt : Option Millis
  deriving DecidableEq

/-- A `scim_external_mappings` row of the resource type `User`. -/
structure ExternalMapping where
  tenantId : Uuid
  externalId : String
  internalId : Uuid

structure Directory where
  users : List User
  members : List Member
  mappings : List ExternalMapping

def userTable : Table Directory Uuid User where
  rows := Directory.users
  put dir rows := { dir with users := rows }
  key := User.id
  rows_put _ _ := rfl
  put_put _ _ _ := rfl
  put_rows _ := rfl

def memberTable : Table Directory Uuid Member where
  rows := Directory.members
  put dir rows := { dir with members := rows }
  key := Member.id
  rows_put _ _ := rfl
  put_put _ _ _ := rfl
  put_rows _ := rfl

inductive SyncStatus
  | idle
  | running
  | success
  | error
  deriving DecidableEq

structure SyncStats where
  usersCreated : Nat := 0
  usersUpdated : Nat := 0
  usersDeactivated : Nat := 0
  groupsUpdated : Nat := 0

/-- A `directory_sync_configs` row. -/
structure SyncConfig where
  id : Uuid
  tenantId : Uuid
  syncIntervalMinutes : Int
  status : SyncStatus
  lastSyncAt : Option Millis
  lastSyncError : Option String
  lastSyncStats : Option SyncStats
  nextSyncAt : Option Millis

/-- A `directory_sync_logs` row. -/
structure SyncLog where
  id : Uuid
  configId : Uuid
  tenantId : Uuid
  status : SyncStatus
  startedAt : Millis
  completedAt : Millis
  dryRun : Bool
  stats : SyncStats
  errorMessage : Option String

structure Store where
  directory : Directory
  configs : List SyncConfig
  logs : List SyncLog

structure ProviderUser where
  externalId : String
  email : String
  displayName : String
  active : Bool
  deriving DecidableEq

structure SyncOptions where
  configId : Uuid
  tenantId : Uuid
  dryRun : Bool := false
  force : Bool := false

structure SyncResult where
  success : Bool
  dryRun : Bool
  stats : SyncStats
  errorMessage : Option String := none
  abortedSafety : Bool := false
  logId : Option Uuid := none

inductive SyncError
  | configNotFound
  | provider (message : String)
  | database (message : String)
  /-- A required relation that row-level security hides. -/
  | userNotVisible
  | uniqueConstraint (index : String)
  | recordNotFound

/-- The statements and transactions of a run that may fail for a reason of their own. -/
inductive Step
  | lock
  | load
  | apply
  | abort
  | log
  | finish
  | writeError
  | errorLog
  deriving DecidableEq

/-- What a run takes from outside of the tables. -/
structure Env where
  /-- `String.prototype.toLowerCase`. -/
  toLowerCase : String → String
  /-- `lower` of the database, with which it compares insensitively. -/
  lower : String → String
  sanitizeSyncError : SyncError → String
  sanitizeMessage : String → String
  startedAt : Millis
  now : Millis
  completedAt : Millis
  /-- Decrypting the credentials and asking the provider. -/
  fetchProviderUsers : Except String (List ProviderUser)
  /-- The identifiers that the database generates for the users and members that a run creates. -/
  userId : Nat → Uuid
  memberId : Nat → Uuid
  logId : Uuid
  fails : Step → Option String

def staleLockMinutes : Int := 30

namespace Directory

variable (dir : Directory) (tenantId : Uuid)

/-- `extIdToInternal.get`: `(tenantId, externalId)` is unique. -/
def mappingOf (externalId : String) : Option Uuid :=
  (dir.mappings.find? fun mapping ↦ mapping.tenantId = tenantId && mapping.externalId = externalId).map
    ExternalMapping.internalId

/-- `memberByUserId.get`: `(tenantId, userId)` is unique. -/
def memberOf (userId : Uuid) : Option Member :=
  dir.members.find? fun member ↦ member.tenantId = tenantId && member.userId = userId

def userOf (userId : Uuid) : Option User :=
  dir.users.find? fun user ↦ user.id = userId && user.tenantId = tenantId

def nameOf (userId : Uuid) : Option String := (dir.userOf tenantId userId).bind User.name

/-- The members of the tenant that are not deactivated. -/
def activeMembers : List Member :=
  dir.members.filter fun member ↦ member.tenantId = tenantId && member.deactivatedAt.isNone

def usersVisible : Bool :=
  dir.members.all fun member ↦ member.tenantId ≠ tenantId || (dir.userOf tenantId member.userId).isSome

/-- `tx.user.create`. -/
def createUser (user : User) : Except SyncError Directory :=
  if dir.users.any fun other ↦ other.id = user.id then .error (.uniqueConstraint "id")
  else if dir.users.any fun other ↦ other.email.isSome && other.email = user.email then
    .error (.uniqueConstraint "email")
  else .ok (userTable.append [user] dir)

/-- `tx.user.update({ where: { id } })`. -/
def updateUser (id : Uuid) (f : User → User) : Except SyncError Directory :=
  if (dir.userOf tenantId id).isSome then .ok (userTable.modify [id] f dir) else .error .recordNotFound

/-- `tx.tenantMember.create`. -/
def createMember (member : Member) : Except SyncError Directory :=
  if dir.members.any fun other ↦ other.id = member.id then .error (.uniqueConstraint "id")
  else if (dir.memberOf member.tenantId member.userId).isSome then
    .error (.uniqueConstraint "tenant_id, user_id")
  else .ok (memberTable.append [member] dir)

/-- `tx.tenantMember.update({ where: { id } })`. -/
def updateMember (id : Uuid) (f : Member → Member) : Except SyncError Directory :=
  if dir.members.any fun member ↦ member.id = id && member.tenantId = tenantId then
    .ok (memberTable.modify [id] f dir)
  else .error .recordNotFound

/-- `tx.scimExternalMapping.upsert`. -/
def upsertMapping (externalId : String) (internalId : Uuid) : Except SyncError Directory :=
  if dir.mappings.any fun mapping ↦ mapping.tenantId = tenantId && mapping.internalId = internalId &&
      mapping.externalId ≠ externalId then
    .error (.uniqueConstraint "tenant_id, internal_id, resource_type")
  else if (dir.mappingOf tenantId externalId).isSome then
    .ok { dir with mappings := dir.mappings.map fun mapping ↦
      if mapping.tenantId = tenantId && mapping.externalId = externalId then { mapping with internalId }
      else mapping }
  else .ok { dir with mappings := dir.mappings ++ [{ tenantId, externalId, internalId }] }

end Directory

structure Plan where
  toCreate : List ProviderUser
  toUpdate : List (ProviderUser × Uuid)
  toDeactivate : List Uuid

/-- The users with an email. -/
def validUsers (providerUsers : List ProviderUser) : List ProviderUser :=
  providerUsers.filter fun pu ↦ pu.email ≠ ""

section Diff

variable (dir : Directory) (tenantId : Uuid)

def updateOf (pu : ProviderUser) : Option (ProviderUser × Uuid) :=
  match dir.mappingOf tenantId pu.externalId with
  | none => none
  | some internalId =>
    match dir.memberOf tenantId internalId with
    | none => none
    | some member =>
      if dir.nameOf tenantId internalId ≠ some pu.displayName ∨ member.deactivatedAt.isNone ≠ pu.active then
        some (pu, internalId)
      else none

def deactivationOf (users : List ProviderUser) (mapping : ExternalMapping) : Option Uuid :=
  if mapping.tenantId ≠ tenantId ∨ users.any (·.externalId = mapping.externalId) then none
  else match dir.memberOf tenantId mapping.internalId with
    | none => none
    | some member =>
      if member.deactivatedAt.isNone ∧ member.role ≠ .owner then some mapping.internalId else none

def diff (users : List ProviderUser) : Plan where
  toCreate := users.filter fun pu ↦ (dir.mappingOf tenantId pu.externalId).isNone
  toUpdate := users.filterMap (updateOf dir tenantId)
  toDeactivate := dir.mappings.filterMap (deactivationOf dir tenantId users)

/-- `toDeactivate.length / activeCount > SAFETY_THRESHOLD`, with `SAFETY_THRESHOLD = 0.2`: for lengths of arrays
the division of floating-point numbers is on the same side of `0.2` as the quotient. -/
def exceedsThreshold (deactivations activeCount : Nat) : Bool :=
  activeCount > 0 && deactivations * 5 > activeCount

end Diff

section Apply

variable (env : Env) (tenantId : Uuid)

/-- A loop of statements that counts its rounds: what was counted survives an exception. -/
def forEach {β : Type} (f : β → Directory → Except SyncError Directory) (count : SyncStats → SyncStats) :
    List β → SyncStats → Directory → Except (SyncError × SyncStats) (SyncStats × Directory)
  | [], stats, dir => .ok (stats, dir)
  | item :: rest, stats, dir =>
    match f item dir with
    | .error thrown => .error (thrown, stats)
    | .ok dir => forEach f count rest (count stats) dir

def existingUsers (dir : Directory) (toCreate : List ProviderUser) : List User :=
  let createEmails := toCreate.map fun pu ↦ env.toLowerCase pu.email
  dir.users.filter fun user ↦ user.tenantId = tenantId &&
    user.email.any fun email ↦ env.lower email ∈ createEmails.map env.lower

/-- `new Map(existingUsers.map(...))`: of two users with one folded email the later counts. -/
def userByEmail (users : List User) : List (String × Uuid) :=
  (users.filterMap fun user ↦ user.email.map fun email ↦ (env.toLowerCase email, user.id)).reverse

def createUsers : List (ProviderUser × Nat) → List (String × Uuid) → Directory →
    Except SyncError (List (String × Uuid) × Directory)
  | [], byEmail, dir => .ok (byEmail, dir)
  | (pu, n) :: rest, byEmail, dir =>
    let emailKey := env.toLowerCase pu.email
    if (byEmail.lookup emailKey).isSome then createUsers rest byEmail dir
    else
      match dir.createUser { id := env.userId n, tenantId, email := some pu.email, name := some pu.displayName } with
      | .error thrown => .error thrown
      | .ok dir => createUsers rest ((emailKey, env.userId n) :: byEmail) dir

def newMember (n : Nat) (userId : Uuid) (active : Bool) : Member where
  id := env.memberId n
  tenantId := tenantId
  userId := userId
  role := .member
  deactivatedAt := if active then none else some env.now
  scimManaged := true
  provisioningSource := .scim
  lastScimSyncedAt := some env.now

def Member.setActive (now : Millis) (active : Bool) (member : Member) : Member :=
  { member with deactivatedAt := if active then none else some now, lastScimSyncedAt := some now }

def provisionMember (tmByUserId : List Member) (userId : Uuid) (pu : ProviderUser) (n : Nat) (dir : Directory) :
    Except SyncError Directory :=
  match tmByUserId.find? (·.userId = userId) with
  | none => dir.createMember (newMember env tenantId n userId pu.active)
  | some existing =>
    if existing.deactivatedAt.isSome && pu.active then
      dir.updateMember tenantId existing.id (Member.setActive env.now true)
    else .ok dir

def provision (byEmail : List (String × Uuid)) (tmByUserId : List Member) :
    ProviderUser × Nat → Directory → Except SyncError Directory
  | (pu, n), dir =>
    match byEmail.lookup (env.toLowerCase pu.email) with
    | none => .error .recordNotFound
    | some userId =>
      match provisionMember env tenantId tmByUserId userId pu n dir with
      | .error thrown => .error thrown
      | .ok dir => dir.upsertMapping tenantId pu.externalId userId

/-- Update the name of a user and, but for the deactivation of an owner, the active state of its member. -/
def updateExisting (existing : Directory) : ProviderUser × Uuid → Directory → Except SyncError Directory
  | (pu, internalId), dir =>
    match existing.memberOf tenantId internalId with
    | none => .ok dir
    | some member =>
      match dir.updateUser tenantId internalId fun user ↦ { user with name := some pu.displayName } with
      | .error thrown => .error thrown
      | .ok dir =>
        if member.role = .owner ∧ pu.active = false then .ok dir
        else dir.updateMember tenantId member.id (Member.setActive env.now pu.active)

def deactivates (existing : Directory) (toDeactivate : List Uuid) (member : Member) : Bool :=
  member.id ∈ toDeactivate.filterMap (fun userId ↦ (existing.memberOf tenantId userId).map Member.id) &&
    member.tenantId = tenantId && member.role ≠ .owner

/-- `updateMany` on the members that the provider does not have any more. -/
def deactivateMissing (existing : Directory) (toDeactivate : List Uuid) (dir : Directory) : Directory :=
  { dir with members := dir.members.map fun member ↦
      if deactivates tenantId existing toDeactivate member then member.setActive env.now false else member }

def existingTenantMembers (dir : Directory) (allUserIds : List Uuid) : List Member :=
  dir.members.filter fun member ↦ member.tenantId = tenantId && member.userId ∈ allUserIds

/-- The transaction that applies a plan, which was computed from `existing`. -/
def applyChanges (existing : Directory) (plan : Plan) (dir : Directory) :
    Except (SyncError × SyncStats) (SyncStats × Directory) :=
  match createUsers env tenantId plan.toCreate.zipIdx
    (userByEmail env (existingUsers env tenantId dir plan.toCreate)) dir with
  | .error thrown => .error (thrown, {})
  | .ok (byEmail, dir) =>
    let allUserIds := plan.toCreate.filterMap fun pu ↦ byEmail.lookup (env.toLowerCase pu.email)
    let tmByUserId := existingTenantMembers tenantId dir allUserIds
    match forEach (provision env tenantId byEmail tmByUserId)
      (fun stats ↦ { stats with usersCreated := stats.usersCreated + 1 }) plan.toCreate.zipIdx {} dir with
    | .error thrown => .error thrown
    | .ok (stats, dir) =>
      match forEach (updateExisting env tenantId existing)
        (fun stats ↦ { stats with usersUpdated := stats.usersUpdated + 1 }) plan.toUpdate stats dir with
      | .error thrown => .error thrown
      | .ok (stats, dir) =>
        let count := (dir.members.filter (deactivates tenantId existing plan.toDeactivate)).length
        .ok ({ stats with usersDeactivated := count }, deactivateMissing env tenantId existing plan.toDeactivate dir)

end Apply

section Run

variable (env : Env) (opts : SyncOptions)

def claims (config : SyncConfig) : Bool :=
  config.id = opts.configId && config.tenantId = opts.tenantId && (config.status ≠ .running ||
      config.lastSyncAt.any fun lastSyncAt ↦ lastSyncAt < env.startedAt - staleLockMinutes * msPerMinute)

/-- The claim of a configuration. -/
def claim (config : SyncConfig) : SyncConfig :=
  if claims env opts config then { config with status := .running, lastSyncAt := some env.startedAt }
  else config

def Store.claimed (store : Store) : Store := { store with configs := store.configs.map (claim env opts) }

def Store.updateConfig (store : Store) (f : SyncConfig → SyncConfig) : Store :=
  { store with configs := store.configs.map fun config ↦
      if config.id = opts.configId && config.tenantId = opts.tenantId then f config else config }

def Store.createLog (store : Store) (status : SyncStatus) (stats : SyncStats) (errorMessage : Option String) :
    Store :=
  let log : SyncLog := {
    id := env.logId, configId := opts.configId, tenantId := opts.tenantId, status, startedAt := env.startedAt,
    completedAt := env.completedAt, dryRun := opts.dryRun, stats, errorMessage }
  { store with logs := store.logs ++ [log] }

/-- `writeSyncError` and the error log, both best effort. -/
def recordError (thrown : SyncError) (stats : SyncStats) (store : Store) : SyncResult × Store :=
  let message := env.sanitizeSyncError thrown
  let store := match env.fails .writeError with
    | some _ => store
    | none => store.updateConfig opts fun config ↦ { config with
        status := .error, lastSyncError := some message, lastSyncAt := some env.completedAt }
  let failure : SyncResult := { success := false, dryRun := opts.dryRun, stats, errorMessage := some message }
  match env.fails .errorLog with
  | some _ => (failure, store)
  | none => ({ failure with logId := some env.logId }, store.createLog env opts .error stats (some message))

def safetyMessage (deactivations activeCount : Nat) : String :=
  s!"Safety guard: {deactivations} deactivations would exceed 20% of {activeCount} active users. Use force=true to override."

def abortSafety (message : String) (store : Store) : SyncResult × Store :=
  match env.fails .abort with
  | some thrown => recordError env opts (.database thrown) {} store
  | none =>
    let store := store.createLog env opts .error {} (some (env.sanitizeMessage message))
    let store := store.updateConfig opts fun config ↦ { config with
      status := .error, lastSyncError := some (env.sanitizeMessage message) }
    ({ success := false, dryRun := opts.dryRun, stats := {}, errorMessage := some message, abortedSafety := true,
       logId := some env.logId }, store)

def finish (stats : SyncStats) (store : Store) : SyncResult × Store :=
  match env.fails .log with
  | some thrown => recordError env opts (.database thrown) stats store
  | none =>
    let store := store.createLog env opts .success stats none
    match env.fails .finish with
    | some thrown => recordError env opts (.database thrown) stats store
    | none =>
      let store := store.updateConfig opts fun config ↦ { config with
        status := .success, lastSyncAt := some env.completedAt, lastSyncError := none,
        lastSyncStats := some stats,
        nextSyncAt := some (env.completedAt + config.syncIntervalMinutes * msPerMinute) }
      ({ success := true, dryRun := opts.dryRun, stats, logId := some env.logId }, store)

def applyPlan (plan : Plan) (store : Store) : SyncResult × Store :=
  if opts.dryRun then
    let stats : SyncStats := {
      usersCreated := plan.toCreate.length, usersUpdated := plan.toUpdate.length,
      usersDeactivated := plan.toDeactivate.length }
    finish env opts stats store
  else match env.fails .apply with
    | some thrown => recordError env opts (.database thrown) {} store
    | none =>
      match applyChanges env opts.tenantId store.directory plan store.directory with
      | .error (thrown, stats) => recordError env opts thrown stats store
      | .ok (stats, directory) => finish env opts stats { store with directory }

def syncClaimed (store : Store) : SyncResult × Store :=
  if !store.configs.any fun config ↦ config.id = opts.configId && config.tenantId = opts.tenantId then
    recordError env opts .configNotFound {} store
  else match env.fetchProviderUsers with
  | .error message => recordError env opts (.provider message) {} store
  | .ok providerUsers =>
    match env.fails .load with
    | some thrown => recordError env opts (.database thrown) {} store
    | none =>
      if !store.directory.usersVisible opts.tenantId then recordError env opts .userNotVisible {} store
      else
        let plan := diff store.directory opts.tenantId (validUsers providerUsers)
        let activeCount := (store.directory.activeMembers opts.tenantId).length
        if !opts.force && exceedsThreshold plan.toDeactivate.length activeCount then
          abortSafety env opts (safetyMessage plan.toDeactivate.length activeCount) store
        else applyPlan env opts plan store

def runDirectorySync (store : Store) : SyncResult × Store :=
  let refusal : SyncResult := { success := false, dryRun := opts.dryRun, stats := {} }
  match env.fails .lock with
  | some thrown => ({ refusal with errorMessage := some (env.sanitizeSyncError (.database thrown)) }, store)
  | none =>
    if store.configs.any (claims env opts) then
      syncClaimed env opts (store.claimed env opts)
    else ({ refusal with errorMessage := some "Sync already running (locked)" }, store)

end Run

end PasswdSso.DirectorySync
