import PasswdSso.Team.Store
import PasswdSso.Vault.Rotation

/-!
# Team key rotation and membership

`POST /api/teams/[teamId]/rotate-key`, the distribution of the team key to a member (`confirm-key`),
the acceptance of an invitation, and adding and removing members. The rotation and the distribution
check what they read inside their transactions, but read it without a lock.
-/

namespace PasswdSso.Team

open ReadCommitted
open Vault (idsMatch)

section Rotate

structure MemberKeyInput where
  userId : Uuid
  data : MemberKeyData

/-- `POST /api/teams/[teamId]/rotate-key`. -/
structure RotateRequest where
  teamId : Uuid
  newTeamKeyVersion : Nat
  entries : List RotateEntry
  memberKeys : List MemberKeyInput

variable (req : RotateRequest)

/-- The bounds of `rotateKeySchema`. -/
def RotateRequest.parses : Bool :=
  2 ≤ req.newTeamKeyVersion && req.newTeamKeyVersion ≤ 10000 && req.entries.length ≤ 1000 &&
    1 ≤ req.memberKeys.length && req.memberKeys.length ≤ 1000

def RotateEntry.apply (entry : RotateEntry) (newTeamKeyVersion : Nat) (row : TeamPasswordEntry) :
    TeamPasswordEntry :=
  match entry.data with
  | .itemKey _ encryptedItemKey =>
    { row with
      material :=
        { row.material with
          aadVersion := entry.aadVersion
          teamKeyVersion := newTeamKeyVersion
          itemKey := some encryptedItemKey } }
  | .legacy encryptedBlob encryptedOverview =>
    { row with
      material :=
        { row.material with
          aadVersion := entry.aadVersion
          teamKeyVersion := newTeamKeyVersion
          blob := encryptedBlob }
      overview := encryptedOverview }

def RotateRequest.memberKey (tenantId : Uuid) (input : MemberKeyInput) : TeamMemberKey :=
  ⟨req.teamId, input.userId, tenantId, req.newTeamKeyVersion, input.data⟩

/-- Every active member with a distributed key has a key in the payload, and nobody else has. -/
def checkMemberKeys : Server (Except Thrown Unit) := do
  let memberUserIds ← .read (Store.distributed · req.teamId)
  match memberUserIds.find? fun userId ↦ userId ∉ req.memberKeys.map (·.userId) with
  | some userId => return .error (.missingKeyFor userId)
  | none =>
    match req.memberKeys.find? fun key ↦ key.userId ∉ memberUserIds with
    | some key => return .error (.unknownUserId key.userId)
    | none => return .ok ()

def checkEntries : Server (Except Thrown Unit) := do
  let allEntries ← .read (Store.entryIds · req.teamId)
  if idsMatch (req.entries.map (·.id)) allEntries then return .ok ()
  else return .error .entryCountMismatch

def rotateTeamEntries (teamId : Uuid) (newTeamKeyVersion : Nat) :
    List RotateEntry → Server (Except Thrown Unit)
  | [] => return .ok ()
  | entry :: rest => do
    let count ← .updateMany entryTable .entry
      (fun row ↦ row.id = entry.id && row.teamId = teamId) (entry.apply newTeamKeyVersion)
    if count ≠ 1 then return .error .entryCountMismatch
    else rotateTeamEntries teamId newTeamKeyVersion rest

def createMemberKeys (rows : List TeamMemberKey) : Server (Except Thrown Unit) := do
  if ← .insert (rows.map fun row ↦ .memberKey (memberKeyTable.key row))
      (fun db : Store ↦ ¬ (rows.map memberKeyTable.key).Nodup ∨
        rows.any fun row ↦ memberKeyTable.key row ∈ db.memberKeys.map memberKeyTable.key)
      (memberKeyTable.append rows) then
    return .error .uniqueViolation
  return .ok ()

/-- `team.update` of the key version. -/
def setTeamKeyVersion (teamId : Uuid) (version : Nat) : Server (Except Thrown Unit) := do
  if ← .write [(.team teamId, .exclusive)]
      (Store.setTeam · teamId fun team ↦ { team with teamKeyVersion := version })
      fun db : Store ↦ (db.teams teamId).isSome then
    return .ok ()
  return .error .recordNotFound

def checkTeamKeyVersion (teamId : Uuid) (version : Nat) : Server (Except Thrown Unit) := do
  let currentTeam ← .read fun db : Store ↦ db.teams teamId
  if currentTeam.map (·.teamKeyVersion) = some version then return .ok ()
  else return .error .teamKeyVersionConflict

/-- The transaction of a rotation; `team` is the pre-read. -/
def rotationBody (team : Team) : Server (Except Thrown Unit) :=
  Prog.andThen (checkTeamKeyVersion req.teamId team.teamKeyVersion) fun _ ↦
  Prog.andThen (checkMemberKeys req) fun _ ↦
  Prog.andThen (checkEntries req) fun _ ↦
  Prog.andThen (rotateTeamEntries req.teamId req.newTeamKeyVersion req.entries) fun _ ↦
  Prog.andThen (createMemberKeys (req.memberKeys.map (req.memberKey team.tenantId))) fun _ ↦
  setTeamKeyVersion req.teamId req.newTeamKeyVersion

def rotationRefusal : Thrown → Refusal
  | .teamKeyVersionConflict => .teamKeyVersionMismatch none
  | .uniqueViolation => .teamKeyVersionMismatch none
  | .entryCountMismatch => .entryCountMismatch
  | .missingKeyFor userId => .missingKeyFor userId
  | .unknownUserId userId => .unknownUserId userId
  | thrown => .thrown thrown

/-- The event of a rotation. -/
def RotateRequest.event : Event :=
  .rotated req.teamId (req.memberKeys.map (·.userId)) req.entries

/-- `POST /api/teams/[teamId]/rotate-key`. -/
def rotateTeamKey : Server (Except Refusal Unit) := do
  match ← readAsTeam req.teamId fun db ↦ db.teams req.teamId with
  | .error thrown => return .error (.thrown thrown)
  | .ok none => return .error .teamNotFound
  | .ok (some team) =>
    if req.parses = false then
      return .error .validationError
    else if req.newTeamKeyVersion ≠ team.teamKeyVersion + 1 then
      return .error (.teamKeyVersionMismatch (some (team.teamKeyVersion + 1)))
    else
      return (← withTeamTenantRls req.teamId (fun _ ↦ req.event) fun _ ↦ rotationBody req team).mapError rotationRefusal

end Rotate

section Confirm

/-- `POST /api/teams/[teamId]/members/[memberId]/confirm-key`. -/
structure ConfirmRequest where
  teamId : Uuid
  memberId : Uuid
  keyVersion : Nat
  data : MemberKeyData

inductive Distributed
  | success
  | memberNotFound
  | alreadyDistributed
  | versionMismatch
  deriving DecidableEq

variable (req : ConfirmRequest)

def ConfirmRequest.memberKey (tenantId userId : Uuid) : TeamMemberKey :=
  ⟨req.teamId, userId, tenantId, req.keyVersion, req.data⟩

def TeamMemberKey.rewrap (data : MemberKeyData) (row : TeamMemberKey) : TeamMemberKey :=
  { row with data := data }

def upsertMemberKey (row : TeamMemberKey) : Server (Except Thrown Unit) := do
  match ← .upsert memberKeyTable .memberKey (.memberKey (memberKeyTable.key row))
      (fun old ↦ memberKeyTable.key old = memberKeyTable.key row)
      (.rewrap row.data) row with
  | .clash => return .error .uniqueViolation
  | _ => return .ok ()

/-- `teamMember.update` of a member of the team. -/
def updateMember (teamId memberId : Uuid) (f : TeamMember → TeamMember) :
    Server (Except Thrown Unit) := do
  let count ← .updateMany memberTable .member
    (fun row ↦ row.id = memberId && row.teamId = teamId) f
  if count = 0 then return .error .recordNotFound else return .ok ()

/-- `SET key_distributed = true`. -/
def TeamMember.distribute (row : TeamMember) : TeamMember := { row with keyDistributed := true }

def distributeKey (userId : Uuid) : Server (Except Thrown Distributed) := do
  match ← .read fun db : Store ↦ db.teams req.teamId with
  | none => return .ok .versionMismatch
  | some team =>
    if req.keyVersion ≠ team.teamKeyVersion then
      return .ok .versionMismatch
    else
      Prog.andThen (upsertMemberKey (req.memberKey team.tenantId userId)) fun _ ↦
      Prog.andThen (updateMember req.teamId req.memberId .distribute) fun _ ↦
      return .ok .success

def confirmBody (userId : Uuid) : Server (Except Thrown Distributed) := do
  match ← .read fun db : Store ↦ db.members.find? (·.id = req.memberId) with
  | none => return .ok .memberNotFound
  | some member =>
    if member.deactivatedAt.isSome then return .ok .memberNotFound
    else if member.keyDistributed then return .ok .alreadyDistributed
    else distributeKey req userId

/-- The event of a distribution. -/
def ConfirmRequest.event (userId : Uuid) : Distributed → Event
  | .success => .confirmed req.teamId userId req.keyVersion
  | _ => .other

def Distributed.response : Distributed → Except Refusal Unit
  | .success => .ok ()
  | .memberNotFound => .error .memberNotFound
  | .alreadyDistributed => .error .keyAlreadyDistributed
  | .versionMismatch => .error (.teamKeyVersionMismatch none)

/-- The request proceeds: the member is an active member of the team with a public key and without a
team key. -/
def ConfirmRequest.checkTarget (target : Option TeamMember) (ecdhPublicKey : Uuid → Option String) :
    Except Refusal Uuid :=
  match target with
  | none => .error .memberNotFound
  | some target =>
    if target.teamId ≠ req.teamId || target.deactivatedAt.isSome then .error .memberNotFound
    else if (ecdhPublicKey target.userId).all (· = "") then .error .vaultNotReady
    else if target.keyDistributed then .error .keyAlreadyDistributed
    else .ok target.userId

/-- `POST /api/teams/[teamId]/members/[memberId]/confirm-key`. -/
def confirmKey : Server (Except Refusal Unit) := do
  match ← readAsTeam req.teamId fun db ↦ db.members.find? (·.id = req.memberId) with
  | .error thrown => return .error (.thrown thrown)
  | .ok target =>
    let ecdhPublicKeys ← .readOnly Store.ecdhPublicKeys
    match req.checkTarget target ecdhPublicKeys with
    | .error refusal => return .error refusal
    | .ok userId =>
      match ← withTeamTenantRls req.teamId (req.event userId) fun _ ↦ confirmBody req userId with
      | .error thrown => return .error (.thrown thrown)
      | .ok distributed => return distributed.response

end Confirm

section Accept

/-- `POST /api/teams/invitations/accept`; `memberId` is the id that the database draws for a new
member row. -/
structure AcceptRequest where
  userId : Uuid
  email : String
  token : String
  now : Millis
  claimNow : Millis
  memberId : Uuid

variable (toLowerCase : String → String) (req : AcceptRequest)

/-- `teamInvitation.updateMany` from `PENDING`. -/
def settleInvitation (invitation : TeamInvitation) (condition : TeamInvitation → Bool)
    (status : InvitationStatus) : Server Nat :=
  Prog.updateMany invitationTable .invitation
    (fun row ↦ row.id = invitation.id && row.teamId = invitation.teamId && row.status = .pending &&
      condition row)
    fun row ↦ { row with status := status }

/-- The member row that an acceptance creates. -/
def AcceptRequest.member (tenantId : Uuid) (invitation : TeamInvitation) : TeamMember where
  id := req.memberId
  teamId := invitation.teamId
  userId := req.userId
  tenantId := tenantId
  role := invitation.role
  keyDistributed := false
  deactivatedAt := none
  scimManaged := false

/-- The member row after it has been activated again, without a distributed key. -/
def TeamMember.reactivate (role : TeamRole) (row : TeamMember) : TeamMember :=
  { row with role := role, keyDistributed := false, deactivatedAt := none, scimManaged := false }

/-- The results of the transaction that accepts an invitation. -/
inductive Accepted
  | alreadyUsed
  | reactivated
  | added
  deriving DecidableEq

def acceptBody (invitation : TeamInvitation) (tenantId : Uuid) :
    Server (Except Thrown Accepted) := do
  let claim ← settleInvitation invitation (·.expiresAt > req.claimNow) .accepted
  if claim = 0 then
    return .ok .alreadyUsed
  else
    match ← .upsert memberTable .member (.memberOf (invitation.teamId, req.userId))
        (fun row ↦ row.teamId = invitation.teamId && row.userId = req.userId)
        (.reactivate invitation.role) (req.member tenantId invitation) with
    | .clash => return .error .uniqueViolation
    | .updated => return .ok .reactivated
    | .inserted => return .ok .added

/-- The event of an acceptance. -/
def AcceptRequest.event : Accepted → Event
  | .added => .memberAdded req.memberId
  | _ => .other

def acceptAsNew (invitation : TeamInvitation) : Server (Except Refusal Unit) := do
  match ← .readOnly fun db : Store ↦ resolveUserTenantId db.tenantMembers req.userId with
  | .error error => return .error (.thrown (.tenant error))
  | .ok _ =>
    match ← withTeamTenantRls invitation.teamId req.event (acceptBody req invitation) with
    | .error thrown => return .error (.thrown thrown)
    | .ok .alreadyUsed => return .error .invitationAlreadyUsed
    | .ok _ => return .ok ()

def settleOnly (invitation : TeamInvitation) (status : InvitationStatus)
    (response : Except Refusal Unit) : Server (Except Refusal Unit) := do
  match ← withTeamTenantRls invitation.teamId (fun _ ↦ .other) fun _ ↦ do
      return .ok (← settleInvitation invitation (fun _ ↦ true) status) with
  | .error thrown => return .error (.thrown thrown)
  | .ok _ => return response

/-- `POST /api/teams/invitations/accept`. -/
def acceptInvitation : Server (Except Refusal Unit) := do
  match ← .readOnly fun db : Store ↦ db.invitations.find? (·.token = req.token) with
  | none => return .error .invalidInvitation
  | some invitation =>
    if invitation.status ≠ .pending then
      return .error .invitationAlreadyUsed
    else if invitation.expiresAt < req.now then
      settleOnly invitation .expired (.error .invitationExpired)
    else if toLowerCase invitation.email ≠ toLowerCase req.email then
      return .error .invitationWrongEmail
    else
      match ← readAsTeam invitation.teamId (Store.memberOf · invitation.teamId req.userId) with
      | .error thrown => return .error (.thrown thrown)
      | .ok none => acceptAsNew req invitation
      | .ok (some existing) =>
        if existing.deactivatedAt.isNone then settleOnly invitation .accepted (.ok ())
        else if existing.scimManaged then return .error .scimManagedMember
        else acceptAsNew req invitation

end Accept

section Add

/-- `POST /api/teams/[teamId]/members`. -/
structure AddMemberRequest where
  actorId : Uuid
  teamId : Uuid
  userId : Uuid
  role : TeamRole
  memberId : Uuid

variable (req : AddMemberRequest)

/-- The member row that is created. -/
def AddMemberRequest.member (tenantId : Uuid) : TeamMember where
  id := req.memberId
  teamId := req.teamId
  userId := req.userId
  tenantId := tenantId
  role := req.role
  keyDistributed := false
  deactivatedAt := none
  scimManaged := false

inductive Added
  | created
  | reactivated
  deriving DecidableEq

def reactivateMember (existing : TeamMember) : Server (Except Thrown Added) := do
  let _ ← .deleteMany memberKeyTable .memberKey
    fun row ↦ row.teamId = req.teamId && row.userId = req.userId
  let count ← .updateMany memberTable .member (·.id = existing.id) (.reactivate req.role)
  if count = 0 then return .error .recordNotFound else return .ok .reactivated

def createMember (row : TeamMember) : Server (Except Thrown Added) := do
  if ← .insert [.member row.id, .memberOf (row.teamId, row.userId)]
      (fun db : Store ↦ db.members.any fun old ↦
        old.id = row.id || (old.teamId = row.teamId && old.userId = row.userId))
      (memberTable.append [row]) then
    return .error .uniqueViolation
  return .ok .created

def addBody (tenantId : Uuid) : Server (Except Thrown Added) := do
  let tenantMembership ← .read fun db : Store ↦ db.tenantMembers.find? fun row ↦
    row.tenantId = tenantId && row.userId = req.userId && row.deactivatedAt.isNone
  if tenantMembership.isNone then
    return .error .notFound
  else
    match ← .read (Store.memberOf · req.teamId req.userId) with
    | none => createMember (req.member tenantId)
    | some existing =>
      if existing.deactivatedAt.isNone then return .error .alreadyMember
      else if existing.scimManaged then return .error .scimManagedMember
      else reactivateMember req existing

/-- The event of adding a member. -/
def AddMemberRequest.event : Added → Event
  | .created => .memberAdded req.memberId
  | .reactivated => .other

def addRefusal : Thrown → Refusal
  | .alreadyMember => .alreadyAMember
  | .scimManagedMember => .scimManagedMember
  | .uniqueViolation => .alreadyAMember
  | .notFound => .notFound
  | thrown => .thrown thrown

/-- `POST /api/teams/[teamId]/members`. -/
def addMember : Server (Except Refusal Unit) := do
  if req.userId = req.actorId then
    return .error .validationError
  else
    match ← withTeamTenantRls req.teamId req.event (addBody req) with
    | .error thrown => return .error (addRefusal thrown)
    | .ok _ => return .ok ()

end Add

section Remove

/-- `DELETE /api/teams/[teamId]/members/[memberId]`. -/
structure RemoveMemberRequest where
  actorRole : TeamRole
  teamId : Uuid
  memberId : Uuid

variable (req : RemoveMemberRequest)

def removeBody (userId : Uuid) : Server (Except Thrown Unit) := do
  let _ ← .deleteMany memberKeyTable .memberKey
    fun row ↦ row.teamId = req.teamId && row.userId = userId
  let count ← .deleteMany memberTable .member
    fun row ↦ row.id = req.memberId && row.teamId = req.teamId
  if count = 0 then return .error .recordNotFound else return .ok ()

def RemoveMemberRequest.checkTarget (target : Option TeamMember) : Except Refusal Uuid :=
  match target with
  | none => .error .memberNotFound
  | some target =>
    if target.teamId ≠ req.teamId || target.deactivatedAt.isSome then .error .memberNotFound
    else if target.role = .owner then .error .cannotRemoveOwner
    else if req.actorRole ≠ .owner && !isRoleAbove req.actorRole target.role then
      .error .cannotRemoveHigherRole
    else .ok target.userId

/-- `DELETE /api/teams/[teamId]/members/[memberId]`. -/
def removeMember : Server (Except Refusal Unit) := do
  match ← readAsTeam req.teamId fun db ↦ db.members.find? (·.id = req.memberId) with
  | .error thrown => return .error (.thrown thrown)
  | .ok target =>
    match req.checkTarget target with
    | .error refusal => return .error refusal
    | .ok userId =>
      return (← withTeamTenantRls req.teamId (fun _ ↦ .memberRemoved req.memberId)
          fun _ ↦ removeBody req userId).mapError .thrown

end Remove

end PasswdSso.Team
