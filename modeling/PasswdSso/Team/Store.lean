import Mathlib.Data.List.Dedup
import Mathlib.Data.List.Sort
import PasswdSso.Vault.Store

/-!
# The team tables

The columns of `teams`, `team_members`, `team_member_keys`, `team_invitations`,
`team_password_entries` and `team_password_entry_histories` that the routes on team keys, members
and entries read or write. The rows of a team are in the tenant of the team, so that row-level
security hides none of them from the transactions of `withTeamTenantRls`, and it is left out here.

The server cannot look into what the clients encrypt. To say what a row decrypts to, a blob carries
the key it was encrypted under and its plaintext, and a wrapped item key carries the version of the
team key it was wrapped under and the item key itself.
-/

namespace PasswdSso.Team

open ReadCommitted
open Vault (Sealed)

inductive TeamRole
  | owner
  | admin
  | member
  | viewer
  deriving DecidableEq

/-- `ROLE_LEVEL`. -/
def TeamRole.level : TeamRole → Nat
  | .owner => 4
  | .admin => 3
  | .member => 2
  | .viewer => 1

def isRoleAbove (actorRole targetRole : TeamRole) : Bool := actorRole.level > targetRole.level

/-- `hasTeamPermission` for `PASSWORD_UPDATE`. -/
def TeamRole.mayUpdatePasswords : TeamRole → Bool
  | .viewer => false
  | _ => true

structure Team where
  tenantId : Uuid
  teamKeyVersion : Nat
  deriving DecidableEq

structure TeamMember where
  id : Uuid
  teamId : Uuid
  userId : Uuid
  tenantId : Uuid
  role : TeamRole
  keyDistributed : Bool
  deactivatedAt : Option Millis
  scimManaged : Bool
  deriving DecidableEq

/-- The columns of a `team_member_keys` row that the clients submit. -/
structure MemberKeyData where
  encryptedTeamKey : String
  teamKeyIv : String
  teamKeyAuthTag : String
  ephemeralPublicKey : String
  hkdfSalt : String
  wrapVersion : Nat

structure TeamMemberKey where
  teamId : Uuid
  userId : Uuid
  tenantId : Uuid
  keyVersion : Nat
  data : MemberKeyData

inductive InvitationStatus
  | pending
  | accepted
  | declined
  | expired
  deriving DecidableEq

structure TeamInvitation where
  id : Uuid
  teamId : Uuid
  email : String
  role : TeamRole
  status : InvitationStatus
  token : String
  expiresAt : Millis

structure ItemKey where
  version : Nat
  secret : Nat
  deriving DecidableEq

inductive BlobKey
  | team (version : Nat)
  | item (key : ItemKey)
  deriving DecidableEq

/-- A blob: the stored columns, the key it was encrypted under and the plaintext. -/
structure TeamBlob where
  data : Sealed
  key : BlobKey
  content : String
  deriving DecidableEq

/-- A wrapped item key: the stored columns, the team key version it was wrapped under and the key. -/
structure WrappedItemKey where
  data : Sealed
  teamKeyVersion : Nat
  key : ItemKey
  deriving DecidableEq

/-- The columns of a `team_password_entries` row that are not encrypted. -/
structure TeamEntryMetadata where
  entryType : String
  createdById : Uuid
  updatedById : Uuid
  teamFolderId : Option Uuid
  tagIds : List Uuid
  isArchived : Bool
  requireReprompt : Bool
  expiresAt : Option Millis

/-- The encrypted columns of an entry that its history keeps as well: the blob and what it takes to
decrypt it. -/
structure Material where
  blob : TeamBlob
  aadVersion : Nat
  teamKeyVersion : Nat
  itemKeyVersion : Nat
  itemKey : Option WrappedItemKey
  deriving DecidableEq

structure TeamPasswordEntry where
  id : Uuid
  teamId : Uuid
  tenantId : Uuid
  material : Material
  overview : Sealed
  metadata : TeamEntryMetadata

/-- A `team_password_entry_histories` row. -/
structure TeamEntryHistory where
  id : Uuid
  entryId : Uuid
  tenantId : Uuid
  material : Material
  changedById : Uuid
  changedAt : Millis

/-- A `team_folders` or `team_tags` row. -/
structure TeamOwned where
  id : Uuid
  teamId : Uuid

/-- The tables, and `users.ecdhPublicKey`. -/
structure Store where
  teams : Uuid → Option Team
  members : List TeamMember
  memberKeys : List TeamMemberKey
  invitations : List TeamInvitation
  entries : List TeamPasswordEntry
  histories : List TeamEntryHistory
  folders : List TeamOwned
  tags : List TeamOwned
  tenantMembers : List TenantMember
  ecdhPublicKeys : Uuid → Option String

/-- The rows and unique keys that statements lock. -/
inductive Lock
  | team (id : Uuid)
  | member (id : Uuid)
  | memberOf (key : Uuid × Uuid)
  | memberKey (key : Uuid × Uuid × Nat)
  | invitation (id : Uuid)
  | entry (id : Uuid)
  | history (id : Uuid)
  deriving DecidableEq

/-- What a rotation writes to an entry: the item key rewrapped (`rotateEntryV1Schema`), or blob and
overview encrypted again (`rotateEntryV0Schema`). -/
inductive Reencryption
  | itemKey (itemKeyVersion : Nat) (encryptedItemKey : WrappedItemKey)
  | legacy (encryptedBlob : TeamBlob) (encryptedOverview : Sealed)
  deriving DecidableEq

/-- An entry of a rotation payload; `seen` is the row from which the client made it. -/
structure RotateEntry where
  id : Uuid
  aadVersion : Nat
  data : Reencryption
  seen : Material
  deriving DecidableEq

/-- What a committed transaction did. An update that reuses the item key of the row records the
material that the client and the route had read. -/
inductive Event
  | other
  | confirmed (teamId userId : Uuid) (keyVersion : Nat)
  | rotated (teamId : Uuid) (userIds : List Uuid) (entries : List RotateEntry)
  | memberAdded (id : Uuid)
  | memberRemoved (id : Uuid)
  | wrote (entryId : Uuid) (content : String)
  | updated (entryId : Uuid) (content : String) (reused : Option (Material × Material))
  deriving DecidableEq

abbrev Server (α : Type) := Prog Store Lock Event α

abbrev Locks := List (Lock × Mode)

def memberTable : Table Store Uuid TeamMember where
  rows := Store.members
  put db rows := { db with members := rows }
  key := TeamMember.id

def memberKeyTable : Table Store (Uuid × Uuid × Nat) TeamMemberKey where
  rows := Store.memberKeys
  put db rows := { db with memberKeys := rows }
  key row := (row.teamId, row.userId, row.keyVersion)

def invitationTable : Table Store Uuid TeamInvitation where
  rows := Store.invitations
  put db rows := { db with invitations := rows }
  key := TeamInvitation.id

def entryTable : Table Store Uuid TeamPasswordEntry where
  rows := Store.entries
  put db rows := { db with entries := rows }
  key := TeamPasswordEntry.id

def historyTable : Table Store Uuid TeamEntryHistory where
  rows := Store.histories
  put db rows := { db with histories := rows }
  key := TeamEntryHistory.id

namespace Store

variable (db : Store) (teamId : Uuid)

/-- `UPDATE teams SET f WHERE id = teamId`. -/
def setTeam (f : Team → Team) : Store :=
  { db with teams := Function.update db.teams teamId ((db.teams teamId).map f) }

def memberOf (userId : Uuid) : Option TeamMember :=
  db.members.find? fun row ↦ row.teamId = teamId && row.userId = userId

def distributed : List Uuid :=
  (db.members.filter fun row ↦ row.teamId = teamId && row.deactivatedAt.isNone && row.keyDistributed).map (·.userId)

def entryIds : List Uuid := (db.entries.filter (·.teamId = teamId)).map (·.id)

def historyOf (entryId : Uuid) : List Uuid :=
  ((db.histories.filter (·.entryId = entryId)).insertionSort fun a b ↦
    a.changedAt < b.changedAt ∨ (a.changedAt = b.changedAt ∧ a.id ≤ b.id)).map (·.id)

def ownsFolder (folderId : Option Uuid) : Bool :=
  folderId.all fun id ↦ (db.folders.find? (·.id = id)).any fun folder ↦ folder.teamId = teamId

def ownsTags (tagIds : List Uuid) : Bool :=
  db.tags.countP (fun tag ↦ tag.id ∈ tagIds && tag.teamId = teamId) = tagIds.dedup.length

end Store

inductive Thrown
  | tenant (error : TenantError)
  | teamNotResolved
  | uniqueViolation
  | recordNotFound
  | teamKeyVersionConflict
  | missingKeyFor (userId : Uuid)
  | unknownUserId (userId : Uuid)
  | entryCountMismatch
  | notFound
  | alreadyMember
  | scimManagedMember
  | teamKeyVersionMismatch
  | folderNotFound
  | itemKeyVersionDowngrade
  | keyVersionWithoutReencrypt
  | itemKeyRequired

/-- An error response, or an error that reaches the request log. -/
inductive Refusal
  | thrown (thrown : Thrown)
  | validationError
  | teamNotFound
  | teamKeyVersionMismatch (expected : Option Nat)
  | entryCountMismatch
  | missingKeyFor (userId : Uuid)
  | unknownUserId (userId : Uuid)
  | memberNotFound
  | vaultNotReady
  | keyAlreadyDistributed
  | invalidInvitation
  | invitationAlreadyUsed
  | invitationExpired
  | invitationWrongEmail
  | scimManagedMember
  | alreadyAMember
  | notFound
  | cannotRemoveOwner
  | cannotRemoveHigherRole
  | forbidden
  | onlyOwnEntries
  | historyNotFound
  | folderNotFound
  | itemKeyVersionDowngrade
  | keyVersionWithoutReencrypt
  | itemKeyRequired

/-- `withTeamTenantRls`: the tenant is resolved in a transaction of its own, and everything else is
one transaction. -/
def withTeamTenantRls {α : Type} (teamId : Uuid) (label : α → Event)
    (body : Uuid → Server (Except Thrown α)) : Server (Except Thrown α) := do
  match ← .readOnly fun db : Store ↦ db.teams teamId with
  | none => return .error .teamNotResolved
  | some team => .transaction label (body team.tenantId)

/-- `withTeamTenantRls` around one read. -/
def readAsTeam {α : Type} (teamId : Uuid) (f : Store → α) : Server (Except Thrown α) := do
  match ← .readOnly fun db : Store ↦ db.teams teamId with
  | none => return .error .teamNotResolved
  | some _ => return .ok (← .readOnly f)

end PasswdSso.Team
