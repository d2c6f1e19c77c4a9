import PasswdSso.ReadCommitted.Snapshot
import PasswdSso.Team.Keys

/-!
# Team entries

`createTeamPassword`, `updateTeamPassword` and the restore of a history version, each with the reads
that its client and its route make before the transaction. The key version of the team is compared
without a lock, and the checks on the versions of the entry use what was read before the
transaction.
-/

namespace PasswdSso.Team

open ReadCommitted
open Vault (Sealed)

def serviceRefusal : Thrown → Refusal
  | .teamKeyVersionMismatch => .teamKeyVersionMismatch none
  | .folderNotFound => .folderNotFound
  | .notFound => .notFound
  | .itemKeyVersionDowngrade => .itemKeyVersionDowngrade
  | .keyVersionWithoutReencrypt => .keyVersionWithoutReencrypt
  | .itemKeyRequired => .itemKeyRequired
  | thrown => .thrown thrown

/-- `assertTeamFolderOwnership` and `assertTeamTagsOwnership`; the queries are made only for what is
given. -/
def assertOwnership (teamId : Uuid) (teamFolderId : Option Uuid) (tagIds : List Uuid) :
    Server (Except Thrown Unit) := do
  if ← .read (Store.ownsFolder · teamId teamFolderId) then
    if tagIds = [] then
      return .ok ()
    else if ← .read (Store.ownsTags · teamId tagIds) then
      return .ok ()
    else return .error .notFound
  else return .error .folderNotFound

def assertTeamKeyVersion (teamId : Uuid) (teamKeyVersion : Nat) : Server (Except Thrown Uuid) := do
  match ← .read fun db : Store ↦ db.teams teamId with
  | none => return .error .teamKeyVersionMismatch
  | some team =>
    if teamKeyVersion ≠ team.teamKeyVersion then return .error .teamKeyVersionMismatch
    else return .ok team.tenantId

section Create

/-- `POST /api/teams/[teamId]/passwords`; the schema wants an item key exactly for item key versions
from 1 on. -/
structure CreateRequest where
  teamId : Uuid
  id : Uuid
  userId : Uuid
  encryptedBlob : TeamBlob
  encryptedOverview : Sealed
  aadVersion : Nat
  teamKeyVersion : Nat
  itemKeyVersion : Nat
  encryptedItemKey : Option WrappedItemKey
  itemKeyIff : encryptedItemKey.isSome = true ↔ 1 ≤ itemKeyVersion
  entryType : String
  tagIds : Option (List Uuid)
  teamFolderId : Option (Option Uuid)
  requireReprompt : Option Bool
  expiresAt : Option (Option Millis)

variable (req : CreateRequest)

/-- The encrypted columns that are submitted. -/
def CreateRequest.material : Material where
  blob := req.encryptedBlob
  aadVersion := req.aadVersion
  teamKeyVersion := req.teamKeyVersion
  itemKeyVersion := req.itemKeyVersion
  itemKey := req.encryptedItemKey

/-- The row that is created. -/
def CreateRequest.entry (tenantId : Uuid) : TeamPasswordEntry where
  id := req.id
  teamId := req.teamId
  tenantId := tenantId
  material := req.material
  overview := req.encryptedOverview
  metadata :=
    { entryType := req.entryType
      createdById := req.userId
      updatedById := req.userId
      teamFolderId := req.teamFolderId.join
      tagIds := (req.tagIds.getD []).dedup
      isArchived := false
      requireReprompt := req.requireReprompt.getD false
      expiresAt := req.expiresAt.join }

def insertEntry (row : TeamPasswordEntry) : Server (Except Thrown Unit) := do
  if ← .insert [.entry row.id] (fun db : Store ↦ db.entries.any (·.id = row.id))
      (entryTable.append [row]) then
    return .error .uniqueViolation
  return .ok ()

def createTeamPassword : Server (Except Thrown Unit) :=
  Prog.andThen (assertTeamKeyVersion req.teamId req.teamKeyVersion) fun tenantId ↦
  Prog.andThen (assertOwnership req.teamId req.teamFolderId.join (req.tagIds.getD [])) fun _ ↦
  insertEntry (req.entry tenantId)

/-- `POST /api/teams/[teamId]/passwords`. -/
def createEntry : Server (Except Refusal Unit) := do
  return (← withTeamTenantRls req.teamId (fun _ ↦ .wrote req.id req.encryptedBlob.content)
      fun _ ↦ createTeamPassword req).mapError serviceRefusal

end Create

def TeamPasswordEntry.history (entry : TeamPasswordEntry) (id tenantId changedById : Uuid)
    (changedAt : Millis) : TeamEntryHistory :=
  ⟨id, entry.id, tenantId, entry.material, changedById, changedAt⟩

def trimHistory (entryId : Uuid) : Server Unit :=
  .trim historyTable .history 20 (·.entryId = entryId) (Store.historyOf · entryId)

structure SnapshotDraw where
  historyId : Uuid
  changedById : Uuid
  changedAt : Millis

/-- Lock the entry and move its current material into the history; the answer is whether the entry
is still there. -/
def snapshotEntry (teamId entryId tenantId : Uuid) (draw : SnapshotDraw) :
    Server (Except Thrown Bool) :=
  .snapshot (.entry entryId) (fun db : Store ↦ db.entries.find? fun row ↦ row.id = entryId && row.teamId = teamId)
    historyTable .history (·.history draw.historyId tenantId draw.changedById draw.changedAt) .uniqueViolation
    (trimHistory entryId)

/-- `teamPasswordEntry.update` of an entry of the team. -/
def updateRow (teamId entryId : Uuid) (f : TeamPasswordEntry → TeamPasswordEntry) :
    Server (Except Thrown Unit) := do
  let count ← .updateMany entryTable .entry
    (fun row ↦ row.id = entryId && row.teamId = teamId) f
  if count = 0 then return .error .recordNotFound else return .ok ()

section Update

/-- The encrypted fields of an update, which the schema wants all together or not at all. -/
structure FullUpdate where
  encryptedBlob : TeamBlob
  encryptedOverview : Sealed
  aadVersion : Nat
  teamKeyVersion : Nat

/-- The body of `PUT /api/teams/[teamId]/passwords/[id]`; the schema does not accept an item key
without an item key version from 1 on. -/
structure UpdateInput where
  full : Option FullUpdate
  itemKeyVersion : Option Nat
  encryptedItemKey : Option WrappedItemKey
  itemKeyNeedsVersion : encryptedItemKey.isSome = true → 1 ≤ itemKeyVersion.getD 0
  tagIds : Option (List Uuid)
  teamFolderId : Option (Option Uuid)
  isArchived : Option Bool
  requireReprompt : Option Bool
  expiresAt : Option (Option Millis)

/-- An update of an entry by a client, who reads the row, changes it and submits; `edit` is what the
client makes of the row. -/
structure UpdateRequest where
  teamId : Uuid
  id : Uuid
  userId : Uuid
  role : TeamRole
  edit : TeamPasswordEntry → UpdateInput
  draw : SnapshotDraw

variable (input : UpdateInput)

/-- The checks of `updateTeamPassword` on the versions; `existing` was read before the transaction. -/
def UpdateInput.checkVersions (existing : Material) : Except Thrown Unit :=
  let existingVersion := existing.itemKeyVersion
  let itemKeyVersionChanged := input.itemKeyVersion.any (· ≠ existingVersion)
  let teamKeyVersionChanged := input.full.any fun full ↦ full.teamKeyVersion ≠ existing.teamKeyVersion
  let effectiveItemKeyVersion := input.itemKeyVersion.getD existingVersion
  if input.itemKeyVersion.any (· < existingVersion) then
    .error .itemKeyVersionDowngrade
  else if itemKeyVersionChanged && input.full.isNone then
    .error .keyVersionWithoutReencrypt
  else if input.itemKeyVersion.any (1 ≤ ·) && existingVersion < 1 && input.encryptedItemKey.isNone then
    .error .itemKeyRequired
  else if teamKeyVersionChanged && 1 ≤ effectiveItemKeyVersion && input.encryptedItemKey.isNone then
    .error .itemKeyRequired
  else .ok ()

def FullUpdate.material (full : FullUpdate) (row : Material) : Material where
  blob := full.encryptedBlob
  aadVersion := full.aadVersion
  teamKeyVersion := full.teamKeyVersion
  itemKeyVersion := input.itemKeyVersion.getD row.itemKeyVersion
  itemKey := if input.itemKeyVersion.isSome then input.encryptedItemKey <|> row.itemKey
    else row.itemKey

/-- `updateData`. -/
def UpdateInput.apply (userId : Uuid) (row : TeamPasswordEntry) : TeamPasswordEntry :=
  { row with
    material := match input.full with
      | some full => full.material input row.material
      | none => row.material
    overview := (input.full.map (·.encryptedOverview)).getD row.overview
    metadata :=
      { row.metadata with
        updatedById := userId
        teamFolderId := input.teamFolderId.getD row.metadata.teamFolderId
        tagIds := (input.tagIds.map List.dedup).getD row.metadata.tagIds
        isArchived := input.isArchived.getD row.metadata.isArchived
        requireReprompt := input.requireReprompt.getD row.metadata.requireReprompt
        expiresAt := input.expiresAt.getD row.metadata.expiresAt } }

variable (req : UpdateRequest)

/-- The transaction of an update, after the checks: with a snapshot when the blob changes. -/
def updateBody (tenantId : Uuid) : Server (Except Thrown Unit) :=
  match input.full with
  | none => updateRow req.teamId req.id (input.apply req.userId)
  | some _ =>
    Prog.andThen (snapshotEntry req.teamId req.id tenantId req.draw) fun found ↦
      if found then updateRow req.teamId req.id (input.apply req.userId)
      else return .error .notFound

def assertFullVersion (teamId : Uuid) : Server (Except Thrown Unit) :=
  match input.full with
  | none => return .ok ()
  | some full => .andThen (assertTeamKeyVersion teamId full.teamKeyVersion) fun _ ↦ return .ok ()

def updateTeamPassword (existing : TeamPasswordEntry) : Server (Except Thrown Unit) :=
  match input.checkVersions existing.material with
  | .error thrown => return .error thrown
  | .ok _ =>
    Prog.andThen (assertFullVersion input req.teamId) fun _ ↦
    Prog.andThen (assertOwnership req.teamId input.teamFolderId.join (input.tagIds.getD [])) fun _ ↦
    updateBody input req existing.tenantId

/-- The update keeps the item key that the row has, or is of an entry without one. -/
def UpdateInput.reuses : Bool :=
  input.encryptedItemKey.isNone && input.itemKeyVersion ≠ some 0

/-- The event of an update: `seen` is the row from which the client made it, `existing` the one the
route read for its checks. -/
def UpdateInput.event (id : Uuid) (seen existing : Material) : Event :=
  match input.full with
  | none => .other
  | some full => .updated id full.encryptedBlob.content
      (if input.reuses then some (seen, existing) else none)

/-- `PUT /api/teams/[teamId]/passwords/[id]`. -/
def putEntry (seen : TeamPasswordEntry) : Server (Except Refusal Unit) := do
  match ← readAsTeam req.teamId fun db ↦ db.entries.find? (·.id = req.id) with
  | .error thrown => return .error (.thrown thrown)
  | .ok none => return .error .notFound
  | .ok (some existing) =>
    if existing.teamId ≠ req.teamId then
      return .error .notFound
    else if req.role.mayUpdatePasswords = false then
      return .error .forbidden
    else if req.role = .member && existing.metadata.createdById ≠ req.userId then
      return .error .onlyOwnEntries
    else
      return (← withTeamTenantRls req.teamId
          (fun _ ↦ input.event req.id seen.material existing.material)
          fun _ ↦ updateTeamPassword input req existing).mapError serviceRefusal

/-- A client's update: `GET /api/teams/[teamId]/passwords/[id]`, then the `PUT`. -/
def updateEntry : Server (Except Refusal Unit) := do
  match ← readAsTeam req.teamId fun db ↦ db.entries.find? (·.id = req.id) with
  | .error thrown => return .error (.thrown thrown)
  | .ok none => return .error .notFound
  | .ok (some seen) =>
    if seen.teamId ≠ req.teamId then return .error .notFound
    else putEntry (req.edit seen) req seen

end Update

section Restore

/-- `POST /api/teams/[teamId]/passwords/[id]/history/[historyId]/restore`. -/
structure RestoreRequest where
  teamId : Uuid
  id : Uuid
  historyId : Uuid
  userId : Uuid
  draw : SnapshotDraw

def TeamEntryHistory.restore (history : TeamEntryHistory) (userId : Uuid) (row : TeamPasswordEntry) :
    TeamPasswordEntry :=
  { row with
    material := history.material
    metadata := { row.metadata with updatedById := userId } }

variable (req : RestoreRequest)

/-- The transaction of a restore; the answer is whether the entry was still there. -/
def restoreBody (tenantId : Uuid) (history : TeamEntryHistory) : Server (Except Thrown Bool) :=
  Prog.andThen (snapshotEntry req.teamId req.id tenantId req.draw) fun found ↦
    if found then
      Prog.andThen (updateRow req.teamId req.id (history.restore req.userId)) fun _ ↦ return .ok true
    else return .ok false

def RestoreRequest.event (content : String) (found : Bool) : Event :=
  if found then .wrote req.id content else .other

/-- `POST /api/teams/[teamId]/passwords/[id]/history/[historyId]/restore`. -/
def restoreEntry : Server (Except Refusal Unit) := do
  match ← readAsTeam req.teamId fun db ↦ db.entries.find? (·.id = req.id) with
  | .error thrown => return .error (.thrown thrown)
  | .ok none => return .error .notFound
  | .ok (some entry) =>
    if entry.teamId ≠ req.teamId then
      return .error .notFound
    else
      match ← readAsTeam req.teamId fun db ↦ db.histories.find? (·.id = req.historyId) with
      | .error thrown => return .error (.thrown thrown)
      | .ok none => return .error .historyNotFound
      | .ok (some history) =>
        if history.entryId ≠ req.id then
          return .error .historyNotFound
        else
          match ← withTeamTenantRls req.teamId (req.event history.material.blob.content)
              fun _ ↦ restoreBody req entry.tenantId history with
          | .error thrown => return .error (.thrown thrown)
          | .ok found => if found then return .ok () else return .error .notFound

end Restore

section Rotate

/-- What `GET /api/teams/[teamId]/rotate-key/data` answers. -/
structure RotationData where
  teamKeyVersion : Nat
  entries : List TeamPasswordEntry
  members : List Uuid

/-- A rotation by a client, who reads the data, encrypts everything again and submits: `reencrypt` is
what the client makes of a row for the new version, `wrapKey` of the new key for a member. -/
structure RotationClient where
  teamId : Uuid
  reencrypt : Nat → TeamPasswordEntry → RotateEntry
  wrapKey : Uuid → MemberKeyData

variable (client : RotationClient)

def RotationClient.payload (data : RotationData) : RotateRequest where
  teamId := client.teamId
  newTeamKeyVersion := data.teamKeyVersion + 1
  entries := data.entries.map (client.reencrypt (data.teamKeyVersion + 1))
  memberKeys := data.members.map fun userId ↦ ⟨userId, client.wrapKey userId⟩

/-- The members of the answer: the distributed ones who have a key row and a public key. -/
def Store.rotationMembers (db : Store) (teamId : Uuid) (active : List Uuid) : List Uuid :=
  active.filter fun userId ↦
    db.memberKeys.any (fun key ↦ key.teamId = teamId && key.userId = userId) &&
      (db.ecdhPublicKeys userId).isSome

/-- A client's rotation: `GET /api/teams/[teamId]/rotate-key/data`, then the `POST`. -/
def rotateFromClient : Server (Except Refusal Unit) := do
  match ← readAsTeam client.teamId fun db ↦ db.teams client.teamId with
  | .error thrown => return .error (.thrown thrown)
  | .ok none => return .error .teamNotFound
  | .ok (some team) =>
    match ← readAsTeam client.teamId fun db ↦ db.entries.filter (·.teamId = client.teamId) with
    | .error thrown => return .error (.thrown thrown)
    | .ok entries =>
      let active ← .readOnly (Store.distributed · client.teamId)
      let members ← .readOnly (Store.rotationMembers · client.teamId active)
      rotateTeamKey (client.payload ⟨team.teamKeyVersion, entries, members⟩)

end Rotate

end PasswdSso.Team
