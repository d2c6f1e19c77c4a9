import Mathlib.Data.List.Dedup
import Mathlib.Data.List.Sort
import PasswdSso.ReadCommitted.Snapshot
import PasswdSso.Vault.Rotation

/-!
# Writing entries and attachments

`createPersonalPasswordEntry`, `PUT /api/passwords/[id]`, the restore of a history version, and the
upload and the legacy migration of attachments. Writes of a blob are guarded by
`assertCurrentKeyVersion`, which holds the `users` row `FOR SHARE` to the end of the transaction;
writes of an attachment key are serialized with rotations by the user's advisory lock.
-/

namespace PasswdSso.Vault

open ReadCommitted

def assertCurrentKeyVersion (userId : Uuid) (keyVersion : Nat) : Server (Except Thrown Unit) := do
  match ← .lockingRead [(.user userId, .share)] fun db : Store ↦ db.users userId with
  | none => return .error (.keyVersionMismatch none keyVersion)
  | some user =>
    if user.keyVersion ≠ keyVersion then
      return .error (.keyVersionMismatch (some user.keyVersion) keyVersion)
    else return .ok ()

def Store.ownsFolder (db : Store) (userId : Uuid) (folderId : Option Uuid) : Bool :=
  folderId.all fun id ↦ db.folders.any fun folder ↦ folder.id = id && folder.userId = userId

def Store.ownsTags (db : Store) (userId : Uuid) (tagIds : List Uuid) : Bool :=
  (db.tags.filter fun tag ↦ tag.id ∈ tagIds && tag.userId = userId).length = tagIds.dedup.length

def guardRefusal : Thrown → Refusal
  | .keyVersionMismatch _ _ => .keyVersionMismatch
  | thrown => .thrown thrown

section Create

/-- The input of `createPersonalPasswordEntry`; `id` is the client's, or the one the database
draws. -/
structure CreateEntryRequest where
  userId : Uuid
  id : Uuid
  blob : Sealed
  overview : Sealed
  keyVersion : Nat
  aadVersion : Nat
  tagIds : List Uuid
  folderId : Option Uuid
  isFavorite : Option Bool
  entryType : String
  requireReprompt : Option Bool
  expiresAt : Option Millis

/-- `CreatePersonalPasswordResult`. -/
inductive CreateResult
  | created
  | folderNotFound
  | tagsNotOwned
  deriving DecidableEq

variable (req : CreateEntryRequest)

/-- The row that is created. -/
def CreateEntryRequest.entry (tenantId : Uuid) : PasswordEntry where
  id := req.id
  userId := req.userId
  tenantId := tenantId
  blob := req.blob
  overview := req.overview
  keyVersion := req.keyVersion
  aadVersion := req.aadVersion
  metadata :=
    { entryType := req.entryType
      folderId := req.folderId
      tagIds := req.tagIds.dedup
      isFavorite := req.isFavorite.getD false
      isArchived := false
      requireReprompt := req.requireReprompt.getD false
      expiresAt := req.expiresAt }

def insertEntry (row : PasswordEntry) : Server (Except Thrown CreateResult) := do
  if ← .insert [.entry row.id] (fun db : Store ↦ db.entries.any (·.id = row.id)) (entryTable.append [row]) then
    return .error .uniqueViolation
  return .ok .created

/-- The ownership checks of `createPersonalPasswordEntry`: the queries are made only for what is
given. -/
def checkOwnership : Server CreateResult := do
  let folderOwned ← match req.folderId with
    | none => pure true
    | some folderId => .read (Store.ownsFolder · req.userId (some folderId))
  if folderOwned = false then
    return .folderNotFound
  else
    let tagsOwned ← match req.tagIds with
      | [] => pure true
      | tagIds => .read (Store.ownsTags · req.userId tagIds)
    if tagsOwned = false then return .tagsNotOwned else return .created

def createPersonalPasswordEntry (tenantId : Uuid) : Server (Except Thrown CreateResult) :=
  Prog.andThen (assertCurrentKeyVersion req.userId req.keyVersion) fun _ ↦ do
    match ← checkOwnership req with
    | .created => insertEntry (req.entry tenantId)
    | refused => return .ok refused

/-- The event of a creation. -/
def CreateEntryRequest.event : CreateResult → Event
  | .created => .wrote req.userId req.keyVersion
  | _ => .other

def CreateResult.response : CreateResult → Except Refusal Unit
  | .created => .ok ()
  | .folderNotFound => .error (.validationError (some "Invalid folderId"))
  | .tagsNotOwned => .error (.validationError (some "Invalid tagIds"))

/-- `POST /api/passwords`. -/
def createEntry : Server (Except Refusal Unit) := do
  match ← withUserTenantRls req.userId req.event (createPersonalPasswordEntry req) with
  | .error thrown => return .error (guardRefusal thrown)
  | .ok result => return result.response

end Create

def PasswordEntry.history (entry : PasswordEntry) (id tenantId : Uuid) (changedAt : Millis) : EntryHistory where
  id := id
  entryId := entry.id
  tenantId := tenantId
  blob := entry.blob
  keyVersion := entry.keyVersion
  aadVersion := entry.aadVersion
  changedAt := changedAt

def Store.historyOf (db : Store) (entryId : Uuid) : List Uuid :=
  ((db.histories.filter (·.entryId = entryId)).insertionSort fun a b ↦
    a.changedAt < b.changedAt ∨ (a.changedAt = b.changedAt ∧ a.id ≤ b.id)).map (·.id)

def trimHistory (entryId : Uuid) : Server Unit :=
  .trim historyTable .history 20 (·.entryId = entryId) (Store.historyOf · entryId)

/-- Lock the entry and move its current blob into the history; the answer is whether the entry is
still there. -/
def snapshotEntry (entryId tenantId historyId : Uuid) (changedAt : Millis) : Server (Except Thrown Bool) :=
  .snapshot (.entry entryId) (fun db : Store ↦ db.entries.find? (·.id = entryId)) historyTable .history
    (·.history historyId tenantId changedAt) .uniqueViolation (trimHistory entryId)

/-- `passwordEntry.update` of an entry of the user, which throws when there is none. -/
def updateOwnedEntry (userId entryId : Uuid) (f : PasswordEntry → PasswordEntry) : Server (Except Thrown Bool) := do
  let count ← .updateMany entryTable .entry (fun row ↦ row.id = entryId && row.userId = userId) f
  if count = 0 then return .error .recordNotFound else return .ok true

/-- A guarded write of a blob: guard, snapshot, update. The answer is whether the entry was still
there. -/
def rewriteEntry (userId entryId tenantId : Uuid) (keyVersion : Nat) (historyId : Uuid)
    (changedAt : Millis) (f : PasswordEntry → PasswordEntry) : Server (Except Thrown Bool) :=
  Prog.andThen (assertCurrentKeyVersion userId keyVersion) fun _ ↦
  Prog.andThen (snapshotEntry entryId tenantId historyId changedAt) fun found ↦
    if found then updateOwnedEntry userId entryId f else return .ok false

def rewriteEvent (userId : Uuid) (keyVersion : Nat) (found : Bool) : Event :=
  if found then .wrote userId keyVersion else .other

section Update

/-- `PUT /api/passwords/[id]`; the schema does not accept an overview without a blob. -/
structure UpdateEntryRequest where
  userId : Uuid
  id : Uuid
  encryptedBlob : Option Sealed
  encryptedOverview : Option Sealed
  overviewNeedsBlob : encryptedOverview.isSome → encryptedBlob.isSome
  keyVersion : Option Nat
  aadVersion : Option Nat
  tagIds : Option (List Uuid)
  folderId : Option (Option Uuid)
  isFavorite : Option Bool
  isArchived : Option Bool
  entryType : Option String
  requireReprompt : Option Bool
  expiresAt : Option (Option Millis)
  historyId : Uuid
  changedAt : Millis

variable (req : UpdateEntryRequest)

/-- `updateData`: the versions change only together with the blob. -/
def UpdateEntryRequest.apply (row : PasswordEntry) : PasswordEntry :=
  { row with
    blob := req.encryptedBlob.getD row.blob
    overview := req.encryptedOverview.getD row.overview
    keyVersion := if req.encryptedBlob.isSome then req.keyVersion.getD row.keyVersion
      else row.keyVersion
    aadVersion := if req.encryptedBlob.isSome then req.aadVersion.getD row.aadVersion
      else row.aadVersion
    metadata :=
      { entryType := req.entryType.getD row.metadata.entryType
        folderId := req.folderId.getD row.metadata.folderId
        tagIds := (req.tagIds.map List.dedup).getD row.metadata.tagIds
        isFavorite := req.isFavorite.getD row.metadata.isFavorite
        isArchived := req.isArchived.getD row.metadata.isArchived
        requireReprompt := req.requireReprompt.getD row.metadata.requireReprompt
        expiresAt := req.expiresAt.getD row.metadata.expiresAt } }

def UpdateEntryRequest.checkOwnership : Server (Except Refusal Unit) := do
  match ← match req.folderId.join with
    | none => pure (.ok true)
    | some folderId => readAsUser req.userId (Store.ownsFolder · req.userId (some folderId)) with
  | .error thrown => return .error (.thrown thrown)
  | .ok false => return .error (.validationError (some "Invalid folderId"))
  | .ok true =>
    match ← match req.tagIds.getD [] with
      | [] => pure (.ok true)
      | tagIds => readAsUser req.userId (Store.ownsTags · req.userId tagIds) with
    | .error thrown => return .error (.thrown thrown)
    | .ok false => return .error (.validationError (some "Invalid tagIds"))
    | .ok true => return .ok ()

/-- The versions may not change without a blob, and a blob comes with its key version. -/
def UpdateEntryRequest.versionsMisused (existing : PasswordEntry) : Bool :=
  ((req.keyVersion.any (· ≠ existing.keyVersion) || req.aadVersion.any (· ≠ existing.aadVersion)) &&
    req.encryptedBlob.isNone) || (req.encryptedBlob.isSome && req.keyVersion.isNone)

/-- The write of `PUT /api/passwords/[id]`: guarded when the blob changes. -/
def UpdateEntryRequest.write (existing : PasswordEntry) : Server (Except Thrown Bool) :=
  match req.encryptedBlob, req.keyVersion with
  | some _, some keyVersion =>
    withUserTenantRls req.userId (rewriteEvent req.userId keyVersion) fun _ ↦
      rewriteEntry req.userId req.id existing.tenantId keyVersion req.historyId req.changedAt req.apply
  | _, _ => withUserTenantRls req.userId (fun _ ↦ .other) fun _ ↦
      updateOwnedEntry req.userId req.id req.apply

/-- `PUT /api/passwords/[id]`. -/
def updateEntry : Server (Except Refusal Unit) := do
  match ← readAsUser req.userId fun db ↦ db.entries.find? (·.id = req.id) with
  | .error thrown => return .error (.thrown thrown)
  | .ok none => return .error .notFound
  | .ok (some existing) =>
    if existing.userId ≠ req.userId then
      return .error .notFound
    else
      match ← req.checkOwnership with
      | .error refusal => return .error refusal
      | .ok _ =>
        if req.versionsMisused existing then
          return .error .keyVersionWithoutReencrypt
        else
          match ← req.write existing with
          | .error thrown => return .error (guardRefusal thrown)
          | .ok found => if found then return .ok () else return .error .notFound

end Update

/-- `POST /api/passwords/[id]/history/[historyId]/restore`. -/
structure RestoreRequest where
  userId : Uuid
  id : Uuid
  historyId : Uuid
  newHistoryId : Uuid
  changedAt : Millis

def EntryHistory.restore (history : EntryHistory) (row : PasswordEntry) : PasswordEntry :=
  { row with
    blob := history.blob
    keyVersion := history.keyVersion
    aadVersion := history.aadVersion }

/-- `POST /api/passwords/[id]/history/[historyId]/restore`. -/
def restoreHistory (req : RestoreRequest) : Server (Except Refusal Unit) := do
  match ← readAsUser req.userId fun db ↦ db.entries.find? (·.id = req.id) with
  | .error thrown => return .error (.thrown thrown)
  | .ok none => return .error .notFound
  | .ok (some entry) =>
    if entry.userId ≠ req.userId then
      return .error .notFound
    else
      match ← readAsUser req.userId fun db ↦ db.histories.find? (·.id = req.historyId) with
      | .error thrown => return .error (.thrown thrown)
      | .ok none => return .error .historyNotFound
      | .ok (some history) =>
        if history.entryId ≠ req.id then
          return .error .historyNotFound
        else
          match ← withUserTenantRls req.userId (rewriteEvent req.userId history.keyVersion)
              fun _ ↦ rewriteEntry req.userId req.id entry.tenantId history.keyVersion
                req.newHistoryId req.changedAt history.restore with
          | .error thrown => return .error (guardRefusal thrown)
          | .ok found => if found then return .ok () else return .error .notFound

section Upload

/-- `POST /api/passwords/[id]/attachments`, with a form that passed the checks of its fields;
`storedBlob` is what the blob store answers. -/
structure UploadRequest where
  userId : Uuid
  entryId : Uuid
  quotaAvailable : Bool
  attachmentId : Uuid
  filename : String
  contentType : String
  sizeBytes : Nat
  storedBlob : List UInt8
  iv : String
  authTag : String
  aadVersion : Nat
  cekEncrypted : List UInt8
  cekIv : String
  cekAuthTag : String
  cekKeyVersion : Nat
  cekWrapAadVersion : Nat

def maxAttachmentsPerEntry : Nat := 20

variable (req : UploadRequest)

/-- The row that an upload creates. -/
def UploadRequest.attachment (tenantId : Uuid) : Attachment where
  id := req.attachmentId
  passwordEntryId := some req.entryId
  teamPasswordEntryId := none
  tenantId := tenantId
  createdById := req.userId
  filename := req.filename
  contentType := req.contentType
  sizeBytes := req.sizeBytes
  encryptedData := req.storedBlob
  iv := req.iv
  authTag := req.authTag
  keyVersion := none
  aadVersion := req.aadVersion
  encryptionMode := 2
  cekEncrypted := some req.cekEncrypted
  cekIv := some req.cekIv
  cekAuthTag := some req.cekAuthTag
  cekKeyVersion := some req.cekKeyVersion
  cekWrapAadVersion := some req.cekWrapAadVersion

/-- `attachment.create`; the foreign keys are checked, the one to the user under `FOR KEY SHARE`. -/
def insertAttachment (row : Attachment) : Server (Except Thrown Unit) := do
  if ← .lockingRead [(.userKey row.createdById, .share)]
      fun db : Store ↦ row.passwordEntryId.all fun id ↦ db.entries.any (·.id = id) then
    if ← .insert [.attachment row.id] (fun db : Store ↦ db.attachments.any (·.id = row.id))
        (attachmentTable.append [row]) then
      return .error .uniqueViolation
    return .ok ()
  return .error .foreignKeyViolation

def assertCekKeyVersion (userId : Uuid) (cekKeyVersion : Nat) : Server (Except Thrown Unit) := do
  match ← .read fun db : Store ↦ db.users userId with
  | none => return .error .userNotFound
  | some user =>
    if cekKeyVersion ≠ user.keyVersion then return .error .legacyAttachmentInconsistentVersion
    else return .ok ()

def uploadBody (tenantId : Uuid) : Server (Except Thrown Unit) := do
  Prog.lockingRead [(.advisory req.userId, .exclusive)] fun _ ↦ ()
  let count ← .read fun db : Store ↦
    db.attachments.countP (·.passwordEntryId = some req.entryId)
  if count ≥ maxAttachmentsPerEntry then
    return .error .attachmentLimit
  else
    Prog.andThen (assertCekKeyVersion req.userId req.cekKeyVersion) fun _ ↦
      insertAttachment (req.attachment tenantId)

def uploadRefusal : Thrown → Refusal
  | .attachmentLimit => .attachmentLimitExceeded
  | .legacyAttachmentInconsistentVersion => .attachmentInconsistentVersion
  | .userNotFound => .notFound
  | thrown => .thrown thrown

/-- `POST /api/passwords/[id]/attachments`. -/
def uploadAttachment : Server (Except Refusal Unit) := do
  match ← readAsUser req.userId fun db ↦ db.entries.find? (·.id = req.entryId) with
  | .error thrown => return .error (.thrown thrown)
  | .ok none => return .error .notFound
  | .ok (some entry) =>
    if entry.userId ≠ req.userId then
      return .error .notFound
    else if req.quotaAvailable = false then
      return .error .quotaExceeded
    else if req.cekKeyVersion < 1 || req.cekWrapAadVersion ≠ currentCekWrapAadVersion then
      return .error (.validationError none)
    else
      return (← withUserTenantRls req.userId (fun _ ↦ .attached req.userId req.cekKeyVersion)
          fun _ ↦ uploadBody req entry.tenantId).mapError uploadRefusal

end Upload

section Migrate

/-- `PUT /api/passwords/[id]/attachments/[attachmentId]/migrate`. -/
structure MigrateRequest where
  userId : Uuid
  attachmentId : Uuid
  oldEncryptedDataHash : String
  encryptedData : List UInt8
  iv : String
  authTag : String
  cekEncrypted : List UInt8
  cekIv : String
  cekAuthTag : String
  cekKeyVersion : Nat
  cekWrapAadVersion : Nat

variable (env : Env) (req : MigrateRequest)

def MigrateRequest.apply (row : Attachment) : Attachment :=
  { row with
    encryptedData := req.encryptedData
    iv := req.iv
    authTag := req.authTag
    cekEncrypted := some req.cekEncrypted
    cekIv := some req.cekIv
    cekAuthTag := some req.cekAuthTag
    cekKeyVersion := some req.cekKeyVersion
    cekWrapAadVersion := some req.cekWrapAadVersion
    encryptionMode := 2 }

def MigrateRequest.selects (tenantId : Uuid) (db : Store) (row : Attachment) : Bool :=
  row.id = req.attachmentId && db.ownsAttachmentIn req.userId tenantId row && row.teamPasswordEntryId.isNone

def applyAttachmentMigration (tenantId : Uuid) : Server (Except Thrown Unit) := do
  match ← .read fun db : Store ↦ db.attachments.find? (req.selects tenantId db) with
  | none => return .error .notFound
  | some row =>
    if row.encryptionMode ≠ 0 then
      return .error .legacyMigrationNotApplicable
    else if env.sha256Bytes row.encryptedData ≠ req.oldEncryptedDataHash then
      return .error .legacyBodyHashMismatch
    else
      let count ← .updateWhere attachmentTable .attachment
        (fun db row ↦ req.selects tenantId db row && row.encryptionMode = 0) req.apply
      if count ≠ 1 then return .error .notFound else return .ok ()

def migrateBody : Server (Except Thrown Unit) := do
  Prog.lockingRead [(.advisory req.userId, .exclusive)] fun _ ↦ ()
  match ← .read fun db : Store ↦ db.users req.userId with
  | none => return .error .userNotFound
  | some user =>
    if req.cekKeyVersion ≠ user.keyVersion then
      return .error .legacyAttachmentInconsistentVersion
    else applyAttachmentMigration env req user.tenantId

def migrateRefusal : Thrown → Refusal
  | .legacyAttachmentInconsistentVersion => .attachmentInconsistentVersion
  | .legacyMigrationNotApplicable => .legacyMigrationNotApplicable
  | .legacyBodyHashMismatch => .legacyIntegrityMismatch
  | .notFound => .notFound
  | .userNotFound => .notFound
  | thrown => .thrown thrown

/-- `PUT /api/passwords/[id]/attachments/[attachmentId]/migrate`. -/
def migrateAttachment : Server (Except Refusal Unit) := do
  if req.cekKeyVersion < 1 || req.cekWrapAadVersion ≠ currentCekWrapAadVersion then
    return .error (.validationError none)
  else
    return (← withUserTenantRls req.userId (fun _ ↦ .attached req.userId req.cekKeyVersion)
        fun _ ↦ migrateBody env req).mapError migrateRefusal

end Migrate

end PasswdSso.Vault
