import Mathlib.Data.Finset.Card
import PasswdSso.Vault.Wrapping

/-!
# Rotating and resetting the vault

`POST /api/vault/rotate-key` and `applyVaultRotation` (`src/lib/vault/rotate-key-server.ts`). The
client submits the wrap of a new secret key together with every entry, history row and attachment
key of the vault, encrypted again. The transaction takes the user's advisory lock and the `users`
row, checks the submitted ids against the stored ones, and rewrites all of it or throws.

`executeVaultReset` (`src/lib/vault/vault-reset.ts`) deletes the data of the vault and clears the
vault columns of the `users` row. The blob objects outside of the database and the audit rows are
left out.
-/

namespace PasswdSso.Vault

open ReadCommitted

/-- An element of `entries` of a rotation. -/
structure EntryRotation where
  id : Uuid
  blob : Sealed
  overview : Sealed
  aadVersion : Nat

/-- An element of `historyEntries` of a rotation. -/
structure HistoryRotation where
  id : Uuid
  blob : Sealed
  aadVersion : Nat

/-- `AttachmentCekRewrap`. -/
structure CekRewrap where
  id : Uuid
  cekEncrypted : List UInt8
  cekIv : String
  cekAuthTag : String
  cekKeyVersion : Nat
  cekWrapAadVersion : Nat

/-- `POST /api/vault/rotate-key`. -/
structure RotateRequest where
  userId : Uuid
  currentAuthHash : String
  wrap : KeyMaterial
  accountSalt : String
  newAuthHash : String
  newVerifierHash : Option String
  verification : KeyMaterial
  entries : List EntryRotation
  historyEntries : List HistoryRotation
  ecdhPrivateKey : Sealed
  attachmentCekRewraps : List CekRewrap
  legacyAttachmentsMigratedThisCycle : Option Nat
  newServerSalt : String
  now : Millis

structure RotationEffects where
  recoveryKeyInvalidated : Bool
  emergencyGrantsCleared : Nat
  prfCredentialsCleared : Nat
  cekRewrapsAttempted : Nat
  cekRewrapsSucceeded : Nat
  cekRewrapsFailed : Nat
  legacyAttachmentsMigratedClientReported : Nat
  mode0Residual : Nat
  cekRewrappedAttachmentIds : List Uuid
  cekRewrappedAttachmentIdsOverflow : Bool

def currentCekWrapAadVersion : Nat := 1

def attachmentManifestCap : Nat := 1000

/-- The attachment belongs to a personal entry of the user: `passwordEntry: { userId }`. -/
def Store.ownsAttachment (db : Store) (userId : Uuid) (row : Attachment) : Bool :=
  row.passwordEntryId.any (db.ownsEntry userId)

/-- `passwordEntry: { userId, tenantId }`. -/
def Store.ownsAttachmentIn (db : Store) (userId tenantId : Uuid) (row : Attachment) : Bool :=
  row.passwordEntryId.any fun entryId ↦ db.entries.any fun entry ↦
    entry.id = entryId && entry.userId = userId && entry.tenantId = tenantId

def Attachment.cekMissing (row : Attachment) : Bool :=
  row.cekEncrypted.isNone || row.cekIv.isNone || row.cekAuthTag.isNone || row.cekKeyVersion.isNone ||
    row.cekWrapAadVersion.isNone

/-- The count checks on submitted ids: as many as are stored, none twice, and each of them stored. -/
def idsMatch (submitted stored : List Uuid) : Bool :=
  submitted.length = stored.length && submitted.toFinset.card = submitted.length &&
    submitted.toFinset.card = stored.toFinset.card && submitted.all (· ∈ stored)

theorem mem_of_idsMatch {submitted stored : List Uuid} (h : idsMatch submitted stored = true)
    {id : Uuid} (hid : id ∈ stored) : id ∈ submitted := by
  simp only [idsMatch, Bool.and_eq_true, decide_eq_true_eq, List.all_eq_true] at h
  obtain ⟨⟨⟨-, -⟩, hcard⟩, hsub⟩ := h
  have hsubset : submitted.toFinset ⊆ stored.toFinset := fun x hx ↦
    List.mem_toFinset.mpr (hsub x (List.mem_toFinset.mp hx))
  have heq : submitted.toFinset = stored.toFinset :=
    Finset.eq_of_subset_of_card_le hsubset hcard.ge
  exact List.mem_toFinset.mp (heq ▸ List.mem_toFinset.mpr hid)

/-- The values that the route hands to `applyVaultRotation` from its first read. -/
structure RotationSnapshot where
  tenantId : Uuid
  oldKeyVersion : Nat
  vaultSetupAt : Millis
  accountSalt : String
  newServerHash : String

section Apply

variable (env : Env) (req : RotateRequest) (snapshot : RotationSnapshot)

def RotationSnapshot.newKeyVersion : Nat := snapshot.oldKeyVersion + 1

/-- The compare-and-swap test on the `users` row. -/
def RotationSnapshot.matches (user : Option User) : Bool :=
  match user with
  | none => false
  | some user => user.vaultSetupAt = some snapshot.vaultSetupAt &&
      user.keyVersion = snapshot.oldKeyVersion && user.accountSalt = some snapshot.accountSalt

/-- `advisoryXactLock`, then the pre-write CAS under `FOR UPDATE`. -/
def lockUserForRotation : Server (Except Thrown Unit) := do
  Prog.lockingRead [(.advisory req.userId, .exclusive)] fun _ ↦ ()
  let user ← .lockingRead [(.user req.userId, .exclusive), (.userKey req.userId, .exclusive)]
    fun db : Store ↦ db.users req.userId
  if snapshot.matches user then return .ok () else return .error .rotationCasConflict

def Store.mode2Rows (db : Store) (userId : Uuid) : List (Uuid × Option Nat) :=
  (db.attachments.filter fun row ↦ db.ownsAttachment userId row && row.encryptionMode = 2).map
    fun row ↦ (row.id, row.cekKeyVersion)

def checkAttachments : Server (Except Thrown Unit) := do
  let mode0Residual ← .read fun db : Store ↦ db.attachments.countP fun row ↦
    db.ownsAttachment req.userId row && row.encryptionMode = 0
  if mode0Residual > 0 then
    return .error .legacyAttachmentsResidual
  else
    let mode2InvariantViolations ← .read fun db : Store ↦ db.attachments.countP fun row ↦
      db.ownsAttachment req.userId row && row.encryptionMode = 2 && row.cekMissing
    if mode2InvariantViolations > 0 then
      return .error .mode2InvariantViolation
    else
      let mode2Rows ← .read (Store.mode2Rows · req.userId)
      if req.attachmentCekRewraps.any fun rewrap ↦ rewrap.id ∉ mode2Rows.map Prod.fst then
        return .error .attachmentCekManifestMismatch
      else if req.attachmentCekRewraps.any fun rewrap ↦
          (mode2Rows.lookup rewrap.id).join ≠ some snapshot.oldKeyVersion then
        return .error .legacyAttachmentInconsistentVersion
      else return .ok ()

def Store.entryIds (db : Store) (userId : Uuid) : List Uuid :=
  (db.entries.filter (·.userId = userId)).map (·.id)

def Store.historyIds (db : Store) (userId : Uuid) : List Uuid :=
  (db.histories.filter fun row ↦ db.ownsEntry userId row.entryId).map (·.id)

def checkCounts : Server (Except Thrown Unit) := do
  let allEntries ← .read (Store.entryIds · req.userId)
  if idsMatch (req.entries.map EntryRotation.id) allEntries then
    let allHistory ← .read (Store.historyIds · req.userId)
    if idsMatch (req.historyEntries.map HistoryRotation.id) allHistory then return .ok ()
    else return .error .historyCountMismatch
  else return .error .entryCountMismatch

def EntryRotation.apply (entry : EntryRotation) (newKeyVersion : Nat) (row : PasswordEntry) :
    PasswordEntry :=
  { row with
    blob := entry.blob
    overview := entry.overview
    aadVersion := entry.aadVersion
    keyVersion := newKeyVersion }

def HistoryRotation.apply (history : HistoryRotation) (newKeyVersion : Nat) (row : EntryHistory) :
    EntryHistory :=
  { row with blob := history.blob, aadVersion := history.aadVersion, keyVersion := newKeyVersion }

def CekRewrap.apply (rewrap : CekRewrap) (newKeyVersion : Nat) (row : Attachment) : Attachment :=
  { row with
    cekEncrypted := some rewrap.cekEncrypted
    cekIv := some rewrap.cekIv
    cekAuthTag := some rewrap.cekAuthTag
    cekKeyVersion := some newKeyVersion
    cekWrapAadVersion := some rewrap.cekWrapAadVersion }

def rotateEntries (userId : Uuid) (newKeyVersion : Nat) : List EntryRotation → Server (Except Thrown Unit)
  | [] => return .ok ()
  | entry :: rest => do
    let count ← .updateMany entryTable .entry
      (fun row ↦ row.id = entry.id && row.userId = userId) (entry.apply newKeyVersion)
    if count ≠ 1 then return .error .entryCountMismatch
    else rotateEntries userId newKeyVersion rest

def rotateHistories (userId : Uuid) (newKeyVersion : Nat) : List HistoryRotation → Server (Except Thrown Unit)
  | [] => return .ok ()
  | history :: rest => do
    let count ← .updateWhere historyTable .history
      (fun db row ↦ row.id = history.id && db.ownsEntry userId row.entryId)
      (history.apply newKeyVersion)
    if count ≠ 1 then return .error .historyCountMismatch
    else rotateHistories userId newKeyVersion rest

def rewrapCeks (userId tenantId : Uuid) (newKeyVersion : Nat) : List CekRewrap → Server (Except Thrown Unit)
  | [] => return .ok ()
  | rewrap :: rest => do
    if rewrap.cekWrapAadVersion ≠ currentCekWrapAadVersion then
      return .error .attachmentCekWrapAadVersionMismatch
    else
      let count ← .updateWhere attachmentTable .attachment
        (fun db row ↦ row.id = rewrap.id && db.ownsAttachmentIn userId tenantId row &&
          row.encryptionMode = 2) (rewrap.apply newKeyVersion)
      if count ≠ 1 then return .error .attachmentCekManifestMismatch
      else rewrapCeks userId tenantId newKeyVersion rest

/-- The user row after a rotation. -/
def RotateRequest.user (verifierHmac : Option String) (user : User) : User :=
  { user with
    passphraseWrap := some req.wrap
    accountSalt := some req.accountSalt
    masterPasswordServerHash := some snapshot.newServerHash
    masterPasswordServerSalt := some req.newServerSalt
    keyVersion := snapshot.newKeyVersion
    passphraseVerifierHmac := verifierHmac <|> user.passphraseVerifierHmac
    passphraseVerifierVersion :=
      if verifierHmac.isSome then verifierVersion else user.passphraseVerifierVersion
    ecdhPrivateKey := some req.ecdhPrivateKey
    recoveryWrap := none
    recoveryHkdfSalt := none
    recoveryVerifierHmac := none
    recoveryVerifierVersion := 1
    recoveryKeySetAt := none
    recoveryKeyInvalidatedAt := some req.now }

/-- The vault key that a rotation creates. -/
def RotateRequest.key : VaultKey :=
  ⟨req.userId, snapshot.tenantId, snapshot.newKeyVersion, req.verification⟩

/-- The verifier that a rotation stores: none when the payload has none; `none` outside is the
throw of `hmacVerifier`. -/
def RotateRequest.verifierHmac : Option (Option String) :=
  match req.newVerifierHash with
  | none => some none
  | some hash => if hash = "" then some none else (hmacVerifier env hash verifierVersion).map some

/-- Update the user's vault wrapping and create the vault key; a version that is taken is a
rotation conflict. -/
def rotateUser : Server (Except Thrown Bool) := do
  let recoveryWasSet ← .read fun db : Store ↦ (db.users req.userId).bind User.recoveryWrap
  match req.verifierHmac env with
  | none => return .error .verifierPepper
  | some verifierHmac =>
    Prog.andThen (updateUser req.userId (req.user snapshot verifierHmac)) fun _ ↦ do
      match ← createVaultKey (req.key snapshot) with
      | .error _ => return .error .rotationCasConflict
      | .ok _ => return .ok (recoveryWasSet.any (·.data.ciphertext ≠ ""))

/-- `SET prf_encrypted_secret_key = null, …`. -/
def WebAuthnCredential.clearPrf (row : WebAuthnCredential) : WebAuthnCredential :=
  { row with prfWrap := none }

/-- `bulkTransition` of the grants that `sel` selects. -/
def bulkTransition (sel : EmergencyGrant → Bool) (target : EaStatus) (actor : EaActor)
    (extraData : EmergencyGrant → EmergencyGrant) : Server Nat :=
  Prog.updateMany grantTable .grant (fun row ↦ sel row && actor ∈ eaMatrix row.status target)
    fun row ↦ { extraData row with status := target }

def markGrantsStaleForOwner (ownerId : Uuid) (newKeyVersion : Nat) : Server Nat :=
  bulkTransition (fun row ↦ row.ownerId = ownerId && row.keyVersion.all (· < newKeyVersion)) .stale .system
    fun row ↦ { row with ownerEphemeralPublicKey := none }

def finishRotation (recoveryKeyInvalidated : Bool) : Server (Except Thrown RotationEffects) := do
  let prfCleared ← .updateMany credentialTable .credential
    (fun row ↦ row.userId = req.userId && row.prfWrap.isSome) .clearPrf
  let grantsCleared ← markGrantsStaleForOwner req.userId snapshot.newKeyVersion
  let staleMode2Count ← .read fun db : Store ↦ db.attachments.countP fun row ↦
    db.ownsAttachment req.userId row && row.encryptionMode = 2 && row.cekKeyVersion.any (· ≠ snapshot.newKeyVersion)
  if staleMode2Count > 0 then
    return .error .rotationPostCondition
  else
    return .ok
      { recoveryKeyInvalidated := recoveryKeyInvalidated
        emergencyGrantsCleared := grantsCleared
        prfCredentialsCleared := prfCleared
        cekRewrapsAttempted := req.attachmentCekRewraps.length
        cekRewrapsSucceeded := req.attachmentCekRewraps.length
        cekRewrapsFailed := 0
        legacyAttachmentsMigratedClientReported := req.legacyAttachmentsMigratedThisCycle.getD 0
        mode0Residual := 0
        cekRewrappedAttachmentIds :=
          (req.attachmentCekRewraps.take attachmentManifestCap).map CekRewrap.id
        cekRewrappedAttachmentIdsOverflow :=
          req.attachmentCekRewraps.length > attachmentManifestCap }

/-- `applyVaultRotation`, after the advisory lock. -/
def applyVaultRotation : Server (Except Thrown RotationEffects) :=
  Prog.andThen (lockUserForRotation req snapshot) fun _ ↦
  Prog.andThen (checkAttachments req snapshot) fun _ ↦
  Prog.andThen (checkCounts req) fun _ ↦
  Prog.andThen (rotateEntries req.userId snapshot.newKeyVersion req.entries) fun _ ↦
  Prog.andThen (rotateHistories req.userId snapshot.newKeyVersion req.historyEntries) fun _ ↦
  Prog.andThen (rewrapCeks req.userId snapshot.tenantId snapshot.newKeyVersion req.attachmentCekRewraps) fun _ ↦
  Prog.andThen (rotateUser env req snapshot) fun recoveryKeyInvalidated ↦
  finishRotation req snapshot recoveryKeyInvalidated

end Apply

section Route

variable (env : Env) (req : RotateRequest)

def RotateRequest.snapshot (user : Option User) : Except Refusal RotationSnapshot :=
  match user with
  | none => .error .vaultNotSetup
  | some user =>
    match user.vaultSetupAt, user.masterPasswordServerHash, user.masterPasswordServerSalt, user.accountSalt with
    | some vaultSetupAt, some serverHash, some serverSalt, some accountSalt =>
      if serverHash = "" || serverSalt = "" || accountSalt = "" then .error .vaultNotSetup
      else if env.sha256 (req.currentAuthHash ++ serverSalt) ≠ serverHash then
        .error .invalidPassphrase
      else .ok
        { tenantId := user.tenantId
          oldKeyVersion := user.keyVersion
          vaultSetupAt := vaultSetupAt
          accountSalt := accountSalt
          newServerHash := env.sha256 (req.newAuthHash ++ req.newServerSalt) }
    | _, _, _, _ => .error .vaultNotSetup

def rotationRefusal : Thrown → Refusal
  | .legacyAttachmentsResidual => .attachmentMigrationIncomplete
  | .attachmentCekManifestMismatch => .attachmentKeyManifestMismatch
  | .legacyAttachmentInconsistentVersion => .attachmentInconsistentVersion
  | .attachmentCekWrapAadVersionMismatch => .attachmentInconsistentVersion
  | .mode2InvariantViolation => .internalError
  | .rotationPostCondition => .internalError
  | .rotationCasConflict => .keyVersionMismatch
  | .entryCountMismatch => .entryCountMismatch
  | .historyCountMismatch => .entryCountMismatch
  | thrown => .thrown thrown

/-- `POST /api/vault/rotate-key`. -/
def rotateKey : Server (Except Refusal RotationEffects) := do
  match ← readAsUser req.userId fun db ↦ db.users req.userId with
  | .error thrown => return .error (.thrown thrown)
  | .ok user =>
    match req.snapshot env user with
    | .error refusal => return .error refusal
    | .ok snapshot =>
      return (← withUserTenantRls req.userId (fun _ ↦ .rotated (req.key snapshot) req.wrap)
          fun _ ↦ applyVaultRotation env req snapshot).mapError rotationRefusal

end Route

def User.wiped (user : User) : User :=
  { user with
    vaultSetupAt := none
    accountSalt := none
    passphraseWrap := none
    masterPasswordServerHash := none
    masterPasswordServerSalt := none
    keyVersion := 0
    passphraseVerifierHmac := none
    passphraseVerifierVersion := verifierVersion
    recoveryWrap := none
    recoveryHkdfSalt := none
    recoveryVerifierHmac := none
    recoveryVerifierVersion := verifierVersion
    recoveryKeySetAt := none
    failedUnlockAttempts := 0
    lastFailedUnlockAt := none
    accountLockedUntil := none
    ecdhPublicKey := none
    ecdhPrivateKey := none }

/-- `ON DELETE CASCADE`: the history rows and attachments of entries that are gone. -/
def Store.cascade (db : Store) : Store :=
  { db with
    histories := db.histories.filter fun row ↦ db.entries.any (·.id = row.entryId)
    attachments := db.attachments.filter fun row ↦ row.passwordEntryId.all fun entryId ↦
      db.entries.any (·.id = entryId) }

/-- What `executeVaultReset` counts for the audit record. -/
def Store.resetCounts (db : Store) (targetUserId : Uuid) : Nat × Nat :=
  (db.entries.countP (·.userId = targetUserId), db.attachments.countP (·.createdById = targetUserId))

/-- The deletions of `executeVaultReset`, in their order. -/
def deleteVaultData (targetUserId : Uuid) (now : Millis) : Server Unit := do
  let _ ← .deleteMany attachmentTable .attachment (·.createdById = targetUserId)
  let _ ← .deleteMany shareTable .share (·.userId = targetUserId)
  let _ ← .deleteMany entryTable .entry (·.userId = targetUserId)
  Prog.write [] Store.cascade fun _ ↦ ()
  let _ ← .deleteMany vaultKeyTable .vaultKey (·.userId = targetUserId)
  let _ ← .deleteMany tagTable .tag (·.userId = targetUserId)
  let _ ← .deleteMany folderTable .folder (·.userId = targetUserId)
  let _ ← bulkTransition (·.ownerId = targetUserId) .revoked .owner fun row ↦ { row with revokedAt := some now }
  let _ ← .deleteMany teamMemberKeyTable .teamMemberKey (·.userId = targetUserId)
  let _ ← .updateMany teamMemberTable .teamMember (·.userId = targetUserId)
    fun row ↦ { row with keyDistributed := false }

/-- The transaction of `executeVaultReset`, with the `users` row locked first. -/
def resetBody (targetUserId : Uuid) (now : Millis) : Server (Except Thrown Unit) := do
  Prog.lockingRead [(.user targetUserId, .exclusive), (.userKey targetUserId, .exclusive)] fun _ ↦ ()
  deleteVaultData targetUserId now
  updateUser targetUserId User.wiped

def executeVaultReset (targetUserId : Uuid) (now : Millis) : Server (Except Refusal (Nat × Nat)) := do
  let counts ← .readOnly (Store.resetCounts · targetUserId)
  match ← .transaction (fun _ ↦ .reset targetUserId) (resetBody targetUserId now) with
  | .error thrown => return .error (.thrown thrown)
  | .ok _ => return .ok counts

end PasswdSso.Vault
