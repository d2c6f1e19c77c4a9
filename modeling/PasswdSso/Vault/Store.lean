import PasswdSso.Common
import PasswdSso.ReadCommitted.Statement

/-!
# The personal vault tables

The columns of `users`, `vault_keys`, `webauthn_credentials`, `password_entries`,
`password_entry_histories`, `attachments` and `emergency_access_grants` that the vault operations
read or write, and the tables that a vault reset empties. Row-level security restricts every
transaction of a user to the user's tenant; the rows of a user are in that tenant, so that it hides
none of them, and it is left out here.

The server cannot look into what the clients encrypt. To say what a wrapped secret key unwraps to,
key material carries the secret key it stands for beside the stored columns.
-/

namespace PasswdSso.Vault

open ReadCommitted

abbrev SecretKey := Nat

structure Sealed where
  ciphertext : String
  iv : String
  authTag : String
  deriving DecidableEq

/-- A ciphertext that stands for a secret key: a wrap unwraps to it, and a verification artifact
decrypts under it. -/
structure KeyMaterial where
  data : Sealed
  secretKey : SecretKey
  deriving DecidableEq

/-- The KDF columns of a `users` row. -/
structure Kdf where
  kdfType : Nat
  kdfIterations : Nat
  kdfMemory : Option Nat
  kdfParallelism : Option Nat

/-- The vault columns of a `users` row with their defaults. The three columns of a wrapped key are always written
together; `passphraseWrap` is `encryptedSecretKey`, `secretKeyIv` and `secretKeyAuthTag`. -/
structure User where
  tenantId : Uuid
  vaultSetupAt : Option Millis := none
  accountSalt : Option String := none
  passphraseWrap : Option KeyMaterial := none
  masterPasswordServerHash : Option String := none
  masterPasswordServerSalt : Option String := none
  keyVersion : Nat := 0
  kdf : Kdf := ⟨0, 600000, none, none⟩
  passphraseVerifierHmac : Option String := none
  passphraseVerifierVersion : Nat := 1
  recoveryWrap : Option KeyMaterial := none
  recoveryHkdfSalt : Option String := none
  recoveryVerifierHmac : Option String := none
  recoveryVerifierVersion : Nat := 1
  recoveryKeySetAt : Option Millis := none
  recoveryKeyInvalidatedAt : Option Millis := none
  failedUnlockAttempts : Nat := 0
  lastFailedUnlockAt : Option Millis := none
  accountLockedUntil : Option Millis := none
  ecdhPublicKey : Option String := none
  ecdhPrivateKey : Option Sealed := none

structure VaultKey where
  userId : Uuid
  tenantId : Uuid
  version : Nat
  verification : KeyMaterial
  deriving DecidableEq

/-- A `webauthn_credentials` row. -/
structure WebAuthnCredential where
  id : Uuid
  userId : Uuid
  tenantId : Uuid
  credentialId : String
  publicKey : String
  counter : Nat
  lastUsedAt : Option Millis
  lastUsedDevice : Option String
  prfWrap : Option KeyMaterial
  prfSupported : Bool
  prfSalt : Option String
  deriving DecidableEq

/-- The columns of a `password_entries` row that are not encrypted. -/
structure EntryMetadata where
  entryType : String
  folderId : Option Uuid
  tagIds : List Uuid
  isFavorite : Bool
  isArchived : Bool
  requireReprompt : Bool
  expiresAt : Option Millis

structure PasswordEntry where
  id : Uuid
  userId : Uuid
  tenantId : Uuid
  blob : Sealed
  overview : Sealed
  keyVersion : Nat
  aadVersion : Nat
  metadata : EntryMetadata

/-- A `password_entry_histories` row. -/
structure EntryHistory where
  id : Uuid
  entryId : Uuid
  tenantId : Uuid
  blob : Sealed
  keyVersion : Nat
  aadVersion : Nat
  changedAt : Millis

structure Attachment where
  id : Uuid
  passwordEntryId : Option Uuid
  teamPasswordEntryId : Option Uuid
  tenantId : Uuid
  createdById : Uuid
  filename : String
  contentType : String
  sizeBytes : Nat
  encryptedData : List UInt8
  iv : String
  authTag : String
  keyVersion : Option Nat
  aadVersion : Nat
  encryptionMode : Nat
  cekEncrypted : Option (List UInt8)
  cekIv : Option String
  cekAuthTag : Option String
  cekKeyVersion : Option Nat
  cekWrapAadVersion : Option Nat

/-- `EmergencyAccessStatus`. -/
inductive EaStatus
  | pending
  | accepted
  | idle
  | stale
  | requested
  | activated
  | revoked
  | rejected
  deriving DecidableEq

inductive EaActor
  | owner
  | grantee
  | system
  deriving DecidableEq

/-- `MATRIX`: who may make the transition. -/
def eaMatrix : EaStatus → EaStatus → List EaActor
  | .pending, .accepted => [.grantee]
  | .pending, .rejected => [.grantee]
  | .pending, .revoked => [.owner]
  | .accepted, .idle => [.owner]
  | .accepted, .revoked => [.owner]
  | .idle, .requested => [.grantee]
  | .idle, .stale => [.system]
  | .idle, .revoked => [.owner]
  | .stale, .idle => [.owner]
  | .stale, .revoked => [.owner]
  | .requested, .activated => [.owner, .system]
  | .requested, .idle => [.owner]
  | .requested, .stale => [.system]
  | .requested, .revoked => [.owner]
  | .activated, .stale => [.system]
  | .activated, .revoked => [.owner]
  | _, _ => []

/-- An `emergency_access_grants` row. The three columns of the wrapped key are always written
together; `encryptedSecretKey` is `encryptedSecretKey`, `secretKeyIv` and `secretKeyAuthTag`. -/
structure EmergencyGrant where
  id : Uuid
  tenantId : Uuid
  ownerId : Uuid
  granteeId : Option Uuid
  granteeEmail : String
  status : EaStatus
  waitDays : Nat
  tokenHash : String
  tokenExpiresAt : Millis
  keyAlgorithm : String
  granteePublicKey : Option String
  ownerEphemeralPublicKey : Option String
  encryptedSecretKey : Option Sealed
  hkdfSalt : Option String
  wrapVersion : Nat
  keyVersion : Option Nat
  requestedAt : Option Millis
  activatedAt : Option Millis
  waitExpiresAt : Option Millis
  revokedAt : Option Millis

/-- An `emergency_access_key_pairs` row, of which a grant has at most one. -/
structure EmergencyKeyPair where
  grantId : Uuid
  tenantId : Uuid
  encryptedPrivateKey : Sealed

/-- A row that matters here only for its owner: a tag, a folder, a share link, a team member key. -/
structure OwnedRow where
  id : Uuid
  userId : Uuid

/-- The columns of a `team_members` row that a vault reset touches. -/
structure TeamMembership where
  id : Uuid
  userId : Uuid
  keyDistributed : Bool

/-- The columns of a `tenants` row that passkey registration reads. -/
structure Tenant where
  id : Uuid
  requireMinPinLength : Option Nat

/-- The part of the database that the vault operations work on. -/
structure Store where
  users : Uuid → Option User
  vaultKeys : List VaultKey
  credentials : List WebAuthnCredential
  entries : List PasswordEntry
  histories : List EntryHistory
  attachments : List Attachment
  grants : List EmergencyGrant
  keyPairs : List EmergencyKeyPair
  tags : List OwnedRow
  folders : List OwnedRow
  shares : List OwnedRow
  teamMemberKeys : List OwnedRow
  teamMembers : List TeamMembership
  members : List TenantMember
  tenants : List Tenant

/-- The rows, unique keys and advisory locks that statements take. `user` is the `users` row; `FOR
UPDATE` takes `userKey` as well, which is what the foreign-key check of an insert asks for. -/
inductive Lock
  | user (userId : Uuid)
  | userKey (userId : Uuid)
  | advisory (userId : Uuid)
  | vaultKey (key : Uuid × Nat)
  | credential (id : Uuid)
  | credentialId (credentialId : String)
  | entry (id : Uuid)
  | history (id : Uuid)
  | attachment (id : Uuid)
  | grant (id : Uuid)
  | keyPair (grantId : Uuid)
  | tag (id : Uuid)
  | folder (id : Uuid)
  | share (id : Uuid)
  | teamMemberKey (id : Uuid)
  | teamMember (id : Uuid)
  deriving DecidableEq

/-- What a committed transaction did to an emergency grant. A promotion records the end of the waiting
period that it had read. -/
inductive GrantEvent
  | confirmed (ownerId : Uuid) (keyVersion : Nat)
  | resumed
  | requested (requestedAt : Millis)
  | approved
  | promoted (activatedAt waitExpiresAt : Millis)

/-- What a committed transaction did. A commit that writes wraps records, beside them, the vault key
that was current when its route read the user row. -/
inductive Event
  | other
  | setup (key : VaultKey) (wrap : KeyMaterial)
  | rewrapped (userId : Uuid) (checked : Option VaultKey) (passphrase recovery : Option KeyMaterial)
  | prfWrapped (userId : Uuid) (checked : Option VaultKey) (wrap : KeyMaterial)
  | rotated (key : VaultKey) (wrap : KeyMaterial)
  | reset (userId : Uuid)
  | wrote (userId : Uuid) (keyVersion : Nat)
  | attached (userId : Uuid) (cekKeyVersion : Nat)
  | grant (grantId : Uuid) (event : GrantEvent)

def vaultKeyTable : Table Store (Uuid × Nat) VaultKey where
  rows := Store.vaultKeys
  put db rows := { db with vaultKeys := rows }
  key key := (key.userId, key.version)

def credentialTable : Table Store Uuid WebAuthnCredential where
  rows := Store.credentials
  put db rows := { db with credentials := rows }
  key := WebAuthnCredential.id

def entryTable : Table Store Uuid PasswordEntry where
  rows := Store.entries
  put db rows := { db with entries := rows }
  key := PasswordEntry.id

def historyTable : Table Store Uuid EntryHistory where
  rows := Store.histories
  put db rows := { db with histories := rows }
  key := EntryHistory.id

def attachmentTable : Table Store Uuid Attachment where
  rows := Store.attachments
  put db rows := { db with attachments := rows }
  key := Attachment.id

def grantTable : Table Store Uuid EmergencyGrant where
  rows := Store.grants
  put db rows := { db with grants := rows }
  key := EmergencyGrant.id

def keyPairTable : Table Store Uuid EmergencyKeyPair where
  rows := Store.keyPairs
  put db rows := { db with keyPairs := rows }
  key := EmergencyKeyPair.grantId

def tagTable : Table Store Uuid OwnedRow where
  rows := Store.tags
  put db rows := { db with tags := rows }
  key := OwnedRow.id

def folderTable : Table Store Uuid OwnedRow where
  rows := Store.folders
  put db rows := { db with folders := rows }
  key := OwnedRow.id

def shareTable : Table Store Uuid OwnedRow where
  rows := Store.shares
  put db rows := { db with shares := rows }
  key := OwnedRow.id

def teamMemberKeyTable : Table Store Uuid OwnedRow where
  rows := Store.teamMemberKeys
  put db rows := { db with teamMemberKeys := rows }
  key := OwnedRow.id

def teamMemberTable : Table Store Uuid TeamMembership where
  rows := Store.teamMembers
  put db rows := { db with teamMembers := rows }
  key := TeamMembership.id

namespace Store

variable (db : Store) (userId : Uuid)

/-- `UPDATE users SET f WHERE id = userId`. -/
def setUser (f : User → User) : Store :=
  { db with users := Function.update db.users userId ((db.users userId).map f) }

/-- The `vault_keys` row of a version. -/
def vaultKey (version : Nat) : Option VaultKey :=
  db.vaultKeys.find? fun key ↦ key.userId = userId && key.version = version

/-- The vault key that belongs to `users.keyVersion`, if the vault is set up. -/
def currentKey : Option VaultKey :=
  (db.users userId).bind fun user ↦
    if user.vaultSetupAt.isSome then db.vaultKey userId user.keyVersion else none

/-- The entry exists and belongs to the user: the condition `entry: { userId }` of a joined query. -/
def ownsEntry (entryId : Uuid) : Bool :=
  db.entries.any fun entry ↦ entry.id = entryId && entry.userId = userId

end Store

end PasswdSso.Vault
