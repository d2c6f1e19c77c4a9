import PasswdSso.Common
import PasswdSso.ReadCommitted.Statement

/-!
# The extension token store

The `extension_tokens` table, shared by browser-extension tokens, the access and refresh rows of the
iOS app and the iOS AutoFill tokens, with the columns that issuing, validation and refresh read or
write, and the in-process cache of recent iOS rotations. The table has no column that tells an
access row from a refresh row: the events of the commits record which rows were minted and how.
-/

namespace PasswdSso.Extension

open ReadCommitted

/-- `ExtensionTokenClientKind`. -/
inductive ClientKind
  | browserExtension
  | iosApp
  | iosAutofill
  deriving DecidableEq

structure ExtensionToken where
  id : Uuid
  userId : Uuid
  tenantId : Uuid
  tokenHash : String
  scope : String
  expiresAt : Millis
  createdAt : Millis
  revokedAt : Option Millis
  familyId : Uuid
  familyCreatedAt : Millis
  clientKind : ClientKind
  cnfJkt : Option String
  deriving DecidableEq

/-- The columns of a `tenants` row that bear on extension tokens. -/
structure Tenant where
  passkey : Passkey.TenantPolicy
  extensionTokenIdleTimeoutMinutes : Int
  extensionTokenAbsoluteTimeoutMinutes : Int

/-- A `sessions` row. -/
structure AuthSession where
  userId : Uuid
  tenantId : Uuid
  expires : Millis

structure IssuedIosToken where
  accessToken : String
  refreshToken : String
  expiresAt : Millis
  familyId : Uuid
  familyCreatedAt : Millis
  tokenId : Uuid

structure RotationRecord where
  bodyHash : String
  issuedAt : Millis
  token : IssuedIosToken

/-- The tables that decide about users and tenants; no token operation writes them. -/
structure Directory where
  members : List TenantMember
  tenants : List Tenant
  sessions : List AuthSession
  credentialOwners : List Uuid

/-- The part of the database that token operations work on, and the rotation cache. -/
structure Store where
  tokens : List ExtensionToken
  rotationCache : List (String × RotationRecord)
  directory : Directory

/-- The rows, unique keys and advisory locks that statements take. -/
inductive Lock
  | token (id : Uuid)
  | tokenHash (tokenHash : String)
  | user (userId : Uuid)
  deriving DecidableEq

/-- What a committed transaction did. Minting events carry the rows; a rotation of an iOS pair has
two commits, which carry the presented row and the id of the access row of the new pair. -/
inductive Event
  | nothing
  | cached
  | familyRevoked (familyId : Uuid)
  | issuedExtension (row : ExtensionToken)
  | issuedAutofill (row : ExtensionToken)
  | issuedPair (source : Option ExtensionToken) (issuedAt : Millis) (access refresh : ExtensionToken)
  | rotationRevoked (presented : ExtensionToken) (accessId : Uuid)
  | refreshedExtension (presented row : ExtensionToken)
  deriving DecidableEq

def Event.minted : Event → List ExtensionToken
  | .issuedExtension row => [row]
  | .issuedAutofill row => [row]
  | .issuedPair _ _ access refresh => [access, refresh]
  | .refreshedExtension _ row => [row]
  | _ => []

def tokenTable : Table Store Uuid ExtensionToken where
  rows := Store.tokens
  put db rows := { db with tokens := rows }
  key := ExtensionToken.id

section Tables

variable (db : Store) (keys : List Uuid)

@[simp] theorem tokens_modify (f : ExtensionToken → ExtensionToken) : (tokenTable.modify keys f db).tokens =
      db.tokens.map fun row ↦ if row.id ∈ keys then f row else row := rfl

@[simp] theorem tokens_append (rows : List ExtensionToken) :
    (tokenTable.append rows db).tokens = db.tokens ++ rows := rfl

end Tables

/-- `SET revoked_at`. -/
def ExtensionToken.revoke (time : Millis) (token : ExtensionToken) : ExtensionToken :=
  { token with revokedAt := some time }

/-- A later version of a row: only `revokedAt` moves, and it is never cleared. -/
structure ExtensionToken.Becomes (old new : ExtensionToken) : Prop where
  same : new = { old with revokedAt := new.revokedAt }
  revoked : old.revokedAt ≠ none → new.revokedAt ≠ none

namespace ExtensionToken

theorem Becomes.refl (token : ExtensionToken) : token.Becomes token := ⟨rfl, fun h ↦ h⟩

theorem Becomes.trans {a b c : ExtensionToken} (h : a.Becomes b) (h' : b.Becomes c) : a.Becomes c where
  same := by rw [h'.same, h.same]
  revoked := h'.revoked ∘ h.revoked

theorem becomes_revoke (time : Millis) (token : ExtensionToken) : token.Becomes (token.revoke time) :=
  ⟨rfl, fun _ ↦ Option.some_ne_none _⟩

variable {old new : ExtensionToken} (h : old.Becomes new)

include h

theorem Becomes.id_eq : new.id = old.id := by rw [h.same]

theorem Becomes.userId_eq : new.userId = old.userId := by rw [h.same]

theorem Becomes.tenantId_eq : new.tenantId = old.tenantId := by rw [h.same]

theorem Becomes.tokenHash_eq : new.tokenHash = old.tokenHash := by rw [h.same]

theorem Becomes.familyId_eq : new.familyId = old.familyId := by rw [h.same]

theorem Becomes.familyCreatedAt_eq : new.familyCreatedAt = old.familyCreatedAt := by rw [h.same]

theorem Becomes.clientKind_eq : new.clientKind = old.clientKind := by
  rw [h.same]

theorem Becomes.expiresAt_eq : new.expiresAt = old.expiresAt := by rw [h.same]

theorem Becomes.live (hnew : new.revokedAt = none) : old.revokedAt = none :=
  not_ne_iff.mp fun hold ↦ h.revoked hold hnew

theorem Becomes.eq_of_live (hnew : new.revokedAt = none) : new = old := by
  rw [h.same, hnew, ← h.live hnew]

end ExtensionToken

end PasswdSso.Extension
