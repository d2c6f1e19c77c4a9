import PasswdSso.Common
import PasswdSso.ReadCommitted.Statement

/-!
# The MCP token store

The `mcp_access_tokens`, `mcp_refresh_tokens` and `mcp_clients` tables with the columns that the
OAuth server (`src/lib/mcp/oauth-server.ts`) reads or writes, the row locks its statements take, and
the events its transactions commit. A refresh token belongs to a rotation family and names the
access token that was issued with it; a rotation marks the presented token as rotated and adds a
pair to the family, a family revocation stamps `revokedAt` on both tables.
-/

namespace PasswdSso.Mcp

open ReadCommitted

structure McpClient where
  id : Uuid
  tenantId : Option Uuid
  clientId : String
  clientSecretHash : String
  isActive : Bool

structure McpAccessToken where
  id : Uuid
  tokenHash : String
  clientId : Uuid
  tenantId : Uuid
  userId : Option Uuid
  serviceAccountId : Option Uuid
  scope : String
  expiresAt : Millis
  revokedAt : Option Millis
  deriving DecidableEq

structure McpRefreshToken where
  id : Uuid
  tokenHash : String
  familyId : Uuid
  familyCreatedAt : Millis
  accessTokenId : Uuid
  clientId : Uuid
  tenantId : Uuid
  userId : Option Uuid
  serviceAccountId : Option Uuid
  scope : String
  expiresAt : Millis
  revokedAt : Option Millis
  rotatedAt : Option Millis
  replacedByHash : Option String
  deriving DecidableEq

/-- The part of the database that the OAuth server works on. -/
structure Store where
  accessTokens : List McpAccessToken
  refreshTokens : List McpRefreshToken
  clients : List McpClient
  members : List TenantMember
  tenants : List Passkey.TenantPolicy
  credentialOwners : List Uuid

/-- The rows and unique keys that statements lock. -/
inductive Lock
  | accessToken (id : Uuid)
  | accessTokenHash (tokenHash : String)
  | refreshToken (id : Uuid)
  | refreshTokenHash (tokenHash : String)
  deriving DecidableEq

/-- What a committed transaction did. -/
inductive Event
  | nothing
  | rotated (refreshTokenId familyId : Uuid)
  | revokedFamily (familyId : Uuid)
  | revokedAccess (accessTokenId : Uuid)
  deriving DecidableEq

def Event.rotates (familyId : Uuid) : Event → Bool
  | .rotated _ rotatedFamily => rotatedFamily = familyId
  | _ => false

def accessTable : Table Store Uuid McpAccessToken where
  rows := Store.accessTokens
  put db rows := { db with accessTokens := rows }
  key := McpAccessToken.id

def refreshTable : Table Store Uuid McpRefreshToken where
  rows := Store.refreshTokens
  put db rows := { db with refreshTokens := rows }
  key := McpRefreshToken.id

@[simp] theorem accessTable_key (row : McpAccessToken) : accessTable.key row = row.id := rfl

@[simp] theorem refreshTable_key (row : McpRefreshToken) : refreshTable.key row = row.id := rfl

section Tables

variable (db : Store) (keys : List Uuid)

@[simp] theorem refreshTokens_refreshModify (f : McpRefreshToken → McpRefreshToken) :
    (refreshTable.modify keys f db).refreshTokens =
      db.refreshTokens.map fun row ↦ if row.id ∈ keys then f row else row := rfl

@[simp] theorem refreshTokens_accessAppend (rows : List McpAccessToken) :
    (accessTable.append rows db).refreshTokens = db.refreshTokens := rfl

@[simp] theorem accessTokens_refreshModify (f : McpRefreshToken → McpRefreshToken) :
    (refreshTable.modify keys f db).accessTokens = db.accessTokens := rfl

end Tables

/-- `SET revoked_at` on an access token. -/
def McpAccessToken.revoke (time : Millis) (token : McpAccessToken) : McpAccessToken :=
  { token with revokedAt := some time }

/-- `SET revoked_at` on a refresh token. -/
def McpRefreshToken.revoke (time : Millis) (token : McpRefreshToken) : McpRefreshToken :=
  { token with revokedAt := some time }

/-- `SET rotated_at, replaced_by_hash` on a refresh token. -/
def McpRefreshToken.rotate (time : Millis) (newHash : String) (token : McpRefreshToken) :
    McpRefreshToken :=
  { token with rotatedAt := some time, replacedByHash := some newHash }

/-- A later version of an access token row: only `revokedAt` moves, and it is never cleared. -/
structure McpAccessToken.Becomes (old new : McpAccessToken) : Prop where
  same : new = { old with revokedAt := new.revokedAt }
  revoked : old.revokedAt ≠ none → new.revokedAt ≠ none

/-- A later version of a refresh token row: the stamps of rotation and revocation move and are never
cleared, every other column stays. -/
structure McpRefreshToken.Becomes (old new : McpRefreshToken) : Prop where
  same : new = { old with
    revokedAt := new.revokedAt
    rotatedAt := new.rotatedAt
    replacedByHash := new.replacedByHash }
  revoked : old.revokedAt ≠ none → new.revokedAt ≠ none
  rotated : old.rotatedAt ≠ none → new.rotatedAt ≠ none

namespace McpAccessToken

theorem Becomes.refl (token : McpAccessToken) : token.Becomes token := ⟨rfl, fun h ↦ h⟩

theorem Becomes.trans {a b c : McpAccessToken} (h : a.Becomes b) (h' : b.Becomes c) : a.Becomes c where
  same := by rw [h'.same, h.same]
  revoked := h'.revoked ∘ h.revoked

theorem becomes_revoke (time : Millis) (token : McpAccessToken) : token.Becomes (token.revoke time) :=
  ⟨rfl, fun _ ↦ Option.some_ne_none _⟩

variable {old new : McpAccessToken}

theorem Becomes.id_eq (h : old.Becomes new) : new.id = old.id := by rw [h.same]

theorem Becomes.tenantId_eq (h : old.Becomes new) : new.tenantId = old.tenantId := by rw [h.same]

theorem Becomes.live (h : old.Becomes new) (hnew : new.revokedAt = none) : old.revokedAt = none :=
  not_ne_iff.mp fun hold ↦ h.revoked hold hnew

end McpAccessToken

namespace McpRefreshToken

theorem Becomes.refl (token : McpRefreshToken) : token.Becomes token := ⟨rfl, fun h ↦ h, fun h ↦ h⟩

theorem Becomes.trans {a b c : McpRefreshToken} (h : a.Becomes b) (h' : b.Becomes c) : a.Becomes c where
  same := by rw [h'.same, h.same]
  revoked := h'.revoked ∘ h.revoked
  rotated := h'.rotated ∘ h.rotated

theorem becomes_revoke (time : Millis) (token : McpRefreshToken) : token.Becomes (token.revoke time) :=
  ⟨rfl, fun _ ↦ Option.some_ne_none _, fun h ↦ h⟩

theorem becomes_rotate (time : Millis) (newHash : String) (token : McpRefreshToken) :
    token.Becomes (token.rotate time newHash) :=
  ⟨rfl, fun h ↦ h, fun _ ↦ Option.some_ne_none _⟩

variable {old new : McpRefreshToken}

theorem Becomes.id_eq (h : old.Becomes new) : new.id = old.id := by rw [h.same]

theorem Becomes.familyId_eq (h : old.Becomes new) : new.familyId = old.familyId := by rw [h.same]

theorem Becomes.tenantId_eq (h : old.Becomes new) : new.tenantId = old.tenantId := by rw [h.same]

theorem Becomes.accessTokenId_eq (h : old.Becomes new) : new.accessTokenId = old.accessTokenId := by
  rw [h.same]

theorem Becomes.live (h : old.Becomes new) (hnew : new.revokedAt = none) : old.revokedAt = none :=
  not_ne_iff.mp fun hold ↦ h.revoked hold hnew

end McpRefreshToken

/-- The keys and references that the schema and the issuing code maintain: primary keys, the foreign
key from a refresh token to its access token, and one tenant for a family and its access tokens. -/
structure Store.WellFormed (db : Store) : Prop where
  refreshIds : refreshTable.KeysUnique db
  accessIds : accessTable.KeysUnique db
  paired : ∀ row ∈ db.refreshTokens, ∃ access ∈ db.accessTokens, access.id = row.accessTokenId
  familyTenant : ∀ first ∈ db.refreshTokens, ∀ second ∈ db.refreshTokens,
    first.familyId = second.familyId → first.tenantId = second.tenantId
  accessTenant : ∀ row ∈ db.refreshTokens, ∀ access ∈ db.accessTokens,
    access.id = row.accessTokenId → access.tenantId = row.tenantId

/-- A store that satisfies its keys and references. -/
structure TokenStore where
  store : Store
  wellFormed : store.WellFormed

/-- A public client with one pair: the access token `10` and the refresh token `20` of family `7`. -/
def pairStore : TokenStore where
  store :=
    { accessTokens := [⟨10, "A", 1, 1, none, none, "s", 1000, none⟩]
      refreshTokens := [⟨20, "R", 7, 0, 10, 1, 1, none, none, "s", 1000, none, none, none⟩]
      clients := [⟨1, some 1, "mcpc_a", "", true⟩]
      members := []
      tenants := []
      credentialOwners := [] }
  wellFormed := ⟨by decide, by decide, by decide, by decide, by decide⟩

end PasswdSso.Mcp
