import Mathlib.Data.List.Dedup
import PasswdSso.Mcp.Store

/-!
# The OAuth server's refresh-token exchange and revocation

`exchangeRefreshToken`, `revokeFamilyOutOfBand` and `revokeToken` of
`src/lib/mcp/oauth-server.ts` as programs of database statements. Each `withBypassRls` block is one
transaction. The values that the code draws from the random source and from the clock are fields of
the request, one field for each draw.
-/

namespace PasswdSso.Mcp

open ReadCommitted Passkey

abbrev Server (α : Type) := Prog Store Lock Event α

def clientIdMaxLength : Nat := 64

def presentedTokenMaxLength : Nat := 256

def tokenExpirySec : Int := 3600

def refreshTokenExpirySec : Int := 7 * 86400

def refreshTokenFamilyAbsoluteTimeoutSec : Int := 30 * 86400

inductive Thrown
  | missingClient
  | tenantNotFound
  | uniqueViolation
  | recordNotFound
  deriving DecidableEq

/-- The arguments of `exchangeRefreshToken`, with what it draws from the clock and at random. -/
structure ExchangeRequest where
  refreshToken : String
  clientId : String
  clientSecretHash : String
  nowMs : Millis
  expiryCheckedAt : Millis
  passkeyCheckedAt : Millis
  accessIssuedAt : Millis
  refreshIssuedAt : Millis
  rotatedAt : Millis
  oldAccessRevokedAt : Millis
  familyRevokedAt : Millis × Millis
  accessRandom : String
  refreshRandom : String
  newAccessTokenId : Uuid
  newRefreshTokenId : Uuid

structure Grant where
  accessToken : String
  accessTokenId : Uuid
  refreshToken : String
  refreshTokenId : Uuid
  familyId : Uuid
  expiresIn : Int
  scope : String
  tenantId : Uuid
  userId : Option Uuid

/-- The outcomes of the first phase. `replay` and `raceLost` carry what the second phase needs;
`success` also names the token that was rotated. -/
inductive Phase1
  | notFound
  | replay (tenantId familyId accessTokenId : Uuid) (storedClientId : String)
  | revoked
  | expired
  | invalidClient
  | familyCapExceeded
  | deactivatedUser
  | passkeyRequired (tenantId userId : Uuid)
  | raceLost (tenantId familyId accessTokenId : Uuid) (storedClientId : String)
  | success (rotatedId : Uuid) (grant : Grant)

inductive OAuthError
  | invalidGrant
  | invalidClient
  | accessDenied
  deriving DecidableEq

inductive RefreshExchangeReason
  | replay
  | concurrentRotationRevoked
  | expired
  | revoked
  | passkeyRequired
  deriving DecidableEq

/-- What `exchangeRefreshToken` answers; `thrown` is a rejected promise. -/
inductive ExchangeOutcome
  | ok (grant : Grant)
  | refused (error : OAuthError) (reason : Option RefreshExchangeReason) (tenantId : Option Uuid)
      (familyId : Option Uuid) (userId : Option Uuid) (storedClientId : Option String)
  | thrown (error : Thrown)

def ExchangeOutcome.plain (error : OAuthError) (reason : Option RefreshExchangeReason) :
    ExchangeOutcome :=
  .refused error reason none none none none

def Store.findRefreshToken (db : Store) (tokenHash : String) : Option (McpRefreshToken × Option McpClient) :=
  (db.refreshTokens.find? (·.tokenHash = tokenHash)).map fun rt ↦
    (rt, db.clients.find? (·.id = rt.clientId))

def Store.findAccessToken (db : Store) (tokenHash : String) : Option (McpAccessToken × Option McpClient) :=
  (db.accessTokens.find? (·.tokenHash = tokenHash)).map fun token ↦
    (token, db.clients.find? (·.id = token.clientId))

def checkTenantMembership (tenantId userId : Uuid) : Server Bool :=
  Prog.read fun db : Store ↦ activeMember db.members tenantId userId

section Exchange

variable (hashToken : String → String) (req : ExchangeRequest)

/-- The access token that a rotation of `rt` creates. -/
def newAccess (rt : McpRefreshToken) : McpAccessToken where
  id := req.newAccessTokenId
  tokenHash := hashToken ("mcp_" ++ req.accessRandom)
  clientId := rt.clientId
  tenantId := rt.tenantId
  userId := rt.userId
  serviceAccountId := rt.serviceAccountId
  scope := rt.scope
  expiresAt := req.accessIssuedAt + tokenExpirySec * msPerSecond
  revokedAt := none

/-- The refresh token that a rotation of `rt` creates. -/
def newRefresh (rt : McpRefreshToken) : McpRefreshToken where
  id := req.newRefreshTokenId
  tokenHash := hashToken ("mcpr_" ++ req.refreshRandom)
  familyId := rt.familyId
  familyCreatedAt := rt.familyCreatedAt
  accessTokenId := req.newAccessTokenId
  clientId := rt.clientId
  tenantId := rt.tenantId
  userId := rt.userId
  serviceAccountId := rt.serviceAccountId
  scope := rt.scope
  expiresAt := req.refreshIssuedAt + refreshTokenExpirySec * msPerSecond
  revokedAt := none
  rotatedAt := none
  replacedByHash := none

/-- The refusals of the first phase that depend on the presented row and its client alone. -/
def refusal (rt : McpRefreshToken) (client : McpClient) : Option Phase1 :=
  if rt.rotatedAt.isSome then
    some (.replay rt.tenantId rt.familyId rt.accessTokenId client.clientId)
  else if rt.revokedAt.isSome then some .revoked
  else if rt.expiresAt < req.expiryCheckedAt then some .expired
  else if client.clientId ≠ req.clientId ∨
      (client.clientSecretHash ≠ "" ∧ client.clientSecretHash ≠ req.clientSecretHash) ∨
      ¬ client.isActive then some .invalidClient
  else if client.tenantId ≠ some rt.tenantId then some .invalidClient
  else if req.nowMs - rt.familyCreatedAt > refreshTokenFamilyAbsoluteTimeoutSec * msPerSecond then
    some .familyCapExceeded
  else none

/-- The validation half of the first phase: the refusal, or the row to rotate and its client. -/
def validateRotation : Server (Except Thrown (Phase1 ⊕ McpRefreshToken × McpClient)) := do
  match ← .read fun db : Store ↦ db.findRefreshToken (hashToken req.refreshToken) with
  | none => return .ok (.inl .notFound)
  | some (_, none) => return .error .missingClient
  | some (rt, some client) =>
    if let some refused := refusal req rt client then
      return .ok (.inl refused)
    match rt.userId with
    | none => return .ok (.inr (rt, client))
    | some userId =>
      if !(← checkTenantMembership rt.tenantId userId) then
        return .ok (.inl .deactivatedUser)
      match ← .read fun db : Store ↦
          derivePasskeyState db.credentialOwners db.tenants userId rt.tenantId with
      | none => return .error .tenantNotFound
      | some state =>
        if passkeyEnforcementBlocks state req.passkeyCheckedAt then
          return .ok (.inl (.passkeyRequired rt.tenantId userId))
        return .ok (.inr (rt, client))

/-- The end of the first phase, after the rotation slot was won: the new pair, and the revocation of
the access token that was paired with `rt`. -/
def mintPair (rt : McpRefreshToken) : Server (Except Thrown Phase1) := do
  let access := newAccess hashToken req rt
  let refresh := newRefresh hashToken req rt
  if ← .insert [.accessToken access.id, .accessTokenHash access.tokenHash]
      (fun db : Store ↦ db.accessTokens.any fun row ↦
        row.id = access.id || row.tokenHash = access.tokenHash)
      (accessTable.append [access]) then
    return .error .uniqueViolation
  if ← .insert [.refreshToken refresh.id, .refreshTokenHash refresh.tokenHash]
      (fun db : Store ↦ db.refreshTokens.any fun row ↦
        row.id = refresh.id || row.tokenHash = refresh.tokenHash)
      (refreshTable.append [refresh]) then
    return .error .uniqueViolation
  let revoked ← .updateMany accessTable .accessToken (fun row ↦ row.id = rt.accessTokenId)
    (.revoke req.oldAccessRevokedAt)
  if revoked = 0 then
    return .error .recordNotFound
  return .ok (.success rt.id
    { accessToken := "mcp_" ++ req.accessRandom
      accessTokenId := access.id
      refreshToken := "mcpr_" ++ req.refreshRandom
      refreshTokenId := refresh.id
      familyId := rt.familyId
      expiresIn := tokenExpirySec
      scope := rt.scope
      tenantId := rt.tenantId
      userId := rt.userId })

/-- The claiming half of the first phase: the compare-and-swap on `rotatedAt`, and the new pair. -/
def claimRotation (rt : McpRefreshToken) (client : McpClient) : Server (Except Thrown Phase1) := do
  let claimed ← .updateMany refreshTable .refreshToken (fun row ↦ row.id = rt.id && row.rotatedAt.isNone)
    (.rotate req.rotatedAt (newRefresh hashToken req rt).tokenHash)
  if claimed = 0 then
    return .ok (.raceLost rt.tenantId rt.familyId rt.accessTokenId client.clientId)
  mintPair hashToken req rt

def phase1Body : Server (Except Thrown Phase1) := do
  match ← validateRotation hashToken req with
  | .error thrown => return .error thrown
  | .ok (.inl refused) => return .ok refused
  | .ok (.inr (rt, client)) => claimRotation hashToken req rt client

/-- The event of a committed first phase. -/
def Phase1.event : Phase1 → Event
  | .success rotatedId grant => .rotated rotatedId grant.familyId
  | _ => .nothing

end Exchange

/-- The last statement of both family revocations: revoke the listed access tokens, if any, that
satisfy `sel` and are not revoked yet. -/
def revokeListed (accessTokenIds : List Uuid) (sel : McpAccessToken → Bool) (time : Millis) :
    Server Unit := do
  if accessTokenIds.length > 0 then
    let _ ← .updateMany accessTable .accessToken
      (fun row ↦ row.id ∈ accessTokenIds && sel row && row.revokedAt.isNone)
      (.revoke time)

/-- The body of `revokeFamilyOutOfBand`; `times` are its two clock readings. -/
def revokeFamilyBody (familyId accessTokenId : Uuid) (times : Millis × Millis) : Server (Except Thrown Unit) := do
  let familyTokens ← .read fun db : Store ↦
    (db.refreshTokens.filter (·.familyId = familyId)).map (·.accessTokenId)
  let _ ← .updateMany refreshTable .refreshToken
    (fun row ↦ row.familyId = familyId && row.revokedAt.isNone) (.revoke times.1)
  revokeListed (accessTokenId :: familyTokens).dedup (fun _ ↦ true) times.2
  return .ok ()

def revokeFamilyOutOfBand (familyId accessTokenId : Uuid) (times : Millis × Millis) : Server (Except Thrown Unit) :=
  Prog.transaction (fun _ ↦ .revokedFamily familyId) (revokeFamilyBody familyId accessTokenId times)

def exchangeRefreshToken (hashToken : String → String) (req : ExchangeRequest) :
    Server ExchangeOutcome := do
  if req.refreshToken.isEmpty || jsLength req.refreshToken > presentedTokenMaxLength then
    return .plain .invalidGrant none
  if req.clientId.isEmpty || jsLength req.clientId > clientIdMaxLength then
    return .plain .invalidClient none
  match ← .transaction Phase1.event (phase1Body hashToken req) with
  | .error thrown => return .thrown thrown
  | .ok .notFound => return .plain .invalidGrant none
  | .ok .revoked => return .plain .invalidGrant (some .revoked)
  | .ok .expired => return .plain .invalidGrant (some .expired)
  | .ok .invalidClient => return .plain .invalidClient none
  | .ok .familyCapExceeded => return .plain .invalidGrant none
  | .ok .deactivatedUser => return .plain .invalidGrant none
  | .ok (.passkeyRequired tenantId userId) =>
    return .refused .accessDenied (some .passkeyRequired) (some tenantId) none (some userId) none
  | .ok (.success _ grant) => return .ok grant
  | .ok (.replay tenantId familyId accessTokenId storedClientId) =>
    let _ ← revokeFamilyOutOfBand familyId accessTokenId req.familyRevokedAt
    return .refused .invalidGrant (some .replay) (some tenantId) (some familyId) none (some storedClientId)
  | .ok (.raceLost tenantId familyId accessTokenId storedClientId) =>
    let _ ← revokeFamilyOutOfBand familyId accessTokenId req.familyRevokedAt
    return .refused .invalidGrant (some .concurrentRotationRevoked) (some tenantId) (some familyId)
      none (some storedClientId)

inductive TokenTypeHint
  | accessToken
  | refreshToken
  deriving DecidableEq

/-- The arguments of `revokeToken` and its clock readings. -/
structure RevokeRequest where
  token : String
  tokenTypeHint : Option TokenTypeHint
  clientId : String
  clientSecretHash : Option String
  times : Millis × Millis

def verifyRevokeClientAuth (storedHash : String) (providedHash : Option String) : Bool :=
  storedHash = "" || match providedHash with
    | none => false
    | some provided => provided ≠ "" && storedHash = provided

/-- The branch of `revokeToken` that revokes the family of a refresh token. -/
def revokeRefreshTokenFamily (rt : McpRefreshToken) (times : Millis × Millis) : Server (Except Thrown Event) := do
  let _ ← .updateMany refreshTable .refreshToken
    (fun row ↦ row.familyId = rt.familyId && row.tenantId = rt.tenantId && row.revokedAt.isNone)
    (.revoke times.1)
  let familyTokens ← .read fun db : Store ↦
    (db.refreshTokens.filter fun row ↦
      row.familyId = rt.familyId && row.tenantId = rt.tenantId).map (·.accessTokenId)
  revokeListed familyTokens.dedup (fun row ↦ row.tenantId = rt.tenantId) times.2
  return .ok (.revokedFamily rt.familyId)

/-- The branch of `revokeToken` that revokes one access token. -/
def revokeAccessToken (tokenHash : String) (req : RevokeRequest) : Server (Except Thrown Event) := do
  match ← .read fun db : Store ↦ db.findAccessToken tokenHash with
  | none => return .ok .nothing
  | some (_, none) => return .error .missingClient
  | some (token, some client) =>
    if client.clientId ≠ req.clientId then
      return .ok .nothing
    if !verifyRevokeClientAuth client.clientSecretHash req.clientSecretHash then
      return .ok .nothing
    let revoked ← .updateMany accessTable .accessToken
      (fun row ↦ row.id = token.id && row.tenantId = token.tenantId)
      (.revoke req.times.1)
    if revoked = 0 then
      return .error .recordNotFound
    return .ok (.revokedAccess token.id)

/-- The body of `revokeToken`, answering what it revoked. -/
def revokeTokenBody (hashToken : String → String) (req : RevokeRequest) : Server (Except Thrown Event) := do
  let tokenHash := hashToken req.token
  if req.tokenTypeHint ≠ some .accessToken then
    match ← .read fun db : Store ↦ db.findRefreshToken tokenHash with
    | none => revokeAccessToken tokenHash req
    | some (_, none) => return .error .missingClient
    | some (rt, some client) =>
      if client.clientId ≠ req.clientId then
        revokeAccessToken tokenHash req
      else if !verifyRevokeClientAuth client.clientSecretHash req.clientSecretHash then
        return .ok .nothing
      else
        revokeRefreshTokenFamily rt req.times
  else
    revokeAccessToken tokenHash req

def revokeToken (hashToken : String → String) (req : RevokeRequest) : Server (Except Thrown Event) := do
  if req.token.isEmpty || jsLength req.token > presentedTokenMaxLength || req.clientId.isEmpty ||
      jsLength req.clientId > clientIdMaxLength then
    return .ok .nothing
  Prog.transaction id (revokeTokenBody hashToken req)

/-- The requests whose steps a run interleaves. -/
inductive Request
  | exchange (req : ExchangeRequest)
  | revoke (req : RevokeRequest)

/-- The program that serves a request; callers of `revokeToken` learn nothing from it. -/
def Request.serve (hashToken : String → String) : Request → Server (Option ExchangeOutcome)
  | .exchange req => do return some (← exchangeRefreshToken hashToken req)
  | .revoke req => do
    let _ ← revokeToken hashToken req
    return none

end PasswdSso.Mcp
