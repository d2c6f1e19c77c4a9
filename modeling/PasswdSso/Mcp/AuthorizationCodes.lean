import PasswdSso.Mcp.OAuthServer
import PasswdSso.ReadCommitted.Trace

/-!
# The exchange of authorization codes

`exchangeCodeForToken` of `src/lib/mcp/oauth-server.ts`, as a program of database statements. The code and its
client are read without a lock and checked in the order of the source; then the code is claimed by a
compare-and-swap on `usedAt`, and the access token is created in the same transaction. A refusal returns from
the transaction, and so commits it without writes.

`base64url(SHA-256(…))` is a parameter. Random draws and clock readings are fields of the request.
-/

namespace PasswdSso.Mcp.Code

open ReadCommitted Passkey

structure McpAuthorizationCode where
  id : Uuid
  codeHash : String
  clientId : Uuid
  tenantId : Uuid
  userId : Option Uuid
  serviceAccountId : Option Uuid
  redirectUri : String
  scope : String
  codeChallenge : String
  codeChallengeMethod : String
  expiresAt : Millis
  usedAt : Option Millis
  deriving DecidableEq

/-- `SET used_at` on a code. -/
def McpAuthorizationCode.use (time : Millis) (code : McpAuthorizationCode) : McpAuthorizationCode :=
  { code with usedAt := some time }

/-- The part of the database that the exchange works on. -/
structure Store where
  codes : List McpAuthorizationCode
  clients : List McpClient
  accessTokens : List McpAccessToken
  tenants : List TenantPolicy
  credentialOwners : List Uuid

/-- The rows and unique keys that statements lock. -/
inductive Lock
  | code (id : Uuid)
  | accessToken (id : Uuid)
  | accessTokenHash (tokenHash : String)
  deriving DecidableEq

/-- What a committed call did. -/
inductive Event (ι : Type)
  | nothing (call : ι)
  | redeemed (call : ι) (code : McpAuthorizationCode) (token : McpAccessToken)

/-- The call that an event belongs to. -/
def Event.call {ι : Type} : Event ι → ι
  | .nothing call => call
  | .redeemed call _ _ => call

def codeTable : Table Store Uuid McpAuthorizationCode where
  rows := Store.codes
  put db rows := { db with codes := rows }
  key := McpAuthorizationCode.id

def accessTable : Table Store Uuid McpAccessToken where
  rows := Store.accessTokens
  put db rows := { db with accessTokens := rows }
  key := McpAccessToken.id

def authorizationCodeMaxLength : Nat := 256

inductive Thrown
  | missingClient
  | byteLengthMismatch
  | tenantNotFound
  | uniqueViolation
  deriving DecidableEq

inductive TokenExchangeError
  | invalidGrant
  | invalidClient
  | invalidRequest
  | accessDenied
  deriving DecidableEq

/-- `ExchangeCodeParams`, with what the call draws from the clock and at random. -/
structure ExchangeCodeParams where
  code : String
  clientId : String
  clientSecretHash : String
  redirectUri : String
  codeVerifier : String
  tokenExpirySeconds : Option Int
  expiryCheckedAt : Millis
  passkeyCheckedAt : Millis
  usedAt : Millis
  issuedAt : Millis
  random : String
  newTokenId : Uuid

/-- `TokenExchangeResult`, without the constant token type. -/
structure TokenExchangeResult where
  accessToken : String
  expiresIn : Int
  scope : String
  tokenId : Uuid
  clientDbId : Uuid
  tenantId : Uuid
  userId : Option Uuid
  serviceAccountId : Option Uuid

/-- `TokenExchangeOutcome`; `thrown` is a rejected promise. -/
inductive TokenExchangeOutcome
  | ok (data : TokenExchangeResult)
  | refused (error : TokenExchangeError) (userId tenantId : Option Uuid)
  | thrown (error : Thrown)

/-- A refusal inside of the transaction. -/
structure Refusal where
  error : TokenExchangeError
  userId : Option Uuid
  tenantId : Option Uuid

def Refusal.plain (error : TokenExchangeError) : Refusal := ⟨error, none, none⟩

/-- `safeEqual`: `timingSafeEqual` throws on byte strings of different lengths. -/
def safeEqual (a b : String) : Except Thrown Bool :=
  if jsLength a ≠ jsLength b then .ok false
  else if a.utf8ByteSize ≠ b.utf8ByteSize then .error .byteLengthMismatch
  else .ok (decide (a = b))

def Store.findCode (db : Store) (codeHash : String) : Option (McpAuthorizationCode × Option McpClient) :=
  (db.codes.find? (·.codeHash = codeHash)).map fun code ↦ (code, db.clients.find? (·.id = code.clientId))

section Exchange

variable {ι : Type} (hashToken computeS256Challenge : String → String) (params : ExchangeCodeParams)

def verifyPkceS256 (challenge verifier : String) : Except Thrown Bool :=
  safeEqual (computeS256Challenge verifier) challenge

def checkSecret (client : McpClient) : Except Thrown Bool :=
  if client.clientSecretHash = "" then .ok true
  else safeEqual client.clientSecretHash params.clientSecretHash

def checkBinding (authCode : McpAuthorizationCode) (client : McpClient) :
    Except Thrown (Option TokenExchangeError) :=
  if !client.isActive then .ok (some .invalidClient)
  else
    match client.tenantId with
    | none => .ok (some .invalidClient)
    | some clientTenantId =>
      if authCode.tenantId ≠ clientTenantId then .ok (some .invalidGrant)
      else if authCode.redirectUri ≠ params.redirectUri then .ok (some .invalidGrant)
      else if authCode.codeChallengeMethod ≠ "S256" then .ok (some .invalidRequest)
      else
        match verifyPkceS256 computeS256Challenge authCode.codeChallenge params.codeVerifier with
        | .error thrown => .error thrown
        | .ok false => .ok (some .invalidGrant)
        | .ok true => .ok none

/-- The checks on the code and its client, in the order of the source; `none` is a pass. -/
def checkCode (authCode : McpAuthorizationCode) (client : McpClient) :
    Except Thrown (Option TokenExchangeError) :=
  if authCode.usedAt.isSome then .ok (some .invalidGrant)
  else if authCode.expiresAt < params.expiryCheckedAt then .ok (some .invalidGrant)
  else if client.clientId ≠ params.clientId then .ok (some .invalidClient)
  else
    match checkSecret params client with
    | .error thrown => .error thrown
    | .ok false => .ok (some .invalidClient)
    | .ok true => checkBinding computeS256Challenge params authCode client

def passkeyGate (authCode : McpAuthorizationCode) : Prog Store Lock (Event ι) (Except Thrown Bool) := do
  match authCode.userId with
  | none => return .ok false
  | some userId =>
    match ← .read fun db : Store ↦
        derivePasskeyState db.credentialOwners db.tenants userId authCode.tenantId with
    | none => return .error .tenantNotFound
    | some state => return .ok (passkeyEnforcementBlocks state params.passkeyCheckedAt)

/-- `Math.min(params.tokenExpirySeconds ?? MCP_TOKEN_EXPIRY_SEC, MCP_TOKEN_EXPIRY_SEC)`. -/
def expirySeconds : Int := min (params.tokenExpirySeconds.getD tokenExpirySec) tokenExpirySec

def newToken (authCode : McpAuthorizationCode) : McpAccessToken where
  id := params.newTokenId
  tokenHash := hashToken ("mcp_" ++ params.random)
  clientId := authCode.clientId
  tenantId := authCode.tenantId
  userId := authCode.userId
  serviceAccountId := authCode.serviceAccountId
  scope := authCode.scope
  expiresAt := params.issuedAt + expirySeconds params * msPerSecond
  revokedAt := none

def exchangeResult (authCode : McpAuthorizationCode) : TokenExchangeResult where
  accessToken := "mcp_" ++ params.random
  expiresIn := expirySeconds params
  scope := authCode.scope
  tokenId := params.newTokenId
  clientDbId := authCode.clientId
  tenantId := authCode.tenantId
  userId := authCode.userId
  serviceAccountId := authCode.serviceAccountId

/-- The compare-and-swap on `usedAt`, and the new access token. -/
def redeem (authCode : McpAuthorizationCode) :
    Prog Store Lock (Event ι) (Except Thrown (Refusal ⊕ McpAuthorizationCode)) := do
  let consumed ← .updateMany codeTable .code (fun row ↦ row.id = authCode.id && row.usedAt.isNone)
    (.use params.usedAt)
  if consumed = 0 then
    return .ok (.inl (.plain .invalidGrant))
  let token := newToken hashToken params authCode
  if ← .insert [.accessToken token.id, .accessTokenHash token.tokenHash]
      (fun db : Store ↦ db.accessTokens.any fun row ↦ row.id = token.id || row.tokenHash = token.tokenHash)
      (accessTable.append [token]) then
    return .error .uniqueViolation
  return .ok (.inr authCode)

def exchangeBody : Prog Store Lock (Event ι) (Except Thrown (Refusal ⊕ McpAuthorizationCode)) := do
  match ← .read fun db : Store ↦ db.findCode (hashToken params.code) with
  | none => return .ok (.inl (.plain .invalidGrant))
  | some (_, none) => return .error .missingClient
  | some (authCode, some client) =>
    match checkCode computeS256Challenge params authCode client with
    | .error thrown => return .error thrown
    | .ok (some error) => return .ok (.inl (.plain error))
    | .ok none =>
      match ← passkeyGate params authCode with
      | .error thrown => return .error thrown
      | .ok true => return .ok (.inl ⟨.accessDenied, authCode.userId, some authCode.tenantId⟩)
      | .ok false => redeem hashToken params authCode

def exchangeEvent (call : ι) : Refusal ⊕ McpAuthorizationCode → Event ι
  | .inl _ => .nothing call
  | .inr authCode => .redeemed call authCode (newToken hashToken params authCode)

def exchangeCodeForToken (call : ι) : Prog Store Lock (Event ι) TokenExchangeOutcome := do
  if params.code.isEmpty || jsLength params.code > authorizationCodeMaxLength then
    return .refused .invalidGrant none none
  if params.clientId.isEmpty || jsLength params.clientId > clientIdMaxLength then
    return .refused .invalidClient none none
  match ← .transaction (exchangeEvent hashToken params call)
      (exchangeBody hashToken computeS256Challenge params) with
  | .error thrown => return .thrown thrown
  | .ok (.inl refusal) => return .refused refusal.error refusal.userId refusal.tenantId
  | .ok (.inr authCode) => return .ok (exchangeResult params authCode)

end Exchange

end PasswdSso.Mcp.Code
