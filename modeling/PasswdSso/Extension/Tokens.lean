import Mathlib.Data.List.Sort
import PasswdSso.Extension.Store

/-!
# Issuing and refreshing extension tokens

`issueExtensionToken`, `issueIosToken`, `issueAutofillToken`, `refreshIosToken`,
`revokeExtensionTokenFamily` (`src/lib/auth/tokens`) and the two refresh routes
`POST /api/mobile/token/refresh` and `POST /api/extension/token/refresh`, as programs of database
statements. What a function draws from the clock or at random, and the verdicts of the gates that
are not modelled here (network restriction, rate limit, DPoP), are fields of its request.
-/

namespace PasswdSso.Extension

open ReadCommitted Passkey

abbrev Server (α : Type) := Prog Store Lock Event α

def extensionTokenMaxActive : Nat := 3

def iosTokenIdleTimeoutMs : Millis := msPerDay

def iosTokenAbsoluteTimeoutMs : Millis := 7 * msPerDay

def iosAutofillTokenTtlMs : Millis := 5 * msPerMinute

def refreshReplayGraceMs : Millis := 5 * msPerSecond

def rotationCacheMax : Nat := 10000

def extensionTokenScopes : List String := ["passwords:read", "passwords:write", "vault:unlock-data"]

def parseScopes (csv : String) : List String :=
  ((jsSplit ',' csv.toList).map fun raw ↦ String.ofList (jsTrim raw)).filter (· ∈ extensionTokenScopes)

inductive Thrown
  | tenant (error : TenantError)
  | tenantNotFound
  | uniqueViolation
  | rowLevelSecurity

/-- `withUserTenantRls`: the body gets the tenant that row-level security restricts it to. -/
def withUserTenantRls {α : Type} (userId : Uuid) (label : α → Event)
    (body : Uuid → Server (Except Thrown α)) : Server (Except Thrown α) := do
  match ← .readOnly fun db : Store ↦ resolveUserTenantId db.directory.members userId with
  | .error error => return .error (.tenant error)
  | .ok rls => .transaction label (body rls)

/-- `extensionToken.create` under row-level security. -/
def createToken (rls : Uuid) (row : ExtensionToken) : Server (Except Thrown Unit) := do
  if row.tenantId ≠ rls then
    return .error .rowLevelSecurity
  if ← .insert [.token row.id, .tokenHash row.tokenHash] (fun db : Store ↦ db.tokens.any fun other ↦
        other.id = row.id || other.tokenHash = row.tokenHash)
      (tokenTable.append [row]) then
    return .error .uniqueViolation
  return .ok ()

/-- The cap on active tokens: under the user's advisory lock, revoke the oldest active tokens so
that `new` more fit. -/
def makeRoom (rls userId : Uuid) (now : Millis) (new : Nat) : Server Unit := do
  Prog.lockingRead [(.user userId, .exclusive)] fun _ ↦ ()
  let active ← .read fun db : Store ↦
    ((db.tokens.filter fun row ↦ row.tenantId = rls && row.userId = userId &&
      row.revokedAt.isNone && row.expiresAt > now).insertionSort fun a b ↦ a.createdAt ≤ b.createdAt).map (·.id)
  let overCount := active.length + new - extensionTokenMaxActive
  if overCount > 0 then
    let _ ← .updateMany tokenTable .token
      (fun row ↦ row.tenantId = rls && row.id ∈ active.take overCount) (.revoke now)

/-- What is drawn for a new row: its id, its creation time and the plaintext token. -/
structure Draw where
  id : Uuid
  createdAt : Millis
  plaintext : String

section IssueExtension

/-- The arguments of `issueExtensionToken`, its clock reading and its draws. -/
structure IssueExtensionParams where
  userId : Uuid
  tenantId : Uuid
  scope : String
  cnfJkt : String
  now : Millis
  familyId : Uuid
  draw : Draw

variable (hashToken : String → String) (p : IssueExtensionParams)

/-- The row that `issueExtensionToken` creates. -/
def extensionRow (idleMinutes : Int) : ExtensionToken where
  id := p.draw.id
  userId := p.userId
  tenantId := p.tenantId
  tokenHash := hashToken p.draw.plaintext
  scope := p.scope
  expiresAt := p.now + idleMinutes * msPerMinute
  createdAt := p.draw.createdAt
  revokedAt := none
  familyId := p.familyId
  familyCreatedAt := p.now
  clientKind := .browserExtension
  cnfJkt := some p.cnfJkt

def issueExtensionToken : Server (Except Thrown ExtensionToken) := do
  match ← .readOnly fun db : Store ↦
      db.directory.tenants.find? (·.passkey.id = p.tenantId) with
  | none => return .error .tenantNotFound
  | some tenant =>
    let row := extensionRow hashToken p tenant.extensionTokenIdleTimeoutMinutes
    withUserTenantRls p.userId .issuedExtension fun rls ↦ do
      makeRoom rls p.userId p.now 1
      match ← createToken rls row with
      | .error thrown => return .error thrown
      | .ok _ => return .ok row

end IssueExtension

section IssueIos

/-- The arguments of `issueIosToken`, its clock reading and its draws; `source` is the presented row
when the pair replaces another one. -/
structure IssueIosParams where
  userId : Uuid
  tenantId : Uuid
  cnfJkt : String
  source : Option ExtensionToken
  now : Millis
  newFamilyId : Uuid
  access : Draw
  refresh : Draw

variable (hashToken : String → String) (p : IssueIosParams)

/-- `existingFamilyId ?? randomUUID()`. -/
def IssueIosParams.familyId : Uuid :=
  match p.source with
  | some presented => presented.familyId
  | none => p.newFamilyId

/-- `existingFamilyCreatedAt ?? now`. -/
def IssueIosParams.familyCreatedAt : Millis :=
  match p.source with
  | some presented => presented.familyCreatedAt
  | none => p.now

/-- A row of the pair that `issueIosToken` creates. -/
def iosRow (draw : Draw) (expiresAt : Millis) : ExtensionToken where
  id := draw.id
  userId := p.userId
  tenantId := p.tenantId
  tokenHash := hashToken draw.plaintext
  scope := ",".intercalate extensionTokenScopes
  expiresAt := expiresAt
  createdAt := draw.createdAt
  revokedAt := none
  familyId := p.familyId
  familyCreatedAt := p.familyCreatedAt
  clientKind := .iosApp
  cnfJkt := some p.cnfJkt

def iosAccessRow : ExtensionToken := iosRow hashToken p p.access (p.now + iosTokenIdleTimeoutMs)

def iosRefreshRow : ExtensionToken :=
  iosRow hashToken p p.refresh (p.familyCreatedAt + iosTokenAbsoluteTimeoutMs)

/-- The body of `issueIosToken`'s transaction. -/
def issueIosBody (rls : Uuid) : Server (Except Thrown IssuedIosToken) := do
  makeRoom rls p.userId p.now 2
  match ← createToken rls (iosAccessRow hashToken p) with
  | .error thrown => return .error thrown
  | .ok _ =>
    match ← createToken rls (iosRefreshRow hashToken p) with
    | .error thrown => return .error thrown
    | .ok _ =>
      return .ok
        { accessToken := p.access.plaintext
          refreshToken := p.refresh.plaintext
          expiresAt := p.now + iosTokenIdleTimeoutMs
          familyId := p.familyId
          familyCreatedAt := p.familyCreatedAt
          tokenId := p.access.id }

def issueIosToken : Server (Except Thrown IssuedIosToken) :=
  withUserTenantRls p.userId
    (fun _ ↦ .issuedPair p.source p.now (iosAccessRow hashToken p) (iosRefreshRow hashToken p))
    (issueIosBody hashToken p)

end IssueIos

section IssueAutofill

/-- The arguments of `issueAutofillToken`, its clock reading and its draws. -/
structure IssueAutofillParams where
  userId : Uuid
  tenantId : Uuid
  cnfJkt : String
  now : Millis
  familyId : Uuid
  draw : Draw

variable (hashToken : String → String) (p : IssueAutofillParams)

/-- The row that `issueAutofillToken` creates. -/
def autofillRow : ExtensionToken where
  id := p.draw.id
  userId := p.userId
  tenantId := p.tenantId
  tokenHash := hashToken p.draw.plaintext
  scope := "passwords:write"
  expiresAt := p.now + iosAutofillTokenTtlMs
  createdAt := p.draw.createdAt
  revokedAt := none
  familyId := p.familyId
  familyCreatedAt := p.now
  clientKind := .iosAutofill
  cnfJkt := some p.cnfJkt

def issueAutofillToken : Server (Except Thrown ExtensionToken) :=
  withUserTenantRls p.userId .issuedAutofill fun rls ↦ do
    let _ ← .updateMany tokenTable .token
      (fun row ↦ row.tenantId = rls && row.userId = p.userId && row.clientKind = .iosAutofill &&
        row.revokedAt.isNone) (.revoke p.now)
    match ← createToken rls (autofillRow hashToken p) with
    | .error thrown => return .error thrown
    | .ok _ => return .ok (autofillRow hashToken p)

end IssueAutofill

/-- `revokeExtensionTokenFamily` at the clock reading `now`. -/
def revokeExtensionTokenFamily (familyId : Uuid) (now : Millis) : Server (Except Thrown Nat) :=
  Prog.transaction (fun _ ↦ .familyRevoked familyId) do
    let count ← .updateMany tokenTable .token
      (fun row ↦ row.familyId = familyId && row.revokedAt.isNone) (.revoke now)
    return .ok count

section RefreshIos

inductive RefreshBody
  | tooLarge
  | invalidJson
  | invalidShape
  | refreshToken (token : String)

/-- A `POST /api/mobile/token/refresh` request: body and header, the verdicts of the gates, and what
the route and `refreshIosToken` draw from the clock and at random. -/
structure MobileRefreshRequest where
  body : RefreshBody
  bodyHash : String
  bearer : Option String
  accessAllowed : Bool
  withinRateLimit : Bool
  dpopValid : Bool
  now : Millis
  familyRevokedAt : Millis
  passkeyCheckedAt : Millis
  issuedAt : Millis
  newFamilyId : Uuid
  access : Draw
  refresh : Draw

inductive RefreshRefusal
  | payloadTooLarge
  | invalidJson
  | validationError
  | unauthorized
  | mobileRefreshTokenRevoked
  | accessDenied
  | rateLimited
  | mobileTokenBindingInvalid
  | mobileRefreshReuseDetected
  | mobileRefreshSessionExpired
  | passkeyRequired
  deriving DecidableEq

/-- What a refresh answers. -/
inductive RefreshOutcome
  | issued (token : IssuedIosToken) (replayed : Bool)
  | refused (refusal : RefreshRefusal)
  | thrown (error : Thrown)

/-- `RefreshRequestSchema` on the token. -/
def validRefreshToken (token : String) : Bool :=
  64 ≤ jsLength token && jsLength token ≤ 128 && token.toList.all fun c ↦ c.isAlphanum || c = '_' || c = '-'

/-- `rotationCache.get`. -/
def cachedRotation (db : Store) (tokenHash : String) : Option RotationRecord :=
  (db.rotationCache.find? (·.1 = tokenHash)).map (·.2)

/-- `rotationCache.set`, and the eviction that follows it. -/
def cacheRotation (tokenHash : String) (record : RotationRecord) (now : Millis) (db : Store) : Store :=
  let cache := if db.rotationCache.any (·.1 = tokenHash) then
      db.rotationCache.map fun entry ↦ if entry.1 = tokenHash then (tokenHash, record) else entry
    else db.rotationCache ++ [(tokenHash, record)]
  let live := cache.filter fun entry ↦ ¬ now - entry.2.issuedAt > refreshReplayGraceMs
  { db with rotationCache := if live.length > rotationCacheMax then [] else live }

variable (hashToken : String → String) (req : MobileRefreshRequest)

/-- The parameters with which `refreshIosToken` issues the new pair. -/
def rotationParams (oldRow : ExtensionToken) (cnfJkt : String) : IssueIosParams where
  userId := oldRow.userId
  tenantId := oldRow.tenantId
  cnfJkt := cnfJkt
  source := some oldRow
  now := req.issuedAt
  newFamilyId := req.newFamilyId
  access := req.access
  refresh := req.refresh

/-- The happy path of `refreshIosToken`: revoke the family, issue the new pair, cache it. -/
def rotateIosPair (oldRow : ExtensionToken) (cnfJkt : String) : Server RefreshOutcome := do
  let revoked ← withUserTenantRls oldRow.userId (fun _ ↦ .rotationRevoked oldRow req.access.id) fun rls ↦ do
      let count ← .updateMany tokenTable .token (fun row ↦ row.tenantId = rls && row.familyId = oldRow.familyId &&
          row.userId = oldRow.userId && row.revokedAt.isNone) (.revoke req.now)
      return .ok count
  match revoked with
  | .error thrown => return .thrown thrown
  | .ok _ =>
    match ← issueIosToken hashToken (rotationParams req oldRow cnfJkt) with
    | .error thrown => return .thrown thrown
    | .ok issued =>
      Prog.assign .cached (cacheRotation oldRow.tokenHash ⟨req.bodyHash, req.now, issued⟩ req.now)
      return .issued issued false

def refreshIosToken (oldRow : ExtensionToken) (cnfJkt : String) : Server RefreshOutcome := do
  if oldRow.revokedAt.isSome then
    match ← .readOnly fun db : Store ↦ cachedRotation db oldRow.tokenHash with
    | some cached =>
      if req.now - cached.issuedAt ≤ refreshReplayGraceMs ∧ cached.bodyHash = req.bodyHash then
        return .issued cached.token true
      else
        let _ ← revokeExtensionTokenFamily oldRow.familyId req.familyRevokedAt
        return .refused .mobileRefreshReuseDetected
    | none =>
      let _ ← revokeExtensionTokenFamily oldRow.familyId req.familyRevokedAt
      return .refused .mobileRefreshReuseDetected
  else if req.now - oldRow.familyCreatedAt > iosTokenAbsoluteTimeoutMs then
    let _ ← revokeExtensionTokenFamily oldRow.familyId req.familyRevokedAt
    return .refused .mobileRefreshSessionExpired
  else
    match ← .readOnly fun db : Store ↦ derivePasskeyState db.directory.credentialOwners
        (db.directory.tenants.map (·.passkey)) oldRow.userId oldRow.tenantId with
    | none => return .thrown .tenantNotFound
    | some state =>
      if passkeyEnforcementBlocks state req.passkeyCheckedAt then
        return .refused .passkeyRequired
      else
        rotateIosPair hashToken req oldRow cnfJkt

/-- The part of `POST /api/mobile/token/refresh` after the row was found. -/
def refreshFoundRow (oldRow : ExtensionToken) : Server RefreshOutcome := do
  if oldRow.clientKind ≠ .iosApp then
    return .refused .unauthorized
  if !(← .readOnly fun db : Store ↦
      activeMember db.directory.members oldRow.tenantId oldRow.userId) then
    return .refused .unauthorized
  match oldRow.cnfJkt with
  | none => return .refused .mobileRefreshTokenRevoked
  | some cnfJkt =>
    if cnfJkt = "" then
      return .refused .mobileRefreshTokenRevoked
    if !req.accessAllowed then
      return .refused .accessDenied
    if !req.withinRateLimit then
      return .refused .rateLimited
    if !req.dpopValid then
      return .refused .mobileTokenBindingInvalid
    refreshIosToken hashToken req oldRow cnfJkt

/-- `POST /api/mobile/token/refresh`. -/
def mobileTokenRefresh : Server RefreshOutcome := do
  match req.body with
  | .tooLarge => return .refused .payloadTooLarge
  | .invalidJson => return .refused .invalidJson
  | .invalidShape => return .refused .validationError
  | .refreshToken token =>
    if !validRefreshToken token then
      return .refused .validationError
    if req.bearer ≠ some token then
      return .refused .unauthorized
    match ← .readOnly fun db : Store ↦ db.tokens.find? (·.tokenHash = hashToken token) with
    | none => return .refused .unauthorized
    | some oldRow => refreshFoundRow hashToken req oldRow

end RefreshIos

section RefreshExtension

/-- A `POST /api/extension/token/refresh` request, with the verdicts of the gates and the draws. -/
structure ExtensionRefreshRequest where
  bearer : Option String
  validatedAt : Millis
  dpopValid : Bool
  accessAllowed : Bool
  withinRateLimit : Bool
  sessionCheckedAt : Millis
  now : Millis
  familyRevokedAt : Millis
  passkeyCheckedAt : Millis
  draw : Draw

inductive TokenValidationError
  | invalid
  | revoked
  | expired
  | dpopInvalid
  deriving DecidableEq

inductive ExtensionRefusal
  | validation (error : TokenValidationError)
  | accessDenied
  | rateLimited
  | unauthorized
  | sessionExpired
  | passkeyRequired
  | revoked

inductive ExtensionOutcome
  | issued (row : ExtensionToken)
  | refused (refusal : ExtensionRefusal)
  | thrown (error : Thrown)

variable (hashToken : String → String) (req : ExtensionRefreshRequest)

/-- `validateExtensionToken`: the row and its key thumbprint. A failed proof is reported as
`invalid` for an iOS token, and as `dpopInvalid` for the other kinds. -/
def validateExtensionToken : Server (Except TokenValidationError (ExtensionToken × String)) := do
  match req.bearer with
  | none => return .error .invalid
  | some plaintext =>
    match ← .readOnly fun db : Store ↦
        db.tokens.find? (·.tokenHash = hashToken plaintext) with
    | none => return .error .invalid
    | some token =>
      if token.revokedAt.isSome then
        return .error .revoked
      if token.expiresAt ≤ req.validatedAt then
        return .error .expired
      if !(← .readOnly fun db : Store ↦
          activeMember db.directory.members token.tenantId token.userId) then
        return .error .invalid
      match token.cnfJkt with
      | none => return .error .invalid
      | some cnfJkt =>
        if cnfJkt = "" then
          return .error .invalid
        if req.dpopValid then
          return .ok (token, cnfJkt)
        if token.clientKind = .iosApp then
          return .error .invalid
        return .error .dpopInvalid

/-- The row that an extension refresh creates: the kind is left to the column default. -/
def refreshedRow (token : ExtensionToken) (cnfJkt : String) (tenantId : Uuid) (idleMinutes : Int) :
    ExtensionToken where
  id := req.draw.id
  userId := token.userId
  tenantId := tenantId
  tokenHash := hashToken req.draw.plaintext
  scope := ",".intercalate (parseScopes token.scope)
  expiresAt := req.now + idleMinutes * msPerMinute
  createdAt := req.draw.createdAt
  revokedAt := none
  familyId := token.familyId
  familyCreatedAt := token.familyCreatedAt
  clientKind := .browserExtension
  cnfJkt := some cnfJkt

/-- The transaction of an extension refresh; it answers `none` when the old token is gone. -/
def rotateExtensionToken (token : ExtensionToken) (row : ExtensionToken) :
    Server (Except Thrown (Option ExtensionToken)) :=
  withUserTenantRls token.userId (fun created ↦ match created with
      | some row => .refreshedExtension token row
      | none => .nothing) fun rls ↦ do
    let revoked ← .updateMany tokenTable .token
      (fun other ↦ other.tenantId = rls && other.id = token.id && other.revokedAt.isNone &&
        other.expiresAt > req.now) (.revoke req.now)
    if revoked = 0 then
      return .ok none
    match ← createToken rls row with
    | .error thrown => return .error thrown
    | .ok _ => return .ok (some row)

def refreshWithSession (token : ExtensionToken) (cnfJkt : String) (session : AuthSession) :
    Server ExtensionOutcome := do
  match ← .readOnly fun db : Store ↦
      db.directory.tenants.find? (·.passkey.id = session.tenantId) with
  | none => return .thrown .tenantNotFound
  | some tenant =>
    if req.now - token.familyCreatedAt > tenant.extensionTokenAbsoluteTimeoutMinutes * msPerMinute then
      let _ ← revokeExtensionTokenFamily token.familyId req.familyRevokedAt
      return .refused .sessionExpired
    match ← .readOnly fun db : Store ↦ derivePasskeyState db.directory.credentialOwners
        (db.directory.tenants.map (·.passkey)) token.userId session.tenantId with
    | none => return .thrown .tenantNotFound
    | some state =>
      if passkeyEnforcementBlocks state req.passkeyCheckedAt then
        return .refused .passkeyRequired
      let row := refreshedRow hashToken req token cnfJkt session.tenantId tenant.extensionTokenIdleTimeoutMinutes
      match ← rotateExtensionToken req token row with
      | .error thrown => return .thrown thrown
      | .ok none => return .refused .revoked
      | .ok (some row) => return .issued row

/-- `POST /api/extension/token/refresh`. -/
def extensionTokenRefresh : Server ExtensionOutcome := do
  match ← validateExtensionToken hashToken req with
  | .error error => return .refused (.validation error)
  | .ok (token, cnfJkt) =>
    if !req.accessAllowed then
      return .refused .accessDenied
    if !req.withinRateLimit then
      return .refused .rateLimited
    match ← .readOnly fun db : Store ↦
        (resolveUserTenantId db.directory.members token.userId).map fun rls ↦
          db.directory.sessions.find? fun session ↦ session.tenantId = rls &&
            session.userId = token.userId && session.expires > req.sessionCheckedAt with
    | .error error => return .thrown (.tenant error)
    | .ok none => return .refused .unauthorized
    | .ok (some session) => refreshWithSession hashToken req token cnfJkt session

end RefreshExtension

/-- The operations whose steps a run interleaves. -/
inductive Request
  | issueExtension (p : IssueExtensionParams)
  | issueIos (p : IssueIosParams)
  | issueAutofill (p : IssueAutofillParams)
  | refreshIos (req : MobileRefreshRequest)
  | refreshExtension (req : ExtensionRefreshRequest)

/-- What an operation answers. -/
inductive Outcome
  | token (result : Except Thrown ExtensionToken)
  | pair (result : Except Thrown IssuedIosToken)
  | refreshIos (outcome : RefreshOutcome)
  | refreshExtension (outcome : ExtensionOutcome)

/-- The program that serves a request; an `issueIos` request is the first issue of a family. -/
def Request.serve (hashToken : String → String) : Request → Server Outcome
  | .issueExtension p => do return .token (← issueExtensionToken hashToken p)
  | .issueIos p => do return .pair (← issueIosToken hashToken { p with source := none })
  | .issueAutofill p => do return .token (← issueAutofillToken hashToken p)
  | .refreshIos req => do return .refreshIos (← mobileTokenRefresh hashToken req)
  | .refreshExtension req => do return .refreshExtension (← extensionTokenRefresh hashToken req)

end PasswdSso.Extension
