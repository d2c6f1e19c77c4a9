import PasswdSso.Vault.Wrapping

/-!
# The routes that write PRF wraps

`POST /api/webauthn/register/verify` creates a credential, with a wrap of the secret key under the
authenticator's PRF output when the client sends one; `POST /api/webauthn/credentials/[id]/prf` sets
the wrap of an existing credential after a rotation has cleared it.
-/

namespace PasswdSso.Vault

open ReadCommitted

section Register

/-- What `verifyRegistration` answers about a registration that it accepts. -/
structure RegistrationInfo where
  credentialId : String
  publicKey : String
  counter : Nat

/-- `POST /api/webauthn/register/verify`. `envelope` is what the Redis key of the challenge holds, if
it has the expected shape: the challenge and the salt. -/
structure RegisterRequest where
  userId : Uuid
  redisAvailable : Bool
  envelope : Option (String × Option String)
  rpIdConfigured : Bool
  registration : Option RegistrationInfo
  prf : Option KeyMaterial
  minPinLength : Option Nat
  id : Uuid

/-- `PER_CRED_SALT_HEX_RE`. -/
def isPerCredSaltHex (s : String) : Bool := isVerifierHex s

variable (req : RegisterRequest)

/-- The salt to persist: only with a PRF wrap, and only if it is canonical hex. -/
def RegisterRequest.prfSalt (perCredentialSalt : Option String) : Except Refusal (Option String) :=
  match req.prf, perCredentialSalt with
  | some _, some salt =>
    if isPerCredSaltHex salt then .ok (some salt)
    else .error (.validationError (some "Invalid PRF salt envelope"))
  | _, _ => .ok none

def RegisterRequest.credential (tenantId : Uuid) (info : RegistrationInfo)
    (prfSalt : Option String) : WebAuthnCredential where
  id := req.id
  userId := req.userId
  tenantId := tenantId
  credentialId := info.credentialId
  publicKey := info.publicKey
  counter := info.counter
  lastUsedAt := none
  lastUsedDevice := none
  prfWrap := req.prf
  prfSupported := req.prf.isSome
  prfSalt := prfSalt

/-- The checks before the database is read: the answers of Redis and of the WebAuthn library. -/
def RegisterRequest.verified : Except Refusal (RegistrationInfo × Option String) :=
  if req.redisAvailable = false then .error .serviceUnavailable
  else match req.envelope with
    | none => .error .invalidChallenge
    | some (_, perCredentialSalt) =>
      if req.rpIdConfigured = false then .error .serviceUnavailable
      else match req.registration with
        | none => .error (.validationError (some "Registration verification failed"))
        | some info => (req.prfSalt perCredentialSalt).map fun prfSalt ↦ (info, prfSalt)

/-- The tenant's policy on the PIN length, which binds only authenticators that report one. -/
def RegisterRequest.pinTooShort (tenant : Tenant) : Bool :=
  match tenant.requireMinPinLength, req.minPinLength with
  | some required, some reported => reported < required
  | _, _ => false

/-- What registration reads: the user, the user's tenant, and (for the record) the current key. -/
def RegisterRequest.userInfo (db : Store) : Option (User × Option Tenant) × Option VaultKey :=
  ((db.users req.userId).map fun user ↦ (user, db.tenants.find? (·.id = user.tenantId)), db.currentKey req.userId)

/-- `webAuthnCredential.create`; the foreign key to the user is checked under `FOR KEY SHARE`. -/
def createCredential (row : WebAuthnCredential) : Server (Except Thrown Unit) := do
  if ← .lockingRead [(.userKey row.userId, .share)] fun db ↦ (db.users row.userId).isSome then
    if ← .insert [.credential row.id, .credentialId row.credentialId]
        (fun db : Store ↦ db.credentials.any fun other ↦
          other.id = row.id || other.credentialId = row.credentialId)
        (credentialTable.append [row]) then
      return .error .uniqueViolation
    return .ok ()
  return .error .foreignKeyViolation

/-- The event of a registration. -/
def RegisterRequest.event (checked : Option VaultKey) : Event :=
  match req.prf with
  | some wrap => .prfWrapped req.userId checked wrap
  | none => .other

/-- `POST /api/webauthn/register/verify`. -/
def registerPasskey : Server (Except Refusal Unit) := do
  match req.verified with
  | .error refusal => return .error refusal
  | .ok (info, prfSalt) =>
    match ← readAsUser req.userId req.userInfo with
    | .error thrown => return .error (.thrown thrown)
    | .ok (none, _) => return .error (.thrown .userNotFound)
    | .ok (some (_, none), _) => return .error (.thrown .tenantNotFound)
    | .ok (some (user, some tenant), checked) =>
      if req.pinTooShort tenant then
        return .error .pinLengthPolicyNotSatisfied
      else
        return (← withUserTenantRls req.userId (fun _ ↦ req.event checked)
            fun _ ↦ createCredential (req.credential user.tenantId info prfSalt)).mapError .thrown

end Register

section Rebootstrap

/-- The assertion of a request: what Redis and the environment answer, what `verifyAuthentication` says about a
stored credential (the new counter, if it accepts), and the device in the user agent. -/
structure Assertion where
  redisAvailable : Bool
  challengeFound : Bool
  rpIdConfigured : Bool
  responseCredentialId : Option String
  verify : WebAuthnCredential → Option Nat
  now : Millis
  device : Option String

/-- `reason` of a failed `VerifyAssertionResult`. -/
inductive AssertionFailure
  | redisUnavailable
  | rpIdUnconfigured
  | challengeMissing
  | responseCredentialIdMissing
  | credentialNotFound
  | signatureInvalid
  | counterMismatch
  deriving DecidableEq

/-- `status` of a failed `VerifyAssertionResult`. -/
def AssertionFailure.status : AssertionFailure → Nat
  | .redisUnavailable => 503
  | .rpIdUnconfigured => 503
  | .challengeMissing => 400
  | .responseCredentialIdMissing => 400
  | .credentialNotFound => 404
  | .signatureInvalid => 400
  | .counterMismatch => 400

/-- The checks of `verifyAssertionCore` before it reads the credential. -/
def Assertion.credentialId (assertion : Assertion) : Except AssertionFailure String :=
  if assertion.redisAvailable = false then .error .redisUnavailable
  else if assertion.challengeFound = false then .error .challengeMissing
  else if assertion.rpIdConfigured = false then .error .rpIdUnconfigured
  else match assertion.responseCredentialId with
    | none => .error .responseCredentialIdMissing
    | some credentialId =>
      if credentialId = "" then .error .responseCredentialIdMissing else .ok credentialId

/-- What an accepted assertion writes to its credential. -/
structure AssertionUse where
  counter : Nat
  lastUsedAt : Millis
  lastUsedDevice : Option String

/-- `SET counter, last_used_at, last_used_device`. -/
def WebAuthnCredential.advance (use : AssertionUse) (row : WebAuthnCredential) : WebAuthnCredential :=
  { row with counter := use.counter, lastUsedAt := some use.lastUsedAt, lastUsedDevice := use.lastUsedDevice }

/-- `verifyAssertionAnyCredential`; the answer is the id of the asserted credential. -/
def verifyAssertionAnyCredential (userId : Uuid) (assertion : Assertion) :
    Server (Except AssertionFailure String) := do
  match assertion.credentialId with
  | .error failure => return .error failure
  | .ok credentialId =>
    match ← .read fun db : Store ↦ db.credentials.find? fun row ↦
        row.userId = userId && row.credentialId = credentialId with
    | none => return .error .credentialNotFound
    | some stored =>
      match assertion.verify stored with
      | none => return .error .signatureInvalid
      | some newCounter =>
        let updatedRows ← .updateMany credentialTable .credential
          (fun row ↦ row.id = stored.id && row.counter = stored.counter)
          (.advance ⟨newCounter, assertion.now, assertion.device⟩)
        if updatedRows = 0 then return .error .counterMismatch
        else return .ok stored.credentialId

/-- `POST /api/webauthn/credentials/[id]/prf`. -/
structure RebootstrapRequest where
  userId : Uuid
  credentialRowId : Uuid
  assertion : Assertion
  wrap : KeyMaterial
  keyVersion : Nat

/-- `RebootstrapOutcome`, all of which commit; `ok` has, for the record, the key that was current. -/
inductive RebootstrapOutcome
  | ok (credentialId : String) (checked : Option VaultKey)
  | stale (currentKeyVersion : Option Nat)
  | wrongCredential
  | assertionFailed (failure : AssertionFailure)

variable (req : RebootstrapRequest)

/-- The event of a rebootstrap transaction. -/
def RebootstrapRequest.event : RebootstrapOutcome → Event
  | .ok _ checked => .prfWrapped req.userId checked req.wrap
  | _ => .other

/-- `SET prf_encrypted_secret_key, prf_secret_key_iv, prf_secret_key_auth_tag`. -/
def WebAuthnCredential.rewrap (wrap : KeyMaterial) (row : WebAuthnCredential) : WebAuthnCredential :=
  { row with prfWrap := some wrap }

def rebootstrapWrite (credentialId : String) : Server (Except Thrown RebootstrapOutcome) := do
  let (user, checked) ← .read fun db : Store ↦ (db.users req.userId, db.currentKey req.userId)
  if user.map User.keyVersion = some req.keyVersion then
    let count ← .updateMany credentialTable .credential
      (fun row ↦ row.id = req.credentialRowId && row.userId = req.userId) (.rewrap req.wrap)
    if count = 0 then return .error .recordNotFound
    else return .ok (.ok credentialId checked)
  else return .ok (.stale (user.map User.keyVersion))

/-- The transaction of `POST /api/webauthn/credentials/[id]/prf`. -/
def rebootstrapBody (ownedCredentialId : String) : Server (Except Thrown RebootstrapOutcome) := do
  Prog.lockingRead [(.advisory req.userId, .exclusive)] fun _ ↦ ()
  match ← verifyAssertionAnyCredential req.userId req.assertion with
  | .error failure => return .ok (.assertionFailed failure)
  | .ok credentialId =>
    if credentialId ≠ ownedCredentialId then return .ok .wrongCredential
    else rebootstrapWrite req credentialId

def RebootstrapOutcome.response : RebootstrapOutcome → Except Refusal Unit
  | .ok _ _ => .ok ()
  | .stale currentKeyVersion => .error (.conflict currentKeyVersion)
  | .wrongCredential => .error .forbidden
  | .assertionFailed failure => .error (.assertionFailed failure.status)

/-- `POST /api/webauthn/credentials/[id]/prf`. -/
def prfRebootstrap : Server (Except Refusal Unit) := do
  match ← readAsUser req.userId fun db ↦ db.credentials.find? fun row ↦
      row.id = req.credentialRowId && row.userId = req.userId with
  | .error thrown => return .error (.thrown thrown)
  | .ok none => return .error .notFound
  | .ok (some owned) =>
    match ← withUserTenantRls req.userId req.event fun _ ↦ rebootstrapBody req owned.credentialId with
    | .error thrown => return .error (.thrown thrown)
    | .ok outcome => return outcome.response

end Rebootstrap

end PasswdSso.Vault
