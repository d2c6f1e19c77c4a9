import PasswdSso.Vault.Store

/-!
# The routes that wrap the secret key under a passphrase or a recovery key

`POST /api/vault/setup`, `/change-passphrase`, `/recovery-key/generate` and the reset step of
`/recovery-key/recover`. A request is one that has passed authentication, the rate limiter and its
schema; what a route draws from the clock or at random is a field of it, and so is whether the
invalidation of sessions after the commit succeeds.
-/

namespace PasswdSso.Vault

open ReadCommitted

abbrev Server (α : Type) := Prog Store Lock Event α

/-- The configured secrets, under the hash functions that use them. -/
structure Env where
  /-- HMAC-SHA-256 in hex under the verifier pepper of a version, if that pepper is configured. -/
  hmac : Nat → String → Option String
  /-- SHA-256 in hex, of a string. -/
  sha256 : String → String
  /-- SHA-256 in hex, of bytes. -/
  sha256Bytes : List UInt8 → String

inductive Thrown
  | tenant (error : TenantError)
  | uniqueViolation
  | recordNotFound
  | foreignKeyViolation
  | verifierPepper
  | userNotFound
  | tenantNotFound
  | notFound
  | keyVersionMismatch (expected : Option Nat) (received : Nat)
  | rotationCasConflict
  | legacyAttachmentsResidual
  | mode2InvariantViolation
  | attachmentCekManifestMismatch
  | legacyAttachmentInconsistentVersion
  | attachmentCekWrapAadVersionMismatch
  | rotationPostCondition
  | entryCountMismatch
  | historyCountMismatch
  | attachmentLimit
  | legacyMigrationNotApplicable
  | legacyBodyHashMismatch
  | transitionMatchedMany
  deriving DecidableEq

/-- The error responses. -/
inductive Refusal
  | unauthorized
  | forbidden
  | notFound
  | internalError
  | serviceUnavailable
  | validationError (message : Option String)
  | vaultAlreadySetup
  | vaultNotSetup
  | verifierNotSet
  | invalidPassphrase
  | recoveryKeyNotSet
  | invalidRecoveryKey
  | sessionInvalidateFailed
  | invalidChallenge
  | pinLengthPolicyNotSatisfied
  | assertionFailed (status : Nat)
  | conflict (currentKeyVersion : Option Nat)
  | keyVersionMismatch
  | keyVersionWithoutReencrypt
  | historyNotFound
  | entryCountMismatch
  | attachmentMigrationIncomplete
  | attachmentKeyManifestMismatch
  | attachmentInconsistentVersion
  | attachmentLimitExceeded
  | quotaExceeded
  | legacyMigrationNotApplicable
  | legacyIntegrityMismatch
  | thrown (error : Thrown)
  deriving DecidableEq

/-- `withUserTenantRls` around a transaction that writes; the body gets the tenant. -/
def withUserTenantRls {α : Type} (userId : Uuid) (label : α → Event)
    (body : Uuid → Server (Except Thrown α)) : Server (Except Thrown α) := do
  match ← .readOnly fun db : Store ↦ resolveUserTenantId db.members userId with
  | .error error => return .error (.tenant error)
  | .ok tenantId => .transaction label (body tenantId)

/-- `withUserTenantRls` around one read. -/
def readAsUser {α : Type} (userId : Uuid) (f : Store → α) : Server (Except Thrown α) := do
  match ← .readOnly fun db : Store ↦ resolveUserTenantId db.members userId with
  | .error error => return .error (.tenant error)
  | .ok _ =>
    let result ← .readOnly f
    return .ok result

/-- `user.update`, which throws when there is no row. -/
def updateUser (userId : Uuid) (f : User → User) : Server (Except Thrown Unit) := do
  if ← .write [(.user userId, .exclusive)] (Store.setUser · userId f) fun db ↦ (db.users userId).isSome then
    return .ok ()
  return .error .recordNotFound

def verifierVersion : Nat := 1

/-- `VERIFIER_HEX_RE`. -/
def isVerifierHex (s : String) : Bool :=
  s.toList.length = 64 && s.toList.all fun c ↦ ('0' ≤ c && c ≤ '9') || ('a' ≤ c && c ≤ 'f')

/-- `String.prototype.toLowerCase`, as far as the hex digits are concerned. -/
def lowerHex (s : String) : String := String.ofList (s.toList.map Char.toLower)

def truthy (s : Option String) : Bool := s.any (· ≠ "")

/-- `hmacVerifier`; `none` is the throw. -/
@[irreducible] def hmacVerifier (env : Env) (verifierHash : String) (version : Nat) : Option String :=
  if isVerifierHex (lowerHex verifierHash) then env.hmac version (lowerHex verifierHash) else none

inductive VerifyResult
  | ok
  | wrongPassphrase
  | missingPepperVersion
  deriving DecidableEq

/-- `verifyPassphraseVerifier`. Both sides of the comparison are lower-case hex of the same length,
so that comparing the bytes is comparing the strings. -/
@[irreducible] def verifyPassphraseVerifier (env : Env) (clientVerifierHash storedHmac : String)
    (storedVersion : Nat) : VerifyResult :=
  if isVerifierHex (lowerHex clientVerifierHash) = false then .wrongPassphrase
  else if isVerifierHex (lowerHex storedHmac) = false then .wrongPassphrase
  else match hmacVerifier env clientVerifierHash storedVersion with
    | none => .missingPepperVersion
    | some computed => if computed = lowerHex storedHmac then .ok else .wrongPassphrase

/-- The checks that change-passphrase and recovery-key generation make on the user row. -/
def checkPassphrase (env : Env) (user : Option User) (currentVerifierHash : String) :
    Except Refusal Unit :=
  match user with
  | none => .error .vaultNotSetup
  | some user =>
    if user.vaultSetupAt.isNone then .error .vaultNotSetup
    else if truthy user.passphraseVerifierHmac = false then .error .verifierNotSet
    else match verifyPassphraseVerifier env currentVerifierHash
        (user.passphraseVerifierHmac.getD "") user.passphraseVerifierVersion with
      | .ok => .ok ()
      | _ => .error .invalidPassphrase

section Setup

/-- `POST /api/vault/setup`. -/
structure SetupRequest where
  userId : Uuid
  wrap : KeyMaterial
  accountSalt : String
  authHash : String
  verifierHash : String
  verification : KeyMaterial
  ecdhPublicKey : String
  ecdhPrivateKey : Sealed
  kdfParams : Option Kdf
  now : Millis
  serverSalt : String

def pbkdf2Iterations : Nat := 600000

variable (env : Env) (req : SetupRequest)

def SetupRequest.kdf : Kdf where
  kdfType := (req.kdfParams.map Kdf.kdfType).getD 0
  kdfIterations := (req.kdfParams.map Kdf.kdfIterations).getD pbkdf2Iterations
  kdfMemory := none
  kdfParallelism := none

/-- The user row after setup. -/
def SetupRequest.user (verifierHmac : String) (user : User) : User :=
  { user with
    vaultSetupAt := some req.now
    accountSalt := some req.accountSalt
    passphraseWrap := some req.wrap
    masterPasswordServerHash := some (env.sha256 (req.authHash ++ req.serverSalt))
    masterPasswordServerSalt := some req.serverSalt
    keyVersion := 1
    kdf := req.kdf
    passphraseVerifierHmac := some verifierHmac
    passphraseVerifierVersion := verifierVersion
    ecdhPublicKey := some req.ecdhPublicKey
    ecdhPrivateKey := some req.ecdhPrivateKey }

def SetupRequest.key (tenantId : Uuid) : VaultKey := ⟨req.userId, tenantId, 1, req.verification⟩

def createVaultKey (key : VaultKey) : Server (Except Thrown Unit) := do
  if ← .insert [.vaultKey (key.userId, key.version)]
      (fun db : Store ↦ (db.vaultKey key.userId key.version).isSome) (vaultKeyTable.append [key]) then
    return .error .uniqueViolation
  return .ok ()

/-- The transaction of `POST /api/vault/setup`. -/
def setupBody (tenantId : Uuid) : Server (Except Thrown Unit) := do
  match hmacVerifier env req.verifierHash verifierVersion with
  | none => return .error .verifierPepper
  | some verifierHmac =>
    Prog.andThen (updateUser req.userId (req.user env verifierHmac)) fun _ ↦
      createVaultKey (req.key tenantId)

/-- `POST /api/vault/setup`. -/
def setup : Server (Except Refusal Unit) := do
  match ← readAsUser req.userId fun db ↦ db.users req.userId with
  | .error thrown => return .error (.thrown thrown)
  | .ok none => return .error .unauthorized
  | .ok (some existing) =>
    if existing.vaultSetupAt.isSome then
      return .error .vaultAlreadySetup
    else if (req.kdfParams.any fun params ↦ params.kdfType ≠ 0) then
      return .error (.validationError none)
    else
      return (← withUserTenantRls req.userId (fun _ ↦ .setup (req.key existing.tenantId) req.wrap)
          fun _ ↦ setupBody env req existing.tenantId).mapError .thrown

end Setup

section ChangePassphrase

/-- `POST /api/vault/change-passphrase`. -/
structure ChangePassphraseRequest where
  userId : Uuid
  currentVerifierHash : String
  wrap : KeyMaterial
  accountSalt : String
  newVerifierHash : String
  sessionsInvalidated : Bool

variable (env : Env) (req : ChangePassphraseRequest)

/-- The user row after change-passphrase. -/
def ChangePassphraseRequest.user (verifierHmac : String) (user : User) : User :=
  { user with
    accountSalt := some req.accountSalt
    passphraseWrap := some req.wrap
    passphraseVerifierHmac := some verifierHmac
    passphraseVerifierVersion := verifierVersion }

/-- The transaction of `POST /api/vault/change-passphrase`. -/
def changePassphraseBody : Server (Except Thrown Unit) := do
  match hmacVerifier env req.newVerifierHash verifierVersion with
  | none => return .error .verifierPepper
  | some verifierHmac => updateUser req.userId (req.user verifierHmac)

/-- `POST /api/vault/change-passphrase`. -/
def changePassphrase : Server (Except Refusal Unit) := do
  match ← readAsUser req.userId fun db ↦ (db.users req.userId, db.currentKey req.userId) with
  | .error thrown => return .error (.thrown thrown)
  | .ok (user, checked) =>
    match checkPassphrase env user req.currentVerifierHash with
    | .error refusal => return .error refusal
    | .ok _ =>
      match ← withUserTenantRls req.userId (fun _ ↦ .rewrapped req.userId checked (some req.wrap) none)
          fun _ ↦ changePassphraseBody env req with
      | .error thrown => return .error (.thrown thrown)
      | .ok _ =>
        if req.sessionsInvalidated then return .ok () else return .error .sessionInvalidateFailed

end ChangePassphrase

/-- `POST /api/vault/recovery-key/generate`. -/
structure GenerateRecoveryRequest where
  userId : Uuid
  currentVerifierHash : String
  wrap : KeyMaterial
  hkdfSalt : String
  verifierHash : String
  now : Millis

/-- The user row after the recovery key was stored. -/
def GenerateRecoveryRequest.user (req : GenerateRecoveryRequest) (verifierHmac : String) (user : User) : User :=
  { user with
    recoveryWrap := some req.wrap
    recoveryHkdfSalt := some req.hkdfSalt
    recoveryVerifierHmac := some verifierHmac
    recoveryVerifierVersion := verifierVersion
    recoveryKeySetAt := some req.now
    recoveryKeyInvalidatedAt := none }

/-- The transaction of `POST /api/vault/recovery-key/generate`. -/
def generateRecoveryBody (env : Env) (req : GenerateRecoveryRequest) : Server (Except Thrown Unit) := do
  match hmacVerifier env req.verifierHash verifierVersion with
  | none => return .error .verifierPepper
  | some verifierHmac => updateUser req.userId (req.user verifierHmac)

/-- `POST /api/vault/recovery-key/generate`. -/
def generateRecovery (env : Env) (req : GenerateRecoveryRequest) : Server (Except Refusal Unit) := do
  match ← readAsUser req.userId fun db ↦ (db.users req.userId, db.currentKey req.userId) with
  | .error thrown => return .error (.thrown thrown)
  | .ok (user, checked) =>
    match checkPassphrase env user req.currentVerifierHash with
    | .error refusal => return .error refusal
    | .ok _ =>
      return (← withUserTenantRls req.userId (fun _ ↦ .rewrapped req.userId checked none (some req.wrap))
          fun _ ↦ generateRecoveryBody env req).mapError .thrown

/-- The reset step of `POST /api/vault/recovery-key/recover`. -/
structure RecoverRequest where
  userId : Uuid
  verifierHash : String
  wrap : KeyMaterial
  accountSalt : String
  newVerifierHash : String
  recoveryWrap : KeyMaterial
  recoveryHkdfSalt : String
  recoveryVerifierHash : String
  now : Millis
  sessionsInvalidated : Bool

/-- The user row after recovery. -/
def RecoverRequest.user (req : RecoverRequest) (verifierHmac recoveryVerifierHmac : String) (user : User) : User :=
  { user with
    passphraseWrap := some req.wrap
    accountSalt := some req.accountSalt
    passphraseVerifierHmac := some verifierHmac
    passphraseVerifierVersion := verifierVersion
    recoveryWrap := some req.recoveryWrap
    recoveryHkdfSalt := some req.recoveryHkdfSalt
    recoveryVerifierHmac := some recoveryVerifierHmac
    recoveryVerifierVersion := verifierVersion
    recoveryKeySetAt := some req.now
    failedUnlockAttempts := 0
    lastFailedUnlockAt := none
    accountLockedUntil := none }

def checkRecoveryKey (env : Env) (user : Option User) (verifierHash : String) :
    Except Refusal Unit :=
  match user with
  | none => .error .recoveryKeyNotSet
  | some user =>
    if truthy user.recoveryVerifierHmac = false then .error .recoveryKeyNotSet
    else match verifyPassphraseVerifier env verifierHash (user.recoveryVerifierHmac.getD "")
        user.recoveryVerifierVersion with
      | .ok => .ok ()
      | _ => .error .invalidRecoveryKey

/-- The transaction of `handleReset`. -/
def recoverBody (env : Env) (req : RecoverRequest) : Server (Except Thrown Unit) := do
  match hmacVerifier env req.newVerifierHash verifierVersion,
      hmacVerifier env req.recoveryVerifierHash verifierVersion with
  | some verifierHmac, some recoveryVerifierHmac =>
    updateUser req.userId (req.user verifierHmac recoveryVerifierHmac)
  | _, _ => return .error .verifierPepper

/-- `handleReset` of `POST /api/vault/recovery-key/recover`. -/
def recoverReset (env : Env) (req : RecoverRequest) : Server (Except Refusal Unit) := do
  match ← readAsUser req.userId fun db ↦ (db.users req.userId, db.currentKey req.userId) with
  | .error thrown => return .error (.thrown thrown)
  | .ok (user, checked) =>
    match checkRecoveryKey env user req.verifierHash with
    | .error refusal => return .error refusal
    | .ok _ =>
      match ← .transaction (fun _ ↦ .rewrapped req.userId checked (some req.wrap) (some req.recoveryWrap))
          (recoverBody env req) with
      | .error thrown => return .error (.thrown thrown)
      | .ok _ =>
        if req.sessionsInvalidated then return .ok () else return .error .sessionInvalidateFailed

end PasswdSso.Vault
