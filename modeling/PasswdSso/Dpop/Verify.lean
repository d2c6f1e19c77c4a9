import PasswdSso.Common
import PasswdSso.ExpiringClaims

/-!
# Verification of DPoP proofs

`verifyDpopProof` (`src/lib/auth/dpop/verify.ts`) with the `jti` cache of `jti-cache.ts`, in both of
its forms: the Redis key set with `PX … NX`, and the in-memory map with its size cap. JSON and base64
decoding, the ES256 check, the JWK thumbprint, URL matching and upper-casing are the platform's, and
parameters of the model (`Platform`).
-/

namespace PasswdSso.Dpop

inductive DpopVerifyError
  | headerMissing
  | parseError
  | badTyp
  | badAlg
  | badJwk
  | sigInvalid
  | htmMismatch
  | htuMismatch
  | iatOutOfWindow
  | jtiReplay
  | athRequired
  | athMismatch
  | cnfJktMismatch
  | nonceRequired
  | nonceInvalid
  deriving DecidableEq

/-- `DpopJwk`, with its constant members left out. -/
structure DpopJwk where
  x : String
  y : String

/-- An object in the place of the `jwk` header member; a member that is no string is absent. -/
structure JwkObject where
  kty : Option String
  crv : Option String
  x : Option String
  y : Option String
  hasD : Bool

/-- The members of the header that are read; a member of another type is absent. -/
structure DpopHeader where
  typ : Option String
  alg : Option String
  jwk : Option JwkObject

/-- The members of the payload that are read; a member of another type, or a number that is not
finite, is absent. -/
structure DpopPayload where
  htm : Option String
  htu : Option String
  iat : Option Rat
  jti : Option String
  ath : Option String
  nonce : Option String

/-- What `JSON.parse` made of a segment. -/
inductive Decoded (α : Type)
  | invalid
  | notObject
  | object (value : α)

structure ParsedJws where
  header : DpopHeader
  payload : DpopPayload
  signingInput : String
  signatureRaw : List UInt8

/-- What the verifier takes from the platform. -/
structure Platform where
  decodeHeader : String → Decoded DpopHeader
  decodePayload : String → Decoded DpopPayload
  decodeSignature : String → List UInt8
  verifyEs256 : DpopJwk → String → List UInt8 → Bool
  jwkThumbprint : DpopJwk → String
  htuMatches : String → String → Bool
  toUpperCase : String → String

structure DpopVerifyOptions where
  expectedHtm : String
  expectedHtu : String
  iatSkewSeconds : Option Rat
  expectedAth : Option String
  expectedCnfJkt : Option String
  expectedNonce : Option String

/-- `DpopProofClaims`; `cnf.jkt` is the thumbprint beside it. -/
structure DpopProofClaims where
  jti : String
  htm : String
  htu : String
  iat : Rat
  ath : Option String
  nonce : Option String

/-- Why a call does not return claims: an error with its detail, or an exception. -/
inductive DpopFailure
  | fail (error : DpopVerifyError) (detail : Option String)
  | thrown

def dpopDefaultSkewSeconds : Rat := 30

def dpopDefaultJtiTtlMs : Millis := msPerMinute

section Checks

variable (platform : Platform)

def parseJws (token : String) : Except String ParsedJws := do
  match (jsSplit '.' token.toList).map String.ofList with
  | [h, p, s] =>
    if h = "" ∨ p = "" ∨ s = "" then
      throw "empty segment"
    match platform.decodeHeader h, platform.decodePayload p with
    | .invalid, _ => throw "header/payload not valid JSON"
    | _, .invalid => throw "header/payload not valid JSON"
    | .notObject, _ => throw "header not object"
    | _, .notObject => throw "payload not object"
    | .object header, .object payload =>
      let signatureRaw := platform.decodeSignature s
      if signatureRaw.length = 0 then
        throw "empty signature"
      return ⟨header, payload, h ++ "." ++ p, signatureRaw⟩
  | _ => throw "expected 3 segments"

def extractEcJwk (value : Option JwkObject) : Option DpopJwk := do
  let obj ← value
  if obj.kty ≠ some "EC" ∨ obj.crv ≠ some "P-256" then
    none
  let x ← obj.x
  let y ← obj.y
  if x = "" ∨ y = "" ∨ obj.hasD then
    none
  return ⟨x, y⟩

/-- `safeStringEqual`: `timingSafeEqual` throws on byte strings of different lengths. -/
def safeStringEqual (a b : String) : Except DpopFailure Bool :=
  if jsLength a ≠ jsLength b then
    return false
  else if a.utf8ByteSize ≠ b.utf8ByteSize then
    throw .thrown
  else
    return a = b

/-- The return of `verifyDpopProof` with an error. -/
def fail {α : Type} (error : DpopVerifyError) (detail : Option String) : Except DpopFailure α :=
  throw (.fail error detail)

def mathAbs (x : Rat) : Rat := if x < 0 then -x else x

/-- The `iat` check, with the clock in whole seconds. -/
def inWindow (skew : Rat) (now : Millis) (iat : Rat) : Bool :=
  !decide (mathAbs ((now / msPerSecond : Int) - iat) > skew)

def checkHtm (options : DpopVerifyOptions) (payload : DpopPayload) : Except DpopFailure String :=
  match payload.htm with
  | none => fail .htmMismatch "htm missing"
  | some htm =>
    if platform.toUpperCase htm ≠ platform.toUpperCase options.expectedHtm then fail .htmMismatch none
    else return htm

def checkHtu (options : DpopVerifyOptions) (payload : DpopPayload) : Except DpopFailure String :=
  match payload.htu with
  | none => fail .htuMismatch "htu missing"
  | some htu =>
    if !platform.htuMatches htu options.expectedHtu then fail .htuMismatch none
    else return htu

def checkIat (options : DpopVerifyOptions) (payload : DpopPayload) (now : Millis) :
    Except DpopFailure Rat :=
  match payload.iat with
  | none => fail .iatOutOfWindow "iat missing"
  | some iat =>
    if !inWindow (options.iatSkewSeconds.getD dpopDefaultSkewSeconds) now iat then
      fail .iatOutOfWindow none
    else return iat

/-- The check that there is a `jti`. -/
def checkJti (payload : DpopPayload) : Except DpopFailure String :=
  match payload.jti with
  | none => fail .parseError "jti missing"
  | some jti => if jti = "" then fail .parseError "jti missing" else return jti

def checkBound (required mismatch : DpopVerifyError) (expected claim : Option String) :
    Except DpopFailure Unit :=
  match expected, claim with
  | none, _ => return ()
  | some _, none => fail required none
  | some expected, some claim => do
    if claim = "" then fail required none
    else if !(← safeStringEqual claim expected) then fail mismatch none
    else return ()

def checkCnfJkt (options : DpopVerifyOptions) (jkt : String) : Except DpopFailure Unit :=
  match options.expectedCnfJkt with
  | none => return ()
  | some expected => do
    if !(← safeStringEqual jkt expected) then fail .cnfJktMismatch none
    else return ()

def checkClaims (options : DpopVerifyOptions) (payload : DpopPayload) (jkt : String) (now : Millis) :
    Except DpopFailure DpopProofClaims := do
  let htm ← checkHtm platform options payload
  let htu ← checkHtu platform options payload
  let iat ← checkIat options payload now
  let jti ← checkJti payload
  checkBound .nonceRequired .nonceInvalid options.expectedNonce payload.nonce
  checkBound .athRequired .athMismatch options.expectedAth payload.ath
  checkCnfJkt options jkt
  return ⟨jti, htm, htu, iat, payload.ath, payload.nonce⟩

def checkParsed (options : DpopVerifyOptions) (now : Millis) (parsed : ParsedJws) :
    Except DpopFailure (DpopProofClaims × String) :=
  if parsed.header.typ ≠ some "dpop+jwt" then fail .badTyp none
  else if parsed.header.alg ≠ some "ES256" then fail .badAlg none
  else
    match extractEcJwk parsed.header.jwk with
    | none => fail .badJwk none
    | some jwk =>
      if parsed.signatureRaw.length ≠ 64 then
        fail .sigInvalid ("signature length " ++ toString parsed.signatureRaw.length)
      else if !platform.verifyEs256 jwk parsed.signingInput parsed.signatureRaw then
        fail .sigInvalid none
      else do
        let jkt := platform.jwkThumbprint jwk
        let claims ← checkClaims platform options parsed.payload jkt now
        return (claims, jkt)

/-- Everything that `verifyDpopProof` checks before it looks at the cache: the claims and the
thumbprint. -/
def checkProof (dpopHeader : Option String) (options : DpopVerifyOptions) (now : Millis) :
    Except DpopFailure (DpopProofClaims × String) :=
  match dpopHeader with
  | none => fail .headerMissing none
  | some token =>
    if token = "" then fail .headerMissing none
    else
      match parseJws platform token with
      | .error detail => fail .parseError detail
      | .ok parsed => checkParsed platform options now parsed

end Checks

/-- When a Redis key with an expiry is still there: at least until its expiry, and no longer after
it. -/
structure KeyExpiry where
  live : Millis → Millis → Bool
  live_before : ∀ expiresAt now, now < expiresAt → live expiresAt now = true
  gone_after : ∀ expiresAt now, expiresAt < now → live expiresAt now = false

/-- `InMemoryStore`: the map in insertion order. -/
structure InMemoryStore where
  map : List (String × Millis)
  maxSize : Nat

/-- `Map.prototype.get`. -/
def InMemoryStore.get (store : InMemoryStore) (key : String) : Option Millis :=
  (store.map.find? (·.1 = key)).map (·.2)

/-- `Map.prototype.set`. -/
def InMemoryStore.set (store : InMemoryStore) (key : String) (expiresAt : Millis) : InMemoryStore :=
  { store with map :=
      if store.map.any (·.1 = key) then
        store.map.map fun entry ↦ if entry.1 = key then (key, expiresAt) else entry
      else store.map ++ [(key, expiresAt)] }

/-- The eviction of `checkMemory` when the map is full: expired entries, or everything. -/
def InMemoryStore.evict (store : InMemoryStore) (now : Millis) : InMemoryStore :=
  if store.map.length ≥ store.maxSize then
    let kept := store.map.filter fun entry ↦ ¬ entry.2 ≤ now
    { store with map := if kept.length ≥ store.maxSize then [] else kept }
  else store

def checkMemory (store : InMemoryStore) (key : String) (ttlMs now : Millis) : Bool × InMemoryStore :=
  if (store.get key).any fun expiresAt ↦ expiresAt > now then (true, store)
  else (false, (store.evict now).set key (now + ttlMs))

def makeKey (jkt jti : String) : String := "dpop:jti:" ++ jkt ++ ":" ++ jti

/-- A cache that `createJtiCache` builds: Redis with its keys and their expiries, or the map. -/
inductive JtiCache
  | redis (expiry : KeyExpiry) (keys : String → Option Millis)
  | memory (store : InMemoryStore)

/-- `hasOrRecord`; a Redis command that fails counts as a replay. -/
def JtiCache.hasOrRecord (cache : JtiCache) (ttlMs : Millis) (jkt jti : String) (now : Millis)
    (redisFails : Bool) : Bool × JtiCache :=
  match cache with
  | .redis expiry keys =>
    if redisFails then (true, .redis expiry keys)
    else if (keys (makeKey jkt jti)).any (expiry.live · now) then (true, .redis expiry keys)
    else (false, .redis expiry (Function.update keys (makeKey jkt jti) (some (now + ttlMs))))
  | .memory store =>
    let result := checkMemory store (makeKey jkt jti) ttlMs now
    (result.1, .memory result.2)

/-- A call of `verifyDpopProof`, with the clock at the call and whether a Redis command would fail. -/
structure Call where
  dpopHeader : Option String
  options : DpopVerifyOptions
  now : Millis
  redisFails : Bool

/-- `verifyDpopProof`, with the cache that the options carry. -/
def verifyDpopProof (platform : Platform) (ttlMs : Millis) (cache : JtiCache) (call : Call) :
    Except DpopFailure (DpopProofClaims × String) × JtiCache :=
  match checkProof platform call.dpopHeader call.options call.now with
  | .error failure => (.error failure, cache)
  | .ok (claims, jkt) =>
    let result := cache.hasOrRecord ttlMs jkt claims.jti call.now call.redisFails
    if result.1 then (fail .jtiReplay none, result.2) else (.ok (claims, jkt), result.2)

/-- The results of a sequence of calls with one cache. -/
def verifyAll (platform : Platform) (ttlMs : Millis) :
    JtiCache → List Call → List (Except DpopFailure (DpopProofClaims × String))
  | _, [] => []
  | cache, call :: rest =>
    let result := verifyDpopProof platform ttlMs cache call
    result.1 :: verifyAll platform ttlMs result.2 rest

end PasswdSso.Dpop
