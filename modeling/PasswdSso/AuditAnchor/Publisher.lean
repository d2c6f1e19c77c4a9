import PasswdSso.Audit.Chain
import PasswdSso.ReadCommitted.Statement

/-!
# The publisher of audit anchors

`runCadence` collects the heads of the audit chains into a signed manifest, uploads it to the
destinations, and records where it is, so that the next manifest can refer to it. It does so in one
transaction under an advisory lock. The uploads are made within the transaction and take effect at once,
whatever becomes of it; the transaction may expire meanwhile, and with it the lock. An upload, the commit
and the bookkeeping after a failure can each fail, and the process can die at any of these points: an
`Execution` says what happens. What only goes to the audit log is left out.
-/

namespace PasswdSso.AuditAnchor

open ReadCommitted
open Audit (Bytes Runtime jcsCanonical)

section Manifests

/-- What the publisher takes from Node and from its libraries: HMAC-SHA-256, Ed25519 signatures, the test
for URLs of the schema library, and its text for a manifest that does not fit the schema. -/
structure Env where
  rt : Runtime
  hmacSha256 : Bytes → Bytes → Bytes
  ed25519 : Bytes → Bytes → Bytes
  isUrl : String → Bool
  schemaError : String

variable (env : Env)

/-- An `audit_chain_anchors` row. -/
structure ChainAnchor where
  tenantId : Uuid
  chainSeq : Int
  prevHash : Bytes
  epoch : Option Int
  publishPausedUntil : Option Millis
  lastPublishedAt : Option Millis
  updatedAt : Millis

structure ManifestRef where
  uri : String
  sha256 : String

structure TenantEntry where
  tenantTag : String
  chainSeq : String
  prevHash : String
  epoch : Int

/-- `Manifest`, without its constant fields. -/
structure Manifest where
  deploymentId : String
  anchoredAt : String
  previousManifest : Option ManifestRef
  tenants : List TenantEntry

def Manifest.json (manifest : Manifest) : Json :=
  .object [("$schema", .str "https://passwd-sso.example/schemas/audit-anchor-manifest-v1.json"),
    ("version", .num (.ofNat 1)),
    ("issuer", .str "passwd-sso"),
    ("deploymentId", .str manifest.deploymentId),
    ("anchoredAt", .str manifest.anchoredAt),
    ("previousManifest", match manifest.previousManifest with
      | none => .null
      | some ref => .object [("uri", .str ref.uri), ("sha256", .str ref.sha256)]),
    ("tenants", .arr (manifest.tenants.foldr (fun entry rest ↦ .cons (.object [
      ("tenantTag", .str entry.tenantTag), ("chainSeq", .str entry.chainSeq),
      ("prevHash", .str entry.prevHash), ("epoch", .num (.ofNat entry.epoch.toNat))]) rest) .nil))]

def canonicalize (manifest : Manifest) : Bytes := utf8 (jcsCanonical manifest.json)

/-- Bytes in hexadecimal. -/
def hex (bytes : Bytes) : String := String.ofList (hexText bytes)

/-- `[0-9a-f]`. -/
def isHexDigit (c : Char) : Bool := ('0' ≤ c && c ≤ '9') || ('a' ≤ c && c ≤ 'f')

def isHexGroups : List Nat → List Char → Bool
  | [], text => text.isEmpty
  | [length], text => text.length = length && text.all isHexDigit
  | length :: rest, text =>
    (text.take length).length = length && (text.take length).all isHexDigit &&
      (text.drop length).head? = some '-' && isHexGroups rest (text.drop (length + 1))

/-- `/^[0-9a-f]{64}$/`. -/
def isHex64 (text : String) : Bool := isHexGroups [64] text.toList

def validateTenantIdCanonical (tenantId : String) : Except String Unit :=
  if isHexGroups [8, 4, 4, 4, 12] tenantId.toList then .ok ()
  else .error ("Invalid tenantId format; expected canonical lower-case UUID (RFC 4122 §3): got " ++ tenantId)

/-- `AUDIT_ANCHOR_TAG_DOMAIN`. -/
def tagDomain : String := "audit-anchor-tag-v1"

def computeTenantTag (tenantId : String) (tagSecret : Bytes) : Except String String := do
  validateTenantIdCanonical tenantId
  if tagSecret.length = 32 then
    return hex (env.hmacSha256 tagSecret (utf8 tagDomain.toList ++ 0 :: utf8 tenantId.toList))
  else .error "tagSecret must be exactly 32 bytes"

/-- `/^(0|[1-9][0-9]*)$/`. -/
def isDecimal (text : String) : Bool :=
  match text.toList with
  | [] => false
  | first :: rest => (first :: rest).all Char.isDigit && (first ≠ '0' || rest.isEmpty)

/-- `tenantEntrySchema`. -/
def TenantEntry.fits (entry : TenantEntry) : Bool :=
  isHex64 entry.tenantTag && isDecimal entry.chainSeq &&
    (isHexGroups [64] entry.prevHash.toList || isHexGroups [2] entry.prevHash.toList) && 1 ≤ entry.epoch

/-- `validateManifest`; the other fields have the right types anyway. -/
def validateManifest (manifest : Manifest) : Except String Manifest :=
  if manifest.tenants.all TenantEntry.fits then .ok manifest else .error env.schemaError

def tenantEntry (tagSecret : Bytes) (anchor : ChainAnchor) : Except String TenantEntry := do
  let tenantTag ← computeTenantTag env (env.rt.uuidText anchor.tenantId) tagSecret
  return ⟨tenantTag, toString anchor.chainSeq, hex anchor.prevHash, anchor.epoch.getD 1⟩

def buildManifest (tenants : List ChainAnchor) (deploymentId : String) (anchoredAt : Millis)
    (previousManifest : Option ManifestRef) (tagSecret : Bytes) : Except String Manifest := do
  tenants.forM fun anchor ↦ validateTenantIdCanonical (env.rt.uuidText anchor.tenantId)
  let entries ← tenants.mapM (tenantEntry env tagSecret)
  validateManifest env ⟨deploymentId, env.rt.toISOString anchoredAt, previousManifest, entries⟩

theorem buildManifest_previousManifest {tenants : List ChainAnchor} {deploymentId : String}
    {anchoredAt : Millis} {previousManifest : Option ManifestRef} {tagSecret : Bytes} {manifest : Manifest}
    (h : buildManifest env tenants deploymentId anchoredAt previousManifest tagSecret = .ok manifest) :
    manifest.previousManifest = previousManifest := by
  simp only [buildManifest, bind, Except.bind] at h
  split at h
  · cases h
  split at h
  · cases h
  unfold validateManifest at h
  split_ifs at h
  rw [← Except.ok.inj h]

structure Jws where
  kid : String
  payload : Bytes
  signature : Bytes

/-- `AUDIT_ANCHOR_KID_PREFIX`. -/
def kidStart : String := "audit-anchor-"

/-- `[a-zA-Z0-9_-]`. -/
def isKidChar (c : Char) : Bool := c.isAlphanum || c = '_' || c = '-'

/-- The test for key identifiers of `sign`. -/
def isKid (kid : String) : Bool :=
  let rest := kid.toList.drop kidStart.length
  kid.toList.take kidStart.length = kidStart.toList && 8 ≤ rest.length && rest.length ≤ 32 && rest.all isKidChar

/-- `sign`; what is signed also covers the header, which only depends on the key identifier. -/
def sign (canonicalBytes signingKey : Bytes) (kid : String) : Except String Jws :=
  if isKid kid then .ok ⟨kid, canonicalBytes, env.ed25519 signingKey (utf8 kid.toList ++ canonicalBytes)⟩
  else .error ("Invalid kid format: got " ++ kid ++ "; expected " ++ kidStart ++ "<8-32 chars [a-zA-Z0-9_-]>")

end Manifests

/-- What the publisher works on: the tenants with an audit chain, the heads of the chains, the row
`audit_anchor_previous_manifest` of `system_settings`, and the objects at the destinations by their
URI. -/
structure Store where
  chainEnabled : List Uuid
  anchors : List ChainAnchor
  previousManifest : Option ManifestRef
  artifacts : List (String × Jws)

def Store.upload (uri : String) (jws : Jws) (db : Store) : Store :=
  { db with artifacts := (uri, jws) :: db.artifacts.filter (·.1 ≠ uri) }

/-- The object at a URI. -/
def Store.artifactAt (db : Store) (uri : String) : Option Jws :=
  (db.artifacts.find? (·.1 = uri)).map (·.2)

theorem Store.artifactAt_upload (db : Store) (uri other : String) (jws : Jws) :
    (db.upload uri jws).artifactAt other = if other = uri then some jws else db.artifactAt other := by
  unfold artifactAt upload
  split_ifs with huri
  · simp [huri]
  · rw [List.find?_cons_of_neg (by simpa using Ne.symm huri), List.find?_filter]
    congr 2
    funext artifact
    by_cases hartifact : artifact.1 = other
    · simp [hartifact, huri]
    · simp [hartifact]

/-- What is locked: the advisory lock of the publisher, the anchor rows, and the row of the settings. -/
inductive Lock
  | publish
  | anchor (tenantId : Uuid)
  | previousManifest
  deriving DecidableEq

/-- A manifest that was published, for which boundary, and what the settings then said. -/
structure Publication where
  boundary : Millis
  manifest : Manifest
  uri : String
  sha256 : String

/-- What a commit or an upload did. -/
inductive Event
  | other
  | uploaded (inTx : Bool) (boundary : Millis) (uri : String)
  | published (publication : Publication)

/-- The manifests published so far, the latest first. -/
def published (w : World Store Event) : List Publication :=
  w.log.filterMap fun
    | .published publication => some publication
    | _ => none

def anchorTable : Table Store Uuid ChainAnchor where
  rows := Store.anchors
  put db rows := { db with anchors := rows }
  key := ChainAnchor.tenantId

section Cadence

variable (env : Env)

def currentCadenceBoundary (now cadenceMs offsetMs : Millis) : Millis :=
  (now - offsetMs).fdiv cadenceMs * cadenceMs + offsetMs

/-- `PublisherConfig`; a destination is given by its name. -/
structure PublisherConfig where
  deploymentId : String
  signingKey : Bytes
  signingKeyKid : String
  tagSecret : Bytes
  destinations : List String
  cadenceMs : Millis
  publishOffsetMs : Millis
  pauseCapFactor : Int

inductive Upload
  | stored
  | failed (error : String)
  | storedAndFailed (error : String)

/-- An execution of `runCadence`: its clock and configuration, and what happens to it. A transaction that is open for
five seconds expires: it is rolled back and its locks are released, while the callback goes on to its next query.
`expires` is the number of uploads that have taken effect then, and the error of that query. -/
structure Execution where
  config : PublisherConfig
  now : Millis
  acquired : Bool
  upload : Nat → Upload
  expires : Option (Nat × String)
  commitFails : Option String
  pauseFails : Option String
  writtenAt : Millis

inductive CadenceOutcome
  | published (manifestSha256 : String) (destinations : List String) (tenantsCount : Nat)
  | lockHeld
  | skippedNoTenants
  | skippedPaused
  | failed (reason : String)

/-- Why the transaction was rolled back, the tenants to pause and the latest update of their anchors if an upload has
failed or may still fail, and what is still being uploaded. -/
structure Failure where
  reason : String
  pause : Option (List Uuid × Millis)
  late : Option Jws

abbrev Publisher (α : Type) := Prog Store Lock Event α

/-- The boundary that an execution publishes for. -/
def Execution.boundary (x : Execution) : Millis :=
  currentCadenceBoundary x.now x.config.cadenceMs x.config.publishOffsetMs

def Execution.artifactKey (x : Execution) : String :=
  String.ofList ((env.rt.toISOString x.boundary).toList.take 10) ++ ".kid-" ++ x.config.signingKeyKid ++ ".jws"

/-- Where the artifact is at a destination. -/
def Execution.uri (x : Execution) (destination : String) : String :=
  destination ++ "://" ++ x.artifactKey env

def Execution.primaryUri (x : Execution) : String :=
  match x.config.destinations with
  | first :: _ => x.uri env first
  | [] => x.uri env "local"

def parsePrevious : Option ManifestRef → Except String (Option ManifestRef)
  | none => .ok none
  | some ref => if env.isUrl ref.uri && isHex64 ref.sha256 then .ok (some ref) else .error env.schemaError

structure Signed where
  manifest : Manifest
  jws : Jws

def Execution.signed (x : Execution) (rows : List ChainAnchor) (previous : Option ManifestRef) :
    Except String Signed := do
  let previousManifest ← parsePrevious env previous
  let manifest ← buildManifest env rows x.config.deploymentId x.boundary previousManifest x.config.tagSecret
  let jws ← sign env (canonicalize manifest) x.config.signingKey x.config.signingKeyKid
  return ⟨manifest, jws⟩

theorem Execution.signed_spec {x : Execution} {rows : List ChainAnchor} {previous : Option ManifestRef}
    {signed : Signed} (h : x.signed env rows previous = .ok signed) :
    signed.manifest.previousManifest = previous ∧ signed.jws.payload = canonicalize signed.manifest := by
  simp only [Execution.signed, bind, Except.bind] at h
  split at h
  · cases h
  next previousManifest hprevious =>
  split at h
  · cases h
  next manifest hmanifest =>
  split at h
  · cases h
  next jws hjws =>
  obtain rfl := Except.ok.inj h
  refine ⟨(buildManifest_previousManifest env hmanifest).trans ?_, ?_⟩
  · cases previous with
    | none => exact (Except.ok.inj hprevious).symm
    | some ref =>
      simp only [parsePrevious] at hprevious
      split_ifs at hprevious
      exact (Except.ok.inj hprevious).symm
  · unfold sign at hjws
    split_ifs at hjws
    rw [← Except.ok.inj hjws]

/-- What is published. -/
def Execution.publication (x : Execution) (manifest : Manifest) : Publication where
  boundary := x.boundary
  manifest := manifest
  uri := x.primaryUri env
  sha256 := hex (env.rt.sha256 (canonicalize manifest))

/-- The loop over the destinations; `inTx` tells whether its transaction is still open. -/
def Execution.uploadAll (x : Execution) (inTx : Bool) (jws : Jws) (fail : String → Failure) :
    Nat → List String → Publisher (Except Failure Unit)
  | _, [] => return .ok ()
  | n, destination :: rest =>
    let store (next : Publisher (Except Failure Unit)) : Publisher (Except Failure Unit) :=
      .effect (.uploaded inTx x.boundary (x.uri env destination)) (Store.upload (x.uri env destination) jws) next
    match x.upload n with
    | .stored => store (x.uploadAll inTx jws fail (n + 1) rest)
    | .failed error => return .error (fail (destination ++ "_UPLOAD_FAILED: " ++ error))
    | .storedAndFailed error => store (return .error (fail (destination ++ "_UPLOAD_FAILED: " ++ error)))

/-- The destinations whose uploads take effect before the transaction expires. -/
def Execution.inTime (x : Execution) : List String :=
  match x.expires with
  | none => x.config.destinations
  | some (n, _) => x.config.destinations.take n

def unpaused (now : Millis) (anchor : ChainAnchor) : Bool := !anchor.publishPausedUntil.any (now < ·)

def Execution.publishInTx (x : Execution) : Publisher (Except Failure (CadenceOutcome × Option Publication)) := do
  if !x.acquired then return .ok (.lockHeld, none)
  Prog.lockingRead [(.publish, .exclusive)] fun _ ↦ ()
  let tenantIds ← .read Store.chainEnabled
  if tenantIds.isEmpty then return .ok (.skippedNoTenants, none)
  let anchors ← .read fun db : Store ↦ db.anchors.filter (·.tenantId ∈ tenantIds)
  let rows := anchors.filter (unpaused x.now)
  if rows.isEmpty then return .ok (.skippedPaused, none)
  let previous ← .read Store.previousManifest
  match x.signed env rows previous with
  | .error reason => return .error ⟨reason, none, none⟩
  | .ok signed =>
    let tenants := rows.map ChainAnchor.tenantId
    let maxUpdatedAt := rows.foldl (fun latest anchor ↦ max latest anchor.updatedAt) 0
    Prog.andThen (x.uploadAll env true signed.jws (⟨·, some (tenants, maxUpdatedAt), none⟩) 0 x.inTime) fun _ ↦ do
        if let some (_, reason) := x.expires then
          return .error ⟨reason, some (tenants, maxUpdatedAt), some signed.jws⟩
        let _ ← .updateMany anchorTable .anchor (·.tenantId ∈ tenants) fun anchor ↦
          { anchor with lastPublishedAt := some x.now, publishPausedUntil := none, updatedAt := x.writtenAt }
        let publication := x.publication env signed.manifest
        Prog.write [(.previousManifest, .exclusive)]
          (fun db ↦ { db with previousManifest := some ⟨publication.uri, publication.sha256⟩ }) fun _ ↦ ()
        let outcome : CadenceOutcome :=
          .published publication.sha256 x.config.destinations tenants.length
        match x.commitFails with
        | some reason => return .error ⟨reason, none, none⟩
        | none => return .ok (outcome, some publication)

def publishEvent (result : CadenceOutcome × Option Publication) : Event :=
  match result.2 with
  | some publication => .published publication
  | none => .other

def Execution.persistPause (x : Execution) (tenants : List Uuid) (maxUpdatedAt : Millis) :
    Publisher (Except String Unit) :=
  Prog.transaction (fun _ ↦ .other) do
    let pauseUntil := min (x.now + x.config.cadenceMs)
      (max maxUpdatedAt x.now + x.config.pauseCapFactor * x.config.cadenceMs)
    let _ ← .updateMany anchorTable .anchor
      (fun anchor ↦ anchor.tenantId ∈ tenants && anchor.lastPublishedAt.all (· < x.now))
      fun anchor ↦ { anchor with publishPausedUntil := some pauseUntil, updatedAt := x.writtenAt }
    match x.pauseFails with
    | some error => return .error error
    | none => return .ok ()

/-- The end of an execution that failed. -/
def Execution.fail (x : Execution) (failure : Failure) : Publisher CadenceOutcome := do
  match failure.pause with
  | some (tenants, maxUpdatedAt) =>
    if tenants.isEmpty then return .failed failure.reason
    let _ ← x.persistPause tenants maxUpdatedAt
    return .failed failure.reason
  | none => return .failed failure.reason

def runCadence (x : Execution) : Publisher CadenceOutcome := do
  match ← .transaction publishEvent (x.publishInTx env) with
  | .ok (outcome, _) => return outcome
  | .error failure =>
    match failure.late with
    | none => x.fail failure
    | some jws =>
      match ← x.uploadAll env false jws (⟨·, failure.pause, none⟩) x.inTime.length
          (x.config.destinations.drop x.inTime.length) with
      | .error failed => x.fail failed
      | .ok _ => return .failed failure.reason

/-- What runs: executions of the publisher, and others that change the chains and their tenants. -/
inductive Task
  | cadence (x : Execution)
  | chains (chainEnabled : List Uuid) (anchors : List ChainAnchor)

def Task.perform : Task → Publisher Unit
  | .cadence x => do
    let _ ← runCadence env x
    return ()
  | .chains chainEnabled anchors =>
    Prog.assign .other fun db ↦ { db with chainEnabled := chainEnabled, anchors := anchors }

end Cadence

end PasswdSso.AuditAnchor
