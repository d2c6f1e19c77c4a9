import Mathlib.Data.List.Sort
import PasswdSso.Common
import PasswdSso.ReadCommitted.Statement

/-!
# Sessions of the auth adapter

`createSession` and `updateSession` of `src/lib/auth/session/auth-adapter.ts`, and `resolveEffectiveSessionTimeouts` of
`src/lib/auth/session/session-timeout.ts` with its cache, which is memory of the process and so not part of any
transaction. The clock readings and the generated identifiers are fields of the calls.
-/

namespace PasswdSso.Sessions

open ReadCommitted

/-- A `sessions` row; `sessionToken` is the digest of the token in the cookie. -/
structure Session where
  id : Uuid
  sessionToken : String
  userId : Uuid
  tenantId : Uuid
  expires : Millis
  createdAt : Millis
  lastActiveAt : Millis
  passkeyVerifiedAt : Option Millis
  ipAddress : Option String
  userAgent : Option String
  provider : Option String
  authCredentialId : Option Uuid
  deriving DecidableEq

/-- A `tenants` row, the columns that sign-ins read. -/
structure Tenant where
  id : Uuid
  isBootstrap : Bool
  maxConcurrentSessions : Option Int
  sessionIdleTimeoutMinutes : Int
  sessionAbsoluteTimeoutMinutes : Int

structure TeamPolicy where
  sessionIdleTimeoutMinutes : Option Int
  sessionAbsoluteTimeoutMinutes : Option Int

/-- A `users` row, with the policies of the user's teams, if they have one. -/
structure User where
  id : Uuid
  tenantId : Uuid
  teamPolicies : List (Option TeamPolicy)

/-- `ResolvedSessionTimeouts`; there is no tenant for an unknown user. -/
structure ResolvedSessionTimeouts where
  idleMinutes : Int
  absoluteMinutes : Int
  tenantId : Option Uuid

structure CacheEntry where
  userId : Uuid
  timeouts : ResolvedSessionTimeouts
  expiresAt : Millis

/-- The tables, and the cache of timeouts. -/
structure Store where
  users : List User
  tenants : List Tenant
  sessions : List Session
  timeouts : List CacheEntry

inductive Lock
  | user (id : Uuid)
  | session (id : Uuid)
  | sessionToken (digest : String)

/-- What a commit or an assignment to the cache did. -/
inductive Event
  | created (session : Session) (evicted : List Session) (activeAt : Millis)
  | verified (session : Session)
  | invalidated (userId : Uuid) (kept : String)
  | updated (digest : String)
  | expired (digest : String)
  | cached

abbrev Server := Prog Store Lock Event

def sessionTable : Table Store Uuid Session where
  rows := Store.sessions
  put db rows := { db with sessions := rows }
  key := Session.id

inductive Thrown
  | userNotFound
  | tenantNotFound
  | uniqueViolation
  | authenticationFailed
  deriving DecidableEq

def Store.userOf (db : Store) (userId : Uuid) : Option User := db.users.find? (·.id = userId)

def Store.tenantOf (db : Store) (tenantId : Uuid) : Option Tenant := db.tenants.find? (·.id = tenantId)

def timeoutCacheTtl : Millis := msPerMinute

def timeoutCacheMaxSize : Nat := 10000

/-- The stricter of a timeout and the positive timeout of a team, if the team has one. -/
def stricter (minutes : Int) (team : Option Int) : Int :=
  match team with
  | some value => if value > 0 then min minutes value else minutes
  | none => minutes

/-- The timeouts of a user: those of the tenant, with the stricter ones of the teams. -/
def Store.timeoutsOf (db : Store) (userId : Uuid) : Option ResolvedSessionTimeouts := do
  let user ← db.userOf userId
  let tenant ← db.tenantOf user.tenantId
  return {
    idleMinutes := user.teamPolicies.foldl (fun minutes policy ↦
      stricter minutes (policy.bind TeamPolicy.sessionIdleTimeoutMinutes)) tenant.sessionIdleTimeoutMinutes
    absoluteMinutes := user.teamPolicies.foldl (fun minutes policy ↦
      stricter minutes (policy.bind TeamPolicy.sessionAbsoluteTimeoutMinutes)) tenant.sessionAbsoluteTimeoutMinutes
    tenantId := some user.tenantId }

def defensiveTimeouts : ResolvedSessionTimeouts := { idleMinutes := 1, absoluteMinutes := 1, tenantId := none }

def Store.cached (db : Store) (userId : Uuid) : Option CacheEntry := db.timeouts.find? (·.userId = userId)

def makeRoom (now : Millis) (entries : List CacheEntry) : List CacheEntry :=
  if timeoutCacheMaxSize ≤ entries.length then
    let fresh := entries.filter (now < ·.expiresAt)
    if timeoutCacheMaxSize ≤ fresh.length then fresh.tail else fresh
  else entries

def Store.dropTimeouts (userId : Uuid) (db : Store) : Store :=
  { db with timeouts := db.timeouts.filter (·.userId ≠ userId) }

/-- `Map.set`: a key that is there keeps its place. -/
def setEntry (entry : CacheEntry) (entries : List CacheEntry) : List CacheEntry :=
  if entries.any (·.userId = entry.userId) then
    entries.map fun old ↦ if old.userId = entry.userId then entry else old
  else entries ++ [entry]

def Store.cacheTimeouts (now : Millis) (entry : CacheEntry) (db : Store) : Store :=
  { db with timeouts := setEntry entry (makeRoom now db.timeouts) }

def fetchTimeouts (fetch : ∀ β : Type, (Store → β) → Server β) (userId : Uuid) (now : Millis) :
    Server ResolvedSessionTimeouts := do
  match ← fetch _ fun db ↦ db.timeoutsOf userId with
  | none => return defensiveTimeouts
  | some timeouts =>
    Prog.effect .cached (Store.cacheTimeouts now { userId, timeouts, expiresAt := now + timeoutCacheTtl })
      (return timeouts)

/-- `resolveEffectiveSessionTimeouts`; `fetch` is a read in the transaction of the caller, or one of its own. -/
def resolveEffectiveSessionTimeouts (fetch : ∀ β : Type, (Store → β) → Server β) (userId : Uuid) (now : Millis) :
    Server ResolvedSessionTimeouts := do
  match ← fetch _ fun db ↦ db.cached userId with
  | none => fetchTimeouts fetch userId now
  | some entry =>
    if now < entry.expiresAt then return entry.timeouts
    else Prog.effect .cached (Store.dropTimeouts userId) (fetchTimeouts fetch userId now)

section Calls

variable (hashSessionToken : String → String)

def Store.activeSessions (db : Store) (userId tenantId : Uuid) (now : Millis) : List Session :=
  (db.sessions.filter fun session ↦ session.userId = userId && session.tenantId = tenantId &&
    now < session.expires).insertionSort fun first second ↦ first.id ≤ second.id

/-- `tx.session.create`. -/
def insertSession (session : Session) : Server (Except Thrown Unit) := do
  if ← .insert [.session session.id, .sessionToken session.sessionToken]
      (fun db ↦ db.sessions.any fun other ↦ other.id = session.id || other.sessionToken = session.sessionToken)
      (sessionTable.append [session]) then
    return .error .uniqueViolation
  else return .ok ()

/-- A call of `createSession`. -/
structure CreateSession where
  sessionId : Uuid
  sessionToken : String
  userId : Uuid
  ip : Option String
  userAgent : Option String
  provider : Option String
  /-- The time against which the sessions are counted. -/
  activeAt : Millis
  /-- The time at which the timeouts are resolved. -/
  resolvedAt : Millis
  /-- The time from which the expiry is computed. -/
  now : Millis
  /-- The default of `created_at` and `last_active_at`. -/
  createdAt : Millis

def CreateSession.row (req : CreateSession) (tenantId : Uuid) (timeouts : ResolvedSessionTimeouts) : Session where
  id := req.sessionId
  sessionToken := hashSessionToken req.sessionToken
  userId := req.userId
  tenantId := tenantId
  expires := req.now + timeouts.idleMinutes * msPerMinute
  createdAt := req.createdAt
  lastActiveAt := req.createdAt
  passkeyVerifiedAt := none
  ipAddress := req.ip
  userAgent := req.userAgent.map (jsSlice userAgentMaxLength)
  provider := req.provider
  authCredentialId := none

def toEvict (maxSessions : Option Int) (active : List Session) : List Session :=
  match maxSessions with
  | none => []
  | some limit =>
    if limit > 0 ∧ limit ≤ active.length then active.take (active.length - limit.toNat + 1) else []

def evict (sessions : List Session) : Server Unit :=
  match sessions with
  | [] => return ()
  | sessions => do
    let _ ← .deleteMany sessionTable .session fun session ↦ session.id ∈ sessions.map Session.id
    return ()

/-- The body of the transaction of `createSession`. -/
def createSessionInTx (req : CreateSession) : Server (Except Thrown (Session × List Session)) := do
  match ← .read fun db ↦ db.userOf req.userId with
  | none => return .error .userNotFound
  | some user =>
    -- `advisoryXactLock`
    let _ ← .lockingRead [(.user req.userId, .exclusive)] fun _ ↦ ()
    match ← .read fun db ↦ db.tenantOf user.tenantId with
    | none => return .error .tenantNotFound
    | some tenant =>
      let active ← .read fun db ↦ db.activeSessions req.userId user.tenantId req.activeAt
      let evicted := toEvict tenant.maxConcurrentSessions active
      evict evicted
      let timeouts ← resolveEffectiveSessionTimeouts (fun _ f ↦ .read f) req.userId req.resolvedAt
      let session := req.row hashSessionToken user.tenantId timeouts
      Prog.andThen (insertSession session) fun _ ↦ return .ok (session, evicted)

def createSession (req : CreateSession) : Server (Except Thrown (Session × List Session)) :=
  Prog.transaction (fun result ↦ .created result.1 result.2 req.activeAt) (createSessionInTx hashSessionToken req)

/-- A call of `updateSession`. -/
structure UpdateSession where
  sessionToken : String
  resolvedAt : Millis
  now : Millis
  /-- The new `last_active_at`. -/
  activeAt : Millis

/-- Delete a session that has timed out; a session that is gone is not an error. -/
def deleteSession (digest : String) : Server (Except Thrown Nat) :=
  Prog.transaction (fun _ ↦ .expired digest) do
    let count ← .deleteMany sessionTable .session (·.sessionToken = digest)
    return .ok count

def effectiveExpires (now : Millis) (timeouts : ResolvedSessionTimeouts) (session : Session) : Millis :=
  min (now + timeouts.idleMinutes * msPerMinute) (session.createdAt + timeouts.absoluteMinutes * msPerMinute)

/-- `updateSession`; a session that is gone, also between the steps, gives `none`. -/
def updateSession (req : UpdateSession) : Server (Except Thrown (Option Millis)) := do
  let digest := hashSessionToken req.sessionToken
  match ← .readOnly fun db ↦ db.sessions.find? (·.sessionToken = digest) with
  | none => return .ok none
  | some current =>
    let timeouts ← resolveEffectiveSessionTimeouts (fun _ f ↦ .readOnly f) current.userId req.resolvedAt
    if req.now > current.lastActiveAt + timeouts.idleMinutes * msPerMinute then
      let _ ← deleteSession digest
      return .ok none
    else if req.now > current.createdAt + timeouts.absoluteMinutes * msPerMinute then
      let _ ← deleteSession digest
      return .ok none
    else
      let expires := effectiveExpires req.now timeouts current
      Prog.transaction (fun _ ↦ .updated digest) do
        let count ← .updateMany sessionTable .session (·.sessionToken = digest)
          fun session ↦ { session with expires, lastActiveAt := req.activeAt }
        return .ok (if count = 0 then none else some expires)

end Calls

end PasswdSso.Sessions
