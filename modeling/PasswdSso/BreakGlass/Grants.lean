import Mathlib.Data.List.Sort
import PasswdSso.Common

/-!
# Break-glass access to personal logs

`POST /api/tenant/breakglass`, `DELETE /api/tenant/breakglass/[id]` and
`GET /api/tenant/breakglass/[id]/logs`, from the point where the caller is authenticated and has the permission.
Requests run one after the other; their clock readings and generated identifiers are fields of the requests.
-/

namespace PasswdSso.BreakGlass

/-- A `personal_log_access_grants` row. -/
structure Grant where
  id : Uuid
  tenantId : Uuid
  requesterId : Uuid
  targetUserId : Uuid
  reason : String
  incidentRef : Option String
  expiresAt : Millis
  /-- `none` is a grant without cooling-off. -/
  effectiveAt : Option Millis
  revokedAt : Option Millis
  createdAt : Millis

inductive AuditScope
  | personal
  | team
  | tenant
  deriving DecidableEq

/-- An `audit_logs` row. -/
structure AuditLog where
  id : Uuid
  scope : AuditScope
  action : String
  userId : Uuid
  tenantId : Uuid
  targetId : Option Uuid
  createdAt : Millis

/-- The tables, and the two caches of the log route in the memory of the process. -/
structure Store where
  members : List TenantMember
  grants : List Grant
  auditLogs : List AuditLog
  /-- `viewAuditCache`: the time of the last recorded view through a grant. -/
  viewAudits : List (Uuid × Millis)
  /-- `expireAuditCache`: the grants whose expiry is recorded. -/
  expireAudits : List Uuid

/-- The caller, as `requireTenantPermission` returns it. -/
structure Actor where
  userId : Uuid
  tenantId : Uuid
  isOwner : Bool

/-- `tx.tenantMember.findFirst` of an active member. -/
def Store.activeMember (db : Store) (tenantId userId : Uuid) : Bool :=
  db.members.any fun member ↦ member.userId = userId && member.tenantId = tenantId && member.deactivatedAt.isNone

/-- A creation; the default of `created_at` is the start of its transaction, which the clock reading `now` follows. -/
structure CreateGrant where
  actor : Actor
  targetUserId : Uuid
  reason : String
  incidentRef : Option String
  grantId : Uuid
  createdAt : Millis
  now : Millis
  started : createdAt ≤ now

inductive GrantResult
  | selfAccess
  | noMember
  | duplicate
  | created (grant : Grant)
  | unavailable

def CreateGrant.samePair (req : CreateGrant) (grant : Grant) : Bool :=
  grant.requesterId = req.actor.userId && grant.targetUserId = req.targetUserId && grant.tenantId = req.actor.tenantId

def CreateGrant.recent (req : CreateGrant) (grant : Grant) : Bool :=
  req.samePair grant && req.now - msPerDay < grant.createdAt

def CreateGrant.effectiveAt (req : CreateGrant) (coolingOffSecs : Int) (grants : List Grant) : Option Millis :=
  if coolingOffSecs > 0 ∧ grants.find? req.recent = none then some (req.now + coolingOffSecs * msPerSecond)
  else none

/-- The new row. -/
def CreateGrant.row (req : CreateGrant) (coolingOffSecs : Int) (grants : List Grant) : Grant where
  id := req.grantId
  tenantId := req.actor.tenantId
  requesterId := req.actor.userId
  targetUserId := req.targetUserId
  reason := req.reason
  incidentRef := req.incidentRef
  expiresAt := req.now + msPerDay
  effectiveAt := req.effectiveAt coolingOffSecs grants
  revokedAt := none
  createdAt := req.createdAt

/-- `POST /api/tenant/breakglass`. -/
def createGrant (coolingOffSecs : Int) (req : CreateGrant) (db : Store) : GrantResult × Store :=
  if req.targetUserId = req.actor.userId then (.selfAccess, db)
  else if !db.activeMember req.actor.tenantId req.targetUserId then (.noMember, db)
  else if db.grants.any fun grant ↦ req.samePair grant && grant.revokedAt.isNone && req.now < grant.expiresAt then
    (.duplicate, db)
  -- the primary key
  else if db.grants.any (·.id = req.grantId) then (.unavailable, db)
  else
    let grant := req.row coolingOffSecs db.grants
    (.created grant, { db with grants := db.grants ++ [grant] })

structure RevokeGrant where
  actor : Actor
  id : Uuid
  now : Millis

inductive RevokeResult
  | notFound
  | forbidden
  | alreadyRevoked
  | alreadyExpired
  | conflict
  | revoked
  deriving DecidableEq

def RevokeGrant.matches (req : RevokeGrant) (grant : Grant) : Bool :=
  grant.id = req.id && grant.tenantId = req.actor.tenantId && grant.revokedAt.isNone && req.now < grant.expiresAt

/-- `updateMany`. -/
def RevokeGrant.apply (req : RevokeGrant) (grants : List Grant) : List Grant :=
  grants.map fun grant ↦ if req.matches grant then { grant with revokedAt := some req.now } else grant

/-- `DELETE /api/tenant/breakglass/[id]`. -/
def revokeGrant (req : RevokeGrant) (db : Store) : RevokeResult × Store :=
  match db.grants.find? fun grant ↦ grant.id = req.id && grant.tenantId = req.actor.tenantId with
  | none => (.notFound, db)
  | some grant =>
    if grant.requesterId ≠ req.actor.userId ∧ !req.actor.isOwner then (.forbidden, db)
    else if grant.revokedAt.isSome then (.alreadyRevoked, db)
    else if grant.expiresAt ≤ req.now then (.alreadyExpired, db)
    else if db.grants.countP req.matches = 0 then (.conflict, db)
    else (.revoked, { db with grants := req.apply db.grants })

structure LogQuery where
  cursor : Option Uuid
  limit : Nat
  actions : Option (List String)
  fromDate : Option Millis
  toDate : Option Millis

inductive ViewError
  | notFound
  | revoked
  | pending (effectiveAt : Millis)
  | expired
  | targetDeactivated
  | unavailable
  | invalidCursor
  | invalidActions (actions : List String)

structure ViewLogs where
  actor : Actor
  grantId : Uuid
  now : Millis
  /-- The clock reading at the check of `viewAuditCache`. -/
  auditNow : Millis
  auditId : Uuid
  /-- Whether the write of the audit row fails. -/
  auditFails : Bool
  query : Except ViewError LogQuery

/-- The answer to a view. -/
structure LogPage where
  items : List AuditLog
  nextCursor : Option Uuid
  grant : Grant

def viewAuditDedup : Millis := 60 * msPerMinute

def maxCacheEntries : Nat := 10000

def ViewLogs.auditRow (req : ViewLogs) (action : String) (grant : Grant) : AuditLog where
  id := req.auditId
  scope := .tenant
  action := action
  userId := req.actor.userId
  tenantId := req.actor.tenantId
  targetId := some grant.targetUserId
  createdAt := req.auditNow

def Store.evictStaleCacheEntries (now : Millis) (db : Store) : Store :=
  let fresh := db.viewAudits.filter fun entry ↦ ¬now - entry.2 > viewAuditDedup
  { db with
    viewAudits :=
      if maxCacheEntries ≤ db.viewAudits.length then if maxCacheEntries ≤ fresh.length then [] else fresh
      else db.viewAudits
    expireAudits := if maxCacheEntries ≤ db.expireAudits.length then [] else db.expireAudits }

/-- Record the expiry, once for each grant; when the write fails the next view tries again. -/
def ViewLogs.recordExpire (req : ViewLogs) (grant : Grant) (db : Store) : Store :=
  if req.grantId ∈ db.expireAudits ∨ req.auditFails then db
  else { db with
    auditLogs := db.auditLogs ++ [req.auditRow "PERSONAL_LOG_ACCESS_EXPIRE" grant]
    expireAudits := db.expireAudits ++ [req.grantId] }

def ViewLogs.recordView (req : ViewLogs) (grant : Grant) (db : Store) : Except ViewError Store :=
  if req.auditNow - ((db.viewAudits.lookup req.grantId).getD 0) > viewAuditDedup then
    if req.auditFails then .error .unavailable
    else
      let cached := db.evictStaleCacheEntries req.auditNow
      .ok { cached with
        auditLogs := db.auditLogs ++ [req.auditRow "PERSONAL_LOG_ACCESS_VIEW" grant]
        viewAudits := cached.viewAudits.filter (·.1 ≠ req.grantId) ++ [(req.grantId, req.auditNow)] }
  else .ok db

/-- The `where` of the log query. -/
def LogQuery.matches (query : LogQuery) (targetUserId : Uuid) (log : AuditLog) : Bool :=
  log.userId = targetUserId && log.scope = .personal && query.actions.all (log.action ∈ ·) &&
    query.fromDate.all (· ≤ log.createdAt) && query.toDate.all (log.createdAt ≤ ·)

/-- The rows of the log query, the newest first; a cursor starts behind its row. -/
def LogQuery.rows (query : LogQuery) (targetUserId : Uuid) (logs : List AuditLog) : List AuditLog :=
  let ordered := (logs.filter (query.matches targetUserId)).insertionSort fun first second ↦
    first.createdAt ≥ second.createdAt
  match query.cursor with
  | none => ordered.take (query.limit + 1)
  | some cursor => (ordered.dropWhile fun log ↦ log.id ≠ cursor).tail.take (query.limit + 1)

def paginateResult (items : List AuditLog) (limit : Nat) : List AuditLog × Option Uuid :=
  if items.length > limit then (items.take limit, (items.take limit).getLast?.map AuditLog.id) else (items, none)

/-- The answer through a valid grant. -/
def ViewLogs.page (req : ViewLogs) (grant : Grant) (db : Store) : Except ViewError LogPage :=
  req.query.map fun query ↦
    let (items, nextCursor) := paginateResult (query.rows grant.targetUserId db.auditLogs) query.limit
    { items, nextCursor, grant }

/-- `GET /api/tenant/breakglass/[id]/logs`. -/
def viewLogs (req : ViewLogs) (db : Store) : Except ViewError LogPage × Store :=
  match db.grants.find? fun grant ↦ grant.id = req.grantId && grant.tenantId = req.actor.tenantId &&
      grant.requesterId = req.actor.userId with
  | none => (.error .notFound, db)
  | some grant =>
    if grant.revokedAt.isSome then (.error .revoked, db)
    else match grant.effectiveAt.filter (req.now < ·) with
      | some effectiveAt => (.error (.pending effectiveAt), db)
      | none =>
        if grant.expiresAt ≤ req.now then (.error .expired, req.recordExpire grant db)
        else if !db.activeMember req.actor.tenantId grant.targetUserId then (.error .targetDeactivated, db)
        else match req.recordView grant db with
          | .error error => (.error error, db)
          | .ok db => (req.page grant db, db)

/-- A request to one of the routes. -/
inductive Request
  | create (req : CreateGrant)
  | revoke (req : RevokeGrant)
  | view (req : ViewLogs)

/-- The clock reading of a request. -/
def Request.now : Request → Millis
  | .create req => req.now
  | .revoke req => req.now
  | .view req => req.now

/-- The store after a request. -/
def Request.run (coolingOffSecs : Int) (db : Store) : Request → Store
  | .create req => (createGrant coolingOffSecs req db).2
  | .revoke req => (revokeGrant req db).2
  | .view req => (viewLogs req db).2

end PasswdSso.BreakGlass
