import PasswdSso.Audit.Store

/-!
# The audit outbox worker

`src/workers/audit-outbox-worker.ts`: claiming a batch of events, delivering each to the audit log with
or without the hash chain, recording errors, driving the fan-out deliveries, and the reapers of claims
that were not finished. What a worker cannot control is part of its input: clock readings and random
identifiers, which rows its claims pass over, and which of its transactions and deliveries fail. A
failed transaction is rolled back, and a worker that crashes or stalls is one that is not scheduled for
a while.
-/

namespace PasswdSso.Audit

open ReadCommitted

/-- What the worker takes from its environment. -/
structure Env where
  rt : Runtime
  auditAction? : String → Option AuditAction
  sanitizeErrorForStorage : String → String
  systemActorId : Uuid
  castError : String

/-- `LEFT` of SQL, which counts characters. -/
def left (n : Nat) (s : String) : String := String.ofList (s.toList.take n)

structure AuditOutboxPayload where
  scope : String
  action : String
  userId : String
  actorType : String
  serviceAccountId : Option String
  teamId : Option String
  targetType : Option String
  targetId : Option String
  metadata : Option Json
  ip : Option String
  userAgent : Option String

/-- `typeof value === "string" ? value : null`. -/
def stringField (fields : Fields) (name : String) : Option String :=
  match fields.get? name with
  | some (.str value) => some value
  | _ => none

/-- `value !== null && typeof value === "object" ? value : null`. -/
def objectField (fields : Fields) (name : String) : Option Json :=
  (fields.get? name).filter isObject

/-- `parsePayload` of an object with these properties. -/
def payloadOf (fields : Fields) : AuditOutboxPayload where
  scope := (stringField fields "scope").getD "PERSONAL"
  action := (stringField fields "action").getD ""
  userId := (stringField fields "userId").getD ""
  actorType := (stringField fields "actorType").getD "HUMAN"
  serviceAccountId := stringField fields "serviceAccountId"
  teamId := stringField fields "teamId"
  targetType := stringField fields "targetType"
  targetId := stringField fields "targetId"
  metadata := objectField fields "metadata"
  ip := stringField fields "ip"
  userAgent := stringField fields "userAgent"

/-- `parsePayload`; an array is an object without any of the properties. -/
def parsePayload : Json → Except String AuditOutboxPayload
  | .obj fields => .ok (payloadOf fields)
  | .arr _ => .ok (payloadOf .nil)
  | _ => .error "outbox payload is not an object"

def parsePayloadAction : Json → String
  | .obj fields => (stringField fields "action").getD "unknown"
  | _ => "unknown"

/-- The cast to `"AuditScope"`. -/
def auditScope? : String → Option AuditScope
  | "PERSONAL" => some .personal
  | "TEAM" => some .team
  | "TENANT" => some .tenant
  | _ => none

/-- The cast to `"ActorType"`. -/
def actorType? : String → Option ActorType
  | "HUMAN" => some .human
  | "SERVICE_ACCOUNT" => some .serviceAccount
  | "MCP_AGENT" => some .mcpAgent
  | "SYSTEM" => some .system
  | "ANONYMOUS" => some .anonymous
  | _ => none

def castNullable {α : Type} (cast? : String → Option α) : Option String → Option (Option α)
  | none => some none
  | some text => (cast? text).map some

/-- The row that the delivery of an event inserts, without the columns of the chain; `none` when the
database rejects a value. -/
def auditLogOf (env : Env) (id : Uuid) (row : AuditOutbox) (payload : AuditOutboxPayload) :
    Option AuditLog := do
  let scope ← auditScope? payload.scope
  let action ← env.auditAction? payload.action
  let userId ← env.rt.uuid? payload.userId
  let actorType ← actorType? payload.actorType
  let serviceAccountId ← castNullable env.rt.uuid? payload.serviceAccountId
  let teamId ← castNullable env.rt.uuid? payload.teamId
  return {
    id, tenantId := row.tenantId, scope, action, userId, actorType, serviceAccountId, teamId
    targetType := payload.targetType
    targetId := payload.targetId
    metadata := payload.metadata.map env.rt.jsonb
    ip := payload.ip
    userAgent := payload.userAgent
    createdAt := row.createdAt
    outboxId := some row.id
    chainSeq := none
    eventHash := none
    chainPrevHash := none }

theorem auditLogOf_spec {env : Env} {id : Uuid} {row : AuditOutbox} {payload : AuditOutboxPayload}
    {log : AuditLog} (h : auditLogOf env id row payload = some log) :
    log.id = id ∧ log.tenantId = row.tenantId ∧ log.metadata = payload.metadata.map env.rt.jsonb ∧
      log.createdAt = row.createdAt ∧ log.outboxId = some row.id ∧ log.chainSeq = none := by
  simp only [auditLogOf, Option.bind_eq_bind, Option.bind_eq_some_iff, Option.pure_def,
    Option.some.injEq] at h
  obtain ⟨_, -, _, -, _, -, _, -, _, -, _, -, rfl⟩ := h
  exact ⟨rfl, rfl, rfl, rfl, rfl, rfl⟩

theorem isObject_metadata {value : Json} {payload : AuditOutboxPayload} {metadata : Json}
    (h : parsePayload value = .ok payload) (hmetadata : payload.metadata = some metadata) :
    isObject metadata = true := by
  have hfields (fields : Fields) (hpayload : payloadOf fields = payload) : isObject metadata = true := by
    rw [← hpayload] at hmetadata
    exact (Option.filter_eq_some_iff.mp hmetadata).2
  cases value with
  | obj fields => exact hfields fields (Except.ok.inj h)
  | arr items => exact hfields .nil (Except.ok.inj h)
  | _ => cases h

section Queues

variable {Item : Type}

def QueueRow.claimed (now : Millis) (row : QueueRow Item) : QueueRow Item :=
  { row with status := .processing, processingStartedAt := some now }

def QueueRow.reaped (error : Nat → String) (row : QueueRow Item) : QueueRow Item :=
  { row with
    status := if row.attemptCount + 1 ≥ row.maxAttempts then .failed else .pending
    processingStartedAt := none
    attemptCount := row.attemptCount + 1
    lastError := some (error (row.attemptCount + 1)) }

def QueueRow.retried (attemptCount : Nat) (retryAt : Millis) (error : String) (row : QueueRow Item) :
    QueueRow Item :=
  { row with
    status := .pending
    attemptCount := attemptCount
    nextRetryAt := retryAt
    lastError := some error
    processingStartedAt := none }

def QueueRow.dead (attemptCount : Nat) (error : String) (row : QueueRow Item) : QueueRow Item :=
  { row with
    status := .failed
    attemptCount := attemptCount
    lastError := some error
    processingStartedAt := none }

/-- A pass over a queue: when, of how many rows, and which rows it passes over because they are
locked. -/
structure Sweep where
  now : Millis
  limit : Nat
  skip : Uuid → Bool

/-- The rows of a queue that satisfy a condition and are not passed over, in some order. -/
def Sweep.choose (sweep : Sweep) (t : Table Store Uuid (QueueRow Item))
    (sel : QueueRow Item → Bool) (le : QueueRow Item → QueueRow Item → Bool) (db : Store) : List Uuid :=
  ((((t.rows db).filter fun row ↦ sel row && !sweep.skip row.id).insertionSort fun a b ↦ le a b).take
    sweep.limit).map QueueRow.id

/-- The rows that can be claimed. -/
def QueueRow.due (now : Millis) (row : QueueRow Item) : Bool :=
  row.status = .pending && row.nextRetryAt ≤ now

def QueueRow.stuck (cutoff : Millis) (row : QueueRow Item) : Bool :=
  row.status = .processing && row.processingStartedAt.any (· < cutoff)

def claimFrom (t : Table Store Uuid (QueueRow Item)) (lock : Uuid → Lock)
    (le : QueueRow Item → QueueRow Item → Bool) (sweep : Sweep) :
    Worker (Except String (List (QueueRow Item))) := do
  let rows ← .updateChosen t lock (sweep.choose t (QueueRow.due sweep.now) le)
    (.claimed sweep.now)
  return .ok rows

def writeDirectAuditLogInTx (log : AuditLog) : Worker Unit :=
  Prog.write [] (logTable.append [log]) fun _ ↦ ()

/-- The row of `writeDirectAuditLogInTx`. -/
def directAuditLog (env : Env) (id : Uuid) (now : Millis) (tenantId : Uuid) (action : AuditAction)
    (metadata : List (String × Json)) (scope : AuditScope) (teamId : Option Uuid) : AuditLog where
  id := id
  tenantId := tenantId
  scope := scope
  action := action
  userId := env.systemActorId
  actorType := .system
  serviceAccountId := none
  teamId := teamId
  targetType := none
  targetId := none
  metadata := some (env.rt.jsonb (.object metadata))
  ip := none
  userAgent := none
  createdAt := now
  outboxId := none
  chainSeq := none
  eventHash := none
  chainPrevHash := none

/-- The audit events of a reaper, one for each of the rows that it says something about. -/
def writeReaped (log : QueueRow Item → Option AuditLog) : List (QueueRow Item) → Worker (Except String Unit)
  | [] => return .ok ()
  | row :: rest => do
    match log row with
    | some entry =>
      writeDirectAuditLogInTx entry
      writeReaped log rest
    | none => writeReaped log rest

/-- A reaper: the rows whose claim has run out go back to the queue or are given up. -/
def reapFrom (t : Table Store Uuid (QueueRow Item)) (lock : Uuid → Lock) (error : Nat → String)
    (log : QueueRow Item → Option AuditLog) (timeout : Millis) (sweep : Sweep) :
    Worker (Except String Unit) := do
  let rows ← .updateChosen t lock
    (sweep.choose t (QueueRow.stuck (sweep.now - timeout))
      fun a b ↦ a.processingStartedAt.getD 0 ≤ b.processingStartedAt.getD 0)
    (.reaped error)
  writeReaped log rows

end Queues

def orFail {α : Type} (fails : Option String) (body : Worker (Except String α)) :
    Worker (Except String α) :=
  Prog.andThen body fun result ↦
    match fails with
    | some error => return .error error
    | none => return .ok result

section Outbox

variable (env : Env)

def claimBatch (sweep : Sweep) : Worker (Except String (List AuditOutbox)) :=
  Prog.transaction (fun _ ↦ .other)
    (claimFrom outboxTable .outbox (fun a b ↦ a.createdAt ≤ b.createdAt) sweep)

structure Attempt where
  now : Millis
  auditLogId : Uuid
  webhookDeliveryId : Uuid
  deliveryId : Uuid → Uuid
  deliverFails : Option String
  recordFails : Option String
  retryAt : Millis
  deadLetterId : Uuid

def outboxBypassAuditActions : List String :=
  ["WEBHOOK_DELIVERY_FAILED", "TENANT_WEBHOOK_DELIVERY_FAILED", "AUDIT_OUTBOX_REAPED",
    "AUDIT_OUTBOX_DEAD_LETTER", "AUDIT_OUTBOX_RETENTION_PURGED", "AUDIT_DELIVERY_FAILED",
    "AUDIT_DELIVERY_DEAD_LETTER", "AUDIT_WEBHOOK_DELIVERY_DEAD_LETTER"]

def webhookDispatchSuppress : List String :=
  ["AUDIT_OUTBOX_REAPED", "AUDIT_OUTBOX_DEAD_LETTER", "AUDIT_OUTBOX_RETENTION_PURGED",
    "AUDIT_OUTBOX_METRICS_VIEW", "AUDIT_OUTBOX_PURGE_EXECUTED", "AUDIT_DELIVERY_FAILED",
    "AUDIT_DELIVERY_DEAD_LETTER", "AUDIT_WEBHOOK_DELIVERY_DEAD_LETTER", "AUDIT_ANCHOR_PUBLISHED",
    "AUDIT_ANCHOR_PUBLISH_FAILED", "AUDIT_ANCHOR_PUBLISH_PAUSED", "AUDIT_ANCHOR_KEY_ROTATED",
    "AUDIT_CHAIN_VERIFY", "AUDIT_DELIVERY_TARGET_CREATE", "AUDIT_DELIVERY_TARGET_DEACTIVATE",
    "AUDIT_DELIVERY_TARGET_REACTIVATE", "RATE_LIMIT_FAIL_CLOSED"]

/-- The webhook work item of an event: one for its team, one for its tenant, or none. The team id has
been cast before. -/
def webhookItem (row : AuditOutbox) (payload : AuditOutboxPayload) : Option WebhookItem :=
  if payload.action ∈ outboxBypassAuditActions || payload.action ∈ webhookDispatchSuppress then none
  else if payload.scope = "TEAM" && payload.teamId.any (· ≠ "") then
    some ⟨row.id, .team, payload.teamId.bind env.rt.uuid?, payload.action⟩
  else if payload.scope = "TENANT" then some ⟨row.id, .tenant, none, payload.action⟩
  else none

def freshRow {Item : Type} (id tenantId : Uuid) (now : Millis) (item : Item) : QueueRow Item where
  id := id
  tenantId := tenantId
  status := .pending
  attemptCount := 0
  maxAttempts := 8
  nextRetryAt := now
  processingStartedAt := none
  lastError := none
  createdAt := now
  item := item

/-- The unique keys of `webhook_deliveries`. -/
def webhookClash (row old : WebhookDelivery) : Bool :=
  old.id = row.id || (old.item.outboxId = row.item.outboxId && old.item.scope = row.item.scope &&
    old.item.teamId = row.item.teamId)

/-- The unique keys of `audit_deliveries`. -/
def deliveryClash (row old : AuditDelivery) : Bool :=
  old.id = row.id || (old.item.outboxId = row.item.outboxId && old.item.targetId = row.item.targetId)

def enqueueWebhookDeliveryInTx (a : Attempt) (row : AuditOutbox) (payload : AuditOutboxPayload) :
    Worker Unit :=
  match webhookItem env row payload with
  | none => return ()
  | some item =>
    Prog.write [(.webhookDelivery a.webhookDeliveryId, .exclusive),
        (.webhookKey item.outboxId item.scope item.teamId, .exclusive)]
      (webhookTable.insertFresh webhookClash [freshRow a.webhookDeliveryId row.tenantId a.now item])
      fun _ ↦ ()

def enqueueAuditDeliveriesInTx (a : Attempt) (outboxId tenantId : Uuid) : Worker Unit := do
  let targets ← .read fun db : Store ↦
    db.targets.filter fun target ↦ target.tenantId = tenantId && target.isActive && target.kind ≠ .db
  if targets.isEmpty then return ()
  Prog.write (targets.flatMap fun target ↦ [(.delivery (a.deliveryId target.id), .exclusive),
      (.deliveryKey outboxId target.id, .exclusive)])
    (deliveryTable.insertFresh deliveryClash (targets.map fun target ↦
      freshRow (a.deliveryId target.id) tenantId a.now ⟨outboxId, target.id⟩))
    fun _ ↦ ()

def enqueueInTx (a : Attempt) (row : AuditOutbox) (payload : AuditOutboxPayload) : Worker Unit := do
  enqueueWebhookDeliveryInTx env a row payload
  enqueueAuditDeliveriesInTx a row.id row.tenantId

/-- `INSERT INTO audit_logs … ON CONFLICT (outbox_id) DO NOTHING`. -/
def insertAuditLog (row : AuditOutbox) (log : AuditLog) : Worker Prog.Inserted :=
  Prog.insertUnless logTable .log [.logOutbox row.id]
    (fun db ↦ db.logs.any (·.outboxId = some row.id)) log

def AuditOutbox.markSent (now : Millis) (row : AuditOutbox) : AuditOutbox :=
  { row with
    status := .sent
    processingStartedAt := none
    item := { row.item with sentAt := some now } }

def AuditOutbox.released (row : AuditOutbox) : AuditOutbox :=
  { row with status := .pending, processingStartedAt := none }

/-- `UPDATE audit_outbox SET … WHERE id = …`. -/
def updateOutbox (id : Uuid) (f : AuditOutbox → AuditOutbox) : Worker Nat :=
  Prog.updateMany outboxTable .outbox (fun row ↦ row.id = id) f

structure Delivery where
  delivered : Bool
  inserted : Bool

/-- The body of `deliverRow`. -/
def deliverRowInTx (a : Attempt) (row : AuditOutbox) (payload : AuditOutboxPayload) :
    Worker (Except String Delivery) :=
  match auditLogOf env a.auditLogId row payload with
  | none => return .error env.castError
  | some log => do
    match ← insertAuditLog row log with
    | .clash => return .error env.castError
    | .conflict =>
      let _ ← updateOutbox row.id (.markSent a.now)
      return .ok ⟨true, false⟩
    | .inserted =>
      enqueueInTx env a row payload
      let _ ← updateOutbox row.id (.markSent a.now)
      return .ok ⟨true, true⟩

def genesisAnchor (tenantId : Uuid) : AuditChainAnchor where
  tenantId := tenantId
  chainSeq := 0
  prevHash := genesisPrevHash
  publishPausedUntil := none

def AuditOutboxPayload.hashed (payload : AuditOutboxPayload) : Json := payload.metadata.getD (.object [])

def nextEventHash (rt : Runtime) (anchor : AuditChainAnchor) (auditLogId : Uuid) (row : AuditOutbox)
    (payload : AuditOutboxPayload) : Bytes :=
  computeEventHash rt anchor.prevHash (computeCanonicalBytes (buildChainInput rt (rt.uuidText auditLogId)
    row.createdAt (anchor.chainSeq + 1) anchor.prevHash payload.hashed))

def AuditLog.chainedAfter (log : AuditLog) (anchor : AuditChainAnchor) (eventHash : Bytes) : AuditLog :=
  { log with
    chainSeq := some (anchor.chainSeq + 1)
    eventHash := some eventHash
    chainPrevHash := some anchor.prevHash }

def AuditChainAnchor.advance (chainSeq : Int) (eventHash : Bytes) (anchor : AuditChainAnchor) :
    AuditChainAnchor :=
  { anchor with chainSeq := chainSeq, prevHash := eventHash }

/-- The body of `deliverRowWithChain`. -/
def deliverRowWithChainInTx (a : Attempt) (row : AuditOutbox) (payload : AuditOutboxPayload) :
    Worker (Except String Delivery) := do
  let _ ← .insertUnless anchorTable .anchor []
    (fun db : Store ↦ db.anchors.any (·.tenantId = row.tenantId)) (genesisAnchor row.tenantId)
  match ← .lockingRead [(.anchor row.tenantId, .exclusive)]
      fun db : Store ↦ db.anchors.find? (·.tenantId = row.tenantId) with
  | none => return .error ("Anchor row missing after upsert for tenant " ++ env.rt.uuidText row.tenantId)
  | some anchor =>
    if anchor.publishPausedUntil.any (a.now < ·) then
      let _ ← updateOutbox row.id AuditOutbox.released
      return .ok ⟨false, false⟩
    else
      let eventHash := nextEventHash env.rt anchor a.auditLogId row payload
      match auditLogOf env a.auditLogId row payload with
      | none => return .error env.castError
      | some log =>
        match ← insertAuditLog row (log.chainedAfter anchor eventHash) with
        | .clash => return .error env.castError
        | .conflict =>
          let _ ← updateOutbox row.id (.markSent a.now)
          return .ok ⟨true, false⟩
        | .inserted =>
          let _ ← .updateMany anchorTable .anchor (fun row' ↦ row'.tenantId = row.tenantId)
            (.advance (anchor.chainSeq + 1) eventHash)
          enqueueInTx env a row payload
          let _ ← updateOutbox row.id (.markSent a.now)
          return .ok ⟨true, true⟩

def deliverRow (a : Attempt) (row : AuditOutbox) (payload : AuditOutboxPayload) :
    Worker (Except String Delivery) :=
  Prog.transaction (fun _ ↦ .delivered row.id) (orFail a.deliverFails (deliverRowInTx env a row payload))

def chainEvent (row : AuditOutbox) (result : Delivery) : Event :=
  if !result.delivered then .skipped row.id
  else if result.inserted then .chained row.tenantId row.id row.createdAt
  else .delivered row.id

def deliverRowWithChain (a : Attempt) (row : AuditOutbox) (payload : AuditOutboxPayload) :
    Worker (Except String Delivery) :=
  Prog.transaction (chainEvent row) (orFail a.deliverFails (deliverRowWithChainInTx env a row payload))

/-- The body of `recordError`. -/
def recordErrorInTx (a : Attempt) (row : AuditOutbox) (error : String) : Worker (Except String Unit) :=
  let sanitizedError := env.sanitizeErrorForStorage error
  let newAttemptCount := row.attemptCount + 1
  if newAttemptCount ≥ row.maxAttempts then do
    let _ ← updateOutbox row.id (.dead newAttemptCount (left 1024 sanitizedError))
    writeDirectAuditLogInTx (directAuditLog env a.deadLetterId a.now row.tenantId .outboxDeadLetter
      [("outboxId", .str (env.rt.uuidText row.id)),
        ("action", .str (parsePayloadAction row.item.payload)),
        ("attemptCount", .num (.ofNat newAttemptCount)),
        ("lastError", .str (jsSlice 256 sanitizedError))] .tenant none)
    return .ok ()
  else do
    let _ ← updateOutbox row.id (.retried newAttemptCount a.retryAt (left 1024 sanitizedError))
    return .ok ()

/-- `recordError`; it catches the failure of its own transaction. -/
def recordError (a : Attempt) (row : AuditOutbox) (error : String) : Worker Unit := do
  let _ ← .transaction (fun _ ↦ .errorRecorded row.id)
    (orFail a.recordFails (recordErrorInTx env a row error))
  return ()

/-- `getChainEnabled`, with the answers for this batch so far. -/
def getChainEnabled (cache : List (Uuid × Bool)) (tenantId : Uuid) :
    Worker (Bool × List (Uuid × Bool)) := do
  match cache.lookup tenantId with
  | some enabled => return (enabled, cache)
  | none =>
    let enabled ← .readOnly fun db : Store ↦ decide (tenantId ∈ db.chainEnabled)
    return (enabled, (tenantId, enabled) :: cache)

/-- One pass of the loop of `processBatch`. -/
def processRow (a : Attempt) (cache : List (Uuid × Bool)) (row : AuditOutbox) :
    Worker (List (Uuid × Bool)) :=
  match parsePayload row.item.payload with
  | .error error => do
    recordError env a row error
    return cache
  | .ok payload =>
    if (env.rt.uuid? payload.userId).isNone && payload.actorType ≠ "SYSTEM" then do
      recordError env a row "invalid userId for non-SYSTEM actor type"
      return cache
    else if (env.rt.uuid? payload.userId).isNone then do
      recordError env a row
        "SYSTEM actor with invalid userId must not enter the outbox — check OUTBOX_BYPASS_AUDIT_ACTIONS"
      return cache
    else do
      let (enabled, cache) ← getChainEnabled cache row.tenantId
      match ← if enabled then deliverRowWithChain env a row payload else deliverRow env a row payload with
      | .ok _ => return cache
      | .error error =>
        recordError env a row error
        return cache

/-- The loop of `processBatch`; `n` is the number of rows before these. -/
def processRows (attempts : Nat → Attempt) : Nat → List (Uuid × Bool) → List AuditOutbox → Worker Unit
  | _, _, [] => return ()
  | n, cache, row :: rest => do
    let cache ← processRow env (attempts n) cache row
    processRows attempts (n + 1) cache rest

def processBatch (sweep : Sweep) (attempts : Nat → Attempt) : Worker Unit := do
  match ← claimBatch sweep with
  | .error _ => return ()
  | .ok rows => processRows env attempts 0 [] rows

def reapedAttempt (attempt : Nat) : String :=
  left 1024 ("[reaped after timeout, attempt " ++ attempt.repr ++ "]")

def outboxReapedLog (now : Millis) (logId : Uuid → Uuid) (row : AuditOutbox) : AuditLog :=
  if row.status = .failed then
    directAuditLog env (logId row.id) now row.tenantId .outboxDeadLetter
      [("outboxId", .str (env.rt.uuidText row.id)), ("attemptCount", .num (.ofNat row.attemptCount)),
        ("reason", .str "reaped_max_attempts")] .tenant none
  else
    directAuditLog env (logId row.id) now row.tenantId .outboxReaped
      [("outboxId", .str (env.rt.uuidText row.id)), ("attemptCount", .num (.ofNat row.attemptCount))]
      .tenant none

def reapStuckRows (timeout : Millis) (sweep : Sweep) (logId : Uuid → Uuid) : Worker Unit := do
  let _ ← .transaction (fun _ ↦ .other) (reapFrom outboxTable .outbox reapedAttempt
    (fun row ↦ some (outboxReapedLog env sweep.now logId row)) timeout sweep)
  return ()

end Outbox

section FanOut

variable (env : Env)

/-- What a worker cannot control while it processes one delivery: the delivery itself, its two
transactions, the clock and a random identifier. -/
structure ItemAttempt where
  now : Millis
  deliverFails : Option String
  sentFails : Option String
  recordFails : Option String
  retryAt : Millis
  deadLetterId : Uuid

/-- `update` of one row, which throws when there is none. -/
def updateItem {Row : Type} (t : Table Store Uuid Row) (lock : Uuid → Lock) (id : Uuid) (f : Row → Row) :
    Worker (Except String Unit) := do
  if (← .updateMany t lock (fun row ↦ t.key row = id) f) = 0 then return .error "Record to update not found"
  return .ok ()

abbrev TargetedDelivery := AuditDelivery × AuditDeliveryTarget

/-- The claim of `processDeliveryBatch`, with the targets of the claimed rows. -/
def claimDeliveries (sweep : Sweep) : Worker (Except String (List TargetedDelivery)) :=
  Prog.transaction (fun _ ↦ .other) <|
    Prog.andThen (claimFrom deliveryTable .delivery (fun a b ↦ a.createdAt ≤ b.createdAt) sweep) fun rows ↦ do
      let targets ← .read Store.targets
      return .ok (rows.filterMap fun row ↦
        (targets.find? (·.id = row.item.targetId)).map fun target ↦ (row, target))

def AuditDelivery.markSent (row : AuditDelivery) : AuditDelivery :=
  { row with status := .sent, lastError := none }

/-- The transaction of `processOneDelivery` after the delivery. -/
def markDeliverySent (a : ItemAttempt) (delivery : TargetedDelivery) : Worker (Except String Unit) :=
  Prog.transaction (fun _ ↦ .ended .auditDelivery delivery.1.id delivery.1.attemptCount .sent) <|
    orFail a.sentFails <|
      Prog.andThen (updateItem deliveryTable .delivery delivery.1.id AuditDelivery.markSent) fun _ ↦
        updateItem targetTable .target delivery.2.id fun target ↦
          { target with
            lastDeliveredAt := some a.now
            failCount := if delivery.2.failCount > 0 then 0 else target.failCount
            lastError := if delivery.2.failCount > 0 then none else target.lastError }

def deliveryDeadLetter (a : ItemAttempt) (delivery : TargetedDelivery) (error : String) : AuditLog :=
  directAuditLog env a.deadLetterId a.now delivery.1.tenantId .deliveryDeadLetter
    [("deliveryId", .str (env.rt.uuidText delivery.1.id)),
      ("targetId", .str (env.rt.uuidText delivery.2.id)), ("error", .str (jsSlice 256 error))] .tenant none

def recordDeliveryError (a : ItemAttempt) (delivery : TargetedDelivery) (error : String) :
    Worker (Except String Unit) :=
  let message := env.sanitizeErrorForStorage error
  let newAttemptCount := delivery.1.attemptCount + 1
  if newAttemptCount ≥ delivery.1.maxAttempts then
    Prog.transaction (fun _ ↦ .ended .auditDelivery delivery.1.id delivery.1.attemptCount .failed) <|
      orFail a.recordFails <|
        Prog.andThen (updateItem deliveryTable .delivery delivery.1.id
            (.dead newAttemptCount message)) fun _ ↦
          Prog.andThen (updateItem targetTable .target delivery.2.id fun target ↦
              { target with failCount := delivery.2.failCount + 1, lastError := some message }) fun _ ↦ do
            writeDirectAuditLogInTx (deliveryDeadLetter env a delivery message)
            return .ok ()
  else
    Prog.transaction (fun _ ↦ .ended .auditDelivery delivery.1.id delivery.1.attemptCount .retried) <|
      orFail a.recordFails <|
        updateItem deliveryTable .delivery delivery.1.id
          (.retried newAttemptCount a.retryAt message)

def TargetKind.text : TargetKind → String
  | .db => "DB"
  | .webhook => "WEBHOOK"
  | .siemHec => "SIEM_HEC"
  | .s3Object => "S3_OBJECT"

/-- `processOneDelivery`; there is no deliverer for targets of kind `DB`. -/
def processOneDelivery (a : ItemAttempt) (delivery : TargetedDelivery) : Worker (Except String Unit) :=
  if delivery.2.kind = .db then
    recordDeliveryError env a delivery ("Unknown delivery target kind: " ++ delivery.2.kind.text)
  else
    match a.deliverFails with
    | some error => recordDeliveryError env a delivery error
    | none => do
      match ← markDeliverySent a delivery with
      | .ok _ => return .ok ()
      | .error error => recordDeliveryError env a delivery error

/-- The loop of `processDeliveryBatch`, which ends when recording an error throws. -/
def processDeliveries (attempts : Nat → ItemAttempt) (outboxIds : List Uuid) :
    Nat → List TargetedDelivery → Worker Unit
  | _, [] => return ()
  | n, delivery :: rest =>
    if delivery.1.item.outboxId ∈ outboxIds then do
      match ← processOneDelivery env (attempts n) delivery with
      | .error _ => return ()
      | .ok _ => processDeliveries attempts outboxIds (n + 1) rest
    else processDeliveries attempts outboxIds (n + 1) rest

def processDeliveryBatch (sweep : Sweep) (attempts : Nat → ItemAttempt) : Worker Unit := do
  match ← claimDeliveries sweep with
  | .error _ => return ()
  | .ok deliveries =>
    let outboxIds ← .readOnly fun db : Store ↦ db.outbox.map QueueRow.id
    processDeliveries env attempts outboxIds 0 deliveries

/-- The claim of `processWebhookDeliveryBatch`. -/
def claimWebhookDeliveries (sweep : Sweep) : Worker (Except String (List WebhookDelivery)) :=
  Prog.transaction (fun _ ↦ .other)
    (claimFrom webhookTable .webhookDelivery (fun a b ↦ a.nextRetryAt ≤ b.nextRetryAt) sweep)

def WebhookDelivery.markSent (row : WebhookDelivery) : WebhookDelivery :=
  { row with status := .sent, lastError := none, processingStartedAt := none }

def markWebhookDeliverySent (a : ItemAttempt) (item : WebhookDelivery) : Worker (Except String Unit) :=
  Prog.transaction (fun _ ↦ .ended .webhookDelivery item.id item.attemptCount .sent) <|
    orFail a.sentFails do
      let _ ← .updateMany webhookTable .webhookDelivery (fun row ↦ row.id = item.id)
        WebhookDelivery.markSent
      return .ok ()

def WebhookItem.auditScope (item : WebhookItem) : AuditScope × Option Uuid :=
  if item.scope = .team && item.teamId.isSome then (.team, item.teamId) else (.tenant, none)

def webhookDeadLetter (a : ItemAttempt) (item : WebhookDelivery) (error : String) : AuditLog :=
  directAuditLog env a.deadLetterId a.now item.tenantId .webhookDeliveryDeadLetter
    [("deliveryId", .str (env.rt.uuidText item.id)), ("action", .str item.item.action),
      ("attemptCount", .num (.ofNat (item.attemptCount + 1))), ("lastError", .str (jsSlice 256 error))]
    item.item.auditScope.1 item.item.auditScope.2

/-- `recordWebhookDeliveryError`; it catches the failure of its own transaction. -/
def recordWebhookDeliveryError (a : ItemAttempt) (item : WebhookDelivery) (error : String) :
    Worker Unit := do
  let message := env.sanitizeErrorForStorage error
  let newAttemptCount := item.attemptCount + 1
  if newAttemptCount ≥ item.maxAttempts then
    let _ ← .transaction (fun _ ↦ .ended .webhookDelivery item.id item.attemptCount .failed) <|
      orFail a.recordFails do
        let _ ← .updateMany webhookTable .webhookDelivery (fun row ↦ row.id = item.id)
          (.dead newAttemptCount (left 1024 message))
        writeDirectAuditLogInTx (webhookDeadLetter env a item message)
        return .ok ()
    return ()
  else
    let _ ← .transaction (fun _ ↦ .ended .webhookDelivery item.id item.attemptCount .retried) <|
      orFail a.recordFails do
        let _ ← .updateMany webhookTable .webhookDelivery (fun row ↦ row.id = item.id)
          (.retried newAttemptCount a.retryAt (left 1024 message))
        return .ok ()
    return ()

/-- `processOneWebhookDelivery`: a work item whose event was purged counts as sent, and otherwise it is
sent when no subscriber has a recoverable error. -/
def processOneWebhookDelivery (a : ItemAttempt) (item : WebhookDelivery) : Worker Unit := do
  let purged ← .readOnly fun db : Store ↦ !db.outbox.any (·.id = item.item.outboxId)
  match if purged then none else a.deliverFails with
  | some error => recordWebhookDeliveryError env a item error
  | none =>
    match ← markWebhookDeliverySent a item with
    | .ok _ => return ()
    | .error error => recordWebhookDeliveryError env a item error

/-- The work items of a batch. The worker runs a few of them at a time; their transactions are on
different rows, and here they come one after the other. -/
def processWebhookDeliveries (attempts : Nat → ItemAttempt) : Nat → List WebhookDelivery → Worker Unit
  | _, [] => return ()
  | n, item :: rest => do
    processOneWebhookDelivery env (attempts n) item
    processWebhookDeliveries attempts (n + 1) rest

def processWebhookDeliveryBatch (sweep : Sweep) (attempts : Nat → ItemAttempt) : Worker Unit := do
  match ← claimWebhookDeliveries sweep with
  | .error _ => return ()
  | .ok items => processWebhookDeliveries env attempts 0 items

def reapedDelivery (_ : Nat) : String := "reaped: processing timeout exceeded"

def deliveryReapedLog (now : Millis) (logId : Uuid → Uuid) (row : AuditDelivery) : Option AuditLog :=
  if row.status = .failed then
    some (directAuditLog env (logId row.id) now row.tenantId .deliveryDeadLetter
      [("deliveryId", .str (env.rt.uuidText row.id)), ("attemptCount", .num (.ofNat row.attemptCount)),
        ("reason", .str "reaped_max_attempts")] .tenant none)
  else none

def reapStuckDeliveries (timeout : Millis) (sweep : Sweep) (logId : Uuid → Uuid) : Worker Unit := do
  let _ ← .transaction (fun _ ↦ .other) (reapFrom deliveryTable .delivery reapedDelivery
    (deliveryReapedLog env sweep.now logId) timeout sweep)
  return ()

def webhookReapedLog (now : Millis) (logId : Uuid → Uuid) (row : WebhookDelivery) : Option AuditLog :=
  if row.status = .failed then
    some (directAuditLog env (logId row.id) now row.tenantId .webhookDeliveryDeadLetter
      [("deliveryId", .str (env.rt.uuidText row.id)), ("action", .str row.item.action),
        ("attemptCount", .num (.ofNat row.attemptCount)), ("reason", .str "reaped_max_attempts")]
      row.item.auditScope.1 row.item.auditScope.2)
  else none

def reapStuckWebhookDeliveries (timeout : Millis) (sweep : Sweep) (logId : Uuid → Uuid) :
    Worker Unit := do
  let _ ← .transaction (fun _ ↦ .other) (reapFrom webhookTable .webhookDelivery reapedDelivery
    (webhookReapedLog env sweep.now logId) timeout sweep)
  return ()

end FanOut

/-- The parts of the loop of a worker. -/
inductive Task
  | batch (sweep : Sweep) (attempts : Nat → Attempt)
  | deliveryBatch (sweep : Sweep) (attempts : Nat → ItemAttempt)
  | webhookDeliveryBatch (sweep : Sweep) (attempts : Nat → ItemAttempt)
  | reapRows (timeout : Millis) (sweep : Sweep) (logId : Uuid → Uuid)
  | reapDeliveries (timeout : Millis) (sweep : Sweep) (logId : Uuid → Uuid)
  | reapWebhookDeliveries (timeout : Millis) (sweep : Sweep) (logId : Uuid → Uuid)

def Task.perform (env : Env) : Task → Worker Unit
  | .batch sweep attempts => processBatch env sweep attempts
  | .deliveryBatch sweep attempts => processDeliveryBatch env sweep attempts
  | .webhookDeliveryBatch sweep attempts => processWebhookDeliveryBatch env sweep attempts
  | .reapRows timeout sweep logId => reapStuckRows env timeout sweep logId
  | .reapDeliveries timeout sweep logId => reapStuckDeliveries env timeout sweep logId
  | .reapWebhookDeliveries timeout sweep logId => reapStuckWebhookDeliveries env timeout sweep logId

end PasswdSso.Audit
