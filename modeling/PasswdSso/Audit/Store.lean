import PasswdSso.Audit.Chain
import PasswdSso.ReadCommitted.Queue

/-!
# The audit tables

The queue of audit events (`audit_outbox`), the log that they are delivered to (`audit_logs`), the heads
of the hash chains of the tenants (`audit_chain_anchors`), and the two queues of deliveries that fan out
from the log (`audit_deliveries` and `webhook_deliveries`). The three queues have the same columns for
their bookkeeping, which `QueueRow` holds.
-/

namespace PasswdSso.Audit

open ReadCommitted

/-- `AuditOutboxStatus` and `AuditDeliveryStatus`. -/
inductive QueueStatus
  | pending
  | processing
  | sent
  | failed
  deriving DecidableEq

inductive AuditScope
  | personal
  | team
  | tenant
  deriving DecidableEq

inductive ActorType
  | human
  | serviceAccount
  | mcpAgent
  | system
  | anonymous
  deriving DecidableEq

/-- `AuditAction`: the actions that the worker itself records, and the others by name. -/
inductive AuditAction
  | outboxReaped
  | outboxDeadLetter
  | deliveryDeadLetter
  | webhookDeliveryDeadLetter
  | named (name : String)
  deriving DecidableEq

/-- `WebhookDeliveryScope`. -/
inductive WebhookScope
  | tenant
  | team
  deriving DecidableEq

/-- `AuditDeliveryTargetKind`. -/
inductive TargetKind
  | db
  | webhook
  | siemHec
  | s3Object
  deriving DecidableEq

structure QueueRow (Item : Type) where
  id : Uuid
  tenantId : Uuid
  status : QueueStatus
  attemptCount : Nat
  maxAttempts : Nat
  nextRetryAt : Millis
  processingStartedAt : Option Millis
  lastError : Option String
  createdAt : Millis
  item : Item

/-- The other columns of `audit_outbox`. -/
structure OutboxItem where
  payload : Json
  sentAt : Option Millis

/-- The other columns of `audit_deliveries`. -/
structure DeliveryItem where
  outboxId : Uuid
  targetId : Uuid

/-- The other columns of `webhook_deliveries`. -/
structure WebhookItem where
  outboxId : Uuid
  scope : WebhookScope
  teamId : Option Uuid
  action : String

abbrev AuditOutbox := QueueRow OutboxItem

abbrev AuditDelivery := QueueRow DeliveryItem

abbrev WebhookDelivery := QueueRow WebhookItem

/-- An `audit_logs` row. -/
structure AuditLog where
  id : Uuid
  tenantId : Uuid
  scope : AuditScope
  action : AuditAction
  userId : Uuid
  actorType : ActorType
  serviceAccountId : Option Uuid
  teamId : Option Uuid
  targetType : Option String
  targetId : Option String
  metadata : Option Json
  ip : Option String
  userAgent : Option String
  createdAt : Millis
  outboxId : Option Uuid
  chainSeq : Option Int
  eventHash : Option Bytes
  chainPrevHash : Option Bytes
  deriving DecidableEq

/-- The columns of an `audit_chain_anchors` row that the worker uses. -/
structure AuditChainAnchor where
  tenantId : Uuid
  chainSeq : Int
  prevHash : Bytes
  publishPausedUntil : Option Millis

/-- An `audit_delivery_targets` row, without its encrypted configuration. -/
structure AuditDeliveryTarget where
  id : Uuid
  tenantId : Uuid
  kind : TargetKind
  isActive : Bool
  failCount : Nat
  lastError : Option String
  lastDeliveredAt : Option Millis

/-- The part of the database that the worker works on; `chainEnabled` are the tenants whose
`audit_chain_enabled` is set. -/
structure Store where
  outbox : List AuditOutbox
  logs : List AuditLog
  anchors : List AuditChainAnchor
  targets : List AuditDeliveryTarget
  deliveries : List AuditDelivery
  webhookDeliveries : List WebhookDelivery
  chainEnabled : List Uuid

/-- The rows and unique keys that statements lock. -/
inductive Lock
  | outbox (id : Uuid)
  | log (id : Uuid)
  | logOutbox (outboxId : Uuid)
  | anchor (tenantId : Uuid)
  | target (id : Uuid)
  | delivery (id : Uuid)
  | deliveryKey (outboxId targetId : Uuid)
  | webhookDelivery (id : Uuid)
  | webhookKey (outboxId : Uuid) (scope : WebhookScope) (teamId : Option Uuid)
  deriving DecidableEq

abbrev Locks := List (Lock × Mode)

inductive FanOut
  | auditDelivery
  | webhookDelivery
  deriving DecidableEq

/-- How a worker leaves an item that it had claimed with the given number of attempts. -/
inductive Ending
  | sent
  | retried
  | failed
  deriving DecidableEq

/-- What a committed transaction did. -/
inductive Event
  | other
  | chained (tenantId outboxId : Uuid) (createdAt : Millis)
  | delivered (outboxId : Uuid)
  | skipped (outboxId : Uuid)
  | errorRecorded (outboxId : Uuid)
  | ended (queue : FanOut) (id : Uuid) (attemptCount : Nat) (ending : Ending)

abbrev Worker (α : Type) := Prog Store Lock Event α

def outboxTable : Table Store Uuid AuditOutbox where
  rows := Store.outbox
  put db rows := { db with outbox := rows }
  key := QueueRow.id

def logTable : Table Store Uuid AuditLog where
  rows := Store.logs
  put db rows := { db with logs := rows }
  key := AuditLog.id

def anchorTable : Table Store Uuid AuditChainAnchor where
  rows := Store.anchors
  put db rows := { db with anchors := rows }
  key := AuditChainAnchor.tenantId

def targetTable : Table Store Uuid AuditDeliveryTarget where
  rows := Store.targets
  put db rows := { db with targets := rows }
  key := AuditDeliveryTarget.id

def deliveryTable : Table Store Uuid AuditDelivery where
  rows := Store.deliveries
  put db rows := { db with deliveries := rows }
  key := QueueRow.id

def webhookTable : Table Store Uuid WebhookDelivery where
  rows := Store.webhookDeliveries
  put db rows := { db with webhookDeliveries := rows }
  key := QueueRow.id

end PasswdSso.Audit
