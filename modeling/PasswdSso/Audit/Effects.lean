import PasswdSso.Audit.Worker

/-!
# What the commits of the worker do

`Effect` lists the commits of the worker with all that they change, as a relation between the store
before, the event and the store after. `Frame` is what the others can rely on while they hold locks.
Identifiers of queue rows are unique (`Sound`), which every commit relies on and keeps. The contract of
the worker puts these together, for runs that moreover meet a condition on their commits.
-/

namespace PasswdSso.Audit

open ReadCommitted List

section Effects

/-- A pass over a queue: rows with the given status are changed by `f`, and each of them may be logged. -/
def SweptBy {Item : Type} (t : Table Store Uuid (QueueRow Item)) (status : QueueStatus)
    (f : QueueRow Item → QueueRow Item) (log : QueueRow Item → Option AuditLog) (db db' : Store) : Prop :=
  ∃ keys logs, (∀ row ∈ t.rows db, t.key row ∈ keys → row.status = status) ∧
    logs.Perm ((((t.rows db).filter fun row ↦ t.key row ∈ keys).map f).filterMap log) ∧
    db' = logTable.append logs (t.modify keys f db)

def FreshRows {Item : Type} (rows : List (QueueRow Item)) : Prop :=
  ∀ row ∈ rows, row.status = .pending

def NewAnchors (db : Store) (arows : List AuditChainAnchor) : Prop :=
  ∀ anchor ∈ arows, anchor = genesisAnchor anchor.tenantId ∧ ∀ old ∈ db.anchors, old.tenantId ≠ anchor.tenantId

theorem newAnchors_nil (db : Store) : NewAnchors db [] := forall_mem_nil _

/-- An event that has been worked on: the anchors that were added and advanced, the new log entries, what
became of the event, and the new fan-out rows. -/
def WorkedOn (arows : List AuditChainAnchor) (akeys : List Uuid)
    (advance : AuditChainAnchor → AuditChainAnchor) (logs : List AuditLog) (outboxId : Uuid)
    (f : AuditOutbox → AuditOutbox) (db db' : Store) : Prop :=
  ∃ wrows drows, FreshRows wrows ∧ FreshRows drows ∧ db' = logTable.append logs (outboxTable.modify [outboxId] f
      (deliveryTable.insertFresh deliveryClash drows (webhookTable.insertFresh webhookClash wrows
        (anchorTable.modify akeys advance (anchorTable.append arows db)))))

/-- A fan-out delivery that has ended, maybe with an entry in the log and a change of its target. -/
def EndedBy {Item : Type} (t : Table Store Uuid (QueueRow Item)) (key : Uuid)
    (f : QueueRow Item → QueueRow Item) (logs : List AuditLog) (db db' : Store) : Prop :=
  ∃ targets g, db' = logTable.append logs (targetTable.modify targets g (t.modify [key] f db))

def Unlogged (db : Store) (outboxId : Uuid) : Prop := ∀ log ∈ db.logs, log.outboxId ≠ some outboxId

/-- One of the two queues of fan-out work. -/
structure ItemQueue (Item : Type) where
  table : Table Store Uuid (QueueRow Item)
  deadLetter : AuditAction
  key : ∀ row, table.key row = row.id
  kept : ∀ db rows, (table.put db rows).outbox = db.outbox ∧ (table.put db rows).logs = db.logs ∧
    (table.put db rows).anchors = db.anchors
  rows_outbox : ∀ db rows, table.rows (outboxTable.put db rows) = table.rows db
  rows_logs : ∀ db logs, table.rows (logTable.put db logs) = table.rows db
  rows_targets : ∀ db targets, table.rows (targetTable.put db targets) = table.rows db

/-- The queue of `audit_deliveries`. -/
def deliveryQueue : ItemQueue DeliveryItem where
  table := deliveryTable
  deadLetter := .deliveryDeadLetter
  key _ := rfl
  kept _ _ := ⟨rfl, rfl, rfl⟩
  rows_outbox _ _ := rfl
  rows_logs _ _ := rfl
  rows_targets _ _ := rfl

/-- The queue of `webhook_deliveries`. -/
def webhookQueue : ItemQueue WebhookItem where
  table := webhookTable
  deadLetter := .webhookDeliveryDeadLetter
  key _ := rfl
  kept _ _ := ⟨rfl, rfl, rfl⟩
  rows_outbox _ _ := rfl
  rows_logs _ _ := rfl
  rows_targets _ _ := rfl

abbrev FanOut.Item : FanOut → Type
  | .auditDelivery => DeliveryItem
  | .webhookDelivery => WebhookItem

def FanOut.queue : (kind : FanOut) → ItemQueue kind.Item
  | .auditDelivery => deliveryQueue
  | .webhookDelivery => webhookQueue

/-- What is logged about a work item: one dead letter if it has failed, and nothing otherwise. -/
def Lettered (env : Env) (action : AuditAction) (id : Uuid) (failed : Prop) (logs : List AuditLog) : Prop :=
  ¬ failed ∧ logs = [] ∨ failed ∧ ∃ logId now tenantId metadata scope teamId, (metadata.map Prod.fst).Nodup ∧
    ("deliveryId", .str (env.rt.uuidText id)) ∈ metadata ∧
    logs = [directAuditLog env logId now tenantId action metadata scope teamId]

inductive Effect (env : Env) (db : Store) : Event → Store → Prop
  | claim {db' : Store} (now : Millis) :
      SweptBy outboxTable .pending (.claimed now) (fun _ ↦ none) db db' → Effect env db .other db'
  | reap {db' : Store} (now : Millis) (logId : Uuid → Uuid) :
      SweptBy outboxTable .processing (.reaped reapedAttempt)
        (fun row ↦ some (outboxReapedLog env now logId row)) db db' → Effect env db .other db'
  | claimItems {db' : Store} (kind : FanOut) (now : Millis) :
      SweptBy kind.queue.table .pending (.claimed now) (fun _ ↦ none) db db' → Effect env db .other db'
  | reapItems {db' : Store} (kind : FanOut) {log : QueueRow kind.Item → Option AuditLog} :
      (∀ row, Lettered env kind.queue.deadLetter row.id (row.status = .failed) (log row).toList) →
      SweptBy kind.queue.table .processing (.reaped reapedDelivery) log db db' → Effect env db .other db'
  | deliver {db' : Store} {log : AuditLog} (a : Attempt) (row : AuditOutbox)
      (payload : AuditOutboxPayload) : auditLogOf env a.auditLogId row payload = some log →
      Unlogged db row.id → WorkedOn [] [] id [log] row.id (.markSent a.now) db db' →
      Effect env db (.delivered row.id) db'
  | redeliver {db' : Store} {arows : List AuditChainAnchor} (now : Millis) (outboxId : Uuid) :
      ¬ Unlogged db outboxId → NewAnchors db arows →
      WorkedOn arows [] id [] outboxId (.markSent now) db db' →
      Effect env db (.delivered outboxId) db'
  | chain {db' : Store} {log : AuditLog} {arows : List AuditChainAnchor} (a : Attempt)
      (row : AuditOutbox) (payload : AuditOutboxPayload) (anchor : AuditChainAnchor) :
      parsePayload row.item.payload = .ok payload → auditLogOf env a.auditLogId row payload = some log →
      Unlogged db row.id → NewAnchors db arows → anchor ∈ db.anchors ++ arows →
      anchor.tenantId = row.tenantId →
      WorkedOn arows [row.tenantId] (.advance (anchor.chainSeq + 1)
          (nextEventHash env.rt anchor a.auditLogId row payload))
        [log.chainedAfter anchor (nextEventHash env.rt anchor a.auditLogId row payload)] row.id
        (.markSent a.now) db db' →
      Effect env db (.chained row.tenantId row.id row.createdAt) db'
  | skip {db' : Store} {arows : List AuditChainAnchor} (outboxId : Uuid) : NewAnchors db arows →
      WorkedOn arows [] id [] outboxId AuditOutbox.released db db' → Effect env db (.skipped outboxId) db'
  | retry {db' : Store} (outboxId : Uuid) (attemptCount : Nat) (retryAt : Millis) (error : String) :
      WorkedOn [] [] id [] outboxId (.retried attemptCount retryAt error) db db' →
      Effect env db (.errorRecorded outboxId) db'
  | dead {db' : Store} (outboxId logId tenantId : Uuid) (now : Millis) (attemptCount : Nat)
      (error : String) (metadata : List (String × Json)) :
      WorkedOn [] [] id [directAuditLog env logId now tenantId .outboxDeadLetter metadata .tenant none]
        outboxId (.dead attemptCount error) db db' →
      Effect env db (.errorRecorded outboxId) db'
  | endItem {db' : Store} (kind : FanOut) {key : Uuid} {attemptCount : Nat} {ending : Ending}
      {f : QueueRow kind.Item → QueueRow kind.Item} {logs : List AuditLog} :
      (∀ row, (f row).id = row.id ∧ (row.attemptCount = attemptCount → attemptCount ≤ (f row).attemptCount) ∧
        ((f row).status = .failed ↔ ending = .failed)) →
      Lettered env kind.queue.deadLetter key (ending = .failed) logs →
      EndedBy kind.queue.table key f logs db db' → Effect env db (.ended kind key attemptCount ending) db'

/-- An entry that the worker writes about its own work: it belongs to no event and to no chain. -/
def Direct (log : AuditLog) : Prop := log.outboxId = none ∧ log.chainSeq = none

variable {env : Env} {now : Millis} {logId : Uuid → Uuid}

theorem direct_outboxReapedLog {row : AuditOutbox} : Direct (outboxReapedLog env now logId row) := by
  unfold outboxReapedLog
  split_ifs <;> exact ⟨rfl, rfl⟩

theorem lettered_deliveryReapedLog (row : AuditDelivery) :
    Lettered env .deliveryDeadLetter row.id (row.status = .failed) (deliveryReapedLog env now logId row).toList := by
  unfold deliveryReapedLog
  split_ifs with hfailed
  · exact .inr ⟨hfailed, _, _, _, _, _, _, by simp, mem_cons_self, rfl⟩
  · exact .inl ⟨hfailed, rfl⟩

theorem lettered_webhookReapedLog (row : WebhookDelivery) :
    Lettered env .webhookDeliveryDeadLetter row.id (row.status = .failed)
      (webhookReapedLog env now logId row).toList := by
  unfold webhookReapedLog
  split_ifs with hfailed
  · exact .inr ⟨hfailed, _, _, _, _, _, _, by simp, mem_cons_self, rfl⟩
  · exact .inl ⟨hfailed, rfl⟩

theorem Lettered.logs {action : AuditAction} {id : Uuid} {failed : Prop} {logs : List AuditLog}
    (h : Lettered env action id failed logs) : ∀ log ∈ logs, Direct log ∧ log.action = action := by
  obtain ⟨-, rfl⟩ | ⟨-, logId, now, tenantId, metadata, scope, teamId, -, -, rfl⟩ := h
  · exact forall_mem_nil _
  · exact forall_mem_singleton.mpr ⟨⟨rfl, rfl⟩, rfl⟩

theorem SweptBy.logs {Item : Type} {t : Table Store Uuid (QueueRow Item)} {status : QueueStatus}
    {f : QueueRow Item → QueueRow Item} {log : QueueRow Item → Option AuditLog} {db db' : Store}
    (h : SweptBy t status f log db db') (hlog : ∀ row entry, log row = some entry → Direct entry)
    (ht : ∀ db rows, (t.put db rows).logs = db.logs ∧ (t.put db rows).anchors = db.anchors) :
    db'.anchors = db.anchors ∧ ∃ logs, (∀ entry ∈ logs, Direct entry) ∧ db'.logs = db.logs ++ logs := by
  obtain ⟨keys, logs, -, hperm, rfl⟩ := h
  refine ⟨(ht _ _).2, logs, fun entry hentry ↦ ?_, congrArg (· ++ logs) (ht _ _).1⟩
  obtain ⟨row, -, hrow⟩ := mem_filterMap.mp (hperm.mem_iff.mp hentry)
  exact hlog row entry hrow

/-- What a commit leaves alone unless it holds the locks, and that the log only grows. -/
structure Frame (held : Locks) (db db' : Store) : Prop where
  outbox : outboxTable.KeptExcept .outbox held db db'
  deliveries : deliveryTable.KeptExcept .delivery held db db'
  webhooks : webhookTable.KeptExcept .webhookDelivery held db db'
  anchors : anchorTable.KeptExcept .anchor held db db'
  logs : ∃ logs, db'.logs = db.logs ++ logs ∧ ∀ log ∈ logs, ∀ outboxId, log.outboxId = some outboxId →
    (.logOutbox outboxId, .exclusive) ∈ held

end Effects

section Sound

/-- The identifiers of queue rows are unique. -/
structure Sound (db : Store) : Prop where
  outbox : outboxTable.KeysUnique db
  deliveries : deliveryTable.KeysUnique db
  webhooks : webhookTable.KeysUnique db

theorem Sound.queue {db : Store} (h : Sound db) : ∀ kind : FanOut, kind.queue.table.KeysUnique db
  | .auditDelivery => h.deliveries
  | .webhookDelivery => h.webhooks

/-- How the identifiers of the queues change: those of the events never, the others only by new rows. -/
structure Grows (db db' : Store) : Prop where
  outbox : db'.outbox.map QueueRow.id = db.outbox.map QueueRow.id
  deliveries : ∃ drows, db'.deliveries.map QueueRow.id = (addFresh deliveryClash drows db.deliveries).map QueueRow.id
  webhooks : ∃ wrows, db'.webhookDeliveries.map QueueRow.id =
    (addFresh webhookClash wrows db.webhookDeliveries).map QueueRow.id

variable {db db' : Store}

theorem Grows.sound (h : Grows db db') (hsound : Sound db) : Sound db' where
  outbox := (h.outbox ▸ hsound.outbox : (db'.outbox.map QueueRow.id).Nodup)
  deliveries := by
    obtain ⟨drows, hrows⟩ := h.deliveries
    refine (hrows ▸ nodup_addFresh hsound.deliveries ?_ : (db'.deliveries.map QueueRow.id).Nodup)
    exact fun row old hkey ↦ by simp [deliveryClash, show old.id = row.id from hkey]
  webhooks := by
    obtain ⟨wrows, hrows⟩ := h.webhooks
    refine (hrows ▸ nodup_addFresh hsound.webhooks ?_ : (db'.webhookDeliveries.map QueueRow.id).Nodup)
    exact fun row old hkey ↦ by simp [webhookClash, show old.id = row.id from hkey]

theorem Grows.has (h : Grows db db') (key : Uuid) : (outboxTable.Has key db → outboxTable.Has key db') ∧
      (deliveryTable.Has key db → deliveryTable.Has key db') ∧
      (webhookTable.Has key db → webhookTable.Has key db') := by
  have hadded {Item : Type} {clash : QueueRow Item → QueueRow Item → Bool} {new rows rows' : List (QueueRow Item)}
      (hrows : rows'.map QueueRow.id = (addFresh clash new rows).map QueueRow.id)
      (hhas : ∃ row ∈ rows, row.id = key) : ∃ row ∈ rows', row.id = key := by
    obtain ⟨added, -, hnew⟩ : ∃ added, added.Sublist new ∧ addFresh clash new rows = rows ++ added :=
      addFresh_eq_append new rows
    rw [← mem_map, hrows, hnew, map_append]
    exact mem_append_left _ (mem_map.mpr hhas)
  obtain ⟨drows, hdrows⟩ := h.deliveries
  obtain ⟨wrows, hwrows⟩ := h.webhooks
  exact ⟨(Table.has_congr h.outbox).mpr, hadded hdrows, hadded hwrows⟩

theorem grows_of_ids (houtbox : db'.outbox.map QueueRow.id = db.outbox.map QueueRow.id)
    (hdeliveries : db'.deliveries.map QueueRow.id = db.deliveries.map QueueRow.id)
    (hwebhooks : db'.webhookDeliveries.map QueueRow.id = db.webhookDeliveries.map QueueRow.id) :
    Grows db db' :=
  ⟨houtbox, ⟨[], hdeliveries⟩, ⟨[], hwebhooks⟩⟩

theorem map_id_modify {Item : Type} {rows : List (QueueRow Item)} {keys : List Uuid}
    {f : QueueRow Item → QueueRow Item} (hf : ∀ row, (f row).id = row.id) :
    (rows.map fun row ↦ if row.id ∈ keys then f row else row).map QueueRow.id = rows.map QueueRow.id := by
  rw [map_map]
  refine map_congr_left fun row _ ↦ ?_
  simp only [Function.comp_apply]
  split_ifs
  · exact hf row
  · rfl

theorem WorkedOn.grows {arows : List AuditChainAnchor} {akeys : List Uuid}
    {advance : AuditChainAnchor → AuditChainAnchor} {logs : List AuditLog} {outboxId : Uuid}
    {f : AuditOutbox → AuditOutbox} (h : WorkedOn arows akeys advance logs outboxId f db db')
    (hf : ∀ row, (f row).id = row.id) : Grows db db' := by
  obtain ⟨wrows, drows, -, -, rfl⟩ := h
  exact ⟨map_id_modify hf, ⟨drows, rfl⟩, ⟨wrows, rfl⟩⟩

theorem Effect.grows {env : Env} {label : Event} (h : Effect env db label db') : Grows db db' := by
  cases h with
  | claim now h | reap now logId h =>
    obtain ⟨keys, logs, -, -, rfl⟩ := h
    exact grows_of_ids (map_id_modify fun _ ↦ rfl) rfl rfl
  | claimItems kind now h | reapItems kind _ h =>
    obtain ⟨keys, logs, -, -, rfl⟩ := h
    cases kind with
    | auditDelivery => exact grows_of_ids rfl (map_id_modify fun _ ↦ rfl) rfl
    | webhookDelivery => exact grows_of_ids rfl rfl (map_id_modify fun _ ↦ rfl)
  | deliver a row payload _ _ h | redeliver now outboxId _ _ h | chain a row payload anchor _ _ _ _ _ _ h
  | skip outboxId _ h | retry outboxId attemptCount retryAt error h
  | dead outboxId logId tenantId now attemptCount error metadata h => exact h.grows fun _ ↦ rfl
  | endItem kind hf _ h =>
    obtain ⟨targets, g, rfl⟩ := h
    cases kind with
    | auditDelivery => exact grows_of_ids rfl (map_id_modify fun row ↦ (hf row).1) rfl
    | webhookDelivery => exact grows_of_ids rfl rfl (map_id_modify fun row ↦ (hf row).1)

end Sound

def contract (env : Env) (cond : Event → Store → Prop) : Contract Store Lock Event where
  allowed label _ w := cond label w.db ∧ Sound w.db
  guarantee held w label db := cond label w.db ∧ Sound w.db ∧ Frame held w.db db ∧ Effect env w.db label db

section Contract

variable {env : Env} {cond : Event → Store → Prop}

theorem contract_sound : (contract env cond).Preserves fun w ↦ Sound w.db :=
  fun _ _ _ _ hsound hguarantee ↦ hguarantee.2.2.2.grows.sound hsound

theorem contract_outbox : (contract env cond).Keeps outboxTable .outbox :=
  fun _ _ _ _ hguarantee ↦ hguarantee.2.2.1.outbox

theorem contract_deliveries : (contract env cond).Keeps deliveryTable .delivery :=
  fun _ _ _ _ hguarantee ↦ hguarantee.2.2.1.deliveries

theorem contract_webhooks : (contract env cond).Keeps webhookTable .webhookDelivery :=
  fun _ _ _ _ hguarantee ↦ hguarantee.2.2.1.webhooks

theorem contract_anchors : (contract env cond).Keeps anchorTable .anchor :=
  fun _ _ _ _ hguarantee ↦ hguarantee.2.2.1.anchors

theorem has_outbox (key : Uuid) : (contract env cond).Preserves fun w ↦ outboxTable.Has key w.db :=
  fun _ _ _ _ hhas hguarantee ↦ (hguarantee.2.2.2.grows.has key).1 hhas

theorem has_webhook (key : Uuid) : (contract env cond).Preserves fun w ↦ webhookTable.Has key w.db :=
  fun _ _ _ _ hhas hguarantee ↦ (hguarantee.2.2.2.grows.has key).2.2 hhas

end Contract

end PasswdSso.Audit
