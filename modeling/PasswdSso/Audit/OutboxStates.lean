import PasswdSso.Audit.ChainIntegrity

/-!
# The states of events

An event is `SENT` when it is in the log, once, and `FAILED` when it never got there. The workers keep
this as long as none of them gives an event back to the queue after it was delivered
(`outbox_truthful`). A worker whose claim has run out can do just that: its updates go by the identifier
of the event alone, so it may record an error of its own after another worker has delivered the event
(`outbox_untruthful`).
-/

namespace PasswdSso.Audit

open ReadCommitted List

section Truthful

variable {env : Env} {db db' : Store} {outboxId : Uuid} {f : AuditOutbox → AuditOutbox}
  {logs : List AuditLog}

/-- The log entries of an event. -/
def entriesOf (outboxId : Uuid) (logs : List AuditLog) : List AuditLog :=
  logs.filter fun log ↦ log.outboxId = some outboxId

theorem unlogged_iff : Unlogged db outboxId ↔ entriesOf outboxId db.logs = [] := by
  simp [Unlogged, entriesOf, filter_eq_nil_iff]

instance (db : Store) (outboxId : Uuid) : Decidable (Unlogged db outboxId) :=
  decidable_of_iff _ unlogged_iff.symm

theorem entriesOf_append_of_ne (h : ∀ log ∈ logs, log.outboxId ≠ some outboxId)
    (old : List AuditLog) : entriesOf outboxId (old ++ logs) = entriesOf outboxId old := by
  have hnone : entriesOf outboxId logs = [] := by simpa [entriesOf, filter_eq_nil_iff] using h
  rw [entriesOf, filter_append]
  exact (congrArg (_ ++ ·) hnone).trans (append_nil _)

/-- Every event has at most one log entry, and it is `SENT` exactly when it has one. -/
structure Truthful (db : Store) : Prop where
  once : ∀ outboxId, (entriesOf outboxId db.logs).length ≤ 1
  sent : ∀ row ∈ db.outbox, row.status = .sent ↔ ¬ Unlogged db row.id

theorem Truthful.entries (h : Truthful db) {row : AuditOutbox} (hrow : row ∈ db.outbox) :
    (row.status = .sent → (entriesOf row.id db.logs).length = 1) ∧
      (row.status = .failed → entriesOf row.id db.logs = []) := by
  refine ⟨fun hsent ↦ ?_, fun hfailed ↦ ?_⟩
  · have hsome := (h.sent row hrow).mp hsent
    rw [unlogged_iff, ← length_eq_zero_iff] at hsome
    have honce := h.once row.id
    omega
  · rw [← unlogged_iff]
    by_contra hsome
    exact absurd (hfailed.symm.trans ((h.sent row hrow).mpr hsome)) (by decide)

theorem Truthful.unsent {keys : List Uuid} (h : Truthful db)
    (houtbox : db'.outbox = db.outbox.map fun row ↦ if row.id ∈ keys then f row else row)
    (hdb' : db'.logs = db.logs ++ logs) (hf : ∀ row, (f row).id = row.id ∧ (f row).status ≠ .sent)
    (hkeys : ∀ row ∈ db.outbox, row.id ∈ keys → Unlogged db row.id)
    (hlogs : ∀ log ∈ logs, log.outboxId = none) : Truthful db' := by
  have hentries (id : Uuid) : entriesOf id db'.logs = entriesOf id db.logs := by
    rw [hdb', entriesOf_append_of_ne fun log hlog ↦ by simp [hlogs log hlog]]
  refine ⟨fun id ↦ (hentries id).symm ▸ h.once id, fun row' hrow' ↦ ?_⟩
  rw [houtbox] at hrow'
  obtain ⟨row, hrow, rfl⟩ := mem_map.mp hrow'
  rw [unlogged_iff, hentries, ← unlogged_iff]
  split_ifs with hkey
  · rw [(hf row).1]
    exact ⟨fun hsent ↦ absurd hsent (hf row).2, fun hlogged ↦ absurd (hkeys row hrow hkey) hlogged⟩
  · exact h.sent row hrow

theorem Truthful.untouched (h : Truthful db) (houtbox : db'.outbox = db.outbox)
    (hdb' : db'.logs = db.logs ++ logs) (hlogs : ∀ log ∈ logs, log.outboxId = none) : Truthful db' := by
  have hnone : db'.outbox = db.outbox.map fun row ↦ if row.id ∈ [] then { row with status := .pending } else row := by
    simp [houtbox]
  exact h.unsent hnone hdb' (fun _ ↦ ⟨rfl, nofun⟩) nofun hlogs

theorem Truthful.delivered (h : Truthful db)
    (houtbox : db'.outbox = db.outbox.map fun row ↦ if row.id ∈ [outboxId] then f row else row)
    (hdb' : db'.logs = db.logs ++ logs) (hf : ∀ row, (f row).id = row.id ∧ (f row).status = .sent)
    (hlogs : ∀ log ∈ logs, log.outboxId = some outboxId)
    (hone : (entriesOf outboxId db'.logs).length = 1) : Truthful db' := by
  have hentries (id : Uuid) (hne : id ≠ outboxId) : entriesOf id db'.logs = entriesOf id db.logs := by
    rw [hdb', entriesOf_append_of_ne fun log hlog ↦ by simpa [hlogs log hlog] using hne.symm]
  refine ⟨fun id ↦ ?_, fun row' hrow' ↦ ?_⟩
  · by_cases hid : id = outboxId
    · exact hid ▸ hone.le
    · exact (hentries id hid).symm ▸ h.once id
  rw [houtbox] at hrow'
  obtain ⟨row, hrow, rfl⟩ := mem_map.mp hrow'
  simp only [mem_singleton]
  split_ifs with hkey
  · rw [(hf row).1, hkey, unlogged_iff, ← length_eq_zero_iff]
    exact ⟨fun _ ↦ by omega, fun _ ↦ (hf row).2⟩
  · rw [unlogged_iff, hentries row.id hkey, ← unlogged_iff]
    exact h.sent row hrow

theorem Truthful.one (h : Truthful db) (hlogged : ¬ Unlogged db outboxId) :
    (entriesOf outboxId db.logs).length = 1 := by
  rw [unlogged_iff, ← length_eq_zero_iff] at hlogged
  have honce := h.once outboxId
  omega

theorem one_of_unlogged {log : AuditLog} (h : Unlogged db outboxId) (hlog : log.outboxId = some outboxId) :
    (entriesOf outboxId (db.logs ++ [log])).length = 1 := by
  have hnone := unlogged_iff.mp h
  simp only [entriesOf] at hnone
  simp [entriesOf, hnone, hlog]

/-- An event that is given back to the queue, or given up, has not been delivered. -/
def ErrorsBeforeDelivery (label : Event) (db : Store) : Prop :=
  match label with
  | .errorRecorded outboxId | .skipped outboxId => Unlogged db outboxId
  | _ => True

instance (label : Event) (db : Store) : Decidable (ErrorsBeforeDelivery label db) := by
  induction label using Event.casesOn <;> dsimp only [ErrorsBeforeDelivery] <;> infer_instance

variable {status : QueueStatus} {Item : Type} {t : Table Store Uuid (QueueRow Item)}
  {g : QueueRow Item → QueueRow Item} {label : Event}

theorem Truthful.swept {log : AuditOutbox → Option AuditLog} (h : Truthful db)
    (hswept : SweptBy outboxTable status f log db db') (hstatus : status ≠ .sent)
    (hf : ∀ row, (f row).id = row.id ∧ (f row).status ≠ .sent)
    (hlog : ∀ row entry, log row = some entry → Direct entry) : Truthful db' := by
  obtain ⟨-, logs, hdirect, hlogs⟩ := hswept.logs hlog fun _ _ ↦ ⟨rfl, rfl⟩
  obtain ⟨keys, written, hkeys, -, rfl⟩ := hswept
  refine h.unsent rfl hlogs hf (fun row hrow hkey ↦ ?_) fun log hlog ↦ (hdirect log hlog).1
  by_contra hlogged
  exact hstatus ((hkeys row hrow hkey).symm.trans ((h.sent row hrow).mpr hlogged))

theorem Truthful.sweptItems {log : QueueRow Item → Option AuditLog} (h : Truthful db)
    (hswept : SweptBy t status g log db db')
    (ht : ∀ db rows, (t.put db rows).outbox = db.outbox ∧ (t.put db rows).logs = db.logs ∧
      (t.put db rows).anchors = db.anchors) (hlog : ∀ row entry, log row = some entry → Direct entry) :
    Truthful db' := by
  obtain ⟨-, logs, hdirect, hlogs⟩ := hswept.logs hlog fun db rows ↦ (ht db rows).2
  obtain ⟨keys, written, -, -, rfl⟩ := hswept
  exact h.untouched (ht _ _).1 hlogs fun log hlog ↦ (hdirect log hlog).1

theorem Truthful.ended {key : Uuid} (h : Truthful db) (hended : EndedBy t key g logs db db')
    (ht : ∀ db rows, (t.put db rows).outbox = db.outbox ∧ (t.put db rows).logs = db.logs)
    (hlogs : ∀ log ∈ logs, log.outboxId = none) : Truthful db' := by
  obtain ⟨targets, k, rfl⟩ := hended
  exact h.untouched (ht _ _).1 (congrArg (· ++ logs) (ht _ _).2) hlogs

theorem Truthful.step (h : Truthful db) (hcond : ErrorsBeforeDelivery label db) (heffect : Effect env db label db') :
    Truthful db' := by
  have hnone : ∀ log ∈ ([] : List AuditLog), log.outboxId = none := forall_mem_nil _
  have hunlogged {id : Uuid} (hid : Unlogged db id) (row : AuditOutbox) (_ : row ∈ db.outbox)
      (hrow : row.id ∈ [id]) : Unlogged db row.id := mem_singleton.mp hrow ▸ hid
  cases heffect with
  | claim now hswept =>
    exact h.swept hswept (by decide) (fun _ ↦ ⟨rfl, by simp [QueueRow.claimed]⟩) fun _ _ h ↦ nomatch h
  | reap now logId hswept =>
    refine h.swept hswept (by decide) (fun row ↦ ⟨rfl, ?_⟩) (fun row entry hentry ↦ ?_)
    · simp only [QueueRow.reaped]
      split_ifs <;> decide
    · exact (Option.some.inj hentry) ▸ direct_outboxReapedLog
  | claimItems kind now hswept => exact h.sweptItems hswept kind.queue.kept fun _ _ h ↦ nomatch h
  | reapItems kind hletters hswept =>
    exact h.sweptItems hswept kind.queue.kept fun row entry hentry ↦
      ((hletters row).logs entry (Option.mem_toList.mpr hentry)).1
  | deliver a row payload hlog hnew hworked | chain a row payload anchor _ hlog hnew _ _ _ hworked =>
    obtain ⟨wrows, drows, -, -, rfl⟩ := hworked
    obtain ⟨-, -, -, -, hid, -⟩ := auditLogOf_spec hlog
    exact h.delivered rfl rfl (fun _ ↦ ⟨rfl, rfl⟩) (forall_mem_singleton.mpr hid) (one_of_unlogged hnew hid)
  | redeliver now outboxId hlogged hanchors hworked =>
    obtain ⟨wrows, drows, -, -, rfl⟩ := hworked
    refine h.delivered rfl rfl (fun _ ↦ ⟨rfl, rfl⟩) (forall_mem_nil _) ?_
    exact (congrArg (fun logs ↦ (entriesOf outboxId logs).length) (append_nil _)).trans (h.one hlogged)
  | skip outboxId hanchors hworked =>
    obtain ⟨wrows, drows, -, -, rfl⟩ := hworked
    exact h.unsent rfl rfl (fun _ ↦ ⟨rfl, by simp [AuditOutbox.released]⟩) (hunlogged hcond) hnone
  | retry outboxId attemptCount retryAt error hworked =>
    obtain ⟨wrows, drows, -, -, rfl⟩ := hworked
    exact h.unsent rfl rfl (fun _ ↦ ⟨rfl, by simp [QueueRow.retried]⟩) (hunlogged hcond) hnone
  | dead outboxId logId tenantId now attemptCount error metadata hworked =>
    obtain ⟨wrows, drows, -, -, rfl⟩ := hworked
    exact h.unsent rfl rfl (fun _ ↦ ⟨rfl, by simp [QueueRow.dead]⟩) (hunlogged hcond)
      (forall_mem_singleton.mpr rfl)
  | endItem kind _ hletters hended =>
    exact h.ended hended (fun db rows ↦ (kind.queue.kept db rows).imp_right And.left)
      fun log hlog ↦ (hletters.logs log hlog).1.1

theorem Effect.logged (heffect : Effect env db label db') (h : ¬ Unlogged db outboxId) : ¬ Unlogged db' outboxId := by
  have hgrows : ∃ logs, db'.logs = db.logs ++ logs := by
    obtain ⟨_, logs, -, -, -, hlogs⟩ | ⟨_, _, _, _, _, _, -, -, -, -, -, -, -, hlogs⟩ := heffect.chains
    · exact ⟨_, hlogs⟩
    · exact ⟨_, hlogs⟩
  obtain ⟨logs, hlogs⟩ := hgrows
  intro hunlogged
  exact h fun log hlog ↦ hunlogged log (hlogs ▸ mem_append_left _ hlog)

end Truthful

/-- A store from which workers start: the states of its events are truthful. -/
structure TruthfulStore where
  store : Store
  sound : Sound store
  truthful : Truthful store

/-- In every run of workers in which no event is given back or given up after it was delivered, an event
that is `SENT` has exactly one log entry, one that is `FAILED` has none, and one that is `SENT` stays
so. -/
theorem outbox_truthful {ι : Type} [DecidableEq ι] (env : Env) (start : TruthfulStore) (tasks : ι → Task)
    {s : State ι Store Lock Event Unit}
    (hrun : WorkerRun env ErrorsBeforeDelivery tasks start.store s) :
    ∀ row ∈ s.world.db.outbox, (row.status = .sent → (entriesOf row.id s.world.db.logs).length = 1) ∧
      (row.status = .failed → entriesOf row.id s.world.db.logs = []) ∧
      ∀ later, Run (fun label _ w ↦ ErrorsBeforeDelivery label w.db) s later → row.status = .sent →
        ∀ row' ∈ later.world.db.outbox, row'.id = row.id → row'.status = .sent := by
  have htruthful {s : State ι Store Lock Event Unit}
      (hrun : WorkerRun env ErrorsBeforeDelivery tasks start.store s) : Truthful s.world.db :=
    hrun.invariant Truthful start.sound start.truthful fun _ _ _ hinv _ hcond heffect ↦ hinv.step hcond heffect
  intro row hrow
  refine ⟨((htruthful hrun).entries hrow).1, ((htruthful hrun).entries hrow).2, ?_⟩
  intro later hlater hsent row' hrow' hid
  have hlogged : ¬ Unlogged later.world.db row.id :=
    hrun.invariant_later (fun db ↦ ¬ Unlogged db row.id) hlater start.sound
      (((htruthful hrun).sent row hrow).mp hsent) fun _ _ _ hinv _ _ heffect ↦ heffect.logged hinv
  have hrun' : WorkerRun env ErrorsBeforeDelivery tasks start.store later := Run.trans hrun hlater
  exact ((htruthful hrun').sent row' hrow').mpr (hid.symm ▸ hlogged)

/-- One event that may be tried twice. -/
def oneEvent : TruthfulStore where
  store := eventStore [{ exampleEvent 1 1 with maxAttempts := 2 }]
  sound := ⟨by decide, by decide, by decide⟩
  truthful := ⟨fun _ ↦ Nat.zero_le _, by decide⟩

/-- A worker, a reaper that comes late, and a worker whose delivery fails. -/
def stalledWorker : Nat → Task
  | 0 => .batch exampleSweep fun n ↦ exampleAttempt (100 + n) none
  | 1 => .reapRows 100 { exampleSweep with now := 1000 } fun _ ↦ 50
  | _ => .batch { exampleSweep with now := 1000 } fun _ ↦ exampleAttempt 200 (some "connection terminated")

/-- A worker that is given the event again after another worker's claim ran out, and whose own last
attempt fails, gives the event up although the other worker has delivered it. -/
theorem outbox_untruthful :
    ¬ ∀ (env : Env) (start : TruthfulStore) (tasks : Nat → Task) (s : State Nat Store Lock Event Unit),
      WorkerRun env (fun _ _ ↦ True) tasks start.store s →
      ∀ row ∈ s.world.db.outbox, (row.status = .sent → (entriesOf row.id s.world.db.logs).length = 1) ∧
        (row.status = .failed → entriesOf row.id s.world.db.logs = []) ∧
        ∀ later, Run (fun _ _ _ ↦ True) s later → row.status = .sent →
          ∀ row' ∈ later.world.db.outbox, row'.id = row.id → row'.status = .sent := by
  intro h
  obtain ⟨s, hrun, row, hrow, hfailed, hlogged⟩ := Run.exists_of_schedule
    (State.start ⟨oneEvent.store, []⟩ fun i ↦ (stalledWorker i).perform exampleEnv)
    (fun w ↦ ∃ row ∈ w.db.outbox, row.status = .failed ∧ (entriesOf row.id w.db.logs).length = 1)
    [(2, 0), (3, 1), (4, 2), (11, 0), (10, 2)]
  have hnone := (h exampleEnv oneEvent stalledWorker s hrun row hrow).2.1 hfailed
  exact absurd (hlogged.symm.trans (congrArg List.length hnone)) (by decide)

/-- The condition can be met: the worker whose claim ran out delivers the event. -/
theorem outbox_truthful_stalled : ∃ (s : State Nat Store Lock Event Unit) (row : AuditOutbox),
    WorkerRun exampleEnv ErrorsBeforeDelivery stalledWorker oneEvent.store s ∧
      row ∈ s.world.db.outbox ∧ row.status = .sent ∧
      (entriesOf row.id s.world.db.logs).length = 1 := by
  obtain ⟨s, hrun, row, hrow, hsent⟩ := Run.exists_of_schedule
    (State.start ⟨oneEvent.store, []⟩ fun i ↦ (stalledWorker i).perform exampleEnv)
    (fun w ↦ ∃ row ∈ w.db.outbox, row.status = .sent)
    [(2, 0), (3, 1), (4, 2), (11, 0)] (fun label _ w ↦ ErrorsBeforeDelivery label w.db)
  exact ⟨s, row, hrun, hrow, hsent, (outbox_truthful exampleEnv oneEvent stalledWorker hrun row hrow).1 hsent⟩

end PasswdSso.Audit
