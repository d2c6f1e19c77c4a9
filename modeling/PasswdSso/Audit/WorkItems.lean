import PasswdSso.Audit.OutboxStates
import Mathlib.Data.List.Count

/-!
# The ends of fan-out work items

A delivery or a webhook delivery ends as `SENT` or `FAILED`, and a dead letter is logged when it ends as
`FAILED`. The two queues are treated alike (`ItemQueue`). `Moves` is what a commit may do to the rows of
a queue and to its dead letters, when a worker only ends the items that are still its own
(`EndedInTime`): rows that have ended stay, attempts are counted up, and every row that fails leaves a
dead letter. Runs of such commits keep this (`items_end_once`). A worker whose claim has run out may end
an item of another worker, or one that has ended already (`items_end_twice`).
-/

namespace PasswdSso.Audit

open ReadCommitted List

section Letters

variable {env : Env}

def isDeadLetter (rt : Runtime) (action : AuditAction) (id : Uuid) (log : AuditLog) : Bool :=
  log.outboxId = none && log.action = action &&
    (log.metadata.bind fun metadata ↦ metadata.normal.field? "deliveryId") = some (.str (rt.uuidText id))

/-- The number of dead letters of a work item. -/
def deadLetters (rt : Runtime) (action : AuditAction) (id : Uuid) (logs : List AuditLog) : Nat :=
  logs.countP (isDeadLetter rt action id)

variable {action : AuditAction} {rt : Runtime}

theorem deadLetters_append {id : Uuid} (old logs : List AuditLog) :
    deadLetters rt action id (old ++ logs) = deadLetters rt action id old + deadLetters rt action id logs :=
  countP_append

theorem isDeadLetter_directAuditLog (hrt : env.rt.Faithful) {logId tenantId : Uuid} {now : Millis}
    {metadata : List (String × Json)} {scope : AuditScope} {teamId : Option Uuid} {item : Uuid}
    (hkeys : (metadata.map Prod.fst).Nodup) (hitem : ("deliveryId", .str (env.rt.uuidText item)) ∈ metadata)
    (id : Uuid) :
    isDeadLetter env.rt action id (directAuditLog env logId now tenantId action metadata scope teamId) =
      decide (item = id) := by
  have hfield : ((env.rt.jsonb (.object metadata)).normal.field? "deliveryId") =
      some (.str (env.rt.uuidText item)) := by
    rw [hrt.jsonb_normal, Json.field?_normal hkeys hitem]
    rfl
  simp [isDeadLetter, directAuditLog, hfield, hrt.uuid_injective.eq_iff]

def NoLetters (action : AuditAction) (logs : List AuditLog) : Prop :=
  ∀ log ∈ logs, log.outboxId = none → log.action ≠ action

theorem NoLetters.deadLetters {logs : List AuditLog} (h : NoLetters action logs) (id : Uuid) :
    deadLetters rt action id logs = 0 := by
  refine countP_eq_zero.mpr fun log hlog hletter ↦ ?_
  simp only [isDeadLetter, Bool.and_eq_true, decide_eq_true_eq] at hletter
  exact h log hlog hletter.1.1 hletter.1.2

theorem noLetters_nil (action : AuditAction) : NoLetters action [] := forall_mem_nil _

theorem Lettered.deadLetters (hrt : env.rt.Faithful) {id : Uuid} {failed : Prop} {logs : List AuditLog}
    (h : Lettered env action id failed logs) (other : Uuid) [Decidable (failed ∧ id = other)] :
    Audit.deadLetters env.rt action other logs = if failed ∧ id = other then 1 else 0 := by
  obtain ⟨hopen, rfl⟩ | ⟨hfailed, logId, now, tenantId, metadata, scope, teamId, hkeys, hitem, rfl⟩ := h
  · simp [hopen, Audit.deadLetters]
  · simp [hfailed, Audit.deadLetters, isDeadLetter_directAuditLog hrt hkeys hitem, countP_cons]

theorem Lettered.any (hrt : env.rt.Faithful) {id : Uuid} {failed : Prop} {log : Option AuditLog}
    (h : Lettered env action id failed log.toList) (other : Uuid) [Decidable (failed ∧ id = other)] :
    (log.map (isDeadLetter env.rt action other)).getD false = decide (failed ∧ id = other) := by
  have hcount := h.deadLetters hrt other
  cases log with
  | none => simp_all [Audit.deadLetters]
  | some log => by_cases hid : failed ∧ id = other <;> simp_all [Audit.deadLetters, countP_cons]

end Letters

section Moves

variable {env : Env} {Item : Type} {q : ItemQueue Item} {db db' : Store}
  {f : QueueRow Item → QueueRow Item}

def QueueRow.Ended (row : QueueRow Item) : Prop := row.status = .sent ∨ row.status = .failed

/-- A row stays as it is, or it has not ended yet and its attempts are counted up. -/
def QueueRow.Advanced (row row' : QueueRow Item) : Prop :=
  row'.id = row.id ∧ (row' = row ∨ ¬ row.Ended ∧ row.attemptCount ≤ row'.attemptCount)

/-- What a commit does to a queue: rows advance, new rows are pending, and each row that fails leaves a
dead letter. -/
def Moves (rt : Runtime) (q : ItemQueue Item) (db db' : Store) : Prop :=
  ∃ (g : QueueRow Item → QueueRow Item) (new : List (QueueRow Item)),
    q.table.rows db' = (q.table.rows db).map g ++ new ∧ FreshRows new ∧
    (∀ row ∈ q.table.rows db, row.Advanced (g row)) ∧
    ∀ id, deadLetters rt q.deadLetter id db'.logs = deadLetters rt q.deadLetter id db.logs +
      (q.table.rows db).countP fun row ↦ decide (row.status ≠ .failed ∧ (g row).status = .failed ∧ row.id = id)

variable {logs : List AuditLog} {key : Uuid}

theorem moves_of_append {rt : Runtime} (new : List (QueueRow Item))
    (hrows : q.table.rows db' = q.table.rows db ++ new) (hlogs : db'.logs = db.logs ++ logs) (hnew : FreshRows new)
    (hletters : NoLetters q.deadLetter logs) : Moves rt q db db' := by
  refine ⟨id, new, by rw [hrows, map_id], hnew, fun row _ ↦ ⟨rfl, .inl rfl⟩, fun id ↦ ?_⟩
  have hnone : ((q.table.rows db).countP fun row ↦
      decide (row.status ≠ .failed ∧ row.status = .failed ∧ row.id = id)) = 0 :=
    countP_eq_zero.mpr fun row _ h ↦ (of_decide_eq_true h).1 (of_decide_eq_true h).2.1
  rw [hlogs, deadLetters_append, hletters.deadLetters]
  exact congrArg _ hnone.symm

theorem moves_of_swept (hrt : env.rt.Faithful) {status : QueueStatus} {log : QueueRow Item → Option AuditLog}
    (h : SweptBy q.table status f log db db') (hopen : status ≠ .sent ∧ status ≠ .failed)
    (hf : ∀ row, (f row).id = row.id ∧ row.attemptCount ≤ (f row).attemptCount)
    (hletters : ∀ row, Lettered env q.deadLetter (f row).id ((f row).status = .failed) (log (f row)).toList) :
    Moves env.rt q db db' := by
  obtain ⟨keys, logs, hstatus, hperm, rfl⟩ := h
  refine ⟨fun row ↦ if row.id ∈ keys then f row else row, [], ?_, forall_mem_nil _,
    fun row hrow ↦ ?_, fun id ↦ ?_⟩
  · simp only [Table.append, q.rows_logs, Table.rows_modify, q.key, append_nil]
  · dsimp only
    split_ifs with hmem
    · have hnow := hstatus row hrow ((q.key row).symm ▸ hmem)
      refine ⟨(hf row).1, .inr ⟨?_, (hf row).2⟩⟩
      rintro (hsent | hfailed)
      · exact hopen.1 (hnow.symm.trans hsent)
      · exact hopen.2 (hnow.symm.trans hfailed)
    · exact ⟨rfl, .inl rfl⟩
  · -- The letters are those of the rows that were found and that fail now.
    have hfound : deadLetters env.rt q.deadLetter id logs = (q.table.rows db).countP fun row ↦
        decide (row.id ∈ keys ∧ (f row).status = .failed ∧ (f row).id = id) := by
      rw [deadLetters, hperm.countP_eq, countP_filterMap, countP_map, countP_filter]
      exact countP_congr fun row _ ↦ by simp [(hletters row).any hrt, q.key, and_comm]
    rw [show (logTable.append logs (q.table.modify keys f db)).logs = db.logs ++ logs from
      congrArg (· ++ logs) (q.kept _ _).2.1, deadLetters_append, hfound]
    congr 1
    refine countP_congr fun row hrow ↦ ?_
    simp only [decide_eq_true_eq]
    split_ifs with hmem
    · have hnow := hstatus row hrow ((q.key row).symm ▸ hmem)
      rw [hnow, (hf row).1]
      exact ⟨fun h ↦ ⟨hopen.2, h.2⟩, fun h ↦ ⟨hmem, h.2⟩⟩
    · exact ⟨fun h ↦ absurd h.1 hmem, fun h ↦ absurd h.2.1 h.1⟩

/-- The row with the key is still being processed, in the attempt with this number. -/
def Held (q : ItemQueue Item) (key : Uuid) (attemptCount : Nat) (db : Store) : Prop :=
  ∃ row ∈ q.table.rows db, row.id = key ∧ row.status = .processing ∧ row.attemptCount = attemptCount

instance (q : ItemQueue Item) (key : Uuid) (attemptCount : Nat) (db : Store) :
    Decidable (Held q key attemptCount db) :=
  inferInstanceAs (Decidable (∃ row ∈ q.table.rows db, row.id = key ∧ row.status = .processing ∧
    row.attemptCount = attemptCount))

theorem countP_key {held : QueueRow Item} (hunique : q.table.KeysUnique db) (hmem : held ∈ q.table.rows db)
    (hkey : held.id = key) :
    ((q.table.rows db).countP fun row ↦ decide (row.id = key)) = 1 := by
  have hcount : ((q.table.rows db).map q.table.key).count key = 1 :=
    count_eq_one_of_mem hunique (mem_map.mpr ⟨held, hmem, (q.key held).trans hkey⟩)
  rw [count_eq_countP, countP_map] at hcount
  rw [← hcount]
  exact countP_congr fun row _ ↦ by simp [q.key]

theorem moves_of_ended (hrt : env.rt.Faithful) {attemptCount : Nat} {ending : Ending}
    (h : EndedBy q.table key f logs db db') (hheld : Held q key attemptCount db) (hunique : q.table.KeysUnique db)
    (hf : ∀ row, (f row).id = row.id ∧ (row.attemptCount = attemptCount → attemptCount ≤ (f row).attemptCount) ∧
      ((f row).status = .failed ↔ ending = .failed))
    (hletters : Lettered env q.deadLetter key (ending = .failed) logs) : Moves env.rt q db db' := by
  obtain ⟨targets, g, rfl⟩ := h
  obtain ⟨held, hmem, hkey, hstatus, hcount⟩ := hheld
  have hsame (row : QueueRow Item) (hrow : row ∈ q.table.rows db) (hid : row.id ∈ [key]) : row = held :=
    hunique.eq_of_key_eq hrow hmem (by rw [q.key, q.key, hkey, mem_singleton.mp hid])
  refine ⟨fun row ↦ if row.id ∈ [key] then f row else row, [], ?_, forall_mem_nil _,
    fun row hrow ↦ ?_, fun id ↦ ?_⟩
  · simp only [Table.append, Table.modify, q.rows_logs, q.rows_targets, q.table.rows_put, q.key, append_nil]
  · dsimp only
    split_ifs with hid
    · obtain rfl := hsame row hrow hid
      refine ⟨(hf row).1, .inr ⟨?_, hcount.le.trans ((hf row).2.1 hcount)⟩⟩
      rintro (hsent | hfailed)
      · exact absurd (hstatus.symm.trans hsent) (by decide)
      · exact absurd (hstatus.symm.trans hfailed) (by decide)
    · exact ⟨rfl, .inl rfl⟩
  · have hlogs : (logTable.append logs (targetTable.modify targets g (q.table.modify [key] f db))).logs =
        db.logs ++ logs := congrArg (· ++ logs) (q.kept _ _).2.1
    rw [hlogs, deadLetters_append, hletters.deadLetters hrt]
    congr 1
    split_ifs with hfailed
    · obtain ⟨hfailed, rfl⟩ := hfailed
      rw [← countP_key hunique hmem hkey]
      refine countP_congr fun row hrow ↦ ?_
      simp only [decide_eq_true_eq]
      refine ⟨fun hid ↦ ?_, fun hid ↦ hid.2.2⟩
      obtain rfl := hsame row hrow (mem_singleton.mpr hid)
      rw [if_pos (mem_singleton.mpr hid), hstatus]
      exact ⟨by decide, (hf row).2.2.mpr hfailed, hid⟩
    · refine (countP_eq_zero.mpr fun row hrow hrowfailed ↦ hfailed ?_).symm
      obtain ⟨hbefore, hafter, hid⟩ := of_decide_eq_true hrowfailed
      dsimp only at hafter
      split_ifs at hafter with hrowkey
      · obtain rfl := hsame row hrow hrowkey
        exact ⟨(hf row).2.2.mp hafter, hkey.symm.trans hid⟩
      · exact absurd hafter hbefore

end Moves

section Effects

variable {env : Env} {db db' : Store} {label : Event}

/-- A worker ends an item only while it is still at its own attempt. -/
def EndedInTime (label : Event) (db : Store) : Prop :=
  match label with
  | .ended kind key attemptCount _ => Held kind.queue key attemptCount db
  | _ => True

instance (label : Event) (db : Store) : Decidable (EndedInTime label db) := by
  induction label using Event.casesOn <;> dsimp only [EndedInTime] <;> infer_instance

section Foreign

variable {Item Other : Type} {q : ItemQueue Item} {t : Table Store Uuid (QueueRow Other)}
  {f : QueueRow Other → QueueRow Other} {rt : Runtime}
  (ht : ∀ db rows, q.table.rows (t.put db rows) = q.table.rows db ∧ (t.put db rows).logs = db.logs)

include ht

theorem moves_of_foreign_end {keys : List Uuid} {logs : List AuditLog} (hlogs : NoLetters q.deadLetter logs)
    (targets : List Uuid) (g : AuditDeliveryTarget → AuditDeliveryTarget) :
    Moves rt q db (logTable.append logs (targetTable.modify targets g (t.modify keys f db))) := by
  refine moves_of_append [] ?_ (congrArg (· ++ logs) (ht _ _).2) (forall_mem_nil _) hlogs
  rw [Table.append, q.rows_logs, append_nil, Table.modify, q.rows_targets]
  exact (ht _ _).1

theorem moves_of_foreign_sweep {status : QueueStatus} {log : QueueRow Other → Option AuditLog}
    (h : SweptBy t status f log db db') (hlog : ∀ row entry, log row = some entry → entry.action ≠ q.deadLetter) :
    Moves rt q db db' := by
  obtain ⟨keys, logs, -, hperm, rfl⟩ := h
  rw [← modify_targets_nil (t.modify keys f db)]
  refine moves_of_foreign_end ht (fun entry hentry _ ↦ ?_) [] id
  obtain ⟨row, -, hrow⟩ := mem_filterMap.mp (hperm.mem_iff.mp hentry)
  exact hlog row entry hrow

end Foreign

variable {rt : Runtime} {arows : List AuditChainAnchor} {akeys : List Uuid} {kind target : FanOut}
  {advance : AuditChainAnchor → AuditChainAnchor} {logs : List AuditLog} {outboxId : Uuid}
  {f : AuditOutbox → AuditOutbox} {log : AuditLog}

theorem FanOut.foreign (hkind : kind ≠ target) : kind.queue.deadLetter ≠ target.queue.deadLetter ∧
    ∀ db rows, target.queue.table.rows (kind.queue.table.put db rows) = target.queue.table.rows db ∧
      (kind.queue.table.put db rows).logs = db.logs := by
  cases kind <;> cases target <;> first | exact absurd rfl hkind | exact ⟨by decide, fun _ _ ↦ ⟨rfl, rfl⟩⟩

theorem WorkedOn.moves (h : WorkedOn arows akeys advance logs outboxId f db db')
    (hlogs : NoLetters target.queue.deadLetter logs) : Moves rt target.queue db db' := by
  obtain ⟨wrows, drows, hwrows, hdrows, rfl⟩ := h
  have hadded {Item : Type} {clash : QueueRow Item → QueueRow Item → Bool}
      {new : List (QueueRow Item)} (hnew : FreshRows new) (rows : List (QueueRow Item)) :
      ∃ added, FreshRows added ∧ addFresh clash new rows = rows ++ added := by
    obtain ⟨added, hsub, hrows⟩ : ∃ added, added.Sublist new ∧ addFresh clash new rows = rows ++ added :=
      addFresh_eq_append new rows
    exact ⟨added, fun row hrow ↦ hnew row (hsub.subset hrow), hrows⟩
  cases target with
  | auditDelivery =>
    obtain ⟨added, hadded, hrows⟩ := hadded hdrows db.deliveries
    exact moves_of_append added hrows rfl hadded hlogs
  | webhookDelivery =>
    obtain ⟨added, hadded, hrows⟩ := hadded hwrows db.webhookDeliveries
    exact moves_of_append added hrows rfl hadded hlogs

theorem noLetters_of_event (h : log.outboxId ≠ none) (action : AuditAction) :
    NoLetters action [log] :=
  forall_mem_singleton.mpr fun hnone ↦ absurd hnone h

variable {now : Millis} {logId : Uuid → Uuid}

theorem outboxReapedLog_action {row : AuditOutbox} : (outboxReapedLog env now logId row).action = .outboxDeadLetter ∨
      (outboxReapedLog env now logId row).action = .outboxReaped := by
  unfold outboxReapedLog
  split_ifs
  · exact .inl rfl
  · exact .inr rfl

theorem Effect.moves (hrt : env.rt.Faithful) (hcond : EndedInTime label db) (hsound : Sound db)
    (heffect : Effect env db label db') (target : FanOut) : Moves env.rt target.queue db db' := by
  have houtbox (db : Store) (rows : List AuditOutbox) :
      target.queue.table.rows (outboxTable.put db rows) = target.queue.table.rows db ∧
        (outboxTable.put db rows).logs = db.logs := ⟨target.queue.rows_outbox db rows, rfl⟩
  have hother (action : AuditAction) (haction : action ∈ [AuditAction.outboxDeadLetter, .outboxReaped]) :
      action ≠ target.queue.deadLetter := by
    revert action
    cases target <;> decide
  cases heffect with
  | claim now h => exact moves_of_foreign_sweep houtbox h fun _ _ h ↦ nomatch h
  | reap now logId h =>
    refine moves_of_foreign_sweep houtbox h fun row entry hentry ↦ hother _ ?_
    obtain rfl := Option.some.inj hentry
    rcases outboxReapedLog_action with h | h <;> rw [h] <;> decide
  | claimItems kind now h =>
    by_cases hkind : kind = target
    · subst hkind
      exact moves_of_swept hrt h (by decide) (fun _ ↦ ⟨rfl, le_rfl⟩) fun row ↦ .inl ⟨nofun, rfl⟩
    · exact moves_of_foreign_sweep (FanOut.foreign hkind).2 h fun _ _ h ↦ nomatch h
  | reapItems kind hletters h =>
    by_cases hkind : kind = target
    · subst hkind
      exact moves_of_swept hrt h (by decide) (fun _ ↦ ⟨rfl, Nat.le_succ _⟩) fun row ↦ hletters _
    · refine moves_of_foreign_sweep (FanOut.foreign hkind).2 h fun row entry hentry ↦ ?_
      rw [((hletters row).logs entry (Option.mem_toList.mpr hentry)).2]
      exact (FanOut.foreign hkind).1
  | deliver a row payload hlog _ h =>
    obtain ⟨-, -, -, -, hid, -⟩ := auditLogOf_spec hlog
    exact h.moves (noLetters_of_event (by simp [hid]) _)
  | chain a row payload anchor _ hlog _ _ _ _ h =>
    obtain ⟨-, -, -, -, hid, -⟩ := auditLogOf_spec hlog
    exact h.moves (noLetters_of_event (by simp [AuditLog.chainedAfter, hid]) _)
  | redeliver now outboxId _ _ h | skip outboxId _ h | retry outboxId attemptCount retryAt error h =>
    exact h.moves (noLetters_nil _)
  | dead outboxId logId tenantId now attemptCount error metadata h =>
    exact h.moves (forall_mem_singleton.mpr fun _ ↦ hother .outboxDeadLetter (by decide))
  | endItem kind hf hletters h =>
    by_cases hkind : kind = target
    · subst hkind
      exact moves_of_ended hrt h hcond (hsound.queue kind) hf hletters
    · obtain ⟨targets, g, rfl⟩ := h
      refine moves_of_foreign_end (FanOut.foreign hkind).2 (fun log hlog _ ↦ ?_) targets g
      rw [(hletters.logs log hlog).2]
      exact (FanOut.foreign hkind).1

end Effects

section Ends

variable {rt : Runtime} {Item : Type} {q : ItemQueue Item} {db db' : Store}

def LettersMatch (rt : Runtime) (q : ItemQueue Item) (db : Store) : Prop :=
  ∀ id, deadLetters rt q.deadLetter id db.logs =
    (q.table.rows db).countP fun row ↦ decide (row.status = .failed ∧ row.id = id)

theorem countP_add_countP {α : Type} {l : List α} {p first second : α → Bool}
    (h : ∀ x ∈ l, p x = (first x || second x) ∧ (first x && second x) = false) :
    l.countP p = l.countP first + l.countP second := by
  induction l with
  | nil => rfl
  | cons x rest ih =>
    obtain ⟨hx, hrest⟩ := forall_mem_cons.mp h
    rw [countP_cons, countP_cons, countP_cons, ih hrest, hx.1]
    cases hfirst : first x <;> cases hsecond : second x <;> simp_all <;> omega

theorem Moves.lettersMatch (h : Moves rt q db db') (hmatch : LettersMatch rt q db) : LettersMatch rt q db' := by
  obtain ⟨g, new, hrows, hnew, hadvanced, hletters⟩ := h
  intro id
  have hfresh : (new.countP fun row ↦ decide (row.status = .failed ∧ row.id = id)) = 0 :=
    countP_eq_zero.mpr fun row hrow h ↦
      absurd ((hnew row hrow).symm.trans (of_decide_eq_true h).1) (by decide)
  rw [hletters, hmatch, hrows, countP_append, hfresh, Nat.add_zero, countP_map]
  refine (countP_add_countP fun row hrow ↦ ?_).symm
  obtain ⟨hid, hkept⟩ := hadvanced row hrow
  simp only [Function.comp_apply, hid]
  by_cases hfailed : row.status = .failed
  · have hstays : (g row).status = .failed := by
      rcases hkept with hsame | ⟨hopen, -⟩
      · rw [hsame, hfailed]
      · exact absurd (.inr hfailed) hopen
    simp [hfailed, hstays]
  · simp [hfailed]

variable {row : QueueRow Item}

def QueueRow.Kept (row : QueueRow Item) (q : ItemQueue Item) (db : Store) : Prop :=
  ∃ now ∈ q.table.rows db, now.id = row.id ∧ (row.Ended → now.status = row.status) ∧
    row.attemptCount ≤ now.attemptCount

theorem Moves.kept (h : Moves rt q db db') (hrow : row.Kept q db) : row.Kept q db' := by
  obtain ⟨g, new, hrows, -, hadvanced, -⟩ := h
  obtain ⟨now, hnow, hid, hended, hcount⟩ := hrow
  obtain ⟨hid', hkept⟩ := hadvanced now hnow
  refine ⟨g now, ?_, hid'.trans hid, ?_⟩
  · rw [hrows]
    exact mem_append_left _ (mem_map_of_mem hnow)
  rcases hkept with hsame | ⟨hopen, hmore⟩
  · rw [hsame]
    exact ⟨hended, hcount⟩
  · refine ⟨fun h ↦ absurd ?_ hopen, hcount.trans hmore⟩
    unfold QueueRow.Ended
    rw [hended h]
    exact h

/-- A work item ends once between two stores: it stays as it has ended, its attempts are counted up, and
its dead letters are those of its state. -/
def EndsOnce (rt : Runtime) (q : ItemQueue Item) (db later : Store) : Prop :=
  ∀ row ∈ q.table.rows db, (∀ row' ∈ q.table.rows later, row'.id = row.id →
      (row.status = .sent ∨ row.status = .failed → row'.status = row.status) ∧
      row.attemptCount ≤ row'.attemptCount) ∧
    (row.status = .failed → deadLetters rt q.deadLetter row.id db.logs = 1) ∧
    (row.status = .sent → deadLetters rt q.deadLetter row.id db.logs = 0)

theorem LettersMatch.count (h : LettersMatch rt q db) (hunique : q.table.KeysUnique db) (hrow : row ∈ q.table.rows db) :
    (row.status = .failed → deadLetters rt q.deadLetter row.id db.logs = 1) ∧
      (row.status = .sent → deadLetters rt q.deadLetter row.id db.logs = 0) := by
  have hsame (other : QueueRow Item) (hother : other ∈ q.table.rows db) (hid : other.id = row.id) :
      other = row := hunique.eq_of_key_eq hother hrow (by rw [q.key, q.key, hid])
  refine ⟨fun hfailed ↦ ?_, fun hsent ↦ ?_⟩
  · rw [h, ← countP_key hunique hrow rfl]
    refine countP_congr fun other hother ↦ ?_
    simp only [decide_eq_true_eq]
    exact ⟨fun hid ↦ hid.2, fun hid ↦ ⟨(hsame other hother hid).symm ▸ hfailed, hid⟩⟩
  · rw [h, countP_eq_zero]
    intro other hother hfailed
    obtain ⟨hfailed, hid⟩ := of_decide_eq_true hfailed
    rw [hsame other hother hid] at hfailed
    exact absurd (hsent.symm.trans hfailed) (by decide)

end Ends

section Runs

variable {ι : Type} [DecidableEq ι] {env : Env} {tasks : ι → Task}
  {s later : State ι Store Lock Event Unit}

/-- A store from which workers start: its dead letters are those of the rows that have failed. -/
structure ItemStore (rt : Runtime) where
  store : Store
  sound : Sound store
  deliveries : LettersMatch rt deliveryQueue store
  webhooks : LettersMatch rt webhookQueue store

theorem endsOnce_of_moves {Item : Type} {q : ItemQueue Item} {start : ItemStore env.rt}
    (hunique : ∀ db, Sound db → q.table.KeysUnique db) (hfirst : LettersMatch env.rt q start.store)
    (hmoves : ∀ db label db', Sound db → EndedInTime label db → Effect env db label db' → Moves env.rt q db db')
    (hrun : WorkerRun env EndedInTime tasks start.store s)
    (hlater : Run (fun label _ w ↦ EndedInTime label w.db) s later) :
    EndsOnce env.rt q s.world.db later.world.db := by
  have hsound {s : State ι Store Lock Event Unit} (hrun : WorkerRun env EndedInTime tasks start.store s) :
      Sound s.world.db :=
    hrun.invariant Sound start.sound start.sound fun _ _ _ hinv _ _ heffect ↦ heffect.grows.sound hinv
  have hmatch : LettersMatch env.rt q s.world.db :=
    hrun.invariant (LettersMatch env.rt q) start.sound hfirst
      fun db label db' hinv hsound hcond heffect ↦ (hmoves db label db' hsound hcond heffect).lettersMatch hinv
  intro row hrow
  refine ⟨fun row' hrow' hid ↦ ?_, hmatch.count (hunique _ (hsound hrun)) hrow⟩
  obtain ⟨now, hnow, hnowId, hended, hcount⟩ := hrun.invariant_later (row.Kept q) hlater start.sound
    ⟨row, hrow, rfl, fun _ ↦ rfl, le_rfl⟩
    fun db label db' hinv hsound hcond heffect ↦ (hmoves db label db' hsound hcond heffect).kept hinv
  have hsame : row' = now := (hunique _ (hsound (Run.trans hrun hlater))).eq_of_key_eq hrow' hnow
    (by rw [q.key, q.key, hid, hnowId])
  exact hsame ▸ ⟨hended, hcount⟩

/-- In every run of workers that end only the items that are still theirs, the items of both queues end
once. -/
theorem items_end_once (env : Env) (hrt : env.rt.Faithful) (start : ItemStore env.rt) (tasks : ι → Task)
    (hrun : WorkerRun env EndedInTime tasks start.store s)
    (hlater : Run (fun label _ w ↦ EndedInTime label w.db) s later) :
    EndsOnce env.rt deliveryQueue s.world.db later.world.db ∧
      EndsOnce env.rt webhookQueue s.world.db later.world.db :=
  ⟨endsOnce_of_moves (fun _ hsound ↦ hsound.deliveries) start.deliveries
      (fun _ _ _ hsound hcond heffect ↦ heffect.moves hrt hcond hsound .auditDelivery) hrun hlater,
    endsOnce_of_moves (fun _ hsound ↦ hsound.webhooks) start.webhooks
      (fun _ _ _ hsound hcond heffect ↦ heffect.moves hrt hcond hsound .webhookDelivery) hrun hlater⟩

end Runs

/-- A delivery that may be tried once. -/
def oneDelivery : ItemStore exampleRuntime where
  store := { eventStore [exampleEvent 1 1] with
    targets := [⟨3, 9, .webhook, true, 0, none, none⟩]
    deliveries := [{ freshRow 7 9 0 ⟨1, 3⟩ with maxAttempts := 1 }] }
  sound := ⟨by decide, by decide, by decide⟩
  deliveries _ := rfl
  webhooks _ := rfl

/-- A worker that delivers well, and a reaper that comes late. -/
def slowDelivery : Nat → Task
  | 0 => .deliveryBatch exampleSweep fun _ ↦ ⟨10, none, none, none, 10, 60⟩
  | _ => .reapDeliveries 100 { exampleSweep with now := 1000 } fun _ ↦ 50

/-- A worker that was slow marks a delivery as sent after the reaper has given it up. -/
theorem items_end_twice : ¬ ∀ (env : Env) (start : ItemStore env.rt) (tasks : Nat → Task)
      (s later : State Nat Store Lock Event Unit), env.rt.Faithful →
      WorkerRun env (fun _ _ ↦ True) tasks start.store s → Run (fun _ _ _ ↦ True) s later →
      EndsOnce env.rt deliveryQueue s.world.db later.world.db ∧
        EndsOnce env.rt webhookQueue s.world.db later.world.db := by
  intro h
  obtain ⟨s, hrun, row, hrow, hsent, hletter⟩ := Run.exists_of_schedule
    (State.start ⟨oneDelivery.store, []⟩ fun i ↦ (slowDelivery i).perform exampleEnv)
    (fun w ↦ ∃ row ∈ w.db.deliveries, row.status = .sent ∧
      deadLetters exampleRuntime .deliveryDeadLetter row.id w.db.logs = 1)
    [(5, 0), (3, 1), (5, 0)]
  have hnone := ((h exampleEnv oneDelivery slowDelivery s s exampleRuntime_faithful hrun .refl).1 row hrow).2.2 hsent
  exact absurd (hletter.symm.trans hnone) (by decide)

/-- The condition can be met: the worker is in time. -/
theorem items_end_once_in_time : ∃ (s : State Nat Store Lock Event Unit) (row : AuditDelivery),
    WorkerRun exampleEnv EndedInTime slowDelivery oneDelivery.store s ∧ row ∈ s.world.db.deliveries ∧
      row.status = .sent ∧ deadLetters exampleRuntime .deliveryDeadLetter row.id s.world.db.logs = 0 := by
  obtain ⟨s, hrun, row, hrow, hsent⟩ := Run.exists_of_schedule
    (State.start ⟨oneDelivery.store, []⟩ fun i ↦ (slowDelivery i).perform exampleEnv)
    (fun w ↦ ∃ row ∈ w.db.deliveries, row.status = .sent)
    [(10, 0), (2, 1)] (fun label _ w ↦ EndedInTime label w.db)
  exact ⟨s, row, hrun, hrow, hsent, ((items_end_once exampleEnv exampleRuntime_faithful oneDelivery
    slowDelivery hrun .refl).1 row hrow).2.2 hsent⟩

end PasswdSso.Audit
