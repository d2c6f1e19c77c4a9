import PasswdSso.Audit.Effects

/-!
# Proof outlines of the worker

The tasks of the worker walked through statement by statement. `Swept` is what a claim or a reaper has
found, locked and written when it commits, and `Working` what a worker on an event has. Since rows stay
in the queues, every update of a claimed row finds it. `perform_outline` says that all tasks keep the
contract of the worker.
-/

namespace PasswdSso.Audit

open ReadCommitted List Table

variable {env : Env} {cond : Event → Store → Prop} {stand : Stand Store Lock Event}
  {w : World Store Event}

theorem comp_append_nil (f : Store → Store) : logTable.append [] ∘ f = f :=
  funext fun _ ↦ logTable.append_nil _

theorem returns_orFail {α : Type} {c : Contract Store Lock Event} {fails : Option String}
    {body : Worker (Except String α)} {post : α → Stand Store Lock Event → Prop}
    (h : Returns c body stand post) : Returns c (orFail fails body) stand post := by
  refine .andThen h fun value after hafter ↦ ?_
  cases fails with
  | none => exact .ok hafter
  | some error => exact .error

section Sweeps

variable {Item : Type} {c : Contract Store Lock Event} {t : Table Store Uuid (QueueRow Item)}
  {lock : Uuid → Lock} {status : QueueStatus} {f : QueueRow Item → QueueRow Item}
  {log : QueueRow Item → Option AuditLog}

/-- A pass over a queue that is about to commit: it has found rows with the given status, holds them,
has applied `f` to them and logged what it made of them. -/
def Swept (c : Contract Store Lock Event) (t : Table Store Uuid (QueueRow Item)) (lock : Uuid → Lock)
    (status : QueueStatus) (f : QueueRow Item → QueueRow Item) (log : QueueRow Item → Option AuditLog)
    (final : Stand Store Lock Event) : Prop :=
  ∃ (s : Stand Store Lock Event) (keys : List Uuid), s.Reaches c final ∧
    (∀ key ∈ keys, (lock key, .exclusive) ∈ s.held) ∧
    (∀ key ∈ keys, ∃ row ∈ t.rows s.seen.db, t.key row = key ∧ row.status = status) ∧
    final.pending = logTable.append
      ((((t.rows s.seen.db).filter fun row ↦ t.key row ∈ keys).map f).filterMap log) ∘ t.modify keys f

variable {final : Stand Store Lock Event} {le : QueueRow Item → QueueRow Item → Bool}

theorem Swept.reaches {next : Stand Store Lock Event} (h : Swept c t lock status f log next)
    (hreaches : next.Reaches c final) (hpending : final.pending = next.pending) :
    Swept c t lock status f log final := by
  obtain ⟨s, keys, hs, hheld, hfound, hnext⟩ := h
  exact ⟨s, keys, hs.trans hreaches, hheld, hfound, hpending.trans hnext⟩

variable {sweep : Sweep}

theorem mem_choose {sel : QueueRow Item → Bool} {db : Store} {key : Uuid} (h : key ∈ sweep.choose t sel le db) :
    ∃ row ∈ t.rows db, row.id = key ∧ sel row = true := by
  obtain ⟨row, hrow, rfl⟩ := mem_map.mp h
  have hmem := (mem_filter.mp ((mem_insertionSort _).mp (mem_of_mem_take hrow)))
  exact ⟨row, hmem.1, rfl, (Bool.and_eq_true _ _ ▸ hmem.2).1⟩

theorem returns_claimFrom (ht : t.key = QueueRow.id) (hpending : stand.pending = id) :
    Returns c (claimFrom t lock le sweep) stand fun rows final ↦
      Swept c t lock .pending (QueueRow.claimed sweep.now) (fun _ ↦ none) final ∧
        ∀ row ∈ rows, t.Has row.id final.seen.db := by
  refine .updateChosen fun next keys hkeys hstep ↦ .ok ⟨?_, ?_⟩
  · rw [hpending] at hkeys
    refine ⟨next, keys, .refl next, fun key hkey ↦ hstep.mem_held (mem_map_of_mem hkey), ?_, ?_⟩
    · intro key hkey
      obtain ⟨row, hrow, hid, hdue⟩ := mem_choose (hkeys ▸ hkey)
      simp only [QueueRow.due, Bool.and_eq_true, decide_eq_true_eq] at hdue
      exact ⟨row, hrow, ht ▸ hid, hdue.1⟩
    · rw [hstep.pending, hpending, filterMap_none, comp_append_nil]
      rfl
  · intro row hrow
    obtain ⟨old, hold, rfl⟩ := mem_map.mp hrow
    rw [hpending] at hold
    exact ⟨old, (mem_filter.mp hold).1, by rw [ht]; rfl⟩

theorem returns_writeReaped (rows : List (QueueRow Item)) :
    Returns c (writeReaped log rows) stand fun _ final ↦ stand.Reaches c final ∧
      final.pending = logTable.append (rows.filterMap log) ∘ stand.pending := by
  induction rows generalizing stand with
  | nil => exact .ok ⟨.refl _, (comp_append_nil _).symm⟩
  | cons row rest ih =>
    rw [writeReaped]
    cases hlog : log row with
    | none =>
      rw [filterMap_cons_none hlog]
      exact ih
    | some entry =>
      rw [filterMap_cons_some hlog]
      refine .write fun next hnext ↦ Returns.mono ih ?_
      rintro - final ⟨hreaches, hpending⟩
      refine ⟨hnext.reaches.trans hreaches, ?_⟩
      rw [hpending, hnext.pending]
      funext db
      simp [Table.append, logTable]

theorem returns_reapFrom {error : Nat → String} {timeout : Millis} (ht : t.key = QueueRow.id)
    (hpending : stand.pending = id) :
    Returns c (reapFrom t lock error log timeout sweep) stand fun _ final ↦
      Swept c t lock .processing (QueueRow.reaped error) log final := by
  refine .updateChosen fun next keys hkeys hstep ↦ Returns.mono (returns_writeReaped _) ?_
  rw [hpending] at hkeys
  rintro - final ⟨hreaches, hfinal⟩
  refine ⟨next, keys, hreaches, fun key hkey ↦ hstep.mem_held (mem_map_of_mem hkey), ?_, ?_⟩
  · intro key hkey
    obtain ⟨row, hrow, hid, hstuck⟩ := mem_choose (hkeys ▸ hkey)
    simp only [QueueRow.stuck, Bool.and_eq_true, decide_eq_true_eq] at hstuck
    exact ⟨row, hrow, ht ▸ hid, hstuck.1⟩
  · rw [hfinal, hstep.pending, hpending]
    rfl

theorem Swept.sweptBy (h : Swept c t lock status f log final) (hkeeps : c.Keeps t lock)
    (hunique : ∀ db, Sound db → t.KeysUnique db)
    (hsound : ∀ theirs v label db, c.guarantee theirs v label db → Sound v.db) (hw : c.Later final.held final.seen w)
    (hnow : Sound w.db) :
    ∃ keys logs, (∀ key ∈ keys, (lock key, .exclusive) ∈ final.held) ∧ (∀ entry ∈ logs, ∃ row, log row = some entry) ∧
      (∀ row ∈ t.rows w.db, t.key row ∈ keys → row.status = status) ∧
      logs.Perm ((((t.rows w.db).filter fun row ↦ t.key row ∈ keys).map f).filterMap log) ∧
      final.pending = logTable.append logs ∘ t.modify keys f := by
  obtain ⟨s, keys, hs, hheld, hfound, hpending⟩ := h
  have hlater := hs.until hw
  have hthen : t.KeysUnique s.seen.db := hunique _ (hlater.earlier hsound hnow)
  have hsame (row : QueueRow Item) (hkey : t.key row ∈ keys) :
      row ∈ t.rows w.db ↔ row ∈ t.rows s.seen.db := hkeeps.later hlater (hheld _ hkey)
  refine ⟨keys, _, fun key hkey ↦ hs.held (hheld key hkey), ?_, ?_, ?_, hpending⟩
  · intro entry hentry
    obtain ⟨row, -, hlog⟩ := mem_filterMap.mp hentry
    exact ⟨row, hlog⟩
  · intro row hrow hkey
    obtain ⟨found, hmem, heq, hstatus⟩ := hfound _ hkey
    rwa [← hthen.eq_of_key_eq hmem ((hsame row hkey).mp hrow) heq]
  · refine ((List.Perm.map _ ?_).filterMap _)
    refine (perm_ext_iff_of_nodup (hthen.of_map _ |>.filter _)
      ((hunique _ hnow).of_map _ |>.filter _)).mpr fun row ↦ ?_
    simp only [mem_filter, decide_eq_true_eq]
    exact and_congr_left fun hkey ↦ (hsame row hkey).symm

end Sweeps

section Commits

variable {held : Locks} {db : Store} {logs : List AuditLog}

theorem commits_of_effect {final : Stand Store Lock Event} {label : Event}
    (h : ∀ w, (contract env cond).Later final.held final.seen w → Sound w.db →
      Frame final.held w.db (final.pending w.db) ∧ Effect env w.db label (final.pending w.db)) :
    (contract env cond).Commits final label :=
  fun w hw hallowed ↦ ⟨hallowed.1, hallowed.2, h w hw hallowed.2⟩

theorem logs_of_direct (hlogs : ∀ log ∈ logs, Direct log) :
    ∃ added, db.logs ++ logs = db.logs ++ added ∧ ∀ log ∈ added, ∀ outboxId, log.outboxId = some outboxId →
      (.logOutbox outboxId, .exclusive) ∈ held :=
  ⟨logs, rfl, fun log hlog outboxId hid ↦ by simp [(hlogs log hlog).1] at hid⟩

/-- What a commit needs of the queue it works on: the contract keeps the rows another transaction holds,
their keys are unique, and a change of held rows with direct logs is within the frame. -/
structure WorkQueue {Item : Type} (t : Table Store Uuid (QueueRow Item)) (lock : Uuid → Lock) : Prop where
  keeps : ∀ env cond, (contract env cond).Keeps t lock
  unique : ∀ db, Sound db → t.KeysUnique db
  frame : ∀ {held : Locks} {db : Store} {keys : List Uuid} {logs : List AuditLog} {targets : List Uuid}
    {f : QueueRow Item → QueueRow Item} {g : AuditDeliveryTarget → AuditDeliveryTarget},
    (∀ row, (f row).id = row.id) → (∀ key ∈ keys, (lock key, .exclusive) ∈ held) →
    (∀ log ∈ logs, Direct log) →
    Frame held db (logTable.append logs (targetTable.modify targets g (t.modify keys f db)))

theorem workQueue_outbox : WorkQueue outboxTable .outbox where
  keeps _ _ := contract_outbox
  unique _ h := h.outbox
  frame hf hkeys hlogs :=
    ⟨(keptExcept_modify hf hkeys).congr rfl, .of_rows_eq rfl, .of_rows_eq rfl, .of_rows_eq rfl,
      logs_of_direct hlogs⟩

theorem workQueue_deliveries : WorkQueue deliveryTable .delivery where
  keeps _ _ := contract_deliveries
  unique _ h := h.deliveries
  frame hf hkeys hlogs :=
    ⟨.of_rows_eq rfl, (keptExcept_modify hf hkeys).congr rfl, .of_rows_eq rfl, .of_rows_eq rfl,
      logs_of_direct hlogs⟩

theorem workQueue_webhooks : WorkQueue webhookTable .webhookDelivery where
  keeps _ _ := contract_webhooks
  unique _ h := h.webhooks
  frame hf hkeys hlogs :=
    ⟨.of_rows_eq rfl, .of_rows_eq rfl, (keptExcept_modify hf hkeys).congr rfl, .of_rows_eq rfl,
      logs_of_direct hlogs⟩

theorem modify_targets_nil (db : Store) : targetTable.modify [] id db = db := by
  rw [Table.modify_nil]
  rfl

section Queue

variable {Item : Type} {t : Table Store Uuid (QueueRow Item)} {lock : Uuid → Lock}
  {f : QueueRow Item → QueueRow Item} {final : Stand Store Lock Event} (hqueue : WorkQueue t lock)

include hqueue

theorem WorkQueue.commits_swept {status : QueueStatus} {log : QueueRow Item → Option AuditLog}
    (h : Swept (contract env cond) t lock status f log final) (hf : ∀ row, (f row).id = row.id)
    (hlog : ∀ row entry, log row = some entry → Direct entry)
    (heffect : ∀ {db db'}, SweptBy t status f log db db' → Effect env db .other db') :
    (contract env cond).Commits final .other := by
  refine commits_of_effect fun w hw hsound ↦ ?_
  obtain ⟨keys, logs, hheld, hlogs, hstatus, hperm, hpending⟩ := h.sweptBy (hqueue.keeps env cond)
    hqueue.unique (fun _ _ _ _ h ↦ h.2.1) hw hsound
  rw [hpending]
  refine ⟨?_, heffect ⟨keys, logs, hstatus, hperm, rfl⟩⟩
  have hframe : Frame final.held w.db (logTable.append logs (targetTable.modify [] id (t.modify keys f w.db))) := by
    refine hqueue.frame hf hheld fun entry hentry ↦ ?_
    obtain ⟨row, hrow⟩ := hlogs entry hentry
    exact hlog row entry hrow
  rwa [modify_targets_nil] at hframe

end Queue

section Items

variable {kind : FanOut} {lock : Uuid → Lock} {f : QueueRow kind.Item → QueueRow kind.Item} {key : Uuid}
  {attemptCount : Nat} {ending : Ending} {final : Stand Store Lock Event} (hqueue : WorkQueue kind.queue.table lock)

include hqueue

variable (kind) in
theorem WorkQueue.commits_ended {targets : List Uuid} {g : AuditDeliveryTarget → AuditDeliveryTarget}
    (hpending : final.pending = logTable.append logs ∘ targetTable.modify targets g ∘ kind.queue.table.modify [key] f)
    (hlock : (lock key, .exclusive) ∈ final.held)
    (hf : ∀ row, (f row).id = row.id ∧ (row.attemptCount = attemptCount → attemptCount ≤ (f row).attemptCount) ∧
      ((f row).status = .failed ↔ ending = .failed))
    (hletters : Lettered env kind.queue.deadLetter key (ending = .failed) logs) :
    (contract env cond).Commits final (.ended kind key attemptCount ending) := by
  refine commits_of_effect fun w _ _ ↦ ?_
  rw [hpending]
  refine ⟨hqueue.frame (fun row ↦ (hf row).1) (fun other hother ↦ ?_) fun log hlog ↦ (hletters.logs log hlog).1,
    .endItem kind hf hletters ⟨targets, g, rfl⟩⟩
  exact (mem_singleton.mp hother) ▸ hlock

omit hqueue in
theorem pending_untargeted (hpending : final.pending = logTable.append logs ∘ kind.queue.table.modify [key] f) :
    final.pending = logTable.append logs ∘ targetTable.modify [] id ∘ kind.queue.table.modify [key] f :=
  hpending.trans (funext fun _ ↦ congrArg (logTable.append logs) (modify_targets_nil _).symm)

end Items

end Commits

section Events

variable {c : Contract Store Lock Event} {a : Attempt} {row : AuditOutbox}
  {payload : AuditOutboxPayload}

/-- The insert of a log entry for an event: its unique key is held, and there was no other entry or there
was one. -/
def Unique (c : Contract Store Lock Event) (outboxId : Uuid) (inserted : Bool)
    (final : Stand Store Lock Event) : Prop :=
  ∃ s : Stand Store Lock Event, s.Reaches c final ∧ (.logOutbox outboxId, .exclusive) ∈ s.held ∧
    if inserted then Unlogged s.seen.db outboxId else ¬ Unlogged s.seen.db outboxId

/-- A worker on an event that is about to commit, with the anchor rows that it adds, the anchors that it
advances, the log entries that it adds, and what it does to the event. -/
def Working (arows : List AuditChainAnchor) (akeys : List Uuid)
    (advance : AuditChainAnchor → AuditChainAnchor) (logs : List AuditLog) (outboxId : Uuid)
    (f : AuditOutbox → AuditOutbox) (final : Stand Store Lock Event) : Prop :=
  ∃ (wrows : List WebhookDelivery) (drows : List AuditDelivery), FreshRows wrows ∧ FreshRows drows ∧
    (∀ new ∈ wrows, (.webhookDelivery new.id, .exclusive) ∈ final.held) ∧
    (∀ new ∈ drows, (.delivery new.id, .exclusive) ∈ final.held) ∧
    (.outbox outboxId, .exclusive) ∈ final.held ∧
    final.pending = logTable.append logs ∘ outboxTable.modify [outboxId] f ∘
      deliveryTable.insertFresh deliveryClash drows ∘ webhookTable.insertFresh webhookClash wrows ∘
      anchorTable.modify akeys advance ∘ anchorTable.append arows

/-- The anchor of a tenant, as the delivery of an event has read it: one that was there, or its own new
row. -/
def Anchored (c : Contract Store Lock Event) (tenantId : Uuid) (anchor : AuditChainAnchor)
    (arows : List AuditChainAnchor) (final : Stand Store Lock Event) : Prop :=
  ∃ s : Stand Store Lock Event, s.Reaches c final ∧ (.anchor tenantId, .exclusive) ∈ s.held ∧
    anchor.tenantId = tenantId ∧
    (arows = [] ∧ anchor ∈ s.seen.db.anchors ∨ arows = [genesisAnchor tenantId] ∧ anchor = genesisAnchor tenantId ∧
        ∀ old ∈ s.seen.db.anchors, old.tenantId ≠ tenantId)

variable {outboxId tenantId : Uuid} {final : Stand Store Lock Event} {arows : List AuditChainAnchor}
  {f : AuditOutbox → AuditOutbox} {α : Type} {k : Nat → Worker α} {post : α → Stand Store Lock Event → Prop}
  {log : AuditLog} {next : Stand Store Lock Event} {akeys : List Uuid} {advance : AuditChainAnchor → AuditChainAnchor}
  {logs : List AuditLog} {error : String} {attempts : Nat → Attempt}

theorem Unique.reaches {inserted : Bool} (h : Unique c outboxId inserted next) (hreaches : next.Reaches c final) :
    Unique c outboxId inserted final :=
  h.imp fun _ hs ↦ ⟨hs.1.trans hreaches, hs.2⟩

theorem Anchored.reaches {anchor : AuditChainAnchor} (h : Anchored c tenantId anchor arows next)
    (hreaches : next.Reaches c final) :
    Anchored c tenantId anchor arows final :=
  h.imp fun _ hs ↦ ⟨hs.1.trans hreaches, hs.2⟩

theorem Unique.unlogged (h : Unique (contract env cond) outboxId true final)
    (hw : (contract env cond).Later final.held final.seen w) :
    (.logOutbox outboxId, .exclusive) ∈ final.held ∧ Unlogged w.db outboxId := by
  obtain ⟨s, hs, hlock, hfree⟩ := h
  have hstable : (contract env cond).Stable s.held fun v ↦ Unlogged v.db outboxId := by
    intro v label db theirs hcompatible hguarantee hold log hlog hid
    obtain ⟨logs, hlogs, hclaims⟩ := hguarantee.2.2.1.logs
    rcases mem_append.mp (hlogs ▸ hlog : log ∈ v.db.logs ++ logs) with hmem | hnew
    · exact hold log hmem hid
    · exact hcompatible.not_mem_exclusive hlock (hclaims log hnew outboxId hid)
  exact ⟨hs.held hlock, hstable.later hfree (hs.until hw)⟩

theorem Unique.logged (h : Unique (contract env cond) outboxId false final)
    (hw : (contract env cond).Later final.held final.seen w) : ¬ Unlogged w.db outboxId := by
  obtain ⟨s, hs, -, hlogged⟩ := h
  have hpreserved : (contract env cond).Preserves fun v ↦ ¬ Unlogged v.db outboxId := by
    intro theirs v label db hold hguarantee hfree
    obtain ⟨logs, hlogs, -⟩ := hguarantee.2.2.1.logs
    exact hold fun log hlog ↦ hfree log (hlogs ▸ mem_append_left _ hlog)
  exact hpreserved.later hlogged (hs.until hw)

theorem Anchored.anchor {anchor : AuditChainAnchor} (h : Anchored (contract env cond) tenantId anchor arows final)
    (hw : (contract env cond).Later final.held final.seen w) :
    (.anchor tenantId, .exclusive) ∈ final.held ∧ anchor.tenantId = tenantId ∧
      (∀ new ∈ arows, new.tenantId = tenantId) ∧ NewAnchors w.db arows ∧
      anchor ∈ w.db.anchors ++ arows := by
  obtain ⟨s, hs, hlock, htenant, ⟨rfl, hmem⟩ | ⟨rfl, rfl, habsent⟩⟩ := h
  · refine ⟨hs.held hlock, htenant, nofun, nofun, mem_append_left _ ?_⟩
    exact (contract_anchors.later (hs.until hw) (htenant ▸ hlock)).mpr hmem
  · refine ⟨hs.held hlock, rfl, ?_, ?_, mem_append_right _ (mem_singleton_self _)⟩
    · exact fun new hnew ↦ (mem_singleton.mp hnew) ▸ rfl
    · intro new hnew
      obtain rfl := mem_singleton.mp hnew
      exact ⟨rfl, contract_anchors.absent (hs.until hw) hlock habsent⟩

theorem keptExcept_insertFresh {Item : Type} {t : Table Store Uuid (QueueRow Item)}
    {lock : Uuid → Lock} {clash : QueueRow Item → QueueRow Item → Bool} {new : List (QueueRow Item)}
    {held : Locks} {db : Store} (hheld : ∀ row ∈ new, (lock (t.key row), .exclusive) ∈ held) :
    t.KeptExcept lock held db (t.insertFresh clash new db) := by
  obtain ⟨added, hsub, hrows⟩ : ∃ added, added.Sublist new ∧
      addFresh clash new (t.rows db) = t.rows db ++ added := addFresh_eq_append new (t.rows db)
  have happend : t.KeptExcept lock held db (t.append added db) :=
    keptExcept_append fun row hrow ↦ hheld row (hsub.subset hrow)
  refine happend.congr ?_
  rw [rows_insertFresh, hrows, rows_append]

theorem Working.commits {label : Event} (h : Working arows akeys advance logs outboxId f final)
    (hf : ∀ row, (f row).id = row.id) (hadvance : ∀ anchor, (advance anchor).tenantId = anchor.tenantId)
    (hanchors : ∀ new ∈ arows, (.anchor new.tenantId, .exclusive) ∈ final.held)
    (hakeys : ∀ key ∈ akeys, (.anchor key, .exclusive) ∈ final.held)
    (hlogs : ∀ log ∈ logs, ∀ id, log.outboxId = some id → (.logOutbox id, .exclusive) ∈ final.held)
    (heffect : ∀ w, (contract env cond).Later final.held final.seen w → ∀ db',
      WorkedOn arows akeys advance logs outboxId f w.db db' → Effect env w.db label db') :
    (contract env cond).Commits final label := by
  obtain ⟨wrows, drows, hwrows, hdrows, hwheld, hdheld, hlock, hpending⟩ := h
  refine commits_of_effect fun w hw _ ↦ ?_
  rw [hpending]
  refine ⟨⟨?_, ?_, ?_, ?_, logs, rfl, hlogs⟩, heffect w hw _ ⟨wrows, drows, hwrows, hdrows, rfl⟩⟩
  · have hkeys : ∀ key ∈ [outboxId], (.outbox key, .exclusive) ∈ final.held :=
      fun key hkey ↦ (mem_singleton.mp hkey) ▸ hlock
    exact (keptExcept_modify hf hkeys).congr rfl
  · exact (keptExcept_insertFresh hdheld).congr rfl
  · exact (keptExcept_insertFresh hwheld).congr rfl
  · have happend : anchorTable.KeptExcept .anchor final.held w.db (anchorTable.append arows w.db) :=
      keptExcept_append hanchors
    exact happend.trans ((keptExcept_modify hadvance hakeys).congr rfl)

theorem outline_enqueueInTx : Outline c (enqueueInTx env a row payload) stand fun _ next ↦ stand.Reaches c next ∧
      ∃ wrows drows, FreshRows wrows ∧ FreshRows drows ∧
        (∀ new ∈ wrows, (.webhookDelivery new.id, .exclusive) ∈ next.held) ∧
        (∀ new ∈ drows, (.delivery new.id, .exclusive) ∈ next.held) ∧
        next.pending = deliveryTable.insertFresh deliveryClash drows ∘
          webhookTable.insertFresh webhookClash wrows ∘ stand.pending := by
  have hwebhook : Outline c (enqueueWebhookDeliveryInTx env a row payload) stand fun _ next ↦
      stand.Reaches c next ∧ ∃ wrows, FreshRows wrows ∧
        (∀ new ∈ wrows, (.webhookDelivery new.id, .exclusive) ∈ next.held) ∧
        next.pending = webhookTable.insertFresh webhookClash wrows ∘ stand.pending := by
    unfold enqueueWebhookDeliveryInTx
    split
    · exact ⟨.refl _, [], forall_mem_nil _, forall_mem_nil _, by rw [insertFresh_nil]; rfl⟩
    next item _ =>
    intro w hw
    have hstep := Stand.step_afterStmt hw
    refine ⟨(hstep _ _).reaches, _, ?_, ?_, rfl⟩
    · exact fun new hnew ↦ (mem_singleton.mp hnew) ▸ rfl
    · intro new hnew
      rw [mem_singleton.mp hnew]
      exact (hstep _ _).locked
  refine outline_bind.mpr (hwebhook.weaken ?_)
  rintro - mid ⟨hmid, wrows, hwrows, hwheld, hmidPending⟩
  refine .read fun next hnext ↦ ?_
  have hnextPending := hnext.pending.trans hmidPending
  split
  · refine ⟨hmid.trans hnext.reaches, wrows, [], hwrows, forall_mem_nil _,
      fun new hnew ↦ hnext.reaches.held (hwheld new hnew), forall_mem_nil _, ?_⟩
    rw [insertFresh_nil, hnextPending]
    rfl
  · intro w hw
    have hstep := Stand.step_afterStmt hw
    refine ⟨(hmid.trans hnext.reaches).trans (hstep _ _).reaches, wrows, _, hwrows, ?_,
      fun new hnew ↦ (hstep _ _).reaches.held (hnext.reaches.held (hwheld new hnew)), ?_,
      (hstep _ _).pending.trans (by rw [hnextPending])⟩
    · intro new hnew
      obtain ⟨target, -, rfl⟩ := mem_map.mp hnew
      rfl
    · intro new hnew
      obtain ⟨target, htarget, rfl⟩ := mem_map.mp hnew
      exact (hstep _ _).mem_held (mem_flatMap.mpr ⟨target, htarget, mem_cons_self ..⟩)

theorem outline_updateOutbox (hpending : ∀ db, (stand.pending db).outbox = db.outbox)
    (hhas : outboxTable.Has outboxId stand.seen.db)
    (h : ∀ next count, stand.Reaches (contract env cond) next → (.outbox outboxId, .exclusive) ∈ next.held →
      next.pending = outboxTable.modify [outboxId] f ∘ stand.pending →
      Outline (contract env cond) (k count) next post) :
    Outline (contract env cond) (updateOutbox outboxId f >>= k) stand post := by
  refine .updatePresent (fun _ ↦ decide_eq_true_iff) (has_outbox outboxId) (fun db ↦ ?_) hhas
    fun next count hreaches hlock hnext _ ↦ h next count hreaches hlock hnext
  exact (has_congr (congrArg (map QueueRow.id) (hpending db))).mpr

theorem outline_insertAuditLog {k : Prog.Inserted → Worker α} (hlogs : ∀ db, (stand.pending db).logs = db.logs)
    (hinserted : ∀ next, stand.Reaches c next → Unique c row.id true next →
      next.pending = logTable.append [log] ∘ stand.pending → Outline c (k .inserted) next post)
    (hconflict : ∀ next, stand.Reaches c next → Unique c row.id false next →
      next.pending = stand.pending → Outline c (k .conflict) next post)
    (hclash : ∀ next, Outline c (k .clash) next post) :
    Outline c (insertAuditLog row log >>= k) stand post := by
  have hlock {next : Stand Store Lock Event} {write : Store → Store}
      (hnext : stand.Step c next ((.log (logTable.key log) :: [.logOutbox row.id]).map
        fun lock ↦ (lock, .exclusive)) write) : (.logOutbox row.id, .exclusive) ∈ next.held :=
    hnext.mem_held (by simp)
  refine .insertUnless (fun next hnext hfree _ ↦ ?_) (fun next hnext htaken ↦ ?_) fun next _ ↦ hclash next
  · rw [hlogs, any_eq_false] at hfree
    refine hinserted next hnext.reaches ⟨next, .refl next, hlock hnext, ?_⟩ hnext.pending
    exact fun entry hentry hid ↦ hfree entry hentry (decide_eq_true hid)
  · rw [hlogs, any_eq_true] at htaken
    obtain ⟨entry, hentry, hid⟩ := htaken
    refine hconflict next hnext.reaches ⟨next, .refl next, hlock hnext, ?_⟩ hnext.pending
    exact fun hfree ↦ hfree entry hentry (of_decide_eq_true hid)

theorem working_of_record {start : Stand Store Lock Event} (hlock : (.outbox outboxId, .exclusive) ∈ final.held)
    (hstart : start.pending = anchorTable.append arows)
    (hpending : final.pending = logTable.append logs ∘ outboxTable.modify [outboxId] f ∘ start.pending) :
    Working arows [] id logs outboxId f final := by
  refine ⟨[], [], forall_mem_nil _, forall_mem_nil _, forall_mem_nil _, forall_mem_nil _, hlock, ?_⟩
  rw [hpending, hstart, Table.insertFresh_nil, Table.insertFresh_nil, Table.modify_nil]
  rfl

theorem outline_enqueueAndUpdate
    (hpending : stand.pending = anchorTable.modify akeys advance ∘ logTable.append [log] ∘ anchorTable.append arows)
    (hhas : outboxTable.Has row.id stand.seen.db)
    (h : ∀ final count, stand.Reaches (contract env cond) final →
      Working arows akeys advance [log] row.id f final → Outline (contract env cond) (k count) final post) :
    Outline (contract env cond) (enqueueInTx env a row payload >>= fun _ ↦ updateOutbox row.id f >>= k)
      stand post := by
  refine outline_bind.mpr (outline_enqueueInTx.weaken ?_)
  rintro - start ⟨hstartReaches, wrows, drows, hwrows, hdrows, hwheld, hdheld, hstart⟩
  refine outline_updateOutbox (fun db ↦ by rw [hstart, hpending]; rfl)
    ((has_outbox row.id).later hhas hstartReaches.later) fun final count hfinal hlock hfinalPending ↦
      h final count (hstartReaches.trans hfinal) ?_
  refine ⟨wrows, drows, hwrows, hdrows, fun new hnew ↦ hfinal.held (hwheld new hnew),
    fun new hnew ↦ hfinal.held (hdheld new hnew), hlock, ?_⟩
  rw [hfinalPending, hstart, hpending]
  rfl

theorem append_anchors_nil : anchorTable.append [] = id := funext anchorTable.append_nil

theorem returns_deliverRowInTx (hpending : stand.pending = id) (hhas : outboxTable.Has row.id stand.seen.db) :
    Earns (contract env cond) (deliverRowInTx env a row payload) stand fun _ ↦ .delivered row.id := by
  unfold deliverRowInTx
  split
  · exact .error
  next log hlog =>
  obtain ⟨-, -, -, -, hid, -⟩ := auditLogOf_spec hlog
  rw [← append_anchors_nil] at hpending
  refine outline_insertAuditLog (fun db ↦ by rw [hpending]; rfl) (fun next hnext hunique hnextPending ↦ ?_)
    (fun next hnext hunique hnextPending ↦ ?_) fun _ ↦ .error
  · have hmid : next.pending = anchorTable.modify [] id ∘ logTable.append [log] ∘ anchorTable.append [] := by
      rw [hnextPending, hpending, Table.modify_nil]
      rfl
    refine outline_enqueueAndUpdate hmid ((has_outbox row.id).later hhas hnext.later)
      fun final _ hfinal hworking ↦ .ok ?_
    have hlast := hunique.reaches hfinal
    refine hworking.commits (fun _ ↦ rfl) (fun _ ↦ rfl) nofun nofun ?_ fun w hw db' hworked ↦
      .deliver a row payload hlog (hlast.unlogged hw).2 hworked
    intro entry hentry outboxId hentryId
    rw [mem_singleton.mp hentry, hid] at hentryId
    exact Option.some.inj hentryId ▸ (hlast.unlogged (.refl _)).1
  · rw [hpending] at hnextPending
    refine outline_updateOutbox (fun db ↦ by rw [hnextPending]; rfl)
      ((has_outbox row.id).later hhas hnext.later) fun final _ hfinal hlock hfinalPending ↦ .ok ?_
    refine (working_of_record hlock hnextPending (hfinalPending.trans (comp_append_nil _).symm)).commits
      (fun _ ↦ rfl) (fun _ ↦ rfl) nofun nofun (forall_mem_nil _) fun w hw db' hworked ↦ ?_
    exact .redeliver a.now row.id ((hunique.reaches hfinal).logged hw) (newAnchors_nil _) hworked

theorem outline_readAnchor {k : Option AuditChainAnchor → Worker α} (hanchors : c.Keeps anchorTable .anchor)
    (hpending : stand.pending = id)
    (hk : ∀ next found arows, stand.Reaches c next → next.pending = anchorTable.append arows →
      (∀ anchor, found = some anchor → Anchored c tenantId anchor arows next) →
      Outline c (k found) next post) :
    Outline c (do
      let _ ← .insertUnless anchorTable .anchor []
        (fun db : Store ↦ db.anchors.any (·.tenantId = tenantId)) (genesisAnchor tenantId)
      let found ← .lockingRead [(.anchor tenantId, .exclusive)]
        fun db : Store ↦ db.anchors.find? (·.tenantId = tenantId)
      k found) stand post := by
  have hexisting (mid : Stand Store Lock Event) (hreaches : stand.Reaches c mid) (hmid : mid.pending = id) :
      Outline c (.lockingRead [(.anchor tenantId, .exclusive)]
        (fun db : Store ↦ db.anchors.find? (·.tenantId = tenantId)) >>= k) mid post := by
    refine .lockingRead fun next hnext ↦ hk next _ [] (hreaches.trans hnext.reaches) ?_ fun anchor hfound ↦ ?_
    · rw [hnext.pending, hmid, append_anchors_nil]
      rfl
    · rw [hmid] at hfound
      exact ⟨next, .refl next, hnext.locked, by simpa using find?_some hfound,
        .inl ⟨rfl, mem_of_find?_eq_some hfound⟩⟩
  have hunchanged {mid : Stand Store Lock Event} {locks : Locks} (hmid : stand.Step c mid locks id) :
      mid.pending = id :=
    hmid.pending.trans (by rw [hpending]; rfl)
  refine .insertUnless (fun mid hmid _ hfresh ↦ ?_)
    (fun mid hmid _ ↦ hexisting mid hmid.reaches (hunchanged hmid))
    fun mid hmid ↦ hexisting mid hmid.reaches (hunchanged hmid)
  have hlock : (.anchor tenantId, .exclusive) ∈ mid.held :=
    hmid.mem_held (by simp [anchorTable, genesisAnchor])
  rw [hpending] at hfresh
  have hmidPending : mid.pending = anchorTable.append [genesisAnchor tenantId] := by
    rw [hmid.pending, hpending]
    rfl
  refine .lockingRead fun next hnext ↦ hk next _ [genesisAnchor tenantId]
    (hmid.reaches.trans hnext.reaches) ?_ fun anchor hfound ↦ ?_
  · rw [hnext.pending, hmidPending]
    rfl
  · have habsent : ∀ old ∈ next.seen.db.anchors, old.tenantId ≠ tenantId :=
      hanchors.absent hnext.later hlock hfresh
    have hgenesis : anchor = genesisAnchor tenantId := by
      rw [hmidPending] at hfound
      have hrows : (anchorTable.append [genesisAnchor tenantId] next.seen.db).anchors =
          next.seen.db.anchors ++ [genesisAnchor tenantId] := rfl
      rw [hrows, find?_append, find?_eq_none.mpr (by simpa using habsent)] at hfound
      simpa [genesisAnchor] using hfound.symm
    exact ⟨next, .refl next, hnext.locked, by rw [hgenesis]; rfl,
      .inr ⟨rfl, hgenesis, habsent⟩⟩

theorem outline_updateAnchor {anchor : AuditChainAnchor} {f : AuditChainAnchor → AuditChainAnchor}
    (hanchors : c.Keeps anchorTable .anchor)
    (hpending : stand.pending = logTable.append [log] ∘ anchorTable.append arows)
    (hanchored : Anchored c tenantId anchor arows stand)
    (hk : ∀ next count, stand.Reaches c next →
      next.pending = anchorTable.modify [tenantId] f ∘ stand.pending → Outline c (k count) next post) :
    Outline c (.updateMany anchorTable .anchor (fun row ↦ row.tenantId = tenantId) f >>= k) stand
      post := by
  refine .updateOne (fun _ ↦ decide_eq_true_iff) fun next keys count hreaches hhits hnext _ ↦ ?_
  rcases hhits with ⟨rfl, -⟩ | ⟨-, s, hs, -, habsent⟩
  · exact hk next count hreaches hnext
  obtain ⟨first, hfirst, hlock, htenant, ⟨-, hmem⟩ | ⟨rfl, hgenesis, -⟩⟩ := hanchored
  · have hlater : anchor ∈ s.seen.db.anchors :=
      (hanchors.later (hfirst.trans hs).later (htenant ▸ hlock)).mpr hmem
    refine absurd htenant (habsent anchor ?_)
    rw [hpending]
    exact mem_append_left _ hlater
  · refine absurd rfl (habsent (genesisAnchor tenantId) ?_)
    rw [hpending]
    exact mem_append_right _ (mem_singleton_self _)

theorem returns_deliverRowWithChainInTx (hpayload : parsePayload row.item.payload = .ok payload)
    (hpending : stand.pending = id) (hhas : outboxTable.Has row.id stand.seen.db) :
    Earns (contract env cond) (deliverRowWithChainInTx env a row payload) stand
      fun result ↦ chainEvent row result := by
  refine outline_readAnchor contract_anchors hpending fun next found arows hnext hnextPending hanchored ↦ ?_
  split
  · exact .error
  next anchor =>
  have hanchor := hanchored anchor rfl
  have hhasNext := (has_outbox row.id).later hhas hnext.later
  split_ifs
  · refine outline_updateOutbox (fun db ↦ by rw [hnextPending]; rfl) hhasNext
      fun final _ hfinal hlock hfinalPending ↦ .ok ?_
    have hlast := hanchor.reaches hfinal
    obtain ⟨hanchorLock, -, harows, -⟩ := hlast.anchor (.refl _)
    refine (working_of_record hlock hnextPending (hfinalPending.trans (comp_append_nil _).symm)).commits
      (fun _ ↦ rfl) (fun _ ↦ rfl) (fun new hnew ↦ harows new hnew ▸ hanchorLock) nofun
      (forall_mem_nil _) fun w hw db' hworked ↦ ?_
    exact .skip row.id (hlast.anchor hw).2.2.2.1 hworked
  split
  · exact .error
  next log hlog =>
  refine outline_insertAuditLog (fun db ↦ by rw [hnextPending]; rfl)
    (fun ins hins hunique hinsPending ↦ ?_) (fun ins hins hunique hinsPending ↦ ?_) fun _ ↦ .error
  · rw [hnextPending] at hinsPending
    refine outline_updateAnchor contract_anchors hinsPending (hanchor.reaches hins) fun mid _ hmidReaches hmid ↦ ?_
    rw [hinsPending] at hmid
    refine outline_enqueueAndUpdate hmid ((has_outbox row.id).later hhasNext (hins.trans hmidReaches).later)
      fun final _ hfinal hworking ↦ .ok ?_
    have hlast := hanchor.reaches (hins.trans (hmidReaches.trans hfinal))
    have hfree := hunique.reaches (hmidReaches.trans hfinal)
    obtain ⟨hanchorLock, -, harows, -⟩ := hlast.anchor (.refl _)
    refine hworking.commits (fun _ ↦ rfl) (fun _ ↦ rfl) (fun new hnew ↦ harows new hnew ▸ hanchorLock)
      (fun key hkey ↦ (mem_singleton.mp hkey) ▸ hanchorLock) ?_ fun w hw db' hworked ↦ ?_
    · intro entry hentry outboxId hentryId
      rw [mem_singleton.mp hentry] at hentryId
      have hid : log.outboxId = some outboxId := hentryId
      rw [(auditLogOf_spec hlog).2.2.2.2.1] at hid
      exact Option.some.inj hid ▸ (hfree.unlogged (.refl _)).1
    · obtain ⟨-, htenant, -, hnew, hmem⟩ := hlast.anchor hw
      exact .chain a row payload anchor hpayload hlog (hfree.unlogged hw).2 hnew hmem htenant hworked
  · rw [hnextPending] at hinsPending
    refine outline_updateOutbox (fun db ↦ by rw [hinsPending]; rfl)
      ((has_outbox row.id).later hhasNext hins.later) fun final _ hfinal hlock hfinalPending ↦
        Outline.ok ?_
    have hlast := hanchor.reaches (hins.trans hfinal)
    obtain ⟨hanchorLock, -, harows, -⟩ := hlast.anchor (.refl _)
    refine (working_of_record hlock hinsPending (hfinalPending.trans (comp_append_nil _).symm)).commits
      (fun _ ↦ rfl) (fun _ ↦ rfl) (fun new hnew ↦ harows new hnew ▸ hanchorLock) nofun
      (forall_mem_nil _) fun w hw db' hworked ↦ ?_
    exact .redeliver a.now row.id ((hunique.reaches hfinal).logged hw) (hlast.anchor hw).2.2.2.1 hworked

theorem returns_recordErrorInTx (hpending : stand.pending = id) (hhas : outboxTable.Has row.id stand.seen.db) :
    Earns (contract env cond) (recordErrorInTx env a row error) stand fun _ ↦ .errorRecorded row.id := by
  rw [← append_anchors_nil] at hpending
  unfold recordErrorInTx
  dsimp only
  split_ifs
  · refine outline_updateOutbox (fun db ↦ by rw [hpending]; rfl) hhas fun next _ _ hlock hnext ↦ ?_
    refine .write fun final hfinal ↦ .ok ?_
    have hfinalPending := hfinal.pending
    rw [hnext] at hfinalPending
    refine (working_of_record (hfinal.reaches.held hlock) hpending hfinalPending).commits
      (fun _ ↦ rfl) (fun _ ↦ rfl) nofun nofun ?_ fun w _ db' hworked ↦ .dead _ _ _ _ _ _ _ hworked
    intro entry hentry outboxId hid
    rw [mem_singleton.mp hentry] at hid
    cases hid
  · refine outline_updateOutbox (fun db ↦ by rw [hpending]; rfl) hhas
      fun final _ _ hlock hfinalPending ↦ .ok ?_
    exact (working_of_record hlock hpending (hfinalPending.trans (comp_append_nil _).symm)).commits
      (fun _ ↦ rfl) (fun _ ↦ rfl) nofun nofun (forall_mem_nil _) fun w _ db' hworked ↦
        .retry _ _ _ _ hworked

variable {known : World Store Event → Prop} (hknown : (contract env cond).Preserves known)
  (hrow : ∀ w, known w → outboxTable.Has row.id w.db)

include hknown hrow

theorem settles_recordError : Settles (contract env cond) known (recordError env a row error) :=
  .bind (.transaction hknown fun w hw ↦ returns_orFail (returns_recordErrorInTx rfl (hrow w hw))) fun _ ↦ .pure _

theorem settles_processRow {cache : List (Uuid × Bool)} :
    Settles (contract env cond) known (processRow env a cache row) := by
  have hrecord (error : String) (cache : List (Uuid × Bool)) :
      Settles (contract env cond) known (recordError env a row error >>= fun _ ↦ pure cache) :=
    .bind (settles_recordError hknown hrow) fun _ ↦ .pure _
  have henabled : Settles (contract env cond) known (getChainEnabled cache row.tenantId) := by
    unfold getChainEnabled
    split
    · exact .pure _
    · exact .readOnly hknown fun _ ↦ .pure _
  unfold processRow
  split
  · exact hrecord _ _
  next payload hpayload =>
  split_ifs
  · exact hrecord _ _
  · exact hrecord _ _
  refine henabled.bind fun found ↦ ?_
  dsimp only
  split_ifs
  · refine .bind (.transaction hknown fun w hw ↦ returns_orFail
      (returns_deliverRowWithChainInTx hpayload rfl (hrow w hw))) fun result ↦ ?_
    cases result with
    | ok _ => exact .pure _
    | error error => exact hrecord error _
  · refine .bind (.transaction hknown fun w hw ↦ returns_orFail
      (returns_deliverRowInTx rfl (hrow w hw))) fun result ↦ ?_
    cases result with
    | ok _ => exact .pure _
    | error error => exact hrecord error _

omit hrow in
theorem settles_processRows (rows : List AuditOutbox)
    (hrows : ∀ row ∈ rows, ∀ w, known w → outboxTable.Has row.id w.db) (n : Nat) (cache : List (Uuid × Bool)) :
    Settles (contract env cond) known (processRows env attempts n cache rows) := by
  induction rows generalizing n cache with
  | nil => exact .pure _
  | cons row rest ih =>
    rw [forall_mem_cons] at hrows
    exact .bind (settles_processRow hknown hrows.1) fun cache ↦ ih hrows.2 (n + 1) cache

omit hknown hrow in
theorem settles_processBatch {sweep : Sweep} :
    Settles (contract env cond) (fun _ ↦ True) (processBatch env sweep attempts) := by
  have hstays (rows : List AuditOutbox) :
      (contract env cond).Preserves fun w ↦ ∀ row ∈ rows, outboxTable.Has row.id w.db :=
    fun theirs w label db hold hguarantee row hrow ↦
      has_outbox row.id theirs w label db (hold row hrow) hguarantee
  refine .finding hstays (fun w ↦ .mono (returns_claimFrom rfl rfl) ?_) (fun _ ↦ .pure _)
    fun rows ↦ settles_processRows (hstays rows) rows (fun row hrow w hw ↦ hw row hrow) 0 []
  exact fun rows final ⟨hswept, hhas⟩ ↦
    ⟨workQueue_outbox.commits_swept hswept (fun _ ↦ rfl) (fun _ _ h ↦ nomatch h) (.claim _), hhas⟩

end Events

section Items

variable {a : ItemAttempt} {known : World Store Event → Prop} {key : Uuid} {sweep : Sweep}

theorem returns_updateItem {Row : Type} {c : Contract Store Lock Event} {t : Table Store Uuid Row}
    {lock : Uuid → Lock} {f : Row → Row} :
    Returns c (updateItem t lock key f) stand fun _ next ↦ stand.Reaches c next ∧
      (lock key, .exclusive) ∈ next.held ∧ next.pending = t.modify [key] f ∘ stand.pending :=
  Returns.updateKey fun _ _ ↦ of_decide_eq_true

section Deliveries

variable (hknown : (contract env cond).Preserves known)

include hknown

variable {delivery : TargetedDelivery}

theorem settles_markDeliverySent : Settles (contract env cond) known (markDeliverySent a delivery) := by
  refine .transaction hknown fun w _ ↦ returns_orFail (.andThen returns_updateItem ?_)
  rintro - mid ⟨-, hlock, hmid⟩
  refine .mono returns_updateItem ?_
  rintro - final ⟨hreaches, -, hfinal⟩
  rw [hmid] at hfinal
  exact WorkQueue.commits_ended .auditDelivery workQueue_deliveries (hfinal.trans (comp_append_nil _).symm)
    (hreaches.held hlock) (fun _ ↦ ⟨rfl, Eq.ge, nofun, nofun⟩) (.inl ⟨nofun, rfl⟩)

theorem settles_recordDeliveryError {error : String} :
    Settles (contract env cond) known (recordDeliveryError env a delivery error) := by
  unfold recordDeliveryError
  dsimp only
  split_ifs
  · refine .transaction hknown fun w _ ↦ returns_orFail (.andThen returns_updateItem ?_)
    rintro - mid ⟨-, hlock, hmid⟩
    refine .andThen returns_updateItem ?_
    rintro - target ⟨hreaches, -, htarget⟩
    refine .write fun final hfinal ↦ .ok ?_
    have hpending := hfinal.pending
    rw [htarget, hmid] at hpending
    refine WorkQueue.commits_ended .auditDelivery workQueue_deliveries hpending
      (hfinal.reaches.held (hreaches.held hlock)) (fun _ ↦ ⟨rfl, fun _ ↦ Nat.le_succ _, iff_of_true rfl rfl⟩) ?_
    exact .inr ⟨rfl, _, _, _, _, _, _, by simp, mem_cons_self, rfl⟩
  · refine .transaction hknown fun w _ ↦ returns_orFail (.mono returns_updateItem ?_)
    rintro - final ⟨-, hlock, hfinal⟩
    exact WorkQueue.commits_ended .auditDelivery workQueue_deliveries
      (pending_untargeted (hfinal.trans (comp_append_nil _).symm)) hlock
      (fun _ ↦ ⟨rfl, fun _ ↦ Nat.le_succ _, nofun, nofun⟩) (.inl ⟨nofun, rfl⟩)

theorem settles_processOneDelivery : Settles (contract env cond) known (processOneDelivery env a delivery) := by
  unfold processOneDelivery
  split_ifs
  · exact settles_recordDeliveryError hknown
  split
  · exact settles_recordDeliveryError hknown
  refine .bind (settles_markDeliverySent hknown) fun result ↦ ?_
  split
  · exact .pure _
  · exact settles_recordDeliveryError hknown

theorem settles_processDeliveries {attempts : Nat → ItemAttempt} {outboxIds : List Uuid}
    (deliveries : List TargetedDelivery) (n : Nat) :
    Settles (contract env cond) known (processDeliveries env attempts outboxIds n deliveries) := by
  induction deliveries generalizing n with
  | nil => exact .pure _
  | cons delivery rest ih =>
    rw [processDeliveries]
    split_ifs
    · refine .bind (settles_processOneDelivery hknown) fun result ↦ ?_
      split
      · exact .pure _
      · exact ih (n + 1)
    · exact ih (n + 1)

end Deliveries

variable {attempts : Nat → ItemAttempt}

theorem settles_processDeliveryBatch :
    Settles (contract env cond) (fun _ ↦ True) (processDeliveryBatch env sweep attempts) := by
  have hknown := (contract env cond).preserves_true
  refine .bind (.transaction hknown fun _ _ ↦ .andThen (returns_claimFrom rfl rfl) ?_) fun result ↦ ?_
  · rintro rows next ⟨hswept, -⟩
    refine .read fun final hfinal ↦ .ok ?_
    exact workQueue_deliveries.commits_swept (hswept.reaches hfinal.reaches hfinal.pending) (fun _ ↦ rfl)
      (fun _ _ h ↦ nomatch h) (.claimItems .auditDelivery _)
  · split
    · exact .pure _
    · exact .readOnly hknown fun _ ↦ settles_processDeliveries hknown _ 0

variable {item : WebhookDelivery}

section Known

variable (hknown : (contract env cond).Preserves known)
  (hitem : ∀ w, known w → webhookTable.Has item.id w.db)

include hknown hitem

theorem settles_markWebhookDeliverySent : Settles (contract env cond) known (markWebhookDeliverySent a item) := by
  refine .transaction hknown fun w hw ↦ returns_orFail ?_
  refine .updatePresent (fun _ ↦ decide_eq_true_iff) (has_webhook item.id) (fun _ ↦ id)
    (hitem w hw) fun final _ _ hlock hfinal _ ↦ .ok ?_
  exact WorkQueue.commits_ended .webhookDelivery workQueue_webhooks
    (pending_untargeted (hfinal.trans (comp_append_nil _).symm)) hlock
    (fun _ ↦ ⟨rfl, Eq.ge, nofun, nofun⟩) (.inl ⟨nofun, rfl⟩)

theorem settles_recordWebhookDeliveryError {error : String} :
    Settles (contract env cond) known (recordWebhookDeliveryError env a item error) := by
  unfold recordWebhookDeliveryError
  dsimp only
  split_ifs
  · refine .bind (.transaction hknown fun w hw ↦ returns_orFail ?_) fun _ ↦ .pure _
    refine .updatePresent (fun _ ↦ decide_eq_true_iff) (has_webhook item.id) (fun _ ↦ id)
      (hitem w hw) fun mid _ _ hlock hmid _ ↦ ?_
    refine .write fun final hfinal ↦ .ok ?_
    have hpending := hfinal.pending
    rw [hmid] at hpending
    refine WorkQueue.commits_ended .webhookDelivery workQueue_webhooks (pending_untargeted hpending)
      (hfinal.reaches.held hlock) (fun _ ↦ ⟨rfl, fun _ ↦ Nat.le_succ _, iff_of_true rfl rfl⟩) ?_
    exact .inr ⟨rfl, _, _, _, _, _, _, by simp, mem_cons_self, rfl⟩
  · refine .bind (.transaction hknown fun w hw ↦ returns_orFail ?_) fun _ ↦ .pure _
    refine .updatePresent (fun _ ↦ decide_eq_true_iff) (has_webhook item.id) (fun _ ↦ id)
      (hitem w hw) fun final _ _ hlock hfinal _ ↦ .ok ?_
    exact WorkQueue.commits_ended .webhookDelivery workQueue_webhooks
      (pending_untargeted (hfinal.trans (comp_append_nil _).symm)) hlock
      (fun _ ↦ ⟨rfl, fun _ ↦ Nat.le_succ _, nofun, nofun⟩) (.inl ⟨nofun, rfl⟩)

theorem settles_processOneWebhookDelivery :
    Settles (contract env cond) known (processOneWebhookDelivery env a item) := by
  refine .readOnly hknown fun view ↦ ?_
  split
  · exact settles_recordWebhookDeliveryError hknown hitem
  refine .bind (settles_markWebhookDeliverySent hknown hitem) fun result ↦ ?_
  split
  · exact .pure _
  · exact settles_recordWebhookDeliveryError hknown hitem

end Known

theorem settles_processWebhookDeliveries (hknown : (contract env cond).Preserves known) (items : List WebhookDelivery)
    (hitems : ∀ item ∈ items, ∀ w, known w → webhookTable.Has item.id w.db) (n : Nat) :
    Settles (contract env cond) known (processWebhookDeliveries env attempts n items) := by
  induction items generalizing n with
  | nil => exact .pure _
  | cons item rest ih =>
    rw [forall_mem_cons] at hitems
    exact .bind (settles_processOneWebhookDelivery hknown hitems.1) fun _ ↦ ih hitems.2 (n + 1)

theorem settles_processWebhookDeliveryBatch :
    Settles (contract env cond) (fun _ ↦ True) (processWebhookDeliveryBatch env sweep attempts) := by
  have hstays (items : List WebhookDelivery) :
      (contract env cond).Preserves fun w ↦ ∀ item ∈ items, webhookTable.Has item.id w.db :=
    fun theirs w label db hold hguarantee item hitem ↦
      has_webhook item.id theirs w label db (hold item hitem) hguarantee
  refine .finding hstays (fun w ↦ .mono (returns_claimFrom rfl rfl) ?_) (fun _ ↦ .pure _)
    fun items ↦ settles_processWebhookDeliveries (hstays items) items (fun item hitem w hw ↦ hw item hitem) 0
  exact fun items final ⟨hswept, hhas⟩ ↦
    ⟨workQueue_webhooks.commits_swept hswept (fun _ ↦ rfl) (fun _ _ h ↦ nomatch h) (.claimItems .webhookDelivery _), hhas⟩

end Items

theorem perform_outline (task : Task) (w : World Store Event) :
    Respects (contract env cond) (task.perform env) w := by
  have hknown := (contract env cond).preserves_true
  refine Settles.outline ?_ w
  cases task with
  | batch sweep attempts => exact settles_processBatch
  | deliveryBatch sweep attempts => exact settles_processDeliveryBatch
  | webhookDeliveryBatch sweep attempts => exact settles_processWebhookDeliveryBatch
  | reapRows timeout sweep logId =>
    refine .bind (.transaction hknown fun _ _ ↦ .mono (returns_reapFrom rfl rfl) ?_) fun _ ↦ .pure _
    refine fun _ final hswept ↦ workQueue_outbox.commits_swept hswept (fun _ ↦ rfl) (fun row entry hentry ↦ ?_)
      (.reap _ _)
    exact (Option.some.inj hentry) ▸ direct_outboxReapedLog
  | reapDeliveries timeout sweep logId =>
    refine .bind (.transaction hknown fun _ _ ↦ .mono (returns_reapFrom rfl rfl) ?_) fun _ ↦ .pure _
    exact fun _ final hswept ↦ workQueue_deliveries.commits_swept hswept (fun _ ↦ rfl)
      (fun row _ h ↦ ((lettered_deliveryReapedLog row).logs _ (Option.mem_toList.mpr h)).1)
      (.reapItems .auditDelivery lettered_deliveryReapedLog)
  | reapWebhookDeliveries timeout sweep logId =>
    refine .bind (.transaction hknown fun _ _ ↦ .mono (returns_reapFrom rfl rfl) ?_) fun _ ↦ .pure _
    exact fun _ final hswept ↦ workQueue_webhooks.commits_swept hswept (fun _ ↦ rfl)
      (fun row _ h ↦ ((lettered_webhookReapedLog row).logs _ (Option.mem_toList.mpr h)).1)
      (.reapItems .webhookDelivery lettered_webhookReapedLog)

section Runs

variable {ι : Type} [DecidableEq ι] {tasks : ι → Task} {start : Store}
  {s later : State ι Store Lock Event Unit}

/-- Any number of workers at their tasks, in any interleaving whose commits meet the condition. -/
def WorkerRun (env : Env) (cond : Event → Store → Prop) (tasks : ι → Task) (start : Store)
    (s : State ι Store Lock Event Unit) : Prop :=
  Run (fun label _ w ↦ cond label w.db) (.start ⟨start, []⟩ fun i ↦ (tasks i).perform env) s

theorem WorkerRun.strengthen (h : WorkerRun env cond tasks start s) (hstart : Sound start) :
    Run (contract env cond).allowed (.start ⟨start, []⟩ fun i ↦ (tasks i).perform env) s :=
  Run.strengthen (fun w ↦ Sound w.db) h (fun _ _ _ hsound hcond ↦ ⟨hcond, hsound⟩)
    (fun i ↦ perform_outline (tasks i) _) hstart contract_sound

theorem WorkerRun.invariant_later (inv : Store → Prop) (h : WorkerRun env cond tasks start s)
    (hlater : Run (fun label _ w ↦ cond label w.db) s later) (hstart : Sound start) (hnow : inv s.world.db)
    (hstep : ∀ db label db', inv db → Sound db → cond label db → Effect env db label db' → inv db') :
    inv later.world.db := by
  have houtline (i : ι) : Respects (contract env cond) ((tasks i).perform env) ⟨start, []⟩ := perform_outline (tasks i) _
  have hlater' := Run.strengthen_later (fun w ↦ Sound w.db) (h.strengthen hstart) hlater
    (fun _ _ _ hsound hcond ↦ ⟨hcond, hsound⟩) houtline hstart contract_sound
  exact Run.invariant_later (fun w ↦ inv w.db) (h.strengthen hstart) hlater' houtline hnow
    fun _ w label db hinv ⟨hcond, hsound, _, heffect⟩ ↦ hstep w.db label db hinv hsound hcond heffect

theorem WorkerRun.invariant (inv : Store → Prop) (h : WorkerRun env cond tasks start s)
    (hstart : Sound start) (hfirst : inv start)
    (hstep : ∀ db label db', inv db → Sound db → cond label db → Effect env db label db' → inv db') :
    inv s.world.db :=
  WorkerRun.invariant_later inv .refl h hstart hfirst hstep

end Runs

end PasswdSso.Audit
