import PasswdSso.Audit.WorkerOutline

/-!
# The chains that the worker writes

In every run of workers the chained log entries of a tenant form one chain from the genesis, numbered
from one on, and the anchor of the tenant is its end (`chain_intact`). What `verifyChainRows` makes of
such a chain is another matter. It also wants the times of creation in order, while the worker numbers
events in the order in which it delivers them: an event whose delivery failed once comes after a later
one (`chain_rejected`). Chains in which events come in order are accepted (`chain_verifies`).

The hash covers the identifier, the time, the number and the metadata of an entry, and not what the event
was: another action, actor or target goes unnoticed (`tampering_unnoticed`). A change is noticed exactly
when it changes what is hashed or the hashes themselves (`tampering_noticed_iff`).
-/

namespace PasswdSso.Audit

open ReadCommitted List ChainVerifyRow

section Chains

/-- The columns of a log entry that are verified. -/
def AuditLog.verifyRow (rt : Runtime) (log : AuditLog) : ChainVerifyRow where
  id := rt.uuidText log.id
  createdAt := log.createdAt
  chainSeq := log.chainSeq.getD 0
  eventHash := log.eventHash.getD []
  chainPrevHash := log.chainPrevHash
  metadata := log.metadata

def chainOf (tenantId : Uuid) (logs : List AuditLog) : List AuditLog :=
  logs.filter fun log ↦ log.tenantId = tenantId && log.chainSeq.isSome

/-- The chained entries of a tenant in the order of their numbers, as they are verified. -/
def chainRows (rt : Runtime) (tenantId : Uuid) (logs : List AuditLog) : List ChainVerifyRow :=
  ((chainOf tenantId logs).insertionSort fun a b ↦ a.chainSeq.getD 0 ≤ b.chainSeq.getD 0).map (AuditLog.verifyRow rt)

/-- The verification of a whole chain against its anchor. -/
def chainInput (rt : Runtime) (logs : List AuditLog) (anchor : AuditChainAnchor) (rowCap : Nat) :
    ChainVerifyInput where
  rows := chainRows rt anchor.tenantId logs
  seedPrevHash := genesisPrevHash
  fromSeq := 1
  toSeq := anchor.chainSeq
  anchorPrevHash := some anchor.prevHash
  anchorComparable := true
  rowCap := rowCap

/-- The numbers of a chain with `n` entries. -/
def seqsTo (n : Nat) : List Int := (range n).map fun i : Nat ↦ (i : Int) + 1

/-- The chain of a tenant is linked from the genesis and numbered from one on, and its end is in the
anchor. -/
structure ChainIntact (rt : Runtime) (db : Store) (tenantId : Uuid) : Prop where
  linked : (chainScheme rt).Linked genesisPrevHash ((chainOf tenantId db.logs).map (AuditLog.verifyRow rt))
  seqs : (chainOf tenantId db.logs).map (fun log ↦ log.chainSeq.getD 0) = seqsTo (chainOf tenantId db.logs).length
  anchor : ∀ anchor ∈ db.anchors, anchor.tenantId = tenantId →
    anchor.chainSeq = (chainOf tenantId db.logs).length ∧ anchor.prevHash =
      (chainScheme rt).last genesisPrevHash ((chainOf tenantId db.logs).map (AuditLog.verifyRow rt))
  anchored : chainOf tenantId db.logs ≠ [] → ∃ anchor ∈ db.anchors, anchor.tenantId = tenantId

variable {rt : Runtime} {tenantId : Uuid} {logs : List AuditLog}

theorem seqsTo_succ (n : Nat) : seqsTo (n + 1) = seqsTo n ++ [(n : Int) + 1] := by
  rw [seqsTo, range_succ, map_append]
  rfl

theorem chainRows_eq
    (h : (chainOf tenantId logs).map (fun log ↦ log.chainSeq.getD 0) = seqsTo (chainOf tenantId logs).length) :
    chainRows rt tenantId logs = (chainOf tenantId logs).map (AuditLog.verifyRow rt) := by
  have hpairwise : (chainOf tenantId logs).Pairwise fun a b ↦ a.chainSeq.getD 0 ≤ b.chainSeq.getD 0 := by
    have hseqs : ((chainOf tenantId logs).map fun log ↦ log.chainSeq.getD 0).Pairwise (· ≤ ·) := by
      rw [h, seqsTo, pairwise_map]
      exact pairwise_lt_range.imp fun hlt ↦ by omega
    exact pairwise_map.mp hseqs
  rw [chainRows, hpairwise.insertionSort_eq]

theorem seqs_verifyRow {rows : List AuditLog} (n : Nat)
    (h : rows.map (fun log ↦ log.chainSeq.getD 0) = seqsTo n) (hsafe : n ≤ 2 ^ 53) :
    (rows.map (AuditLog.verifyRow rt)).map seq = seqsTo n := by
  have hseq : seq ∘ AuditLog.verifyRow rt = jsNumber ∘ fun log ↦ log.chainSeq.getD 0 := rfl
  rw [map_map, hseq, ← map_map, h, seqsTo, map_map]
  refine map_congr_left fun i hi ↦ ?_
  have hlt := mem_range.mp hi
  have hbound : ((i : Int) + 1).natAbs ≤ 2 ^ 53 := by omega
  exact jsNumber_of_le hbound

variable {n : Nat}

theorem contiguous_seqsTo (hsafe : n ≤ 2 ^ 53) : Contiguous (seqsTo n) := by
  rw [Contiguous, seqsTo, isChain_map, isChain_range]
  intro i hi
  rw [jsNumber_of_le (by omega)]
  push_cast
  rfl

theorem getLast?_seqsTo (hn : 1 ≤ n) : (seqsTo n).getLast? = some (n : Int) := by
  rw [seqsTo, getLast?_map, getLast?_range, if_neg (by omega), Option.map_some]
  congr 1
  omega

theorem ChainIntact.verifies {db : Store} {anchor : AuditChainAnchor} (h : ChainIntact rt db anchor.tenantId)
    (hanchor : anchor ∈ db.anchors) (horder : InOrder ((chainOf anchor.tenantId db.logs).map AuditLog.createdAt))
    (hnonempty : 1 ≤ anchor.chainSeq) (hsafe : anchor.chainSeq ≤ 2 ^ 53) (rowCap : Nat) :
    (verifyChainRows rt (chainInput rt db.logs anchor rowCap)).ok = true := by
  obtain ⟨hlength, hlast⟩ := h.anchor anchor hanchor rfl
  have hsafeLength : (chainOf anchor.tenantId db.logs).length ≤ 2 ^ 53 := by omega
  rw [verifyChainRows_ok_iff]
  simp only [chainInput, chainRows_eq h.seqs]
  rw [seqs_verifyRow _ h.seqs hsafeLength, getLast?_seqsTo (by omega)]
  refine ⟨h.linked, contiguous_seqsTo hsafeLength, ?_, hnonempty, hlength.le, ?_⟩
  · rw [map_map]
    exact horder
  · rintro - end_ hend
    rw [← Option.some.inj hend, hlast]

end Chains

section Runs

variable {env : Env} {db db' : Store} {tenantId : Uuid}

theorem chainOf_append (logs more : List AuditLog) :
    chainOf tenantId (logs ++ more) = chainOf tenantId logs ++ chainOf tenantId more :=
  filter_append ..

variable {logs : List AuditLog}

theorem chainOf_eq_nil (h : ∀ log ∈ logs, log.tenantId = tenantId → log.chainSeq = none) :
    chainOf tenantId logs = [] := by
  rw [chainOf, filter_eq_nil_iff]
  intro log hlog
  by_cases htenant : log.tenantId = tenantId
  · simp [h log hlog htenant]
  · simp [htenant]

variable {log : AuditLog} {anchor : AuditChainAnchor} {arows : List AuditChainAnchor} {payload : AuditOutboxPayload}
  {label : Event}

theorem chainOf_chainedAfter {hash : Bytes} :
    chainOf tenantId [log.chainedAfter anchor hash] =
      if log.tenantId = tenantId then [log.chainedAfter anchor hash] else [] := by
  by_cases htenant : log.tenantId = tenantId
  · simp [chainOf, AuditLog.chainedAfter, htenant]
  · simp [chainOf, AuditLog.chainedAfter, htenant]

theorem ChainIntact.append (h : ChainIntact env.rt db tenantId) (harows : NewAnchors db arows)
    (hlogs : ∀ log ∈ logs, log.tenantId = tenantId → log.chainSeq = none)
    (hanchors : db'.anchors = db.anchors ++ arows) (hlogs' : db'.logs = db.logs ++ logs) :
    ChainIntact env.rt db' tenantId := by
  have hchain : chainOf tenantId db'.logs = chainOf tenantId db.logs := by
    rw [hlogs', chainOf_append, chainOf_eq_nil hlogs, append_nil]
  refine ⟨hchain ▸ h.linked, hchain ▸ h.seqs, ?_, ?_⟩
  · rw [hchain, hanchors]
    intro anchor hanchor htenant
    rcases mem_append.mp hanchor with hold | hnew
    · exact h.anchor anchor hold htenant
    · obtain ⟨hgenesis, hnone⟩ := harows anchor hnew
      -- A tenant without an anchor has no chain yet.
      have hempty : chainOf tenantId db.logs = [] := by
        by_contra hne
        obtain ⟨old, hold, heq⟩ := h.anchored hne
        exact hnone old hold (heq.trans htenant.symm)
      rw [hempty, hgenesis]
      exact ⟨rfl, rfl⟩
  · rw [hchain, hanchors]
    intro hne
    obtain ⟨anchor, hanchor, htenant⟩ := h.anchored hne
    exact ⟨anchor, mem_append_left _ hanchor, htenant⟩

theorem ChainIntact.congr (h : ChainIntact env.rt db tenantId)
    (hchain : chainOf tenantId db'.logs = chainOf tenantId db.logs)
    (hanchors : ∀ anchor, anchor.tenantId = tenantId → (anchor ∈ db'.anchors ↔ anchor ∈ db.anchors)) :
    ChainIntact env.rt db' tenantId := by
  refine ⟨hchain ▸ h.linked, hchain ▸ h.seqs, ?_, ?_⟩
  · rw [hchain]
    exact fun anchor hanchor htenant ↦ h.anchor anchor ((hanchors anchor htenant).mp hanchor) htenant
  · rw [hchain]
    intro hne
    obtain ⟨anchor, hanchor, htenant⟩ := h.anchored hne
    exact ⟨anchor, (hanchors anchor htenant).mpr hanchor, htenant⟩

theorem isObject_of_normal {a b : Json} (h : a.normal = b.normal) : isObject a = isObject b := by
  cases a <;> cases b <;> first | rfl | (simp only [Json.normal] at h; cases h)

theorem payload_normal (hrt : env.rt.Faithful) {value : Json} {row : ChainVerifyRow}
    (hpayload : parsePayload value = .ok payload) (hrow : row.metadata = payload.metadata.map env.rt.jsonb) :
    row.payload.normal = payload.hashed.normal := by
  unfold ChainVerifyRow.payload AuditOutboxPayload.hashed
  rw [hrow]
  cases hmetadata : payload.metadata with
  | none => rfl
  | some metadata =>
    have hobject : isObject (env.rt.jsonb metadata) = true :=
      (isObject_of_normal (hrt.jsonb_normal metadata)).trans (isObject_metadata hpayload hmetadata)
    simp only [Option.map_some, hobject, if_true, Option.getD_some]
    exact hrt.jsonb_normal metadata

theorem computeCanonicalBytes_congr {a b : ChainInput} (hid : a.id = b.id)
    (hcreatedAt : a.createdAt = b.createdAt) (hchainSeq : a.chainSeq = b.chainSeq)
    (hprevHash : a.prevHash = b.prevHash) (hpayload : a.payload.normal = b.payload.normal) :
    computeCanonicalBytes a = computeCanonicalBytes b := by
  rw [computeCanonicalBytes, computeCanonicalBytes, jcsCanonical_inj.mpr]
  rw [ChainInput.normal_json, ChainInput.normal_json, hid, hcreatedAt, hchainSeq, hprevHash, hpayload]

theorem ChainIntact.chain (hrt : env.rt.Faithful) {a : Attempt} {row : AuditOutbox}
    (h : ChainIntact env.rt db row.tenantId) (hpayload : parsePayload row.item.payload = .ok payload)
    (hlog : auditLogOf env a.auditLogId row payload = some log) (hanchor : anchor ∈ db.anchors)
    (htenant : anchor.tenantId = row.tenantId)
    (hanchors : db'.anchors = db.anchors.map fun old ↦ if old.tenantId ∈ [row.tenantId] then
      old.advance (anchor.chainSeq + 1) (nextEventHash env.rt anchor a.auditLogId row payload) else old)
    (hlogs : db'.logs = db.logs ++ [log.chainedAfter anchor (nextEventHash env.rt anchor a.auditLogId row payload)]) :
    ChainIntact env.rt db' row.tenantId := by
  obtain ⟨hid, hlogTenant, hmetadata, hcreatedAt, -, -⟩ := auditLogOf_spec hlog
  obtain ⟨hlength, hlast⟩ := h.anchor anchor hanchor htenant
  have hchain : chainOf row.tenantId db'.logs = chainOf row.tenantId db.logs ++
      [log.chainedAfter anchor (nextEventHash env.rt anchor a.auditLogId row payload)] := by
    rw [hlogs, chainOf_append, chainOf_chainedAfter, if_pos hlogTenant]
  refine ⟨?_, ?_, ?_, ?_⟩
  · rw [hchain, map_append, map_singleton, HashChain.Scheme.linked_concat, ← hlast]
    refine ⟨h.linked, rfl, ?_⟩
    -- The hash that was stored is the hash of what is verified.
    refine congrArg env.rt.sha256 (congrArg (anchor.prevHash ++ ·) (computeCanonicalBytes_congr ?_ ?_ rfl rfl ?_))
    · exact congrArg env.rt.uuidText hid.symm
    · exact congrArg env.rt.toISOString hcreatedAt.symm
    · exact (payload_normal hrt hpayload hmetadata).symm
  · rw [hchain, map_append, h.seqs, length_append, length_singleton, seqsTo_succ, ← hlength]
    rfl
  · rw [hchain, hanchors, map_append, map_singleton, HashChain.Scheme.last_concat]
    intro new hnew hnewTenant
    obtain ⟨old, -, rfl⟩ := mem_map.mp hnew
    split_ifs at hnewTenant ⊢ with hmem
    · refine ⟨?_, rfl⟩
      rw [length_append, length_singleton]
      push_cast
      rw [← hlength]
      rfl
    · exact absurd (mem_singleton.mpr hnewTenant) hmem
  · intro _
    rw [hanchors]
    refine ⟨_, mem_map_of_mem hanchor, ?_⟩
    split_ifs
    · exact htenant
    · exact htenant

/-- No chain moves: there may be new anchors, and entries outside of the chains. -/
def ChainsKept (db db' : Store) : Prop :=
  ∃ arows logs, NewAnchors db arows ∧ (∀ log ∈ logs, log.chainSeq = none) ∧
    db'.anchors = db.anchors ++ arows ∧ db'.logs = db.logs ++ logs

def ChainExtended (env : Env) (db : Store) (label : Event) (db' : Store) : Prop :=
  ∃ (a : Attempt) (row : AuditOutbox) (payload : AuditOutboxPayload) (log : AuditLog)
    (anchor : AuditChainAnchor) (arows : List AuditChainAnchor),
    label = .chained row.tenantId row.id row.createdAt ∧
    parsePayload row.item.payload = .ok payload ∧ auditLogOf env a.auditLogId row payload = some log ∧
    NewAnchors db arows ∧ anchor ∈ db.anchors ++ arows ∧ anchor.tenantId = row.tenantId ∧
    db'.anchors = ((db.anchors ++ arows).map fun old ↦ if old.tenantId ∈ [row.tenantId] then
      old.advance (anchor.chainSeq + 1) (nextEventHash env.rt anchor a.auditLogId row payload) else old) ∧
    db'.logs = db.logs ++ [log.chainedAfter anchor (nextEventHash env.rt anchor a.auditLogId row payload)]

theorem WorkedOn.chainsKept {outboxId : Uuid} {f : AuditOutbox → AuditOutbox}
    (h : WorkedOn arows [] id logs outboxId f db db') (harows : NewAnchors db arows)
    (hlogs : ∀ log ∈ logs, log.chainSeq = none) : ChainsKept db db' := by
  obtain ⟨wrows, drows, -, -, rfl⟩ := h
  refine ⟨arows, logs, harows, hlogs, ?_, rfl⟩
  rw [Table.modify_nil]
  rfl

theorem Effect.chains (h : Effect env db label db') :
    ChainsKept db db' ∨ ChainExtended env db label db' := by
  have hkept {logs : List AuditLog} (hlogs : ∀ log ∈ logs, Direct log)
      (hanchors : db'.anchors = db.anchors) (hlogs' : db'.logs = db.logs ++ logs) :
      ChainsKept db db' ∨ ChainExtended env db label db' :=
    .inl ⟨[], logs, newAnchors_nil db, fun log hlog ↦ (hlogs log hlog).2,
      hanchors.trans (append_nil _).symm, hlogs'⟩
  have hswept (h : db'.anchors = db.anchors ∧ ∃ logs, (∀ entry ∈ logs, Direct entry) ∧
      db'.logs = db.logs ++ logs) : ChainsKept db db' ∨ ChainExtended env db label db' := by
    obtain ⟨hanchors, logs, hdirect, hlogs⟩ := h
    exact hkept hdirect hanchors hlogs
  have hone {log : AuditLog} (hlog : log.chainSeq = none) : ∀ entry ∈ [log], entry.chainSeq = none :=
    fun entry hentry ↦ (mem_singleton.mp hentry) ▸ hlog
  cases h with
  | claim now h => exact hswept (h.logs (fun _ _ h ↦ nomatch h) fun _ _ ↦ ⟨rfl, rfl⟩)
  | claimItems kind now h => exact hswept (h.logs (fun _ _ h ↦ nomatch h) fun _ _ ↦ (kind.queue.kept _ _).2)
  | reap now logId h =>
    refine hswept (h.logs (fun row entry hentry ↦ ?_) fun _ _ ↦ ⟨rfl, rfl⟩)
    exact (Option.some.inj hentry) ▸ direct_outboxReapedLog
  | reapItems kind hletters h =>
    refine hswept (h.logs (fun row entry hentry ↦ ?_) fun _ _ ↦ (kind.queue.kept _ _).2)
    exact ((hletters row).logs entry (Option.mem_toList.mpr hentry)).1
  | deliver a row payload hlog _ h =>
    exact .inl (h.chainsKept (newAnchors_nil db) (hone (auditLogOf_spec hlog).2.2.2.2.2))
  | redeliver now outboxId _ harows h | skip outboxId harows h => exact .inl (h.chainsKept harows (forall_mem_nil _))
  | chain a row payload anchor hpayload hlog _ harows hanchor htenant h =>
    obtain ⟨wrows, drows, -, -, rfl⟩ := h
    exact .inr ⟨a, row, payload, _, anchor, _, rfl, hpayload, hlog, harows, hanchor, htenant, rfl, rfl⟩
  | retry outboxId attemptCount retryAt error h =>
    exact .inl (h.chainsKept (newAnchors_nil db) (forall_mem_nil _))
  | dead outboxId logId tenantId now attemptCount error metadata h =>
    exact .inl (h.chainsKept (newAnchors_nil db) (hone rfl))
  | endItem kind _ hletters h =>
    obtain ⟨targets, g, rfl⟩ := h
    exact hkept (fun log hlog ↦ (hletters.logs log hlog).1) (kind.queue.kept _ _).2.2
      (congrArg (· ++ _) (kind.queue.kept _ _).2.1)

theorem ChainIntact.step (hrt : env.rt.Faithful) (h : ∀ tenantId, ChainIntact env.rt db tenantId)
    (heffect : Effect env db label db') (tenantId : Uuid) : ChainIntact env.rt db' tenantId := by
  obtain ⟨arows, logs, harows, hlogs, hanchors, hlogs'⟩ | ⟨a, row, payload, log, anchor, arows, -, hpayload,
    hlog, harows, hanchor, htenant, hanchors, hlogs⟩ := heffect.chains
  · exact (h tenantId).append harows (fun log hlog _ ↦ hlogs log hlog) hanchors hlogs'
  -- First the new anchors, then the event.
  have hmid (tenantId : Uuid) : ChainIntact env.rt (anchorTable.append arows db) tenantId :=
    (h tenantId).append harows (forall_mem_nil _) rfl (append_nil _).symm
  by_cases hother : tenantId = row.tenantId
  · rw [hother]
    exact (hmid row.tenantId).chain hrt hpayload hlog hanchor htenant hanchors hlogs
  · refine (hmid tenantId).congr ?_ fun other htenant' ↦ ?_
    · have hlogOther : log.tenantId ≠ tenantId :=
        fun h ↦ hother (h.symm.trans (auditLogOf_spec hlog).2.1)
      rw [hlogs, chainOf_append, chainOf_chainedAfter, if_neg hlogOther, append_nil]
      rfl
    · have hnot (old : AuditChainAnchor) (hold : old.tenantId = tenantId) :
          old.tenantId ∉ [row.tenantId] := fun hmem ↦ hother (hold.symm.trans (mem_singleton.mp hmem))
      rw [hanchors, mem_map]
      constructor
      · rintro ⟨old, hold, rfl⟩
        split_ifs at htenant' ⊢ with hmem
        · exact absurd hmem (hnot old htenant')
        · exact hold
      · exact fun hmem ↦ ⟨other, hmem, if_neg (hnot other htenant')⟩

/-- A store in which nothing has been chained yet. -/
structure UnchainedStore where
  store : Store
  sound : Sound store
  anchors : store.anchors = []
  logs : ∀ log ∈ store.logs, log.chainSeq = none

theorem UnchainedStore.chainOf (start : UnchainedStore) (tenantId : Uuid) :
    Audit.chainOf tenantId start.store.logs = [] :=
  chainOf_eq_nil fun log hlog _ ↦ start.logs log hlog

theorem UnchainedStore.intact (start : UnchainedStore) (tenantId : Uuid) :
    ChainIntact env.rt start.store tenantId := by
  refine ⟨?_, ?_, ?_, ?_⟩
  · rw [start.chainOf]
    trivial
  · rw [start.chainOf]
    rfl
  · rw [start.anchors]
    exact nofun
  · exact fun hne ↦ absurd (start.chainOf tenantId) hne

variable {ι : Type} [DecidableEq ι] {cond : Event → Store → Prop} {tasks : ι → Task}
  {start : UnchainedStore} {s : State ι Store Lock Event Unit}

theorem chain_intact (hrt : env.rt.Faithful) (hrun : WorkerRun env cond tasks start.store s)
    (tenantId : Uuid) : ChainIntact env.rt s.world.db tenantId :=
  hrun.invariant (fun db ↦ ∀ tenantId, ChainIntact env.rt db tenantId) start.sound start.intact
    (fun _ _ _ hintact _ _ heffect ↦ ChainIntact.step hrt hintact heffect) tenantId

end Runs

section Order

variable {env : Env}

/-- An event that is chained was not created before one that is in the chain already. -/
def ChainedInOrder (label : Event) (db : Store) : Prop :=
  match label with
  | .chained tenantId _ createdAt => ∀ log ∈ chainOf tenantId db.logs, log.createdAt ≤ createdAt
  | _ => True

instance (label : Event) (db : Store) : Decidable (ChainedInOrder label db) := by
  cases label <;> dsimp only [ChainedInOrder] <;> infer_instance

theorem inOrder_step {db db' : Store} {label : Event} (hcond : ChainedInOrder label db)
    (heffect : Effect env db label db')
    (h : ∀ tenantId, InOrder ((chainOf tenantId db.logs).map AuditLog.createdAt)) (tenantId : Uuid) :
    InOrder ((chainOf tenantId db'.logs).map AuditLog.createdAt) := by
  obtain ⟨arows, logs, -, hlogs, -, hlogs'⟩ | ⟨a, row, payload, log, anchor, arows, rfl, -, hlog, -, -, -, -,
    hlogs⟩ := heffect.chains
  · rw [hlogs', chainOf_append, chainOf_eq_nil fun log hlog _ ↦ hlogs log hlog, append_nil]
    exact h tenantId
  obtain ⟨-, hlogTenant, -, hcreatedAt, -, -⟩ := auditLogOf_spec hlog
  rw [hlogs, chainOf_append, chainOf_chainedAfter]
  split_ifs with htenant
  · rw [map_append, map_singleton, InOrder, isChain_append]
    refine ⟨h tenantId, isChain_singleton _, ?_⟩
    intro last hlast first hfirst
    obtain ⟨old, hold, rfl⟩ := mem_map.mp (mem_of_getLast? hlast)
    obtain rfl := Option.some.inj hfirst
    exact (hcond old ((htenant.symm.trans hlogTenant) ▸ hold)).trans hcreatedAt.ge
  · rw [append_nil]
    exact h tenantId

/-- In every run of workers in which events are chained in the order of their creation, every chain that
is not empty, and not longer than a JavaScript number can count, is accepted. -/
theorem chain_verifies {ι : Type} [DecidableEq ι] (env : Env) (hrt : env.rt.Faithful)
    (start : UnchainedStore) (tasks : ι → Task) {s : State ι Store Lock Event Unit}
    (hrun : WorkerRun env ChainedInOrder tasks start.store s) {anchor : AuditChainAnchor}
    (hanchor : anchor ∈ s.world.db.anchors) (hnonempty : 1 ≤ anchor.chainSeq)
    (hsafe : anchor.chainSeq ≤ 2 ^ 53) (rowCap : Nat) :
    (verifyChainRows env.rt (chainInput env.rt s.world.db.logs anchor rowCap)).ok = true := by
  have horder (tenantId : Uuid) : InOrder ((chainOf tenantId s.world.db.logs).map AuditLog.createdAt) :=
    hrun.invariant (fun db ↦ ∀ tenantId, InOrder ((chainOf tenantId db.logs).map AuditLog.createdAt))
      start.sound (fun tenantId ↦ by rw [start.chainOf]; exact List.isChain_nil)
      (fun _ _ _ hinv _ hcond heffect ↦ inOrder_step hcond heffect hinv) tenantId
  exact (chain_intact hrt hrun anchor.tenantId).verifies hanchor (horder _) hnonempty hsafe rowCap

/-- A runtime with a hash function that has no collisions and never answers the genesis hash. -/
def exampleRuntime : Runtime := { plainRuntime (1 :: ·) with uuid? := fun _ ↦ some 5 }

theorem exampleRuntime_faithful : exampleRuntime.Faithful where
  iso_injective := (plainRuntime_faithful (1 :: ·)).iso_injective
  uuid_injective := (plainRuntime_faithful (1 :: ·)).uuid_injective
  jsonb_normal _ := rfl

/-- An environment for examples. -/
def exampleEnv : Env where
  rt := exampleRuntime
  auditAction? := fun name ↦ some (.named name)
  sanitizeErrorForStorage := id
  systemActorId := 0
  castError := "rejected"

def exampleEvent (id : Uuid) (createdAt : Millis) : AuditOutbox where
  id := id
  tenantId := 9
  status := .pending
  attemptCount := 0
  maxAttempts := 8
  nextRetryAt := 0
  processingStartedAt := none
  lastError := none
  createdAt := createdAt
  item := ⟨.object [("userId", .str "5"), ("action", .str "LOGIN")], none⟩

def eventStore (events : List AuditOutbox) : Store where
  outbox := events
  logs := []
  anchors := []
  targets := []
  deliveries := []
  webhookDeliveries := []
  chainEnabled := [9]

def exampleAttempt (auditLogId : Uuid) (deliverFails : Option String) : Attempt where
  now := 10
  auditLogId := auditLogId
  webhookDeliveryId := auditLogId
  deliveryId := fun _ ↦ auditLogId
  deliverFails := deliverFails
  recordFails := none
  retryAt := 10
  deadLetterId := auditLogId

def exampleSweep : Sweep := ⟨10, 10, fun _ ↦ false⟩

/-- Two events of one tenant. -/
def twoEvents : UnchainedStore where
  store := eventStore [exampleEvent 1 1, exampleEvent 2 2]
  sound := ⟨by decide, by decide, by decide⟩
  anchors := rfl
  logs := fun _ h ↦ nomatch h

/-- Two batches; in the first one the delivery of the first event fails. -/
def failingOnce : Nat → Task
  | 0 => .batch exampleSweep fun n ↦
      if n = 0 then exampleAttempt 100 (some "could not serialize access") else exampleAttempt 101 none
  | _ => .batch exampleSweep fun n ↦ exampleAttempt (200 + n) none

/-- The worker numbers events as it delivers them, so an event that had to be delivered again comes
after a later one, and then the chain is rejected for its times. -/
theorem chain_rejected :
    ¬ ∀ (env : Env) (start : UnchainedStore) (tasks : Nat → Task) (s : State Nat Store Lock Event Unit)
      (anchor : AuditChainAnchor) (rowCap : Nat), env.rt.Faithful →
      WorkerRun env (fun _ _ ↦ True) tasks start.store s → anchor ∈ s.world.db.anchors →
      (chainRows env.rt anchor.tenantId s.world.db.logs).length < rowCap → 1 ≤ anchor.chainSeq →
      anchor.chainSeq ≤ 2 ^ 53 →
      (verifyChainRows env.rt (chainInput env.rt s.world.db.logs anchor rowCap)).ok = true := by
  intro h
  obtain ⟨s, hrun, anchor, hanchor, hcap, hnonempty, hsafe, hrejected⟩ :=
    Run.exists_of_schedule
      (State.start ⟨twoEvents.store, []⟩ fun i ↦ (failingOnce i).perform exampleEnv)
      (fun w ↦ ∃ anchor ∈ w.db.anchors,
        (chainRows exampleRuntime anchor.tenantId w.db.logs).length < 10 ∧ 1 ≤ anchor.chainSeq ∧
        anchor.chainSeq ≤ 2 ^ 53 ∧
        (verifyChainRows exampleRuntime (chainInput exampleRuntime w.db.logs anchor 10)).ok = false)
      [(25, 0), (13, 1)]
  have haccepted := h exampleEnv twoEvents failingOnce s anchor 10 exampleRuntime_faithful hrun hanchor
    hcap hnonempty hsafe
  exact absurd (haccepted.symm.trans hrejected) (by decide)

/-- The condition can be met: two events in the order of their creation. -/
theorem chain_verifies_pair : ∃ (s : State Nat Store Lock Event Unit) (anchor : AuditChainAnchor),
    WorkerRun exampleEnv ChainedInOrder (fun _ ↦ failingOnce 1) twoEvents.store s ∧
      anchor ∈ s.world.db.anchors ∧ anchor.chainSeq = 2 ∧
      (verifyChainRows exampleRuntime (chainInput exampleRuntime s.world.db.logs anchor 10)).ok = true := by
  obtain ⟨s, hrun, anchor, hanchor, hseq⟩ := Run.exists_of_schedule
    (State.start ⟨twoEvents.store, []⟩ fun _ : Nat ↦ (failingOnce 1).perform exampleEnv)
    (fun w ↦ ∃ anchor ∈ w.db.anchors, anchor.chainSeq = 2) [(22, 0)] (fun label _ w ↦ ChainedInOrder label w.db)
  exact ⟨s, anchor, hrun, hanchor, hseq, chain_verifies exampleEnv exampleRuntime_faithful twoEvents _ hrun
    hanchor (by omega) (hseq.le.trans (by decide)) 10⟩

end Order

section Tampering

variable {rt : Runtime} {logs logs' : List AuditLog} {log log' : AuditLog} {tenantId : Uuid}

/-- The columns that say what the event was. -/
def AuditLog.event (log : AuditLog) : AuditAction × AuditScope × Uuid × ActorType × Option Uuid ×
    Option String × Option String × Option String × Option String × Option Json × Millis :=
  (log.action, log.scope, log.userId, log.actorType, log.teamId, log.targetType, log.targetId, log.ip,
    log.userAgent, log.metadata, log.createdAt)

/-- One chained entry of a tenant was replaced by another one with the same number. -/
structure Tampered (tenantId : Uuid) (logs logs' : List AuditLog) (log log' : AuditLog) : Prop where
  place : ∃ front back, logs = front ++ log :: back ∧ logs' = front ++ log' :: back
  tenant : log.tenantId = tenantId ∧ log'.tenantId = tenantId
  chained : log.chainSeq.isSome = true
  seq : log'.chainSeq = log.chainSeq

/-- What `verifyChainRows` takes from a row. -/
def ChainVerifyRow.seen (row : ChainVerifyRow) : (String × Millis × Int × Json) × Bytes × Option Bytes :=
  (row.covered, row.eventHash, row.chainPrevHash)

theorem ChainVerifyRow.message_congr {a b : ChainVerifyRow} (h : a.covered = b.covered) (d : Bytes) :
    a.message rt d = b.message rt d := by
  simp only [covered, Prod.mk.injEq] at h
  obtain ⟨hid, hcreatedAt, hchainSeq, hpayload⟩ := h
  refine congrArg (d ++ ·) (computeCanonicalBytes_congr hid ?_ ?_ rfl hpayload)
  · exact congrArg rt.toISOString hcreatedAt
  · exact congrArg Int.repr hchainSeq

theorem verifyChainRows_congr (input : ChainVerifyInput) {rows : List ChainVerifyRow}
    (h : rows.map seen = input.rows.map seen) :
    (verifyChainRows rt { input with rows := rows }).ok = (verifyChainRows rt input).ok := by
  have hmap {β : Type} (f : ChainVerifyRow → β) (g : _ → β) (hfg : f = g ∘ seen) :
      rows.map f = input.rows.map f := by
    rw [hfg, ← map_map, h, map_map]
  obtain ⟨hlinked, hlast⟩ : ((chainScheme rt).Linked input.seedPrevHash rows ↔
      (chainScheme rt).Linked input.seedPrevHash input.rows) ∧
      (chainScheme rt).last input.seedPrevHash rows = (chainScheme rt).last input.seedPrevHash input.rows := by
    refine HashChain.Scheme.linked_congr seen (fun a b hseen ↦ ?_) h
    simp only [seen, Prod.mk.injEq] at hseen
    exact ⟨message_congr hseen.1, hseen.2.1, hseen.2.2⟩
  rw [Bool.eq_iff_iff, verifyChainRows_ok_iff, verifyChainRows_ok_iff]
  simp only [hlinked, hlast, hmap seq (fun seen ↦ jsNumber seen.1.2.2.1) rfl,
    hmap createdAt (fun seen ↦ seen.1.2.1) rfl]

theorem Tampered.chainOf (h : Tampered tenantId logs logs' log log') : ∃ front back,
    Audit.chainOf tenantId logs = front ++ log :: back ∧ Audit.chainOf tenantId logs' = front ++ log' :: back := by
  obtain ⟨front, back, rfl, rfl⟩ := h.place
  have hkeep (entry : AuditLog) (htenant : entry.tenantId = tenantId)
      (hchained : entry.chainSeq.isSome = true) (rest : List AuditLog) :
      Audit.chainOf tenantId (entry :: rest) = entry :: Audit.chainOf tenantId rest := by
    rw [Audit.chainOf, filter_cons_of_pos (by simp [htenant, hchained])]
    rfl
  refine ⟨Audit.chainOf tenantId front, Audit.chainOf tenantId back, ?_, ?_⟩
  · rw [chainOf_append, hkeep log h.tenant.1 h.chained]
  · rw [chainOf_append, hkeep log' h.tenant.2 (h.seq ▸ h.chained)]

theorem Tampered.chainRows (rt : Runtime) (h : Tampered tenantId logs logs' log log')
    (hseqs : (Audit.chainOf tenantId logs).map (fun log ↦ log.chainSeq.getD 0) =
      seqsTo (Audit.chainOf tenantId logs).length) : ∃ front back,
    Audit.chainRows rt tenantId logs = front ++ log.verifyRow rt :: back ∧
      Audit.chainRows rt tenantId logs' = front ++ log'.verifyRow rt :: back := by
  obtain ⟨front, back, hchain, hchain'⟩ := h.chainOf
  have hseqs' : (Audit.chainOf tenantId logs').map (fun log ↦ log.chainSeq.getD 0) =
      seqsTo (Audit.chainOf tenantId logs').length := by
    rw [hchain] at hseqs
    rw [hchain']
    simpa [h.seq] using hseqs
  refine ⟨front.map (AuditLog.verifyRow rt), back.map (AuditLog.verifyRow rt), ?_, ?_⟩
  · rw [chainRows_eq hseqs, hchain, map_append, map_cons]
  · rw [chainRows_eq hseqs', hchain', map_append, map_cons]

/-- Tampering with a chain that a run of workers has written makes the verification fail exactly when it
failed before, or what is hashed for the entry or one of its hashes was changed. -/
theorem tampering_noticed_iff {ι : Type} [DecidableEq ι] (env : Env) (hrt : env.rt.Faithful)
    (start : UnchainedStore) (tasks : ι → Task) {s : State ι Store Lock Event Unit}
    (hrun : WorkerRun env (fun _ _ ↦ True) tasks start.store s) {anchor : AuditChainAnchor}
    (hanchor : anchor ∈ s.world.db.anchors)
    (htampered : Tampered anchor.tenantId s.world.db.logs logs' log log') (rowCap : Nat)
    (hinj : Set.InjOn env.rt.sha256 {m | m ∈
      (chainInput env.rt s.world.db.logs anchor rowCap).messages env.rt ++
        (chainInput env.rt logs' anchor rowCap).messages env.rt})
    (hgenesis : ∀ m, env.rt.sha256 m ≠ genesisPrevHash) :
    (verifyChainRows env.rt (chainInput env.rt logs' anchor rowCap)).ok = false ↔
      (verifyChainRows env.rt (chainInput env.rt s.world.db.logs anchor rowCap)).ok = false ∨
      (log'.verifyRow env.rt).covered ≠ (log.verifyRow env.rt).covered ∨
      (log'.verifyRow env.rt).eventHash ≠ (log.verifyRow env.rt).eventHash ∨
      (log'.verifyRow env.rt).chainPrevHash ≠ (log.verifyRow env.rt).chainPrevHash := by
  have hintact := chain_intact hrt hrun anchor.tenantId
  obtain ⟨front, back, hrows, hrows'⟩ := htampered.chainRows env.rt hintact.seqs
  by_cases hsame : (log'.verifyRow env.rt).seen = (log.verifyRow env.rt).seen
  · have hok : (verifyChainRows env.rt (chainInput env.rt logs' anchor rowCap)).ok =
        (verifyChainRows env.rt (chainInput env.rt s.world.db.logs anchor rowCap)).ok := by
      refine verifyChainRows_congr (chainInput env.rt s.world.db.logs anchor rowCap) ?_
      simp only [chainInput, hrows, hrows', List.map_append, List.map_cons, hsame]
    simp only [ChainVerifyRow.seen, Prod.mk.injEq] at hsame
    simp [hok, hsame]
  · -- What was written is linked and ends at the anchor, so nothing else can be.
    have hnoticed : (verifyChainRows env.rt (chainInput env.rt logs' anchor rowCap)).ok = false := by
      by_contra hok
      rw [Bool.not_eq_false] at hok
      obtain ⟨hlinked', -, -, -, -, hend'⟩ := (verifyChainRows_ok_iff _ _).mp hok
      have hlinked := hintact.linked
      have hend := (hintact.anchor anchor hanchor rfl).2
      rw [← chainRows_eq hintact.seqs] at hlinked hend
      have hcovered := HashChain.Scheme.agree ChainVerifyRow.covered (List.subset_append_left _ _)
        (List.subset_append_right _ _) hinj (fun m _ ↦ hgenesis m)
        (fun _ _ _ _ ↦ ChainVerifyRow.message_inj hrt) hlinked hlinked'
        (hend.symm.trans (hend' rfl _ rfl))
      obtain ⟨hdigests, hbacks⟩ := hlinked.digests ChainVerifyRow.covered
        (fun d _ _ h ↦ ChainVerifyRow.message_congr h d) hlinked' hcovered
      simp only [chainInput, hrows, hrows', List.map_append, List.map_cons, List.append_cancel_left_eq,
        List.cons.injEq, and_true] at hcovered hdigests hbacks
      exact hsame (Prod.ext hcovered.symm (Prod.ext hdigests.symm hbacks.symm))
    have hchanged : ¬ ((log'.verifyRow env.rt).covered = (log.verifyRow env.rt).covered ∧
        (log'.verifyRow env.rt).eventHash = (log.verifyRow env.rt).eventHash ∧
        (log'.verifyRow env.rt).chainPrevHash = (log.verifyRow env.rt).chainPrevHash) := by
      simpa [ChainVerifyRow.seen] using hsame
    tauto

/-- An entry that says that something else happened. -/
def AuditLog.renamed (log : AuditLog) : AuditLog := { log with action := .named "LOGOUT", userId := 6 }

theorem exists_renamed : ∃ (s : State Nat Store Lock Event Unit) (anchor : AuditChainAnchor)
    (log : AuditLog), WorkerRun exampleEnv (fun _ _ ↦ True) (fun _ ↦ failingOnce 1) twoEvents.store s ∧
      anchor ∈ s.world.db.anchors ∧
      Tampered anchor.tenantId s.world.db.logs [log.renamed] log log.renamed ∧
      log.renamed.event ≠ log.event ∧
      (verifyChainRows exampleRuntime (chainInput exampleRuntime s.world.db.logs anchor 10)).ok = true ∧
      (verifyChainRows exampleRuntime (chainInput exampleRuntime [log.renamed] anchor 10)).ok = true := by
  obtain ⟨s, hrun, anchor, hanchor, log, -, hlogs, htenant, hchained, haction, hok, hok'⟩ :=
    Run.exists_of_schedule
      (State.start ⟨twoEvents.store, []⟩ fun _ : Nat ↦ (failingOnce 1).perform exampleEnv)
      (fun w ↦ ∃ anchor ∈ w.db.anchors, ∃ log ∈ w.db.logs, w.db.logs = [log] ∧
        log.tenantId = anchor.tenantId ∧ log.chainSeq.isSome = true ∧
        log.renamed.action ≠ log.action ∧
        (verifyChainRows exampleRuntime (chainInput exampleRuntime w.db.logs anchor 10)).ok = true ∧
        (verifyChainRows exampleRuntime (chainInput exampleRuntime [log.renamed] anchor 10)).ok = true)
      [(13, 0)]
  refine ⟨s, anchor, log, hrun, hanchor, ⟨⟨[], [], hlogs, rfl⟩, ⟨htenant, htenant⟩, hchained, rfl⟩,
    fun h ↦ haction (congrArg Prod.fst h), hok, hok'⟩

theorem exampleRuntime_injective : Function.Injective exampleRuntime.sha256 :=
  cons_injective

theorem exampleRuntime_genesis (m : Bytes) : exampleRuntime.sha256 m ≠ genesisPrevHash :=
  fun h ↦ absurd (cons.inj h).1 (by decide)

/-- Most of what an entry says is not hashed: its action and its user can be changed, and the chain is
still accepted. -/
theorem tampering_unnoticed :
    ¬ ∀ (env : Env) (start : UnchainedStore) (tasks : Nat → Task) (s : State Nat Store Lock Event Unit)
      (anchor : AuditChainAnchor) (logs' : List AuditLog) (log log' : AuditLog) (rowCap : Nat),
      env.rt.Faithful → Function.Injective env.rt.sha256 →
      (∀ m, env.rt.sha256 m ≠ genesisPrevHash) →
      WorkerRun env (fun _ _ ↦ True) tasks start.store s → anchor ∈ s.world.db.anchors →
      Tampered anchor.tenantId s.world.db.logs logs' log log' → log'.event ≠ log.event →
      (verifyChainRows env.rt (chainInput env.rt logs' anchor rowCap)).ok = false := by
  intro h
  obtain ⟨s, anchor, log, hrun, hanchor, htampered, hevent, -, hok⟩ := exists_renamed
  have hnoticed := h exampleEnv twoEvents _ s anchor _ log _ 10 exampleRuntime_faithful
    exampleRuntime_injective exampleRuntime_genesis hrun hanchor htampered hevent
  exact absurd (hnoticed.symm.trans hok) (by decide)

/-- The conditions can be met: a change of the action and the user is not noticed, since what is hashed
stays the same. -/
theorem tampering_noticed_iff_renamed : ∃ (s : State Nat Store Lock Event Unit)
    (anchor : AuditChainAnchor) (log : AuditLog),
    ((verifyChainRows exampleRuntime (chainInput exampleRuntime [log.renamed] anchor 10)).ok = false ↔
      (verifyChainRows exampleRuntime (chainInput exampleRuntime s.world.db.logs anchor 10)).ok = false ∨
      (log.renamed.verifyRow exampleRuntime).covered ≠ (log.verifyRow exampleRuntime).covered ∨
      (log.renamed.verifyRow exampleRuntime).eventHash ≠ (log.verifyRow exampleRuntime).eventHash ∨
      (log.renamed.verifyRow exampleRuntime).chainPrevHash ≠ (log.verifyRow exampleRuntime).chainPrevHash) := by
  obtain ⟨s, anchor, log, hrun, hanchor, htampered, -⟩ := exists_renamed
  exact ⟨s, anchor, log, tampering_noticed_iff exampleEnv exampleRuntime_faithful twoEvents _ hrun hanchor
    htampered 10 exampleRuntime_injective.injOn exampleRuntime_genesis⟩

end Tampering

/-- Workers only append to the log, whatever fails, stalls or is reaped, and the chain of a tenant has the numbers from
one to that of its anchor, without a gap or a repetition. -/
theorem log_appendOnly {ι : Type} [DecidableEq ι] (env : Env) (hrt : env.rt.Faithful) (start : UnchainedStore)
    (tasks : ι → Task) {s : State ι Store Lock Event Unit}
    (hrun : WorkerRun env (fun _ _ ↦ True) tasks start.store s) :
    start.store.logs <+: s.world.db.logs ∧ ∀ anchor ∈ s.world.db.anchors, ∃ n : Nat, anchor.chainSeq = n ∧
      (chainOf anchor.tenantId s.world.db.logs).map (fun log ↦ log.chainSeq.getD 0) = seqsTo n := by
  constructor
  · refine hrun.invariant (fun db ↦ start.store.logs <+: db.logs) start.sound (prefix_refl _)
      fun db _ _ hprefix _ _ heffect ↦ hprefix.trans ?_
    obtain ⟨_, logs, -, -, -, hlogs⟩ | ⟨_, _, _, _, _, _, -, -, -, -, -, -, -, hlogs⟩ := heffect.chains
    · exact hlogs ▸ prefix_append _ _
    · exact hlogs ▸ prefix_append _ _
  · intro anchor hanchor
    have hintact := chain_intact hrt hrun anchor.tenantId
    exact ⟨_, (hintact.anchor anchor hanchor rfl).1, hintact.seqs⟩

/-- Two events, and an entry that is not chained. -/
def loggedEvents : UnchainedStore where
  store := { twoEvents.store with logs := [directAuditLog exampleEnv 300 0 9 .outboxReaped [] .tenant none] }
  sound := ⟨by decide, by decide, by decide⟩
  anchors := rfl
  logs := by simp [directAuditLog]

theorem log_appendOnly_pair : ∃ (s : State Nat Store Lock Event Unit) (anchor : AuditChainAnchor),
    WorkerRun exampleEnv (fun _ _ ↦ True) (fun _ ↦ failingOnce 1) loggedEvents.store s ∧
    loggedEvents.store.logs <+: s.world.db.logs ∧ anchor ∈ s.world.db.anchors ∧ anchor.chainSeq = 2 ∧
    ∃ n : Nat, anchor.chainSeq = n ∧
      (chainOf anchor.tenantId s.world.db.logs).map (fun log ↦ log.chainSeq.getD 0) = seqsTo n := by
  obtain ⟨s, hrun, anchor, hanchor, hseq⟩ := Run.exists_of_schedule
    (State.start ⟨loggedEvents.store, []⟩ fun _ : Nat ↦ (failingOnce 1).perform exampleEnv)
    (fun w ↦ ∃ anchor ∈ w.db.anchors, anchor.chainSeq = 2) [(22, 0)]
  obtain ⟨hkept, hchains⟩ := log_appendOnly exampleEnv exampleRuntime_faithful loggedEvents _ hrun
  exact ⟨s, anchor, hrun, hkept, hanchor, hseq, hchains anchor hanchor⟩

end PasswdSso.Audit
