import Mathlib.Data.List.Forall2
import PasswdSso.Audit.Store
import PasswdSso.Retention.Registry

/-!
# Sweeps that record what they delete

The sweep of the credential and security-record tables (`sweepAuditProvenanceEntry`) with its audit events: it
deletes a batch, and for every row that the delete has returned it writes an event to `audit_outbox` under the tenant
of the row, in the same transaction. Any number of workers sweep at the same time, and any statement may fail.
-/

namespace PasswdSso.Retention.Provenance

open ReadCommitted List

/-- The `auditAction`s of the entries. -/
inductive AuditAction
  | credentialRetentionPurged
  | securityRecordRetentionPurged
  deriving DecidableEq

structure AuditProvenanceEntry where
  table : String
  cutoffColumn : String
  provenanceColumns : List String
  auditAction : AuditAction
  guard : Option GuardName
  globalDelete : Bool
  retentionDays : Option Int

namespace AuditProvenanceEntry

def rule (entry : AuditProvenanceEntry) (clock : Clock) : Rule :=
  ⟨entry.table, none, entry.cutoffColumn, clock.now - entry.retentionDays.getD 0 * msPerDay, [], entry.guard, clock.now⟩

end AuditProvenanceEntry

def credential (table cutoffColumn : String) (provenanceColumns : List String) : AuditProvenanceEntry :=
  ⟨table, cutoffColumn, provenanceColumns, .credentialRetentionPurged, none, true, none⟩

def securityRecord (table cutoffColumn : String) (provenanceColumns : List String) : AuditProvenanceEntry :=
  ⟨table, cutoffColumn, provenanceColumns, .securityRecordRetentionPurged, none, true, none⟩

/-- The entries of `RETENTION_REGISTRY` that are audited row by row. -/
def auditProvenanceEntries : List AuditProvenanceEntry :=
  [ credential "api_keys" "expires_at" ["tenant_id", "user_id", "name", "last_used_at"],
    credential "service_account_tokens" "expires_at" ["tenant_id", "service_account_id", "name", "last_used_at"],
    credential "operator_tokens" "expires_at"
      ["tenant_id", "subject_user_id", "created_by_user_id", "name", "last_used_at"],
    credential "extension_tokens" "expires_at"
      ["tenant_id", "user_id", "last_used_at", "last_used_ip", "last_used_user_agent"],
    { securityRecord "access_requests" "expires_at" ["tenant_id", "service_account_id", "requester_user_id",
        "requester_service_account_id", "status", "approved_at", "created_at"] with retentionDays := some 7 },
    securityRecord "admin_vault_resets" "expires_at"
      ["tenant_id", "target_user_id", "approved_at", "executed_at", "revoked_at", "created_at"],
    securityRecord "master_key_rotations" "expires_at"
      ["tenant_id", "target_version", "approved_at", "executed_at", "revoked_at", "created_at"],
    securityRecord "personal_log_access_grants" "expires_at"
      ["tenant_id", "requester_id", "target_user_id", "revoked_at", "created_at"],
    securityRecord "password_shares" "expires_at"
      ["tenant_id", "created_by_id", "share_type", "entry_type", "revoked_at", "created_at"],
    securityRecord "team_invitations" "expires_at" ["tenant_id", "invited_by_id", "email", "status", "created_at"],
    { securityRecord "emergency_access_grants" "created_at" ["tenant_id", "owner_id", "grantee_id", "status",
        "token_expires_at", "wait_expires_at", "revoked_at", "created_at"] with guard := some .emergencyGrantDead } ]

theorem tenant_mem_provenanceColumns : ∀ entry ∈ auditProvenanceEntries, "tenant_id" ∈ entry.provenanceColumns := by
  decide +kernel

theorem nodup_tables : (auditProvenanceEntries.map AuditProvenanceEntry.table).Nodup := by
  decide +kernel

/-- `AuditOutboxPayload`. `String` leaves the text of an id as it is, so `targetId` is the id. -/
structure AuditOutboxPayload where
  scope : Audit.AuditScope
  action : AuditAction
  userId : String
  actorType : Audit.ActorType
  serviceAccountId : Option Uuid
  teamId : Option Uuid
  targetType : String
  targetId : SqlValue
  metadata : List (String × SqlValue)
  ip : Option String
  userAgent : Option String

/-- An `audit_outbox` row. -/
structure OutboxRow where
  tenantId : Uuid
  payload : AuditOutboxPayload

/-- The tables that are swept and the table of tenants, and the outbox. -/
structure Ledger where
  tables : Store
  outbox : List OutboxRow

def systemActorId : String := "00000000-0000-4000-8000-000000000001"

/-- The text of a column that is a text or `NULL`. -/
def SqlValue.text? : SqlValue → Option String
  | .text value => some value
  | _ => none

def provenanceValue (column : String) (value : SqlValue) : SqlValue :=
  match value with
  | .text text => if column = "last_used_user_agent" then .text (jsSlice userAgentMaxLength text) else value
  | _ => value

namespace AuditProvenanceEntry

/-- `RETURNING id, …`: the other columns are not there. -/
def project (entry : AuditProvenanceEntry) (row : Row) : Row :=
  fun column ↦ if column ∈ "id" :: entry.provenanceColumns then row column else .null

/-- The event of a row that the delete has returned. -/
def payload (entry : AuditProvenanceEntry) (row : Row) : AuditOutboxPayload where
  scope := .tenant
  action := entry.auditAction
  userId := systemActorId
  actorType := .system
  serviceAccountId := none
  teamId := none
  targetType := entry.table
  targetId := row "id"
  metadata := ("table", .text entry.table) ::
    entry.provenanceColumns.map fun column ↦ (column, provenanceValue column (row column))
  ip := SqlValue.text? (row "last_used_ip")
  userAgent := (SqlValue.text? (row "last_used_user_agent")).map (jsSlice userAgentMaxLength)

end AuditProvenanceEntry

def ledgerTable (name : String) : Table Ledger Key Row where
  rows db := db.tables name
  put db rows := { db with tables := Function.update db.tables name rows }
  key row := [row "id"]
  rows_put _ _ := Function.update_self ..
  put_rows db := by simp
  put_put _ _ _ := by simp

def Ledger.enqueue (events : List OutboxRow) (db : Ledger) : Ledger :=
  { db with outbox := db.outbox ++ events }

/-- What a sweep has committed. -/
structure Purged where
  table : String
  rows : List Row

abbrev Worker (α : Type) := Prog Ledger Lock Purged α

inductive Statement
  | setConfig
  | delete
  | context (n : Nat)
  | tenantExists (n : Nat)
  | create (n : Nat)
  | commit
  deriving DecidableEq

/-- One pass of a worker: its batch size, the times of its transactions, and the statements that fail, by table. -/
structure Pass where
  batchSize : Nat
  clock : String → Clock
  fails : String → Statement → Bool

/-- The settings that `current_setting` answers. -/
structure RlsContext where
  bypassRls : Bool
  tenantId : SqlValue

def attempt {α : Type} (fails : Bool) (statement : Worker α) : Worker (Except Unit α) :=
  if fails then return .error () else do
    let value ← statement
    return .ok value

section Sweep

variable (fails : Statement → Bool) (ctx : RlsContext)

/-- The end of `enqueueAuditInWorkerTx`: the tenant has to exist. -/
def createEvent (n : Nat) (event : OutboxRow) : Worker (Except Unit Unit) :=
  Prog.andThen (attempt (fails (.tenantExists n)) (.read fun db ↦
    (db.tables "tenants").any fun tenant ↦ tenant "id" = .uuid event.tenantId)) fun tenantExists ↦
  if tenantExists then
    attempt (fails (.create n)) (.write [] (.enqueue [event]) fun _ ↦ ())
  else return .error ()

/-- `enqueueAuditInWorkerTx`, for the row number `n`; a tenant that is not a uuid fails the cast. -/
def enqueueAuditInWorkerTx (n : Nat) (tenantId : SqlValue) (payload : AuditOutboxPayload) :
    Worker (Except Unit Unit) :=
  Prog.andThen (attempt (fails (.context n)) (.read fun _ ↦ ctx)) fun ctx ↦
  if ctx.bypassRls = false ∧ ctx.tenantId ≠ tenantId then return .error () else
  match tenantId with
  | .uuid tenantId => createEvent fails n ⟨tenantId, payload⟩
  | _ => return .error ()

def enqueueAll (entry : AuditProvenanceEntry) : Nat → List Row → Worker (Except Unit Unit)
  | _, [] => return .ok ()
  | n, row :: rest =>
    Prog.andThen (enqueueAuditInWorkerTx fails ctx n (entry.project row "tenant_id") (entry.payload (entry.project row)))
      fun _ ↦ enqueueAll entry (n + 1) rest

end Sweep

section Sweeps

variable (env : Env) (pass : Pass)

/-- `assertIdentifier`. -/
def isIdentifier (name : String) : Bool := name ≠ "" && name.toList.all fun c ↦ c.isLower || c = '_'

/-- `set_config('app.bypass_rls', 'on', true)`, for an entry with `globalDelete`. -/
def setBypass (entry : AuditProvenanceEntry) : Worker (Except Unit RlsContext) :=
  if entry.globalDelete then attempt (pass.fails entry.table .setConfig) (.read fun _ ↦ ⟨true, .null⟩)
  else return .ok ⟨false, .null⟩

/-- `sweepAuditProvenanceEntry`, with the rows that it has deleted. -/
def sweepAuditProvenanceEntry (entry : AuditProvenanceEntry) : Worker (Except Unit (List Row)) :=
  if !((entry.table :: entry.cutoffColumn :: entry.provenanceColumns).all isIdentifier) then return .error () else
  Prog.andThen (setBypass pass entry) fun ctx ↦
  Prog.andThen (attempt (pass.fails entry.table .delete) (.deleteFound (ledgerTable entry.table)
    (.mk entry.table) fun db ↦
      selectKeys env ["id"] (entry.rule (pass.clock entry.table)) pass.batchSize db.tables)) fun rows ↦
  Prog.andThen (enqueueAll (pass.fails entry.table) ctx entry 0 rows) fun _ ↦
  attempt (pass.fails entry.table .commit) (return rows)

def sweepTransaction (entry : AuditProvenanceEntry) : Worker (Except Unit (List Row)) :=
  Prog.transaction (.mk entry.table) (sweepAuditProvenanceEntry env pass entry)

def sweepEntries : List AuditProvenanceEntry → Worker Unit
  | [] => return ()
  | entry :: rest => do
    let _ ← sweepTransaction env pass entry
    sweepEntries rest

/-- The passes of a worker. -/
def sweepPasses : List Pass → Worker Unit
  | [] => return ()
  | pass :: rest => do
    sweepEntries env pass auditProvenanceEntries
    sweepPasses rest

end Sweeps

section Events

def Records (entry : AuditProvenanceEntry) (row : Row) (event : OutboxRow) : Prop :=
  row "tenant_id" = .uuid event.tenantId ∧ event.payload = entry.payload (entry.project row)

def OutboxRow.concerns (event : OutboxRow) (table : String) (id : SqlValue) : Bool :=
  event.payload.targetType = table && event.payload.targetId = id

theorem project_id (entry : AuditProvenanceEntry) (row : Row) : entry.project row "id" = row "id" :=
  if_pos mem_cons_self

variable {entry : AuditProvenanceEntry} {row : Row} {event : OutboxRow}

theorem project_tenant (h : entry ∈ auditProvenanceEntries) (row : Row) :
    entry.project row "tenant_id" = row "tenant_id" :=
  if_pos (mem_cons_of_mem _ (tenant_mem_provenanceColumns entry h))

theorem Records.concerns_iff (h : Records entry row event) (table : String) (id : SqlValue) :
    event.concerns table id = true ↔ entry.table = table ∧ row "id" = id := by
  rw [OutboxRow.concerns, h.2, Bool.and_eq_true, decide_eq_true_eq, decide_eq_true_eq]
  change _ ∧ entry.project row "id" = id ↔ _
  rw [project_id]
  rfl

variable {entry : AuditProvenanceEntry} {rows : List Row} {events : List OutboxRow}
  (h : List.Forall₂ (Records entry) rows events)

include h

theorem exists_row_of_event (hevent : event ∈ events) : ∃ row ∈ rows, Records entry row event := by
  induction h with
  | nil => exact absurd hevent not_mem_nil
  | cons hrecords _ ih =>
    rcases mem_cons.mp hevent with rfl | hrest
    · exact ⟨_, mem_cons_self, hrecords⟩
    · obtain ⟨row, hrow, hrow'⟩ := ih hrest
      exact ⟨row, mem_cons_of_mem _ hrow, hrow'⟩

theorem filter_concerns_eq_nil {table : String} {id : SqlValue}
    (hother : ∀ row ∈ rows, ¬ (entry.table = table ∧ row "id" = id)) :
    events.filter (·.concerns table id) = [] := by
  refine filter_eq_nil_iff.mpr fun event hevent hconcerns ↦ ?_
  obtain ⟨row, hrow, hrecords⟩ := exists_row_of_event h hevent
  exact hother row hrow ((hrecords.concerns_iff table id).mp hconcerns)

theorem filter_concerns_of_mem (hids : (rows.map fun row ↦ [row "id"]).Nodup) (hrow : row ∈ rows) :
    ∃ event, events.filter (·.concerns entry.table (row "id")) = [event] ∧ Records entry row event := by
  induction h with
  | nil => exact absurd hrow not_mem_nil
  | cons hrecords hrest ih =>
    rename_i first event rest others
    rw [map_cons, nodup_cons] at hids
    rcases mem_cons.mp hrow with rfl | hlater
    · refine ⟨event, ?_, hrecords⟩
      have hothers : others.filter (·.concerns entry.table (row "id")) = [] := by
        refine filter_concerns_eq_nil hrest ?_
        rintro other hother ⟨-, hid⟩
        exact hids.1 (mem_map.mpr ⟨other, hother, by rw [hid]⟩)
      rw [filter_cons, if_pos ((hrecords.concerns_iff _ _).mpr ⟨rfl, rfl⟩), hothers]
    · have hne : ¬ event.concerns entry.table (row "id") = true := by
        rw [hrecords.concerns_iff]
        rintro ⟨-, hid⟩
        exact hids.1 (mem_map.mpr ⟨row, hlater, by rw [hid]⟩)
      rw [filter_cons, if_neg hne]
      exact ih hids.2 hlater

end Events

section Contract

/-- What the transaction of an entry commits: all rows under the keys that it has locked go, and each has a record. -/
structure Purges (held : List (Lock × Mode)) (db db' : Ledger) (entry : AuditProvenanceEntry) (rows : List Row)
    (events : List OutboxRow) : Prop where
  entry_mem : entry ∈ auditProvenanceEntries
  locked : ∀ row ∈ rows, (⟨entry.table, (ledgerTable entry.table).key row⟩, .exclusive) ∈ held
  found : (ledgerTable entry.table).found (rows.map (ledgerTable entry.table).key) db = rows
  records : List.Forall₂ (Records entry) rows events
  write : db' = ((ledgerTable entry.table).remove (rows.map (ledgerTable entry.table).key) db).enqueue events

def contract : Contract Ledger Lock Purged where
  allowed _ _ _ := True
  guarantee held w _ db := ∃ entry rows events, Purges held w.db db entry rows events

variable {held theirs : List (Lock × Mode)} {w : World Ledger Purged} {name : String}

theorem found_of_ne {other : String} (h : name ≠ other) (keys removed : List Key) (db : Ledger)
    (events : List OutboxRow) :
    (ledgerTable name).found keys (((ledgerTable other).remove removed db).enqueue events) =
      (ledgerTable name).found keys db := by
  change filter _ (Function.update db.tables other _ name) = _
  rw [Function.update_of_ne h]
  rfl

theorem stable_found {rows : List Row} (keys : List Key) (h : ∀ key ∈ keys, (Lock.mk name key, Mode.exclusive) ∈ held) :
    contract.Stable held fun w ↦ (ledgerTable name).found keys w.db = rows := by
  rintro w label db theirs hcompatible ⟨entry, removed, events, hpurges⟩ hfound
  rw [World.commit, ← hfound, hpurges.write]
  by_cases hname : name = entry.table
  · subst hname
    refine Table.found_remove fun key hkey hremoved ↦ ?_
    obtain ⟨row, hrow, rfl⟩ := mem_map.mp hremoved
    exact hcompatible.not_mem (h _ hkey) (hpurges.locked row hrow)
  · exact found_of_ne hname keys _ w.db events

end Contract

section Outlines

variable {stand : Stand Ledger Lock Purged}

theorem Ledger.enqueue_enqueue (first second : List OutboxRow) (db : Ledger) :
    (db.enqueue first).enqueue second = db.enqueue (first ++ second) := by
  simp [Ledger.enqueue]

variable {α : Type} {fails : Bool} {n : Nat} {ctx : RlsContext}

theorem returns_attempt {statement : Worker α} {post : α → Stand Ledger Lock Purged → Prop}
    (h : Outline contract statement stand post) : Returns contract (attempt fails statement) stand post := by
  rw [attempt]
  split_ifs
  · exact .error
  · refine outline_bind.mpr (h.weaken fun value next hnext ↦ ?_)
    exact .ok hnext

theorem returns_read {f : Ledger → α} :
    Returns contract (attempt fails (.read f)) stand fun _ next ↦
      stand.Reaches contract next ∧ next.pending = stand.pending :=
  returns_attempt fun _ hw ↦ ⟨(Stand.step_afterStmt hw [] id).reaches, rfl⟩

variable {fails : Statement → Bool} {entry : AuditProvenanceEntry}

theorem returns_createEvent {event : OutboxRow} :
    Returns contract (createEvent fails n event) stand fun _ next ↦
      stand.Reaches contract next ∧ next.pending = Ledger.enqueue [event] ∘ stand.pending := by
  refine .andThen returns_read fun tenantExists after hafter ↦ ?_
  split_ifs
  · refine returns_attempt fun w hw ↦ ?_
    exact ⟨hafter.1.trans (Stand.step_afterStmt hw [] _).reaches, congrArg (Ledger.enqueue [event] ∘ ·) hafter.2⟩
  · exact .error

theorem returns_enqueueAuditInWorkerTx (hentry : entry ∈ auditProvenanceEntries) (row : Row) :
    Returns contract (enqueueAuditInWorkerTx fails ctx n (entry.project row "tenant_id")
      (entry.payload (entry.project row))) stand fun _ next ↦ stand.Reaches contract next ∧
        ∃ event, Records entry row event ∧ next.pending = Ledger.enqueue [event] ∘ stand.pending := by
  refine .andThen returns_read fun ctx after hafter ↦ ?_
  split_ifs
  · exact .error
  · rw [project_tenant hentry]
    cases htenant : row "tenant_id" with
    | uuid tenantId =>
      refine .mono returns_createEvent ?_
      rintro - next ⟨hreaches, hpending⟩
      exact ⟨hafter.1.trans hreaches, _, ⟨htenant, rfl⟩, by rw [hpending, hafter.2]⟩
    | null | bool | time | text => exact .error

theorem returns_enqueueAll (hentry : entry ∈ auditProvenanceEntries) (n : Nat) (rows : List Row) :
    Returns contract (enqueueAll fails ctx entry n rows) stand fun _ next ↦ stand.Reaches contract next ∧
      ∃ events, List.Forall₂ (Records entry) rows events ∧ next.pending = Ledger.enqueue events ∘ stand.pending := by
  induction rows generalizing n stand with
  | nil =>
    refine .ok ⟨.refl _, [], .nil, funext fun db ↦ ?_⟩
    simp [Ledger.enqueue]
  | cons row rest ih =>
    refine .andThen (returns_enqueueAuditInWorkerTx hentry row) ?_
    rintro - between ⟨hbetween, event, hrecords, hevent⟩
    refine .mono (ih (n + 1)) ?_
    rintro - next ⟨hreaches, events, hrest, hevents⟩
    refine ⟨hbetween.trans hreaches, event :: events, .cons hrecords hrest, ?_⟩
    rw [hevents, hevent]
    exact funext fun db ↦ Ledger.enqueue_enqueue [event] events _

theorem returns_sweepAuditProvenanceEntry (env : Env) (pass : Pass) (hentry : entry ∈ auditProvenanceEntries)
    (w : World Ledger Purged) :
    Returns contract (sweepAuditProvenanceEntry env pass entry) (.idle w) fun rows next ↦
      contract.Commits next ⟨entry.table, rows⟩ := by
  have hbypass : Returns contract (setBypass pass entry) (.idle w) fun _ next ↦ next.pending = id := by
    rw [setBypass]
    split_ifs
    · exact returns_read.mono fun _ _ hnext ↦ hnext.2
    · exact .ok rfl
  rw [sweepAuditProvenanceEntry]
  split_ifs
  · exact .error
  refine hbypass.andThen fun ctx stand hstand ↦ ?_
  let t := ledgerTable entry.table
  -- After the delete: the rows are locked, and they are all rows under their keys.
  have hdelete : Returns contract (attempt (pass.fails entry.table .delete) (.deleteFound t (.mk entry.table)
      fun db ↦ selectKeys env ["id"] (entry.rule (pass.clock entry.table)) pass.batchSize db.tables)) stand
      fun rows next ↦ next.pending = t.remove (rows.map t.key) ∧
        (∀ row ∈ rows, (.mk entry.table (t.key row), .exclusive) ∈ next.held) ∧
        t.found (rows.map t.key) next.seen.db = rows := by
    refine returns_attempt (.deleteFound fun next rows _ hpending hlocked hfound ↦ ?_)
    rw [hstand] at hpending hfound
    exact ⟨hpending, hlocked, hfound⟩
  refine hdelete.andThen fun rows deleted hdeleted ↦ ?_
  obtain ⟨hpending, hlocked, hfound⟩ := hdeleted
  refine (returns_enqueueAll hentry 0 rows).andThen ?_
  rintro - next ⟨hreaches, events, hrecords, hevents⟩
  refine returns_attempt fun w' hw' _ ↦ ⟨entry, rows, events, ?_⟩
  have hheld := fun row hrow ↦ hreaches.held (hlocked row hrow)
  refine ⟨hentry, hheld, ?_, hrecords, by rw [hevents, hpending]; rfl⟩
  exact (stable_found _ (forall_mem_map.mpr hlocked)).later hfound (hreaches.until hw')

theorem settles_sweepPasses (env : Env) (passes : List Pass) :
    Settles contract (fun _ ↦ True) (sweepPasses env passes) := by
  have hentries (pass : Pass) (entries : List AuditProvenanceEntry) (h : entries ⊆ auditProvenanceEntries) :
      Settles contract (fun _ ↦ True) (sweepEntries env pass entries) := by
    induction entries with
    | nil => exact .pure ()
    | cons entry rest ih =>
      obtain ⟨hentry, hrest⟩ := cons_subset.mp h
      have htransaction : Settles contract (fun _ ↦ True) (sweepTransaction env pass entry) :=
        .transaction (fun _ _ _ _ _ _ ↦ trivial) fun w _ ↦ returns_sweepAuditProvenanceEntry env pass hentry w
      exact htransaction.bind fun _ ↦ ih hrest
  induction passes with
  | nil => exact .pure ()
  | cons pass rest ih => exact (hentries pass _ (.refl _)).bind fun _ ↦ ih

end Outlines

section Accountability

/-- The events account for the rows that are gone since `start`: every such row of an audited table has exactly one
event, which is its record under its own tenant, and every event is the record of such a row. -/
structure Accounts (start db : Ledger) (events : List OutboxRow) : Prop where
  audited : ∀ entry ∈ auditProvenanceEntries, ∀ row ∈ start.tables entry.table, row ∉ db.tables entry.table →
    ∃ event, events.filter (·.concerns entry.table (row "id")) = [event] ∧ Records entry row event
  deleted : ∀ event ∈ events, ∃ entry ∈ auditProvenanceEntries, ∃ row ∈ start.tables entry.table,
    row ∉ db.tables entry.table ∧ Records entry row event

/-- The primary keys of the audited tables. -/
def IdsUnique (db : Ledger) : Prop :=
  ∀ entry ∈ auditProvenanceEntries, (ledgerTable entry.table).KeysUnique db

variable {start db db' : Ledger} {held : List (Lock × Mode)} {entry : AuditProvenanceEntry} {rows : List Row}
  {events new : List OutboxRow}

theorem Purges.tables_of_ne (h : Purges held db db' entry rows new) {name : String} (hname : name ≠ entry.table) :
    db'.tables name = db.tables name := by
  rw [h.write]
  exact Function.update_of_ne hname ..

variable {row : Row}

theorem Purges.mem_iff (h : Purges held db db' entry rows new) :
    row ∈ db'.tables entry.table ↔ row ∈ db.tables entry.table ∧ row ∉ rows := by
  have hrows : db'.tables entry.table =
      (ledgerTable entry.table).rows ((ledgerTable entry.table).remove (rows.map (ledgerTable entry.table).key) db) := by
    rw [h.write]
    rfl
  have hkey (hrow : row ∈ db.tables entry.table) :
      row ∈ rows ↔ (ledgerTable entry.table).key row ∈ rows.map (ledgerTable entry.table).key := by
    refine ⟨mem_map_of_mem, fun hkey ↦ ?_⟩
    rw [← h.found]
    exact Table.mem_found.mpr ⟨hrow, hkey⟩
  rw [hrows, Table.rows_remove, mem_filter]
  refine and_congr_right fun hrow ↦ ?_
  rw [hkey hrow]
  simp

theorem Purges.mem_before (h : Purges held db db' entry rows new) (hrow : row ∈ rows) :
    row ∈ db.tables entry.table := by
  rw [← h.found] at hrow
  exact (Table.mem_found.mp hrow).1

theorem entry_eq_of_table {first second : AuditProvenanceEntry} (hfirst : first ∈ auditProvenanceEntries)
    (hsecond : second ∈ auditProvenanceEntries) (h : first.table = second.table) : first = second :=
  inj_on_of_nodup_map nodup_tables hfirst hsecond h

/-- What the run keeps: no row is new, and the new events account for the rows that are gone. -/
structure Accounted (start db : Ledger) : Prop where
  shrinks : ∀ name, ∀ row ∈ db.tables name, row ∈ start.tables name
  ids : IdsUnique db
  accounts : ∃ events, db.outbox = start.outbox ++ events ∧ Accounts start db events

theorem Accounts.purge (hids : IdsUnique start) (hshrinks : ∀ name, ∀ row ∈ db.tables name, row ∈ start.tables name)
    (hdb : IdsUnique db) (h : Accounts start db events) (hpurges : Purges held db db' entry rows new) :
    Accounts start db' (events ++ new) := by
  have hgone {other : AuditProvenanceEntry} {row : Row} (hrow : row ∉ db.tables other.table) :
      row ∉ db'.tables other.table := by
    by_cases hname : other.table = entry.table
    · rw [hname] at hrow ⊢
      exact fun hmem ↦ hrow (hpurges.mem_iff.mp hmem).1
    · rwa [hpurges.tables_of_ne hname]
  -- A row of the start is known by its entry and its id.
  have hsame {other : AuditProvenanceEntry} (hother : other ∈ auditProvenanceEntries) {row old : Row}
      (hrow : row ∈ start.tables other.table) (hold : old ∈ start.tables other.table) (hid : row "id" = old "id") :
      row = old :=
    (hids other hother).eq_of_key_eq hrow hold (congrArg (fun id ↦ [id]) hid)
  refine ⟨fun other hother row hrow hmissing ↦ ?_, fun event hevent ↦ ?_⟩
  · rw [filter_append]
    by_cases hbefore : row ∈ db.tables other.table
    · -- The purge has removed the row: it has a record now, and had none before.
      have hnone : events.filter (·.concerns other.table (row "id")) = [] := by
        refine filter_eq_nil_iff.mpr fun event hevent hconcerns ↦ ?_
        obtain ⟨third, hthird, old, hold, habsent, hrecords⟩ := h.deleted event hevent
        obtain ⟨htable, hid⟩ := (hrecords.concerns_iff _ _).mp hconcerns
        obtain rfl := entry_eq_of_table hthird hother htable
        exact habsent (hsame hother hrow hold hid.symm ▸ hbefore)
      have hname : other.table = entry.table := by
        by_contra hne
        rw [hpurges.tables_of_ne hne] at hmissing
        exact hmissing hbefore
      obtain rfl := entry_eq_of_table hother hpurges.entry_mem hname
      have hremoved : row ∈ rows := by
        by_contra hkept
        exact hmissing (hpurges.mem_iff.mpr ⟨hbefore, hkept⟩)
      have hnodup : (rows.map fun row ↦ [row "id"]).Nodup := by
        have hsub : rows.Sublist (db.tables other.table) := by
          rw [← hpurges.found]
          exact filter_sublist
        exact (hsub.map _).nodup (hdb other hother)
      rw [hnone, nil_append]
      exact filter_concerns_of_mem hpurges.records hnodup hremoved
    · -- The row was gone: the rows of the purge are others.
      obtain ⟨event, hfilter, hrecords⟩ := h.audited other hother row hrow hbefore
      have hnone : new.filter (·.concerns other.table (row "id")) = [] := by
        refine filter_concerns_eq_nil hpurges.records ?_
        rintro old hold ⟨htable, hid⟩
        have hmem := hpurges.mem_before hold
        rw [htable] at hmem
        exact hbefore (hsame hother (hshrinks _ old hmem) hrow hid ▸ hmem)
      exact ⟨event, by rw [hfilter, hnone]; rfl, hrecords⟩
  · rcases mem_append.mp hevent with hold | hnew
    · obtain ⟨other, hother, row, hrow, habsent, hrecords⟩ := h.deleted event hold
      exact ⟨other, hother, row, hrow, hgone habsent, hrecords⟩
    · obtain ⟨row, hrow, hrecords⟩ := exists_row_of_event hpurges.records hnew
      refine ⟨entry, hpurges.entry_mem, row, hshrinks _ row (hpurges.mem_before hrow), ?_, hrecords⟩
      exact fun hmem ↦ (hpurges.mem_iff.mp hmem).2 hrow

theorem Accounted.purge (hids : IdsUnique start) (h : Accounted start db)
    (hpurges : Purges held db db' entry rows new) : Accounted start db' := by
  obtain ⟨hshrinks, hdb, events, houtbox, haccounts⟩ := h
  refine ⟨fun name row hrow ↦ ?_, fun other hother ↦ ?_, events ++ new, ?_, haccounts.purge hids hshrinks hdb hpurges⟩
  · by_cases hname : name = entry.table
    · subst hname
      exact hshrinks _ row (hpurges.mem_iff.mp hrow).1
    · rw [hpurges.tables_of_ne hname] at hrow
      exact hshrinks name row hrow
  · by_cases hname : other.table = entry.table
    · rw [hpurges.write, hname]
      exact (hname ▸ hdb other hother : (ledgerTable entry.table).KeysUnique db).remove
    · exact (hdb other hother).congr (hpurges.tables_of_ne hname)
  · rw [hpurges.write, ← append_assoc, ← houtbox]
    rfl

end Accountability

section Runs

variable {ι : Type} [DecidableEq ι]

/-- For any rows, any number of workers with any passes, and any interleaving of their statements, whichever of them
fail: the committed events account for the rows that are gone. -/
theorem purged_rows_accounted (env : Env) (start : Ledger) (hids : IdsUnique start) (passes : ι → List Pass)
    {s : State ι Ledger Lock Purged Unit}
    (hrun : Run (fun _ _ _ ↦ True) (State.start ⟨start, []⟩ fun i ↦ sweepPasses env (passes i)) s) :
    ∃ events, s.world.db.outbox = start.outbox ++ events ∧ Accounts start s.world.db events := by
  have hstart : Accounted start start := by
    refine ⟨fun _ _ hrow ↦ hrow, hids, [], by simp, fun _ _ row hrow hgone ↦ absurd hrow hgone, ?_⟩
    exact fun event hevent ↦ absurd hevent List.not_mem_nil
  have haccounted : Accounted start s.world.db := by
    refine hrun.invariant (c := contract) (fun w ↦ Accounted start w.db)
      (fun i ↦ (settles_sweepPasses env (passes i)).outline _) hstart ?_
    rintro held w label db hw ⟨entry, rows, events, hpurges⟩
    exact hw.purge hids hpurges
  exact haccounted.accounts

/-- A tenant and two API keys that have expired. -/
def expiredKeys : Ledger where
  tables name :=
    if name = "tenants" then [fun _ ↦ .uuid 7]
    else if name = "api_keys" then [1, 2].map fun id column ↦
      if column = "id" then .uuid id else if column = "expires_at" then .time 0 else .uuid 7
    else []
  outbox := []

def passAtOne (fails : String → Statement → Bool) : Pass := ⟨10, fun _ ↦ ⟨1, fun _ ↦ 1⟩, fails⟩

/-- One worker fails at its last event, and two race for the rows that it leaves. -/
def racingPasses : Fin 3 → List Pass
  | 0 => [passAtOne fun table statement ↦ table = "api_keys" && statement = .create 1]
  | 1 => [passAtOne fun _ _ ↦ false]
  | 2 => [passAtOne fun _ _ ↦ false]

/-- Tables without tenants, in the order in which they are stored. -/
def storedOrder : Env := ⟨[], fun _ rows ↦ rows, fun _ _ ↦ .refl _⟩

theorem idsUnique_expiredKeys : IdsUnique expiredKeys := by
  have h : ∀ entry ∈ auditProvenanceEntries, ((expiredKeys.tables entry.table).map fun row ↦ [row "id"]).Nodup := by
    decide +kernel
  exact h

theorem purged_rows_accounted_race :
    ∃ s, Run (fun _ _ _ ↦ True) (State.start ⟨expiredKeys, []⟩ fun i ↦ sweepPasses storedOrder (racingPasses i)) s ∧
      s.world.db.outbox.length = 2 ∧ s.world.log.length = 2 ∧
        ∃ events, s.world.db.outbox = expiredKeys.outbox ++ events ∧ Accounts expiredKeys s.world.db events := by
  obtain ⟨s, hrun, houtbox, hlog⟩ := Run.exists_of_schedule
    (State.start ⟨expiredKeys, []⟩ fun i ↦ sweepPasses storedOrder (racingPasses i))
    (fun w ↦ w.db.outbox.length = 2 ∧ w.log.length = 2)
    [(2, 1), (2, 2), (9, 0), (8, 1), (2, 2)]
  exact ⟨s, hrun, houtbox, hlog, purged_rows_accounted storedOrder expiredKeys idsUnique_expiredKeys racingPasses hrun⟩

end Runs

end PasswdSso.Retention.Provenance
