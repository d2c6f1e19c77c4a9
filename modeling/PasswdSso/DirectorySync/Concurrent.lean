import PasswdSso.DirectorySync.Engine
import PasswdSso.ReadCommitted.Request

/-!
# Sync runs beside each other

`runDirectorySync` as a program of transactions, so that any number of runs can interleave and stall between any two
of its steps. The clock is part of the state and every `new Date()` reads it; a tick of the clock is a request of its
own. The transaction that applies a plan is one statement, and row locks are taken on the configurations only.
-/

namespace PasswdSso.DirectorySync.Concurrent

open ReadCommitted

/-- The tables and the clock. -/
structure Db where
  store : Store
  now : Millis

inductive Lock
  | config (id : Uuid)
  deriving DecidableEq

/-- What a committed transaction did. The events of a run carry its configuration and start. -/
inductive Event (ι : Type)
  | ticked (run : ι)
  /-- The claim matched no configuration. -/
  | refused (run : ι)
  | claimed (run : ι) (configId : Uuid) (startedAt : Millis)
  /-- The membership changes. -/
  | applied (run : ι) (configId : Uuid) (startedAt : Millis)
  /-- The status, the error or the time of the last sync of the configuration. -/
  | wrote (run : ι) (configId : Uuid) (startedAt : Millis)
  /-- A row of the sync log. -/
  | logged (run : ι)
  deriving DecidableEq

/-- The run that committed it. -/
def Event.run {ι : Type} : Event ι → ι
  | .ticked run => run
  | .refused run => run
  | .claimed run _ _ => run
  | .applied run _ _ => run
  | .wrote run _ _ => run
  | .logged run => run

def configTable : Table Db Uuid SyncConfig where
  rows db := db.store.configs
  put db rows := { db with store := { db.store with configs := rows } }
  key := SyncConfig.id

abbrev Server (ι α : Type) := Prog Db Lock (Event ι) α

variable {ι : Type}

section Run

variable (run : ι) (env : Env) (opts : SyncOptions)

def claimConfig (startedAt staleAt : Millis) : Server ι (Except SyncError Bool) :=
  Prog.transaction (fun acquired ↦ if acquired then .claimed run opts.configId startedAt else .refused run) do
    let updated ← .updateMany configTable .config (claims { env with startedAt := staleAt } opts)
      fun config ↦ { config with status := .running, lastSyncAt := some startedAt }
    return .ok (updated > 0)

def writeConfig (startedAt : Millis) (f : SyncConfig → SyncConfig) : Server ι (Except SyncError Unit) :=
  Prog.transaction (fun _ ↦ .wrote run opts.configId startedAt) do
    let count ← .updateMany configTable .config
      (fun config ↦ config.id = opts.configId && config.tenantId = opts.tenantId) f
    if count = 0 then
      return .error .recordNotFound
    return .ok ()

def writeLog (startedAt completedAt : Millis) (status : SyncStatus) (stats : SyncStats)
    (errorMessage : Option String) : Server ι (Except SyncError Unit) :=
  Prog.transaction (fun _ ↦ .logged run) do
    Prog.write [] (fun db ↦ { db with
      store := db.store.createLog { env with startedAt, completedAt } opts status stats errorMessage }) fun _ ↦ ()
    return .ok ()

def Db.apply (now : Millis) (existing : Directory) (plan : Plan) (db : Db) : Db :=
  match applyChanges { env with now } opts.tenantId existing plan db.store.directory with
  | .ok (_, directory) => { db with store := { db.store with directory } }
  | .error _ => db

def applyTransaction (startedAt now : Millis) (existing : Directory) (plan : Plan) :
    Server ι (Except (SyncError × SyncStats) SyncStats) :=
  Prog.transaction (fun _ ↦ .applied run opts.configId startedAt) do
    let answer ← .write [] (Db.apply env opts now existing plan) fun db ↦
      applyChanges { env with now } opts.tenantId existing plan db.store.directory
    return answer.map Prod.fst

def writeErrorLog (startedAt : Millis) (thrown : SyncError) (stats : SyncStats) : Server ι SyncResult := do
  let message := env.sanitizeSyncError thrown
  let failure : SyncResult := { success := false, dryRun := opts.dryRun, stats, errorMessage := some message }
  let completedAt ← .readOnly Db.now
  match env.fails .errorLog with
  | some _ => return failure
  | none =>
    match ← writeLog run env opts startedAt completedAt .error stats (some message) with
    | .error _ => return failure
    | .ok _ => return { failure with logId := some env.logId }

/-- `writeSyncError`, best effort, and the error log. -/
def recordError (startedAt : Millis) (thrown : SyncError) (stats : SyncStats) : Server ι SyncResult := do
  let failedAt ← .readOnly Db.now
  match env.fails .writeError with
  | some _ => writeErrorLog run env opts startedAt thrown stats
  | none =>
    let _ ← writeConfig run opts startedAt fun config ↦ { config with
      status := .error, lastSyncError := some (env.sanitizeSyncError thrown), lastSyncAt := some failedAt }
    writeErrorLog run env opts startedAt thrown stats

def abortSafety (startedAt : Millis) (message : String) : Server ι (Except (SyncError × SyncStats) SyncResult) := do
  match env.fails .abort with
  | some thrown => return .error (.database thrown, {})
  | none =>
    let completedAt ← .readOnly Db.now
    match ← writeLog run env opts startedAt completedAt .error {} (some (env.sanitizeMessage message)) with
    | .error thrown => return .error (thrown, {})
    | .ok _ =>
      let written ← writeConfig run opts startedAt fun config ↦ { config with
        status := .error, lastSyncError := some (env.sanitizeMessage message) }
      match written with
      | .error thrown => return .error (thrown, {})
      | .ok _ =>
        return .ok {
          success := false, dryRun := opts.dryRun, stats := {}, errorMessage := some message, abortedSafety := true,
          logId := some env.logId }

def finish (startedAt : Millis) (stats : SyncStats) : Server ι (Except (SyncError × SyncStats) SyncResult) := do
  let completedAt ← .readOnly Db.now
  match env.fails .log with
  | some thrown => return .error (.database thrown, stats)
  | none =>
    match ← writeLog run env opts startedAt completedAt .success stats none with
    | .error thrown => return .error (thrown, stats)
    | .ok _ =>
      match env.fails .finish with
      | some thrown => return .error (.database thrown, stats)
      | none =>
        let written ← writeConfig run opts startedAt fun config ↦ { config with
          status := .success, lastSyncAt := some completedAt, lastSyncError := none, lastSyncStats := some stats,
          nextSyncAt := some (completedAt + config.syncIntervalMinutes * msPerMinute) }
        match written with
        | .error thrown => return .error (thrown, stats)
        | .ok _ => return .ok { success := true, dryRun := opts.dryRun, stats, logId := some env.logId }

def applyPlan (startedAt : Millis) (existing : Directory) (plan : Plan) :
    Server ι (Except (SyncError × SyncStats) SyncResult) := do
  if opts.dryRun then
    finish run env opts startedAt {
      usersCreated := plan.toCreate.length, usersUpdated := plan.toUpdate.length,
      usersDeactivated := plan.toDeactivate.length }
  else
    let now ← .readOnly Db.now
    match env.fails .apply with
    | some thrown => return .error (.database thrown, {})
    | none =>
      match ← applyTransaction run env opts startedAt now existing plan with
      | .error failure => return .error failure
      | .ok stats => finish run env opts startedAt stats

/-- The body of the run's `try`. -/
def syncClaimed (startedAt : Millis) : Server ι (Except (SyncError × SyncStats) SyncResult) := do
  if !(← .readOnly fun db ↦ db.store.configs.any fun config ↦
      config.id = opts.configId && config.tenantId = opts.tenantId) then
    return .error (.configNotFound, {})
  match env.fetchProviderUsers with
  | .error message => return .error (.provider message, {})
  | .ok providerUsers =>
    match env.fails .load with
    | some thrown => return .error (.database thrown, {})
    | none =>
      let existing ← .readOnly fun db ↦ db.store.directory
      if !existing.usersVisible opts.tenantId then
        return .error (.userNotVisible, {})
      let plan := diff existing opts.tenantId (validUsers providerUsers)
      let activeCount := (existing.activeMembers opts.tenantId).length
      if !opts.force && exceedsThreshold plan.toDeactivate.length activeCount then
        abortSafety run env opts startedAt (safetyMessage plan.toDeactivate.length activeCount)
      else
        applyPlan run env opts startedAt existing plan

def runDirectorySync : Server ι SyncResult := do
  let refusal : SyncResult := { success := false, dryRun := opts.dryRun, stats := {} }
  let startedAt ← .readOnly Db.now
  match env.fails .lock with
  | some thrown => return { refusal with errorMessage := some (env.sanitizeSyncError (.database thrown)) }
  | none =>
    let staleAt ← .readOnly Db.now
    match ← claimConfig run env opts startedAt staleAt with
    | .error thrown => return { refusal with errorMessage := some (env.sanitizeSyncError thrown) }
    | .ok false => return { refusal with errorMessage := some "Sync already running (locked)" }
    | .ok true =>
      match ← syncClaimed run env opts startedAt with
      | .ok result => return result
      | .error (thrown, stats) => recordError run env opts startedAt thrown stats

end Run

/-- A sync run, or a tick of the clock. -/
inductive Request
  | sync (env : Env) (opts : SyncOptions)
  | tick (duration : Nat)

/-- The program of a request. -/
def Request.serve (run : ι) : Request → Server ι (Option SyncResult)
  | .sync env opts => do return some (← runDirectorySync run env opts)
  | .tick duration => do
    Prog.assign (.ticked run) fun db ↦ { db with now := db.now + duration }
    return none

end PasswdSso.DirectorySync.Concurrent
