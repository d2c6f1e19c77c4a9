import PasswdSso.DirectorySync.Concurrent
import PasswdSso.ReadCommitted.Trace

/-!
# Who may change the memberships

The claim of a configuration is a status column, and a claim that is older than `STALE_LOCK_MINUTES` may be taken over.
Nothing else in a run looks at the claim again: the transaction that applies the plan and the writes of the status are
keyed by the configuration alone, so a run that stalls past the time limit still commits them after another run has
taken over. Runs that keep within the limit are fenced.
-/

namespace PasswdSso.DirectorySync.Concurrent

open ReadCommitted List Prog

variable {ι : Type}

def holder (configId : Uuid) : List (Event ι) → Option ι
  | [] => none
  | .claimed run id _ :: log => if id = configId then some run else holder configId log
  | _ :: log => holder configId log

/-- Changes of the memberships and of the configuration are committed by the run that claimed the configuration last. -/
def Event.InCharge (log : List (Event ι)) : Event ι → Prop
  | .applied run configId _ => holder configId log = some run
  | .wrote run configId _ => holder configId log = some run
  | _ => True

/-- All commits of a log were made by runs in charge. -/
def Fenced (log : List (Event ι)) : Prop := ∀ event earlier, event :: earlier <:+ log → event.InCharge earlier

/-- The condition on a commit: a run that changes memberships or the configuration is no older than
`STALE_LOCK_MINUTES`. -/
def Prompt (event : Event ι) (_ : List (Event ι)) (w : World Db (Event ι)) : Prop :=
  match event with
  | .applied _ _ startedAt => w.db.now ≤ startedAt + staleLockMinutes * msPerMinute
  | .wrote _ _ startedAt => w.db.now ≤ startedAt + staleLockMinutes * msPerMinute
  | _ => True

instance (event : Event ι) (overlap : List (Event ι)) (w : World Db (Event ι)) :
    Decidable (Prompt event overlap w) := by
  unfold Prompt
  split <;> infer_instance

/-- The next step of the run commits membership changes of the configuration. -/
def CanApply [DecidableEq ι] (allowed : Event ι → List (Event ι) → World Db (Event ι) → Prop)
    (s : State ι Db Lock (Event ι) (Option SyncResult)) (configId : Uuid) (run : ι) : Prop :=
  ∃ next startedAt db, s.Allows allowed run ∧ s.step run = some next ∧
    next.world = s.world.commit (.applied run configId startedAt) db

section Traces

def Event.Releases : Event ι → Prop
  | .wrote _ _ _ => True
  | _ => False

/-- The event changes the memberships or the configuration. -/
def Event.Guarded : Event ι → Prop
  | .applied _ _ _ => True
  | .wrote _ _ _ => True
  | _ => False

def Event.Follows (event earlier : Event ι) : Prop := event.Guarded → ¬ earlier.Releases

structure Leaves (run : ι) (made : List (Event ι)) : Prop where
  own : ∀ event ∈ made, event.run = run
  follows : made.Pairwise Event.Follows

structure Holding (run : ι) (made : List (Event ι)) : Prop extends Leaves run made where
  unreleased : ∀ event ∈ made, ¬ event.Releases

variable {run : ι} {made : List (Event ι)} {event : Event ι}

theorem Holding.cons (h : Holding run made) (hrun : event.run = run) : Leaves run (event :: made) where
  own := forall_mem_cons.mpr ⟨hrun, h.own⟩
  follows := .cons (fun earlier hearlier _ ↦ h.unreleased earlier hearlier) h.follows

theorem Holding.keep (h : Holding run made) (hrun : event.run = run) (hkeeps : ¬ event.Releases) :
    Holding run (event :: made) :=
  { h.cons hrun with unreleased := forall_mem_cons.mpr ⟨hkeeps, h.unreleased⟩ }

theorem Leaves.cons (h : Leaves run made) (hrun : event.run = run) (hfree : ¬ event.Guarded) :
    Leaves run (event :: made) where
  own := forall_mem_cons.mpr ⟨hrun, h.own⟩
  follows := .cons (fun _ _ hguarded ↦ absurd hguarded hfree) h.follows

def Until {ε α : Type} (run : ι) (result : Except ε α) (made : List (Event ι)) : Prop :=
  Leaves run made ∧ ∀ thrown, result = .error thrown → Holding run made

theorem Holding.until {ε α : Type} {result : Except ε α} (h : Holding run made) : Until run result made :=
  ⟨h.toLeaves, fun _ _ ↦ h⟩

variable {env : Env} {opts : SyncOptions} {startedAt : Millis}

theorem traces_writeConfig {f : SyncConfig → SyncConfig} (h : Holding run made) :
    (writeConfig run opts startedAt f).Traces (Leaves run) (Until run) made := by
  refine .transaction (.bind (fun _ _ ↦ trivial) fun count ↦ ?_) (fun _ ↦ ⟨h.cons rfl, h.cons rfl, nofun⟩)
    fun _ ↦ h.until
  split_ifs <;> trivial

variable {stats : SyncStats}

theorem traces_writeLog {completedAt : Millis} {status : SyncStatus} {message : Option String} (h : Leaves run made) :
    (writeLog run env opts startedAt completedAt status stats message).Traces (Leaves run)
      (fun _ after ↦ after = made ∨ after = .logged run :: made) made :=
  .transaction (.bind (fun _ ↦ trivial) fun _ ↦ trivial) (fun _ ↦ ⟨h.cons rfl id, .inr rfl⟩) fun _ ↦ .inl rfl

variable {existing : Directory} {plan : Plan} {thrown : SyncError}

theorem traces_applyTransaction {now : Millis} (h : Holding run made) :
    (applyTransaction run env opts startedAt now existing plan).Traces (Leaves run) (fun _ after ↦ Holding run after)
      made :=
  .transaction (.bind (fun _ ↦ trivial) fun _ ↦ trivial) (fun _ ↦ ⟨h.cons rfl, h.keep rfl id⟩) fun _ ↦ h

theorem Holding.log {after : List (Event ι)} (h : Holding run made)
    (hafter : after = made ∨ after = .logged run :: made) : Holding run after := by
  rcases hafter with rfl | rfl
  · exact h
  · exact h.keep rfl id

theorem traces_writeErrorLog (h : Leaves run made) :
    (writeErrorLog run env opts startedAt thrown stats).Traces (Leaves run) (fun _ _ ↦ True) made := by
  refine walks_readOnly fun db ↦ ?_
  split
  · trivial
  · refine .bind ((traces_writeLog h).weaken fun result _ _ ↦ ?_)
    cases result <;> trivial

theorem traces_recordError (h : Holding run made) :
    (recordError run env opts startedAt thrown stats).Traces (Leaves run) (fun _ _ ↦ True) made := by
  refine walks_readOnly fun db ↦ ?_
  split
  · exact traces_writeErrorLog h.toLeaves
  · refine .bind ((traces_writeConfig h).weaken ?_)
    rintro written after ⟨hafter, -⟩
    exact traces_writeErrorLog hafter

theorem traces_abortSafety {message : String} (h : Holding run made) :
    (abortSafety run env opts startedAt message).Traces (Leaves run) (Until run) made := by
  unfold abortSafety
  split
  · exact h.until
  refine walks_readOnly fun db ↦ .bind ((traces_writeLog h.toLeaves).weaken fun result after hafter ↦ ?_)
  have hlogged := h.log hafter
  cases result with
  | error thrown => exact hlogged.until
  | ok _ =>
    refine .bind ((traces_writeConfig hlogged).weaken fun written after hwritten ↦ ?_)
    cases written with
    | error thrown => exact ⟨hwritten.1, fun _ _ ↦ hwritten.2 _ rfl⟩
    | ok _ => exact ⟨hwritten.1, nofun⟩

theorem traces_finish (h : Holding run made) :
    (finish run env opts startedAt stats).Traces (Leaves run) (Until run) made := by
  refine walks_readOnly fun db ↦ ?_
  split
  · exact h.until
  refine .bind ((traces_writeLog h.toLeaves).weaken fun result after hafter ↦ ?_)
  have hlogged := h.log hafter
  cases result with
  | error thrown => exact hlogged.until
  | ok _ =>
    cases env.fails .finish with
    | some thrown => exact hlogged.until
    | none =>
      refine .bind ((traces_writeConfig hlogged).weaken fun written after hwritten ↦ ?_)
      cases written with
      | error thrown => exact ⟨hwritten.1, fun _ _ ↦ hwritten.2 _ rfl⟩
      | ok _ => exact ⟨hwritten.1, nofun⟩

theorem traces_applyPlan (h : Holding run made) :
    (applyPlan run env opts startedAt existing plan).Traces (Leaves run) (Until run) made := by
  unfold applyPlan
  split_ifs
  · exact traces_finish h
  refine walks_readOnly fun db ↦ ?_
  split
  · exact h.until
  refine .bind ((traces_applyTransaction h).weaken fun applied after hafter ↦ ?_)
  cases applied with
  | error failure => exact hafter.until
  | ok stats => exact traces_finish hafter

theorem traces_syncClaimed (h : Holding run made) :
    (syncClaimed run env opts startedAt).Traces (Leaves run) (Until run) made := by
  refine walks_readOnly fun db ↦ ?_
  split
  · exact h.until
  split
  · exact h.until
  split
  · exact h.until
  refine walks_readOnly fun db ↦ ?_
  split
  · exact h.until
  extract_lets plan activeCount
  split
  · exact traces_abortSafety h
  · exact traces_applyPlan h

theorem traces_runDirectorySync : (runDirectorySync run env opts).Traces (Leaves run) (fun _ _ ↦ True) [] := by
  have hnothing : Holding run ([] : List (Event ι)) := ⟨⟨by simp, .nil⟩, by simp⟩
  refine walks_readOnly fun started ↦ ?_
  split
  · trivial
  refine walks_readOnly fun stale ↦ ?_
  refine traces_transaction (.bind (fun _ _ ↦ trivial) fun _ ↦ trivial) (fun acquired ↦ ?_)
    fun _ ↦ trivial
  cases acquired with
  | false => exact ⟨hnothing.cons rfl, trivial⟩
  | true =>
    have hclaimed : Holding run [.claimed run opts.configId started.now] := hnothing.keep rfl id
    refine ⟨hclaimed.toLeaves, .bind ((traces_syncClaimed hclaimed).weaken fun result after hafter ↦ ?_)⟩
    cases result with
    | ok result => trivial
    | error failure => exact traces_recordError (hafter.2 _ rfl)

theorem traces_serve (run : ι) (request : Request) : (request.serve run).Traces (Leaves run) (fun _ _ ↦ True) [] := by
  cases request with
  | tick duration => exact fun _ ↦ ⟨⟨by simp [Event.run], pairwise_singleton _ _⟩, trivial⟩
  | sync env opts => exact .bind (traces_runDirectorySync.weaken fun _ _ _ ↦ trivial)

end Traces

section Contract

def Claimable (now : Millis) (config : SyncConfig) : Prop :=
  config.status ≠ .running ∨
    ∃ lastSyncAt, config.lastSyncAt = some lastSyncAt ∧ lastSyncAt + staleLockMinutes * msPerMinute < now

def Effect (held : List (Lock × Mode)) (w : World Db (Event ι)) (db : Db) : Event ι → Prop
  | .ticked _ => db.store.configs = w.db.store.configs ∧ w.db.now ≤ db.now
  | .claimed _ configId startedAt => (.config configId, .exclusive) ∈ held ∧
      (∃ config ∈ w.db.store.configs, config.id = configId ∧ Claimable w.db.now config) ∧
      db = configTable.modify [configId]
        (fun config ↦ { config with status := .running, lastSyncAt := some startedAt }) w.db
  | .wrote run configId _ => (.config configId, .exclusive) ∈ held ∧ holder configId w.log = some run ∧
      ∃ f : SyncConfig → SyncConfig, (∀ config, (f config).id = config.id) ∧ db = configTable.modify [configId] f w.db
  | .applied run configId _ => holder configId w.log = some run ∧ db.store.configs = w.db.store.configs ∧
      db.now = w.db.now
  | .refused _ => db.store.configs = w.db.store.configs ∧ db.now = w.db.now
  | .logged _ => db.store.configs = w.db.store.configs ∧ db.now = w.db.now

/-- The contract of prompt runs; a run that has given up its claim changes nothing. -/
def contract : Contract Db Lock (Event ι) where
  allowed event overlap w := Prompt event overlap w ∧
    ∀ earlier ∈ w.log, earlier.run = event.run → event.Follows earlier
  guarantee held w event db := Effect held w db event

variable {held : List (Lock × Mode)} {w w' : World Db (Event ι)} {event : Event ι} {db : Db}

theorem Effect.keeps (h : Effect held w db event) : configTable.KeptExcept .config held w.db db := by
  have hmodify {configId : Uuid} {f : SyncConfig → SyncConfig} (hheld : (.config configId, .exclusive) ∈ held)
      (hf : ∀ config, (f config).id = config.id) :
      configTable.KeptExcept .config held w.db (configTable.modify [configId] f w.db) :=
    Table.keptExcept_modify hf fun key hkey ↦ mem_singleton.mp hkey ▸ hheld
  cases event with
  | ticked run | refused run | logged run => exact .of_rows_eq h.1
  | claimed run configId startedAt =>
    obtain ⟨hheld, -, rfl⟩ := h
    exact hmodify hheld fun _ ↦ rfl
  | applied run configId startedAt => exact .of_rows_eq h.2.1
  | wrote run configId startedAt =>
    obtain ⟨hheld, -, f, hf, rfl⟩ := h
    exact hmodify hheld hf

theorem Effect.now_le (h : Effect held w db event) : w.db.now ≤ db.now := by
  cases event with
  | ticked run => exact h.2
  | refused run | logged run => exact Int.le_of_eq h.2.symm
  | claimed run configId startedAt =>
    obtain ⟨-, -, rfl⟩ := h
    exact Int.le_refl _
  | applied run configId startedAt => exact Int.le_of_eq h.2.2.symm
  | wrote run configId startedAt =>
    obtain ⟨-, -, f, -, rfl⟩ := h
    exact Int.le_refl _

theorem contract_keeps : (contract : Contract Db Lock (Event ι)).Keeps configTable .config :=
  fun _ _ _ _ h ↦ Effect.keeps h

/-- A run has given up its claim, or is in charge of a running configuration with its own start, or is too old. -/
def Claim (run : ι) (configId : Uuid) (startedAt : Millis) (w : World Db (Event ι)) : Prop :=
  (∃ event ∈ w.log, event.run = run ∧ event.Releases) ∨
    (holder configId w.log = some run ∧ ∀ config ∈ w.db.store.configs, config.id = configId →
      config.status = .running ∧ config.lastSyncAt = some startedAt) ∨
    startedAt + staleLockMinutes * msPerMinute < w.db.now

/-- The invariant: every run that has claimed a configuration is in one of these states. -/
def Claims (w : World Db (Event ι)) : Prop :=
  ∀ run configId startedAt, .claimed run configId startedAt ∈ w.log → Claim run configId startedAt w

variable {configId : Uuid}

theorem holder_cons_of_not_claimed {log : List (Event ι)}
    (h : ∀ run startedAt, event ≠ .claimed run configId startedAt) :
    holder configId (event :: log) = holder configId log := by
  cases event with
  | claimed run id startedAt =>
    have hother : id ≠ configId := fun hid ↦ h run startedAt (hid ▸ rfl)
    simp [holder, hother]
  | _ => rfl

theorem mem_of_modify_other {id : Uuid} {f : SyncConfig → SyncConfig} {config : SyncConfig}
    (h : config ∈ (configTable.modify [id] f w.db).store.configs) (hf : ∀ config, (f config).id = config.id)
    (hother : id ≠ configId) (hid : config.id = configId) : config ∈ w.db.store.configs := by
  obtain ⟨old, hold, heq⟩ := mem_map.mp h
  have hnot : configTable.key old ∉ [id] := by
    intro hmem
    rw [if_pos hmem] at heq
    have hkey : old.id = configId := by rw [← hf old, heq, hid]
    exact hother ((mem_singleton.mp hmem).symm.trans hkey)
  rw [if_neg hnot] at heq
  exact heq ▸ hold

theorem Claim.commit {run : ι} {startedAt : Millis} (h : Claim run configId startedAt w)
    (heffect : Effect held w db event) : Claim run configId startedAt (w.commit event db) := by
  have hnow := heffect.now_le
  have hexpired (hold : startedAt + staleLockMinutes * msPerMinute < w.db.now) :
      Claim run configId startedAt (w.commit event db) := .inr (.inr (Int.lt_of_lt_of_le hold hnow))
  obtain ⟨released, hmem, hrun, hreleases⟩ | ⟨hholder, hrunning⟩ | hold := h
  · exact .inl ⟨released, mem_cons_of_mem _ hmem, hrun, hreleases⟩
  · -- in charge: the configuration stays as it is, unless the claim is stale or given up
    have hkept (hclaimed : ∀ run startedAt, event ≠ .claimed run configId startedAt)
        (hconfigs : ∀ config ∈ db.store.configs, config.id = configId → config ∈ w.db.store.configs) :
        Claim run configId startedAt (w.commit event db) := by
      refine .inr (.inl ⟨?_, fun config hconfig hid ↦ hrunning config (hconfigs config hconfig hid) hid⟩)
      rw [World.commit_log, holder_cons_of_not_claimed hclaimed]
      exact hholder
    have hsame (hclaimed : ∀ run startedAt, event ≠ .claimed run configId startedAt)
        (hconfigs : db.store.configs = w.db.store.configs) : Claim run configId startedAt (w.commit event db) :=
      hkept hclaimed fun config hconfig _ ↦ hconfigs ▸ hconfig
    cases event with
    | ticked other | refused other | logged other => exact hsame nofun heffect.1
    | applied other id start => exact hsame nofun heffect.2.1
    | claimed other id start =>
      obtain ⟨-, ⟨config, hconfig, hid, hclaimable⟩, rfl⟩ := heffect
      by_cases hsame : id = configId
      · subst hsame
        obtain ⟨hstatus, hstart⟩ := hrunning config hconfig hid
        obtain hidle | ⟨lastSyncAt, hlast, hstale⟩ := hclaimable
        · exact absurd hstatus hidle
        · rw [hstart] at hlast
          exact hexpired (Option.some.inj hlast ▸ hstale)
      · refine hkept ?_ fun config hconfig hid ↦ mem_of_modify_other hconfig (fun _ ↦ rfl) hsame hid
        rintro other start ⟨⟩
        exact hsame rfl
    | wrote other id start =>
      obtain ⟨-, hother, f, hf, rfl⟩ := heffect
      by_cases hsame : id = configId
      · subst hsame
        rw [hholder] at hother
        exact .inl ⟨_, mem_cons_self, (Option.some.inj hother).symm, trivial⟩
      · exact hkept nofun fun config hconfig hid ↦ mem_of_modify_other hconfig hf hsame hid
  · exact hexpired hold

theorem contract_preserves_claims : (contract : Contract Db Lock (Event ι)).Preserves Claims := by
  intro held w event db hw heffect run configId startedAt hclaimed
  rcases mem_cons.mp hclaimed with rfl | hbefore
  · -- the run has just claimed it
    obtain ⟨-, -, rfl⟩ := heffect
    refine .inr (.inl ⟨by simp [holder], fun config hconfig hid ↦ ?_⟩)
    obtain ⟨old, -, rfl⟩ := mem_map.mp hconfig
    split_ifs at hid ⊢ with hkey
    · exact ⟨rfl, rfl⟩
    · exact absurd (mem_singleton.mpr hid) hkey
  · exact (hw run configId startedAt hbefore).commit heffect

end Contract

section Outlines

variable {run : ι} {env : Env} {opts : SyncOptions} {startedAt : Millis} {w : World Db (Event ι)}

def HasClaimed (run : ι) (configId : Uuid) (startedAt : Millis) (w : World Db (Event ι)) : Prop :=
  Claims w ∧ .claimed run configId startedAt ∈ w.log

theorem hasClaimed_preserved (run : ι) (configId : Uuid) (startedAt : Millis) :
    contract.Preserves (HasClaimed run configId startedAt) :=
  fun _ _ _ _ hw heffect ↦
    ⟨contract_preserves_claims _ _ _ _ hw.1 heffect, mem_cons_of_mem _ hw.2⟩

variable {event : Event ι} {stats : SyncStats}

theorem HasClaimed.holder {overlap : List (Event ι)} {configId : Uuid} (h : HasClaimed run configId startedAt w)
    (hallowed : contract.allowed event overlap w) (hrun : event.run = run) (hguarded : event.Guarded)
    (hprompt : w.db.now ≤ startedAt + staleLockMinutes * msPerMinute) :
    holder configId w.log = some run := by
  obtain ⟨released, hmem, hsame, hreleases⟩ | ⟨hholder, -⟩ | hold := h.1 run configId startedAt h.2
  · exact absurd hreleases (hallowed.2 released hmem (hsame.trans hrun.symm) hguarded)
  · exact hholder
  · exact absurd hold (Int.not_lt.mpr hprompt)

theorem settles_writeConfig {f : SyncConfig → SyncConfig} (hf : ∀ config, (f config).id = config.id) :
    Settles contract (HasClaimed run opts.configId startedAt) (writeConfig run opts startedAt f) := by
  refine .transaction (hasClaimed_preserved _ _ _) fun w hw ↦ ?_
  refine Outline.updateKey (fun next count hreaches hpending hheld _ ↦ ?_) (fun _ _ _ ↦ .error) fun _ _ ↦ of_decide_and
  refine .ok fun v hv hallowed ↦ ?_
  have hclaimed := (hasClaimed_preserved _ _ _).later hw (hreaches.until hv)
  refine ⟨hheld, hclaimed.holder hallowed rfl trivial hallowed.1, f, hf, ?_⟩
  rw [hpending]
  rfl

theorem settles_writeLog {completedAt : Millis} {status : SyncStatus} {message : Option String} :
    Settles contract (HasClaimed run opts.configId startedAt)
      (writeLog run env opts startedAt completedAt status stats message) := by
  refine .transaction (hasClaimed_preserved _ _ _) fun w hw ↦ .write fun next hnext ↦ ?_
  refine .ok fun v hv _ ↦ ?_
  rw [hnext.pending]
  exact ⟨rfl, rfl⟩

theorem Db.apply_configs (now : Millis) (existing : Directory) (plan : Plan) (db : Db) :
    (Db.apply env opts now existing plan db).store.configs = db.store.configs ∧
      (Db.apply env opts now existing plan db).now = db.now := by
  unfold Db.apply
  split <;> exact ⟨rfl, rfl⟩

variable {now staleAt : Millis} {existing : Directory} {plan : Plan} {thrown : SyncError}

theorem settles_applyTransaction :
    Settles contract (HasClaimed run opts.configId startedAt)
      (applyTransaction run env opts startedAt now existing plan) := by
  refine .transaction (hasClaimed_preserved _ _ _) fun w hw ↦ .write fun next hnext ↦ ?_
  intro _ _ v hv hallowed
  have hclaimed := (hasClaimed_preserved _ _ _).later hw (hnext.reaches.until hv)
  refine ⟨hclaimed.holder hallowed rfl trivial hallowed.1, ?_⟩
  rw [hnext.pending]
  exact Db.apply_configs now existing plan v.db

theorem settles_writeErrorLog : Settles contract (HasClaimed run opts.configId startedAt)
      (writeErrorLog run env opts startedAt thrown stats) := by
  refine .readOnly (hasClaimed_preserved _ _ _) fun view ↦ ?_
  split
  · exact .pure _
  · refine .bind settles_writeLog fun result ↦ ?_
    cases result <;> exact .pure _

theorem settles_recordError :
    Settles contract (HasClaimed run opts.configId startedAt) (recordError run env opts startedAt thrown stats) := by
  refine .readOnly (hasClaimed_preserved _ _ _) fun view ↦ ?_
  split
  · exact settles_writeErrorLog
  · exact .bind (settles_writeConfig fun _ ↦ rfl) fun _ ↦ settles_writeErrorLog

theorem settles_abortSafety {message : String} :
    Settles contract (HasClaimed run opts.configId startedAt) (abortSafety run env opts startedAt message) := by
  unfold abortSafety
  split
  · exact .pure _
  refine .readOnly (hasClaimed_preserved _ _ _) fun view ↦ .bind settles_writeLog fun result ↦ ?_
  cases result with
  | error thrown => exact .pure _
  | ok _ =>
    refine .bind (settles_writeConfig fun _ ↦ rfl) fun written ↦ ?_
    cases written <;> exact .pure _

theorem settles_finish :
    Settles contract (HasClaimed run opts.configId startedAt) (finish run env opts startedAt stats) := by
  refine .readOnly (hasClaimed_preserved _ _ _) fun view ↦ ?_
  split
  · exact .pure _
  refine .bind settles_writeLog fun result ↦ ?_
  cases result with
  | error thrown => exact .pure _
  | ok _ =>
    cases env.fails .finish with
    | some thrown => exact .pure _
    | none =>
      refine .bind (settles_writeConfig fun _ ↦ rfl) fun written ↦ ?_
      cases written <;> exact .pure _

theorem settles_applyPlan :
    Settles contract (HasClaimed run opts.configId startedAt) (applyPlan run env opts startedAt existing plan) := by
  unfold applyPlan
  split_ifs
  · exact settles_finish
  refine .readOnly (hasClaimed_preserved _ _ _) fun view ↦ ?_
  split
  · exact .pure _
  refine .bind settles_applyTransaction fun applied ↦ ?_
  cases applied with
  | error failure => exact .pure _
  | ok stats => exact settles_finish

theorem settles_syncClaimed :
    Settles contract (HasClaimed run opts.configId startedAt) (syncClaimed run env opts startedAt) := by
  refine .readOnly (hasClaimed_preserved _ _ _) fun view ↦ ?_
  split
  · exact .pure _
  split
  · exact .pure _
  split
  · exact .pure _
  refine .readOnly (hasClaimed_preserved _ _ _) fun view ↦ ?_
  split
  · exact .pure _
  extract_lets plan activeCount
  split
  · exact settles_abortSafety
  · exact settles_applyPlan

theorem claimable_of_claims {config : SyncConfig} (h : claims { env with startedAt := staleAt } opts config = true)
    (hnow : staleAt ≤ now) : Claimable now config := by
  simp only [claims, Bool.and_eq_true, Bool.or_eq_true, decide_eq_true_eq, Option.any_eq_true] at h
  obtain ⟨-, hidle | ⟨lastSyncAt, hlast, hstale⟩⟩ := h
  · exact .inl hidle
  · exact .inr ⟨lastSyncAt, hlast, Int.lt_of_lt_of_le (Int.add_lt_of_lt_sub_right hstale) hnow⟩

theorem claims_preserved (staleAt : Millis) :
    (contract : Contract Db Lock (Event ι)).Preserves fun w ↦ Claims w ∧ staleAt ≤ w.db.now :=
  fun _ _ _ _ hw heffect ↦
    ⟨contract_preserves_claims _ _ _ _ hw.1 heffect, Int.le_trans hw.2 (Effect.now_le heffect)⟩

theorem outline_claimConfig (hw : Claims w ∧ staleAt ≤ w.db.now) :
    Outline contract (claimConfig run env opts startedAt staleAt) (.idle w) fun result after ↦
      ∃ w', after = .idle w' ∧ (result = .ok true → HasClaimed run opts.configId startedAt w') := by
  have hsel (_ : Db) (config : SyncConfig) (h : claims { env with startedAt := staleAt } opts config = true) :
      configTable.key config = opts.configId := by
    simp only [claims, Bool.and_eq_true, decide_eq_true_eq] at h
    exact h.1.1
  refine .transaction (claims_preserved staleAt) hw (Outline.updateKey ?_ ?_ hsel) ?_
  · rintro next count hreaches hpending hheld ⟨-, config, hconfig, hclaims⟩
    refine .ok fun v hv _ ↦ ?_
    have hlater := (claims_preserved staleAt).later hw (hreaches.until hv)
    -- the configuration is locked, so that it still can be claimed
    have hkept : config ∈ v.db.store.configs :=
      (contract_keeps.later hv ((hsel v.db config hclaims).symm ▸ hheld)).mpr hconfig
    refine ⟨hheld, ⟨config, hkept, hsel v.db config hclaims, claimable_of_claims hclaims hlater.2⟩, ?_⟩
    rw [hpending]
    rfl
  · intro next _ hpending
    refine .ok fun v _ _ ↦ ?_
    rw [hpending]
    exact ⟨rfl, rfl⟩
  · intro result w' hw' hlog
    exact ⟨w', rfl, fun hresult ↦ ⟨hw'.1, hlog true hresult⟩⟩

theorem outline_runDirectorySync (hw : Claims w) : Respects contract (runDirectorySync run env opts) w := by
  refine .readOnly fun started w₁ hstarted hw₁ ↦ ?_
  split
  · trivial
  refine .readOnly fun stale w₂ hstale hw₂ ↦ ?_
  have hclaims : Claims stale :=
    contract_preserves_claims.later (contract_preserves_claims.later (contract_preserves_claims.later hw hstarted) hw₁)
      hstale
  have hnow := (claims_preserved stale.db.now).later ⟨hclaims, Int.le_refl _⟩ hw₂
  refine outline_bind.mpr ((outline_claimConfig hnow).weaken ?_)
  rintro (thrown | (- | -)) - ⟨w₃, rfl, hclaimed⟩
  · trivial
  · trivial
  · refine outline_bind.mpr ((settles_syncClaimed w₃ (hclaimed rfl)).weaken ?_)
    rintro (⟨thrown, stats⟩ | result) - ⟨w₄, rfl, hw₄⟩
    · exact (settles_recordError w₄ hw₄).weaken fun _ _ _ ↦ trivial
    · trivial

theorem outline_serve (run : ι) (request : Request) (hw : Claims w) : Respects contract (request.serve run) w := by
  cases request with
  | sync env opts => exact outline_bind.mpr ((outline_runDirectorySync hw).weaken fun _ _ _ ↦ trivial)
  | tick duration =>
    refine .assign (fun next hnext v _ _ ↦ ?_) fun _ ↦ trivial
    rw [hnext.pending]
    exact ⟨rfl, Int.le_add_of_nonneg_right (Int.natCast_nonneg duration)⟩

theorem Effect.inCharge {held : List (Lock × Mode)} {db : Db} (h : Effect held w db event) :
    event.InCharge w.log := by
  cases event with
  | applied run configId startedAt => exact h.1
  | wrote run configId startedAt => exact h.2.1
  | _ => trivial

theorem Fenced.cons {log : List (Event ι)} (h : Fenced log) (hevent : event.InCharge log) :
    Fenced (event :: log) := by
  intro latest earlier hsuffix
  rcases suffix_cons_iff.mp hsuffix with heq | hbefore
  · obtain ⟨rfl, rfl⟩ := cons.inj heq
    exact hevent
  · exact h latest earlier hbefore

end Outlines

section Runs

variable [DecidableEq ι]

theorem fenced_of_prompt (db : Db) (requests : ι → Request) {s : State ι Db Lock (Event ι) (Option SyncResult)}
    (hrun : Run Prompt (State.start ⟨db, []⟩ fun i ↦ (requests i).serve i) s) : Fenced s.world.log := by
  have hclaims : Claims (⟨db, []⟩ : World Db (Event ι)) := nofun
  have hstrict : Run contract.allowed (State.start ⟨db, []⟩ fun i ↦ (requests i).serve i) s := by
    refine Run.following (fun i made hmade ↦ hmade.own) ?_
      (traced_start (fun i ↦ traces_serve i (requests i)) fun i ↦ ⟨by simp, .nil⟩) hrun
    exact fun i event made hmade ↦ (pairwise_cons.mp hmade.follows).1
  have hinvariant : Claims s.world ∧ Fenced s.world.log := by
    refine Run.invariant (fun w ↦ Claims w ∧ Fenced w.log) hstrict (fun i ↦ outline_serve i (requests i) hclaims)
      ⟨hclaims, fun _ _ h ↦ absurd (suffix_nil.mp h) (cons_ne_nil _ _)⟩ ?_
    rintro held w event db' ⟨hw, hfenced⟩ heffect
    exact ⟨contract_preserves_claims _ _ _ _ hw heffect, hfenced.cons heffect.inCharge⟩
  exact hinvariant.2

/-- For any number of sync runs on any store, interleaved in any way and with any ticks of the clock between: as long as
no run commits changes when it is older than `STALE_LOCK_MINUTES`, memberships and configurations are changed only by
the run that claimed the configuration last, and no two runs can be about to commit membership changes. -/
theorem prompt_runs_fenced (db : Db) (requests : ι → Request) {s : State ι Db Lock (Event ι) (Option SyncResult)}
    (hrun : Run Prompt (State.start ⟨db, []⟩ fun i ↦ (requests i).serve i) s) :
    Fenced s.world.log ∧ ∀ configId i j, CanApply Prompt s configId i → CanApply Prompt s configId j → i = j := by
  have hholder {configId : Uuid} {i : ι} (h : CanApply Prompt s configId i) :
      holder configId s.world.log = some i := by
    obtain ⟨next, startedAt, db', hallows, hstep, hworld⟩ := h
    have hfenced := fenced_of_prompt db requests (.step i hrun hallows hstep)
    rw [hworld] at hfenced
    exact hfenced (.applied i configId startedAt) s.world.log (List.suffix_refl _)
  refine ⟨fenced_of_prompt db requests hrun, fun configId i j hi hj ↦ ?_⟩
  exact Option.mem_unique (hholder hi) (hholder hj)

end Runs

def oneConfig : Db where
  store :=
    { directory := ⟨[⟨1, 1, some "a@x", some "A"⟩], [⟨1, 1, 1, .member, none, true, .scim, none⟩], [⟨1, "ext", 1⟩]⟩
      configs := [⟨1, 1, 60, .idle, none, none, none, none⟩]
      logs := [] }
  now := 0

/-- A provider that answers with the users. -/
def answering (users : List ProviderUser) : Env where
  toLowerCase := id
  lower := id
  sanitizeSyncError _ := "error"
  sanitizeMessage := id
  startedAt := 0
  now := 0
  completedAt := 0
  fetchProviderUsers := .ok users
  userId n := 10 + n
  memberId n := 20 + n
  logId := 30
  fails _ := none

def twoRuns : Fin 3 → Request
  | 0 => .sync (answering [⟨"ext", "a@x", "B", true⟩]) ⟨1, 1, false, false⟩
  | 1 => .sync (answering [⟨"ext", "a@x", "C", true⟩]) ⟨1, 1, false, false⟩
  | 2 => .tick (31 * 60 * 1000)

/-- The runs before their first step. -/
def twoRunsStart : State (Fin 3) Db Lock (Event (Fin 3)) (Option SyncResult) :=
  State.start ⟨oneConfig, []⟩ fun i ↦ (twoRuns i).serve i

/-- A run takes over the claim of one that has stalled for 31 minutes, and applies its plan. -/
theorem prompt_runs_fenced_takeover : ∃ s, Run Prompt twoRunsStart s ∧ .claimed 0 1 0 ∈ s.world.log ∧
      .applied 1 1 1860000 ∈ s.world.log ∧ Fenced s.world.log ∧
      ∀ configId i j, CanApply Prompt s configId i → CanApply Prompt s configId j → i = j := by
  obtain ⟨s, hrun, hclaimed, happlied⟩ := Run.exists_of_schedule twoRunsStart
    (fun w ↦ .claimed 0 1 0 ∈ w.log ∧ .applied 1 1 1860000 ∈ w.log) [(7, 0), (2, 2), (15, 1)] Prompt
  exact ⟨s, hrun, hclaimed, happlied, prompt_runs_fenced oneConfig twoRuns hrun⟩

/-- A run that stalls for 31 minutes after its claim applies its plan though the other run has taken over. -/
theorem stalled_run_not_fenced :
    ¬ ∀ (db : Db) (requests : Fin 3 → Request) (s : State (Fin 3) Db Lock (Event (Fin 3)) (Option SyncResult)),
      Run (fun _ _ _ ↦ True) (State.start ⟨db, []⟩ fun i ↦ (requests i).serve i) s → Fenced s.world.log := by
  intro h
  obtain ⟨s, hrun, hhead, hholder⟩ := Run.exists_of_schedule twoRunsStart
    (fun w ↦ w.log.head? = some (.applied 0 1 0) ∧ holder 1 w.log.tail = some 1)
    [(7, 0), (2, 2), (7, 1), (8, 0)]
  have hlog : s.world.log = .applied 0 1 0 :: s.world.log.tail := (List.cons_head?_tail hhead).symm
  have hcharge : holder 1 s.world.log.tail = some 0 :=
    h oneConfig twoRuns s hrun (.applied 0 1 0) s.world.log.tail (hlog ▸ List.suffix_refl _)
  rw [hholder] at hcharge
  exact absurd (Option.some.inj hcharge) (by decide)

end PasswdSso.DirectorySync.Concurrent
