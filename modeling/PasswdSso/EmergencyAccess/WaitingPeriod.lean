import PasswdSso.EmergencyAccess.Escrow

/-!
# The waiting period

A grantee who requests access gets it when the owner approves, or when the waiting period is over.
`autoPromoteIfElapsed` reads the end of the waiting period and then swaps the status alone, so a request
that the owner rejects in between, and that is made again, is promoted at once (`promoted_early`). The
waiting period is kept in every run in which a promotion commits on the waiting period that it has read
(`waitingPeriod_kept`).
-/

namespace PasswdSso.EmergencyAccess

open ReadCommitted Vault List

section Times

/-- When the event put the grant into `REQUESTED`. -/
def requestedAt? (grantId : Uuid) : Event → Option Millis
  | .grant id (.requested requestedAt) => if id = grantId then some requestedAt else none
  | _ => none

/-- How a grant was activated: by its owner, or at some time without the owner. -/
inductive Activation
  | approved
  | promoted (activatedAt : Millis)
  deriving DecidableEq

def activation? (grantId : Uuid) : Event → Option Activation
  | .grant id .approved => if id = grantId then some .approved else none
  | .grant id (.promoted activatedAt _) => if id = grantId then some (.promoted activatedAt) else none
  | _ => none

def lastRequest (initial : Store) (log : List Event) (grantId : Uuid) : Option Millis :=
  (log.findSome? (requestedAt? grantId)).or ((initial.grants.find? (·.id = grantId)).bind (·.requestedAt))

def lastActivation (log : List Event) (grantId : Uuid) : Option Activation :=
  log.findSome? (activation? grantId)

variable {initial : Store} {log : List Event} {event : Event} {grantId : Uuid}

theorem lastRequest_of_some {requestedAt : Millis} (h : requestedAt? grantId event = some requestedAt) :
    lastRequest initial (event :: log) grantId = some requestedAt := by
  rw [lastRequest, findSome?_cons, h]
  rfl

theorem lastRequest_of_none (h : requestedAt? grantId event = none) :
    lastRequest initial (event :: log) grantId = lastRequest initial log grantId := by
  rw [lastRequest, findSome?_cons, h]
  rfl

theorem lastActivation_of_some {activation : Activation} (h : activation? grantId event = some activation) :
    lastActivation (event :: log) grantId = some activation := by
  rw [lastActivation, findSome?_cons, h]

theorem lastActivation_of_none (h : activation? grantId event = none) :
    lastActivation (event :: log) grantId = lastActivation log grantId := by
  rw [lastActivation, findSome?_cons, h]
  rfl

end Times

/-- The grant was approved, or activated no earlier than its waiting time after the most recent
request. -/
def WaitKept (initial : Store) (log : List Event) (row : EmergencyGrant) : Prop :=
  lastActivation log row.id = some .approved ∨ ∃ requestedAt activatedAt,
    lastRequest initial log row.id = some requestedAt ∧ row.activatedAt = some activatedAt ∧
    lastActivation log row.id = some (.promoted activatedAt) ∧
    requestedAt + row.waitDays * msPerDay ≤ activatedAt

/-- The end of the waiting period is the waiting time after the most recent request. -/
def WaitSet (initial : Store) (log : List Event) (row : EmergencyGrant) : Prop :=
  ∃ requestedAt, lastRequest initial log row.id = some requestedAt ∧
    row.waitExpiresAt = some (requestedAt + row.waitDays * msPerDay)

/-- A promotion commits while the grant has the waiting period that it has read. -/
def SameWait (event : Event) (_ : List Event) (w : World Store Event) : Prop :=
  match event with
  | .grant id (.promoted _ waitExpiresAt) =>
    ∀ row ∈ w.db.grants, row.id = id → row.waitExpiresAt = some waitExpiresAt
  | _ => True

structure WaitSound (initial : Store) (w : World Store Event) : Prop where
  unique : grantTable.KeysUnique w.db
  requested : ∀ row ∈ w.db.grants, row.status = .requested → WaitSet initial w.log row
  activated : ∀ row ∈ w.db.grants, row.status = .activated → WaitKept initial w.log row

structure WaitEffect (initial : Store) (held : Locks) (w : World Store Event) (event : Event)
    (db : Store) : Prop where
  step : GrantsStep held w.db db
  sound : WaitSound initial w → WaitSound initial (w.commit event db)

def waitContract (initial : Store) : Contract Store Lock Event where
  allowed := SameWait
  guarantee := WaitEffect initial

theorem wait_steps {initial : Store} : StepsGrants (waitContract initial) :=
  fun _ _ _ _ heffect ↦ heffect.step

section Effects

variable {initial : Store} {held : Locks} {w : World Store Event} {event : Event}
  {final : Stand Store Lock Event} {grantId : Uuid} {sel : EmergencyGrant → Bool} {target : EaStatus}
  {actor : EaActor} {f : EmergencyGrant → EmergencyGrant} {db : Store}

theorem waitSet_of_quiet {row : EmergencyGrant} (h : WaitSet initial w.log row)
    (hevent : requestedAt? row.id event = none) : WaitSet initial (event :: w.log) row := by
  obtain ⟨requestedAt, hlast, hexpires⟩ := h
  exact ⟨requestedAt, (lastRequest_of_none hevent).trans hlast, hexpires⟩

theorem waitKept_of_quiet {row : EmergencyGrant} (h : WaitKept initial w.log row)
    (hrequested : requestedAt? row.id event = none) (hactivated : activation? row.id event = none) :
    WaitKept initial (event :: w.log) row := by
  unfold WaitKept
  rwa [lastRequest_of_none hrequested, lastActivation_of_none hactivated]

theorem WaitSound.commit (h : WaitSound initial w) (hstep : db.grants.map identity = w.db.grants.map identity)
    (hrows : ∀ row ∈ db.grants,
      row ∈ w.db.grants ∧ requestedAt? row.id event = none ∧ activation? row.id event = none ∨
      (row.status = .requested → WaitSet initial (event :: w.log) row) ∧
        (row.status = .activated → WaitKept initial (event :: w.log) row)) :
    WaitSound initial (w.commit event db) where
  unique := (unique_of_same hstep).mpr h.unique
  requested row hrow hstatus := by
    rcases hrows row hrow with ⟨hold, hrequested, -⟩ | ⟨hset, -⟩
    · exact waitSet_of_quiet (h.requested row hold hstatus) hrequested
    · exact hset hstatus
  activated row hrow hstatus := by
    rcases hrows row hrow with ⟨hold, hrequested, hactivated⟩ | ⟨-, hkept⟩
    · exact waitKept_of_quiet (h.activated row hold hstatus) hrequested hactivated
    · exact hkept hstatus

theorem wait_nothing (hpending : final.pending = id) :
    WaitEffect initial final.held w .other (final.pending w.db) := by
  rw [hpending]
  exact ⟨.of_eq rfl, fun h ↦ h.commit rfl fun row hrow ↦ .inl ⟨hrow, rfl, rfl⟩⟩

section Moved

variable (hmoved : Moved (waitContract initial) grantId sel target actor f final)
  (hw : (waitContract initial).Later final.held final.seen w)
  (hf : ∀ row, identity (f row) = identity row)

include hmoved hw hf

theorem wait_moved
    (hevent : ∀ other, other ≠ grantId → requestedAt? other event = none ∧ activation? other event = none)
    (hfound : WaitSound initial w → ∀ row ∈ w.db.grants, row.id = grantId → actor ∈ eaMatrix row.status target →
      (target = .requested → WaitSet initial (event :: w.log) (moved target f row)) ∧
        (target = .activated → WaitKept initial (event :: w.log) (moved target f row))) :
    WaitEffect initial final.held w event (final.pending w.db) := by
  obtain ⟨found, hmem, hid, -, hmatrix⟩ := hmoved.now wait_steps.keeps hw
  have hstep := hmoved.step hf w.db
  refine ⟨hstep, fun h ↦ h.commit hstep.same fun row hrow ↦ ?_⟩
  rcases hmoved.rows h.unique hmem hid hrow with ⟨hold, hother⟩ | rfl
  · exact .inl ⟨hold, hevent row.id hother⟩
  · exact .inr (hfound h found hmem hid hmatrix)

theorem wait_left (htarget : target ∉ [.requested, .activated])
    (hevent : ∀ other, requestedAt? other event = none ∧ activation? other event = none) :
    WaitEffect initial final.held w event (final.pending w.db) := by
  refine wait_moved hmoved hw hf (fun other _ ↦ hevent other) fun _ _ _ _ _ ↦ ⟨?_, ?_⟩
  · rintro rfl
    exact absurd htarget (by decide)
  · rintro rfl
    exact absurd htarget (by decide)

end Moved

theorem wait_requested {v : World Store Event} {grant : EmergencyGrant} {now : Millis} {granteeId : Uuid}
    (hgrant : grant ∈ v.db.grants) (hid : grant.id = grantId) (hv : (waitContract initial).Later [] v final.seen)
    (hmoved : Moved (waitContract initial) grantId (grantedTo granteeId grantId) .requested .grantee
      (requestedGrant grant.waitDays now) final) (hw : (waitContract initial).Later final.held final.seen w) :
    WaitEffect initial final.held w (.grant grantId (.requested now)) (final.pending w.db) := by
  refine wait_moved hmoved hw (fun _ ↦ rfl) (fun other hother ↦ ⟨if_neg hother.symm, rfl⟩) ?_
  intro h row hrow hrowId _
  refine ⟨fun _ ↦ ⟨now, lastRequest_of_some (if_pos hrowId.symm), ?_⟩, nofun⟩
  -- The waiting time was read before, but it never changes.
  have hsame := wait_steps.same (hv.trans hw.nil)
  have hmem : identity grant ∈ w.db.grants.map identity := hsame ▸ mem_map_of_mem hgrant
  obtain ⟨row', hrow', hidentity⟩ := mem_map.mp hmem
  have hrow'Id : row'.id = grantId := (congrArg Prod.fst hidentity).trans hid
  obtain rfl : row' = row := h.unique.eq_of_key_eq hrow' hrow (hrow'Id.trans hrowId.symm)
  have hdays : row'.waitDays = grant.waitDays := congrArg (fun identity ↦ identity.2.2) hidentity
  change some (now + grant.waitDays * msPerDay) = some (now + row'.waitDays * msPerDay)
  rw [hdays]

theorem wait_promoted {req : VaultRequest} {waitExpiresAt : Millis} (hover : waitExpiresAt ≤ req.now)
    (hmoved : Moved (waitContract initial) req.id (grantedTo req.userId req.id) .activated .system
      (fun row ↦ { row with activatedAt := some req.now }) final)
    (hw : (waitContract initial).Later final.held final.seen w)
    (hallowed : ∀ row ∈ w.db.grants, row.id = req.id → row.waitExpiresAt = some waitExpiresAt) :
    WaitEffect initial final.held w (.grant req.id (.promoted req.now waitExpiresAt)) (final.pending w.db) := by
  refine wait_moved hmoved hw (fun _ ↦ rfl) (fun other hother ↦ ⟨rfl, if_neg hother.symm⟩) ?_
  intro h row hrow hrowId hmatrix
  refine ⟨nofun, fun _ ↦ .inr ?_⟩
  have hstatus : row.status = .requested := by
    generalize row.status = status at hmatrix
    cases status <;> simp [eaMatrix] at hmatrix ⊢
  obtain ⟨requestedAt, hlast, hexpires⟩ := h.requested row hrow hstatus
  refine ⟨requestedAt, req.now, (lastRequest_of_none rfl).trans hlast, rfl,
    lastActivation_of_some (if_pos hrowId.symm), ?_⟩
  rw [hallowed row hrow hrowId, Option.some.injEq] at hexpires
  exact hexpires ▸ hover

theorem wait_rotated {req : RotateRequest} {snapshot : RotationSnapshot}
    (htrace : RotationTrace (waitContract initial) req snapshot final) :
    WaitEffect initial final.held w (.rotated (req.key snapshot) req.wrap) (final.pending w.db) := by
  obtain ⟨verifierHmac, cleared, grants, hpending, ⟨locked, -, -, hmarked⟩, -⟩ := htrace.writes
  have hgrants : (final.pending w.db).grants = (grantTable.modify grants .markStale w.db).grants := by
    rw [hpending]
    rfl
  have hidentity (row : EmergencyGrant) : identity row.markStale = identity row := rfl
  have hstep : GrantsStep final.held w.db (final.pending w.db) := .modify hidentity hmarked.1 hgrants
  refine ⟨hstep, fun h ↦ h.commit hstep.same fun row' hrow' ↦ ?_⟩
  rw [hgrants] at hrow'
  obtain ⟨row, hrow, rfl⟩ := mem_map.mp hrow'
  split_ifs
  · exact .inr ⟨nofun, nofun⟩
  · exact .inl ⟨hrow, rfl, rfl⟩

end Effects

theorem wait_serves {initial : Store} : Serves (waitContract initial) where
  nothing _ hpending _ _ _ := wait_nothing hpending
  accept _ _ _ _ hmoved _ hw _ := wait_left hmoved hw (fun _ ↦ rfl) (by decide) fun _ ↦ ⟨rfl, rfl⟩
  confirm _ _ _ hmoved _ hw _ := wait_left hmoved hw (fun _ ↦ rfl) (by decide) fun _ ↦ ⟨rfl, rfl⟩
  approve _ _ _ _ hmoved _ hw _ := wait_moved hmoved hw (fun _ ↦ rfl) (fun _ hother ↦ ⟨rfl, if_neg hother.symm⟩)
    fun _ _ _ hid _ ↦ ⟨nofun, fun _ ↦ .inl (lastActivation_of_some (if_pos hid.symm))⟩
  revoke _ _ _ _ hmoved _ hw _ := wait_left hmoved hw (fun _ ↦ rfl) (by decide) fun _ ↦ ⟨rfl, rfl⟩
  resume _ _ _ hmoved _ hw _ := wait_left hmoved hw (fun _ ↦ rfl) (by decide) fun _ ↦ ⟨rfl, rfl⟩
  request _ _ _ _ _ _ hgrant hid hv hmoved _ hw _ := wait_requested hgrant hid hv hmoved hw
  promote _ _ _ hover hmoved _ hw hallowed := wait_promoted hover hmoved hw hallowed
  rotate _ _ _ htrace _ _ _ := wait_rotated htrace

/-- Grants with unique ids, none of them active, whose requests have their waiting period. -/
structure WaitStore where
  store : Store
  unique : grantTable.KeysUnique store
  requested : ∀ row ∈ store.grants, row.status = .requested → ∃ requestedAt, row.requestedAt = some requestedAt ∧
    row.waitExpiresAt = some (requestedAt + row.waitDays * msPerDay)
  inactive : ∀ row ∈ store.grants, row.status ≠ .activated

theorem WaitStore.sound (start : WaitStore) : WaitSound start.store ⟨start.store, []⟩ where
  unique := start.unique
  requested row hrow hstatus := by
    obtain ⟨requestedAt, hrequested, hexpires⟩ := start.requested row hrow hstatus
    have hfind : start.store.grants.find? (·.id = row.id) = some row := start.unique.find?_key hrow
    refine ⟨requestedAt, ?_, hexpires⟩
    rw [lastRequest, hfind]
    exact hrequested
  activated row hrow hstatus := absurd hstatus (start.inactive row hrow)

/-- In every run of requests on grants and of rotations in which promotions commit on the waiting
period that they have read, a grant that is `ACTIVATED` without the approval of its owner was activated
no earlier than its waiting time after the most recent request. -/
theorem waitingPeriod_kept {ι : Type} [DecidableEq ι] (env : Env) (toLowerCase : String → String)
    (start : WaitStore) (requests : ι → GrantRequest) {s : State ι Store Lock Event Bool}
    (hrun : Run SameWait (State.start ⟨start.store, []⟩ fun i ↦ (requests i).serve env toLowerCase) s) :
    ∀ row ∈ s.world.db.grants, row.status = .activated → WaitKept start.store s.world.log row := by
  have hsound : WaitSound start.store s.world :=
    Run.invariant (c := waitContract start.store) (WaitSound start.store) hrun
      (fun i ↦ wait_serves.outline (requests i)) start.sound fun _ _ _ _ h heffect ↦ heffect.sound h
  exact hsound.activated

instance (event : Event) (overlap : List Event) (w : World Store Event) : Decidable (SameWait event overlap w) := by
  unfold SameWait
  split <;> infer_instance

/-- A vault with a grant that the grantee may request. -/
def idleStore : WaitStore where
  store := { emptyVault.store with grants := [someGrant .idle] }
  unique := by decide
  requested row hrow hstatus := by
    obtain rfl := mem_singleton.mp hrow
    exact absurd hstatus (by decide)
  inactive := by decide

/-- The grantee requests access, opens the vault seven days later, and requests access again one
millisecond after that; the owner rejects the first request. -/
def requestTwice : Fin 4 → GrantRequest
  | 0 => .request 2 31 0
  | 1 => .openVault ⟨2, 31, 7 * msPerDay, 7 * msPerDay⟩
  | 2 => .revoke 1 31 false (7 * msPerDay)
  | 3 => .request 2 31 (7 * msPerDay + 1)

/-- The first request is rejected and made again while it is promoted: the grant is activated before
its waiting period has begun. -/
theorem promoted_early : ¬ ∀ (env : Env) (toLowerCase : String → String) (start : WaitStore)
      (requests : Fin 4 → GrantRequest) (s : State (Fin 4) Store Lock Event Bool),
      Run (fun _ _ _ ↦ True) (State.start ⟨start.store, []⟩ fun i ↦ (requests i).serve env toLowerCase) s →
      ∀ row ∈ s.world.db.grants, row.status = .activated → WaitKept start.store s.world.log row := by
  intro h
  obtain ⟨s, hrun, ⟨row, hrow, hstatus, hid, hdays⟩, hlast, hactivation⟩ :=
    Run.exists_of_schedule
      (State.start ⟨idleStore.store, []⟩ fun i ↦ (requestTwice i).serve plainEnv id)
      (fun w ↦ (∃ row ∈ w.db.grants, row.status = .activated ∧ row.id = 31 ∧ row.waitDays = 7) ∧
        lastRequest idleStore.store w.log 31 = some (7 * msPerDay + 1) ∧
        lastActivation w.log 31 = some (.promoted (7 * msPerDay)))
      [(5, 0), (3, 1), (9, 2), (5, 3), (4, 1)]
  rcases h plainEnv id idleStore requestTwice s hrun row hrow hstatus with happroved | hkept
  · rw [hid, hactivation] at happroved
    exact absurd happroved (by decide)
  · obtain ⟨requestedAt, activatedAt, hrequested, -, hpromoted, hwait⟩ := hkept
    rw [hid] at hrequested hpromoted
    obtain rfl := Option.mem_unique hlast hrequested
    obtain ⟨⟩ := hactivation.symm.trans hpromoted
    rw [hdays] at hwait
    exact absurd hwait (by decide)

/-- The condition can be met: a request that nobody rejects is promoted after seven days. -/
theorem waitingPeriod_kept_week : ∃ s : State (Fin 4) Store Lock Event Bool,
      (∃ row ∈ s.world.db.grants, row.status = .activated) ∧
      ∀ row ∈ s.world.db.grants, row.status = .activated → WaitKept idleStore.store s.world.log row := by
  obtain ⟨s, hrun, hactivated⟩ := Run.exists_of_schedule
    (State.start ⟨idleStore.store, []⟩ fun i ↦ (requestTwice i).serve plainEnv id)
    (fun w ↦ ∃ row ∈ w.db.grants, row.status = .activated)
    [(5, 0), (7, 1)] SameWait
  exact ⟨s, hactivated, waitingPeriod_kept plainEnv id idleStore requestTwice hrun⟩

end PasswdSso.EmergencyAccess
