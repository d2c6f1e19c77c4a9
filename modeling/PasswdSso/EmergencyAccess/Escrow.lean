import PasswdSso.EmergencyAccess.Outline
import PasswdSso.Vault.KeyVersions

/-!
# Freshness of the escrow

A grant that is `IDLE`, `REQUESTED` or `ACTIVATED` should hold an escrow of the owner's current key.
The owner reaches `IDLE` over two routes, and the one that rejects a request writes no escrow: it takes
an accepted grant to `IDLE` as it is (`escrow_not_fresh`). A confirmation stamps a key version that it
has read before, and a rotation marks the grants that it finds. Where requests are rejected in
`REQUESTED` only, confirmations stamp the version that is current when they commit, and no confirmation
of the owner commits while a rotation is open, the escrow is fresh (`escrow_fresh`).
-/

namespace PasswdSso.EmergencyAccess

open ReadCommitted Vault List

def Live (row : EmergencyGrant) : Prop := row.status ∈ [.idle, .requested, .activated]

instance (row : EmergencyGrant) : Decidable (Live row) :=
  inferInstanceAs (Decidable (row.status ∈ [.idle, .requested, .activated]))

def Escrowed (db : Store) (row : EmergencyGrant) : Prop :=
  row.encryptedSecretKey ≠ none ∧ row.ownerEphemeralPublicKey ≠ none ∧
    ∃ owner, db.users row.ownerId = some owner ∧ row.keyVersion = some owner.keyVersion

/-- Every grant that has to hold an escrow holds a current one. -/
def EscrowFresh (db : Store) : Prop := ∀ row ∈ db.grants, Live row → Escrowed db row

def confirms (ownerId : Uuid) : Event → Bool
  | .grant _ (.confirmed owner _) => owner = ownerId
  | _ => false

/-- A confirmation commits while the key version it has read is current, a rejection on a grant that
is requested, and a rotation if no grant of the owner was confirmed while it was open. -/
def ConfirmedInTime (event : Event) (overlap : List Event) (w : World Store Event) : Prop :=
  match event with
  | .grant _ (.confirmed ownerId keyVersion) =>
    (w.db.users ownerId).map User.keyVersion = some keyVersion
  | .grant id .resumed => ∀ row ∈ w.db.grants, row.id = id → row.status = .requested
  | .rotated key _ => ∀ label ∈ overlap, confirms key.userId label = false
  | _ => True

def LiveIn (db : Store) (row' : EmergencyGrant) : Prop :=
  ∃ row ∈ db.grants, Live row ∧ row.id = row'.id ∧ row.ownerId = row'.ownerId ∧ row.keyVersion = row'.keyVersion

structure EscrowEffect (held : Locks) (w : World Store Event) (event : Event) (db : Store) : Prop where
  step : GrantsStep held w.db db
  users : ∀ userId, (.user userId, .exclusive) ∉ held → db.users userId = w.db.users userId
  back : grantTable.KeysUnique w.db → ∀ row' ∈ db.grants, Live row' →
    confirms row'.ownerId event = true ∨ LiveIn w.db row'
  fresh : grantTable.KeysUnique w.db → EscrowFresh w.db → EscrowFresh db

def escrowContract : Contract Store Lock Event where
  allowed := ConfirmedInTime
  guarantee := EscrowEffect

section Between

variable {held : Locks} {w w' : World Store Event}

theorem escrow_steps : StepsGrants escrowContract := fun _ _ _ _ heffect ↦ heffect.step

theorem live_back (h : escrowContract.Later held w w') (hunique : grantTable.KeysUnique w.db)
    {row : EmergencyGrant} (hrow : row ∈ w'.db.grants) (hlive : Live row)
    (hquiet : ∀ label ∈ w'.since w.log, confirms row.ownerId label = false) : LiveIn w.db row := by
  have hstable : escrowContract.Stable held fun v ↦ w.log <:+ v.log ∧ grantTable.KeysUnique v.db ∧
      ∀ row ∈ v.db.grants, Live row →
        (∃ label ∈ v.since w.log, confirms row.ownerId label = true) ∨ LiveIn w.db row := by
    rintro v event db theirs - heffect ⟨hsuffix, hv, hback⟩
    refine ⟨hsuffix.trans (suffix_cons event _), (unique_of_same heffect.step.same).mpr hv, ?_⟩
    intro row hrow hlive
    rw [World.since_commit hsuffix]
    rcases heffect.back hv row hrow hlive with hconfirms | ⟨old, hold, holdLive, hid, howner, hversion⟩
    · exact .inl ⟨event, mem_cons_self .., hconfirms⟩
    · rcases hback old hold holdLive with ⟨label, hlabel, hconfirms⟩ | ⟨first, hfirst, hfirstLive, hsame⟩
      · exact .inl ⟨label, mem_cons_of_mem _ hlabel, howner ▸ hconfirms⟩
      · exact .inr ⟨first, hfirst, hfirstLive, hsame.1.trans hid, hsame.2.1.trans howner, hsame.2.2.trans hversion⟩
  have hstart : ∀ row ∈ w.db.grants, Live row →
      (∃ label ∈ w.since w.log, confirms row.ownerId label = true) ∨ LiveIn w.db row :=
    fun row hrow hlive ↦ .inr ⟨row, hrow, hlive, rfl, rfl, rfl⟩
  rcases (hstable.later ⟨suffix_refl _, hunique, hstart⟩ h).2.2 row hrow hlive with
    ⟨label, hlabel, hconfirms⟩ | hback
  · rw [hquiet label hlabel] at hconfirms
    exact absurd hconfirms Bool.false_ne_true
  · exact hback

end Between

section Effects

variable {held : Locks} {w : World Store Event} {event : Event} {final : Stand Store Lock Event} {grantId : Uuid}
  {sel : EmergencyGrant → Bool} {target : EaStatus} {actor : EaActor} {f : EmergencyGrant → EmergencyGrant}
  {row : EmergencyGrant} {req : RotateRequest} {snapshot : RotationSnapshot}

theorem escrowed_congr {db db' : Store} {row' : EmergencyGrant} (h : Escrowed db row)
    (husers : db'.users row.ownerId = db.users row.ownerId) (howner : row'.ownerId = row.ownerId)
    (hkey : row'.encryptedSecretKey = row.encryptedSecretKey)
    (hpublic : row'.ownerEphemeralPublicKey = row.ownerEphemeralPublicKey)
    (hversion : row'.keyVersion = row.keyVersion) : Escrowed db' row' := by
  unfold Escrowed
  rw [howner, husers, hkey, hpublic, hversion]
  exact h

theorem escrow_nothing (hpending : final.pending = id) : EscrowEffect final.held w event (final.pending w.db) := by
  rw [hpending]
  exact
    { step := .of_eq rfl
      users := fun _ _ ↦ rfl
      back := fun _ row hrow hlive ↦ .inr ⟨row, hrow, hlive, rfl, rfl, rfl⟩
      fresh := fun _ ↦ id }

section Moved

variable (hmoved : Moved escrowContract grantId sel target actor f final)
  (hw : escrowContract.Later final.held final.seen w) (hf : ∀ row, identity (f row) = identity row)

include hmoved hw hf

/-- A transition after which the grant is live only with the escrow that it had while it was live, or
with a new one of the owner's current key. -/
theorem escrow_moved
    (hlive : ∀ row ∈ w.db.grants, row.id = grantId → sel row = true → actor ∈ eaMatrix row.status target →
      Live (moved target f row) →
        (confirms row.ownerId event = true ∨ Live row ∧ (f row).keyVersion = row.keyVersion) ∧
        (EscrowFresh w.db → Escrowed w.db (f row))) :
    EscrowEffect final.held w event (final.pending w.db) := by
  obtain ⟨found, hfound, hid, hsel, hmatrix⟩ := hmoved.now escrow_steps.keeps hw
  have howner : (moved target f found).ownerId = found.ownerId :=
    congrArg (fun identity ↦ identity.2.1) (hf found)
  refine
    { step := hmoved.step hf w.db
      users := fun userId _ ↦ by rw [hmoved.users]
      back := fun hunique row' hrow' hlive' ↦ ?_
      fresh := fun hunique hfresh row' hrow' hlive' ↦ ?_ }
  · rcases hmoved.rows hunique hfound hid hrow' with ⟨hold, -⟩ | rfl
    · exact .inr ⟨row', hold, hlive', rfl, rfl, rfl⟩
    · rw [howner]
      refine (hlive found hfound hid hsel hmatrix hlive').1.imp id fun hold ↦ ?_
      exact ⟨found, hfound, hold.1, (congrArg Prod.fst (hf found)).symm, howner.symm, hold.2.symm⟩
  · have husers : (final.pending w.db).users = w.db.users := hmoved.users w.db
    rcases hmoved.rows hunique hfound hid hrow' with ⟨hold, -⟩ | rfl
    · exact escrowed_congr (hfresh row' hold hlive') (by rw [husers]) rfl rfl rfl rfl
    · exact escrowed_congr ((hlive found hfound hid hsel hmatrix hlive').2 hfresh) (by rw [husers]) rfl rfl rfl rfl

theorem escrow_kept (hescrow : ∀ row, (f row).encryptedSecretKey = row.encryptedSecretKey ∧
      (f row).ownerEphemeralPublicKey = row.ownerEphemeralPublicKey ∧
      (f row).keyVersion = row.keyVersion)
    (hlive : ∀ row ∈ w.db.grants, row.id = grantId → actor ∈ eaMatrix row.status target → Live row) :
    EscrowEffect final.held w event (final.pending w.db) := by
  refine escrow_moved hmoved hw hf fun row hrow hid _ hmatrix _ ↦ ?_
  obtain ⟨hkey, hpublic, hversion⟩ := hescrow row
  have hrowLive := hlive row hrow hid hmatrix
  refine ⟨.inr ⟨hrowLive, hversion⟩, fun hfresh ↦ ?_⟩
  exact escrowed_congr (hfresh row hrow hrowLive) rfl
    (congrArg (fun identity ↦ identity.2.1) (hf row)) hkey hpublic hversion

theorem escrow_dropped (htarget : target ∉ [.idle, .requested, .activated]) :
    EscrowEffect final.held w event (final.pending w.db) :=
  escrow_moved hmoved hw hf fun _ _ _ _ _ hlive ↦ absurd hlive htarget

end Moved

theorem live_of_matrix (htarget : target = .requested ∨ target = .activated) (h : actor ∈ eaMatrix row.status target) :
    Live row := by
  unfold Live
  generalize row.status = status at h ⊢
  rcases htarget with rfl | rfl <;> cases status <;> simp [eaMatrix] at h ⊢

theorem snapshot_stable :
    escrowContract.Stable req.locks fun w ↦ snapshot.matches (w.db.users req.userId) = true := by
  intro v event db theirs hcompatible heffect hmatches
  have hlock : (.user req.userId, .exclusive) ∉ theirs :=
    hcompatible.not_mem_exclusive (mem_cons_self ..)
  exact (heffect.users req.userId hlock).symm ▸ hmatches

theorem outdated_of_liveIn {db : Store} {ownerId : Uuid} {version : Nat} (h : LiveIn db row)
    (howner : row.ownerId = ownerId) (hversion : row.keyVersion = some version) :
    ∃ old ∈ db.grants, old.id = row.id ∧ old.outdated ownerId (version + 1) = true := by
  obtain ⟨old, hold, hlive, hid, holdOwner, holdVersion⟩ := h
  have hmatrix : .system ∈ eaMatrix old.status .stale := by
    unfold Live at hlive
    generalize old.status = status at hlive ⊢
    cases status <;> simp [eaMatrix] at hlive ⊢
  refine ⟨old, hold, hid, ?_⟩
  simp [EmergencyGrant.outdated, holdOwner.trans howner, holdVersion.trans hversion, hmatrix]

theorem marked_of_live {locked : Stand Store Lock Event} {grants : List Uuid} {log : List Event}
    (hmarked : GrantsMarked escrowContract req snapshot id locked final grants) (hbegan : locked.began = some log)
    (hsuffix : log <:+ locked.seen.log) (hw : escrowContract.Later final.held final.seen w)
    (hallowed : ∀ label ∈ w.since (final.began.getD w.log), confirms req.userId label = false)
    (hunique : grantTable.KeysUnique w.db) (hrow : row ∈ w.db.grants) (hlive : Live row)
    (howner : row.ownerId = req.userId) (hversion : row.keyVersion = some snapshot.oldKeyVersion) :
    row.id ∈ grants := by
  obtain ⟨-, s, s', hs, hs', hlast, hgrants⟩ := hmarked
  rw [((hs.trans hs').trans hlast).began log hbegan, Option.getD_some] at hallowed
  have hbefore {v : Stand Store Lock Event} (hv : locked.Reaches escrowContract v)
      (hvw : escrowContract.Later v.held v.seen w) : LiveIn v.seen.db row := by
    refine live_back hvw ((unique_of_same (escrow_steps.same hvw)).mp hunique) hrow hlive ?_
    intro event hevent
    rw [howner]
    exact hallowed event (World.since_subset (hsuffix.trans hv.later.log_suffix) hvw.log_suffix hevent)
  obtain ⟨first, hfirst, hfirstId, hfirstSel⟩ :=
    outdated_of_liveIn (hbefore hs ((hs'.trans hlast).until hw)) howner hversion
  obtain ⟨second, hsecond, hsecondId, hsecondSel⟩ :=
    outdated_of_liveIn (hbefore (hs.trans hs') (hlast.until hw)) howner hversion
  rw [hgrants, Table.mem_matched, Table.mem_keysWhere]
  exact ⟨⟨first, hfirst, hfirstSel, hfirstId⟩, second, hsecond, hsecondSel, hsecondId⟩

theorem escrow_rotated (htrace : RotationTrace escrowContract req snapshot final)
    (hw : escrowContract.Later final.held final.seen w)
    (hallowed : ∀ label ∈ w.since (final.began.getD w.log), confirms req.userId label = false) :
    EscrowEffect final.held w event (final.pending w.db) := by
  obtain ⟨verifierHmac, cleared, grants, hpending, ⟨locked, -, ⟨log, hbegan, hsuffix⟩, hmarked⟩, -⟩ :=
    htrace.writes
  have hgrants : (final.pending w.db).grants = (grantTable.modify grants .markStale w.db).grants := by
    rw [hpending]
    rfl
  have husers (userId : Uuid) (hne : userId ≠ req.userId) :
      (final.pending w.db).users userId = w.db.users userId := by
    rw [hpending]
    exact Function.update_of_ne hne _ _
  have hcases (row' : EmergencyGrant) (hrow' : row' ∈ (final.pending w.db).grants)
      (hlive : Live row') : row' ∈ w.db.grants ∧ row'.id ∉ grants := by
    rw [hgrants] at hrow'
    obtain ⟨row, hrow, rfl⟩ := mem_map.mp hrow'
    split_ifs at hlive ⊢ with hmem
    · exact absurd hlive (by simp [Live, EmergencyGrant.markStale])
    · exact ⟨hrow, hmem⟩
  have hidentity (row : EmergencyGrant) : identity row.markStale = identity row := rfl
  refine
    { step := .modify hidentity hmarked.1 hgrants
      users := fun userId hlock ↦ husers userId ?_
      back := fun _ row' hrow' hlive ↦ .inr ⟨row', (hcases row' hrow' hlive).1, hlive, rfl, rfl, rfl⟩
      fresh := fun hunique hfresh row' hrow' hlive ↦ ?_ }
  · rintro rfl
    exact hlock (htrace.locks (mem_cons_self ..))
  · obtain ⟨hrow, hunmarked⟩ := hcases row' hrow' hlive
    by_cases howner : row'.ownerId = req.userId
    · have hmatches := htrace.locked.now snapshot_stable hw
      obtain ⟨-, -, owner, huser, hversion⟩ := hfresh row' hrow hlive
      rw [howner] at huser
      simp only [huser, RotationSnapshot.matches, Bool.and_eq_true, decide_eq_true_eq] at hmatches
      rw [hmatches.1.2] at hversion
      exact absurd (marked_of_live hmarked hbegan hsuffix hw hallowed hunique hrow hlive howner hversion) hunmarked
    · exact escrowed_congr (hfresh row' hrow hlive) (husers _ howner) rfl rfl rfl rfl

end Effects

theorem escrow_serves : Serves escrowContract where
  nothing _ hpending _ _ _ := escrow_nothing hpending
  accept _ _ _ _ hmoved _ hw _ := escrow_dropped hmoved hw (fun _ ↦ rfl) (by decide)
  confirm req keyVersion final hmoved w hw hallowed := by
    refine escrow_moved hmoved hw (fun _ ↦ rfl) fun row hrow hid hsel _ _ ↦ ?_
    simp only [ownedBy, Bool.and_eq_true, decide_eq_true_eq] at hsel
    refine ⟨.inl (decide_eq_true hsel.2.symm), fun _ ↦ ⟨Option.some_ne_none _, Option.some_ne_none _, ?_⟩⟩
    obtain ⟨owner, howner, hversion⟩ := Option.map_eq_some_iff.mp hallowed
    exact ⟨owner, hsel.2 ▸ howner, congrArg some hversion.symm⟩
  approve _ _ _ _ hmoved _ hw _ := escrow_kept hmoved hw (fun _ ↦ rfl) (fun _ ↦ ⟨rfl, rfl, rfl⟩)
    fun _ _ _ hmatrix ↦ live_of_matrix (.inr rfl) hmatrix
  revoke _ _ _ _ hmoved _ hw _ := escrow_dropped hmoved hw (fun _ ↦ rfl) (by decide)
  resume _ _ _ hmoved _ hw hallowed := by
    refine escrow_kept hmoved hw (fun _ ↦ rfl) (fun _ ↦ ⟨rfl, rfl, rfl⟩) fun row hrow hid _ ↦ ?_
    rw [Live, hallowed row hrow hid]
    decide
  request _ _ _ _ _ _ _ _ _ hmoved _ hw _ := escrow_kept hmoved hw (fun _ ↦ rfl)
    (fun _ ↦ ⟨rfl, rfl, rfl⟩) fun _ _ _ hmatrix ↦ live_of_matrix (.inl rfl) hmatrix
  promote _ _ _ _ hmoved _ hw _ := escrow_kept hmoved hw (fun _ ↦ rfl) (fun _ ↦ ⟨rfl, rfl, rfl⟩)
    fun _ _ _ hmatrix ↦ live_of_matrix (.inr rfl) hmatrix
  rotate _ _ _ htrace _ hw hallowed := escrow_rotated htrace hw hallowed

/-- Grants with unique ids, of which the live ones hold fresh escrows. -/
structure EscrowStore where
  store : Store
  unique : grantTable.KeysUnique store
  fresh : EscrowFresh store

/-- In every run of requests on grants and of rotations whose commits meet the condition, every grant
that is `IDLE`, `REQUESTED` or `ACTIVATED` holds an escrow of its owner's current key version. -/
theorem escrow_fresh {ι : Type} [DecidableEq ι] (env : Env) (toLowerCase : String → String)
    (start : EscrowStore) (requests : ι → GrantRequest) {s : State ι Store Lock Event Bool}
    (hrun : Run ConfirmedInTime (State.start ⟨start.store, []⟩ fun i ↦ (requests i).serve env toLowerCase) s) :
    EscrowFresh s.world.db := by
  have hinvariant : grantTable.KeysUnique s.world.db ∧ EscrowFresh s.world.db := by
    refine Run.invariant (c := escrowContract) (fun w ↦ grantTable.KeysUnique w.db ∧ EscrowFresh w.db) hrun
      (fun i ↦ escrow_serves.outline (requests i)) ⟨start.unique, start.fresh⟩ ?_
    rintro held w event db ⟨hunique, hfresh⟩ heffect
    exact ⟨(unique_of_same heffect.step.same).mpr hunique, heffect.fresh hunique hfresh⟩
  exact hinvariant.2

instance (event : Event) (overlap : List Event) (w : World Store Event) :
    Decidable (ConfirmedInTime event overlap w) := by
  unfold ConfirmedInTime
  split <;> infer_instance

/-- A grant of user `1` to user `2` with a waiting time of seven days. -/
def someGrant (status : EaStatus) : EmergencyGrant where
  id := 31
  tenantId := 1
  ownerId := 1
  granteeId := some 2
  granteeEmail := "g"
  status := status
  waitDays := 7
  tokenHash := "h"
  tokenExpiresAt := 0
  keyAlgorithm := "ECDH-P256"
  granteePublicKey := some "p"
  ownerEphemeralPublicKey := none
  encryptedSecretKey := none
  hkdfSalt := none
  wrapVersion := 1
  keyVersion := none
  requestedAt := none
  activatedAt := none
  waitExpiresAt := none
  revokedAt := none

def acceptedStore : EscrowStore where
  store := { emptyVault.store with grants := [someGrant .accepted] }
  unique := by decide
  fresh row hrow hlive := by
    obtain rfl := mem_singleton.mp hrow
    exact absurd hlive (by decide)

/-- Rejecting a request takes an accepted grant to `IDLE`, without an escrow. -/
theorem escrow_not_fresh : ¬ ∀ (env : Env) (toLowerCase : String → String) (start : EscrowStore)
      (requests : Unit → GrantRequest) (s : State Unit Store Lock Event Bool),
      Run (fun _ _ _ ↦ True) (State.start ⟨start.store, []⟩ fun i ↦ (requests i).serve env toLowerCase) s →
      EscrowFresh s.world.db := by
  intro h
  obtain ⟨s, hrun, row, hrow, hlive, hnone⟩ := Run.exists_of_schedule
    (State.start ⟨acceptedStore.store, []⟩ fun _ : Unit ↦
      (GrantRequest.revoke 1 31 false 0).serve plainEnv id)
    (fun w ↦ ∃ row ∈ w.db.grants, Live row ∧ row.encryptedSecretKey = none)
    [(9, ())]
  exact (h plainEnv id acceptedStore (fun _ ↦ .revoke 1 31 false 0) s hrun row hrow hlive).1 hnone

def confirmAndRotate : Bool → GrantRequest
  | false => .confirm ⟨1, 31, "e", ⟨"c", "i", "t"⟩, "s", 1⟩
  | true => .rotateKey (rotationOf [])

/-- The condition can be met: the grant is confirmed, and the rotation makes it stale. -/
theorem escrow_fresh_rotated : ∃ s : State Bool Store Lock Event Bool,
      s.world.db.grants.map (fun row ↦ (row.status, row.keyVersion)) = [(.stale, some 1)] ∧
      EscrowFresh s.world.db := by
  obtain ⟨s, hrun, hgrants⟩ := Run.exists_of_schedule
    (State.start ⟨acceptedStore.store, []⟩ fun i ↦ (confirmAndRotate i).serve plainEnv id)
    (fun w ↦ w.db.grants.map (fun row ↦ (row.status, row.keyVersion)) = [(.stale, some 1)])
    [(13, false), (22, true)] ConfirmedInTime
  exact ⟨s, hgrants, escrow_fresh plainEnv id acceptedStore confirmAndRotate hrun⟩

end PasswdSso.EmergencyAccess
