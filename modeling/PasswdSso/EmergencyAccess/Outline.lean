import PasswdSso.EmergencyAccess.Grants
import PasswdSso.Vault.Outline

/-!
# Proof outlines of the grant routes

The routes walked through once for any contract. `Moved` is what a transition has read, locked and
written when it commits, and `Serves` lists what a contract has to say about the commits; then it has
outlines of all requests (`Serves.outline`).
-/

namespace PasswdSso.EmergencyAccess

open ReadCommitted Vault List

def moved (target : EaStatus) (f : EmergencyGrant → EmergencyGrant) (row : EmergencyGrant) :
    EmergencyGrant :=
  { f row with status := target }

def ownedBy (ownerId grantId : Uuid) (row : EmergencyGrant) : Bool :=
  row.id = grantId && row.ownerId = ownerId

def grantedTo (granteeId grantId : Uuid) (row : EmergencyGrant) : Bool :=
  row.id = grantId && row.granteeId = some granteeId

/-- A transition of a grant that is about to commit: it holds the grant, which it found selected and
in a state that the matrix permits. -/
structure Moved (c : Contract Store Lock Event) (grantId : Uuid) (sel : EmergencyGrant → Bool)
    (target : EaStatus) (actor : EaActor) (f : EmergencyGrant → EmergencyGrant)
    (final : Stand Store Lock Event) : Prop where
  lock : (.grant grantId, .exclusive) ∈ final.held
  users : ∀ db, (final.pending db).users = db.users
  grants : ∀ db, (final.pending db).grants = (grantTable.modify [grantId] (moved target f) db).grants
  found : ∃ s : Stand Store Lock Event, s.Reaches c final ∧ (.grant grantId, .exclusive) ∈ s.held ∧
    ∃ row ∈ s.seen.db.grants, row.id = grantId ∧ sel row = true ∧ actor ∈ eaMatrix row.status target

variable {c : Contract Store Lock Event} {stand : Stand Store Lock Event} {w : World Store Event}

section Transition

variable {grantId : Uuid} {sel : EmergencyGrant → Bool} {target : EaStatus} {actor : EaActor}
  {f : EmergencyGrant → EmergencyGrant}

theorem Moved.now {final : Stand Store Lock Event} (h : Moved c grantId sel target actor f final)
    (hkeeps : c.Keeps grantTable .grant) (hw : c.Later final.held final.seen w) :
    ∃ row ∈ w.db.grants, row.id = grantId ∧ sel row = true ∧ actor ∈ eaMatrix row.status target := by
  obtain ⟨s, hreaches, hlock, row, hrow, rfl, hfound⟩ := h.found
  exact ⟨row, (hkeeps.later (hreaches.until hw) hlock).mpr hrow, rfl, hfound⟩

theorem Moved.next {next final : Stand Store Lock Event} (h : Moved c grantId sel target actor f next)
    (hreaches : next.Reaches c final) (husers : ∀ db, (final.pending db).users = (next.pending db).users)
    (hgrants : ∀ db, (final.pending db).grants = (next.pending db).grants) :
    Moved c grantId sel target actor f final where
  lock := hreaches.held h.lock
  users db := (husers db).trans (h.users db)
  grants db := (hgrants db).trans (h.grants db)
  found := h.found.imp fun _ hs ↦ ⟨hs.1.trans hreaches, hs.2⟩

theorem returns_transition (hsel : ∀ row, sel row = true → row.id = grantId) (hpending : stand.pending = id) :
    Returns c (transition sel target actor f) stand fun ok next ↦ stand.Reaches c next ∧
      if ok then Moved c grantId sel target actor f next else next.pending = id := by
  have hkey (view : Store) (row : EmergencyGrant)
      (h : (sel row && decide (actor ∈ eaMatrix row.status target)) = true) :
      grantTable.key row = grantId := hsel row (Bool.and_eq_true _ _ ▸ h).1
  refine Outline.updateKey (fun next count hreaches hnext hlock hfound ↦ ?_)
    (fun next hreaches hnext ↦ .ok ⟨hreaches, hnext.trans hpending⟩) hkey
  split
  · exact .error
  next hcount =>
  obtain rfl : count = 0 := by omega
  obtain ⟨-, row, hrow, hrowSel⟩ := hfound
  rw [Bool.and_eq_true, decide_eq_true_eq] at hrowSel
  rw [hpending] at hnext hrow
  exact .ok ⟨hreaches,
    { lock := hlock
      users := fun db ↦ by rw [hnext]; rfl
      grants := fun db ↦ by rw [hnext]; rfl
      found := ⟨next, .refl next, hlock, row, hrow, hsel row hrowSel.1, hrowSel⟩ }⟩

theorem ownedBy_id {ownerId : Uuid} (row : EmergencyGrant) (h : ownedBy ownerId grantId row = true) :
    row.id = grantId := by
  simp only [ownedBy, Bool.and_eq_true, decide_eq_true_eq] at h
  exact h.1

theorem grantedTo_id {granteeId : Uuid} (row : EmergencyGrant)
    (h : grantedTo granteeId grantId row = true) : row.id = grantId := by
  simp only [grantedTo, Bool.and_eq_true, decide_eq_true_eq] at h
  exact h.1

end Transition

structure Serves (c : Contract Store Lock Event) : Prop where
  nothing : ∀ final, final.pending = id → c.Commits final .other
  accept : ∀ (req : AcceptRequest) grantId sel final,
    Moved c grantId sel .accepted .grantee req.apply final → c.Commits final .other
  confirm : ∀ (req : ConfirmRequest) keyVersion final,
    Moved c req.id (ownedBy req.userId req.id) .idle .owner (req.apply keyVersion) final →
      c.Commits final (.grant req.id (.confirmed req.userId keyVersion))
  approve : ∀ userId grantId now final, Moved c grantId (ownedBy userId grantId) .activated .owner
      (fun row ↦ { row with activatedAt := some now }) final →
      c.Commits final (.grant grantId .approved)
  revoke : ∀ userId grantId now final,
    Moved c grantId (ownedBy userId grantId) .revoked .owner (revokedGrant now) final → c.Commits final .other
  resume : ∀ userId grantId final, Moved c grantId (ownedBy userId grantId) .idle .owner resumedGrant final →
      c.Commits final (.grant grantId .resumed)
  request : ∀ userId grantId now v (grant : EmergencyGrant) final, grant ∈ v.db.grants →
    grant.id = grantId → c.Later [] v final.seen →
    Moved c grantId (grantedTo userId grantId) .requested .grantee (requestedGrant grant.waitDays now) final →
      c.Commits final (.grant grantId (.requested now))
  promote : ∀ (req : VaultRequest) waitExpiresAt final, waitExpiresAt ≤ req.now →
    Moved c req.id (grantedTo req.userId req.id) .activated .system
      (fun row ↦ { row with activatedAt := some req.now }) final →
      c.Commits final (.grant req.id (.promoted req.now waitExpiresAt))
  rotate : ∀ req snapshot final, RotationTrace c req snapshot final →
    c.Commits final (.rotated (req.key snapshot) req.wrap)

section Routes

variable (h : Serves c)

include h

variable {req : AcceptRequest} {toLowerCase : String → String} {grantId userId : Uuid}

theorem outline_acceptGrant {grant : EmergencyGrant} {sel : EmergencyGrant → Bool} {conflict : Refusal}
    (hsel : ∀ row, sel row = true → row.id = grant.id) :
    Respects c (acceptGrant req grant sel conflict) w := by
  refine .respond (.inTransaction ?_) fun result _ ↦ ?_
  · refine .andThen (returns_transition hsel rfl) ?_
    rintro (_ | _) next ⟨-, hnext⟩
    · exact .ok (h.nothing next hnext)
    · have hcreate : Returns c (createKeyPair ⟨grant.id, grant.tenantId, req.encryptedPrivateKey⟩) next
          fun _ final ↦ Moved c grant.id sel .accepted .grantee req.apply final := by
        refine Returns.insert fun final hfinal _ ↦ .ok ?_
        have hmoved : Moved c grant.id sel .accepted .grantee req.apply next := hnext
        exact hmoved.next hfinal.reaches (fun db ↦ by rw [hfinal.pending]; rfl)
          fun db ↦ by rw [hfinal.pending]; rfl
      refine .andThen hcreate fun _ final hfinal ↦ ?_
      exact .ok (h.accept req grant.id sel final hfinal)
  · rcases result with _ | _ | _ <;> trivial

theorem outline_acceptByToken {tokenHash : String} : Respects c (acceptByToken toLowerCase req tokenHash) w := by
  refine .readOnly fun v w' _ _ ↦ ?_
  split
  · trivial
  next grant _ =>
  split
  · trivial
  split
  · trivial
  split
  · trivial
  refine outline_acceptGrant h fun row hrow ↦ of_decide_and hrow

theorem outline_acceptById : Respects c (acceptById toLowerCase req grantId) w := by
  refine .readOnly fun v w' _ _ ↦ ?_
  split
  · trivial
  next grant hgrant =>
  split
  · trivial
  split
  · trivial
  split
  · trivial
  have hid : grant.id = grantId := by simpa using find?_some hgrant
  refine outline_acceptGrant h fun row hrow ↦ (of_decide_and hrow).trans hid.symm

omit h in
theorem outline_transitionAsOwner {ownerId : Uuid} {target : EaStatus} {event : Bool → Event}
    {f : EmergencyGrant → EmergencyGrant} (hnothing : ∀ final, final.pending = id → c.Commits final (event false))
    (hmoved : ∀ final, Moved c grantId (ownedBy ownerId grantId) target .owner f final →
      c.Commits final (event true)) :
    Respects c (transitionAsOwner ownerId grantId target event f) w := by
  refine .respond ?_ fun result _ ↦ ?_
  · refine .readOnly fun _ w' _ _ ↦ ?_
    split
    · trivial
    refine .inTransaction (.mono (returns_transition ownedBy_id rfl) ?_)
    rintro (_ | _) final ⟨-, hfinal⟩
    · exact hnothing final hfinal
    · exact hmoved final hfinal
  · rcases result with _ | _ | _ <;> trivial

omit h in
theorem outline_asOwner {next : Server (Except Refusal EaStatus)} (hnext : ∀ w, Respects c next w) :
    Respects c (asOwner userId grantId next) w := by
  refine outline_readAsUser (fun _ _ ↦ trivial) fun _ w' _ _ ↦ ?_
  split
  · trivial
  · trivial
  split
  · trivial
  · exact hnext w'

theorem outline_confirmGrant {req : ConfirmRequest} : Respects c (confirmGrant req) w := by
  refine outline_readAsUser (fun _ _ ↦ trivial) fun _ w' _ _ ↦ ?_
  split
  · trivial
  · trivial
  split
  · trivial
  refine outline_readAsUser (fun _ _ ↦ trivial) fun _ w' _ _ ↦ ?_
  split
  · trivial
  · trivial
  split
  · trivial
  exact outline_transitionAsOwner h.nothing (h.confirm req _)

theorem outline_approveGrant {now : Millis} : Respects c (approveGrant userId grantId now) w :=
  outline_asOwner fun _ ↦ outline_transitionAsOwner h.nothing (h.approve userId grantId now)

theorem outline_revokeGrant {permanent : Bool} {now : Millis} :
    Respects c (revokeGrant userId grantId permanent now) w := by
  refine outline_asOwner fun _ ↦ ?_
  split
  · exact outline_transitionAsOwner h.nothing (h.revoke userId grantId now)
  · exact outline_transitionAsOwner h.nothing (h.resume userId grantId)

theorem outline_requestAccess {now : Millis} : Respects c (requestAccess userId grantId now) w := by
  refine .readOnly fun v w' _ hw' ↦ ?_
  split
  · trivial
  next grant hgrant =>
  split
  · trivial
  have hid : grant.id = grantId := by simpa using find?_some hgrant
  refine .respond (.inTransaction
    (.mono (returns_transition grantedTo_id rfl) ?_)) fun result _ ↦ ?_
  · rintro (_ | _) final ⟨hreaches, hfinal⟩
    · exact h.nothing final hfinal
    · exact h.request userId grantId now v grant final (mem_of_find?_eq_some hgrant) hid
        (hw'.trans hreaches.later) hfinal
  · rcases result with _ | _ | _ <;> trivial

theorem returns_autoPromoteIfElapsed {req : VaultRequest} :
    Earns c (autoPromoteIfElapsed req) (.idle w) req.event := by
  refine .read fun first hfirst ↦ ?_
  split
  · exact .ok (h.nothing first hfirst.pending)
  next waitExpiresAt helapsed =>
  obtain ⟨current, -, hcurrent⟩ := Option.bind_eq_some_iff.mp helapsed
  have hover : waitExpiresAt ≤ req.now := by
    have hfilter := (Option.filter_eq_some_iff.mp hcurrent).2
    simp only [Bool.and_eq_true, decide_eq_true_eq] at hfilter
    exact hfilter.2
  refine Returns.andThen (returns_transition grantedTo_id hfirst.pending) ?_
  rintro (_ | _) next ⟨-, hnext⟩
  · exact .ok (h.nothing next hnext)
  · refine .read fun final hfinal ↦ .ok (h.promote req waitExpiresAt final hover ?_)
    exact Moved.next hnext hfinal.reaches (fun db ↦ by rw [hfinal.pending]; rfl)
      fun db ↦ by rw [hfinal.pending]; rfl

theorem outline_openVault {req : VaultRequest} : Respects c (openVault req) w := by
  refine .readOnly fun _ w' _ _ ↦ ?_
  split
  · trivial
  split
  · trivial
  split
  · refine .respond (.inTransaction (returns_autoPromoteIfElapsed h)) fun result _ ↦ ?_
    rcases result with _ | ⟨_ | _ | _ | _, _⟩ <;> trivial
  · trivial

theorem outline_rotateKey {env : Env} {req : RotateRequest} : Respects c (rotateKey env req) w := by
  refine outline_readAsUser (fun _ _ ↦ trivial) fun _ w' _ _ ↦ ?_
  split
  · trivial
  split
  · trivial
  next snapshot _ =>
  refine .respond ?_ fun result _ ↦ ?_
  · refine .readOnly fun _ w' _ _ ↦ ?_
    split
    · trivial
    exact .inTransaction (.mono (returns_applyVaultRotation rfl rfl)
      fun _ final htrace ↦ h.rotate req snapshot final htrace)
  · cases result <;> trivial

theorem Serves.outline {env : Env} (req : GrantRequest) : Respects c (req.serve env toLowerCase) w := by
  cases req with
  | acceptByToken req tokenHash => exact .respond (outline_acceptByToken h) fun _ _ ↦ trivial
  | acceptById req grantId => exact .respond (outline_acceptById h) fun _ _ ↦ trivial
  | confirm req => exact .respond (outline_confirmGrant h) fun _ _ ↦ trivial
  | request userId grantId now => exact .respond (outline_requestAccess h) fun _ _ ↦ trivial
  | approve userId grantId now => exact .respond (outline_approveGrant h) fun _ _ ↦ trivial
  | revoke userId grantId permanent now =>
    exact .respond (outline_revokeGrant h) fun _ _ ↦ trivial
  | openVault req => exact .respond (outline_openVault h) fun _ _ ↦ trivial
  | rotateKey req => exact .respond (outline_rotateKey h) fun _ _ ↦ trivial

end Routes

section Steps

def identity (row : EmergencyGrant) : Uuid × Uuid × Nat := (row.id, row.ownerId, row.waitDays)

/-- What every commit does to the grants: it changes only grants that it holds, and no grant is
created, deleted or given away. -/
structure GrantsStep (held : Locks) (db db' : Store) : Prop where
  kept : grantTable.KeptExcept .grant held db db'
  same : db'.grants.map identity = db.grants.map identity

variable {held : Locks} {db db' : Store}

theorem GrantsStep.of_eq (h : db'.grants = db.grants) : GrantsStep held db db' :=
  ⟨.of_rows_eq h, by rw [h]⟩

theorem GrantsStep.modify {keys : List Uuid} {g : EmergencyGrant → EmergencyGrant}
    (hg : ∀ row, identity (g row) = identity row) (hlocks : ∀ key ∈ keys, (.grant key, .exclusive) ∈ held)
    (hgrants : db'.grants = (grantTable.modify keys g db).grants) : GrantsStep held db db' where
  kept := (Table.keptExcept_modify (fun row ↦ congrArg Prod.fst (hg row)) hlocks).congr hgrants
  same := by
    have hmap : (grantTable.modify keys g db).grants =
        db.grants.map fun row ↦ if row.id ∈ keys then g row else row := rfl
    rw [hgrants, hmap, map_map]
    refine map_congr_left fun row _ ↦ ?_
    rw [Function.comp_apply]
    split_ifs
    · exact hg row
    · rfl

section Moved

variable {grantId : Uuid} {sel : EmergencyGrant → Bool} {target : EaStatus} {actor : EaActor}
  {f : EmergencyGrant → EmergencyGrant} {final : Stand Store Lock Event}
  (h : Moved c grantId sel target actor f final)

include h

theorem Moved.step (hf : ∀ row, identity (f row) = identity row) (db : Store) :
    GrantsStep final.held db (final.pending db) :=
  have hmoved (row : EmergencyGrant) : identity (moved target f row) = identity row := hf row
  .modify hmoved (fun _ hkey ↦ mem_singleton.mp hkey ▸ h.lock) (h.grants db)

theorem Moved.rows {found row : EmergencyGrant} (hunique : grantTable.KeysUnique db)
    (hfound : found ∈ db.grants) (hid : found.id = grantId) (hrow : row ∈ (final.pending db).grants) :
    row ∈ db.grants ∧ row.id ≠ grantId ∨ row = moved target f found := by
  rw [h.grants] at hrow
  obtain ⟨old, hold, rfl⟩ := mem_map.mp hrow
  split_ifs with hkey
  · obtain rfl : old = found := hunique.eq_of_key_eq hold hfound ((mem_singleton.mp hkey).trans hid.symm)
    exact .inr rfl
  · exact .inl ⟨hold, fun heq ↦ hkey (mem_singleton.mpr heq)⟩

end Moved

theorem unique_of_same (h : db'.grants.map identity = db.grants.map identity) :
    grantTable.KeysUnique db' ↔ grantTable.KeysUnique db := by
  have hids : db'.grants.map (·.id) = db.grants.map (·.id) := by
    simpa [identity, Function.comp_def] using congrArg (map Prod.fst) h
  exact Iff.of_eq (congrArg List.Nodup hids)

def StepsGrants (c : Contract Store Lock Event) : Prop :=
  ∀ held w event db, c.guarantee held w event db → GrantsStep held w.db db

theorem StepsGrants.keeps (h : StepsGrants c) : c.Keeps grantTable .grant :=
  fun held w event db hguarantee ↦ (h held w event db hguarantee).kept

theorem StepsGrants.same {w' : World Store Event} (h : StepsGrants c) (hlater : c.Later held w w') :
    w'.db.grants.map identity = w.db.grants.map identity := by
  have hstable : c.Stable held fun v ↦ v.db.grants.map identity = w.db.grants.map identity :=
    fun v event db theirs _ hguarantee hv ↦ (h theirs v event db hguarantee).same.trans hv
  exact hstable.later rfl hlater

end Steps

end PasswdSso.EmergencyAccess
