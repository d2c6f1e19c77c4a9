import PasswdSso.Vault.WrapCoherence

/-!
# What a rebootstrap leaves behind

`POST /api/webauthn/credentials/[id]/prf`, on its own. Its outcomes are values and not exceptions, so a transaction that
refuses the request still commits what it did before: the counter and the last-used columns of the credential whose
assertion was accepted.
-/

namespace PasswdSso.Vault

open ReadCommitted List Prog

/-- The credential whose assertion is accepted, and what the assertion writes to it. -/
def Assertion.accepted (assertion : Assertion) (userId : Uuid) (db : Store) :
    Option (WebAuthnCredential × AssertionUse) :=
  assertion.credentialId.toOption.bind fun credentialId ↦
    (db.credentials.find? fun row ↦ row.userId = userId && row.credentialId = credentialId).bind fun stored ↦
      (assertion.verify stored).map fun counter ↦ (stored, ⟨counter, assertion.now, assertion.device⟩)

def Store.credentialOf (db : Store) (id userId : Uuid) : Option WebAuthnCredential :=
  db.credentials.find? fun row ↦ row.id = id && row.userId = userId

namespace RebootstrapRequest

variable (req : RebootstrapRequest)

/-- A request that is refused changes no credential, and one that succeeds changes the counter, the last-used columns
and the wrap of the addressed credential. -/
def AllOrNothing (w : World Store Event) : Prop :=
  (((prfRebootstrap req).alone w).1 ≠ .ok () → ((prfRebootstrap req).alone w).2.db.credentials = w.db.credentials) ∧
    (((prfRebootstrap req).alone w).1 = .ok () → ∃ use, ((prfRebootstrap req).alone w).2.db.credentials =
      w.db.credentials.map fun row ↦ if row.id = req.credentialRowId then (row.advance use).rewrap req.wrap else row)

/-- An accepted assertion that changes its credential is one of the addressed credential, and the key version of the
request is the current one. -/
def Consistent (db : Store) : Prop :=
  ∀ tenantId owned stored use, resolveUserTenantId db.members req.userId = .ok tenantId →
    db.credentialOf req.credentialRowId req.userId = some owned →
    req.assertion.accepted req.userId db = some (stored, use) → stored.advance use ≠ stored →
      stored = owned ∧ (db.users req.userId).map User.keyVersion = some req.keyVersion

end RebootstrapRequest

section Alone

variable {req : RebootstrapRequest} {w : World Store Event} {stored owned : WebAuthnCredential} {use : AssertionUse}

theorem exec_verifyAssertion_refused {assertion : Assertion} {userId : Uuid}
    (h : assertion.accepted userId w.db = none) : ∃ failure,
      (verifyAssertionAnyCredential userId assertion).exec id w = (.error failure, id, w) := by
  unfold Assertion.accepted at h
  unfold verifyAssertionAnyCredential
  cases hid : assertion.credentialId with
  | error failure => exact ⟨failure, rfl⟩
  | ok credentialId =>
    simp only [hid, Except.toOption, Option.bind_some, Option.bind_eq_none_iff, Option.map_eq_none_iff] at h
    simp only [exec_bind, exec_read, id]
    split
    · exact ⟨_, rfl⟩
    next stored hstored =>
      simp only [h stored hstored]
      exact ⟨_, rfl⟩

theorem exec_verifyAssertion_accepted {assertion : Assertion} {userId : Uuid}
    (h : assertion.accepted userId w.db = some (stored, use)) : stored ∈ w.db.credentials ∧
      (verifyAssertionAnyCredential userId assertion).exec id w =
        (.ok stored.credentialId, credentialTable.modify [stored.id] (.advance use), w) := by
  unfold Assertion.accepted at h
  unfold verifyAssertionAnyCredential
  cases hid : assertion.credentialId with
  | error failure => simp [hid, Except.toOption] at h
  | ok credentialId =>
    simp only [hid, Except.toOption, Option.bind_some, Option.bind_eq_some_iff, Option.map_eq_some_iff,
      Prod.mk.injEq] at h
    obtain ⟨row, hfind, counter, hverify, rfl, rfl⟩ := h
    have hmem := mem_of_find?_eq_some hfind
    obtain ⟨count, hupdate⟩ := exec_updateMany_key id w credentialTable Lock.credential
      (fun other ↦ other.id = row.id && other.counter = row.counter)
      (.advance ⟨counter, assertion.now, assertion.device⟩) hmem (by simp) (by simp +contextual [credentialTable])
    refine ⟨hmem, ?_⟩
    simp only [exec_bind, exec_read, id, hfind, hverify, hupdate]
    rfl

theorem alone_refused (h : ∀ tenantId owned, resolveUserTenantId w.db.members req.userId = .ok tenantId →
    w.db.credentialOf req.credentialRowId req.userId = some owned → False) :
    ∃ refusal, (prfRebootstrap req).alone w = (.error refusal, w) := by
  unfold prfRebootstrap readAsUser
  simp only [Prog.alone, exec_bind, exec_readOnly, id]
  cases htenant : resolveUserTenantId w.db.members req.userId with
  | error error => exact ⟨_, rfl⟩
  | ok tenantId =>
    have hnone : w.db.credentialOf req.credentialRowId req.userId = none :=
      Option.eq_none_iff_forall_ne_some.mpr fun owned howned ↦ h tenantId owned htenant howned
    unfold Store.credentialOf at hnone
    simp only [exec_bind, exec_readOnly, exec_pure, id, hnone]
    exact ⟨_, rfl⟩

variable {pending : Store → Store}

/-- A request for a credential of the user runs its transaction, which commits whatever the outcome is. -/
theorem alone_eq {tenantId : Uuid} {outcome : RebootstrapOutcome}
    (htenant : resolveUserTenantId w.db.members req.userId = .ok tenantId)
    (howned : w.db.credentialOf req.credentialRowId req.userId = some owned)
    (hbody : (rebootstrapBody req owned.credentialId).exec id w = (.ok outcome, pending, w)) :
    (prfRebootstrap req).alone w = (outcome.response, w.commit (req.event outcome) (pending w.db)) := by
  have htransaction : (Prog.transaction req.event (rebootstrapBody req owned.credentialId)).exec id w = _ :=
    exec_transaction_ok id w (congrArg Prod.fst hbody)
  unfold Store.credentialOf at howned
  unfold prfRebootstrap readAsUser withUserTenantRls
  simp only [Prog.alone, exec_bind, exec_readOnly, exec_pure, id, htenant, howned]
  rw [htransaction, hbody]
  rfl

theorem exec_rebootstrapWrite_stale (credentialId : String)
    (h : ((pending w.db).users req.userId).map User.keyVersion ≠ some req.keyVersion) :
    (rebootstrapWrite req credentialId).exec pending w =
      (.ok (.stale (((pending w.db).users req.userId).map User.keyVersion)), pending, w) := by
  change Prog.exec (if _ then _ else _) pending w = _
  rw [if_neg h]
  rfl

theorem exec_rebootstrapWrite_ok (credentialId : String) (row : WebAuthnCredential)
    (h : ((pending w.db).users req.userId).map User.keyVersion = some req.keyVersion)
    (hrow : row ∈ (pending w.db).credentials) (hid : row.id = req.credentialRowId) (huser : row.userId = req.userId) :
    (rebootstrapWrite req credentialId).exec pending w = (.ok (.ok credentialId ((pending w.db).currentKey req.userId)),
      credentialTable.modify [row.id] (.rewrap req.wrap) ∘ pending, w) := by
  obtain ⟨count, hupdate⟩ := exec_updateMany_key pending w credentialTable Lock.credential
    (fun row ↦ row.id = req.credentialRowId && row.userId = req.userId) (.rewrap req.wrap) hrow (by simp [hid, huser])
    fun other hother ↦ (of_decide_and hother).trans hid.symm
  change Prog.exec (if _ then _ else _) pending w = _
  rw [if_pos h, exec_bind, hupdate]
  rfl

theorem exec_body_unverified (h : req.assertion.accepted req.userId w.db = none) (credentialId : String) :
    ∃ failure, (rebootstrapBody req credentialId).exec id w = (.ok (.assertionFailed failure), id, w) := by
  obtain ⟨failure, hverify⟩ := exec_verifyAssertion_refused h
  refine ⟨failure, ?_⟩
  unfold rebootstrapBody
  simp only [exec_bind, exec_lockingRead, hverify, exec_pure]

theorem exec_body_refused (h : req.assertion.accepted req.userId w.db = some (stored, use)) {credentialId : String}
    (hrefused : ¬(stored.credentialId = credentialId ∧
      (w.db.users req.userId).map User.keyVersion = some req.keyVersion)) :
    ∃ outcome : RebootstrapOutcome, outcome.response ≠ .ok () ∧ (rebootstrapBody req credentialId).exec id w =
        (.ok outcome, credentialTable.modify [stored.id] (.advance use), w) := by
  have hverify := (exec_verifyAssertion_accepted h).2
  unfold rebootstrapBody
  simp only [exec_bind, exec_lockingRead, hverify]
  split_ifs with hcredential
  · exact ⟨.wrongCredential, by simp [RebootstrapOutcome.response], rfl⟩
  · exact ⟨.stale _, by simp [RebootstrapOutcome.response], exec_rebootstrapWrite_stale _ fun hcurrent ↦
      hrefused ⟨not_not.mp hcredential, hcurrent⟩⟩

theorem exec_body_ok (h : req.assertion.accepted req.userId w.db = some (owned, use))
    (hid : owned.id = req.credentialRowId) (huser : owned.userId = req.userId)
    (hversion : (w.db.users req.userId).map User.keyVersion = some req.keyVersion) :
    ∃ checked, (rebootstrapBody req owned.credentialId).exec id w = (.ok (.ok owned.credentialId checked),
      credentialTable.modify [owned.id] (.rewrap req.wrap) ∘ credentialTable.modify [owned.id] (.advance use), w) := by
  obtain ⟨hmem, hverify⟩ := exec_verifyAssertion_accepted h
  have hadvanced : owned.advance use ∈ (credentialTable.modify [owned.id] (.advance use) w.db).credentials :=
    mem_map.mpr ⟨owned, hmem, if_pos (mem_singleton_self _)⟩
  unfold rebootstrapBody
  simp only [exec_bind, exec_lockingRead, hverify, ne_eq, not_true_eq_false, if_false]
  exact ⟨_, exec_rebootstrapWrite_ok _ (owned.advance use) hversion hadvanced hid huser⟩

theorem map_advance_eq_self (use : AssertionUse) (hids : credentialTable.KeysUnique w.db)
    (hstored : stored ∈ w.db.credentials) :
    (credentialTable.modify [stored.id] (.advance use) w.db).credentials = w.db.credentials ↔
      stored.advance use = stored := by
  constructor
  · intro h
    have hmap := map_eq_map_iff.mp (h.trans (map_id _).symm) stored hstored
    exact (if_pos (mem_singleton_self _)).symm.trans hmap
  · intro h
    refine (map_congr_left fun row hrow ↦ ?_).trans (map_id _)
    split_ifs with hid
    · rw [hids.eq_of_key_eq hrow hstored (mem_singleton.mp hid), h]
      rfl
    · rfl

/-- A rebootstrap on its own is all-or-nothing exactly if an accepted assertion that changes its credential is one of
the addressed credential and comes with the current key version. -/
theorem prfRebootstrap_allOrNothing_iff (req : RebootstrapRequest) (w : World Store Event)
    (hids : credentialTable.KeysUnique w.db) (hcredentialIds : (w.db.credentials.map (·.credentialId)).Nodup) :
    req.AllOrNothing w ↔ req.Consistent w.db := by
  by_cases haddressed : ∀ tenantId owned, resolveUserTenantId w.db.members req.userId = .ok tenantId →
      w.db.credentialOf req.credentialRowId req.userId = some owned → False
  · obtain ⟨refusal, halone⟩ := alone_refused haddressed
    rw [RebootstrapRequest.AllOrNothing, halone]
    exact ⟨fun _ tenantId owned _ _ htenant howned ↦ (haddressed tenantId owned htenant howned).elim,
      fun _ ↦ ⟨fun _ ↦ rfl, nofun⟩⟩
  push Not at haddressed
  obtain ⟨tenantId, owned, htenant, howned, -⟩ := haddressed
  cases haccepted : req.assertion.accepted req.userId w.db with
  | none =>
    obtain ⟨failure, hbody⟩ := exec_body_unverified haccepted owned.credentialId
    rw [RebootstrapRequest.AllOrNothing, alone_eq htenant howned hbody]
    exact ⟨fun _ _ _ _ _ _ _ hsome ↦ absurd (haccepted.symm.trans hsome) nofun, fun _ ↦ ⟨fun _ ↦ rfl, nofun⟩⟩
  | some accepted =>
    obtain ⟨stored, use⟩ := accepted
    have hstored := (exec_verifyAssertion_accepted haccepted).1
    by_cases hok : stored = owned ∧ (w.db.users req.userId).map User.keyVersion = some req.keyVersion
    · obtain ⟨rfl, hversion⟩ := hok
      obtain ⟨-, hid, huser⟩ := mem_of_find?_and howned
      obtain ⟨checked, hbody⟩ := exec_body_ok haccepted hid huser hversion
      rw [RebootstrapRequest.AllOrNothing, alone_eq htenant howned hbody]
      refine ⟨fun _ tenantId other _ _ _ hother hsome _ ↦ ?_, fun _ ↦ ⟨fun h ↦ (h rfl).elim, fun _ ↦ ⟨use, ?_⟩⟩⟩
      · obtain ⟨rfl, -⟩ := Prod.mk.inj (Option.mem_unique haccepted hsome)
        exact ⟨Option.mem_unique howned hother, hversion⟩
      · rw [← hid]
        refine List.map_map.trans (List.map_congr_left fun row _ ↦ ?_)
        by_cases hrow : row.id = stored.id
        · simp [credentialTable, hrow, WebAuthnCredential.advance]
        · simp [credentialTable, hrow]
    · have hrefused : ¬(stored.credentialId = owned.credentialId ∧
          (w.db.users req.userId).map User.keyVersion = some req.keyVersion) := fun h ↦ hok
        ⟨List.inj_on_of_nodup_map hcredentialIds hstored (List.mem_of_find?_eq_some howned) h.1, h.2⟩
      obtain ⟨outcome, hresponse, hbody⟩ := exec_body_refused haccepted hrefused
      rw [RebootstrapRequest.AllOrNothing, alone_eq htenant howned hbody]
      have hself := map_advance_eq_self use hids hstored
      constructor
      · intro h tenantId' other stored' use' _ hother hsome hchanges
        obtain ⟨rfl, rfl⟩ := Prod.mk.inj (Option.mem_unique haccepted hsome)
        exact (hchanges (hself.mp (h.1 hresponse))).elim
      · intro hconsistent
        refine ⟨fun _ ↦ hself.mpr ?_, fun h ↦ (hresponse h).elim⟩
        by_contra hchanges
        exact hok (hconsistent tenantId owned stored use htenant howned haccepted hchanges)

end Alone

def passkey (id : Uuid) (credentialId : String) : WebAuthnCredential :=
  ⟨id, 1, 1, credentialId, "", 0, none, none, none, true, none⟩

def twoPasskeys : World Store Event :=
  ⟨{ newUserStore.store with credentials := [passkey 1 "a", passkey 2 "b"] }, []⟩

/-- A request for the first of the two credentials, with an assertion of the given one. -/
def rewrapFirst (asserted : String) : RebootstrapRequest :=
  ⟨1, 1, ⟨true, true, true, some asserted, fun row ↦ some (row.counter + 1), 7, none⟩, material 1, 0⟩

theorem rewrapFirst_allOrNothing : (rewrapFirst "a").AllOrNothing twoPasskeys := by
  refine (prfRebootstrap_allOrNothing_iff (rewrapFirst "a") twoPasskeys (by decide) (by decide)).mpr ?_
  intro tenantId owned stored use _ howned haccepted _
  have hfirst : twoPasskeys.db.credentialOf 1 1 = some (passkey 1 "a") := by decide
  have hstored : (rewrapFirst "a").assertion.accepted 1 twoPasskeys.db = some (passkey 1 "a", ⟨1, 7, none⟩) := rfl
  obtain rfl := Option.mem_unique hfirst howned
  obtain ⟨rfl, -⟩ := Prod.mk.inj (Option.mem_unique hstored haccepted)
  exact ⟨rfl, rfl⟩

/-- The assertion of another credential is refused, and that credential is changed. -/
theorem refused_assertion_advances : ((prfRebootstrap (rewrapFirst "b")).alone twoPasskeys).1 = .error .forbidden ∧
      ((prfRebootstrap (rewrapFirst "b")).alone twoPasskeys).2.db.credentials =
        [passkey 1 "a", (passkey 2 "b").advance ⟨1, 7, none⟩] := by
  decide +kernel

end PasswdSso.Vault
