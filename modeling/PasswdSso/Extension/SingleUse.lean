import PasswdSso.Extension.Outline

/-!
# Single use of an iOS refresh token

Any number of `POST /api/mobile/token/refresh` requests present the same token. At most one new pair
should be minted from it, and the family should keep at most one live access row and one live refresh
row. The route reads `revokedAt` before the rotation, and the rotation revokes the family without
asking whether the presented row was still live, so two requests that both read a live row both mint
a pair (`refresh_not_singleUse`). The property holds in every run in which each rotation revokes the
family while the presented row is still live (`refresh_singleUse`).

The table does not tell access rows from refresh rows; the role of a row is the one it was minted in.
-/

namespace PasswdSso.Extension

open ReadCommitted List Prog Event

def Event.accessIds : Event → List Uuid
  | .issuedPair _ _ access _ => [access.id]
  | _ => []

def Event.refreshIds : Event → List Uuid
  | .issuedPair _ _ _ refresh => [refresh.id]
  | _ => []

/-- The commit minted a pair from the token with this hash. -/
def Event.mintsFrom (tokenHash : String) : Event → Bool
  | .issuedPair (some presented) _ _ _ => presented.tokenHash = tokenHash
  | _ => false

def ExtensionToken.LiveIn (familyId : Uuid) (row : ExtensionToken) : Prop :=
  row.familyId = familyId ∧ row.revokedAt = none

instance (familyId : Uuid) (row : ExtensionToken) : Decidable (row.LiveIn familyId) :=
  inferInstanceAs (Decidable (_ ∧ _))

def Store.OneLive (db : Store) (familyId : Uuid) (ids : List Uuid) : Prop :=
  ∀ row ∈ db.tokens, ∀ other ∈ db.tokens, row.LiveIn familyId → other.LiveIn familyId →
    row.id ∈ ids → other.id ∈ ids → row = other

instance (db : Store) (familyId : Uuid) (ids : List Uuid) : Decidable (db.OneLive familyId ids) :=
  inferInstanceAs (Decidable (∀ row ∈ db.tokens, ∀ other ∈ db.tokens, _ → _ → _ → _ → _))

/-- A store with the row of the token to be presented, and the roles of the rows that are there:
hashes are unique, the rows of the family belong to one user and tenant, and the family has at most
one live row in each role. -/
structure RefreshFamily where
  store : Store
  presented : ExtensionToken
  accessIds : List Uuid
  refreshIds : List Uuid
  mem : presented ∈ store.tokens
  hashUnique : ∀ row ∈ store.tokens, row.tokenHash = presented.tokenHash → row = presented
  owned : ∀ row ∈ store.tokens, row.familyId = presented.familyId →
    row.userId = presented.userId ∧ row.tenantId = presented.tenantId
  stored : ∀ id ∈ accessIds ++ refreshIds, ∃ row ∈ store.tokens, row.id = id
  oneAccess : store.OneLive presented.familyId accessIds
  oneRefresh : store.OneLive presented.familyId refreshIds

/-- At most one pair was minted from the token, and the family has at most one live row in each
role. -/
structure SingleUse (f : RefreshFamily) (w : World Store Event) : Prop where
  onePair : w.log.countP (mintsFrom f.presented.tokenHash) ≤ 1
  oneAccess : w.db.OneLive f.presented.familyId (f.accessIds ++ w.log.flatMap accessIds)
  oneRefresh : w.db.OneLive f.presented.familyId (f.refreshIds ++ w.log.flatMap refreshIds)

/-- The condition on a commit: a rotation revokes the family while the presented row is live. -/
def PresentedLive (event : Event) (_ : List Event) (w : World Store Event) : Prop :=
  match event with
  | .rotationRevoked presented _ => ∀ row ∈ w.db.tokens, row.id = presented.id → row.revokedAt = none
  | _ => True

instance (event : Event) (overlap : List Event) (w : World Store Event) :
    Decidable (PresentedLive event overlap w) := by
  unfold PresentedLive
  split <;> infer_instance

section Labels

variable {hashToken : String → String} {Q : Event → Prop}

def Event.Rotates (tokenHash : String) : Event → Prop
  | .cached => True
  | .familyRevoked _ => True
  | .rotationRevoked presented _ => presented.tokenHash = tokenHash
  | .issuedPair (some presented) _ _ _ => presented.tokenHash = tokenHash
  | _ => False

variable {userId rls : Uuid} {oldRow : ExtensionToken} {cnfJkt : String}

theorem labelled_withUserTenantRls {α : Type} {label : α → Event} {body : Uuid → Server (Except Thrown α)}
    (hbody : ∀ rls, (body rls).Labelled Q) (hlabel : ∀ result, Q (label result)) :
    (withUserTenantRls userId label body).Labelled Q := by
  refine walks_readOnly fun view ↦ ?_
  split
  · trivial
  · exact labelled_transaction (hbody _) hlabel

theorem labelled_createToken {row : ExtensionToken} : (createToken rls row).Labelled Q := by
  unfold createToken
  split
  · trivial
  · refine labelled_insert.bind fun clash ↦ ?_
    split <;> trivial

theorem labelled_makeRoom {now : Millis} {new : Nat} :
    (makeRoom rls userId now new).Labelled Q := by
  refine labelled_lockingRead.bind fun _ ↦ labelled_read fun view ↦ ?_
  extract_lets overCount
  split
  · exact labelled_updateMany.bind fun _ ↦ trivial
  · trivial

theorem labelled_issueIosToken {p : IssueIosParams}
    (hlabel : Q (.issuedPair p.source p.now (iosAccessRow hashToken p) (iosRefreshRow hashToken p))) :
    (issueIosToken hashToken p).Labelled Q := by
  refine labelled_withUserTenantRls (fun rls ↦ ?_) fun _ ↦ hlabel
  refine labelled_makeRoom.bind fun _ ↦ labelled_createToken.bind fun access ↦ ?_
  cases access with
  | error thrown => trivial
  | ok _ =>
    refine labelled_createToken.bind fun refresh ↦ ?_
    cases refresh <;> trivial

variable {req : MobileRefreshRequest}

theorem labelled_rotateIosPair :
    (rotateIosPair hashToken req oldRow cnfJkt).Labelled (Event.Rotates oldRow.tokenHash) := by
  refine .bind (labelled_withUserTenantRls (fun rls ↦ ?_) fun _ ↦ rfl) fun revoked ↦ ?_
  · exact labelled_updateMany.bind fun _ ↦ trivial
  cases revoked with
  | error thrown => trivial
  | ok count =>
    refine .bind (labelled_issueIosToken (show oldRow.tokenHash = _ from rfl)) fun issued ↦ ?_
    cases issued with
    | error thrown => trivial
    | ok token => exact (labelled_assign trivial).bind fun _ ↦ trivial

theorem labelled_refreshIosToken :
    (refreshIosToken hashToken req oldRow cnfJkt).Labelled (Event.Rotates oldRow.tokenHash) := by
  have hrevoke (refusal : RefreshRefusal) : Prog.Labelled (Event.Rotates oldRow.tokenHash)
      (do let _ ← revokeExtensionTokenFamily oldRow.familyId req.familyRevokedAt
          return RefreshOutcome.refused refusal) := by
    refine .bind (labelled_transaction ?_ fun _ ↦ trivial) fun _ ↦ trivial
    exact labelled_updateMany.bind fun _ ↦ trivial
  unfold refreshIosToken
  split
  · refine walks_readOnly fun view ↦ ?_
    split
    · split
      · trivial
      · exact hrevoke _
    · exact hrevoke _
  split
  · exact hrevoke _
  refine walks_readOnly fun view ↦ ?_
  split
  · trivial
  split
  · trivial
  · exact labelled_rotateIosPair

theorem labelled_mobileTokenRefresh {token : String} (hbody : req.body = .refreshToken token) :
    (mobileTokenRefresh hashToken req).Labelled (Event.Rotates (hashToken token)) := by
  unfold mobileTokenRefresh
  rw [hbody]
  simp only
  split_ifs
  · trivial
  · trivial
  refine walks_readOnly fun view ↦ ?_
  split
  · trivial
  rename_i oldRow hfind
  have hhash : oldRow.tokenHash = hashToken token := by simpa using find?_some hfind
  rw [← hhash]
  unfold refreshFoundRow
  split
  · trivial
  refine walks_readOnly fun view ↦ ?_
  split
  · trivial
  split
  · trivial
  split_ifs
  all_goals first
    | trivial
    | exact labelled_refreshIosToken

end Labels

section Stages

variable {hashToken : String → String} {held : Locks} {overlap : List Event}
  {w : World Store Event} {event : Event} {db : Store} {f : RefreshFamily}

/-- What no request changes: the presented row stays the only one with its hash, the rows of the
family keep their owner, and the rows with a role stay in the table. -/
structure Identified (f : RefreshFamily) (w : World Store Event) : Prop where
  presented : ∃ row ∈ w.db.tokens, f.presented.Becomes row
  hashUnique : ∀ row ∈ w.db.tokens, row.tokenHash = f.presented.tokenHash → f.presented.Becomes row
  owned : ∀ row ∈ w.db.tokens, row.familyId = f.presented.familyId →
    row.userId = f.presented.userId ∧ row.tenantId = f.presented.tenantId
  stored : ∀ id ∈ f.accessIds ++ f.refreshIds, ∃ row ∈ w.db.tokens, row.id = id

theorem identified_start (f : RefreshFamily) : Identified f ⟨f.store, []⟩ where
  presented := ⟨f.presented, f.mem, .refl _⟩
  hashUnique row hrow hhash := f.hashUnique row hrow hhash ▸ .refl _
  owned := f.owned
  stored := f.stored

theorem Identified.same (h : Identified f w) {token : ExtensionToken}
    (hhash : token.tokenHash = f.presented.tokenHash) (hrow : ∃ row ∈ w.db.tokens, token.Becomes row) :
    token.id = f.presented.id ∧ token.familyId = f.presented.familyId ∧
      token.userId = f.presented.userId ∧ token.tenantId = f.presented.tenantId := by
  obtain ⟨row, hmem, hbecomes⟩ := hrow
  have hpresented := h.hashUnique row hmem (hbecomes.tokenHash_eq.trans hhash)
  exact ⟨hbecomes.id_eq.symm.trans hpresented.id_eq, hbecomes.familyId_eq.symm.trans hpresented.familyId_eq,
    hbecomes.userId_eq.symm.trans hpresented.userId_eq,
    hbecomes.tenantId_eq.symm.trans hpresented.tenantId_eq⟩

theorem Effect.minted_row (h : Effect hashToken held overlap w event db) (hw : Identified f w)
    (hevent : event.Rotates f.presented.tokenHash) {row : ExtensionToken} (hrow : row ∈ event.minted) :
    row.tokenHash ≠ f.presented.tokenHash ∧ row.userId = f.presented.userId ∧
      row.tenantId = f.presented.tenantId := by
  refine ⟨fun hhash ↦ ?_, ?_⟩
  · obtain ⟨old, hold, hbecomes⟩ := hw.presented
    exact (h.fresh row hrow old hold).2 (hbecomes.tokenHash_eq.trans hhash.symm)
  · cases event with
    | issuedPair source issuedAt access refresh =>
      cases source with
      | none => exact hevent.elim
      | some presented =>
        obtain ⟨p, -, -, rfl, rfl, hsource⟩ := h.describes
        obtain ⟨-, huser, htenant, hstored, -⟩ := hsource presented rfl
        obtain ⟨-, -, husers, htenants⟩ := hw.same hevent hstored
        simp only [minted, mem_cons, not_mem_nil, or_false] at hrow
        rcases hrow with rfl | rfl
        · exact ⟨huser.trans husers, htenant.trans htenants⟩
        · exact ⟨huser.trans husers, htenant.trans htenants⟩
    | _ => simp [minted, Event.Rotates] at hrow hevent

theorem Effect.identified (h : Effect hashToken held overlap w event db) (hw : Identified f w)
    (hevent : event.Rotates f.presented.tokenHash) : Identified f (w.commit event db) where
  presented := by
    obtain ⟨old, hold, hbecomes⟩ := hw.presented
    obtain ⟨row, hrow, hnext⟩ := h.advances.forth old hold
    exact ⟨row, hrow, hbecomes.trans hnext⟩
  hashUnique row hrow hhash := by
    rcases h.advances.back row hrow with ⟨old, hold, hbecomes⟩ | hnew
    · exact (hw.hashUnique old hold (hbecomes.tokenHash_eq.symm.trans hhash)).trans hbecomes
    · exact absurd hhash (h.minted_row hw hevent hnew).1
  owned row hrow hfamily := by
    rcases h.advances.back row hrow with ⟨old, hold, hbecomes⟩ | hnew
    · rw [hbecomes.userId_eq, hbecomes.tenantId_eq]
      exact hw.owned old hold (hbecomes.familyId_eq.symm.trans hfamily)
    · exact (h.minted_row hw hevent hnew).2
  stored id hid := by
    obtain ⟨old, hold, rfl⟩ := hw.stored id hid
    obtain ⟨row, hrow, hbecomes⟩ := h.advances.forth old hold
    exact ⟨row, hrow, hbecomes.id_eq⟩

inductive Stage (f : RefreshFamily) (w : World Store Event) : Prop
  | unrotated (hmint : ∀ event ∈ w.log, event.minted = [])
      (hrevoked : ∀ presented accessId, .rotationRevoked presented accessId ∉ w.log)
      (hlive : ∀ row ∈ w.db.tokens, row.LiveIn f.presented.familyId → row ∈ f.store.tokens)
  | revoked (accessId : Uuid) (hmint : ∀ event ∈ w.log, event.minted = [])
      (hrevoked : ∀ presented id, .rotationRevoked presented id ∈ w.log → id = accessId)
      (hdead : ∀ row ∈ w.db.tokens, ¬ row.LiveIn f.presented.familyId)
  | issued (access refresh : ExtensionToken)
      (hcount : w.log.countP (mintsFrom f.presented.tokenHash) ≤ 1)
      (hmint : ∀ event ∈ w.log, event.minted = [] ∨
        ∃ source issuedAt, event = .issuedPair source issuedAt access refresh)
      (hrevoked : ∀ presented id, .rotationRevoked presented id ∈ w.log → id = access.id)
      (hlive : ∀ row ∈ w.db.tokens, row.LiveIn f.presented.familyId → row = access ∨ row = refresh)
      (hhash : ∀ row ∈ [access, refresh], row.tokenHash ≠ f.presented.tokenHash ∧
        row.id ∉ f.accessIds ++ f.refreshIds)
      (hdistinct : access.id ≠ refresh.id)
      (hstored : ∃ row ∈ w.db.tokens, row.id = access.id)

variable {tokenHash : String} {presented : ExtensionToken} {first : List Uuid} {role : Event → List Uuid}

theorem mintsFrom_of_quiet (hminted : event.minted = []) :
    event.mintsFrom tokenHash = false := by
  cases event with
  | issuedPair source issuedAt access refresh => simp [minted] at hminted
  | _ => rfl

theorem countP_mintsFrom (hmint : ∀ event ∈ w.log, event.minted = []) :
    w.log.countP (mintsFrom tokenHash) = 0 := by
  rw [countP_eq_zero]
  intro event hevent
  simp [mintsFrom_of_quiet (hmint event hevent)]

theorem Stage.quiet (hstage : Stage f w) (h : Effect hashToken held overlap w event db)
    (hminted : event.minted = []) (hrotation : ∀ presented id, event ≠ .rotationRevoked presented id) :
    Stage f (w.commit event db) := by
  have hback (row : ExtensionToken) (hrow : row ∈ db.tokens) (hlive : row.revokedAt = none) : row ∈ w.db.tokens := by
    refine (h.mem_of_live hrow hlive).resolve_right ?_
    simp [hminted]
  have hlog (presented : ExtensionToken) (id : Uuid)
      (hmem : .rotationRevoked presented id ∈ event :: w.log) : .rotationRevoked presented id ∈ w.log :=
    (mem_cons.mp hmem).resolve_left (hrotation presented id).symm
  have hquiet (other : Event) (hmem : other ∈ event :: w.log) : other.minted = [] ∨ other ∈ w.log := by
    rcases mem_cons.mp hmem with rfl | hold
    · exact .inl hminted
    · exact .inr hold
  cases hstage with
  | unrotated hmint hrevoked hlive =>
    exact .unrotated (fun other hmem ↦ (hquiet other hmem).elim (fun h ↦ h) (hmint other))
      (fun presented id hmem ↦ hrevoked presented id (hlog presented id hmem))
      fun row hrow hrowLive ↦ hlive row (hback row hrow hrowLive.2) hrowLive
  | revoked accessId hmint hrevoked hdead =>
    exact .revoked accessId (fun other hmem ↦ (hquiet other hmem).elim (fun h ↦ h) (hmint other))
      (fun presented id hmem ↦ hrevoked presented id (hlog presented id hmem))
      fun row hrow hrowLive ↦ hdead row (hback row hrow hrowLive.2) hrowLive
  | issued access refresh hcount hmint hrevoked hlive hhash hdistinct hstored =>
    refine .issued access refresh ?_ (fun other hmem ↦ (hquiet other hmem).elim .inl (hmint other))
      (fun presented id hmem ↦ hrevoked presented id (hlog presented id hmem))
      (fun row hrow hrowLive ↦ hlive row (hback row hrow hrowLive.2) hrowLive) hhash hdistinct ?_
    · rw [World.commit_log, countP_cons_of_neg (by simp [mintsFrom_of_quiet hminted])]
      exact hcount
    · obtain ⟨old, hold, hid⟩ := hstored
      obtain ⟨row, hrow, hbecomes⟩ := h.advances.forth old hold
      exact ⟨row, hrow, hbecomes.id_eq.trans hid⟩

theorem Stage.rotationRevoked {accessId : Uuid} (hstage : Stage f w)
    (h : Effect hashToken held overlap w (.rotationRevoked presented accessId) db) (hoverlap : overlap ⊆ w.log)
    (hw : Identified f w) (hhash : presented.tokenHash = f.presented.tokenHash)
    (hallowed : PresentedLive (.rotationRevoked presented accessId) overlap w) :
    Stage f (w.commit (.rotationRevoked presented accessId) db) := by
  obtain ⟨-, hfamily, huser, htenant⟩ := hw.same hhash h.describes
  obtain ⟨row, hrow, hbecomes⟩ := h.describes
  have hrowLive : row.LiveIn f.presented.familyId :=
    ⟨hbecomes.familyId_eq.trans hfamily, hallowed row hrow hbecomes.id_eq⟩
  cases hstage with
  | unrotated hmint hrevoked hlive =>
    refine .revoked accessId ?_ ?_ ?_
    · intro other hmem
      rcases mem_cons.mp hmem with rfl | hold
      · rfl
      · exact hmint other hold
    · intro other id hmem
      rcases mem_cons.mp hmem with heq | hold
      · cases heq
        rfl
      · exact absurd hold (hrevoked other id)
    · rintro dead hdead ⟨hdeadFamily, hdeadLive⟩
      obtain ⟨revoked, time, cache, rfl, hcovers⟩ := h.write
      have hcovered := hcovers presented accessId rfl fun other hmem row hrow ↦ by
        simp [hmint other (hoverlap hmem)] at hrow
      rcases h.advances.back dead hdead with ⟨old, hold, holdBecomes⟩ | hnew
      · obtain ⟨holdUser, holdTenant⟩ := hw.owned old hold (holdBecomes.familyId_eq.symm.trans hdeadFamily)
        exact hcovered.dead hdead (hdeadFamily.trans hfamily.symm)
          (holdBecomes.userId_eq.trans (holdUser.trans huser.symm))
          (holdBecomes.tenantId_eq.trans (holdTenant.trans htenant.symm)) hdeadLive
      · simp [minted] at hnew
  | revoked _ _ _ hdead => exact absurd hrowLive (hdead row hrow)
  | issued access refresh _ _ _ hlive hpair _ _ =>
    have hrowHash : row.tokenHash = f.presented.tokenHash := hbecomes.tokenHash_eq.trans hhash
    rcases hlive row hrow hrowLive with rfl | rfl
    · exact absurd hrowHash (hpair row (by simp)).1
    · exact absurd hrowHash (hpair row (by simp)).1

theorem Stage.issuedPair {access refresh : ExtensionToken} {issuedAt : Millis} (hstage : Stage f w)
    (h : Effect hashToken held overlap w (.issuedPair (some presented) issuedAt access refresh) db)
    (hw : Identified f w) (hhash : presented.tokenHash = f.presented.tokenHash) :
    Stage f (w.commit (.issuedPair (some presented) issuedAt access refresh) db) := by
  obtain ⟨p, -, -, -, -, hsource⟩ := h.describes
  obtain ⟨-, -, -, -, hlog⟩ := hsource presented rfl
  cases hstage with
  | unrotated hmint hrevoked hlive => exact absurd hlog (hrevoked presented access.id)
  | revoked accessId hmint hrevoked hdead =>
    have hfresh (row : ExtensionToken) (hrow : row ∈ [access, refresh]) :
        row.tokenHash ≠ f.presented.tokenHash ∧ row.id ∉ f.accessIds ++ f.refreshIds := by
      refine ⟨(h.minted_row hw hhash hrow).1, fun hid ↦ ?_⟩
      obtain ⟨old, hold, holdId⟩ := hw.stored row.id hid
      exact (h.fresh row hrow old hold).1 holdId
    refine .issued access refresh ?_ ?_ ?_ ?_ hfresh ?_ ?_
    · rw [World.commit_log, countP_cons, countP_mintsFrom hmint]
      split <;> simp
    · intro other hmem
      rcases mem_cons.mp hmem with rfl | hold
      · exact .inr ⟨_, _, rfl⟩
      · exact .inl (hmint other hold)
    · intro other id hmem
      have hold := (mem_cons.mp hmem).resolve_left (by simp)
      rw [hrevoked other id hold, hrevoked presented access.id hlog]
    · intro row hrow hrowLive
      rcases h.mem_of_live hrow hrowLive.2 with hold | hnew
      · exact absurd hrowLive (hdead row hold)
      · simpa [minted] using hnew
    · exact (pairwise_pair.mp h.distinct).1
    · exact ⟨access, h.mem_of_minted (by simp [minted]), rfl⟩
  | issued first _ _ _ hrevoked _ _ _ hstored =>
    obtain ⟨old, hold, hid⟩ := hstored
    have hsame : old.id = access.id := hid.trans (hrevoked presented access.id hlog).symm
    exact absurd hsame (h.fresh access (by simp [minted]) old hold).1

theorem Stage.step (hstage : Stage f w) (h : Effect hashToken held overlap w event db)
    (hoverlap : overlap ⊆ w.log) (hw : Identified f w) (hevent : event.Rotates f.presented.tokenHash)
    (hallowed : PresentedLive event overlap w) : Stage f (w.commit event db) := by
  cases event with
  | cached | familyRevoked familyId => exact hstage.quiet h rfl nofun
  | rotationRevoked presented accessId => exact hstage.rotationRevoked h hoverlap hw hevent hallowed
  | issuedPair source issuedAt access refresh =>
    cases source with
    | none => exact hevent.elim
    | some presented => exact hstage.issuedPair h hw hevent
  | _ => exact hevent.elim

theorem mem_ids_of_quiet {id : Uuid} (hrole : ∀ event : Event, event.minted = [] → role event = [])
    (hmint : ∀ event ∈ w.log, event.minted = []) (hid : id ∈ first ++ w.log.flatMap role) :
    id ∈ first := by
  refine (mem_append.mp hid).resolve_right fun hnew ↦ ?_
  obtain ⟨event, hevent, hmem⟩ := mem_flatMap.mp hnew
  simp [hrole event (hmint event hevent)] at hmem

theorem Stage.oneLive (hstage : Stage f w) (hrole : ∀ event : Event, event.minted = [] → role event = [])
    (hpair : ∀ access refresh : ExtensionToken, ∃ row ∈ [access, refresh],
      ∀ source issuedAt, role (.issuedPair source issuedAt access refresh) = [row.id])
    (hfirst : f.store.OneLive f.presented.familyId first) (hsubset : first ⊆ f.accessIds ++ f.refreshIds) :
    w.db.OneLive f.presented.familyId (first ++ w.log.flatMap role) := by
  intro row hrow other hother hrowLive hotherLive hrowId hotherId
  cases hstage with
  | unrotated hmint hrevoked hlive =>
    exact hfirst row (hlive row hrow hrowLive) other (hlive other hother hotherLive) hrowLive
      hotherLive (mem_ids_of_quiet hrole hmint hrowId) (mem_ids_of_quiet hrole hmint hotherId)
  | revoked accessId hmint hrevoked hdead => exact absurd hrowLive (hdead row hrow)
  | issued access refresh hcount hmint hrevoked hlive hfresh hdistinct hstored =>
    obtain ⟨minted, hminted, hpairRole⟩ := hpair access refresh
    -- a live row in the role has the id that the pair has in this role
    have hid (live : ExtensionToken) (hmem : live = access ∨ live = refresh)
        (hrowId : live.id ∈ first ++ w.log.flatMap role) : live = minted := by
      have hnew := (mem_append.mp hrowId).resolve_left
        fun hold ↦ (hfresh live (by simpa using hmem)).2 (hsubset hold)
      obtain ⟨event, hevent, hidMem⟩ := mem_flatMap.mp hnew
      have hlistId : live.id = minted.id := by
        rcases hmint event hevent with hnone | ⟨source, issuedAt, rfl⟩
        · simp [hrole event hnone] at hidMem
        · simpa [hpairRole source issuedAt] using hidMem
      have hmintedMem : minted = access ∨ minted = refresh := by simpa using hminted
      rcases hmem with rfl | rfl <;> rcases hmintedMem with rfl | rfl
      · rfl
      · exact absurd hlistId hdistinct
      · exact absurd hlistId.symm hdistinct
      · rfl
    rw [hid row (hlive row hrow hrowLive) hrowId, hid other (hlive other hother hotherLive) hotherId]

theorem Stage.singleUse (hstage : Stage f w) : SingleUse f w where
  onePair := by
    have hzero (hmint : ∀ event ∈ w.log, event.minted = []) :
        w.log.countP (mintsFrom f.presented.tokenHash) ≤ 1 := by
      rw [countP_mintsFrom hmint]
      exact Nat.zero_le 1
    cases hstage with
    | unrotated hmint _ _ | revoked _ hmint _ _ => exact hzero hmint
    | issued _ _ hcount _ _ _ _ _ _ => exact hcount
  oneAccess := hstage.oneLive (by rintro (_ | _ | _ | _ | _ | _ | _ | _) h <;> simp_all [minted, accessIds])
    (fun access _ ↦ ⟨access, by simp, fun _ _ ↦ rfl⟩) f.oneAccess (subset_append_left _ _)
  oneRefresh := hstage.oneLive (by rintro (_ | _ | _ | _ | _ | _ | _ | _) h <;> simp_all [minted, refreshIds])
    (fun _ refresh ↦ ⟨refresh, by simp, fun _ _ ↦ rfl⟩) f.oneRefresh (subset_append_right _ _)

end Stages

/-- In every run of refresh requests that present the same token, if every rotation revokes the
family while the presented row is live, at most one pair is minted from the token, and the family
has at most one live access row and one live refresh row. -/
theorem refresh_singleUse {ι : Type} [DecidableEq ι] (hashToken : String → String) (token : String)
    (f : RefreshFamily) (hpresented : f.presented.tokenHash = hashToken token)
    (requests : ι → MobileRefreshRequest) (hbody : ∀ i, (requests i).body = .refreshToken token)
    {s : State ι Store Lock Event RefreshOutcome}
    (hrun : Run PresentedLive (State.start ⟨f.store, []⟩ fun i ↦ mobileTokenRefresh hashToken (requests i)) s) :
    SingleUse f s.world := by
  have houtline (i : ι) : Respects ((contract hashToken PresentedLive).labelled (Event.Rotates f.presented.tokenHash))
      (mobileTokenRefresh hashToken (requests i)) ⟨f.store, []⟩ := by
    rw [hpresented]
    exact (outline_mobileTokenRefresh ⟨rfl, fun _ h ↦ nomatch h⟩).labelled (labelled_mobileTokenRefresh (hbody i))
  have hinvariant : Identified f s.world ∧ Stage f s.world := by
    refine Run.invariant (fun w ↦ Identified f w ∧ Stage f w) hrun houtline ⟨identified_start f, ?_⟩ ?_
    · exact .unrotated (by simp) (by simp) fun row hrow _ ↦ hrow
    · rintro held w event db ⟨hw, hstage⟩ ⟨⟨overlap, hoverlap, hallowed, heffect⟩, hevent⟩
      exact ⟨heffect.identified hw hevent, hstage.step heffect hoverlap hw hevent hallowed⟩
  exact hinvariant.2.singleUse

def oneMember : Directory where
  members := [⟨1, 1, none⟩]
  tenants := [⟨⟨1, false, none, none⟩, 15, 60⟩]
  sessions := [⟨1, 1, 100000⟩]
  credentialOwners := []

/-- A row of family `7`. -/
def familyRow (id : Uuid) (tokenHash : String) : ExtensionToken where
  id := id
  userId := 1
  tenantId := 1
  tokenHash := tokenHash
  scope := "passwords:read"
  expiresAt := 1000
  createdAt := 0
  revokedAt := none
  familyId := 7
  familyCreatedAt := 0
  clientKind := .iosApp
  cnfJkt := some "jkt"

/-- A plaintext of the length that the route asks for. -/
def refreshPlaintext : String := String.ofList (replicate 64 'R')

/-- One pair: the access token `10` and the refresh token `20`. -/
def iosPair : RefreshFamily where
  store := ⟨[familyRow 10 "A", familyRow 20 refreshPlaintext], [], oneMember⟩
  presented := familyRow 20 refreshPlaintext
  accessIds := [10]
  refreshIds := [20]
  mem := by decide
  hashUnique := by decide
  owned := by decide
  stored := by decide
  oneAccess := by decide
  oneRefresh := by decide

/-- Two requests that present the refresh token. -/
def twoRefreshes (i : Bool) : MobileRefreshRequest where
  body := .refreshToken refreshPlaintext
  bodyHash := "body"
  bearer := some refreshPlaintext
  accessAllowed := true
  withinRateLimit := true
  dpopValid := true
  now := 1
  familyRevokedAt := 1
  passkeyCheckedAt := 1
  issuedAt := 2
  newFamilyId := 9
  access := ⟨if i then 11 else 12, 2, if i then "a" else "b"⟩
  refresh := ⟨if i then 21 else 22, 2, if i then "r" else "q"⟩

/-- The two requests before their first statement. -/
def twoRefreshesStart : State Bool Store Lock Event RefreshOutcome :=
  State.start ⟨iosPair.store, []⟩ fun i ↦ mobileTokenRefresh id (twoRefreshes i)

/-- Without the condition the property fails: both requests read the live row and revoke the family,
and then both issue a pair; two refresh rows of the family stay live after both have finished. -/
theorem refresh_not_singleUse : ¬ ∀ (f : RefreshFamily) (requests : Bool → MobileRefreshRequest)
      (s : State Bool Store Lock Event RefreshOutcome),
      f.presented.tokenHash = refreshPlaintext →
      (∀ i, (requests i).body = .refreshToken refreshPlaintext) →
      Run (fun _ _ _ ↦ True) (State.start ⟨f.store, []⟩ fun i ↦ mobileTokenRefresh id (requests i)) s →
      SingleUse f s.world := by
  intro h
  obtain ⟨s, hrun, -, hlive⟩ := Run.exists_of_schedule twoRefreshesStart
    (fun w ↦ w.log.countP (Event.mintsFrom refreshPlaintext) = 2 ∧
      ¬ w.db.OneLive 7 (iosPair.refreshIds ++ w.log.flatMap Event.refreshIds))
    [(2, false), (11, true), (9, false), (9, true), (11, false)]
  exact hlive (h iosPair twoRefreshes s rfl (fun _ ↦ rfl) hrun).oneRefresh

/-- The condition can be met: one request rotates the token, and the other one finds it revoked and
gets the pair from the cache. -/
theorem refresh_singleUse_pair : ∃ s, Run PresentedLive twoRefreshesStart s ∧
      s.world.log.countP (Event.mintsFrom refreshPlaintext) = 1 ∧ SingleUse iosPair s.world := by
  obtain ⟨s, hrun, hpair⟩ := Run.exists_of_schedule twoRefreshesStart
    (fun w ↦ w.log.countP (Event.mintsFrom refreshPlaintext) = 1)
    [(20, true), (6, false)] PresentedLive
  exact ⟨s, hrun, hpair, refresh_singleUse id refreshPlaintext iosPair rfl twoRefreshes (fun _ ↦ rfl) hrun⟩

end PasswdSso.Extension
