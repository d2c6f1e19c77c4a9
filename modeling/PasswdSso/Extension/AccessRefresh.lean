import PasswdSso.Extension.Lifetime

/-!
# Which tokens `POST /api/mobile/token/refresh` accepts

A pair has an access row and a refresh row in one table, with the same scope, kind, family and key
binding. The route decides from the row alone, so it cannot tell the two apart: an access token that
is presented in the place of the refresh token mints a new pair (`accessToken_refreshes`).
`Refreshable` is what the route asks for. In every store that token operations can reach, a request
that presents an access token of a pair is refused exactly when `Refreshable` fails
(`accessToken_refused_iff`); neither the role of the row nor its expiry takes part in it.
-/

namespace PasswdSso.Extension

open ReadCommitted Passkey Prog RefreshOutcome

/-- The answer hands out a pair. -/
def RefreshOutcome.issues : RefreshOutcome → Bool
  | .issued _ _ => true
  | _ => false

variable (hashToken : String → String) (req : MobileRefreshRequest)

def Store.taken (db : Store) (draw : Draw) : Bool :=
  db.tokens.any fun other ↦ other.id = draw.id || other.tokenHash = hashToken draw.plaintext

/-- The gates of the route that a request presenting `token` passes before the rotation. -/
structure Admitted (token : String) (row : ExtensionToken) (db : Store) : Prop where
  shape : validRefreshToken token = true
  bearer : req.bearer = some token
  member : activeMember db.directory.members row.tenantId row.userId = true
  binding : ∃ cnfJkt, row.cnfJkt = some cnfJkt ∧ cnfJkt ≠ ""
  access : req.accessAllowed = true
  rateLimit : req.withinRateLimit = true
  dpop : req.dpopValid = true

structure FreshPair (access refresh : Draw) (db : Store) : Prop where
  accessFree : db.taken hashToken access = false
  refreshFree : db.taken hashToken refresh = false
  idsDiffer : access.id ≠ refresh.id
  hashesDiffer : hashToken access.plaintext ≠ hashToken refresh.plaintext

structure Rotatable (row : ExtensionToken) (db : Store) : Prop where
  live : row.revokedAt = none
  age : req.now - row.familyCreatedAt ≤ iosTokenAbsoluteTimeoutMs
  passkey : ∃ state, derivePasskeyState db.directory.credentialOwners
    (db.directory.tenants.map (·.passkey)) row.userId row.tenantId = some state ∧
      passkeyEnforcementBlocks state req.passkeyCheckedAt = false
  tenant : resolveUserTenantId db.directory.members row.userId = .ok row.tenantId
  fresh : FreshPair hashToken req.access req.refresh db

/-- The presented row is revoked, and the request repeats the one that rotated it. -/
def Repeated (row : ExtensionToken) (db : Store) : Prop :=
  row.revokedAt ≠ none ∧ ∃ cached, cachedRotation db row.tokenHash = some cached ∧
    req.now - cached.issuedAt ≤ refreshReplayGraceMs ∧ cached.bodyHash = req.bodyHash

/-- What the route asks for. -/
def Refreshable (token : String) (row : ExtensionToken) (db : Store) : Prop :=
  Admitted req token row db ∧ (Rotatable hashToken req row db ∨ Repeated req row db)

section Alone

variable {hashToken req} {w : World Store Event} {rls : Uuid}

theorem exec_createToken (rls : Uuid) (row : ExtensionToken) (pending : Store → Store)
    (w : World Store Event) : (createToken rls row).exec pending w =
      if row.tenantId ≠ rls then (.error .rowLevelSecurity, pending, w)
      else if (pending w.db).tokens.any (fun other ↦ other.id = row.id || other.tokenHash = row.tokenHash)
      then (.error .uniqueViolation, pending, w)
      else (.ok (), tokenTable.append [row] ∘ pending, w) := by
  unfold createToken
  split_ifs with htenant hclash
  · rfl
  · simp [hclash]
  · simp [hclash]

theorem exec_makeRoom (rls userId : Uuid) (now : Millis) (new : Nat) (w : World Store Event) :
    ∃ revoked, (makeRoom rls userId now new).exec id w = ((), tokenTable.modify revoked (.revoke now), w) := by
  have hrevoke (full : Prop) [Decidable full] (sel : ExtensionToken → Bool) : ∃ revoked, Prog.exec (if full then do
        let _ ← Prog.updateMany tokenTable .token sel (.revoke now)
        else (pure () : Server Unit)) id w = ((), tokenTable.modify revoked (.revoke now), w) := by
    by_cases hfull : full
    · rw [if_pos hfull]
      exact ⟨_, rfl⟩
    · rw [if_neg hfull]
      exact ⟨[], by simp⟩
  exact hrevoke _ _

@[simp] theorem taken_modify (keys : List Uuid) (time : Millis) (db : Store) (draw : Draw) :
    Store.taken hashToken (tokenTable.modify keys (.revoke time) db) draw = db.taken hashToken draw := by
  have hrow (row : ExtensionToken) : (if row.id ∈ keys then row.revoke time else row).id = row.id ∧
        (if row.id ∈ keys then row.revoke time else row).tokenHash = row.tokenHash := by
    split_ifs <;> exact ⟨rfl, rfl⟩
  simp [Store.taken, Function.comp_def, hrow]

theorem freshPair_congr {db db' : Store} {access refresh : Draw}
    (h : ∀ draw, db'.taken hashToken draw = db.taken hashToken draw) :
    FreshPair hashToken access refresh db' ↔ FreshPair hashToken access refresh db :=
  ⟨fun hfresh ↦ ⟨h access ▸ hfresh.accessFree, h refresh ▸ hfresh.refreshFree, hfresh.idsDiffer, hfresh.hashesDiffer⟩,
    fun hfresh ↦ ⟨(h access).trans hfresh.accessFree, (h refresh).trans hfresh.refreshFree,
      hfresh.idsDiffer, hfresh.hashesDiffer⟩⟩

theorem taken_append (db : Store) (row : ExtensionToken) (draw : Draw) :
    Store.taken hashToken (tokenTable.append [row] db) draw = false ↔
      db.taken hashToken draw = false ∧ row.id ≠ draw.id ∧ row.tokenHash ≠ hashToken draw.plaintext := by
  simp [Store.taken]

variable {row : ExtensionToken} {cnfJkt : String}

theorem exec_createDrawn (hashToken : String → String) (draw : Draw) (hid : row.id = draw.id)
    (hhash : row.tokenHash = hashToken draw.plaintext) (pending : Store → Store) (w : World Store Event) :
    (createToken row.tenantId row).exec pending w =
      if (pending w.db).taken hashToken draw then (.error .uniqueViolation, pending, w)
      else (.ok (), tokenTable.append [row] ∘ pending, w) := by
  rw [exec_createToken, if_neg (not_not_intro rfl), hid, hhash]
  rfl

theorem exec_issueIosBody (p : IssueIosParams) (w : World Store Event) :
    (∃ issued, ((issueIosBody hashToken p p.tenantId).exec id w).1 = .ok issued) ↔
      FreshPair hashToken p.access p.refresh w.db := by
  obtain ⟨revoked, hroom⟩ := exec_makeRoom p.tenantId p.userId p.now 2 w
  have haccess : (createToken p.tenantId (iosAccessRow hashToken p)).exec
      (tokenTable.modify revoked (.revoke p.now)) w = _ :=
    exec_createDrawn hashToken p.access rfl rfl _ w
  have hrefresh : (createToken p.tenantId (iosRefreshRow hashToken p)).exec
      (tokenTable.append [iosAccessRow hashToken p] ∘ tokenTable.modify revoked (.revoke p.now)) w = _ :=
    exec_createDrawn hashToken p.refresh rfl rfl _ w
  rw [taken_modify] at haccess
  unfold issueIosBody
  rw [exec_bind, hroom, exec_bind]
  dsimp only
  rw [haccess]
  by_cases htaken : w.db.taken hashToken p.access = true
  · simp only [if_pos htaken, exec_pure, reduceCtorEq, exists_false, false_iff]
    exact fun hfresh ↦ by simp [hfresh.accessFree] at htaken
  rw [if_neg htaken]
  dsimp only
  rw [exec_bind, hrefresh]
  have hfree : (tokenTable.append [iosAccessRow hashToken p]
      (tokenTable.modify revoked (.revoke p.now) w.db)).taken hashToken p.refresh = false ↔
        FreshPair hashToken p.access p.refresh w.db := by
    rw [taken_append, taken_modify]
    exact ⟨fun h ↦ ⟨by simpa using htaken, h.1, h.2.1, h.2.2⟩,
      fun h ↦ ⟨h.refreshFree, h.idsDiffer, h.hashesDiffer⟩⟩
  rw [← hfree]
  split_ifs with hclash
  · simpa using hclash
  · simpa using hclash

section Rls

variable {α : Type} {userId : Uuid} {label : α → Event} {body : Uuid → Server (Except Thrown α)}

theorem exec_withUserTenantRls_error {error : TenantError}
    (h : resolveUserTenantId w.db.directory.members userId = .error error) :
    (withUserTenantRls userId label body).exec id w = (.error (.tenant error), id, w) := by
  simp [withUserTenantRls, h]

theorem exec_withUserTenantRls_ok (h : resolveUserTenantId w.db.directory.members userId = .ok rls) :
    (withUserTenantRls userId label body).exec id w = (Prog.transaction label (body rls)).exec id w := by
  simp [withUserTenantRls, h]

end Rls

theorem exec_issueIosToken {p : IssueIosParams}
    (h : resolveUserTenantId w.db.directory.members p.userId = .ok p.tenantId) :
    (∃ issued, ((issueIosToken hashToken p).exec id w).1 = .ok issued) ↔
      FreshPair hashToken p.access p.refresh w.db := by
  rw [issueIosToken, exec_withUserTenantRls_ok h, exec_transaction_fst]
  exact exec_issueIosBody p w

theorem exec_rotateIosPair (hactive : activeMember w.db.directory.members row.tenantId row.userId = true) :
    ((rotateIosPair hashToken req row cnfJkt).exec id w).1.issues = true ↔
      resolveUserTenantId w.db.directory.members row.userId = .ok row.tenantId ∧
        FreshPair hashToken req.access req.refresh w.db := by
  unfold rotateIosPair
  rw [exec_bind]
  cases hresolve : resolveUserTenantId w.db.directory.members row.userId with
  | error error =>
    rw [exec_withUserTenantRls_error hresolve]
    simp [issues]
  | ok rls =>
    obtain rfl := resolveUserTenantId_eq hresolve hactive
    rw [exec_withUserTenantRls_ok hresolve, exec_transaction_ok (h := rfl)]
    simp only [exec_bind, exec_updateMany, exec_pure, Function.comp_id, true_and]
    -- the family is revoked; whether the pair can be issued depends on ids and hashes only
    generalize tokenTable.matched _ _ _ = keys
    refine Iff.trans ?_ ((exec_issueIosToken (p := rotationParams req row cnfJkt) (w := w.commit
      (.rotationRevoked row req.access.id) (tokenTable.modify keys (.revoke req.now) w.db))
        hresolve).trans (freshPair_congr (taken_modify keys req.now w.db)))
    generalize Prog.exec (issueIosToken hashToken _) id _ = answer
    obtain ⟨thrown | issued, pending, after⟩ := answer
    · simp [issues]
    · simp [issues]

theorem exec_refused (row : ExtensionToken) (refusal : RefreshRefusal) :
    (Prog.exec (do let _ ← revokeExtensionTokenFamily row.familyId req.familyRevokedAt
                   return refused refusal) id w).1.issues = false := by
  simp [issues]

theorem exec_refreshIosToken_revoked (hrevoked : row.revokedAt ≠ none) :
    ((refreshIosToken hashToken req row cnfJkt).exec id w).1.issues = true ↔ Repeated req row w.db := by
  unfold refreshIosToken
  rw [if_pos (Option.isSome_iff_ne_none.mpr hrevoked), exec_bind, exec_readOnly]
  dsimp only [id]
  cases hcached : cachedRotation w.db row.tokenHash with
  | none =>
    dsimp only
    rw [exec_refused]
    simp [Repeated, hcached]
  | some cached =>
    dsimp only
    split_ifs with hmatch
    · exact iff_of_true rfl ⟨hrevoked, cached, hcached, hmatch⟩
    · rw [exec_refused]
      refine iff_of_false Bool.false_ne_true fun ⟨_, other, hother, hsame⟩ ↦ ?_
      cases hcached.symm.trans hother
      exact hmatch hsame

theorem exec_refreshIosToken_live (hlive : row.revokedAt = none)
    (hactive : activeMember w.db.directory.members row.tenantId row.userId = true) :
    ((refreshIosToken hashToken req row cnfJkt).exec id w).1.issues = true ↔ Rotatable hashToken req row w.db := by
  unfold refreshIosToken
  rw [if_neg (by simp [hlive])]
  split_ifs with hage
  · rw [exec_refused]
    exact iff_of_false Bool.false_ne_true fun h ↦ absurd h.age (Int.not_le.mpr hage)
  rw [exec_bind, exec_readOnly]
  dsimp only [id]
  cases hpasskey : derivePasskeyState w.db.directory.credentialOwners
      (w.db.directory.tenants.map (·.passkey)) row.userId row.tenantId with
  | none =>
    refine iff_of_false (by simp [issues]) fun h ↦ ?_
    obtain ⟨state, hstate, -⟩ := h.passkey
    simp [hpasskey] at hstate
  | some state =>
    dsimp only
    split_ifs with hblocked
    · refine iff_of_false (by simp [issues]) fun h ↦ ?_
      obtain ⟨other, hother, hnot⟩ := h.passkey
      rw [hpasskey, Option.some.injEq] at hother
      rw [hother, hnot] at hblocked
      exact Bool.false_ne_true hblocked
    · rw [exec_rotateIosPair hactive]
      exact ⟨fun ⟨htenant, hfresh⟩ ↦ ⟨hlive, Int.not_lt.mp hage,
          ⟨state, hpasskey, by simpa using hblocked⟩, htenant, hfresh⟩,
        fun h ↦ ⟨h.tenant, h.fresh⟩⟩

theorem exec_refreshIosToken (hactive : activeMember w.db.directory.members row.tenantId row.userId = true) :
    ((refreshIosToken hashToken req row cnfJkt).exec id w).1.issues = true ↔
      Rotatable hashToken req row w.db ∨ Repeated req row w.db := by
  by_cases hlive : row.revokedAt = none
  · rw [exec_refreshIosToken_live hlive hactive, or_iff_left]
    exact fun hrepeated ↦ hrepeated.1 hlive
  · rw [exec_refreshIosToken_revoked hlive, or_iff_right]
    exact fun hrotatable ↦ hlive hrotatable.live

theorem alone_mobileTokenRefresh {token : String} (hbody : req.body = .refreshToken token)
    (hfind : w.db.tokens.find? (·.tokenHash = hashToken token) = some row) (hkind : row.clientKind = .iosApp) :
    ((mobileTokenRefresh hashToken req).alone w).1.issues = true ↔ Refreshable hashToken req token row w.db := by
  unfold Prog.alone mobileTokenRefresh
  rw [hbody]
  dsimp only
  by_cases hshape : validRefreshToken token = true
  swap
  · rw [if_pos (by simpa using hshape)]
    exact iff_of_false (by simp [issues]) fun h ↦ hshape h.1.shape
  by_cases hbearer : req.bearer = some token
  swap
  · rw [if_neg (by simpa using hshape), if_pos hbearer]
    exact iff_of_false (by simp [issues]) fun h ↦ hbearer h.1.bearer
  rw [if_neg (by simpa using hshape), if_neg (not_not_intro hbearer), exec_bind,
    exec_readOnly]
  dsimp only [id]
  rw [hfind]
  dsimp only
  unfold refreshFoundRow
  rw [if_neg (not_not_intro hkind), exec_bind, exec_readOnly]
  dsimp only [id]
  by_cases hactive : activeMember w.db.directory.members row.tenantId row.userId = true
  swap
  · rw [if_pos (by simpa using hactive)]
    exact iff_of_false (by simp [issues]) fun h ↦ hactive h.1.member
  rw [if_neg (by simpa using hactive)]
  cases hjkt : row.cnfJkt with
  | none =>
    refine iff_of_false (by simp [issues]) fun h ↦ ?_
    obtain ⟨cnfJkt, hsome, -⟩ := h.1.binding
    simp [hjkt] at hsome
  | some cnfJkt =>
    dsimp only
    split_ifs with hempty haccess hrate hdpop
    · refine iff_of_false (by simp [issues]) fun h ↦ ?_
      obtain ⟨other, hsome, hne⟩ := h.1.binding
      rw [hjkt, Option.some.injEq] at hsome
      exact hne (hsome ▸ hempty)
    · exact iff_of_false (by simp [issues]) fun h ↦ by simp [h.1.access] at haccess
    · exact iff_of_false (by simp [issues]) fun h ↦ by simp [h.1.rateLimit] at hrate
    · exact iff_of_false (by simp [issues]) fun h ↦ by simp [h.1.dpop] at hdpop
    · rw [exec_refreshIosToken hactive]
      exact ⟨fun h ↦ ⟨⟨hshape, hbearer, hactive, ⟨cnfJkt, hjkt, hempty⟩, by simpa using haccess,
        by simpa using hrate, by simpa using hdpop⟩, h⟩, And.right⟩

end Alone

section Reached

variable {hashToken : String → String} {held : Locks} {overlap : List Event}
  {w : World Store Event} {event : Event} {db : Store}

/-- A store in which the hashes of tokens are unique. -/
structure UniqueStore where
  store : Store
  unique : (store.tokens.map (·.tokenHash)).Nodup

theorem Effect.unique (h : Effect hashToken held overlap w event db)
    (hw : (w.db.tokens.map (·.tokenHash)).Nodup) : (db.tokens.map (·.tokenHash)).Nodup :=
  h.nodup (fun _ _ ↦ rfl) (fun row hrow old hold ↦ (h.fresh row hrow old hold).2) (h.distinct.imp And.right) hw

def PairsStored (w : World Store Event) : Prop :=
  ∀ source issuedAt access refresh, .issuedPair source issuedAt access refresh ∈ w.log →
    access.clientKind = .iosApp ∧ ∃ row ∈ w.db.tokens, access.Becomes row

theorem Effect.pairsStored (h : Effect hashToken held overlap w event db) (hw : PairsStored w) :
    PairsStored (w.commit event db) := by
  intro source issuedAt access refresh hmem
  rcases List.mem_cons.mp hmem with rfl | hold
  · obtain ⟨p, -, -, rfl, -⟩ := h.describes
    exact ⟨rfl, _, h.mem_of_minted (by simp [Event.minted]), .refl _⟩
  · obtain ⟨hkind, old, hrow, hbecomes⟩ := hw source issuedAt access refresh hold
    obtain ⟨row, hrow', hnext⟩ := h.advances.forth old hrow
    exact ⟨hkind, row, hrow', hbecomes.trans hnext⟩

theorem find_of_unique (hunique : (db.tokens.map (·.tokenHash)).Nodup) {row : ExtensionToken}
    (hrow : row ∈ db.tokens) {tokenHash : String} (hhash : row.tokenHash = tokenHash) :
    db.tokens.find? (·.tokenHash = tokenHash) = some row := by
  subst hhash
  exact find?_of_nodup_map hunique hrow

end Reached

/-- In every store that token operations reach, a refresh request that presents an access token of an
issued pair is refused exactly when the row of that token is not `Refreshable`. -/
theorem accessToken_refused_iff {ι : Type} [DecidableEq ι] (hashToken : String → String)
    (store : UniqueStore) (requests : ι → Request) {s : State ι Store Lock Event Outcome}
    (hrun : Run (fun _ _ _ ↦ True) (State.start ⟨store.store, []⟩ fun i ↦ (requests i).serve hashToken) s)
    {source : Option ExtensionToken} {issuedAt : Millis} {access refresh : ExtensionToken}
    (hpair : .issuedPair source issuedAt access refresh ∈ s.world.log)
    (req : MobileRefreshRequest) {token : String} (hbody : req.body = .refreshToken token)
    (htoken : hashToken token = access.tokenHash) :
    ∃ row ∈ s.world.db.tokens, access.Becomes row ∧
      (((mobileTokenRefresh hashToken req).alone s.world).1.issues = false ↔
        ¬ Refreshable hashToken req token row s.world.db) := by
  have hinvariant : (s.world.db.tokens.map (·.tokenHash)).Nodup ∧ PairsStored s.world := by
    refine Run.invariant (c := contract hashToken fun _ _ _ ↦ True)
      (fun w ↦ (w.db.tokens.map (·.tokenHash)).Nodup ∧ PairsStored w) hrun
      (fun i ↦ outline_serve (requests i) ⟨store.store, []⟩) ⟨store.unique, by simp [PairsStored]⟩ ?_
    rintro held w event db ⟨hunique, hpairs⟩ ⟨overlap, -, -, heffect⟩
    exact ⟨heffect.unique hunique, heffect.pairsStored hpairs⟩
  obtain ⟨hkind, row, hrow, hbecomes⟩ := hinvariant.2 source issuedAt access refresh hpair
  refine ⟨row, hrow, hbecomes, ?_⟩
  have hfind := find_of_unique hinvariant.1 hrow (hbecomes.tokenHash_eq.trans htoken.symm)
  rw [← alone_mobileTokenRefresh hbody hfind (hbecomes.clientKind_eq.trans hkind), Bool.not_eq_true]

/-- The first issue of a pair whose access token is `refreshPlaintext`. -/
def firstIssue (_ : Unit) : Request :=
  .issueIos ⟨1, 1, "jkt", none, 0, 7, ⟨10, 0, refreshPlaintext⟩, ⟨20, 0, "first"⟩⟩

/-- A store without tokens. -/
def emptyStore : UniqueStore where
  store := ⟨[], [], oneMember⟩
  unique := List.nodup_nil

/-- The issue before its first statement. -/
def firstIssueStart : State Unit Store Lock Event Outcome :=
  State.start ⟨emptyStore.store, []⟩ fun i ↦ (firstIssue i).serve id

/-- The pair of `firstIssue`. -/
def firstPair : Event :=
  .issuedPair none 0 (iosAccessRow id ⟨1, 1, "jkt", none, 0, 7, ⟨10, 0, refreshPlaintext⟩, ⟨20, 0, "first"⟩⟩)
    (iosRefreshRow id ⟨1, 1, "jkt", none, 0, 7, ⟨10, 0, refreshPlaintext⟩, ⟨20, 0, "first"⟩⟩)

/-- The access token of the first pair, presented to the refresh route, is answered with a new pair. -/
theorem accessToken_refreshes :
    ¬ ∀ (store : UniqueStore) (requests : Unit → Request) (s : State Unit Store Lock Event Outcome)
      (source : Option ExtensionToken) (issuedAt : Millis) (access refresh : ExtensionToken)
      (req : MobileRefreshRequest) (token : String),
      Run (fun _ _ _ ↦ True) (State.start ⟨store.store, []⟩ fun i ↦ (requests i).serve id) s →
      .issuedPair source issuedAt access refresh ∈ s.world.log →
      req.body = .refreshToken token → token = access.tokenHash →
        ((mobileTokenRefresh id req).alone s.world).1.issues = false := by
  intro h
  obtain ⟨s, hrun, hpair, hissues⟩ := Run.exists_of_schedule firstIssueStart
    (fun w ↦ firstPair ∈ w.log ∧ ((mobileTokenRefresh id (twoRefreshes true)).alone w).1.issues = true)
    [(7, ())]
  have hrefused := h emptyStore firstIssue s none 0 _ _ (twoRefreshes true) refreshPlaintext hrun hpair rfl rfl
  exact Bool.false_ne_true (hrefused.symm.trans hissues)

/-- An instance: the access token of the first pair is presented with a failing DPoP proof. -/
theorem accessToken_refused_iff_first : ∃ s, Run (fun _ _ _ ↦ True) firstIssueStart s ∧ firstPair ∈ s.world.log ∧
      ∃ row ∈ s.world.db.tokens, (((mobileTokenRefresh id { twoRefreshes true with dpopValid := false }).alone
          s.world).1.issues = false ↔
        ¬ Refreshable id { twoRefreshes true with dpopValid := false } refreshPlaintext row s.world.db) := by
  obtain ⟨s, hrun, hpair⟩ := Run.exists_of_schedule firstIssueStart
    (fun w ↦ firstPair ∈ w.log) [(7, ())]
  obtain ⟨row, hrow, -, hiff⟩ := accessToken_refused_iff id emptyStore firstIssue hrun hpair
    { twoRefreshes true with dpopValid := false } rfl rfl
  exact ⟨s, hrun, hpair, row, hrow, hiff⟩

/-- Whatever token operations follow, the hash of a token leads to the same row as before, and a revoked one is never
live again. -/
theorem tokens_only_revoked {ι : Type} [DecidableEq ι] (hashToken : String → String) (store : UniqueStore)
    (requests : ι → Request) {s s' : State ι Store Lock Event Outcome}
    (hrun : Run (fun _ _ _ ↦ True) (State.start ⟨store.store, []⟩ fun i ↦ (requests i).serve hashToken) s)
    (hlater : Run (fun _ _ _ ↦ True) s s') {row : ExtensionToken} (hrow : row ∈ s.world.db.tokens) :
    ∃ row', s'.world.db.tokens.find? (·.tokenHash = row.tokenHash) = some row' ∧ row.Becomes row' := by
  have houtline (i : ι) : Outline (contract hashToken fun _ _ _ ↦ True) ((requests i).serve hashToken) (.idle _) _ :=
    outline_serve (requests i) ⟨store.store, []⟩
  have hunique : (s'.world.db.tokens.map (·.tokenHash)).Nodup := by
    refine (hrun.trans hlater).invariant (fun w ↦ (w.db.tokens.map (·.tokenHash)).Nodup) houtline store.unique ?_
    exact fun _ _ _ _ hw ⟨_, _, _, heffect⟩ ↦ heffect.unique hw
  obtain ⟨row', hrow', hbecomes⟩ : ∃ row' ∈ s'.world.db.tokens, row.Becomes row' := by
    refine hrun.invariant_later (fun w ↦ ∃ row' ∈ w.db.tokens, row.Becomes row') hlater houtline
      ⟨row, hrow, .refl row⟩ ?_
    rintro held w event db ⟨old, hold, hbecomes⟩ ⟨_, -, -, heffect⟩
    obtain ⟨new, hnew, hnext⟩ := heffect.advances.forth old hold
    exact ⟨new, hnew, hbecomes.trans hnext⟩
  exact ⟨row', find_of_unique hunique hrow' hbecomes.tokenHash_eq, hbecomes⟩

/-- The first issue, and a refresh with the token that it gives out. -/
def issueAndRefresh : Bool → Request
  | true => firstIssue ()
  | false => .refreshIos (twoRefreshes true)

/-- A token is live after it was issued, and revoked after it was refreshed. -/
theorem tokens_only_revoked_refreshed : ∃ s s' : State Bool Store Lock Event Outcome,
    Run (fun _ _ _ ↦ True) (State.start ⟨emptyStore.store, []⟩ fun i ↦ (issueAndRefresh i).serve id) s ∧
    Run (fun _ _ _ ↦ True) s s' ∧ ∃ row ∈ s.world.db.tokens, row.tokenHash = refreshPlaintext ∧ row.revokedAt = none ∧
    ∃ row', s'.world.db.tokens.find? (·.tokenHash = row.tokenHash) = some row' ∧ row'.revokedAt = some 1 ∧
      row.Becomes row' := by
  obtain ⟨s, hrun, htest⟩ := Run.exists_state_of_schedule
    (State.start ⟨emptyStore.store, []⟩ fun i ↦ (issueAndRefresh i).serve id)
    (fun s ↦ s.world.db.tokens.any (fun row ↦ row.tokenHash = refreshPlaintext ∧ row.revokedAt = none) &&
      (s.steps (fun _ _ _ ↦ true) (List.replicate 20 false)).any fun s' ↦
        (s'.world.db.tokens.find? (·.tokenHash = refreshPlaintext)).any (·.revokedAt = some 1)) [(7, true)]
  simp only [Bool.and_eq_true, List.any_eq_true, Option.any_eq_true, decide_eq_true_eq] at htest
  obtain ⟨⟨row, hrow, hhash, hlive⟩, s', hsteps, found, hfound, hrevoked⟩ := htest
  have hlater : Run (fun _ _ _ ↦ True) s s' := .of_steps (fun _ _ _ _ ↦ trivial) .refl _ hsteps
  obtain ⟨row', hrow', hbecomes⟩ := tokens_only_revoked id emptyStore issueAndRefresh hrun hlater hrow
  obtain rfl : found = row' := Option.some.inj (hfound.symm.trans (hhash ▸ hrow'))
  exact ⟨s, s', hrun, hlater, row, hrow, hhash, hlive, found, hrow', hrevoked, hbecomes⟩

end PasswdSso.Extension
