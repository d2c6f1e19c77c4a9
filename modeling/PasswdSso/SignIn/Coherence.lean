import PasswdSso.SignIn.Membership
import PasswdSso.SignIn.Routing

/-!
# What a sign-in leaves of the user's tenancy

A sign-in with a claim that returns `ok` should leave the user with one active membership, in the tenant of the claim,
and with this tenant in `User.tenantId`. It does so iff the user has no deactivated membership there, which the upsert
would leave deactivated, and `User.tenantId` is this tenant already or the user is moved out of a bootstrap tenant: the
other branches write no user row.
-/

namespace PasswdSso.SignIn

open ReadCommitted List Store

section Steps

variable {m : CaseMapping} {sha256Hex : List Char → List Char} {db : Store}

def Store.join (tenantId userId : Uuid) (db : Store) : Store :=
  if db.members.any (isMember tenantId userId) then db
  else { db with members := db.members ++ [⟨tenantId, userId, none⟩] }

theorem yields_joinTenant (tenantId userId : Uuid) :
    (joinTenant tenantId userId).Yields db () (db.join tenantId userId) := by
  cases hfind : db.members.find? (isMember tenantId userId) with
  | some member =>
    have hany : db.members.any (isMember tenantId userId) = true :=
      any_eq_true.mpr ⟨member, mem_of_find?_eq_some hfind, find?_some hfind⟩
    have hsame : memberTable.modify [memberTable.key member] id db = db := by
      unfold Table.modify
      simp only [id, ite_self, map_id']
      exact memberTable.put_rows db
    rw [join, if_pos hany]
    refine .bind (.upsert_found hfind) ?_
    rw [hsame]
    exact .pure ()
  | none =>
    have hnone : ¬ db.members.any (isMember tenantId userId) = true := by
      simpa using find?_eq_none.mp hfind
    rw [join, if_neg hnone]
    refine .bind (.upsert_new hfind fun hmem ↦ hnone ?_) (.pure ())
    obtain ⟨member, hmember, hkey⟩ := mem_map.mp hmem
    obtain ⟨htenant, huser⟩ := Prod.mk.inj hkey
    exact any_eq_true.mpr ⟨member, hmember, by simp [isMember, htenant, huser]⟩

variable {tenantClaim : List Char} {call : FindOrCreate}

theorem Store.misses_of_unregistered (h : db.lookUp m tenantClaim = .unregistered) :
    db.findClaimRow (normalizeTenantClaim m tenantClaim) = none ∧ db.byExternalId tenantClaim = none ∧
      storableClaimIssue m (normalizeTenantClaim m tenantClaim) = none ∧
      db.findFoldedExternalIdOwner (normalizeTenantClaim m tenantClaim) = none := by
  unfold lookUp at h
  dsimp only at h
  split at h
  · split_ifs at h
  · exact nomatch h
  · exact nomatch h
  · exact nomatch h
  next hrow htenant hissue howner => exact ⟨hrow, htenant, hissue, howner⟩

/-- The store after the creation of a tenant for a claim. -/
def Store.create (call : FindOrCreate) (m : CaseMapping) (slug : List Char) (event : TenantClaimEvent) (db : Store) :
    Store :=
  { db.addTenant (call.tenant slug) (call.claimRow m) with events := db.events ++ [event] }

theorem yields_findOrCreate_of_unregistered (h : db.lookUp m call.tenantClaim = .unregistered) :
    clashes (call.tenant (call.retrySlug m sha256Hex)) (call.claimRow m) db = true ∧
        (findOrCreateTenantForClaim m sha256Hex call).Yields db (.error .uniqueViolation) db ∨
      ∃ slug event, (slug = slugifyTenant m sha256Hex call.tenantClaim ∨ slug = call.retrySlug m sha256Hex ∧
          clashes (call.tenant (slugifyTenant m sha256Hex call.tenantClaim)) (call.claimRow m) db = true) ∧
        clashes (call.tenant slug) (call.claimRow m) db = false ∧
        (findOrCreateTenantForClaim m sha256Hex call).Yields db (.ok (.tenant call.tenantId))
          (db.create call m slug event) := by
  obtain ⟨hrow, htenant, hissue, howner⟩ := misses_of_unregistered h
  have hcall {result : Except Thrown ClaimTenantResolution} {after : Store} (hrest : (do
        if ← createTenant m call (slugifyTenant m sha256Hex call.tenantClaim) then
          if ← createTenant m call (call.retrySlug m sha256Hex) then return .error .uniqueViolation
          else recordCreation m call
        else recordCreation m call : Server (Except Thrown ClaimTenantResolution)).Yields db result after) :
      (findOrCreateTenantForClaim m sha256Hex call).Yields db result after := by
    refine .bind (.lockingRead _ _) (.bind (.read _) ?_)
    simp only [hrow]
    refine .bind (.read _) ?_
    simp only [htenant, hissue]
    refine .bind (.read _) ?_
    simp only [howner]
    exact hrest
  have hrecorded (slug : List Char) : ∃ event, (recordCreation m call).Yields
      (db.addTenant (call.tenant slug) (call.claimRow m)) (.ok (.tenant call.tenantId)) (db.create call m slug event) :=
    ⟨_, .bind (.write _ _ _) (.pure _)⟩
  cases hfirst : clashes (call.tenant (slugifyTenant m sha256Hex call.tenantClaim)) (call.claimRow m) db with
  | false =>
    obtain ⟨event, hevent⟩ := hrecorded (slugifyTenant m sha256Hex call.tenantClaim)
    exact .inr ⟨_, event, .inl rfl, hfirst, hcall (.bind (.insert _ hfirst) hevent)⟩
  | true =>
    cases hsecond : clashes (call.tenant (call.retrySlug m sha256Hex)) (call.claimRow m) db with
    | false =>
      obtain ⟨event, hevent⟩ := hrecorded (call.retrySlug m sha256Hex)
      exact .inr ⟨_, event, .inr ⟨rfl, rfl⟩, hsecond,
        hcall (.bind (.insert_clash _ hfirst) (.bind (.insert _ hsecond) hevent))⟩
    | true => exact .inl ⟨rfl, hcall (.bind (.insert_clash _ hfirst) (.bind (.insert_clash _ hsecond) (.pure _)))⟩

def moveRow (userId oldTenantId newTenantId : Uuid) (list : List Migration) (row : ScopedRow) : ScopedRow :=
  list.foldl (fun row migration ↦
    if migration.selects userId oldTenantId row then { row with tenantId := newTenantId } else row) row

theorem yields_migrateRows (userId oldTenantId newTenantId : Uuid) (list : List Migration) :
    ∃ rows, (migrateRows userId oldTenantId newTenantId list).Yields db () { db with rows := rows } ∧
      (rowTable.KeysUnique db → rows = db.rows.map (moveRow userId oldTenantId newTenantId list)) := by
  induction list generalizing db with
  | nil => exact ⟨db.rows, .pure (), fun _ ↦ (map_id db.rows).symm⟩
  | cons migration rest ih =>
    let moved := rowTable.modify (rowTable.keysWhere (migration.selects userId oldTenantId) db)
      (fun row ↦ { row with tenantId := newTenantId }) db
    obtain ⟨rows, hyields, hrows⟩ := @ih moved
    refine ⟨rows, .bind .updateMany hyields, fun hunique ↦ ?_⟩
    have hmoved : moved.rows = db.rows.map fun row ↦
        if migration.selects userId oldTenantId row then { row with tenantId := newTenantId } else row :=
      congrArg Store.rows hunique.modify_keysWhere
    rw [hrows (hunique.modify fun _ ↦ rfl), hmoved, map_map]
    rfl

/-- The store after the migration; `rows` are those of the tenant-scoped tables. -/
def Store.migrate (userId oldTenantId newTenantId : Uuid) (rows : List ScopedRow) (db : Store) : Store :=
  { db with
    users := db.users.map fun user ↦ if user.id = userId then { user with tenantId := newTenantId } else user
    members := (db.join newTenantId userId).members.filter fun member ↦ !isMember oldTenantId userId member
    rows := rows }

theorem isMember_of_key {tenantId userId : Uuid} (member other : TenantMember)
    (hkey : memberTable.key other = memberTable.key member) :
    isMember tenantId userId other = isMember tenantId userId member := by
  obtain ⟨htenant, huser⟩ := Prod.mk.inj hkey
  rw [isMember, htenant, huser, isMember]

theorem yields_migrateBootstrap (userId oldTenantId newTenantId : Uuid) :
    (∃ thrown, (migrateBootstrap userId oldTenantId newTenantId).Yields db (.error thrown) db) ∨
      ∃ rows, (migrateBootstrap userId oldTenantId newTenantId).Yields db (.ok ())
        (db.migrate userId oldTenantId newTenantId rows) ∧
        (rowTable.KeysUnique db → rows = db.rows.map (moveRow userId oldTenantId newTenantId migrations)) := by
  by_cases hcount : db.activeCount oldTenantId > 1
  · refine .inl ⟨.bootstrapMigrationAborted, .bind (.read _) ?_⟩
    rw [if_pos hcount]
    exact .pure _
  let renamed := userTable.modify (userTable.keysWhere (fun user ↦ user.id = userId) db)
    (fun user ↦ { user with tenantId := newTenantId }) db
  by_cases hnone : (userTable.keysWhere (fun user ↦ user.id = userId) db).length = 0
  · have hsame : renamed = db := by
      change userTable.modify _ _ db = db
      rw [length_eq_zero_iff.mp hnone, Table.modify_nil]
      rfl
    refine .inl ⟨.recordNotFound, .bind (.read _) ?_⟩
    rw [if_neg hcount]
    refine .bind .updateMany ?_
    rw [if_pos hnone]
    change Prog.Yields _ renamed _ db
    rw [hsame]
    exact .pure _
  · obtain ⟨rows, hmigrated, hrows⟩ := @yields_migrateRows renamed userId oldTenantId newTenantId migrations
    refine .inr ⟨rows, .bind (.read _) ?_, hrows⟩
    rw [if_neg hcount]
    refine .bind .updateMany ?_
    rw [if_neg hnone]
    refine .bind hmigrated (.bind (yields_joinTenant newTenantId userId) (.bind .deleteMany ?_))
    have hrenamed : renamed = { db with
        users := db.users.map fun user ↦ if user.id = userId then { user with tenantId := newTenantId } else user } := by
      refine (Table.modify_keysWhere fun user _ other _ hkey ↦ ?_).trans ?_
      · rw [show other.id = user.id from hkey]
      · simp [userTable]
    have hfinal : memberTable.remove (memberTable.keysWhere (isMember oldTenantId userId)
        (join newTenantId userId { renamed with rows := rows }))
        (join newTenantId userId { renamed with rows := rows }) =
        db.migrate userId oldTenantId newTenantId rows := by
      rw [Table.remove_keysWhere fun member _ other _ ↦ isMember_of_key member other, hrenamed]
      unfold migrate join
      dsimp only
      split_ifs <;> rfl
    rw [hfinal]
    exact .pure _

theorem Store.lookUp_congr {db' : Store} (hclaims : db'.claims = db.claims) (htenants : db'.tenants = db.tenants) :
    db'.lookUp m tenantClaim = db.lookUp m tenantClaim := by
  unfold lookUp findClaimRow byExternalId findFoldedExternalIdOwner
  rw [hclaims, htenants]

theorem Store.lookUp_create {slug : List Char} {event : TenantClaimEvent}
    (h : db.lookUp m call.tenantClaim = .unregistered) :
    (db.create call m slug event).lookUp m call.tenantClaim = .tenant call.tenantId := by
  have hrow : (db.create call m slug event).findClaimRow (normalizeTenantClaim m call.tenantClaim) =
      some (call.claimRow m) := by
    have hnone := (misses_of_unregistered h).1
    unfold findClaimRow at hnone ⊢
    change (db.claims ++ [call.claimRow m]).find? _ = _
    rw [find?_append, hnone]
    simp [FindOrCreate.claimRow]
  rw [lookUp, hrow]
  rfl

end Steps

section Tenancy

variable (m : CaseMapping) (sha256Hex : List Char → List Char)

/-- The tenant that a claim leads to, or that the sign-in creates for it. -/
def claimedTenant (req : SignInRequest) (tenantClaim : List Char) (db : Store) : Option Uuid :=
  match resolutionOf (db.lookUp m tenantClaim) with
  | some (.tenant id) => some id
  | some _ => none
  | none => some req.tenantId

def activeOf (members : List TenantMember) (userId : Uuid) : List TenantMember :=
  members.filter fun member ↦ member.userId = userId && member.deactivatedAt.isNone

/-- The user has exactly one active membership, in the tenant that the claim leads to, and this is the tenant of the
user. -/
def Coherent (userId : Uuid) (tenantClaim : List Char) (w : World Store Event) : Prop :=
  ∃ tenantId, lookup m tenantClaim w = .tenant tenantId ∧
    (activeOf w.db.members userId).map TenantMember.tenantId = [tenantId] ∧
    (w.db.users.find? (·.id = userId)).map User.tenantId = some tenantId ∧
    resolveUserTenantId w.db.members userId = .ok tenantId

/-- The user has no deactivated membership in the claimed tenant, and has this tenant already or is moved to it. -/
def Ready (req : SignInRequest) (tenantClaim : List Char) (db : Store) (user : User) : Prop :=
  ∃ tenantId, claimedTenant m req tenantClaim db = some tenantId ∧
    (∀ member ∈ db.members, isMember tenantId req.userId member = true → member.deactivatedAt = none) ∧
    (user.tenantId = tenantId ∨ ∃ existingTenantId, resolveUserTenantId db.members req.userId = .ok existingTenantId ∧
      existingTenantId ≠ tenantId)

variable {m sha256Hex} {req : SignInRequest} {tenantClaim : List Char} {db : Store}

structure Targeted (m : CaseMapping) (req : SignInRequest) (tenantClaim : List Char) (db : Store) (tenantId : Uuid)
    (after : Store) : Prop where
  claimed : claimedTenant m req tenantClaim db = some tenantId
  leads : after.lookUp m tenantClaim = .tenant tenantId
  members : after.members = db.members
  users : after.users = db.users
  rows : after.rows = db.rows
  known : db.lookUp m tenantClaim = .tenant tenantId ∨ ∀ tenant ∈ db.tenants, tenant.id ≠ tenantId

theorem yields_resolveTargetTenant (req : SignInRequest) (tenantClaim : List Char) (db : Store) :
    ∃ result after, (resolveTargetTenant m sha256Hex (db.lookUp m tenantClaim) (req.findOrCreate tenantClaim)).Yields db
        result after ∧
      ∀ tenantId, result = .ok (.tenant tenantId) → Targeted m req tenantClaim db tenantId after := by
  unfold resolveTargetTenant
  cases hlookup : db.lookUp m tenantClaim with
  | unregistered =>
    have hunregistered : db.lookUp m (req.findOrCreate tenantClaim).tenantClaim = .unregistered := hlookup
    rcases yields_findOrCreate_of_unregistered hunregistered with ⟨-, hthrown⟩ | ⟨slug, event, -, hfree, hcreated⟩
    · exact ⟨_, _, hthrown, by simp⟩
    · refine ⟨_, _, hcreated, fun tenantId hresult ↦ ?_⟩
      cases hresult
      refine ⟨?_, lookUp_create hlookup, rfl, rfl, rfl, .inr fun tenant htenant ↦ ?_⟩
      · rw [claimedTenant, hlookup]
        rfl
      · rw [clashes, Bool.or_eq_false_iff] at hfree
        have hclash := any_eq_false.mp hfree.1 tenant htenant
        simp only [Bool.or_eq_true, decide_eq_true_eq, not_or] at hclash
        exact hclash.1.1
  | tenant id =>
    refine ⟨_, _, .pure _, fun tenantId hresult ↦ ?_⟩
    cases hresult
    refine ⟨?_, hlookup, rfl, rfl, rfl, .inl hlookup⟩
    rw [claimedTenant, hlookup]
    rfl
  | revoked _ | unstorable _ | collision _ => exact ⟨_, _, .pure _, by simp⟩

/-- A sign-in that returned `ok`: the user joined the tenant, or was moved to it from another one. -/
inductive SignedIn (m : CaseMapping) (req : SignInRequest) (tenantClaim : List Char) (db : Store) (tenantId : Uuid)
    (after : Store) : Prop
  | joined (hexisting : resolveUserTenantId db.members req.userId = .error .tenantNotResolved ∨
        resolveUserTenantId db.members req.userId = .ok tenantId)
      (hmembers : after.members = (db.join tenantId req.userId).members) (husers : after.users = db.users)
      (hrows : after.rows = db.rows)
  | moved (existing : Uuid) (hexisting : resolveUserTenantId db.members req.userId = .ok existing)
      (hne : existing ≠ tenantId)
      (hmembers : after.members = (db.join tenantId req.userId).members.filter fun member ↦
        !isMember existing req.userId member)
      (husers : after.users = db.users.map fun user ↦
        if user.id = req.userId then { user with tenantId := tenantId } else user)
      (hrows : rowTable.KeysUnique db → after.rows = db.rows.map (moveRow req.userId existing tenantId migrations))

variable {tenantId userId : Uuid}

theorem Store.join_members_congr {after : Store} (h : after.members = db.members) :
    (after.join tenantId userId).members = (db.join tenantId userId).members := by
  unfold join
  rw [h]
  split_ifs
  · exact h
  · rfl

theorem Store.join_frame (tenantId userId : Uuid) (db : Store) :
    (db.join tenantId userId).claims = db.claims ∧ (db.join tenantId userId).tenants = db.tenants ∧
      (db.join tenantId userId).users = db.users ∧ (db.join tenantId userId).rows = db.rows := by
  unfold join
  split_ifs
  · exact ⟨rfl, rfl, rfl, rfl⟩
  · exact ⟨rfl, rfl, rfl, rfl⟩

/-- The outcome of a sign-in, as far as it is `ok`. -/
def Outcome (m : CaseMapping) (req : SignInRequest) (tenantClaim : List Char) (db : Store)
    (result : Except Thrown SignInTenantResult) (after : Store) : Prop :=
  result = .ok .ok → ∃ tenantId, claimedTenant m req tenantClaim db = some tenantId ∧
    after.lookUp m tenantClaim = .tenant tenantId ∧ SignedIn m req tenantClaim db tenantId after

theorem Targeted.joined {target : Store} (h : Targeted m req tenantClaim db tenantId target)
    (hexisting : resolveUserTenantId db.members req.userId = .error .tenantNotResolved ∨
      resolveUserTenantId db.members req.userId = .ok tenantId) :
    Outcome m req tenantClaim db (.ok .ok) (target.join tenantId req.userId) := by
  obtain ⟨hclaims, htenants, husers, hrows⟩ := join_frame tenantId req.userId target
  exact fun _ ↦ ⟨tenantId, h.claimed, (lookUp_congr hclaims htenants).trans h.leads,
    .joined hexisting (join_members_congr h.members) (husers.trans h.users) (hrows.trans h.rows)⟩

theorem yields_joinClaimed (hexisting : resolveUserTenantId db.members req.userId = .error .tenantNotResolved) :
    ∃ result after, (joinClaimed m sha256Hex req tenantClaim (db.lookUp m tenantClaim)).Yields db result after ∧
      Outcome m req tenantClaim db result after := by
  obtain ⟨result, target, hyields, htarget⟩ := yields_resolveTargetTenant (m := m) req tenantClaim db
  cases result with
  | error thrown => exact ⟨_, _, .andThen_error hyields, nofun⟩
  | ok resolution =>
    cases resolution with
    | tenant id =>
      refine ⟨_, _, .andThen_ok hyields (.bind (yields_joinTenant id req.userId) (.pure _)), ?_⟩
      exact (htarget id rfl).joined (.inl hexisting)
    | claimTaken _ | claimCollision _ | claimInvalid _ => exact ⟨_, _, .andThen_ok hyields (.pure _), nofun⟩

theorem yields_migrateClaimed {existing : Uuid} (hexisting : resolveUserTenantId db.members req.userId = .ok existing)
    (hother : db.lookUp m tenantClaim ≠ .tenant existing) (hknown : ∃ tenant ∈ db.tenants, tenant.id = existing) :
    ∃ result after,
      (migrateClaimed m sha256Hex req tenantClaim (db.lookUp m tenantClaim) existing).Yields db result after ∧
      Outcome m req tenantClaim db result after := by
  obtain ⟨result, target, hyields, htarget⟩ := yields_resolveTargetTenant (m := m) req tenantClaim db
  cases result with
  | error thrown => exact ⟨_, _, .andThen_error hyields, nofun⟩
  | ok resolution =>
    cases resolution with
    | tenant id =>
      have htargeted := htarget id rfl
      rcases @yields_migrateBootstrap target req.userId existing id with
        ⟨thrown, hthrown⟩ | ⟨rows, hmoved, hrows⟩
      · exact ⟨_, _, .andThen_ok hyields (.andThen_error hthrown), nofun⟩
      refine ⟨_, _, .andThen_ok hyields (.andThen_ok hmoved (.pure _)), fun _ ↦ ⟨id, htargeted.claimed, ?_, ?_⟩⟩
      · exact (lookUp_congr rfl rfl).trans htargeted.leads
      have hne : existing ≠ id := by
        rintro rfl
        rcases htargeted.known with hsame | hfresh
        · exact hother hsame
        · obtain ⟨tenant, htenant, hid⟩ := hknown
          exact hfresh tenant htenant hid
      refine .moved existing hexisting hne ?_ ?_ fun hunique ↦ ?_
      · change (target.join id req.userId).members.filter _ = _
        rw [join_members_congr htargeted.members]
      · change target.users.map _ = _
        rw [htargeted.users]
      · have hkeys : rowTable.KeysUnique target := hunique.congr htargeted.rows
        exact (hrows hkeys).trans (congrArg _ htargeted.rows)
    | claimTaken _ | claimCollision _ | claimInvalid _ => exact ⟨_, _, .andThen_ok hyields (.pure _), nofun⟩

theorem denyMember_ne_ok (existing : Uuid) (lookup : ClaimLookup) : denyMember tenantClaim existing lookup ≠ .ok := by
  cases lookup <;> exact nofun

theorem yields_signInWithClaim (req : SignInRequest) (tenantClaim : List Char) (db : Store) :
    ∃ result after, (signInWithClaim m sha256Hex req tenantClaim).Yields db result after ∧
      Outcome m req tenantClaim db result after := by
  -- Both lookups of the transaction, and then the branch that they select.
  have hlooked {result : Except Thrown SignInTenantResult} {after : Store} {found : Except TenantError Uuid}
      (hfound : resolveUserTenantId db.members req.userId = found)
      (h : (signInResolved m sha256Hex req tenantClaim (db.lookUp m tenantClaim) found).Yields db result after) :
      (signInWithClaim m sha256Hex req tenantClaim).Yields db result after :=
    .bind (yields_resolveTenantByClaim tenantClaim db) (.bind (.read _) (hfound ▸ h))
  cases hfound : resolveUserTenantId db.members req.userId with
  | error error =>
    cases error with
    | multiTenantMembershipNotSupported => exact ⟨_, _, hlooked hfound (.pure _), nofun⟩
    | tenantNotResolved =>
      obtain ⟨result, after, hyields, houtcome⟩ := yields_joinClaimed (m := m) hfound
      exact ⟨result, after, hlooked hfound hyields, houtcome⟩
  | ok existing =>
    by_cases hsame : db.lookUp m tenantClaim = .tenant existing
    · have htargeted : Targeted m req tenantClaim db existing db := by
        refine ⟨?_, hsame, rfl, rfl, rfl, .inl hsame⟩
        rw [claimedTenant, hsame]
        rfl
      refine ⟨_, _, hlooked hfound ?_, htargeted.joined (.inr hfound)⟩
      change (signInMember m sha256Hex req tenantClaim _ existing).Yields _ _ _
      rw [signInMember, if_pos hsame]
      exact .bind (yields_joinTenant existing req.userId) (.pure _)
    · cases hbootstrap : (db.tenants.find? (·.id = existing)).any Tenant.isBootstrap with
      | true =>
        have hknown : ∃ tenant ∈ db.tenants, tenant.id = existing := by
          obtain ⟨tenant, htenant, -⟩ := (Option.any_eq_true _ _).mp hbootstrap
          exact ⟨tenant, mem_of_find?_eq_some htenant, by simpa using find?_some htenant⟩
        obtain ⟨result, after, hyields, houtcome⟩ := yields_migrateClaimed (m := m) hfound hsame hknown
        refine ⟨result, after, hlooked hfound ?_, houtcome⟩
        change (signInMember m sha256Hex req tenantClaim _ existing).Yields _ _ _
        rw [signInMember, if_neg hsame]
        refine .bind (.read _) ?_
        rw [hbootstrap]
        exact hyields
      | false =>
        refine ⟨.ok (denyMember tenantClaim existing (db.lookUp m tenantClaim)), db, hlooked hfound ?_,
          fun hresult ↦ absurd (Except.ok.inj hresult) (denyMember_ne_ok existing _)⟩
        · change (signInMember m sha256Hex req tenantClaim _ existing).Yields _ _ _
          rw [signInMember, if_neg hsame]
          refine .bind (.read _) ?_
          rw [hbootstrap]
          exact .pure _

variable {w : World Store Event} {user : User}

theorem signedIn_of_ok
    (hclaim : extractTenantClaimValue m req.setting req.provider req.profile = some (.claim tenantClaim))
    (hok : ((ensureTenantMembershipForSignIn m sha256Hex req).alone w).1 = .ok .ok) :
    ∃ tenantId, claimedTenant m req tenantClaim w.db = some tenantId ∧
      lookup m tenantClaim ((ensureTenantMembershipForSignIn m sha256Hex req).alone w).2 = .tenant tenantId ∧
      SignedIn m req tenantClaim w.db tenantId ((ensureTenantMembershipForSignIn m sha256Hex req).alone w).2.db := by
  obtain ⟨result, after, hyields, houtcome⟩ := @yields_signInWithClaim m sha256Hex req tenantClaim w.db
  rw [ensureTenantMembershipForSignIn, hclaim] at hok ⊢
  dsimp only at hok ⊢
  cases result with
  | error thrown =>
    rw [hyields.abort] at hok
    exact nomatch hok
  | ok value =>
    rw [hyields.commit] at hok ⊢
    obtain ⟨tenantId, hclaimed, hleads, hsignedIn⟩ := houtcome hok
    exact ⟨tenantId, hclaimed, (lookup_eq tenantClaim).trans hleads, hsignedIn⟩

section Members

variable {members : List TenantMember} {userId tenantId : Uuid}

theorem resolveUserTenantId_eq_ok_iff : resolveUserTenantId members userId = .ok tenantId ↔
    (activeOf members userId).map TenantMember.tenantId = [tenantId] := by
  unfold resolveUserTenantId activeOf
  split
  next hactive => simp [hactive]
  next membership hactive => simp [hactive]
  next hactive => simp [hactive]

theorem activeOf_of_notResolved (h : resolveUserTenantId members userId = .error .tenantNotResolved) :
    activeOf members userId = [] := by
  unfold resolveUserTenantId at h
  split at h
  next hactive => exact hactive
  next => exact nomatch h
  next => exact nomatch h

theorem mem_activeOf {member : TenantMember} :
    member ∈ activeOf members userId ↔ member ∈ members ∧ member.userId = userId ∧ member.deactivatedAt = none := by
  simp [activeOf]

def NoneDeactivated (members : List TenantMember) (tenantId userId : Uuid) : Prop :=
  ∀ member ∈ members, isMember tenantId userId member = true → member.deactivatedAt = none

theorem noneDeactivated_iff_of_not_active (h : tenantId ∉ (activeOf members userId).map TenantMember.tenantId) :
    NoneDeactivated members tenantId userId ↔ ¬ members.any (isMember tenantId userId) = true := by
  rw [any_eq_true]
  constructor
  · rintro hnone ⟨member, hmember, hsel⟩
    have huser : member.tenantId = tenantId ∧ member.userId = userId := by simpa [isMember] using hsel
    exact h (huser.1 ▸ mem_map_of_mem (mem_activeOf.mpr ⟨hmember, huser.2, hnone member hmember hsel⟩))
  · exact fun hnone member hmember hsel ↦ absurd ⟨member, hmember, hsel⟩ hnone

theorem noneDeactivated_of_active {db : Store} (hunique : memberTable.KeysUnique db)
    (h : tenantId ∈ (activeOf db.members userId).map TenantMember.tenantId) :
    NoneDeactivated db.members tenantId userId := by
  intro member hmember hsel
  obtain ⟨active, hactive, rfl⟩ := mem_map.mp h
  obtain ⟨hmem, huser, hlive⟩ := mem_activeOf.mp hactive
  have hmemberUser : member.tenantId = active.tenantId ∧ member.userId = userId := by simpa [isMember] using hsel
  rwa [hunique.eq_of_key_eq hmember hmem (Prod.ext hmemberUser.1 (hmemberUser.2.trans huser.symm))]

theorem activeOf_join (db : Store) (tenantId userId : Uuid) : activeOf (db.join tenantId userId).members userId =
      if db.members.any (isMember tenantId userId) then activeOf db.members userId
      else activeOf db.members userId ++ [⟨tenantId, userId, none⟩] := by
  unfold join activeOf
  split_ifs
  · rfl
  · simp

theorem activeOf_filter (keep : TenantMember → Bool) :
    activeOf (members.filter keep) userId = (activeOf members userId).filter keep :=
  filter_comm _ _ _

end Members

theorem find_user_map {users : List User} (huser : users.find? (·.id = userId) = some user) :
    ((users.map fun user ↦ if user.id = userId then { user with tenantId := tenantId } else user).find?
      (·.id = userId)).map User.tenantId = some tenantId := by
  induction users with
  | nil => exact nomatch huser
  | cons first rest ih =>
    by_cases hfirst : first.id = userId
    · simp [hfirst]
    · rw [find?_cons_of_neg (by simpa using hfirst)] at huser
      simpa [hfirst] using ih huser

theorem coherent_iff (hleads : lookup m tenantClaim w = .tenant tenantId) :
    Coherent m userId tenantClaim w ↔ (activeOf w.db.members userId).map TenantMember.tenantId = [tenantId] ∧
      (w.db.users.find? (·.id = userId)).map User.tenantId = some tenantId := by
  constructor
  · rintro ⟨other, hother, hactive, huser, -⟩
    obtain rfl := ClaimLookup.tenant.inj (hleads.symm.trans hother)
    exact ⟨hactive, huser⟩
  · rintro ⟨hactive, huser⟩
    exact ⟨tenantId, hleads, hactive, huser, resolveUserTenantId_eq_ok_iff.mpr hactive⟩

theorem ready_iff (hclaimed : claimedTenant m req tenantClaim db = some tenantId) :
    Ready m req tenantClaim db user ↔ NoneDeactivated db.members tenantId req.userId ∧
      (user.tenantId = tenantId ∨ ∃ existing, resolveUserTenantId db.members req.userId = .ok existing ∧
        existing ≠ tenantId) := by
  constructor
  · rintro ⟨other, hother, hready⟩
    obtain rfl := Option.mem_unique hclaimed hother
    exact hready
  · exact fun hready ↦ ⟨tenantId, hclaimed, hready⟩

/-- A sign-in with an accepted claim that returns `ok` leaves the tenancy coherent iff the state was ready for it. -/
theorem signIn_coherent_iff {w : World Store Event} {user : User}
    (hclaim : extractTenantClaimValue m req.setting req.provider req.profile = some (.claim tenantClaim))
    (hunique : memberTable.KeysUnique w.db) (huser : w.db.users.find? (·.id = req.userId) = some user)
    (hok : ((ensureTenantMembershipForSignIn m sha256Hex req).alone w).1 = .ok .ok) :
    Coherent m req.userId tenantClaim ((ensureTenantMembershipForSignIn m sha256Hex req).alone w).2 ↔
      Ready m req tenantClaim w.db user := by
  obtain ⟨tenantId, hclaimed, hleads, hsignedIn⟩ := signedIn_of_ok hclaim hok
  rw [coherent_iff hleads, ready_iff hclaimed]
  cases hsignedIn with
  | joined hexisting hmembers husers hrows =>
    rw [hmembers, husers, huser, activeOf_join]
    have hnotMoved : ¬ ∃ existing, resolveUserTenantId w.db.members req.userId = .ok existing ∧
        existing ≠ tenantId := by
      rintro ⟨existing, hother, hne⟩
      rcases hexisting with h | h
      · exact nomatch h.symm.trans hother
      · exact hne (Except.ok.inj (hother.symm.trans h))
    have htenant : Option.map User.tenantId (some user) = some tenantId ↔ user.tenantId = tenantId := Option.some_inj
    rw [htenant, or_iff_left hnotMoved]
    refine and_congr_left' ?_
    rcases hexisting with hnone | hactive
    · have hempty := activeOf_of_notResolved hnone
      rw [noneDeactivated_iff_of_not_active (by rw [hempty]; exact List.not_mem_nil), hempty]
      split_ifs with hany <;> simp [hany]
    · rw [resolveUserTenantId_eq_ok_iff] at hactive
      have hmem : tenantId ∈ (activeOf w.db.members req.userId).map TenantMember.tenantId := by
        rw [hactive]
        exact List.mem_singleton_self tenantId
      have hnone := noneDeactivated_of_active hunique hmem
      have hany : w.db.members.any (isMember tenantId req.userId) = true := by
        obtain ⟨member, hmember, rfl⟩ := List.mem_map.mp hmem
        obtain ⟨hmember, huserId, -⟩ := mem_activeOf.mp hmember
        exact List.any_eq_true.mpr ⟨member, hmember, by simp [isMember, huserId]⟩
      rw [if_pos hany]
      exact iff_of_true hactive hnone
  | moved existing hexisting hne hmembers husers hrows =>
    rw [hmembers, husers, find_user_map huser, activeOf_filter, activeOf_join, and_iff_left rfl,
      and_iff_left (.inr ⟨existing, hexisting, hne⟩)]
    rw [resolveUserTenantId_eq_ok_iff] at hexisting
    have hnotMember : tenantId ∉ (activeOf w.db.members req.userId).map TenantMember.tenantId := by
      rw [hexisting, List.mem_singleton]
      exact Ne.symm hne
    -- The only active membership is the one that the migration deletes.
    have hleft : (activeOf w.db.members req.userId).filter (fun member ↦ !isMember existing req.userId member) = [] := by
      refine List.filter_eq_nil_iff.mpr fun member hmember ↦ ?_
      have htenant : member.tenantId ∈ [existing] := hexisting ▸ List.mem_map_of_mem hmember
      simp [isMember, List.mem_singleton.mp htenant, (mem_activeOf.mp hmember).2.1]
    rw [noneDeactivated_iff_of_not_active hnotMember]
    split_ifs with hany
    · simp [hleft, hany]
    · refine iff_of_true ?_ hany
      rw [List.filter_append, hleft]
      simp [isMember, Ne.symm hne]

/-- A member of a bootstrap tenant signs in with a claim of tenant 2 for the first time. -/
def acmeSignIn : SignInRequest where
  userId := 7
  setting := none
  provider := some "google"
  profile := some [("hd", .text "acme.example".toList)]
  tenantId := 9
  claimId := 9
  slugSuffix := "00000000".toList
  createdAt := 0

/-- Tenant 1 is a bootstrap tenant, and tenant 2 has the claim. -/
def acmeStore (userTenantId : Uuid) (members : List TenantMember) (rows : List ScopedRow) : Store where
  tenants := [
    { id := 1, externalId := none, name := "u".toList, slug := "u-1".toList, isBootstrap := true, createdAt := 0 },
    { id := 2, externalId := some "acme.example".toList, name := "acme".toList, slug := "acme".toList,
      isBootstrap := false, createdAt := 1 }]
  claims := [{ id := 3, tenantId := 2, claim := "acme.example".toList, createdBy := "signin", revokedAt := none }]
  events := []
  users := [⟨7, userTenantId⟩]
  members := members
  rows := rows

/-- The membership in tenant 2 was deactivated: the sign-in is `ok` and leaves the user without a membership. -/
theorem deactivated_member_signs_in :
    ((ensureTenantMembershipForSignIn kelvinMapping id acmeSignIn).alone ⟨acmeStore 2 [⟨2, 7, some 5⟩] [], []⟩).1 = .ok .ok ∧
      ¬ Coherent kelvinMapping 7 "acme.example".toList
        ((ensureTenantMembershipForSignIn kelvinMapping id acmeSignIn).alone ⟨acmeStore 2 [⟨2, 7, some 5⟩] [], []⟩).2 := by
  refine ⟨by decide +kernel, ?_⟩
  rintro ⟨tenantId, -, hactive, -⟩
  have hnone : activeOf ((ensureTenantMembershipForSignIn kelvinMapping id acmeSignIn).alone
      ⟨acmeStore 2 [⟨2, 7, some 5⟩] [], []⟩).2.db.members 7 = [] := by
    decide +kernel
  rw [hnone] at hactive
  exact nomatch hactive

/-- The user of the bootstrap tenant is moved. -/
theorem bootstrap_member_signs_in : Coherent kelvinMapping 7 "acme.example".toList
      ((ensureTenantMembershipForSignIn kelvinMapping id acmeSignIn).alone ⟨acmeStore 1 [⟨1, 7, none⟩] [], []⟩).2 := by
  have hclaim : extractTenantClaimValue kelvinMapping acmeSignIn.setting acmeSignIn.provider acmeSignIn.profile =
      some (.claim "acme.example".toList) := by
    decide +kernel
  have huser : (acmeStore 1 [⟨1, 7, none⟩] []).users.find? (·.id = acmeSignIn.userId) = some ⟨7, 1⟩ := by decide +kernel
  refine (signIn_coherent_iff hclaim ?_ huser ?_).mpr ⟨2, ?_, ?_, .inr ⟨1, ?_, ?_⟩⟩ <;> decide +kernel

end Tenancy

end PasswdSso.SignIn
