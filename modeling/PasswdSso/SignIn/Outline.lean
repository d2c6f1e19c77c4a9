import PasswdSso.SignIn.Registry

/-!
# Proof outlines of the registry

`Effect` says what a commit can do to the registry: rows stay and keep their key, their tenant changes under the label
of a reassignment only, a new key is held by its unique lock, and a new tenant comes with the row of its claim. A call
that has routed a claim commits a label with the claim and the tenant; it has found the claim leading there, and no
revoked row of its key. The rest are the outlines of the two lookups and of the commands.
-/

namespace PasswdSso.SignIn

open ReadCommitted List Store Event

/-- The unique indexes of `tenant_claims`. -/
structure Store.Unique (db : Store) : Prop where
  ids : claimTable.KeysUnique db
  claims : (db.claims.map TenantClaim.claim).Nodup

instance (db : Store) : Decidable db.Unique :=
  decidable_of_iff (claimTable.KeysUnique db ∧ (db.claims.map TenantClaim.claim).Nodup)
    ⟨fun h ↦ ⟨h.1, h.2⟩, fun h ↦ ⟨h.ids, h.claims⟩⟩

/-- The tenant has the row of the key. -/
def Store.Owns (db : Store) (key : List Char) (tenantId : Uuid) : Prop :=
  ∃ row ∈ db.claims, row.claim = key ∧ row.tenantId = tenantId

/-- The row of the key is revoked. -/
def Store.Revoked (db : Store) (key : List Char) : Prop := ∃ row ∈ db.claims, row.claim = key ∧ row.revokedAt ≠ none

variable {db : Store} {key : List Char}

theorem Store.Unique.eq (h : db.Unique) {first second : TenantClaim} (hfirst : first ∈ db.claims)
    (hsecond : second ∈ db.claims) (hclaim : first.claim = second.claim) : first = second :=
  inj_on_of_nodup_map h.claims hfirst hsecond hclaim

theorem Store.Unique.owner_eq (h : db.Unique) {first second : Uuid} (hfirst : db.Owns key first)
    (hsecond : db.Owns key second) : first = second := by
  obtain ⟨row, hrow, hkey, rfl⟩ := hfirst
  obtain ⟨other, hother, hotherKey, rfl⟩ := hsecond
  rw [h.eq hrow hother (hkey.trans hotherKey.symm)]

theorem Store.mem_of_findClaimRow {row : TenantClaim} (h : db.findClaimRow key = some row) :
    row ∈ db.claims ∧ row.claim = key :=
  ⟨mem_of_find?_eq_some h, by simpa using find?_some h⟩

theorem Store.ne_of_findClaimRow (h : db.findClaimRow key = none) : ∀ row ∈ db.claims, row.claim ≠ key :=
  fun row hrow ↦ by simpa using find?_eq_none.mp h row hrow

theorem Store.mem_of_byExternalId {externalId : List Char} {tenant : Tenant}
    (h : db.byExternalId externalId = some tenant) : tenant ∈ db.tenants ∧ tenant.externalId = some externalId :=
  ⟨mem_of_find?_eq_some h, by simpa using find?_some h⟩

/-- What a commit may make of a claim row. -/
structure TenantClaim.Becomes (label : Event) (row row' : TenantClaim) : Prop where
  id : row'.id = row.id
  claim : row'.claim = row.claim
  tenant : row'.tenantId = row.tenantId ∨ label = .reassigned row.claim
  restored : row.revokedAt ≠ none → row'.revokedAt ≠ none ∨ label = .unrevoked row.claim ∨ label = .reassigned row.claim

theorem TenantClaim.Becomes.refl (label : Event) (row : TenantClaim) : row.Becomes label row :=
  ⟨rfl, rfl, .inl rfl, .inl⟩

section Contract

variable (m : CaseMapping)

/-- The claim leads to the tenant: by the row of its key, unless that was reassigned, or by the external id. -/
def Routes (tenantClaim : List Char) (tenantId : Uuid) (w : World Store Event) : Prop :=
  w.db.Owns (normalizeTenantClaim m tenantClaim) tenantId ∨ .reassigned (normalizeTenantClaim m tenantClaim) ∈ w.log ∨
    ∃ tenant ∈ w.db.tenants, tenant.externalId = some tenantClaim ∧ tenant.id = tenantId

def Open (key : List Char) (w : World Store Event) : Prop := ¬ w.db.Revoked key ∨ .revoked key ∈ w.log

structure Effect (held : List (Lock × Mode)) (w : World Store Event) (label : Event) (db : Store) : Prop where
  before : w.db.Unique
  unique : db.Unique
  tenants : w.db.tenants ⊆ db.tenants
  born : ∀ tenant ∈ db.tenants, tenant ∈ w.db.tenants ∨
    ∀ tenantClaim, tenant.externalId = some tenantClaim → db.Owns (normalizeTenantClaim m tenantClaim) tenant.id
  kept : ∀ row ∈ w.db.claims, ∃ row' ∈ db.claims, row.Becomes label row'
  added : ∀ row ∈ db.claims, (∃ old ∈ w.db.claims, old.id = row.id ∧ old.claim = row.claim ∧
    (row.revokedAt ≠ none → old.revokedAt ≠ none ∨ label = .revoked row.claim)) ∨
    row.revokedAt = none ∧ (.claim row.claim, .exclusive) ∈ held
  rows : claimTable.KeptExcept .claimRow held w.db db
  revoked : ∀ key, label = .revoked key → ∃ row ∈ w.db.claims, row.claim = key ∧ row.revokedAt = none
  routed : ∀ tenantClaim tenantId, label = .routed tenantClaim tenantId →
    Routes m tenantClaim tenantId (w.commit label db) ∧ Open (normalizeTenantClaim m tenantClaim) (w.commit label db)

def routing : Contract Store Lock Event where
  allowed _ _ w := w.db.Unique
  guarantee := Effect m

variable {m} {held : List (Lock × Mode)} {w v : World Store Event} {label : Event} {db : Store} {key : List Char}
  {tenantClaim : List Char} {tenantId : Uuid}

theorem Effect.owns (h : Effect m held w label db) (howns : w.db.Owns key tenantId) :
    db.Owns key tenantId ∨ label = .reassigned key := by
  obtain ⟨row, hrow, rfl, rfl⟩ := howns
  obtain ⟨row', hrow', hbecomes⟩ := h.kept row hrow
  exact hbecomes.tenant.imp_left fun htenant ↦ ⟨row', hrow', hbecomes.claim, htenant⟩

theorem preserves_routes : (routing m).Preserves (Routes m tenantClaim tenantId) := by
  rintro theirs w label db (howns | hlog | ⟨tenant, htenant, hrest⟩) heffect
  · refine (Effect.owns heffect howns).imp_right fun hlabel ↦ .inl ?_
    rw [hlabel]
    exact mem_cons_self
  · exact .inr (.inl (mem_cons_of_mem _ hlog))
  · exact .inr (.inr ⟨tenant, heffect.tenants htenant, hrest⟩)

theorem Effect.open (h : Effect m held w label db) (hopen : Open key w) : Open key (w.commit label db) := by
  rcases hopen with hnone | hlog
  · refine or_iff_not_imp_left.mpr fun hrevoked ↦ ?_
    obtain ⟨row, hrow, rfl, hrowRevoked⟩ := not_not.mp hrevoked
    rcases h.added row hrow with ⟨old, hold, -, hclaim, hwas⟩ | ⟨hlive, -⟩
    · rcases hwas hrowRevoked with holdRevoked | rfl
      · exact absurd ⟨old, hold, hclaim, holdRevoked⟩ hnone
      · exact mem_cons_self
    · exact absurd hlive hrowRevoked
  · exact .inr (mem_cons_of_mem _ hlog)

theorem preserves_open : (routing m).Preserves (Open key) :=
  fun _ _ _ _ hopen heffect ↦ Effect.open heffect hopen

theorem preserves_version (row : TenantClaim) :
    (routing m).Preserves fun w ↦ ∃ row' ∈ w.db.claims, row'.id = row.id ∧ row'.claim = row.claim := by
  rintro theirs w label db ⟨row', hrow', hid, hclaim⟩ heffect
  obtain ⟨next, hnext, hbecomes⟩ := heffect.kept row' hrow'
  exact ⟨next, hnext, hbecomes.id.trans hid, hbecomes.claim.trans hclaim⟩

theorem claims_claim : (routing m).Claims claimTable TenantClaim.claim .claim := by
  intro theirs w label db heffect row hrow
  refine (heffect.added row hrow).imp ?_ And.right
  rintro ⟨old, hold, -, hclaim, -⟩
  exact ⟨old, hold, hclaim⟩

theorem keeps_claims : (routing m).Keeps claimTable .claimRow := fun _ _ _ _ heffect ↦ Effect.rows heffect

theorem unique_earlier (h : (routing m).Later held v w) (hnow : w.db.Unique) : v.db.Unique := by
  have hcommits (theirs : List (Lock × Mode)) (v : World Store Event) (label : Event) (db : Store)
      (heffect : (routing m).guarantee theirs v label db) : (fun v : World Store Event ↦ v.db.Unique) v :=
    Effect.before heffect
  exact h.earlier hcommits hnow

theorem Effect.of_rows {g : TenantClaim → TenantClaim} {new : Option TenantClaim} (hunique : w.db.Unique)
    (hclaims : db.claims = w.db.claims.map g ++ new.toList)
    (hbecomes : ∀ row ∈ w.db.claims, row.Becomes label (g row))
    (hwithdrawn : ∀ row ∈ w.db.claims, (g row).revokedAt ≠ none → row.revokedAt ≠ none ∨ label = .revoked row.claim)
    (hlocked : ∀ row ∈ w.db.claims, g row ≠ row → (.claimRow row.id, .exclusive) ∈ held)
    (hnew : ∀ row ∈ new, row.revokedAt = none ∧ ((.claimRow row.id, .exclusive) ∈ held ∧
      (.claim row.claim, .exclusive) ∈ held) ∧ ∀ old ∈ w.db.claims, old.id ≠ row.id ∧ old.claim ≠ row.claim)
    (htenants : w.db.tenants ⊆ db.tenants)
    (hborn : ∀ tenant ∈ db.tenants, tenant ∈ w.db.tenants ∨ ∀ tenantClaim, tenant.externalId = some tenantClaim →
      db.Owns (normalizeTenantClaim m tenantClaim) tenant.id)
    (hrevoked : ∀ key, label = .revoked key → ∃ row ∈ w.db.claims, row.claim = key ∧ row.revokedAt = none)
    (hrouted : ∀ tenantClaim tenantId, label = .routed tenantClaim tenantId →
      Routes m tenantClaim tenantId (w.commit label db) ∧
        Open (normalizeTenantClaim m tenantClaim) (w.commit label db)) : Effect m held w label db := by
  -- A unique column that no change touches, and whose value in the new row is free.
  have hnodup {V : Type} (column : TenantClaim → V) (hold : (w.db.claims.map column).Nodup)
      (hg : ∀ row ∈ w.db.claims, column (g row) = column row)
      (hfree : ∀ row ∈ new, ∀ old ∈ w.db.claims, column old ≠ column row) : (db.claims.map column).Nodup := by
    have hmap : (w.db.claims.map g).map column = w.db.claims.map column := by
      rw [map_map]
      exact map_congr_left hg
    rw [hclaims, map_append, hmap]
    refine nodup_append.mpr ⟨hold, ?_, ?_⟩
    · cases new with
      | none => exact nodup_nil
      | some row => exact nodup_singleton _
    · rintro value hvalue other hother rfl
      obtain ⟨old, holdMem, rfl⟩ := mem_map.mp hvalue
      obtain ⟨row, hrow, heq⟩ := mem_map.mp hother
      exact hfree row (Option.mem_toList.mp hrow) old holdMem heq.symm
  exact {
    before := hunique
    unique :=
      ⟨hnodup TenantClaim.id hunique.ids (fun row hrow ↦ (hbecomes row hrow).id)
          fun row hrow old hold ↦ ((hnew row hrow).2.2 old hold).1,
        hnodup TenantClaim.claim hunique.claims (fun row hrow ↦ (hbecomes row hrow).claim)
          fun row hrow old hold ↦ ((hnew row hrow).2.2 old hold).2⟩
    tenants := htenants
    born := hborn
    kept := fun row hrow ↦ ⟨g row, by
      rw [hclaims]
      exact mem_append_left _ (mem_map_of_mem hrow), hbecomes row hrow⟩
    added := by
      intro row hrow
      rw [hclaims, mem_append, Option.mem_toList] at hrow
      rcases hrow with hold | hadded
      · obtain ⟨old, hmem, rfl⟩ := mem_map.mp hold
        refine .inl ⟨old, hmem, (hbecomes old hmem).id.symm, (hbecomes old hmem).claim.symm, fun hrevoked ↦ ?_⟩
        rw [(hbecomes old hmem).claim]
        exact hwithdrawn old hmem hrevoked
      · exact .inr ⟨(hnew row hadded).1, (hnew row hadded).2.1.2⟩
    rows := by
      intro row hrow
      change row ∈ db.claims ↔ row ∈ w.db.claims
      rw [hclaims, mem_append, Option.mem_toList]
      constructor
      · rintro (hold | hadded)
        · obtain ⟨old, hmem, rfl⟩ := mem_map.mp hold
          by_cases hsame : g old = old
          · rwa [hsame]
          · refine absurd ?_ hrow
            change (Lock.claimRow (g old).id, Mode.exclusive) ∈ held
            rw [(hbecomes old hmem).id]
            exact hlocked old hmem hsame
        · exact absurd (hnew row hadded).2.1.1 hrow
      · refine fun hmem ↦ .inl (mem_map.mpr ⟨row, hmem, ?_⟩)
        by_contra hchanged
        exact hrow (hlocked row hmem hchanged)
    revoked := hrevoked
    routed := hrouted }

theorem Effect.unchanged (hunique : w.db.Unique) (hclaims : db.claims = w.db.claims)
    (htenants : db.tenants = w.db.tenants) (hrevoked : ∀ key, label ≠ .revoked key)
    (hrouted : ∀ tenantClaim tenantId, label = .routed tenantClaim tenantId →
      Routes m tenantClaim tenantId w ∧ Open (normalizeTenantClaim m tenantClaim) w) : Effect m held w label db := by
  have hrows : db.claims = w.db.claims.map id ++ (none : Option TenantClaim).toList := by simp [hclaims]
  refine .of_rows hunique hrows (fun row _ ↦ .refl label row) (fun _ _ h ↦ .inl h) (fun _ _ h ↦ absurd rfl h) nofun
    (htenants ▸ List.Subset.refl _) (fun _ h ↦ .inl (htenants ▸ h))
    (fun key h ↦ absurd h (hrevoked key)) fun tenantClaim tenantId hlabel ↦ ?_
  obtain ⟨hroutes, hopen⟩ := hrouted tenantClaim tenantId hlabel
  refine ⟨?_, ?_⟩
  · rcases hroutes with ⟨row, hrow, howns⟩ | hlog | ⟨tenant, htenant, hrest⟩
    · exact .inl ⟨row, hclaims ▸ hrow, howns⟩
    · exact .inr (.inl (mem_cons_of_mem _ hlog))
    · exact .inr (.inr ⟨tenant, htenants ▸ htenant, hrest⟩)
  · refine hopen.imp (fun hnone hrevoked ↦ hnone ?_) (mem_cons_of_mem _)
    obtain ⟨row, hrow, hrest⟩ := hrevoked
    exact ⟨row, hclaims ▸ hrow, hrest⟩

end Contract

section Outlines

variable {m : CaseMapping} {sha256Hex : List Char → List Char} {stand : Stand Store Lock Event}
  {w : World Store Event}

def Untouched (stand : Stand Store Lock Event) : Prop :=
  ∀ db, (stand.pending db).claims = db.claims ∧ (stand.pending db).tenants = db.tenants

theorem untouched_idle : Untouched (.idle w) := fun _ ↦ ⟨rfl, rfl⟩

section Reading

variable (h : Untouched stand)

include h

variable {c : Contract Store Lock Event} {tenantClaim : List Char}

theorem Untouched.step {next : Stand Store Lock Event} {locks : List (Lock × Mode)} {write : Store → Store}
    (hstep : stand.Step c next locks write)
    (hwrite : ∀ db, (write db).claims = db.claims ∧ (write db).tenants = db.tenants) : Untouched next := by
  intro db
  rw [hstep.pending]
  exact ⟨(hwrite _).1.trans (h db).1, (hwrite _).2.trans (h db).2⟩

theorem Untouched.read {α β : Type} {f : Store → β} {k : β → Server α} {post : α → Stand Store Lock Event → Prop}
    (hk : ∀ next, stand.Reaches c next → Untouched next → Outline c (k (f (stand.pending next.seen.db))) next post) :
    Outline c (Prog.read f >>= k) stand post :=
  .read fun next hnext ↦ hk next hnext.reaches (h.step hnext fun _ ↦ ⟨rfl, rfl⟩)

theorem Untouched.findClaimRow (db : Store) (key : List Char) :
    (stand.pending db).findClaimRow key = db.findClaimRow key := by
  rw [Store.findClaimRow, (h db).1, Store.findClaimRow]

theorem Untouched.byExternalId (db : Store) (externalId : List Char) :
    (stand.pending db).byExternalId externalId = db.byExternalId externalId := by
  rw [Store.byExternalId, (h db).2, Store.byExternalId]

theorem Untouched.commits {label : Event} (hrevoked : ∀ key, label ≠ .revoked key)
    (hrouted : ∀ tenantClaim tenantId, label ≠ .routed tenantClaim tenantId) : (routing m).Commits stand label :=
  fun w _ hallowed ↦ .unchanged hallowed (h w.db).1 (h w.db).2 hrevoked
    fun tenantClaim tenantId hlabel ↦ absurd hlabel (hrouted tenantClaim tenantId)

theorem Untouched.commits_row {row : TenantClaim}
    (hrow : stand.seen.db.findClaimRow (normalizeTenantClaim m tenantClaim) = some row) (hlive : row.revokedAt = none) :
    (routing m).Commits stand (.routed tenantClaim row.tenantId) := by
  obtain ⟨hmem, hkey⟩ := mem_of_findClaimRow hrow
  intro w hw hallowed
  refine .unchanged hallowed (h w.db).1 (h w.db).2 nofun fun _ _ hlabel ↦ ?_
  obtain ⟨rfl, rfl⟩ := routed.inj hlabel
  refine ⟨preserves_routes.later (.inl ⟨row, hmem, hkey, rfl⟩) hw, preserves_open.later (.inl ?_) hw⟩
  rintro ⟨other, hother, hotherKey, hrevoked⟩
  rw [(unique_earlier hw hallowed).eq hother hmem (hotherKey.trans hkey.symm)] at hrevoked
  exact hrevoked hlive

theorem Untouched.commits_externalId {before : Stand Store Lock Event} {tenant : Tenant}
    (hreaches : before.Reaches (routing m) stand)
    (hnone : before.seen.db.findClaimRow (normalizeTenantClaim m tenantClaim) = none)
    (htenant : stand.seen.db.byExternalId tenantClaim = some tenant) :
    (routing m).Commits stand (.routed tenantClaim tenant.id) := by
  obtain ⟨hmem, hexternalId⟩ := mem_of_byExternalId htenant
  intro w hw hallowed
  refine .unchanged hallowed (h w.db).1 (h w.db).2 nofun fun _ _ hlabel ↦ ?_
  obtain ⟨rfl, rfl⟩ := routed.inj hlabel
  refine ⟨preserves_routes.later (.inr (.inr ⟨tenant, hmem, hexternalId, rfl⟩)) hw, ?_⟩
  refine preserves_open.later (.inl ?_) (hreaches.until hw)
  rintro ⟨row, hrow, hkey, -⟩
  exact ne_of_findClaimRow hnone row hrow hkey

end Reading

/-- The transaction has added a row whose keys were free when it locked them, and tenants that own it. -/
structure Added (m : CaseMapping) (row : TenantClaim) (new : List Tenant) (stand : Stand Store Lock Event) :
    Prop where
  claims : ∀ db, (stand.pending db).claims = db.claims ++ [row]
  tenants : ∀ db, (stand.pending db).tenants = db.tenants ++ new
  live : row.revokedAt = none
  owned : ∀ tenant ∈ new, tenant.id = row.tenantId ∧
    ∀ tenantClaim, tenant.externalId = some tenantClaim → normalizeTenantClaim m tenantClaim = row.claim
  locks : (.claimRow row.id, .exclusive) ∈ stand.held ∧ (.claim row.claim, .exclusive) ∈ stand.held
  free : ∀ old ∈ stand.seen.db.claims, old.id ≠ row.id ∧ old.claim ≠ row.claim

variable {row : TenantClaim} {new : List Tenant} {keys : List Uuid} {f : TenantClaim → TenantClaim}
  {known : TenantClaim → Prop}

theorem Added.free_later (h : Added m row new stand) (hw : (routing m).Later stand.held stand.seen w) :
    ∀ old ∈ w.db.claims, old.id ≠ row.id ∧ old.claim ≠ row.claim :=
  fun old hold ↦
    ⟨keeps_claims.absent hw h.locks.1 (fun old hold ↦ (h.free old hold).1) old hold,
      claims_claim.absent hw h.locks.2 (fun old hold ↦ (h.free old hold).2) old hold⟩

variable {label : Event} {next : Stand Store Lock Event} {α : Type} {post : α → Stand Store Lock Event → Prop}
  {req : FindOrCreate} {slug : List Char}

theorem Added.commits (h : Added m row new stand) (hrevoked : ∀ key, label ≠ .revoked key)
    (hrouted : ∀ tenantClaim tenantId, label = .routed tenantClaim tenantId →
      normalizeTenantClaim m tenantClaim = row.claim ∧ tenantId = row.tenantId) :
    (routing m).Commits stand label := by
  intro w hw hallowed
  have hfree := h.free_later hw
  have howns : (stand.pending w.db).Owns row.claim row.tenantId :=
    ⟨row, by rw [h.claims]; exact mem_append_right _ (mem_singleton_self row), rfl, rfl⟩
  have hrows : (stand.pending w.db).claims = w.db.claims.map id ++ (some row).toList := by simp [h.claims]
  refine .of_rows hallowed hrows (fun old _ ↦ .refl label old) (fun _ _ h ↦ .inl h) (fun _ _ h ↦ absurd rfl h) ?_ ?_ ?_
    (fun key hlabel ↦ absurd hlabel (hrevoked key)) fun tenantClaim tenantId hlabel ↦ ?_
  · intro other hother
    obtain rfl := Option.mem_some_iff.mp hother
    exact ⟨h.live, h.locks, hfree⟩
  · rw [h.tenants]
    exact subset_append_left _ _
  · intro tenant htenant
    rw [h.tenants, mem_append] at htenant
    refine htenant.imp_right fun hnew tenantClaim hexternalId ↦ ?_
    obtain ⟨hid, hkey⟩ := h.owned tenant hnew
    rw [hid, hkey tenantClaim hexternalId]
    exact howns
  · obtain ⟨hkey, rfl⟩ := hrouted tenantClaim tenantId hlabel
    refine ⟨.inl (hkey ▸ howns), .inl ?_⟩
    rintro ⟨other, hother, hotherKey, hrowRevoked⟩
    rw [World.commit_db, h.claims, mem_append, mem_singleton] at hother
    rcases hother with hold | rfl
    · exact (hfree other hold).2 (hotherKey.trans hkey)
    · exact hrowRevoked h.live

theorem Added.event {event : TenantClaimEvent} (h : Added m row new stand)
    (hstep : stand.Step (routing m) next [] fun db ↦ { db with events := db.events ++ [event] }) :
    Added m row new next where
  claims db := by rw [hstep.pending]; exact h.claims db
  tenants db := by rw [hstep.pending]; exact h.tenants db
  live := h.live
  owned := h.owned
  locks := ⟨hstep.reaches.held h.locks.1, hstep.reaches.held h.locks.2⟩
  free := h.free_later hstep.later

/-- The transaction has changed rows that it holds; `known` is what is known of them. -/
structure Changed (keys : List Uuid) (f : TenantClaim → TenantClaim) (known : TenantClaim → Prop)
    (stand : Stand Store Lock Event) : Prop where
  claims : ∀ db, (stand.pending db).claims = (claimTable.modify keys f db).claims
  tenants : ∀ db, (stand.pending db).tenants = db.tenants
  locks : ∀ key ∈ keys, (.claimRow key, .exclusive) ∈ stand.held
  found : stand.seen.db.Unique → ∀ key ∈ keys, ∃ row ∈ stand.seen.db.claims, row.id = key ∧ known row

theorem Changed.found_later (h : Changed keys f known stand) (hw : (routing m).Later stand.held stand.seen w)
    (hunique : w.db.Unique) :
    ∀ key ∈ keys, ∃ row ∈ w.db.claims, row.id = key ∧ known row := by
  intro key hkey
  obtain ⟨row, hmem, rfl, hrow⟩ := h.found (unique_earlier hw hunique) key hkey
  exact ⟨row, (keeps_claims.later hw (h.locks row.id hkey)).mpr hmem, rfl, hrow⟩

theorem Changed.commits (h : Changed keys f known stand) (hbecomes : ∀ row, known row → row.Becomes label (f row))
    (hwithdrawn : ∀ row, known row → (f row).revokedAt ≠ none → row.revokedAt ≠ none ∨ label = .revoked row.claim)
    (hrevoked : ∀ key, label = .revoked key → keys ≠ [] ∧ ∀ row, known row → row.claim = key ∧ row.revokedAt = none)
    (hrouted : ∀ tenantClaim tenantId, label ≠ .routed tenantClaim tenantId) : (routing m).Commits stand label := by
  intro w hw hallowed
  have hfound := h.found_later hw hallowed
  have hknown (row : TenantClaim) (hmem : row ∈ w.db.claims) (hkey : row.id ∈ keys) : known row := by
    obtain ⟨other, hother, hid, hotherKnown⟩ := hfound row.id hkey
    rwa [← hallowed.ids.eq_of_key_eq hother hmem hid]
  have hrows : (stand.pending w.db).claims =
      w.db.claims.map (fun row ↦ if row.id ∈ keys then f row else row) ++ (none : Option TenantClaim).toList := by
    rw [h.claims]
    exact (append_nil _).symm
  refine .of_rows hallowed hrows (fun row hmem ↦ ?_) (fun row hmem ↦ ?_) (fun row _ hchanged ↦ ?_) nofun
    (h.tenants w.db ▸ List.Subset.refl _) (fun _ htenant ↦ .inl (h.tenants w.db ▸ htenant)) ?_
    fun tenantClaim tenantId hlabel ↦ absurd hlabel (hrouted tenantClaim tenantId)
  · split_ifs with hkey
    · exact hbecomes row (hknown row hmem hkey)
    · exact .refl label row
  · split_ifs with hkey
    · exact hwithdrawn row (hknown row hmem hkey)
    · exact .inl
  · split_ifs at hchanged with hkey
    · exact h.locks row.id hkey
    · exact absurd rfl hchanged
  · intro key hlabel
    obtain ⟨hkeys, hlive⟩ := hrevoked key hlabel
    obtain ⟨first, hfirst⟩ := exists_mem_of_ne_nil keys hkeys
    obtain ⟨row, hmem, -, hrow⟩ := hfound first hfirst
    exact ⟨row, hmem, hlive row hrow⟩

theorem Changed.event {event : TenantClaimEvent} (h : Changed keys f known stand)
    (hstep : stand.Step (routing m) next [] fun db ↦ { db with events := db.events ++ [event] }) :
    Changed keys f known next where
  claims db := by rw [hstep.pending]; exact h.claims db
  tenants db := by rw [hstep.pending]; exact h.tenants db
  locks key hkey := hstep.reaches.held (h.locks key hkey)
  found := h.found_later hstep.later

theorem Untouched.updateMany {sel : TenantClaim → Bool} {k : Nat → Server α} (hstand : Untouched stand)
    (h : ∀ next keys, stand.Reaches (routing m) next → Changed keys f (fun row ↦ sel row = true) next →
      Outline (routing m) (k keys.length) next post) :
    Outline (routing m) (Prog.updateMany claimTable .claimRow sel f >>= k) stand post := by
  refine .updateMany fun snapshot next candidates keys hwrite ↦ ?_
  have hpending (db : Store) : next.pending db = claimTable.modify keys f (stand.pending db) :=
    congrFun hwrite.pending db
  refine h next keys hwrite.reaches
    { claims := fun db ↦ ?_, tenants := fun db ↦ ?_, locks := fun key hkey ↦ ?_, found := fun _ key hkey ↦ ?_ }
  · change claimTable.rows (next.pending db) = claimTable.rows (claimTable.modify keys f db)
    rw [hpending, Table.rows_modify, Table.rows_modify]
    exact congrArg _ (hstand db).1
  · rw [hpending]
    exact (hstand db).2
  · exact hwrite.mem_held hkey
  · obtain ⟨row, hrow, hsel, rfl⟩ := hwrite.found hkey
    exact ⟨row, (hstand _).1 ▸ hrow, rfl, hsel⟩

theorem Untouched.createTenant {k : Bool → Server α} (hstand : Untouched stand)
    (hclash : ∀ next, stand.Reaches (routing m) next → Untouched next → Outline (routing m) (k true) next post)
    (hadded : ∀ next, Added m (req.claimRow m) [req.tenant slug] next → Outline (routing m) (k false) next post) :
    Outline (routing m) (SignIn.createTenant m req slug >>= k) stand post := by
  refine .insert (fun next hstep hfree ↦ ?_) fun next hstep _ ↦
    hclash next hstep.reaches (hstand.step hstep fun _ ↦ ⟨rfl, rfl⟩)
  have hpending (db : Store) :
      next.pending db = addTenant (req.tenant slug) (req.claimRow m) (stand.pending db) := by
    rw [hstep.pending]
    rfl
  refine hadded next {
    claims := fun db ↦ by rw [hpending, addTenant, (hstand db).1]
    tenants := fun db ↦ by rw [hpending, addTenant, (hstand db).2]
    live := rfl
    owned := ?_
    locks := ⟨hstep.mem_held (by simp [FindOrCreate.claimRow]), hstep.mem_held (by simp)⟩
    free := fun old hold ↦ ?_ }
  · intro tenant htenant
    obtain rfl := mem_singleton.mp htenant
    refine ⟨rfl, fun tenantClaim hexternalId ↦ ?_⟩
    rw [← Option.some.inj hexternalId]
    rfl
  · rw [clashes, Bool.or_eq_false_iff, (hstand _).1] at hfree
    simpa using any_eq_false.mp hfree.2 old hold

theorem Added.recordCreation (h : Added m (req.claimRow m) [req.tenant slug] stand) :
    Earns (routing m) (SignIn.recordCreation m req) stand req.label := by
  refine .write fun next hstep ↦ .ok ((h.event hstep).commits nofun ?_)
  intro tenantClaim tenantId hlabel
  obtain ⟨rfl, rfl⟩ := routed.inj hlabel
  exact ⟨rfl, rfl⟩

theorem returns_findOrCreateTenantForClaim (req : FindOrCreate) :
    Earns (routing m) (findOrCreateTenantForClaim m sha256Hex req) (.idle w) req.label := by
  have hrefused (stand : Stand Store Lock Event) (h : Untouched stand) :
      (routing m).Commits stand (.refused req.tenantClaim) := h.commits nofun nofun
  refine .lockingRead fun locked hlock ↦ ?_
  have hlocked : Untouched locked := untouched_idle.step hlock fun _ ↦ ⟨rfl, rfl⟩
  refine hlocked.read fun looked _ hlooked ↦ ?_
  rw [hlocked.findClaimRow]
  cases hrow : looked.seen.db.findClaimRow (normalizeTenantClaim m req.tenantClaim) with
  | some row =>
    refine .ok ?_
    split
    next hlive => exact hlooked.commits_row hrow hlive
    next => exact hrefused looked hlooked
  | none =>
    refine hlooked.read fun next hnext huntouched ↦ ?_
    rw [hlooked.byExternalId]
    cases htenant : next.seen.db.byExternalId req.tenantClaim with
    | some tenant => exact .ok (huntouched.commits_externalId hnext hrow htenant)
    | none =>
      cases storableClaimIssue m (normalizeTenantClaim m req.tenantClaim) with
      | some issue => exact .ok (hrefused next huntouched)
      | none =>
        refine huntouched.read fun probed _ hprobed ↦ ?_
        cases (next.pending probed.seen.db).findFoldedExternalIdOwner (normalizeTenantClaim m req.tenantClaim) with
        | some owner => exact .ok (hrefused probed hprobed)
        | none =>
          refine hprobed.createTenant (fun retried _ hretried ↦ ?_) fun _ hadded ↦ hadded.recordCreation
          exact hretried.createTenant (fun _ _ _ ↦ .error) fun _ hadded ↦ hadded.recordCreation

theorem outline_resolveTenantByClaim (tenantClaim : List Char) :
    Outline (routing m) (resolveTenantByClaim m tenantClaim) (.idle w)
      fun value after ↦ (routing m).Commits after (value.label tenantClaim) := by
  have hrefused (stand : Stand Store Lock Event) (h : Untouched stand) :
      (routing m).Commits stand (.refused tenantClaim) := h.commits nofun nofun
  refine untouched_idle.read fun looked _ hlooked ↦ ?_
  rw [untouched_idle.findClaimRow]
  cases hrow : looked.seen.db.findClaimRow (normalizeTenantClaim m tenantClaim) with
  | some row =>
    change (routing m).Commits looked (ClaimLookup.label tenantClaim (if _ then _ else _))
    split
    next hlive => exact hlooked.commits_row hrow hlive
    next => exact hrefused looked hlooked
  | none =>
    refine hlooked.read fun next hnext huntouched ↦ ?_
    rw [hlooked.byExternalId]
    cases htenant : next.seen.db.byExternalId tenantClaim with
    | some tenant => exact huntouched.commits_externalId hnext hrow htenant
    | none =>
      cases storableClaimIssue m (normalizeTenantClaim m tenantClaim) with
      | some issue => exact hrefused next huntouched
      | none =>
        refine huntouched.read fun probed _ hprobed ↦ ?_
        cases (next.pending probed.seen.db).findFoldedExternalIdOwner (normalizeTenantClaim m tenantClaim) with
        | some owner | none => exact hrefused probed hprobed

theorem returns_lookUpClaim (tenantClaim : List Char) :
    Earns (routing m) (do return .ok (← resolveTenantByClaim m tenantClaim) : Server (Except Thrown ClaimLookup))
      (.idle w) fun value ↦ value.label tenantClaim :=
  outline_bind.mpr ((outline_resolveTenantByClaim tenantClaim).weaken fun _ _ hcommits ↦ .ok hcommits)

section Claims

variable (hstand : Untouched stand)

include hstand

variable {α : Type} {post : α → Stand Store Lock Event → Prop}

theorem Untouched.resolveTenantRef {ref : TenantRef} {k : Option Tenant → Server α}
    (h : ∀ next tenant, Untouched next → Outline (routing m) (k tenant) next post) :
    Outline (routing m) (SignIn.resolveTenantRef m ref >>= k) stand post := by
  cases ref with
  | id id => exact .read fun next hnext ↦ h next _ (hstand.step hnext fun _ ↦ ⟨rfl, rfl⟩)
  | text ref =>
    refine outline_bind.mpr (hstand.read fun looked _ hlooked ↦ ?_)
    have hsame (db : Store) : (id db).claims = db.claims ∧ (id db).tenants = db.tenants := ⟨rfl, rfl⟩
    cases (stand.pending looked.seen.db).findClaimRow (normalizeTenantClaim m ref) with
    | some row | none => exact fun w hw ↦ h _ _ (hlooked.step (Stand.step_afterStmt hw [] id) hsame)

variable {existing : TenantClaim} {req : AddClaim} {tenant : Tenant}

theorem Untouched.swapClaim {f : TenantClaim → TenantClaim} {k : Nat → Server α}
    (hexisting : existing ∈ stand.seen.db.claims)
    (h : ∀ next keys, Changed keys f (fun row ↦ row.claim = existing.claim) next →
      Outline (routing m) (k keys.length) next post) :
    Outline (routing m) (SignIn.swapClaim existing f >>= k) stand post := by
  refine hstand.updateMany fun next keys hreaches hchanged ↦
    h next keys { hchanged with found := fun hunique key hkey ↦ ?_ }
  obtain ⟨row, hrow, rfl, hsel⟩ := hchanged.found hunique key hkey
  obtain ⟨later, hlater, hid, hclaim⟩ :=
    (preserves_version existing).later ⟨existing, hexisting, rfl, rfl⟩ hreaches.later
  have hrowId : row.id = existing.id := of_decide_and (Bool.and_eq_true_iff.mp hsel).1
  exact ⟨row, hrow, rfl, by rw [hunique.ids.eq_of_key_eq hrow hlater (hrowId.trans hid.symm), hclaim]⟩

theorem returns_reassignClaim (hexisting : existing ∈ stand.seen.db.claims) :
    Earns (routing m) (reassignClaim req existing tenant) stand id := by
  refine hstand.swapClaim hexisting fun next keys hchanged ↦ ?_
  split
  · exact .error
  · refine .write fun final hstep ↦ .ok ((hchanged.event hstep).commits ?_ ?_ nofun nofun)
    · intro row hclaim
      have hlabel : reassigned existing.claim = .reassigned row.claim := congrArg _ hclaim.symm
      exact ⟨rfl, rfl, .inr hlabel, fun _ ↦ .inr (.inr hlabel)⟩
    · exact fun _ _ h ↦ absurd rfl h

theorem returns_unrevokeClaim (hexisting : existing ∈ stand.seen.db.claims) :
    Earns (routing m) (unrevokeClaim req existing tenant) stand id := by
  refine hstand.swapClaim hexisting fun next keys hchanged ↦ ?_
  split
  · exact .error
  · refine .write fun final hstep ↦ .ok ((hchanged.event hstep).commits ?_ ?_ nofun nofun)
    · exact fun row hclaim ↦ ⟨rfl, rfl, .inl rfl, fun _ ↦ .inr (.inl (congrArg unrevoked hclaim.symm))⟩
    · exact fun _ _ h ↦ absurd rfl h

theorem returns_registerClaim {claim : List Char} : Earns (routing m) (registerClaim req claim tenant) stand id := by
  refine Returns.insert fun next hstep hfree ↦ ?_
  have hadded : Added m (req.row claim tenant) [] next := {
    claims := fun db ↦ by
      rw [hstep.pending]
      exact congrArg (· ++ [req.row claim tenant]) (hstand db).1
    tenants := fun db ↦ by
      rw [hstep.pending, append_nil]
      exact (hstand db).2
    live := rfl
    owned := nofun
    locks := ⟨hstep.mem_held (by simp [AddClaim.row]), hstep.mem_held (by simp [AddClaim.row])⟩
    free := fun old hold ↦ by
      rw [(hstand _).1] at hfree
      simpa [AddClaim.row] using any_eq_false.mp hfree old hold }
  exact .write fun final hevent ↦ .ok ((hadded.event hevent).commits nofun nofun)

end Claims

theorem returns_addClaim (req : AddClaim) (claim : List Char) :
    Earns (routing m) (addClaim m req claim) (.idle w) id := by
  refine untouched_idle.resolveTenantRef fun next tenant hnext ↦ ?_
  cases tenant with
  | none => exact .error
  | some tenant =>
    refine hnext.read fun looked _ hlooked ↦ ?_
    rw [hnext.findClaimRow]
    cases hrow : looked.seen.db.findClaimRow claim with
    | none =>
      change Outline _ (if _ then _ else _) _ _
      split_ifs
      · exact .error
      · exact .error
      · exact returns_registerClaim hlooked
    | some existing =>
      have hexisting := (mem_of_findClaimRow hrow).1
      change Outline _ (if _ then _ else _) _ _
      split_ifs
      · exact .error
      · exact .error
      · exact .ok (hlooked.commits nofun nofun)
      · exact .error
      · exact returns_reassignClaim hlooked hexisting
      · exact returns_unrevokeClaim hlooked hexisting

theorem returns_removeClaim (req : RemoveClaim) (claim : List Char) :
    Earns (routing m) (removeClaim m req claim) (.idle w) id := by
  refine untouched_idle.resolveTenantRef fun next tenant hnext ↦ ?_
  cases tenant with
  | none => exact .error
  | some tenant =>
    refine hnext.read fun looked _ hlooked ↦ ?_
    rw [hnext.findClaimRow]
    cases looked.seen.db.findClaimRow claim with
    | none => exact .error
    | some existing =>
      change Outline _ (if _ then _ else _) _ _
      split_ifs
      · exact .error
      · exact .ok (hlooked.commits nofun nofun)
      · exact .error
      · refine hlooked.updateMany fun changed keys _ hchanged ↦ ?_
        split
        · exact .error
        next hcount =>
        refine .write fun final hstep ↦ .ok ((hchanged.event hstep).commits ?_ ?_ ?_ nofun)
        · exact fun row _ ↦ ⟨rfl, rfl, .inl rfl, fun _ ↦ .inl nofun⟩
        · intro row hsel _
          simp only [Bool.and_eq_true, decide_eq_true_eq] at hsel
          exact .inr (congrArg revoked hsel.1.1.symm)
        · intro key hlabel
          obtain rfl := revoked.inj hlabel
          refine ⟨fun hnil ↦ hcount (by rw [hnil]; rfl), fun row hsel ↦ ?_⟩
          simp only [Bool.and_eq_true, decide_eq_true_eq] at hsel
          exact ⟨hsel.1.1, hsel.2⟩

end Outlines

end PasswdSso.SignIn
