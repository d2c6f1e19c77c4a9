import PasswdSso.ReadCommitted.Alone
import PasswdSso.SignIn.Outline

/-!
# Claim routing over all interleavings

Calls of `findOrCreateTenantForClaim` and `resolveTenantByClaim` run among operators who register, revoke, restore and
reassign claims. A key has at most one row, and every claim with a registered key leads to the tenant of the row. Two
tenants whose external ids differ in case have no row between them, and each spelling leads to its own one.
-/

namespace PasswdSso.SignIn

open ReadCommitted List

/-- The sessions of a run. -/
inductive Request
  | route (req : FindOrCreate)
  | lookUp (tenantClaim : List Char)
  | add (req : AddClaim)
  | remove (req : RemoveClaim)

inductive Answer
  | resolution (result : Except Thrown ClaimTenantResolution)
  | lookup (result : Except Thrown ClaimLookup)
  | command (result : Except CommandError Event)

/-- The claim that a session resolves. -/
def Request.claim : Request → Option (List Char)
  | .route req => some req.tenantClaim
  | .lookUp tenantClaim => some tenantClaim
  | .add _ => none
  | .remove _ => none

/-- The tenant that a session has resolved its claim to. -/
def Answer.tenant : Answer → Option Uuid
  | .resolution (.ok (.tenant id)) => some id
  | .lookup (.ok (.tenant id)) => some id
  | _ => none

section Runs

variable (m : CaseMapping) (sha256Hex : List Char → List Char)

/-- The program of a session. -/
def Request.prog : Request → Server Answer
  | .route req => do return .resolution (← routeClaim m sha256Hex req)
  | .lookUp tenantClaim => do return .lookup (← lookUpClaim m tenantClaim)
  | .add req => do return .command (← cmdAdd m req)
  | .remove req => do return .command (← cmdRemove m req)

/-- A session that has resolved a claim to a tenant has left a label that says so. -/
def Request.Logged (request : Request) (answer : Answer) (after : Stand Store Lock Event) : Prop :=
  ∀ tenantClaim tenantId, request.claim = some tenantClaim → answer.tenant = some tenantId →
    .routed tenantClaim tenantId ∈ after.seen.log

variable {m sha256Hex} {w : World Store Event}

theorem outline_logged {ε β : Type} {label : β → Event} {body : Server (Except ε β)}
    (hbody : Earns (routing m) body (.idle w) label) :
    Outline (routing m) (Prog.transaction label body) (.idle w)
      fun result after ↦ ∀ value, result = .ok value → label value ∈ after.seen.log :=
  .transaction (routing m).preserves_true trivial hbody fun _ _ _ hlog ↦ hlog

theorem Request.outline (request : Request) (w : World Store Event) :
    Outline (routing m) (request.prog m sha256Hex) (.idle w) request.Logged := by
  cases request with
  | route req =>
    refine outline_bind.mpr ((outline_logged (returns_findOrCreateTenantForClaim req)).weaken ?_)
    rintro result after hlog _ tenantId ⟨⟩ htenant
    rcases result with _ | (_ | _ | _ | _) <;> cases htenant
    exact hlog _ rfl
  | lookUp tenantClaim =>
    refine outline_bind.mpr ((outline_logged (returns_lookUpClaim tenantClaim)).weaken ?_)
    rintro result after hlog _ tenantId ⟨⟩ htenant
    rcases result with _ | (_ | _ | _ | _ | _) <;> cases htenant
    exact hlog _ rfl
  | add req =>
    have hcommand : Respects (routing m) (cmdAdd m req) w := by
      change Outline _ (if _ then _ else _) _ _
      split_ifs
      · exact .inTransaction (returns_addClaim req _)
      · trivial
    exact outline_bind.mpr (hcommand.weaken fun _ _ _ ↦ nofun)
  | remove req =>
    have hcommand : Respects (routing m) (cmdRemove m req) w := by
      change Outline _ (if _ then _ else _) _ _
      split_ifs
      · exact .inTransaction (returns_removeClaim req _)
      · trivial
    exact outline_bind.mpr (hcommand.weaken fun _ _ _ ↦ nofun)

section Invariants

variable {held : List (Lock × Mode)} {label : Event} {db : Store} {tenantClaim : List Char}

/-- Every tenant with the claim as its external id, and every tenant that the claim was routed to, owns the row of its
key, unless that was reassigned. -/
def Settled (m : CaseMapping) (tenantClaim : List Char) (w : World Store Event) : Prop :=
  .reassigned (normalizeTenantClaim m tenantClaim) ∈ w.log ∨
    (∀ tenant ∈ w.db.tenants, tenant.externalId = some tenantClaim →
      w.db.Owns (normalizeTenantClaim m tenantClaim) tenant.id) ∧
    ∀ tenantId, .routed tenantClaim tenantId ∈ w.log → w.db.Owns (normalizeTenantClaim m tenantClaim) tenantId

theorem preserves_settled : (routing m).Preserves (Settled m tenantClaim) := by
  rintro theirs w label db (hlog | ⟨htenants, hrouted⟩) heffect
  · exact .inl (mem_cons_of_mem _ hlog)
  refine or_iff_not_imp_left.mpr fun hlog ↦ ?_
  have howns {tenantId : Uuid} (h : w.db.Owns (normalizeTenantClaim m tenantClaim) tenantId) :
      db.Owns (normalizeTenantClaim m tenantClaim) tenantId :=
    (Effect.owns heffect h).resolve_right fun hlabel ↦ hlog (hlabel ▸ mem_cons_self)
  have hborn (tenant : Tenant) (htenant : tenant ∈ db.tenants) (hexternalId : tenant.externalId = some tenantClaim) :
      db.Owns (normalizeTenantClaim m tenantClaim) tenant.id := by
    rcases heffect.born tenant htenant with hold | hnew
    · exact howns (htenants tenant hold hexternalId)
    · exact hnew tenantClaim hexternalId
  refine ⟨hborn, fun tenantId hmem ↦ ?_⟩
  rcases mem_cons.mp hmem with hlabel | hold
  · rcases (heffect.routed tenantClaim tenantId hlabel.symm).1 with h | h | ⟨tenant, htenant, hexternalId, rfl⟩
    · exact h
    · exact absurd h hlog
    · exact hborn tenant htenant hexternalId
  · exact howns (hrouted tenantId hold)

/-- The key was restored by an operator. -/
def Restored (key : List Char) (log : List Event) : Prop := .unrevoked key ∈ log ∨ .reassigned key ∈ log

/-- Unless the key was restored, its row is revoked and no claim with this key was routed. -/
def Withheld (m : CaseMapping) (key : List Char) (w : World Store Event) : Prop :=
  Restored key w.log ∨ w.db.Revoked key ∧ .revoked key ∉ w.log ∧
    ∀ tenantClaim tenantId, normalizeTenantClaim m tenantClaim = key → .routed tenantClaim tenantId ∉ w.log

theorem preserves_withheld {key : List Char} : (routing m).Preserves (Withheld m key) := by
  rintro theirs w label db (hrestored | ⟨⟨row, hrow, rfl, hrevoked⟩, hnever, hnone⟩) heffect
  · exact .inl (hrestored.imp (mem_cons_of_mem _) (mem_cons_of_mem _))
  refine or_iff_not_imp_left.mpr fun hrestored ↦ ?_
  obtain ⟨row', hrow', hbecomes⟩ := heffect.kept row hrow
  have hstill : db.Revoked row.claim := by
    rcases hbecomes.restored hrevoked with h | h | h
    · exact ⟨row', hrow', hbecomes.claim, h⟩
    · exact absurd (.inl (h ▸ mem_cons_self)) hrestored
    · exact absurd (.inr (h ▸ mem_cons_self)) hrestored
  have hnotRevoked : .revoked row.claim ∉ label :: w.log := by
    rw [mem_cons, not_or]
    refine ⟨fun hlabel ↦ ?_, hnever⟩
    obtain ⟨other, hother, hclaim, hlive⟩ := heffect.revoked row.claim hlabel.symm
    rw [heffect.before.eq hother hrow hclaim] at hlive
    exact hrevoked hlive
  refine ⟨hstill, hnotRevoked, fun tenantClaim tenantId hkey hmem ↦ ?_⟩
  rcases mem_cons.mp hmem with hlabel | hold
  · rcases (heffect.routed tenantClaim tenantId hlabel.symm).2 with hopen | hlog
    · exact hopen (hkey ▸ hstill)
    · exact hnotRevoked (hkey ▸ hlog)
  · exact hnone tenantClaim tenantId hkey hold

end Invariants

end Runs

section Alone

variable {m : CaseMapping} {sha256Hex : List Char → List Char} {w : World Store Event}

/-- What a lookup of the claim gives in a committed state. -/
def lookup (m : CaseMapping) (tenantClaim : List Char) (w : World Store Event) : ClaimLookup :=
  ((resolveTenantByClaim m tenantClaim).alone w).1

/-- What a call gives and leaves in a committed state. -/
def routed (m : CaseMapping) (sha256Hex : List Char → List Char) (req : FindOrCreate) (w : World Store Event) :
    Except Thrown ClaimTenantResolution × World Store Event :=
  (routeClaim m sha256Hex req).alone w

def Store.lookUp (m : CaseMapping) (tenantClaim : List Char) (db : Store) : ClaimLookup :=
  let claim := normalizeTenantClaim m tenantClaim
  match db.findClaimRow claim, db.byExternalId tenantClaim, storableClaimIssue m claim,
    db.findFoldedExternalIdOwner claim with
  | some row, _, _, _ => if row.revokedAt = none then .tenant row.tenantId else .revoked row.tenantId
  | none, some tenant, _, _ => .tenant tenant.id
  | none, none, some issue, _ => .unstorable (claimRefusal issue)
  | none, none, none, some owner => .collision owner
  | none, none, none, none => .unregistered

theorem yields_resolveTenantByClaim (tenantClaim : List Char) (db : Store) :
    (resolveTenantByClaim m tenantClaim).Yields db (db.lookUp m tenantClaim) db := by
  refine .bind (.read _) ?_
  rw [Store.lookUp]
  cases db.findClaimRow (normalizeTenantClaim m tenantClaim) with
  | some row => exact .pure _
  | none =>
    refine .bind (.read _) ?_
    cases db.byExternalId tenantClaim with
    | some tenant => exact .pure _
    | none =>
      cases storableClaimIssue m (normalizeTenantClaim m tenantClaim) with
      | some issue => exact .pure _
      | none =>
        refine .bind (.read _) ?_
        cases db.findFoldedExternalIdOwner (normalizeTenantClaim m tenantClaim) with
        | some owner | none => exact .pure _

theorem lookup_eq (tenantClaim : List Char) : lookup m tenantClaim w = w.db.lookUp m tenantClaim :=
  (yields_resolveTenantByClaim tenantClaim w.db).alone

variable {tenantClaim : List Char} {req : FindOrCreate} {resolution : ClaimTenantResolution}

theorem lookup_of_row {row : TenantClaim} (h : w.db.findClaimRow (normalizeTenantClaim m tenantClaim) = some row) :
    lookup m tenantClaim w = if row.revokedAt = none then .tenant row.tenantId else .revoked row.tenantId := by
  rw [lookup_eq, Store.lookUp, h]

theorem lookup_ne_tenant_of_revoked (hunique : w.db.Unique)
    (hrevoked : w.db.Revoked (normalizeTenantClaim m tenantClaim)) (tenantId : Uuid) :
    lookup m tenantClaim w ≠ .tenant tenantId := by
  obtain ⟨row, hrow, hkey, hrowRevoked⟩ := hrevoked
  cases hfind : w.db.findClaimRow (normalizeTenantClaim m tenantClaim) with
  | none => exact absurd hkey (Store.ne_of_findClaimRow hfind row hrow)
  | some found =>
    obtain ⟨hfound, hfoundKey⟩ := Store.mem_of_findClaimRow hfind
    rw [lookup_of_row hfind, hunique.eq hfound hrow (hfoundKey.trans hkey.symm), if_neg hrowRevoked]
    exact nofun

theorem yields_findOrCreate_of_resolution {db : Store}
    (h : resolutionOf (db.lookUp m req.tenantClaim) = some resolution) :
    (findOrCreateTenantForClaim m sha256Hex req).Yields db (.ok resolution) db := by
  refine .bind (.lockingRead _ _) (.bind (.read _) ?_)
  rw [Store.lookUp] at h
  cases hrow : db.findClaimRow (normalizeTenantClaim m req.tenantClaim) with
  | some row =>
    rw [hrow] at h
    change resolutionOf (if row.revokedAt = none then _ else _) = _ at h
    change (pure (Except.ok (if row.revokedAt = none then _ else _)) : Server _).Yields _ _ _
    split_ifs at h ⊢
    · obtain rfl := Option.some.inj h
      exact .pure _
    · obtain rfl := Option.some.inj h
      exact .pure _
  | none =>
    rw [hrow] at h
    refine .bind (.read _) ?_
    cases htenant : db.byExternalId req.tenantClaim with
    | some tenant =>
      rw [htenant] at h
      obtain rfl := Option.some.inj h
      exact .pure _
    | none =>
      rw [htenant] at h
      cases hissue : storableClaimIssue m (normalizeTenantClaim m req.tenantClaim) with
      | some issue =>
        rw [hissue] at h
        obtain rfl := Option.some.inj h
        exact .pure _
      | none =>
        rw [hissue] at h
        refine .bind (.read _) ?_
        cases howner : db.findFoldedExternalIdOwner (normalizeTenantClaim m req.tenantClaim) with
        | some owner =>
          rw [howner] at h
          obtain rfl := Option.some.inj h
          exact .pure _
        | none =>
          rw [howner] at h
          exact nomatch h

theorem routed_of_lookup (h : resolutionOf (lookup m req.tenantClaim w) = some resolution) :
    (routed m sha256Hex req w).1 = .ok resolution ∧ (routed m sha256Hex req w).2.db = w.db := by
  rw [lookup_eq] at h
  rw [routed, routeClaim, (yields_findOrCreate_of_resolution h).commit]
  exact ⟨rfl, rfl⟩

end Alone

section Theorem

variable {m : CaseMapping} {sha256Hex : List Char → List Char} {ι : Type} [DecidableEq ι]

/-- The tenant that a session has returned. -/
def returned : Server Answer → Option Uuid
  | .done answer => answer.tenant
  | _ => none

theorem done_of_returned {prog : Server Answer} {tenantId : Uuid} (h : returned prog = some tenantId) :
    ∃ answer, prog = .done answer ∧ answer.tenant = some tenantId := by
  cases prog with
  | done answer => exact ⟨answer, rfl, h⟩
  | _ => exact nomatch h

/-- The session has returned the tenant for the claim. -/
def Resolved (requests : ι → Request) (s : State ι Store Lock Event Answer) (i : ι) (tenantClaim : List Char)
    (tenantId : Uuid) : Prop :=
  (requests i).claim = some tenantClaim ∧ returned (s.session i).prog = some tenantId

instance (requests : ι → Request) (s : State ι Store Lock Event Answer) (i : ι) (tenantClaim : List Char)
    (tenantId : Uuid) : Decidable (Resolved requests s i tenantClaim tenantId) :=
  inferInstanceAs (Decidable (_ ∧ _))

/-- In every state that sessions reach which resolve, register, revoke, restore and reassign claims: a key has at most
one owner, and once it has one, all claims with this key lead to the same tenant or refusal; a revoked claim leads to no
tenant, and a claim that was revoked from the start was resolved by no session unless an operator restored it; sessions
that resolve spellings of a claim which were no tenant's external ids at the start return the same tenant, unless an
operator reassigned its key; and a call answers what a lookup answers, unless the claim is unregistered. -/
theorem claim_routing {first : Store} (hunique : first.Unique) {requests : ι → Request}
    {s : State ι Store Lock Event Answer}
    (hrun : Run (fun _ _ _ ↦ True) (State.start ⟨first, []⟩ fun i ↦ (requests i).prog m sha256Hex) s) :
    (∀ key one other, s.world.db.Owns key one → s.world.db.Owns key other → one = other) ∧
    (∀ tenantClaim spelling, normalizeTenantClaim m tenantClaim = normalizeTenantClaim m spelling →
      (∃ tenantId, s.world.db.Owns (normalizeTenantClaim m tenantClaim) tenantId) →
      lookup m tenantClaim s.world = lookup m spelling s.world) ∧
    (∀ tenantClaim tenantId, s.world.db.Revoked (normalizeTenantClaim m tenantClaim) →
      lookup m tenantClaim s.world ≠ .tenant tenantId) ∧
    (∀ i tenantClaim tenantId, first.Revoked (normalizeTenantClaim m tenantClaim) →
      Resolved requests s i tenantClaim tenantId → Restored (normalizeTenantClaim m tenantClaim) s.world.log) ∧
    (∀ i j tenantClaim spelling one other, normalizeTenantClaim m tenantClaim = normalizeTenantClaim m spelling →
      first.byExternalId tenantClaim = none → first.byExternalId spelling = none →
      Resolved requests s i tenantClaim one → Resolved requests s j spelling other →
      one = other ∨ .reassigned (normalizeTenantClaim m tenantClaim) ∈ s.world.log) ∧
    ∀ req resolution, resolutionOf (lookup m req.tenantClaim s.world) = some resolution →
      (routed m sha256Hex req s.world).1 = .ok resolution ∧ (routed m sha256Hex req s.world).2.db = s.world.db := by
  have houtline (i : ι) : Outline (routing m) ((requests i).prog m sha256Hex) (.idle ⟨first, []⟩) (requests i).Logged :=
    (requests i).outline _
  have hintact : (routing m).Preserves fun w ↦ w.db.Unique := fun _ _ _ _ _ heffect ↦ Effect.unique heffect
  have hrun' := hrun.strengthen (fun w ↦ w.db.Unique) (fun _ _ _ h _ ↦ h) houtline hunique hintact
  have hnow : s.world.db.Unique := hrun'.invariant (fun w ↦ w.db.Unique) houtline hunique hintact
  have hlogged (i : ι) (tenantClaim : List Char) (tenantId : Uuid) (h : Resolved requests s i tenantClaim tenantId) :
      .routed tenantClaim tenantId ∈ s.world.log := by
    obtain ⟨answer, hdone, htenant⟩ := done_of_returned h.2
    obtain ⟨seen, hlater, hpost⟩ := hrun'.post_of_done houtline hdone
    exact hlater.log_suffix.subset (hpost tenantClaim tenantId h.1 htenant)
  refine ⟨fun key one other ↦ hnow.owner_eq, ?_, fun tenantClaim tenantId hrevoked ↦ ?_, ?_, ?_,
    fun req resolution ↦ routed_of_lookup⟩
  · rintro tenantClaim spelling hkey ⟨tenantId, row, hrow, hrowKey, -⟩
    cases hfind : s.world.db.findClaimRow (normalizeTenantClaim m tenantClaim) with
    | none => exact absurd hrowKey (Store.ne_of_findClaimRow hfind row hrow)
    | some found => rw [lookup_of_row hfind, lookup_of_row (hkey ▸ hfind)]
  · exact lookup_ne_tenant_of_revoked hnow hrevoked tenantId
  · intro i tenantClaim tenantId hrevoked hresolved
    have hwithheld := hrun'.invariant (Withheld m (normalizeTenantClaim m tenantClaim)) houtline
      (.inr ⟨hrevoked, nofun, nofun⟩) preserves_withheld
    exact hwithheld.resolve_right fun h ↦ h.2.2 tenantClaim tenantId rfl (hlogged i _ _ hresolved)
  · intro i j tenantClaim spelling one other hkey hclaim hspelling hone hother
    have hsettled {claim : List Char} (hnone : first.byExternalId claim = none) : Settled m claim s.world := by
      refine hrun'.invariant (Settled m claim) houtline (.inr ⟨fun tenant htenant hsome ↦ absurd hsome ?_, nofun⟩)
        preserves_settled
      simpa using List.find?_eq_none.mp hnone tenant htenant
    rcases hsettled hclaim, hsettled hspelling with ⟨hlog | ⟨-, howns⟩, hlog' | ⟨-, howns'⟩⟩
    · exact .inr hlog
    · exact .inr hlog
    · exact .inr (hkey ▸ hlog')
    · exact .inl (hnow.owner_eq (howns one (hlogged i _ _ hone)) (hkey ▸ howns' other (hlogged j _ _ hother)))

/-- Two calls for one claim, in two spellings. -/
def twoCalls : Bool → Request
  | true => .route {
      tenantClaim := "acme.example".toList
      tenantId := 1
      claimId := 1
      slugSuffix := "00000000".toList
      createdAt := 0 }
  | false => .route {
      tenantClaim := "ACME.example".toList
      tenantId := 2
      claimId := 2
      slugSuffix := "00000001".toList
      createdAt := 1 }

/-- Nobody has signed in yet. -/
def emptyStore : Store := ⟨[], [], [], [], [], []⟩

/-- The second call waits for the first one and returns its tenant. -/
theorem two_calls_route_alike :
    ∃ s, Run (fun _ _ _ ↦ True) (State.start ⟨emptyStore, []⟩ fun i ↦ (twoCalls i).prog kelvinMapping id) s ∧
      Resolved twoCalls s true "acme.example".toList 1 ∧ Resolved twoCalls s false "ACME.example".toList 1 ∧
      ∀ tenantId, Resolved twoCalls s false "ACME.example".toList tenantId →
        1 = tenantId ∨ .reassigned "acme.example".toList ∈ s.world.log := by
  obtain ⟨s, hrun, hs⟩ := Run.exists_state_of_schedule
    (State.start ⟨emptyStore, []⟩ fun i ↦ (twoCalls i).prog kelvinMapping id)
    (fun s ↦ decide (Resolved twoCalls s true "acme.example".toList 1 ∧
      Resolved twoCalls s false "ACME.example".toList 1))
    [(7, true), (3, false)]
  obtain ⟨hfirst, hsecond⟩ := of_decide_eq_true hs
  refine ⟨s, hrun, hfirst, hsecond, fun tenantId hresolved ↦ ?_⟩
  have hkey : normalizeTenantClaim kelvinMapping "acme.example".toList = "acme.example".toList := by decide +kernel
  obtain ⟨-, -, -, -, hsame, -⟩ := claim_routing (by decide +kernel : emptyStore.Unique) hrun
  rw [← hkey]
  exact hsame true false _ _ 1 tenantId (by decide +kernel) rfl rfl hfirst hresolved

end Theorem

/-- Two tenants from before the registry, whose external ids differ in case. -/
def legacyStore : Store where
  tenants := [
    { id := 1, externalId := some "acme.example".toList, name := "acme".toList, slug := "acme".toList,
      isBootstrap := false, createdAt := 0 },
    { id := 2, externalId := some "ACME.example".toList, name := "ACME".toList, slug := "acme-1".toList,
      isBootstrap := false, createdAt := 1 }]
  claims := []
  events := []
  users := []
  members := []
  rows := []

/-- One key leads to two tenants at a time, depending on the spelling of the claim. -/
theorem legacy_key_two_tenants :
    legacyStore.Unique ∧
      normalizeTenantClaim kelvinMapping "acme.example".toList =
        normalizeTenantClaim kelvinMapping "ACME.example".toList ∧
      lookup kelvinMapping "acme.example".toList ⟨legacyStore, []⟩ = .tenant 1 ∧
      lookup kelvinMapping "ACME.example".toList ⟨legacyStore, []⟩ = .tenant 2 := by
  decide +kernel

end PasswdSso.SignIn
