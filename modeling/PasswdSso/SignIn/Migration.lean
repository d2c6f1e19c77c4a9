import PasswdSso.SignIn.Coherence

/-!
# Completeness of the migration out of a bootstrap tenant

The migration moves the rows that its updates select. It leaves no row of the user under the old tenant, and no row of
anybody else is touched, iff the rows under the old tenant that refer to the user are exactly those that the updates
select. Tables that came later have no update: MCP tokens and delegation sessions stay behind.
-/

namespace PasswdSso.SignIn

open ReadCommitted List

variable {userId oldTenantId newTenantId : Uuid}

def Migrated (userId oldTenantId : Uuid) (row : ScopedRow) : Prop :=
  ∃ migration ∈ migrations, migration.selects userId oldTenantId row = true

instance (row : ScopedRow) : Decidable (Migrated userId oldTenantId row) :=
  inferInstanceAs (Decidable (∃ migration ∈ migrations, _))

/-- Nothing of the user is left under the old tenant, and nothing of others was changed. -/
structure Complete (userId oldTenantId : Uuid) (before after : Store) : Prop where
  rows : ∀ row ∈ after.rows, row.refersTo userId → row.tenantId ≠ oldTenantId
  members : ∀ member ∈ after.members, member.userId = userId → member.tenantId ≠ oldTenantId
  users : ∀ user ∈ after.users, user.id = userId → user.tenantId ≠ oldTenantId
  otherRows : ∀ row, ¬ row.refersTo userId → (row ∈ after.rows ↔ row ∈ before.rows)
  otherMembers : ∀ member, member.userId ≠ userId → (member ∈ after.members ↔ member ∈ before.members)
  otherUsers : ∀ user, user.id ≠ userId → (user ∈ after.users ↔ user ∈ before.users)

/-- Under the old tenant, the rows that refer to the user are those that the migration selects. -/
def Covered (userId oldTenantId : Uuid) (db : Store) : Prop :=
  ∀ row ∈ db.rows, row.tenantId = oldTenantId → (row.refersTo userId ↔ Migrated userId oldTenantId row)

instance (db : Store) : Decidable (Covered userId oldTenantId db) :=
  inferInstanceAs (Decidable (∀ row ∈ db.rows, _))

section Rows

variable {row : ScopedRow}

theorem moveRow_of_moved (list : List Migration) (h : row.tenantId = newTenantId) :
    moveRow userId oldTenantId newTenantId list row = row := by
  induction list with
  | nil => rfl
  | cons migration rest ih =>
    have hstep : (if migration.selects userId oldTenantId row then { row with tenantId := newTenantId } else row) = row := by
      split_ifs
      · rw [← h]
      · rfl
    rw [moveRow, foldl_cons, hstep]
    exact ih

theorem moveRow_eq (list : List Migration) (row : ScopedRow) : moveRow userId oldTenantId newTenantId list row =
      if ∃ migration ∈ list, migration.selects userId oldTenantId row = true then { row with tenantId := newTenantId }
      else row := by
  induction list with
  | nil => simp [moveRow]
  | cons migration rest ih =>
    rw [moveRow, foldl_cons]
    by_cases hselects : migration.selects userId oldTenantId row = true
    · rw [if_pos hselects, if_pos ⟨migration, mem_cons_self, hselects⟩]
      exact moveRow_of_moved rest rfl
    · rw [if_neg hselects]
      refine ih.trans ?_
      simp only [exists_mem_cons_iff, hselects, Bool.false_eq_true, false_or]

theorem Migrated.tenant_or_refersTo (h : Migrated userId oldTenantId row) :
    row.tenantId = oldTenantId ∨ row.refersTo userId := by
  obtain ⟨migration, hmem, hselects⟩ := h
  simp only [Migration.selects, Bool.and_eq_true, Bool.or_eq_true, Bool.not_eq_true', decide_eq_true_eq] at hselects
  obtain ⟨⟨-, hcolumn⟩, hold | htenant⟩ := hselects
  · -- Only the update of the accounts is not restricted to the old tenant.
    have haccounts : ∀ migration ∈ migrations, migration.oldTenantOnly = false → migration.column = some .userId := by
      decide
    rw [haccounts migration hmem hold] at hcolumn
    exact .inr ⟨.userId, by simpa using hcolumn⟩
  · exact .inl htenant

theorem mem_moved {rows : List ScopedRow} : row ∈ rows.map (moveRow userId oldTenantId newTenantId migrations) ↔
      (row ∈ rows ∧ ¬ Migrated userId oldTenantId row) ∨
      ∃ old ∈ rows, Migrated userId oldTenantId old ∧ row = { old with tenantId := newTenantId } := by
  rw [mem_map]
  constructor
  · rintro ⟨old, hold, rfl⟩
    by_cases hmigrated : Migrated userId oldTenantId old
    · exact .inr ⟨old, hold, hmigrated, (moveRow_eq migrations old).trans (if_pos hmigrated)⟩
    · rw [(moveRow_eq migrations old).trans (if_neg hmigrated)]
      exact .inl ⟨hold, hmigrated⟩
  · rintro (⟨hrow, hnot⟩ | ⟨old, hold, hmigrated, rfl⟩)
    · exact ⟨row, hrow, (moveRow_eq migrations row).trans (if_neg hnot)⟩
    · exact ⟨old, hold, (moveRow_eq migrations old).trans (if_pos hmigrated)⟩

theorem rows_complete_iff {db : Store} (hne : oldTenantId ≠ newTenantId) :
    ((∀ row ∈ db.rows.map (moveRow userId oldTenantId newTenantId migrations), row.refersTo userId →
        row.tenantId ≠ oldTenantId) ∧
      ∀ row, ¬ row.refersTo userId →
        (row ∈ db.rows.map (moveRow userId oldTenantId newTenantId migrations) ↔ row ∈ db.rows)) ↔
    Covered userId oldTenantId db := by
  simp only [mem_moved]
  constructor
  · rintro ⟨hleft, hothers⟩ row hrow htenant
    constructor
    · intro hrefers
      by_contra hnot
      exact hleft row (.inl ⟨hrow, hnot⟩) hrefers htenant
    · intro hmigrated
      by_contra hnot
      rcases (hothers row hnot).mpr hrow with ⟨-, h⟩ | ⟨old, hold, -, rfl⟩
      · exact h hmigrated
      · exact hne htenant.symm
  · intro hcovered
    refine ⟨?_, fun row hnot ↦ ⟨?_, fun hrow ↦ .inl ⟨hrow, fun hmigrated ↦ ?_⟩⟩⟩
    · rintro row (⟨hrow, hnot⟩ | ⟨old, -, -, rfl⟩) hrefers
      · exact fun htenant ↦ hnot ((hcovered row hrow htenant).mp hrefers)
      · exact Ne.symm hne
    · rintro (⟨hrow, -⟩ | ⟨old, hold, hmigrated, rfl⟩)
      · exact hrow
      · rcases hmigrated.tenant_or_refersTo with htenant | hrefers
        · exact absurd ((hcovered old hold htenant).mpr hmigrated) hnot
        · exact absurd hrefers hnot
    · rcases hmigrated.tenant_or_refersTo with htenant | hrefers
      · exact hnot ((hcovered row hrow htenant).mpr hmigrated)
      · exact hnot hrefers

end Rows

section Theorem

variable {m : CaseMapping} {sha256Hex : List Char → List Char} {req : SignInRequest} {tenantClaim : List Char}
  {w : World Store Event}

theorem mem_join_of_ne {db : Store} {tenantId : Uuid} {member : TenantMember} (h : member.userId ≠ userId) :
    member ∈ (db.join tenantId userId).members ↔ member ∈ db.members := by
  unfold Store.join
  split_ifs
  · rfl
  · rw [mem_append, mem_singleton]
    exact ⟨fun hmem ↦ hmem.resolve_right fun heq ↦ h (by rw [heq]), .inl⟩

/-- A sign-in that moves a user out of a bootstrap tenant is complete iff the updates cover the rows of the tenant. -/
theorem migration_complete_iff
    (hclaim : extractTenantClaimValue m req.setting req.provider req.profile = some (.claim tenantClaim))
    (hok : ((ensureTenantMembershipForSignIn m sha256Hex req).alone w).1 = .ok .ok)
    (hexisting : resolveUserTenantId w.db.members req.userId = .ok oldTenantId)
    (hother : claimedTenant m req tenantClaim w.db ≠ some oldTenantId) (hunique : rowTable.KeysUnique w.db) :
    Complete req.userId oldTenantId w.db ((ensureTenantMembershipForSignIn m sha256Hex req).alone w).2.db ↔
      Covered req.userId oldTenantId w.db := by
  obtain ⟨tenantId, hclaimed, -, hsignedIn⟩ := signedIn_of_ok hclaim hok
  have hne : oldTenantId ≠ tenantId := by
    rintro rfl
    exact hother hclaimed
  cases hsignedIn with
  | joined hjoined =>
    rcases hjoined with h | h
    · exact nomatch h.symm.trans hexisting
    · exact absurd (Except.ok.inj (hexisting.symm.trans h)) hne
  | moved existing hmoved _ hmembers husers hrows =>
    obtain rfl := Except.ok.inj (hexisting.symm.trans hmoved)
    rw [← rows_complete_iff hne, ← hrows hunique]
    refine ⟨fun h ↦ ⟨h.rows, h.otherRows⟩, fun h ↦ ⟨h.1, ?_, ?_, h.2, ?_, ?_⟩⟩
    · intro member hmember huser htenant
      rw [hmembers, List.mem_filter] at hmember
      simp [isMember, huser, htenant] at hmember
    · intro user huser hid
      rw [husers] at huser
      obtain ⟨old, -, rfl⟩ := List.mem_map.mp huser
      split_ifs at hid ⊢ with hold
      · exact Ne.symm hne
      · exact absurd hid hold
    · intro member huser
      rw [hmembers, List.mem_filter, mem_join_of_ne huser]
      simp [isMember, huser]
    · intro user hid
      rw [husers, List.mem_map]
      constructor
      · rintro ⟨old, hold, rfl⟩
        split_ifs at hid ⊢ with hsame
        · exact absurd hsame hid
        · exact hold
      · exact fun huser ↦ ⟨user, huser, if_neg hid⟩

def mcpToken : ScopedRow := ⟨.mcpAccessTokens, 4, 1, [(.userId, 7)], by decide⟩

/-- The MCP access token of the user stays under the bootstrap tenant. -/
theorem mcp_token_left_behind : ((ensureTenantMembershipForSignIn kelvinMapping id acmeSignIn).alone
      ⟨acmeStore 1 [⟨1, 7, none⟩] [mcpToken], []⟩).1 = .ok .ok ∧
    ¬ Complete 7 1 (acmeStore 1 [⟨1, 7, none⟩] [mcpToken])
      ((ensureTenantMembershipForSignIn kelvinMapping id acmeSignIn).alone
        ⟨acmeStore 1 [⟨1, 7, none⟩] [mcpToken], []⟩).2.db := by
  refine ⟨by decide +kernel, fun h ↦ ?_⟩
  exact h.rows mcpToken (by decide +kernel) ⟨.userId, by decide⟩ rfl

/-- The user has a password entry and an emergency access grant. -/
def entryAndGrant : List ScopedRow :=
  [⟨.passwordEntries, 4, 1, [(.userId, 7)], by decide⟩,
    ⟨.emergencyAccessGrants, 5, 1, [(.ownerId, 7), (.granteeId, 8)], by decide⟩]

theorem entry_and_grant_moved : Complete 7 1 (acmeStore 1 [⟨1, 7, none⟩] entryAndGrant)
      ((ensureTenantMembershipForSignIn kelvinMapping id acmeSignIn).alone
        ⟨acmeStore 1 [⟨1, 7, none⟩] entryAndGrant, []⟩).2.db := by
  have hclaim : extractTenantClaimValue kelvinMapping acmeSignIn.setting acmeSignIn.provider acmeSignIn.profile =
      some (.claim "acme.example".toList) := by
    decide +kernel
  have hok : ((ensureTenantMembershipForSignIn kelvinMapping id acmeSignIn).alone
      ⟨acmeStore 1 [⟨1, 7, none⟩] entryAndGrant, []⟩).1 = .ok .ok := by
    decide +kernel
  refine (migration_complete_iff hclaim hok ?_ ?_ ?_).mpr ?_ <;> decide +kernel

end Theorem

end PasswdSso.SignIn
