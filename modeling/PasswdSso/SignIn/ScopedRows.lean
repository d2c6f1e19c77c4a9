import PasswdSso.Common

/-!
# Rows of users in tenant-scoped tables

The tables of `prisma/schema.prisma` that have a `tenant_id` and refer to users, with the columns through which they
do. A row of a table without such a column belongs to the user of its parent row. `migrations` are the updates with
which `ensureTenantMembershipForSignIn` moves the rows of a user out of a bootstrap tenant, in the order of
`src/auth.ts`.
-/

namespace PasswdSso.SignIn

/-- The tenant-scoped tables with rows of users, apart from `tenant_members` and `users`. -/
inductive ScopedTable
  | accounts
  | sessions
  | extensionTokens
  | extensionBridgeCodes
  | mobileBridgeCodes
  | scimTokens
  | tags
  | vaultKeys
  | passwordEntries
  | passwordEntryHistories
  | folders
  | teamMembers
  | teamMemberKeys
  | teamPasswordEntries
  | teamPasswordEntryHistories
  | teamPasswordFavorites
  | teamInvitations
  | passwordShares
  | shareAccessLogs
  | auditLogs
  | accessRequests
  | attachments
  | emergencyAccessGrants
  | emergencyAccessKeyPairs
  | notifications
  | adminVaultResets
  | masterKeyRotations
  | serviceAccounts
  | operatorTokens
  | apiKeys
  | webAuthnCredentials
  | personalLogAccessGrants
  | mcpClients
  | mcpAuthorizationCodes
  | mcpAccessTokens
  | mcpRefreshTokens
  | delegationSessions
  deriving DecidableEq

inductive UserColumn
  | userId
  | ownerId
  | granteeId
  | createdById
  | updatedById
  | changedById
  | invitedById
  | requesterUserId
  | requesterId
  | approvedById
  | initiatedById
  | executedById
  | revokedById
  | targetUserId
  | subjectUserId
  | createdByUserId
  | parent
  deriving DecidableEq

def ScopedTable.columns : ScopedTable → List UserColumn
  | .scimTokens => [.createdById]
  | .passwordEntryHistories => [.parent]
  | .teamPasswordEntries => [.createdById, .updatedById]
  | .teamPasswordEntryHistories => [.changedById]
  | .teamInvitations => [.invitedById]
  | .passwordShares => [.createdById]
  | .shareAccessLogs => [.parent]
  | .accessRequests => [.requesterUserId, .approvedById]
  | .attachments => [.createdById]
  | .emergencyAccessGrants => [.ownerId, .granteeId]
  | .emergencyAccessKeyPairs => [.parent]
  | .adminVaultResets => [.targetUserId, .initiatedById, .approvedById]
  | .masterKeyRotations => [.initiatedById, .approvedById, .executedById, .revokedById]
  | .serviceAccounts => [.createdById]
  | .operatorTokens => [.subjectUserId, .createdByUserId]
  | .personalLogAccessGrants => [.requesterId, .targetUserId]
  | .mcpClients => [.createdById]
  | .accounts | .sessions | .extensionTokens | .extensionBridgeCodes | .mobileBridgeCodes | .tags | .vaultKeys
  | .passwordEntries | .folders | .teamMembers | .teamMemberKeys | .teamPasswordFavorites | .auditLogs
  | .notifications | .apiKeys | .webAuthnCredentials | .mcpAuthorizationCodes | .mcpAccessTokens | .mcpRefreshTokens
  | .delegationSessions => [.userId]

structure ScopedRow where
  table : ScopedTable
  id : Uuid
  tenantId : Uuid
  users : List (UserColumn × Uuid)
  columns : ∀ entry ∈ users, entry.1 ∈ table.columns
  deriving DecidableEq

def ScopedRow.refersTo (row : ScopedRow) (userId : Uuid) : Prop := ∃ column, (column, userId) ∈ row.users

instance (row : ScopedRow) (userId : Uuid) : Decidable (row.refersTo userId) :=
  decidable_of_iff (∃ entry ∈ row.users, entry.2 = userId) (by
    constructor
    · rintro ⟨⟨column, _⟩, hentry, rfl⟩
      exact ⟨column, hentry⟩
    · rintro ⟨column, hentry⟩
      exact ⟨(column, userId), hentry, rfl⟩)

/-- One update of the migration: the column that has to hold the user, or every row of the tenant. -/
structure Migration where
  table : ScopedTable
  column : Option UserColumn
  /-- Whether only rows of the old tenant are moved. -/
  oldTenantOnly : Bool

def migrations : List Migration :=
  [⟨.accounts, some .userId, false⟩, ⟨.passwordEntries, some .userId, true⟩, ⟨.tags, some .userId, true⟩,
    ⟨.folders, some .userId, true⟩, ⟨.sessions, some .userId, true⟩, ⟨.extensionTokens, some .userId, true⟩,
    ⟨.passwordEntryHistories, none, true⟩, ⟨.vaultKeys, some .userId, true⟩, ⟨.auditLogs, some .userId, true⟩,
    ⟨.emergencyAccessGrants, some .ownerId, true⟩, ⟨.emergencyAccessKeyPairs, none, true⟩,
    ⟨.passwordShares, some .createdById, true⟩, ⟨.shareAccessLogs, none, true⟩,
    ⟨.attachments, some .createdById, true⟩, ⟨.notifications, some .userId, true⟩, ⟨.apiKeys, some .userId, true⟩,
    ⟨.webAuthnCredentials, some .userId, true⟩]

/-- The `where` of an update. -/
def Migration.selects (migration : Migration) (userId oldTenantId : Uuid) (row : ScopedRow) : Bool :=
  row.table = migration.table && migration.column.all (fun column ↦ (column, userId) ∈ row.users) &&
    (!migration.oldTenantOnly || row.tenantId = oldTenantId)

end PasswdSso.SignIn
