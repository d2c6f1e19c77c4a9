import PasswdSso.Mcp.OAuthServer

/-!
# What the transactions of the OAuth server commit

`Effect` lists what a committed transaction of the OAuth server does to the token store and which
locks it holds when it does. Rows only advance (`Effect.refresh_advances`, `Effect.access_advances`),
rows whose lock is not held are left alone (`Effect.refresh_kept`, `Effect.access_kept`), and the keys
and references of the store are kept (`Effect.wellFormed`).

`contract` is the contract of the server's sessions, for any condition `allowed` on the commits of
the run, and the `later` lemmas say how the store can move between two steps of a session.
-/

namespace PasswdSso.Mcp

open ReadCommitted Passkey Table Store

abbrev Locks := List (Lock × Mode)

/-- The listed rows include every live row of the family and every live access token issued to it. -/
def Covers (db : Store) (familyId : Uuid) (refreshIds accessIds : List Uuid) : Prop :=
  ∀ row ∈ db.refreshTokens, row.familyId = familyId → (row.revokedAt = none → row.id ∈ refreshIds) ∧
      ∀ access ∈ db.accessTokens, access.id = row.accessTokenId → access.revokedAt = none → access.id ∈ accessIds

/-- The store after a rotation of `rt`. -/
def Store.rotate (hashToken : String → String) (req : ExchangeRequest) (rt : McpRefreshToken) (db : Store) : Store :=
  accessTable.modify [rt.accessTokenId] (.revoke req.oldAccessRevokedAt)
    (refreshTable.append [newRefresh hashToken req rt] (accessTable.append [newAccess hashToken req rt]
        (refreshTable.modify [rt.id] (.rotate req.rotatedAt (newRefresh hashToken req rt).tokenHash) db)))

theorem Store.rotate_congr {hashToken : String → String} {req : ExchangeRequest}
    {rt row : McpRefreshToken} (h : rt.Becomes row) :
    Store.rotate hashToken req row = Store.rotate hashToken req rt := by
  rw [h.same]
  rfl

def Store.revoke (refreshIds accessIds : List Uuid) (times : Millis × Millis) (db : Store) : Store :=
  accessTable.modify accessIds (.revoke times.2) (refreshTable.modify refreshIds (.revoke times.1) db)

/-- What a commit can do, given the locks that are held and the events committed since the
transaction began. -/
inductive Effect (hashToken : String → String) (held : Locks) (overlap : List Event) (db : Store) :
    Event → Store → Prop
  | nothing : Effect hashToken held overlap db .nothing db
  | rotated {req : ExchangeRequest} {rt : McpRefreshToken} (hrow : rt ∈ db.refreshTokens)
      (hunrotated : rt.rotatedAt = none)
      (haccess : ∀ row ∈ db.accessTokens, row.id ≠ req.newAccessTokenId)
      (hrefresh : ∀ row ∈ db.refreshTokens, row.id ≠ req.newRefreshTokenId)
      (hheld : [(.refreshToken rt.id, .exclusive), (.refreshToken req.newRefreshTokenId, .exclusive),
        (.accessToken rt.accessTokenId, .exclusive),
        (.accessToken req.newAccessTokenId, .exclusive)] ⊆ held) :
      Effect hashToken held overlap db (.rotated rt.id rt.familyId) (db.rotate hashToken req rt)
  | revokedFamily {familyId : Uuid} {refreshIds accessIds : List Uuid} {times : Millis × Millis}
      (hcovers : (∀ id, .rotated id familyId ∉ overlap) → Covers db familyId refreshIds accessIds)
      (hrefresh : ∀ id ∈ refreshIds, (.refreshToken id, .exclusive) ∈ held)
      (haccess : ∀ id ∈ accessIds, (.accessToken id, .exclusive) ∈ held) :
      Effect hashToken held overlap db (.revokedFamily familyId) (db.revoke refreshIds accessIds times)
  | revokedAccess {id : Uuid} {times : Millis × Millis}
      (haccess : (.accessToken id, .exclusive) ∈ held) :
      Effect hashToken held overlap db (.revokedAccess id) (db.revoke [] [id] times)

section Effects

variable {hashToken : String → String} {held : Locks} {overlap : List Event} {db db' : Store}
  {event : Event}

theorem Effect.refresh_kept (h : Effect hashToken held overlap db event db') :
    refreshTable.KeptExcept .refreshToken held db db' := by
  have hrevoke {ids accessIds : List Uuid} {times : Millis × Millis}
      (hids : ∀ id ∈ ids, (.refreshToken id, .exclusive) ∈ held) :
      refreshTable.KeptExcept .refreshToken held db (db.revoke ids accessIds times) := by
    refine .congr (keptExcept_modify ?_ hids) rfl
    exact fun _ ↦ rfl
  cases h with
  | nothing => exact .of_rows_eq rfl
  | rotated hrow hunrotated haccess hrefresh hheld =>
    simp only [List.cons_subset] at hheld
    refine .congr (.trans (keptExcept_modify ?_ ?_)
      (keptExcept_append ?_)) rfl
    · exact fun _ ↦ rfl
    · simpa using hheld.1
    · simpa [newRefresh] using hheld.2.1
  | revokedFamily hcovers hrefresh haccess => exact hrevoke hrefresh
  | revokedAccess haccess => exact hrevoke (by simp)

theorem Effect.access_kept (h : Effect hashToken held overlap db event db') :
    accessTable.KeptExcept .accessToken held db db' := by
  have hrevoke {refreshIds ids : List Uuid} {times : Millis × Millis}
      (hids : ∀ id ∈ ids, (.accessToken id, .exclusive) ∈ held) :
      accessTable.KeptExcept .accessToken held db (db.revoke refreshIds ids times) := by
    refine .congr (keptExcept_modify ?_ hids) rfl
    exact fun _ ↦ rfl
  cases h with
  | nothing => exact .of_rows_eq rfl
  | rotated hrow hunrotated haccess hrefresh hheld =>
    simp only [List.cons_subset] at hheld
    refine .congr (.trans (keptExcept_append ?_)
      (keptExcept_modify ?_ ?_)) rfl
    · simpa [newAccess] using hheld.2.2.2.1
    · exact fun _ ↦ rfl
    · simpa using hheld.2.2.1
  | revokedFamily hcovers hrefresh haccess => exact hrevoke haccess
  | revokedAccess haccess => exact hrevoke (by simpa using haccess)

section Advance

variable {req : ExchangeRequest} {rt : McpRefreshToken} {ids accessIds : List Uuid}
  {times : Millis × Millis}

theorem Store.rotate_refresh_advances :
    refreshTable.Advances McpRefreshToken.Becomes (· = newRefresh hashToken req rt) db
      (db.rotate hashToken req rt) := by
  have hclaim : refreshTable.Advances McpRefreshToken.Becomes (fun _ ↦ False) db (refreshTable.modify [rt.id]
        (.rotate req.rotatedAt (newRefresh hashToken req rt).tokenHash) db) :=
    advances_modify McpRefreshToken.Becomes.refl fun row _ _ ↦ row.becomes_rotate _ _
  refine .congr (hclaim.trans (fun _ _ _ ↦ McpRefreshToken.Becomes.trans)
    (fun _ _ h ↦ h.elim) (advances_append McpRefreshToken.Becomes.refl ?_))
    rfl
  simp

theorem Store.rotate_access_advances :
    accessTable.Advances McpAccessToken.Becomes (newAccess hashToken req rt).Becomes db
      (db.rotate hashToken req rt) := by
  refine .congr (.trans (fun _ _ _ ↦ McpAccessToken.Becomes.trans)
    (fun _ _ ↦ McpAccessToken.Becomes.trans)
    (advances_append McpAccessToken.Becomes.refl ?_)
    (advances_modify McpAccessToken.Becomes.refl fun row _ _ ↦ row.becomes_revoke _))
    rfl
  simpa using McpAccessToken.Becomes.refl _

theorem Store.revoke_refresh_advances {new : McpRefreshToken → Prop} :
    refreshTable.Advances McpRefreshToken.Becomes new db (db.revoke ids accessIds times) :=
  Table.Advances.congr (advances_modify McpRefreshToken.Becomes.refl fun row _ _ ↦ row.becomes_revoke times.1)
    rfl

theorem Store.revoke_access_advances {new : McpAccessToken → Prop} :
    accessTable.Advances McpAccessToken.Becomes new db (db.revoke ids accessIds times) :=
  Table.Advances.congr (advances_modify McpAccessToken.Becomes.refl fun row _ _ ↦ row.becomes_revoke times.2)
    rfl

end Advance

theorem Effect.refresh_advances (h : Effect hashToken held overlap db event db') :
    refreshTable.Advances McpRefreshToken.Becomes (fun row ↦ ∃ id, event = .rotated id row.familyId) db db' := by
  cases h with
  | nothing => exact .of_rows_eq McpRefreshToken.Becomes.refl rfl
  | rotated hrow hunrotated haccess hrefresh hheld =>
    refine rotate_refresh_advances.mono ?_
    rintro row rfl
    exact ⟨_, rfl⟩
  | revokedFamily hcovers hrefresh haccess | revokedAccess haccess => exact revoke_refresh_advances

theorem Effect.access_advances (h : Effect hashToken held overlap db event db') :
    accessTable.Advances McpAccessToken.Becomes (fun row ↦ ∀ old ∈ db.accessTokens, old.id ≠ row.id) db db' := by
  cases h with
  | nothing => exact .of_rows_eq McpAccessToken.Becomes.refl rfl
  | rotated hrow hunrotated haccess hrefresh hheld =>
    refine rotate_access_advances.mono fun row hrow old hold ↦ ?_
    rw [hrow.id_eq]
    exact haccess old hold
  | revokedFamily hcovers hrefresh haccess | revokedAccess haccess => exact revoke_access_advances

/-- Keys and references survive when old rows advance, new access tokens have new ids, and a new
refresh token joins the tenant of its family and is paired within it. -/
theorem Store.WellFormed.advance {newRefresh : McpRefreshToken → Prop} {newAccess : McpAccessToken → Prop}
    (h : db.WellFormed) (hrefresh : refreshTable.Advances McpRefreshToken.Becomes newRefresh db db')
    (haccess : accessTable.Advances McpAccessToken.Becomes newAccess db db')
    (hrefreshIds : refreshTable.KeysUnique db') (haccessIds : accessTable.KeysUnique db')
    (hnewAccess : ∀ access, newAccess access → ∀ old ∈ db.accessTokens, old.id ≠ access.id)
    (hnewPaired : ∀ row, newRefresh row → ∃ access ∈ db'.accessTokens, access.id = row.accessTokenId)
    (hnewFamily : ∀ row, newRefresh row →
      ∃ old ∈ db.refreshTokens, old.familyId = row.familyId ∧ old.tenantId = row.tenantId)
    (hnewTenant : ∀ row, newRefresh row → ∀ access ∈ db'.accessTokens,
      access.id = row.accessTokenId → access.tenantId = row.tenantId) : db'.WellFormed := by
  have hfamily (row : McpRefreshToken) (hrow : row ∈ db'.refreshTokens) :
      ∃ old ∈ db.refreshTokens, old.familyId = row.familyId ∧ old.tenantId = row.tenantId := by
    rcases hrefresh.back row hrow with ⟨old, hold, hbecomes⟩ | hnew
    · exact ⟨old, hold, hbecomes.familyId_eq.symm, hbecomes.tenantId_eq.symm⟩
    · exact hnewFamily row hnew
  refine ⟨hrefreshIds, haccessIds, ?_, ?_, ?_⟩
  · intro row hrow
    rcases hrefresh.back row hrow with ⟨old, hold, hbecomes⟩ | hnew
    · obtain ⟨access, hmem, hid⟩ := h.paired old hold
      obtain ⟨access', hmem', hbecomes'⟩ := haccess.forth access hmem
      exact ⟨access', hmem', by rw [hbecomes'.id_eq, hid, hbecomes.accessTokenId_eq]⟩
    · exact hnewPaired row hnew
  · intro first hfirst second hsecond heq
    obtain ⟨old, hold, hfamily₁, htenant₁⟩ := hfamily first hfirst
    obtain ⟨old', hold', hfamily₂, htenant₂⟩ := hfamily second hsecond
    rw [← htenant₁, ← htenant₂]
    exact h.familyTenant old hold old' hold' (by rw [hfamily₁, hfamily₂, heq])
  · intro row hrow access hmem hid
    rcases hrefresh.back row hrow with ⟨old, hold, hbecomes⟩ | hnew
    · rw [hbecomes.accessTokenId_eq] at hid
      rcases haccess.back access hmem with ⟨oldAccess, holdAccess, hbecomes'⟩ | hnew
      · rw [hbecomes'.tenantId_eq, hbecomes.tenantId_eq]
        exact h.accessTenant old hold oldAccess holdAccess (by rw [← hid, hbecomes'.id_eq])
      · obtain ⟨paired, hpaired, hpairedId⟩ := h.paired old hold
        exact absurd (hpairedId.trans hid.symm) (hnewAccess access hnew paired hpaired)
    · exact hnewTenant row hnew access hmem hid

theorem Store.WellFormed.revoke (h : db.WellFormed) (ids accessIds : List Uuid)
    (times : Millis × Millis) : (db.revoke ids accessIds times).WellFormed := by
  have hrefreshIds : refreshTable.KeysUnique (refreshTable.modify ids (.revoke times.1) db) :=
    h.refreshIds.modify fun _ ↦ rfl
  have haccessIds : accessTable.KeysUnique (accessTable.modify accessIds (.revoke times.2) db) :=
    h.accessIds.modify fun _ ↦ rfl
  have hrefresh : refreshTable.Advances McpRefreshToken.Becomes (fun _ ↦ False) db
      (db.revoke ids accessIds times) := revoke_refresh_advances
  have haccess : accessTable.Advances McpAccessToken.Becomes (fun _ ↦ False) db
      (db.revoke ids accessIds times) := revoke_access_advances
  refine h.advance hrefresh haccess (hrefreshIds.congr rfl) (haccessIds.congr rfl) ?_ ?_ ?_ ?_ <;>
    exact fun _ h ↦ h.elim

theorem Store.WellFormed.rotate {req : ExchangeRequest} {rt : McpRefreshToken} (h : db.WellFormed)
    (hrow : rt ∈ db.refreshTokens) (haccess : ∀ row ∈ db.accessTokens, row.id ≠ req.newAccessTokenId)
    (hrefresh : ∀ row ∈ db.refreshTokens, row.id ≠ req.newRefreshTokenId) :
    (db.rotate hashToken req rt).WellFormed := by
  have hrefreshAdvances : refreshTable.Advances _ (· = newRefresh hashToken req rt) db
      (db.rotate hashToken req rt) := rotate_refresh_advances
  have haccessAdvances : accessTable.Advances _ (newAccess hashToken req rt).Becomes db
      (db.rotate hashToken req rt) := rotate_access_advances
  have hclaimed : refreshTable.KeysUnique (refreshTable.modify [rt.id]
      (.rotate req.rotatedAt (newRefresh hashToken req rt).tokenHash) db) :=
    h.refreshIds.modify fun _ ↦ rfl
  have hrefreshIds : refreshTable.KeysUnique (refreshTable.append [newRefresh hashToken req rt]
      (refreshTable.modify [rt.id] (.rotate req.rotatedAt (newRefresh hashToken req rt).tokenHash) db)) := by
    refine hclaimed.append fun row hmem ↦ ?_
    rw [rows_modify] at hmem
    obtain ⟨old, hold, rfl⟩ := List.mem_map.mp hmem
    have hid := hrefresh old hold
    split_ifs <;> exact hid
  have hadded : accessTable.KeysUnique (accessTable.append [newAccess hashToken req rt] db) :=
    h.accessIds.append haccess
  have haccessIds : accessTable.KeysUnique (accessTable.modify [rt.accessTokenId]
      (.revoke req.oldAccessRevokedAt) (accessTable.append [newAccess hashToken req rt] db)) :=
    hadded.modify fun _ ↦ rfl
  have hlast : accessTable.Advances McpAccessToken.Becomes (fun _ ↦ False)
      (accessTable.append [newAccess hashToken req rt] db) (db.rotate hashToken req rt) :=
    Table.Advances.congr (advances_modify McpAccessToken.Becomes.refl
      fun row _ _ ↦ row.becomes_revoke _) rfl
  obtain ⟨minted, hminted, hbecomes⟩ := hlast.forth (newAccess hashToken req rt) (by simp)
  refine h.advance hrefreshAdvances haccessAdvances (hrefreshIds.congr rfl) (haccessIds.congr rfl) ?_ ?_ ?_ ?_
  · intro access hnew old hold
    rw [hnew.id_eq]
    exact haccess old hold
  · rintro row rfl
    exact ⟨minted, hminted, hbecomes.id_eq⟩
  · rintro row rfl
    exact ⟨rt, hrow, rfl, rfl⟩
  · rintro row rfl access hmem hid
    rcases haccessAdvances.back access hmem with ⟨old, hold, hold'⟩ | hnew
    · exact absurd (hold'.id_eq.symm.trans hid) (haccess old hold)
    · exact hnew.tenantId_eq

theorem Effect.wellFormed (hdb : db.WellFormed) (h : Effect hashToken held overlap db event db') :
    db'.WellFormed := by
  cases h with
  | nothing => exact hdb
  | rotated hrow hunrotated haccess hrefresh hheld => exact hdb.rotate hrow haccess hrefresh
  | revokedFamily hcovers hrefresh haccess | revokedAccess haccess => exact hdb.revoke _ _ _

end Effects

def contract (hashToken : String → String)
    (allowed : Event → List Event → World Store Event → Prop) : Contract Store Lock Event where
  allowed := allowed
  guarantee held w event db :=
    ∃ overlap, allowed event overlap w ∧ Effect hashToken held overlap w.db event db

section Later

variable {hashToken : String → String} {allowed : Event → List Event → World Store Event → Prop}

theorem wellFormed_preserved : (contract hashToken allowed).Preserves fun w ↦ w.db.WellFormed := by
  rintro theirs w event db hw ⟨overlap, -, heffect⟩
  exact heffect.wellFormed hw

theorem contract_keeps_refresh : (contract hashToken allowed).Keeps refreshTable .refreshToken := by
  rintro theirs w event db ⟨overlap, -, heffect⟩
  exact heffect.refresh_kept

theorem contract_keeps_access : (contract hashToken allowed).Keeps accessTable .accessToken := by
  rintro theirs w event db ⟨overlap, -, heffect⟩
  exact heffect.access_kept

theorem contract_advances_refresh : (contract hashToken allowed).Advances refreshTable McpRefreshToken.Becomes
      fun event row ↦ ∃ id, event = .rotated id row.familyId := by
  rintro theirs w event db ⟨overlap, -, heffect⟩
  exact heffect.refresh_advances

theorem contract_advances_access :
    (contract hashToken allowed).Advances accessTable McpAccessToken.Becomes fun _ _ ↦ True := by
  rintro theirs w event db ⟨overlap, -, heffect⟩
  exact heffect.access_advances.mono fun _ _ ↦ trivial

variable {held : Locks} {w w' : World Store Event} (h : (contract hashToken allowed).Later held w w')

include h

theorem later_wellFormed (hw : w.db.WellFormed) : w'.db.WellFormed :=
  wellFormed_preserved.later hw h

theorem later_refresh {row : McpRefreshToken} (hrow : ∃ old ∈ w.db.refreshTokens, row.Becomes old) :
    ∃ later ∈ w'.db.refreshTokens, row.Becomes later :=
  contract_advances_refresh.forth (fun _ _ _ ↦ .trans) h hrow

theorem later_access {row : McpAccessToken} (hrow : ∃ old ∈ w.db.accessTokens, row.Becomes old) :
    ∃ later ∈ w'.db.accessTokens, row.Becomes later :=
  contract_advances_access.forth (fun _ _ _ ↦ .trans) h hrow

theorem earlier_refresh {row : McpRefreshToken} (hrow : row ∈ w'.db.refreshTokens)
    (hquiet : ∀ id, .rotated id row.familyId ∉ w'.since w.log) :
    ∃ old ∈ w.db.refreshTokens, old.Becomes row := by
  rcases contract_advances_refresh.back McpRefreshToken.Becomes.refl (fun _ _ _ ↦ .trans)
    (fun _ _ _ hnew hbecomes ↦ hbecomes.familyId_eq ▸ hnew) h hrow with hold | ⟨_, hmem, id, rfl⟩
  · exact hold
  · exact absurd hmem (hquiet id)

end Later

end PasswdSso.Mcp
