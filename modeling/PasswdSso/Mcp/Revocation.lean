import PasswdSso.Mcp.OAuthServer
import PasswdSso.ReadCommitted.Alone

/-!
# What `revokeToken` revokes

A client presents one of its tokens for revocation, with or without a hint of its type. The hint `refresh_token` and a
missing hint make `revokeToken` try both tables, but the hint `access_token` makes it skip the refresh tokens: a
refresh token that is presented with it stays live.
-/

namespace PasswdSso.Mcp

open ReadCommitted List

/-- A token of one of the two types. -/
inductive Token
  | access (row : McpAccessToken)
  | refresh (row : McpRefreshToken)

namespace Token

def tokenHash : Token → String
  | .access row => row.tokenHash
  | .refresh row => row.tokenHash

def clientId : Token → Uuid
  | .access row => row.clientId
  | .refresh row => row.clientId

def revokedAt : Token → Option Millis
  | .access row => row.revokedAt
  | .refresh row => row.revokedAt

def Mem (db : Store) : Token → Prop
  | .access row => row ∈ db.accessTokens
  | .refresh row => row ∈ db.refreshTokens

instance (db : Store) (token : Token) : Decidable (token.Mem db) := by
  cases token <;> dsimp only [Token.Mem] <;> infer_instance

/-- The token is revoked, and if it is a refresh token, so is its whole family with the access tokens that were issued
with its members. -/
def Revoked (db : Store) : Token → Prop
  | .access row => ∀ row' ∈ db.accessTokens, row'.id = row.id → row'.revokedAt ≠ none
  | .refresh row => ∀ row' ∈ db.refreshTokens, row'.familyId = row.familyId → row'.revokedAt ≠ none ∧
      ∀ access ∈ db.accessTokens, access.id = row'.accessTokenId → access.revokedAt ≠ none

end Token

/-- The unique hashes of both tables; the prefixes of the two types keep their hashes apart. -/
structure Store.HashesUnique (db : Store) : Prop where
  access : (db.accessTokens.map (·.tokenHash)).Nodup
  refresh : (db.refreshTokens.map (·.tokenHash)).Nodup
  apart : ∀ access ∈ db.accessTokens, ∀ refresh ∈ db.refreshTokens, access.tokenHash ≠ refresh.tokenHash

/-- The request presents the live token as its client. -/
structure RevokeRequest.Presents (req : RevokeRequest) (hashToken : String → String) (db : Store) (token : Token) :
    Prop where
  mem : token.Mem db
  live : token.revokedAt = none
  hash : hashToken req.token = token.tokenHash
  client : ∃ client, db.clients.find? (·.id = token.clientId) = some client ∧ client.clientId = req.clientId ∧
    verifyRevokeClientAuth client.clientSecretHash req.clientSecretHash = true

/-- The arguments are within the lengths that `revokeToken` looks at. -/
def RevokeRequest.Presentable (req : RevokeRequest) : Prop :=
  (req.token.isEmpty || jsLength req.token > presentedTokenMaxLength || req.clientId.isEmpty ||
    jsLength req.clientId > clientIdMaxLength) = false

instance (req : RevokeRequest) : Decidable req.Presentable := inferInstanceAs (Decidable (_ = false))

/-- The hint does not lead away from the token. -/
def Token.Sought (hint : Option TokenTypeHint) : Token → Prop
  | .access _ => True
  | .refresh _ => hint ≠ some .accessToken

instance (hint : Option TokenTypeHint) (token : Token) : Decidable (token.Sought hint) := by
  cases token <;> dsimp only [Token.Sought] <;> infer_instance

section Lookup

variable {db : Store} {hash : String}

theorem Store.HashesUnique.no_refresh (h : db.HashesUnique) {row : McpAccessToken} (hrow : row ∈ db.accessTokens) :
    db.findRefreshToken row.tokenHash = none := by
  rw [Store.findRefreshToken, Option.map_eq_none_iff, find?_eq_none]
  intro other hother heq
  exact h.apart row hrow other hother (of_decide_eq_true heq).symm

theorem Store.HashesUnique.no_access (h : db.HashesUnique) {row : McpRefreshToken} (hrow : row ∈ db.refreshTokens) :
    db.findAccessToken row.tokenHash = none := by
  rw [Store.findAccessToken, Option.map_eq_none_iff, find?_eq_none]
  intro other hother heq
  exact h.apart other hother row hrow (of_decide_eq_true heq)

end Lookup

section Branches

variable {hashToken : String → String} {req : RevokeRequest} {db : Store}

theorem Token.not_revoked {token : Token} (hmem : token.Mem db) (hlive : token.revokedAt = none) :
    ¬ token.Revoked db := by
  intro hrevoked
  cases token with
  | access row => exact hrevoked row hmem rfl hlive
  | refresh row => exact (hrevoked row hmem rfl).1 hlive

theorem revokeAccessToken_yields_nothing {hash : String} (hnone : db.findAccessToken hash = none) :
    (revokeAccessToken hash req).Yields db (.ok .nothing) db := by
  refine .bind (.read _) ?_
  rw [hnone]
  exact .pure _

theorem revokeAccessToken_yields (hhashes : db.HashesUnique) {row : McpAccessToken}
    (hpresents : req.Presents hashToken db (.access row)) :
    ∃ db', (revokeAccessToken row.tokenHash req).Yields db (.ok (.revokedAccess row.id)) db' ∧
      (Token.access row).Revoked db' := by
  obtain ⟨client, hclient, hclientId, hauth⟩ := hpresents.client
  have hrow : row ∈ db.accessTokens := hpresents.mem
  have hfind : db.findAccessToken row.tokenHash = some (row, some client) := by
    rw [Store.findAccessToken, find?_of_nodup_map hhashes.access hrow]
    exact congrArg some (congrArg (Prod.mk row) hclient)
  have hkey : row.id ∈ accessTable.keysWhere (fun other ↦ other.id = row.id && other.tenantId = row.tenantId) db :=
    Table.mem_keysWhere.mpr ⟨row, hrow, by simp, rfl⟩
  refine ⟨accessTable.modify (accessTable.keysWhere (fun other ↦ other.id = row.id && other.tenantId = row.tenantId) db)
    (McpAccessToken.revoke req.times.1) db, .bind (.read _) ?_, ?_⟩
  · rw [hfind]
    simp only [hclientId, ne_eq, not_true_eq_false, if_false, hauth, Bool.not_true, Bool.false_eq_true]
    refine .bind .updateMany ?_
    rw [if_neg (Nat.ne_of_gt (length_pos_of_mem hkey))]
    exact .pure _
  · intro row' hrow' hid
    obtain ⟨old, hold, rfl⟩ := mem_map.mp hrow'
    split_ifs at hid ⊢ with hold'
    · exact Option.some_ne_none _
    · exact absurd (hid ▸ hkey) hold'

variable {row : McpRefreshToken}

theorem revokeRefreshTokenFamily_yields (hwell : db.WellFormed) (hrow : row ∈ db.refreshTokens)
    (times : Millis × Millis) :
    ∃ db', (revokeRefreshTokenFamily row times).Yields db (.ok (.revokedFamily row.familyId)) db' ∧
      (Token.refresh row).Revoked db' := by
  -- the rows after the first update, and the access tokens that it then lists
  obtain ⟨mid, hmid⟩ : ∃ mid, mid = refreshTable.modify (refreshTable.keysWhere (fun other ↦
    other.familyId = row.familyId && other.tenantId = row.tenantId && other.revokedAt.isNone) db)
    (McpRefreshToken.revoke times.1) db := ⟨_, rfl⟩
  obtain ⟨listed, hlisted⟩ : ∃ listed, listed = ((mid.refreshTokens.filter fun other ↦
    other.familyId = row.familyId && other.tenantId = row.tenantId).map (·.accessTokenId)).dedup := ⟨_, rfl⟩
  have hfamily (row' : McpRefreshToken) (hrow' : row' ∈ mid.refreshTokens) (hsame : row'.familyId = row.familyId) :
      row'.revokedAt ≠ none ∧ row'.accessTokenId ∈ listed ∧
        ∃ old ∈ db.refreshTokens, old.accessTokenId = row'.accessTokenId ∧ old.tenantId = row.tenantId := by
    obtain ⟨old, hold, hbecomes, hrevoked⟩ := hwell.refreshIds.of_modify_keysWhere (·.revokedAt ≠ none) .refl
      (fun row ↦ ⟨McpRefreshToken.becomes_revoke times.1 row, Option.some_ne_none _⟩) (hmid ▸ hrow')
    have hfamilyId : old.familyId = row.familyId := hbecomes.familyId_eq.symm.trans hsame
    have htenant := hwell.familyTenant old hold row hrow hfamilyId
    refine ⟨?_, ?_, old, hold, hbecomes.accessTokenId_eq.symm, htenant⟩
    · intro hnone
      exact hrevoked (by simp [hfamilyId, htenant, hbecomes.live hnone]) hnone
    · rw [hlisted, mem_dedup]
      refine mem_map_of_mem (mem_filter.mpr ⟨hrow', ?_⟩)
      simp [hsame, hbecomes.tenantId_eq, htenant]
  have haccess : mid.accessTokens = db.accessTokens := by rw [hmid]; rfl
  have hids : accessTable.KeysUnique mid := hwell.accessIds.congr haccess
  -- the row itself is still there, so the list is not empty
  have hnonempty : listed.length > 0 := by
    have hkept : ∃ row' ∈ mid.refreshTokens, row'.familyId = row.familyId := by
      rw [hmid, hwell.refreshIds.modify_keysWhere]
      refine ⟨_, mem_map_of_mem hrow, ?_⟩
      split_ifs <;> rfl
    obtain ⟨row', hrow', hsame⟩ := hkept
    exact length_pos_of_mem (hfamily row' hrow' hsame).2.1
  refine ⟨accessTable.modify (accessTable.keysWhere (fun other ↦ other.id ∈ listed &&
    other.tenantId = row.tenantId && other.revokedAt.isNone) mid) (.revoke times.2) mid, ?_, ?_⟩
  · refine .bind .updateMany (.bind (.read _) ?_)
    rw [← hmid, ← hlisted, revokeListed, if_pos hnonempty]
    exact .bind (.bind .updateMany (.pure _)) (.pure _)
  · intro row' hrow' hsame
    obtain ⟨hrevoked, hmem, old, hold, hpaired, htenant⟩ := hfamily row' hrow' hsame
    refine ⟨hrevoked, fun access haccess' hid ↦ ?_⟩
    obtain ⟨before, hbefore, hbecomes, hrevokedAccess⟩ := hids.of_modify_keysWhere (·.revokedAt ≠ none) .refl
      (fun row ↦ ⟨McpAccessToken.becomes_revoke times.2 row, Option.some_ne_none _⟩) haccess'
    rw [show accessTable.rows mid = db.accessTokens from haccess] at hbefore
    have hid' : before.id = row'.accessTokenId := hbecomes.id_eq.symm.trans hid
    have htenant' := hwell.accessTenant old hold before hbefore (hid'.trans hpaired.symm)
    intro hnone
    exact hrevokedAccess (by simp [hid', hmem, htenant', htenant, hbecomes.live hnone]) hnone

theorem revokeTokenBody_access (hhashes : db.HashesUnique) {row : McpAccessToken}
    (hpresents : req.Presents hashToken db (.access row)) :
    ∃ db', (revokeTokenBody hashToken req).Yields db (.ok (.revokedAccess row.id)) db' ∧
      (Token.access row).Revoked db' := by
  obtain ⟨db', hyields, hrevoked⟩ := revokeAccessToken_yields hhashes hpresents
  refine ⟨db', ?_, hrevoked⟩
  rw [revokeTokenBody, show hashToken req.token = row.tokenHash from hpresents.hash]
  split_ifs
  · refine .bind (.read _) ?_
    rw [hhashes.no_refresh hpresents.mem]
    exact hyields
  · exact hyields

theorem revokeTokenBody_unsought (hhashes : db.HashesUnique) (hpresents : req.Presents hashToken db (.refresh row))
    (hhint : req.tokenTypeHint = some .accessToken) :
    (revokeTokenBody hashToken req).Yields db (.ok .nothing) db := by
  rw [revokeTokenBody, show hashToken req.token = row.tokenHash from hpresents.hash, if_neg (by simpa using hhint)]
  exact revokeAccessToken_yields_nothing (hhashes.no_access hpresents.mem)

theorem revokeTokenBody_refresh (hwell : db.WellFormed) (hhashes : db.HashesUnique)
    (hpresents : req.Presents hashToken db (.refresh row)) (hhint : req.tokenTypeHint ≠ some .accessToken) :
    ∃ db', (revokeTokenBody hashToken req).Yields db (.ok (.revokedFamily row.familyId)) db' ∧
      (Token.refresh row).Revoked db' := by
  obtain ⟨db', hyields, hrevoked⟩ := revokeRefreshTokenFamily_yields hwell hpresents.mem req.times
  obtain ⟨client, hclient, hclientId, hauth⟩ := hpresents.client
  refine ⟨db', ?_, hrevoked⟩
  rw [revokeTokenBody, show hashToken req.token = row.tokenHash from hpresents.hash, if_pos hhint]
  refine .bind (.read _) ?_
  rw [Store.findRefreshToken, find?_of_nodup_map hhashes.refresh hpresents.mem, Option.map_some,
    show db.clients.find? (·.id = row.clientId) = some client from hclient]
  simp only [hclientId, ne_eq, not_true_eq_false, if_false, hauth, Bool.not_true, Bool.false_eq_true]
  exact hyields

end Branches

/-- For every token store and every live token that its client presents, `revokeToken` leaves the token revoked (with
its family and their access tokens, if it is a refresh token) exactly when the arguments are of an acceptable length and
the hint is not `access_token` for a refresh token. -/
theorem revokeToken_revokes_iff {hashToken : String → String} (store : TokenStore) (hhashes : store.store.HashesUnique)
    {req : RevokeRequest} {token : Token} (hpresents : req.Presents hashToken store.store token) (log : List Event) :
    token.Revoked ((revokeToken hashToken req).alone ⟨store.store, log⟩).2.db ↔
      req.Presentable ∧ token.Sought req.tokenTypeHint := by
  by_cases hpresentable : req.Presentable
  · have halone : (revokeToken hashToken req).alone ⟨store.store, log⟩ =
        (Prog.transaction id (revokeTokenBody hashToken req)).alone ⟨store.store, log⟩ := by
      rw [revokeToken, if_neg (by rw [show _ = false from hpresentable]; simp)]
    -- what the body does decides the claim
    have hdone {event : Event} {db' : Store}
        (hyields : (revokeTokenBody hashToken req).Yields store.store (.ok event) db') :
        ((revokeToken hashToken req).alone ⟨store.store, log⟩).2.db = db' := by
      rw [halone, Prog.Yields.commit (w := ⟨store.store, log⟩) hyields]
      rfl
    cases token with
    | access row =>
      obtain ⟨db', hbody, hrevoked⟩ := revokeTokenBody_access hhashes hpresents
      exact iff_of_true (hdone hbody ▸ hrevoked) ⟨hpresentable, trivial⟩
    | refresh row =>
      by_cases hhint : req.tokenTypeHint = some .accessToken
      · refine iff_of_false ?_ fun h ↦ h.2 hhint
        rw [hdone (revokeTokenBody_unsought hhashes hpresents hhint)]
        exact Token.not_revoked hpresents.mem hpresents.live
      · obtain ⟨db', hbody, hrevoked⟩ := revokeTokenBody_refresh store.wellFormed hhashes hpresents hhint
        exact iff_of_true (hdone hbody ▸ hrevoked) ⟨hpresentable, hhint⟩
  · refine iff_of_false ?_ fun h ↦ hpresentable h.1
    have hrefused : (revokeToken hashToken req).alone ⟨store.store, log⟩ = (.ok .nothing, ⟨store.store, log⟩) := by
      rw [revokeToken, if_pos (eq_true_of_ne_false hpresentable)]
      rfl
    rw [hrefused]
    exact Token.not_revoked hpresents.mem hpresents.live

/-- The refresh token of the store. -/
def presentedToken : Token := .refresh ⟨20, "R", 7, 0, 10, 1, 1, none, none, "s", 1000, none, none, none⟩

def presentRefresh (hint : Option TokenTypeHint) : RevokeRequest := ⟨"R", hint, "mcpc_a", none, (1, 1)⟩

theorem pairStore_hashesUnique : pairStore.store.HashesUnique := ⟨by decide, by decide, by decide⟩

theorem presentRefresh_presents (hint : Option TokenTypeHint) :
    (presentRefresh hint).Presents id pairStore.store presentedToken :=
  ⟨by decide, rfl, rfl, _, rfl, rfl, rfl⟩

/-- The refresh token that is presented with the hint `refresh_token` is revoked with its family. -/
theorem revokeToken_revokes_hinted : presentedToken.Revoked
      ((revokeToken id (presentRefresh (some .refreshToken))).alone ⟨pairStore.store, []⟩).2.db :=
  (revokeToken_revokes_iff pairStore pairStore_hashesUnique
    (presentRefresh_presents (some .refreshToken)) []).mpr ⟨by decide +kernel, by decide⟩

/-- Presented with the hint `access_token`, it is not looked for and nothing is revoked. -/
theorem hinted_refresh_not_revoked :
    ¬ ∀ (store : TokenStore) (req : RevokeRequest) (token : Token), store.store.HashesUnique →
      req.Presents id store.store token → req.Presentable →
        token.Revoked ((revokeToken id req).alone ⟨store.store, []⟩).2.db := by
  intro h
  have hrevoked := h pairStore (presentRefresh (some .accessToken)) presentedToken pairStore_hashesUnique
    (presentRefresh_presents (some .accessToken)) (by decide +kernel)
  have hlive : ¬ ∀ row ∈ ((revokeToken id (presentRefresh (some .accessToken))).alone
      ⟨pairStore.store, []⟩).2.db.refreshTokens, row.familyId = 7 → row.revokedAt ≠ none := by
    decide +kernel
  exact hlive fun row hrow hfamily ↦ (hrevoked row hrow hfamily).1

end PasswdSso.Mcp
