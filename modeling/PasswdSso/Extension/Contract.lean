import PasswdSso.Extension.Tokens

/-!
# What the token operations commit

Every commit of a token operation revokes some rows and mints the rows that its event names
(`Effect`). Rows only advance, new ids and hashes are claimed under their locks, and the directory
tables stay as they are. `contract` is the contract of the sessions, for any condition on the commits
of the run.
-/

namespace PasswdSso.Extension

open ReadCommitted List Store

abbrev Locks := List (Lock × Mode)

def Store.mint (revoked : List Uuid) (time : Millis) (rows : List ExtensionToken) (db : Store) :
    Store :=
  tokenTable.append rows (tokenTable.modify revoked (.revoke time) db)

@[simp] theorem Store.mint_nil (time : Millis) : mint [] time [] = id := by
  funext db
  simp [mint]

theorem Store.append_mint (revoked : List Uuid) (time : Millis) (rows : List ExtensionToken) (row : ExtensionToken) :
    tokenTable.append [row] ∘ mint revoked time rows = mint revoked time (rows ++ [row]) := by
  funext db
  simp [mint, Table.append, tokenTable]

/-- The rows that a commit mints are the ones that its operation describes, and the presented row of
a refresh is in the table. A rotation issues its pair after it has revoked the family. -/
def Event.Describes (hashToken : String → String) (w : World Store Event) : Event → Prop
  | .nothing => True
  | .cached => True
  | .familyRevoked _ => True
  | .issuedExtension row => ∃ p idleMinutes, row = extensionRow hashToken p idleMinutes
  | .issuedAutofill row => ∃ p, row = autofillRow hashToken p
  | .issuedPair source issuedAt access refresh => ∃ p : IssueIosParams, p.source = source ∧
      p.now = issuedAt ∧ access = iosAccessRow hashToken p ∧ refresh = iosRefreshRow hashToken p ∧
      ∀ presented, source = some presented → presented.clientKind = .iosApp ∧
        p.userId = presented.userId ∧ p.tenantId = presented.tenantId ∧
        (∃ row ∈ w.db.tokens, presented.Becomes row) ∧
        .rotationRevoked presented access.id ∈ w.log
  | .rotationRevoked presented _ => ∃ row ∈ w.db.tokens, presented.Becomes row
  | .refreshedExtension presented row => (∃ row ∈ w.db.tokens, presented.Becomes row) ∧
      ∃ req cnfJkt tenantId idleMinutes, row = refreshedRow hashToken req presented cnfJkt tenantId idleMinutes

/-- The revoked rows include every live row of the presented token's family, user and tenant. -/
def Covers (db : Store) (presented : ExtensionToken) (revoked : List Uuid) : Prop :=
  ∀ row ∈ db.tokens, row.familyId = presented.familyId → row.userId = presented.userId →
    row.tenantId = presented.tenantId → row.revokedAt = none → row.id ∈ revoked

/-- What a commit can do, given the locks that are held and the events committed since the
transaction began. -/
structure Effect (hashToken : String → String) (held : Locks) (overlap : List Event)
    (w : World Store Event) (event : Event) (db : Store) : Prop where
  describes : event.Describes hashToken w
  write : ∃ revoked time cache, db = { w.db.mint revoked time event.minted with rotationCache := cache } ∧
    ∀ presented accessId, event = .rotationRevoked presented accessId →
      (∀ other ∈ overlap, ∀ row ∈ other.minted, row.familyId ≠ presented.familyId) →
      Covers w.db presented revoked
  held : ∀ row ∈ event.minted, (.token row.id, .exclusive) ∈ held ∧ (.tokenHash row.tokenHash, .exclusive) ∈ held
  fresh : ∀ row ∈ event.minted, ∀ old ∈ w.db.tokens, old.id ≠ row.id ∧ old.tokenHash ≠ row.tokenHash
  distinct : event.minted.Pairwise fun a b ↦ a.id ≠ b.id ∧ a.tokenHash ≠ b.tokenHash

section Effects

variable {hashToken : String → String} {held : Locks} {overlap : List Event}
  {w : World Store Event} {event : Event} {db : Store}

theorem Store.mint_advances (revoked : List Uuid) (time : Millis) (rows : List ExtensionToken)
    (db : Store) : tokenTable.Advances ExtensionToken.Becomes (· ∈ rows) db (db.mint revoked time rows) := by
  have hrevoke : tokenTable.Advances ExtensionToken.Becomes (fun _ ↦ False) db
      (tokenTable.modify revoked (.revoke time) db) :=
    Table.advances_modify ExtensionToken.Becomes.refl fun row _ _ ↦ row.becomes_revoke time
  exact hrevoke.trans (fun _ _ _ ↦ .trans) (fun _ _ h ↦ h.elim)
    (Table.advances_append ExtensionToken.Becomes.refl fun _ h ↦ h)

section Facts

variable (h : Effect hashToken held overlap w event db)

include h

theorem Effect.advances : tokenTable.Advances ExtensionToken.Becomes (· ∈ event.minted) w.db db := by
  obtain ⟨revoked, time, cache, rfl, -⟩ := h.write
  exact (mint_advances revoked time event.minted w.db).congr rfl

theorem Effect.directory : db.directory = w.db.directory := by
  obtain ⟨revoked, time, cache, rfl, -⟩ := h.write
  rfl

theorem Effect.mem_of_live {row : ExtensionToken}
    (hrow : row ∈ db.tokens) (hlive : row.revokedAt = none) : row ∈ w.db.tokens ∨ row ∈ event.minted := by
  rcases h.advances.back row hrow with ⟨old, hold, hbecomes⟩ | hnew
  · exact .inl (hbecomes.eq_of_live hlive ▸ hold)
  · exact .inr hnew

theorem Effect.mem_of_minted {row : ExtensionToken} (hrow : row ∈ event.minted) : row ∈ db.tokens := by
  obtain ⟨revoked, time, cache, rfl, -⟩ := h.write
  exact mem_append_right _ hrow

theorem Effect.nodup {K : Type} {column : ExtensionToken → K}
    (hkept : ∀ (row : ExtensionToken) (time : Millis), column (row.revoke time) = column row)
    (hfresh : ∀ row ∈ event.minted, ∀ old ∈ w.db.tokens, column old ≠ column row)
    (hdistinct : event.minted.Pairwise fun a b ↦ column a ≠ column b)
    (hw : (w.db.tokens.map column).Nodup) : (db.tokens.map column).Nodup := by
  obtain ⟨revoked, time, cache, rfl, -⟩ := h.write
  have hsame (row : ExtensionToken) : column (if row.id ∈ revoked then row.revoke time else row) = column row := by
    split_ifs
    · exact hkept row time
    · rfl
  simp only [mint, tokens_append, tokens_modify, map_append, map_map, Function.comp_def, hsame]
  refine nodup_append.mpr ⟨hw, pairwise_map.mpr hdistinct, ?_⟩
  rintro _ hold _ hnew rfl
  obtain ⟨old, hmem, heq⟩ := mem_map.mp hold
  obtain ⟨row, hrow, hrow'⟩ := mem_map.mp hnew
  exact hfresh row hrow old hmem (heq.trans hrow'.symm)

end Facts

theorem Covers.dead {presented : ExtensionToken} {revoked : List Uuid} {time : Millis}
    (h : Covers w.db presented revoked) {row : ExtensionToken}
    (hrow : row ∈ (w.db.mint revoked time []).tokens) (hfamily : row.familyId = presented.familyId)
    (huser : row.userId = presented.userId) (htenant : row.tenantId = presented.tenantId) :
    row.revokedAt ≠ none := by
  intro hlive
  simp only [mint, Table.append_nil, tokens_modify, mem_map] at hrow
  obtain ⟨old, hold, rfl⟩ := hrow
  split_ifs at hfamily huser htenant hlive with hmem
  · exact Option.some_ne_none _ hlive
  · exact hmem (h old hold hfamily huser htenant hlive)

end Effects

def contract (hashToken : String → String)
    (allowed : Event → List Event → World Store Event → Prop) : Contract Store Lock Event where
  allowed := allowed
  guarantee held w event db :=
    ∃ overlap ⊆ w.log, allowed event overlap w ∧ Effect hashToken held overlap w event db

section Later

variable {hashToken : String → String} {allowed : Event → List Event → World Store Event → Prop}
  {held : Locks} {w w' : World Store Event}

theorem contract_advances : (contract hashToken allowed).Advances tokenTable ExtensionToken.Becomes
    fun event row ↦ ∃ minted ∈ event.minted, minted.Becomes row := by
  rintro theirs w event db ⟨overlap, -, -, heffect⟩
  exact heffect.advances.mono fun row hrow ↦ ⟨row, hrow, .refl row⟩

theorem contract_claims_id : (contract hashToken allowed).Claims tokenTable ExtensionToken.id .token := by
  rintro theirs w event db ⟨overlap, -, -, heffect⟩ row hrow
  rcases heffect.advances.back row hrow with ⟨old, hold, hbecomes⟩ | hnew
  · exact .inl ⟨old, hold, hbecomes.id_eq.symm⟩
  · exact .inr (heffect.held row hnew).1

theorem contract_claims_hash :
    (contract hashToken allowed).Claims tokenTable ExtensionToken.tokenHash .tokenHash := by
  rintro theirs w event db ⟨overlap, -, -, heffect⟩ row hrow
  rcases heffect.advances.back row hrow with ⟨old, hold, hbecomes⟩ | hnew
  · exact .inl ⟨old, hold, hbecomes.tokenHash_eq.symm⟩
  · exact .inr (heffect.held row hnew).2

theorem directory_preserved (directory : Directory) :
    (contract hashToken allowed).Preserves fun w ↦ w.db.directory = directory := by
  rintro theirs w event db hw ⟨overlap, -, -, heffect⟩
  exact heffect.directory.trans hw

theorem earlier_token (h : (contract hashToken allowed).Later held w w') {row : ExtensionToken}
    (hrow : row ∈ w'.db.tokens) : (∃ old ∈ w.db.tokens, old.Becomes row) ∨
      ∃ event ∈ w'.since w.log, ∃ minted ∈ event.minted, minted.Becomes row :=
  contract_advances.back ExtensionToken.Becomes.refl (fun _ _ _ ↦ .trans)
    (fun _ _ _ ⟨minted, hmem, hbecomes⟩ hnext ↦ ⟨minted, hmem, hbecomes.trans hnext⟩) h hrow

theorem later_log (h : (contract hashToken allowed).Later held w w') {event : Event}
    (hevent : event ∈ w.log) : event ∈ w'.log :=
  h.log_suffix.subset hevent

end Later

end PasswdSso.Extension
