import PasswdSso.Extension.Contract

/-!
# The token operations keep their contract

The proof outlines of issuing and refreshing. `Minting` is what a transaction knows while it runs:
the rows it has revoked and created so far, and that the ids and hashes it has claimed are still
free in the committed table.
-/

namespace PasswdSso.Extension

open ReadCommitted Passkey List Store

variable {hashToken : String → String} {allowed : Event → List Event → World Store Event → Prop}
  {stand next : Stand Store Lock Event} {revoked : List Uuid} {time : Millis}
  {rows : List ExtensionToken}

/-- A transaction that has revoked and created rows, none of which is visible to others yet. -/
structure Minting (stand : Stand Store Lock Event) (revoked : List Uuid) (time : Millis)
    (rows : List ExtensionToken) : Prop where
  pending : stand.pending = mint revoked time rows
  held : ∀ row ∈ rows, (.token row.id, .exclusive) ∈ stand.held ∧ (.tokenHash row.tokenHash, .exclusive) ∈ stand.held
  fresh : ∀ row ∈ rows, ∀ old ∈ stand.seen.db.tokens, old.id ≠ row.id ∧ old.tokenHash ≠ row.tokenHash
  distinct : rows.Pairwise fun a b ↦ a.id ≠ b.id ∧ a.tokenHash ≠ b.tokenHash

theorem Minting.start (hpending : stand.pending = id) (time : Millis) : Minting stand [] time [] :=
  ⟨by rw [hpending, mint_nil], by simp, by simp, .nil⟩

variable {w : World Store Event} {locks : Locks} {now : Millis} {rls : Uuid}

theorem Minting.fresh_later (h : Minting stand revoked time rows)
    (hw : (contract hashToken allowed).Later stand.held stand.seen w) :
    ∀ row ∈ rows, ∀ old ∈ w.db.tokens, old.id ≠ row.id ∧ old.tokenHash ≠ row.tokenHash := by
  intro row hrow old hold
  obtain ⟨hid, hhash⟩ := h.held row hrow
  exact ⟨contract_claims_id.absent hw hid (fun other hother ↦ (h.fresh row hrow other hother).1) old hold,
    contract_claims_hash.absent hw hhash (fun other hother ↦ (h.fresh row hrow other hother).2) old hold⟩

theorem Minting.read (h : Minting stand revoked time rows)
    (hstep : stand.Step (contract hashToken allowed) next locks id) :
    Minting next revoked time rows where
  pending := by rw [hstep.pending, h.pending]; rfl
  held row hrow := ⟨hstep.reaches.held (h.held row hrow).1, hstep.reaches.held (h.held row hrow).2⟩
  fresh := h.fresh_later hstep.later
  distinct := h.distinct

theorem Minting.updateMany (hpending : stand.pending = id)
    (hwrite : next.pending = tokenTable.modify revoked (.revoke time) ∘ stand.pending) :
    Minting next revoked time [] := by
  refine ⟨?_, by simp, by simp, .nil⟩
  funext db
  rw [hwrite, hpending]
  simp [mint]

theorem Minting.commits {event : Event} (h : Minting stand revoked time event.minted)
    (hdescribes : ∀ w, (contract hashToken allowed).Later stand.held stand.seen w → event.Describes hashToken w)
    (hcovers : ∀ w, (contract hashToken allowed).Later stand.held stand.seen w →
      ∀ presented accessId, event = .rotationRevoked presented accessId →
        (∀ other ∈ w.since (stand.began.getD w.log), ∀ row ∈ other.minted,
          row.familyId ≠ presented.familyId) → Covers w.db presented revoked) :
    (contract hashToken allowed).Commits stand event := by
  intro w hw hallowed
  refine ⟨_, take_subset _ _, hallowed, hdescribes w hw, ⟨revoked, time, w.db.rotationCache, ?_, hcovers w hw⟩,
    h.held, h.fresh_later hw, h.distinct⟩
  rw [h.pending]
  rfl

theorem commits_cached {tokenHash : String} {record : RotationRecord}
    (hstep : (Stand.idle w).Step (contract hashToken allowed) stand [] (cacheRotation tokenHash record now)) :
    (contract hashToken allowed).Commits stand .cached := by
  intro v hv hallowed
  refine ⟨_, take_subset _ _, hallowed, trivial, ⟨[], now, (cacheRotation tokenHash record now v.db).rotationCache, ?_,
    by simp⟩, by simp [Event.minted], by simp [Event.minted], .nil⟩
  have hminted : Event.cached.minted = [] := rfl
  rw [hstep.pending, hminted, mint_nil]
  rfl

theorem outline_createToken {row : ExtensionToken} (h : Minting stand revoked time rows) :
    Outline (contract hashToken allowed) (createToken rls row) stand fun result after ↦
      stand.Reaches (contract hashToken allowed) after ∧
        (result = .ok () → Minting after revoked time (rows ++ [row])) := by
  unfold createToken
  split
  · exact ⟨.refl stand, nofun⟩
  refine .insert (fun next hnext hclash ↦ ⟨hnext.reaches, fun _ ↦ ?_⟩) fun next hnext _ ↦ ⟨hnext.reaches, nofun⟩
  rw [h.pending] at hclash
  have hfree (other : ExtensionToken) (hother : other ∈ (mint revoked time rows next.seen.db).tokens) :
      other.id ≠ row.id ∧ other.tokenHash ≠ row.tokenHash := by
    simpa [not_or] using any_eq_false.mp hclash other hother
  refine ⟨?_, ?_, ?_, ?_⟩
  · rw [hnext.pending, h.pending, append_mint]
  · intro other hother
    rcases mem_append.mp hother with hold | hnew
    · exact ⟨hnext.reaches.held (h.held other hold).1, hnext.reaches.held (h.held other hold).2⟩
    · obtain rfl := mem_singleton.mp hnew
      exact ⟨hnext.locked, hnext.mem_held (by simp)⟩
  · intro other hother old hold
    rcases mem_append.mp hother with hearlier | hnew
    · exact h.fresh_later hnext.later other hearlier old hold
    · obtain rfl := mem_singleton.mp hnew
      obtain ⟨later, hlater, hbecomes⟩ :=
        (mint_advances revoked time rows next.seen.db).forth old hold
      rw [← hbecomes.id_eq, ← hbecomes.tokenHash_eq]
      exact hfree later hlater
  · refine pairwise_append.mpr ⟨h.distinct, pairwise_singleton _ _, ?_⟩
    intro other hother last hlast
    obtain rfl := mem_singleton.mp hlast
    exact hfree other (mem_append_right _ hother)

theorem outline_makeRoom {userId : Uuid} {new : Nat} (hpending : stand.pending = id) :
    Outline (contract hashToken allowed) (makeRoom rls userId now new) stand fun _ after ↦
      stand.Reaches (contract hashToken allowed) after ∧ ∃ revoked, Minting after revoked now [] := by
  unfold makeRoom
  refine .lockingRead fun s₁ hs₁ ↦ .read fun s₂ hs₂ ↦ ?_
  have hminting := ((Minting.start hpending now).read hs₁).read hs₂
  have hreaches := hs₁.reaches.trans hs₂.reaches
  have hpending₂ : s₂.pending = id := by rw [hminting.pending, mint_nil]
  extract_lets overCount
  split
  · refine .updateMany fun _ next _ keys hnext ↦ ?_
    exact ⟨hreaches.trans hnext.reaches, keys, .updateMany hpending₂ hnext.pending⟩
  · exact ⟨hreaches, [], hminting⟩

section Operations

variable {w : World Store Event} {directory : Directory} {presented : ExtensionToken}

/-- What an operation knows between its transactions: the directory, and that the row it was
presented with is in the table. -/
def Knows (directory : Directory) (presented : Option ExtensionToken) (w : World Store Event) : Prop :=
  w.db.directory = directory ∧ ∀ token, presented = some token → ∃ row ∈ w.db.tokens, token.Becomes row

theorem knows_preserved (directory : Directory) (presented : Option ExtensionToken) :
    (contract hashToken allowed).Preserves (Knows directory presented) := by
  intro theirs w event db hw h
  refine ⟨directory_preserved directory theirs w event db hw.1 h, fun token htoken ↦ ?_⟩
  obtain ⟨overlap, -, -, heffect⟩ := h
  obtain ⟨old, hold, hbecomes⟩ := hw.2 token htoken
  obtain ⟨later, hlater, hnext⟩ := heffect.advances.forth old hold
  exact ⟨later, hlater, hbecomes.trans hnext⟩

theorem Knows.later {presented : Option ExtensionToken} {held : Locks} {w' : World Store Event}
    (hw : Knows directory presented w) (h : (contract hashToken allowed).Later held w w') :
    Knows directory presented w' :=
  (knows_preserved directory presented).later hw h

theorem outline_withUserTenantRls {α : Type} {userId : Uuid} {label : α → Event}
    {body : Uuid → Server (Except Thrown α)} {presented : Option ExtensionToken}
    {post : Except Thrown α → Stand Store Lock Event → Prop} (hw : Knows directory presented w)
    (hbody : ∀ rls w', (contract hashToken allowed).Later [] w w' →
      resolveUserTenantId directory.members userId = .ok rls → Knows directory presented w' →
      Earns (contract hashToken allowed) (body rls) (.idle w') label)
    (hpost : ∀ result w', Knows directory presented w' →
      (∀ value, result = .ok value → label value ∈ w'.log) → post result (.idle w')) :
    Outline (contract hashToken allowed) (withUserTenantRls userId label body) (.idle w) post := by
  unfold withUserTenantRls
  refine .readOnly fun v w' hv hw' ↦ ?_
  have hknows := (hw.later hv).later hw'
  rw [(hw.later hv).1]
  split
  · exact hpost _ w' hknows nofun
  · rename_i rls hresolve
    exact .transaction (knows_preserved directory presented) hknows
      (hbody rls w' (hv.trans hw') hresolve hknows) hpost

theorem outline_issueExtensionToken {p : IssueExtensionParams} (hw : Knows directory none w) :
    Respects (contract hashToken allowed) (issueExtensionToken hashToken p) w := by
  unfold issueExtensionToken
  refine .readOnly fun v w' hv hw' ↦ ?_
  split
  · trivial
  refine outline_withUserTenantRls ((hw.later hv).later hw') (fun rls w₁ _ _ _ ↦ ?_) fun _ _ _ _ ↦ trivial
  refine outline_bind.mpr ((outline_makeRoom rfl).weaken ?_)
  rintro - room ⟨-, revoked, hroom⟩
  refine outline_bind.mpr ((outline_createToken hroom).weaken ?_)
  rintro (thrown | ⟨⟩) after ⟨-, hok⟩
  · exact .error
  · rintro row ⟨⟩
    exact (hok rfl).commits (fun _ _ ↦ ⟨p, _, rfl⟩) nofun

theorem outline_issueAutofillToken {p : IssueAutofillParams} (hw : Knows directory none w) :
    Respects (contract hashToken allowed) (issueAutofillToken hashToken p) w := by
  refine outline_withUserTenantRls hw (fun rls w₁ _ _ _ ↦ ?_) fun _ _ _ _ ↦ trivial
  refine .updateMany fun _ next _ _ hnext ↦ ?_
  refine outline_bind.mpr ((outline_createToken (Minting.updateMany rfl hnext.pending)).weaken ?_)
  rintro (thrown | ⟨⟩) after ⟨-, hok⟩
  · exact .error
  · rintro row ⟨⟩
    exact (hok rfl).commits (fun _ _ ↦ ⟨p, rfl⟩) nofun

theorem outline_issueIosToken {p : IssueIosParams} (hw : Knows directory p.source w)
    (hsource : ∀ presented, p.source = some presented → presented.clientKind = .iosApp ∧
      p.userId = presented.userId ∧ p.tenantId = presented.tenantId ∧
      .rotationRevoked presented p.access.id ∈ w.log)
    {post : Except Thrown IssuedIosToken → Stand Store Lock Event → Prop}
    (hpost : ∀ result w', post result (.idle w')) :
    Outline (contract hashToken allowed) (issueIosToken hashToken p) (.idle w) post := by
  refine outline_withUserTenantRls hw (fun rls w₁ hw₁ _ hknows ↦ ?_) fun result w' _ _ ↦ hpost result w'
  refine outline_bind.mpr ((outline_makeRoom rfl).weaken ?_)
  rintro - room ⟨hroom, revoked, hminting⟩
  refine outline_bind.mpr ((outline_createToken hminting).weaken ?_)
  rintro (thrown | ⟨⟩) one ⟨hone, hok⟩
  · exact .error
  refine outline_bind.mpr ((outline_createToken (hok rfl)).weaken ?_)
  rintro (thrown | ⟨⟩) two ⟨htwo, hok'⟩
  · exact .error
  rintro issued ⟨⟩
  refine (hok' rfl).commits (fun w₂ hw₂ ↦ ⟨p, rfl, rfl, rfl, rfl, fun presented hpresented ↦ ?_⟩) nofun
  obtain ⟨hkind, huser, htenant, hlog⟩ := hsource presented hpresented
  have hlater : (contract hashToken allowed).Later [] w₁ w₂ :=
    (hroom.trans (hone.trans htwo)).until hw₂
  exact ⟨hkind, huser, htenant, (hknows.later hlater).2 presented hpresented, later_log (hw₁.trans hlater) hlog⟩

theorem outline_revokeExtensionTokenFamily {familyId : Uuid} {now : Millis} (hw : Knows directory (some presented) w)
    {post : Except Thrown Nat → Stand Store Lock Event → Prop} (hpost : ∀ result w', post result (.idle w')) :
    Outline (contract hashToken allowed) (revokeExtensionTokenFamily familyId now) (.idle w) post := by
  refine .transaction (knows_preserved directory (some presented)) hw ?_ fun result w' _ _ ↦ hpost result w'
  refine .updateMany fun _ next _ _ hnext ↦ ?_
  exact fun _ _ ↦ (Minting.updateMany rfl hnext.pending).commits (fun _ _ ↦ trivial) nofun

/-- A rotation's bulk revocation reaches every live row of the family, unless one was minted while
the transaction was open. -/
theorem covers_of_updateMany {candidates keys : List Uuid} {sel : ExtensionToken → Bool}
    (hsel : ∀ row : ExtensionToken, row.familyId = presented.familyId →
      row.userId = presented.userId → row.tenantId = presented.tenantId → row.revokedAt = none →
      sel row = true) (hcandidates : candidates = tokenTable.keysWhere sel stand.seen.db)
    (hkeys : keys = tokenTable.matched sel candidates next.seen.db)
    (hnext : (contract hashToken allowed).Later [] stand.seen next.seen)
    (hw : (contract hashToken allowed).Later [] next.seen w)
    (hminted : ∀ other ∈ w.since stand.seen.log, ∀ row ∈ other.minted, row.familyId ≠ presented.familyId) :
    Covers w.db presented keys := by
  intro row hrow hfamily huser htenant hlive
  have hearlier {u : World Store Event} (hu : (contract hashToken allowed).Later [] u w)
      (hlog : stand.seen.log <:+ u.log) :
      ∃ old ∈ u.db.tokens, sel old = true ∧ old.id = row.id := by
    rcases earlier_token hu hrow with ⟨old, hold, hbecomes⟩ | ⟨event, hevent, minted, hmem, hbecomes⟩
    · exact ⟨old, hold, hsel old (hbecomes.familyId_eq ▸ hfamily) (hbecomes.userId_eq ▸ huser)
        (hbecomes.tenantId_eq ▸ htenant) (hbecomes.live hlive), hbecomes.id_eq.symm⟩
    · refine absurd (hbecomes.familyId_eq ▸ hfamily) (hminted event ?_ minted hmem)
      exact World.since_subset hlog hu.log_suffix hevent
  rw [hkeys, Table.mem_matched, hcandidates, Table.mem_keysWhere]
  exact ⟨hearlier (hnext.trans hw) (suffix_refl _), hearlier hw hnext.log_suffix⟩

variable {req : MobileRefreshRequest} {cnfJkt : String}

theorem outline_rotateIosPair (hw : Knows directory (some presented) w) (hkind : presented.clientKind = .iosApp)
    (hactive : activeMember directory.members presented.tenantId presented.userId = true) :
    Respects (contract hashToken allowed) (rotateIosPair hashToken req presented cnfJkt) w := by
  refine outline_bind.mpr (outline_withUserTenantRls hw (fun rls w₁ _ hresolve hknows ↦ ?_)
    fun result w₂ hknows hlog ↦ ?_)
  · obtain rfl := resolveUserTenantId_eq hresolve hactive
    refine .updateMany fun snapshot next candidates keys hnext ↦ ?_
    rintro count ⟨⟩
    refine (Minting.updateMany rfl hnext.pending).commits
      (fun u hu ↦ (hknows.later (hnext.reaches.until hu)).2 presented rfl) fun u hu token accessId h hnone ↦ ?_
    cases h
    rw [hnext.began] at hnone
    exact covers_of_updateMany (fun row h₁ h₂ h₃ h₄ ↦ by simp [h₁, h₂, h₃, h₄]) hnext.candidates_eq hnext.keys_eq
      (hnext.wrote.later.mono (nil_subset _)) (hu.mono (nil_subset _)) hnone
  · cases result with
    | error thrown => trivial
    | ok count =>
      refine outline_bind.mpr (outline_issueIosToken hknows ?_ ?_)
      · rintro token ⟨⟩
        exact ⟨hkind, rfl, rfl, hlog count rfl⟩
      · rintro (thrown | issued) w₃
        · trivial
        · exact .assign (fun next hnext ↦ commits_cached hnext) fun _ ↦ trivial

theorem outline_refreshIosToken (hw : Knows directory (some presented) w) (hkind : presented.clientKind = .iosApp)
    (hactive : activeMember directory.members presented.tenantId presented.userId = true) :
    Respects (contract hashToken allowed) (refreshIosToken hashToken req presented cnfJkt) w := by
  have hrevoke {w' : World Store Event} (hw' : Knows directory (some presented) w')
      (refusal : RefreshRefusal) : Respects (contract hashToken allowed)
        (do let _ ← revokeExtensionTokenFamily presented.familyId req.familyRevokedAt
            return RefreshOutcome.refused refusal) w' :=
    outline_bind.mpr (outline_revokeExtensionTokenFamily hw' fun _ _ ↦ trivial)
  unfold refreshIosToken
  split
  · refine .readOnly fun v w' hv hw' ↦ ?_
    have hknows := (hw.later hv).later hw'
    split
    · split
      · trivial
      · exact hrevoke hknows _
    · exact hrevoke hknows _
  split
  · exact hrevoke hw _
  refine .readOnly fun v w' hv hw' ↦ ?_
  split
  · trivial
  split
  · trivial
  · exact outline_rotateIosPair ((hw.later hv).later hw') hkind hactive

theorem outline_refreshFoundRow (hw : Knows directory (some presented) w) :
    Respects (contract hashToken allowed) (refreshFoundRow hashToken req presented) w := by
  unfold refreshFoundRow
  split
  · trivial
  rename_i hkind
  refine .readOnly fun v w' hv hw' ↦ ?_
  rw [(hw.later hv).1]
  split
  · trivial
  rename_i hactive
  split
  · trivial
  split_ifs
  all_goals first
    | trivial
    | exact outline_refreshIosToken ((hw.later hv).later hw') (not_ne_iff.mp hkind) (by simpa using hactive)

theorem Knows.of_find {v : World Store Event} (hw : Knows directory none v) {sel : ExtensionToken → Bool}
    (hfind : v.db.tokens.find? sel = some presented) : Knows directory (some presented) v :=
  ⟨hw.1, by rintro token ⟨⟩; exact ⟨_, mem_of_find?_eq_some hfind, .refl _⟩⟩

theorem outline_mobileTokenRefresh (hw : Knows directory none w) :
    Respects (contract hashToken allowed) (mobileTokenRefresh hashToken req) w := by
  unfold mobileTokenRefresh
  split
  iterate 3 trivial
  split_ifs
  · trivial
  · trivial
  refine .readOnly fun v w' hv hw' ↦ ?_
  split
  · trivial
  · rename_i hfind
    exact outline_refreshFoundRow (((hw.later hv).of_find hfind).later hw')

variable {req : ExtensionRefreshRequest}

theorem outline_validateExtensionToken (hw : Knows directory none w) :
    Outline (contract hashToken allowed) (validateExtensionToken hashToken req) (.idle w)
      fun result after ↦ ∃ w', after = .idle w' ∧
        ∀ token cnfJkt, result = .ok (token, cnfJkt) → Knows directory (some token) w' := by
  have herror (error : TokenValidationError) (u : World Store Event) :
      ∃ w', Stand.idle (L := Lock) u = .idle w' ∧ ∀ (token : ExtensionToken) (cnfJkt : String),
        Except.error error = .ok (token, cnfJkt) → Knows directory (some token) w' :=
    ⟨u, rfl, nofun⟩
  unfold validateExtensionToken
  split
  · exact herror _ _
  refine .readOnly fun v w' hv hw' ↦ ?_
  split
  · exact herror _ _
  rename_i token hfind
  have hknows := ((hw.later hv).of_find hfind).later hw'
  split
  · exact herror _ _
  split
  · exact herror _ _
  refine .readOnly fun v₂ w₂ hv₂ hw₂ ↦ ?_
  split
  · exact herror _ _
  split
  · exact herror _ _
  split_ifs
  · exact herror _ _
  · refine ⟨w₂, rfl, ?_⟩
    rintro _ _ ⟨⟩
    exact (hknows.later hv₂).later hw₂
  · exact herror _ _
  · exact herror _ _

theorem outline_rotateExtensionToken {tenantId : Uuid} {idleMinutes : Int} (hw : Knows directory (some presented) w)
    {post : Except Thrown (Option ExtensionToken) → Stand Store Lock Event → Prop}
    (hpost : ∀ result w', post result (.idle w')) :
    Outline (contract hashToken allowed) (rotateExtensionToken req presented
      (refreshedRow hashToken req presented cnfJkt tenantId idleMinutes)) (.idle w) post := by
  refine outline_withUserTenantRls hw (fun rls w₁ _ _ hknows ↦ ?_) fun result w' _ _ ↦ hpost result w'
  refine .updateMany fun _ next _ _ hnext ↦ ?_
  have hrevoked := Minting.updateMany rfl hnext.pending
  split
  · rintro _ ⟨⟩
    exact hrevoked.commits (fun _ _ ↦ trivial) nofun
  refine outline_bind.mpr ((outline_createToken hrevoked).weaken ?_)
  rintro (thrown | ⟨⟩) after ⟨hafter, hok⟩
  · exact .error
  rintro _ ⟨⟩
  refine (hok rfl).commits (fun u hu ↦ ⟨?_, req, cnfJkt, tenantId, idleMinutes, rfl⟩) nofun
  exact (hknows.later ((hnext.reaches.trans hafter).until hu)).2 presented rfl

theorem outline_refreshWithSession {session : AuthSession} (hw : Knows directory (some presented) w) :
    Respects (contract hashToken allowed) (refreshWithSession hashToken req presented cnfJkt session) w := by
  unfold refreshWithSession
  refine .readOnly fun v w' hv hw' ↦ ?_
  have hknows := (hw.later hv).later hw'
  split
  · trivial
  split
  · exact outline_bind.mpr (outline_revokeExtensionTokenFamily hknows fun _ _ ↦ trivial)
  refine .readOnly fun v₂ w₂ hv₂ hw₂ ↦ ?_
  split
  · trivial
  split
  · trivial
  refine outline_bind.mpr (outline_rotateExtensionToken ((hknows.later hv₂).later hw₂) ?_)
  rintro (thrown | (- | row)) w₃
  iterate 3 trivial

theorem outline_extensionTokenRefresh (hw : Knows directory none w) :
    Respects (contract hashToken allowed) (extensionTokenRefresh hashToken req) w := by
  refine outline_bind.mpr ((outline_validateExtensionToken hw).weaken ?_)
  rintro (error | ⟨token, cnfJkt⟩) after ⟨w', rfl, hknows⟩
  · trivial
  have hknows := hknows token cnfJkt rfl
  split_ifs
  · trivial
  · trivial
  refine .readOnly fun v w₂ hv hw₂ ↦ ?_
  split
  · trivial
  · trivial
  · exact outline_refreshWithSession ((hknows.later hv).later hw₂)

theorem outline_serve (request : Request) (w : World Store Event) :
    Respects (contract hashToken allowed) (request.serve hashToken) w := by
  have hw : Knows w.db.directory none w := ⟨rfl, nofun⟩
  cases request with
  | issueExtension p => exact outline_bind.mpr ((outline_issueExtensionToken hw).weaken fun _ _ _ ↦ trivial)
  | issueIos p =>
    exact outline_bind.mpr (outline_issueIosToken hw (by rintro _ ⟨⟩) fun _ _ ↦ trivial)
  | issueAutofill p =>
    exact outline_bind.mpr ((outline_issueAutofillToken hw).weaken fun _ _ _ ↦ trivial)
  | refreshIos req =>
    exact outline_bind.mpr ((outline_mobileTokenRefresh hw).weaken fun _ _ _ ↦ trivial)
  | refreshExtension req =>
    exact outline_bind.mpr ((outline_extensionTokenRefresh hw).weaken fun _ _ _ ↦ trivial)

end Operations

end PasswdSso.Extension
