import PasswdSso.Mcp.Contract

/-!
# The OAuth server keeps its contract

The proof outlines of `exchangeRefreshToken`, `revokeFamilyOutOfBand` and `revokeToken`: whatever
the other sessions commit between their statements, their own commits are effects of the contract.
The compare-and-swap locks the presented row, so the row that is rotated was not rotated before; a
family revocation covers every row of its family that existed when it began.
-/

namespace PasswdSso.Mcp

open ReadCommitted Passkey List Table Store

variable {hashToken : String → String} {allowed : Event → List Event → World Store Event → Prop}
  {stand : Stand Store Lock Event}

theorem commits_of_effect {event : Event} (h : ∀ w, (contract hashToken allowed).Later stand.held stand.seen w →
      Effect hashToken stand.held (w.since (stand.began.getD w.log)) w.db event (stand.pending w.db)) :
    (contract hashToken allowed).Commits stand event :=
  fun w hw hallowed ↦ ⟨_, hallowed, h w hw⟩

theorem commits_nothing (hpending : stand.pending = id) : (contract hashToken allowed).Commits stand .nothing :=
  commits_of_effect fun w _ ↦ by
    rw [hpending]
    exact .nothing

variable {req : ExchangeRequest} {rt : McpRefreshToken}

theorem outline_mintPair {row : McpRefreshToken} (hpending : stand.pending =
      refreshTable.modify [rt.id] (.rotate req.rotatedAt (newRefresh hashToken req rt).tokenHash))
    (hlock : (.refreshToken rt.id, .exclusive) ∈ stand.held) (hrow : row ∈ stand.seen.db.refreshTokens)
    (hbecomes : rt.Becomes row) (hunrotated : row.rotatedAt = none) :
    Earns (contract hashToken allowed) (mintPair hashToken req rt) stand Phase1.event := by
  unfold mintPair
  refine Returns.insert fun s₁ hs₁ haccess ↦ ?_
  refine Returns.insert fun s₂ hs₂ hrefresh ↦ ?_
  refine .updateMany fun _ s₃ _ keys hs₃ ↦ ?_
  split
  · exact .error
  rename_i hrevoked
  refine .ok ?_
  have hkey (key : Uuid) : key ∈ keys ↔ key ∈ [rt.accessTokenId] := hs₃.mem_iff (by simp) hrevoked key
  have hwrite : s₃.pending = rotate hashToken req rt := by
    rw [hs₃.pending, hs₂.pending, hs₁.pending, hpending, modify_congr _ hkey]
    rfl
  refine commits_of_effect fun w hw ↦ ?_
  have hw₂ := hs₃.reaches.until hw
  have hw₁ := hs₂.reaches.until hw₂
  have hw₀ := hs₁.reaches.until hw₁
  have hheld := hs₂.reaches.trans hs₃.reaches
  have hrowLock : (Lock.refreshToken row.id, Mode.exclusive) ∈ stand.held := by
    rw [hbecomes.id_eq]
    exact hlock
  rw [hwrite, ← rotate_congr hbecomes]
  change Effect hashToken s₃.held _ w.db (.rotated rt.id rt.familyId) _
  rw [← hbecomes.id_eq, ← hbecomes.familyId_eq]
  refine .rotated ((contract_keeps_refresh.later hw₀ hrowLock).mpr hrow) hunrotated ?_ ?_ ?_
  · refine contract_keeps_access.absent hw₁ (hs₁.locked) ?_
    intro access hmem hid
    rw [hpending] at haccess
    simp only [accessTokens_refreshModify, any_eq_false] at haccess
    exact haccess access hmem (by simpa using .inl hid)
  · refine contract_keeps_refresh.absent hw₂ (hs₂.locked) ?_
    intro refresh hmem hid
    rw [hs₁.pending, hpending] at hrefresh
    simp only [Function.comp_apply, refreshTokens_accessAppend, refreshTokens_refreshModify,
      any_eq_false, forall_mem_map] at hrefresh
    refine hrefresh refresh hmem ?_
    split_ifs <;> simpa using .inl hid
  · simp only [cons_subset, nil_subset, and_true, hbecomes.accessTokenId_eq]
    exact ⟨(hs₁.reaches.trans hheld).held hrowLock, hs₃.reaches.held (hs₂.locked),
      hs₃.mem_held ((hkey _).mpr (mem_singleton_self _)), hheld.held (hs₁.locked)⟩

variable {client : McpClient}

theorem outline_claimRotation (hpending : stand.pending = id) (hwellFormed : stand.seen.db.WellFormed)
    (hrow : ∃ row ∈ stand.seen.db.refreshTokens, rt.Becomes row) :
    Earns (contract hashToken allowed) (claimRotation hashToken req rt client) stand Phase1.event := by
  unfold claimRotation
  refine .updateMany fun _ next _ keys hnext ↦ ?_
  split
  · rename_i hnone
    refine .ok ?_
    refine commits_nothing ?_
    rw [hnext.pending, hpending, length_eq_zero_iff.mp hnone, Table.modify_nil]
    rfl
  · rename_i hclaimed
    have hkey (key : Uuid) : key ∈ keys ↔ key ∈ [rt.id] :=
      hnext.mem_iff (fun row hsel ↦ of_decide_and hsel) hclaimed key
    have hmatched := (hkey rt.id).mpr (mem_singleton_self _)
    obtain ⟨row, hmem, hsel, hid⟩ := hnext.found hmatched
    rw [hpending] at hmem
    obtain ⟨current, hcurrent, hbecomes⟩ := later_refresh hnext.reaches.later hrow
    obtain rfl := (later_wellFormed hnext.reaches.later hwellFormed).refreshIds.eq_of_key_eq hcurrent hmem
      (hbecomes.id_eq.trans hid.symm)
    refine outline_mintPair ?_ (hnext.mem_held hmatched) hcurrent hbecomes ?_
    · rw [hnext.pending, hpending, modify_congr _ hkey]
      rfl
    · simp only [Bool.and_eq_true, Option.isNone_iff_eq_none] at hsel
      exact hsel.2

theorem refusal_event {refused : Phase1} (h : refusal req rt client = some refused) :
    refused.event = .nothing := by
  unfold refusal at h
  split_ifs at h <;> obtain rfl := Option.some.inj h <;> rfl

theorem mem_of_findRefreshToken {db : Store} {tokenHash : String} {client : Option McpClient}
    (h : db.findRefreshToken tokenHash = some (rt, client)) :
    rt ∈ db.refreshTokens := by
  simp only [findRefreshToken, Option.map_eq_some_iff, Prod.mk.injEq] at h
  obtain ⟨found, hfind, rfl, -⟩ := h
  exact mem_of_find?_eq_some hfind

/-- What validation passes on: a refusal commits nothing, a row to rotate is a row of the table. -/
def ValidatedAs (result : Except Thrown (Phase1 ⊕ McpRefreshToken × McpClient)) (db : Store) : Prop :=
  match result with
  | .error _ => True
  | .ok (.inl refused) => refused.event = .nothing
  | .ok (.inr (rt, _)) => ∃ row ∈ db.refreshTokens, rt.Becomes row

theorem outline_validateRotation (hpending : stand.pending = id) :
    Outline (contract hashToken allowed) (validateRotation hashToken req) stand
      fun result after ↦ after.pending = id ∧
        stand.Reaches (contract hashToken allowed) after ∧ ValidatedAs result after.seen.db := by
  unfold validateRotation
  refine .read fun s₁ hs₁ ↦ ?_
  have hpending₁ := hs₁.pending.trans hpending
  rw [hpending]
  split
  · exact ⟨hpending₁, hs₁.reaches, rfl⟩
  · exact ⟨hpending₁, hs₁.reaches, trivial⟩
  rename_i rt client hfound
  have hrt : rt ∈ s₁.seen.db.refreshTokens := mem_of_findRefreshToken hfound
  split
  · rename_i hrefusal
    exact ⟨hpending₁, hs₁.reaches, refusal_event hrefusal⟩
  split
  · exact ⟨hpending₁, hs₁.reaches, rt, hrt, .refl rt⟩
  refine .read fun s₂ hs₂ ↦ ?_
  have hpending₂ := hs₂.pending.trans hpending₁
  have hreaches₂ := hs₁.reaches.trans hs₂.reaches
  split
  · exact ⟨hpending₂, hreaches₂, rfl⟩
  refine .read fun s₃ hs₃ ↦ ?_
  have hpending₃ := hs₃.pending.trans hpending₂
  have hreaches₃ := hreaches₂.trans hs₃.reaches
  split
  · exact ⟨hpending₃, hreaches₃, trivial⟩
  split
  · exact ⟨hpending₃, hreaches₃, rfl⟩
  · exact ⟨hpending₃, hreaches₃, later_refresh (hs₂.reaches.trans hs₃.reaches).later ⟨rt, hrt, .refl rt⟩⟩

theorem outline_phase1Body (hpending : stand.pending = id) (hwellFormed : stand.seen.db.WellFormed) :
    Earns (contract hashToken allowed) (phase1Body hashToken req) stand Phase1.event := by
  unfold phase1Body
  refine outline_bind.mpr ((outline_validateRotation hpending).weaken ?_)
  rintro result after ⟨hafter, hreaches, hvalidated⟩
  split
  · exact .error
  · refine .ok ?_
    rw [hvalidated]
    exact commits_nothing hafter
  · exact outline_claimRotation hafter (later_wellFormed hreaches.later hwellFormed) hvalidated

section Revocation

variable {s₁ s₂ : Stand Store Lock Event} {candidates keys : List Uuid} {w : World Store Event}

/-- A bulk update of refresh tokens reaches a row of the final store, if all earlier versions of the
row match its condition and the row was there when the update took its snapshot. -/
theorem mem_keys_of_refresh {sel : McpRefreshToken → Bool} {f : McpRefreshToken → McpRefreshToken}
    {row : McpRefreshToken} (hpending : stand.pending = id)
    (h : stand.Selects (contract hashToken allowed) refreshTable .refreshToken sel (refreshTable.modify · f) s₁ s₂
      candidates keys)
    (hw : (contract hashToken allowed).Later s₂.held s₂.seen w) (hrow : row ∈ w.db.refreshTokens)
    (hquiet : ∀ id, .rotated id row.familyId ∉ w.since s₁.seen.log)
    (hsel : ∀ old : McpRefreshToken, old.Becomes row → sel old = true) : row.id ∈ keys := by
  obtain ⟨first, hfirst, hfirstBecomes⟩ := earlier_refresh (h.wrote.reaches.until hw) hrow hquiet
  obtain ⟨second, hsecond, hsecondBecomes⟩ := earlier_refresh hw hrow fun id hmem ↦
    hquiet id (World.since_subset h.wrote.later.log_suffix hw.log_suffix hmem)
  rw [h.keys_eq, mem_matched, h.candidates_eq, mem_keysWhere, hpending]
  exact ⟨⟨first, hfirst, hsel first hfirstBecomes, hfirstBecomes.id_eq.symm⟩,
    second, hsecond, hsel second hsecondBecomes, hsecondBecomes.id_eq.symm⟩

variable {sel : McpAccessToken → Bool} {began : List Event} {req : RevokeRequest}

/-- A bulk update of access tokens reaches a row of the final store, if all earlier versions of the
row match its condition and one was there when the update took its snapshot. -/
theorem mem_keys_of_access {access : McpAccessToken} {f : McpAccessToken → McpAccessToken}
    (hpending : ∀ db, accessTable.rows (stand.pending db) = db.accessTokens)
    (h : stand.Selects (contract hashToken allowed) accessTable .accessToken sel (accessTable.modify · f) s₁ s₂
      candidates keys)
    (hw : (contract hashToken allowed).Later s₂.held s₂.seen w) (hwellFormed : w.db.WellFormed)
    (haccess : access ∈ w.db.accessTokens) (hearlier : ∃ old ∈ s₁.seen.db.accessTokens, old.id = access.id)
    (hsel : ∀ old : McpAccessToken, old.Becomes access → sel old = true) : access.id ∈ keys := by
  have hbecomes {held : Locks} {v : World Store Event} {old : McpAccessToken}
      (hv : (contract hashToken allowed).Later held v w) (hold : old ∈ v.db.accessTokens)
      (hid : old.id = access.id) : old.Becomes access := by
    obtain ⟨last, hlast, hlastBecomes⟩ := later_access hv ⟨old, hold, .refl old⟩
    obtain rfl := hwellFormed.accessIds.eq_of_key_eq hlast haccess (hlastBecomes.id_eq.trans hid)
    exact hlastBecomes
  obtain ⟨first, hfirst, hid⟩ := hearlier
  obtain ⟨second, hsecond, hsecondBecomes⟩ := later_access h.wrote.later ⟨first, hfirst, .refl first⟩
  have hid' := hsecondBecomes.id_eq.trans hid
  rw [h.keys_eq, mem_matched, h.candidates_eq, mem_keysWhere, hpending, hpending]
  exact ⟨⟨first, hfirst, hsel first (hbecomes (h.wrote.reaches.until hw) hfirst hid), hid⟩,
    second, hsecond, hsel second (hbecomes hw hsecond hid'), hid'⟩

variable {times : Millis × Millis}

/-- The end of a family revocation. `refreshIds` are the refresh tokens it has stamped; unless the
family was rotated since `began`, they are all its live ones, and `ids` lists all its access
tokens. -/
theorem outline_revokeListed {α : Type} (familyId : Uuid) {refreshIds ids : List Uuid} {value : α}
    (hpending : stand.pending = refreshTable.modify refreshIds (.revoke times.1))
    (hlocks : ∀ id ∈ refreshIds, (.refreshToken id, .exclusive) ∈ stand.held) (hwellFormed : stand.seen.db.WellFormed)
    (hbegan : stand.began = some began)
    (hfamily : ∀ w, (contract hashToken allowed).Later stand.held stand.seen w →
      (∀ id, .rotated id familyId ∉ w.since began) → ∀ row ∈ w.db.refreshTokens,
      row.familyId = familyId → (row.revokedAt = none → row.id ∈ refreshIds) ∧ row.accessTokenId ∈ ids ∧
        (∃ old ∈ stand.seen.db.accessTokens, old.id = row.accessTokenId) ∧
        ∀ old access : McpAccessToken, access ∈ w.db.accessTokens →
          access.id = row.accessTokenId → old.Becomes access → sel old = true) :
    Outline (contract hashToken allowed)
      (revokeListed ids sel times.2 >>= fun _ ↦ .done (.ok value : Except Thrown α)) stand
      fun result after ↦ result = .ok value ∧
        (contract hashToken allowed).Commits after (.revokedFamily familyId) := by
  rw [outline_bind, revokeListed]
  split
  · refine .updateMany fun snapshot next candidates keys hnext ↦ ?_
    refine ⟨rfl, commits_of_effect fun w hw ↦ ?_⟩
    have hwrite : next.pending = revoke refreshIds keys times := by
      rw [hnext.pending, hpending]
      rfl
    rw [hwrite, hnext.began, hbegan]
    refine .revokedFamily (fun hquiet row hrow hrowFamily ↦ ?_)
      (fun id hid ↦ hnext.reaches.held (hlocks id hid)) fun id hid ↦ hnext.mem_held hid
    obtain ⟨hlive, hlisted, ⟨old, hold, hid⟩, hsel⟩ := hfamily w (hnext.reaches.until hw) hquiet row hrow hrowFamily
    refine ⟨hlive, fun access haccess haccessId hrevoked ↦ ?_⟩
    refine mem_keys_of_access (fun _ ↦ by rw [hpending]; rfl) hnext hw
      (later_wellFormed (hnext.reaches.until hw) hwellFormed) haccess ?_ fun earlier hearlier ↦ ?_
    · obtain ⟨later, hlater, hbecomes⟩ := later_access hnext.read.later ⟨old, hold, .refl old⟩
      exact ⟨later, hlater, by rw [hbecomes.id_eq, hid, haccessId]⟩
    · simp only [Bool.and_eq_true, decide_eq_true_eq, Option.isNone_iff_eq_none]
      rw [← hearlier.id_eq, haccessId]
      exact ⟨⟨hlisted, hsel earlier access haccess haccessId hearlier⟩, hearlier.live hrevoked⟩
  · rename_i hempty
    refine ⟨rfl, commits_of_effect fun w hw ↦ ?_⟩
    have hwrite : stand.pending = revoke refreshIds [] times := by
      funext db
      simp [hpending, revoke]
    rw [hwrite, hbegan]
    refine .revokedFamily (fun hquiet row hrow hrowFamily ↦ ?_) hlocks (by simp)
    obtain ⟨-, hlisted, -⟩ := hfamily w hw hquiet row hrow hrowFamily
    exact absurd (length_pos_of_mem hlisted) hempty

variable (hpending : stand.pending = id)

include hpending

theorem outline_revokeFamilyBody {familyId accessTokenId : Uuid} (hwellFormed : stand.seen.db.WellFormed)
    (hbegan : stand.began = none) :
    Earns (contract hashToken allowed) (revokeFamilyBody familyId accessTokenId times) stand
      fun _ ↦ .revokedFamily familyId := by
  unfold revokeFamilyBody
  refine .read fun s₁ hs₁ ↦ ?_
  refine .updateMany fun s₂ s₃ candidates keys hs₃ ↦ ?_
  have hpending₁ := hs₁.pending.trans hpending
  have hreaches := hs₃.reaches
  have hwellFormed₁ := later_wellFormed hs₁.later hwellFormed
  have hpending₃ : s₃.pending = refreshTable.modify keys (.revoke times.1) := by
    rw [hs₃.pending, hpending₁]
    rfl
  have hbegan₃ : s₃.began = some s₁.seen.log := by
    rw [hs₃.began, hs₁.began, hbegan]
    rfl
  refine (outline_revokeListed familyId hpending₃ (fun id hid ↦ hs₃.mem_held hid)
    (later_wellFormed hreaches.later hwellFormed₁) hbegan₃ ?_).weaken fun _ _ h _ _ ↦ h.2
  · rintro w hw hquiet row hrow rfl
    have hquiet₂ (id : Uuid) : .rotated id row.familyId ∉ w.since s₂.seen.log := fun hmem ↦
      hquiet id (World.since_subset hs₃.read.later.log_suffix (hs₃.wrote.reaches.until hw).log_suffix hmem)
    obtain ⟨old, hold, hbecomes⟩ := earlier_refresh (hreaches.until hw) hrow hquiet
    obtain ⟨access, haccess, hid⟩ := hwellFormed₁.paired old hold
    obtain ⟨later, hlater, hlaterBecomes⟩ :=
      later_access hreaches.later ⟨access, haccess, .refl access⟩
    refine ⟨fun hrevoked ↦ ?_, ?_, ⟨later, hlater, ?_⟩, fun _ _ _ _ _ ↦ rfl⟩
    · refine mem_keys_of_refresh hpending₁ hs₃ hw hrow hquiet₂ fun earlier h ↦ ?_
      simp [h.live hrevoked, h.familyId_eq]
    · rw [hpending, mem_dedup, hbecomes.accessTokenId_eq]
      refine mem_cons_of_mem _ (mem_map_of_mem (mem_filter.mpr ⟨hold, ?_⟩))
      simp [hbecomes.familyId_eq]
    · rw [hlaterBecomes.id_eq, hid, hbecomes.accessTokenId_eq]

theorem outline_revokeRefreshTokenFamily {rt : McpRefreshToken} (hwellFormed : stand.seen.db.WellFormed)
    (hbegan : stand.began = some began) (hsuffix : began <:+ stand.seen.log)
    (hrt : ∃ row ∈ stand.seen.db.refreshTokens, rt.Becomes row) :
    Earns (contract hashToken allowed) (revokeRefreshTokenFamily rt times) stand fun value ↦ value := by
  unfold revokeRefreshTokenFamily
  refine .updateMany fun s₁ s₂ candidates keys hs₂ ↦ ?_
  have hpending₂ : s₂.pending = refreshTable.modify keys (.revoke times.1) := by
    rw [hs₂.pending, hpending]
    rfl
  refine .read fun s₃ hs₃ ↦ ?_
  have hreaches := hs₂.reaches.trans hs₃.reaches
  have hwellFormed₃ := later_wellFormed hreaches.later hwellFormed
  have hpending₃ := hs₃.pending.trans hpending₂
  have hbegan₃ : s₃.began = some began := by
    rw [hs₃.began, hs₂.began, hbegan]
    rfl
  refine (outline_revokeListed rt.familyId hpending₃ ?_ hwellFormed₃ hbegan₃ ?_).weaken fun result after h ↦ ?_
  · exact fun id hid ↦ hs₃.reaches.held (hs₂.mem_held hid)
  · intro w hw hquiet row hrow hfamily
    have hwellFormed' := later_wellFormed hw hwellFormed₃
    obtain ⟨last, hlast, hrtBecomes⟩ := later_refresh (hreaches.until hw) hrt
    have htenant : row.tenantId = rt.tenantId := by
      rw [hwellFormed'.familyTenant row hrow last hlast (hfamily.trans hrtBecomes.familyId_eq.symm),
        hrtBecomes.tenantId_eq]
    have hquietFrom {s : Stand Store Lock Event} (hs : stand.Reaches (contract hashToken allowed) s)
        (hsw : (contract hashToken allowed).Later s.held s.seen w) (id : Uuid) :
        .rotated id row.familyId ∉ w.since s.seen.log := fun hmem ↦ by
      rw [hfamily] at hmem
      exact hquiet id (World.since_subset (hsuffix.trans hs.later.log_suffix) hsw.log_suffix hmem)
    have hw₂ := hs₃.reaches.until hw
    obtain ⟨old, hold, hbecomes⟩ := earlier_refresh hw hrow (hquietFrom hreaches hw)
    obtain ⟨access, haccess, hid⟩ := hwellFormed₃.paired old hold
    refine ⟨fun hrevoked ↦ ?_, ?_, ⟨access, haccess, ?_⟩, fun earlier access haccess hid h ↦ ?_⟩
    · refine mem_keys_of_refresh hpending hs₂ hw₂ hrow
        (hquietFrom hs₂.read.reaches (hs₂.wrote.reaches.until hw₂)) fun earlier h ↦ ?_
      simp [h.live hrevoked, ← h.familyId_eq, ← h.tenantId_eq, hfamily, htenant]
    · rw [hpending₂, mem_dedup, hbecomes.accessTokenId_eq]
      simp only [refreshTokens_refreshModify]
      refine mem_map.mpr ⟨if old.id ∈ keys then old.revoke times.1 else old,
        mem_filter.mpr ⟨mem_map_of_mem hold, ?_⟩, ?_⟩
      · split_ifs <;>
          simp [McpRefreshToken.revoke, ← hbecomes.familyId_eq, ← hbecomes.tenantId_eq, hfamily, htenant]
      · split_ifs <;> rfl
    · rw [hid, hbecomes.accessTokenId_eq]
    · rw [← h.tenantId_eq, hwellFormed'.accessTenant row hrow access haccess hid, htenant]
      simp
  · rintro value hvalue
    obtain ⟨hresult, hcommits⟩ := h
    obtain rfl := Except.ok.inj (hvalue.symm.trans hresult)
    exact hcommits

theorem outline_revokeAccessToken {tokenHash : String} :
    Earns (contract hashToken allowed) (revokeAccessToken tokenHash req) stand fun value ↦ value := by
  unfold revokeAccessToken
  refine .read fun s₁ hs₁ ↦ ?_
  have hpending₁ := hs₁.pending.trans hpending
  split
  · exact .ok (commits_nothing hpending₁)
  · exact .error
  split
  · exact .ok (commits_nothing hpending₁)
  split
  · exact .ok (commits_nothing hpending₁)
  rename_i token client hfound hclient hauth
  refine .updateMany fun _ next _ keys hnext ↦ ?_
  split
  · exact .error
  rename_i hrevoked
  refine .ok ?_
  have hkey (key : Uuid) : key ∈ keys ↔ key ∈ [token.id] :=
    hnext.mem_iff (fun row hsel ↦ of_decide_and hsel) hrevoked key
  refine commits_of_effect fun w hw ↦ ?_
  have hwrite : next.pending = revoke [] [token.id] (0, req.times.1) := by
    funext db
    rw [hnext.pending, hpending₁, modify_congr _ hkey]
    simp [revoke]
  rw [hwrite]
  exact .revokedAccess (hnext.mem_held ((hkey _).mpr (mem_singleton_self _)))

theorem outline_revokeTokenBody (hwellFormed : stand.seen.db.WellFormed) (hbegan : stand.began = none) :
    Earns (contract hashToken allowed) (revokeTokenBody hashToken req) stand fun value ↦ value := by
  unfold revokeTokenBody
  split
  · refine .read fun s₁ hs₁ ↦ ?_
    have hpending₁ := hs₁.pending.trans hpending
    split
    · exact outline_revokeAccessToken hpending₁
    · exact .error
    rename_i rt client hfound
    split
    · exact outline_revokeAccessToken hpending₁
    split
    · refine .ok ?_
      exact commits_nothing hpending₁
    · have hrt : rt ∈ s₁.seen.db.refreshTokens := mem_of_findRefreshToken (hpending ▸ hfound)
      refine outline_revokeRefreshTokenFamily hpending₁ (later_wellFormed hs₁.later hwellFormed) ?_
        (suffix_refl _) ⟨rt, hrt, .refl rt⟩
      rw [hs₁.began, hbegan]
      rfl
  · exact outline_revokeAccessToken hpending

end Revocation

section Requests

variable {w : World Store Event}

theorem outline_revokeFamilyOutOfBand {familyId accessTokenId : Uuid} {times : Millis × Millis} (hw : w.db.WellFormed) :
    Respects (contract hashToken allowed) (revokeFamilyOutOfBand familyId accessTokenId times) w :=
  Outline.transaction wellFormed_preserved hw (outline_revokeFamilyBody rfl hw rfl) fun _ _ _ _ ↦ trivial

theorem outline_exchangeRefreshToken {req : ExchangeRequest} (hw : w.db.WellFormed) :
    Respects (contract hashToken allowed) (exchangeRefreshToken hashToken req) w := by
  unfold exchangeRefreshToken
  split
  · trivial
  split
  · trivial
  refine outline_bind.mpr (.transaction wellFormed_preserved hw (outline_phase1Body rfl hw)
    fun result w hw _ ↦ ?_)
  have hrevoke (familyId accessTokenId : Uuid) (outcome : ExchangeOutcome) : Respects (contract hashToken allowed)
        (revokeFamilyOutOfBand familyId accessTokenId req.familyRevokedAt >>= fun _ ↦ .done outcome) w :=
    outline_bind.mpr (outline_revokeFamilyOutOfBand hw)
  split
  case h_10 => exact hrevoke _ _ _
  case h_11 => exact hrevoke _ _ _
  all_goals trivial

theorem outline_revokeToken {req : RevokeRequest} (hw : w.db.WellFormed) :
    Respects (contract hashToken allowed) (revokeToken hashToken req) w := by
  unfold revokeToken
  split
  · trivial
  · exact .transaction wellFormed_preserved hw (outline_revokeTokenBody rfl hw rfl) fun _ _ _ _ ↦ trivial

theorem outline_serve (req : Request) (hw : w.db.WellFormed) :
    Respects (contract hashToken allowed) (req.serve hashToken) w := by
  cases req with
  | exchange req => exact outline_bind.mpr (outline_exchangeRefreshToken hw)
  | revoke req => exact outline_bind.mpr (outline_revokeToken hw)

end Requests

end PasswdSso.Mcp
