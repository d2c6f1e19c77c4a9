import PasswdSso.Vault.VersionContract
import PasswdSso.Vault.WrapCoherence

/-!
# Coherence of the key versions

Entries, history rows and attachment keys carry the version of the secret key they are encrypted
under, and a row left at an old version could not be decrypted any more. Guarded writes hold the
user row `FOR SHARE`, attachment writes the advisory lock, and a rotation both, so that every row of
a user has `users.keyVersion` in every state that a run reaches; and a rotation that ends with an
error has changed nothing (`keyVersions_coherent`).
-/

namespace PasswdSso.Vault

open ReadCommitted List Prog Store

section Parts

variable {c : Contract Store Lock Event} {stand : Stand Store Lock Event}

theorem returns_assertCurrentKeyVersion {userId : Uuid} {keyVersion : Nat} :
    Returns c (assertCurrentKeyVersion userId keyVersion) stand fun _ next ↦
      stand.Step c next [(.user userId, .share)] id ∧
        (stand.pending next.seen.db).keyVersionOf userId = some keyVersion := by
  refine .lockingRead fun next hnext ↦ ?_
  split
  · exact .error
  next user huser =>
  split
  · exact .error
  next hversion =>
  refine .ok ⟨hnext, ?_⟩
  rw [keyVersionOf, huser, Option.map_some, not_ne_iff.mp hversion]

theorem outline_checkOwnership {req : CreateEntryRequest} : Outline c (checkOwnership req) stand fun _ next ↦
      stand.Reaches c next ∧ next.pending = stand.pending := by
  have hrefuse (owned : Bool) (refused : CreateResult) (rest : Server CreateResult)
      (next : Stand Store Lock Event) (hnext : stand.Reaches c next ∧ next.pending = stand.pending)
      (hrest : Outline c rest next fun _ final ↦
        stand.Reaches c final ∧ final.pending = stand.pending) :
      Outline c (if owned = false then pure refused else rest) next fun _ final ↦
        stand.Reaches c final ∧ final.pending = stand.pending := by
    split
    · exact hnext
    · exact hrest
  unfold checkOwnership
  dsimp only
  split
  · have hfirst : stand.Reaches c stand ∧ stand.pending = stand.pending := ⟨.refl _, rfl⟩
    refine hrefuse true .folderNotFound _ stand hfirst ?_
    split
    · exact hrefuse true .tagsNotOwned _ stand hfirst hfirst
    · refine .read fun next hnext ↦ ?_
      have hafter := And.intro hnext.reaches hnext.pending
      exact hrefuse _ _ _ next hafter hafter
  · refine .read fun first hfirst ↦ ?_
    refine hrefuse _ _ _ first ⟨hfirst.reaches, hfirst.pending⟩ ?_
    split
    · have hafter := And.intro hfirst.reaches hfirst.pending
      exact hrefuse true .tagsNotOwned _ first hafter hafter
    · refine .read fun next hnext ↦ ?_
      have hafter := And.intro (hfirst.reaches.trans hnext.reaches) (hnext.pending.trans hfirst.pending)
      exact hrefuse _ _ _ next hafter hafter

variable {entryId : Uuid}

theorem returns_updateOwnedEntry {userId : Uuid} {f : PasswordEntry → PasswordEntry} :
    Returns c (updateOwnedEntry userId entryId f) stand fun _ next ↦ stand.Reaches c next ∧
      (.entry entryId, .exclusive) ∈ next.held ∧
      next.pending = entryTable.modify [entryId] f ∘ stand.pending :=
  Returns.updateKey fun _ _ ↦ of_decide_and

end Parts

section Writes

variable {userId : Uuid} {stand : Stand Store Lock Event} {w : World Store Event} {event : Event}

theorem commits_of_step (h : ∀ w, (versionContract userId).Later stand.held stand.seen w →
      RowStep userId stand.held w.db (stand.pending w.db)) :
    (versionContract userId).Commits stand event :=
  fun w hw _ ↦ (h w hw).effect

theorem commits_nothing (hpending : stand.pending = id) : (versionContract userId).Commits stand event :=
  commits_of_step fun w _ ↦ by
    rw [hpending]
    exact .refl w.db

variable {tenantId : Uuid}

theorem returns_createEntry {req : CreateEntryRequest} (huser : req.userId = userId) :
    Earns (versionContract userId) (createPersonalPasswordEntry req tenantId) (.idle w) req.event := by
  refine .andThen returns_assertCurrentKeyVersion ?_
  rintro _ guarded ⟨hguarded, hversion⟩
  refine outline_bind.mpr (outline_checkOwnership.weaken ?_)
  rintro result checked ⟨hchecked, hcheckedPending⟩
  have hpending : checked.pending = id := hcheckedPending.trans hguarded.pending
  split
  · refine Returns.insert fun final hfinal hfresh ↦ .ok ?_
    have hshare : (.user userId, .share) ∈ guarded.held :=
      huser ▸ hguarded.locked
    have hlock : (.entry req.id, .exclusive) ∈ final.held :=
      hfinal.locked
    have hfreshNow : ∀ entry ∈ final.seen.db.entries, entry.id ≠ req.id := by
      intro entry hentry hid
      rw [hpending, any_eq_false] at hfresh
      exact hfresh entry hentry (decide_eq_true hid)
    refine commits_of_step fun w' hw ↦ ?_
    have hcurrent : w'.db.keyVersionOf userId = some req.keyVersion :=
      (keyVersion_stable _ (.inl hshare)).later (huser ▸ hversion) ((hchecked.trans hfinal.reaches).until hw)
    rw [hfinal.pending, hpending]
    exact
      { keyVersion := rfl
        entries := .append rfl ((hchecked.trans hfinal.reaches).held hshare) hlock
          (entries_kept.absent hw hlock hfreshNow) hcurrent
        histories := .of_eq rfl
        attachments := .of_eq rfl }
  · exact .ok (commits_nothing hpending)

variable {entryId : Uuid} {f : PasswordEntry → PasswordEntry} {label : Bool → Event}

theorem returns_rewriteEntry {historyId : Uuid} {keyVersion : Nat} {changedAt : Millis}
    (hkeeps : ∀ row, (f row).id = row.id ∧ (f row).userId = row.userId) (hf : ∀ row, (f row).keyVersion = keyVersion) :
    Earns (versionContract userId) (rewriteEntry userId entryId tenantId keyVersion historyId changedAt f) (.idle w)
      label := by
  refine .andThen returns_assertCurrentKeyVersion ?_
  rintro _ guarded ⟨hguarded, hversion⟩
  have hshare : (.user userId, .share) ∈ guarded.held := hguarded.locked
  refine .andThen (returns_snapshot hguarded.pending) ?_
  rintro found snapshot ⟨hsnapshot, hcopied⟩
  cases found with
  | false => exact .ok (commits_nothing hcopied)
  | true =>
    obtain ⟨locked, cur, keys, hlocked, hlock, hcur, hpending⟩ := hcopied
    have hid : cur.id = entryId := by simpa using find?_some hcur
    refine .mono returns_updateOwnedEntry ?_
    rintro _ final ⟨hfinal, hfinalLock, hfinalPending⟩
    refine commits_of_step fun w' hw ↦ ?_
    have hcurrent : w'.db.keyVersionOf userId = some keyVersion :=
      (keyVersion_stable _ (.inl hshare)).later hversion ((hsnapshot.trans hfinal).until hw)
    have hcurNow : cur ∈ w'.db.entries :=
      (entries_kept.later ((hlocked.trans hfinal).until hw) (hid ▸ hlock)).mpr
        (mem_of_find?_eq_some hcur)
    rw [hfinalPending, hpending]
    refine ⟨rfl, .modify rfl hfinalLock hkeeps fun row ↦ .inr (hf row ▸ hcurrent), ?_, .of_eq rfl⟩
    intro row' hrow'
    have hmem : row' ∈ w'.db.histories ++ [cur.history historyId tenantId changedAt] := mem_of_mem_filter hrow'
    rw [mem_append, mem_singleton] at hmem
    refine hmem.imp_right ?_
    rintro rfl
    exact ⟨(hsnapshot.trans hfinal).held hshare, cur, hcurNow, rfl, rfl⟩

theorem returns_updateMetadata (hkeeps : ∀ row, (f row).id = row.id ∧ (f row).userId = row.userId)
    (hf : ∀ row, (f row).keyVersion = row.keyVersion) :
    Earns (versionContract userId) (updateOwnedEntry userId entryId f) (.idle w) label := by
  refine .mono returns_updateOwnedEntry ?_
  rintro _ final ⟨-, hlock, hpending⟩
  refine commits_of_step fun w' _ ↦ ?_
  rw [hpending]
  exact ⟨rfl, .modify rfl hlock hkeeps fun row ↦ .inl (hf row), .of_eq rfl, .of_eq rfl⟩

theorem returns_upload {req : UploadRequest} (huser : req.userId = userId) :
    Earns (versionContract userId) (uploadBody req tenantId) (.idle w) fun _ ↦ event := by
  refine .lockingRead fun locked hlocked ↦ .read fun counted hcounted ↦ ?_
  split
  · exact .error
  have hadvisory : (.advisory userId, .exclusive) ∈ counted.held :=
    hcounted.reaches.held (huser ▸ hlocked.locked)
  have hpending := hcounted.pending.trans hlocked.pending
  have hassert : Returns (versionContract userId) (assertCekKeyVersion req.userId req.cekKeyVersion)
      counted fun _ next ↦ counted.Step (versionContract userId) next [] id ∧
        next.seen.db.keyVersionOf userId = some req.cekKeyVersion := by
    refine .read fun next hnext ↦ ?_
    split
    · exact .error
    next user hfound =>
    split
    · exact .error
    next hsame =>
    rw [hpending] at hfound
    refine .ok ⟨hnext, ?_⟩
    have hfound' : next.seen.db.users userId = some user := huser ▸ hfound
    rw [keyVersionOf, hfound', Option.map_some, not_ne_iff.mp hsame]
  refine Returns.andThen hassert ?_
  rintro _ asserted ⟨hasserted, hversion⟩
  have hassertedPending : asserted.pending = id := by rw [hasserted.pending, hpending]; rfl
  refine .lockingRead fun referenced hreferenced ↦ ?_
  split
  · next hentry =>
    refine Returns.insert fun final hfinal _ ↦ .ok ?_
    refine commits_of_step fun w' hw ↦ ?_
    have hcurrent : w'.db.keyVersionOf userId = some req.cekKeyVersion :=
      (keyVersion_stable _ (.inr (hasserted.reaches.held hadvisory))).later hversion
        ((hreferenced.reaches.trans hfinal.reaches).until hw)
    have hentryNow : ∃ entry ∈ w'.db.entries, entry.id = req.entryId := by
      refine (entry_stable req.entryId).later ?_ (hfinal.reaches.until hw)
      rw [hassertedPending] at hentry
      simpa [UploadRequest.attachment] using hentry
    rw [hfinal.pending, hreferenced.pending, hassertedPending]
    refine ⟨rfl, .of_eq rfl, .of_eq rfl, ?_⟩
    intro row hrow
    have hmem : row ∈ w'.db.attachments ++ [req.attachment tenantId] := hrow
    rw [mem_append, mem_singleton] at hmem
    refine hmem.imp_right ?_
    rintro rfl
    refine ⟨((hasserted.reaches.trans hreferenced.reaches).trans hfinal.reaches).held hadvisory,
      hcurrent.symm, fun id hid ↦ .inr ?_⟩
    obtain rfl := Option.some.inj hid
    exact hentryNow
  · exact .error

theorem returns_migrate {env : Env} {req : MigrateRequest} (huser : req.userId = userId) :
    Earns (versionContract userId) (migrateBody env req) (.idle w) fun _ ↦ event := by
  refine .lockingRead fun locked hlocked ↦ .read fun first hfirst ↦ ?_
  have hadvisory : (.advisory userId, .exclusive) ∈ first.held :=
    hfirst.reaches.held (huser ▸ hlocked.locked)
  have hpending := hfirst.pending.trans hlocked.pending
  split
  · exact .error
  next user hfound =>
  split
  · exact .error
  next hsame =>
  have hversion : first.seen.db.keyVersionOf userId = some req.cekKeyVersion := by
    rw [hlocked.pending] at hfound
    have hfound' : first.seen.db.users userId = some user := huser ▸ hfound
    rw [keyVersionOf, hfound', Option.map_some, not_ne_iff.mp hsame]
  refine .read fun second hsecond ↦ ?_
  split
  · exact .error
  split
  · exact .error
  split
  · exact .error
  have hsel (view : Store) (row : Attachment)
      (h : (req.selects user.tenantId view row && decide (row.encryptionMode = 0)) = true) :
      attachmentTable.key row = req.attachmentId := by
    simp only [MigrateRequest.selects, Bool.and_eq_true, decide_eq_true_eq] at h
    exact h.1.1.1
  refine Returns.updateNext hsel fun final hfinal hfinalPending _ ↦ ?_
  refine .ok (commits_of_step fun w' hw ↦ ?_)
  have hcurrent : w'.db.keyVersionOf userId = some req.cekKeyVersion :=
    (keyVersion_stable _ (.inr hadvisory)).later hversion ((hsecond.reaches.trans hfinal).until hw)
  rw [hfinalPending, hsecond.pending, hpending]
  refine ⟨rfl, .of_eq rfl, .of_eq rfl, ?_⟩
  intro row' hrow'
  obtain ⟨row, hrow, rfl⟩ := mem_map.mp hrow'
  split_ifs
  · exact .inr ⟨(hsecond.reaches.trans hfinal).held hadvisory, hcurrent.symm, fun id hid ↦ .inl ⟨row, hrow, hid⟩⟩
  · exact .inl hrow

end Writes

section Rotation

variable {req : RotateRequest} {snapshot : RotationSnapshot} (newKeyVersion : Nat)

theorem rotatedEntry_keeps (entries : List EntryRotation) (row : PasswordEntry) :
    (rotatedEntry newKeyVersion entries row).id = row.id ∧
      (rotatedEntry newKeyVersion entries row).userId = row.userId :=
  entryTable.applyEach_rel (fun a b ↦ b.id = a.id ∧ b.userId = a.userId) (fun _ ↦ ⟨rfl, rfl⟩)
    (fun _ _ _ h h' ↦ ⟨h'.1.trans h.1, h'.2.trans h.2⟩) fun _ _ ↦ ⟨rfl, rfl⟩

theorem rotatedHistory_keeps (histories : List HistoryRotation) (row : EntryHistory) :
    (rotatedHistory newKeyVersion histories row).id = row.id ∧
      (rotatedHistory newKeyVersion histories row).entryId = row.entryId :=
  historyTable.applyEach_rel (fun a b ↦ b.id = a.id ∧ b.entryId = a.entryId) (fun _ ↦ ⟨rfl, rfl⟩)
    (fun _ _ _ h h' ↦ ⟨h'.1.trans h.1, h'.2.trans h.2⟩) fun _ _ ↦ ⟨rfl, rfl⟩

theorem rewrappedAttachment_keeps (rewraps : List CekRewrap) (row : Attachment) :
    (rewrappedAttachment newKeyVersion rewraps row).passwordEntryId = row.passwordEntryId ∧
      (rewrappedAttachment newKeyVersion rewraps row).encryptionMode = row.encryptionMode ∧
      (row.cekKeyVersion.isSome → (rewrappedAttachment newKeyVersion rewraps row).cekKeyVersion.isSome) :=
  attachmentTable.applyEach_rel
    (fun a b ↦ b.passwordEntryId = a.passwordEntryId ∧ b.encryptionMode = a.encryptionMode ∧
      (a.cekKeyVersion.isSome → b.cekKeyVersion.isSome))
    (fun _ ↦ ⟨rfl, rfl, id⟩)
    (fun _ _ _ h h' ↦ ⟨h'.1.trans h.1, h'.2.1.trans h.2.1, h'.2.2 ∘ h.2.2⟩)
    fun _ _ ↦ ⟨rfl, rfl, fun _ ↦ rfl⟩

variable {verifierHmac : Option String} {cleared grants : List Uuid} {db : Store}

theorem ownsEntry_write {userId entryId : Uuid} :
    (req.write snapshot verifierHmac cleared grants db).ownsEntry userId entryId = db.ownsEntry userId entryId := by
  change (db.entries.map _).any _ = db.entries.any _
  rw [any_map]
  congr 1
  funext row
  simp only [Function.comp_apply, (rotatedEntry_keeps snapshot.newKeyVersion req.entries row).1,
    (rotatedEntry_keeps snapshot.newKeyVersion req.entries row).2]

variable {row : Attachment} {ids : List Uuid} {w : World Store Event} {userId : Uuid}

theorem ownsAttachment_write :
    (req.write snapshot verifierHmac cleared grants db).ownsAttachment userId row = db.ownsAttachment userId row := by
  unfold ownsAttachment
  congr 1
  funext entryId
  exact ownsEntry_write

theorem keyVersionOf_write {version : Nat}
    (h : (req.write snapshot verifierHmac cleared grants db).keyVersionOf req.userId = some version) :
    version = snapshot.newKeyVersion := by
  simp only [keyVersionOf, RotateRequest.write, Function.update_self, Option.map_map,
    Option.map_eq_some_iff, Function.comp_apply] at h
  obtain ⟨user, -, rfl⟩ := h
  rfl

theorem wellFormed_write (h : db.WellFormed) : (req.write snapshot verifierHmac cleared grants db).WellFormed := by
  have hforth (id : Uuid) (hentry : ∃ entry ∈ db.entries, entry.id = id) :
      ∃ entry ∈ (req.write snapshot verifierHmac cleared grants db).entries, entry.id = id := by
    obtain ⟨entry, hentry, rfl⟩ := hentry
    exact ⟨_, mem_map_of_mem hentry, (rotatedEntry_keeps snapshot.newKeyVersion req.entries entry).1⟩
  refine ⟨?_, fun row' hrow' ↦ hforth _ ?_, fun row' hrow' id hid ↦ hforth _ ?_⟩
  · have hids : (req.write snapshot verifierHmac cleared grants db).entries.map (·.id) = db.entries.map (·.id) := by
      refine map_map.trans (map_congr_left fun row _ ↦ ?_)
      exact (rotatedEntry_keeps snapshot.newKeyVersion req.entries row).1
    change ((req.write snapshot verifierHmac cleared grants db).entries.map (·.id)).Nodup
    rw [hids]
    exact h.entryIds
  · obtain ⟨row, hrow, rfl⟩ := mem_map.mp hrow'
    rw [(rotatedHistory_keeps snapshot.newKeyVersion req.historyEntries row).2]
    exact h.historyEntries row hrow
  · obtain ⟨row, hrow, rfl⟩ := mem_map.mp hrow'
    rw [(rewrappedAttachment_keeps snapshot.newKeyVersion req.attachmentCekRewraps row).1] at hid
    exact h.attachmentEntries row hrow id hid

variable {newKeyVersion} in
theorem owned_of_rewrapped {rewraps : List CekRewrap}
    (howns : (req.write snapshot verifierHmac cleared grants db).ownsAttachment userId
      (rewrappedAttachment newKeyVersion rewraps row) = true)
    (hmode : (rewrappedAttachment newKeyVersion rewraps row).encryptionMode = 2) :
    db.ownsAttachment userId row = true ∧ row.encryptionMode = 2 := by
  obtain ⟨hentry, hmodeSame, -⟩ := rewrappedAttachment_keeps newKeyVersion rewraps row
  rw [ownsAttachment_write] at howns
  unfold ownsAttachment at howns ⊢
  rw [hentry] at howns
  exact ⟨howns, hmodeSame.symm.trans hmode⟩

theorem versioned_write
    (hentries : ∀ entryId, db.ownsEntry req.userId entryId = true → entryId ∈ req.entries.map EntryRotation.id)
    (hhistories : ∀ row ∈ db.histories, db.ownsEntry req.userId row.entryId = true →
      row.id ∈ req.historyEntries.map HistoryRotation.id)
    (hceks : db.Mode2 req.userId fun row ↦ row.cekMissing = false)
    (hnoStale : db.Mode2 req.userId fun row ↦
      (rewrappedAttachment snapshot.newKeyVersion req.attachmentCekRewraps row).cekKeyVersion.any
        (· ≠ snapshot.newKeyVersion) = false) :
    (req.write snapshot verifierHmac cleared grants db).Versioned req.userId where
  entries entry' hentry' huser version hversion := by
    obtain ⟨entry, hentry, rfl⟩ := mem_map.mp hentry'
    rw [(rotatedEntry_keeps snapshot.newKeyVersion req.entries entry).2] at huser
    rw [keyVersionOf_write hversion]
    exact entryTable.applyEach_of_mem (fun row ↦ row.keyVersion = snapshot.newKeyVersion)
      (fun _ _ ↦ rfl) (hentries entry.id (ownsEntry_iff.mpr ⟨entry, hentry, rfl, huser⟩))
  histories row' hrow' howns version hversion := by
    obtain ⟨row, hrow, rfl⟩ := mem_map.mp hrow'
    rw [ownsEntry_write, (rotatedHistory_keeps snapshot.newKeyVersion req.historyEntries row).2] at howns
    rw [keyVersionOf_write hversion]
    exact historyTable.applyEach_of_mem (fun row ↦ row.keyVersion = snapshot.newKeyVersion)
      (fun _ _ ↦ rfl) (hhistories row hrow howns)
  attachments row' hrow' howns hmode version hversion := by
    obtain ⟨row, hrow, rfl⟩ := mem_map.mp hrow'
    obtain ⟨hownsRow, hmodeRow⟩ := owned_of_rewrapped howns hmode
    have hpresent : row.cekKeyVersion.isSome = true := by
      have hmissing := hceks row hrow hownsRow hmodeRow
      simp only [Attachment.cekMissing, Bool.or_eq_false_iff] at hmissing
      simpa using hmissing.1.2
    have hsome := (rewrappedAttachment_keeps snapshot.newKeyVersion req.attachmentCekRewraps row).2.2 hpresent
    obtain ⟨found, hfound⟩ := Option.isSome_iff_exists.mp hsome
    have hsame : (rewrappedAttachment snapshot.newKeyVersion req.attachmentCekRewraps
        row).cekKeyVersion.any (· ≠ snapshot.newKeyVersion) = false :=
      hnoStale row hrow hownsRow hmodeRow
    rw [hfound] at hsame
    rw [hfound, keyVersionOf_write hversion]
    simpa using hsame

theorem noStale_before (h : (req.write snapshot verifierHmac cleared grants db).Mode2 req.userId fun row ↦
      row.cekKeyVersion.any (· ≠ snapshot.newKeyVersion) = false) :
    db.Mode2 req.userId fun row ↦
      (rewrappedAttachment snapshot.newKeyVersion req.attachmentCekRewraps row).cekKeyVersion.any
        (· ≠ snapshot.newKeyVersion) = false := by
  intro row hrow howns hmode
  obtain ⟨hentry, hmodeSame, -⟩ :=
    rewrappedAttachment_keeps snapshot.newKeyVersion req.attachmentCekRewraps row
  refine h _ (mem_map_of_mem hrow) ?_ (hmodeSame.trans hmode)
  rw [ownsAttachment_write]
  unfold ownsAttachment at howns ⊢
  rwa [hentry]

theorem entries_covered (h : idsMatch ids (db.entryIds userId) = true) (entryId : Uuid)
    (howns : db.ownsEntry userId entryId = true) : entryId ∈ ids := by
  obtain ⟨entry, hentry, rfl, huser⟩ := ownsEntry_iff.mp howns
  refine mem_of_idsMatch h (mem_map_of_mem (mem_filter.mpr ⟨hentry, ?_⟩))
  exact decide_eq_true huser

theorem histories_covered (h : idsMatch ids (db.historyIds userId) = true) (row : EntryHistory)
    (hrow : row ∈ db.histories) (howns : db.ownsEntry userId row.entryId = true) : row.id ∈ ids :=
  mem_of_idsMatch h (mem_map_of_mem (mem_filter.mpr ⟨hrow, howns⟩))

theorem rotation_effect {final : Stand Store Lock Event}
    (htrace : RotationTrace (versionContract req.userId) req snapshot final)
    (hw : (versionContract req.userId).Later final.held final.seen w) :
    VersionEffect req.userId final.held w.db (final.pending w.db) := by
  obtain ⟨verifierHmac, cleared, grants, hpending, -⟩ := htrace.writes
  have hseen := htrace.noStale
  rw [hpending] at hseen
  have hnoStale := ((mode2_stable _).mono htrace.locks).later (noStale_before hseen) hw
  have hceks := htrace.ceksPresent.now (mode2_stable _) hw
  have hentries : ∀ entryId, w.db.ownsEntry req.userId entryId = true →
      entryId ∈ req.entries.map EntryRotation.id := by
    obtain ⟨s, hs, hlocks, hmatch⟩ := htrace.entries
    exact ((entries_stable _).mono hlocks).later (entries_covered hmatch) (hs.until hw)
  have hhistories : ∀ row ∈ w.db.histories, w.db.ownsEntry req.userId row.entryId = true →
      row.id ∈ req.historyEntries.map HistoryRotation.id := by
    obtain ⟨s, hs, hlocks, hmatch⟩ := htrace.histories
    exact ((histories_stable _).mono hlocks).later (histories_covered hmatch) (hs.until hw)
  rw [hpending]
  exact
    { wellFormed := wellFormed_write
      versioned := fun _ _ ↦ versioned_write hentries hhistories hceks hnoStale
      keyVersion := .inr ⟨htrace.locks (mem_cons_self ..), htrace.locks (by simp [RotateRequest.locks])⟩
      entriesKept := by
        intro row hrow
        have hnot (other : PasswordEntry) (hid : other.id = row.id) :
            rotatedEntry snapshot.newKeyVersion req.entries other = other := by
          refine entryTable.applyEach_of_not_mem fun hmem ↦ hrow ?_
          obtain ⟨entry, hentry, heq⟩ := mem_map.mp hmem
          have hlock := htrace.entryLocks entry hentry
          rw [heq.trans hid] at hlock
          exact hlock
        constructor
        · intro hmem
          obtain ⟨old, hold, rfl⟩ := mem_map.mp hmem
          rw [hnot old (rotatedEntry_keeps snapshot.newKeyVersion req.entries old).1.symm]
          exact hold
        · intro hmem
          exact mem_map.mpr ⟨row, hmem, hnot row rfl⟩
      forth := fun entry hentry ↦
        ⟨_, mem_map_of_mem hentry, rotatedEntry_keeps snapshot.newKeyVersion req.entries entry⟩
      entryIds := by
        intro entry' hentry' huser
        obtain ⟨entry, hentry, rfl⟩ := mem_map.mp hentry'
        obtain ⟨hid, hentryUser⟩ := rotatedEntry_keeps snapshot.newKeyVersion req.entries entry
        exact .inl (ownsEntry_iff.mpr ⟨entry, hentry, hid.symm, hentryUser ▸ huser⟩)
      historyIds := by
        intro row' hrow'
        obtain ⟨row, hrow, rfl⟩ := mem_map.mp hrow'
        obtain ⟨hid, hentry⟩ := rotatedHistory_keeps snapshot.newKeyVersion req.historyEntries row
        exact .inl ⟨row, hrow, hid.symm, hentry.symm⟩
      mode2 := fun _ _ _ ↦ .inr (htrace.locks (by simp [RotateRequest.locks])) }

theorem returns_versionRotation {env : Env} {event : Event} :
    Earns (versionContract req.userId) (applyVaultRotation env req snapshot) (.idle w) fun _ ↦ event :=
  Returns.mono (returns_applyVaultRotation rfl rfl) fun _ _ htrace _ hw _ ↦ rotation_effect htrace hw

end Rotation

section Routes

variable {userId : Uuid} {w : World Store Event}

theorem outline_guarded {α : Type} {label : α → Event} {body : Uuid → Server (Except Thrown α)}
    (hbody : ∀ tenantId w', Earns (versionContract userId) (body tenantId) (.idle w') label) :
    Respects (versionContract userId) (withUserTenantRls userId label body) w :=
  outline_withUserTenantRls (fun _ ↦ True) (Contract.preserves_true _) trivial fun tenantId w' _ ↦ hbody tenantId w'

theorem outline_createEntry (req : CreateEntryRequest) : Respects (versionContract req.userId) (createEntry req) w :=
  Outline.respond (outline_guarded fun _ _ ↦ returns_createEntry rfl) fun result _ ↦ by
    cases result <;> trivial

theorem outline_updateOwnership {c : Contract Store Lock Event} (req : UpdateEntryRequest) :
    Outline c req.checkOwnership (.idle w) fun _ after ↦ ∃ w', after = .idle w' := by
  unfold UpdateEntryRequest.checkOwnership
  dsimp only
  split
  · split
    · exact ⟨w, rfl⟩
    · refine outline_readAsUser (fun _ w' ↦ ⟨w', rfl⟩) fun v w' _ _ ↦ ?_
      split <;> exact ⟨w', rfl⟩
  · refine outline_readAsUser (fun _ w' ↦ ⟨w', rfl⟩) fun v w' _ _ ↦ ?_
    split
    · exact ⟨w', rfl⟩
    · exact ⟨w', rfl⟩
    · split
      · exact ⟨w', rfl⟩
      · refine outline_readAsUser (fun _ w'' ↦ ⟨w'', rfl⟩) fun v w'' _ _ ↦ ?_
        split <;> exact ⟨w'', rfl⟩

theorem outline_updateWrite (req : UpdateEntryRequest) (existing : PasswordEntry) :
    Respects (versionContract req.userId) (req.write existing) w := by
  unfold UpdateEntryRequest.write
  split
  · next blob keyVersion hblob hversion =>
    refine outline_guarded fun _ _ ↦ returns_rewriteEntry (fun _ ↦ ⟨rfl, rfl⟩) fun row ↦ ?_
    simp [UpdateEntryRequest.apply, hblob, hversion]
  · next hguarded =>
    refine outline_guarded fun _ _ ↦ returns_updateMetadata (fun _ ↦ ⟨rfl, rfl⟩) fun row ↦ ?_
    cases hblob : req.encryptedBlob with
    | none => simp [UpdateEntryRequest.apply, hblob]
    | some blob =>
      cases hversion : req.keyVersion with
      | none => simp [UpdateEntryRequest.apply, hversion]
      | some keyVersion => exact (hguarded blob keyVersion hblob hversion).elim

theorem outline_updateEntry (req : UpdateEntryRequest) :
    Respects (versionContract req.userId) (updateEntry req) w := by
  refine outline_readAsUser (fun _ _ ↦ trivial) fun v w' _ _ ↦ ?_
  split
  · trivial
  · trivial
  next existing _ =>
  split
  · trivial
  refine outline_bind.mpr ((outline_updateOwnership req).weaken ?_)
  rintro result _ ⟨w'', rfl⟩
  cases result with
  | error refusal => trivial
  | ok _ =>
    dsimp only
    split
    · trivial
    refine .respond (outline_updateWrite req existing) fun result _ ↦ ?_
    rcases result with _ | found
    · trivial
    · cases found <;> trivial

theorem outline_restoreHistory (req : RestoreRequest) :
    Respects (versionContract req.userId) (restoreHistory req) w := by
  refine outline_readAsUser (fun _ _ ↦ trivial) fun v w' _ _ ↦ ?_
  split
  · trivial
  · trivial
  split
  · trivial
  refine outline_readAsUser (fun _ _ ↦ trivial) fun v' w'' _ _ ↦ ?_
  split
  · trivial
  · trivial
  split
  · trivial
  refine .respond (outline_guarded fun _ _ ↦
    returns_rewriteEntry (fun _ ↦ ⟨rfl, rfl⟩) fun _ ↦ rfl) fun result _ ↦ ?_
  rcases result with _ | found
  · trivial
  · cases found <;> trivial

theorem outline_uploadAttachment (req : UploadRequest) :
    Respects (versionContract req.userId) (uploadAttachment req) w := by
  refine outline_readAsUser (fun _ _ ↦ trivial) fun v w' _ _ ↦ ?_
  split
  · trivial
  · trivial
  split
  · trivial
  split
  · trivial
  split
  · trivial
  exact .respond (outline_guarded fun _ _ ↦ returns_upload rfl) fun _ _ ↦ trivial

variable {env : Env}

theorem outline_migrateAttachment (req : MigrateRequest) :
    Respects (versionContract req.userId) (migrateAttachment env req) w := by
  unfold migrateAttachment
  split
  · trivial
  exact .respond (outline_guarded fun _ _ ↦ returns_migrate rfl) fun _ _ ↦ trivial

theorem outline_versionRotation (req : RotateRequest) :
    Respects (versionContract req.userId) (rotateKey env req) w := by
  refine outline_readAsUser (fun _ _ ↦ trivial) fun v w' _ _ ↦ ?_
  dsimp only
  split
  · trivial
  exact .respond (outline_guarded fun _ _ ↦ returns_versionRotation) fun _ _ ↦ trivial

end Routes

section Aborts

variable {Q : Event → Prop} {userId : Uuid} {req : RotateRequest} {snapshot : RotationSnapshot}
  {newKeyVersion : Nat}

theorem labelled_lockUserForRotation : (lockUserForRotation req snapshot).Labelled Q := by
  refine labelled_lockingRead.bind fun _ ↦ labelled_lockingRead.bind fun _ ↦ ?_
  split <;> trivial

theorem labelled_checkAttachments : (checkAttachments req snapshot).Labelled Q := by
  refine labelled_read fun _ ↦ ?_
  split
  · trivial
  refine labelled_read fun _ ↦ ?_
  split
  · trivial
  refine labelled_read fun _ ↦ ?_
  split
  · trivial
  split <;> trivial

theorem labelled_checkCounts : (checkCounts req).Labelled Q := by
  refine labelled_read fun _ ↦ ?_
  split
  · refine labelled_read fun _ ↦ ?_
    split <;> trivial
  · trivial

theorem labelled_rotateEntries (entries : List EntryRotation) :
    (rotateEntries userId newKeyVersion entries).Labelled Q := by
  induction entries with
  | nil => trivial
  | cons entry rest ih =>
    refine labelled_updateMany.bind fun _ ↦ ?_
    split
    · trivial
    · exact ih

theorem labelled_rotateHistories (histories : List HistoryRotation) :
    (rotateHistories userId newKeyVersion histories).Labelled Q := by
  induction histories with
  | nil => trivial
  | cons history rest ih =>
    refine labelled_updateWhere.bind fun _ ↦ ?_
    split
    · trivial
    · exact ih

theorem labelled_rewrapCeks {tenantId : Uuid} (rewraps : List CekRewrap) :
    (rewrapCeks userId tenantId newKeyVersion rewraps).Labelled Q := by
  induction rewraps with
  | nil => trivial
  | cons rewrap rest ih =>
    unfold rewrapCeks
    split
    · trivial
    refine labelled_updateWhere.bind fun _ ↦ ?_
    split
    · trivial
    · exact ih

variable {env : Env}

theorem labelled_rotateUser : (rotateUser env req snapshot).Labelled Q := by
  refine labelled_read fun _ ↦ ?_
  split
  · trivial
  refine .andThen (labelled_write.bind fun _ ↦ ?_) fun _ ↦ ?_
  · split <;> trivial
  refine .bind (labelled_insert.bind fun _ ↦ ?_) fun result ↦ ?_
  · split <;> trivial
  · cases result <;> trivial

theorem labelled_finishRotation {recoveryKeyInvalidated : Bool} :
    (finishRotation req snapshot recoveryKeyInvalidated).Labelled Q := by
  refine labelled_updateMany.bind fun _ ↦ labelled_updateMany.bind fun _ ↦
    labelled_read fun _ ↦ ?_
  split <;> trivial

theorem labelled_applyVaultRotation : (applyVaultRotation env req snapshot).Labelled Q :=
  labelled_lockUserForRotation.andThen fun _ ↦ labelled_checkAttachments.andThen fun _ ↦
  labelled_checkCounts.andThen fun _ ↦ (labelled_rotateEntries _).andThen fun _ ↦
  (labelled_rotateHistories _).andThen fun _ ↦ (labelled_rewrapCeks _).andThen fun _ ↦
  labelled_rotateUser.andThen fun _ ↦ labelled_finishRotation

theorem commitsOnlyTo_rotateKey :
    (rotateKey env req).CommitsOnlyTo (fun result ↦ ∃ effects, result = .ok effects) False := by
  have hread : (readAsUser req.userId fun db ↦ db.users req.userId).Labelled fun _ ↦ False := by
    refine walks_readOnly fun view ↦ ?_
    split
    · trivial
    · exact fun _ ↦ trivial
  refine .bind ((hread.silent False).weaken ?_)
  rintro user _ rfl
  split
  · exact False.elim
  split
  · exact False.elim
  refine .bind (walks_readOnly fun view ↦ ?_)
  split
  · exact False.elim
  · refine (commitsOnlyTo_transaction labelled_applyVaultRotation).weaken fun result committed hresult ↦ ?_
    cases result with
    | ok effects => exact fun _ ↦ ⟨effects, rfl⟩
    | error thrown => exact fun hcommitted ↦ absurd (hresult hcommitted) nofun

end Aborts

/-- The requests that write rows with a key version. -/
inductive VersionRequest
  | createEntry (req : CreateEntryRequest)
  | updateEntry (req : UpdateEntryRequest)
  | restoreHistory (req : RestoreRequest)
  | uploadAttachment (req : UploadRequest)
  | migrateAttachment (req : MigrateRequest)
  | rotateKey (req : RotateRequest)

/-- The user who makes the request. -/
def VersionRequest.userId : VersionRequest → Uuid
  | .createEntry req => req.userId
  | .updateEntry req => req.userId
  | .restoreHistory req => req.userId
  | .uploadAttachment req => req.userId
  | .migrateAttachment req => req.userId
  | .rotateKey req => req.userId

/-- The refusal that a response is, if it is one. -/
def refusal? {α : Type} : Except Refusal α → Option Refusal
  | .error refusal => some refusal
  | .ok _ => none

/-- The program of a request, with the refusal it ends with. -/
def VersionRequest.serve (env : Env) : VersionRequest → Server (Option Refusal)
  | .createEntry req => do return refusal? (← Vault.createEntry req)
  | .updateEntry req => do return refusal? (← Vault.updateEntry req)
  | .restoreHistory req => do return refusal? (← Vault.restoreHistory req)
  | .uploadAttachment req => do return refusal? (← Vault.uploadAttachment req)
  | .migrateAttachment req => do return refusal? (← Vault.migrateAttachment env req)
  | .rotateKey req => do return refusal? (← Vault.rotateKey env req)

variable {env : Env}

theorem outline_versionRequest {w : World Store Event} (req : VersionRequest) :
    Respects (versionContract req.userId) (req.serve env) w := by
  cases req with
  | createEntry req => exact .respond (outline_createEntry req) fun _ _ ↦ trivial
  | updateEntry req => exact .respond (outline_updateEntry req) fun _ _ ↦ trivial
  | restoreHistory req => exact .respond (outline_restoreHistory req) fun _ _ ↦ trivial
  | uploadAttachment req => exact .respond (outline_uploadAttachment req) fun _ _ ↦ trivial
  | migrateAttachment req => exact .respond (outline_migrateAttachment req) fun _ _ ↦ trivial
  | rotateKey req => exact .respond (outline_versionRotation req) fun _ _ ↦ trivial

theorem commitsOnlyTo_serveRotation {req : RotateRequest} :
    ((VersionRequest.rotateKey req).serve env).CommitsOnlyTo (fun refused ↦ refused = none) False := by
  refine .bind (commitsOnlyTo_rotateKey.weaken fun result committed hresult hcommitted ↦ ?_)
  obtain ⟨effects, rfl⟩ := hresult hcommitted
  rfl

/-- A store of a vault whose rows all have the key version of the user. -/
structure VersionedStore (userId : Uuid) where
  store : Store
  wellFormed : store.WellFormed
  versioned : store.Versioned userId

/-- In every run of entry, attachment and rotation requests of a user, every entry, history row and
mode-2 attachment key of the user has the user's key version in every state; and no step of a
rotation that ends with a refusal has changed anything. -/
theorem keyVersions_coherent {ι : Type} [DecidableEq ι] (env : Env) {userId : Uuid}
    (vault : VersionedStore userId) (requests : ι → VersionRequest)
    (huser : ∀ i, (requests i).userId = userId) {s : State ι Store Lock Event (Option Refusal)}
    (hrun : Run (fun _ _ _ ↦ True) (State.start ⟨vault.store, []⟩ fun i ↦ (requests i).serve env) s) :
    s.world.db.Versioned userId ∧ ∀ i req, requests i = .rotateKey req → ∀ next, s.step i = some next →
        ∀ last refusal, Run (fun _ _ _ ↦ True) next last →
          (last.session i).prog = .done (some refusal) → next.world = s.world := by
  constructor
  · have hinvariant : s.world.db.WellFormed ∧ s.world.db.Versioned userId := by
      refine Run.invariant (c := versionContract userId) (fun w ↦ w.db.WellFormed ∧ w.db.Versioned userId) hrun
        (fun i ↦ huser i ▸ outline_versionRequest (requests i)) ⟨vault.wellFormed, vault.versioned⟩ ?_
      rintro held w event db ⟨hdb, hversioned⟩ heffect
      exact ⟨heffect.wellFormed hdb, heffect.versioned hdb hversioned⟩
    exact hinvariant.2
  · intro i req hreq next hstep last refusal hlast hdone
    have hstart : ((State.start ⟨vault.store, []⟩ fun i ↦ (requests i).serve env :
        State ι Store Lock Event (Option Refusal)).session i).prog.CommitsOnlyTo
        (fun refused ↦ refused = none) False := by
      change ((requests i).serve env).CommitsOnlyTo _ _
      rw [hreq]
      exact commitsOnlyTo_serveRotation
    rcases hrun.commitsOnlyTo hstart with h | h <;> exact Run.world_of_abort h hstep hlast hdone nofun

def emptyVault : VersionedStore 1 where
  store :=
    { newUserStore.store with
      users := fun userId ↦ if userId = 1 then some
        { newUser with
          vaultSetupAt := some 0
          accountSalt := some "s"
          masterPasswordServerHash := some "hs"
          masterPasswordServerSalt := some "s"
          keyVersion := 1 } else none
      vaultKeys := [⟨1, 1, 1, material 1⟩] }
  wellFormed := ⟨by decide, forall_mem_nil _, forall_mem_nil _⟩
  versioned := ⟨forall_mem_nil _, forall_mem_nil _, forall_mem_nil _⟩

/-- Rotating the key to version 2. -/
def rotationOf (entries : List EntryRotation) : RotateRequest where
  userId := 1
  currentAuthHash := "h"
  wrap := material 2
  accountSalt := "s'"
  newAuthHash := "h'"
  newVerifierHash := none
  verification := material 2
  entries := entries
  historyEntries := []
  ecdhPrivateKey := ⟨"c", "i", "t"⟩
  attachmentCekRewraps := []
  legacyAttachmentsMigratedThisCycle := none
  newServerSalt := "s'"
  now := 1

/-- Creating an entry under key version 1, and rotating the key with that entry. -/
def createAndRotate : Bool → VersionRequest
  | false => .createEntry
      { userId := 1
        id := 5
        blob := ⟨"b", "i", "t"⟩
        overview := ⟨"o", "i", "t"⟩
        keyVersion := 1
        aadVersion := 1
        tagIds := []
        folderId := none
        isFavorite := none
        entryType := "LOGIN"
        requireReprompt := none
        expiresAt := none }
  | true => .rotateKey (rotationOf [⟨5, ⟨"b'", "i", "t"⟩, ⟨"o'", "i", "t"⟩, 1⟩])

/-- Runs with writes and rotations exist: the entry is created and then moved to version 2. -/
theorem keyVersions_coherent_rotated : ∃ s : State Bool Store Lock Event (Option Refusal),
      s.world.db.keyVersionOf 1 = some 2 ∧ s.world.db.entries.map (·.keyVersion) = [2] ∧
      s.world.db.Versioned 1 := by
  obtain ⟨s, hrun, hversion, hentries⟩ := Run.exists_of_schedule
    (State.start ⟨emptyVault.store, []⟩ fun i ↦ (createAndRotate i).serve plainEnv)
    (fun w ↦ w.db.keyVersionOf 1 = some 2 ∧ w.db.entries.map (·.keyVersion) = [2])
    [(5, false), (24, true)]
  exact ⟨s, hversion, hentries, (keyVersions_coherent plainEnv emptyVault createAndRotate
    (fun i ↦ by cases i <;> rfl) hrun).1⟩

end PasswdSso.Vault
