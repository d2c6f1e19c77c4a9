import PasswdSso.Vault.Outline

/-!
# What the guarded writes and rotations commit

The transactions of one user that stamp a key version on an entry, a history row or an attachment
key, and the rotation that moves all of them to the next version. `RowStep` is what a commit other
than a rotation does: rows are kept, or stamped with the current version. `VersionEffect` adds the
locks: the version changes only under the user row and the advisory lock, and new rows come only
under one of them. `versionContract` makes it the contract of the sessions of a user.
-/

namespace PasswdSso.Vault

open ReadCommitted List Store

namespace Store

variable (db : Store) (userId : Uuid)

def keyVersionOf : Option Nat := (db.users userId).map User.keyVersion

/-- Every entry, every history row and every mode-2 attachment key of the user has the user's key
version. -/
structure Versioned : Prop where
  entries : ∀ entry ∈ db.entries, entry.userId = userId →
    ∀ version, db.keyVersionOf userId = some version → entry.keyVersion = version
  histories : ∀ row ∈ db.histories, db.ownsEntry userId row.entryId = true →
    ∀ version, db.keyVersionOf userId = some version → row.keyVersion = version
  attachments : ∀ row ∈ db.attachments, db.ownsAttachment userId row = true → row.encryptionMode = 2 →
    ∀ version, db.keyVersionOf userId = some version → row.cekKeyVersion = some version

/-- The constraints of the schema: entry ids are unique, and history rows and attachments belong to
entries that exist. -/
structure WellFormed : Prop where
  entryIds : entryTable.KeysUnique db
  historyEntries : ∀ row ∈ db.histories, ∃ entry ∈ db.entries, entry.id = row.entryId
  attachmentEntries : ∀ row ∈ db.attachments, ∀ id, row.passwordEntryId = some id →
    ∃ entry ∈ db.entries, entry.id = id

variable {db userId}

theorem ownsEntry_iff {entryId : Uuid} : db.ownsEntry userId entryId = true ↔
      ∃ entry ∈ db.entries, entry.id = entryId ∧ entry.userId = userId := by
  simp [ownsEntry]

theorem ownsAttachment_iff {row : Attachment} : db.ownsAttachment userId row = true ↔
      ∃ entryId, row.passwordEntryId = some entryId ∧ db.ownsEntry userId entryId = true := by
  simp [ownsAttachment, Option.any_eq_true]

end Store

/-- What a commit does to the entries, except in a rotation: they keep their id and owner, none is
lost, and an entry of the user is an old one with its key version, or was stamped with the current
one. New entries are written under `FOR SHARE`. -/
structure EntryStep (userId : Uuid) (held : Locks) (db db' : Store) : Prop where
  unique : entryTable.KeysUnique db → entryTable.KeysUnique db'
  kept : entryTable.KeptExcept .entry held db db'
  forth : ∀ entry ∈ db.entries, ∃ entry' ∈ db'.entries, entry'.id = entry.id ∧ entry'.userId = entry.userId
  owners : ∀ entry' ∈ db'.entries, (∃ entry ∈ db.entries, entry.id = entry'.id ∧ entry.userId = entry'.userId) ∨
      (.user userId, .share) ∈ held ∧ ∀ entry ∈ db.entries, entry.id ≠ entry'.id
  versions : ∀ entry' ∈ db'.entries, entry'.userId = userId →
    (∃ entry ∈ db.entries, entry.userId = userId ∧ entry.keyVersion = entry'.keyVersion) ∨
      db.keyVersionOf userId = some entry'.keyVersion

/-- What a commit does to the history, except in a rotation: a row is an old one, or the copy of an
entry, made under `FOR SHARE`. -/
def HistoryStep (userId : Uuid) (held : Locks) (db db' : Store) : Prop :=
  ∀ row' ∈ db'.histories, row' ∈ db.histories ∨ (.user userId, .share) ∈ held ∧
    ∃ entry ∈ db.entries, entry.id = row'.entryId ∧ entry.keyVersion = row'.keyVersion

/-- What a commit does to the attachments, except in a rotation: a row is an old one, or was stamped
with the current key version under the advisory lock. -/
def AttachmentStep (userId : Uuid) (held : Locks) (db db' : Store) : Prop :=
  ∀ row' ∈ db'.attachments, row' ∈ db.attachments ∨ (.advisory userId, .exclusive) ∈ held ∧
    row'.cekKeyVersion = db.keyVersionOf userId ∧ ∀ id, row'.passwordEntryId = some id →
      (∃ row ∈ db.attachments, row.passwordEntryId = some id) ∨ ∃ entry ∈ db.entries, entry.id = id

structure RowStep (userId : Uuid) (held : Locks) (db db' : Store) : Prop where
  keyVersion : db'.keyVersionOf userId = db.keyVersionOf userId
  entries : EntryStep userId held db db'
  histories : HistoryStep userId held db db'
  attachments : AttachmentStep userId held db db'

structure VersionEffect (userId : Uuid) (held : Locks) (db db' : Store) : Prop where
  wellFormed : db.WellFormed → db'.WellFormed
  versioned : db.WellFormed → db.Versioned userId → db'.Versioned userId
  keyVersion : db'.keyVersionOf userId = db.keyVersionOf userId ∨
    (.user userId, .exclusive) ∈ held ∧ (.advisory userId, .exclusive) ∈ held
  entriesKept : entryTable.KeptExcept .entry held db db'
  forth : ∀ entry ∈ db.entries, ∃ entry' ∈ db'.entries, entry'.id = entry.id ∧ entry'.userId = entry.userId
  entryIds : ∀ entry' ∈ db'.entries, entry'.userId = userId →
    db.ownsEntry userId entry'.id = true ∨ (.user userId, .share) ∈ held
  historyIds : ∀ row' ∈ db'.histories, (∃ row ∈ db.histories, row.id = row'.id ∧ row.entryId = row'.entryId) ∨
      (.user userId, .share) ∈ held
  mode2 : ∀ row' ∈ db'.attachments, row'.encryptionMode = 2 →
    row' ∈ db.attachments ∨ (.advisory userId, .exclusive) ∈ held

namespace RowStep

variable {userId : Uuid} {held : Locks} {db db' : Store} (h : RowStep userId held db db')

include h

theorem ownsEntry_back {id : Uuid}
    (hentry : ∃ entry ∈ db.entries, entry.id = id) (howns : db'.ownsEntry userId id = true) :
    db.ownsEntry userId id = true := by
  obtain ⟨entry', hmem', rfl, huser⟩ := ownsEntry_iff.mp howns
  obtain ⟨old, hold, hid⟩ := hentry
  rcases h.entries.owners entry' hmem' with ⟨entry, hmem, hentryId, hentryUser⟩ | ⟨-, hfresh⟩
  · exact ownsEntry_iff.mpr ⟨entry, hmem, hentryId, hentryUser.trans huser⟩
  · exact absurd hid (hfresh old hold)

theorem wellFormed (hdb : db.WellFormed) : db'.WellFormed := by
  have hforth (id : Uuid) (hentry : ∃ entry ∈ db.entries, entry.id = id) : ∃ entry ∈ db'.entries, entry.id = id := by
    obtain ⟨entry, hmem, rfl⟩ := hentry
    obtain ⟨entry', hmem', hid, -⟩ := h.entries.forth entry hmem
    exact ⟨entry', hmem', hid⟩
  refine ⟨h.entries.unique hdb.entryIds, fun row hrow ↦ hforth _ ?_, fun row hrow id hid ↦ hforth _ ?_⟩
  · rcases h.histories row hrow with hold | ⟨-, entry, hentry, hid, -⟩
    · exact hdb.historyEntries row hold
    · exact ⟨entry, hentry, hid⟩
  · rcases h.attachments row hrow with hold | ⟨-, -, hentries⟩
    · exact hdb.attachmentEntries row hold id hid
    · rcases hentries id hid with ⟨old, hold, holdId⟩ | hentry
      · exact hdb.attachmentEntries old hold id holdId
      · exact hentry

theorem versioned (hdb : db.WellFormed) (hversioned : db.Versioned userId) : db'.Versioned userId where
  entries entry' hmem' huser version hversion := by
    rw [h.keyVersion] at hversion
    rcases h.entries.versions entry' hmem' huser with ⟨entry, hmem, hentryUser, hkey⟩ | hstamped
    · exact hkey ▸ hversioned.entries entry hmem hentryUser version hversion
    · exact Option.mem_unique hstamped hversion
  histories row hrow howns version hversion := by
    rw [h.keyVersion] at hversion
    rcases h.histories row hrow with hold | ⟨-, entry, hentry, hid, hkey⟩
    · exact hversioned.histories row hold (h.ownsEntry_back (hdb.historyEntries row hold) howns) version hversion
    · obtain ⟨owned, howned, hownedId, huser⟩ :=
        ownsEntry_iff.mp (h.ownsEntry_back ⟨entry, hentry, hid⟩ howns)
      obtain rfl := hdb.entryIds.eq_of_key_eq howned hentry (hownedId.trans hid.symm)
      exact hkey ▸ hversioned.entries owned howned huser version hversion
  attachments row hrow howns hmode version hversion := by
    rw [h.keyVersion] at hversion
    rcases h.attachments row hrow with hold | ⟨-, hstamped, -⟩
    · obtain ⟨id, hid, hownsId⟩ := ownsAttachment_iff.mp howns
      have hownsRow := h.ownsEntry_back (hdb.attachmentEntries row hold id hid) hownsId
      exact hversioned.attachments row hold (ownsAttachment_iff.mpr ⟨id, hid, hownsRow⟩) hmode version hversion
    · exact hstamped.trans hversion

theorem effect : VersionEffect userId held db db' where
  wellFormed := h.wellFormed
  versioned := h.versioned
  keyVersion := .inl h.keyVersion
  entriesKept := h.entries.kept
  forth := h.entries.forth
  entryIds entry' hmem' huser := by
    refine (h.entries.owners entry' hmem').imp ?_ And.left
    rintro ⟨entry, hmem, hid, hentryUser⟩
    exact ownsEntry_iff.mpr ⟨entry, hmem, hid, hentryUser.trans huser⟩
  historyIds row hrow := (h.histories row hrow).imp (fun hold ↦ ⟨row, hold, rfl, rfl⟩) And.left
  mode2 row hrow _ := (h.attachments row hrow).imp_right And.left

end RowStep

def versionContract (userId : Uuid) : Contract Store Lock Event where
  allowed _ _ _ := True
  guarantee held w _ db := VersionEffect userId held w.db db

section Between

variable {userId : Uuid} {held : Locks}

theorem keyVersion_stable (version : Option Nat)
    (hlock : (.user userId, .share) ∈ held ∨ (.advisory userId, .exclusive) ∈ held) :
    (versionContract userId).Stable held fun w ↦ w.db.keyVersionOf userId = version := by
  intro w event db theirs hcompatible heffect hold
  rcases heffect.keyVersion with hsame | ⟨huser, hadvisory⟩
  · exact hsame.trans hold
  · rcases hlock with hmine | hmine
    · exact absurd huser (hcompatible.not_mem_exclusive hmine)
    · exact absurd hadvisory (hcompatible.not_mem hmine)

theorem entries_kept : (versionContract userId).Keeps entryTable .entry :=
  fun _ _ _ _ heffect ↦ heffect.entriesKept

theorem entry_stable (id : Uuid) :
    (versionContract userId).Stable held fun w ↦ ∃ entry ∈ w.db.entries, entry.id = id := by
  rintro w event db theirs - heffect ⟨entry, hentry, rfl⟩
  obtain ⟨entry', hentry', hid, -⟩ := heffect.forth entry hentry
  exact ⟨entry', hentry', hid⟩

variable {theirs : Locks} {db db' : Store}

theorem VersionEffect.ownsEntry_back (h : VersionEffect userId theirs db db')
    (hlock : (.user userId, .share) ∉ theirs) {entryId : Uuid}
    (howns : db'.ownsEntry userId entryId = true) : db.ownsEntry userId entryId = true := by
  obtain ⟨entry, hentry, rfl, huser⟩ := ownsEntry_iff.mp howns
  exact (h.entryIds entry hentry huser).resolve_right hlock

variable {req : RotateRequest}

theorem not_shared_of_rotating (hcompatible : Compatible req.locks theirs) : (.user req.userId, .share) ∉ theirs :=
  hcompatible.not_mem (mem_cons_self ..)

theorem not_advisory_of_rotating (hcompatible : Compatible req.locks theirs) :
    (.advisory req.userId, .exclusive) ∉ theirs :=
  hcompatible.not_mem (by simp [RotateRequest.locks])

theorem entries_stable (condition : Uuid → Prop) : (versionContract req.userId).Stable req.locks fun w ↦
      ∀ entryId, w.db.ownsEntry req.userId entryId = true → condition entryId :=
  fun _ _ _ _ hcompatible heffect hold entryId howns ↦
    hold entryId (heffect.ownsEntry_back (not_shared_of_rotating hcompatible) howns)

theorem histories_stable (condition : Uuid → Prop) :
    (versionContract req.userId).Stable req.locks fun w ↦ ∀ row ∈ w.db.histories,
      w.db.ownsEntry req.userId row.entryId = true → condition row.id := by
  intro w event db theirs hcompatible heffect hold row' hrow' howns
  have hshare := not_shared_of_rotating hcompatible
  obtain ⟨row, hrow, hid, hentry⟩ := (heffect.historyIds row' hrow').resolve_right hshare
  rw [World.commit_db, ← hentry] at howns
  exact hid ▸ hold row hrow (heffect.ownsEntry_back hshare howns)

theorem mode2_stable (condition : Attachment → Prop) :
    (versionContract req.userId).Stable req.locks fun w ↦ w.db.Mode2 req.userId condition := by
  intro w event db theirs hcompatible heffect hold row hrow howns hmode
  have hmem := (heffect.mode2 row hrow hmode).resolve_right (not_advisory_of_rotating hcompatible)
  obtain ⟨id, hid, hownsId⟩ := ownsAttachment_iff.mp howns
  refine hold row hmem (ownsAttachment_iff.mpr ⟨id, hid, ?_⟩) hmode
  exact heffect.ownsEntry_back (not_shared_of_rotating hcompatible) hownsId

end Between

section Writes

variable {userId : Uuid} {held : Locks} {db db' : Store}

theorem EntryStep.of_eq (hrows : db'.entries = db.entries) : EntryStep userId held db db' where
  unique h := h.congr hrows
  kept := .of_rows_eq hrows
  forth entry hentry := ⟨entry, hrows ▸ hentry, rfl, rfl⟩
  owners entry hentry := .inl ⟨entry, hrows ▸ hentry, rfl, rfl⟩
  versions entry hentry huser := .inl ⟨entry, hrows ▸ hentry, huser, rfl⟩

theorem HistoryStep.of_eq (hrows : db'.histories = db.histories) : HistoryStep userId held db db' :=
  fun _ hrow ↦ .inl (hrows ▸ hrow)

theorem AttachmentStep.of_eq (hrows : db'.attachments = db.attachments) : AttachmentStep userId held db db' :=
  fun _ hrow ↦ .inl (hrows ▸ hrow)

theorem RowStep.refl (db : Store) : RowStep userId held db db :=
  ⟨rfl, .of_eq rfl, .of_eq rfl, .of_eq rfl⟩

theorem EntryStep.append {row : PasswordEntry} (hrows : db'.entries = db.entries ++ [row])
    (hshare : (.user userId, .share) ∈ held) (hlock : (.entry row.id, .exclusive) ∈ held)
    (hfresh : ∀ entry ∈ db.entries, entry.id ≠ row.id)
    (hversion : db.keyVersionOf userId = some row.keyVersion) : EntryStep userId held db db' where
  unique h := by
    have happend : entryTable.rows db' = entryTable.rows (entryTable.append [row] db) := hrows
    exact (h.append hfresh).congr happend
  kept := by
    have happend : entryTable.rows db' = entryTable.rows (entryTable.append [row] db) := hrows
    refine .congr (Table.keptExcept_append ?_) happend
    simpa [entryTable] using hlock
  forth entry hentry := ⟨entry, hrows ▸ mem_append_left _ hentry, rfl, rfl⟩
  owners entry' hentry' := by
    rw [hrows, mem_append, mem_singleton] at hentry'
    rcases hentry' with hold | rfl
    · exact .inl ⟨entry', hold, rfl, rfl⟩
    · exact .inr ⟨hshare, hfresh⟩
  versions entry' hentry' huser := by
    rw [hrows, mem_append, mem_singleton] at hentry'
    rcases hentry' with hold | rfl
    · exact .inl ⟨entry', hold, huser, rfl⟩
    · exact .inr hversion

theorem EntryStep.modify {id : Uuid} {f : PasswordEntry → PasswordEntry}
    (hrows : db'.entries = (entryTable.modify [id] f db).entries) (hlock : (.entry id, .exclusive) ∈ held)
    (hkeeps : ∀ row, (f row).id = row.id ∧ (f row).userId = row.userId)
    (hversion : ∀ row, (f row).keyVersion = row.keyVersion ∨ db.keyVersionOf userId = some (f row).keyVersion) :
    EntryStep userId held db db' := by
  have hid (row : PasswordEntry) : entryTable.key (f row) = entryTable.key row := (hkeeps row).1
  have hmap : db'.entries = db.entries.map fun row ↦ if row.id ∈ [id] then f row else row := hrows
  have hstep (row : PasswordEntry) : (if row.id ∈ [id] then f row else row).id = row.id ∧
      (if row.id ∈ [id] then f row else row).userId = row.userId ∧
      ((if row.id ∈ [id] then f row else row).keyVersion = row.keyVersion ∨
        db.keyVersionOf userId = some (if row.id ∈ [id] then f row else row).keyVersion) := by
    split_ifs
    · exact ⟨(hkeeps row).1, (hkeeps row).2, hversion row⟩
    · exact ⟨rfl, rfl, .inl rfl⟩
  refine ⟨fun h ↦ (h.modify hid).congr hrows, ?_, fun row hrow ↦ ?_, fun row' hrow' ↦ ?_, fun row' hrow' huser ↦ ?_⟩
  · refine .congr (Table.keptExcept_modify hid ?_) hrows
    simpa using hlock
  · exact ⟨_, hmap ▸ mem_map_of_mem hrow, (hstep row).1, (hstep row).2.1⟩
  · rw [hmap] at hrow'
    obtain ⟨row, hrow, rfl⟩ := mem_map.mp hrow'
    exact .inl ⟨row, hrow, (hstep row).1.symm, (hstep row).2.1.symm⟩
  · rw [hmap] at hrow'
    obtain ⟨row, hrow, rfl⟩ := mem_map.mp hrow'
    exact (hstep row).2.2.imp_left fun hsame ↦
      ⟨row, hrow, (hstep row).2.1.symm.trans huser, hsame.symm⟩

end Writes

end PasswdSso.Vault
