import PasswdSso.Team.Outline
import PasswdSso.Team.Passwords

/-!
# Team entries can be decrypted, and no update is lost

A row says under which versions its blob and its item key were made, and a client that reads it
decrypts it accordingly. Rotations write what their client made of rows read long before, updates may
keep the item key of the row, and the versions are checked on rows read before the transaction. So a
rotation between the check and the write of an update leaves a row that nobody can decrypt
(`material_not_coherent`), and a rotation that was prepared before an update overwrites it
(`rotation_loses_restore`). Where updates and rotations commit on rows whose keys, and for entries
without an item key whose blobs, are those that were read, every row can be decrypted
(`material_coherent`), and to the content of the last update or restore (`content_current`).
-/

namespace PasswdSso.Team

open ReadCommitted List

namespace Material

/-- The versions in the row are those under which the blob and the wrapped item key were made. -/
structure Coherent (m : Material) : Prop where
  legacy : m.itemKeyVersion = 0 → m.blob.key = .team m.teamKeyVersion
  item : 1 ≤ m.itemKeyVersion → ∃ wrapped, m.itemKey = some wrapped ∧
    wrapped.teamKeyVersion = m.teamKeyVersion ∧ wrapped.key.version = m.itemKeyVersion ∧
    m.blob.key = .item wrapped.key

/-- What a client that follows the versions of the row decrypts. -/
def plaintext (m : Material) : Option String :=
  if m.itemKeyVersion = 0 then
    if m.blob.key = .team m.teamKeyVersion then some m.blob.content else none
  else
    m.itemKey.bind fun wrapped ↦
      if wrapped.teamKeyVersion = m.teamKeyVersion ∧ wrapped.key.version = m.itemKeyVersion ∧
        m.blob.key = .item wrapped.key then some m.blob.content else none

theorem Coherent.plaintext {m : Material} (h : m.Coherent) : m.plaintext = some m.blob.content := by
  unfold Material.plaintext
  split_ifs with hversion hkey
  · rfl
  · exact absurd (h.legacy hversion) hkey
  · obtain ⟨wrapped, hwrapped, hmatch⟩ := h.item (Nat.one_le_iff_ne_zero.mpr hversion)
    rw [hwrapped, Option.bind_some, if_pos hmatch]

def keys (m : Material) : Nat × Nat × Option WrappedItemKey :=
  (m.teamKeyVersion, m.itemKeyVersion, m.itemKey)

end Material

/-- The blob of an update was encrypted under the team key of the submitted version, under the item
key that is submitted with it, or under the item key of the row that the client read. -/
def UpdateInput.Honest (input : UpdateInput) (seen : Material) : Prop :=
  ∀ full, input.full = some full →
    let version := input.itemKeyVersion.getD seen.itemKeyVersion
    if version = 0 then full.encryptedBlob.key = .team full.teamKeyVersion
    else match input.encryptedItemKey with
      | some wrapped => wrapped.teamKeyVersion = full.teamKeyVersion ∧
          wrapped.key.version = version ∧ full.encryptedBlob.key = .item wrapped.key
      | none => ∃ wrapped, seen.itemKey = some wrapped ∧ wrapped.key.version = version ∧
          full.encryptedBlob.key = .item wrapped.key

/-- The client of an update is honest about every row that it can decrypt. -/
def UpdateRequest.Honest (req : UpdateRequest) : Prop :=
  ∀ row, row.material.Coherent → (req.edit row).Honest row.material

/-- A rotation wraps the item key of the row again, or encrypts the content of the row again. -/
def RotateEntry.Honest (entry : RotateEntry) (newTeamKeyVersion : Nat) : Prop :=
  match entry.data with
  | .itemKey _ wrapped => 1 ≤ entry.seen.itemKeyVersion ∧
      wrapped.teamKeyVersion = newTeamKeyVersion ∧
      entry.seen.itemKey.map (·.key) = some wrapped.key
  | .legacy blob _ => entry.seen.itemKeyVersion = 0 ∧ blob.key = .team newTeamKeyVersion ∧
      blob.content = entry.seen.blob.content

/-- The client of a rotation treats every row that it can decrypt honestly. -/
structure RotationClient.Honest (client : RotationClient) : Prop where
  id : ∀ version row, (client.reencrypt version row).id = row.id
  seen : ∀ version row, (client.reencrypt version row).seen = row.material
  honest : ∀ version row, row.material.Coherent → (client.reencrypt version row).Honest version

/-- The row is still as the client of the rotation read it, as far as it matters for what the
rotation writes. -/
def RotateEntry.Fresh (entry : RotateEntry) (row : Material) : Prop :=
  row.itemKeyVersion = entry.seen.itemKeyVersion ∧ if entry.seen.itemKeyVersion = 0 then row.blob = entry.seen.blob
    else row.itemKey.map (·.key) = entry.seen.itemKey.map (·.key)

/-- An update that keeps the item key of the row commits while its key columns are those that client
and route have read, and a rotation while its rows are fresh. -/
def Unchanged (event : Event) (_ : List Event) (w : World Store Event) : Prop :=
  match event with
  | .updated id _ (some (seen, existing)) => ∀ row ∈ w.db.entries, row.id = id →
      row.material.keys = seen.keys ∧ row.material.keys = existing.keys
  | .rotated _ _ entries => ∀ entry ∈ entries, ∀ row ∈ w.db.entries, row.id = entry.id →
      entry.Fresh row.material
  | _ => True

section Contents

def Event.content? (id : Uuid) : Event → Option String
  | .wrote entryId content => if entryId = id then some content else none
  | .updated entryId content _ => if entryId = id then some content else none
  | _ => none

/-- The content of the last update, restore or creation of an entry, and otherwise the one it had at
the start. -/
def lastContent (initial : Store) (log : List Event) (id : Uuid) : Option String :=
  (log.findSome? (Event.content? id)).or ((initial.entries.find? (·.id = id)).map (·.material.blob.content))

variable {initial : Store} {log : List Event} {event : Event} {id : Uuid}

theorem lastContent_of_content {content : String} (h : event.content? id = some content) :
    lastContent initial (event :: log) id = some content := by
  rw [lastContent, findSome?_cons, h]
  rfl

theorem lastContent_of_none (h : event.content? id = none) :
    lastContent initial (event :: log) id = lastContent initial log id := by
  rw [lastContent, findSome?_cons, h]
  rfl

end Contents

/-- Rows and history rows are coherent, and rows have the content of their last write. -/
structure Sound (initial : Store) (w : World Store Event) : Prop where
  ids : entryTable.KeysUnique w.db
  entries : ∀ row ∈ w.db.entries, row.material.Coherent ∧
    lastContent initial w.log row.id = some row.material.blob.content
  histories : ∀ row ∈ w.db.histories, row.material.Coherent

def HasContent (w : World Store Event) (event : Event) (row : TeamPasswordEntry) : Prop :=
  event.content? row.id = some row.material.blob.content ∨
    event.content? row.id = none ∧ ∃ old ∈ w.db.entries, old.id = row.id ∧
      old.material.blob.content = row.material.blob.content

variable {initial : Store} {w : World Store Event}

theorem Sound.commit {event : Event} {db : Store} (h : Sound initial w) (hids : entryTable.KeysUnique db)
    (hentries : ∀ row ∈ db.entries, row.material.Coherent ∧ HasContent w event row)
    (hhistories : ∀ row ∈ db.histories, row.material.Coherent) : Sound initial (w.commit event db) where
  ids := hids
  entries row hrow := by
    obtain ⟨hcoherent, hcontent | ⟨hnone, old, hold, hid, hsame⟩⟩ := hentries row hrow
    · exact ⟨hcoherent, lastContent_of_content hcontent⟩
    · refine ⟨hcoherent, (lastContent_of_none hnone).trans ?_⟩
      rw [← hid, (h.entries old hold).2, hsame]
  histories := hhistories

structure MaterialEffect (initial : Store) (held : Locks) (w : World Store Event) (event : Event)
    (db : Store) : Prop where
  sound : Sound initial w → Sound initial (w.commit event db)
  kept : entryTable.KeptExcept .entry held w.db db

def materialContract (initial : Store) : Contract Store Lock Event where
  allowed := Unchanged
  guarantee := MaterialEffect initial

section Between

variable {initial : Store}

theorem material_kept : (materialContract initial).Keeps entryTable .entry :=
  fun _ _ _ _ heffect ↦ heffect.kept

theorem sound_preserved : (materialContract initial).Preserves (Sound initial) :=
  fun _ _ _ _ h heffect ↦ heffect.sound h

theorem sound_later {held : Locks} {w w' : World Store Event} (h : Sound initial w)
    (hlater : (materialContract initial).Later held w w') : Sound initial w' :=
  sound_preserved.later h hlater

end Between

section Effects

variable {initial : Store} {held : Locks} {w : World Store Event} {event : Event} {db : Store}

theorem material_frame (hentries : db.entries = w.db.entries) (hevent : ∀ id, event.content? id = none)
    (hhistories : Sound initial w → ∀ row ∈ db.histories, row.material.Coherent) :
    MaterialEffect initial held w event db where
  sound h := h.commit (h.ids.congr hentries) (fun row hrow ↦ ⟨(h.entries row (hentries ▸ hrow)).1,
      .inr ⟨hevent row.id, row, hentries ▸ hrow, rfl, rfl⟩⟩) (hhistories h)
  kept := .of_rows_eq hentries

theorem material_modify {id : Uuid} {f : TeamPasswordEntry → TeamPasswordEntry}
    (hlock : (.entry id, .exclusive) ∈ held) (hf : ∀ row, (f row).id = row.id)
    (hentries : db.entries = (entryTable.modify [id] f w.db).entries)
    (hothers : ∀ other, other ≠ id → event.content? other = none)
    (hwritten : Sound initial w → ∀ row ∈ w.db.entries, row.id = id →
      (f row).material.Coherent ∧ HasContent w event (f row))
    (hhistories : Sound initial w → ∀ row ∈ db.histories, row.material.Coherent) :
    MaterialEffect initial held w event db where
  sound h := by
    refine h.commit ((h.ids.modify hf).congr hentries) (fun row' hrow' ↦ ?_) (hhistories h)
    rw [hentries] at hrow'
    obtain ⟨row, hrow, rfl⟩ := mem_map.mp hrow'
    split_ifs with hid
    · exact hwritten h row hrow (mem_singleton.mp hid)
    · refine ⟨(h.entries row hrow).1, .inr ⟨hothers row.id ?_, row, hrow, rfl, rfl⟩⟩
      simpa [entryTable] using hid
  kept := .congr (Table.keptExcept_modify hf (by simpa using hlock)) hentries

theorem material_append {row : TeamPasswordEntry} (hlock : (.entry row.id, .exclusive) ∈ held)
    (hfresh : ∀ old ∈ w.db.entries, old.id ≠ row.id) (hcoherent : row.material.Coherent)
    (hentries : db.entries = w.db.entries ++ [row]) (hhistories : db.histories = w.db.histories) :
    MaterialEffect initial held w (.wrote row.id row.material.blob.content) db := by
  have happend : entryTable.rows db = entryTable.rows (entryTable.append [row] w.db) := hentries
  refine ⟨fun h ↦ h.commit ((h.ids.append hfresh).congr happend) (fun row' hrow' ↦ ?_) ?_, ?_⟩
  · rw [hentries, mem_append, mem_singleton] at hrow'
    rcases hrow' with hold | rfl
    · refine ⟨(h.entries row' hold).1, .inr ⟨if_neg ?_, row', hold, rfl, rfl⟩⟩
      exact fun heq ↦ hfresh row' hold heq.symm
    · exact ⟨hcoherent, .inl (if_pos rfl)⟩
  · exact hhistories ▸ h.histories
  · exact .congr (Table.keptExcept_append (by simpa [entryTable] using hlock)) happend

end Effects

section Parts

variable {c : Contract Store Lock Event} {stand : Stand Store Lock Event} {teamId entryId : Uuid}

theorem returns_assertTeamKeyVersion {version : Nat} :
    Returns c (assertTeamKeyVersion teamId version) stand fun _ next ↦
      stand.Reaches c next ∧ next.pending = stand.pending := by
  refine .read fun next hnext ↦ ?_
  split
  · exact .error
  split
  · exact .error
  · exact .ok ⟨hnext.reaches, hnext.pending⟩

theorem returns_assertOwnership {folderId : Option Uuid} {tagIds : List Uuid} :
    Returns c (assertOwnership teamId folderId tagIds) stand fun _ next ↦
      stand.Reaches c next ∧ next.pending = stand.pending := by
  refine .read fun first hfirst ↦ ?_
  split
  · split
    · exact .ok ⟨hfirst.reaches, hfirst.pending⟩
    · refine .read fun next hnext ↦ ?_
      split
      · refine .ok ⟨hfirst.reaches.trans hnext.reaches, ?_⟩
        rw [hnext.pending, hfirst.pending]
        rfl
      · exact .error
  · exact .error

theorem returns_updateRow {f : TeamPasswordEntry → TeamPasswordEntry} :
    Returns c (updateRow teamId entryId f) stand fun _ next ↦ stand.Reaches c next ∧
      (.entry entryId, .exclusive) ∈ next.held ∧
      next.pending = entryTable.modify [entryId] f ∘ stand.pending :=
  Returns.updateKey fun _ _ ↦ of_decide_and

end Parts

section Commits

variable {initial : Store} {w : World Store Event} {stand : Stand Store Lock Event} {req : CreateRequest}
  {tenantId : Uuid}

theorem returns_createTeamPassword (hhonest : req.material.Coherent) :
    Earns (materialContract initial) (createTeamPassword req) (.idle w)
      fun _ ↦ .wrote req.id req.encryptedBlob.content := by
  refine .andThen returns_assertTeamKeyVersion ?_
  rintro tenantId first ⟨-, hfirst⟩
  refine .andThen returns_assertOwnership ?_
  rintro _ second ⟨-, hsecond⟩
  have hpending : second.pending = id := hsecond.trans hfirst
  refine Returns.insert fun final hfinal hfresh ↦ .ok ?_
  intro w' hw _
  have hlock : (.entry (req.entry tenantId).id, .exclusive) ∈ final.held :=
    hfinal.locked
  have hfreshNow : ∀ old ∈ final.seen.db.entries, old.id ≠ (req.entry tenantId).id := by
    intro old hold hid
    rw [hpending, any_eq_false] at hfresh
    exact hfresh old hold (decide_eq_true hid)
  rw [hfinal.pending, hpending]
  exact material_append hlock (material_kept.absent hw hlock hfreshNow) hhonest rfl rfl

theorem outline_createMaterial (hhonest : req.material.Coherent) :
    Respects (materialContract initial) (createEntry req) w := by
  exact .respond (outline_withTeamTenantRls fun _ _ _ ↦ returns_createTeamPassword hhonest) fun _ _ ↦ trivial

theorem commits_rewrite {snapshot final : Stand Store Lock Event} {teamId entryId : Uuid} {event : Event}
    {f : TeamPasswordEntry → TeamPasswordEntry} {copy : TeamPasswordEntry → TeamEntryHistory}
    (hsnapshot : Snapshot (materialContract initial) (.entry entryId) (fun db ↦ db.entries.find? fun row ↦
      row.id = entryId && row.teamId = teamId) historyTable copy true stand snapshot)
    (hcopy : ∀ row, (copy row).material = row.material)
    (hfinal : snapshot.Reaches (materialContract initial) final) (hlock : (.entry entryId, .exclusive) ∈ final.held)
    (hpending : final.pending = entryTable.modify [entryId] f ∘ snapshot.pending) (hf : ∀ row, (f row).id = row.id)
    (hothers : ∀ other, other ≠ entryId → event.content? other = none)
    (hwritten : ∀ w, Unchanged event [] w → Sound initial w → ∀ row ∈ w.db.entries,
      row.id = entryId → (f row).material.Coherent ∧ HasContent w event (f row)) :
    (materialContract initial).Commits final event := by
  obtain ⟨-, locked, cur, keys, hlocked, hcurLock, hcur, hsnapshotPending⟩ := hsnapshot
  have hid : cur.id = entryId ∧ cur.teamId = teamId := by simpa using find?_some hcur
  intro w' hw hallowed
  have hcurNow : cur ∈ w'.db.entries :=
    (material_kept.later ((hlocked.trans hfinal).until hw) (hid.1 ▸ hcurLock)).mpr (mem_of_find?_eq_some hcur)
  rw [hpending, hsnapshotPending]
  refine material_modify hlock hf rfl hothers (hwritten w' hallowed) fun h old hold ↦ ?_
  have hmem : old ∈ w'.db.histories ++ [copy cur] := mem_of_mem_filter hold
  rw [mem_append, mem_singleton] at hmem
  rcases hmem with hmem | rfl
  · exact h.histories old hmem
  · exact hcopy cur ▸ (h.entries cur hcurNow).1

theorem returns_restoreBody {req : RestoreRequest} {history : TeamEntryHistory}
    (hcoherent : history.material.Coherent) :
    Earns (materialContract initial) (restoreBody req tenantId history) (.idle w)
      fun found ↦ req.event history.material.blob.content found := by
  refine .andThen (returns_snapshot rfl) fun found snapshot hsnapshot ↦ ?_
  cases found with
  | false =>
    refine .ok fun w' _ _ ↦ ?_
    rw [show snapshot.pending = id from hsnapshot.2]
    exact material_frame rfl (fun _ ↦ rfl) fun h ↦ h.histories
  | true =>
    refine .andThen returns_updateRow ?_
    rintro _ final ⟨hfinal, hlock, hpending⟩
    refine .ok (commits_rewrite hsnapshot (fun _ ↦ rfl) hfinal hlock hpending (fun _ ↦ rfl)
      (fun other hother ↦ if_neg hother.symm) fun w' _ _ row _ hid ↦ ⟨hcoherent, .inl ?_⟩)
    exact if_pos hid.symm

theorem outline_restoreMaterial {req : RestoreRequest} (hsound : Sound initial w) :
    Respects (materialContract initial) (restoreEntry req) w := by
  refine outline_readAsTeam (fun _ _ ↦ trivial) fun v w' hv hw' ↦ ?_
  split
  · trivial
  · trivial
  split
  · trivial
  refine outline_readAsTeam (fun _ _ ↦ trivial) fun v' w'' hv' hw'' ↦ ?_
  split
  · trivial
  · trivial
  next history hfound =>
  split
  · trivial
  have hcoherent : history.material.Coherent :=
    (sound_later hsound ((hv.trans hw').trans hv')).histories history
      (mem_of_find?_eq_some (Except.ok.inj hfound))
  refine .respond (outline_withTeamTenantRls fun _ _ _ ↦ returns_restoreBody hcoherent) fun result _ ↦ ?_
  rcases result with _ | found
  · trivial
  · cases found <;> trivial

variable {input : UpdateInput} {full : FullUpdate} {existing seen : Material}

theorem keeps_of_checkVersions (hfull : input.full = some full) (hchecked : input.checkVersions existing = .ok ())
    (hitemKey : input.encryptedItemKey = none) (hversion : 1 ≤ input.itemKeyVersion.getD existing.itemKeyVersion) :
    full.teamKeyVersion = existing.teamKeyVersion ∧ 1 ≤ existing.itemKeyVersion := by
  simp only [UpdateInput.checkVersions, hfull, hitemKey, Option.isNone_some, Option.isNone_none,
    Bool.and_false, Bool.and_true, Option.any_some] at hchecked
  split_ifs at hchecked with hdowngrade hmetadata hrequired hrewrap
  constructor
  · by_contra hchanged
    exact hrewrap (by simp [hchanged, hversion])
  · cases hitemKeyVersion : input.itemKeyVersion with
    | none => simpa [hitemKeyVersion] using hversion
    | some version =>
      by_contra hexisting
      rw [hitemKeyVersion, Option.getD_some] at hversion
      exact hrequired (by simp [hitemKeyVersion, hversion, Nat.lt_one_iff.mp (not_le.mp hexisting)])

/-- A full update that passed the checks on what the route read, on a row with the key columns that
client and route have read if it keeps the item key. -/
theorem coherent_update {row : Material} (hfull : input.full = some full) (hhonest : input.Honest seen)
    (hchecked : input.checkVersions existing = .ok ()) (hrow : row.Coherent)
    (hsame : input.reuses = true → row.keys = seen.keys ∧ row.keys = existing.keys) :
    (full.material input row).Coherent := by
  have hblob := hhonest full hfull
  cases hitemKey : input.encryptedItemKey with
  | some wrapped =>
    -- The update brings its item key along and depends on nothing else.
    have hneeded := input.itemKeyNeedsVersion (by rw [hitemKey]; rfl)
    cases hversion : input.itemKeyVersion with
    | none => simp [hversion] at hneeded
    | some version =>
      simp only [hversion, Option.getD_some] at hneeded hblob
      rw [if_neg (Nat.one_le_iff_ne_zero.mp hneeded), hitemKey] at hblob
      refine ⟨fun hzero ↦ ?_, fun _ ↦ ⟨wrapped, ?_, hblob.1, ?_, hblob.2.2⟩⟩
      · simp only [FullUpdate.material, hversion, Option.getD_some] at hzero
        omega
      · simp [FullUpdate.material, hversion, hitemKey]
      · simp [FullUpdate.material, hversion, hblob.2.1]
  | none =>
    have hkept : (full.material input row).itemKey = row.itemKey := by
      simp [FullUpdate.material, hitemKey]
    by_cases hlegacy : input.itemKeyVersion = some 0
    · simp only [hlegacy, Option.getD_some, if_true] at hblob
      refine ⟨fun _ ↦ hblob, fun hpos ↦ ?_⟩
      simp [FullUpdate.material, hlegacy] at hpos
    · obtain ⟨hseen, hexisting⟩ := hsame (by simp [UpdateInput.reuses, hitemKey, hlegacy])
      simp only [Material.keys, Prod.mk.injEq] at hseen hexisting
      rw [← hseen.2.1, hitemKey] at hblob
      have hversion : (full.material input row).itemKeyVersion = input.itemKeyVersion.getD row.itemKeyVersion := rfl
      refine ⟨fun hzero ↦ ?_, fun hpos ↦ ?_⟩
      · rw [hversion] at hzero
        exact (if_pos hzero ▸ hblob :)
      · rw [hversion] at hpos
        rw [if_neg (Nat.one_le_iff_ne_zero.mp hpos), ← hseen.2.2] at hblob
        obtain ⟨hteam, hitem⟩ := keeps_of_checkVersions hfull hchecked hitemKey (hexisting.2.1 ▸ hpos)
        obtain ⟨wrapped, hwrapped, hwrappedTeam, -, -⟩ := hrow.item (hexisting.2.1 ▸ hitem)
        obtain ⟨wrapped', hwrapped', hwrappedVersion, hkey⟩ := hblob
        obtain rfl := Option.mem_unique hwrapped hwrapped'
        exact ⟨wrapped, hkept.trans hwrapped, (hwrappedTeam.trans hexisting.1).trans hteam.symm,
          hwrappedVersion, hkey⟩

theorem event_content {id other : Uuid} (hfull : input.full = some full) :
    (input.event id seen existing).content? other = if id = other then some full.encryptedBlob.content else none := by
  rw [UpdateInput.event, hfull]
  rfl

theorem returns_updateTeamPassword {req : UpdateRequest} {existing : TeamPasswordEntry} (hhonest : input.Honest seen) :
    Earns (materialContract initial) (updateTeamPassword input req existing) (.idle w)
      fun _ ↦ input.event req.id seen existing.material := by
  unfold updateTeamPassword
  split
  · exact .error
  next hchecked =>
  have hassert : Returns (materialContract initial) (assertFullVersion input req.teamId) (.idle w)
      fun _ next ↦ next.pending = id := by
    unfold assertFullVersion
    split
    · exact .ok rfl
    · refine .andThen returns_assertTeamKeyVersion ?_
      rintro _ next ⟨-, hnext⟩
      exact .ok hnext
  refine .andThen hassert fun _ first hfirst ↦ ?_
  refine .andThen returns_assertOwnership ?_
  rintro _ second ⟨-, hsecond⟩
  have hpending : second.pending = id := hsecond.trans hfirst
  unfold updateBody
  split
  · next hnone =>
    refine .mono returns_updateRow ?_
    rintro _ final ⟨-, hlock, hfinal⟩ w' hw hallowed
    have hevent (other : Uuid) : (input.event req.id seen existing.material).content? other = none := by
      rw [UpdateInput.event, hnone]
      rfl
    have hid (row : TeamPasswordEntry) : (input.apply req.userId row).id = row.id := rfl
    rw [hfinal, hpending]
    refine material_modify hlock hid rfl (fun other _ ↦ hevent other) ?_ fun h ↦ h.histories
    intro h row hrow _
    have hmaterial : (input.apply req.userId row).material = row.material := by
      simp only [UpdateInput.apply, hnone]
    rw [hmaterial]
    exact ⟨(h.entries row hrow).1, .inr ⟨hevent _, row, hrow, rfl, by rw [hmaterial]⟩⟩
  · next full hfull =>
    refine .andThen (returns_snapshot hpending) fun found snapshot hsnapshot ↦ ?_
    cases found with
    | false => exact .error
    | true =>
      refine .mono returns_updateRow ?_
      rintro _ final ⟨hfinal, hlock, hfinalPending⟩
      refine commits_rewrite hsnapshot (fun _ ↦ rfl) hfinal hlock hfinalPending (fun _ ↦ rfl) ?_ ?_
      · intro other hother
        rw [event_content hfull, if_neg hother.symm]
      · intro w' hunchanged h row hrow hid
        have hmaterial : (input.apply req.userId row).material = full.material input row.material := by
          simp only [UpdateInput.apply, hfull]
        rw [hmaterial]
        refine ⟨coherent_update hfull hhonest hchecked (h.entries row hrow).1 fun hreuses ↦ ?_, .inl ?_⟩
        · simp only [UpdateInput.event, hfull, hreuses, if_true, Unchanged] at hunchanged
          exact hunchanged row hrow hid
        · rw [event_content hfull, hmaterial]
          exact if_pos hid.symm

theorem outline_updateMaterial {req : UpdateRequest} (hhonest : req.Honest) (hsound : Sound initial w) :
    Respects (materialContract initial) (updateEntry req) w := by
  refine outline_readAsTeam (fun _ _ ↦ trivial) fun v w' hv _ ↦ ?_
  split
  · trivial
  · trivial
  next seen hseen =>
  split
  · trivial
  have hcoherent : seen.material.Coherent :=
    ((sound_later hsound hv).entries seen (mem_of_find?_eq_some (Except.ok.inj hseen))).1
  refine outline_readAsTeam (fun _ _ ↦ trivial) fun v' w'' _ _ ↦ ?_
  split
  · trivial
  · trivial
  split
  · trivial
  split
  · trivial
  split
  · trivial
  exact .respond (outline_withTeamTenantRls fun _ _ _ ↦
    returns_updateTeamPassword (hhonest seen hcoherent)) fun _ _ ↦ trivial

theorem coherent_rotate {entry : RotateEntry} {version : Nat} {row : TeamPasswordEntry}
    (hhonest : entry.Honest version) (hfresh : entry.Fresh row.material) (hrow : row.material.Coherent) :
    (entry.apply version row).material.Coherent ∧
      (entry.apply version row).material.blob.content = row.material.blob.content := by
  obtain ⟨hversion, hsame⟩ := hfresh
  unfold RotateEntry.Honest at hhonest
  unfold RotateEntry.apply
  split at hhonest
  · next wrapped hdata =>
    obtain ⟨hpos, hteam, hkey⟩ := hhonest
    rw [if_neg (Nat.one_le_iff_ne_zero.mp hpos), hkey] at hsame
    obtain ⟨old, hold, -, holdVersion, holdKey⟩ := hrow.item (hversion ▸ hpos)
    rw [hold, Option.map_some, Option.some.injEq] at hsame
    simp only [hdata]
    refine ⟨⟨fun hzero ↦ ?_, fun _ ↦ ⟨wrapped, rfl, hteam, hsame ▸ holdVersion, hsame ▸ holdKey⟩⟩, trivial⟩
    exact absurd (hversion.symm.trans hzero) (Nat.one_le_iff_ne_zero.mp hpos)
  · next blob overview hdata =>
    obtain ⟨hzero, hkey, hcontent⟩ := hhonest
    rw [if_pos hzero] at hsame
    simp only [hdata]
    refine ⟨⟨fun _ ↦ hkey, fun hpos ↦ ?_⟩, hsame ▸ hcontent⟩
    exact absurd (hversion.trans hzero) (Nat.one_le_iff_ne_zero.mp hpos)

theorem apply_id (entry : RotateEntry) (version : Nat) (row : TeamPasswordEntry) :
    (entry.apply version row).id = row.id := by
  unfold RotateEntry.apply
  split <;> rfl

theorem commits_rotation {req : RotateRequest} (htrace : RotationTrace req tenantId stand)
    (hhonest : ∀ entry ∈ req.entries, entry.Honest req.newTeamKeyVersion) :
    (materialContract initial).Commits stand req.event := by
  intro w' _ hfresh
  rw [htrace.writes]
  have hkey (entry : RotateEntry) (row : TeamPasswordEntry) :
      entryTable.key (entry.apply req.newTeamKeyVersion row) = entryTable.key row := apply_id entry _ row
  refine ⟨fun h ↦ ?_, (Table.keptExcept_applyEach hkey htrace.entryLocks).congr rfl⟩
  have hid (row : TeamPasswordEntry) : (req.rotated row).id = row.id := Table.key_applyEach hkey
  refine h.commit (h.ids.map hid rfl) (fun row' hrow' ↦ ?_) h.histories
  obtain ⟨row, hrow, rfl⟩ := mem_map.mp hrow'
  obtain ⟨hcoherent, -⟩ := h.entries row hrow
  have hrotated : (req.rotated row).material.Coherent ∧
      (req.rotated row).material.blob.content = row.material.blob.content := by
    have hcases : entryTable.key row ∉ req.entries.map RotateEntry.id ∧ req.rotated row = row ∨
        ∃ entry ∈ req.entries, entry.id = entryTable.key row ∧
          req.rotated row = entry.apply req.newTeamKeyVersion row :=
      Table.applyEach_cases hkey htrace.nodup
    rcases hcases with ⟨-, hsame⟩ | ⟨entry, hentry, hentryId, happlied⟩
    · rw [hsame]
      exact ⟨hcoherent, rfl⟩
    · rw [happlied]
      exact coherent_rotate (hhonest entry hentry) (hfresh entry hentry row hrow hentryId.symm) hcoherent
  exact ⟨hrotated.1, .inr ⟨rfl, row, hrow, (hid row).symm, hrotated.2.symm⟩⟩

theorem outline_rotateMaterial {client : RotationClient} (hclient : client.Honest) (hsound : Sound initial w) :
    Respects (materialContract initial) (rotateFromClient client) w := by
  refine outline_readAsTeam (fun _ _ ↦ trivial) fun v w₁ hv hw₁ ↦ ?_
  split
  · trivial
  · trivial
  next team _ =>
  refine outline_readAsTeam (fun _ _ ↦ trivial) fun v' w₂ hv' hw₂ ↦ ?_
  dsimp only
  have hentries : ∀ entry ∈ (client.payload ⟨team.teamKeyVersion,
      v'.db.entries.filter (·.teamId = client.teamId), []⟩).entries,
      entry.Honest (team.teamKeyVersion + 1) := by
    intro entry hentry
    obtain ⟨row, hrow, rfl⟩ := mem_map.mp hentry
    have hv'Sound := sound_later hsound ((hv.trans hw₁).trans hv')
    exact hclient.honest _ row (hv'Sound.entries row (mem_of_mem_filter hrow)).1
  refine .readOnly fun _ w₃ _ _ ↦ .readOnly fun _ w₄ _ _ ↦ ?_
  refine outline_readAsTeam (fun _ _ ↦ trivial) fun _ w₅ _ _ ↦ ?_
  split
  · trivial
  · trivial
  split
  · trivial
  split
  · trivial
  refine .respond (outline_withTeamTenantRls fun _ _ _ ↦ ?_) fun _ _ ↦ trivial
  exact .mono (returns_rotationBody rfl) fun _ _ htrace ↦ commits_rotation htrace hentries

end Commits

/-- The requests that write team entries, by honest clients. -/
inductive EntryRequest
  | create (req : CreateRequest) (honest : req.material.Coherent)
  | update (req : UpdateRequest) (honest : req.Honest)
  | restore (req : RestoreRequest)
  | rotate (client : RotationClient) (honest : client.Honest)

/-- The program of a request. -/
def EntryRequest.serve : EntryRequest → Server (Except Refusal Unit)
  | .create req _ => createEntry req
  | .update req _ => updateEntry req
  | .restore req => restoreEntry req
  | .rotate client _ => rotateFromClient client

theorem outline_entryRequest (req : EntryRequest) (hsound : Sound initial w) :
    Respects (materialContract initial) req.serve w := by
  cases req with
  | create req honest => exact outline_createMaterial honest
  | update req honest => exact outline_updateMaterial honest hsound
  | restore req => exact outline_restoreMaterial hsound
  | rotate client honest => exact outline_rotateMaterial honest hsound

/-- Entries and history rows that can be decrypted. -/
structure CoherentStore where
  store : Store
  ids : entryTable.KeysUnique store
  entries : ∀ row ∈ store.entries, row.material.Coherent
  histories : ∀ row ∈ store.histories, row.material.Coherent

theorem CoherentStore.sound (start : CoherentStore) : Sound start.store ⟨start.store, []⟩ where
  ids := start.ids
  entries row hrow := by
    refine ⟨start.entries row hrow, ?_⟩
    have hfind : start.store.entries.find? (·.id = row.id) = some row := start.ids.find?_key hrow
    rw [lastContent, hfind]
    rfl
  histories := start.histories

theorem sound_run {ι : Type} [DecidableEq ι] (start : CoherentStore) (requests : ι → EntryRequest)
    {s : State ι Store Lock Event (Except Refusal Unit)}
    (hrun : Run Unchanged (State.start ⟨start.store, []⟩ fun i ↦ (requests i).serve) s) :
    Sound start.store s.world :=
  Run.invariant (c := materialContract start.store) (Sound start.store) hrun
    (fun i ↦ outline_entryRequest (requests i) start.sound) start.sound sound_preserved

/-- In every run of honest clients in which updates that keep the item key and rotations commit on
rows that are still as they were read, the versions in every row are those under which its blob and
its item key were made. -/
theorem material_coherent {ι : Type} [DecidableEq ι] (start : CoherentStore)
    (requests : ι → EntryRequest) {s : State ι Store Lock Event (Except Refusal Unit)}
    (hrun : Run Unchanged (State.start ⟨start.store, []⟩ fun i ↦ (requests i).serve) s) :
    ∀ row ∈ s.world.db.entries, row.material.Coherent :=
  fun row hrow ↦ ((sound_run start requests hrun).entries row hrow).1

/-- In the same runs every entry decrypts to the content of its last update or restore, rotations
notwithstanding. -/
theorem content_current {ι : Type} [DecidableEq ι] (start : CoherentStore)
    (requests : ι → EntryRequest) {s : State ι Store Lock Event (Except Refusal Unit)}
    (hrun : Run Unchanged (State.start ⟨start.store, []⟩ fun i ↦ (requests i).serve) s) :
    ∀ row ∈ s.world.db.entries, row.material.plaintext = lastContent start.store s.world.log row.id := by
  intro row hrow
  obtain ⟨hcoherent, hlast⟩ := (sound_run start requests hrun).entries row hrow
  rw [hcoherent.plaintext, hlast]

instance (entry : RotateEntry) (row : Material) : Decidable (entry.Fresh row) :=
  inferInstanceAs (Decidable (_ ∧ ite _ _ _))

instance (event : Event) (overlap : List Event) (w : World Store Event) : Decidable (Unchanged event overlap w) := by
  unfold Unchanged
  split <;> infer_instance

/-- An edit as `executeTeamEntrySubmit` makes it: under the item key of the row, or under a new one if
the row has none. -/
def editContent (content : String) (row : TeamPasswordEntry) : UpdateInput :=
  let blob (key : ItemKey) : FullUpdate :=
    ⟨⟨row.material.blob.data, .item key, content⟩, row.overview, 1, row.material.teamKeyVersion⟩
  match row.material.itemKeyVersion, row.material.itemKey with
  | version + 1, some wrapped =>
    ⟨some (blob wrapped.key), some (version + 1), none, nofun, none, none, none, none, none⟩
  | _, _ =>
    ⟨some (blob ⟨1, 9⟩), some 1, some ⟨row.material.blob.data, row.material.teamKeyVersion, ⟨1, 9⟩⟩,
      fun _ ↦ le_rfl, none, none, none, none, none⟩

theorem editContent_honest (content : String) {row : TeamPasswordEntry}
    (h : row.material.Coherent) : (editContent content row).Honest row.material := by
  unfold editContent
  split
  · next version wrapped hversion hitemKey =>
    obtain ⟨stored, hstored, -, hstoredVersion, -⟩ := h.item (by omega)
    obtain rfl := Option.mem_unique hitemKey hstored
    rintro full ⟨⟩
    exact ⟨wrapped, hitemKey, hstoredVersion.trans hversion, rfl⟩
  · rintro full ⟨⟩
    exact ⟨rfl, rfl, rfl⟩

/-- The rotation of team `1` as the client makes it: item keys are wrapped again, and what has none is
encrypted again. -/
def rotateTeamOne : RotationClient where
  teamId := 1
  reencrypt version row :=
    { id := row.id
      aadVersion := 1
      data := match row.material.itemKeyVersion, row.material.itemKey with
        | itemKeyVersion + 1, some wrapped =>
          .itemKey (itemKeyVersion + 1) { wrapped with teamKeyVersion := version }
        | _, _ => .legacy { row.material.blob with key := .team version } row.overview
      seen := row.material }
  wrapKey _ := ⟨"k", "i", "t", "p", "s", 1⟩

theorem rotateTeamOne_honest : rotateTeamOne.Honest where
  id _ _ := rfl
  seen _ _ := rfl
  honest version row h := by
    unfold RotateEntry.Honest rotateTeamOne
    dsimp only
    rcases hversion : row.material.itemKeyVersion with _ | itemKeyVersion
    · exact ⟨rfl, rfl, rfl⟩
    · obtain ⟨wrapped, hwrapped, -⟩ := h.item (by omega)
      simp [hwrapped]

/-- Entry `21` of team `1` with the given material. -/
def someEntry (material : Material) : TeamPasswordEntry :=
  ⟨21, 1, 1, material, ⟨"c", "i", "t"⟩, ⟨"LOGIN", 1, 1, none, [], false, false, none⟩⟩

def someBlob (key : BlobKey) (content : String) : TeamBlob := ⟨⟨"c", "i", "t"⟩, key, content⟩

def someItemKey : WrappedItemKey := ⟨⟨"c", "i", "t"⟩, 1, ⟨1, 5⟩⟩

/-- Team `1` with one owner, one entry and the history of the entry. -/
def teamWith (entry : Material) (histories : List Material) : Store where
  teams id := if id = 1 then some ⟨1, 1⟩ else none
  members := [⟨11, 1, 1, 1, .owner, true, none, false⟩]
  memberKeys := [⟨1, 1, 1, 1, rotateTeamOne.wrapKey 1⟩]
  invitations := []
  entries := [someEntry entry]
  histories := histories.map fun material ↦ ⟨31, 21, 1, material, 1, 0⟩
  folders := []
  tags := []
  tenantMembers := []
  ecdhPublicKeys _ := some "p"

def itemKeyTeam : CoherentStore where
  store := teamWith ⟨someBlob (.item ⟨1, 5⟩) "first", 1, 1, 1, some someItemKey⟩ []
  ids := by decide
  entries row hrow := by
    obtain rfl := mem_singleton.mp hrow
    exact ⟨nofun, fun _ ↦ ⟨someItemKey, rfl, rfl, rfl, rfl⟩⟩
  histories := nofun

/-- A team with an entry under the team key, and an older version of it. -/
def legacyTeam : CoherentStore where
  store := teamWith ⟨someBlob (.team 1) "second", 1, 1, 0, none⟩ [⟨someBlob (.team 1) "first", 1, 1, 0, none⟩]
  ids := by decide
  entries row hrow := by
    obtain rfl := mem_singleton.mp hrow
    exact ⟨fun _ ↦ rfl, nofun⟩
  histories row hrow := by
    obtain rfl := mem_singleton.mp hrow
    exact ⟨fun _ ↦ rfl, nofun⟩

def editAndRotate : Bool → EntryRequest
  | false => .update ⟨1, 21, 1, .owner, editContent "edited", ⟨32, 1, 1⟩⟩
      fun _ hrow ↦ editContent_honest "edited" hrow
  | true => .rotate rotateTeamOne rotateTeamOne_honest

def restoreAndRotate : Bool → EntryRequest
  | false => .restore ⟨1, 21, 31, 1, ⟨32, 1, 1⟩⟩
  | true => .rotate rotateTeamOne rotateTeamOne_honest

def entryStart (team : CoherentStore) (requests : Bool → EntryRequest) :
    State Bool Store Lock Event (Except Refusal Unit) :=
  State.start ⟨team.store, []⟩ fun i ↦ (requests i).serve

/-- A rotation that commits between the version check of an edit and its write: the edit puts the old
version beside the item key that the rotation has wrapped under the new one. -/
theorem material_not_coherent : ¬ ∀ (start : CoherentStore) (requests : Bool → EntryRequest)
      (s : State Bool Store Lock Event (Except Refusal Unit)),
      Run (fun _ _ _ ↦ True) (State.start ⟨start.store, []⟩ fun i ↦ (requests i).serve) s →
      ∀ row ∈ s.world.db.entries, row.material.Coherent := by
  intro h
  obtain ⟨s, hrun, row, hrow, hlost⟩ := Run.exists_of_schedule
    (entryStart itemKeyTeam editAndRotate)
    (fun w ↦ ∃ row ∈ w.db.entries, row.material.plaintext = none)
    [(11, false), (26, true), (7, false)]
  have hcoherent := h itemKeyTeam editAndRotate s hrun row hrow
  rw [hcoherent.plaintext] at hlost
  exact Option.some_ne_none _ hlost

/-- The condition can be met: the rotation follows the edit. -/
theorem material_coherent_edited :
    ∃ s : State Bool Store Lock Event (Except Refusal Unit), s.world.db.teams 1 = some ⟨1, 2⟩ ∧
      s.world.log.length = 2 ∧ ∀ row ∈ s.world.db.entries, row.material.Coherent := by
  obtain ⟨s, hrun, hteam, hlog⟩ := Run.exists_of_schedule (entryStart itemKeyTeam editAndRotate)
    (fun w ↦ w.db.teams 1 = some ⟨1, 2⟩ ∧ w.log.length = 2)
    [(18, false), (26, true)] Unchanged
  exact ⟨s, hteam, hlog, material_coherent itemKeyTeam editAndRotate hrun⟩

/-- A restore that commits after the client of a rotation has read the entries is undone by the
rotation. -/
theorem rotation_loses_restore : ¬ ∀ (start : CoherentStore) (requests : Bool → EntryRequest)
      (s : State Bool Store Lock Event (Except Refusal Unit)),
      Run (fun _ _ _ ↦ True) (State.start ⟨start.store, []⟩ fun i ↦ (requests i).serve) s →
      ∀ row ∈ s.world.db.entries, row.material.plaintext = lastContent start.store s.world.log row.id := by
  intro h
  obtain ⟨s, hrun, row, hrow, hlost⟩ := Run.exists_of_schedule
    (entryStart legacyTeam restoreAndRotate)
    (fun w ↦ ∃ row ∈ w.db.entries, row.material.plaintext ≠ lastContent legacyTeam.store w.log row.id)
    [(12, true), (16, false), (14, true)]
  exact hlost (h legacyTeam restoreAndRotate s hrun row hrow)

/-- The condition can be met: the client of the rotation reads the restored entry. -/
theorem content_current_restored :
    ∃ s : State Bool Store Lock Event (Except Refusal Unit), s.world.db.teams 1 = some ⟨1, 2⟩ ∧
      lastContent legacyTeam.store s.world.log 21 = some "first" ∧
      ∀ row ∈ s.world.db.entries, row.material.plaintext = lastContent legacyTeam.store s.world.log row.id := by
  obtain ⟨s, hrun, hteam, hlast⟩ := Run.exists_of_schedule (entryStart legacyTeam restoreAndRotate)
    (fun w ↦ w.db.teams 1 = some ⟨1, 2⟩ ∧ lastContent legacyTeam.store w.log 21 = some "first")
    [(16, false), (26, true)] Unchanged
  exact ⟨s, hteam, hlast, content_current legacyTeam restoreAndRotate hrun⟩

end PasswdSso.Team
