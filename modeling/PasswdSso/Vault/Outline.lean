import PasswdSso.Vault.Entries
import PasswdSso.Vault.Passkeys

/-!
# Proof outlines of the vault programs

The parts that several routes share, and the rotation, walked through once for any contract: what
each of them has read, locked and written when it returns. `RotationTrace` is the result for
`applyVaultRotation`.
-/

namespace PasswdSso.Vault

open ReadCommitted

abbrev Locks := List (Lock × Mode)

variable {c : Contract Store Lock Event} {stand : Stand Store Lock Event} {w : World Store Event}

section Shared

variable {α β : Type} {userId : Uuid}

theorem outline_withUserTenantRls {label : α → Event} {body : Uuid → Server (Except Thrown α)}
    (invariant : World Store Event → Prop) (hpreserved : c.Preserves invariant) (hw : invariant w)
    (hbody : ∀ tenantId w', invariant w' → Earns c (body tenantId) (.idle w') label) :
    Respects c (withUserTenantRls userId label body) w := by
  refine .readOnly fun v w' hv hw' ↦ ?_
  have hnow : invariant w' := hpreserved.later hw (hv.trans hw')
  split
  · trivial
  · exact .transaction hpreserved hnow (hbody _ w' hnow) fun _ _ _ _ ↦ trivial

theorem outline_readAsUser {f : Store → α} {k : Except Thrown α → Server β} {post : β → Stand Store Lock Event → Prop}
    (herror : ∀ thrown w', Outline c (k (.error thrown)) (.idle w') post)
    (hok : ∀ v w', c.Later [] w v → c.Later [] v w' → Outline c (k (.ok (f v.db))) (.idle w') post) :
    Outline c (readAsUser userId f >>= k) (.idle w) post := by
  rw [outline_bind]
  refine .readOnly fun v w' hv hw' ↦ ?_
  split
  · exact herror _ w'
  · exact .readOnly fun v' w'' hv' hw'' ↦ hok v' w'' ((hv.trans hw').trans hv') hw''

theorem returns_updateUser {f : User → User} : Returns c (updateUser userId f) stand fun _ next ↦
      stand.Step c next [(.user userId, .exclusive)] (Store.setUser · userId f) := by
  refine .write fun next hstep ↦ ?_
  split
  · exact .ok hstep
  · exact .error

theorem returns_createVaultKey {key : VaultKey} : Returns c (createVaultKey key) stand fun _ next ↦
      stand.Step c next [(.vaultKey (key.userId, key.version), .exclusive)] (vaultKeyTable.append [key]) ∧
      (stand.pending next.seen.db).vaultKey key.userId key.version = none := by
  refine Returns.insert fun next hstep hfresh ↦ ?_
  exact .ok ⟨hstep, Option.not_isSome_iff_eq_none.mp (by simp [hfresh])⟩

end Shared

section Rotation

variable {req : RotateRequest} {snapshot : RotationSnapshot}

def RotateRequest.locks (req : RotateRequest) : List (Lock × Mode) :=
  [(.user req.userId, .exclusive), (.userKey req.userId, .exclusive), (.advisory req.userId, .exclusive)]

theorem returns_lockUserForRotation (hpending : stand.pending = id) (hbegan : stand.began = none) :
    Returns c (lockUserForRotation req snapshot) stand fun _ next ↦
      next.pending = id ∧ req.locks ⊆ next.held ∧ snapshot.matches (next.seen.db.users req.userId) = true ∧
        ∃ log, next.began = some log ∧ log <:+ next.seen.log := by
  refine .lockingRead fun first hfirst ↦ .lockingRead fun next hnext ↦ ?_
  have hfirstPending := hfirst.pending.trans hpending
  have hview : first.pending next.seen.db = next.seen.db := by rw [hfirstPending]; rfl
  have hheld : req.locks ⊆ next.held := by
    rw [hnext.held, hfirst.held]
    intro lock hlock
    exact List.mem_append_left stand.held hlock
  split
  · next hmatches =>
    rw [hview] at hmatches
    refine .ok ⟨by rw [hnext.pending, hfirstPending]; rfl, hheld, hmatches, first.seen.log, ?_,
      hnext.later.log_suffix⟩
    rw [hnext.began, hfirst.began, hbegan]
    rfl
  · exact .error

/-- At an earlier stand under the locks of the rotation, `fact` held of the database. -/
def UnderLocks (c : Contract Store Lock Event) (req : RotateRequest)
    (final : Stand Store Lock Event) (fact : Store → Prop) : Prop :=
  ∃ s : Stand Store Lock Event, s.Reaches c final ∧ req.locks ⊆ s.held ∧ fact s.seen.db

variable {first second : Stand Store Lock Event} {fact : Store → Prop} {env : Env}

theorem UnderLocks.mono (h : UnderLocks c req first fact) (hreaches : first.Reaches c second) :
    UnderLocks c req second fact :=
  h.imp fun _ hs ↦ ⟨hs.1.trans hreaches, hs.2⟩

theorem UnderLocks.now {final : Stand Store Lock Event} (h : UnderLocks c req final fact)
    (hstable : c.Stable req.locks fun w ↦ fact w.db) (hw : c.Later final.held final.seen w) : fact w.db := by
  obtain ⟨s, hreaches, hlocks, hfact⟩ := h
  exact (hstable.mono hlocks).later hfact (hreaches.until hw)

def Store.Mode2 (db : Store) (userId : Uuid) (condition : Attachment → Prop) : Prop :=
  ∀ row ∈ db.attachments, db.ownsAttachment userId row = true → row.encryptionMode = 2 → condition row

def Store.HasPrf (db : Store) (userId id : Uuid) (wrap : KeyMaterial) : Prop :=
  ∃ row ∈ db.credentials, row.id = id ∧ row.userId = userId ∧ row.prfWrap = some wrap

def Store.PrfWrapped (db : Store) (userId : Uuid) (condition : Uuid → Prop) : Prop :=
  ∀ id wrap, db.HasPrf userId id wrap → condition id

structure RotationChecks (c : Contract Store Lock Event) (req : RotateRequest)
    (snapshot : RotationSnapshot) (final : Stand Store Lock Event) : Prop where
  locked : UnderLocks c req final fun db ↦ snapshot.matches (db.users req.userId) = true
  ceksPresent : UnderLocks c req final fun db ↦
    db.Mode2 req.userId fun row ↦ row.cekMissing = false
  entries : UnderLocks c req final fun db ↦
    idsMatch (req.entries.map EntryRotation.id) (db.entryIds req.userId) = true
  histories : UnderLocks c req final fun db ↦
    idsMatch (req.historyEntries.map HistoryRotation.id) (db.historyIds req.userId) = true

theorem RotationChecks.mono (h : RotationChecks c req snapshot first) (hreaches : first.Reaches c second) :
    RotationChecks c req snapshot second :=
  ⟨h.locked.mono hreaches, h.ceksPresent.mono hreaches, h.entries.mono hreaches, h.histories.mono hreaches⟩

/-- What the loop over `entries` makes of a row. -/
def rotatedEntry (newKeyVersion : Nat) (entries : List EntryRotation) : PasswordEntry → PasswordEntry :=
  entryTable.applyEach entries EntryRotation.id fun entry ↦ entry.apply newKeyVersion

/-- What the loop over `historyEntries` makes of a row. -/
def rotatedHistory (newKeyVersion : Nat) (histories : List HistoryRotation) : EntryHistory → EntryHistory :=
  historyTable.applyEach histories HistoryRotation.id fun history ↦ history.apply newKeyVersion

/-- What the loop over `attachmentCekRewraps` makes of a row. -/
def rewrappedAttachment (newKeyVersion : Nat) (rewraps : List CekRewrap) : Attachment → Attachment :=
  attachmentTable.applyEach rewraps CekRewrap.id fun rewrap ↦ rewrap.apply newKeyVersion

variable {userId : Uuid} {newKeyVersion : Nat}

theorem returns_rotateEntries (entries : List EntryRotation) :
    Returns c (rotateEntries userId newKeyVersion entries) stand fun _ next ↦
      stand.Reaches c next ∧ next.pending = (fun db ↦
        { db with entries := db.entries.map (rotatedEntry newKeyVersion entries) }) ∘
        stand.pending ∧ ∀ entry ∈ entries, (.entry entry.id, .exclusive) ∈ next.held :=
  .each entryTable Lock.entry rfl (fun _ _ _ _ ↦ .updateNext fun _ _ ↦ of_decide_and) entries

theorem returns_rotateHistories (histories : List HistoryRotation) :
    Returns c (rotateHistories userId newKeyVersion histories) stand fun _ next ↦
      stand.Reaches c next ∧ next.pending = (fun db ↦
        { db with histories := db.histories.map (rotatedHistory newKeyVersion histories) }) ∘
        stand.pending ∧ ∀ history ∈ histories, (.history history.id, .exclusive) ∈ next.held :=
  .each historyTable Lock.history rfl (fun _ _ _ _ ↦ .updateNext fun _ _ ↦ of_decide_and) histories

theorem returns_rewrapCeks {tenantId : Uuid} (rewraps : List CekRewrap) :
    Returns c (rewrapCeks userId tenantId newKeyVersion rewraps) stand fun _ next ↦
      stand.Reaches c next ∧ next.pending = (fun db ↦
        { db with attachments := db.attachments.map (rewrappedAttachment newKeyVersion rewraps) }) ∘
        stand.pending ∧ ∀ rewrap ∈ rewraps, (.attachment rewrap.id, .exclusive) ∈ next.held := by
  refine .each attachmentTable Lock.attachment rfl (fun rewrap rest stand post hrest ↦ ?_) rewraps
  rw [rewrapCeks]
  split
  · exact .error
  exact .updateNext (fun _ _ h ↦ of_decide_and (Bool.and_eq_true_iff.mp h).1) hrest

theorem returns_checkAttachments (hpending : stand.pending = id) (hlocks : req.locks ⊆ stand.held) :
    Returns c (checkAttachments req snapshot) stand fun _ next ↦
      stand.Reaches c next ∧ next.pending = id ∧ UnderLocks c req next fun db ↦
        db.Mode2 req.userId fun row ↦ row.cekMissing = false := by
  refine .read fun first hfirst ↦ ?_
  split
  · exact .error
  refine .read fun second hsecond ↦ ?_
  split
  · exact .error
  next hcount =>
  have hfirstPending := hfirst.pending.trans hpending
  have hguard : second.seen.db.Mode2 req.userId fun row ↦ row.cekMissing = false := by
    intro row hrow howns hmode
    simp only [hfirstPending, id, gt_iff_lt, not_lt, Nat.le_zero, List.countP_eq_zero] at hcount
    simpa [howns, hmode] using hcount row hrow
  have hlocksSecond : req.locks ⊆ second.held := fun lock hlock ↦
    hsecond.reaches.held (hfirst.reaches.held (hlocks hlock))
  refine .read fun third hthird ↦ ?_
  split
  · exact .error
  split
  · exact .error
  refine .ok ⟨(hfirst.reaches.trans hsecond.reaches).trans hthird.reaches, ?_, second,
    hthird.reaches, hlocksSecond, hguard⟩
  rw [hthird.pending, hsecond.pending, hfirstPending]
  rfl

theorem returns_checkCounts (hpending : stand.pending = id) (hlocks : req.locks ⊆ stand.held) :
    Returns c (checkCounts req) stand fun _ next ↦
      stand.Reaches c next ∧ next.pending = id ∧
      (UnderLocks c req next fun db ↦
        idsMatch (req.entries.map EntryRotation.id) (db.entryIds req.userId) = true) ∧
      UnderLocks c req next fun db ↦
        idsMatch (req.historyEntries.map HistoryRotation.id) (db.historyIds req.userId) = true := by
  refine .read fun first hfirst ↦ ?_
  split
  · next hentries =>
    refine .read fun second hsecond ↦ ?_
    have hfirstPending := hfirst.pending.trans hpending
    have hlocksFirst : req.locks ⊆ first.held := fun lock hlock ↦ hfirst.reaches.held (hlocks hlock)
    split
    · next hhistories =>
      rw [hpending] at hentries
      rw [hfirstPending] at hhistories
      exact .ok ⟨hfirst.reaches.trans hsecond.reaches, by rw [hsecond.pending, hfirstPending]; rfl,
        ⟨first, hsecond.reaches, hlocksFirst, hentries⟩,
        ⟨second, .refl _, fun lock hlock ↦ hsecond.reaches.held (hlocksFirst hlock), hhistories⟩⟩
    · exact .error
  · exact .error

theorem returns_rotateUser :
    Returns c (rotateUser env req snapshot) stand fun _ next ↦ stand.Reaches c next ∧
      (.vaultKey (req.userId, snapshot.newKeyVersion), .exclusive) ∈ next.held ∧
      (stand.pending next.seen.db).vaultKey req.userId snapshot.newKeyVersion = none ∧
      ∃ verifierHmac, next.pending = (fun db ↦ vaultKeyTable.append [req.key snapshot]
        (db.setUser req.userId (req.user snapshot verifierHmac))) ∘ stand.pending := by
  refine .read fun first hfirst ↦ ?_
  split
  · exact .error
  next verifierHmac _ =>
  refine Returns.andThen returns_updateUser fun _ second hsecond ↦ ?_
  rw [Returns, outline_bind]
  refine .weaken returns_createVaultKey ?_
  rintro (thrown | _) third hcreated
  · exact .error
  obtain ⟨hthird, hfree⟩ := hcreated () rfl
  rw [hsecond.pending, hfirst.pending] at hfree
  refine .ok ⟨(hfirst.reaches.trans hsecond.reaches).trans hthird.reaches,
    hthird.locked, hfree, verifierHmac, ?_⟩
  rw [hthird.pending, hsecond.pending, hfirst.pending]
  rfl

/-- `SET status = STALE, owner_ephemeral_public_key = null`. -/
def EmergencyGrant.markStale (row : EmergencyGrant) : EmergencyGrant :=
  { row with status := .stale, ownerEphemeralPublicKey := none }

/-- What `markGrantsStaleForOwner` selects. -/
def EmergencyGrant.outdated (ownerId : Uuid) (newKeyVersion : Nat) (row : EmergencyGrant) : Bool :=
  (row.ownerId = ownerId && row.keyVersion.all (· < newKeyVersion)) && .system ∈ eaMatrix row.status .stale

/-- `grants` are the outdated grants of the user, by a snapshot and once more under their locks. -/
def GrantsMarked (c : Contract Store Lock Event) (req : RotateRequest) (snapshot : RotationSnapshot)
    (view : Store → Store) (stand final : Stand Store Lock Event) (grants : List Uuid) : Prop :=
  (∀ id ∈ grants, (.grant id, .exclusive) ∈ final.held) ∧
    ∃ s s' : Stand Store Lock Event, stand.Reaches c s ∧ s.Reaches c s' ∧ s'.Reaches c final ∧
      grants = grantTable.matched (EmergencyGrant.outdated req.userId snapshot.newKeyVersion)
        (grantTable.keysWhere (EmergencyGrant.outdated req.userId snapshot.newKeyVersion) (view s.seen.db))
        (view s'.seen.db)

/-- The last part of a rotation: it clears the PRF wraps that it has seen, marks grants as stale, and
sees no attachment key of another version. -/
structure RotationFinished (c : Contract Store Lock Event) (req : RotateRequest)
    (snapshot : RotationSnapshot) (stand final : Stand Store Lock Event) (cleared grants : List Uuid) :
    Prop where
  reaches : stand.Reaches c final
  pending : final.pending = grantTable.modify grants .markStale ∘
    credentialTable.modify cleared .clearPrf ∘ stand.pending
  prf : ∃ candidates : List Uuid, (∃ s : Stand Store Lock Event, s.Reaches c final ∧ stand.held ⊆ s.held ∧
      (stand.pending s.seen.db).PrfWrapped req.userId fun id ↦ id ∈ candidates) ∧
    ∃ s : Stand Store Lock Event, s.Reaches c final ∧ stand.held ⊆ s.held ∧
      (stand.pending s.seen.db).PrfWrapped req.userId fun id ↦ id ∈ candidates → id ∈ cleared
  marked : GrantsMarked c req snapshot stand.pending stand final grants
  noStale : (final.pending final.seen.db).Mode2 req.userId fun row ↦
    row.cekKeyVersion.any (· ≠ snapshot.newKeyVersion) = false

theorem returns_finishRotation {recoveryKeyInvalidated : Bool} :
    Returns c (finishRotation req snapshot recoveryKeyInvalidated) stand fun _ final ↦
      ∃ cleared grants, RotationFinished c req snapshot stand final cleared grants := by
  refine .updateMany fun first second candidates cleared hsecond ↦ ?_
  refine .updateMany fun third fourth outdated grants hfourth ↦ ?_
  refine .read fun final hfinal ↦ ?_
  have hpending : fourth.pending = grantTable.modify grants .markStale ∘
      credentialTable.modify cleared .clearPrf ∘ stand.pending := by
    rw [hfourth.pending, hsecond.pending]
    rfl
  have hrest : second.Reaches c final := hfourth.reaches.trans hfinal.reaches
  split
  · exact .error
  next hcount =>
  refine .ok ⟨cleared, grants, hsecond.reaches.trans hrest, hfinal.pending.trans hpending,
    ⟨candidates, ⟨first, hsecond.wrote.reaches.trans hrest, hsecond.read.reaches.held, ?_⟩, second, hrest,
      hsecond.reaches.held, ?_⟩,
    ⟨fun id hid ↦ hfinal.reaches.held (hfourth.mem_held hid), third, fourth,
      hsecond.reaches.trans hfourth.read.reaches, hfourth.wrote.reaches, hfinal.reaches, ?_⟩, ?_⟩
  · rintro id wrap ⟨row, hrow, rfl, huser, hwrap⟩
    rw [hsecond.candidates_eq, Table.mem_keysWhere]
    exact ⟨row, hrow, by simp [huser, hwrap], rfl⟩
  · rintro id wrap ⟨row, hrow, rfl, huser, hwrap⟩ hcandidate
    rw [hsecond.keys_eq, Table.mem_matched]
    exact ⟨hcandidate, row, hrow, by simp [huser, hwrap], rfl⟩
  · rw [hfourth.keys_eq, hfourth.candidates_eq, hsecond.pending]
    rfl
  · intro row hrow howns hmode
    have hsame : final.pending = fourth.pending := hfinal.pending
    rw [hsame] at hrow howns
    simp only [gt_iff_lt, not_lt, Nat.le_zero, List.countP_eq_zero] at hcount
    simpa only [howns, hmode, decide_true, Bool.and_self, Bool.true_and, Bool.not_eq_true] using hcount row hrow

def RotateRequest.write (req : RotateRequest) (snapshot : RotationSnapshot)
    (verifierHmac : Option String) (cleared grants : List Uuid) (db : Store) : Store :=
  { db with
    users := Function.update db.users req.userId ((db.users req.userId).map (req.user snapshot verifierHmac))
    vaultKeys := db.vaultKeys ++ [req.key snapshot]
    credentials := db.credentials.map fun row ↦ if row.id ∈ cleared then row.clearPrf else row
    entries := db.entries.map (rotatedEntry snapshot.newKeyVersion req.entries)
    histories := db.histories.map (rotatedHistory snapshot.newKeyVersion req.historyEntries)
    attachments :=
      db.attachments.map (rewrappedAttachment snapshot.newKeyVersion req.attachmentCekRewraps)
    grants := db.grants.map fun row ↦ if row.id ∈ grants then row.markStale else row }

structure RotationTrace (c : Contract Store Lock Event) (req : RotateRequest)
    (snapshot : RotationSnapshot) (final : Stand Store Lock Event) : Prop
    extends RotationChecks c req snapshot final where
  locks : req.locks ⊆ final.held
  entryLocks : ∀ entry ∈ req.entries, (.entry entry.id, .exclusive) ∈ final.held
  keyFree : ∃ s : Stand Store Lock Event, s.Reaches c final ∧
    (.vaultKey (req.userId, snapshot.newKeyVersion), .exclusive) ∈ s.held ∧
    s.seen.db.vaultKey req.userId snapshot.newKeyVersion = none
  writes : ∃ verifierHmac cleared grants, final.pending = req.write snapshot verifierHmac cleared grants ∧
      (∃ s : Stand Store Lock Event, req.locks ⊆ s.held ∧ (∃ log, s.began = some log ∧ log <:+ s.seen.log) ∧
        GrantsMarked c req snapshot id s final grants) ∧ ∃ candidates : List Uuid,
      (UnderLocks c req final fun db ↦
        db.PrfWrapped req.userId fun id ↦ id ∈ candidates) ∧
      UnderLocks c req final fun db ↦
        db.PrfWrapped req.userId fun id ↦ id ∈ candidates → id ∈ cleared
  noStale : (final.pending final.seen.db).Mode2 req.userId fun row ↦
    row.cekKeyVersion.any (· ≠ snapshot.newKeyVersion) = false

theorem returns_applyVaultRotation (hpending : stand.pending = id) (hbegan : stand.began = none) :
    Returns c (applyVaultRotation env req snapshot) stand fun _ final ↦
      RotationTrace c req snapshot final := by
  refine .andThen (returns_lockUserForRotation hpending hbegan) ?_
  rintro _ locked ⟨hlockedPending, hlocks, hmatches, hbeganLocked⟩
  refine .andThen (returns_checkAttachments hlockedPending hlocks) ?_
  rintro _ attachments ⟨hattachments, hattachmentsPending, hceksPresent⟩
  refine .andThen (returns_checkCounts hattachmentsPending fun _ hlock ↦ hattachments.held (hlocks hlock)) ?_
  rintro _ counted ⟨hcounted, hcountedPending, hentries, hhistories⟩
  have hchecks : RotationChecks c req snapshot counted :=
    ⟨⟨locked, hattachments.trans hcounted, hlocks, hmatches⟩, hceksPresent.mono hcounted, hentries, hhistories⟩
  refine .andThen (returns_rotateEntries req.entries) ?_
  rintro _ entries ⟨hentriesReaches, hentriesPending, hentryLocks⟩
  refine .andThen (returns_rotateHistories req.historyEntries) ?_
  rintro _ histories ⟨hhistoriesReaches, hhistoriesPending, -⟩
  refine .andThen (returns_rewrapCeks req.attachmentCekRewraps) ?_
  rintro _ ceks ⟨hceksReaches, hceksPending, -⟩
  rw [hhistoriesPending, hentriesPending, hcountedPending] at hceksPending
  refine .andThen returns_rotateUser ?_
  rintro _ user ⟨huserReaches, hkeyLock, hkeyFree, verifierHmac, huserPending⟩
  rw [hceksPending] at hkeyFree huserPending
  have hcountedUser : counted.Reaches c user :=
    ((hentriesReaches.trans hhistoriesReaches).trans hceksReaches).trans huserReaches
  have huserLocks : req.locks ⊆ user.held := fun _ hlock ↦
    hcountedUser.held (hcounted.held (hattachments.held (hlocks hlock)))
  refine .mono returns_finishRotation ?_
  rintro _ final ⟨cleared, grants, hfinished⟩
  have hpendingFinal := hfinished.pending
  obtain ⟨candidates, ⟨first, hfirst, hfirstHeld, hcandidates⟩, second, hsecond, hsecondHeld,
    hcleared⟩ := hfinished.prf
  obtain ⟨hgrantLocks, s, s', hs, hs', hlast, hgrants⟩ := hfinished.marked
  rw [huserPending] at hpendingFinal hcandidates hcleared hgrants
  have hlockedUser : locked.Reaches c user := (hattachments.trans hcounted).trans hcountedUser
  exact
    { toRotationChecks := hchecks.mono (hcountedUser.trans hfinished.reaches)
      locks := fun _ hlock ↦ hfinished.reaches.held (huserLocks hlock)
      entryLocks := fun entry hentry ↦ hfinished.reaches.held (huserReaches.held
        (hceksReaches.held (hhistoriesReaches.held (hentryLocks entry hentry))))
      keyFree := ⟨user, hfinished.reaches, hkeyLock, hkeyFree⟩
      writes := ⟨verifierHmac, cleared, grants, hpendingFinal,
        ⟨locked, hlocks, hbeganLocked, hgrantLocks, s, s', hlockedUser.trans hs, hs', hlast, hgrants⟩,
        candidates,
        ⟨first, hfirst, fun _ hlock ↦ hfirstHeld (huserLocks hlock), hcandidates⟩,
        ⟨second, hsecond, fun _ hlock ↦ hsecondHeld (huserLocks hlock), hcleared⟩⟩
      noStale := hfinished.noStale }

end Rotation

end PasswdSso.Vault
