import PasswdSso.Vault.Outline

/-!
# What the wrapping routes commit

The routes that write wraps, mint vault keys or wipe the vault, over the part of the store that the
wraps live in: the wrap columns of a `users` row (`Wrapping`), the vault keys by version, and the PRF
wraps of the credentials (`Store.HasPrf`). `WrapEffect` says once what a commit of one of them does
to these and which locks it holds when it does; `wrapContract` makes it the contract of the sessions,
for any condition `allowed` on the commits of the run. The outlines show that the eight routes keep
it.
-/

namespace PasswdSso.Vault

open ReadCommitted List

/-- The columns of a `users` row that say which secret key the vault has and how it is wrapped. -/
structure Wrapping where
  setUp : Bool
  keyVersion : Nat
  passphrase : Option KeyMaterial
  recovery : Option KeyMaterial

/-- The wrap columns of a `users` row. -/
def User.wrapping (user : User) : Wrapping where
  setUp := user.vaultSetupAt.isSome
  keyVersion := user.keyVersion
  passphrase := user.passphraseWrap
  recovery := user.recoveryWrap

namespace Event

def subject : Event → Option Uuid
  | setup key _ => some key.userId
  | rewrapped userId _ _ _ => some userId
  | rotated key _ => some key.userId
  | reset userId => some userId
  | _ => none

def rewrite : Event → Wrapping → Wrapping
  | setup key wrap, s =>
    { s with setUp := true, keyVersion := key.version, passphrase := some wrap }
  | rewrapped _ _ passphrase recovery, s =>
    { s with passphrase := passphrase.or s.passphrase, recovery := recovery.or s.recovery }
  | rotated key wrap, s =>
    { s with keyVersion := key.version, passphrase := some wrap, recovery := none }
  | reset _, _ => ⟨false, 0, none, none⟩
  | _, s => s

def minted : Event → Option VaultKey
  | setup key _ => some key
  | rotated key _ => some key
  | _ => none

def onVaultKey (userId : Uuid) (version : Nat) (old : Option VaultKey) : Event → Option VaultKey
  | setup key _ => if key.userId = userId ∧ key.version = version then some key else old
  | rotated key _ => if key.userId = userId ∧ key.version = version then some key else old
  | reset target => if target = userId then none else old
  | _ => old

end Event

/-- What a commit does to the credentials. Their ids stay unique, their owners stay the same, and a
PRF wrap that is there afterwards was there before, unless the event wrote it. -/
structure CredentialEffect (held : Locks) (db : Store) (event : Event) (db' : Store) : Prop where
  ids : credentialTable.KeysUnique db → credentialTable.KeysUnique db'
  owners : ∀ row ∈ db'.credentials, (∃ old ∈ db.credentials, (old.id, old.userId) = (row.id, row.userId)) ∨
      (.credential row.id, .exclusive) ∈ held
  prf : ∀ userId id wrap, db'.HasPrf userId id wrap →
    (db.HasPrf userId id wrap ∧ ∀ key rotated, event = .rotated key rotated → key.userId ≠ userId) ∨
      ∃ checked, event = .prfWrapped userId checked wrap
  locked : ∀ userId checked wrap, event = .prfWrapped userId checked wrap →
    (.userKey userId, .share) ∈ held ∨ (.advisory userId, .exclusive) ∈ held

structure WrapEffect (held : Locks) (db : Store) (event : Event) (db' : Store) : Prop where
  users : ∀ userId, (db'.users userId).map User.wrapping = (db.users userId).map fun user ↦
    if event.subject = some userId then event.rewrite user.wrapping else user.wrapping
  vaultKeys : ∀ userId version,
    db'.vaultKey userId version = event.onVaultKey userId version (db.vaultKey userId version)
  fresh : ∀ key, event.minted = some key → db.vaultKey key.userId key.version = none
  first : ∀ key wrap, event = .setup key wrap → key.version = 1
  userLocked : ∀ userId, event.subject = some userId → (.user userId, .exclusive) ∈ held
  keyLocked : ∀ key, event.minted = some key → (.vaultKey (key.userId, key.version), .exclusive) ∈ held
  credentials : CredentialEffect held db event db'

section Lookup

variable {db db' : Store} {userId : Uuid} {version : Nat}

theorem exists_of_vaultKey_ne_none (h : db.vaultKey userId version ≠ none) :
    ∃ key ∈ db.vaultKeys, key.userId = userId ∧ key.version = version := by
  obtain ⟨key, hkey⟩ := Option.ne_none_iff_exists'.mp h
  exact ⟨key, mem_of_find?_and hkey⟩

theorem vaultKey_append {key : VaultKey} (hfree : db.vaultKey key.userId key.version = none) :
    (vaultKeyTable.append [key] db).vaultKey userId version =
      if key.userId = userId ∧ key.version = version then some key
      else db.vaultKey userId version := by
  have hrows : (vaultKeyTable.append [key] db).vaultKeys = db.vaultKeys ++ [key] := rfl
  unfold Store.vaultKey at hfree ⊢
  rw [hrows, find?_append]
  split_ifs with hkey
  · obtain ⟨rfl, rfl⟩ := hkey
    rw [hfree]
    simp
  · have hnone : [key].find? (fun key ↦ key.userId = userId && key.version = version) = none := by
      simpa using hkey
    rw [hnone, Option.or_none]

theorem vaultKey_remove {keys : List (Uuid × Nat)} : (vaultKeyTable.remove keys db).vaultKey userId version =
      if (userId, version) ∈ keys then none else db.vaultKey userId version := by
  change (vaultKeyTable.rows (vaultKeyTable.remove keys db)).find? _ = _
  rw [Table.rows_remove, find?_filter]
  split_ifs with hmem
  · simp only [find?_eq_none, Bool.and_eq_true, decide_eq_true_eq, not_and]
    rintro key - hkey rfl rfl
    exact hkey hmem
  · unfold Store.vaultKey
    congr 1
    funext key
    rw [Bool.eq_iff_iff]
    simp only [Bool.and_eq_true, decide_eq_true_eq, and_iff_right_iff_imp]
    rintro ⟨rfl, rfl⟩
    exact hmem

end Lookup

section Credentials

variable {held : Locks} {db db' : Store} {event : Event}

theorem CredentialEffect.of_eq (hrows : db'.credentials = db.credentials)
    (hrotated : ∀ key wrap, event ≠ .rotated key wrap)
    (hprf : ∀ userId checked wrap, event ≠ .prfWrapped userId checked wrap) :
    CredentialEffect held db event db' where
  ids h := h.congr hrows
  owners row hrow := .inl ⟨row, hrows ▸ hrow, rfl⟩
  prf userId id wrap h := by
    refine .inl ⟨?_, fun key rotated hevent ↦ absurd hevent (hrotated key rotated)⟩
    unfold Store.HasPrf at h ⊢
    rwa [hrows] at h
  locked userId checked wrap hevent := absurd hevent (hprf userId checked wrap)

theorem CredentialEffect.of_map {f : WebAuthnCredential → WebAuthnCredential}
    (hrows : db'.credentials = db.credentials.map f)
    (hkeeps : ∀ row, ((f row).id, (f row).userId) = (row.id, row.userId))
    (hprf : ∀ row ∈ db.credentials, ∀ wrap, (f row).prfWrap = some wrap → (row.prfWrap = some wrap ∧
        ∀ key rotated, event = .rotated key rotated → key.userId ≠ row.userId) ∨
        ∃ checked, event = .prfWrapped row.userId checked wrap)
    (hlocked : ∀ userId checked wrap, event = .prfWrapped userId checked wrap →
      (.userKey userId, .share) ∈ held ∨ (.advisory userId, .exclusive) ∈ held) :
    CredentialEffect held db event db' where
  ids h := by
    have hkeys : db'.credentials.map (·.id) = db.credentials.map (·.id) := by
      rw [hrows, map_map]
      exact map_congr_left fun row _ ↦ congrArg Prod.fst (hkeeps row)
    unfold Table.KeysUnique at h ⊢
    exact hkeys ▸ h
  owners row' hrow' := by
    rw [hrows] at hrow'
    obtain ⟨row, hrow, rfl⟩ := mem_map.mp hrow'
    exact .inl ⟨row, hrow, (hkeeps row).symm⟩
  prf userId id wrap h := by
    obtain ⟨row', hrow', rfl, rfl, hwrap⟩ := h
    rw [hrows] at hrow'
    obtain ⟨row, hrow, rfl⟩ := mem_map.mp hrow'
    obtain ⟨hid, huser⟩ := Prod.mk.inj (hkeeps row)
    rw [hid, huser]
    exact (hprf row hrow wrap hwrap).imp_left fun hold ↦ ⟨⟨row, hrow, rfl, rfl, hold.1⟩, hold.2⟩
  locked := hlocked

theorem CredentialEffect.trans {mid : Store} (h : CredentialEffect held db .other mid)
    (h' : CredentialEffect held mid event db') : CredentialEffect held db event db' where
  ids hids := h'.ids (h.ids hids)
  owners row hrow := by
    rcases h'.owners row hrow with ⟨between, hbetween, heq⟩ | hlock
    · rcases h.owners between hbetween with ⟨old, hold, heq'⟩ | hlock
      · exact .inl ⟨old, hold, heq'.trans heq⟩
      · exact .inr ((Prod.mk.inj heq).1 ▸ hlock)
    · exact .inr hlock
  prf userId id wrap hprf := by
    refine (h'.prf userId id wrap hprf).imp_left fun hbetween ↦ ?_
    rcases h.prf userId id wrap hbetween.1 with hold | ⟨checked, hevent⟩
    · exact ⟨hold.1, hbetween.2⟩
    · exact nomatch hevent
  locked := h'.locked

end Credentials

/-- The contract of the wrapping routes: commits are effects, in runs whose commits meet `allowed`. -/
def wrapContract (allowed : Event → List Event → World Store Event → Prop) : Contract Store Lock Event where
  allowed := allowed
  guarantee held w event db :=
    (∃ overlap, allowed event overlap w) ∧ WrapEffect held w.db event db

section Between

variable {allowed : Event → List Event → World Store Event → Prop} {held : Locks} {userId : Uuid}

theorem credentialOwners_claimed : (wrapContract allowed).Claims credentialTable
    (fun row ↦ (row.id, row.userId)) fun owner ↦ .credential owner.1 := by
  rintro theirs w event db ⟨-, heffect⟩
  exact heffect.credentials.owners

theorem credentialIds_claimed : (wrapContract allowed).Claims credentialTable WebAuthnCredential.id .credential := by
  intro theirs w event db hguarantee row hrow
  refine (credentialOwners_claimed theirs w event db hguarantee row hrow).imp_left ?_
  rintro ⟨old, hold, heq⟩
  exact ⟨old, hold, congrArg Prod.fst heq⟩

def UniqueCredentials (w : World Store Event) : Prop := credentialTable.KeysUnique w.db

theorem credentialIds_preserved : (wrapContract allowed).Preserves UniqueCredentials :=
  fun _ _ _ _ hids h ↦ h.2.credentials.ids hids

variable {w w' : World Store Event}

theorem later_credentialIds (h : (wrapContract allowed).Later held w w') (hids : UniqueCredentials w) :
    UniqueCredentials w' :=
  credentialIds_preserved.later hids h

theorem later_owner {id : Uuid} (h : (wrapContract allowed).Later held w w')
    (hlock : (.credential id, .exclusive) ∈ held)
    (howner : ∀ row ∈ w.db.credentials, row.id = id → row.userId = userId) :
    ∀ row ∈ w'.db.credentials, row.id = id → row.userId = userId := by
  rintro row hrow rfl
  by_contra hother
  refine credentialOwners_claimed.absent h hlock ?_ row hrow rfl
  intro old hold heq
  obtain ⟨hid, huser⟩ := Prod.mk.inj heq
  exact hother (huser ▸ howner old hold hid)

theorem prfWrapped_stable (req : RotateRequest) (condition : Uuid → Prop) :
    (wrapContract allowed).Stable req.locks fun w ↦ w.db.PrfWrapped req.userId condition := by
  rintro w event db theirs hcompatible ⟨-, heffect⟩ hold id wrap hprf
  rcases heffect.credentials.prf req.userId id wrap hprf with ⟨hbefore, -⟩ | ⟨checked, hevent⟩
  · exact hold id wrap hbefore
  rcases heffect.credentials.locked _ _ _ hevent with hlock | hlock
  · exact absurd hlock (hcompatible.not_mem (by simp [RotateRequest.locks]))
  · exact absurd hlock (hcompatible.not_mem (by simp [RotateRequest.locks]))

theorem vaultKey_free_stable {version : Nat} (hlock : (.vaultKey (userId, version), .exclusive) ∈ held) :
    (wrapContract allowed).Stable held fun w ↦ w.db.vaultKey userId version = none := by
  rintro w event db theirs hcompatible ⟨-, heffect⟩ hold
  have hminted (key : VaultKey) (hkey : event.minted = some key) :
      ¬ (key.userId = userId ∧ key.version = version) := by
    rintro ⟨rfl, rfl⟩
    exact hcompatible.not_mem hlock (heffect.keyLocked key hkey)
  rw [World.commit_db, heffect.vaultKeys, hold]
  cases event with
  | setup key wrap | rotated key wrap => exact if_neg (hminted key rfl)
  | reset target => exact ite_self none
  | _ => rfl

theorem vaultKeys_stable (hlock : (.user userId, .exclusive) ∈ held) (condition : Nat → Prop) :
    (wrapContract allowed).Stable held fun w ↦
      ∀ version, w.db.vaultKey userId version ≠ none → condition version := by
  rintro w event db theirs hcompatible ⟨-, heffect⟩ hold version hkey
  have hsubject : event.subject ≠ some userId := fun h ↦
    hcompatible.not_mem hlock (heffect.userLocked userId h)
  refine hold version fun hnone ↦ hkey ?_
  rw [World.commit_db, heffect.vaultKeys, hnone]
  cases event with
  | setup key wrap | rotated key wrap => exact if_neg fun h ↦ hsubject (congrArg some h.1)
  | reset target => exact ite_self none
  | _ => rfl

end Between

section Outlines

variable {allowed : Event → List Event → World Store Event → Prop} {stand : Stand Store Lock Event}
  {w : World Store Event} {α : Type} {event : Event} {userId : Uuid} {db : Store}

theorem commits_of_effect (h : ∀ w, (wrapContract allowed).Later stand.held stand.seen w →
      WrapEffect stand.held w.db event (stand.pending w.db)) :
    (wrapContract allowed).Commits stand event :=
  fun w hw hallowed ↦ ⟨⟨_, hallowed⟩, h w hw⟩

theorem outline_inTenant {label : α → Event} {body : Uuid → Server (Except Thrown α)} (hids : UniqueCredentials w)
    (hbody : ∀ tenantId w', UniqueCredentials w' → Earns (wrapContract allowed) (body tenantId) (.idle w') label) :
    Respects (wrapContract allowed) (withUserTenantRls userId label body) w :=
  outline_withUserTenantRls UniqueCredentials credentialIds_preserved hids hbody

variable {f : User → User} {env : Env} {tenantId : Uuid} {checked : Option VaultKey} {keys : List Uuid}
  {use : AssertionUse} {req : RebootstrapRequest} {now : Millis}

theorem wrapping_setUser {target : Uuid} (hsubject : event.subject = some target)
    (hf : ∀ user, (f user).wrapping = event.rewrite user.wrapping) (userId : Uuid) :
    ((db.setUser target f).users userId).map User.wrapping = (db.users userId).map fun user ↦
      if event.subject = some userId then event.rewrite user.wrapping else user.wrapping := by
  unfold Store.setUser
  by_cases huser : userId = target
  · subst huser
    simp [hsubject, Function.comp_def, hf]
  · have hother : ¬ target = userId := fun h ↦ huser h.symm
    simp [hsubject, huser, hother]

theorem returns_setupBody {req : SetupRequest} :
    Earns (wrapContract allowed) (setupBody env req tenantId) (.idle w)
      fun _ ↦ .setup (req.key tenantId) req.wrap := by
  unfold setupBody
  split
  · exact .error
  next verifierHmac _ =>
  refine .andThen returns_updateUser fun _ first hfirst ↦ ?_
  refine .mono returns_createVaultKey ?_
  rintro _ second ⟨hsecond, hfree⟩
  have hpending : second.pending = vaultKeyTable.append [req.key tenantId] ∘
      (Store.setUser · req.userId (req.user env verifierHmac)) := by
    rw [hsecond.pending, hfirst.pending]
    rfl
  rw [hfirst.pending] at hfree
  have hkeyLock := hsecond.locked
  refine commits_of_effect fun w' hw ↦ ?_
  have hfreeNow : w'.db.vaultKey req.userId 1 = none :=
    (vaultKey_free_stable hkeyLock).later hfree hw
  rw [hpending]
  exact
    { users := wrapping_setUser rfl fun _ ↦ rfl
      vaultKeys := fun userId version ↦ vaultKey_append hfreeNow
      fresh := by rintro key ⟨⟩; exact hfreeNow
      first := by rintro key wrap ⟨⟩; rfl
      userLocked := by
        rintro _ ⟨⟩
        exact hsecond.reaches.held (hfirst.locked)
      keyLocked := by rintro key ⟨⟩; exact hkeyLock
      credentials := .of_eq rfl nofun nofun }

theorem returns_rewrap {passphrase recovery : Option KeyMaterial}
    (hf : ∀ user, (f user).wrapping = (Event.rewrapped userId checked passphrase recovery).rewrite user.wrapping) :
    Earns (wrapContract allowed) (updateUser userId f) (.idle w)
      fun _ ↦ .rewrapped userId checked passphrase recovery := by
  refine .mono returns_updateUser fun _ after hstep ↦ commits_of_effect fun w' _ ↦ ?_
  rw [hstep.pending]
  exact
    { users := wrapping_setUser rfl hf
      vaultKeys := fun _ _ ↦ rfl
      fresh := nofun
      first := nofun
      userLocked := by
        rintro _ ⟨⟩
        exact hstep.locked
      keyLocked := nofun
      credentials := .of_eq rfl nofun nofun }

theorem commits_credentials (hsubject : event.subject = none) (husers : ∀ db, (stand.pending db).users = db.users)
    (hkeys : ∀ db, (stand.pending db).vaultKeys = db.vaultKeys)
    (h : ∀ w, (wrapContract allowed).Later stand.held stand.seen w →
      CredentialEffect stand.held w.db event (stand.pending w.db)) :
    (wrapContract allowed).Commits stand event := by
  have hminted : event.minted = none := by
    cases event <;> first | rfl | exact absurd hsubject (Option.some_ne_none _)
  refine commits_of_effect fun w hw ↦ ?_
  exact
    { users := fun userId ↦ by rw [husers, hsubject]; simp
      vaultKeys := fun userId version ↦ by
        simp only [Store.vaultKey, hkeys]
        cases event <;> first | rfl | exact absurd hsubject (Option.some_ne_none _)
      fresh := by simp [hminted]
      first := by rintro key wrap rfl; exact absurd hsubject (Option.some_ne_none _)
      userLocked := by simp [hsubject]
      keyLocked := by simp [hminted]
      credentials := h w hw }

theorem returns_createCredential {req : RegisterRequest} {info : RegistrationInfo} {prfSalt : Option String} :
    Earns (wrapContract allowed) (createCredential (req.credential tenantId info prfSalt))
      (.idle w) fun _ ↦ req.event checked := by
  refine .lockingRead fun first hfirst ↦ ?_
  split
  · refine Returns.insert fun second hsecond hfresh ↦ .ok ?_
    have hpending : second.pending = credentialTable.append [req.credential tenantId info prfSalt] := by
      rw [hsecond.pending, hfirst.pending]
      rfl
    have hsubject : (req.event checked).subject = none := by
      unfold RegisterRequest.event
      cases req.prf <;> rfl
    have hidLock : (.credential req.id, .exclusive) ∈ second.held :=
      hsecond.locked
    have hfree : ∀ row ∈ second.seen.db.credentials, row.id ≠ req.id := by
      intro row hrow hid
      rw [hfirst.pending, any_eq_false] at hfresh
      exact hfresh row hrow (by simpa using .inl hid)
    refine commits_credentials hsubject (fun _ ↦ by rw [hpending]; rfl)
      (fun _ ↦ by rw [hpending]; rfl) fun w' hw ↦ ?_
    rw [hpending]
    constructor
    · exact fun hunique ↦ hunique.append (credentialIds_claimed.absent hw hidLock hfree)
    · intro row hrow
      rcases mem_append.mp hrow with hold | hnew
      · exact .inl ⟨row, hold, rfl⟩
      · obtain rfl := mem_singleton.mp hnew
        exact .inr hidLock
    · rintro userId id wrap ⟨row, hrow, rfl, rfl, hwrap⟩
      rcases mem_append.mp hrow with hold | hnew
      · refine .inl ⟨⟨row, hold, rfl, rfl, hwrap⟩, fun key rotated hevent ↦ ?_⟩
        exact absurd ((congrArg Event.subject hevent).symm.trans hsubject) (Option.some_ne_none _)
      · obtain rfl := mem_singleton.mp hnew
        have hreq : req.prf = some wrap := hwrap
        exact .inr ⟨checked, by rw [RegisterRequest.event, hreq]; rfl⟩
    · intro userId checked' wrap hevent
      unfold RegisterRequest.event at hevent
      cases hreq : req.prf with
      | none => simp [hreq] at hevent
      | some _ =>
        simp only [hreq, Event.prfWrapped.injEq] at hevent
        obtain ⟨rfl, -, -⟩ := hevent
        exact .inl (hsecond.reaches.held (hfirst.locked))
  · exact .error

theorem returns_verifyAssertion {assertion : Assertion} :
    Outline (wrapContract allowed) (verifyAssertionAnyCredential userId assertion) stand
      fun _ after ↦ stand.Reaches (wrapContract allowed) after ∧ ∃ keys use,
        after.pending = credentialTable.modify keys (.advance use) ∘ stand.pending := by
  have hnothing : stand.pending = credentialTable.modify [] (.advance ⟨0, 0, none⟩) ∘ stand.pending := by
    rw [Table.modify_nil]
    rfl
  unfold verifyAssertionAnyCredential
  split
  · exact ⟨.refl _, [], ⟨0, 0, none⟩, hnothing⟩
  refine .read fun first hfirst ↦ ?_
  have hfirstNothing : first.pending =
      credentialTable.modify [] (.advance ⟨0, 0, none⟩) ∘ stand.pending := hfirst.pending.trans hnothing
  split
  · exact ⟨hfirst.reaches, [], ⟨0, 0, none⟩, hfirstNothing⟩
  split
  · exact ⟨hfirst.reaches, [], ⟨0, 0, none⟩, hfirstNothing⟩
  next counter _ =>
  refine .updateSome fun next keys count hreaches hpending ↦ ?_
  have hnext : next.pending = credentialTable.modify keys
      (.advance ⟨counter, assertion.now, assertion.device⟩) ∘ stand.pending := by
    rw [hpending, hfirst.pending]
    rfl
  split
  · exact ⟨hfirst.reaches.trans hreaches, keys, _, hnext⟩
  · exact ⟨hfirst.reaches.trans hreaches, keys, _, hnext⟩

theorem credentialEffect_advance {held : Locks} (keys : List Uuid) (use : AssertionUse) :
    CredentialEffect held db .other (credentialTable.modify keys (.advance use) db) := by
  refine .of_map rfl (fun row ↦ ?_) (fun row _ wrap hwrap ↦ .inl ⟨?_, nofun⟩) nofun
  · split_ifs <;> rfl
  · split_ifs at hwrap <;> exact hwrap

theorem commits_advance (hpending : stand.pending = credentialTable.modify keys (.advance use)) :
    (wrapContract allowed).Commits stand .other := by
  refine commits_credentials rfl (fun _ ↦ by rw [hpending]; rfl) (fun _ ↦ by rw [hpending]; rfl)
    fun w _ ↦ ?_
  rw [hpending]
  exact credentialEffect_advance keys use

theorem owner_advance {id : Uuid} (keys : List Uuid) (use : AssertionUse) :
    (∀ row ∈ (credentialTable.modify keys (.advance use) db).credentials, row.id = id → row.userId = userId) ↔
    ∀ row ∈ db.credentials, row.id = id → row.userId = userId := by
  refine forall_mem_map.trans (forall₂_congr fun row _ ↦ ?_)
  split_ifs <;> rfl

theorem returns_rebootstrapWrite {credentialId : String} (hids : UniqueCredentials stand.seen)
    (hlock : (.advisory req.userId, .exclusive) ∈ stand.held)
    (hpending : stand.pending = credentialTable.modify keys (.advance use)) :
    Earns (wrapContract allowed) (rebootstrapWrite req credentialId) stand req.event := by
  refine .read fun first hfirst ↦ ?_
  have hfirstPending : first.pending = credentialTable.modify keys (.advance use) :=
    hfirst.pending.trans hpending
  dsimp only
  split
  · refine .updateKey (fun next count hreaches hnext hrowLock hrow ↦ ?_) (fun _ _ _ ↦ .error) fun _ _ ↦ of_decide_and
    split
    · exact .error
    refine .ok ?_
    have hunique : credentialTable.KeysUnique (first.pending next.seen.db) := by
      rw [hfirstPending]
      exact (later_credentialIds hreaches.later (later_credentialIds hfirst.later hids)).modify fun _ ↦ rfl
    have howner : ∀ row ∈ next.seen.db.credentials, row.id = req.credentialRowId → row.userId = req.userId := by
      obtain ⟨-, row, hrow, hrowSel⟩ := hrow
      simp only [Bool.and_eq_true, decide_eq_true_eq] at hrowSel
      rw [← owner_advance keys use, ← hfirstPending]
      intro other hother hid
      rw [hunique.eq_of_key_eq hother hrow (hid.trans hrowSel.1.symm)]
      exact hrowSel.2
    have hnextPending : next.pending = credentialTable.modify [req.credentialRowId]
        (.rewrap req.wrap) ∘ credentialTable.modify keys (.advance use) := by
      rw [hnext, hfirstPending]
    refine commits_credentials rfl (fun _ ↦ by rw [hnextPending]; rfl)
      (fun _ ↦ by rw [hnextPending]; rfl) fun w hw ↦ ?_
    have hownerNow := (owner_advance keys use).mpr (later_owner hw hrowLock howner)
    rw [hnextPending]
    refine (credentialEffect_advance keys use).trans (.of_map rfl (fun row ↦ ?_) (fun row hrow wrap hwrap ↦ ?_) ?_)
    · split_ifs <;> rfl
    · split_ifs at hwrap with hid
      · obtain rfl := Option.some.inj hwrap
        exact .inr ⟨_, by rw [hownerNow row hrow (mem_singleton.mp hid)]; rfl⟩
      · exact .inl ⟨hwrap, nofun⟩
    · rintro _ _ _ ⟨⟩
      exact .inr (hreaches.held (hfirst.reaches.held hlock))
  · exact .ok (commits_advance hfirstPending)

theorem returns_rebootstrapBody {ownedCredentialId : String} (hids : UniqueCredentials w) :
    Earns (wrapContract allowed) (rebootstrapBody req ownedCredentialId) (.idle w) req.event := by
  refine .lockingRead fun first hfirst ↦ ?_
  refine outline_bind.mpr (.weaken returns_verifyAssertion ?_)
  rintro result asserted ⟨hreaches, keys, use, hpending⟩
  rw [hfirst.pending] at hpending
  split
  · exact .ok (commits_advance hpending)
  split
  · exact .ok (commits_advance hpending)
  · exact returns_rebootstrapWrite (later_credentialIds hreaches.later (later_credentialIds hfirst.later hids))
      (hreaches.held (hfirst.locked)) hpending

theorem returns_rotation {req : RotateRequest} {snapshot : RotationSnapshot} :
    Earns (wrapContract allowed) (applyVaultRotation env req snapshot) (.idle w)
      fun _ ↦ .rotated (req.key snapshot) req.wrap := by
  refine .mono (returns_applyVaultRotation rfl rfl) fun _ final htrace ↦ ?_
  obtain ⟨s, hs, hkeyLock, hkeyFree⟩ := htrace.keyFree
  obtain ⟨verifierHmac, cleared, grants, hpending, -, candidates, hcandidates, hcleared⟩ :=
    htrace.writes
  refine commits_of_effect fun w' hw ↦ ?_
  have hfree : w'.db.vaultKey req.userId snapshot.newKeyVersion = none :=
    (vaultKey_free_stable hkeyLock).later hkeyFree (hs.until hw)
  have hclearedNow (id : Uuid) (wrap : KeyMaterial) (h : w'.db.HasPrf req.userId id wrap) : id ∈ cleared :=
    hcleared.now (prfWrapped_stable req _) hw id wrap h (hcandidates.now (prfWrapped_stable req _) hw id wrap h)
  rw [hpending]
  exact
    { users := wrapping_setUser rfl fun _ ↦ rfl
      vaultKeys := fun userId version ↦ vaultKey_append hfree
      fresh := by rintro key ⟨⟩; exact hfree
      first := nofun
      userLocked := by
        rintro _ ⟨⟩
        exact htrace.locks (mem_cons_self ..)
      keyLocked := by rintro key ⟨⟩; exact hs.held hkeyLock
      credentials := by
        refine .of_map rfl (fun row ↦ ?_) (fun row hrow wrap hwrap ↦ .inl ?_) nofun
        · split_ifs <;> rfl
        · split_ifs at hwrap with hid
          · exact nomatch hwrap
          · refine ⟨hwrap, ?_⟩
            rintro key rotated ⟨⟩ huser
            exact hid (hclearedNow row.id wrap ⟨row, hrow, rfl, huser.symm, hwrap⟩) }

structure SameWraps (db db' : Store) : Prop where
  users : db'.users = db.users
  vaultKeys : db'.vaultKeys = db.vaultKeys
  credentials : db'.credentials = db.credentials

theorem SameWraps.trans {first second third : Store} (h : SameWraps first second)
    (h' : SameWraps second third) : SameWraps first third :=
  ⟨h'.users.trans h.users, h'.vaultKeys.trans h.vaultKeys, h'.credentials.trans h.credentials⟩

theorem sameWraps_put {K Row : Type} {t : Table Store K Row} {rows : Store → List Row} {before after : Store → Store}
    (h : after = (fun db ↦ t.put db (rows db)) ∘ before) (db : Store)
    (hput : ∀ db rows, SameWraps db (t.put db rows) := by exact fun _ _ ↦ ⟨rfl, rfl, rfl⟩) :
    SameWraps (before db) (after db) := by
  rw [h]
  exact hput _ _

/-- What a reset has done to the wraps before it wipes the user row: the vault keys of the user are
gone, and no other key is. -/
structure VaultDataDeleted (allowed : Event → List Event → World Store Event → Prop) (userId : Uuid)
    (stand next : Stand Store Lock Event) : Prop where
  reaches : stand.Reaches (wrapContract allowed) next
  users : ∀ db, (next.pending db).users = db.users
  credentials : ∀ db, (next.pending db).credentials = db.credentials
  vaultKeys : ∃ keys : List (Uuid × Nat),
    (∀ db, (next.pending db).vaultKeys = (vaultKeyTable.remove keys db).vaultKeys) ∧
    (∀ key ∈ keys, key.1 = userId) ∧ ∃ candidates : List (Uuid × Nat),
      (∃ s : Stand Store Lock Event, s.Reaches (wrapContract allowed) next ∧
        stand.held ⊆ s.held ∧ ∀ version, s.seen.db.vaultKey userId version ≠ none → (userId, version) ∈ candidates) ∧
      ∃ s : Stand Store Lock Event, s.Reaches (wrapContract allowed) next ∧
        stand.held ⊆ s.held ∧ ∀ version, s.seen.db.vaultKey userId version ≠ none →
          (userId, version) ∈ candidates → (userId, version) ∈ keys

theorem outline_deleteVaultData (hpending : stand.pending = id) :
    Outline (wrapContract allowed) (deleteVaultData userId now) stand fun _ next ↦
      VaultDataDeleted allowed userId stand next := by
  refine .deleteSome fun s₁ _ _ hs₁ hp₁ ↦ .deleteSome fun s₂ _ _ hs₂ hp₂ ↦
    Outline.deleteSome fun s₃ _ _ hs₃ hp₃ ↦ .write fun s₄ hs₄ ↦ ?_
  refine .deleteMany fun s₅ s₆ candidates keys hs₆ ↦ ?_
  refine .deleteSome fun s₇ _ _ hs₇ hp₇ ↦ .deleteSome fun s₈ _ _ hs₈ hp₈ ↦
    Outline.updateSome fun s₉ _ _ hs₉ hp₉ ↦ .deleteSome fun s₁₀ _ _ hs₁₀ hp₁₀ ↦
    Outline.updateSome fun s₁₁ _ _ hs₁₁ hp₁₁ ↦ ?_
  have hbefore : stand.Reaches (wrapContract allowed) s₄ :=
    ((hs₁.trans hs₂).trans hs₃).trans hs₄.reaches
  have hafter : s₆.Reaches (wrapContract allowed) s₁₁ :=
    (((hs₇.trans hs₈).trans hs₉).trans hs₁₀).trans hs₁₁
  have hcascade (db : Store) : SameWraps (s₃.pending db) (s₄.pending db) := by
    rw [hs₄.pending]
    exact ⟨rfl, rfl, rfl⟩
  have hwrites (db : Store) : SameWraps (stand.pending db) (s₄.pending db) :=
    (((sameWraps_put hp₁ db).trans (sameWraps_put hp₂ db)).trans (sameWraps_put hp₃ db)).trans (hcascade db)
  rw [hpending] at hwrites
  have hrest (db : Store) : SameWraps (s₆.pending db) (s₁₁.pending db) :=
    ((((sameWraps_put hp₇ db).trans (sameWraps_put hp₈ db)).trans (sameWraps_put hp₉ db)).trans
      (sameWraps_put hp₁₀ db)).trans (sameWraps_put hp₁₁ db)
  have hremove (db : Store) : s₆.pending db = vaultKeyTable.remove keys (s₄.pending db) := congrFun hs₆.pending db
  have hrows (db : Store) : vaultKeyTable.rows (s₄.pending db) = db.vaultKeys :=
    (hwrites db).vaultKeys
  have hseen (version : Nat) (h : s₅.seen.db.vaultKey userId version ≠ none) : (userId, version) ∈ candidates := by
    obtain ⟨key, hkey, rfl, rfl⟩ := exists_of_vaultKey_ne_none h
    rw [hs₆.candidates_eq, Table.mem_keysWhere, hrows]
    exact ⟨key, hkey, by simp, rfl⟩
  have hremoved (version : Nat) (h : s₆.seen.db.vaultKey userId version ≠ none)
      (hcandidate : (userId, version) ∈ candidates) : (userId, version) ∈ keys := by
    obtain ⟨key, hkey, rfl, rfl⟩ := exists_of_vaultKey_ne_none h
    rw [hs₆.keys_eq, Table.mem_matched]
    exact ⟨hcandidate, key, (hrows s₆.seen.db).symm ▸ hkey, by simp, rfl⟩
  have howned : ∀ key ∈ keys, key.1 = userId := by
    intro key hkey
    obtain ⟨row, -, hsel, rfl⟩ := hs₆.found hkey
    exact of_decide_eq_true hsel
  exact
    { reaches := (hbefore.trans hs₆.reaches).trans hafter
      users := fun db ↦ by
        rw [(hrest db).users, hremove]
        exact (hwrites db).users
      credentials := fun db ↦ by
        rw [(hrest db).credentials, hremove]
        exact (hwrites db).credentials
      vaultKeys := ⟨keys, fun db ↦ by
          rw [(hrest db).vaultKeys, hremove]
          exact congrArg (filter _) (hrows db), howned, candidates,
        ⟨s₅, hs₆.wrote.reaches.trans hafter, (hbefore.trans hs₆.read.reaches).held, hseen⟩,
        ⟨s₆, hafter, (hbefore.trans hs₆.reaches).held, hremoved⟩⟩ }

theorem returns_resetBody :
    Earns (wrapContract allowed) (resetBody userId now) (.idle w) fun _ ↦ .reset userId := by
  refine .lockingRead fun first hfirst ↦ ?_
  refine outline_bind.mpr (.weaken (outline_deleteVaultData hfirst.pending) ?_)
  rintro _ deleted hdeleted
  obtain ⟨keys, hkeys, howned, candidates, ⟨s, hs, hsHeld, hseen⟩, t, ht, htHeld, hremoved⟩ :=
    hdeleted.vaultKeys
  have hlock : (.user userId, .exclusive) ∈ first.held := hfirst.locked
  refine Returns.mono returns_updateUser fun _ final hfinal ↦ commits_of_effect fun w' hw ↦ ?_
  have hgone (version : Nat) (h : w'.db.vaultKey userId version ≠ none) : (userId, version) ∈ keys :=
    (vaultKeys_stable (htHeld hlock) _).later hremoved ((ht.trans hfinal.reaches).until hw) version h
      ((vaultKeys_stable (hsHeld hlock) _).later hseen ((hs.trans hfinal.reaches).until hw) version h)
  have hvaultKey (other : Uuid) (version : Nat) : (deleted.pending w'.db).vaultKey other version =
      if userId = other then none else w'.db.vaultKey other version := by
    have hremove : (deleted.pending w'.db).vaultKey other version =
        (vaultKeyTable.remove keys w'.db).vaultKey other version := by
      unfold Store.vaultKey
      rw [hkeys]
    rw [hremove, vaultKey_remove]
    by_cases hother : userId = other
    · subst hother
      rw [if_pos rfl, ite_eq_left_iff]
      exact fun hkept ↦ not_ne_iff.mp fun h ↦ hkept (hgone version h)
    · rw [if_neg hother, if_neg fun hmem ↦ hother (howned _ hmem).symm]
  rw [hfinal.pending]
  exact
    { users := fun other ↦ (wrapping_setUser rfl (fun _ ↦ rfl) other).trans
        (by rw [hdeleted.users])
      vaultKeys := hvaultKey
      fresh := nofun
      first := nofun
      userLocked := by
        rintro _ ⟨⟩
        exact hfinal.locked
      keyLocked := nofun
      credentials := .of_eq (hdeleted.credentials _) nofun nofun }

end Outlines

section Routes

variable {allowed : Event → List Event → World Store Event → Prop} {w : World Store Event}
  {env : Env}

theorem outline_setup (req : SetupRequest) (hids : UniqueCredentials w) :
    Respects (wrapContract allowed) (setup env req) w := by
  refine outline_readAsUser (fun _ _ ↦ trivial) fun v w' hv hw' ↦ ?_
  have hidsNow := later_credentialIds (hv.trans hw') hids
  split
  · trivial
  · trivial
  · split
    · trivial
    split
    · trivial
    · exact .respond (outline_inTenant hidsNow fun _ _ _ ↦ returns_setupBody) fun _ _ ↦ trivial

theorem outline_changePassphrase (req : ChangePassphraseRequest) (hids : UniqueCredentials w) :
    Respects (wrapContract allowed) (changePassphrase env req) w := by
  refine outline_readAsUser (fun _ _ ↦ trivial) fun v w' hv hw' ↦ ?_
  dsimp only
  split
  · trivial
  refine .respond (outline_inTenant (later_credentialIds (hv.trans hw') hids) fun _ _ _ ↦ ?_) fun result _ ↦ ?_
  · unfold changePassphraseBody
    split
    · exact .error
    · exact returns_rewrap fun _ ↦ rfl
  · cases result with
    | error thrown => trivial
    | ok _ => dsimp only; split <;> trivial

theorem outline_generateRecovery (req : GenerateRecoveryRequest) (hids : UniqueCredentials w) :
    Respects (wrapContract allowed) (generateRecovery env req) w := by
  refine outline_readAsUser (fun _ _ ↦ trivial) fun v w' hv hw' ↦ ?_
  dsimp only
  split
  · trivial
  refine .respond (outline_inTenant (later_credentialIds (hv.trans hw') hids) fun _ _ _ ↦ ?_) fun _ _ ↦ trivial
  unfold generateRecoveryBody
  split
  · exact .error
  · exact returns_rewrap fun _ ↦ rfl

theorem outline_recoverReset (req : RecoverRequest) (hids : UniqueCredentials w) :
    Respects (wrapContract allowed) (recoverReset env req) w := by
  refine outline_readAsUser (fun _ _ ↦ trivial) fun v w' hv hw' ↦ ?_
  dsimp only
  split
  · trivial
  refine .respond (.transaction credentialIds_preserved
    (later_credentialIds (hv.trans hw') hids) ?_ fun _ _ _ _ ↦ trivial) fun result _ ↦ ?_
  · unfold recoverBody
    split
    · exact returns_rewrap fun _ ↦ rfl
    · exact .error
  · cases result with
    | error thrown => trivial
    | ok _ => dsimp only; split <;> trivial

theorem outline_registerPasskey (req : RegisterRequest) (hids : UniqueCredentials w) :
    Respects (wrapContract allowed) (registerPasskey req) w := by
  unfold registerPasskey
  split
  · trivial
  refine outline_readAsUser (fun _ _ ↦ trivial) fun v w' hv hw' ↦ ?_
  split
  · trivial
  · trivial
  · trivial
  · split
    · trivial
    · exact .respond (outline_inTenant (later_credentialIds (hv.trans hw') hids)
        fun _ _ _ ↦ returns_createCredential) fun _ _ ↦ trivial

theorem outline_prfRebootstrap (req : RebootstrapRequest) (hids : UniqueCredentials w) :
    Respects (wrapContract allowed) (prfRebootstrap req) w := by
  refine outline_readAsUser (fun _ _ ↦ trivial) fun v w' hv hw' ↦ ?_
  split
  · trivial
  · trivial
  · exact .respond (outline_inTenant (later_credentialIds (hv.trans hw') hids)
      fun _ _ hnow ↦ returns_rebootstrapBody hnow) fun result _ ↦ by cases result <;> trivial

theorem outline_rotateKey (req : RotateRequest) (hids : UniqueCredentials w) :
    Respects (wrapContract allowed) (rotateKey env req) w := by
  refine outline_readAsUser (fun _ _ ↦ trivial) fun v w' hv hw' ↦ ?_
  dsimp only
  split
  · trivial
  · exact .respond (outline_inTenant (later_credentialIds (hv.trans hw') hids)
      fun _ _ _ ↦ returns_rotation) fun _ _ ↦ trivial

theorem outline_executeVaultReset (userId : Uuid) (now : Millis) (hids : UniqueCredentials w) :
    Respects (wrapContract allowed) (executeVaultReset userId now) w := by
  refine .readOnly fun v w' hv hw' ↦ ?_
  exact .respond (.transaction credentialIds_preserved
    (later_credentialIds (hv.trans hw') hids) returns_resetBody fun _ _ _ _ ↦ trivial)
    fun result _ ↦ by cases result <;> trivial

end Routes

end PasswdSso.Vault
