import PasswdSso.Vault.WrapContract

/-!
# Coherence of the wraps

The passphrase wrap, the recovery wrap and the PRF wraps of a vault should all unwrap to the secret
key of `users.keyVersion`. Clients submit wraps of the key that is current when the route checks
their request, but the routes write after the check, and a reset leaves the PRF wraps of the old
vault behind, which the next setup inherits (`wraps_not_coherent`). The wraps stay coherent in every
run in which the key that a route checked against is still current when it commits, and no setup
commits for a user who has a PRF wrap left (`wraps_coherent`).
-/

namespace PasswdSso.Vault

open ReadCommitted

def VaultKey.Opens (key : VaultKey) (wrap : KeyMaterial) : Prop :=
  wrap.secretKey = key.verification.secretKey

/-- If the vault is set up, then its passphrase wrap, its recovery wrap and all PRF wraps of its
credentials unwrap to the secret key of `users.keyVersion`. -/
def Store.Coherent (db : Store) (userId : Uuid) : Prop :=
  ∀ user, db.users userId = some user → user.vaultSetupAt ≠ none →
    ∃ key, db.vaultKey userId user.keyVersion = some key ∧
      (∃ wrap, user.passphraseWrap = some wrap ∧ key.Opens wrap) ∧
      (∀ wrap, user.recoveryWrap = some wrap → key.Opens wrap) ∧
      ∀ row ∈ db.credentials, row.userId = userId → ∀ wrap, row.prfWrap = some wrap → key.Opens wrap

def OpensChecked (checked : Option VaultKey) (wrap : KeyMaterial) : Prop :=
  checked.map (·.verification.secretKey) = some wrap.secretKey

instance (checked : Option VaultKey) (wrap : KeyMaterial) : Decidable (OpensChecked checked wrap) :=
  inferInstanceAs (Decidable (_ = _))

/-- Honest clients: a new key comes with its wrap, and the wraps of an existing key are wraps of the
one that was current when the route read the user row for its check. -/
def Event.Honest : Event → Prop
  | .setup key wrap => key.Opens wrap
  | .rotated key wrap => key.Opens wrap
  | .rewrapped _ checked passphrase recovery =>
    ∀ wrap ∈ passphrase.toList ++ recovery.toList, OpensChecked checked wrap
  | .prfWrapped _ checked wrap => OpensChecked checked wrap
  | _ => True

instance (event : Event) : Decidable event.Honest := by
  induction event using Event.casesOn <;> dsimp only [Event.Honest, VaultKey.Opens] <;> infer_instance

/-- The condition on a commit: the key that the route checked against is still current, and a setup
finds no PRF wrap of the user. -/
def Event.Current (db : Store) : Event → Prop
  | .setup key _ => ∀ row ∈ db.credentials, row.userId = key.userId → row.prfWrap = none
  | .rewrapped userId checked _ _ => db.currentKey userId = checked
  | .prfWrapped userId checked _ => db.currentKey userId = checked
  | _ => True

instance (db : Store) (event : Event) : Decidable (event.Current db) := by
  induction event using Event.casesOn <;> dsimp only [Event.Current] <;> infer_instance

/-- Honest clients, and commits that meet the condition. -/
def HonestAndCurrent (event : Event) (_ : List Event) (w : World Store Event) : Prop :=
  event.Honest ∧ event.Current w.db

instance (event : Event) (overlap : List Event) (w : World Store Event) :
    Decidable (HonestAndCurrent event overlap w) :=
  inferInstanceAs (Decidable (_ ∧ _))

section Invariant

/-- What is known of the wrap columns of a user, given the vault keys by version and the PRF wraps.
Beside coherence: the first version of the key stays, and a vault that is not set up has no recovery
wrap. -/
structure Wrapping.Sound (s : Wrapping) (keys : Nat → Option VaultKey) (prf : KeyMaterial → Prop) :
    Prop where
  coherent : s.setUp = true → ∃ key, keys s.keyVersion = some key ∧
    (∃ wrap, s.passphrase = some wrap ∧ key.Opens wrap) ∧
    (∀ wrap, s.recovery = some wrap → key.Opens wrap) ∧ ∀ wrap, prf wrap → key.Opens wrap
  firstKey : s.setUp = true → keys 1 ≠ none
  noRecovery : s.setUp = false → s.recovery = none

/-- The invariant of the store for one user. -/
def Store.Sound (db : Store) (userId : Uuid) : Prop :=
  ∀ user, db.users userId = some user →
    user.wrapping.Sound (db.vaultKey userId) fun wrap ↦ ∃ id, db.HasPrf userId id wrap

theorem Store.Sound.coherent {db : Store} {userId : Uuid} (h : db.Sound userId) : db.Coherent userId := by
  intro user huser hsetUp
  obtain ⟨key, hkey, hpassphrase, hrecovery, hprf⟩ :=
    (h user huser).coherent (Option.isSome_iff_ne_none.mpr hsetUp)
  refine ⟨key, hkey, hpassphrase, hrecovery, fun row hrow hrowUser wrap hwrap ↦ ?_⟩
  exact hprf wrap ⟨row.id, row, hrow, rfl, hrowUser, hwrap⟩

variable {keys keys' : Nat → Option VaultKey} {prf prf' : KeyMaterial → Prop} {s : Wrapping}

theorem Wrapping.Sound.mono (h : s.Sound keys prf) (hprf : ∀ wrap, prf' wrap → prf wrap) : s.Sound keys prf' where
  coherent hsetUp := by
    obtain ⟨key, hkey, hpassphrase, hrecovery, hold⟩ := h.coherent hsetUp
    exact ⟨key, hkey, hpassphrase, hrecovery, fun wrap hwrap ↦ hold wrap (hprf wrap hwrap)⟩
  firstKey := h.firstKey
  noRecovery := h.noRecovery

theorem Wrapping.Sound.addPrf {key : VaultKey} {new : KeyMaterial} (h : s.Sound keys prf)
    (hkey : keys s.keyVersion = some key) (hopens : key.Opens new)
    (hprf : ∀ wrap, prf' wrap → prf wrap ∨ wrap = new) : s.Sound keys prf' where
  coherent hsetUp := by
    obtain ⟨current, hcurrent, hpassphrase, hrecovery, hold⟩ := h.coherent hsetUp
    refine ⟨current, hcurrent, hpassphrase, hrecovery, fun wrap hwrap ↦ ?_⟩
    rcases hprf wrap hwrap with hbefore | rfl
    · exact hold wrap hbefore
    · obtain rfl := Option.mem_unique hkey hcurrent
      exact hopens
  firstKey := h.firstKey
  noRecovery := h.noRecovery

theorem Wrapping.Sound.rewrapped {userId : Uuid} {checked : Option VaultKey}
    {passphrase recovery : Option KeyMaterial} (h : s.Sound keys prf)
    (hnew : ∀ wrap ∈ passphrase.toList ++ recovery.toList, s.setUp = true ∧
      ∃ key, keys s.keyVersion = some key ∧ key.Opens wrap) :
    ((Event.rewrapped userId checked passphrase recovery).rewrite s).Sound keys prf where
  coherent hsetUp := by
    obtain ⟨current, hcurrent, ⟨wrap, hwrap, hwrapOpens⟩, hrecovery, hprf⟩ := h.coherent hsetUp
    have hopens (new : KeyMaterial) (hmem : new ∈ passphrase.toList ++ recovery.toList) : current.Opens new := by
      obtain ⟨-, key, hkey, hopens⟩ := hnew new hmem
      rwa [← Option.mem_unique hkey hcurrent]
    refine ⟨current, hcurrent, ?_, ?_, hprf⟩
    · cases passphrase with
      | none => exact ⟨wrap, hwrap, hwrapOpens⟩
      | some new => exact ⟨new, rfl, hopens new (by simp)⟩
    · intro wrap' hwrap'
      cases recovery with
      | none => exact hrecovery wrap' hwrap'
      | some new =>
        obtain rfl := Option.some.inj hwrap'
        exact hopens new (by simp)
  firstKey := h.firstKey
  noRecovery hnot := by
    cases recovery with
    | none => exact h.noRecovery hnot
    | some new => exact absurd (hnew new (by simp)).1 (Bool.eq_false_iff.mp hnot)

theorem Wrapping.Sound.newKey {key : VaultKey} {wrap : KeyMaterial} (hkey : keys s.keyVersion = some key)
    (hpassphrase : s.passphrase = some wrap) (hopens : key.Opens wrap) (hrecovery : s.recovery = none)
    (hprf : ∀ wrap, ¬ prf wrap) (hfirst : s.setUp = true → keys 1 ≠ none) : s.Sound keys prf where
  coherent _ := ⟨key, hkey, ⟨wrap, hpassphrase, hopens⟩, by simp [hrecovery],
    fun wrap hwrap ↦ absurd hwrap (hprf wrap)⟩
  firstKey := hfirst
  noRecovery _ := hrecovery

end Invariant

section Preservation

variable {held : Locks} {db db' : Store} {event : Event} {userId : Uuid} {user : User} {key : VaultKey}
  {wrap : KeyMaterial}

theorem key_of_currentKey (hcurrent : db.currentKey userId = some key) (huser : db.users userId = some user) :
    user.wrapping.setUp = true ∧ db.vaultKey userId user.wrapping.keyVersion = some key := by
  rw [Store.currentKey, huser, Option.bind_some] at hcurrent
  split_ifs at hcurrent with hsetUp
  exact ⟨hsetUp, hcurrent⟩

theorem exists_of_opensChecked {checked : Option VaultKey} (h : OpensChecked checked wrap) :
    ∃ key, checked = some key ∧ key.Opens wrap := by
  obtain ⟨key, hkey, hsecret⟩ := Option.map_eq_some_iff.mp h
  exact ⟨key, hkey, hsecret.symm⟩

theorem onVaultKey_of_not_subject (hsubject : event.subject ≠ some userId) (version : Nat)
    (old : Option VaultKey) : event.onVaultKey userId version old = old := by
  cases event with
  | setup key wrap | rotated key wrap => exact if_neg fun h ↦ hsubject (congrArg some h.1)
  | reset target => exact if_neg fun h ↦ hsubject (congrArg some h)
  | _ => rfl

theorem WrapEffect.hasPrf_before (h : WrapEffect held db event db')
    (hevent : ∀ checked wrap, event ≠ .prfWrapped userId checked wrap) (hprf : ∃ id, db'.HasPrf userId id wrap) :
    ∃ id, db.HasPrf userId id wrap := by
  obtain ⟨id, hid⟩ := hprf
  rcases h.credentials.prf userId id wrap hid with ⟨hold, -⟩ | ⟨checked, heq⟩
  · exact ⟨id, hold⟩
  · exact absurd heq (hevent checked wrap)

theorem WrapEffect.sound_of_not_subject (h : WrapEffect held db event db')
    (hold : user.wrapping.Sound (db.vaultKey userId) fun wrap ↦ ∃ id, db.HasPrf userId id wrap)
    (huser : db.users userId = some user) (hhonest : event.Honest) (hcurrent : event.Current db)
    (hsubject : event.subject ≠ some userId) :
    user.wrapping.Sound (db'.vaultKey userId) fun wrap ↦ ∃ id, db'.HasPrf userId id wrap := by
  have hkeys : db'.vaultKey userId = db.vaultKey userId := by
    funext version
    rw [h.vaultKeys, onVaultKey_of_not_subject hsubject]
  rw [hkeys]
  by_cases hevent : ∃ checked wrap, event = .prfWrapped userId checked wrap
  · obtain ⟨checked, new, rfl⟩ := hevent
    obtain ⟨key, rfl, hopens⟩ := exists_of_opensChecked hhonest
    refine hold.addPrf (key_of_currentKey hcurrent huser).2 hopens ?_
    rintro wrap ⟨id, hid⟩
    rcases h.credentials.prf userId id wrap hid with ⟨hbefore, -⟩ | ⟨checked, heq⟩
    · exact .inl ⟨id, hbefore⟩
    · rw [Event.prfWrapped.injEq] at heq
      exact .inr heq.2.2.symm
  · exact hold.mono fun wrap hwrap ↦
      h.hasPrf_before (fun checked wrap heq ↦ hevent ⟨checked, wrap, heq⟩) hwrap

theorem WrapEffect.sound_setup (h : WrapEffect held db (.setup key wrap) db')
    (hold : user.wrapping.Sound (db.vaultKey key.userId) fun wrap ↦ ∃ id, db.HasPrf key.userId id wrap)
    (hhonest : key.Opens wrap) (hcurrent : ∀ row ∈ db.credentials, row.userId = key.userId → row.prfWrap = none) :
    ((Event.setup key wrap).rewrite user.wrapping).Sound (db'.vaultKey key.userId)
      fun wrap ↦ ∃ id, db'.HasPrf key.userId id wrap := by
  have hversion : key.version = 1 := h.first key wrap rfl
  have hfree : db.vaultKey key.userId 1 = none := hversion ▸ h.fresh key rfl
  have hnot : user.wrapping.setUp = false := by
    by_contra hsetUp
    exact hold.firstKey (by simpa using hsetUp) hfree
  have hkey : db'.vaultKey key.userId key.version = some key := by
    rw [h.vaultKeys]
    exact if_pos ⟨rfl, rfl⟩
  refine .newKey hkey rfl hhonest (hold.noRecovery hnot) ?_ fun _ ↦ ?_
  · intro wrap hwrap
    obtain ⟨id, row, hrow, -, huser, hprf⟩ := h.hasPrf_before nofun hwrap
    exact nomatch (hcurrent row hrow huser).symm.trans hprf
  · rw [hversion] at hkey
    simp [hkey]

theorem WrapEffect.sound_rotated (h : WrapEffect held db (.rotated key wrap) db')
    (hold : user.wrapping.Sound (db.vaultKey key.userId) fun wrap ↦ ∃ id, db.HasPrf key.userId id wrap)
    (hhonest : key.Opens wrap) :
    ((Event.rotated key wrap).rewrite user.wrapping).Sound (db'.vaultKey key.userId)
      fun wrap ↦ ∃ id, db'.HasPrf key.userId id wrap := by
  have hkey : db'.vaultKey key.userId key.version = some key := by
    rw [h.vaultKeys]
    exact if_pos ⟨rfl, rfl⟩
  refine .newKey hkey rfl hhonest rfl ?_ fun hsetUp ↦ ?_
  · rintro wrap ⟨id, hid⟩
    rcases h.credentials.prf key.userId id wrap hid with ⟨-, hother⟩ | ⟨checked, heq⟩
    · exact hother key _ rfl rfl
    · exact nomatch heq
  · rw [h.vaultKeys]
    change (if _ then _ else _) ≠ _
    split_ifs
    · exact Option.some_ne_none key
    · exact hold.firstKey hsetUp

theorem WrapEffect.sound (h : WrapEffect held db event db') (hsound : ∀ userId, db.Sound userId)
    (hhonest : event.Honest) (hcurrent : event.Current db) : ∀ userId, db'.Sound userId := by
  intro userId user' huser'
  have husers := h.users userId
  rw [huser', Option.map_some, eq_comm, Option.map_eq_some_iff] at husers
  obtain ⟨user, huser, hwrapping⟩ := husers
  have hold := hsound userId user huser
  rw [← hwrapping]
  by_cases hsubject : event.subject = some userId
  · rw [if_pos hsubject]
    cases event with
    | setup key wrap =>
      obtain rfl := Option.some.inj hsubject
      exact h.sound_setup hold hhonest hcurrent
    | rotated key wrap =>
      obtain rfl := Option.some.inj hsubject
      exact h.sound_rotated hold hhonest
    | reset target => exact ⟨nofun, nofun, fun _ ↦ rfl⟩
    | rewrapped target checked passphrase recovery =>
      obtain rfl := Option.some.inj hsubject
      have hkeys : db'.vaultKey target = db.vaultKey target := funext (h.vaultKeys target)
      rw [hkeys]
      refine Wrapping.Sound.mono (hold.rewrapped fun wrap hwrap ↦ ?_) fun wrap hwrap ↦ h.hasPrf_before nofun hwrap
      obtain ⟨key, rfl, hopens⟩ := exists_of_opensChecked (hhonest wrap hwrap)
      obtain ⟨hsetUp, hkey⟩ := key_of_currentKey hcurrent huser
      exact ⟨hsetUp, key, hkey, hopens⟩
    | other | prfWrapped _ _ _ | wrote _ _ | attached _ _ | grant _ _ => exact nomatch hsubject
  · rw [if_neg hsubject]
    exact h.sound_of_not_subject hold huser hhonest hcurrent hsubject

end Preservation

/-- A request to one of the routes that write wraps, mint vault keys or wipe the vault. -/
inductive WrapRequest
  | setup (req : SetupRequest)
  | changePassphrase (req : ChangePassphraseRequest)
  | generateRecovery (req : GenerateRecoveryRequest)
  | recoverReset (req : RecoverRequest)
  | registerPasskey (req : RegisterRequest)
  | prfRebootstrap (req : RebootstrapRequest)
  | rotateKey (req : RotateRequest)
  | executeVaultReset (userId : Uuid) (now : Millis)

/-- The program of a request; the response is left out. -/
def WrapRequest.serve (env : Env) : WrapRequest → Server Unit
  | .setup req => do let _ ← Vault.setup env req
  | .changePassphrase req => do let _ ← Vault.changePassphrase env req
  | .generateRecovery req => do let _ ← Vault.generateRecovery env req
  | .recoverReset req => do let _ ← Vault.recoverReset env req
  | .registerPasskey req => do let _ ← Vault.registerPasskey req
  | .prfRebootstrap req => do let _ ← Vault.prfRebootstrap req
  | .rotateKey req => do let _ ← Vault.rotateKey env req
  | .executeVaultReset userId now => do let _ ← Vault.executeVaultReset userId now

theorem outline_serve {allowed : Event → List Event → World Store Event → Prop}
    {w : World Store Event} {env : Env} (req : WrapRequest) (hids : UniqueCredentials w) :
    Respects (wrapContract allowed) (req.serve env) w := by
  cases req with
  | setup req => exact .respond (outline_setup req hids) fun _ _ ↦ trivial
  | changePassphrase req =>
    exact .respond (outline_changePassphrase req hids) fun _ _ ↦ trivial
  | generateRecovery req =>
    exact .respond (outline_generateRecovery req hids) fun _ _ ↦ trivial
  | recoverReset req => exact .respond (outline_recoverReset req hids) fun _ _ ↦ trivial
  | registerPasskey req => exact .respond (outline_registerPasskey req hids) fun _ _ ↦ trivial
  | prfRebootstrap req => exact .respond (outline_prfRebootstrap req hids) fun _ _ ↦ trivial
  | rotateKey req => exact .respond (outline_rotateKey req hids) fun _ _ ↦ trivial
  | executeVaultReset userId now =>
    exact .respond (outline_executeVaultReset userId now hids) fun _ _ ↦ trivial

/-- A store to start from: credential ids are unique, vaults that are set up have their wraps in
order, the others have no recovery wrap. A store in which no vault is set up is one. -/
structure VaultStore where
  store : Store
  credentialIds : credentialTable.KeysUnique store
  sound : ∀ userId, store.Sound userId

/-- In every run of the wrapping routes with honest clients whose commits find the key that was
checked still current, and no PRF wrap of a user whose vault they set up, every vault that is set up
has only wraps of the secret key of its `keyVersion`. -/
theorem wraps_coherent {ι : Type} [DecidableEq ι] (env : Env) (vaults : VaultStore)
    (requests : ι → WrapRequest) {s : State ι Store Lock Event Unit}
    (hrun : Run HonestAndCurrent (State.start ⟨vaults.store, []⟩ fun i ↦ (requests i).serve env) s) :
    ∀ userId, s.world.db.Coherent userId := by
  have hsound : ∀ userId, s.world.db.Sound userId := by
    refine Run.invariant (c := wrapContract HonestAndCurrent) (fun w ↦ ∀ userId, w.db.Sound userId)
      hrun (fun i ↦ outline_serve (requests i) vaults.credentialIds) vaults.sound ?_
    rintro held w event db hsound ⟨⟨-, hhonest, hcurrent⟩, heffect⟩
    exact heffect.sound hsound hhonest hcurrent
  exact fun userId ↦ (hsound userId).coherent

/-- A wrap or verification artifact of a secret key. -/
def material (secretKey : SecretKey) : KeyMaterial := ⟨⟨"c", "i", "t"⟩, secretKey⟩

def newUser : User where
  tenantId := 1

/-- The store with one user, `1`, who has not set up a vault. -/
def newUserStore : VaultStore where
  store :=
    { users := fun userId ↦ if userId = 1 then some newUser else none
      vaultKeys := []
      credentials := []
      entries := []
      histories := []
      attachments := []
      grants := []
      keyPairs := []
      tags := []
      folders := []
      shares := []
      teamMemberKeys := []
      teamMembers := []
      members := [⟨1, 1, none⟩]
      tenants := [⟨1, none⟩] }
  credentialIds := by decide
  sound userId user huser := by
    dsimp only at huser
    split_ifs at huser
    obtain rfl := Option.some.inj huser
    exact ⟨nofun, nofun, fun _ ↦ rfl⟩

/-- Hash functions for the examples: every hash is its input. -/
def plainEnv : Env := ⟨fun _ hash ↦ some hash, id, fun _ ↦ ""⟩

def someVerifierHash : String := String.ofList (List.replicate 64 'a')

def setupWith (secretKey : SecretKey) : SetupRequest where
  userId := 1
  wrap := material secretKey
  accountSalt := "s"
  authHash := "h"
  verifierHash := someVerifierHash
  verification := material secretKey
  ecdhPublicKey := "p"
  ecdhPrivateKey := ⟨"c", "i", "t"⟩
  kdfParams := none
  now := 1
  serverSalt := "s"

def registerWith (secretKey : SecretKey) : RegisterRequest where
  userId := 1
  redisAvailable := true
  envelope := some ("c", none)
  rpIdConfigured := true
  registration := some ⟨"cred", "pk", 0⟩
  prf := some (material secretKey)
  minPinLength := none
  id := 9

/-- Set up a vault and register a passkey, then reset the vault and set it up again. -/
def resetAndSetup : Fin 4 → WrapRequest
  | 0 => .setup (setupWith 1)
  | 1 => .registerPasskey (registerWith 1)
  | 2 => .executeVaultReset 1 2
  | 3 => .setup (setupWith 2)

/-- The four requests before their first statement. -/
def resetStart : State (Fin 4) Store Lock Event Unit :=
  State.start ⟨newUserStore.store, []⟩ fun i ↦ (resetAndSetup i).serve plainEnv

/-- Honest clients are not enough: one after the other, a setup, a registration with PRF data, a
reset and a second setup leave a vault with the new secret key and a PRF wrap of the old one. -/
theorem wraps_not_coherent : ¬ ∀ (vaults : VaultStore) (requests : Fin 4 → WrapRequest)
      (s : State (Fin 4) Store Lock Event Unit),
      Run (fun event _ _ ↦ event.Honest) (State.start ⟨vaults.store, []⟩ fun i ↦ (requests i).serve plainEnv) s →
      ∀ userId, s.world.db.Coherent userId := by
  intro h
  obtain ⟨s, hrun, hkey, row, hrow, huser, hwrap⟩ :=
    Run.exists_of_schedule resetStart
      (fun w ↦ w.db.currentKey 1 = some ⟨1, 1, 1, material 2⟩ ∧
        ∃ row ∈ w.db.credentials, row.userId = 1 ∧ row.prfWrap = some (material 1))
      [(9, 0), (9, 1), (24, 2), (9, 3)] (fun event _ _ ↦ event.Honest)
  unfold Store.currentKey at hkey
  obtain ⟨user, hactive, hsetUp⟩ := Option.bind_eq_some_iff.mp hkey
  split_ifs at hsetUp with hset
  obtain ⟨key, hcurrent, -, -, hprf⟩ :=
    h newUserStore resetAndSetup s hrun 1 user hactive (Option.isSome_iff_ne_none.mp hset)
  obtain rfl := Option.mem_unique hsetUp hcurrent
  exact absurd (hprf row hrow huser _ hwrap) (by unfold VaultKey.Opens; decide)

/-- The condition can be met: a setup and a registration with PRF data. -/
theorem wraps_coherent_registered : ∃ s, Run HonestAndCurrent resetStart s ∧
      s.world.db.currentKey 1 = some ⟨1, 1, 1, material 1⟩ ∧
      (∃ row ∈ s.world.db.credentials, row.userId = 1 ∧ row.prfWrap = some (material 1)) ∧
      ∀ userId, s.world.db.Coherent userId := by
  obtain ⟨s, hrun, hkey, hprf⟩ := Run.exists_of_schedule resetStart
    (fun w ↦ w.db.currentKey 1 = some ⟨1, 1, 1, material 1⟩ ∧
      ∃ row ∈ w.db.credentials, row.userId = 1 ∧ row.prfWrap = some (material 1))
    [(9, 0), (9, 1)] HonestAndCurrent
  exact ⟨s, hrun, hkey, hprf, wraps_coherent plainEnv newUserStore resetAndSetup hrun⟩

end PasswdSso.Vault
