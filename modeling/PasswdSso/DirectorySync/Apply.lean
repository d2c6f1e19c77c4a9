import PasswdSso.DirectorySync.Engine

/-!
# What applying a plan does to the tables

The tables are read through three partial functions of a tenant: the user of an external id, the member of a
user and the visible row of a user. Each statement of the transaction is an equation about them, and the loops
are folds of those equations. The unique indexes keep the rows of one tenant apart: a loop that maps a new
external id to a user that has a mapping already fails, so the three parts of a plan touch different members.
-/

namespace PasswdSso.DirectorySync

open List Directory

open ReadCommitted (Table find?_of_nodup mem_of_find?_and nodup_map_append of_decide_and)

namespace Directory

/-- The primary keys and unique indexes of the tables. -/
structure Valid (dir : Directory) : Prop where
  users : userTable.KeysUnique dir
  members : memberTable.KeysUnique dir
  memberships : (dir.members.map fun member ↦ (member.tenantId, member.userId)).Nodup
  externalIds : (dir.mappings.map fun mapping ↦ (mapping.tenantId, mapping.externalId)).Nodup
  internalIds : (dir.mappings.map fun mapping ↦ (mapping.tenantId, mapping.internalId)).Nodup

instance (dir : Directory) : Decidable dir.Valid :=
  decidable_of_iff (userTable.KeysUnique dir ∧ memberTable.KeysUnique dir ∧
      (dir.members.map fun member ↦ (member.tenantId, member.userId)).Nodup ∧
      (dir.mappings.map fun mapping ↦ (mapping.tenantId, mapping.externalId)).Nodup ∧
      (dir.mappings.map fun mapping ↦ (mapping.tenantId, mapping.internalId)).Nodup)
    ⟨fun ⟨h₁, h₂, h₃, h₄, h₅⟩ ↦ ⟨h₁, h₂, h₃, h₄, h₅⟩, fun ⟨h₁, h₂, h₃, h₄, h₅⟩ ↦ ⟨h₁, h₂, h₃, h₄, h₅⟩⟩

variable {dir dir' : Directory} {tenantId : Uuid}

section Views

variable {internalId : Uuid} {member : Member}

theorem Valid.mappingOf_eq_some (h : dir.Valid) {externalId : String} :
    dir.mappingOf tenantId externalId = some internalId ↔ ⟨tenantId, externalId, internalId⟩ ∈ dir.mappings := by
  constructor
  · intro hfind
    obtain ⟨mapping, hmapping, rfl⟩ := Option.map_eq_some_iff.mp hfind
    obtain ⟨hmem, rfl, rfl⟩ := mem_of_find?_and hmapping
    exact hmem
  · intro hmem
    rw [mappingOf, find?_of_nodup h.externalIds hmem (by simp) (by simp)]
    rfl

variable {userId : Uuid}

theorem Valid.memberOf_eq_some (h : dir.Valid) : dir.memberOf tenantId userId = some member ↔
      member ∈ dir.members ∧ member.tenantId = tenantId ∧ member.userId = userId := by
  constructor
  · exact mem_of_find?_and
  · rintro ⟨hmem, rfl, rfl⟩
    exact find?_of_nodup h.memberships hmem (by simp) (by simp)

theorem Valid.userOf_eq_some (h : dir.Valid) {user : User} :
    dir.userOf tenantId userId = some user ↔ user ∈ dir.users ∧ user.id = userId ∧ user.tenantId = tenantId := by
  constructor
  · exact mem_of_find?_and
  · rintro ⟨hmem, rfl, rfl⟩
    exact find?_of_nodup h.users hmem (by simp) fun _ ↦ of_decide_and

theorem Valid.mappingOf_inj (h : dir.Valid) {first second : String}
    (hfirst : dir.mappingOf tenantId first = some internalId)
    (hsecond : dir.mappingOf tenantId second = some internalId) : first = second := by
  rw [h.mappingOf_eq_some] at hfirst hsecond
  exact congrArg ExternalMapping.externalId (inj_on_of_nodup_map h.internalIds hfirst hsecond rfl)

theorem Valid.userId_of_id (h : dir.Valid) {userId' : Uuid} {member' : Member}
    (hmember : dir.memberOf tenantId userId = some member) (hmember' : dir.memberOf tenantId userId' = some member')
    (hid : member.id = member'.id) :
    userId = userId' := by
  rw [h.memberOf_eq_some] at hmember hmember'
  obtain rfl := h.members.eq_of_key_eq hmember.1 hmember'.1 hid
  rw [← hmember.2.2, ← hmember'.2.2]

end Views

section Statements

def mapMembers (g : Member → Member) (dir : Directory) : Directory :=
  { dir with members := dir.members.map g }

def mapUsers (g : User → User) (dir : Directory) : Directory :=
  { dir with users := dir.users.map g }

def KeepsIdentity (g : Member → Member) : Prop :=
  ∀ member, (g member).id = member.id ∧ (g member).tenantId = member.tenantId ∧ (g member).userId = member.userId

variable {g : Member → Member} {id : Uuid}

theorem Valid.mapMembers (h : dir.Valid) (hg : KeepsIdentity g) : (dir.mapMembers g).Valid := by
  have hids : (dir.members.map g).map Member.id = dir.members.map Member.id := by
    rw [map_map]
    exact map_congr_left fun member _ ↦ (hg member).1
  have hmemberships : (dir.members.map g).map (fun member ↦ (member.tenantId, member.userId)) =
      dir.members.map fun member ↦ (member.tenantId, member.userId) := by
    rw [map_map]
    exact map_congr_left fun member _ ↦ Prod.ext (hg member).2.1 (hg member).2.2
  refine ⟨h.users, ?_, hmemberships.symm ▸ h.memberships, h.externalIds, h.internalIds⟩
  exact (congrArg List.Nodup hids).mpr h.members

theorem memberOf_mapMembers (hg : KeepsIdentity g) (userId : Uuid) :
    (dir.mapMembers g).memberOf tenantId userId = (dir.memberOf tenantId userId).map g := by
  rw [memberOf, mapMembers, find?_map]
  congr 2
  funext member
  simp only [Function.comp_apply, (hg member).2.1, (hg member).2.2]

theorem Valid.mapUsers (h : dir.Valid) {g : User → User} (hg : ∀ user, (g user).id = user.id) :
    (dir.mapUsers g).Valid := by
  have hids : (dir.users.map g).map User.id = dir.users.map User.id := by
    rw [map_map]
    exact map_congr_left fun user _ ↦ hg user
  exact ⟨(congrArg List.Nodup hids).mpr h.users, h.members, h.memberships, h.externalIds, h.internalIds⟩

theorem userOf_mapUsers {g : User → User}
    (hg : ∀ user, (g user).id = user.id ∧ (g user).tenantId = user.tenantId) (userId : Uuid) :
    (dir.mapUsers g).userOf tenantId userId = (dir.userOf tenantId userId).map g := by
  rw [userOf, mapUsers, find?_map]
  congr 2
  funext user
  simp only [Function.comp_apply, (hg user).1, (hg user).2]

theorem createUser_ok {user : User} (h : dir.Valid) (hok : dir.createUser user = .ok dir') :
    dir' = { dir with users := dir.users ++ [user] } ∧ dir'.Valid ∧ ∀ other ∈ dir.users, other.id ≠ user.id := by
  unfold createUser at hok
  split at hok
  · exact nomatch hok
  next hfresh =>
  split at hok
  · exact nomatch hok
  obtain rfl := Except.ok.inj hok
  have hne (other : User) (hother : other ∈ dir.users) : other.id ≠ user.id := fun heq ↦
    hfresh (any_eq_true.mpr ⟨other, hother, decide_eq_true heq⟩)
  exact ⟨rfl, ⟨h.users.append hne, h.members, h.memberships, h.externalIds, h.internalIds⟩, hne⟩

theorem createMember_ok {member : Member} (h : dir.Valid) (hok : dir.createMember member = .ok dir') :
    dir' = { dir with members := dir.members ++ [member] } ∧ dir'.Valid ∧
      dir.memberOf member.tenantId member.userId = none := by
  unfold createMember at hok
  split at hok
  · exact nomatch hok
  next hfresh =>
  split at hok
  · exact nomatch hok
  next hsome =>
  obtain rfl := Except.ok.inj hok
  have hnone := Option.not_isSome_iff_eq_none.mp hsome
  refine ⟨rfl, ⟨h.users, h.members.append fun other hother heq ↦ hfresh ?_, ?_, h.externalIds, h.internalIds⟩, hnone⟩
  · exact any_eq_true.mpr ⟨other, hother, decide_eq_true heq⟩
  · refine nodup_map_append h.memberships fun old hold heq ↦ ?_
    have := find?_eq_none.mp hnone old hold
    simp_all

theorem memberOf_append (member : Member) (userId : Uuid) :
    ({ dir with members := dir.members ++ [member] } : Directory).memberOf tenantId userId =
      (dir.memberOf tenantId userId).or
        (if member.tenantId = tenantId ∧ member.userId = userId then some member else none) := by
  rw [memberOf, find?_append, find?_singleton, memberOf]
  simp only [Bool.and_eq_true, decide_eq_true_eq]

theorem updateMember_ok {f : Member → Member} (hok : dir.updateMember tenantId id f = .ok dir') :
    dir' = dir.mapMembers fun member ↦ if member.id = id then f member else member := by
  unfold updateMember at hok
  split at hok
  · obtain rfl := Except.ok.inj hok
    simp only [Table.modify, mem_singleton]
    rfl
  · cases hok

theorem updateUser_ok {f : User → User} (hok : dir.updateUser tenantId id f = .ok dir') :
    dir' = dir.mapUsers fun user ↦ if user.id = id then f user else user := by
  unfold updateUser at hok
  split at hok
  · obtain rfl := Except.ok.inj hok
    simp only [Table.modify, mem_singleton]
    rfl
  · cases hok

/-- What an upsert of a mapping needs and does: the user has no other mapping, and the external id is mapped to
the user afterwards. -/
structure Mapped (tenantId : Uuid) (externalId : String) (internalId : Uuid) (dir dir' : Directory) : Prop where
  users : dir'.users = dir.users
  members : dir'.members = dir.members
  alone : ∀ other, dir.mappingOf tenantId other = some internalId → other = externalId
  mappings : ∀ other, dir'.mappingOf tenantId other =
    if other = externalId then some internalId else dir.mappingOf tenantId other
  valid : dir'.Valid

def MappedOnly (tenantId : Uuid) (externalId : String) (internalId : Uuid) (dir : Directory) : Prop :=
  ∀ mapping ∈ dir.mappings, mapping.tenantId = tenantId → mapping.internalId = internalId →
    mapping.externalId = externalId

def remap (tenantId : Uuid) (externalId : String) (internalId : Uuid) (mapping : ExternalMapping) :
    ExternalMapping :=
  if mapping.tenantId = tenantId && mapping.externalId = externalId then { mapping with internalId } else mapping

variable {externalId : String} {internalId : Uuid}

theorem remap_key (mapping : ExternalMapping) :
    (remap tenantId externalId internalId mapping).tenantId = mapping.tenantId ∧
      (remap tenantId externalId internalId mapping).externalId = mapping.externalId := by
  unfold remap
  split_ifs <;> exact ⟨rfl, rfl⟩

theorem Valid.map_remap (h : dir.Valid) (honly : dir.MappedOnly tenantId externalId internalId) :
    ({ dir with mappings := dir.mappings.map (remap tenantId externalId internalId) } : Directory).Valid := by
  refine ⟨h.users, h.members, h.memberships, ?_, ?_⟩
  · change ((dir.mappings.map (remap tenantId externalId internalId)).map _).Nodup
    rw [map_map]
    refine (congrArg List.Nodup (map_congr_left fun mapping _ ↦ ?_)).mp h.externalIds
    exact Prod.ext (remap_key mapping).1.symm (remap_key mapping).2.symm
  · change ((dir.mappings.map (remap tenantId externalId internalId)).map _).Nodup
    rw [map_map]
    refine .map_on (fun first hfirst second hsecond heq ↦ ?_) h.externalIds.of_map
    simp only [Function.comp_apply, remap, Prod.mk.injEq] at heq
    -- a row with the new `internalId` is the row that was changed
    split_ifs at heq with h₁ h₂ h₂ <;> simp only [Bool.and_eq_true, decide_eq_true_eq] at h₁ h₂ heq
    · exact inj_on_of_nodup_map h.externalIds hfirst hsecond
        (Prod.ext (h₁.1.trans h₂.1.symm) (h₁.2.trans h₂.2.symm))
    · exact absurd ⟨heq.1.symm.trans h₁.1, honly second hsecond (heq.1.symm.trans h₁.1) heq.2.symm⟩ h₂
    · exact absurd ⟨heq.1.trans h₂.1, honly first hfirst (heq.1.trans h₂.1) heq.2⟩ h₁
    · exact inj_on_of_nodup_map h.internalIds hfirst hsecond (Prod.ext heq.1 heq.2)

theorem mappingOf_map_remap (hsome : (dir.mappingOf tenantId externalId).isSome) (other : String) :
    ({ dir with mappings := dir.mappings.map (remap tenantId externalId internalId) } : Directory).mappingOf
      tenantId other = if other = externalId then some internalId else dir.mappingOf tenantId other := by
  have hfind : (dir.mappings.map (remap tenantId externalId internalId)).find? (fun mapping ↦
      mapping.tenantId = tenantId && mapping.externalId = other) =
      (dir.mappings.find? fun mapping ↦ mapping.tenantId = tenantId && mapping.externalId = other).map
        (remap tenantId externalId internalId) := by
    rw [find?_map]
    congr 2
    funext mapping
    simp only [Function.comp_apply, (remap_key mapping).1, (remap_key mapping).2]
  rw [mappingOf, hfind, Option.map_map]
  split_ifs with heq
  · subst heq
    obtain ⟨found, hfound⟩ := Option.isSome_iff_exists.mp hsome
    obtain ⟨mapping, hmapping, -⟩ := Option.map_eq_some_iff.mp hfound
    rw [hmapping, Option.map_some, Function.comp_apply, remap, if_pos (find?_some hmapping)]
  · rw [mappingOf]
    refine Option.map_congr fun mapping hmapping ↦ ?_
    simp [remap, (mem_of_find?_and hmapping).2.2, heq]

theorem Valid.append_mapping (h : dir.Valid) (honly : dir.MappedOnly tenantId externalId internalId)
    (hnone : dir.mappingOf tenantId externalId = none) :
    ({ dir with mappings := dir.mappings ++ [⟨tenantId, externalId, internalId⟩] } : Directory).Valid := by
  have hunmapped (mapping : ExternalMapping) (hmem : mapping ∈ dir.mappings)
      (htenant : mapping.tenantId = tenantId) : mapping.externalId ≠ externalId := by
    rintro rfl
    subst htenant
    have hsome := h.mappingOf_eq_some.mpr hmem
    rw [hnone] at hsome
    exact nomatch hsome
  refine ⟨h.users, h.members, h.memberships, nodup_map_append h.externalIds fun mapping hmem heq ↦ ?_,
    nodup_map_append h.internalIds fun mapping hmem heq ↦ ?_⟩
  · obtain ⟨htenant, hexternal⟩ := Prod.mk.inj heq
    exact hunmapped mapping hmem htenant hexternal
  · obtain ⟨htenant, hinternal⟩ := Prod.mk.inj heq
    exact hunmapped mapping hmem htenant (honly mapping hmem htenant hinternal)

theorem mappingOf_append (hnone : dir.mappingOf tenantId externalId = none) (other : String) :
    ({ dir with mappings := dir.mappings ++ [⟨tenantId, externalId, internalId⟩] } : Directory).mappingOf
      tenantId other = if other = externalId then some internalId else dir.mappingOf tenantId other := by
  rw [mappingOf, find?_append, find?_singleton]
  split_ifs with hkey heq heq
  · subst heq
    rw [mappingOf, Option.map_eq_none_iff] at hnone
    rw [hnone]
    rfl
  · simp [Ne.symm heq] at hkey
  · simp [heq] at hkey
  · rw [Option.or_none]
    rfl

theorem upsertMapping_ok (h : dir.Valid) (hok : dir.upsertMapping tenantId externalId internalId = .ok dir') :
    Mapped tenantId externalId internalId dir dir' := by
  unfold upsertMapping at hok
  split at hok
  · exact nomatch hok
  next hclash =>
  have honly : dir.MappedOnly tenantId externalId internalId := by
    intro mapping hmem htenant hinternal
    by_contra hne
    exact hclash (any_eq_true.mpr ⟨mapping, hmem, by simp [htenant, hinternal, hne]⟩)
  have halone (other : String) (hother : dir.mappingOf tenantId other = some internalId) :
      other = externalId := honly _ (h.mappingOf_eq_some.mp hother) rfl rfl
  split at hok
  next hsome =>
    obtain rfl := Except.ok.inj hok
    exact ⟨rfl, rfl, halone, mappingOf_map_remap hsome, h.map_remap honly⟩
  next hnone =>
    obtain rfl := Except.ok.inj hok
    rw [Option.not_isSome_iff_eq_none] at hnone
    exact ⟨rfl, rfl, halone, mappingOf_append hnone, h.append_mapping honly hnone⟩

end Statements

end Directory

section Loops

variable {β : Type} {f : β → Directory → Except SyncError Directory} {count : SyncStats → SyncStats}
  {stats : SyncStats} {dir : Directory}

theorem forEach_cons_ok {item : β} {rest : List β} {result : SyncStats × Directory} :
    forEach f count (item :: rest) stats dir = .ok result ↔
      ∃ next, f item dir = .ok next ∧ forEach f count rest (count stats) next = .ok result := by
  rw [forEach]
  cases f item dir with
  | error thrown => simp
  | ok next => simp

theorem forEach_invariant {P : Directory → Prop} {items : List β} {stats' : SyncStats} {dir' : Directory}
    (hloop : forEach f count items stats dir = .ok (stats', dir'))
    (hstep : ∀ item ∈ items, ∀ before after, f item before = .ok after → P before → P after) (hP : P dir) :
    P dir' := by
  induction items generalizing stats dir with
  | nil =>
    rw [forEach] at hloop
    rw [← (Prod.mk.inj (Except.ok.inj hloop)).2]
    exact hP
  | cons item rest ih =>
    obtain ⟨next, hnext, hrest⟩ := forEach_cons_ok.mp hloop
    rw [forall_mem_cons] at hstep
    exact ih hrest hstep.2 (hstep.1 dir next hnext hP)

end Loops

section CreateUsers

variable {env : Env} {tenantId : Uuid}

structure UsersCreated (env : Env) (tenantId : Uuid) (items : List (ProviderUser × Nat))
    (byEmail byEmail' : List (String × Uuid)) (dir dir' : Directory) : Prop where
  members : dir'.members = dir.members
  mappings : dir'.mappings = dir.mappings
  valid : dir'.Valid
  kept : ∀ userId user, dir.userOf tenantId userId = some user → dir'.userOf tenantId userId = some user
  found : ∀ key userId, byEmail.lookup key = some userId → byEmail'.lookup key = some userId
  all : ∀ item ∈ items, (byEmail'.lookup (env.toLowerCase item.1.email)).isSome
  created : ∀ key userId, byEmail'.lookup key = some userId → byEmail.lookup key = some userId ∨
    dir.userOf tenantId userId = none ∧ ∃ item ∈ items, env.toLowerCase item.1.email = key ∧
      ∃ user, dir'.userOf tenantId userId = some user ∧ user.name = some item.1.displayName

variable {dir : Directory}

theorem createUsers_ok {items : List (ProviderUser × Nat)} {byEmail byEmail' : List (String × Uuid)}
    {dir' : Directory} (h : dir.Valid) (hok : createUsers env tenantId items byEmail dir = .ok (byEmail', dir')) :
    UsersCreated env tenantId items byEmail byEmail' dir dir' := by
  induction items generalizing byEmail dir with
  | nil =>
    rw [createUsers] at hok
    obtain ⟨rfl, rfl⟩ := Prod.mk.inj (Except.ok.inj hok)
    exact ⟨rfl, rfl, h, fun _ _ ↦ id, fun _ _ ↦ id, fun _ hitem ↦ (nomatch hitem), fun _ _ ↦ .inl⟩
  | cons item rest ih =>
    obtain ⟨pu, n⟩ := item
    rw [createUsers] at hok
    split at hok
    · next hsome =>
      have hrest := ih h hok
      obtain ⟨userId, hlookup⟩ := Option.isSome_iff_exists.mp hsome
      refine ⟨hrest.members, hrest.mappings, hrest.valid, hrest.kept, hrest.found, ?_, fun key id hkey ↦ ?_⟩
      · rw [forall_mem_cons]
        exact ⟨Option.isSome_iff_exists.mpr ⟨userId, hrest.found _ _ hlookup⟩, hrest.all⟩
      · refine (hrest.created key id hkey).imp_right ?_
        rintro ⟨hfresh, other, hother, hrest⟩
        exact ⟨hfresh, other, mem_cons_of_mem _ hother, hrest⟩
    · next hnone =>
      rw [Option.not_isSome_iff_eq_none] at hnone
      split at hok
      · exact nomatch hok
      next dir₁ hcreate =>
      obtain ⟨rfl, hvalid, -⟩ := createUser_ok h hcreate
      have hrest := ih hvalid hok
      have hlookup (key : String) (id : Uuid) (hkey : byEmail.lookup key = some id) :
          ((env.toLowerCase pu.email, env.userId n) :: byEmail).lookup key = some id := by
        have hne : key ≠ env.toLowerCase pu.email := by
          rintro rfl
          rw [hnone] at hkey
          exact nomatch hkey
        rw [lookup_cons, beq_false_of_ne hne]
        exact hkey
      have hhead : ((env.toLowerCase pu.email, env.userId n) :: byEmail).lookup (env.toLowerCase pu.email) =
          some (env.userId n) := lookup_cons_self
      have hkept (id : Uuid) (user : User) (huser : dir.userOf tenantId id = some user) :=
        hvalid.userOf_eq_some.mpr
          ⟨mem_append_left _ (h.userOf_eq_some.mp huser).1, (h.userOf_eq_some.mp huser).2⟩
      refine ⟨hrest.members, hrest.mappings, hrest.valid, fun id user huser ↦ hrest.kept id user (hkept id user huser),
        fun key id hkey ↦ hrest.found _ _ (hlookup key id hkey), ?_, fun key id hkey ↦ ?_⟩
      · rw [forall_mem_cons]
        exact ⟨Option.isSome_iff_exists.mpr ⟨_, hrest.found _ _ hhead⟩, hrest.all⟩
      · rcases hrest.created key id hkey with hold | ⟨hfresh, other, hother, huser⟩
        · rw [lookup_cons] at hold
          split at hold
          · next heq =>
            obtain rfl := Option.some.inj hold
            have hnew := hvalid.userOf_eq_some.mpr ⟨mem_append_right _ (mem_singleton_self _), rfl, rfl⟩
            refine .inr ⟨?_, (pu, n), mem_cons_self, (eq_of_beq heq).symm, _, hrest.kept _ _ hnew, rfl⟩
            rw [Option.eq_none_iff_forall_ne_some]
            intro old hold
            have hmem := (h.userOf_eq_some.mp hold).1
            exact (createUser_ok h hcreate).2.2 old hmem (h.userOf_eq_some.mp hold).2.1
          · exact .inl hold
        · refine .inr ⟨?_, other, mem_cons_of_mem _ hother, huser⟩
          rw [Option.eq_none_iff_forall_ne_some]
          intro user huser
          rw [hkept id user huser] at hfresh
          exact nomatch hfresh

theorem userByEmail_visible (h : dir.Valid) {toCreate : List ProviderUser} {key : String} {userId : Uuid}
    (hlookup : (userByEmail env (existingUsers env tenantId dir toCreate)).lookup key = some userId) :
    ∃ user, dir.userOf tenantId userId = some user := by
  have hmem : (key, userId) ∈ userByEmail env (existingUsers env tenantId dir toCreate) := by
    obtain ⟨before, after, heq, -⟩ := lookup_eq_some_iff.mp hlookup
    rw [heq]
    exact mem_append_right _ mem_cons_self
  rw [userByEmail, mem_reverse, mem_filterMap] at hmem
  obtain ⟨user, huser, hemail⟩ := hmem
  obtain ⟨email, -, heq⟩ := Option.map_eq_some_iff.mp hemail
  obtain ⟨-, rfl⟩ := Prod.mk.inj heq
  obtain ⟨hmem, hwanted⟩ := mem_filter.mp huser
  rw [Bool.and_eq_true, decide_eq_true_eq] at hwanted
  exact ⟨user, h.userOf_eq_some.mpr ⟨hmem, rfl, hwanted.1⟩⟩

end CreateUsers

section Provision

variable {env : Env} {tenantId : Uuid} {byEmail : List (String × Uuid)} {tmByUserId : List Member}
  {dir dir' : Directory}

theorem keepsIdentity_setActive (now : Millis) (active : Bool) (id : Uuid) :
    Directory.KeepsIdentity fun member ↦ if member.id = id then member.setActive now active else member := by
  intro member
  dsimp only
  split_ifs <;> exact ⟨rfl, rfl, rfl⟩

/-- The members that were read at the start are still there, with their ids and roles. -/
def Current (tenantId : Uuid) (tmByUserId : List Member) (dir : Directory) : Prop :=
  ∀ userId member, tmByUserId.find? (·.userId = userId) = some member →
    ∃ row, dir.memberOf tenantId userId = some row ∧ row.id = member.id ∧ row.role = member.role

structure Enrolled (env : Env) (tenantId : Uuid) (tmByUserId : List Member) (userId : Uuid) (active : Bool)
    (dir dir' : Directory) : Prop where
  others : ∀ other, other ≠ userId → dir'.memberOf tenantId other = dir.memberOf tenantId other
  new : tmByUserId.find? (·.userId = userId) = none → dir.memberOf tenantId userId = none ∧
    ∃ n, dir'.memberOf tenantId userId = some (newMember env tenantId n userId active)
  old : ∀ existing, tmByUserId.find? (·.userId = userId) = some existing →
    dir'.memberOf tenantId userId = if existing.deactivatedAt.isSome && active then
      (dir.memberOf tenantId userId).map (.setActive env.now true) else dir.memberOf tenantId userId

variable {userId : Uuid} {pu : ProviderUser}

theorem provisionMember_ok {n : Nat} (h : dir.Valid) (hcurrent : Current tenantId tmByUserId dir)
    (hok : provisionMember env tenantId tmByUserId userId pu n dir = .ok dir') :
    dir'.users = dir.users ∧ dir'.mappings = dir.mappings ∧ dir'.Valid ∧
      Enrolled env tenantId tmByUserId userId pu.active dir dir' := by
  unfold provisionMember at hok
  split at hok
  · next hnone =>
    obtain ⟨rfl, hvalid, hfresh⟩ := createMember_ok h hok
    have hmember := @memberOf_append dir tenantId (newMember env tenantId n userId pu.active)
    refine ⟨rfl, rfl, hvalid, fun other hother ↦ ?_, fun _ ↦ ⟨hfresh, n, ?_⟩, fun existing hsome ↦ ?_⟩
    · rw [hmember, if_neg fun heq ↦ hother heq.2.symm, Option.or_none]
    · rw [hmember, if_pos ⟨rfl, rfl⟩, show dir.memberOf tenantId userId = none from hfresh, Option.none_or]
    · rw [hnone] at hsome
      exact nomatch hsome
  · next existing hsome =>
    have hunique (found : Member) (hfound : tmByUserId.find? (·.userId = userId) = some found) :
        existing = found := Option.mem_unique hsome hfound
    split_ifs at hok with hcond
    · obtain rfl := updateMember_ok hok
      have hkeeps := keepsIdentity_setActive env.now true existing.id
      obtain ⟨row, hrow, hid, -⟩ := hcurrent userId existing hsome
      refine ⟨rfl, rfl, h.mapMembers hkeeps, fun other hother ↦ ?_, fun hnone ↦ ?_, fun found hfound ↦ ?_⟩
      · rw [memberOf_mapMembers hkeeps]
        cases hmember : dir.memberOf tenantId other with
        | none => rfl
        | some member =>
          have hne : member.id ≠ existing.id := fun heq ↦
            hother (h.userId_of_id hmember hrow (heq.trans hid.symm))
          rw [Option.map_some, if_neg hne]
      · rw [hsome] at hnone
        exact nomatch hnone
      · rw [← hunique found hfound, if_pos hcond, memberOf_mapMembers hkeeps, hrow, Option.map_some,
          if_pos hid, Option.map_some]
    · obtain rfl := Except.ok.inj hok
      refine ⟨rfl, rfl, h, fun _ _ ↦ rfl, fun hnone ↦ ?_, fun found hfound ↦ ?_⟩
      · rw [hsome] at hnone
        exact nomatch hnone
      · rw [← hunique found hfound, if_neg hcond]

/-- What a round of the first loop does: the membership of the user, and its mapping, which must be the first. -/
structure Provisioned (env : Env) (tenantId : Uuid) (tmByUserId : List Member) (userId : Uuid)
    (pu : ProviderUser) (dir dir' : Directory) : Prop extends
    Enrolled env tenantId tmByUserId userId pu.active dir dir' where
  users : dir'.users = dir.users
  alone : ∀ other, dir.mappingOf tenantId other = some userId → other = pu.externalId
  mappings : ∀ other, dir'.mappingOf tenantId other =
    if other = pu.externalId then some userId else dir.mappingOf tenantId other
  valid : dir'.Valid

theorem provision_ok {item : ProviderUser × Nat} (h : dir.Valid) (hcurrent : Current tenantId tmByUserId dir)
    (hok : provision env tenantId byEmail tmByUserId item dir = .ok dir') :
    ∃ userId, byEmail.lookup (env.toLowerCase item.1.email) = some userId ∧
      Provisioned env tenantId tmByUserId userId item.1 dir dir' := by
  obtain ⟨pu, n⟩ := item
  dsimp only [provision] at hok
  split at hok
  · exact nomatch hok
  next userId huser =>
  split at hok
  · exact nomatch hok
  next dir₁ hmember =>
  obtain ⟨husers, hmappings, hvalid, henrolled⟩ := provisionMember_ok h hcurrent hmember
  have hmapped := upsertMapping_ok hvalid hok
  have hmappingOf (other : String) : dir₁.mappingOf tenantId other = dir.mappingOf tenantId other := by
    rw [mappingOf, hmappings, mappingOf]
  have hmemberOf (other : Uuid) : dir'.memberOf tenantId other = dir₁.memberOf tenantId other := by
    rw [memberOf, hmapped.members, memberOf]
  refine ⟨userId, huser, ⟨fun other hother ↦ ?_, fun hnone ↦ ?_, fun existing hsome ↦ ?_⟩,
    hmapped.users.trans husers, fun other hother ↦ ?_, fun other ↦ ?_, hmapped.valid⟩
  · rw [hmemberOf, henrolled.others other hother]
  · rw [hmemberOf]
    exact henrolled.new hnone
  · rw [hmemberOf, henrolled.old existing hsome]
  · exact hmapped.alone other ((hmappingOf other).trans hother)
  · rw [hmapped.mappings, hmappingOf]

theorem Provisioned.current (h : Provisioned env tenantId tmByUserId userId pu dir dir')
    (hcurrent : Current tenantId tmByUserId dir) :
    Current tenantId tmByUserId dir' := by
  intro other member hfind
  obtain ⟨row, hrow, hid, hrole⟩ := hcurrent other member hfind
  by_cases hother : other = userId
  · subst hother
    rw [h.old member hfind, hrow]
    split_ifs
    · exact ⟨_, rfl, hid, hrole⟩
    · exact ⟨row, rfl, hid, hrole⟩
  · exact ⟨row, (h.others other hother).trans hrow, hid, hrole⟩

section Loop

variable {items : List (ProviderUser × Nat)} {count : SyncStats → SyncStats} {stats stats' : SyncStats}
  (h : dir.Valid) (hcurrent : Current tenantId tmByUserId dir)
  (hloop : forEach (provision env tenantId byEmail tmByUserId) count items stats dir = .ok (stats', dir'))

include h hcurrent hloop

/-- What every round keeps holds after the loop; the tables stay valid, and the members that were read stay current. -/
theorem provisionAll_invariant {P : Directory → Prop}
    (hstep : ∀ item ∈ items, ∀ userId before after, byEmail.lookup (env.toLowerCase item.1.email) = some userId →
      Provisioned env tenantId tmByUserId userId item.1 before after → P before → P after) (hP : P dir) :
    dir'.Valid ∧ P dir' := by
  have hall := forEach_invariant (P := fun after ↦ after.Valid ∧ Current tenantId tmByUserId after ∧ P after)
    hloop ?_ ⟨h, hcurrent, hP⟩
  · exact ⟨hall.1, hall.2.2⟩
  rintro item hitem before after hok ⟨hvalid, hcurrent, hbefore⟩
  obtain ⟨userId, hlookup, hround⟩ := provision_ok hvalid hcurrent hok
  exact ⟨hround.valid, hround.current hcurrent, hstep item hitem userId before after hlookup hround hbefore⟩

theorem provisionAll_valid : dir'.Valid ∧ dir'.users = dir.users :=
  provisionAll_invariant (P := fun after ↦ after.users = dir.users) h hcurrent hloop
    (fun _ _ _ _ _ _ hround husers ↦ hround.users.trans husers) rfl

variable {userId : Uuid} {externalId : String}

theorem provisionAll_mapped (hmapped : dir.mappingOf tenantId externalId = some userId)
    (hitems : ∀ item ∈ items, item.1.externalId ≠ externalId) :
    dir'.mappingOf tenantId externalId = some userId ∧
      dir'.memberOf tenantId userId = dir.memberOf tenantId userId := by
  refine (provisionAll_invariant (P := fun after ↦ after.mappingOf tenantId externalId = some userId ∧
    after.memberOf tenantId userId = dir.memberOf tenantId userId) h hcurrent hloop ?_ ⟨hmapped, rfl⟩).2
  rintro item hitem other before after - hround ⟨hmapping, hmember⟩
  -- the round would fail for the user, which has a mapping
  have hne : userId ≠ other := by
    rintro rfl
    exact hitems item hitem (hround.alone externalId hmapping).symm
  refine ⟨?_, (hround.others userId hne).trans hmember⟩
  rw [hround.mappings, if_neg (hitems item hitem).symm, hmapping]

theorem provisionAll_item (hdistinct : (items.map fun item ↦ item.1.externalId).Nodup)
    {item : ProviderUser × Nat} (hitem : item ∈ items) :
    ∃ userId, byEmail.lookup (env.toLowerCase item.1.email) = some userId ∧
      dir'.mappingOf tenantId item.1.externalId = some userId ∧
      ∃ before after : Directory, before.memberOf tenantId userId = dir.memberOf tenantId userId ∧
        dir'.memberOf tenantId userId = after.memberOf tenantId userId ∧
        Enrolled env tenantId tmByUserId userId item.1.active before after := by
  induction items generalizing stats dir with
  | nil => exact nomatch hitem
  | cons head rest ih =>
    obtain ⟨next, hnext, hrest⟩ := forEach_cons_ok.mp hloop
    rw [map_cons, nodup_cons] at hdistinct
    obtain ⟨headUser, hlookup, hround⟩ := provision_ok h hcurrent hnext
    have hlater : ∀ other ∈ rest, other.1.externalId ≠ head.1.externalId := fun other hother heq ↦
      hdistinct.1 (mem_map.mpr ⟨other, hother, heq⟩)
    have hhead : next.mappingOf tenantId head.1.externalId = some headUser := by
      rw [hround.mappings, if_pos rfl]
    have hkept := provisionAll_mapped hround.valid (hround.current hcurrent) hrest hhead hlater
    rcases mem_cons.mp hitem with rfl | hitem
    · exact ⟨headUser, hlookup, hkept.1, dir, next, rfl, hkept.2, hround.toEnrolled⟩
    · obtain ⟨userId, huser, hmapping, before, after, hbefore, hafter, henrolled⟩ :=
        ih hround.valid (hround.current hcurrent) hrest hdistinct.2 hitem
      -- both rounds mapped a user, and no user has two external ids
      have hne : userId ≠ headUser := by
        rintro rfl
        have hvalid := (provisionAll_valid hround.valid (hround.current hcurrent) hrest).1
        exact hlater item hitem (hvalid.mappingOf_inj hmapping hkept.1)
      exact ⟨userId, huser, hmapping, before, after, hbefore.trans (hround.others userId hne), hafter, henrolled⟩

theorem provisionAll_mappings (hitems : ∀ item ∈ items, item.1.externalId ≠ externalId) :
    dir'.mappingOf tenantId externalId = dir.mappingOf tenantId externalId := by
  refine (provisionAll_invariant (P := fun after ↦ after.mappingOf tenantId externalId =
    dir.mappingOf tenantId externalId) h hcurrent hloop ?_ rfl).2
  intro item hitem other before after _ hround hmapping
  rw [hround.mappings, if_neg (hitems item hitem).symm, hmapping]

theorem provisionAll_members (hmember : (dir'.memberOf tenantId userId).isSome) :
    (dir.memberOf tenantId userId).isSome ∨ ∃ key, byEmail.lookup key = some userId := by
  refine (provisionAll_invariant (P := fun after ↦ (after.memberOf tenantId userId).isSome →
    (dir.memberOf tenantId userId).isSome ∨ ∃ key, byEmail.lookup key = some userId) h hcurrent hloop ?_ Or.inl).2 hmember
  intro item hitem other before after hlookup hround hold hmember
  by_cases heq : userId = other
  · exact .inr ⟨_, heq ▸ hlookup⟩
  · exact hold ((hround.others userId heq) ▸ hmember)

theorem provisionAll_active (hread : ∀ userId existing, tmByUserId.find? (·.userId = userId) = some existing →
      dir.memberOf tenantId userId = some existing) {member : Member}
    (hmember : dir.memberOf tenantId userId = some member) (hactive : member.deactivatedAt = none) :
    dir'.memberOf tenantId userId = some member := by
  refine (provisionAll_invariant (P := fun after ↦ after.memberOf tenantId userId = some member) h hcurrent hloop ?_
    hmember).2
  intro item hitem other before after _ hround hbefore
  by_cases heq : userId = other
  · subst heq
    cases hfind : tmByUserId.find? (·.userId = userId) with
    | none =>
      rw [(hround.new hfind).1] at hbefore
      exact nomatch hbefore
    | some existing =>
      obtain rfl := Option.mem_unique hmember (hread userId existing hfind)
      rw [hround.old member hfind, hactive]
      exact hbefore
  · rw [hround.others userId heq, hbefore]

end Loop

end Provision

section Update

variable {env : Env} {tenantId : Uuid} {existing dir dir' : Directory}

def Member.updated (now : Millis) (updates : List (ProviderUser × Uuid)) (member : Member) : Member :=
  updates.foldl (fun member update ↦
    if member.role = .owner ∧ update.1.active = false then member else member.setActive now update.1.active) member

def User.updated (updates : List (ProviderUser × Uuid)) (user : User) : User :=
  updates.foldl (fun user update ↦ { user with name := some update.1.displayName }) user

/-- The members that the plan was computed from are still there, with their ids and roles. -/
def Tracks (tenantId : Uuid) (existing : Directory) (updates : List (ProviderUser × Uuid)) (dir : Directory) :
    Prop :=
  ∀ update ∈ updates, ∃ member row, existing.memberOf tenantId update.2 = some member ∧
    dir.memberOf tenantId update.2 = some row ∧ row.id = member.id ∧ row.role = member.role

structure Updated (env : Env) (tenantId : Uuid) (updates : List (ProviderUser × Uuid)) (dir dir' : Directory) :
    Prop where
  mappings : dir'.mappings = dir.mappings
  members : ∀ userId, dir'.memberOf tenantId userId = (dir.memberOf tenantId userId).map
    (.updated env.now (updates.filter (·.2 = userId)))
  users : ∀ userId, dir'.userOf tenantId userId = (dir.userOf tenantId userId).map
    (.updated (updates.filter (·.2 = userId)))
  valid : dir'.Valid

theorem updated_nil (h : dir.Valid) : Updated env tenantId [] dir dir :=
  ⟨rfl, fun _ ↦ Option.map_id'.symm, fun _ ↦ Option.map_id'.symm, h⟩

variable {first second : List (ProviderUser × Uuid)}

theorem Updated.trans {dir'' : Directory} (h : Updated env tenantId first dir dir')
    (h' : Updated env tenantId second dir' dir'') :
    Updated env tenantId (first ++ second) dir dir'' := by
  refine ⟨h'.mappings.trans h.mappings, fun userId ↦ ?_, fun userId ↦ ?_, h'.valid⟩
  · rw [h'.members, h.members, Option.map_map, filter_append]
    congr 1
    funext member
    exact foldl_append.symm
  · rw [h'.users, h.users, Option.map_map, filter_append]
    congr 1
    funext user
    exact foldl_append.symm

theorem Member.updated_identity (now : Millis) (updates : List (ProviderUser × Uuid)) (member : Member) :
    (member.updated now updates).id = member.id ∧ (member.updated now updates).role = member.role := by
  induction updates generalizing member with
  | nil => exact ⟨rfl, rfl⟩
  | cons update rest ih =>
    rw [Member.updated, foldl_cons]
    split_ifs with hskip
    · exact ih member
    · exact ih (member.setActive now update.1.active)

theorem Updated.tracks (h : Updated env tenantId first dir dir') (htracks : Tracks tenantId existing second dir) :
    Tracks tenantId existing second dir' := by
  intro update hupdate
  obtain ⟨member, row, hmember, hrow, hid, hrole⟩ := htracks update hupdate
  have hidentity := Member.updated_identity env.now (first.filter (·.2 = update.2)) row
  refine ⟨member, _, hmember, (h.members update.2).trans (by rw [hrow, Option.map_some]), ?_, ?_⟩
  · rw [hidentity.1, hid]
  · rw [hidentity.2, hrole]

theorem updateExisting_ok {update : ProviderUser × Uuid} (h : dir.Valid)
    (htracks : Tracks tenantId existing [update] dir)
    (hok : updateExisting env tenantId existing update dir = .ok dir') :
    Updated env tenantId [update] dir dir' := by
  obtain ⟨pu, internalId⟩ := update
  obtain ⟨member, row, hmember, hrow, hid, hrole⟩ := htracks _ (mem_singleton_self _)
  dsimp only [updateExisting] at hok
  rw [hmember] at hok
  dsimp only at hok
  split at hok
  · exact nomatch hok
  next dir₁ huser =>
  have hdir := updateUser_ok huser
  have hvalid : dir₁.Valid := hdir ▸ h.mapUsers fun user ↦ by split_ifs <;> rfl
  have husers (userId : Uuid) : dir₁.userOf tenantId userId =
      (dir.userOf tenantId userId).map (.updated ([(pu, internalId)].filter (·.2 = userId))) := by
    rw [hdir, userOf_mapUsers fun user ↦ by split_ifs <;> exact ⟨rfl, rfl⟩]
    refine Option.map_congr fun user huser ↦ ?_
    obtain ⟨-, rfl, -⟩ := h.userOf_eq_some.mp huser
    by_cases heq : user.id = internalId
    · simp [heq, User.updated]
    · simp [heq, Ne.symm heq, User.updated]
  have hmembers (userId : Uuid) : dir₁.memberOf tenantId userId = dir.memberOf tenantId userId := hdir ▸ rfl
  split_ifs at hok with hskip
  · obtain rfl := Except.ok.inj hok
    refine ⟨hdir ▸ rfl, fun userId ↦ ?_, husers, hvalid⟩
    rw [hmembers]
    by_cases heq : internalId = userId
    · subst heq
      rw [hrow, Option.map_some]
      simp [Member.updated, hrole, hskip]
    · rw [filter_singleton, decide_eq_false heq]
      exact Option.map_id'.symm
  · obtain rfl := updateMember_ok hok
    have hkeeps := keepsIdentity_setActive env.now pu.active member.id
    refine ⟨hdir ▸ rfl, fun userId ↦ ?_, husers, hvalid.mapMembers hkeeps⟩
    rw [memberOf_mapMembers hkeeps, hmembers]
    refine Option.map_congr fun other hother ↦ ?_
    by_cases heq : internalId = userId
    · subst heq
      obtain rfl := Option.mem_unique hrow hother
      have hactive : ¬(row.role = .owner ∧ pu.active = false) := hrole ▸ hskip
      simp [Member.updated, hid, hactive]
    · have hne : other.id ≠ member.id := fun heq' ↦
        heq (h.userId_of_id hrow hother (hid.trans heq'.symm))
      simp [Member.updated, heq, hne]

theorem updateAll_ok {updates : List (ProviderUser × Uuid)} {count : SyncStats → SyncStats}
    {stats stats' : SyncStats} (h : dir.Valid) (htracks : Tracks tenantId existing updates dir)
    (hloop : forEach (updateExisting env tenantId existing) count updates stats dir = .ok (stats', dir')) :
    Updated env tenantId updates dir dir' := by
  induction updates generalizing stats dir with
  | nil =>
    rw [forEach] at hloop
    obtain ⟨-, rfl⟩ := Prod.mk.inj (Except.ok.inj hloop)
    exact updated_nil h
  | cons update rest ih =>
    obtain ⟨next, hnext, hrest⟩ := forEach_cons_ok.mp hloop
    obtain ⟨hhead, htail⟩ : Tracks tenantId existing [update] dir ∧ Tracks tenantId existing rest dir :=
      ⟨fun other hother ↦ htracks other (mem_cons.mpr (.inl (mem_singleton.mp hother))),
        fun other hother ↦ htracks other (mem_cons_of_mem _ hother)⟩
    have hupdated := updateExisting_ok h hhead hnext
    exact hupdated.trans (ih hupdated.valid (hupdated.tracks htail) hrest)

end Update

section Stages

variable {env : Env} {tenantId : Uuid} {plan : Plan} {existing dir dir' : Directory}

def chosenIds (env : Env) (plan : Plan) (byEmail : List (String × Uuid)) : List Uuid :=
  plan.toCreate.filterMap fun pu ↦ byEmail.lookup (env.toLowerCase pu.email)

structure Stages (env : Env) (tenantId : Uuid) (existing : Directory) (plan : Plan) (dir : Directory)
    (byEmail : List (String × Uuid)) (created enrolled updated : Directory) : Prop where
  createUsers : createUsers env tenantId plan.toCreate.zipIdx
    (userByEmail env (existingUsers env tenantId dir plan.toCreate)) dir = .ok (byEmail, created)
  enrol : ∃ count stats stats', forEach (provision env tenantId byEmail
    (existingTenantMembers tenantId created (chosenIds env plan byEmail))) count plan.toCreate.zipIdx stats created =
      .ok (stats', enrolled)
  update : ∃ count stats stats', forEach (updateExisting env tenantId existing) count plan.toUpdate stats enrolled =
    .ok (stats', updated)

theorem applyChanges_ok {stats : SyncStats} (hok : applyChanges env tenantId existing plan dir = .ok (stats, dir')) :
    ∃ byEmail created enrolled updated, Stages env tenantId existing plan dir byEmail created enrolled updated ∧
      dir' = deactivateMissing env tenantId existing plan.toDeactivate updated := by
  unfold applyChanges at hok
  split at hok
  · exact nomatch hok
  next byEmail created hcreated =>
  dsimp only at hok
  split at hok
  · exact nomatch hok
  next stats₁ enrolled henrolled =>
  split at hok
  · exact nomatch hok
  next stats₂ updated hupdated =>
  obtain ⟨-, rfl⟩ := Prod.mk.inj (Except.ok.inj hok)
  exact ⟨byEmail, created, enrolled, updated, ⟨hcreated, ⟨_, _, _, henrolled⟩, _, _, _, hupdated⟩, rfl⟩

variable {userIds : List Uuid} {userId : Uuid}

theorem existingTenantMembers_find? :
    (existingTenantMembers tenantId dir userIds).find? (·.userId = userId) =
      if userId ∈ userIds then dir.memberOf tenantId userId else none := by
  rw [existingTenantMembers, find?_filter, memberOf]
  split_ifs with hmem
  · congr 1
    funext member
    by_cases heq : member.userId = userId
    · simp [heq, hmem]
    · simp [heq]
  · rw [find?_eq_none]
    intro member _ hwanted
    simp only [Bool.and_eq_true, decide_eq_true_eq] at hwanted
    exact hmem (hwanted.2 ▸ hwanted.1.2)

theorem memberOf_of_find? {member : Member}
    (h : (existingTenantMembers tenantId dir userIds).find? (·.userId = userId) = some member) :
    dir.memberOf tenantId userId = some member := by
  rw [existingTenantMembers_find?] at h
  split_ifs at h
  exact h

theorem current_existingTenantMembers (userIds : List Uuid) :
    Current tenantId (existingTenantMembers tenantId dir userIds) dir :=
  fun _ member h ↦ ⟨member, memberOf_of_find? h, rfl, rfl⟩

end Stages

section Diff

variable {env : Env} {tenantId : Uuid} {users : List ProviderUser} {byEmail : List (String × Uuid)}
  {dir created enrolled updated after : Directory} {userId : Uuid} {pu : ProviderUser}

theorem updateOf_eq_some {pu' : ProviderUser} : updateOf dir tenantId pu = some (pu', userId) ↔ pu' = pu ∧
      dir.mappingOf tenantId pu.externalId = some userId ∧ ∃ member, dir.memberOf tenantId userId = some member ∧
        (dir.nameOf tenantId userId ≠ some pu.displayName ∨ member.deactivatedAt.isNone ≠ pu.active) := by
  constructor
  · intro h
    unfold updateOf at h
    split at h
    · exact nomatch h
    next internalId hmapping =>
    split at h
    · exact nomatch h
    next member hmember =>
    split_ifs at h with hdiffers
    obtain ⟨rfl, rfl⟩ := Prod.mk.inj (Option.some.inj h)
    exact ⟨rfl, hmapping, member, hmember, hdiffers⟩
  · rintro ⟨rfl, hmapping, member, hmember, hdiffers⟩
    simp only [updateOf, hmapping, hmember, if_pos hdiffers]

theorem mem_toUpdate {update : ProviderUser × Uuid} : update ∈ (diff dir tenantId users).toUpdate ↔
    update.1 ∈ users ∧ updateOf dir tenantId update.1 = some update := by
  rw [diff, mem_filterMap]
  constructor
  · rintro ⟨pu, hpu, hupdate⟩
    obtain rfl := (updateOf_eq_some.mp hupdate).1
    exact ⟨hpu, hupdate⟩
  · rintro ⟨hpu, hupdate⟩
    exact ⟨update.1, hpu, hupdate⟩

theorem mem_toDeactivate (h : dir.Valid) : userId ∈ (diff dir tenantId users).toDeactivate ↔
    ∃ externalId, dir.mappingOf tenantId externalId = some userId ∧ (∀ pu ∈ users, pu.externalId ≠ externalId) ∧
      ∃ member, dir.memberOf tenantId userId = some member ∧ member.deactivatedAt = none ∧ member.role ≠ .owner := by
  rw [diff, mem_filterMap]
  constructor
  · rintro ⟨⟨tenant, externalId, internalId⟩, hmapping, hdeactivation⟩
    unfold deactivationOf at hdeactivation
    split_ifs at hdeactivation with hskip
    rw [not_or, not_not] at hskip
    obtain ⟨rfl, hunseen⟩ := hskip
    split at hdeactivation
    · exact nomatch hdeactivation
    next member hmember =>
    split_ifs at hdeactivation with hactive
    obtain rfl := Option.some.inj hdeactivation
    refine ⟨externalId, h.mappingOf_eq_some.mpr hmapping, fun pu hpu heq ↦ ?_, member, hmember,
      Option.isNone_iff_eq_none.mp hactive.1, hactive.2⟩
    exact hunseen (any_eq_true.mpr ⟨pu, hpu, decide_eq_true heq⟩)
  · rintro ⟨externalId, hmapping, hunseen, member, hmember, hactive, hrole⟩
    refine ⟨_, h.mappingOf_eq_some.mp hmapping, ?_⟩
    have hany : ¬users.any (·.externalId = externalId) = true := by
      rw [any_eq_true]
      rintro ⟨pu, hpu, heq⟩
      exact hunseen pu hpu (of_decide_eq_true heq)
    simp only [deactivationOf]
    rw [if_neg (not_or.mpr ⟨not_not.mpr rfl, hany⟩), hmember]
    exact if_pos ⟨Option.isNone_iff_eq_none.mpr hactive, hrole⟩

theorem mem_toCreate : pu ∈ (diff dir tenantId users).toCreate ↔
    pu ∈ users ∧ dir.mappingOf tenantId pu.externalId = none := by
  rw [diff, mem_filter, Option.isNone_iff_eq_none]

/-- A sync of valid tables: the stages of the plan for the users, and the deactivation of the users that are no longer
listed. -/
structure Sync (env : Env) (tenantId : Uuid) (users : List ProviderUser) (dir : Directory)
    (byEmail : List (String × Uuid)) (created enrolled updated after : Directory) : Prop extends
    Stages env tenantId dir (diff dir tenantId users) dir byEmail created enrolled updated where
  valid : dir.Valid
  after_eq : after = deactivateMissing env tenantId dir (diff dir tenantId users).toDeactivate updated

theorem exists_sync {stats : SyncStats} (hvalid : dir.Valid)
    (hok : applyChanges env tenantId dir (diff dir tenantId users) dir = .ok (stats, after)) :
    ∃ byEmail created enrolled updated, Sync env tenantId users dir byEmail created enrolled updated after := by
  obtain ⟨byEmail, created, enrolled, updated, h, hafter⟩ := applyChanges_ok hok
  exact ⟨byEmail, created, enrolled, updated, h, hvalid, hafter⟩

variable (h : Sync env tenantId users dir byEmail created enrolled updated after)
include h

theorem Sync.usersCreated : UsersCreated env tenantId (diff dir tenantId users).toCreate.zipIdx
      (userByEmail env (existingUsers env tenantId dir (diff dir tenantId users).toCreate)) byEmail dir created :=
  createUsers_ok h.valid h.createUsers

theorem Sync.memberOf_created (userId : Uuid) :
    created.memberOf tenantId userId = dir.memberOf tenantId userId := by
  rw [memberOf, h.usersCreated.members, memberOf]

theorem Sync.mappingOf_created (externalId : String) :
    created.mappingOf tenantId externalId = dir.mappingOf tenantId externalId := by
  rw [mappingOf, h.usersCreated.mappings, mappingOf]

theorem Sync.enrolled_valid : enrolled.Valid ∧ enrolled.users = created.users := by
  obtain ⟨count, stats, stats', hloop⟩ := h.enrol
  exact provisionAll_valid h.usersCreated.valid (current_existingTenantMembers _) hloop

theorem Sync.enrolled_mapped {externalId : String} (hmapped : dir.mappingOf tenantId externalId = some userId) :
    enrolled.mappingOf tenantId externalId = some userId ∧
      enrolled.memberOf tenantId userId = dir.memberOf tenantId userId := by
  obtain ⟨count, stats, stats', hloop⟩ := h.enrol
  rw [← h.memberOf_created]
  refine provisionAll_mapped h.usersCreated.valid (current_existingTenantMembers _) hloop
    ((h.mappingOf_created externalId).trans hmapped) fun item hitem heq ↦ ?_
  have hmem := (mem_toCreate.mp (fst_mem_of_mem_zipIdx hitem)).2
  rw [heq, hmapped] at hmem
  exact nomatch hmem

theorem Sync.enrolled_active {member : Member} (hmember : dir.memberOf tenantId userId = some member)
    (hactive : member.deactivatedAt = none) :
    enrolled.memberOf tenantId userId = some member := by
  obtain ⟨count, stats, stats', hloop⟩ := h.enrol
  exact provisionAll_active h.usersCreated.valid (current_existingTenantMembers _) hloop
    (fun _ _ ↦ memberOf_of_find?) ((h.memberOf_created userId).trans hmember) hactive

theorem Sync.updated_ok : Updated env tenantId (diff dir tenantId users).toUpdate enrolled updated := by
  obtain ⟨count, stats, stats', hloop⟩ := h.update
  refine updateAll_ok h.enrolled_valid.1 (fun update hupdate ↦ ?_) hloop
  obtain ⟨-, hmapping, member, hmember, -⟩ := updateOf_eq_some.mp (mem_toUpdate.mp hupdate).2
  exact ⟨member, member, hmember, ((h.enrolled_mapped hmapping).2).trans hmember, rfl, rfl⟩

theorem Sync.memberOf_synced (userId : Uuid) : after.memberOf tenantId userId =
      (updated.memberOf tenantId userId).map fun member ↦
        if userId ∈ (diff dir tenantId users).toDeactivate then member.setActive env.now false else member := by
  have hkeeps : Directory.KeepsIdentity fun member ↦
      if deactivates tenantId dir (diff dir tenantId users).toDeactivate member then
        member.setActive env.now false else member := by
    intro member
    dsimp only
    split_ifs <;> exact ⟨rfl, rfl, rfl⟩
  have hupdated := h.updated_ok
  have hbatch (other : Uuid) (hother : other ∈ (diff dir tenantId users).toDeactivate) :
      ∃ member row, dir.memberOf tenantId other = some member ∧ updated.memberOf tenantId other = some row ∧
        row.id = member.id ∧ row.role ≠ .owner := by
    obtain ⟨externalId, hmapping, -, member, hmember, -, hrole⟩ := (mem_toDeactivate h.valid).mp hother
    have hidentity := Member.updated_identity env.now ((diff dir tenantId users).toUpdate.filter (·.2 = other)) member
    refine ⟨member, _, hmember, (hupdated.members other).trans ?_, hidentity.1, ?_⟩
    · rw [(h.enrolled_mapped hmapping).2, hmember, Option.map_some]
    · exact hidentity.2.symm ▸ hrole
  rw [h.after_eq]
  refine (memberOf_mapMembers hkeeps userId).trans (Option.map_congr fun row hrow ↦ ?_)
  have hiff : deactivates tenantId dir (diff dir tenantId users).toDeactivate row = true ↔
      userId ∈ (diff dir tenantId users).toDeactivate := by
    simp only [deactivates, Bool.and_eq_true, decide_eq_true_eq, mem_filterMap, Option.map_eq_some_iff]
    constructor
    · rintro ⟨⟨⟨other, hother, member, hmember, hid⟩, -⟩, -⟩
      obtain ⟨member', row', hmember', hrow', hid', -⟩ := hbatch other hother
      obtain rfl := Option.mem_unique hmember hmember'
      obtain rfl := hupdated.valid.userId_of_id hrow hrow' (hid.symm.trans hid'.symm)
      exact hother
    · intro hmem
      obtain ⟨member, row', hmember, hrow', hid, hrole⟩ := hbatch userId hmem
      obtain rfl := Option.mem_unique hrow hrow'
      exact ⟨⟨⟨userId, hmem, member, hmember, hid.symm⟩, (hupdated.valid.memberOf_eq_some.mp hrow).2.1⟩, hrole⟩
  by_cases hmem : userId ∈ (diff dir tenantId users).toDeactivate
  · rw [if_pos (hiff.mpr hmem), if_pos hmem]
  · rw [if_neg fun hdeactivates ↦ hmem (hiff.mp hdeactivates), if_neg hmem]

end Diff

section Run

variable {env : Env} {opts : SyncOptions} {store : Store} {providerUsers : List ProviderUser}

/-- A run that applies its plan: it claims the configuration, it learns the users of the provider, neither the
guard nor a dry run stops it, and its transaction commits. -/
structure Applies (env : Env) (opts : SyncOptions) (store : Store) (providerUsers : List ProviderUser)
    (stats : SyncStats) (dir' : Directory) : Prop where
  lock : env.fails .lock = none
  claimed : store.configs.any (claims env opts) = true
  fetched : env.fetchProviderUsers = .ok providerUsers
  loaded : env.fails .load = none
  visible : store.directory.usersVisible opts.tenantId = true
  guard : opts.force = true ∨ exceedsThreshold
    (diff store.directory opts.tenantId (validUsers providerUsers)).toDeactivate.length
    (store.directory.activeMembers opts.tenantId).length = false
  dryRun : opts.dryRun = false
  apply : env.fails .apply = none
  applied : applyChanges env opts.tenantId store.directory
    (diff store.directory opts.tenantId (validUsers providerUsers)) store.directory = .ok (stats, dir')

@[simp] theorem Store.claimed_directory : (store.claimed env opts).directory = store.directory := rfl

theorem claim_identity (config : SyncConfig) :
    (claim env opts config).id = config.id ∧ (claim env opts config).tenantId = config.tenantId := by
  unfold claim
  split_ifs <;> exact ⟨rfl, rfl⟩

theorem claimed_any (hclaimed : store.configs.any (claims env opts) = true) :
    (store.claimed env opts).configs.any (fun config ↦
      config.id = opts.configId && config.tenantId = opts.tenantId) = true := by
  obtain ⟨config, hconfig, hclaims⟩ := any_eq_true.mp hclaimed
  refine any_eq_true.mpr ⟨claim env opts config, mem_map_of_mem hconfig, ?_⟩
  rw [claims, Bool.and_eq_true] at hclaims
  rw [(claim_identity config).1, (claim_identity config).2]
  exact hclaims.1

variable {stats : SyncStats} {dir' : Directory}

theorem runDirectorySync_of_applies (h : Applies env opts store providerUsers stats dir') :
    runDirectorySync env opts store = finish env opts stats { store.claimed env opts with directory := dir' } := by
  have hguard : (!opts.force && exceedsThreshold
      (diff store.directory opts.tenantId (validUsers providerUsers)).toDeactivate.length
      (store.directory.activeMembers opts.tenantId).length) = false := by
    rcases h.guard with hforce | hthreshold
    · rw [hforce]
      rfl
    · rw [hthreshold, Bool.and_false]
  have hfound : (!(store.claimed env opts).configs.any fun config ↦
      config.id = opts.configId && config.tenantId = opts.tenantId) = false := by
    rw [claimed_any h.claimed]
    rfl
  have hvisible : (!(store.claimed env opts).directory.usersVisible opts.tenantId) = false := by
    rw [Store.claimed_directory, h.visible]
    rfl
  rw [runDirectorySync, h.lock]
  dsimp only
  rw [if_pos h.claimed, syncClaimed, if_neg (Bool.eq_false_iff.mp hfound), h.fetched]
  dsimp only
  rw [h.loaded]
  dsimp only
  rw [if_neg (Bool.eq_false_iff.mp hvisible), Store.claimed_directory, if_neg (Bool.eq_false_iff.mp hguard),
    applyPlan, if_neg (Bool.eq_false_iff.mp h.dryRun), h.apply]
  dsimp only
  rw [Store.claimed_directory, h.applied]

@[simp] theorem recordError_directory (thrown : SyncError) (stats : SyncStats) (store : Store) :
    (recordError env opts thrown stats store).2.directory = store.directory := by
  unfold recordError
  cases env.fails .writeError <;> cases env.fails .errorLog <;> rfl

@[simp] theorem recordError_success (thrown : SyncError) (stats : SyncStats) (store : Store) :
    (recordError env opts thrown stats store).1.success = false := by
  unfold recordError
  cases env.fails .errorLog <;> rfl

@[simp] theorem finish_directory (stats : SyncStats) (store : Store) :
    (finish env opts stats store).2.directory = store.directory := by
  unfold finish
  cases env.fails .log with
  | some thrown => exact recordError_directory _ _ _
  | none =>
    cases env.fails .finish with
    | some thrown => exact recordError_directory _ _ _
    | none => rfl

/-- What a run that applies nothing leaves: the tables, and a success only of a dry run. -/
def Leaves (opts : SyncOptions) (store : Store) (result : SyncResult × Store) : Prop :=
  result.2.directory = store.directory ∧ (result.1.success = true → opts.dryRun = true)

theorem leaves_recordError (thrown : SyncError) (stats : SyncStats) (store : Store) :
    Leaves opts store (recordError env opts thrown stats store) := by
  refine ⟨recordError_directory _ _ _, fun hsuccess ↦ ?_⟩
  rw [recordError_success] at hsuccess
  exact absurd hsuccess Bool.false_ne_true

theorem leaves_abortSafety (message : String) (store : Store) :
    Leaves opts store (abortSafety env opts message store) := by
  unfold abortSafety
  cases env.fails .abort with
  | some thrown => exact leaves_recordError _ _ _
  | none => exact ⟨rfl, fun hsuccess ↦ absurd hsuccess Bool.false_ne_true⟩

theorem applyPlan_cases (env : Env) (opts : SyncOptions) (plan : Plan) (store : Store) :
    (opts.dryRun = false ∧ env.fails .apply = none ∧
      ∃ result, applyChanges env opts.tenantId store.directory plan store.directory = .ok result) ∨
      Leaves opts store (applyPlan env opts plan store) := by
  unfold applyPlan
  cases hdry : opts.dryRun with
  | true => exact .inr ⟨finish_directory _ _, fun _ ↦ hdry⟩
  | false =>
    rw [if_neg Bool.false_ne_true]
    cases env.fails .apply with
    | some thrown => exact .inr (leaves_recordError _ _ _)
    | none =>
      dsimp only
      cases applyChanges env opts.tenantId store.directory plan store.directory with
      | error thrown => exact .inr (leaves_recordError _ _ _)
      | ok result => exact .inl ⟨rfl, rfl, result, rfl⟩

theorem runDirectorySync_cases (env : Env) (opts : SyncOptions) (store : Store) :
    (∃ providerUsers stats dir', Applies env opts store providerUsers stats dir') ∨
      Leaves opts store (runDirectorySync env opts store) := by
  have herror (thrown : SyncError) : Leaves opts store (recordError env opts thrown {} (store.claimed env opts)) :=
    leaves_recordError thrown {} (store.claimed env opts)
  rw [runDirectorySync]
  dsimp only
  cases hlock : env.fails .lock with
  | some thrown => exact .inr ⟨rfl, fun hsuccess ↦ absurd hsuccess Bool.false_ne_true⟩
  | none =>
  dsimp only
  by_cases hclaimed : store.configs.any (claims env opts) = true
  swap
  · rw [if_neg hclaimed]
    exact .inr ⟨rfl, fun hsuccess ↦ absurd hsuccess Bool.false_ne_true⟩
  rw [if_pos hclaimed, syncClaimed, claimed_any hclaimed, Bool.not_true, if_neg Bool.false_ne_true]
  cases hfetched : env.fetchProviderUsers with
  | error message => exact .inr (herror _)
  | ok providerUsers =>
  dsimp only
  cases hloaded : env.fails .load with
  | some thrown => exact .inr (herror _)
  | none =>
  dsimp only
  rw [Store.claimed_directory]
  cases hvisible : store.directory.usersVisible opts.tenantId with
  | false => exact .inr (herror _)
  | true =>
  rw [Bool.not_true, if_neg Bool.false_ne_true]
  split_ifs with hguard
  · exact .inr (leaves_abortSafety _ (store.claimed env opts))
  rcases applyPlan_cases env opts (diff store.directory opts.tenantId (validUsers providerUsers))
    (store.claimed env opts) with ⟨hdry, happly, result, hresult⟩ | hleaves
  · refine .inl ⟨providerUsers, result.1, result.2, hlock, hclaimed, hfetched, hloaded, hvisible, ?_, hdry,
      happly, hresult⟩
    rw [Bool.and_eq_true, not_and_or, Bool.not_eq_true, Bool.not_eq_true, Bool.not_eq_false'] at hguard
    exact hguard
  · exact .inr hleaves

theorem directory_of_applies (h : Applies env opts store providerUsers stats dir') :
    (runDirectorySync env opts store).2.directory = dir' := by
  rw [runDirectorySync_of_applies h, finish_directory]

/-- A provider that answers, and a database that does not fail. -/
def answering (providerUsers : List ProviderUser) : Env where
  toLowerCase := id
  lower := id
  sanitizeSyncError _ := "error"
  sanitizeMessage := id
  startedAt := 100
  now := 200
  completedAt := 300
  fetchProviderUsers := .ok providerUsers
  userId n := 1000 + n
  memberId n := 2000 + n
  logId := 3000
  fails _ := none

end Run

end PasswdSso.DirectorySync
