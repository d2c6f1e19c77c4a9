import PasswdSso.DirectorySync.Apply

/-!
# Convergence of the sync

A successful run should leave every user of the provider with a membership in the provider's state, every mapped
user that the provider does not list inactive, and nothing for a second run to do. The last two hold of every
mapped member. The first fails where the tables hold half of what a user needs: a mapping without a membership is
never completed, and a user whom the run finds by email keeps its name, and its membership stays active whatever
the provider says.
-/

namespace PasswdSso.DirectorySync

open List Directory

section Definitions

variable (tenantId : Uuid)

structure Settled (users : List ProviderUser) (before after : Directory) : Prop where
  listed : ∀ pu ∈ users, ∃ userId member, after.mappingOf tenantId pu.externalId = some userId ∧
    after.memberOf tenantId userId = some member ∧ (member.role ≠ .owner → member.deactivatedAt.isNone = pu.active)
  unlisted : ∀ externalId userId, before.mappingOf tenantId externalId = some userId →
    (∀ pu ∈ users, pu.externalId ≠ externalId) → ∀ member, after.memberOf tenantId userId = some member →
      member.role ≠ .owner → member.deactivatedAt.isSome = true

/-- Nobody is created or deactivated, and no active state and no name changes. -/
structure Unchanged (before after : Directory) : Prop where
  users : after.users.map User.id = before.users.map User.id
  members : after.members.map Member.id = before.members.map Member.id
  mappings : after.mappings = before.mappings
  active : ∀ userId, (after.memberOf tenantId userId).map (·.deactivatedAt.isNone) =
    (before.memberOf tenantId userId).map (·.deactivatedAt.isNone)
  names : ∀ userId, after.nameOf tenantId userId = before.nameOf tenantId userId

/-- The run settles the tenant, and a second run with the same list changes nothing. -/
structure Converges (env : Env) (opts : SyncOptions) (store : Store) (providerUsers : List ProviderUser) :
    Prop where
  settled : Settled opts.tenantId (validUsers providerUsers) store.directory
    (runDirectorySync env opts store).2.directory
  again : ∀ (env' : Env) (opts' : SyncOptions), env'.fetchProviderUsers = .ok providerUsers →
    opts'.tenantId = opts.tenantId → Unchanged opts.tenantId (runDirectorySync env opts store).2.directory
      (runDirectorySync env' opts' (runDirectorySync env opts store).2).2.directory

def matchedUser (env : Env) (dir : Directory) (users : List ProviderUser) (pu : ProviderUser) : Option Uuid :=
  (userByEmail env (existingUsers env tenantId dir (diff dir tenantId users).toCreate)).lookup
    (env.toLowerCase pu.email)

/-- The tables hold no half of what a user needs: a mapped user has a membership, and a user found by email has
the provider's name already and, unless it is an owner, no active membership that the provider would suspend. -/
structure Ready (env : Env) (dir : Directory) (users : List ProviderUser) : Prop where
  mapped : ∀ pu ∈ users, ∀ userId, dir.mappingOf tenantId pu.externalId = some userId →
    (dir.memberOf tenantId userId).isSome = true
  named : ∀ pu ∈ users, dir.mappingOf tenantId pu.externalId = none → ∀ userId,
    matchedUser tenantId env dir users pu = some userId → dir.nameOf tenantId userId = some pu.displayName
  active : ∀ pu ∈ users, dir.mappingOf tenantId pu.externalId = none → ∀ userId,
    matchedUser tenantId env dir users pu = some userId → ∀ member, dir.memberOf tenantId userId = some member →
      member.deactivatedAt = none → member.role ≠ .owner → pu.active = true

/-- The tables agree with an entry of the list; a suspended owner may stay active. -/
def InStep (dir : Directory) (pu : ProviderUser) : Prop :=
  ∃ userId member, dir.mappingOf tenantId pu.externalId = some userId ∧
    dir.memberOf tenantId userId = some member ∧ dir.nameOf tenantId userId = some pu.displayName ∧
    (member.deactivatedAt.isNone = pu.active ∨ member.role = .owner ∧ pu.active = false)

end Definitions

variable {env : Env} {tenantId : Uuid} {users : List ProviderUser} {byEmail : List (String × Uuid)}
  {dir created enrolled updated after : Directory} {pu : ProviderUser} {externalId : String} {userId : Uuid}

theorem updates_of_unlisted (hvalid : dir.Valid) (hmapping : dir.mappingOf tenantId externalId = some userId)
    (hunlisted : ∀ pu ∈ users, pu.externalId ≠ externalId) :
    (users.filterMap (updateOf dir tenantId)).filter (·.2 = userId) = [] := by
  rw [filter_eq_nil_iff]
  intro update hupdate huser
  obtain ⟨hpu, hupdateOf⟩ := mem_toUpdate.mp hupdate
  obtain ⟨-, hmapping', -⟩ := updateOf_eq_some.mp hupdateOf
  rw [of_decide_eq_true huser] at hmapping'
  exact hunlisted _ hpu (hvalid.mappingOf_inj hmapping' hmapping)

theorem updates_of_listed (hvalid : dir.Valid) (hdistinct : (users.map ProviderUser.externalId).Nodup)
    (hpu : pu ∈ users) (hmapping : dir.mappingOf tenantId pu.externalId = some userId) :
    (users.filterMap (updateOf dir tenantId)).filter (·.2 = userId) = (updateOf dir tenantId pu).toList := by
  induction users with
  | nil => exact nomatch hpu
  | cons head rest ih =>
    rw [map_cons, nodup_cons] at hdistinct
    rcases mem_cons.mp hpu with rfl | hrest
    · have hnone := updates_of_unlisted hvalid hmapping fun other hother heq ↦
        hdistinct.1 (mem_map.mpr ⟨other, hother, heq⟩)
      cases hupdate : updateOf dir tenantId pu with
      | none => rw [filterMap_cons_none hupdate, hnone, Option.toList_none]
      | some update =>
        obtain ⟨-, hmapping', -⟩ := updateOf_eq_some.mp hupdate
        obtain rfl := Option.mem_unique hmapping hmapping'
        rw [filterMap_cons_some hupdate, filter_cons_of_pos (by simp), hnone, Option.toList_some]
    · cases hupdate : updateOf dir tenantId head with
      | none => rw [filterMap_cons_none hupdate, ih hdistinct.2 hrest]
      | some update =>
        obtain ⟨-, hmapping', -⟩ := updateOf_eq_some.mp hupdate
        have hne : update.2 ≠ userId := by
          rintro rfl
          exact hdistinct.1 (mem_map.mpr ⟨pu, hrest, hvalid.mappingOf_inj hmapping hmapping'⟩)
        rw [filterMap_cons_some hupdate, filter_cons_of_neg (by simpa using hne), ih hdistinct.2 hrest]

theorem userOf_of_memberOf (hvalid : dir.Valid) (hvisible : dir.usersVisible tenantId = true)
    (hmember : (dir.memberOf tenantId userId).isSome = true) : (dir.userOf tenantId userId).isSome = true := by
  obtain ⟨member, hmember⟩ := Option.isSome_iff_exists.mp hmember
  obtain ⟨hmem, htenant, rfl⟩ := hvalid.memberOf_eq_some.mp hmember
  have hall := all_eq_true.mp hvisible member hmem
  simpa [htenant] using hall

theorem usersVisible_iff (hvalid : dir.Valid) : dir.usersVisible tenantId = true ↔
    ∀ userId, (dir.memberOf tenantId userId).isSome = true → (dir.userOf tenantId userId).isSome = true := by
  refine ⟨fun hvisible _ ↦ userOf_of_memberOf hvalid hvisible, fun h ↦ all_eq_true.mpr fun member hmem ↦ ?_⟩
  by_cases htenant : member.tenantId = tenantId
  · simp [h member.userId (Option.isSome_iff_exists.mpr ⟨member, hvalid.memberOf_eq_some.mpr ⟨hmem, htenant, rfl⟩⟩)]
  · simp [htenant]

section AfterRun

variable (h : Sync env tenantId users dir byEmail created enrolled updated after)
include h

theorem Sync.after_valid : after.Valid := by
  rw [h.after_eq]
  refine h.updated_ok.valid.mapMembers fun member ↦ ?_
  split_ifs <;> exact ⟨rfl, rfl, rfl⟩

theorem Sync.after_mappingOf (externalId : String) :
    after.mappingOf tenantId externalId =
      enrolled.mappingOf tenantId externalId := by
  rw [mappingOf, h.after_eq, deactivateMissing, h.updated_ok.mappings, mappingOf]

theorem Sync.after_userOf (userId : Uuid) : after.userOf tenantId userId =
      (created.userOf tenantId userId).map
        (User.updated ((diff dir tenantId users).toUpdate.filter (·.2 = userId))) := by
  have henrolled : enrolled.userOf tenantId userId = created.userOf tenantId userId := by
    rw [userOf, h.enrolled_valid.2, userOf]
  rw [← henrolled, h.after_eq]
  exact h.updated_ok.users userId

theorem Sync.after_memberOf (userId : Uuid) : after.memberOf tenantId userId =
      ((enrolled.memberOf tenantId userId).map
        (Member.updated env.now ((diff dir tenantId users).toUpdate.filter (·.2 = userId)))).map fun member ↦
          if userId ∈ (diff dir tenantId users).toDeactivate then member.setActive env.now false else member := by
  rw [h.memberOf_synced, h.updated_ok.members]

theorem Sync.inStep_mapped (hvisible : dir.usersVisible tenantId = true)
    (hdistinct : (users.map ProviderUser.externalId).Nodup) (hpu : pu ∈ users)
    (hmapping : dir.mappingOf tenantId pu.externalId = some userId) {member : Member}
    (hmember : dir.memberOf tenantId userId = some member) :
    InStep tenantId after pu := by
  obtain ⟨hmapped, hkept⟩ := h.enrolled_mapped hmapping
  have hupdates : (diff dir tenantId users).toUpdate.filter (·.2 = userId) = (updateOf dir tenantId pu).toList :=
    updates_of_listed h.valid hdistinct hpu hmapping
  have hlisted : userId ∉ (diff dir tenantId users).toDeactivate := by
    intro hbatch
    obtain ⟨other, hother, hunlisted, -⟩ := (mem_toDeactivate h.valid).mp hbatch
    exact hunlisted pu hpu (h.valid.mappingOf_inj hmapping hother)
  obtain ⟨user, huser⟩ := Option.isSome_iff_exists.mp
    (userOf_of_memberOf h.valid hvisible (Option.isSome_iff_exists.mpr ⟨member, hmember⟩))
  have hmemberAfter := h.after_memberOf userId
  have huserAfter := h.after_userOf userId
  rw [hkept, hmember, hupdates, Option.map_some, Option.map_some, if_neg hlisted] at hmemberAfter
  rw [h.usersCreated.kept userId user huser, hupdates, Option.map_some] at huserAfter
  refine ⟨userId, _, (h.after_mappingOf _).trans hmapped, hmemberAfter, ?_, ?_⟩
  · rw [nameOf, huserAfter, Option.bind_some]
    cases hupdate : updateOf dir tenantId pu with
    | some update =>
      obtain ⟨heq, -⟩ := updateOf_eq_some.mp hupdate
      rw [← heq]
      rfl
    | none =>
      by_contra hname
      have hsome := updateOf_eq_some.mpr ⟨rfl, hmapping, member, hmember, .inl fun heq ↦ hname ?_⟩
      · rw [hupdate] at hsome
        exact nomatch hsome
      · rw [nameOf, huser] at heq
        exact heq
  · cases hupdate : updateOf dir tenantId pu with
    | some update =>
      obtain ⟨heq, -⟩ := updateOf_eq_some.mp hupdate
      rw [← heq, Option.toList_some, Member.updated, foldl_cons, foldl_nil]
      split_ifs with hskip
      · exact .inr hskip
      · left
        cases hactive : update.1.active <;> rfl
    | none =>
      left
      by_contra hactive
      have hsome := updateOf_eq_some.mpr ⟨rfl, hmapping, member, hmember, .inr hactive⟩
      rw [hupdate] at hsome
      exact nomatch hsome

theorem Sync.not_member_of_mapped (hmapping : dir.mappingOf tenantId externalId = some userId)
    (hmember : dir.memberOf tenantId userId = none) :
    after.mappingOf tenantId externalId = some userId ∧
      after.memberOf tenantId userId = none := by
  obtain ⟨hmapped, hkept⟩ := h.enrolled_mapped hmapping
  refine ⟨(h.after_mappingOf _).trans hmapped, ?_⟩
  rw [h.after_memberOf, hkept, hmember]
  rfl

theorem Sync.unlisted_inactive (hmapping : dir.mappingOf tenantId externalId = some userId)
    (hunlisted : ∀ pu ∈ users, pu.externalId ≠ externalId) {member : Member}
    (hmember : after.memberOf tenantId userId = some member)
    (hrole : member.role ≠ .owner) : member.deactivatedAt.isSome = true := by
  have hupdates : (diff dir tenantId users).toUpdate.filter (·.2 = userId) = [] :=
    updates_of_unlisted h.valid hmapping hunlisted
  rw [h.after_memberOf, (h.enrolled_mapped hmapping).2, hupdates] at hmember
  obtain ⟨row, hrow, rfl⟩ := Option.map_eq_some_iff.mp hmember
  obtain ⟨old, hold, rfl⟩ := Option.map_eq_some_iff.mp hrow
  split_ifs at hrole ⊢ with hbatch
  · rfl
  · change old.deactivatedAt.isSome = true
    rw [Option.isSome_iff_ne_none]
    intro hactive
    exact hbatch ((mem_toDeactivate h.valid).mpr ⟨externalId, hmapping, hunlisted, old, hold, hactive, hrole⟩)

theorem Sync.created_user (hdistinct : (users.map ProviderUser.externalId).Nodup) (hpu : pu ∈ users)
    (hunmapped : dir.mappingOf tenantId pu.externalId = none) :
    ∃ userId, byEmail.lookup (env.toLowerCase pu.email) = some userId ∧
      after.mappingOf tenantId pu.externalId = some userId ∧
      after.userOf tenantId userId = created.userOf tenantId userId ∧
      (dir.memberOf tenantId userId = none → ∃ n, after.memberOf tenantId userId =
          some (newMember env tenantId n userId pu.active)) ∧
      ∀ member, dir.memberOf tenantId userId = some member →
        after.memberOf tenantId userId =
          some (if member.deactivatedAt.isSome && pu.active then member.setActive env.now true
            else member) := by
  have hcreate : pu ∈ (diff dir tenantId users).toCreate := mem_toCreate.mpr ⟨hpu, hunmapped⟩
  obtain ⟨item, hitem, rfl⟩ : ∃ item ∈ (diff dir tenantId users).toCreate.zipIdx, item.1 = pu :=
    mem_map.mp (by rw [zipIdx_map_fst]; exact hcreate)
  obtain ⟨count, stats, stats', hloop⟩ := h.enrol
  have hitems : ((diff dir tenantId users).toCreate.zipIdx.map fun item ↦ item.1.externalId).Nodup := by
    have hfst := congrArg (map ProviderUser.externalId)
      (zipIdx_map_fst 0 (diff dir tenantId users).toCreate)
    rw [map_map] at hfst
    exact (congrArg List.Nodup hfst).mpr (hdistinct.sublist (filter_sublist.map _))
  obtain ⟨userId, hlookup, hmapping, before, round, hbefore, hround, henrolled⟩ := provisionAll_item
    h.usersCreated.valid (current_existingTenantMembers _) hloop hitems hitem
  rw [h.memberOf_created] at hbefore
  -- the user had no mapping, so neither an update nor the batch is about it
  have hother {other : String} (hmapped : dir.mappingOf tenantId other = some userId) : False := by
    have heq := h.enrolled_valid.1.mappingOf_inj (h.enrolled_mapped hmapped).1 hmapping
    rw [heq, hunmapped] at hmapped
    exact nomatch hmapped
  have hupdates : (diff dir tenantId users).toUpdate.filter (·.2 = userId) = [] := by
    rw [filter_eq_nil_iff]
    intro update hupdate huser
    obtain ⟨-, hmapped, -⟩ := updateOf_eq_some.mp (mem_toUpdate.mp hupdate).2
    exact hother (of_decide_eq_true huser ▸ hmapped)
  have hbatch : userId ∉ (diff dir tenantId users).toDeactivate := by
    intro hbatch
    obtain ⟨other, hmapped, -⟩ := (mem_toDeactivate h.valid).mp hbatch
    exact hother hmapped
  have hmember : after.memberOf tenantId userId = round.memberOf tenantId userId := by
    rw [h.after_memberOf, hupdates, hround, Option.map_map]
    simp [Function.comp_def, hbatch, Member.updated]
  have hchosen : userId ∈ chosenIds env (diff dir tenantId users) byEmail :=
    mem_filterMap.mpr ⟨item.1, hcreate, hlookup⟩
  have hfind : (existingTenantMembers tenantId created (chosenIds env (diff dir tenantId users) byEmail)).find?
      (·.userId = userId) = dir.memberOf tenantId userId := by
    rw [existingTenantMembers_find?, if_pos hchosen, h.memberOf_created]
  refine ⟨userId, hlookup, (h.after_mappingOf _).trans hmapping, ?_, fun hnone ↦ ?_, fun member hsome ↦ ?_⟩
  · rw [h.after_userOf, hupdates]
    exact Option.map_id'
  · rw [hmember]
    exact (henrolled.new (hfind.trans hnone)).2
  · rw [hmember, henrolled.old member (hfind.trans hsome), hbefore, hsome, Option.map_some]
    split_ifs <;> rfl

theorem Sync.lookup_cases (hvisible : dir.usersVisible tenantId = true)
    (hemails : (users.map fun pu ↦ env.toLowerCase pu.email).Nodup) (hpu : pu ∈ users)
    (hlookup : byEmail.lookup (env.toLowerCase pu.email) = some userId) :
    (matchedUser tenantId env dir users pu = some userId ∧
      ∃ user, dir.userOf tenantId userId = some user ∧ created.userOf tenantId userId = some user) ∨
    (dir.memberOf tenantId userId = none ∧
      ∃ user, created.userOf tenantId userId = some user ∧ user.name = some pu.displayName) := by
  rcases h.usersCreated.created _ _ hlookup with hmatched | ⟨hfresh, item, hitem, hemail, user, huser⟩
  · obtain ⟨user, huser⟩ := userByEmail_visible h.valid hmatched
    exact .inl ⟨hmatched, user, huser, h.usersCreated.kept userId user huser⟩
  · have hitem := (mem_toCreate.mp (fst_mem_of_mem_zipIdx hitem)).1
    obtain heq : item.1 = pu := inj_on_of_nodup_map hemails hitem hpu hemail
    refine .inr ⟨?_, user, heq ▸ huser⟩
    by_contra hmember
    have hsome := userOf_of_memberOf h.valid hvisible (Option.isSome_iff_ne_none.mpr hmember)
    rw [hfresh] at hsome
    exact absurd hsome Bool.false_ne_true

theorem Sync.after_visible (hvisible : dir.usersVisible tenantId = true) :
    after.usersVisible tenantId = true := by
  refine (usersVisible_iff (h.after_valid)).mpr fun userId hmember ↦ ?_
  have hcreated := h.usersCreated
  have hkept (hsome : (dir.userOf tenantId userId).isSome = true) :
      (created.userOf tenantId userId).isSome = true := by
    obtain ⟨user, huser⟩ := Option.isSome_iff_exists.mp hsome
    exact Option.isSome_iff_exists.mpr ⟨user, hcreated.kept userId user huser⟩
  rw [h.after_memberOf, Option.isSome_map, Option.isSome_map] at hmember
  rw [h.after_userOf, Option.isSome_map]
  obtain ⟨count, stats, stats', hloop⟩ := h.enrol
  rcases provisionAll_members hcreated.valid (current_existingTenantMembers _) hloop hmember with hold | ⟨key, hkey⟩
  · rw [h.memberOf_created] at hold
    exact hkept (userOf_of_memberOf h.valid hvisible hold)
  · rcases hcreated.created key userId hkey with hmatched | ⟨-, -, -, -, user, huser, -⟩
    · obtain ⟨user, huser⟩ := userByEmail_visible h.valid hmatched
      exact hkept (Option.isSome_iff_exists.mpr ⟨user, huser⟩)
    · exact Option.isSome_iff_exists.mpr ⟨user, huser⟩

theorem Sync.mapped_before (hunlisted : ∀ pu ∈ users, pu.externalId ≠ externalId) :
    after.mappingOf tenantId externalId = dir.mappingOf tenantId externalId := by
  obtain ⟨count, stats, stats', hloop⟩ := h.enrol
  rw [h.after_mappingOf, ← h.mappingOf_created]
  exact provisionAll_mappings h.usersCreated.valid (current_existingTenantMembers _) hloop fun item hitem ↦
    hunlisted _ (mem_toCreate.mp (fst_mem_of_mem_zipIdx hitem)).1

theorem Sync.inStep (hvisible : dir.usersVisible tenantId = true)
    (hdistinct : (users.map ProviderUser.externalId).Nodup)
    (hemails : (users.map fun pu ↦ env.toLowerCase pu.email).Nodup) (hready : Ready tenantId env dir users)
    (hpu : pu ∈ users) :
    InStep tenantId after pu := by
  cases hmapping : dir.mappingOf tenantId pu.externalId with
  | some userId =>
    obtain ⟨member, hmember⟩ := Option.isSome_iff_exists.mp (hready.mapped pu hpu userId hmapping)
    exact h.inStep_mapped hvisible hdistinct hpu hmapping hmember
  | none =>
    obtain ⟨userId, hlookup, hmapped, huserAfter, hnew, hold⟩ := h.created_user hdistinct hpu hmapping
    rcases h.lookup_cases hvisible hemails hpu hlookup with
      ⟨hmatched, user, huser, hcreated⟩ | ⟨hnone, user, hcreated, hname⟩
    · have hname : after.nameOf tenantId userId = some pu.displayName := by
        have hname := hready.named pu hpu hmapping userId hmatched
        rw [nameOf, huser] at hname
        rw [nameOf, huserAfter, hcreated]
        exact hname
      cases hmember : dir.memberOf tenantId userId with
      | none =>
        obtain ⟨n, hn⟩ := hnew hmember
        refine ⟨userId, _, hmapped, hn, hname, .inl ?_⟩
        cases hactive : pu.active <;> simp [newMember]
      | some member =>
        refine ⟨userId, _, hmapped, hold member hmember, hname, ?_⟩
        cases hstate : member.deactivatedAt with
        | some at_ =>
          left
          cases hactive : pu.active <;> simp [Member.setActive, hstate]
        | none =>
          rw [Option.isSome_none, Bool.false_and, if_neg Bool.false_ne_true, hstate, Option.isNone_none]
          by_cases hrole : member.role = .owner
          · cases hactive : pu.active with
            | true => exact .inl rfl
            | false => exact .inr ⟨hrole, rfl⟩
          · exact .inl (hready.active pu hpu hmapping userId hmatched member hmember hstate hrole).symm
    · obtain ⟨n, hn⟩ := hnew hnone
      refine ⟨userId, _, hmapped, hn, ?_, .inl ?_⟩
      · rw [nameOf, huserAfter, hcreated]
        exact hname
      · cases hactive : pu.active <;> simp [newMember]

end AfterRun

section Again

variable {existing : Directory}

theorem toCreate_eq_nil (hmapped : ∀ pu ∈ users, (dir.mappingOf tenantId pu.externalId).isSome = true) :
    (diff dir tenantId users).toCreate = [] := by
  refine filter_eq_nil_iff.mpr fun pu hpu hnone ↦ ?_
  have hsome := hmapped pu hpu
  rw [Option.isNone_iff_eq_none.mp hnone] at hsome
  exact absurd hsome Bool.false_ne_true

theorem toDeactivate_eq_nil (hvalid : dir.Valid)
    (hunlisted : ∀ externalId userId, dir.mappingOf tenantId externalId = some userId →
      (∀ pu ∈ users, pu.externalId ≠ externalId) → ∀ member, dir.memberOf tenantId userId = some member →
        member.role ≠ .owner → member.deactivatedAt.isSome = true) :
    (diff dir tenantId users).toDeactivate = [] := by
  refine eq_nil_iff_forall_not_mem.mpr fun userId hbatch ↦ ?_
  obtain ⟨externalId, hmapping, hunseen, member, hmember, hactive, hrole⟩ := (mem_toDeactivate hvalid).mp hbatch
  have hinactive := hunlisted externalId userId hmapping hunseen member hmember hrole
  rw [hactive] at hinactive
  exact absurd hinactive Bool.false_ne_true

theorem deactivateMissing_nil (env : Env) (dir : Directory) :
    deactivateMissing env tenantId existing [] dir = dir := by
  simp [deactivateMissing, deactivates]

theorem mapUsers_same_name (hvalid : dir.Valid) {user : User} {name : String}
    (huser : dir.userOf tenantId userId = some user) (hname : user.name = some name) :
    dir.mapUsers (fun user ↦ if user.id = userId then { user with name := some name } else user) = dir := by
  have hsame : dir.users.map (fun user ↦ if user.id = userId then { user with name := some name } else user) =
      dir.users := by
    rw [map_congr_left (g := id), map_id]
    intro other hother
    split_ifs with hid
    · obtain ⟨hmem, hid', -⟩ := hvalid.userOf_eq_some.mp huser
      rw [hvalid.users.eq_of_key_eq hother hmem (hid.trans hid'.symm), ← hname]
      rfl
    · rfl
  rw [mapUsers, hsame]

theorem updateExisting_inStep (hvalid : dir.Valid) {update : ProviderUser × Uuid}
    (hupdate : updateOf dir tenantId update.1 = some update) (hstep : InStep tenantId dir update.1)
    {dir' : Directory} (hok : updateExisting env tenantId dir update dir = .ok dir') : dir' = dir := by
  obtain ⟨pu, internalId⟩ := update
  obtain ⟨-, hmapping, member, hmember, hdiffers⟩ := updateOf_eq_some.mp hupdate
  obtain ⟨userId, member', hmapping', hmember', hname, hactive⟩ := hstep
  obtain rfl := Option.mem_unique hmapping hmapping'
  obtain rfl := Option.mem_unique hmember hmember'
  have hskip := hactive.resolve_left (hdiffers.resolve_left fun hne ↦ hne hname)
  obtain ⟨user, huser, hname⟩ := Option.bind_eq_some_iff.mp hname
  dsimp only [updateExisting] at hok
  rw [hmember] at hok
  dsimp only at hok
  split at hok
  · exact nomatch hok
  next dir₁ hupdateUser =>
  rw [if_pos hskip] at hok
  rw [← Except.ok.inj hok, updateUser_ok hupdateUser]
  exact mapUsers_same_name hvalid huser hname

theorem Stages.of_toCreate_nil (hcreate : (diff dir tenantId users).toCreate = [])
    (h : Stages env tenantId dir (diff dir tenantId users) dir byEmail created enrolled updated) :
    enrolled = dir := by
  have hcreated := h.createUsers
  obtain ⟨count, stats, stats', hloop⟩ := h.enrol
  rw [hcreate, zipIdx_nil, DirectorySync.createUsers] at hcreated
  rw [hcreate, zipIdx_nil, forEach] at hloop
  rw [← (Prod.mk.inj (Except.ok.inj hloop)).2, ← (Prod.mk.inj (Except.ok.inj hcreated)).2]

theorem applyChanges_inStep (hvalid : dir.Valid) (hstep : ∀ pu ∈ users, InStep tenantId dir pu)
    (hbatch : (diff dir tenantId users).toDeactivate = []) {stats : SyncStats} {dir' : Directory}
    (hok : applyChanges env tenantId dir (diff dir tenantId users) dir = .ok (stats, dir')) : dir' = dir := by
  obtain ⟨byEmail, created, enrolled, updated, h, rfl⟩ := applyChanges_ok hok
  have hcreate : (diff dir tenantId users).toCreate = [] := toCreate_eq_nil fun pu hpu ↦ by
    obtain ⟨userId, -, hmapping, -⟩ := hstep pu hpu
    exact Option.isSome_iff_exists.mpr ⟨userId, hmapping⟩
  obtain rfl := h.of_toCreate_nil hcreate
  obtain ⟨count, stats, stats', hloop⟩ := h.update
  rw [hbatch, deactivateMissing_nil]
  refine forEach_invariant (P := (· = enrolled)) hloop (fun update hupdate before after hround hbefore ↦ ?_) rfl
  subst hbefore
  obtain ⟨hpu, hupdateOf⟩ := mem_toUpdate.mp hupdate
  exact updateExisting_inStep hvalid hupdateOf (hstep _ hpu) hround

theorem updateAll_exists {updates : List (ProviderUser × Uuid)} {count : SyncStats → SyncStats}
    {stats : SyncStats} (hvalid : dir.Valid) (htracks : Tracks tenantId existing updates dir)
    (hvisible : ∀ update ∈ updates, (dir.userOf tenantId update.2).isSome = true) :
    ∃ result, forEach (updateExisting env tenantId existing) count updates stats dir = .ok result := by
  induction updates generalizing stats dir with
  | nil => exact ⟨_, rfl⟩
  | cons update rest ih =>
    have hhead : Tracks tenantId existing [update] dir := fun other hother ↦
      htracks other (mem_cons.mpr (.inl (mem_singleton.mp hother)))
    have hnext : ∃ next, updateExisting env tenantId existing update dir = .ok next := by
      obtain ⟨pu, internalId⟩ := update
      obtain ⟨member, row, hmember, hrow, hid, -⟩ := htracks _ mem_cons_self
      obtain ⟨hmem, htenant, -⟩ := hvalid.memberOf_eq_some.mp hrow
      dsimp only [updateExisting]
      rw [hmember, updateUser, if_pos (hvisible _ mem_cons_self)]
      dsimp only
      split_ifs
      · exact ⟨_, rfl⟩
      · refine ⟨_, if_pos ?_⟩
        exact any_eq_true.mpr ⟨row, hmem, by simp [hid, htenant]⟩
    obtain ⟨next, hnext⟩ := hnext
    have hupdated := updateExisting_ok hvalid hhead hnext
    obtain ⟨result, hresult⟩ := ih hupdated.valid
      (hupdated.tracks fun other hother ↦ htracks other (mem_cons_of_mem _ hother)) fun other hother ↦ by
        rw [hupdated.users, Option.isSome_map]
        exact hvisible other (mem_cons_of_mem _ hother)
    exact ⟨result, forEach_cons_ok.mpr ⟨next, hnext, hresult⟩⟩

theorem applyChanges_exists (hvalid : dir.Valid) (hvisible : dir.usersVisible tenantId = true)
    (hcreate : (diff dir tenantId users).toCreate = []) :
    ∃ result, applyChanges env tenantId dir (diff dir tenantId users) dir = .ok result := by
  have hmember (update : ProviderUser × Uuid) (hupdate : update ∈ (diff dir tenantId users).toUpdate) :
      ∃ member, dir.memberOf tenantId update.2 = some member := by
    obtain ⟨-, -, member, hmember, -⟩ := updateOf_eq_some.mp (mem_toUpdate.mp hupdate).2
    exact ⟨member, hmember⟩
  have hloop {count : SyncStats → SyncStats} {stats : SyncStats} :
      ∃ result, forEach (updateExisting env tenantId dir) count (diff dir tenantId users).toUpdate stats dir =
        .ok result := by
    refine updateAll_exists hvalid (fun update hupdate ↦ ?_) fun update hupdate ↦ ?_
    · obtain ⟨member, hmember⟩ := hmember update hupdate
      exact ⟨member, member, hmember, hmember, rfl, rfl⟩
    · obtain ⟨member, hmember⟩ := hmember update hupdate
      exact userOf_of_memberOf hvalid hvisible (Option.isSome_iff_exists.mpr ⟨member, hmember⟩)
  unfold applyChanges
  rw [hcreate, zipIdx_nil, createUsers]
  dsimp only
  rw [forEach]
  dsimp only
  obtain ⟨result, hresult⟩ := hloop
  rw [hresult]
  exact ⟨_, rfl⟩

end Again

section Runs

variable {opts : SyncOptions} {store : Store} {providerUsers : List ProviderUser}

theorem unchanged_refl (dir : Directory) : Unchanged tenantId dir dir :=
  ⟨rfl, rfl, rfl, fun _ ↦ rfl, fun _ ↦ rfl⟩

variable {stats : SyncStats} {dir' : Directory}

theorem claims_of_success (h : Applies env opts store providerUsers stats dir')
    (hsuccess : (runDirectorySync env opts store).1.success = true) (env' : Env) :
    (runDirectorySync env opts store).2.configs.any (claims env' opts) = true := by
  rw [runDirectorySync_of_applies h] at hsuccess ⊢
  unfold finish at hsuccess ⊢
  cases hlog : env.fails .log with
  | some thrown =>
    rw [hlog] at hsuccess
    exact absurd (hsuccess.symm.trans (recordError_success _ _ _)) (Ne.symm Bool.false_ne_true)
  | none =>
    rw [hlog] at hsuccess
    dsimp only at hsuccess ⊢
    cases hfinish : env.fails .finish with
    | some thrown =>
      rw [hfinish] at hsuccess
      exact absurd (hsuccess.symm.trans (recordError_success _ _ _)) (Ne.symm Bool.false_ne_true)
    | none =>
      obtain ⟨config, hconfig, hmine⟩ := any_eq_true.mp (claimed_any h.claimed)
      refine any_eq_true.mpr ⟨_, mem_map_of_mem (f := fun config ↦ ite _ _ config) hconfig, ?_⟩
      rw [if_pos hmine]
      rw [Bool.and_eq_true, decide_eq_true_eq, decide_eq_true_eq] at hmine
      simp [claims, hmine.1, hmine.2]

theorem applies_again (h : Applies env opts store providerUsers stats dir')
    (hsuccess : (runDirectorySync env opts store).1.success = true) (hvalid : dir'.Valid)
    (hvisible : dir'.usersVisible opts.tenantId = true)
    (hcreate : (diff dir' opts.tenantId (validUsers providerUsers)).toCreate = [])
    (hbatch : (diff dir' opts.tenantId (validUsers providerUsers)).toDeactivate = []) :
    ∃ stats'' dir'', Applies { env with fails := fun _ ↦ none } opts (runDirectorySync env opts store).2
      providerUsers stats'' dir'' := by
  have hdirectory := directory_of_applies h
  have happly : ∃ result, applyChanges { env with fails := fun _ ↦ none } opts.tenantId dir'
      (diff dir' opts.tenantId (validUsers providerUsers)) dir' = .ok result :=
    applyChanges_exists hvalid hvisible hcreate
  obtain ⟨result, hresult⟩ := happly
  refine ⟨result.1, result.2, rfl, claims_of_success h hsuccess _, h.fetched, rfl, ?_, .inr ?_, h.dryRun, rfl, ?_⟩
  · rw [hdirectory]
    exact hvisible
  · rw [hdirectory, hbatch]
    simp [exceedsThreshold]
  · rw [hdirectory]
    exact hresult

theorem Sync.plan_of_settled (h : Sync env tenantId users dir byEmail created enrolled updated after)
    (hsettled : Settled tenantId users dir after) :
    (diff after tenantId users).toCreate = [] ∧ (diff after tenantId users).toDeactivate = [] := by
  refine ⟨toCreate_eq_nil fun pu hpu ↦ ?_, toDeactivate_eq_nil h.after_valid ?_⟩
  · obtain ⟨userId, -, hmapping, -⟩ := hsettled.listed pu hpu
    exact Option.isSome_iff_exists.mpr ⟨userId, hmapping⟩
  · intro externalId userId hmapping hunlisted
    exact hsettled.unlisted externalId userId ((h.mapped_before hunlisted).symm.trans hmapping) hunlisted

theorem Converges.of_ready (hvalid : store.directory.Valid)
    (happlies : Applies env opts store providerUsers stats dir')
    (hdistinct : ((validUsers providerUsers).map ProviderUser.externalId).Nodup)
    (hemails : ((validUsers providerUsers).map fun pu ↦ env.toLowerCase pu.email).Nodup)
    (hready : Ready opts.tenantId env store.directory (validUsers providerUsers)) :
    Converges env opts store providerUsers := by
  obtain ⟨byEmail, created, enrolled, updated, h⟩ := exists_sync hvalid happlies.applied
  have hdirectory := directory_of_applies happlies
  have hstep {pu : ProviderUser} (hpu : pu ∈ validUsers providerUsers) :=
    h.inStep happlies.visible hdistinct hemails hready hpu
  have hsettled : Settled opts.tenantId (validUsers providerUsers) store.directory
      (runDirectorySync env opts store).2.directory := by
    rw [hdirectory]
    refine ⟨fun pu hpu ↦ ?_, fun externalId userId hmapping hunlisted member ↦
      h.unlisted_inactive hmapping hunlisted⟩
    obtain ⟨userId, member, hmapping, hmember, -, hactive⟩ := hstep hpu
    exact ⟨userId, member, hmapping, hmember, fun hrole ↦ hactive.resolve_right fun howner ↦ hrole howner.1⟩
  refine ⟨hsettled, fun env' opts' hfetched' htenant ↦ ?_⟩
  rcases runDirectorySync_cases env' opts' (runDirectorySync env opts store).2 with
    ⟨providerUsers', stats', dir'', happlies'⟩ | hleaves
  · obtain rfl := Except.ok.inj (hfetched'.symm.trans happlies'.fetched)
    have happlied := happlies'.applied
    rw [directory_of_applies happlies', hdirectory]
    rw [htenant, hdirectory] at happlied
    rw [hdirectory] at hsettled
    have hsame := applyChanges_inStep h.after_valid (fun pu ↦ hstep) (h.plan_of_settled hsettled).2 happlied
    rw [hsame]
    exact unchanged_refl _
  · rw [hleaves.1]
    exact unchanged_refl _

theorem Converges.ready (hvalid : store.directory.Valid) (happlies : Applies env opts store providerUsers stats dir')
    (hsuccess : (runDirectorySync env opts store).1.success = true)
    (hdistinct : ((validUsers providerUsers).map ProviderUser.externalId).Nodup)
    (hconverges : Converges env opts store providerUsers) :
    Ready opts.tenantId env store.directory (validUsers providerUsers) := by
  obtain ⟨byEmail, created, enrolled, updated, h⟩ := exists_sync hvalid happlies.applied
  have hdirectory := directory_of_applies happlies
  have hsettled := hconverges.settled
  rw [hdirectory] at hsettled
  refine ⟨fun pu hpu userId hmapping ↦ ?_, fun pu hpu hunmapped userId hmatched ↦ ?_,
    fun pu hpu hunmapped userId hmatched member hmember hactive hrole ↦ ?_⟩
  · rw [Option.isSome_iff_ne_none]
    intro hnone
    obtain ⟨hmapped, hmember⟩ := h.not_member_of_mapped hmapping hnone
    obtain ⟨userId', member, hmapped', hmember', -⟩ := hsettled.listed pu hpu
    obtain rfl := Option.mem_unique hmapped hmapped'
    rw [hmember] at hmember'
    exact nomatch hmember'
  · -- the second run sets the name, so it was the provider's already
    obtain ⟨userId', hlookup, hmapped, huser, -⟩ := h.created_user hdistinct hpu hunmapped
    obtain rfl := Option.some.inj ((h.usersCreated.found _ _ hmatched).symm.trans hlookup)
    obtain ⟨user, hold⟩ := userByEmail_visible hvalid hmatched
    obtain ⟨stats'', dir'', hagain⟩ := applies_again happlies hsuccess h.after_valid
      (h.after_visible happlies.visible) (h.plan_of_settled hsettled).1 (h.plan_of_settled hsettled).2
    have happlied := hagain.applied
    have hnames := (hconverges.again _ opts hagain.fetched rfl).names userId
    rw [directory_of_applies hagain, hdirectory] at hnames
    rw [hdirectory] at happlied
    obtain ⟨byEmail', created', enrolled', updated', h'⟩ := exists_sync h.after_valid happlied
    obtain ⟨userId', member, hmapped', hmember, -⟩ := hsettled.listed pu hpu
    obtain rfl := Option.mem_unique hmapped hmapped'
    obtain ⟨userId', -, hmapped'', -, hname, -⟩ := h'.inStep_mapped
      (h.after_visible happlies.visible) hdistinct hpu hmapped hmember
    rw [h'.after_mappingOf, (h'.enrolled_mapped hmapped).1] at hmapped''
    obtain rfl := Option.some.inj hmapped''
    rw [hname, nameOf, huser, h.usersCreated.kept userId user hold] at hnames
    rw [nameOf, hold]
    exact hnames.symm
  · obtain ⟨userId', hlookup, hmapped, -, -, hkept⟩ := h.created_user hdistinct hpu hunmapped
    obtain rfl := Option.some.inj ((h.usersCreated.found _ _ hmatched).symm.trans hlookup)
    have hafter := hkept member hmember
    rw [hactive, Option.isSome_none, Bool.false_and, if_neg Bool.false_ne_true] at hafter
    obtain ⟨userId', member', hmapped', hmember', hstate⟩ := hsettled.listed pu hpu
    obtain rfl := Option.mem_unique hmapped hmapped'
    obtain rfl := Option.mem_unique hafter hmember'
    rw [← hstate hrole, hactive]
    rfl

/-- A successful run over distinct external ids and emails converges exactly when the tables are ready for it. -/
theorem converges_iff_ready (hvalid : store.directory.Valid) (hdryRun : opts.dryRun = false)
    (hfetched : env.fetchProviderUsers = .ok providerUsers)
    (hdistinct : ((validUsers providerUsers).map ProviderUser.externalId).Nodup)
    (hemails : ((validUsers providerUsers).map fun pu ↦ env.toLowerCase pu.email).Nodup)
    (hsuccess : (runDirectorySync env opts store).1.success = true) :
    Converges env opts store providerUsers ↔ Ready opts.tenantId env store.directory (validUsers providerUsers) := by
  rcases runDirectorySync_cases env opts store with ⟨providerUsers', stats, dir', happlies⟩ | hleaves
  · obtain rfl := Except.ok.inj (hfetched.symm.trans happlies.fetched)
    exact ⟨Converges.ready hvalid happlies hsuccess hdistinct, Converges.of_ready hvalid happlies hdistinct hemails⟩
  · exact absurd (hdryRun.symm.trans (hleaves.2 hsuccess)) Bool.false_ne_true

def unmappedMember : Store where
  directory :=
    { users := [⟨1, 7, some "a@example.com", some "A"⟩]
      members := [⟨11, 7, 1, .member, none, false, .manual, none⟩]
      mappings := [] }
  configs := [⟨5, 7, 60, .idle, none, none, none, none⟩]
  logs := []

/-- The provider suspends a user who is a member without a mapping: the run maps the user and leaves the
membership active. -/
theorem not_converges_unmapped_suspended :
    ∃ env opts store providerUsers, store.directory.Valid ∧ opts.dryRun = false ∧
      env.fetchProviderUsers = .ok providerUsers ∧
      (providerUsers.map ProviderUser.externalId).Nodup ∧
      (providerUsers.map fun pu ↦ env.toLowerCase pu.email).Nodup ∧
      (runDirectorySync env opts store).1.success = true ∧ ¬Converges env opts store providerUsers := by
  let pu : ProviderUser := ⟨"ext-a", "a@example.com", "A", false⟩
  refine ⟨answering [pu], { configId := 5, tenantId := 7 }, unmappedMember, [pu], by decide +kernel, rfl, rfl,
    by decide +kernel, by decide +kernel, by decide +kernel, fun hconverges ↦ ?_⟩
  obtain ⟨userId, member, hmapping, hmember, hactive⟩ := hconverges.settled.listed pu (by decide +kernel)
  have hmapping' : (runDirectorySync (answering [pu]) { configId := 5, tenantId := 7 }
      unmappedMember).2.directory.mappingOf 7 pu.externalId = some 1 := by decide +kernel
  obtain rfl := Option.mem_unique hmapping hmapping'
  have hmember' : (runDirectorySync (answering [pu]) { configId := 5, tenantId := 7 }
      unmappedMember).2.directory.memberOf 7 1 = some ⟨11, 7, 1, .member, none, false, .manual, none⟩ := by
    decide +kernel
  obtain rfl := Option.mem_unique hmember hmember'
  exact absurd (hactive (by decide)) (by decide)

theorem converges_member_and_new_user :
    Converges (answering [⟨"ext-a", "a@example.com", "A", true⟩, ⟨"ext-b", "b@example.com", "B", false⟩])
      { configId := 5, tenantId := 7 } unmappedMember
      [⟨"ext-a", "a@example.com", "A", true⟩, ⟨"ext-b", "b@example.com", "B", false⟩] := by
  refine (converges_iff_ready (by decide +kernel) rfl rfl (by decide +kernel) (by decide +kernel)
    (by decide +kernel)).mpr ⟨?_, ?_, ?_⟩
  · intro pu hpu userId hmapping
    exact nomatch hmapping
  · decide +kernel
  · decide +kernel

end Runs

end PasswdSso.DirectorySync
