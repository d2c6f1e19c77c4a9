import PasswdSso.Scim.GroupMembers

/-!
# Replacing the members of a SCIM group

`replaceScimGroup` of `src/lib/services/scim-group-service.ts` adds the requested users and removes the other members.
-/

namespace PasswdSso.Scim

open List

/-- `ScimGroupReplaceInput` with the tenant and the SCIM id of the group. -/
structure ReplaceRequest where
  tenantId : Uuid
  scimId : String
  displayName : String
  memberUserIds : List Uuid

variable (env : Env) (db : Store) (req : ReplaceRequest)

/-- The users that `runReplace` adds. -/
def toAdd (mapping : GroupMapping) : List Uuid :=
  req.memberUserIds.eraseDups.filter fun userId ↦
    !(db.teamMembers.filter (isCurrent mapping.teamId mapping.role)).any (·.userId = userId)

/-- The ids of the memberships that `runReplace` removes. -/
def toRemove (mapping : GroupMapping) : List Uuid :=
  ((db.teamMembers.filter (isCurrent mapping.teamId mapping.role)).filter (·.userId ∉ req.memberUserIds)).map
    TeamMember.id

/-- `runReplace`, with the numbers of added and removed users. -/
def runReplace (mapping : GroupMapping) : Except ScimError (Store × Nat × Nat) :=
  match applyAddOperations env mapping.teamId req.tenantId mapping.role db (toAdd db req mapping) with
  | .error error => .error error
  | .ok added =>
    (applyRemoveOperations env mapping.teamId mapping.role added (toRemove db req mapping)).map
      (·, (toAdd db req mapping).length, (toRemove db req mapping).length)

def findMapping : Option GroupMapping :=
  db.mappings.find? fun mapping ↦ mapping.tenantId = req.tenantId && mapping.externalGroupId = req.scimId

/-- `replaceScimGroup`: the resource, the numbers of added and removed users, and the store after the transaction. -/
def replaceScimGroup : Except ScimError (GroupResource × Nat × Nat × Store) :=
  match findMapping db req with
  | none => .error .groupNotFound
  | some mapping =>
    if env.toLowerCase req.displayName ≠ env.toLowerCase mapping.displayName then
      .error (.displayNameMismatch mapping.displayName)
    else if mapping.role = .owner then .error .ownerProtected
    else (runReplace env db req mapping).map fun (after, added, removed) ↦
      (⟨mapping.externalGroupId, mapping.displayName, loadGroupMembers mapping.teamId mapping.role after⟩, added,
        removed, after)

section Replacement

variable {env db req} {mapping : GroupMapping}

/-- What a request has to satisfy: an existing group that is not the owners' group, under its name, and requested
users who are active in the tenant, have an email and do not own the team. -/
structure Replaceable (env : Env) (db : Store) (req : ReplaceRequest) (mapping : GroupMapping) : Prop where
  found : findMapping db req = some mapping
  displayName : env.toLowerCase req.displayName = env.toLowerCase mapping.displayName
  role : mapping.role ≠ .owner
  active : ∀ userId ∈ req.memberUserIds, isActiveTenantMember req.tenantId db userId = true
  email : ∀ userId ∈ req.memberUserIds, (db.email userId).isSome
  notOwner : ∀ row ∈ db.teamMembers, row.teamId = mapping.teamId → row.userId ∈ req.memberUserIds →
    row.deactivatedAt = none → row.role ≠ .owner

/-- No requested user has a deactivated membership of the team. -/
def NoneDeactivated (db : Store) (req : ReplaceRequest) (mapping : GroupMapping) : Prop :=
  ∀ row ∈ db.teamMembers, row.teamId = mapping.teamId → row.userId ∈ req.memberUserIds → row.deactivatedAt = none

theorem mem_toAdd {userId : Uuid} : userId ∈ toAdd db req mapping ↔ userId ∈ req.memberUserIds ∧
    ∀ row ∈ db.teamMembers, isCurrent mapping.teamId mapping.role row = true → row.userId ≠ userId := by
  simp [toAdd, mem_eraseDups]

theorem nodup_eraseDups (userIds : List Uuid) : userIds.eraseDups.Nodup := by
  induction hlength : userIds.length using Nat.strongRecOn generalizing userIds with
  | ind length ih =>
    cases userIds with
    | nil => simp
    | cons userId rest =>
      have hshorter : (rest.filter (!· == userId)).length < length :=
        hlength ▸ Nat.lt_succ_of_le (length_filter_le _ _)
      rw [eraseDups_cons]
      exact nodup_cons.mpr ⟨by simp, ih _ hshorter _ rfl⟩

/-- The store between the two operations. -/
def Store.addRequested (env : Env) (req : ReplaceRequest) (mapping : GroupMapping) (db : Store) : Store :=
  db.add env mapping.teamId req.tenantId mapping.role (toAdd db req mapping)

theorem addable (h : Replaceable env db req mapping) (hnone : NoneDeactivated db req mapping) :
    Addable mapping.teamId req.tenantId db (toAdd db req mapping) where
  notOwner row hrow := by
    obtain ⟨hmem, hteam, huser, hactive⟩ := mem_existingMembers.mp hrow
    exact h.notOwner row hmem hteam (mem_toAdd.mp huser).1 hactive
  active userId huser := h.active userId (mem_toAdd.mp (mem_toCreateUserIds.mp huser).1).1
  nodup := ((nodup_eraseDups _).filter _).filter _
  free row hrow hteam huser := by
    obtain ⟨hadd, hother⟩ := mem_toCreateUserIds.mp huser
    exact hother row hrow hteam (hnone row hrow hteam (mem_toAdd.mp hadd).1) rfl

/-- With a deactivated membership of a requested user, the creation of the user's membership fails. -/
theorem noneDeactivated_of_addable (hvalid : db.Valid)
    (h : Addable mapping.teamId req.tenantId db (toAdd db req mapping)) : NoneDeactivated db req mapping := by
  intro row hrow hteam huser
  by_contra hdeactivated
  have hother : ∀ other ∈ db.teamMembers, other.teamId = mapping.teamId → other.deactivatedAt = none →
      other.userId ≠ row.userId := fun other hother hotherTeam hactive heq ↦
    hdeactivated (hvalid.eq_of_membership hother hrow (hotherTeam.trans hteam.symm) heq ▸ hactive)
  refine h.free row hrow hteam (mem_toCreateUserIds.mpr ⟨mem_toAdd.mpr ⟨huser, fun other hmem hcurrent ↦ ?_⟩, hother⟩)
  obtain ⟨hotherTeam, -, hactive⟩ := isCurrent_iff.mp hcurrent
  exact hother other hmem hotherTeam hactive

/-- The memberships to remove are those of the group that are not requested. -/
theorem id_mem_toRemove (hvalid : db.Valid) (hfresh : env.Fresh db) {row : TeamMember}
    (hrow : row ∈ (db.addRequested env req mapping).teamMembers) : row.id ∈ toRemove db req mapping ↔
      isCurrent mapping.teamId mapping.role row = true ∧ row.userId ∉ req.memberUserIds := by
  rw [toRemove, filter_filter]
  rcases mem_append.mp hrow with hold | hnew
  · obtain ⟨old, hmem, rfl⟩ := mem_map.mp hold
    rw [addRole_keeps.1, addRole_keeps.2, id_mem_iff hvalid.ids hmem, Bool.and_eq_true, decide_eq_true_eq, and_comm]
    refine and_congr_left fun huser ↦ ?_
    rw [addRole, if_neg fun hadd ↦ huser (mem_toAdd.mp hadd.2.1).1]
  · obtain ⟨userId, hcreated, rfl⟩ := mem_map.mp hnew
    refine ⟨fun hid ↦ ?_, fun h ↦ absurd (mem_toAdd.mp (mem_toCreateUserIds.mp hcreated).1).1 h.2⟩
    obtain ⟨row, hrow, heq⟩ := mem_map.mp hid
    exact absurd heq (hfresh userId row (mem_filter.mp hrow).1)

/-- The store after the replacement. -/
def Store.replace (env : Env) (req : ReplaceRequest) (mapping : GroupMapping) (db : Store) : Store :=
  (db.addRequested env req mapping).remove env mapping.teamId mapping.role (toRemove db req mapping)

/-- The replacement succeeds exactly if no requested user has a deactivated membership. -/
theorem runReplace_eq_ok_iff (hvalid : db.Valid) (hfresh : env.Fresh db) (h : Replaceable env db req mapping)
    {result : Store × Nat × Nat} : runReplace env db req mapping = .ok result ↔ NoneDeactivated db req mapping ∧
      (db.replace env req mapping, (toAdd db req mapping).length, (toRemove db req mapping).length) = result := by
  have hremove : applyRemoveOperations env mapping.teamId mapping.role (db.addRequested env req mapping)
      (toRemove db req mapping) = .ok (db.replace env req mapping) := by
    refine (applyRemoveOperations_eq_ok_iff ?_).mpr ⟨?_, rfl⟩
    · intro row hrow other hother hid heq _
      obtain ⟨hteam, hrole, -⟩ := isCurrent_iff.mp ((id_mem_toRemove hvalid hfresh hother).mp (heq ▸ hid)).1
      exact ⟨hteam, hrole⟩
    · intro row hrow hid _
      obtain ⟨-, hrole, -⟩ := isCurrent_iff.mp ((id_mem_toRemove hvalid hfresh hrow).mp hid).1
      exact hrole ▸ h.role
  rw [runReplace]
  constructor
  · intro hok
    split at hok
    · cases hok
    · rename_i added hadd
      obtain ⟨haddable, rfl⟩ := (applyAddOperations_eq_ok_iff hvalid).mp hadd
      rw [← Store.addRequested, hremove] at hok
      exact ⟨noneDeactivated_of_addable hvalid haddable, Except.ok.inj hok⟩
  · rintro ⟨hnone, rfl⟩
    rw [(applyAddOperations_eq_ok_iff hvalid).mpr ⟨addable h hnone, rfl⟩]
    dsimp only
    rw [← Store.addRequested, hremove]
    rfl

theorem mem_loadGroupMembers {userId : Uuid} :
    userId ∈ (loadGroupMembers mapping.teamId mapping.role db).map ResourceMember.value ↔
      userId ∈ groupMembers mapping.teamId mapping.role db ∧ (db.email userId).isSome := by
  simp only [loadGroupMembers, mem_map, mem_filterMap, mem_filter, Option.map_eq_some_iff,
    Option.isSome_iff_exists]
  constructor
  · rintro ⟨_, ⟨row, hrow, email, hemail, rfl⟩, rfl⟩
    exact ⟨⟨row, hrow.1, hrow.2, rfl⟩, email, hemail⟩
  · rintro ⟨⟨row, hrow, hcurrent, rfl⟩, email, hemail⟩
    exact ⟨_, ⟨row, ⟨hrow, hcurrent⟩, email, hemail, rfl⟩, rfl⟩

theorem mem_groupMembers_replace (hvalid : db.Valid) (hfresh : env.Fresh db) (userId : Uuid) :
    userId ∈ groupMembers mapping.teamId mapping.role (db.replace env req mapping) ↔ userId ∈ req.memberUserIds := by
  rw [Store.replace, mem_groupMembers_remove]
  constructor
  · rintro ⟨row, hrow, hcurrent, hid, rfl⟩
    by_contra huser
    exact hid ((id_mem_toRemove hvalid hfresh hrow).mpr ⟨hcurrent, huser⟩)
  · intro huser
    have hmember : userId ∈ groupMembers mapping.teamId mapping.role (db.addRequested env req mapping) := by
      refine mem_groupMembers_add.mpr (or_iff_not_imp_left.mpr fun hother ↦ mem_toAdd.mpr ⟨huser, ?_⟩)
      exact fun row hrow hcurrent heq ↦ hother ⟨row, hrow, hcurrent, heq⟩
    obtain ⟨row, hrow, hcurrent, rfl⟩ := hmember
    exact ⟨row, hrow, hcurrent, fun hid ↦ ((id_mem_toRemove hvalid hfresh hrow).mp hid).2 huser, rfl⟩

/-- A membership of another user or team. -/
def isOther (req : ReplaceRequest) (mapping : GroupMapping) (row : TeamMember) : Bool :=
  !(row.teamId = mapping.teamId && row.userId ∈ req.memberUserIds)

/-- The memberships of other users and teams: those of the group are deactivated, and no other one changes. -/
def OthersKept (env : Env) (req : ReplaceRequest) (mapping : GroupMapping) (db after : Store) : Prop :=
  after.teamMembers.filter (isOther req mapping) = (db.teamMembers.filter (isOther req mapping)).map fun row ↦
    if isCurrent mapping.teamId mapping.role row then { row with deactivatedAt := some env.now } else row

theorem isOther_deactivate {memberIds : List Uuid} (row : TeamMember) :
    isOther req mapping (deactivate env mapping.teamId mapping.role memberIds row) = isOther req mapping row := by
  rw [deactivate]
  split_ifs <;> rfl

theorem isOther_addRole {userIds : List Uuid} (row : TeamMember) :
    isOther req mapping (addRole mapping.teamId mapping.role userIds row) = isOther req mapping row := by
  rw [addRole]
  split_ifs <;> rfl

theorem deactivate_other (hvalid : db.Valid) {row : TeamMember} (hrow : row ∈ db.teamMembers)
    (hother : isOther req mapping row = true) :
    deactivate env mapping.teamId mapping.role (toRemove db req mapping)
      (addRole mapping.teamId mapping.role (toAdd db req mapping) row) =
      if isCurrent mapping.teamId mapping.role row then { row with deactivatedAt := some env.now } else row := by
  have hrequested (hteam : row.teamId = mapping.teamId) : row.userId ∉ req.memberUserIds := by
    simpa [isOther, hteam] using hother
  rw [addRole, if_neg fun hadd ↦ hrequested hadd.1 (mem_toAdd.mp hadd.2.1).1, deactivate, toRemove, filter_filter]
  refine if_congr ?_ rfl rfl
  rw [id_mem_iff hvalid.ids hrow, Bool.and_eq_true, decide_eq_true_eq, isCurrent_iff]
  exact ⟨fun h ↦ h.2.1.2, fun h ↦ ⟨h.2.1, ⟨hrequested h.1, h⟩, h.1⟩⟩

theorem othersKept_replace (hvalid : db.Valid) : OthersKept env req mapping db (db.replace env req mapping) := by
  rw [OthersKept, Store.replace, Store.remove, Store.addRequested, Store.add, map_append, filter_append]
  have hcreated : (toCreateUserIds mapping.teamId db (toAdd db req mapping)).filter (fun userId ↦
      isOther req mapping (newMember env mapping.teamId req.tenantId mapping.role userId)) = [] := by
    refine filter_eq_nil_iff.mpr fun userId huser ↦ ?_
    simp [isOther, newMember, (mem_toAdd.mp (mem_toCreateUserIds.mp huser).1).1]
  simp only [filter_map, Function.comp_def, isOther_deactivate, isOther_addRole, hcreated, map_map,
    map_nil, append_nil]
  refine map_congr_left fun row hrow ↦ ?_
  obtain ⟨hmem, hother⟩ := mem_filter.mp hrow
  exact deactivate_other hvalid hmem hother

end Replacement

/-- The request succeeds, the group shows exactly the requested users, and the rest of the store stays. -/
def ReplacesExactly (env : Env) (db : Store) (req : ReplaceRequest) (mapping : GroupMapping) : Prop :=
  ∃ resource added removed after, replaceScimGroup env db req = .ok (resource, added, removed, after) ∧
    (∀ userId, userId ∈ resource.members.map ResourceMember.value ↔ userId ∈ req.memberUserIds) ∧
    OthersKept env req mapping db after ∧ after = { db with teamMembers := after.teamMembers }

/-- A group is replaced exactly iff no requested user has a deactivated membership of the team. -/
theorem replaceScimGroup_exact_iff (env : Env) (db : Store) (req : ReplaceRequest) (mapping : GroupMapping)
    (hvalid : db.Valid) (hfresh : env.Fresh db) (h : Replaceable env db req mapping) :
    ReplacesExactly env db req mapping ↔ NoneDeactivated db req mapping := by
  have hreplace : replaceScimGroup env db req = (runReplace env db req mapping).map fun result ↦
      (⟨mapping.externalGroupId, mapping.displayName, loadGroupMembers mapping.teamId mapping.role result.1⟩,
        result.2.1, result.2.2, result.1) := by
    rw [replaceScimGroup, h.found]
    dsimp only
    rw [if_neg (not_not.mpr h.displayName), if_neg h.role]
  rw [ReplacesExactly, hreplace]
  constructor
  · rintro ⟨resource, added, removed, after, hok, -⟩
    cases hrun : runReplace env db req mapping with
    | error error =>
      rw [hrun] at hok
      cases hok
    | ok result => exact ((runReplace_eq_ok_iff hvalid hfresh h).mp hrun).1
  · intro hnone
    rw [(runReplace_eq_ok_iff hvalid hfresh h).mpr ⟨hnone, rfl⟩]
    refine ⟨_, _, _, _, rfl, fun userId ↦ ?_, othersKept_replace hvalid, rfl⟩
    rw [mem_loadGroupMembers, mem_groupMembers_replace hvalid hfresh, and_iff_left_iff_imp]
    exact h.email userId

/-- A group of members of team `1` and a user `5` without a membership. -/
def twoMemberStore (deactivatedAt : Option Millis) : Store where
  mappings := [⟨1, "g", 1, .member, some "dev"⟩]
  teamMembers := [⟨10, 1, 3, 1, .member, true, none, true⟩, ⟨11, 1, 4, 1, .viewer, true, deactivatedAt, false⟩]
  tenantMembers := [⟨1, 3, none⟩, ⟨1, 4, none⟩, ⟨1, 5, none⟩]
  email _ := some "user"

/-- The request to have the users `4` and `5` in the group. -/
def replaceWithTwo : ReplaceRequest := ⟨1, "g", "dev:MEMBER", [4, 5]⟩

def someEnv : Env := ⟨(· + 20), 0, id⟩

theorem replaceable_two (deactivatedAt : Option Millis) :
    Replaceable someEnv (twoMemberStore deactivatedAt) replaceWithTwo ⟨1, "g", 1, .member, some "dev"⟩ where
  found := rfl
  displayName := rfl
  role := by decide
  active := by simp [replaceWithTwo, isActiveTenantMember, twoMemberStore]
  email _ _ := rfl
  notOwner := by simp [twoMemberStore]

theorem fresh_two (deactivatedAt : Option Millis) : someEnv.Fresh (twoMemberStore deactivatedAt) := by
  intro userId row hrow
  simp [twoMemberStore] at hrow
  rcases hrow with rfl | rfl <;> simp [someEnv]

theorem valid_two (deactivatedAt : Option Millis) : (twoMemberStore deactivatedAt).Valid :=
  ⟨by simp [twoMemberStore], by simp [twoMemberStore]⟩

theorem replaceScimGroup_exact_two :
    ReplacesExactly someEnv (twoMemberStore none) replaceWithTwo ⟨1, "g", 1, .member, some "dev"⟩ :=
  (replaceScimGroup_exact_iff someEnv (twoMemberStore none) replaceWithTwo _ (valid_two none) (fresh_two none)
    (replaceable_two none)).mpr (by simp [NoneDeactivated, twoMemberStore])

/-- The user `4` was deactivated in the team, and the request fails. -/
theorem replaceScimGroup_deactivated :
    replaceScimGroup someEnv (twoMemberStore (some 0)) replaceWithTwo = .error .uniqueViolation ∧
      ¬∀ (env : Env) (db : Store) (req : ReplaceRequest) (mapping : GroupMapping), db.Valid → env.Fresh db →
        Replaceable env db req mapping → ReplacesExactly env db req mapping := by
  have hfails : replaceScimGroup someEnv (twoMemberStore (some 0)) replaceWithTwo = .error .uniqueViolation :=
    rfl
  refine ⟨hfails, fun h ↦ ?_⟩
  obtain ⟨_, _, _, _, hok, -⟩ := h someEnv _ _ _ (valid_two (some 0)) (fresh_two _) (replaceable_two (some 0))
  rw [hfails] at hok
  cases hok

end PasswdSso.Scim
