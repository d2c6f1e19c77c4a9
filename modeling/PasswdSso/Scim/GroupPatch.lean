import Mathlib.Data.List.Induction
import Mathlib.Data.Set.Insert
import PasswdSso.Scim.GroupReplace

/-!
# Patching the members of a SCIM group

`patchScimGroup` of `src/lib/services/scim-group-service.ts` applies all additions of a request and then all removals.
The operations of a PATCH request have a meaning in their order, which this keeps unless a user is removed and then
added again.
-/

namespace PasswdSso.Scim

open List

inductive MemberOp
  | add
  | remove
  deriving DecidableEq

structure GroupMemberAction where
  op : MemberOp
  userId : Uuid

/-- The arguments of `patchScimGroup`. -/
structure PatchRequest where
  tenantId : Uuid
  scimId : String
  operations : List GroupMemberAction

def PatchRequest.userIds (req : PatchRequest) (op : MemberOp) : List Uuid :=
  (req.operations.filter (·.op = op)).map GroupMemberAction.userId

section Patch

variable (env : Env) (db : Store) (req : PatchRequest) (mapping : GroupMapping)

/-- The removals of `runPatch`. -/
def removeUsers (userIds : List Uuid) : Except ScimError Store :=
  let members := db.teamMembers.filter fun row ↦ row.teamId = mapping.teamId && row.userId ∈ userIds
  match userIds.find? fun userId ↦ !members.any (·.userId = userId) with
  | some userId => .error (.noSuchMember userId)
  | none => applyRemoveOperations env mapping.teamId mapping.role db (members.map TeamMember.id)

/-- `runPatch`; without removals, the second part changes nothing. -/
def runPatch : Except ScimError Store :=
  match applyAddOperations env mapping.teamId req.tenantId mapping.role db (req.userIds .add) with
  | .error error => .error error
  | .ok added => removeUsers env added mapping (req.userIds .remove)

/-- `patchScimGroup`: the resource, the team and the role of the group, and the store after the transaction. -/
def patchScimGroup : Except ScimError (GroupResource × Uuid × TeamRole × Store) :=
  match db.mappings.find? fun mapping ↦ mapping.tenantId = req.tenantId && mapping.externalGroupId = req.scimId with
  | none => .error .groupNotFound
  | some mapping => (runPatch env db req mapping).map fun after ↦
      (⟨mapping.externalGroupId, mapping.displayName, loadGroupMembers mapping.teamId mapping.role after⟩,
        mapping.teamId, mapping.role, after)

end Patch

/-! ### The operations in their order -/

/-- What one operation means. -/
def GroupMemberAction.apply (members : Set Uuid) (action : GroupMemberAction) : Set Uuid :=
  match action.op with
  | .add => insert action.userId members
  | .remove => members \ {action.userId}

/-- The last operation on a user. -/
def lastOp (operations : List GroupMemberAction) (userId : Uuid) : Option MemberOp :=
  (operations.filter (·.userId = userId)).getLast?.map GroupMemberAction.op

/-- The user is removed, and then added again. -/
def ReAdded (operations : List GroupMemberAction) (userId : Uuid) : Prop :=
  ⟨.remove, userId⟩ ∈ operations ∧ lastOp operations userId = some .add

theorem mem_foldl_apply (members : Set Uuid) (operations : List GroupMemberAction) (userId : Uuid) :
    userId ∈ operations.foldl GroupMemberAction.apply members ↔
      lastOp operations userId = some .add ∨ lastOp operations userId = none ∧ userId ∈ members := by
  induction operations using reverseRecOn with
  | nil => simp [lastOp]
  | append_singleton operations action ih =>
    obtain ⟨op, other⟩ := action
    rw [foldl_concat, lastOp, filter_append]
    rcases eq_or_ne other userId with rfl | hne
    · cases op <;> simp [GroupMemberAction.apply]
    · cases op <;> simp [GroupMemberAction.apply, hne, hne.symm, ih, lastOp]

theorem mem_of_lastOp {operations : List GroupMemberAction} {userId : Uuid} {op : MemberOp}
    (h : lastOp operations userId = some op) : ⟨op, userId⟩ ∈ operations := by
  obtain ⟨action, hlast, rfl⟩ := Option.map_eq_some_iff.mp h
  obtain ⟨hmem, huser⟩ := mem_filter.mp (mem_of_getLast? hlast)
  exact of_decide_eq_true huser ▸ hmem

theorem PatchRequest.mem_userIds {req : PatchRequest} {op : MemberOp} {userId : Uuid} :
    userId ∈ req.userIds op ↔ ⟨op, userId⟩ ∈ req.operations := by
  simp only [userIds, mem_map, mem_filter, decide_eq_true_eq]
  exact ⟨fun ⟨_, ⟨hmem, hop⟩, huser⟩ ↦ hop ▸ huser ▸ hmem, fun hmem ↦ ⟨_, ⟨hmem, rfl⟩, rfl⟩⟩

/-- The additions before the removals mean the same for a user who is not added again. -/
theorem PatchRequest.batch_iff (req : PatchRequest) (members : Set Uuid) (userId : Uuid) :
    ((userId ∈ members ∨ userId ∈ req.userIds .add) ∧ userId ∉ req.userIds .remove ↔
      userId ∈ req.operations.foldl GroupMemberAction.apply members) ↔ ¬ReAdded req.operations userId := by
  simp only [mem_foldl_apply, ReAdded, mem_userIds]
  cases hlast : lastOp req.operations userId with
  | none =>
    have hother (op : MemberOp) : ⟨op, userId⟩ ∉ req.operations := by
      intro hmem
      have hnil : req.operations.filter (·.userId = userId) = [] := by simpa [lastOp] using hlast
      exact filter_eq_nil_iff.mp hnil _ hmem (decide_eq_true rfl)
    simp [hother]
  | some op =>
    have hmem := mem_of_lastOp hlast
    cases op <;> simp [hmem]

/-! ### What a successful request does -/

section Success

variable {env : Env} {teamId tenantId : Uuid} {role : TeamRole} {db : Store} {userIds : List Uuid}

/-- The database draws different ids for the new memberships. -/
theorem nodup_ids_add (hvalid : db.Valid) (hfresh : env.Fresh db) (hnewId : Function.Injective env.newId)
    (h : Addable teamId tenantId db userIds) :
    ((db.add env teamId tenantId role userIds).teamMembers.map TeamMember.id).Nodup := by
  have hold : TeamMember.id ∘ addRole teamId role userIds = TeamMember.id := funext fun _ ↦ addRole_keeps.1
  rw [Store.add, map_append, map_map, hold, map_map]
  refine hvalid.ids.append (h.nodup.map hnewId) fun id hid hnew ↦ ?_
  obtain ⟨row, hrow, rfl⟩ := mem_map.mp hid
  obtain ⟨userId, -, heq⟩ := mem_map.mp hnew
  exact hfresh userId row hrow heq.symm

theorem mem_add_of_owner (h : Addable teamId tenantId db userIds) {row : TeamMember} (hrow : row ∈ db.teamMembers)
    (howner : row.role = .owner) : row ∈ (db.add env teamId tenantId role userIds).teamMembers := by
  have hkept : addRole teamId role userIds row = row := if_neg fun hadd ↦
    h.notOwner row (mem_existingMembers.mpr ⟨hrow, hadd⟩) howner
  exact mem_append_left _ (mem_map.mpr ⟨row, hrow, hkept⟩)

theorem mem_remove_of_owner (hrole : role ≠ .owner) {row : TeamMember} {memberIds : List Uuid}
    (hrow : row ∈ db.teamMembers) (howner : row.role = .owner) :
    row ∈ (db.remove env teamId role memberIds).teamMembers := by
  have hother : ¬(row.role = role ∧ row.id ∈ memberIds ∧ row.teamId = teamId) := fun h ↦ hrole (h.1 ▸ howner)
  exact mem_map.mpr ⟨row, hrow, if_neg hother⟩

theorem mem_groupMembers_removed (hids : (db.teamMembers.map TeamMember.id).Nodup) {userId : Uuid} :
    userId ∈ groupMembers teamId role (db.remove env teamId role ((db.teamMembers.filter fun row ↦
        row.teamId = teamId && row.userId ∈ userIds).map TeamMember.id)) ↔
      userId ∈ groupMembers teamId role db ∧ userId ∉ userIds := by
  rw [mem_groupMembers_remove]
  constructor
  · rintro ⟨row, hrow, hcurrent, hid, rfl⟩
    rw [id_mem_iff hids hrow] at hid
    exact ⟨⟨row, hrow, hcurrent, rfl⟩, by simpa [(isCurrent_iff.mp hcurrent).1] using hid⟩
  · rintro ⟨⟨row, hrow, hcurrent, rfl⟩, huser⟩
    refine ⟨row, hrow, hcurrent, ?_, rfl⟩
    rw [id_mem_iff hids hrow]
    simp [huser]

end Success

/-- No membership of an owner changes. -/
def OwnersKept (db after : Store) : Prop := ∀ row ∈ db.teamMembers, row.role = .owner → row ∈ after.teamMembers

/-- A successful request leaves the members that its operations mean in their order, and the memberships of owners,
exactly if no user is removed and added again. -/
theorem patchScimGroup_folds_iff (env : Env) (db after : Store) (req : PatchRequest) (resource : GroupResource)
    (teamId : Uuid) (role : TeamRole) (hvalid : db.Valid) (hfresh : env.Fresh db)
    (hnewId : Function.Injective env.newId) (hrole : role ≠ .owner)
    (hok : patchScimGroup env db req = .ok (resource, teamId, role, after)) :
    (groupMembers teamId role after =
        req.operations.foldl GroupMemberAction.apply (groupMembers teamId role db) ∧ OwnersKept db after) ↔
      ∀ userId, ¬ReAdded req.operations userId := by
  obtain ⟨mapping, rfl, rfl, hpatch⟩ : ∃ mapping : GroupMapping, mapping.teamId = teamId ∧ mapping.role = role ∧
      runPatch env db req mapping = .ok after := by
    rw [patchScimGroup] at hok
    split at hok
    · cases hok
    · rename_i mapping _
      cases hpatch : runPatch env db req mapping <;> rw [hpatch] at hok <;> cases hok
      exact ⟨mapping, rfl, rfl, hpatch⟩
  rw [runPatch] at hpatch
  split at hpatch
  · cases hpatch
  · rename_i added hadd
    obtain ⟨haddable, rfl⟩ := (applyAddOperations_eq_ok_iff hvalid).mp hadd
    have hids : ((db.add env mapping.teamId req.tenantId mapping.role (req.userIds .add)).teamMembers.map
        TeamMember.id).Nodup := nodup_ids_add hvalid hfresh hnewId haddable
    rw [removeUsers] at hpatch
    split at hpatch
    · cases hpatch
    obtain ⟨-, rfl⟩ := (applyRemoveOperations_eq_ok_iff fun row hrow other hother _ heq ↦
      (List.inj_on_of_nodup_map hids hrow hother heq ▸ id)).mp hpatch
    refine (and_iff_left fun row hrow howner ↦ ?_).trans (Set.ext_iff.trans (forall_congr' fun userId ↦ ?_))
    · exact mem_remove_of_owner hrole (mem_add_of_owner haddable hrow howner) howner
    · rw [← req.batch_iff, ← mem_groupMembers_add, mem_groupMembers_removed hids]

/-- A request for the group of `twoMemberStore`. -/
def patchTwo (operations : List GroupMemberAction) : PatchRequest := ⟨1, "g", operations⟩

theorem patchScimGroup_folds_two : ∃ resource after,
    patchScimGroup someEnv (twoMemberStore none) (patchTwo [⟨.remove, 3⟩, ⟨.add, 5⟩]) =
      .ok (resource, 1, .member, after) ∧ groupMembers 1 .member after =
        GroupMemberAction.apply (GroupMemberAction.apply (groupMembers 1 .member (twoMemberStore none)) ⟨.remove, 3⟩)
          ⟨.add, 5⟩ := by
  refine ⟨_, _, rfl, ?_⟩
  have hnewId : Function.Injective someEnv.newId := fun _ _ heq ↦ Nat.add_right_cancel heq
  refine ((patchScimGroup_folds_iff someEnv _ _ (patchTwo [⟨.remove, 3⟩, ⟨.add, 5⟩]) _ 1 .member (valid_two none)
    (fresh_two none) hnewId nofun rfl).mpr ?_).1
  rintro userId ⟨hremoved, hlast⟩
  have hthree : userId = 3 := by simpa [patchTwo] using hremoved
  subst hthree
  cases hlast

/-- The user `3` is removed and added again, and is no member afterwards. -/
theorem patchScimGroup_forgets : ∃ resource after,
    patchScimGroup someEnv (twoMemberStore none) (patchTwo [⟨.remove, 3⟩, ⟨.add, 3⟩]) =
      .ok (resource, 1, .member, after) ∧ 3 ∉ groupMembers 1 .member after ∧
      3 ∈ [⟨.remove, 3⟩, ⟨.add, 3⟩].foldl GroupMemberAction.apply (groupMembers 1 .member (twoMemberStore none)) := by
  refine ⟨_, _, rfl, ?_, .inl rfl⟩
  rintro ⟨row, hrow, hmember, huser⟩
  revert row
  decide

end PasswdSso.Scim
