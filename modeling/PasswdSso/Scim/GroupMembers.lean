import Mathlib.Data.List.Nodup
import Mathlib.Data.Set.Operations
import Mathlib.Tactic.Common
import PasswdSso.Common

/-!
# The members of a SCIM group

The operations of `src/lib/services/scim-group-service.ts` on the members of a group. A group is a role of a team, and
its members are the active memberships with that role. An addition creates a membership for a user who has no active
one, so it runs into the unique index on the team and the user if there is a deactivated one.
-/

namespace PasswdSso.Scim

open List

inductive TeamRole
  | owner
  | admin
  | member
  | viewer
  deriving DecidableEq

def TeamRole.text : TeamRole → String
  | .owner => "OWNER"
  | .admin => "ADMIN"
  | .member => "MEMBER"
  | .viewer => "VIEWER"

structure TeamMember where
  id : Uuid
  teamId : Uuid
  userId : Uuid
  tenantId : Uuid
  role : TeamRole
  keyDistributed : Bool
  deactivatedAt : Option Millis
  scimManaged : Bool

/-- A `scim_group_mappings` row with the slug of its team. -/
structure GroupMapping where
  tenantId : Uuid
  externalGroupId : String
  teamId : Uuid
  role : TeamRole
  teamSlug : Option String

structure Store where
  mappings : List GroupMapping
  teamMembers : List TeamMember
  tenantMembers : List TenantMember
  email : Uuid → Option String

/-- The primary key of the memberships and their unique index. -/
structure Store.Valid (db : Store) : Prop where
  ids : (db.teamMembers.map TeamMember.id).Nodup
  memberships : (db.teamMembers.map fun row ↦ (row.teamId, row.userId)).Nodup

/-- What the database and the runtime supply: the ids of new rows, the clock, and `toLowerCase`. -/
structure Env where
  newId : Uuid → Uuid
  now : Millis
  toLowerCase : String → String

def Env.Fresh (env : Env) (db : Store) : Prop :=
  ∀ userId, ∀ row ∈ db.teamMembers, row.id ≠ env.newId userId

inductive ScimError
  | groupNotFound
  | displayNameMismatch (expectedDisplayName : String)
  | ownerProtected
  | noSuchMember (userId : Uuid)
  | uniqueViolation

def GroupMapping.displayName (mapping : GroupMapping) : String :=
  match mapping.teamSlug with
  | some slug => if slug = "" then mapping.role.text else slug ++ ":" ++ mapping.role.text
  | none => mapping.role.text

/-- A member of a group resource. -/
structure ResourceMember where
  value : Uuid
  display : String

structure GroupResource where
  id : String
  displayName : String
  members : List ResourceMember

section Operations

variable (env : Env) (teamId tenantId : Uuid) (role : TeamRole) (db : Store)

/-- An active membership of the group. -/
def isCurrent (row : TeamMember) : Bool := row.teamId = teamId && row.role = role && row.deactivatedAt.isNone

def loadGroupMembers : List ResourceMember :=
  (db.teamMembers.filter (isCurrent teamId role)).filterMap fun row ↦ (db.email row.userId).map (⟨row.userId, ·⟩)

def isActiveTenantMember (userId : Uuid) : Bool :=
  db.tenantMembers.any fun row ↦ row.tenantId = tenantId && row.userId = userId && row.deactivatedAt.isNone

/-- A membership that `createMany` adds. -/
def newMember (userId : Uuid) : TeamMember :=
  ⟨env.newId userId, teamId, userId, tenantId, role, false, none, true⟩

/-- The creations of `applyAddOperations`. -/
def createMembers (userIds : List Uuid) : Except ScimError Store :=
  match userIds.find? fun userId ↦ !isActiveTenantMember tenantId db userId with
  | some userId => .error (.noSuchMember userId)
  | none =>
    if ¬userIds.Nodup ∨ ∃ row ∈ db.teamMembers, row.teamId = teamId ∧ row.userId ∈ userIds then
      .error .uniqueViolation
    else .ok { db with teamMembers := db.teamMembers ++ userIds.map (newMember env teamId tenantId role) }

/-- `updateMany` of memberships by their ids. -/
def Store.updateMembers (ids : List Uuid) (f : TeamMember → TeamMember) : Store :=
  { db with teamMembers := db.teamMembers.map fun row ↦ if row.id ∈ ids then f row else row }

/-- The memberships of the users that `applyAddOperations` finds. -/
def existingMembers (userIds : List Uuid) : List TeamMember :=
  db.teamMembers.filter fun row ↦ row.teamId = teamId && row.userId ∈ userIds && row.deactivatedAt.isNone

/-- `applyAddOperations`; empty lists create and update nothing. -/
def applyAddOperations (userIds : List Uuid) : Except ScimError Store :=
  let existing := existingMembers teamId db userIds
  if existing.any (·.role = .owner) then .error .ownerProtected
  else
    let toUpdateRole := existing.filter (·.role ≠ role)
    (createMembers env teamId tenantId role db (userIds.filter fun userId ↦ !existing.any (·.userId = userId))).map
      (·.updateMembers (toUpdateRole.map TeamMember.id) fun row ↦ { row with role })

def applyRemoveOperations (memberIds : List Uuid) : Except ScimError Store :=
  let fresh := db.teamMembers.filter fun row ↦ row.id ∈ memberIds && row.teamId = teamId
  if fresh.any (·.role = .owner) then .error .ownerProtected
  else .ok (db.updateMembers ((fresh.filter (·.role = role)).map TeamMember.id) fun row ↦
    { row with deactivatedAt := some env.now })

end Operations

/-! ### What the operations do -/

/-- The users with an active membership of the group. -/
def groupMembers (teamId : Uuid) (role : TeamRole) (db : Store) : Set Uuid :=
  fun userId ↦ ∃ row ∈ db.teamMembers, isCurrent teamId role row = true ∧ row.userId = userId

/-- The users for whom `applyAddOperations` creates a membership. -/
def toCreateUserIds (teamId : Uuid) (db : Store) (userIds : List Uuid) : List Uuid :=
  userIds.filter fun userId ↦ !(existingMembers teamId db userIds).any (·.userId = userId)

/-- What the additions make of a membership that is there. -/
def addRole (teamId : Uuid) (role : TeamRole) (userIds : List Uuid) (row : TeamMember) : TeamMember :=
  if row.teamId = teamId ∧ row.userId ∈ userIds ∧ row.deactivatedAt = none then { row with role } else row

def Store.create (env : Env) (teamId tenantId : Uuid) (role : TeamRole) (userIds : List Uuid) (db : Store) : Store :=
  { db with teamMembers := db.teamMembers ++ userIds.map (newMember env teamId tenantId role) }

def Store.add (env : Env) (teamId tenantId : Uuid) (role : TeamRole) (userIds : List Uuid) (db : Store) : Store :=
  { db with teamMembers := db.teamMembers.map (addRole teamId role userIds) ++
      (toCreateUserIds teamId db userIds).map (newMember env teamId tenantId role) }

/-- What the removals make of a membership. -/
def deactivate (env : Env) (teamId : Uuid) (role : TeamRole) (memberIds : List Uuid) (row : TeamMember) : TeamMember :=
  if row.role = role ∧ row.id ∈ memberIds ∧ row.teamId = teamId then { row with deactivatedAt := some env.now } else row

def Store.remove (env : Env) (teamId : Uuid) (role : TeamRole) (memberIds : List Uuid) (db : Store) : Store :=
  { db with teamMembers := db.teamMembers.map (deactivate env teamId role memberIds) }

/-- The users can be added: no owner is among them, and those without an active membership can have a new one. -/
structure Addable (teamId tenantId : Uuid) (db : Store) (userIds : List Uuid) : Prop where
  notOwner : ∀ row ∈ existingMembers teamId db userIds, row.role ≠ .owner
  active : ∀ userId ∈ toCreateUserIds teamId db userIds, isActiveTenantMember tenantId db userId = true
  nodup : (toCreateUserIds teamId db userIds).Nodup
  free : ∀ row ∈ db.teamMembers, row.teamId = teamId → row.userId ∉ toCreateUserIds teamId db userIds

section Rows

variable {env : Env} {teamId tenantId userId : Uuid} {role : TeamRole} {db after : Store} {row : TeamMember}
  {userIds memberIds : List Uuid}

theorem Store.Valid.eq_of_membership (h : db.Valid) {other : TeamMember} (hrow : row ∈ db.teamMembers)
    (hother : other ∈ db.teamMembers) (hteam : row.teamId = other.teamId) (huser : row.userId = other.userId) :
    row = other :=
  inj_on_of_nodup_map h.memberships hrow hother (Prod.ext hteam huser)

theorem id_mem_iff (hids : (db.teamMembers.map TeamMember.id).Nodup) (hrow : row ∈ db.teamMembers)
    (p : TeamMember → Bool) : row.id ∈ (db.teamMembers.filter p).map TeamMember.id ↔ p row = true := by
  constructor
  · intro hid
    obtain ⟨other, hother, heq⟩ := mem_map.mp hid
    obtain ⟨hmem, hp⟩ := mem_filter.mp hother
    exact inj_on_of_nodup_map hids hmem hrow heq ▸ hp
  · exact fun hp ↦ mem_map_of_mem (mem_filter.mpr ⟨hrow, hp⟩)

theorem isCurrent_iff : isCurrent teamId role row = true ↔
    row.teamId = teamId ∧ row.role = role ∧ row.deactivatedAt = none := by
  simp [isCurrent, and_assoc]

theorem mem_existingMembers : row ∈ existingMembers teamId db userIds ↔
    row ∈ db.teamMembers ∧ row.teamId = teamId ∧ row.userId ∈ userIds ∧ row.deactivatedAt = none := by
  simp [existingMembers, and_assoc]

theorem mem_toCreateUserIds : userId ∈ toCreateUserIds teamId db userIds ↔ userId ∈ userIds ∧
    ∀ row ∈ db.teamMembers, row.teamId = teamId → row.deactivatedAt = none → row.userId ≠ userId := by
  simp only [toCreateUserIds, mem_filter, Bool.not_eq_true', any_eq_false, mem_existingMembers,
    decide_eq_true_eq]
  refine and_congr_right fun huser ↦ ⟨fun hnone row hrow hteam hactive heq ↦ ?_, fun hnone row hrow ↦ ?_⟩
  · exact hnone row ⟨hrow, hteam, heq ▸ huser, hactive⟩ heq
  · exact hnone row hrow.1 hrow.2.1 hrow.2.2.2

theorem createMembers_eq_ok_iff : createMembers env teamId tenantId role db userIds = .ok after ↔
    ((∀ userId ∈ userIds, isActiveTenantMember tenantId db userId = true) ∧ userIds.Nodup ∧
      ∀ row ∈ db.teamMembers, row.teamId = teamId → row.userId ∉ userIds) ∧
      db.create env teamId tenantId role userIds = after := by
  rw [createMembers]
  cases hinactive : userIds.find? fun userId ↦ !isActiveTenantMember tenantId db userId with
  | some userId =>
    have hactive := find?_some hinactive
    refine ⟨nofun, fun h ↦ ?_⟩
    rw [h.1.1 userId (mem_of_find?_eq_some hinactive)] at hactive
    cases hactive
  | none =>
    have hactive : ∀ userId ∈ userIds, isActiveTenantMember tenantId db userId = true := by
      simpa using find?_eq_none.mp hinactive
    dsimp only
    split_ifs with hclash
    · refine ⟨nofun, fun h ↦ absurd hclash ?_⟩
      push Not
      exact h.1.2
    · push Not at hclash
      rw [Except.ok.injEq, and_iff_right ⟨hactive, hclash⟩, Store.create]

theorem updateMembers_create (hvalid : db.Valid) :
    (db.create env teamId tenantId role (toCreateUserIds teamId db userIds)).updateMembers
      (((existingMembers teamId db userIds).filter (·.role ≠ role)).map TeamMember.id) (fun row ↦ { row with role }) =
      db.add env teamId tenantId role userIds := by
  rw [Store.updateMembers, Store.create, Store.add, map_append, map_map]
  congr 2
  · refine map_congr_left fun row hrow ↦ ?_
    rw [existingMembers, filter_filter, addRole]
    by_cases hrole : row.role = role
    · simp [id_mem_iff hvalid.ids hrow, ← hrole]
    · simp [id_mem_iff hvalid.ids hrow, hrole, and_assoc]
  · refine map_congr_left fun userId _ ↦ ?_
    rw [Function.comp_apply]
    split_ifs <;> rfl

theorem applyAddOperations_eq_ok_iff (hvalid : db.Valid) :
    applyAddOperations env teamId tenantId role db userIds = .ok after ↔
      Addable teamId tenantId db userIds ∧ db.add env teamId tenantId role userIds = after := by
  rw [applyAddOperations]
  split_ifs with howner
  · obtain ⟨row, hrow, hrole⟩ := any_eq_true.mp howner
    exact ⟨nofun, fun h ↦ absurd (of_decide_eq_true hrole) (h.1.notOwner row hrow)⟩
  · have hnotOwner : ∀ row ∈ existingMembers teamId db userIds, row.role ≠ .owner := by simpa using howner
    change (createMembers env teamId tenantId role db (toCreateUserIds teamId db userIds)).map _ = _ ↔ _
    constructor
    · intro h
      cases hcreate : createMembers env teamId tenantId role db (toCreateUserIds teamId db userIds) with
      | error error =>
        rw [hcreate] at h
        cases h
      | ok created =>
        obtain ⟨⟨hactive, hnodup, hfree⟩, rfl⟩ := createMembers_eq_ok_iff.mp hcreate
        rw [hcreate, Except.map, updateMembers_create hvalid] at h
        exact ⟨⟨hnotOwner, hactive, hnodup, hfree⟩, Except.ok.inj h⟩
    · rintro ⟨h, rfl⟩
      rw [createMembers_eq_ok_iff.mpr ⟨⟨h.active, h.nodup, h.free⟩, rfl⟩, Except.map, updateMembers_create hvalid]

theorem applyRemoveOperations_eq_ok_iff
    (hids : ∀ row ∈ db.teamMembers, ∀ other ∈ db.teamMembers, row.id ∈ memberIds → row.id = other.id →
      row.teamId = teamId ∧ row.role = role → other.teamId = teamId ∧ other.role = role) :
    applyRemoveOperations env teamId role db memberIds = .ok after ↔
      (∀ row ∈ db.teamMembers, row.id ∈ memberIds → row.teamId = teamId → row.role ≠ .owner) ∧
        db.remove env teamId role memberIds = after := by
  have hremove : db.updateMembers (((db.teamMembers.filter fun row ↦ row.id ∈ memberIds && row.teamId = teamId).filter
      (·.role = role)).map TeamMember.id) (fun row ↦ { row with deactivatedAt := some env.now }) =
      db.remove env teamId role memberIds := by
    rw [Store.updateMembers, Store.remove, filter_filter]
    congr 1
    refine map_congr_left fun row hrow ↦ if_congr ?_ rfl rfl
    simp only [mem_map, mem_filter, Bool.and_eq_true, decide_eq_true_eq]
    constructor
    · rintro ⟨other, ⟨hother, hrole, hid, hteam⟩, heq⟩
      obtain ⟨hrowTeam, hrowRole⟩ := hids other hother row hrow hid heq ⟨hteam, hrole⟩
      exact ⟨hrowRole, heq ▸ hid, hrowTeam⟩
    · exact fun hremoved ↦ ⟨row, ⟨hrow, hremoved⟩, rfl⟩
  rw [applyRemoveOperations, hremove]
  split_ifs with howner
  · obtain ⟨row, hrow, hrole⟩ := any_eq_true.mp howner
    obtain ⟨hmem, hfound⟩ := mem_filter.mp hrow
    rw [Bool.and_eq_true, decide_eq_true_eq, decide_eq_true_eq] at hfound
    exact ⟨nofun, fun h ↦ absurd (of_decide_eq_true hrole) (h.1 row hmem hfound.1 hfound.2)⟩
  · rw [Except.ok.injEq, and_iff_right]
    simpa using howner

theorem addRole_keeps : (addRole teamId role userIds row).id = row.id ∧
    (addRole teamId role userIds row).userId = row.userId := by
  rw [addRole]
  split_ifs <;> exact ⟨rfl, rfl⟩

theorem isCurrent_addRole : isCurrent teamId role (addRole teamId role userIds row) = true ↔
    row.teamId = teamId ∧ (row.role = role ∨ row.userId ∈ userIds) ∧ row.deactivatedAt = none := by
  rw [isCurrent_iff, addRole]
  split_ifs with hadd
  · simp [hadd]
  · tauto

theorem mem_groupMembers_add : userId ∈ groupMembers teamId role (db.add env teamId tenantId role userIds) ↔
    userId ∈ groupMembers teamId role db ∨ userId ∈ userIds := by
  constructor
  · rintro ⟨row, hrow, hcurrent, rfl⟩
    rcases mem_append.mp hrow with hold | hnew
    · obtain ⟨old, hmem, rfl⟩ := mem_map.mp hold
      rw [addRole_keeps.2]
      obtain ⟨hteam, hrole | hadd, hactive⟩ := isCurrent_addRole.mp hcurrent
      · exact .inl ⟨old, hmem, isCurrent_iff.mpr ⟨hteam, hrole, hactive⟩, rfl⟩
      · exact .inr hadd
    · obtain ⟨userId, hcreated, rfl⟩ := mem_map.mp hnew
      exact .inr (mem_toCreateUserIds.mp hcreated).1
  · have hkept {row : TeamMember} (hrow : row ∈ db.teamMembers) (hteam : row.teamId = teamId)
        (hrole : row.role = role ∨ row.userId ∈ userIds) (hactive : row.deactivatedAt = none) :
        row.userId ∈ groupMembers teamId role (db.add env teamId tenantId role userIds) :=
      ⟨_, mem_append_left _ (mem_map_of_mem hrow), isCurrent_addRole.mpr ⟨hteam, hrole, hactive⟩,
        addRole_keeps.2⟩
    rintro (⟨row, hrow, hcurrent, rfl⟩ | hadd)
    · obtain ⟨hteam, hrole, hactive⟩ := isCurrent_iff.mp hcurrent
      exact hkept hrow hteam (.inl hrole) hactive
    · by_cases hold : ∃ row ∈ db.teamMembers, row.teamId = teamId ∧ row.deactivatedAt = none ∧ row.userId = userId
      · obtain ⟨row, hrow, hteam, hactive, rfl⟩ := hold
        exact hkept hrow hteam (.inr hadd) hactive
      · push Not at hold
        exact ⟨_, mem_append_right _ (mem_map_of_mem (mem_toCreateUserIds.mpr ⟨hadd, hold⟩)),
          isCurrent_iff.mpr ⟨rfl, rfl, rfl⟩, rfl⟩

theorem mem_groupMembers_remove : userId ∈ groupMembers teamId role (db.remove env teamId role memberIds) ↔
    ∃ row ∈ db.teamMembers, isCurrent teamId role row = true ∧ row.id ∉ memberIds ∧ row.userId = userId := by
  constructor
  · rintro ⟨_, hmem, hcurrent, rfl⟩
    obtain ⟨row, hrow, rfl⟩ := mem_map.mp hmem
    rw [isCurrent_iff] at hcurrent
    rw [deactivate] at hcurrent ⊢
    split_ifs at hcurrent ⊢ with hremoved
    · cases hcurrent.2.2
    · exact ⟨row, hrow, isCurrent_iff.mpr hcurrent, fun hid ↦ hremoved ⟨hcurrent.2.1, hid, hcurrent.1⟩, rfl⟩
  · rintro ⟨row, hrow, hcurrent, hid, rfl⟩
    exact ⟨row, mem_map.mpr ⟨row, hrow, if_neg fun hremoved ↦ hid hremoved.2.1⟩, hcurrent, rfl⟩

end Rows

end PasswdSso.Scim
