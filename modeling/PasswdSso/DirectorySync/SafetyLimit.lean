import Mathlib.Data.List.Induction
import PasswdSso.DirectorySync.Apply

/-!
# The safety limit of a run

Without `force` a run stops when the users that the provider does not have any more are over 20 percent of the
active members. The guard counts the batch deactivation only. A user whom the provider still lists, but as
inactive, is deactivated by an update that nothing counts: the members that a run deactivates are the ones that
the guard counts together with the suspended ones.
-/

namespace PasswdSso.DirectorySync

open List

section Definitions

variable (tenantId : Uuid)

def deactivated (before after : Directory) : List Member :=
  (before.activeMembers tenantId).filter fun member ↦
    (after.memberOf tenantId member.userId).any (·.deactivatedAt.isSome)

/-- At most 20 percent of the active members are deactivated, and none of the owners. -/
structure WithinLimit (before after : Directory) : Prop where
  members : (deactivated tenantId before after).length * 5 ≤ (before.activeMembers tenantId).length
  owners : ∀ member ∈ deactivated tenantId before after, member.role ≠ .owner

/-- The active members, other than owners, that the provider lists as inactive: the last entry of the list that
differs from the row of the member is an inactive one. -/
def suspended (dir : Directory) (users : List ProviderUser) : List Member :=
  (dir.activeMembers tenantId).filter fun member ↦ member.role ≠ .owner &&
    ((users.filterMap (updateOf dir tenantId)).filter (·.2 = member.userId)).getLast?.any (!·.1.active)

/-- The users that the provider does not list any more and that are active members, other than owners. -/
def missing (dir : Directory) (users : List ProviderUser) : List Uuid :=
  dir.mappings.filterMap (deactivationOf dir tenantId users)

end Definitions

section Counting

variable {env : Env} {tenantId : Uuid} {users : List ProviderUser} {byEmail : List (String × Uuid)}
  {dir created enrolled updated after : Directory} {member : Member}

theorem Member.updated_isSome (now : Millis) (updates : List (ProviderUser × Uuid))
    (hactive : member.deactivatedAt = none) : (member.updated now updates).deactivatedAt.isSome = true ↔
      member.role ≠ .owner ∧ updates.getLast?.any (!·.1.active) = true := by
  induction updates using reverseRecOn with
  | nil => simp [Member.updated, hactive]
  | append_singleton updates update ih =>
    have hstep : member.updated now (updates ++ [update]) = if (member.updated now updates).role = .owner ∧
        update.1.active = false then member.updated now updates
        else (member.updated now updates).setActive now update.1.active := foldl_append
    rw [hstep, (Member.updated_identity now updates member).2, getLast?_concat]
    split_ifs with hskip
    · rw [ih]
      exact ⟨fun h ↦ absurd hskip.1 h.1, fun h ↦ absurd hskip.1 h.1⟩
    · cases hupdate : update.1.active with
      | true => simp [Member.setActive, hupdate]
      | false => simpa [Member.setActive, hupdate] using hskip

theorem mem_activeMembers : member ∈ dir.activeMembers tenantId ↔
    member ∈ dir.members ∧ member.tenantId = tenantId ∧ member.deactivatedAt = none := by
  simp [Directory.activeMembers]

variable (hvalid : dir.Valid)

include hvalid

theorem not_missing_of_update {update : ProviderUser × Uuid}
    (hupdate : update ∈ users.filterMap (updateOf dir tenantId)) : update.2 ∉ missing tenantId dir users := by
  intro hmissing
  obtain ⟨hpu, hupdateOf⟩ := mem_toUpdate.mp hupdate
  obtain ⟨-, hmapping, -⟩ := updateOf_eq_some.mp hupdateOf
  obtain ⟨externalId, hmapping', hunseen, -⟩ := (mem_toDeactivate hvalid).mp hmissing
  exact hunseen _ hpu (hvalid.mappingOf_inj hmapping hmapping')

theorem missing_nodup : (missing tenantId dir users).Nodup := by
  have hmapped {mapping : ExternalMapping} {userId : Uuid}
      (hdeactivation : deactivationOf dir tenantId users mapping = some userId) :
      (mapping.tenantId, mapping.internalId) = (tenantId, userId) := by
    unfold deactivationOf at hdeactivation
    split_ifs at hdeactivation with hskip
    split at hdeactivation
    · exact nomatch hdeactivation
    split_ifs at hdeactivation
    rw [not_or, not_not] at hskip
    exact Prod.ext hskip.1 (Option.some.inj hdeactivation)
  refine pairwise_filterMap.mpr ((pairwise_map.mp hvalid.internalIds).imp ?_)
  intro first second hne userId hfirst userId' hsecond heq
  exact hne ((hmapped hfirst).trans (heq ▸ (hmapped hsecond).symm))

theorem length_filter_missing :
    ((dir.activeMembers tenantId).filter fun member ↦ member.userId ∈ missing tenantId dir users).length =
      (missing tenantId dir users).length := by
  rw [← length_map (f := Member.userId)]
  refine List.Perm.length_eq ((perm_ext_iff_of_nodup ?_ (missing_nodup hvalid)).mpr fun userId ↦ ?_)
  · have hunique : ((dir.activeMembers tenantId).map fun member ↦ (member.tenantId, member.userId)).Nodup :=
      hvalid.memberships.sublist (filter_sublist.map _)
    refine List.Nodup.map_on (fun first hfirst second hsecond heq ↦ ?_) (hunique.of_map.filter _)
    obtain ⟨hfirst, -⟩ := mem_filter.mp hfirst
    obtain ⟨hsecond, -⟩ := mem_filter.mp hsecond
    refine inj_on_of_nodup_map hunique hfirst hsecond (Prod.ext ?_ heq)
    exact (mem_activeMembers.mp hfirst).2.1.trans (mem_activeMembers.mp hsecond).2.1.symm
  · simp only [mem_map, mem_filter, decide_eq_true_eq]
    constructor
    · rintro ⟨member, ⟨-, hmissing⟩, rfl⟩
      exact hmissing
    · intro hmissing
      obtain ⟨-, -, -, member, hmember, hactive, -⟩ := (mem_toDeactivate hvalid).mp hmissing
      obtain ⟨hmem, htenant, rfl⟩ := hvalid.memberOf_eq_some.mp hmember
      exact ⟨member, ⟨mem_activeMembers.mpr ⟨hmem, htenant, hactive⟩, hmissing⟩, rfl⟩

theorem not_missing_of_suspended (hsuspended : member ∈ suspended tenantId dir users) :
    member.userId ∉ missing tenantId dir users := by
  obtain ⟨-, hlast⟩ := mem_filter.mp hsuspended
  rw [Bool.and_eq_true, Option.any_eq_true] at hlast
  obtain ⟨update, hlast, -⟩ := hlast.2
  obtain ⟨hupdate, huser⟩ := mem_filter.mp (mem_of_getLast? hlast)
  exact of_decide_eq_true huser ▸ not_missing_of_update hvalid hupdate

omit hvalid

variable (h : Sync env tenantId users dir byEmail created enrolled updated after)

include h

theorem deactivated_iff (hmember : member ∈ dir.activeMembers tenantId) :
    member ∈ deactivated tenantId dir after ↔
      member.userId ∈ missing tenantId dir users ∨ member ∈ suspended tenantId dir users := by
  obtain ⟨hmem, htenant, hactive⟩ := mem_activeMembers.mp hmember
  have hbefore := h.valid.memberOf_eq_some.mpr ⟨hmem, htenant, rfl⟩
  have hupdated := h.updated_ok.members member.userId
  rw [h.enrolled_active hbefore hactive, Option.map_some] at hupdated
  rw [deactivated, suspended, mem_filter, mem_filter, h.memberOf_synced, hupdated,
    Option.map_some, Option.any_some]
  simp only [hmember, true_and, Bool.and_eq_true, decide_eq_true_eq]
  change _ ↔ member.userId ∈ (diff dir tenantId users).toDeactivate ∨ _
  split_ifs with hbatch
  · exact iff_of_true rfl (.inl hbatch)
  · rw [Member.updated_isSome env.now _ hactive, or_iff_right hbatch]
    rfl

theorem length_deactivated :
    (deactivated tenantId dir after).length =
      (missing tenantId dir users).length + (suspended tenantId dir users).length := by
  have hiff {member : Member} (hmember : member ∈ dir.activeMembers tenantId) := deactivated_iff h hmember
  rw [length_eq_length_filter_add fun member : Member ↦ decide (member.userId ∈ missing tenantId dir users),
    ← length_filter_missing h.valid]
  congr 2
  · rw [deactivated, filter_filter]
    refine filter_congr fun member hmember ↦ ?_
    rw [Bool.eq_iff_iff, Bool.and_eq_true, decide_eq_true_eq, and_iff_left_iff_imp]
    intro hmissing
    exact (mem_filter.mp ((hiff hmember).mpr (.inl hmissing))).2
  · rw [deactivated, filter_filter, suspended]
    refine filter_congr fun member hmember ↦ ?_
    have hsuspended := hiff hmember
    rw [deactivated, suspended, mem_filter, mem_filter] at hsuspended
    rw [Bool.eq_iff_iff, Bool.and_eq_true, Bool.not_eq_true', decide_eq_false_iff_not]
    constructor
    · rintro ⟨hnot, hdeactivated⟩
      exact ((hsuspended.mp ⟨hmember, hdeactivated⟩).resolve_left hnot).2
    · intro hlast
      exact ⟨not_missing_of_suspended h.valid (mem_filter.mpr ⟨hmember, hlast⟩),
        (hsuspended.mpr (.inr ⟨hmember, hlast⟩)).2⟩

theorem deactivated_not_owner (hmember : member ∈ deactivated tenantId dir after) : member.role ≠ .owner := by
  have hactive := (mem_filter.mp hmember).1
  rcases (deactivated_iff h hactive).mp hmember with hmissing | hsuspended
  · obtain ⟨-, -, -, row, hrow, -, hrole⟩ := (mem_toDeactivate h.valid).mp hmissing
    obtain ⟨hmem, htenant, -⟩ := mem_activeMembers.mp hactive
    rw [h.valid.memberOf_eq_some.mpr ⟨hmem, htenant, rfl⟩] at hrow
    exact Option.some.inj hrow ▸ hrole
  · obtain ⟨-, hlast⟩ := mem_filter.mp hsuspended
    rw [Bool.and_eq_true, decide_eq_true_eq] at hlast
    exact hlast.1

end Counting

section Limit

variable {env : Env} {opts : SyncOptions} {store : Store} {providerUsers : List ProviderUser} {stats : SyncStats}
  {dir' : Directory}

theorem missing_within_limit (hvalid : store.directory.Valid) (hforce : opts.force = false)
    (happlies : Applies env opts store providerUsers stats dir') :
    (missing opts.tenantId store.directory (validUsers providerUsers)).length * 5 ≤
      (store.directory.activeMembers opts.tenantId).length := by
  have hguard := happlies.guard.resolve_left (by rw [hforce]; exact Bool.false_ne_true)
  have hle : (missing opts.tenantId store.directory (validUsers providerUsers)).length ≤
      (store.directory.activeMembers opts.tenantId).length := by
    rw [← length_filter_missing hvalid]
    exact length_filter_le _ _
  simp only [exceedsThreshold, Bool.and_eq_false_iff, decide_eq_false_iff_not, gt_iff_lt] at hguard
  rcases hguard with hnone | hthreshold
  · omega
  · exact Nat.le_of_not_lt hthreshold

/-- Without `force`, a run that applies its changes keeps the missing members within the limit, and all the
members exactly when the missing and the suspended ones together are at most 20 percent of the active members. -/
theorem withinLimit_iff_missing_and_suspended (hvalid : store.directory.Valid) (hforce : opts.force = false)
    (happlies : Applies env opts store providerUsers stats dir') :
    (missing opts.tenantId store.directory (validUsers providerUsers)).length * 5 ≤
        (store.directory.activeMembers opts.tenantId).length ∧
      (WithinLimit opts.tenantId store.directory (runDirectorySync env opts store).2.directory ↔
        ((missing opts.tenantId store.directory (validUsers providerUsers)).length +
          (suspended opts.tenantId store.directory (validUsers providerUsers)).length) * 5 ≤
          (store.directory.activeMembers opts.tenantId).length) := by
  refine ⟨missing_within_limit hvalid hforce happlies, ?_⟩
  obtain ⟨byEmail, created, enrolled, updated, hsync⟩ := exists_sync hvalid happlies.applied
  rw [directory_of_applies happlies, ← length_deactivated hsync]
  exact ⟨WithinLimit.members, fun hmembers ↦ ⟨hmembers, fun _ ↦ deactivated_not_owner hsync⟩⟩

/-- A tenant with two members, both mapped. -/
def twoMembers : Store where
  directory :=
    { users := [⟨1, 7, some "a@example.com", some "A"⟩, ⟨2, 7, some "b@example.com", some "B"⟩]
      members := [⟨11, 7, 1, .member, none, true, .scim, none⟩, ⟨12, 7, 2, .member, none, true, .scim, none⟩]
      mappings := [⟨7, "ext-a", 1⟩, ⟨7, "ext-b", 2⟩] }
  configs := [⟨5, 7, 60, .idle, none, none, none, none⟩]
  logs := []

/-- The provider suspends one of two members: no user is missing, and half of the members are deactivated. -/
theorem suspended_member_over_limit :
    ∃ env opts store providerUsers stats dir', store.directory.Valid ∧ opts.force = false ∧
      Applies env opts store providerUsers stats dir' ∧
      missing opts.tenantId store.directory (validUsers providerUsers) = [] ∧
      ¬WithinLimit opts.tenantId store.directory (runDirectorySync env opts store).2.directory := by
  let providerUsers : List ProviderUser :=
    [⟨"ext-a", "a@example.com", "A", true⟩, ⟨"ext-b", "b@example.com", "B", false⟩]
  refine ⟨answering providerUsers, { configId := 5, tenantId := 7 }, twoMembers, providerUsers, _, _,
    by decide +kernel, rfl, ⟨rfl, by decide +kernel, rfl, rfl, by decide +kernel, by decide +kernel, rfl, rfl, rfl⟩,
    by decide +kernel, fun h ↦ absurd h.members (by decide +kernel)⟩

/-- The provider's users of five members, of whom one is missing. -/
def fourUsers : List ProviderUser :=
  ["a", "b", "c", "d"].map fun name ↦ ⟨name, name ++ "@example.com", name, true⟩

def fiveMembers : Store where
  directory :=
    { users := ["a", "b", "c", "d", "e"].zipIdx.map fun (name, id) ↦ ⟨id, 7, some (name ++ "@example.com"), some name⟩
      members := (List.range 5).map fun id ↦ ⟨10 + id, 7, id, .member, none, true, .scim, none⟩
      mappings := ["a", "b", "c", "d", "e"].zipIdx.map fun (name, id) ↦ ⟨7, name, id⟩ }
  configs := twoMembers.configs
  logs := []

/-- One missing member of five is deactivated, which is within the limit. -/
theorem withinLimit_missing_member :
    (missing 7 fiveMembers.directory (validUsers fourUsers)).length = 1 ∧ WithinLimit 7 fiveMembers.directory
      (runDirectorySync (answering fourUsers) { configId := 5, tenantId := 7 } fiveMembers).2.directory := by
  have happlies : ∃ stats dir', Applies (answering fourUsers) { configId := 5, tenantId := 7 } fiveMembers
      fourUsers stats dir' :=
    ⟨_, _, rfl, by decide +kernel, rfl, rfl, by decide +kernel, by decide +kernel, rfl, rfl, rfl⟩
  obtain ⟨stats, dir', happlies⟩ := happlies
  refine ⟨by decide +kernel, ?_⟩
  exact (withinLimit_iff_missing_and_suspended (by decide +kernel) rfl happlies).2.mpr (by decide +kernel)

end Limit

end PasswdSso.DirectorySync
