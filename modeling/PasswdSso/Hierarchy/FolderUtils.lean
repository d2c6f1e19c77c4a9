import Mathlib.Logic.Relation

/-!
# Circular references among folders

`checkCircularReference` of `src/lib/folder/folder-utils.ts`, for any callback `getParent`. The walk keeps no list of
the folders that it has met, so it does not end below a cycle that the folder is not on. An empty id ends it like `null`.
-/

namespace PasswdSso.Hierarchy.FolderUtils

open Relation

variable (folderId : String) (getParent : String → Option (Option String))

/-- `checkCircularReference`, as far as it gets with so many steps. Of a node, `getParent` gives the `parentId`. -/
def checkCircularReference : Nat → String → Option Bool
  | 0, _ => none
  | fuel + 1, currentId =>
    if currentId = "" then some false
    else if currentId = folderId then some true
    else match getParent currentId with
      | none | some none => some false
      | some (some parentId) => checkCircularReference fuel parentId

def HasParent (id parentId : String) : Prop := getParent id = some (some parentId)

/-- A step of the loop. -/
def Follows (id parentId : String) : Prop := id ≠ "" ∧ HasParent getParent id parentId

/-- The loop has nowhere to go from here. -/
def IsLast (id : String) : Prop := id = "" ∨ ∀ parentId, ¬ HasParent getParent id parentId

variable {folderId getParent} {currentId newParentId : String}

theorem reaches_of_check {fuel : Nat} {answer : Bool}
    (h : checkCircularReference folderId getParent fuel currentId = some answer) :
    ∃ id, ReflTransGen (Follows getParent) currentId id ∧
      if answer then id = folderId ∧ id ≠ "" else IsLast getParent id := by
  fun_induction checkCircularReference folderId getParent fuel currentId with
  | case1 => simp at h
  | case2 => exact ⟨_, .refl, by simp [← Option.some.inj h, IsLast]⟩
  | case3 fuel hempty => exact ⟨_, .refl, by simp [← Option.some.inj h, hempty]⟩
  | case4 fuel id hempty hne hget | case5 fuel id hempty hne hget =>
    exact ⟨_, .refl, by simp [← Option.some.inj h, IsLast, HasParent, hget]⟩
  | case6 fuel id hempty hne parentId hget ih =>
    obtain ⟨last, hreach, hlast⟩ := ih h
    exact ⟨last, .head ⟨hempty, hget⟩ hreach, hlast⟩

theorem check_of_reaches {last : String} (answer : Bool) (hreach : ReflTransGen (Follows getParent) currentId last)
    (hlast : if answer then last = folderId ∧ last ≠ "" else IsLast getParent last)
    (hno : answer = false → ¬ ReflTransGen (HasParent getParent) currentId folderId) :
    ∃ fuel, checkCircularReference folderId getParent fuel currentId = some answer := by
  induction hreach using ReflTransGen.head_induction_on with
  | refl =>
    refine ⟨1, ?_⟩
    cases answer with
    | true =>
      obtain ⟨rfl, hempty⟩ := hlast
      simp [checkCircularReference, hempty]
    | false =>
      have hne : last ≠ folderId := fun hmet ↦ hno rfl (hmet ▸ .refl)
      rw [checkCircularReference, if_neg hne, ite_eq_left_iff]
      intro hempty
      have hroot := (show IsLast getParent last from hlast).resolve_left hempty
      split
      · rfl
      · rfl
      · exact absurd ‹_› (hroot _)
  | @head id parentId hstep _ ih =>
    by_cases hmet : id = folderId
    · cases answer with
      | true => exact ⟨1, by simp [checkCircularReference, hmet, hmet ▸ hstep.1]⟩
      | false => exact absurd (hmet ▸ .refl) (hno rfl)
    · obtain ⟨fuel, hcheck⟩ := ih fun hanswer hreach ↦ hno hanswer (.head hstep.2 hreach)
      refine ⟨fuel + 1, ?_⟩
      rw [checkCircularReference, if_neg hstep.1, if_neg hmet, hstep.2]
      exact hcheck

/-- The answer is right exactly if the walk comes to the folder, or to the end of a chain that the folder is not on. -/
theorem checkCircularReference_right_iff (folderId newParentId : String)
    (getParent : String → Option (Option String)) :
    (∃ fuel answer, checkCircularReference folderId getParent fuel newParentId = some answer ∧
      (answer = true ↔ ReflTransGen (HasParent getParent) newParentId folderId)) ↔
    folderId ≠ "" ∧ ReflTransGen (Follows getParent) newParentId folderId ∨
      (¬ ReflTransGen (HasParent getParent) newParentId folderId) ∧
        ∃ last, ReflTransGen (Follows getParent) newParentId last ∧ IsLast getParent last := by
  constructor
  · rintro ⟨fuel, answer, hcheck, hright⟩
    obtain ⟨last, hreach, hlast⟩ := reaches_of_check hcheck
    cases answer with
    | true =>
      obtain ⟨rfl, hne⟩ := hlast
      exact .inl ⟨hne, hreach⟩
    | false => exact .inr ⟨by simpa using hright, last, hreach, hlast⟩
  · rintro (⟨hne, hreach⟩ | ⟨hno, last, hreach, hlast⟩)
    · obtain ⟨fuel, hcheck⟩ := check_of_reaches true hreach ⟨rfl, hne⟩ nofun
      exact ⟨fuel, true, hcheck, iff_of_true rfl (ReflTransGen.mono (fun _ _ ↦ And.right) _ _ hreach)⟩
    · obtain ⟨fuel, hcheck⟩ := check_of_reaches false hreach hlast fun _ ↦ hno
      exact ⟨fuel, false, hcheck, iff_of_false nofun hno⟩

/-- Below a cycle of two other folders the walk goes on for ever. -/
theorem checkCircularReference_walks_on :
    ¬ ∃ fuel answer, checkCircularReference "folder"
      (List.lookup · [("a", some "b"), ("b", some "a")]) fuel "a" = some answer := by
  have hwalking (fuel : Nat) : ∀ id ∈ ["a", "b"], checkCircularReference "folder"
      (List.lookup · [("a", some "b"), ("b", some "a")]) fuel id = none := by
    induction fuel with
    | zero => exact fun _ _ ↦ rfl
    | succ fuel ih => simpa [checkCircularReference, List.lookup_cons, and_comm] using ih
  simp [hwalking]

end PasswdSso.Hierarchy.FolderUtils
