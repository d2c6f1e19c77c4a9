import Mathlib.Logic.Function.Basic
import Mathlib.Logic.Relation
import Mathlib.Tactic.Common

/-!
# Forests given by parent pointers

A partial function `parent` on an arbitrary type, read as pointers from nodes to their parents. `Acyclic` says that no
node is its own ancestor; the lemmas say what becomes of it when one pointer changes.
-/

namespace PasswdSso.ParentForest

variable {α : Type} {parent : α → Option α} {x y z : α}

def Above (parent : α → Option α) (x y : α) : Prop := parent x = some y

/-- No node is its own ancestor. -/
def Acyclic (parent : α → Option α) : Prop := ∀ x, ¬ Relation.TransGen (Above parent) x x

section Update

variable [DecidableEq α] {p : Option α}

theorem reflTransGen_of_update (h : Relation.ReflTransGen (Above (Function.update parent x p)) y x) :
    Relation.ReflTransGen (Above parent) y x := by
  induction h using Relation.ReflTransGen.head_induction_on with
  | refl => exact .refl
  | @head y z habove _ ih =>
    by_cases hyx : y = x
    · exact hyx ▸ .refl
    · exact .head ((Function.update_of_ne hyx _ _).symm.trans habove) ih

theorem transGen_of_update (h : Relation.TransGen (Above (Function.update parent x p)) y z) :
    Relation.TransGen (Above parent) y z ∨ Relation.ReflTransGen (Above (Function.update parent x p)) y x ∧
        Relation.TransGen (Above (Function.update parent x p)) x z := by
  induction h using Relation.TransGen.head_induction_on with
  | @single y habove =>
    by_cases hyx : y = x
    · subst hyx
      exact .inr ⟨.refl, .single habove⟩
    · exact .inl (.single ((Function.update_of_ne hyx _ _).symm.trans habove))
  | @head y y' habove hrest ih =>
    by_cases hyx : y = x
    · subst hyx
      exact .inr ⟨.refl, .head habove hrest⟩
    · rcases ih with hold | ⟨hto, hfrom⟩
      · exact .inl (.head ((Function.update_of_ne hyx _ _).symm.trans habove) hold)
      · exact .inr ⟨.head habove hto, hfrom⟩

theorem Acyclic.update (h : Acyclic parent) (hp : ∀ y, p = some y → ¬ Relation.ReflTransGen (Above parent) y x) :
    Acyclic (Function.update parent x p) := by
  intro y hcycle
  rcases transGen_of_update hcycle with hold | ⟨hto, hfrom⟩
  · exact h y hold
  · obtain ⟨top, habove, hback⟩ := Relation.TransGen.head'_iff.mp (hfrom.trans_left hto)
    have htop : p = some top := by simpa [Above] using habove
    exact hp top htop (reflTransGen_of_update hback)

end Update

/-- A walk from a node to a root that does not meet `x`: the nodes with the parents that were read for them. -/
def Walk (x : α) : Option α → List (α × Option α) → Prop
  | none, [] => True
  | some y, (node, above) :: rest => node = y ∧ y ≠ x ∧ Walk x above rest
  | none, _ :: _ => False
  | some _, [] => False

theorem Walk.not_reflTransGen {chain : List (α × Option α)} (h : Walk x (some y) chain)
    (hread : ∀ step ∈ chain, parent step.1 = step.2) : ¬ Relation.ReflTransGen (Above parent) y x := by
  induction chain generalizing y with
  | nil => exact h.elim
  | cons step rest ih =>
    obtain ⟨node, above⟩ := step
    obtain ⟨rfl, hne, hrest⟩ := h
    intro hreach
    rcases Relation.ReflTransGen.cases_head hreach with heq | ⟨next, hnext, hrestReach⟩
    · exact hne heq
    · obtain rfl : above = some next := (hread _ List.mem_cons_self).symm.trans hnext
      exact ih hrest (fun step hstep ↦ hread step (List.mem_cons_of_mem _ hstep)) hrestReach

end PasswdSso.ParentForest
