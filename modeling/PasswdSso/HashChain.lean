import Mathlib.Data.List.Induction
import Mathlib.Data.Set.Function

/-!
# Hash chains

A list of rows in which every row stores the digest of a message that is made from the row and the
digest of the row before it. The end of the chain determines its rows: two chains from one seed to one
digest agree on everything the messages contain, if the hash function has no collision among their
messages and does not hit the seed (`Scheme.agree`).
-/

namespace PasswdSso.HashChain

open List

/-- How rows are chained: the message of a row after a digest, the digest that a row stores, and the
digest that it says came before it. -/
structure Scheme (Row Digest Message : Type) where
  hash : Message → Digest
  message : Digest → Row → Message
  digest : Row → Digest
  back : Row → Option Digest

namespace Scheme

variable {Row Digest Message : Type} (c : Scheme Row Digest Message)

def Linked : Digest → List Row → Prop
  | _, [] => True
  | seed, row :: rest =>
    c.back row = some seed ∧ c.digest row = c.hash (c.message seed row) ∧ Linked (c.digest row) rest

/-- The digest at the end of the chain. -/
def last : Digest → List Row → Digest
  | seed, [] => seed
  | _, row :: rest => last (c.digest row) rest

/-- The messages that are hashed along the chain. -/
def messages : Digest → List Row → List Message
  | _, [] => []
  | seed, row :: rest => c.message seed row :: messages (c.digest row) rest

variable {c} {seed : Digest} {rows : List Row} {row : Row}

@[simp] theorem last_concat : c.last seed (rows ++ [row]) = c.digest row := by
  induction rows generalizing seed with
  | nil => rfl
  | cons first rest ih => exact ih

theorem linked_concat : c.Linked seed (rows ++ [row]) ↔ c.Linked seed rows ∧ c.back row = some (c.last seed rows) ∧
      c.digest row = c.hash (c.message (c.last seed rows) row) := by
  induction rows generalizing seed with
  | nil => simp [Linked, last]
  | cons first rest ih => simp only [cons_append, Linked, last, ih, and_assoc]

@[simp] theorem messages_concat :
    c.messages seed (rows ++ [row]) = c.messages seed rows ++ [c.message (c.last seed rows) row] := by
  induction rows generalizing seed with
  | nil => rfl
  | cons first rest ih => exact congrArg (c.message seed first :: ·) ih

variable {α : Type} {others : List Row}

theorem linked_congr (seen : Row → α) (hseen : ∀ a b, seen a = seen b →
      (∀ d, c.message d a = c.message d b) ∧ c.digest a = c.digest b ∧ c.back a = c.back b)
    (h : rows.map seen = others.map seen) :
    (c.Linked seed rows ↔ c.Linked seed others) ∧ c.last seed rows = c.last seed others := by
  induction rows generalizing seed others with
  | nil => simp_all
  | cons row rest ih =>
    cases others with
    | nil => simp at h
    | cons other others =>
      obtain ⟨hrow, hrest⟩ := cons.inj h
      obtain ⟨hmessage, hdigest, hback⟩ := hseen row other hrow
      obtain ⟨hlinked, hlast⟩ := @ih (c.digest other) others hrest
      rw [Linked, Linked, last, last, hmessage, hdigest, hback, hlinked, hlast]
      exact ⟨Iff.rfl, rfl⟩

theorem Linked.digests (covered : Row → α) (hmessage : ∀ d a b, covered a = covered b → c.message d a = c.message d b)
    (hrows : c.Linked seed rows) (hothers : c.Linked seed others) (h : rows.map covered = others.map covered) :
    rows.map c.digest = others.map c.digest ∧ rows.map c.back = others.map c.back := by
  induction rows generalizing seed others with
  | nil => simp_all
  | cons row rest ih =>
    cases others with
    | nil => simp at h
    | cons other others =>
      obtain ⟨hback, hdigest, hrest⟩ := hrows
      obtain ⟨hback', hdigest', hrest'⟩ := hothers
      obtain ⟨hrow, htail⟩ := cons.inj h
      have hsame : c.digest row = c.digest other := by
        rw [hdigest, hdigest', hmessage seed row other hrow]
      obtain ⟨hdigests, hbacks⟩ := ih hrest (hsame ▸ hrest') htail
      exact ⟨by rw [map_cons, map_cons, hsame, hdigests],
        by rw [map_cons, map_cons, hback, hback', hbacks]⟩

theorem agree (covered : Row → α) {bound : List Message} (hsub : c.messages seed rows ⊆ bound)
    (hsub' : c.messages seed others ⊆ bound) (hinj : Set.InjOn c.hash {m | m ∈ bound})
    (hseed : ∀ m ∈ bound, c.hash m ≠ seed)
    (hread : ∀ p q a b, c.message p a = c.message q b → p = q ∧ covered a = covered b) (hrows : c.Linked seed rows)
    (hothers : c.Linked seed others) (hlast : c.last seed rows = c.last seed others) :
    rows.map covered = others.map covered := by
  induction rows using reverseRecOn generalizing others with
  | nil =>
    induction others using reverseRecOn with
    | nil => rfl
    | append_singleton front other =>
      rw [last_concat, (linked_concat.mp hothers).2.2] at hlast
      exact absurd hlast.symm (hseed _ (hsub' (by simp)))
  | append_singleton front row ih =>
    obtain ⟨hfront, -, hdigest⟩ := linked_concat.mp hrows
    rw [messages_concat, append_subset, cons_subset] at hsub
    induction others using reverseRecOn with
    | nil =>
      rw [last_concat, hdigest] at hlast
      exact absurd hlast (hseed _ hsub.2.1)
    | append_singleton front' other =>
      obtain ⟨hfront', -, hdigest'⟩ := linked_concat.mp hothers
      rw [messages_concat, append_subset, cons_subset] at hsub'
      rw [last_concat, last_concat, hdigest, hdigest'] at hlast
      obtain ⟨hprev, hcovered⟩ := hread _ _ row other (hinj hsub.2.1 hsub'.2.1 hlast)
      rw [map_append, map_append, ih hsub.1 hsub'.1 hfront hfront' hprev, map_singleton,
        map_singleton, hcovered]

end Scheme

end PasswdSso.HashChain
