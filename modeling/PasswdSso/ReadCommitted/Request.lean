import PasswdSso.ReadCommitted.Statement

/-!
# Requests that learn on the way

A request is a program between transactions. `Proceeds c known` says that it keeps the contract from every
world in which `known` holds; each rule says what has been learned for the rest of the request, which has to be
something that every guarantee preserves. A request often begins with a number of reads, each a transaction of its own,
and checks of what they have found: a program that `Looks`.
-/

namespace PasswdSso.ReadCommitted

variable {D L P α β ε : Type} {c : Contract D L P} {known : World D P → Prop}

/-- The program keeps the contract wherever `known` holds. -/
def Proceeds (c : Contract D L P) (known : World D P → Prop) (prog : Prog D L P α) : Prop :=
  ∀ w, known w → Outline c prog (.idle w) fun _ _ ↦ True

namespace Proceeds

theorem pure (result : α) : Proceeds c known (pure result : Prog D L P α) :=
  fun _ _ ↦ trivial

theorem look {f : D → β} {k : β → Prog D L P α} (hknown : c.Preserves known)
    (hk : ∀ view, Proceeds c known (k (f view))) : Proceeds c known (.readOnly f >>= k) :=
  fun _ hw ↦ .readOnly fun v w' hv hw' ↦ hk v.db w' (hknown.later (hknown.later hw hv) hw')

variable {label : β → P} {body : Prog D L P (Except ε β)} {k : Except ε β → Prog D L P α}

theorem yielding {valid : β → Prop} (hknown : c.Preserves known)
    (hbody : ∀ w, known w → Returns c body (.idle w) fun value after ↦ c.Commits after (label value) ∧ valid value)
    (herror : ∀ thrown, Proceeds c known (k (.error thrown)))
    (hok : ∀ value, valid value → Proceeds c (fun w ↦ known w ∧ label value ∈ w.log) (k (.ok value))) :
    Proceeds c known (.transaction label body >>= k) := by
  intro w hw
  rw [Prog.transaction, outline_bind, outline_bind]
  refine ((hbody w hw).with_invariant hknown hw).weaken ?_
  rintro (thrown | value) after ⟨hafter, hspec⟩
  · exact fun w' hw' ↦ herror thrown w' (hknown.later hafter hw')
  · obtain ⟨hcommits, hvalid⟩ := hspec value rfl
    intro w' hw' hallowed
    have hguarantee := hcommits w' hw' hallowed
    refine ⟨hguarantee, hok value hvalid _ ⟨?_, List.mem_cons_self⟩⟩
    exact hknown _ _ _ _ (hknown.later hafter hw') hguarantee

theorem transaction (hknown : c.Preserves known)
    (hbody : ∀ w, known w → Earns c body (.idle w) label)
    (herror : ∀ thrown, Proceeds c known (k (.error thrown)))
    (hok : ∀ value, Proceeds c (fun w ↦ known w ∧ label value ∈ w.log) (k (.ok value))) :
    Proceeds c known (.transaction label body >>= k) :=
  .yielding hknown (fun w hw ↦ (hbody w hw).mono fun _ _ hcommits ↦ ⟨hcommits, trivial⟩) herror
    fun value (_ : True) ↦ hok value

end Proceeds

section Looks

variable {Q : α → Prop} {R : β → Prop}

/-- The program is made of transactions of one read, and whatever they see, its result satisfies `Q`. -/
inductive Prog.Looks (Q : α → Prop) : Prog D L P α → Prop
  | done {result : α} (hresult : Q result) : Looks Q (.done result)
  | step {β : Type} {f : D → β} {k : β → Prog D L P α} (hk : ∀ view, Looks Q (k (f view))) :
      Looks Q (.readOnly f >>= k)

namespace Prog.Looks

theorem readOnly (f : D → α) : (.readOnly f : Prog D L P α).Looks fun result ↦ ∃ view, result = f view :=
  .step (k := .done) fun view ↦ .done ⟨view, rfl⟩

theorem mono {prog : Prog D L P α} {Q' : α → Prop} (h : prog.Looks Q) (himp : ∀ result, Q result → Q' result) :
    prog.Looks Q' := by
  induction h with
  | done hresult => exact .done (himp _ hresult)
  | step _ ih => exact .step ih

variable {prog : Prog D L P β} {k : β → Prog D L P α}

theorem bind (h : prog.Looks R) (hk : ∀ result, R result → (k result).Looks Q) : (prog >>= k).Looks Q := by
  induction h with
  | done hresult => exact hk _ hresult
  | @step _ f rest _ ih => exact .step (f := f) (k := fun value ↦ rest value >>= k) ih

theorem proceeds (h : prog.Looks R) (hknown : c.Preserves known)
    (hk : ∀ result, R result → Proceeds c known (k result)) : Proceeds c known (prog >>= k) := by
  induction h with
  | done hresult => exact hk _ hresult
  | @step _ f rest _ ih => exact .look (f := f) (k := fun value ↦ rest value >>= k) hknown ih

end Prog.Looks

end Looks

end PasswdSso.ReadCommitted
