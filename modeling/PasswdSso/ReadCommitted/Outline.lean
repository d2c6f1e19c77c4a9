import Mathlib.Logic.Relation
import PasswdSso.ReadCommitted.Program

/-!
# Proof outlines for transaction programs

A `Contract` says which commits a run may take and what every commit guarantees, as a relation
between the locks its session holds, the world before, the label and the database after. Between
two steps of a session the world moves by commits of the others, and those hold locks compatible
with its own: `Contract.Later`. An `Outline` is a proof that one program keeps the contract, read
statement by statement: each statement runs in some later world of the one before it, and every
commit has to come with its guarantee. What a session knows carries over from step to step when it
is `Contract.Stable` under its locks.

`Outline.sound` composes the outlines of all sessions along a run, and `Run.invariant` is the
resulting induction rule.
-/

namespace PasswdSso.ReadCommitted

open List Function

/-- What the sessions of a run agree on: which commits the run may take (label, labels committed
since the transaction began, world before), and what a commit guarantees (locks held, world before,
label, database after). -/
structure Contract (D L P : Type) where
  allowed : P → List P → World D P → Prop
  guarantee : List (L × Mode) → World D P → P → D → Prop

namespace Contract

variable {D L P : Type} {c : Contract D L P} {held more : List (L × Mode)} {w w' : World D P}

def Interferes (c : Contract D L P) (held : List (L × Mode)) (w w' : World D P) : Prop :=
  ∃ label db theirs, Compatible held theirs ∧ c.guarantee theirs w label db ∧ w' = w.commit label db

/-- The worlds that commits of other sessions lead to while the locks are held. -/
def Later (c : Contract D L P) (held : List (L × Mode)) : World D P → World D P → Prop :=
  Relation.ReflTransGen (c.Interferes held)

theorem Later.refl (w : World D P) : c.Later held w w := Relation.ReflTransGen.refl

theorem Later.mono (h : c.Later more w w') (hsub : held ⊆ more) : c.Later held w w' := by
  refine Relation.ReflTransGen.mono ?_ _ _ h
  rintro v v' ⟨label, db, theirs, hcompatible, hrest⟩
  exact ⟨label, db, theirs, fun first hfirst ↦ hcompatible first (hsub hfirst), hrest⟩

theorem Later.nil (h : c.Later more w w') : c.Later [] w w' := h.mono (nil_subset _)

theorem Later.trans {w'' : World D P} (h : c.Later held w w') (h' : c.Later held w' w'') : c.Later held w w'' :=
  Relation.ReflTransGen.trans h h'

/-- No commit of another session invalidates the assertion while the locks are held. -/
def Stable (c : Contract D L P) (held : List (L × Mode)) (assertion : World D P → Prop) : Prop :=
  ∀ w label db theirs, Compatible held theirs → c.guarantee theirs w label db →
    assertion w → assertion (w.commit label db)

variable {assertion known : World D P → Prop}

theorem Stable.later (hstable : c.Stable held assertion) (hnow : assertion w) (h : c.Later held w w') :
    assertion w' := by
  induction h with
  | refl => exact hnow
  | tail _ hstep ih =>
    obtain ⟨label, db, theirs, hcompatible, hguarantee, rfl⟩ := hstep
    exact hstable _ label db theirs hcompatible hguarantee ih

theorem Stable.mono (h : c.Stable held assertion) (hsub : held ⊆ more) : c.Stable more assertion :=
  fun w label db theirs hcompatible ↦
    h w label db theirs fun first hfirst ↦ hcompatible first (hsub hfirst)

/-- No commit under the contract makes `known` false. -/
def Preserves (c : Contract D L P) (known : World D P → Prop) : Prop :=
  ∀ theirs w label db, known w → c.guarantee theirs w label db → known (w.commit label db)

theorem preserves_true (c : Contract D L P) : c.Preserves fun _ ↦ True := fun _ _ _ _ h _ ↦ h

theorem Preserves.stable (h : c.Preserves known) (held : List (L × Mode)) :
    c.Stable held known :=
  fun w label db theirs _ hguarantee hnow ↦ h theirs w label db hnow hguarantee

theorem Preserves.later (h : c.Preserves known) (hnow : known w) (hlater : c.Later held w w') : known w' :=
  (h.stable held).later hnow hlater

theorem Later.earlier {fact : World D P → Prop} (h : c.Later held w w')
    (hcommits : ∀ theirs v label db, c.guarantee theirs v label db → fact v) (hnow : fact w') :
    fact w := by
  rcases Relation.ReflTransGen.cases_head h with rfl | ⟨next, ⟨label, db, theirs, -, hguarantee, -⟩, -⟩
  · exact hnow
  · exact hcommits theirs w label db hguarantee

theorem Later.log_suffix (h : c.Later held w w') : w.log <:+ w'.log := by
  have hstable : c.Stable held fun v ↦ w.log <:+ v.log :=
    fun _ label _ _ _ _ hold ↦ hold.trans (suffix_cons label _)
  exact hstable.later (suffix_refl _) h

end Contract

/-- Where a session stands: its pending writes, its locks, the log at the first statement of its
open transaction, and the world it saw last. -/
structure Stand (D L P : Type) where
  pending : D → D
  held : List (L × Mode)
  began : Option (List P)
  seen : World D P

namespace Stand

variable {D L P : Type}

def idle (w : World D P) : Stand D L P := ⟨id, [], none, w⟩

/-- After a statement that ran in the world `w`. -/
def afterStmt (before : Stand D L P) (w : World D P) (locks : List (L × Mode)) (write : D → D) :
    Stand D L P :=
  ⟨write ∘ before.pending, locks ++ before.held, some (before.began.getD w.log), w⟩

/-- After an effect in the world `w`. -/
def afterEffect (before : Stand D L P) (w : World D P) (label : P) (f : D → D) : Stand D L P :=
  { before with seen := w.commit label (f w.db) }

end Stand

/-- The proof outline of a program from where its session stands; `post` is what is known when it is
done. -/
def Outline {D L P α : Type} (c : Contract D L P) : Prog D L P α → Stand D L P → (α → Stand D L P → Prop) → Prop
  | .done result, stand, post => post result stand
  | .stmt locks write next, stand, post => ∀ w, c.Later stand.held stand.seen w →
      Outline c (next (stand.pending w.db))
        (stand.afterStmt w (locks (stand.pending w.db)) (write (stand.pending w.db))) post
  | .commit label next, stand, post => ∀ w, c.Later stand.held stand.seen w →
      c.allowed label (w.since (stand.began.getD w.log)) w → c.guarantee stand.held w label (stand.pending w.db) ∧
          Outline c next (.idle (w.commit label (stand.pending w.db))) post
  | .rollback next, stand, post => ∀ w, c.Later stand.held stand.seen w →
      Outline c next (.idle w) post
  | .effect label f next, stand, post => ∀ w, c.Later stand.held stand.seen w →
      c.allowed label (w.since (stand.began.getD w.log)) w →
        c.guarantee stand.held w label (f w.db) ∧ Outline c next (stand.afterEffect w label f) post

/-- The outline of a program that starts in `w` and of whose end nothing is claimed. -/
abbrev Respects {D L P α : Type} (c : Contract D L P) (prog : Prog D L P α) (w : World D P) : Prop :=
  Outline c prog (.idle w) fun _ _ ↦ True

section Rules

variable {D L P α β : Type} {c : Contract D L P} {stand : Stand D L P} {prog : Prog D L P α}

theorem Outline.weaken {post weaker : α → Stand D L P → Prop} (h : Outline c prog stand post)
    (himp : ∀ result stand, post result stand → weaker result stand) :
    Outline c prog stand weaker := by
  induction prog generalizing stand with
  | done result => exact himp result stand h
  | stmt locks write next ih => exact fun w hw ↦ ih _ (h w hw)
  | commit label next ih | effect label f next ih =>
    exact fun w hw hallowed ↦ ⟨(h w hw hallowed).1, ih (h w hw hallowed).2⟩
  | rollback next ih => exact fun w hw ↦ ih (h w hw)

theorem outline_bind {k : α → Prog D L P β} {post : β → Stand D L P → Prop} : Outline c (prog >>= k) stand post ↔
      Outline c prog stand fun result between ↦ Outline c (k result) between post := by
  induction prog generalizing stand with
  | done result => exact Iff.rfl
  | stmt locks write next ih => exact forall₂_congr fun w _ ↦ ih _
  | commit label next ih | effect label f next ih => exact forall₃_congr fun w _ _ ↦ and_congr_right' ih
  | rollback next ih => exact forall₂_congr fun w _ ↦ ih

theorem Outline.with_invariant {post : α → Stand D L P → Prop} {invariant : World D P → Prop}
    (hpreserved : c.Preserves invariant) (hnow : invariant stand.seen) (h : Outline c prog stand post) :
    Outline c prog stand fun result after ↦ invariant after.seen ∧ post result after := by
  induction prog generalizing stand with
  | done result => exact ⟨hnow, h⟩
  | stmt locks write next ih => exact fun w hw ↦ ih _ (hpreserved.later hnow hw) (h w hw)
  | commit label next ih | effect label f next ih =>
    intro w hw hallowed
    obtain ⟨hguarantee, hrest⟩ := h w hw hallowed
    exact ⟨hguarantee, ih (hpreserved _ _ _ _ (hpreserved.later hnow hw) hguarantee) hrest⟩
  | rollback next ih => exact fun w hw ↦ ih (hpreserved.later hnow hw) (h w hw)

def Contract.Commits (c : Contract D L P) (stand : Stand D L P) (label : P) : Prop :=
  ∀ w, c.Later stand.held stand.seen w → c.allowed label (w.since (stand.began.getD w.log)) w →
    c.guarantee stand.held w label (stand.pending w.db)

end Rules

section Labels

variable {D L P α β : Type} {c : Contract D L P} {Q : P → Prop}

variable {c' : Contract D L P} {prog : Prog D L P α} {post : α → Stand D L P → Prop}

theorem Contract.Later.of_stronger {held : List (L × Mode)} {w w' : World D P}
    (hweaker : ∀ held w label db, c'.guarantee held w label db → c.guarantee held w label db) (h : c'.Later held w w') :
    c.Later held w w' := by
  refine Relation.ReflTransGen.mono ?_ _ _ h
  rintro v v' ⟨label, db, theirs, hcompatible, hguarantee, rfl⟩
  exact ⟨label, db, theirs, hcompatible, hweaker _ _ _ _ hguarantee, rfl⟩

theorem Outline.of_stronger (hallowed : ∀ label overlap w, c'.allowed label overlap w → c.allowed label overlap w)
    (hweaker : ∀ held w label db, c'.guarantee held w label db → c.guarantee held w label db)
    (hstronger : ∀ held w label db, Q label → c.guarantee held w label db → c'.guarantee held w label db)
    {stand : Stand D L P} (h : Outline c prog stand post) (hlabels : prog.Labelled Q) :
    Outline c' prog stand post := by
  have hlater {held : List (L × Mode)} {w w' : World D P} (h : c'.Later held w w') : c.Later held w w' :=
    h.of_stronger hweaker
  induction prog generalizing stand with
  | done result => exact h
  | stmt locks write next ih => exact fun w hw ↦ ih _ (h w (hlater hw)) (hlabels _)
  | commit label next ih | effect label f next ih =>
    intro w hw hallowed'
    obtain ⟨hguarantee, hrest⟩ := h w (hlater hw) (hallowed _ _ _ hallowed')
    exact ⟨hstronger _ _ _ _ hlabels.1 hguarantee, ih hrest hlabels.2⟩
  | rollback next ih => exact fun w hw ↦ ih (h w (hlater hw)) hlabels

/-- The contract of sessions that moreover commit only labels with `Q`. -/
def Contract.labelled (c : Contract D L P) (Q : P → Prop) : Contract D L P where
  allowed := c.allowed
  guarantee held w label db := c.guarantee held w label db ∧ Q label

theorem Outline.labelled {stand : Stand D L P} (h : Outline c prog stand post) (hlabels : prog.Labelled Q) :
    Outline (c.labelled Q) prog stand post := by
  refine .of_stronger ?_ ?_ ?_ h hlabels
  · exact fun _ _ _ h ↦ h
  · exact fun _ _ _ _ h ↦ h.1
  · exact fun _ _ _ _ hlabel hguarantee ↦ ⟨hguarantee, hlabel⟩

end Labels

section Soundness

variable {ι D L P α : Type}
  {c : Contract D L P} {post : ι → α → Stand D L P → Prop} {allowed : P → List P → World D P → Prop} {w : World D P}
  {prog : ι → Prog D L P α} {s : State ι D L P α} {i : ι}

theorem State.Allows.mono {allowed allowed' : P → List P → World D P → Prop} (h : s.Allows allowed i)
    (hallowed : ∀ label overlap, allowed label overlap s.world → allowed' label overlap s.world) :
    s.Allows allowed' i := by
  revert h
  unfold State.Allows
  split
  · exact hallowed _ _
  · exact hallowed _ _
  · exact id

theorem State.allows_of_forall (h : ∀ label overlap w, allowed label overlap w) : s.Allows allowed i := by
  unfold State.Allows
  split
  · exact h _ _ _
  · exact h _ _ _
  · trivial

variable [DecidableEq ι]

def LocksCompatible (s : State ι D L P α) : Prop :=
  ∀ i j, i ≠ j → Compatible (s.held i) (s.held j)

/-- Where session `i` stands when it last saw the world `seen`. -/
def State.stand (s : State ι D L P α) (i : ι) (seen : World D P) : Stand D L P :=
  ⟨(s.session i).pending, s.held i, (s.session i).began, seen⟩

/-- Session `i` has an outline from a world of which the present one is a later one. -/
def OutlinedAt (c : Contract D L P) (post : ι → α → Stand D L P → Prop) (s : State ι D L P α)
    (w : World D P) (i : ι) : Prop :=
  ∃ seen, c.Later (s.held i) seen w ∧ Outline c (s.session i).prog (s.stand i seen) (post i)

def Outlined (c : Contract D L P) (post : ι → α → Stand D L P → Prop) (s : State ι D L P α) : Prop :=
  ∀ i, OutlinedAt c post s s.world i

theorem held_afterStmt (s : State ι D L P α) (i j : ι) (locks : List (L × Mode)) (write : D → D) (next : Prog D L P α) :
    (s.afterStmt i locks write next).held j = if j = i then locks ++ s.held i else s.held j := by
  have hmap : (locks.map fun request ↦ (i, request)).filterMap
      (fun entry ↦ if entry.1 = j then some entry.2 else none) = if j = i then locks else [] := by
    induction locks with
    | nil => simp
    | cons request rest ih =>
      by_cases hji : j = i
      · subst hji
        simp_all
      · simp_all [Ne.symm hji]
  unfold State.held State.afterStmt
  rw [filterMap_append, hmap]
  split_ifs with hji
  · rw [hji]
  · rfl

theorem held_afterEnd (s : State ι D L P α) (i j : ι) (w : World D P) (next : Prog D L P α) :
    (s.afterEnd i w next).held j = if j = i then [] else s.held j := by
  unfold State.held State.afterEnd
  rw [filterMap_filter]
  split_ifs with hji
  · subst hji
    rw [filterMap_eq_nil_iff]
    intro entry _
    by_cases hentry : entry.1 = j <;> simp [hentry]
  · congr 1
    funext entry
    by_cases hentry : entry.1 = j
    · simp [hentry, hji]
    · simp [hentry]

theorem locksCompatible_afterEnd (h : LocksCompatible s) (i : ι) (w : World D P) (next : Prog D L P α) :
    LocksCompatible (s.afterEnd i w next) := by
  intro a b hab
  rw [held_afterEnd, held_afterEnd]
  split_ifs
  · exact compatible_nil_left _
  · exact compatible_nil_left _
  · exact (compatible_nil_left _).symm
  · exact h a b hab

/-- The end of a transaction keeps every session outlined: the session that ended by what its
outline says of the rest, the others because the new world is a later one for them. -/
theorem outlined_afterEnd {next : Prog D L P α} (hmine : Outline c next (.idle w) (post i))
    (hothers : ∀ j, j ≠ i → OutlinedAt c post s w j) : Outlined c post (s.afterEnd i w next) := by
  intro j
  unfold OutlinedAt State.stand
  rw [held_afterEnd]
  by_cases hji : j = i
  · subst hji
    refine ⟨w, .refl _, ?_⟩
    simp only [State.afterEnd, if_true, update_self]
    exact hmine
  · simp only [State.afterEnd, hji, if_false, update_of_ne hji]
    exact hothers j hji

theorem outlined_afterEffect {label : P} {f : D → D} {next : Prog D L P α}
    (hmine : Outline c next (s.stand i (s.world.commit label (f s.world.db))) (post i))
    (hothers : ∀ j, j ≠ i → OutlinedAt c post s (s.world.commit label (f s.world.db)) j) :
    Outlined c post (s.afterEffect i label f next) := by
  intro j
  by_cases hji : j = i
  · subst hji
    refine ⟨_, .refl _, ?_⟩
    simp only [State.stand, State.afterEffect, update_self]
    exact hmine
  · unfold OutlinedAt State.stand
    simp only [State.afterEffect, update_of_ne hji]
    exact hothers j hji

theorem outlined_start (h : ∀ i, Outline c (prog i) (.idle w) (post i)) : Outlined c post (.start w prog) :=
  fun i ↦ ⟨w, .refl _, h i⟩

theorem locksCompatible_start (w : World D P) (prog : ι → Prog D L P α) : LocksCompatible (.start w prog) :=
  fun _ _ _ ↦ compatible_nil_left _

variable [DecidableEq L]

theorem compatible_of_grantable {i j : ι} (hij : i ≠ j) {requests : List (L × Mode)}
    (hgrant : requests.all (s.grantable i) = true) : Compatible requests (s.held j) := by
  intro first hfirst second hsecond
  have hfree := all_eq_true.mp hgrant first hfirst
  have hentry := all_eq_true.mp hfree (j, second) (State.mem_held.mp hsecond)
  simp only [decide_eq_true_eq] at hentry
  exact hentry.resolve_left fun h ↦ hij h.symm

variable {s next : State ι D L P α}

theorem locksCompatible_step (h : LocksCompatible s) (hstep : s.step i = some next) :
    LocksCompatible next := by
  obtain ⟨locks, write, rest, -, hgrant, rfl⟩ | ⟨label, rest, -, rfl⟩ | ⟨rest, -, rfl⟩ |
    ⟨label, f, rest, -, rfl⟩ := State.step_cases hstep
  · have hmine (j : ι) (hij : i ≠ j) : Compatible (locks (s.view i) ++ s.held i) (s.held j) := by
      intro first hfirst
      rcases mem_append.mp hfirst with hnew | hold
      · exact compatible_of_grantable hij hgrant first hnew
      · exact h i j hij first hold
    intro a b hab
    rw [held_afterStmt, held_afterStmt]
    split_ifs with ha hb hb
    · exact absurd (ha.trans hb.symm) hab
    · exact hmine b (ha ▸ hab)
    · exact (hmine a (hb ▸ Ne.symm hab)).symm
    · exact h a b hab
  · exact locksCompatible_afterEnd h i _ rest
  · exact locksCompatible_afterEnd h i _ rest
  · exact h

theorem outlined_step (hlocks : LocksCompatible s) (h : Outlined c post s) (hallows : s.Allows c.allowed i)
    (hstep : s.step i = some next) :
    Outlined c post next ∧ (next.world = s.world ∨ ∃ held label db,
      c.guarantee held s.world label db ∧ next.world = s.world.commit label db) := by
  obtain ⟨seen, hlater, houtline⟩ := h i
  unfold State.Allows at hallows
  -- The others see a commit or an effect as one step of interference.
  have hothers (label : P) (db : D) (hguarantee : c.guarantee (s.held i) s.world label db) (j : ι)
      (hji : j ≠ i) : OutlinedAt c post s (s.world.commit label db) j := by
    obtain ⟨theirs, htheirs, hother⟩ := h j
    exact ⟨theirs, .tail htheirs ⟨label, db, _, hlocks j i hji, hguarantee, rfl⟩, hother⟩
  obtain ⟨locks, write, rest, hprog, -, rfl⟩ | ⟨label, rest, hprog, rfl⟩ | ⟨rest, hprog, rfl⟩ |
    ⟨label, f, rest, hprog, rfl⟩ := State.step_cases hstep
  · rw [hprog] at houtline
    refine ⟨fun j ↦ ?_, .inl rfl⟩
    unfold OutlinedAt State.stand
    rw [held_afterStmt]
    by_cases hji : j = i
    · subst hji
      refine ⟨s.world, .refl _, ?_⟩
      simp only [State.afterStmt, if_true, update_self]
      exact houtline _ hlater
    · simp only [State.afterStmt, hji, if_false, update_of_ne hji]
      exact h j
  · rw [hprog] at houtline hallows
    obtain ⟨hguarantee, hrest⟩ := houtline _ hlater hallows
    exact ⟨outlined_afterEnd hrest (hothers label _ hguarantee), .inr ⟨_, label, _, hguarantee, rfl⟩⟩
  · rw [hprog] at houtline
    exact ⟨outlined_afterEnd (houtline _ hlater) fun j _ ↦ h j, .inl rfl⟩
  · rw [hprog] at houtline hallows
    obtain ⟨hguarantee, hrest⟩ := houtline _ hlater hallows
    exact ⟨outlined_afterEffect hrest (hothers label _ hguarantee), .inr ⟨_, label, _, hguarantee, rfl⟩⟩

variable {first s' : State ι D L P α}

/-- Along a run of outlined sessions the sessions stay outlined and every fact that the guarantee
of a commit preserves stays true. -/
theorem Outline.sound {invariant : World D P → Prop} (hlocks : LocksCompatible first)
    (houtlined : Outlined c post first) (hfirst : invariant first.world) (hpreserved : c.Preserves invariant)
    (hrun : Run c.allowed first s) :
    LocksCompatible s ∧ Outlined c post s ∧ invariant s.world := by
  induction hrun with
  | refl => exact ⟨hlocks, houtlined, hfirst⟩
  | step i _ hallows hstep ih =>
    obtain ⟨hcompatible, hold, hinvariant⟩ := ih
    obtain ⟨hnew, hworld⟩ := outlined_step hcompatible hold hallows hstep
    refine ⟨locksCompatible_step hcompatible hstep, hnew, ?_⟩
    rcases hworld with hsame | ⟨held, label, db, hguarantee, hcommit⟩
    · rw [hsame]
      exact hinvariant
    · rw [hcommit]
      exact hpreserved held _ label db hinvariant hguarantee

/-- The induction rule: what holds of the first world and is preserved by the guarantee of every
commit holds of every world that any interleaving of outlined programs reaches. -/
theorem Run.invariant (invariant : World D P → Prop) (hrun : Run c.allowed (.start w prog) s)
    (houtline : ∀ i, Outline c (prog i) (.idle w) (post i)) (hfirst : invariant w)
    (hpreserved : c.Preserves invariant) : invariant s.world :=
  (Outline.sound (locksCompatible_start w prog) (outlined_start houtline) hfirst hpreserved hrun).2.2

section Runs

variable (hrun : Run c.allowed (.start w prog) s) (houtline : ∀ i, Outline c (prog i) (.idle w) (post i))

include hrun houtline

theorem Run.outlined : LocksCompatible s ∧ Outlined c post s := by
  obtain ⟨hlocks, houtlined, -⟩ := Outline.sound (locksCompatible_start w prog)
    (outlined_start houtline) trivial c.preserves_true hrun
  exact ⟨hlocks, houtlined⟩

theorem Run.post_of_done {result : α} (hdone : (s.session i).prog = .done result) :
    ∃ seen, c.Later (s.held i) seen s.world ∧ post i result (s.stand i seen) := by
  obtain ⟨seen, hlater, hpost⟩ := (hrun.outlined houtline).2 i
  rw [hdone] at hpost
  exact ⟨seen, hlater, hpost⟩

theorem Run.step_guarantee (hallows : s.Allows c.allowed i) (hstep : s.step i = some next) :
    next.world = s.world ∨ ∃ held label db,
      c.guarantee held s.world label db ∧ next.world = s.world.commit label db := by
  obtain ⟨hlocks, houtlined⟩ := hrun.outlined houtline
  exact (outlined_step hlocks houtlined hallows hstep).2

end Runs

/-- The induction rule from a state of a run on: what the guarantee of every commit preserves holds of
every later world once it holds. -/
theorem Run.invariant_later (invariant : World D P → Prop) (hrun : Run c.allowed (.start w prog) s)
    (hlater : Run c.allowed s s') (houtline : ∀ i, Outline c (prog i) (.idle w) (post i)) (hnow : invariant s.world)
    (hpreserved : c.Preserves invariant) : invariant s'.world := by
  obtain ⟨hlocks, houtlined⟩ := hrun.outlined houtline
  exact (Outline.sound hlocks houtlined hnow hpreserved hlater).2.2

/-- Commits may rely on the invariant that they keep: a run in which every commit is allowed wherever the
invariant holds is a run of the contract that asks for the invariant. -/
theorem Outline.strengthen {invariant : World D P → Prop} (hlocks : LocksCompatible first)
    (houtlined : Outlined c post first) (hfirst : invariant first.world) (hpreserved : c.Preserves invariant)
    (hallowed : ∀ label overlap w, invariant w → allowed label overlap w → c.allowed label overlap w)
    (hrun : Run allowed first s) : Run c.allowed first s := by
  induction hrun with
  | refl => exact .refl
  | step i _ hallows hstep ih =>
    have hnow := (Outline.sound hlocks houtlined hfirst hpreserved ih).2.2
    exact .step i ih (hallows.mono fun label overlap ↦ hallowed label overlap _ hnow) hstep

theorem Run.strengthen (invariant : World D P → Prop) (hrun : Run allowed (.start w prog) s)
    (hallowed : ∀ label overlap w, invariant w → allowed label overlap w → c.allowed label overlap w)
    (houtline : ∀ i, Outline c (prog i) (.idle w) (post i)) (hfirst : invariant w)
    (hpreserved : c.Preserves invariant) : Run c.allowed (.start w prog) s :=
  Outline.strengthen (locksCompatible_start w prog) (outlined_start houtline) hfirst hpreserved hallowed hrun

theorem Run.strengthen_later (invariant : World D P → Prop) (hrun : Run c.allowed (.start w prog) s)
    (hlater : Run allowed s s')
    (hallowed : ∀ label overlap w, invariant w → allowed label overlap w → c.allowed label overlap w)
    (houtline : ∀ i, Outline c (prog i) (.idle w) (post i)) (hfirst : invariant w)
    (hpreserved : c.Preserves invariant) : Run c.allowed s s' := by
  obtain ⟨hlocks, houtlined, hnow⟩ := Outline.sound (locksCompatible_start w prog)
    (outlined_start houtline) hfirst hpreserved hrun
  exact Outline.strengthen hlocks houtlined hnow hpreserved hallowed hlater

end Soundness

end PasswdSso.ReadCommitted
