import PasswdSso.ReadCommitted.Statement

/-!
# What a session leaves in the log

When every label names the session that commits it, the labels of one session in the log are its trace: what
its own program has committed so far, whatever the others do. `Prog.Traces` says, statement by statement, what
a program can leave, and `Run.traces` that this is what a run finds in the log. An outline speaks of the
commits of all sessions alike, so it cannot tell that no other session commits under one's own name; a trace
can. `Prog.AtCommits` says what is left to do after a commit, and `Run.finished` that a session which has
nothing left to do stays with its result.
-/

namespace PasswdSso.ReadCommitted

variable {ι D L P α β ε : Type} {inv : List P → Prop} {made : List P}

/-- Whatever the program sees, what it has left in the log satisfies `inv` after each of its commits and
`post` at its end, if it has left `made` so far. -/
abbrev Prog.Traces (inv : List P → Prop) (post : α → List P → Prop) : Prog D L P α → List P → Prop :=
  Prog.Walks List.cons (fun label made ↦ inv (label :: made)) post

section Rules

variable {post : β → List P → Prop} {k : α → Prog D L P β} {label : α → P} {body : Prog D L P (Except ε α)}

theorem Prog.Traces.transaction {post : Except ε α → List P → Prop} (hbody : body.Labelled fun _ ↦ False)
    (hok : ∀ value, inv (label value :: made) ∧ post (.ok value) (label value :: made))
    (herror : ∀ thrown, post (.error thrown) made) : (Prog.transaction label body).Traces inv post made := by
  refine .bind ((hbody.silent made).weaken ?_)
  rintro (thrown | value) _ rfl
  · exact herror thrown
  · exact hok value

theorem Prog.traces_transaction {k : Except ε α → Prog D L P β} (hbody : body.Labelled fun _ ↦ False)
    (hok : ∀ value, inv (label value :: made) ∧ (k (.ok value)).Traces inv post (label value :: made))
    (herror : ∀ thrown, (k (.error thrown)).Traces inv post made) :
    (.transaction label body >>= k).Traces inv post made :=
  .bind (Traces.transaction hbody hok herror)

end Rules

section Rest

variable {R : P → Prog D L P β → Prop}

/-- After every commit of the program, its label and the rest of the program satisfy `R`. -/
def Prog.AtCommits (R : P → Prog D L P α → Prop) : Prog D L P α → Prop
  | .done _ => True
  | .stmt _ _ next => ∀ view, (next view).AtCommits R
  | .commit label next => R label next ∧ next.AtCommits R
  | .rollback next => next.AtCommits R
  | .effect label _ next => R label next ∧ next.AtCommits R

theorem Prog.Labelled.atCommits {prog : Prog D L P α} {k : α → Prog D L P β}
    (h : prog.Labelled fun _ ↦ False) (hk : ∀ result, (k result).AtCommits R) : (prog >>= k).AtCommits R := by
  induction prog with
  | done result => exact hk result
  | stmt locks write next ih => exact fun view ↦ ih view (h view)
  | commit label next ih => exact h.1.elim
  | rollback next ih => exact ih h
  | effect label f next ih => exact h.1.elim

theorem Prog.bind_assoc {γ : Type} (prog : Prog D L P α) (f : α → Prog D L P γ) (k : γ → Prog D L P β) :
    prog >>= f >>= k = prog >>= fun result ↦ f result >>= k := by
  induction prog with
  | done result => rfl
  | stmt locks write next ih => exact congrArg (Prog.stmt locks write) (funext ih)
  | commit label next ih => exact congrArg (Prog.commit label) ih
  | rollback next ih => exact congrArg Prog.rollback ih
  | effect label f next ih => exact congrArg (Prog.effect label f) ih

theorem Prog.atCommits_transaction {label : α → P} {body : Prog D L P (Except ε α)}
    {k : Except ε α → Prog D L P β} (hbody : body.Labelled fun _ ↦ False)
    (hok : ∀ value, R (label value) (k (.ok value)) ∧ (k (.ok value)).AtCommits R)
    (herror : ∀ thrown, (k (.error thrown)).AtCommits R) :
    (.transaction label body >>= k).AtCommits R := by
  rw [Prog.transaction, Prog.bind_assoc]
  refine hbody.atCommits ?_
  rintro (thrown | value)
  · exact herror thrown
  · exact hok value

end Rest

section Runs

variable [DecidableEq ι] {owner : P → ι} {prog : ι → Prog D L P α}
  {inv : ι → List P → Prop} {post : ι → α → List P → Prop} {allowed : P → List P → World D P → Prop}

def World.trace (owner : P → ι) (w : World D P) (i : ι) : List P := w.log.filter fun label ↦ owner label = i

def Traced (owner : P → ι) (inv : ι → List P → Prop) (post : ι → α → List P → Prop) (s : State ι D L P α) : Prop :=
  ∀ i, inv i (s.world.trace owner i) ∧ (s.session i).prog.Traces (inv i) (post i) (s.world.trace owner i)

variable {s : State ι D L P α} {db : D} {next first : State ι D L P α} {i : ι}

theorem Traced.commit {label : P} {rest : Prog D L P α} (h : Traced owner inv post s)
    (howner : ∀ i made, inv i made → ∀ label ∈ made, owner label = i) (hworld : next.world = s.world.commit label db)
    (hprog : (next.session i).prog = rest) (hothers : ∀ j, j ≠ i → next.session j = s.session j)
    (hlabel : inv i (label :: s.world.trace owner i))
    (hrest : rest.Traces (inv i) (post i) (label :: s.world.trace owner i)) : Traced owner inv post next := by
  have hmine : owner label = i := howner i _ hlabel label List.mem_cons_self
  intro j
  have htrace : next.world.trace owner j =
      if j = i then label :: s.world.trace owner j else s.world.trace owner j := by
    rw [hworld, World.trace, World.commit_log, List.filter_cons, hmine]
    by_cases hji : j = i
    · simp [hji, World.trace]
    · simp [hji, Ne.symm hji, World.trace]
  by_cases hji : j = i
  · subst hji
    rw [htrace, if_pos rfl, hprog]
    exact ⟨hlabel, hrest⟩
  · rw [htrace, if_neg hji, hothers j hji]
    exact h j

theorem traced_start (hprog : ∀ i, (prog i).Traces (inv i) (post i) []) (hinv : ∀ i, inv i []) :
    Traced owner inv post (.start ⟨db, []⟩ prog) :=
  fun i ↦ ⟨hinv i, hprog i⟩

variable [DecidableEq L]

theorem Run.traces (howner : ∀ i made, inv i made → ∀ label ∈ made, owner label = i)
    (hfirst : Traced owner inv post first) (hrun : Run allowed first s) : Traced owner inv post s := by
  induction hrun with
  | refl => exact hfirst
  | @step s next i _ _ hstep ih =>
    have hothers (j : ι) (hji : j ≠ i) : next.session j = s.session j := State.session_of_ne hstep hji
    have hnow := (ih i).2
    -- A statement or a rollback changes nothing but the program that is left.
    have hquiet (rest : Prog D L P α) (hworld : next.world = s.world) (hprog : (next.session i).prog = rest)
        (hrest : rest.Traces (inv i) (post i) (s.world.trace owner i)) : Traced owner inv post next := by
      intro j
      by_cases hji : j = i
      · subst hji
        rw [hworld, hprog]
        exact ⟨(ih j).1, hrest⟩
      · rw [hworld, hothers j hji]
        exact ih j
    obtain ⟨locks, write, rest, hprog, -, rfl⟩ | ⟨label, rest, hprog, rfl⟩ | ⟨rest, hprog, rfl⟩ |
      ⟨label, f, rest, hprog, rfl⟩ := State.step_cases hstep <;> rw [hprog] at hnow
    · exact hquiet (rest (s.view i)) rfl (by simp [State.afterStmt]) (hnow _)
    · exact ih.commit howner rfl (by simp [State.afterEnd]) hothers hnow.1 hnow.2
    · exact hquiet rest rfl (by simp [State.afterEnd]) hnow
    · exact ih.commit howner rfl (by simp [State.afterEffect]) hothers hnow.1 hnow.2

theorem Run.following {Follows : P → P → Prop} (howner : ∀ i made, inv i made → ∀ label ∈ made, owner label = i)
    (hfollows : ∀ i label made, inv i (label :: made) → ∀ earlier ∈ made, Follows label earlier)
    (hfirst : Traced owner inv post first) (hrun : Run allowed first s) :
    Run (fun label overlap w ↦ allowed label overlap w ∧
      ∀ earlier ∈ w.log, owner earlier = owner label → Follows label earlier) first s := by
  induction hrun with
  | refl => exact .refl
  | @step s next i hrun hallows hstep ih =>
    refine .step i ih ?_ hstep
    have hnow := (Run.traces howner hfirst hrun i).2
    -- the label of the step comes after what the session has left so far
    have hlabel {label : P} (hinv : inv i (label :: s.world.trace owner i)) :
        ∀ earlier ∈ s.world.log, owner earlier = owner label → Follows label earlier := by
      intro earlier hearlier hsame
      have hmine : owner label = i := howner i _ hinv label List.mem_cons_self
      exact hfollows i label _ hinv earlier (List.mem_filter.mpr ⟨hearlier, decide_eq_true (hsame.trans hmine)⟩)
    unfold State.Allows at hallows ⊢
    cases hprog : (s.session i).prog with
    | done result | stmt locks write rest => trivial
    | commit label rest | effect label f rest =>
      rw [hprog] at hnow hallows
      exact ⟨hallows, hlabel hnow.1⟩
    | rollback rest => trivial

theorem Prog.AtCommits.step {R : P → Prog D L P α → Prop} (h : (s.session i).prog.AtCommits R)
    (hstep : s.step i = some next) :
    (next.session i).prog.AtCommits R ∧ (next.world = s.world ∨ ∃ label db,
      next.world = s.world.commit label db ∧ R label (next.session i).prog) := by
  obtain ⟨locks, write, rest, hprog, -, hnext⟩ | ⟨label, rest, hprog, hnext⟩ | ⟨rest, hprog, hnext⟩ |
    ⟨label, f, rest, hprog, hnext⟩ := State.step_cases hstep <;> rw [hprog] at h
  · have hrest : (next.session i).prog = rest (s.view i) := by simp [hnext, State.afterStmt]
    rw [hrest]
    exact ⟨h _, .inl (by rw [hnext]; rfl)⟩
  · have hrest : (next.session i).prog = rest := by simp [hnext, State.afterEnd]
    rw [hrest]
    exact ⟨h.2, .inr ⟨label, _, by rw [hnext]; rfl, h.1⟩⟩
  · have hrest : (next.session i).prog = rest := by simp [hnext, State.afterEnd]
    rw [hrest]
    exact ⟨h, .inl (by rw [hnext]; rfl)⟩
  · have hrest : (next.session i).prog = rest := by simp [hnext, State.afterEffect]
    rw [hrest]
    exact ⟨h.2, .inr ⟨label, _, by rw [hnext]; rfl, h.1⟩⟩

theorem Run.atCommits {R : ι → P → Prog D L P α → Prop} {w : World D P} (hprog : ∀ i, (prog i).AtCommits (R i))
    (hrun : Run allowed (.start w prog) s) :
    ∀ i, (s.session i).prog.AtCommits (R i) := by
  induction hrun with
  | refl => exact hprog
  | step j _ _ hstep ih =>
    intro i
    by_cases hij : i = j
    · subst hij
      exact ((ih i).step hstep).1
    · rw [State.session_of_ne hstep hij]
      exact ih i

theorem Run.finished {final : P → Prop} {ends : P → α → Prop} (hprog : ∀ i, (prog i).AtCommits fun label rest ↦
      owner label = i ∧ (final label → ∃ result, rest = .done result ∧ ends label result))
    (hrun : Run allowed (.start ⟨db, []⟩ prog) s) : ∀ label ∈ s.world.log, final label →
      ∃ result, (s.session (owner label)).prog = .done result ∧ ends label result := by
  induction hrun with
  | refl => exact nofun
  | @step s next i hrun _ hstep ih =>
    have hold (label : P) (hlabel : label ∈ s.world.log) (hfinal : final label) :
        ∃ result, (next.session (owner label)).prog = .done result ∧ ends label result := by
      obtain ⟨result, hdone, hends⟩ := ih label hlabel hfinal
      by_cases howner : owner label = i
      · -- A session that is done takes no step.
        rw [howner] at hdone
        rw [State.step, hdone] at hstep
        exact nomatch hstep
      · rw [State.session_of_ne hstep howner]
        exact ⟨result, hdone, hends⟩
    rcases ((Run.atCommits hprog hrun i).step hstep).2 with hsame | ⟨label, db', hworld, howner, hrest⟩
    · rw [hsame]
      exact hold
    · rw [hworld, World.commit_log]
      refine List.forall_mem_cons.mpr ⟨fun hfinal ↦ ?_, hold⟩
      rw [howner]
      exact hrest hfinal

end Runs

end PasswdSso.ReadCommitted
