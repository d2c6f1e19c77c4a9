import Mathlib.Data.List.Basic
import Mathlib.Logic.Function.Basic

/-!
# Transaction programs and their interleavings under READ COMMITTED

A database session runs a `Prog`: a tree of statements, commits and rollbacks. A statement reads the
committed database with the session's own pending writes on top of it (its view), takes row or
advisory locks, adds to the pending writes, and continues with what it read. Nothing is visible to
the other sessions before the commit, and every statement reads what was committed before it ran,
so two statements of one transaction may see different databases. These are the rules of READ
COMMITTED with row locks held to the end of the transaction. An effect on a store outside of the
database, which `D` then includes, happens at once and stays, whatever becomes of the transaction.

`State.step` runs one statement, commit, rollback or effect of one session and is undefined when that
session has to wait for a lock. `Run` is any interleaving of any family of sessions. A run can be
restricted by a condition on its commits, which sees the label of the commit, the labels committed
while the transaction was open, and the world before the commit. `Prog.exec` is the run of one
session alone.
-/

namespace PasswdSso.ReadCommitted

open Function

/-- The two strengths of a row lock: `FOR SHARE`, and `FOR UPDATE` or an actual write. -/
inductive Mode
  | share
  | exclusive
  deriving DecidableEq

/-- The program of one session over databases `D`, locks `L` and commit labels `P`. The arguments of
`stmt` are functions of the view: the locks it takes, the pending write it adds (the second argument
of `write` is the database the write is applied to) and the rest of the program. An `effect` changes what
is committed without ending the transaction. -/
inductive Prog (D L P α : Type)
  | done (result : α)
  | stmt (locks : D → List (L × Mode)) (write : D → D → D) (next : D → Prog D L P α)
  | commit (label : P) (next : Prog D L P α)
  | rollback (next : Prog D L P α)
  | effect (label : P) (f : D → D) (next : Prog D L P α)

namespace Prog

variable {D L P α β : Type}

/-- Sequencing: the second program starts where the first one is done. -/
def bind : Prog D L P α → (α → Prog D L P β) → Prog D L P β
  | done result, k => k result
  | stmt locks write next, k => stmt locks write fun view ↦ (next view).bind k
  | commit label next, k => commit label (next.bind k)
  | rollback next, k => rollback (next.bind k)
  | effect label f next, k => effect label f (next.bind k)

instance : Monad (Prog D L P) where
  pure := done
  bind := bind

instance (prog : Prog D L P α) : Decidable (∃ result, prog = done result) :=
  match prog with
  | done result => isTrue ⟨result, rfl⟩
  | stmt .. | commit .. | rollback .. | effect .. => isFalse nofun

end Prog

/-- The committed database and the labels of the commits that led to it, latest first. -/
structure World (D P : Type) where
  db : D
  log : List P

namespace World

variable {D P : Type}

/-- The world after a commit that is labelled `label` and leaves the database `db`. -/
def commit (w : World D P) (label : P) (db : D) : World D P := ⟨db, label :: w.log⟩

@[simp] theorem commit_db (w : World D P) (label : P) (db : D) : (w.commit label db).db = db := rfl

@[simp] theorem commit_log (w : World D P) (label : P) (db : D) : (w.commit label db).log = label :: w.log := rfl

/-- The labels committed since the log was `before`. -/
def since (w : World D P) (before : List P) : List P := w.log.take (w.log.length - before.length)

variable {w : World D P} {before : List P}

theorem since_eq_of_append {recent : List P} (h : w.log = recent ++ before) : w.since before = recent := by
  have hlength : w.log.length - before.length = recent.length := by simp [h]
  rw [since, hlength, h, List.take_left]

theorem since_append (h : before <:+ w.log) : w.since before ++ before = w.log := by
  obtain ⟨recent, hrecent⟩ := h
  rw [since_eq_of_append hrecent.symm, hrecent]

theorem since_commit (h : before <:+ w.log) (label : P) (db : D) :
    (w.commit label db).since before = label :: w.since before := by
  refine since_eq_of_append ?_
  rw [commit_log, List.cons_append, since_append h]

theorem since_subset {later : List P} (h : before <:+ later) (hlater : later <:+ w.log) :
    w.since later ⊆ w.since before := by
  obtain ⟨recent, rfl⟩ := h
  have hlog : w.log = (w.since (recent ++ before) ++ recent) ++ before := by
    rw [List.append_assoc, since_append hlater]
  rw [since_eq_of_append hlog]
  exact List.subset_append_left _ _

end World

/-- Two lock requests exclude each other when they name the same lock and one of them is exclusive. -/
def Conflicts {L : Type} (first second : L × Mode) : Prop :=
  first.1 = second.1 ∧ (first.2 = .exclusive ∨ second.2 = .exclusive)

instance {L : Type} [DecidableEq L] (first second : L × Mode) : Decidable (Conflicts first second) :=
  inferInstanceAs (Decidable (_ ∧ _))

variable {L ι D P α : Type} {mine theirs : List (L × Mode)} {allowed : P → List P → World D P → Prop}

theorem Conflicts.symm {first second : L × Mode} (h : Conflicts first second) :
    Conflicts second first :=
  ⟨h.1.symm, h.2.symm⟩

def Compatible {L : Type} (mine theirs : List (L × Mode)) : Prop :=
  ∀ first ∈ mine, ∀ second ∈ theirs, ¬ Conflicts first second

theorem Compatible.symm (h : Compatible mine theirs) :
    Compatible theirs mine :=
  fun first hfirst second hsecond hconflict ↦ h second hsecond first hfirst hconflict.symm

theorem compatible_nil_left (theirs : List (L × Mode)) : Compatible [] theirs := by
  intro first hfirst
  simp at hfirst

theorem Compatible.not_mem (h : Compatible mine theirs) {lock : L} {mode : Mode} (hmine : (lock, .exclusive) ∈ mine) :
    (lock, mode) ∉ theirs :=
  fun htheirs ↦ h _ hmine _ htheirs ⟨rfl, .inl rfl⟩

theorem Compatible.not_mem_exclusive (h : Compatible mine theirs) {lock : L} {mode : Mode}
    (hmine : (lock, mode) ∈ mine) :
    (lock, .exclusive) ∉ theirs :=
  fun htheirs ↦ h _ hmine _ htheirs ⟨rfl, .inr rfl⟩

/-- A session: what is left of its program, its pending writes, and the log at the first statement
of its open transaction. -/
structure Session (D L P α : Type) where
  prog : Prog D L P α
  pending : D → D
  began : Option (List P)

/-- The machine: the committed world, the lock table, and the sessions. -/
structure State (ι D L P α : Type) where
  world : World D P
  locks : List (ι × L × Mode)
  session : ι → Session D L P α

namespace State

variable {ι D L P α : Type}

/-- Every session is at the start of its program and holds nothing. -/
def start (w : World D P) (prog : ι → Prog D L P α) : State ι D L P α :=
  ⟨w, [], fun i ↦ ⟨prog i, id, none⟩⟩

variable [DecidableEq ι]

def held (s : State ι D L P α) (i : ι) : List (L × Mode) :=
  s.locks.filterMap fun entry ↦ if entry.1 = i then some entry.2 else none

variable {s : State ι D L P α} {i : ι}

theorem mem_held {request : L × Mode} :
    request ∈ s.held i ↔ (i, request) ∈ s.locks := by
  simp only [held, List.mem_filterMap]
  constructor
  · rintro ⟨⟨holder, lock, mode⟩, hmem, hsome⟩
    split_ifs at hsome with hholder
    obtain rfl := Option.some.inj hsome
    rwa [← hholder]
  · intro hmem
    exact ⟨(i, request), hmem, if_pos rfl⟩

variable [DecidableEq L]

/-- The lock is free for `i`: no other session holds it in a conflicting mode. -/
def grantable (s : State ι D L P α) (i : ι) (request : L × Mode) : Bool :=
  s.locks.all fun entry ↦ entry.1 = i ∨ ¬ Conflicts request entry.2

/-- Session `i` after a statement: its locks are taken, its write is pending, it continues with
`next`. -/
def afterStmt (s : State ι D L P α) (i : ι) (locks : List (L × Mode)) (write : D → D)
    (next : Prog D L P α) : State ι D L P α :=
  ⟨s.world, locks.map (fun request ↦ (i, request)) ++ s.locks, Function.update s.session i
      ⟨next, write ∘ (s.session i).pending, some ((s.session i).began.getD s.world.log)⟩⟩

/-- Session `i` after the end of its transaction, which left the world `w`. -/
def afterEnd (s : State ι D L P α) (i : ι) (w : World D P) (next : Prog D L P α) :
    State ι D L P α :=
  ⟨w, s.locks.filter (·.1 ≠ i), Function.update s.session i ⟨next, id, none⟩⟩

/-- Session `i` after an effect, in the transaction that it was in. -/
def afterEffect (s : State ι D L P α) (i : ι) (label : P) (f : D → D) (next : Prog D L P α) :
    State ι D L P α :=
  ⟨s.world.commit label (f s.world.db), s.locks, Function.update s.session i { s.session i with prog := next }⟩

/-- What session `i` sees: the committed database under its own pending writes. -/
def view (s : State ι D L P α) (i : ι) : D := (s.session i).pending s.world.db

/-- One statement, commit, rollback or effect of session `i`; `none` when `i` is done or has to wait. -/
def step (s : State ι D L P α) (i : ι) : Option (State ι D L P α) :=
  match (s.session i).prog with
  | .done _ => none
  | .stmt locks write next =>
    if (locks (s.view i)).all (s.grantable i) then
      some (s.afterStmt i (locks (s.view i)) (write (s.view i)) (next (s.view i)))
    else none
  | .commit label next => some (s.afterEnd i (s.world.commit label (s.view i)) next)
  | .rollback next => some (s.afterEnd i s.world next)
  | .effect label f next => some (s.afterEffect i label f next)

theorem step_cases {next : State ι D L P α} (h : s.step i = some next) :
    (∃ locks write rest, (s.session i).prog = .stmt locks write rest ∧ (locks (s.view i)).all (s.grantable i) = true ∧
      next = s.afterStmt i (locks (s.view i)) (write (s.view i)) (rest (s.view i))) ∨
    (∃ label rest, (s.session i).prog = .commit label rest ∧
      next = s.afterEnd i (s.world.commit label (s.view i)) rest) ∨
    (∃ rest, (s.session i).prog = .rollback rest ∧ next = s.afterEnd i s.world rest) ∨
    ∃ label f rest, (s.session i).prog = .effect label f rest ∧ next = s.afterEffect i label f rest := by
  unfold step at h
  split at h
  · simp at h
  · next locks write rest hprog =>
    split_ifs at h with hgrant
    exact .inl ⟨locks, write, rest, hprog, hgrant, (Option.some.inj h).symm⟩
  · next label rest hprog => exact .inr (.inl ⟨label, rest, hprog, (Option.some.inj h).symm⟩)
  · next rest hprog => exact .inr (.inr (.inl ⟨rest, hprog, (Option.some.inj h).symm⟩))
  · next label f rest hprog =>
    exact .inr (.inr (.inr ⟨label, f, rest, hprog, (Option.some.inj h).symm⟩))

/-- The condition on the step of `i`: if it is a commit or an effect, `allowed` holds of its label, of the labels
committed since the transaction began, and of the world before it. -/
def Allows (allowed : P → List P → World D P → Prop) (s : State ι D L P α) (i : ι) : Prop :=
  match (s.session i).prog with
  | .commit label _ => allowed label (s.world.since ((s.session i).began.getD s.world.log)) s.world
  | .effect label _ _ => allowed label (s.world.since ((s.session i).began.getD s.world.log)) s.world
  | _ => True

/-- `Allows`, for a condition that can be computed. -/
def allows (check : P → List P → World D P → Bool) (s : State ι D L P α) (i : ι) : Bool :=
  match (s.session i).prog with
  | .commit label _ => check label (s.world.since ((s.session i).began.getD s.world.log)) s.world
  | .effect label _ _ => check label (s.world.since ((s.session i).began.getD s.world.log)) s.world
  | _ => true

/-- Run a schedule, the sessions in the order in which they take steps; `none` when a step is not
possible or a commit does not pass the check. -/
def steps (check : P → List P → World D P → Bool) (s : State ι D L P α) : List ι → Option (State ι D L P α)
  | [] => some s
  | i :: rest => if s.allows check i then (s.step i).bind fun next ↦ next.steps check rest else none

end State

/-- The states reached from `first` by any interleaving of the sessions in which every commit meets
`allowed`. -/
inductive Run {ι D L P α : Type} [DecidableEq ι] [DecidableEq L]
    (allowed : P → List P → World D P → Prop) (first : State ι D L P α) :
    State ι D L P α → Prop
  | refl : Run allowed first first
  | step {s next : State ι D L P α} (i : ι) : Run allowed first s → s.Allows allowed i →
      s.step i = some next → Run allowed first next

variable {check : P → List P → World D P → Bool} {s first last : State ι D L P α}

theorem State.Allows.of_allows {i : ι}
    (hcheck : ∀ label overlap w, check label overlap w = true → allowed label overlap w) (h : s.allows check i = true) :
    s.Allows allowed i := by
  unfold State.allows at h
  unfold State.Allows
  split at h
  · exact hcheck _ _ _ h
  · exact hcheck _ _ _ h
  · trivial

theorem Run.trans [DecidableEq ι] [DecidableEq L] (hrun : Run allowed first s) (hlater : Run allowed s last) :
    Run allowed first last := by
  induction hlater with
  | refl => exact hrun
  | step i _ hallows hstep ih => exact .step i ih hallows hstep

theorem Run.of_steps [DecidableEq ι] [DecidableEq L]
    (hcheck : ∀ label overlap w, check label overlap w = true → allowed label overlap w) (hrun : Run allowed first s)
    (schedule : List ι) (hsteps : s.steps check schedule = some last) :
    Run allowed first last := by
  induction schedule generalizing s with
  | nil =>
    obtain rfl := Option.some.inj hsteps
    exact hrun
  | cons i rest ih =>
    rw [State.steps] at hsteps
    split_ifs at hsteps with hallows
    obtain ⟨next, hnext, hrest⟩ := Option.bind_eq_some_iff.mp hsteps
    exact ih (.step i hrun (.of_allows hcheck hallows) hnext) hrest

/-- A schedule lists the sessions that take steps, each with the number of its steps in a row. -/
theorem Run.exists_state_of_schedule [DecidableEq ι] [DecidableEq L] (first : State ι D L P α)
    (test : State ι D L P α → Bool) (schedule : List (ℕ × ι))
    (allowed : P → List P → World D P → Prop := fun _ _ _ ↦ True) [∀ label overlap w, Decidable (allowed label overlap w)]
    (hlast : (first.steps (fun label overlap w ↦ decide (allowed label overlap w))
      (schedule.flatMap fun turn ↦ .replicate turn.1 turn.2)).any test = true := by decide +kernel) :
    ∃ s, Run allowed first s ∧ test s = true := by
  obtain ⟨last, hsteps, htest⟩ := (Option.any_eq_true _ _).mp hlast
  exact ⟨last, .of_steps (fun _ _ _ h ↦ of_decide_eq_true h) .refl _ hsteps, htest⟩

theorem Run.exists_of_schedule [DecidableEq ι] [DecidableEq L] (first : State ι D L P α) (property : World D P → Prop)
    [DecidablePred property] (schedule : List (ℕ × ι))
    (allowed : P → List P → World D P → Prop := fun _ _ _ ↦ True) [∀ label overlap w, Decidable (allowed label overlap w)]
    (hlast : (first.steps (fun label overlap w ↦ decide (allowed label overlap w))
      (schedule.flatMap fun turn ↦ .replicate turn.1 turn.2)).any
        (fun s ↦ decide (property s.world)) = true := by decide +kernel) :
    ∃ s, Run allowed first s ∧ property s.world := by
  obtain ⟨last, hrun, hproperty⟩ := Run.exists_state_of_schedule first _ schedule allowed hlast
  exact ⟨last, hrun, of_decide_eq_true hproperty⟩

section Walks

variable {ι D L P α β σ : Type} {remember : P → σ → σ} {ok : P → σ → Prop} {post : α → σ → Prop}

/-- Whatever the program sees, each of its commits is `ok` after what is remembered of the commits before it,
and `post` holds at its end. -/
def Prog.Walks (remember : P → σ → σ) (ok : P → σ → Prop) (post : α → σ → Prop) : Prog D L P α → σ → Prop
  | .done result, memory => post result memory
  | .stmt _ _ next, memory => ∀ view, (next view).Walks remember ok post memory
  | .commit label next, memory => ok label memory ∧ next.Walks remember ok post (remember label memory)
  | .rollback next, memory => next.Walks remember ok post memory
  | .effect label _ next, memory => ok label memory ∧ next.Walks remember ok post (remember label memory)

section Rules

variable {prog : Prog D L P β} {k : β → Prog D L P α} {between weaker : β → σ → Prop} {memory : σ} {Q : P → Prop}

theorem Prog.Walks.weaken (h : prog.Walks remember ok between memory)
    (himp : ∀ result memory, between result memory → weaker result memory) :
    prog.Walks remember ok weaker memory := by
  induction prog generalizing memory with
  | done result => exact himp result memory h
  | stmt locks write next ih => exact fun view ↦ ih view (h view)
  | commit label next ih | effect label f next ih => exact ⟨h.1, ih h.2⟩
  | rollback next ih => exact ih h

theorem Prog.Walks.bind
    (h : prog.Walks remember ok (fun result memory ↦ (k result).Walks remember ok post memory) memory) :
    (prog >>= k).Walks remember ok post memory := by
  induction prog generalizing memory with
  | done result => exact h
  | stmt locks write next ih => exact fun view ↦ ih view (h view)
  | commit label next ih | effect label f next ih => exact ⟨h.1, ih h.2⟩
  | rollback next ih => exact ih h

/-- Every label that the program can commit, whatever it sees, satisfies `Q`. -/
abbrev Prog.Labelled (Q : P → Prop) (prog : Prog D L P α) : Prop :=
  prog.Walks (fun _ ↦ id) (fun label _ ↦ Q label) (fun _ _ ↦ True) ()

theorem Prog.Labelled.bind (h : prog.Labelled Q) (hk : ∀ result, (k result).Labelled Q) :
    (prog >>= k).Labelled Q :=
  Walks.bind (Walks.weaken h fun result _ _ ↦ hk result)

theorem Prog.Labelled.silent (h : prog.Labelled fun _ ↦ False) (memory : σ) :
    prog.Walks remember ok (fun _ after ↦ after = memory) memory := by
  induction prog with
  | done result => rfl
  | stmt locks write next ih => exact fun view ↦ ih view (h view)
  | commit label next ih | effect label f next ih => exact h.1.elim
  | rollback next ih => exact ih h

end Rules

/-- A program that has committed something can only end with a result that satisfies `Q`; what is remembered is
whether it has. -/
abbrev Prog.CommitsOnlyTo (Q : α → Prop) : Prog D L P α → Prop → Prop :=
  Prog.Walks (fun _ _ ↦ True) (fun _ _ ↦ True) fun result committed ↦ committed → Q result

variable [DecidableEq ι] [DecidableEq L] {s next : State ι D L P α} {i j : ι}

theorem State.session_of_ne (hstep : s.step j = some next) (hij : i ≠ j) : next.session i = s.session i := by
  obtain ⟨locks, write, rest, -, -, rfl⟩ | ⟨label, rest, -, rfl⟩ | ⟨rest, -, rfl⟩ |
    ⟨label, f, rest, -, rfl⟩ := State.step_cases hstep
  · exact update_of_ne hij _ _
  · exact update_of_ne hij _ _
  · exact update_of_ne hij _ _
  · exact update_of_ne hij _ _

theorem State.walks_step {memory : σ} (h : (s.session i).prog.Walks remember ok post memory)
    (hstep : s.step j = some next) : (next.session i).prog.Walks remember ok post memory ∨
      ∃ label, (next.session i).prog.Walks remember ok post (remember label memory) := by
  by_cases hij : i = j
  · subst hij
    obtain ⟨locks, write, rest, hprog, -, rfl⟩ | ⟨label, rest, hprog, rfl⟩ | ⟨rest, hprog, rfl⟩ |
      ⟨label, f, rest, hprog, rfl⟩ := State.step_cases hstep <;> rw [hprog] at h
    · exact .inl (by simpa [State.afterStmt] using h _)
    · exact .inr ⟨label, by simpa [State.afterEnd] using h.2⟩
    · refine .inl ?_
      simp only [State.afterEnd, update_self]
      exact h
    · exact .inr ⟨label, by simpa [State.afterEffect] using h.2⟩
  · rw [State.session_of_ne hstep hij]
    exact .inl h

variable {allowed : P → List P → World D P → Prop} {last : State ι D L P α} {Q : α → Prop} {committed : Prop}

theorem Run.commitsOnlyTo (hrun : Run allowed s last) (h : (s.session i).prog.CommitsOnlyTo Q committed) :
    (last.session i).prog.CommitsOnlyTo Q committed ∨ (last.session i).prog.CommitsOnlyTo Q True := by
  induction hrun with
  | refl => exact .inl h
  | step j _ _ hstep ih =>
    rcases ih with hold | hnew
    · exact (State.walks_step hold hstep).imp_right fun ⟨_, h⟩ ↦ h
    · exact .inr ((State.walks_step hnew hstep).elim id fun ⟨_, h⟩ ↦ h)

theorem Run.world_of_abort (h : (s.session i).prog.CommitsOnlyTo Q committed) (hstep : s.step i = some next)
    (hrun : Run allowed next last) {result : α} (hdone : (last.session i).prog = .done result)
    (hresult : ¬ Q result) : next.world = s.world := by
  -- a session that has committed ends with a result that satisfies `Q`
  have hno (hcommitted : (next.session i).prog.CommitsOnlyTo Q True) : False := by
    have hlast := (hrun.commitsOnlyTo hcommitted).elim id id
    rw [hdone] at hlast
    exact hresult (hlast trivial)
  obtain ⟨locks, write, rest, -, -, rfl⟩ | ⟨label, rest, hprog, rfl⟩ | ⟨rest, -, rfl⟩ |
    ⟨label, f, rest, hprog, rfl⟩ := State.step_cases hstep
  · rfl
  · rw [hprog] at h
    exact (hno (by simpa [State.afterEnd] using h.2)).elim
  · rfl
  · rw [hprog] at h
    exact (hno (by simpa [State.afterEffect] using h.2)).elim

end Walks

/-- One session alone: its result, its pending writes and the world at the end. -/
def Prog.exec {D L P α : Type} : Prog D L P α → (D → D) → World D P → α × (D → D) × World D P
  | .done result, pending, w => (result, pending, w)
  | .stmt _ write next, pending, w =>
    (next (pending w.db)).exec (write (pending w.db) ∘ pending) w
  | .commit label next, pending, w => next.exec id (w.commit label (pending w.db))
  | .rollback next, _, w => next.exec id w
  | .effect label f next, pending, w => next.exec pending (w.commit label (f w.db))

@[simp] theorem Prog.exec_pure (result : α) (pending : D → D) (w : World D P) :
    (pure result : Prog D L P α).exec pending w = (result, pending, w) := rfl

@[simp] theorem Prog.exec_bind {β : Type} (prog : Prog D L P α) (k : α → Prog D L P β) (pending : D → D)
    (w : World D P) :
    (prog >>= k).exec pending w = (k (prog.exec pending w).1).exec (prog.exec pending w).2.1
      (prog.exec pending w).2.2 := by
  induction prog generalizing pending w with
  | done result => rfl
  | stmt locks write next ih => exact ih _ _ w
  | commit label next ih | effect label f next ih => exact ih _ _
  | rollback next ih => exact ih _ w

/-- The result and the final world of a request that runs alone. -/
def Prog.alone {D L P α : Type} (prog : Prog D L P α) (w : World D P) : α × World D P :=
  ((prog.exec id w).1, (prog.exec id w).2.2)

end PasswdSso.ReadCommitted
