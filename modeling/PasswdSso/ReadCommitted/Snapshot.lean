import PasswdSso.ReadCommitted.Statement

/-!
# Copying a row into its history

A row that is about to change is locked and copied into a table of past versions, of which only the latest are kept.
The copy is of the row as the lock found it, and nobody else can change that row before the transaction ends.
-/

namespace PasswdSso.ReadCommitted

open List

variable {D L P K Entry Row ε : Type} [DecidableEq K]

namespace Prog

/-- Deletes all but the last `limit` of the rows whose keys are read. -/
def trim (t : Table D K Row) (lock : K → L) (limit : Nat) (sel : Row → Bool) (keys : D → List K) :
    Prog D L P Unit := do
  let all ← .read keys
  if all.length > limit then
    let _ ← .deleteMany t lock fun row ↦ sel row && t.key row ∈ all.take (all.length - limit)

/-- Locks the row that is found and appends its copy; the answer is whether there is such a row. -/
def snapshot (request : L) (find : D → Option Entry) (t : Table D K Row) (lock : K → L) (copy : Entry → Row)
    (clash : ε) (trim : Prog D L P Unit) : Prog D L P (Except ε Bool) := do
  match ← .lockingRead [(request, .exclusive)] find with
  | none => return .ok false
  | some cur =>
    if ← .insert [lock (t.key (copy cur))] (fun db ↦ (t.rows db).any (t.key · = t.key (copy cur)))
        (t.append [copy cur]) then
      return .error clash
    else
      trim
      return .ok true

end Prog

variable {c : Contract D L P} {stand : Stand D L P} {t : Table D K Row} {lock : K → L}

theorem outline_trim {limit : Nat} {sel : Row → Bool} {keys : D → List K} :
    Outline c (.trim t lock limit sel keys) stand fun _ next ↦ stand.Reaches c next ∧
      ∃ removed, next.pending = t.remove removed ∘ stand.pending := by
  refine .read fun first hfirst ↦ ?_
  split
  · refine .deleteSome fun next removed _ hreaches hpending ↦ ?_
    exact ⟨hfirst.reaches.trans hreaches, removed, by rw [hpending, hfirst.pending]; rfl⟩
  · exact ⟨hfirst.reaches, [], by rw [hfirst.pending, Table.remove_nil]⟩

/-- What a snapshot has done: nothing, if no row was found, and otherwise it has locked the row and appended its copy. -/
def Snapshot (c : Contract D L P) (request : L) (find : D → Option Entry) (t : Table D K Row) (copy : Entry → Row)
    (found : Bool) (stand next : Stand D L P) : Prop :=
  stand.Reaches c next ∧ if found then ∃ (locked : Stand D L P) (cur : Entry) (removed : List K),
      locked.Reaches c next ∧ (request, .exclusive) ∈ locked.held ∧ find locked.seen.db = some cur ∧
      next.pending = t.remove removed ∘ t.append [copy cur]
    else next.pending = id

theorem returns_snapshot {request : L} {find : D → Option Entry} {copy : Entry → Row} {clash : ε} {limit : Nat}
    {sel : Row → Bool} {keys : D → List K} (hpending : stand.pending = id) :
    Returns c (.snapshot request find t lock copy clash (.trim t lock limit sel keys)) stand fun found next ↦
      Snapshot c request find t copy found stand next := by
  refine .lockingRead fun locked hlocked ↦ ?_
  split
  · refine .ok ⟨hlocked.reaches, ?_⟩
    rw [if_neg Bool.false_ne_true, hlocked.pending, hpending]
    rfl
  next cur hcur =>
  rw [hpending] at hcur
  refine Returns.insert fun second hsecond _ ↦ ?_
  refine outline_bind.mpr (outline_trim.weaken ?_)
  rintro _ final ⟨hfinal, removed, hfinalPending⟩
  refine .ok ⟨(hlocked.reaches.trans hsecond.reaches).trans hfinal, ?_⟩
  refine (if_pos rfl).mpr ⟨locked, cur, removed, hsecond.reaches.trans hfinal, hlocked.locked, hcur, ?_⟩
  rw [hfinalPending, hsecond.pending, hlocked.pending, hpending]
  rfl

end PasswdSso.ReadCommitted
