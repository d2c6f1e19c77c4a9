import PasswdSso.ReadCommitted.Statement

/-!
# Statements of work queues

The statements with which workers share a table of work: the claim of some rows that nobody else has
locked, and inserts that do nothing when the row is already there. A claim reads, locks and writes its
rows in one step: which rows it passes over, because they are locked or beyond its limit, is up to the
`choose` function.
-/

namespace PasswdSso.ReadCommitted

open List

section Fresh

variable {D K Row : Type} {clash : Row → Row → Bool}

def addFresh (clash : Row → Row → Bool) : List Row → List Row → List Row
  | [], rows => rows
  | row :: rest, rows => addFresh clash rest (if rows.any (clash row) then rows else rows ++ [row])

theorem addFresh_eq_append (new rows : List Row) :
    ∃ added, added.Sublist new ∧ addFresh clash new rows = rows ++ added := by
  induction new generalizing rows with
  | nil => exact ⟨[], .slnil, (append_nil _).symm⟩
  | cons row rest ih =>
    rw [addFresh]
    split_ifs
    · obtain ⟨added, hsub, hrows⟩ := ih rows
      exact ⟨added, hsub.cons _, hrows⟩
    · obtain ⟨added, hsub, hrows⟩ := ih (rows ++ [row])
      exact ⟨row :: added, hsub.cons_cons _, by rw [hrows, append_assoc]; rfl⟩

theorem nodup_addFresh {key : Row → K} {new rows : List Row} (h : (rows.map key).Nodup)
    (hclash : ∀ row old, key old = key row → clash row old = true) :
    ((addFresh clash new rows).map key).Nodup := by
  induction new generalizing rows with
  | nil => exact h
  | cons row rest ih =>
    rw [addFresh]
    split_ifs with hany
    · exact ih h
    · refine ih (nodup_map_append h fun old hold hkey ↦ hany ?_)
      exact any_eq_true.mpr ⟨old, hold, hclash row old hkey⟩

/-- Add each of the new rows to a table unless it clashes with one that is there. -/
def Table.insertFresh (t : Table D K Row) (clash : Row → Row → Bool) (new : List Row) (db : D) : D :=
  t.put db (addFresh clash new (t.rows db))

@[simp] theorem Table.rows_insertFresh {t : Table D K Row} (new : List Row) (db : D) :
    t.rows (t.insertFresh clash new db) = addFresh clash new (t.rows db) :=
  t.rows_put _ _

theorem Table.insertFresh_nil {t : Table D K Row} : t.insertFresh clash [] = id := by
  funext db
  exact t.put_rows db

end Fresh

namespace Prog

variable {D L P K Row : Type} [DecidableEq K]

inductive Inserted
  | inserted
  | conflict
  | clash
  deriving DecidableEq

/-- `INSERT row ON CONFLICT … DO NOTHING`, under the locks of its unique keys; `conflict` is the
conflict of its clause, and a row whose primary key is taken clashes. -/
def insertUnless (t : Table D K Row) (lock : K → L) (unique : List L) (conflict : D → Bool)
    (row : Row) : Prog D L P Inserted :=
  .stmt (fun _ ↦ (lock (t.key row) :: unique).map fun lock ↦ (lock, .exclusive))
    (fun view ↦ if conflict view then id else if t.key row ∈ (t.rows view).map t.key then id
      else t.append [row])
    fun view ↦ .done (if conflict view then .conflict
      else if t.key row ∈ (t.rows view).map t.key then .clash else .inserted)

/-- `UPDATE … SET f WHERE key IN (SELECT … FOR UPDATE SKIP LOCKED) RETURNING *`. -/
def updateChosen (t : Table D K Row) (lock : K → L) (choose : D → List K) (f : Row → Row) : Prog D L P (List Row) :=
  .stmt (fun view ↦ (choose view).map fun key ↦ (lock key, .exclusive)) (fun view ↦ t.modify (choose view) f)
    fun view ↦ .done (((t.rows view).filter fun row ↦ t.key row ∈ choose view).map f)

end Prog

section Rules

variable {D L P K Row α : Type} [DecidableEq K] {c : Contract D L P} {stand : Stand D L P}
  {post : α → Stand D L P → Prop} {t : Table D K Row} {lock : K → L}

theorem Outline.insertUnless {unique : List L} {conflict : D → Bool} {row : Row} {k : Prog.Inserted → Prog D L P α}
    (hinserted : ∀ next, stand.Step c next
      ((lock (t.key row) :: unique).map fun lock ↦ (lock, .exclusive)) (t.append [row]) →
      conflict (stand.pending next.seen.db) = false →
      (∀ old ∈ t.rows (stand.pending next.seen.db), t.key old ≠ t.key row) →
      Outline c (k .inserted) next post)
    (hconflict : ∀ next, stand.Step c next ((lock (t.key row) :: unique).map fun lock ↦ (lock, .exclusive)) id →
      conflict (stand.pending next.seen.db) = true → Outline c (k .conflict) next post)
    (hclash : ∀ next, stand.Step c next ((lock (t.key row) :: unique).map fun lock ↦ (lock, .exclusive)) id →
      Outline c (k .clash) next post) :
    Outline c (.insertUnless t lock unique conflict row >>= k) stand post := by
  intro w hw
  by_cases hview : conflict (stand.pending w.db) = true
  · simp only [hview, if_true]
    exact hconflict _ (Stand.step_afterStmt hw _ _) hview
  · rw [Bool.not_eq_true] at hview
    by_cases htaken : t.key row ∈ (t.rows (stand.pending w.db)).map t.key
    · simp only [hview, Bool.false_eq_true, if_false, if_pos htaken]
      exact hclash _ (Stand.step_afterStmt hw _ _)
    · simp only [hview, Bool.false_eq_true, if_false, if_neg htaken]
      exact hinserted _ (Stand.step_afterStmt hw _ _) hview
        fun old hold hkey ↦ htaken (hkey ▸ mem_map_of_mem hold)

variable {f : Row → Row} {key : K}

theorem Outline.updateChosen {choose : D → List K} {k : List Row → Prog D L P α}
    (h : ∀ next keys, keys = choose (stand.pending next.seen.db) →
      stand.Step c next (keys.map fun key ↦ (lock key, .exclusive)) (t.modify keys f) →
      Outline c (k (((t.rows (stand.pending next.seen.db)).filter fun row ↦ t.key row ∈ keys).map f)) next post) :
    Outline c (.updateChosen t lock choose f >>= k) stand post :=
  fun w hw ↦ h (stand.afterStmt w _ _) (choose (stand.pending w.db)) rfl (Stand.step_afterStmt hw _ _)

/-- How an update of the row with one key went, in a transaction that stood at `start` before it: it has
written the row that it holds, or there was no such row at some point. -/
def Contract.Hits (c : Contract D L P) (t : Table D K Row) (lock : K → L) (key : K)
    (start : Stand D L P) (keys : List K) (final : Stand D L P) : Prop :=
  keys = [key] ∧ (lock key, .exclusive) ∈ final.held ∨
    keys = [] ∧ ∃ s : Stand D L P, start.Reaches c s ∧ s.Reaches c final ∧
      ∀ row ∈ t.rows (start.pending s.seen.db), t.key row ≠ key

theorem Outline.updateOne {sel : Row → Bool} {k : Nat → Prog D L P α}
    (hsel : ∀ row, sel row = true ↔ t.key row = key)
    (h : ∀ next keys count, stand.Reaches c next → c.Hits t lock key stand keys next →
      next.pending = t.modify keys f ∘ stand.pending → (count = 0 ↔ keys = []) →
      Outline c (k count) next post) :
    Outline c (.updateMany t lock sel f >>= k) stand post := by
  refine .updateMany fun snapshot next candidates keys hwrite ↦ ?_
  by_cases hcount : keys.length = 0
  · refine h next keys _ hwrite.reaches (.inr ⟨length_eq_zero_iff.mp hcount, ?_⟩) hwrite.pending
      length_eq_zero_iff
    rw [length_eq_zero_iff] at hcount
    -- The row was not there at the snapshot, or it is not there any more.
    by_cases hcandidate : key ∈ candidates
    · refine ⟨next, hwrite.reaches, .refl next, fun row hrow hkey ↦ ?_⟩
      have hmem : key ∈ keys :=
        hwrite.keys_eq ▸ Table.mem_matched.mpr ⟨hcandidate, row, hrow, (hsel row).mpr hkey, hkey⟩
      simp [hcount] at hmem
    · refine ⟨snapshot, hwrite.read.reaches, hwrite.wrote.reaches, fun row hrow hkey ↦ hcandidate ?_⟩
      rw [hwrite.candidates_eq]
      exact Table.mem_keysWhere.mpr ⟨row, hrow, (hsel row).mpr hkey, hkey⟩
  · have hmem := hwrite.mem_iff (fun row hrow ↦ (hsel row).mp hrow) hcount
    have hkey := (hmem key).mpr (mem_singleton_self key)
    refine h next [key] _ hwrite.reaches (.inl ⟨rfl, hwrite.mem_held hkey⟩) ?_ (by simp [hcount])
    rw [hwrite.pending, Table.modify_congr f hmem]

def Table.Has (t : Table D K Row) (key : K) (db : D) : Prop := ∃ row ∈ t.rows db, t.key row = key

omit [DecidableEq K] in
theorem Table.has_congr {db db' : D} (h : (t.rows db').map t.key = (t.rows db).map t.key) :
    t.Has key db' ↔ t.Has key db := by
  have hmem (v : D) : t.Has key v ↔ key ∈ (t.rows v).map t.key := mem_map.symm
  rw [hmem, hmem, h]

theorem Outline.updatePresent {sel : Row → Bool} {k : Nat → Prog D L P α}
    (hsel : ∀ row, sel row = true ↔ t.key row = key) (hstays : c.Preserves fun w ↦ t.Has key w.db)
    (hpending : ∀ db, t.Has key db → t.Has key (stand.pending db)) (hhas : t.Has key stand.seen.db)
    (h : ∀ next count, stand.Reaches c next → (lock key, .exclusive) ∈ next.held →
      next.pending = t.modify [key] f ∘ stand.pending → count ≠ 0 → Outline c (k count) next post) :
    Outline c (.updateMany t lock sel f >>= k) stand post := by
  refine .updateOne hsel fun next keys count hreaches hhits hnext hcount ↦ ?_
  rcases hhits with ⟨rfl, hlock⟩ | ⟨-, s, hs, -, habsent⟩
  · exact h next count hreaches hlock hnext (by simp [hcount])
  · obtain ⟨row, hrow, hkey⟩ := hpending _ (hstays.later hhas hs.later)
    exact absurd hkey (habsent row hrow)

end Rules

end PasswdSso.ReadCommitted
