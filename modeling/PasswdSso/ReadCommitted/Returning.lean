import PasswdSso.ReadCommitted.Statement

/-!
# Statements that answer which rows they wrote

`DELETE … WHERE key IN (SELECT key …) RETURNING …`, whose
sub-select is evaluated in the snapshot alone: a row that was updated since is still deleted.
-/

namespace PasswdSso.ReadCommitted

variable {D L P K Row α : Type} [DecidableEq K]

namespace Table

def found (t : Table D K Row) (keys : List K) (db : D) : List Row :=
  (t.rows db).filter fun row ↦ t.key row ∈ keys

variable {t : Table D K Row}

theorem mem_found {keys : List K} {db : D} {row : Row} :
    row ∈ t.found keys db ↔ row ∈ t.rows db ∧ t.key row ∈ keys := by
  rw [found, List.mem_filter, decide_eq_true_eq]

theorem found_keys (keys : List K) (db : D) : t.found ((t.found keys db).map t.key) db = t.found keys db := by
  refine List.filter_congr fun row hrow ↦ ?_
  rw [decide_eq_decide, List.mem_map]
  constructor
  · rintro ⟨other, hother, hkey⟩
    rw [← hkey]
    exact (mem_found.mp hother).2
  · exact fun hkey ↦ ⟨row, mem_found.mpr ⟨hrow, hkey⟩, rfl⟩

theorem found_remove {keys removed : List K} {db : D} (h : ∀ key ∈ keys, key ∉ removed) :
    t.found keys (t.remove removed db) = t.found keys db := by
  rw [found, rows_remove, List.filter_filter]
  refine List.filter_congr fun row _ ↦ ?_
  by_cases hkey : t.key row ∈ keys
  · simp [hkey, h _ hkey]
  · simp [hkey]

end Table

namespace Prog

/-- `DELETE … WHERE key IN (SELECT key …) RETURNING …`, answering the rows: the chosen rows that are still there. -/
def deleteFound (t : Table D K Row) (lock : K → L) (choose : D → List K) : Prog D L P (List Row) :=
  .stmt (fun _ ↦ []) (fun _ ↦ id) fun snapshot ↦
    .stmt (fun view ↦ (t.found (choose snapshot) view).map fun row ↦ (lock (t.key row), .exclusive))
      (fun view ↦ t.remove ((t.found (choose snapshot) view).map t.key))
      fun view ↦ .done (t.found (choose snapshot) view)

end Prog

variable {c : Contract D L P} {stand : Stand D L P} {post : α → Stand D L P → Prop} {t : Table D K Row}
  {lock : K → L} {sel : Row → Bool}

theorem Outline.deleteFound {choose : D → List K} {post : List Row → Stand D L P → Prop}
    (h : ∀ next rows, stand.Reaches c next → next.pending = t.remove (rows.map t.key) ∘ stand.pending →
      (∀ row ∈ rows, (lock (t.key row), .exclusive) ∈ next.held) →
      t.found (rows.map t.key) (stand.pending next.seen.db) = rows → post rows next) :
    Outline c (Prog.deleteFound t lock choose) stand post := by
  intro w hw w' hw'
  have hsnapshot := Stand.step_afterStmt hw [] id
  have hdelete := Stand.step_afterStmt hw' ((t.found (choose (stand.pending w.db)) (stand.pending w'.db)).map
    fun row ↦ (lock (t.key row), Mode.exclusive)) (t.remove ((t.found (choose (stand.pending w.db))
      (stand.pending w'.db)).map t.key))
  refine h _ _ (hsnapshot.reaches.trans hdelete.reaches) rfl (fun row hrow ↦ ?_) ?_
  · exact hdelete.mem_held (List.mem_map_of_mem hrow)
  · exact Table.found_keys _ _

end PasswdSso.ReadCommitted
