import PasswdSso.ReadCommitted.Statement

/-!
# Transactions that run alone

`Yields prog db result db'` says what the body of a transaction does when nobody else commits meanwhile: from a session
that sees `db`, it ends with `result` and sees `db'`. Each statement has its rule, and `Yields.commit` and
`Yields.abort` are the transaction around the body.
-/

namespace PasswdSso.ReadCommitted

variable {D L P K Row α β ε : Type}

/-- From a session that sees `db`, the program ends with the result, and the session sees `db'`. -/
def Prog.Yields (prog : Prog D L P α) (db : D) (result : α) (db' : D) : Prop :=
  ∀ (pending : D → D) (w : World D P), pending w.db = db →
    ∃ pending', prog.exec pending w = (result, pending', w) ∧ pending' w.db = db'

namespace Prog.Yields

variable {db db' db'' : D}

theorem pure (result : α) : (pure result : Prog D L P α).Yields db result db :=
  fun pending _ hview ↦ ⟨pending, rfl, hview⟩

variable {result : α} {clash : D → Bool} {f : D → D} {first : Prog D L P (Except ε β)}
  {next : β → Prog D L P (Except ε α)} {thrown : ε} {unique : L} {row : Row} {label : α → P}
  {body : Prog D L P (Except ε α)}

theorem bind {prog : Prog D L P β} {k : β → Prog D L P α} {between : β} (h : prog.Yields db between db')
    (hk : (k between).Yields db' result db'') :
    (prog >>= k).Yields db result db'' := by
  intro pending w hview
  obtain ⟨pending', hexec, hview'⟩ := h pending w hview
  obtain ⟨pending'', hexec', hview''⟩ := hk pending' w hview'
  exact ⟨pending'', by rw [Prog.exec_bind, hexec, hexec'], hview''⟩

theorem read (f : D → α) : (.read f : Prog D L P α).Yields db (f db) db :=
  fun pending _ hview ↦ ⟨pending, by rw [Prog.exec_read, hview], hview⟩

theorem lockingRead (locks : List (L × Mode)) (f : D → α) :
    (.lockingRead locks f : Prog D L P α).Yields db (f db) db :=
  fun pending _ hview ↦ ⟨pending, by rw [Prog.exec_lockingRead, hview], hview⟩

theorem write (locks : List (L × Mode)) (f : D → D) (answer : D → α) :
    (.write locks f answer : Prog D L P α).Yields db (answer db) (f db) := by
  rintro pending w rfl
  exact ⟨f ∘ pending, rfl, rfl⟩

theorem insert (locks : List L) (hfree : clash db = false) :
    (.insert locks clash f : Prog D L P Bool).Yields db false (f db) := by
  rintro pending w rfl
  exact ⟨f ∘ pending, by rw [Prog.exec_insert, hfree]; rfl, rfl⟩

theorem insert_clash (locks : List L) (hclash : clash db = true) :
    (.insert locks clash f : Prog D L P Bool).Yields db true db := by
  rintro pending w rfl
  exact ⟨pending, by rw [Prog.exec_insert, hclash]; rfl, rfl⟩

theorem andThen_ok {value : β} {result : Except ε α} (h : first.Yields db (.ok value) db')
    (hnext : (next value).Yields db' result db'') :
    (Prog.andThen first next).Yields db result db'' :=
  h.bind hnext

theorem andThen_error (h : first.Yields db (.error thrown) db') :
    (Prog.andThen first next).Yields db (.error thrown) db' :=
  h.bind (pure _)

variable {w : World D P}

theorem alone {prog : Prog D L P α} (h : prog.Yields w.db result db') : (prog.alone w).1 = result := by
  obtain ⟨pending, hexec, -⟩ := h id w rfl
  rw [Prog.alone, hexec]

theorem commit {value : α} (h : body.Yields w.db (.ok value) db') :
    (Prog.transaction label body).alone w = (.ok value, w.commit (label value) db') := by
  obtain ⟨pending, hexec, hview⟩ := h id w rfl
  rw [Prog.alone, Prog.exec_transaction_ok id w (congrArg Prod.fst hexec), hexec, ← hview]

theorem abort (h : body.Yields w.db (.error thrown) db') :
    (Prog.transaction label body).alone w = (.error thrown, w) := by
  obtain ⟨pending, hexec, -⟩ := h id w rfl
  rw [Prog.alone, Prog.exec_transaction_error id w (congrArg Prod.fst hexec), hexec]

variable [DecidableEq K] {t : Table D K Row} {lock : K → L} {sel : Row → Bool} {f : Row → Row}

theorem updateMany : (.updateMany t lock sel f : Prog D L P Nat).Yields db (t.keysWhere sel db).length
      (t.modify (t.keysWhere sel db) f db) := by
  rintro pending w rfl
  refine ⟨t.modify (t.keysWhere sel (pending w.db)) f ∘ pending, ?_, rfl⟩
  rw [Prog.exec_updateMany, Table.matched_keysWhere]

theorem deleteMany : (.deleteMany t lock sel : Prog D L P Nat).Yields db (t.keysWhere sel db).length
      (t.remove (t.keysWhere sel db) db) := by
  rintro pending w rfl
  refine ⟨t.remove (t.keysWhere sel (pending w.db)) ∘ pending, ?_, rfl⟩
  rw [Prog.exec_deleteMany, Table.matched_keysWhere]

theorem upsert_found {old : Row} (hfind : (t.rows db).find? sel = some old) :
    (.upsert t lock unique sel f row : Prog D L P Prog.Upserted).Yields db .updated
      (t.modify [t.key old] f db) := by
  rintro pending w rfl
  refine ⟨t.modify [t.key old] f ∘ pending, ?_, rfl⟩
  simp only [Prog.upsert, Prog.exec, hfind]

theorem upsert_new (hfind : (t.rows db).find? sel = none) (hfree : t.key row ∉ (t.rows db).map t.key) :
    (.upsert t lock unique sel f row : Prog D L P Prog.Upserted).Yields db .inserted (t.append [row] db) := by
  rintro pending w rfl
  refine ⟨t.append [row] ∘ pending, ?_, rfl⟩
  simp only [Prog.upsert, Prog.exec, hfind, if_neg hfree]

end Prog.Yields

end PasswdSso.ReadCommitted
