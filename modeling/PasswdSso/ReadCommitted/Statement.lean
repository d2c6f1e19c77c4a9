import Mathlib.Data.List.Nodup
import PasswdSso.ReadCommitted.Outline

/-!
# Statements over tables, and their outline rules

The statements an ORM issues, as `Prog`s: a plain read, a locking read, an insert under a unique
key, a bulk update and a bulk delete, and a transaction around a body that may throw. A bulk update
has two steps. Its snapshot fixes the candidate rows; then it waits for the row locks of the
candidates and evaluates its condition again on their current versions, so that it neither touches
a row that stopped matching nor sees a row that appeared in between.

Each statement has one rule, which says what has to be outlined after it.
-/

namespace PasswdSso.ReadCommitted

open List Stand

section UniqueColumns

variable {Row V : Type} {column : Row → V} {rows : List Row} {row : Row} {wanted : Row → Bool}

theorem find?_of_nodup (h : (rows.map column).Nodup) (hrow : row ∈ rows) (hwanted : wanted row = true)
    (hcolumn : ∀ other, wanted other = true → column other = column row) : rows.find? wanted = some row := by
  obtain ⟨found, hfound⟩ := Option.isSome_iff_exists.mp (find?_isSome.mpr ⟨row, hrow, hwanted⟩)
  have hsame := hcolumn found (find?_some hfound)
  rw [hfound, inj_on_of_nodup_map h (mem_of_find?_eq_some hfound) hrow hsame]

theorem mem_of_find?_and {p q : Row → Prop} [DecidablePred p] [DecidablePred q]
    (h : rows.find? (fun row ↦ p row && q row) = some row) : row ∈ rows ∧ p row ∧ q row := by
  have hrow := find?_some h
  simp only [Bool.and_eq_true, decide_eq_true_eq] at hrow
  exact ⟨mem_of_find?_eq_some h, hrow⟩

theorem nodup_map_append (h : (rows.map column).Nodup) (hnew : ∀ old ∈ rows, column old ≠ column row) :
    ((rows ++ [row]).map column).Nodup := by
  rw [map_append, map_singleton]
  refine nodup_append.mpr ⟨h, nodup_singleton _, ?_⟩
  simpa using hnew

theorem countP_of_nodup (h : (rows.map column).Nodup) (hrow : row ∈ rows) (hwanted : wanted row = true)
    (hcolumn : ∀ other, wanted other = true → column other = column row) : rows.countP wanted = 1 := by
  induction rows with
  | nil => cases hrow
  | cons first rest ih =>
    obtain ⟨hnew, hrest⟩ := nodup_cons.mp h
    rcases mem_cons.mp hrow with rfl | hrow
    · rw [countP_cons_of_pos hwanted, countP_eq_zero.mpr]
      exact fun other hother hother' ↦ hnew (hcolumn other hother' ▸ mem_map_of_mem hother)
    · rw [countP_cons_of_neg, ih hrest hrow]
      exact fun hfirst ↦ hnew (hcolumn first hfirst ▸ mem_map_of_mem hrow)

theorem find?_of_nodup_map [DecidableEq V] (h : (rows.map column).Nodup) (hrow : row ∈ rows) :
    rows.find? (fun other ↦ column other = column row) = some row :=
  find?_of_nodup h hrow (decide_eq_true rfl) fun _ ↦ of_decide_eq_true

end UniqueColumns

/-- A table of a database: its rows in insertion order, and the key that identifies a row. -/
structure Table (D K Row : Type) where
  rows : D → List Row
  put : D → List Row → D
  key : Row → K
  rows_put : ∀ db rows', rows (put db rows') = rows' := by intros; rfl
  put_rows : ∀ db, put db (rows db) = db := by intros; rfl
  put_put : ∀ db rows' rows'', put (put db rows') rows'' = put db rows'' := by intros; rfl

namespace Table

variable {D L K Row : Type} {t : Table D K Row} {db db' db'' : D}

def append (t : Table D K Row) (rows : List Row) (db : D) : D := t.put db (t.rows db ++ rows)

@[simp] theorem rows_append (rows : List Row) : t.rows (t.append rows db) = t.rows db ++ rows :=
  t.rows_put _ _

@[simp] theorem append_nil (db : D) : t.append [] db = db := by
  simpa [append] using t.put_rows db

def keysWhere (t : Table D K Row) (sel : Row → Bool) (db : D) : List K :=
  ((t.rows db).filter sel).map t.key

variable {sel : Row → Bool} {key : K} {row : Row} {keys : List K} {f : Row → Row}

@[simp] theorem mem_keysWhere : key ∈ t.keysWhere sel db ↔ ∃ row ∈ t.rows db, sel row = true ∧ t.key row = key := by
  simp [keysWhere, and_assoc]

/-- The primary key: no two rows have the same key. -/
def KeysUnique (t : Table D K Row) (db : D) : Prop := ((t.rows db).map t.key).Nodup

instance [DecidableEq K] (t : Table D K Row) (db : D) : Decidable (t.KeysUnique db) :=
  inferInstanceAs (Decidable (List.Nodup _))

theorem KeysUnique.eq_of_key_eq (h : t.KeysUnique db) {first second : Row} (hfirst : first ∈ t.rows db)
    (hsecond : second ∈ t.rows db) (hkey : t.key first = t.key second) : first = second :=
  inj_on_of_nodup_map h hfirst hsecond hkey

theorem KeysUnique.append (h : t.KeysUnique db) (hfresh : ∀ old ∈ t.rows db, t.key old ≠ t.key row) :
    t.KeysUnique (t.append [row] db) := by
  rw [KeysUnique, rows_append]
  exact nodup_map_append h hfresh

theorem KeysUnique.congr (h : t.KeysUnique db) (hrows : t.rows db' = t.rows db) : t.KeysUnique db' := by
  rwa [KeysUnique, hrows]

theorem KeysUnique.map {g : Row → Row} (h : t.KeysUnique db) (hg : ∀ row, t.key (g row) = t.key row)
    (hrows : t.rows db' = (t.rows db).map g) : t.KeysUnique db' := by
  have hkeys : t.key ∘ g = t.key := funext hg
  rwa [KeysUnique, hrows, map_map, hkeys]

theorem key_mem_keysWhere (hrow : row ∈ t.rows db)
    (hsel : ∀ other ∈ t.rows db, t.key other = t.key row → sel other = sel row) :
    t.key row ∈ t.keysWhere sel db ↔ sel row = true := by
  rw [mem_keysWhere]
  constructor
  · rintro ⟨other, hother, hselected, hkey⟩
    rwa [← hsel other hother hkey]
  · exact fun hselected ↦ ⟨row, hrow, hselected, rfl⟩

variable {lock : K → L} {held more : List (L × Mode)}

/-- The frame of a commit: a row whose lock is not held exclusively is there after the commit exactly
when it was there before. -/
def KeptExcept (t : Table D K Row) (lock : K → L) (held : List (L × Mode)) (db db' : D) : Prop :=
  ∀ row, (lock (t.key row), .exclusive) ∉ held → (row ∈ t.rows db' ↔ row ∈ t.rows db)

theorem KeptExcept.of_rows_eq (h : t.rows db' = t.rows db) : t.KeptExcept lock held db db' :=
  fun row _ ↦ by rw [h]

theorem KeptExcept.trans (h : t.KeptExcept lock held db db') (h' : t.KeptExcept lock held db' db'') :
    t.KeptExcept lock held db db'' :=
  fun row hrow ↦ (h' row hrow).trans (h row hrow)

theorem KeptExcept.congr (h : t.KeptExcept lock held db db') (hrows : t.rows db'' = t.rows db') :
    t.KeptExcept lock held db db'' :=
  h.trans (.of_rows_eq hrows)

theorem KeptExcept.mono (h : t.KeptExcept lock held db db') (hsub : held ⊆ more) : t.KeptExcept lock more db db' :=
  fun row hrow ↦ h row fun hmem ↦ hrow (hsub hmem)

theorem keptExcept_append {rows : List Row} (hheld : ∀ row ∈ rows, (lock (t.key row), .exclusive) ∈ held) :
    t.KeptExcept lock held db (t.append rows db) := by
  intro row hrow
  rw [rows_append, mem_append]
  exact ⟨fun h ↦ h.resolve_right fun hnew ↦ hrow (hheld row hnew), .inl⟩

theorem KeptExcept.mem_iff {mine theirs : List (L × Mode)} {mode : Mode} {row : Row}
    (h : t.KeptExcept lock theirs db db') (hcompatible : Compatible mine theirs)
    (hmine : (lock (t.key row), mode) ∈ mine) : row ∈ t.rows db' ↔ row ∈ t.rows db :=
  h row (hcompatible.not_mem_exclusive hmine)

variable {le : Row → Row → Prop} {new new' : Row → Prop}

/-- Rows change only along `le` and are never lost; what appears satisfies `new`. -/
structure Advances (t : Table D K Row) (le : Row → Row → Prop) (new : Row → Prop) (db db' : D) :
    Prop where
  forth : ∀ row ∈ t.rows db, ∃ row' ∈ t.rows db', le row row'
  back : ∀ row' ∈ t.rows db', (∃ row ∈ t.rows db, le row row') ∨ new row'

theorem Advances.of_rows_eq (hrefl : ∀ row, le row row) (h : t.rows db' = t.rows db) : t.Advances le new db db' :=
  ⟨fun row hrow ↦ ⟨row, h ▸ hrow, hrefl row⟩, fun row hrow ↦ .inl ⟨row, h ▸ hrow, hrefl row⟩⟩

theorem Advances.congr (h : t.Advances le new db db') (hrows : t.rows db'' = t.rows db') :
    t.Advances le new db db'' :=
  ⟨fun row hrow ↦ hrows ▸ h.forth row hrow, fun row hrow ↦ h.back row (hrows ▸ hrow)⟩

theorem Advances.mono (h : t.Advances le new db db') (himp : ∀ row, new row → new' row) : t.Advances le new' db db' :=
  ⟨h.forth, fun row hrow ↦ (h.back row hrow).imp_right (himp row)⟩

theorem Advances.trans (htrans : ∀ a b c, le a b → le b c → le a c) (hnew : ∀ a b, new a → le a b → new' b)
    (h : t.Advances le new db db') (h' : t.Advances le new' db' db'') : t.Advances le new' db db'' := by
  constructor
  · intro row hrow
    obtain ⟨mid, hmid, hle⟩ := h.forth row hrow
    obtain ⟨last, hlast, hle'⟩ := h'.forth mid hmid
    exact ⟨last, hlast, htrans _ _ _ hle hle'⟩
  · intro last hlast
    rcases h'.back last hlast with ⟨mid, hmid, hle'⟩ | hlastNew
    · rcases h.back mid hmid with ⟨row, hrow, hle⟩ | hmidNew
      · exact .inl ⟨row, hrow, htrans _ _ _ hle hle'⟩
      · exact .inr (hnew _ _ hmidNew hle')
    · exact .inr hlastNew

theorem advances_append {rows : List Row} (hrefl : ∀ row, le row row)
    (hnew : ∀ row ∈ rows, new row) : t.Advances le new db (t.append rows db) := by
  constructor
  · exact fun row hrow ↦ ⟨row, by simp [hrow], hrefl row⟩
  · intro row hrow
    rw [rows_append, mem_append] at hrow
    exact hrow.imp (fun hold ↦ ⟨row, hold, hrefl row⟩) (hnew row)

variable [DecidableEq K]

theorem KeysUnique.find?_key (h : t.KeysUnique db) (hrow : row ∈ t.rows db) :
    (t.rows db).find? (fun other ↦ t.key other = t.key row) = some row :=
  find?_of_nodup_map h hrow

/-- Apply `f` to the rows with the given keys. -/
def modify (t : Table D K Row) (keys : List K) (f : Row → Row) (db : D) : D :=
  t.put db ((t.rows db).map fun row ↦ if t.key row ∈ keys then f row else row)

def remove (t : Table D K Row) (keys : List K) (db : D) : D :=
  t.put db ((t.rows db).filter fun row ↦ t.key row ∉ keys)

def matched (t : Table D K Row) (sel : Row → Bool) (candidates : List K) (db : D) : List K :=
  t.keysWhere (fun row ↦ t.key row ∈ candidates && sel row) db

variable {candidates keys' : List K}

@[simp] theorem mem_matched : key ∈ t.matched sel candidates db ↔
      key ∈ candidates ∧ ∃ row ∈ t.rows db, sel row = true ∧ t.key row = key := by
  simp only [matched, mem_keysWhere, Bool.and_eq_true, decide_eq_true_eq]
  constructor
  · rintro ⟨row, hrow, ⟨hcandidate, hsel⟩, rfl⟩
    exact ⟨hcandidate, row, hrow, hsel, rfl⟩
  · rintro ⟨hcandidate, row, hrow, hsel, rfl⟩
    exact ⟨row, hrow, ⟨hcandidate, hsel⟩, rfl⟩

theorem matched_keysWhere : t.matched sel (t.keysWhere sel db) db = t.keysWhere sel db := by
  unfold matched keysWhere
  congr 1
  refine filter_congr fun row hrow ↦ ?_
  rw [Bool.and_eq_right_iff_imp, decide_eq_true_eq]
  exact fun hsel ↦ mem_map_of_mem (mem_filter.mpr ⟨hrow, hsel⟩)

theorem mem_matched_of_ne_zero (hsel : ∀ row, sel row = true → t.key row = key)
    (hcount : (t.matched sel candidates db).length ≠ 0) (other : K) :
    other ∈ t.matched sel candidates db ↔ other ∈ [key] := by
  have hkey (k : K) (hk : k ∈ t.matched sel candidates db) : k = key := by
    obtain ⟨-, row, -, hrow, rfl⟩ := mem_matched.mp hk
    exact hsel row hrow
  obtain ⟨first, hfirst⟩ := exists_mem_of_length_pos (Nat.pos_of_ne_zero hcount)
  rw [mem_singleton]
  exact ⟨hkey other, fun h ↦ h ▸ hkey first hfirst ▸ hfirst⟩

@[simp] theorem rows_modify (keys : List K) (f : Row → Row) : t.rows (t.modify keys f db) =
      (t.rows db).map fun row ↦ if t.key row ∈ keys then f row else row :=
  t.rows_put _ _

@[simp] theorem rows_remove (keys : List K) :
    t.rows (t.remove keys db) = (t.rows db).filter fun row ↦ t.key row ∉ keys :=
  t.rows_put _ _

@[simp] theorem remove_nil : t.remove [] = id := by
  funext db
  simpa [remove] using t.put_rows db

@[simp] theorem modify_nil (f : Row → Row) : t.modify [] f = id := by
  funext db
  simpa [modify] using t.put_rows db

theorem modify_congr (f : Row → Row) (h : ∀ key, key ∈ keys ↔ key ∈ keys') :
    t.modify keys f = t.modify keys' f := by
  funext db
  simp only [modify, h]

theorem remove_congr (h : ∀ key, key ∈ keys ↔ key ∈ keys') : t.remove keys = t.remove keys' := by
  funext db
  simp only [remove, h]

theorem key_ite (hf : ∀ row, t.key (f row) = t.key row) (row : Row) :
    t.key (if t.key row ∈ keys then f row else row) = t.key row := by
  split_ifs
  · exact hf row
  · rfl

theorem KeysUnique.modify (h : t.KeysUnique db) (hf : ∀ row, t.key (f row) = t.key row) :
    t.KeysUnique (t.modify keys f db) :=
  h.map (key_ite hf) (rows_modify ..)

theorem modify_keysWhere
    (hsel : ∀ row ∈ t.rows db, ∀ other ∈ t.rows db, t.key other = t.key row → sel other = sel row) :
    t.modify (t.keysWhere sel db) f db = t.put db ((t.rows db).map fun row ↦ if sel row then f row else row) := by
  unfold Table.modify
  congr 1
  refine map_congr_left fun row hrow ↦ ?_
  simp only [key_mem_keysWhere hrow (hsel row hrow)]

theorem KeysUnique.modify_keysWhere (h : t.KeysUnique db) :
    t.modify (t.keysWhere sel db) f db = t.put db ((t.rows db).map fun row ↦ if sel row then f row else row) :=
  Table.modify_keysWhere fun row hrow other hother hkey ↦ by rw [h.eq_of_key_eq hother hrow hkey]

theorem KeysUnique.of_modify_keysWhere {le : Row → Row → Prop} (done : Row → Prop) (h : t.KeysUnique db)
    (hrefl : ∀ row, le row row) (hf : ∀ row, le row (f row) ∧ done (f row))
    (hrow : row ∈ t.rows (t.modify (t.keysWhere sel db) f db)) :
    ∃ old ∈ t.rows db, le old row ∧ (sel old = true → done row) := by
  rw [h.modify_keysWhere, t.rows_put] at hrow
  obtain ⟨old, hold, rfl⟩ := mem_map.mp hrow
  refine ⟨old, hold, ?_⟩
  split_ifs with hsel
  · exact (hf old).imp_right fun hdone _ ↦ hdone
  · exact ⟨hrefl old, fun h ↦ absurd h hsel⟩

theorem remove_keysWhere
    (hsel : ∀ row ∈ t.rows db, ∀ other ∈ t.rows db, t.key other = t.key row → sel other = sel row) :
    t.remove (t.keysWhere sel db) db = t.put db ((t.rows db).filter fun row ↦ !sel row) := by
  unfold Table.remove
  congr 1
  refine filter_congr fun row hrow ↦ ?_
  simp only [key_mem_keysWhere hrow (hsel row hrow), Bool.not_eq_true, Bool.decide_eq_false]

theorem KeysUnique.remove (h : t.KeysUnique db) : t.KeysUnique (t.remove keys db) := by
  unfold KeysUnique
  rw [rows_remove]
  exact h.sublist (filter_sublist.map t.key)

section Each

variable {β : Type} {items : List β} {itemKey : β → K} {f : β → Row → Row} {row : Row}

def applyEach (t : Table D K Row) (items : List β) (itemKey : β → K) (f : β → Row → Row) (row : Row) : Row :=
  items.foldl (fun row item ↦ if t.key row ∈ [itemKey item] then f item row else row) row

theorem foldl_modify (items : List β) (itemKey : β → K) (f : β → Row → Row) (db : D) :
    items.foldl (fun db item ↦ t.modify [itemKey item] (f item) db) db =
      t.put db ((t.rows db).map (t.applyEach items itemKey f)) := by
  induction items generalizing db with
  | nil =>
    have hid : t.applyEach [] itemKey f = id := rfl
    rw [hid, map_id, t.put_rows]
    rfl
  | cons item rest ih =>
    rw [foldl_cons, ih, rows_modify, map_map, modify, t.put_put]
    rfl

theorem applyEach_rel (rel : Row → Row → Prop) (hrefl : ∀ row, rel row row)
    (htrans : ∀ a b c, rel a b → rel b c → rel a c) (hf : ∀ item row, rel row (f item row)) :
    rel row (t.applyEach items itemKey f row) := by
  induction items generalizing row with
  | nil => exact hrefl row
  | cons item rest ih =>
    have hitem : rel row (if t.key row ∈ [itemKey item] then f item row else row) := by
      split_ifs
      · exact hf item row
      · exact hrefl row
    exact htrans _ _ _ hitem ih

theorem applyEach_of_mem (property : Row → Prop) (hf : ∀ item row, property (f item row))
    (hmem : t.key row ∈ items.map itemKey) :
    property (t.applyEach items itemKey f row) := by
  have hkeeps (rest : List β) (row : Row) : property row → property (t.applyEach rest itemKey f row) :=
    applyEach_rel (fun a b ↦ property a → property b) (fun _ ↦ id) (fun _ _ _ hab hbc ↦ hbc ∘ hab)
      fun item row _ ↦ hf item row
  induction items generalizing row with
  | nil => simp at hmem
  | cons item rest ih =>
    rw [applyEach, foldl_cons]
    split_ifs with hitem
    · exact hkeeps rest _ (hf item row)
    · refine ih ((mem_cons.mp hmem).resolve_left fun h ↦ hitem ?_)
      exact mem_singleton.mpr h

theorem applyEach_of_not_mem (hmem : t.key row ∉ items.map itemKey) : t.applyEach items itemKey f row = row := by
  induction items with
  | nil => rfl
  | cons item rest ih =>
    rw [map_cons, mem_cons, not_or] at hmem
    rw [applyEach, foldl_cons, if_neg (by simpa using hmem.1)]
    exact ih hmem.2

theorem key_applyEach (hf : ∀ item row, t.key (f item row) = t.key row) :
    t.key (t.applyEach items itemKey f row) = t.key row :=
  applyEach_rel (fun a b ↦ t.key b = t.key a) (fun _ ↦ rfl) (fun _ _ _ hab hbc ↦ hbc.trans hab) hf

theorem applyEach_cases (hf : ∀ item row, t.key (f item row) = t.key row) (hnodup : (items.map itemKey).Nodup) :
    t.key row ∉ items.map itemKey ∧ t.applyEach items itemKey f row = row ∨
      ∃ item ∈ items, itemKey item = t.key row ∧ t.applyEach items itemKey f row = f item row := by
  induction items with
  | nil => exact .inl ⟨not_mem_nil, rfl⟩
  | cons item rest ih =>
    obtain ⟨hitem, hrest⟩ := nodup_cons.mp hnodup
    rw [applyEach, foldl_cons]
    by_cases hkey : t.key row = itemKey item
    · refine .inr ⟨item, mem_cons_self .., hkey.symm, ?_⟩
      rw [if_pos (mem_singleton.mpr hkey)]
      exact applyEach_of_not_mem (by rwa [hf, hkey])
    · rw [if_neg (by simpa using hkey)]
      refine (ih hrest).imp ?_ ?_
      · exact fun ⟨hmem, heq⟩ ↦ ⟨mem_cons.not.mpr (not_or.mpr ⟨hkey, hmem⟩), heq⟩
      · exact fun ⟨found, hfound, heq⟩ ↦ ⟨found, mem_cons_of_mem _ hfound, heq⟩

end Each

section Frame

variable {keys : List K}

omit [DecidableEq K] in
theorem keptExcept_map {g : Row → Row} (hg : ∀ row, t.key (g row) = t.key row)
    (hsame : ∀ row, (lock (t.key row), .exclusive) ∉ held → g row = row) :
    t.KeptExcept lock held db (t.put db ((t.rows db).map g)) := by
  intro row hrow
  rw [t.rows_put, mem_map]
  constructor
  · rintro ⟨old, hold, rfl⟩
    rwa [hsame old (by rwa [hg] at hrow)]
  · exact fun hold ↦ ⟨row, hold, hsame row hrow⟩

theorem keptExcept_modify {f : Row → Row} (hf : ∀ row, t.key (f row) = t.key row)
    (hheld : ∀ key ∈ keys, (lock key, .exclusive) ∈ held) :
    t.KeptExcept lock held db (t.modify keys f db) :=
  keptExcept_map (key_ite hf) fun _ hrow ↦ if_neg fun hmem ↦ hrow (hheld _ hmem)

theorem keptExcept_applyEach {β : Type} {items : List β} {itemKey : β → K} {f : β → Row → Row}
    (hf : ∀ item row, t.key (f item row) = t.key row)
    (hheld : ∀ item ∈ items, (lock (itemKey item), .exclusive) ∈ held) :
    t.KeptExcept lock held db (t.put db ((t.rows db).map (t.applyEach items itemKey f))) := by
  refine keptExcept_map (fun _ ↦ key_applyEach hf) fun row hrow ↦ applyEach_of_not_mem fun hmem ↦ hrow ?_
  obtain ⟨item, hitem, heq⟩ := mem_map.mp hmem
  exact heq ▸ hheld item hitem

theorem keptExcept_remove (hheld : ∀ key ∈ keys, (lock key, .exclusive) ∈ held) :
    t.KeptExcept lock held db (t.remove keys db) := by
  intro row hrow
  have hkey : t.key row ∉ keys := fun hmem ↦ hrow (hheld _ hmem)
  simp [hkey]

end Frame

theorem advances_modify {keys : List K} {f : Row → Row} (hrefl : ∀ row, le row row)
    (hf : ∀ row ∈ t.rows db, t.key row ∈ keys → le row (f row)) :
    t.Advances le new db (t.modify keys f db) := by
  have hstep (row : Row) (hrow : row ∈ t.rows db) : le row (if t.key row ∈ keys then f row else row) := by
    split_ifs with hmem
    · exact hf row hrow hmem
    · exact hrefl row
  constructor
  · intro row hrow
    exact ⟨_, by rw [rows_modify]; exact mem_map_of_mem hrow, hstep row hrow⟩
  · intro row' hrow'
    rw [rows_modify] at hrow'
    obtain ⟨row, hrow, rfl⟩ := mem_map.mp hrow'
    exact .inl ⟨row, hrow, hstep row hrow⟩

end Table

namespace Prog

variable {D L P K Row α β ε : Type}

/-- A read that takes no lock. -/
def read (f : D → β) : Prog D L P β :=
  .stmt (fun _ ↦ []) (fun _ ↦ id) fun view ↦ .done (f view)

def readOnly (f : D → β) : Prog D L P β :=
  .stmt (fun _ ↦ []) (fun _ ↦ id) fun view ↦ .rollback (.done (f view))

/-- A read after taking locks: `SELECT … FOR SHARE`, `FOR UPDATE`, or an advisory lock. -/
def lockingRead (locks : List (L × Mode)) (f : D → β) : Prog D L P β :=
  .stmt (fun _ ↦ locks) (fun _ ↦ id) fun view ↦ .done (f view)

/-- An assignment to shared memory outside of any transaction; it takes effect at once. -/
def assign (label : P) (f : D → D) : Prog D L P Unit :=
  .stmt (fun _ ↦ []) (fun _ ↦ f) fun _ ↦ .commit label (.done ())

def write (locks : List (L × Mode)) (f : D → D) (answer : D → β) : Prog D L P β :=
  .stmt (fun _ ↦ locks) (fun _ ↦ f) fun view ↦ .done (answer view)

/-- An insert. It takes the locks of its unique keys, and then answers whether it clashes with a row
that is visible to it; on a clash nothing is written. -/
def insert (locks : List L) (clash : D → Bool) (write : D → D) : Prog D L P Bool :=
  .stmt (fun _ ↦ locks.map fun lock ↦ (lock, .exclusive))
    (fun view ↦ if clash view then id else write) fun view ↦ .done (clash view)

def andThen (first : Prog D L P (Except ε α)) (next : α → Prog D L P (Except ε β)) : Prog D L P (Except ε β) := do
  match ← first with
  | .error thrown => return .error thrown
  | .ok result => next result

/-- A transaction: a body that returns is committed under the label of its result, a body that
throws is rolled back. -/
def transaction (label : α → P) (body : Prog D L P (Except ε α)) : Prog D L P (Except ε α) := do
  match ← body with
  | .ok result => .commit (label result) (.done (.ok result))
  | .error thrown => .rollback (.done (.error thrown))

variable [DecidableEq K]

/-- `UPDATE … SET f WHERE sel`, answering the number of rows written. The condition may look at other
tables in a sub-select, whose result is the one in the snapshot. -/
def updateWhere (t : Table D K Row) (lock : K → L) (sel : D → Row → Bool) (f : Row → Row) :
    Prog D L P Nat :=
  .stmt (fun _ ↦ []) (fun _ ↦ id) fun snapshot ↦
    let candidates := t.keysWhere (sel snapshot) snapshot
    .stmt (fun _ ↦ candidates.map fun key ↦ (lock key, .exclusive))
      (fun view ↦ t.modify (t.matched (sel snapshot) candidates view) f)
      fun view ↦ .done (t.matched (sel snapshot) candidates view).length

/-- `UPDATE … SET f WHERE sel`, with a condition on the row alone. -/
def updateMany (t : Table D K Row) (lock : K → L) (sel : Row → Bool) (f : Row → Row) :
    Prog D L P Nat :=
  updateWhere t lock (fun _ ↦ sel) f

/-- `DELETE … WHERE sel`, answering the number of rows removed. -/
def deleteMany (t : Table D K Row) (lock : K → L) (sel : Row → Bool) : Prog D L P Nat :=
  .stmt (fun _ ↦ []) (fun _ ↦ id) fun snapshot ↦
    let candidates := t.keysWhere sel snapshot
    .stmt (fun _ ↦ candidates.map fun key ↦ (lock key, .exclusive))
      (fun view ↦ t.remove (t.matched sel candidates view))
      fun view ↦ .done (t.matched sel candidates view).length

inductive Upserted
  | updated
  | inserted
  | clash
  deriving DecidableEq

/-- `INSERT row ON CONFLICT … DO UPDATE SET f`, where `sel` selects the rows with the values of `row`
in the unique columns of the conflict clause: such a row is locked and updated, and otherwise the new
row is inserted under the locks of its keys. It clashes if its primary key is taken. -/
def upsert (t : Table D K Row) (lock : K → L) (unique : L) (sel : Row → Bool) (f : Row → Row)
    (row : Row) : Prog D L P Upserted :=
  .stmt (fun view ↦ match (t.rows view).find? sel with
      | some old => [(lock (t.key old), .exclusive)]
      | none => [(unique, .exclusive), (lock (t.key row), .exclusive)])
    (fun view ↦ match (t.rows view).find? sel with
      | some old => t.modify [t.key old] f
      | none => if t.key row ∈ (t.rows view).map t.key then id else t.append [row])
    fun view ↦ .done <| match (t.rows view).find? sel with
      | some _ => .updated
      | none => if t.key row ∈ (t.rows view).map t.key then .clash else .inserted

end Prog

section Alone

variable {D L P K Row α β ε : Type} (pending : D → D) (w : World D P)

@[simp] theorem Prog.exec_read (f : D → β) :
    (.read f : Prog D L P β).exec pending w = (f (pending w.db), pending, w) := rfl

@[simp] theorem Prog.exec_readOnly (f : D → β) :
    (.readOnly f : Prog D L P β).exec pending w = (f (pending w.db), id, w) := rfl

@[simp] theorem Prog.exec_lockingRead (locks : List (L × Mode)) (f : D → β) :
    (.lockingRead locks f : Prog D L P β).exec pending w = (f (pending w.db), pending, w) := rfl

@[simp] theorem Prog.exec_insert (locks : List L) (clash : D → Bool) (write : D → D) :
    (.insert locks clash write : Prog D L P Bool).exec pending w =
      (clash (pending w.db), (if clash (pending w.db) then id else write) ∘ pending, w) := rfl

@[simp] theorem Prog.exec_updateMany [DecidableEq K] (t : Table D K Row) (lock : K → L)
    (sel : Row → Bool) (f : Row → Row) :
    (.updateMany t lock sel f : Prog D L P Nat).exec pending w =
      ((t.matched sel (t.keysWhere sel (pending w.db)) (pending w.db)).length,
        t.modify (t.matched sel (t.keysWhere sel (pending w.db)) (pending w.db)) f ∘ pending, w) := rfl

@[simp] theorem Prog.exec_deleteMany [DecidableEq K] (t : Table D K Row) (lock : K → L) (sel : Row → Bool) :
    (.deleteMany t lock sel : Prog D L P Nat).exec pending w =
      ((t.matched sel (t.keysWhere sel (pending w.db)) (pending w.db)).length,
        t.remove (t.matched sel (t.keysWhere sel (pending w.db)) (pending w.db)) ∘ pending, w) := rfl

theorem Prog.exec_updateMany_key [DecidableEq K] (t : Table D K Row) (lock : K → L) (sel : Row → Bool)
    (f : Row → Row) {row : Row} (hrow : row ∈ t.rows (pending w.db)) (hsel : sel row = true)
    (honly : ∀ other, sel other = true → t.key other = t.key row) : ∃ count,
      (.updateMany t lock sel f : Prog D L P Nat).exec pending w =
        (count + 1, t.modify [t.key row] f ∘ pending, w) := by
  have hkeys (key : K) : key ∈ t.keysWhere sel (pending w.db) ↔ key ∈ [t.key row] := by
    rw [Table.mem_keysWhere, mem_singleton]
    constructor
    · rintro ⟨other, -, hother, rfl⟩
      exact honly other hother
    · rintro rfl
      exact ⟨row, hrow, hsel, rfl⟩
  obtain ⟨count, hcount⟩ := Nat.exists_eq_add_one_of_ne_zero (Nat.ne_zero_of_lt
    (length_pos_of_mem ((hkeys _).mpr (mem_singleton_self _))))
  exact ⟨count, by rw [Prog.exec_updateMany, Table.matched_keysWhere, hcount, Table.modify_congr f hkeys]⟩

variable {label : β → P} {body : Prog D L P (Except ε β)}

theorem Prog.exec_transaction_ok {value : β} (h : (body.exec pending w).1 = .ok value) :
    (Prog.transaction label body).exec pending w =
      (.ok value, id, (body.exec pending w).2.2.commit (label value)
        ((body.exec pending w).2.1 (body.exec pending w).2.2.db)) := by
  rw [Prog.transaction, Prog.exec_bind, h]
  rfl

theorem Prog.exec_transaction_error {thrown : ε} (h : (body.exec pending w).1 = .error thrown) :
    (Prog.transaction label body).exec pending w =
      (.error thrown, id, (body.exec pending w).2.2) := by
  rw [Prog.transaction, Prog.exec_bind, h]
  rfl

theorem Prog.exec_transaction_fst (label : β → P) (body : Prog D L P (Except ε β)) :
    ((Prog.transaction label body).exec pending w).1 = (body.exec pending w).1 := by
  rw [Prog.transaction, Prog.exec_bind]
  cases h : (body.exec pending w).1 <;> rfl

end Alone

section Labels

variable {D L P K Row α β ε : Type} {Q : P → Prop} {f : D → β} {k : β → Prog D L P α}

theorem Prog.labelled_read (h : ∀ view, (k (f view)).Labelled Q) : (.read f >>= k).Labelled Q :=
  h

theorem Prog.walks_readOnly {σ : Type} {remember : P → σ → σ} {ok : P → σ → Prop} {post : α → σ → Prop} {memory : σ}
    (h : ∀ view, (k (f view)).Walks remember ok post memory) : (.readOnly f >>= k).Walks remember ok post memory :=
  h

variable {label : β → P} {body : Prog D L P (Except ε β)} {locks : List (L × Mode)} {t : Table D K Row} {lock : K → L}

theorem Prog.labelled_transaction (hbody : body.Labelled Q) (hlabel : ∀ result, Q (label result)) :
    (Prog.transaction label body).Labelled Q := by
  refine hbody.bind fun result ↦ ?_
  cases result with
  | ok value => exact ⟨hlabel value, trivial⟩
  | error thrown => trivial

theorem Prog.labelled_assign {label : P} {f : D → D} (hlabel : Q label) :
    (.assign label f : Prog D L P Unit).Labelled Q :=
  fun _ ↦ ⟨hlabel, trivial⟩

theorem Prog.labelled_lockingRead : (.lockingRead locks f : Prog D L P β).Labelled Q :=
  fun _ ↦ trivial

theorem Prog.labelled_write {f : D → D} {answer : D → β} :
    (.write locks f answer : Prog D L P β).Labelled Q :=
  fun _ ↦ trivial

theorem Prog.labelled_insert {locks : List L} {clash : D → Bool} {write : D → D} :
    (.insert locks clash write : Prog D L P Bool).Labelled Q :=
  fun _ ↦ trivial

theorem Prog.labelled_updateMany [DecidableEq K] {sel : Row → Bool} {f : Row → Row} :
    (.updateMany t lock sel f : Prog D L P Nat).Labelled Q :=
  fun _ _ ↦ trivial

theorem Prog.labelled_updateWhere [DecidableEq K] {sel : D → Row → Bool} {f : Row → Row} :
    (.updateWhere t lock sel f : Prog D L P Nat).Labelled Q :=
  fun _ _ ↦ trivial

theorem Prog.Labelled.andThen {first : Prog D L P (Except ε β)} {next : β → Prog D L P (Except ε α)}
    (hfirst : first.Labelled Q) (hnext : ∀ result, (next result).Labelled Q) :
    (Prog.andThen first next).Labelled Q := by
  refine hfirst.bind fun result ↦ ?_
  cases result with
  | ok value => exact hnext value
  | error thrown => trivial

theorem Prog.commitsOnlyTo_transaction (hbody : body.Labelled fun _ ↦ False) :
    (Prog.transaction label body).CommitsOnlyTo (fun result ↦ ∃ value, result = .ok value) False := by
  refine .bind ((hbody.silent False).weaken ?_)
  rintro (thrown | value) _ rfl
  · exact False.elim
  · exact ⟨trivial, fun _ ↦ ⟨value, rfl⟩⟩

end Labels

/-- `next` is where a session stands after one statement, which took `locks` and added `write`. -/
structure Stand.Step {D L P : Type} (c : Contract D L P) (stand next : Stand D L P)
    (locks : List (L × Mode)) (write : D → D) : Prop where
  later : c.Later stand.held stand.seen next.seen
  pending : next.pending = write ∘ stand.pending
  held : next.held = locks ++ stand.held
  began : next.began = some (stand.began.getD next.seen.log)

section Rules

variable {D L P K Row α β ε : Type} {c : Contract D L P} {stand : Stand D L P}
  {post : α → Stand D L P → Prop}

/-- Within one transaction, `next` is a later stand: more locks, a later world. -/
structure Stand.Reaches (c : Contract D L P) (stand next : Stand D L P) : Prop where
  held : stand.held ⊆ next.held
  later : c.Later stand.held stand.seen next.seen
  began : ∀ log, stand.began = some log → next.began = some log

theorem Stand.Reaches.refl (stand : Stand D L P) : stand.Reaches c stand :=
  ⟨.refl _, .refl _, fun _ ↦ id⟩

theorem Stand.Reaches.trans {first second third : Stand D L P} (h : first.Reaches c second)
    (h' : second.Reaches c third) : first.Reaches c third :=
  ⟨fun _ hlock ↦ h'.held (h.held hlock), h.later.trans (h'.later.mono h.held),
    fun log hlog ↦ h'.began log (h.began log hlog)⟩

variable {next : Stand D L P} {w : World D P} {locks : List (L × Mode)} {f : Row → Row} {k : Nat → Prog D L P α}
  {key : K}

theorem Stand.Reaches.until (h : stand.Reaches c next) (hw : c.Later next.held next.seen w) :
    c.Later stand.held stand.seen w :=
  h.later.trans (hw.mono h.held)

theorem Stand.Step.reaches {write : D → D} (h : stand.Step c next locks write) : stand.Reaches c next :=
  ⟨h.held ▸ subset_append_right _ _, h.later, fun _ hlog ↦ by rw [h.began, hlog]; rfl⟩

variable {request : L × Mode}

theorem Stand.Step.mem_held {write : D → D} (h : stand.Step c next locks write) (hrequest : request ∈ locks) :
    request ∈ next.held :=
  h.held ▸ mem_append_left _ hrequest

theorem Stand.Step.locked {write : D → D} (h : stand.Step c next (request :: locks) write) : request ∈ next.held :=
  h.mem_held mem_cons_self

theorem Stand.step_afterStmt (hw : c.Later stand.held stand.seen w) (locks : List (L × Mode)) (write : D → D) :
    stand.Step c (stand.afterStmt w locks write) locks write :=
  ⟨hw, rfl, rfl, rfl⟩

section Reads

variable {f : D → β} {k : β → Prog D L P α}

theorem Outline.read
    (h : ∀ next, stand.Step c next [] id → Outline c (k (f (stand.pending next.seen.db))) next post) :
    Outline c (.read f >>= k) stand post :=
  fun _ hw ↦ h _ (step_afterStmt hw [] id)

theorem Outline.readOnly
    (h : ∀ v w', c.Later [] w v → c.Later [] v w' → Outline c (k (f v.db)) (.idle w') post) :
    Outline c (.readOnly f >>= k) (.idle w) post :=
  fun v hv w' hw' ↦ h v w' hv hw'

theorem Outline.lockingRead
    (h : ∀ next, stand.Step c next locks id → Outline c (k (f (stand.pending next.seen.db))) next post) :
    Outline c (.lockingRead locks f >>= k) stand post :=
  fun _ hw ↦ h _ (step_afterStmt hw locks id)

theorem Outline.write {f : D → D} {answer : D → β}
    (h : ∀ next, stand.Step c next locks f → Outline c (k (answer (stand.pending next.seen.db))) next post) :
    Outline c (.write locks f answer >>= k) stand post :=
  fun _ hw ↦ h _ (step_afterStmt hw locks f)

end Reads

theorem Outline.assign {label : P} {f : D → D} {k : Unit → Prog D L P α}
    (hcommits : ∀ next, Stand.Step c (.idle w) next [] f → c.Commits next label)
    (h : ∀ w', Outline c (k ()) (.idle w') post) :
    Outline c (.assign label f >>= k) (.idle w) post :=
  fun _ hv _ hw' hallowed ↦ ⟨hcommits _ (step_afterStmt hv [] f) _ hw' hallowed, h _⟩

/-- The outline of a program that may throw, with what is known when it returns. -/
def Returns (c : Contract D L P) (prog : Prog D L P (Except ε α)) (stand : Stand D L P)
    (post : α → Stand D L P → Prop) : Prop :=
  Outline c prog stand fun result after ↦ ∀ value, result = .ok value → post value after

variable {value : α} {label : β → P} {body : Prog D L P (Except ε β)}

theorem Outline.ok (h : post value stand) :
    Returns c (pure (.ok value) : Prog D L P (Except ε α)) stand post := by
  intro value' heq
  rw [← Except.ok.inj heq]
  exact h

theorem Outline.error {thrown : ε} : Returns c (pure (.error thrown) : Prog D L P (Except ε α)) stand post :=
  nofun

theorem Outline.insert {locks : List L} {clash : D → Bool} {write : D → D} {k : Bool → Prog D L P α}
    (hfresh : ∀ next, stand.Step c next (locks.map fun lock ↦ (lock, .exclusive)) write →
      clash (stand.pending next.seen.db) = false → Outline c (k false) next post)
    (hclash : ∀ next, stand.Step c next (locks.map fun lock ↦ (lock, .exclusive)) id →
      clash (stand.pending next.seen.db) = true → Outline c (k true) next post) :
    Outline c (.insert locks clash write >>= k) stand post := by
  intro w hw
  change Outline c (k (clash (stand.pending w.db))) (stand.afterStmt w
    (locks.map fun lock ↦ (lock, .exclusive)) (if clash (stand.pending w.db) then id else write)) post
  cases hview : clash (stand.pending w.db) with
  | true => exact hclash _ (step_afterStmt hw _ _) hview
  | false => exact hfresh _ (step_afterStmt hw _ _) hview

theorem Returns.insert {locks : List L} {clash : D → Bool} {write : D → D} {thrown : ε}
    {rest : Prog D L P (Except ε α)}
    (hfresh : ∀ next, stand.Step c next (locks.map fun lock ↦ (lock, .exclusive)) write →
      clash (stand.pending next.seen.db) = false → Returns c rest next post) :
    Returns c (.insert locks clash write >>= fun clashes ↦ if clashes then return .error thrown else rest) stand post :=
  Outline.insert hfresh fun _ _ _ ↦ .error

theorem Returns.mono {prog : Prog D L P (Except ε α)} {weaker : α → Stand D L P → Prop}
    (h : Returns c prog stand post) (himp : ∀ value after, post value after → weaker value after) :
    Returns c prog stand weaker :=
  Outline.weaken h fun _ after hafter value hvalue ↦ himp value after (hafter value hvalue)

theorem Returns.andThen {first : Prog D L P (Except ε β)} {next : β → Prog D L P (Except ε α)}
    {between : β → Stand D L P → Prop} (h : Returns c first stand between)
    (hnext : ∀ value after, between value after → Returns c (next value) after post) :
    Returns c (.andThen first next) stand post := by
  rw [Returns, Prog.andThen, outline_bind]
  refine .weaken h ?_
  rintro (thrown | value) after hbetween
  · exact .error
  · exact hnext value after (hbetween value rfl)

theorem Returns.each [DecidableEq K] (t : Table D K Row) (lock : K → L) {itemKey : β → K}
    {f : β → Row → Row} {loop : List β → Prog D L P (Except ε Unit)} (hnil : loop [] = pure (.ok ()))
    (hcons : ∀ item rest (stand : Stand D L P) post,
      (∀ next, stand.Reaches c next → next.pending = t.modify [itemKey item] (f item) ∘ stand.pending →
        (lock (itemKey item), .exclusive) ∈ next.held → Returns c (loop rest) next post) →
      Returns c (loop (item :: rest)) stand post)
    (items : List β) : Returns c (loop items) stand fun _ next ↦ stand.Reaches c next ∧
      next.pending = (fun db ↦ t.put db ((t.rows db).map (t.applyEach items itemKey f))) ∘
        stand.pending ∧ ∀ item ∈ items, (lock (itemKey item), .exclusive) ∈ next.held := by
  simp only [← Table.foldl_modify]
  induction items generalizing stand with
  | nil =>
    rw [hnil]
    exact .ok ⟨.refl _, rfl, by simp⟩
  | cons item rest ih =>
    refine hcons item rest stand _ fun next hreaches hpending hlock ↦ ?_
    refine .mono ih ?_
    rintro value final ⟨hfinalReaches, hfinalPending, hlocks⟩
    refine ⟨hreaches.trans hfinalReaches, by rw [hfinalPending, hpending]; rfl, ?_⟩
    exact forall_mem_cons.mpr ⟨hfinalReaches.held hlock, hlocks⟩

/-- A body that returns a value may commit it under its label. -/
abbrev Earns (c : Contract D L P) (body : Prog D L P (Except ε α)) (stand : Stand D L P) (label : α → P) : Prop :=
  Returns c body stand fun value after ↦ c.Commits after (label value)

/-- The rule of transactions: a body that returns has to be ready to commit. The rest starts in a
world of which the invariant is known, and that the transaction committed if its body returned. -/
theorem Outline.transaction {post : Except ε β → Stand D L P → Prop} {invariant : World D P → Prop}
    (hpreserved : c.Preserves invariant) (hnow : invariant stand.seen)
    (hbody : Earns c body stand label)
    (hpost : ∀ result w, invariant w → (∀ value, result = .ok value → label value ∈ w.log) → post result (.idle w)) :
    Outline c (.transaction label body) stand post := by
  rw [Prog.transaction, outline_bind]
  refine (hbody.with_invariant hpreserved hnow).weaken ?_
  rintro (thrown | value) after ⟨hafter, hcommits⟩
  · exact fun w hw ↦ hpost _ w (hpreserved.later hafter hw) nofun
  · intro w hw hallowed
    have hguarantee := hcommits value rfl w hw hallowed
    have hinvariant := hpreserved.later hafter hw
    refine ⟨hguarantee, hpost _ _ (hpreserved _ _ _ _ hinvariant hguarantee) fun result h ↦ ?_⟩
    rw [Except.ok.inj h]
    exact mem_cons_self ..

theorem Outline.inTransaction (hbody : Earns c body (.idle w) label) :
    Respects c (.transaction label body) w :=
  .transaction c.preserves_true trivial hbody fun _ _ _ _ ↦ trivial

/-- A program between transactions that leaves its session between transactions, and keeps what is
known. -/
def Settles (c : Contract D L P) (known : World D P → Prop) (prog : Prog D L P α) : Prop :=
  ∀ w, known w → Outline c prog (.idle w) fun _ after ↦ ∃ w', after = .idle w' ∧ known w'

section Settles

variable {known : World D P → Prop}

theorem Settles.pure (result : α) : Settles c known (pure result : Prog D L P α) :=
  fun w hw ↦ ⟨w, rfl, hw⟩

variable {k : β → Prog D L P α} {label : β → P} {body : Prog D L P (Except ε β)}

theorem Settles.bind {prog : Prog D L P β} (h : Settles c known prog) (hk : ∀ result, Settles c known (k result)) :
    Settles c known (prog >>= k) := by
  refine fun w hw ↦ outline_bind.mpr ((h w hw).weaken ?_)
  rintro result - ⟨w', rfl, hw'⟩
  exact hk result w' hw'

theorem Settles.readOnly {f : D → β} (hknown : c.Preserves known) (hk : ∀ view, Settles c known (k (f view))) :
    Settles c known (.readOnly f >>= k) :=
  fun _ hw ↦ .readOnly fun v w' hv hw' ↦ hk v.db w' (hknown.later (hknown.later hw hv) hw')

theorem Settles.transaction (hknown : c.Preserves known)
    (hbody : ∀ w, known w → Earns c body (.idle w) label) :
    Settles c known (.transaction label body) :=
  fun w hw ↦ .transaction hknown hw (hbody w hw) fun _ w' hw' _ ↦ ⟨w', rfl, hw'⟩

theorem Settles.outline {prog : Prog D L P α} (h : Settles c (fun _ ↦ True) prog) (w : World D P) :
    Respects c prog w :=
  (h w trivial).weaken fun _ _ _ ↦ trivial

theorem Settles.finding {k : Except ε β → Prog D L P α} {found : β → World D P → Prop}
    (hfound : ∀ value, c.Preserves (found value))
    (hbody : ∀ w, Returns c body (.idle w) fun value after ↦ c.Commits after (label value) ∧ found value after.seen)
    (herror : ∀ thrown, Settles c (fun _ ↦ True) (k (.error thrown)))
    (hok : ∀ value, Settles c (found value) (k (.ok value))) :
    Settles c (fun _ ↦ True) (.transaction label body >>= k) := by
  intro w _
  rw [Prog.transaction, outline_bind, outline_bind]
  refine (hbody w).weaken ?_
  rintro (thrown | value) after hafter
  · exact fun w' _ ↦ herror thrown w' trivial
  · obtain ⟨hcommits, hseen⟩ := hafter value rfl
    intro w' hw' hallowed
    have hguarantee := hcommits w' hw' hallowed
    refine ⟨hguarantee, (hok value _ ?_).weaken ?_⟩
    · exact hfound value _ _ _ _ ((hfound value).later hseen hw') hguarantee
    · rintro _ - ⟨w'', rfl, -⟩
      exact ⟨w'', rfl, trivial⟩

end Settles

theorem Outline.respond {prog : Prog D L P β} {k : β → Prog D L P α} (h : Outline c prog stand fun _ _ ↦ True)
    (hk : ∀ result after, Outline c (k result) after fun _ _ ↦ True) :
    Outline c (prog >>= k) stand fun _ _ ↦ True :=
  outline_bind.mpr (h.weaken fun result after _ ↦ hk result after)

variable [DecidableEq K] {t : Table D K Row} {lock : K → L} {sel : Row → Bool}

/-- A statement that has found rows in a snapshot, has locked them, and has written those that still match. -/
structure Stand.Selects (c : Contract D L P) (t : Table D K Row) (lock : K → L) (sel : Row → Bool)
    (write : List K → D → D) (stand snapshot next : Stand D L P) (candidates keys : List K) : Prop where
  read : stand.Step c snapshot [] id
  candidates_eq : candidates = t.keysWhere sel (stand.pending snapshot.seen.db)
  keys_eq : keys = t.matched sel candidates (stand.pending next.seen.db)
  wrote : snapshot.Step c next (candidates.map fun key ↦ (lock key, .exclusive)) (write keys)

namespace Stand.Selects

variable {write : List K → D → D} {snapshot next : Stand D L P} {candidates keys : List K}
  (h : stand.Selects c t lock sel write snapshot next candidates keys)

include h

theorem reaches : stand.Reaches c next := h.read.reaches.trans h.wrote.reaches

theorem pending : next.pending = write keys ∘ stand.pending := by
  rw [h.wrote.pending, h.read.pending]
  rfl

theorem began : next.began = some (stand.began.getD snapshot.seen.log) := by
  rw [h.wrote.began, h.read.began]
  rfl

theorem mem_held (hkey : key ∈ keys) : (lock key, .exclusive) ∈ next.held :=
  h.wrote.mem_held (mem_map_of_mem (Table.mem_matched.mp (h.keys_eq ▸ hkey)).1)

theorem found (hkey : key ∈ keys) : ∃ row ∈ t.rows (stand.pending next.seen.db), sel row = true ∧ t.key row = key :=
  (Table.mem_matched.mp (h.keys_eq ▸ hkey)).2

theorem mem_iff (hsel : ∀ row, sel row = true → t.key row = key) (hcount : keys.length ≠ 0) (other : K) :
    other ∈ keys ↔ other ∈ [key] := by
  rw [h.keys_eq] at hcount ⊢
  exact t.mem_matched_of_ne_zero hsel hcount other

end Stand.Selects

theorem Outline.updateWhere {sel : D → Row → Bool} (h : ∀ snapshot next candidates keys,
      stand.Selects c t lock (sel (stand.pending snapshot.seen.db)) (t.modify · f) snapshot next candidates keys →
      Outline c (k keys.length) next post) :
    Outline c (.updateWhere t lock sel f >>= k) stand post :=
  fun _ hw _ hw' ↦
    h _ _ _ _ ⟨step_afterStmt hw [] id, rfl, rfl, step_afterStmt hw' _ _⟩

theorem Outline.upsert {unique : L} {sel : Row → Bool} {row : Row} {k : Prog.Upserted → Prog D L P α}
    (hclash : ∀ next, stand.Reaches c next → Outline c (k .clash) next post)
    (hupdated : ∀ next old, stand.Step c next [(lock (t.key old), .exclusive)] (t.modify [t.key old] f) →
      old ∈ t.rows (stand.pending next.seen.db) → sel old = true → Outline c (k .updated) next post)
    (hinserted : ∀ next, stand.Step c next [(unique, .exclusive), (lock (t.key row), .exclusive)] (t.append [row]) →
      (∀ old ∈ t.rows (stand.pending next.seen.db), sel old = false ∧ t.key old ≠ t.key row) →
      Outline c (k .inserted) next post) :
    Outline c (.upsert t lock unique sel f row >>= k) stand post := by
  intro w hw
  cases hfind : (t.rows (stand.pending w.db)).find? sel with
  | some old =>
    simp only [hfind]
    exact hupdated _ old (step_afterStmt hw _ _) (mem_of_find?_eq_some hfind) (find?_some hfind)
  | none =>
    by_cases htaken : t.key row ∈ (t.rows (stand.pending w.db)).map t.key
    · simp only [hfind, if_pos htaken]
      exact hclash _ (step_afterStmt hw _ _).reaches
    · simp only [hfind, if_neg htaken]
      exact hinserted _ (step_afterStmt hw _ _) fun old hold ↦
        ⟨by simpa using find?_eq_none.mp hfind old hold,
          fun hkey ↦ htaken (hkey ▸ mem_map_of_mem hold)⟩

theorem Outline.updateMany (h : ∀ snapshot next candidates keys,
      stand.Selects c t lock sel (t.modify · f) snapshot next candidates keys → Outline c (k keys.length) next post) :
    Outline c (.updateMany t lock sel f >>= k) stand post :=
  .updateWhere h

theorem of_decide_and {p : Prop} [Decidable p] {rest : Bool} (h : (decide p && rest) = true) : p :=
  of_decide_eq_true (Bool.and_eq_true_iff.mp h).1

/-- `update` by key. -/
theorem Outline.updateKey {sel : D → Row → Bool}
    (hsome : ∀ next count, stand.Reaches c next → next.pending = t.modify [key] f ∘ stand.pending →
      (lock key, .exclusive) ∈ next.held →
      (∃ view, ∃ row ∈ t.rows (stand.pending next.seen.db), sel view row = true) →
      Outline c (k (count + 1)) next post)
    (hnone : ∀ next, stand.Reaches c next → next.pending = stand.pending → Outline c (k 0) next post)
    (hsel : ∀ view row, sel view row = true → t.key row = key) :
    Outline c (.updateWhere t lock sel f >>= k) stand post := by
  refine .updateWhere fun snapshot next candidates keys hwrite ↦ ?_
  by_cases hcount : keys.length = 0
  · rw [length_eq_zero_iff] at hcount
    rw [hcount]
    refine hnone next hwrite.reaches ?_
    rw [hwrite.pending, hcount, Table.modify_nil]
    rfl
  · have hmem := hwrite.mem_iff (hsel _) hcount
    have hkey := (hmem key).mpr (mem_singleton_self key)
    obtain ⟨row, hrow, hrowSel, -⟩ := hwrite.found hkey
    obtain ⟨count, hlength⟩ := Nat.exists_eq_add_one_of_ne_zero hcount
    rw [hlength]
    refine hsome next count hwrite.reaches ?_ (hwrite.mem_held hkey) ⟨_, row, hrow, hrowSel⟩
    rw [hwrite.pending, Table.modify_congr f hmem]

theorem Returns.updateKey {E : Type} {sel : D → Row → Bool} {error : E}
    (hsel : ∀ view row, sel view row = true → t.key row = key) :
    Returns c (.updateWhere t lock sel f >>= fun count ↦
        if count = 0 then return .error error else return .ok value) stand fun _ next ↦
      stand.Reaches c next ∧ (lock key, .exclusive) ∈ next.held ∧ next.pending = t.modify [key] f ∘ stand.pending :=
  Outline.updateKey (fun _ _ hreaches hpending hlock _ ↦ Outline.ok ⟨hreaches, hlock, hpending⟩) (fun _ _ _ ↦ .error) hsel

theorem Returns.updateNext {E : Type} {sel : D → Row → Bool} {error : E} {rest : Prog D L P (Except E α)}
    {post : α → Stand D L P → Prop} (hsel : ∀ view row, sel view row = true → t.key row = key)
    (hrest : ∀ next, stand.Reaches c next → next.pending = t.modify [key] f ∘ stand.pending →
      (lock key, .exclusive) ∈ next.held → Returns c rest next post) :
    Returns c (.updateWhere t lock sel f >>= fun count ↦ if count ≠ 1 then return .error error else rest) stand
      post := by
  refine Outline.updateKey (fun next count hreaches hpending hlock _ ↦ ?_) (fun _ _ _ ↦ .error) hsel
  split
  · exact .error
  · exact hrest next hreaches hpending hlock

theorem Outline.deleteMany (h : ∀ snapshot next candidates keys,
      stand.Selects c t lock sel t.remove snapshot next candidates keys → Outline c (k keys.length) next post) :
    Outline c (.deleteMany t lock sel >>= k) stand post :=
  fun _ hw _ hw' ↦
    h _ _ _ _ ⟨step_afterStmt hw [] id, rfl, rfl, step_afterStmt hw' _ _⟩

theorem Outline.updateSome
    (h : ∀ next keys count, stand.Reaches c next → next.pending = t.modify keys f ∘ stand.pending →
      Outline c (k count) next post) :
    Outline c (.updateMany t lock sel f >>= k) stand post :=
  .updateMany fun _ next _ _ hwrite ↦ h next _ _ hwrite.reaches hwrite.pending

theorem Outline.deleteSelected
    (h : ∀ next keys count, stand.Reaches c next → next.pending = t.remove keys ∘ stand.pending →
      (∀ key ∈ keys, (lock key, .exclusive) ∈ next.held ∧ ∃ row, sel row = true ∧ t.key row = key) →
      Outline c (k count) next post) :
    Outline c (.deleteMany t lock sel >>= k) stand post := by
  refine .deleteMany fun snapshot next candidates keys hwrite ↦ ?_
  refine h next keys _ hwrite.reaches hwrite.pending fun key hkey ↦ ⟨hwrite.mem_held hkey, ?_⟩
  obtain ⟨row, -, hsel⟩ := hwrite.found hkey
  exact ⟨row, hsel⟩

theorem Outline.deleteSome
    (h : ∀ next keys count, stand.Reaches c next → next.pending = t.remove keys ∘ stand.pending →
      Outline c (k count) next post) :
    Outline c (.deleteMany t lock sel >>= k) stand post :=
  .deleteSelected fun next keys count hreaches hpending _ ↦ h next keys count hreaches hpending

theorem Outline.deleteKey (hsel : ∀ row, sel row = true → t.key row = key)
    (hnone : ∀ next, stand.Reaches c next → next.pending = stand.pending → Outline c (k 0) next post)
    (hsome : ∀ next count, stand.Reaches c next → next.pending = t.remove [key] ∘ stand.pending →
      (lock key, .exclusive) ∈ next.held →
      (∃ row ∈ t.rows (stand.pending next.seen.db), sel row = true) → Outline c (k count) next post) :
    Outline c (.deleteMany t lock sel >>= k) stand post := by
  refine .deleteMany fun snapshot next candidates keys hwrite ↦ ?_
  by_cases hcount : keys.length = 0
  · rw [length_eq_zero_iff] at hcount
    rw [hcount]
    refine hnone next hwrite.reaches ?_
    rw [hwrite.pending, hcount, Table.remove_nil]
    rfl
  · have hmem := hwrite.mem_iff hsel hcount
    have hkey := (hmem key).mpr (mem_singleton_self key)
    obtain ⟨row, hrow, hrowSel, -⟩ := hwrite.found hkey
    refine hsome next _ hwrite.reaches ?_ (hwrite.mem_held hkey) ⟨row, hrow, hrowSel⟩
    rw [hwrite.pending, Table.remove_congr hmem]

end Rules

section TablesBetweenSteps

variable {D L P K Row : Type} {c : Contract D L P} {t : Table D K Row} {lock : K → L}
  {le : Row → Row → Prop} {new : P → Row → Prop} {held : List (L × Mode)} {w w' : World D P}

def Contract.Keeps (c : Contract D L P) (t : Table D K Row) (lock : K → L) : Prop :=
  ∀ theirs w label db, c.guarantee theirs w label db → t.KeptExcept lock theirs w.db db

/-- Every commit moves the rows of the table along `le`; `new` is what it may add. -/
def Contract.Advances (c : Contract D L P) (t : Table D K Row) (le : Row → Row → Prop)
    (new : P → Row → Prop) : Prop :=
  ∀ theirs w label db, c.guarantee theirs w label db → t.Advances le (new label) w.db db

variable {row : Row} {mode : Mode}

theorem Contract.Keeps.later (hkeeps : c.Keeps t lock) (h : c.Later held w w')
    (hlock : (lock (t.key row), mode) ∈ held) :
    row ∈ t.rows w'.db ↔ row ∈ t.rows w.db := by
  have hstable : c.Stable held fun v ↦ (row ∈ t.rows v.db ↔ row ∈ t.rows w.db) := by
    intro v label db theirs hcompatible hguarantee hold
    exact ((hkeeps theirs v label db hguarantee).mem_iff hcompatible hlock).trans hold
  exact hstable.later Iff.rfl h

theorem Contract.Keeps.absent (hkeeps : c.Keeps t lock) (h : c.Later held w w') {key : K}
    (hlock : (lock key, mode) ∈ held) (habsent : ∀ row ∈ t.rows w.db, t.key row ≠ key) :
    ∀ row ∈ t.rows w'.db, t.key row ≠ key := by
  rintro row hrow rfl
  exact habsent row ((hkeeps.later h hlock).mp hrow) rfl

theorem Contract.Advances.forth (hadvances : c.Advances t le new) (htrans : ∀ a b c, le a b → le b c → le a c)
    (h : c.Later held w w') (hrow : ∃ old ∈ t.rows w.db, le row old) : ∃ later ∈ t.rows w'.db, le row later := by
  have hstable : c.Stable held fun v ↦ ∃ later ∈ t.rows v.db, le row later := by
    rintro v label db theirs - hguarantee ⟨old, hold, hle⟩
    obtain ⟨later, hlater, hnext⟩ := (hadvances theirs v label db hguarantee).forth old hold
    exact ⟨later, hlater, htrans _ _ _ hle hnext⟩
  exact hstable.later hrow h

theorem Contract.Advances.back (hadvances : c.Advances t le new) (hrefl : ∀ row, le row row)
    (htrans : ∀ a b c, le a b → le b c → le a c) (hnew : ∀ label a b, new label a → le a b → new label b)
    (h : c.Later held w w') (hrow : row ∈ t.rows w'.db) :
    (∃ old ∈ t.rows w.db, le old row) ∨ ∃ label ∈ w'.since w.log, new label row := by
  have hstable : c.Stable held fun v ↦ w.log <:+ v.log ∧ ∀ row ∈ t.rows v.db,
      (∃ old ∈ t.rows w.db, le old row) ∨ ∃ label ∈ v.since w.log, new label row := by
    rintro v label db theirs - hguarantee ⟨hsuffix, hold⟩
    refine ⟨hsuffix.trans (suffix_cons label _), fun row hrow ↦ ?_⟩
    rw [World.since_commit hsuffix]
    rcases (hadvances theirs v label db hguarantee).back row hrow with ⟨mid, hmid, hle⟩ | hadded
    · rcases hold mid hmid with ⟨old, hold, hle'⟩ | ⟨earlier, hearlier, hadded⟩
      · exact .inl ⟨old, hold, htrans _ _ _ hle' hle⟩
      · exact .inr ⟨earlier, mem_cons_of_mem _ hearlier, hnew _ _ _ hadded hle⟩
    · exact .inr ⟨label, mem_cons_self .., hadded⟩
  have hstart : w.log <:+ w.log ∧ ∀ row ∈ t.rows w.db,
      (∃ old ∈ t.rows w.db, le old row) ∨ ∃ label ∈ w.since w.log, new label row :=
    ⟨suffix_refl _, fun row hrow ↦ .inl ⟨row, hrow, hrefl row⟩⟩
  exact (hstable.later hstart h).2 row hrow

/-- Every commit that brings a new value of a unique column holds the lock of that value. -/
def Contract.Claims {V : Type} (c : Contract D L P) (t : Table D K Row) (column : Row → V) (lock : V → L) : Prop :=
  ∀ theirs w label db, c.guarantee theirs w label db → ∀ row ∈ t.rows db,
    (∃ old ∈ t.rows w.db, column old = column row) ∨ (lock (column row), .exclusive) ∈ theirs

theorem Contract.Claims.absent {V : Type} {column : Row → V} {lock : V → L} (hclaims : c.Claims t column lock)
    (h : c.Later held w w') {value : V} (hlock : (lock value, mode) ∈ held)
    (habsent : ∀ row ∈ t.rows w.db, column row ≠ value) :
    ∀ row ∈ t.rows w'.db, column row ≠ value := by
  have hstable : c.Stable held fun v ↦ ∀ row ∈ t.rows v.db, column row ≠ value := by
    rintro v label db theirs hcompatible hguarantee hold row hrow rfl
    rcases hclaims theirs v label db hguarantee row hrow with ⟨old, hmem, heq⟩ | htheirs
    · exact hold old hmem heq
    · exact hcompatible.not_mem_exclusive hlock htheirs
  exact hstable.later habsent h

end TablesBetweenSteps

end PasswdSso.ReadCommitted
