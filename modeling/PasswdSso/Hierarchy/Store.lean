import PasswdSso.Common
import PasswdSso.ParentForest
import PasswdSso.ReadCommitted.Statement

/-!
# Folders and tags

The rows of `folders` and `tags`, both of which point to a parent in their own table and have unique names among the
children of one parent. What the two tables share is said once, for `Nodes`: the forest of parent pointers, and the
statement `UPDATE … WHERE id = … AND user_id = …` with the violations that it can run into.
-/

namespace PasswdSso.Hierarchy

open ReadCommitted

structure Folder where
  id : Uuid
  name : String
  parentId : Option Uuid
  userId : Uuid
  sortOrder : Int

structure Tag where
  id : Uuid
  name : String
  color : Option String
  parentId : Option Uuid
  userId : Uuid

structure Store where
  folders : List Folder
  tags : List Tag

def folderTable : Table Store Uuid Folder where
  rows := Store.folders
  put db rows := { db with folders := rows }
  key := Folder.id

def tagTable : Table Store Uuid Tag where
  rows := Store.tags
  put db rows := { db with tags := rows }
  key := Tag.id

/-- The two forests. -/
inductive Kind
  | folder
  | tag
  deriving DecidableEq

/-- Row locks, and the locks of the unique names. -/
inductive Lock
  | row (kind : Kind) (id : Uuid)
  | name (kind : Kind) (name : String) (parentId : Option Uuid) (userId : Uuid)
  deriving DecidableEq

/-- A change of the parent, with the ancestors that the check before it met and the parents that it read for them. -/
structure Move where
  parentId : Option Uuid
  walked : List (Uuid × Option Uuid)

/-- What a transaction of the routes did. -/
inductive Event
  | updated (kind : Kind) (id : Uuid) (move : Option Move)

/-- The answers of the routes. -/
inductive Response
  | ok
  | notFound
  | folderCircularReference
  | folderMaxDepthExceeded
  | folderAlreadyExists
  | tagAlreadyExists
  | validationError (message : String)
  /-- An error that no handler catches. -/
  | unhandled
  /-- No answer: the request is still walking up the ancestors. -/
  | walking

/-- What the update of a row can violate: `P2025`, `P2002` and `P2003`. -/
inductive UpdateError
  | recordNotFound
  | uniqueConstraint
  | foreignKey
  deriving DecidableEq

structure Nodes (Row : Type) where
  kind : Kind
  table : Table Store Uuid Row
  name : Row → String
  parentId : Row → Option Uuid
  userId : Row → Uuid

def folders : Nodes Folder where
  kind := .folder
  table := folderTable
  name := Folder.name
  parentId := Folder.parentId
  userId := Folder.userId

def tags : Nodes Tag where
  kind := .tag
  table := tagTable
  name := Tag.name
  parentId := Tag.parentId
  userId := Tag.userId

namespace Nodes

variable {Row : Type} (nodes : Nodes Row)

/-- The row with the identifier. -/
def find (id : Uuid) (db : Store) : Option Row :=
  (nodes.table.rows db).find? fun row ↦ nodes.table.key row = id

def parent (db : Store) (id : Uuid) : Option Uuid :=
  (nodes.find id db).bind nodes.parentId

/-- The unique columns agree; the partial index on the roots makes a null parent a value like any other. -/
def sameName (first second : Row) : Bool :=
  nodes.name first = nodes.name second && nodes.parentId first = nodes.parentId second &&
    nodes.userId first = nodes.userId second

def taken (id : Uuid) (row : Row) (db : Store) : Bool :=
  (nodes.table.rows db).any fun other ↦ nodes.table.key other ≠ id && nodes.sameName row other

/-- Whether the update of a row goes through. The foreign key is checked when the parent changes. -/
def updateOutcome (id userId : Uuid) (move : Option Move) (f : Row → Row) (db : Store) : Except UpdateError Unit :=
  match (nodes.table.rows db).find? fun row ↦ nodes.table.key row = id && nodes.userId row = userId with
  | none => .error .recordNotFound
  | some row =>
    if nodes.taken id (f row) db then .error .uniqueConstraint
    else if (move.bind (·.parentId)).any fun parentId ↦ (nodes.find parentId db).isNone then .error .foreignKey
    else .ok ()

def written (id : Uuid) (f : Row → Row) : Except UpdateError Unit → Store → Store
  | .ok () => nodes.table.modify [id] f
  | .error _ => fun db ↦ db

/-- `update` of the row `where: { id, userId }`. -/
def update (id userId : Uuid) (move : Option Move) (f : Row → Row) :
    Prog Store Lock Event (Except UpdateError Unit) :=
  .stmt (fun view ↦ (.row nodes.kind id, .exclusive) :: ((nodes.find id view).map fun row ↦
      (Lock.name nodes.kind (nodes.name (f row)) (nodes.parentId (f row)) userId, Mode.exclusive)).toList)
    (fun view ↦ nodes.written id f (nodes.updateOutcome id userId move f view))
    fun view ↦ .done (nodes.updateOutcome id userId move f view)

variable {nodes} {db : Store} {id : Uuid} {f : Row → Row}

theorem find_modify (hkey : ∀ row, nodes.table.key (f row) = nodes.table.key row) (x : Uuid) :
    nodes.find x (nodes.table.modify [id] f db) =
      (nodes.find x db).map fun row ↦ if nodes.table.key row ∈ [id] then f row else row := by
  simp only [find, Table.rows_modify, List.find?_map, Function.comp_def, Table.key_ite hkey]

theorem key_of_find {row : Row} {x : Uuid} (h : nodes.find x db = some row) : nodes.table.key row = x := by
  simpa using List.find?_some h

theorem parent_modify_same (nodes : Nodes Row) (hkey : ∀ row, nodes.table.key (f row) = nodes.table.key row)
    (hparent : ∀ row, nodes.parentId (f row) = nodes.parentId row) :
    nodes.parent (nodes.table.modify [id] f db) = nodes.parent db := by
  funext x
  rw [parent, find_modify hkey, parent]
  cases hfind : nodes.find x db with
  | none => rfl
  | some row =>
    simp only [Option.map_some, Option.bind_some]
    split_ifs
    · exact hparent row
    · rfl

theorem parent_modify (nodes : Nodes Row) {p : Option Uuid} (hkey : ∀ row, nodes.table.key (f row) = nodes.table.key row)
    (hparent : ∀ row, nodes.parentId (f row) = p) (hexists : nodes.find id db ≠ none) :
    nodes.parent (nodes.table.modify [id] f db) = Function.update (nodes.parent db) id p := by
  funext x
  rw [parent, find_modify hkey]
  by_cases hx : x = id
  · subst hx
    obtain ⟨row, hrow⟩ := Option.ne_none_iff_exists'.mp hexists
    simp [hrow, key_of_find hrow, hparent]
  · rw [Function.update_of_ne hx, parent]
    cases hfind : nodes.find x db with
    | none => rfl
    | some row => simp [key_of_find hfind, hx]

theorem parent_modify_missing (hmissing : nodes.find id db = none) : nodes.table.modify [id] f db = db := by
  have hnone := List.find?_eq_none.mp hmissing
  have hrows : ((nodes.table.rows db).map fun row ↦ if nodes.table.key row ∈ [id] then f row else row) =
      nodes.table.rows db := by
    refine List.map_congr_left (fun row hrow ↦ ?_) |>.trans (List.map_id _)
    have := hnone row hrow
    simp_all
  rw [Table.modify, hrows, nodes.table.put_rows]

theorem parent_of_roots (nodes : Nodes Row) (hroots : ∀ row ∈ nodes.table.rows db, nodes.parentId row = none) (x : Uuid) :
    nodes.parent db x = none := by
  unfold parent
  cases hfind : nodes.find x db with
  | none => rfl
  | some row => exact hroots row (List.mem_of_find?_eq_some hfind)

end Nodes

/-- The parent pointers of one of the forests. -/
def forest : Kind → Store → Uuid → Option Uuid
  | .folder => folders.parent
  | .tag => tags.parent

end PasswdSso.Hierarchy
