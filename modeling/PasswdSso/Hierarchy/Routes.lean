import PasswdSso.Hierarchy.Store

/-!
# The routes of folders and tags

`PUT /api/folders/[id]` (`src/app/api/folders/[id]/route.ts`, with the checks of `src/lib/folder/folder-utils.ts`) and
`PUT /api/tags/[id]` (`src/app/api/tags/[id]/route.ts`, with `validateParentChain` of `src/lib/format/tag-tree.ts`).
Every read before the last statement is a transaction of its own. `checkCircularReference` walks up the ancestors
until it is at a root; a walk is given the number of steps that it has time for, and a request whose walk is not at
its end by then has not answered.
-/

namespace PasswdSso.Hierarchy

open ReadCommitted

section Put

variable {Row : Type}

/-- What is particular to `handlePUT` of one route: its checks of a move and of a final row, its update, and its
answer to a second node of the same name. -/
structure Put (Row : Type) where
  checkMove : Row → Prog Store Lock Event (Except Response (Option Move))
  apply : Option Move → Row → Row
  duplicate : Row → Store → Bool
  alreadyExists : Response

/-- The check for another node of the final name, which is made when the name or the parent changes. -/
def Nodes.checkName (nodes : Nodes Row) (put : Put Row) (move : Option Move) (existing : Row) :
    Prog Store Lock Event Bool :=
  let final := put.apply move existing
  if nodes.name final ≠ nodes.name existing ∨ nodes.parentId final ≠ nodes.parentId existing then
    .readOnly (put.duplicate final)
  else return false

/-- `handlePUT` of the node `id` for a user. -/
def Nodes.handlePut (nodes : Nodes Row) (id userId : Uuid) (put : Put Row) : Prog Store Lock Event Response := do
  match ← .readOnly (nodes.find id) with
  | none => return .notFound
  | some existing =>
    if nodes.userId existing ≠ userId then return .notFound
    else match ← put.checkMove existing with
      | .error response => return response
      | .ok move =>
        if ← nodes.checkName put move existing then return put.alreadyExists
        else
          let written ← .transaction (fun _ ↦ .updated nodes.kind id move)
            (nodes.update id userId move (put.apply move))
          match written with
          | .error .uniqueConstraint => return put.alreadyExists
          | .error .recordNotFound => return .unhandled
          | .error .foreignKey => return .unhandled
          | .ok () => return .ok

end Put

/-! ### Folder checks -/

def maxFolderDepth : Nat := 5

structure ParentNode where
  parentId : Option Uuid
  ownerId : Uuid

/-- `getPersonalParent`, as a function of the database that the read sees. -/
def getPersonalParent (id : Uuid) (db : Store) : Option ParentNode :=
  (folders.find id db).map fun folder ↦ ⟨folder.parentId, folder.userId⟩

def validateParentFolder (parentId ownerId : Uuid) : Prog Store Lock Event (Except Unit ParentNode) := do
  match ← .readOnly (getPersonalParent parentId) with
  | none => return .error ()
  | some parent => return if parent.ownerId ≠ ownerId then .error () else .ok parent

/-- The loop of `validateFolderDepth`; `remaining` is the number of levels left below the limit. -/
def folderDepthLoop (ownerId : Uuid) : Nat → Nat → Uuid → Prog Store Lock Event (Except Unit Nat)
  | 0, _, _ => return .error ()
  | remaining + 1, depth, currentId => do
    match ← .readOnly (getPersonalParent currentId) with
    | none => return .ok (depth + 1)
    | some node =>
      if node.ownerId ≠ ownerId then return .ok (depth + 1)
      else match node.parentId with
        | none => return .ok (depth + 1)
        | some parentId => folderDepthLoop ownerId remaining (depth + 1) parentId

/-- `validateFolderDepth`: the depth of a child of the folder. -/
def validateFolderDepth (parentId : Option Uuid) (ownerId : Uuid) : Prog Store Lock Event (Except Unit Nat) :=
  match parentId with
  | none => return .ok 1
  | some parentId => folderDepthLoop ownerId (maxFolderDepth - 1) 1 parentId

/-- The answer of `checkCircularReference`, with the ancestors that it met. -/
inductive CycleCheck
  | circular
  | clear (walked : List (Uuid × Option Uuid))
  | walking

def CycleCheck.after (currentId : Uuid) (parentId : Option Uuid) : CycleCheck → CycleCheck
  | .circular => .circular
  | .clear walked => .clear ((currentId, parentId) :: walked)
  | .walking => .walking

/-- `checkCircularReference`, as far as it gets with so many steps. -/
def checkCircularReference (folderId : Uuid) : Nat → Uuid → Prog Store Lock Event CycleCheck
  | 0, _ => return .walking
  | fuel + 1, currentId => do
    if currentId = folderId then return .circular
    else
      match ← .readOnly (getPersonalParent currentId) with
      | none => return .clear [(currentId, none)]
      | some node =>
        match node.parentId with
        | none => return .clear [(currentId, none)]
        | some parentId => return .after currentId (some parentId) (← checkCircularReference folderId fuel parentId)

/-! ### `PUT /api/folders/[id]` -/

structure FolderPut where
  userId : Uuid
  id : Uuid
  name : Option String
  parentId : Option (Option Uuid)
  sortOrder : Option Int

def FolderPut.checkMove (fuel : Nat) (req : FolderPut) (existing : Folder) :
    Prog Store Lock Event (Except Response (Option Move)) := do
  match req.parentId with
  | none => return .ok none
  | some newParentId =>
    if newParentId = existing.parentId then return .ok none
    else match newParentId with
      | none =>
        match ← validateFolderDepth none req.userId with
        | .error () => return .error .folderMaxDepthExceeded
        | .ok _ => return .ok (some ⟨none, []⟩)
      | some parentId =>
        match ← validateParentFolder parentId req.userId with
        | .error () => return .error .notFound
        | .ok _ =>
          if parentId = req.id then return .error .folderCircularReference
          else match ← checkCircularReference req.id fuel parentId with
            | .walking => return .error .walking
            | .circular => return .error .folderCircularReference
            | .clear walked =>
              match ← validateFolderDepth (some parentId) req.userId with
              | .error () => return .error .folderMaxDepthExceeded
              | .ok _ => return .ok (some ⟨some parentId, walked⟩)

def FolderPut.apply (req : FolderPut) (move : Option Move) (folder : Folder) : Folder :=
  { folder with
    name := req.name.getD folder.name
    sortOrder := req.sortOrder.getD folder.sortOrder
    parentId := (move.map (·.parentId)).getD folder.parentId }

/-- `handlePUT` of the folder route. -/
def FolderPut.handle (fuel : Nat) (req : FolderPut) : Prog Store Lock Event Response :=
  folders.handlePut req.id req.userId
    { checkMove := req.checkMove fuel
      apply := req.apply
      duplicate := fun final db ↦
        (db.folders.find? (folders.sameName { final with userId := req.userId })).any fun dup ↦ dup.id ≠ req.id
      alreadyExists := .folderAlreadyExists }

/-! ### `PUT /api/tags/[id]` -/

def tagTreeMaxDepth : Nat := 3

/-- What `validateParentChain` throws: a `TagTreeError`, or the error of a recursion without end. -/
inductive TagTreeFailure
  | tagTreeError (message : String)
  | rangeError

def parentTagNotFound : String := "Parent tag not found"

def circularReference : String := "Circular reference detected"

def maximumNestingDepth : String := "Maximum nesting depth of " ++ toString tagTreeMaxDepth ++ " exceeded"

def byId (allTags : List Tag) (id : Uuid) : Option Tag := allTags.find? (·.id = id)

/-- The walk of `validateParentChain` up from `current`, with the ancestors that it meets. The list of visited tags
ends it after at most one step more than there are tags. -/
def parentChain (tagId : Option Uuid) (allTags : List Tag) :
    Nat → List Uuid → Uuid → Except TagTreeFailure (List (Uuid × Option Uuid))
  | 0, _, _ => .error (.tagTreeError circularReference)
  | fuel + 1, visited, current =>
    if some current = tagId then .error (.tagTreeError circularReference)
    else if current ∈ visited then .error (.tagTreeError circularReference)
    else match (byId allTags current).bind (·.parentId) with
      | none => .ok [(current, none)]
      | some parentId =>
        match parentChain tagId allTags fuel (current :: visited) parentId with
        | .error failure => .error failure
        | .ok chain => .ok ((current, some parentId) :: chain)

/-- `getMaxDescendantDepth`; `none` when the recursion does not end, because it is on a cycle. -/
def maxDescendantDepth (allTags : List Tag) : Nat → Uuid → Option Nat
  | 0, _ => none
  | fuel + 1, id =>
    match allTags.filter (·.parentId = some id) with
    | [] => some 1
    | children => (children.mapM fun child ↦ maxDescendantDepth allTags fuel child.id).map fun depths ↦
        1 + depths.foldl max 0

/-- `validateParentChain`, with the ancestors that its walk met. -/
def validateParentChain (tagId : Option Uuid) (newParentId : Option Uuid) (allTags : List Tag) :
    Except TagTreeFailure (List (Uuid × Option Uuid)) :=
  match newParentId with
  | none => .ok []
  | some newParentId =>
    if (byId allTags newParentId).isNone then .error (.tagTreeError parentTagNotFound)
    else match parentChain tagId allTags (allTags.length + 1) [] newParentId with
      | .error failure => .error failure
      | .ok chain =>
        let depth := chain.length + 1
        match tagId with
        | some tagId =>
          match maxDescendantDepth allTags (allTags.length + 1) tagId with
          | none => .error .rangeError
          | some descendants =>
            if depth + descendants - 1 > tagTreeMaxDepth then .error (.tagTreeError maximumNestingDepth)
            else .ok chain
        | none => if depth > tagTreeMaxDepth then .error (.tagTreeError maximumNestingDepth) else .ok chain

structure TagPut where
  userId : Uuid
  id : Uuid
  name : Option String
  color : Option (Option String)
  parentId : Option (Option Uuid)

def TagPut.checkMove (req : TagPut) : Prog Store Lock Event (Except Response (Option Move)) := do
  match req.parentId with
  | none => return .ok none
  | some none => return .ok (some ⟨none, []⟩)
  | some (some newParentId) =>
    let allTags ← .readOnly fun db ↦ db.tags.filter (·.userId = req.userId)
    match validateParentChain (some req.id) (some newParentId) allTags with
    | .error (.tagTreeError message) => return .error (.validationError message)
    | .error .rangeError => return .error .unhandled
    | .ok chain => return .ok (some ⟨some newParentId, chain⟩)

def TagPut.apply (req : TagPut) (move : Option Move) (tag : Tag) : Tag :=
  { tag with
    name := req.name.getD tag.name
    color := (req.color.map (·.filter (· ≠ ""))).getD tag.color
    parentId := (move.map (·.parentId)).getD tag.parentId }

/-- `handlePUT` of the tag route. -/
def TagPut.handle (req : TagPut) : Prog Store Lock Event Response :=
  tags.handlePut req.id req.userId
    { checkMove := fun _ ↦ req.checkMove
      apply := req.apply
      duplicate := fun final db ↦ db.tags.any fun other ↦
        other.id ≠ req.id && tags.sameName { final with userId := req.userId } other
      alreadyExists := .tagAlreadyExists }

end PasswdSso.Hierarchy
