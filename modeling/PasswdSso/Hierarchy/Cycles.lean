import PasswdSso.Hierarchy.Routes
import PasswdSso.ReadCommitted.Request

/-!
# Cycles by concurrent moves

`PUT /api/folders/[id]` and `PUT /api/tags/[id]` check the ancestors of the new parent in transactions of their own and
update the pointer in another one, without a lock on the ancestors. Two moves that are each fine alone can therefore
close a cycle together. What a move does guarantee is relative to the ancestors that its check met: if their parents
are still the ones that it read, then the forest stays acyclic.
-/

namespace PasswdSso.Hierarchy

open ReadCommitted ParentForest

/-- When a move is committed, the ancestors that its check met still have the parents that it read. -/
def AncestorsUnmoved (label : Event) (_overlap : List Event) (w : World Store Event) : Prop :=
  match label with
  | .updated kind _ (some move) => ∀ step ∈ move.walked, forest kind w.db step.1 = step.2
  | _ => True

instance (label : Event) (overlap : List Event) (w : World Store Event) :
    Decidable (AncestorsUnmoved label overlap w) := by
  unfold AncestorsUnmoved
  split <;> infer_instance

structure Reparented (kind : Kind) (id : Uuid) (move : Option Move) (db db' : Store) : Prop where
  others : ∀ other, other ≠ kind → forest other db' = forest other db
  changed : forest kind db' = forest kind db ∨ ∃ new, move = some new ∧ Walk id new.parentId new.walked ∧
    (∀ step ∈ new.walked, forest kind db step.1 = step.2) ∧
    forest kind db' = Function.update (forest kind db) id new.parentId

def reparenting : Contract Store Lock Event where
  allowed := AncestorsUnmoved
  guarantee _ w label db := ∃ kind id move, label = .updated kind id move ∧ Reparented kind id move w.db db

theorem Reparented.acyclic {kind : Kind} {id : Uuid} {move : Option Move} {db db' : Store}
    (h : Reparented kind id move db db') (hacyclic : ∀ kind, Acyclic (forest kind db)) (other : Kind) :
    Acyclic (forest other db') := by
  by_cases hkind : other = kind
  · subst hkind
    rcases h.changed with hsame | ⟨new, -, hwalk, hread, hmoved⟩
    · rw [hsame]
      exact hacyclic other
    · rw [hmoved]
      refine (hacyclic other).update fun above habove ↦ ?_
      rw [habove] at hwalk
      exact hwalk.not_reflTransGen hread
  · rw [h.others other hkind]
    exact hacyclic other

theorem checkCircularReference_looks (folderId : Uuid) (fuel : Nat) (currentId : Uuid) :
    (checkCircularReference folderId fuel currentId).Looks fun result ↦
      ∀ walked, result = .clear walked → Walk folderId (some currentId) walked := by
  induction fuel generalizing currentId with
  | zero => exact .done nofun
  | succ fuel ih =>
    unfold checkCircularReference
    split_ifs with hmet
    · exact .done nofun
    · have hroot : ∀ walked, CycleCheck.clear [(currentId, none)] = .clear walked →
          Walk folderId (some currentId) walked := by
        rintro walked heq
        rw [← CycleCheck.clear.inj heq]
        exact ⟨rfl, hmet, trivial⟩
      refine .step fun view ↦ ?_
      cases getPersonalParent currentId view with
      | none => exact .done hroot
      | some node =>
        obtain ⟨parentId, ownerId⟩ := node
        cases parentId with
        | none => exact .done hroot
        | some parentId =>
          refine (ih parentId).bind fun result hresult ↦ .done fun walked heq ↦ ?_
          cases result with
          | circular | walking => cases heq
          | clear rest =>
            rw [← CycleCheck.clear.inj heq]
            exact ⟨rfl, hmet, hresult rest rfl⟩

theorem folderDepthLoop_looks (ownerId : Uuid) (remaining depth : Nat) (currentId : Uuid) :
    (folderDepthLoop ownerId remaining depth currentId).Looks fun _ ↦ True := by
  induction remaining generalizing depth currentId with
  | zero => exact .done trivial
  | succ remaining ih =>
    unfold folderDepthLoop
    refine .step fun view ↦ ?_
    cases getPersonalParent currentId view with
    | none => exact .done trivial
    | some node =>
      dsimp only
      split_ifs
      · exact .done trivial
      · cases node.parentId with
        | none => exact .done trivial
        | some parentId => exact ih (depth + 1) parentId

theorem validateFolderDepth_looks (parentId : Option Uuid) (ownerId : Uuid) :
    (validateFolderDepth parentId ownerId).Looks fun _ ↦ True := by
  cases parentId with
  | none => exact .done trivial
  | some parentId => exact folderDepthLoop_looks _ _ _ _

theorem validateParentFolder_looks (parentId ownerId : Uuid) :
    (validateParentFolder parentId ownerId).Looks fun _ ↦ True := by
  refine .step fun view ↦ ?_
  cases getPersonalParent parentId view with
  | none | some parent => exact .done trivial

theorem FolderPut.checkMove_looks (fuel : Nat) (req : FolderPut) (existing : Folder) :
    (req.checkMove fuel existing).Looks fun result ↦
      ∀ new, result = .ok (some new) → Walk req.id new.parentId new.walked := by
  unfold FolderPut.checkMove
  split
  · exact .done nofun
  · next newParentId _ =>
    split_ifs
    · exact .done nofun
    · cases newParentId with
      | none =>
        refine (validateFolderDepth_looks none req.userId).bind fun result _ ↦ ?_
        cases result with
        | error thrown => exact .done nofun
        | ok depth =>
          refine .done fun new heq ↦ ?_
          rw [← Option.some.inj (Except.ok.inj heq)]
          trivial
      | some parentId =>
        refine (validateParentFolder_looks parentId req.userId).bind fun result _ ↦ ?_
        cases result with
        | error thrown => exact .done nofun
        | ok parent =>
          dsimp only
          split_ifs
          · exact .done nofun
          · refine (checkCircularReference_looks req.id fuel parentId).bind fun result hresult ↦ ?_
            cases result with
            | walking | circular => exact .done nofun
            | clear walked =>
              refine (validateFolderDepth_looks (some parentId) req.userId).bind fun result _ ↦ ?_
              cases result with
              | error thrown => exact .done nofun
              | ok depth =>
                refine .done fun new heq ↦ ?_
                rw [← Option.some.inj (Except.ok.inj heq)]
                exact hresult walked rfl

theorem parentChain_walk {tagId : Uuid} {allTags : List Tag} {fuel : Nat} {visited : List Uuid} {current : Uuid}
    {chain : List (Uuid × Option Uuid)} (h : parentChain (some tagId) allTags fuel visited current = .ok chain) :
    Walk tagId (some current) chain := by
  induction fuel generalizing visited current chain with
  | zero => cases h
  | succ fuel ih =>
    unfold parentChain at h
    split_ifs at h with hmet
    have hne : current ≠ tagId := fun heq ↦ hmet (heq ▸ rfl)
    cases hparent : (byId allTags current).bind (·.parentId) with
    | none =>
      rw [hparent] at h
      rw [← Except.ok.inj h]
      exact ⟨rfl, hne, trivial⟩
    | some parentId =>
      rw [hparent] at h
      dsimp only at h
      cases hrest : parentChain (some tagId) allTags fuel (current :: visited) parentId with
      | error failure =>
        rw [hrest] at h
        cases h
      | ok rest =>
        rw [hrest] at h
        rw [← Except.ok.inj h]
        exact ⟨rfl, hne, ih hrest⟩

theorem validateParentChain_walk {tagId newParentId : Uuid} {allTags : List Tag} {chain : List (Uuid × Option Uuid)}
    (h : validateParentChain (some tagId) (some newParentId) allTags = .ok chain) :
    Walk tagId (some newParentId) chain := by
  simp only [validateParentChain] at h
  split_ifs at h
  cases hchain : parentChain (some tagId) allTags (allTags.length + 1) [] newParentId with
  | error failure =>
    rw [hchain] at h
    cases h
  | ok found =>
    rw [hchain] at h
    dsimp only at h
    cases hdepth : maxDescendantDepth allTags (allTags.length + 1) tagId with
    | none =>
      rw [hdepth] at h
      cases h
    | some descendants =>
      rw [hdepth] at h
      dsimp only at h
      split_ifs at h
      rw [← Except.ok.inj h]
      exact parentChain_walk hchain

theorem TagPut.checkMove_looks (req : TagPut) : req.checkMove.Looks fun result ↦
    ∀ new, result = .ok (some new) → Walk req.id new.parentId new.walked := by
  unfold TagPut.checkMove
  split
  · exact .done nofun
  · refine .done fun new heq ↦ ?_
    rw [← Option.some.inj (Except.ok.inj heq)]
    trivial
  · next newParentId _ =>
    refine .step fun view ↦ ?_
    cases hchain : validateParentChain (some req.id) (some newParentId)
        (view.tags.filter (·.userId = req.userId)) with
    | error failure => cases failure <;> exact .done nofun
    | ok chain =>
      refine .done fun new heq ↦ ?_
      rw [← Option.some.inj (Except.ok.inj heq)]
      exact validateParentChain_walk hchain

section Outlines

variable {Row : Type} {nodes : Nodes Row} {id : Uuid} {move : Option Move} {f : Row → Row}

def Nodes.Own (nodes : Nodes Row) : Prop :=
  forest nodes.kind = nodes.parent ∧
    ∀ other, other ≠ nodes.kind → ∀ db rows, forest other (nodes.table.put db rows) = forest other db

theorem folders_own : folders.Own := by
  refine ⟨rfl, fun other hother db rows ↦ ?_⟩
  cases other with
  | folder => exact absurd rfl hother
  | tag => rfl

theorem tags_own : tags.Own := by
  refine ⟨rfl, fun other hother db rows ↦ ?_⟩
  cases other with
  | folder => rfl
  | tag => exact absurd rfl hother

theorem Nodes.returns_update (hown : nodes.Own) (userId : Uuid)
    (hkey : ∀ row, nodes.table.key (f row) = nodes.table.key row)
    (hparent : ∀ row, nodes.parentId (f row) = (move.map (·.parentId)).getD (nodes.parentId row))
    (hwalk : ∀ new, move = some new → Walk id new.parentId new.walked) (w : World Store Event) :
    Earns reparenting (nodes.update id userId move f) (.idle w) fun _ ↦ .updated nodes.kind id move := by
  intro v _ value hvalue w' _ hallowed
  have hwritten : nodes.written id f (nodes.updateOutcome id userId move f v.db) = nodes.table.modify [id] f := by
    rw [show nodes.updateOutcome id userId move f v.db = .ok value from hvalue]
    rfl
  change ∃ kind id' move', _ ∧ Reparented kind id' move' w'.db
    (nodes.written id f (nodes.updateOutcome id userId move f v.db) w'.db)
  rw [hwritten]
  refine ⟨nodes.kind, id, move, rfl, fun other hother ↦ hown.2 other hother _ _, ?_⟩
  rw [hown.1]
  cases move with
  | none => exact .inl (nodes.parent_modify_same hkey hparent)
  | some new =>
    cases hfind : nodes.find id w'.db with
    | none => exact .inl (by rw [Nodes.parent_modify_missing hfind])
    | some row =>
      have hread : ∀ step ∈ new.walked, forest nodes.kind w'.db step.1 = step.2 := hallowed
      rw [hown.1] at hread
      refine .inr ⟨new, rfl, hwalk new rfl, hread, nodes.parent_modify hkey hparent ?_⟩
      rw [hfind]
      exact Option.some_ne_none row

theorem Nodes.checkName_looks (put : Put Row) (existing : Row) :
    (nodes.checkName put move existing).Looks fun _ ↦ True := by
  simp only [Nodes.checkName]
  split_ifs
  · exact (Prog.Looks.readOnly _).mono fun _ _ ↦ trivial
  · exact .done trivial

theorem Nodes.proceeds_handlePut {put : Put Row} (hown : nodes.Own) (userId : Uuid)
    (hmove : ∀ existing, (put.checkMove existing).Looks fun result ↦
      ∀ new, result = .ok (some new) → Walk id new.parentId new.walked)
    (hkey : ∀ move row, nodes.table.key (put.apply move row) = nodes.table.key row)
    (hparent : ∀ move row, nodes.parentId (put.apply move row) =
      (Option.map Move.parentId move).getD (nodes.parentId row)) :
    Proceeds reparenting (fun _ ↦ True) (nodes.handlePut id userId put) := by
  refine .look reparenting.preserves_true fun view ↦ ?_
  cases nodes.find id view with
  | none => exact .pure _
  | some existing =>
    dsimp only
    split_ifs
    · exact .pure _
    · refine (hmove existing).proceeds reparenting.preserves_true fun result hresult ↦ ?_
      cases result with
      | error response => exact .pure _
      | ok move =>
        refine (nodes.checkName_looks put existing).proceeds reparenting.preserves_true fun duplicate _ ↦ ?_
        cases duplicate with
        | true => exact .pure _
        | false =>
          refine .transaction reparenting.preserves_true (fun w _ ↦ ?_) (fun thrown ↦ ?_) fun _ ↦ .pure _
          · exact Nodes.returns_update hown userId (hkey move) (hparent move)
              (fun new hnew ↦ hresult new (hnew ▸ rfl)) w
          · cases thrown <;> exact .pure _

theorem FolderPut.proceeds_handle (fuel : Nat) (req : FolderPut) :
    Proceeds reparenting (fun _ ↦ True) (req.handle fuel) :=
  Nodes.proceeds_handlePut folders_own req.userId (req.checkMove_looks fuel) (fun _ _ ↦ rfl) fun _ _ ↦ rfl

theorem TagPut.proceeds_handle (req : TagPut) : Proceeds reparenting (fun _ ↦ True) req.handle :=
  Nodes.proceeds_handlePut tags_own req.userId (fun _ ↦ req.checkMove_looks) (fun _ _ ↦ rfl) fun _ _ ↦ rfl

end Outlines

/-- A request that can move a node. -/
inductive PutRequest
  | folder (fuel : Nat) (req : FolderPut)
  | tag (req : TagPut)

/-- The program of the request. -/
def PutRequest.handle : PutRequest → Prog Store Lock Event Response
  | .folder fuel req => req.handle fuel
  | .tag req => req.handle

theorem PutRequest.proceeds_handle (req : PutRequest) : Proceeds reparenting (fun _ ↦ True) req.handle := by
  cases req with
  | folder fuel req => exact req.proceeds_handle fuel
  | tag req => exact req.proceeds_handle

/-- Every interleaving of any number of updates of folders and tags keeps both forests acyclic, if at the commit of
every move the ancestors that its check met still have the parents that it read. -/
theorem forests_acyclic {ι : Type} [DecidableEq ι] {db : Store} {requests : ι → PutRequest}
    {s : State ι Store Lock Event Response} (hacyclic : ∀ kind, Acyclic (forest kind db))
    (hrun : Run AncestorsUnmoved (State.start ⟨db, []⟩ fun i ↦ (requests i).handle) s) (kind : Kind) :
    Acyclic (forest kind s.world.db) := by
  refine Run.invariant (c := reparenting) (fun w ↦ ∀ kind, Acyclic (forest kind w.db)) hrun
    (fun i ↦ (requests i).proceeds_handle ⟨db, []⟩ trivial) hacyclic ?_ kind
  rintro held w label db' hacyclic ⟨kind, id, move, -, hreparented⟩
  exact hreparented.acyclic hacyclic

/-- Two folders and two tags of one user, none below another. -/
def twoRoots : Store where
  folders := [⟨1, "a", none, 0, 0⟩, ⟨2, "b", none, 0, 0⟩]
  tags := [⟨1, "a", none, none, 0⟩, ⟨2, "b", none, none, 0⟩]

theorem twoRoots_acyclic (kind : Kind) : Acyclic (forest kind twoRoots) := by
  intro x hcycle
  obtain ⟨above, habove, -⟩ := Relation.TransGen.head'_iff.mp hcycle
  have hroot : forest kind twoRoots x = none := by
    cases kind with
    | folder => exact folders.parent_of_roots (by decide) x
    | tag => exact tags.parent_of_roots (by decide) x
  simp [Above, hroot] at habove

/-- Each of two folders, or of two tags, is moved below the other. -/
def crossing (kind : Kind) (first : Bool) : PutRequest :=
  match kind, first with
  | .folder, true => .folder 3 ⟨0, 1, none, some (some 2), none⟩
  | .folder, false => .folder 3 ⟨0, 2, none, some (some 1), none⟩
  | .tag, true => .tag ⟨0, 1, none, none, some (some 2)⟩
  | .tag, false => .tag ⟨0, 2, none, none, some (some 1)⟩

/-- One after the other, the first move goes through and the second is refused. -/
theorem crossing_in_turn_acyclic : ∃ s : State Bool Store Lock Event Response,
    Run AncestorsUnmoved (State.start ⟨twoRoots, []⟩ fun first ↦ (crossing .folder first).handle) s ∧
      (forest .folder s.world.db 1 = some 2 ∧ forest .folder s.world.db 2 = none) ∧
      ∀ kind, Acyclic (forest kind s.world.db) := by
  obtain ⟨s, hrun, hmoved⟩ := Run.exists_of_schedule
    (State.start ⟨twoRoots, []⟩ fun first : Bool ↦ (crossing .folder first).handle)
    (fun w ↦ forest .folder w.db 1 = some 2 ∧ forest .folder w.db 2 = none)
    [(12, true), (6, false)] AncestorsUnmoved
  exact ⟨s, hrun, hmoved, forests_acyclic twoRoots_acyclic hrun⟩

/-- If both check before either of them updates, then each node ends up below the other. -/
theorem crossing_moves_cyclic : (∃ s : State Bool Store Lock Event Response,
      Run (fun _ _ _ ↦ True) (State.start ⟨twoRoots, []⟩ fun first ↦ (crossing .folder first).handle) s ∧
        ¬ Acyclic (forest .folder s.world.db)) ∧
    ∃ s : State Bool Store Lock Event Response,
      Run (fun _ _ _ ↦ True) (State.start ⟨twoRoots, []⟩ fun first ↦ (crossing .tag first).handle) s ∧
        ¬ Acyclic (forest .tag s.world.db) := by
  have hcycle {parent : Uuid → Option Uuid} (h : parent 1 = some 2 ∧ parent 2 = some 1) : ¬ Acyclic parent :=
    fun hacyclic ↦ hacyclic 1 (.head h.1 (.single h.2))
  constructor
  · obtain ⟨s, hrun, hmoved⟩ := Run.exists_of_schedule
      (State.start ⟨twoRoots, []⟩ fun first : Bool ↦ (crossing .folder first).handle)
      (fun w ↦ forest .folder w.db 1 = some 2 ∧ forest .folder w.db 2 = some 1)
      [(10, true), (12, false), (2, true)]
    exact ⟨s, hrun, hcycle hmoved⟩
  · obtain ⟨s, hrun, hmoved⟩ := Run.exists_of_schedule
      (State.start ⟨twoRoots, []⟩ fun first : Bool ↦ (crossing .tag first).handle)
      (fun w ↦ forest .tag w.db 1 = some 2 ∧ forest .tag w.db 2 = some 1)
      [(6, true), (8, false), (2, true)]
    exact ⟨s, hrun, hcycle hmoved⟩

end PasswdSso.Hierarchy
