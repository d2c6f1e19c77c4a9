import PasswdSso.Team.Outline

/-!
# Coverage of the members by team keys

A member whose key is distributed should have a key of the current version. The distribution reads
the version of the team, and the rotation the list of members, without a lock, so that each can
commit after the other has: `keys_not_covered` is a run in which a member is flagged as distributed
and has only a key of the old version. Where every distribution finds the version still current and
every rotation finds no further member, all members are covered (`keys_covered`).
-/

namespace PasswdSso.Team

open ReadCommitted List Table World

def Store.HasKey (db : Store) (key : Uuid × Uuid × Nat) : Prop :=
  ∃ row ∈ db.memberKeys, memberKeyTable.key row = key

/-- Every active member with a distributed key has a key of the current version. -/
def Store.Covered (db : Store) : Prop :=
  ∀ row ∈ db.members, row.deactivatedAt = none → row.keyDistributed = true →
    ∀ team, db.teams row.teamId = some team → db.HasKey (row.teamId, row.userId, team.teamKeyVersion)

def TeamMember.pair (row : TeamMember) : Uuid × Uuid := (row.teamId, row.userId)

structure MembersWellFormed (w : World Store Event) : Prop where
  ids : memberTable.KeysUnique w.db
  pairs : (w.db.members.map TeamMember.pair).Nodup
  removed : ∀ id, .memberRemoved id ∈ w.log → ∀ row ∈ w.db.members, row.id ≠ id

/-- What a commit does to the member rows: the rows it has not locked stay, those that stay keep team
and user, only a removal takes one away, and a new pair is locked. -/
structure MemberStep (held : Locks) (w : World Store Event) (event : Event) (db : Store) : Prop where
  wellFormed : MembersWellFormed w → MembersWellFormed (w.commit event db)
  kept : memberTable.KeptExcept .member held w.db db
  identity : ∀ row ∈ w.db.members,
    (∃ row' ∈ db.members, row'.id = row.id ∧ row'.pair = row.pair) ∨ event = .memberRemoved row.id
  claims : ∀ row' ∈ db.members, (∃ row ∈ w.db.members, row.pair = row'.pair) ∨
    (.memberOf row'.pair, .exclusive) ∈ held

structure CoverageEffect (held : Locks) (w : World Store Event) (event : Event) (db : Store) :
    Prop extends MemberStep held w event db where
  keysKept : memberKeyTable.KeptExcept .memberKey held w.db db
  covered : MembersWellFormed w → w.db.Covered → db.Covered

/-- The ids that the database draws for new member rows have not been used before. -/
def NewIds (event : Event) (_ : List Event) (w : World Store Event) : Prop :=
  match event with
  | .memberAdded id => .memberRemoved id ∉ w.log
  | _ => True

/-- A distribution commits while its version is current, and a rotation while it has a key for every
member to whom the key is distributed. -/
def Undisturbed (event : Event) (recent : List Event) (w : World Store Event) : Prop :=
  NewIds event recent w ∧ match event with
    | .confirmed teamId _ keyVersion => (w.db.teams teamId).all (·.teamKeyVersion = keyVersion)
    | .rotated teamId userIds _ => ∀ userId ∈ w.db.distributed teamId, userId ∈ userIds
    | _ => True

instance (event : Event) (recent : List Event) (w : World Store Event) : Decidable (NewIds event recent w) := by
  induction event using Event.casesOn <;> dsimp only [NewIds] <;> infer_instance

instance (event : Event) (recent : List Event) (w : World Store Event) : Decidable (Undisturbed event recent w) := by
  induction event using Event.casesOn <;> dsimp only [Undisturbed] <;> infer_instance

def coverageContract : Contract Store Lock Event where
  allowed := Undisturbed
  guarantee := CoverageEffect

section Between

variable {held : Locks} {w : World Store Event}

theorem members_kept : coverageContract.Keeps memberTable .member :=
  fun _ _ _ _ heffect ↦ heffect.kept

theorem keys_kept : coverageContract.Keeps memberKeyTable .memberKey :=
  fun _ _ _ _ heffect ↦ heffect.keysKept

theorem pairs_claimed : coverageContract.Claims memberTable TeamMember.pair .memberOf :=
  fun _ _ _ _ heffect ↦ heffect.claims

theorem identity_stable (id : Uuid) (pair : Uuid × Uuid) : coverageContract.Stable held fun w ↦
      (∃ row ∈ w.db.members, row.id = id ∧ row.pair = pair) ∨ .memberRemoved id ∈ w.log := by
  rintro w event db theirs - heffect (⟨row, hrow, rfl, rfl⟩ | hremoved)
  · rcases heffect.identity row hrow with hstays | rfl
    · exact .inl hstays
    · exact .inr (mem_cons_self ..)
  · exact .inr (mem_cons_of_mem _ hremoved)

theorem pair_eq_of_later {first : World Store Event} {id : Uuid} {row seen : TeamMember}
    (hlater : coverageContract.Later held first w) (hw : MembersWellFormed w) (hseen : seen ∈ first.db.members)
    (hseenId : seen.id = id) (hrow : row ∈ w.db.members) (hid : row.id = id) : row.pair = seen.pair := by
  rcases (identity_stable id seen.pair).later (.inl ⟨seen, hseen, hseenId, rfl⟩) hlater with
    ⟨now, hnow, hnowId, hpair⟩ | hremoved
  · obtain rfl := hw.ids.eq_of_key_eq hnow hrow (hnowId.trans hid.symm)
    exact hpair
  · exact absurd hid (hw.removed id hremoved row hrow)

end Between

namespace MemberStep

variable {held : Locks} {w : World Store Event} {event : Event} {db : Store}

theorem of_eq (hrows : db.members = w.db.members) (hevent : ∀ id, event ≠ .memberRemoved id) :
    MemberStep held w event db where
  wellFormed h :=
    { ids := h.ids.congr hrows
      pairs := by rw [commit_db, hrows]; exact h.pairs
      removed := by
        intro id hid row hrow
        rcases mem_cons.mp hid with heq | hid
        · exact absurd heq.symm (hevent id)
        · exact h.removed id hid row (hrows ▸ hrow) }
  kept := .of_rows_eq hrows
  identity row hrow := .inl ⟨row, hrows ▸ hrow, rfl, rfl⟩
  claims row hrow := .inl ⟨row, hrows ▸ hrow, rfl⟩

variable {id : Uuid}

theorem modify {f : TeamMember → TeamMember} (hrows : db.members = (memberTable.modify [id] f w.db).members)
    (hlock : (.member id, .exclusive) ∈ held) (hf : ∀ row, (f row).id = row.id ∧ (f row).pair = row.pair)
    (hevent : ∀ id, event ≠ .memberRemoved id) :
    MemberStep held w event db := by
  have hid (row : TeamMember) : memberTable.key (f row) = memberTable.key row := (hf row).1
  have hmap : db.members = w.db.members.map fun row ↦ if row.id ∈ [id] then f row else row := hrows
  have hstep (row : TeamMember) : (if row.id ∈ [id] then f row else row).id = row.id ∧
      (if row.id ∈ [id] then f row else row).pair = row.pair := by
    split_ifs
    · exact hf row
    · exact ⟨rfl, rfl⟩
  refine ⟨fun h ↦ ⟨(h.ids.modify hid).congr hrows, ?_, ?_⟩, ?_, fun row hrow ↦ .inl ?_, fun row' hrow' ↦ .inl ?_⟩
  · have hpairs : (TeamMember.pair ∘ fun row ↦ if row.id ∈ [id] then f row else row) =
        TeamMember.pair := funext fun row ↦ (hstep row).2
    rw [commit_db, hmap, map_map, hpairs]
    exact h.pairs
  · intro other hother row' hrow'
    rw [commit_db, hmap] at hrow'
    obtain ⟨row, hrow, rfl⟩ := mem_map.mp hrow'
    rcases mem_cons.mp hother with heq | hother
    · exact absurd heq.symm (hevent other)
    · rw [(hstep row).1]
      exact h.removed other hother row hrow
  · refine .congr (keptExcept_modify hid ?_) hrows
    simpa using hlock
  · exact ⟨_, hmap ▸ mem_map_of_mem hrow, hstep row⟩
  · rw [hmap] at hrow'
    obtain ⟨row, hrow, rfl⟩ := mem_map.mp hrow'
    exact ⟨row, hrow, (hstep row).2.symm⟩

theorem append {row : TeamMember} (hrows : db.members = w.db.members ++ [row])
    (hlock : (.member row.id, .exclusive) ∈ held) (hpair : (.memberOf row.pair, .exclusive) ∈ held)
    (hfresh : ∀ old ∈ w.db.members, old.id ≠ row.id ∧ old.pair ≠ row.pair)
    (hnew : .memberRemoved row.id ∉ w.log) : MemberStep held w (.memberAdded row.id) db where
  wellFormed h :=
    { ids := (h.ids.append fun old hold ↦ (hfresh old hold).1).congr hrows
      pairs := by
        rw [commit_db, hrows]
        exact nodup_map_append h.pairs fun old hold ↦ (hfresh old hold).2
      removed := by
        intro id hid old hold
        have hlogged : .memberRemoved id ∈ w.log := by simpa using hid
        rw [commit_db, hrows, mem_append, mem_singleton] at hold
        rcases hold with hold | rfl
        · exact h.removed id hlogged old hold
        · rintro rfl
          exact hnew hlogged }
  kept := by
    have happend : memberTable.rows db = memberTable.rows (memberTable.append [row] w.db) := hrows
    refine .congr (keptExcept_append ?_) happend
    simpa [memberTable] using hlock
  identity old hold := .inl ⟨old, hrows ▸ mem_append_left _ hold, rfl, rfl⟩
  claims row' hrow' := by
    rw [hrows, mem_append, mem_singleton] at hrow'
    rcases hrow' with hold | rfl
    · exact .inl ⟨row', hold, rfl⟩
    · exact .inr hpair

theorem remove (hrows : db.members = (memberTable.remove [id] w.db).members) (hlock : (.member id, .exclusive) ∈ held) :
    MemberStep held w (.memberRemoved id) db := by
  have hfilter : db.members = w.db.members.filter fun row ↦ row.id ∉ [id] := hrows
  refine ⟨fun h ↦ ⟨h.ids.remove.congr hrows, ?_, ?_⟩, ?_, fun row hrow ↦ ?_, fun row' hrow' ↦ .inl ?_⟩
  · rw [commit_db, hfilter]
    exact h.pairs.sublist (filter_sublist.map _)
  · intro other hother row hrow
    rw [commit_db, hfilter, mem_filter] at hrow
    rcases mem_cons.mp hother with heq | hother
    · obtain rfl := Event.memberRemoved.inj heq
      simpa using hrow.2
    · exact h.removed other hother row hrow.1
  · refine .congr (keptExcept_remove ?_) hrows
    simpa using hlock
  · by_cases hid : row.id = id
    · exact .inr (hid ▸ rfl)
    · exact .inl ⟨row, by simpa [hfilter] using ⟨hrow, hid⟩, rfl, rfl⟩
  · rw [hfilter] at hrow'
    exact ⟨row', mem_of_mem_filter hrow', rfl⟩

end MemberStep

section Covered

variable {db db' : Store}

theorem Store.Covered.mono (h : db.Covered) (hteams : db'.teams = db.teams)
    (hmembers : ∀ row' ∈ db'.members, row'.keyDistributed = true → row' ∈ db.members ∧
        ∀ version, db.HasKey (row'.teamId, row'.userId, version) →
          db'.HasKey (row'.teamId, row'.userId, version)) : db'.Covered := by
  intro row hrow hactive hdistributed team hteam
  obtain ⟨hold, hkeys⟩ := hmembers row hrow hdistributed
  rw [hteams] at hteam
  exact hkeys _ (h row hold hactive hdistributed team hteam)

variable {key : Uuid × Uuid × Nat}

theorem hasKey_append {rows : List TeamMemberKey} (hrows : db'.memberKeys = db.memberKeys ++ rows) :
    db'.HasKey key ↔ db.HasKey key ∨ ∃ row ∈ rows, memberKeyTable.key row = key := by
  simp only [Store.HasKey, hrows, mem_append, or_and_right, exists_or]

variable {keys : List (Uuid × Uuid × Nat)}

theorem hasKey_modify {f : TeamMemberKey → TeamMemberKey}
    (hf : ∀ row, memberKeyTable.key (f row) = memberKeyTable.key row)
    (hrows : db'.memberKeys = (memberKeyTable.modify keys f db).memberKeys) (h : db.HasKey key) :
    db'.HasKey key := by
  obtain ⟨row, hrow, rfl⟩ := h
  have hmap := hrows.trans (memberKeyTable.rows_modify keys f)
  refine ⟨_, hmap ▸ mem_map_of_mem hrow, ?_⟩
  split_ifs
  · exact hf row
  · rfl

theorem hasKey_remove (hrows : db'.memberKeys = (memberKeyTable.remove keys db).memberKeys) (hkey : key ∉ keys)
    (h : db.HasKey key) :
    db'.HasKey key := by
  obtain ⟨row, hrow, rfl⟩ := h
  have hfilter := hrows.trans (memberKeyTable.rows_remove keys)
  exact ⟨row, hfilter ▸ mem_filter.mpr ⟨hrow, by simpa using hkey⟩, rfl⟩

end Covered

section Commits

variable {w v : World Store Event} {stand : Stand Store Lock Event} {tenantId : Uuid} {held : Locks} {db : Store}
  {seen row : TeamMember} {invitation : TeamInvitation}

theorem coverage_rotation {req : RotateRequest} (htrace : RotationTrace req tenantId stand) :
    coverageContract.Commits stand req.event := by
  rintro w' - ⟨-, hcovers⟩
  rw [htrace.writes]
  have hkept : memberKeyTable.KeptExcept .memberKey stand.held w'.db (req.write tenantId w'.db) :=
    (keptExcept_append htrace.keyLocks).congr rfl
  refine ⟨.of_eq rfl fun _ ↦ nofun, hkept, fun _ hcovered row hrow hactive hdistributed team hteam ↦ ?_⟩
  rw [hasKey_append rfl]
  by_cases hid : row.teamId = req.teamId
  · refine .inr ?_
    have huser : row.userId ∈ w'.db.distributed req.teamId :=
      mem_map_of_mem (mem_filter.mpr ⟨hrow, by simp [hid, hactive, hdistributed]⟩)
    obtain ⟨input, hinput, hinputUser⟩ := mem_map.mp (hcovers row.userId huser)
    have hversion : team.teamKeyVersion = req.newTeamKeyVersion := by
      simp only [RotateRequest.write, hid, Function.update_self, Option.map_eq_some_iff] at hteam
      obtain ⟨old, -, rfl⟩ := hteam
      rfl
    refine ⟨_, mem_map_of_mem hinput, ?_⟩
    simp only [memberKeyTable, RotateRequest.memberKey, hid, hinputUser, hversion]
  · have hteamBefore : w'.db.teams row.teamId = some team := by
      simpa only [RotateRequest.write, Function.update_of_ne hid] using hteam
    exact .inl (hcovered row hrow hactive hdistributed team hteamBefore)

theorem outline_rotateCovered (req : RotateRequest) : Respects coverageContract (rotateTeamKey req) w := by
  refine outline_readAsTeam (fun _ _ ↦ trivial) fun v w' _ _ ↦ ?_
  split
  · trivial
  · trivial
  split
  · trivial
  split
  · trivial
  refine .respond (outline_withTeamTenantRls fun _ _ _ ↦ ?_) fun _ _ ↦ trivial
  exact .mono (returns_rotationBody rfl) fun _ _ htrace ↦ coverage_rotation htrace

theorem returns_upsertMemberKey {row : TeamMemberKey} (hpending : stand.pending = id) :
    Returns coverageContract (upsertMemberKey row) stand fun _ next ↦
      stand.Reaches coverageContract next ∧ ∀ w', coverageContract.Later next.held next.seen w' →
        (next.pending w'.db).members = w'.db.members ∧ (next.pending w'.db).teams = w'.db.teams ∧
        memberKeyTable.KeptExcept .memberKey next.held w'.db (next.pending w'.db) ∧
        (∀ key, w'.db.HasKey key → (next.pending w'.db).HasKey key) ∧
        (next.pending w'.db).HasKey (memberKeyTable.key row) := by
  refine .upsert (fun _ _ ↦ .error) (fun next old hnext hold hsel ↦ ?_) fun next hnext _ ↦ ?_
  · refine .ok ⟨hnext.reaches, fun w' hw ↦ ?_⟩
    have hlock : (.memberKey (memberKeyTable.key old), .exclusive) ∈ next.held :=
      hnext.locked
    rw [hpending] at hold
    have hnow : w'.db.HasKey (memberKeyTable.key row) :=
      ⟨old, (keys_kept.later hw hlock).mpr hold, of_decide_eq_true hsel⟩
    rw [hnext.pending, hpending]
    have hkey (old : TeamMemberKey) : memberKeyTable.key (old.rewrap row.data) = memberKeyTable.key old := rfl
    refine ⟨rfl, rfl, keptExcept_modify hkey ?_, fun key ↦ hasKey_modify hkey rfl, hasKey_modify hkey rfl hnow⟩
    simpa using hlock
  · refine .ok ⟨hnext.reaches, fun w' _ ↦ ?_⟩
    rw [hnext.pending, hpending]
    refine ⟨rfl, rfl, keptExcept_append ?_, fun key h ↦ (hasKey_append rfl).mpr (.inl h),
      (hasKey_append rfl).mpr (.inr ⟨row, mem_singleton_self _, rfl⟩)⟩
    simpa using hnext.locked

theorem returns_updateMember {c : Contract Store Lock Event} {teamId memberId : Uuid} {f : TeamMember → TeamMember} :
    Returns c (updateMember teamId memberId f) stand fun _ next ↦ stand.Reaches c next ∧
      (.member memberId, .exclusive) ∈ next.held ∧
      next.pending = memberTable.modify [memberId] f ∘ stand.pending :=
  Returns.updateKey fun _ _ ↦ of_decide_and

theorem coverage_frame (hmembers : db.members = w.db.members) (hteams : db.teams = w.db.teams)
    (hkeys : db.memberKeys = w.db.memberKeys) :
    CoverageEffect held w .other db := by
  refine ⟨.of_eq hmembers fun _ ↦ nofun, .of_rows_eq hkeys, fun _ hcovered ↦
    hcovered.mono hteams fun row hrow _ ↦ ⟨hmembers ▸ hrow, fun version h ↦ ?_⟩⟩
  simpa only [Store.HasKey, hkeys] using h

theorem commits_nothing (hpending : stand.pending = id) : coverageContract.Commits stand .other := by
  intro w' _ _
  rw [hpending]
  exact coverage_frame rfl rfl rfl

variable {userId : Uuid} {req : AcceptRequest}

theorem returns_distributeKey {req : ConfirmRequest} (hpending : stand.pending = id)
    (hlater : coverageContract.Later [] v stand.seen) (hseen : seen ∈ v.db.members) (hid : seen.id = req.memberId)
    (hpair : seen.pair = (req.teamId, userId)) :
    Earns coverageContract (distributeKey req userId) stand fun result ↦ req.event userId result := by
  refine .read fun first hfirst ↦ ?_
  have hfirstPending := hfirst.pending.trans hpending
  split
  · exact .ok (commits_nothing hfirstPending)
  split
  · exact .ok (commits_nothing hfirstPending)
  refine Returns.andThen (returns_upsertMemberKey hfirstPending) ?_
  rintro _ second ⟨hsecond, hkeys⟩
  refine .andThen returns_updateMember ?_
  rintro _ final ⟨hfinal, hlock, hfinalPending⟩
  refine .ok ?_
  rintro w' hw ⟨-, hcurrent⟩
  obtain ⟨hmembers, hteams, hkept, hforth, hnew⟩ := hkeys w' (hfinal.until hw)
  rw [hfinalPending]
  have hrows : (memberTable.modify [req.memberId] TeamMember.distribute (second.pending w'.db)).members =
      (memberTable.modify [req.memberId] TeamMember.distribute w'.db).members :=
    congrArg (map _) hmembers
  refine ⟨.modify hrows hlock (fun _ ↦ ⟨rfl, rfl⟩) fun _ ↦ nofun, (hkept.mono hfinal.held).congr rfl, ?_⟩
  intro hwell hcovered row' hrow' hactive hdistributed team hteam
  have hteamBefore : w'.db.teams row'.teamId = some team := hteams ▸ hteam
  rw [Function.comp_apply, hrows] at hrow'
  obtain ⟨row, hrow, rfl⟩ := mem_map.mp hrow'
  split_ifs at hactive hdistributed hteamBefore ⊢ with hmember
  · have hsame : row.pair = seen.pair :=
      pair_eq_of_later (((hlater.trans hfirst.later.nil).trans hsecond.later.nil).trans
        (hfinal.until hw).nil) hwell hseen hid hrow (mem_singleton.mp hmember)
    obtain ⟨hrowTeam, hrowUser⟩ := Prod.mk.inj (hsame.trans hpair)
    have hversion : team.teamKeyVersion = req.keyVersion := by
      have hteamReq : w'.db.teams req.teamId = some team := hrowTeam ▸ hteamBefore
      simpa [ConfirmRequest.event, hteamReq] using hcurrent
    change Store.HasKey _ (row.teamId, row.userId, team.teamKeyVersion)
    rw [hrowTeam, hrowUser, hversion]
    exact hnew
  · exact hforth _ (hcovered row hrow hactive hdistributed team hteamBefore)

theorem outline_confirmKey (req : ConfirmRequest) : Respects coverageContract (confirmKey req) w := by
  refine outline_readAsTeam (fun _ _ ↦ trivial) fun v w' _ hw' ↦ ?_
  refine .readOnly fun v' w'' hv' hw'' ↦ ?_
  split
  · trivial
  next userId htarget =>
  refine .respond (outline_withTeamTenantRls fun _ begun hbegun ↦ ?_) fun result _ ↦ ?_
  · unfold ConfirmRequest.checkTarget at htarget
    split at htarget
    · cases htarget
    next seen hseen =>
    split_ifs at htarget with hteam
    simp only [ne_eq, Bool.or_eq_true, decide_eq_true_eq, not_or, not_not] at hteam
    obtain rfl := Except.ok.inj htarget
    refine .read fun first hfirst ↦ ?_
    split
    · exact .ok (commits_nothing hfirst.pending)
    split
    · exact .ok (commits_nothing hfirst.pending)
    split
    · exact .ok (commits_nothing hfirst.pending)
    exact returns_distributeKey hfirst.pending ((hw'.trans (hv'.trans hw'')).trans (hbegun.trans hfirst.later.nil))
      (mem_of_find?_eq_some hseen) (by simpa using find?_some hseen)
      (by rw [TeamMember.pair, hteam.1])
  · cases result with
    | error thrown => trivial
    | ok distributed => cases distributed <;> trivial

theorem coverage_reactivate {id : Uuid} {role : TeamRole} (hlock : (.member id, .exclusive) ∈ held)
    (hmembers : db.members = (memberTable.modify [id] (.reactivate role) w.db).members)
    (hteams : db.teams = w.db.teams) (hkept : memberKeyTable.KeptExcept .memberKey held w.db db)
    (hkeys : MembersWellFormed w → ∀ row ∈ w.db.members, row.id ≠ id → ∀ version,
      w.db.HasKey (row.teamId, row.userId, version) → db.HasKey (row.teamId, row.userId, version)) :
    CoverageEffect held w .other db := by
  refine ⟨.modify hmembers hlock (fun _ ↦ ⟨rfl, rfl⟩) fun _ ↦ nofun, hkept, fun hwell hcovered ↦
    hcovered.mono hteams fun row' hrow' hdistributed ↦ ?_⟩
  rw [hmembers] at hrow'
  obtain ⟨row, hrow, rfl⟩ := mem_map.mp hrow'
  split_ifs at hdistributed ⊢ with hid
  · cases hdistributed
  · exact ⟨hrow, hkeys hwell row hrow fun h ↦ hid (h ▸ mem_singleton_self _)⟩

theorem coverage_append (hlock : (.member row.id, .exclusive) ∈ held)
    (hpair : (.memberOf row.pair, .exclusive) ∈ held)
    (hfresh : ∀ old ∈ w.db.members, old.id ≠ row.id ∧ old.pair ≠ row.pair) (hnew : .memberRemoved row.id ∉ w.log)
    (hflag : row.keyDistributed = false) (hmembers : db.members = w.db.members ++ [row])
    (hteams : db.teams = w.db.teams) (hkeys : db.memberKeys = w.db.memberKeys) :
    CoverageEffect held w (.memberAdded row.id) db := by
  refine ⟨.append hmembers hlock hpair hfresh hnew, .of_rows_eq hkeys, fun _ hcovered ↦
    hcovered.mono hteams fun row' hrow' hdistributed ↦ ?_⟩
  rw [hmembers, mem_append, mem_singleton] at hrow'
  rcases hrow' with hold | rfl
  · exact ⟨hold, fun version h ↦ by simpa only [Store.HasKey, hkeys] using h⟩
  · rw [hflag] at hdistributed
    cases hdistributed

theorem fresh_later (hlock : (.member row.id, .exclusive) ∈ stand.held)
    (hpair : (.memberOf row.pair, .exclusive) ∈ stand.held) (hw : coverageContract.Later stand.held stand.seen w)
    (hfresh : ∀ old ∈ stand.seen.db.members, old.id ≠ row.id ∧ old.pair ≠ row.pair) :
    ∀ old ∈ w.db.members, old.id ≠ row.id ∧ old.pair ≠ row.pair := fun old hold ↦
  ⟨members_kept.absent hw hlock (fun old hold ↦ (hfresh old hold).1) old hold,
    pairs_claimed.absent hw hpair (fun old hold ↦ (hfresh old hold).2) old hold⟩

theorem returns_acceptBody :
    Earns coverageContract (acceptBody req invitation tenantId) (.idle w) req.event := by
  refine .updateSome fun claimed keys count hclaimed hclaimedPending ↦ ?_
  -- Nothing but the invitation has changed so far.
  have hframe (db : Store) : (claimed.pending db).members = db.members ∧
      (claimed.pending db).teams = db.teams ∧ (claimed.pending db).memberKeys = db.memberKeys := by
    rw [hclaimedPending]
    exact ⟨rfl, rfl, rfl⟩
  split
  · refine .ok fun w' _ _ ↦ ?_
    exact coverage_frame (hframe w'.db).1 (hframe w'.db).2.1 (hframe w'.db).2.2
  refine .upsert (fun _ _ ↦ .error) (fun next old hnext hold hsel ↦ ?_) fun next hnext hfresh ↦ ?_
  · refine .ok fun w' hw _ ↦ ?_
    obtain ⟨hmembers, hteams, hkeys⟩ := hframe w'.db
    rw [hnext.pending]
    refine coverage_reactivate (hnext.locked)
      (congrArg (map _) hmembers) hteams (.of_rows_eq hkeys) fun _ row _ _ version h ↦ ?_
    change ∃ key ∈ (claimed.pending w'.db).memberKeys, _
    rw [hkeys]
    exact h
  · refine .ok ?_
    rintro w' hw ⟨hnew, -⟩
    obtain ⟨hmembers, hteams, hkeys⟩ := hframe w'.db
    have hlock : (.member (req.member tenantId invitation).id, .exclusive) ∈ next.held :=
      hnext.mem_held (mem_cons_of_mem _ (mem_singleton_self _))
    have hpair : (.memberOf (req.member tenantId invitation).pair, .exclusive) ∈ next.held :=
      hnext.locked
    refine coverage_append hlock hpair (fresh_later hlock hpair hw fun old hold ↦ ?_) hnew rfl ?_ ?_ ?_
    · have hbefore : old ∈ (claimed.pending next.seen.db).members := by
        rw [(hframe _).1]
        exact hold
      obtain ⟨hsel, hid⟩ := hfresh old hbefore
      refine ⟨hid, fun heq ↦ ?_⟩
      obtain ⟨hteam, huser⟩ := Prod.mk.inj heq
      simp [hteam, huser, AcceptRequest.member] at hsel
    · rw [hnext.pending]
      exact congrArg (· ++ _) hmembers
    · rw [hnext.pending]
      exact hteams
    · rw [hnext.pending]
      exact hkeys

theorem outline_settleOnly {status : InvitationStatus} {response : Except Refusal Unit} :
    Respects coverageContract (settleOnly invitation status response) w := by
  refine .respond (outline_withTeamTenantRls fun _ _ _ ↦ ?_) fun result _ ↦ ?_
  · refine .updateSome fun next keys count _ hpending ↦ .ok fun w' _ _ ↦ ?_
    rw [hpending]
    exact coverage_frame rfl rfl rfl
  · cases result <;> trivial

theorem outline_acceptAsNew : Respects coverageContract (acceptAsNew req invitation) w := by
  refine .readOnly fun v w' _ _ ↦ ?_
  split
  · trivial
  refine .respond (outline_withTeamTenantRls fun _ _ _ ↦ returns_acceptBody) fun result _ ↦ ?_
  rcases result with _ | accepted
  · trivial
  · cases accepted <;> trivial

theorem outline_acceptInvitation {toLowerCase : String → String} (req : AcceptRequest) :
    Respects coverageContract (acceptInvitation toLowerCase req) w := by
  refine .readOnly fun v w' _ _ ↦ ?_
  split
  · trivial
  split
  · trivial
  split
  · exact outline_settleOnly
  split
  · trivial
  refine outline_readAsTeam (fun _ _ ↦ trivial) fun v' w'' _ _ ↦ ?_
  split
  · trivial
  · exact outline_acceptAsNew
  split
  · exact outline_settleOnly
  split
  · trivial
  · exact outline_acceptAsNew

theorem pair_ne_of_ne {first : World Store Event} {now : TeamMember} {id : Uuid}
    (hlater : coverageContract.Later [] first w) (hw : MembersWellFormed w) (hseen : seen ∈ first.db.members)
    (hseenId : seen.id = id) (hnow : now ∈ w.db.members) (hnowId : now.id = id) (hrow : row ∈ w.db.members)
    (hid : row.id ≠ id) :
    row.pair ≠ seen.pair := by
  intro hpair
  have hnowPair := pair_eq_of_later hlater hw hseen hseenId hnow hnowId
  obtain rfl := inj_on_of_nodup_map hw.pairs hrow hnow (hpair.trans hnowPair.symm)
  exact hid hnowId

section KeysOf

variable {teamId userId : Uuid}

def KeysOf (pair : Uuid × Uuid) (keys : List (Uuid × Uuid × Nat)) : Prop :=
  ∀ key ∈ keys, (key.1, key.2.1) = pair

theorem KeysOf.hasKey {keys : List (Uuid × Uuid × Nat)} {pair : Uuid × Uuid} (hkeys : KeysOf pair keys)
    {db db' : Store} (hrows : db'.memberKeys = (memberKeyTable.remove keys db).memberKeys) {row : TeamMember}
    (hrow : row.pair ≠ pair) {version : Nat} (h : db.HasKey (row.teamId, row.userId, version)) :
    db'.HasKey (row.teamId, row.userId, version) :=
  hasKey_remove hrows (fun hmem ↦ hrow (hkeys _ hmem)) h

theorem outline_deleteKeysOf {c : Contract Store Lock Event} {α : Type} {k : Nat → Server α}
    {post : α → Stand Store Lock Event → Prop}
    (h : ∀ next keys count, stand.Reaches c next → next.pending = memberKeyTable.remove keys ∘ stand.pending →
      (∀ key ∈ keys, (.memberKey key, .exclusive) ∈ next.held) → KeysOf (teamId, userId) keys →
      Outline c (k count) next post) :
    Outline c (Prog.deleteMany memberKeyTable .memberKey
      (fun row ↦ row.teamId = teamId && row.userId = userId) >>= k) stand post := by
  refine .deleteSelected fun next keys count hreaches hpending hkeys ↦ ?_
  refine h next keys count hreaches hpending (fun key hkey ↦ (hkeys key hkey).1) fun key hkey ↦ ?_
  obtain ⟨-, row, hsel, rfl⟩ := hkeys key hkey
  simpa [memberKeyTable] using hsel

end KeysOf

theorem returns_reactivateMember {req : AddMemberRequest} {existing : TeamMember} (hpending : stand.pending = id)
    (hexisting : existing ∈ stand.seen.db.members) (hpair : existing.pair = (req.teamId, req.userId)) :
    Earns coverageContract (reactivateMember req existing) stand req.event := by
  refine outline_deleteKeysOf fun deleted keys _ hdeleted hdeletedPending hlocks hkeys ↦ ?_
  refine .updateKey (fun final count hfinal hfinalPending hlock hfound ↦ ?_) (fun _ _ _ ↦ .error)
    fun _ _ ↦ of_decide_eq_true
  split
  · exact .error
  refine .ok fun w' hw _ ↦ ?_
  obtain ⟨-, now, hnow, hnowSel⟩ := hfound
  have hnowId : now.id = existing.id := of_decide_eq_true hnowSel
  rw [hdeletedPending, hpending] at hnow
  have hnowLater : now ∈ w'.db.members := (members_kept.later hw (hnowId ▸ hlock)).mpr hnow
  rw [hfinalPending, hdeletedPending, hpending]
  refine coverage_reactivate hlock rfl rfl ?_ fun hwell row hrow hid version ↦ ?_
  · exact (keptExcept_remove fun key hkey ↦ hfinal.held (hlocks key hkey)).congr rfl
  · refine hkeys.hasKey rfl (hpair ▸ ?_)
    exact pair_ne_of_ne ((hdeleted.trans hfinal).until hw).nil hwell hexisting rfl hnowLater hnowId hrow hid

theorem returns_createMember (hpending : stand.pending = id) (hflag : row.keyDistributed = false) :
    Returns coverageContract (createMember row) stand fun result after ↦
      result = .created ∧ coverageContract.Commits after (.memberAdded row.id) := by
  refine Returns.insert fun final hfinal hfresh ↦ .ok ⟨rfl, ?_⟩
  rintro w' hw ⟨hnew, -⟩
  have hlock : (.member row.id, .exclusive) ∈ final.held := hfinal.locked
  have hpair : (.memberOf row.pair, .exclusive) ∈ final.held :=
    hfinal.mem_held (mem_cons_of_mem _ (mem_singleton_self _))
  rw [hpending, any_eq_false] at hfresh
  have hfreshNow : ∀ old ∈ final.seen.db.members, old.id ≠ row.id ∧ old.pair ≠ row.pair := by
    intro old hold
    have hclash := hfresh old hold
    simp only [Bool.or_eq_true, decide_eq_true_eq, Bool.and_eq_true, not_or] at hclash
    exact ⟨hclash.1, fun heq ↦ hclash.2 (Prod.mk.inj heq)⟩
  rw [hfinal.pending, hpending]
  exact coverage_append hlock hpair (fresh_later hlock hpair hw hfreshNow) hnew hflag rfl rfl rfl

theorem returns_addBody {req : AddMemberRequest} :
    Earns coverageContract (addBody req tenantId) (.idle w) req.event := by
  refine .read fun first hfirst ↦ ?_
  split
  · exact .error
  refine .read fun second hsecond ↦ ?_
  have hpending := hsecond.pending.trans hfirst.pending
  split
  · refine Returns.mono (returns_createMember hpending rfl) ?_
    rintro _ after ⟨rfl, hcommits⟩
    exact hcommits
  next existing hexisting =>
  split
  · exact .error
  split
  · exact .error
  rw [hfirst.pending] at hexisting
  refine returns_reactivateMember hpending (mem_of_find?_eq_some hexisting) ?_
  simpa [TeamMember.pair] using find?_some hexisting

theorem outline_addMember (req : AddMemberRequest) : Respects coverageContract (addMember req) w := by
  unfold addMember
  split
  · trivial
  refine .respond (outline_withTeamTenantRls fun _ _ _ ↦ returns_addBody) fun result _ ↦ ?_
  cases result <;> trivial

theorem returns_removeBody {req : RemoveMemberRequest} (hlater : coverageContract.Later [] v w)
    (hseen : seen ∈ v.db.members) (hid : seen.id = req.memberId) (hpair : seen.pair = (req.teamId, userId)) :
    Earns coverageContract (removeBody req userId) (.idle w) fun _ ↦ .memberRemoved req.memberId := by
  refine outline_deleteKeysOf fun deleted keys _ hdeleted hdeletedPending hlocks hkeys ↦ ?_
  refine .deleteKey (fun _ ↦ of_decide_and) (fun _ _ _ ↦ .error)
    fun final count hfinal hfinalPending hlock hfound ↦ ?_
  split
  · exact .error
  refine .ok fun w' hw _ ↦ ?_
  obtain ⟨now, hnow, hnowSel⟩ := hfound
  have hnowId : now.id = req.memberId := of_decide_and hnowSel
  rw [hdeletedPending] at hnow
  have hnowLater : now ∈ w'.db.members := (members_kept.later hw (hnowId ▸ hlock)).mpr hnow
  rw [hfinalPending, hdeletedPending]
  refine ⟨.remove rfl hlock, ?_, fun hwell hcovered ↦ hcovered.mono rfl fun row hrow _ ↦ ?_⟩
  · exact (keptExcept_remove fun key hkey ↦ hfinal.held (hlocks key hkey)).congr rfl
  · obtain ⟨hbefore, hother⟩ := mem_filter.mp hrow
    refine ⟨hbefore, fun version ↦ hkeys.hasKey rfl (hpair ▸ ?_)⟩
    exact pair_ne_of_ne (hlater.trans ((hdeleted.trans hfinal).until hw).nil) hwell hseen hid hnowLater
      hnowId hbefore (by simpa [memberTable] using hother)

theorem outline_removeMember (req : RemoveMemberRequest) : Respects coverageContract (removeMember req) w := by
  refine outline_readAsTeam (fun _ _ ↦ trivial) fun v w' _ hw' ↦ ?_
  dsimp only
  split
  · trivial
  next userId htarget =>
  refine .respond (outline_withTeamTenantRls fun _ begun hbegun ↦ ?_) fun result _ ↦ ?_
  · unfold RemoveMemberRequest.checkTarget at htarget
    split at htarget
    · cases htarget
    next seen hseen =>
    split_ifs at htarget with hteam
    simp only [ne_eq, Bool.or_eq_true, decide_eq_true_eq, not_or, not_not] at hteam
    obtain rfl := Except.ok.inj htarget
    exact returns_removeBody (hw'.trans hbegun) (mem_of_find?_eq_some hseen)
      (by simpa using find?_some hseen) (by rw [TeamMember.pair, hteam.1])
  · cases result <;> trivial

end Commits

/-- The requests that write team keys and members. -/
inductive KeyRequest
  | rotate (req : RotateRequest)
  | confirm (req : ConfirmRequest)
  | accept (toLowerCase : String → String) (req : AcceptRequest)
  | add (req : AddMemberRequest)
  | remove (req : RemoveMemberRequest)

/-- The program of a request. -/
def KeyRequest.serve : KeyRequest → Server (Except Refusal Unit)
  | .rotate req => rotateTeamKey req
  | .confirm req => confirmKey req
  | .accept toLowerCase req => acceptInvitation toLowerCase req
  | .add req => addMember req
  | .remove req => removeMember req

theorem outline_keyRequest {w : World Store Event} (req : KeyRequest) : Respects coverageContract req.serve w := by
  cases req with
  | rotate req => exact outline_rotateCovered req
  | confirm req => exact outline_confirmKey req
  | accept toLowerCase req => exact outline_acceptInvitation req
  | add req => exact outline_addMember req
  | remove req => exact outline_removeMember req

/-- Teams whose member rows are unique and whose members are covered. -/
structure CoveredTeams where
  store : Store
  ids : memberTable.KeysUnique store
  pairs : (store.members.map TeamMember.pair).Nodup
  covered : store.Covered

/-- In every run in which distributions commit while their version is current and rotations while
they have a key for every member to whom the key is distributed, every active member with a
distributed key has a key of the current version of the team key. -/
theorem keys_covered {ι : Type} [DecidableEq ι] (teams : CoveredTeams) (requests : ι → KeyRequest)
    {s : State ι Store Lock Event (Except Refusal Unit)}
    (hrun : Run Undisturbed (State.start ⟨teams.store, []⟩ fun i ↦ (requests i).serve) s) :
    s.world.db.Covered := by
  have hinvariant : MembersWellFormed s.world ∧ s.world.db.Covered := by
    refine Run.invariant (c := coverageContract) (fun w ↦ MembersWellFormed w ∧ w.db.Covered) hrun
      (fun i ↦ outline_keyRequest (requests i))
      ⟨⟨teams.ids, teams.pairs, nofun⟩, teams.covered⟩ ?_
    rintro held w event db ⟨hwell, hcovered⟩ heffect
    exact ⟨heffect.wellFormed hwell, heffect.covered hwell hcovered⟩
  exact hinvariant.2

def someKeyData : MemberKeyData := ⟨"k", "i", "t", "p", "s", 1⟩

/-- A member of team `1`. -/
def someMember (id userId : Uuid) (role : TeamRole) (keyDistributed : Bool) : TeamMember :=
  ⟨id, 1, userId, 1, role, keyDistributed, none, false⟩

/-- A team with an owner, `1`, who has the key, and a member, `2`, who does not have it yet. -/
def teamOfTwo : CoveredTeams where
  store :=
    { teams := fun id ↦ if id = 1 then some ⟨1, 1⟩ else none
      members := [someMember 11 1 .owner true, someMember 12 2 .member false]
      memberKeys := [⟨1, 1, 1, 1, someKeyData⟩]
      invitations := []
      entries := []
      histories := []
      folders := []
      tags := []
      tenantMembers := []
      ecdhPublicKeys := fun _ ↦ some "p" }
  ids := by decide
  pairs := by decide
  covered := by
    intro row hrow _ hdistributed team hteam
    obtain rfl : row = someMember 11 1 .owner true := by
      simp only [mem_cons, not_mem_nil, or_false] at hrow
      exact hrow.resolve_right fun h ↦ by simp [h, someMember] at hdistributed
    obtain rfl : (⟨1, 1⟩ : Team) = team := Option.some.inj hteam
    exact ⟨_, mem_singleton_self _, rfl⟩

/-- The distribution of a key to the member, and a rotation to version 2. -/
def confirmAndRotate (version : Nat) : Bool → KeyRequest
  | false => .confirm ⟨1, 12, version, someKeyData⟩
  | true => .rotate ⟨1, 2, [], [⟨1, someKeyData⟩]⟩

def confirmStart (version : Nat) : State Bool Store Lock Event (Except Refusal Unit) :=
  State.start ⟨teamOfTwo.store, []⟩ fun i ↦ (confirmAndRotate version i).serve

/-- A rotation that commits between the version check of a distribution and its writes leaves a
member who is flagged as having the key and has only the key of the old version. -/
theorem keys_not_covered : ¬ ∀ (teams : CoveredTeams) (requests : Bool → KeyRequest)
      (s : State Bool Store Lock Event (Except Refusal Unit)),
      Run NewIds (State.start ⟨teams.store, []⟩ fun i ↦ (requests i).serve) s →
      s.world.db.Covered := by
  intro h
  obtain ⟨s, hrun, hteam, hmember, hkeys⟩ := Run.exists_of_schedule (confirmStart 1)
    (fun w ↦ w.db.teams 1 = some ⟨1, 2⟩ ∧ someMember 12 2 .member true ∈ w.db.members ∧
      ∀ key ∈ w.db.memberKeys, memberKeyTable.key key ≠ (1, 2, 2))
    [(10, false), (12, true), (4, false)] NewIds
  obtain ⟨key, hkey, heq⟩ := h teamOfTwo (confirmAndRotate 1) s hrun _ hmember rfl rfl _ hteam
  exact hkeys key hkey heq

/-- The condition can be met: the key is rotated and then distributed. -/
theorem keys_covered_rotated : ∃ s : State Bool Store Lock Event (Except Refusal Unit),
      Run Undisturbed (confirmStart 2) s ∧ s.world.db.teams 1 = some ⟨1, 2⟩ ∧
      someMember 12 2 .member true ∈ s.world.db.members ∧ s.world.db.Covered := by
  obtain ⟨s, hrun, hteam, hmember⟩ := Run.exists_of_schedule (confirmStart 2)
    (fun w ↦ w.db.teams 1 = some ⟨1, 2⟩ ∧ someMember 12 2 .member true ∈ w.db.members)
    [(12, true), (14, false)] Undisturbed
  exact ⟨s, hrun, hteam, hmember, keys_covered teamOfTwo (confirmAndRotate 2) hrun⟩

end PasswdSso.Team
