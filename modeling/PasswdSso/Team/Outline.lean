import PasswdSso.Team.Keys

/-!
# Proof outlines of the team programs

The transactions of `withTeamTenantRls`, and the rotation of a team key, walked through once for any
contract. `RotateRequest.write` is the database that a rotation leaves.
-/

namespace PasswdSso.Team

open ReadCommitted

variable {c : Contract Store Lock Event} {stand : Stand Store Lock Event} {w : World Store Event}

section Shared

variable {α β : Type}

theorem outline_withTeamTenantRls {teamId : Uuid} {label : α → Event} {body : Uuid → Server (Except Thrown α)}
    (hbody : ∀ tenantId w', c.Later [] w w' → Earns c (body tenantId) (.idle w') label) :
    Respects c (withTeamTenantRls teamId label body) w := by
  refine .readOnly fun v w' hv hw' ↦ ?_
  split
  · trivial
  · exact .inTransaction (hbody _ w' (hv.trans hw'))

theorem outline_readAsTeam {teamId : Uuid} {f : Store → α} {k : Except Thrown α → Server β}
    {post : β → Stand Store Lock Event → Prop} (herror : ∀ thrown w', Outline c (k (.error thrown)) (.idle w') post)
    (hok : ∀ v w', c.Later [] w v → c.Later [] v w' → Outline c (k (.ok (f v.db))) (.idle w') post) :
    Outline c (readAsTeam teamId f >>= k) (.idle w) post := by
  rw [outline_bind]
  refine .readOnly fun v w' hv hw' ↦ ?_
  split
  · exact herror _ w'
  · exact .readOnly fun v' w'' hv' hw'' ↦ hok v' w'' ((hv.trans hw').trans hv') hw''

end Shared

section Rotation

variable {req : RotateRequest}

def RotateRequest.rotated (req : RotateRequest) (row : TeamPasswordEntry) : TeamPasswordEntry :=
  entryTable.applyEach req.entries RotateEntry.id (fun entry ↦ entry.apply req.newTeamKeyVersion) row

def RotateRequest.write (req : RotateRequest) (tenantId : Uuid) (db : Store) : Store :=
  { db with
    teams := Function.update db.teams req.teamId
      ((db.teams req.teamId).map fun team ↦ { team with teamKeyVersion := req.newTeamKeyVersion })
    memberKeys := db.memberKeys ++ req.memberKeys.map (req.memberKey tenantId)
    entries := db.entries.map req.rotated }

variable {teamId : Uuid}

theorem returns_checkTeamKeyVersion {version : Nat} :
    Returns c (checkTeamKeyVersion teamId version) stand fun _ next ↦ stand.Step c next [] id := by
  refine .read fun next hnext ↦ ?_
  split
  · exact .ok hnext
  · exact .error

theorem returns_checkMemberKeys : Returns c (checkMemberKeys req) stand fun _ next ↦ stand.Step c next [] id := by
  refine .read fun next hnext ↦ ?_
  split
  · exact .error
  split
  · exact .error
  · exact .ok hnext

theorem nodup_of_idsMatch {submitted stored : List Uuid}
    (h : Vault.idsMatch submitted stored = true) : submitted.Nodup := by
  simp only [Vault.idsMatch, Bool.and_eq_true, decide_eq_true_eq] at h
  exact Multiset.coe_nodup.mp (Multiset.toFinset_card_eq_card_iff_nodup.mp h.1.1.2)

theorem returns_checkEntries : Returns c (checkEntries req) stand fun _ next ↦
      stand.Step c next [] id ∧ (req.entries.map RotateEntry.id).Nodup := by
  refine .read fun next hnext ↦ ?_
  split
  · next hmatch => exact .ok ⟨hnext, nodup_of_idsMatch hmatch⟩
  · exact .error

theorem returns_rotateTeamEntries {newTeamKeyVersion : Nat} (entries : List RotateEntry) :
    Returns c (rotateTeamEntries teamId newTeamKeyVersion entries) stand fun _ next ↦
      stand.Reaches c next ∧
      next.pending = (fun db ↦ entryTable.put db ((entryTable.rows db).map (entryTable.applyEach
        entries RotateEntry.id fun entry ↦ entry.apply newTeamKeyVersion))) ∘ stand.pending ∧
      ∀ entry ∈ entries, (.entry entry.id, .exclusive) ∈ next.held :=
  .each entryTable Lock.entry rfl (fun _ _ _ _ ↦ .updateNext fun _ _ ↦ of_decide_and) entries

theorem returns_createMemberKeys {rows : List TeamMemberKey} :
    Returns c (createMemberKeys rows) stand fun _ next ↦ stand.Reaches c next ∧
      next.pending = memberKeyTable.append rows ∘ stand.pending ∧
      ∀ row ∈ rows, (.memberKey (memberKeyTable.key row), .exclusive) ∈ next.held := by
  refine Returns.insert fun _ hnext _ ↦ ?_
  refine .ok ⟨hnext.reaches, hnext.pending, fun row hrow ↦ hnext.mem_held ?_⟩
  exact List.mem_map_of_mem (List.mem_map_of_mem hrow)

theorem returns_setTeamKeyVersion {version : Nat} :
    Returns c (setTeamKeyVersion teamId version) stand fun _ next ↦ stand.Reaches c next ∧
      next.pending = (Store.setTeam · teamId fun team ↦ { team with teamKeyVersion := version }) ∘ stand.pending := by
  refine .write fun next hnext ↦ ?_
  split
  · exact .ok ⟨hnext.reaches, hnext.pending⟩
  · exact .error

/-- What a rotation that returns has done: it has rewritten every submitted entry, each of them
once, and holds the entries and the keys it creates. -/
structure RotationTrace (req : RotateRequest) (tenantId : Uuid) (final : Stand Store Lock Event) :
    Prop where
  writes : final.pending = req.write tenantId
  nodup : (req.entries.map RotateEntry.id).Nodup
  entryLocks : ∀ entry ∈ req.entries, (.entry entry.id, .exclusive) ∈ final.held
  keyLocks : ∀ row ∈ req.memberKeys.map (req.memberKey tenantId),
    (.memberKey (memberKeyTable.key row), .exclusive) ∈ final.held

theorem returns_rotationBody {team : Team} (hpending : stand.pending = id) :
    Returns c (rotationBody req team) stand fun _ final ↦ RotationTrace req team.tenantId final := by
  refine .andThen returns_checkTeamKeyVersion fun _ first hfirst ↦ ?_
  refine .andThen returns_checkMemberKeys fun _ second hsecond ↦ ?_
  refine .andThen returns_checkEntries ?_
  rintro _ third ⟨hthird, hnodup⟩
  refine .andThen (returns_rotateTeamEntries req.entries) ?_
  rintro _ fourth ⟨hfourth, hentries, hlocks⟩
  refine .andThen returns_createMemberKeys ?_
  rintro _ fifth ⟨hfifth, hkeys, hkeyLocks⟩
  refine .mono returns_setTeamKeyVersion ?_
  rintro _ final ⟨hfinal, hteam⟩
  refine ⟨?_, hnodup, fun entry hentry ↦ (hfifth.trans hfinal).held (hlocks entry hentry),
    fun row hrow ↦ hfinal.held (hkeyLocks row hrow)⟩
  rw [hteam, hkeys, hentries, hthird.pending, hsecond.pending, hfirst.pending, hpending]
  rfl

end Rotation

end PasswdSso.Team
