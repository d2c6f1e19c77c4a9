import PasswdSso.Mcp.Outline

/-!
# Finality of family revocation

Once a revocation of a family has committed, no refresh token of the family should be usable and no
access token issued to it live. The compare-and-swap of a rotation tests only `rotatedAt`, and a
revocation only stamps the rows that it finds, so the two can pass each other: a rotation that
validated its token before the revocation commits a live pair after it
(`familyRevocation_not_final`). The property holds in every run in which no rotation commits on a
token that is revoked by then, and no revocation commits while a rotation of the family has
committed since it began (`familyRevocation_final`).
-/

namespace PasswdSso.Mcp

open ReadCommitted

/-- No refresh token of the family is both unrotated and unrevoked, and every access token issued
with one of them is revoked. -/
def Store.FamilyDead (db : Store) (familyId : Uuid) : Prop :=
  ∀ row ∈ db.refreshTokens, row.familyId = familyId → ¬ (row.rotatedAt = none ∧ row.revokedAt = none) ∧
      ∀ access ∈ db.accessTokens, access.id = row.accessTokenId → access.revokedAt ≠ none

instance (db : Store) (familyId : Uuid) : Decidable (db.FamilyDead familyId) :=
  inferInstanceAs (Decidable (∀ row ∈ db.refreshTokens, _ → _ ∧ ∀ access ∈ db.accessTokens, _ → _))

/-- Every family whose revocation has committed is dead. -/
def RevokedFamiliesDead (w : World Store Event) : Prop :=
  ∀ familyId, .revokedFamily familyId ∈ w.log → w.db.FamilyDead familyId

/-- The condition on a commit: a rotation commits on a token that is not revoked by then, and no
rotation of the family committed while a family revocation was open. -/
def Undisturbed (event : Event) (overlap : List Event) (w : World Store Event) : Prop :=
  match event with
  | .rotated id _ => ∀ row ∈ w.db.refreshTokens, row.id = id → row.revokedAt = none
  | .revokedFamily familyId => ∀ other ∈ overlap, other.rotates familyId = false
  | _ => True

instance (event : Event) (overlap : List Event) (w : World Store Event) : Decidable (Undisturbed event overlap w) := by
  cases event <;> dsimp only [Undisturbed] <;> infer_instance

variable {hashToken : String → String} {held : Locks} {overlap : List Event} {db db' : Store}
  {event : Event}

theorem Effect.familyDead {familyId : Uuid} (h : Effect hashToken held overlap db event db') (hdb : db.WellFormed)
    (hdead : db.FamilyDead familyId) (hother : ∀ id, event ≠ .rotated id familyId) : db'.FamilyDead familyId := by
  rintro row hrow rfl
  rcases h.refresh_advances.back row hrow with ⟨old, hold, hbecomes⟩ | ⟨id, hid⟩
  · obtain ⟨hstamped, haccess⟩ := hdead old hold hbecomes.familyId_eq.symm
    constructor
    · rintro ⟨hrotated, hrevoked⟩
      exact hstamped ⟨not_ne_iff.mp fun hne ↦ hbecomes.rotated hne hrotated, hbecomes.live hrevoked⟩
    · intro access hmem hid
      rw [hbecomes.accessTokenId_eq] at hid
      rcases h.access_advances.back access hmem with ⟨first, hfirst, hfirstBecomes⟩ | hnew
      · exact hfirstBecomes.revoked (haccess first hfirst (hfirstBecomes.id_eq.symm.trans hid))
      · obtain ⟨paired, hpaired, hpairedId⟩ := hdb.paired old hold
        exact absurd (hpairedId.trans hid.symm) (hnew paired hpaired)
  · exact absurd hid (hother id)

theorem familyDead_revoke {familyId : Uuid} {refreshIds accessIds : List Uuid}
    {times : Millis × Millis} (h : Covers db familyId refreshIds accessIds) :
    (db.revoke refreshIds accessIds times).FamilyDead familyId := by
  intro row hrow hfamily
  obtain ⟨old, hold, rfl⟩ := List.mem_map.mp hrow
  have hbecomes : old.Becomes (if refreshTable.key old ∈ refreshIds then old.revoke times.1 else old) := by
    split_ifs
    · exact old.becomes_revoke times.1
    · exact .refl old
  obtain ⟨hlive, haccess⟩ := h old hold (hbecomes.familyId_eq.symm.trans hfamily)
  constructor
  · rintro ⟨-, hrevoked⟩
    split_ifs at hrevoked with hlisted
    · exact Option.some_ne_none _ hrevoked
    · exact hlisted (hlive hrevoked)
  · intro access hmem hid hrevoked
    obtain ⟨first, hfirst, rfl⟩ := List.mem_map.mp hmem
    rw [hbecomes.accessTokenId_eq] at hid
    split_ifs at hid hrevoked with hlisted
    · exact Option.some_ne_none _ hrevoked
    · exact hlisted (haccess first hfirst hid hrevoked)

theorem Effect.revokedFamiliesDead {w : World Store Event} (hw : w.db.WellFormed) (hdead : RevokedFamiliesDead w)
    (hundisturbed : Undisturbed event overlap w) (h : Effect hashToken held overlap w.db event db) :
    RevokedFamiliesDead (w.commit event db) := by
  intro familyId hmem
  rw [World.commit_log, List.mem_cons] at hmem
  rcases hmem with rfl | hold
  · cases h with
    | revokedFamily hcovers hrefresh haccess =>
      refine familyDead_revoke (hcovers fun id hrotated ↦ ?_)
      simpa [Event.rotates] using hundisturbed _ hrotated
  · refine h.familyDead hw (hdead familyId hold) ?_
    rintro id rfl
    -- the rotated token is unrotated and, by the condition, unrevoked: its family is not dead
    cases h with
    | @rotated req rt hrow hunrotated haccess hrefresh hheld =>
      exact (hdead _ hold rt hrow rfl).1 ⟨hunrotated, hundisturbed rt hrow rfl⟩

/-- In every run of exchanges and revocations whose commits meet `Undisturbed`, once a revocation of
a family has committed, no later state has a refresh token of the family that is neither rotated nor
revoked, nor an access token issued to the family that is not revoked. -/
theorem familyRevocation_final {ι : Type} [DecidableEq ι] (hashToken : String → String)
    (store : TokenStore) (requests : ι → Request)
    {s : State ι Store Lock Event (Option ExchangeOutcome)}
    (hrun : Run Undisturbed (State.start ⟨store.store, []⟩ fun i ↦ (requests i).serve hashToken) s) :
    RevokedFamiliesDead s.world := by
  have hinvariant : s.world.db.WellFormed ∧ RevokedFamiliesDead s.world := by
    refine Run.invariant (c := contract hashToken Undisturbed) (fun w ↦ w.db.WellFormed ∧ RevokedFamiliesDead w) hrun
      (fun i ↦ outline_serve (requests i) store.wellFormed) ⟨store.wellFormed, ?_⟩ ?_
    · exact fun familyId hmem ↦ absurd hmem List.not_mem_nil
    · rintro held w event db ⟨hw, hdead⟩ ⟨overlap, hundisturbed, heffect⟩
      exact ⟨heffect.wellFormed hw, heffect.revokedFamiliesDead hw hdead hundisturbed⟩
  exact hinvariant.2

/-- The client exchanges its refresh token (`false`) and revokes it (`true`). -/
def exchangeAndRevoke : Bool → Request
  | false => .exchange
      { refreshToken := "R"
        clientId := "mcpc_a"
        clientSecretHash := ""
        nowMs := 1
        expiryCheckedAt := 1
        passkeyCheckedAt := 1
        accessIssuedAt := 1
        refreshIssuedAt := 1
        rotatedAt := 1
        oldAccessRevokedAt := 1
        familyRevokedAt := (1, 1)
        accessRandom := "x"
        refreshRandom := "y"
        newAccessTokenId := 11
        newRefreshTokenId := 21 }
  | true => .revoke ⟨"R", none, "mcpc_a", none, (1, 1)⟩

/-- The two requests before their first statement. -/
def pairStart : State Bool Store Lock Event (Option ExchangeOutcome) :=
  State.start ⟨pairStore.store, []⟩ fun i ↦ (exchangeAndRevoke i).serve id

/-- Without the condition the property fails: the exchange reads its token, the revocation commits,
and the exchange then wins its compare-and-swap and commits a live pair of the revoked family. -/
theorem familyRevocation_not_final : ¬ ∀ (store : TokenStore) (requests : Bool → Request)
      (s : State Bool Store Lock Event (Option ExchangeOutcome)),
      Run (fun _ _ _ ↦ True) (State.start ⟨store.store, []⟩ fun i ↦ (requests i).serve id) s →
        RevokedFamiliesDead s.world := by
  intro h
  obtain ⟨s, hrun, hrevoked, hlive⟩ := Run.exists_of_schedule pairStart
    (fun w ↦ .revokedFamily 7 ∈ w.log ∧ ¬ w.db.FamilyDead 7)
    [(1, false), (7, true), (7, false)]
  exact hlive (h pairStore exchangeAndRevoke s hrun 7 hrevoked)

/-- The condition can be met: the revocation commits, and the exchange that starts after it is
refused. -/
theorem familyRevocation_final_pair : ∃ s, Run Undisturbed pairStart s ∧ .revokedFamily 7 ∈ s.world.log ∧
      RevokedFamiliesDead s.world := by
  obtain ⟨s, hrun, hrevoked⟩ := Run.exists_of_schedule pairStart
    (fun w ↦ .revokedFamily 7 ∈ w.log) [(7, true), (2, false)] Undisturbed
  exact ⟨s, hrun, hrevoked, familyRevocation_final id pairStore exchangeAndRevoke hrun⟩

def Event.rotatedId : Event → Option Uuid
  | .rotated id _ => some id
  | _ => none

/-- No token was rotated twice, and those that were rotated say so. -/
structure RotatedOnce (w : World Store Event) : Prop where
  nodup : (w.log.filterMap Event.rotatedId).Nodup
  marked : ∀ id ∈ w.log.filterMap Event.rotatedId, ∃ row ∈ w.db.refreshTokens, row.id = id ∧ row.rotatedAt ≠ none

theorem Effect.rotatedOnce {hashToken : String → String} {held : Locks} {overlap : List Event} {w : World Store Event}
    {event : Event} {db : Store} (h : Effect hashToken held overlap w.db event db) (hw : w.db.WellFormed)
    (honce : RotatedOnce w) : RotatedOnce (w.commit event db) := by
  have hkept : ∀ id ∈ w.log.filterMap Event.rotatedId, ∃ row ∈ db.refreshTokens, row.id = id ∧ row.rotatedAt ≠ none := by
    intro id hid
    obtain ⟨old, hold, rfl, hrotated⟩ := honce.marked id hid
    obtain ⟨row, hrow, hbecomes⟩ := h.refresh_advances.forth old hold
    exact ⟨row, hrow, hbecomes.id_eq, hbecomes.rotated hrotated⟩
  cases h with
  | nothing | revokedFamily | revokedAccess => exact ⟨honce.nodup, hkept⟩
  | @rotated req rt hrt hunrotated =>
    refine ⟨List.nodup_cons.mpr ⟨fun hid ↦ ?_, honce.nodup⟩, List.forall_mem_cons.mpr ⟨?_, hkept⟩⟩
    · -- the compare-and-swap has found the token unrotated
      obtain ⟨row, hrow, hsame, hrotated⟩ := honce.marked _ hid
      exact hrotated (List.inj_on_of_nodup_map hw.refreshIds hrow hrt hsame ▸ hunrotated)
    · exact ⟨_, List.mem_append_left _ (List.mem_map.mpr ⟨rt, hrt, if_pos (List.mem_singleton_self rt.id)⟩), rfl,
        Option.some_ne_none _⟩

/-- In every run of exchanges and revocations no refresh token is rotated twice. -/
theorem refresh_rotated_once {ι : Type} [DecidableEq ι] (hashToken : String → String) (store : TokenStore)
    (requests : ι → Request) {s : State ι Store Lock Event (Option ExchangeOutcome)}
    (hrun : Run (fun _ _ _ ↦ True) (State.start ⟨store.store, []⟩ fun i ↦ (requests i).serve hashToken) s) :
    RotatedOnce s.world := by
  refine (Run.invariant (c := contract hashToken fun _ _ _ ↦ True) (fun w ↦ w.db.WellFormed ∧ RotatedOnce w) hrun
    (fun i ↦ outline_serve (requests i) store.wellFormed) ⟨store.wellFormed, List.nodup_nil, nofun⟩ ?_).2
  rintro held w event db ⟨hw, honce⟩ ⟨overlap, -, heffect⟩
  exact ⟨heffect.wellFormed hw, heffect.rotatedOnce hw honce⟩

theorem refresh_rotated_once_pair : ∃ s, Run (fun _ _ _ ↦ True) pairStart s ∧ .rotated 20 7 ∈ s.world.log ∧
    RotatedOnce s.world := by
  obtain ⟨s, hrun, hrotated⟩ := Run.exists_of_schedule pairStart (fun w ↦ .rotated 20 7 ∈ w.log) [(8, false)]
  exact ⟨s, hrun, hrotated, refresh_rotated_once id pairStore exchangeAndRevoke hrun⟩

end PasswdSso.Mcp
