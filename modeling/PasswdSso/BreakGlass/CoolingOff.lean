import PasswdSso.BreakGlass.Grants

/-!
# The cooling-off period of break-glass grants

A creation is deferred unless there is a grant of the same pair in the last 24 hours, whatever became of that grant.
A requester who revokes the deferred grant and asks again is therefore let in at once. What the routes do guarantee
is stated for runs in which a creation that is not deferred finds a grant older than the cooling-off period.
-/

namespace PasswdSso.BreakGlass

open List

/-- A grant of the requester on the target. -/
def Grant.Of (grant : Grant) (requester target : Uuid) : Prop :=
  grant.requesterId = requester ∧ grant.targetUserId = target

instance (grant : Grant) (requester target : Uuid) : Decidable (grant.Of requester target) :=
  inferInstanceAs (Decidable (_ ∧ _))

/-- Requests at ascending times, each allowed in the store that it meets. -/
inductive Run (coolingOffSecs : Int) (allowed : Store → Request → Prop) (start : Store) : Millis → Store → Prop
  | refl (clock : Millis) : Run coolingOffSecs allowed start clock start
  | step {clock : Millis} {db : Store} {request : Request} (before : Run coolingOffSecs allowed start clock db)
      (hclock : clock ≤ request.now) (hallowed : allowed db request) :
      Run coolingOffSecs allowed start request.now (request.run coolingOffSecs db)

def CooledOff (coolingOffSecs : Int) (requester target : Uuid) (clock : Millis) (grants : List Grant) : Prop :=
  ∃ grant ∈ grants, grant.Of requester target ∧ grant.createdAt + coolingOffSecs * msPerSecond ≤ clock

/-- A creation that finds a recent grant of the pair also finds one older than the cooling-off period. -/
def Spaced (coolingOffSecs : Int) (requester target : Uuid) (db : Store) : Request → Prop
  | .create req => req.actor.userId = requester → req.targetUserId = target →
      (∃ grant ∈ db.grants, req.recent grant = true) → CooledOff coolingOffSecs requester target req.now db.grants
  | .revoke _ => True
  | .view _ => True

section CoolingOff

variable {coolingOffSecs : Int} {requester target : Uuid} {clock : Millis} {start db : Store}

/-- A grant of the pair is deferred, or the cooling-off period of the pair is over. -/
def Guarded (coolingOffSecs : Int) (requester target : Uuid) (clock : Millis) (grants : List Grant) : Prop :=
  ∀ grant ∈ grants, grant.Of requester target → (∃ effectiveAt, grant.effectiveAt = some effectiveAt ∧
      grant.createdAt + coolingOffSecs * msPerSecond ≤ effectiveAt) ∨
    CooledOff coolingOffSecs requester target clock grants

variable {grants : List Grant} {req : ViewLogs}

theorem CooledOff.later {later : Millis} (h : CooledOff coolingOffSecs requester target clock grants)
    (hlater : clock ≤ later) :
    CooledOff coolingOffSecs requester target later grants := by
  obtain ⟨grant, hgrant, hof, hold⟩ := h
  exact ⟨grant, hgrant, hof, hold.trans hlater⟩

theorem Guarded.later {later : Millis} (h : Guarded coolingOffSecs requester target clock grants)
    (hlater : clock ≤ later) :
    Guarded coolingOffSecs requester target later grants :=
  fun grant hgrant hof ↦ (h grant hgrant hof).imp_right (·.later hlater)

theorem Guarded.revoke (h : Guarded coolingOffSecs requester target clock grants) (req : RevokeGrant) :
    Guarded coolingOffSecs requester target clock (req.apply grants) := by
  have hcooled : CooledOff coolingOffSecs requester target clock grants →
      CooledOff coolingOffSecs requester target clock (req.apply grants) := by
    rintro ⟨grant, hgrant, hof, hold⟩
    refine ⟨_, mem_map_of_mem hgrant, ?_⟩
    split_ifs
    · exact ⟨hof, hold⟩
    · exact ⟨hof, hold⟩
  intro grant hgrant hof
  obtain ⟨old, hold, rfl⟩ := mem_map.mp hgrant
  split_ifs at hof ⊢
  · exact (h old hold hof).imp_right hcooled
  · exact (h old hold hof).imp_right hcooled

theorem Guarded.create (hpos : 0 < coolingOffSecs) (h : Guarded coolingOffSecs requester target clock db.grants)
    {req : CreateGrant} (hclock : clock ≤ req.now) (hspaced : Spaced coolingOffSecs requester target db (.create req)) :
    Guarded coolingOffSecs requester target req.now (db.grants ++ [req.row coolingOffSecs db.grants]) := by
  have hcooled : CooledOff coolingOffSecs requester target req.now db.grants →
      CooledOff coolingOffSecs requester target req.now (db.grants ++ [req.row coolingOffSecs db.grants]) := by
    rintro ⟨grant, hgrant, hof⟩
    exact ⟨grant, mem_append_left _ hgrant, hof⟩
  intro grant hgrant hof
  rcases mem_append.mp hgrant with hold | hnew
  · exact ((h.later hclock) grant hold hof).imp_right hcooled
  obtain rfl := mem_singleton.mp hnew
  cases hrecent : db.grants.find? req.recent with
  | none =>
    refine .inl ⟨req.now + coolingOffSecs * msPerSecond, if_pos ⟨hpos, hrecent⟩, ?_⟩
    exact Int.add_le_add_right req.started _
  | some recent =>
    exact .inr (hcooled (hspaced hof.1 hof.2 ⟨recent, mem_of_find?_eq_some hrecent, find?_some hrecent⟩))

theorem grants_recordExpire (req : ViewLogs) (grant : Grant) (db : Store) :
    (req.recordExpire grant db).grants = db.grants := by
  unfold ViewLogs.recordExpire
  split_ifs
  · rfl
  · rfl

theorem grants_recordView {grant : Grant} {recorded : Store} (h : req.recordView grant db = .ok recorded) :
    recorded.grants = db.grants := by
  unfold ViewLogs.recordView at h
  split_ifs at h
  · rw [← Except.ok.inj h]
    rfl
  · rw [← Except.ok.inj h]

theorem grants_viewLogs (req : ViewLogs) (db : Store) : (viewLogs req db).2.grants = db.grants := by
  unfold viewLogs
  split
  · rfl
  · split
    · rfl
    · split
      · rfl
      · split
        · exact grants_recordExpire ..
        · split
          · rfl
          · split
            · rfl
            · next hrecorded => exact grants_recordView hrecorded

theorem Guarded.step (hpos : 0 < coolingOffSecs) (h : Guarded coolingOffSecs requester target clock db.grants)
    {request : Request} (hclock : clock ≤ request.now) (hspaced : Spaced coolingOffSecs requester target db request) :
    Guarded coolingOffSecs requester target request.now (request.run coolingOffSecs db).grants := by
  cases request with
  | create req =>
    rw [Request.run, createGrant]
    split_ifs
    · exact h.later hclock
    · exact h.later hclock
    · exact h.later hclock
    · exact h.later hclock
    · exact h.create hpos hclock hspaced
  | revoke req =>
    rw [Request.run, revokeGrant]
    split
    · exact h.later hclock
    · split_ifs
      · exact h.later hclock
      · exact h.later hclock
      · exact h.later hclock
      · exact h.later hclock
      · exact (h.later hclock).revoke req
  | view req =>
    rw [Request.run, grants_viewLogs]
    exact h.later hclock

theorem Run.guarded (hpos : 0 < coolingOffSecs) (hstart : ∀ grant ∈ start.grants, ¬grant.Of requester target)
    (hrun : Run coolingOffSecs (Spaced coolingOffSecs requester target) start clock db) :
    Guarded coolingOffSecs requester target clock db.grants := by
  induction hrun with
  | refl clock => exact fun grant hgrant hof ↦ absurd hof (hstart grant hgrant)
  | step before hclock hspaced ih => exact ih.step hpos hclock hspaced

theorem grant_of_page {grant : Grant} {page : LogPage} (h : req.page grant db = .ok page) : page.grant = grant := by
  rw [ViewLogs.page] at h
  cases hquery : req.query with
  | error error =>
    rw [hquery] at h
    cases h
  | ok query =>
    rw [hquery] at h
    exact (congrArg LogPage.grant (Except.ok.inj h)).symm

theorem viewLogs_ok {page : LogPage} (h : (viewLogs req db).1 = .ok page) :
    page.grant ∈ db.grants ∧ page.grant.requesterId = req.actor.userId ∧ page.grant.revokedAt = none ∧
      (∀ effectiveAt, page.grant.effectiveAt = some effectiveAt → effectiveAt ≤ req.now) ∧
      req.now < page.grant.expiresAt := by
  unfold viewLogs at h
  split at h
  · cases h
  next grant hfind =>
  split at h
  · cases h
  next hrevoked =>
  split at h
  · cases h
  next hpending =>
  split at h
  · cases h
  next hexpired =>
  split at h
  · cases h
  split at h
  · cases h
  have hfound := find?_some hfind
  simp only [Bool.and_eq_true, decide_eq_true_eq] at hfound
  rw [grant_of_page h]
  refine ⟨mem_of_find?_eq_some hfind, hfound.2, by simpa using hrevoked, ?_, not_le.mp hexpired⟩
  intro effectiveAt heffective
  rw [heffective] at hpending
  simpa using hpending

/-- In every run in which a creation that finds a recent grant also finds one older than the cooling-off period, a
view succeeds only when the cooling-off period of the pair is over, and only through a grant that is neither revoked
nor expired. -/
theorem view_after_coolingOff (hpos : 0 < coolingOffSecs)
    (hstart : ∀ grant ∈ start.grants, ¬grant.Of requester target)
    (hrun : Run coolingOffSecs (Spaced coolingOffSecs requester target) start clock db)
    (req : ViewLogs) (hclock : clock ≤ req.now) (hrequester : req.actor.userId = requester)
    {page : LogPage} (hview : (viewLogs req db).1 = .ok page) (htarget : page.grant.targetUserId = target) :
    (∃ grant ∈ db.grants, grant.Of requester target ∧ grant.createdAt ≤ req.now - coolingOffSecs * msPerSecond) ∧
    page.grant ∈ db.grants ∧ page.grant.revokedAt = none ∧ req.now < page.grant.expiresAt := by
  obtain ⟨hmem, howner, hrevoked, hpending, hexpires⟩ := viewLogs_ok hview
  refine ⟨?_, hmem, hrevoked, hexpires⟩
  have hof : page.grant.Of requester target := ⟨howner.trans hrequester, htarget⟩
  rcases hrun.guarded hpos hstart page.grant hmem hof with ⟨effectiveAt, heffective, hdeferred⟩ | hcooled
  · exact ⟨_, hmem, hof, Int.le_sub_right_of_add_le (hdeferred.trans (hpending effectiveAt heffective))⟩
  · obtain ⟨grant, hgrant, hgrantOf, hold⟩ := hcooled.later hclock
    exact ⟨grant, hgrant, hgrantOf, Int.le_sub_right_of_add_le hold⟩

end CoolingOff

/-- A tenant with a member whose logs are of interest. -/
def quietStore : Store where
  members := [{ tenantId := 1, userId := 20, deactivatedAt := none }]
  grants := []
  auditLogs := [{
    id := 100
    scope := .personal
    action := "AUTH_LOGIN"
    userId := 20
    tenantId := 1
    targetId := none
    createdAt := 0 }]
  viewAudits := []
  expireAudits := []

def admin : Actor := { userId := 10, tenantId := 1, isOwner := false }

def ask (grantId : Uuid) (now : Millis) : CreateGrant where
  actor := admin
  targetUserId := 20
  reason := "Security incident investigation"
  incidentRef := none
  grantId := grantId
  createdAt := now
  now := now
  started := le_rfl

/-- The admin reads the logs of the member. -/
def look (grantId : Uuid) (now : Millis) : ViewLogs where
  actor := admin
  grantId := grantId
  now := now
  auditNow := now
  auditId := 101
  auditFails := false
  query := .ok { cursor := none, limit := 50, actions := none, fromDate := none, toDate := none }

def withdraw (id : Uuid) (now : Millis) : RevokeGrant := { actor := admin, id, now }

def after (requests : List Request) : Store := requests.foldl (Request.run 3600) quietStore

/-- A deferred grant, withdrawn after a second and asked for again, lets the admin in at once. -/
theorem view_without_coolingOff :
    ∃ clock db page, Run 3600 (fun _ _ ↦ True) quietStore clock db ∧ clock ≤ (look 2 3000).now ∧
      (viewLogs (look 2 3000) db).1 = .ok page ∧ page.grant.Of 10 20 ∧
      ∀ grant ∈ db.grants, grant.Of 10 20 → (look 2 3000).now - 3600 * msPerSecond < grant.createdAt := by
  have hrun : Run 3600 (fun _ _ ↦ True) quietStore (Request.create (ask 2 2000)).now
      (after [.create (ask 1 0), .revoke (withdraw 1 1000), .create (ask 2 2000)]) :=
    .step (.step (.step (.refl 0) (by decide) trivial) (by decide) trivial) (by decide) trivial
  exact ⟨_, _, ⟨_, _, (ask 2 2000).row 3600 (after [.create (ask 1 0)]).grants⟩, hrun, by decide, rfl, ⟨rfl, rfl⟩,
    by decide⟩

/-- An hour after the first grant was asked for, it is withdrawn, and the second one lets the admin in at once. -/
theorem view_after_an_hour : ∃ clock db page, Run 3600 (Spaced 3600 10 20) quietStore clock db ∧
      (viewLogs (look 2 3600002) db).1 = .ok page ∧
      (∃ grant ∈ db.grants, grant.Of 10 20 ∧ grant.createdAt ≤ (look 2 3600002).now - 3600 * msPerSecond) ∧
      page.grant ∈ db.grants ∧ page.grant.revokedAt = none ∧ (look 2 3600002).now < page.grant.expiresAt := by
  have hfirst : Spaced 3600 10 20 quietStore (.create (ask 1 0)) := by
    rintro - - ⟨_, hgrant, -⟩
    exact absurd hgrant List.not_mem_nil
  have hsecond : Spaced 3600 10 20 (after [.create (ask 1 0), .revoke (withdraw 1 3600000)])
      (.create (ask 2 3600001)) :=
    fun _ _ _ ↦ ⟨_, List.mem_cons_self, ⟨rfl, rfl⟩, by decide⟩
  have hrun : Run 3600 (Spaced 3600 10 20) quietStore (Request.create (ask 2 3600001)).now
      (after [.create (ask 1 0), .revoke (withdraw 1 3600000), .create (ask 2 3600001)]) :=
    .step (.step (.step (.refl 0) (by decide) hfirst) (by decide) trivial) (by decide) hsecond
  exact ⟨_, _, ⟨_, _, (ask 2 3600001).row 3600 (after [.create (ask 1 0)]).grants⟩, hrun, rfl,
    view_after_coolingOff (by decide) (fun _ hgrant ↦ absurd hgrant List.not_mem_nil) hrun _ (by decide) rfl rfl rfl⟩

end PasswdSso.BreakGlass
