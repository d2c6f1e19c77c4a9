import PasswdSso.Sessions.Lifetime

/-!
# The cache of session timeouts

Calls of `resolveEffectiveSessionTimeouts` of `src/lib/auth/session/session-timeout.ts` that overlap in one process
with an update of policies and the invalidation after it. A call gives way to others only while it waits for the
database, so its steps are the lookup, the read, and the assignment to the cache.
-/

namespace PasswdSso.Sessions.TimeoutCache

/-- Where a call stands. -/
inductive Call
  | missed (userId : Uuid)
  | fetched (userId : Uuid) (timeouts : Option ResolvedSessionTimeouts)
  | returned (userId : Uuid) (timeouts : ResolvedSessionTimeouts)

variable {ι : Type} [DecidableEq ι]

structure State (ι : Type) where
  store : Store
  calls : ι → Option Call

inductive Step (ι : Type)
  | lookup (i : ι) (userId : Uuid) (now : Millis)
  | fetch (i : ι)
  | assign (i : ι) (now : Millis)

/-- The part of a call before its first `await`. -/
def lookup (db : Store) (userId : Uuid) (now : Millis) : Call × Store :=
  match db.cached userId with
  | none => (.missed userId, db)
  | some entry =>
    if now < entry.expiresAt then (.returned userId entry.timeouts, db)
    else (.missed userId, db.dropTimeouts userId)

/-- The part of a call after the read. -/
def assign (db : Store) (userId : Uuid) (now : Millis) : Option ResolvedSessionTimeouts → Call × Store
  | none => (.returned userId defensiveTimeouts, db)
  | some timeouts =>
    (.returned userId timeouts, db.cacheTimeouts now { userId, timeouts, expiresAt := now + timeoutCacheTtl })

def State.put (s : State ι) (i : ι) (next : Call × Store) : State ι :=
  { store := next.2, calls := Function.update s.calls i (some next.1) }

def State.step (s : State ι) : Step ι → State ι
  | .lookup i userId now =>
    match s.calls i with
    | none => s.put i (lookup s.store userId now)
    | some _ => s
  | .fetch i =>
    match s.calls i with
    | some (.missed userId) => s.put i (.fetched userId (s.store.timeoutsOf userId), s.store)
    | _ => s
  | .assign i now =>
    match s.calls i with
    | some (.fetched userId timeouts) => s.put i (assign s.store userId now timeouts)
    | _ => s

def State.run (s : State ι) (steps : List (Step ι)) : State ι := steps.foldl State.step s

/-- The argument of `invalidateSessionTimeoutCacheForTenant`, or of `invalidateSessionTimeoutCache`. -/
inductive Scope
  | tenant (tenantId : Uuid)
  | user (userId : Uuid)

def Scope.covers (userId : Uuid) (timeouts : ResolvedSessionTimeouts) : Scope → Bool
  | .tenant tenantId => timeouts.tenantId = some tenantId
  | .user other => userId = other

def State.invalidate (s : State ι) (scope : Scope) : State ι :=
  { s with store.timeouts := s.store.timeouts.filter fun entry ↦ !scope.covers entry.userId entry.timeouts }

/-- An update of policies, the invalidation after it, and the steps of the calls around them. -/
structure Change (ι : Type) where
  store : Store
  before : List (Step ι)
  updated : Store
  between : List (Step ι)
  scope : Scope
  after : List (Step ι)

namespace Change

variable (c : Change ι)

/-- The process starts with an empty cache. -/
def atUpdate : State ι := State.run { store := { c.store with timeouts := [] }, calls := fun _ ↦ none } c.before

def atInvalidation : State ι :=
  State.run { c.atUpdate with store := { c.updated with timeouts := c.atUpdate.store.timeouts } } c.between

def final : State ι := (c.atInvalidation.invalidate c.scope).run c.after

/-- The invalidation covers the users for whom the update changes something. -/
def Covered : Prop :=
  ∀ userId, c.updated.timeoutsOf userId = c.store.timeoutsOf userId ∨
    ∃ timeouts, c.store.timeoutsOf userId = some timeouts ∧ c.scope.covers userId timeouts

/-- The calls that start after the invalidation return what the updated policies say. -/
def TakesEffect : Prop :=
  ∀ i userId timeouts, c.atInvalidation.calls i = none → c.final.calls i = some (.returned userId timeouts) →
    timeouts = c.updated.effective userId

/-- No call that has yet to assign its result to the cache has read it before the update. -/
def NoneOutdated : Prop :=
  ∀ i userId timeouts, c.atInvalidation.calls i = some (.fetched userId timeouts) →
    timeouts = c.updated.timeoutsOf userId

end Change

/-- What a call holds is good; what it has returned need not be if it is `old`. -/
def Call.Good (good : Uuid → Option ResolvedSessionTimeouts → Prop) (old : Prop) : Call → Prop
  | .missed _ => True
  | .fetched userId timeouts => good userId timeouts
  | .returned userId timeouts => old ∨ ∃ result, good userId result ∧ timeouts = result.getD defensiveTimeouts

/-- The policies are those of `db`, and the cache and the calls hold good timeouts. -/
structure Holds (db : Store) (good : Uuid → Option ResolvedSessionTimeouts → Prop) (old : ι → Prop)
    (s : State ι) : Prop where
  current : ∀ userId, good userId (db.timeoutsOf userId)
  stored : s.store.timeoutsOf = db.timeoutsOf
  cached : ∀ entry ∈ s.store.timeouts, good entry.userId (some entry.timeouts)
  calls : ∀ i call, s.calls i = some call → call.Good good (old i)

variable {db : Store} {good : Uuid → Option ResolvedSessionTimeouts → Prop} {old : ι → Prop} {s : State ι}

theorem Holds.put (h : Holds db good old s) (i : ι) {call : Call} {next : Store}
    (htables : next.timeoutsOf = s.store.timeoutsOf)
    (hcached : ∀ entry ∈ next.timeouts, good entry.userId (some entry.timeouts))
    (hcall : call.Good good (old i)) : Holds db good old (s.put i (call, next)) where
  current := h.current
  stored := htables.trans h.stored
  cached := hcached
  calls j other hother := by
    rcases eq_or_ne j i with rfl | hne
    · obtain rfl : call = other := by simpa [State.put] using hother
      exact hcall
    · exact h.calls j other (by simpa [State.put, hne] using hother)

theorem Holds.step (h : Holds db good old s) (step : Step ι) : Holds db good old (s.step step) := by
  cases step with
  | lookup i userId now =>
    rw [State.step, lookup]
    split
    · split
      · exact h.put i rfl h.cached trivial
      next entry hentry =>
      have huser : entry.userId = userId := by simpa using List.find?_some hentry
      have hgood := h.cached entry (List.mem_of_find?_eq_some hentry)
      split
      · exact h.put i rfl h.cached (.inr ⟨_, huser ▸ hgood, rfl⟩)
      · exact h.put i rfl (fun other hother ↦ h.cached other (List.mem_of_mem_filter hother)) trivial
    · exact h
  | fetch i =>
    rw [State.step]
    split
    · exact h.put i rfl h.cached (h.stored ▸ h.current _)
    · exact h
  | assign i now =>
    rw [State.step]
    split
    · next userId timeouts hcall =>
      have hgood : good userId timeouts := h.calls i _ hcall
      cases timeouts with
      | none => exact h.put i rfl h.cached (.inr ⟨none, hgood, rfl⟩)
      | some timeouts =>
        refine h.put i rfl (fun entry hentry ↦ ?_) (.inr ⟨some timeouts, hgood, rfl⟩)
        rcases mem_setEntry hentry with hkept | rfl
        · exact h.cached entry (mem_makeRoom hkept)
        · exact hgood
    · exact h

theorem Holds.run (h : Holds db good old s) (steps : List (Step ι)) : Holds db good old (s.run steps) :=
  List.foldlRecOn steps State.step h fun _ ih step _ ↦ ih.step step

/-- A change of policies takes effect if no call is about to cache what it read before. -/
theorem Change.takesEffect_of_noneOutdated (c : Change ι) (hcovered : c.Covered) (hnone : c.NoneOutdated) :
    c.TakesEffect := by
  have hbefore : Holds c.store (fun userId timeouts ↦ timeouts = c.store.timeoutsOf userId) (fun _ ↦ True)
      c.atUpdate := by
    apply Holds.run
    exact ⟨fun _ ↦ rfl, rfl, by simp, by simp⟩
  have hbetween : Holds c.updated (fun userId timeouts ↦ timeouts = c.updated.timeoutsOf userId ∨
      ∃ value, timeouts = some value ∧ c.scope.covers userId value) (fun _ ↦ True) c.atInvalidation := by
    have hgood : ∀ userId timeouts, timeouts = c.store.timeoutsOf userId →
        timeouts = c.updated.timeoutsOf userId ∨ ∃ value, timeouts = some value ∧ c.scope.covers userId value := by
      rintro userId _ rfl
      exact (hcovered userId).imp_left Eq.symm
    apply Holds.run
    refine ⟨fun _ ↦ .inl rfl, rfl, fun entry hentry ↦ hgood _ _ (hbefore.cached entry hentry), fun i call hcall ↦ ?_⟩
    cases call with
    | missed => trivial
    | fetched => exact hgood _ _ (hbefore.calls i _ hcall)
    | returned => exact .inl trivial
  -- The invalidation removes what is outdated, and the calls that are under way do not bring it back.
  have hafter : Holds c.updated (fun userId timeouts ↦ timeouts = c.updated.timeoutsOf userId)
      (fun i ↦ c.atInvalidation.calls i ≠ none) c.final := by
    apply Holds.run
    refine ⟨fun _ ↦ rfl, hbetween.stored, fun entry hentry ↦ ?_, fun i call hcall ↦ ?_⟩
    · obtain ⟨hmem, hkept⟩ := List.mem_filter.mp hentry
      rcases hbetween.cached entry hmem with hcurrent | ⟨_, ⟨⟩, houtdated⟩
      · exact hcurrent
      · simp [houtdated] at hkept
    · cases call with
      | missed => trivial
      | fetched => exact hnone i _ _ hcall
      | returned => exact .inl (Option.ne_none_iff_exists'.mpr ⟨_, hcall⟩)
  intro i userId timeouts hnew hreturned
  rcases hafter.calls i _ hreturned with hold | ⟨_, rfl, hvalue⟩
  exacts [absurd hnew hold, hvalue]

/-- A tenant lowers its timeouts, a first call assigns to the cache in `between` or `after`, and a second call starts. -/
def lowered (between after : List (Step Bool)) : Change Bool where
  store := storeWith 60 60
  before := [.lookup false 1 0, .fetch false]
  updated := storeWith 5 5
  between := between
  scope := .tenant 2
  after := after ++ [.lookup true 1 1, .fetch true, .assign true 1]

theorem covered_lowered (between after : List (Step Bool)) : (lowered between after).Covered := by
  intro userId
  rcases eq_or_ne userId 1 with rfl | hne
  · exact .inr ⟨{ idleMinutes := 60, absoluteMinutes := 60, tenantId := some 2 }, rfl, rfl⟩
  · left
    simp [lowered, storeWith, Store.timeoutsOf, Store.userOf, hne.symm]

/-- The first call does no harm before the invalidation. -/
theorem takesEffect_lowered : (lowered [.assign false 1] []).TakesEffect := by
  refine (lowered [.assign false 1] []).takesEffect_of_noneOutdated (covered_lowered _ _) ?_
  -- the first call has assigned, and the second has not begun
  rintro (_ | _) _ _ ⟨⟩

/-- After it, the second call finds the old timeouts in the cache. -/
theorem outdated_assigned :
    (lowered [] [.assign false 1]).Covered ∧ ¬ (lowered [] [.assign false 1]).TakesEffect := by
  refine ⟨covered_lowered _ _, fun h ↦ ?_⟩
  have hreturned := h true 1 { idleMinutes := 60, absoluteMinutes := 60, tenantId := some 2 } rfl rfl
  have hidle : (60 : Int) = 5 := congrArg ResolvedSessionTimeouts.idleMinutes hreturned
  exact absurd hidle (by decide)

end PasswdSso.Sessions.TimeoutCache
