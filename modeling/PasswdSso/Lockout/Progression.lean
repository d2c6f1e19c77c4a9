import PasswdSso.Lockout.AccountLockout

/-!
# Lockout progression

What the counter and the lock of a user mean in terms of the calls that were made. The failures since the last reset
are read off the calls (`recorded`), and those of the current observation window are counted on that list
(`unbroken`). The stored counter is that count (`rowAfter_attempts`), also after the window has expired: then the
counter restarts at the next failure, but the test for a newly reached level still compares with the old count. A
table whose first level is one failure thus goes unreported when it is reached in a new window. A failure for which
the table could not be read locks for the longest time, and it is reported exactly when it is the first one since the
last reset, whatever level of the table it reaches.
-/

namespace PasswdSso.Lockout

def recorded : List Event → List Millis
  | [] => []
  | .failure failure :: earlier =>
    if failure.lockTimedOut then recorded earlier else failure.now :: recorded earlier
  | .reset _ written :: earlier => if written then [] else recorded earlier

/-- The number of failures in the observation window that the latest one belongs to: consecutive ones are less than
24 hours apart. -/
def unbroken : List Millis → Nat
  | [] => 0
  | [_] => 1
  | now :: last :: times => if now - last < observationWindowMs then unbroken (last :: times) + 1 else 1

/-- The calls are listed latest first. -/
def TimeOrdered (events : List Event) : Prop :=
  events.Pairwise fun later earlier ↦ earlier.now ≤ later.now

instance (events : List Event) : Decidable (TimeOrdered events) :=
  inferInstanceAs (Decidable (List.Pairwise _ _))

def Failure.number (failure : Failure) (earlier : List Event) : Nat :=
  unbroken (failure.now :: recorded earlier)

/-- The failure reaches a level that the previous failure of its window had not reached. -/
def Failure.Crosses (policy : LockoutPolicy) (failure : Failure) (earlier : List Event) : Prop :=
  failure.lockTimedOut = false ∧ ∃ threshold ∈ policy.thresholds,
    threshold.attempts ≤ failure.number earlier ∧ ¬ threshold.attempts ≤ failure.number earlier - 1

/-- What a failure owes: a lock in force is not shortened, every level that its window has reached is enforced from
its time on, and the administrators are notified exactly when it crosses a level. -/
structure Failure.Progresses (policy : LockoutPolicy) (failure : Failure) (earlier : List Event) : Prop where
  notShortened : ∀ lockedUntil, (rowAfter policy earlier).accountLockedUntil = some lockedUntil →
    failure.now < lockedUntil → ∃ lockedUntil',
      (rowAfter policy (.failure failure :: earlier)).accountLockedUntil = some lockedUntil' ∧
      lockedUntil ≤ lockedUntil'
  enforced : failure.lockTimedOut = false → ∀ threshold ∈ policy.thresholds,
    threshold.attempts ≤ failure.number earlier → ∃ lockedUntil,
      (rowAfter policy (.failure failure :: earlier)).accountLockedUntil = some lockedUntil ∧
      failure.now + threshold.lockMinutes * msPerMinute ≤ lockedUntil
  notified : notifies policy failure earlier = true ↔ failure.Crosses policy earlier

/-- Every failure among the calls progresses. -/
def Progression (policy : LockoutPolicy) (events : List Event) : Prop :=
  ∀ failure earlier, .failure failure :: earlier <:+ events → failure.Progresses policy earlier

def Failure.AtLevel (policy : LockoutPolicy) (failure : Failure) (earlier : List Event) : Prop :=
  ∃ threshold ∈ policy.thresholds, threshold.attempts = failure.number earlier

/-- The lockout of a crossing failure can be audited, and if the first level is a single failure, then no window
opens after an expired one. If the table could not be read, then it is the first failure since the last reset that
crosses a level. -/
structure Failure.Reportable (policy : LockoutPolicy) (failure : Failure) (earlier : List Event) : Prop where
  audited : failure.thresholdsRead = true → failure.AtLevel policy earlier → failure.lockoutAuditWritten = true
  unexpired : failure.thresholdsRead = true → policy.lockoutThreshold1 = 1 → failure.number earlier = 1 →
    recorded earlier = []
  unread : failure.thresholdsRead = false →
    (failure.AtLevel policy earlier ↔ failure.lockoutAuditWritten = true ∧ recorded earlier = [])

section Progression

variable {policy : LockoutPolicy} {failure : Failure} {earlier : List Event}

theorem newAttempts_unbroken {now : Millis} {times : List Millis} {row : UserLockoutRow}
    (hattempts : row.failedUnlockAttempts = unbroken times) (hlast : row.lastFailedUnlockAt = times.head?) :
    newAttempts now row = unbroken (now :: times) := by
  cases times with
  | nil => simp [newAttempts, hlast, unbroken]
  | cons last times =>
    simp only [newAttempts, hlast, List.head?_cons, unbroken, hattempts]
    split_ifs <;> simp

theorem rowAfter_counter (events : List Event) :
    (rowAfter policy events).failedUnlockAttempts = unbroken (recorded events) ∧
      (rowAfter policy events).lastFailedUnlockAt = (recorded events).head? := by
  induction events with
  | nil => exact ⟨rfl, rfl⟩
  | cons event earlier ih =>
    cases event with
    | reset now written =>
      cases written with
      | true => exact ⟨rfl, rfl⟩
      | false => exact ih
    | failure call =>
      cases htimedOut : call.lockTimedOut with
      | true =>
        simp only [rowAfter, Event.step, recordFailure_row_of_timedOut htimedOut, recorded, htimedOut, if_true]
        exact ih
      | false =>
        simp only [rowAfter, Event.step, recordFailure_row htimedOut, recorded, htimedOut, Bool.false_eq_true,
          if_false, failureTransaction, List.head?_cons, and_true]
        exact newAttempts_unbroken ih.1 ih.2

theorem newAttempts_rowAfter : newAttempts failure.now (rowAfter policy earlier) = failure.number earlier :=
  newAttempts_unbroken (rowAfter_counter earlier).1 (rowAfter_counter earlier).2

theorem Failure.number_cases (policy : LockoutPolicy) (failure : Failure) (earlier : List Event) :
    (rowAfter policy earlier).failedUnlockAttempts = failure.number earlier - 1 ∨
      failure.number earlier = 1 ∧ recorded earlier ≠ [] := by
  rw [(rowAfter_counter earlier).1]
  unfold Failure.number
  cases recorded earlier with
  | nil => exact .inl rfl
  | cons last times =>
    by_cases hwindow : failure.now - last < observationWindowMs
    · simp [unbroken, hwindow]
    · simp [unbroken, hwindow]

theorem one_le_unbroken (last : Millis) (times : List Millis) : 1 ≤ unbroken (last :: times) := by
  cases times with
  | nil => exact le_rfl
  | cons before times =>
    simp only [unbroken]
    split_ifs <;> omega

theorem attempts_lt_one_iff (policy : LockoutPolicy) :
    (rowAfter policy earlier).failedUnlockAttempts < 1 ↔ recorded earlier = [] := by
  rw [(rowAfter_counter earlier).1]
  cases recorded earlier with
  | nil => simp [unbroken]
  | cons last times =>
    have := one_le_unbroken last times
    simp only [reduceCtorEq, iff_false]
    omega

theorem failure_notShortened {lockedUntil : Millis}
    (hlocked : (rowAfter policy earlier).accountLockedUntil = some lockedUntil) (hactive : failure.now < lockedUntil) :
    ∃ lockedUntil', (rowAfter policy (.failure failure :: earlier)).accountLockedUntil = some lockedUntil' ∧
      lockedUntil ≤ lockedUntil' := by
  cases htimedOut : failure.lockTimedOut with
  | true =>
    refine ⟨lockedUntil, ?_, le_rfl⟩
    simp only [rowAfter, Event.step, recordFailure_row_of_timedOut htimedOut, hlocked]
  | false =>
    simp only [rowAfter, Event.step, recordFailure_row htimedOut, failureTransaction, hlocked]
    exact le_finalLockedUntil_existing hactive

theorem failure_enforced (hrange : policy.InRange) (hascending : policy.Ascending)
    (htimedOut : failure.lockTimedOut = false) {threshold : LockoutThreshold}
    (hthreshold : threshold ∈ policy.thresholds) (hreached : threshold.attempts ≤ failure.number earlier) :
    ∃ lockedUntil, (rowAfter policy (.failure failure :: earlier)).accountLockedUntil = some lockedUntil ∧
      failure.now + threshold.lockMinutes * msPerMinute ≤ lockedUntil := by
  obtain ⟨matched, hmatched, hlonger⟩ :=
    failure.matchedThreshold_longest hrange hascending hthreshold hreached
  simp only [rowAfter, Event.step, recordFailure_row htimedOut, failureTransaction, newAttempts_rowAfter, hmatched,
    Option.map_some]
  obtain ⟨lockedUntil, hlocked, hle⟩ := le_finalLockedUntil_new failure.now (matched.lockedUntil failure.now)
    (rowAfter policy earlier).accountLockedUntil
  have hminutes : threshold.lockMinutes * msPerMinute ≤ matched.lockMinutes * msPerMinute :=
    Int.mul_le_mul_of_nonneg_right hlonger (by decide)
  exact ⟨lockedUntil, hlocked, (Int.add_le_add_left hminutes failure.now).trans hle⟩

theorem Failure.crosses_iff :
    failure.Crosses policy earlier ↔ failure.lockTimedOut = false ∧ failure.AtLevel policy earlier := by
  unfold Failure.Crosses Failure.AtLevel
  refine and_congr_right fun _ ↦ exists_congr fun threshold ↦ and_congr_right fun _ ↦ ?_
  omega

/-- A failure that could read the table notifies exactly when it crosses a level, its lockout is audited, and it is
not the first of a window after an expired one. -/
theorem notifies_of_read (hascending : policy.Ascending) (hread : failure.thresholdsRead = true) :
    notifies policy failure earlier = true ↔ failure.Crosses policy earlier ∧ failure.lockoutAuditWritten = true ∧
      (failure.number earlier = 1 → recorded earlier = []) := by
  simp only [notifies, recordFailure_notified, Failure.thresholds, hread, if_true, getLockoutThresholds,
    newAttempts_rowAfter, Failure.crosses_iff]
  constructor
  · rintro ⟨htimedOut, haudit, threshold, hmatched, hstored⟩
    have hmem := List.mem_of_find?_eq_some hmatched
    have hreached : threshold.attempts ≤ failure.number earlier := by simpa using List.find?_some hmatched
    obtain hcounter | ⟨hfirst, hbefore⟩ := failure.number_cases policy earlier
    · exact ⟨⟨htimedOut, threshold, hmem, by omega⟩, haudit, fun _ ↦ (attempts_lt_one_iff policy).mp (by omega)⟩
    · -- the old counter is at least one, so the level is above the new counter
      have := (attempts_lt_one_iff policy).not.mpr hbefore
      omega
  · rintro ⟨⟨htimedOut, threshold, hmem, hnumber⟩, haudit, hunexpired⟩
    obtain ⟨matched, -, hmatched, hreached, hhigher, -⟩ := matchedThreshold_max hascending hmem hnumber.le
    refine ⟨htimedOut, haudit, matched, hmatched, ?_⟩
    obtain hcounter | ⟨hfirst, hbefore⟩ := failure.number_cases policy earlier
    · omega
    · exact absurd (hunexpired hfirst) hbefore

/-- A failure under the strictest table notifies exactly when it is the first one since the last reset. -/
theorem notifies_of_unread (hunread : failure.thresholdsRead = false) : notifies policy failure earlier = true ↔
    failure.lockTimedOut = false ∧ failure.lockoutAuditWritten = true ∧ recorded earlier = [] := by
  have hpositive : lockoutThresholdMin ≤ failure.number earlier :=
    Int.ofNat_le.mpr (one_le_unbroken failure.now (recorded earlier))
  simp only [notifies, recordFailure_notified, newAttempts_rowAfter,
    Failure.matchedThreshold_unread hunread hpositive, Option.some.injEq, exists_eq_left']
  exact and_congr_right fun _ ↦ and_congr_right fun _ ↦ attempts_lt_one_iff policy

theorem lockoutThreshold1_eq_one (hrange : policy.InRange) (hascending : policy.Ascending)
    (hlevel : failure.AtLevel policy earlier) (hfirst : failure.number earlier = 1) :
    policy.lockoutThreshold1 = 1 := by
  obtain ⟨threshold, hmem, hnumber⟩ := hlevel
  simp only [LockoutPolicy.thresholds, List.mem_cons, List.not_mem_nil, or_false] at hmem
  obtain ⟨⟨h12, h23⟩, -⟩ := hascending
  have hpos : 1 ≤ policy.lockoutThreshold1 := hrange.1 _ List.mem_cons_self |>.1
  rw [hfirst] at hnumber
  rcases hmem with rfl | rfl | rfl <;> dsimp only at hnumber <;> omega

theorem Failure.notified_iff (hrange : policy.InRange) (hascending : policy.Ascending) :
    (notifies policy failure earlier = true ↔ failure.Crosses policy earlier) ↔
      (failure.lockTimedOut = false → failure.Reportable policy earlier) := by
  cases hread : failure.thresholdsRead with
  | true =>
    rw [notifies_of_read hascending hread, Failure.crosses_iff]
    constructor
    · intro hnotified htimedOut
      refine ⟨fun _ hlevel ↦ (hnotified.mpr ⟨htimedOut, hlevel⟩).2.1, fun _ hsingle hfirst ↦ ?_, by simp [hread]⟩
      refine (hnotified.mpr ⟨htimedOut, ?_⟩).2.2 hfirst
      exact ⟨⟨policy.lockoutThreshold1, policy.lockoutDuration1Minutes⟩, by simp [LockoutPolicy.thresholds],
        by simp [hsingle, hfirst]⟩
    · intro hreportable
      refine ⟨And.left, ?_⟩
      rintro ⟨htimedOut, hlevel⟩
      refine ⟨⟨htimedOut, hlevel⟩, (hreportable htimedOut).audited hread hlevel, fun hfirst ↦ ?_⟩
      exact (hreportable htimedOut).unexpired hread (lockoutThreshold1_eq_one hrange hascending hlevel hfirst) hfirst
  | false =>
    rw [notifies_of_unread hread, Failure.crosses_iff, and_congr_right_iff]
    refine forall_congr' fun _ ↦ ⟨fun hnotified ↦ ⟨by simp [hread], by simp [hread], fun _ ↦ hnotified.symm⟩, ?_⟩
    exact fun hreportable ↦ (hreportable.unread hread).symm

theorem Failure.progresses_iff (hrange : policy.InRange) (hascending : policy.Ascending) :
    failure.Progresses policy earlier ↔ (failure.lockTimedOut = false → failure.Reportable policy earlier) := by
  rw [← Failure.notified_iff hrange hascending]
  refine ⟨Failure.Progresses.notified, fun hnotified ↦ ⟨fun _ hlocked hactive ↦ failure_notShortened hlocked hactive,
    fun htimedOut _ hthreshold hreached ↦ ?_, hnotified⟩⟩
  exact failure_enforced hrange hascending htimedOut hthreshold hreached

end Progression

/-- For every table that is in range and ascending and every sequence of failures and resets of one user, locks in
force are not shortened, reached levels are enforced and crossings are notified, exactly when every recorded failure can
be reported. -/
theorem lockout_progression {policy : LockoutPolicy} (hrange : policy.InRange) (hascending : policy.Ascending)
    (events : List Event) :
    Progression policy events ↔ ∀ failure earlier, .failure failure :: earlier <:+ events →
      failure.lockTimedOut = false → failure.Reportable policy earlier :=
  forall_congr' fun _ ↦ forall_congr' fun _ ↦ imp_congr_right fun _ ↦
    Failure.progresses_iff hrange hascending

/-- A failure at the given minute whose reads and writes all succeed. -/
def failureAt (minute : Int) : Failure :=
  ⟨minute * msPerMinute, true, false, true, true⟩

def fourFailures : List Event :=
  [3, 2, 1, 0].map (.failure ∘ failureAt)

/-- Five failures a minute apart under the default table: the fifth one locks for 15 minutes and is reported. -/
theorem defaultPolicy_progression : defaultPolicy.InRange ∧ defaultPolicy.Ascending ∧
    Progression defaultPolicy (.failure (failureAt 4) :: fourFailures) ∧
    (rowAfter defaultPolicy (.failure (failureAt 4) :: fourFailures)).accountLockedUntil = some (19 * msPerMinute) ∧
    notifies defaultPolicy (failureAt 4) fourFailures = true := by
  refine ⟨by decide, by decide, (lockout_progression (by decide) (by decide) _).mpr ?_, by decide, by decide⟩
  intro failure earlier hsuffix htimedOut
  obtain ⟨minute, rfl⟩ : ∃ minute, failureAt minute = failure := by
    have hmem := hsuffix.subset List.mem_cons_self
    simp only [fourFailures, List.map_cons, List.map_nil, Function.comp_apply, List.mem_cons, Event.failure.injEq,
      List.not_mem_nil, or_false] at hmem
    rcases hmem with rfl | rfl | rfl | rfl | rfl <;> exact ⟨_, rfl⟩
  exact ⟨fun _ _ ↦ rfl, fun _ hsingle ↦ absurd hsingle (by decide), by simp [failureAt]⟩

/-- With the first level at one failure, a failure a day after the previous one locks the account again without a
notification: the stored counter of the expired window is not below that level. -/
theorem expired_window_not_notified : LockoutPolicy.InRange ⟨1, 15, 2, 60, 3, 120⟩ ∧
    LockoutPolicy.Ascending ⟨1, 15, 2, 60, 3, 120⟩ ∧
    TimeOrdered [.failure (failureAt 1440), .failure (failureAt 0)] ∧
    ¬ Progression ⟨1, 15, 2, 60, 3, 120⟩ [.failure (failureAt 1440), .failure (failureAt 0)] := by
  refine ⟨by decide, by decide, by decide, fun hprogression ↦ ?_⟩
  have hnotified := (hprogression _ _ List.suffix_rfl).notified
  have hcrosses : (failureAt 1440).Crosses ⟨1, 15, 2, 60, 3, 120⟩ [.failure (failureAt 0)] :=
    ⟨rfl, ⟨1, 15⟩, by decide, by decide, by decide⟩
  exact absurd (hnotified.mpr hcrosses) (by decide)

end PasswdSso.Lockout
