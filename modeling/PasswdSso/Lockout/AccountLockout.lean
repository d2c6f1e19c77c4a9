import PasswdSso.Common
import Mathlib.Algebra.Order.Group.Int
import Mathlib.Tactic.Common

/-!
# Account lockout

`src/lib/auth/policy/account-lockout.ts` counts failed vault unlocks in three columns of the user's row and locks the
account for longer the more of them there are. `recordFailure` and `resetLockout` are modelled as functions of those
columns: both write them in one transaction that holds the row lock, so the calls for one user are serial. The table
of thresholds is part of the tenant's policy. `src/app/api/tenant/policy/route.ts` checks that it is in range and
ascending, but it checks a null field as the default and does not write it, so a stored table need not be ascending.
-/

namespace PasswdSso.Lockout

/-! ### The table of thresholds -/

def lockoutThresholdMin : Int := 1

def lockoutThresholdMax : Int := 50

/-- `LOCKOUT_DURATION_MIN`, in minutes. -/
def lockoutDurationMin : Int := 1

/-- `LOCKOUT_DURATION_MAX`, in minutes. -/
def lockoutDurationMax : Int := 7 * (24 * 60)

/-- The lockout columns of a `tenants` row. -/
structure LockoutPolicy where
  lockoutThreshold1 : Int
  lockoutDuration1Minutes : Int
  lockoutThreshold2 : Int
  lockoutDuration2Minutes : Int
  lockoutThreshold3 : Int
  lockoutDuration3Minutes : Int

/-- The defaults of the schema, which the policy route repeats. -/
def defaultPolicy : LockoutPolicy where
  lockoutThreshold1 := 5
  lockoutDuration1Minutes := 15
  lockoutThreshold2 := 10
  lockoutDuration2Minutes := 60
  lockoutThreshold3 := 15
  lockoutDuration3Minutes := 24 * 60

def LockoutPolicy.InRange (policy : LockoutPolicy) : Prop :=
  (∀ attempts ∈ [policy.lockoutThreshold1, policy.lockoutThreshold2, policy.lockoutThreshold3],
    lockoutThresholdMin ≤ attempts ∧ attempts ≤ lockoutThresholdMax) ∧
  ∀ minutes ∈ [policy.lockoutDuration1Minutes, policy.lockoutDuration2Minutes, policy.lockoutDuration3Minutes],
    lockoutDurationMin ≤ minutes ∧ minutes ≤ lockoutDurationMax

def LockoutPolicy.Ascending (policy : LockoutPolicy) : Prop :=
  (policy.lockoutThreshold1 < policy.lockoutThreshold2 ∧ policy.lockoutThreshold2 < policy.lockoutThreshold3) ∧
  policy.lockoutDuration1Minutes < policy.lockoutDuration2Minutes ∧
  policy.lockoutDuration2Minutes < policy.lockoutDuration3Minutes

instance (policy : LockoutPolicy) : Decidable policy.InRange := inferInstanceAs (Decidable (_ ∧ _))

instance (policy : LockoutPolicy) : Decidable policy.Ascending := inferInstanceAs (Decidable (_ ∧ _))

/-! ### Failures and resets -/

structure LockoutThreshold where
  attempts : Int
  lockMinutes : Int
  deriving DecidableEq

def strictestLockoutThresholds : List LockoutThreshold :=
  [⟨lockoutThresholdMin, lockoutDurationMax⟩]

def LockoutPolicy.thresholds (policy : LockoutPolicy) : List LockoutThreshold :=
  [⟨policy.lockoutThreshold3, policy.lockoutDuration3Minutes⟩,
    ⟨policy.lockoutThreshold2, policy.lockoutDuration2Minutes⟩,
    ⟨policy.lockoutThreshold1, policy.lockoutDuration1Minutes⟩]

/-- `getLockoutThresholds`, from the tenant row that it could read. -/
def getLockoutThresholds (tenant : Option LockoutPolicy) : List LockoutThreshold :=
  match tenant with
  | none => strictestLockoutThresholds
  | some policy => policy.thresholds

def observationWindowMs : Millis := msPerDay

structure UserLockoutRow where
  failedUnlockAttempts : Int
  lastFailedUnlockAt : Option Millis
  accountLockedUntil : Option Millis

def UserLockoutRow.cleared : UserLockoutRow where
  failedUnlockAttempts := 0
  lastFailedUnlockAt := none
  accountLockedUntil := none

/-- The counter after a failure: it restarts when the last failure is not within the observation window. -/
def newAttempts (now : Millis) (row : UserLockoutRow) : Int :=
  match row.lastFailedUnlockAt with
  | some lastFailedAt =>
    if now - lastFailedAt < observationWindowMs then row.failedUnlockAttempts + 1 else 1
  | none => 1

def matchedThreshold (thresholds : List LockoutThreshold) (attempts : Int) : Option LockoutThreshold :=
  thresholds.find? fun threshold ↦ threshold.attempts ≤ attempts

def LockoutThreshold.lockedUntil (threshold : LockoutThreshold) (now : Millis) : Millis :=
  now + threshold.lockMinutes * msPerMinute

/-- The lock that is stored: a new lock does not shorten the existing one, and without a new one the existing lock
stays while it is in force. -/
def finalLockedUntil (now : Millis) (existingLockedUntil newLockedUntil : Option Millis) : Option Millis :=
  match existingLockedUntil, newLockedUntil with
  | some existing, some new => some (if existing > new then existing else new)
  | some existing, none => if now < existing then some existing else none
  | none, new => new

/-- What the transaction of `recordFailure` returns. -/
structure TransactionResult where
  attempts : Int
  locked : Bool
  lockedUntil : Option Millis
  lockMinutes : Option Int
  thresholdCrossed : Bool

/-- The transaction of `recordFailure`: the columns that it writes and its result. -/
def failureTransaction (thresholds : List LockoutThreshold) (now : Millis) (row : UserLockoutRow) :
    UserLockoutRow × TransactionResult :=
  let attempts := newAttempts now row
  let matched := matchedThreshold thresholds attempts
  let lockedUntil := finalLockedUntil now row.accountLockedUntil (matched.map (·.lockedUntil now))
  ({ failedUnlockAttempts := attempts, lastFailedUnlockAt := some now, accountLockedUntil := lockedUntil },
    { attempts := attempts
      locked := lockedUntil.any (now < ·)
      lockedUntil := lockedUntil
      lockMinutes := matched.map (·.lockMinutes)
      -- compared with the counter as it was stored, also when that counter belongs to an expired window
      thresholdCrossed := matched.any (row.failedUnlockAttempts < ·.attempts) })

/-- The audit events of `recordFailure`. -/
inductive AuditEvent
  | vaultUnlockFailed (attempts : Int)
  | vaultUnlockFailedLockTimeout
  | vaultLockoutTriggered (attempts lockMinutes : Int) (lockedUntil : Option Millis)

structure RecordFailureResult where
  locked : Bool
  lockedUntil : Option Millis
  attempts : Int

/-- The arguments of `notifyAdminsOfLockout`. -/
structure LockoutNotification where
  attempts : Int
  lockMinutes : Int

/-- A call of `recordFailure`: its clock reading, whether the tenant's table could be read and the row lock timed out,
and which of its two audit events could be written. -/
structure Failure where
  now : Millis
  thresholdsRead : Bool
  lockTimedOut : Bool
  unlockAuditWritten : Bool
  lockoutAuditWritten : Bool

/-- What a call of `recordFailure` leaves behind. -/
structure Recorded where
  row : UserLockoutRow
  result : Option RecordFailureResult
  audits : List AuditEvent
  notified : Option LockoutNotification

def Failure.thresholds (policy : LockoutPolicy) (failure : Failure) : List LockoutThreshold :=
  getLockoutThresholds (if failure.thresholdsRead then some policy else none)

/-- `recordFailure`. The administrators are notified after the second audit event, in the block whose errors are
swallowed. -/
def recordFailure (thresholds : List LockoutThreshold) (failure : Failure) (row : UserLockoutRow) : Recorded :=
  if failure.lockTimedOut then
    { row := row, result := none, audits := [.vaultUnlockFailedLockTimeout], notified := none }
  else
    let (row', result) := failureTransaction thresholds failure.now row
    let unlockAudit := if failure.unlockAuditWritten then [.vaultUnlockFailed result.attempts] else []
    let response := some ⟨result.locked, result.lockedUntil, result.attempts⟩
    match result.lockMinutes with
    | none => { row := row', result := response, audits := unlockAudit, notified := none }
    | some lockMinutes =>
      if failure.lockoutAuditWritten then
        { row := row'
          result := response
          audits := unlockAudit ++ [.vaultLockoutTriggered result.attempts lockMinutes result.lockedUntil]
          notified := if result.thresholdCrossed then some ⟨result.attempts, lockMinutes⟩ else none }
      else { row := row', result := response, audits := unlockAudit, notified := none }

/-- `resetLockout`; an error of the update is swallowed. -/
def resetLockout (written : Bool) (row : UserLockoutRow) : UserLockoutRow :=
  if written then .cleared else row

/-- A call for one user. -/
inductive Event
  | failure (call : Failure)
  | reset (now : Millis) (written : Bool)

/-- The clock reading of the call. -/
def Event.now : Event → Millis
  | .failure call => call.now
  | .reset now _ => now

/-- What a call does to the user's row. -/
def Event.step (policy : LockoutPolicy) (row : UserLockoutRow) : Event → UserLockoutRow
  | .failure call => (recordFailure (call.thresholds policy) call row).row
  | .reset _ written => resetLockout written row

def rowAfter (policy : LockoutPolicy) : List Event → UserLockoutRow
  | [] => .cleared
  | event :: earlier => event.step policy (rowAfter policy earlier)

def notifies (policy : LockoutPolicy) (failure : Failure) (earlier : List Event) : Bool :=
  (recordFailure (failure.thresholds policy) failure (rowAfter policy earlier)).notified.isSome

/-! ### What one failure does -/

section Step

variable {policy : LockoutPolicy} {failure : Failure} {row : UserLockoutRow} {thresholds : List LockoutThreshold}
  {threshold : LockoutThreshold} {attempts : Int}

theorem recordFailure_row_of_timedOut (htimedOut : failure.lockTimedOut = true) :
    (recordFailure thresholds failure row).row = row := by
  simp [recordFailure, htimedOut]

theorem recordFailure_row (hrecorded : failure.lockTimedOut = false) :
    (recordFailure thresholds failure row).row = (failureTransaction thresholds failure.now row).1 := by
  simp only [recordFailure, hrecorded, Bool.false_eq_true, if_false]
  split
  · rfl
  · split_ifs <;> rfl

/-- A failure notifies when it is recorded, its lockout is audited and the level that it matched is above the stored
counter. -/
theorem recordFailure_notified : (recordFailure thresholds failure row).notified.isSome = true ↔
      failure.lockTimedOut = false ∧ failure.lockoutAuditWritten = true ∧
      ∃ threshold, matchedThreshold thresholds (newAttempts failure.now row) = some threshold ∧
        row.failedUnlockAttempts < threshold.attempts := by
  cases htimedOut : failure.lockTimedOut with
  | true => simp [recordFailure, htimedOut]
  | false =>
    cases hmatched : matchedThreshold thresholds (newAttempts failure.now row) with
    | none => simp [recordFailure, htimedOut, failureTransaction, hmatched]
    | some threshold =>
      cases haudit : failure.lockoutAuditWritten with
      | false => simp [recordFailure, htimedOut, failureTransaction, hmatched, haudit]
      | true =>
        by_cases hcrossed : row.failedUnlockAttempts < threshold.attempts <;>
          simp [recordFailure, htimedOut, failureTransaction, hmatched, haudit, hcrossed]

theorem le_finalLockedUntil_new (now new : Millis) (existing : Option Millis) :
    ∃ lockedUntil, finalLockedUntil now existing (some new) = some lockedUntil ∧ new ≤ lockedUntil := by
  cases existing with
  | none => exact ⟨new, rfl, le_rfl⟩
  | some existing =>
    refine ⟨_, rfl, ?_⟩
    split_ifs with hlater
    · exact le_of_lt hlater
    · exact le_rfl

theorem le_finalLockedUntil_existing {now existing : Millis} {new : Option Millis} (hactive : now < existing) :
    ∃ lockedUntil, finalLockedUntil now (some existing) new = some lockedUntil ∧ existing ≤ lockedUntil := by
  cases new with
  | none => exact ⟨existing, if_pos hactive, le_rfl⟩
  | some new =>
    refine ⟨_, rfl, ?_⟩
    split_ifs with hlater
    · exact le_rfl
    · exact le_of_not_gt hlater

/-- The level that an ascending table matches has been reached, and no other level that has been reached is higher or
locks longer. -/
theorem matchedThreshold_max (hascending : policy.Ascending) (hthreshold : threshold ∈ policy.thresholds)
    (hreached : threshold.attempts ≤ attempts) :
    ∃ matched ∈ policy.thresholds, matchedThreshold policy.thresholds attempts = some matched ∧
      matched.attempts ≤ attempts ∧ threshold.attempts ≤ matched.attempts ∧
      threshold.lockMinutes ≤ matched.lockMinutes := by
  obtain ⟨⟨ht12, ht23⟩, hd12, hd23⟩ := hascending
  simp only [LockoutPolicy.thresholds, List.mem_cons, List.not_mem_nil, or_false] at hthreshold
  by_cases h3 : policy.lockoutThreshold3 ≤ attempts
  · refine ⟨⟨policy.lockoutThreshold3, policy.lockoutDuration3Minutes⟩, by simp [LockoutPolicy.thresholds],
      by simp [matchedThreshold, LockoutPolicy.thresholds, h3], h3, ?_⟩
    rcases hthreshold with rfl | rfl | rfl <;> constructor <;> dsimp only <;> omega
  by_cases h2 : policy.lockoutThreshold2 ≤ attempts
  · refine ⟨⟨policy.lockoutThreshold2, policy.lockoutDuration2Minutes⟩, by simp [LockoutPolicy.thresholds],
      by simp [matchedThreshold, LockoutPolicy.thresholds, h3, h2], h2, ?_⟩
    rcases hthreshold with rfl | rfl | rfl <;> dsimp only at hreached ⊢ <;> omega
  · rcases hthreshold with rfl | rfl | rfl
    · exact absurd hreached h3
    · exact absurd hreached h2
    · exact ⟨⟨policy.lockoutThreshold1, policy.lockoutDuration1Minutes⟩, by simp [LockoutPolicy.thresholds],
        by simp [matchedThreshold, LockoutPolicy.thresholds, h3, h2, hreached], hreached, le_rfl, le_rfl⟩

theorem LockoutPolicy.InRange.level (hrange : policy.InRange) (hthreshold : threshold ∈ policy.thresholds) :
    lockoutThresholdMin ≤ threshold.attempts ∧ threshold.lockMinutes ≤ lockoutDurationMax := by
  simp only [LockoutPolicy.thresholds, List.mem_cons, List.not_mem_nil, or_false] at hthreshold
  rcases hthreshold with rfl | rfl | rfl <;> exact ⟨(hrange.1 _ (by simp)).1, (hrange.2 _ (by simp)).2⟩

theorem Failure.matchedThreshold_unread (hunread : failure.thresholdsRead = false)
    (hattempts : lockoutThresholdMin ≤ attempts) :
    matchedThreshold (failure.thresholds policy) attempts = some ⟨lockoutThresholdMin, lockoutDurationMax⟩ := by
  simp [matchedThreshold, Failure.thresholds, hunread, getLockoutThresholds, strictestLockoutThresholds, hattempts]

/-- Whether or not the table could be read, the level that is matched locks as long as every level that has been
reached. -/
theorem Failure.matchedThreshold_longest (hrange : policy.InRange) (hascending : policy.Ascending)
    (hthreshold : threshold ∈ policy.thresholds) (hreached : threshold.attempts ≤ attempts) :
    ∃ matched, matchedThreshold (failure.thresholds policy) attempts = some matched ∧
      threshold.lockMinutes ≤ matched.lockMinutes := by
  cases hread : failure.thresholdsRead with
  | true =>
    obtain ⟨matched, -, hmatched, -, -, hlonger⟩ := matchedThreshold_max hascending hthreshold hreached
    exact ⟨matched, by simpa [Failure.thresholds, hread, getLockoutThresholds] using hmatched, hlonger⟩
  | false =>
    obtain ⟨hpositive, hlonger⟩ := hrange.level hthreshold
    exact ⟨_, Failure.matchedThreshold_unread hread (hpositive.trans hreached), hlonger⟩

end Step

end PasswdSso.Lockout
