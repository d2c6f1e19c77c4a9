import Mathlib.Logic.Function.Basic
import Mathlib.Data.List.Basic

/-!
# Claims that expire

A set-if-absent cache with expiry. A claim of a key wins when the key has no live record, and then
records the key for the time `ttl`; otherwise it loses and changes nothing. Times are arbitrary, and
`live expiry now` says whether a record with this expiry still counts, so that the two common readings
of the boundary are both instances.

Claims of one key do not depend on the others (`won_filter`). From a cache without a record of the
key, at most one claim wins exactly when the record of the first claim is still live at all later ones
(`wonAt_none_length_le_one_iff`).
-/

namespace PasswdSso.ExpiringClaims

abbrev Records (K T : Type) := K → Option T

variable {K T : Type} [DecidableEq K] [Add T] (live : T → T → Bool) (ttl : T)

/-- One claim: whether it wins, and the records after it. -/
def claim (records : Records K T) (key : K) (now : T) : Bool × Records K T :=
  if (records key).any (live · now) then (false, records)
  else (true, Function.update records key (some (now + ttl)))

def won (records : Records K T) : List (K × T) → List (K × T)
  | [] => []
  | (key, now) :: rest =>
    if (claim live ttl records key now).1 then
      (key, now) :: won (claim live ttl records key now).2 rest
    else won (claim live ttl records key now).2 rest

def wonAt (record : Option T) : List T → List T
  | [] => []
  | now :: rest =>
    if record.any (live · now) then wonAt record rest else now :: wonAt (some (now + ttl)) rest

variable {live ttl}

theorem won_filter (key : K) (records : Records K T) (attempts : List (K × T)) :
    (won live ttl records attempts).filter (·.1 = key) =
      (wonAt live ttl (records key) ((attempts.filter (·.1 = key)).map (·.2))).map (key, ·) := by
  induction attempts generalizing records with
  | nil => rfl
  | cons attempt rest ih =>
    obtain ⟨other, now⟩ := attempt
    by_cases hlive : (records other).any (live · now) = true
    · -- the claim loses and the records stay
      have hclaim : claim live ttl records other now = (false, records) := if_pos hlive
      simp only [won, hclaim, Bool.false_eq_true, if_false, ih]
      by_cases hkey : other = key
      · subst hkey
        simp [wonAt, hlive]
      · simp [hkey]
    · have hclaim : claim live ttl records other now =
          (true, Function.update records other (some (now + ttl))) := if_neg hlive
      simp only [won, hclaim, if_true]
      by_cases hkey : other = key
      · subst hkey
        simp [wonAt, hlive, ih]
      · simp [hkey, ih, Function.update_of_ne (Ne.symm hkey)]

theorem wonAt_some_eq_nil_iff (expiry : T) (times : List T) :
    wonAt live ttl (some expiry) times = [] ↔ ∀ now ∈ times, live expiry now = true := by
  induction times with
  | nil => simp [wonAt]
  | cons now rest ih =>
    by_cases hlive : live expiry now = true
    · simp [wonAt, hlive, ih]
    · simp [wonAt, hlive]

theorem wonAt_none_length_le_one_iff (times : List T) : (wonAt live ttl none times).length ≤ 1 ↔
      ∀ first rest, times = first :: rest → ∀ now ∈ rest, live (first + ttl) now = true := by
  cases times with
  | nil => simp [wonAt]
  | cons first rest =>
    have hwon : (wonAt live ttl none (first :: rest)).length ≤ 1 ↔ wonAt live ttl (some (first + ttl)) rest = [] := by
      rw [← List.length_eq_zero_iff]
      exact Nat.add_le_add_iff_right.trans Nat.le_zero
    rw [hwon, wonAt_some_eq_nil_iff]
    constructor
    · rintro h first' rest' ⟨⟩
      exact h
    · exact fun h ↦ h first rest rfl

end PasswdSso.ExpiringClaims
