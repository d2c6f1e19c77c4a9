import Mathlib.Data.List.Basic

/-!
# Shared vocabulary

The row identifiers, clock readings and string lengths that the models of the routes share, the
tenant membership rows, and the passkey gate (`src/lib/auth/policy/passkey-enforcement.ts`) that
every route consults before it mints a token.
-/

namespace PasswdSso

abbrev Uuid := Nat

abbrev Millis := Int

def msPerSecond : Millis := 1000

def msPerDay : Millis := 24 * 60 * 60 * msPerSecond

def msPerMinute : Millis := 60 * msPerSecond

/-- The `length` of a JavaScript string, in UTF-16 code units. -/
def jsLength (s : String) : Nat :=
  s.toList.foldl (fun length c ↦ length + if c.toNat > 0xFFFF then 2 else 1) 0

/-- The first `n` UTF-16 code units. Of a surrogate pair that is cut in two the first half stays, which is stored as
`U+FFFD`. -/
def jsTake : Nat → List Char → List Char
  | 0, _ | _, [] => []
  | n + 1, c :: rest =>
    if c.toNat ≤ 0xFFFF then c :: jsTake n rest
    else match n with
      | 0 => ['\uFFFD']
      | n + 1 => c :: jsTake n rest

/-- `slice(0, n)` of a JavaScript string. -/
def jsSlice (n : Nat) (s : String) : String := String.ofList (jsTake n s.toList)

def userAgentMaxLength : Nat := 512

/-- The characters that `String.prototype.trim` removes. -/
def jsWhitespace (c : Char) : Bool :=
  c.toNat ∈ [0x9, 0xA, 0xB, 0xC, 0xD, 0x20, 0xA0, 0x1680, 0x2028, 0x2029, 0x202F, 0x205F, 0x3000,
    0xFEFF] || (0x2000 ≤ c.toNat && c.toNat ≤ 0x200A)

/-- `String.prototype.trim`, on the characters of the string. -/
def jsTrim (chars : List Char) : List Char :=
  ((chars.dropWhile jsWhitespace).reverse.dropWhile jsWhitespace).reverse

/-- `String.prototype.split` at one character, on the characters of the string. -/
def jsSplit (separator : Char) : List Char → List (List Char)
  | [] => [[]]
  | c :: rest =>
    if c = separator then [] :: jsSplit separator rest
    else match jsSplit separator rest with
      | [] => [[c]]
      | first :: others => (c :: first) :: others

structure TenantMember where
  tenantId : Uuid
  userId : Uuid
  deactivatedAt : Option Millis

/-- Why `withUserTenantRls` throws before it opens its transaction. -/
inductive TenantError
  | tenantNotResolved
  | multiTenantMembershipNotSupported
  deriving DecidableEq

/-- `resolveUserTenantId`: the tenant of the only active membership of the user. -/
def resolveUserTenantId (members : List TenantMember) (userId : Uuid) : Except TenantError Uuid :=
  match members.filter fun m ↦ m.userId = userId && m.deactivatedAt.isNone with
  | [] => .error .tenantNotResolved
  | [membership] => .ok membership.tenantId
  | _ :: _ :: _ => .error .multiTenantMembershipNotSupported

def activeMember (members : List TenantMember) (tenantId userId : Uuid) : Bool :=
  match members.find? fun m ↦ m.tenantId = tenantId && m.userId = userId with
  | none => false
  | some member => member.deactivatedAt.isNone

theorem resolveUserTenantId_eq {members : List TenantMember} {userId tenantId rls : Uuid}
    (hresolve : resolveUserTenantId members userId = .ok rls)
    (hactive : activeMember members tenantId userId = true) : rls = tenantId := by
  unfold activeMember at hactive
  split at hactive
  · simp at hactive
  rename_i member hfind
  have hmember := List.find?_some hfind
  simp only [Bool.and_eq_true, decide_eq_true_eq] at hmember
  have hmem : member ∈ members.filter fun m ↦ m.userId = userId && m.deactivatedAt.isNone := by
    rw [List.mem_filter]
    exact ⟨List.mem_of_find?_eq_some hfind, by simp [hmember.2, hactive]⟩
  unfold resolveUserTenantId at hresolve
  split at hresolve
  · simp at hresolve
  · rename_i membership hfilter
    rw [hfilter, List.mem_singleton] at hmem
    rw [← Except.ok.inj hresolve, ← hmem, hmember.1]
  · simp at hresolve

namespace Passkey

/-- The passkey columns of a `tenants` row. -/
structure TenantPolicy where
  id : Uuid
  requirePasskey : Bool
  requirePasskeyEnabledAt : Option Millis
  passkeyGracePeriodDays : Option Int

/-- What `derivePasskeyState` answers. -/
structure PasskeyState where
  requirePasskey : Bool
  hasPasskey : Bool
  requirePasskeyEnabledAt : Option Millis
  passkeyGracePeriodDays : Option Int

/-- `isPasskeyGracePeriodExpired`, at the clock reading `now`. -/
def isPasskeyGracePeriodExpired (requirePasskeyEnabledAt : Option Millis)
    (passkeyGracePeriodDays : Option Int) (now : Millis) : Bool :=
  match requirePasskeyEnabledAt, passkeyGracePeriodDays with
  | none, _ => true
  | some _, none => true
  | some enabledAt, some days => days ≤ 0 || now > enabledAt + days * msPerDay

/-- `passkeyEnforcementBlocks`, at the clock reading `now`. -/
def passkeyEnforcementBlocks (p : PasskeyState) (now : Millis) : Bool :=
  p.requirePasskey && !p.hasPasskey &&
    isPasskeyGracePeriodExpired p.requirePasskeyEnabledAt p.passkeyGracePeriodDays now

/-- `derivePasskeyState` over the owners of the stored credentials and the tenant rows; `none` is
the throw on a missing tenant. -/
def derivePasskeyState (credentialOwners : List Uuid) (tenants : List TenantPolicy)
    (userId tenantId : Uuid) : Option PasskeyState :=
  (tenants.find? (·.id = tenantId)).map fun tenant ↦
    { requirePasskey := tenant.requirePasskey
      hasPasskey := credentialOwners.count userId > 0
      requirePasskeyEnabledAt := tenant.requirePasskeyEnabledAt
      passkeyGracePeriodDays := tenant.passkeyGracePeriodDays }

end Passkey

end PasswdSso
