import Mathlib.Data.List.Dedup
import Mathlib.Data.List.Sort
import Mathlib.Data.List.TakeWhile
import PasswdSso.Common

/-!
# The tenant claim of a sign-in

`src/lib/tenant/tenant-claim.ts` reads the claim from the profile that the identity provider asserts, and
`normalizeTenantClaim` of `src/lib/tenant/tenant-claim-registry.ts` turns it into the key of the claim registry.
Strings are lists of characters. The lower-case mapping of JavaScript is a parameter; the one of the database is that
of the `C` collation.
-/

namespace PasswdSso.SignIn

open List

/-- `String.prototype.toLowerCase`: what a character becomes may depend on the characters around it (final sigma) and
may be several characters (dotted capital I). -/
structure CaseMapping where
  lower : (before : List Char) → Char → (after : List Char) → List Char
  lower_ascii : ∀ before c after, c.toNat < 128 → lower before c after = [c.toLower]
  lower_ne_nil : ∀ before c after, lower before c after ≠ []

def CaseMapping.lowerFrom (m : CaseMapping) : (before : List Char) → List Char → List Char
  | _, [] => []
  | before, c :: after => m.lower before c after ++ m.lowerFrom (before ++ [c]) after

def CaseMapping.toLowerCase (m : CaseMapping) (chars : List Char) : List Char := m.lowerFrom [] chars

/-- `normalizeTenantClaim`: the key under which `resolveTenantByClaim` looks a claim up. -/
def normalizeTenantClaim (m : CaseMapping) (input : List Char) : List Char := m.toLowerCase (jsTrim input)

/-- `btrim` of the database, which removes spaces only. -/
def btrim (chars : List Char) : List Char :=
  ((chars.dropWhile (· = ' ')).reverse.dropWhile (· = ' ')).reverse

/-- `EXTERNAL_ID_FOLD_SQL`: `lower(btrim(x) COLLATE "C")`, which folds ASCII letters only. -/
def externalIdFold (chars : List Char) : List Char := (btrim chars).map Char.toLower

def unsafeDisplayCharRanges : List (Nat × Nat) :=
  [(0x0000, 0x001F), (0x007F, 0x009F), (0x00AD, 0x00AD), (0x061C, 0x061C), (0x180E, 0x180E), (0x200B, 0x200F),
    (0x2028, 0x2029), (0x202A, 0x202E), (0x2060, 0x2060), (0x2066, 0x2069), (0xFEFF, 0xFEFF)]

def unsafeDisplayChar (c : Char) : Bool :=
  unsafeDisplayCharRanges.any fun range ↦ range.1 ≤ c.toNat && c.toNat ≤ range.2

/-- The whitespace of `ASCII_WHITESPACE_EDGES_RE`. -/
def asciiWhitespace (c : Char) : Bool := c.toNat ∈ [0x20, 0x9, 0xA, 0xD, 0xB, 0xC]

def asciiTrim (chars : List Char) : List Char :=
  ((chars.dropWhile asciiWhitespace).reverse.dropWhile asciiWhitespace).reverse

/-- `U+XXXX`. -/
def codePointName (codePoint : Nat) : String :=
  "U+" ++ String.ofList (((Nat.toDigits 16 codePoint).map Char.toUpper).leftpad 4 '0')

def describeUnsafeChars (value : List Char) : String :=
  let listed := (((value.filter unsafeDisplayChar).map Char.toNat).dedup).insertionSort (· ≤ ·)
  "contains " ++ ", ".intercalate ((listed.take 3).map codePointName) ++
    if listed.length > 3 then " and " ++ toString (listed.length - 3) ++ " more" else ""

def claimRefusal (rule : String) : String := "refused: " ++ rule

inductive ClaimKeyRead
  | claim (value : List Char)
  | absent
  | malformed (diagnosis : String)
  deriving DecidableEq

inductive ProfileValue
  | text (value : List Char)
  | other

abbrev Profile := List (String × ProfileValue)

def maxTenantClaimLength : Nat := 255

/-- `sanitizeTenantClaimValue` of a string. -/
def sanitizeText (value : List Char) : ClaimKeyRead :=
  let cleaned := asciiTrim value
  if cleaned = [] then .absent
  else if jsTrim cleaned = [] then .absent
  else if cleaned.any unsafeDisplayChar then .malformed (claimRefusal (describeUnsafeChars cleaned))
  else if cleaned ≠ jsTrim cleaned then .malformed (claimRefusal "leading or trailing non-ASCII whitespace")
  else if jsLength (String.ofList cleaned) > maxTenantClaimLength then
    .malformed (claimRefusal (toString (jsLength (String.ofList cleaned)) ++ " characters (max " ++
      toString maxTenantClaimLength ++ ")"))
  else .claim cleaned

def sanitizeTenantClaimValue (value : Option ProfileValue) : ClaimKeyRead :=
  match value with
  | none => .absent
  | some .other => .absent
  | some (.text value) => sanitizeText value

def googleHostedDomainKey : String := "hd"

/-- `readClaimKey`; `provider` is that of the account. -/
def readClaimKey (m : CaseMapping) (key : String) (provider : Option String) (profile : Profile) : ClaimKeyRead :=
  if m.toLowerCase key.toList = googleHostedDomainKey.toList ∧ provider ≠ some "google" then .absent
  else sanitizeTenantClaimValue (profile.lookup key)

def defaultTenantClaimKeys : List String := ["tenant_id", "tenantId", "organization", "org", "company", "company_id"]

/-- `parseTenantClaimKeys`; `none` is the throw on a setting that names no key. -/
def parseTenantClaimKeys (setting : Option String) : Option (List String) :=
  match jsTrim ((setting.getD "").toList) with
  | [] => some defaultTenantClaimKeys
  | configured =>
    match ((jsSplit ',' configured).map jsTrim).filter (· ≠ []) with
    | [] => none
    | keys => some (keys.map String.ofList)

def readClaimKeys (m : CaseMapping) (provider : Option String) (profile : Profile) : List String → ClaimKeyRead
  | [] => readClaimKey m googleHostedDomainKey provider profile
  | key :: keys =>
    match readClaimKey m key provider profile with
    | .absent => readClaimKeys m provider profile keys
    | read => read

/-- `extractTenantClaimValue`; `setting` is `AUTH_TENANT_CLAIM_KEYS`, and `none` is the throw. -/
def extractTenantClaimValue (m : CaseMapping) (setting provider : Option String) (profile : Option Profile) :
    Option ClaimKeyRead :=
  match profile with
  | none => some .absent
  | some profile => (parseTenantClaimKeys setting).map (readClaimKeys m provider profile)

/-- A claim that some sign-in of some deployment can assert. -/
def Accepted (m : CaseMapping) (value : List Char) : Prop :=
  ∃ setting provider profile, extractTenantClaimValue m setting provider profile = some (.claim value)

section Trimmed

variable {m : CaseMapping} {value : List Char}

theorem jsTrim_of_sanitizeText {input : List Char} (h : sanitizeText input = .claim value) :
    jsTrim value = value ∧ value ≠ [] := by
  unfold sanitizeText at h
  dsimp only at h
  split_ifs at h with hempty hblank hunsafe hedges hlong
  rw [← ClaimKeyRead.claim.inj h]
  exact ⟨(not_not.mp hedges).symm, hempty⟩

theorem jsTrim_of_readClaimKey {key : String} {provider : Option String} {profile : Profile}
    (h : readClaimKey m key provider profile = .claim value) : jsTrim value = value ∧ value ≠ [] := by
  unfold readClaimKey at h
  split_ifs at h
  unfold sanitizeTenantClaimValue at h
  split at h
  · cases h
  · cases h
  · exact jsTrim_of_sanitizeText h

theorem jsTrim_of_readClaimKeys {keys : List String} {provider : Option String} {profile : Profile}
    (h : readClaimKeys m provider profile keys = .claim value) : jsTrim value = value ∧ value ≠ [] := by
  induction keys with
  | nil => exact jsTrim_of_readClaimKey h
  | cons key keys ih =>
    rw [readClaimKeys] at h
    split at h
    · exact ih h
    · exact jsTrim_of_readClaimKey h

theorem Accepted.jsTrim (h : Accepted m value) : jsTrim value = value ∧ value ≠ [] := by
  obtain ⟨setting, provider, profile, h⟩ := h
  cases profile with
  | none => cases h
  | some profile =>
    cases hkeys : parseTenantClaimKeys setting with
    | none =>
      rw [extractTenantClaimValue, hkeys] at h
      cases h
    | some keys =>
      rw [extractTenantClaimValue, hkeys] at h
      exact jsTrim_of_readClaimKeys (Option.some.inj h)

theorem dropWhile_of_imp {p q : Char → Bool} (hpq : ∀ c, p c = true → q c = true) {chars : List Char}
    (h : chars.dropWhile q = chars) : chars.dropWhile p = chars :=
  dropWhile_eq_self_iff.mpr fun hpos hp ↦ dropWhile_eq_self_iff.mp h hpos (hpq _ hp)

theorem btrim_of_jsTrim (h : jsTrim value = value) : btrim value = value := by
  have hspace (c : Char) (hc : decide (c = ' ') = true) : jsWhitespace c = true := by
    rw [of_decide_eq_true hc]
    rfl
  have hlength : value.length ≤ (value.dropWhile jsWhitespace).length := by
    calc value.length = (jsTrim value).length := by rw [h]
      _ ≤ (value.dropWhile jsWhitespace).length := by
        rw [jsTrim, length_reverse]
        exact (dropWhile_suffix _).length_le.trans (length_reverse ..).le
  have hfront : value.dropWhile jsWhitespace = value :=
    (dropWhile_suffix _).eq_of_length_le hlength
  have hback : value.reverse.dropWhile jsWhitespace = value.reverse := by
    rw [jsTrim, hfront] at h
    rw [← reverse_eq_iff, h]
  rw [btrim, dropWhile_of_imp hspace hfront, dropWhile_of_imp hspace hback, reverse_reverse]

end Trimmed

section Folding

variable {m : CaseMapping}

def PlainFrom (m : CaseMapping) : (before : List Char) → List Char → Prop
  | _, [] => True
  | before, c :: after => (128 ≤ c.toNat → m.lower before c after = [c]) ∧ PlainFrom m (before ++ [c]) after

instance PlainFrom.decidable (m : CaseMapping) : ∀ before chars, Decidable (PlainFrom m before chars)
  | _, [] => instDecidableTrue
  | before, c :: after =>
    have := PlainFrom.decidable m (before ++ [c]) after
    inferInstanceAs (Decidable (_ ∧ _))

/-- `toLowerCase` changes ASCII letters only. -/
def Plain (m : CaseMapping) (value : List Char) : Prop := PlainFrom m [] value

instance (m : CaseMapping) (value : List Char) : Decidable (Plain m value) := PlainFrom.decidable m [] value

theorem length_le_lowerFrom (before chars : List Char) : chars.length ≤ (m.lowerFrom before chars).length := by
  induction chars generalizing before with
  | nil => exact Nat.le_refl _
  | cons c after ih =>
    have hpos := length_pos_iff.mpr (m.lower_ne_nil before c after)
    have hrest := ih (before ++ [c])
    rw [CaseMapping.lowerFrom, length_append, length_cons]
    omega

theorem toLower_of_not_ascii {c : Char} (h : 128 ≤ c.toNat) : c.toLower = c := by
  unfold Char.toLower
  rw [dif_neg]
  rintro ⟨-, hle⟩
  have hle : c.toNat ≤ 90 := UInt32.le_iff_toNat_le.mp hle
  omega

theorem lowerFrom_eq_map_iff (before chars : List Char) :
    m.lowerFrom before chars = chars.map Char.toLower ↔ PlainFrom m before chars := by
  induction chars generalizing before with
  | nil => exact iff_of_true rfl trivial
  | cons c after ih =>
    rw [CaseMapping.lowerFrom, map_cons, PlainFrom, ← ih]
    constructor
    · intro h
      -- every character has an image, so the image of the first one is one character
      obtain ⟨first, rest, hlower⟩ := exists_cons_of_ne_nil (m.lower_ne_nil before c after)
      rw [hlower, cons_append] at h
      obtain ⟨hfirst, htail⟩ := cons.inj h
      have hrest : rest = [] := by
        have hlength := congrArg length htail
        have hle := length_le_lowerFrom (m := m) (before ++ [c]) after
        rw [length_append, length_map] at hlength
        exact length_eq_zero_iff.mp (by omega)
      rw [hrest, nil_append] at htail
      refine ⟨fun hc ↦ ?_, htail⟩
      rw [hlower, hrest, hfirst, toLower_of_not_ascii hc]
    · rintro ⟨hfixed, hrest⟩
      rw [hrest]
      by_cases hc : c.toNat < 128
      · rw [m.lower_ascii before c after hc]
        rfl
      · rw [hfixed (Nat.le_of_not_lt hc), toLower_of_not_ascii (Nat.le_of_not_lt hc)]
        rfl

end Folding

section Identity

variable {m : CaseMapping} {value first second : List Char}

/-- A claim up to whitespace at its edges and the case of ASCII letters. -/
def foldClaim (value : List Char) : List Char := (jsTrim value).map Char.toLower

theorem Accepted.normalize_eq_externalIdFold_iff (h : Accepted m value) :
    normalizeTenantClaim m value = externalIdFold value ↔ Plain m value := by
  rw [normalizeTenantClaim, externalIdFold, h.jsTrim.1, btrim_of_jsTrim h.jsTrim.1]
  exact lowerFrom_eq_map_iff [] value

/-- For accepted claims, the key of the registry identifies a claim up to whitespace and the case of ASCII letters and
agrees with the fold of the database, iff JavaScript folds nothing but ASCII letters in them. -/
theorem claim_identity_iff_plain (hfirst : Accepted m first) (hsecond : Accepted m second) :
    ((normalizeTenantClaim m first = normalizeTenantClaim m second → foldClaim first = foldClaim second) ∧
      normalizeTenantClaim m first = externalIdFold first ∧ normalizeTenantClaim m second = externalIdFold second) ↔
    Plain m first ∧ Plain m second := by
  rw [hfirst.normalize_eq_externalIdFold_iff, hsecond.normalize_eq_externalIdFold_iff]
  refine ⟨And.right, fun hplain ↦ ⟨fun hkey ↦ ?_, hplain⟩⟩
  rw [hfirst.normalize_eq_externalIdFold_iff.mpr hplain.1, hsecond.normalize_eq_externalIdFold_iff.mpr hplain.2] at hkey
  rw [externalIdFold, externalIdFold, btrim_of_jsTrim hfirst.jsTrim.1, btrim_of_jsTrim hsecond.jsTrim.1] at hkey
  rwa [foldClaim, foldClaim, hfirst.jsTrim.1, hsecond.jsTrim.1]

end Identity

/-- The lower case of ASCII letters and of the Kelvin sign U+212A, as in Unicode. -/
def kelvinMapping : CaseMapping where
  lower _ c _ := if c.toNat = 0x212A then ['k'] else [c.toLower]
  lower_ascii _ c _ h := if_neg (by omega)
  lower_ne_nil _ c _ := by split_ifs <;> exact cons_ne_nil _ _

def kelvin : List Char := Char.ofNat 0x212A :: "elvin.example".toList

/-- A claim that begins with a Kelvin sign has the key of another claim, and the database folds it differently. -/
theorem kelvin_claim_identified : Accepted kelvinMapping kelvin ∧ Accepted kelvinMapping "kelvin.example".toList ∧
      normalizeTenantClaim kelvinMapping kelvin = normalizeTenantClaim kelvinMapping "kelvin.example".toList ∧
      foldClaim kelvin ≠ foldClaim "kelvin.example".toList ∧
      normalizeTenantClaim kelvinMapping kelvin ≠ externalIdFold kelvin :=
  ⟨⟨none, some "google", some [("hd", .text kelvin)], by decide +kernel⟩,
    ⟨none, some "google", some [("hd", .text "kelvin.example".toList)], by decide +kernel⟩,
    by decide +kernel, by decide +kernel, by decide +kernel⟩

/-- Two spellings of an ASCII claim. -/
theorem acme_claim_identified :
    (normalizeTenantClaim kelvinMapping "ACME.example".toList = normalizeTenantClaim kelvinMapping "Acme.Example".toList ∧
      foldClaim "ACME.example".toList = foldClaim "Acme.Example".toList) ∧
    normalizeTenantClaim kelvinMapping "ACME.example".toList = externalIdFold "ACME.example".toList := by
  have hfirst : Accepted kelvinMapping "ACME.example".toList :=
    ⟨none, some "google", some [("hd", .text "ACME.example".toList)], by decide +kernel⟩
  have hsecond : Accepted kelvinMapping "Acme.Example".toList :=
    ⟨none, some "google", some [("hd", .text "Acme.Example".toList)], by decide +kernel⟩
  have hplain : Plain kelvinMapping "ACME.example".toList ∧ Plain kelvinMapping "Acme.Example".toList := by
    decide +kernel
  obtain ⟨hkey, hdatabase, -⟩ := (claim_identity_iff_plain hfirst hsecond).mpr hplain
  have hsame : normalizeTenantClaim kelvinMapping "ACME.example".toList =
      normalizeTenantClaim kelvinMapping "Acme.Example".toList := by
    decide +kernel
  exact ⟨⟨hsame, hkey hsame⟩, hdatabase⟩

end PasswdSso.SignIn
