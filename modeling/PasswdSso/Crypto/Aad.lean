import PasswdSso.Common
import PasswdSso.LengthPrefixed

/-!
# Additional authenticated data

The builders of `src/lib/crypto/crypto-aad.ts`. Each has a scope of two characters and writes its arguments as
length-prefixed fields, so that no two calls with different arguments give the same bytes. What counts as the same
argument is `AadCall.normalize`: an omitted argument is its default, and a webhook of a tenant has no team, whether
`teamId` is absent or the empty string.

How JavaScript prints an integer is a parameter; that it prints different integers differently is all that is used.
-/

namespace PasswdSso.Crypto

open LengthPrefixed List

/-- `Number.prototype.toString` on integers. -/
structure NumberFormat where
  string : Int → String
  injective : ∀ first second, string first = string second → first = second

/-- `TextEncoder.encode`. -/
def encode (s : String) : List UInt8 := s.toByteArray.data.toList

def aadVersion : UInt8 := 1

def scopeBytes (scope : String) : List UInt8 := scope.toList.map fun c ↦ UInt8.ofNat c.toNat

def oversized (encoded : List UInt8) : Bool := encoded.length > maxLength

def buildAADBytes (scope : String) (expectedFieldCount : Nat) (fields : List String) : Except String (List UInt8) :=
  if jsLength scope ≠ 2 then .error ("AAD scope must be exactly 2 ASCII chars, got \"" ++ scope ++ "\"")
  else if fields.length ≠ expectedFieldCount then
    .error ("AAD scope \"" ++ scope ++ "\" expects " ++ toString expectedFieldCount ++ " fields, got " ++
      toString fields.length)
  else
    let encodedFields := fields.map encode
    match encodedFields.find? oversized with
    | some encoded => .error ("AAD field too long: " ++ toString encoded.length ++ " bytes (max 65535)")
    | none => .ok (scopeBytes scope ++ [aadVersion, UInt8.ofNat fields.length] ++ frames encodedFields)

section Builders

variable (format : NumberFormat)

def buildPersonalEntryAAD (userId entryId vaultType : String) : Except String (List UInt8) :=
  buildAADBytes "PV" 3 [userId, entryId, vaultType]

def buildTeamEntryAAD (teamId entryId : String) (vaultType : Option String) (itemKeyVersion : Option Int) :
    Except String (List UInt8) :=
  buildAADBytes "OV" 4 [teamId, entryId, vaultType.getD "blob", format.string (itemKeyVersion.getD 0)]

def buildItemKeyWrapAAD (teamId entryId : String) (teamKeyVersion : Int) : Except String (List UInt8) :=
  buildAADBytes "IK" 3 [teamId, entryId, format.string teamKeyVersion]

def buildAttachmentAAD (entryId attachmentId : String) : Except String (List UInt8) :=
  buildAADBytes "AT" 2 [entryId, attachmentId]

def buildAttachmentCekWrapAAD (entryId attachmentId : String) (cekKeyVersion cekWrapAadVersion : Int) :
    Except String (List UInt8) :=
  buildAADBytes "AW" 4 [entryId, attachmentId, format.string cekKeyVersion, format.string cekWrapAadVersion]

def buildTeamKeyWrapAAD (teamId toUserId : String) (keyVersion wrapVersion : Int) : Except String (List UInt8) :=
  buildAADBytes "OK" 4 [teamId, toUserId, format.string keyVersion, format.string wrapVersion]

def buildAdminResetAAD (tenantId resetId targetEmailAtInitiate : String) : Except String (List UInt8) :=
  buildAADBytes "AR" 3 [tenantId, resetId, targetEmailAtInitiate]

def buildEmergencyWrapAAD (grantId ownerId granteeId : String) (keyVersion wrapVersion : Int) :
    Except String (List UInt8) :=
  buildAADBytes "EM" 5 [grantId, ownerId, granteeId, format.string keyVersion, format.string wrapVersion]

/-- A `teamId` that JavaScript takes for true. -/
def truthy (teamId : Option String) : Option String := teamId.filter (· ≠ "")

def webhookFields (tableName : String) (version : Int) (webhookId tenantId : String) (teamId : Option String) :
    List String :=
  [tableName, "v" ++ format.string version, webhookId, tenantId] ++ (truthy teamId).toList

def buildWebhookSecretAAD (tableName : String) (version : Int) (webhookId tenantId : String) (teamId : Option String) :
    Except String (List UInt8) :=
  if version < 1 then
    .error ("webhook AAD: version must be a positive integer (got " ++ format.string version ++ ")")
  else if tableName ≠ "TenantWebhook" ∧ tableName ≠ "TeamWebhook" then
    .error ("webhook AAD: unknown tableName " ++ tableName)
  else if tableName = "TeamWebhook" ∧ truthy teamId = none then .error "webhook AAD: TeamWebhook requires teamId"
  else if tableName = "TenantWebhook" ∧ truthy teamId ≠ none then
    .error "webhook AAD: TenantWebhook must not carry a teamId"
  else
    let fields := webhookFields format tableName version webhookId tenantId teamId
    buildAADBytes "WH" fields.length fields

def buildAccountTokenAAD (userId provider providerAccountId : String) : Except String (List UInt8) :=
  buildAADBytes "AC" 3 [userId, provider, providerAccountId]

end Builders

/-- A call of one of the builders. -/
inductive AadCall
  | personalEntry (userId entryId vaultType : String)
  | teamEntry (teamId entryId : String) (vaultType : Option String) (itemKeyVersion : Option Int)
  | itemKeyWrap (teamId entryId : String) (teamKeyVersion : Int)
  | attachment (entryId attachmentId : String)
  | attachmentCekWrap (entryId attachmentId : String) (cekKeyVersion cekWrapAadVersion : Int)
  | teamKeyWrap (teamId toUserId : String) (keyVersion wrapVersion : Int)
  | adminReset (tenantId resetId targetEmailAtInitiate : String)
  | emergencyWrap (grantId ownerId granteeId : String) (keyVersion wrapVersion : Int)
  | webhookSecret (tableName : String) (version : Int) (webhookId tenantId : String) (teamId : Option String)
  | accountToken (userId provider providerAccountId : String)
  deriving DecidableEq

namespace AadCall

variable (format : NumberFormat)

/-- What the call returns. -/
def build : AadCall → Except String (List UInt8)
  | personalEntry userId entryId vaultType => buildPersonalEntryAAD userId entryId vaultType
  | teamEntry teamId entryId vaultType itemKeyVersion =>
    buildTeamEntryAAD format teamId entryId vaultType itemKeyVersion
  | itemKeyWrap teamId entryId teamKeyVersion => buildItemKeyWrapAAD format teamId entryId teamKeyVersion
  | attachment entryId attachmentId => buildAttachmentAAD entryId attachmentId
  | attachmentCekWrap entryId attachmentId cekKeyVersion cekWrapAadVersion =>
    buildAttachmentCekWrapAAD format entryId attachmentId cekKeyVersion cekWrapAadVersion
  | teamKeyWrap teamId toUserId keyVersion wrapVersion =>
    buildTeamKeyWrapAAD format teamId toUserId keyVersion wrapVersion
  | adminReset tenantId resetId targetEmailAtInitiate => buildAdminResetAAD tenantId resetId targetEmailAtInitiate
  | emergencyWrap grantId ownerId granteeId keyVersion wrapVersion =>
    buildEmergencyWrapAAD format grantId ownerId granteeId keyVersion wrapVersion
  | webhookSecret tableName version webhookId tenantId teamId =>
    buildWebhookSecretAAD format tableName version webhookId tenantId teamId
  | accountToken userId provider providerAccountId => buildAccountTokenAAD userId provider providerAccountId

/-- The arguments, with the defaults for what was omitted. -/
def normalize : AadCall → AadCall
  | teamEntry teamId entryId vaultType itemKeyVersion =>
    teamEntry teamId entryId (some (vaultType.getD "blob")) (some (itemKeyVersion.getD 0))
  | webhookSecret tableName version webhookId tenantId teamId =>
    webhookSecret tableName version webhookId tenantId (truthy teamId)
  | call => call

def scope : AadCall → String
  | personalEntry .. => "PV"
  | teamEntry .. => "OV"
  | itemKeyWrap .. => "IK"
  | attachment .. => "AT"
  | attachmentCekWrap .. => "AW"
  | teamKeyWrap .. => "OK"
  | adminReset .. => "AR"
  | emergencyWrap .. => "EM"
  | webhookSecret .. => "WH"
  | accountToken .. => "AC"

def fields : AadCall → List String
  | personalEntry userId entryId vaultType => [userId, entryId, vaultType]
  | teamEntry teamId entryId vaultType itemKeyVersion =>
    [teamId, entryId, vaultType.getD "blob", format.string (itemKeyVersion.getD 0)]
  | itemKeyWrap teamId entryId teamKeyVersion => [teamId, entryId, format.string teamKeyVersion]
  | attachment entryId attachmentId => [entryId, attachmentId]
  | attachmentCekWrap entryId attachmentId cekKeyVersion cekWrapAadVersion =>
    [entryId, attachmentId, format.string cekKeyVersion, format.string cekWrapAadVersion]
  | teamKeyWrap teamId toUserId keyVersion wrapVersion =>
    [teamId, toUserId, format.string keyVersion, format.string wrapVersion]
  | adminReset tenantId resetId targetEmailAtInitiate => [tenantId, resetId, targetEmailAtInitiate]
  | emergencyWrap grantId ownerId granteeId keyVersion wrapVersion =>
    [grantId, ownerId, granteeId, format.string keyVersion, format.string wrapVersion]
  | webhookSecret tableName version webhookId tenantId teamId =>
    webhookFields format tableName version webhookId tenantId teamId
  | accountToken userId provider providerAccountId => [userId, provider, providerAccountId]

/-- One of the builder's own checks of its arguments fails. -/
def Refused : AadCall → Prop
  | webhookSecret tableName version _ _ teamId =>
    version < 1 ∨ (tableName ≠ "TenantWebhook" ∧ tableName ≠ "TeamWebhook") ∨
      (tableName = "TeamWebhook" ∧ truthy teamId = none) ∨ (tableName = "TenantWebhook" ∧ truthy teamId ≠ none)
  | _ => False

variable {format} {call first second : AadCall} {bytes : List UInt8}

def written (format : NumberFormat) (call : AadCall) : List UInt8 :=
  scopeBytes call.scope ++ [aadVersion, UInt8.ofNat (call.fields format).length] ++
    frames ((call.fields format).map encode)

/-- Some field does not fit its prefix. -/
def Oversized (format : NumberFormat) (call : AadCall) : Prop :=
  ∃ field ∈ call.fields format, maxLength < (encode field).length

theorem buildAADBytes_eq {scope : String} {fields : List String} (hscope : jsLength scope = 2) :
    (∃ message, buildAADBytes scope fields.length fields = .error message) ∧
        (∃ field ∈ fields, maxLength < (encode field).length) ∨
      buildAADBytes scope fields.length fields =
          .ok (scopeBytes scope ++ [aadVersion, UInt8.ofNat fields.length] ++ frames (fields.map encode)) ∧
        ∀ field ∈ fields, (encode field).length ≤ maxLength := by
  unfold buildAADBytes
  rw [if_neg (not_not.mpr hscope), if_neg (not_not.mpr rfl)]
  dsimp only
  split
  next encoded hfind =>
    obtain ⟨field, hfield, rfl⟩ := mem_map.mp (mem_of_find?_eq_some hfind)
    exact .inl ⟨⟨_, rfl⟩, field, hfield, by simpa [oversized] using find?_some hfind⟩
  next hfind =>
    refine .inr ⟨rfl, fun field hfield ↦ ?_⟩
    simpa [oversized] using find?_eq_none.mp hfind _ (mem_map_of_mem hfield)

theorem build_eq (call : AadCall) : call.Refused ∧ (∃ message, call.build format = .error message) ∨
    ¬ call.Refused ∧ call.build format = buildAADBytes call.scope (call.fields format).length (call.fields format) := by
  cases call with
  | webhookSecret tableName version webhookId tenantId teamId =>
    simp only [Refused, build, buildWebhookSecretAAD]
    split_ifs with hversion hname hteam htenant
    · exact .inl ⟨.inl hversion, _, rfl⟩
    · exact .inl ⟨.inr (.inl hname), _, rfl⟩
    · exact .inl ⟨.inr (.inr (.inl hteam)), _, rfl⟩
    · exact .inl ⟨.inr (.inr (.inr htenant)), _, rfl⟩
    · refine .inr ⟨?_, rfl⟩
      rintro (h | h | h | h)
      · exact hversion h
      · exact hname h
      · exact hteam h
      · exact htenant h
  | _ => exact .inr ⟨id, rfl⟩

def scopes : List String := ["PV", "OV", "IK", "AT", "AW", "OK", "AR", "EM", "WH", "AC"]

theorem scope_mem (call : AadCall) : call.scope ∈ scopes := by
  cases call <;> simp [scope, scopes]

theorem scopes_spec : ∀ first ∈ scopes, (jsLength first = 2 ∧ (scopeBytes first).length = 2) ∧
    ∀ second ∈ scopes, scopeBytes first = scopeBytes second → first = second := by
  decide +kernel

theorem build_cases (call : AadCall) :
    (∃ message, call.build format = .error message) ∧ (call.Refused ∨ call.Oversized format) ∨
      call.build format = .ok (call.written format) ∧ ¬ call.Refused ∧ ¬ call.Oversized format := by
  rcases @build_eq format call with ⟨hrefused, herror⟩ | ⟨hchecked, hbuild⟩
  · exact .inl ⟨herror, .inl hrefused⟩
  rw [hbuild]
  rcases @buildAADBytes_eq _ (call.fields format) (scopes_spec _ call.scope_mem).1.1 with ⟨herror, hlong⟩ | ⟨hok, hfits⟩
  · exact .inl ⟨herror, .inr hlong⟩
  · refine .inr ⟨hok, hchecked, ?_⟩
    rintro ⟨field, hfield, hlong⟩
    exact absurd (hfits field hfield) (Nat.not_le_of_lt hlong)

theorem encode_injective {first second : String} (h : encode first = encode second) : first = second :=
  String.toByteArray_inj.mp (ByteArray.ext (Array.toList_inj.mp h))

theorem map_encode_injective {first second : List String} (h : first.map encode = second.map encode) :
    first = second :=
  map_injective_iff.mpr (fun _ _ ↦ encode_injective) h

theorem scope_and_fields (hfirst : ¬ first.Oversized format) (hsecond : ¬ second.Oversized format)
    (h : first.written format = second.written format) :
    first.scope = second.scope ∧ first.fields format = second.fields format := by
  unfold written at h
  rw [append_assoc, append_assoc] at h
  obtain ⟨⟨-, hlength⟩, hinjective⟩ := scopes_spec _ first.scope_mem
  obtain ⟨hscope, hrest⟩ := append_inj h (hlength.trans (scopes_spec _ second.scope_mem).1.2.symm)
  have hframes := (append_inj hrest rfl).2
  have hfits {call : AadCall} (hcall : ¬ call.Oversized format) :
      ∀ field ∈ (call.fields format).map encode, field.length ≤ maxLength := by
    intro encoded hencoded
    obtain ⟨field, hfield, rfl⟩ := mem_map.mp hencoded
    exact Nat.not_lt.mp fun hlong ↦ hcall ⟨field, hfield, hlong⟩
  exact ⟨hinjective _ second.scope_mem hscope,
    map_encode_injective (frames_injective (hfits hfirst) (hfits hsecond) hframes)⟩

theorem normalize_eq (hscope : first.scope = second.scope) (hfields : first.fields format = second.fields format) :
    first.normalize = second.normalize := by
  have hversion {a b : Int} : format.string a = format.string b ↔ a = b :=
    ⟨format.injective a b, fun h ↦ by rw [h]⟩
  have hoption {a b : Option String} : a.toList = b.toList ↔ a = b := by
    cases a <;> cases b <;> simp
  -- Different builders have different scopes.
  cases first <;> cases second <;> simp only [scope, String.reduceEq] at hscope <;>
    simp_all [fields, normalize, webhookFields]

end AadCall

/-- Two calls of the builders that return the same bytes are calls of one builder with the same arguments, up to defaults;
and a call throws iff one of its own checks fails or a field is longer than 65535 bytes. -/
theorem aad_domain_separation (format : NumberFormat) :
    (∀ first second bytes, AadCall.build format first = .ok bytes → AadCall.build format second = .ok bytes →
      first.normalize = second.normalize) ∧
    ∀ call, (∃ message, AadCall.build format call = .error message) ↔ call.Refused ∨ call.Oversized format := by
  constructor
  · intro first second bytes hfirst hsecond
    rcases first.build_cases with ⟨⟨message, herror⟩, -⟩ | ⟨hfirstOk, -, hfirstFits⟩
    · exact nomatch herror.symm.trans hfirst
    rcases second.build_cases with ⟨⟨message, herror⟩, -⟩ | ⟨hsecondOk, -, hsecondFits⟩
    · exact nomatch herror.symm.trans hsecond
    have hwritten : first.written format = second.written format := by
      rw [← Except.ok.inj (hfirst.symm.trans hfirstOk), ← Except.ok.inj (hsecond.symm.trans hsecondOk)]
    obtain ⟨hscope, hfields⟩ := AadCall.scope_and_fields hfirstFits hsecondFits hwritten
    exact AadCall.normalize_eq hscope hfields
  · intro call
    rcases call.build_cases with ⟨herror, hreason⟩ | ⟨hok, hchecked, hfits⟩
    · exact iff_of_true herror hreason
    · refine iff_of_false ?_ (not_or.mpr ⟨hchecked, hfits⟩)
      rintro ⟨message, herror⟩
      exact nomatch hok.symm.trans herror

theorem repr_injective {first second : Nat} (h : first.repr = second.repr) : first = second := by
  rw [Nat.repr_eq_ofList_toDigits, Nat.repr_eq_ofList_toDigits] at h
  have hdigits : Nat.toDigits 10 first = Nat.toDigits 10 second := String.ofList_injective h
  have hvalue (n : Nat) : Nat.ofDigitChars 10 (Nat.toDigits 10 n) 0 = n :=
    Nat.ofDigitChars_toDigits (by decide) (by decide)
  rw [← hvalue first, hdigits, hvalue]

theorem repr_ne_neg (n : Nat) (s : String) : n.repr ≠ "-" ++ s := by
  intro h
  have hmem : '-' ∈ Nat.toDigits 10 n := by
    have hlist : Nat.toDigits 10 n = '-' :: s.toList := by
      rw [Nat.repr_eq_ofList_toDigits] at h
      simpa using congrArg String.toList h
    rw [hlist]
    exact mem_cons_self
  exact absurd (Nat.isDigit_of_mem_toDigits (by decide) (by decide) hmem) (by decide)

/-- Decimal digits, with a sign. -/
def decimal : NumberFormat where
  string := Int.repr
  injective := by
    rintro (first | first) (second | second) h
    · rw [repr_injective h]
    · exact absurd h (repr_ne_neg first _)
    · exact absurd h.symm (repr_ne_neg second _)
    · rw [Nat.succ.inj (repr_injective ((String.append_right_inj "-").mp h))]

/-- Two attachments of one entry. -/
theorem attachment_aad_separated : (∃ bytes, AadCall.build decimal (.attachment "e" "a") = .ok bytes) ∧
      ¬ ∃ bytes, AadCall.build decimal (.attachment "e" "a") = .ok bytes ∧
        AadCall.build decimal (.attachment "e" "b") = .ok bytes := by
  refine ⟨⟨_, rfl⟩, ?_⟩
  rintro ⟨bytes, hfirst, hsecond⟩
  exact absurd ((aad_domain_separation decimal).1 _ _ bytes hfirst hsecond) (by decide)

theorem empty_teamId_same_bytes : AadCall.build decimal (.webhookSecret "TenantWebhook" 1 "w" "t" (some "")) =
        AadCall.build decimal (.webhookSecret "TenantWebhook" 1 "w" "t" none) ∧
      (∃ bytes, AadCall.build decimal (.webhookSecret "TenantWebhook" 1 "w" "t" none) = .ok bytes) ∧
      AadCall.webhookSecret "TenantWebhook" 1 "w" "t" (some "") ≠ .webhookSecret "TenantWebhook" 1 "w" "t" none := by
  refine ⟨by decide +kernel, ⟨_, rfl⟩, by decide⟩

end PasswdSso.Crypto
