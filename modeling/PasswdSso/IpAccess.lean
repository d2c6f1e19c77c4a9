import Mathlib.Tactic.Common

/-!
# The address of a client

`src/lib/auth/policy/ip-access.ts`: the parsers of addresses, the match of an address with a range, and
`extractClientIpFromHeaders`, which walks the addresses of `X-Forwarded-For` from the right past the trusted proxies.
A text is the list of its characters.
-/

namespace PasswdSso.IpAccess

open List

abbrev Text := List Char

/-! ### Addresses -/

/-- The value of digits in a base. -/
def digitsValue (base : Nat) (digits : Text) : Nat :=
  digits.foldl (fun value c ↦ base * value +
    (if c.isDigit then c.toNat - '0'.toNat else c.toLower.toNat - 'a'.toNat + 10)) 0

/-- A decimal octet without leading zeros. -/
def parseOctet (part : Text) : Option Nat :=
  if part = ['0'] ∨ part.head? ≠ some '0' ∧ part ≠ [] ∧ part.length ≤ 3 ∧ part.all Char.isDigit then
    let n := digitsValue 10 part
    if n > 255 then none else some n
  else none

def parseIpv4 (ip : Text) : Option (List Nat) :=
  let parts := ip.splitOn '.'
  if parts.length ≠ 4 then none else parts.mapM parseOctet

def isHexDigit (c : Char) : Bool := c.isDigit || ('a' ≤ c && c ≤ 'f') || ('A' ≤ c && c ≤ 'F')

/-- The two bytes of a group of one to four hexadecimal digits. -/
def parseGroup (group : Text) : Option (List Nat) :=
  if group ≠ [] ∧ group.length ≤ 4 ∧ group.all isHexDigit then
    let val := digitsValue 16 group
    some [val / 256, val % 256]
  else none

def parseGroups (s : Text) : Option (List Nat) :=
  if s = [] then some [] else ((s.splitOn ':').mapM parseGroup).map flatten

/-- The split at `::`. -/
def splitDouble : Text → List Text
  | ':' :: ':' :: rest => [] :: splitDouble rest
  | c :: rest => (splitDouble rest).modifyHead (c :: ·)
  | [] => [[]]

/-- `parseIpv6` on a text without a dotted quad. -/
def parseHexGroups (ip : Text) : Option (List Nat) :=
  match splitDouble ip with
  | [whole] => do
    let bytes ← parseGroups whole
    if bytes.length ≠ 16 then none else some bytes
  | [before, after] => do
    let left ← parseGroups before
    let right ← parseGroups after
    if left.length + right.length ≥ 16 then none
    else some (left ++ replicate (16 - (left.length + right.length)) 0 ++ right)
  | _ => none

/-- `parseIpv6`: a dotted quad at the end is rewritten into the two groups that it denotes. -/
def parseIpv6 (ip : Text) : Option (List Nat) :=
  let tail := (ip.reverse.takeWhile (· ≠ ':')).reverse
  if ':' ∈ ip ∧ '.' ∈ tail then
    match parseIpv4 tail with
    | some [a, b, c, d] => parseHexGroups
        (ip.take (ip.length - tail.length) ++ Nat.toDigits 16 (256 * a + b) ++ ':' :: Nat.toDigits 16 (256 * c + d))
    | _ => none
  else parseHexGroups ip

def ipv4BytesFromMappedIpv6 (ip : Text) : Option (List Nat) :=
  match parseIpv6 ip with
  | some parsed => if parsed.take 12 = replicate 10 0 ++ [255, 255] then some (parsed.drop 12) else none
  | none => none

/-- The white space of `trim`. -/
def isSpace (c : Char) : Bool :=
  c.toNat ∈ [0x9, 0xA, 0xB, 0xC, 0xD, 0x20, 0xA0, 0x1680, 0x2028, 0x2029, 0x202F, 0x205F, 0x3000, 0xFEFF] ||
    (0x2000 ≤ c.toNat && c.toNat ≤ 0x200A)

def trim (s : Text) : Text := ((s.dropWhile isSpace).reverse.dropWhile isSpace).reverse

/-- Four parts of one to three digits. -/
def isDotted (s : Text) : Bool :=
  (s.splitOn '.').length = 4 && (s.splitOn '.').all fun part ↦ part ≠ [] && part.length ≤ 3 && part.all Char.isDigit

def normalizeIp (ip : Text) : Text :=
  let trimmed := trim ip
  let unwrapped := if trimmed.head? = some '[' ∧ trimmed.getLast? = some ']' then trimmed.tail.dropLast else trimmed
  if (unwrapped.take 7).map Char.toLower = "::ffff:".toList ∧ isDotted (unwrapped.drop 7) then unwrapped.drop 7
  else match ipv4BytesFromMappedIpv6 unwrapped with
    | some bytes => ['.'].intercalate (bytes.map (Nat.toDigits 10))
    | none => unwrapped

/-! ### Ranges -/

inductive IpVersion
  | v4
  | v6
  deriving DecidableEq

def IpVersion.byteCount : IpVersion → Nat
  | .v4 => 4
  | .v6 => 16

structure ParsedCidr where
  ip : List Nat
  prefixLen : Nat
  version : IpVersion

def matchesPrefix (ipBytes networkBytes : List Nat) (prefixLen : Nat) : Bool :=
  let fullBytes := prefixLen / 8
  let mask := 0xff <<< (8 - prefixLen % 8)
  ipBytes.take fullBytes = networkBytes.take fullBytes &&
    (prefixLen % 8 = 0 || ipBytes.getD fullBytes 0 &&& mask = networkBytes.getD fullBytes 0 &&& mask)

def isIpInParsedCidr (ip : Text) (parsed : ParsedCidr) : Bool :=
  let ipBytes := match parsed.version with
    | .v4 => parseIpv4 (normalizeIp ip)
    | .v6 => parseIpv6 ip
  match ipBytes with
  | some bytes => bytes.length = parsed.version.byteCount && matchesPrefix bytes parsed.ip parsed.prefixLen
  | none => false

/-! ### Clients -/

/-- `getTrustedProxies` and `TRUST_PROXY_HEADERS`. -/
structure Config where
  trustedProxies : List ParsedCidr
  trustProxyHeaders : Bool

/-- The headers `x-forwarded-for` and `x-real-ip`. -/
structure Headers where
  xff : Option Text
  xRealIp : Option Text

variable (config : Config) (headers : Headers) (socketIp : Option Text)

def Config.isTrusted (ip : Text) : Bool := config.trustedProxies.any (isIpInParsedCidr ip)

/-- The addresses in `X-Forwarded-For`. -/
def forwarded (xff : Text) : List Text := (xff.splitOn ',').map normalizeIp

/-- The loop over `X-Forwarded-For`, from the right. -/
def rightmostUntrusted (xff : Text) : Option Text :=
  (forwarded xff).reverse.find? fun ip ↦ ip ≠ [] && !config.isTrusted ip

/-- What follows when the headers are trusted. -/
def fromHeaders : Option Text :=
  match headers.xff with
  | none | some [] =>
    match headers.xRealIp with
    | none | some [] => none
    | some ip => some (normalizeIp ip)
  | some xff =>
    match rightmostUntrusted config xff with
    | some ip => some ip
    | none =>
      match (forwarded xff).find? (· ≠ []), socketIp with
      | some leftmost, _ => some leftmost
      | none, some [] => none
      | none, _ => socketIp

def extractClientIpFromHeaders : Option Text :=
  match socketIp with
  | none | some [] => if config.trustProxyHeaders then fromHeaders config headers socketIp else none
  | some socket =>
    if config.isTrusted (normalizeIp socket) then fromHeaders config headers socketIp
    else some (normalizeIp socket)

variable {config headers socketIp} {xff ip : Text}

theorem fromHeaders_of_untrusted (hxff : headers.xff = some xff) (hip : rightmostUntrusted config xff = some ip) :
    fromHeaders config headers socketIp = some ip := by
  have hempty : rightmostUntrusted config [] = none := rfl
  cases xff with
  | nil => cases hempty.symm.trans hip
  | cons c rest =>
    rw [fromHeaders, hxff]
    dsimp only
    rw [hip]

/-- The result for a rightmost untrusted entry. -/
def resultFor (config : Config) (socketIp : Option Text) (ip : Text) : Option Text :=
  match socketIp with
  | none | some [] => if config.trustProxyHeaders then some ip else none
  | some socket => some (if config.isTrusted (normalizeIp socket) then ip else normalizeIp socket)

theorem extract_of_untrusted (hxff : headers.xff = some xff) (hip : rightmostUntrusted config xff = some ip) :
    extractClientIpFromHeaders config headers socketIp = resultFor config socketIp ip := by
  unfold extractClientIpFromHeaders resultFor
  rw [fromHeaders_of_untrusted hxff hip]
  split
  · rfl
  · rfl
  · split_ifs <;> rfl

/-- An untrusted entry is found. -/
theorem rightmostUntrusted_isSome (h : ∃ ip ∈ forwarded xff, ip ≠ [] ∧ config.isTrusted ip = false) :
    ∃ ip, rightmostUntrusted config xff = some ip := by
  obtain ⟨ip, hmem, hne, htrusted⟩ := h
  refine Option.isSome_iff_exists.mp (find?_isSome.mpr ⟨ip, mem_reverse.mpr hmem, ?_⟩)
  simp [hne, htrusted]

theorem rightmostUntrusted_prepend (forged : Text) (hip : rightmostUntrusted config xff = some ip) :
    rightmostUntrusted config (forged ++ ',' :: xff) = some ip := by
  rw [rightmostUntrusted, forwarded, splitOn_append_cons_self, map_append, reverse_append,
    find?_append]
  exact Option.or_eq_some_iff.mpr (.inl hip)

theorem rightmostUntrusted_of_split {front back : List Text} (hsplit : forwarded xff = front ++ ip :: back)
    (hne : ip ≠ []) (huntrusted : config.isTrusted ip = false)
    (hback : ∀ other ∈ back, other = [] ∨ config.isTrusted other = true) :
    rightmostUntrusted config xff = some ip := by
  refine find?_eq_some_iff_append.mpr ⟨by simp [hne, huntrusted], back.reverse, front.reverse, by simp [hsplit], ?_⟩
  intro other hother
  rcases hback other (mem_reverse.mp hother) with rfl | htrusted
  · rfl
  · simp [htrusted]

/-- With an untrusted entry in `X-Forwarded-For`, behind which all entries are empty or trusted, the result depends on
that one only, so that nothing in front of it matters; behind an untrusted socket it depends on no header. -/
theorem extractClientIp_unforgeable (config : Config) (socketIp : Option Text) :
    (∀ headers xff front ip back, headers.xff = some xff → forwarded xff = front ++ ip :: back →
      ip ≠ [] → config.isTrusted ip = false → (∀ other ∈ back, other = [] ∨ config.isTrusted other = true) →
      extractClientIpFromHeaders config headers socketIp = resultFor config socketIp ip) ∧
    (∀ xff xRealIp forged, (∃ ip ∈ forwarded xff, ip ≠ [] ∧ config.isTrusted ip = false) →
      extractClientIpFromHeaders config ⟨some (forged ++ ',' :: xff), xRealIp⟩ socketIp =
        extractClientIpFromHeaders config ⟨some xff, xRealIp⟩ socketIp) ∧
    ∀ socket, socketIp = some socket → socket ≠ [] → config.isTrusted (normalizeIp socket) = false →
      ∀ headers, extractClientIpFromHeaders config headers socketIp = some (normalizeIp socket) := by
  refine ⟨?_, ?_, ?_⟩
  · intro headers xff front ip back hxff hsplit hne huntrusted hback
    exact extract_of_untrusted hxff (rightmostUntrusted_of_split hsplit hne huntrusted hback)
  · intro xff xRealIp forged huntrusted
    obtain ⟨ip, hip⟩ := rightmostUntrusted_isSome huntrusted
    rw [extract_of_untrusted rfl (rightmostUntrusted_prepend forged hip), extract_of_untrusted rfl hip]
  · rintro (_ | ⟨c, rest⟩) rfl hne huntrusted headers
    · cases hne rfl
    · simp [extractClientIpFromHeaders, huntrusted]

/-- A client that forges an entry, behind a proxy of the network 10.0.0.0/8 and one on the same host. -/
theorem extractClientIp_forged :
    extractClientIpFromHeaders ⟨[⟨[127, 0, 0, 1], 32, .v4⟩, ⟨[10, 0, 0, 0], 8, .v4⟩], false⟩
      ⟨some "1.1.1.1,9.9.9.9, ,10.0.0.7".toList, none⟩ (some "127.0.0.1".toList) = some "9.9.9.9".toList := by
  refine ((extractClientIp_unforgeable _ _).1 _ _ ["1.1.1.1".toList] "9.9.9.9".toList [[], "10.0.0.7".toList] rfl
    (by decide +kernel) (by decide) (by decide +kernel) (by decide +kernel)).trans (by decide +kernel)

end PasswdSso.IpAccess
