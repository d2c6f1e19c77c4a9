import Mathlib.Data.Nat.Digits.Defs

/-!
# ECDSA signatures between DER and the SSH agent protocol

`derToSshEcdsa` of the agent turns the DER signature of Node into the two strings of an SSH signature,
`sshEcdsaToDer` of the session binding turns it back. The first strips the sign byte that an mpint has to keep, the
second puts it back, so the round trip is the identity and the signature sent is canonical for integers without a
sign byte only.
-/

namespace PasswdSso.Ssh.Ecdsa

open List

/-! ### The encodings of the standards -/

/-- The shortest big-endian form. -/
def magnitude (n : ℕ) : List UInt8 := ((Nat.digits 256 n).map UInt8.ofNat).reverse

/-- Whether the first byte has its top bit set. -/
def topBit : List UInt8 → Bool
  | [] => false
  | first :: _ => first &&& 0x80 != 0

/-- The shortest two's-complement form of a natural number. -/
def twosComplement (n : ℕ) : List UInt8 := if topBit (magnitude n) then 0 :: magnitude n else magnitude n

def derLength (len : ℕ) : List UInt8 :=
  if len < 0x80 then [UInt8.ofNat len] else UInt8.ofNat (0x80 ||| (magnitude len).length) :: magnitude len

def derInteger (n : ℕ) : List UInt8 := 0x02 :: (derLength (twosComplement n).length ++ twosComplement n)

/-- `SEQUENCE { INTEGER r, INTEGER s }`. -/
def derSignature (r s : ℕ) : List UInt8 :=
  0x30 :: (derLength (derInteger r ++ derInteger s).length ++ (derInteger r ++ derInteger s))

/-- A positive integer of at most 66 bytes, the size of the order of P-521. -/
def Scalar : Type := { n : ℕ // 0 < n ∧ n < 256 ^ 66 }

/-! ### Strings of the protocol -/

def uint32 (n : ℕ) : List UInt8 := [n / 0x1000000, n / 0x10000, n / 0x100, n].map UInt8.ofNat

def encodeString (data : List UInt8) : List UInt8 := uint32 data.length ++ data

/-- The number and what follows it; `readUInt32BE` throws on fewer than four bytes. -/
def readUint32 : List UInt8 → Option (ℕ × List UInt8)
  | a :: b :: c :: d :: rest => some (((a.toNat * 256 + b.toNat) * 256 + c.toNat) * 256 + d.toNat, rest)
  | _ => none

/-- The data and what follows it; `subarray` stops at the end. -/
def readString (buf : List UInt8) : Option (List UInt8 × List UInt8) := do
  let (len, rest) ← readUint32 buf
  return (rest.take len, rest.drop len)

/-- An mpint of RFC 4251. -/
def mpint (n : ℕ) : List UInt8 := encodeString (twosComplement n)

/-! ### `derToSshEcdsa` -/

def skipLength : List UInt8 → List UInt8
  | [] => []
  | seqLen :: rest => if topBit [seqLen] then rest.drop (seqLen &&& 0x7f).toNat else rest

/-- The content of an INTEGER and what follows it. A missing length byte reads as an empty content. -/
def readInteger : List UInt8 → Option (List UInt8 × List UInt8)
  | 0x02 :: len :: rest => some (rest.take len.toNat, rest.drop len.toNat)
  | [0x02] => some ([], [])
  | _ => none

def stripZeros : List UInt8 → List UInt8
  | 0 :: next :: rest => stripZeros (next :: rest)
  | data => data

def derToSshEcdsa : List UInt8 → Option (List UInt8)
  | 0x30 :: derSig => do
    let (r, rest) ← readInteger (skipLength derSig)
    let (s, _) ← readInteger rest
    return encodeString (stripZeros r) ++ encodeString (stripZeros s)
  | _ => none

/-! ### `sshEcdsaToDer` -/

/-- The loop of `encodeLen`. -/
def unshift (v : ℕ) (bytes : List UInt8) : List UInt8 :=
  if v = 0 then bytes else unshift (v / 256) (UInt8.ofNat v :: bytes)

def encodeLen (len : ℕ) : List UInt8 :=
  if len < 0x80 then [UInt8.ofNat len] else UInt8.ofNat (0x80 ||| (unshift len []).length) :: unshift len []

def encodeInt (n : List UInt8) : List UInt8 :=
  let value := if topBit n then 0x00 :: n else n
  0x02 :: (encodeLen value.length ++ value)

def sshEcdsaToDer (sshSig : List UInt8) : Option (List UInt8) := do
  let (r, next) ← readString sshSig
  let (s, _) ← readString next
  let seq := encodeInt r ++ encodeInt s
  return 0x30 :: (encodeLen seq.length ++ seq)

/-! ### Lengths and integers -/

theorem magnitude_of_pos {n : ℕ} (hpos : 0 < n) : magnitude n = magnitude (n / 256) ++ [UInt8.ofNat n] := by
  rw [magnitude, Nat.digits_def' (by decide) hpos, map_cons, reverse_cons, UInt8.ofNat_mod_size]
  rfl

theorem unshift_eq (v : ℕ) (bytes : List UInt8) : unshift v bytes = magnitude v ++ bytes := by
  fun_induction unshift v bytes with
  | case1 => rfl
  | case2 v bytes hv ih => rw [ih, magnitude_of_pos (Nat.pos_of_ne_zero hv), append_cons]

theorem encodeLen_eq (len : ℕ) : encodeLen len = derLength len := by
  rw [encodeLen, unshift_eq, append_nil, derLength]

theorem encodeInt_magnitude (n : ℕ) : encodeInt (magnitude n) = derInteger n := by
  rw [encodeInt, encodeLen_eq, derInteger, twosComplement]

/-- The first byte is not zero. The induction is on the bound for the number of bytes. -/
theorem magnitude_eq_cons {k n : ℕ} (hpos : 0 < n) (hlt : n < 256 ^ k) :
    ∃ first rest, magnitude n = first :: rest ∧ first ≠ 0 ∧ rest.length < k := by
  induction k generalizing n with
  | zero => omega
  | succ k ih =>
    rw [magnitude_of_pos hpos]
    rcases Nat.eq_zero_or_pos (n / 256) with hsmall | hlarge
    · rw [hsmall]
      refine ⟨UInt8.ofNat n, [], rfl, fun hzero ↦ ?_, k.succ_pos⟩
      have := congrArg UInt8.toNat hzero
      simp only [UInt8.toNat_ofNat', UInt8.toNat_zero] at this
      omega
    · obtain ⟨first, rest, heq, hfirst, hlength⟩ := ih hlarge (Nat.div_lt_of_lt_mul (by rwa [← Nat.pow_succ']))
      exact ⟨first, _, congrArg (· ++ _) heq, hfirst, by simpa using hlength⟩

theorem length_twosComplement (n : ℕ) :
    (twosComplement n).length = (magnitude n).length + (topBit (magnitude n)).toNat := by
  rw [twosComplement]
  cases topBit (magnitude n) <;> rfl

theorem Scalar.length_magnitude (n : Scalar) : (magnitude n.1).length ≤ 66 := by
  obtain ⟨first, rest, heq, -, hlength⟩ := magnitude_eq_cons n.2.1 n.2.2
  rwa [heq]

theorem Scalar.stripZeros (n : Scalar) : stripZeros (twosComplement n.1) = magnitude n.1 := by
  obtain ⟨first, rest, heq, hfirst, -⟩ := magnitude_eq_cons n.2.1 n.2.2
  rw [twosComplement, heq]
  split <;> simp [Ecdsa.stripZeros, hfirst]

theorem skipLength_derLength {len : ℕ} (rest : List UInt8) (hlen : len < 256) :
    skipLength (derLength len ++ rest) = rest := by
  rw [derLength]
  split_ifs with hshort
  · have : ∀ len < 0x80, topBit [UInt8.ofNat len] = false := by decide
    rw [singleton_append, skipLength, this len hshort]
    rfl
  · have : topBit [0x81] = true := by decide
    rw [magnitude_of_pos (by omega), Nat.div_eq_of_lt hlen]
    simp [magnitude, skipLength, this]

theorem Scalar.derInteger_eq (n : Scalar) : (twosComplement n.1).length ≤ 67 ∧
      derInteger n.1 = 0x02 :: UInt8.ofNat (twosComplement n.1).length :: twosComplement n.1 := by
  have hlength := n.length_magnitude
  have htop := Bool.toNat_le (topBit (magnitude n.1))
  have hle : (twosComplement n.1).length ≤ 67 := by rw [length_twosComplement]; omega
  refine ⟨hle, ?_⟩
  rw [derInteger, derLength, if_pos (by omega)]
  rfl

theorem Scalar.readInteger (n : Scalar) (rest : List UInt8) :
    readInteger (derInteger n.1 ++ rest) = some (twosComplement n.1, rest) := by
  obtain ⟨hle, heq⟩ := n.derInteger_eq
  simp [heq, Ecdsa.readInteger, Nat.mod_eq_of_lt (hle.trans_lt (show 67 < 256 by decide))]

/-! ### The conversions on strict encodings -/

theorem derToSshEcdsa_derSignature (r s : Scalar) :
    derToSshEcdsa (derSignature r.1 s.1) =
      some (encodeString (magnitude r.1) ++ encodeString (magnitude s.1)) := by
  have hlength : (derInteger r.1 ++ derInteger s.1).length < 256 := by
    obtain ⟨hr, hreq⟩ := r.derInteger_eq
    obtain ⟨hs, hseq⟩ := s.derInteger_eq
    rw [length_append, hreq, hseq, length_cons, length_cons, length_cons, length_cons]
    omega
  have hsecond := s.readInteger []
  rw [append_nil] at hsecond
  rw [derSignature, derToSshEcdsa, skipLength_derLength _ hlength, r.readInteger]
  simp [hsecond, Scalar.stripZeros]

theorem readUint32_uint32 {n : ℕ} (rest : List UInt8) (hn : n < 256 ^ 4) :
    readUint32 (uint32 n ++ rest) = some (n, rest) := by
  simp only [uint32, map_cons, map_nil, cons_append, nil_append, readUint32, UInt8.toNat_ofNat']
  exact congrArg (fun value ↦ some (value, rest)) (by omega)

theorem readString_encodeString {data : List UInt8} (rest : List UInt8) (hdata : data.length < 256 ^ 4) :
    readString (encodeString data ++ rest) = some (data, rest) := by
  rw [readString, encodeString, append_assoc, readUint32_uint32 _ hdata]
  simp

/-- An agent sends canonical mpints exactly for the integers without a sign byte. -/
theorem derToSshEcdsa_eq_mpints_iff (r s : Scalar) :
    derToSshEcdsa (derSignature r.1 s.1) = some (mpint r.1 ++ mpint s.1) ↔
      topBit (magnitude r.1) = false ∧ topBit (magnitude s.1) = false := by
  rw [derToSshEcdsa_derSignature, Option.some_inj]
  constructor
  · intro heq
    have hlength := congrArg List.length heq
    simp only [mpint, encodeString, uint32, length_append, length_map, length_cons, length_nil,
      length_twosComplement] at hlength
    exact ⟨Bool.toNat_eq_zero.mp (by omega), Bool.toNat_eq_zero.mp (by omega)⟩
  · rintro ⟨hr, hs⟩
    simp [mpint, twosComplement, hr, hs]

/-- The integer 128 leaves the agent as the byte 80, a negative number to its peer. -/
theorem derToSshEcdsa_ne_mpints :
    ∃ r s : Scalar, derToSshEcdsa (derSignature r.1 s.1) ≠ some (mpint r.1 ++ mpint s.1) :=
  ⟨⟨0x80, by decide⟩, ⟨1, by decide⟩, by decide⟩

theorem sshEcdsaToDer_derToSshEcdsa (r s : Scalar) :
    (derToSshEcdsa (derSignature r.1 s.1)).bind sshEcdsaToDer = some (derSignature r.1 s.1) := by
  have hr := r.length_magnitude
  have hs := s.length_magnitude
  have hsecond := readString_encodeString [] (show (magnitude s.1).length < 256 ^ 4 by omega)
  rw [append_nil] at hsecond
  rw [derToSshEcdsa_derSignature, Option.bind_some, sshEcdsaToDer, readString_encodeString _ (by omega)]
  simp [hsecond, encodeInt_magnitude, encodeLen_eq, derSignature]

end PasswdSso.Ssh.Ecdsa
