import PasswdSso.Ssh.Ecdsa

/-!
# Sign requests of the SSH agent

`handleMessage` reads the key blob, the data and the flags of a sign request with a reader that stops at the end of
the message, takes missing flags as zero and ignores what follows them. A signature is of the strings that the client
encoded exactly if the two length prefixes and the flags word make up the whole message.
-/

namespace PasswdSso.Ssh.SignRequest

open List Ecdsa

/-- The fields of a loaded key that a request reads. -/
structure LoadedSshKey where
  entryId : String
  requireReprompt : Bool
  publicKeyBlob : List UInt8
  comment : String

/-- The loaded keys, and what a request calls: the confirmation, the server and the signing, which may throw. -/
structure Env where
  loadedKeys : List LoadedSshKey
  confirmSign : String → Option Bool
  authorizeSign : (keyId : String) → (publicKeyBlob : List UInt8) → Option Bool
  signData : LoadedSshKey → (data : List UInt8) → (flags : ℕ) → Option (List UInt8)

def Env.findKeyByBlob (env : Env) (keyBlob : List UInt8) : Option LoadedSshKey :=
  env.loadedKeys.find? (·.publicKeyBlob = keyBlob)

/-- The two gates: the confirmation, for a key that requires it, and the authorization by the server. -/
def Env.allows (env : Env) (key : LoadedSshKey) : Bool :=
  (!key.requireReprompt || env.confirmSign (if key.comment = "" then key.entryId else key.comment) = some true) &&
    env.authorizeSign key.entryId key.publicKeyBlob = some true

/-- The signature that a request returns, from the bytes after its type; every failure and throw is `none`. -/
def Env.sign (env : Env) (body : List UInt8) : Option (List UInt8) := do
  let (keyBlob, afterKey) ← readString body
  let (dataToSign, afterData) ← readString afterKey
  let flags := ((readUint32 afterData).map Prod.fst).getD 0
  let key ← env.findKeyByBlob keyBlob
  if env.allows key then env.signData key dataToSign flags else none

/-- A request as it is encoded, and what its signature is. -/
structure Signs (env : Env) (body signature keyBlob data : List UInt8) (flags : ℕ) : Prop where
  encoded : body = encodeString keyBlob ++ (encodeString data ++ uint32 flags)
  keyBlob_lt : keyBlob.length < 256 ^ 4
  data_lt : data.length < 256 ^ 4
  flags_lt : flags < 256 ^ 4
  signed : ∃ key, env.findKeyByBlob keyBlob = some key ∧ env.allows key = true ∧
    env.signData key data flags = some signature

/-- The strings that the length prefixes announce and a word of four bytes make up the message. -/
def Exact (body : List UInt8) : Prop :=
  ∃ keyLength afterKeyLength dataLength afterDataLength flags, readUint32 body = some (keyLength, afterKeyLength) ∧
    keyLength ≤ afterKeyLength.length ∧
    readUint32 (afterKeyLength.drop keyLength) = some (dataLength, afterDataLength) ∧
    dataLength ≤ afterDataLength.length ∧ readUint32 (afterDataLength.drop dataLength) = some (flags, [])

theorem eq_uint32_append {bytes rest : List UInt8} {n : ℕ} (h : readUint32 bytes = some (n, rest)) :
    bytes = uint32 n ++ rest ∧ n < 256 ^ 4 := by
  unfold readUint32 at h
  split at h
  next a b c d _ =>
    obtain ⟨rfl, rfl⟩ := Prod.mk.inj (Option.some.inj h)
    have := a.toNat_lt
    have := b.toNat_lt
    have := c.toNat_lt
    have := d.toNat_lt
    refine ⟨?_, by omega⟩
    simp only [uint32, map_cons, map_nil, cons_append, nil_append, cons.injEq, ← UInt8.toNat_inj, UInt8.toNat_ofNat',
      and_true]
    omega
  · cases h

theorem Signs.exact {env : Env} {body signature keyBlob data : List UInt8} {flags : ℕ}
    (h : Signs env body signature keyBlob data flags) : Exact body := by
  rw [h.encoded, encodeString, append_assoc]
  refine ⟨_, _, data.length, data ++ uint32 flags, flags, readUint32_uint32 _ h.keyBlob_lt, by simp, ?_, by simp, ?_⟩
  · rw [drop_left, encodeString, append_assoc]
    exact readUint32_uint32 _ h.data_lt
  · rw [drop_left, ← append_nil (uint32 flags)]
    exact readUint32_uint32 _ h.flags_lt

/-- A signature is of an encoded request exactly if the message has nothing missing and nothing left over. -/
theorem signs_iff_exact {env : Env} {body signature : List UInt8} (h : env.sign body = some signature) :
    (∃ keyBlob data flags, Signs env body signature keyBlob data flags) ↔ Exact body := by
  constructor
  · rintro ⟨keyBlob, data, flags, hsigns⟩
    exact hsigns.exact
  rintro ⟨keyLength, afterKeyLength, dataLength, afterDataLength, flags, hkey, hkeyLength, hdata, hdataLength, hflags⟩
  obtain ⟨hbody, hkeyLt⟩ := eq_uint32_append hkey
  obtain ⟨hrest, hdataLt⟩ := eq_uint32_append hdata
  obtain ⟨hlast, hflagsLt⟩ := eq_uint32_append hflags
  simp only [Env.sign, readString, hkey, hdata, hflags, Option.bind_eq_bind, Option.bind_some, Option.pure_def,
    Option.map_some, Option.getD_some, Option.bind_eq_some_iff, Option.ite_none_right_eq_some] at h
  obtain ⟨key, hfound, hallowed, hsigned⟩ := h
  have hkeyTake : (afterKeyLength.take keyLength).length = keyLength := length_take_of_le hkeyLength
  have hdataTake : (afterDataLength.take dataLength).length = dataLength := length_take_of_le hdataLength
  refine ⟨_, _, flags, ?_, hkeyTake.trans_lt hkeyLt, hdataTake.trans_lt hdataLt, hflagsLt, key, hfound, hallowed, hsigned⟩
  rw [append_nil] at hlast
  rw [encodeString, encodeString, hkeyTake, hdataTake, append_assoc, append_assoc, ← hlast, take_append_drop, ← hrest,
    take_append_drop, ← hbody]

/-- One key, which needs no confirmation and is always authorized; its signature of a text is the text. -/
def exampleEnv : Env where
  loadedKeys := [⟨"entry", false, [1], "key"⟩]
  confirmSign _ := none
  authorizeSign _ _ := some true
  signData _ data _ := some data

theorem signs_complete : ∃ keyBlob data flags,
    Signs exampleEnv [0, 0, 0, 1, 1, 0, 0, 0, 1, 7, 0, 0, 0, 4] [7] keyBlob data flags :=
  (signs_iff_exact (show exampleEnv.sign _ = some [7] by decide)).mpr
    ⟨1, [1, 0, 0, 0, 1, 7, 0, 0, 0, 4], 1, [7, 0, 0, 0, 4], 4, by decide⟩

/-- The prefix announces two bytes of data, one follows and no flags: that byte is signed. -/
theorem signs_truncated : ¬ ∀ (env : Env) (body signature : List UInt8), env.sign body = some signature →
    ∃ keyBlob data flags, Signs env body signature keyBlob data flags := by
  intro h
  obtain ⟨keyBlob, data, flags, hsigns⟩ := h exampleEnv [0, 0, 0, 1, 1, 0, 0, 0, 2, 7] [7] (by decide)
  have hlength := congrArg List.length hsigns.encoded
  simp [encodeString, uint32] at hlength
  omega

end PasswdSso.Ssh.SignRequest
