import Mathlib
import PasswdSso.Common
import PasswdSso.HashChain
import PasswdSso.Json

/-!
# The audit hash chain

`src/lib/audit/audit-chain.ts` and `src/lib/audit/audit-chain-verify.ts`: the canonical form of an
audit event, its hash, and `verifyChainRows`, which decides whether the chained rows of a tenant are
intact. `verifyChainRows_ok_iff` says what it accepts.

Two lists that it accepts with one seed and one anchor need not be the same: the walk does not compare
its first row with `fromSeq`, so a list may leave out the rows before one whose predecessor has the seed
as its hash (`chain_shortened`). If no row of the lists hashes to the seed, as is the case for the
genesis seed, then they agree on everything that is hashed (`chain_determined`).
-/

namespace PasswdSso.Audit

open List

abbrev Bytes := List UInt8

/-- What the code takes from its runtime and from PostgreSQL: SHA-256, the text of dates and of uuids,
the uuid that a text denotes, and the fields of a JSON value in the order in which a `jsonb` column
gives them back. -/
structure Runtime where
  sha256 : Bytes → Bytes
  toISOString : Millis → String
  uuidText : Uuid → String
  uuid? : String → Option Uuid
  jsonb : Json → Json

/-- What the proofs use of the runtime. -/
structure Runtime.Faithful (rt : Runtime) : Prop where
  iso_injective : Function.Injective rt.toISOString
  uuid_injective : Function.Injective rt.uuidText
  jsonb_normal : ∀ value, (rt.jsonb value).normal = value.normal

mutual

def jcsCanonical : Json → List Char
  | .null => ['n', 'u', 'l', 'l']
  | .bool true => ['t', 'r', 'u', 'e']
  | .bool false => ['f', 'a', 'l', 's', 'e']
  | .num value => value.text
  | .str value => quote value
  | .arr items => '[' :: (commaJoin (canonicalItems items) ++ [']'])
  | .obj fields => '{' ::
      (commaJoin (((canonicalFields fields).insertionSort fun a b ↦ keyLe a b).map fieldText) ++ ['}'])

/-- `jcsCanonical` of the items of an array. -/
def canonicalItems : Items → List (List Char)
  | .nil => []
  | .cons head tail => jcsCanonical head :: canonicalItems tail

/-- The keys of an object with `jcsCanonical` of their values. -/
def canonicalFields : Fields → List (String × List Char)
  | .nil => []
  | .cons key value rest => (key, jcsCanonical value) :: canonicalFields rest

end

mutual

theorem jcsCanonical_eq (value : Json) : jcsCanonical value = value.normal.print := by
  match value with
  | .null | .bool true | .bool false | .num value | .str value => rfl
  | .arr items => rw [jcsCanonical, canonicalItems_eq, Json.normal, Json.print]
  | .obj fields =>
    have hsort := map_insertionSort (fun a b ↦ keyLe a b) (fun a b ↦ keyLe a b)
      (fun field : String × Json ↦ (field.1, field.2.print)) fields.normals fun _ _ _ _ ↦ Iff.rfl
    rw [jcsCanonical, canonicalFields_eq, Json.normal, Json.print, Fields.texts_ofList, hsort]

theorem canonicalItems_eq (items : Items) : canonicalItems items = items.normal.texts := by
  match items with
  | .nil => rfl
  | .cons head tail =>
    rw [canonicalItems, jcsCanonical_eq, canonicalItems_eq, Items.normal, Items.texts]

theorem canonicalFields_eq (fields : Fields) :
    canonicalFields fields = fields.normals.map fun field ↦ (field.1, field.2.print) := by
  match fields with
  | .nil => rfl
  | .cons key value rest =>
    rw [canonicalFields, jcsCanonical_eq, canonicalFields_eq, Fields.normals, map_cons]

end

theorem jcsCanonical_inj {a b : Json} : jcsCanonical a = jcsCanonical b ↔ a.normal = b.normal := by
  rw [jcsCanonical_eq, jcsCanonical_eq]
  exact print_injective.eq_iff

structure ChainInput where
  id : String
  createdAt : String
  chainSeq : String
  prevHash : String
  payload : Json

def ChainInput.json (input : ChainInput) : Json :=
  .object [("id", .str input.id), ("createdAt", .str input.createdAt), ("chainSeq", .str input.chainSeq),
    ("prevHash", .str input.prevHash), ("payload", input.payload)]

def buildChainInput (rt : Runtime) (id : String) (createdAt : Millis) (chainSeq : Int)
    (prevHash : Bytes) (payload : Json) : ChainInput where
  id := id
  createdAt := rt.toISOString createdAt
  chainSeq := chainSeq.repr
  prevHash := String.ofList (hexText prevHash)
  payload := payload

def computeCanonicalBytes (input : ChainInput) : Bytes := utf8 (jcsCanonical input.json)

def computeEventHash (rt : Runtime) (prevHash canonicalBytes : Bytes) : Bytes :=
  rt.sha256 (prevHash ++ canonicalBytes)

def genesisPrevHash : Bytes := [0]

/-- The values of `CHAIN_VERIFY_REASON` that `verifyChainRows` answers. -/
inductive ChainVerifyReason
  | tamperDetected
  | gapDetected
  | timestampViolation
  | anchorHashMismatch
  | truncated
  | rangeIncomplete
  deriving DecidableEq

structure ChainVerifyRow where
  id : String
  createdAt : Millis
  chainSeq : Int
  eventHash : Bytes
  chainPrevHash : Option Bytes
  metadata : Option Json

structure ChainVerifyInput where
  rows : List ChainVerifyRow
  seedPrevHash : Bytes
  fromSeq : Int
  toSeq : Int
  anchorPrevHash : Option Bytes
  anchorComparable : Bool
  rowCap : Nat

structure ChainVerifyOutcome where
  ok : Bool
  reason : Option ChainVerifyReason
  totalVerified : Nat
  walkedThrough : Nat
  verifiedUpToSeq : Option Int
  truncated : Bool
  incomplete : Bool
  anchorChecked : Bool
  firstTamperedSeq : Option Int
  firstGapAfterSeq : Option Int
  firstTimestampViolationSeq : Option Int
  firstBrokenLinkSeq : Option Int

/-- `Number(n)` of a `bigint`: the nearest double, to even when there are two. -/
def jsNumber (n : Int) : Int :=
  let ulp := 2 ^ (n.natAbs.log2 - 52)
  let below := n.natAbs / ulp
  let excess := n.natAbs % ulp
  let rounded := if 2 * excess < ulp ∨ (2 * excess = ulp ∧ below % 2 = 0) then below else below + 1
  n.sign * (rounded * ulp : Nat)

theorem jsNumber_of_le {n : Int} (h : n.natAbs ≤ 2 ^ 53) : jsNumber n = n := by
  have hexact : n.natAbs % 2 ^ (n.natAbs.log2 - 52) = 0 := by
    rcases h.lt_or_eq with hlt | heq
    · have hlog : n.natAbs.log2 - 52 = 0 := by
        rcases Nat.eq_zero_or_pos n.natAbs with hzero | hpos
        · rw [hzero]
          rfl
        · have := (Nat.log2_lt hpos.ne').mpr hlt
          omega
      rw [hlog, Nat.pow_zero, Nat.mod_one]
    · rw [heq]
      decide +kernel
  have hmul : n.natAbs / 2 ^ (n.natAbs.log2 - 52) * 2 ^ (n.natAbs.log2 - 52) = n.natAbs :=
    Nat.div_mul_cancel (Nat.dvd_of_mod_eq_zero hexact)
  have hulp : 0 < 2 ^ (n.natAbs.log2 - 52) := Nat.two_pow_pos _
  dsimp only [jsNumber]
  rw [if_pos (.inl (by rw [hexact]; exact hulp)), hmul]
  exact Int.sign_mul_natAbs n

/-- `typeof value === "object"`, of a value that is not null. -/
def isObject : Json → Bool
  | .arr _ => true
  | .obj _ => true
  | _ => false

/-- The payload that is hashed: the metadata when it is an object, the empty object otherwise. -/
def ChainVerifyRow.payload (row : ChainVerifyRow) : Json :=
  match row.metadata with
  | none => .object []
  | some value => if isObject value then value else .object []

/-- The bytes that are hashed for a row. -/
def ChainVerifyRow.message (rt : Runtime) (prevHash : Bytes) (row : ChainVerifyRow) : Bytes :=
  prevHash ++ computeCanonicalBytes (buildChainInput rt row.id row.createdAt row.chainSeq prevHash row.payload)

structure Walk where
  prevHash : Bytes
  prevSeq : Option Int
  prevCreatedAt : Option Millis
  totalVerified : Nat
  walkedThrough : Nat
  firstTamperedSeq : Option Int
  firstGapAfterSeq : Option Int
  firstTimestampViolationSeq : Option Int
  firstBrokenLinkSeq : Option Int

/-- The walk before the first row. -/
def Walk.start (seedPrevHash : Bytes) : Walk where
  prevHash := seedPrevHash
  prevSeq := none
  prevCreatedAt := none
  totalVerified := 0
  walkedThrough := 0
  firstTamperedSeq := none
  firstGapAfterSeq := none
  firstTimestampViolationSeq := none
  firstBrokenLinkSeq := none

/-- What a row is checked for before its hash is. -/
def Walk.look (walk : Walk) (row : ChainVerifyRow) : Walk :=
  { walk with
    firstGapAfterSeq := match walk.prevSeq with
      | some prevSeq =>
        if walk.firstGapAfterSeq = none ∧ jsNumber row.chainSeq ≠ jsNumber (prevSeq + 1) then some prevSeq
        else walk.firstGapAfterSeq
      | none => walk.firstGapAfterSeq
    firstTimestampViolationSeq := match walk.prevCreatedAt with
      | some prevCreatedAt =>
        if row.createdAt < prevCreatedAt ∧ walk.firstTimestampViolationSeq = none then
          some (jsNumber row.chainSeq)
        else walk.firstTimestampViolationSeq
      | none => walk.firstTimestampViolationSeq
    firstBrokenLinkSeq :=
      if walk.firstBrokenLinkSeq = none ∧ row.chainPrevHash ≠ some walk.prevHash then
        some (jsNumber row.chainSeq)
      else walk.firstBrokenLinkSeq }

def Walk.advance (walk : Walk) (row : ChainVerifyRow) : Walk :=
  { walk with
    prevHash := row.eventHash
    prevSeq := some (jsNumber row.chainSeq)
    prevCreatedAt := some row.createdAt
    totalVerified := walk.totalVerified + 1
    walkedThrough := walk.walkedThrough + 1 }

/-- The loop of `verifyChainRows`; it stops at the first row whose hash is wrong. -/
def Walk.run (rt : Runtime) : Walk → List ChainVerifyRow → Walk
  | walk, [] => walk
  | walk, row :: rest =>
    if rt.sha256 (row.message rt walk.prevHash) ≠ row.eventHash then
      { walk.look row with firstTamperedSeq := some (jsNumber row.chainSeq) }
    else ((walk.look row).advance row).run rt rest

def verifyChainRows (rt : Runtime) (input : ChainVerifyInput) : ChainVerifyOutcome :=
  let walk := (Walk.start input.seedPrevHash).run rt input.rows
  let coveredUpToSeq := walk.prevSeq.getD (jsNumber (input.fromSeq - 1))
  let incomplete := input.fromSeq > input.toSeq || coveredUpToSeq < input.toSeq
  let truncated := input.rows.length ≥ input.rowCap && incomplete
  let anchorChecked := input.anchorComparable && input.anchorPrevHash.isSome && !incomplete
  let anchorMismatch := anchorChecked && input.anchorPrevHash ≠ some walk.prevHash
  let integrityOk := walk.firstTamperedSeq.isNone && walk.firstGapAfterSeq.isNone &&
    walk.firstTimestampViolationSeq.isNone && walk.firstBrokenLinkSeq.isNone && !anchorMismatch
  let ok := integrityOk && !incomplete
  { ok := ok
    reason :=
      if ok then none
      else if walk.firstTamperedSeq.isSome then some .tamperDetected
      else if anchorMismatch then some .anchorHashMismatch
      else if walk.firstBrokenLinkSeq.isSome then some .tamperDetected
      else if walk.firstGapAfterSeq.isSome then some .gapDetected
      else if walk.firstTimestampViolationSeq.isSome then some .timestampViolation
      else if truncated then some .truncated
      else some .rangeIncomplete
    totalVerified := walk.totalVerified
    walkedThrough := walk.walkedThrough
    verifiedUpToSeq := walk.prevSeq
    truncated := truncated
    incomplete := incomplete
    anchorChecked := anchorChecked
    firstTamperedSeq := walk.firstTamperedSeq
    firstGapAfterSeq := walk.firstGapAfterSeq
    firstTimestampViolationSeq := walk.firstTimestampViolationSeq
    firstBrokenLinkSeq := walk.firstBrokenLinkSeq }

/-- The chain that `verifyChainRows` checks. -/
def chainScheme (rt : Runtime) : HashChain.Scheme ChainVerifyRow Bytes Bytes where
  hash := rt.sha256
  message := fun prevHash row ↦ row.message rt prevHash
  digest := ChainVerifyRow.eventHash
  back := ChainVerifyRow.chainPrevHash

def Walk.Clean (walk : Walk) : Prop :=
  walk.firstTamperedSeq = none ∧ walk.firstGapAfterSeq = none ∧
    walk.firstTimestampViolationSeq = none ∧ walk.firstBrokenLinkSeq = none

def Contiguous (seqs : List Int) : Prop := seqs.IsChain fun prev seq ↦ seq = jsNumber (prev + 1)

def InOrder (times : List Millis) : Prop := times.IsChain (· ≤ ·)

def ChainVerifyRow.seq (row : ChainVerifyRow) : Int := jsNumber row.chainSeq

theorem isChain_toList_append {α : Type} {R : α → α → Prop} (prev : Option α) (head : α)
    (rest : List α) : (prev.toList ++ head :: rest).IsChain R ↔
      (∀ before ∈ prev, R before head) ∧ (head :: rest).IsChain R := by
  cases prev with
  | none => simp
  | some before => simp

theorem Walk.clean_look {walk : Walk} {row : ChainVerifyRow} :
    (walk.look row).Clean ↔ walk.Clean ∧ (∀ prev ∈ walk.prevSeq, row.seq = jsNumber (prev + 1)) ∧
      (∀ prev ∈ walk.prevCreatedAt, prev ≤ row.createdAt) ∧ row.chainPrevHash = some walk.prevHash := by
  obtain ⟨prevHash, prevSeq, prevCreatedAt, -, -, tampered, gap, violation, broken⟩ := walk
  cases prevSeq <;> cases prevCreatedAt <;>
    simp only [Walk.Clean, Walk.look, ChainVerifyRow.seq, Option.mem_def, Option.some.injEq, reduceCtorEq,
      forall_eq', false_implies, implies_true, true_and] <;> grind

theorem Walk.clean_run (rt : Runtime) (rows : List ChainVerifyRow) (walk : Walk) :
    (walk.run rt rows).Clean ↔ walk.Clean ∧ (chainScheme rt).Linked walk.prevHash rows ∧
      Contiguous (walk.prevSeq.toList ++ rows.map ChainVerifyRow.seq) ∧
      InOrder (walk.prevCreatedAt.toList ++ rows.map ChainVerifyRow.createdAt) := by
  induction rows generalizing walk with
  | nil =>
    have hchain {α : Type} (R : α → α → Prop) (prev : Option α) : prev.toList.IsChain R := by
      cases prev <;> simp
    simp [Walk.run, HashChain.Scheme.Linked, Contiguous, InOrder, hchain]
  | cons row rest ih =>
    rw [Walk.run]
    split_ifs with htampered
    · have hwrong : ¬ row.eventHash = rt.sha256 (row.message rt walk.prevHash) :=
        fun h ↦ htampered h.symm
      simp [Walk.Clean, HashChain.Scheme.Linked, chainScheme, hwrong]
    · have hadvance : ((walk.look row).advance row).Clean ↔ (walk.look row).Clean := Iff.rfl
      rw [ih, hadvance, Walk.clean_look, map_cons, map_cons, Contiguous, InOrder,
        Contiguous, InOrder, isChain_toList_append, isChain_toList_append]
      have hright : row.eventHash = rt.sha256 (row.message rt walk.prevHash) :=
        (not_not.mp htampered).symm
      simp only [HashChain.Scheme.Linked, chainScheme, Walk.advance, Walk.look, hright, true_and]
      tauto

theorem Walk.run_end (rt : Runtime) (rows : List ChainVerifyRow) (walk : Walk)
    (h : (chainScheme rt).Linked walk.prevHash rows) :
    (walk.run rt rows).prevHash = (chainScheme rt).last walk.prevHash rows ∧
      (walk.run rt rows).prevSeq = ((rows.map ChainVerifyRow.seq).getLast?).or walk.prevSeq := by
  induction rows generalizing walk with
  | nil => exact ⟨rfl, rfl⟩
  | cons row rest ih =>
    obtain ⟨-, hhash, hrest⟩ := h
    have hright : rt.sha256 (row.message rt walk.prevHash) = row.eventHash := hhash.symm
    rw [Walk.run, if_neg (not_not.mpr hright)]
    obtain ⟨hend, hseq⟩ := ih ((walk.look row).advance row) hrest
    refine ⟨hend, ?_⟩
    rw [hseq, map_cons, getLast?_cons]
    cases (rest.map ChainVerifyRow.seq).getLast? <;> rfl

/-- What `verifyChainRows` accepts: a chain from the seed without gaps whose times do not go back, that
covers the range up to its end and ends at the anchor. -/
theorem verifyChainRows_ok_iff (rt : Runtime) (input : ChainVerifyInput) : (verifyChainRows rt input).ok = true ↔
      (chainScheme rt).Linked input.seedPrevHash input.rows ∧
      Contiguous (input.rows.map ChainVerifyRow.seq) ∧
      InOrder (input.rows.map ChainVerifyRow.createdAt) ∧
      input.fromSeq ≤ input.toSeq ∧
      input.toSeq ≤ ((input.rows.map ChainVerifyRow.seq).getLast?).getD (jsNumber (input.fromSeq - 1)) ∧
      (input.anchorComparable = true → ∀ anchor ∈ input.anchorPrevHash,
        anchor = (chainScheme rt).last input.seedPrevHash input.rows) := by
  have hclean := Walk.clean_run rt input.rows (Walk.start input.seedPrevHash)
  have hstart : (Walk.start input.seedPrevHash).Clean := ⟨rfl, rfl, rfl, rfl⟩
  have hok : (verifyChainRows rt input).ok = true ↔
      ((Walk.start input.seedPrevHash).run rt input.rows).Clean ∧ input.fromSeq ≤ input.toSeq ∧
      input.toSeq ≤ ((Walk.start input.seedPrevHash).run rt input.rows).prevSeq.getD (jsNumber (input.fromSeq - 1)) ∧
      (input.anchorComparable = true → ∀ anchor ∈ input.anchorPrevHash,
        anchor = ((Walk.start input.seedPrevHash).run rt input.rows).prevHash) := by
    generalize hwalk : (Walk.start input.seedPrevHash).run rt input.rows = walk
    simp only [verifyChainRows, hwalk, Walk.Clean, Bool.and_eq_true, Bool.not_eq_true',
      Option.isNone_iff_eq_none, Bool.or_eq_false_iff, decide_eq_false_iff_not, Bool.and_eq_false_iff]
    cases input.anchorPrevHash <;> cases input.anchorComparable <;> simp <;> grind
  rw [hok, hclean]
  constructor
  · rintro ⟨⟨-, hlinked, hseqs, htimes⟩, hrange, hcovered, hanchor⟩
    obtain ⟨hend, hseq⟩ := Walk.run_end rt input.rows _ hlinked
    rw [hend] at hanchor
    rw [hseq, Walk.start, Option.or_none] at hcovered
    exact ⟨hlinked, hseqs, htimes, hrange, hcovered, hanchor⟩
  · rintro ⟨hlinked, hseqs, htimes, hrange, hcovered, hanchor⟩
    obtain ⟨hend, hseq⟩ := Walk.run_end rt input.rows (Walk.start input.seedPrevHash) hlinked
    rw [hend, hseq, Walk.start, Option.or_none]
    exact ⟨⟨hstart, hlinked, hseqs, htimes⟩, hrange, hcovered, hanchor⟩

/-- What the chain protects of a row: everything but the order of keys in the payload. -/
def ChainVerifyRow.covered (row : ChainVerifyRow) : String × Millis × Int × Json :=
  (row.id, row.createdAt, row.chainSeq, row.payload.normal)

theorem ChainInput.normal_json (input : ChainInput) : input.json.normal =
    .object [("chainSeq", .str input.chainSeq), ("createdAt", .str input.createdAt),
      ("id", .str input.id), ("payload", input.payload.normal), ("prevHash", .str input.prevHash)] := by
  have hle (a b : String) (x y : Json) : keyLe (a, x) (b, y) = codeUnitsLe (codeUnits a) (codeUnits b) :=
    rfl
  have h1 : codeUnitsLe (codeUnits "prevHash") (codeUnits "payload") = false := by decide
  have h2 : codeUnitsLe (codeUnits "chainSeq") (codeUnits "payload") = true := by decide
  have h3 : codeUnitsLe (codeUnits "createdAt") (codeUnits "chainSeq") = false := by decide
  have h4 : codeUnitsLe (codeUnits "createdAt") (codeUnits "payload") = true := by decide
  have h5 : codeUnitsLe (codeUnits "id") (codeUnits "chainSeq") = false := by decide
  have h6 : codeUnitsLe (codeUnits "id") (codeUnits "createdAt") = false := by decide
  have h7 : codeUnitsLe (codeUnits "id") (codeUnits "payload") = true := by decide
  simp [ChainInput.json, Json.object, Fields.ofList, Json.normal, Fields.normals, hle, h1, h2, h3, h4, h5, h6, h7]

theorem ChainInput.canonical_eq (input : ChainInput) : ∃ front, jcsCanonical input.json =
    front ++ (quote input.prevHash ++ ['}']) := by
  rw [jcsCanonical_eq, ChainInput.normal_json]
  refine ⟨'{' :: (fieldText ("chainSeq", (Json.str input.chainSeq).print) ++
    ',' :: (fieldText ("createdAt", (Json.str input.createdAt).print) ++
    ',' :: (fieldText ("id", (Json.str input.id).print) ++
    ',' :: (fieldText ("payload", input.payload.normal.print) ++
    ',' :: (quote "prevHash" ++ [':']))))), ?_⟩
  simp [Json.object, Json.print, commaJoin, fieldText]

theorem append_separator_inj {α : Type} {separator : α} {x y u v : List α} (hu : separator ∉ u)
    (hv : separator ∉ v) (h : x ++ separator :: u = y ++ separator :: v) : u = v := by
  rcases append_eq_append_iff.mp h with ⟨_ | ⟨c, mid⟩, -, hmid⟩ | ⟨_ | ⟨c, mid⟩, -, hmid⟩
  · exact (cons.inj hmid).2
  · exact absurd ((cons.inj hmid).2 ▸ by simp) hu
  · exact (cons.inj hmid).2.symm
  · exact absurd ((cons.inj hmid).2 ▸ by simp) hv

theorem ChainVerifyRow.message_eq (rt : Runtime) (prevHash : Bytes) (row : ChainVerifyRow) :
    ∃ front, row.message rt prevHash = front ++ 0x22 :: (utf8 (hexText prevHash) ++ [0x22, 0x7D]) := by
  obtain ⟨front, hfront⟩ := ChainInput.canonical_eq
    (buildChainInput rt row.id row.createdAt row.chainSeq prevHash row.payload)
  have hquote : utf8 (quote (String.ofList (hexText prevHash)) ++ ['}']) =
      utf8 ['"'] ++ (utf8 (hexText prevHash) ++ utf8 ['"', '}']) := by
    rw [quote_hexText, ← utf8_append, ← utf8_append]
    simp
  refine ⟨prevHash ++ utf8 front, ?_⟩
  rw [ChainVerifyRow.message, computeCanonicalBytes, hfront, utf8_append, ← append_assoc]
  exact congrArg _ hquote

theorem quote_not_mem_hexText (bytes : Bytes) : (0x22 : UInt8) ∉ utf8 (hexText bytes) := by
  rw [utf8_ascii fun c hc ↦ (hexText_plain hc).2.1.trans (by decide)]
  intro hmem
  obtain ⟨c, hc, heq⟩ := mem_map.mp hmem
  obtain ⟨hlow, hhigh, -⟩ := hexText_plain hc
  have hnat : c.toNat % 256 = 0x22 := congrArg UInt8.toNat heq
  omega

theorem ChainVerifyRow.message_inj {rt : Runtime} (hrt : rt.Faithful) {p q : Bytes}
    {a b : ChainVerifyRow} (h : a.message rt p = b.message rt q) : p = q ∧ a.covered = b.covered := by
  have hprev : p = q := by
    -- The previous hash is the last field of the canonical text, so it can be read from the end.
    obtain ⟨front, hfront⟩ := a.message_eq rt p
    obtain ⟨front', hfront'⟩ := b.message_eq rt q
    rw [hfront, hfront', ← cons_append, ← cons_append, ← append_assoc, ← append_assoc] at h
    exact hexText_injective (utf8_injective (append_separator_inj (quote_not_mem_hexText p)
      (quote_not_mem_hexText q) (append_cancel_right h)))
  subst hprev
  refine ⟨rfl, ?_⟩
  have hjson := utf8_injective (append_cancel_left h)
  rw [jcsCanonical_inj, ChainInput.normal_json, ChainInput.normal_json] at hjson
  simp only [Json.object, Fields.ofList, buildChainInput, Json.obj.injEq, Fields.cons.injEq,
    Json.str.injEq, true_and, and_true] at hjson
  obtain ⟨hseq, hcreated, hid, hpayload⟩ := hjson
  rw [covered, covered, hid, hrt.iso_injective hcreated, Int.repr_injective hseq, hpayload]

/-- Two calls of `verifyChainRows` that differ at most in their rows and in the row cap, and compare
with an anchor. -/
structure SameAnchor (first second : ChainVerifyInput) (anchor : Bytes) : Prop where
  seed : second.seedPrevHash = first.seedPrevHash
  fromSeq : second.fromSeq = first.fromSeq
  toSeq : second.toSeq = first.toSeq
  comparable : first.anchorComparable = true ∧ second.anchorComparable = true
  anchor : first.anchorPrevHash = some anchor ∧ second.anchorPrevHash = some anchor

/-- The bytes that are hashed when the rows are verified. -/
def ChainVerifyInput.messages (rt : Runtime) (input : ChainVerifyInput) : List Bytes :=
  (chainScheme rt).messages input.seedPrevHash input.rows

/-- Two lists of rows that `verifyChainRows` accepts with one seed and one anchor have the same length
and agree row by row on everything that is hashed, if SHA-256 has no collision among their messages and
none of them has the seed as its hash. -/
theorem chain_determined {rt : Runtime} (hrt : rt.Faithful) {first second : ChainVerifyInput}
    {anchor : Bytes} (hsame : SameAnchor first second anchor)
    (hinj : Set.InjOn rt.sha256 {m | m ∈ first.messages rt ++ second.messages rt})
    (hseed : ∀ m ∈ first.messages rt ++ second.messages rt, rt.sha256 m ≠ first.seedPrevHash)
    (hfirst : (verifyChainRows rt first).ok = true) (hsecond : (verifyChainRows rt second).ok = true) :
    first.rows.map ChainVerifyRow.covered = second.rows.map ChainVerifyRow.covered := by
  obtain ⟨hlinked, -, -, -, -, hend⟩ := (verifyChainRows_ok_iff rt first).mp hfirst
  obtain ⟨hlinked', -, -, -, -, hend'⟩ := (verifyChainRows_ok_iff rt second).mp hsecond
  have hanchor := hend hsame.comparable.1 anchor hsame.anchor.1
  have hanchor' := hend' hsame.comparable.2 anchor hsame.anchor.2
  rw [hsame.seed] at hlinked' hanchor'
  have hsub' : (chainScheme rt).messages first.seedPrevHash second.rows ⊆
      first.messages rt ++ second.messages rt := by
    rw [← hsame.seed]
    exact List.subset_append_right _ _
  exact HashChain.Scheme.agree ChainVerifyRow.covered (List.subset_append_left _ _) hsub' hinj hseed
    (fun _ _ _ _ ↦ ChainVerifyRow.message_inj hrt) hlinked hlinked' (hanchor.symm.trans hanchor')

/-- A runtime with the given hash function, that writes dates and uuids as numbers. -/
def plainRuntime (sha256 : Bytes → Bytes) : Runtime where
  sha256 := sha256
  toISOString := Int.repr
  uuidText := Nat.repr
  uuid? := String.toNat?
  jsonb := id

theorem plainRuntime_faithful (sha256 : Bytes → Bytes) : (plainRuntime sha256).Faithful where
  iso_injective _ _ := Int.repr_injective
  uuid_injective _ _ := Nat.repr_inj.mp
  jsonb_normal _ := rfl

/-- A row that follows the hash `prevHash`. -/
def rowAfter (chainSeq : Int) (prevHash eventHash : Bytes) : ChainVerifyRow where
  id := "row"
  createdAt := 0
  chainSeq := chainSeq
  eventHash := eventHash
  chainPrevHash := some prevHash
  metadata := none

def someSeed : Bytes := replicate 32 7

def firstMessage : Bytes := (rowAfter 1 someSeed someSeed).message (plainRuntime id) someSeed

def secondMessage : Bytes := (rowAfter 2 someSeed []).message (plainRuntime id) someSeed

/-- The second row with or without the first one, which has the seed as its hash. -/
def shortenedInput (withFirst : Bool) : ChainVerifyInput where
  rows := (if withFirst then [rowAfter 1 someSeed someSeed] else []) ++ [rowAfter 2 someSeed secondMessage]
  seedPrevHash := someSeed
  fromSeq := 1
  toSeq := 2
  anchorPrevHash := some secondMessage
  anchorComparable := true
  rowCap := 10000

/-- An injective hash function may lead back to the seed, and then rows can be left out: the walk does
not check that its first row is the one at `fromSeq`. -/
theorem chain_shortened : ¬ ∀ (rt : Runtime) (first second : ChainVerifyInput) (anchor : Bytes), rt.Faithful →
      Function.Injective rt.sha256 → SameAnchor first second anchor →
      (verifyChainRows rt first).ok = true → (verifyChainRows rt second).ok = true →
      first.rows.map ChainVerifyRow.covered = second.rows.map ChainVerifyRow.covered := by
  intro h
  have hrows := h (plainRuntime (Equiv.swap firstMessage someSeed)) (shortenedInput true)
    (shortenedInput false) secondMessage (plainRuntime_faithful _) (Equiv.injective _)
    ⟨rfl, rfl, rfl, ⟨rfl, rfl⟩, ⟨rfl, rfl⟩⟩ (by decide +kernel) (by decide +kernel)
  exact absurd (congrArg List.length hrows) (by decide)

/-- A row with its own hash. -/
def hashedRow (chainSeq : Int) (prevHash : Bytes) (metadata : List (String × Json)) : ChainVerifyRow :=
  let row := { rowAfter chainSeq prevHash [] with metadata := some (.object metadata) }
  { row with eventHash := row.message (plainRuntime id) prevHash }

def genesisRow (metadata : List (String × Json)) : ChainVerifyRow := hashedRow 1 genesisPrevHash metadata

/-- A chain of two rows after the genesis, with their metadata written in some order. -/
def genesisInput (metadata : List (String × Json)) : ChainVerifyInput where
  rows := [genesisRow metadata, hashedRow 2 (genesisRow metadata).eventHash metadata]
  seedPrevHash := genesisPrevHash
  fromSeq := 1
  toSeq := 2
  anchorPrevHash := some (hashedRow 2 (genesisRow metadata).eventHash metadata).eventHash
  anchorComparable := true
  rowCap := 10000

/-- The conditions can be met: two orders of the same metadata, from the genesis. -/
theorem chain_determined_genesis : (genesisInput [("b", .null), ("a", .bool true)]).rows.map ChainVerifyRow.covered =
      (genesisInput [("a", .bool true), ("b", .null)]).rows.map ChainVerifyRow.covered := by
  have hsame : SameAnchor (genesisInput [("b", .null), ("a", .bool true)])
      (genesisInput [("a", .bool true), ("b", .null)])
      ((genesisInput [("a", .bool true), ("b", .null)]).anchorPrevHash.getD []) :=
    ⟨rfl, rfl, rfl, ⟨rfl, rfl⟩, ⟨by decide +kernel, rfl⟩⟩
  exact chain_determined (plainRuntime_faithful id) hsame (Function.injective_id.injOn)
    (by decide +kernel) (by decide +kernel) (by decide +kernel)

end PasswdSso.Audit
