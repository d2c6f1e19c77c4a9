import Mathlib.Algebra.Order.Ring.Rat
import Mathlib.Tactic.Linarith
import PasswdSso.Dpop.Verify

/-!
# Single use of a DPoP proof

A proof should be accepted once. The `iat` check floors the clock to whole seconds, so a proof with a
whole `iat` is within the skew for 61 seconds, while the cache keeps its `jti` for 60: a proof that is
presented at the very start of its window can be presented again in the last second
(`proof_not_singleUse`), with either form of the cache. At most one call is accepted exactly when the
record of the first presentation is still live at every later one (`proof_singleUse_iff`).
-/

namespace PasswdSso.Dpop

open ExpiringClaims List JtiCache

section Refinement

/-- The records that a cache holds. -/
def JtiCache.records : JtiCache → Records String Millis
  | .redis _ keys => keys
  | .memory store => store.get

/-- When a record of the cache counts. -/
def JtiCache.live : JtiCache → Millis → Millis → Bool
  | .redis expiry _ => expiry.live
  | .memory _ => fun expiresAt now ↦ expiresAt > now

def JtiCache.isRedis : JtiCache → Bool
  | .redis _ _ => true
  | .memory _ => false

def JtiCache.NotFull : JtiCache → Prop
  | .redis _ _ => True
  | .memory store => store.map.length < store.maxSize

theorem find_replace (map : List (String × Millis)) (key other : String) (expiresAt : Millis) :
    (map.map fun entry ↦ if entry.1 = key then (key, expiresAt) else entry).find? (·.1 = other) =
      (map.find? (·.1 = other)).map fun entry ↦ if entry.1 = key then (key, expiresAt) else entry := by
  rw [find?_map]
  congr 2
  funext entry
  by_cases hkey : entry.1 = key <;> simp [hkey]

theorem get_set (store : InMemoryStore) (key other : String) (expiresAt : Millis) :
    (store.set key expiresAt).get other = if other = key then some expiresAt else store.get other := by
  unfold InMemoryStore.set InMemoryStore.get
  dsimp only
  cases hfind : store.map.find? fun entry ↦ decide (entry.1 = other) with
  | some entry =>
    have hentry : entry.1 = other := by simpa using find?_some hfind
    split_ifs with hany hother
    · rw [find_replace, hfind]
      simp [hentry, hother]
    · rw [find_replace, hfind]
      simp [hentry, hother]
    · refine absurd (any_eq_true.mpr ⟨entry, mem_of_find?_eq_some hfind, ?_⟩) hany
      simpa using hentry.trans (by assumption)
    · rw [find?_append, hfind, Option.some_or]
  | none =>
    split_ifs with hany hother
    · obtain ⟨entry, hmem, hkey⟩ := any_eq_true.mp hany
      have hnot := find?_eq_none.mp hfind entry hmem
      exact absurd (hother ▸ hkey) hnot
    · rw [find_replace, hfind]
      rfl
    · rename_i hother
      rw [find?_append, hfind]
      simp [hother]
    · rename_i hother
      rw [find?_append, hfind]
      simp [Ne.symm hother]

variable {cache : JtiCache} {redisFails : Bool}

theorem hasOrRecord_eq_claim (hcap : cache.NotFull) (ttlMs : Millis) (jkt jti : String) (now : Millis)
    (hredis : (cache.isRedis && redisFails) = false) :
    (cache.hasOrRecord ttlMs jkt jti now redisFails).1 =
        !(claim cache.live ttlMs cache.records (makeKey jkt jti) now).1 ∧
      (cache.hasOrRecord ttlMs jkt jti now redisFails).2.records =
        (claim cache.live ttlMs cache.records (makeKey jkt jti) now).2 := by
  cases cache with
  | redis expiry keys =>
    obtain rfl : redisFails = false := hredis
    by_cases hlive : (keys (makeKey jkt jti)).any (expiry.live · now) = true
    · simp [hasOrRecord, claim, records, live, hlive]
    · simp [hasOrRecord, claim, records, live, hlive]
  | memory store =>
    have hevict : store.evict now = store := if_neg (Nat.not_le.mpr hcap)
    have hset : (store.set (makeKey jkt jti) (now + ttlMs)).get =
        Function.update store.get (makeKey jkt jti) (some (now + ttlMs)) := by
      funext other
      rw [Function.update_apply, get_set]
    by_cases hlive : ((store.get (makeKey jkt jti)).any fun expiresAt ↦ expiresAt > now) = true
    · simp [hasOrRecord, checkMemory, claim, records, live, hlive]
    · simp [hasOrRecord, checkMemory, claim, records, live, hlive, hevict, hset]

theorem hasOrRecord_live (cache : JtiCache) (ttlMs : Millis) (jkt jti : String) (now : Millis) (redisFails : Bool) :
    (cache.hasOrRecord ttlMs jkt jti now redisFails).2.live = cache.live ∧
      (cache.hasOrRecord ttlMs jkt jti now redisFails).2.isRedis = cache.isRedis := by
  cases cache with
  | redis expiry keys =>
    simp only [hasOrRecord]
    split_ifs <;> exact ⟨rfl, rfl⟩
  | memory store => exact ⟨rfl, rfl⟩

theorem hasOrRecord_fails {ttlMs : Millis} {jkt jti : String} {now : Millis}
    (h : (cache.isRedis && redisFails) = true) :
    cache.hasOrRecord ttlMs jkt jti now redisFails = (true, cache) := by
  cases cache with
  | redis expiry keys => exact if_pos h
  | memory store => simp [isRedis] at h

end Refinement

/-- What a call claims: the key of its proof, if it passes every other check and its Redis command
does not fail. -/
def Call.attempt (platform : Platform) (redis : Bool) (call : Call) : Option (String × Millis) :=
  match checkProof platform call.dpopHeader call.options call.now with
  | .error _ => none
  | .ok (claims, jkt) =>
    if redis && call.redisFails then none else some (makeKey jkt claims.jti, call.now)

/-- The times at which a proof with this key is presented and passes every other check. -/
def presentations (platform : Platform) (redis : Bool) (key : String) (calls : List Call) :
    List Millis :=
  ((calls.filterMap (Call.attempt platform redis)).filter (·.1 = key)).map (·.2)

/-- The number of calls that accepted a proof with this key. -/
def accepted (key : String) (results : List (Except DpopFailure (DpopProofClaims × String))) : Nat :=
  results.countP fun result ↦
    match result with
    | .ok (claims, jkt) => makeKey jkt claims.jti = key
    | .error _ => false

/-- The map does not reach its cap along the calls. -/
def BelowCap (platform : Platform) (ttlMs : Millis) : JtiCache → List Call → Prop
  | _, [] => True
  | cache, call :: rest =>
    cache.NotFull ∧ BelowCap platform ttlMs (verifyDpopProof platform ttlMs cache call).2 rest

section Counting

variable {platform : Platform} {ttlMs : Millis} {cache : JtiCache} {key : String} {call : Call}
  {store : InMemoryStore}

theorem verifyDpopProof_error {failure : DpopFailure}
    (hcheck : checkProof platform call.dpopHeader call.options call.now = .error failure) :
    verifyDpopProof platform ttlMs cache call = (.error failure, cache) := by
  rw [verifyDpopProof, hcheck]

theorem verifyDpopProof_ok {claims : DpopProofClaims} {jkt : String}
    (hcheck : checkProof platform call.dpopHeader call.options call.now = .ok (claims, jkt)) :
    verifyDpopProof platform ttlMs cache call =
      (if (cache.hasOrRecord ttlMs jkt claims.jti call.now call.redisFails).1
        then .error (.fail .jtiReplay none) else .ok (claims, jkt),
      (cache.hasOrRecord ttlMs jkt claims.jti call.now call.redisFails).2) := by
  rw [verifyDpopProof, hcheck]
  dsimp only
  split_ifs <;> rfl

theorem accepted_cons_error (key : String) (failure : DpopFailure)
    (rest : List (Except DpopFailure (DpopProofClaims × String))) :
    accepted key (.error failure :: rest) = accepted key rest := by
  simp [accepted]

variable {calls : List Call}

theorem accepted_eq_won (key : String) (hcap : BelowCap platform ttlMs cache calls) :
    accepted key (verifyAll platform ttlMs cache calls) =
      ((won cache.live ttlMs cache.records (calls.filterMap (Call.attempt platform cache.isRedis))).filter
        (·.1 = key)).length := by
  induction calls generalizing cache with
  | nil => rfl
  | cons call rest ih =>
    obtain ⟨hnotFull, hrest⟩ := hcap
    rw [verifyAll]
    cases hcheck : checkProof platform call.dpopHeader call.options call.now with
    | error failure =>
      have hattempt : call.attempt platform cache.isRedis = none := by rw [Call.attempt, hcheck]
      rw [verifyDpopProof_error hcheck] at hrest ⊢
      rw [filterMap_cons_none hattempt, accepted_cons_error]
      exact ih hrest
    | ok result =>
      obtain ⟨claims, jkt⟩ := result
      rw [verifyDpopProof_ok hcheck] at hrest ⊢
      dsimp only at hrest ⊢
      cases hfails : cache.isRedis && call.redisFails with
      | true =>
        -- a failing Redis command rejects the proof and records nothing
        have hattempt : call.attempt platform cache.isRedis = none := by
          rw [Call.attempt, hcheck]
          simp [hfails]
        rw [hasOrRecord_fails hfails] at hrest ⊢
        rw [filterMap_cons_none hattempt, if_pos rfl, accepted_cons_error]
        exact ih hrest
      | false =>
        have hattempt : call.attempt platform cache.isRedis = some (makeKey jkt claims.jti, call.now) := by
          rw [Call.attempt, hcheck]
          simp [hfails]
        obtain ⟨hreplay, hrecords⟩ :=
          hasOrRecord_eq_claim hnotFull ttlMs jkt claims.jti call.now hfails
        obtain ⟨hlive, hredis⟩ := hasOrRecord_live cache ttlMs jkt claims.jti call.now call.redisFails
        have hrest' := ih hrest
        rw [hlive, hredis, hrecords] at hrest'
        rw [filterMap_cons_some hattempt, won, hreplay]
        cases (claim cache.live ttlMs cache.records (makeKey jkt claims.jti) call.now).1 with
        | false => simpa [accepted_cons_error] using hrest'
        | true =>
          by_cases hkey : makeKey jkt claims.jti = key
          · simpa [accepted, hkey] using hrest'
          · simpa [accepted, hkey] using hrest'

theorem belowCap_redis (h : cache.isRedis = true) :
    BelowCap platform ttlMs cache calls := by
  induction calls generalizing cache with
  | nil => trivial
  | cons call rest ih =>
    refine ⟨?_, ih ?_⟩
    · cases cache with
      | redis expiry keys => trivial
      | memory store => simp [isRedis] at h
    · cases hcheck : checkProof platform call.dpopHeader call.options call.now with
      | error failure => rwa [verifyDpopProof_error hcheck]
      | ok result =>
        rw [verifyDpopProof_ok hcheck]
        exact (hasOrRecord_live cache ttlMs _ _ call.now call.redisFails).2.trans h

theorem checkMemory_room (hroom : store.map.length < store.maxSize) (key : String) (ttlMs now : Millis) :
    (checkMemory store key ttlMs now).2.maxSize = store.maxSize ∧
      (checkMemory store key ttlMs now).2.map.length ≤ store.map.length + 1 := by
  have hevict : store.evict now = store := if_neg (Nat.not_le.mpr hroom)
  unfold checkMemory
  split_ifs
  · exact ⟨rfl, Nat.le_succ _⟩
  · rw [hevict]
    refine ⟨rfl, ?_⟩
    unfold InMemoryStore.set
    dsimp only
    split_ifs
    · simp
    · simp

theorem belowCap_memory (h : store.map.length + calls.length ≤ store.maxSize) :
    BelowCap platform ttlMs (.memory store) calls := by
  induction calls generalizing store with
  | nil => trivial
  | cons call rest ih =>
    rw [length_cons] at h
    have hroom : store.map.length < store.maxSize := by omega
    refine ⟨hroom, ?_⟩
    cases hcheck : checkProof platform call.dpopHeader call.options call.now with
    | error failure =>
      rw [verifyDpopProof_error hcheck]
      exact ih (by omega)
    | ok result =>
      rw [verifyDpopProof_ok hcheck]
      obtain ⟨hmax, hlength⟩ :=
        checkMemory_room hroom (makeKey result.2 result.1.jti) ttlMs call.now
      exact ih (by omega)

theorem accepted_le_one_iff (hcap : BelowCap platform ttlMs cache calls) (hnew : cache.records key = none) :
    accepted key (verifyAll platform ttlMs cache calls) ≤ 1 ↔
      ∀ first rest, presentations platform cache.isRedis key calls = first :: rest →
        ∀ now ∈ rest, cache.live (first + ttlMs) now = true := by
  rw [accepted_eq_won key hcap, won_filter, length_map, hnew]
  exact wonAt_none_length_le_one_iff _

end Counting

/-- From a cache without a record of the proof, with the default time to live: at most one call
accepts the proof exactly when every later presentation finds the record of the first one live. -/
theorem proof_singleUse_iff (platform : Platform) (cache : JtiCache) (key : String) (calls : List Call)
    (hcap : BelowCap platform dpopDefaultJtiTtlMs cache calls) (hnew : cache.records key = none) :
    accepted key (verifyAll platform dpopDefaultJtiTtlMs cache calls) ≤ 1 ↔
      ∀ first rest, presentations platform cache.isRedis key calls = first :: rest →
        ∀ now ∈ rest, cache.live (first + dpopDefaultJtiTtlMs) now = true :=
  accepted_le_one_iff hcap hnew

/-- A platform on which the header `h.p.s` is a valid proof with `iat` 30. -/
def fixedPlatform : Platform where
  decodeHeader _ := .object ⟨some "dpop+jwt", some "ES256", some ⟨some "EC", some "P-256", some "x", some "y", false⟩⟩
  decodePayload _ := .object ⟨some "POST", some "u", some 30, some "jti", none, none⟩
  decodeSignature _ := replicate 64 0
  verifyEs256 _ _ _ := true
  jwkThumbprint _ := "jkt"
  htuMatches _ _ := true
  toUpperCase s := s

/-- The proof, presented at the given time with the default options. -/
def present (now : Millis) : Call where
  dpopHeader := some "h.p.s"
  options := ⟨"POST", "u", none, none, none, none⟩
  now := now
  redisFails := false

/-- The property: with the default time to live, one proof presented at non-decreasing times with the
default skew is accepted at most once. -/
def SingleUseFrom (cache : JtiCache) : Prop :=
  ∀ (platform : Platform) (proof key : String) (calls : List Call),
    BelowCap platform dpopDefaultJtiTtlMs cache calls →
    (∀ call ∈ calls, call.dpopHeader = some proof ∧ call.options.iatSkewSeconds = none) →
    (calls.map (·.now)).Pairwise (· ≤ ·) →
    accepted key (verifyAll platform dpopDefaultJtiTtlMs cache calls) ≤ 1

theorem presentations_present (redis : Bool) :
    presentations fixedPlatform redis (makeKey "jkt" "jti") [present 0, present 60001] = [0, 60001] := by
  cases redis <;> decide +kernel

theorem not_singleUseFrom {cache : JtiCache}
    (hcap : BelowCap fixedPlatform dpopDefaultJtiTtlMs cache [present 0, present 60001])
    (hnew : cache.records (makeKey "jkt" "jti") = none)
    (hgone : cache.live (0 + dpopDefaultJtiTtlMs) 60001 = false) : ¬ SingleUseFrom cache := by
  intro h
  have honce := h fixedPlatform "h.p.s" (makeKey "jkt" "jti") [present 0, present 60001] hcap
    (by simp [present]) (by simp [present])
  rw [accepted_le_one_iff hcap hnew] at honce
  have hlive := honce 0 [60001] (presentations_present cache.isRedis) 60001 (by simp)
  exact Bool.false_ne_true (hgone.symm.trans hlive)

/-- The property fails for both forms of the cache. -/
theorem proof_not_singleUse : ¬ SingleUseFrom (.memory ⟨[], 10000⟩) ∧
      ∀ expiry : KeyExpiry, ¬ SingleUseFrom (.redis expiry fun _ ↦ none) := by
  constructor
  · exact not_singleUseFrom (belowCap_memory (by decide)) rfl (by decide)
  · exact fun expiry ↦ not_singleUseFrom (belowCap_redis rfl) rfl (expiry.gone_after _ _ (by decide))

/-- An instance: the later presentation of two within a minute finds the record live. -/
theorem proof_singleUse_iff_minute : accepted (makeKey "jkt" "jti")
      (verifyAll fixedPlatform dpopDefaultJtiTtlMs (.memory ⟨[], 10000⟩) [present 0, present 59999]) ≤ 1 := by
  rw [proof_singleUse_iff fixedPlatform _ _ _ (belowCap_memory (by decide)) rfl]
  have hpresentations : presentations fixedPlatform false (makeKey "jkt" "jti")
      [present 0, present 59999] = [0, 59999] := by decide +kernel
  intro first rest hfirst now hnow
  rw [JtiCache.isRedis, hpresentations] at hfirst
  cases hfirst
  obtain rfl := List.mem_singleton.mp hnow
  decide

end PasswdSso.Dpop
