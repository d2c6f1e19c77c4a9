import PasswdSso.Common

/-!
# The encrypted entry cache of the iOS app

The cache file that the host app writes and the AutoFill extension reads (`EntryCacheFile.swift`). Encryption is ideal:
a ciphertext is its plaintext under a key and an AAD, and opens only under these. The bytes around the two
ciphertexts are left out, since every file in the model was written by `writeCacheFile`.
-/

namespace PasswdSso.IosCache

variable {E : Type}

abbrev Key := Nat

/-- What a ciphertext is bound to: `buildCacheHeaderAAD` and `buildCacheEntriesAAD`. -/
inductive Aad
  | header (counter : UInt64) (hostInstallUUID : Uuid)
  | entries (counter : UInt64) (hostInstallUUID : Uuid) (userId : String)
  deriving DecidableEq

/-- The result of `encryptAESGCM`. -/
structure Sealed (α : Type) where
  iv : Nat
  key : Key
  aad : Aad
  plaintext : α
  deriving DecidableEq

/-- `decryptAESGCM`. -/
def Sealed.decrypt {α : Type} (key : Key) (aad : Aad) (blob : Sealed α) : Option α :=
  if blob.key = key ∧ blob.aad = aad then some blob.plaintext else none

structure CacheHeader where
  cacheVersionCounter : UInt64
  cacheIssuedAt : Millis
  lastSuccessfulRefreshAt : Millis
  entryCount : Nat
  hostInstallUUID : Uuid
  userId : String
  deriving DecidableEq

/-- `CacheData`; `E` is the type of a cache entry. -/
structure CacheData (E : Type) where
  header : CacheHeader
  entries : List E

inductive CacheRejectionKind
  | headerMissing
  | aadMismatch
  | authtagInvalid
  | entryCountMismatch
  | headerClockSkew
  | headerStale
  | counterMismatch
  | headerInvalid
  deriving DecidableEq

structure CacheRejectionContext where
  observedCounter : Option UInt64
  headerIssuedAt : Option Millis
  lastSuccessfulRefreshAt : Option Millis

def CacheRejectionContext.unavailable : CacheRejectionContext := ⟨none, none, none⟩

/-- `EntryCacheError.rejection`. -/
structure Rejection where
  kind : CacheRejectionKind
  context : CacheRejectionContext

/-- A cache file. -/
structure File (E : Type) where
  header : Sealed CacheHeader
  entries : Sealed (List E)
  deriving DecidableEq

def File.contents (file : File E) : CacheData E := ⟨file.header.plaintext, file.entries.plaintext⟩

def File.counter (file : File E) : UInt64 := file.header.plaintext.cacheVersionCounter

/-- A date as `Int(timeIntervalSince1970)` keeps it. -/
def wholeSeconds (time : Millis) : Millis := time.tdiv msPerSecond * msPerSecond

/-- `encodeCacheHeaderJSON`, and back. -/
def encodeCacheHeaderJSON (header : CacheHeader) : CacheHeader :=
  { header with
    cacheIssuedAt := wholeSeconds header.cacheIssuedAt
    lastSuccessfulRefreshAt := wholeSeconds header.lastSuccessfulRefreshAt }

@[simp] theorem encodeCacheHeaderJSON_counter (header : CacheHeader) :
    (encodeCacheHeaderJSON header).cacheVersionCounter = header.cacheVersionCounter := rfl

/-- `buildCacheEntriesAAD`: the length of the user id has two bytes. -/
def buildCacheEntriesAAD (counter : UInt64) (hostInstallUUID : Uuid) (userId : String) : Option Aad :=
  if userId.utf8ByteSize ≤ 0xFFFF then some (.entries counter hostInstallUUID userId) else none

/-- The file that `writeCacheFile` renames into place; `none` when the AAD cannot be built. -/
def cacheFile (data : CacheData E) (vaultKey : Key) (hostInstallUUID : Uuid) (ivs : Nat × Nat) : Option (File E) :=
  (buildCacheEntriesAAD data.header.cacheVersionCounter hostInstallUUID data.header.userId).map fun aad ↦
    { header := ⟨ivs.1, vaultKey, .header data.header.cacheVersionCounter hostInstallUUID,
        encodeCacheHeaderJSON data.header⟩
      entries := ⟨ivs.2, vaultKey, aad, data.entries⟩ }

/-- The header was issued more than 30 seconds after `now`. -/
def CacheHeader.skewed (header : CacheHeader) (now : Millis) : Bool :=
  header.cacheIssuedAt > now + 30 * msPerSecond

/-- The header was issued more than an hour ago, and the last refresh was more than a day ago. -/
def CacheHeader.stale (header : CacheHeader) (now : Millis) : Bool :=
  header.cacheIssuedAt < now - 3600 * msPerSecond && header.lastSuccessfulRefreshAt < now - 86400 * msPerSecond

/-- The end of `readCacheFile`: the entries, with the AAD from the header. -/
def readEntries (file : File E) (vaultKey : Key) (header : CacheHeader) (context : CacheRejectionContext) :
    Except Rejection (CacheData E) :=
  match buildCacheEntriesAAD header.cacheVersionCounter header.hostInstallUUID header.userId with
  | none => .error ⟨.headerInvalid, context⟩
  | some aad =>
    match file.entries.decrypt vaultKey aad with
    | none => .error ⟨.authtagInvalid, context⟩
    | some entries =>
      if entries.length ≠ header.entryCount then .error ⟨.entryCountMismatch, context⟩ else .ok ⟨header, entries⟩

/-- `readCacheFile`; `none` is a file that is not there. -/
def readCacheFile (file : Option (File E)) (vaultKey : Key) (expectedHostInstallUUID : Uuid)
    (expectedCounter : UInt64) (now : Millis) : Except Rejection (CacheData E) :=
  match file with
  | none => .error ⟨.headerMissing, .unavailable⟩
  | some file =>
    match file.header.decrypt vaultKey (.header expectedCounter expectedHostInstallUUID) with
    | none => .error ⟨.authtagInvalid, .unavailable⟩
    | some header =>
      let context : CacheRejectionContext :=
        ⟨some header.cacheVersionCounter, some header.cacheIssuedAt, some header.lastSuccessfulRefreshAt⟩
      if header.cacheVersionCounter ≠ expectedCounter then .error ⟨.counterMismatch, context⟩
      else if header.skewed now then .error ⟨.headerClockSkew, context⟩
      else if header.stale now then .error ⟨.headerStale, context⟩
      else readEntries file vaultKey header context

section Reading

variable {file : File E} {vaultKey : Key} {uuid : Uuid} {expected : UInt64} {now : Millis} {data : CacheData E}

theorem Sealed.decrypt_eq_some {α : Type} {key : Key} {aad : Aad} {blob : Sealed α} {plaintext : α} :
    blob.decrypt key aad = some plaintext ↔ (blob.key = key ∧ blob.aad = aad) ∧ blob.plaintext = plaintext := by
  rw [Sealed.decrypt, Option.ite_none_right_eq_some, Option.some_inj]

theorem counter_of_readCacheFile (h : readCacheFile (some file) vaultKey uuid expected now = .ok data) :
    file.counter = expected := by
  rw [readCacheFile] at h
  cases hopen : file.header.decrypt vaultKey (.header expected uuid) with
  | none => simp [hopen] at h
  | some header =>
    rw [hopen] at h
    obtain ⟨-, hplain⟩ := Sealed.decrypt_eq_some.mp hopen
    by_contra hne
    rw [File.counter, hplain] at hne
    simp [hne] at h

/-- The age limits of `readCacheFile`. -/
def CacheHeader.Fresh (header : CacheHeader) (now : Millis) : Prop :=
  header.skewed now = false ∧ header.stale now = false

instance (header : CacheHeader) (now : Millis) : Decidable (header.Fresh now) :=
  inferInstanceAs (Decidable (_ ∧ _))

theorem readCacheFile_cacheFile {ivs : Nat × Nat} (hwritten : cacheFile data vaultKey uuid ivs = some file)
    (huuid : data.header.hostInstallUUID = uuid) (hcount : data.header.entryCount = data.entries.length)
    (hfresh : file.contents.header.Fresh now) :
    readCacheFile (some file) vaultKey uuid file.counter now = .ok file.contents := by
  obtain ⟨aad, haad, rfl⟩ := Option.map_eq_some_iff.mp hwritten
  obtain ⟨hskewed, hstale⟩ := hfresh
  simp only [File.contents] at hskewed hstale
  have hopen : buildCacheEntriesAAD (encodeCacheHeaderJSON data.header).cacheVersionCounter
      (encodeCacheHeaderJSON data.header).hostInstallUUID (encodeCacheHeaderJSON data.header).userId = some aad := by
    rw [← huuid] at haad
    exact haad
  have hlength : data.entries.length = (encodeCacheHeaderJSON data.header).entryCount := hcount.symm
  rw [encodeCacheHeaderJSON_counter] at hopen
  simp [readCacheFile, readEntries, Sealed.decrypt, File.counter, File.contents, hskewed, hstale, hopen, hlength]

end Reading

end PasswdSso.IosCache
