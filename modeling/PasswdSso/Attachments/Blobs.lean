import PasswdSso.Json
import PasswdSso.ReadCommitted.Statement

/-!
# Where the bytes of an attachment are

The routes of attachments of personal entries (`src/app/api/passwords/[id]/attachments`) and of team entries over the
blob stores of `src/lib/blob-store`. The database backend keeps the bytes in the row of the attachment; the others put
them in an object store and keep a reference in the row. Uploads, downloads and deletions go through the backend, but
`applyAttachmentMigration` hashes and writes the column of the row itself. The forms of the requests have passed their
checks, and the ids are texts, since the keys of the objects are made of them.

On the database every attachment survives. On the other backends it survives as long as no migration is applied and no
upload fails with the id of an attachment that is there, for which the object of that one is deleted.
-/

namespace PasswdSso.Attachments.Blobs

open List

open ReadCommitted (find?_of_nodup countP_of_nodup of_decide_and)

abbrev Bytes := List UInt8

/-- `BLOB_BACKEND`. -/
inductive BlobBackend
  | db
  | s3
  | azure
  | gcs
  deriving DecidableEq

/-- `AttachmentBlobContext`. -/
structure BlobContext where
  attachmentId : String
  entryId : String
  teamId : Option String

/-- The configured backend, and what the routes call: SHA-256, and `JSON.parse` on UTF-8 bytes. -/
structure Env where
  backend : BlobBackend
  /-- `BLOB_OBJECT_PREFIX`, trimmed. -/
  objectRoot : String
  sha256 : Bytes → Bytes
  parse : Bytes → Option Json
  parse_print : ∀ value : Json, parse (utf8 value.print) = some value

structure User where
  id : String
  tenantId : String
  keyVersion : Nat

structure PasswordEntry where
  id : String
  userId : String
  tenantId : String

structure TeamPasswordEntry where
  id : String
  teamId : String
  teamKeyVersion : Nat
  itemKeyVersion : Nat

/-- The `cek` columns of an attachment. -/
structure Cek where
  encrypted : Bytes
  iv : String
  authTag : String
  keyVersion : Nat
  wrapAadVersion : Nat

structure Attachment where
  id : String
  encryptedData : Bytes
  iv : String
  authTag : String
  keyVersion : Option Nat
  encryptionMode : Nat
  cek : Option Cek
  passwordEntryId : Option String
  teamPasswordEntryId : Option String

/-- The tables, and the objects in the object store. -/
structure Store where
  users : List User
  entries : List PasswordEntry
  teamEntries : List TeamPasswordEntry
  attachments : List Attachment
  objects : String → Option Bytes

inductive ErrorCode
  | notFound
  | attachmentNotFound
  | objectMissing
  | itemKeyRequired
  | attachmentLimitExceeded
  | attachmentInconsistentVersion
  | idTaken
  | legacyMigrationNotApplicable
  | legacyIntegrityMismatch
  deriving DecidableEq

/-! ### The blob stores -/

section Blobs

variable (env : Env)

def encodeObjectRef (key : String) : Bytes := utf8 (Json.object [("key", .str key)]).print

def decodeObjectRef (stored : Bytes) : Option String :=
  match (env.parse stored).bind (·.field? "key") with
  | some (.str key) => if key.length > 0 then some key else none
  | _ => none

def buildObjectKey (context : BlobContext) : String :=
  let root := if env.objectRoot.isEmpty then ""
    else String.ofList (env.objectRoot.toList.reverse.dropWhile (· = '/')).reverse ++ "/"
  let scope := match context.teamId with
    | some teamId => "team/" ++ teamId
    | none => "personal"
  root ++ scope ++ "/" ++ context.entryId ++ "/" ++ context.attachmentId ++ ".bin"

/-- The object that a stored reference names: the one of the context, if it names none. -/
def objectKey (stored : Bytes) (context : BlobContext) : String :=
  (decodeObjectRef env stored).getD (buildObjectKey env context)

/-- `putObject` of the four backends: what is stored in the row, and the store with the object. -/
def putObject (data : Bytes) (context : BlobContext) (s : Store) : Bytes × Store :=
  match env.backend with
  | .db => (data, s)
  | _ => (encodeObjectRef (buildObjectKey env context),
      { s with objects := Function.update s.objects (buildObjectKey env context) (some data) })

/-- `getObject` of the four backends. -/
def getObject (stored : Bytes) (context : BlobContext) (s : Store) : Option Bytes :=
  match env.backend with
  | .db => some stored
  | _ => s.objects (objectKey env stored context)

/-- `deleteObject` of the four backends. -/
def deleteObject (stored : Bytes) (context : BlobContext) (s : Store) : Store :=
  match env.backend with
  | .db => s
  | _ => { s with objects := Function.update s.objects (objectKey env stored context) none }

end Blobs

/-! ### The routes -/

/-- Whose entry a request addresses: `/api/passwords/[id]` or `/api/teams/[teamId]/passwords/[id]`. -/
inductive Scope
  | personal (userId : String)
  | team (teamId : String)

namespace Scope

def context (scope : Scope) (entryId attachmentId : String) : BlobContext :=
  ⟨attachmentId, entryId, match scope with
    | personal _ => none
    | team teamId => some teamId⟩

/-- The entry exists and belongs to the user or the team. -/
def opens (s : Store) (entryId : String) : Scope → Bool
  | personal userId => (s.entries.find? (·.id = entryId)).any (·.userId = userId)
  | team teamId => (s.teamEntries.find? (·.id = entryId)).any (·.teamId = teamId)

def holds (entryId : String) (row : Attachment) : Scope → Bool
  | personal _ => row.passwordEntryId = some entryId
  | team _ => row.teamPasswordEntryId = some entryId

end Scope

def Store.attachment? (s : Store) (scope : Scope) (entryId attachmentId : String) : Option Attachment :=
  s.attachments.find? fun row ↦ row.id = attachmentId && scope.holds entryId row

/-- `GET …/attachments/[attachmentId]`: the row, with the bytes that the blob store has for it. -/
def download (env : Env) (scope : Scope) (entryId attachmentId : String) (s : Store) : Except ErrorCode Attachment :=
  if !scope.opens s entryId then .error .notFound
  else match s.attachment? scope entryId attachmentId with
    | none => .error .attachmentNotFound
    | some row => match getObject env row.encryptedData (scope.context entryId attachmentId) s with
      | none => .error .objectMissing
      | some data => .ok { row with
          encryptedData := data
          cek := if row.encryptionMode = 2 then row.cek else none }

/-- `DELETE …/attachments/[attachmentId]`. -/
def deleteAttachment (env : Env) (scope : Scope) (entryId attachmentId : String) (s : Store) : Store :=
  if !scope.opens s entryId then s
  else match s.attachment? scope entryId attachmentId with
    | none => s
    | some row =>
      let s := deleteObject env row.encryptedData (scope.context entryId attachmentId) s
      { s with attachments := s.attachments.filter fun row ↦ !(row.id = attachmentId && scope.holds entryId row) }

/-- An upload; the id is the client's, or a new one, and in any case a UUID. -/
structure Upload where
  scope : Scope
  entryId : String
  attachmentId : String
  slashFree : '/' ∉ attachmentId.toList
  file : Bytes
  iv : String
  authTag : String
  cek : Cek

def maxAttachmentsPerEntry : Nat := 20

namespace Upload

def context (req : Upload) : BlobContext := req.scope.context req.entryId req.attachmentId

/-- What the transaction of the upload throws. -/
def refusal (req : Upload) (s : Store) : Option ErrorCode :=
  if s.attachments.countP (req.scope.holds req.entryId) ≥ maxAttachmentsPerEntry then some .attachmentLimitExceeded
  else match req.scope with
    | .personal userId => match s.users.find? (·.id = userId) with
      | none => some .notFound
      | some user =>
        if req.cek.keyVersion ≠ user.keyVersion then some .attachmentInconsistentVersion
        else if s.attachments.any (·.id = req.attachmentId) then some .idTaken else none
    | .team _ => if s.attachments.any (·.id = req.attachmentId) then some .idTaken else none

def row (req : Upload) (s : Store) (stored : Bytes) : Attachment :=
  match req.scope with
  | .personal _ => ⟨req.attachmentId, stored, req.iv, req.authTag, none, 2, some req.cek, some req.entryId, none⟩
  | .team _ => ⟨req.attachmentId, stored, req.iv, req.authTag,
      (s.teamEntries.find? (·.id = req.entryId)).map (·.teamKeyVersion), 1, none, none, some req.entryId⟩

/-- The team entry has no item key. -/
def lacksItemKey (req : Upload) (s : Store) : Bool :=
  match req.scope with
  | .personal _ => false
  | .team _ => (s.teamEntries.find? (·.id = req.entryId)).any (·.itemKeyVersion < 1)

/-- `POST …/attachments`: the object is put before the transaction, and deleted if the transaction fails. -/
def handle (env : Env) (req : Upload) (s : Store) : Except ErrorCode Unit × Store :=
  if !req.scope.opens s req.entryId then (.error .notFound, s)
  else if req.lacksItemKey s then (.error .itemKeyRequired, s)
  else
    let (storedBlob, s) := putObject env req.file req.context s
    match req.refusal s with
    | some code => (.error code, deleteObject env storedBlob req.context s)
    | none => (.ok (), { s with attachments := s.attachments ++ [req.row s storedBlob] })

end Upload

/-- `AttachmentMigrationPayload`, with its bytes decoded. -/
structure MigrationPayload where
  oldEncryptedDataHash : Bytes
  encryptedData : Bytes
  iv : String
  authTag : String
  cek : Cek

def MigrationPayload.apply (payload : MigrationPayload) (row : Attachment) : Attachment :=
  { row with
    encryptedData := payload.encryptedData
    iv := payload.iv
    authTag := payload.authTag
    cek := some payload.cek
    encryptionMode := 2 }

/-- `passwordEntry: { userId, tenantId }, teamPasswordEntryId: null`. -/
def Store.ownsAttachment (s : Store) (userId tenantId : String) (row : Attachment) : Bool :=
  row.teamPasswordEntryId = none && row.passwordEntryId.any fun entryId ↦
    s.entries.any fun entry ↦ entry.id = entryId && entry.userId = userId && entry.tenantId = tenantId

def applyAttachmentMigration (env : Env) (userId tenantId attachmentId : String) (payload : MigrationPayload)
    (s : Store) : Except ErrorCode (Option Nat) × Store :=
  match s.attachments.find? fun row ↦ row.id = attachmentId && s.ownsAttachment userId tenantId row with
  | none => (.error .notFound, s)
  | some row =>
    if row.encryptionMode ≠ 0 then (.error .legacyMigrationNotApplicable, s)
    else if env.sha256 row.encryptedData ≠ payload.oldEncryptedDataHash then (.error .legacyIntegrityMismatch, s)
    else
      let selected (row : Attachment) : Bool :=
        row.id = attachmentId && s.ownsAttachment userId tenantId row && row.encryptionMode = 0
      if s.attachments.countP selected ≠ 1 then (.error .notFound, s)
      else (.ok row.keyVersion, { s with
        attachments := s.attachments.map fun row ↦ if selected row then payload.apply row else row })

/-- `PUT …/attachments/[attachmentId]/migrate`. -/
def migrate (env : Env) (userId attachmentId : String) (payload : MigrationPayload) (s : Store) :
    Except ErrorCode (Option Nat) × Store :=
  match s.users.find? (·.id = userId) with
  | none => (.error .notFound, s)
  | some user =>
    if payload.cek.keyVersion ≠ user.keyVersion then (.error .attachmentInconsistentVersion, s)
    else applyAttachmentMigration env userId user.tenantId attachmentId payload s

/-! ### Runs -/

inductive Request
  | upload (req : Upload)
  | migrate (userId attachmentId : String) (payload : MigrationPayload)
  | delete (scope : Scope) (entryId attachmentId : String)

/-- The store, and for each attachment the bytes that were last submitted for it by a request that succeeded. -/
structure State where
  store : Store
  submitted : String → Option Bytes

def step (env : Env) (s : State) : Request → State
  | .upload req => match req.handle env s.store with
    | (.ok _, store) => ⟨store, Function.update s.submitted req.attachmentId (some req.file)⟩
    | (.error _, store) => { s with store }
  | .migrate userId attachmentId payload => match migrate env userId attachmentId payload s.store with
    | (.ok _, store) => ⟨store, Function.update s.submitted attachmentId (some payload.encryptedData)⟩
    | (.error _, store) => { s with store }
  | .delete scope entryId attachmentId => { s with store := deleteAttachment env scope entryId attachmentId s.store }

/-- The keys of the tables; a personal attachment is not a team attachment, and the entries of a user are in the
tenant of the user. -/
structure Store.Valid (s : Store) : Prop where
  users : (s.users.map (·.id)).Nodup
  attachments : (s.attachments.map (·.id)).Nodup
  slashFree : ∀ row ∈ s.attachments, '/' ∉ row.id.toList
  personal : ∀ row ∈ s.attachments, row.passwordEntryId ≠ none → row.teamPasswordEntryId = none
  tenants : ∀ entry ∈ s.entries, ∀ user ∈ s.users, entry.userId = user.id → entry.tenantId = user.tenantId

/-- Every attachment is downloaded as the bytes that were last submitted for it. -/
def Intact (env : Env) (s : State) : Prop :=
  ∀ (scope : Scope) entryId, scope.opens s.store entryId → ∀ row ∈ s.store.attachments, scope.holds entryId row →
    ∃ response, download env scope entryId row.id s.store = .ok response ∧
      s.submitted row.id = some response.encryptedData

/-- A migration with the hash of the downloaded bytes and the current key version succeeds on every mode-0
attachment. -/
def Migratable (env : Env) (s : Store) : Prop :=
  ∀ user ∈ s.users, ∀ entryId attachmentId response,
    download env (.personal user.id) entryId attachmentId s = .ok response → response.encryptionMode = 0 →
      ∀ payload : MigrationPayload, payload.oldEncryptedDataHash = env.sha256 response.encryptedData →
        payload.cek.keyVersion = user.keyVersion →
          (migrate env user.id attachmentId payload s).1 = .ok response.keyVersion

/-- What `putObject` stores for an attachment of the context: a reference to the object of the context, if the bytes
are not in the row. -/
def PlacedAt (env : Env) (stored : Bytes) (context : BlobContext) : Prop :=
  env.backend ≠ .db → objectKey env stored context = buildObjectKey env context

def Placed (env : Env) (s : Store) : Prop :=
  ∀ (scope : Scope) entryId, scope.opens s entryId → ∀ row ∈ s.attachments, scope.holds entryId row →
    PlacedAt env row.encryptedData (scope.context entryId row.id)

/-- The request migrates nothing, and if it is an upload that fails, no attachment has its id. -/
def Spares (env : Env) (s : Store) : Request → Prop
  | .upload req => (req.handle env s).1 = .ok () ∨ ∀ row ∈ s.attachments, row.id ≠ req.attachmentId
  | .migrate userId attachmentId payload => ∀ keyVersion, (migrate env userId attachmentId payload s).1 ≠ .ok keyVersion
  | .delete _ _ _ => True

/-- On an external backend, every request of the run spares the attachments. -/
def SparesAll (env : Env) : State → List Request → Prop
  | _, [] => True
  | s, request :: rest => (env.backend ≠ .db → Spares env s.store request) ∧ SparesAll env (step env s request) rest

section Objects

variable {env : Env} {context other : BlobContext} {stored : Bytes} {s s' s'' : Store}

theorem objectKey_encode (context : BlobContext) :
    objectKey env (encodeObjectRef (buildObjectKey env context)) context = buildObjectKey env context := by
  rw [objectKey, decodeObjectRef, encodeObjectRef, env.parse_print]
  simp only [Option.bind_some, Json.object, Fields.ofList, Json.field?, Fields.get?, if_true]
  split_ifs <;> rfl

theorem takeWhile_reverse {front last : List Char} (h : '/' ∉ last) :
    (front ++ '/' :: last).reverse.takeWhile (· ≠ '/') = last.reverse := by
  rw [reverse_append, reverse_cons, append_assoc, takeWhile_append_of_pos]
  · simp
  · intro c hc
    have hne : c ≠ '/' := fun heq ↦ h (heq ▸ mem_reverse.mp hc)
    simpa using hne

theorem toList_buildObjectKey (env : Env) (context : BlobContext) : ∃ front,
    (buildObjectKey env context).toList = front ++ '/' :: (context.attachmentId.toList ++ ".bin".toList) := by
  have happend (front : String) : (front ++ "/" ++ context.attachmentId ++ ".bin").toList =
      front.toList ++ '/' :: (context.attachmentId.toList ++ ".bin".toList) := by simp
  exact ⟨_, happend _⟩

/-- The objects of different attachments have different keys. -/
theorem buildObjectKey_ne (h : '/' ∉ context.attachmentId.toList) (hother : '/' ∉ other.attachmentId.toList)
    (hne : context.attachmentId ≠ other.attachmentId) : buildObjectKey env context ≠ buildObjectKey env other := by
  intro heq
  obtain ⟨front, hkey⟩ := toList_buildObjectKey env context
  obtain ⟨front', hkey'⟩ := toList_buildObjectKey env other
  have hlast := congrArg (·.reverse.takeWhile (· ≠ '/')) (hkey.symm.trans ((congrArg String.toList heq).trans hkey'))
  simp only [takeWhile_reverse, mem_append, h, hother, show '/' ∉ ".bin".toList by decide, or_self, not_false_eq_true]
    at hlast
  exact hne (String.toList_inj.mp (append_cancel_right (reverse_injective hlast)))

/-- The stores differ at most in the object of one attachment. -/
def Elsewhere (env : Env) (context : BlobContext) (s s' : Store) : Prop :=
  ∃ objects, s' = { s with objects } ∧ ∀ key, key ≠ buildObjectKey env context → objects key = s.objects key

theorem Elsewhere.refl : Elsewhere env context s s := ⟨s.objects, rfl, fun _ _ ↦ rfl⟩

theorem Elsewhere.exists_objects (h : Elsewhere env context s s') : ∃ objects, s' = { s with objects } :=
  h.imp fun _ ↦ And.left

theorem Elsewhere.getObject (h : Elsewhere env other s s')
    (hapart : env.backend ≠ .db → objectKey env stored context ≠ buildObjectKey env other) :
    getObject env stored context s' = getObject env stored context s := by
  obtain ⟨objects, rfl, hsame⟩ := h
  unfold Blobs.getObject
  split
  · rfl
  next hexternal => exact hsame _ (hapart hexternal)

theorem Elsewhere.trans (h : Elsewhere env context s s') (h' : Elsewhere env context s' s'') :
    Elsewhere env context s s'' := by
  obtain ⟨objects, rfl, hsame⟩ := h
  obtain ⟨objects', rfl, hsame'⟩ := h'
  exact ⟨objects', rfl, fun key hkey ↦ (hsame' key hkey).trans (hsame key hkey)⟩

theorem getObject_external (hexternal : env.backend ≠ .db) :
    getObject env stored context s = s.objects (objectKey env stored context) := by
  unfold getObject
  split
  next hdb => exact absurd hdb hexternal
  next => rfl

theorem getObject_attachments (rows : List Attachment) :
    getObject env stored context { s with attachments := rows } = getObject env stored context s := by
  unfold getObject
  split <;> rfl

theorem elsewhere_deleteObject (hplaced : PlacedAt env stored context) :
    Elsewhere env context s (deleteObject env stored context s) := by
  unfold deleteObject
  split
  · exact .refl
  next hexternal => exact ⟨_, rfl, fun key hkey ↦ Function.update_of_ne (hplaced hexternal ▸ hkey) ..⟩

theorem putObject_spec (env : Env) (data : Bytes) (context : BlobContext) (s : Store) :
    Elsewhere env context s (putObject env data context s).2 ∧
      PlacedAt env (putObject env data context s).1 context ∧
      getObject env (putObject env data context s).1 context (putObject env data context s).2 = some data := by
  unfold putObject
  split
  next hdb => exact ⟨.refl, absurd hdb, by simp [getObject, hdb]⟩
  next hexternal =>
    refine ⟨⟨_, rfl, fun key hkey ↦ Function.update_of_ne hkey ..⟩, fun _ ↦ objectKey_encode context, ?_⟩
    rw [getObject_external hexternal, objectKey_encode]
    exact Function.update_self ..

end Objects

section Runs

variable {env : Env} {s : State} {entryId : String} {scope : Scope} {row : Attachment}

theorem Store.Valid.attachment? {s : Store} (h : s.Valid) (hrow : row ∈ s.attachments)
    (hholds : scope.holds entryId row) : s.attachment? scope entryId row.id = some row :=
  find?_of_nodup h.attachments hrow (by simp [hholds]) fun _ ↦ of_decide_and

/-- The blob store has the bytes that were last submitted for the attachment. -/
structure Has (env : Env) (s : State) (context : BlobContext) (row : Attachment) : Prop where
  placed : PlacedAt env row.encryptedData context
  bytes : ∃ data, getObject env row.encryptedData context s.store = some data ∧ s.submitted row.id = some data

structure Sound (env : Env) (s : State) : Prop where
  valid : s.store.Valid
  has : ∀ (scope : Scope) entryId, scope.opens s.store entryId → ∀ row ∈ s.store.attachments,
    scope.holds entryId row → Has env s (scope.context entryId row.id) row

theorem Sound.intact (h : Sound env s) : Intact env s := by
  intro scope entryId hopens row hrow hholds
  obtain ⟨data, hdata, hsubmitted⟩ := (h.has scope entryId hopens row hrow hholds).bytes
  simp only [download, hopens, h.valid.attachment? hrow hholds, hdata]
  exact ⟨_, rfl, hsubmitted⟩

theorem sound_of_intact (h : s.store.Valid) (hplaced : Placed env s.store) (hintact : Intact env s) : Sound env s := by
  refine ⟨h, fun scope entryId hopens row hrow hholds ↦ ⟨hplaced scope entryId hopens row hrow hholds, ?_⟩⟩
  obtain ⟨response, hresponse, hsubmitted⟩ := hintact scope entryId hopens row hrow hholds
  simp only [download, hopens, h.attachment? hrow hholds, Bool.not_true, Bool.false_eq_true, if_false] at hresponse
  split at hresponse
  · cases hresponse
  next data hdata =>
  refine ⟨data, hdata, ?_⟩
  rw [hsubmitted, ← Except.ok.inj hresponse]

theorem Store.Valid.ownsAttachment {s : Store} (h : s.Valid) {user : User} (huser : user ∈ s.users)
    (hrow : row ∈ s.attachments) (hopens : (Scope.personal user.id).opens s entryId)
    (hholds : (Scope.personal user.id).holds entryId row) :
    s.ownsAttachment user.id user.tenantId row := by
  simp only [Scope.opens, Option.any_eq_true, decide_eq_true_eq] at hopens
  obtain ⟨entry, hfound, howner⟩ := hopens
  have hentry := mem_of_find?_eq_some hfound
  have hid : entry.id = entryId := of_decide_eq_true (find?_some hfound :)
  have hof : row.passwordEntryId = some entryId := of_decide_eq_true hholds
  have hteam := h.personal row hrow (by simp [hof])
  simp only [Store.ownsAttachment, hteam, hof, decide_true, Bool.true_and, Option.any_some, any_eq_true,
    Bool.and_eq_true, decide_eq_true_eq]
  exact ⟨entry, hentry, ⟨hid, howner⟩, h.tenants entry hentry user huser howner⟩

theorem migratable {s : Store} (h : s.Valid)
    (hcond : env.backend = .db ∨ ∀ row ∈ s.attachments, row.encryptionMode ≠ 0) : Migratable env s := by
  intro user huser entryId attachmentId response hresponse hmode payload hhash hversion
  simp only [download] at hresponse
  split at hresponse
  · cases hresponse
  next hopens =>
  split at hresponse
  · cases hresponse
  next row hfound =>
  split at hresponse
  · cases hresponse
  next data hdata =>
  obtain rfl := Except.ok.inj hresponse
  change row.encryptionMode = 0 at hmode
  have hrow := mem_of_find?_eq_some hfound
  have hdb := hcond.resolve_right fun hnone ↦ hnone row hrow hmode
  simp only [getObject, hdb, Option.some.injEq] at hdata
  have hkey := find?_some hfound
  simp only [Bool.and_eq_true, decide_eq_true_eq] at hkey
  obtain ⟨rfl, hholds⟩ := hkey
  have howns := h.ownsAttachment huser hrow (by simpa using hopens) hholds
  have hselect : s.attachments.find? (fun other ↦ other.id = row.id && s.ownsAttachment user.id user.tenantId other) =
      some row := find?_of_nodup h.attachments hrow (by simp [howns]) (by grind)
  have hcount : s.attachments.countP (fun other ↦ other.id = row.id &&
      s.ownsAttachment user.id user.tenantId other && other.encryptionMode = 0) = 1 :=
    countP_of_nodup h.attachments hrow (by simp [howns, hmode]) (by grind)
  have hfind : s.users.find? (·.id = user.id) = some user := ReadCommitted.find?_of_nodup_map h.users huser
  simp [migrate, hfind, hversion, applyAttachmentMigration, hselect, hmode, hhash, hcount, hdata]

/-! ### What a step does -/

theorem Upload.handle_cases (env : Env) (req : Upload) (s : Store) :
    (∃ code s', req.handle env s = (.error code, s') ∧ Elsewhere env req.context s s') ∨
      ∃ stored s', req.handle env s = (.ok (), { s' with attachments := s.attachments ++ [req.row s stored] }) ∧
        Elsewhere env req.context s s' ∧ PlacedAt env stored req.context ∧
        getObject env stored req.context s' = some req.file ∧ req.scope.opens s req.entryId ∧
        ∀ row ∈ s.attachments, row.id ≠ req.attachmentId := by
  obtain ⟨hput, hplaced, hget⟩ := putObject_spec env req.file req.context s
  unfold Upload.handle
  split
  · exact .inl ⟨_, _, rfl, .refl⟩
  next hopens =>
  split
  · exact .inl ⟨_, _, rfl, .refl⟩
  dsimp only
  split
  · exact .inl ⟨_, _, rfl, hput.trans (elsewhere_deleteObject hplaced)⟩
  next hnone =>
  obtain ⟨objects, hobjects⟩ := hput.exists_objects
  refine .inr ⟨_, _, ?_, hput, hplaced, hget, by simpa using hopens, fun row hrow heq ↦ ?_⟩
  · rw [hobjects]
    rfl
  · have htaken : s.attachments.any (·.id = req.attachmentId) = true :=
      any_eq_true.mpr ⟨row, hrow, decide_eq_true heq⟩
    rw [hobjects] at hnone
    grind [Upload.refusal]

theorem migrate_cases (env : Env) (userId attachmentId : String) (payload : MigrationPayload) (s : Store) :
    (∃ code, migrate env userId attachmentId payload s = (.error code, s)) ∨
      ∃ keyVersion, ∃ selected : Attachment → Bool, (∃ row ∈ s.attachments, row.id = attachmentId ∧ selected row) ∧
        (∀ row, selected row → row.id = attachmentId) ∧
          migrate env userId attachmentId payload s = (.ok keyVersion, { s with
            attachments := s.attachments.map fun row ↦ if selected row then payload.apply row else row }) := by
  unfold migrate applyAttachmentMigration
  split
  · exact .inl ⟨_, rfl⟩
  split
  · exact .inl ⟨_, rfl⟩
  split
  · exact .inl ⟨_, rfl⟩
  next row hfound =>
  split
  · exact .inl ⟨_, rfl⟩
  next hmode =>
  split
  · exact .inl ⟨_, rfl⟩
  dsimp only
  split
  · exact .inl ⟨_, rfl⟩
  refine .inr ⟨_, _, ⟨row, mem_of_find?_eq_some hfound, ?_⟩, ?_, rfl⟩
  · grind
  · grind

/-- Two scopes that open the entry of an uploaded attachment mean the same object. -/
theorem Upload.context_eq {req : Upload} {s : Store} {stored : Bytes} (hreq : req.scope.opens s req.entryId)
    (hopens : scope.opens s entryId) (hholds : scope.holds entryId (req.row s stored)) :
    scope.context entryId req.attachmentId = req.context := by
  unfold Upload.row at hholds
  unfold Upload.context
  cases hscope : req.scope with
  | personal userId =>
    cases scope with
    | personal other =>
      obtain rfl : req.entryId = entryId := by simpa [hscope, Scope.holds] using hholds
      rfl
    | team teamId => simp [hscope, Scope.holds] at hholds
  | team teamId =>
    cases scope with
    | personal userId => simp [hscope, Scope.holds] at hholds
    | team other =>
      obtain rfl : req.entryId = entryId := by simpa [hscope, Scope.holds] using hholds
      simp only [hscope, Scope.opens, Option.any_eq_true, decide_eq_true_eq] at hopens hreq
      obtain ⟨entry, hentry, rfl⟩ := hopens
      obtain ⟨entry', hentry', rfl⟩ := hreq
      rw [Option.some.inj (hentry.symm.trans hentry')]

/-- Attachments other than that of the request are where they were. -/
theorem Has.elsewhere {context other : BlobContext} {store : Store} {submitted : String → Option Bytes}
    (h : Has env s context row) (helsewhere : Elsewhere env other s.store store)
    (hapart : env.backend ≠ .db → buildObjectKey env context ≠ buildObjectKey env other)
    (hsame : submitted row.id = s.submitted row.id) (rows : List Attachment) :
    Has env ⟨{ store with attachments := rows }, submitted⟩ context row := by
  obtain ⟨hplaced, data, hdata, hsubmitted⟩ := h
  refine ⟨hplaced, data, ?_, hsame.trans hsubmitted⟩
  rw [getObject_attachments, helsewhere.getObject fun hexternal ↦ hplaced hexternal ▸ hapart hexternal, hdata]

theorem Store.Valid.sublist {s : Store} (h : s.Valid) {rows : List Attachment} (hrows : rows <+ s.attachments)
    (objects : String → Option Bytes) : Store.Valid { s with attachments := rows, objects } :=
  ⟨h.users, h.attachments.sublist (hrows.map _), fun row hrow ↦ h.slashFree row (hrows.subset hrow),
    fun row hrow ↦ h.personal row (hrows.subset hrow), h.tenants⟩

@[simp] theorem Scope.opens_attachments (s : Store) (rows : List Attachment) (objects : String → Option Bytes)
    (entryId : String) (scope : Scope) :
    scope.opens { s with attachments := rows, objects } entryId = scope.opens s entryId := by
  cases scope <;> rfl

theorem Sound.upload (h : Sound env s) (req : Upload) (hspares : env.backend ≠ .db → Spares env s.store (.upload req)) :
    Sound env (step env s (.upload req)) := by
  have hapart {scope : Scope} {entryId : String} {row : Attachment} (hrow : row ∈ s.store.attachments)
      (hne : row.id ≠ req.attachmentId) :
      buildObjectKey env (scope.context entryId row.id) ≠ buildObjectKey env req.context :=
    buildObjectKey_ne (h.valid.slashFree row hrow) req.slashFree hne
  rcases req.handle_cases env s.store with ⟨code, s', hfail, helsewhere⟩ |
    ⟨stored, s', hok, helsewhere, hplaced, hget, hopened, hnew⟩
  · simp only [step, hfail]
    obtain ⟨objects, rfl⟩ := helsewhere.exists_objects
    refine ⟨h.valid.sublist (.refl _) objects, fun scope entryId hopens row hrow hholds ↦ ?_⟩
    rw [Scope.opens_attachments] at hopens
    refine (h.has scope entryId hopens row hrow hholds).elsewhere helsewhere (fun hexternal ↦ hapart hrow ?_) rfl _
    refine (hspares hexternal).resolve_left (fun hok ↦ ?_) row hrow
    rw [hfail] at hok
    cases hok
  · simp only [step, hok]
    have hid : (req.row s.store stored).id = req.attachmentId := by grind [Upload.row]
    have hdata : (req.row s.store stored).encryptedData = stored := by grind [Upload.row]
    obtain ⟨objects, rfl⟩ := helsewhere.exists_objects
    refine ⟨⟨h.valid.users, ?_, ?_, ?_, h.valid.tenants⟩, fun scope entryId hopens row hrow hholds ↦ ?_⟩
    · simp only [map_append, nodup_append, h.valid.attachments]
      grind
    · grind [h.valid.slashFree, req.slashFree]
    · grind [h.valid.personal, Upload.row]
    rw [Scope.opens_attachments] at hopens
    rcases mem_append.mp hrow with hold | hrow
    · exact (h.has scope entryId hopens row hold hholds).elsewhere helsewhere (fun _ ↦ hapart hold (hnew row hold))
        (Function.update_of_ne (hnew row hold) ..) _
    · obtain rfl := mem_singleton.mp hrow
      rw [hid, Upload.context_eq hopened hopens hholds]
      refine ⟨by rw [hdata]; exact hplaced, req.file, ?_, by rw [hid]; exact Function.update_self ..⟩
      rw [hdata, getObject_attachments, hget]

theorem Sound.migrate (h : Sound env s) {userId attachmentId : String} {payload : MigrationPayload}
    (hspares : env.backend ≠ .db → Spares env s.store (.migrate userId attachmentId payload)) :
    Sound env (step env s (.migrate userId attachmentId payload)) := by
  rcases migrate_cases env userId attachmentId payload s.store with
    ⟨code, hfail⟩ | ⟨keyVersion, selected, ⟨found, hfound, hfoundId, hselected⟩, hid, hok⟩
  · simp only [step, hfail]
    exact h
  have hdb : env.backend = .db := not_not.mp fun hexternal ↦ hspares hexternal keyVersion (by rw [hok])
  simp only [step, hok]
  have hids : (s.store.attachments.map fun row ↦ if selected row then payload.apply row else row).map (·.id) =
      s.store.attachments.map (·.id) := by
    rw [map_map]
    exact map_congr_left fun row _ ↦ by grind [MigrationPayload.apply]
  refine ⟨⟨h.valid.users, hids ▸ h.valid.attachments, ?_, ?_, h.valid.tenants⟩, ?_⟩
  · grind [h.valid.slashFree, MigrationPayload.apply]
  · grind [h.valid.personal, MigrationPayload.apply]
  intro scope entryId hopens row hrow hholds
  obtain ⟨old, hold, rfl⟩ := mem_map.mp hrow
  refine ⟨absurd hdb, _, by rw [getObject, hdb], ?_⟩
  by_cases hchosen : selected old
  · rw [if_pos hchosen, show (payload.apply old).id = attachmentId from hid old hchosen]
    exact Function.update_self ..
  · -- the only row with the id of the request is the one that was selected
    have hne : old.id ≠ attachmentId := fun heq ↦ hchosen
      (inj_on_of_nodup_map h.valid.attachments hold hfound (heq.trans hfoundId.symm) ▸ hselected)
    rw [if_neg hchosen] at hholds ⊢
    obtain ⟨data, hdata, hsubmitted⟩ := (h.has scope entryId hopens old hold hholds).bytes
    rw [getObject, hdb] at hdata
    rw [Option.some.inj hdata, ← hsubmitted]
    exact Function.update_of_ne hne ..

theorem Sound.delete (h : Sound env s) (scope : Scope) (entryId attachmentId : String) :
    Sound env (step env s (.delete scope entryId attachmentId)) := by
  simp only [step, deleteAttachment]
  split
  · exact h
  next hopened =>
  split
  · exact h
  next row hfound =>
  have hrow := mem_of_find?_eq_some hfound
  have hkey := find?_some hfound
  simp only [Bool.and_eq_true, decide_eq_true_eq] at hkey
  obtain ⟨rfl, hholds⟩ := hkey
  have helsewhere := elsewhere_deleteObject (s := s.store)
    (h.has scope entryId (by simpa using hopened) row hrow hholds).placed
  have hsub := (filter_sublist (l := s.store.attachments) (p := fun other ↦
    !(other.id = row.id && scope.holds entryId other)))
  obtain ⟨objects, heq⟩ := helsewhere.exists_objects
  rw [heq] at helsewhere ⊢
  refine ⟨h.valid.sublist hsub objects, fun scope' entryId' hopens other hother hholds' ↦ ?_⟩
  rw [Scope.opens_attachments] at hopens
  have hold := hsub.subset hother
  have hne : other.id ≠ row.id := by
    intro hsame
    obtain rfl := inj_on_of_nodup_map h.valid.attachments hold hrow hsame
    simp [hholds] at hother
  exact (h.has scope' entryId' hopens other hold hholds').elsewhere helsewhere (fun _ ↦
    buildObjectKey_ne (h.valid.slashFree other hold) (h.valid.slashFree row hrow) hne) rfl _

theorem Sound.run {requests : List Request} (h : Sound env s) (hspares : SparesAll env s requests) :
    Sound env (requests.foldl (step env) s) := by
  induction requests generalizing s with
  | nil => exact h
  | cons request rest ih =>
    obtain ⟨hfirst, hrest⟩ := hspares
    refine ih ?_ hrest
    cases request with
    | upload req => exact h.upload req hfirst
    | migrate userId attachmentId payload => exact h.migrate hfirst
    | delete scope entryId attachmentId => exact h.delete scope entryId attachmentId

end Runs

section External

open Classical in
/-- The S3 backend, with an ideal hash. -/
noncomputable def s3Env : Env where
  backend := .s3
  objectRoot := ""
  sha256 := id
  parse stored := if h : ∃ value : Json, utf8 value.print = stored then some h.choose else none
  parse_print value := by
    have h : ∃ other : Json, utf8 other.print = utf8 value.print := ⟨value, rfl⟩
    rw [dif_pos h, print_injective (utf8_injective h.choose_spec)]

/-- A user with one entry, and the bytes of at most one attachment in the object store. -/
def oneEntry (attachments : List Attachment) (objects : String → Option Bytes) : Store :=
  ⟨[⟨"user", "tenant", 1⟩], [⟨"entry", "user", "tenant"⟩], [], attachments, objects⟩

def fileContext : BlobContext := ⟨"file", "entry", none⟩

/-- An attachment of the time before migrations. -/
noncomputable def legacyRow : Attachment :=
  ⟨"file", encodeObjectRef (buildObjectKey s3Env fileContext), "", "", some 1, 0, none, some "entry", none⟩

def fileUpload : Upload := ⟨.personal "user", "entry", "file", by decide, [1], "", "", ⟨[], "", "", 1, 1⟩⟩

end External

end PasswdSso.Attachments.Blobs
