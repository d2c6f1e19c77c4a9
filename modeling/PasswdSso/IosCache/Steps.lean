import Mathlib.Logic.Function.Basic
import PasswdSso.IosCache.File

/-!
# The operations on the cache, step by step

The keychain counter and the cache file are shared by the host app and the AutoFill extension, and nothing locks them.
A host sync (`performSync`) reads the counter, renames a new file into place, and sets the counter. An append of the
extension (`appendEntryToCache`) also reads the file in between. The recovery (`recoverIfNeeded`) reads the counter and
the file, and sets the counter. Every such access is one step here. Steps of different operations interleave in any
way, an operation may crash between two of its steps, and somebody with access to the container may put an earlier
version of the file back. The other readers of the extension (`resolveCandidates`, and what decrypts an entry for it)
take the blob and read the file at its counter like an append: each of them is an append that stops after its read.

The state keeps every version of the file and every read that was accepted, newest first.
-/

namespace PasswdSso.IosCache

variable {ι E : Type}

/-- `BridgeKeyStore.Blob`, as `readDirect` answers it. -/
structure Blob where
  cacheVersionCounter : UInt64
  hostInstallUUID : Uuid

/-- The keychain item and the cache file. -/
structure Device (E : Type) where
  blob : Blob
  file : Option (File E)

/-- The counter in the keychain. -/
def Device.counter (device : Device E) : UInt64 := device.blob.cacheVersionCounter

structure SyncRequest (E : Type) where
  vaultKey : Key
  userId : String
  entries : List E
  ivs : Nat × Nat

structure AppendRequest (E : Type) where
  vaultKey : Key
  entry : E
  ivs : Nat × Nat

/-- The operations. -/
inductive Task (E : Type)
  | sync (request : SyncRequest E)
  | append (request : AppendRequest E)
  | recover (vaultKey : Key)

inductive Phase (E : Type)
  | ready (task : Task E)
  | syncWrite (request : SyncRequest E) (now : Millis) (blob : Blob)
  | appendRead (request : AppendRequest E) (blob : Blob)
  | appendWrite (request : AppendRequest E) (blob : Blob) (data : CacheData E)
  | recoverRead (vaultKey : Key) (blob : Blob)
  | recoverForward (observed : UInt64)
  | increment (newCounter : UInt64)
  | ended

def Phase.underWay : Phase E → Bool
  | .ready _ => false
  | .ended => false
  | _ => true

/-- The new file of a sync or an append, with the next counter; `UInt32(entries.count)` traps on a larger count. -/
def nextFile (blob : Blob) (issuedAt refreshedAt : Millis) (userId : String) (entries : List E) (vaultKey : Key)
    (ivs : Nat × Nat) : Option (File E) :=
  if entries.length < UInt32.size then
    cacheFile ⟨⟨blob.cacheVersionCounter + 1, issuedAt, refreshedAt, entries.length, blob.hostInstallUUID, userId⟩,
      entries⟩ vaultKey blob.hostInstallUUID ivs
  else none

/-- The sum `counter + 1` does not trap. -/
def hasNext (counter : UInt64) : Bool := counter.toNat + 1 < UInt64.size

/-- What one step does. -/
structure Outcome (E : Type) where
  phase : Phase E
  counter : Option UInt64
  written : Option (File E)
  accepted : Option (UInt64 × File E)

def Outcome.silent (phase : Phase E) : Outcome E := ⟨phase, none, none, none⟩

/-- A step that reads the cache file at a counter, and goes on with the data or ends. -/
def reading (device : Device E) (vaultKey : Key) (uuid : Uuid) (expected : UInt64) (now : Millis)
    (next : CacheData E → Phase E) : Outcome E :=
  match device.file, readCacheFile device.file vaultKey uuid expected now with
  | some file, .ok data => ⟨next data, none, none, some (expected, file)⟩
  | _, _ => .silent .ended

def writing (blob : Blob) : Option (File E) → Outcome E
  | none => .silent .ended
  | some file => ⟨.increment (blob.cacheVersionCounter + 1), none, some file, none⟩

/-- One step of an operation, at the time `now`. -/
def Phase.advance (device : Device E) (now : Millis) : Phase E → Outcome E
  | .ready (.sync request) => .silent (.syncWrite request now device.blob)
  | .ready (.append request) => .silent (.appendRead request device.blob)
  | .ready (.recover vaultKey) =>
    .silent (if hasNext device.counter then .recoverRead vaultKey device.blob else .ended)
  | .syncWrite request issuedAt blob =>
    writing blob (nextFile blob issuedAt issuedAt request.userId request.entries request.vaultKey request.ivs)
  | .appendRead request blob =>
    reading device request.vaultKey blob.hostInstallUUID blob.cacheVersionCounter now (.appendWrite request blob)
  | .appendWrite request blob data =>
    writing blob (nextFile blob now data.header.lastSuccessfulRefreshAt data.header.userId
      (data.entries ++ [request.entry]) request.vaultKey request.ivs)
  | .recoverRead vaultKey blob =>
    reading device vaultKey blob.hostInstallUUID (blob.cacheVersionCounter + 1) now
      fun _ ↦ .recoverForward (blob.cacheVersionCounter + 1)
  | .recoverForward observed =>
    .silent (if hasNext device.counter && observed = device.counter + 1 then .increment observed else .ended)
  | .increment newCounter => ⟨.ended, some newCounter, none, none⟩
  | .ended => .silent .ended

/-- The shared state with its history, and the operations. -/
structure State (ι E : Type) where
  device : Device E
  versions : List (File E)
  accepted : List (UInt64 × File E)
  phase : ι → Phase E

def Device.apply (device : Device E) (outcome : Outcome E) : Device E where
  blob := { device.blob with cacheVersionCounter := outcome.counter.getD device.counter }
  file := outcome.written.or device.file

inductive Action (ι : Type)
  | step (i : ι) (now : Millis)
  | crash (i : ι)
  | replace (version : Nat)

namespace State

/-- Before the first step. -/
def start (device : Device E) (tasks : ι → Task E) : State ι E := ⟨device, [], [], fun i ↦ .ready (tasks i)⟩

def AloneAt (s : State ι E) (i : ι) : Prop := ∀ j, (s.phase j).underWay = true → j = i

variable [DecidableEq ι]

/-- The state after a step of operation `i`. -/
def apply (s : State ι E) (i : ι) (outcome : Outcome E) : State ι E where
  device := s.device.apply outcome
  versions := outcome.written.toList ++ s.versions
  accepted := outcome.accepted.toList ++ s.accepted
  phase := Function.update s.phase i outcome.phase

/-- The state after an action. -/
def next (s : State ι E) : Action ι → State ι E
  | .step i now => s.apply i ((s.phase i).advance s.device now)
  | .crash i => s.apply i (.silent .ended)
  | .replace version => { s with device := { s.device with file := s.versions[version]?.or s.device.file } }

section Phases

variable {s : State ι E} {i : ι} {outcome : Outcome E}

theorem next_step {phase : Phase E} (now : Millis) (h : s.phase i = phase) :
    s.next (.step i now) = s.apply i (phase.advance s.device now) := by
  rw [next, h]

theorem phase_apply (s : State ι E) (i : ι) (outcome : Outcome E) : (s.apply i outcome).phase i = outcome.phase :=
  Function.update_self ..

theorem phase_apply_cases (s : State ι E) (i j : ι) (outcome : Outcome E) :
    j = i ∧ (s.apply i outcome).phase j = outcome.phase ∨ j ≠ i ∧ (s.apply i outcome).phase j = s.phase j := by
  by_cases hj : j = i
  · subst hj
    exact .inl ⟨rfl, phase_apply s j outcome⟩
  · exact .inr ⟨hj, Function.update_of_ne hj ..⟩

theorem AloneAt.apply (h : s.AloneAt i) : (s.apply i outcome).AloneAt i := by
  intro j hj
  rcases phase_apply_cases s i j outcome with ⟨hji, -⟩ | ⟨-, hsame⟩
  · exact hji
  · exact h j (hsame ▸ hj)

theorem AloneAt.forall_phase (h : s.AloneAt i) {property : Phase E → Prop}
    (hidle : ∀ phase : Phase E, phase.underWay = false → property phase) (hmine : property outcome.phase) (j : ι) :
    property ((s.apply i outcome).phase j) := by
  rcases phase_apply_cases s i j outcome with ⟨-, hphase⟩ | ⟨hji, hsame⟩
  · exact hphase ▸ hmine
  · rw [hsame]
    refine hidle _ ?_
    by_contra hunderWay
    exact hji (h j (eq_true_of_ne_false hunderWay))

theorem alone_ended (h : ∀ j, (s.phase j).underWay = true → s.AloneAt j) (j : ι)
    (hj : ((s.apply i (.silent .ended)).phase j).underWay = true) : (s.apply i (.silent .ended)).AloneAt j := by
  have hold {k : ι} (hk : ((s.apply i (.silent .ended)).phase k).underWay = true) : (s.phase k).underWay = true := by
    rcases phase_apply_cases s i k (.silent .ended) with ⟨-, hphase⟩ | ⟨-, hsame⟩
    · rw [hphase] at hk
      cases hk
    · exact hsame ▸ hk
  exact fun k hk ↦ h j (hold hj) k (hold hk)

theorem forall_phase_ended {property : Phase E → Prop} (h : ∀ j, property (s.phase j)) (hended : property .ended)
    (j : ι) : property ((s.apply i (.silent .ended)).phase j) := by
  rcases phase_apply_cases s i j (.silent .ended) with ⟨-, hphase⟩ | ⟨-, hsame⟩
  · exact hphase ▸ hended
  · exact hsame ▸ h j

end Phases

end State

section Runs

variable [DecidableEq ι]

/-- The states that are reached by actions that meet a condition on the state before. -/
inductive Run (allowed : State ι E → Action ι → Prop) (first : State ι E) : State ι E → Prop
  | refl : Run allowed first first
  | next {s : State ι E} (action : Action ι) : Run allowed first s → allowed s action → Run allowed first (s.next action)

variable {allowed : State ι E → Action ι → Prop} {first s : State ι E}

theorem Run.invariant (inv : State ι E → Prop) (hrun : Run allowed first s) (hfirst : inv first)
    (hnext : ∀ s action, inv s → allowed s action → inv (s.next action)) : inv s := by
  induction hrun with
  | refl => exact hfirst
  | next action _ hallowed ih => exact hnext _ action ih hallowed

def legal (allowed : State ι E → Action ι → Prop) [∀ s action, Decidable (allowed s action)] :
    State ι E → List (Action ι) → Bool
  | _, [] => true
  | s, action :: rest => decide (allowed s action) && legal allowed (s.next action) rest

theorem Run.actions [∀ s action, Decidable (allowed s action)] (hrun : Run allowed first s)
    (actions : List (Action ι)) (h : legal allowed s actions = true) :
    Run allowed first (actions.foldl State.next s) := by
  induction actions generalizing s with
  | nil => exact hrun
  | cons action rest ih =>
    obtain ⟨hallowed, hrest⟩ := Bool.and_eq_true_iff.mp h
    exact ih (hrun.next action (of_decide_eq_true hallowed)) hrest

end Runs

theorem reading_cases (device : Device E) (vaultKey : Key) (uuid : Uuid) (expected : UInt64) (now : Millis)
    (next : CacheData E → Phase E) :
    (∃ rejection, readCacheFile device.file vaultKey uuid expected now = .error rejection) ∧
        reading device vaultKey uuid expected now next = .silent .ended ∨
      ∃ file data, device.file = some file ∧ readCacheFile (some file) vaultKey uuid expected now = .ok data ∧
        reading device vaultKey uuid expected now next = ⟨next data, none, none, some (expected, file)⟩ := by
  rw [reading]
  cases hfile : device.file with
  | none => exact .inl ⟨⟨_, rfl⟩, rfl⟩
  | some file =>
    cases hread : readCacheFile (some file) vaultKey uuid expected now with
    | error rejection => exact .inl ⟨⟨rejection, rfl⟩, rfl⟩
    | ok data => exact .inr ⟨file, data, rfl, hread, rfl⟩

section NextFile

variable {blob : Blob} {issuedAt refreshedAt : Millis} {userId : String} {entries : List E} {vaultKey : Key}
  {ivs : Nat × Nat} {file : File E}
  (h : nextFile blob issuedAt refreshedAt userId entries vaultKey ivs = some file)

include h

theorem counter_nextFile : file.counter = blob.cacheVersionCounter + 1 := by
  rw [nextFile, Option.ite_none_right_eq_some] at h
  obtain ⟨aad, -, rfl⟩ := Option.map_eq_some_iff.mp h.2
  rfl

theorem key_nextFile : file.header.key = vaultKey := by
  rw [nextFile, Option.ite_none_right_eq_some] at h
  obtain ⟨aad, -, rfl⟩ := Option.map_eq_some_iff.mp h.2
  rfl

theorem readCacheFile_nextFile {now : Millis} (hfresh : file.contents.header.Fresh now) :
    readCacheFile (some file) vaultKey blob.hostInstallUUID file.counter now = .ok file.contents := by
  rw [nextFile, Option.ite_none_right_eq_some] at h
  exact readCacheFile_cacheFile h.2 rfl rfl hfresh

end NextFile

theorem counter_advance (device : Device E) (now : Millis) (phase : Phase E) :
    (phase.advance device now).counter = none ∨ ∃ newCounter, phase = .increment newCounter := by
  have hreading (vaultKey : Key) (uuid : Uuid) (expected : UInt64) (next : CacheData E → Phase E) :
      (reading device vaultKey uuid expected now next).counter = none := by
    rcases reading_cases device vaultKey uuid expected now next with ⟨-, heq⟩ | ⟨_, _, -, -, heq⟩
    · rw [heq]
      rfl
    · rw [heq]
  have hwriting (blob : Blob) (file : Option (File E)) : (writing blob file).counter = none := by
    cases file <;> rfl
  cases phase with
  | ready task => cases task <;> exact .inl rfl
  | syncWrite request issuedAt blob | appendWrite request blob data => exact .inl (hwriting ..)
  | appendRead request blob | recoverRead vaultKey blob => exact .inl (hreading ..)
  | recoverForward observed | ended => exact .inl rfl
  | increment newCounter => exact .inr ⟨newCounter, rfl⟩

theorem toNat_next {counter : UInt64} (h : hasNext counter = true) : (counter + 1).toNat = counter.toNat + 1 := by
  rw [hasNext, decide_eq_true_eq] at h
  rw [UInt64.toNat_add, UInt64.toNat_one]
  exact Nat.mod_eq_of_lt h

end PasswdSso.IosCache
