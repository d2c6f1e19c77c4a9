import PasswdSso.IosCache.Rollback

/-!
# Crash recovery of the cache

Host syncs one after the other, with crashes between any two steps, and `recoverIfNeeded` after them. A crash between
the rename and the counter leaves the file one ahead of the counter; the next sync writes at the same counter value
again, and the recovery sets the counter to that of the file. So the file is at the counter or one ahead of it, and
after a recovery it is at the counter.

`create` chooses the first counter at random among all 64-bit values, and a sync adds with overflow (`&+`): a sync at
the largest counter sets it to 0.
-/

namespace PasswdSso.IosCache

open List

variable {ι E : Type}

def incrementCounter (device : Device E) (newCounter : UInt64) : Device E :=
  { device with blob := { device.blob with cacheVersionCounter := newCounter } }

/-- `recoverForwardCounter`; `none` is the trap of `+`. -/
def recoverForwardCounter (device : Device E) (observed : UInt64) : Option Bool × Device E :=
  if hasNext device.counter then
    if observed = device.counter + 1 then (some true, incrementCounter device observed) else (some false, device)
  else (none, device)

/-- The end of `recoverIfNeeded`, after it has read the keychain. -/
def recoverFromFile (device : Device E) (vaultKey : Key) (blob : Blob) (now : Millis) : Option Bool × Device E :=
  match readCacheFile device.file vaultKey blob.hostInstallUUID (blob.cacheVersionCounter + 1) now with
  | .error _ => (some false, device)
  | .ok _ => recoverForwardCounter device (blob.cacheVersionCounter + 1)

/-- `recoverIfNeeded` without interruption. -/
def recoverIfNeeded (device : Device E) (vaultKey : Key) (now : Millis) : Option Bool × Device E :=
  if hasNext device.counter then recoverFromFile device vaultKey device.blob now else (none, device)

theorem recoverIfNeeded_cases (device : Device E) (vaultKey : Key) (now : Millis) :
    ((recoverIfNeeded device vaultKey now).2 = device ∧ (hasNext device.counter = true → ∀ data,
        readCacheFile device.file vaultKey device.blob.hostInstallUUID (device.counter + 1) now ≠ .ok data)) ∨
      (recoverIfNeeded device vaultKey now).2 = incrementCounter device (device.counter + 1) ∧
        hasNext device.counter = true ∧ ∃ data,
          readCacheFile device.file vaultKey device.blob.hostInstallUUID (device.counter + 1) now = .ok data := by
  unfold recoverIfNeeded
  by_cases hnext : hasNext device.counter = true
  · rw [if_pos hnext, recoverFromFile, ← Device.counter]
    cases hread : readCacheFile device.file vaultKey device.blob.hostInstallUUID (device.counter + 1) now with
    | error rejection => exact .inl ⟨rfl, by simp⟩
    | ok data => exact .inr ⟨by simp [recoverForwardCounter, hnext], hnext, data, rfl⟩
  · rw [if_neg hnext]
    exact .inl ⟨rfl, fun h ↦ absurd h hnext⟩

section Alone

variable [DecidableEq ι] {i : ι}

/-- Four steps without interruption are `recoverIfNeeded`. -/
theorem device_of_recover_steps (s : State ι E) {vaultKey : Key} (now : Millis)
    (h : s.phase i = .ready (.recover vaultKey)) :
    ((replicate 4 (.step i now)).foldl State.next s).device = (recoverIfNeeded s.device vaultKey now).2 := by
  have hsilent (phase : Phase E) : s.device.apply (.silent phase) = s.device := rfl
  simp only [replicate, foldl_cons, foldl_nil, State.next, State.phase_apply, h]
  simp only [State.apply, Phase.advance, hsilent, recoverIfNeeded, recoverFromFile, recoverForwardCounter,
    Device.counter]
  by_cases hnext : hasNext s.device.blob.cacheVersionCounter = true
  · rcases reading_cases s.device vaultKey s.device.blob.hostInstallUUID (s.device.blob.cacheVersionCounter + 1) now
      (fun _ ↦ .recoverForward (s.device.blob.cacheVersionCounter + 1)) with
      ⟨⟨rejection, hread⟩, hended⟩ | ⟨file, data, hfile, hread, haccepted⟩
    · simp [hnext, hended, hread, Outcome.silent]
      rfl
    · rw [← hfile] at hread
      simp [hnext, haccepted, hread, Outcome.silent, Device.apply, Device.counter, incrementCounter]
  · simp [hnext, Outcome.silent]
    rfl

end Alone

section Syncs

/-- Operation `i` may take its next step: syncs and recoveries of the host app, one after the other. -/
def State.HostMayStep (s : State ι E) (i : ι) : Phase E → Prop
  | .ready (.sync _) => s.AloneAt i
  | .ready (.append _) => False
  | .ready (.recover _) => s.AloneAt i
  | _ => True

/-- Runs of the host app: no appends, and no file is put back. -/
def HostOnly (s : State ι E) : Action ι → Prop
  | .step i _ => s.HostMayStep i (s.phase i)
  | .crash _ => True
  | .replace _ => False

def Phase.beginsSync : Phase E → Bool
  | .ready (.sync _) => true
  | _ => false

def BelowMaximum (s : State ι E) : Action ι → Prop
  | .step i _ => (s.phase i).beginsSync = true → hasNext s.device.counter = true
  | .crash _ => True
  | .replace _ => True

def Readable (file : File E) (uuid : Uuid) : Prop :=
  ∀ now, file.contents.header.Fresh now →
    readCacheFile (some file) file.header.key uuid file.counter now = .ok file.contents

def State.LastAt (s : State ι E) (counter : UInt64) : Prop :=
  ∀ last, s.versions.head? = some last → last.counter = counter

def State.HostCoherent (s : State ι E) : Phase E → Prop
  | .ready _ => True
  | .syncWrite _ _ blob => blob = s.device.blob ∧ hasNext s.device.counter = true
  | .appendRead _ _ => False
  | .appendWrite _ _ _ => False
  | .recoverRead _ blob => blob = s.device.blob ∧ hasNext s.device.counter = true
  | .recoverForward observed => observed = s.device.counter + 1 ∧ hasNext s.device.counter = true ∧ s.LastAt observed
  | .increment newCounter => newCounter = s.device.counter + 1 ∧ hasNext s.device.counter = true ∧ s.LastAt newCounter
  | .ended => True

structure Recoverable (s : State ι E) : Prop where
  last : ∀ last, s.versions.head? = some last → s.device.file = some last ∧
    Readable last s.device.blob.hostInstallUUID ∧
    (last.counter = s.device.counter ∨ hasNext s.device.counter = true ∧ last.counter = s.device.counter + 1)
  alone : ∀ i, (s.phase i).underWay = true → s.AloneAt i
  coherent : ∀ i, s.HostCoherent (s.phase i)

theorem hostCoherent_of_not_underWay {s : State ι E} {phase : Phase E} (h : phase.underWay = false) :
    s.HostCoherent phase := by
  cases phase with
  | ready | ended => trivial
  | _ => cases h

theorem State.HostCoherent.congr {s s' : State ι E} {phase : Phase E} (h : s.HostCoherent phase)
    (hblob : s'.device.blob = s.device.blob) (hversions : s'.versions = s.versions) : s'.HostCoherent phase := by
  cases phase <;> simp_all [State.HostCoherent, State.LastAt, Device.counter]

/-- Runs of the host app in which no sync begins at the largest counter. -/
def Sound (s : State ι E) (action : Action ι) : Prop := HostOnly s action ∧ BelowMaximum s action

variable [DecidableEq ι] {s : State ι E} {i : ι} {outcome : Outcome E}

theorem Recoverable.apply (halone : s.AloneAt i)
    (hlast : ∀ last, (s.apply i outcome).versions.head? = some last → (s.apply i outcome).device.file = some last ∧
      Readable last (s.apply i outcome).device.blob.hostInstallUUID ∧
      (last.counter = (s.apply i outcome).device.counter ∨ hasNext (s.apply i outcome).device.counter = true ∧
        last.counter = (s.apply i outcome).device.counter + 1))
    (hcoherent : (s.apply i outcome).HostCoherent outcome.phase) : Recoverable (s.apply i outcome) where
  last := hlast
  alone j hj := halone.apply j hj ▸ halone.apply
  coherent := halone.forall_phase (fun _ ↦ hostCoherent_of_not_underWay) hcoherent

section Steps

variable (hs : Recoverable s)

include hs

theorem Recoverable.silent (halone : s.AloneAt i) {phase : Phase E}
    {accepted : Option (UInt64 × File E)} (h : s.HostCoherent phase) :
    Recoverable (s.apply i ⟨phase, none, none, accepted⟩) :=
  .apply halone hs.last (h.congr rfl rfl)

theorem Recoverable.ended : Recoverable (s.apply i (.silent .ended)) where
  last := hs.last
  alone := State.alone_ended hs.alone
  coherent := State.forall_phase_ended (fun j ↦ (hs.coherent j).congr rfl rfl) trivial

theorem Recoverable.syncWrite (halone : s.AloneAt i) {request : SyncRequest E} {issuedAt : Millis}
    (hnext : hasNext s.device.counter = true) :
    Recoverable (s.apply i (writing s.device.blob (nextFile s.device.blob issuedAt issuedAt request.userId
      request.entries request.vaultKey request.ivs))) := by
  cases hfile : nextFile s.device.blob issuedAt issuedAt request.userId request.entries request.vaultKey request.ivs with
  | none => exact hs.ended
  | some file =>
    have hcounter := counter_nextFile hfile
    have hkey : file.header.key = request.vaultKey := key_nextFile hfile
    refine .apply halone ?_ ⟨rfl, hnext, ?_⟩
    · rintro last ⟨⟩
      refine ⟨rfl, fun now hfresh ↦ ?_, .inr ⟨hnext, hcounter⟩⟩
      rw [hkey]
      exact readCacheFile_nextFile hfile hfresh
    · rintro last ⟨⟩
      exact hcounter

theorem Recoverable.recoverRead (halone : s.AloneAt i) {vaultKey : Key} {now : Millis}
    (hnext : hasNext s.device.counter = true) :
    Recoverable (s.apply i (reading s.device vaultKey s.device.blob.hostInstallUUID (s.device.counter + 1) now
      fun _ ↦ .recoverForward (s.device.counter + 1))) := by
  rcases reading_cases s.device vaultKey s.device.blob.hostInstallUUID (s.device.counter + 1) now
    (fun _ ↦ .recoverForward (s.device.counter + 1)) with ⟨-, hended⟩ | ⟨file, data, hfile, hread, haccepted⟩
  · rw [hended]
    exact hs.ended
  · rw [haccepted]
    refine hs.silent halone ⟨rfl, hnext, fun last hlast ↦ ?_⟩
    have hplace := (hs.last last hlast).1
    rw [hfile] at hplace
    exact Option.some.inj hplace ▸ counter_of_readCacheFile hread

theorem Recoverable.increment (halone : s.AloneAt i) {newCounter : UInt64}
    (hat : s.LastAt newCounter) : Recoverable (s.apply i ⟨.ended, some newCounter, none, none⟩) := by
  refine .apply halone (fun last hlast ↦ ?_) trivial
  obtain ⟨hplace, hreadable, -⟩ := hs.last last hlast
  exact ⟨hplace, hreadable, .inl (hat last hlast)⟩

theorem Recoverable.step (now : Millis) (h : Sound s (.step i now)) : Recoverable (s.next (.step i now)) := by
  have hhost : s.HostMayStep i (s.phase i) := h.1
  have hcoherent := hs.coherent i
  have halone := hs.alone i
  cases hphase : s.phase i with
  | ready task =>
    rw [hphase] at hhost
    rw [State.next_step now hphase]
    cases task with
    | sync request => exact hs.silent hhost ⟨rfl, h.2 (by rw [hphase]; rfl)⟩
    | append request => exact hhost.elim
    | recover vaultKey =>
      refine hs.silent hhost ?_
      split_ifs with hnext
      · exact ⟨rfl, hnext⟩
      · trivial
  | ended =>
    rw [State.next_step now hphase]
    exact hs.ended
  | appendRead request blob | appendWrite request blob data =>
    rw [hphase] at hcoherent
    exact hcoherent.elim
  | syncWrite request issuedAt blob =>
    rw [hphase] at hcoherent halone
    obtain ⟨rfl, hnext⟩ := hcoherent
    rw [State.next_step now hphase]
    exact hs.syncWrite (halone rfl) hnext
  | recoverRead vaultKey blob =>
    rw [hphase] at hcoherent halone
    obtain ⟨rfl, hnext⟩ := hcoherent
    rw [State.next_step now hphase]
    exact hs.recoverRead (halone rfl) hnext
  | recoverForward observed =>
    rw [hphase] at hcoherent halone
    rw [State.next_step now hphase]
    refine hs.silent (halone rfl) ?_
    split_ifs
    · exact hcoherent
    · trivial
  | increment newCounter =>
    rw [hphase] at hcoherent halone
    rw [State.next_step now hphase]
    exact hs.increment (halone rfl) hcoherent.2.2

theorem Recoverable.next {action : Action ι} (h : Sound s action) : Recoverable (s.next action) := by
  cases action with
  | step i now => exact hs.step now h
  | crash i => exact hs.ended
  | replace version => exact h.1.elim

theorem Recoverable.counter_le {action : Action ι} (h : Sound s action) :
    s.device.counter.toNat ≤ (s.next action).device.counter.toNat := by
  cases action with
  | crash i => exact Nat.le_refl _
  | replace version => exact h.1.elim
  | step i now =>
    change _ ≤ (((s.phase i).advance s.device now).counter.getD s.device.counter).toNat
    rcases counter_advance s.device now (s.phase i) with hnone | ⟨newCounter, hphase⟩
    · rw [hnone]
      exact Nat.le_refl _
    · have hcoherent := hs.coherent i
      rw [hphase] at hcoherent
      obtain ⟨rfl, hnext, -⟩ := hcoherent
      rw [hphase]
      change _ ≤ (s.device.counter + 1).toNat
      rw [toNat_next hnext]
      exact Nat.le_succ _

end Steps

omit [DecidableEq ι] in
theorem recoverable_start (device : Device E) (tasks : ι → Task E) : Recoverable (State.start device tasks) where
  last _ h := nomatch h
  alone _ h := nomatch h
  coherent _ := trivial

omit [DecidableEq ι] in
theorem Recoverable.recover (hs : Recoverable s) (vaultKey : Key) (recoveredAt : Millis) :
    s.device.counter.toNat ≤ (recoverIfNeeded s.device vaultKey recoveredAt).2.counter.toNat ∧
      ∀ last, s.versions.head? = some last → last.header.key = vaultKey → last.contents.header.Fresh recoveredAt →
        (recoverIfNeeded s.device vaultKey recoveredAt).2 = ⟨⟨last.counter, s.device.blob.hostInstallUUID⟩, some last⟩ := by
  rcases recoverIfNeeded_cases s.device vaultKey recoveredAt with ⟨hsame, hrejected⟩ | ⟨hset, hnext, data, hread⟩
  · rw [hsame]
    refine ⟨Nat.le_refl _, fun last hlast hkey hfresh ↦ ?_⟩
    obtain ⟨hplace, hreadable, hcounter⟩ := hs.last last hlast
    have hat : last.counter = s.device.counter := by
      refine hcounter.resolve_right ?_
      rintro ⟨hnext, hahead⟩
      have hread := hreadable recoveredAt hfresh
      rw [hkey, hahead, ← hplace] at hread
      exact hrejected hnext _ hread
    rw [hat, ← hplace]
    rfl
  · rw [hset]
    refine ⟨Nat.le_trans (Nat.le_succ _) (Nat.le_of_eq (toNat_next hnext).symm), fun last hlast _ _ ↦ ?_⟩
    have hplace := (hs.last last hlast).1
    rw [hplace] at hread
    rw [counter_of_readCacheFile hread, ← hplace]
    rfl

/-- For any syncs and recoveries of the host app, one after the other, with crashes after any step, on any device: as
long as no sync begins at the largest counter, the counter never falls; and after a recovery with the key of the last
version that was renamed into place, that version is accepted at the counter, within the age limits. -/
theorem host_cache_recoverable (device : Device E) (tasks : ι → Task E) {middle : State ι E}
    (hrun : Run Sound (State.start device tasks) middle) (hlater : Run Sound middle s) :
    middle.device.counter.toNat ≤ s.device.counter.toNat ∧ ∀ vaultKey recoveredAt,
      s.device.counter.toNat ≤ (recoverIfNeeded s.device vaultKey recoveredAt).2.counter.toNat ∧
        ∀ last, s.versions.head? = some last → last.header.key = vaultKey → last.contents.header.Fresh recoveredAt →
          ∀ now, last.contents.header.Fresh now →
            readCacheFile (recoverIfNeeded s.device vaultKey recoveredAt).2.file vaultKey
              (recoverIfNeeded s.device vaultKey recoveredAt).2.blob.hostInstallUUID
              (recoverIfNeeded s.device vaultKey recoveredAt).2.counter now = .ok last.contents := by
  have hmiddle : Recoverable middle :=
    hrun.invariant Recoverable (recoverable_start device tasks) fun _ _ hs h ↦ hs.next h
  have hnow : Recoverable s ∧ middle.device.counter.toNat ≤ s.device.counter.toNat :=
    hlater.invariant (fun s ↦ Recoverable s ∧ middle.device.counter.toNat ≤ s.device.counter.toNat)
      ⟨hmiddle, Nat.le_refl _⟩ fun _ _ hs h ↦ ⟨hs.1.next h, Nat.le_trans hs.2 (hs.1.counter_le h)⟩
  refine ⟨hnow.2, fun vaultKey recoveredAt ↦ ?_⟩
  obtain ⟨hle, hrecovered⟩ := hnow.1.recover vaultKey recoveredAt
  refine ⟨hle, fun last hlast hkey hfresh now hfreshNow ↦ ?_⟩
  rw [hrecovered last hlast hkey hfresh, ← hkey]
  exact (hnow.1.last last hlast).2.1 now hfreshNow

end Syncs

def twoSyncs : Fin 2 → Task Nat
  | 0 => .sync ⟨1, "u", [10], (0, 1)⟩
  | 1 => .sync ⟨1, "u", [10, 11], (2, 3)⟩

instance {n : Nat} (s : State (Fin n) E) (i : Fin n) (phase : Phase E) : Decidable (s.HostMayStep i phase) := by
  induction phase using Phase.casesOn with
  | ready task => induction task using Task.casesOn <;> dsimp only [State.HostMayStep] <;> infer_instance
  | _ => exact .isTrue trivial

instance {n : Nat} (s : State (Fin n) E) (action : Action (Fin n)) : Decidable (HostOnly s action) := by
  induction action using Action.casesOn <;> dsimp only [HostOnly] <;> infer_instance

instance (s : State ι E) (action : Action ι) : Decidable (BelowMaximum s action) := by
  cases action <;> dsimp only [BelowMaximum] <;> infer_instance

instance {n : Nat} (s : State (Fin n) E) (action : Action (Fin n)) : Decidable (Sound s action) :=
  inferInstanceAs (Decidable (HostOnly s action ∧ BelowMaximum s action))

def crashedSyncs : List (Action (Fin 2)) := [.step 0 0, .step 0 0, .crash 0, .step 1 0, .step 1 0, .crash 1]

/-- The file of the second one. -/
def secondFile : File Nat := ⟨⟨2, 1, .header 6 9, ⟨6, 0, 0, 2, 9, "u"⟩⟩, ⟨3, 1, .entries 6 9 "u", [10, 11]⟩⟩

/-- The second sync has written at the same counter value as the first, and its data is there after the recovery. -/
theorem host_cache_recoverable_crashed :
    ∃ s, Run Sound (State.start ⟨⟨5, 9⟩, none⟩ twoSyncs) s ∧ s.device.counter = 5 ∧
      s.versions.map File.counter = [6, 6] ∧ s.versions.head? = some secondFile ∧
      readCacheFile (recoverIfNeeded s.device 1 0).2.file 1 (recoverIfNeeded s.device 1 0).2.blob.hostInstallUUID
        (recoverIfNeeded s.device 1 0).2.counter 0 = .ok secondFile.contents := by
  have hrun : Run Sound (State.start ⟨⟨5, 9⟩, none⟩ twoSyncs) _ := Run.refl.actions crashedSyncs (by decide +kernel)
  have hrecovered := ((host_cache_recoverable _ twoSyncs .refl hrun).2 1 0).2 secondFile (by decide +kernel) rfl
    (by decide +kernel) 0 (by decide +kernel)
  exact ⟨_, hrun, by decide +kernel, by decide +kernel, by decide +kernel, hrecovered⟩

/-- At the largest counter a sync sets the counter to 0. -/
theorem sync_counter_wraps : ¬ ∀ (device : Device Nat) (tasks : Fin 2 → Task Nat) (s : State (Fin 2) Nat),
      Run HostOnly (State.start device tasks) s → device.counter.toNat ≤ s.device.counter.toNat := by
  intro h
  have hrun : Run HostOnly (State.start ⟨⟨0xFFFFFFFFFFFFFFFF, 9⟩, none⟩ twoSyncs) _ :=
    Run.refl.actions [.step 0 0, .step 0 0, .step 0 0] (by decide +kernel)
  have hle := h _ twoSyncs _ hrun
  revert hle
  decide +kernel

end PasswdSso.IosCache
