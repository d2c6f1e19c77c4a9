import Mathlib.Data.List.Nodup
import PasswdSso.IosCache.Steps

/-!
# Rollback protection of the cache

What the counter is for: at each counter value at most one content is ever accepted, and once a content is accepted,
nothing that was written before it is. This fails when operations overlap: a sync and an append that both read the
counter before either sets it write two contents for one counter value. It also fails when a crash between the rename
and the counter is not recovered before the next write, since the next write takes the same counter value.

It holds when operations exclude each other and a sync or an append begins only when no version of the file is ahead
of the counter (`Guarded`).
-/

namespace PasswdSso.IosCache

open List

variable {ι E : Type}

/-- No version of the file is ahead of the counter, and the counter has a successor. -/
def State.Settled (s : State ι E) : Prop :=
  (∀ version ∈ s.versions, version.counter.toNat ≤ s.device.counter.toNat) ∧ hasNext s.device.counter = true

/-- Operation `i` may take its next step: it begins only when no other is under way, and if it is a sync or an append,
only in a settled state. -/
def State.MayStep (s : State ι E) (i : ι) : Phase E → Prop
  | .ready (.sync _) => s.AloneAt i ∧ s.Settled
  | .ready (.append _) => s.AloneAt i ∧ s.Settled
  | .ready (.recover _) => s.AloneAt i
  | _ => True

/-- Operations exclude each other and syncs and appends begin in settled states; crashes and the other files come at
any time. -/
def Guarded (s : State ι E) : Action ι → Prop
  | .step i _ => s.MayStep i (s.phase i)
  | .crash _ => True
  | .replace _ => True

/-- At most one content is accepted for each counter value, and nothing is accepted that was written before a content
that has been accepted. -/
structure RollbackProtected (s : State ι E) : Prop where
  unique : ∀ first ∈ s.accepted, ∀ second ∈ s.accepted, first.1 = second.1 → first.2 = second.2
  forward : s.accepted.Pairwise fun later earlier ↦ ¬ [earlier.2, later.2].Sublist s.versions

/-- What an operation has read is still so. -/
def State.Coherent (s : State ι E) : Phase E → Prop
  | .ready _ => True
  | .syncWrite _ _ blob => blob = s.device.blob ∧ s.Settled
  | .appendRead _ blob => blob = s.device.blob ∧ s.Settled
  | .appendWrite _ blob _ => blob = s.device.blob ∧ s.Settled
  | .recoverRead _ blob => blob = s.device.blob ∧ hasNext s.device.counter = true
  | .recoverForward observed => observed = s.device.counter + 1 ∧ hasNext s.device.counter = true
  | .increment newCounter => newCounter = s.device.counter + 1 ∧ hasNext s.device.counter = true
  | .ended => True

/-- The counters of the versions grow, and are at most one ahead; what was accepted is a version, in this order. -/
structure Ordered (s : State ι E) : Prop where
  increasing : s.versions.Pairwise fun newer older ↦ older.counter.toNat < newer.counter.toNat
  bounded : ∀ version ∈ s.versions, version.counter.toNat ≤ s.device.counter.toNat + 1
  file : ∀ file, s.device.file = some file → file ∈ s.versions
  accepted : ∀ read ∈ s.accepted, read.2 ∈ s.versions ∧ read.2.counter = read.1
  ordered : s.accepted.Pairwise fun later earlier ↦ earlier.1.toNat ≤ later.1.toNat
  alone : ∀ i, (s.phase i).underWay = true → s.AloneAt i
  coherent : ∀ i, s.Coherent (s.phase i)

variable {s : State ι E}

theorem Ordered.rollbackProtected (h : Ordered s) : RollbackProtected s := by
  constructor
  · intro first hfirst second hsecond hcounter
    obtain ⟨hfirstMem, hfirstCounter⟩ := h.accepted first hfirst
    obtain ⟨hsecondMem, hsecondCounter⟩ := h.accepted second hsecond
    have hnodup : (s.versions.map File.counter).Nodup := by
      refine pairwise_map.mpr (h.increasing.imp fun {newer older} hlt heq ↦ ?_)
      rw [heq] at hlt
      exact Nat.lt_irrefl _ hlt
    refine inj_on_of_nodup_map hnodup hfirstMem hsecondMem ?_
    rw [hfirstCounter, hsecondCounter, hcounter]
  · refine List.Pairwise.imp_of_mem (fun {later earlier} hlater hearlier hle hsublist ↦ ?_) h.ordered
    have hlt := pairwise_pair.mp (h.increasing.sublist hsublist)
    rw [(h.accepted _ hlater).2, (h.accepted _ hearlier).2] at hlt
    exact Nat.not_lt.mpr hle hlt

theorem coherent_of_not_underWay {phase : Phase E} (h : phase.underWay = false) : s.Coherent phase := by
  cases phase with
  | ready | ended => trivial
  | _ => cases h

theorem State.Coherent.congr {s' : State ι E} {phase : Phase E} (h : s.Coherent phase)
    (hblob : s'.device.blob = s.device.blob) (hversions : s'.versions = s.versions) : s'.Coherent phase := by
  cases phase <;> simp_all [State.Coherent, State.Settled, Device.counter]

section Steps

variable [DecidableEq ι] {s : State ι E} {i : ι} {outcome : Outcome E}

structure Legitimate (s : State ι E) (i : ι) (outcome : Outcome E) : Prop where
  counter : ∀ counter, outcome.counter = some counter →
    counter = s.device.counter + 1 ∧ hasNext s.device.counter = true
  written : ∀ file, outcome.written = some file → s.Settled ∧ file.counter = s.device.counter + 1
  accepted : ∀ read, outcome.accepted = some read → read.2 ∈ s.versions ∧ read.2.counter = read.1 ∧
    ∀ version ∈ s.versions, version.counter.toNat ≤ read.1.toNat
  coherent : (s.apply i outcome).Coherent outcome.phase

theorem Legitimate.counter_le (h : Legitimate s i outcome) :
    s.device.counter.toNat ≤ (s.apply i outcome).device.counter.toNat := by
  change _ ≤ (outcome.counter.getD s.device.counter).toNat
  cases hcounter : outcome.counter with
  | none => exact Nat.le_refl _
  | some counter =>
    obtain ⟨rfl, hnext⟩ := h.counter counter hcounter
    rw [Option.getD_some, toNat_next hnext]
    exact Nat.le_succ _

theorem Legitimate.bounded (hs : Ordered s) (h : Legitimate s i outcome) : ∀ version ∈ (s.apply i outcome).versions,
      version.counter.toNat ≤ (s.apply i outcome).device.counter.toNat + 1 := by
  intro version hversion
  refine Nat.le_trans ?_ (Nat.add_le_add_right h.counter_le 1)
  rcases mem_append.mp hversion with hnew | hold
  · obtain ⟨hsettled, hcounter⟩ := h.written version (Option.mem_toList.mp hnew)
    exact Nat.le_of_eq (hcounter ▸ toNat_next hsettled.2)
  · exact hs.bounded version hold

theorem Legitimate.increasing (hs : Ordered s) (h : Legitimate s i outcome) :
    (s.apply i outcome).versions.Pairwise fun newer older ↦ older.counter.toNat < newer.counter.toNat := by
  cases hwritten : outcome.written with
  | none => simpa [State.apply, hwritten] using hs.increasing
  | some file =>
    obtain ⟨hsettled, hcounter⟩ := h.written file hwritten
    have hversions : (s.apply i outcome).versions = file :: s.versions := by simp [State.apply, hwritten]
    rw [hversions]
    refine hs.increasing.cons fun older holder ↦ ?_
    rw [hcounter, toNat_next hsettled.2]
    exact Nat.lt_succ_of_le (hsettled.1 older holder)

theorem Legitimate.ordered (hs : Ordered s) (h : Legitimate s i outcome) :
    (s.apply i outcome).accepted.Pairwise fun later earlier ↦ earlier.1.toNat ≤ later.1.toNat := by
  cases haccepted : outcome.accepted with
  | none => simpa [State.apply, haccepted] using hs.ordered
  | some read =>
    have hlist : (s.apply i outcome).accepted = read :: s.accepted := by simp [State.apply, haccepted]
    rw [hlist]
    refine hs.ordered.cons fun earlier hearlier ↦ ?_
    obtain ⟨hmem, hcounter⟩ := hs.accepted earlier hearlier
    rw [← hcounter]
    exact (h.accepted read haccepted).2.2 _ hmem

theorem Ordered.apply (hs : Ordered s) (halone : s.AloneAt i) (h : Legitimate s i outcome) :
    Ordered (s.apply i outcome) := by
  have hsubset : s.versions ⊆ (s.apply i outcome).versions := subset_append_right _ _
  refine ⟨h.increasing hs, h.bounded hs, fun file hfile ↦ ?_, fun read hread ↦ ?_, h.ordered hs, fun j hj ↦ ?_,
    halone.forall_phase (fun _ ↦ coherent_of_not_underWay) h.coherent⟩
  · rcases Option.or_eq_some_iff.mp hfile with hwritten | ⟨-, hold⟩
    · exact mem_append_left _ (Option.mem_toList.mpr hwritten)
    · exact hsubset (hs.file file hold)
  · rcases mem_append.mp hread with hnew | hold
    · obtain ⟨hmem, hcounter, -⟩ := h.accepted read (Option.mem_toList.mp hnew)
      exact ⟨hsubset hmem, hcounter⟩
    · obtain ⟨hmem, hcounter⟩ := hs.accepted read hold
      exact ⟨hsubset hmem, hcounter⟩
  · exact halone.apply j hj ▸ halone.apply

theorem legitimate_silent {phase : Phase E} (h : s.Coherent phase) : Legitimate s i (.silent phase) where
  counter _ hcounter := nomatch hcounter
  written _ hwritten := nomatch hwritten
  accepted _ haccepted := nomatch haccepted
  coherent := h.congr rfl rfl

theorem legitimate_reading {vaultKey : Key} {uuid : Uuid} {expected : UInt64} {now : Millis}
    {next : CacheData E → Phase E} (hs : Ordered s)
    (hexpected : ∀ version ∈ s.versions, version.counter.toNat ≤ expected.toNat)
    (hnext : ∀ data, s.Coherent (next data)) :
    Legitimate s i (reading s.device vaultKey uuid expected now next) := by
  rcases reading_cases s.device vaultKey uuid expected now next with ⟨-, hended⟩ | ⟨file, data, hfile, hread, heq⟩
  · rw [hended]
    exact legitimate_silent trivial
  · rw [heq]
    exact
      { counter := nofun
        written := nofun
        accepted := by
          rintro _ ⟨⟩
          exact ⟨hs.file file hfile, counter_of_readCacheFile hread, hexpected⟩
        coherent := (hnext data).congr rfl rfl }

theorem legitimate_writing {file : Option (File E)} (hsettled : s.Settled)
    (hfile : ∀ written, file = some written → written.counter = s.device.counter + 1) :
    Legitimate s i (writing s.device.blob file) := by
  cases file with
  | none => exact legitimate_silent trivial
  | some written =>
    exact
      { counter := nofun
        written := by
          rintro _ ⟨⟩
          exact ⟨hsettled, hfile written rfl⟩
        accepted := nofun
        coherent := ⟨rfl, hsettled.2⟩ }

theorem Ordered.legitimate (hs : Ordered s) (now : Millis) (hunderWay : (s.phase i).underWay = true) :
    Legitimate s i ((s.phase i).advance s.device now) := by
  have hcoherent := hs.coherent i
  cases hphase : s.phase i with
  | ready task | ended => rw [hphase] at hunderWay; cases hunderWay
  | syncWrite request issuedAt blob | appendWrite request blob data =>
    rw [hphase] at hcoherent
    obtain ⟨rfl, hsettled⟩ := hcoherent
    exact legitimate_writing hsettled fun _ ↦ counter_nextFile
  | appendRead request blob =>
    rw [hphase] at hcoherent
    obtain ⟨rfl, hsettled⟩ := hcoherent
    exact legitimate_reading hs hsettled.1 fun _ ↦ ⟨rfl, hsettled⟩
  | recoverRead vaultKey blob =>
    rw [hphase] at hcoherent
    obtain ⟨rfl, hnext⟩ := hcoherent
    refine legitimate_reading hs (fun version hversion ↦ ?_) fun _ ↦ ⟨rfl, hnext⟩
    exact toNat_next hnext ▸ hs.bounded version hversion
  | recoverForward observed =>
    rw [hphase] at hcoherent
    refine legitimate_silent ?_
    split_ifs
    · exact hcoherent
    · trivial
  | increment newCounter =>
    rw [hphase] at hcoherent
    exact
      { counter := by
          rintro _ ⟨⟩
          exact hcoherent
        written := nofun
        accepted := nofun
        coherent := trivial }

theorem legitimate_ready {task : Task E} (now : Millis) (hphase : s.phase i = .ready task)
    (h : Guarded s (.step i now)) : s.AloneAt i ∧ Legitimate s i ((s.phase i).advance s.device now) := by
  rw [Guarded, hphase] at h
  rw [hphase]
  cases task with
  | sync request | append request => exact ⟨h.1, legitimate_silent ⟨rfl, h.2⟩⟩
  | recover vaultKey =>
    refine ⟨h, legitimate_silent ?_⟩
    split_ifs with hnext
    · exact ⟨rfl, hnext⟩
    · trivial

theorem Ordered.ended (hs : Ordered s) : Ordered (s.apply i (.silent .ended)) where
  increasing := hs.increasing
  bounded := hs.bounded
  file := hs.file
  accepted := hs.accepted
  ordered := hs.ordered
  alone := State.alone_ended hs.alone
  coherent := State.forall_phase_ended (fun j ↦ (hs.coherent j).congr rfl rfl) trivial

theorem Ordered.next (hs : Ordered s) {action : Action ι} (hallowed : Guarded s action) : Ordered (s.next action) := by
  cases action with
  | crash i => exact hs.ended
  | replace version =>
    refine ⟨hs.increasing, hs.bounded, fun file hfile ↦ ?_, hs.accepted, hs.ordered, hs.alone, fun i ↦ ?_⟩
    · rcases Option.or_eq_some_iff.mp hfile with hversion | ⟨-, hold⟩
      · exact mem_of_getElem? hversion
      · exact hs.file file hold
    · exact (hs.coherent i).congr rfl rfl
  | step i now =>
    cases hphase : s.phase i with
    | ready task =>
      obtain ⟨halone, hlegitimate⟩ := legitimate_ready now hphase hallowed
      exact hs.apply halone hlegitimate
    | ended =>
      rw [State.next, hphase]
      exact hs.ended
    | _ =>
      have hunderWay : (s.phase i).underWay = true := by rw [hphase]; rfl
      exact hs.apply (hs.alone i hunderWay) (hs.legitimate now hunderWay)

omit [DecidableEq ι] in
theorem ordered_start (blob : Blob) (tasks : ι → Task E) : Ordered (State.start ⟨blob, none⟩ tasks) where
  increasing := .nil
  bounded _ h := absurd h not_mem_nil
  file _ h := nomatch h
  accepted _ h := absurd h not_mem_nil
  ordered := .nil
  alone _ h := nomatch h
  coherent _ := trivial

/-- For any number of host syncs, appends and recoveries on a device without a cache file, any interleaving of their
steps, crashes between them, and any earlier versions of the file put back at any time: as long as operations exclude
each other and syncs and appends begin in settled states, the cache is protected against rollback. -/
theorem guarded_cache_protected (blob : Blob) (tasks : ι → Task E) {s : State ι E}
    (hrun : Run Guarded (State.start ⟨blob, none⟩ tasks) s) : RollbackProtected s := by
  have hordered : Ordered s :=
    hrun.invariant Ordered (ordered_start blob tasks) fun s action hs hallowed ↦ hs.next hallowed
  exact hordered.rollbackProtected

end Steps

/-- A sync, an append, another sync, and two more appends. -/
def racingTasks : Fin 5 → Task Nat
  | 0 => .sync ⟨1, "u", [10], (0, 1)⟩
  | 1 => .append ⟨1, 11, (2, 3)⟩
  | 2 => .sync ⟨1, "u", [10, 12], (4, 5)⟩
  | 3 => .append ⟨1, 13, (6, 7)⟩
  | 4 => .append ⟨1, 14, (8, 9)⟩

def oneByOne : List (Action (Fin 5)) :=
  replicate 3 (.step 0 0) ++ replicate 4 (.step 1 0) ++ [.replace 1, .replace 0] ++
    replicate 3 (.step 2 0) ++ replicate 2 (.step 3 0)

/-- The second sync reads the counter before the append sets it, and writes after it. -/
def overlapping : List (Action (Fin 5)) :=
  replicate 3 (.step 0 0) ++ replicate 2 (.step 1 0) ++ [.step 2 0] ++ replicate 2 (.step 1 0) ++
    replicate 2 (.step 3 0) ++ replicate 2 (.step 2 0) ++ replicate 2 (.step 4 0)

instance {n : Nat} (s : State (Fin n) E) (i : Fin n) : Decidable (s.AloneAt i) :=
  inferInstanceAs (Decidable (∀ j, (s.phase j).underWay = true → j = i))

instance (s : State ι E) : Decidable s.Settled :=
  inferInstanceAs (Decidable ((∀ version ∈ s.versions, version.counter.toNat ≤ s.device.counter.toNat) ∧ _))

instance {n : Nat} (s : State (Fin n) E) (i : Fin n) (phase : Phase E) : Decidable (s.MayStep i phase) := by
  unfold State.MayStep
  split <;> infer_instance

instance {n : Nat} (s : State (Fin n) E) (action : Action (Fin n)) : Decidable (Guarded s action) := by
  cases action <;> dsimp only [Guarded] <;> infer_instance

/-- Operations that do not overlap: two reads are accepted, and an earlier version that is put back in between makes no
difference. -/
theorem guarded_cache_protected_twice :
    ∃ s, Run Guarded (State.start ⟨⟨5, 9⟩, none⟩ racingTasks) s ∧ s.accepted.map Prod.fst = [8, 6] ∧
      RollbackProtected s := by
  have hrun : Run Guarded (State.start ⟨⟨5, 9⟩, none⟩ racingTasks) _ := Run.refl.actions oneByOne (by decide +kernel)
  exact ⟨_, hrun, by decide +kernel, guarded_cache_protected ⟨5, 9⟩ racingTasks hrun⟩

/-- The append and the sync that overlaps it write two contents with the counter 7, and both are accepted. -/
theorem overlapping_cache_not_protected : ¬ ∀ (blob : Blob) (tasks : Fin 5 → Task Nat) (s : State (Fin 5) Nat),
      Run (fun _ _ ↦ True) (State.start ⟨blob, none⟩ tasks) s → RollbackProtected s := by
  intro h
  have hrun : Run (fun _ _ ↦ True) (State.start ⟨⟨5, 9⟩, none⟩ racingTasks) _ :=
    Run.refl.actions overlapping (by decide +kernel)
  have hunique := (h ⟨5, 9⟩ racingTasks _ hrun).unique
  revert hunique
  decide +kernel

end PasswdSso.IosCache
