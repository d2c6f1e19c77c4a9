import PasswdSso.AuditAnchor.Publisher

/-!
# The chain of published manifests

Every manifest names the one before it by its URI and its hash. While a publisher holds the advisory lock
nothing else is uploaded or published, so what it has uploaded is what it publishes. The chain is
unbroken in every run in which uploads take effect before their transaction expires, and nothing is uploaded
for a boundary, or over the object of a manifest, that was published already (`manifests_chained`). The
publisher itself does not see to that: the name of the object is made of the day and the key alone, and nothing
tells it that the boundary is done (`manifest_replaced`).
-/

namespace PasswdSso.AuditAnchor

open ReadCommitted List

section Contract

variable (env : Env)

def NewBoundary (w : World Store Event) (boundary : Millis) : Prop :=
  ∀ publication ∈ published w, publication.boundary ≠ boundary

instance (w : World Store Event) (boundary : Millis) : Decidable (NewBoundary w boundary) :=
  inferInstanceAs (Decidable (∀ publication ∈ published w, publication.boundary ≠ boundary))

/-- Uploads take effect while their transaction is open, are for new boundaries and replace no manifest that was
published. -/
def NewUploads (label : Event) (w : World Store Event) : Prop :=
  match label with
  | .uploaded inTx boundary uri =>
    inTx = true ∧ NewBoundary w boundary ∧ ∀ publication ∈ published w, publication.uri ≠ uri
  | _ => True

instance (label : Event) (w : World Store Event) : Decidable (NewUploads label w) := by
  cases label <;> dsimp only [NewUploads] <;> infer_instance

def Stored (db : Store) (publication : Publication) : Prop :=
  ∃ jws, db.artifactAt publication.uri = some jws ∧ hex (env.rt.sha256 jws.payload) = publication.sha256

def Effect (held : List (Lock × Mode)) (w : World Store Event) (label : Event) (db : Store) : Prop :=
  match label with
  | .other => db.artifacts = w.db.artifacts ∧ db.previousManifest = w.db.previousManifest
  | .uploaded inTx boundary uri => (.publish, .exclusive) ∈ held ∧ NewUploads (.uploaded inTx boundary uri) w ∧
      ∃ jws, db = w.db.upload uri jws
  | .published publication => (.publish, .exclusive) ∈ held ∧ NewBoundary w publication.boundary ∧
      Stored env w.db publication ∧ publication.manifest.previousManifest = w.db.previousManifest ∧
      db.artifacts = w.db.artifacts ∧
      db.previousManifest = some ⟨publication.uri, publication.sha256⟩

def contract : Contract Store Lock Event where
  allowed label _ w := NewUploads label w
  guarantee := Effect env

variable {env}

structure SameManifests (w w' : World Store Event) : Prop where
  artifacts : w'.db.artifacts = w.db.artifacts
  previousManifest : w'.db.previousManifest = w.db.previousManifest
  published : published w' = published w

variable {w w' : World Store Event}

theorem SameManifests.trans {w'' : World Store Event} (h : SameManifests w w') (h' : SameManifests w' w'') :
    SameManifests w w'' :=
  ⟨h'.artifacts.trans h.artifacts, h'.previousManifest.trans h.previousManifest, h'.published.trans h.published⟩

theorem SameManifests.artifactAt (h : SameManifests w w') (uri : String) :
    w'.db.artifactAt uri = w.db.artifactAt uri := by
  rw [Store.artifactAt, Store.artifactAt, h.artifacts]

theorem SameManifests.newBoundary (h : SameManifests w w') {boundary : Millis} (hnew : NewBoundary w boundary) :
    NewBoundary w' boundary := by
  rw [NewBoundary, h.published]
  exact hnew

theorem sameManifests_of_later {held : List (Lock × Mode)} (hlock : (.publish, .exclusive) ∈ held)
    (h : (contract env).Later held w w') : SameManifests w w' := by
  have hstable : (contract env).Stable held (SameManifests w) := by
    intro v label db theirs hcompatible hguarantee hsame
    cases label with
    | other => exact hsame.trans ⟨hguarantee.1, hguarantee.2, rfl⟩
    | uploaded inTx boundary uri | published publication => exact absurd hguarantee.1 (hcompatible.not_mem hlock)
  exact hstable.later ⟨rfl, rfl, rfl⟩ h

end Contract

section Outline

variable {env : Env} {x : Execution} {jws : Jws} {fail : String → Failure} {stand : Stand Store Lock Event}

structure Uploaded (x : Execution) (env : Env) (jws : Jws) (destinations : List String)
    (stand next : Stand Store Lock Event) : Prop where
  held : next.held = stand.held
  pending : next.pending = stand.pending
  previousManifest : next.seen.db.previousManifest = stand.seen.db.previousManifest
  newBoundary : destinations ≠ [] ∨ NewBoundary stand.seen x.boundary → NewBoundary next.seen x.boundary
  artifactAt : ∀ uri, uri ∈ destinations.map (x.uri env) ∨ stand.seen.db.artifactAt uri = some jws →
    next.seen.db.artifactAt uri = some jws

theorem uploaded_one {w : World Store Event} {destination : String}
    (hlock : (.publish, .exclusive) ∈ stand.held) (hw : (contract env).Later stand.held stand.seen w)
    (hnew : NewUploads (.uploaded true x.boundary (x.uri env destination)) w) :
    Uploaded x env jws [destination] stand (stand.afterEffect w
      (.uploaded true x.boundary (x.uri env destination)) (Store.upload (x.uri env destination) jws)) where
  held := rfl
  pending := rfl
  previousManifest := (sameManifests_of_later hlock hw).previousManifest
  newBoundary _ := hnew.2.1
  artifactAt uri h := by
    rw [Stand.afterEffect, World.commit_db, Store.artifactAt_upload]
    split_ifs with huri
    · rfl
    · rw [(sameManifests_of_later hlock hw).artifactAt]
      refine h.resolve_left fun hmem ↦ huri ?_
      simpa using hmem

theorem Uploaded.trans {first rest : List String} {between next : Stand Store Lock Event}
    (h : Uploaded x env jws first stand between) (h' : Uploaded x env jws rest between next) :
    Uploaded x env jws (first ++ rest) stand next where
  held := h'.held.trans h.held
  pending := h'.pending.trans h.pending
  previousManifest := h'.previousManifest.trans h.previousManifest
  newBoundary hnew := by
    refine h'.newBoundary ?_
    by_cases hrest : rest = []
    · subst hrest
      exact .inr (h.newBoundary (by simpa using hnew))
    · exact .inl hrest
  artifactAt uri huri := by
    refine h'.artifactAt uri ?_
    rw [map_append, mem_append] at huri
    rcases huri with (hfirst | hrest) | hold
    · exact .inr (h.artifactAt uri (.inl hfirst))
    · exact .inl hrest
    · exact .inr (h.artifactAt uri (.inr hold))

theorem returns_uploadAll (n : Nat) (destinations : List String) (hlock : (.publish, .exclusive) ∈ stand.held) :
    Returns (contract env) (x.uploadAll env true jws fail n destinations) stand
      fun _ next ↦ Uploaded x env jws destinations stand next := by
  induction destinations generalizing n stand with
  | nil => exact .ok ⟨rfl, rfl, rfl, fun h ↦ h.resolve_left (by simp), fun _ h ↦ by simpa using h⟩
  | cons destination rest ih =>
    unfold Execution.uploadAll
    cases x.upload n with
    | stored =>
      intro w hw hallowed
      refine ⟨⟨hlock, hallowed, jws, rfl⟩, Returns.mono (ih (n + 1) hlock) ?_⟩
      exact fun _ next hnext ↦ (uploaded_one hlock hw hallowed).trans hnext
    | failed error => exact .error
    | storedAndFailed error =>
      exact fun w hw hallowed ↦ ⟨⟨hlock, hallowed, jws, rfl⟩, Outline.error⟩

/-- The uploads of an expired transaction are the ones that the condition excludes. -/
theorem settles_uploadLate (n : Nat) (destinations : List String) :
    Settles (contract env) (fun _ ↦ True) (x.uploadAll env false jws fail n destinations) := by
  cases destinations with
  | nil => exact .pure _
  | cons destination rest =>
    unfold Execution.uploadAll
    cases x.upload n with
    | failed error => exact .pure _
    | stored | storedAndFailed error => exact fun w _ _ _ hallowed ↦ absurd hallowed.1 Bool.false_ne_true

theorem commits_other (hpending : ∀ db, (stand.pending db).artifacts = db.artifacts ∧
    (stand.pending db).previousManifest = db.previousManifest) : (contract env).Commits stand .other :=
  fun w _ _ ↦ hpending w.db

/-- What an execution knows when it commits: what it has uploaded is its manifest, and the manifest refers
to the previous one. -/
theorem commits_published {publication : Publication} (hlock : (.publish, .exclusive) ∈ stand.held)
    (hnew : NewBoundary stand.seen publication.boundary) (hstored : Stored env stand.seen.db publication)
    (hprevious : publication.manifest.previousManifest = stand.seen.db.previousManifest)
    (hpending : ∀ db, (stand.pending db).artifacts = db.artifacts ∧
      (stand.pending db).previousManifest = some ⟨publication.uri, publication.sha256⟩) :
    (contract env).Commits stand (.published publication) := by
  intro w hw _
  have hsame := sameManifests_of_later hlock hw
  obtain ⟨jws, hjws, hsha⟩ := hstored
  exact ⟨hlock, hsame.newBoundary hnew, ⟨jws, (hsame.artifactAt _).trans hjws, hsha⟩,
    hprevious.trans hsame.previousManifest.symm, hpending w.db⟩

theorem returns_publishInTx (hdestinations : x.config.destinations ≠ []) (w : World Store Event) :
    Earns (contract env) (x.publishInTx env) (.idle w) publishEvent := by
  unfold Execution.publishInTx
  split_ifs with hacquired
  · exact .ok (commits_other fun _ ↦ ⟨rfl, rfl⟩)
  refine .lockingRead fun locked hlocked ↦ .read fun s1 h1 ↦ ?_
  have hlock : (.publish, .exclusive) ∈ locked.held := hlocked.locked
  have hpending1 := h1.pending.trans hlocked.pending
  split_ifs with hempty
  · exact .ok (commits_other fun _ ↦ by rw [hpending1]; exact ⟨rfl, rfl⟩)
  refine .read fun s2 h2 ↦ ?_
  have hpending2 := h2.pending.trans hpending1
  dsimp only
  split_ifs with hpaused
  · exact .ok (commits_other fun _ ↦ by rw [hpending2]; exact ⟨rfl, rfl⟩)
  refine .read fun s3 h3 ↦ ?_
  have hpending3 := h3.pending.trans hpending2
  have hlock3 : (.publish, .exclusive) ∈ s3.held :=
    ((h1.reaches.trans h2.reaches).trans h3.reaches).held hlock
  rw [hpending2]
  split
  · exact .error
  next signed hsigned =>
  obtain ⟨hprevious, hpayload⟩ := x.signed_spec env hsigned
  refine (returns_uploadAll 0 _ hlock3).andThen fun _ uploaded huploaded ↦ ?_
  split
  · exact .error
  next hexpires =>
  have hinTime : x.inTime = x.config.destinations := by
    unfold Execution.inTime
    split
    · rfl
    next hexpired => exact (hexpires _ _ hexpired).elim
  rw [hinTime] at huploaded
  refine .updateMany fun _ next _ _ hnext ↦ ?_
  refine .write fun last hlast ↦ ?_
  dsimp only
  split
  · exact .error
  refine .ok ?_
  -- From the uploads on, the lock keeps the manifests as they are.
  have hreaches : uploaded.Reaches (contract env) last := hnext.reaches.trans hlast.reaches
  have hlockUploaded : (.publish, .exclusive) ∈ uploaded.held := huploaded.held ▸ hlock3
  have hsame := sameManifests_of_later hlockUploaded hreaches.later
  have hstored : last.seen.db.artifactAt (x.primaryUri env) = some signed.jws := by
    rw [hsame.artifactAt]
    refine huploaded.artifactAt _ (.inl ?_)
    unfold Execution.primaryUri
    cases hlist : x.config.destinations with
    | nil => exact absurd hlist hdestinations
    | cons first rest => exact mem_map.mpr ⟨first, mem_cons_self, rfl⟩
  refine commits_published (hreaches.held hlockUploaded)
    (hsame.newBoundary (huploaded.newBoundary (.inl hdestinations))) ⟨signed.jws, hstored, ?_⟩ ?_ ?_
  · rw [hpayload]
    rfl
  · exact hprevious.trans (hsame.previousManifest.trans huploaded.previousManifest).symm
  · intro db
    rw [hlast.pending, hnext.pending, huploaded.pending, hpending3]
    exact ⟨rfl, rfl⟩

theorem settles_fail (failure : Failure) : Settles (contract env) (fun _ ↦ True) (x.fail failure) := by
  unfold Execution.fail
  split
  · split_ifs
    · exact .pure _
    refine .bind (.transaction (contract env).preserves_true fun w _ ↦ ?_) fun _ ↦ .pure _
    refine .updateMany fun _ next _ _ hnext ↦ ?_
    split
    · exact .error
    · refine .ok (commits_other fun db ↦ ?_)
      rw [hnext.pending]
      exact ⟨rfl, rfl⟩
  · exact .pure _

theorem runCadence_outline (hdestinations : x.config.destinations ≠ []) (w : World Store Event) :
    Respects (contract env) (runCadence env x) w := by
  have hknown := (contract env).preserves_true
  refine Settles.outline (.bind (.transaction hknown fun w _ ↦ returns_publishInTx hdestinations w) ?_) w
  rintro (failure | ⟨outcome, publication⟩)
  · dsimp only
    split
    · exact settles_fail failure
    refine .bind (settles_uploadLate _ _) ?_
    rintro (failed | _)
    · exact settles_fail failed
    · exact .pure _
  · exact .pure _

/-- A task whose executions have a destination. -/
def Task.HasDestination : Task → Prop
  | .cadence x => x.config.destinations ≠ []
  | .chains _ _ => True

theorem perform_outline {task : Task} (h : task.HasDestination) (w : World Store Event) :
    Respects (contract env) (task.perform env) w := by
  cases task with
  | cadence x => exact (runCadence_outline h w).respond fun _ _ ↦ trivial
  | chains chainEnabled anchors =>
    exact fun _ _ _ _ _ ↦ ⟨⟨rfl, rfl⟩, trivial⟩

end Outline

section Runs

variable {env : Env}

/-- The published manifests are where the settings and the next manifests say, each for a boundary of its
own. -/
structure Chained (env : Env) (w : World Store Event) : Prop where
  stored : ∀ publication ∈ published w, Stored env w.db publication
  previous : ∀ ref, w.db.previousManifest = some ref →
    ∃ publication ∈ published w, ref = ⟨publication.uri, publication.sha256⟩
  linked : ∀ publication ∈ published w, ∀ ref, publication.manifest.previousManifest = some ref →
    ∃ before ∈ published w, ref = ⟨before.uri, before.sha256⟩
  boundaries : ((published w).map Publication.boundary).Nodup

theorem Chained.step {held : List (Lock × Mode)} {w : World Store Event} {label : Event} {db : Store}
    (h : Chained env w) (heffect : Effect env held w label db) : Chained env (w.commit label db) := by
  cases label with
  | other =>
    obtain ⟨hartifacts, hprevious⟩ := heffect
    refine ⟨fun publication hpublication ↦ ?_, fun ref href ↦ h.previous ref (hprevious ▸ href), h.linked,
      h.boundaries⟩
    obtain ⟨jws, hjws, hsha⟩ := h.stored publication hpublication
    exact ⟨jws, by rw [Store.artifactAt, World.commit_db, hartifacts]; exact hjws, hsha⟩
  | uploaded inTx boundary uri =>
    obtain ⟨-, ⟨-, -, hnew⟩, jws, rfl⟩ := heffect
    refine ⟨fun publication hpublication ↦ ?_, h.previous, h.linked, h.boundaries⟩
    obtain ⟨old, hold, hsha⟩ := h.stored publication hpublication
    refine ⟨old, ?_, hsha⟩
    rw [World.commit_db, Store.artifactAt_upload, if_neg (hnew publication hpublication)]
    exact hold
  | published publication =>
    obtain ⟨-, hnew, hstored, hlink, hartifacts, hprevious⟩ := heffect
    have hstays (other : Publication) (hother : Stored env w.db other) : Stored env db other := by
      obtain ⟨jws, hjws, hsha⟩ := hother
      exact ⟨jws, by rw [Store.artifactAt, hartifacts]; exact hjws, hsha⟩
    refine ⟨?_, fun ref href ↦ ⟨publication, mem_cons_self, ?_⟩, ?_, ?_⟩
    · exact forall_mem_cons.mpr ⟨hstays _ hstored, fun other hother ↦ hstays _ (h.stored other hother)⟩
    · exact (Option.mem_unique hprevious href).symm
    · refine forall_mem_cons.mpr ⟨fun ref href ↦ ?_, fun other hother ref href ↦ ?_⟩
      · obtain ⟨before, hbefore, heq⟩ := h.previous ref (hlink.symm.trans href)
        exact ⟨before, mem_cons_of_mem _ hbefore, heq⟩
      · obtain ⟨before, hbefore, heq⟩ := h.linked other hother ref href
        exact ⟨before, mem_cons_of_mem _ hbefore, heq⟩
    · refine nodup_cons.mpr ⟨fun hmem ↦ ?_, h.boundaries⟩
      obtain ⟨other, hother, hboundary⟩ := mem_map.mp hmem
      exact hnew other hother hboundary

/-- A run of publishers and others. -/
def PublisherRun {ι : Type} [DecidableEq ι] (env : Env) (cond : Event → World Store Event → Prop)
    (tasks : ι → Task) (start : Store) (s : State ι Store Lock Event Unit) : Prop :=
  Run (fun label _ w ↦ cond label w) (State.start ⟨start, []⟩ fun i ↦ (tasks i).perform env) s

/-- In every run whose executions have a destination and whose uploads are all new, no boundary is published
twice, and every manifest names the place and the hash of a manifest that is still there. -/
theorem manifests_chained {ι : Type} [DecidableEq ι] (env : Env) (tasks : ι → Task) (start : Store)
    (hstart : start.previousManifest = none) (hdestinations : ∀ i, (tasks i).HasDestination)
    {s : State ι Store Lock Event Unit} (hrun : PublisherRun env NewUploads tasks start s) :
    ((published s.world).map Publication.boundary).Nodup ∧
      ∀ publication ∈ published s.world, ∀ ref, publication.manifest.previousManifest = some ref →
        ∃ jws, s.world.db.artifactAt ref.uri = some jws ∧ hex (env.rt.sha256 jws.payload) = ref.sha256 := by
  have hchained : Chained env s.world := by
    refine Run.invariant (c := contract env) (Chained env) hrun (fun i ↦ perform_outline (hdestinations i) _) ?_
      fun held w label db h heffect ↦ h.step heffect
    refine ⟨List.forall_mem_nil _, fun ref href ↦ ?_, List.forall_mem_nil _, List.nodup_nil⟩
    exact nomatch hstart.symm.trans href
  refine ⟨hchained.boundaries, fun publication hpublication ref href ↦ ?_⟩
  obtain ⟨before, hbefore, rfl⟩ := hchained.linked publication hpublication ref href
  exact hchained.stored before hbefore

end Runs

/-- An environment in which texts of different lengths have different hashes. -/
def exampleEnv : Env where
  rt := { Audit.plainRuntime fun message ↦ replicate 30 0 ++
      [UInt8.ofNat (message.length / 256), UInt8.ofNat message.length] with
    toISOString := fun time ↦
      if time < 24 * 60 * 60 * 1000 then "2026-01-01T00:00:00.000Z" else "2026-01-02T00:00:00.000Z"
    uuidText := fun _ ↦ "00000000-0000-4000-8000-000000000009" }
  hmacSha256 := fun _ _ ↦ replicate 32 0
  ed25519 := fun _ _ ↦ []
  isUrl := fun _ ↦ true
  schemaError := "invalid"

def exampleStore : Store where
  chainEnabled := [9]
  anchors := [⟨9, 0, [0], some 1, none, none, 0⟩]
  previousManifest := none
  artifacts := []

def execution (now : Millis) : Task := .cadence {
  config := ⟨"deployment", [], "audit-anchor-2026abcd", replicate 32 0, ["filesystem"], 60 * 60 * 1000, 0, 3⟩
  now := now
  acquired := true
  upload := fun _ ↦ .stored
  expires := none
  commitFails := none
  pauseFails := none
  writtenAt := now }

theorem execution_hasDestination (now : Millis) : (execution now).HasDestination :=
  cons_ne_nil _ _

/-- Two manifests of one day have the same name: the second one replaces the one that it refers to. -/
theorem manifest_replaced :
    ¬ ∀ (env : Env) (tasks : Nat → Task) (start : Store) (s : State Nat Store Lock Event Unit),
      start.previousManifest = none → (∀ i, (tasks i).HasDestination) →
      PublisherRun env (fun _ _ ↦ True) tasks start s →
      ((published s.world).map Publication.boundary).Nodup ∧
        ∀ publication ∈ published s.world, ∀ ref, publication.manifest.previousManifest = some ref →
          ∃ jws, s.world.db.artifactAt ref.uri = some jws ∧ hex (env.rt.sha256 jws.payload) = ref.sha256 := by
  intro h
  obtain ⟨s, hrun, publication, hpublication, ref, href, hreplaced⟩ := Run.exists_of_schedule
    (State.start ⟨exampleStore, []⟩ fun i : Nat ↦ (execution (i * (60 * 60 * 1000))).perform exampleEnv)
    (fun w ↦ ∃ publication ∈ published w, ∃ ref ∈ publication.manifest.previousManifest,
      (w.db.artifactAt ref.uri).all fun jws ↦ hex (exampleEnv.rt.sha256 jws.payload) ≠ ref.sha256)
    [(9, 0), (9, 1)]
  obtain ⟨jws, hjws, hsha⟩ := (h exampleEnv _ exampleStore s rfl (fun _ ↦ execution_hasDestination _) hrun).2 publication
    hpublication ref href
  rw [hjws] at hreplaced
  exact of_decide_eq_true hreplaced hsha

/-- The conditions can be met: one manifest a day. -/
theorem manifests_chained_daily : ∃ s : State Nat Store Lock Event Unit,
    (published s.world).length = 2 ∧ ∀ publication ∈ published s.world,
      ∀ ref, publication.manifest.previousManifest = some ref → ∃ jws, s.world.db.artifactAt ref.uri = some jws ∧
          hex (exampleEnv.rt.sha256 jws.payload) = ref.sha256 := by
  obtain ⟨s, hrun, hpublished⟩ := Run.exists_of_schedule
    (State.start ⟨exampleStore, []⟩ fun i : Nat ↦
      (execution (i * (24 * 60 * 60 * 1000))).perform exampleEnv)
    (fun w ↦ (published w).length = 2) [(9, 0), (9, 1)] (fun label _ w ↦ NewUploads label w)
  exact ⟨s, hpublished, (manifests_chained exampleEnv _ exampleStore rfl (fun _ ↦ execution_hasDestination _) hrun).2⟩

end PasswdSso.AuditAnchor
