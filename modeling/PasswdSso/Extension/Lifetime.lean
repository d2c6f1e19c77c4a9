import PasswdSso.Extension.SingleUse

/-!
# Kind and lifetime of token families

Three kinds of tokens share one table. A refresh should keep the kind of the token it was presented
with, and a row should not outlive the bound of its family: five minutes for an AutoFill family, the
absolute timeout and one idle timeout for a family of the iOS app. `POST /api/extension/token/refresh`
accepts every kind and leaves the kind of the new row to the column default, so a refreshed AutoFill
token turns into a browser-extension token with the tenant's idle timeout
(`rotation_not_kindPreserving`). And the pair that `refreshIosToken` issues takes its expiry from a
later clock reading than the one its family age was checked with.

The property holds in every run in which only browser-extension tokens are refreshed there and no pair
is issued past the absolute timeout of its family (`rotation_kindPreserving`). Family ids are drawn at
random: a new family has an id that no row has.
-/

namespace PasswdSso.Extension

open ReadCommitted List

/-- The token that was presented to the refresh of this commit. -/
def Event.presented : Event → Option ExtensionToken
  | .issuedPair source _ _ _ => source
  | .refreshedExtension presented _ => some presented
  | _ => none

def Event.newFamily : Event → Option Uuid
  | .issuedExtension row => some row.familyId
  | .issuedAutofill row => some row.familyId
  | .issuedPair none _ access _ => some access.familyId
  | _ => none

def ExtensionToken.WithinLifetime (row : ExtensionToken) : ClientKind → Prop
  | .browserExtension => True
  | .iosAutofill => row.expiresAt ≤ row.familyCreatedAt + iosAutofillTokenTtlMs
  | .iosApp => row.expiresAt ≤ row.familyCreatedAt + iosTokenAbsoluteTimeoutMs + iosTokenIdleTimeoutMs

instance (row : ExtensionToken) (kind : ClientKind) : Decidable (row.WithinLifetime kind) := by
  unfold ExtensionToken.WithinLifetime
  split <;> infer_instance

def Store.FamiliesWithinLifetime (db : Store) : Prop :=
  ∀ row ∈ db.tokens, ∀ other ∈ db.tokens, other.familyId = row.familyId → row.WithinLifetime other.clientKind

/-- Every refresh has minted tokens of the kind it was presented with, and every row is within the
lifetime of its family. -/
structure KindPreserving (w : World Store Event) : Prop where
  sameKind : ∀ event ∈ w.log, ∀ presented, event.presented = some presented →
    ∀ row ∈ event.minted, row.clientKind = presented.clientKind
  withinLifetime : w.db.FamiliesWithinLifetime

/-- Rows of one family agree on kind and creation time, and every row is within its lifetime. -/
structure Store.FamiliesCoherent (db : Store) : Prop where
  agree : ∀ row ∈ db.tokens, ∀ other ∈ db.tokens, row.familyId = other.familyId →
    row.clientKind = other.clientKind ∧ row.familyCreatedAt = other.familyCreatedAt
  withinLifetime : ∀ row ∈ db.tokens, row.WithinLifetime row.clientKind

/-- A store whose families are coherent, such as the empty one. -/
structure CoherentStore where
  store : Store
  coherent : store.FamiliesCoherent

/-- A commit starts a family only under an id that no row has. -/
def NewFamilies (event : Event) (_ : List Event) (w : World Store Event) : Prop :=
  ∀ row ∈ w.db.tokens, event.newFamily ≠ some row.familyId

instance (event : Event) (overlap : List Event) (w : World Store Event) : Decidable (NewFamilies event overlap w) :=
  inferInstanceAs (Decidable (∀ row ∈ w.db.tokens, event.newFamily ≠ some row.familyId))

/-- The condition on a commit: only browser-extension tokens are refreshed as such, and a pair is not
issued past the absolute timeout of its family. -/
def RefreshedInKind (event : Event) (overlap : List Event) (w : World Store Event) : Prop :=
  NewFamilies event overlap w ∧ match event with
    | .refreshedExtension presented _ => presented.clientKind = .browserExtension
    | .issuedPair (some presented) issuedAt _ _ =>
      issuedAt ≤ presented.familyCreatedAt + iosTokenAbsoluteTimeoutMs
    | _ => True

instance (event : Event) (overlap : List Event) (w : World Store Event) :
    Decidable (RefreshedInKind event overlap w) := by
  unfold RefreshedInKind
  split <;> infer_instance

section Steps

variable {hashToken : String → String} {held : Locks} {overlap : List Event}
  {w : World Store Event} {event : Event} {db : Store}

theorem Store.FamiliesCoherent.families (h : db.FamiliesCoherent) : db.FamiliesWithinLifetime := by
  intro row hrow other hother hfamily
  rw [(h.agree other hother row hrow hfamily).1]
  exact h.withinLifetime row hrow

theorem ExtensionToken.Becomes.withinLifetime {old new : ExtensionToken} (h : old.Becomes new)
    (kind : ClientKind) : new.WithinLifetime kind ↔ old.WithinLifetime kind := by
  cases kind <;>
    simp only [ExtensionToken.WithinLifetime, h.expiresAt_eq, h.familyCreatedAt_eq]

/-- A minted row fits in: it is within its lifetime and agrees with the rows of its family. -/
def ExtensionToken.FitsIn (tokens : List ExtensionToken) (row : ExtensionToken) : Prop :=
  row.WithinLifetime row.clientKind ∧ ∀ other ∈ tokens, row.familyId = other.familyId →
    row.clientKind = other.clientKind ∧ row.familyCreatedAt = other.familyCreatedAt

theorem Effect.coherent (h : Effect hashToken held overlap w event db) (hw : w.db.FamiliesCoherent)
    (hminted : ∀ row ∈ event.minted, row.FitsIn (w.db.tokens ++ event.minted)) :
    db.FamiliesCoherent := by
  -- every row has the columns of a row before or of a minted one
  have hsource (row : ExtensionToken) (hrow : row ∈ db.tokens) :
      ∃ source ∈ w.db.tokens ++ event.minted, source.Becomes row := by
    rcases h.advances.back row hrow with ⟨old, hold, hbecomes⟩ | hnew
    · exact ⟨old, mem_append_left _ hold, hbecomes⟩
    · exact ⟨row, mem_append_right _ hnew, .refl row⟩
  have hagree (a : ExtensionToken) (ha : a ∈ w.db.tokens ++ event.minted) (b : ExtensionToken)
      (hb : b ∈ w.db.tokens ++ event.minted) (hfamily : a.familyId = b.familyId) :
      a.clientKind = b.clientKind ∧ a.familyCreatedAt = b.familyCreatedAt := by
    rcases mem_append.mp ha with hold | hnew
    · rcases mem_append.mp hb with hold' | hnew'
      · exact hw.agree a hold b hold' hfamily
      · obtain ⟨hkind, hcreated⟩ := (hminted b hnew').2 a ha hfamily.symm
        exact ⟨hkind.symm, hcreated.symm⟩
    · exact (hminted a hnew).2 b hb hfamily
  constructor
  · intro row hrow other hother hfamily
    obtain ⟨a, ha, hrowBecomes⟩ := hsource row hrow
    obtain ⟨b, hb, hotherBecomes⟩ := hsource other hother
    rw [hrowBecomes.familyId_eq, hotherBecomes.familyId_eq] at hfamily
    rw [hrowBecomes.clientKind_eq, hotherBecomes.clientKind_eq, hrowBecomes.familyCreatedAt_eq,
      hotherBecomes.familyCreatedAt_eq]
    exact hagree a ha b hb hfamily
  · intro row hrow
    obtain ⟨a, ha, hbecomes⟩ := hsource row hrow
    rw [hbecomes.withinLifetime, hbecomes.clientKind_eq]
    rcases mem_append.mp ha with hold | hnew
    · exact hw.withinLifetime a hold
    · exact (hminted a hnew).1

theorem fitsIn_newFamily {tokens rows : List ExtensionToken} {familyId : Uuid} (kind : ClientKind)
    (createdAt : Millis) (hnew : ∀ row ∈ tokens, some familyId ≠ some row.familyId)
    (hrows : ∀ row ∈ rows, row.familyId = familyId ∧ row.clientKind = kind ∧
      row.familyCreatedAt = createdAt ∧ row.WithinLifetime kind) :
    ∀ row ∈ rows, row.FitsIn (tokens ++ rows) := by
  intro row hrow
  obtain ⟨hfamily, hkind, hcreated, hwithin⟩ := hrows row hrow
  refine ⟨hkind ▸ hwithin, fun other hother hsame ↦ ?_⟩
  rcases mem_append.mp hother with hold | hother
  · exact absurd (congrArg some (hfamily.symm.trans hsame)) (hnew other hold)
  · obtain ⟨-, hkind', hcreated', -⟩ := hrows other hother
    exact ⟨hkind.trans hkind'.symm, hcreated.trans hcreated'.symm⟩

theorem fitsIn_family {rows : List ExtensionToken} {presented : ExtensionToken}
    (hw : w.db.FamiliesCoherent) (hpresented : ∃ row ∈ w.db.tokens, presented.Becomes row)
    (hrows : ∀ row ∈ rows, row.familyId = presented.familyId ∧ row.clientKind = presented.clientKind ∧
      row.familyCreatedAt = presented.familyCreatedAt ∧ row.WithinLifetime presented.clientKind) :
    ∀ row ∈ rows, row.FitsIn (w.db.tokens ++ rows) := by
  intro row hrow
  obtain ⟨hfamily, hkind, hcreated, hwithin⟩ := hrows row hrow
  obtain ⟨source, hsource, hbecomes⟩ := hpresented
  refine ⟨hkind ▸ hwithin, fun other hother hsame ↦ ?_⟩
  rcases mem_append.mp hother with hold | hother
  · obtain ⟨hkind', hcreated'⟩ := hw.agree source hsource other hold
      (hbecomes.familyId_eq.trans (hfamily.symm.trans hsame))
    exact ⟨hkind.trans (hbecomes.clientKind_eq.symm.trans hkind'),
      hcreated.trans (hbecomes.familyCreatedAt_eq.symm.trans hcreated')⟩
  · obtain ⟨-, hkind', hcreated', -⟩ := hrows other hother
    exact ⟨hkind.trans hkind'.symm, hcreated.trans hcreated'.symm⟩

theorem iosRows_withinLifetime {p : IssueIosParams} (hnow : p.now ≤ p.familyCreatedAt + iosTokenAbsoluteTimeoutMs) :
    ∀ row ∈ [iosAccessRow hashToken p, iosRefreshRow hashToken p],
      row.familyId = p.familyId ∧ row.clientKind = .iosApp ∧
        row.familyCreatedAt = p.familyCreatedAt ∧ row.WithinLifetime .iosApp := by
  simp only [mem_cons, not_mem_nil, or_false, forall_eq_or_imp, forall_eq]
  have haccess : (iosAccessRow hashToken p).WithinLifetime .iosApp :=
    Int.add_le_add_right hnow iosTokenIdleTimeoutMs
  have hrefresh : (iosRefreshRow hashToken p).WithinLifetime .iosApp :=
    Int.le_add_of_nonneg_right (show 0 ≤ iosTokenIdleTimeoutMs by decide)
  exact ⟨⟨rfl, rfl, rfl, haccess⟩, rfl, rfl, rfl, hrefresh⟩

theorem Effect.fitsIn (h : Effect hashToken held overlap w event db) (hw : w.db.FamiliesCoherent)
    (hallowed : RefreshedInKind event overlap w) :
    ∀ row ∈ event.minted, row.FitsIn (w.db.tokens ++ event.minted) := by
  obtain ⟨hnew, hchecked⟩ := hallowed
  cases event with
  | issuedExtension row =>
    obtain ⟨p, idleMinutes, rfl⟩ := h.describes
    refine fitsIn_newFamily .browserExtension p.now hnew fun row hrow ↦ ?_
    obtain rfl := mem_singleton.mp hrow
    exact ⟨rfl, rfl, rfl, trivial⟩
  | issuedAutofill row =>
    obtain ⟨p, rfl⟩ := h.describes
    refine fitsIn_newFamily .iosAutofill p.now hnew fun row hrow ↦ ?_
    obtain rfl := mem_singleton.mp hrow
    exact ⟨rfl, rfl, rfl, Int.le_refl _⟩
  | issuedPair source issuedAt access refresh =>
    obtain ⟨p, rfl, rfl, rfl, rfl, hsource⟩ := h.describes
    cases hp : p.source with
    | none =>
      have hcreated : p.familyCreatedAt = p.now := by rw [IssueIosParams.familyCreatedAt, hp]
      rw [hp] at hnew
      refine fitsIn_newFamily .iosApp p.familyCreatedAt hnew (iosRows_withinLifetime ?_)
      rw [hcreated]
      exact Int.le_add_of_nonneg_right (show 0 ≤ iosTokenAbsoluteTimeoutMs by decide)
    | some presented =>
      have hcreated : p.familyCreatedAt = presented.familyCreatedAt := by
        rw [IssueIosParams.familyCreatedAt, hp]
      have hfamily : p.familyId = presented.familyId := by rw [IssueIosParams.familyId, hp]
      obtain ⟨hkind, -, -, hstored, -⟩ := hsource presented hp
      rw [hp] at hchecked
      refine fitsIn_family hw hstored ?_
      rw [← hcreated, ← hfamily, hkind]
      exact iosRows_withinLifetime (hcreated ▸ hchecked)
  | refreshedExtension presented row =>
    obtain ⟨hstored, req, cnfJkt, tenantId, idleMinutes, rfl⟩ := h.describes
    refine fitsIn_family hw hstored fun row hrow ↦ ?_
    obtain rfl := mem_singleton.mp hrow
    rw [show presented.clientKind = .browserExtension from hchecked]
    exact ⟨rfl, rfl, rfl, trivial⟩
  | _ => exact fun row hrow ↦ absurd hrow not_mem_nil

theorem Effect.sameKind (h : Effect hashToken held overlap w event db) (hallowed : RefreshedInKind event overlap w)
    {presented : ExtensionToken} (hpresented : event.presented = some presented) :
    ∀ row ∈ event.minted, row.clientKind = presented.clientKind := by
  cases event with
  | issuedPair source issuedAt access refresh =>
    obtain ⟨p, -, -, rfl, rfl, hsource⟩ := h.describes
    rw [(hsource presented hpresented).1]
    simp [Event.minted, iosAccessRow, iosRefreshRow, iosRow]
  | refreshedExtension token row =>
    obtain ⟨-, req, cnfJkt, tenantId, idleMinutes, rfl⟩ := h.describes
    obtain rfl : token = presented := Option.some.inj hpresented
    rw [show token.clientKind = .browserExtension from hallowed.2]
    simp [Event.minted, refreshedRow]
  | _ => simp [Event.presented] at hpresented

end Steps

/-- In every run of token operations in which only browser-extension tokens are refreshed as such and
no pair is issued past the absolute timeout of its family, every refresh mints tokens of the kind
presented, and no row outlives the bound of its family. -/
theorem rotation_kindPreserving {ι : Type} [DecidableEq ι] (hashToken : String → String)
    (store : CoherentStore) (requests : ι → Request) {s : State ι Store Lock Event Outcome}
    (hrun : Run RefreshedInKind (State.start ⟨store.store, []⟩ fun i ↦ (requests i).serve hashToken) s) :
    KindPreserving s.world := by
  have hinvariant : s.world.db.FamiliesCoherent ∧ KindPreserving s.world := by
    refine Run.invariant (c := contract hashToken RefreshedInKind)
      (fun w ↦ w.db.FamiliesCoherent ∧ KindPreserving w) hrun
      (fun i ↦ outline_serve (requests i) ⟨store.store, []⟩)
      ⟨store.coherent, by simp, store.coherent.families⟩ ?_
    rintro held w event db ⟨hw, hkinds⟩ ⟨overlap, -, hallowed, heffect⟩
    have hcoherent := heffect.coherent hw (heffect.fitsIn hw hallowed)
    refine ⟨hcoherent, fun other hother presented hpresented ↦ ?_, hcoherent.families⟩
    rcases List.mem_cons.mp hother with rfl | hold
    · exact heffect.sameKind hallowed hpresented
    · exact hkinds.sameKind other hold presented hpresented
  exact hinvariant.2

/-- A token `F` is issued (`false`), and the extension route refreshes it (`true`). -/
def issueThenRefresh (issue : Request) : Bool → Request
  | false => issue
  | true => .refreshExtension
      { bearer := some "F"
        validatedAt := 1
        dpopValid := true
        accessAllowed := true
        withinRateLimit := true
        sessionCheckedAt := 1
        now := 1
        familyRevokedAt := 1
        passkeyCheckedAt := 1
        draw := ⟨11, 1, "G"⟩ }

def noTokens : CoherentStore where
  store := ⟨[], [], oneMember⟩
  coherent := ⟨by simp, by simp⟩

/-- The two requests before their first statement. -/
def issueThenRefreshStart (issue : Request) : State Bool Store Lock Event Outcome :=
  State.start ⟨noTokens.store, []⟩ fun i ↦ (issueThenRefresh issue i).serve id

/-- Without the condition the property fails: a refreshed AutoFill token is a browser-extension token
that lives for the idle timeout of the tenant. -/
theorem rotation_not_kindPreserving :
    ¬ ∀ (store : CoherentStore) (requests : Bool → Request) (s : State Bool Store Lock Event Outcome),
      Run NewFamilies (State.start ⟨store.store, []⟩ fun i ↦ (requests i).serve id) s → KindPreserving s.world := by
  intro h
  obtain ⟨s, hrun, hlong⟩ := Run.exists_of_schedule
    (issueThenRefreshStart (.issueAutofill ⟨1, 1, "jkt", 0, 7, ⟨10, 0, "F"⟩⟩))
    (fun w ↦ ∃ row ∈ w.db.tokens, ∃ other ∈ w.db.tokens, other.familyId = row.familyId ∧
      ¬ row.WithinLifetime other.clientKind)
    [(6, false), (16, true)] NewFamilies
  obtain ⟨row, hrow, other, hother, hfamily, hover⟩ := hlong
  exact hover ((h noTokens _ s hrun).withinLifetime row hrow other hother hfamily)

/-- The condition can be met: a browser-extension token is refreshed. -/
theorem rotation_kindPreserving_extension : ∃ s, Run RefreshedInKind
        (issueThenRefreshStart (.issueExtension ⟨1, 1, "passwords:read", "jkt", 0, 7, ⟨10, 0, "F"⟩⟩)) s ∧
      s.world.db.tokens.length = 2 ∧ KindPreserving s.world := by
  obtain ⟨s, hrun, htwo⟩ := Run.exists_of_schedule
    (issueThenRefreshStart (.issueExtension ⟨1, 1, "passwords:read", "jkt", 0, 7, ⟨10, 0, "F"⟩⟩))
    (fun w ↦ w.db.tokens.length = 2) [(8, false), (16, true)] RefreshedInKind
  exact ⟨s, hrun, htwo, rotation_kindPreserving id noTokens _ hrun⟩

end PasswdSso.Extension
