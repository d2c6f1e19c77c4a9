import PasswdSso.Mcp.AuthorizationCodes

/-!
# Single use of authorization codes

In every run of any number of `exchangeCodeForToken` calls, at most one call with a given code returns a token,
every new token carries what the code says, in the tenant of the client, and the step with which a call changes
the database is the one with which it returns the token, so that a call that fails has changed nothing
(`SingleUse`, `exchange_single_use`).
-/

namespace PasswdSso.Mcp.Code

open ReadCommitted Passkey List

variable {ι : Type} {hashToken computeS256Challenge : String → String} {tasks : ι → ExchangeCodeParams}

/-- A store whose codes have unique ids and unique hashes. -/
structure CodeStore where
  store : Store
  idsUnique : codeTable.KeysUnique store
  hashesUnique : ∀ first ∈ store.codes, ∀ second ∈ store.codes, first.codeHash = second.codeHash → first = second

structure Carries (code : McpAuthorizationCode) (token : McpAccessToken) : Prop where
  tenantId : token.tenantId = code.tenantId
  userId : token.userId = code.userId
  serviceAccountId : token.serviceAccountId = code.serviceAccountId
  scope : token.scope = code.scope
  clientId : token.clientId = code.clientId

theorem carries_newToken (params : ExchangeCodeParams) (code : McpAuthorizationCode) :
    Carries code (newToken hashToken params code) :=
  ⟨rfl, rfl, rfl, rfl, rfl⟩

/-- A later version of a code: only `usedAt` moves, and it is never cleared. -/
structure McpAuthorizationCode.Becomes (old new : McpAuthorizationCode) : Prop where
  same : new = { old with usedAt := new.usedAt }
  used : old.usedAt ≠ none → new.usedAt ≠ none

namespace McpAuthorizationCode

theorem Becomes.refl (code : McpAuthorizationCode) : code.Becomes code := ⟨rfl, fun h ↦ h⟩

theorem Becomes.trans (a b c : McpAuthorizationCode) (h : a.Becomes b) (h' : b.Becomes c) : a.Becomes c where
  same := by rw [h'.same, h.same]
  used := h'.used ∘ h.used

theorem becomes_use (time : Millis) (code : McpAuthorizationCode) : code.Becomes (code.use time) :=
  ⟨rfl, fun _ ↦ Option.some_ne_none _⟩

theorem Becomes.eq_of_unused {old new : McpAuthorizationCode} (h : old.Becomes new) (hnew : new.usedAt = none) :
    new = old := by
  have hold : old.usedAt = none := not_ne_iff.mp fun hold ↦ h.used hold hnew
  rw [h.same, hnew, ← hold]

end McpAuthorizationCode

section Contract

def SameTenant (clients : List McpClient) (code : McpAuthorizationCode) : Prop :=
  ∃ client ∈ clients, client.id = code.clientId ∧ client.tenantId = some code.tenantId

def Effect (hashToken : String → String) (tasks : ι → ExchangeCodeParams) (held : List (Lock × Mode))
    (w : World Store (Event ι)) (label : Event ι) (db : Store) : Prop :=
  match label with
  | .nothing _ => db = w.db
  | .redeemed call code token => code ∈ w.db.codes ∧ code.usedAt = none ∧
      code.codeHash = hashToken (tasks call).code ∧ SameTenant w.db.clients code ∧
      token = newToken hashToken (tasks call) code ∧ (.code code.id, .exclusive) ∈ held ∧
      db = accessTable.append [token] (codeTable.modify [code.id] (.use (tasks call).usedAt) w.db)

def contract (hashToken : String → String) (tasks : ι → ExchangeCodeParams) : Contract Store Lock (Event ι) where
  allowed _ _ _ := True
  guarantee := Effect hashToken tasks

variable {held : List (Lock × Mode)} {w : World Store (Event ι)} {label : Event ι} {db : Store}

theorem Effect.clients_eq (h : Effect hashToken tasks held w label db) : db.clients = w.db.clients := by
  cases label with
  | nothing call => rw [show db = w.db from h]
  | redeemed call code token =>
    obtain ⟨-, -, -, -, -, -, rfl⟩ := h
    rfl

theorem Effect.codes_cases (h : Effect hashToken tasks held w label db) :
    codeTable.rows db = codeTable.rows w.db ∨ ∃ id time, (.code id, .exclusive) ∈ held ∧
      codeTable.rows db = codeTable.rows (codeTable.modify [id] (.use time) w.db) := by
  cases label with
  | nothing call => exact .inl (by rw [show db = w.db from h])
  | redeemed call code token =>
    obtain ⟨-, -, -, -, -, hheld, rfl⟩ := h
    exact .inr ⟨code.id, (tasks call).usedAt, hheld, rfl⟩

theorem keeps_codes : (contract hashToken tasks).Keeps codeTable .code := by
  intro held w label db h
  rcases Effect.codes_cases h with hsame | ⟨id, time, hheld, hrows⟩
  · exact .of_rows_eq hsame
  · have hmodified : codeTable.KeptExcept .code held w.db (codeTable.modify [id] (.use time) w.db) :=
      Table.keptExcept_modify (fun _ ↦ rfl) (forall_mem_singleton.mpr hheld)
    exact hmodified.congr hrows

theorem advances_codes :
    (contract hashToken tasks).Advances codeTable McpAuthorizationCode.Becomes fun _ _ ↦ False := by
  intro held w label db h
  rcases Effect.codes_cases h with hsame | ⟨id, time, -, hrows⟩
  · exact .of_rows_eq McpAuthorizationCode.Becomes.refl hsame
  · exact (Table.advances_modify McpAuthorizationCode.Becomes.refl fun row _ _ ↦
      McpAuthorizationCode.becomes_use time row).congr hrows

theorem Effect.keysUnique (h : Effect hashToken tasks held w label db) (hunique : codeTable.KeysUnique w.db) :
    codeTable.KeysUnique db := by
  rcases h.codes_cases with hsame | ⟨id, time, -, hrows⟩
  · exact hunique.congr hsame
  · have hmodified : codeTable.KeysUnique (codeTable.modify [id] (.use time) w.db) := hunique.modify fun _ ↦ rfl
    exact hmodified.congr hrows

end Contract

section Outline

variable {params : ExchangeCodeParams} {code : McpAuthorizationCode} {client : McpClient}

theorem checkCode_none (h : checkCode computeS256Challenge params code client = .ok none) :
    code.usedAt = none ∧ client.tenantId = some code.tenantId := by
  unfold checkCode at h
  split at h
  · exact nomatch h
  rename_i hused
  refine ⟨by simpa using hused, ?_⟩
  split at h
  · exact nomatch h
  split at h
  · exact nomatch h
  split at h
  · exact nomatch h
  · exact nomatch h
  unfold checkBinding at h
  split at h
  · exact nomatch h
  split at h
  · exact nomatch h
  rename_i tenantId htenant
  split at h
  · exact nomatch h
  · rename_i hsame
    rw [htenant, not_ne_iff.mp hsame]

structure Known (start : Store) (w : World Store (Event ι)) : Prop where
  clients : w.db.clients = start.clients
  unique : codeTable.KeysUnique w.db

variable {start : Store} {w : World Store (Event ι)} {call : ι}

theorem preserves_known : (contract hashToken tasks).Preserves (Known start) :=
  fun _ _ _ _ h heffect ↦ ⟨heffect.clients_eq.trans h.clients, heffect.keysUnique h.unique⟩

variable {stand : Stand Store Lock (Event ι)}

theorem commits_nothing (hpending : stand.pending = id) : (contract hashToken tasks).Commits stand (.nothing call) := by
  intro w' _ _
  rw [hpending]
  rfl

theorem returns_redeem (hpending : stand.pending = id) (hknown : Known start stand.seen)
    (hcode : ∃ now ∈ stand.seen.db.codes, code.Becomes now) (hunused : code.usedAt = none)
    (hhash : code.codeHash = hashToken (tasks call).code) (htenant : SameTenant start.clients code) :
    Earns (contract hashToken tasks) (redeem hashToken (tasks call) code) stand
      fun value ↦ exchangeEvent hashToken (tasks call) call value := by
  refine Outline.updateKey (fun s1 count h1 hpending1 hlock ⟨_, row, hrow, hsel⟩ ↦ ?_)
    (fun s1 _ h1 ↦ if_pos rfl ▸ .ok (commits_nothing (h1.trans hpending))) fun _ _ ↦ of_decide_and
  rw [if_neg (Nat.succ_ne_zero count)]
  -- The row that the update has found is the code as it was read.
  have hfound : code ∈ s1.seen.db.codes := by
    have hknown1 := preserves_known.later hknown h1.later
    obtain ⟨later, hlater, hbecomes⟩ := advances_codes.forth McpAuthorizationCode.Becomes.trans h1.later hcode
    obtain ⟨hid, hnone⟩ := Bool.and_eq_true_iff.mp hsel
    rw [hpending] at hrow
    have hsame : row = later := by
      refine hknown1.unique.eq_of_key_eq hrow hlater ?_
      have hlaterId : later.id = code.id := by rw [hbecomes.same]
      exact (of_decide_eq_true hid).trans hlaterId.symm
    subst hsame
    rw [← hbecomes.eq_of_unused (Option.isNone_iff_eq_none.mp hnone)]
    exact hrow
  refine Returns.insert fun s2 h2 _ ↦ ?_
  refine .ok fun w' hw' _ ↦ ?_
  have hlater := h2.later.trans (hw'.mono h2.reaches.held)
  have hstays : code ∈ w'.db.codes := (keeps_codes.later hlater hlock).mpr hfound
  have hclients : w'.db.clients = start.clients :=
    (preserves_known.later (preserves_known.later hknown h1.later) hlater).clients
  refine ⟨hstays, hunused, hhash, hclients ▸ htenant, rfl, h2.reaches.held hlock, ?_⟩
  rw [h2.pending, hpending1, hpending]
  rfl

theorem Store.mem_of_findCode {db : Store} {codeHash : String} {client : Option McpClient}
    (h : db.findCode codeHash = some (code, client)) :
    code ∈ db.codes ∧ code.codeHash = codeHash ∧ client = db.clients.find? (·.id = code.clientId) := by
  obtain ⟨found, hfind, hpair⟩ := Option.map_eq_some_iff.mp h
  obtain ⟨rfl, rfl⟩ := Prod.mk.inj hpair
  exact ⟨mem_of_find?_eq_some hfind, by simpa using find?_some hfind, rfl⟩

theorem outline_passkeyGate :
    Outline (contract hashToken tasks) (passkeyGate params code) stand fun _ after ↦
      after.pending = stand.pending ∧ (contract hashToken tasks).Later [] stand.seen after.seen := by
  unfold passkeyGate
  split
  · exact ⟨rfl, .refl _⟩
  · refine .read fun s1 h1 ↦ ?_
    have hread : s1.pending = stand.pending ∧ (contract hashToken tasks).Later [] stand.seen s1.seen :=
      ⟨h1.pending, h1.later.nil⟩
    split <;> exact hread

theorem returns_exchangeBody (hknown : Known start w) :
    Earns (contract hashToken tasks) (exchangeBody hashToken computeS256Challenge (tasks call)) (.idle w)
      fun value ↦ exchangeEvent hashToken (tasks call) call value := by
  refine .read fun s1 h1 ↦ ?_
  have hpending1 : s1.pending = id := h1.pending
  have hknown1 := preserves_known.later hknown h1.later
  split
  · exact .ok (commits_nothing hpending1)
  · exact .error
  rename_i authCode client hfind
  obtain ⟨hcode, hhash, hclient⟩ := Store.mem_of_findCode (show s1.seen.db.findCode _ = _ from hfind)
  split
  · exact .error
  · exact .ok (commits_nothing hpending1)
  rename_i hchecked
  obtain ⟨hunused, htenant⟩ := checkCode_none hchecked
  have hsame : SameTenant start.clients authCode := by
    rw [hknown1.clients] at hclient
    exact ⟨client, mem_of_find?_eq_some hclient.symm, by simpa using find?_some hclient.symm, htenant⟩
  refine outline_bind.mpr (outline_passkeyGate.weaken ?_)
  rintro gate s2 ⟨hpending2, hlater⟩
  rw [hpending1] at hpending2
  split
  · exact .error
  · exact .ok (commits_nothing hpending2)
  · exact returns_redeem hpending2 (preserves_known.later hknown1 hlater)
      (advances_codes.forth McpAuthorizationCode.Becomes.trans hlater ⟨authCode, hcode, .refl _⟩) hunused hhash hsame

theorem outline_exchangeCodeForToken (hknown : Known start w) :
    Respects (contract hashToken tasks) (exchangeCodeForToken hashToken computeS256Challenge (tasks call) call) w := by
  unfold exchangeCodeForToken
  split
  · trivial
  split
  · trivial
  refine .respond (.inTransaction (returns_exchangeBody hknown)) fun result after ↦ ?_
  split <;> trivial

end Outline

section Calls

variable (params : ExchangeCodeParams)

theorem labelled_exchangeBody : (exchangeBody hashToken computeS256Challenge params :
      Prog Store Lock (Event ι) (Except Thrown (Refusal ⊕ McpAuthorizationCode))).Labelled fun _ ↦ False := by
  have hredeem (authCode : McpAuthorizationCode) : (redeem hashToken params authCode :
      Prog Store Lock (Event ι) (Except Thrown (Refusal ⊕ McpAuthorizationCode))).Labelled fun _ ↦ False := by
    refine Prog.labelled_updateMany.bind fun consumed ↦ ?_
    split
    · trivial
    · refine Prog.labelled_insert.bind fun clash ↦ ?_
      split <;> trivial
  refine Prog.labelled_read fun view ↦ ?_
  split
  · trivial
  · trivial
  split
  · trivial
  · trivial
  refine .bind ?_ fun gate ↦ ?_
  · unfold passkeyGate
    split
    · trivial
    · refine Prog.labelled_read fun view ↦ ?_
      split <;> trivial
  · split
    · trivial
    · trivial
    · exact hredeem _

def Event.redeems : Event ι → Prop
  | .redeemed .. => True
  | .nothing _ => False

def TokenExchangeOutcome.isOk : TokenExchangeOutcome → Prop
  | .ok _ => True
  | _ => False

variable (call : ι)

theorem traces_exchangeCodeForToken : (exchangeCodeForToken hashToken computeS256Challenge params call).Traces
      (fun made ↦ ∀ label ∈ made, label.call = call)
      (fun outcome made ↦ outcome.isOk → ∃ code token, .redeemed call code token ∈ made) [] := by
  unfold exchangeCodeForToken
  split
  · exact fun h ↦ h.elim
  split
  · exact fun h ↦ h.elim
  refine Prog.traces_transaction (labelled_exchangeBody params) ?_ fun _ h ↦ h.elim
  rintro (refusal | authCode)
  · exact ⟨forall_mem_singleton.mpr rfl, fun h ↦ h.elim⟩
  · exact ⟨forall_mem_singleton.mpr rfl, fun _ ↦ ⟨authCode, _, mem_singleton_self _⟩⟩

theorem atCommits_exchangeCodeForToken :
    (exchangeCodeForToken hashToken computeS256Challenge params call).AtCommits fun label rest ↦
      label.call = call ∧ (label.redeems → ∃ outcome, rest = .done outcome ∧ outcome.isOk) := by
  unfold exchangeCodeForToken
  split
  · trivial
  split
  · trivial
  refine Prog.atCommits_transaction (labelled_exchangeBody params) ?_ fun _ ↦ trivial
  rintro (refusal | authCode)
  · exact ⟨⟨rfl, fun h ↦ h.elim⟩, trivial⟩
  · exact ⟨⟨rfl, fun _ ↦ ⟨_, rfl, trivial⟩⟩, trivial⟩

end Calls

section Runs

/-- What holds in every world of a run. -/
structure Coherent (hashToken : String → String) (tasks : ι → ExchangeCodeParams) (start : Store)
    (w : World Store (Event ι)) : Prop where
  known : Known start w
  codes : ∀ code ∈ w.db.codes, code ∈ start.codes ∨
    ∃ call old token, .redeemed call old token ∈ w.log ∧ old.id = code.id ∧ code.usedAt ≠ none
  redeemed : ∀ call code token, .redeemed call code token ∈ w.log → code ∈ start.codes ∧
    code.codeHash = hashToken (tasks call).code ∧ SameTenant start.clients code ∧ Carries code token ∧
      ∃ current ∈ w.db.codes, code.id = current.id ∧ current.usedAt ≠ none
  once : ∀ call call' code code' token token', .redeemed call code token ∈ w.log →
    .redeemed call' code' token' ∈ w.log → code.id = code'.id → call = call'
  tokens : ∀ token ∈ w.db.accessTokens, token ∈ start.accessTokens ∨ ∃ call code, .redeemed call code token ∈ w.log

variable {start : Store} {held : List (Lock × Mode)} {w : World Store (Event ι)} {label : Event ι} {db : Store}
  {code : McpAuthorizationCode} {call : ι} {token : McpAccessToken}

theorem Coherent.not_redeemed (h : Coherent hashToken tasks start w) (hcode : code ∈ w.db.codes)
    (hunused : code.usedAt = none) {old : McpAuthorizationCode} (hlog : .redeemed call old token ∈ w.log) :
    old.id ≠ code.id := by
  intro hid
  obtain ⟨-, -, -, -, current, hcurrent, hcurrentId, hused⟩ := h.redeemed call old token hlog
  have hsame := h.known.unique.eq_of_key_eq hcurrent hcode (hcurrentId.symm.trans hid)
  exact hused (hsame ▸ hunused)

theorem Coherent.redeem (h : Coherent hashToken tasks start w)
    (heffect : Effect hashToken tasks held w (.redeemed call code token) db) :
    Coherent hashToken tasks start (w.commit (.redeemed call code token) db) := by
  have hknown : Known start (w.commit (.redeemed call code token) db) := preserves_known _ _ _ _ h.known heffect
  obtain ⟨hcode, hunused, hhash, htenant, rfl, -, rfl⟩ := heffect
  have hstart : code ∈ start.codes := by
    refine (h.codes code hcode).resolve_right ?_
    rintro ⟨-, -, -, -, -, hused⟩
    exact hused hunused
  have hused : code.use (tasks call).usedAt ∈
      w.db.codes.map fun row ↦ if row.id ∈ [code.id] then row.use (tasks call).usedAt else row :=
    mem_map.mpr ⟨code, hcode, if_pos (mem_singleton_self _)⟩
  refine ⟨hknown, fun row hrow ↦ ?_, fun call' code' token' hlog ↦ ?_, ?_, fun row hrow ↦ ?_⟩
  · obtain ⟨old, hold, rfl⟩ := mem_map.mp (show row ∈ w.db.codes.map _ from hrow)
    split_ifs with hid
    · refine .inr ⟨call, code, _, mem_cons_self, (mem_singleton.mp hid).symm, ?_⟩
      exact Option.some_ne_none _
    · refine (h.codes old hold).imp_right ?_
      rintro ⟨earlier, code', token', hlog, hrest⟩
      exact ⟨earlier, code', token', mem_cons_of_mem _ hlog, hrest⟩
  · rcases mem_cons.mp hlog with hnew | hold
    · obtain ⟨rfl, rfl, rfl⟩ := Event.redeemed.inj hnew
      exact ⟨hstart, hhash, h.known.clients ▸ htenant, carries_newToken _ _, _, hused, rfl, Option.some_ne_none _⟩
    · obtain ⟨hmem, hhash', htenant', hcarries, current, hcurrent, hid, hcurrentUsed⟩ :=
        h.redeemed call' code' token' hold
      refine ⟨hmem, hhash', htenant', hcarries, current, ?_, hid, hcurrentUsed⟩
      refine mem_map.mpr ⟨current, hcurrent, if_neg fun hmem ↦ ?_⟩
      exact h.not_redeemed hcode hunused hold (hid.trans (mem_singleton.mp hmem))
  · intro first second code' code'' token' token'' hfirst hsecond hid
    rcases mem_cons.mp hfirst with hnew | hold
    · obtain ⟨rfl, rfl, rfl⟩ := Event.redeemed.inj hnew
      rcases mem_cons.mp hsecond with hnew' | hold'
      · exact (Event.redeemed.inj hnew').1.symm
      · exact absurd hid.symm (h.not_redeemed hcode hunused hold')
    · rcases mem_cons.mp hsecond with hnew' | hold'
      · obtain ⟨rfl, rfl, rfl⟩ := Event.redeemed.inj hnew'
        exact absurd hid (h.not_redeemed hcode hunused hold)
      · exact h.once _ _ _ _ _ _ hold hold' hid
  · rcases mem_append.mp (show row ∈ w.db.accessTokens ++ [_] from hrow) with hold | hnew
    · refine (h.tokens row hold).imp_right ?_
      rintro ⟨earlier, code', hlog⟩
      exact ⟨earlier, code', mem_cons_of_mem _ hlog⟩
    · rw [mem_singleton.mp hnew]
      exact .inr ⟨call, code, mem_cons_self⟩

theorem Coherent.step (h : Coherent hashToken tasks start w) (heffect : Effect hashToken tasks held w label db) :
    Coherent hashToken tasks start (w.commit label db) := by
  cases label with
  | redeemed call code token => exact h.redeem heffect
  | nothing call =>
    obtain rfl : db = w.db := heffect
    have hlog {call' : ι} {code : McpAuthorizationCode} {token : McpAccessToken}
        (hmem : .redeemed call' code token ∈ (w.commit (.nothing call) w.db).log) :
        .redeemed call' code token ∈ w.log := (mem_cons.mp hmem).resolve_left nofun
    refine ⟨⟨h.known.clients, h.known.unique⟩, fun code hcode ↦ ?_, fun _ _ _ hmem ↦ h.redeemed _ _ _ (hlog hmem),
      fun _ _ _ _ _ _ hfirst hsecond ↦ h.once _ _ _ _ _ _ (hlog hfirst) (hlog hsecond), fun token htoken ↦ ?_⟩
    · exact (h.codes code hcode).imp_right fun ⟨call', old, token, hmem, hrest⟩ ↦
        ⟨call', old, token, mem_cons_of_mem _ hmem, hrest⟩
    · exact (h.tokens token htoken).imp_right fun ⟨call', code, hmem⟩ ↦
        ⟨call', code, mem_cons_of_mem _ hmem⟩

variable [DecidableEq ι]

/-- A run of calls. -/
def ExchangeRun (hashToken computeS256Challenge : String → String) (tasks : ι → ExchangeCodeParams)
    (start : CodeStore) (s : State ι Store Lock (Event ι) TokenExchangeOutcome) : Prop :=
  Run (fun _ _ _ ↦ True) (State.start ⟨start.store, []⟩ fun call ↦
    exchangeCodeForToken hashToken computeS256Challenge (tasks call) call) s

def Returned (s : State ι Store Lock (Event ι) TokenExchangeOutcome) (call : ι) : Prop :=
  ∃ outcome, (s.session call).prog = .done outcome ∧ outcome.isOk

/-- Codes are redeemed once, for what they say, and by nothing but a call that returns a token. -/
structure SingleUse (hashToken : String → String) (tasks : ι → ExchangeCodeParams) (start : Store)
    (s : State ι Store Lock (Event ι) TokenExchangeOutcome) : Prop where
  unique : ∀ first second, (tasks first).code = (tasks second).code → Returned s first → Returned s second →
    first = second
  token : ∀ token ∈ s.world.db.accessTokens, token ∈ start.accessTokens ∨ ∃ call code, Returned s call ∧
    code ∈ start.codes ∧ code.codeHash = hashToken (tasks call).code ∧ Carries code token ∧
      ∃ client ∈ start.clients, client.id = code.clientId ∧ client.tenantId = some token.tenantId
  used : ∀ code ∈ s.world.db.codes, code ∈ start.codes ∨ ∃ call old, Returned s call ∧ old ∈ start.codes ∧
    old.id = code.id ∧ old.codeHash = hashToken (tasks call).code
  frame : ∀ call next, s.step call = some next → next.world.db ≠ s.world.db → Returned next call

/-- In every run of any number of calls, codes are single-use and tokens are in the tenant of the client. -/
theorem exchange_single_use (hashToken computeS256Challenge : String → String) (tasks : ι → ExchangeCodeParams)
    (start : CodeStore) (s : State ι Store Lock (Event ι) TokenExchangeOutcome)
    (hrun : ExchangeRun hashToken computeS256Challenge tasks start s) :
    SingleUse hashToken tasks start.store s := by
  have hknown : Known start.store (⟨start.store, []⟩ : World Store (Event ι)) := ⟨rfl, start.idsUnique⟩
  have houtline (call : ι) : Respects (contract hashToken tasks)
      (exchangeCodeForToken hashToken computeS256Challenge (tasks call) call) ⟨start.store, []⟩ :=
    outline_exchangeCodeForToken hknown
  have hcoherent : Coherent hashToken tasks start.store s.world :=
    Run.invariant (c := contract hashToken tasks) _ hrun houtline
      ⟨hknown, fun _ h ↦ .inl h, fun _ _ _ h ↦ (nomatch h), fun _ _ _ _ _ _ h ↦ (nomatch h), fun _ h ↦ .inl h⟩
      fun held w label db h heffect ↦ h.step heffect
  have hatCommits (call : ι) :
      (exchangeCodeForToken hashToken computeS256Challenge (tasks call) call).AtCommits fun label rest ↦
        label.call = call ∧ (label.redeems → ∃ outcome, rest = .done outcome ∧ outcome.isOk) :=
    atCommits_exchangeCodeForToken (tasks call) call
  have hreturned (call : ι) (code : McpAuthorizationCode) (token : McpAccessToken)
      (hlog : .redeemed call code token ∈ s.world.log) : Returned s call :=
    Run.finished hatCommits hrun (.redeemed call code token) hlog trivial
  have hredeemed (call : ι) (h : Returned s call) : ∃ code token, .redeemed call code token ∈ s.world.log := by
    have htraced := Run.traces (fun _ _ h ↦ h) (traced_start (fun call ↦ traces_exchangeCodeForToken (tasks call) call)
      fun _ ↦ List.forall_mem_nil _) hrun
    obtain ⟨outcome, hdone, hok⟩ := h
    have hpost := (htraced call).2
    rw [hdone] at hpost
    obtain ⟨code, token, hmem⟩ := hpost hok
    exact ⟨code, token, List.mem_of_mem_filter hmem⟩
  refine ⟨fun first second hsame hfirst hsecond ↦ ?_, fun token htoken ↦ ?_, fun code hcode ↦ ?_,
    fun call next hstep hchanged ↦ ?_⟩
  · obtain ⟨code, token, hlog⟩ := hredeemed first hfirst
    obtain ⟨code', token', hlog'⟩ := hredeemed second hsecond
    obtain ⟨hmem, hhash, -⟩ := hcoherent.redeemed _ _ _ hlog
    obtain ⟨hmem', hhash', -⟩ := hcoherent.redeemed _ _ _ hlog'
    have hcode : code = code' := start.hashesUnique _ hmem _ hmem' (by rw [hhash, hhash', hsame])
    exact hcoherent.once _ _ _ _ _ _ hlog hlog' (by rw [hcode])
  · refine (hcoherent.tokens token htoken).imp_right ?_
    rintro ⟨call, code, hlog⟩
    obtain ⟨hmem, hhash, ⟨client, hclient, hid, htenant⟩, hcarries, -⟩ := hcoherent.redeemed _ _ _ hlog
    exact ⟨call, code, hreturned _ _ _ hlog, hmem, hhash, hcarries, client, hclient, hid, hcarries.tenantId ▸ htenant⟩
  · refine (hcoherent.codes code hcode).imp_right ?_
    rintro ⟨call, old, token, hlog, hid, -⟩
    obtain ⟨hmem, hhash, -⟩ := hcoherent.redeemed _ _ _ hlog
    exact ⟨call, old, hreturned _ _ _ hlog, hmem, hid, hhash⟩
  · have hallows : s.Allows (contract hashToken tasks).allowed call := State.allows_of_forall fun _ _ _ ↦ trivial
    rcases ((Run.atCommits hatCommits hrun call).step hstep).2 with hsame | ⟨label, db, hworld, -, hrest⟩
    · exact absurd (by rw [hsame]) hchanged
    rcases Run.step_guarantee (c := contract hashToken tasks) hrun houtline hallows hstep with
      hsame | ⟨held, label', db', heffect, hworld'⟩
    · exact absurd (by rw [hsame]) hchanged
    have hcommit := hworld.symm.trans hworld'
    obtain rfl : label = label' := (List.cons.inj (congrArg World.log hcommit)).1
    cases label with
    | nothing other =>
      rw [hworld', show db' = s.world.db from heffect] at hchanged
      exact absurd rfl hchanged
    | redeemed other code token => exact hrest trivial

/-- Two calls with one code, of which the second one loses the race. -/
theorem exchange_single_use_race : ∃ s : State Bool Store Lock (Event Bool) TokenExchangeOutcome, Returned s false ∧
      s.world.db.accessTokens.length = 1 ∧ (∃ outcome, (s.session true).prog = .done outcome) ∧
      ¬ Returned s true := by
  let params (random : String) (id : Uuid) : ExchangeCodeParams :=
    ⟨"code", "client", "", "https", "verifier", none, 1, 1, 1, 1, random, id⟩
  let tasks (call : Bool) : ExchangeCodeParams := if call then params "b" 2 else params "a" 1
  let code : McpAuthorizationCode := ⟨7, "code", 8, 9, none, none, "https", "scope", "verifier", "S256", 5, none⟩
  let start : CodeStore := ⟨⟨[code], [⟨8, some 9, "client", "", true⟩], [], [], []⟩, by decide +kernel, by decide +kernel⟩
  obtain ⟨s, hrun, hs⟩ := Run.exists_state_of_schedule
    (State.start ⟨start.store, []⟩ fun call ↦ exchangeCodeForToken id id (tasks call) call)
    (fun s ↦ decide (s.world.db.accessTokens.length = 1 ∧ (∃ outcome, (s.session true).prog = .done outcome)) &&
      match (s.session false).prog with | .done (.ok _) => true | _ => false)
    [(1, false), (1, true), (4, false), (3, true)]
  obtain ⟨hstate, hfirst⟩ := Bool.and_eq_true_iff.mp hs
  obtain ⟨htokens, hdone⟩ := of_decide_eq_true hstate
  have hreturned : Returned s false := by
    split at hfirst
    · rename_i data hprog
      exact ⟨.ok data, hprog, trivial⟩
    · exact nomatch hfirst
  refine ⟨s, hreturned, htokens, hdone, fun hother ↦ ?_⟩
  exact nomatch (exchange_single_use id id tasks start s hrun).unique false true rfl hreturned hother

end Runs

end PasswdSso.Mcp.Code
