import PasswdSso.Rls.Context

/-!
# Whether the context of a query is the lexical one

`AsyncLocalStorage` forgets a nested context when its callback is left; the settings that the callback made stay in
the folded transaction. The two agree as long as nested calls name the same tenant, and only then.
-/

namespace PasswdSso.Rls

/-- A query in the body of `withTenantRls` runs in a transaction of that tenant without bypass. -/
def Observation.Lexical (o : Observation) : Prop :=
  ∀ tenantId, o.context = some (.tenant tenantId) →
    ∃ settings, o.settings = some settings ∧ settings.tenantId = some tenantId ∧ settings.bypassRls = false

/-- All queries of a run. -/
def State.Lexical (s : State) : Prop := ∀ o ∈ s.observed, o.Lexical

/-- Nested calls that are not rejected have the context of the call around them, so `withTenantRls` its tenant. -/
def Uniform : Body → Option Context → Prop
  | .skip, _ => True
  | .query _ _, _ => True
  | .throw, _ => True
  | .seq first second, context => Uniform first context ∧ Uniform second context
  | .attempt body handler, context => Uniform body context ∧ Uniform handler context
  | .rls wrapper body, context => wrapper.rejectedIn context = false →
    (∀ outer, context = some outer → wrapper.context = outer) ∧ Uniform body (some wrapper.context)
  | .transaction body, context => Uniform body context

section Sound

/-- The state in which a callback starts: in a context the open transaction, or else a new one. -/
def State.entered (context : Option Context) (s : State) : State := if context.isSome then s else s.opened

theorem fst_inTransaction (context : Option Context) (callback : State → Outcome × State) (s : State) :
    (inTransaction context callback s).1 = (callback (s.entered context)).1 := by
  cases context with
  | none => rfl
  | some outer => rfl

theorem observed_note (s : State) (first : Nat) (outcome : Outcome) : (s.note first outcome).observed = s.observed := by
  cases outcome with
  | returned => rfl
  | thrown error => rfl

theorem observed_close (s : State) (outer : Option Tx) (outcome : Outcome) :
    (s.close outer outcome).observed = s.observed := by
  cases outcome with
  | returned => rfl
  | thrown error => rfl

theorem observed_inTransaction (context : Option Context) (callback : State → Outcome × State) (s : State) :
    (inTransaction context callback s).2.observed = (callback (s.entered context)).2.observed := by
  cases context with
  | none => exact (observed_note ..).trans (observed_close ..)
  | some outer => exact observed_note ..

theorem observed_entered (context : Option Context) (s : State) : (s.entered context).observed = s.observed := by
  cases context with
  | none => rfl
  | some outer => rfl

variable {context : Option Context} {s : State}

def Agrees (context : Option Context) (s : State) : Prop :=
  ∀ tenantId, context = some (.tenant tenantId) →
    ∃ tx, s.current = some tx ∧ tx.settings.tenantId = some tenantId ∧ tx.settings.bypassRls = false

theorem agrees_none (s : State) : Agrees none s := fun _ h ↦ (nomatch h)

theorem agrees_bypass (s : State) : Agrees (some .bypass) s := fun _ h ↦ (nomatch h)

/-- What an evaluation keeps. -/
structure Sound (context : Option Context) (s : State) : Prop where
  agrees : Agrees context s
  lexical : s.Lexical

theorem Sound.query (h : Sound context s) (client : Client) (access : Access) :
    Sound context (s.query context client access) := by
  have happend {o : Observation} (ho : o.Lexical) : ∀ other ∈ s.observed ++ [o], other.Lexical := by
    intro other hother
    rcases List.mem_append.mp hother with hold | hnew
    · exact h.lexical other hold
    · rw [List.mem_singleton.mp hnew]
      exact ho
  unfold State.query
  cases hcurrent : s.current with
  | none =>
    refine ⟨fun tenantId hcontext ↦ ?_, happend fun tenantId hcontext ↦ ?_⟩ <;>
    · obtain ⟨tx, htx, -⟩ := h.agrees tenantId hcontext
      rw [hcurrent] at htx
      cases htx
  | some tx =>
    dsimp only
    split_ifs with hin
    · refine ⟨fun tenantId hcontext ↦ ?_, happend fun tenantId hcontext ↦ ?_⟩ <;>
      · obtain ⟨other, hother, htenant⟩ := h.agrees tenantId hcontext
        rw [hcurrent] at hother
        cases hother
        exact ⟨_, rfl, htenant⟩
    · have hnone : context = none := by
        cases context with
        | none => rfl
        | some _ => exact absurd (.inr rfl) hin
      subst hnone
      exact ⟨agrees_none _, happend fun _ hcontext ↦ (nomatch hcontext)⟩

variable {outcome : Outcome} {first : Nat} {callback : State → Outcome × State}

theorem agrees_note (h : Agrees context s) : Agrees context (s.note first outcome) := by
  cases outcome with
  | returned | thrown error => exact h

theorem lexical_inTransaction :
    (inTransaction context callback s).2.Lexical ↔ (callback (s.entered context)).2.Lexical := by
  unfold State.Lexical
  rw [observed_inTransaction]

theorem sound_inTransaction (h : Sound context (callback (s.entered context)).2) :
    Sound context (inTransaction context callback s).2 := by
  refine ⟨?_, lexical_inTransaction.mpr h.lexical⟩
  cases context with
  | none => exact agrees_none _
  | some outer => exact agrees_note h.agrees

theorem agrees_setConfig {tx : Tx} (htx : s.current = some tx) (hbypass : tx.settings.bypassRls = false)
    (tenantId : Uuid) : Agrees (some (.tenant tenantId)) (s.setConfig (Wrapper.tenant tenantId).settings) := by
  intro other hother
  cases hother
  refine ⟨{ tx with settings := (Wrapper.tenant tenantId).settings tx.settings }, ?_, rfl, hbypass⟩
  rw [State.setConfig, htx]
  rfl

theorem Sound.entered (h : Sound context s) : Sound context (s.entered context) := by
  cases context with
  | none => exact ⟨agrees_none _, h.lexical⟩
  | some outer => exact h

theorem Agrees.entered (h : Agrees context s) {wrapper : Wrapper} (hcontext : wrapper.rejectedIn context = false) :
    Agrees (some wrapper.context) ((s.entered context).setConfig wrapper.settings) := by
  cases wrapper with
  | bypass purpose => exact agrees_bypass _
  | tenant tenantId =>
    cases context with
    | none => exact agrees_setConfig (s := s.opened) rfl rfl tenantId
    | some outer =>
      cases outer with
      | bypass => cases hcontext
      | tenant outer =>
        obtain ⟨tx, htx, -, hoff⟩ := h outer rfl
        exact agrees_setConfig htx hoff tenantId

theorem Sound.eval {body : Body} (h : Sound context s) (huniform : Uniform body context) :
    Sound context (eval body context s).2 := by
  induction body generalizing context s with
  | skip => exact h
  | query client access => exact h.query client access
  | throw => exact h
  | seq first second ihfirst ihsecond =>
    exact (eval_of_step (ihfirst h huniform.1) fun _ hmiddle ↦ ihsecond hmiddle huniform.2).1
  | attempt body handler ihbody ihhandler =>
    exact (eval_of_step (ihbody h huniform.1) fun _ hmiddle ↦ ihhandler hmiddle huniform.2).2
  | rls wrapper body ih =>
    refine eval_rls_cases h fun hcontext ↦ sound_inTransaction ?_
    obtain ⟨hsame, hbody⟩ := huniform hcontext
    have hinner := ih ⟨h.agrees.entered hcontext, h.entered.lexical⟩ hbody
    cases context with
    | none => exact ⟨agrees_none _, hinner.lexical⟩
    | some outer => exact hsame outer rfl ▸ hinner
  | transaction body ih => exact sound_inTransaction (ih h.entered huniform)

end Sound

section Probing

/-- Nothing throws and no call is rejected. -/
def Calm : Body → Option Context → Prop
  | .skip, _ => True
  | .query _ _, _ => True
  | .throw, _ => False
  | .seq first second, context => Calm first context ∧ Calm second context
  | .attempt _ _, _ => False
  | .rls wrapper body, context => wrapper.rejectedIn context = false ∧ Calm body (some wrapper.context)
  | .transaction body, context => Calm body context

/-- The program with a query after every nested call. -/
def probed : Body → Body
  | .skip => .skip
  | .query client access => .query client access
  | .throw => .throw
  | .seq first second => .seq (probed first) (probed second)
  | .attempt body handler => .attempt (probed body) (probed handler)
  | .rls wrapper body => .seq (.rls wrapper (probed body)) (.query .prisma .read)
  | .transaction body => .transaction (probed body)

variable {body : Body} {context : Option Context} {s : State}

theorem Uniform.probed (h : Uniform body context) : Uniform (probed body) context := by
  induction body generalizing context with
  | skip | query client access | throw => trivial
  | seq first second ihfirst ihsecond => exact ⟨ihfirst h.1, ihsecond h.2⟩
  | attempt body handler ihbody ihhandler => exact ⟨ihbody h.1, ihhandler h.2⟩
  | rls wrapper body ih => exact ⟨fun hcontext ↦ (h hcontext).imp_right ih, trivial⟩
  | transaction body ih => exact ih h

theorem observed_query (context : Option Context) (client : Client) (access : Access) (s : State) :
    s.observed ⊆ (s.query context client access).observed := by
  unfold State.query
  cases s.current with
  | none => exact List.subset_append_left _ _
  | some tx =>
    dsimp only
    split_ifs
    · exact List.subset_append_left _ _
    · exact List.subset_append_left _ _

variable {callback : State → Outcome × State}

theorem observed_subset_inTransaction (h : ∀ before, before.observed ⊆ (callback before).2.observed) :
    s.observed ⊆ (inTransaction context callback s).2.observed := by
  rw [observed_inTransaction, ← observed_entered context s]
  exact h _

theorem observed_subset_eval (body : Body) (context : Option Context) (s : State) :
    s.observed ⊆ (eval body context s).2.observed := by
  induction body generalizing context s with
  | skip | throw => exact .refl _
  | query client access => exact observed_query ..
  | seq first second ihfirst ihsecond =>
    exact (eval_of_step (motive := (s.observed ⊆ ·.observed)) (ihfirst context s) fun middle hmiddle ↦
      List.Subset.trans hmiddle (ihsecond context middle)).1
  | attempt body handler ihbody ihhandler =>
    exact (eval_of_step (motive := (s.observed ⊆ ·.observed)) (ihbody context s) fun middle hmiddle ↦
      List.Subset.trans hmiddle (ihhandler context middle)).2
  | rls wrapper body ih =>
    exact eval_rls_cases (motive := (s.observed ⊆ ·.observed)) (.refl _) fun _ ↦
      observed_subset_inTransaction fun before ↦ ih _ (before.setConfig _)
  | transaction body ih => exact observed_subset_inTransaction fun before ↦ ih context before

theorem State.Lexical.of_eval (h : (eval body context s).2.Lexical) : s.Lexical :=
  fun o ho ↦ h o (observed_subset_eval body context s ho)

theorem eval_seq_of_returned {first second : Body} (h : (eval first context s).1 = .returned) :
    eval (.seq first second) context s = eval second context (eval first context s).2 := by
  rw [eval]
  split
  · next after heq => rw [heq]
  · next error after heq =>
    rw [heq] at h
    cases h

theorem fst_eval_rls {wrapper : Wrapper} (hcontext : wrapper.rejectedIn context = false) :
    (eval (.rls wrapper body) context s).1 =
      (eval body (some wrapper.context) ((s.entered context).setConfig wrapper.settings)).1 := by
  rw [eval_rls hcontext, fst_inTransaction]

theorem returned_of_calm (h : Calm body context) : (eval (probed body) context s).1 = .returned := by
  induction body generalizing context s with
  | skip => rfl
  | query client access => rfl
  | throw | attempt body handler ihbody ihhandler => exact h.elim
  | seq first second ihfirst ihsecond =>
    rw [probed, eval_seq_of_returned (ihfirst h.1)]
    exact ihsecond h.2
  | rls wrapper body ih =>
    rw [probed, eval_seq_of_returned ((fst_eval_rls h.1).trans (ih h.2))]
    rfl
  | transaction body ih => exact (fst_inTransaction ..).trans (ih h)

theorem tenant_of_probe {inner outer : Uuid} (hagrees : Agrees (some (.tenant inner)) s)
    (h : (s.query (some (.tenant outer)) .prisma .read).Lexical) : inner = outer := by
  obtain ⟨tx, htx, hinner, -⟩ := hagrees inner rfl
  rw [State.query, htx] at h
  obtain ⟨settings, hsettings, houter, -⟩ := h ⟨some (.tenant outer), some tx.settings⟩
    (List.mem_append_right _ List.mem_cons_self) outer rfl
  cases hsettings
  exact Option.mem_unique hinner houter

theorem uniform_of_lexical (hcalm : Calm body context) (hagrees : Agrees context s)
    (hlexical : (eval (probed body) context s).2.Lexical) : Uniform body context := by
  induction body generalizing context s with
  | skip | query client access | throw => trivial
  | seq first second ihfirst ihsecond =>
    rw [probed, eval_seq_of_returned (returned_of_calm hcalm.1)] at hlexical
    have hfirst := ihfirst hcalm.1 hagrees hlexical.of_eval
    have hafter := Sound.eval ⟨hagrees, hlexical.of_eval.of_eval⟩ hfirst.probed
    exact ⟨hfirst, ihsecond hcalm.2 hafter.agrees hlexical⟩
  | attempt body handler ihbody ihhandler => exact hcalm.elim
  | rls wrapper body ih =>
    obtain ⟨hcontext, hbody⟩ := hcalm
    rw [probed, eval_seq_of_returned ((fst_eval_rls hcontext).trans (returned_of_calm hbody)),
      eval_rls hcontext] at hlexical
    have hcall := lexical_inTransaction.mp hlexical.of_eval
    have hentered := hagrees.entered hcontext
    have hinner := ih hbody hentered hcall
    refine fun _ ↦ ⟨fun outer houter ↦ ?_, hinner⟩
    subst houter
    have hafter := Sound.eval ⟨hentered, hcall.of_eval⟩ hinner.probed
    cases wrapper with
    | tenant tenantId =>
      cases outer with
      | bypass => cases hcontext
      | tenant outer => exact congrArg _ (tenant_of_probe (agrees_note hafter.agrees) hlexical)
    | bypass purpose =>
      cases outer with
      | bypass => rfl
      | tenant outer => cases hcontext
  | transaction body ih =>
    rw [probed, eval, lexical_inTransaction] at hlexical
    cases context with
    | none => exact ih hcalm (agrees_none _) hlexical
    | some outer => exact ih hcalm hagrees hlexical

/-- If nested calls name the tenant of the call around them, every query runs with the settings of its lexical
context, whatever is thrown and caught. For a program in which nothing is thrown this is also necessary, as soon as
there is a query behind every call. -/
theorem lexical_iff_uniform (program : Body) : (Uniform program none → (run program).2.Lexical) ∧
      (Calm program none → ((run (probed program)).2.Lexical ↔ Uniform program none)) := by
  have hstart : Sound none State.start := ⟨agrees_none _, fun _ ho ↦ (nomatch ho)⟩
  refine ⟨fun huniform ↦ (hstart.eval huniform).lexical, fun hcalm ↦ ⟨fun hlexical ↦ ?_, fun huniform ↦ ?_⟩⟩
  · exact uniform_of_lexical hcalm (agrees_none _) hlexical
  · exact (hstart.eval huniform.probed).lexical

end Probing

/-- In the body of tenant 1, a nested call for tenant 2 and then a query. -/
def crossTenant : Body :=
  .withTenantRls 1 (.seq (.withTenantRls 2 (.query .prisma .write)) (.query .prisma .read))

/-- The query after the nested call runs with the other tenant's rows. -/
theorem crossTenant_observed : ∃ o ∈ (run crossTenant).2.observed, o.context = some (.tenant 1) ∧
      o.settings.bind Settings.tenantId = some 2 ∧ ¬o.Lexical := by
  refine ⟨⟨some (.tenant 1), some ⟨some 2, false, none⟩⟩, by decide, rfl, rfl, fun h ↦ ?_⟩
  obtain ⟨settings, hsettings, htenant, -⟩ := h 1 rfl
  cases hsettings
  exact absurd htenant (by decide)

/-- A nested call for the same tenant that throws and is caught, and then a query. -/
def sameTenant : Body :=
  withResolvedTenantRls (some 1) (.seq (.attempt (.withTenantRls 1 .throw) .skip) (.query .prisma .read))

theorem sameTenant_lexical : (run sameTenant).2.Lexical ∧ (run sameTenant).2.observed ≠ [] ∧
      ((run (probed (.withTenantRls 1 (.withTenantRls 2 .skip)))).2.Lexical ↔ (2 : Uuid) = 1) := by
  have huniform : Uniform sameTenant none := by
    simp [sameTenant, withResolvedTenantRls, Uniform, Wrapper.context]
  refine ⟨(lexical_iff_uniform sameTenant).1 huniform, by decide, ?_⟩
  refine ((lexical_iff_uniform (.withTenantRls 1 (.withTenantRls 2 .skip))).2 ⟨rfl, rfl, trivial⟩).trans ?_
  simp [Uniform, Wrapper.context, Wrapper.rejectedIn]

end PasswdSso.Rls
