import PasswdSso.Rls.Context

/-!
# What a failed transaction leaves

Outside a context `prisma.$transaction` rolls back when its callback throws. In a context the callback runs in the
transaction of the context, and its writes are committed with that transaction when the error is caught on the way.
-/

namespace PasswdSso.Rls

open List

/-- No write made by a callback that threw is committed. -/
def State.NoTrace (s : State) : Prop :=
  ∀ call ∈ s.failed, ∀ number ∈ s.committed, ¬(call.first ≤ number ∧ number < call.last)

instance (s : State) : Decidable s.NoTrace := decidableBAll _ _

/-- Without calls. -/
def Flat : Body → Prop
  | .seq first second => Flat first ∧ Flat second
  | .attempt body handler => Flat body ∧ Flat handler
  | .rls _ _ => False
  | .transaction _ => False
  | .skip => True
  | .query _ _ => True
  | .throw => True

def TxOnly : Body → Prop
  | .query client _ => client = .tx
  | .seq first second => TxOnly first ∧ TxOnly second
  | .attempt body handler => TxOnly body ∧ TxOnly handler
  | .rls _ _ => False
  | .transaction _ => False
  | .skip => True
  | .throw => True

/-- In a context, nothing catches the errors of a call; outside, a callback of `$transaction` queries only through
its argument. -/
def Isolated : Body → Option Context → Prop
  | .skip, _ => True
  | .query _ _, _ => True
  | .throw, _ => True
  | .seq first second, context => Isolated first context ∧ Isolated second context
  | .attempt body handler, none => Isolated body none ∧ Isolated handler none
  | .attempt body handler, some context => Flat body ∧ Isolated handler (some context)
  | .rls wrapper body, _ => Isolated body (some wrapper.context)
  | .transaction body, none => TxOnly body
  | .transaction body, some context => Isolated body (some context)

variable {body : Body} {context : Option Context} {s middle after : State} {callback : State → Outcome × State}

theorem TxOnly.flat (h : TxOnly body) : Flat body := by
  induction body with
  | skip | query client access | throw => trivial
  | seq first second ihfirst ihsecond => exact ⟨ihfirst h.1, ihsecond h.2⟩
  | attempt body handler ihbody ihhandler => exact ⟨ihbody h.1, ihhandler h.2⟩
  | rls wrapper body ih | transaction body ih => exact h.elim

/-- What happens inside an open transaction: nothing is committed, and every write is one of the transaction. -/
structure Inside (s after : State) : Prop where
  next : s.next ≤ after.next
  committed : after.committed = s.committed
  writes : ∀ tx, s.current = some tx → ∃ tx', after.current = some tx' ∧
    ∃ new, tx'.writes = tx.writes ++ new ∧ ∀ number, number ∈ new ↔ s.next ≤ number ∧ number < after.next
  failed : ∃ calls, after.failed = s.failed ++ calls ∧ ∀ call ∈ calls, s.next ≤ call.first ∧ call.last ≤ after.next

theorem Inside.refl (s : State) : Inside s s :=
  ⟨Nat.le_refl _, rfl, fun tx htx ↦ ⟨tx, htx, [], (append_nil _).symm, fun number ↦ by simp⟩,
    [], (append_nil _).symm, fun _ h ↦ absurd h not_mem_nil⟩

theorem Inside.trans (h : Inside s middle) (h' : Inside middle after) : Inside s after := by
  obtain ⟨calls, hcalls, hrange⟩ := h.failed
  obtain ⟨calls', hcalls', hrange'⟩ := h'.failed
  have hnext := h.next
  have hnext' := h'.next
  refine ⟨Nat.le_trans hnext hnext', h'.committed.trans h.committed, fun tx htx ↦ ?_, calls ++ calls', ?_, ?_⟩
  · obtain ⟨tx', htx', new, hnew, hnumber⟩ := h.writes tx htx
    obtain ⟨tx'', htx'', new', hnew', hnumber'⟩ := h'.writes tx' htx'
    refine ⟨tx'', htx'', new ++ new', by rw [hnew', hnew, append_assoc], fun number ↦ ?_⟩
    rw [mem_append, hnumber, hnumber']
    omega
  · rw [hcalls', hcalls, append_assoc]
  · intro call hcall
    rcases mem_append.mp hcall with hold | hnew
    · have := hrange call hold
      omega
    · have := hrange' call hnew
      omega

theorem Inside.isSome (h : Inside s after) (hcurrent : s.current.isSome) : after.current.isSome := by
  obtain ⟨tx, htx⟩ := Option.isSome_iff_exists.mp hcurrent
  obtain ⟨tx', htx', -⟩ := h.writes tx htx
  rw [htx']
  rfl

theorem mem_writesOf (s : State) (access : Access) (number : Nat) :
    number ∈ s.writesOf access ↔ s.next ≤ number ∧ number < s.next + (s.writesOf access).length := by
  cases access with
  | read => simp [State.writesOf]
  | write =>
    simp only [State.writesOf, mem_singleton, length_singleton]
    omega

theorem inside_query {client : Client} {access : Access} (hcurrent : s.current.isSome)
    (hclient : context.isSome ∨ client = .tx) : Inside s (s.query context client access) := by
  obtain ⟨tx, htx⟩ := Option.isSome_iff_exists.mp hcurrent
  rw [State.query, htx]
  dsimp only
  rw [if_pos hclient.symm]
  refine ⟨Nat.le_add_right _ _, rfl, fun other hother ↦ ?_, [], (append_nil _).symm,
    fun _ h ↦ absurd h not_mem_nil⟩
  rw [htx] at hother
  cases hother
  exact ⟨_, rfl, s.writesOf access, rfl, mem_writesOf s access⟩

theorem inside_setConfig (set : Settings → Settings) (s : State) : Inside s (s.setConfig set) := by
  refine ⟨Nat.le_refl _, rfl, fun tx htx ↦ ?_, [], (append_nil _).symm, fun _ h ↦ absurd h not_mem_nil⟩
  refine ⟨{ tx with settings := set tx.settings }, ?_, [], (append_nil _).symm, fun number ↦ ?_⟩
  · rw [State.setConfig, htx]
    rfl
  · simp [State.setConfig]

/-- The failed calls of a callback and the call itself are in its range. -/
theorem noted_range {first last : Nat} {calls : List FailedCall}
    (h : ∀ call ∈ calls, first ≤ call.first ∧ call.last ≤ last) :
    ∀ call ∈ calls ++ [⟨first, last⟩], first ≤ call.first ∧ call.last ≤ last := by
  intro call hcall
  rcases mem_append.mp hcall with hold | hnew
  · exact h call hold
  · rw [mem_singleton.mp hnew]
    exact ⟨Nat.le_refl _, Nat.le_refl _⟩

theorem Inside.note (h : Inside s after) (outcome : Outcome) : Inside s (after.note s.next outcome) := by
  cases outcome with
  | returned => exact h
  | thrown error =>
    obtain ⟨calls, hcalls, hrange⟩ := h.failed
    refine ⟨h.next, h.committed, h.writes, calls ++ [⟨s.next, after.next⟩], ?_, noted_range hrange⟩
    rw [← append_assoc, ← hcalls]
    rfl

theorem inside_fold (hcontext : context.isSome)
    (h : Inside s (callback s).2) : Inside s (inTransaction context callback s).2 := by
  cases context with
  | none => cases hcontext
  | some outer => exact h.note _

theorem inside_eval (hcurrent : s.current.isSome) (h : context.isSome ∨ TxOnly body) :
    Inside s (eval body context s).2 := by
  induction body generalizing context s with
  | skip | throw => exact .refl s
  | query client access => exact inside_query hcurrent h
  | seq first second ihfirst ihsecond =>
    refine (eval_of_step (motive := Inside s) (ihfirst hcurrent (h.imp_right And.left)) fun _ hmiddle ↦ ?_).1
    exact hmiddle.trans (ihsecond (hmiddle.isSome hcurrent) (h.imp_right And.right))
  | attempt body handler ihbody ihhandler =>
    refine (eval_of_step (motive := Inside s) (ihbody hcurrent (h.imp_right And.left)) fun _ hmiddle ↦ ?_).2
    exact hmiddle.trans (ihhandler (hmiddle.isSome hcurrent) (h.imp_right And.right))
  | rls wrapper body ih =>
    have hset := inside_setConfig wrapper.settings s
    exact eval_rls_cases (.refl s) fun _ ↦
      inside_fold (h.resolve_right not_false) (hset.trans (ih (hset.isSome hcurrent) (.inl rfl)))
  | transaction body ih =>
    have hcontext : context.isSome := h.resolve_right not_false
    exact inside_fold hcontext (ih hcurrent (.inl hcontext))

theorem failed_query (client : Client) (access : Access) : (s.query context client access).failed = s.failed := by
  unfold State.query
  cases s.current with
  | none => rfl
  | some tx =>
    dsimp only
    split_ifs
    · rfl
    · rfl

theorem Flat.failed (h : Flat body) : (eval body context s).2.failed = s.failed := by
  induction body generalizing s with
  | skip => rfl
  | query client access => exact failed_query client access
  | throw => rfl
  | seq first second ihfirst ihsecond =>
    exact (eval_of_step (motive := (·.failed = s.failed)) (ihfirst h.1) fun _ ↦ (ihsecond h.2).trans).1
  | attempt body handler ihbody ihhandler =>
    exact (eval_of_step (motive := (·.failed = s.failed)) (ihbody h.1) fun _ ↦ (ihhandler h.2).trans).2
  | rls wrapper body ih | transaction body ih => exact h.elim

theorem failed_fold {outer : Context} (h : (callback s).1 = .returned → (callback s).2.failed = s.failed)
    (hreturned : (inTransaction (some outer) callback s).1 = .returned) :
    (inTransaction (some outer) callback s).2.failed = s.failed := by
  have hcallback : (callback s).1 = .returned := hreturned
  rw [← h hcallback]
  exact congrArg (fun outcome ↦ ((callback s).2.note s.next outcome).failed) hcallback

theorem Isolated.failed {outer : Context} (h : Isolated body (some outer))
    (hreturned : (eval body (some outer) s).1 = .returned) : (eval body (some outer) s).2.failed = s.failed := by
  induction body generalizing outer s with
  | skip => rfl
  | query client access => exact failed_query client access
  | throw => rfl
  | seq first second ihfirst ihsecond =>
    have hfirst := ihfirst (s := s) h.1
    rw [eval] at hreturned ⊢
    split at hreturned
    · next middle heq =>
      rw [heq] at hfirst
      exact (ihsecond h.2 hreturned).trans (hfirst rfl)
    · cases hreturned
  | attempt body handler ihbody ihhandler =>
    have hbody : (eval body (some outer) s).2.failed = s.failed := h.1.failed
    rw [eval] at hreturned ⊢
    split at hreturned
    · next middle heq =>
      rw [heq] at hbody
      exact hbody
    · next error middle heq =>
      rw [heq] at hbody
      exact (ihhandler h.2 hreturned).trans hbody
  | rls wrapper body ih =>
    refine eval_rls_cases (motive := (·.failed = s.failed)) rfl fun hcontext ↦ ?_
    rw [eval_rls hcontext] at hreturned
    exact failed_fold (ih h) hreturned
  | transaction body ih => exact failed_fold (ih h) hreturned

/-- Outside all transactions: numbers ascend, and no failed call has left a trace. -/
structure Clean (s : State) : Prop where
  current : s.current = none
  committed : ∀ number ∈ s.committed, number < s.next
  failed : ∀ call ∈ s.failed, call.last ≤ s.next
  noTrace : s.NoTrace

theorem clean_start : Clean State.start :=
  ⟨rfl, fun _ h ↦ absurd h not_mem_nil, fun _ h ↦ absurd h not_mem_nil, fun _ h ↦ absurd h not_mem_nil⟩

theorem Clean.commit (h : Clean s) {new : List Nat} (hnext : s.next ≤ after.next)
    (hnew : ∀ number ∈ new, s.next ≤ number ∧ number < after.next) (hcurrent : after.current = none)
    (hcommitted : after.committed = s.committed ++ new) (hfailed : after.failed = s.failed) : Clean after := by
  refine ⟨hcurrent, fun number hnumber ↦ ?_, fun call hcall ↦ ?_, fun call hcall number hnumber hin ↦ ?_⟩
  · rw [hcommitted] at hnumber
    rcases mem_append.mp hnumber with hold | hin
    · exact Nat.lt_of_lt_of_le (h.committed number hold) hnext
    · exact (hnew number hin).2
  · exact Nat.le_trans (h.failed call (hfailed ▸ hcall)) hnext
  · rw [hfailed] at hcall
    rw [hcommitted] at hnumber
    rcases mem_append.mp hnumber with hold | hadded
    · exact h.noTrace call hcall number hold hin
    · have hlast := h.failed call hcall
      have hfirst := (hnew number hadded).1
      omega

theorem Clean.fail (h : Clean s) {calls : List FailedCall} (hnext : s.next ≤ after.next)
    (hcalls : ∀ call ∈ calls, s.next ≤ call.first ∧ call.last ≤ after.next) (hcurrent : after.current = none)
    (hcommitted : after.committed = s.committed) (hfailed : after.failed = s.failed ++ calls) : Clean after := by
  refine ⟨hcurrent, fun number hnumber ↦ ?_, fun call hcall ↦ ?_, fun call hcall number hnumber hin ↦ ?_⟩
  · exact Nat.lt_of_lt_of_le (h.committed number (hcommitted ▸ hnumber)) hnext
  · rw [hfailed] at hcall
    rcases mem_append.mp hcall with hold | hnew
    · exact Nat.le_trans (h.failed call hold) hnext
    · exact (hcalls call hnew).2
  · rw [hfailed] at hcall
    rw [hcommitted] at hnumber
    rcases mem_append.mp hcall with hold | hnew
    · exact h.noTrace call hold number hnumber hin
    · have hlt := h.committed number hnumber
      have hfirst := (hcalls call hnew).1
      omega

theorem Clean.query (h : Clean s) (client : Client) (access : Access) : Clean (s.query none client access) := by
  rw [State.query, h.current]
  exact h.commit (Nat.le_add_right _ _) (fun number ↦ (mem_writesOf s access number).mp) h.current rfl rfl

theorem Clean.inTransaction (h : Clean s) (hinside : Inside s.opened (callback s.opened).2)
    (hreturned : (callback s.opened).1 = .returned → (callback s.opened).2.failed = s.failed) :
    Clean (inTransaction none callback s).2 := by
  obtain ⟨tx, htx, new, hnew, hnumber⟩ := hinside.writes Tx.fresh rfl
  obtain ⟨calls, hcalls, hrange⟩ := hinside.failed
  change Clean (((callback s.opened).2.close s.current (callback s.opened).1).note s.next (callback s.opened).1)
  cases houtcome : (callback s.opened).1 with
  | returned =>
    refine h.commit hinside.next (fun number ↦ (hnumber number).mp) h.current ?_ (hreturned houtcome)
    change (callback s.opened).2.committed ++ ((callback s.opened).2.current.map Tx.writes).getD [] = _
    rw [htx, hinside.committed, Option.map_some, Option.getD_some, hnew]
    rfl
  | thrown error =>
    refine h.fail hinside.next (noted_range hrange) h.current hinside.committed ?_
    rw [← append_assoc]
    exact congrArg (· ++ _) hcalls

theorem Clean.eval (h : Clean s) (hisolated : Isolated body none) : Clean (eval body none s).2 := by
  induction body generalizing s with
  | skip => exact h
  | query client access => exact h.query client access
  | throw => exact h
  | seq first second ihfirst ihsecond =>
    exact (eval_of_step (ihfirst h hisolated.1) fun _ hmiddle ↦ ihsecond hmiddle hisolated.2).1
  | attempt body handler ihbody ihhandler =>
    exact (eval_of_step (ihbody h hisolated.1) fun _ hmiddle ↦ ihhandler hmiddle hisolated.2).2
  | rls wrapper body ih =>
    have hset := inside_setConfig wrapper.settings s.opened
    exact eval_rls_cases h fun _ ↦
      h.inTransaction (hset.trans (inside_eval (hset.isSome rfl) (.inl rfl))) (Isolated.failed hisolated)
  | transaction body ih =>
    exact h.inTransaction (inside_eval rfl (.inr hisolated)) fun _ ↦ (TxOnly.flat hisolated).failed

/-- A callback without calls, in a transaction whose errors are caught in the body of `withTenantRls`. -/
def caughtIn (tenantId : Uuid) (callback : Body) : Body :=
  .withTenantRls tenantId (.attempt (.transaction callback) .skip)

/-- The callback alone, in the transaction of the tenant. -/
def evalIn (tenantId : Uuid) (callback : Body) : Outcome × State :=
  eval callback (some (.tenant tenantId)) (State.start.opened.setConfig (Wrapper.tenant tenantId).settings)

theorem run_caughtIn (tenantId : Uuid) (callback : Body) : (run (caughtIn tenantId callback)).2 =
      ((evalIn tenantId callback).2.note 0 (evalIn tenantId callback).1).close none .returned := by
  have hbody : eval (.attempt (.transaction callback) .skip) (some (.tenant tenantId))
      (State.start.opened.setConfig (Wrapper.tenant tenantId).settings) =
        (.returned, (evalIn tenantId callback).2.note 0 (evalIn tenantId callback).1) := by
    have hcall : eval (.transaction callback) (some (.tenant tenantId))
        (State.start.opened.setConfig (Wrapper.tenant tenantId).settings) =
          ((evalIn tenantId callback).1, (evalIn tenantId callback).2.note 0 (evalIn tenantId callback).1) := rfl
    rw [eval, hcall]
    cases (evalIn tenantId callback).1 with
    | returned => rfl
    | thrown error => rfl
  rw [run, caughtIn, eval_rls rfl, inTransaction]
  dsimp only [Wrapper.context]
  rw [hbody]
  rfl

theorem noTrace_caughtIn {callback : Body} (hflat : Flat callback) (tenantId : Uuid) :
    (run (caughtIn tenantId callback)).2.NoTrace ↔
      ((evalIn tenantId callback).1 = .returned ∨ (evalIn tenantId callback).2.next = 0) := by
  have hset := inside_setConfig (Wrapper.tenant tenantId).settings State.start.opened
  have hinside : Inside State.start.opened (evalIn tenantId callback).2 :=
    hset.trans (inside_eval (hset.isSome rfl) (.inl rfl))
  have hfailed : (evalIn tenantId callback).2.failed = [] := hflat.failed
  obtain ⟨tx, htx, new, hnew, hnumber⟩ := hinside.writes Tx.fresh rfl
  rw [run_caughtIn]
  cases houtcome : (evalIn tenantId callback).1 with
  | returned =>
    refine iff_of_true (fun call hcall ↦ ?_) (.inl rfl)
    have hnone : call ∈ (evalIn tenantId callback).2.failed := hcall
    rw [hfailed] at hnone
    cases hnone
  | thrown error =>
    have hcommitted : (((evalIn tenantId callback).2.note 0 (.thrown error)).close none .returned).committed = new := by
      change (evalIn tenantId callback).2.committed ++ ((evalIn tenantId callback).2.current.map Tx.writes).getD [] = _
      rw [htx, hinside.committed, Option.map_some, Option.getD_some, hnew]
      rfl
    have hnoted : (((evalIn tenantId callback).2.note 0 (.thrown error)).close none .returned).failed =
        [⟨0, (evalIn tenantId callback).2.next⟩] :=
      congrArg (· ++ _) hfailed
    unfold State.NoTrace
    rw [hcommitted, hnoted]
    constructor
    · intro h
      refine .inr (Nat.eq_zero_of_not_pos fun hpos ↦ ?_)
      exact h _ mem_cons_self 0 ((hnumber 0).mpr ⟨Nat.le_refl _, hpos⟩) ⟨Nat.le_refl _, hpos⟩
    · rintro (hreturned | hzero) call hcall number hnew
      · cases hreturned
      · have hlt := ((hnumber number).mp hnew).2
        omega

/-- In a program in which no error of a call is caught inside a context, and callbacks of `$transaction` outside a
context query only through their argument, no failed transaction leaves a trace. A transaction that is caught in the
body of `withTenantRls` leaves one iff its callback throws after a write. -/
theorem noTrace_of_isolated_and_caughtIn (program : Body) (tenantId : Uuid) (callback : Body) (hflat : Flat callback) :
    (Isolated program none → (run program).2.NoTrace) ∧ ((run (caughtIn tenantId callback)).2.NoTrace ↔
        ((evalIn tenantId callback).1 = .returned ∨ (evalIn tenantId callback).2.next = 0)) :=
  ⟨fun hisolated ↦ (clean_start.eval hisolated).noTrace, noTrace_caughtIn hflat tenantId⟩

/-- A write, and then an error. -/
def writeAndThrow : Body := .seq (.query .tx .write) .throw

/-- The write of a failed transaction is committed with the transaction around it. -/
theorem caught_write_committed :
    (run (caughtIn 1 writeAndThrow)).1 = .returned ∧ 0 ∈ (run (caughtIn 1 writeAndThrow)).2.committed ∧
      ¬(run (caughtIn 1 writeAndThrow)).2.NoTrace := by
  decide

/-- Outside a context the error can be caught, and the transaction after it is committed. -/
def caughtOutside : Body :=
  .seq (.attempt (.transaction writeAndThrow) .skip) (.withTenantRls 1 (.query .prisma .write))

theorem caughtOutside_noTrace : (run caughtOutside).2.NoTrace ∧ (run caughtOutside).2.committed = [1] ∧
      (run (caughtIn 1 .throw)).2.NoTrace :=
  ⟨(noTrace_of_isolated_and_caughtIn caughtOutside 1 .throw trivial).1 ⟨⟨⟨rfl, trivial⟩, trivial⟩, trivial⟩, by decide,
    (noTrace_of_isolated_and_caughtIn caughtOutside 1 .throw trivial).2.mpr (.inr rfl)⟩

end PasswdSso.Rls
