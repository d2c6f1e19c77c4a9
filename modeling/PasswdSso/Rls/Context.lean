import PasswdSso.Common

/-!
# Row-level-security contexts

`withTenantRls` and `withBypassRls` of `src/lib/tenant-rls.ts`, the `prisma` proxy of `src/lib/prisma.ts` that folds
a nested `$transaction` into the transaction of the context, and `withUserTenantRls` and `withTeamTenantRls` of
`src/lib/tenant-context.ts`. A program is a syntax tree; the context of `AsyncLocalStorage` is an argument of its
evaluation, since `run` restores it on every exit, whereas the settings belong to the open transaction.
-/

namespace PasswdSso.Rls

inductive BypassPurpose
  | authFlow
  | crossTenantLookup
  | systemMaintenance
  | auditWrite
  | webhookDispatch
  | tokenLifecycle
  | auditAnchorPublish
  deriving DecidableEq

/-- The client of a query: the argument of the innermost callback, or the proxy. -/
inductive Client
  | tx
  | prisma
  deriving DecidableEq

inductive Access
  | read
  | write
  deriving DecidableEq

/-- Which wrapper is called, with its own argument. -/
inductive Wrapper
  | tenant (tenantId : Uuid)
  | bypass (purpose : BypassPurpose)

/-- A program; every call is awaited. -/
inductive Body
  | skip
  | query (client : Client) (access : Access)
  | throw
  | seq (first second : Body)
  /-- `try { body } catch { handler }`. -/
  | attempt (body handler : Body)
  | rls (wrapper : Wrapper) (body : Body)
  /-- `prisma.$transaction(body)`. -/
  | transaction (body : Body)

abbrev Body.withTenantRls (tenantId : Uuid) (body : Body) : Body := .rls (.tenant tenantId) body

abbrev Body.withBypassRls (purpose : BypassPurpose) (body : Body) : Body := .rls (.bypass purpose) body

/-- The settings `app.tenant_id`, `app.bypass_rls` and `app.bypass_purpose` of a transaction. -/
structure Settings where
  tenantId : Option Uuid
  bypassRls : Bool
  bypassPurpose : Option BypassPurpose
  deriving DecidableEq

structure Tx where
  settings : Settings
  writes : List Nat

/-- `set_config(…, true)` is local to a transaction. -/
def Tx.fresh : Tx := { settings := { tenantId := none, bypassRls := false, bypassPurpose := none }, writes := [] }

/-- `TenantRlsContext`: that of a tenant, or that of a bypass; its `tx` is the innermost open transaction. -/
inductive Context
  | tenant (tenantId : Uuid)
  | bypass
  deriving DecidableEq

/-- The context in which the callback runs. -/
def Wrapper.context : Wrapper → Context
  | .tenant tenantId => .tenant tenantId
  | .bypass _ => .bypass

/-- The nesting guards: `withTenantRls` in a bypass, and `withBypassRls` in the context of a tenant. -/
def Wrapper.rejectedIn : Wrapper → Option Context → Bool
  | .tenant _, some .bypass => true
  | .bypass _, some (.tenant _) => true
  | _, _ => false

structure Observation where
  context : Option Context
  settings : Option Settings
  deriving DecidableEq

/-- A `$transaction` whose callback threw, with the range of the numbers of the writes made meanwhile. -/
structure FailedCall where
  first : Nat
  last : Nat

/-- Writes are numbered as they are made; the store is what the committed ones make of it. -/
structure State where
  next : Nat
  current : Option Tx
  committed : List Nat
  observed : List Observation
  failed : List FailedCall

def State.start : State := { next := 0, current := none, committed := [], observed := [], failed := [] }

inductive Thrown
  | application
  | invalidRlsNesting
  deriving DecidableEq

inductive Outcome
  | returned
  | thrown (error : Thrown)
  deriving DecidableEq

def State.writesOf (s : State) : Access → List Nat
  | .read => []
  | .write => [s.next]

/-- A query on the open transaction `tx`. -/
def State.queryIn (context : Option Context) (access : Access) (tx : Tx) (s : State) : State :=
  { s with
    next := s.next + (s.writesOf access).length
    current := some { tx with writes := tx.writes ++ s.writesOf access }
    observed := s.observed ++ [{ context, settings := some tx.settings }] }

def State.queryAlone (context : Option Context) (access : Access) (s : State) : State :=
  { s with
    next := s.next + (s.writesOf access).length
    committed := s.committed ++ s.writesOf access
    observed := s.observed ++ [{ context, settings := none }] }

/-- In a context the proxy stands for the transaction of the context; elsewhere it is the base client. -/
def State.query (context : Option Context) (client : Client) (access : Access) (s : State) : State :=
  match s.current with
  | some tx => if client = .tx ∨ context.isSome then s.queryIn context access tx else s.queryAlone context access
  | none => s.queryAlone context access

/-- `set_config` on the open transaction. -/
def State.setConfig (set : Settings → Settings) (s : State) : State :=
  { s with current := s.current.map fun tx ↦ { tx with settings := set tx.settings } }

def State.opened (s : State) : State := { s with current := some Tx.fresh }

def State.close (outer : Option Tx) (outcome : Outcome) (s : State) : State :=
  match outcome with
  | .returned => { s with
      current := outer
      committed := s.committed ++ (s.current.map Tx.writes).getD [] }
  | .thrown _ => { s with current := outer }

def State.note (first : Nat) (outcome : Outcome) (s : State) : State :=
  match outcome with
  | .returned => s
  | .thrown _ => { s with failed := s.failed ++ [{ first, last := s.next }] }

/-- `prisma.$transaction`: in a context the callback runs in the transaction of the context. -/
def inTransaction (context : Option Context) (callback : State → Outcome × State) (s : State) : Outcome × State :=
  match context with
  | some _ =>
    let (outcome, after) := callback s
    (outcome, after.note s.next outcome)
  | none =>
    let (outcome, after) := callback s.opened
    (outcome, (after.close s.current outcome).note s.next outcome)

def nilUuid : Uuid := 0

/-- The calls of `set_config`. -/
def Wrapper.settings (wrapper : Wrapper) (settings : Settings) : Settings :=
  match wrapper with
  | .tenant tenantId => { settings with tenantId := some tenantId }
  | .bypass purpose =>
    { settings with tenantId := some nilUuid, bypassRls := true, bypassPurpose := some purpose }

def eval : Body → Option Context → State → Outcome × State
  | .skip, _, s => (.returned, s)
  | .query client access, context, s => (.returned, s.query context client access)
  | .throw, _, s => (.thrown .application, s)
  | .seq first second, context, s =>
    match eval first context s with
    | (.returned, s) => eval second context s
    | (.thrown error, s) => (.thrown error, s)
  | .attempt body handler, context, s =>
    match eval body context s with
    | (.returned, s) => (.returned, s)
    | (.thrown _, s) => eval handler context s
  | .rls wrapper body, context, s =>
    if wrapper.rejectedIn context then (.thrown .invalidRlsNesting, s)
    else inTransaction context (fun s ↦ eval body (some wrapper.context) (s.setConfig wrapper.settings)) s
  | .transaction body, context, s => inTransaction context (eval body context) s

theorem eval_rls {wrapper : Wrapper} {context : Option Context} (hcontext : wrapper.rejectedIn context = false)
    (body : Body) (s : State) :
    eval (.rls wrapper body) context s = inTransaction context (fun before ↦
      eval body (some wrapper.context) (before.setConfig wrapper.settings)) s := by
  rw [eval, hcontext]
  rfl

/-- A rejected call leaves the state as it is. -/
theorem eval_rls_cases {wrapper : Wrapper} {body : Body} {context : Option Context} {s : State}
    {motive : State → Prop} (hrejected : motive s)
    (hcall : wrapper.rejectedIn context = false → motive (inTransaction context (fun before ↦
      eval body (some wrapper.context) (before.setConfig wrapper.settings)) s).2) :
    motive (eval (.rls wrapper body) context s).2 := by
  cases hcontext : wrapper.rejectedIn context with
  | true =>
    rw [eval, hcontext]
    exact hrejected
  | false =>
    rw [eval_rls hcontext]
    exact hcall hcontext

/-- What holds after the first part and is kept by the second holds after both, however the first ends. -/
theorem eval_of_step {first second : Body} {context : Option Context} {s : State} {motive : State → Prop}
    (hfirst : motive (eval first context s).2)
    (hsecond : ∀ middle, motive middle → motive (eval second context middle).2) :
    motive (eval (.seq first second) context s).2 ∧ motive (eval (.attempt first second) context s).2 := by
  rw [eval, eval]
  rcases heq : eval first context s with ⟨outcome, middle⟩
  rw [heq] at hfirst
  cases outcome with
  | returned => exact ⟨hsecond middle hfirst, hfirst⟩
  | thrown error => exact ⟨hfirst, hsecond middle hfirst⟩

/-- A program run from the start. -/
def run (program : Body) : Outcome × State := eval program none .start

/-- `withUserTenantRls` and `withTeamTenantRls`: the lookup of the tenant, and the callback for the tenant found. -/
def withResolvedTenantRls (tenantId : Option Uuid) (body : Body) : Body :=
  .seq (.withBypassRls .crossTenantLookup (.query .tx .read)) (match tenantId with
      | none => .throw
      | some tenantId => .withTenantRls tenantId body)

end PasswdSso.Rls
