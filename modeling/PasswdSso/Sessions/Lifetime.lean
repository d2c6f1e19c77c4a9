import Mathlib.Order.Bounds.Basic
import Mathlib.Order.MinMax
import PasswdSso.Sessions.Adapter

/-!
# The lifetime of a session

The effective timeouts of a user are the least of what the tenant and the teams of the user allow. `updateSession`
bounds the new expiry by the idle and by the absolute timeout, `createSession` by the idle timeout alone, so a
session whose idle timeout is longer than its absolute one outlives the latter until the first update.
-/

namespace PasswdSso.Sessions

open ReadCommitted List Prog Store

section Limits

def allowances (base : Int) (teams : List (Option Int)) : Set Int := {base} ∪ {value | 0 < value ∧ some value ∈ teams}

theorem stricter_le (minutes : Int) (team : Option Int) : stricter minutes team ≤ minutes := by
  unfold stricter
  split
  · split_ifs
    · exact Int.min_le_left _ _
    · exact le_rfl
  · exact le_rfl

theorem isLeast_foldl_stricter (base : Int) (teams : List (Option Int)) :
    IsLeast (allowances base teams) (teams.foldl stricter base) := by
  induction teams generalizing base with
  | nil => exact ⟨.inl rfl, by rintro value (rfl | ⟨-, hmem⟩); exacts [le_rfl, (nomatch hmem)]⟩
  | cons team rest ih =>
    obtain ⟨hmem, hlower⟩ := ih (stricter base team)
    rw [foldl_cons]
    constructor
    · rcases hmem with heq | ⟨hpos, hrest⟩
      · rw [Set.mem_singleton_iff.mp heq]
        unfold stricter
        split
        · next value =>
          split_ifs with hpos
          · rcases min_choice base value with h | h <;> rw [h]
            · exact .inl rfl
            · exact .inr ⟨hpos, mem_cons_self⟩
          · exact .inl rfl
        · exact .inl rfl
      · exact .inr ⟨hpos, mem_cons_of_mem _ hrest⟩
    · rintro value (rfl | ⟨hpos, hvalue⟩)
      · exact (hlower (.inl rfl)).trans (stricter_le _ _)
      · rcases mem_cons.mp hvalue with rfl | hrest
        · refine (hlower (.inl rfl)).trans ?_
          simp only [stricter, gt_iff_lt, hpos, if_true]
          exact min_le_right _ _
        · exact hlower (.inr ⟨hpos, hrest⟩)

/-- The idle timeout of a user, in minutes: the least that the tenant and the teams allow. -/
def Store.IdleLimit (db : Store) (userId : Uuid) (minutes : Int) : Prop :=
  ∃ user tenant, db.userOf userId = some user ∧ db.tenantOf user.tenantId = some tenant ∧
    IsLeast (allowances tenant.sessionIdleTimeoutMinutes
      (user.teamPolicies.map (·.bind TeamPolicy.sessionIdleTimeoutMinutes))) minutes

/-- The absolute timeout of a user, in minutes. -/
def Store.AbsoluteLimit (db : Store) (userId : Uuid) (minutes : Int) : Prop :=
  ∃ user tenant, db.userOf userId = some user ∧ db.tenantOf user.tenantId = some tenant ∧
    IsLeast (allowances tenant.sessionAbsoluteTimeoutMinutes
      (user.teamPolicies.map (·.bind TeamPolicy.sessionAbsoluteTimeoutMinutes))) minutes

def Store.effective (db : Store) (userId : Uuid) : ResolvedSessionTimeouts :=
  (db.timeoutsOf userId).getD defensiveTimeouts

variable {db : Store} {userId : Uuid} {minutes : Int}

theorem Store.IdleLimit.eq (h : db.IdleLimit userId minutes) :
    minutes = (db.effective userId).idleMinutes := by
  obtain ⟨user, tenant, huser, htenant, hleast⟩ := h
  rw [hleast.unique (isLeast_foldl_stricter _ _), foldl_map]
  simp [effective, timeoutsOf, huser, htenant]

theorem Store.AbsoluteLimit.eq (h : db.AbsoluteLimit userId minutes) :
    minutes = (db.effective userId).absoluteMinutes := by
  obtain ⟨user, tenant, huser, htenant, hleast⟩ := h
  rw [hleast.unique (isLeast_foldl_stricter _ _), foldl_map]
  simp [effective, timeoutsOf, huser, htenant]

end Limits

section Calls

variable {hashSessionToken : String → String} {start db db' : Store}

def SameSettings (start db : Store) : Prop := db.users = start.users ∧ db.tenants = start.tenants

theorem SameSettings.timeoutsOf (h : SameSettings start db) (userId : Uuid) :
    db.timeoutsOf userId = start.timeoutsOf userId := by
  unfold Store.timeoutsOf Store.userOf Store.tenantOf
  rw [h.1, h.2]

def CacheSound (start db : Store) : Prop :=
  ∀ entry ∈ db.timeouts, start.timeoutsOf entry.userId = some entry.timeouts

variable {now : Millis} {entry : CacheEntry} {current : Session}

theorem mem_makeRoom {entries : List CacheEntry} (h : entry ∈ makeRoom now entries) : entry ∈ entries := by
  unfold makeRoom at h
  dsimp only at h
  split_ifs at h
  · exact (mem_filter.mp (mem_of_mem_tail h)).1
  · exact (mem_filter.mp h).1
  · exact h

theorem mem_setEntry {other : CacheEntry} {entries : List CacheEntry} (h : other ∈ setEntry entry entries) :
    other ∈ entries ∨ other = entry := by
  unfold setEntry at h
  split_ifs at h
  · obtain ⟨old, hold, rfl⟩ := mem_map.mp h
    split_ifs
    · exact .inr rfl
    · exact .inl hold
  · simpa using h

theorem CacheSound.cacheTimeouts (h : CacheSound start db)
    (hentry : start.timeoutsOf entry.userId = some entry.timeouts) :
    CacheSound start (db.cacheTimeouts now entry) := by
  intro other hother
  rcases mem_setEntry hother with hold | rfl
  · exact h other (mem_makeRoom hold)
  · exact hentry

theorem CacheSound.dropTimeouts (h : CacheSound start db) (userId : Uuid) :
    CacheSound start (db.dropTimeouts userId) :=
  fun entry hentry ↦ h entry (mem_filter.mp (show entry ∈ db.timeouts.filter _ from hentry)).1

/-- What resolving the timeouts leaves: the tables, and a cache of what the settings give. -/
structure Resolved (start : Store) (w w' : World Store Event) : Prop where
  settings : SameSettings start w'.db
  cache : CacheSound start w'.db
  sessions : w'.db.sessions = w.db.sessions

def Fetches (pending : Store → Store) (fetch : ∀ β : Type, (Store → β) → Server β) : Prop :=
  ∀ (β : Type) (f : Store → β) (w : World Store Event), (fetch β f).exec pending w = (f (pending w.db), pending, w)

def OnlySessions (pending : Store → Store) : Prop :=
  ∀ db, (pending db).users = db.users ∧ (pending db).tenants = db.tenants ∧ (pending db).timeouts = db.timeouts

variable {pending : Store → Store} {fetch : ∀ β : Type, (Store → β) → Server β} {w : World Store Event}

theorem OnlySessions.timeoutsOf (h : OnlySessions pending) (db : Store) (userId : Uuid) :
    (pending db).timeoutsOf userId = db.timeoutsOf userId := by
  unfold Store.timeoutsOf Store.userOf Store.tenantOf
  rw [(h db).1, (h db).2.1]

theorem exec_fetchTimeouts (hfetch : Fetches pending fetch) (hpending : OnlySessions pending)
    (hsettings : SameSettings start w.db) (hcache : CacheSound start w.db) (userId : Uuid) (now : Millis) :
    ∃ w', (fetchTimeouts fetch userId now).exec pending w = (start.effective userId, pending, w') ∧
      Resolved start w w' := by
  have htimeouts : (pending w.db).timeoutsOf userId = start.timeoutsOf userId :=
    (hpending.timeoutsOf _ _).trans (hsettings.timeoutsOf userId)
  rw [fetchTimeouts, exec_bind, hfetch]
  dsimp only
  rw [htimeouts, effective]
  cases hresolved : start.timeoutsOf userId with
  | none => exact ⟨w, rfl, hsettings, hcache, rfl⟩
  | some timeouts => exact ⟨_, rfl, hsettings, hcache.cacheTimeouts hresolved, rfl⟩

theorem exec_resolveEffectiveSessionTimeouts (hfetch : Fetches pending fetch) (hpending : OnlySessions pending)
    (hsettings : SameSettings start w.db) (hcache : CacheSound start w.db) (userId : Uuid) (now : Millis) :
    ∃ w', (resolveEffectiveSessionTimeouts fetch userId now).exec pending w =
      (start.effective userId, pending, w') ∧ Resolved start w w' := by
  rw [resolveEffectiveSessionTimeouts, exec_bind, hfetch]
  dsimp only
  rw [cached, (hpending w.db).2.2]
  cases hentry : w.db.timeouts.find? (·.userId = userId) with
  | none => exact exec_fetchTimeouts hfetch hpending hsettings hcache userId now
  | some entry =>
    dsimp only
    have huser : entry.userId = userId := by simpa using find?_some hentry
    split_ifs
    · refine ⟨w, ?_, hsettings, hcache, rfl⟩
      have hsound := hcache entry (mem_of_find?_eq_some hentry)
      rw [huser] at hsound
      rw [effective, hsound]
      rfl
    · obtain ⟨w', hw', hresolved⟩ := exec_fetchTimeouts (w := w.commit .cached (w.db.dropTimeouts userId)) hfetch
        hpending hsettings (hcache.dropTimeouts userId) userId now
      exact ⟨w', hw', hresolved.settings, hresolved.cache, hresolved.sessions⟩

theorem fetches_read : Fetches pending fun _ f ↦ Prog.read f := fun _ _ _ ↦ rfl

theorem fetches_readOnly : Fetches id fun _ f ↦ Prog.readOnly f := fun _ _ _ ↦ rfl

/-- What is true of the store at all times: the settings stay, the cache holds what they give, the keys and the
digests are unique, and every session ends within the absolute timeout. -/
structure Sound (start db : Store) : Prop where
  settings : SameSettings start db
  cache : CacheSound start db
  keys : sessionTable.KeysUnique db
  tokens : (db.sessions.map Session.sessionToken).Nodup
  bounded : ∀ session ∈ db.sessions,
    session.expires ≤ session.createdAt + (start.effective session.userId).absoluteMinutes * msPerMinute

theorem Sound.of_resolved {w w' : World Store Event} (h : Sound start w.db) (hresolved : Resolved start w w') :
    Sound start w'.db :=
  ⟨hresolved.settings, hresolved.cache, h.keys.congr hresolved.sessions, hresolved.sessions ▸ h.tokens,
    hresolved.sessions ▸ h.bounded⟩

theorem sessions_remove (keys : List Uuid) (db : Store) :
    (sessionTable.remove keys db).sessions = db.sessions.filter fun row ↦ row.id ∉ keys :=
  sessionTable.rows_remove keys

theorem Sound.remove (h : Sound start db) (keys : List Uuid) : Sound start (sessionTable.remove keys db) := by
  refine ⟨h.settings, h.cache, h.keys.remove, ?_, fun session hsession ↦ ?_⟩
  · rw [sessions_remove]
    exact h.tokens.sublist (filter_sublist.map _)
  · rw [sessions_remove] at hsession
    exact h.bounded session (mem_filter.mp hsession).1

variable {session : Session}

theorem Sound.append (h : Sound start db) (hkey : ∀ other ∈ db.sessions, other.id ≠ session.id)
    (hfresh : ∀ other ∈ db.sessions, other.sessionToken ≠ session.sessionToken)
    (hbounded : session.expires ≤
      session.createdAt + (start.effective session.userId).absoluteMinutes * msPerMinute) :
    Sound start (sessionTable.append [session] db) := by
  have hrows : (sessionTable.append [session] db).sessions = db.sessions ++ [session] :=
    sessionTable.rows_append [session]
  refine ⟨h.settings, h.cache, h.keys.append hkey, ?_, fun other hother ↦ ?_⟩
  · rw [hrows]
    exact nodup_map_append h.tokens hfresh
  · rw [hrows] at hother
    rcases mem_append.mp hother with hold | hnew
    · exact h.bounded other hold
    · rw [mem_singleton.mp hnew]
      exact hbounded

theorem Sound.modify (h : Sound start db) {keys : List Uuid} {f : Session → Session}
    (hid : ∀ session, (f session).id = session.id)
    (hf : ∀ session ∈ db.sessions, session.id ∈ keys → (f session).sessionToken = session.sessionToken ∧
      (f session).expires ≤
        (f session).createdAt + (start.effective (f session).userId).absoluteMinutes * msPerMinute) :
    Sound start (sessionTable.modify keys f db) := by
  have hrows : (sessionTable.modify keys f db).sessions =
      db.sessions.map fun row ↦ if row.id ∈ keys then f row else row := sessionTable.rows_modify keys f
  refine ⟨h.settings, h.cache, h.keys.modify hid, ?_, fun session hsession ↦ ?_⟩
  · rw [hrows, map_map]
    refine (congrArg List.Nodup (map_congr_left fun session hsession ↦ ?_)).mp h.tokens
    dsimp only [Function.comp_apply]
    split_ifs with hkey
    · exact (hf session hsession hkey).1.symm
    · rfl
  · rw [hrows] at hsession
    obtain ⟨old, hold, rfl⟩ := mem_map.mp hsession
    split_ifs with hkey
    · exact (hf old hold hkey).2
    · exact h.bounded old hold

/-- A call of the adapter. -/
inductive Call
  | create (req : CreateSession)
  | update (req : UpdateSession)

/-- The store after a call. -/
def Call.run (hashSessionToken : String → String) (db : Store) : Call → Store
  | .create req => ((createSession hashSessionToken req).exec id ⟨db, []⟩).2.2.db
  | .update req => ((updateSession hashSessionToken req).exec id ⟨db, []⟩).2.2.db

/-- A new session would not outlive the absolute timeout. -/
def Call.WithinAbsolute (start : Store) : Call → Prop
  | .create req => req.now + (start.effective req.userId).idleMinutes * msPerMinute ≤
      req.createdAt + (start.effective req.userId).absoluteMinutes * msPerMinute
  | .update _ => True

instance (start : Store) : DecidablePred (Call.WithinAbsolute start)
  | .create _ => Int.decLe ..
  | .update _ => instDecidableTrue

theorem exec_evict (sessions : List Session) (w : World Store Event) :
    ∃ keys, (evict sessions).exec id w = ((), sessionTable.remove keys, w) := by
  cases sessions with
  | nil => exact ⟨[], by rw [Table.remove_nil]; rfl⟩
  | cons first rest => exact ⟨_, rfl⟩

theorem onlySessions_remove (keys : List Uuid) : OnlySessions (sessionTable.remove keys) :=
  fun _ ↦ ⟨rfl, rfl, rfl⟩

theorem exec_createSessionInTx (hashSessionToken : String → String) (h : Sound start w.db) (req : CreateSession) :
    ∃ result pending w', (createSessionInTx hashSessionToken req).exec id w = (result, pending, w') ∧
      Sound start w'.db ∧ (∀ created, result = .ok created → (Call.create req).WithinAbsolute start →
        Sound start (pending w'.db)) := by
  rw [createSessionInTx, exec_bind, exec_read]
  dsimp only [id]
  cases huser : w.db.userOf req.userId with
  | none => exact ⟨_, _, _, rfl, h, by simp⟩
  | some user =>
  dsimp only
  rw [exec_bind, exec_lockingRead]
  dsimp only [id]
  rw [exec_bind, exec_read]
  dsimp only [id]
  cases htenant : w.db.tenantOf user.tenantId with
  | none => exact ⟨_, _, _, rfl, h, by simp⟩
  | some tenant =>
  dsimp only
  rw [exec_bind, exec_read]
  dsimp only [id]
  obtain ⟨keys, hkeys⟩ := exec_evict
    (toEvict tenant.maxConcurrentSessions (w.db.activeSessions req.userId user.tenantId req.activeAt)) w
  obtain ⟨w', hw', hresolved⟩ := exec_resolveEffectiveSessionTimeouts fetches_read (onlySessions_remove keys)
    h.settings h.cache req.userId req.resolvedAt
  have hsound := h.of_resolved hresolved
  rw [exec_bind, hkeys]
  dsimp only
  rw [exec_bind, hw']
  dsimp only
  rw [Prog.andThen, exec_bind, insertSession, exec_bind, exec_insert]
  dsimp only
  split_ifs with hclash
  · exact ⟨_, _, _, rfl, hsound, by simp⟩
  · refine ⟨_, _, _, rfl, hsound, fun _ _ hwithin ↦ ?_⟩
    refine (hsound.remove keys).append (fun other hother heq ↦ hclash ?_) (fun other hother heq ↦ hclash ?_) hwithin
    · exact any_eq_true.mpr ⟨other, hother, by simp [heq]⟩
    · exact any_eq_true.mpr ⟨other, hother, by simp [heq]⟩

theorem Sound.create (h : Sound start db) (req : CreateSession) (hwithin : (Call.create req).WithinAbsolute start) :
    Sound start (Call.run hashSessionToken db (.create req)) := by
  obtain ⟨result, pending, w', hexec, hsound, hcreated⟩ :=
    exec_createSessionInTx (w := ⟨db, []⟩) hashSessionToken h req
  rw [Call.run, createSession]
  cases result with
  | error thrown =>
    rw [exec_transaction_error _ _ (by rw [hexec]), hexec]
    exact hsound
  | ok created =>
    rw [exec_transaction_ok _ _ (by rw [hexec]), hexec]
    exact hcreated created rfl hwithin

def TimedOut (now : Millis) (timeouts : ResolvedSessionTimeouts) (session : Session) : Prop :=
  now > session.lastActiveAt + timeouts.idleMinutes * msPerMinute ∨
    now > session.createdAt + timeouts.absoluteMinutes * msPerMinute

theorem run_update_none (req : UpdateSession)
    (hcurrent : db.sessions.find? (·.sessionToken = hashSessionToken req.sessionToken) = none) :
    Call.run hashSessionToken db (.update req) = db := by
  rw [Call.run, updateSession, exec_bind, exec_readOnly]
  dsimp only [id]
  rw [hcurrent]
  rfl

theorem run_update_some (h : Sound start db) (req : UpdateSession)
    (hcurrent : db.sessions.find? (·.sessionToken = hashSessionToken req.sessionToken) = some current) :
    ∃ db', Sound start db' ∧ db'.sessions = db.sessions ∧
      (TimedOut req.now (start.effective current.userId) current → Call.run hashSessionToken db (.update req) =
        sessionTable.remove (sessionTable.keysWhere (·.sessionToken = hashSessionToken req.sessionToken) db') db') ∧
      (¬TimedOut req.now (start.effective current.userId) current → Call.run hashSessionToken db (.update req) =
        sessionTable.modify (sessionTable.keysWhere (·.sessionToken = hashSessionToken req.sessionToken) db')
          (fun session ↦ { session with
            expires := effectiveExpires req.now (start.effective current.userId) current
            lastActiveAt := req.activeAt }) db') := by
  obtain ⟨w', hw', hresolved⟩ := exec_resolveEffectiveSessionTimeouts (w := ⟨db, []⟩) fetches_readOnly
    (fun _ ↦ ⟨rfl, rfl, rfl⟩) h.settings h.cache current.userId req.resolvedAt
  refine ⟨w'.db, h.of_resolved hresolved, hresolved.sessions, ?_⟩
  rw [Call.run, updateSession, exec_bind, exec_readOnly]
  dsimp only [id]
  rw [hcurrent]
  dsimp only
  rw [exec_bind, hw', ← sessionTable.matched_keysWhere]
  dsimp only
  by_cases hidle : req.now > current.lastActiveAt + (start.effective current.userId).idleMinutes * msPerMinute
  · rw [if_pos hidle]
    exact ⟨fun _ ↦ rfl, fun hin ↦ absurd (.inl hidle) hin⟩
  · rw [if_neg hidle]
    by_cases habsolute : req.now > current.createdAt + (start.effective current.userId).absoluteMinutes * msPerMinute
    · rw [if_pos habsolute]
      exact ⟨fun _ ↦ rfl, fun hin ↦ absurd (.inr habsolute) hin⟩
    · rw [if_neg habsolute]
      exact ⟨fun hout ↦ absurd hout (not_or.mpr ⟨hidle, habsolute⟩), fun _ ↦ rfl⟩

theorem Sound.eq_of_mem_keysWhere (h : Sound start db) {digest : String}
    (hcurrent : db.sessions.find? (·.sessionToken = digest) = some current) (hsession : session ∈ db.sessions)
    (hkey : session.id ∈ sessionTable.keysWhere (·.sessionToken = digest) db) : session = current := by
  obtain ⟨other, hother, htoken, hid⟩ := Table.mem_keysWhere.mp hkey
  obtain rfl : session = other := h.keys.eq_of_key_eq hsession hother hid.symm
  have hdigest : current.sessionToken = digest := by simpa using find?_some hcurrent
  exact inj_on_of_nodup_map h.tokens hsession (mem_of_find?_eq_some hcurrent)
    ((of_decide_eq_true htoken).trans hdigest.symm)

theorem Sound.update (h : Sound start db) (req : UpdateSession) :
    Sound start (Call.run hashSessionToken db (.update req)) := by
  cases hcurrent : db.sessions.find? (·.sessionToken = hashSessionToken req.sessionToken) with
  | none =>
    rw [run_update_none req hcurrent]
    exact h
  | some current =>
    obtain ⟨db', hsound, hsessions, hout, hin⟩ := run_update_some h req hcurrent
    by_cases htimedOut : TimedOut req.now (start.effective current.userId) current
    · rw [hout htimedOut]
      exact hsound.remove _
    · rw [hin htimedOut]
      refine hsound.modify (fun _ ↦ rfl) fun session hsession hkey ↦ ⟨rfl, ?_⟩
      rw [hsound.eq_of_mem_keysWhere (hsessions ▸ hcurrent) hsession hkey]
      exact min_le_right _ _

theorem not_timedOut_of_kept (h : Sound start db) (req : UpdateSession) {kept : Session}
    (hsession : session ∈ db.sessions) (htoken : session.sessionToken = hashSessionToken req.sessionToken)
    (hkept : kept ∈ (Call.run hashSessionToken db (.update req)).sessions) (hsame : kept.id = session.id) :
    ¬TimedOut req.now (start.effective session.userId) session := by
  cases hcurrent : db.sessions.find? (·.sessionToken = hashSessionToken req.sessionToken) with
  | none =>
    exact absurd (decide_eq_true htoken) (find?_eq_none.mp hcurrent session hsession)
  | some current =>
    obtain ⟨db', hsound, hsessions, hout, -⟩ := run_update_some h req hcurrent
    have hmem : session ∈ db'.sessions := hsessions ▸ hsession
    have hkey : session.id ∈ sessionTable.keysWhere (·.sessionToken = hashSessionToken req.sessionToken) db' :=
      Table.mem_keysWhere.mpr ⟨session, hmem, decide_eq_true htoken, rfl⟩
    rw [hsound.eq_of_mem_keysWhere (hsessions ▸ hcurrent) hmem hkey]
    intro htimedOut
    rw [hout htimedOut, sessions_remove] at hkept
    refine of_decide_eq_true (mem_filter.mp hkept).2 ?_
    rw [hsame]
    exact hkey

/-- The store after a sequence of calls. -/
def runCalls (hashSessionToken : String → String) (start : Store) (calls : List Call) : Store :=
  calls.foldl (Call.run hashSessionToken) start

theorem Sound.runCalls {calls : List Call} (h : Sound start db) (hwithin : ∀ call ∈ calls, call.WithinAbsolute start) :
    Sound start (runCalls hashSessionToken db calls) := by
  induction calls generalizing db with
  | nil => exact h
  | cons call rest ih =>
    refine ih ?_ fun other hother ↦ hwithin other (mem_cons_of_mem _ hother)
    cases call with
    | create req => exact h.create req (hwithin _ mem_cons_self)
    | update req => exact h.update req

/-- If no session is created with an idle timeout beyond the absolute one, then after every sequence of calls all
sessions end within the absolute timeout, and an update keeps a session only within both. -/
theorem lifetime_of_withinAbsolute (h : Sound start start) (calls : List Call)
    (hwithin : ∀ call ∈ calls, call.WithinAbsolute start) :
    ∀ session ∈ (runCalls hashSessionToken start calls).sessions,
      (∀ minutes, start.AbsoluteLimit session.userId minutes →
        session.expires ≤ session.createdAt + minutes * msPerMinute) ∧
      ∀ req : UpdateSession, hashSessionToken req.sessionToken = session.sessionToken →
        (∃ kept ∈ (runCalls hashSessionToken start (calls ++ [.update req])).sessions, kept.id = session.id) →
        (∀ minutes, start.IdleLimit session.userId minutes → req.now - session.lastActiveAt ≤ minutes * msPerMinute) ∧
        ∀ minutes, start.AbsoluteLimit session.userId minutes →
          req.now - session.createdAt ≤ minutes * msPerMinute := by
  intro session hsession
  have hsound : Sound start (runCalls hashSessionToken start calls) := h.runCalls hwithin
  constructor
  · intro minutes hlimit
    rw [hlimit.eq]
    exact hsound.bounded session hsession
  · rintro req htoken ⟨kept, hkept, hsame⟩
    rw [runCalls, List.foldl_append] at hkept
    have hin := not_timedOut_of_kept hsound req hsession htoken.symm hkept hsame
    constructor
    · intro minutes hlimit
      rw [hlimit.eq]
      exact Int.sub_left_le_of_le_add (not_lt.mp fun hout ↦ hin (.inl hout))
    · intro minutes hlimit
      rw [hlimit.eq]
      exact Int.sub_left_le_of_le_add (not_lt.mp fun hout ↦ hin (.inr hout))

end Calls

/-- A user of a tenant with the given timeouts and without teams. -/
def storeWith (idleMinutes absoluteMinutes : Int) : Store where
  users := [{ id := 1, tenantId := 2, teamPolicies := [] }]
  tenants := [{
    id := 2
    isBootstrap := true
    maxConcurrentSessions := none
    sessionIdleTimeoutMinutes := idleMinutes
    sessionAbsoluteTimeoutMinutes := absoluteMinutes }]
  sessions := []
  timeouts := []

theorem idleLimit_storeWith (idle absolute : Int) : (storeWith idle absolute).IdleLimit 1 idle :=
  ⟨_, _, rfl, rfl, isLeast_foldl_stricter idle []⟩

theorem absoluteLimit_storeWith (idle absolute : Int) : (storeWith idle absolute).AbsoluteLimit 1 absolute :=
  ⟨_, _, rfl, rfl, isLeast_foldl_stricter absolute []⟩

theorem sound_storeWith (idle absolute : Int) : Sound (storeWith idle absolute) (storeWith idle absolute) :=
  ⟨⟨rfl, rfl⟩, fun _ h ↦ absurd h not_mem_nil, nodup_nil, nodup_nil,
    fun _ h ↦ absurd h not_mem_nil⟩

/-- A sign-in at time zero. -/
def signIn : CreateSession where
  sessionId := 3
  sessionToken := "token"
  userId := 1
  ip := none
  userAgent := none
  provider := some "google"
  activeAt := 0
  resolvedAt := 0
  now := 0
  createdAt := 0

def signInUpdate : UpdateSession where
  sessionToken := "token"
  resolvedAt := 120000
  now := 120000
  activeAt := 120000

/-- With an idle timeout of ten minutes and an absolute one of five, a new session lives for ten. -/
theorem created_session_outlives_absolute : ∃ session ∈ (runCalls id (storeWith 10 5) [.create signIn]).sessions,
      ∃ minutes, (storeWith 10 5).AbsoluteLimit session.userId minutes ∧
        session.createdAt + minutes * msPerMinute < session.expires :=
  ⟨signIn.row id 2 ⟨10, 5, some 2⟩, by decide +kernel, 5, absoluteLimit_storeWith 10 5, by decide⟩

/-- With the timeouts the other way round, a sign-in and an update after two minutes. -/
theorem lifetime_signIn_and_update : ∃ session ∈ (runCalls id (storeWith 5 10) [.create signIn]).sessions,
      session.expires ≤ session.createdAt + 10 * msPerMinute ∧
        120000 - session.lastActiveAt ≤ 5 * msPerMinute ∧ 120000 - session.createdAt ≤ 10 * msPerMinute := by
  have hmem : signIn.row id 2 ⟨5, 10, some 2⟩ ∈ (runCalls id (storeWith 5 10) [.create signIn]).sessions := by
    decide +kernel
  obtain ⟨hexpires, hupdate⟩ := lifetime_of_withinAbsolute (sound_storeWith 5 10) [.create signIn] (by decide) _ hmem
  obtain ⟨hidle, habsolute⟩ := hupdate signInUpdate rfl (by decide +kernel)
  exact ⟨_, hmem, hexpires 10 (absoluteLimit_storeWith 5 10), hidle 5 (idleLimit_storeWith 5 10),
    habsolute 10 (absoluteLimit_storeWith 5 10)⟩

end PasswdSso.Sessions
