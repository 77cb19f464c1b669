import Tstlan.Deactivation
import Tstlan.Mediation

/-! # Who a CSRF token speaks for

A session has one user and one CSRF token for as long as it is stored, and login and `/auth/me` answer with
both. What one request does to the sessions and users, and to whom an identity in a response belongs. -/
namespace Tstlan
open Foundations
set_option autoImplicit false

namespace Database
variable {db db' db'' : Database} {new : Option (String × String)}

/-- Every session with this CSRF token is one of a user with this login and role. -/
def Speaks (db : Database) (csrfToken login : String) (role : Role) : Prop :=
  ∀ token session, db.sessions.get? token = some session → session.csrfToken = csrfToken →
    ∃ user, db.users.get? session.userId = some user ∧ user.login = login ∧ user.role = role

/-- The CSRF tokens of the sessions are among those issued, and no two users share one. -/
structure Ledger (db : Database) (issued : List String) : Prop where
  issued : ∀ token session, db.sessions.get? token = some session → session.csrfToken ∈ issued
  distinct : ∀ token session token' session', db.sessions.get? token = some session →
    db.sessions.get? token' = some session' → session.csrfToken = session'.csrfToken → session.userId = session'.userId

/-- Users stay who they are, sessions keep their user and CSRF token, and a new session has the new tokens. -/
structure Grows (new : Option (String × String)) (db db' : Database) : Prop where
  users : ∀ id user, db.users.get? id = some user →
    ∃ user', db'.users.get? id = some user' ∧ user'.login = user.login ∧ user'.role = user.role
  sessions : ∀ token session', db'.sessions.get? token = some session' →
    (∃ session, db.sessions.get? token = some session ∧ session.csrfToken = session'.csrfToken ∧
      session.userId = session'.userId) ∨ new = some (token, session'.csrfToken)

theorem Grows.refl (new : Option (String × String)) (db : Database) : Grows new db db :=
  ⟨fun _ user h => ⟨user, h, rfl, rfl⟩, fun _ session h => .inl ⟨session, h, rfl, rfl⟩⟩

theorem Grows.trans (h : Grows new db db') (h' : Grows new db' db'') : Grows new db db'' := by
  constructor
  · intro id user huser
    obtain ⟨user', huser', hlogin, hrole⟩ := h.users id user huser
    obtain ⟨user'', huser'', hlogin', hrole'⟩ := h'.users id user' huser'
    exact ⟨user'', huser'', hlogin'.trans hlogin, hrole'.trans hrole⟩
  · intro token session'' hs
    refine (h'.sessions token session'' hs).elim (fun ⟨session', hs', hcsrf', hid'⟩ => ?_) .inr
    refine (h.sessions token session' hs').elim (fun ⟨session, hs, hcsrf, hid⟩ => .inl ?_) (fun hnew => .inr ?_)
    · exact ⟨session, hs, hcsrf.trans hcsrf', hid.trans hid'⟩
    · rw [← hcsrf']
      exact hnew

/-- The users are those of before. -/
theorem Grows.of_users (husers : db'.users = db.users)
    (hsessions : ∀ token session', db'.sessions.get? token = some session' →
      (∃ session, db.sessions.get? token = some session ∧ session.csrfToken = session'.csrfToken ∧
        session.userId = session'.userId) ∨ new = some (token, session'.csrfToken)) : Grows new db db' :=
  ⟨fun _ user h => ⟨user, husers ▸ h, rfl, rfl⟩, hsessions⟩

theorem Grows.speaks (h : Grows new db db') {csrfToken login : String} {role : Role}
    (hspeaks : db.Speaks csrfToken login role) (hne : new.map Prod.snd ≠ some csrfToken) :
    db'.Speaks csrfToken login role := by
  intro token session' hs hcsrf
  refine (h.sessions token session' hs).elim (fun ⟨session, hold, hsame, hid⟩ => ?_) (fun hnew => ?_)
  · obtain ⟨user, huser, hlogin, hrole⟩ := hspeaks token session hold (hsame.trans hcsrf)
    obtain ⟨user', huser', hlogin', hrole'⟩ := h.users _ user huser
    rw [hid] at huser'
    exact ⟨user', huser', hlogin'.trans hlogin, hrole'.trans hrole⟩
  · exact absurd (by rw [hnew, Option.map_some, hcsrf]) hne

/-- A CSRF token that has not been issued before keeps the ledger. -/
theorem Grows.ledger (h : Grows new db db') {issued : List String} (hledger : db.Ledger issued)
    (hfresh : ∀ csrfToken, new.map Prod.snd = some csrfToken → csrfToken ∉ issued) :
    db'.Ledger ((new.map Prod.snd).toList ++ issued) := by
  have hold : ∀ {token token' : String} {session session' : Session}, db.sessions.get? token = some session →
      session.csrfToken = session'.csrfToken → new ≠ some (token', session'.csrfToken) :=
    fun hs he hnew => hfresh _ (by rw [hnew, Option.map_some]) (he ▸ hledger.issued _ _ hs)
  constructor
  · intro token session' hs
    refine List.mem_append.mpr ((h.sessions token session' hs).elim (fun ⟨session, hs, hcsrf, _⟩ => .inr ?_)
      (fun hnew => .inl ?_))
    · exact hcsrf ▸ hledger.issued token session hs
    · rw [hnew]
      exact List.mem_singleton_self _
  · intro token s token' s' hs hs' he
    refine (h.sessions token s hs).elim (fun ⟨before, hbefore, hcsrf, hid⟩ => ?_) (fun hnew => ?_)
    · refine (h.sessions token' s' hs').elim (fun ⟨before', hbefore', hcsrf', hid'⟩ => ?_) (fun hnew => ?_)
      · rw [← hid, ← hid']
        exact hledger.distinct _ _ _ _ hbefore hbefore' (hcsrf.trans (he.trans hcsrf'.symm))
      · exact absurd hnew (hold hbefore (hcsrf.trans he))
    · refine (h.sessions token' s' hs').elim (fun ⟨before', hbefore', hcsrf', _⟩ => ?_) (fun hnew' => ?_)
      · exact absurd hnew (hold hbefore' (hcsrf'.trans he.symm))
      · have htoken : token = token' := congrArg Prod.fst (Option.some.inj (hnew.symm.trans hnew'))
        rw [← htoken, hs] at hs'
        rw [Option.some.inj hs']

/-- A stored session's token speaks for its user. -/
theorem Ledger.speaks {issued : List String} (h : db.Ledger issued) {token : String} {session : Session} {user : User}
    (hs : db.sessions.get? token = some session) (huser : db.users.get? session.userId = some user) :
    db.Speaks session.csrfToken user.login user.role := by
  intro token' session' hs' hcsrf
  refine ⟨user, ?_, rfl, rfl⟩
  rw [h.distinct _ _ _ _ hs' hs hcsrf]
  exact huser

/-! ## What changes users -/

theorem grows_setActive (db : Database) (userId : ℤ) (active : Bool) :
    Grows none db (db.setActive userId active) := by
  constructor
  · intro id user huser
    rw [setActive_users, huser, Option.map_some]
    refine ⟨_, rfl, ?_⟩
    split <;> exact ⟨rfl, rfl⟩
  · intro token session hs
    rw [setActive_sessions] at hs
    exact .inl ⟨session, hs, rfl, rfl⟩

theorem grows_createUser (root : LogLevel) (hasher : PasswordHasher) (env : AuthEnv) (login password : String)
    (role : Role) (db : Database) :
    Grows none db (final ((Auth.createUser root hasher env login password role).run db)) := by
  refine (Auth.createUser_cases root hasher env login password role db).elim (fun hsame => ?_) (fun hnew => ?_)
  · rw [hsame]
    exact .refl none db
  · obtain ⟨added, hfresh, -, htables⟩ := hnew
    constructor
    · intro id user huser
      have hne : id ≠ added.id := by
        intro he
        rw [he, hfresh] at huser
        cases huser
      refine ⟨user, ?_, rfl, rfl⟩
      rw [htables]
      exact (Dict.get?_set_of_ne _ _ hne).trans huser
    · intro token session hs
      rw [htables] at hs
      exact .inl ⟨session, hs, rfl, rfl⟩

end Database

/-! ## Login, logout and `/auth/me` -/

/-- `response.ok`. -/
def Response.ok (response : Response) : Bool := 200 ≤ response.status ∧ response.status ≤ 299

theorem ok_unrouted (path : String) : (unrouted path).ok = false := by
  have hstatus := unrouted_status path
  simp only [List.mem_cons, List.not_mem_nil, or_false] at hstatus
  rw [Response.ok, decide_eq_false_iff_not]
  omega

section
variable {β σ : Type} {env : RequestEnv} {s t : App σ} {request : Request β}

namespace AuthRoutes

/-- A login is refused, or it stores a new session and answers with its user and CSRF token. -/
theorem login_run (lib : Library β) (settings : Settings) (env : RequestEnv) (request : Request β) (s : App σ) :
    (∃ e, (login lib settings env request).run s = .error e s ∧
        ∀ response, e.response lib.repr = some response → response.ok = false) ∨
      ∃ user db, s.db.users.get? user.id = some user ∧ s.db.sessions.get? env.token = none ∧
        db.toTables = { s.db.toTables with
          sessions := s.db.sessions.set env.token (Auth.newSession env.toAuthEnv user settings.ttl) } ∧
        (login lib settings env request).run s =
          .ok (setSessionCookie settings (identity user (some env.csrfToken)) env.token) { s with db := db } := by
  have hhttp : ∀ (status : ℕ) (detail : String), ¬ (200 ≤ status ∧ status ≤ 299) →
      ∀ response, (RouteError.http status detail).response lib.repr = some response → response.ok = false := by
    intro status detail hstatus response h
    cases h
    exact decide_eq_false hstatus
  have hnone : ∀ e : RouteError, e.response lib.repr = none →
      ∀ response, e.response lib.repr = some response → response.ok = false := by
    intro e he response h
    rw [he] at h
    cases h
  unfold login
  cases hbody : request.body with
  | none =>
    refine .inl ⟨_, run_bind_error (e := .http 422 "json_invalid") ?_, hhttp 422 _ (by omega)⟩
    rw [decodedBody, hbody]
    rfl
  | some body =>
    have hdecoded : (decodedBody request : AppM σ β).run s = .ok body s := by
      rw [decodedBody, hbody]
      rfl
    rw [run_bind_ok hdecoded]
    cases hpayload : lib.loginRequest body with
    | none => exact .inl ⟨_, run_bind_error (e := .http 422 "validation error") rfl, hhttp 422 _ (by omega)⟩
    | some payload =>
      have hvalidated : (validated (some payload) : AppM σ LoginRequest).run s = .ok payload s := rfl
      rw [run_bind_ok hvalidated]
      have hsilent : final ((Auth.authenticate settings.logLevel lib.hasher payload.login payload.password).run s.db) =
          s.db := Auth.silent_authenticate _ _ s.db
      cases hauth : (Auth.authenticate settings.logLevel lib.hasher payload.login payload.password).run s.db with
      | error e db =>
        obtain rfl : db = s.db := by
          rw [hauth] at hsilent
          exact hsilent
        refine .inl ⟨.auth e, run_bind_error ?_, hnone _ rfl⟩
        show onDb _ _ s = _
        rw [onDb, hauth]
      | ok found db =>
        obtain rfl : db = s.db := by
          rw [hauth] at hsilent
          exact hsilent
        have hfound : (onDb .auth (Auth.authenticate settings.logLevel lib.hasher payload.login payload.password) :
            AppM σ (Option User)).run s = .ok found s := by
          show onDb _ _ s = _
          rw [onDb, hauth]
        rw [run_bind_ok hfound]
        cases found with
        | none =>
          simp only
          rw [logCall_bind (by decide)]
          exact .inl ⟨_, rfl, hhttp 401 _ (by omega)⟩
        | some user =>
          obtain ⟨hlogin, hactive⟩ := Auth.authenticate_ok hauth
          simp only
          refine (Auth.createSession_cases settings.logLevel env.toAuthEnv user settings.ttl s.db).elim
            (fun ⟨e, h⟩ => .inl ⟨.auth e, run_bind_error ?_, hnone _ rfl⟩) (fun ⟨db', h, hfresh, htables⟩ => .inr ?_)
          · show onDb _ _ s = _
            rw [onDb, h]
          · have hcreated : (onDb .auth (Auth.createSession settings.logLevel env.toAuthEnv user settings.ttl) :
                AppM σ Session).run s = .ok (Auth.newSession env.toAuthEnv user settings.ttl) { s with db := db' } := by
              show onDb _ _ s = _
              rw [onDb, h]
            refine ⟨user, db', (Configs.userByLogin_some hlogin).1, hfresh, htables, ?_⟩
            rw [run_bind_ok hcreated, logCall_bind (by decide)]
            rfl

/-- A logout removes the session of its own cookie. -/
theorem logout_run (settings : Settings) (request : Request β) (s : App σ) :
    ∃ t, (logout settings request).run s = .ok (clearSessionCookie ⟨200, .loggedOut, .keep⟩) t ∧
      (t = s ∨ ∃ token db, request.cookies.get? SESSION_COOKIE = some token ∧ token ≠ "" ∧
        db.toTables = { s.db.toTables with sessions := s.db.sessions.erase token } ∧ t = { s with db := db }) := by
  unfold logout
  cases hcookie : request.cookies.get? SESSION_COOKIE with
  | none => exact ⟨s, rfl, .inl rfl⟩
  | some token =>
    by_cases hempty : token = ""
    · simp only [hempty, ne_eq, not_true_eq_false, if_false]
      exact ⟨s, rfl, .inl rfl⟩
    · obtain ⟨db, hrun, htables⟩ := Auth.revokeSession_ok settings.logLevel token s.db
      have hrevoked : (onDb .auth (Auth.revokeSession settings.logLevel token) : AppM σ Unit).run s =
          .ok () { s with db := db } := by
        show onDb _ _ s = _
        rw [onDb, hrun]
      refine ⟨{ s with db := db }, ?_, .inr ⟨token, db, rfl, hempty, htables, rfl⟩⟩
      simp only [ne_eq, hempty, not_false_eq_true, if_true]
      rw [run_bind_ok hrevoked, logCall_bind (by decide)]
      rfl

theorem me_run (user : Option User) (csrfToken : Option String) (s : App σ) :
    (user = none ∧ (me user csrfToken).run s = .error (.http 401 "not authenticated") s) ∨
      ∃ u, user = some u ∧ (me user csrfToken).run s = .ok (identity u csrfToken) s := by
  cases user with
  | none => exact .inl ⟨rfl, rfl⟩
  | some u => exact .inr ⟨u, rfl, rfl⟩

end AuthRoutes
end

/-! ## One request -/

section
variable {β σ : Type} {settings : Settings} {env : RequestEnv} {s t : App σ} {request : Request β}

/-- What is left of a session besides its expiry. -/
def Database.Holds (db : Database) (token csrfToken : String) (userId : ℤ) : Prop :=
  ∃ session, db.sessions.get? token = some session ∧ session.csrfToken = csrfToken ∧ session.userId = userId

theorem Resolved.grows {session : Option LoadedSession} (h : Resolved settings env s request session t) :
    s.db.Grows (some (env.token, env.csrfToken)) t.db := by
  refine .of_users h.others.users (fun token session' hs => .inl ?_)
  refine h.sessions.elim (fun hsame => ?_) (fun ⟨stored, hstored, _, hset⟩ => ?_)
  · rw [hsame] at hs
    exact ⟨session', hs, rfl, rfl⟩
  · rw [hset, Dict.get?_set] at hs
    split at hs
    · next he =>
      cases hs
      rw [he]
      exact ⟨stored, hstored, rfl, rfl⟩
    · exact ⟨session', hs, rfl, rfl⟩

theorem Resolved.holds {session : Option LoadedSession} (h : Resolved settings env s request session t)
    {token csrfToken : String} {userId : ℤ} (hs : s.db.Holds token csrfToken userId) :
    t.db.Holds token csrfToken userId := by
  obtain ⟨held, hheld, hcsrf, hid⟩ := hs
  refine h.sessions.elim (fun hsame => ?_) (fun ⟨stored, hstored, _, hset⟩ => ?_)
  · exact ⟨held, by rw [hsame, hheld], hcsrf, hid⟩
  · by_cases he : token = stored.token
    · subst he
      rw [hstored] at hheld
      cases hheld
      refine ⟨{ held with expiresAt := env.now + settings.ttl }, ?_, hcsrf, hid⟩
      rw [hset, Dict.get?_set_self]
    · exact ⟨held, by rw [hset, Dict.get?_set_of_ne _ _ he, hheld], hcsrf, hid⟩

variable [UnidriverIo σ] [ObservableIo σ]

theorem Handled.grows {user : Option User} {endpoint : Endpoint} (h : Handled settings env s user endpoint t) :
    s.db.Grows (some (env.token, env.csrfToken)) t.db := by
  cases h with
  | read => exact .refl _ _
  | write => exact .refl _ _
  | @login u db hactive huser htables =>
    refine .of_users (by rw [htables]) (fun token session' hs => ?_)
    rw [htables, Dict.get?_set] at hs
    split at hs
    · next he =>
      cases hs
      exact .inr (by rw [he]; rfl)
    · exact .inl ⟨session', hs, rfl, rfl⟩
  | @logout token db htables =>
    refine .of_users (by rw [htables]) (fun token' session' hs => .inl ?_)
    rw [htables, Dict.get?_erase] at hs
    split at hs
    · cases hs
    · exact ⟨session', hs, rfl, rfl⟩
  | call call =>
    have hpermitted := Configs.permitted_call settings.logLevel env.toEnv s.db call
    refine .of_users hpermitted.users (fun token session' hs => .inl ?_)
    rw [hpermitted.sessions] at hs
    exact ⟨session', hs, rfl, rfl⟩

theorem serve_grows (lib : Library β) (settings : Settings) (bench : Bench) (env : RequestEnv)
    (request : Request β) (s : App σ) :
    s.db.Grows (some (env.token, env.csrfToken)) (serve lib settings bench.service env request s).2.db := by
  obtain ⟨session, t, hresolved, hdispatch⟩ := dispatch_cases lib settings bench.service env request s
  show s.db.Grows (some (env.token, env.csrfToken)) (final (_ : EStateM.Result RouteError (App σ) Response)).db
  refine hdispatch.elim (fun hrefused => ?_) (fun ⟨_, endpoint, _, hrun⟩ => ?_)
  · rw [hrefused]
    exact hresolved.grows
  · rw [hrun]
    exact hresolved.grows.trans (Handled.handled_handle lib settings bench env t _ _ request endpoint).grows

/-- An endpoint that is not the logout leaves every session to its user. -/
theorem holds_handle (lib : Library β) (settings : Settings) (bench : Bench) (env : RequestEnv) (t : App σ)
    (user : Option User) (csrfToken : Option String) (request : Request β) {endpoint : Endpoint}
    (hne : endpoint ≠ .logout) {token csrf : String} {userId : ℤ} (h : t.db.Holds token csrf userId) :
    (final ((handle lib settings bench.service env user csrfToken request endpoint).run t)).db.Holds token csrf userId := by
  by_cases hlogin : endpoint = .login
  · subst hlogin
    show (final ((AuthRoutes.login lib settings env request).run t)).db.Holds token csrf userId
    refine (AuthRoutes.login_run lib settings env request t).elim (fun ⟨e, hrun, _⟩ => ?_)
      (fun ⟨u, db, _, hfresh, htables, hrun⟩ => ?_)
    · rw [hrun]
      exact h
    · rw [hrun]
      obtain ⟨held, hheld, hrest⟩ := h
      have htoken : token ≠ env.token := by
        intro he
        rw [he, hfresh] at hheld
        cases hheld
      refine ⟨held, ?_, hrest⟩
      show db.sessions.get? token = some held
      rw [htables, Dict.get?_set_of_ne _ _ htoken, hheld]
  · have hhandled := Handled.handled_handle lib settings bench env t user csrfToken request endpoint
    generalize final ((handle lib settings bench.service env user csrfToken request endpoint).run t) = t' at hhandled
    cases hhandled with
    | read => exact h
    | write => exact h
    | login => exact absurd rfl hlogin
    | logout => exact absurd rfl hne
    | call call =>
      obtain ⟨held, hheld, hrest⟩ := h
      refine ⟨held, ?_, hrest⟩
      rw [← hheld]
      exact congrArg (fun sessions : Dict String Session => sessions.get? token)
        (Configs.permitted_call settings.logLevel env.toEnv t.db call).sessions

/-- A request leaves a session alone that has not expired, or it is a logout with the cookie and the CSRF token of
the session. -/
theorem serve_holds (lib : Library β) (settings : Settings) (bench : Bench) (env : RequestEnv)
    (request : Request β) (hurl : lib.urlPath request = LOGIN_PATH → request.path = LOGIN_PATH) {s : App σ}
    {session : Session} (hs : s.db.sessions.get? session.token = some session) (hlive : env.now < session.expiresAt) :
    (serve lib settings bench.service env request s).2.db.Holds session.token session.csrfToken session.userId ∨
      route request.method request.path = some .logout ∧
        request.cookies.get? SESSION_COOKIE = some session.token ∧
        request.headers.get? CSRF_HEADER = some session.csrfToken := by
  have hholds : s.db.Holds session.token session.csrfToken session.userId := ⟨session, hs, rfl, rfl⟩
  obtain ⟨found, t, hrun, hresolved⟩ := requestSession_cases settings env s request
  have ht := hresolved.holds hholds
  show (final ((dispatch lib settings bench.service env request).run s)).db.Holds _ _ _ ∨ _
  refine (dispatch_of_session lib settings bench.service env request hrun).elim (fun hrefused => ?_)
    (fun ⟨hcsrf, endpoint, hroute, hfinal⟩ => ?_)
  · rw [hrefused]
    exact .inl ht
  · rw [hfinal]
    by_cases hne : endpoint = .logout
    · subst hne
      obtain ⟨t', hlogout, hcases⟩ := AuthRoutes.logout_run settings request t
      have hhandle : final ((handle lib settings bench.service env (found.bind LoadedSession.user)
          (found.map (fun session => session.csrfToken)) request .logout).run t) = t' := congrArg final hlogout
      rw [hhandle]
      refine hcases.elim (fun hsame => .inl (hsame ▸ ht)) (fun ⟨token, db, hcookie, hnonempty, htables, ht'⟩ => ?_)
      by_cases he : token = session.token
      · refine .inr ⟨hroute, he ▸ hcookie, ?_⟩
        subst he
        obtain ⟨loaded, t'', hrun', -, hresolved'⟩ := requestSession_live settings env hcookie hnonempty hs hlive
        rw [hrun] at hrun'
        cases hrun'
        obtain ⟨stored, hcookie', -, hstored, -, hloaded, -⟩ := hresolved'.stored loaded rfl
        rw [hcookie] at hcookie'
        rw [← Option.some.inj hcookie', hs] at hstored
        cases hstored
        rw [← hloaded]
        have hmethod : request.method = "POST" := (route_eq_some.mp hroute).2.1
        refine (AuthCsrfMiddleware.rejectCsrf_passed (by rw [hmethod]; decide) (fun hlogin => ?_) hcsrf).2
        rw [hurl hlogin, hmethod] at hroute
        cases hroute
      · obtain ⟨held, hheld, hrest⟩ := ht
        refine .inl ⟨held, ?_, hrest⟩
        rw [ht']
        show db.sessions.get? session.token = some held
        rw [htables, Dict.get?_erase, if_neg (Ne.symm he), hheld]
    · exact .inl (holds_handle lib settings bench env t _ _ request hne ht)

/-! ## Identities in responses -/

omit [UnidriverIo σ] [ObservableIo σ] in
theorem AuthCsrfMiddleware.rejectCsrf_forbidden {netlocAllowed : String → Bool} {urlPath : Request β → String}
    {csrfToken : Option String} {response : Response}
    (h : AuthCsrfMiddleware.rejectCsrf netlocAllowed urlPath settings request csrfToken = .ok (some response)) :
    request.method ∈ UNSAFE_METHODS ∧ ∃ detail, response = forbidden detail := by
  unfold AuthCsrfMiddleware.rejectCsrf at h
  split at h
  · cases h
  next hmethod =>
  refine ⟨not_not.mp hmethod, ?_⟩
  cases hallowed : AuthCsrfMiddleware.originAllowed netlocAllowed settings request with
  | error e =>
    rw [hallowed] at h
    split at h
    · cases h
    · cases csrfToken <;> cases h
  | ok allowed =>
    rw [hallowed] at h
    split at h
    · cases allowed with
      | false =>
        cases h
        exact ⟨_, rfl⟩
      | true => cases h
    · cases csrfToken with
      | none => cases h
      | some csrfToken =>
        have hrest : (if allowed = false then .ok (some (forbidden "origin not allowed"))
            else if request.headers.get? CSRF_HEADER ≠ some csrfToken then
              .ok (some (forbidden "csrf token mismatch"))
            else .ok none : Except PyError (Option Response)) = .ok (some response) := h
        split at hrest
        · cases hrest
          exact ⟨_, rfl⟩
        · split at hrest
          · cases hrest
            exact ⟨_, rfl⟩
          · cases hrest

omit [UnidriverIo σ] [ObservableIo σ] in
theorem AuthCsrfMiddleware.rejectCsrf_denied {netlocAllowed : String → Bool} {urlPath : Request β → String}
    {csrfToken : Option String} {response : Response}
    (h : AuthCsrfMiddleware.rejectCsrf netlocAllowed urlPath settings request csrfToken = .ok (some response)) :
    response.ok = false := by
  obtain ⟨-, detail, rfl⟩ := rejectCsrf_forbidden h
  rfl

omit [ObservableIo σ] in
/-- A response that is `ok` comes from an endpoint, with the content that the endpoint gives it. -/
theorem dispatch_ok {lib : Library β} {service : DeviceService} {response : Response}
    (h : (dispatch lib settings service env request).run s = .ok response t) (hok : response.ok = true) :
    ∃ session u endpoint r, (requestSession settings env request).run s = .ok session u ∧
      Resolved settings env s request session u ∧ route request.method request.path = some endpoint ∧
      r.content = response.content ∧ (request.method ∉ SAFE_METHODS → r = response) ∧ r.ok = true ∧
      let handled := (handle lib settings service env (session.bind LoadedSession.user)
        (session.map (fun session => session.csrfToken)) request endpoint).run u
      (handled = .ok r t ∨ ∃ e, handled = .error e t ∧ e.response lib.repr = some r) := by
  obtain ⟨session, u, hrun, hresolved⟩ := requestSession_cases settings env s request
  unfold dispatch at h
  rw [run_bind_ok hrun] at h
  simp only at h
  cases hcsrf : AuthCsrfMiddleware.rejectCsrf lib.netlocAllowed lib.urlPath settings request
    (session.map (fun session => session.csrfToken)) with
  | error e =>
    rw [hcsrf] at h
    cases h
  | ok denied =>
    rw [hcsrf] at h
    simp only [Except.mapError, fromExcept_ok_bind] at h
    cases denied with
    | some denial =>
      cases h
      rw [AuthCsrfMiddleware.rejectCsrf_denied hcsrf] at hok
      cases hok
    | none =>
      obtain ⟨r, v, hnext, hrest⟩ := bind_eq_ok h
      have hsame : r.content = response.content ∧ (request.method ∉ SAFE_METHODS → r = response) ∧
          r.ok = response.ok ∧ v = t := by
        split at hrest
        · split at hrest
          · next hsafe =>
            cases hrest
            exact ⟨rfl, fun hunsafe => absurd hsafe hunsafe, rfl, rfl⟩
          · cases hrest
            exact ⟨rfl, fun _ => rfl, rfl, rfl⟩
        · cases hrest
          exact ⟨rfl, fun _ => rfl, rfl, rfl⟩
      obtain ⟨hcontent, hsafe, hokr, rfl⟩ := hsame
      rw [← hokr] at hok
      unfold callNext at hnext
      cases hroute : route request.method request.path with
      | none =>
        rw [hroute] at hnext
        cases hnext
        rw [ok_unrouted] at hok
        cases hok
      | some endpoint =>
        rw [hroute] at hnext
        refine ⟨session, u, endpoint, r, hrun, hresolved, rfl, hcontent, hsafe, hok, ?_⟩
        simp only [EStateM.run] at hnext ⊢
        cases hhandle : handle lib settings service env (session.bind LoadedSession.user)
          (session.map (fun session => session.csrfToken)) request endpoint u with
        | ok a w =>
          rw [hhandle] at hnext
          cases hnext
          exact .inl rfl
        | error e w =>
          rw [hhandle] at hnext
          simp only at hnext
          cases hresponse : e.response lib.repr with
          | none =>
            rw [hresponse] at hnext
            cases hnext
          | some a =>
            rw [hresponse] at hnext
            cases hnext
            exact .inr ⟨e, rfl, hresponse⟩

omit [ObservableIo σ] in
/-- An identity that login or `/auth/me` answers with is the user for whom its CSRF token speaks. -/
theorem serve_identity (lib : Library β) (service : DeviceService) {issued : List String}
    (hledger : s.db.Ledger issued) (hfresh : env.csrfToken ∉ issued)
    (hroute : route request.method request.path = some .me ∨ route request.method request.path = some .login)
    {response : Response} (hserve : serve lib settings service env request s = (some response, t))
    (hok : response.ok = true) :
    ∃ login role csrfToken, response.content = .identity login role (some csrfToken) ∧
      csrfToken ∈ env.csrfToken :: issued ∧ t.db.Speaks csrfToken login role := by
  have hdispatch : (dispatch lib settings service env request).run s = .ok response t := by
    unfold serve at hserve
    simp only at hserve
    cases hresult : (dispatch lib settings service env request).run s with
    | ok a w =>
      rw [hresult] at hserve
      cases hserve
      rfl
    | error e w =>
      rw [hresult] at hserve
      cases hserve
  obtain ⟨session, u, endpoint, r, hrun, hresolved, hroute', hcontent, -, hokr, hhandled⟩ := dispatch_ok hdispatch hok
  have hold : ∀ {token : String} {session : Session}, s.db.sessions.get? token = some session →
      session.csrfToken ≠ env.csrfToken :=
    fun hs he => hfresh (he ▸ hledger.issued _ _ hs)
  rw [hroute'] at hroute
  rw [← hcontent]
  refine hroute.elim (fun he => ?_) (fun he => ?_)
  · cases he
    refine (AuthRoutes.me_run (session.bind LoadedSession.user) (session.map (fun session => session.csrfToken)) u).elim
      (fun ⟨_, hme⟩ => ?_) (fun ⟨user, huser, hme⟩ => ?_)
    · refine hhandled.elim (fun hr => nomatch hme.symm.trans hr) (fun ⟨e, hr, hresponse⟩ => ?_)
      cases hme.symm.trans hr
      cases hresponse
      cases hokr
    · refine hhandled.elim (fun hr => ?_) (fun ⟨e, hr, _⟩ => nomatch hme.symm.trans hr)
      cases hme.symm.trans hr
      obtain ⟨loaded, rfl, hloaded⟩ := Option.bind_eq_some_iff.mp huser
      obtain ⟨stored, -, -, hstored, -, hcsrf, hfound⟩ := hresolved.stored loaded rfl
      refine ⟨user.login, user.role, loaded.csrfToken, rfl, ?_, ?_⟩
      · rw [hcsrf]
        exact List.mem_cons_of_mem _ (hledger.issued _ _ hstored)
      · rw [hcsrf]
        exact hresolved.grows.speaks (hledger.speaks hstored (hfound.symm.trans hloaded)) (fun he => hold hstored (Option.some.inj he).symm)
  · cases he
    refine (AuthRoutes.login_run lib settings env request u).elim (fun ⟨e, hlogin, hfails⟩ => ?_)
      (fun ⟨user, db, huser, _, htables, hlogin⟩ => ?_)
    · refine hhandled.elim (fun hr => nomatch hlogin.symm.trans hr) (fun ⟨e', hr, hresponse⟩ => ?_)
      cases hlogin.symm.trans hr
      rw [hfails r hresponse] at hokr
      cases hokr
    · refine hhandled.elim (fun hr => ?_) (fun ⟨e, hr, _⟩ => nomatch hlogin.symm.trans hr)
      cases hlogin.symm.trans hr
      refine ⟨user.login, user.role, env.csrfToken, rfl, List.mem_cons_self, fun token held hheld hcsrf => ?_⟩
      simp only at hheld ⊢
      rw [htables] at hheld ⊢
      rw [Dict.get?_set] at hheld
      split at hheld
      · cases hheld
        exact ⟨user, huser, rfl, rfl⟩
      · next hne =>
        refine (hresolved.grows.sessions token held hheld).elim (fun ⟨before, hbefore, hsame, _⟩ => ?_)
          (fun hnew => absurd (congrArg Prod.fst (Option.some.inj hnew)).symm hne)
        exact absurd (hsame.trans hcsrf) (hold hbefore)

end
end Tstlan
