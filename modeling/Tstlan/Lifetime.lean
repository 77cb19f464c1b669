import Tstlan.Auth.Sessions
import Tstlan.Foundations.Runs
import Tstlan.Identities

/-! # How long a browser stays signed in

The session is renewed by every request that carries it, the cookie only by the answer to a safe one. What a browser
that keeps the cookie for its `Max-Age` still has of its session, after any requests of its own and of others. -/
namespace Tstlan
open Foundations
set_option autoImplicit false

/-! ## The cookie of a response -/

section
variable {β σ : Type}

/-- Whatever it answers, the cookie is left alone. -/
def KeepsCookie (x : AppM σ Response) : Prop := ∀ s r t, x.run s = .ok r t → r.cookie = .keep

theorem keepsCookie_pure {r : Response} (h : r.cookie = .keep) : KeepsCookie (pure r : AppM σ Response) := by
  intro s r' t hrun
  cases hrun
  exact h

theorem KeepsCookie.bind {α : Type} {x : AppM σ α} {f : α → AppM σ Response} (h : ∀ a, KeepsCookie (f a)) :
    KeepsCookie (x >>= f) := by
  intro s r t hrun
  obtain ⟨a, u, -, hrest⟩ := bind_eq_ok hrun
  exact h a u r t hrest

theorem cookie_response {repr : Binary.Double → String} {e : RouteError} {r : Response} (h : e.response repr = some r) :
    r.cookie = .keep := by
  cases e with
  | http status detail =>
    cases h
    rfl
  | device e =>
    cases e with
    | http status detail =>
      cases h
      rfl
    | service e =>
      obtain ⟨status, -, rfl⟩ := Option.map_eq_some_iff.mp h
      rfl
  | config e =>
    obtain ⟨status, -, rfl⟩ := Option.map_eq_some_iff.mp h
    rfl
  | auth e => cases h
  | python e => cases h

variable [UnidriverIo σ]

/-- Only login and logout change the cookie themselves. -/
theorem keepsCookie_handle (lib : Library β) (settings : Settings) (service : DeviceService) (env : RequestEnv)
    (user : Option User) (csrfToken : Option String) (request : Request β) {endpoint : Endpoint}
    (hlogin : endpoint ≠ .login) (hlogout : endpoint ≠ .logout) :
    KeepsCookie (σ := σ) (handle lib settings service env user csrfToken request endpoint) := by
  cases endpoint with
  | login => exact absurd rfl hlogin
  | logout => exact absurd rfl hlogout
  | health => exact keepsCookie_pure rfl
  | me => exact .bind (fun _ => keepsCookie_pure rfl)
  | users => exact .bind (fun _ => .bind (fun _ => .bind (fun _ => keepsCookie_pure rfl)))
  | devices => exact .bind (fun _ => .bind (fun _ => keepsCookie_pure rfl))
  | device => exact .bind (fun _ => .bind (fun _ => keepsCookie_pure rfl))
  | values => exact .bind (fun _ => .bind (fun _ => keepsCookie_pure rfl))
  | value => exact .bind (fun _ => .bind (fun _ => keepsCookie_pure rfl))
  | history => exact .bind (fun _ => .bind (fun _ => .bind (fun _ => keepsCookie_pure rfl)))
  | writeValue =>
    exact .bind (fun _ => .bind (fun _ => .bind (fun _ => .bind (fun _ => .bind (fun _ => keepsCookie_pure rfl)))))
  | stream => exact .bind (fun _ => .bind (fun _ => keepsCookie_pure rfl))
  | configs => exact .bind (fun _ => .bind (fun _ => keepsCookie_pure rfl))
  | createConfig => exact .bind (fun _ => .bind (fun _ => .bind (fun _ => .bind (fun _ => keepsCookie_pure rfl))))
  | config => exact .bind (fun _ => .bind (fun _ => .bind (fun _ => keepsCookie_pure rfl)))
  | updateConfig =>
    exact .bind (fun _ => .bind (fun _ => .bind (fun _ => .bind (fun _ => .bind (fun _ => keepsCookie_pure rfl)))))
  | deleteConfig => exact .bind (fun _ => .bind (fun _ => .bind (fun _ => keepsCookie_pure rfl)))
  | share =>
    exact .bind (fun _ => .bind (fun _ => .bind (fun _ => .bind (fun _ => .bind (fun _ => keepsCookie_pure rfl)))))
  | unshare => exact .bind (fun _ => .bind (fun _ => .bind (fun _ => keepsCookie_pure rfl)))

/-- What the middleware does to the cookie, for the session that it has found. -/
def renewedCookie (settings : Settings) (request : Request β) (session : Option LoadedSession) : CookieChange :=
  (request.cookies.get? SESSION_COOKIE).elim .keep (fun token =>
    if session.isSome ∧ request.method ∈ SAFE_METHODS then .set token settings.maxAge settings.cookieSecure else .keep)

variable [ObservableIo σ]

theorem Handled.sessions {settings : Settings} {env : RequestEnv} {u t : App σ} {user : Option User} {endpoint : Endpoint}
    (h : Handled settings env u user endpoint t) (hlogin : endpoint ≠ .login) (hlogout : endpoint ≠ .logout) :
    t.db.sessions = u.db.sessions := by
  cases h with
  | read => rfl
  | write => rfl
  | login => exact absurd rfl hlogin
  | logout => exact absurd rfl hlogout
  | call call => exact (Configs.permitted_call settings.logLevel env.toEnv u.db call).sessions

/-- Past the middleware, no session changes unless the browser signs in or out. -/
theorem callNext_stays (lib : Library β) (settings : Settings) (bench : Bench) (env : RequestEnv) (user : Option User)
    (csrfToken : Option String) {request : Request β} (hlogin : route request.method request.path ≠ some .login)
    (hlogout : route request.method request.path ≠ some .logout) (u : App σ) :
    (final ((callNext lib settings bench.service env user csrfToken request).run u)).db.sessions = u.db.sessions ∧
      ∀ r t, (callNext lib settings bench.service env user csrfToken request).run u = .ok r t → r.cookie = .keep := by
  unfold callNext
  cases hroute : route request.method request.path with
  | none =>
    refine ⟨rfl, fun r t h => ?_⟩
    cases h
    exact unrouted_cookie _
  | some endpoint =>
    have hlogin' : endpoint ≠ .login := fun he => hlogin (by rw [hroute, he])
    have hlogout' : endpoint ≠ .logout := fun he => hlogout (by rw [hroute, he])
    have hhandled := Handled.handled_handle lib settings bench env u user csrfToken request endpoint
    have hkeeps := keepsCookie_handle (σ := σ) lib settings bench.service env user csrfToken request hlogin' hlogout' u
    simp only [EStateM.run] at hhandled hkeeps ⊢
    cases hhandle : handle lib settings bench.service env user csrfToken request endpoint u with
    | ok response t =>
      rw [hhandle] at hhandled
      refine ⟨hhandled.sessions hlogin' hlogout', fun r t' h => ?_⟩
      cases h
      exact hkeeps _ _ hhandle
    | error e t =>
      rw [hhandle] at hhandled
      simp only
      cases hresponse : e.response lib.repr with
      | none =>
        refine ⟨hhandled.sessions hlogin' hlogout', fun r t' h => ?_⟩
        cases h
      | some response =>
        refine ⟨hhandled.sessions hlogin' hlogout', fun r t' h => ?_⟩
        cases h
        exact cookie_response hresponse

/-- A request that neither signs in nor out leaves the sessions as its cookie was resolved, and its cookie is renewed
with them when it is safe. -/
theorem dispatch_stays (lib : Library β) (settings : Settings) (bench : Bench) (env : RequestEnv) {request : Request β}
    {s u : App σ} {session : Option LoadedSession} (hrun : (requestSession settings env request).run s = .ok session u)
    (hlogin : route request.method request.path ≠ some .login)
    (hlogout : route request.method request.path ≠ some .logout) :
    (final ((dispatch lib settings bench.service env request).run s)).db.sessions = u.db.sessions ∧
      ∀ r t, (dispatch lib settings bench.service env request).run s = .ok r t →
        r.cookie = renewedCookie settings request session := by
  unfold dispatch
  rw [run_bind_ok hrun]
  simp only
  cases hcsrf : AuthCsrfMiddleware.rejectCsrf lib.netlocAllowed lib.urlPath settings request
    (session.map (fun session => session.csrfToken)) with
  | error e =>
    refine ⟨rfl, fun r t h => ?_⟩
    cases h
  | ok denied =>
    cases denied with
    | some denial =>
      have hdisjoint : ∀ method ∈ UNSAFE_METHODS, method ∉ SAFE_METHODS := by decide
      obtain ⟨hmethod, detail, rfl⟩ := AuthCsrfMiddleware.rejectCsrf_forbidden hcsrf
      refine ⟨rfl, fun r t h => ?_⟩
      cases h
      rw [renewedCookie]
      cases request.cookies.get? SESSION_COOKIE with
      | none => rfl
      | some token => exact (if_neg (fun hsafe => hdisjoint _ hmethod hsafe.2)).symm
    | none =>
      simp only [Except.mapError, fromExcept_ok_bind]
      obtain ⟨hsessions, hkeep⟩ := callNext_stays lib settings bench env (session.bind LoadedSession.user)
        (session.map (fun session => session.csrfToken)) hlogin hlogout u
      constructor
      · rw [final_bind (fun response => ?_) u]
        · exact hsessions
        · split
          · split <;> exact .pure _
          · exact .pure _
      · intro r t h
        obtain ⟨response, v, hnext, hrest⟩ := bind_eq_ok h
        have hresponse := hkeep response v hnext
        cases hcookie : request.cookies.get? SESSION_COOKIE with
        | none =>
          rw [hcookie] at hrest
          cases hrest
          simp only [renewedCookie, hcookie, hresponse, Option.elim_none]
        | some token =>
          rw [hcookie] at hrest
          cases session with
          | none =>
            cases hrest
            simp only [renewedCookie, hcookie, hresponse, Option.elim_some]
            rfl
          | some session =>
            by_cases hsafe : request.method ∈ SAFE_METHODS
            · simp only [Option.map_some, if_pos hsafe] at hrest
              cases hrest
              simp only [renewedCookie, hcookie, Option.elim_some]
              exact (if_pos ⟨rfl, hsafe⟩).symm
            · simp only [Option.map_some, if_neg hsafe] at hrest
              cases hrest
              simp only [renewedCookie, hcookie, hresponse, Option.elim_some]
              exact (if_neg (fun h => hsafe h.2)).symm

end

/-! ## The browser -/

/-- The session cookie as a browser keeps it. -/
structure Cookie where
  token : String
  expires : Time

/-- A browser and the application it talks to. -/
structure Visitor (σ : Type) where
  site : Site σ
  cookie : Option Cookie
  /-- When a request last found the session. -/
  used : Time
  /-- When a safe one of them was last answered. -/
  answered : Time

namespace Visitor
variable {β σ : Type}

/-- The request with the cookie, if it is still there. -/
def carrying (v : Visitor σ) (request : Request β) : Request β :=
  { request with
    cookies := Dict.ofList ((v.cookie.filter (fun c => v.site.now < c.expires)).toList.map
      (fun c => (SESSION_COOKIE, c.token))) }

/-- `Max-Age` is in seconds. -/
def keep (now : Time) (cookie : Option Cookie) : CookieChange → Option Cookie
  | .keep => cookie
  | .set token maxAge _ => some ⟨token, now + maxAge * 1000000⟩
  | .clear => none

/-- The middleware finds the session of the request. -/
def finds (settings : Settings) (env : RequestEnv) (v : Visitor σ) (request : Request β) : Bool :=
  match (requestSession settings { env with now := v.site.now } (v.carrying request)).run v.site.app with
  | .ok (some _) _ => true
  | _ => false

variable [UnidriverIo σ] (lib : Library β) (settings : Settings) (service : DeviceService)

/-- A request of the browser, answered at once. -/
def visit (env : RequestEnv) (request : Request β) (v : Visitor σ) : Visitor σ :=
  let result := serve lib settings service { env with now := v.site.now } (v.carrying request) v.site.app
  { site := { v.site with app := result.2 }
    cookie := keep v.site.now v.cookie ((result.1.map Response.cookie).getD .keep)
    used := if v.finds settings env request then v.site.now else v.used
    answered :=
      if v.finds settings env request ∧ request.method ∈ SAFE_METHODS ∧ result.1.isSome then v.site.now
      else v.answered }

/-- An accepted login, from which on the session is used. -/
def enter (env : RequestEnv) (request : Request β) (v : Visitor σ) : Visitor σ :=
  { v.visit lib settings service env request with used := v.site.now, answered := v.site.now }

end Visitor

inductive VisitorEvent (β : Type)
  | visit (env : RequestEnv) (request : Request β)
  | elsewhere (event : SiteEvent β)

namespace Visitor
variable {β σ : Type} [UnidriverIo σ]

/-- One event while the browser neither signs in nor out; nobody else has its token. -/
inductive Step (lib : Library β) (settings : Settings) (service : DeviceService) (token : String) :
    Visitor σ → VisitorEvent β → Visitor σ → Prop
  | visit {v : Visitor σ} {env : RequestEnv} {request : Request β}
      (hlogin : route request.method request.path ≠ some .login)
      (hlogout : route request.method request.path ≠ some .logout) :
      Step lib settings service token v (.visit env request) (v.visit lib settings service env request)
  | elsewhere {v : Visitor σ} {event : SiteEvent β}
      (hsecret : ∀ env request, event = .request env request → request.cookies.get? SESSION_COOKIE ≠ some token) :
      Step lib settings service token v (.elsewhere event)
        { v with site := v.site.step lib settings service event }

/-- The browser has the cookie since the last answer to a safe request, and the session is one used then. -/
structure Holding (settings : Settings) (token : String) (v : Visitor σ) : Prop where
  cookie : v.cookie = some ⟨token, v.answered + settings.ttl⟩
  answered : v.answered ≤ v.used
  used : v.used ≤ v.site.now
  session : ∃ session, v.site.app.db.sessions.get? token = some session ∧
    Lease.Fresh settings.ttl settings.refreshAfter v.used session.expiresAt

end Visitor

/-! ## The session of a request -/

section
variable {β σ : Type}

theorem requestSession_exact (settings : Settings) (env : RequestEnv) (s : App σ) (request : Request β) :
    (∃ token session loaded db, request.cookies.get? SESSION_COOKIE = some token ∧ token ≠ "" ∧
      s.db.sessions.get? token = some session ∧ env.now < session.expiresAt ∧
      db.sessions = s.db.sessions.set token (Auth.renewed settings.ttl settings.refreshAfter env.now session) ∧
      (requestSession settings env request).run s = .ok (some loaded) { s with db := db }) ∨
    (∀ token session, request.cookies.get? SESSION_COOKIE = some token → token ≠ "" →
      s.db.sessions.get? token = some session → session.expiresAt ≤ env.now) ∧
    (requestSession settings env request).run s = .ok none s := by
  unfold requestSession
  cases hcookie : request.cookies.get? SESSION_COOKIE with
  | none => exact .inr ⟨fun token session h => absurd h (by simp), rfl⟩
  | some token =>
    by_cases hne : token = ""
    · subst hne
      refine .inr ⟨fun token session h hne => absurd (Option.some.inj h).symm hne, rfl⟩
    · simp only [if_pos hne]
      by_cases hlive : ∃ session, s.db.sessions.get? token = some session ∧ env.now < session.expiresAt
      · obtain ⟨session, hs, hlive⟩ := hlive
        obtain ⟨db, hrun, htables⟩ := Auth.resolveSession_live settings.logLevel settings.ttl settings.refreshAfter hs hlive
        refine .inl ⟨token, session, ⟨Auth.renewed settings.ttl settings.refreshAfter env.now session,
          s.db.users.get? session.userId⟩, db, rfl, hne, hs, hlive, by rw [htables], ?_⟩
        show onDb _ _ s = _
        rw [onDb, hrun]
      · have hdead : ∀ session, s.db.sessions.get? token = some session → session.expiresAt ≤ env.now :=
          fun session hs => not_lt.mp (fun hlt => hlive ⟨session, hs, hlt⟩)
        refine .inr ⟨fun token' session h _ hs => hdead session ((Option.some.inj h).symm ▸ hs), ?_⟩
        show onDb _ _ s = _
        rw [onDb, Auth.resolveSession_dead settings.logLevel settings.ttl settings.refreshAfter hdead]

variable [UnidriverIo σ] [ObservableIo σ]

/-- A request with another cookie, or with none, leaves a session as it is. -/
theorem serve_others (lib : Library β) (settings : Settings) (bench : Bench) (env : RequestEnv) {request : Request β}
    {token : String} (hsecret : request.cookies.get? SESSION_COOKIE ≠ some token) {s : App σ} {session : Session}
    (hs : s.db.sessions.get? token = some session) :
    (serve lib settings bench.service env request s).2.db.sessions.get? token = some session := by
  show (final ((dispatch lib settings bench.service env request).run s)).db.sessions.get? token = _
  obtain ⟨found, u, hrun, hu⟩ : ∃ found u, (requestSession settings env request).run s = .ok found u ∧
      u.db.sessions.get? token = some session := by
    refine (requestSession_exact settings env s request).elim
      (fun ⟨token', session', loaded, db, hcookie, _, _, _, hsessions, hrun⟩ => ⟨_, _, hrun, ?_⟩)
      (fun ⟨_, hrun⟩ => ⟨_, _, hrun, hs⟩)
    have hne : token ≠ token' := fun he => hsecret (he ▸ hcookie)
    show db.sessions.get? token = _
    rw [hsessions, Dict.get?_set_of_ne _ _ hne, hs]
  refine (dispatch_of_session lib settings bench.service env request hrun).elim (fun h => by rw [h, hu])
    (fun ⟨_, endpoint, _, h⟩ => ?_)
  rw [h]
  by_cases hlogin : endpoint = .login
  · subst hlogin
    show (final ((AuthRoutes.login lib settings env request).run u)).db.sessions.get? token = _
    refine (AuthRoutes.login_run lib settings env request u).elim (fun ⟨e, hrun, _⟩ => by rw [hrun]; exact hu)
      (fun ⟨user, db, _, hfresh, htables, hrun⟩ => ?_)
    have hne : token ≠ env.token := by
      intro he
      rw [he, hfresh] at hu
      cases hu
    rw [hrun]
    show db.sessions.get? token = _
    rw [htables]
    exact (Dict.get?_set_of_ne _ _ hne).trans hu
  · by_cases hlogout : endpoint = .logout
    · subst hlogout
      obtain ⟨t, hrun, hcases⟩ := AuthRoutes.logout_run settings request u
      have hfinal : final ((handle lib settings bench.service env (found.bind LoadedSession.user)
          (found.map (fun session => session.csrfToken)) request .logout).run u) = t := congrArg final hrun
      rw [hfinal]
      refine hcases.elim (fun he => he ▸ hu) (fun ⟨token', db, hcookie, _, htables, ht⟩ => ?_)
      have hne : token ≠ token' := fun he => hsecret (he ▸ hcookie)
      rw [ht]
      show db.sessions.get? token = _
      rw [htables]
      show (u.db.sessions.erase token').get? token = _
      rw [Dict.get?_erase, if_neg hne, hu]
    · have hhandled := Handled.handled_handle lib settings bench env u (found.bind LoadedSession.user)
        (found.map (fun session => session.csrfToken)) request endpoint
      rw [hhandled.sessions hlogin hlogout, hu]

end

/-! ## Holding a session -/

namespace Visitor

theorem cookies_carrying {β σ : Type} (v : Visitor σ) (request : Request β) :
    (v.carrying request).cookies.get? SESSION_COOKIE =
      (v.cookie.filter (fun c => v.site.now < c.expires)).map Cookie.token := by
  unfold carrying
  cases v.cookie.filter (fun c => v.site.now < c.expires) with
  | none => rfl
  | some c => simp [Dict.get?_ofList]

theorem ttl_maxAge (settings : Settings) : settings.maxAge * 1000000 = settings.ttl := by
  unfold Settings.maxAge Settings.ttl hours
  ring

section
variable {β σ : Type} {settings : Settings} {token : String} {v : Visitor σ}

theorem Holding.sent (h : Holding settings token v) (request : Request β) :
    (v.carrying request).cookies.get? SESSION_COOKIE =
      if v.site.now < v.answered + settings.ttl then some token else none := by
  rw [cookies_carrying, h.cookie]
  by_cases hlive : v.site.now < v.answered + settings.ttl
  · simp [hlive]
  · rw [if_neg hlive]
    simp [not_lt.mp hlive]

/-- The session is found while neither the cookie nor the session has expired. -/
theorem Holding.finds_iff (h : Holding settings token v) (hne : token ≠ "") (env : RequestEnv) (request : Request β) :
    v.finds settings env request = true ↔ v.site.now < v.answered + settings.ttl ∧
      ∃ session, v.site.app.db.sessions.get? token = some session ∧ v.site.now < session.expiresAt := by
  have hcookie := h.sent request
  unfold finds
  refine (requestSession_exact settings { env with now := v.site.now } v.site.app (v.carrying request)).elim
    (fun ⟨token', session, loaded, db, hsent, _, hs, hlive, _, hrun⟩ => ?_) (fun ⟨hdead, hrun⟩ => ?_)
  · rw [hrun]
    rw [hcookie] at hsent
    split at hsent
    · next hnow =>
      cases hsent
      exact ⟨fun _ => ⟨hnow, session, hs, hlive⟩, fun _ => rfl⟩
    · cases hsent
  · rw [hrun]
    refine ⟨fun hfound => absurd hfound (by simp), fun ⟨hnow, session, hs, hlive⟩ => ?_⟩
    rw [hcookie, if_pos hnow] at hdead
    exact absurd hlive (not_lt.mpr (hdead token session rfl hne hs))

variable [UnidriverIo σ] [ObservableIo σ] {lib : Library β} {bench : Bench}

omit [ObservableIo σ] in
theorem cookie_of_serve {service : DeviceService} {env : RequestEnv} {request : Request β} {s : App σ} {r : Response}
    {change : CookieChange}
    (h : ∀ r t, (dispatch lib settings service env request).run s = .ok r t → r.cookie = change)
    (hserve : (serve lib settings service env request s).1 = some r) : r.cookie = change := by
  unfold serve at hserve
  simp only at hserve
  cases hresult : (dispatch lib settings service env request).run s with
  | ok a t =>
    rw [hresult] at hserve
    cases hserve
    exact h _ _ hresult
  | error e t =>
    rw [hresult] at hserve
    cases hserve

variable (lib bench) in
/-- What a request of the browser that does not sign in or out makes of the session and the cookie. -/
theorem visit_cases (h : Holding settings token v) {request : Request β}
    (hlogin : route request.method request.path ≠ some .login)
    (hlogout : route request.method request.path ≠ some .logout) (env : RequestEnv) :
    let v' := v.visit lib settings bench.service env request
    (v.finds settings env request = true ∧
      (∃ session, v.site.app.db.sessions.get? token = some session ∧ v'.site.app.db.sessions.get? token =
        some (Auth.renewed settings.ttl settings.refreshAfter v.site.now session)) ∧
      v'.cookie = some ⟨token, v'.answered + settings.ttl⟩) ∨
    (v.finds settings env request = false ∧
      v'.site.app.db.sessions.get? token = v.site.app.db.sessions.get? token ∧ v'.cookie = v.cookie) := by
  intro v'
  have hcookie := h.sent request
  refine (requestSession_exact settings { env with now := v.site.now } v.site.app (v.carrying request)).elim
    (fun ⟨token', session, loaded, db, hsent, _, hs, _, hsessions, hrun⟩ => .inl ?_) (fun ⟨_, hrun⟩ => .inr ?_)
  · obtain ⟨hfinal, hchange⟩ := dispatch_stays lib settings bench { env with now := v.site.now } hrun hlogin hlogout
    have hfound : v.finds settings env request = true := by
      unfold finds
      rw [hrun]
    have htoken : token' = token := by
      rw [hcookie] at hsent
      split at hsent
      · exact (Option.some.inj hsent).symm
      · cases hsent
    rw [htoken] at hsent hs hsessions
    refine ⟨hfound, ⟨session, hs, ?_⟩, ?_⟩
    · show (final ((dispatch lib settings bench.service _ _).run v.site.app)).db.sessions.get? token = _
      rw [hfinal, hsessions, Dict.get?_set_self]
    · show keep _ _ _ = some ⟨token, (if _ then _ else _) + settings.ttl⟩
      cases hresult : (serve lib settings bench.service { env with now := v.site.now } (v.carrying request) v.site.app).1 with
      | none => simp [keep, h.cookie]
      | some r =>
        have hr := cookie_of_serve hchange hresult
        rw [renewedCookie, hsent, Option.elim_some] at hr
        by_cases hsafe : request.method ∈ SAFE_METHODS
        · rw [if_pos ⟨rfl, hsafe⟩] at hr
          simp [hr, keep, hfound, hsafe, ttl_maxAge]
        · rw [if_neg (fun hcond => hsafe hcond.2)] at hr
          simp [hr, keep, hsafe, h.cookie]
  · obtain ⟨hfinal, hchange⟩ := dispatch_stays lib settings bench { env with now := v.site.now } hrun hlogin hlogout
    have hmissed : v.finds settings env request = false := by
      unfold finds
      rw [hrun]
    refine ⟨hmissed, ?_, ?_⟩
    · show (final ((dispatch lib settings bench.service _ _).run v.site.app)).db.sessions.get? token = _
      rw [hfinal]
    · show keep _ _ _ = v.cookie
      cases hresult : (serve lib settings bench.service { env with now := v.site.now } (v.carrying request) v.site.app).1 with
      | none => rfl
      | some r =>
        have hr := cookie_of_serve hchange hresult
        have hkeep : renewedCookie settings (v.carrying request) none = .keep := by
          rw [renewedCookie]
          cases (v.carrying request).cookies.get? SESSION_COOKIE <;> rfl
        rw [Option.map_some, Option.getD_some, hr, hkeep]
        rfl

theorem holding_visit (hrefresh : 0 ≤ settings.refreshAfter) (h : Holding settings token v)
    {request : Request β} (hlogin : route request.method request.path ≠ some .login)
    (hlogout : route request.method request.path ≠ some .logout) (env : RequestEnv) :
    Holding settings token (v.visit lib settings bench.service env request) := by
  obtain ⟨session, hs, hfresh⟩ := h.session
  refine (visit_cases lib bench h hlogin hlogout env).elim
    (fun ⟨hfound, ⟨stored, hstored, hrenewed⟩, hcookie⟩ => ?_) (fun ⟨hmissed, hsame, hcookie⟩ => ?_)
  · rw [hs] at hstored
    cases hstored
    have hused : (v.visit lib settings bench.service env request).used = v.site.now := if_pos hfound
    have hanswered : (v.visit lib settings bench.service env request).answered ≤ v.site.now := by
      show (if _ then v.site.now else v.answered) ≤ v.site.now
      split
      · exact le_refl _
      · exact h.answered.trans h.used
    refine ⟨hcookie, hused ▸ hanswered, hused.le, _, hrenewed, ?_⟩
    rw [hused]
    exact hfresh.renew hrefresh h.used
  · have hused : (v.visit lib settings bench.service env request).used = v.used := if_neg (by rw [hmissed]; decide)
    have hanswered : (v.visit lib settings bench.service env request).answered = v.answered :=
      if_neg (by rw [hmissed]; simp)
    refine ⟨?_, ?_, ?_, session, hsame.trans hs, ?_⟩
    · rw [hcookie, hanswered, h.cookie]
    · rw [hanswered, hused]
      exact h.answered
    · rw [hused]
      exact h.used
    · rw [hused]
      exact hfresh

theorem holding_elsewhere (h : Holding settings token v) {event : SiteEvent β}
    (hsecret : ∀ env request, event = .request env request → request.cookies.get? SESSION_COOKIE ≠ some token) :
    Holding settings token { v with site := v.site.step lib settings bench.service event } := by
  obtain ⟨session, hs, hfresh⟩ := h.session
  cases event with
  | createUser env login password role =>
    refine ⟨h.cookie, h.answered, h.used, session, ?_, hfresh⟩
    show (final ((Auth.createUser settings.logLevel lib.hasher { env with now := v.site.now } login password role).run
      v.site.app.db)).sessions.get? token = _
    refine (Auth.createUser_cases settings.logLevel lib.hasher { env with now := v.site.now } login password role
      v.site.app.db).elim (fun hsame => by rw [hsame, hs]) (fun ⟨user, _, _, htables⟩ => ?_)
    rw [htables, ← hs]
  | request env request =>
    exact ⟨h.cookie, h.answered, h.used, session,
      serve_others lib settings bench { env with now := v.site.now } (hsecret env request rfl) hs, hfresh⟩
  | setActive userId active =>
    refine ⟨h.cookie, h.answered, h.used, session, ?_, hfresh⟩
    show (v.site.app.db.setActive userId active).sessions.get? token = _
    rw [Database.setActive_sessions, hs]
  | tick elapsed =>
    exact ⟨h.cookie, h.answered, h.used.trans (le_add_of_nonneg_right (Int.natCast_nonneg _)), session, hs, hfresh⟩

omit [ObservableIo σ] in
theorem holding_enter (hrefresh : 0 ≤ settings.refreshAfter) {service : DeviceService} {env : RequestEnv}
    {request : Request β} (hroute : route request.method request.path = some .login) {response : Response}
    (haccepted : (serve lib settings service { env with now := v.site.now } (v.carrying request) v.site.app).1 = some response)
    (hok : response.ok = true) : Holding settings env.token (v.enter lib settings service env request) := by
  have hdispatch : ∃ t, (dispatch lib settings service { env with now := v.site.now } (v.carrying request)).run v.site.app =
      .ok response t := by
    unfold serve at haccepted
    simp only at haccepted
    cases hresult : (dispatch lib settings service { env with now := v.site.now } (v.carrying request)).run v.site.app with
    | ok a t =>
      rw [hresult] at haccepted
      cases haccepted
      exact ⟨t, rfl⟩
    | error e t =>
      rw [hresult] at haccepted
      cases haccepted
  obtain ⟨t, hrun⟩ := hdispatch
  obtain ⟨session, u, endpoint, r, -, -, hroute', -, hsame, hokr, hhandled⟩ := dispatch_ok hrun hok
  have hmethod : request.method = "POST" := (route_eq_some.mp hroute).2.1
  have hr : r = response := hsame (by
    show request.method ∉ SAFE_METHODS
    rw [hmethod]
    decide)
  have hlogin : some endpoint = some Endpoint.login := hroute'.symm.trans hroute
  cases hlogin
  refine (AuthRoutes.login_run lib settings { env with now := v.site.now } (v.carrying request) u).elim
    (fun ⟨e, hlogin, hfails⟩ => ?_) (fun ⟨user, db, _, _, htables, hlogin⟩ => ?_)
  · refine hhandled.elim (fun hr => nomatch hlogin.symm.trans hr) (fun ⟨e', hr, hresponse⟩ => ?_)
    cases hlogin.symm.trans hr
    rw [hfails r hresponse] at hokr
    cases hokr
  · refine hhandled.elim (fun hresult => ?_) (fun ⟨e', hresult, _⟩ => nomatch hlogin.symm.trans hresult)
    cases hlogin.symm.trans hresult
    subst hr
    have hfresh : Lease.Fresh settings.ttl settings.refreshAfter v.site.now (v.site.now + settings.ttl) :=
      Lease.fresh_new settings.ttl v.site.now hrefresh
    refine ⟨?_, le_refl _, le_refl _, Auth.newSession { env with now := v.site.now } user settings.ttl, ?_, hfresh⟩
    · show keep _ _ (((serve lib settings service _ _ _).1.map Response.cookie).getD .keep) = _
      rw [haccepted]
      show some (Cookie.mk env.token (v.site.now + settings.maxAge * 1000000)) = _
      rw [ttl_maxAge]
      rfl
    · show (final ((dispatch lib settings service _ _).run v.site.app)).db.sessions.get? env.token = _
      rw [hrun]
      show db.sessions.get? env.token = _
      rw [htables, Dict.get?_set_self]

/-! ## Runs -/

theorem holding_step (hrefresh : 0 ≤ settings.refreshAfter) {event : VisitorEvent β} {v' : Visitor σ}
    (h : Holding settings token v) (hstep : Step lib settings bench.service token v event v') :
    Holding settings token v' := by
  cases hstep with
  | visit hlogin hlogout => exact holding_visit hrefresh h hlogin hlogout _
  | elsewhere hsecret => exact holding_elsewhere h hsecret

/-- From an accepted login on, however the browser and others go on: it is signed in exactly while neither the cookie,
which is that of the last safe request that was answered, nor the session, renewed by all of them, has expired. -/
theorem stays_signedIn (hrefresh : 0 ≤ settings.refreshAfter) {v₀ v : Visitor σ} {env : RequestEnv} {request : Request β}
    {response : Response} {events : List (VisitorEvent β)} (hne : env.token ≠ "")
    (hroute : route request.method request.path = some .login)
    (haccepted : (serve lib settings bench.service { env with now := v₀.site.now } (v₀.carrying request) v₀.site.app).1 =
      some response)
    (hok : response.ok = true)
    (hrun : Run (Step lib settings bench.service env.token) (v₀.enter lib settings bench.service env request) events v) :
    ∃ session, v.site.app.db.sessions.get? env.token = some session ∧
      v.used + settings.ttl - settings.refreshAfter ≤ session.expiresAt ∧ session.expiresAt ≤ v.used + settings.ttl ∧
      v.answered ≤ v.used ∧
      ∀ (next : RequestEnv) (request : Request β),
        (v.finds settings next request = true ↔
          v.site.now < v.answered + settings.ttl ∧ v.site.now < session.expiresAt) ∧
        (v.site.now < v.answered + settings.ttl - settings.refreshAfter → v.finds settings next request = true) ∧
        (v.answered + settings.ttl ≤ v.site.now → v.finds settings next request = false) := by
  have h := hrun.invariant (P := Holding settings env.token) (fun _ _ _ h hstep => holding_step hrefresh h hstep)
    (holding_enter hrefresh hroute haccepted hok)
  obtain ⟨session, hs, hfresh⟩ := h.session
  refine ⟨session, hs, hfresh.lower, hfresh.upper, h.answered, fun next request => ?_⟩
  have hiff : v.finds settings next request = true ↔
      v.site.now < v.answered + settings.ttl ∧ v.site.now < session.expiresAt := by
    rw [h.finds_iff hne]
    refine and_congr_right (fun _ => ⟨fun ⟨session', hs', hlive⟩ => ?_, fun hlive => ⟨session, hs, hlive⟩⟩)
    rw [hs] at hs'
    rwa [Option.some.inj hs']
  have hanswered := h.answered
  have hlower := hfresh.lower
  refine ⟨hiff, fun hsoon => hiff.mpr ⟨hsoon.trans_le (sub_le_self _ hrefresh), ?_⟩,
    fun hlate => Bool.eq_false_iff.mpr (fun hfound => absurd (hiff.mp hfound).1 (not_lt.mpr hlate))⟩
  calc v.site.now < v.answered + settings.ttl - settings.refreshAfter := hsoon
    _ ≤ v.used + settings.ttl - settings.refreshAfter := by gcongr
    _ ≤ session.expiresAt := hlower

end

/-! ## A browser -/

def firstLogin : Request (LoginRequest ⊕ ℤ) where
  method := "POST"
  path := "/auth/login"
  headers := Dict.ofList [("origin", "http://localhost:3000")]
  body := some (.inl ⟨"ann", "secret"⟩)

def beforeLogin : Visitor InMemoryUnidriverIo where
  site := Site.run sampleLibrary {} (Bench.enumerate []).service (Site.start ⟨Dict.empty⟩ 0)
    [.createUser sampleRequestEnv.toAuthEnv "ann" "secret" .DEV]
  cookie := none
  used := 0
  answered := 0

/-- Time passes and the page is loaded. -/
def afterLogin : Visitor InMemoryUnidriverIo :=
  let entered := beforeLogin.enter sampleLibrary {} (Bench.enumerate []).service sampleRequestEnv firstLogin
  { entered with
    site := entered.site.step (β := LoginRequest ⊕ ℤ) sampleLibrary {} (Bench.enumerate []).service (.tick 5) }.visit
      sampleLibrary {} (Bench.enumerate []).service sampleRequestEnv Site.sampleMe

theorem afterLogin_signedIn : afterLogin.finds {} sampleRequestEnv Site.sampleMe = true := by
  have hrun : Run (Step sampleLibrary {} (Bench.enumerate []).service sampleRequestEnv.token)
      (beforeLogin.enter sampleLibrary {} (Bench.enumerate []).service sampleRequestEnv firstLogin)
      [.elsewhere (.tick 5), .visit sampleRequestEnv Site.sampleMe] afterLogin :=
    .cons (.elsewhere (fun _ _ h => nomatch h)) (.cons (.visit (by decide) (by decide)) (.nil _))
  obtain ⟨session, -, -, -, -, hfinds⟩ := stays_signedIn (by decide) (by decide) rfl rfl rfl hrun
  exact (hfinds sampleRequestEnv Site.sampleMe).2.1 (by decide +kernel)

end Visitor

end Tstlan
