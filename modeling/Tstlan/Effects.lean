import Tstlan.App
import Tstlan.Auth.Sessions
import Tstlan.Configs.Mediation
import Tstlan.Devices.Reading

/-! # What a request can change

`Handled` lists the ways in which an endpoint changes the state, each with what it needs of the caller;
`dispatch_cases` puts the middleware in front. The results about requests are read off these two. -/
namespace Tstlan
open Foundations
set_option autoImplicit false

/-! ## Lifted computations -/

section
variable {ε σ α β : Type} {raised : ε → RouteError}

theorem final_onDb (x : EStateM ε Database α) (s : App σ) :
    final ((onDb raised x).run s) = { s with db := final (x.run s.db) } := by
  show final (onDb raised x s) = _
  unfold onDb
  cases x.run s.db <;> rfl

theorem final_onIo (x : EStateM ε σ α) (s : App σ) :
    final ((onIo raised x).run s) = { s with io := final (x.run s.io) } := by
  show final (onIo raised x s) = _
  unfold onIo
  cases x.run s.io <;> rfl

theorem onDb_ok {x : EStateM ε Database α} {a : α} {s t : App σ} (h : (onDb raised x).run s = .ok a t) :
    x.run s.db = .ok a t.db ∧ t = { s with db := t.db } := by
  have hrun : onDb raised x s = .ok a t := h
  unfold onDb at hrun
  split at hrun
  · next hx =>
    cases hrun
    exact ⟨hx, rfl⟩
  · cases hrun

theorem onIo_ok {x : EStateM ε σ α} {a : α} {s t : App σ} (h : (onIo raised x).run s = .ok a t) :
    x.run s.io = .ok a t.io := by
  have hrun : onIo raised x s = .ok a t := h
  unfold onIo at hrun
  split at hrun
  · next hx =>
    cases hrun
    exact hx
  · cases hrun

theorem silent_onDb {x : EStateM ε Database α} (hx : Silent x) : Silent (onDb raised x : AppM σ α) := by
  intro s
  rw [final_onDb, hx s.db]

theorem silent_onIo {x : EStateM ε σ α} (hx : Silent x) : Silent (onIo raised x : AppM σ α) := by
  intro s
  rw [final_onIo, hx s.io]

theorem silent_currentUser (user : Option User) : Silent (currentUser user : AppM σ User) := by
  cases user with
  | none => exact .throw _
  | some user => exact .pure user

theorem currentUser_ok {user : Option User} {u : User} {s t : App σ} (h : (currentUser user).run s = .ok u t) :
    user = some u := by
  cases user with
  | none => cases h
  | some user =>
    cases h
    rfl

theorem silent_decodedBody (request : Request β) : Silent (decodedBody request : AppM σ β) := by
  unfold decodedBody
  cases request.body with
  | none => exact .throw _
  | some body => exact .pure body

theorem silent_validated (x : Option α) : Silent (validated x : AppM σ α) := by
  cases x with
  | none => exact .throw _
  | some a => exact .pure a

end

/-! ## The session of a request -/

section
variable {β σ : Type}

/-- The state after the cookie of the request has been resolved. -/
structure Resolved (settings : Settings) (env : RequestEnv) (s : App σ) (request : Request β)
    (session : Option LoadedSession) (t : App σ) : Prop where
  io : t.io = s.io
  others : Auth.SameButSessions s.db t.db
  /-- At most one session has been prolonged, which had not expired. -/
  sessions : t.db.sessions = s.db.sessions ∨ ∃ stored, s.db.sessions.get? stored.token = some stored ∧
    env.now < stored.expiresAt ∧
    t.db.sessions = s.db.sessions.set stored.token { stored with expiresAt := env.now + settings.ttl }
  /-- A session that is found is stored and has not expired. -/
  stored : ∀ loaded, session = some loaded → ∃ stored,
    request.cookies.get? SESSION_COOKIE = some stored.token ∧ stored.token ≠ "" ∧
    s.db.sessions.get? stored.token = some stored ∧ env.now < stored.expiresAt ∧ loaded.csrfToken = stored.csrfToken ∧
    loaded.user = s.db.users.get? stored.userId

theorem Resolved.same (settings : Settings) (env : RequestEnv) (s : App σ) (request : Request β) :
    Resolved settings env s request none s :=
  ⟨rfl, .refl _, .inl rfl, fun _ h => nomatch h⟩

/-- The cookie of a stored session that has not expired is resolved to its user, and the session renewed. -/
theorem requestSession_live (settings : Settings) (env : RequestEnv) {s : App σ} {request : Request β}
    {session : Session} (hcookie : request.cookies.get? SESSION_COOKIE = some session.token)
    (hne : session.token ≠ "") (hs : s.db.sessions.get? session.token = some session)
    (hlive : env.now < session.expiresAt) :
    ∃ loaded t, (requestSession settings env request).run s = .ok (some loaded) t ∧
      loaded.user = s.db.users.get? session.userId ∧ Resolved settings env s request (some loaded) t := by
  unfold requestSession
  rw [hcookie]
  simp only [if_pos hne]
  show ∃ loaded t, onDb _ _ s = .ok (some loaded) t ∧ _
  unfold onDb
  obtain ⟨db', hrun, htables⟩ := Auth.resolveSession_live settings.logLevel settings.ttl settings.refreshAfter
    hs hlive
  rw [hrun]
  refine ⟨_, _, rfl, rfl, rfl, .of_tables htables, ?_, fun loaded hloaded => ?_⟩
  · have hsessions : db'.sessions = s.db.sessions.set session.token
        (Auth.renewed settings.ttl settings.refreshAfter env.now session) := by rw [htables]
    rw [hsessions]
    unfold Auth.renewed Lease.renew
    split
    · exact .inr ⟨session, hs, hlive, rfl⟩
    · exact .inl (Dict.set_of_get? hs)
  · cases hloaded
    exact ⟨session, hcookie, hne, hs, hlive, rfl, rfl⟩

theorem requestSession_cases (settings : Settings) (env : RequestEnv) (s : App σ) (request : Request β) :
    ∃ session t, (requestSession settings env request).run s = .ok session t ∧
      Resolved settings env s request session t := by
  cases hcookie : request.cookies.get? SESSION_COOKIE with
  | none =>
    refine ⟨none, s, ?_, .same settings env s request⟩
    unfold requestSession
    rw [hcookie]
    rfl
  | some token =>
    by_cases hne : token = ""
    · refine ⟨none, s, ?_, .same settings env s request⟩
      unfold requestSession
      rw [hcookie]
      exact congrArg (fun x : AppM σ (Option LoadedSession) => x.run s) (if_neg (not_not.mpr hne))
    · by_cases hlive : ∃ session, s.db.sessions.get? token = some session ∧ env.now < session.expiresAt
      · obtain ⟨session, hs, hlive⟩ := hlive
        obtain rfl : session.token = token := s.db.constraints.token _ _ hs
        obtain ⟨loaded, t, hrun, -, hres⟩ := requestSession_live settings env hcookie hne hs hlive
        exact ⟨some loaded, t, hrun, hres⟩
      · refine ⟨none, s, ?_, .same settings env s request⟩
        have hdead : ∀ session, s.db.sessions.get? token = some session → session.expiresAt ≤ env.now :=
          fun session hs => not_lt.mp (fun hlt => hlive ⟨session, hs, hlt⟩)
        unfold requestSession
        rw [hcookie]
        simp only [if_pos hne]
        show onDb _ _ s = _
        unfold onDb
        rw [Auth.resolveSession_dead settings.logLevel settings.ttl settings.refreshAfter hdead]

end

/-! ## Endpoints -/

/-- The endpoints that run a call of the config service. -/
def Endpoint.CallsService : Endpoint → Prop
  | .createConfig => True
  | .updateConfig _ => True
  | .deleteConfig _ => True
  | .share _ => True
  | .unshare _ _ => True
  | _ => False

/-- The method of an endpoint. -/
def Endpoint.method : Endpoint → String
  | .login => "POST"
  | .logout => "POST"
  | .writeValue _ _ => "PUT"
  | .createConfig => "POST"
  | .updateConfig _ => "PUT"
  | .deleteConfig _ => "DELETE"
  | .share _ => "POST"
  | .unshare _ _ => "DELETE"
  | _ => "GET"

/-- The path of an endpoint. -/
def Endpoint.texts : Endpoint → List String
  | .health => ["health"]
  | .login => ["auth", "login"]
  | .logout => ["auth", "logout"]
  | .me => ["auth", "me"]
  | .users => ["users"]
  | .devices => ["devices"]
  | .device deviceId => ["devices", deviceId]
  | .values deviceId => ["devices", deviceId, "values"]
  | .value deviceId name => ["devices", deviceId, "values", name]
  | .history deviceId => ["devices", deviceId, "history"]
  | .writeValue deviceId name => ["devices", deviceId, "values", name]
  | .stream deviceId => ["devices", deviceId, "stream"]
  | .configs => ["configs"]
  | .createConfig => ["configs"]
  | .config configId => ["configs", configId]
  | .updateConfig configId => ["configs", configId]
  | .deleteConfig configId => ["configs", configId]
  | .share configId => ["configs", configId, "shares"]
  | .unshare configId grantee => ["configs", configId, "shares", grantee]

/-- The endpoints that may change a value or a config. -/
def Endpoint.Mutates (endpoint : Endpoint) : Prop :=
  endpoint.CallsService ∨ ∃ deviceId name, endpoint = .writeValue deviceId name

section
variable {β σ : Type} [UnidriverIo σ] [ObservableIo σ]
open ObservableIo (memory)

/-- The state after an endpoint that was called for this user. -/
inductive Handled (settings : Settings) (env : RequestEnv) (s : App σ) (user : Option User) :
    Endpoint → App σ → Prop
  | read {e : Endpoint} {io : σ} (hmem : memory io = memory s.io) : Handled settings env s user e { s with io := io }
  | login {u : User} {db : Database} (hactive : u.isActive = true) (huser : s.db.users.get? u.id = some u)
      (htables : db.toTables = { s.db.toTables with
        sessions := s.db.sessions.set env.token (Auth.newSession env.toAuthEnv u settings.ttl) }) :
      Handled settings env s user .login { s with db := db }
  | logout {token : String} {db : Database}
      (htables : db.toTables = { s.db.toTables with sessions := s.db.sessions.erase token }) :
      Handled settings env s user .logout { s with db := db }
  | write {deviceId name : String} {u : User} {io : σ} (huser : user = some u)
      (hrole : u.role ∈ [Role.DEV, Role.ADMIN]) :
      Handled settings env s user (.writeValue deviceId name) { s with io := io }
  | call {e : Endpoint} (call : ConfigCall) (huser : user = some call.user) (he : e.CallsService) :
      Handled settings env s user e
        { s with db := final ((call.run settings.logLevel env.toEnv).run s.db) }

namespace Handled
variable {lib : Library β} {settings : Settings} {env : RequestEnv} {s : App σ} {user : Option User}
  {endpoint : Endpoint} {bench : Bench} {request : Request β}

theorem same (settings : Settings) (env : RequestEnv) (s : App σ) (user : Option User) (endpoint : Endpoint) :
    Handled settings env s user endpoint s :=
  .read rfl

/-- What comes first leaves the state alone. -/
theorem bind {α γ : Type} {x : AppM σ α} {f : α → AppM σ γ} (hx : Silent x)
    (hf : ∀ a, x.run s = .ok a s → Handled settings env s user endpoint (final ((f a).run s))) :
    Handled settings env s user endpoint (final ((x >>= f).run s)) := by
  rcases hx.final_bind f s with h | ⟨a, ha, h⟩
  · rw [h]
    exact same settings env s user endpoint
  · rw [h]
    exact hf a ha

theorem silent {α : Type} {x : AppM σ α} (hx : Silent x) :
    Handled settings env s user endpoint (final (x.run s)) := by
  rw [hx s]
  exact same settings env s user endpoint

/-- The devices are read and the response is made from the result. -/
theorem reads {ε α γ : Type} {raised : ε → RouteError} {x : EStateM ε σ α} {f : α → γ}
    (hx : Keeps (ShowsMemory (memory s.io)) x) :
    Handled settings env s user endpoint
      (final ((do let a ← onIo raised x; return f a : AppM σ γ).run s)) := by
  rw [final_bind (fun _ => .pure _), final_onIo]
  exact .read (hx s.io rfl)

/-- A call of the service is made and the response is made from the result. -/
theorem calls {ε α γ : Type} {raised : ε → RouteError} {x : EStateM ε Database α} {f : α → γ} (call : ConfigCall)
    (huser : user = some call.user) (he : endpoint.CallsService)
    (hx : final (x.run s.db) = final ((call.run settings.logLevel env.toEnv).run s.db)) :
    Handled settings env s user endpoint
      (final ((do let a ← onDb raised x; return f a : AppM σ γ).run s)) := by
  rw [final_bind (fun _ => .pure _), final_onDb, hx]
  exact .call call huser he

theorem handled_login :
    Handled settings env s user .login (final ((AuthRoutes.login lib settings env request).run s)) := by
  unfold AuthRoutes.login
  refine bind (silent_decodedBody request) (fun body _ => ?_)
  refine bind (silent_validated _) (fun payload _ => ?_)
  refine bind (silent_onDb (Auth.silent_authenticate _ _)) (fun found hfound => ?_)
  cases found with
  | none => exact silent ((silent_log _ _).bind (fun _ => .throw _))
  | some u =>
    obtain ⟨hlogin, hactive⟩ := Auth.authenticate_ok (onDb_ok hfound).1
    simp only
    rw [final_bind (fun _ => (silent_log _ _).bind (fun _ => .pure _)), final_onDb]
    rcases Auth.createSession_cases settings.logLevel env.toAuthEnv u settings.ttl s.db with
      ⟨e, h⟩ | ⟨db', h, -, htables⟩
    · rw [h]
      exact same settings env s user .login
    · rw [h]
      exact .login hactive (Configs.userByLogin_some hlogin).1 htables

theorem handled_logout :
    Handled settings env s user .logout (final ((AuthRoutes.logout settings request).run s)) := by
  unfold AuthRoutes.logout
  cases request.cookies.get? SESSION_COOKIE with
  | none => exact silent (.pure _)
  | some token =>
    simp only
    split
    · rw [final_bind (fun _ => (silent_log _ _).bind (fun _ => .pure _)), final_onDb]
      obtain ⟨db', hrun, htables⟩ := Auth.revokeSession_ok settings.logLevel token s.db
      rw [hrun]
      exact .logout htables
    · exact silent (.pure _)

theorem handled_handle (lib : Library β) (settings : Settings) (bench : Bench) (env : RequestEnv) (s : App σ)
    (user : Option User) (csrfToken : Option String) (request : Request β) (endpoint : Endpoint) :
    Handled settings env s user endpoint
      (final ((handle lib settings bench.service env user csrfToken request endpoint).run s)) := by
  have hread : ∀ {α γ : Type} {x : EStateM DeviceRouteError σ α} {f : α → γ} {e : Endpoint},
      Keeps (ShowsMemory (memory s.io)) x → Handled settings env s user e (final
        ((do let _user ← currentUser user; let a ← onIo .device x; return f a : AppM σ γ).run s)) :=
    fun hx => bind (silent_currentUser user) (fun _ _ => reads hx)
  cases endpoint with
  | health => exact silent (.pure _)
  | login => exact handled_login
  | logout => exact handled_logout
  | me => exact silent ((silent_currentUser user).bind (fun _ => .pure _))
  | users =>
    refine silent ((silent_currentUser user).bind (fun _ => (silent_log _ _).bind (fun _ => ?_)))
    have hlist : Silent (Auth.listUsers settings.logLevel) := fun db => (silent_log _ _).bind (fun _ => .pure _) db
    exact (silent_onDb hlist).bind (fun _ => .pure _)
  | devices =>
    have hlist : Silent (DeviceRoutes.listDevices settings.logLevel bench.service : EStateM DeviceRouteError σ _) :=
      (Silent.adaptExcept ((silent_log _ _).bind (fun _ => .pure _)) _).bind (fun _ => .pure _)
    exact hread (hlist.keeps _)
  | device deviceId =>
    have hget : Silent (DeviceRoutes.getDevice settings.logLevel bench.service deviceId :
        EStateM DeviceRouteError σ _) :=
      (Silent.adaptExcept (DeviceService.silent_getDevice deviceId) _).bind (fun _ => .pure _)
    exact hread (hget.keeps _)
  | values deviceId => exact hread (DeviceRoutes.keeps_readValues deviceId)
  | value deviceId name => exact hread (DeviceRoutes.keeps_readValue deviceId name)
  | history deviceId =>
    have hget : Silent (DeviceRoutes.getDevice settings.logLevel bench.service deviceId :
        EStateM DeviceRouteError σ _) :=
      (Silent.adaptExcept (DeviceService.silent_getDevice deviceId) _).bind (fun _ => .pure _)
    exact silent ((silent_currentUser user).bind (fun _ => (silent_onIo hget).bind (fun _ s => rfl)))
  | stream deviceId => exact hread (DeviceRoutes.keeps_streamValues deviceId env.events)
  | writeValue deviceId name =>
    refine bind (silent_decodedBody request) (fun body _ => ?_)
    refine bind (silent_currentUser user) (fun u hu => ?_)
    refine bind (silent_onIo (DeviceRoutes.silent_requireWriter u)) (fun writer hwriter => ?_)
    refine bind (silent_validated _) (fun value _ => ?_)
    rw [final_bind (fun _ => .pure _), final_onIo]
    exact .write (currentUser_ok hu) (DeviceRoutes.requireWriter_ok (onIo_ok hwriter)).2
  | configs =>
    refine silent ((silent_currentUser user).bind (fun u => ?_))
    exact (silent_onDb ConfigRoutes.silent_listEndpoint).bind (fun _ => .pure _)
  | config configId =>
    refine silent ((silent_currentUser user).bind (fun u => (silent_validated _).bind (fun configId => ?_)))
    exact (silent_onDb (ConfigRoutes.silent_getEndpoint configId)).bind (fun _ => .pure _)
  | createConfig =>
    refine bind (silent_decodedBody request) (fun body _ => ?_)
    refine bind (silent_currentUser user) (fun u hu => ?_)
    refine bind (silent_validated _) (fun payload _ => ?_)
    exact calls (.create u payload) (currentUser_ok hu) trivial (ConfigRoutes.final_createEndpoint payload)
  | updateConfig configId =>
    refine bind (silent_decodedBody request) (fun body _ => ?_)
    refine bind (silent_currentUser user) (fun u hu => ?_)
    refine bind (silent_validated _) (fun configId _ => ?_)
    refine bind (silent_validated _) (fun payload _ => ?_)
    exact calls (.update u configId payload) (currentUser_ok hu) trivial
      (ConfigRoutes.final_updateEndpoint configId payload)
  | deleteConfig configId =>
    refine bind (silent_currentUser user) (fun u hu => ?_)
    refine bind (silent_validated _) (fun configId _ => ?_)
    exact calls (.delete u configId) (currentUser_ok hu) trivial (ConfigRoutes.final_deleteEndpoint configId)
  | share configId =>
    refine bind (silent_decodedBody request) (fun body _ => ?_)
    refine bind (silent_currentUser user) (fun u hu => ?_)
    refine bind (silent_validated _) (fun configId _ => ?_)
    refine bind (silent_validated _) (fun payload _ => ?_)
    exact calls (.share u configId payload) (currentUser_ok hu) trivial
      (ConfigRoutes.final_shareEndpoint configId payload)
  | unshare configId login =>
    refine bind (silent_currentUser user) (fun u hu => ?_)
    refine bind (silent_validated _) (fun configId _ => ?_)
    exact calls (.unshare u configId login) (currentUser_ok hu) trivial
      (ConfigRoutes.final_unshareEndpoint configId login)

end Handled

/-! ## The router and the middleware -/

variable {method path : String} {endpoint : Endpoint}

theorem method_of_route {segments : List String} (h : routeSegments method segments = some endpoint) :
    method = endpoint.method := by
  unfold routeSegments at h
  split at h
  all_goals repeat' split at h
  all_goals cases h
  all_goals assumption

/-- An endpoint is found under its own path only. -/
theorem routeSegments_eq_some {segments : List String} :
    routeSegments method segments = some endpoint ↔
      method = endpoint.method ∧ segments = "" :: endpoint.texts := by
  constructor
  · intro h
    refine ⟨method_of_route h, ?_⟩
    unfold routeSegments at h
    split at h
    all_goals repeat' split at h
    all_goals cases h
    all_goals rfl
  · intro h
    rw [h.1, h.2]
    cases endpoint <;> simp [routeSegments, Endpoint.method, Endpoint.texts]

theorem route_eq_some :
    route method path = some endpoint ↔ "" ∉ (Url.segments path).tail ∧ method = endpoint.method ∧
      Url.segments path = "" :: endpoint.texts := by
  have hempty : (Url.segments path).tail.any (· = "") = true ↔ "" ∈ (Url.segments path).tail := by
    rw [List.any_eq_true]
    exact ⟨fun ⟨s, hs, he⟩ => of_decide_eq_true he ▸ hs, fun h => ⟨"", h, decide_eq_true rfl⟩⟩
  rw [← routeSegments_eq_some]
  unfold route
  simp only
  split
  · next h => exact ⟨fun he => (nomatch he), fun hs => absurd (hempty.mp h) hs.1⟩
  · next h => exact ⟨fun he => ⟨fun hin => h (hempty.mpr hin), he⟩, fun hs => hs.2⟩

theorem method_mutates (hm : endpoint.Mutates) : endpoint.method ∈ UNSAFE_METHODS := by
  have hpost : "POST" ∈ UNSAFE_METHODS := by decide
  have hput : "PUT" ∈ UNSAFE_METHODS := by decide
  have hdelete : "DELETE" ∈ UNSAFE_METHODS := by decide
  rcases hm with hm | ⟨deviceId, name, rfl⟩
  · cases endpoint with
    | createConfig => exact hpost
    | updateConfig _ => exact hput
    | deleteConfig _ => exact hdelete
    | share _ => exact hpost
    | unshare _ _ => exact hdelete
    | _ => exact hm.elim
  · exact hput

/-- They are behind a method that is checked, and not on the login path. -/
theorem route_mutates (h : route method path = some endpoint) (hm : endpoint.Mutates) :
    method ∈ UNSAFE_METHODS ∧ path ≠ LOGIN_PATH := by
  constructor
  · unfold route at h
    simp only at h
    split at h
    · cases h
    · rw [method_of_route h]
      exact method_mutates hm
  · rintro rfl
    have hlogin : route method LOGIN_PATH = if method = "POST" then some .login else none := rfl
    rw [hlogin] at h
    split at h
    · cases h
      rcases hm with hm | ⟨_, _, hm⟩
      · exact hm
      · cases hm
    · cases h

omit [ObservableIo σ] in
theorem final_callNext (lib : Library β) (settings : Settings) (service : DeviceService) (env : RequestEnv)
    (user : Option User) (csrfToken : Option String) (request : Request β) (s : App σ) :
    final ((callNext lib settings service env user csrfToken request).run s) = s ∨
      ∃ endpoint, route request.method request.path = some endpoint ∧
        final ((callNext lib settings service env user csrfToken request).run s) =
          final ((handle lib settings service env user csrfToken request endpoint).run s) := by
  unfold callNext
  cases hroute : route request.method request.path with
  | none => exact .inl rfl
  | some endpoint =>
    refine .inr ⟨endpoint, rfl, ?_⟩
    simp only [EStateM.run]
    cases handle lib settings service env user csrfToken request endpoint s with
    | ok response t => rfl
    | error e t =>
      simp only
      cases e.response lib.repr <;> rfl

omit [ObservableIo σ] in
/-- What becomes of a request whose cookie has been resolved. -/
theorem dispatch_of_session (lib : Library β) (settings : Settings) (service : DeviceService) (env : RequestEnv)
    (request : Request β) {s t : App σ} {session : Option LoadedSession}
    (hrun : (requestSession settings env request).run s = .ok session t) :
    final ((dispatch lib settings service env request).run s) = t ∨
      AuthCsrfMiddleware.rejectCsrf lib.netlocAllowed lib.urlPath settings request
          (session.map (fun session => session.csrfToken)) = .ok none ∧
        ∃ endpoint, route request.method request.path = some endpoint ∧
          final ((dispatch lib settings service env request).run s) =
            final ((handle lib settings service env (session.bind LoadedSession.user)
              (session.map (fun session => session.csrfToken)) request endpoint).run t) := by
  unfold dispatch
  rw [run_bind_ok hrun]
  simp only
  cases hcsrf : AuthCsrfMiddleware.rejectCsrf lib.netlocAllowed lib.urlPath settings request
    (session.map (fun session => session.csrfToken)) with
  | error e => exact .inl rfl
  | ok denied =>
    cases denied with
    | some response => exact .inl rfl
    | none =>
      simp only [Except.mapError, fromExcept_ok_bind]
      rcases final_callNext lib settings service env (session.bind LoadedSession.user)
        (session.map (fun session => session.csrfToken)) request t with h | ⟨endpoint, hroute, h⟩
      · refine .inl ((final_bind (fun response => ?_) t).trans h)
        split
        · split <;> exact .pure _
        · exact .pure _
      · refine .inr ⟨trivial, endpoint, hroute, (final_bind (fun response => ?_) t).trans h⟩
        split
        · split <;> exact .pure _
        · exact .pure _

omit [ObservableIo σ] in
/-- A request is refused after its cookie has been resolved, or passes the CSRF check to its endpoint. -/
theorem dispatch_cases (lib : Library β) (settings : Settings) (service : DeviceService) (env : RequestEnv)
    (request : Request β) (s : App σ) :
    ∃ session t, Resolved settings env s request session t ∧
      (final ((dispatch lib settings service env request).run s) = t ∨
        AuthCsrfMiddleware.rejectCsrf lib.netlocAllowed lib.urlPath settings request
            (session.map (fun session => session.csrfToken)) = .ok none ∧
          ∃ endpoint, route request.method request.path = some endpoint ∧
            final ((dispatch lib settings service env request).run s) =
              final ((handle lib settings service env (session.bind LoadedSession.user)
                (session.map (fun session => session.csrfToken)) request endpoint).run t)) := by
  obtain ⟨session, t, hrun, hres⟩ := requestSession_cases settings env s request
  exact ⟨session, t, hres, dispatch_of_session lib settings service env request hrun⟩

end
end Tstlan
