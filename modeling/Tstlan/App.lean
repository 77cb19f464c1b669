import Tstlan.Auth.Middleware
import Tstlan.Configs.Routes
import Tstlan.Devices.Bench

/-! # The application (`tstlan/app.py`)

One request, from the middleware through the router to an endpoint and back, over the database, the
devices and the history. The framework's parsers of bodies and path parameters, the password hasher and
the check of netlocs are parameters, as is the path that `request.url` shows to the middleware, which the
framework rebuilds from the request. -/
namespace Tstlan
open Foundations
set_option autoImplicit false

structure App (σ : Type) where
  db : Database
  io : σ
  history : History := Dict.empty

/-- What the application takes from packages; `β` is a decoded body. -/
structure Library (β : Type) where
  hasher : PasswordHasher
  repr : Binary.Double → String
  netlocAllowed : String → Bool
  /-- `request.url.path`. -/
  urlPath : Request β → String
  intParam : String → Option ℤ
  loginRequest : β → Option LoginRequest
  writeValueRequest : β → Option Number
  configCreate : β → Option ConfigCreate
  configUpdate : β → Option ConfigUpdate
  shareRequest : β → Option ShareRequest

/-- What a request takes from outside; a stream is stopped after `events` of them. -/
structure RequestEnv extends AuthEnv where
  events : ℕ := 0

/-- What an endpoint raises. -/
inductive RouteError
  | http (status : ℕ) (detail : String)
  | device (e : DeviceRouteError)
  | config (e : ConfigError)
  | auth (e : AuthError)
  | python (e : PyError)
  deriving DecidableEq

/-- The response of the registered handlers; `none` is an exception without one. -/
def RouteError.response (repr : Binary.Double → String) : RouteError → Option Response
  | .http status detail => some ⟨status, .detail detail, .keep⟩
  | .device (.http status detail) => some ⟨status, .detail detail, .keep⟩
  | .device (.service e) =>
    (DeviceRouteError.service e).status.map (fun status => ⟨status, .detail (e.text repr), .keep⟩)
  | .config e => e.status.map (fun status => ⟨status, .detail e.text, .keep⟩)
  | .auth _ => none
  | .python _ => none

abbrev AppM (σ : Type) := EStateM RouteError (App σ)

section
variable {ε σ α : Type}

/-- A computation on the database. -/
def onDb (raised : ε → RouteError) (x : EStateM ε Database α) : AppM σ α := fun s =>
  match x.run s.db with
  | .ok a db => .ok a { s with db := db }
  | .error e db => .error (raised e) { s with db := db }

/-- A computation on the devices. -/
def onIo (raised : ε → RouteError) (x : EStateM ε σ α) : AppM σ α := fun s =>
  match x.run s.io with
  | .ok a io => .ok a { s with io := io }
  | .error e io => .error (raised e) { s with io := io }

end

/-! ## The router -/

inductive Endpoint
  | health
  | login
  | logout
  | me
  | users
  | devices
  | device (deviceId : String)
  | values (deviceId : String)
  | value (deviceId name : String)
  | history (deviceId : String)
  | writeValue (deviceId name : String)
  | stream (deviceId : String)
  | configs
  | createConfig
  | config (configId : String)
  | updateConfig (configId : String)
  | deleteConfig (configId : String)
  | share (configId : String)
  | unshare (configId login : String)
  deriving DecidableEq

/-- The routes, by method and by the segments of the path. -/
def routeSegments (method : String) : List String → Option Endpoint
  | ["", "health"] => if method = "GET" then some .health else none
  | ["", "auth", "login"] => if method = "POST" then some .login else none
  | ["", "auth", "logout"] => if method = "POST" then some .logout else none
  | ["", "auth", "me"] => if method = "GET" then some .me else none
  | ["", "users"] => if method = "GET" then some .users else none
  | ["", "devices"] => if method = "GET" then some .devices else none
  | ["", "devices", deviceId] => if method = "GET" then some (.device deviceId) else none
  | ["", "devices", deviceId, "values"] => if method = "GET" then some (.values deviceId) else none
  | ["", "devices", deviceId, "values", name] =>
    if method = "GET" then some (.value deviceId name)
    else if method = "PUT" then some (.writeValue deviceId name) else none
  | ["", "devices", deviceId, "history"] => if method = "GET" then some (.history deviceId) else none
  | ["", "devices", deviceId, "stream"] => if method = "GET" then some (.stream deviceId) else none
  | ["", "configs"] =>
    if method = "GET" then some .configs else if method = "POST" then some .createConfig else none
  | ["", "configs", configId] =>
    if method = "GET" then some (.config configId)
    else if method = "PUT" then some (.updateConfig configId)
    else if method = "DELETE" then some (.deleteConfig configId) else none
  | ["", "configs", configId, "shares"] => if method = "POST" then some (.share configId) else none
  | ["", "configs", configId, "shares", login] =>
    if method = "DELETE" then some (.unshare configId login) else none
  | _ => none

/-- A path parameter is not empty, nor is a fixed segment. -/
def route (method path : String) : Option Endpoint :=
  let segments := Url.segments path
  if segments.tail.any (· = "") then none else routeSegments method segments

/-- A route has this path, for some method. -/
def routed (path : String) : Bool := ["GET", "POST", "PUT", "DELETE"].any (fun method => (route method path).isSome)

/-- `redirect_slashes` of the router: all slashes at the end are dropped, or one is added. -/
def toggleSlash (path : String) : String :=
  let chars := path.toList
  if chars.getLast? = some '/' then String.ofList (chars.reverse.dropWhile (· = '/')).reverse
  else String.ofList (chars ++ ['/'])

/-- The answer where no route has the method and the path. -/
def unrouted (path : String) : Response :=
  if routed path then ⟨405, .detail "Method Not Allowed", .keep⟩
  else if path ≠ "/" ∧ routed (toggleSlash path) then ⟨307, .redirect (toggleSlash path), .keep⟩
  else ⟨404, .detail "Not Found", .keep⟩

theorem unrouted_status (path : String) : (unrouted path).status ∈ [307, 404, 405] := by
  unfold unrouted
  split
  · simp
  · split <;> simp

theorem unrouted_cookie (path : String) : (unrouted path).cookie = .keep := by
  unfold unrouted
  split
  · rfl
  · split <;> rfl

example : [unrouted "/configs/5/shares", unrouted "/health/", unrouted "/shares"].map Response.status = [405, 307, 404] := by
  decide

/-! ## The endpoints -/

section
variable {β σ : Type}

/-- `current_user`. -/
def currentUser (user : Option User) : AppM σ User :=
  match user with
  | some user => return user
  | none => throw (.http 401 "not authenticated")

/-- The body is decoded before anything else of the endpoint runs. -/
def decodedBody (request : Request β) : AppM σ β :=
  match request.body with
  | some body => return body
  | none => throw (.http 422 "json_invalid")

def validated {α : Type} (x : Option α) : AppM σ α :=
  match x with
  | some a => return a
  | none => throw (.http 422 "validation error")

variable (lib : Library β) (settings : Settings)

namespace AuthRoutes
variable (env : RequestEnv) (request : Request β)

def identity (user : User) (csrfToken : Option String) : Response :=
  ⟨200, .identity user.login user.role csrfToken, .keep⟩

def login : AppM σ Response := do
  let body ← decodedBody request
  let payload ← validated (lib.loginRequest body)
  let user ← onDb .auth (Auth.authenticate settings.logLevel lib.hasher payload.login payload.password)
  match user with
  | none =>
    log .python (logCall settings.logLevel .WARNING ["login"])
    throw (.http 401 "invalid credentials")
  | some user =>
    let session ← onDb .auth (Auth.createSession settings.logLevel env.toAuthEnv user settings.ttl)
    log .python (logCall settings.logLevel .INFO ["login", "role"])
    return setSessionCookie settings (identity user (some session.csrfToken)) session.token

def logout : AppM σ Response := do
  match request.cookies.get? SESSION_COOKIE with
  | none => return clearSessionCookie ⟨200, .loggedOut, .keep⟩
  | some token =>
    if token ≠ "" then
      onDb .auth (Auth.revokeSession settings.logLevel token)
      log .python (logCall settings.logLevel .INFO [])
    return clearSessionCookie ⟨200, .loggedOut, .keep⟩

def me (user : Option User) (csrfToken : Option String) : AppM σ Response := do
  let user ← currentUser user
  return identity user csrfToken

def listUsersEndpoint (user : Option User) : AppM σ Response := do
  let _user ← currentUser user
  log .python (logCall settings.logLevel .DEBUG ["login"])
  let users ← onDb .auth (Auth.listUsers settings.logLevel)
  return ⟨200, .users (users.map (fun user => ⟨user.login, user.role⟩)), .keep⟩

end AuthRoutes

variable [UnidriverIo σ] (service : DeviceService) (env : RequestEnv)

/-- The endpoint, for the user and the CSRF token that the middleware has found. -/
def handle (user : Option User) (csrfToken : Option String) (request : Request β) : Endpoint → AppM σ Response
  | .health => return ⟨200, .health, .keep⟩
  | .login => AuthRoutes.login lib settings env request
  | .logout => AuthRoutes.logout settings request
  | .me => AuthRoutes.me user csrfToken
  | .users => AuthRoutes.listUsersEndpoint settings user
  | .devices => do
    let _user ← currentUser user
    let devices ← onIo .device (DeviceRoutes.listDevices settings.logLevel service)
    return ⟨200, .devices devices, .keep⟩
  | .device deviceId => do
    let _user ← currentUser user
    let device ← onIo .device (DeviceRoutes.getDevice settings.logLevel service deviceId)
    return ⟨200, .device device, .keep⟩
  | .values deviceId => do
    let _user ← currentUser user
    let values ← onIo .device (DeviceRoutes.readValues settings.logLevel service deviceId)
    return ⟨200, .values values, .keep⟩
  | .value deviceId name => do
    let _user ← currentUser user
    let value ← onIo .device (DeviceRoutes.readValue settings.logLevel service deviceId name)
    return ⟨200, .value value, .keep⟩
  | .history deviceId => do
    let _user ← currentUser user
    let _device ← onIo .device (DeviceRoutes.getDevice settings.logLevel service deviceId)
    let s ← get
    return ⟨200, .history ((deviceHistory s.history deviceId).map HistoryPoint.fromSample), .keep⟩
  | .writeValue deviceId name => do
    let body ← decodedBody request
    let user ← currentUser user
    -- the dependency of the endpoint below, which runs before the body is validated
    let writer ← onIo .device (DeviceRoutes.requireWriter settings.logLevel user)
    let value ← validated (lib.writeValueRequest body)
    let value ← onIo .device (DeviceRoutes.writeValue settings.logLevel service writer deviceId name value)
    return ⟨200, .value value, .keep⟩
  | .stream deviceId => do
    let _user ← currentUser user
    let events ← onIo .device (DeviceRoutes.streamValues settings.logLevel service deviceId env.events)
    return ⟨200, .stream events, .keep⟩
  | .configs => do
    let user ← currentUser user
    let configs ← onDb .config (ConfigRoutes.listEndpoint settings.logLevel user)
    return ⟨200, .configs configs, .keep⟩
  | .createConfig => do
    let body ← decodedBody request
    let user ← currentUser user
    let payload ← validated (lib.configCreate body)
    let config ← onDb .config (ConfigRoutes.createEndpoint settings.logLevel env.toEnv user payload)
    return ⟨201, .config config, .keep⟩
  | .config configId => do
    let user ← currentUser user
    let configId ← validated (lib.intParam configId)
    let config ← onDb .config (ConfigRoutes.getEndpoint settings.logLevel user configId)
    return ⟨200, .config config, .keep⟩
  | .updateConfig configId => do
    let body ← decodedBody request
    let user ← currentUser user
    let configId ← validated (lib.intParam configId)
    let payload ← validated (lib.configUpdate body)
    let config ← onDb .config (ConfigRoutes.updateEndpoint settings.logLevel env.toEnv user configId payload)
    return ⟨200, .config config, .keep⟩
  | .deleteConfig configId => do
    let user ← currentUser user
    let configId ← validated (lib.intParam configId)
    onDb .config (ConfigRoutes.deleteEndpoint settings.logLevel user configId)
    return ⟨204, .empty, .keep⟩
  | .share configId => do
    let body ← decodedBody request
    let user ← currentUser user
    let configId ← validated (lib.intParam configId)
    let payload ← validated (lib.shareRequest body)
    let config ← onDb .config (ConfigRoutes.shareEndpoint settings.logLevel env.toEnv user configId payload)
    return ⟨200, .config config, .keep⟩
  | .unshare configId login => do
    let user ← currentUser user
    let configId ← validated (lib.intParam configId)
    let config ← onDb .config (ConfigRoutes.unshareEndpoint settings.logLevel env.toEnv user configId login)
    return ⟨200, .config config, .keep⟩

/-! ## One request -/

/-- The router and the exception handlers behind the middleware. -/
def callNext (user : Option User) (csrfToken : Option String) (request : Request β) : AppM σ Response :=
  match route request.method request.path with
  | none => return unrouted request.path
  | some endpoint => fun s =>
    match (handle lib settings service env user csrfToken request endpoint).run s with
    | .ok response s => .ok response s
    | .error e s =>
      match e.response lib.repr with
      | some response => .ok response s
      | none => .error e s

/-- The session that the cookie of the request resolves to. -/
def requestSession (request : Request β) : AppM σ (Option LoadedSession) :=
  match request.cookies.get? SESSION_COOKIE with
  | none => return none
  | some token =>
    if token ≠ "" then
      onDb .auth (Auth.resolveSession settings.logLevel env.toAuthEnv token settings.ttl settings.refreshAfter)
    else return none

/-- `AuthCsrfMiddleware.dispatch`. -/
def dispatch (request : Request β) : AppM σ Response := do
  let session ← requestSession settings env request
  let user := session.bind LoadedSession.user
  let csrfToken := session.map (fun session => session.csrfToken)
  let denied ← fromExcept
    ((AuthCsrfMiddleware.rejectCsrf lib.netlocAllowed lib.urlPath settings request csrfToken).mapError .python)
  match denied with
  | some response => return response
  | none =>
    let response ← callNext lib settings service env user csrfToken request
    match request.cookies.get? SESSION_COOKIE, csrfToken with
    | some token, some _ =>
      if request.method ∈ SAFE_METHODS then return setSessionCookie settings response token
      else return response
    | _, _ => return response

/-- The response, none when the server answers an unhandled exception, and the state afterwards. -/
def serve (request : Request β) (s : App σ) : Option Response × App σ :=
  let result := (dispatch lib settings service env request).run s
  ((outcome result).toOption, final result)

end

/-- A body is a login or a value; a password is kept behind its salt. -/
def sampleLibrary : Library (LoginRequest ⊕ ℤ) where
  hasher :=
    { hash := fun salt password => salt ++ password
      verify := fun hash password => if hash = "salt" ++ password then .ok true else .error .verifyMismatch }
  repr _ := ""
  netlocAllowed _ := true
  urlPath := Request.path
  intParam := String.toInt?
  loginRequest := Sum.getLeft?
  writeValueRequest body := body.getRight?.map Number.int
  configCreate _ := none
  configUpdate _ := none
  shareRequest _ := none

def sampleRequestEnv : RequestEnv := ⟨⟨⟨0, IdSource.largest⟩, "token", "csrf", "salt"⟩, 0⟩

end Tstlan
