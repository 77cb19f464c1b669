import Tstlan.Deactivation
import Tstlan.Devices.WriteValue

/-! # Complete mediation

A request that changes a device value or a config has passed every layer: its session, the origin and the
token of the CSRF check, and the role or the grant that the change needs. The layers are in different places
of the code; `handled_handle` says which endpoints change anything at all, `route_mutates` that those are
behind the CSRF check, and `permitted_call` what the config service asks of its caller. -/
namespace Tstlan
open Foundations
open ObservableIo (memory)
set_option autoImplicit false

namespace Database
variable {db t db' : Database} {user : User} {id : ℤ}

theorem managed_congr (hconfigs : t.configs = db.configs) (hgrants : t.grants = db.grants) (id : ℤ) :
    t.managed id = db.managed id := by
  unfold managed
  rw [hconfigs, hgrants]

/-- Only the configs and the grants of the state before count. -/
theorem Mediated.congr (h : Mediated t db' user id) (hconfigs : t.configs = db.configs)
    (hgrants : t.grants = db.grants) : Mediated db db' user id where
  manage hne := by
    rw [← managed_congr hconfigs hgrants] at hne
    unfold Owns
    rw [← hconfigs]
    exact h.manage hne
  payload row row' hrow := by
    rw [← hconfigs] at hrow
    rw [← hgrants]
    exact h.payload row row' hrow
  publish row' hrow' hpublic hnot := by
    rw [← hconfigs] at hnot
    exact h.publish row' hrow' hpublic hnot

end Database

namespace AuthCsrfMiddleware
variable {β : Type} {netlocAllowed : String → Bool} {urlPath : Request β → String} {settings : Settings}
  {request : Request β}

theorem originAllowed_eq_true (h : originAllowed netlocAllowed settings request = .ok true) :
    ∃ origin, requestOrigin netlocAllowed request = .ok (some origin) ∧ origin ∈ settings.allowedOrigins := by
  unfold originAllowed at h
  cases horigin : requestOrigin netlocAllowed request with
  | error e =>
    rw [horigin] at h
    cases h
  | ok found =>
    rw [horigin] at h
    have hany : found.any (fun origin => origin ∈ settings.allowedOrigins) = true := Except.ok.inj h
    cases found with
    | none => cases hany
    | some origin => exact ⟨origin, rfl, of_decide_eq_true hany⟩

/-- A request with a session passes the check exactly with an allowed origin and the session's token; what is taken for
a login is not asked for the token. -/
theorem rejectCsrf_passed_iff {csrfToken : String} (hmethod : request.method ∈ UNSAFE_METHODS) :
    rejectCsrf netlocAllowed urlPath settings request (some csrfToken) = .ok none ↔
      originAllowed netlocAllowed settings request = .ok true ∧
        (urlPath request = LOGIN_PATH ∨ request.headers.get? CSRF_HEADER = some csrfToken) := by
  unfold rejectCsrf
  rw [if_neg (not_not.mpr hmethod)]
  cases originAllowed netlocAllowed settings request with
  | error e => split <;> exact ⟨fun h => (nomatch h), fun h => (nomatch h.1)⟩
  | ok allowed =>
    by_cases hlogin : urlPath request = LOGIN_PATH
    · rw [if_pos hlogin]
      cases allowed with
      | false => exact ⟨fun h => (nomatch h), fun h => (nomatch h.1)⟩
      | true => exact ⟨fun _ => ⟨rfl, .inl hlogin⟩, fun _ => rfl⟩
    · rw [if_neg hlogin]
      cases allowed with
      | false => exact ⟨fun h => (nomatch h), fun h => (nomatch h.1)⟩
      | true =>
        by_cases hheader : request.headers.get? CSRF_HEADER = some csrfToken
        · refine ⟨fun _ => ⟨rfl, .inr hheader⟩, fun _ => ?_⟩
          simp only [hheader, ne_eq, not_true, if_false]
          rfl
        · refine ⟨fun h => ?_, fun h => absurd h.2 (not_or.mpr ⟨hlogin, hheader⟩)⟩
          simp only [ne_eq, hheader, not_false_eq_true, if_true] at h
          cases h

/-- What a request with a session has shown when it passes the check. -/
theorem rejectCsrf_passed {csrfToken : String} (hmethod : request.method ∈ UNSAFE_METHODS)
    (hpath : urlPath request ≠ LOGIN_PATH)
    (h : rejectCsrf netlocAllowed urlPath settings request (some csrfToken) = .ok none) :
    (∃ origin, requestOrigin netlocAllowed request = .ok (some origin) ∧ origin ∈ settings.allowedOrigins) ∧
      request.headers.get? CSRF_HEADER = some csrfToken :=
  have ⟨hallowed, hshown⟩ := (rejectCsrf_passed_iff hmethod).mp h
  ⟨originAllowed_eq_true hallowed, hshown.resolve_left hpath⟩

end AuthCsrfMiddleware

section
variable {β σ : Type}

/-- The request carries the cookie of a stored session of the user that has not expired, claims an allowed
origin and shows the session's CSRF token. -/
def Authorized (netlocAllowed : String → Bool) (settings : Settings) (now : Time) (db : Database)
    (request : Request β) (user : User) : Prop :=
  ∃ session, request.cookies.get? SESSION_COOKIE = some session.token ∧
    db.sessions.get? session.token = some session ∧ now < session.expiresAt ∧
    db.users.get? session.userId = some user ∧
    (∃ origin, AuthCsrfMiddleware.requestOrigin netlocAllowed request = .ok (some origin) ∧
      origin ∈ settings.allowedOrigins) ∧
    request.headers.get? CSRF_HEADER = some session.csrfToken

/-- The middleware takes the request for a login, and the router does not: it carries the cookie of a live session,
but not the token, and reaches an endpoint that changes something. -/
structure SkipsToken (lib : Library β) (settings : Settings) (env : RequestEnv) (s : App σ) (request : Request β) :
    Prop where
  login : lib.urlPath request = LOGIN_PATH
  mutates : ∃ endpoint, route request.method request.path = some endpoint ∧ endpoint.Mutates
  origin : AuthCsrfMiddleware.originAllowed lib.netlocAllowed settings request = .ok true
  session : ∃ session, request.cookies.get? SESSION_COOKIE = some session.token ∧ session.token ≠ "" ∧
    s.db.sessions.get? session.token = some session ∧ env.now < session.expiresAt ∧
    request.headers.get? CSRF_HEADER ≠ some session.csrfToken

variable {lib : Library β} {settings : Settings} {env : RequestEnv} {s t : App σ} {request : Request β}

/-- No request does, if the middleware takes only those for a login that the router does. -/
theorem not_skipsToken (hurl : lib.urlPath request = LOGIN_PATH → request.path = LOGIN_PATH) :
    ¬ SkipsToken lib settings env s request := by
  intro h
  obtain ⟨endpoint, hroute, hmutates⟩ := h.mutates
  exact (route_mutates hroute hmutates).2 (hurl h.login)

/-- It passes the check, and nobody has authorized it. -/
theorem SkipsToken.unauthorized (h : SkipsToken lib settings env s request) :
    (∀ csrfToken, AuthCsrfMiddleware.rejectCsrf lib.netlocAllowed lib.urlPath settings request (some csrfToken) = .ok none) ∧
      ∀ user, ¬ Authorized lib.netlocAllowed settings env.now s.db request user := by
  obtain ⟨endpoint, hroute, hmutates⟩ := h.mutates
  refine ⟨fun csrfToken => (AuthCsrfMiddleware.rejectCsrf_passed_iff (route_mutates hroute hmutates).1).mpr
    ⟨h.origin, .inl h.login⟩, ?_⟩
  obtain ⟨session, hcookie, -, hs, -, hheader⟩ := h.session
  rintro user ⟨stored, hcookie', hs', -, -, -, hheader'⟩
  rw [hcookie] at hcookie'
  rw [← Option.some.inj hcookie', hs] at hs'
  cases hs'
  exact hheader hheader'

/-- A request that reaches an endpoint that changes something is authorized, unless it skips the token. -/
theorem Resolved.authorized {session : Option LoadedSession} {endpoint : Endpoint}
    (h : Resolved settings env s request session t) {user : User} (huser : session.bind LoadedSession.user = some user)
    (hcsrf : AuthCsrfMiddleware.rejectCsrf lib.netlocAllowed lib.urlPath settings request
      (session.map (fun session => session.csrfToken)) = .ok none)
    (hroute : route request.method request.path = some endpoint) (hmutates : endpoint.Mutates)
    (hskips : ¬ SkipsToken lib settings env s request) :
    Authorized lib.netlocAllowed settings env.now s.db request user := by
  cases session with
  | none => cases huser
  | some loaded =>
    obtain ⟨stored, hcookie, hne, hstored, hlive, htoken, hloaded⟩ := h.stored loaded rfl
    obtain ⟨horigin, hshown⟩ := (AuthCsrfMiddleware.rejectCsrf_passed_iff (route_mutates hroute hmutates).1).mp hcsrf
    have hpassed : lib.urlPath request = LOGIN_PATH ∨ request.headers.get? CSRF_HEADER = some stored.csrfToken :=
      htoken ▸ hshown
    refine ⟨stored, hcookie, hstored, hlive, ?_, AuthCsrfMiddleware.originAllowed_eq_true horigin, ?_⟩
    · rw [← hloaded]
      exact huser
    · refine hpassed.elim (fun hlogin => not_not.mp (fun hheader => hskips ?_)) id
      exact ⟨hlogin, ⟨endpoint, hroute, hmutates⟩, horigin, stored, hcookie, hne, hstored, hlive, hheader⟩

variable [UnidriverIo σ] [ObservableIo σ]

/-- No value and no config has changed. -/
structure Unchanged (s s' : App σ) : Prop where
  values : memory s'.io = memory s.io
  configs : s'.db.configs = s.db.configs
  grants : s'.db.grants = s.db.grants

theorem Unchanged.of_resolved {session : Option LoadedSession} (h : Resolved settings env s request session t) :
    Unchanged s t :=
  ⟨by rw [h.io], h.others.configs, Database.grants_congr h.others.shares⟩

/-- What has changed is what this user may change. -/
structure Allowed (s s' : App σ) (user : User) : Prop where
  values : memory s'.io ≠ memory s.io → user.role ∈ [Role.DEV, Role.ADMIN]
  configs : ∀ id, Database.Mediated s.db s'.db user id

/-- One endpoint, for one user. -/
theorem Handled.unchanged_or {user : Option User} {endpoint : Endpoint} {s' : App σ}
    (h : Handled settings env s user endpoint s') :
    Unchanged s s' ∨ endpoint.Mutates ∧ ∃ u, user = some u ∧ Allowed s s' u := by
  cases h with
  | read hmem => exact .inl ⟨hmem, rfl, rfl⟩
  | login hactive huser htables =>
    exact .inl ⟨rfl, by rw [htables], Database.grants_congr (by rw [htables])⟩
  | logout htables => exact .inl ⟨rfl, by rw [htables], Database.grants_congr (by rw [htables])⟩
  | write huser hrole =>
    exact .inr ⟨.inr ⟨_, _, rfl⟩, _, huser, fun _ => hrole, Database.Mediated.refl _ _⟩
  | call call huser he =>
    refine .inr ⟨.inl he, _, huser, fun hne => absurd rfl hne, fun id => ?_⟩
    exact (Configs.permitted_call settings.logLevel env.toEnv s.db call).mediated id

/-- A request that does not skip the token changes nothing, or is authorized by a user who may change what it does. -/
theorem serve_unchanged_or (lib : Library β) (settings : Settings) (bench : Bench) (env : RequestEnv)
    (request : Request β) (s : App σ) (hskips : ¬ SkipsToken lib settings env s request) :
    Unchanged s (serve lib settings bench.service env request s).2 ∨
      ∃ user, Authorized lib.netlocAllowed settings env.now s.db request user ∧
        Allowed s (serve lib settings bench.service env request s).2 user := by
  obtain ⟨session, t, hresolved, hdispatch⟩ := dispatch_cases lib settings bench.service env request s
  have hsame : Unchanged s t := .of_resolved hresolved
  show Unchanged s (final _) ∨ ∃ user, _ ∧ Allowed s (final _) user
  rcases hdispatch with hrefused | ⟨hcsrf, endpoint, hroute, hrun⟩
  · rw [hrefused]
    exact .inl hsame
  · rw [hrun]
    have hhandled := Handled.handled_handle lib settings bench env t (session.bind LoadedSession.user)
      (session.map (fun session => session.csrfToken)) request endpoint
    rcases hhandled.unchanged_or with h | ⟨hmutates, user, huser, hallowed⟩
    · exact .inl ⟨h.values.trans hsame.values, h.configs.trans hsame.configs, h.grants.trans hsame.grants⟩
    · refine .inr ⟨user, hresolved.authorized huser hcsrf hroute hmutates hskips, fun hne => ?_, fun id => ?_⟩
      · rw [← hsame.values] at hne
        exact hallowed.values hne
      · exact (hallowed.configs id).congr hsame.configs hsame.grants

/-- Whatever the request changes, it was authorized by a user who may change it. -/
structure CompletelyMediated (lib : Library β) (settings : Settings) (bench : Bench) (env : RequestEnv)
    (request : Request β) (s s' : App σ) : Prop where
  values : ∀ acc ∈ bench.accessors, acc.value (memory s'.io) ≠ acc.value (memory s.io) →
    ∃ user, Authorized lib.netlocAllowed settings env.now s.db request user ∧ user.role ∈ [Role.DEV, Role.ADMIN]
  manage : ∀ configId, s'.db.managed configId ≠ s.db.managed configId →
    ∃ user, Authorized lib.netlocAllowed settings env.now s.db request user ∧
      (user.role = .ADMIN ∨ Database.Owns s.db s'.db user configId)
  payload : ∀ configId row row', s.db.configs.get? configId = some row → s'.db.configs.get? configId = some row' →
    row'.payload ≠ row.payload → ∃ user, Authorized lib.netlocAllowed settings env.now s.db request user ∧
      (user.role = .ADMIN ∨ row.ownerId = user.id ∨ s.db.grants configId user.id = some .WRITE)
  publish : ∀ configId row', s'.db.configs.get? configId = some row' → row'.visibility = .PUBLIC →
    (∀ row, s.db.configs.get? configId = some row → row.visibility ≠ .PUBLIC) →
      ∃ user, Authorized lib.netlocAllowed settings env.now s.db request user ∧ user.role ∈ [Role.DEV, Role.ADMIN]

/-- Nothing that needs an authorization has changed. -/
structure Untouched (bench : Bench) (s s' : App σ) : Prop where
  values : ∀ acc ∈ bench.accessors, acc.value (memory s'.io) = acc.value (memory s.io)
  manage : ∀ configId, s'.db.managed configId = s.db.managed configId
  payload : ∀ configId row row', s.db.configs.get? configId = some row → s'.db.configs.get? configId = some row' →
    row'.payload = row.payload

theorem Unchanged.untouched {s' : App σ} (h : Unchanged s s') (bench : Bench) : Untouched bench s s' where
  values acc _ := congrArg acc.value h.values
  manage id := Database.managed_congr h.configs h.grants id
  payload id row row' hrow hrow' := by
    rw [h.configs, hrow] at hrow'
    exact congrArg DeviceConfig.payload (Option.some.inj hrow').symm

theorem Untouched.mediated {bench : Bench} {s' : App σ} (h : Untouched bench s s') :
    CompletelyMediated lib settings bench env request s s' where
  values acc hacc hne := absurd (h.values acc hacc) hne
  manage id hne := absurd (h.manage id) hne
  payload id row row' hrow hrow' hne := absurd (h.payload id row row' hrow hrow') hne
  publish id row' hrow' hpublic hnot := by
    -- the label was there before
    have hlabel := congrArg Prod.fst (h.manage id)
    simp only [Database.managed, hrow', Option.map_some] at hlabel
    obtain ⟨row, hrow, he⟩ := Option.map_eq_some_iff.mp hlabel.symm
    exact absurd ((congrArg Prod.snd he).trans hpublic) (hnot row hrow)

/-- Without an authorization nothing may change. -/
theorem mediated_iff_untouched (h : ∀ user, ¬ Authorized lib.netlocAllowed settings env.now s.db request user)
    (bench : Bench) (s' : App σ) :
    CompletelyMediated lib settings bench env request s s' ↔ Untouched bench s s' := by
  have hnobody {P : User → Prop} :
      ¬ ∃ user, Authorized lib.netlocAllowed settings env.now s.db request user ∧ P user :=
    fun ⟨user, hauthorized, _⟩ => h user hauthorized
  refine ⟨fun hmediated => ?_, Untouched.mediated⟩
  exact ⟨fun acc hacc => not_not.mp (fun hne => hnobody (hmediated.values acc hacc hne)),
    fun id => not_not.mp (fun hne => hnobody (hmediated.manage id hne)),
    fun id row row' hrow hrow' => not_not.mp (fun hne => hnobody (hmediated.payload id row row' hrow hrow' hne))⟩

theorem Allowed.mediated {s' : App σ} {user : User} (h : Allowed s s' user)
    (hauthorized : Authorized lib.netlocAllowed settings env.now s.db request user) (bench : Bench) :
    CompletelyMediated lib settings bench env request s s' where
  values acc _ hne := ⟨user, hauthorized, h.values (fun hsame => hne (congrArg acc.value hsame))⟩
  manage id hne := ⟨user, hauthorized, (h.configs id).manage hne⟩
  payload id row row' hrow hrow' hne := ⟨user, hauthorized, (h.configs id).payload row row' hrow hrow' hne⟩
  publish id row' hrow' hpublic hnot := by
    have hrole := (h.configs id).publish row' hrow' hpublic hnot
    refine ⟨user, hauthorized, ?_⟩
    revert hrole
    cases user.role <;> decide

/-- A request that does not skip the token is mediated completely, in every state. One that does passes the check
whatever token it shows, nobody has authorized it, and it is mediated only if it changes nothing. -/
theorem complete_mediation (lib : Library β) (settings : Settings) (bench : Bench) (env : RequestEnv)
    (request : Request β) (s : App σ) :
    let s' := (serve lib settings bench.service env request s).2
    (¬ SkipsToken lib settings env s request → CompletelyMediated lib settings bench env request s s') ∧
    (SkipsToken lib settings env s request →
      (∀ csrfToken, AuthCsrfMiddleware.rejectCsrf lib.netlocAllowed lib.urlPath settings request (some csrfToken) =
        .ok none) ∧
      (∀ user, ¬ Authorized lib.netlocAllowed settings env.now s.db request user) ∧
      (CompletelyMediated lib settings bench env request s s' ↔ Untouched bench s s')) := by
  intro s'
  refine ⟨fun hskips => ?_, fun hskips => ?_⟩
  · rcases serve_unchanged_or lib settings bench env request s hskips with h | ⟨user, hauthorized, hallowed⟩
    · exact (h.untouched bench).mediated
    · exact hallowed.mediated hauthorized bench
  · obtain ⟨hpassed, hnobody⟩ := hskips.unauthorized
    exact ⟨hpassed, hnobody, mediated_iff_untouched hnobody bench s'⟩

end

/-! ## A write -/

/-- `request.url.path`: the `Host` header and the decoded path are put together to a URL, which is split again. -/
def hostUrlPath {β : Type} (request : Request β) : String :=
  let url := ((request.headers.get? "host").getD "" ++ request.path).toList
  String.ofList ((url.dropWhile (fun c => c ∉ ['/', '?', '#'])).takeWhile (fun c => c ∉ ['?', '#']))

def hostLibrary : Library (LoginRequest ⊕ ℤ) := { sampleLibrary with urlPath := hostUrlPath }

/-- A developer signs in. -/
def sampleLogin : List (SiteEvent (LoginRequest ⊕ ℤ)) :=
  [.createUser sampleRequestEnv.toAuthEnv "ann" "secret" .DEV,
    .request sampleRequestEnv
      { method := "POST", path := "/auth/login"
        headers := Dict.ofList [("host", "localhost:8000"), ("origin", "http://localhost:3000")]
        body := some (.inl ⟨"ann", "secret"⟩) }]

/-- The application after that, before a device with one word. -/
def sampleApp : App InMemoryUnidriverIo :=
  (Site.run hostLibrary {} WriteRequest.sampleBench.service (Site.start ⟨Dict.ofList [(1, [0, 0])]⟩ 0) sampleLogin).app

def sampleRequest : Request (LoginRequest ⊕ ℤ) where
  method := "PUT"
  path := "/devices/tank/values/level"
  headers := Dict.ofList [("host", "localhost:8000"), ("origin", "http://localhost:3000"), (CSRF_HEADER, "csrf")]
  cookies := Dict.ofList [(SESSION_COOKIE, "token")]
  body := some (.inr 5)

/-- The `Host` header moves the path of the request into the query of its URL, and there is no token. -/
def hostRequest : Request (LoginRequest ⊕ ℤ) :=
  { sampleRequest with headers := Dict.ofList [("host", "x/auth/login?"), ("origin", "http://localhost:3000")] }

theorem hostRequest_skipsToken : SkipsToken hostLibrary {} sampleRequestEnv sampleApp hostRequest where
  login := by decide
  mutates := ⟨.writeValue "tank" "level", by decide, .inr ⟨_, _, rfl⟩⟩
  origin := rfl
  session := ⟨⟨"token", 1, "csrf", ({} : Settings).ttl⟩, by decide, by decide, rfl, by decide, by decide⟩

/-- The word is written with the token, by a user who may write it, and without it by a request that nobody has
authorized. -/
theorem sampleRequest_mediated :
    (∃ user, Authorized hostLibrary.netlocAllowed {} 0 sampleApp.db sampleRequest user ∧
      user.role ∈ [Role.DEV, Role.ADMIN]) ∧
    ∀ user, ¬ Authorized hostLibrary.netlocAllowed {} 0 sampleApp.db hostRequest user := by
  have hlogin : hostLibrary.urlPath sampleRequest ≠ LOGIN_PATH := by decide
  exact ⟨((complete_mediation hostLibrary {} WriteRequest.sampleBench sampleRequestEnv sampleRequest sampleApp).1
      (fun h => hlogin h.login)).values ⟨1, ⟨"level", .U16, .RW, .int 0⟩, ⟨0, none⟩⟩ (by decide) (by decide +kernel),
    ((complete_mediation hostLibrary {} WriteRequest.sampleBench sampleRequestEnv hostRequest sampleApp).2
      hostRequest_skipsToken).2.1⟩

/-- The word is written although the request has not shown the token. -/
theorem hostRequest_not_mediated : ¬ ∀ (events : List (SiteEvent (LoginRequest ⊕ ℤ))) (env : RequestEnv)
    (request : Request (LoginRequest ⊕ ℤ)),
    let s := (Site.run hostLibrary {} WriteRequest.sampleBench.service (Site.start ⟨Dict.ofList [(1, [0, 0])]⟩ 0) events).app
    CompletelyMediated (σ := InMemoryUnidriverIo) hostLibrary {} WriteRequest.sampleBench env request s
      (serve hostLibrary {} WriteRequest.sampleBench.service env request s).2 := by
  intro h
  obtain ⟨user, hauthorized, -⟩ := (h sampleLogin sampleRequestEnv hostRequest).values
    ⟨1, ⟨"level", .U16, .RW, .int 0⟩, ⟨0, none⟩⟩ (by decide) (by decide +kernel)
  exact hostRequest_skipsToken.unauthorized.2 user hauthorized

end Tstlan
