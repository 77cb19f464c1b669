import Tstlan.Effects

/-! # Deactivated users

`authenticate` and `list_users` honour `is_active`; `resolve_session` does not read it. A user whose sessions
have all ended before the deactivation stays out, and one with a session that is still stored and unexpired
goes on being served: `honours_iff_signedOut` says so of whole runs. -/
namespace Tstlan
open Foundations
set_option autoImplicit false

/-- A cookie can still resolve to the session. -/
def Session.Usable (session : Session) (now : Time) : Prop := session.token ≠ "" ∧ now < session.expiresAt

namespace Database

/-- An administrator's `UPDATE` of `is_active`. -/
def setActive (db : Database) (userId : ℤ) (active : Bool) : Database :=
  match h : db.users.get? userId with
  | none => db
  | some user =>
    { db with
      users := db.users.set userId { user with isActive := active }
      constraints :=
        { db.constraints with
          userId := db.constraints.userId.set (db.constraints.userId userId user h)
          login := db.constraints.login.set (fun j other hj he => db.constraints.login j userId other user hj h he)
          sessionUser := db.constraints.sessionUser.set_right _ _
          owner := db.constraints.owner.set_right _ _
          grantee := db.constraints.grantee.set_right _ _ } }

variable {db db' : Database} {now : Time}

theorem setActive_sessions (db : Database) (userId : ℤ) (active : Bool) :
    (db.setActive userId active).sessions = db.sessions := by
  unfold setActive
  split <;> rfl

theorem setActive_users (db : Database) (userId : ℤ) (active : Bool) (id : ℤ) :
    (db.setActive userId active).users.get? id =
      (db.users.get? id).map (fun user => if id = userId then { user with isActive := active } else user) := by
  unfold setActive
  split
  · next h =>
    by_cases hid : id = userId
    · rw [hid, h]
      rfl
    · simp [hid]
  · next user h =>
    show (db.users.set userId _).get? id = _
    rw [Dict.get?_set]
    by_cases hid : id = userId
    · simp [hid, h]
    · simp [hid]

/-- Every session that a cookie can resolve to is one of an active user. -/
def Quiet (db : Database) (now : Time) : Prop :=
  ∀ token session user, db.sessions.get? token = some session → session.Usable now →
    db.users.get? session.userId = some user → user.isActive = true

/-- No cookie can resolve to a session of this user. -/
def SignedOut (db : Database) (now : Time) (userId : ℤ) : Prop :=
  ∀ token session, db.sessions.get? token = some session → session.userId = userId → ¬ session.Usable now

theorem Quiet.later {later : Time} (h : db.Quiet now) (hle : now ≤ later) : db.Quiet later :=
  fun token session user hs husable => h token session user hs ⟨husable.1, lt_of_le_of_lt hle husable.2⟩

/-- What may become of the sessions: those that are left, those that are prolonged and those of active users. -/
theorem Quiet.of_sessions (h : db.Quiet now) (husers : db'.users = db.users)
    (hsessions : ∀ token session, db'.sessions.get? token = some session → session.Usable now →
      (∃ old, db.sessions.get? token = some old ∧ old.Usable now ∧ old.userId = session.userId) ∨
        ∃ user, db.users.get? session.userId = some user ∧ user.isActive = true) : db'.Quiet now := by
  intro token session user hs husable huser
  rw [husers] at huser
  rcases hsessions token session hs husable with ⟨old, hold, holdUsable, hid⟩ | ⟨found, hfound, hactive⟩
  · rw [← hid] at huser
    exact h token old user hold holdUsable huser
  · rw [hfound] at huser
    cases huser
    exact hactive

theorem Quiet.createUser (h : db.Quiet now) {root : LogLevel} {hasher : PasswordHasher} {env : AuthEnv}
    {login password : String} {role : Role} :
    (final ((Auth.createUser root hasher env login password role).run db)).Quiet now := by
  rcases Auth.createUser_cases root hasher env login password role db with hsame | ⟨added, hfresh, -, htables⟩
  · rw [hsame]
    exact h
  · intro token session user hs husable huser
    rw [htables] at hs huser
    have hold : (db.users.get? session.userId).isSome := db.constraints.sessionUser token session hs
    have hne : session.userId ≠ added.id := by
      intro he
      rw [he, hfresh] at hold
      cases hold
    rw [Dict.get?_set_of_ne _ _ hne] at huser
    exact h token session user hs husable huser

/-- A deactivation keeps the database quiet when it finds the user signed out, and only then. -/
theorem quiet_setActive (h : db.Quiet now) (userId : ℤ) (active : Bool) :
    (db.setActive userId active).Quiet now ↔ (active = false → db.SignedOut now userId) := by
  constructor
  · rintro hquiet rfl token session hs hid husable
    obtain ⟨user, huser⟩ := Option.isSome_iff_exists.mp (db.constraints.sessionUser token session hs)
    have hs' : (db.setActive userId false).sessions.get? token = some session := by rw [setActive_sessions, hs]
    have huser' : (db.setActive userId false).users.get? session.userId = some { user with isActive := false } := by
      rw [setActive_users, huser, hid, Option.map_some, if_pos rfl]
    cases hquiet token session _ hs' husable huser'
  · intro hout token session user hs husable huser
    rw [setActive_sessions] at hs
    rw [setActive_users, Option.map_eq_some_iff] at huser
    obtain ⟨old, hold, rfl⟩ := huser
    have hactive := h token session old hs husable hold
    split
    · next hid =>
      cases active with
      | true => rfl
      | false => exact absurd husable (hout rfl token session hs hid)
    · exact hactive

end Database

/-! ## One request -/

section
variable {β σ : Type} {settings : Settings} {env : RequestEnv} {s t : App σ} {request : Request β}

theorem Resolved.quiet {session : Option LoadedSession} (h : Resolved settings env s request session t)
    (hquiet : s.db.Quiet env.now) : t.db.Quiet env.now := by
  refine hquiet.of_sessions h.others.users (fun token session hs husable => .inl ?_)
  rcases h.sessions with hsame | ⟨stored, hstored, hlive, hset⟩
  · rw [hsame] at hs
    exact ⟨session, hs, husable, rfl⟩
  · rw [hset, Dict.get?_set] at hs
    split at hs
    · next he =>
      cases hs
      rw [he]
      exact ⟨stored, hstored, ⟨husable.1, hlive⟩, rfl⟩
    · exact ⟨session, hs, husable, rfl⟩

variable [UnidriverIo σ] [ObservableIo σ]

theorem Handled.quiet {user : Option User} {endpoint : Endpoint} (h : Handled settings env s user endpoint t)
    (hquiet : s.db.Quiet env.now) : t.db.Quiet env.now := by
  cases h with
  | read => exact hquiet
  | write => exact hquiet
  | @login u db hactive huser htables =>
    refine hquiet.of_sessions (by rw [htables]) (fun token session hs husable => ?_)
    rw [htables, Dict.get?_set] at hs
    split at hs
    · cases hs
      exact .inr ⟨u, huser, hactive⟩
    · exact .inl ⟨session, hs, husable, rfl⟩
  | @logout token db htables =>
    refine hquiet.of_sessions (by rw [htables]) (fun token' session hs husable => .inl ?_)
    rw [htables, Dict.get?_erase] at hs
    split at hs
    · cases hs
    · exact ⟨session, hs, husable, rfl⟩
  | call call =>
    have hpermitted := Configs.permitted_call settings.logLevel env.toEnv s.db call
    refine hquiet.of_sessions hpermitted.users (fun token session hs husable => .inl ?_)
    rw [hpermitted.sessions] at hs
    exact ⟨session, hs, husable, rfl⟩

theorem quiet_serve (lib : Library β) (settings : Settings) (bench : Bench) (env : RequestEnv)
    (request : Request β) (h : s.db.Quiet env.now) :
    (serve lib settings bench.service env request s).2.db.Quiet env.now := by
  obtain ⟨session, t, hresolved, hdispatch⟩ := dispatch_cases lib settings bench.service env request s
  have hquiet : t.db.Quiet env.now := hresolved.quiet h
  show (final (_ : EStateM.Result RouteError (App σ) Response)).db.Quiet env.now
  rcases hdispatch with hrefused | ⟨-, endpoint, -, hrun⟩
  · rw [hrefused]
    exact hquiet
  · have hhandled := Handled.handled_handle lib settings bench env t (session.bind LoadedSession.user)
      (session.map (fun session => session.csrfToken)) request endpoint
    rw [hrun]
    exact hhandled.quiet hquiet

end

/-! ## Runs -/

/-- The application and its clock. -/
structure Site (σ : Type) where
  app : App σ
  now : Time

inductive SiteEvent (β : Type)
  | createUser (env : AuthEnv) (login password : String) (role : Role)
  | request (env : RequestEnv) (request : Request β)
  | setActive (userId : ℤ) (active : Bool)
  | tick (elapsed : ℕ)

namespace Site
variable {β σ : Type}

/-- Nobody has been created yet. -/
def start (io : σ) (now : Time) : Site σ where
  app :=
    { db := { users := Dict.empty, sessions := Dict.empty, configs := Dict.empty, shares := Dict.empty,
              constraints := by decide }
      io := io }
  now := now

/-- The middleware takes the request for one of this user and passes it on. -/
def ServedAs (lib : Library β) (settings : Settings) (env : RequestEnv) (s : App σ) (request : Request β)
    (user : User) : Prop :=
  ∃ loaded t, (requestSession settings env request).run s = .ok (some loaded) t ∧ loaded.user = some user ∧
    AuthCsrfMiddleware.rejectCsrf lib.netlocAllowed lib.urlPath settings request (some loaded.csrfToken) = .ok none

/-- Whatever is requested now, nobody who is inactive now is let in. -/
structure Honours (lib : Library β) (settings : Settings) (s : Site σ) : Prop where
  served : ∀ (env : RequestEnv) (request : Request β) (user : User),
    ServedAs lib settings { env with now := s.now } s.app request user → user.isActive = true
  resolved : ∀ (env : RequestEnv) (request : Request β) (loaded : LoadedSession) (t : App σ) (user : User),
    (requestSession settings { env with now := s.now } request).run s.app = .ok (some loaded) t →
      loaded.user = some user → user.isActive = true
  authenticated : ∀ (login password : String) (user : User) (db : Database),
    (Auth.authenticate settings.logLevel lib.hasher login password).run s.app.db = .ok (some user) db →
      user.isActive = true

/-- It is the sessions that decide. -/
theorem honours_iff_quiet (lib : Library β) (settings : Settings) (s : Site σ) :
    Honours lib settings s ↔ s.app.db.Quiet s.now := by
  constructor
  · intro h token session user hs husable huser
    obtain rfl : session.token = token := s.app.db.constraints.token token session hs
    let request : Request β :=
      { method := "GET", path := "/auth/me", cookies := Dict.empty.set SESSION_COOKIE session.token }
    have hcookie : request.cookies.get? SESSION_COOKIE = some session.token := Dict.get?_set_self _ _ _
    obtain ⟨loaded, t, hrun, hloaded, -⟩ :=
      requestSession_live settings { sampleRequestEnv with now := s.now } hcookie husable.1 hs husable.2
    exact h.resolved sampleRequestEnv request loaded t user hrun (hloaded.trans huser)
  · intro hquiet
    have hresolved : ∀ (env : RequestEnv) (request : Request β) (loaded : LoadedSession) (t : App σ) (user : User),
        (requestSession settings { env with now := s.now } request).run s.app = .ok (some loaded) t →
          loaded.user = some user → user.isActive = true := by
      intro env request loaded t user hrun huser
      obtain ⟨session, t', hrun', hres⟩ := requestSession_cases settings { env with now := s.now } s.app request
      rw [hrun] at hrun'
      cases hrun'
      obtain ⟨stored, -, hne, hstored, hlive, -, hloaded⟩ := hres.stored loaded rfl
      rw [huser] at hloaded
      exact hquiet stored.token stored user hstored ⟨hne, hlive⟩ hloaded.symm
    refine ⟨fun env request user ⟨loaded, t, hrun, huser, _⟩ => hresolved env request loaded t user hrun huser,
      hresolved, fun login password user db hrun => (Auth.authenticate_ok hrun).2⟩

variable [UnidriverIo σ] (lib : Library β) (settings : Settings) (service : DeviceService)

def step (s : Site σ) : SiteEvent β → Site σ
  | .createUser env login password role =>
    { s with app.db := final ((Auth.createUser settings.logLevel lib.hasher { env with now := s.now }
        login password role).run s.app.db) }
  | .request env request =>
    { s with app := (serve lib settings service { env with now := s.now } request s.app).2 }
  | .setActive userId active => { s with app.db := s.app.db.setActive userId active }
  | .tick elapsed => { s with now := s.now + elapsed }

/-- The site after these events. -/
def run (s : Site σ) (events : List (SiteEvent β)) : Site σ := events.foldl (step lib settings service) s

variable [ObservableIo σ] (bench : Bench)

/-- One event: only a deactivation can let somebody inactive in. -/
theorem quiet_step {s : Site σ} (h : s.app.db.Quiet s.now) (event : SiteEvent β) :
    (step lib settings bench.service s event).app.db.Quiet (step lib settings bench.service s event).now ↔
      ∀ userId, event = .setActive userId false → s.app.db.SignedOut s.now userId := by
  cases event with
  | createUser env login password role => exact ⟨fun _ _ he => (nomatch he), fun _ => h.createUser⟩
  | request env request =>
    exact ⟨fun _ _ he => (nomatch he),
      fun _ => quiet_serve lib settings bench { env with now := s.now } request h⟩
  | setActive userId active =>
    refine (Database.quiet_setActive h userId active).trans ⟨fun hout id he => ?_, fun hout hactive => ?_⟩
    · cases he
      exact hout rfl
    · exact hout userId (by rw [hactive])
  | tick elapsed => exact ⟨fun _ _ he => (nomatch he), fun _ => h.later (le_add_of_nonneg_right (Int.natCast_nonneg _))⟩

/-- In every run from an empty database nobody inactive is let in, if and only if every user who is
deactivated is signed out at that moment. -/
theorem honours_iff_signedOut (io : σ) (now : Time) (events : List (SiteEvent β)) :
    let site := fun n => run lib settings bench.service (start io now) (events.take n)
    (∀ n, Honours lib settings (site n)) ↔
      ∀ n userId, events[n]? = some (.setActive userId false) → (site n).app.db.SignedOut (site n).now userId := by
  intro site
  have hnext : ∀ n event, events[n]? = some event →
      site (n + 1) = step lib settings bench.service (site n) event := by
    intro n event he
    show (events.take (n + 1)).foldl _ _ = _
    rw [List.take_add_one, he, List.foldl_append]
    rfl
  simp only [honours_iff_quiet]
  constructor
  · intro h n userId he
    have hquiet := h (n + 1)
    rw [hnext n _ he, quiet_step lib settings bench (h n)] at hquiet
    exact hquiet userId rfl
  · intro hout n
    induction n with
    | zero => exact fun _ _ _ hs => nomatch hs
    | succ n ih =>
      cases he : events[n]? with
      | none =>
        have hend : site (n + 1) = site n := by
          show run lib settings bench.service _ _ = run lib settings bench.service _ _
          rw [List.take_add_one, he, Option.toList_none, List.append_nil]
        rw [hend]
        exact ih
      | some event =>
        rw [hnext n event he, quiet_step lib settings bench ih]
        rintro userId rfl
        exact hout n userId he

end Site

/-! ## A deactivation that comes too late -/

namespace Site

/-- A user logs in and is then deactivated. -/
def sampleDeactivation : List (SiteEvent (LoginRequest ⊕ ℤ)) :=
  [.createUser sampleRequestEnv.toAuthEnv "ann" "secret" .DEV,
    .request sampleRequestEnv
      { method := "POST", path := "/auth/login", headers := Dict.ofList [("origin", "http://localhost:3000")],
        body := some (.inl ⟨"ann", "secret"⟩) },
    .setActive 1 false]

/-- `GET /auth/me` with the cookie of that login. -/
def sampleMe : Request (LoginRequest ⊕ ℤ) where
  method := "GET"
  path := "/auth/me"
  cookies := Dict.ofList [(SESSION_COOKIE, "token")]

def sampleSite : Site InMemoryUnidriverIo :=
  run sampleLibrary {} (Bench.enumerate []).service (start ⟨Dict.empty⟩ 0) sampleDeactivation

/-- The session from before the deactivation is still the user's. -/
theorem inactive_user_served :
    ¬ ∀ (events : List (SiteEvent (LoginRequest ⊕ ℤ))) (n : ℕ), Honours sampleLibrary {}
      (run sampleLibrary {} (Bench.enumerate []).service (start (⟨Dict.empty⟩ : InMemoryUnidriverIo) 0)
        (events.take n)) := by
  intro h
  have hhonours : Honours sampleLibrary {} sampleSite := h sampleDeactivation 3
  have hserved : ServedAs sampleLibrary {} { sampleRequestEnv with now := sampleSite.now } sampleSite.app sampleMe
      ⟨1, "ann", "saltsecret", .DEV, false⟩ := ⟨_, _, rfl, rfl, rfl⟩
  cases hhonours.served sampleRequestEnv sampleMe _ hserved

end Site
end Tstlan
