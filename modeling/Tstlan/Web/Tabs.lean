import Tstlan.Foundations.Runs
import Tstlan.Identities
import Tstlan.Web.Api

/-! # The tabs of one browser (`components/auth-provider.tsx`, `lib/api.ts`)

Every tab asks once who is signed in and then shows that user, with the CSRF token of the answer, until it
signs in or out itself. The session cookie belongs to the whole browser: a login, a logout or a late answer
of one tab changes it under the others. Requests and answers of all tabs are under way at the same time, are
served and arrive in any order or not at all, and other clients use the application meanwhile. -/
namespace Tstlan.Web
open Foundations
set_option autoImplicit false

structure Identity where
  login : String
  role : Role
  csrfToken : String
  deriving DecidableEq

inductive AuthState
  | loading
  | anonymous
  | authenticated (user : Identity)
  deriving DecidableEq

def AuthState.identity? : AuthState → Option Identity
  | .authenticated user => some user
  | _ => none

/-- The identity that a response carries. -/
def identityOf (response : Response) : Option Identity :=
  match response.content with
  | .identity login role (some csrfToken) => some ⟨login, role, csrfToken⟩
  | _ => none

/-! ## Requests -/

section
variable {β : Type}

/-- The request of a call, with the cookie of the browser and the token of the tab; a browser names its origin
where the method is not safe. -/
def ApiCall.request (origin : String) (cookie csrfToken : Option String) (call : ApiCall β) (path : String) : Request β where
  method := call.method
  path := path
  headers := Dict.ofList ((if call.method ∈ UNSAFE_METHODS then [("origin", origin)] else []) ++
    (csrfToken.toList.map (fun token => (CSRF_HEADER, token))))
  cookies := Dict.ofList (cookie.toList.map (fun token => (SESSION_COOKIE, token)))
  body := call.body

/-- A request under way; `shown` is the identity with which the call was made. -/
structure Pending (β : Type) where
  tab : ℕ
  call : ApiCall β
  shown : Option Identity
  request : Request β

/-- An answer under way, none when the request has failed. -/
structure Answer (β : Type) where
  tab : ℕ
  call : ApiCall β
  response : Option Response

/-- The browser, the application it talks to, and the CSRF tokens that have been issued. -/
structure Browser (β σ : Type) where
  site : Site σ
  cookie : Option String
  tabs : ℕ → AuthState
  requests : List (Pending β)
  answers : List (Answer β)
  issued : List String

inductive BrowserEvent (β : Type)
  /-- The page is loaded: `AuthProvider` is mounted. -/
  | load (tab : ℕ)
  /-- `signIn`, `signOut` or another call of the tab. -/
  | call (tab : ℕ) (call : ApiCall β)
  /-- The application serves request number `n`. -/
  | serve (n : ℕ) (env : RequestEnv)
  /-- Request number `n` is lost. -/
  | lose (n : ℕ)
  /-- Answer number `n` is lost. -/
  | drop (n : ℕ)
  | deliver (n : ℕ)
  /-- The cookie is gone. -/
  | forget
  /-- Another client, or the clock. -/
  | elsewhere (event : SiteEvent β)

namespace Browser
variable {σ : Type}

/-- The cookie after an answer. -/
def cookieAfter (cookie : Option String) : CookieChange → Option String
  | .keep => cookie
  | .set token _ _ => some token
  | .clear => none

/-- What a tab shows after the answer to its call. -/
def stateAfter (state : AuthState) (call : ApiCall β) (response : Option Response) : AuthState :=
  let answer := response.filter Response.ok
  match call with
  | .fetchMe => (answer.bind identityOf).elim .anonymous .authenticated
  | .login _ => (answer.bind identityOf).elim state .authenticated
  | .logout => if answer.isSome then .anonymous else state
  | _ => state

def setTab (b : Browser β σ) (tab : ℕ) (state : AuthState) : Browser β σ :=
  { b with tabs := Function.update b.tabs tab state }

/-- The request leaves; what is not under `/api` the web server answers itself. -/
def send (origin : String) (b : Browser β σ) (tab : ℕ) (call : ApiCall β) (shown : Option Identity) : Browser β σ :=
  match call.delivered with
  | some path =>
    { b with requests := b.requests ++
        [⟨tab, call, shown, call.request origin b.cookie (shown.map Identity.csrfToken) path⟩] }
  | none => { b with answers := b.answers ++ [⟨tab, call, some ⟨404, .detail "Not Found", .keep⟩⟩] }

/-- A call of the tab, which needs its token or not. -/
def perform (origin : String) (b : Browser β σ) (tab : ℕ) (call : ApiCall β) : Browser β σ :=
  if call.guarded then
    match (b.tabs tab).identity? with
    | some user => b.send origin tab call (some user)
    | none =>
      match call with
      | .logout => b.setTab tab .anonymous
      | _ => b
  else b.send origin tab call none

def deliver (b : Browser β σ) (n : ℕ) : Browser β σ :=
  match b.answers[n]? with
  | none => b
  | some answer =>
    { b with
      answers := b.answers.eraseIdx n
      cookie := cookieAfter b.cookie ((answer.response.map Response.cookie).getD .keep)
      tabs := Function.update b.tabs answer.tab (stateAfter (b.tabs answer.tab) answer.call answer.response) }

variable [UnidriverIo σ] (lib : Library β) (settings : Settings) (service : DeviceService) (origin : String)

def serve (b : Browser β σ) (n : ℕ) (env : RequestEnv) : Browser β σ :=
  match b.requests[n]? with
  | none => b
  | some pending =>
    let (response, app) := Tstlan.serve lib settings service { env with now := b.site.now } pending.request b.site.app
    { b with
      site := { b.site with app := app }
      requests := b.requests.eraseIdx n
      answers := b.answers ++ [⟨pending.tab, pending.call, response⟩] }

def next (b : Browser β σ) : BrowserEvent β → Browser β σ
  | .load tab => (b.setTab tab .loading).send origin tab .fetchMe none
  | .call tab call => b.perform origin tab call
  | .serve n env => b.serve lib settings service n env
  | .lose n =>
    match b.requests[n]? with
    | none => b
    | some pending =>
      { b with requests := b.requests.eraseIdx n
               answers := b.answers ++ [⟨pending.tab, pending.call, none⟩] }
  | .drop n => { b with answers := b.answers.modify n (fun answer => { answer with response := none }) }
  | .deliver n => b.deliver n
  | .forget => { b with cookie := none }
  | .elsewhere event => { b with site := b.site.step lib settings service event }

/-- The CSRF token that an event may issue. -/
def fresh? : BrowserEvent β → Option String
  | .serve _ env => some env.csrfToken
  | .elsewhere (.request env _) => some env.csrfToken
  | _ => none

def advance (b : Browser β σ) (event : BrowserEvent β) : Browser β σ :=
  { b.next lib settings service origin event with issued := (fresh? event).toList ++ b.issued }

/-- One event; a CSRF token is issued once. -/
def Step (b : Browser β σ) (event : BrowserEvent β) (b' : Browser β σ) : Prop :=
  (∀ csrfToken, fresh? event = some csrfToken → csrfToken ∉ b.issued) ∧
    b' = b.advance lib settings service origin event

end Browser

/-- No tab is open, and nobody has been created. -/
def Browser.start {σ : Type} (io : σ) (now : Time) : Browser β σ where
  site := Site.start io now
  cookie := none
  tabs _ := .loading
  requests := []
  answers := []
  issued := []

/-! ## What the browser shows is true -/

theorem ApiCall.header_request (origin : String) (cookie csrfToken : Option String) (call : ApiCall β) (path : String) :
    (call.request origin cookie csrfToken path).headers.get? CSRF_HEADER = csrfToken := by
  have horigin : ("origin" : String) ≠ CSRF_HEADER := by decide
  unfold ApiCall.request
  split <;> cases csrfToken <;> simp [Dict.get?_ofList, horigin]

namespace Browser
variable {σ : Type} {b : Browser β σ} {origin : String}

/-- The identity was issued, and its token speaks for a user with this login and role. -/
def Shown (b : Browser β σ) (user : Identity) : Prop :=
  user.csrfToken ∈ b.issued ∧ b.site.app.db.Speaks user.csrfToken user.login user.role

/-- The request is that of its call, with some cookie. -/
def Sent (origin : String) (pending : Pending β) : Prop :=
  ∃ cookie path, pending.call.delivered = some path ∧
    pending.request = pending.call.request origin cookie (pending.shown.map Identity.csrfToken) path

structure Truthful (origin : String) (b : Browser β σ) : Prop where
  ledger : b.site.app.db.Ledger b.issued
  tabs : ∀ tab user, (b.tabs tab).identity? = some user → b.Shown user
  sent : ∀ pending ∈ b.requests, Sent origin pending
  requests : ∀ pending ∈ b.requests, ∀ user, pending.shown = some user → b.Shown user
  answers : ∀ answer ∈ b.answers, answer.call.endpoint = .me ∨ answer.call.endpoint = .login →
    ∀ response user, answer.response = some response → response.ok = true → identityOf response = some user →
      b.Shown user

theorem truthful_start (io : σ) (now : Time) : Truthful origin (start io now : Browser β σ) where
  ledger := ⟨fun _ _ hs => (nomatch hs), fun _ _ _ _ hs => (nomatch hs)⟩
  tabs _ _ h := nomatch h
  sent _ h := absurd h List.not_mem_nil
  requests _ h := absurd h List.not_mem_nil
  answers _ h := absurd h List.not_mem_nil

theorem Truthful.setTab (h : Truthful origin b) (tab : ℕ) (state : AuthState)
    (hstate : ∀ user, state.identity? = some user → b.Shown user) : Truthful origin (b.setTab tab state) :=
  { h with
    tabs := fun tab' user hshown => by
      have hupdate : (Function.update b.tabs tab state tab').identity? = some user := hshown
      rw [Function.update_apply] at hupdate
      split at hupdate
      · exact hstate user hupdate
      · exact h.tabs tab' user hupdate }

theorem Truthful.send (h : Truthful origin b) (tab : ℕ) (call : ApiCall β) {shown : Option Identity}
    (hshown : ∀ user, shown = some user → b.Shown user) : Truthful origin (b.send origin tab call shown) := by
  unfold Browser.send
  cases hpath : call.delivered with
  | none =>
    refine { h with answers := fun answer ha hcall response user hresponse hok => ?_ }
    refine (List.mem_append.mp ha).elim (fun ha => h.answers answer ha hcall response user hresponse hok) (fun ha => ?_)
    rw [List.mem_singleton] at ha
    subst ha
    cases hresponse
    cases hok
  | some path =>
    refine { h with sent := fun pending hp => ?_, requests := fun pending hp user huser => ?_ }
    · refine (List.mem_append.mp hp).elim (h.sent pending) (fun hp => ?_)
      rw [List.mem_singleton] at hp
      subst hp
      exact ⟨b.cookie, path, hpath, rfl⟩
    · refine (List.mem_append.mp hp).elim (fun hp => h.requests pending hp user huser) (fun hp => ?_)
      rw [List.mem_singleton] at hp
      subst hp
      exact hshown user huser

theorem Truthful.perform (h : Truthful origin b) (tab : ℕ) (call : ApiCall β) :
    Truthful origin (b.perform origin tab call) := by
  unfold Browser.perform
  split
  · cases hstate : (b.tabs tab).identity? with
    | some user =>
      refine h.send tab call (fun user' he => ?_)
      cases he
      exact h.tabs tab user hstate
    | none =>
      simp only
      split
      · exact h.setTab tab .anonymous (fun user he => nomatch he)
      · exact h
  · exact h.send tab call (fun user he => nomatch he)

/-- A tab shows what it has shown or what the answer says. -/
theorem identity_stateAfter {state : AuthState} {call : ApiCall β} {response : Option Response} {user : Identity}
    (h : (stateAfter state call response).identity? = some user) :
    state.identity? = some user ∨ (call.endpoint = .me ∨ call.endpoint = .login) ∧
      ∃ answer, response = some answer ∧ answer.ok = true ∧ identityOf answer = some user := by
  have hread : ∀ {found : Identity}, (response.filter Response.ok).bind identityOf = some found →
      ∃ answer, response = some answer ∧ answer.ok = true ∧ identityOf answer = some found := by
    intro found hfound
    obtain ⟨answer, hanswer, hidentity⟩ := Option.bind_eq_some_iff.mp hfound
    obtain ⟨hresponse, hok⟩ := Option.filter_eq_some_iff.mp hanswer
    exact ⟨answer, hresponse, hok, hidentity⟩
  unfold stateAfter at h
  simp only at h
  split at h
  · cases hfound : (response.filter Response.ok).bind identityOf with
    | none =>
      rw [hfound] at h
      cases h
    | some found =>
      rw [hfound] at h
      cases h
      exact .inr ⟨.inl rfl, hread hfound⟩
  · cases hfound : (response.filter Response.ok).bind identityOf with
    | none =>
      rw [hfound] at h
      exact .inl h
    | some found =>
      rw [hfound] at h
      cases h
      exact .inr ⟨.inr rfl, hread hfound⟩
  · split at h
    · cases h
    · exact .inl h
  · exact .inl h

theorem Truthful.deliver (h : Truthful origin b) (n : ℕ) : Truthful origin (b.deliver n) := by
  unfold Browser.deliver
  cases hanswer : b.answers[n]? with
  | none => exact h
  | some answer =>
    have hin : answer ∈ b.answers := List.mem_of_getElem? hanswer
    refine { h with
      tabs := fun tab user hshown => ?_
      answers := fun other ho => h.answers other (List.mem_of_mem_eraseIdx ho) }
    simp only at hshown
    rw [Function.update_apply] at hshown
    split at hshown
    · refine (identity_stateAfter hshown).elim (h.tabs answer.tab user) (fun ⟨hcall, response, hresponse, hok, hid⟩ => ?_)
      exact h.answers answer hin hcall response user hresponse hok hid
    · exact h.tabs tab user hshown

/-! ## What the application does meanwhile -/

/-- The application moves on: what was shown stays true. -/
theorem Truthful.evolve (h : Truthful origin b) (site : Site σ) (new : Option (String × String))
    (hgrows : b.site.app.db.Grows new site.app.db)
    (hfresh : ∀ csrfToken, new.map Prod.snd = some csrfToken → csrfToken ∉ b.issued) :
    Truthful origin { b with site := site, issued := (new.map Prod.snd).toList ++ b.issued } := by
  have hshown : ∀ user, b.Shown user →
      ({ b with site := site, issued := (new.map Prod.snd).toList ++ b.issued } : Browser β σ).Shown user :=
    fun user hs => ⟨List.mem_append_right _ hs.1,
      hgrows.speaks hs.2 (fun he => hfresh _ he hs.1)⟩
  exact
    { ledger := hgrows.ledger h.ledger hfresh
      tabs := fun tab user ht => hshown user (h.tabs tab user ht)
      sent := h.sent
      requests := fun pending hp user hs => hshown user (h.requests pending hp user hs)
      answers := fun answer ha hcall response user hr hok hid => hshown user (h.answers answer ha hcall response user hr hok hid) }

variable [UnidriverIo σ] [ObservableIo σ] (lib : Library β) (settings : Settings) (bench : Bench)

theorem Truthful.elsewhere (h : Truthful origin b) (event : SiteEvent β)
    (hfresh : ∀ csrfToken, fresh? (.elsewhere event) = some csrfToken → csrfToken ∉ b.issued) :
    Truthful origin { b with
      site := b.site.step lib settings bench.service event, issued := (fresh? (.elsewhere event)).toList ++ b.issued } := by
  cases event with
  | createUser env login password role =>
    exact h.evolve (b.site.step lib settings bench.service (.createUser env login password role)) none
      (Database.grows_createUser settings.logLevel lib.hasher { env with now := b.site.now } login password role
        b.site.app.db) (fun _ he => (nomatch he))
  | request env request =>
    exact h.evolve (b.site.step lib settings bench.service (.request env request)) (some (env.token, env.csrfToken))
      (serve_grows lib settings bench { env with now := b.site.now } request b.site.app) hfresh
  | setActive userId active =>
    exact h.evolve (b.site.step lib settings bench.service (.setActive userId active)) none
      (Database.grows_setActive b.site.app.db userId active) (fun _ he => (nomatch he))
  | tick elapsed =>
    exact h.evolve (b.site.step lib settings bench.service (.tick elapsed)) none (.refl none _) (fun _ he => (nomatch he))

/-- The request of a call without names in its path is routed to its endpoint. -/
theorem route_sent {pending : Pending β} (hsent : Sent origin pending) (hparams : pending.call.params = []) :
    route pending.request.method pending.request.path = some pending.call.endpoint := by
  obtain ⟨cookie, path, hpath, hrequest⟩ := hsent
  have harrives := (ApiCall.arrives_iff pending.call).mpr (by rw [hparams]; exact fun _ h => absurd h List.not_mem_nil)
  rw [ApiCall.arrives, hpath, Option.bind_some] at harrives
  rw [hrequest]
  exact harrives

theorem Truthful.serve (h : Truthful origin b) (n : ℕ) (env : RequestEnv) (hfresh : env.csrfToken ∉ b.issued) :
    Truthful origin { b.serve lib settings bench.service n env with issued := env.csrfToken :: b.issued } := by
  unfold Browser.serve
  cases hpending : b.requests[n]? with
  | none =>
    exact h.evolve b.site (some (env.token, env.csrfToken)) (.refl _ _) (fun csrfToken he => Option.some.inj he ▸ hfresh)
  | some pending =>
    have hin : pending ∈ b.requests := List.mem_of_getElem? hpending
    have hgrows := serve_grows lib settings bench { env with now := b.site.now } pending.request b.site.app
    cases hserve : Tstlan.serve lib settings bench.service { env with now := b.site.now } pending.request b.site.app with
    | mk response app =>
      rw [hserve] at hgrows
      have hbase := h.evolve { b.site with app := app } (some (env.token, env.csrfToken)) hgrows
        (fun csrfToken he => Option.some.inj he ▸ hfresh)
      simp only
      rw [hserve]
      refine { hbase with
        sent := fun other ho => hbase.sent other (List.mem_of_mem_eraseIdx ho)
        requests := fun other ho => hbase.requests other (List.mem_of_mem_eraseIdx ho)
        answers := fun answer ha hcall reply user hreply hok hid => ?_ }
      refine (List.mem_append.mp ha).elim (fun ha => hbase.answers answer ha hcall reply user hreply hok hid) (fun ha => ?_)
      rw [List.mem_singleton] at ha
      subst ha
      simp only at hcall hreply
      have hparams : pending.call.params = [] := by
        cases hc : pending.call <;> rw [hc] at hcall <;> first | rfl | exact hcall.elim (fun he => nomatch he) (fun he => nomatch he)
      have hroute := route_sent (h.sent pending hin) hparams
      rw [hreply] at hserve
      have hfresh' : ({ env with now := b.site.now } : RequestEnv).csrfToken ∉ b.issued := hfresh
      obtain ⟨login, role, csrfToken, hcontent, hissued, hspeaks⟩ := serve_identity lib bench.service h.ledger
        hfresh' (hcall.imp (fun he => hroute.trans (congrArg some he)) (fun he => hroute.trans (congrArg some he))) hserve hok
      unfold identityOf at hid
      rw [hcontent] at hid
      cases hid
      exact ⟨hissued, hspeaks⟩

omit [ObservableIo σ] in
theorem Truthful.lose (h : Truthful origin b) (n : ℕ) :
    Truthful origin (b.next lib settings bench.service origin (.lose n)) := by
  unfold Browser.next
  simp only
  split
  · exact h
  · refine { h with
      sent := fun other ho => h.sent other (List.mem_of_mem_eraseIdx ho)
      requests := fun other ho => h.requests other (List.mem_of_mem_eraseIdx ho)
      answers := fun answer ha hcall response user hresponse hok hid => ?_ }
    refine (List.mem_append.mp ha).elim (fun ha => h.answers answer ha hcall response user hresponse hok hid) (fun ha => ?_)
    rw [List.mem_singleton] at ha
    subst ha
    cases hresponse

omit [ObservableIo σ] in
theorem Truthful.drop (h : Truthful origin b) (n : ℕ) :
    Truthful origin (b.next lib settings bench.service origin (.drop n)) := by
  refine { h with answers := fun answer ha hcall response user hresponse hok hid => ?_ }
  obtain ⟨i, hi⟩ := List.getElem?_of_mem ha
  have hmodified : (b.answers.modify n (fun answer => { answer with response := none }))[i]? = some answer := hi
  rw [List.getElem?_modify, Option.map_eq_map, Option.map_eq_some_iff] at hmodified
  obtain ⟨before, hbefore, hafter⟩ := hmodified
  split at hafter
  · subst hafter
    cases hresponse
  · subst hafter
    exact h.answers before (List.mem_of_getElem? hbefore) hcall response user hresponse hok hid

omit [ObservableIo σ] in
theorem issued_next (service : DeviceService) (origin : String) (b : Browser β σ) (event : BrowserEvent β) :
    (b.next lib settings service origin event).issued = b.issued := by
  have hsend : ∀ (b : Browser β σ) tab call shown, (b.send origin tab call shown).issued = b.issued := by
    intro b tab call shown
    unfold Browser.send
    split <;> rfl
  cases event with
  | load tab => exact hsend _ tab .fetchMe none
  | call tab call =>
    unfold Browser.next Browser.perform
    simp only
    split
    · split
      · exact hsend b tab call _
      · split <;> rfl
    · exact hsend b tab call none
  | serve n env =>
    unfold Browser.next Browser.serve
    simp only
    split <;> rfl
  | lose n =>
    unfold Browser.next
    simp only
    split <;> rfl
  | deliver n =>
    unfold Browser.next Browser.deliver
    simp only
    split <;> rfl
  | drop n => rfl
  | forget => rfl
  | elsewhere event => rfl

/-- One event: nothing that is shown becomes false. -/
theorem truthful_step {b' : Browser β σ} {event : BrowserEvent β} (h : Truthful origin b)
    (hstep : Step lib settings bench.service origin b event b') : Truthful origin b' := by
  obtain ⟨hfresh, rfl⟩ := hstep
  have hquiet : fresh? event = none → Truthful origin (b.next lib settings bench.service origin event) →
      Truthful origin (b.advance lib settings bench.service origin event) := by
    intro hnone hnext
    rw [advance, hnone, Option.toList_none, List.nil_append, ← issued_next lib settings bench.service origin b event]
    exact hnext
  cases event with
  | load tab => exact hquiet rfl ((h.setTab tab .loading (fun _ he => (nomatch he))).send tab .fetchMe (fun _ he => (nomatch he)))
  | call tab call => exact hquiet rfl (h.perform tab call)
  | serve n env => exact h.serve lib settings bench n env (hfresh _ rfl)
  | lose n => exact hquiet rfl (h.lose lib settings bench n)
  | drop n => exact hquiet rfl (h.drop lib settings bench n)
  | deliver n => exact hquiet rfl (h.deliver n)
  | forget => exact hquiet rfl { h with }
  | elsewhere event => exact h.elsewhere lib settings bench event hfresh

theorem truthful_run {io : σ} {now : Time} {events : List (BrowserEvent β)}
    (hrun : Run (Step lib settings bench.service origin) (start io now) events b) : Truthful origin b :=
  hrun.invariant (fun _ _ _ h hstep => truthful_step lib settings bench h hstep) (truthful_start io now)

omit [ObservableIo σ] in
/-- Events with different CSRF tokens make a run. -/
theorem run_advance (service : DeviceService) (origin : String) {events : List (BrowserEvent β)} {b : Browser β σ}
    (hnodup : (events.filterMap fresh?).Nodup) (hnew : ∀ csrfToken ∈ events.filterMap fresh?, csrfToken ∉ b.issued) :
    Run (Step lib settings service origin) b events (events.foldl (advance lib settings service origin) b) := by
  induction events generalizing b with
  | nil => exact .nil b
  | cons event events ih =>
    have hissued : (b.advance lib settings service origin event).issued = (fresh? event).toList ++ b.issued := rfl
    cases hfresh : fresh? event with
    | none =>
      rw [List.filterMap_cons_none hfresh] at hnodup hnew
      refine .cons ⟨fun csrfToken he => (nomatch hfresh.symm.trans he), rfl⟩ (ih hnodup (fun csrfToken hin => ?_))
      rw [hissued, hfresh]
      exact hnew csrfToken hin
    | some first =>
      rw [List.filterMap_cons_some hfresh] at hnodup hnew
      obtain ⟨hfirst, hrest⟩ := List.nodup_cons.mp hnodup
      refine .cons ⟨fun csrfToken he => ?_, rfl⟩ (ih hrest (fun csrfToken hin => ?_))
      · rw [hfresh] at he
        cases he
        exact hnew first List.mem_cons_self
      · rw [hissued, hfresh]
        refine List.not_mem_cons_of_ne_of_not_mem (fun he => ?_) (hnew csrfToken (List.mem_cons_of_mem _ hin))
        exact hfirst (he ▸ hin)

/-! ## What a tab does -/

/-- Only the logout of `lib/api.ts` is routed to the logout. -/
theorem logout_of_route {pending : Pending β} (hsent : Sent origin pending)
    (hroute : route pending.request.method pending.request.path = some .logout) : pending.call = .logout := by
  have hmethod : pending.call.method = "POST" := by
    obtain ⟨cookie, path, -, hrequest⟩ := hsent
    rw [hrequest] at hroute
    exact (route_eq_some.mp hroute).2.1
  have hparams : pending.call.params = [] := by
    cases hc : pending.call <;> rw [hc] at hmethod <;> first | rfl | simp [ApiCall.method] at hmethod
  have hendpoint := (route_sent hsent hparams).symm.trans hroute
  cases hc : pending.call <;> rw [hc] at hendpoint <;> first | rfl | cases hendpoint

/-- Whatever happens between a click and the moment its request is served, the request changes nothing, or it
changes what the stored user that its tab has shown may change; and it ends no session but one of that user, by that
tab's logout. -/
theorem tabs_act_as_shown {io : σ} {now : Time} {events : List (BrowserEvent β)}
    (hrun : Run (Step lib settings bench.service origin) (start io now) events b)
    (hurl : ∀ (call : ApiCall β) cookie csrfToken path, call.delivered = some path →
      lib.urlPath (call.request origin cookie csrfToken path) = LOGIN_PATH → path = LOGIN_PATH)
    {pending : Pending β} (hpending : pending ∈ b.requests) (env : RequestEnv) :
    let s := b.site.app
    let s' := (Tstlan.serve lib settings bench.service { env with now := b.site.now } pending.request s).2
    let IsShown := fun user : User => ∃ identity, pending.shown = some identity ∧
      user.login = identity.login ∧ user.role = identity.role
    (Unchanged s s' ∨ ∃ user, s.db.users.get? user.id = some user ∧ IsShown user ∧ Allowed s s' user) ∧
      ∀ session, s.db.sessions.get? session.token = some session → b.site.now < session.expiresAt →
        s'.db.Holds session.token session.csrfToken session.userId ∨
          pending.call = .logout ∧ ∃ user, s.db.users.get? session.userId = some user ∧ IsShown user := by
  intro s s' IsShown
  have htruthful := truthful_run lib settings bench hrun
  have hsent := htruthful.sent pending hpending
  obtain ⟨cookie, path, hpath, hrequest⟩ := hsent
  have hurl' : lib.urlPath pending.request = LOGIN_PATH → pending.request.path = LOGIN_PATH := by
    rw [hrequest]
    exact hurl pending.call cookie _ path hpath
  -- the CSRF token in the header is that of the identity shown
  have hshown : ∀ session : Session, s.db.sessions.get? session.token = some session →
      pending.request.headers.get? CSRF_HEADER = some session.csrfToken →
        ∃ user, s.db.users.get? session.userId = some user ∧ IsShown user := by
    intro session hs hheader
    rw [hrequest, ApiCall.header_request] at hheader
    obtain ⟨identity, hidentity, hcsrf⟩ := Option.map_eq_some_iff.mp hheader
    obtain ⟨user, huser, hlogin, hrole⟩ :=
      (htruthful.requests pending hpending identity hidentity).2 session.token session hs hcsrf.symm
    exact ⟨user, huser, identity, hidentity, hlogin, hrole⟩
  refine ⟨?_, fun session hs hlive => ?_⟩
  · refine (serve_unchanged_or lib settings bench { env with now := b.site.now } pending.request s (not_skipsToken hurl')).imp id
      (fun ⟨user, hauthorized, hallowed⟩ => ?_)
    obtain ⟨session, -, hs, -, huser, -, hheader⟩ := hauthorized
    obtain ⟨user', huser', hIs⟩ := hshown session hs hheader
    rw [huser] at huser'
    cases huser'
    exact ⟨user, (s.db.constraints.userId _ _ huser).symm ▸ huser, hIs, hallowed⟩
  · refine (serve_holds lib settings bench { env with now := b.site.now } pending.request hurl' hs hlive).imp id
      (fun ⟨hroute, _, hheader⟩ => ?_)
    exact ⟨logout_of_route ⟨cookie, path, hpath, hrequest⟩ hroute, hshown session hs hheader⟩

end Browser
end

/-! ## Two users in one browser -/

namespace Browser

/-- One user signs in in the first tab and another one in the second, and then the first tab writes. -/
def twoTabs : List (BrowserEvent (LoginRequest ⊕ ℤ)) :=
  [.elsewhere (.createUser sampleRequestEnv.toAuthEnv "ann" "secret" .DEV),
    .elsewhere (.createUser sampleRequestEnv.toAuthEnv "eve" "hidden" .USER),
    .call 0 (.login (.inl ⟨"ann", "secret"⟩)), .serve 0 sampleRequestEnv, .deliver 0,
    .call 1 (.login (.inl ⟨"eve", "hidden"⟩)),
    .serve 0 { sampleRequestEnv with token := "token2", csrfToken := "csrf2" }, .deliver 0,
    .call 0 (.writeValue "tank" "level" (.inr 5))]

def twoTabsAfter : Browser (LoginRequest ⊕ ℤ) InMemoryUnidriverIo :=
  twoTabs.foldl (advance sampleLibrary {} WriteRequest.sampleBench.service "http://localhost:3000")
    (start ⟨Dict.ofList [(1, [0, 0])]⟩ 0)

/-- The write of the first tab has the cookie of the other user: it changes nothing, or what the user of the first tab may
change. -/
theorem twoTabs_act_as_shown : ∃ pending ∈ twoTabsAfter.requests,
    pending.shown = some ⟨"ann", .DEV, "csrf"⟩ ∧ pending.request.cookies.get? SESSION_COOKIE = some "token2" ∧
      let s := twoTabsAfter.site.app
      let s' := (Tstlan.serve sampleLibrary {} WriteRequest.sampleBench.service
        { sampleRequestEnv with now := twoTabsAfter.site.now } pending.request s).2
      Unchanged s s' ∨ ∃ user, s.db.users.get? user.id = some user ∧ (∃ identity, pending.shown = some identity ∧
        user.login = identity.login ∧ user.role = identity.role) ∧ Allowed s s' user := by
  have hrun : Run (Step sampleLibrary {} WriteRequest.sampleBench.service "http://localhost:3000")
      (start ⟨Dict.ofList [(1, [0, 0])]⟩ 0) twoTabs twoTabsAfter :=
    run_advance sampleLibrary {} WriteRequest.sampleBench.service "http://localhost:3000" (by decide)
      (fun _ _ h => nomatch h)
  have hsome : twoTabsAfter.requests.any (fun pending => pending.shown = some ⟨"ann", .DEV, "csrf"⟩ ∧
      pending.request.cookies.get? SESSION_COOKIE = some "token2") = true := by decide +kernel
  obtain ⟨pending, hpending, hshown⟩ := List.any_eq_true.mp hsome
  obtain ⟨hidentity, hcookie⟩ := of_decide_eq_true hshown
  exact ⟨pending, hpending, hidentity, hcookie,
    (tabs_act_as_shown sampleLibrary {} WriteRequest.sampleBench hrun (fun _ _ _ _ _ h => h) hpending sampleRequestEnv).1⟩

end Browser
end Tstlan.Web
