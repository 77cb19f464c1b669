import Tstlan.Auth.Sessions
import Tstlan.Foundations.Runs

/-! # How long a session lives

Runs of the three session calls at a clock that does not go back. The only thing a run has to say about a
token is when it was last used: the expiry that is stored is that of a lease used at that time. -/
namespace Tstlan
open Foundations
set_option autoImplicit false

inductive SessionCall
  | create (env : AuthEnv) (user : User)
  | resolve (env : AuthEnv) (token : String)
  | revoke (now : Time) (token : String)

namespace SessionCall

def now : SessionCall → Time
  | .create env _ => env.now
  | .resolve env _ => env.now
  | .revoke now _ => now

/-- The call, and the session it returns. -/
def run (root : LogLevel) (ttl refreshAfter : Time) : SessionCall → AuthM (Option Session)
  | .create env user => do
    let session ← Auth.createSession root env user ttl
    return some session
  | .resolve env token => do
    let loaded ← Auth.resolveSession root env token ttl refreshAfter
    return loaded.map LoadedSession.toSession
  | .revoke _ token => do
    Auth.revokeSession root token
    return none

end SessionCall

/-- A call with what came of it. -/
structure SessionEvent where
  call : SessionCall
  result : Except AuthError (Option Session)

structure SessionStore where
  db : Database
  now : Time

namespace SessionEvent

/-- The event stores a session under the token. -/
def Creates (token : String) (e : SessionEvent) : Prop :=
  ∃ env user session, e.call = .create env user ∧ e.result = .ok session ∧ env.token = token

/-- The event resolves the token. -/
def Resolves (token : String) (e : SessionEvent) : Prop := ∃ env, e.call = .resolve env token

/-- The token is refused or revoked. -/
def Ends (token : String) (e : SessionEvent) : Prop :=
  e.Resolves token ∧ e.result = .ok none ∨ ∃ now, e.call = .revoke now token

/-- When the token was last used, after the event. -/
def lastUse (token : String) (last : Option Time) (e : SessionEvent) : Option Time :=
  match e.call, e.result with
  | .create env _, .ok _ => if env.token = token then some env.now else last
  | .resolve env resolved, .ok (some _) => if resolved = token then some env.now else last
  | .revoke _ revoked, .ok _ => if revoked = token then none else last
  | _, _ => last

end SessionEvent

/-- When the token was created or, later, last resolved; none before that and once it is revoked. -/
def lastUse (token : String) (events : List SessionEvent) : Option Time :=
  events.foldl (SessionEvent.lastUse token) none

/-- From a use at `used` on, the token is not revoked, and each time it is resolved less than `gap` has passed
since it was used before. -/
def Punctual (token : String) (gap : Time) : Time → List SessionEvent → Prop
  | _, [] => True
  | used, e :: es =>
    match e.call with
    | .create _ _ => Punctual token gap used es
    | .resolve env resolved =>
      if resolved = token then env.now < used + gap ∧ Punctual token gap env.now es
      else Punctual token gap used es
    | .revoke _ revoked => revoked ≠ token ∧ Punctual token gap used es

namespace SessionStore
variable {root : LogLevel} {ttl refreshAfter : Time} {token : String} {s t : SessionStore} {e : SessionEvent}
  {events : List SessionEvent}

def Step (root : LogLevel) (ttl refreshAfter : Time) (s : SessionStore) (e : SessionEvent) (t : SessionStore) :
    Prop :=
  s.now ≤ e.call.now ∧ t.now = e.call.now ∧
    outcome ((e.call.run root ttl refreshAfter).run s.db) = e.result ∧
    final ((e.call.run root ttl refreshAfter).run s.db) = t.db

/-- The store after a call. -/
def after (root : LogLevel) (ttl refreshAfter : Time) (s : SessionStore) (call : SessionCall) : SessionStore :=
  ⟨final ((call.run root ttl refreshAfter).run s.db), call.now⟩

theorem step_after (hle : s.now ≤ e.call.now)
    (hresult : outcome ((e.call.run root ttl refreshAfter).run s.db) = e.result) :
    Step root ttl refreshAfter s e (after root ttl refreshAfter s e.call) :=
  ⟨hle, rfl, hresult, rfl⟩

/-- What a step does to the sessions. -/
inductive Effect (ttl refreshAfter : Time) (s : SessionStore) : SessionEvent → SessionStore → Prop
  | refused {call : SessionCall} {e : AuthError} (hcall : ∃ env user, call = .create env user) :
      Effect ttl refreshAfter s ⟨call, .error e⟩ ⟨s.db, call.now⟩
  | created {env : AuthEnv} {user : User} {db : Database} (hfresh : s.db.sessions.get? env.token = none)
      (hsessions : db.sessions = s.db.sessions.set env.token (Auth.newSession env user ttl)) :
      Effect ttl refreshAfter s ⟨.create env user, .ok (some (Auth.newSession env user ttl))⟩ ⟨db, env.now⟩
  | found {env : AuthEnv} {token : String} {session : Session} {db : Database}
      (hs : s.db.sessions.get? token = some session) (hlive : env.now < session.expiresAt)
      (hsessions : db.sessions = s.db.sessions.set token (Auth.renewed ttl refreshAfter env.now session)) :
      Effect ttl refreshAfter s
        ⟨.resolve env token, .ok (some (Auth.renewed ttl refreshAfter env.now session))⟩ ⟨db, env.now⟩
  | missing {env : AuthEnv} {token : String}
      (hdead : ∀ session, s.db.sessions.get? token = some session → session.expiresAt ≤ env.now) :
      Effect ttl refreshAfter s ⟨.resolve env token, .ok none⟩ ⟨s.db, env.now⟩
  | revoked {now : Time} {token : String} {db : Database} (hsessions : db.sessions = s.db.sessions.erase token) :
      Effect ttl refreshAfter s ⟨.revoke now token, .ok none⟩ ⟨db, now⟩

/-- Every step is one of these. -/
theorem Step.effect (h : Step root ttl refreshAfter s e t) : s.now ≤ t.now ∧ Effect ttl refreshAfter s e t := by
  obtain ⟨call, result⟩ := e
  obtain ⟨db, now⟩ := t
  obtain ⟨hle, rfl, hresult, hdb⟩ := h
  refine ⟨hle, ?_⟩
  dsimp only at hresult hdb
  cases call with
  | create env user =>
    rcases Auth.createSession_cases root env user ttl s.db with ⟨e, hrun⟩ | ⟨db', hrun, hfresh, htables⟩
    · have hcall : ((SessionCall.create env user).run root ttl refreshAfter).run s.db = .error e s.db :=
        run_bind_error hrun
      rw [hcall] at hresult hdb
      cases hresult
      cases hdb
      exact .refused ⟨env, user, rfl⟩
    · have hcall : ((SessionCall.create env user).run root ttl refreshAfter).run s.db =
          .ok (some (Auth.newSession env user ttl)) db' := run_bind_ok hrun
      rw [hcall] at hresult hdb
      cases hresult
      cases hdb
      exact .created hfresh (congrArg Tables.sessions htables)
  | resolve env token =>
    by_cases hlive : ∃ session, s.db.sessions.get? token = some session ∧ env.now < session.expiresAt
    · obtain ⟨session, hs, hlive⟩ := hlive
      obtain ⟨db', hrun, htables⟩ := Auth.resolveSession_live root ttl refreshAfter hs hlive
      have hcall : ((SessionCall.resolve env token).run root ttl refreshAfter).run s.db =
          .ok (some (Auth.renewed ttl refreshAfter env.now session)) db' := run_bind_ok hrun
      rw [hcall] at hresult hdb
      cases hresult
      cases hdb
      exact .found hs hlive (congrArg Tables.sessions htables)
    · have hdead : ∀ session, s.db.sessions.get? token = some session → session.expiresAt ≤ env.now :=
        fun session hs => not_lt.mp (fun hlt => hlive ⟨session, hs, hlt⟩)
      have hcall : ((SessionCall.resolve env token).run root ttl refreshAfter).run s.db = .ok none s.db :=
        run_bind_ok (Auth.resolveSession_dead root ttl refreshAfter hdead)
      rw [hcall] at hresult hdb
      cases hresult
      cases hdb
      exact .missing hdead
  | revoke now token =>
    obtain ⟨db', hrun, htables⟩ := Auth.revokeSession_ok root token s.db
    have hcall : ((SessionCall.revoke now token).run root ttl refreshAfter).run s.db = .ok none db' :=
      run_bind_ok hrun
    rw [hcall] at hresult hdb
    cases hresult
    cases hdb
    exact .revoked (congrArg Tables.sessions htables)

/-! ## The last use -/

/-- The stored session is a lease that was used then. -/
def Tracks (ttl refreshAfter : Time) (token : String) (s : SessionStore) : Option Time → Prop
  | none => s.db.sessions.get? token = none
  | some used => used ≤ s.now ∧ ∃ session, s.db.sessions.get? token = some session ∧
      Lease.Fresh ttl refreshAfter used session.expiresAt

theorem Tracks.keep {last : Option Time} (h : Tracks ttl refreshAfter token s last) (hle : s.now ≤ t.now)
    (hsame : t.db.sessions.get? token = s.db.sessions.get? token) : Tracks ttl refreshAfter token t last := by
  cases last with
  | none => exact hsame.trans h
  | some used =>
    obtain ⟨hused, session, hs, hfresh⟩ := h
    exact ⟨hused.trans hle, session, hsame.trans hs, hfresh⟩

theorem Tracks.isSome {last : Option Time} (h : Tracks ttl refreshAfter token s last) :
    last.isSome ↔ ∃ session, s.db.sessions.get? token = some session := by
  cases last with
  | none =>
    have hnone : s.db.sessions.get? token = none := h
    simp [hnone]
  | some used =>
    obtain ⟨-, session, hs, -⟩ := h
    exact ⟨fun _ => ⟨session, hs⟩, fun _ => rfl⟩

/-- One step. -/
theorem tracks_step (hrefresh : 0 ≤ refreshAfter) {last : Option Time} (h : Tracks ttl refreshAfter token s last)
    (hstep : Step root ttl refreshAfter s e t) :
    Tracks ttl refreshAfter token t (SessionEvent.lastUse token last e) := by
  obtain ⟨hle, heffect⟩ := hstep.effect
  cases heffect with
  | refused hcall =>
    obtain ⟨env, user, rfl⟩ := hcall
    exact h.keep hle rfl
  | @created env user db hfresh hsessions =>
    show Tracks _ _ _ _ (if env.token = token then some env.now else last)
    by_cases htoken : env.token = token
    · rw [if_pos htoken]
      refine ⟨le_refl _, Auth.newSession env user ttl, ?_, Lease.fresh_new ttl env.now hrefresh⟩
      show db.sessions.get? token = _
      rw [hsessions, htoken, Dict.get?_set_self]
    · rw [if_neg htoken]
      refine h.keep hle ?_
      show db.sessions.get? token = _
      rw [hsessions, Dict.get?_set_of_ne _ _ (Ne.symm htoken)]
  | @found env resolved session db hs hlive hsessions =>
    show Tracks _ _ _ _ (if resolved = token then some env.now else last)
    by_cases htoken : resolved = token
    · subst htoken
      rw [if_pos rfl]
      cases last with
      | none =>
        have hnone : s.db.sessions.get? resolved = none := h
        rw [hnone] at hs
        cases hs
      | some used =>
        obtain ⟨hused, old, hold, hfresh⟩ := h
        obtain rfl : old = session := Option.some.inj (hold.symm.trans hs)
        refine ⟨le_refl _, Auth.renewed ttl refreshAfter env.now old, ?_, hfresh.renew hrefresh (hused.trans hle)⟩
        show db.sessions.get? resolved = _
        rw [hsessions, Dict.get?_set_self]
    · rw [if_neg htoken]
      refine h.keep hle ?_
      show db.sessions.get? token = _
      rw [hsessions, Dict.get?_set_of_ne _ _ (Ne.symm htoken)]
  | missing => exact h.keep hle rfl
  | @revoked now revoked db hsessions =>
    show Tracks _ _ _ _ (if revoked = token then none else last)
    by_cases htoken : revoked = token
    · rw [if_pos htoken]
      show db.sessions.get? token = none
      rw [hsessions, Dict.get?_erase, if_pos htoken.symm]
    · rw [if_neg htoken]
      refine h.keep hle ?_
      show db.sessions.get? token = _
      rw [hsessions, Dict.get?_erase, if_neg (Ne.symm htoken)]

theorem tracks_run (hrefresh : 0 ≤ refreshAfter) (hrun : Run (Step root ttl refreshAfter) s events t)
    (hinit : s.db.sessions = Dict.empty) : Tracks ttl refreshAfter token t (lastUse token events) := by
  have hnone : Tracks ttl refreshAfter token s none := by
    show s.db.sessions.get? token = none
    rw [hinit]
    rfl
  exact Run.simulate (R := Tracks ttl refreshAfter token) (f := SessionEvent.lastUse token)
    (fun _ _ _ _ h hstep => tracks_step hrefresh h hstep) hrun hnone

/-- A session that is used in time is found every time. -/
theorem punctual_found (hrefresh : 0 ≤ refreshAfter) (hrun : Run (Step root ttl refreshAfter) s events t)
    {used : Time} (h : Tracks ttl refreshAfter token s (some used))
    (hpunctual : Punctual token (ttl - refreshAfter) used events) :
    ∀ e ∈ events, e.Resolves token → ∃ session, e.result = .ok (some session) := by
  induction hrun generalizing used with
  | nil s => exact fun e he => (nomatch he)
  | @cons s mid t e events head tail ih =>
    have hnext := tracks_step hrefresh h head
    obtain ⟨hle, heffect⟩ := head.effect
    have hkeep : ∀ last, SessionEvent.lastUse token (some used) e = some last →
        Punctual token (ttl - refreshAfter) last events →
        (e.Resolves token → ∃ session, e.result = .ok (some session)) →
        ∀ e' ∈ e :: events, e'.Resolves token → ∃ session, e'.result = .ok (some session) := by
      intro last hlast hrest hfirst e' he'
      rw [hlast] at hnext
      rcases List.mem_cons.mp he' with rfl | he'
      · exact hfirst
      · exact ih hnext hrest e' he'
    cases heffect with
    | refused hcall =>
      obtain ⟨env, user, rfl⟩ := hcall
      exact hkeep used rfl hpunctual (fun ⟨_, hres⟩ => (nomatch hres))
    | @created env user db hfresh hsessions =>
      obtain ⟨-, session, hs, -⟩ := h
      have hne : env.token ≠ token := by
        rintro rfl
        rw [hfresh] at hs
        cases hs
      exact hkeep used (if_neg hne) hpunctual (fun ⟨_, hres⟩ => (nomatch hres))
    | @found env resolved session db hs hlive hsessions =>
      have hcase : if resolved = token then env.now < used + (ttl - refreshAfter) ∧
          Punctual token (ttl - refreshAfter) env.now events
        else Punctual token (ttl - refreshAfter) used events := hpunctual
      by_cases htoken : resolved = token
      · rw [if_pos htoken] at hcase
        exact hkeep env.now (if_pos htoken) hcase.2 (fun _ => ⟨_, rfl⟩)
      · rw [if_neg htoken] at hcase
        exact hkeep used (if_neg htoken) hcase (fun _ => ⟨_, rfl⟩)
    | @missing env resolved hdead =>
      have hcase : if resolved = token then env.now < used + (ttl - refreshAfter) ∧
          Punctual token (ttl - refreshAfter) env.now events
        else Punctual token (ttl - refreshAfter) used events := hpunctual
      by_cases htoken : resolved = token
      · rw [if_pos htoken] at hcase
        obtain ⟨-, session, hs, hfresh⟩ := h
        have hsoon : env.now < used + ttl - refreshAfter := by
          rw [add_sub_assoc]
          exact hcase.1
        rw [← htoken] at hs
        exact absurd (hfresh.live hsoon) (not_lt.mpr (hdead session hs))
      · rw [if_neg htoken] at hcase
        refine hkeep used rfl hcase (fun ⟨_, hres⟩ => ?_)
        cases hres
        exact absurd rfl htoken
    | @revoked now revoked db hsessions =>
      have hcase : revoked ≠ token ∧ Punctual token (ttl - refreshAfter) used events := hpunctual
      exact hkeep used (if_neg hcase.1) hcase.2 (fun ⟨_, hres⟩ => (nomatch hres))

/-! ## The end of a session -/

/-- No session of the token is left that has not expired. -/
def Dead (token : String) (s : SessionStore) : Prop :=
  ∀ session, s.db.sessions.get? token = some session → session.expiresAt ≤ s.now

theorem dead_step (h : Dead token s) (hstep : Step root ttl refreshAfter s e t) (hnew : ¬ e.Creates token) :
    Dead token t := by
  obtain ⟨hle, heffect⟩ := hstep.effect
  have hkeep : t.db.sessions.get? token = s.db.sessions.get? token → Dead token t := by
    intro hsame session hs
    exact (h session (hsame.symm.trans hs)).trans hle
  cases heffect with
  | refused => exact hkeep rfl
  | @created env user db hfresh hsessions =>
    have hne : token ≠ env.token := fun he => hnew ⟨env, user, _, rfl, rfl, he.symm⟩
    refine hkeep ?_
    show db.sessions.get? token = _
    rw [hsessions, Dict.get?_set_of_ne _ _ hne]
  | @found env resolved session db hs hlive hsessions =>
    have hne : token ≠ resolved := by
      rintro rfl
      exact absurd (lt_of_lt_of_le hlive (h session hs)) (not_lt.mpr hle)
    refine hkeep ?_
    show db.sessions.get? token = _
    rw [hsessions, Dict.get?_set_of_ne _ _ hne]
  | missing => exact hkeep rfl
  | @revoked now revoked db hsessions =>
    intro session hs
    have hold : db.sessions.get? token = some session := hs
    rw [hsessions, Dict.get?_erase] at hold
    split at hold
    · cases hold
    · exact (h session hold).trans hle

theorem dead_refused (h : Dead token s) (hstep : Step root ttl refreshAfter s e t) (hres : e.Resolves token) :
    e.result = .ok none := by
  obtain ⟨hle, heffect⟩ := hstep.effect
  cases heffect with
  | missing => rfl
  | @found env resolved session db hs hlive hsessions =>
    obtain ⟨env', hcall⟩ := hres
    cases hcall
    exact absurd (lt_of_lt_of_le hlive (h session hs)) (not_lt.mpr hle)
  | refused hcall =>
    obtain ⟨env, user, rfl⟩ := hcall
    exact absurd hres (fun ⟨_, hcall⟩ => (nomatch hcall))
  | created => exact absurd hres (fun ⟨_, hcall⟩ => (nomatch hcall))
  | revoked => exact absurd hres (fun ⟨_, hcall⟩ => (nomatch hcall))

theorem dead_run (hrun : Run (Step root ttl refreshAfter) s events t) (h : Dead token s)
    (hnew : ∀ e ∈ events, ¬ e.Creates token) : ∀ e ∈ events, e.Resolves token → e.result = .ok none := by
  induction hrun with
  | nil s => exact fun e he => (nomatch he)
  | @cons s mid t e events head tail ih =>
    intro e' he'
    rcases List.mem_cons.mp he' with rfl | he'
    · exact dead_refused h head
    · exact ih (dead_step h head (hnew e List.mem_cons_self))
        (fun e he => hnew e (List.mem_cons_of_mem _ he)) e' he'

/-- A token that has been refused or revoked is dead. -/
theorem dead_of_ends (hstep : Step root ttl refreshAfter s e t) (hends : e.Ends token) : Dead token t := by
  obtain ⟨-, heffect⟩ := hstep.effect
  rcases hends with ⟨⟨env, hcall⟩, hresult⟩ | ⟨now, hcall⟩
  · cases heffect with
    | missing hdead =>
      cases hcall
      exact hdead
    | found => cases hresult
    | refused => cases hresult
    | created => cases hcall
    | revoked => cases hcall
  · cases heffect with
    | @revoked _ revoked db hsessions =>
      cases hcall
      intro session hs
      have hold : db.sessions.get? token = some session := hs
      rw [hsessions, Dict.get?_erase, if_pos rfl] at hold
      cases hold
    | refused hrefused =>
      obtain ⟨env, user, rfl⟩ := hrefused
      cases hcall
    | created => cases hcall
    | found => cases hcall
    | missing => cases hcall

/-! ## Whole runs -/

/-- What a run of the session calls says about a token, and what follows for how long its session lives. -/
theorem sliding_expiry (hrefresh : 0 ≤ refreshAfter) (hinit : s.db.sessions = Dict.empty)
    (hrun : Run (Step root ttl refreshAfter) s events t) (token : String) :
    -- a token is found exactly while its session, created and not revoked, has not expired
    ((lastUse token events).isSome ↔ ∃ session, t.db.sessions.get? token = some session) ∧
    (∀ env : AuthEnv, ∃ found db,
      (Auth.resolveSession root env token ttl refreshAfter).run t.db = .ok found db ∧
      (∀ loaded ∈ found, loaded.token = token) ∧
      (found.isSome ↔ ∃ session, t.db.sessions.get? token = some session ∧ env.now < session.expiresAt)) ∧
    -- its expiry is that of a lease last used at its last use
    (∀ used session, lastUse token events = some used → t.db.sessions.get? token = some session →
      used + ttl - refreshAfter ≤ session.expiresAt ∧ session.expiresAt ≤ used + ttl) ∧
    -- used in time, it is found every time
    (∀ used later t', lastUse token events = some used → Run (Step root ttl refreshAfter) t later t' →
      Punctual token (ttl - refreshAfter) used later →
        ∀ e ∈ later, e.Resolves token → ∃ session, e.result = .ok (some session)) ∧
    -- left unused for `ttl`, it is refused
    (∀ used, lastUse token events = some used → ∀ env : AuthEnv, used + ttl ≤ env.now →
      (Auth.resolveSession root env token ttl refreshAfter).run t.db = .ok none t.db) ∧
    -- once refused or revoked, it stays refused, if it is not created anew
    (∀ before e after, events = before ++ e :: after → e.Ends token → (∀ e' ∈ after, ¬ e'.Creates token) →
      ∀ e' ∈ after, e'.Resolves token → e'.result = .ok none) := by
  have htracks : Tracks ttl refreshAfter token t (lastUse token events) := tracks_run hrefresh hrun hinit
  refine ⟨htracks.isSome, fun env => ?_, fun used session hused hs => ?_, fun used later t' hused hlater => ?_,
    fun used hused env hlate => ?_, fun before e after hevents hends hnew => ?_⟩
  · by_cases hlive : ∃ session, t.db.sessions.get? token = some session ∧ env.now < session.expiresAt
    · obtain ⟨session, hs, hnow⟩ := hlive
      obtain ⟨db', hresolve, -⟩ := Auth.resolveSession_live root ttl refreshAfter hs hnow
      refine ⟨_, db', hresolve, fun loaded hloaded => ?_, fun _ => ⟨session, hs, hnow⟩, fun _ => rfl⟩
      cases hloaded
      exact t.db.constraints.token token session hs
    · refine ⟨none, t.db, Auth.resolveSession_dead root ttl refreshAfter ?_, fun _ h => (nomatch h), ?_⟩
      · exact fun session hs => not_lt.mp (fun hlt => hlive ⟨session, hs, hlt⟩)
      · exact ⟨fun h => (nomatch h), fun h => absurd h hlive⟩
  · rw [hused] at htracks
    obtain ⟨-, old, hold, hfresh⟩ := htracks
    obtain rfl : old = session := Option.some.inj (hold.symm.trans hs)
    exact ⟨hfresh.lower, hfresh.upper⟩
  · rw [hused] at htracks
    exact punctual_found hrefresh hlater htracks
  · rw [hused] at htracks
    obtain ⟨-, old, hold, hfresh⟩ := htracks
    refine Auth.resolveSession_dead root ttl refreshAfter (fun session hs => ?_)
    obtain rfl : old = session := Option.some.inj (hold.symm.trans hs)
    exact hfresh.expired hlate
  · rw [hevents] at hrun
    obtain ⟨mid, -, hrest⟩ := hrun.split
    cases hrest with
    | cons head tail => exact dead_run tail (dead_of_ends head hends) hnew

/-! ## A run -/

def sampleStore : SessionStore where
  db :=
    { users := Dict.ofList [(1, ⟨1, "ann", "", .USER, true⟩)]
      sessions := Dict.empty
      configs := Dict.empty
      shares := Dict.empty
      constraints := by decide }
  now := 0

def sampleAuthEnv (now : Time) : AuthEnv := ⟨⟨now, IdSource.largest⟩, "token", "csrf", "salt"⟩

/-- A session of ten, renewed after three: used at five and then too late. -/
def sampleSession : List SessionEvent :=
  [⟨.create (sampleAuthEnv 0) ⟨1, "ann", "", .USER, true⟩, .ok (some ⟨"token", 1, "csrf", 10⟩)⟩,
    ⟨.resolve (sampleAuthEnv 5) "token", .ok (some ⟨"token", 1, "csrf", 15⟩)⟩]

theorem sampleSession_expires :
    ∃ t, Run (Step .INFO 10 3) sampleStore sampleSession t ∧
      (Auth.resolveSession .INFO (sampleAuthEnv 15) "token" 10 3).run t.db = .ok none t.db := by
  have hrun : ∃ t, Run (Step .INFO 10 3) sampleStore sampleSession t :=
    ⟨_, .cons (step_after (by decide) rfl) (.cons (step_after (by decide) rfl) (.nil _))⟩
  obtain ⟨t, hrun⟩ := hrun
  obtain ⟨-, -, -, -, hunused, -⟩ := sliding_expiry (by decide) rfl hrun "token"
  exact ⟨t, hrun, hunused 5 rfl (sampleAuthEnv 15) (by decide)⟩

end SessionStore
end Tstlan
