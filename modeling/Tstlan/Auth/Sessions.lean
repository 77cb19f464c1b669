import Tstlan.Auth.Service
import Tstlan.Foundations.Lease

/-! # What the auth service reads and writes

One lemma for each function: what it returns, and which rows of the user and session tables it changes.
The configs and the shares are never touched. -/
namespace Tstlan
open Foundations
set_option autoImplicit false

namespace Auth
variable {root : LogLevel} {hasher : PasswordHasher} {env : AuthEnv} {db db' : Database}

/-- `db'` is `db` with other sessions. -/
structure SameButSessions (db db' : Database) : Prop where
  users : db'.users = db.users
  configs : db'.configs = db.configs
  shares : db'.shares = db.shares

theorem SameButSessions.refl (db : Database) : SameButSessions db db := ⟨rfl, rfl, rfl⟩

theorem SameButSessions.of_tables {sessions : Dict String Session}
    (h : db'.toTables = { db.toTables with sessions := sessions }) : SameButSessions db db' :=
  ⟨by rw [h], by rw [h], by rw [h]⟩

/-! ## New users -/

/-- The user that `create_user` adds. -/
def newUser (hasher : PasswordHasher) (env : AuthEnv) (login password : String) (role : Role) (id : ℤ) : User :=
  { id := id, login := login, passwordHash := hashPassword hasher env.salt password, role := role }

theorem createUser_cases (root : LogLevel) (hasher : PasswordHasher) (env : AuthEnv) (login password : String)
    (role : Role) (db : Database) :
    final ((createUser root hasher env login password role).run db) = db ∨
      ∃ user, db.users.get? user.id = none ∧ user.isActive = true ∧
        (final ((createUser root hasher env login password role).run db)).toTables =
          { db.toTables with users := db.users.set user.id user } := by
  have hrest : final ((createUser root hasher env login password role).run db) =
      final ((addUser env (newUser hasher env login password role 0)).run db) :=
    final_bind (fun _ => (silent_log _ _).bind (fun _ => .pure _)) db
  rw [hrest]
  unfold addUser
  cases hinsert : Database.insert db.users (env.ids.nextKey db.users)
      (newUser hasher env login password role (env.ids.nextKey db.users))
      (fun users => { db.toTables with users := users }) with
  | error e => exact .inl (congrArg final (Database.run_transact_error (congrArg (Except.map _) hinsert)))
  | ok db' =>
    obtain ⟨hfresh, htables⟩ := Database.insert_eq_ok hinsert
    refine .inr ⟨newUser hasher env login password role (env.ids.nextKey db.users), hfresh, rfl, ?_⟩
    rw [Database.run_transact_ok (congrArg (Except.map _) hinsert)]
    exact htables

/-! ## Logging in -/

theorem silent_authenticate (login password : String) : Silent (authenticate root hasher login password) := by
  intro db
  unfold authenticate
  rw [run_get_bind]
  cases db.userByLogin login with
  | none => exact ((silent_log _ _).bind (fun _ => .pure _)) db
  | some user =>
    simp only
    split
    · exact ((silent_log _ _).bind (fun _ => .pure _)) db
    · refine ((Silent.fromExcept _).bind (fun verified => ?_)) db
      split
      · exact (silent_log _ _).bind (fun _ => .pure _)
      · exact (silent_log _ _).bind (fun _ => .pure _)

/-- Only an active user with this login is accepted. -/
theorem authenticate_ok {login password : String} {user : User}
    (h : (authenticate root hasher login password).run db = .ok (some user) db') :
    db.userByLogin login = some user ∧ user.isActive = true := by
  unfold authenticate at h
  rw [run_get_bind] at h
  cases hu : db.userByLogin login with
  | none =>
    rw [hu] at h
    obtain ⟨_, _, -, hret⟩ := bind_eq_ok h
    cases hret
  | some found =>
    simp only [hu] at h
    split at h
    · obtain ⟨_, _, -, hret⟩ := bind_eq_ok h
      cases hret
    · next hactive =>
      obtain ⟨verified, _, -, hrest⟩ := bind_eq_ok h
      split at hrest
      · obtain ⟨_, _, -, hret⟩ := bind_eq_ok hrest
        cases hret
      · obtain ⟨_, _, -, hret⟩ := bind_eq_ok hrest
        cases hret
        exact ⟨rfl, Bool.eq_true_of_not_eq_false hactive⟩

/-- The session that `create_session` adds. -/
def newSession (env : AuthEnv) (user : User) (ttl : Time) : Session :=
  ⟨env.token, user.id, env.csrfToken, env.now + ttl⟩

theorem createSession_cases (root : LogLevel) (env : AuthEnv) (user : User) (ttl : Time) (db : Database) :
    (∃ e, (createSession root env user ttl).run db = .error e db) ∨
      ∃ db', (createSession root env user ttl).run db = .ok (newSession env user ttl) db' ∧
        db.sessions.get? env.token = none ∧
        db'.toTables = { db.toTables with
          sessions := db.sessions.set env.token (newSession env user ttl) } := by
  have hrun : (createSession root env user ttl).run db =
    (addSession (newSession env user ttl) >>= fun _ => _ : AuthM Session).run db := rfl
  rw [hrun]
  unfold addSession
  cases hinsert : Database.insert db.sessions (newSession env user ttl).token (newSession env user ttl)
      (fun sessions => { db.toTables with sessions := sessions }) with
  | error e => exact .inl ⟨_, run_bind_error (Database.run_transact_error (by rw [hinsert]; rfl))⟩
  | ok db' =>
    obtain ⟨hfresh, htables⟩ := Database.insert_eq_ok hinsert
    refine .inr ⟨db', (run_bind_ok (Database.run_transact_ok (by rw [hinsert]; rfl))).trans ?_, hfresh, htables⟩
    simp (disch := decide) only [logEvent_bind]
    rfl

/-! ## Using a session -/

/-- The session after a use at `now`. -/
def renewed (ttl refreshAfter now : Time) (session : Session) : Session :=
  { session with expiresAt := Lease.renew ttl refreshAfter now session.expiresAt }

/-- A stored session that has not expired is found, with its user, and renewed. -/
theorem resolveSession_live (root : LogLevel) {token : String} (ttl refreshAfter : Time) {session : Session}
    (hs : db.sessions.get? token = some session) (hlive : env.now < session.expiresAt) :
    ∃ db', (resolveSession root env token ttl refreshAfter).run db =
        .ok (some ⟨renewed ttl refreshAfter env.now session, db.users.get? session.userId⟩) db' ∧
      db'.toTables = { db.toTables with
        sessions := db.sessions.set token (renewed ttl refreshAfter env.now session) } := by
  unfold resolveSession
  rw [run_get_bind, hs]
  obtain rfl : session.token = token := db.constraints.token token session hs
  simp only [if_neg (not_le.mpr hlive)]
  by_cases hold : env.now - (session.expiresAt - ttl) ≥ refreshAfter
  · rw [show renewed ttl refreshAfter env.now session = { session with expiresAt := env.now + ttl } by
      rw [renewed, Lease.renew, if_pos hold]]
    simp only [if_pos hold]
    have hcons : { db.toTables with
        sessions := db.sessions.set session.token { session with expiresAt := env.now + ttl } :
          Tables }.Constraints :=
      { db.constraints with
        token := db.constraints.token.set rfl
        sessionUser := db.constraints.sessionUser.set (db.constraints.sessionUser _ session hs) }
    refine ⟨⟨_, hcons⟩, ?_, rfl⟩
    have hstore : (prolong session (env.now + ttl)).run db =
        .ok { session with expiresAt := env.now + ttl } ⟨_, hcons⟩ := by
      refine Database.run_transact_ok ?_
      exact congrArg (Except.map _) (Database.store_of_constraints hcons)
    refine (run_bind_ok hstore).trans ?_
    simp (disch := decide) only [logEvent_bind]
    rfl
  · rw [show renewed ttl refreshAfter env.now session = session by rw [renewed, Lease.renew, if_neg hold]]
    simp only [if_neg hold]
    exact ⟨db, rfl, by rw [Dict.set_of_get? hs]⟩

/-- Any other token is refused. -/
theorem resolveSession_dead (root : LogLevel) {token : String} (ttl refreshAfter : Time)
    (hdead : ∀ session, db.sessions.get? token = some session → session.expiresAt ≤ env.now) :
    (resolveSession root env token ttl refreshAfter).run db = .ok none db := by
  unfold resolveSession
  rw [run_get_bind]
  cases hs : db.sessions.get? token with
  | none =>
    simp (disch := decide) only [logEvent_bind]
    rfl
  | some session =>
    simp only [if_pos (hdead session hs)]
    simp (disch := decide) only [logEvent_bind]
    rfl

theorem revokeSession_ok (root : LogLevel) (token : String) (db : Database) :
    ∃ db', (revokeSession root token).run db = .ok () db' ∧
      db'.toTables = { db.toTables with sessions := db.sessions.erase token } := by
  unfold revokeSession
  rw [run_get_bind]
  cases hs : db.sessions.get? token with
  | none => exact ⟨db, rfl, by rw [Dict.erase_of_fresh hs]⟩
  | some session =>
    have hcons : { db.toTables with sessions := db.sessions.erase token : Tables }.Constraints :=
      { db.constraints with
        token := db.constraints.token.filter _
        sessionUser := db.constraints.sessionUser.filter _ }
    have hstore : Database.store { db.toTables with sessions := db.sessions.erase token } = .ok ⟨_, hcons⟩ :=
      Database.store_of_constraints hcons
    refine ⟨⟨_, hcons⟩, (run_bind_ok (Database.run_transact_ok (by rw [hstore]; rfl))).trans ?_, rfl⟩
    rw [logEvent_pure (by decide)]
    rfl

end Auth
end Tstlan
