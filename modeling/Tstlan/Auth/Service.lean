import Tstlan.Auth.Passwords
import Tstlan.Database
import Tstlan.LoggingSetup

/-! # Users and sessions (`tstlan/auth/service.py`)

A session is found by its token while it has not expired; a session that is used `refreshAfter` or more
after its expiry was last set is prolonged to `ttl` from now. -/
namespace Tstlan
open Foundations
set_option autoImplicit false

inductive AuthError
  | database (e : DatabaseError)
  | python (e : PyError)
  | password (e : VerifyError)
  deriving DecidableEq

abbrev AuthM := EStateM AuthError Database

/-- What a call of the service takes from outside: `secrets` gives the tokens of a session and the salt of
a hash. -/
structure AuthEnv extends Env where
  token : String
  csrfToken : String
  salt : String

/-- A session with the user that is loaded with it. -/
structure LoadedSession extends Session where
  user : Option User
  deriving DecidableEq

namespace Auth
variable (root : LogLevel) (hasher : PasswordHasher) (env : AuthEnv)

def addUser (user : User) : AuthM User :=
  Database.transact .database (fun db =>
    let user := { user with id := env.ids.nextKey db.users }
    (Database.insert db.users user.id user (fun users => { db.toTables with users := users })).map
      (fun db' => (user, db')))

def createUser (login password : String) (role : Role) : AuthM User := do
  let user ← addUser env
    { id := 0, login := login, passwordHash := hashPassword hasher env.salt password, role := role }
  log .python (logEvent root .INFO ["user_id", "login", "role"])
  return user

def listUsers : AuthM (List User) := do
  let db ← get
  let users := (db.users.values.filter User.isActive).mergeSort (fun a b => a.login ≤ b.login)
  log .python (logEvent root .DEBUG ["count"])
  return users

def authenticate (login password : String) : AuthM (Option User) := do
  let db ← get
  match db.userByLogin login with
  | none =>
    log .python (logEvent root .WARNING ["login", "reason"])
    return none
  | some user =>
    if user.isActive = false then
      log .python (logEvent root .WARNING ["login", "reason"])
      return none
    else
      let verified ← fromExcept ((verifyPassword hasher user.passwordHash password).mapError .password)
      if verified = false then
        log .python (logEvent root .WARNING ["login", "user_id", "reason"])
        return none
      else
        log .python (logEvent root .INFO ["login", "user_id"])
        return some user

def addSession (session : Session) : AuthM Unit :=
  Database.transact .database (fun db =>
    (Database.insert db.sessions session.token session
      (fun sessions => { db.toTables with sessions := sessions })).map (fun db' => ((), db')))

def createSession (user : User) (ttl : Time) : AuthM Session := do
  let session := { token := env.token, csrfToken := env.csrfToken, userId := user.id,
                   expiresAt := env.now + ttl : Session }
  addSession session
  log .python (logEvent root .INFO ["user_id", "login", "expires_at"])
  return session

/-- `UPDATE` of the expiry. -/
def prolong (session : Session) (expiresAt : Time) : AuthM Session :=
  Database.transact .database (fun db =>
    let session := { session with expiresAt := expiresAt }
    (Database.store { db.toTables with sessions := db.sessions.set session.token session }).map
      (fun db' => (session, db')))

def resolveSession (token : String) (ttl refreshAfter : Time) : AuthM (Option LoadedSession) := do
  let db ← get
  match db.sessions.get? token with
  | none =>
    log .python (logEvent root .DEBUG [])
    return none
  | some session =>
    let user := db.users.get? session.userId
    if session.expiresAt ≤ env.now then
      log .python (logEvent root .INFO ["user_id", "expires_at"])
      return none
    else if env.now - (session.expiresAt - ttl) ≥ refreshAfter then
      let session ← prolong session (env.now + ttl)
      log .python (logEvent root .DEBUG ["user_id", "expires_at"])
      return some ⟨session, user⟩
    else return some ⟨session, user⟩

def revokeSession (token : String) : AuthM Unit := do
  let db ← get
  match db.sessions.get? token with
  | none => return ()
  | some _ =>
    Database.transact .database (fun db =>
      (Database.store { db.toTables with sessions := db.sessions.erase token }).map (fun db' => ((), db')))
    log .python (logEvent root .INFO ["user_id"])

end Auth
end Tstlan
