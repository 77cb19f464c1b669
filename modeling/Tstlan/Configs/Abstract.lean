import Tstlan.Configs.Service
import Tstlan.Foundations.Sharing
import Tstlan.Foundations.Runs

/-! # What the config store is for

Each live config has an owner, a flag that says whether it is published, and a map from grantees to
permissions. A call either fails and changes nothing, or changes the one config it is about. -/
namespace Tstlan
open Foundations
set_option autoImplicit false

abbrev AbstractConfig := Shareable ℤ SharePermission

/-- The abstract configs by id, and the users that own them or hold grants. -/
structure AbstractStore where
  users : Dict ℤ User
  configs : ℤ → Option AbstractConfig

/-- The label that the sharing of a config calls for. -/
noncomputable def visibilityOf (c : AbstractConfig) : ConfigVisibility :=
  match c.exposure with
  | .everybody => .PUBLIC
  | .grantees => .SHARED
  | .owner => .PRIVATE

/-- The mutations of the service, with the user who asks for them. -/
inductive ConfigCall
  | create (user : User) (data : ConfigCreate)
  | update (user : User) (configId : ℤ) (data : ConfigUpdate)
  | delete (user : User) (configId : ℤ)
  | share (user : User) (configId : ℤ) (req : ShareRequest)
  | unshare (user : User) (configId : ℤ) (login : String)

def ConfigCall.run (root : LogLevel) (env : Env) : ConfigCall → ConfigM Unit
  | .create user data => do let _ ← Configs.createConfig root env user data
  | .update user configId data => do let _ ← Configs.updateConfig root env user configId data
  | .delete user configId => Configs.deleteConfig root user configId
  | .share user configId req => do let _ ← Configs.shareConfig root env user configId req
  | .unshare user configId login => do let _ ← Configs.unshareConfig root env user configId login

namespace AbstractStore

def access (user : User) (c : AbstractConfig) : Option Access :=
  if user.role = .ADMIN ∨ c.owner = user.id then some .OWNER
  else
    match c.grants user.id with
    | some .WRITE => some .WRITE
    | some .READ => some .READ
    | none => if c.published then some .READ else none

def userByLogin (s : AbstractStore) (login : String) : Option User :=
  s.users.values.find? (fun u => u.login = login)

/-- The config, for a caller with some access to it. -/
def visible (s : AbstractStore) (user : User) (configId : ℤ) :
    Except ConfigError (AbstractConfig × Access) :=
  match s.configs configId with
  | none => .error (.configNotFound configId)
  | some c =>
    match access user c with
    | none => .error (.configAccessDenied configId)
    | some access => .ok (c, access)

/-- The config, for a caller who manages it. -/
def managed (s : AbstractStore) (user : User) (configId : ℤ) : Except ConfigError AbstractConfig := do
  let (c, access) ← s.visible user configId
  if access = .OWNER then return c else throw (.configAccessDenied configId)

def put (s : AbstractStore) (configId : ℤ) (c : Option AbstractConfig) : AbstractStore :=
  { s with configs := Function.update s.configs configId c }

def mayPublish (user : User) (visibility : Option ConfigVisibility) : Except ConfigError Unit :=
  if visibility = some .PUBLIC ∧ user.role = .USER then throw (.publishNotAllowed user.login)
  else return ()

/-- What a call does to the store; `newId` is the id of a config it creates. -/
def perform (newId : ℤ) (s : AbstractStore) : ConfigCall → Except ConfigError AbstractStore
  | .create user data => do
    mayPublish user (some data.visibility)
    if (s.users.get? user.id).isSome then
      return s.put newId (some ⟨user.id, data.visibility = .PUBLIC, fun _ => none⟩)
    else throw (.database .integrityError)
  | .update user configId data => do
    let (c, access) ← s.visible user configId
    if (data.name.isSome ∨ data.visibility.isSome) ∧ access ≠ .OWNER then
      throw (.configAccessDenied configId)
    else if data.payload.isSome ∧ access = .READ then throw (.configAccessDenied configId)
    else
      mayPublish user data.visibility
      match data.visibility with
      | none => return s
      | some v => return s.put configId (some (c.publish (v = .PUBLIC)))
  | .delete user configId => do
    let _ ← s.managed user configId
    return s.put configId none
  | .share user configId req => do
    let c ← s.managed user configId
    match s.userByLogin req.login with
    | none => throw (.granteeNotFound req.login)
    | some grantee =>
      if grantee.id = c.owner then throw (.cannotShareWithOwner req.login)
      else return s.put configId (some (c.grant grantee.id req.permission))
  | .unshare user configId login => do
    let c ← s.managed user configId
    match s.userByLogin login with
    | none => throw (.granteeNotFound login)
    | some grantee =>
      if (c.grants grantee.id).isSome then return s.put configId (some (c.revoke grantee.id))
      else throw (.granteeNotFound login)

end AbstractStore

/-! ## Runs of both sides -/

/-- One call with its outcome, or a change of users and sessions made elsewhere. -/
inductive ConfigEvent
  | call (call : ConfigCall) (env : Env) (outcome : Except ConfigError Unit)
  | elsewhere

inductive AbstractStore.Step : AbstractStore → ConfigEvent → AbstractStore → Prop
  | done {s t : AbstractStore} {call : ConfigCall} {env : Env} {newId : ℤ} (hfresh : s.configs newId = none)
      (h : s.perform newId call = .ok t) : Step s (.call call env (.ok ())) t
  | failed {s : AbstractStore} {call : ConfigCall} {env : Env} {newId : ℤ} {e : ConfigError}
      (hfresh : s.configs newId = none) (h : s.perform newId call = .error e) :
      Step s (.call call env (.error e)) s
  | elsewhere {s : AbstractStore} (users : Dict ℤ User) : Step s .elsewhere { s with users := users }

inductive Database.Step (root : LogLevel) : Database → ConfigEvent → Database → Prop
  | call {db : Database} (call : ConfigCall) (env : Env) :
      Step root db (.call call env (outcome ((call.run root env).run db))) (final ((call.run root env).run db))
  | elsewhere {db db' : Database} (hconfigs : db'.configs = db.configs) (hshares : db'.shares = db.shares) :
      Step root db .elsewhere db'

end Tstlan
