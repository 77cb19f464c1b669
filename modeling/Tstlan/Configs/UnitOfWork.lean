import Tstlan.Database

/-! # Loading a config and writing back what changed

What a session holds of a config: the row as it was read and as it is now, its grants with the rows they
were read from, and the grants taken out of the collection. A flush writes the columns whose value is not
the one that was read, inserts the new grants, updates the changed ones and deletes the removed ones; an
`UPDATE` that finds no row raises. A flush that raises is rolled back. -/
namespace Tstlan
open Foundations
set_option autoImplicit false

structure ShareObject where
  /-- The row it was read from, none for a new grant. -/
  stored : Option ConfigShare
  granteeId : ℤ
  permission : SharePermission
  grantee : Option User
  deriving DecidableEq

structure ConfigObject where
  stored : DeviceConfig
  row : DeviceConfig
  owner : Option User
  shares : List ShareObject
  removed : List ShareObject := []
  deriving DecidableEq

namespace Database

def sharesOf (db : Database) (configId : ℤ) : List ConfigShare :=
  db.shares.values.filter (fun s => s.configId = configId)

def shareObject (db : Database) (s : ConfigShare) : ShareObject :=
  ⟨some s, s.granteeId, s.permission, db.users.get? s.granteeId⟩

/-- The object of a row, with the relationships that are loaded with it. -/
def load (db : Database) (row : DeviceConfig) : ConfigObject where
  stored := row
  row := row
  owner := db.users.get? row.ownerId
  shares := (db.sharesOf row.id).map db.shareObject

end Database

namespace ConfigObject

/-- No column that the service assigns differs from what was read. -/
def Clean (o : ConfigObject) : Prop :=
  o.row.name = o.stored.name ∧ o.row.payload.same o.stored.payload ∧
    o.row.visibility = o.stored.visibility

instance (o : ConfigObject) : Decidable o.Clean := inferInstanceAs (Decidable (_ ∧ _ ∧ _))

/-- `UPDATE` of the changed columns, and of `updated_at`, in a row that may have changed since. -/
def written (o : ConfigObject) (now : Time) (row : DeviceConfig) : DeviceConfig :=
  { row with
    name := if o.row.name = o.stored.name then row.name else o.row.name
    payload := if o.row.payload.same o.stored.payload then row.payload else o.row.payload
    visibility := if o.row.visibility = o.stored.visibility then row.visibility else o.row.visibility
    updatedAt := now }

def flushRow (env : Env) (o : ConfigObject) (db : Database) : Except DatabaseError Database :=
  if o.Clean then .ok db
  else
    match db.configs.get? o.stored.id with
    | none => .error .staleDataError
    | some row =>
      Database.store { db.toTables with configs := db.configs.set o.stored.id (o.written env.now row) }

def flushShare (env : Env) (configId : ℤ) (db : Database) (share : ShareObject) :
    Except DatabaseError Database :=
  match share.stored with
  | none =>
    let id := env.ids.nextKey db.shares
    Database.insert db.shares id ⟨id, configId, share.granteeId, share.permission⟩
      (fun shares => { db.toTables with shares := shares })
  | some s =>
    if share.permission = s.permission then .ok db
    else
      match db.shares.get? s.id with
      | none => .error .staleDataError
      | some row =>
        Database.store { db.toTables with
          shares := db.shares.set s.id { row with permission := share.permission } }

/-- A `DELETE` that finds no row is no error. -/
def flushRemoved (db : Database) (share : ShareObject) : Except DatabaseError Database :=
  match share.stored with
  | none => .ok db
  | some s => Database.store { db.toTables with shares := db.shares.erase s.id }

def flush (env : Env) (o : ConfigObject) (db : Database) : Except DatabaseError Database := do
  let db ← o.flushRow env db
  let db ← o.shares.foldlM (flushShare env o.stored.id) db
  o.removed.foldlM flushRemoved db

/-- The flush of a deleted object: its grants, its row, and what the foreign key cascades to. -/
def flushDeleted (o : ConfigObject) (db : Database) : Except DatabaseError Database :=
  let loaded := o.shares.filterMap (fun share => share.stored.map ConfigShare.id)
  Database.store { db.toTables with
    configs := db.configs.erase o.stored.id
    shares := db.shares.filter (fun k s => k ∉ loaded ∧ s.configId ≠ o.stored.id) }

/-! ## Assignments -/

def setVisibility (o : ConfigObject) (v : ConfigVisibility) : ConfigObject :=
  { o with row := { o.row with visibility := v } }

def setName (o : ConfigObject) (name : String) : ConfigObject :=
  { o with row := { o.row with name := name } }

def setPayload (o : ConfigObject) (payload : ConfigPayload) : ConfigObject :=
  { o with row := { o.row with payload := payload } }

/-- Assign the permission of the first grant to this user. -/
def assignPermission (granteeId : ℤ) (permission : SharePermission) : List ShareObject → List ShareObject
  | [] => []
  | share :: shares =>
    if share.granteeId = granteeId then { share with permission := permission } :: shares
    else share :: assignPermission granteeId permission shares

def setPermission (o : ConfigObject) (granteeId : ℤ) (permission : SharePermission) : ConfigObject :=
  { o with shares := assignPermission granteeId permission o.shares }

def appendShare (o : ConfigObject) (granteeId : ℤ) (permission : SharePermission) : ConfigObject :=
  { o with shares := o.shares ++ [⟨none, granteeId, permission, none⟩] }

def removeShare (o : ConfigObject) (share : ShareObject) : ConfigObject :=
  { o with shares := o.shares.erase share, removed := o.removed ++ [share] }

end ConfigObject
end Tstlan
