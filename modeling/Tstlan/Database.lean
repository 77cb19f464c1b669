import Tstlan.Configs.Models
import Tstlan.Foundations.Constraints

/-! # The database

The four tables of the schema. A database is a set of tables that satisfies the schema's constraints: a
statement that would break one is refused with an integrity error and changes nothing. `INSERT` picks a
key that no row has; `UPDATE` and `DELETE` by key affect one row or none. -/
namespace Tstlan
open Foundations
set_option autoImplicit false

structure Tables where
  users : Dict ℤ User
  sessions : Dict String Session
  configs : Dict ℤ DeviceConfig
  shares : Dict ℤ ConfigShare
  deriving DecidableEq

/-- The primary keys, the unique columns and the foreign keys. -/
structure Tables.Constraints (t : Tables) : Prop where
  userId : Keyed User.id t.users
  login : Unique User.login t.users
  token : Keyed Session.token t.sessions
  sessionUser : References Session.userId t.sessions t.users
  configId : Keyed DeviceConfig.id t.configs
  owner : References DeviceConfig.ownerId t.configs t.users
  shareId : Keyed ConfigShare.id t.shares
  shareConfig : References ConfigShare.configId t.shares t.configs
  grantee : References ConfigShare.granteeId t.shares t.users
  /-- `uq_config_share_grantee`. -/
  oneGrant : Unique (fun s : ConfigShare => (s.configId, s.granteeId)) t.shares

instance (t : Tables) : Decidable t.Constraints :=
  decidable_of_iff
    ((Keyed User.id t.users ∧ Unique User.login t.users) ∧
      (Keyed Session.token t.sessions ∧ References Session.userId t.sessions t.users) ∧
      (Keyed DeviceConfig.id t.configs ∧ References DeviceConfig.ownerId t.configs t.users) ∧
      Keyed ConfigShare.id t.shares ∧ References ConfigShare.configId t.shares t.configs ∧
      References ConfigShare.granteeId t.shares t.users ∧
      Unique (fun s : ConfigShare => (s.configId, s.granteeId)) t.shares)
    ⟨fun ⟨⟨a, b⟩, ⟨c, d⟩, ⟨e, f⟩, g, h, i, j⟩ => ⟨a, b, c, d, e, f, g, h, i, j⟩,
      fun ⟨a, b, c, d, e, f, g, h, i, j⟩ => ⟨⟨a, b⟩, ⟨c, d⟩, ⟨e, f⟩, g, h, i, j⟩⟩

/-- What a call takes from outside: the clock and the keys the database generates. -/
structure Env where
  now : Time
  ids : IdSource

structure Database extends Tables where
  constraints : toTables.Constraints
  deriving DecidableEq

inductive DatabaseError
  | integrityError | staleDataError | noResultFound
  deriving DecidableEq, Repr

namespace Database

@[ext] theorem ext {db db' : Database} (h : db.toTables = db'.toTables) : db = db' := by
  cases db
  cases db'
  simp only at h
  subst h
  rfl

/-- A statement: its outcome stands if it satisfies the constraints. -/
def store (t : Tables) : Except DatabaseError Database :=
  if h : t.Constraints then .ok ⟨t, h⟩ else .error .integrityError

theorem store_of_constraints {t : Tables} (h : t.Constraints) : store t = .ok ⟨t, h⟩ := dif_pos h

theorem store_eq_ok {t : Tables} {db : Database} (h : store t = .ok db) : db.toTables = t := by
  rw [store] at h
  split at h
  · cases h
    rfl
  · cases h

/-- `INSERT`: a row whose key is taken violates the primary key. -/
def insert {κ ρ : Type} [DecidableEq κ] (d : Dict κ ρ) (k : κ) (r : ρ) (t : Dict κ ρ → Tables) :
    Except DatabaseError Database :=
  match d.get? k with
  | some _ => .error .integrityError
  | none => store (t (d.set k r))

theorem insert_of_fresh {κ ρ : Type} [DecidableEq κ] {d : Dict κ ρ} {k : κ} (h : d.get? k = none) (r : ρ)
    (t : Dict κ ρ → Tables) : insert d k r t = store (t (d.set k r)) := by
  rw [insert, h]

theorem insert_eq_ok {κ ρ : Type} [DecidableEq κ] {d : Dict κ ρ} {k : κ} {r : ρ} {t : Dict κ ρ → Tables}
    {db : Database} (h : insert d k r t = .ok db) : d.get? k = none ∧ db.toTables = t (d.set k r) := by
  rw [insert] at h
  split at h
  · cases h
  · next hnone => exact ⟨hnone, store_eq_ok h⟩

/-- `select(User).where(User.login == login)`. -/
def userByLogin (db : Database) (login : String) : Option User :=
  db.users.values.find? (fun u => u.login = login)

/-- A transaction, in code whose exceptions are `ε`: one that raises is rolled back. -/
def transact {ε α : Type} (raised : DatabaseError → ε) (run : Database → Except DatabaseError (α × Database)) :
    EStateM ε Database α := fun db =>
  match run db with
  | .ok (a, db') => .ok a db'
  | .error e => .error (raised e) db

theorem run_transact_ok {ε α : Type} {raised : DatabaseError → ε} {db db' : Database} {a : α}
    {run : Database → Except DatabaseError (α × Database)} (h : run db = .ok (a, db')) :
    (transact raised run).run db = .ok a db' := by
  show transact raised run db = _
  unfold transact
  rw [h]

theorem run_transact_error {ε α : Type} {raised : DatabaseError → ε} {db : Database} {e : DatabaseError}
    {run : Database → Except DatabaseError (α × Database)} (h : run db = .error e) :
    (transact raised run).run db = .error (raised e) db := by
  show transact raised run db = _
  unfold transact
  rw [h]

end Database
end Tstlan
