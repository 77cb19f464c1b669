import Tstlan.Configs.Grants

/-! # What a flush writes

An object that was loaded and then edited flushes to an update of its row, followed by the one statement
for the grant that was added, changed or removed. The lemmas hold for the flush into any database, not
only into the one the object was loaded from. -/
namespace Tstlan
open Foundations
set_option autoImplicit false

namespace ConfigObject

@[simp] theorem stored_setVisibility (o : ConfigObject) (v : ConfigVisibility) :
    (o.setVisibility v).stored = o.stored := rfl
@[simp] theorem shares_setVisibility (o : ConfigObject) (v : ConfigVisibility) :
    (o.setVisibility v).shares = o.shares := rfl
@[simp] theorem removed_setVisibility (o : ConfigObject) (v : ConfigVisibility) :
    (o.setVisibility v).removed = o.removed := rfl

/-! ## The row -/

/-- The row after the flush of an object, when it was `cur` before. -/
def rowAfter (o : ConfigObject) (now : Time) (cur : DeviceConfig) : DeviceConfig :=
  if o.Clean then cur else o.written now cur

variable {o : ConfigObject} {db db₀ : Database} {cur : DeviceConfig}

@[simp] theorem id_rowAfter (o : ConfigObject) (now : Time) (cur : DeviceConfig) :
    (o.rowAfter now cur).id = cur.id := by
  unfold rowAfter
  split <;> rfl

@[simp] theorem ownerId_rowAfter (o : ConfigObject) (now : Time) (cur : DeviceConfig) :
    (o.rowAfter now cur).ownerId = cur.ownerId := by
  unfold rowAfter
  split <;> rfl

theorem visibility_rowAfter (o : ConfigObject) (now : Time) (cur : DeviceConfig) :
    (o.rowAfter now cur).visibility =
      if o.row.visibility = o.stored.visibility then cur.visibility else o.row.visibility := by
  unfold rowAfter
  split
  · next h => rw [if_pos h.2.2]
  · rfl

theorem name_rowAfter (o : ConfigObject) (now : Time) (cur : DeviceConfig) :
    (o.rowAfter now cur).name = if o.row.name = o.stored.name then cur.name else o.row.name := by
  unfold rowAfter
  split
  · next h => rw [if_pos h.1]
  · rfl

theorem payload_rowAfter (o : ConfigObject) (now : Time) (cur : DeviceConfig) :
    (o.rowAfter now cur).payload =
      if o.row.payload.same o.stored.payload then cur.payload else o.row.payload := by
  unfold rowAfter
  split
  · next h => rw [if_pos h.2.1]
  · rfl

theorem flushRow_ok (env : Env) (h : db.configs.get? o.stored.id = some cur) :
    ∃ db', o.flushRow env db = .ok db' ∧ db'.toTables = { db.toTables with
      configs := db.configs.set o.stored.id (o.rowAfter env.now cur) } := by
  unfold flushRow rowAfter
  split
  · refine ⟨db, rfl, ?_⟩
    rw [Dict.set_of_get? h]
  · have hcur : cur.id = o.stored.id := Database.id_of_config h
    have hid : (o.written env.now cur).id = o.stored.id := hcur
    have hcons : { db.toTables with
        configs := db.configs.set o.stored.id (o.written env.now cur) : Tables }.Constraints :=
      db.constraints.set_config hid (db.constraints.owner _ cur h)
    rw [h]
    exact ⟨_, Database.store_of_constraints hcons, rfl⟩

/-! ## The grants -/

theorem flushShare_shareObject (env : Env) (configId : ℤ) (db db₀ : Database) (s : ConfigShare) :
    flushShare env configId db (db₀.shareObject s) = .ok db := by
  unfold flushShare Database.shareObject
  exact if_pos rfl

theorem foldlM_clean (env : Env) (configId : ℤ) (db db₀ : Database) (rows : List ConfigShare) :
    (rows.map db₀.shareObject).foldlM (flushShare env configId) db = .ok db := by
  induction rows with
  | nil => rfl
  | cons s rows ih =>
    rw [List.map_cons, List.foldlM_cons, flushShare_shareObject]
    exact ih

theorem bind_ok {ε α : Type} (x : Except ε α) : x.bind .ok = x := by
  cases x <;> rfl

theorem bind_clean (env : Env) (configId : ℤ) (db₀ : Database) (rows : List ConfigShare)
    (x : Except DatabaseError Database) :
    x.bind (fun db => (rows.map db₀.shareObject).foldlM (flushShare env configId) db) = x := by
  rw [show (fun db => (rows.map db₀.shareObject).foldlM (flushShare env configId) db) = Except.ok from
    funext (fun db => foldlM_clean env configId db db₀ rows)]
  exact bind_ok x

theorem foldlM_assign (env : Env) (configId : ℤ) (db db₀ : Database) {rows : List ConfigShare}
    {granteeId : ℤ} {s : ConfigShare} (p : SharePermission)
    (h : rows.find? (fun s => s.granteeId = granteeId) = some s) :
    (assignPermission granteeId p (rows.map db₀.shareObject)).foldlM (flushShare env configId) db =
      flushShare env configId db { db₀.shareObject s with permission := p } := by
  induction rows with
  | nil => cases h
  | cons r rows ih =>
    have hr : (db₀.shareObject r).granteeId = r.granteeId := rfl
    rw [List.map_cons, assignPermission, hr]
    by_cases hg : r.granteeId = granteeId
    · rw [List.find?_cons_of_pos (by simpa using hg)] at h
      cases h
      rw [if_pos hg, List.foldlM_cons]
      exact bind_clean env configId db₀ rows _
    · rw [List.find?_cons_of_neg (by simpa using hg)] at h
      rw [if_neg hg, List.foldlM_cons, flushShare_shareObject]
      exact ih h

/-- How the grants of an object differ from the rows `rows` they were read from. -/
inductive GrantEdit
  | keep
  | add (granteeId : ℤ) (permission : SharePermission)
  | assign (s : ConfigShare) (permission : SharePermission)
  | drop (s : ConfigShare)

def GrantEdit.flush (env : Env) (configId : ℤ) (db : Database) : GrantEdit → Except DatabaseError Database
  | .keep => .ok db
  | .add granteeId permission => flushShare env configId db ⟨none, granteeId, permission, none⟩
  | .assign s permission => flushShare env configId db ⟨some s, s.granteeId, permission, none⟩
  | .drop s => Database.store { db.toTables with shares := db.shares.erase s.id }

/-- The object has been edited so. -/
def Edited (o : ConfigObject) (db₀ : Database) (rows : List ConfigShare) : GrantEdit → Prop
  | .keep => o.shares = rows.map db₀.shareObject ∧ o.removed = []
  | .add granteeId p => o.shares = rows.map db₀.shareObject ++ [⟨none, granteeId, p, none⟩] ∧ o.removed = []
  | .assign s p => rows.find? (fun r => r.granteeId = s.granteeId) = some s ∧
      o.shares = assignPermission s.granteeId p (rows.map db₀.shareObject) ∧ o.removed = []
  | .drop s => o.shares = (rows.map db₀.shareObject).erase (db₀.shareObject s) ∧
      o.removed = [db₀.shareObject s]

theorem erase_shareObject (db₀ : Database) (rows : List ConfigShare) (s : ConfigShare) :
    ∃ rest : List ConfigShare, (rows.map db₀.shareObject).erase (db₀.shareObject s) = rest.map db₀.shareObject := by
  induction rows with
  | nil => exact ⟨[], rfl⟩
  | cons r rows ih =>
    obtain ⟨rest, hrest⟩ := ih
    rw [List.map_cons, List.erase_cons]
    split
    · exact ⟨rows, rfl⟩
    · exact ⟨r :: rest, by rw [hrest, List.map_cons]⟩

/-- A flush writes the row and makes the one edit of the grants. -/
theorem flush_eq (env : Env) {rows : List ConfigShare} {edit : GrantEdit} (h : o.Edited db₀ rows edit) (db : Database) :
    o.flush env db = (o.flushRow env db).bind (fun db => edit.flush env o.stored.id db) := by
  unfold flush
  cases o.flushRow env db with
  | error e => rfl
  | ok db' =>
    show ((o.shares.foldlM (flushShare env o.stored.id) db').bind
      fun db => o.removed.foldlM flushRemoved db) = edit.flush env o.stored.id db'
    cases edit with
    | keep =>
      obtain ⟨hshares, hremoved⟩ := h
      rw [hshares, hremoved, foldlM_clean]
      rfl
    | add granteeId p =>
      obtain ⟨hshares, hremoved⟩ := h
      rw [hshares, hremoved, List.foldlM_append, foldlM_clean]
      exact (bind_ok _).trans (bind_ok _)
    | assign s p =>
      obtain ⟨hfind, hshares, hremoved⟩ := h
      rw [hshares, hremoved, foldlM_assign _ _ _ _ p hfind]
      exact bind_ok _
    | drop s =>
      obtain ⟨hshares, hremoved⟩ := h
      obtain ⟨rest, hrest⟩ := erase_shareObject db₀ rows s
      rw [hshares, hrest, hremoved, foldlM_clean]
      exact bind_ok _

/-! ## The effect of an edit -/

namespace GrantEdit

/-- What the edit does to the grant map of its config. -/
def apply (G : ℤ → Option SharePermission) : GrantEdit → ℤ → Option SharePermission
  | .keep => G
  | .add granteeId p => Function.update G granteeId (some p)
  | .assign s p => Function.update G s.granteeId (some p)
  | .drop s => Function.update G s.granteeId none

/-- The edit is about the grants that the config has. -/
def Valid (db : Database) (configId : ℤ) : GrantEdit → Prop
  | .keep => True
  | .add granteeId _ => (db.users.get? granteeId).isSome ∧ db.grants configId granteeId = none
  | .assign s _ => s ∈ db.sharesOf configId
  | .drop s => s ∈ db.sharesOf configId

/-- `db'` differs from `db` in the grants of one config, which are now `G`. -/
structure Regranted (db : Database) (configId : ℤ) (G : ℤ → Option SharePermission) (db' : Database) :
    Prop where
  users : db'.users = db.users
  sessions : db'.sessions = db.sessions
  configs : db'.configs = db.configs
  grants : db'.grants configId = G
  others : ∀ c, c ≠ configId → db'.grants c = db.grants c

theorem Regranted.refl (db : Database) (configId : ℤ) : Regranted db configId (db.grants configId) db :=
  ⟨rfl, rfl, rfl, rfl, fun _ _ => rfl⟩

variable {db db' : Database} {configId : ℤ}

theorem regranted_set {s : ConfigShare} (h : db'.toTables = { db.toTables with shares := db.shares.set s.id s })
    (hold : ∀ r, db.shares.get? s.id = some r → r.configId = s.configId ∧ r.granteeId = s.granteeId) :
    Regranted db s.configId (Function.update (db.grants s.configId) s.granteeId (some s.permission)) db' where
  users := by rw [h]
  sessions := by rw [h]
  configs := by rw [h]
  grants := by rw [Database.grants_set (by rw [h]) hold, if_pos rfl]
  others c hc := by rw [Database.grants_set (by rw [h]) hold, if_neg hc]

theorem regranted_erase {s : ConfigShare} (hs : s ∈ db.sharesOf configId)
    (h : db'.toTables = { db.toTables with shares := db.shares.erase s.id }) :
    Regranted db configId (Function.update (db.grants configId) s.granteeId none) db' := by
  obtain ⟨hrow, rfl⟩ := Database.mem_sharesOf.mp hs
  exact
    { users := by rw [h]
      sessions := by rw [h]
      configs := by rw [h]
      grants := by rw [Database.grants_erase (by rw [h]) hrow, if_pos rfl]
      others := fun c hc => by rw [Database.grants_erase (by rw [h]) hrow, if_neg hc] }

theorem flush_drop (env : Env) (configId : ℤ) (db : Database) (s : ConfigShare) :
    ∃ db', (drop s).flush env configId db = .ok db' ∧
      db'.toTables = { db.toTables with shares := db.shares.erase s.id } :=
  ⟨_, Database.store_of_constraints (db.constraints.erase_share s.id), rfl⟩

theorem flush_assign (env : Env) (configId : ℤ) {s r : ConfigShare} (p : SharePermission) (hne : p ≠ s.permission)
    (hr : db.shares.get? s.id = some r) :
    ∃ db', (assign s p).flush env configId db = .ok db' ∧
      db'.toTables = { db.toTables with shares := db.shares.set s.id { r with permission := p } } := by
  have hid : r.id = s.id := db.constraints.shareId _ r hr
  have hcons := db.constraints.set_share (s := { r with permission := p }) hid
    (db.constraints.shareConfig _ r hr) (db.constraints.grantee _ r hr)
    (fun k x hx hc hg => db.constraints.oneGrant k s.id x r hx hr (Prod.ext hc hg))
  refine ⟨⟨_, hcons⟩, ?_, rfl⟩
  rw [flush, flushShare]
  simp only [if_neg hne, hr]
  exact Database.store_of_constraints hcons

theorem flush_add_ok {env : Env} {granteeId : ℤ} {p : SharePermission}
    (h : (add granteeId p).flush env configId db = .ok db') :
    ∃ k, db.shares.get? k = none ∧
      db'.toTables = { db.toTables with shares := db.shares.set k ⟨k, configId, granteeId, p⟩ } :=
  ⟨_, Database.insert_eq_ok h⟩

/-- A valid edit succeeds and does to the grants what it says. -/
theorem flush_valid {edit : GrantEdit} (env : Env) (hconfig : (db.configs.get? configId).isSome)
    (h : edit.Valid db configId) :
    ∃ db', edit.flush env configId db = .ok db' ∧
      Regranted db configId (edit.apply (db.grants configId)) db' := by
  cases edit with
  | keep => exact ⟨db, rfl, .refl db configId⟩
  | add granteeId p =>
    obtain ⟨huser, hnone⟩ := h
    have hkey := env.ids.get?_nextKey db.shares
    have hcons := db.constraints.set_share (s := ⟨env.ids.nextKey db.shares, configId, granteeId, p⟩) rfl
      hconfig huser
      (fun k r hr hc hg => by
        have hin : r ∈ db.sharesOf configId :=
          Database.mem_sharesOf.mpr ⟨by rw [db.constraints.shareId k r hr]; exact hr, hc⟩
        exact absurd hg (Database.grants_eq_none.mp hnone r hin))
    refine ⟨⟨_, hcons⟩, ?_, ?_⟩
    · exact (Database.insert_of_fresh hkey _ _).trans (Database.store_of_constraints hcons)
    · exact regranted_set (s := ⟨env.ids.nextKey db.shares, configId, granteeId, p⟩) rfl
        (fun r hr => by
          rw [hkey] at hr
          cases hr)
  | assign s p =>
    obtain ⟨hrow, hc⟩ := Database.mem_sharesOf.mp h
    by_cases hp : p = s.permission
    · refine ⟨db, if_pos hp, ?_⟩
      have hheld : db.grants configId s.granteeId = some p := Database.grants_eq_some.mpr ⟨s, h, rfl, hp.symm⟩
      have hsame : (assign s p).apply (db.grants configId) = db.grants configId := by
        rw [apply, ← hheld, Function.update_eq_self]
      rw [hsame]
      exact .refl db configId
    · obtain ⟨db', hflush, hdb⟩ := flush_assign env configId p hp hrow
      refine ⟨db', hflush, ?_⟩
      have := regranted_set (s := { s with permission := p }) hdb (fun r hr => by
        rw [show db.shares.get? ({ s with permission := p } : ConfigShare).id = some s from hrow] at hr
        cases hr
        exact ⟨rfl, rfl⟩)
      rw [← hc]
      exact this
  | drop s =>
    obtain ⟨db', hflush, hdb⟩ := flush_drop env configId db s
    exact ⟨db', hflush, regranted_erase h hdb⟩

end GrantEdit
end ConfigObject
end Tstlan
