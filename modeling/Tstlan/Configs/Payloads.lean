import Tstlan.Configs.Refinement

/-! # The payloads a call leaves in the store

Whatever a call does, the payload of a config afterwards is the one it had before or the one of the call's
body; and a body that is accepted is what some config then holds. -/
namespace Tstlan
open Foundations
set_option autoImplicit false

theorem ConfigPayload.same_symm {p q : ConfigPayload} (h : p.same q) : q.same p :=
  ⟨h.1.symm, h.2.1.symm, h.2.2.symm⟩

/-- The payload of the body. -/
def ConfigCall.payload : ConfigCall → Option ConfigPayload
  | .create _ data => some data.payload
  | .update _ _ data => data.payload
  | .delete _ _ => none
  | .share _ _ _ => none
  | .unshare _ _ _ => none

/-- The payload of a body that was accepted. -/
def ConfigCall.written (call : ConfigCall) : Except ConfigError Unit → Option ConfigPayload
  | .ok () => call.payload
  | .error _ => none

/-- A call that has written this payload, or none, leads from `db` to `db'`. -/
structure PayloadsAfter (db db' : Database) (written : Option ConfigPayload) : Prop where
  origin : ∀ id row', db'.configs.get? id = some row' →
    (∃ row, db.configs.get? id = some row ∧ row'.payload = row.payload) ∨ written = some row'.payload
  held : ∀ p, written = some p → ∃ id row', db'.configs.get? id = some row' ∧ row'.payload.same p

namespace PayloadsAfter
variable {db db' : Database} {configId : ℤ} {row row' : DeviceConfig} {G : ℤ → Option SharePermission}
  {written : Option ConfigPayload}

theorem refl (db : Database) : PayloadsAfter db db none :=
  ⟨fun _ row' h => .inl ⟨row', h, rfl⟩, fun _ h => by cases h⟩

/-- One row is replaced. -/
theorem of_committed (hrow : db.configs.get? configId = some row) (h : db.Committed configId row' G db')
    (horigin : row'.payload = row.payload ∨ written = some row'.payload)
    (hheld : ∀ p, written = some p → row'.payload.same p) : PayloadsAfter db db' written where
  origin id r hr := by
    rw [h.configs, Dict.get?_set] at hr
    split at hr
    · next hid =>
      cases hr
      rw [hid]
      exact horigin.imp_left (fun hp => ⟨row, hrow, hp⟩)
    · exact .inl ⟨r, hr, rfl⟩
  held p hp := ⟨configId, row', h.get?, hheld p hp⟩

end PayloadsAfter

namespace Configs
variable (root : LogLevel) (env : Env) (db : Database) (user : User)

theorem payloads_error {call : ConfigCall} {e : ConfigError} (h : (call.run root env).run db = .error e db) :
    PayloadsAfter db (final ((call.run root env).run db))
      (call.written (outcome ((call.run root env).run db))) := by
  rw [h]
  exact .refl db

/-- A share or an unshare commits an object with the payload of its row. -/
theorem payloads_label {call : ConfigCall} {configId : ℤ} {row : DeviceConfig} {o : ConfigObject}
    {edit : ConfigObject.GrantEdit} {db' : Database} (hnone : call.payload = none)
    (hobject : Prepared db configId row o edit) (hlabel : o.row = { row with visibility := o.row.visibility })
    {G : ℤ → Option SharePermission} (hc : db.Committed configId (o.rowAfter env.now row) G db')
    (h : (call.run root env).run db = .ok () db') :
    PayloadsAfter db (final ((call.run root env).run db))
      (call.written (outcome ((call.run root env).run db))) := by
  rw [h]
  have hwritten : call.written (outcome (.ok () db' : EStateM.Result ConfigError Database Unit)) = none := hnone
  rw [hwritten]
  refine .of_committed hobject.found hc (.inl ?_) (fun _ hp => by cases hp)
  have hpayload : o.row.payload = row.payload := by rw [hlabel]
  rw [ConfigObject.payload_rowAfter, hpayload, ite_self]

theorem payloads_create (data : ConfigCreate) :
    PayloadsAfter db (final (((ConfigCall.create user data).run root env).run db))
      ((ConfigCall.create user data).written (outcome (((ConfigCall.create user data).run root env).run db))) := by
  rcases resolveCreateVisibility_cases root user data.visibility with ⟨-, -, hres⟩ | ⟨-, hres⟩
  · exact payloads_error root env db (run_bind_error (createConfig_error hres))
  · cases hstore : Database.store { db.toTables with
      configs := db.configs.set (nextId env db) (createdRow env user data (nextId env db)) } with
    | error e => exact payloads_error root env db (run_bind_error (createConfig_refused hres hstore))
    | ok db' =>
      have hconfigs : db'.configs = db.configs.set (nextId env db) (createdRow env user data (nextId env db)) := by
        rw [Database.store_eq_ok hstore]
      have hcreated : db'.configs.get? (nextId env db) = some (createdRow env user data (nextId env db)) := by
        rw [hconfigs, Dict.get?_set_self]
      have hrun : ((ConfigCall.create user data).run root env).run db = .ok () db' :=
        run_bind_ok (createConfig_ok hres hstore hcreated)
      rw [hrun]
      refine ⟨fun id r hr => ?_, fun p hp => ⟨_, _, hcreated, ?_⟩⟩
      · have hr : db'.configs.get? id = some r := hr
        rw [hconfigs, Dict.get?_set] at hr
        split at hr
        · cases hr
          exact .inr rfl
        · exact .inl ⟨r, hr, rfl⟩
      · have hp : some data.payload = some p := hp
        cases hp
        exact data.payload.same_refl

theorem payloads_update (configId : ℤ) (data : ConfigUpdate) :
    PayloadsAfter db (final (((ConfigCall.update user configId data).run root env).run db))
      ((ConfigCall.update user configId data).written
        (outcome (((ConfigCall.update user configId data).run root env).run db))) := by
  rcases prepareUpdate_cases root db user configId data with ⟨e, -, hprep⟩ |
    ⟨row, access, hrow, -, -, -, -, hprep, -⟩
  · exact payloads_error root env db (run_bind_error (updateConfig_error hprep))
  · have hobject := prepared_update hrow data
    obtain ⟨db', hflush, hc⟩ := flush_prepared hobject env
    have hrun : ((ConfigCall.update user configId data).run root env).run db = .ok () db' :=
      run_bind_ok (updateConfig_ok hprep hflush hc.get?)
    have hpayload : ((updatedObject db row data).rowAfter env.now row).payload =
        if (data.payload.getD row.payload).same row.payload then row.payload
        else data.payload.getD row.payload := by
      rw [ConfigObject.payload_rowAfter, hobject.stored, row_updatedObject]
    rw [hrun]
    refine .of_committed hrow hc ?_ (fun p hp => ?_)
    · rw [hpayload]
      cases hdata : data.payload with
      | none =>
        rw [Option.getD_none, ite_self]
        exact .inl rfl
      | some p =>
        rw [Option.getD_some]
        split
        · exact .inl rfl
        · exact .inr hdata
    · have hp : data.payload = some p := hp
      rw [hpayload, hp, Option.getD_some]
      split
      · next hsame => exact ConfigPayload.same_symm hsame
      · exact p.same_refl

theorem payloads_delete (configId : ℤ) :
    PayloadsAfter db (final (((ConfigCall.delete user configId).run root env).run db))
      ((ConfigCall.delete user configId).written
        (outcome (((ConfigCall.delete user configId).run root env).run db))) := by
  rcases prepareDelete_cases root db user configId with ⟨e, -, hprep⟩ | ⟨row, hrow, -, hprep, -⟩
  · exact payloads_error root env db (deleteConfig_error hprep)
  · obtain ⟨db', p, hflush, hdb', -⟩ := flushDeleted_ok hrow
    have hrun : ((ConfigCall.delete user configId).run root env).run db = .ok () db' :=
      deleteConfig_ok hprep hflush
    rw [hrun]
    refine ⟨fun id r hr => .inl ⟨r, ?_, rfl⟩, fun p hp => by cases hp⟩
    have hr : db'.configs.get? id = some r := hr
    rw [hdb'] at hr
    have hr : (db.configs.erase configId).get? id = some r := hr
    rw [Dict.get?_erase] at hr
    split at hr
    · cases hr
    · exact hr

/-- **Every call leaves the payloads it found, apart from the one it was given.** -/
theorem payloads_call (call : ConfigCall) :
    PayloadsAfter db (final ((call.run root env).run db))
      (call.written (outcome ((call.run root env).run db))) := by
  cases call with
  | create user data => exact payloads_create root env db user data
  | update user configId data => exact payloads_update root env db user configId data
  | delete user configId => exact payloads_delete root env db user configId
  | share user configId req =>
    rcases prepareShare_cases root db user configId req with ⟨e, -, hprep⟩ |
      ⟨row, grantee, o, edit, -, -, -, hprep, hobject, hlabel, -, -, -⟩
    · exact payloads_error root env db (run_bind_error (shareConfig_error hprep))
    · obtain ⟨db', hflush, hc⟩ := flush_prepared hobject env
      exact payloads_label root env db rfl hobject hlabel hc (run_bind_ok (shareConfig_ok hprep hflush hc.get?))
  | unshare user configId login =>
    rcases prepareUnshare_cases root db user configId login with ⟨e, -, hprep⟩ |
      ⟨row, grantee, o, s, -, -, -, hprep, hobject, hlabel, -, -⟩
    · exact payloads_error root env db (run_bind_error (unshareConfig_error hprep))
    · obtain ⟨db', hflush, hc⟩ := flush_prepared hobject env
      exact payloads_label root env db rfl hobject hlabel hc
        (run_bind_ok (unshareConfig_ok hprep hflush hc.get?))

end Configs
end Tstlan
