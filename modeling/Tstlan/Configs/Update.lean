import Tstlan.Configs.Payloads
import Tstlan.Configs.Sharing

/-! # An update, field by field (`update_config` of `tstlan/configs/service.py`)

The checks of an update are interleaved with assignments to the object that the session holds.
`updateLoaded` is that part on the live object: it raises before the first assignment or not at all. -/
namespace Tstlan
open Foundations
set_option autoImplicit false

namespace Configs
variable (root : LogLevel) (user : User) (configId : ℤ) (data : ConfigUpdate)

/-! ## The live object -/

def assignVisibilityLive : Option ConfigVisibility → EStateM ConfigError ConfigObject Unit
  | none => return ()
  | some .PUBLIC =>
    if canPublish user then modify (fun config => config.setVisibility .PUBLIC)
    else fromExcept (reject root ["config_id", "login", "user_id", "role"] (.publishNotAllowed user.login))
  | some _ => do
    modify (fun config => config.setVisibility .PRIVATE)
    modify normalizeVisibility

/-- `update_config` between `get_config` and the commit. -/
def updateLoaded (access : Access) : EStateM ConfigError ConfigObject Unit :=
  if (data.name.isSome || data.visibility.isSome) ∧ access ≠ .OWNER then
    fromExcept (reject root ["config_id", "login", "user_id", "reason"] (.configAccessDenied configId))
  else if data.payload.isSome ∧ access ∉ [Access.OWNER, Access.WRITE] then
    fromExcept (reject root ["config_id", "login", "user_id", "reason"] (.configAccessDenied configId))
  else do
    assignVisibilityLive root user data.visibility
    modify (fun config => assignName config data.name)
    modify (fun config => assignPayload config data.payload)

/-- The refusals of a caller with this access. -/
def UpdateForbidden (access : Access) : Prop :=
  (data.name.isSome ∨ data.visibility.isSome) ∧ access ≠ .OWNER ∨
    data.payload.isSome ∧ access ∉ [Access.OWNER, Access.WRITE] ∨
    data.visibility = some .PUBLIC ∧ user.role ∉ [Role.DEV, Role.ADMIN]

variable {root user configId data} {env : Env} {db db' : Database} {row : DeviceConfig} {access : Access}

theorem run_assignVisibilityLive (root : LogLevel) (user : User) (v : Option ConfigVisibility) (o : ConfigObject) :
    (assignVisibilityLive root user v).run o =
      match assignVisibility root user o v with
      | .ok o' => .ok () o'
      | .error e => .error e o := by
  cases v with
  | none => rfl
  | some v =>
    cases v with
    | PRIVATE => rfl
    | SHARED => rfl
    | PUBLIC =>
      unfold assignVisibilityLive assignVisibility
      by_cases hpublish : canPublish user
      · rw [if_pos hpublish, if_pos hpublish]
        rfl
      · rw [if_neg hpublish, if_neg hpublish, reject_eq (by decide), reject_eq (by decide)]
        rfl

theorem not_publisher_iff : user.role ∉ [Role.DEV, Role.ADMIN] ↔ user.role = .USER := by
  cases user.role <;> decide

/-- The object is as it was loaded, or it is the one that is committed. -/
theorem updateLoaded_cases (root : LogLevel) (user : User) (configId : ℤ) (data : ConfigUpdate) (access : Access)
    (db : Database) (row : DeviceConfig) :
    (UpdateForbidden user data access ∧
      ∃ e, (updateLoaded root user configId data access).run (db.load row) = .error e (db.load row)) ∨
    ¬ UpdateForbidden user data access ∧
      (updateLoaded root user configId data access).run (db.load row) = .ok () (updatedObject db row data) := by
  unfold updateLoaded UpdateForbidden
  simp only [Bool.or_eq_true]
  by_cases hmanage : (data.name.isSome ∨ data.visibility.isSome) ∧ access ≠ .OWNER
  · refine .inl ⟨.inl hmanage, .configAccessDenied configId, ?_⟩
    rw [if_pos hmanage, reject_eq (by decide)]
    rfl
  · by_cases hpayload : data.payload.isSome ∧ access ∉ [Access.OWNER, Access.WRITE]
    · refine .inl ⟨.inr (.inl hpayload), .configAccessDenied configId, ?_⟩
      rw [if_neg hmanage, if_pos hpayload, reject_eq (by decide)]
      rfl
    · rw [if_neg hmanage, if_neg hpayload]
      have hlive := run_assignVisibilityLive root user data.visibility (db.load row)
      rcases assignVisibility_cases root db user row data.visibility with
        ⟨hv, hrole, hassign⟩ | ⟨hallowed, hassign⟩
      · rw [hassign] at hlive
        exact .inl ⟨.inr (.inr ⟨hv, not_publisher_iff.mpr hrole⟩), _, run_bind_error hlive⟩
      · rw [hassign] at hlive
        refine .inr ⟨?_, (run_bind_ok hlive).trans rfl⟩
        rintro (h | h | ⟨hv, hrole⟩)
        · exact hmanage h
        · exact hpayload h
        · exact hallowed ⟨hv, not_publisher_iff.mp hrole⟩

/-- What is prepared for the commit is what has become of the live object. -/
theorem prepareUpdate_eq (root : LogLevel) (db : Database) (user : User) (configId : ℤ) (data : ConfigUpdate) :
    prepareUpdate root db user configId data =
      (getConfig root db user configId).bind (fun loaded =>
        match (updateLoaded root user configId data loaded.2).run loaded.1 with
        | .ok () config => .ok (config, loaded.2)
        | .error e _ => .error e) := by
  unfold prepareUpdate updateLoaded
  cases getConfig root db user configId with
  | error e => rfl
  | ok loaded =>
    simp only [bind, Except.bind]
    by_cases hmanage : (data.name.isSome || data.visibility.isSome) ∧ loaded.2 ≠ .OWNER
    · rw [if_pos hmanage, if_pos hmanage, reject_eq (by decide), reject_eq (by decide)]
      rfl
    · by_cases hpayload : data.payload.isSome ∧ loaded.2 ∉ [Access.OWNER, Access.WRITE]
      · rw [if_neg hmanage, if_neg hmanage, if_pos hpayload, if_pos hpayload, reject_eq (by decide),
          reject_eq (by decide)]
        rfl
      · rw [if_neg hmanage, if_neg hmanage, if_neg hpayload, if_neg hpayload]
        have hlive := run_assignVisibilityLive root user data.visibility loaded.1
        cases hassign : assignVisibility root user loaded.1 data.visibility with
        | error e =>
          rw [hassign] at hlive
          have hrun := run_bind_error (f := fun _ => do
            modify (fun config => assignName config data.name)
            modify (fun config => assignPayload config data.payload)) hlive
          simp only [bind] at hrun
          rw [hrun]
        | ok config =>
          rw [hassign] at hlive
          have hrun := run_bind_ok (f := fun _ => do
            modify (fun config => assignName config data.name)
            modify (fun config => assignPayload config data.payload)) hlive
          simp only [bind] at hrun
          rw [hrun]
          rfl

/-! ## What an update refuses and what it changes -/

/-- The refusals of `update_config`. -/
def UpdateRefused (db : Database) (user : User) (configId : ℤ) (data : ConfigUpdate) : Prop :=
  match db.configs.get? configId with
  | none => True
  | some row =>
    match effectiveAccess user (db.load row) with
    | none => True
    | some access => UpdateForbidden user data access

/-- The given columns have their given values, the label is that of the grants, and the time stamp tells whether a
column was written; the payload column is written if the dumped payload is another one. -/
structure UpdatedRow (db : Database) (data : ConfigUpdate) (now : Time) (row row' : DeviceConfig) : Prop where
  name : row'.name = data.name.getD row.name
  payload : row'.payload.same (data.payload.getD row.payload)
  keptPayload : data.payload = none → row'.payload = row.payload
  visibility : row'.visibility =
    match data.visibility with
    | none => row.visibility
    | some .PUBLIC => .PUBLIC
    | some _ => if (db.sharesOf row.id).isEmpty then .PRIVATE else .SHARED
  id : row'.id = row.id
  ownerId : row'.ownerId = row.ownerId
  deviceType : row'.deviceType = row.deviceType
  createdAt : row'.createdAt = row.createdAt
  updatedAt : row' = row ∨ row'.updatedAt = now

/-- What one update does to the database and to the object that the session holds. -/
structure ExactUpdate (root : LogLevel) (env : Env) (db : Database) (user : User) (configId : ℤ)
    (data : ConfigUpdate) : Prop where
  raises : (∃ e db', (updateConfig root env user configId data).run db = .error e db') ↔
    UpdateRefused db user configId data
  untouched : ∀ e db', (updateConfig root env user configId data).run db = .error e db' → db' = db
  loaded : ∀ row access, db.configs.get? configId = some row → effectiveAccess user (db.load row) = some access →
    ∀ e o, (updateLoaded root user configId data access).run (db.load row) = .error e o → o = db.load row
  updated : ∀ result db', (updateConfig root env user configId data).run db = .ok result db' →
    ∃ row row', db.configs.get? configId = some row ∧ UpdatedRow db data env.now row row' ∧
      db'.toTables = { db.toTables with configs := db.configs.set configId row' }

theorem updatedRow_rowAfter (db : Database) (data : ConfigUpdate) (now : Time) (row : DeviceConfig) :
    UpdatedRow db data now row ((updatedObject db row data).rowAfter now row) := by
  have hrow := row_updatedObject db row data
  have hname : (updatedObject db row data).row.name = data.name.getD row.name := by rw [hrow]
  have hpayload : (updatedObject db row data).row.payload = data.payload.getD row.payload := by rw [hrow]
  have hvis : (updatedObject db row data).row.visibility = updatedVisibility db row data.visibility := by rw [hrow]
  have hstored : (updatedObject db row data).stored = row := by
    unfold updatedObject
    cases data.name <;> cases data.payload <;> rfl
  constructor
  · rw [ConfigObject.name_rowAfter, hstored, hname]
    split
    · next h => exact h.symm
    · rfl
  · rw [ConfigObject.payload_rowAfter, hstored, hpayload]
    split
    · next h => exact ConfigPayload.same_symm h
    · exact ConfigPayload.same_refl _
  · intro hnone
    rw [ConfigObject.payload_rowAfter, hstored, hpayload, hnone]
    exact if_pos (ConfigPayload.same_refl _)
  · rw [visibility_rowAfter_self hstored, hvis]
    rfl
  · exact ConfigObject.id_rowAfter _ _ _
  · exact ConfigObject.ownerId_rowAfter _ _ _
  · unfold ConfigObject.rowAfter
    split <;> rfl
  · unfold ConfigObject.rowAfter
    split <;> rfl
  · unfold ConfigObject.rowAfter
    split
    · exact .inl rfl
    · exact .inr rfl

/-- A call that is refused, and one that is prepared. -/
theorem updateConfig_cases (root : LogLevel) (env : Env) (db : Database) (user : User) (configId : ℤ)
    (data : ConfigUpdate) :
    (UpdateRefused db user configId data ∧
      ∃ e, (updateConfig root env user configId data).run db = .error e db) ∨
    ¬ UpdateRefused db user configId data ∧ ∃ row result db', db.configs.get? configId = some row ∧
      (updateConfig root env user configId data).run db = .ok result db' ∧
      db'.toTables = { db.toTables with
        configs := db.configs.set configId ((updatedObject db row data).rowAfter env.now row) } := by
  have hprep := prepareUpdate_eq root db user configId data
  unfold UpdateRefused
  cases hrow : db.configs.get? configId with
  | none =>
    have hget : getConfig root db user configId = .error (.configNotFound configId) := by
      unfold getConfig
      rw [hrow]
      exact reject_eq (by decide) root _
    rw [hget] at hprep
    exact .inl ⟨trivial, _, updateConfig_error hprep⟩
  | some row =>
    simp only
    cases haccess : effectiveAccess user (db.load row) with
    | none =>
      have hget : getConfig root db user configId = .error (.configAccessDenied configId) := by
        unfold getConfig
        simp only [hrow, haccess]
        exact reject_eq (by decide) root _
      rw [hget] at hprep
      exact .inl ⟨trivial, _, updateConfig_error hprep⟩
    | some access =>
      have hget : getConfig root db user configId = .ok (db.load row, access) := by
        unfold getConfig
        simp only [hrow, haccess]
        rfl
      rw [hget] at hprep
      rcases updateLoaded_cases root user configId data access db row with ⟨hforbidden, e, hrun⟩ | ⟨hallowed, hrun⟩
      · simp only [Except.bind, hrun] at hprep
        exact .inl ⟨hforbidden, e, updateConfig_error hprep⟩
      · simp only [Except.bind, hrun] at hprep
        have hprepared := prepared_update hrow data
        obtain ⟨db₁, hsplit, hdb₁⟩ := flush_split hprepared hrow env
        have hfound : db₁.configs.get? configId = some ((updatedObject db row data).rowAfter env.now row) := by
          rw [hdb₁]
          exact Dict.get?_set_self ..
        exact .inr ⟨hallowed, row, _, db₁, rfl, updateConfig_ok hprep hsplit hfound, hdb₁⟩

/-- One config, last updated at time 0. -/
def storedTank : Database :=
  final ((createConfig .INFO sampleEnv ⟨1, "ann", "", .DEV, true⟩ ⟨"Tank", "tank", {}, .PRIVATE⟩).run sampleDatabase)

end Configs
end Tstlan
