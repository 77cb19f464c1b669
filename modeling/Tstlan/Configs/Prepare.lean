import Tstlan.Configs.Flush

/-! # What a mutation prepares

Up to its commit a mutation reads the database, refuses the call as the abstract store does, or edits the
object it has loaded. -/
namespace Tstlan
open Foundations
set_option autoImplicit false

namespace Configs
variable {root : LogLevel} {db : Database} {user : User} {configId : ℤ}

/-! ## Reading a config -/

theorem reject_eq {α : Type} {fields : List String}
    (h : ("event" :: fields).any recordAttributes.contains = false) (root : LogLevel) (e : ConfigError) :
    (reject root fields e : Except ConfigError α) = .error e := by
  unfold reject logEvent
  rw [logCall_of_clean h]
  rfl

theorem sharePermission_load (user : User) (row : DeviceConfig) :
    sharePermission user (db.load row) = db.grants row.id user.id := by
  show (((db.sharesOf row.id).map db.shareObject).find? _).map _ = _
  rw [List.find?_map, Option.map_map]
  rfl

theorem effectiveAccess_load (user : User) (row : DeviceConfig) :
    effectiveAccess user (db.load row) = AbstractStore.access user (db.abstractConfig row) := by
  unfold effectiveAccess AbstractStore.access
  rw [sharePermission_load]
  show (if user.role = .ADMIN ∨ row.ownerId = user.id then _ else _) =
    if user.role = .ADMIN ∨ row.ownerId = user.id then _ else _
  have hpublic : (if row.visibility = .PUBLIC then some Access.READ else none) =
      if decide (row.visibility = .PUBLIC) = true then some Access.READ else none := by
    simp only [decide_eq_true_eq]
  rw [show (db.load row).row.visibility = row.visibility from rfl, hpublic]
  rfl

/-- `get_config` answers as the abstract store does. -/
theorem getConfig_cases (root : LogLevel) (db : Database) (user : User) (configId : ℤ) :
    (∃ e, db.abstract.visible user configId = .error e ∧ getConfig root db user configId = .error e) ∨
    ∃ row access, db.configs.get? configId = some row ∧
      AbstractStore.access user (db.abstractConfig row) = some access ∧
      db.abstract.visible user configId = .ok (db.abstractConfig row, access) ∧
      getConfig root db user configId = .ok (db.load row, access) := by
  unfold getConfig AbstractStore.visible
  rw [show db.abstract.configs configId = (db.configs.get? configId).map db.abstractConfig from rfl]
  cases hrow : db.configs.get? configId with
  | none => exact .inl ⟨_, rfl, reject_eq (by decide) root _⟩
  | some row =>
    cases haccess : AbstractStore.access user (db.abstractConfig row) with
    | none =>
      refine .inl ⟨.configAccessDenied configId, ?_, ?_⟩
      · simp only [Option.map_some, haccess]
      · simp only [effectiveAccess_load, haccess]
        exact reject_eq (by decide) root _
    | some access =>
      refine .inr ⟨row, access, rfl, haccess, ?_, ?_⟩
      · simp only [Option.map_some, haccess]
      · simp only [effectiveAccess_load, haccess]
        rfl

/-! ## Labels -/

theorem visibilityOf_eq (c : AbstractConfig) :
    (c.published → visibilityOf c = .PUBLIC) ∧
    (c.published = false → c.HasGrants → visibilityOf c = .SHARED) ∧
    (c.published = false → ¬ c.HasGrants → visibilityOf c = .PRIVATE) := by
  unfold visibilityOf Shareable.exposure
  refine ⟨fun h => ?_, fun h hg => ?_, fun h hg => ?_⟩
  · rw [if_pos h]
  · rw [if_neg (by rw [h]; decide), if_pos hg]
  · rw [if_neg (by rw [h]; decide), if_neg hg]

/-- PUBLIC, or the label that goes with the grants of the object. -/
def Labelled (o : ConfigObject) : Prop :=
  o.row.visibility = .PUBLIC ∨ o.row.visibility = if o.shares.isEmpty then .PRIVATE else .SHARED

theorem labelled_normalize (o : ConfigObject) : Labelled (normalizeVisibility o) := by
  unfold normalizeVisibility
  split
  · next h => exact .inl h
  · exact .inr rfl

end Configs

open Configs

theorem length_assignPermission (granteeId : ℤ) (p : SharePermission) (shares : List ShareObject) :
    (ConfigObject.assignPermission granteeId p shares).length = shares.length := by
  induction shares with
  | nil => rfl
  | cons share shares ih =>
    rw [ConfigObject.assignPermission]
    split
    · rfl
    · rw [List.length_cons, ih, List.length_cons]

namespace Database
variable {db : Database} {configId : ℤ}

theorem sharesOf_nodup (db : Database) (configId : ℤ) : (db.sharesOf configId).Nodup := by
  have hkeys : db.shares.values.map ConfigShare.id = db.shares.keys := by
    rw [Dict.values, List.map_map, Dict.keys]
    refine List.map_congr_left (fun e he => ?_)
    exact db.constraints.shareId e.1 e.2 (Dict.mem_entries.mp he)
  have hvalues : db.shares.values.Nodup := by
    refine List.Nodup.of_map ConfigShare.id ?_
    rw [hkeys]
    exact db.shares.nodup
  exact hvalues.filter _

theorem shareObject_injective (db : Database) : Function.Injective db.shareObject := by
  intro r s h
  exact Option.some.inj (congrArg ShareObject.stored h)

/-- The collection of an edited object is empty exactly when nobody holds a grant any more. -/
theorem isEmpty_edited {o : ConfigObject} {edit : ConfigObject.GrantEdit}
    (he : o.Edited db (db.sharesOf configId) edit) (hv : edit.Valid db configId) :
    o.shares.isEmpty = false ↔ ∃ u, (edit.apply (db.grants configId) u).isSome := by
  rw [List.isEmpty_eq_false_iff]
  cases edit with
  | keep =>
    obtain ⟨hshares, -⟩ := he
    rw [hshares, ne_eq, List.map_eq_nil_iff]
    constructor
    · intro h
      obtain ⟨s, hs⟩ := List.exists_mem_of_ne_nil _ h
      exact ⟨s.granteeId, grants_isSome.mpr ⟨s, hs, rfl⟩⟩
    · rintro ⟨u, hu⟩
      obtain ⟨s, hs, -⟩ := grants_isSome.mp hu
      exact List.ne_nil_of_mem hs
  | add granteeId p =>
    obtain ⟨hshares, -⟩ := he
    rw [hshares]
    refine ⟨fun _ => ⟨granteeId, ?_⟩, fun _ => List.append_ne_nil_of_right_ne_nil _ (List.cons_ne_nil _ _)⟩
    rw [ConfigObject.GrantEdit.apply, Function.update_self]
    rfl
  | assign s p =>
    obtain ⟨-, hshares, -⟩ := he
    refine ⟨fun _ => ⟨s.granteeId, ?_⟩, fun _ => ?_⟩
    · rw [ConfigObject.GrantEdit.apply, Function.update_self]
      rfl
    · rw [hshares, ← List.length_pos_iff_ne_nil, length_assignPermission, List.length_map]
      exact List.length_pos_of_mem hv
  | drop s =>
    obtain ⟨hshares, -⟩ := he
    have hmem : ∀ x, x ∈ o.shares ↔ x ≠ db.shareObject s ∧ x ∈ (db.sharesOf configId).map db.shareObject := by
      intro x
      rw [hshares, ((db.sharesOf_nodup configId).map db.shareObject_injective).mem_erase_iff]
    constructor
    · intro h
      obtain ⟨x, hx⟩ := List.exists_mem_of_ne_nil _ h
      obtain ⟨hne, hin⟩ := (hmem x).mp hx
      obtain ⟨r, hr, rfl⟩ := List.mem_map.mp hin
      have hg : r.granteeId ≠ s.granteeId := fun hg => hne (by rw [eq_of_mem_sharesOf hr hv hg])
      refine ⟨r.granteeId, ?_⟩
      rw [ConfigObject.GrantEdit.apply, Function.update_of_ne hg]
      exact grants_isSome.mpr ⟨r, hr, rfl⟩
    · rintro ⟨u, hu⟩
      rw [ConfigObject.GrantEdit.apply] at hu
      by_cases hg : u = s.granteeId
      · rw [hg, Function.update_self] at hu
        cases hu
      · rw [Function.update_of_ne hg] at hu
        obtain ⟨r, hr, rfl⟩ := grants_isSome.mp hu
        refine List.ne_nil_of_mem ((hmem (db.shareObject r)).mpr ⟨fun h => hg ?_, List.mem_map_of_mem hr⟩)
        rw [db.shareObject_injective h]

end Database

/-! ## What is prepared for a commit -/

namespace Configs

/-- Loaded from a row of the database and edited: what a mutation commits. -/
structure Prepared (db : Database) (configId : ℤ) (row : DeviceConfig) (o : ConfigObject)
    (edit : ConfigObject.GrantEdit) : Prop where
  found : db.configs.get? configId = some row
  stored : o.stored = row
  edited : o.Edited db (db.sharesOf configId) edit
  valid : edit.Valid db configId
  /-- The label is computed, unless nothing it depends on has changed. -/
  labelled : Labelled o ∨ edit = .keep ∧ o.row.visibility = row.visibility

variable {root : LogLevel} {db db' : Database} {user : User} {configId : ℤ} {row : DeviceConfig}
  {o : ConfigObject} {edit : ConfigObject.GrantEdit}

theorem canPublish_iff (user : User) : canPublish user = true ↔ user.role ≠ .USER := by
  unfold canPublish
  cases user.role <;> decide

@[simp] theorem stored_normalize (o : ConfigObject) : (normalizeVisibility o).stored = o.stored := by
  unfold normalizeVisibility
  split <;> rfl

@[simp] theorem shares_normalize (o : ConfigObject) : (normalizeVisibility o).shares = o.shares := by
  unfold normalizeVisibility
  split <;> rfl

@[simp] theorem removed_normalize (o : ConfigObject) : (normalizeVisibility o).removed = o.removed := by
  unfold normalizeVisibility
  split <;> rfl

/-- Only the label of the row changes, and PUBLIC neither comes nor goes. -/
theorem row_normalize (o : ConfigObject) :
    (normalizeVisibility o).row = { o.row with visibility := (normalizeVisibility o).row.visibility } ∧
      ((normalizeVisibility o).row.visibility = .PUBLIC ↔ o.row.visibility = .PUBLIC) := by
  unfold normalizeVisibility
  split
  · exact ⟨rfl, .rfl⟩
  · next h =>
    refine ⟨rfl, iff_of_false ?_ h⟩
    show (if o.shares.isEmpty then ConfigVisibility.PRIVATE else .SHARED) ≠ .PUBLIC
    split <;> decide

theorem userByLogin_some {login : String} {u : User} (h : db.userByLogin login = some u) :
    db.users.get? u.id = some u ∧ u.login = login := by
  obtain ⟨k, hk⟩ := Dict.mem_values.mp (List.mem_of_find?_eq_some h)
  refine ⟨?_, by simpa using List.find?_some h⟩
  rw [db.constraints.userId k u hk]
  exact hk

theorem load_edited (h : db.configs.get? configId = some row) :
    (db.load row).Edited db (db.sharesOf configId) .keep := by
  rw [← Database.id_of_config h]
  exact ⟨rfl, rfl⟩

/-- Sharing with a user who exists, over the rows that are there. -/
theorem prepared_share (hrow : db.configs.get? configId = some row) {granteeId : ℤ}
    (huser : (db.users.get? granteeId).isSome) (p : SharePermission) :
    ∃ edit, Prepared db configId row
        (normalizeVisibility (if (db.load row).shares.any (fun share => share.granteeId = granteeId) then
          (db.load row).setPermission granteeId p else (db.load row).appendShare granteeId p)) edit ∧
      edit.apply (db.grants configId) = Function.update (db.grants configId) granteeId (some p) := by
  have hid := Database.id_of_config hrow
  cases hfind : (db.sharesOf configId).find? (fun s => s.granteeId = granteeId) with
  | none =>
    have hnone := List.find?_eq_none.mp hfind
    have hany : (db.load row).shares.any (fun share => share.granteeId = granteeId) = false := by
      rw [List.any_eq_false]
      intro share hshare
      obtain ⟨s, hs, rfl⟩ := List.mem_map.mp hshare
      exact hnone s (hid ▸ hs)
    rw [hany, if_neg (by decide)]
    refine ⟨.add granteeId p, ⟨hrow, ?_, ?_, ⟨huser, ?_⟩, .inl (labelled_normalize _)⟩, rfl⟩
    · rw [stored_normalize]
      rfl
    · refine ⟨?_, ?_⟩
      · rw [shares_normalize, ← hid]
        rfl
      · rw [removed_normalize]
        rfl
    · exact Database.grants_eq_none.mpr (fun s hs hg => hnone s hs (by simpa using hg))
  | some s =>
    have hin := List.mem_of_find?_eq_some hfind
    have hg : s.granteeId = granteeId := by simpa using List.find?_some hfind
    subst hg
    have hany : (db.load row).shares.any (fun share => share.granteeId = s.granteeId) = true := by
      rw [List.any_eq_true]
      refine ⟨db.shareObject s, List.mem_map_of_mem (hid.symm ▸ hin), ?_⟩
      exact decide_eq_true rfl
    rw [hany, if_pos rfl]
    refine ⟨.assign s p, ⟨hrow, ?_, ⟨hfind, ?_, ?_⟩, hin, .inl (labelled_normalize _)⟩, rfl⟩
    · rw [stored_normalize]
      rfl
    · rw [shares_normalize, ← hid]
      rfl
    · rw [removed_normalize]
      rfl

theorem row_share (row : DeviceConfig) (granteeId : ℤ) (p : SharePermission) :
    (if (db.load row).shares.any (fun share => share.granteeId = granteeId) then
        (db.load row).setPermission granteeId p else (db.load row).appendShare granteeId p).row = row := by
  split <;> rfl

theorem prepareShare_cases (root : LogLevel) (db : Database) (user : User) (configId : ℤ)
    (req : ShareRequest) :
    (∃ e, (∀ newId, db.abstract.perform newId (.share user configId req) = .error e) ∧
      prepareShare root db user configId req = .error e) ∨
    ∃ row grantee o edit, AbstractStore.access user (db.abstractConfig row) = some .OWNER ∧
      db.userByLogin req.login = some grantee ∧ grantee.id ≠ row.ownerId ∧
      prepareShare root db user configId req = .ok (o, .OWNER) ∧ Prepared db configId row o edit ∧
      o.row = { row with visibility := o.row.visibility } ∧
      (o.row.visibility = .PUBLIC ↔ row.visibility = .PUBLIC) ∧
      edit.apply (db.grants configId) = Function.update (db.grants configId) grantee.id (some req.permission) ∧
      ∀ newId, db.abstract.perform newId (.share user configId req) =
        .ok (db.abstract.put configId (some ((db.abstractConfig row).grant grantee.id req.permission))) := by
  unfold prepareShare AbstractStore.perform
  simp only [AbstractStore.managed]
  rw [show db.abstract.userByLogin req.login = db.userByLogin req.login from rfl]
  rcases getConfig_cases root db user configId with ⟨e, hvis, hget⟩ | ⟨row, access, hrow, haccess, hvis, hget⟩
  · simp only [hvis, hget]
    exact .inl ⟨e, fun _ => rfl, rfl⟩
  · simp only [hvis, hget, bind, Except.bind, pure, Except.pure]
    by_cases howner : access = .OWNER
    · subst howner
      cases hgrantee : db.userByLogin req.login with
      | none => exact .inl ⟨_, fun _ => rfl, reject_eq (by decide) root _⟩
      | some grantee =>
        by_cases hself : grantee.id = row.ownerId
        · refine .inl ⟨.cannotShareWithOwner req.login, fun _ => if_pos hself, ?_⟩
          exact (if_pos hself).trans (reject_eq (by decide) root _)
        · obtain ⟨edit, hprep, happly⟩ :=
            prepared_share hrow (p := req.permission) (by rw [(userByLogin_some hgrantee).1]; rfl)
          obtain ⟨hlabel, hpublic⟩ := row_normalize
            (if (db.load row).shares.any (fun share => share.granteeId = grantee.id) then
              (db.load row).setPermission grantee.id req.permission
            else (db.load row).appendShare grantee.id req.permission)
          rw [row_share] at hlabel hpublic
          exact .inr ⟨row, grantee, _, edit, haccess, rfl, hself, if_neg hself, hprep, hlabel, hpublic, happly,
            fun _ => if_neg hself⟩
    · refine .inl ⟨.configAccessDenied configId, fun _ => ?_, ?_⟩
      · rw [if_neg howner]
        rfl
      · rw [if_pos howner]
        exact reject_eq (by decide) root _

theorem userByLogin_eq {u : User} (h : db.users.get? u.id = some u) :
    db.userByLogin u.login = some u := by
  cases hfind : db.userByLogin u.login with
  | none =>
    have := List.find?_eq_none.mp hfind u (Dict.mem_values.mpr ⟨u.id, h⟩)
    exact absurd (decide_eq_true rfl) this
  | some v =>
    obtain ⟨hv, hlogin⟩ := userByLogin_some hfind
    have hid : v.id = u.id := db.constraints.login v.id u.id v u hv h hlogin
    rw [hid, h] at hv
    exact hv.symm

/-- The grant to the user with this login, found through the loaded relationships. -/
theorem find_by_login (hrow : db.configs.get? configId = some row) (login : String) :
    ((db.load row).shares.find? (fun share => share.grantee.map User.login = some login) = none ∧
      ∀ grantee, db.userByLogin login = some grantee → db.grants configId grantee.id = none) ∨
    ∃ s grantee, s ∈ db.sharesOf configId ∧ db.userByLogin login = some grantee ∧
      s.granteeId = grantee.id ∧
      (db.load row).shares.find? (fun share => share.grantee.map User.login = some login) =
        some (db.shareObject s) := by
  have hid := Database.id_of_config hrow
  cases hfind : (db.load row).shares.find? (fun share => share.grantee.map User.login = some login) with
  | none =>
    refine .inl ⟨rfl, fun grantee hgrantee => Database.grants_eq_none.mpr (fun s hs hg => ?_)⟩
    obtain ⟨huser, hlogin⟩ := userByLogin_some hgrantee
    have hloaded : (db.shareObject s).grantee.map User.login = some login := by
      show (db.users.get? s.granteeId).map User.login = some login
      rw [hg, huser, Option.map_some, hlogin]
    have := List.find?_eq_none.mp hfind _ (List.mem_map_of_mem (hid.symm ▸ hs))
    exact this (decide_eq_true hloaded)
  | some share =>
    obtain ⟨s, hs, rfl⟩ := List.mem_map.mp (List.mem_of_find?_eq_some hfind)
    have hloaded : (db.shareObject s).grantee.map User.login = some login := by
      have hp := List.find?_some hfind
      simp only [decide_eq_true_eq] at hp
      exact hp
    obtain ⟨grantee, huser, hlogin⟩ := Option.map_eq_some_iff.mp hloaded
    have hkey : grantee.id = s.granteeId := db.constraints.userId _ _ huser
    refine .inr ⟨s, grantee, hid ▸ hs, ?_, hkey.symm, rfl⟩
    rw [← hlogin]
    exact userByLogin_eq (by rw [hkey]; exact huser)

theorem prepareUnshare_cases (root : LogLevel) (db : Database) (user : User) (configId : ℤ)
    (login : String) :
    (∃ e, (∀ newId, db.abstract.perform newId (.unshare user configId login) = .error e) ∧
      prepareUnshare root db user configId login = .error e) ∨
    ∃ row grantee o s, AbstractStore.access user (db.abstractConfig row) = some .OWNER ∧
      db.userByLogin login = some grantee ∧ s.granteeId = grantee.id ∧
      prepareUnshare root db user configId login = .ok (o, .OWNER) ∧ Prepared db configId row o (.drop s) ∧
      o.row = { row with visibility := o.row.visibility } ∧
      (o.row.visibility = .PUBLIC ↔ row.visibility = .PUBLIC) ∧
      ∀ newId, db.abstract.perform newId (.unshare user configId login) =
        .ok (db.abstract.put configId (some ((db.abstractConfig row).revoke grantee.id))) := by
  unfold prepareUnshare AbstractStore.perform
  simp only [AbstractStore.managed]
  rw [show db.abstract.userByLogin login = db.userByLogin login from rfl]
  rcases getConfig_cases root db user configId with ⟨e, hvis, hget⟩ | ⟨row, access, hrow, haccess, hvis, hget⟩
  · simp only [hvis, hget]
    exact .inl ⟨e, fun _ => rfl, rfl⟩
  · simp only [hvis, hget, bind, Except.bind, pure, Except.pure]
    have hid := Database.id_of_config hrow
    by_cases howner : access = .OWNER
    · subst howner
      rcases find_by_login hrow login with ⟨hfind, hnone⟩ | ⟨s, grantee, hs, hgrantee, hg, hfind⟩
      · refine .inl ⟨.granteeNotFound login, fun _ => ?_, ?_⟩
        · rw [if_pos rfl]
          cases hgrantee : db.userByLogin login with
          | none => rfl
          | some grantee =>
            have hgrants : (db.abstractConfig row).grants grantee.id = none := by
              show db.grants row.id grantee.id = none
              rw [hid]
              exact hnone grantee hgrantee
            simp only [hgrants]
            rfl
        · rw [hfind]
          exact reject_eq (by decide) root _
      · obtain ⟨hlabel, hpublic⟩ := row_normalize ((db.load row).removeShare (db.shareObject s))
        refine .inr ⟨row, grantee, _, s, haccess, hgrantee, hg, by rw [hfind]; rfl,
          ⟨hrow, ?_, ⟨?_, ?_⟩, hs, .inl (labelled_normalize _)⟩, hlabel, hpublic, fun _ => ?_⟩
        · rw [stored_normalize]
          rfl
        · rw [shares_normalize, ← hid]
          rfl
        · rw [removed_normalize]
          rfl
        · have hgrants : ((db.abstractConfig row).grants grantee.id).isSome = true := by
            show (db.grants row.id grantee.id).isSome = true
            rw [hid]
            exact Database.grants_isSome.mpr ⟨s, hs, hg⟩
          rw [if_pos rfl, hgrantee]
          exact if_pos hgrants
    · refine .inl ⟨.configAccessDenied configId, fun _ => ?_, ?_⟩
      · rw [if_neg howner]
        rfl
      · rw [if_pos howner]
        exact reject_eq (by decide) root _

/-- What `update_config` assigns to the label. -/
def updatedVisibility (db : Database) (row : DeviceConfig) : Option ConfigVisibility → ConfigVisibility
  | none => row.visibility
  | some .PUBLIC => .PUBLIC
  | some _ => if (db.sharesOf row.id).isEmpty then .PRIVATE else .SHARED

theorem updatedVisibility_public {v : ConfigVisibility} :
    updatedVisibility db row (some v) = .PUBLIC ↔ v = .PUBLIC := by
  have hother : (if (db.sharesOf row.id).isEmpty then ConfigVisibility.PRIVATE else .SHARED) ≠ .PUBLIC := by
    split <;> decide
  cases v with
  | PUBLIC => exact iff_of_true rfl rfl
  | PRIVATE => exact iff_of_false hother (by decide)
  | SHARED => exact iff_of_false hother (by decide)

theorem assignVisibility_cases (root : LogLevel) (db : Database) (user : User) (row : DeviceConfig)
    (v : Option ConfigVisibility) :
    (v = some .PUBLIC ∧ user.role = .USER ∧
      assignVisibility root user (db.load row) v = .error (.publishNotAllowed user.login)) ∨
    (¬ (v = some .PUBLIC ∧ user.role = .USER) ∧ assignVisibility root user (db.load row) v =
      .ok ((db.load row).setVisibility (updatedVisibility db row v))) := by
  have hnormal : normalizeVisibility ((db.load row).setVisibility .PRIVATE) =
      (db.load row).setVisibility (if (db.sharesOf row.id).isEmpty then .PRIVATE else .SHARED) := by
    have hempty : (db.load row).shares.isEmpty = (db.sharesOf row.id).isEmpty := List.isEmpty_map
    show (db.load row).setVisibility (if (db.load row).shares.isEmpty then .PRIVATE else .SHARED) = _
    rw [hempty]
  cases v with
  | none => exact .inr ⟨fun h => (nomatch h.1), rfl⟩
  | some v =>
    cases v with
    | PRIVATE => exact .inr ⟨fun h => (nomatch h.1), congrArg Except.ok hnormal⟩
    | SHARED => exact .inr ⟨fun h => (nomatch h.1), congrArg Except.ok hnormal⟩
    | PUBLIC =>
      unfold assignVisibility
      by_cases hrole : user.role = .USER
      · refine .inl ⟨rfl, hrole, ?_⟩
        rw [if_neg (fun h => (canPublish_iff user).mp h hrole)]
        exact reject_eq (by decide) root _
      · exact .inr ⟨fun h => hrole h.2, if_pos ((canPublish_iff user).mpr hrole)⟩

/-- The object that `update_config` commits. -/
def updatedObject (db : Database) (row : DeviceConfig) (data : ConfigUpdate) : ConfigObject :=
  assignPayload (assignName ((db.load row).setVisibility (updatedVisibility db row data.visibility)) data.name)
    data.payload

theorem row_updatedObject (db : Database) (row : DeviceConfig) (data : ConfigUpdate) :
    (updatedObject db row data).row = { row with
      visibility := updatedVisibility db row data.visibility
      name := data.name.getD row.name
      payload := data.payload.getD row.payload } := by
  unfold updatedObject
  cases data.name <;> cases data.payload <;> rfl

theorem prepared_update (hrow : db.configs.get? configId = some row) (data : ConfigUpdate) :
    Prepared db configId row (updatedObject db row data) .keep where
  found := hrow
  stored := by
    unfold updatedObject
    cases data.name <;> cases data.payload <;> rfl
  edited := by
    obtain ⟨hshares, hremoved⟩ := load_edited hrow
    unfold updatedObject
    cases data.name <;> cases data.payload <;> exact ⟨hshares, hremoved⟩
  valid := trivial
  labelled := by
    have hshares : (updatedObject db row data).shares = (db.load row).shares := by
      unfold updatedObject
      cases data.name <;> cases data.payload <;> rfl
    have hempty : (db.load row).shares.isEmpty = (db.sharesOf row.id).isEmpty := List.isEmpty_map
    unfold Labelled
    rw [row_updatedObject, hshares, hempty]
    cases data.visibility with
    | none => exact .inr ⟨rfl, rfl⟩
    | some v =>
      cases v with
      | PRIVATE => exact .inl (.inr rfl)
      | SHARED => exact .inl (.inr rfl)
      | PUBLIC => exact .inl (.inl rfl)

/-- `update_config` up to its commit. -/
theorem prepareUpdate_cases (root : LogLevel) (db : Database) (user : User) (configId : ℤ)
    (data : ConfigUpdate) :
    (∃ e, (∀ newId, db.abstract.perform newId (.update user configId data) = .error e) ∧
      prepareUpdate root db user configId data = .error e) ∨
    ∃ row access, db.configs.get? configId = some row ∧
      AbstractStore.access user (db.abstractConfig row) = some access ∧
      (data.name.isSome ∨ data.visibility.isSome → access = .OWNER) ∧
      (data.payload.isSome → access ≠ .READ) ∧
      (data.visibility = some .PUBLIC → user.role ≠ .USER) ∧
      prepareUpdate root db user configId data = .ok (updatedObject db row data, access) ∧
      ∀ newId, db.abstract.perform newId (.update user configId data) = .ok
        (match data.visibility with
        | none => db.abstract
        | some v => db.abstract.put configId (some ((db.abstractConfig row).publish (v = .PUBLIC)))) := by
  unfold prepareUpdate AbstractStore.perform
  rcases getConfig_cases root db user configId with ⟨e, hvis, hget⟩ | ⟨row, access, hrow, haccess, hvis, hget⟩
  · simp only [hvis, hget]
    exact .inl ⟨e, fun _ => rfl, rfl⟩
  · simp only [hvis, hget, bind, Except.bind, Bool.or_eq_true]
    by_cases hmanage : (data.name.isSome ∨ data.visibility.isSome) ∧ access ≠ .OWNER
    · refine .inl ⟨.configAccessDenied configId, fun _ => if_pos hmanage, ?_⟩
      exact (if_pos hmanage).trans (reject_eq (by decide) root _)
    · have hread : access ∉ [Access.OWNER, Access.WRITE] ↔ access = .READ := by
        cases access <;> decide
      simp only [if_neg hmanage, hread]
      by_cases hpayload : data.payload.isSome ∧ access = .READ
      · refine .inl ⟨.configAccessDenied configId, fun _ => if_pos hpayload, ?_⟩
        exact (if_pos hpayload).trans (reject_eq (by decide) root _)
      · simp only [if_neg hpayload, AbstractStore.mayPublish]
        rcases assignVisibility_cases root db user row data.visibility with
          ⟨hv, hrole, hassign⟩ | ⟨hallowed, hassign⟩
        · simp only [hassign, if_pos (And.intro hv hrole)]
          exact .inl ⟨_, fun _ => rfl, rfl⟩
        · simp only [hassign, if_neg hallowed]
          refine .inr ⟨row, access, hrow, haccess, ?_, ?_, ?_, rfl, fun _ => ?_⟩
          · intro h
            by_contra hne
            exact hmanage ⟨h, hne⟩
          · intro h hr
            exact hpayload ⟨h, hr⟩
          · intro h hr
            exact hallowed ⟨h, hr⟩
          · cases data.visibility <;> rfl

theorem prepareDelete_cases (root : LogLevel) (db : Database) (user : User) (configId : ℤ) :
    (∃ e, (∀ newId, db.abstract.perform newId (.delete user configId) = .error e) ∧
      prepareDelete root db user configId = .error e) ∨
    ∃ row, db.configs.get? configId = some row ∧
      AbstractStore.access user (db.abstractConfig row) = some .OWNER ∧
      prepareDelete root db user configId = .ok (db.load row, .OWNER) ∧
      ∀ newId, db.abstract.perform newId (.delete user configId) = .ok (db.abstract.put configId none) := by
  unfold prepareDelete AbstractStore.perform
  simp only [AbstractStore.managed]
  rcases getConfig_cases root db user configId with ⟨e, hvis, hget⟩ | ⟨row, access, hrow, haccess, hvis, hget⟩
  · simp only [hvis, hget]
    exact .inl ⟨e, fun _ => rfl, rfl⟩
  · simp only [hvis, hget, bind, Except.bind, pure, Except.pure]
    by_cases howner : access = .OWNER
    · subst howner
      exact .inr ⟨row, hrow, haccess, rfl, fun _ => rfl⟩
    · refine .inl ⟨.configAccessDenied configId, fun _ => ?_, ?_⟩
      · rw [if_neg howner]
        rfl
      · rw [if_pos howner]
        exact reject_eq (by decide) root _

end Configs
end Tstlan
