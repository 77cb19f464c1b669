import Mathlib.Data.List.Dedup
import Tstlan.Configs.Prepare

/-! # The listing and the single read agree

`list_configs` decides access in SQL and then again through `effective_access`, `get_config` through
`effective_access` alone; both encode one rule. -/
namespace Tstlan
open Foundations
set_option autoImplicit false

namespace Configs

/-! ## The rows selected -/

theorem uniqueRows_nodup (seen : List ℤ) (rows : List DeviceConfig) :
    ((uniqueRows seen rows).map DeviceConfig.id).Nodup ∧ ∀ row ∈ uniqueRows seen rows, row.id ∉ seen := by
  induction rows generalizing seen with
  | nil => exact ⟨List.nodup_nil, fun _ h => nomatch h⟩
  | cons row rows ih =>
    rw [uniqueRows]
    split
    · exact ih seen
    · next hnew =>
      obtain ⟨hnodup, hseen⟩ := ih (row.id :: seen)
      constructor
      · rw [List.map_cons, List.nodup_cons]
        refine ⟨fun hmem => ?_, hnodup⟩
        obtain ⟨r, hr, hid⟩ := List.mem_map.mp hmem
        exact hseen r hr (hid ▸ List.mem_cons_self)
      · intro r hr
        rcases List.mem_cons.mp hr with rfl | hin
        · exact hnew
        · exact fun h => hseen r hin (List.mem_cons_of_mem _ h)

/-- Nothing is lost when rows with one key are one row. -/
theorem mem_uniqueRows {seen : List ℤ} {rows : List DeviceConfig}
    (hkey : ∀ a ∈ rows, ∀ b ∈ rows, a.id = b.id → a = b) {row : DeviceConfig} :
    row ∈ uniqueRows seen rows ↔ row ∈ rows ∧ row.id ∉ seen := by
  induction rows generalizing seen with
  | nil => exact iff_of_false (fun h => nomatch h) (fun h => nomatch h.1)
  | cons r rows ih =>
    have hkey' : ∀ a ∈ rows, ∀ b ∈ rows, a.id = b.id → a = b := fun a ha b hb =>
      hkey a (List.mem_cons_of_mem _ ha) b (List.mem_cons_of_mem _ hb)
    rw [uniqueRows]
    split
    · next hold =>
      rw [ih hkey', List.mem_cons]
      constructor
      · rintro ⟨hin, hseen⟩
        exact ⟨.inr hin, hseen⟩
      · rintro ⟨rfl | hin, hseen⟩
        · exact absurd hold hseen
        · exact ⟨hin, hseen⟩
    · next hnew =>
      rw [List.mem_cons, ih hkey', List.mem_cons, List.mem_cons, not_or]
      constructor
      · rintro (rfl | ⟨hin, -, hseen⟩)
        · exact ⟨.inl rfl, hnew⟩
        · exact ⟨.inr hin, hseen⟩
      · rintro ⟨rfl | hin, hseen⟩
        · exact .inl rfl
        · by_cases hid : row.id = r.id
          · exact .inl (hkey row (List.mem_cons_of_mem _ hin) r List.mem_cons_self hid)
          · exact .inr ⟨hin, hid, hseen⟩

variable {db : Database} {user : User} {row : DeviceConfig}

theorem mem_listed_outerJoin {r : DeviceConfig} :
    (∃ share, (r, share) ∈ outerJoin db user row ∧ listed user (r, share)) ↔
      r = row ∧ (row.ownerId = user.id ∨ row.visibility = .PUBLIC ∨ (db.grants row.id user.id).isSome) := by
  have hmatching : ∀ s, s ∈ db.shares.values.filter (fun s => s.configId = row.id ∧ s.granteeId = user.id) ↔
      s ∈ db.sharesOf row.id ∧ s.granteeId = user.id := by
    intro s
    rw [Database.sharesOf, List.mem_filter, List.mem_filter, decide_eq_true_eq, decide_eq_true_eq]
    tauto
  unfold outerJoin listed
  simp only [decide_eq_true_eq, Database.grants_isSome]
  split
  · next hempty =>
    have hnone : ¬ ∃ s ∈ db.sharesOf row.id, s.granteeId = user.id := by
      rintro ⟨s, hs⟩
      exact List.ne_nil_of_mem ((hmatching s).mpr hs) (List.isEmpty_iff.mp hempty)
    constructor
    · rintro ⟨share, hmem, hlisted⟩
      cases List.mem_singleton.mp hmem
      refine ⟨rfl, ?_⟩
      rcases hlisted with h | h | h
      · exact .inl h
      · exact .inr (.inl h)
      · cases h
    · rintro ⟨rfl, hlisted⟩
      refine ⟨none, List.mem_singleton_self _, ?_⟩
      rcases hlisted with h | h | h
      · exact .inl h
      · exact .inr (.inl h)
      · exact absurd h hnone
  · next hnonempty =>
    obtain ⟨s, hs⟩ := List.exists_mem_of_ne_nil _ (fun h => hnonempty (List.isEmpty_iff.mpr h))
    constructor
    · rintro ⟨share, hmem, -⟩
      obtain ⟨s', -, heq⟩ := List.mem_map.mp hmem
      cases heq
      exact ⟨rfl, .inr (.inr ⟨s, (hmatching s).mp hs⟩)⟩
    · rintro ⟨rfl, -⟩
      exact ⟨some s, List.mem_map_of_mem hs, .inr (.inr rfl)⟩

theorem access_isSome (c : AbstractConfig) (user : User) :
    (AbstractStore.access user c).isSome ↔
      user.role = .ADMIN ∨ c.owner = user.id ∨ c.published ∨ (c.grants user.id).isSome := by
  unfold AbstractStore.access
  by_cases howner : user.role = .ADMIN ∨ c.owner = user.id
  · rw [if_pos howner]
    exact iff_of_true rfl (howner.elim .inl (fun h => .inr (.inl h)))
  · rw [if_neg howner]
    cases hg : c.grants user.id with
    | none => cases hp : c.published <;> simp_all
    | some p => cases p <;> simp

theorem mem_selectConfigs :
    row ∈ selectConfigs db user ↔
      db.configs.get? row.id = some row ∧ (AbstractStore.access user (db.abstractConfig row)).isSome := by
  have hvalues : row ∈ db.configs.values ↔ db.configs.get? row.id = some row := by
    rw [Dict.mem_values]
    constructor
    · rintro ⟨k, hk⟩
      rwa [Database.id_of_config hk]
    · exact fun h => ⟨row.id, h⟩
  rw [access_isSome]
  unfold selectConfigs
  split
  · next hrole =>
    rw [List.mem_dedup, List.mem_map]
    constructor
    · rintro ⟨⟨r, share⟩, hmem, rfl⟩
      obtain ⟨hjoin, hlisted⟩ := List.mem_filter.mp hmem
      obtain ⟨row, hrow, hin⟩ := List.mem_flatMap.mp hjoin
      obtain ⟨rfl, haccess⟩ := mem_listed_outerJoin.mp ⟨share, hin, hlisted⟩
      refine ⟨?_, .inr ?_⟩
      · obtain ⟨k, hk⟩ := Dict.mem_values.mp hrow
        rwa [Database.id_of_config hk]
      · rcases haccess with h | h | h
        · exact .inl h
        · exact .inr (.inl (decide_eq_true h))
        · exact .inr (.inr h)
    · rintro ⟨hrow, hadmin | haccess⟩
      · exact absurd hadmin hrole
      · have hlisted : row = row ∧
            (row.ownerId = user.id ∨ row.visibility = .PUBLIC ∨ (db.grants row.id user.id).isSome) := by
          refine ⟨rfl, ?_⟩
          rcases haccess with h | h | h
          · exact .inl h
          · exact .inr (.inl (of_decide_eq_true h))
          · exact .inr (.inr h)
        obtain ⟨share, hin, hwhere⟩ := mem_listed_outerJoin.mpr hlisted
        exact ⟨(row, share), List.mem_filter.mpr ⟨List.mem_flatMap.mpr ⟨row, hvalues.mpr hrow, hin⟩, hwhere⟩, rfl⟩
  · next hadmin =>
    rw [hvalues]
    exact ⟨fun h => ⟨h, .inl (not_not.mp hadmin)⟩, fun h => h.1⟩

/-! ## The listing -/

theorem getConfig_ok {root : LogLevel} {configId : ℤ} {config : ConfigObject} {access : Access} :
    getConfig root db user configId = .ok (config, access) ↔
      ∃ row, db.configs.get? configId = some row ∧ config = db.load row ∧
        AbstractStore.access user (db.abstractConfig row) = some access := by
  rcases getConfig_cases root db user configId with ⟨e, hvis, hget⟩ | ⟨row, a, hrow, haccess, -, hget⟩
  · rw [hget]
    refine iff_of_false (fun h => nomatch h) ?_
    rintro ⟨row, hrow, -, haccess⟩
    have hconfig : db.abstract.configs configId = some (db.abstractConfig row) := by
      show (db.configs.get? configId).map _ = _
      rw [hrow]
      rfl
    unfold AbstractStore.visible at hvis
    simp only [hconfig, haccess] at hvis
    cases hvis
  · rw [hget]
    constructor
    · intro h
      cases h
      exact ⟨row, hrow, rfl, haccess⟩
    · rintro ⟨row', hrow', rfl, haccess'⟩
      rw [hrow] at hrow'
      cases hrow'
      rw [haccess] at haccess'
      cases haccess'
      rfl

theorem ids_sublist (db : Database) (user : User) (rows : List DeviceConfig) :
    (((rows.map db.load).filterMap (fun config =>
        (effectiveAccess user config).map (fun access => (config, access)))).map (fun x => x.1.row.id)).Sublist
      (rows.map DeviceConfig.id) := by
  induction rows with
  | nil => exact .slnil
  | cons row rows ih =>
    rw [List.map_cons, List.filterMap_cons, List.map_cons]
    cases effectiveAccess user (db.load row) with
    | none => exact ih.cons _
    | some access => exact ih.cons_cons _

/-- The rows of the listing in its order. -/
def listedRows (db : Database) (user : User) : List DeviceConfig :=
  uniqueRows [] ((selectConfigs db user).mergeSort (fun a b => b.updatedAt ≤ a.updatedAt))

theorem listConfigs_eq (root : LogLevel) (db : Database) (user : User) :
    listConfigs root db user = .ok (((listedRows db user).map db.load).filterMap
      (fun config => (effectiveAccess user config).map (fun access => (config, access)))) := by
  have hlog : ((logEvent root .DEBUG ["login", "user_id", "role", "count"]).mapError ConfigError.python) = .ok () := by
    rw [logEvent, logCall_of_clean (by decide)]
    rfl
  unfold listConfigs listedRows
  rw [hlog]
  rfl

theorem mem_listedRows {row : DeviceConfig} : row ∈ listedRows db user ↔
    db.configs.get? row.id = some row ∧ (AbstractStore.access user (db.abstractConfig row)).isSome := by
  have hrows : ∀ row, row ∈ (selectConfigs db user).mergeSort (fun a b => b.updatedAt ≤ a.updatedAt) ↔
      row ∈ selectConfigs db user := fun row => List.mem_mergeSort
  have hkey : ∀ a ∈ (selectConfigs db user).mergeSort (fun a b => b.updatedAt ≤ a.updatedAt),
      ∀ b ∈ (selectConfigs db user).mergeSort (fun a b => b.updatedAt ≤ a.updatedAt), a.id = b.id → a = b := by
    intro a ha b hb hid
    have ha' := (mem_selectConfigs.mp ((hrows a).mp ha)).1
    have hb' := (mem_selectConfigs.mp ((hrows b).mp hb)).1
    rw [hid, hb'] at ha'
    exact (Option.some.inj ha').symm
  rw [listedRows, mem_uniqueRows hkey, hrows, mem_selectConfigs]
  exact ⟨fun h => h.1, fun h => ⟨h, List.not_mem_nil⟩⟩

/-- **The listing and the single read agree.** The listing succeeds, holds no config twice, and holds a
config with an access exactly when reading the config by its id gives it with that access. -/
theorem listConfigs_agrees (root : LogLevel) (db : Database) (user : User) :
    ∃ listing, listConfigs root db user = .ok listing ∧
      (listing.map (fun x => x.1.row.id)).Nodup ∧
      ∀ configId config access, ((config, access) ∈ listing ∧ config.row.id = configId) ↔
        getConfig root db user configId = .ok (config, access) := by
  refine ⟨_, listConfigs_eq root db user, ?_, ?_⟩
  · exact (ids_sublist db user _).nodup (uniqueRows_nodup [] _).1
  · intro configId config access
    rw [getConfig_ok, List.mem_filterMap]
    constructor
    · rintro ⟨⟨o, ho, heq⟩, rfl⟩
      obtain ⟨row, hrow, rfl⟩ := List.mem_map.mp ho
      obtain ⟨a, ha, heq⟩ := Option.map_eq_some_iff.mp heq
      cases heq
      rw [effectiveAccess_load] at ha
      exact ⟨row, (mem_listedRows.mp hrow).1, rfl, ha⟩
    · rintro ⟨row, hrow, rfl, haccess⟩
      have hid := Database.id_of_config hrow
      refine ⟨⟨db.load row, List.mem_map_of_mem (mem_listedRows.mpr ⟨by rw [hid]; exact hrow, by rw [haccess]; rfl⟩), ?_⟩, hid⟩
      rw [effectiveAccess_load, haccess]
      rfl

end Configs
end Tstlan
