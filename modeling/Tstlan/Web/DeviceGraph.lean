import Tstlan.Configs.Listing
import Tstlan.Configs.Routes
import Tstlan.Configs.Sharing
import Tstlan.Foundations.Loops
import Tstlan.Foundations.Sorting

/-! # The config that a device page takes (`lib/device-graph.ts`)

The page prefers the configs of the user by their access. The backend gives the access `owner` to the owner and to
every admin, so an admin's own configs are not told from the others. -/
namespace Tstlan.Web
open Foundations Configs
set_option autoImplicit false

/-- `localeCompare` of two time stamps. -/
def compareTimes (a b : Time) : ℤ := if a < b then -1 else if b < a then 1 else 0

def byPreference (a b : ConfigSummary) : ℤ :=
  let own := (if b.access = .OWNER then 1 else 0) - (if a.access = .OWNER then 1 else 0)
  if own ≠ 0 then own else compareTimes b.updatedAt a.updatedAt

/-- The summaries for the device, `matches`. -/
def deviceMatches (summaries : List ConfigSummary) (deviceId : String) : List ConfigSummary :=
  summaries.filter (fun summary => summary.deviceType = deviceId)

def pickDeviceConfig (summaries : List ConfigSummary) (deviceId : String) : Option ConfigSummary :=
  let found := deviceMatches summaries deviceId
  if found.length = 0 then none else (found.mergeSort (fun a b => byPreference a b ≤ 0)).head?

/-! ## The choice -/

/-- A config of the user, by its row. -/
def OwnConfig (db : Database) (user : User) (summary : ConfigSummary) : Prop :=
  ∃ row, db.configs.get? summary.id = some row ∧ row.ownerId = user.id

/-- The latest of the user's own configs for the device, else the latest of all; none only if there is none. -/
structure Preferred (db : Database) (user : User) (found : List ConfigSummary) (picked : Option ConfigSummary) :
    Prop where
  empty : picked = none → found = []
  mem : ∀ summary, picked = some summary → summary ∈ found
  own : ∀ summary, picked = some summary → (∃ other ∈ found, OwnConfig db user other) → OwnConfig db user summary
  latest : ∀ summary, picked = some summary → ∀ other ∈ found,
    (OwnConfig db user summary → OwnConfig db user other) → other.updatedAt ≤ summary.updatedAt

/-- The order of preference: by the access, then by the time. -/
theorem byPreference_le (a b : ConfigSummary) :
    byPreference a b ≤ 0 ↔
      (b.access = .OWNER → a.access = .OWNER) ∧
        ((a.access = .OWNER → b.access = .OWNER) → b.updatedAt ≤ a.updatedAt) := by
  have htime : compareTimes b.updatedAt a.updatedAt ≤ 0 ↔ b.updatedAt ≤ a.updatedAt := by
    rw [compareTimes]
    split
    · next hlt => exact iff_of_true (by decide) hlt.le
    · split
      · next hlt => exact iff_of_false (by decide) hlt.not_ge
      · next hlt => exact iff_of_true (by decide) (not_lt.mp hlt)
  rw [byPreference]
  by_cases ha : a.access = .OWNER <;> by_cases hb : b.access = .OWNER <;> simp [ha, hb, htime]

theorem preference_trans (a b c : ConfigSummary) (hab : decide (byPreference a b ≤ 0) = true)
    (hbc : decide (byPreference b c ≤ 0) = true) : decide (byPreference a c ≤ 0) = true := by
  rw [decide_eq_true_eq, byPreference_le] at *
  refine ⟨fun hc => hab.1 (hbc.1 hc), fun h => ?_⟩
  have hb := hab.2 (fun ha => hbc.1 (h ha))
  exact (hbc.2 (fun hb => h (hab.1 hb))).trans hb

theorem preference_total (a b : ConfigSummary) :
    (decide (byPreference a b ≤ 0) || decide (byPreference b a ≤ 0)) = true := by
  simp only [Bool.or_eq_true, decide_eq_true_eq, byPreference_le]
  by_cases ha : a.access = .OWNER <;> by_cases hb : b.access = .OWNER <;> simp [ha, hb, le_total]

theorem pickDeviceConfig_eq_none {summaries : List ConfigSummary} {deviceId : String}
    (h : pickDeviceConfig summaries deviceId = none) : deviceMatches summaries deviceId = [] := by
  unfold pickDeviceConfig at h
  by_contra hne
  have hlength : ¬ (deviceMatches summaries deviceId).length = 0 := fun h => hne (List.length_eq_zero_iff.mp h)
  have hempty := List.head?_eq_none_iff.mp ((if_neg hlength).symm.trans h)
  exact hne (List.length_eq_zero_iff.mp (by rw [← List.length_mergeSort, hempty]; rfl))

theorem pickDeviceConfig_best {summaries : List ConfigSummary} {deviceId : String} {picked : ConfigSummary}
    (h : pickDeviceConfig summaries deviceId = some picked) :
    picked ∈ deviceMatches summaries deviceId ∧
      ∀ other ∈ deviceMatches summaries deviceId, byPreference picked other ≤ 0 := by
  unfold pickDeviceConfig at h
  simp only at h
  split at h
  · cases h
  · obtain ⟨hmem, hbest⟩ := head?_mergeSort preference_trans preference_total h
    exact ⟨hmem, fun other hother => of_decide_eq_true (hbest other hother)⟩

/-- When the access tells nothing, the first of the listing is taken. -/
theorem pickDeviceConfig_of_sorted {summaries : List ConfigSummary} {deviceId : String}
    (haccess : ∀ summary ∈ summaries, summary.access = .OWNER)
    (hsorted : summaries.Pairwise (fun a b => b.updatedAt ≤ a.updatedAt)) :
    pickDeviceConfig summaries deviceId = (deviceMatches summaries deviceId).head? := by
  have hmatches : (deviceMatches summaries deviceId).mergeSort (fun a b => byPreference a b ≤ 0) =
      deviceMatches summaries deviceId := by
    refine List.mergeSort_of_pairwise ((hsorted.filter _).imp_of_mem (fun ha hb htime => ?_))
    rw [decide_eq_true_eq, byPreference_le]
    exact ⟨fun _ => haccess _ (List.mem_of_mem_filter ha), fun _ => htime⟩
  unfold pickDeviceConfig
  simp only [hmatches]
  split
  · next hempty => rw [List.length_eq_zero_iff.mp hempty, List.head?_nil]
  · rfl

/-! ## The listing of the backend -/

variable {db : Database} {user : User} {row : DeviceConfig}

/-- The entry of a config that is listed. -/
def summaryOf (db : Database) (user : User) (row : DeviceConfig) : ConfigSummary :=
  ⟨row.id, row.name, row.deviceType, row.visibility, ((db.users.get? row.ownerId).map User.login).getD "",
    (effectiveAccess user (db.load row)).getD .READ, row.createdAt, row.updatedAt⟩

theorem listEndpoint_run (root : LogLevel) (db : Database) (user : User) :
    (ConfigRoutes.listEndpoint root user).run db =
      .ok ((listedRows db user).map (summaryOf db user)) db := by
  have haccess : ∀ row ∈ listedRows db user, ∃ access, effectiveAccess user (db.load row) = some access := by
    intro row hrow
    rw [effectiveAccess_load]
    exact Option.isSome_iff_exists.mp (mem_listedRows.mp hrow).2
  have hlisted : ((listedRows db user).map db.load).filterMap
      (fun config => (effectiveAccess user config).map (fun access => (config, access))) =
        (listedRows db user).map
          (fun row => (db.load row, (effectiveAccess user (db.load row)).getD .READ)) := by
    rw [List.filterMap_map, ← List.filterMap_eq_map]
    refine List.filterMap_congr (fun row hrow => ?_)
    obtain ⟨access, ha⟩ := haccess row hrow
    simp only [Function.comp_apply, ha, Option.map_some, Option.getD_some]
  have hsummaries : ((listedRows db user).map
      (fun row => (db.load row, (effectiveAccess user (db.load row)).getD .READ))).mapM
        (fun c => ConfigSummary.fromConfig c.1 c.2) = .ok ((listedRows db user).map (summaryOf db user)) := by
    rw [List.mapM_map]
    refine mapM_of_forall (fun row hrow => ?_)
    obtain ⟨owner, howner⟩ := Option.isSome_iff_exists.mp
      (db.constraints.owner row.id row (mem_listedRows.mp hrow).1)
    have hlogin : loginOf (db.load row).owner = .ok owner.login := by
      show loginOf (db.users.get? row.ownerId) = _
      rw [howner]
      rfl
    show ConfigSummary.fromConfig (db.load row) _ = _
    rw [ConfigSummary.fromConfig, hlogin, summaryOf, howner]
    rfl
  refine (run_bind_ok (run_read_ok ((listConfigs_eq root db user).trans (congrArg _ hlisted)))).trans ?_
  rw [hsummaries]
  rfl

theorem uniqueRows_sublist (seen : List ℤ) (rows : List DeviceConfig) :
    (uniqueRows seen rows).Sublist rows := by
  induction rows generalizing seen with
  | nil => exact .slnil
  | cons row rows ih =>
    rw [uniqueRows]
    split
    · exact (ih seen).cons row
    · exact (ih _).cons_cons row

theorem listedRows_sorted (db : Database) (user : User) :
    (listedRows db user).Pairwise (fun a b => b.updatedAt ≤ a.updatedAt) := by
  refine List.Pairwise.sublist (uniqueRows_sublist [] _) ?_
  -- descending order is the order of the dual
  exact pairwise_mergeSort_key (fun row : DeviceConfig => OrderDual.toDual row.updatedAt) (selectConfigs db user)

theorem ownConfig_summaryOf (hrow : row ∈ listedRows db user) :
    OwnConfig db user (summaryOf db user row) ↔ row.ownerId = user.id := by
  have hget : db.configs.get? (summaryOf db user row).id = some row := (mem_listedRows.mp hrow).1
  constructor
  · rintro ⟨row', hrow', howner⟩
    rw [hget] at hrow'
    rwa [Option.some.inj hrow']
  · exact fun howner => ⟨row, hget, howner⟩

/-- Only the owner and an admin have the access of an owner. -/
theorem access_summaryOf (hrow : row ∈ listedRows db user) :
    (summaryOf db user row).access = .OWNER ↔ user.role = .ADMIN ∨ row.ownerId = user.id := by
  obtain ⟨access, haccess⟩ := Option.isSome_iff_exists.mp (mem_listedRows.mp hrow).2
  have hsummary : (summaryOf db user row).access = access := by
    show (effectiveAccess user (db.load row)).getD .READ = access
    rw [effectiveAccess_load, haccess, Option.getD_some]
  have howner : AbstractStore.access user (db.abstractConfig row) = some .OWNER ↔
      user.role = .ADMIN ∨ row.ownerId = user.id := AbstractStore.access_owner
  rw [haccess, Option.some.injEq] at howner
  rw [hsummary, howner]

/-! ## Own configs first -/

/-- For a user who is no admin the access of an owner marks the own configs. -/
theorem preferred_of_user (hrole : user.role ≠ .ADMIN) {summaries : List ConfigSummary} (deviceId : String)
    (hsummaries : summaries = (listedRows db user).map (summaryOf db user)) :
    Preferred db user (deviceMatches summaries deviceId) (pickDeviceConfig summaries deviceId) := by
  have hown : ∀ summary ∈ deviceMatches summaries deviceId,
      summary.access = .OWNER ↔ OwnConfig db user summary := by
    intro summary hmem
    rw [hsummaries] at hmem
    obtain ⟨row, hrow, rfl⟩ := List.mem_map.mp (List.mem_of_mem_filter hmem)
    rw [access_summaryOf hrow, ownConfig_summaryOf hrow]
    exact or_iff_right hrole
  refine ⟨pickDeviceConfig_eq_none, fun picked h => (pickDeviceConfig_best h).1, fun picked h => ?_,
    fun picked h other hother hsame => ?_⟩
  · obtain ⟨hmem, hbest⟩ := pickDeviceConfig_best h
    rintro ⟨other, hother, hotherown⟩
    have hpref := (byPreference_le picked other).mp (hbest other hother)
    exact (hown picked hmem).mp (hpref.1 ((hown other hother).mpr hotherown))
  · obtain ⟨hmem, hbest⟩ := pickDeviceConfig_best h
    refine ((byPreference_le picked other).mp (hbest other hother)).2 (fun haccess => ?_)
    exact (hown other hother).mpr (hsame ((hown picked hmem).mp haccess))

theorem preferred_iff_of_admin (hrole : user.role = .ADMIN) {summaries : List ConfigSummary} (deviceId : String)
    (hsummaries : summaries = (listedRows db user).map (summaryOf db user)) :
    Preferred db user (deviceMatches summaries deviceId) (pickDeviceConfig summaries deviceId) ↔
      ∀ first, (deviceMatches summaries deviceId).head? = some first →
        (∃ other ∈ deviceMatches summaries deviceId, OwnConfig db user other) → OwnConfig db user first := by
  have hsorted : summaries.Pairwise (fun a b => b.updatedAt ≤ a.updatedAt) := by
    rw [hsummaries]
    exact List.pairwise_map.mpr (listedRows_sorted db user)
  have haccess : ∀ summary ∈ summaries, summary.access = .OWNER := by
    intro summary hmem
    rw [hsummaries] at hmem
    obtain ⟨row, hrow, rfl⟩ := List.mem_map.mp hmem
    exact (access_summaryOf hrow).mpr (.inl hrole)
  rw [pickDeviceConfig_of_sorted haccess hsorted]
  refine ⟨fun h => h.own, fun h => ⟨List.head?_eq_none_iff.mp, fun _ hfirst => ?_, h, fun first hfirst other hother _ => ?_⟩⟩
  · exact List.mem_of_head? hfirst
  · obtain ⟨rest, hmatches⟩ := List.head?_eq_some_iff.mp hfirst
    have hmsorted : (deviceMatches summaries deviceId).Pairwise (fun a b => b.updatedAt ≤ a.updatedAt) :=
      hsorted.filter _
    rw [hmatches] at hother hmsorted
    rcases List.mem_cons.mp hother with rfl | hrest
    · exact le_refl _
    · exact (List.pairwise_cons.mp hmsorted).1 other hrest

/-- **The page takes the config that is preferred, out of what the backend lists for the user, exactly if the user is
no admin, or has no config for the device, or the first listed config for the device is the user's.** -/
theorem preferred_iff (root : LogLevel) (db : Database) (user : User) (deviceId : String) :
    ∃ summaries, (ConfigRoutes.listEndpoint root user).run db = .ok summaries db ∧
      (Preferred db user (deviceMatches summaries deviceId) (pickDeviceConfig summaries deviceId) ↔
        (user.role = .ADMIN → ∀ first, (deviceMatches summaries deviceId).head? = some first →
          (∃ other ∈ deviceMatches summaries deviceId, OwnConfig db user other) → OwnConfig db user first)) := by
  refine ⟨_, listEndpoint_run root db user, ?_⟩
  by_cases hrole : user.role = .ADMIN
  · rw [preferred_iff_of_admin hrole deviceId rfl]
    exact ⟨fun h _ => h, fun h => h hrole⟩
  · exact iff_of_true (preferred_of_user hrole deviceId rfl) (fun h => absurd h hrole)

/-! ## An admin's page -/

def meterAdmin : User := ⟨1, "ann", "", .ADMIN, true⟩

def meterDev : User := ⟨2, "bob", "", .DEV, true⟩

def noMeters : Database :=
  ⟨⟨Dict.ofList [(1, meterAdmin), (2, meterDev)], Dict.empty, Dict.empty, Dict.empty⟩, by decide⟩

/-- A user creates a config for the multimeter. -/
def withMeter (db : Database) (user : User) (now : Time) : Database :=
  final (((ConfigCall.create user ⟨"meter", "multimeter", {}, .PRIVATE⟩).run .INFO ⟨now, IdSource.largest⟩).run db)

def meters : Database := withMeter (withMeter noMeters meterAdmin 1) meterDev 2

theorem withMeter_reachable {db : Database} (h : db.Reachable .INFO) (user : User) (now : Time) :
    (withMeter db user now).Reachable .INFO := by
  obtain ⟨start, events, hinit, hrun⟩ := h
  exact ⟨start, _, hinit, hrun.snoc (.call _ _)⟩

theorem meters_reachable : meters.Reachable .INFO :=
  withMeter_reachable (withMeter_reachable ⟨noMeters, [], ⟨rfl, rfl⟩, .nil _⟩ _ _) _ _

theorem listedRows_meters : listedRows meters meterAdmin =
    [⟨2, 2, "meter", "multimeter", {}, .PRIVATE, 2, 2⟩, ⟨1, 1, "meter", "multimeter", {}, .PRIVATE, 1, 1⟩] := by
  have hselected : selectConfigs meters meterAdmin =
      [⟨1, 1, "meter", "multimeter", {}, .PRIVATE, 1, 1⟩, ⟨2, 2, "meter", "multimeter", {}, .PRIVATE, 2, 2⟩] := rfl
  rw [listedRows, hselected]
  simp [List.mergeSort, uniqueRows]

/-- The admin has a config for the device and gets the later one of somebody else. -/
theorem meters_not_preferred :
    meters.Reachable .INFO ∧ ∃ summaries, (ConfigRoutes.listEndpoint .INFO meterAdmin).run meters = .ok summaries meters ∧
      ¬ Preferred meters meterAdmin (deviceMatches summaries "multimeter")
        (pickDeviceConfig summaries "multimeter") := by
  refine ⟨meters_reachable, _, listEndpoint_run .INFO meters meterAdmin, fun h => ?_⟩
  have hfirst := (preferred_iff_of_admin rfl "multimeter" rfl).mp h
  rw [listedRows_meters] at hfirst
  obtain ⟨row, hrow, howner⟩ := hfirst _ rfl ⟨_, .tail _ (.head _), _, rfl, rfl⟩
  have hbob : some row = some ⟨2, 2, "meter", "multimeter", {}, .PRIVATE, 2, 2⟩ := hrow.symm
  rw [Option.some.inj hbob] at howner
  revert howner
  decide

end Tstlan.Web
