import Tstlan.Configs.Listing
import Tstlan.Configs.Routes
import Tstlan.Configs.Sharing

/-! # Grants to others are not observed

What a user who is not an admin gets from the listing and from a single read is a function of the part of
the database that `AgreeFor` names: grants to other users on configs of other users are not in it. The label
depends on those grants; a user who sees the config without owning it sees it public, or holds a grant, and
in both cases the label is determined. -/
namespace Tstlan
open Foundations
set_option autoImplicit false

/-- The row, of whose label only remains whether it is public. -/
def DeviceConfig.unlabelled (row : DeviceConfig) : DeviceConfig :=
  { row with visibility := if row.visibility = .PUBLIC then .PUBLIC else .PRIVATE }

namespace Database

/-- A grant to the user or on a config of the user. -/
def concerns (db : Database) (user : User) (s : ConfigShare) : Bool :=
  s.granteeId = user.id || (db.configs.get? s.configId).any (fun row => row.ownerId = user.id)

/-- The databases differ at most in grants to other users on configs of other users, and in the labels that
follow from them. -/
structure AgreeFor (user : User) (db db' : Database) : Prop where
  users : db'.users = db.users
  configs : db'.configs.map DeviceConfig.unlabelled = db.configs.map DeviceConfig.unlabelled
  shares : db'.shares.filter (fun _ s => db'.concerns user s) = db.shares.filter (fun _ s => db.concerns user s)

variable {user : User} {db db' : Database} {row row' : DeviceConfig} {configId : ℤ}

theorem public_unlabelled (row : DeviceConfig) : row.unlabelled.visibility = .PUBLIC ↔ row.visibility = .PUBLIC := by
  show (if row.visibility = .PUBLIC then ConfigVisibility.PUBLIC else .PRIVATE) = .PUBLIC ↔ _
  split <;> simp_all

theorem owner_of_unlabelled (h : row'.unlabelled = row.unlabelled) : row'.ownerId = row.ownerId := by
  have howner : row'.unlabelled.ownerId = row.unlabelled.ownerId := by rw [h]
  exact howner

theorem id_of_unlabelled (h : row'.unlabelled = row.unlabelled) : row'.id = row.id := by
  have hid : row'.unlabelled.id = row.unlabelled.id := by rw [h]
  exact hid

theorem public_of_unlabelled (h : row'.unlabelled = row.unlabelled) :
    row'.visibility = .PUBLIC ↔ row.visibility = .PUBLIC := by
  rw [← public_unlabelled row', h, public_unlabelled]

/-- What is left out is the label. -/
theorem eq_of_unlabelled (h : row'.unlabelled = row.unlabelled) (hlabel : row'.visibility = row.visibility) :
    row' = row := by
  cases row
  cases row'
  simp only [DeviceConfig.unlabelled, DeviceConfig.mk.injEq] at h hlabel ⊢
  tauto

namespace AgreeFor

theorem get? (h : AgreeFor user db db') (configId : ℤ) :
    (db'.configs.get? configId).map DeviceConfig.unlabelled = (db.configs.get? configId).map DeviceConfig.unlabelled := by
  rw [← Dict.get?_map, ← Dict.get?_map, h.configs]

theorem find (h : AgreeFor user db db') (hrow : db.configs.get? configId = some row) :
    ∃ row', db'.configs.get? configId = some row' ∧ row'.unlabelled = row.unlabelled := by
  have hsame := h.get? configId
  rw [hrow, Option.map_some, Option.map_eq_some_iff] at hsame
  exact hsame

theorem symm (h : AgreeFor user db db') : AgreeFor user db' db := ⟨h.users.symm, h.configs.symm, h.shares.symm⟩

theorem mem_shares (h : AgreeFor user db db') {k : ℤ} {s : ConfigShare} (hs : db.shares.get? k = some s)
    (hconcerns : db.concerns user s = true) : db'.shares.get? k = some s := by
  have hfiltered : (db'.shares.filter (fun _ s => db'.concerns user s)).get? k = some s := by
    rw [h.shares, Dict.get?_filter, hs]
    exact Option.filter_eq_some_iff.mpr ⟨rfl, hconcerns⟩
  rw [Dict.get?_filter, Option.filter_eq_some_iff] at hfiltered
  exact hfiltered.1

theorem held (h : AgreeFor user db db') {p : SharePermission} (hp : db.grants configId user.id = some p) :
    db'.grants configId user.id = some p := by
  obtain ⟨s, hs, hgrantee, hperm⟩ := grants_eq_some.mp hp
  obtain ⟨hs, hconfig⟩ := mem_sharesOf.mp hs
  have hconcerns : db.concerns user s = true := by
    rw [concerns, hgrantee, decide_eq_true rfl, Bool.true_or]
  exact grants_eq_some.mpr ⟨s, mem_sharesOf.mpr ⟨h.mem_shares hs hconcerns, hconfig⟩, hgrantee, hperm⟩

theorem grants (h : AgreeFor user db db') (configId : ℤ) :
    db'.grants configId user.id = db.grants configId user.id := by
  cases hp : db.grants configId user.id with
  | some p => exact h.held hp
  | none =>
    cases hp' : db'.grants configId user.id with
    | none => rfl
    | some p =>
      rw [h.symm.held hp'] at hp
      cases hp

theorem access (h : AgreeFor user db db') (hsame : row'.unlabelled = row.unlabelled) :
    AbstractStore.access user (db'.abstractConfig row') = AbstractStore.access user (db.abstractConfig row) := by
  unfold AbstractStore.access abstractConfig
  simp only [owner_of_unlabelled hsame, id_of_unlabelled hsame, public_of_unlabelled hsame, h.grants]

theorem sharesOf (h : AgreeFor user db db') (hrow : db.configs.get? configId = some row)
    (howner : row.ownerId = user.id) : db'.sharesOf configId = db.sharesOf configId := by
  have hown : ∀ {d : Database} {r : DeviceConfig}, d.configs.get? configId = some r → r.ownerId = user.id →
      d.sharesOf configId =
        (d.shares.filter (fun _ s => d.concerns user s)).values.filter (fun s => s.configId = configId) := by
    intro d r hr hu
    show d.shares.values.filter _ = ((d.shares.entries.filter _).map Prod.snd).filter _
    rw [List.filter_map, List.filter_filter, Dict.values, List.filter_map]
    refine congrArg _ (List.filter_congr (fun e _ => ?_))
    by_cases hc : e.2.configId = configId
    · have : d.concerns user e.2 = true := by
        rw [concerns, hc, hr, Option.any_some, decide_eq_true hu, Bool.or_true]
      simp [hc, this]
    · simp [hc]
  obtain ⟨row', hrow', hsame⟩ := h.find hrow
  have howner' : row'.ownerId = user.id := (owner_of_unlabelled hsame).trans howner
  rw [hown hrow howner, hown hrow' howner', h.shares]

theorem label (h : AgreeFor user db db') (hdb : db.WellShared) (hdb' : db'.WellShared) (hrole : user.role ≠ .ADMIN)
    (hrow : db.configs.get? configId = some row) (hrow' : db'.configs.get? configId = some row')
    (hsame : row'.unlabelled = row.unlabelled) {a : Access}
    (haccess : AbstractStore.access user (db.abstractConfig row) = some a) : row'.visibility = row.visibility := by
  have hid := id_of_unlabelled hsame
  have hpublic := public_of_unlabelled hsame
  by_cases hpub : row.visibility = .PUBLIC
  · rw [hpub, hpublic.mpr hpub]
  · have hflag : (db.abstractConfig row).published = false := decide_eq_false hpub
    have hflag' : (db'.abstractConfig row').published = false := decide_eq_false (fun hp => hpub (hpublic.mp hp))
    have hboth : (db'.abstractConfig row').HasGrants ↔ (db.abstractConfig row).HasGrants := by
      have hsome : (AbstractStore.access user (db.abstractConfig row)).isSome := by rw [haccess]; rfl
      rcases (Configs.access_isSome _ user).mp hsome with hadmin | howner | hp | hheld
      · exact absurd hadmin hrole
      · have hkey : row.id = configId := id_of_config hrow
        rw [hasGrants_iff, hasGrants_iff, hid, hkey, h.sharesOf hrow howner]
      · exact absurd hp (by rw [hflag]; decide)
      · have hheld' : (db'.grants row'.id user.id).isSome := by
          rw [hid, h.grants]
          exact hheld
        exact iff_of_true ⟨user.id, hheld'⟩ ⟨user.id, hheld⟩
    rw [(hdb configId row hrow).1, (hdb' configId row' hrow').1]
    obtain ⟨-, hshared, hprivate⟩ := Configs.visibilityOf_eq (db.abstractConfig row)
    obtain ⟨-, hshared', hprivate'⟩ := Configs.visibilityOf_eq (db'.abstractConfig row')
    by_cases hany : (db.abstractConfig row).HasGrants
    · rw [hshared hflag hany, hshared' hflag' (hboth.mpr hany)]
    · rw [hprivate hflag hany, hprivate' hflag' (fun hany' => hany (hboth.mp hany'))]

theorem row_eq (h : AgreeFor user db db') (hdb : db.WellShared) (hdb' : db'.WellShared) (hrole : user.role ≠ .ADMIN)
    (hrow : db.configs.get? configId = some row) (hrow' : db'.configs.get? configId = some row') {a : Access}
    (haccess : AbstractStore.access user (db.abstractConfig row) = some a) : row' = row := by
  have hsame : row'.unlabelled = row.unlabelled := by
    have hget := h.get? configId
    rw [hrow, hrow', Option.map_some, Option.map_some] at hget
    exact Option.some.inj hget
  exact eq_of_unlabelled hsame (h.label hdb hdb' hrole hrow hrow' hsame haccess)

end AgreeFor
end Database

/-! ## The listing -/

namespace Configs
open Database (AgreeFor)
variable {root : LogLevel} {user : User} {db db' : Database} {row row' : DeviceConfig} {configId : ℤ}

/-- Two lists that agree up to what `g` and `g'` do not see. -/
theorem flatMap_congr_of_map {α β γ : Type} {f : α → β} {g g' : α → List γ} {l l' : List α}
    (hmap : l'.map f = l.map f) (h : ∀ a ∈ l, ∀ a' ∈ l', f a' = f a → g' a' = g a) :
    l'.flatMap g' = l.flatMap g := by
  induction l generalizing l' with
  | nil => rw [List.map_eq_nil_iff.mp hmap, List.flatMap_nil, List.flatMap_nil]
  | cons a l ih =>
    cases l' with
    | nil => cases hmap
    | cons a' l' =>
      rw [List.map_cons, List.map_cons, List.cons.injEq] at hmap
      rw [List.flatMap_cons, List.flatMap_cons, h a List.mem_cons_self a' List.mem_cons_self hmap.1,
        ih hmap.2 (fun x hx x' hx' => h x (List.mem_cons_of_mem _ hx) x' (List.mem_cons_of_mem _ hx'))]

/-- The user's grants on a config, as the outer join finds them. -/
theorem matching_eq (h : AgreeFor user db db') (configId : ℤ) :
    db'.shares.values.filter (fun s => s.configId = configId ∧ s.granteeId = user.id) =
      db.shares.values.filter (fun s => s.configId = configId ∧ s.granteeId = user.id) := by
  have hfiltered : ∀ d : Database, d.shares.values.filter (fun s => s.configId = configId ∧ s.granteeId = user.id) =
      (d.shares.filter (fun _ s => d.concerns user s)).values.filter
        (fun s => s.configId = configId ∧ s.granteeId = user.id) := by
    intro d
    show _ = ((d.shares.entries.filter _).map Prod.snd).filter _
    rw [List.filter_map, List.filter_filter, Dict.values, List.filter_map]
    refine congrArg _ (List.filter_congr (fun e _ => ?_))
    by_cases hg : e.2.granteeId = user.id
    · have : d.concerns user e.2 = true := by rw [Database.concerns, hg, decide_eq_true rfl, Bool.true_or]
      simp [hg, this]
    · simp [hg]
  rw [hfiltered db', hfiltered db, h.shares]

theorem listed_outerJoin_eq (h : AgreeFor user db db') (hsame : row'.unlabelled = row.unlabelled)
    (hrow : (AbstractStore.access user (db.abstractConfig row)).isSome → row' = row) :
    ((outerJoin db' user row').filter (listed user)).map Prod.fst =
      ((outerJoin db user row).filter (listed user)).map Prod.fst := by
  by_cases haccess : (AbstractStore.access user (db.abstractConfig row)).isSome
  · unfold outerJoin
    rw [hrow haccess, matching_eq h row.id]
  · have hnone : ∀ {d : Database} {r : DeviceConfig}, ¬ (AbstractStore.access user (d.abstractConfig r)).isSome →
        (outerJoin d user r).filter (listed user) = [] := by
      intro d r hd
      rw [List.filter_eq_nil_iff]
      rintro ⟨r', share⟩ hin hlisted
      obtain ⟨-, hcase⟩ := mem_listed_outerJoin.mp ⟨share, hin, hlisted⟩
      refine hd ((access_isSome _ user).mpr (.inr ?_))
      exact hcase.imp_right (Or.imp_left decide_eq_true)
    rw [hnone haccess, hnone (by rwa [h.access hsame])]

theorem selectConfigs_eq (h : AgreeFor user db db') (hdb : db.WellShared) (hdb' : db'.WellShared)
    (hrole : user.role ≠ .ADMIN) : selectConfigs db' user = selectConfigs db user := by
  unfold selectConfigs
  rw [if_pos hrole, if_pos hrole]
  refine congrArg List.dedup ?_
  rw [List.filter_flatMap, List.filter_flatMap, List.map_flatMap, List.map_flatMap]
  have hvalues : db'.configs.values.map DeviceConfig.unlabelled = db.configs.values.map DeviceConfig.unlabelled := by
    rw [← Dict.values_map, ← Dict.values_map, h.configs]
  refine flatMap_congr_of_map hvalues (fun row hrow row' hrow' hsame => ?_)
  obtain ⟨k, hk⟩ := Dict.mem_values.mp hrow
  obtain ⟨k', hk'⟩ := Dict.mem_values.mp hrow'
  have hkey : k' = k := by
    rw [← Database.id_of_config hk', ← Database.id_of_config hk, Database.id_of_unlabelled hsame]
  subst hkey
  refine listed_outerJoin_eq h hsame (fun haccess => ?_)
  obtain ⟨a, ha⟩ := Option.isSome_iff_exists.mp haccess
  exact h.row_eq hdb hdb' hrole hk hk' ha

/-! ## What the user is shown -/

theorem summary_eq (h : AgreeFor user db db') (row : DeviceConfig) (access : Access) :
    ConfigSummary.fromConfig (db'.load row) access = ConfigSummary.fromConfig (db.load row) access := by
  unfold ConfigSummary.fromConfig Database.load
  simp only [h.users]

/-- The grants are shown only to the owner, for whom they are the same. -/
theorem detail_eq (h : AgreeFor user db db') (hrole : user.role ≠ .ADMIN)
    (hrow : db.configs.get? configId = some row) {access : Access}
    (haccess : AbstractStore.access user (db.abstractConfig row) = some access) :
    ConfigDetail.fromConfig (db'.load row) access = ConfigDetail.fromConfig (db.load row) access := by
  unfold ConfigDetail.fromConfig
  rw [summary_eq h row access]
  by_cases howner : access = .OWNER
  · subst howner
    have hown : row.ownerId = user.id := (AbstractStore.access_owner.mp haccess).resolve_left hrole
    have hkey : row.id = configId := Database.id_of_config hrow
    have hshares : (db'.load row).shares = (db.load row).shares := by
      show (db'.sharesOf row.id).map db'.shareObject = (db.sharesOf row.id).map db.shareObject
      rw [hkey, h.sharesOf hrow hown]
      refine List.map_congr_left (fun s _ => ?_)
      unfold Database.shareObject
      rw [h.users]
    rw [hshares]
    rfl
  · rw [if_neg howner, if_neg howner]
    rfl

theorem outcome_read_bind {α β : Type} (x : Database → Except ConfigError α) (f : α → ConfigM β) (db : Database) :
    outcome ((read x >>= f).run db) = (x db).bind (fun a => outcome ((f a).run db)) := by
  cases hx : x db with
  | ok a => rw [run_bind_ok (run_read_ok hx)]; rfl
  | error e => rw [run_bind_error (run_read_error hx)]; rfl

theorem list_unobserved (h : AgreeFor user db db') (hdb : db.WellShared) (hdb' : db'.WellShared)
    (hrole : user.role ≠ .ADMIN) :
    outcome ((ConfigRoutes.listEndpoint root user).run db') = outcome ((ConfigRoutes.listEndpoint root user).run db) := by
  unfold ConfigRoutes.listEndpoint
  rw [outcome_read_bind, outcome_read_bind, listConfigs_eq, listConfigs_eq]
  have hrows : listedRows db' user = listedRows db user := by
    unfold listedRows
    rw [selectConfigs_eq h hdb hdb' hrole]
  have hsummaries : ∀ d : Database, ((((listedRows db user).map d.load).filterMap
      (fun config => (effectiveAccess user config).map (fun access => (config, access)))).map
        (fun c => ConfigSummary.fromConfig c.1 c.2)) = (listedRows db user).filterMap (fun row =>
          (AbstractStore.access user (d.abstractConfig row)).map (ConfigSummary.fromConfig (d.load row))) := by
    intro d
    rw [List.filterMap_map, List.map_filterMap]
    refine List.filterMap_congr (fun row _ => ?_)
    rw [Function.comp_apply, effectiveAccess_load, Option.map_map]
    rfl
  have hsame : ∀ d : Database, (((listedRows db user).map d.load).filterMap
      (fun config => (effectiveAccess user config).map (fun access => (config, access)))).mapM
        (fun c => ConfigSummary.fromConfig c.1 c.2) = ((listedRows db user).filterMap (fun row =>
          (AbstractStore.access user (d.abstractConfig row)).map (ConfigSummary.fromConfig (d.load row)))).mapM id := by
    intro d
    rw [← hsummaries d, List.mapM_map]
    rfl
  have hpoint : (listedRows db user).filterMap (fun row =>
        (AbstractStore.access user (db'.abstractConfig row)).map (ConfigSummary.fromConfig (db'.load row))) =
      (listedRows db user).filterMap (fun row =>
        (AbstractStore.access user (db.abstractConfig row)).map (ConfigSummary.fromConfig (db.load row))) := by
    refine List.filterMap_congr (fun row _ => ?_)
    rw [h.access rfl]
    exact congrArg (fun f => Option.map f _) (funext (summary_eq h row))
  rw [hrows]
  simp only [Except.bind, hsame, hpoint]
  exact (outcome_fromExcept ..).trans (outcome_fromExcept ..).symm

theorem get_unobserved (h : AgreeFor user db db') (hdb : db.WellShared) (hdb' : db'.WellShared)
    (hrole : user.role ≠ .ADMIN) (configId : ℤ) :
    outcome ((ConfigRoutes.getEndpoint root user configId).run db') =
      outcome ((ConfigRoutes.getEndpoint root user configId).run db) := by
  have hshown : ∀ {d : Database} {row : DeviceConfig} {access : Access}, d.configs.get? configId = some row →
      AbstractStore.access user (d.abstractConfig row) = some access →
      outcome ((ConfigRoutes.getEndpoint root user configId).run d) =
        (ConfigDetail.fromConfig (d.load row) access).mapError .python := by
    intro d row access hrow haccess
    unfold ConfigRoutes.getEndpoint
    rw [outcome_read_bind, getConfig_ok.mpr ⟨row, hrow, rfl, haccess⟩]
    exact outcome_fromExcept _ _
  have hrefused : ∀ {d : Database} {e : ConfigError}, getConfig root d user configId = .error e →
      outcome ((ConfigRoutes.getEndpoint root user configId).run d) = .error e := by
    intro d e hget
    unfold ConfigRoutes.getEndpoint
    rw [outcome_read_bind, hget]
    rfl
  cases hrow : db.configs.get? configId with
  | none =>
    have hrow' : db'.configs.get? configId = none := by
      have hget := h.get? configId
      rw [hrow] at hget
      exact Option.map_eq_none_iff.mp hget
    have hget : ∀ {d : Database}, d.configs.get? configId = none →
        getConfig root d user configId = reject root ["config_id"] (.configNotFound configId) := by
      intro d hd
      unfold getConfig
      rw [hd]
    rw [hrefused ((hget hrow').trans (reject_eq (by decide) root _)),
      hrefused ((hget hrow).trans (reject_eq (by decide) root _))]
  | some row =>
    obtain ⟨row', hrow', hsame⟩ := h.find hrow
    cases haccess : AbstractStore.access user (db.abstractConfig row) with
    | none =>
      have hget : ∀ {d : Database} {r : DeviceConfig}, d.configs.get? configId = some r →
          AbstractStore.access user (d.abstractConfig r) = none → getConfig root d user configId =
            reject root ["config_id", "login", "user_id"] (.configAccessDenied configId) := by
        intro d r hr hnone
        unfold getConfig
        simp only [hr, effectiveAccess_load, hnone]
      have haccess' : AbstractStore.access user (db'.abstractConfig row') = none := (h.access hsame).trans haccess
      rw [hrefused ((hget hrow' haccess').trans (reject_eq (by decide) root _)),
        hrefused ((hget hrow haccess).trans (reject_eq (by decide) root _))]
    | some access =>
      obtain rfl : row' = row := h.row_eq hdb hdb' hrole hrow hrow' haccess
      rw [hshown hrow' ((h.access rfl).trans haccess), hshown hrow haccess, detail_eq h hrole hrow haccess]

end Configs

/-- **Grants to others are not observed.** From two reachable databases that agree on what concerns the user,
the listing and every single read give the user the same, refusals included. -/
theorem grants_unobserved {root : LogLevel} {user : User} {db db' : Database} (hreach : db.Reachable root)
    (hreach' : db'.Reachable root) (hrole : user.role ≠ .ADMIN) (h : Database.AgreeFor user db db') :
    outcome ((ConfigRoutes.listEndpoint root user).run db') = outcome ((ConfigRoutes.listEndpoint root user).run db) ∧
      ∀ configId, outcome ((ConfigRoutes.getEndpoint root user configId).run db') =
        outcome ((ConfigRoutes.getEndpoint root user configId).run db) :=
  have hdb := Database.wellShared_of_reachable hreach
  have hdb' := Database.wellShared_of_reachable hreach'
  ⟨Configs.list_unobserved h hdb hdb' hrole, Configs.get_unobserved h hdb hdb' hrole⟩

/-! ## Two databases -/

def sampleAnn : User := ⟨1, "ann", "", .DEV, true⟩

def sampleEve : User := ⟨3, "eve", "", .USER, true⟩

def sampleThree : Database where
  users := Dict.ofList [(1, sampleAnn), (2, ⟨2, "bob", "", .USER, true⟩), (3, sampleEve)]
  sessions := Dict.empty
  configs := Dict.empty
  shares := Dict.empty
  constraints := by decide

def sampleStep (db : Database) (call : ConfigCall) : Database := final ((call.run .INFO sampleEnv).run db)

/-- A config of ann, read by eve. -/
def sampleShared : Database :=
  sampleStep (sampleStep sampleThree (.create sampleAnn ⟨"tank", "tank", {}, .PRIVATE⟩))
    (.share sampleAnn 1 ⟨"eve", .READ⟩)

/-- And by bob. -/
def sampleSharedTwice : Database := sampleStep sampleShared (.share sampleAnn 1 ⟨"bob", .WRITE⟩)

theorem sampleStep_reachable {db : Database} (h : db.Reachable .INFO) (call : ConfigCall) :
    (sampleStep db call).Reachable .INFO := by
  obtain ⟨start, events, hinit, hrun⟩ := h
  exact ⟨start, _, hinit, hrun.snoc (.call call sampleEnv)⟩

theorem sampleShared_reachable : sampleShared.Reachable .INFO :=
  sampleStep_reachable (sampleStep_reachable ⟨sampleThree, [], ⟨rfl, rfl⟩, .nil _⟩ _) _

/-- Eve is not told of bob. -/
theorem sampleShared_unobserved :
    (sampleSharedTwice.sharesOf 1).length = 2 ∧ (sampleShared.sharesOf 1).length = 1 ∧
      outcome ((ConfigRoutes.listEndpoint .INFO sampleEve).run sampleSharedTwice) =
        outcome ((ConfigRoutes.listEndpoint .INFO sampleEve).run sampleShared) := by
  have hreach : sampleSharedTwice.Reachable .INFO := sampleStep_reachable sampleShared_reachable _
  have hagree : Database.AgreeFor sampleEve sampleShared sampleSharedTwice := ⟨rfl, rfl, rfl⟩
  exact ⟨rfl, rfl, (grants_unobserved sampleShared_reachable hreach (by decide) hagree).1⟩

end Tstlan
