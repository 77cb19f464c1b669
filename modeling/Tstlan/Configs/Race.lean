import Tstlan.Configs.Sharing
import Tstlan.Foundations.Racing

/-! # Two requests on one config at the same time

Each request loads the config in its own database session and commits later what differs from what it has
loaded; the steps of the two requests interleave. A request that fails at either step is over. -/
namespace Tstlan
open Foundations
set_option autoImplicit false

inductive EditRequest
  | update (user : User) (data : ConfigUpdate)
  | share (user : User) (req : ShareRequest)
  | unshare (user : User) (login : String)

namespace EditRequest

/-- The request up to its commit. -/
def load (root : LogLevel) (configId : ℤ) (db : Database) :
    EditRequest → Except ConfigError (ConfigObject × Access)
  | .update user data => Configs.prepareUpdate root db user configId data
  | .share user req => Configs.prepareShare root db user configId req
  | .unshare user login => Configs.prepareUnshare root db user configId login

/-- The whole request, run alone. -/
def call (configId : ℤ) : EditRequest → ConfigCall
  | .update user data => .update user configId data
  | .share user req => .share user configId req
  | .unshare user login => .unshare user configId login

/-- What the request does to the sharing of the config. -/
def op (db : Database) : EditRequest → SharingOp ℤ SharePermission
  | .update _ data =>
    match data.visibility with
    | none => .keep
    | some v => .publish (v = .PUBLIC)
  | .share _ req =>
    match db.userByLogin req.login with
    | none => .keep
    | some grantee => .grant grantee.id req.permission
  | .unshare _ login =>
    match db.userByLogin login with
    | none => .keep
    | some grantee => .revoke grantee.id

end EditRequest

inductive RacePhase
  | waiting
  | loaded (config : ConfigObject)
  | committed
  | failed (e : ConfigError)

structure Race where
  db : Database
  phase : Bool → RacePhase := fun _ => .waiting

inductive RaceEvent
  | load (i : Bool)
  | commit (i : Bool)
  deriving DecidableEq

namespace Race

/-- The two requests, each with its clock and its source of keys. -/
structure Requests where
  request : Bool → EditRequest
  env : Bool → Env

variable (root : LogLevel) (configId : ℤ) (reqs : Requests)

def enter (s : Race) (i : Bool) (p : RacePhase) : Race := { s with phase := Function.update s.phase i p }

def step (s : Race) : RaceEvent → Option Race
  | .load i =>
    match s.phase i with
    | .waiting =>
      match (reqs.request i).load root configId s.db with
      | .ok (config, _) => some (s.enter i (.loaded config))
      | .error e => some (s.enter i (.failed e))
    | _ => none
  | .commit i =>
    match s.phase i with
    | .loaded config =>
      match config.flush (reqs.env i) s.db with
      | .ok db => some ({ s with db := db }.enter i .committed)
      | .error e => some (s.enter i (.failed (.database e)))
    | _ => none

def Runs : Race → List RaceEvent → Race → Prop := Run (fun s e t => step root configId reqs s e = some t)

def Done (s : Race) : Prop := ∀ i, s.phase i = .committed

/-- The database after one request and then the other, each run alone. -/
def serially (db : Database) (i : Bool) : Database :=
  let db := final ((((reqs.request i).call configId).run root (reqs.env i)).run db)
  final ((((reqs.request !i).call configId).run root (reqs.env !i)).run db)

/-- The sharing of the config is what some order of the two requests leads to. -/
def Serializable (db after : Database) : Prop :=
  ∃ i, after.sharing configId = (serially root configId reqs db i).sharing configId

/-- Both requests load before either commits, `i` commits first, and their edits conflict. -/
def Interferes (db : Database) (events : List RaceEvent) : Prop :=
  ∃ i c, (∃ k, events = [.load k, .load !k, .commit i, .commit !i]) ∧
    db.abstract.configs configId = some c ∧
    SharingOp.Conflict c ((reqs.request i).op db) ((reqs.request !i).op db)

/-! ## The schedules in which both succeed -/

variable {root : LogLevel} {configId : ℤ} {reqs : Requests} {s t : Race} {events : List RaceEvent} {i : Bool}

@[simp] theorem phase_enter_self (s : Race) (i : Bool) (p : RacePhase) : (s.enter i p).phase i = p :=
  Function.update_self ..

@[simp] theorem phase_enter_other (s : Race) (i : Bool) (p : RacePhase) :
    (s.enter i p).phase (!i) = s.phase (!i) :=
  Function.update_of_ne (by cases i <;> decide) ..

theorem phase_enter_of_ne (s : Race) {i j : Bool} (p : RacePhase) (h : j ≠ i) :
    (s.enter i p).phase j = s.phase j :=
  Function.update_of_ne h ..

theorem step_load (h : step root configId reqs s (.load i) = some t) :
    s.phase i = .waiting ∧
      ((∃ config access, (reqs.request i).load root configId s.db = .ok (config, access) ∧
        t = s.enter i (.loaded config)) ∨ ∃ e, t = s.enter i (.failed e)) := by
  unfold step at h
  simp only at h
  split at h
  · next hphase =>
    refine ⟨hphase, ?_⟩
    split at h
    · next config access hload =>
      cases h
      exact .inl ⟨config, access, hload, rfl⟩
    · next e _ =>
      cases h
      exact .inr ⟨e, rfl⟩
  · cases h

theorem step_commit (h : step root configId reqs s (.commit i) = some t) :
    ∃ config, s.phase i = .loaded config ∧
      ((∃ db, config.flush (reqs.env i) s.db = .ok db ∧ t = { s with db := db }.enter i .committed) ∨
        ∃ e, t = s.enter i (.failed e)) := by
  unfold step at h
  simp only at h
  split at h
  · next config hphase =>
    refine ⟨config, hphase, ?_⟩
    split at h
    · next db hflush =>
      cases h
      exact .inl ⟨db, hflush, rfl⟩
    · next e _ =>
      cases h
      exact .inr ⟨_, rfl⟩
  · cases h

/-- A step is taken by a request that is not over. -/
theorem phase_step {e : RaceEvent} (h : step root configId reqs s e = some t) {j : Bool}
    (hj : s.phase j = .committed ∨ ∃ e, s.phase j = .failed e) : t.phase j = s.phase j := by
  have hother : ∀ i p, (s.phase i = .waiting ∨ ∃ config, s.phase i = .loaded config) →
      (s.enter i p).phase j = s.phase j := by
    intro i p hi
    refine phase_enter_of_ne s p (fun hij => ?_)
    subst hij
    rcases hj with hj | ⟨e, hj⟩ <;> rcases hi with hi | ⟨config, hi⟩ <;> rw [hj] at hi <;> cases hi
  cases e with
  | load i =>
    obtain ⟨hi, ⟨config, access, -, rfl⟩ | ⟨e, rfl⟩⟩ := step_load h
    · exact hother i _ (.inl hi)
    · exact hother i _ (.inl hi)
  | commit i =>
    obtain ⟨config, hi, ⟨db, -, rfl⟩ | ⟨e, rfl⟩⟩ := step_commit h
    · exact hother i _ (.inr ⟨config, hi⟩)
    · exact hother i _ (.inr ⟨config, hi⟩)

theorem failed_stays (h : Runs root configId reqs s events t) {e : ConfigError} (hi : s.phase i = .failed e) :
    t.phase i = .failed e := by
  induction h with
  | nil => exact hi
  | cons head _ ih => exact ih ((phase_step head (.inr ⟨e, hi⟩)).trans hi)

/-- A step of a run in which both requests commit. -/
theorem step_succeeds {u : Race} {e : RaceEvent} (h : step root configId reqs s e = some u)
    (hrun : Runs root configId reqs u events t) (hdone : t.Done) :
    (∃ i config access, e = .load i ∧ s.phase i = .waiting ∧
      (reqs.request i).load root configId s.db = .ok (config, access) ∧ u = s.enter i (.loaded config)) ∨
    ∃ i config db, e = .commit i ∧ s.phase i = .loaded config ∧
      config.flush (reqs.env i) s.db = .ok db ∧ u = { s with db := db }.enter i .committed := by
  have hnot : ∀ (s : Race) i e, u ≠ s.enter i (.failed e) := by
    rintro s i e rfl
    have := failed_stays hrun (phase_enter_self s i (.failed e))
    rw [hdone i] at this
    cases this
  cases e with
  | load i =>
    obtain ⟨hi, ⟨config, access, hload, hu⟩ | ⟨e, hu⟩⟩ := step_load h
    · exact .inl ⟨i, config, access, rfl, hi, hload, hu⟩
    · exact absurd hu (hnot s i e)
  | commit i =>
    obtain ⟨config, hi, ⟨db, hflush, hu⟩ | ⟨e, hu⟩⟩ := step_commit h
    · exact .inr ⟨i, config, db, rfl, hi, hflush, hu⟩
    · exact absurd hu (hnot s i e)

/-- While a request is not over, such a run takes a step. -/
theorem run_succeeds (h : Runs root configId reqs s events t) (hdone : t.Done) (hi : s.phase i ≠ .committed) :
    ∃ e rest u, events = e :: rest ∧ step root configId reqs s e = some u ∧ Runs root configId reqs u rest t := by
  cases h with
  | nil => exact absurd (hdone i) hi
  | cons head tail => exact ⟨_, _, _, rfl, head, tail⟩

theorem eq_or_eq_not (i j : Bool) : j = i ∨ j = !i := by
  cases i <;> cases j <;> decide

theorem run_done (h : Runs root configId reqs s events t) (hs : s.Done) : events = [] ∧ t = s := by
  cases h with
  | nil => exact ⟨rfl, rfl⟩
  | @cons _ u _ e _ head _ =>
    cases e with
    | load i =>
      have := (step_load head).1
      rw [hs i] at this
      cases this
    | commit i =>
      obtain ⟨config, hi, -⟩ := step_commit head
      rw [hs i] at hi
      cases hi

theorem run_last (h : Runs root configId reqs s events t) (hdone : t.Done) {config : ConfigObject}
    (hi : s.phase i = .committed) (hother : s.phase (!i) = .loaded config) :
    events = [.commit !i] ∧ config.flush (reqs.env !i) s.db = .ok t.db := by
  obtain ⟨e, rest, u, rfl, hstep, htail⟩ :=
    run_succeeds (i := !i) h hdone (by rw [hother]; exact fun h => nomatch h)
  rcases step_succeeds hstep htail hdone with ⟨j, o, access, rfl, hj, -⟩ | ⟨j, o, db, rfl, hj, hflush, rfl⟩
  · rcases eq_or_eq_not i j with rfl | rfl
    · rw [hi] at hj
      cases hj
    · rw [hother] at hj
      cases hj
  · rcases eq_or_eq_not i j with rfl | rfl
    · rw [hi] at hj
      cases hj
    · rw [hother] at hj
      cases hj
      have hall : ({ s with db := db }.enter (!i) .committed).Done := by
        intro j
        rcases eq_or_eq_not i j with rfl | rfl
        · exact (phase_enter_of_ne _ _ (by cases j <;> decide)).trans hi
        · exact phase_enter_self ..
      obtain ⟨rfl, rfl⟩ := run_done htail hall
      exact ⟨rfl, hflush⟩

theorem run_second (h : Runs root configId reqs s events t) (hdone : t.Done)
    (hi : s.phase i = .committed) (hother : s.phase (!i) = .waiting) :
    ∃ config access, events = [.load !i, .commit !i] ∧
      (reqs.request !i).load root configId s.db = .ok (config, access) ∧
      config.flush (reqs.env !i) s.db = .ok t.db := by
  obtain ⟨e, rest, u, rfl, hstep, htail⟩ :=
    run_succeeds (i := !i) h hdone (by rw [hother]; exact fun h => nomatch h)
  rcases step_succeeds hstep htail hdone with ⟨j, o, access, rfl, hj, hload, rfl⟩ | ⟨j, o, db, rfl, hj, -⟩
  · rcases eq_or_eq_not i j with rfl | rfl
    · rw [hi] at hj
      cases hj
    · obtain ⟨rfl, hflush⟩ := run_last (i := i) htail hdone
        ((phase_enter_of_ne s _ (by cases i <;> decide)).trans hi) (phase_enter_self ..)
      exact ⟨o, access, rfl, hload, hflush⟩
  · rcases eq_or_eq_not i j with rfl | rfl
    · rw [hi] at hj
      cases hj
    · rw [hother] at hj
      cases hj

theorem run_loaded (h : Runs root configId reqs s events t) (hdone : t.Done) {config : Bool → ConfigObject}
    (hs : ∀ i, s.phase i = .loaded (config i)) :
    ∃ i db, events = [.commit i, .commit !i] ∧ (config i).flush (reqs.env i) s.db = .ok db ∧
      (config !i).flush (reqs.env !i) db = .ok t.db := by
  obtain ⟨e, rest, u, rfl, hstep, htail⟩ :=
    run_succeeds (i := true) h hdone (by rw [hs]; exact fun h => nomatch h)
  rcases step_succeeds hstep htail hdone with ⟨j, o, access, rfl, hj, -⟩ | ⟨j, o, db, rfl, hj, hflush, rfl⟩
  · rw [hs] at hj
    cases hj
  · rw [hs] at hj
    cases hj
    obtain ⟨rfl, hlast⟩ := run_last (i := j) htail hdone (phase_enter_self ..)
      ((phase_enter_other _ j _).trans (hs !j))
    exact ⟨j, db, rfl, hflush, hlast⟩

theorem run_first_loaded (h : Runs root configId reqs s events t) (hdone : t.Done) {config : ConfigObject}
    (hi : s.phase i = .loaded config) (hother : s.phase (!i) = .waiting) :
    (∃ db config' access, events = [.commit i, .load !i, .commit !i] ∧
      config.flush (reqs.env i) s.db = .ok db ∧
      (reqs.request !i).load root configId db = .ok (config', access) ∧
      config'.flush (reqs.env !i) db = .ok t.db) ∨
    ∃ k config' access db, events = [.load !i, .commit k, .commit !k] ∧
      (reqs.request !i).load root configId s.db = .ok (config', access) ∧
      (if k = i then config else config').flush (reqs.env k) s.db = .ok db ∧
      (if k = i then config' else config).flush (reqs.env !k) db = .ok t.db := by
  obtain ⟨e, rest, u, rfl, hstep, htail⟩ :=
    run_succeeds (i := i) h hdone (by rw [hi]; exact fun h => nomatch h)
  rcases step_succeeds hstep htail hdone with ⟨j, o, access, rfl, hj, hload, rfl⟩ | ⟨j, o, db, rfl, hj, hflush, rfl⟩
  · rcases eq_or_eq_not i j with rfl | rfl
    · rw [hi] at hj
      cases hj
    · have hs : ∀ k, (s.enter (!i) (.loaded o)).phase k = .loaded (if k = i then config else o) := by
        intro k
        rcases eq_or_eq_not i k with rfl | rfl
        · rw [if_pos rfl]
          exact (phase_enter_of_ne s _ (by cases k <;> decide)).trans hi
        · rw [if_neg (by cases i <;> decide)]
          exact phase_enter_self ..
      obtain ⟨k, db, rfl, hflush, hlast⟩ := run_loaded htail hdone hs
      refine .inr ⟨k, o, access, db, rfl, hload, hflush, ?_⟩
      have hif : (if (!k) = i then config else o) = if k = i then o else config := by
        cases k <;> cases i <;> rfl
      rwa [hif] at hlast
  · rcases eq_or_eq_not i j with rfl | rfl
    · rw [hi] at hj
      cases hj
      obtain ⟨config', access, rfl, hload, hlast⟩ := run_second (i := j) htail hdone (phase_enter_self ..)
        ((phase_enter_other _ j _).trans hother)
      exact .inl ⟨db, config', access, rfl, hflush, hload, hlast⟩
    · rw [hother] at hj
      cases hj

/-- The schedules in which both requests succeed: one after the other, or both loads first. -/
theorem run_schedule {db : Database} (h : Runs root configId reqs { db := db } events t) (hdone : t.Done) :
    (∃ i db₁ config access config' access', events = [.load i, .commit i, .load !i, .commit !i] ∧
      (reqs.request i).load root configId db = .ok (config, access) ∧
      config.flush (reqs.env i) db = .ok db₁ ∧
      (reqs.request !i).load root configId db₁ = .ok (config', access') ∧
      config'.flush (reqs.env !i) db₁ = .ok t.db) ∨
    ∃ k i db₁ config access config' access', events = [.load k, .load !k, .commit i, .commit !i] ∧
      (reqs.request i).load root configId db = .ok (config, access) ∧
      (reqs.request !i).load root configId db = .ok (config', access') ∧
      config.flush (reqs.env i) db = .ok db₁ ∧ config'.flush (reqs.env !i) db₁ = .ok t.db := by
  obtain ⟨e, rest, u, rfl, hstep, htail⟩ := run_succeeds (i := true) h hdone (fun h => nomatch h)
  rcases step_succeeds hstep htail hdone with ⟨i, config, access, rfl, -, hload, rfl⟩ | ⟨i, o, db', -, hi, -⟩
  · rcases run_first_loaded (i := i) htail hdone (phase_enter_self ..) (phase_enter_other ..) with
      ⟨db₁, config', access', rfl, hflush, hload', hlast⟩ | ⟨k, config', access', db₁, rfl, hload', hflush, hlast⟩
    · exact .inl ⟨i, db₁, config, access, config', access', rfl, hload, hflush, hload', hlast⟩
    · rcases eq_or_eq_not i k with rfl | rfl
      · rw [if_pos rfl] at hflush hlast
        exact .inr ⟨k, k, db₁, config, access, config', access', rfl, hload, hload', hflush, hlast⟩
      · rw [if_neg (by cases i <;> decide)] at hflush hlast
        refine .inr ⟨i, !i, db₁, config', access', config, access, rfl, hload', ?_, hflush, hlast⟩
        rw [Bool.not_not]
        exact hload
  · cases hi

end Race
end Tstlan
