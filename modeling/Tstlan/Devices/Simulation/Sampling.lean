import Tstlan.Devices.Echo
import Tstlan.Devices.Simulation.Engine

/-! # What the signals of a tick return

Without the buffers a tick is a computation on the objects alone: what is loaded comes from one memory, and each
sample is noted instead of being written. `tick_ok_iff` says that the tick of the code is this computation followed
by the writes of what was noted. -/
namespace Tstlan.Simulation
open Foundations
open Binary (Double)
set_option autoImplicit false

/-- One sample of a tick, with the objects as they were before it. -/
structure Sampling (R : Type) where
  acc : NetVarAccessor
  register : Register
  var : NetVar
  before : Objects R
  sample : PyValue
  fitted : Number

def SimulatedDevice.scheme (simulated : SimulatedDevice) : Dict String NetVarAccessor :=
  (attachDevice simulated.device simulated.handle).scheme

/-- The writes of a tick. -/
def storeAll {R : Type} : List (Sampling R) → ByteMemory ℤ → Except PyError (ByteMemory ℤ)
  | [], m => .ok m
  | s :: rest, m => do
    let m ← s.acc.stored m s.fitted
    storeAll rest m

section
variable {R : Type} (P : Platform R) (t : Double)

/-- The objects after the first pass. -/
def loaded (m : ByteMemory ℤ) (scheme : Dict String NetVarAccessor) :
    List (NetVar × Register) → Objects R → Objects R
  | [], objects => objects
  | (var, register) :: rest, objects =>
    loaded m scheme rest
      (if var.mode = .R then objects
      else match scheme.get? var.name with
        | none => objects
        | some acc => objects.assign register (acc.shown m))

/-- The second pass. -/
def samplings (scheme : Dict String NetVarAccessor) (signals : Dict String (Signal Source)) :
    List (NetVar × Register) → EStateM PyError (Objects R) (List (Sampling R))
  | [] => return []
  | (var, register) :: rest =>
    match signals.get? var.name with
    | none => samplings scheme signals rest
    | some signal => do
      let before ← get
      let sample ← onCells (fun values => sampleAt P t values signal)
      let value ← fromExcept (fitValue P var.ctype sample)
      assign register value
      match scheme.get? var.name with
      | none => throw .keyError
      | some acc =>
        let more ← samplings scheme signals rest
        return ⟨acc, register, var, before, sample, value⟩ :: more

/-- A device's part of a tick. -/
def SimulatedDevice.turn (m : ByteMemory ℤ) (simulated : SimulatedDevice) :
    EStateM PyError (Objects R) (List (Sampling R)) :=
  if simulated.device.enabled then do
    modify (loaded m simulated.scheme simulated.registers)
    samplings P t simulated.scheme simulated.signals simulated.registers
  else return []

/-- The samples of a tick, when the memory is `m` at its start. -/
def turns (m : ByteMemory ℤ) : List SimulatedDevice → EStateM PyError (Objects R) (List (Sampling R))
  | [] => return []
  | simulated :: rest => do
    let own ← simulated.turn P t m
    let more ← turns m rest
    return own ++ more

end

/-! ## One pass over a device -/

section
variable {ε σ R α : Type} {w : World σ R}

theorem onIo_run_ok {x : EStateM ε σ α} {a : α} {io : σ} (h : x.run w.io = .ok a io) :
    (onIo x).run w = .ok a { w with io := io } := by
  simp only [onIo, EStateM.run] at h ⊢
  rw [h]

theorem onIo_run_error {x : EStateM ε σ α} {e : ε} {io : σ} (h : x.run w.io = .error e io) :
    (onIo x).run w = .error e { w with io := io } := by
  simp only [onIo, EStateM.run] at h ⊢
  rw [h]

theorem onObjects_run_ok {x : EStateM ε (Objects R) α} {a : α} {objects : Objects R}
    (h : x.run w.objects = .ok a objects) : (onObjects x).run w = .ok a { w with objects := objects } := by
  simp only [onObjects, EStateM.run] at h ⊢
  rw [h]

theorem onObjects_run_error {x : EStateM ε (Objects R) α} {e : ε} {objects : Objects R}
    (h : x.run w.objects = .error e objects) : (onObjects x).run w = .error e { w with objects := objects } := by
  simp only [onObjects, EStateM.run] at h ⊢
  rw [h]

theorem onCells_run_ok_iff {x : (Register → Number) → EStateM ε (ℕ → Cell R) α} {a : α} {objects objects' : Objects R} :
    (onCells x).run objects = .ok a objects' ↔
      ∃ cells, (x objects.values).run objects.cells = .ok a cells ∧ objects' = { objects with cells := cells } := by
  simp only [onCells, EStateM.run]
  cases x objects.values objects.cells with
  | ok b cells => simp [eq_comm]
  | error e cells => simp

theorem assign_run (register : Register) (value : Number) (objects : Objects R) :
    (assign register value : EStateM ε (Objects R) Unit).run objects = .ok () (objects.assign register value) := rfl

end

section
variable {σ R : Type} [UnidriverIo σ] [LawfulUnidriverIo σ] {P : Platform R} {t : Double}
  {scheme : Dict String NetVarAccessor} {signals : Dict String (Signal Source)} {registers : List (NetVar × Register)}
open LawfulUnidriverIo (memory)

/-- Every variable has an accessor under its name. -/
def Covers (scheme : Dict String NetVarAccessor) (registers : List (NetVar × Register)) : Prop :=
  ∀ p ∈ registers, ∃ acc, scheme.get? p.1.name = some acc ∧ acc.Wf

/-- The first pass returns and leaves the memory. -/
theorem load_run (hscheme : Covers scheme registers) (w : World σ R) :
    ∃ io', (load scheme registers).run w = .ok () ⟨io', loaded (memory w.io) scheme registers w.objects⟩ ∧
      memory io' = memory w.io := by
  induction registers generalizing w with
  | nil => exact ⟨w.io, rfl, rfl⟩
  | cons p rest ih =>
    obtain ⟨var, register⟩ := p
    obtain ⟨⟨acc, hacc, hw⟩, hrest⟩ := List.forall_mem_cons.mp hscheme
    simp only [load, loaded]
    by_cases hmode : var.mode = .R
    · obtain ⟨io', hrun, hmem⟩ := ih hrest w
      refine ⟨io', ?_, hmem⟩
      simp only [hmode, ne_eq, not_true_eq_false, if_false, if_true]
      exact hrun
    · obtain ⟨v, io₁, hget, hvalue, hmem₁⟩ := NetVarAccessor.get_run hw w.io
      rw [NetVarAccessor.value_eq_shown, Except.ok.injEq] at hvalue
      subst hvalue
      obtain ⟨io', hrun, hmem⟩ := ih hrest ⟨io₁, w.objects.assign register (acc.shown (memory w.io))⟩
      refine ⟨io', ?_, hmem.trans hmem₁⟩
      simp only [hmode, ne_eq, not_false_eq_true, if_true, if_false, hacc]
      rw [run_bind_ok (onIo_run_ok hget), run_bind_ok (onObjects_run_ok (assign_run ..)), hrun, hmem₁]

/-- The second pass: it returns if the samples exist and can be written, and then it has written them. -/
theorem publish_ok_iff (hscheme : Covers scheme registers) {w : World σ R} {m' : ByteMemory ℤ}
    {objects' : Objects R} :
    (∃ io', (publish P t scheme signals registers).run w = .ok () ⟨io', objects'⟩ ∧ memory io' = m') ↔
      ∃ log, (samplings P t scheme signals registers).run w.objects = .ok log objects' ∧
        storeAll log (memory w.io) = .ok m' := by
  induction registers generalizing w with
  | nil =>
    constructor
    · rintro ⟨io', hrun, rfl⟩
      cases hrun
      exact ⟨[], rfl, rfl⟩
    · rintro ⟨log, hrun, hstore⟩
      cases hrun
      cases hstore
      exact ⟨w.io, rfl, rfl⟩
  | cons p rest ih =>
    obtain ⟨var, register⟩ := p
    obtain ⟨⟨acc, hacc, hw⟩, hrest⟩ := List.forall_mem_cons.mp hscheme
    simp only [publish, samplings]
    cases hsignal : signals.get? var.name with
    | none => exact ih hrest
    | some signal =>
      simp only [hacc]
      cases hs : (onCells (fun values => sampleAt P t values signal)).run w.objects with
      | error e o =>
        rw [run_get_bind, run_bind_error hs, run_bind_error (onObjects_run_error hs)]
        constructor <;> (rintro ⟨_, hrun, -⟩; cases hrun)
      | ok v o =>
        rw [run_get_bind, run_bind_ok hs, run_bind_ok (onObjects_run_ok hs)]
        cases hf : fitValue P var.ctype v with
        | error e =>
          rw [run_bind_error (run_fromExcept_error ..), run_bind_error (run_fromExcept_error ..)]
          constructor <;> (rintro ⟨_, hrun, -⟩; cases hrun)
        | ok x =>
          rw [fromExcept_ok_bind, fromExcept_ok_bind, run_bind_ok (onObjects_run_ok (assign_run ..)),
            run_bind_ok (assign_run ..)]
          dsimp only
          cases hstored : acc.stored (memory w.io) x with
          | error e =>
            have hset := NetVarAccessor.set_run_error hstored
            rw [run_bind_error (onIo_run_error (w := ⟨w.io, o.assign register x⟩) hset)]
            constructor
            · rintro ⟨_, hrun, -⟩
              cases hrun
            · rintro ⟨log, hrun, hstore⟩
              obtain ⟨more, o', -, hret⟩ := bind_eq_ok hrun
              cases hret
              rw [storeAll, hstored] at hstore
              cases hstore
          | ok m₁ =>
            obtain ⟨io₁, hset, rfl⟩ := NetVarAccessor.set_run hw hstored
            rw [run_bind_ok (onIo_run_ok (w := ⟨w.io, o.assign register x⟩) hset), ih hrest]
            constructor
            · rintro ⟨more, hmore, hstore⟩
              refine ⟨_, run_bind_ok hmore, ?_⟩
              rw [storeAll, hstored]
              exact hstore
            · rintro ⟨log, hrun, hstore⟩
              obtain ⟨more, o', hmore, hret⟩ := bind_eq_ok hrun
              cases hret
              rw [storeAll, hstored] at hstore
              exact ⟨more, hmore, hstore⟩

end

/-! ## The writes -/

theorem shown_congr {acc : NetVarAccessor} (hw : acc.Wf) {m m' : ByteMemory ℤ} (h : m acc.handle = m' acc.handle) :
    acc.shown m = acc.shown m' := by
  have hsame : m.SameOn m' acc.handle acc.start acc.stop := by
    intro p _ _
    rw [ByteMemory.bit, ByteMemory.bit, h]
  rw [NetVarAccessor.shown, NetVarAccessor.shown, NetVarAccessor.value_congr hw hsame]

section
variable {R : Type} {log : List (Sampling R)} {m m' : ByteMemory ℤ}

theorem storeAll_cons_ok {s : Sampling R} :
    storeAll (s :: log) m = .ok m' ↔ ∃ m₁, s.acc.stored m s.fitted = .ok m₁ ∧ storeAll log m₁ = .ok m' := by
  rw [storeAll]
  cases s.acc.stored m s.fitted with
  | error e => simp [bind, Except.bind]
  | ok m₁ => simp [bind, Except.bind]

theorem storeAll_append_ok {more : List (Sampling R)} :
    storeAll (log ++ more) m = .ok m' ↔ ∃ m₁, storeAll log m = .ok m₁ ∧ storeAll more m₁ = .ok m' := by
  induction log generalizing m with
  | nil => simp [storeAll]
  | cons s rest ih =>
    simp only [List.cons_append, storeAll_cons_ok, ih]
    grind

theorem bit_storeAll (hw : ∀ s ∈ log, s.acc.Wf) (h : storeAll log m = .ok m') {d : ℤ} {p : ℕ}
    (hout : ∀ s ∈ log, d ≠ s.acc.handle ∨ p < s.acc.start ∨ s.acc.stop ≤ p) : m'.bit d p = m.bit d p := by
  induction log generalizing m with
  | nil =>
    cases h
    rfl
  | cons s rest ih =>
    obtain ⟨m₁, hs, hrest⟩ := storeAll_cons_ok.mp h
    obtain ⟨hws, hwrest⟩ := List.forall_mem_cons.mp hw
    obtain ⟨houts, houtrest⟩ := List.forall_mem_cons.mp hout
    exact (ih hwrest hrest houtrest).trans (NetVarAccessor.bit_stored hws hs houts)

theorem row_storeAll (hw : ∀ s ∈ log, s.acc.Wf) (h : storeAll log m = .ok m') {d : ℤ}
    (hd : ∀ s ∈ log, s.acc.handle ≠ d) : m' d = m d :=
  ByteMemory.row_ext (fun _ => bit_storeAll hw h (fun s hs => .inl (hd s hs).symm))

/-- The writes succeed together if and only if each value can be packed. -/
theorem storeAll_ok_iff (log : List (Sampling R)) (m : ByteMemory ℤ) :
    (∃ m', storeAll log m = .ok m') ↔ ∀ s ∈ log, s.acc.packs s.fitted = .ok () := by
  induction log generalizing m with
  | nil => exact ⟨fun _ _ hs => absurd hs List.not_mem_nil, fun _ => ⟨m, rfl⟩⟩
  | cons s rest ih =>
    rw [List.forall_mem_cons]
    constructor
    · rintro ⟨m', h⟩
      obtain ⟨m₁, hs, hrest⟩ := storeAll_cons_ok.mp h
      refine ⟨?_, (ih m₁).mp ⟨m', hrest⟩⟩
      cases hp : s.acc.packs s.fitted with
      | ok _ => rfl
      | error e =>
        rw [NetVarAccessor.packs_error_iff.mp hp] at hs
        cases hs
    · rintro ⟨hs, hrest⟩
      obtain ⟨m₁, hstored⟩ := NetVarAccessor.stored_of_packs hs m
      obtain ⟨m', h⟩ := (ih m₁).mpr hrest
      exact ⟨m', storeAll_cons_ok.mpr ⟨m₁, hstored, h⟩⟩

end

/-! ## The notes of a pass -/

section
variable {R : Type} {P : Platform R} {t : Double} {scheme : Dict String NetVarAccessor}
  {signals : Dict String (Signal Source)} {registers : List (NetVar × Register)} {log : List (Sampling R)}
  {objects objects' : Objects R}

/-- What is noted of a variable: the sample of its signal, the fitted value, and the accessor of its name. -/
structure Noted (P : Platform R) (t : Double) (scheme : Dict String NetVarAccessor)
    (signals : Dict String (Signal Source)) (s : Sampling R) : Prop where
  acc : scheme.get? s.var.name = some s.acc
  sample : ∃ signal cells, signals.get? s.var.name = some signal ∧
    (sampleAt P t s.before.values signal).run s.before.cells = .ok s.sample cells
  fitted : fitValue P s.var.ctype s.sample = .ok s.fitted

/-- What the second pass does with the objects, one variable after the other. -/
inductive Pass (P : Platform R) (t : Double) (scheme : Dict String NetVarAccessor)
    (signals : Dict String (Signal Source)) :
    List (NetVar × Register) → Objects R → List (Sampling R) → Objects R → Prop
  | nil (objects : Objects R) : Pass P t scheme signals [] objects [] objects
  | silent {var : NetVar} {register : Register} {registers : List (NetVar × Register)} {objects objects' : Objects R}
      {log : List (Sampling R)} : signals.get? var.name = none → Pass P t scheme signals registers objects log objects' →
      Pass P t scheme signals ((var, register) :: registers) objects log objects'
  | sampled {s : Sampling R} {cells : ℕ → Cell R} {registers : List (NetVar × Register)} {objects' : Objects R}
      {log : List (Sampling R)} : Noted P t scheme signals s →
      Pass P t scheme signals registers (Objects.assign { s.before with cells := cells } s.register s.fitted) log
        objects' →
      Pass P t scheme signals ((s.var, s.register) :: registers) s.before (s :: log) objects'

theorem pass_of_samplings (h : (samplings P t scheme signals registers).run objects = .ok log objects') :
    Pass P t scheme signals registers objects log objects' := by
  induction registers generalizing objects log with
  | nil =>
    cases h
    exact .nil _
  | cons p registers ih =>
    obtain ⟨var, register⟩ := p
    cases hsignal : signals.get? var.name with
    | none =>
      simp only [samplings, hsignal] at h
      exact .silent hsignal (ih h)
    | some signal =>
      simp only [samplings, hsignal, run_get_bind] at h
      obtain ⟨v, o₁, hsample, h⟩ := bind_eq_ok h
      obtain ⟨cells, hrun, rfl⟩ := onCells_run_ok_iff.mp hsample
      obtain ⟨x, o₂, hfit, h⟩ := bind_eq_ok h
      obtain ⟨u, o₃, hassign, h⟩ := bind_eq_ok h
      cases hassign
      obtain ⟨hfitted, rfl⟩ := fromExcept_run_ok_iff.mp hfit
      cases hacc : scheme.get? var.name with
      | none =>
        rw [hacc] at h
        cases h
      | some acc =>
        rw [hacc] at h
        obtain ⟨more, o₄, hmore, hret⟩ := bind_eq_ok h
        cases hret
        exact .sampled (s := ⟨acc, register, var, objects, v, x⟩) ⟨hacc, ⟨signal, cells, hsignal, hrun⟩, hfitted⟩
          (ih hmore)

namespace Pass

theorem noted (h : Pass P t scheme signals registers objects log objects') :
    ∀ s ∈ log, Noted P t scheme signals s := by
  induction h with
  | nil => exact fun s hs => absurd hs List.not_mem_nil
  | silent _ _ ih => exact ih
  | sampled hnoted _ ih => exact List.forall_mem_cons.mpr ⟨hnoted, ih⟩

/-- Noted are the variables that have a signal. -/
theorem map_log (h : Pass P t scheme signals registers objects log objects') :
    log.map (fun s => (s.var, s.register)) = registers.filter (fun p => (signals.get? p.1.name).isSome) := by
  induction h with
  | nil => rfl
  | silent hsignal _ ih => rw [ih, List.filter_cons_of_neg (by simp [hsignal])]
  | sampled hnoted _ ih =>
    obtain ⟨signal, cells, hsignal, -⟩ := hnoted.sample
    rw [List.map_cons, ih, List.filter_cons_of_pos (by simp [hsignal])]

theorem registered (h : Pass P t scheme signals registers objects log objects') :
    ∀ s ∈ log, (s.var, s.register) ∈ registers := by
  intro s hs
  apply List.mem_of_mem_filter
  rw [← h.map_log]
  exact List.mem_map_of_mem hs

theorem values_of_silent (h : Pass P t scheme signals registers objects log objects') {r : Register}
    (hr : ∀ p ∈ registers, p.2 = r → signals.get? p.1.name = none) :
    (∀ s ∈ log, s.before.values r = objects.values r) ∧ objects'.values r = objects.values r := by
  induction h with
  | nil => exact ⟨fun s hs => absurd hs List.not_mem_nil, rfl⟩
  | silent _ _ ih => exact ih (fun p hp => hr p (List.mem_cons_of_mem _ hp))
  | @sampled s cells registers objects' log hnoted hrest ih =>
    obtain ⟨hlog, hfinal⟩ := ih (fun p hp => hr p (List.mem_cons_of_mem _ hp))
    have hne : r ≠ s.register := by
      rintro rfl
      obtain ⟨signal, cells, hsignal, -⟩ := hnoted.sample
      rw [hr _ List.mem_cons_self rfl] at hsignal
      cases hsignal
    have hassign : (Objects.assign { s.before with cells := cells } s.register s.fitted).values r = s.before.values r :=
      Function.update_of_ne hne _ _
    refine ⟨List.forall_mem_cons.mpr ⟨rfl, fun s' hs' => (hlog s' hs').trans hassign⟩, hfinal.trans hassign⟩

end Pass
end
end Tstlan.Simulation
