import Tstlan.Devices.Simulation.Profile
import Tstlan.Devices.Simulation.Published
import Tstlan.Devices.Simulation.Waveforms

/-! # The driver of a simulated device (`_drive` of `devsim/server.py`)

The thread ticks until the first exception. Which ticks raise is decided by the parameters of the signals, the time,
and the C types that take the samples. -/
namespace Tstlan.Simulation
open Foundations
open Binary (Double)
set_option autoImplicit false

/-- What happens to the device under the lock: a tick, or requests of the clients, which leave some buffers. -/
inductive Event (σ : Type)
  | tick (t : Double)
  | requests (io : σ)

section
variable {σ R : Type} [UnidriverIo σ] (P : Platform R)

def SimulationEngine.drive (engine : SimulationEngine) : List (Event σ) → EStateM PyError (World σ R) Unit
  | [] => return ()
  | .tick t :: events => do
    engine.tick P t
    engine.drive events
  | .requests io :: events => do
    modify (fun w => { w with io := io })
    engine.drive events

/-- A tick of the device from these objects raises nothing: every signal yields a sample, the sample fits the C type of
its variable, and the variable that the name stands for takes what it is fitted to. -/
def Clean (t : Double) (d : SimulatedDevice) : List (NetVar × Register) → Objects R → Prop
  | [], _ => True
  | (var, register) :: rest, objects =>
    match d.signals.get? var.name with
    | none => Clean t d rest objects
    | some signal => ∃ v cells x, signal.Yields P t objects.values objects.cells v cells ∧ var.ctype.Fits P v x ∧
        (∃ acc, d.scheme.get? var.name = some acc ∧ acc.var.ctype.Accepts x) ∧
        Clean t d rest (Objects.assign { objects with cells := cells } register x)

variable [LawfulUnidriverIo σ]
open LawfulUnidriverIo (memory)

/-- Every tick of the run is clean from the state before it. -/
def CleanRun (engine : SimulationEngine) (d : SimulatedDevice) : List (Event σ) → World σ R → Prop
  | [], _ => True
  | .tick t :: events, w =>
    Clean P t d d.registers (loaded (memory w.io) d.scheme d.registers w.objects) ∧
      ∀ w', (engine.tick P t).run w = .ok () w' → CleanRun engine d events w'
  | .requests io :: events, w => CleanRun engine d events { w with io := io }

end

/-! ## Ticks that return -/

section
variable {R : Type} {P : Platform R} {t : Double} {d : SimulatedDevice} {registers : List (NetVar × Register)}
  {objects : Objects R}

theorem clean_iff (hcovers : Covers d.scheme registers) :
    (∃ log objects', (samplings P t d.scheme d.signals registers).run objects = .ok log objects' ∧
      ∀ s ∈ log, s.acc.packs s.fitted = .ok ()) ↔ Clean P t d registers objects := by
  induction registers generalizing objects with
  | nil => exact ⟨fun _ => trivial, fun _ => ⟨[], objects, rfl, fun s hs => absurd hs List.not_mem_nil⟩⟩
  | cons p rest ih =>
    obtain ⟨var, register⟩ := p
    obtain ⟨⟨acc, hacc, hw⟩, hrest⟩ := List.forall_mem_cons.mp hcovers
    rw [samplings, Clean]
    cases hsignal : d.signals.get? var.name with
    | none => exact ih hrest
    | some signal =>
      simp only [hacc, run_get_bind, ← fitValue_eq_ok, ← sampleAt_ok_iff, ← NetVarAccessor.packs_ok_iff]
      constructor
      · rintro ⟨log, objects', hrun, hpacks⟩
        obtain ⟨v, o₁, hsample, hrun⟩ := bind_eq_ok hrun
        obtain ⟨cells, hcells, rfl⟩ := onCells_run_ok_iff.mp hsample
        obtain ⟨x, hfit, hrun⟩ := run_fromExcept_bind_ok_iff.mp hrun
        obtain ⟨u, o₂, hassign, hrun⟩ := bind_eq_ok hrun
        cases hassign
        obtain ⟨more, o₃, hmore, hret⟩ := bind_eq_ok hrun
        cases hret
        obtain ⟨hpack, hpacks⟩ := List.forall_mem_cons.mp hpacks
        exact ⟨v, cells, x, hcells, hfit, ⟨acc, rfl, hpack⟩, (ih hrest).mp ⟨more, _, hmore, hpacks⟩⟩
      · rintro ⟨v, cells, x, hcells, hfit, ⟨acc', hsame, hpack⟩, hclean⟩
        cases hsame
        obtain ⟨more, objects', hmore, hpacks⟩ := (ih hrest).mpr hclean
        have hsample : (onCells (fun values => sampleAt P t values signal)).run objects =
            .ok v { objects with cells := cells } := onCells_run_ok_iff.mpr ⟨cells, hcells, rfl⟩
        refine ⟨⟨acc, register, var, objects, v, x⟩ :: more, objects', ?_, List.forall_mem_cons.mpr ⟨hpack, hpacks⟩⟩
        rw [run_bind_ok hsample, run_fromExcept_bind_ok_iff]
        exact ⟨x, hfit, (run_bind_ok (assign_run ..)).trans (run_bind_ok hmore)⟩

end

section
variable {σ R : Type} [UnidriverIo σ] [LawfulUnidriverIo σ] {P : Platform R} {t : Double} {d : SimulatedDevice}
  {engine : SimulationEngine}
open LawfulUnidriverIo (memory)

theorem tick_ok_iff (hdevices : engine.devices = [d]) (hscheme : engine.schemes.get? d.handle = some d.scheme)
    (hd : d.device.enabled = true) (w : World σ R) :
    (∃ w', (engine.tick P t).run w = .ok () w') ↔
      Clean P t d d.registers (loaded (memory w.io) d.scheme d.registers w.objects) := by
  have hticks (objects' : Objects R) (m' : ByteMemory ℤ) :
      (∃ io', (engine.tickAll P t [d]).run w = .ok () ⟨io', objects'⟩ ∧ memory io' = m') ↔
        ∃ log, (turns P t (memory w.io) [d]).run w.objects = .ok log objects' ∧ storeAll log (memory w.io) = .ok m' :=
    tickAll_ok_iff (List.forall_mem_singleton.mpr hscheme) (List.nodup_singleton _) (fun _ _ => rfl)
  rw [← clean_iff (covers_registers d), SimulationEngine.tick, hdevices]
  have hturns (objects' : Objects R) (log : List (Sampling R)) :
      (turns P t (memory w.io) [d]).run w.objects = .ok log objects' ↔
        (samplings P t d.scheme d.signals d.registers).run (loaded (memory w.io) d.scheme d.registers w.objects) =
          .ok log objects' := by
    rw [← turn_of_enabled hd, turns, run_bind_ok_iff]
    constructor
    · rintro ⟨own, o, hown, hrun⟩
      obtain ⟨more, o', hmore, hret⟩ := bind_eq_ok hrun
      cases hmore
      cases hret
      rwa [List.append_nil]
    · intro hown
      exact ⟨log, objects', hown, by rw [turns, pure_bind, List.append_nil]; rfl⟩
  constructor
  · rintro ⟨w', hrun⟩
    obtain ⟨log, hlog, hstore⟩ := (hticks w'.objects (memory w'.io)).mp ⟨w'.io, hrun, rfl⟩
    exact ⟨log, w'.objects, (hturns _ _).mp hlog, (storeAll_ok_iff log _).mp ⟨_, hstore⟩⟩
  · rintro ⟨log, objects', hlog, hpacks⟩
    obtain ⟨m', hstore⟩ := (storeAll_ok_iff log (memory w.io)).mpr hpacks
    obtain ⟨io', hrun, -⟩ := (hticks objects' m').mpr ⟨log, (hturns _ _).mpr hlog, hstore⟩
    exact ⟨_, hrun⟩

/-- The driver keeps running exactly while its ticks are clean. -/
theorem drive_ok_iff (hdevices : engine.devices = [d]) (hscheme : engine.schemes.get? d.handle = some d.scheme)
    (hd : d.device.enabled = true) (events : List (Event σ)) (w : World σ R) :
    (∃ w', (engine.drive P events).run w = .ok () w') ↔ CleanRun P engine d events w := by
  induction events generalizing w with
  | nil => exact ⟨fun _ => trivial, fun _ => ⟨w, rfl⟩⟩
  | cons event events ih =>
    cases event with
    | requests io => exact ih _
    | tick t =>
      rw [SimulationEngine.drive, CleanRun, ← tick_ok_iff hdevices hscheme hd]
      constructor
      · rintro ⟨w', hrun⟩
        obtain ⟨u, w₁, htick, hdrive⟩ := bind_eq_ok hrun
        refine ⟨⟨w₁, htick⟩, fun w₂ htick₂ => ?_⟩
        rw [htick] at htick₂
        cases htick₂
        exact (ih w₁).mp ⟨w', hdrive⟩
      · rintro ⟨⟨w₁, htick⟩, hclean⟩
        obtain ⟨w', hdrive⟩ := (ih w₁).mpr (hclean w₁ htick)
        exact ⟨w', (run_bind_ok htick).trans hdrive⟩

end

/-! ## Devices of a profile -/

def number (n : ℤ) : PyValue := .number (.int n)

/-- The voltage of a generator, and its revolutions, which stop at 255. -/
def generator : RawProfile where
  name := "generator"
  vars := [
    ⟨"voltage", "f32", none, .int 220, some (.mk
      (Dict.ofList [("kind", .text "sine"), ("amplitude", number 10), ("period", number 60), ("offset", number 220)])
      [.mk (Dict.ofList [("kind", .text "noise"), ("amplitude", number 1), ("seed", number 3)]) []])⟩,
    ⟨"revolutions", "u8", none, .int 0, some (.mk (Dict.ofList [("kind", .text "ramp"), ("rate", number 50)]) [])⟩]

/-- No random source has been made. -/
def freshHeap : Heap Unit := ⟨0, fun _ => ⟨.null, ()⟩⟩

/-- A tick, requests that change the buffer, and a tick after 100 seconds. -/
def generatorRun : List (Event InMemoryUnidriverIo) :=
  [.tick 0, .requests ⟨Dict.ofList [(1, [0, 0, 0, 0, 9])]⟩, .tick 0x4059000000000000]

/-- A charge that grows without limit in a single. -/
def capacitor : RawProfile where
  name := "capacitor"
  vars := [⟨"charge", "f32", none, .int 0, some (.mk (Dict.ofList [("kind", .text "ramp"), ("rate", number (10 ^ 38))]) [])⟩]

end Tstlan.Simulation
