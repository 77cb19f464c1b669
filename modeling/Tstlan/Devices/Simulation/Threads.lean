import Mathlib.Data.List.Induction
import Tstlan.Devices.Lookup
import Tstlan.Devices.Simulation.Published

/-! # Ticks and requests at the same time (`tstlan/app.py`)

Without external devices the engine and the service share one driver: the engine ticks on the event loop while
write requests run on worker threads. What cannot be interrupted is one call of the driver, so a tick is a list
of actions, each with at most one call, and a request may come between any two of them. -/
namespace Tstlan.Simulation
open Foundations
open Binary (Double)
set_option autoImplicit false

/-- A part of a tick with one call of the driver. -/
inductive Action
  | load (simulated : SimulatedDevice) (entry : NetVar × Register)
  | publish (simulated : SimulatedDevice) (entry : NetVar × Register)

def SimulatedDevice.actions (simulated : SimulatedDevice) : List Action :=
  if simulated.device.enabled then
    simulated.registers.map (.load simulated) ++ simulated.registers.map (.publish simulated)
  else []

/-- The actions of a tick. -/
def agenda (devices : List SimulatedDevice) : List Action := devices.flatMap SimulatedDevice.actions

section
variable {σ R : Type} [UnidriverIo σ] (P : Platform R) (t : Double) (engine : SimulationEngine)

def Action.perform : Action → EStateM PyError (World σ R) Unit
  | .load simulated entry =>
    match engine.schemes.get? simulated.handle with
    | none => throw .keyError
    | some scheme => Simulation.load scheme [entry]
  | .publish simulated entry =>
    match engine.schemes.get? simulated.handle with
    | none => throw .keyError
    | some scheme => Simulation.publish P t scheme simulated.signals [entry]

def performAll : List Action → EStateM PyError (World σ R) Unit
  | [] => return ()
  | action :: rest => do
    action.perform P t engine
    performAll rest

/-! ## A tick is its actions -/

theorem load_cons (scheme : Dict String NetVarAccessor) (entry : NetVar × Register) (rest : List (NetVar × Register)) :
    (load scheme (entry :: rest) : EStateM PyError (World σ R) Unit) =
      (do load scheme [entry]; load scheme rest) := by
  simp only [load]
  by_cases hmode : entry.1.mode = .R
  · simp only [hmode, ne_eq, not_true_eq_false, if_false, pure_bind]
  · simp only [hmode, ne_eq, not_false_eq_true, if_true]
    cases scheme.get? entry.1.name <;> simp only [bind_assoc, pure_bind]

theorem publish_cons (scheme : Dict String NetVarAccessor) (signals : Dict String (Signal Source))
    (entry : NetVar × Register) (rest : List (NetVar × Register)) :
    (publish P t scheme signals (entry :: rest) : EStateM PyError (World σ R) Unit) =
      (do publish P t scheme signals [entry]; publish P t scheme signals rest) := by
  simp only [publish]
  cases signals.get? entry.1.name with
  | none => simp only [pure_bind]
  | some signal => cases scheme.get? entry.1.name <;> simp only [bind_assoc, pure_bind]

theorem performAll_append (first second : List Action) :
    (performAll P t engine (first ++ second) : EStateM PyError (World σ R) Unit) =
      (do performAll P t engine first; performAll P t engine second) := by
  induction first with
  | nil => simp only [List.nil_append, performAll, pure_bind]
  | cons action first ih => simp only [List.cons_append, performAll, ih, bind_assoc]

variable {engine}

theorem performAll_loads {simulated : SimulatedDevice} {scheme : Dict String NetVarAccessor}
    (hscheme : engine.schemes.get? simulated.handle = some scheme) (entries : List (NetVar × Register)) :
    (performAll P t engine (entries.map (.load simulated)) : EStateM PyError (World σ R) Unit) = load scheme entries := by
  induction entries with
  | nil => rfl
  | cons entry rest ih =>
    rw [List.map_cons, performAll, ih, load_cons]
    simp only [Action.perform, hscheme]

theorem performAll_publishes {simulated : SimulatedDevice} {scheme : Dict String NetVarAccessor}
    (hscheme : engine.schemes.get? simulated.handle = some scheme) (entries : List (NetVar × Register)) :
    (performAll P t engine (entries.map (.publish simulated)) : EStateM PyError (World σ R) Unit) =
      publish P t scheme simulated.signals entries := by
  induction entries with
  | nil => rfl
  | cons entry rest ih =>
    rw [List.map_cons, performAll, ih, publish_cons]
    simp only [Action.perform, hscheme]

/-- One action after the other, a tick is the tick of the code. -/
theorem performAll_agenda {devices : List SimulatedDevice}
    (hschemes : ∀ d ∈ devices, engine.schemes.get? d.handle = some d.scheme) :
    (performAll P t engine (agenda devices) : EStateM PyError (World σ R) Unit) = engine.tickAll P t devices := by
  induction devices with
  | nil => rfl
  | cons d rest ih =>
    obtain ⟨hscheme, hrest⟩ := List.forall_mem_cons.mp hschemes
    rw [agenda, List.flatMap_cons, ← agenda, performAll_append, ih hrest, SimulationEngine.tickAll,
      SimulatedDevice.actions]
    cases d.device.enabled with
    | false => simp only [Bool.false_eq_true, if_false, performAll, pure_bind]
    | true =>
      simp only [if_true, hscheme]
      rw [performAll_append, performAll_loads P t hscheme, performAll_publishes P t hscheme]
      simp only [bind_assoc]

end

/-! ## One action -/

section
variable {R : Type} (P : Platform R) (t : Double) {d : SimulatedDevice} {entry : NetVar × Register}

theorem load_one (hentry : entry ∈ d.registers) (w : World InMemoryUnidriverIo R) :
    ∃ io, (load d.scheme [entry]).run w = .ok () ⟨io, loaded w.io.memory d.scheme [entry] w.objects⟩ ∧
      io.memory = w.io.memory := by
  have hcovers : Covers d.scheme [entry] := fun p hp => by
    rw [List.mem_singleton] at hp
    rw [hp]
    exact covers_registers d entry hentry
  exact load_run hcovers w

/-- What a signal gives is stored through the accessor of its variable, or the engine stops and nothing is stored. -/
theorem publish_one {acc : NetVarAccessor} (hacc : d.scheme.get? entry.1.name = some acc)
    (w : World InMemoryUnidriverIo R) :
    (∃ e w', (publish P t d.scheme d.signals [entry]).run w = .error e w' ∧ w'.io.memory = w.io.memory) ∨
      ∃ w', (publish P t d.scheme d.signals [entry]).run w = .ok () w' ∧
        (d.signals.get? entry.1.name = none ∧ w' = w ∨
          d.signals.get? entry.1.name ≠ none ∧
            acc.stored w.io.memory (w'.objects.values entry.2) = .ok w'.io.memory ∧
            ∀ r ≠ entry.2, w'.objects.values r = w.objects.values r) := by
  simp only [publish, hacc]
  cases hsignal : d.signals.get? entry.1.name with
  | none => exact .inr ⟨w, rfl, .inl ⟨rfl, rfl⟩⟩
  | some signal =>
    cases hsample : (onCells (fun values => sampleAt P t values signal)).run w.objects with
    | error e objects => exact .inl ⟨e, _, run_bind_error (onObjects_run_error hsample), rfl⟩
    | ok sample objects =>
      obtain ⟨cells, -, rfl⟩ := onCells_run_ok_iff.mp hsample
      simp only
      rw [run_bind_ok (onObjects_run_ok hsample)]
      cases hfit : fitValue P entry.1.ctype sample with
      | error e => exact .inl ⟨e, _, run_bind_error (run_fromExcept_error ..), rfl⟩
      | ok fitted =>
        rw [fromExcept_ok_bind, run_bind_ok (onObjects_run_ok (assign_run ..))]
        cases hstored : acc.stored w.io.memory fitted with
        | error e =>
          have hset := NetVarAccessor.set_run_error (σ := InMemoryUnidriverIo) hstored
          exact .inl ⟨e, _, run_bind_error (onIo_run_error hset), rfl⟩
        | ok m =>
          obtain ⟨io, hset, hmemory⟩ := NetVarAccessor.set_run (σ := InMemoryUnidriverIo) (wf_of_scheme hacc).1 hstored
          let objects : Objects R := (⟨w.objects.values, cells⟩ : Objects R).assign entry.2 fitted
          have hrun := onIo_run_ok (w := ⟨w.io, objects⟩) hset
          refine .inr ⟨⟨io, objects⟩, run_bind_ok hrun, .inr ⟨Option.some_ne_none _, ?_, fun r hr => ?_⟩⟩
          · rw [show objects.values entry.2 = fitted from Function.update_self .., hstored]
            exact congrArg Except.ok hmemory.symm
          · exact Function.update_of_ne hr _ _

end
/-! ## The engine and the requests -/

/-- What the engine and the workers share and what the engine keeps for itself: the time of the tick it is in with the
actions that are left of it, and whether an exception has ended it. -/
structure Plant (R : Type) where
  io : InMemoryUnidriverIo
  objects : Objects R
  tick : Option (Double × List Action) := none
  stopped : Bool := false

inductive PlantEvent
  | request (req : WriteRequest)
  | start (t : Double)
  | act

/-- The bench that the service is made of. -/
def benchOf (devices : List SimulatedDevice) (handles : (devices.map SimulatedDevice.handle).Nodup) : Bench where
  devices := devices.map (fun d => (d.device, d.handle))
  handles := by
    rw [List.map_map]
    exact handles

/-- The value that an event stores for a client through this accessor. -/
def command? (bench : Bench) (acc : NetVarAccessor) : PlantEvent → Option Number
  | .request req =>
    match req.planned bench with
    | .ok planned => if planned.acc = acc then some planned.coerced else none
    | .error _ => none
  | _ => none

/-- The last command that has been accepted for this accessor. -/
def lastCommand (bench : Bench) (acc : NetVarAccessor) (events : List PlantEvent) : Option Number :=
  (events.filterMap (command? bench acc)).getLast?

namespace Plant
variable {R : Type} (P : Platform R) (engine : SimulationEngine) (root : LogLevel) (bench : Bench)

def next (s : Plant R) : PlantEvent → Plant R
  | .request req => { s with io := final ((req.serve root bench).run s.io) }
  | .start t =>
    if s.tick.isNone ∧ s.stopped = false then
      { s with tick := some (t, agenda engine.devices) }
    else s
  | .act =>
    match s.tick with
    | none => s
    | some (_, []) => { s with tick := none }
    | some (t, action :: rest) =>
      match (action.perform P t engine).run ⟨s.io, s.objects⟩ with
      | .ok _ w => { s with io := w.io, objects := w.objects, tick := some (t, rest) }
      | .error _ w => { s with io := w.io, objects := w.objects, tick := none, stopped := true }

/-- The plant after these events. -/
def run (s : Plant R) (events : List PlantEvent) : Plant R := events.foldl (next P engine root bench) s

/-- Left alone, the actions of a tick do what the tick of the code does. -/
theorem run_acts {s : Plant R} {t : Double} {actions : List Action} (htick : s.tick = some (t, actions))
    {w : World InMemoryUnidriverIo R} (hrun : (performAll P t engine actions).run ⟨s.io, s.objects⟩ = .ok () w) :
    let s' := s.run P engine root bench (List.replicate actions.length .act)
    s'.io = w.io ∧ s'.objects = w.objects ∧ s'.tick = some (t, []) := by
  induction actions generalizing s with
  | nil =>
    cases hrun
    exact ⟨rfl, rfl, htick⟩
  | cons action rest ih =>
    obtain ⟨u, v, hfirst, hrest⟩ := bind_eq_ok hrun
    rw [List.length_cons, List.replicate_succ, run, List.foldl_cons, ← run]
    have hnext : s.next P engine root bench .act =
        { s with io := v.io, objects := v.objects, tick := some (t, rest) } := by
      unfold next
      simp only [htick, hfirst]
    rw [hnext]
    exact ih rfl hrest

/-! ## One event -/

/-- What is left of a tick are actions of the devices. -/
def OnAgenda (devices : List SimulatedDevice) (s : Plant R) : Prop :=
  ∀ t rest, s.tick = some (t, rest) → ∀ action ∈ rest, action ∈ agenda devices

/-- What an event does. -/
inductive Moved (devices : List SimulatedDevice) (s : Plant R) : PlantEvent → Plant R → Prop
  | refused {req : WriteRequest} {e : DeviceRouteError} (hplanned : req.planned bench = .error e) :
      Moved devices s (.request req) s
  | written {req : WriteRequest} {planned : PlannedWrite} {io : InMemoryUnidriverIo}
      (hplanned : req.planned bench = .ok planned) (hacc : planned.acc ∈ bench.accessors)
      (hstored : planned.acc.stored s.io.memory planned.coerced = .ok io.memory) :
      Moved devices s (.request req) { s with io := io }
  | started {t : Double} (htick : s.tick = none) :
      Moved devices s (.start t) { s with tick := some (t, agenda devices) }
  | busy {t : Double} : Moved devices s (.start t) s
  | idle (htick : s.tick = none) : Moved devices s .act s
  | ended {t : Double} (htick : s.tick = some (t, [])) : Moved devices s .act { s with tick := none }
  | loaded {t : Double} {d : SimulatedDevice} {entry : NetVar × Register} {rest : List Action} {io : InMemoryUnidriverIo}
      (htick : s.tick = some (t, .load d entry :: rest)) (hd : d ∈ devices) (hentry : entry ∈ d.registers)
      (hmemory : io.memory = s.io.memory) :
      Moved devices s .act
        { s with io := io, objects := Simulation.loaded s.io.memory d.scheme [entry] s.objects, tick := some (t, rest) }
  | silent {t : Double} {d : SimulatedDevice} {entry : NetVar × Register} {rest : List Action}
      (htick : s.tick = some (t, .publish d entry :: rest)) :
      Moved devices s .act { s with tick := some (t, rest) }
  | published {t : Double} {d : SimulatedDevice} {entry : NetVar × Register} {rest : List Action}
      {acc : NetVarAccessor} {io : InMemoryUnidriverIo} {objects : Objects R}
      (htick : s.tick = some (t, .publish d entry :: rest)) (hd : d ∈ devices) (hentry : entry ∈ d.registers)
      (hsignal : d.signals.get? entry.1.name ≠ none) (hacc : d.scheme.get? entry.1.name = some acc)
      (hstored : acc.stored s.io.memory (objects.values entry.2) = .ok io.memory)
      (hothers : ∀ r ≠ entry.2, objects.values r = s.objects.values r) :
      Moved devices s .act { s with io := io, objects := objects, tick := some (t, rest) }
  | crashed {t : Double} {actions : List Action} {io : InMemoryUnidriverIo} {objects : Objects R}
      (htick : s.tick = some (t, actions)) (hmemory : io.memory = s.io.memory) :
      Moved devices s .act { s with io := io, objects := objects, tick := none, stopped := true }

variable {P engine root bench}

theorem mem_agenda {devices : List SimulatedDevice} {action : Action} (h : action ∈ agenda devices) :
    ∃ d ∈ devices, d.device.enabled = true ∧ ∃ entry ∈ d.registers, action = .load d entry ∨ action = .publish d entry := by
  obtain ⟨d, hd, ha⟩ := List.mem_flatMap.mp h
  rw [SimulatedDevice.actions] at ha
  split at ha
  · next henabled =>
    refine ⟨d, hd, henabled, (List.mem_append.mp ha).elim (fun ha => ?_) (fun ha => ?_)⟩
    · obtain ⟨entry, hentry, rfl⟩ := List.mem_map.mp ha
      exact ⟨entry, hentry, .inl rfl⟩
    · obtain ⟨entry, hentry, rfl⟩ := List.mem_map.mp ha
      exact ⟨entry, hentry, .inr rfl⟩
  · cases ha

theorem moved_next {devices : List SimulatedDevice} (hdevices : engine.devices = devices)
    (hschemes : ∀ d ∈ devices, engine.schemes.get? d.handle = some d.scheme) {s : Plant R} (hagenda : OnAgenda devices s)
    (event : PlantEvent) : Moved bench devices s event (s.next P engine root bench event) := by
  cases event with
  | request req =>
    have hnext : ∀ io, final ((req.serve root bench).run s.io) = io →
        s.next P engine root bench (.request req) = { s with io := io } := by
      rintro io rfl
      rfl
    cases hplanned : req.planned bench with
    | error e =>
      have hrun : (req.serve root bench).run s.io = .error e s.io := by
        rw [WriteRequest.serve, DeviceRoutes.writeValue_planned, ← WriteRequest.planned, hplanned]
      rw [hnext s.io (congrArg final hrun)]
      exact .refused hplanned
    | ok planned =>
      obtain ⟨_, -, -, -, hin, hpacks⟩ := DeviceService.planned_addressed (DeviceRoutes.planned_service hplanned)
      obtain ⟨io, hset, hstored, -⟩ :=
        NetVarAccessor.set_inMemory (bench.accessors_independent.wf _ hin) hpacks s.io
      have hfinal : final ((req.serve root bench).run s.io) = io := by
        rw [WriteRequest.serve_of_planned hplanned hset]
        split <;> rfl
      rw [hnext io hfinal]
      exact .written hplanned hin hstored
  | start t =>
    unfold next
    simp only [hdevices]
    split
    · next h => exact .started (Option.isNone_iff_eq_none.mp h.1)
    · exact .busy
  | act =>
    cases htick : s.tick with
    | none =>
      have hnext : s.next P engine root bench .act = s := by
        unfold next
        simp only [htick]
      rw [hnext]
      exact .idle htick
    | some tick =>
      obtain ⟨t, actions⟩ := tick
      cases actions with
      | nil =>
        have hnext : s.next P engine root bench .act = { s with tick := none } := by
          unfold next
          simp only [htick]
        rw [hnext]
        exact .ended htick
      | cons action rest =>
        obtain ⟨d, hd, -, entry, hentry, haction⟩ := mem_agenda (hagenda t _ htick action List.mem_cons_self)
        have hok : ∀ w, (action.perform P t engine).run ⟨s.io, s.objects⟩ = .ok () w →
            s.next P engine root bench .act =
              { s with io := w.io, objects := w.objects, tick := some (t, rest) } := by
          intro w hrun
          unfold next
          simp only [htick, hrun]
        refine haction.elim (fun he => ?_) (fun he => ?_)
        · subst he
          obtain ⟨io, hrun, hmemory⟩ := load_one hentry ⟨s.io, s.objects⟩
          rw [hok _ (by simp only [Action.perform, hschemes d hd]; exact hrun)]
          exact .loaded htick hd hentry hmemory
        · subst he
          obtain ⟨acc, hacc, -⟩ := covers_registers d entry hentry
          obtain ⟨e, w, hrun, hmemory⟩ | ⟨w, hrun, hcases⟩ := publish_one P t hacc ⟨s.io, s.objects⟩
          · have hnext : s.next P engine root bench .act =
                { s with io := w.io, objects := w.objects, tick := none, stopped := true } := by
              have hperform : ((Action.publish d entry).perform P t engine).run ⟨s.io, s.objects⟩ = .error e w := by
                simp only [Action.perform, hschemes d hd]
                exact hrun
              unfold next
              simp only [htick, hperform]
            rw [hnext]
            exact .crashed htick hmemory
          · rw [hok w (by simp only [Action.perform, hschemes d hd]; exact hrun)]
            obtain ⟨-, he⟩ | ⟨hsignal, hstored, hothers⟩ := hcases
            · rw [he]
              exact .silent htick
            · exact .published htick hd hentry hsignal hacc hstored hothers

theorem onAgenda_moved {devices : List SimulatedDevice} {s s' : Plant R} {event : PlantEvent}
    (h : OnAgenda devices s) (hmoved : Moved bench devices s event s') : OnAgenda devices s' := by
  have hrest : ∀ {t : Double} {action : Action} {rest : List Action}, s.tick = some (t, action :: rest) →
      ∀ a ∈ rest, a ∈ agenda devices :=
    fun htick a ha => h _ _ htick a (List.mem_cons_of_mem _ ha)
  cases hmoved with
  | refused => exact h
  | written => exact h
  | started htick =>
    intro t rest he
    cases he
    exact fun _ ha => ha
  | busy => exact h
  | idle => exact h
  | ended => exact fun _ _ he => (nomatch he)
  | loaded htick =>
    intro t rest he
    cases he
    exact hrest htick
  | silent htick =>
    intro t rest he
    cases he
    exact hrest htick
  | published htick =>
    intro t rest he
    cases he
    exact hrest htick
  | crashed => exact fun _ _ he => (nomatch he)

/-! ## Commands -/

theorem lastCommand_snoc (bench : Bench) (acc : NetVarAccessor) (events : List PlantEvent) (event : PlantEvent) :
    lastCommand bench acc (events ++ [event]) = (command? bench acc event).or (lastCommand bench acc events) := by
  rw [lastCommand, List.filterMap_append]
  cases hcommand : command? bench acc event with
  | none =>
    rw [List.filterMap_cons_none hcommand, List.filterMap_nil, List.append_nil]
    rfl
  | some v =>
    rw [List.filterMap_cons_some hcommand, List.filterMap_nil, List.getLast?_concat]
    rfl

/-- The place of the accessor holds the last command, or what it held at first. -/
def Held (bench : Bench) (acc : NetVarAccessor) (m₀ : ByteMemory ℤ) (events : List PlantEvent) (m : ByteMemory ℤ) : Prop :=
  (∀ v, lastCommand bench acc events = some v → acc.Holds m v) ∧
    (lastCommand bench acc events = none → m₀.SameOn m acc.handle acc.start acc.stop)

section
variable {acc : NetVarAccessor} {m₀ m m' : ByteMemory ℤ} {events : List PlantEvent} {event : PlantEvent}

theorem Held.keep (h : Held bench acc m₀ events m) (hw : acc.Wf)
    (hsame : m.SameOn m' acc.handle acc.start acc.stop) (hnone : command? bench acc event = none) :
    Held bench acc m₀ (events ++ [event]) m' := by
  have hlast : lastCommand bench acc (events ++ [event]) = lastCommand bench acc events := by
    rw [lastCommand_snoc, hnone, Option.none_or]
  rw [Held, hlast]
  exact ⟨fun v hv => (NetVarAccessor.holds_congr hw hsame).mp (h.1 v hv), fun hv q hlo hhi =>
    (h.2 hv q hlo hhi).trans (hsame q hlo hhi)⟩

theorem Held.command {v : Number} (hcommand : command? bench acc event = some v) (hholds : acc.Holds m' v) :
    Held bench acc m₀ (events ++ [event]) m' := by
  have hlast : lastCommand bench acc (events ++ [event]) = some v := by
    rw [lastCommand_snoc, hcommand]
    rfl
  rw [Held, hlast]
  refine ⟨fun u hu => ?_, fun hu => nomatch hu⟩
  cases hu
  exact hholds

end

section
variable {devices : List SimulatedDevice} {handles : (devices.map SimulatedDevice.handle).Nodup} {d d' : SimulatedDevice}
  {name name' : String} {acc acc' : NetVarAccessor}

theorem mem_benchOf (handles : (devices.map SimulatedDevice.handle).Nodup) (hd : d ∈ devices) (hacc : d.scheme.get? name = some acc) :
    acc ∈ (benchOf devices handles).accessors := by
  have hget : (attachDevice d.device d.handle).scheme.get? name = some acc := hacc
  exact Bench.mem_accessors (List.mem_map.mpr ⟨d, hd, rfl⟩) (Bench.mem_of_scheme_get? hget)

/-- An accessor belongs to one name of one device. -/
theorem scheme_unique (handles : (devices.map SimulatedDevice.handle).Nodup) (hd : d ∈ devices) (hd' : d' ∈ devices)
    (hacc : d.scheme.get? name = some acc) (hacc' : d'.scheme.get? name' = some acc) : d' = d ∧ name' = name := by
  have hhandle : d'.handle = d.handle := (wf_of_scheme hacc').2.symm.trans (wf_of_scheme hacc).2
  exact ⟨List.inj_on_of_nodup_map handles hd' hd hhandle, (name_of_scheme hacc').symm.trans (name_of_scheme hacc)⟩

/-- An object belongs to one variable of one device. -/
theorem entry_unique (handles : (devices.map SimulatedDevice.handle).Nodup) (hd : d ∈ devices) (hd' : d' ∈ devices)
    {entry entry' : NetVar × Register} (hentry : entry ∈ d.registers) (hentry' : entry' ∈ d'.registers)
    (he : entry'.2 = entry.2) : d' = d ∧ entry' = entry := by
  obtain ⟨i, -, hi⟩ := mem_registers.mp hentry
  obtain ⟨i', -, hi'⟩ := mem_registers.mp hentry'
  have hhandle : d'.handle = d.handle := by
    rw [hi, hi'] at he
    exact congrArg Register.handle he
  obtain rfl := List.inj_on_of_nodup_map handles hd' hd hhandle
  exact ⟨rfl, List.inj_on_of_nodup_map (nodup_registers d') hentry' hentry he⟩

theorem held_moved {m₀ : ByteMemory ℤ} {events : List PlantEvent} {event : PlantEvent} {s s' : Plant R}
    (hd : d ∈ devices) (hacc : d.scheme.get? name = some acc) (hsignal : d.signals.get? name = none)
    (h : Held (benchOf devices handles) acc m₀ events s.io.memory)
    (hmoved : Moved (benchOf devices handles) devices s event s') :
    Held (benchOf devices handles) acc m₀ (events ++ [event]) s'.io.memory := by
  have hin := mem_benchOf handles hd hacc
  have hind := (benchOf devices handles).accessors_independent
  have hw := hind.wf acc hin
  have hrefl := ByteMemory.SameOn.refl s.io.memory acc.handle acc.start acc.stop
  cases hmoved with
  | refused hplanned => exact h.keep hw hrefl (by simp only [command?, hplanned])
  | @written req planned io hplanned hp hstored =>
    by_cases he : planned.acc = acc
    · rw [he] at hstored
      exact .command (by simp only [command?, hplanned, if_pos he]) (NetVarAccessor.holds_stored hw hstored)
    · refine h.keep hw ?_ (by simp only [command?, hplanned, if_neg he])
      exact NetVarAccessor.sameOn_stored (hind.wf _ hp) (hind.disjoint_of_mem hp hin he) hstored
  | started => exact h.keep hw hrefl rfl
  | busy => exact h.keep hw hrefl rfl
  | idle => exact h.keep hw hrefl rfl
  | ended => exact h.keep hw hrefl rfl
  | loaded _ _ _ hmemory => exact h.keep hw (by rw [hmemory]; exact hrefl) rfl
  | silent => exact h.keep hw hrefl rfl
  | published _ hd' _ hsome hacc' hstored _ =>
    refine h.keep hw ?_ rfl
    have hin' := mem_benchOf handles hd' hacc'
    refine NetVarAccessor.sameOn_stored (hind.wf _ hin') (hind.disjoint_of_mem hin' hin (fun he => ?_)) hstored
    subst he
    obtain ⟨rfl, rfl⟩ := scheme_unique handles hd hd' hacc hacc'
    exact hsome hsignal
  | crashed _ hmemory => exact h.keep hw (by rw [hmemory]; exact hrefl) rfl

/-! ## What the signals see -/

/-- While the engine is in a tick and has loaded the variable, its object has the value of the buffer at a moment since
that tick began. -/
def Seen (at' : List PlantEvent → Plant R) (d : SimulatedDevice) (entry : NetVar × Register) (acc : NetVarAccessor)
    (events : List PlantEvent) : Prop :=
  ∀ t rest, (at' events).tick = some (t, rest) → .load d entry ∉ rest →
    ∃ before after, events = before ++ after ∧ (∀ mid, mid <+: after → (at' (before ++ mid)).tick ≠ none) ∧
      (at' events).objects.values entry.2 = acc.shown (at' before).io.memory

/-- The object has kept its value. -/
theorem Seen.keep {at' : List PlantEvent → Plant R} {entry : NetVar × Register} {events : List PlantEvent}
    {event : PlantEvent} (h : Seen at' d entry acc events)
    (hbefore : ∀ t rest, (at' (events ++ [event])).tick = some (t, rest) → .load d entry ∉ rest →
      ∃ rest', (at' events).tick = some (t, rest') ∧ .load d entry ∉ rest')
    (hvalue : (at' (events ++ [event])).objects.values entry.2 = (at' events).objects.values entry.2) :
    Seen at' d entry acc (events ++ [event]) := by
  intro t rest htick hload
  obtain ⟨rest', htick', hload'⟩ := hbefore t rest htick hload
  obtain ⟨before, after, rfl, hin, hseen⟩ := h t rest' htick' hload'
  refine ⟨before, after ++ [event], List.append_assoc _ _ _, fun mid hmid => ?_, hvalue.trans hseen⟩
  refine (List.prefix_concat_iff.mp hmid).elim (fun he => ?_) (hin mid)
  rw [he, ← List.append_assoc, htick]
  exact Option.some_ne_none _

theorem seen_moved {at' : List PlantEvent → Plant R} {entry : NetVar × Register} {events : List PlantEvent}
    {event : PlantEvent} (hd : d ∈ devices) (henabled : d.device.enabled = true) (hentry : entry ∈ d.registers)
    (hmode : entry.1.mode ≠ .R) (hsignal : d.signals.get? entry.1.name = none)
    (hacc : d.scheme.get? entry.1.name = some acc) (h : Seen at' d entry acc events)
    (hmoved : Moved (benchOf devices handles) devices (at' events) event (at' (events ++ [event]))) :
    Seen at' d entry acc (events ++ [event]) := by
  generalize hs' : at' (events ++ [event]) = s' at hmoved
  have hdone : ∀ {t : Double} {action : Action} {rest : List Action}, (at' events).tick = some (t, action :: rest) →
      s'.tick = some (t, rest) → action ≠ .load d entry →
      s'.objects.values entry.2 = (at' events).objects.values entry.2 → Seen at' d entry acc (events ++ [event]) := by
    intro t action rest htick htick' hne hvalue
    refine h.keep (fun t' rest' he hload => ?_) (hs' ▸ hvalue)
    rw [hs', htick'] at he
    cases he
    exact ⟨_, htick, List.not_mem_cons_of_ne_of_not_mem (Ne.symm hne) hload⟩
  cases hmoved with
  | refused => exact h.keep (fun t rest htick hload => ⟨rest, by rw [← hs', htick], hload⟩) (by rw [hs'])
  | written =>
    refine h.keep (fun t rest htick hload => ⟨rest, ?_, hload⟩) (by rw [hs'])
    rw [hs'] at htick
    exact htick
  | started =>
    intro t rest htick hload
    rw [hs'] at htick
    cases htick
    refine absurd (List.mem_flatMap.mpr ⟨d, hd, ?_⟩) hload
    rw [SimulatedDevice.actions, if_pos henabled]
    exact List.mem_append_left _ (List.mem_map_of_mem hentry)
  | busy => exact h.keep (fun t rest htick hload => ⟨rest, by rw [← hs', htick], hload⟩) (by rw [hs'])
  | idle => exact h.keep (fun t rest htick hload => ⟨rest, by rw [← hs', htick], hload⟩) (by rw [hs'])
  | ended =>
    intro t rest htick
    rw [hs'] at htick
    cases htick
  | @loaded t d' entry' rest io htick hd' hentry' hmemory =>
    by_cases he : entry'.2 = entry.2
    · obtain ⟨rfl, rfl⟩ := entry_unique handles hd hd' hentry hentry' he
      intro t' rest' htick' _
      refine ⟨events, [.act], rfl, fun mid hmid => ?_, ?_⟩
      · obtain hnil | ⟨rest, hcons, hrest⟩ := List.prefix_cons_iff.mp hmid
        · rw [hnil, List.append_nil, htick]
          exact Option.some_ne_none _
        · rw [hcons, List.prefix_nil.mp hrest, htick']
          exact Option.some_ne_none _
      · rw [hs']
        have hnodup : ([entry'].map Prod.snd).Nodup := List.nodup_singleton _
        exact loaded_values_of_mem hnodup (List.mem_singleton_self _) hmode hacc _
    · have hnot : entry.2 ∉ [entry'].map Prod.snd := by
        rw [List.map_singleton, List.mem_singleton]
        exact Ne.symm he
      refine hdone htick rfl (fun hload => ?_) (loaded_values_of_not_mem hnot _)
      cases hload
      exact he rfl
  | silent htick => exact hdone htick rfl (fun hload => nomatch hload) rfl
  | @published t d' entry' rest acc' io objects htick hd' hentry' hsome hacc' hstored hothers =>
    refine hdone htick rfl (fun hload => nomatch hload) (hothers entry.2 (fun he => ?_))
    obtain ⟨rfl, rfl⟩ := entry_unique handles hd hd' hentry hentry' he.symm
    exact hsome hsignal
  | crashed =>
    intro t rest htick
    rw [hs'] at htick
    cases htick

/-! ## What the signals give -/

/-- With distinct names the accessor of a variable is its own. -/
theorem var_of_scheme (hnames : d.device.DistinctNames) {entry : NetVar × Register} (hentry : entry ∈ d.registers)
    (hacc : d.scheme.get? entry.1.name = some acc) : acc.var = entry.1 := by
  obtain ⟨i, hi, -⟩ := mem_registers.mp hentry
  have hvar : entry.1 ∈ (buildScheme d.handle d.device.vars).map NetVarAccessor.var := by
    rw [buildScheme_var]
    exact List.mem_of_getElem? hi
  obtain ⟨own, hown, hvar⟩ := List.mem_map.mp hvar
  have hget : d.scheme.get? own.var.name = some own := hnames.get?_scheme hown
  rw [hvar, hacc] at hget
  rw [Option.some.inj hget, hvar]

theorem entry_of_name (hnames : d.device.DistinctNames) {entry entry' : NetVar × Register} (hentry : entry ∈ d.registers)
    (hentry' : entry' ∈ d.registers) (hname : entry'.1.name = entry.1.name) : entry' = entry := by
  obtain ⟨i, hi, hr⟩ := mem_registers.mp hentry
  obtain ⟨i', hi', hr'⟩ := mem_registers.mp hentry'
  have hget : ∀ {j : ℕ} {var : NetVar}, d.device.vars[j]? = some var →
      (d.device.vars.map NetVar.name)[j]? = some var.name := by
    intro j var hj
    rw [List.getElem?_map, hj, Option.map_some]
  have hsame : (d.device.vars.map NetVar.name)[i']? = (d.device.vars.map NetVar.name)[i]? := by
    rw [hget hi, hget hi', hname]
  have hlt : i' < (d.device.vars.map NetVar.name).length := (List.getElem?_eq_some_iff.mp (hget hi')).1
  obtain rfl : i' = i := (List.getElem?_inj hlt hnames).mp hsame
  exact Prod.ext (Option.some.inj (hi'.symm.trans hi)) (hr'.trans hr.symm)

/-- A command is for a variable that a client may write. -/
theorem mode_of_planned (hnames : ∀ d ∈ devices, d.device.DistinctNames) {req : WriteRequest} {planned : PlannedWrite}
    (h : req.planned (benchOf devices handles) = .ok planned) : planned.acc.var.mode ≠ .R := by
  have hservice := DeviceRoutes.planned_service h
  obtain ⟨addressed, haddressed, hvar, -⟩ := DeviceService.planned_addressed hservice
  obtain ⟨found, hfound, -⟩ := Bench.device?_of_addressed haddressed
  obtain ⟨d, hd, hpair⟩ := List.mem_map.mp (Bench.mem_of_device? hfound)
  have hdistinct : found.1.DistinctNames := hpair ▸ hnames d hd
  have htarget := Bench.target_of_distinct hfound hdistinct haddressed
  rw [DeviceService.planned_target hservice] at htarget
  rw [Option.some.inj htarget, hvar]
  exact DeviceService.planned_mode hservice

/-- As long as the engine runs, the buffer holds what the signal has given last, or both are as at first. -/
def Shows (acc : NetVarAccessor) (r : Register) (s₀ s : Plant R) : Prop :=
  s.stopped = false → acc.Holds s.io.memory (s.objects.values r) ∨
    s.objects.values r = s₀.objects.values r ∧ s₀.io.memory.SameOn s.io.memory acc.handle acc.start acc.stop

theorem Shows.keep {r : Register} {s₀ s s' : Plant R} (h : Shows acc r s₀ s) (hw : acc.Wf)
    (hstopped : s'.stopped = false → s.stopped = false)
    (hsame : s.io.memory.SameOn s'.io.memory acc.handle acc.start acc.stop)
    (hvalue : s'.objects.values r = s.objects.values r) : Shows acc r s₀ s' := by
  intro hrunning
  rw [hvalue]
  refine (h (hstopped hrunning)).imp (fun hholds => ?_) (fun hsame' => ⟨hsame'.1, fun q hlo hhi => ?_⟩)
  · exact (NetVarAccessor.holds_congr hw hsame).mp hholds
  · exact (hsame'.2 q hlo hhi).trans (hsame q hlo hhi)

theorem shows_moved (hnames : ∀ d ∈ devices, d.device.DistinctNames) {entry : NetVar × Register} {event : PlantEvent}
    {s₀ s s' : Plant R} (hd : d ∈ devices) (hentry : entry ∈ d.registers) (hmode : entry.1.mode = .R)
    (hacc : d.scheme.get? entry.1.name = some acc) (h : Shows acc entry.2 s₀ s)
    (hmoved : Moved (benchOf devices handles) devices s event s') : Shows acc entry.2 s₀ s' := by
  have hin := mem_benchOf handles hd hacc
  have hind := (benchOf devices handles).accessors_independent
  have hw := hind.wf acc hin
  have hrefl := ByteMemory.SameOn.refl s.io.memory acc.handle acc.start acc.stop
  cases hmoved with
  | refused => exact h
  | @written req planned io hplanned hp hstored =>
    refine h.keep hw id (NetVarAccessor.sameOn_stored (hind.wf _ hp) (hind.disjoint_of_mem hp hin (fun he => ?_)) hstored) rfl
    refine mode_of_planned hnames hplanned ?_
    rw [he, var_of_scheme (hnames d hd) hentry hacc]
    exact hmode
  | started => exact h.keep hw id hrefl rfl
  | busy => exact h
  | idle => exact h
  | ended => exact h.keep hw id hrefl rfl
  | @loaded t d' entry' rest io htick hd' hentry' hmemory =>
    refine h.keep hw id (by rw [hmemory]; exact hrefl) ?_
    by_cases he : entry'.2 = entry.2
    · obtain ⟨rfl, rfl⟩ := entry_unique handles hd hd' hentry hentry' he
      simp only [Simulation.loaded, hmode, if_true]
    · have hnot : entry.2 ∉ [entry'].map Prod.snd := by
        rw [List.map_singleton, List.mem_singleton]
        exact Ne.symm he
      exact loaded_values_of_not_mem hnot _
  | silent => exact h.keep hw id hrefl rfl
  | @published t d' entry' rest acc' io objects htick hd' hentry' hsome hacc' hstored hothers =>
    by_cases he : entry'.2 = entry.2
    · obtain ⟨rfl, rfl⟩ := entry_unique handles hd hd' hentry hentry' he
      rw [hacc] at hacc'
      cases hacc'
      exact fun _ => .inl (NetVarAccessor.holds_stored hw hstored)
    · have hin' := mem_benchOf handles hd' hacc'
      refine h.keep hw id (NetVarAccessor.sameOn_stored (hind.wf _ hin') (hind.disjoint_of_mem hin' hin (fun hsame => ?_))
        hstored) (hothers entry.2 (Ne.symm he))
      subst hsame
      obtain ⟨rfl, hname⟩ := scheme_unique handles hd hd' hacc hacc'
      exact he (congrArg Prod.snd (entry_of_name (hnames d' hd') hentry hentry' hname))
  | crashed => exact fun hrunning => absurd hrunning (Bool.false_ne_true ∘ Eq.symm)

/-! ## Runs -/

variable {w₀ w : World InMemoryUnidriverIo R}

/-- A tick between which and its end nothing is requested is the tick of the code. -/
theorem run_tick (P : Platform R) (root : LogLevel) (bench : Bench)
    (hbuilt : (SimulationEngine.build devices).run w₀ = .ok engine w) {s : Plant R} (htick : s.tick = none)
    (hrunning : s.stopped = false) {t : Double} {w' : World InMemoryUnidriverIo R}
    (hrun : (engine.tick P t).run ⟨s.io, s.objects⟩ = .ok () w') :
    let s' := s.run P engine root bench (.start t :: List.replicate (agenda devices).length .act)
    s'.io = w'.io ∧ s'.objects = w'.objects ∧ s'.tick = some (t, []) := by
  obtain ⟨hdevices, -, hschemes⟩ := build_ok hbuilt
  rw [SimulationEngine.tick, hdevices, ← performAll_agenda P t hschemes] at hrun
  have hnext : s.next P engine root bench (.start t) = { s with tick := some (t, agenda devices) } := by
    unfold next
    simp only [htick, hrunning, hdevices, Option.isNone_none, and_self, if_true]
  rw [run, List.foldl_cons, hnext, ← run]
  exact run_acts P engine root bench rfl hrun

theorem run_snoc (P : Platform R) (engine : SimulationEngine) (root : LogLevel) (bench : Bench) (s : Plant R)
    (events : List PlantEvent) (event : PlantEvent) :
    s.run P engine root bench (events ++ [event]) = (s.run P engine root bench events).next P engine root bench event := by
  rw [run, List.foldl_append]
  rfl

/-- However the actions of the ticks and the write requests fall among each other: a variable that no signal drives holds
the last command accepted for it; while a tick of its enabled device goes on, what has been loaded of it, if clients may
write it, is what the buffer held at a moment since that tick began; and as long as the engine runs, a variable that no
client may write holds what its signal has given last, or what both were at first. -/
theorem plant_keeps_commands (P : Platform R) (root : LogLevel)
    (hbuilt : (SimulationEngine.build devices).run w₀ = .ok engine w) (hnames : ∀ d ∈ devices, d.device.DistinctNames)
    (events : List PlantEvent) :
    let bench := benchOf devices (build_ok hbuilt).2.1
    let s₀ : Plant R := { io := w.io, objects := w.objects }
    let at' := s₀.run P engine root bench
    ∀ d ∈ devices, ∀ entry ∈ d.registers, ∀ acc, d.scheme.get? entry.1.name = some acc →
      (d.signals.get? entry.1.name = none → Held bench acc s₀.io.memory events (at' events).io.memory) ∧
      (d.signals.get? entry.1.name = none → entry.1.mode ≠ .R → d.device.enabled = true → Seen at' d entry acc events) ∧
      (entry.1.mode = .R → Shows acc entry.2 s₀ (at' events)) := by
  intro bench s₀ at'
  obtain ⟨hdevices, handles, hschemes⟩ := build_ok hbuilt
  have hagenda : ∀ events, OnAgenda devices (at' events) := by
    intro events
    induction events using List.reverseRecOn with
    | nil => exact fun _ _ he => nomatch he
    | append_singleton events event ih =>
      rw [show at' (events ++ [event]) = (at' events).next P engine root bench event from run_snoc ..]
      exact onAgenda_moved ih (moved_next hdevices hschemes ih event)
  have hmoved : ∀ events event, Moved bench devices (at' events) event (at' (events ++ [event])) := by
    intro events event
    rw [show at' (events ++ [event]) = (at' events).next P engine root bench event from run_snoc ..]
    exact moved_next hdevices hschemes (hagenda events) event
  intro d hd entry hentry acc hacc
  refine ⟨fun hsignal => ?_, fun hsignal hmode henabled => ?_, fun hmode => ?_⟩
  · induction events using List.reverseRecOn with
    | nil => exact ⟨fun _ hv => (nomatch hv), fun _ => .refl _ _ _ _⟩
    | append_singleton events event ih => exact held_moved hd hacc hsignal ih (hmoved events event)
  · induction events using List.reverseRecOn with
    | nil => exact fun _ _ he => nomatch he
    | append_singleton events event ih =>
      exact seen_moved hd henabled hentry hmode hsignal hacc ih (hmoved events event)
  · induction events using List.reverseRecOn with
    | nil => exact fun _ => .inr ⟨rfl, .refl _ _ _ _⟩
    | append_singleton events event ih => exact shows_moved hnames hd hentry hmode hacc ih (hmoved events event)

end
end Plant

/-! ## A command in the middle of a tick -/

def setpointCommand : WriteRequest := ⟨⟨1, "dev", "", .DEV, true⟩, "repeater", "setpoint", .int 20⟩

theorem lastCommand_setpoint (handles : ([repeater].map SimulatedDevice.handle).Nodup) {acc : NetVarAccessor}
    (hacc : repeater.scheme.get? "setpoint" = some acc) :
    lastCommand (benchOf [repeater] handles) acc [.start 0, .act, .request setpointCommand, .act] = some (.int 20) := by
  cases hacc
  rfl

/-- The engine has begun a tick and loaded the first variable when the command is accepted. -/
theorem repeater_commanded : ∃ engine w, ∃ hbuilt : (SimulationEngine.build [repeater]).run (freshWorld ⟨.empty⟩) =
      .ok engine w, (∀ d ∈ [repeater], d.device.DistinctNames) ∧ ∀ acc, repeater.scheme.get? "setpoint" = some acc →
        acc.Holds (({ io := w.io, objects := w.objects } : Plant Unit).run quiet engine .INFO
          (benchOf [repeater] (build_ok hbuilt).2.1) [.start 0, .act, .request setpointCommand, .act]).io.memory (.int 20) := by
  obtain ⟨engine, w, hbuilt⟩ : ∃ engine w, (SimulationEngine.build [repeater]).run (freshWorld ⟨.empty⟩) =
      .ok engine w := ⟨_, _, rfl⟩
  have hnames : ∀ d ∈ [repeater], d.device.DistinctNames := by
    intro d hd
    cases List.mem_singleton.mp hd
    show (["copy", "setpoint"] : List String).Nodup
    decide
  refine ⟨engine, w, hbuilt, hnames, fun acc hacc => ?_⟩
  exact ((Plant.plant_keeps_commands quiet .INFO hbuilt hnames [.start 0, .act, .request setpointCommand, .act] repeater
    List.mem_cons_self ⟨⟨"setpoint", .U8, .RW, .int 0⟩, ⟨1, 1⟩⟩ (by decide) acc hacc).1 rfl).1 _
    (lastCommand_setpoint _ hacc)

end Tstlan.Simulation
