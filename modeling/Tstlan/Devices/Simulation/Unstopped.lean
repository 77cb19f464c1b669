import Tstlan.Devices.Simulation.Reach

/-! # The engine goes on

An engine stops at the first exception of a tick. Over devices whose samples stay within bounds that their C types can
take, no tick raises one: not after any command of a client, and not if it comes between two calls of the driver. -/
namespace Tstlan.Simulation
open Foundations
open Binary (Double)
set_option autoImplicit false

section
variable {R : Type} {P : Platform R} {t : Double} {limit : ℕ} {d : SimulatedDevice} {entry : NetVar × Register}

/-! ## One sample -/

theorem takes_fits {c : NetVarCType} {r : Reach} {x : Double} (htakes : takes c r = true) (hx : r.Holds x) :
    ∃ y, fitValue P c (.number (.float x)) = .ok y ∧ c.Accepts y := by
  have hfloat (hc : c ∈ floatTypes) (hnarrow : c = .F32 → (Binary.narrow x).isSome = true) :
      ∃ y, fitValue P c (.number (.float x)) = .ok y ∧ c.Accepts y :=
    ⟨.float x, fitValue_eq_ok.mpr (.inl ⟨hc, x, rfl, rfl⟩), (accepts_float_iff hc).mpr hnarrow⟩
  have hinteger {low high : ℤ} (hrange : intRange c = some (low, high)) (hsteady : r.steady = true) :
      ∃ y, fitValue P c (.number (.float x)) = .ok y ∧ c.Accepts y := by
    obtain ⟨k, hk⟩ := Number.round_of_finite (n := .float x) (hx.1 hsteady)
    exact ⟨_, fitValue_eq_ok.mpr (.inr ⟨low, high, _, k, hrange, rfl, hk, rfl⟩), accepts_clamped hrange k⟩
  cases c with
  | F32 =>
    refine hfloat (by decide) (fun _ => Binary.narrow_isSome_iff.mpr (fun hfinite => ?_))
    exact (hx.2 hfinite).trans (of_decide_eq_true htakes)
  | F64 => exact hfloat (by decide) (fun h => (by cases h))
  | _ => exact hinteger rfl htakes

theorem accepts_shown {acc : NetVarAccessor} (hw : acc.Wf) (m : ByteMemory ℤ) : acc.var.ctype.Accepts (acc.shown m) :=
  NetVarAccessor.packs_ok_iff.mp
    (NetVarAccessor.packs_of_inRange hw (NetVarAccessor.inRange_of_value (NetVarAccessor.value_eq_shown acc m)))

theorem cells_loaded (m : ByteMemory ℤ) (scheme : Dict String NetVarAccessor) (entry : NetVar × Register)
    (objects : Objects R) : (loaded m scheme [entry] objects).cells = objects.cells := by
  simp only [loaded]
  split
  · rfl
  · split <;> rfl

/-- The devices as an engine may leave them between two actions. -/
structure Going (devices : List SimulatedDevice) (objects : Objects R) : Prop where
  values : ∀ d ∈ devices, ∀ entry ∈ d.registers, entry.1.ctype.Accepts (objects.values entry.2)
  walks : ∀ d ∈ devices, ∀ name signal, d.signals.get? name = some signal → Walks objects.cells signal.sources

variable {devices : List SimulatedDevice}

theorem accepts_of_typeOf {objects : Objects R} (h : Going devices objects) {register : Register} {c : NetVarCType}
    (hc : typeOf devices register = some c) : c.Accepts (objects.values register) := by
  obtain ⟨d, hd, htype⟩ := Option.bind_eq_some_iff.mp hc
  obtain ⟨var, hvar, rfl⟩ := Option.map_eq_some_iff.mp htype
  have hhandle : d.handle = register.handle := by simpa using List.find?_some hd
  refine h.values d (List.mem_of_find?_eq_some hd) (var, register) (mem_registers.mpr ⟨register.index, hvar, ?_⟩)
  rw [hhandle]

/-- A step writes the value of one variable. -/
theorem Going.assigned {objects objects' : Objects R} (h : Going devices objects)
    (handles : (devices.map SimulatedDevice.handle).Nodup) (hd : d ∈ devices) (hentry : entry ∈ d.registers)
    (hothers : ∀ r ≠ entry.2, objects'.values r = objects.values r) (hown : entry.1.ctype.Accepts (objects'.values entry.2))
    (hkeeps : KeepsWalks objects.cells objects'.cells) : Going devices objects' := by
  refine ⟨fun e he entry' hentry' => ?_, fun e he name signal hsignal => (h.walks e he name signal hsignal).keep hkeeps⟩
  by_cases hsame : entry'.2 = entry.2
  · obtain ⟨rfl, rfl⟩ := Plant.entry_unique handles hd he hentry hentry' hsame
    exact hown
  · rw [hothers _ hsame]
    exact h.values e he entry' hentry'

theorem load_going {objects : Objects R} (h : Going devices objects) (handles : (devices.map SimulatedDevice.handle).Nodup)
    (hd : d ∈ devices) (hnames : d.device.DistinctNames) (hentry : entry ∈ d.registers) (m : ByteMemory ℤ) :
    Going devices (loaded m d.scheme [entry] objects) := by
  refine h.assigned handles hd hentry (fun r hr => ?_) ?_ ?_
  · exact loaded_values_of_not_mem (by rw [List.map_singleton, List.mem_singleton]; exact hr) _
  · obtain ⟨acc, hacc, hw⟩ := covers_registers d entry hentry
    by_cases hmode : entry.1.mode = .R
    · simp only [loaded, hmode, if_true]
      exact h.values d hd entry hentry
    · have hnodup : ([entry].map Prod.snd).Nodup := List.nodup_singleton _
      rw [loaded_values_of_mem hnodup (List.mem_singleton_self _) hmode hacc, ← Plant.var_of_scheme hnames hentry hacc]
      exact accepts_shown hw _
  · rw [cells_loaded]
    exact .refl _

/-- A signal of such a device is published. -/
theorem publish_going (hP : Bounded P) (ht : t.magnitude ≤ limit) (hlimit : limit < Binary.infinity)
    (handles : (devices.map SimulatedDevice.handle).Nodup) (hd : d ∈ devices) (hnames : d.device.DistinctNames)
    (hsteady : d.steady limit (typeOf devices) = true) (hentry : entry ∈ d.registers) {w : World InMemoryUnidriverIo R}
    (h : Going devices w.objects) :
    ∃ w', (publish P t d.scheme d.signals [entry]).run w = .ok () w' ∧ Going devices w'.objects := by
  cases hsignal : d.signals.get? entry.1.name with
  | none =>
    refine ⟨w, ?_, h⟩
    simp only [publish, hsignal]
    rfl
  | some signal =>
    obtain ⟨i, hi, -⟩ := mem_registers.mp hentry
    have hvar := List.all_eq_true.mp hsteady entry.1 (List.mem_of_getElem? hi)
    simp only [hsignal] at hvar
    obtain ⟨r, hr, htakes⟩ : ∃ r, signal.reach limit (typeOf devices) = some r ∧ takes entry.1.ctype r = true := by
      simpa only [Option.any_eq_true] using hvar
    obtain ⟨x, cells, hyields, hholds, hkeeps⟩ := reach_yields hP ht hlimit (fun _ _ hc => accepts_of_typeOf h hc) hr
      (h.walks d hd _ _ hsignal)
    obtain ⟨y, hfit, haccepts⟩ := takes_fits (P := P) htakes hholds
    obtain ⟨acc, hacc, hw⟩ := covers_registers d entry hentry
    have hpacks : acc.packs y = .ok () :=
      NetVarAccessor.packs_ok_iff.mpr (by rw [Plant.var_of_scheme hnames hentry hacc]; exact haccepts)
    obtain ⟨m, hstored⟩ := NetVarAccessor.stored_of_packs hpacks w.io.memory
    obtain ⟨io, hset, -⟩ := NetVarAccessor.set_run (σ := InMemoryUnidriverIo) hw hstored
    have hsample : (onCells (fun values => sampleAt P t values signal)).run w.objects =
        .ok (.number (.float x)) { w.objects with cells := cells } :=
      onCells_run_ok_iff.mpr ⟨cells, sampleAt_ok_iff.mpr hyields, rfl⟩
    let objects : Objects R := (⟨w.objects.values, cells⟩ : Objects R).assign entry.2 y
    refine ⟨⟨io, objects⟩, ?_, h.assigned handles hd hentry (fun r hr => Function.update_of_ne hr _ _) ?_ hkeeps⟩
    · simp only [publish, hsignal, hacc]
      rw [run_bind_ok (onObjects_run_ok hsample), hfit, fromExcept_ok_bind, run_bind_ok (onObjects_run_ok (assign_run ..))]
      exact run_bind_ok (onIo_run_ok (w := ⟨w.io, objects⟩) hset)
    · rw [show objects.values entry.2 = y from Function.update_self ..]
      exact haccepts

/-! ## The start -/

/-- Every variable can be published. -/
theorem publishValues_ok_iff {scheme : Dict String NetVarAccessor} {vars : List NetVar}
    (hcovers : ∀ var ∈ vars, ∃ acc, scheme.get? var.name = some acc ∧ acc.Wf) (io : InMemoryUnidriverIo) :
    (∃ io', (publishValues scheme vars).run io = .ok () io') ↔
      ∀ var ∈ vars, ∀ acc, scheme.get? var.name = some acc → acc.var.ctype.Accepts var.value := by
  induction vars generalizing io with
  | nil => exact ⟨fun _ var hvar => absurd hvar List.not_mem_nil, fun _ => ⟨io, rfl⟩⟩
  | cons var rest ih =>
    obtain ⟨⟨acc, hacc, hw⟩, hrest⟩ := List.forall_mem_cons.mp hcovers
    rw [List.forall_mem_cons]
    simp only [publishValues, hacc, Option.some.injEq, forall_eq', ← NetVarAccessor.set_ok_iff hw io]
    constructor
    · rintro ⟨io', hrun⟩
      obtain ⟨u, io₁, hset, hmore⟩ := bind_eq_ok hrun
      exact ⟨⟨io₁, hset⟩, (ih hrest io₁).mp ⟨io', hmore⟩⟩
    · rintro ⟨⟨io₁, hset⟩, hmore⟩
      obtain ⟨io', hrun⟩ := (ih hrest io₁).mpr hmore
      exact ⟨io', (run_bind_ok hset).trans hrun⟩

/-- Every variable of the devices takes the value of its object. -/
def Publishable (devices : List SimulatedDevice) (objects : Objects R) : Prop :=
  ∀ d ∈ devices, ∀ entry ∈ d.registers, ∀ acc, d.scheme.get? entry.1.name = some acc →
    acc.var.ctype.Accepts (objects.values entry.2)

theorem publish_registers_iff (objects : Objects R) (io : InMemoryUnidriverIo) :
    (∃ io', (publishValues d.scheme (d.registers.map (fun p => { p.1 with value := objects.values p.2 }))).run io =
        .ok () io') ↔
      ∀ entry ∈ d.registers, ∀ acc, d.scheme.get? entry.1.name = some acc →
        acc.var.ctype.Accepts (objects.values entry.2) := by
  rw [publishValues_ok_iff]
  · exact List.forall_mem_map
  · rw [List.forall_mem_map]
    exact covers_registers d

theorem bindAll_publishable {schemes schemes' : Dict ℤ (Dict String NetVarAccessor)} {w w' : World InMemoryUnidriverIo R}
    (h : (bindAll schemes devices).run w = .ok schemes' w') : w'.objects = w.objects ∧ Publishable devices w.objects := by
  induction devices generalizing schemes w with
  | nil =>
    cases h
    exact ⟨rfl, fun d hd => absurd hd List.not_mem_nil⟩
  | cons d rest ih =>
    rw [bindAll] at h
    by_cases hused : (schemes.get? d.handle).isSome
    · simp only [hused, if_true] at h
      obtain ⟨u, w₁, hthrow, -⟩ := bind_eq_ok h
      cases hthrow
    · simp only [hused] at h
      obtain ⟨world, w₁, hget, h⟩ := bind_eq_ok h
      cases hget
      obtain ⟨u, w₂, hpublish, h⟩ := bind_eq_ok h
      cases hrun : (publishValues d.scheme (d.registers.map (fun p => { p.1 with value := w.objects.values p.2 }))).run w.io with
      | error e io =>
        rw [SimulatedDevice.scheme] at hrun
        rw [onIo_run_error hrun] at hpublish
        cases hpublish
      | ok a io =>
        have hstored := (publish_registers_iff w.objects w.io).mp ⟨io, hrun⟩
        rw [SimulatedDevice.scheme] at hrun
        rw [onIo_run_ok hrun] at hpublish
        cases hpublish
        obtain ⟨hobjects, hrest⟩ := ih h
        exact ⟨hobjects, List.forall_mem_cons.mpr ⟨hstored, hrest⟩⟩

theorem bindAll_runs {schemes : Dict ℤ (Dict String NetVarAccessor)} {w : World InMemoryUnidriverIo R}
    (hhandles : (devices.map SimulatedDevice.handle).Nodup) (hfresh : ∀ d ∈ devices, schemes.get? d.handle = none)
    (h : Publishable devices w.objects) : ∃ schemes' w', (bindAll schemes devices).run w = .ok schemes' w' := by
  induction devices generalizing schemes w with
  | nil => exact ⟨schemes, w, rfl⟩
  | cons d rest ih =>
    obtain ⟨hnew, hhandles⟩ := List.nodup_cons.mp hhandles
    obtain ⟨hnone, hfresh⟩ := List.forall_mem_cons.mp hfresh
    obtain ⟨hd, hrest⟩ := List.forall_mem_cons.mp h
    obtain ⟨io, hrun⟩ := (publish_registers_iff w.objects w.io).mpr hd
    rw [SimulatedDevice.scheme] at hrun
    have hfresh' : ∀ e ∈ rest, (schemes.set d.handle d.scheme).get? e.handle = none := by
      intro e he
      rw [Dict.get?_set_of_ne]
      · exact hfresh e he
      · exact fun heq => hnew (heq ▸ List.mem_map_of_mem he)
    obtain ⟨schemes', w', hmore⟩ := ih (w := { w with io := io }) hhandles hfresh' hrest
    refine ⟨schemes', w', ?_⟩
    rw [bindAll, hnone]
    exact (run_bind_ok (onIo_run_ok hrun)).trans hmore

theorem build_runs {w : World InMemoryUnidriverIo R} (hhandles : (devices.map SimulatedDevice.handle).Nodup)
    (h : Publishable devices w.objects) : ∃ engine w', (SimulationEngine.build devices).run w = .ok engine w' := by
  have hfresh : ∀ d ∈ devices, (Dict.empty : Dict ℤ (Dict String NetVarAccessor)).get? d.handle = none :=
    fun d _ => Dict.get?_empty d.handle
  obtain ⟨schemes, w', hrun⟩ := bindAll_runs hhandles hfresh h
  exact ⟨⟨devices, schemes⟩, w', run_bind_ok hrun⟩

/-! ## Runs -/

namespace Plant
variable {engine : SimulationEngine} {root : LogLevel} {bench : Bench}

/-- Nothing has stopped the engine, and nothing is about to. -/
structure GoesOn (limit : ℕ) (devices : List SimulatedDevice) (s : Plant R) : Prop where
  running : s.stopped = false
  agenda : OnAgenda devices s
  time : ∀ t rest, s.tick = some (t, rest) → t.magnitude ≤ limit
  going : Going devices s.objects

theorem goesOn_next (hP : Bounded P) (hlimit : limit < Binary.infinity) (hdevices : engine.devices = devices)
    (handles : (devices.map SimulatedDevice.handle).Nodup)
    (hschemes : ∀ d ∈ devices, engine.schemes.get? d.handle = some d.scheme)
    (hnames : ∀ d ∈ devices, d.device.DistinctNames) (hsteady : ∀ d ∈ devices, d.steady limit (typeOf devices) = true)
    {s : Plant R} (h : GoesOn limit devices s) {event : PlantEvent} (hevent : ∀ t, event = .start t → t.magnitude ≤ limit) :
    GoesOn limit devices (s.next P engine root bench event) := by
  cases event with
  | request req => exact ⟨h.running, h.agenda, h.time, h.going⟩
  | start t =>
    simp only [next]
    split
    · refine ⟨h.running, fun t' rest he => ?_, fun t' rest he => ?_, h.going⟩
      · cases he
        rw [hdevices]
        exact fun _ haction => haction
      · cases he
        exact hevent t rfl
    · exact h
  | act =>
    cases htick : s.tick with
    | none =>
      simp only [next, htick]
      exact h
    | some pair =>
      obtain ⟨t, actions⟩ := pair
      cases actions with
      | nil =>
        simp only [next, htick]
        exact ⟨h.running, fun _ _ he => (by cases he), fun _ _ he => (by cases he), h.going⟩
      | cons action rest =>
        have hcontinued {io : InMemoryUnidriverIo} {objects : Objects R} (hgoing : Going devices objects) :
            GoesOn limit devices { s with io := io, objects := objects, tick := some (t, rest) } := by
          refine ⟨h.running, fun t' rest' he => ?_, fun t' rest' he => ?_, hgoing⟩
          · cases he
            exact fun a ha => h.agenda t _ htick a (List.mem_cons_of_mem _ ha)
          · cases he
            exact h.time t _ htick
        obtain ⟨d, hd, -, entry, hentry, haction⟩ := mem_agenda (h.agenda t _ htick action List.mem_cons_self)
        rcases haction with rfl | rfl
        · obtain ⟨io, hrun, -⟩ := load_one hentry ⟨s.io, s.objects⟩
          have hnext : s.next P engine root bench .act =
              { s with io := io, objects := loaded s.io.memory d.scheme [entry] s.objects, tick := some (t, rest) } := by
            simp only [next, htick, Action.perform, hschemes d hd, hrun]
          rw [hnext]
          exact hcontinued (load_going h.going handles hd (hnames d hd) hentry _)
        · obtain ⟨w, hrun, hgoing⟩ := publish_going (w := ⟨s.io, s.objects⟩) hP (h.time t _ htick) hlimit handles hd
            (hnames d hd) (hsteady d hd) hentry h.going
          have hnext : s.next P engine root bench .act =
              { s with io := w.io, objects := w.objects, tick := some (t, rest) } := by
            simp only [next, htick, Action.perform, hschemes d hd, hrun]
          rw [hnext]
          exact hcontinued hgoing

/-- **Nothing stops the engine.** -/
theorem goesOn_run (hP : Bounded P) (hlimit : limit < Binary.infinity) {w₀ w : World InMemoryUnidriverIo R}
    (hbuilt : (SimulationEngine.build devices).run w₀ = .ok engine w) (hnames : ∀ d ∈ devices, d.device.DistinctNames)
    (hsteady : ∀ d ∈ devices, d.steady limit (typeOf devices) = true)
    (hwalks : ∀ d ∈ devices, ∀ name signal, d.signals.get? name = some signal → Walks w₀.objects.cells signal.sources)
    (events : List PlantEvent) (htimes : ∀ t, .start t ∈ events → t.magnitude ≤ limit) :
    GoesOn limit devices (({ io := w.io, objects := w.objects } : Plant R).run P engine root bench events) := by
  obtain ⟨hdevices, handles, hschemes⟩ := build_ok hbuilt
  obtain ⟨schemes, w₁, hbind, hret⟩ := bind_eq_ok hbuilt
  cases hret
  obtain ⟨hobjects, hpublishable⟩ := bindAll_publishable hbind
  induction events using List.reverseRecOn with
  | nil =>
    refine ⟨rfl, fun _ _ he => (by cases he), fun _ _ he => (by cases he), ⟨fun d hd entry hentry => ?_, ?_⟩⟩
    · obtain ⟨acc, hacc, -⟩ := covers_registers d entry hentry
      rw [← var_of_scheme (hnames d hd) hentry hacc]
      show acc.var.ctype.Accepts (w.objects.values entry.2)
      rw [hobjects]
      exact hpublishable d hd entry hentry acc hacc
    · show ∀ d ∈ devices, ∀ name signal, d.signals.get? name = some signal → Walks w.objects.cells signal.sources
      rw [hobjects]
      exact hwalks
  | append_singleton events event ih =>
    rw [run_snoc]
    refine goesOn_next hP hlimit hdevices handles hschemes hnames hsteady
      (ih (fun t ht => htimes t (List.mem_append_left _ ht))) (fun t ht => htimes t ?_)
    rw [← ht]
    exact List.mem_append_right _ (List.mem_singleton_self _)

end Plant
end
end Tstlan.Simulation
