import Tstlan.Devices.Simulation.Tick

/-! # No device affects another

The parts of the state that one device reads are its row of the memory, the values of its variables and the states of
its random sources. Its part of a tick sees and changes nothing else, as long as its signals follow its own variables
only; the other devices leave these parts alone, unless they share a random source with it. -/
namespace Tstlan.Simulation
open Foundations
open Binary (Double)
set_option autoImplicit false

section
variable {ε σ R α : Type}

theorem onObjects_onCells (x : (Register → Number) → EStateM ε (ℕ → Cell R) α) (w : World σ R) :
    outcome ((onObjects (onCells x)).run w) = outcome ((x w.objects.values).run w.objects.cells) ∧
      final ((onObjects (onCells x)).run w) =
        ⟨w.io, ⟨w.objects.values, final ((x w.objects.values).run w.objects.cells)⟩⟩ := by
  simp only [onObjects, onCells, EStateM.run]
  cases x w.objects.values w.objects.cells <;> exact ⟨rfl, rfl⟩

end

/-- The random source that sampling changes. -/
def Source.object? : Source → Option ℕ
  | .noise object _ => some object
  | .randomWalk object _ _ _ => some object
  | _ => none

def SimulatedDevice.sources (d : SimulatedDevice) : List Source := d.signals.values.flatMap Signal.sources

/-- The random sources of the device. -/
def SimulatedDevice.randoms (d : SimulatedDevice) : List ℕ := d.sources.filterMap Source.object?

/-- The device follows its own variables only. -/
def SimulatedDevice.Local (d : SimulatedDevice) : Prop :=
  ∀ target, Source.follow target ∈ d.sources → target.handle = d.handle

/-! ## Samples -/

section
variable {R : Type} {P : Platform R} {t : Double} {values values' : Register → Number} {K : List ℕ}

def AgreeOn (K : List ℕ) (cells cells' : ℕ → Cell R) : Prop := ∀ k ∈ K, cells k = cells' k

theorem AgreeOn.update {cells cells' : ℕ → Cell R} (h : AgreeOn K cells cells') (object : ℕ) (cell : Cell R) :
    AgreeOn K (Function.update cells object cell) (Function.update cells' object cell) := by
  intro k hk
  rw [Function.update_apply, Function.update_apply, h k hk]

theorem uniform_respects {object : ℕ} (hk : object ∈ K) (a b : Number) :
    Respects (AgreeOn K) (uniform P object a b) (uniform P object a b) := by
  refine .bind (.fromExcept _) (fun width => .get_bind (fun cells cells' h => ?_))
  rw [h object hk]
  exact .bind (.set (h.update object _)) (fun _ => .bind (.fromExcept _) (fun _ => .fromExcept _))

theorem assignCell_respects {object : ℕ} (hk : object ∈ K) (value : Number) :
    Respects (AgreeOn (R := R) K) (assignCell object value) (assignCell object value) := by
  intro cells cells' h
  refine ⟨rfl, ?_⟩
  show AgreeOn K (Function.update cells object _) (Function.update cells' object _)
  rw [h object hk]
  exact h.update object _

theorem source_respects {source : Source} (hobject : ∀ k, source.object? = some k → k ∈ K)
    (hvalues : ∀ target, source = .follow target → values target = values' target) :
    Respects (AgreeOn K) (source.sample P t values) (source.sample P t values') := by
  cases source with
  | constant value => exact .pure _
  | noise object amplitude =>
    have hk := hobject object rfl
    exact .bind (.fromExcept _) (fun _ => .bind (uniform_respects hk _ _) (fun _ => .pure _))
  | randomWalk object step low high =>
    have hk := hobject object rfl
    refine .get_bind (fun cells cells' h => ?_)
    rw [h object hk]
    refine .bind (.fromExcept _) (fun _ => .bind (uniform_respects hk _ _) (fun _ => ?_))
    refine .bind (.fromExcept _) (fun _ => .bind (.fromExcept _) (fun _ => ?_))
    refine .bind (assignCell_respects hk _) (fun _ => .bind (.fromExcept _) (fun _ => .bind (.fromExcept _) (fun _ => ?_)))
    exact .bind (assignCell_respects hk _) (fun _ => .pure _)
  | follow target =>
    rw [Source.sample, Source.sample, hvalues target rfl]
    exact .bind (.fromExcept _) (fun _ => .pure _)
  | _ => repeat' first | exact .pure _ | refine .bind (.fromExcept _) (fun _ => ?_)

theorem uniform_keeps {object k : ℕ} (hk : object ≠ k) (cell : Cell R) (a b : Number) :
    Keeps (fun cells => cells k = cell) (uniform P object a b) := by
  refine .bind ((Silent.fromExcept _).keeps _) (fun width => .get_bind (fun cells h => ?_))
  refine .bind (.set ((Function.update_of_ne (Ne.symm hk) _ _).trans h)) (fun _ => ?_)
  exact .bind ((Silent.fromExcept _).keeps _) (fun _ => (Silent.fromExcept _).keeps _)

theorem assignCell_keeps {object k : ℕ} (hk : object ≠ k) (cell : Cell R) (value : Number) :
    Keeps (fun cells => cells k = cell) (assignCell object value) :=
  fun cells h => (Function.update_of_ne (Ne.symm hk) _ cells).trans h

theorem source_keeps {source : Source} {k : ℕ} (hk : source.object? ≠ some k) (cell : Cell R) :
    Keeps (fun cells => cells k = cell) (source.sample P t values) := by
  cases source with
  | constant value => exact .pure _ _
  | noise object amplitude =>
    have hne : object ≠ k := fun h => hk (congrArg some h)
    exact .bind ((Silent.fromExcept _).keeps _) (fun _ => .bind (uniform_keeps hne cell _ _) (fun _ => .pure _ _))
  | randomWalk object step low high =>
    have hne : object ≠ k := fun h => hk (congrArg some h)
    refine .get_bind (fun _ _ => .bind ((Silent.fromExcept _).keeps _) (fun _ => ?_))
    refine .bind (uniform_keeps hne cell _ _) (fun _ => ?_)
    refine .bind ((Silent.fromExcept _).keeps _) (fun _ => .bind ((Silent.fromExcept _).keeps _) (fun _ => ?_))
    refine .bind (assignCell_keeps hne cell _) (fun _ => .bind ((Silent.fromExcept _).keeps _) (fun _ => ?_))
    refine .bind ((Silent.fromExcept _).keeps _) (fun _ => .bind (assignCell_keeps hne cell _) (fun _ => .pure _ _))
  | _ => repeat' first | exact .pure _ _ | refine .bind ((Silent.fromExcept _).keeps _) (fun _ => ?_)

/-- Signals are sampled through their sources only. -/
theorem sampleAt_respects {signal : Signal Source}
    (hobject : ∀ source ∈ signal.sources, ∀ k, source.object? = some k → k ∈ K)
    (hvalues : ∀ source ∈ signal.sources, ∀ target, source = .follow target → values target = values' target) :
    Respects (AgreeOn K) (sampleAt P t values signal) (sampleAt P t values' signal) := by
  revert hobject hvalues
  rw [sampleAt, sampleAt]
  apply Signal.induction
    (P := fun signal => (∀ source ∈ signal.sources, ∀ k, source.object? = some k → k ∈ K) →
      (∀ source ∈ signal.sources, ∀ target, source = .follow target → values target = values' target) →
      Respects (AgreeOn K) (signal.sample pySum (Source.sample P t values)) (signal.sample pySum (Source.sample P t values')))
    (Q := fun terms => (∀ source ∈ termSources terms, ∀ k, source.object? = some k → k ∈ K) →
      (∀ source ∈ termSources terms, ∀ target, source = .follow target → values target = values' target) →
      ∀ acc, Respects (AgreeOn K) (sampleTerms pySum (Source.sample P t values) acc terms)
        (sampleTerms pySum (Source.sample P t values') acc terms))
  · intro source hobject hvalues
    exact source_respects (hobject source List.mem_cons_self) (hvalues source List.mem_cons_self)
  · intro terms ih hobject hvalues
    exact .bind (ih hobject hvalues _) (fun _ => .pure _)
  · intro _ _ acc
    exact .pure _
  · intro term terms hterm hterms hobject hvalues acc
    rw [termSources, List.forall_mem_append] at hobject hvalues
    refine .bind (hterm hobject.1 hvalues.1) (fun v => .bind (.fromExcept _) (fun acc => ?_))
    exact hterms hobject.2 hvalues.2 acc

theorem sampleAt_keeps {signal : Signal Source} {k : ℕ} (hk : ∀ source ∈ signal.sources, source.object? ≠ some k)
    (cell : Cell R) : Keeps (fun cells => cells k = cell) (sampleAt P t values signal) := by
  revert hk
  apply Signal.induction
    (P := fun signal => (∀ source ∈ signal.sources, source.object? ≠ some k) →
      Keeps (fun cells => cells k = cell) (signal.sample pySum (Source.sample P t values)))
    (Q := fun terms => (∀ source ∈ termSources terms, source.object? ≠ some k) →
      ∀ acc, Keeps (fun cells => cells k = cell) (sampleTerms pySum (Source.sample P t values) acc terms))
  · exact fun source hk => source_keeps (hk source List.mem_cons_self) cell
  · exact fun terms ih hk => .bind (ih hk _) (fun _ => .pure _ _)
  · exact fun _ acc => .pure _ _
  · intro term terms hterm hterms hk acc
    rw [termSources, List.forall_mem_append] at hk
    exact .bind (hterm hk.1) (fun v => .bind ((Silent.fromExcept _).keeps _) (fun acc => hterms hk.2 acc))

end

/-! ## Worlds -/

theorem row_stored {acc : NetVarAccessor} (hw : acc.Wf) {m m' n n' : ByteMemory ℤ} {v : Number}
    (hrow : m acc.handle = m' acc.handle) (h : acc.stored m v = .ok n) (h' : acc.stored m' v = .ok n') :
    n acc.handle = n' acc.handle := by
  apply ByteMemory.row_ext
  intro p
  by_cases hp : acc.start ≤ p ∧ p < acc.stop
  · exact NetVarAccessor.sameOn_of_holds hw (NetVarAccessor.holds_stored hw h) (NetVarAccessor.holds_stored hw h')
      p hp.1 hp.2
  · have hout : acc.handle ≠ acc.handle ∨ p < acc.start ∨ acc.stop ≤ p := .inr (by omega)
    rw [NetVarAccessor.bit_stored hw h hout, NetVarAccessor.bit_stored hw h' hout, ByteMemory.bit, ByteMemory.bit, hrow]

section
variable {σ R : Type} [UnidriverIo σ] [LawfulUnidriverIo σ] {P : Platform R} {t : Double} {d e : SimulatedDevice}
open LawfulUnidriverIo (memory)

/-- Two worlds that are the same for the device. -/
structure SameFor (d : SimulatedDevice) (w w' : World σ R) : Prop where
  row : memory w.io d.handle = memory w'.io d.handle
  values : ∀ r : Register, r.handle = d.handle → w.objects.values r = w'.objects.values r
  cells : AgreeOn d.randoms w.objects.cells w'.objects.cells

theorem SameFor.refl (d : SimulatedDevice) (w : World σ R) : SameFor d w w :=
  ⟨rfl, fun _ _ => rfl, fun _ _ => rfl⟩

theorem SameFor.symm {w w' : World σ R} (h : SameFor d w w') : SameFor d w' w :=
  ⟨h.row.symm, fun r hr => (h.values r hr).symm, fun k hk => (h.cells k hk).symm⟩

theorem SameFor.trans {w w' w'' : World σ R} (h : SameFor d w w') (h' : SameFor d w' w'') : SameFor d w w'' :=
  ⟨h.row.trans h'.row, fun r hr => (h.values r hr).trans (h'.values r hr),
    fun k hk => (h.cells k hk).trans (h'.cells k hk)⟩

theorem onIo_get_respects {acc : NetVarAccessor} (hw : acc.Wf) (hhandle : acc.handle = d.handle) :
    Respects (SameFor d) (onIo acc.get : EStateM PyError (World σ R) Number) (onIo acc.get) := by
  intro w w' h
  obtain ⟨v, io, hrun, hv, hmem⟩ := NetVarAccessor.get_run hw w.io
  obtain ⟨v', io', hrun', hv', hmem'⟩ := NetVarAccessor.get_run hw w'.io
  have hrow := h.row
  rw [← hhandle] at hrow
  rw [NetVarAccessor.value_eq_shown, shown_congr hw hrow, ← NetVarAccessor.value_eq_shown, hv', Except.ok.injEq] at hv
  rw [onIo_run_ok hrun, onIo_run_ok hrun', hv]
  refine ⟨rfl, ?_, h.values, h.cells⟩
  show memory io d.handle = memory io' d.handle
  rw [hmem, hmem', h.row]

theorem onIo_set_respects {acc : NetVarAccessor} (hw : acc.Wf) (hhandle : acc.handle = d.handle) (v : Number) :
    Respects (SameFor d) (onIo (acc.set v) : EStateM PyError (World σ R) Unit) (onIo (acc.set v)) := by
  intro w w' h
  cases hp : acc.packs v with
  | error e =>
    have hrun := NetVarAccessor.set_run_error (s := w.io) (NetVarAccessor.packs_error_iff.mp hp)
    have hrun' := NetVarAccessor.set_run_error (s := w'.io) (NetVarAccessor.packs_error_iff.mp hp)
    rw [onIo_run_error hrun, onIo_run_error hrun']
    exact ⟨rfl, h⟩
  | ok u =>
    obtain ⟨n, hstored⟩ := NetVarAccessor.stored_of_packs hp (memory w.io)
    obtain ⟨n', hstored'⟩ := NetVarAccessor.stored_of_packs hp (memory w'.io)
    obtain ⟨io, hrun, rfl⟩ := NetVarAccessor.set_run hw hstored
    obtain ⟨io', hrun', rfl⟩ := NetVarAccessor.set_run hw hstored'
    have hrow := h.row
    rw [← hhandle] at hrow
    rw [onIo_run_ok hrun, onIo_run_ok hrun']
    refine ⟨rfl, ?_, h.values, h.cells⟩
    show memory io d.handle = memory io' d.handle
    rw [← hhandle]
    exact row_stored hw hrow hstored hstored'

theorem assign_respects (r : Register) (v : Number) :
    Respects (SameFor d) (onObjects (assign r v) : EStateM PyError (World σ R) Unit) (onObjects (assign r v)) := by
  intro w w' h
  refine ⟨rfl, h.row, fun r' hr' => ?_, h.cells⟩
  show Function.update w.objects.values r v r' = Function.update w'.objects.values r v r'
  rw [Function.update_apply, Function.update_apply, h.values r' hr']

theorem sample_respects (hlocal : d.Local) {signal : Signal Source} (hsignal : signal ∈ d.signals.values) :
    Respects (SameFor d)
      (onObjects (onCells (fun values => sampleAt P t values signal)) : EStateM PyError (World σ R) PyValue)
      (onObjects (onCells (fun values => sampleAt P t values signal))) := by
  intro w w' h
  have hin : ∀ source ∈ signal.sources, source ∈ d.sources := fun source hs => List.mem_flatMap.mpr ⟨signal, hsignal, hs⟩
  have hsample : Respects (AgreeOn d.randoms) (sampleAt P t w.objects.values signal)
      (sampleAt P t w'.objects.values signal) :=
    sampleAt_respects (fun source hs k hk => List.mem_filterMap.mpr ⟨source, hin source hs, hk⟩)
      (fun source hs target htarget => h.values target (hlocal target (htarget ▸ hin source hs)))
  obtain ⟨hsame, hagree⟩ := hsample _ _ h.cells
  obtain ⟨hout, hfinal⟩ := onObjects_onCells (fun values => sampleAt P t values signal) w
  obtain ⟨hout', hfinal'⟩ := onObjects_onCells (fun values => sampleAt P t values signal) w'
  rw [hout, hout', hfinal, hfinal']
  exact ⟨hsame, h.row, h.values, hagree⟩

theorem load_respects (registers : List (NetVar × Register)) :
    Respects (SameFor d) (load d.scheme registers : EStateM PyError (World σ R) Unit) (load d.scheme registers) := by
  induction registers with
  | nil => exact .pure _
  | cons p rest ih =>
    obtain ⟨var, register⟩ := p
    rw [load]
    split
    · cases hacc : d.scheme.get? var.name with
      | none => exact .bind (.throw _) (fun _ => ih)
      | some acc =>
        obtain ⟨hw, hhandle⟩ := wf_of_scheme hacc
        exact .bind (onIo_get_respects hw hhandle) (fun v => .bind (assign_respects register v) (fun _ => ih))
    · exact ih

theorem publish_respects (hlocal : d.Local) (registers : List (NetVar × Register)) :
    Respects (SameFor d) (publish P t d.scheme d.signals registers : EStateM PyError (World σ R) Unit)
      (publish P t d.scheme d.signals registers) := by
  induction registers with
  | nil => exact .pure _
  | cons p rest ih =>
    obtain ⟨var, register⟩ := p
    rw [publish]
    cases hsignal : d.signals.get? var.name with
    | none => exact ih
    | some signal =>
      have hmem : signal ∈ d.signals.values := Dict.mem_values.mpr ⟨_, hsignal⟩
      refine .bind (sample_respects hlocal hmem) (fun v => .bind (.fromExcept _) (fun x => ?_))
      refine .bind (assign_respects register x) (fun _ => ?_)
      cases hacc : d.scheme.get? var.name with
      | none => exact .bind (.throw _) (fun _ => ih)
      | some acc =>
        obtain ⟨hw, hhandle⟩ := wf_of_scheme hacc
        exact .bind (onIo_set_respects hw hhandle x) (fun _ => ih)

/-! ## The parts of the other devices -/

theorem onIo_get_keeps {acc : NetVarAccessor} (hw : acc.Wf) (w₀ : World σ R) :
    Keeps (fun w => SameFor d w w₀) (onIo acc.get : EStateM PyError (World σ R) Number) := by
  intro w h
  obtain ⟨v, io, hrun, -, hmem⟩ := NetVarAccessor.get_run hw w.io
  rw [onIo_run_ok hrun]
  refine ⟨?_, h.values, h.cells⟩
  show memory io d.handle = memory w₀.io d.handle
  rw [hmem, h.row]

theorem onIo_set_keeps {acc : NetVarAccessor} (hw : acc.Wf) (hhandle : acc.handle ≠ d.handle) (v : Number)
    (w₀ : World σ R) : Keeps (fun w => SameFor d w w₀) (onIo (acc.set v) : EStateM PyError (World σ R) Unit) := by
  intro w h
  cases hstored : acc.stored (memory w.io) v with
  | error e =>
    rw [onIo_run_error (NetVarAccessor.set_run_error hstored)]
    exact h
  | ok n =>
    obtain ⟨io, hrun, rfl⟩ := NetVarAccessor.set_run hw hstored
    rw [onIo_run_ok hrun]
    refine ⟨?_, h.values, h.cells⟩
    show memory io d.handle = memory w₀.io d.handle
    rw [← h.row]
    exact ByteMemory.row_ext (fun p => NetVarAccessor.bit_stored hw hstored (.inl (Ne.symm hhandle)))

theorem assign_keeps {r : Register} (hr : r.handle ≠ d.handle) (v : Number) (w₀ : World σ R) :
    Keeps (fun w => SameFor d w w₀) (onObjects (assign r v) : EStateM PyError (World σ R) Unit) := by
  intro w h
  refine ⟨h.row, fun r' hr' => ?_, h.cells⟩
  have hne : r' ≠ r := by
    rintro rfl
    exact hr hr'
  exact (Function.update_of_ne hne _ _).trans (h.values r' hr')

theorem sample_keeps (hshare : List.Disjoint e.randoms d.randoms) {signal : Signal Source}
    (hsignal : signal ∈ e.signals.values) (w₀ : World σ R) :
    Keeps (fun w => SameFor d w w₀)
      (onObjects (onCells (fun values => sampleAt P t values signal)) : EStateM PyError (World σ R) PyValue) := by
  intro w h
  rw [(onObjects_onCells (fun values => sampleAt P t values signal) w).2]
  refine ⟨h.row, h.values, fun k hk => ?_⟩
  have hother : ∀ source ∈ signal.sources, source.object? ≠ some k := by
    intro source hs hobject
    have hsource : source ∈ e.sources := List.mem_flatMap.mpr ⟨signal, hsignal, hs⟩
    exact hshare (List.mem_filterMap.mpr ⟨source, hsource, hobject⟩) hk
  exact (sampleAt_keeps hother (w.objects.cells k) w.objects.cells rfl).trans (h.cells k hk)

/-- No other device reaches what the device reads. -/
def Apart (d e : SimulatedDevice) : Prop := e.handle ≠ d.handle ∧ List.Disjoint e.randoms d.randoms

theorem load_keeps (hapart : Apart d e) {registers : List (NetVar × Register)}
    (hregisters : ∀ p ∈ registers, p.2.handle = e.handle) (w₀ : World σ R) :
    Keeps (fun w => SameFor d w w₀) (load e.scheme registers : EStateM PyError (World σ R) Unit) := by
  induction registers with
  | nil => exact .pure _ _
  | cons p rest ih =>
    obtain ⟨var, register⟩ := p
    obtain ⟨hp, hrest⟩ := List.forall_mem_cons.mp hregisters
    rw [load]
    split
    · cases hacc : e.scheme.get? var.name with
      | none => exact .bind (.throw _ _) (fun _ => ih hrest)
      | some acc =>
        obtain ⟨hw, -⟩ := wf_of_scheme hacc
        have hregister : register.handle ≠ d.handle := fun h => hapart.1 (hp.symm.trans h)
        exact .bind (onIo_get_keeps hw w₀) (fun v => .bind (assign_keeps hregister v w₀) (fun _ => ih hrest))
    · exact ih hrest

theorem publish_keeps (hapart : Apart d e) {registers : List (NetVar × Register)}
    (hregisters : ∀ p ∈ registers, p.2.handle = e.handle) (w₀ : World σ R) :
    Keeps (fun w => SameFor d w w₀)
      (publish P t e.scheme e.signals registers : EStateM PyError (World σ R) Unit) := by
  induction registers with
  | nil => exact .pure _ _
  | cons p rest ih =>
    obtain ⟨var, register⟩ := p
    obtain ⟨hp, hrest⟩ := List.forall_mem_cons.mp hregisters
    rw [publish]
    cases hsignal : e.signals.get? var.name with
    | none => exact ih hrest
    | some signal =>
      have hmem : signal ∈ e.signals.values := Dict.mem_values.mpr ⟨_, hsignal⟩
      have hregister : register.handle ≠ d.handle := fun h => hapart.1 (hp.symm.trans h)
      refine .bind (sample_keeps hapart.2 hmem w₀) (fun v => .bind ((Silent.fromExcept _).keeps _) (fun x => ?_))
      refine .bind (assign_keeps hregister x w₀) (fun _ => ?_)
      cases hacc : e.scheme.get? var.name with
      | none => exact .bind (.throw _ _) (fun _ => ih hrest)
      | some acc =>
        obtain ⟨hw, hhandle⟩ := wf_of_scheme hacc
        exact .bind (onIo_set_keeps hw (hhandle ▸ hapart.1) x w₀) (fun _ => ih hrest)

/-! ## The engine with one device -/

variable {engine alone : SimulationEngine} {earlier later devices : List SimulatedDevice}

omit [LawfulUnidriverIo σ] in
theorem tickAll_append (earlier later : List SimulatedDevice) :
    (engine.tickAll P t (earlier ++ later) : EStateM PyError (World σ R) Unit) =
      (engine.tickAll P t earlier >>= fun _ => engine.tickAll P t later) := by
  induction earlier with
  | nil => rfl
  | cons e earlier ih =>
    rw [List.cons_append, SimulationEngine.tickAll, SimulationEngine.tickAll, ih]
    split
    · cases engine.schemes.get? e.handle with
      | none => rfl
      | some scheme => simp only [bind_assoc]
    · rfl

theorem tickAll_keeps (hschemes : ∀ e ∈ devices, engine.schemes.get? e.handle = some e.scheme)
    (hapart : ∀ e ∈ devices, Apart d e) (w₀ : World σ R) :
    Keeps (fun w => SameFor d w w₀) (engine.tickAll P t devices : EStateM PyError (World σ R) Unit) := by
  induction devices with
  | nil => exact .pure _ _
  | cons e rest ih =>
    obtain ⟨hscheme, hschemes⟩ := List.forall_mem_cons.mp hschemes
    obtain ⟨he, hapart⟩ := List.forall_mem_cons.mp hapart
    have hregisters : ∀ p ∈ e.registers, p.2.handle = e.handle := by
      intro p hp
      obtain ⟨i, -, hi⟩ := mem_registers.mp hp
      rw [hi]
    rw [SimulationEngine.tickAll, hscheme]
    split
    · exact .bind (load_keeps he hregisters w₀) (fun _ => .bind (publish_keeps he hregisters w₀) (fun _ => ih hschemes hapart))
    · exact ih hschemes hapart

theorem tickAll_respects (hscheme : engine.schemes.get? d.handle = some d.scheme) (hlocal : d.Local) :
    Respects (SameFor d) (engine.tickAll P t [d] : EStateM PyError (World σ R) Unit) (engine.tickAll P t [d]) := by
  rw [SimulationEngine.tickAll, hscheme]
  split
  · exact .bind (load_respects d.registers) (fun _ => .bind (publish_respects hlocal d.registers) (fun _ => .pure _))
  · exact .pure _

/-- A tick of all devices does to one of them what a tick of this device alone does. -/
theorem tick_alone (hschemes : ∀ e ∈ earlier ++ d :: later, engine.schemes.get? e.handle = some e.scheme)
    (halone : alone.schemes.get? d.handle = some d.scheme) (hlocal : d.Local)
    (hapart : ∀ e ∈ earlier ++ later, Apart d e) {w w' : World σ R}
    (h : (engine.tickAll P t (earlier ++ d :: later)).run w = .ok () w') :
    ∃ w₁, (alone.tickAll P t [d]).run w = .ok () w₁ ∧ SameFor d w₁ w' := by
  rw [List.forall_mem_append, List.forall_mem_cons] at hschemes
  rw [List.forall_mem_append] at hapart
  have hcons : earlier ++ d :: later = earlier ++ ([d] ++ later) := rfl
  rw [hcons, tickAll_append, tickAll_append] at h
  obtain ⟨u, w₁, hfirst, h⟩ := bind_eq_ok h
  obtain ⟨u, w₂, hown, hlast⟩ := bind_eq_ok h
  have hsame : (alone.tickAll P t [d] : EStateM PyError (World σ R) Unit) = engine.tickAll P t [d] := by
    simp only [SimulationEngine.tickAll, halone, hschemes.2.1]
  have hbefore : SameFor d w₁ w := by
    have hkeeps := tickAll_keeps (P := P) (t := t) hschemes.1 hapart.1 w w (.refl d w)
    rwa [hfirst] at hkeeps
  have hafter : SameFor d w' w₂ := by
    have hkeeps := tickAll_keeps (P := P) (t := t) hschemes.2.2 hapart.2 w₂ w₂ (.refl d w₂)
    rwa [hlast] at hkeeps
  obtain ⟨hout, hfinal⟩ := tickAll_respects (P := P) (t := t) hschemes.2.1 hlocal w w₁ hbefore.symm
  rw [hown] at hout hfinal
  rw [hsame]
  cases hrun : (engine.tickAll P t [d]).run w with
  | error e w₃ =>
    rw [hrun] at hout
    cases hout
  | ok u w₃ =>
    rw [hrun] at hfinal
    exact ⟨w₃, rfl, SameFor.trans hfinal hafter.symm⟩

end
end Tstlan.Simulation
