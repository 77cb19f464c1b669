import Tstlan.Devices.Simulation.Sampling

/-! # What a tick does to the buffers

A tick reads and writes through the accessors of its devices only, so what each device holds afterwards follows from
the samples, and what has no signal stays. -/
namespace Tstlan.Simulation
open Foundations
open Binary (Double)
set_option autoImplicit false

/-! ## The engine as built -/

section
variable {σ R : Type} [UnidriverIo σ]

theorem bindAll_ok {schemes schemes' : Dict ℤ (Dict String NetVarAccessor)} {devices : List SimulatedDevice}
    {w w' : World σ R} (h : (bindAll schemes devices).run w = .ok schemes' w') :
    (devices.map SimulatedDevice.handle).Nodup ∧ (∀ d ∈ devices, schemes.get? d.handle = none) ∧
      (∀ d ∈ devices, schemes'.get? d.handle = some d.scheme) ∧
      ∀ handle scheme, schemes.get? handle = some scheme → schemes'.get? handle = some scheme := by
  induction devices generalizing schemes w with
  | nil =>
    cases h
    simp
  | cons d rest ih =>
    rw [bindAll] at h
    by_cases hused : (schemes.get? d.handle).isSome
    · simp only [hused, if_true] at h
      obtain ⟨u, w₁, hthrow, -⟩ := bind_eq_ok h
      cases hthrow
    · simp only [hused] at h
      obtain ⟨world, w₁, -, h⟩ := bind_eq_ok h
      obtain ⟨u, w₂, -, h⟩ := bind_eq_ok h
      obtain ⟨hnodup, hfresh, hbound, hkept⟩ := ih h
      have hnone : schemes.get? d.handle = none := Option.not_isSome_iff_eq_none.mp hused
      have hother : ∀ e ∈ rest, e.handle ≠ d.handle := by
        intro e he heq
        have hset := hfresh e he
        rw [heq, Dict.get?_set_self] at hset
        cases hset
      refine ⟨List.nodup_cons.mpr ⟨?_, hnodup⟩, List.forall_mem_cons.mpr ⟨hnone, ?_⟩,
        List.forall_mem_cons.mpr ⟨hkept _ _ (Dict.get?_set_self ..), hbound⟩, ?_⟩
      · intro hmem
        obtain ⟨e, he, heq⟩ := List.mem_map.mp hmem
        exact hother e he heq
      · intro e he
        rw [← hfresh e he, Dict.get?_set_of_ne _ _ (hother e he)]
      · intro handle scheme hscheme
        apply hkept
        rw [Dict.get?_set_of_ne _ _ ?_]
        · exact hscheme
        · rintro rfl
          rw [hnone] at hscheme
          cases hscheme

/-- The constructor has checked that the handles are distinct. -/
theorem build_ok {devices : List SimulatedDevice} {engine : SimulationEngine} {w w' : World σ R}
    (h : (SimulationEngine.build devices).run w = .ok engine w') :
    engine.devices = devices ∧ (devices.map SimulatedDevice.handle).Nodup ∧
      ∀ d ∈ devices, engine.schemes.get? d.handle = some d.scheme := by
  obtain ⟨schemes, w₁, hbind, hret⟩ := bind_eq_ok h
  cases hret
  obtain ⟨hnodup, -, hbound, -⟩ := bindAll_ok hbind
  exact ⟨rfl, hnodup, hbound⟩

end

/-! ## The variables of a device -/

section
variable {d : SimulatedDevice}

theorem mem_registers {p : NetVar × Register} :
    p ∈ d.registers ↔ ∃ i, d.device.vars[i]? = some p.1 ∧ p.2 = ⟨d.handle, i⟩ := by
  rw [SimulatedDevice.registers, List.mem_map]
  constructor
  · rintro ⟨⟨var, i⟩, hmem, rfl⟩
    exact ⟨i, List.mem_zipIdx_iff_getElem?.mp hmem, rfl⟩
  · obtain ⟨var, register⟩ := p
    rintro ⟨i, hi, rfl⟩
    exact ⟨(var, i), List.mem_zipIdx_iff_getElem?.mpr hi, rfl⟩

theorem nodup_registers (d : SimulatedDevice) : (d.registers.map Prod.snd).Nodup := by
  rw [SimulatedDevice.registers, List.map_map]
  have hsplit : (Prod.snd ∘ fun p : NetVar × ℕ => (p.1, (⟨d.handle, p.2⟩ : Register))) =
      (fun i => ⟨d.handle, i⟩) ∘ Prod.snd := rfl
  rw [hsplit, ← List.map_map, List.zipIdx_map_snd]
  exact (List.nodup_range' ..).map (fun i j h => (Register.mk.injEq .. ▸ h).2)

theorem wf_of_scheme {name : String} {acc : NetVarAccessor} (h : d.scheme.get? name = some acc) :
    acc.Wf ∧ acc.handle = d.handle := by
  have hmem := Bench.mem_of_scheme_get? h
  exact ⟨(buildScheme_independent d.handle d.device.vars).wf acc hmem, handle_of_mem_buildScheme hmem⟩

theorem covers_registers (d : SimulatedDevice) : Covers d.scheme d.registers := by
  intro p hp
  obtain ⟨i, hi, -⟩ := mem_registers.mp hp
  obtain ⟨acc, hacc⟩ := scheme_get?_of_mem d.handle (List.mem_of_getElem? hi)
  exact ⟨acc, hacc, (wf_of_scheme hacc).1⟩

end

/-! ## The first pass on the objects -/

section
variable {R : Type} {d : SimulatedDevice} {m m' : ByteMemory ℤ} {scheme : Dict String NetVarAccessor}
  {registers : List (NetVar × Register)} {objects : Objects R}

theorem loaded_congr (hrow : m d.handle = m' d.handle) (registers : List (NetVar × Register)) (objects : Objects R) :
    loaded m d.scheme registers objects = loaded m' d.scheme registers objects := by
  induction registers generalizing objects with
  | nil => rfl
  | cons p rest ih =>
    obtain ⟨var, register⟩ := p
    rw [loaded, loaded, ih]
    cases hacc : d.scheme.get? var.name with
    | none => rfl
    | some acc =>
      obtain ⟨hw, hhandle⟩ := wf_of_scheme hacc
      rw [← hhandle] at hrow
      simp only [shown_congr hw hrow]

theorem loaded_values_of_not_mem {r : Register} (hr : r ∉ registers.map Prod.snd) (objects : Objects R) :
    (loaded m scheme registers objects).values r = objects.values r := by
  induction registers generalizing objects with
  | nil => rfl
  | cons p rest ih =>
    rw [List.map_cons, List.mem_cons, not_or] at hr
    rw [loaded, ih hr.2]
    split
    · rfl
    · split
      · rfl
      · exact Function.update_of_ne hr.1 _ _

/-- A variable that the backend may write has the value of its buffer. -/
theorem loaded_values_of_mem (hnodup : (registers.map Prod.snd).Nodup) {var : NetVar} {r : Register}
    (hmem : (var, r) ∈ registers) (hmode : var.mode ≠ .R) {acc : NetVarAccessor}
    (hacc : scheme.get? var.name = some acc) (objects : Objects R) :
    (loaded m scheme registers objects).values r = acc.shown m := by
  induction registers generalizing objects with
  | nil => exact absurd hmem List.not_mem_nil
  | cons p rest ih =>
    obtain ⟨hnew, hnodup⟩ := List.nodup_cons.mp hnodup
    rw [loaded]
    rcases List.mem_cons.mp hmem with heq | hrest
    · rw [← heq] at hnew ⊢
      simp only [loaded_values_of_not_mem hnew, if_neg hmode, hacc]
      exact Function.update_self ..
    · exact ih hnodup hrest _

end

/-! ## A tick of the engine -/

section
variable {R : Type} {P : Platform R} {t : Double} {d : SimulatedDevice} {m : ByteMemory ℤ}
  {objects objects' : Objects R} {log : List (Sampling R)}

theorem turn_of_enabled (hd : d.device.enabled = true) :
    (d.turn P t m).run objects = (samplings P t d.scheme d.signals d.registers).run (loaded m d.scheme d.registers objects) := by
  rw [SimulatedDevice.turn, if_pos hd]
  rfl

theorem turn_of_disabled (hd : d.device.enabled = false) : d.turn P t m = (return [] : EStateM PyError (Objects R) _) := by
  rw [SimulatedDevice.turn, if_neg (by rw [hd]; exact Bool.false_ne_true)]

theorem pass_of_turn (hd : d.device.enabled = true) (h : (d.turn P t m).run objects = .ok log objects') :
    Pass P t d.scheme d.signals d.registers (loaded m d.scheme d.registers objects) log objects' := by
  rw [turn_of_enabled hd] at h
  exact pass_of_samplings h

/-- Only an enabled device is noted. -/
theorem pass_of_mem_turn (h : (d.turn P t m).run objects = .ok log objects') {s : Sampling R} (hs : s ∈ log) :
    Pass P t d.scheme d.signals d.registers (loaded m d.scheme d.registers objects) log objects' := by
  cases hd : d.device.enabled with
  | false =>
    rw [turn_of_disabled hd] at h
    cases h
    exact absurd hs List.not_mem_nil
  | true => exact pass_of_turn hd h

theorem acc_of_turn (h : (d.turn P t m).run objects = .ok log objects') :
    ∀ s ∈ log, s.acc.Wf ∧ s.acc.handle = d.handle :=
  fun s hs => wf_of_scheme ((pass_of_mem_turn h hs).noted s hs).acc

/-- A device writes to its own row only. -/
theorem row_of_turn (h : (d.turn P t m).run objects = .ok log objects') {n n' : ByteMemory ℤ}
    (hstore : storeAll log n = .ok n') {handle : ℤ} (hne : handle ≠ d.handle) : n' handle = n handle := by
  have hacc := acc_of_turn h
  exact row_storeAll (fun s hs => (hacc s hs).1) hstore (fun s hs heq => hne (heq.symm.trans (hacc s hs).2))

end

section
variable {σ R : Type} [UnidriverIo σ] [LawfulUnidriverIo σ] {P : Platform R} {t : Double}
open LawfulUnidriverIo (memory)

/-- The tick of the code: it returns if the samples exist and can be written, and then it has written them. -/
theorem tickAll_ok_iff {engine : SimulationEngine} {devices : List SimulatedDevice}
    (hschemes : ∀ d ∈ devices, engine.schemes.get? d.handle = some d.scheme)
    (hnodup : (devices.map SimulatedDevice.handle).Nodup) {m₀ m' : ByteMemory ℤ} {w : World σ R}
    {objects' : Objects R} (hrow : ∀ d ∈ devices, memory w.io d.handle = m₀ d.handle) :
    (∃ io', (engine.tickAll P t devices).run w = .ok () ⟨io', objects'⟩ ∧ memory io' = m') ↔
      ∃ log, (turns P t m₀ devices).run w.objects = .ok log objects' ∧ storeAll log (memory w.io) = .ok m' := by
  induction devices generalizing w with
  | nil =>
    constructor
    · rintro ⟨io', hrun, rfl⟩
      cases hrun
      exact ⟨[], rfl, rfl⟩
    · rintro ⟨log, hrun, hstore⟩
      cases hrun
      cases hstore
      exact ⟨w.io, rfl, rfl⟩
  | cons d rest ih =>
    obtain ⟨hscheme, hschemes⟩ := List.forall_mem_cons.mp hschemes
    obtain ⟨hnew, hnodup⟩ := List.nodup_cons.mp hnodup
    obtain ⟨hd, hrest⟩ := List.forall_mem_cons.mp hrow
    rw [SimulationEngine.tickAll, turns]
    cases henabled : d.device.enabled with
    | false =>
      rw [turn_of_disabled henabled]
      simp only [Bool.false_eq_true, if_false, pure_bind, List.nil_append, bind_pure]
      exact ih hschemes hnodup hrest
    | true =>
      simp only [if_true, hscheme]
      obtain ⟨io₁, hload, hmem₁⟩ := load_run (covers_registers d) w
      rw [run_bind_ok hload]
      have hrows : ∀ {own : List (Sampling R)} {o o' : Objects R} {m : ByteMemory ℤ}, (d.turn P t m₀).run o = .ok own o' →
          storeAll own (memory w.io) = .ok m → ∀ e ∈ rest, m e.handle = m₀ e.handle := by
        intro own o o' m hown hstore e he
        rw [row_of_turn hown hstore (fun heq => hnew (List.mem_map.mpr ⟨e, he, heq⟩)), hrest e he]
      have hturn : (d.turn P t m₀).run w.objects = (samplings P t d.scheme d.signals d.registers).run
          (loaded (memory w.io) d.scheme d.registers w.objects) := by
        rw [turn_of_enabled henabled, loaded_congr hd]
      constructor
      · rintro ⟨io', hrun, rfl⟩
        obtain ⟨u, w₂, hpublish, hticks⟩ := bind_eq_ok hrun
        obtain ⟨own, hown, hstore⟩ := (publish_ok_iff (covers_registers d)).mp ⟨w₂.io, hpublish, rfl⟩
        rw [hmem₁] at hstore
        rw [← hturn] at hown
        obtain ⟨more, hmore, hstores⟩ := (ih hschemes hnodup (hrows hown hstore)).mp ⟨io', hticks, rfl⟩
        refine ⟨own ++ more, ?_, ?_⟩
        · rw [run_bind_ok hown, run_bind_ok hmore]
          rfl
        · exact storeAll_append_ok.mpr ⟨_, hstore, hstores⟩
      · rintro ⟨log, hrun, hstore⟩
        obtain ⟨own, o₁, hown, hrun⟩ := bind_eq_ok hrun
        obtain ⟨more, o₂, hmore, hret⟩ := bind_eq_ok hrun
        cases hret
        obtain ⟨m₁, hstore, hstores⟩ := storeAll_append_ok.mp hstore
        have hrows' := hrows hown hstore
        rw [hturn] at hown
        rw [← hmem₁] at hstore
        obtain ⟨io₂, hpublish, rfl⟩ := (publish_ok_iff (w := ⟨io₁, loaded (memory w.io) d.scheme d.registers w.objects⟩)
          (covers_registers d)).mpr ⟨own, hown, hstore⟩
        obtain ⟨io', hticks, hmem'⟩ := (ih (w := ⟨io₂, o₁⟩) hschemes hnodup hrows').mpr ⟨more, hmore, hstores⟩
        exact ⟨io', (run_bind_ok hpublish).trans hticks, hmem'⟩

end
/-! ## The turns of a tick -/

section
variable {R : Type} {P : Platform R} {t : Double} {d : SimulatedDevice} {m : ByteMemory ℤ}
  {objects objects' : Objects R} {log : List (Sampling R)} {devices earlier later : List SimulatedDevice} {r : Register}

theorem turns_cons_ok (h : (turns P t m (d :: later)).run objects = .ok log objects') :
    ∃ own o₁ more, (d.turn P t m).run objects = .ok own o₁ ∧ (turns P t m later).run o₁ = .ok more objects' ∧
      log = own ++ more := by
  rw [turns] at h
  obtain ⟨own, o₁, hown, h⟩ := bind_eq_ok h
  obtain ⟨more, o₂, hmore, hret⟩ := bind_eq_ok h
  cases hret
  exact ⟨own, o₁, more, hown, hmore, rfl⟩

theorem turns_split (h : (turns P t m (earlier ++ d :: later)).run objects = .ok log objects') :
    ∃ first o₁ own o₂ last, (turns P t m earlier).run objects = .ok first o₁ ∧
      (d.turn P t m).run o₁ = .ok own o₂ ∧ (turns P t m later).run o₂ = .ok last objects' ∧
      log = first ++ own ++ last := by
  induction earlier generalizing objects log with
  | nil =>
    obtain ⟨own, o₂, last, hown, hlast, rfl⟩ := turns_cons_ok h
    exact ⟨[], objects, own, o₂, last, rfl, hown, hlast, rfl⟩
  | cons e earlier ih =>
    obtain ⟨head, o₁, more, hhead, hmore, rfl⟩ := turns_cons_ok h
    obtain ⟨first, o₂, own, o₃, last, hfirst, hown, hlast, rfl⟩ := ih hmore
    refine ⟨head ++ first, o₂, own, o₃, last, ?_, hown, hlast, by simp only [List.append_assoc]⟩
    rw [turns, run_bind_ok hhead, run_bind_ok hfirst]
    rfl

theorem register_of_turn (h : (d.turn P t m).run objects = .ok log objects') :
    ∀ s ∈ log, s.register.handle = d.handle := by
  intro s hs
  obtain ⟨i, -, hi⟩ := mem_registers.mp ((pass_of_mem_turn h hs).registered s hs)
  exact congrArg Register.handle hi

theorem handle_of_turns (h : (turns P t m devices).run objects = .ok log objects') :
    ∀ s ∈ log, (∃ d ∈ devices, s.register.handle = d.handle ∧ s.acc.handle = d.handle) ∧ s.acc.Wf := by
  induction devices generalizing objects log with
  | nil =>
    cases h
    exact fun s hs => absurd hs List.not_mem_nil
  | cons d later ih =>
    obtain ⟨own, o₁, more, hown, hmore, rfl⟩ := turns_cons_ok h
    intro s hs
    rcases List.mem_append.mp hs with hs | hs
    · obtain ⟨hw, hhandle⟩ := acc_of_turn hown s hs
      exact ⟨⟨d, List.mem_cons_self, register_of_turn hown s hs, hhandle⟩, hw⟩
    · obtain ⟨⟨e, he, hhandle⟩, hw⟩ := ih hmore s hs
      exact ⟨⟨e, List.mem_cons_of_mem _ he, hhandle⟩, hw⟩

/-! ## The values that a sample may read -/

theorem turn_values_of_ne (hr : r.handle ≠ d.handle) (h : (d.turn P t m).run objects = .ok log objects') :
    (∀ s ∈ log, s.before.values r = objects.values r) ∧ objects'.values r = objects.values r := by
  have hnot : r ∉ d.registers.map Prod.snd := by
    intro hmem
    obtain ⟨p, hp, rfl⟩ := List.mem_map.mp hmem
    obtain ⟨i, -, hi⟩ := mem_registers.mp hp
    exact hr (by rw [hi])
  cases hd : d.device.enabled with
  | false =>
    rw [turn_of_disabled hd] at h
    cases h
    exact ⟨fun s hs => absurd hs List.not_mem_nil, rfl⟩
  | true =>
    have hsilent := (pass_of_turn hd h).values_of_silent (r := r)
      (fun p hp hpr => absurd (List.mem_map.mpr ⟨p, hp, hpr⟩) hnot)
    rwa [loaded_values_of_not_mem hnot] at hsilent

/-- All through its turn a variable that the backend may write and no signal drives has the value of its buffer. -/
theorem turn_values_of_control (hd : d.device.enabled = true) (h : (d.turn P t m).run objects = .ok log objects')
    {var : NetVar} (hmem : (var, r) ∈ d.registers) (hmode : var.mode ≠ .R) (hsignal : d.signals.get? var.name = none)
    {acc : NetVarAccessor} (hacc : d.scheme.get? var.name = some acc) :
    (∀ s ∈ log, s.before.values r = acc.shown m) ∧ objects'.values r = acc.shown m := by
  have hsilent := (pass_of_turn hd h).values_of_silent (r := r) (by
    intro p hp hpr
    have hsame : p = (var, r) := List.inj_on_of_nodup_map (nodup_registers d) hp hmem hpr
    rw [hsame]
    exact hsignal)
  rwa [loaded_values_of_mem (nodup_registers d) hmem hmode hacc] at hsilent

theorem turns_values_of_ne (hr : ∀ d ∈ devices, r.handle ≠ d.handle)
    (h : (turns P t m devices).run objects = .ok log objects') : objects'.values r = objects.values r := by
  induction devices generalizing objects log with
  | nil =>
    cases h
    rfl
  | cons d later ih =>
    obtain ⟨hd, hlater⟩ := List.forall_mem_cons.mp hr
    obtain ⟨own, o₁, more, hown, hmore, -⟩ := turns_cons_ok h
    exact (ih hlater hmore).trans (turn_values_of_ne hd hown).2

end
end Tstlan.Simulation
