import Tstlan.Devices.Simulation.Isolation

/-! # What the buffers hold after a tick

With distinct handles and names the accessors of a tick have disjoint places. So each variable that has a signal
holds its fitted sample, and nothing else moves. -/
namespace Tstlan.Simulation
open Foundations
open Binary (Double)
set_option autoImplicit false

/-! ## Disjoint places -/

section
variable {R : Type} {P : Platform R} {t : Double} {d : SimulatedDevice} {m m' : ByteMemory ℤ}
  {objects objects' : Objects R} {log : List (Sampling R)} {devices : List SimulatedDevice} {acc : NetVarAccessor}

theorem register_of_scheme {i : ℕ} (hacc : (buildScheme d.handle d.device.vars)[i]? = some acc) :
    (acc.var, (⟨d.handle, i⟩ : Register)) ∈ d.registers := by
  refine mem_registers.mpr ⟨i, ?_, rfl⟩
  rw [← buildScheme_var d.handle d.device.vars, List.getElem?_map, hacc]
  rfl

theorem accs_of_registers (hnames : d.device.DistinctNames) :
    d.registers.filterMap (fun p => d.scheme.get? p.1.name) = buildScheme d.handle d.device.vars := by
  have hvars : d.registers.map Prod.fst = d.device.vars := by
    rw [SimulatedDevice.registers, List.map_map]
    exact List.zipIdx_map_fst ..
  have hsplit : (fun p : NetVar × Register => d.scheme.get? p.1.name) = (fun var => d.scheme.get? var.name) ∘ Prod.fst := rfl
  rw [hsplit, ← List.filterMap_map, hvars]
  conv_lhs => rw [← buildScheme_var d.handle d.device.vars, List.filterMap_map]
  exact (List.filterMap_congr (fun acc hacc => hnames.get?_scheme hacc)).trans List.filterMap_some

/-- The accessors that a turn writes through are in the order of the scheme. -/
theorem accs_of_turn (hnames : d.device.DistinctNames) (h : (d.turn P t m).run objects = .ok log objects') :
    (log.map Sampling.acc).Sublist (buildScheme d.handle d.device.vars) := by
  cases hd : d.device.enabled with
  | false =>
    rw [turn_of_disabled hd] at h
    cases h
    exact List.nil_sublist _
  | true =>
    have hpass := pass_of_turn hd h
    have hlookup : log.map Sampling.acc =
        (log.map (fun s => (s.var, s.register))).filterMap (fun p => d.scheme.get? p.1.name) := by
      rw [List.filterMap_map, ← List.filterMap_eq_map]
      exact List.filterMap_congr (fun s hs => (hpass.noted s hs).acc.symm)
    rw [hlookup, hpass.map_log, ← accs_of_registers hnames]
    exact List.filter_sublist.filterMap _

theorem disjoint_turn (hnames : d.device.DistinctNames) (h : (d.turn P t m).run objects = .ok log objects') :
    log.Pairwise (fun a b => a.acc.Disjoint b.acc) :=
  List.pairwise_map.mp ((buildScheme_independent d.handle d.device.vars).disjoint.sublist (accs_of_turn hnames h))

theorem disjoint_turns (hnodup : (devices.map SimulatedDevice.handle).Nodup)
    (hnames : ∀ d ∈ devices, d.device.DistinctNames) (h : (turns P t m devices).run objects = .ok log objects') :
    log.Pairwise (fun a b => a.acc.Disjoint b.acc) := by
  induction devices generalizing objects log with
  | nil =>
    cases h
    exact .nil
  | cons d later ih =>
    obtain ⟨hnew, hnodup⟩ := List.nodup_cons.mp hnodup
    obtain ⟨hd, hlater⟩ := List.forall_mem_cons.mp hnames
    obtain ⟨own, o₁, more, hown, hmore, rfl⟩ := turns_cons_ok h
    refine List.pairwise_append.mpr ⟨disjoint_turn hd hown, ih hnodup hlater hmore, ?_⟩
    intro a ha b hb
    obtain ⟨⟨e, he, -, hhandle⟩, -⟩ := handle_of_turns hmore b hb
    refine .inl ?_
    rw [(acc_of_turn hown a ha).2, hhandle]
    exact fun heq => hnew (List.mem_map.mpr ⟨e, he, heq.symm⟩)

/-! ## The buffers -/

/-- After writes to disjoint places each place holds its value. -/
theorem holds_storeAll (hw : ∀ s ∈ log, s.acc.Wf) (hd : log.Pairwise (fun a b => a.acc.Disjoint b.acc))
    (h : storeAll log m = .ok m') : ∀ s ∈ log, s.acc.Holds m' s.fitted := by
  induction log generalizing m with
  | nil => exact fun s hs => absurd hs List.not_mem_nil
  | cons s rest ih =>
    obtain ⟨m₁, hs, hrest⟩ := storeAll_cons_ok.mp h
    obtain ⟨hws, hwrest⟩ := List.forall_mem_cons.mp hw
    obtain ⟨hsd, hd⟩ := List.pairwise_cons.mp hd
    refine List.forall_mem_cons.mpr ⟨?_, ih hwrest hd hrest⟩
    apply (NetVarAccessor.holds_congr hws ?_).mp (NetVarAccessor.holds_stored hws hs)
    intro p hlo hhi
    refine (bit_storeAll hwrest hrest ?_).symm
    intro b hb
    rcases hsd b hb with hne | hle | hle
    · exact .inl hne
    · exact .inr (.inl (by omega))
    · exact .inr (.inr (by omega))

/-- A place that the writes do not touch shows what it showed. -/
theorem value_storeAll (hw : ∀ s ∈ log, s.acc.Wf) (hacc : acc.Wf) (hd : ∀ s ∈ log, s.acc.Disjoint acc)
    (h : storeAll log m = .ok m') : acc.value m' = acc.value m := by
  apply NetVarAccessor.value_congr hacc
  intro p hlo hhi
  apply bit_storeAll hw h
  intro b hb
  rcases hd b hb with hne | hle | hle
  · exact .inl (Ne.symm hne)
  · exact .inr (.inr (by omega))
  · exact .inr (.inl (by omega))

end
/-! ## The effect of a tick -/

/-- The sample is finite and in the range of the singles. -/
def InSingleRange (sample : PyValue) : Prop :=
  ∃ n x, sample = .number n ∧ n.toDouble = .ok x ∧ x.isFinite = true ∧ (Binary.narrow x).isSome = true

theorem accepts_of_inSingleRange {R : Type} {P : Platform R} {c : NetVarCType} {v : PyValue} {x : Number}
    (hv : InSingleRange v) (h : fitValue P c v = .ok x) : c.Accepts x := by
  obtain ⟨n, y, rfl, hy, -, hnarrow⟩ := hv
  rcases fitValue_eq_ok.mp h with ⟨hc, z, hz, rfl⟩ | ⟨low, high, n', k, hrange, -, -, rfl⟩
  · refine (accepts_float_iff hc).mpr (fun _ => ?_)
    have heq : Except.ok y = Except.ok z := hy.symm.trans hz
    rwa [← Except.ok.inj heq]
  · exact accepts_clamped hrange k

section
variable {R : Type} {P : Platform R} {t : Double} {devices : List SimulatedDevice} {m m' : ByteMemory ℤ}
  {objects objects' : Objects R} {log : List (Sampling R)} {d : SimulatedDevice}

/-- The noted samples of one device are those of its turn. -/
theorem own_of_turns {earlier later : List SimulatedDevice}
    (hnodup : ((earlier ++ d :: later).map SimulatedDevice.handle).Nodup)
    (h : (turns P t m (earlier ++ d :: later)).run objects = .ok log objects') :
    ∃ o₁ own o₂, (∃ first, (turns P t m earlier).run objects = .ok first o₁) ∧ (d.turn P t m).run o₁ = .ok own o₂ ∧
      (∃ last, (turns P t m later).run o₂ = .ok last objects') ∧ ∀ s, s ∈ own ↔ s ∈ log ∧ s.register.handle = d.handle := by
  obtain ⟨first, o₁, own, o₂, last, hfirst, hown, hlast, rfl⟩ := turns_split h
  refine ⟨o₁, own, o₂, ⟨first, hfirst⟩, hown, ⟨last, hlast⟩, fun s => ⟨fun hs => ?_, ?_⟩⟩
  · exact ⟨List.mem_append_left _ (List.mem_append_right _ hs), register_of_turn hown s hs⟩
  · rw [List.map_append, List.map_cons] at hnodup
    obtain ⟨-, hright, hcross⟩ := List.nodup_append.mp hnodup
    rintro ⟨hs, hhandle⟩
    rcases List.mem_append.mp hs with hs | hs
    · rcases List.mem_append.mp hs with hs | hs
      · obtain ⟨⟨e, he, heq, -⟩, -⟩ := handle_of_turns hfirst s hs
        exact absurd (heq.symm.trans hhandle) (hcross _ (List.mem_map_of_mem he) _ List.mem_cons_self)
      · exact hs
    · obtain ⟨⟨e, he, heq, -⟩, -⟩ := handle_of_turns hlast s hs
      exact absurd (List.mem_map.mpr ⟨e, he, heq.symm.trans hhandle⟩) (List.nodup_cons.mp hright).1

theorem fitted_of_turn (hd : d.device.enabled = true) (h : (d.turn P t m).run objects = .ok log objects')
    (hnames : d.device.DistinctNames) {i : ℕ} {acc : NetVarAccessor}
    (hacc : (buildScheme d.handle d.device.vars)[i]? = some acc) {signal : Signal Source}
    (hsignal : d.signals.get? acc.var.name = some signal) :
    ∃ s ∈ log, s.register = ⟨d.handle, i⟩ ∧ s.acc = acc ∧
      (∃ cells, (sampleAt P t s.before.values signal).run s.before.cells = .ok s.sample cells) ∧
      fitValue P acc.var.ctype s.sample = .ok s.fitted := by
  have hpass := pass_of_turn hd h
  have hmem : (acc.var, (⟨d.handle, i⟩ : Register)) ∈ log.map (fun s => (s.var, s.register)) := by
    rw [hpass.map_log, List.mem_filter]
    exact ⟨register_of_scheme hacc, by rw [hsignal]; rfl⟩
  obtain ⟨s, hs, heq⟩ := List.mem_map.mp hmem
  obtain ⟨hvars, hregister⟩ := Prod.mk.inj heq
  have hnoted := hpass.noted s hs
  obtain ⟨signal', cells, hsignal', hsample⟩ := hnoted.sample
  have hlookup := hnoted.acc
  have hfitted := hnoted.fitted
  rw [hvars] at hsignal' hlookup hfitted
  rw [hsignal, Option.some.injEq] at hsignal'
  rw [SimulatedDevice.scheme, hnames.get?_scheme (List.mem_of_getElem? hacc), Option.some.injEq] at hlookup
  exact ⟨s, hs, hregister, hlookup.symm, ⟨cells, hsignal' ▸ hsample⟩, hfitted⟩

theorem name_of_scheme {name : String} {acc : NetVarAccessor} (h : d.scheme.get? name = some acc) :
    acc.var.name = name := by
  obtain ⟨a, -, he⟩ := List.mem_map.mp (Dict.mem_of_get?_ofList h)
  cases he
  rfl

theorem disjoint_silent (h : (d.turn P t m).run objects = .ok log objects') (hnames : d.device.DistinctNames)
    {acc : NetVarAccessor} (hacc : acc ∈ buildScheme d.handle d.device.vars)
    (hsignal : d.signals.get? acc.var.name = none) : ∀ s ∈ log, s.acc.Disjoint acc := by
  intro s hs
  have hnoted := (pass_of_mem_turn h hs).noted s hs
  have hmem : s.acc ∈ buildScheme d.handle d.device.vars :=
    (accs_of_turn hnames h).subset (List.mem_map_of_mem hs)
  apply (buildScheme_independent d.handle d.device.vars).disjoint_of_mem hmem hacc
  rintro rfl
  obtain ⟨signal, -, hsome, -⟩ := hnoted.sample
  rw [← name_of_scheme hnoted.acc, hsignal] at hsome
  cases hsome

theorem packs_of_turn (hnames : d.device.DistinctNames) (h : (d.turn P t m).run objects = .ok log objects') :
    ∀ s ∈ log, InSingleRange s.sample → s.acc.packs s.fitted = .ok () := by
  intro s hs hrange
  have hpass := pass_of_mem_turn h hs
  have hnoted := hpass.noted s hs
  obtain ⟨i, hi, -⟩ := mem_registers.mp (hpass.registered s hs)
  have hvar : s.var ∈ (buildScheme d.handle d.device.vars).map NetVarAccessor.var := by
    rw [buildScheme_var]
    exact List.mem_of_getElem? hi
  obtain ⟨acc, hacc, hvar⟩ := List.mem_map.mp hvar
  have hlookup : d.scheme.get? acc.var.name = some acc := hnames.get?_scheme hacc
  rw [hvar, hnoted.acc, Option.some.injEq] at hlookup
  rw [NetVarAccessor.packs_ok_iff, hlookup, hvar]
  exact accepts_of_inSingleRange hrange hnoted.fitted

theorem packs_of_turns (hnames : ∀ d ∈ devices, d.device.DistinctNames)
    (h : (turns P t m devices).run objects = .ok log objects') :
    ∀ s ∈ log, InSingleRange s.sample → s.acc.packs s.fitted = .ok () := by
  induction devices generalizing objects log with
  | nil =>
    cases h
    exact fun s hs => absurd hs List.not_mem_nil
  | cons d later ih =>
    obtain ⟨hd, hlater⟩ := List.forall_mem_cons.mp hnames
    obtain ⟨own, o₁, more, hown, hmore, rfl⟩ := turns_cons_ok h
    exact List.forall_mem_append.mpr ⟨packs_of_turn hd hown, ih hlater hmore⟩

theorem row_of_disabled (hnodup : (devices.map SimulatedDevice.handle).Nodup)
    (h : (turns P t m devices).run objects = .ok log objects') (hstore : storeAll log m = .ok m') (hmem : d ∈ devices)
    (hd : d.device.enabled = false) : m' d.handle = m d.handle := by
  obtain ⟨earlier, later, rfl⟩ := List.append_of_mem hmem
  obtain ⟨o₁, own, o₂, -, hown, -, hiff⟩ := own_of_turns hnodup h
  rw [turn_of_disabled hd] at hown
  cases hown
  refine row_storeAll (fun s hs => (handle_of_turns h s hs).2) hstore (fun s hs heq => ?_)
  obtain ⟨⟨e, -, hregister, hacc⟩, -⟩ := handle_of_turns h s hs
  exact absurd ((hiff s).mpr ⟨hs, (hregister.trans hacc.symm).trans heq⟩) List.not_mem_nil

/-- What a tick has made of an enabled device, with `m` before and `m'` after it: a variable that has a signal holds
the fitted sample, as its C type encodes it, and any other keeps what it showed. -/
structure Ticked (P : Platform R) (t : Double) (log : List (Sampling R)) (m m' : ByteMemory ℤ) (d : SimulatedDevice) :
    Prop where
  signalled (i : ℕ) (acc : NetVarAccessor) (signal : Signal Source) :
    (buildScheme d.handle d.device.vars)[i]? = some acc → d.signals.get? acc.var.name = some signal →
    ∃ s ∈ log, s.register = ⟨d.handle, i⟩ ∧
      (∃ cells, (sampleAt P t s.before.values signal).run s.before.cells = .ok s.sample cells) ∧
      fitValue P acc.var.ctype s.sample = .ok s.fitted ∧ acc.Holds m' s.fitted
  silent (acc : NetVarAccessor) : acc ∈ buildScheme d.handle d.device.vars →
    d.signals.get? acc.var.name = none → acc.value m' = acc.value m

/-- In every sample that the device takes, `Follow` of a variable of the other device which the backend may write and
which has no signal gives what the buffer held at the start of the tick, as a double. -/
def FollowsBuffers (P : Platform R) (t : Double) (log : List (Sampling R)) (m : ByteMemory ℤ)
    (d other : SimulatedDevice) : Prop :=
  ∀ s ∈ log, s.register.handle = d.handle → ∀ i acc v,
    (buildScheme other.handle other.device.vars)[i]? = some acc → acc.var.mode ≠ .R →
    other.signals.get? acc.var.name = none → acc.value m = .ok v →
    ∃ x, v.toDouble = .ok x ∧
      ∀ cells, (Source.sample P t s.before.values (.follow ⟨other.handle, i⟩)).run cells = .ok (.number (.float x)) cells

theorem ticked_of_turns (hnodup : (devices.map SimulatedDevice.handle).Nodup)
    (hnames : ∀ d ∈ devices, d.device.DistinctNames) (h : (turns P t m devices).run objects = .ok log objects')
    (hstore : storeAll log m = .ok m') (hmem : d ∈ devices) (hd : d.device.enabled = true) :
    Ticked P t log m m' d := by
  obtain ⟨earlier, later, rfl⟩ := List.append_of_mem hmem
  obtain ⟨o₁, own, o₂, -, hown, -, hiff⟩ := own_of_turns hnodup h
  have hwf : ∀ s ∈ log, s.acc.Wf := fun s hs => (handle_of_turns h s hs).2
  have hholds := holds_storeAll hwf (disjoint_turns hnodup hnames h) hstore
  constructor
  · intro i acc signal hacc hsignal
    obtain ⟨s, hs, hregister, rfl, hsample, hfitted⟩ := fitted_of_turn hd hown (hnames d hmem) hacc hsignal
    have hlog := ((hiff s).mp hs).1
    exact ⟨s, hlog, hregister, hsample, hfitted, hholds s hlog⟩
  · intro acc hacc hsignal
    apply value_storeAll hwf ((buildScheme_independent d.handle d.device.vars).wf acc hacc) ?_ hstore
    intro s hs
    by_cases hhandle : s.register.handle = d.handle
    · exact disjoint_silent hown (hnames d hmem) hacc hsignal s ((hiff s).mpr ⟨hs, hhandle⟩)
    · obtain ⟨⟨e, -, hregister, hacc'⟩, -⟩ := handle_of_turns h s hs
      refine .inl ?_
      rw [handle_of_mem_buildScheme hacc, hacc', ← hregister]
      exact hhandle

/-- The buffer of a followed variable, all through the turns of its own device and of the later ones. -/
theorem follows_of_turns {earlier later : List SimulatedDevice} {e : SimulatedDevice}
    (hnodup : ((earlier ++ d :: later).map SimulatedDevice.handle).Nodup)
    (h : (turns P t m (earlier ++ d :: later)).run objects = .ok log objects') (hmem : e ∈ earlier ++ [d])
    (he : e.device.enabled = true) (hnames : e.device.DistinctNames) : FollowsBuffers P t log m d e := by
  intro s hs hhandle i acc v hacc hmode hsignal hvalue
  have hregister : (acc.var, (⟨e.handle, i⟩ : Register)) ∈ e.registers := register_of_scheme hacc
  have hlookup : e.scheme.get? acc.var.name = some acc := hnames.get?_scheme (List.mem_of_getElem? hacc)
  have hshown : acc.shown m = v := by
    rw [NetVarAccessor.value_eq_shown, Except.ok.injEq] at hvalue
    exact hvalue
  have hvalues : s.before.values ⟨e.handle, i⟩ = v := by
    obtain ⟨o₁, own, o₂, ⟨first, hfirst⟩, hown, -, hiff⟩ := own_of_turns hnodup h
    have hsown := (hiff s).mpr ⟨hs, hhandle⟩
    rcases List.mem_append.mp hmem with hearlier | hself
    · -- the buffer is loaded in the turn of the other device, and what comes between leaves the variable
      obtain ⟨before, between, rfl⟩ := List.append_of_mem hearlier
      obtain ⟨_, p₁, _, p₂, _, -, hturn, hbetween, -⟩ := turns_split hfirst
      have hhandles : ∀ c ∈ between ++ [d], (⟨e.handle, i⟩ : Register).handle ≠ c.handle := by
        intro c hc heq
        rw [List.append_assoc, List.map_append, List.cons_append, List.map_cons] at hnodup
        refine (List.nodup_cons.mp (List.nodup_append.mp hnodup).2.1).1 (List.mem_map.mpr ⟨c, ?_, heq.symm⟩)
        rcases List.mem_append.mp hc with hc | hc
        · exact List.mem_append_left _ hc
        · cases List.mem_singleton.mp hc
          exact List.mem_append_right _ List.mem_cons_self
      rw [List.forall_mem_append, List.forall_mem_singleton] at hhandles
      rw [(turn_values_of_ne hhandles.2 hown).1 s hsown, turns_values_of_ne hhandles.1 hbetween,
        (turn_values_of_control he hturn hregister hmode hsignal hlookup).2, hshown]
    · cases List.mem_singleton.mp hself
      rw [(turn_values_of_control he hown hregister hmode hsignal hlookup).1 s hsown, hshown]
  obtain ⟨x, hx⟩ := toDouble_of_inRange (NetVarAccessor.inRange_of_value hvalue)
  refine ⟨x, hx, fun cells => ?_⟩
  rw [Source.sample, hvalues, hx]
  rfl

/-- The tick returns, and has written the samples. -/
theorem tick_of_samples {σ : Type} [UnidriverIo σ] [LawfulUnidriverIo σ] {engine : SimulationEngine}
    {w₀ w₁ w : World σ R} (hbuilt : (SimulationEngine.build devices).run w₀ = .ok engine w₁)
    (hnames : ∀ d ∈ devices, d.device.DistinctNames)
    (hlog : (turns P t (LawfulUnidriverIo.memory w.io) devices).run w.objects = .ok log objects)
    (hrange : ∀ s ∈ log, InSingleRange s.sample) :
    ∃ io, (engine.tick P t).run w = .ok () ⟨io, objects⟩ ∧
      storeAll log (LawfulUnidriverIo.memory w.io) = .ok (LawfulUnidriverIo.memory io) := by
  obtain ⟨hdevices, hnodup, hschemes⟩ := build_ok hbuilt
  obtain ⟨m', hstore⟩ := (storeAll_ok_iff log _).mpr (fun s hs => packs_of_turns hnames hlog s hs (hrange s hs))
  obtain ⟨io, hrun, rfl⟩ := (tickAll_ok_iff (w := w) hschemes hnodup (fun _ _ => rfl)).mpr ⟨log, hlog, hstore⟩
  rw [← hdevices] at hrun
  exact ⟨io, hrun, hstore⟩

end

/-- **What a tick does.** When the samples of a tick are finite and in the range of the singles, the tick returns.
Every enabled device then holds its fitted samples and keeps its other variables; a signal that follows a control of
its own device or of an enabled device before it gives what the buffer held at the start; a disabled device keeps its
buffer; and a device that follows only its own variables, and shares no random source, ends as it does alone. -/
theorem tick_publishes {R : Type} (P : Platform R) {devices : List SimulatedDevice} {engine : SimulationEngine}
    {w₀ w₁ : World InMemoryUnidriverIo R} (hbuilt : (SimulationEngine.build devices).run w₀ = .ok engine w₁)
    (hnames : ∀ d ∈ devices, d.device.DistinctNames) (w : World InMemoryUnidriverIo R) (t : Double)
    {log : List (Sampling R)} {objects : Objects R}
    (hlog : (turns P t w.io.memory devices).run w.objects = .ok log objects)
    (hrange : ∀ s ∈ log, InSingleRange s.sample) :
    ∃ io, (engine.tick P t).run w = .ok () ⟨io, objects⟩ ∧
      (∀ d ∈ devices, d.device.enabled = true → Ticked P t log w.io.memory io.memory d) ∧
      (∀ earlier d later, devices = earlier ++ d :: later → ∀ e ∈ earlier ++ [d], e.device.enabled = true →
        FollowsBuffers P t log w.io.memory d e) ∧
      (∀ d ∈ devices, d.device.enabled = false → io.memory d.handle = w.io.memory d.handle) ∧
      ∀ d ∈ devices, d.Local → (∀ e ∈ devices, e.handle ≠ d.handle → List.Disjoint e.randoms d.randoms) →
        ∀ (alone : SimulationEngine) (w₂ w₃ : World InMemoryUnidriverIo R),
          (SimulationEngine.build [d]).run w₂ = .ok alone w₃ →
          ∃ w', (alone.tick P t).run w = .ok () w' ∧ w'.io.memory d.handle = io.memory d.handle := by
  obtain ⟨hdevices, hnodup, hschemes⟩ := build_ok hbuilt
  obtain ⟨io, hrun, hstore⟩ := tick_of_samples hbuilt hnames hlog hrange
  refine ⟨io, hrun, ?_, ?_, ?_, ?_⟩
  · exact fun d hd henabled => ticked_of_turns hnodup hnames hlog hstore hd henabled
  · rintro earlier d later rfl e he henabled
    have hmem : e ∈ earlier ++ d :: later := by
      rcases List.mem_append.mp he with he | he
      · exact List.mem_append_left _ he
      · exact List.mem_append_right _ (List.mem_singleton.mp he ▸ List.mem_cons_self)
    exact follows_of_turns hnodup hlog he henabled (hnames e hmem)
  · exact fun d hd hdisabled => row_of_disabled hnodup hlog hstore hd hdisabled
  · intro d hd hlocal hshare alone w₂ w₃ halone
    obtain ⟨earlier, later, rfl⟩ := List.append_of_mem hd
    obtain ⟨halone, -, hscheme⟩ := build_ok halone
    rw [List.map_append, List.map_cons, List.nodup_append] at hnodup
    have hapart : ∀ e ∈ earlier ++ later, Apart d e := by
      intro e he
      have hne : e.handle ≠ d.handle := by
        rcases List.mem_append.mp he with he | he
        · exact hnodup.2.2 _ (List.mem_map_of_mem he) _ List.mem_cons_self
        · exact fun heq => (List.nodup_cons.mp hnodup.2.1).1 (List.mem_map.mpr ⟨e, he, heq⟩)
      refine ⟨hne, hshare e ?_ hne⟩
      rcases List.mem_append.mp he with he | he
      · exact List.mem_append_left _ he
      · exact List.mem_append_right _ (List.mem_cons_of_mem _ he)
    rw [SimulationEngine.tick, hdevices] at hrun
    obtain ⟨w', hticked, hsame⟩ := tick_alone hschemes (hscheme d List.mem_cons_self) hlocal hapart hrun
    refine ⟨w', ?_, hsame.row⟩
    rw [SimulationEngine.tick, halone]
    exact hticked

/-- A platform whose random numbers are all zero. -/
def quiet : Platform Unit := ⟨id, fun _ => none, fun _ => (), fun _ => (), fun _ => (0, ())⟩

/-- A sensor repeats the control declared after it. -/
def repeater : SimulatedDevice where
  device := ⟨"repeater", "Repeater", "Эмулятор", true, .OK, [⟨"copy", .U8, .R, .int 0⟩, ⟨"setpoint", .U8, .RW, .int 0⟩]⟩
  signals := Dict.ofList [("copy", .source (.follow ⟨1, 1⟩))]
  handle := 1

def freshWorld (io : InMemoryUnidriverIo) : World InMemoryUnidriverIo Unit :=
  ⟨io, ⟨fun _ => .int 0, fun _ => ⟨.null, ()⟩⟩⟩

/-- The backend has written 20 to the control. -/
theorem repeater_publishes : ∃ engine w₁ io objects,
    (SimulationEngine.build [repeater]).run (freshWorld ⟨.empty⟩) = .ok engine w₁ ∧
      (engine.tick quiet 0).run (freshWorld ⟨Dict.ofList [(1, [0, 20])]⟩) = .ok () ⟨io, objects⟩ ∧
      ∀ acc, (buildScheme 1 repeater.device.vars)[0]? = some acc → acc.Holds io.memory (.int 20) := by
  obtain ⟨engine, w₁, hbuilt⟩ : ∃ engine w₁, (SimulationEngine.build [repeater]).run (freshWorld ⟨.empty⟩) =
      .ok engine w₁ := ⟨_, _, rfl⟩
  obtain ⟨log, objects, hlog, hsamples⟩ : ∃ log objects,
      (turns quiet 0 (freshWorld ⟨Dict.ofList [(1, [0, 20])]⟩).io.memory [repeater]).run
        (freshWorld ⟨Dict.ofList [(1, [0, 20])]⟩).objects = .ok log objects ∧
      log.map Sampling.sample = [.number (.float 0x4034000000000000)] := ⟨_, _, rfl, by decide⟩
  have hsample : ∀ s ∈ log, s.sample = .number (.float 0x4034000000000000) := by
    intro s hs
    exact List.mem_singleton.mp (hsamples ▸ List.mem_map_of_mem hs)
  have hrange : ∀ s ∈ log, InSingleRange s.sample := by
    intro s hs
    rw [hsample s hs]
    exact ⟨_, _, rfl, rfl, by decide, by decide⟩
  have hnames : ∀ d ∈ [repeater], d.device.DistinctNames := by
    intro d hd
    cases List.mem_singleton.mp hd
    show (["copy", "setpoint"] : List String).Nodup
    decide
  obtain ⟨io, hrun, hticked, -⟩ :=
    tick_publishes quiet hbuilt hnames (freshWorld ⟨Dict.ofList [(1, [0, 20])]⟩) 0 hlog hrange
  refine ⟨engine, w₁, io, objects, hbuilt, hrun, fun acc hacc => ?_⟩
  have hsignal : repeater.signals.get? acc.var.name = some (.source (.follow ⟨1, 1⟩)) := by
    cases hacc
    rfl
  obtain ⟨s, hs, -, -, hfitted, hholds⟩ := (hticked repeater List.mem_cons_self rfl).signalled 0 acc _ hacc hsignal
  have hfit : fitValue quiet acc.var.ctype s.sample = .ok (.int 20) := by
    rw [hsample s hs]
    cases hacc
    decide +kernel
  rw [hfitted, Except.ok.injEq] at hfit
  rwa [hfit] at hholds

/-- A sensor repeats a control of a later device. -/
def recorder : SimulatedDevice where
  device := ⟨"recorder", "Recorder", "Эмулятор", true, .OK, [⟨"copy", .U8, .R, .int 0⟩]⟩
  signals := Dict.ofList [("copy", .source (.follow ⟨2, 0⟩))]
  handle := 1

def recorded : SimulatedDevice where
  device := ⟨"recorded", "Recorded", "Эмулятор", true, .OK, [⟨"setpoint", .U8, .RW, .int 0⟩]⟩
  signals := .empty
  handle := 2

/-- The backend has written 20 to the control, and the tick still repeats the value from before. -/
theorem recorder_lags : ∃ engine w₁ log objects io,
    (SimulationEngine.build [recorder, recorded]).run (freshWorld ⟨.empty⟩) = .ok engine w₁ ∧
      (∀ d ∈ [recorder, recorded], d.device.DistinctNames) ∧
      (turns quiet 0 (freshWorld ⟨Dict.ofList [(2, [20])]⟩).io.memory [recorder, recorded]).run
        (freshWorld ⟨Dict.ofList [(2, [20])]⟩).objects = .ok log objects ∧
      (∀ s ∈ log, InSingleRange s.sample) ∧
      (engine.tick quiet 0).run (freshWorld ⟨Dict.ofList [(2, [20])]⟩) = .ok () ⟨io, objects⟩ ∧
      ¬ FollowsBuffers quiet 0 log (freshWorld ⟨Dict.ofList [(2, [20])]⟩).io.memory recorder recorded := by
  obtain ⟨engine, w₁, hbuilt⟩ : ∃ engine w₁, (SimulationEngine.build [recorder, recorded]).run (freshWorld ⟨.empty⟩) =
      .ok engine w₁ := ⟨_, _, rfl⟩
  obtain ⟨s, objects, hlog, hregister, hvalue, hsample⟩ : ∃ s objects,
      (turns quiet 0 (freshWorld ⟨Dict.ofList [(2, [20])]⟩).io.memory [recorder, recorded]).run
        (freshWorld ⟨Dict.ofList [(2, [20])]⟩).objects = .ok [s] objects ∧
      s.register = ⟨1, 0⟩ ∧ s.before.values ⟨recorded.handle, 0⟩ = .int 0 ∧ s.sample = .number (.float 0) :=
    ⟨_, _, rfl, rfl, rfl, rfl⟩
  have hrange : ∀ s' ∈ [s], InSingleRange s'.sample := by
    intro s' hs'
    rw [List.mem_singleton.mp hs', hsample]
    exact ⟨_, _, rfl, rfl, by decide, by decide⟩
  have hnames : ∀ d ∈ [recorder, recorded], d.device.DistinctNames :=
    List.forall_mem_cons.mpr ⟨List.nodup_singleton _, List.forall_mem_singleton.mpr (List.nodup_singleton _)⟩
  obtain ⟨io, htick, -⟩ := tick_of_samples hbuilt hnames hlog hrange
  refine ⟨engine, w₁, _, objects, io, hbuilt, hnames, hlog, hrange, htick, fun hfollows => ?_⟩
  obtain ⟨x, hx, hrun⟩ := hfollows s List.mem_cons_self (congrArg Register.handle hregister) 0 _ (.int 20) rfl
    (by decide) rfl (by decide)
  have hread := hrun (fun _ => ⟨.null, ()⟩)
  rw [Source.sample, hvalue] at hread
  cases hread
  revert hx
  decide

end Tstlan.Simulation
