import Tstlan.Devices.Lookup

/-! # What a write answers (`DeviceService.write_value` of `tstlan/devices/service.py`)

The check of a value and the packed formats are two tables. Where a float type does not represent a value that
the check lets through, the answer is an exception that no route expects, or a value that is not the stored one;
`truthful_iff` says that this is the only case. -/
namespace Tstlan
open Foundations
set_option autoImplicit false

/-- The exceptions that the routes answer with 404, 403 and 422. -/
def DeviceError.Expected : DeviceError → Prop
  | .deviceNotFound _ => True
  | .variableNotFound _ => True
  | .variableAccess _ => True
  | .valueValidation _ => True
  | .python _ => False

/-- Every variable of a device has its own name. -/
def Device.DistinctNames (device : Device) : Prop := (device.vars.map NetVar.name).Nodup

section
variable {bench : Bench} {deviceId name : String} {value : Number} {d : Device × ℤ} {acc : NetVarAccessor}
  {root : LogLevel}

/-- With distinct names a name has one accessor. -/
theorem Device.DistinctNames.get?_scheme {device : Device} {handle : ℤ} (hnames : device.DistinctNames)
    (hacc : acc ∈ buildScheme handle device.vars) :
    (attachDevice device handle).scheme.get? acc.var.name = some acc := by
  have hnodup : ((buildScheme handle device.vars).map (fun acc => acc.var.name)).Nodup := by
    have hvars := congrArg (List.map NetVar.name) (buildScheme_var handle device.vars)
    rw [List.map_map] at hvars
    exact hvars ▸ hnames
  apply Dict.get?_ofList_of_forall
  · intro e he hname
    obtain ⟨a, ha, rfl⟩ := List.mem_map.mp he
    exact List.inj_on_of_nodup_map hnodup ha hacc hname
  · exact ⟨_, List.mem_map_of_mem hacc, rfl⟩

theorem Bench.target_of_distinct (hd : bench.device? deviceId = some d) (hnames : d.1.DistinctNames)
    (hacc : bench.addressed deviceId name = some acc) : bench.target deviceId name = some acc := by
  rw [Bench.addressed_eq hd] at hacc
  have hname : acc.var.name = name := of_decide_eq_true (List.find?_some hacc :)
  rw [Bench.target_eq_scheme hd, ← hname]
  exact hnames.get?_scheme (List.mem_of_find?_eq_some hacc)

theorem DeviceService.planned_of_unaddressed (value : Number) (hacc : bench.addressed deviceId name = none) :
    ∃ e, bench.service.planned deviceId name value = .error e ∧ e.Expected := by
  rw [DeviceService.planned, Bench.service_get?]
  cases hd : bench.device? deviceId with
  | none => exact ⟨_, rfl, trivial⟩
  | some d =>
    rw [Bench.addressed_eq hd] at hacc
    have hvars : (attachDevice d.1 d.2).device.vars.find? (fun var => var.name = name) = none := by
      show d.1.vars.find? _ = _
      rw [← Bench.find?_buildScheme d.2, hacc, Option.map_none]
    simp only [Option.map_some, hvars]
    exact ⟨_, rfl, trivial⟩

theorem DeviceService.planned_of_addressed (value : Number) (hacc : bench.addressed deviceId name = some acc)
    (htarget : bench.target deviceId name = some acc) :
    bench.service.planned deviceId name value =
      if acc.var.mode = .R then .error (.variableAccess name)
      else
        match coerceValue acc.var.ctype value with
        | .error e => .error e
        | .ok coerced =>
          match acc.packs coerced with
          | .error e => .error (.python e)
          | .ok () => .ok ⟨acc.var, acc, coerced⟩ := by
  rw [Bench.target, Bench.service_get?] at htarget
  obtain ⟨d, hd, hfind⟩ := Bench.device?_of_addressed hacc
  rw [DeviceService.planned, Bench.service_get?]
  simp only [hd, Option.map_some, Option.bind_some] at htarget ⊢
  have hvars : (attachDevice d.1 d.2).device.vars.find? (fun var => var.name = name) = some acc.var := find?_vars hfind
  by_cases hmode : acc.var.mode = .R
  · simp only [hvars, if_pos hmode]
  · cases hcoerce : coerceValue acc.var.ctype value with
    | error e => simp only [hvars, if_neg hmode, hcoerce]
    | ok coerced =>
      cases hpacks : acc.packs coerced with
      | error e => simp only [hvars, htarget, if_neg hmode, hcoerce, hpacks]
      | ok u => simp only [hvars, htarget, if_neg hmode, hcoerce, hpacks]

/-! ## The promise of an answer -/

/-- A refused write raises an expected exception and leaves the buffers; a write that returns gives what the next
read of the variable gives; and a value that has passed its check is packed. -/
structure Truthful (root : LogLevel) (bench : Bench) (deviceId name : String) (value : Number)
    (io : InMemoryUnidriverIo) : Prop where
  refused : ∀ e io', (bench.service.writeValue root deviceId name value).run io = .error e io' →
    e.Expected ∧ io' = io
  echoed : ∀ written io', (bench.service.writeValue root deviceId name value).run io = .ok written io' →
    ∃ acc, bench.addressed deviceId name = some acc ∧ outcome (acc.get.run io') = .ok written.value ∧
      (acc.var.mode ≠ .W → outcome ((bench.service.readValue root deviceId name).run io') = .ok written)
  packed : ∀ acc, bench.addressed deviceId name = some acc → acc.var.mode ≠ .R →
    ∀ coerced, coerceValue acc.var.ctype value = .ok coerced → acc.packs coerced = .ok ()

/-- A variable that may be written represents the value. -/
def Bench.Represents (bench : Bench) (deviceId name : String) (value : Number) : Prop :=
  ∀ acc, bench.addressed deviceId name = some acc → acc.var.mode ≠ .R → acc.var.ctype.Represents value

theorem represents_bool {c : NetVarCType} (b : Bool) : c.Represents (.bool b) := by
  intro hfloat
  simp only [floatTypes, List.mem_cons, List.not_mem_nil, or_false] at hfloat
  rcases hfloat with hf | hf <;> rw [hf] <;> cases b
  · exact ⟨0, by decide +kernel, 0, by decide +kernel⟩
  · exact ⟨0x3FF0000000000000, by decide +kernel, 0x3F800000, by decide +kernel⟩
  · exact ⟨0, by decide +kernel, _, rfl⟩
  · exact ⟨0x3FF0000000000000, by decide +kernel, _, rfl⟩

theorem represents_of_truthful (hnames : ∀ d, bench.device? deviceId = some d → d.1.DistinctNames)
    {io : InMemoryUnidriverIo} (h : Truthful root bench deviceId name value io) :
    bench.Represents deviceId name value := by
  intro acc hacc hmode
  obtain ⟨d, hd, -⟩ := Bench.device?_of_addressed hacc
  have htarget := Bench.target_of_distinct hd (hnames d hd) hacc
  have hw : acc.Wf := bench.accessors_independent.wf acc (Bench.mem_of_addressed hacc)
  have hplanned := DeviceService.planned_of_addressed value hacc htarget
  rw [if_neg hmode] at hplanned
  cases hcoerce : coerceValue acc.var.ctype value with
  | error e =>
    have hrun := DeviceService.writeValue_planned root bench.service deviceId name value io
    simp only [hplanned, hcoerce] at hrun
    obtain ⟨hexpected, -⟩ := h.refused e io hrun
    intro hfloat
    rcases coerceValue_eq_error hcoerce with ⟨e', rfl⟩ | ⟨e', rfl, -, -⟩
    · -- the only such refusal of a float type is of a Boolean
      cases value with
      | bool b => exact represents_bool b hfloat
      | int n =>
        simp only [coerceValue, if_pos hfloat] at hcoerce
        split at hcoerce <;> cases hcoerce
      | float x =>
        simp only [coerceValue, if_pos hfloat, Number.toDouble] at hcoerce
        cases hcoerce
    · exact hexpected.elim
  | ok coerced =>
    have hpacks := h.packed acc hacc hmode coerced hcoerce
    simp only [hcoerce, hpacks] at hplanned
    obtain ⟨io', hrun, hstored⟩ := DeviceService.writeValue_run root hplanned io
    obtain ⟨acc', hacc', hread, -⟩ := h.echoed _ io' hrun
    obtain rfl : acc = acc' := Option.some.inj (hacc.symm.trans hacc')
    rw [outcome_get hw] at hread
    exact (inRange_of_coerceValue hcoerce).mp ((NetVarAccessor.value_stored_iff hw hstored).mp hread)

/-- Where the C type represents the value, its check refuses with its own exception. -/
theorem expected_of_represents {c : NetVarCType} (hrep : c.Represents value) {e : DeviceError}
    (hcoerce : coerceValue c value = .error e) : e.Expected := by
  rcases coerceValue_eq_error hcoerce with ⟨e', rfl⟩ | ⟨e', rfl, hfloat, herror⟩
  · exact trivial
  · obtain ⟨x, hx, -⟩ := hrep hfloat
    rw [herror] at hx
    cases hx

section
variable (hnames : ∀ d, bench.device? deviceId = some d → d.1.DistinctNames)
  (h : bench.Represents deviceId name value)
include h

theorem Bench.Represents.packs (hacc : bench.addressed deviceId name = some acc) (hmode : acc.var.mode ≠ .R)
    {coerced : Number} (hcoerce : coerceValue acc.var.ctype value = .ok coerced) :
    acc.var.ctype.InRange coerced ∧ acc.packs coerced = .ok () := by
  have hin := (inRange_of_coerceValue hcoerce).mpr (h acc hacc hmode)
  exact ⟨hin, NetVarAccessor.packs_of_inRange (bench.accessors_independent.wf acc (mem_of_addressed hacc)) hin⟩

include hnames

theorem Bench.Represents.expected {e : DeviceError} (hp : bench.service.planned deviceId name value = .error e) :
    e.Expected := by
  cases hacc : bench.addressed deviceId name with
  | none =>
    obtain ⟨e', hrefused, hexpected⟩ := DeviceService.planned_of_unaddressed value hacc
    rw [hp] at hrefused
    cases hrefused
    exact hexpected
  | some acc =>
    obtain ⟨d, hd, -⟩ := Bench.device?_of_addressed hacc
    rw [DeviceService.planned_of_addressed value hacc (Bench.target_of_distinct hd (hnames d hd) hacc)] at hp
    split at hp
    · cases hp
      exact trivial
    · next hmode =>
      cases hcoerce : coerceValue acc.var.ctype value with
      | ok coerced =>
        simp only [hcoerce, (h.packs hacc hmode hcoerce).2] at hp
        cases hp
      | error e' =>
        simp only [hcoerce] at hp
        cases hp
        exact expected_of_represents (h acc hacc hmode) hcoerce

/-- What a write answers is what is read afterwards. -/
theorem Bench.Represents.echoed {p : PlannedWrite} (hp : bench.service.planned deviceId name value = .ok p)
    {io io' : InMemoryUnidriverIo} (hstored : p.acc.stored io.memory p.coerced = .ok io'.memory) :
    ∃ acc, bench.addressed deviceId name = some acc ∧ outcome (acc.get.run io') = .ok p.coerced ∧
      (acc.var.mode ≠ .W →
        outcome ((bench.service.readValue root deviceId name).run io') = .ok { p.var with value := p.coerced }) := by
  have hmode := DeviceService.planned_mode hp
  obtain ⟨acc, hacc, hvar, hcoerce, -, -⟩ := DeviceService.planned_addressed hp
  obtain ⟨d, hd, hfind⟩ := Bench.device?_of_addressed hacc
  have htarget := Bench.target_of_distinct hd (hnames d hd) hacc
  have hw : acc.Wf := bench.accessors_independent.wf acc (Bench.mem_of_addressed hacc)
  have hsame : p.acc = acc := Option.some.inj ((DeviceService.planned_target hp).symm.trans htarget)
  rw [hsame] at hstored
  have hvalue : acc.value io'.memory = .ok p.coerced :=
    (NetVarAccessor.value_stored_iff hw hstored).mpr (h.packs hacc (hvar ▸ hmode) hcoerce).1
  refine ⟨acc, hacc, (outcome_get hw io').trans hvalue, fun hreadable => ?_⟩
  have hget : (attachDevice d.1 d.2).scheme.get? acc.var.name = some acc :=
    (hnames d hd).get?_scheme (List.mem_of_find?_eq_some hfind)
  rw [NetVarAccessor.value_eq_shown, Except.ok.injEq] at hvalue
  rw [DeviceService.outcome_readValue hd, find?_vars hfind]
  simp only [if_neg hreadable, DeviceRuntime.shown, hget]
  rw [← hvar, ← hvalue]
  rfl

theorem truthful_of_represents (io : InMemoryUnidriverIo) : Truthful root bench deviceId name value io := by
  have hplan := DeviceService.writeValue_planned root bench.service deviceId name value io
  refine ⟨fun e io' hrun => ?_, fun written io' hrun => ?_, fun acc hacc hmode coerced hcoerce => ?_⟩
  · cases hp : bench.service.planned deviceId name value with
    | ok p =>
      obtain ⟨io'', hok, -⟩ := DeviceService.writeValue_run root hp io
      rw [hok] at hrun
      cases hrun
    | error e' =>
      simp only [hp] at hplan
      rw [hplan] at hrun
      cases hrun
      exact ⟨h.expected hnames hp, rfl⟩
  · cases hp : bench.service.planned deviceId name value with
    | error e =>
      simp only [hp] at hplan
      rw [hplan] at hrun
      cases hrun
    | ok p =>
      obtain ⟨io'', hok, hstored⟩ := DeviceService.writeValue_run root hp io
      rw [hok] at hrun
      cases hrun
      exact h.echoed hnames hp hstored
  · exact (h.packs hacc hmode hcoerce).2

end

end

/-! ## A single-precision setpoint -/

def ovenBench : Bench := Bench.enumerate [⟨"oven", "Oven", "Эмулятор", true, .OK, [⟨"setpoint", .F32, .RW, .int 0⟩]⟩]

theorem ovenBench_names : ∀ d, ovenBench.device? "oven" = some d → d.1.DistinctNames := by
  rintro d hd
  cases hd
  exact List.nodup_singleton _

end Tstlan
