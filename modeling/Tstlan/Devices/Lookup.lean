import Tstlan.Devices.Coercion
import Tstlan.Devices.Values

/-! # Two lookups of one name (`tstlan/devices/service.py`, `tstlan/devices/runtime.py`)

The service takes the mode and the C type of a request from the first variable of the name, and the address
from the last. `protected_iff` says for which lists of variables the modes are enforced all the same. -/
namespace Tstlan
open Foundations
set_option autoImplicit false

/-! ## The accessor that a request reaches -/

/-- The accessor under a name: of several variables of one name, that of the last. -/
def Bench.target (bench : Bench) (deviceId name : String) : Option NetVarAccessor :=
  (bench.service.devices.get? deviceId).bind (fun runtime => runtime.scheme.get? name)

section
variable {bench : Bench} {user : User} {deviceId name : String} {value : Number} {p : PlannedWrite}
  {acc : NetVarAccessor}

theorem DeviceService.planned_target (h : bench.service.planned deviceId name value = .ok p) :
    bench.target deviceId name = some p.acc := by
  rw [DeviceService.planned] at h
  rw [Bench.target]
  cases hruntime : bench.service.devices.get? deviceId with
  | none => rw [hruntime] at h; cases h
  | some runtime =>
    simp only [hruntime] at h
    rw [Option.bind_some]
    split at h
    · cases h
    · split at h
      · cases h
      · split at h
        · cases h
        · split at h
          · cases h
          · next hget =>
            split at h
            · cases h
            · cases h
              exact hget

theorem DeviceRoutes.planned_writer (h : DeviceRoutes.planned bench.service user deviceId name value = .ok p) :
    user.role ∈ [Role.DEV, Role.ADMIN] := by
  rw [DeviceRoutes.planned] at h
  by_contra hrole
  rw [if_pos hrole] at h
  cases h

/-- Of several variables of one name the dictionary keeps the last. -/
theorem scheme_get?_eq (device : Device) (handle : ℤ) (name : String) :
    (attachDevice device handle).scheme.get? name =
      (buildScheme handle device.vars).reverse.find? (fun acc => acc.var.name = name) := by
  rw [attachDevice, Dict.get?_ofList, ← List.map_reverse, List.find?_map, Option.map_map]
  exact Option.map_id'

theorem Bench.target_eq_scheme {d : Device × ℤ} (hd : bench.device? deviceId = some d) :
    bench.target deviceId name = (attachDevice d.1 d.2).scheme.get? name := by
  rw [target, service_get?, hd, Option.map_some, Option.bind_some]

theorem Bench.target_eq {d : Device × ℤ} (hd : bench.device? deviceId = some d) :
    bench.target deviceId name = (buildScheme d.2 d.1.vars).reverse.find? (fun acc => acc.var.name = name) :=
  (target_eq_scheme hd).trans (scheme_get?_eq d.1 d.2 name)

theorem Bench.addressed_eq {d : Device × ℤ} (hd : bench.device? deviceId = some d) :
    bench.addressed deviceId name = (buildScheme d.2 d.1.vars).find? (fun acc => acc.var.name = name) := by
  rw [addressed, hd]

theorem Bench.device?_of_addressed (hacc : bench.addressed deviceId name = some acc) :
    ∃ d, bench.device? deviceId = some d ∧ (buildScheme d.2 d.1.vars).find? (fun acc => acc.var.name = name) = some acc := by
  cases hd : bench.device? deviceId with
  | none =>
    rw [Bench.addressed, hd] at hacc
    cases hacc
  | some d => exact ⟨d, rfl, by rwa [Bench.addressed_eq hd] at hacc⟩

/-- No two requests reach the same accessor. -/
theorem Bench.eq_of_target {deviceId' name' : String} (htarget : bench.target deviceId' name' = some acc)
    (hacc : bench.addressed deviceId name = some acc) : deviceId' = deviceId ∧ name' = name := by
  obtain ⟨d, hd, hfind⟩ := Bench.device?_of_addressed hacc
  obtain ⟨d', hd'⟩ : ∃ d', bench.device? deviceId' = some d' := by
    cases hd' : bench.device? deviceId' with
    | some d' => exact ⟨d', rfl⟩
    | none =>
      rw [target, service_get?, hd'] at htarget
      cases htarget
  rw [Bench.target_eq hd'] at htarget
  have hmem' := List.mem_reverse.mp (List.mem_of_find?_eq_some htarget)
  have hhandle : d'.2 = d.2 :=
    (handle_of_mem_buildScheme hmem').symm.trans (handle_of_mem_buildScheme (List.mem_of_find?_eq_some hfind))
  have hsame : d' = d := List.inj_on_of_nodup_map bench.handles (mem_of_device? hd') (mem_of_device? hd) hhandle
  have hname' : acc.var.name = name' := of_decide_eq_true (List.find?_some htarget :)
  have hname : acc.var.name = name := of_decide_eq_true (List.find?_some hfind :)
  exact ⟨(id_of_device? hd').symm.trans (hsame ▸ id_of_device? hd), hname'.symm.trans hname⟩

theorem DeviceService.planned_of_lookups {target : NetVarAccessor}
    (hacc : bench.addressed deviceId name = some acc) (htarget : bench.target deviceId name = some target)
    (hmode : acc.var.mode ≠ .R) {coerced : Number} (hcoerce : coerceValue acc.var.ctype value = .ok coerced)
    (hpacks : target.packs coerced = .ok ()) :
    bench.service.planned deviceId name value = .ok ⟨acc.var, target, coerced⟩ := by
  rw [Bench.target, Bench.service_get?] at htarget
  rw [planned, Bench.service_get?]
  rw [Bench.addressed] at hacc
  cases hd : bench.device? deviceId with
  | none => rw [hd] at hacc; cases hacc
  | some d =>
    simp only [hd, Option.map_some, Option.bind_some] at hacc htarget ⊢
    have hvar : (attachDevice d.1 d.2).device.vars.find? (fun var => var.name = name) = some acc.var := by
      show d.1.vars.find? _ = _
      rw [← Bench.find?_buildScheme d.2, hacc, Option.map_some]
    simp only [hvar, if_neg hmode, hcoerce, htarget, hpacks]

theorem DeviceRoutes.planned_of_target (hrole : user.role ∈ [Role.DEV, Role.ADMIN])
    (hacc : bench.addressed deviceId name = some acc) (htarget : bench.target deviceId name = some acc)
    (hmode : acc.var.mode ≠ .R) {coerced : Number} (hcoerce : coerceValue acc.var.ctype value = .ok coerced)
    (hpacks : acc.packs coerced = .ok ()) :
    DeviceRoutes.planned bench.service user deviceId name value = .ok ⟨acc.var, acc, coerced⟩ := by
  rw [DeviceRoutes.planned, if_neg (not_not.mpr hrole),
    DeviceService.planned_of_lookups hacc htarget hmode hcoerce hpacks]
  rfl

theorem DeviceService.planned_mode (h : bench.service.planned deviceId name value = .ok p) : p.var.mode ≠ .R := by
  rw [DeviceService.planned] at h
  split at h
  · cases h
  · split at h
    · cases h
    · split at h
      · cases h
      · next hmode =>
        split at h
        · cases h
        · split at h
          · cases h
          · split at h
            · cases h
            · cases h
              exact hmode

theorem DeviceService.writeValue_run {σ : Type} [UnidriverIo σ] [LawfulUnidriverIo σ] (root : LogLevel)
    (h : bench.service.planned deviceId name value = .ok p) (s : σ) :
    ∃ s', (bench.service.writeValue root deviceId name value).run s = .ok { p.var with value := p.coerced } s' ∧
      p.acc.stored (LawfulUnidriverIo.memory s) p.coerced = .ok (LawfulUnidriverIo.memory s') := by
  obtain ⟨acc, -, -, -, hmem, hpacks⟩ := planned_addressed h
  obtain ⟨m', hstored⟩ := NetVarAccessor.stored_of_packs hpacks (LawfulUnidriverIo.memory s)
  obtain ⟨s', hrun, rfl⟩ := NetVarAccessor.set_run (bench.accessors_independent.wf _ hmem) hstored
  refine ⟨s', ?_, hstored⟩
  rw [writeValue_planned, h]
  simp only
  rw [EStateM.run_bind, EStateM.run_adaptExcept, hrun]
  rfl

/-- A read is of the first variable of the name, with what its name's accessor shows. -/
theorem DeviceService.outcome_readValue {σ : Type} [UnidriverIo σ] [LawfulUnidriverIo σ] {root : LogLevel}
    {d : Device × ℤ} (hd : bench.device? deviceId = some d) (s : σ) :
    outcome ((bench.service.readValue root deviceId name).run s) =
      match d.1.vars.find? (fun var => var.name = name) with
      | none => .error (.variableNotFound name)
      | some var =>
        if var.mode = .W then .error (.variableAccess name)
        else .ok ((attachDevice d.1 d.2).shown (LawfulUnidriverIo.memory s) var) := by
  have hruntime : bench.service.devices.get? deviceId = some (attachDevice d.1 d.2) := by
    rw [Bench.service_get?, hd, Option.map_some]
  unfold readValue runtimeOf variableOf
  simp (disch := decide) only [hruntime, logEvent_bind, pure_bind]
  have hvars : (attachDevice d.1 d.2).device.vars = d.1.vars := rfl
  rw [hvars]
  cases hv : d.1.vars.find? (fun var => var.name = name) with
  | none => rfl
  | some var =>
    simp only [pure_bind]
    by_cases hmode : var.mode = .W
    · simp only [if_pos hmode]
      rfl
    · simp only [if_neg hmode]
      obtain ⟨s', hrun, -⟩ := snapshot_run (Bench.mem_of_device? hd) (List.mem_of_find?_eq_some hv) s
      rw [run_bind_ok hrun]
      rfl

end

/-! ## Lists of variables with repeated names -/

/-- Of the variables of one name all but the last are write-only; and if the last is read-only, the first is a
float and the last a packed integer, so that no value passes both. -/
structure Shielded (vars : List NetVar) : Prop where
  hidden : vars.Pairwise (fun var later => var.name = later.name → var.mode = .W)
  readOnly : ∀ name first last, vars.find? (fun var => var.name = name) = some first →
    vars.reverse.find? (fun var => var.name = name) = some last → first.mode = .W → last.mode = .R →
      first.ctype ∈ floatTypes ∧ last.ctype ∉ floatTypes ∧ last.ctype ≠ .BIT

theorem NetVarAccessor.Disjoint.ne {a b : NetVarAccessor} (h : a.Disjoint b) : a ≠ b := by
  rintro rfl
  have hlt : a.start < a.stop := VarOffset.start_lt_stop a.offset a.var.ctype
  rcases h with h | h | h
  · exact h rfl
  · omega
  · omega

/-- The last accessor of each name, where only write-only ones are hidden. -/
theorem find?_reverse_of_hidden {scheme : List NetVarAccessor}
    (h : scheme.Pairwise (fun acc later => acc.var.name = later.var.name → acc.var.mode = .W))
    {acc : NetVarAccessor} (hmem : acc ∈ scheme) (hmode : acc.var.mode ≠ .W) :
    scheme.reverse.find? (fun other => other.var.name = acc.var.name) = some acc := by
  induction scheme with
  | nil => cases hmem
  | cons a scheme ih =>
    obtain ⟨hhead, htail⟩ := List.pairwise_cons.mp h
    rw [List.reverse_cons, List.find?_append]
    rcases List.mem_cons.mp hmem with rfl | hin
    · have hnone : scheme.reverse.find? (fun other => other.var.name = acc.var.name) = none := by
        rw [List.find?_eq_none]
        intro other hother heq
        have hname : other.var.name = acc.var.name := of_decide_eq_true heq
        exact hmode (hhead other (List.mem_reverse.mp hother) hname.symm)
      rw [hnone, Option.none_or]
      exact List.find?_cons_of_pos (decide_eq_true rfl)
    · rw [ih htail hin]
      rfl

theorem hidden_of_find?_reverse {scheme : List NetVarAccessor} (hdistinct : scheme.Nodup)
    (h : ∀ acc ∈ scheme, acc.var.mode ≠ .W →
      scheme.reverse.find? (fun other => other.var.name = acc.var.name) = some acc) :
    scheme.Pairwise (fun acc later => acc.var.name = later.var.name → acc.var.mode = .W) := by
  induction scheme with
  | nil => exact List.Pairwise.nil
  | cons a scheme ih =>
    obtain ⟨hnot, hrest⟩ := List.nodup_cons.mp hdistinct
    have hlast : ∀ acc : NetVarAccessor, (∃ later ∈ scheme, later.var.name = acc.var.name) →
        (a :: scheme).reverse.find? (fun other => other.var.name = acc.var.name) =
          scheme.reverse.find? (fun other => other.var.name = acc.var.name) := by
      rintro acc ⟨later, hin, hname⟩
      have hsome : (scheme.reverse.find? (fun other => other.var.name = acc.var.name)).isSome :=
        List.find?_isSome.mpr ⟨later, List.mem_reverse.mpr hin, decide_eq_true hname⟩
      rw [List.reverse_cons, List.find?_append, Option.or_of_isSome hsome]
    refine List.Pairwise.cons (fun later hin hname => ?_) (ih hrest ?_)
    · by_contra hmode
      have hfind := h a List.mem_cons_self hmode
      rw [hlast a ⟨later, hin, hname.symm⟩] at hfind
      exact hnot (List.mem_reverse.mp (List.mem_of_find?_eq_some hfind))
    · intro acc hin hmode
      rw [← hlast acc ⟨acc, hin, rfl⟩]
      exact h acc (List.mem_cons_of_mem _ hin) hmode

/-! ## Values that tell two writes apart -/

/-- The two values that every writable C type takes. -/
def probe (c : NetVarCType) (b : Bool) : Number :=
  if c ∈ floatTypes then .float (if b then 0x3FF0000000000000 else 0) else .int (if b then 1 else 0)

theorem coerceValue_probe (c : NetVarCType) (b : Bool) :
    coerceValue c (.int (if b then 1 else 0)) = .ok (probe c b) := by
  cases c <;> cases b <;> decide +kernel

theorem NetVarAccessor.packs_probe {acc : NetVarAccessor} {c : NetVarCType}
    (h : ¬ (c ∈ floatTypes ∧ acc.var.ctype ∉ floatTypes ∧ acc.var.ctype ≠ .BIT)) (b : Bool) :
    acc.packs (probe c b) = .ok () := by
  rw [packs]
  generalize acc.var.ctype = target at h
  cases target <;> cases c <;> cases b <;> first | exact absurd (by decide) h | decide +kernel

theorem NetVarAccessor.not_holds_probe {acc : NetVarAccessor} {c : NetVarCType} {m : ByteMemory ℤ}
    (h : ¬ (c ∈ floatTypes ∧ acc.var.ctype ∉ floatTypes ∧ acc.var.ctype ≠ .BIT))
    (hfalse : acc.Holds m (probe c false)) : ¬ acc.Holds m (probe c true) := by
  intro htrue
  rcases bit_or_format acc with hbit | ⟨f, hf⟩
  · rw [holds_of_bit hbit] at hfalse htrue
    rw [hfalse] at htrue
    revert htrue
    cases c <;> decide +kernel
  · rw [holds_of_format hf] at hfalse htrue
    rw [← hfalse] at htrue
    revert htrue
    generalize acc.var.ctype = target at h hf
    cases target <;> cases hf <;> cases c <;> first | exact absurd (by decide) h | decide +kernel

theorem inRange_probe (c : NetVarCType) (b : Bool) : c.InRange (probe c b) := by
  rcases Decidable.em (c ∈ floatTypes) with hc | hc
  · rw [probe, if_pos hc]
    simp only [floatTypes, List.mem_cons, List.not_mem_nil, or_false] at hc
    rcases hc with rfl | rfl
    · exact ⟨if b then 0x3F800000 else 0, by cases b <;> decide +kernel⟩
    · exact ⟨_, rfl⟩
  · cases hrange : intRange c with
    | none => cases c <;> first | exact absurd (by decide) hc | cases hrange
    | some bounds =>
      obtain ⟨hlow, hhigh⟩ := zero_one_of_intRange hrange
      rw [probe, if_neg hc]
      cases b
      · exact inRange_of_intRange hrange (by simpa) (by simp; omega)
      · exact inRange_of_intRange hrange (by simp; omega) (by simpa)

theorem NetVarAccessor.not_packs_float {acc : NetVarAccessor} (hint : acc.var.ctype ∉ floatTypes)
    (hbit : acc.var.ctype ≠ .BIT) (x : Binary.Double) : acc.packs (.float x) ≠ .ok () := by
  rw [packs]
  generalize acc.var.ctype = target at hint hbit
  cases target <;> first | exact absurd rfl hbit | exact absurd (by decide) hint | (intro h; cases h)

/-! ## Protection of the modes -/

/-- The memories agree on every bit that is not at the address of a write-only variable. -/
def SameButWriteOnly (scheme : List NetVarAccessor) (m m' : ByteMemory ℤ) : Prop :=
  ∀ handle p, (∀ acc ∈ scheme, acc.var.mode = .W → acc.handle = handle → ¬ (acc.start ≤ p ∧ p < acc.stop)) →
    m.bit handle p = m'.bit handle p

section
variable {σ : Type} [UnidriverIo σ] [LawfulUnidriverIo σ]
open LawfulUnidriverIo (memory)

variable (σ) in
/-- What the modes of a device promise: a write changes no read-only variable, a read tells nothing of a
write-only one, and a read of all values shows every variable from its own address. -/
structure Protected (root : LogLevel) (bench : Bench) (deviceId : String) (scheme : List NetVarAccessor) : Prop where
  write : ∀ name value (s : σ), ∀ acc ∈ scheme, acc.var.mode = .R →
    (memory s).SameOn (memory (final ((bench.service.writeValue root deviceId name value).run s)))
      acc.handle acc.start acc.stop
  read : ∀ name (s s' : σ), SameButWriteOnly scheme (memory s) (memory s') →
    outcome ((bench.service.readValue root deviceId name).run s) =
      outcome ((bench.service.readValue root deviceId name).run s')
  reads : ∀ s s' : σ, SameButWriteOnly scheme (memory s) (memory s') →
    outcome ((bench.service.readValues root deviceId).run s) =
      outcome ((bench.service.readValues root deviceId).run s')
  own : ∀ s : σ, outcome ((bench.service.readValues root deviceId).run s) =
    .ok ((scheme.filter (fun acc => acc.var.mode ≠ .W)).map
      (fun acc => { acc.var with value := acc.shown (memory s) }))

variable {root : LogLevel} {bench : Bench} {deviceId : String} {d : Device × ℤ}

theorem find?_vars {handle : ℤ} {vars : List NetVar} {name : String} {acc : NetVarAccessor}
    (h : (buildScheme handle vars).find? (fun acc => acc.var.name = name) = some acc) :
    vars.find? (fun var => var.name = name) = some acc.var := by
  rw [← Bench.find?_buildScheme handle, h, Option.map_some]

theorem find?_reverse_vars (handle : ℤ) (vars : List NetVar) (name : String) :
    vars.reverse.find? (fun var => var.name = name) =
      ((buildScheme handle vars).reverse.find? (fun acc => acc.var.name = name)).map NetVarAccessor.var := by
  conv_lhs => rw [← buildScheme_var handle vars, ← List.map_reverse, List.find?_map]
  rfl

theorem hidden_buildScheme {vars : List NetVar} (handle : ℤ) :
    (buildScheme handle vars).Pairwise (fun acc later => acc.var.name = later.var.name → acc.var.mode = .W) ↔
      vars.Pairwise (fun var later => var.name = later.name → var.mode = .W) := by
  conv_rhs => rw [← buildScheme_var handle vars, List.pairwise_map]

/-- The accessor of a readable variable is the one that its name reaches. -/
theorem Shielded.target {vars : List NetVar} (h : Shielded vars) {handle : ℤ} {acc : NetVarAccessor}
    (hmem : acc ∈ buildScheme handle vars) (hmode : acc.var.mode ≠ .W) :
    (buildScheme handle vars).reverse.find? (fun other => other.var.name = acc.var.name) = some acc :=
  find?_reverse_of_hidden ((hidden_buildScheme handle).mpr h.hidden) hmem hmode

theorem Shielded.planned {p : PlannedWrite} {name : String} {value : Number} (hd : bench.device? deviceId = some d)
    (h : Shielded d.1.vars) (hp : bench.service.planned deviceId name value = .ok p) : p.acc.var.mode ≠ .R := by
  obtain ⟨acc, hacc, hvar, hcoerce, -, hpacks⟩ := DeviceService.planned_addressed hp
  have htarget := DeviceService.planned_target hp
  have hmode : acc.var.mode ≠ .R := hvar ▸ DeviceService.planned_mode hp
  rw [Bench.addressed_eq hd] at hacc
  rw [Bench.target_eq hd] at htarget
  have hname : acc.var.name = name := of_decide_eq_true (List.find?_some hacc :)
  by_cases hwonly : acc.var.mode = .W
  · intro hr
    have hlast : d.1.vars.reverse.find? (fun var => var.name = name) = some p.acc.var := by
      rw [find?_reverse_vars d.2, htarget, Option.map_some]
    obtain ⟨hfloat, hint, hbit⟩ := h.readOnly name acc.var p.acc.var (find?_vars hacc) hlast hwonly hr
    rcases coerceValue_eq_ok hcoerce with ⟨x, hx, -, -⟩ | ⟨n, low, high, -, hrange, -, -⟩
    · rw [hx] at hpacks
      exact NetVarAccessor.not_packs_float hint hbit x hpacks
    · exact not_mem_floatTypes hrange hfloat
  · have hsame := h.target (List.mem_of_find?_eq_some hacc) hwonly
    rw [hname, htarget, Option.some.injEq] at hsame
    rwa [hsame]

theorem shown_of_shielded (h : Shielded d.1.vars) {acc : NetVarAccessor} (hmem : acc ∈ buildScheme d.2 d.1.vars)
    (hmode : acc.var.mode ≠ .W) (m : ByteMemory ℤ) :
    (attachDevice d.1 d.2).shown m acc.var = { acc.var with value := acc.shown m } := by
  have hget := scheme_get?_eq d.1 d.2 acc.var.name
  rw [h.target hmem hmode] at hget
  rw [DeviceRuntime.shown, hget]

/-- A read of all values, position by position. -/
theorem readable_eq (m : ByteMemory ℤ) :
    (attachDevice d.1 d.2).readable m =
      ((buildScheme d.2 d.1.vars).filter (fun acc => acc.var.mode ≠ .W)).map
        (fun acc => (attachDevice d.1 d.2).shown m acc.var) := by
  have hvars : (attachDevice d.1 d.2).device.vars = (buildScheme d.2 d.1.vars).map NetVarAccessor.var :=
    (buildScheme_var d.2 d.1.vars).symm
  rw [DeviceRuntime.readable, hvars, List.filter_map, List.map_map]
  rfl

theorem NetVarAccessor.shown_eq_of_value {acc : NetVarAccessor} {m m' : ByteMemory ℤ}
    (h : acc.value m = acc.value m') : acc.shown m = acc.shown m' := by
  rw [shown, shown, h]

theorem SameButWriteOnly.shown {scheme : List NetVarAccessor} (hs : Independent scheme) {m m' : ByteMemory ℤ}
    (h : SameButWriteOnly scheme m m') {acc : NetVarAccessor} (hmem : acc ∈ scheme) (hmode : acc.var.mode ≠ .W) :
    acc.shown m = acc.shown m' := by
  apply NetVarAccessor.shown_eq_of_value
  apply NetVarAccessor.value_congr (hs.wf acc hmem)
  intro p hlo hhi
  apply h
  rintro other hother hwonly hhandle ⟨hlo', hhi'⟩
  have hne : other ≠ acc := by
    rintro rfl
    exact hmode hwonly
  rcases hs.disjoint_of_mem hother hmem hne with hd | hd | hd
  · exact hd hhandle
  · omega
  · omega

theorem protected_of_shielded (hd : bench.device? deviceId = some d) (h : Shielded d.1.vars) :
    Protected σ root bench deviceId (buildScheme d.2 d.1.vars) := by
  have hs := buildScheme_independent d.2 d.1.vars
  have hown (s : σ) : outcome ((bench.service.readValues root deviceId).run s) =
      .ok (((buildScheme d.2 d.1.vars).filter (fun acc => acc.var.mode ≠ .W)).map
        (fun acc => { acc.var with value := acc.shown (memory s) })) := by
    obtain ⟨s', hrun, -⟩ := DeviceService.readValues_run root hd s
    rw [hrun, outcome_ok, readable_eq, Except.ok.injEq]
    refine List.map_congr_left (fun acc hacc => ?_)
    obtain ⟨hmem, hmode⟩ := List.mem_filter.mp hacc
    exact shown_of_shielded h hmem (of_decide_eq_true hmode) _
  constructor
  · intro name value s acc hmem hmode
    cases hp : bench.service.planned deviceId name value with
    | error e =>
      rw [DeviceService.writeValue_planned, hp]
      exact ByteMemory.SameOn.refl _ _ _ _
    | ok p =>
      obtain ⟨s', hrun, hstored⟩ := DeviceService.writeValue_run root hp s
      obtain ⟨-, -, -, -, hin, -⟩ := DeviceService.planned_addressed hp
      have hne : p.acc ≠ acc := by
        rintro rfl
        exact h.planned hd hp hmode
      have hacc := Bench.mem_accessors (Bench.mem_of_device? hd) hmem
      rw [hrun, final_ok]
      exact NetVarAccessor.sameOn_stored (bench.accessors_independent.wf _ hin)
        (bench.accessors_independent.disjoint_of_mem hin hacc hne) hstored
  · intro name s s' hsame
    rw [DeviceService.outcome_readValue hd, DeviceService.outcome_readValue hd]
    cases hv : (buildScheme d.2 d.1.vars).find? (fun acc => acc.var.name = name) with
    | none =>
      have hnone : d.1.vars.find? (fun var => var.name = name) = none := by
        rw [← Bench.find?_buildScheme d.2, hv, Option.map_none]
      simp only [hnone]
    | some acc =>
      simp only [find?_vars hv]
      have hmem := List.mem_of_find?_eq_some hv
      by_cases hmode : acc.var.mode = .W
      · simp only [if_pos hmode]
      · simp only [if_neg hmode]
        rw [shown_of_shielded h hmem hmode, shown_of_shielded h hmem hmode, hsame.shown hs hmem hmode]
  · intro s s' hsame
    rw [hown, hown, Except.ok.injEq]
    refine List.map_congr_left (fun acc hacc => ?_)
    obtain ⟨hmem, hmode⟩ := List.mem_filter.mp hacc
    rw [hsame.shown hs hmem (of_decide_eq_true hmode)]
  · exact hown

theorem exists_probe {acc : NetVarAccessor} (hw : acc.Wf) (s : σ) (b : Bool) :
    ∃ s' : σ, acc.value (memory s') = .ok (probe acc.var.ctype b) ∧
      ∀ other : NetVarAccessor, other.Wf → acc.Disjoint other → other.value (memory s') = other.value (memory s) := by
  obtain ⟨m', hstored⟩ := NetVarAccessor.stored_of_packs
    (NetVarAccessor.packs_probe (fun h => h.2.1 h.1) b) (memory s)
  obtain ⟨s', -, rfl⟩ := NetVarAccessor.set_run hw hstored
  refine ⟨s', NetVarAccessor.value_of_holds hw (inRange_probe _ b) (NetVarAccessor.holds_stored hw hstored), ?_⟩
  exact fun other ho hd => NetVarAccessor.value_stored_of_disjoint hw ho hd hstored

theorem shielded_of_protected [Nonempty σ] (hd : bench.device? deviceId = some d)
    (h : Protected σ root bench deviceId (buildScheme d.2 d.1.vars)) : Shielded d.1.vars := by
  have hs := buildScheme_independent d.2 d.1.vars
  obtain ⟨s⟩ := ‹Nonempty σ›
  constructor
  · refine (hidden_buildScheme d.2).mp (hidden_of_find?_reverse (hs.disjoint.imp (fun hd => hd.ne)) ?_)
    intro acc hmem hmode
    have hvar : acc.var ∈ d.1.vars := by
      rw [← buildScheme_var d.2 d.1.vars]
      exact List.mem_map_of_mem hmem
    obtain ⟨target, htarget⟩ := scheme_get?_of_mem d.2 hvar
    have hshown (s : σ) : target.shown (memory s) = acc.shown (memory s) := by
      obtain ⟨s', hrun, -⟩ := DeviceService.readValues_run root hd s
      have hown := h.own s
      rw [hrun, outcome_ok, readable_eq, Except.ok.injEq] at hown
      have heq := List.map_inj_left.mp hown acc (List.mem_filter.mpr ⟨hmem, decide_eq_true hmode⟩)
      rw [DeviceRuntime.shown, htarget] at heq
      exact congrArg NetVar.value heq
    rw [← scheme_get?_eq d.1, htarget, Option.some.injEq]
    by_contra hne
    have hdisjoint := hs.disjoint_of_mem hmem (Bench.mem_of_scheme_get? htarget) (Ne.symm hne)
    have hconstant (b : Bool) : target.value (memory s) = .ok (probe acc.var.ctype b) := by
      obtain ⟨s', hvalue, hothers⟩ := exists_probe (hs.wf acc hmem) s b
      rw [← hothers target (hs.wf _ (Bench.mem_of_scheme_get? htarget)) hdisjoint,
        NetVarAccessor.value_eq_shown, hshown s', ← NetVarAccessor.value_eq_shown, hvalue]
    have hclash := (hconstant false).symm.trans (hconstant true)
    revert hclash
    cases acc.var.ctype <;> decide +kernel
  · intro name first last hfirst hlast hwonly hr
    by_contra hfree
    have hfree' : ¬ (first.ctype ∈ floatTypes ∧ last.ctype ∉ floatTypes ∧ last.ctype ≠ .BIT) := hfree
    rw [← Bench.find?_buildScheme d.2] at hfirst
    rw [find?_reverse_vars d.2] at hlast
    obtain ⟨acc, hacc, rfl⟩ := Option.map_eq_some_iff.mp hfirst
    obtain ⟨target, htarget, rfl⟩ := Option.map_eq_some_iff.mp hlast
    rw [← Bench.addressed_eq hd] at hacc
    have hmem : target ∈ buildScheme d.2 d.1.vars := List.mem_reverse.mp (List.mem_of_find?_eq_some htarget)
    rw [← Bench.target_eq hd] at htarget
    have hmode : acc.var.mode ≠ .R := by
      rw [hwonly]
      exact NetVarMode.noConfusion
    -- two values that are written at the same place
    have hwrite (b : Bool) : target.Holds (memory s) (probe acc.var.ctype b) := by
      have hp := DeviceService.planned_of_lookups hacc htarget hmode (coerceValue_probe acc.var.ctype b)
        (NetVarAccessor.packs_probe hfree' b)
      obtain ⟨s', hrun, hstored⟩ := DeviceService.writeValue_run root hp s
      have hsame := h.write name (.int (if b then 1 else 0)) s target hmem hr
      rw [hrun, final_ok] at hsame
      exact (NetVarAccessor.holds_congr (hs.wf _ hmem) hsame).mpr (NetVarAccessor.holds_stored (hs.wf _ hmem) hstored)
    exact NetVarAccessor.not_holds_probe hfree' (hwrite false) (hwrite true)

/-- **The modes of a device are enforced exactly if its list of variables is shielded**, over every device side
and for every name and value. -/
theorem protected_iff_shielded [Nonempty σ] (root : LogLevel) (hd : bench.device? deviceId = some d) :
    Protected σ root bench deviceId (buildScheme d.2 d.1.vars) ↔ Shielded d.1.vars :=
  ⟨shielded_of_protected hd, protected_of_shielded hd⟩

end

/-! ## A setpoint beside its reading -/

/-- Two variables of one name, as a profile may list them: a setting and what the device makes of it. -/
def twinDevice : Device := ⟨"oven", "Oven", "Эмулятор", true, .OK, [⟨"level", .U16, .RW, .int 0⟩, ⟨"level", .U16, .R, .int 0⟩]⟩

/-- A write to the setting changes the reading. -/
theorem twinDevice_not_protected : ¬ Protected InMemoryUnidriverIo .WARNING (Bench.enumerate [twinDevice]) "oven"
    (buildScheme 1 twinDevice.vars) := by
  intro h
  have hsame := h.write "level" (.int 5) ⟨.empty⟩ ⟨1, ⟨"level", .U16, .R, .int 0⟩, ⟨2, none⟩⟩ (by decide) rfl 16
    (by decide) (by decide)
  revert hsame
  decide +kernel

/-- A command that only hides its own reading does no harm. -/
def commandDevice : Device := ⟨"oven", "Oven", "Эмулятор", true, .OK, [⟨"heat", .F32, .W, .int 0⟩, ⟨"heat", .U8, .R, .int 0⟩]⟩

theorem commandDevice_protected : Protected InMemoryUnidriverIo .WARNING (Bench.enumerate [commandDevice]) "oven"
    (buildScheme 1 commandDevice.vars) := by
  have hshielded : Shielded commandDevice.vars := by
    refine ⟨by decide, ?_⟩
    intro name first last hfirst hlast _ _
    have hname : "heat" = name := by
      have hmem := List.mem_of_find?_eq_some hfirst
      have hfound : first.name = name := of_decide_eq_true (List.find?_some hfirst :)
      simp only [commandDevice, List.mem_cons, List.not_mem_nil, or_false] at hmem
      rcases hmem with rfl | rfl <;> exact hfound
    subst hname
    cases hfirst
    cases hlast
    decide
  have : Nonempty InMemoryUnidriverIo := ⟨⟨.empty⟩⟩
  have hdevice : (Bench.enumerate [commandDevice]).device? "oven" = some (commandDevice, 1) := rfl
  exact (protected_iff_shielded .WARNING hdevice).mpr hshielded

end Tstlan
