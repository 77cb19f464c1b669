import Tstlan.Web.RoundTrip

/-! # The request of the new-config page (`app/configs/new/page.tsx`)

The form checks the trimmed texts. The payload is built from trimmed texts as well, the name and the type of the device
are submitted as they were entered. -/
namespace Tstlan.Web
open Foundations
set_option autoImplicit false

/-- The body of the create request. -/
structure ConfigCreate where
  name : String
  deviceType : String
  visibility : ConfigVisibility
  payload : ConfigPayload

def NewConfigPage.submit (draft : ConfigFormDraft) : ConfigCreate where
  name := draft.name
  deviceType := draft.deviceType
  visibility := draft.visibility
  payload := draftToPayload draft

/-! ## Limits -/

/-- A text of 1 to `max` characters that neither begins nor ends with white space. -/
structure FitsColumn (max : ℕ) (text : String) : Prop where
  nonempty : 1 ≤ text.length
  length : text.length ≤ max
  trimmed : Js.trim text = text

/-- An integer of at least `low`. -/
def AtLeast (low : ℤ) (x : Js.Number) : Prop := ∃ n hn, x = .integer n hn ∧ low ≤ n

/-- An integer between the bounds. -/
def Between (low high : ℤ) (x : Option Js.Number) : Prop := ∃ n hn, x = some (.integer n hn) ∧ low ≤ n ∧ n ≤ high

def ModbusMap.count (m : ModbusMap) : ModbusField → Js.Number
  | .discreteInputsBytes => m.discreteInputsBytes
  | .coilsBytes => m.coilsBytes
  | .holdingRegisters => m.holdingRegisters
  | .inputRegisters => m.inputRegisters

/-- The fields of the transport are in the ranges that the form checks, those of other transports are not given. -/
structure FitsTransport (c : ConnectionSettings) : Prop where
  port : needsNetwork c.transport → Between PORT_MIN PORT_MAX c.port
  network : ¬ needsNetwork c.transport → c.ip = none ∧ c.port = none
  gpibAddr : c.transport = .gpib → Between GPIB_MIN GPIB_MAX c.gpibAddr
  gpib : c.transport ≠ .gpib → c.gpibAddr = none
  com : c.transport ≠ .com → c.comName = none
  pollPeriodMs : AtLeast 1 c.pollPeriodMs
  count : isModbus c.transport → ∃ m, c.modbus = some m ∧ ∀ field, AtLeast 0 (m.count field)
  modbus : ¬ isModbus c.transport → c.modbus = none

structure Storable (body : ConfigCreate) : Prop where
  name : FitsColumn NAME_MAX body.name
  deviceType : FitsColumn DEVICE_TYPE_MAX body.deviceType
  named : ∀ var ∈ body.payload.vars, var.name ≠ "" ∧ Js.trim var.name = var.name
  distinct : (body.payload.vars.map ConfigVar.name).Nodup
  connection : FitsTransport body.payload.connection

/-- The name and the type stand trimmed in the form, and no number is beyond the range of Numbers. -/
structure EnteredClean (d : ConfigFormDraft) : Prop where
  name : Js.trim d.name = d.name
  deviceType : Js.trim d.deviceType = d.deviceType
  pollPeriodMs : parseIntStrict d.pollPeriodMs ≠ some (.infinity false)
  modbus : isModbus d.transport → ∀ field, parseCount (d.count field) ≠ some (.infinity false)

/-! ## Field by field -/

variable {d : ConfigFormDraft}

theorem checkText_eq_none {raw missing : String} {max : ℕ} :
    checkText raw missing max = none ↔ Js.trim raw ≠ "" ∧ Js.length (Js.trim raw) ≤ max := by
  rw [checkText]
  by_cases hblank : Js.trim raw = ""
  · simp [hblank]
  · by_cases hlong : max < Js.length (Js.trim raw)
    · simp [hblank, hlong]
    · simp [hblank, hlong, not_lt.mp hlong]

/-- A text has no more characters than code units. -/
theorem length_le_units (s : String) : s.length ≤ Js.length s := by
  rw [← String.length_toList, Js.length]
  generalize s.toList = cs
  induction cs with
  | nil => exact Nat.le_refl 0
  | cons c cs ih =>
    rw [List.length_cons, List.map_cons, List.sum_cons]
    split <;> omega

theorem fitsColumn_of_checkText {raw missing : String} {max : ℕ} (h : checkText raw missing max = none)
    (htrim : Js.trim raw = raw) : FitsColumn max raw := by
  obtain ⟨hne, hlength⟩ := checkText_eq_none.mp h
  rw [htrim] at hne hlength
  refine ⟨Nat.pos_of_ne_zero (fun hzero => hne ?_), (length_le_units raw).trans hlength, htrim⟩
  exact String.length_eq_zero_iff.mp hzero

theorem validated_name : (validateConfigForm d).name = checkText d.name "укажите название" NAME_MAX := by
  simp only [validateConfigForm]

theorem validated_deviceType :
    (validateConfigForm d).deviceType = checkText d.deviceType "укажите тип прибора" DEVICE_TYPE_MAX := by
  simp only [validateConfigForm]

theorem between_of_outside {low high : ℤ} {x : Option Js.Number} (h : outside low high x = false) :
    Between low high x := by
  cases x with
  | none => cases h
  | some x =>
    simp only [outside, Bool.or_eq_false_iff] at h
    cases x with
    | integer n hn =>
      simp only [Js.Number.lt, Js.Number.gt, decide_eq_false_iff_not, not_lt] at h
      exact ⟨n, hn, rfl, h.1, h.2⟩
    | infinity negative => cases negative <;> simp [Js.Number.lt, Js.Number.gt] at h

theorem atLeast_of_gt {low : ℤ} {x : Js.Number} (h : x.gt low) (hfinite : x ≠ .infinity false) :
    AtLeast (low + 1) x := by
  cases x with
  | integer n hn => exact ⟨n, hn, rfl, Int.add_one_le_iff.mpr (by simpa [Js.Number.gt] using h)⟩
  | infinity negative =>
    cases negative with
    | false => exact absurd rfl hfinite
    | true => simp [Js.Number.gt] at h

theorem atLeast_of_not_lt {low : ℤ} {x : Js.Number} (h : x.lt low = false) (hfinite : x ≠ .infinity false) :
    AtLeast low x := by
  cases x with
  | integer n hn => exact ⟨n, hn, rfl, by simpa [Js.Number.lt] using h⟩
  | infinity negative =>
    cases negative with
    | false => exact absurd rfl hfinite
    | true => simp [Js.Number.lt] at h

theorem AtLeast.finite {low : ℤ} {x : Js.Number} (h : AtLeast low x) : x ≠ .infinity false := by
  obtain ⟨n, hn, rfl, -⟩ := h
  exact Js.Number.noConfusion

theorem count_draftToPayload {m : ModbusMap} (hm : isModbus d.transport)
    (h : (draftToPayload d).connection.modbus = some m) (field : ModbusField) :
    m.count field = (parseCount (d.count field)).getD (.ofInt 0) := by
  rw [payload_modbus hm, Option.some.injEq] at h
  subst h
  cases field <;> simp only [ModbusMap.count]

/-! ## The request -/

theorem EnteredClean.fitsTransport (hvalid : PayloadValid d) (h : EnteredClean d) :
    FitsTransport (draftToPayload d).connection where
  port hn := by
    rw [payload_port hn]
    exact between_of_outside (hvalid.port hn)
  network hn := ⟨payload_ip_of_not hn, payload_port_of_not hn⟩
  gpibAddr hg := by
    rw [payload_gpibAddr hg]
    exact between_of_outside (hvalid.gpibAddr hg)
  gpib hg := payload_gpibAddr_of_not hg
  com hc := payload_comName_of_not hc
  pollPeriodMs := by
    obtain ⟨period, hperiod, hpos⟩ := hvalid.pollPeriodMs
    have hpayload : (draftToPayload d).connection.pollPeriodMs = period := by
      show (parseIntStrict d.pollPeriodMs).getD _ = period
      rw [hperiod, Option.getD_some]
    rw [hpayload]
    exact atLeast_of_gt hpos (fun hinf => h.pollPeriodMs (by rw [hperiod, hinf]))
  count hm := by
    refine ⟨_, payload_modbus hm, fun field => ?_⟩
    rw [count_draftToPayload hm (payload_modbus hm)]
    obtain ⟨count, hcount⟩ := Option.ne_none_iff_exists'.mp (hvalid.modbus hm field)
    rw [hcount, Option.getD_some]
    exact atLeast_of_not_lt (not_lt_of_parseCount hcount)
      (fun hinf => h.modbus hm field (by rw [hcount, hinf]))
  modbus hm := payload_modbus_of_not hm

theorem FitsTransport.finite (h : FitsTransport (draftToPayload d).connection) :
    parseIntStrict d.pollPeriodMs ≠ some (.infinity false) ∧
      (isModbus d.transport → ∀ field, parseCount (d.count field) ≠ some (.infinity false)) := by
  constructor
  · intro hinf
    refine h.pollPeriodMs.finite ?_
    show (parseIntStrict d.pollPeriodMs).getD _ = _
    rw [hinf, Option.getD_some]
  · intro hm field hinf
    obtain ⟨m, hmap, hcounts⟩ := h.count hm
    refine (hcounts field).finite ?_
    rw [count_draftToPayload hm hmap, hinf, Option.getD_some]

/-- **The request of a draft that the form accepts fits the storage exactly if the name and the type were entered
without white space around them and the numbers are not infinite.** -/
theorem storable_iff_enteredClean (d : ConfigFormDraft) (hvalid : hasErrors (validateConfigForm d) = false) :
    Storable (NewConfigPage.submit d) ↔ EnteredClean d := by
  obtain ⟨⟨hname, htype⟩, hpayload⟩ := (hasErrors_validateConfigForm d).mp hvalid
  constructor
  · intro h
    obtain ⟨hperiod, hcounts⟩ := h.connection.finite
    exact ⟨h.name.trimmed, h.deviceType.trimmed, hperiod, hcounts⟩
  · intro h
    obtain ⟨hnamed, hdistinct⟩ := (validateVariablesFrom_eq_nil 0 [] d.vars).mp hpayload.vars
    rw [validated_name] at hname
    rw [validated_deviceType] at htype
    refine ⟨fitsColumn_of_checkText hname h.name, fitsColumn_of_checkText htype h.deviceType, fun var hvar => ?_, ?_,
      h.fitsTransport hpayload⟩
    · obtain ⟨draft, hdraft, rfl⟩ := List.mem_map.mp hvar
      exact ⟨(hnamed draft hdraft).1, Js.trim_trim draft.name⟩
    · show ((d.vars.map VariableDraft.trimmed).map ConfigVar.name).Nodup
      rwa [List.map_map]

/-- A draft for a device. -/
def draftFor (deviceType : String) : ConfigFormDraft := { sampleDraft "200" with deviceType := deviceType }

theorem draftFor_storable : Storable (NewConfigPage.submit (draftFor "multimeter")) := by
  have hperiod : parseIntStrict (draftFor "multimeter").pollPeriodMs = some (.ofInt 200) := by decide
  have hvalid : hasErrors (validateConfigForm (draftFor "multimeter")) = false := by decide +kernel
  refine (storable_iff_enteredClean (draftFor "multimeter") hvalid).mpr ⟨by decide, by decide, ?_,
    fun hm => absurd hm (by decide)⟩
  rw [hperiod]
  decide

/-- A blank behind the type is accepted by the form and submitted. -/
theorem draftFor_not_storable :
    hasErrors (validateConfigForm (draftFor "multimeter ")) = false ∧ ¬ Storable (NewConfigPage.submit (draftFor "multimeter ")) := by
  refine ⟨by decide +kernel, fun h => ?_⟩
  have htrimmed := h.deviceType.trimmed
  revert htrimmed
  decide

end Tstlan.Web
