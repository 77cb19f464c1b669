import Tstlan.Web.Validation

/-! # Opening what the form has saved

A draft that the form accepts becomes a payload, and the payload a draft again. The one way in which the
second draft can differ is in the texts of its Numbers, since `String` leaves the integer form from
`10 ^ 21` on. -/
namespace Tstlan.Web
open Foundations
set_option autoImplicit false

/-- The draft of a config that holds the payload of `d` under the name, type and visibility of `d`. -/
def reopened (d : ConfigFormDraft) : ConfigFormDraft :=
  configToDraft ⟨d.name, d.deviceType, d.visibility, draftToPayload d⟩

/-- Every Number of the payload prints as an integer. -/
structure PrintsBack (d : ConfigFormDraft) : Prop where
  pollPeriodMs : ∀ period, parseIntStrict d.pollPeriodMs = some period → period.Plain
  modbus : isModbus d.transport →
    ∀ field count, parseCount (d.count field) = some count → count.Plain

variable {d : ConfigFormDraft}

/-! ## The fields of the second draft -/

@[simp] theorem reopened_transport (d : ConfigFormDraft) : (reopened d).transport = d.transport := rfl

theorem reopened_pollPeriodMs {period : Js.Number} (h : parseIntStrict d.pollPeriodMs = some period) :
    (reopened d).pollPeriodMs = stringOf period := by
  simp only [reopened, configToDraft, draftToPayload, h, Option.getD_some]

theorem reopened_count (hm : isModbus d.transport) {field : ModbusField} {count : Js.Number}
    (h : parseCount (d.count field) = some count) : (reopened d).count field = stringOf count := by
  cases field <;> rw [ConfigFormDraft.count] at h <;>
    simp [reopened, configToDraft, draftToPayload, hm, h, ConfigFormDraft.count]

theorem parse_reopened_pollPeriodMs {period : Js.Number} (h : parseIntStrict d.pollPeriodMs = some period)
    (hplain : period.Plain) : parseIntStrict (reopened d).pollPeriodMs = some period := by
  rw [reopened_pollPeriodMs h, parseIntStrict_stringOf, if_pos hplain]

theorem parse_reopened_count (hm : isModbus d.transport) {field : ModbusField} {count : Js.Number}
    (h : parseCount (d.count field) = some count) (hplain : count.Plain) :
    parseCount ((reopened d).count field) = some count := by
  rw [reopened_count hm h, parseCount_stringOf (not_lt_of_parseCount h), if_pos hplain]

/-- A Number between the form's bounds is read back. -/
theorem parse_checked {low high : ℤ} (hlow : -10 ^ 21 < low) (hhigh : high < 10 ^ 21) {raw : String}
    (h : outside low high (parseIntStrict raw) = false) :
    parseIntStrict (((parseIntStrict raw).map stringOf).getD "") = parseIntStrict raw := by
  cases hparse : parseIntStrict raw with
  | none =>
    rw [hparse] at h
    cases h
  | some x =>
    rw [hparse] at h
    rw [Option.map_some, Option.getD_some, parseIntStrict_stringOf,
      if_pos (plain_of_outside hlow hhigh h)]

theorem parse_reopened_port (hn : needsNetwork d.transport) (h : PayloadValid d) :
    parseIntStrict (reopened d).port = parseIntStrict d.port := by
  have hfield : (reopened d).port = ((parseIntStrict d.port).map stringOf).getD "" := by
    simp only [reopened, configToDraft, draftToPayload, if_pos hn]
  rw [hfield]
  exact parse_checked (by decide) (by decide) (h.port hn)

theorem parse_reopened_gpibAddr (hg : d.transport = .gpib) (h : PayloadValid d) :
    parseIntStrict (reopened d).gpibAddr = parseIntStrict d.gpibAddr := by
  have hfield : (reopened d).gpibAddr = ((parseIntStrict d.gpibAddr).map stringOf).getD "" := by
    simp only [reopened, configToDraft, draftToPayload, if_pos hg]
  rw [hfield]
  exact parse_checked (by decide) (by decide) (h.gpibAddr hg)

theorem reopened_ip (hn : needsNetwork d.transport) : (reopened d).ip = (given d.ip).getD "" := by
  simp only [reopened, configToDraft, draftToPayload, if_pos hn]

theorem reopened_comName (hc : d.transport = .com) : (reopened d).comName = (given d.comName).getD "" := by
  simp only [reopened, configToDraft, draftToPayload, if_pos hc]

theorem reopened_ipRequest (d : ConfigFormDraft) : (reopened d).ipRequest = (given d.ipRequest).getD "" := by
  simp only [reopened, configToDraft, draftToPayload]

theorem trim_given {raw : String} (h : Js.trim raw ≠ "") : Js.trim ((given raw).getD "") ≠ "" := by
  rwa [given_of_ne h, Option.getD_some, Js.trim_trim]

/-- The names are trimmed already, so the same names are refused. -/
theorem validateVariablesFrom_trimmed (vars : List VariableDraft) (f : VariableDraft → VariableDraft)
    (hf : ∀ var, (f var).name = Js.trim var.name) (position : ℕ) (seen : List String) :
    validateVariablesFrom position seen (vars.map f) = validateVariablesFrom position seen vars := by
  induction vars generalizing position seen with
  | nil => rfl
  | cons var vars ih => simp only [List.map_cons, validateVariablesFrom, hf, Js.trim_trim, ih]

theorem validateVariables_reopened (d : ConfigFormDraft) :
    validateVariables (reopened d).vars = validateVariables d.vars := by
  have hvars : (reopened d).vars = d.vars.map
      (fun var => ⟨Js.trim var.name, var.ctype, var.graph, Js.trim var.category⟩) := by
    simp only [reopened, configToDraft, draftToPayload, List.map_map]
    rfl
  rw [validateVariables, validateVariables, hvars]
  exact validateVariablesFrom_trimmed d.vars _ (fun _ => rfl) 0 []

/-! ## The payload, field by field -/

theorem payload_ip (hn : needsNetwork d.transport) : (draftToPayload d).connection.ip = given d.ip := if_pos hn

theorem payload_ip_of_not (hn : ¬ needsNetwork d.transport) : (draftToPayload d).connection.ip = none :=
  if_neg hn

theorem payload_port (hn : needsNetwork d.transport) :
    (draftToPayload d).connection.port = parseIntStrict d.port := if_pos hn

theorem payload_port_of_not (hn : ¬ needsNetwork d.transport) :
    (draftToPayload d).connection.port = none := if_neg hn

theorem payload_gpibAddr (hg : d.transport = .gpib) :
    (draftToPayload d).connection.gpibAddr = parseIntStrict d.gpibAddr := if_pos hg

theorem payload_gpibAddr_of_not (hg : d.transport ≠ .gpib) :
    (draftToPayload d).connection.gpibAddr = none := if_neg hg

theorem payload_comName (hc : d.transport = .com) :
    (draftToPayload d).connection.comName = given d.comName := if_pos hc

theorem payload_comName_of_not (hc : d.transport ≠ .com) :
    (draftToPayload d).connection.comName = none := if_neg hc

theorem payload_modbus (hm : isModbus d.transport) :
    (draftToPayload d).connection.modbus =
      some {
        discreteInputsBytes := (parseCount (d.count .discreteInputsBytes)).getD (.ofInt 0)
        coilsBytes := (parseCount (d.count .coilsBytes)).getD (.ofInt 0)
        holdingRegisters := (parseCount (d.count .holdingRegisters)).getD (.ofInt 0)
        inputRegisters := (parseCount (d.count .inputRegisters)).getD (.ofInt 0) } := if_pos hm

theorem payload_modbus_of_not (hm : ¬ isModbus d.transport) :
    (draftToPayload d).connection.modbus = none := if_neg hm

/-! ## The second draft and its payload -/

theorem payloadValid_reopened (h : PayloadValid d) (hprint : PrintsBack d) : PayloadValid (reopened d) where
  ip hn := by
    rw [reopened_transport] at hn
    rw [reopened_ip hn]
    exact trim_given (h.ip hn)
  port hn := by
    rw [reopened_transport] at hn
    rw [parse_reopened_port hn h]
    exact h.port hn
  gpibAddr hg := by
    rw [reopened_transport] at hg
    rw [parse_reopened_gpibAddr hg h]
    exact h.gpibAddr hg
  comName hc := by
    rw [reopened_transport] at hc
    rw [reopened_comName hc]
    exact trim_given (h.comName hc)
  pollPeriodMs := by
    obtain ⟨period, hperiod, hpos⟩ := h.pollPeriodMs
    exact ⟨period, parse_reopened_pollPeriodMs hperiod (hprint.pollPeriodMs period hperiod), hpos⟩
  modbus hm field := by
    rw [reopened_transport] at hm
    obtain ⟨count, hcount⟩ := Option.ne_none_iff_exists'.mp (h.modbus hm field)
    rw [parse_reopened_count hm hcount (hprint.modbus hm field count hcount)]
    exact Option.some_ne_none count
  vars := (validateVariables_reopened d).trans h.vars

/-- A draft that is opened without errors has printed its Numbers as integers. -/
theorem printsBack_of_reopened (h : PayloadValid (reopened d)) : PrintsBack d where
  pollPeriodMs period hperiod := by
    obtain ⟨period', hperiod', -⟩ := h.pollPeriodMs
    rw [reopened_pollPeriodMs hperiod, parseIntStrict_stringOf] at hperiod'
    by_contra hplain
    rw [if_neg hplain] at hperiod'
    cases hperiod'
  modbus hm field count hcount := by
    by_contra hplain
    apply h.modbus hm field
    rw [reopened_count hm hcount, parseCount_stringOf (not_lt_of_parseCount hcount), if_neg hplain]

/-- The variables keep their order, and the fields of the other transports are null. -/
theorem draftToPayload_shape (d : ConfigFormDraft) :
    (draftToPayload d).vars.map ConfigVar.ctype = d.vars.map VariableDraft.ctype ∧
    (draftToPayload d).vars.map ConfigVar.name = d.vars.map (fun var => Js.trim var.name) ∧
    (¬ needsNetwork d.transport →
      (draftToPayload d).connection.ip = none ∧ (draftToPayload d).connection.port = none) ∧
    (d.transport ≠ .gpib → (draftToPayload d).connection.gpibAddr = none) ∧
    (d.transport ≠ .com → (draftToPayload d).connection.comName = none) ∧
    (¬ isModbus d.transport → (draftToPayload d).connection.modbus = none) := by
  refine ⟨?_, ?_, fun hn => ⟨payload_ip_of_not hn, payload_port_of_not hn⟩, payload_gpibAddr_of_not,
    payload_comName_of_not, payload_modbus_of_not⟩
  · rw [draftToPayload, List.map_map]
    rfl
  · rw [draftToPayload, List.map_map]
    rfl

theorem modbus_reopened (hm : isModbus d.transport) (h : PayloadValid d) (hprint : PrintsBack d) :
    (draftToPayload (reopened d)).connection.modbus = (draftToPayload d).connection.modbus := by
  have hcount (field : ModbusField) : parseCount ((reopened d).count field) = parseCount (d.count field) := by
    obtain ⟨count, hcount⟩ := Option.ne_none_iff_exists'.mp (h.modbus hm field)
    rw [parse_reopened_count hm hcount (hprint.modbus hm field count hcount), hcount]
  have hm' : isModbus (reopened d).transport := hm
  rw [payload_modbus hm, payload_modbus hm', hcount, hcount, hcount, hcount]

theorem connection_reopened (h : PayloadValid d) (hprint : PrintsBack d) :
    (draftToPayload (reopened d)).connection = (draftToPayload d).connection := by
  ext1
  case transport => rfl
  case ip =>
    by_cases hn : needsNetwork d.transport
    · have hn' : needsNetwork (reopened d).transport := hn
      rw [payload_ip hn, payload_ip hn', reopened_ip hn, given_given]
    · have hn' : ¬ needsNetwork (reopened d).transport := hn
      rw [payload_ip_of_not hn, payload_ip_of_not hn']
  case port =>
    by_cases hn : needsNetwork d.transport
    · have hn' : needsNetwork (reopened d).transport := hn
      rw [payload_port hn, payload_port hn', parse_reopened_port hn h]
    · have hn' : ¬ needsNetwork (reopened d).transport := hn
      rw [payload_port_of_not hn, payload_port_of_not hn']
  case gpibAddr =>
    by_cases hg : d.transport = .gpib
    · have hg' : (reopened d).transport = .gpib := hg
      rw [payload_gpibAddr hg, payload_gpibAddr hg', parse_reopened_gpibAddr hg h]
    · have hg' : (reopened d).transport ≠ .gpib := hg
      rw [payload_gpibAddr_of_not hg, payload_gpibAddr_of_not hg']
  case comName =>
    by_cases hc : d.transport = .com
    · have hc' : (reopened d).transport = .com := hc
      rw [payload_comName hc, payload_comName hc', reopened_comName hc, given_given]
    · have hc' : (reopened d).transport ≠ .com := hc
      rw [payload_comName_of_not hc, payload_comName_of_not hc']
  case ipRequest =>
    simp only [draftToPayload]
    rw [reopened_ipRequest, given_given]
  case pollPeriodMs =>
    obtain ⟨period, hperiod, -⟩ := h.pollPeriodMs
    simp only [draftToPayload]
    rw [parse_reopened_pollPeriodMs hperiod (hprint.pollPeriodMs period hperiod), hperiod]
  case modbus =>
    by_cases hm : isModbus d.transport
    · exact modbus_reopened hm h hprint
    · have hm' : ¬ isModbus (reopened d).transport := hm
      rw [payload_modbus_of_not hm, payload_modbus_of_not hm']
  case params => rfl

theorem draftToPayload_reopened (h : PayloadValid d) (hprint : PrintsBack d) :
    draftToPayload (reopened d) = draftToPayload d := by
  ext1
  case connection => exact connection_reopened h hprint
  case vars =>
    simp only [draftToPayload, reopened, configToDraft, List.map_map]
    apply List.map_congr_left
    intro var _
    simp [VariableDraft.trimmed]

/-- **A config saved from the form is opened without errors and saved unchanged, with its variables in
order and the fields of other transports null, exactly when its polling period and, on Modbus, its counts
are below `10 ^ 21`.** -/
theorem reopened_iff (d : ConfigFormDraft) (hvalid : hasErrors (validateConfigForm d) = false) :
    (hasErrors (validateConfigForm (reopened d)) = false ∧ draftToPayload (reopened d) = draftToPayload d ∧
      (draftToPayload d).vars.map ConfigVar.ctype = d.vars.map VariableDraft.ctype ∧
      (draftToPayload d).vars.map ConfigVar.name = d.vars.map (fun var => Js.trim var.name) ∧
      (¬ needsNetwork d.transport →
        (draftToPayload d).connection.ip = none ∧ (draftToPayload d).connection.port = none) ∧
      (d.transport ≠ .gpib → (draftToPayload d).connection.gpibAddr = none) ∧
      (d.transport ≠ .com → (draftToPayload d).connection.comName = none) ∧
      (¬ isModbus d.transport → (draftToPayload d).connection.modbus = none)) ↔ PrintsBack d := by
  obtain ⟨htexts, hpayload⟩ := (hasErrors_validateConfigForm d).mp hvalid
  constructor
  · rintro ⟨hreopened, -⟩
    exact printsBack_of_reopened ((hasErrors_validateConfigForm (reopened d)).mp hreopened).2
  · intro hprint
    have hvalid' := payloadValid_reopened hpayload hprint
    exact ⟨(hasErrors_validateConfigForm (reopened d)).mpr ⟨htexts, hvalid'⟩,
      draftToPayload_reopened hpayload hprint, draftToPayload_shape d⟩

/-- A draft for a GPIB device with one variable. -/
def sampleDraft (pollPeriodMs : String) : ConfigFormDraft where
  name := "Вольтметр"
  deviceType := "multimeter"
  visibility := .PRIVATE
  transport := .gpib
  ip := ""
  port := ""
  gpibAddr := " 07 "
  comName := ""
  ipRequest := ""
  pollPeriodMs := pollPeriodMs
  discreteInputsBytes := "0"
  coilsBytes := "0"
  holdingRegisters := "0"
  inputRegisters := "0"
  params := Dict.empty
  vars := [⟨" voltage ", .F32, true, ""⟩]

theorem sampleDraft_reopened :
    hasErrors (validateConfigForm (sampleDraft "200")) = false ∧
      draftToPayload (reopened (sampleDraft "200")) = draftToPayload (sampleDraft "200") := by
  have hvalid : hasErrors (validateConfigForm (sampleDraft "200")) = false := by decide
  have hperiod : parseIntStrict (sampleDraft "200").pollPeriodMs = some (.ofInt 200) := by decide
  have hprint : PrintsBack (sampleDraft "200") := by
    refine ⟨fun period h => ?_, fun hm => absurd hm (by decide)⟩
    rw [hperiod] at h
    exact Option.some.inj h ▸ (by decide : (Js.Number.ofInt 200).Plain)
  exact ⟨hvalid, ((reopened_iff (sampleDraft "200") hvalid).mpr hprint).2.1⟩

/-- A period of `10 ^ 21` is accepted, and the saved config is then opened with an error. -/
theorem longPeriod_not_reopened :
    hasErrors (validateConfigForm (sampleDraft "1000000000000000000000")) = false ∧
      ¬ hasErrors (validateConfigForm (reopened (sampleDraft "1000000000000000000000"))) = false := by
  decide +kernel

end Tstlan.Web
