import Tstlan.Web.Configs

/-! # What the form checks

`PayloadValid` is what has to hold of a draft for the form to report no error in a field of the payload;
the two lemmas about printed Numbers say what becomes of these checks when a stored config is opened. -/
namespace Tstlan.Web
open Foundations
set_option autoImplicit false

/-! ## No errors -/

/-- The errors in the fields of the payload. -/
def ConfigFieldErrors.payload (errors : ConfigFieldErrors) : ConfigFieldErrors :=
  { errors with name := none, deviceType := none }

structure PayloadValid (d : ConfigFormDraft) : Prop where
  ip : needsNetwork d.transport → Js.trim d.ip ≠ ""
  port : needsNetwork d.transport → outside PORT_MIN PORT_MAX (parseIntStrict d.port) = false
  gpibAddr : d.transport = .gpib → outside GPIB_MIN GPIB_MAX (parseIntStrict d.gpibAddr) = false
  comName : d.transport = .com → Js.trim d.comName ≠ ""
  pollPeriodMs : ∃ period, parseIntStrict d.pollPeriodMs = some period ∧ period.gt 0
  modbus : isModbus d.transport → ∀ field, parseCount (d.count field) ≠ none
  vars : validateVariables d.vars = []

theorem mem_modbusFields (field : ModbusField) : field ∈ modbusFields := by
  cases field <;> decide

theorem someErrors_eq_none {α : Type} {errors : List α} : someErrors errors = none ↔ errors = [] := by
  cases errors <;> simp [someErrors]

theorem period_eq_none {x : Option Js.Number} {text : String} :
    (if x.any (fun period => period.gt 0) then none else some text) = none ↔
      ∃ period, x = some period ∧ period.gt 0 := by
  cases x <;> simp

theorem modbus_eq_none {d : ConfigFormDraft} {text : String} :
    someErrors ((modbusFields.filter (fun field => parseCount (d.count field) = none)).map
      (fun field => (field, text))) = none ↔ ∀ field, parseCount (d.count field) ≠ none := by
  rw [someErrors_eq_none, List.map_eq_nil_iff, List.filter_eq_nil_iff]
  simp only [decide_eq_true_eq]
  exact ⟨fun h field => h field (mem_modbusFields field), fun h field _ => h field⟩

theorem hasErrors_payload (d : ConfigFormDraft) :
    hasErrors (validateConfigForm d).payload = false ↔ PayloadValid d := by
  have hempty : hasErrors (validateConfigForm d).payload = false ↔
      (validateConfigForm d).ip = none ∧ (validateConfigForm d).port = none ∧
        (validateConfigForm d).gpibAddr = none ∧ (validateConfigForm d).comName = none ∧
        (validateConfigForm d).pollPeriodMs = none ∧ (validateConfigForm d).modbus = none ∧
        (validateConfigForm d).vars = none := by
    simp [hasErrors, ConfigFieldErrors.payload]
  rw [hempty]
  simp only [validateConfigForm, period_eq_none, someErrors_eq_none (α := ℕ × String)]
  constructor
  · rintro ⟨hip, hport, hgpib, hcom, hperiod, hmodbus, hvars⟩
    refine ⟨?_, ?_, ?_, ?_, hperiod, ?_, hvars⟩
    · intro hn hblank
      rw [if_pos ⟨hn, hblank⟩] at hip
      cases hip
    · intro hn
      by_contra hout
      rw [if_pos ⟨hn, by simpa using hout⟩] at hport
      cases hport
    · intro hg
      by_contra hout
      rw [if_pos ⟨hg, by simpa using hout⟩] at hgpib
      cases hgpib
    · intro hc hblank
      rw [if_pos ⟨hc, hblank⟩] at hcom
      cases hcom
    · intro hm
      rw [if_pos hm] at hmodbus
      exact modbus_eq_none.mp hmodbus
  · intro h
    refine ⟨?_, ?_, ?_, ?_, h.pollPeriodMs, ?_, h.vars⟩
    · exact if_neg (fun hc => h.ip hc.1 hc.2)
    · exact if_neg (fun hc => by simpa [h.port hc.1] using hc.2)
    · exact if_neg (fun hc => by simpa [h.gpibAddr hc.1] using hc.2)
    · exact if_neg (fun hc => h.comName hc.1 hc.2)
    · split_ifs with hm
      · exact modbus_eq_none.mpr (h.modbus hm)
      · rfl

theorem hasErrors_iff (errors : ConfigFieldErrors) :
    hasErrors errors = false ↔
      (errors.name = none ∧ errors.deviceType = none) ∧ hasErrors errors.payload = false := by
  cases errors
  simp [hasErrors, ConfigFieldErrors.payload, and_assoc]

theorem hasErrors_validateConfigForm (d : ConfigFormDraft) :
    hasErrors (validateConfigForm d) = false ↔
      ((validateConfigForm d).name = none ∧ (validateConfigForm d).deviceType = none) ∧
        PayloadValid d := by
  rw [hasErrors_iff, hasErrors_payload]

theorem validateVariablesFrom_eq_nil (position : ℕ) (seen : List String) (vars : List VariableDraft) :
    validateVariablesFrom position seen vars = [] ↔
      (∀ var ∈ vars, Js.trim var.name ≠ "" ∧ Js.trim var.name ∉ seen) ∧
        (vars.map (fun var => Js.trim var.name)).Nodup := by
  induction vars generalizing position seen with
  | nil => simp [validateVariablesFrom]
  | cons var vars ih =>
    rw [validateVariablesFrom]
    by_cases hblank : Js.trim var.name = ""
    · simp [hblank]
    · by_cases hseen : Js.trim var.name ∈ seen
      · simp [hblank, hseen]
      · rw [if_neg hblank, if_neg hseen, ih, List.map_cons, List.nodup_cons, List.forall_mem_cons]
        constructor
        · rintro ⟨hall, hnodup⟩
          refine ⟨⟨⟨hblank, hseen⟩, fun v hv => ?_⟩, fun hin => ?_, hnodup⟩
          · exact ⟨(hall v hv).1, fun h => (hall v hv).2 (List.mem_cons_of_mem _ h)⟩
          · obtain ⟨v, hv, heq⟩ := List.mem_map.mp hin
            exact (hall v hv).2 (heq ▸ List.mem_cons_self)
        · rintro ⟨⟨-, hall⟩, hnew, hnodup⟩
          refine ⟨fun v hv => ⟨(hall v hv).1, fun h => ?_⟩, hnodup⟩
          rcases List.mem_cons.mp h with heq | h
          · exact hnew (heq ▸ List.mem_map_of_mem hv)
          · exact (hall v hv).2 h

/-! ## Texts and Numbers that go through the form -/

theorem trim_ofList_solid {cs : List Char} (h : ∀ c ∈ cs, Js.isSpace c = false) :
    Js.trim (String.ofList cs) = String.ofList cs := by
  rw [Js.trim, String.toList_ofList, Js.trimChars_of_solid h]

/-- A printed Number is read back when it is printed as an integer. -/
theorem parseIntStrict_stringOf (x : Js.Number) :
    parseIntStrict (stringOf x) = if x.Plain then some x else none := by
  rw [parseIntStrict, stringOf, String.toList_ofList,
    Js.trimChars_of_solid (fun c hc => x.solid_text hc), Js.Number.numberOf_text]

theorem parseCount_stringOf {x : Js.Number} (h : x.lt 0 = false) :
    parseCount (stringOf x) = if x.Plain then some x else none := by
  have hne : Js.trim (stringOf x) ≠ "" := by
    rw [stringOf, trim_ofList_solid (fun c hc => x.solid_text hc)]
    intro hempty
    have hnil := congrArg String.toList hempty
    rw [String.toList_ofList] at hnil
    exact x.text_ne_nil hnil
  rw [parseCount, if_neg hne, parseIntStrict_stringOf]
  split_ifs with hplain
  · simp [h]
  · rfl

theorem not_lt_of_parseCount {raw : String} {x : Js.Number} (h : parseCount raw = some x) : x.lt 0 = false := by
  rw [parseCount] at h
  split at h
  · cases h
    decide
  · split at h
    · cases h
    · split at h
      · cases h
      · next hlt =>
        cases h
        simpa using hlt

theorem plain_of_outside {low high : ℤ} (hlow : -10 ^ 21 < low) (hhigh : high < 10 ^ 21) {x : Js.Number}
    (h : outside low high (some x) = false) : x.Plain := by
  cases x with
  | integer n hn =>
    simp only [outside, Js.Number.lt, Js.Number.gt, Bool.or_eq_false_iff, decide_eq_false_iff_not] at h
    simp only [Js.Number.Plain, Js.Number.lt, Js.Number.gt, decide_eq_true_eq]
    omega
  | infinity negative => cases negative <;> simp [outside, Js.Number.lt, Js.Number.gt] at h

theorem given_of_ne {raw : String} (h : Js.trim raw ≠ "") : given raw = some (Js.trim raw) := if_pos h

theorem given_given (raw : String) : given ((given raw).getD "") = given raw := by
  by_cases h : Js.trim raw ≠ ""
  · simp only [given, if_pos h, Option.getD_some, Js.trim_trim]
  · have hnone : given raw = none := if_neg h
    rw [hnone]
    rfl

end Tstlan.Web
