import Tstlan.Configs.Payloads
import Tstlan.Configs.Sharing
import Tstlan.Web.Validation

/-! # The form's rules over stored payloads

`ObeysForm` states the rules of the form on a payload of the backend, and `form_accepts` compares them with
the form's own verdict on the opened config: the two differ only in Numbers that do not print as integers.
The backend checks none of the rules, so a stored payload obeys them when every body did. -/
namespace Tstlan.Web
open Foundations
set_option autoImplicit false

/-! ## A payload of the backend in the frontend -/

/-- An integer of the response, as `JSON.parse` reads it. -/
def received (n : ℤ) : Js.Number := .ofInt n

def receivedMap (m : Tstlan.ModbusMap) : ModbusMap :=
  ⟨received m.discreteInputsBytes, received m.coilsBytes, received m.holdingRegisters,
    received m.inputRegisters⟩

def receivedPayload (p : Tstlan.ConfigPayload) : ConfigPayload where
  connection := {
    transport := p.connection.transport
    ip := p.connection.ip
    port := p.connection.port.map received
    gpibAddr := p.connection.gpibAddr.map received
    comName := p.connection.comName
    ipRequest := p.connection.ipRequest
    pollPeriodMs := received p.connection.pollPeriodMs
    modbus := p.connection.modbus.map receivedMap
    params := p.connection.params }
  vars := p.vars

/-- The config as the form opens it. -/
def opened (row : DeviceConfig) : ConfigFormDraft :=
  configToDraft ⟨row.name, row.deviceType, row.visibility, receivedPayload row.payload⟩

/-! ## The rules -/

def modbusCount (m : Tstlan.ModbusMap) : ModbusField → ℤ
  | .discreteInputsBytes => m.discreteInputsBytes
  | .coilsBytes => m.coilsBytes
  | .holdingRegisters => m.holdingRegisters
  | .inputRegisters => m.inputRegisters

/-- What the form checks of a payload. -/
structure ObeysForm (p : Tstlan.ConfigPayload) : Prop where
  named : ∀ var ∈ p.vars, Js.trim var.name ≠ ""
  distinct : (p.vars.map (fun var => Js.trim var.name)).Nodup
  ip : needsNetwork p.connection.transport → ∃ ip, p.connection.ip = some ip ∧ Js.trim ip ≠ ""
  port : needsNetwork p.connection.transport → ∃ port, p.connection.port = some port ∧ 1 ≤ port ∧ port ≤ 65535
  gpibAddr : p.connection.transport = .gpib → ∃ addr, p.connection.gpibAddr = some addr ∧ 0 ≤ addr ∧ addr ≤ 30
  comName : p.connection.transport = .com → ∃ name, p.connection.comName = some name ∧ Js.trim name ≠ ""
  pollPeriodMs : 0 < p.connection.pollPeriodMs
  modbus : isModbus p.connection.transport →
    ∀ m, p.connection.modbus = some m → ∀ field, 0 ≤ modbusCount m field

/-- The polling period and the Modbus counts print as integers. -/
structure PrintsPlain (p : Tstlan.ConfigPayload) : Prop where
  pollPeriodMs : (received p.connection.pollPeriodMs).Plain
  modbus : isModbus p.connection.transport →
    ∀ m, p.connection.modbus = some m → ∀ field, (received (modbusCount m field)).Plain

/-! ## The two validators -/

/-- A field of an optional text. -/
theorem trim_getD_ne {text : Option String} :
    Js.trim (text.getD "") ≠ "" ↔ ∃ s, text = some s ∧ Js.trim s ≠ "" := by
  cases text with
  | none =>
    have hempty : Js.trim "" = "" := by decide
    simp [hempty]
  | some s => simp

theorem outside_received {low high : ℤ} (hlow : low.natAbs < 2 ^ 53) (hhigh : high.natAbs < 2 ^ 53)
    (n : Option ℤ) :
    outside low high (parseIntStrict (((n.map received).map stringOf).getD "")) = false ↔
      ∃ k, n = some k ∧ low ≤ k ∧ k ≤ high := by
  cases n with
  | none =>
    have hempty : parseIntStrict "" = none := by decide
    simp [hempty, outside]
  | some k =>
    have hrange : outside low high (some (received k)) = false ↔ low ≤ k ∧ k ≤ high := by
      simp only [outside, received, Js.Number.ofInt_lt hlow, Js.Number.ofInt_gt hhigh, Bool.or_eq_false_iff,
        decide_eq_false_iff_not, not_lt]
    simp only [Option.map_some, Option.getD_some, parseIntStrict_stringOf, Option.some.injEq, exists_eq_left']
    split_ifs with hplain
    · exact hrange
    · refine iff_of_false (by simp [outside]) (fun h => hplain ?_)
      exact plain_of_outside (by omega) (by omega) (hrange.mpr h)

theorem parseCount_received (n : ℤ) :
    parseCount (stringOf (received n)) ≠ none ↔ 0 ≤ n ∧ (received n).Plain := by
  have hsign : (received n).lt 0 = decide (n < 0) := Js.Number.ofInt_lt (by decide) n
  by_cases hneg : n < 0
  · refine iff_of_false ?_ (fun h => absurd h.1 (by omega))
    rw [not_not]
    cases hcount : parseCount (stringOf (received n)) with
    | none => rfl
    | some count =>
      have hread := parseIntStrict_stringOf (received n)
      have hpos := not_lt_of_parseCount hcount
      rw [parseCount] at hcount
      split_ifs at hcount with hblank
      · -- a printed Number is not blank
        rw [stringOf, trim_ofList_solid (fun c hc => (received n).solid_text hc)] at hblank
        have hnil := congrArg String.toList hblank
        rw [String.toList_ofList] at hnil
        exact absurd hnil (received n).text_ne_nil
      · rw [hread] at hcount
        split_ifs at hcount with hplain
        · simp [hsign, hneg] at hcount
  · rw [decide_eq_false hneg] at hsign
    rw [parseCount_stringOf hsign]
    split_ifs with hplain
    · simp [hplain]
      omega
    · simp [hplain]

theorem positive_received (n : ℤ) :
    (∃ period, parseIntStrict (stringOf (received n)) = some period ∧ period.gt 0) ↔
      0 < n ∧ (received n).Plain := by
  have hgt : (received n).gt 0 = decide (0 < n) := Js.Number.ofInt_gt (by decide) _
  rw [parseIntStrict_stringOf]
  constructor
  · rintro ⟨period, hread, hpos⟩
    split_ifs at hread with hplain
    cases hread
    rw [hgt] at hpos
    exact ⟨of_decide_eq_true hpos, hplain⟩
  · rintro ⟨hpos, hplain⟩
    refine ⟨received n, if_pos hplain, ?_⟩
    rw [hgt]
    exact decide_eq_true hpos

theorem validateVariables_opened (row : DeviceConfig) :
    validateVariables (opened row).vars = [] ↔
      (∀ var ∈ row.payload.vars, Js.trim var.name ≠ "") ∧
        (row.payload.vars.map (fun var => Js.trim var.name)).Nodup := by
  have hdrafts : (opened row).vars =
      row.payload.vars.map (fun var => ⟨var.name, var.ctype, var.graph, var.category⟩) := rfl
  rw [validateVariables, validateVariablesFrom_eq_nil, hdrafts, List.map_map]
  simp [Function.comp_def]

theorem count_opened {row : DeviceConfig} {m : Tstlan.ModbusMap} (hm : row.payload.connection.modbus = some m)
    (field : ModbusField) : (opened row).count field = stringOf (received (modbusCount m field)) := by
  cases field <;> simp [opened, configToDraft, receivedPayload, receivedMap, ConfigFormDraft.count, hm, modbusCount]

/-- Without a Modbus map the form shows zeros. -/
theorem count_opened_of_none {row : DeviceConfig} (hm : row.payload.connection.modbus = none) (field : ModbusField) :
    (opened row).count field = stringOf (received 0) := by
  cases field <;> simp [opened, configToDraft, receivedPayload, ConfigFormDraft.count, hm, received]

theorem parseCount_opened (row : DeviceConfig) :
    (∀ field, parseCount ((opened row).count field) ≠ none) ↔
      ∀ m, row.payload.connection.modbus = some m → ∀ field, 0 ≤ modbusCount m field ∧
        (received (modbusCount m field)).Plain := by
  cases hm : row.payload.connection.modbus with
  | none =>
    refine iff_of_true (fun field => ?_) (fun m h => by cases h)
    rw [count_opened_of_none hm, parseCount_received]
    exact ⟨le_rfl, by decide⟩
  | some m =>
    simp only [count_opened hm, parseCount_received, Option.some.injEq, forall_eq']

/-- **The form reports no error in the payload of an opened config exactly when the stored payload obeys
the rules and its polling period and counts print as integers.** -/
theorem form_accepts (row : DeviceConfig) :
    hasErrors (validateConfigForm (opened row)).payload = false ↔
      ObeysForm row.payload ∧ PrintsPlain row.payload := by
  have hip : (opened row).ip = row.payload.connection.ip.getD "" := rfl
  have hcom : (opened row).comName = row.payload.connection.comName.getD "" := rfl
  have hport : (opened row).port = ((row.payload.connection.port.map received).map stringOf).getD "" := rfl
  have hgpib : (opened row).gpibAddr =
      ((row.payload.connection.gpibAddr.map received).map stringOf).getD "" := rfl
  have hpollPeriod : (opened row).pollPeriodMs = stringOf (received row.payload.connection.pollPeriodMs) := by
    simp only [opened, configToDraft, receivedPayload]
  have hvars := validateVariables_opened row
  have hpositive := positive_received row.payload.connection.pollPeriodMs
  rw [← hpollPeriod] at hpositive
  rw [hasErrors_payload]
  constructor
  · intro h
    obtain ⟨hperiod, hplain⟩ := hpositive.mp h.pollPeriodMs
    have hcounts (hmodbus : isModbus row.payload.connection.transport) :=
      (parseCount_opened row).mp (h.modbus hmodbus)
    refine ⟨⟨(hvars.mp h.vars).1, (hvars.mp h.vars).2, fun hn => ?_, fun hn => ?_, fun hg => ?_,
      fun hc => ?_, hperiod, fun hmodbus m hm field => (hcounts hmodbus m hm field).1⟩, hplain,
      fun hmodbus m hm field => (hcounts hmodbus m hm field).2⟩
    · exact trim_getD_ne.mp (hip ▸ h.ip hn)
    · exact (outside_received (by decide) (by decide) _).mp (hport ▸ h.port hn)
    · exact (outside_received (by decide) (by decide) _).mp (hgpib ▸ h.gpibAddr hg)
    · exact trim_getD_ne.mp (hcom ▸ h.comName hc)
  · rintro ⟨h, hprint⟩
    refine ⟨fun hn => ?_, fun hn => ?_, fun hg => ?_, fun hc => ?_, ?_, fun hmodbus => ?_,
      hvars.mpr ⟨h.named, h.distinct⟩⟩
    · exact hip ▸ trim_getD_ne.mpr (h.ip hn)
    · exact hport ▸ (outside_received (by decide) (by decide) _).mpr (h.port hn)
    · exact hgpib ▸ (outside_received (by decide) (by decide) _).mpr (h.gpibAddr hg)
    · exact hcom ▸ trim_getD_ne.mpr (h.comName hc)
    · exact hpositive.mpr ⟨h.pollPeriodMs, hprint.pollPeriodMs⟩
    · exact (parseCount_opened row).mpr (fun m hm field => ⟨h.modbus hmodbus m hm field, hprint.modbus hmodbus m hm field⟩)

/-! ## Runs -/

theorem connection_of_same {p q : Tstlan.ConfigPayload} (h : p.same q) :
    ∃ params, q = { connection := { p.connection with params := params }, vars := p.vars } := by
  obtain ⟨hconnection, -, hvars⟩ := h
  refine ⟨q.connection.params, ?_⟩
  obtain ⟨pc, pv⟩ := p
  obtain ⟨qc, qv⟩ := q
  cases pc
  cases qc
  simp only [Tstlan.ConnectionSettings.mk.injEq] at hconnection
  obtain ⟨rfl, rfl, rfl, rfl, rfl, rfl, rfl, rfl, -⟩ := hconnection
  cases hvars
  rfl

theorem ObeysForm.of_same {p q : Tstlan.ConfigPayload} (hp : ObeysForm p) (h : p.same q) : ObeysForm q := by
  obtain ⟨params, rfl⟩ := connection_of_same h
  exact ⟨hp.named, hp.distinct, hp.ip, hp.port, hp.gpibAddr, hp.comName, hp.pollPeriodMs, hp.modbus⟩

theorem PrintsPlain.of_same {p q : Tstlan.ConfigPayload} (hp : PrintsPlain p) (h : p.same q) :
    PrintsPlain q := by
  obtain ⟨params, rfl⟩ := connection_of_same h
  exact ⟨hp.pollPeriodMs, hp.modbus⟩

/-- Every stored payload obeys the rules, and the form opens every stored config without an error in its
payload. -/
def Enforced (db : Database) : Prop :=
  ∀ id row, db.configs.get? id = some row →
    ObeysForm row.payload ∧ hasErrors (validateConfigForm (opened row)).payload = false

/-- The payload of an accepted body obeys the rules and prints as integers. -/
def ObeyingEvent (event : ConfigEvent) : Prop :=
  ∀ call env outcome p, event = .call call env outcome → call.written outcome = some p →
    ObeysForm p ∧ PrintsPlain p

variable {root : LogLevel}

theorem enforced_step {db db' : Database} {event : ConfigEvent} (hevent : ObeyingEvent event)
    (hdb : Enforced db) (h : Database.Step root db event db') : Enforced db' := by
  cases h with
  | elsewhere hconfigs hshares =>
    intro id row hrow
    exact hdb id row (hconfigs ▸ hrow)
  | call call env =>
    have heffect := Configs.payloads_call root env db call
    intro id row hrow
    rcases heffect.origin id row hrow with ⟨old, hold, hpayload⟩ | hwritten
    · obtain ⟨hobeys, hform⟩ := hdb id old hold
      have hboth := (form_accepts old).mp hform
      rw [← hpayload] at hobeys hboth
      exact ⟨hobeys, (form_accepts row).mpr hboth⟩
    · obtain ⟨hobeys, hprint⟩ := hevent call env _ _ rfl hwritten
      exact ⟨hobeys, (form_accepts row).mpr ⟨hobeys, hprint⟩⟩

/-- An accepted body that breaks a rule is stored. -/
theorem obeyingEvent_of_enforced {db db' : Database} {event : ConfigEvent}
    (h : Database.Step root db event db') (hdb' : Enforced db') : ObeyingEvent event := by
  cases h with
  | elsewhere hconfigs hshares =>
    intro call env outcome p hcall
    cases hcall
  | call call env =>
    intro call' env' outcome' p hcall hwritten
    cases hcall
    obtain ⟨id, row, hrow, hsame⟩ := (Configs.payloads_call root env db call).held p hwritten
    obtain ⟨hobeys, hform⟩ := hdb' id row hrow
    have hboth := (form_accepts row).mp hform
    exact ⟨hobeys.of_same hsame, hboth.2.of_same hsame⟩

/-- **Every state of a run enforces the rules exactly when every accepted body obeyed them.** -/
theorem enforced_iff {db db' : Database} {events : List ConfigEvent} (hdb : Enforced db)
    (hrun : Run (Database.Step root) db events db') :
    (∀ pre post mid, events = pre ++ post → Run (Database.Step root) db pre mid →
        Run (Database.Step root) mid post db' → Enforced mid) ↔
      ∀ event ∈ events, ObeyingEvent event := by
  constructor
  · intro h event hevent
    obtain ⟨pre, post, rfl⟩ := List.append_of_mem hevent
    obtain ⟨mid, hpre, hpost⟩ := hrun.split
    cases hpost with
    | cons hstep hpost =>
      have hmid := h (pre ++ [event]) post _ (by simp) (hpre.snoc hstep) hpost
      exact obeyingEvent_of_enforced hstep hmid
  · rintro h pre post mid rfl hpre -
    have hgood : ∀ event ∈ pre, ObeyingEvent event :=
      fun event hevent => h event (List.mem_append_left post hevent)
    exact hpre.invariant_of_labels (fun _ _ _ hevent hs hstep => enforced_step hevent hs hstep) hgood hdb

/-- A config of a GPIB device with variables of these names. -/
def sampleBody (names : List String) : ConfigCall :=
  .create ⟨1, "ann", "", .DEV, true⟩
    { name := "Вольтметр"
      deviceType := "multimeter"
      payload := {
        connection := { transport := .gpib, gpibAddr := some 7 }
        vars := names.map (fun name => { name := name, ctype := .F32 }) } }

theorem sampleBody_enforced :
    Enforced (final (((sampleBody ["voltage", "current"]).run .INFO sampleEnv).run sampleDatabase)) := by
  have hempty : Enforced sampleDatabase := by
    intro id row hrow
    cases hrow
  have hrun : Run (Database.Step .INFO) sampleDatabase _ _ :=
    .single (.call (sampleBody ["voltage", "current"]) sampleEnv)
  refine (enforced_iff hempty hrun).mpr (fun event hevent => ?_) _ [] _ rfl hrun (.nil _)
  rw [List.mem_singleton.mp hevent]
  rintro call env outcome p hcall hwritten
  cases hcall
  cases hwritten
  refine ⟨⟨by decide, by decide, fun hn => absurd hn (by decide), fun hn => absurd hn (by decide),
    fun _ => ⟨7, rfl, by decide⟩, fun hc => absurd hc (by decide), by decide, fun hm => absurd hm (by decide)⟩,
    by decide, fun hm => absurd hm (by decide)⟩

/-- A body with two variables of one name is accepted and stored. -/
theorem namesakes_stored : ∃ db : Database, db.Reachable .INFO ∧ ¬ Enforced db := by
  refine ⟨final (((sampleBody ["voltage", "voltage"]).run .INFO sampleEnv).run sampleDatabase),
    ⟨sampleDatabase, _, ⟨rfl, rfl⟩, .single (.call _ sampleEnv)⟩, fun h => ?_⟩
  have hdistinct := (h 1 _ rfl).1.distinct
  revert hdistinct
  decide

end Tstlan.Web
