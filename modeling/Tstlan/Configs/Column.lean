import Tstlan.Configs.Models
import Tstlan.Devices.Models
import Tstlan.Foundations.Formats
import Tstlan.Migrations

/-! # The payload column (`tstlan/configs/schemas.py`)

A payload is stored as the JSON of `model_dump` and read with `model_validate`; the models forbid other keys.
Two revisions of the column take out what the models of today do not know, the transport `modbus` and the key `index`
of a variable: what they make of a payload is read as the payload itself by a model that takes `modbus` for Modbus over
TCP and ignores `index`. -/
namespace Tstlan
open Foundations Formats
set_option autoImplicit false

/-- What the validator makes of a scalar. A value of the type itself stands for itself; others may be converted. -/
structure Scalars (φ : Type) where
  int : Reader φ ℤ
  bool : Reader φ Bool
  int_int : ∀ n, int (.int n) = .ok n
  bool_bool : ∀ b, bool (.bool b) = .ok b

def Transport.text : Transport → String
  | .ethernet => "ethernet"
  | .gpib => "gpib"
  | .com => "com"
  | .modbusTcp => "modbus_tcp"
  | .modbusUdp => "modbus_udp"

/-- The members of `Transport`. -/
def transportLabels : List (String × Transport) :=
  [Transport.ethernet, .gpib, .com, .modbusTcp, .modbusUdp].map (fun t => (t.text, t))

def ctypeLabels : List (String × NetVarCType) :=
  [NetVarCType.BIT, .U8, .I8, .U16, .I16, .U32, .I32, .U64, .I64, .F32, .F64].map (fun c => (c.text, c))

theorem lookup_transport (t : Transport) : Dict.lookup t.text transportLabels = some t := by
  cases t <;> rfl

theorem lookup_ctype (c : NetVarCType) : Dict.lookup c.text ctypeLabels = some c := by
  cases c <;> rfl

variable {φ ρ : Type}

/-- A value that may be none. -/
def dumpOption {α : Type} (dump : α → JsonValue φ) : Option α → JsonValue φ
  | none => .null
  | some a => dump a

/-! ## The models -/

namespace ModbusMap

def fieldNames : List String := ["discrete_inputs_bytes", "coils_bytes", "holding_registers", "input_registers"]

def validate (S : Scalars φ) : Reader φ ModbusMap :=
  record fieldNames fun members =>
    Checked.ok ModbusMap.mk
      |>.ap (field members "discrete_inputs_bytes" (some 0) S.int)
      |>.ap (field members "coils_bytes" (some 0) S.int)
      |>.ap (field members "holding_registers" (some 0) S.int)
      |>.ap (field members "input_registers" (some 0) S.int)

def members (m : ModbusMap) : List (String × JsonValue φ) :=
  [("discrete_inputs_bytes", .int m.discreteInputsBytes), ("coils_bytes", .int m.coilsBytes),
    ("holding_registers", .int m.holdingRegisters), ("input_registers", .int m.inputRegisters)]

def modelDump (excludeNone : Bool) (m : ModbusMap) : JsonValue φ := .dict (written excludeNone m.members)

end ModbusMap

namespace ConnectionSettings

def fieldNames : List String :=
  ["transport", "ip", "port", "gpib_addr", "com_name", "ip_request", "poll_period_ms", "modbus", "params"]

/-- `transports` are the texts of a transport with their meaning. -/
def validate (S : Scalars φ) (transports : List (String × Transport)) : Reader φ ConnectionSettings :=
  record fieldNames fun members =>
    Checked.ok ConnectionSettings.mk
      |>.ap (field members "transport" (some .ethernet) (oneOf "literal_error" transports))
      |>.ap (field members "ip" (some none) (nullable text))
      |>.ap (field members "port" (some none) (nullable S.int))
      |>.ap (field members "gpib_addr" (some none) (nullable S.int))
      |>.ap (field members "com_name" (some none) (nullable text))
      |>.ap (field members "ip_request" (some none) (nullable text))
      |>.ap (field members "poll_period_ms" (some 200) S.int)
      |>.ap (field members "modbus" (some none) (nullable (ModbusMap.validate S)))
      |>.ap (field members "params" (some Dict.empty) (dictOf text))

def members (excludeNone : Bool) (c : ConnectionSettings) : List (String × JsonValue φ) :=
  [("transport", .str c.transport.text), ("ip", dumpOption .str c.ip), ("port", dumpOption .int c.port),
    ("gpib_addr", dumpOption .int c.gpibAddr), ("com_name", dumpOption .str c.comName),
    ("ip_request", dumpOption .str c.ipRequest), ("poll_period_ms", .int c.pollPeriodMs),
    ("modbus", dumpOption (ModbusMap.modelDump excludeNone) c.modbus),
    ("params", .dict (c.params.entries.map (fun e => (e.1, .str e.2))))]

def modelDump (excludeNone : Bool) (c : ConnectionSettings) : JsonValue φ :=
  .dict (written excludeNone (c.members excludeNone))

end ConnectionSettings

namespace ConfigVar

def fieldNames : List String := ["name", "ctype", "graph", "category"]

/-- `ignored` are keys that are no fields and no complaints. -/
def validate (S : Scalars φ) (ignored : List String) : Reader φ ConfigVar :=
  record (ignored ++ fieldNames) fun members =>
    Checked.ok ConfigVar.mk
      |>.ap (field members "name" none text)
      |>.ap (field members "ctype" none (oneOf "enum" ctypeLabels))
      |>.ap (field members "graph" (some false) S.bool)
      |>.ap (field members "category" (some "") text)

def members (v : ConfigVar) : List (String × JsonValue φ) :=
  [("name", .str v.name), ("ctype", .str v.ctype.text), ("graph", .bool v.graph), ("category", .str v.category)]

def modelDump (excludeNone : Bool) (v : ConfigVar) : JsonValue φ := .dict (written excludeNone v.members)

end ConfigVar

namespace ConfigPayload

def fieldNames : List String := ["connection", "variables"]

def validateWith (S : Scalars φ) (transports : List (String × Transport)) (ignored : List String) :
    Reader φ ConfigPayload :=
  record fieldNames fun members =>
    Checked.ok ConfigPayload.mk
      |>.ap (field members "connection" (some {}) (ConnectionSettings.validate S transports))
      |>.ap (field members "variables" (some []) (listOf (ConfigVar.validate S ignored)))

/-- `ConfigPayload.model_validate`. -/
def modelValidate (S : Scalars φ) : Reader φ ConfigPayload := validateWith S transportLabels []

/-- The model of today, but `modbus` is read as Modbus over TCP and the `index` of a variable is ignored. The models that
the revisions came from are not there any more; `_remap_transport` of the upgrade says what `modbus` stands for, and
`_backfill_index` of the downgrade numbers the variables in their order. -/
def tolerant (S : Scalars φ) : Reader φ ConfigPayload :=
  validateWith S (("modbus", .modbusTcp) :: transportLabels) ["index"]

def members (excludeNone : Bool) (p : ConfigPayload) : List (String × JsonValue φ) :=
  [("connection", p.connection.modelDump excludeNone),
    ("variables", .list (p.vars.map (ConfigVar.modelDump excludeNone)))]

/-- `payload.model_dump(mode="json")`, or with `exclude_none=True`. -/
def modelDump (excludeNone : Bool) (p : ConfigPayload) : JsonValue φ :=
  .dict (written excludeNone (p.members excludeNone))

end ConfigPayload

/-! ## What is dumped is read back -/

variable (S : Scalars φ) (excludeNone : Bool)

theorem nullable_dumpOption {α : Type} {read : Reader φ α} {dump : α → JsonValue φ} (h : ∀ a, read (dump a) = .ok a)
    (hnull : ∀ a, (dump a).isNull = false) (o : Option α) : nullable read (dumpOption dump o) = .ok o := by
  cases o with
  | none => rfl
  | some a =>
    have hread : nullable read (dump a) = (read (dump a)).map some := by
      cases hdump : dump a with
      | null =>
        have hnull := hnull a
        rw [hdump] at hnull
        cases hnull
      | _ => rfl
    rw [dumpOption, hread, h]
    rfl

/-- A value that is left out is the default of its field. -/
theorem isNull_dumpOption {α : Type} {dump : α → JsonValue φ} (hnull : ∀ a, (dump a).isNull = false) (o : Option α) :
    (dumpOption dump o).isNull = false ∨ some none = some o := by
  cases o with
  | none => exact .inr rfl
  | some a => exact .inl (hnull a)

theorem ModbusMap.validate_modelDump (m : ModbusMap) :
    ModbusMap.validate S (m.modelDump excludeNone : JsonValue φ) = .ok m := by
  have hnodup : ((m.members : List (String × JsonValue φ)).map Prod.fst).Nodup := by
    show (fieldNames).Nodup
    decide
  refine record_written _ (by simp [members, fieldNames]) ?_
  rw [field_written hnodup rfl (S.int_int _) (.inl rfl),
    field_written hnodup rfl (S.int_int _) (.inl rfl),
    field_written hnodup rfl (S.int_int _) (.inl rfl),
    field_written hnodup rfl (S.int_int _) (.inl rfl)]
  rfl

/-- The transport is read as `transports` says. -/
theorem ConnectionSettings.validate_modelDump {transports : List (String × Transport)} {g : Transport → Transport}
    (hg : ∀ t : Transport, Dict.lookup t.text transports = some (g t)) (c : ConnectionSettings) :
    ConnectionSettings.validate S transports (c.modelDump excludeNone : JsonValue φ) =
      .ok { c with transport := g c.transport } := by
  have hnodup : ((c.members excludeNone : List (String × JsonValue φ)).map Prod.fst).Nodup := by
    show (fieldNames).Nodup
    decide
  have htransport : oneOf "literal_error" transports (.str c.transport.text : JsonValue φ) = .ok (g c.transport) := by
    rw [oneOf, hg]
  have hmodbus : nullable (ModbusMap.validate S) (dumpOption (ModbusMap.modelDump excludeNone) c.modbus) =
      .ok c.modbus := nullable_dumpOption (ModbusMap.validate_modelDump S excludeNone) (fun _ => rfl) c.modbus
  have hstr : ∀ s, text (.str s : JsonValue φ) = .ok s := fun _ => rfl
  have htext : ∀ o : Option String, nullable text (dumpOption .str o : JsonValue φ) = .ok o :=
    nullable_dumpOption hstr (fun _ => rfl)
  have hint : ∀ o : Option ℤ, nullable S.int (dumpOption .int o) = .ok o :=
    nullable_dumpOption S.int_int (fun _ => rfl)
  have hparams : dictOf text (.dict (c.params.entries.map (fun e => (e.1, .str e.2))) : JsonValue φ) = .ok c.params :=
    dictOf_entries hstr c.params
  refine record_written _ (by simp [members, fieldNames]) ?_
  rw [field_written hnodup rfl htransport (.inl rfl),
    field_written hnodup rfl (htext _) (isNull_dumpOption (fun _ => rfl) _),
    field_written hnodup rfl (hint _) (isNull_dumpOption (fun _ => rfl) _),
    field_written hnodup rfl (hint _) (isNull_dumpOption (fun _ => rfl) _),
    field_written hnodup rfl (htext _) (isNull_dumpOption (fun _ => rfl) _),
    field_written hnodup rfl (htext _) (isNull_dumpOption (fun _ => rfl) _),
    field_written hnodup rfl (S.int_int _) (.inl rfl),
    field_written hnodup rfl hmodbus (isNull_dumpOption (fun _ => rfl) _),
    field_written hnodup rfl hparams (.inl rfl)]
  rfl

theorem ConfigVar.validate_modelDump (ignored : List String) (v : ConfigVar) :
    ConfigVar.validate S ignored (v.modelDump excludeNone : JsonValue φ) = .ok v := by
  have hnodup : ((v.members : List (String × JsonValue φ)).map Prod.fst).Nodup := by
    show (fieldNames).Nodup
    decide
  have hctype : oneOf "enum" ctypeLabels (.str v.ctype.text : JsonValue φ) = .ok v.ctype := by
    rw [oneOf, lookup_ctype]
  have htext : ∀ s, text (.str s : JsonValue φ) = .ok s := fun _ => rfl
  refine record_written _ (by simp [members, fieldNames]) ?_
  rw [field_written hnodup rfl (htext _) (.inl rfl),
    field_written hnodup rfl hctype (.inl rfl),
    field_written hnodup rfl (S.bool_bool _) (.inl rfl),
    field_written hnodup rfl (htext _) (.inl rfl)]
  rfl

theorem ConfigPayload.validateWith_modelDump {transports : List (String × Transport)} {g : Transport → Transport}
    (hg : ∀ t : Transport, Dict.lookup t.text transports = some (g t)) (ignored : List String) (p : ConfigPayload) :
    ConfigPayload.validateWith S transports ignored (p.modelDump excludeNone : JsonValue φ) =
      .ok { p with connection := { p.connection with transport := g p.connection.transport } } := by
  have hnodup : ((p.members excludeNone : List (String × JsonValue φ)).map Prod.fst).Nodup := by
    show (fieldNames).Nodup
    decide
  have hvars := listOf_map (ConfigVar.validate_modelDump S excludeNone ignored) p.vars
  refine record_written _ (by simp [members, fieldNames]) ?_
  rw [field_written hnodup rfl (ConnectionSettings.validate_modelDump S excludeNone hg p.connection)
      (.inl rfl),
    field_written hnodup rfl hvars (.inl rfl)]
  rfl

/-! ## What the revisions make of a payload -/

namespace Migrations

theorem validate_without_index (v : JsonValue φ) :
    ConfigVar.validate S [] (v.without "index") = ConfigVar.validate S ["index"] v := by
  cases v with
  | dict members =>
    simp (disch := decide) only [JsonValue.without, ConfigVar.validate, record, onlyFields_without, field_without]
    rfl
  | _ => rfl

/-- A connection whose transport is edited is read with the texts that the edit leads to. -/
theorem validate_onMember_transport {transports transports' : List (String × Transport)}
    {f : JsonValue φ → JsonValue φ}
    (h : ∀ v, oneOf "literal_error" transports (f v) = oneOf "literal_error" transports' v) (v : JsonValue φ) :
    ConnectionSettings.validate S transports (v.onMember "transport" f) =
      ConnectionSettings.validate S transports' v := by
  cases v with
  | dict members =>
    simp (disch := decide) only [JsonValue.onMember, ConnectionSettings.validate, record, onlyFields_adjust,
      field_adjust, field_adjust_of_ne, h]
  | _ => rfl

theorem validateWith_onTransport {transports transports' : List (String × Transport)} {f : JsonValue φ → JsonValue φ}
    (h : ∀ v, oneOf "literal_error" transports (f v) = oneOf "literal_error" transports' v) (ignored : List String)
    (payload : JsonValue φ) :
    ConfigPayload.validateWith S transports ignored (onTransport f payload) =
      ConfigPayload.validateWith S transports' ignored payload := by
  cases payload with
  | dict members =>
    have hconnection := funext (validate_onMember_transport S h)
    simp (disch := decide) only [onTransport, JsonValue.onMember.eq_1, ConfigPayload.validateWith, record,
      onlyFields_adjust, field_adjust, field_adjust_of_ne, hconnection]
  | _ => rfl

theorem validateWith_onVariables (transports : List (String × Transport)) (payload : JsonValue φ) :
    ConfigPayload.validateWith S transports [] (onVariables (fun _ v => v.without "index") payload) =
      ConfigPayload.validateWith S transports ["index"] payload := by
  cases payload with
  | dict members =>
    have hvars : (fun v => listOf (ConfigVar.validate S []) (JsonValue.onItems (fun _ v => v.without "index") v)) =
        listOf (ConfigVar.validate S ["index"]) := by
      funext v
      exact listOf_onItems (fun _ v => validate_without_index S v) v
    simp (disch := decide) only [onVariables, JsonValue.onMember, ConfigPayload.validateWith, record,
      onlyFields_adjust, field_adjust, field_adjust_of_ne, hvars]
  | _ => rfl

theorem oneOf_modbusAsTcp (v : JsonValue φ) :
    oneOf "literal_error" transportLabels (modbusAsTcp v) =
      oneOf "literal_error" (("modbus", Transport.modbusTcp) :: transportLabels) v := by
  refine oneOf_relabel (fun v hv => ?_) (fun s => ?_) v
  · cases v with
    | str s => exact absurd rfl (hv s)
    | _ => rfl
  · by_cases hs : s = "modbus"
    · subst hs
      exact ⟨"modbus_tcp", rfl, rfl⟩
    · exact ⟨s, by simp [modbusAsTcp, hs], by rw [Dict.lookup, if_neg (Ne.symm hs)]⟩

/-- The upgraded payload is read as the tolerant model reads the payload. -/
theorem modelValidate_upgraded (payload : JsonValue φ) :
    ConfigPayload.modelValidate S (upgraded payload) = ConfigPayload.tolerant S payload := by
  rw [ConfigPayload.modelValidate, upgraded, validateWith_onVariables, validateWith_onTransport S oneOf_modbusAsTcp]
  rfl

/-! ## Tables of payloads -/

/-- The transport is not a list or a dictionary, which have no hash. -/
def HashableTransport (payload : JsonValue φ) : Prop :=
  (∀ items, transport? payload ≠ some (.list items)) ∧ ∀ members, transport? payload ≠ some (.dict members)

theorem rewrites_of_hashable (transportMap : Dict String String) {payload : JsonValue φ}
    (h : HashableTransport payload) :
    Rewrites (remapPayload transportMap) payload (onTransport (relabel transportMap) payload) := by
  cases htransport : transport? payload with
  | none =>
    refine remapPayload_rewrites transportMap (fun transport hsome => ?_)
    rw [htransport] at hsome
    cases hsome
  | some transport =>
    obtain ⟨members, conn, rfl, hconnection, hlookup⟩ := dicts_of_transport htransport
    have hskip : lookupTransport transportMap (some transport) = .ok none → relabel transportMap transport = transport →
        Rewrites (remapPayload transportMap) (.dict members) (onTransport (relabel transportMap) (.dict members)) := by
      intro hnone hsame
      refine .of_skip (by simp [remapPayload, hconnection, hlookup, hnone]) (onTransport_eq_self ?_)
      intro transport' hsome
      rw [htransport, Option.some.injEq] at hsome
      rw [← hsome, hsame]
    cases transport with
    | str s =>
      refine remapPayload_rewrites transportMap (fun transport' hsome => ⟨s, ?_⟩)
      rw [htransport, Option.some.injEq] at hsome
      exact hsome.symm
    | list items => exact absurd htransport (h.1 items)
    | dict inner => exact absurd htransport (h.2 inner)
    | _ => exact hskip rfl rfl

theorem remapPayload_unhashable (transportMap : Dict String String) {payload : JsonValue φ}
    (h : ¬ HashableTransport payload) : remapPayload transportMap payload = .error .typeError := by
  cases htransport : transport? payload with
  | none => exact absurd (by simp [HashableTransport, htransport]) h
  | some transport =>
    obtain ⟨members, conn, rfl, hconnection, hlookup⟩ := dicts_of_transport htransport
    cases transport with
    | list items => simp [remapPayload, hconnection, hlookup, lookupTransport]
    | dict inner => simp [remapPayload, hconnection, hlookup, lookupTransport]
    | _ => exact absurd (by simp [HashableTransport, htransport]) h

theorem rewriteRows_error {rewrite : JsonValue φ → Except PyError (Option (JsonValue φ))} {e : PyError}
    {rows : List (ℤ × JsonValue φ)} {row : ℤ × JsonValue φ} (hrow : row ∈ rows) (h : rewrite row.2 = .error e)
    (table : Dict ℤ (ConfigRow φ ρ)) : ∃ e', rewriteRows rewrite rows table = .error e' := by
  induction rows generalizing table with
  | nil => cases hrow
  | cons first rest ih =>
    rw [rewriteRows]
    cases hfirst : rewrite first.2 with
    | error e' => exact ⟨e', rfl⟩
    | ok stored =>
      have hrest : row ∈ rest := by
        refine (List.mem_cons.mp hrow).resolve_left (fun he => ?_)
        rw [he, hfirst] at h
        cases h
      cases stored with
      | none => exact ih hrest table
      | some payload => exact ih hrest _

/-- The upgrade goes through exactly when every transport has a hash, and then every payload is upgraded. -/
theorem upgradeBoth_iff {table table' : Dict ℤ (ConfigRow φ ρ)} :
    upgradeBoth table = .ok table' ↔
      (∀ row ∈ table.values, HashableTransport row.payload) ∧ table' = table.map (ConfigRow.onPayload upgraded) := by
  have hok : (∀ row ∈ table.values, HashableTransport row.payload) →
      upgradeBoth table = .ok (table.map (ConfigRow.onPayload upgraded)) := by
    intro h
    have hremap : NormalizeModbusTransport.upgrade table =
        .ok (table.map (ConfigRow.onPayload (onTransport modbusAsTcp))) := by
      rw [NormalizeModbusTransport.upgrade, remapTransport,
        rewriteRows_select (fun row hrow => rewrites_of_hashable _ (h row hrow)), relabel_upgrade]
    rw [upgradeBoth, hremap]
    show DropVariableIndex.upgrade _ = _
    rw [DropVariableIndex.upgrade_eq, map_onPayload_onPayload]
    rfl
  constructor
  · intro hrun
    have hall : ∀ row ∈ table.values, HashableTransport row.payload := by
      intro row hrow
      by_contra hnot
      obtain ⟨e, he, rfl⟩ := List.mem_map.mp hrow
      have hselected : (e.1, e.2.payload) ∈ selectPayloads table := List.mem_map.mpr ⟨e, he, rfl⟩
      obtain ⟨e', herror⟩ := rewriteRows_error (e := .typeError) hselected (remapPayload_unhashable _ hnot) table
      rw [upgradeBoth, NormalizeModbusTransport.upgrade, remapTransport, herror] at hrun
      cases hrun
    rw [hok hall] at hrun
    exact ⟨hall, (Except.ok.inj hrun).symm⟩
  · rintro ⟨hall, rfl⟩
    exact hok hall

/-! ## Payloads that the models have dumped -/

theorem transport?_modelDump (p : ConfigPayload) :
    transport? (p.modelDump excludeNone : JsonValue φ) = some (.str p.connection.transport.text) := by
  have hpayload : ((p.members excludeNone : List (String × JsonValue φ)).map Prod.fst).Nodup := by
    show (ConfigPayload.fieldNames).Nodup
    decide
  have hconnection : ((p.connection.members excludeNone : List (String × JsonValue φ)).map Prod.fst).Nodup := by
    show (ConnectionSettings.fieldNames).Nodup
    decide
  rw [transport?, ConfigPayload.modelDump, JsonValue.member?, lookup_written hpayload rfl rfl, Option.bind_some,
    ConnectionSettings.modelDump, JsonValue.member?, lookup_written hconnection rfl rfl]

theorem noIndex_modelDump (p : ConfigPayload) : NoIndex (p.modelDump excludeNone : JsonValue φ) := by
  have hpayload : ((p.members excludeNone : List (String × JsonValue φ)).map Prod.fst).Nodup := by
    show (ConfigPayload.fieldNames).Nodup
    decide
  intro items hitems item hitem
  rw [ConfigPayload.modelDump, JsonValue.member?, lookup_written hpayload rfl rfl] at hitems
  cases hitems
  obtain ⟨v, -, rfl⟩ := List.mem_map.mp hitem
  exact lookup_written_of_absent (show "index" ∉ ConfigVar.fieldNames by decide)

/-- The Modbus transport that is left after the revisions have been taken back and made again. -/
def tcpOnly : Transport → Transport
  | .modbusUdp => .modbusTcp
  | t => t

theorem oneOf_udpAsTcp (v : JsonValue φ) :
    oneOf "literal_error" transportLabels (udpAsTcp v) =
      oneOf "literal_error" (("modbus_udp", Transport.modbusTcp) :: transportLabels) v := by
  refine oneOf_relabel (fun v hv => ?_) (fun s => ?_) v
  · cases v with
    | str s => exact absurd rfl (hv s)
    | _ => rfl
  · by_cases hs : s = "modbus_udp"
    · subst hs
      exact ⟨"modbus_tcp", rfl, rfl⟩
    · exact ⟨s, by simp [udpAsTcp, hs], by rw [Dict.lookup, if_neg (Ne.symm hs)]⟩

theorem modelValidate_restored (p : ConfigPayload) :
    ConfigPayload.modelValidate S (upgraded (downgraded (p.modelDump excludeNone)) : JsonValue φ) =
      .ok { p with connection := { p.connection with transport := tcpOnly p.connection.transport } } := by
  have hmodbus : transport? (p.modelDump excludeNone : JsonValue φ) ≠ some (.str "modbus") := by
    rw [transport?_modelDump]
    cases p.connection.transport <;> simp [Transport.text]
  have htexts : ∀ t : Transport,
      Dict.lookup t.text (("modbus_udp", Transport.modbusTcp) :: transportLabels) = some (tcpOnly t) := by
    intro t
    cases t <;> rfl
  rw [upgraded_downgraded (noIndex_modelDump excludeNone p) hmodbus, ConfigPayload.modelValidate,
    validateWith_onTransport S oneOf_udpAsTcp, ConfigPayload.validateWith_modelDump S excludeNone htexts]

end Migrations

/-! ## What becomes of a stored payload -/

theorem modelValidate_modelDump (p : ConfigPayload) :
    ConfigPayload.modelValidate S (p.modelDump excludeNone : JsonValue φ) = .ok p :=
  ConfigPayload.validateWith_modelDump S excludeNone lookup_transport [] p

theorem tolerant_modelDump (p : ConfigPayload) : ConfigPayload.tolerant S (p.modelDump excludeNone : JsonValue φ) = .ok p := by
  refine ConfigPayload.validateWith_modelDump S excludeNone (g := id) (fun t => ?_) ["index"] p
  cases t <;> rfl

open Migrations in
/-- What is dumped is read back, with the members that are none or without them. The upgrades go through unless a
transport has no hash; they keep every other column, and every payload, whatever its shape, is read as the tolerant model reads it before
them, with the same complaints. After a downgrade and an upgrade a dumped payload has its transport in TCP. -/
theorem payloads_keep_meaning (table : Dict ℤ (ConfigRow φ ρ)) :
    (∀ excludeNone (p : ConfigPayload), ConfigPayload.modelValidate S (p.modelDump excludeNone) = .ok p ∧
      ConfigPayload.tolerant S (p.modelDump excludeNone) = .ok p) ∧
    ((∃ table', upgradeBoth table = .ok table') ↔ ∀ row ∈ table.values, HashableTransport row.payload) ∧
    (∀ table', upgradeBoth table = .ok table' → table'.keys = table.keys ∧
      ∀ id row', table'.get? id = some row' → ∃ row, table.get? id = some row ∧ row'.others = row.others ∧
        ConfigPayload.modelValidate S row'.payload = ConfigPayload.tolerant S row.payload) ∧
    ((∀ row ∈ table.values, ∃ (excludeNone : Bool) (p : ConfigPayload), row.payload = p.modelDump excludeNone) →
      ∃ table', (downgradeBoth table >>= upgradeBoth) = .ok table' ∧ table'.keys = table.keys ∧
        ∀ id row', table'.get? id = some row' → ∃ row, ∃ (excludeNone : Bool) (p : ConfigPayload), table.get? id = some row ∧
          row'.others = row.others ∧ row.payload = p.modelDump excludeNone ∧
          ConfigPayload.modelValidate S row'.payload =
            .ok { p with connection := { p.connection with transport := tcpOnly p.connection.transport } }) := by
  have hkeys : ∀ f : JsonValue φ → JsonValue φ, (table.map (ConfigRow.onPayload f)).keys = table.keys := by
    intro f
    show (List.map _ _).map _ = _
    rw [List.map_map]
    rfl
  have hrow : ∀ {f : JsonValue φ → JsonValue φ} {id : ℤ} {row' : ConfigRow φ ρ},
      (table.map (ConfigRow.onPayload f)).get? id = some row' →
        ∃ row, table.get? id = some row ∧ row.onPayload f = row' := by
    intro f id row' h
    rw [Dict.get?_map] at h
    exact Option.map_eq_some_iff.mp h
  refine ⟨fun excludeNone p => ⟨modelValidate_modelDump S excludeNone p, tolerant_modelDump S excludeNone p⟩,
    ⟨fun ⟨_, h⟩ => (upgradeBoth_iff.mp h).1, fun h => ⟨_, upgradeBoth_iff.mpr ⟨h, rfl⟩⟩⟩, fun table' h => ?_, fun h => ?_⟩
  · obtain ⟨-, rfl⟩ := upgradeBoth_iff.mp h
    refine ⟨hkeys _, fun id row' hrow' => ?_⟩
    obtain ⟨row, hget, rfl⟩ := hrow hrow'
    exact ⟨row, hget, rfl, modelValidate_upgraded S row.payload⟩
  · have htext : ∀ row ∈ table.values, TextTransport row.payload := by
      intro row hmem transport htransport
      obtain ⟨excludeNone, p, hp⟩ := h row hmem
      rw [hp, transport?_modelDump] at htransport
      exact ⟨_, (Option.some.inj htransport).symm⟩
    refine ⟨_, downgradeBoth_upgradeBoth htext, hkeys _, fun id row' hrow' => ?_⟩
    obtain ⟨row, hget, rfl⟩ := hrow hrow'
    obtain ⟨excludeNone, p, hp⟩ := h row (Dict.mem_values.mpr ⟨id, hget⟩)
    refine ⟨row, excludeNone, p, hget, rfl, hp, ?_⟩
    show ConfigPayload.modelValidate S (upgraded (downgraded row.payload)) = _
    rw [hp, modelValidate_restored]

/-- A validator that converts nothing. -/
def Scalars.strict : Scalars φ where
  int
    | .int n => .ok n
    | _ => .wrong [⟨[], "int_type"⟩]
  bool
    | .bool b => .ok b
    | _ => .wrong [⟨[], "bool_type"⟩]
  int_int _ := rfl
  bool_bool _ := rfl

-- A payload that the upgrades are for, and what the models of today say to it.
example : ConfigPayload.tolerant Scalars.strict (.dict [("connection", .dict [("transport", .str "modbus")]),
      ("variables", .list [.dict [("index", .int 0), ("name", .str "a"), ("ctype", .str "bit")]])] : JsonValue Unit) =
    .ok ⟨{ transport := .modbusTcp }, [⟨"a", .BIT, false, ""⟩]⟩ := rfl

example : ConfigPayload.modelValidate Scalars.strict (.dict [("connection", .dict [("transport", .str "modbus")]),
      ("variables", .list [.dict [("index", .int 0), ("name", .str "a"), ("ctype", .str "bit")]])] : JsonValue Unit) =
    .wrong [⟨[.key "connection", .key "transport"], "literal_error"⟩,
      ⟨[.key "variables", .item 0, .key "index"], "extra_forbidden"⟩] := rfl

end Tstlan
