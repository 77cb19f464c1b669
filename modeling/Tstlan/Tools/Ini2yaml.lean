import Tstlan.Configs.Schemas
import Tstlan.Devices.Models
import Tstlan.Foundations.PyText

/-! # The converter of legacy files (`tstlan/tools/ini2yaml.py`)

What the parser of the file gives is a mapping of lower-cased keys to texts for each section. The keys of a section
are `keyN` with `valueN` for the connection, and `name_N`, `type_N`, `graph_N`, `category_N` for the variables. -/
namespace Tstlan
open Foundations PyText
set_option autoImplicit false

abbrev Section := Dict String String

/-- `section.get(key, fallback)`, as the characters of the text. -/
def Section.text (sec : Section) (key fallback : String) : List Char := ((sec.get? key).getD fallback).toList

/-- The key of a row: the prefix and the text of the number. -/
def rowKey (pre : String) (suffix : List Char) : String := pre ++ String.ofList suffix

namespace Ini2yaml
variable (U : Unicode)

def mapTransport (raw : List Char) : Transport :=
  let value := U.lower raw
  if contains value "modbus".toList then
    if contains value "udp".toList then .modbusUdp else .modbusTcp
  else if contains value "gpib".toList then .gpib
  else if contains value "com".toList then .com
  else .ethernet

/-- `NetVarCType(value)`. -/
def ctypeOfText (value : List Char) : Except PyError NetVarCType :=
  match [NetVarCType.BIT, .U8, .I8, .U16, .I16, .U32, .I32, .U64, .I64, .F32, .F64].find?
      (fun c => c.text.toList = value) with
  | some c => .ok c
  | none => .error .valueError

/-- `_TYPE_ALIASES`. -/
def typeAlias (value : List Char) : List Char :=
  if value = "float".toList then "f32".toList
  else if value = "double".toList then "f64".toList
  else value

def mapCtype (raw : List Char) : Except PyError NetVarCType := ctypeOfText (typeAlias (U.lower (strip raw)))

def asInt (value : List Char) : Option ℤ := (int U (strip value)).toOption

/-! ## The connection -/

/-- The objects that the loop over the pairs fills. -/
structure DeviceParams where
  conn : ConnectionSettings
  modbus : ModbusMap := {}
  params : Dict String String := Dict.empty

def applyDeviceParam (label value : List Char) (d : DeviceParams) : DeviceParams :=
  let text := U.lower label
  let number := asInt U value
  if contains text "запрос".toList ∧ contains text "ip".toList then
    { d with conn := { d.conn with ipRequest := some (String.ofList value) } }
  else if text = "ip".toList ∨ contains text "ip адрес".toList ∨
      contains text "ip".toList ∧ contains text "адрес".toList then
    { d with conn := { d.conn with ip := some (String.ofList value) } }
  else if contains text "порт".toList ∨ text = "port".toList then
    { d with conn := { d.conn with port := number } }
  else if contains text "обновлен".toList ∨ contains text "измерен".toList then
    match number with
    | some n => { d with conn := { d.conn with pollPeriodMs := n } }
    | none => d
  else if contains text "discret".toList then
    { d with modbus := { d.modbus with discreteInputsBytes := number.getD 0 } }
  else if contains text "coils".toList then
    { d with modbus := { d.modbus with coilsBytes := number.getD 0 } }
  else if contains text "holding".toList then
    { d with modbus := { d.modbus with holdingRegisters := number.getD 0 } }
  else if contains text "input registers".toList then
    { d with modbus := { d.modbus with inputRegisters := number.getD 0 } }
  else if contains text "gpib".toList then
    { d with conn := { d.conn with gpibAddr := number } }
  else if contains text "com name".toList ∨ text = "com".toList then
    { d with conn := { d.conn with comName := some (String.ofList value) } }
  else { d with params := d.params.set (String.ofList label) (String.ofList value) }

/-- The indices of the loop `while f"key{index}" in device`; each turn finds another key, so there are no more turns
than keys. -/
def pairIndices (device : Section) : List ℕ :=
  (List.range' 1 device.entries.length).takeWhile
    (fun index => (device.get? (rowKey "key" (Nat.toDigits 10 index))).isSome)

def pairLabel (device : Section) (index : ℕ) : List Char :=
  strip (device.text (rowKey "key" (Nat.toDigits 10 index)) "")

def pairValue (device : Section) (index : ℕ) : List Char :=
  strip (device.text (rowKey "value" (Nat.toDigits 10 index)) "")

/-- One turn of the loop. -/
def applyPair (device : Section) (d : DeviceParams) (index : ℕ) : DeviceParams :=
  if pairLabel device index ≠ [] then applyDeviceParam U (pairLabel device index) (pairValue device index) d else d

/-- `transport.startswith("modbus")`. -/
def startsWithModbus : Transport → Bool
  | .ethernet => false
  | .gpib => false
  | .com => false
  | .modbusTcp => true
  | .modbusUdp => true

def parseConnection (device : Section) : ConnectionSettings :=
  let start : DeviceParams := { conn := { transport := mapTransport U (device.text "type" "") } }
  let d := (pairIndices device).foldl (applyPair U device) start
  { d.conn with
    modbus := if startsWithModbus d.conn.transport ∨ d.modbus ≠ {} then some d.modbus else none
    params := d.params }

/-! ## The variables -/

/-- `re.fullmatch(r"name_(\d+)", key)`, the group. -/
def nameSuffix (key : String) : Option (List Char) :=
  match key.toList with
  | 'n' :: 'a' :: 'm' :: 'e' :: '_' :: ds => if ds ≠ [] ∧ ds.all (isDecimal U) then some ds else none
  | _ => none

/-- The variable of the row with this suffix, none if its name is blank. -/
def rowAt (sec : Section) (suffix : List Char) : Except PyError (Option ConfigVar) :=
  let name := strip (sec.text (rowKey "name_" suffix) "")
  if name = [] then return none
  else do
    let ctype ← mapCtype U (sec.text (rowKey "type_" suffix) "")
    let graph := strip (sec.text (rowKey "graph_" suffix) "0")
    return some
      { name := String.ofList name
        ctype := ctype
        graph := graph = "1".toList ∨ graph = "true".toList
        category := String.ofList (strip (sec.text (rowKey "category_" suffix) "")) }

def rowIndices : List (List Char) → Except PyError (List ℕ)
  | [] => return []
  | suffix :: rest => do
    let index ← intOfDigits U suffix
    let indices ← rowIndices rest
    return index :: indices

/-- The loop over the sorted indices, each variable with its index. -/
def variablesAt (sec : Section) : List ℕ → Except PyError (List (ℕ × ConfigVar))
  | [] => return []
  | index :: rest => do
    let row ← rowAt U sec (Nat.toDigits 10 index)
    let vars ← variablesAt sec rest
    match row with
    | none => return vars
    | some var => return (index, var) :: vars

def indexedVariables (sec : Section) : Except PyError (List (ℕ × ConfigVar)) := do
  let indices ← rowIndices U (sec.keys.filterMap (nameSuffix U))
  variablesAt U sec (indices.mergeSort (fun a b => a ≤ b))

def parseVariables (sec : Section) : Except PyError (List ConfigVar) := do
  let vars ← indexedVariables U sec
  return vars.map Prod.snd

/-! ## The conversion -/

/-- The sections of a file that the converter looks at. -/
structure IniFile where
  device : Option Section
  vars : Option Section

/-- The result of `convert`; a field of the payload that is none is left out of its dump. -/
structure Converted where
  name : String
  deviceType : String
  payload : ConfigPayload

def convert (file : IniFile) (name : String) : Except PyError Converted := do
  match file.device with
  | none => throw .keyError
  | some device =>
    let connection := parseConnection U device
    let vars ← match file.vars with
      | none => pure []
      | some sec => parseVariables U sec
    return ⟨name, name, ⟨connection, vars⟩⟩

end Ini2yaml
end Tstlan
