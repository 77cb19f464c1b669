import Tstlan.Configs.Models
import Tstlan.Configs.Schemas
import Tstlan.Foundations.Js

/-! # The config form (`web/tstlan-web/lib/configs.ts`)

The payload of the frontend mirrors the backend's, with Numbers in place of integers. The addresses have
the shape of the backend's addresses and are taken as exact integers. -/
namespace Tstlan.Web
open Foundations
set_option autoImplicit false

/-! ## The types of `lib/api.ts` -/

@[ext] structure ModbusMap where
  discreteInputsBytes : Js.Number
  coilsBytes : Js.Number
  holdingRegisters : Js.Number
  inputRegisters : Js.Number
  deriving DecidableEq

@[ext] structure ConnectionSettings where
  transport : Transport
  ip : Option String
  port : Option Js.Number
  gpibAddr : Option Js.Number
  comName : Option String
  ipRequest : Option String
  pollPeriodMs : Js.Number
  modbus : Option ModbusMap
  params : Dict String String
  deriving DecidableEq

@[ext] structure ConfigPayload where
  connection : ConnectionSettings
  vars : List ConfigVar
  deriving DecidableEq

/-- What the form reads of a config. -/
structure ConfigDetail where
  name : String
  deviceType : String
  visibility : ConfigVisibility
  payload : ConfigPayload
  deriving DecidableEq

/-! ## Addresses -/

structure VariableDraft where
  name : String
  ctype : NetVarCType
  graph : Bool
  category : String
  deriving DecidableEq

/-- `CTYPE_BYTE_SIZE`. -/
def ctypeByteSize : NetVarCType → ℕ
  | .BIT => 1
  | .U8 => 1
  | .I8 => 1
  | .U16 => 2
  | .I16 => 2
  | .U32 => 4
  | .I32 => 4
  | .U64 => 8
  | .I64 => 8
  | .F32 => 4
  | .F64 => 8

/-- The body of the loop. -/
def curOffset (prev : Option (VarOffset × NetVarCType)) (ctype : NetVarCType) : VarOffset :=
  let bit := if ctype = .BIT then some 0 else none
  match prev with
  | none => ⟨0, bit⟩
  | some (prev, prevCtype) =>
    if prevCtype = .BIT ∧ ctype = .BIT then
      if 7 ≤ prev.bit.getD 0 then ⟨prev.byte + 1, some 0⟩ else ⟨prev.byte, some (prev.bit.getD 0 + 1)⟩
    else ⟨prev.byte + ctypeByteSize prevCtype, bit⟩

def offsetsFrom (prev : Option (VarOffset × NetVarCType)) : List VariableDraft → List VarOffset
  | [] => []
  | var :: vars =>
    let cur := curOffset prev var.ctype
    cur :: offsetsFrom (some (cur, var.ctype)) vars

def variableOffsets (vars : List VariableDraft) : List VarOffset := offsetsFrom none vars

/-- The byte, or the byte and the bit. -/
def formatOffset (offset : VarOffset) : String :=
  match offset.bit with
  | none => toString offset.byte
  | some bit => toString offset.byte ++ "-" ++ toString bit

/-! ## The form -/

inductive ModbusField
  | discreteInputsBytes | coilsBytes | holdingRegisters | inputRegisters
  deriving DecidableEq

/-- `MODBUS_FIELDS`. -/
def modbusFields : List ModbusField :=
  [.discreteInputsBytes, .coilsBytes, .holdingRegisters, .inputRegisters]

def PORT_MIN : ℤ := 1
def PORT_MAX : ℤ := 65535
def GPIB_MIN : ℤ := 0
def GPIB_MAX : ℤ := 30
def NAME_MAX : ℕ := 128
def DEVICE_TYPE_MAX : ℕ := 64

def isModbus (transport : Transport) : Bool := transport = .modbusTcp ∨ transport = .modbusUdp

def needsNetwork (transport : Transport) : Bool := transport = .ethernet ∨ isModbus transport

structure ConfigFormDraft where
  name : String
  deviceType : String
  visibility : ConfigVisibility
  transport : Transport
  ip : String
  port : String
  gpibAddr : String
  comName : String
  ipRequest : String
  pollPeriodMs : String
  discreteInputsBytes : String
  coilsBytes : String
  holdingRegisters : String
  inputRegisters : String
  params : Dict String String
  vars : List VariableDraft
  deriving DecidableEq

/-- `draft[field.key]`. -/
def ConfigFormDraft.count (draft : ConfigFormDraft) : ModbusField → String
  | .discreteInputsBytes => draft.discreteInputsBytes
  | .coilsBytes => draft.coilsBytes
  | .holdingRegisters => draft.holdingRegisters
  | .inputRegisters => draft.inputRegisters

structure ConfigFieldErrors where
  name : Option String := none
  deviceType : Option String := none
  ip : Option String := none
  port : Option String := none
  gpibAddr : Option String := none
  comName : Option String := none
  pollPeriodMs : Option String := none
  modbus : Option (List (ModbusField × String)) := none
  vars : Option (List (ℕ × String)) := none
  deriving DecidableEq

def parseIntStrict (raw : String) : Option Js.Number := Js.numberOf (Js.trimChars raw.toList)

/-- An empty count is zero. -/
def parseCount (raw : String) : Option Js.Number :=
  if Js.trim raw = "" then some (Js.Number.ofInt 0)
  else
    match parseIntStrict raw with
    | none => none
    | some value => if value.lt 0 then none else some value

/-- Not given, or outside `low..high`. -/
def outside (low high : ℤ) : Option Js.Number → Bool
  | none => true
  | some value => value.lt low || value.gt high

/-- A text that must be given and has a largest length. -/
def checkText (raw missing : String) (max : ℕ) : Option String :=
  if Js.trim raw = "" then some missing
  else if max < Js.length (Js.trim raw) then some ("не длиннее " ++ toString max ++ " символов")
  else none

/-- `validateVariables`, from a position on and with the names seen before it. -/
def validateVariablesFrom (position : ℕ) (seen : List String) : List VariableDraft → List (ℕ × String)
  | [] => []
  | var :: vars =>
    let name := Js.trim var.name
    let rest := validateVariablesFrom (position + 1) (name :: seen) vars
    if name = "" then (position, "укажите имя") :: rest
    else if name ∈ seen then (position, "имя повторяется") :: rest
    else rest

def validateVariables (vars : List VariableDraft) : List (ℕ × String) := validateVariablesFrom 0 [] vars

/-- Errors are reported only where there are some. -/
def someErrors {α : Type} (errors : List α) : Option (List α) := if errors.isEmpty then none else some errors

def validateConfigForm (draft : ConfigFormDraft) : ConfigFieldErrors where
  name := checkText draft.name "укажите название" NAME_MAX
  deviceType := checkText draft.deviceType "укажите тип прибора" DEVICE_TYPE_MAX
  ip := if needsNetwork draft.transport ∧ Js.trim draft.ip = "" then some "укажите IP-адрес" else none
  port :=
    if needsNetwork draft.transport ∧ outside PORT_MIN PORT_MAX (parseIntStrict draft.port) then
      some ("порт " ++ toString PORT_MIN ++ "-" ++ toString PORT_MAX)
    else none
  gpibAddr :=
    if draft.transport = .gpib ∧ outside GPIB_MIN GPIB_MAX (parseIntStrict draft.gpibAddr) then
      some ("адрес GPIB " ++ toString GPIB_MIN ++ "-" ++ toString GPIB_MAX)
    else none
  comName :=
    if draft.transport = .com ∧ Js.trim draft.comName = "" then some "укажите имя COM-порта" else none
  pollPeriodMs :=
    if (parseIntStrict draft.pollPeriodMs).any (fun period => period.gt 0) then none
    else some "период опроса: целое > 0"
  modbus :=
    if isModbus draft.transport then
      someErrors ((modbusFields.filter (fun field => parseCount (draft.count field) = none)).map
        (fun field => (field, "целое >= 0")))
    else none
  vars := someErrors (validateVariables draft.vars)

def hasErrors (errors : ConfigFieldErrors) : Bool := errors ≠ {}

/-- A text that is given, trimmed. -/
def given (raw : String) : Option String := if Js.trim raw ≠ "" then some (Js.trim raw) else none

def VariableDraft.trimmed (var : VariableDraft) : ConfigVar :=
  { name := Js.trim var.name, ctype := var.ctype, graph := var.graph, category := Js.trim var.category }

def draftToPayload (draft : ConfigFormDraft) : ConfigPayload where
  connection := {
    transport := draft.transport
    ip := if needsNetwork draft.transport then given draft.ip else none
    port := if needsNetwork draft.transport then parseIntStrict draft.port else none
    gpibAddr := if draft.transport = .gpib then parseIntStrict draft.gpibAddr else none
    comName := if draft.transport = .com then given draft.comName else none
    ipRequest := given draft.ipRequest
    pollPeriodMs := (parseIntStrict draft.pollPeriodMs).getD (.ofInt 0)
    modbus :=
      if isModbus draft.transport then
        some {
          discreteInputsBytes := (parseCount draft.discreteInputsBytes).getD (.ofInt 0)
          coilsBytes := (parseCount draft.coilsBytes).getD (.ofInt 0)
          holdingRegisters := (parseCount draft.holdingRegisters).getD (.ofInt 0)
          inputRegisters := (parseCount draft.inputRegisters).getD (.ofInt 0) }
      else none
    params := draft.params }
  vars := draft.vars.map VariableDraft.trimmed

/-- `String(x)`. -/
def stringOf (x : Js.Number) : String := String.ofList x.text

def configToDraft (config : ConfigDetail) : ConfigFormDraft :=
  let connection := config.payload.connection
  let modbus := connection.modbus
  { name := config.name
    deviceType := config.deviceType
    visibility := config.visibility
    transport := connection.transport
    ip := connection.ip.getD ""
    port := (connection.port.map stringOf).getD ""
    gpibAddr := (connection.gpibAddr.map stringOf).getD ""
    comName := connection.comName.getD ""
    ipRequest := connection.ipRequest.getD ""
    pollPeriodMs := stringOf connection.pollPeriodMs
    discreteInputsBytes := stringOf ((modbus.map ModbusMap.discreteInputsBytes).getD (.ofInt 0))
    coilsBytes := stringOf ((modbus.map ModbusMap.coilsBytes).getD (.ofInt 0))
    holdingRegisters := stringOf ((modbus.map ModbusMap.holdingRegisters).getD (.ofInt 0))
    inputRegisters := stringOf ((modbus.map ModbusMap.inputRegisters).getD (.ofInt 0))
    params := connection.params
    vars := config.payload.vars.map (fun var => ⟨var.name, var.ctype, var.graph, var.category⟩) }

end Tstlan.Web
