import Tstlan.Models
import Tstlan.Foundations.PyNumber

/-! # Devices, the coercion of written values and the fitting of samples (`tstlan/devices/models.py`) -/
namespace Tstlan
open Foundations
set_option autoImplicit false

inductive DeviceStatus
  | OK | OFFLINE | ERROR
  deriving DecidableEq, Repr

structure Device where
  id : String
  name : String
  type : String
  enabled : Bool
  status : DeviceStatus
  vars : List NetVar
  deriving DecidableEq

/-- The three refusals of `coerce_value`. -/
inductive ValueValidationError
  | boolean (ctype : NetVarCType)
  | fractional (ctype : NetVarCType) (value : Binary.Double)
  | outOfRange (value : ℤ) (ctype : NetVarCType) (low high : ℤ)
  deriving DecidableEq

/-- The value of the enumeration's member, which is its text. -/
def NetVarCType.text : NetVarCType → String
  | .BIT => "bit"
  | .U8 => "u8"
  | .I8 => "i8"
  | .U16 => "u16"
  | .I16 => "i16"
  | .U32 => "u32"
  | .I32 => "i32"
  | .U64 => "u64"
  | .I64 => "i64"
  | .F32 => "f32"
  | .F64 => "f64"

/-- The text of the error; `repr` is the language's own rendering of a double. -/
def ValueValidationError.text (repr : Binary.Double → String) : ValueValidationError → String
  | .boolean c => c.text ++ " не принимает логическое значение"
  | .fractional c x => c.text ++ " требует целое значение, получено " ++ repr x
  | .outOfRange n c low high =>
    toString n ++ " вне диапазона " ++ c.text ++ " [" ++ toString low ++ ", " ++ toString high ++ "]"

/-- Exceptions raised by the device service. -/
inductive DeviceError
  | deviceNotFound (deviceId : String)
  | variableNotFound (name : String)
  | variableAccess (name : String)
  | valueValidation (e : ValueValidationError)
  | python (e : PyError)
  deriving DecidableEq

/-- `_INT_RANGES`: the floating-point types have no entry. -/
def intRange : NetVarCType → Option (ℤ × ℤ)
  | .BIT => some (0, 1)
  | .U8 => some (0, 0xFF)
  | .I8 => some (-0x80, 0x7F)
  | .U16 => some (0, 0xFFFF)
  | .I16 => some (-0x8000, 0x7FFF)
  | .U32 => some (0, 0xFFFFFFFF)
  | .I32 => some (-0x80000000, 0x7FFFFFFF)
  | .U64 => some (0, 0xFFFFFFFFFFFFFFFF)
  | .I64 => some (-0x8000000000000000, 0x7FFFFFFFFFFFFFFF)
  | .F32 => none
  | .F64 => none

def floatTypes : List NetVarCType := [.F32, .F64]

def coerceValue (ctype : NetVarCType) (value : Number) : Except DeviceError Number :=
  match value with
  | .bool _ => .error (.valueValidation (.boolean ctype))
  | value =>
    if ctype ∈ floatTypes then
      match value.toDouble with
      | .ok x => .ok (.float x)
      | .error e => .error (.python e)
    else
      match value, intRange ctype with
      | .int n, some (low, high) =>
        if low ≤ n ∧ n ≤ high then .ok (.int n)
        else .error (.valueValidation (.outOfRange n ctype low high))
      | .int _, none => .error (.python .keyError)
      | .float x, _ => .error (.valueValidation (.fractional ctype x))
      | .bool _, _ => .error (.valueValidation (.boolean ctype))

/-- A sample as a value of the C type: integers are rounded and clamped. -/
def fitValue {R : Type} (P : Platform R) (ctype : NetVarCType) (value : PyValue) : Except PyError Number :=
  if ctype ∈ floatTypes then do
    let x ← value.toFloat P
    return .float x
  else
    match intRange ctype with
    | none => .error .keyError
    | some (low, high) => do
      let x ← value.operand
      let n ← x.round
      return .int (max low (min high n))

end Tstlan
