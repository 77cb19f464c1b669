import Tstlan.Foundations.Struct

/-! Variables of a device (`tstlan/models.py`): the C types with their byte sizes, the access modes, and
a variable with its current value. -/
namespace Tstlan
open Foundations
set_option autoImplicit false

inductive NetVarCType
  | BIT | U8 | I8 | U16 | I16 | U32 | I32 | U64 | I64 | F32 | F64
  deriving DecidableEq, Repr

/-- `_C_TYPE_BYTE_SIZE`. -/
def NetVarCType.byteSize : NetVarCType → ℕ
  | .BIT => 1
  | .U8 => 1
  | .I8 => 1
  | .U16 => 2
  | .I16 => 2
  | .U32 => 4
  | .I32 => 4
  | .U64 => 8
  | .I64 => 8
  | .F32 => 4
  | .F64 => 8

theorem NetVarCType.byteSize_pos (c : NetVarCType) : 0 < c.byteSize := by
  cases c <;> decide

inductive NetVarMode
  | R | W | RW
  deriving DecidableEq, Repr

structure NetVar where
  name : String
  ctype : NetVarCType
  mode : NetVarMode
  value : Number := .int 0
  deriving DecidableEq, Repr

end Tstlan
