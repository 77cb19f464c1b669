import Mathlib.Data.Int.Notation

/-! Users and sessions (`tstlan/auth/models.py`). Times are microseconds. -/
namespace Tstlan
set_option autoImplicit false

inductive Role
  | ADMIN | DEV | USER
  deriving DecidableEq, Repr

abbrev Time := ℤ

structure User where
  id : ℤ
  login : String
  passwordHash : String
  role : Role
  isActive : Bool := true
  deriving DecidableEq

structure Session where
  token : String
  userId : ℤ
  csrfToken : String
  expiresAt : Time
  deriving DecidableEq

end Tstlan
