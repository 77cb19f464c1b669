import Mathlib.Data.Nat.Notation

/-! Password hashes (`tstlan/auth/passwords.py`), over the hasher of the argon2 package. -/
namespace Tstlan
set_option autoImplicit false

inductive VerifyError
  | verifyMismatch | invalidHash
  deriving DecidableEq, Repr

/-- The package's hasher: a salted hash, and the check of a password against one. -/
structure PasswordHasher where
  hash (salt password : String) : String
  verify (hash password : String) : Except VerifyError Bool

def hashPassword (hasher : PasswordHasher) (salt password : String) : String := hasher.hash salt password

def verifyPassword (hasher : PasswordHasher) (passwordHash password : String) : Except VerifyError Bool :=
  match hasher.verify passwordHash password with
  | .error .verifyMismatch => .ok false
  | result => result

end Tstlan
