import Tstlan.Foundations.Binary

/-! # Arithmetic of the doubles

A finite double is an integral multiple of the smallest positive one, `2 ^ -1074`; counted in these units, sums,
products, quotients and remainders are exact fractions, and `nearest` is the one rounding step, to nearest with
ties to even. The payload and the sign of a NaN are not modelled: the result is the quiet NaN. -/
namespace Foundations.Binary
set_option autoImplicit false

/-- The magnitude pattern of the infinities. -/
def infinity : ℕ := 2047 * 2 ^ 52

/-- `n / d` rounded to the nearest integer, ties to even. -/
def roundQuotient (n d : ℕ) : ℕ :=
  if 2 * (n % d) < d then n / d
  else if d < 2 * (n % d) then n / d + 1
  else n / d + n / d % 2

/-- The magnitude pattern nearest to `n / d` units. -/
def nearest (n d : ℕ) : ℕ :=
  -- the significand has 53 bits, fewer below the normal range
  let shift := Nat.log2 (n / d) - 52
  min (shift * 2 ^ 52 + roundQuotient n (d * 2 ^ shift)) infinity

namespace Double

def nan : Double := double 0 (infinity + 2 ^ 51)

def isNaN (x : Double) : Bool := infinity < x.magnitude
def isInf (x : Double) : Bool := x.magnitude = infinity
def isFinite (x : Double) : Bool := x.magnitude < infinity
def isZero (x : Double) : Bool := x.magnitude = 0

/-- The magnitude of a finite double in units. -/
def units (x : Double) : ℕ :=
  let e := x.magnitude / 2 ^ 52
  let f := x.magnitude % 2 ^ 52
  if e = 0 then f else (2 ^ 52 + f) * 2 ^ (e - 1)

/-- A finite double in units. -/
def scaled (x : Double) : ℤ := if x.sign = 0 then x.units else -x.units

/-! ## The operations -/

def neg (x : Double) : Double := double (1 - x.sign) x.magnitude

def add (x y : Double) : Double :=
  if x.isNaN || y.isNaN then nan
  else if x.isInf then if y.isInf && x.sign ≠ y.sign then nan else x
  else if y.isInf then y
  else
    let n := x.scaled + y.scaled
    -- a zero is negative only as the sum of two negative ones
    if n = 0 then double (min x.sign y.sign) 0
    else double (if n < 0 then 1 else 0) (nearest n.natAbs 1)

def sub (x y : Double) : Double := add x (neg y)

def mul (x y : Double) : Double :=
  let s := (x.sign + y.sign) % 2
  if x.isNaN || y.isNaN then nan
  else if x.isInf || y.isInf then if x.isZero || y.isZero then nan else double s infinity
  else double s (nearest (x.units * y.units) (2 ^ 1074))

def div (x y : Double) : Double :=
  let s := (x.sign + y.sign) % 2
  if x.isNaN || y.isNaN || x.isInf && y.isInf || x.isZero && y.isZero then nan
  else if x.isInf || y.isZero then double s infinity
  else if y.isInf then double s 0
  else double s (nearest (x.units * 2 ^ 1074) y.units)

/-- `fmod`: the exact remainder, with the sign of the dividend. -/
def remainder (x y : Double) : Double :=
  if x.isNaN || y.isNaN || x.isInf || y.isZero then nan
  else if y.isInf then x
  else double x.sign (nearest (x.units % y.units) 1)

/-- The remainder with the sign of the divisor. -/
def mod (x y : Double) : Double :=
  let r := remainder x y
  if r.isZero then double y.sign 0
  else if r.sign = y.sign then r
  else add r y

/-- The nearest integer of a finite double, ties to even. -/
def round (x : Double) : ℤ :=
  let n := roundQuotient x.units (2 ^ 1074)
  if x.sign = 0 then n else -n

/-- Where a double lies among the finite values and the infinities, in lexicographic order; a NaN nowhere. -/
def position (x : Double) : Option (ℤ × ℤ) :=
  if x.isNaN then none
  else if x.isInf then some (if x.sign = 0 then 1 else -1, 0)
  else some (0, x.scaled)

/-- `0.1 + 0.2` is not `0.3`. -/
example : add 0x3FB999999999999A 0x3FC999999999999A = 0x3FD3333333333334 := by decide +kernel

/-- `-1.5 % 1.0` has the sign of the divisor. -/
example : mod 0xBFF8000000000000 0x3FF0000000000000 = 0x3FE0000000000000 := by decide +kernel

end Double
end Foundations.Binary
