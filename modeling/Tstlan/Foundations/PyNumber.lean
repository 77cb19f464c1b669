import Mathlib.Data.Prod.Lex
import Tstlan.Foundations.Ieee
import Tstlan.Foundations.Struct

/-! # Arithmetic on run-time values

Two integers are added, subtracted and multiplied exactly; next to a double an integer is converted, which it must
survive. A divisor must not be zero. Values that are not numbers are refused by every operation here but `float`
of a text. -/
namespace Foundations
open Binary (Double)
set_option autoImplicit false

namespace Number

/-- The integer that the number is, a Boolean included. -/
def int? : Number → Option ℤ
  | .int n => some n
  | .bool b => some (if b then 1 else 0)
  | .float _ => none

/-- An operation that is exact on integers and else takes place in the doubles. -/
def arithmetic (onInts : ℤ → ℤ → ℤ) (onDoubles : Double → Double → Double) (a b : Number) : Except PyError Number :=
  match a.int?, b.int? with
  | some m, some n => .ok (.int (onInts m n))
  | _, _ => do
    let x ← a.toDouble
    let y ← b.toDouble
    return .float (onDoubles x y)

def add : Number → Number → Except PyError Number := arithmetic (· + ·) Double.add

def sub : Number → Number → Except PyError Number := arithmetic (· - ·) Double.sub

def mul : Number → Number → Except PyError Number := arithmetic (· * ·) Double.mul

def neg : Number → Number
  | .int n => .int (-n)
  | .bool b => .int (if b then -1 else 0)
  | .float x => .float x.neg

/-- A double divided by the number. -/
def divide (op : Double → Double → Double) (x : Double) (b : Number) : Except PyError Double := do
  let y ← b.toDouble
  if y.isZero then .error .zeroDivisionError else .ok (op x y)

/-- Where the number lies among the numbers, counted in units of the doubles. -/
def position (a : Number) : Option (ℤ × ℤ) :=
  match a.int?, a with
  | some n, _ => some (0, n * 2 ^ 1074)
  | none, .float x => x.position
  | none, _ => none

/-- The exact comparison; a NaN is less than nothing and greater than nothing. -/
def lt (a b : Number) : Bool :=
  match a.position, b.position with
  | some p, some q => toLex p < toLex q
  | _, _ => false

/-- `max(a, b)`: the first of two equal ones. -/
def max (a b : Number) : Number := if a.lt b then b else a

/-- `min(a, b)`: the first of two equal ones. -/
def min (a b : Number) : Number := if b.lt a then b else a

/-- The nearest integer, ties to even. -/
def round : Number → Except PyError ℤ
  | .int n => .ok n
  | .bool b => .ok (if b then 1 else 0)
  | .float x =>
    if x.isNaN then .error .valueError
    else if x.isInf then .error .overflowError
    else .ok x.round

def Finite : Number → Prop
  | .float x => x.isFinite = true
  | _ => True

theorem round_of_finite {n : Number} (hn : n.Finite) : ∃ k, n.round = .ok k := by
  cases n with
  | int k => exact ⟨k, rfl⟩
  | bool b => exact ⟨_, rfl⟩
  | float x =>
    have hlt : x.magnitude < Binary.infinity := by
      simpa only [Finite, Double.isFinite, decide_eq_true_eq] using hn
    refine ⟨x.round, ?_⟩
    rw [round, Double.isNaN, Double.isInf, decide_eq_false (Nat.not_lt.mpr hlt.le), decide_eq_false hlt.ne]
    rfl

end Number

/-! ## What the formats pack -/

section
variable {x : Number} {w : ℕ}

theorem Number.index_eq_ok {k : ℤ} : x.index = .ok k ↔ x.int? = some k := by
  cases x <;> simp [Number.index, Number.int?]

namespace Format

theorem pack_unsigned_ok :
    (∃ bs, (unsigned w).pack x = .ok bs) ↔ ∃ k, x.int? = some k ∧ (unsigned w).Holds k := by
  simp only [pack, ← Number.index_eq_ok]
  cases x.index with
  | error e => simp [bind, Except.bind]
  | ok k => by_cases hk : (unsigned w).Holds k <;> simp [bind, Except.bind, hk]

theorem pack_signed_ok : (∃ bs, (signed w).pack x = .ok bs) ↔ ∃ k, x.int? = some k ∧ (signed w).Holds k := by
  simp only [pack, ← Number.index_eq_ok]
  cases x.index with
  | error e => simp [bind, Except.bind]
  | ok k => by_cases hk : (signed w).Holds k <;> simp [bind, Except.bind, hk]

theorem pack_single_ok :
    (∃ bs, single.pack x = .ok bs) ↔ ∃ y, x.toDouble = .ok y ∧ (Binary.narrow y).isSome := by
  rw [pack]
  cases x.toDouble with
  | error e => simp [bind, Except.bind]
  | ok y => cases hy : Binary.narrow y <;> simp [bind, Except.bind, hy]

theorem pack_double_ok : (∃ bs, double.pack x = .ok bs) ↔ ∃ y, x.toDouble = .ok y := by
  rw [pack]
  cases x.toDouble <;> simp [bind, Except.bind]

end Format
end

/-! ## Sums -/

/-- The running total of the built-in `sum`: exact while it is a machine integer, then a double with the error of
its additions, and otherwise what the operator `+` makes of it. -/
inductive PartialSum
  | fast (n : ℤ)
  | compensated (high low : Double)
  | plain (x : Number)
  deriving DecidableEq

namespace PartialSum

def start : PartialSum := .fast 0

def machineInt (n : ℤ) : Bool := -2 ^ 63 ≤ n && n < 2 ^ 63

/-- One compensated addition: `low` collects what rounding lost from `high`. -/
def compensate (high low x : Double) : PartialSum :=
  let t := high.add x
  let lost :=
    if !high.isNaN && !x.isNaN && x.magnitude ≤ high.magnitude then (high.sub t).add x else (x.sub t).add high
  .compensated t (low.add lost)

def add : PartialSum → Number → Except PyError PartialSum
  | .fast n, x =>
    match x with
    | .float y => do
      let s ← (Number.int n).toDouble
      return .compensated (s.add y) (Binary.double 0 0)
    | _ =>
      let k := x.int?.getD 0
      if machineInt k && machineInt (n + k) then .ok (.fast (n + k)) else .ok (.plain (.int (n + k)))
  | .compensated high low, x => do
    let y ← x.toDouble
    return compensate high low y
  | .plain s, x => do
    let s ← s.add x
    return .plain s

def total : PartialSum → Number
  | .fast n => .int n
  | .compensated high low => .float (if !low.isZero && low.isFinite then high.add low else high)
  | .plain x => x

end PartialSum

/-! ## Values that need not be numbers -/

/-- A value of a document; of what is neither a number nor a text only `null` is told apart. -/
inductive PyValue
  | number (x : Number)
  | text (s : String)
  | null
  | other
  deriving DecidableEq, Repr

/-- What the models take from the language and its libraries: the sine, `float` of a text, and a generator of
random numbers, which starts from a seed, or from entropy of the system for the generator of this number. -/
structure Platform (R : Type) where
  sin : Double → Double
  parse : String → Option Double
  seed : PyValue → R
  entropy : ℕ → R
  random : R → Double × R

namespace PyValue

/-- An operand of an arithmetic operation or of a comparison. -/
def operand : PyValue → Except PyError Number
  | .number x => .ok x
  | _ => .error .typeError

/-- `float(value)` -/
def toFloat {R : Type} (P : Platform R) : PyValue → Except PyError Double
  | .number x => x.toDouble
  | .text s => (P.parse s).elim (.error .valueError) .ok
  | _ => .error .typeError

end PyValue
end Foundations
