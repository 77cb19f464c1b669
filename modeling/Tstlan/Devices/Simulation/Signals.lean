import Mathlib.Logic.Function.Basic
import Tstlan.Foundations.Effect
import Tstlan.Foundations.PyNumber

/-! # Signals (`tstlan/devices/simulation/signals.py`)

A signal is a tree of sums over sources. The tree and the way a sum goes through its terms do not depend on what
the sources are or how samples are added, so both are parameters there. -/
namespace Tstlan.Simulation
open Foundations
open Binary (Double)
set_option autoImplicit false

/-! ## Sums of sources -/

inductive Signal (S : Type)
  | source (s : S)
  | sum (terms : List (Signal S))

/-- How a sum collects the samples of its terms. -/
structure Adder (ε V A : Type) where
  start : A
  add : A → V → Except ε A
  total : A → V

section
variable {ε σ S V A : Type}

mutual

def Signal.sample (adder : Adder ε V A) (source : S → EStateM ε σ V) : Signal S → EStateM ε σ V
  | .source s => source s
  | .sum terms => do
    let acc ← sampleTerms adder source adder.start terms
    return adder.total acc

/-- The terms are sampled one by one, each after the one before has been added. -/
def sampleTerms (adder : Adder ε V A) (source : S → EStateM ε σ V) : A → List (Signal S) → EStateM ε σ A
  | acc, [] => return acc
  | acc, term :: terms => do
    let v ← term.sample adder source
    let acc ← fromExcept (adder.add acc v)
    sampleTerms adder source acc terms

end

mutual

/-- The sources of a signal, from left to right. -/
def Signal.sources : Signal S → List S
  | .source s => [s]
  | .sum terms => termSources terms

def termSources : List (Signal S) → List S
  | [] => []
  | term :: terms => term.sources ++ termSources terms

end

/-- Induction over a signal together with the terms of its sums. -/
theorem Signal.induction {P : Signal S → Prop} {Q : List (Signal S) → Prop} (source : ∀ s, P (.source s))
    (sum : ∀ terms, Q terms → P (.sum terms)) (nil : Q [])
    (cons : ∀ term terms, P term → Q terms → Q (term :: terms)) (signal : Signal S) : P signal :=
  Signal.rec source sum nil cons signal

end

/-! ## Sources -/

/-- A `NetVar` object: the variable at a position of the device that has the handle. -/
structure Register where
  handle : ℤ
  index : ℕ
  deriving DecidableEq

/-- What sampling changes in a `Noise` or a `RandomWalk` object. -/
structure Cell (R : Type) where
  value : PyValue
  rng : R

/-- The attributes that no sampling changes. The parameters come from a document and need not be numbers. -/
inductive Source
  | constant (value : PyValue)
  | sine (amplitude period offset phase : PyValue)
  | sawtooth (period low high : PyValue)
  | square (period low high duty : PyValue)
  | ramp (rate start : PyValue)
  | noise (object : ℕ) (amplitude : PyValue)
  | randomWalk (object : ℕ) (step low high : PyValue)
  | follow (target : Register)
  deriving DecidableEq

/-- `2.0 * math.pi` -/
def twoPi : Double := 0x401921FB54442D18

/-- `math.sin` refuses the infinities. -/
def mathSin {R : Type} (P : Platform R) (x : Double) : Except PyError Double :=
  if x.isInf then .error .valueError else .ok (P.sin x)

section
variable {R : Type} (P : Platform R)

/-- `random.uniform` -/
def uniform (object : ℕ) (a b : Number) : EStateM PyError (ℕ → Cell R) Number := do
  let width ← fromExcept (b.sub a)
  let cells ← get
  let drawn := P.random (cells object).rng
  set (Function.update cells object { cells object with rng := drawn.2 })
  let x ← fromExcept (width.mul (.float drawn.1))
  fromExcept (a.add x)

def assignCell (object : ℕ) (value : Number) : EStateM PyError (ℕ → Cell R) Unit :=
  modify (fun cells => Function.update cells object { cells object with value := .number value })

/-- `values` are the values of the `NetVar` objects. -/
def Source.sample (t : Double) (values : Register → Number) : Source → EStateM PyError (ℕ → Cell R) PyValue
  | .constant value => return value
  | .sine amplitude period offset phase => do
    let period ← fromExcept period.operand
    let turn ← fromExcept (Number.divide Double.div (twoPi.mul t) period)
    let phase ← fromExcept phase.operand
    let angle ← fromExcept (Number.add (.float turn) phase)
    let angle ← fromExcept angle.toDouble
    let wave ← fromExcept (mathSin P angle)
    let amplitude ← fromExcept amplitude.operand
    let swing ← fromExcept (amplitude.mul (.float wave))
    let offset ← fromExcept offset.operand
    let x ← fromExcept (offset.add swing)
    return .number x
  | .sawtooth period low high => do
    let period ← fromExcept period.operand
    let rest ← fromExcept (Number.divide Double.mod t period)
    let fraction ← fromExcept (Number.divide Double.div rest period)
    let low ← fromExcept low.operand
    let high ← fromExcept high.operand
    let height ← fromExcept (high.sub low)
    let climb ← fromExcept (height.mul (.float fraction))
    let x ← fromExcept (low.add climb)
    return .number x
  | .square period low high duty => do
    let period ← fromExcept period.operand
    let rest ← fromExcept (Number.divide Double.mod t period)
    let fraction ← fromExcept (Number.divide Double.div rest period)
    let duty ← fromExcept duty.operand
    return if (Number.float fraction).lt duty then high else low
  | .ramp rate start => do
    let rate ← fromExcept rate.operand
    let climb ← fromExcept (rate.mul (.float t))
    let start ← fromExcept start.operand
    let x ← fromExcept (start.add climb)
    return .number x
  | .noise object amplitude => do
    let amplitude ← fromExcept amplitude.operand
    let x ← uniform P object amplitude.neg amplitude
    return .number x
  | .randomWalk object step low high => do
    let cells ← get
    let step ← fromExcept step.operand
    let move ← uniform P object step.neg step
    let value ← fromExcept (cells object).value.operand
    let value ← fromExcept (value.add move)
    assignCell object value
    let low ← fromExcept low.operand
    let high ← fromExcept high.operand
    let value := high.min (low.max value)
    assignCell object value
    return .number value
  | .follow target => do
    let x ← fromExcept (values target).toDouble
    return .number (.float x)

/-- The built-in `sum` over samples. -/
def pySum : Adder PyError PyValue PartialSum where
  start := .start
  add acc v := do
    let x ← v.operand
    acc.add x
  total acc := .number acc.total

/-- `signal.sample(t)` -/
def sampleAt (t : Double) (values : Register → Number) (signal : Signal Source) :
    EStateM PyError (ℕ → Cell R) PyValue :=
  signal.sample pySum (Source.sample P t values)

end
end Tstlan.Simulation
