import Mathlib.Algebra.Field.Defs
import Mathlib.Algebra.Order.Floor.Defs
import Tstlan.Devices.Simulation.Isolation
import Tstlan.Foundations.Family
import Tstlan.Foundations.Separate

/-! # Signals in exact arithmetic

The formulas of the sources over an ordered field, without rounding. A sum of signals then has at each time the sum
of what its sources return when each is sampled alone, and leaves each random source in the state where its own
samples leave it. -/
namespace Tstlan.Simulation
open Foundations
set_option autoImplicit false

/-! ## Sums -/

/-- The built-in `sum` without rounding. -/
def exactSum {V : Type} [Zero V] [Add V] : Adder PyError V V where
  start := 0
  add acc v := .ok (acc + v)
  total := id

theorem exactSum_add {V : Type} [Zero V] [Add V] (acc v : V) : exactSum.add acc v = .ok (acc + v) := rfl

/-- Each source of a signal is sampled once, from left to right. -/
theorem sample_exactSum {S σ V : Type} [AddMonoid V] (source : S → EStateM PyError σ V) (signal : Signal S) :
    signal.sample exactSum source = do
      let samples ← signal.sources.mapM source
      return samples.sum := by
  apply Signal.induction
    (P := fun signal => signal.sample exactSum source = do
      let samples ← signal.sources.mapM source
      return samples.sum)
    (Q := fun terms => ∀ acc, sampleTerms exactSum source acc terms = do
      let samples ← (termSources terms).mapM source
      return acc + samples.sum)
  · intro s
    simp [Signal.sample, Signal.sources]
  · intro terms ih
    rw [Signal.sample, Signal.sources, ih]
    simp [exactSum]
  · intro acc
    simp [sampleTerms, termSources]
  · intro term terms hterm hterms acc
    rw [sampleTerms, termSources, hterm]
    simp [exactSum_add, hterms, List.sum_append, add_assoc]

/-! ## Sources -/

/-- What sampling changes in a random source; `value` is `none` while the start is not a number. -/
structure ExactCell (K R : Type) where
  value : Option K
  rng : R

/-- A field with what the sources take from outside: the values of the parameters that are numbers, the sine, and
numbers drawn at random. -/
structure Arithmetic (K R : Type) where
  number : Number → K
  twoPi : K
  sin : K → K
  random : R → K × R

section
variable {K R : Type} [Field K] [LinearOrder K] [FloorRing K]

namespace Arithmetic
variable (E : Arithmetic K R)

def value : PyValue → Option K
  | .number x => some (E.number x)
  | _ => none

def operand : Option K → Except PyError K
  | some x => .ok x
  | none => .error .typeError

def divisor (v : PyValue) : Except PyError K := do
  let x ← operand (E.value v)
  if x = 0 then .error .zeroDivisionError else .ok x

/-- `(t % period) / period` -/
def fraction (t period : K) : K := (t - period * ⌊t / period⌋) / period

def uniform (a b : K) : EStateM PyError (ExactCell K R) K := do
  let own ← get
  let drawn := E.random own.rng
  set { own with rng := drawn.2 }
  return a + (b - a) * drawn.1

def assign (x : K) : EStateM PyError (ExactCell K R) Unit := modify (fun own => { own with value := some x })

/-- `sample` of a source; a sample that is not a number is refused, as a sum would. -/
def sample (values : Register → K) (t : K) : Source → EStateM PyError (ℕ → ExactCell K R) K
  | .constant value => fromExcept (operand (E.value value))
  | .sine amplitude period offset phase => fromExcept do
    let period ← E.divisor period
    let phase ← operand (E.value phase)
    let amplitude ← operand (E.value amplitude)
    let offset ← operand (E.value offset)
    return offset + amplitude * E.sin (E.twoPi * t / period + phase)
  | .sawtooth period low high => fromExcept do
    let period ← E.divisor period
    let low ← operand (E.value low)
    let high ← operand (E.value high)
    return low + (high - low) * fraction t period
  | .square period low high duty => fromExcept do
    let period ← E.divisor period
    let duty ← operand (E.value duty)
    operand (E.value (if fraction t period < duty then high else low))
  | .ramp rate start => fromExcept do
    let rate ← operand (E.value rate)
    let start ← operand (E.value start)
    return start + rate * t
  | .noise object amplitude => onMember object do
    let amplitude ← fromExcept (operand (E.value amplitude))
    E.uniform (-amplitude) amplitude
  | .randomWalk object step low high => onMember object do
    let own ← get
    let step ← fromExcept (operand (E.value step))
    let move ← E.uniform (-step) step
    let value ← fromExcept (operand own.value)
    assign (value + move)
    let low ← fromExcept (operand (E.value low))
    let high ← fromExcept (operand (E.value high))
    let value := min high (max low (value + move))
    assign value
    return value
  | .follow target => return values target

/-- `signal.sample(t)` -/
def sampleAt (values : Register → K) (t : K) (signal : Signal Source) : EStateM PyError (ℕ → ExactCell K R) K :=
  signal.sample exactSum (E.sample values t)

end Arithmetic

/-- The totals at the times are the sums of what the sources return there when each alone is sampled once at each
time; the cell of a source ends as its own samples leave it, and the other cells stay as they are. -/
def Arithmetic.Sums (E : Arithmetic K R) (values : Register → K) (sources : List Source) (times : List K)
    (cells : ℕ → ExactCell K R) (totals : List K) (cells' : ℕ → ExactCell K R) : Prop :=
  ∃ (samples : Source → List K) (after : Source → ℕ → ExactCell K R),
    (∀ source ∈ sources,
      (times.mapM (fun t => E.sample values t source)).run cells = .ok (samples source) (after source)) ∧
    totals = (List.range times.length).map (fun k => (sources.map (fun source => (samples source).getD k 0)).sum) ∧
    (∀ source ∈ sources, ∀ object, source.object? = some object → cells' object = after source object) ∧
    ∀ object, (∀ source ∈ sources, source.object? ≠ some object) → cells' object = cells object

/-! ## The part of a source -/

/-- The cell of the source, if it has one. -/
def Source.own {C : Type} (source : Source) (cells : ℕ → C) : Option C := source.object?.map cells

variable {E : Arithmetic K R} {values : Register → K}

/-- Sampling a source depends on nothing, or it is a program over its own cell. -/
theorem exact_cases (E : Arithmetic K R) (values : Register → K) (t : K) (source : Source) :
    (∃ x : Except PyError K, E.sample values t source = fromExcept x) ∨
      ∃ object x, source.object? = some object ∧ E.sample values t source = onMember object x := by
  cases source with
  | noise object amplitude => exact .inr ⟨object, _, rfl, rfl⟩
  | randomWalk object step low high => exact .inr ⟨object, _, rfl, rfl⟩
  | follow target => exact .inl ⟨.ok (values target), rfl⟩
  | _ => exact .inl ⟨_, rfl⟩

theorem exact_sees (t : K) (source : Source) : Sees source.own (E.sample values t source) := by
  rcases exact_cases E values t source with ⟨x, hx⟩ | ⟨object, x, hobject, hx⟩
  · rw [hx]
    exact Respects.fromExcept x
  · intro cells cells' hown
    rw [Source.own, Source.own, hobject, Option.map_some, Option.map_some, Option.some.injEq] at hown
    rw [hx, outcome_onMember, outcome_onMember, hown]
    refine ⟨rfl, ?_⟩
    show source.own _ = source.own _
    rw [Source.own, Source.own, hobject, Option.map_some, Option.map_some, final_onMember_self, final_onMember_self, hown]

/-- A source leaves the cells that are not its own. -/
theorem exact_leaves_cell {source : Source} {k : ℕ} (hk : source.object? ≠ some k) (t : K) :
    Leaves (fun cells => cells k) (E.sample values t source) := by
  intro cells
  rcases exact_cases E values t source with ⟨x, hx⟩ | ⟨object, x, hobject, hx⟩
  · rw [hx, Silent.fromExcept x]
  · have hne : k ≠ object := by
      rintro rfl
      exact hk hobject
    rw [hx]
    exact final_onMember_of_ne hne x cells

theorem exact_leaves {source other : Source} (h : ∀ k, source.object? = some k → other.object? ≠ some k) (t : K) :
    Leaves other.own (E.sample values t source) := by
  intro cells
  rw [Source.own, Source.own]
  cases hother : other.object? with
  | none => rfl
  | some k =>
    have hk : source.object? ≠ some k := fun hsource => h k hsource hother
    exact congrArg some (exact_leaves_cell hk t cells)

theorem exact_separate {sources : List Source} (h : (sources.filterMap Source.object?).Nodup) (t : K) :
    Separate Source.own (fun source => E.sample values t source) sources where
  sees source _ := exact_sees t source
  leaves := by
    rw [List.Nodup, List.pairwise_filterMap] at h
    apply h.imp
    intro source other hne
    constructor
    · apply exact_leaves
      intro k hsource hother
      exact hne k hsource k hother rfl
    · apply exact_leaves
      intro k hother hsource
      exact hne k hsource k hother rfl

theorem sampleAt_eq_rounds (signal : Signal Source) (times : List K) :
    times.mapM (fun t => E.sampleAt values t signal) =
      Separate.rounds List.sum (fun source t => E.sample values t source) signal.sources times := by
  rw [Separate.rounds]
  congr 1
  funext t
  exact sample_exactSum (E.sample values t) signal

section
variable {signal : Signal Source} {times : List K} {cells cells' : ℕ → ExactCell K R} {totals : List K}

/-- If the signal can be sampled at the times, so can each of its sources alone, which leaves its cell the same. -/
theorem sampled_alone (h : (signal.sources.filterMap Source.object?).Nodup)
    (hrun : (times.mapM (fun t => E.sampleAt values t signal)).run cells = .ok totals cells') :
    ∀ source ∈ signal.sources, ∃ samples after,
      (times.mapM (fun t => E.sample values t source)).run cells = .ok samples after ∧
      ∀ object, source.object? = some object → cells' object = after object := by
  intro source hsource
  rw [sampleAt_eq_rounds] at hrun
  obtain ⟨samples, after, halone, hown⟩ :=
    Separate.alone_of_rounds (exact_separate h) (fun _ _ => rfl) hrun source hsource
  refine ⟨samples, after, halone, ?_⟩
  intro object hobject
  rwa [Source.own, Source.own, hobject, Option.map_some, Option.map_some, Option.some.injEq] at hown

/-- If each source can be sampled alone at the times, so can the signal, which returns the sums. -/
theorem sampled_sums (h : (signal.sources.filterMap Source.object?).Nodup) {samples : Source → List K}
    {after : Source → ℕ → ExactCell K R}
    (halone : ∀ source ∈ signal.sources,
      (times.mapM (fun t => E.sample values t source)).run cells = .ok (samples source) (after source)) :
    ∃ u, (times.mapM (fun t => E.sampleAt values t signal)).run cells = .ok
      ((List.range times.length).map (fun k => (signal.sources.map (fun source => (samples source).getD k 0)).sum)) u := by
  rw [sampleAt_eq_rounds]
  exact Separate.rounds_of_alone 0 (exact_separate h) (fun _ _ => rfl) halone

theorem sampled_elsewhere {object : ℕ} (hobject : ∀ source ∈ signal.sources, source.object? ≠ some object)
    (hrun : (times.mapM (fun t => E.sampleAt values t signal)).run cells = .ok totals cells') :
    cells' object = cells object := by
  rw [sampleAt_eq_rounds] at hrun
  exact part_rounds (fun source hsource t => exact_leaves_cell (hobject source hsource) t) hrun

/-- Sampling a signal at each time of a list: it returns if and only if each of its sources does when it alone is
sampled at these times. It then returns the sums of what they return, and each random source ends where its own
samples leave it. -/
theorem samples_iff (h : (signal.sources.filterMap Source.object?).Nodup) :
    (times.mapM (fun t => E.sampleAt values t signal)).run cells = .ok totals cells' ↔
      E.Sums values signal.sources times cells totals cells' := by
  constructor
  · intro hrun
    have halone := sampled_alone h hrun
    have hnonempty : Nonempty (ℕ → ExactCell K R) := ⟨cells⟩
    choose! samples after halone hcells using halone
    obtain ⟨u, hsums⟩ := sampled_sums h halone
    rw [hrun] at hsums
    cases hsums
    exact ⟨samples, after, halone, rfl, hcells, fun object hobject => sampled_elsewhere hobject hrun⟩
  · rintro ⟨samples, after, halone, rfl, hcells, hrest⟩
    obtain ⟨u, hsums⟩ := sampled_sums h halone
    have hu : u = cells' := by
      funext object
      by_cases hobject : ∃ source ∈ signal.sources, source.object? = some object
      · obtain ⟨source, hsource, hobject⟩ := hobject
        obtain ⟨samples', after', halone', hcell⟩ := sampled_alone h hsums source hsource
        rw [halone source hsource] at halone'
        cases halone'
        rw [hcell object hobject, hcells source hsource object hobject]
      · have hother : ∀ source ∈ signal.sources, source.object? ≠ some object :=
          fun source hsource hsome => hobject ⟨source, hsource, hsome⟩
        rw [sampled_elsewhere hother hsums, hrest object hother]
    rw [hsums, hu]

end
end
end Tstlan.Simulation
