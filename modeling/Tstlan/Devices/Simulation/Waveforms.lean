import Tstlan.Devices.Simulation.Signals

/-! # What the sources yield

For each source, what its parameters must be for a sample to exist, and the sample as a formula over the doubles.
`sampleAt_ok_iff` says that sampling is exactly this. -/
namespace Tstlan.Simulation
open Foundations
open Binary (Double)
set_option autoImplicit false

/-- The value is a number that converts to the double. -/
def Denotes (v : PyValue) (x : Double) : Prop := ∃ n, v = .number n ∧ n.toDouble = .ok x

/-- The lower bound and the width of an interval of numbers, as doubles. -/
def Span (a b : Number) (low width : Double) : Prop :=
  a.toDouble = .ok low ∧ ∃ w, b.sub a = .ok w ∧ w.toDouble = .ok width

section
variable {R : Type} (P : Platform R) (t : Double)

/-- The cells after a number has been drawn for the object. -/
def drawn (object : ℕ) (cells : ℕ → Cell R) : ℕ → Cell R :=
  Function.update cells object { cells object with rng := (P.random (cells object).rng).2 }

/-- The number drawn from an interval. -/
def draw (object : ℕ) (cells : ℕ → Cell R) (low width : Double) : Double :=
  low.add (width.mul (P.random (cells object).rng).1)

def fractionOf (period : Double) : Double := (t.mod period).div period

def angleOf (period phase : Double) : Double := ((twoPi.mul t).div period).add phase

/-- The source has the sample `v` at the time, and the cells are `cells'` afterwards. -/
def Source.Yields (values : Register → Number) (cells : ℕ → Cell R) (v : PyValue) (cells' : ℕ → Cell R) :
    Source → Prop
  | .constant value => v = value ∧ cells' = cells
  | .sine amplitude period offset phase => ∃ a p o φ, Denotes amplitude a ∧ Denotes period p ∧ Denotes offset o ∧
      Denotes phase φ ∧ p.isZero = false ∧ (angleOf t p φ).isInf = false ∧
      v = .number (.float (o.add (a.mul (P.sin (angleOf t p φ))))) ∧ cells' = cells
  | .sawtooth period low high => ∃ p a b l width, Denotes period p ∧ p.isZero = false ∧ low = .number a ∧
      high = .number b ∧ Span a b l width ∧ v = .number (.float (l.add (width.mul (fractionOf t p)))) ∧ cells' = cells
  | .square period low high duty => ∃ p n, Denotes period p ∧ p.isZero = false ∧ duty = .number n ∧
      v = (if (Number.float (fractionOf t p)).lt n then high else low) ∧ cells' = cells
  | .ramp rate start => ∃ r s, Denotes rate r ∧ Denotes start s ∧ v = .number (.float (s.add (r.mul t))) ∧ cells' = cells
  | .noise object amplitude => ∃ a low width, amplitude = .number a ∧ Span a.neg a low width ∧
      v = .number (.float (draw P object cells low width)) ∧ cells' = drawn P object cells
  | .randomWalk object step low high => ∃ s l width x a b, step = .number s ∧ Span s.neg s l width ∧
      Denotes (cells object).value x ∧ low = .number a ∧ high = .number b ∧
      v = .number (b.min (a.max (.float (x.add (draw P object cells l width))))) ∧
      cells' = Function.update cells object ⟨v, (P.random (cells object).rng).2⟩
  | .follow target => ∃ x, (values target).toDouble = .ok x ∧ v = .number (.float x) ∧ cells' = cells

mutual

def Signal.Yields (values : Register → Number) :
    Signal Source → (ℕ → Cell R) → PyValue → (ℕ → Cell R) → Prop
  | .source source, cells, v, cells' => source.Yields P t values cells v cells'
  | .sum terms, cells, v, cells' => ∃ acc, TermsYield values terms .start cells acc cells' ∧ v = .number acc.total

/-- The terms of a sum, added one after the other. -/
def TermsYield (values : Register → Number) :
    List (Signal Source) → PartialSum → (ℕ → Cell R) → PartialSum → (ℕ → Cell R) → Prop
  | [], acc, cells, acc', cells' => acc' = acc ∧ cells' = cells
  | term :: terms, acc, cells, acc', cells' => ∃ x cells₁ acc₁, term.Yields values cells (.number x) cells₁ ∧
      acc.add x = .ok acc₁ ∧ TermsYield values terms acc₁ cells₁ acc' cells'

end
end

/-! ## Operations that return -/

section
variable {v : PyValue} {n a b : Number} {x y z : Double}

theorem operand_eq_ok : v.operand = .ok n ↔ v = .number n := by
  cases v <;> simp [PyValue.operand]

theorem divide_eq_ok {op : Double → Double → Double} :
    Number.divide op x n = .ok z ↔ ∃ y, n.toDouble = .ok y ∧ y.isZero = false ∧ z = op x y := by
  rw [Number.divide]
  cases n.toDouble with
  | error e => simp [bind, Except.bind]
  | ok y => cases hy : y.isZero <;> simp [bind, Except.bind, hy, eq_comm (a := z)]

theorem arithmetic_float_right {f : ℤ → ℤ → ℤ} {g : Double → Double → Double} :
    Number.arithmetic f g a (.float y) = .ok n ↔ ∃ x, a.toDouble = .ok x ∧ n = .float (g x y) := by
  rw [Number.arithmetic]
  cases a.int? <;> cases a.toDouble <;> simp [Number.int?, Number.toDouble, bind, Except.bind, pure, Except.pure, eq_comm (a := n)]

theorem arithmetic_float_left {f : ℤ → ℤ → ℤ} {g : Double → Double → Double} :
    Number.arithmetic f g (.float x) b = .ok n ↔ ∃ y, b.toDouble = .ok y ∧ n = .float (g x y) := by
  rw [Number.arithmetic]
  cases b.toDouble <;> simp [Number.int?, Number.toDouble, bind, Except.bind, pure, Except.pure, eq_comm (a := n)]

theorem mathSin_eq_ok {R : Type} {P : Platform R} :
    mathSin P x = .ok y ↔ x.isInf = false ∧ y = P.sin x := by
  rw [mathSin]
  cases hx : x.isInf <;> simp [eq_comm (a := y)]

theorem toDouble_float : (Number.float x).toDouble = .ok y ↔ y = x := by
  rw [Number.toDouble, Except.ok.injEq]
  exact eq_comm

end

/-! ## Samples -/

section
variable {R : Type} {P : Platform R} {t : Double} {values : Register → Number} {cells cells' : ℕ → Cell R} {v : PyValue}

theorem uniform_ok_iff {object : ℕ} {a b n : Number} :
    (uniform P object a b).run cells = .ok n cells' ↔ ∃ low width, Span a b low width ∧
      n = .float (draw P object cells low width) ∧ cells' = drawn P object cells := by
  have hset (f : PUnit → EStateM PyError (ℕ → Cell R) Number) (c : ℕ → Cell R) :
      (set c >>= f).run cells = (f ⟨⟩).run c := rfl
  simp only [uniform, run_fromExcept_bind_ok_iff, run_get_bind, hset, fromExcept_run_ok_iff, Number.mul, Number.add,
    arithmetic_float_right]
  constructor
  · rintro ⟨w, hw, _, ⟨width, hwidth, rfl⟩, hsum, rfl⟩
    obtain ⟨low, hlow, rfl⟩ := arithmetic_float_right.mp hsum
    exact ⟨low, width, ⟨hlow, w, hw, hwidth⟩, rfl, rfl⟩
  · rintro ⟨low, width, ⟨hlow, w, hw, hwidth⟩, rfl, rfl⟩
    exact ⟨w, hw, _, ⟨width, hwidth, rfl⟩, arithmetic_float_right.mpr ⟨low, hlow, rfl⟩, rfl⟩

theorem sine_ok_iff {amplitude period offset phase : PyValue} :
    (Source.sample P t values (.sine amplitude period offset phase)).run cells = .ok v cells' ↔
      Source.Yields P t values cells v cells' (.sine amplitude period offset phase) := by
  simp only [Source.sample, Source.Yields, run_fromExcept_bind_ok_iff, run_pure_ok_iff, operand_eq_ok, divide_eq_ok,
    Number.mul, Number.add, arithmetic_float_right, arithmetic_float_left, mathSin_eq_ok]
  constructor
  · rintro ⟨_, rfl, _, ⟨p, hp, hp0, rfl⟩, _, rfl, _, ⟨φ, hφ, rfl⟩, angle, hangle, _, ⟨hinf, rfl⟩, _, rfl, _,
      ⟨a, ha, rfl⟩, _, rfl, _, hsum, rfl, rfl⟩
    cases toDouble_float.mp hangle
    obtain ⟨o, ho, rfl⟩ := arithmetic_float_right.mp hsum
    exact ⟨a, p, o, φ, ⟨_, rfl, ha⟩, ⟨_, rfl, hp⟩, ⟨_, rfl, ho⟩, ⟨_, rfl, hφ⟩, hp0, hinf, rfl, rfl⟩
  · rintro ⟨a, p, o, φ, ⟨_, rfl, ha⟩, ⟨_, rfl, hp⟩, ⟨_, rfl, ho⟩, ⟨_, rfl, hφ⟩, hp0, hinf, rfl, rfl⟩
    exact ⟨_, rfl, _, ⟨p, hp, hp0, rfl⟩, _, rfl, _, ⟨φ, hφ, rfl⟩, _, rfl, _, ⟨hinf, rfl⟩, _, rfl, _, ⟨a, ha, rfl⟩,
      _, rfl, _, arithmetic_float_right.mpr ⟨o, ho, rfl⟩, rfl, rfl⟩

theorem sawtooth_ok_iff {period low high : PyValue} :
    (Source.sample P t values (.sawtooth period low high)).run cells = .ok v cells' ↔
      Source.Yields P t values cells v cells' (.sawtooth period low high) := by
  simp only [Source.sample, Source.Yields, run_fromExcept_bind_ok_iff, run_pure_ok_iff, operand_eq_ok, divide_eq_ok,
    Number.mul, Number.add, arithmetic_float_right]
  constructor
  · rintro ⟨n, rfl, _, ⟨p, hp, hp0, rfl⟩, _, ⟨p', hp', -, rfl⟩, a, rfl, b, rfl, w, hw, _, ⟨width, hwidth, rfl⟩, _, hsum,
      rfl, rfl⟩
    rw [hp, Except.ok.injEq] at hp'
    subst hp'
    obtain ⟨l, hl, rfl⟩ := arithmetic_float_right.mp hsum
    exact ⟨p, a, b, l, width, ⟨n, rfl, hp⟩, hp0, rfl, rfl, ⟨hl, w, hw, hwidth⟩, rfl, rfl⟩
  · rintro ⟨p, a, b, l, width, ⟨n, rfl, hp⟩, hp0, rfl, rfl, ⟨hl, w, hw, hwidth⟩, rfl, rfl⟩
    exact ⟨n, rfl, _, ⟨p, hp, hp0, rfl⟩, _, ⟨p, hp, hp0, rfl⟩, a, rfl, b, rfl, w, hw, _, ⟨width, hwidth, rfl⟩, _,
      arithmetic_float_right.mpr ⟨l, hl, rfl⟩, rfl, rfl⟩

theorem square_ok_iff {period low high duty : PyValue} :
    (Source.sample P t values (.square period low high duty)).run cells = .ok v cells' ↔
      Source.Yields P t values cells v cells' (.square period low high duty) := by
  simp only [Source.sample, Source.Yields, run_fromExcept_bind_ok_iff, run_pure_ok_iff, operand_eq_ok, divide_eq_ok]
  constructor
  · rintro ⟨n, rfl, _, ⟨p, hp, hp0, rfl⟩, _, ⟨p', hp', -, rfl⟩, d, rfl, rfl, rfl⟩
    rw [hp, Except.ok.injEq] at hp'
    subst hp'
    exact ⟨p, d, ⟨n, rfl, hp⟩, hp0, rfl, rfl, rfl⟩
  · rintro ⟨p, d, ⟨n, rfl, hp⟩, hp0, rfl, rfl, rfl⟩
    exact ⟨n, rfl, _, ⟨p, hp, hp0, rfl⟩, _, ⟨p, hp, hp0, rfl⟩, d, rfl, rfl, rfl⟩

theorem ramp_ok_iff {rate start : PyValue} :
    (Source.sample P t values (.ramp rate start)).run cells = .ok v cells' ↔
      Source.Yields P t values cells v cells' (.ramp rate start) := by
  simp only [Source.sample, Source.Yields, run_fromExcept_bind_ok_iff, run_pure_ok_iff, operand_eq_ok, Number.mul,
    Number.add, arithmetic_float_right]
  constructor
  · rintro ⟨a, rfl, _, ⟨r, hr, rfl⟩, b, rfl, _, hsum, rfl, rfl⟩
    obtain ⟨s, hs, rfl⟩ := arithmetic_float_right.mp hsum
    exact ⟨r, s, ⟨a, rfl, hr⟩, ⟨b, rfl, hs⟩, rfl, rfl⟩
  · rintro ⟨r, s, ⟨a, rfl, hr⟩, ⟨b, rfl, hs⟩, rfl, rfl⟩
    exact ⟨a, rfl, _, ⟨r, hr, rfl⟩, b, rfl, _, arithmetic_float_right.mpr ⟨s, hs, rfl⟩, rfl, rfl⟩

theorem uniform_bind_ok_iff {object : ℕ} {a b : Number} {f : Number → EStateM PyError (ℕ → Cell R) PyValue} :
    (uniform P object a b >>= f).run cells = .ok v cells' ↔ ∃ low width, Span a b low width ∧
      (f (.float (draw P object cells low width))).run (drawn P object cells) = .ok v cells' := by
  rw [run_bind_ok_iff]
  simp only [uniform_ok_iff]
  constructor
  · rintro ⟨_, _, ⟨low, width, hspan, rfl, rfl⟩, hrun⟩
    exact ⟨low, width, hspan, hrun⟩
  · rintro ⟨low, width, hspan, hrun⟩
    exact ⟨_, _, ⟨low, width, hspan, rfl, rfl⟩, hrun⟩

theorem noise_ok_iff {object : ℕ} {amplitude : PyValue} :
    (Source.sample P t values (.noise object amplitude)).run cells = .ok v cells' ↔
      Source.Yields P t values cells v cells' (.noise object amplitude) := by
  simp only [Source.sample, Source.Yields, run_fromExcept_bind_ok_iff, run_pure_ok_iff, operand_eq_ok,
    uniform_bind_ok_iff]
  constructor
  · rintro ⟨a, rfl, low, width, hspan, rfl, rfl⟩
    exact ⟨a, low, width, rfl, hspan, rfl, rfl⟩
  · rintro ⟨a, low, width, rfl, hspan, rfl, rfl⟩
    exact ⟨a, rfl, low, width, hspan, rfl, rfl⟩

theorem randomWalk_ok_iff {object : ℕ} {step low high : PyValue} :
    (Source.sample P t values (.randomWalk object step low high)).run cells = .ok v cells' ↔
      Source.Yields P t values cells v cells' (.randomWalk object step low high) := by
  have hassign (x : Number) (f : Unit → EStateM PyError (ℕ → Cell R) PyValue) (c : ℕ → Cell R) :
      (assignCell object x >>= f).run c =
        (f ()).run (Function.update c object { c object with value := .number x }) := rfl
  simp only [Source.sample, Source.Yields, run_get_bind, run_fromExcept_bind_ok_iff, run_pure_ok_iff, operand_eq_ok,
    uniform_bind_ok_iff, hassign, drawn, Function.update_self, Function.update_idem, Number.add, arithmetic_float_right]
  constructor
  · rintro ⟨s, rfl, l, width, hspan, n, hn, _, ⟨x, hx, rfl⟩, a, rfl, b, rfl, rfl, rfl⟩
    exact ⟨s, l, width, x, a, b, rfl, hspan, ⟨n, hn, hx⟩, rfl, rfl, rfl, rfl⟩
  · rintro ⟨s, l, width, x, a, b, rfl, hspan, ⟨n, hn, hx⟩, rfl, rfl, rfl, rfl⟩
    exact ⟨s, rfl, l, width, hspan, n, hn, _, ⟨x, hx, rfl⟩, a, rfl, b, rfl, rfl, rfl⟩

theorem follow_ok_iff {target : Register} :
    (Source.sample P t values (.follow target)).run cells = .ok v cells' ↔
      Source.Yields P t values cells v cells' (.follow target) := by
  simp only [Source.sample, Source.Yields, run_fromExcept_bind_ok_iff, run_pure_ok_iff]

/-- Sampling a source is what the source yields. -/
theorem source_ok_iff {source : Source} :
    (source.sample P t values).run cells = .ok v cells' ↔ source.Yields P t values cells v cells' := by
  cases source with
  | constant value => exact run_pure_ok_iff
  | sine => exact sine_ok_iff
  | sawtooth => exact sawtooth_ok_iff
  | square => exact square_ok_iff
  | ramp => exact ramp_ok_iff
  | noise => exact noise_ok_iff
  | randomWalk => exact randomWalk_ok_iff
  | follow => exact follow_ok_iff

theorem pySum_add_ok {acc acc' : PartialSum} :
    pySum.add acc v = .ok acc' ↔ ∃ x, v = .number x ∧ acc.add x = .ok acc' := by
  simp only [pySum, ← operand_eq_ok]
  cases v.operand <;> simp [bind, Except.bind]

/-- Sampling a signal is what its sources yield, added in order. -/
theorem sampleAt_ok_iff {signal : Signal Source} :
    (sampleAt P t values signal).run cells = .ok v cells' ↔ signal.Yields P t values cells v cells' := by
  rw [sampleAt]
  revert cells v cells'
  apply Signal.induction
    (P := fun signal => ∀ {cells cells' : ℕ → Cell R} {v : PyValue},
      (signal.sample pySum (Source.sample P t values)).run cells = .ok v cells' ↔ signal.Yields P t values cells v cells')
    (Q := fun terms => ∀ {cells cells' : ℕ → Cell R} {acc acc' : PartialSum},
      (sampleTerms pySum (Source.sample P t values) acc terms).run cells = .ok acc' cells' ↔
        TermsYield P t values terms acc cells acc' cells')
  · intro source cells cells' v
    exact source_ok_iff
  · intro terms ih cells cells' v
    simp only [Signal.sample, Signal.Yields, run_bind_ok_iff, run_pure_ok_iff]
    constructor
    · rintro ⟨acc, cells₁, hrun, rfl, rfl⟩
      exact ⟨acc, ih.mp hrun, rfl⟩
    · rintro ⟨acc, hyields, rfl⟩
      exact ⟨acc, cells', ih.mpr hyields, rfl, rfl⟩
  · intro cells cells' acc acc'
    exact run_pure_ok_iff
  · intro term terms hterm hterms cells cells' acc acc'
    rw [sampleTerms, TermsYield, run_bind_ok_iff]
    simp only [run_fromExcept_bind_ok_iff, pySum_add_ok]
    constructor
    · rintro ⟨_, cells₁, hrun, acc₁, ⟨x, rfl, hadd⟩, hrest⟩
      exact ⟨x, cells₁, acc₁, hterm.mp hrun, hadd, hterms.mp hrest⟩
    · rintro ⟨x, cells₁, acc₁, hyields, hadd, hrest⟩
      exact ⟨_, cells₁, hterm.mpr hyields, acc₁, ⟨x, rfl, hadd⟩, hterms.mpr hrest⟩

end
end Tstlan.Simulation
