import Tstlan.Devices.Simulation.Driver
import Tstlan.Devices.Simulation.Threads
import Tstlan.Foundations.Rounding

/-! # How far samples reach

Bounds of the samples of a signal, computed from its parameters with the operations of the samples themselves. A
device whose bounds its C types can take ticks without an exception, whatever the buffers hold. -/
namespace Tstlan.Simulation
open Foundations
open Binary (Double)
open Binary.Double (plus times ratio)
set_option autoImplicit false

/-! ## Bounds -/

/-- The magnitude that the finite samples do not exceed, and whether all of them are finite. -/
structure Reach where
  bound : ℕ
  steady : Bool

def Reach.Holds (r : Reach) (x : Double) : Prop :=
  (r.steady = true → x.isFinite = true) ∧ (x.isFinite = true → x.magnitude ≤ r.bound)

/-- A parameter that is a finite double. -/
def finite? : PyValue → Option Double
  | .number (.float x) => if x.isFinite then some x else none
  | _ => none

/-- A divisor. -/
def period? (v : PyValue) : Option Double := (finite? v).filter (fun x => !x.isZero)

def capped (bound : ℕ) : Option ℕ := if bound < Binary.infinity then some bound else none

/-- The values of a variable of the C type. -/
def reachOf : NetVarCType → Option Reach
  | .BIT => none
  | .F32 => some ⟨Binary.singleLimit, false⟩
  | .F64 => some ⟨Binary.infinity - 1, false⟩
  | _ => some ⟨Binary.wordLimit, true⟩

section
variable (limit : ℕ) (types : Register → Option NetVarCType)

/-- The samples of a source up to a time. -/
def Source.reach : Source → Option Reach
  | .constant value => do
    let x ← finite? value
    return ⟨x.magnitude, true⟩
  | .sine amplitude period offset phase => do
    let a ← finite? amplitude
    let p ← period? period
    let o ← finite? offset
    let φ ← finite? phase
    let turn ← capped (times twoPi.magnitude limit)
    let turns ← capped (ratio turn p.magnitude)
    -- the sine takes no infinity
    let _angle ← capped (plus turns φ.magnitude)
    let swing ← capped (times a.magnitude Binary.Double.one)
    let bound ← capped (plus o.magnitude swing)
    return ⟨bound, true⟩
  | .sawtooth period low high => do
    let _p ← period? period
    let l ← finite? low
    let h ← finite? high
    let width ← capped (plus h.magnitude l.magnitude)
    let climb ← capped (times width Binary.Double.one)
    let bound ← capped (plus l.magnitude climb)
    return ⟨bound, true⟩
  | .square period low high duty => do
    let _p ← period? period
    let l ← finite? low
    let h ← finite? high
    let _duty ← finite? duty
    return ⟨max l.magnitude h.magnitude, true⟩
  | .ramp rate start => do
    let r ← finite? rate
    let s ← finite? start
    let climb ← capped (times r.magnitude limit)
    let bound ← capped (plus s.magnitude climb)
    return ⟨bound, true⟩
  | .noise _ amplitude => do
    let a ← finite? amplitude
    let width ← capped (plus a.magnitude a.magnitude)
    let climb ← capped (times width Binary.Double.one)
    let bound ← capped (plus a.magnitude climb)
    return ⟨bound, true⟩
  | .randomWalk _ step low high => do
    let _s ← finite? step
    let l ← finite? low
    let h ← finite? high
    return ⟨max l.magnitude h.magnitude, true⟩
  | .follow target => (types target).bind reachOf

/-- The total and the errors after one more term. -/
def addReach (acc : Option (Reach × ℕ)) (r : Reach) : Option (Reach × ℕ) :=
  match acc with
  | none => do
    let bound ← capped (plus 0 r.bound)
    return (⟨bound, r.steady⟩, 0)
  | some (high, low) => do
    let bound ← capped (plus high.bound r.bound)
    let twice ← capped (plus r.bound r.bound)
    let lost ← capped (plus twice r.bound)
    let low ← capped (plus low lost)
    return (⟨bound, high.steady && r.steady⟩, low)

mutual

def Signal.reach : Signal Source → Option Reach
  | .source source => source.reach limit types
  | .sum terms => do
    let acc ← termsReach none terms
    let (high, low) ← acc
    let bound ← capped (plus high.bound low)
    return ⟨bound, high.steady⟩

def termsReach (acc : Option (Reach × ℕ)) : List (Signal Source) → Option (Option (Reach × ℕ))
  | [] => some acc
  | term :: terms => do
    let r ← term.reach
    let acc ← addReach acc r
    termsReach (some acc) terms

end

/-- Every sample within the bounds fits. -/
def takes (c : NetVarCType) (r : Reach) : Bool :=
  match c with
  | .F32 => r.bound ≤ Binary.singleLimit
  | .F64 => true
  | _ => r.steady

def SimulatedDevice.steady (d : SimulatedDevice) : Bool :=
  d.device.vars.all (fun var =>
    match d.signals.get? var.name with
    | none => true
    | some signal => (signal.reach limit types).any (takes var.ctype))

end

def typeOf (devices : List SimulatedDevice) (register : Register) : Option NetVarCType :=
  (devices.find? (fun d => d.handle = register.handle)).bind
    (fun d => d.device.vars[register.index]?.map NetVar.ctype)

/-! ## What the platform promises -/

/-- The sine of a finite number lies between -1 and 1, and so does a random number. -/
structure Bounded {R : Type} (P : Platform R) : Prop where
  sin : ∀ x : Double, x.isFinite = true → (P.sin x).magnitude ≤ Binary.Double.one
  random : ∀ rng : R, (P.random rng).1.magnitude ≤ Binary.Double.one

/-- The state of a random walk that can go on. -/
def IsDouble (v : PyValue) : Prop := ∃ x : Double, v = .number (.float x)

/-- A walk that could go on still can. -/
def KeepsWalks {R : Type} (cells cells' : ℕ → Cell R) : Prop :=
  ∀ object, IsDouble (cells object).value → IsDouble (cells' object).value

/-- The random walks among the sources. -/
def Source.walk? : Source → Option ℕ
  | .randomWalk object _ _ _ => some object
  | _ => none

def Walks {R : Type} (cells : ℕ → Cell R) (sources : List Source) : Prop :=
  ∀ object ∈ sources.filterMap Source.walk?, IsDouble (cells object).value

/-! ## Samples within the bounds -/

section
variable {v : PyValue} {x : Double} {a b : ℕ}

theorem finite?_eq_some : finite? v = some x ↔ v = .number (.float x) ∧ x.isFinite = true := by
  unfold finite?
  split
  · next y =>
    simp only [Option.ite_none_right_eq_some, Option.some.injEq, PyValue.number.injEq, Number.float.injEq]
    constructor
    · rintro ⟨hy, rfl⟩
      exact ⟨rfl, hy⟩
    · rintro ⟨rfl, hy⟩
      exact ⟨hy, rfl⟩
  · next hother =>
    refine ⟨fun h => (by cases h), fun h => absurd h.1 (hother x)⟩

theorem period?_eq_some :
    period? v = some x ↔ v = .number (.float x) ∧ x.isFinite = true ∧ x.isZero = false := by
  rw [period?, Option.filter_eq_some_iff, finite?_eq_some, Bool.not_eq_true', and_assoc]

theorem capped_eq_some : capped a = some b ↔ b = a ∧ a < Binary.infinity := by
  rw [capped, Option.ite_none_right_eq_some, Option.some.injEq, and_comm, eq_comm]

theorem steady_holds (h : x.magnitude ≤ b) (hb : b < Binary.infinity) : (⟨b, true⟩ : Reach).Holds x :=
  ⟨fun _ => Binary.Double.finite_of_le h hb, fun _ => h⟩

theorem denotes_double (x : Double) : Denotes (.number (.float x)) x := ⟨_, rfl, rfl⟩

theorem span_doubles (x y : Double) : Span (.float x) (.float y) x (y.sub x) := ⟨rfl, _, rfl, rfl⟩

theorem KeepsWalks.refl {R : Type} (cells : ℕ → Cell R) : KeepsWalks cells cells := fun _ h => h

theorem KeepsWalks.trans {R : Type} {c₁ c₂ c₃ : ℕ → Cell R} (h : KeepsWalks c₁ c₂) (h' : KeepsWalks c₂ c₃) :
    KeepsWalks c₁ c₃ := fun object hobject => h' object (h object hobject)

end

section
variable {x y z : Double}

/-- A number strictly between two finite doubles is one. -/
theorem magnitude_between (h : (Number.float x).lt (.float y) = true) (h' : (Number.float y).lt (.float z) = true)
    (hx : x.isFinite = true) (hz : z.isFinite = true) : y.magnitude ≤ max x.magnitude z.magnitude := by
  have hposition (w : Double) (hw : w.isFinite = true) : (Number.float w).position = some (0, w.scaled) := by
    simp only [Number.position, Number.int?, Double.position, Binary.Double.finite_parts hw, Bool.false_eq_true, if_false]
  rw [Number.lt, hposition x hx] at h
  rw [Number.lt, hposition z hz] at h'
  cases hy : (Number.float y).position with
  | none =>
    rw [hy] at h
    cases h
  | some q =>
    rw [hy] at h h'
    simp only [decide_eq_true_eq, Prod.Lex.toLex_lt_toLex] at h h'
    have hfirst : q.1 = 0 := by omega
    have hscaled : q.2 = y.scaled := by
      have hpos : y.position = some q := hy
      rw [Double.position] at hpos
      split_ifs at hpos with hnan hinf hsign
      · cases hpos
        exact absurd hfirst (by decide)
      · cases hpos
        exact absurd hfirst (by decide)
      · cases hpos
        rfl
    have hunits := Binary.Double.natAbs_scaled y
    have hunitsx := Binary.Double.natAbs_scaled x
    have hunitsz := Binary.Double.natAbs_scaled z
    rw [Binary.Double.units_eq] at hunits hunitsx hunitsz
    by_contra hgt
    obtain ⟨hgtx, hgtz⟩ := max_lt_iff.mp (not_le.mp hgt)
    have hltx := Binary.unitsOf_strictMono hgtx
    have hltz := Binary.unitsOf_strictMono hgtz
    omega

end

section
variable {R : Type} {P : Platform R} {t : Double} {limit : ℕ} {types : Register → Option NetVarCType}
  {values : Register → Number} {cells : ℕ → Cell R} {r : Reach}

theorem reach_of_accepts {c : NetVarCType} {n : Number} (h : c.Accepts n) (hr : reachOf c = some r) :
    ∃ x, n.toDouble = .ok x ∧ r.Holds x := by
  have hinteger {low high : ℤ} (hrange : intRange c = some (low, high)) (hbit : c ≠ .BIT)
      (hlow : -2 ^ 63 ≤ low) (hhigh : high ≤ 2 ^ 64) (hreach : r = ⟨Binary.wordLimit, true⟩) :
      ∃ x, n.toDouble = .ok x ∧ r.Holds x := by
    rw [NetVarCType.Accepts, hrange] at h
    obtain ⟨k, hk, hle, hge⟩ := h.resolve_left hbit
    have hsmall : k.natAbs ≤ 2 ^ 64 := by omega
    obtain ⟨x, hx⟩ := Binary.ofInt_of_le hsmall
    have hdouble : n.toDouble = .ok x := by
      cases n with
      | int m =>
        cases hk
        rw [Number.toDouble, hx]
        rfl
      | bool b =>
        cases hk
        rw [Number.toDouble, hx]
        rfl
      | float y => cases hk
    rw [hreach]
    exact ⟨x, hdouble, steady_holds (Binary.ofInt_le hsmall hx) (by decide)⟩
  cases c with
  | BIT => cases hr
  | F32 =>
    cases hr
    obtain ⟨x, hx, hnarrow⟩ := h
    exact ⟨x, hx, fun hsteady => (by cases hsteady), Binary.narrow_isSome_iff.mp (hnarrow rfl)⟩
  | F64 =>
    cases hr
    obtain ⟨x, hx, -⟩ := h
    exact ⟨x, hx, fun hsteady => (by cases hsteady), fun hfinite => Nat.le_pred_of_lt (Binary.Double.isFinite_iff.mp hfinite)⟩
  | _ => exact hinteger rfl (by decide) (by decide) (by decide) (Option.some.inj hr).symm

end

section
variable {R : Type} {P : Platform R} {t : Double} {limit : ℕ} {types : Register → Option NetVarCType}
  {values : Register → Number} {cells : ℕ → Cell R} {r : Reach}

theorem keepsWalks_update {object : ℕ} {cell : Cell R} (h : IsDouble (cells object).value → IsDouble cell.value) :
    KeepsWalks cells (Function.update cells object cell) := by
  intro other hother
  by_cases he : other = object
  · subst he
    rw [Function.update_self]
    exact h hother
  · rw [Function.update_of_ne he]
    exact hother

/-- Where a walk goes, between the corridor's ends. -/
theorem clamped_le {low high : Double} (hl : low.isFinite = true) (hu : high.isFinite = true) (x : Double) :
    ∃ y : Double, (Number.float high).min ((Number.float low).max (.float x)) = .float y ∧
      y.magnitude ≤ max low.magnitude high.magnitude := by
  rw [Number.max, Number.min]
  split_ifs with habove hbelow hbelow
  · exact ⟨x, rfl, magnitude_between habove hbelow hl hu⟩
  · exact ⟨high, rfl, le_max_right _ _⟩
  · exact ⟨low, rfl, le_max_left _ _⟩
  · exact ⟨high, rfl, le_max_right _ _⟩

theorem Source.reach_yields {source : Source} (hP : Bounded P) (ht : t.magnitude ≤ limit) (hlimit : limit < Binary.infinity)
    (hvalues : ∀ register c, types register = some c → c.Accepts (values register))
    (hwalks : ∀ object, source.walk? = some object → IsDouble (cells object).value)
    (h : source.reach limit types = some r) :
    ∃ x cells', source.Yields P t values cells (.number (.float x)) cells' ∧ r.Holds x ∧ KeepsWalks cells cells' := by
  have hfinite {x : Double} (hx : x.isFinite = true) := Binary.Double.isFinite_iff.mp hx
  have hone : Binary.Double.one < Binary.infinity := by decide
  cases source <;>
    simp only [Source.reach, Option.bind_eq_bind, Option.bind_eq_some_iff, Option.pure_def, Option.some.injEq,
      finite?_eq_some, period?_eq_some, capped_eq_some, and_assoc, exists_eq_left] at h
  case constant value =>
    obtain ⟨x, rfl, hx, rfl⟩ := h
    exact ⟨x, cells, ⟨rfl, rfl⟩, steady_holds (le_refl _) (hfinite hx), .refl _⟩
  case sine amplitude period offset phase =>
    obtain ⟨a, rfl, ha, p, rfl, hp, hp0, o, rfl, ho, φ, rfl, hφ, hturn, hturns, hangle, hswing, hbound, rfl⟩ := h
    have hturn' := Binary.Double.mul_le (x := twoPi) (le_refl _) ht (by decide) hlimit
    have hturns' := Binary.Double.div_le hturn' hturn hp hp0
    have hangle' : (angleOf t p φ).isFinite = true :=
      Binary.Double.finite_of_le (Binary.Double.add_le hturns' (le_refl _) hturns (hfinite hφ)) hangle
    have hswing' := Binary.Double.mul_le (x := a) (le_refl _) (hP.sin _ hangle') (hfinite ha) hone
    have hbound' := Binary.Double.add_le (x := o) (le_refl _) hswing' (hfinite ho) hswing
    exact ⟨_, cells, ⟨a, p, o, φ, denotes_double a, denotes_double p, denotes_double o, denotes_double φ, hp0,
      (Binary.Double.finite_parts hangle').2, rfl, rfl⟩, steady_holds hbound' hbound, .refl _⟩
  case sawtooth period low high =>
    obtain ⟨p, rfl, hp, hp0, l, rfl, hl, u, rfl, hu, hwidth, hclimb, hbound, rfl⟩ := h
    have hwidth' := Binary.Double.sub_le (x := u) (y := l) (le_refl _) (le_refl _) (hfinite hu) (hfinite hl)
    have hclimb' := Binary.Double.mul_le hwidth'
      (Binary.Double.fraction_le (Binary.Double.finite_of_le ht hlimit) hp hp0) hwidth hone
    have hbound' := Binary.Double.add_le (x := l) (le_refl _) hclimb' (hfinite hl) hclimb
    exact ⟨_, cells, ⟨p, _, _, _, _, denotes_double p, hp0, rfl, rfl, span_doubles l u, rfl, rfl⟩,
      steady_holds hbound' hbound, .refl _⟩
  case square period low high duty =>
    obtain ⟨p, rfl, hp, hp0, l, rfl, hl, u, rfl, hu, d, rfl, hd, rfl⟩ := h
    have hmax : max l.magnitude u.magnitude < Binary.infinity := max_lt (hfinite hl) (hfinite hu)
    refine ⟨if (Number.float (fractionOf t p)).lt (.float d) then u else l, cells, ⟨p, _, denotes_double p, hp0, rfl, ?_, rfl⟩,
      steady_holds ?_ hmax, .refl _⟩
    · split <;> rfl
    · split
      · exact le_max_right _ _
      · exact le_max_left _ _
  case ramp rate start =>
    obtain ⟨a, rfl, ha, s, rfl, hs, hclimb, hbound, rfl⟩ := h
    have hclimb' := Binary.Double.mul_le (x := a) (le_refl _) ht (hfinite ha) hlimit
    have hbound' := Binary.Double.add_le (x := s) (le_refl _) hclimb' (hfinite hs) hclimb
    exact ⟨_, cells, ⟨a, s, denotes_double a, denotes_double s, rfl, rfl⟩, steady_holds hbound' hbound, .refl _⟩
  case noise object amplitude =>
    obtain ⟨a, rfl, ha, hwidth, hclimb, hbound, rfl⟩ := h
    have hneg : a.neg.magnitude ≤ a.magnitude := (Binary.Double.magnitude_neg a).le
    have hwidth' := Binary.Double.sub_le (x := a) (y := a.neg) (le_refl _) hneg (hfinite ha) (hfinite ha)
    have hclimb' := Binary.Double.mul_le hwidth' (hP.random (cells object).rng) hwidth hone
    have hbound' := Binary.Double.add_le hneg hclimb' (hfinite ha) hclimb
    exact ⟨_, drawn P object cells, ⟨.float a, _, _, rfl, span_doubles a.neg a, rfl, rfl⟩, steady_holds hbound' hbound,
      keepsWalks_update id⟩
  case randomWalk object step low high =>
    obtain ⟨s, rfl, hs, l, rfl, hl, u, rfl, hu, rfl⟩ := h
    obtain ⟨x, hx⟩ := hwalks object rfl
    have hmax : max l.magnitude u.magnitude < Binary.infinity := max_lt (hfinite hl) (hfinite hu)
    obtain ⟨y, hy, hbound⟩ := clamped_le hl hu (x.add (draw P object cells s.neg (s.sub s.neg)))
    exact ⟨y, Function.update cells object ⟨.number (.float y), (P.random (cells object).rng).2⟩,
      ⟨.float s, _, _, x, _, _, rfl, span_doubles s.neg s, ⟨_, hx, rfl⟩, rfl, rfl, congrArg PyValue.number hy.symm, rfl⟩,
      steady_holds hbound hmax, keepsWalks_update (fun _ => ⟨y, rfl⟩)⟩
  case follow target =>
    obtain ⟨c, hc, hr⟩ := h
    obtain ⟨x, hx, hholds⟩ := reach_of_accepts (hvalues target c hc) hr
    exact ⟨x, cells, ⟨x, hx, rfl, rfl⟩, hholds, .refl _⟩

end

/-! ## Sums -/

/-- A running total within the bounds. -/
def Collected : Option (Reach × ℕ) → PartialSum → Prop
  | none, acc => acc = .start
  | some (high, low), acc => ∃ x y, acc = .compensated x y ∧ high.Holds x ∧ (x.isFinite = true → y.magnitude ≤ low)

section
variable {R : Type} {P : Platform R} {t : Double} {limit : ℕ} {types : Register → Option NetVarCType}
  {values : Register → Number} {cells : ℕ → Cell R} {r : Reach} {x : Double}

theorem holds_add {high : Reach} {y : Double} (hx : high.Holds x) (hy : r.Holds y)
    (hbound : plus high.bound r.bound < Binary.infinity) :
    (⟨plus high.bound r.bound, high.steady && r.steady⟩ : Reach).Holds (x.add y) := by
  obtain ⟨hlow, hhigh⟩ := Binary.Double.lt_of_plus hbound
  have hadd (hxf : x.isFinite = true) (hyf : y.isFinite = true) :=
    Binary.Double.add_le (hx.2 hxf) (hy.2 hyf) hlow hhigh
  constructor
  · intro hsteady
    obtain ⟨hsteadyx, hsteadyy⟩ := Bool.and_eq_true_iff.mp hsteady
    exact Binary.Double.finite_of_le (hadd (hx.1 hsteadyx) (hy.1 hsteadyy)) hbound
  · intro hfinite
    obtain ⟨hxf, hyf⟩ := Binary.Double.finite_of_add hfinite
    exact hadd hxf hyf

theorem add_collected {acc : Option (Reach × ℕ)} {s : PartialSum} {next : Reach × ℕ} (hs : Collected acc s)
    (hx : r.Holds x) (h : addReach acc r = some next) :
    ∃ s', s.add (.float x) = .ok s' ∧ Collected (some next) s' := by
  cases acc with
  | none =>
    simp only [addReach, Option.bind_eq_bind, Option.bind_eq_some_iff, capped_eq_some, Option.pure_def, and_assoc,
      exists_eq_left, Option.some.injEq] at h
    obtain ⟨hbound, rfl⟩ := h
    cases hs
    have hzero : (⟨0, true⟩ : Reach).Holds (Binary.double 0 0) := steady_holds (by decide) (by decide)
    refine ⟨.compensated ((Binary.double 0 0).add x) (Binary.double 0 0), rfl, _, _, rfl, ?_, fun _ => (by decide)⟩
    have hadd := holds_add hzero hx hbound
    rwa [Bool.true_and] at hadd
  | some sums =>
    obtain ⟨high, low⟩ := sums
    simp only [addReach, Option.bind_eq_bind, Option.bind_eq_some_iff, capped_eq_some, Option.pure_def, and_assoc,
      exists_eq_left, Option.some.injEq] at h
    obtain ⟨hbound, htwice, hlost, hlow, rfl⟩ := h
    obtain ⟨y, e, rfl, hy, he⟩ := hs
    refine ⟨_, rfl, _, _, rfl, holds_add hy hx hbound, fun hsum => ?_⟩
    obtain ⟨hyf, hxf⟩ := Binary.Double.finite_of_add hsum
    refine Binary.Double.add_le (he hyf) ?_ (Binary.Double.lt_of_plus hlow).1 hlost
    split_ifs with horder
    · exact Binary.Double.lost_le hyf (hx.2 hxf) hsum htwice
    · -- the other operand is the smaller one
      have hsmall : y.magnitude ≤ r.bound := by
        simp only [Binary.Double.finite_parts hyf, Binary.Double.finite_parts hxf, Bool.not_false, Bool.and_self,
          Bool.true_and, decide_eq_true_eq, not_le] at horder
        exact horder.le.trans (hx.2 hxf)
      rw [Binary.Double.add_comm_of_finite hyf hxf] at hsum ⊢
      exact Binary.Double.lost_le hxf hsmall hsum htwice

theorem total_collected {high : Reach} {low : ℕ} {s : PartialSum} (hs : Collected (some (high, low)) s)
    (hbound : plus high.bound low < Binary.infinity) :
    ∃ x, s.total = .float x ∧ (⟨plus high.bound low, high.steady⟩ : Reach).Holds x := by
  obtain ⟨x, e, rfl, hx, he⟩ := hs
  obtain ⟨hhigh, hlow⟩ := Binary.Double.lt_of_plus hbound
  refine ⟨_, rfl, ?_⟩
  have hadd (hxf : x.isFinite = true) := Binary.Double.add_le (hx.2 hxf) (he hxf) hhigh hlow
  split_ifs with hlost
  · exact ⟨fun hsteady => Binary.Double.finite_of_le (hadd (hx.1 hsteady)) hbound,
      fun hfinite => hadd (Binary.Double.finite_of_add hfinite).1⟩
  · exact ⟨hx.1, fun hfinite => (hx.2 hfinite).trans (Binary.Double.le_plus_left hhigh.le)⟩

theorem walks_append {first second : List Source} :
    Walks cells (first ++ second) ↔ Walks cells first ∧ Walks cells second := by
  rw [Walks, List.filterMap_append]
  exact List.forall_mem_append

theorem Walks.keep {cells' : ℕ → Cell R} {sources : List Source} (h : Walks cells sources) (hkeeps : KeepsWalks cells cells') :
    Walks cells' sources := fun object hobject => hkeeps object (h object hobject)

/-- A signal with bounds yields a sample within them. -/
theorem reach_yields (hP : Bounded P) (ht : t.magnitude ≤ limit) (hlimit : limit < Binary.infinity)
    (hvalues : ∀ register c, types register = some c → c.Accepts (values register)) {signal : Signal Source}
    (h : signal.reach limit types = some r) (hwalks : Walks cells signal.sources) :
    ∃ x cells', signal.Yields P t values cells (.number (.float x)) cells' ∧ r.Holds x ∧ KeepsWalks cells cells' := by
  revert cells r
  apply Signal.induction
    (P := fun signal => ∀ {cells : ℕ → Cell R} {r : Reach}, signal.reach limit types = some r →
      Walks cells signal.sources → ∃ x cells', signal.Yields P t values cells (.number (.float x)) cells' ∧ r.Holds x ∧
        KeepsWalks cells cells')
    (Q := fun terms => ∀ {cells : ℕ → Cell R} {acc acc' : Option (Reach × ℕ)} {s : PartialSum},
      termsReach limit types acc terms = some acc' → Walks cells (termSources terms) → Collected acc s →
        ∃ s' cells', TermsYield P t values terms s cells s' cells' ∧ Collected acc' s' ∧ KeepsWalks cells cells')
  · intro source cells r h hwalks
    refine source.reach_yields hP ht hlimit hvalues (fun object hobject => hwalks object ?_) h
    rw [Signal.sources, List.mem_filterMap]
    exact ⟨source, List.mem_singleton_self _, hobject⟩
  · intro terms ih cells r h hwalks
    simp only [Signal.reach, Option.bind_eq_bind, Option.bind_eq_some_iff, capped_eq_some, Option.pure_def, and_assoc,
      exists_eq_left, Option.some.injEq] at h
    obtain ⟨acc, hterms, ⟨high, low⟩, rfl, hbound, rfl⟩ := h
    obtain ⟨s, cells', hyields, hcollected, hkeeps⟩ := ih (s := .start) hterms hwalks rfl
    obtain ⟨x, htotal, hholds⟩ := total_collected hcollected hbound
    exact ⟨x, cells', ⟨s, hyields, by rw [htotal]⟩, hholds, hkeeps⟩
  · intro cells acc acc' s h _ hs
    cases h
    exact ⟨s, cells, ⟨rfl, rfl⟩, hs, .refl _⟩
  · intro term terms hterm hterms cells acc acc' s h hwalks hs
    simp only [termsReach, Option.bind_eq_bind, Option.bind_eq_some_iff] at h
    obtain ⟨r, hr, next, hnext, hrest⟩ := h
    rw [termSources, walks_append] at hwalks
    obtain ⟨x, cells₁, hyields, hholds, hkeeps⟩ := hterm hr hwalks.1
    obtain ⟨s₁, hadd, hs₁⟩ := add_collected hs hholds hnext
    obtain ⟨s', cells', hmore, hs', hkeeps'⟩ := hterms hrest (hwalks.2.keep hkeeps) hs₁
    exact ⟨s', cells', ⟨.float x, cells₁, s₁, hyields, hadd, hmore⟩, hs', hkeeps.trans hkeeps'⟩

end
end Tstlan.Simulation
