import Mathlib.Algebra.Order.Field.Rat
import Mathlib.Data.Nat.Cast.Order.Field
import Mathlib.Order.Monotone.Basic
import Mathlib.Tactic.Linarith
import Tstlan.Foundations.Ieee

/-! # Rounding of the doubles is monotone

`nearest` gives the pattern whose magnitude is closest to the exact fraction. From this alone follow bounds for the
operations: the same operations on bounds of the operands bound the result. -/
namespace Foundations.Binary
set_option autoImplicit false

/-! ## Magnitudes -/

/-- The magnitude of a pattern in units. -/
def unitsOf (m : ℕ) : ℕ :=
  if m / 2 ^ 52 = 0 then m % 2 ^ 52 else (2 ^ 52 + m % 2 ^ 52) * 2 ^ (m / 2 ^ 52 - 1)

theorem Double.units_eq (x : Double) : x.units = unitsOf x.magnitude := rfl

/-- A significand next to an exponent; the largest significand carries into the exponent. -/
theorem unitsOf_pattern {s q : ℕ} (hq : q ≤ 2 ^ 53) (hs : s = 0 ∨ 2 ^ 52 ≤ q) :
    unitsOf (s * 2 ^ 52 + q) = q * 2 ^ s := by
  rw [unitsOf]
  by_cases hsmall : q < 2 ^ 52
  · have hzero : s = 0 := by omega
    subst hzero
    rw [if_pos (by omega)]
    omega
  · by_cases hfull : q < 2 ^ 53
    · have hexp : (s * 2 ^ 52 + q) / 2 ^ 52 = s + 1 := by omega
      have hfrac : 2 ^ 52 + (s * 2 ^ 52 + q) % 2 ^ 52 = q := by omega
      rw [hexp, hfrac, if_neg (Nat.succ_ne_zero s), Nat.add_sub_cancel]
    · have hexp : (s * 2 ^ 52 + q) / 2 ^ 52 = s + 2 := by omega
      have hfrac : 2 ^ 52 + (s * 2 ^ 52 + q) % 2 ^ 52 = 2 ^ 52 := by omega
      have hcarry : q = 2 ^ 52 * 2 := by omega
      rw [hexp, hfrac, if_neg (Nat.succ_ne_zero _), hcarry, Nat.add_sub_assoc (by decide), pow_succ]
      ring

theorem exists_pattern (m : ℕ) : ∃ s q, m = s * 2 ^ 52 + q ∧ q < 2 ^ 53 ∧ (s = 0 ∨ 2 ^ 52 ≤ q) := by
  by_cases hm : m < 2 ^ 52
  · exact ⟨0, m, by omega, by omega, .inl rfl⟩
  · exact ⟨m / 2 ^ 52 - 1, 2 ^ 52 + m % 2 ^ 52, by omega, by omega, .inr (by omega)⟩

theorem unitsOf_strictMono : StrictMono unitsOf := by
  apply strictMono_nat_of_lt_succ
  intro m
  obtain ⟨s, q, rfl, hq, hs⟩ := exists_pattern m
  rw [unitsOf_pattern hq.le hs, Nat.add_assoc, unitsOf_pattern (by omega) (by omega)]
  exact Nat.mul_lt_mul_of_pos_right (Nat.lt_succ_self q) (Nat.two_pow_pos s)

theorem unitsOf_le {a b : ℕ} : unitsOf a ≤ unitsOf b ↔ a ≤ b := unitsOf_strictMono.le_iff_le

/-! ## The closest pattern -/

/-- No multiple of `d` is closer to `n` than that of the rounded quotient. -/
theorem roundQuotient_closest (n : ℕ) {d : ℕ} (hd : 0 < d) (k : ℕ) :
    |(roundQuotient n d * d : ℚ) - n| ≤ |(k * d : ℚ) - n| := by
  have hsplit : (n : ℚ) = (n / d : ℕ) * d + (n % d : ℕ) := by
    exact_mod_cast (Nat.div_add_mod' n d).symm
  have hrest : ((n % d : ℕ) : ℚ) < d := by exact_mod_cast Nat.mod_lt n hd
  have hnonneg : (0 : ℚ) ≤ (n % d : ℕ) := Nat.cast_nonneg _
  have hpos : (0 : ℚ) < d := by exact_mod_cast hd
  -- the other multiples are below the quotient or above its successor
  have hother : ((n % d : ℕ) : ℚ) ≤ |(k * d : ℚ) - n| ∨ (d : ℚ) - (n % d : ℕ) ≤ |(k * d : ℚ) - n| := by
    rcases Nat.lt_or_ge (n / d) k with hk | hk
    · right
      have hmul : ((n / d : ℕ) + 1 : ℚ) * d ≤ k * d :=
        mul_le_mul_of_nonneg_right (by exact_mod_cast hk) hpos.le
      exact (by linarith : (d : ℚ) - (n % d : ℕ) ≤ k * d - n).trans (le_abs_self _)
    · left
      have hmul : (k : ℚ) * d ≤ (n / d : ℕ) * d := mul_le_mul_of_nonneg_right (by exact_mod_cast hk) hpos.le
      exact (by linarith : ((n % d : ℕ) : ℚ) ≤ -(k * d - n)).trans (neg_le_abs _)
  have hdown : |((n / d : ℕ) * d : ℚ) - n| = (n % d : ℕ) := by
    rw [hsplit, sub_add_cancel_left, abs_neg, abs_of_nonneg hnonneg]
  have hup : |((n / d + 1 : ℕ) * d : ℚ) - n| = d - (n % d : ℕ) := by
    rw [Nat.cast_add, Nat.cast_one, add_mul, one_mul, hsplit, add_sub_add_left_eq_sub, abs_of_nonneg (by linarith)]
  have hhalf (h : 2 * (n % d) ≤ d) : (2 * (n % d : ℕ) : ℚ) ≤ d := by exact_mod_cast h
  have hhalf' (h : d ≤ 2 * (n % d)) : (d : ℚ) ≤ 2 * (n % d : ℕ) := by exact_mod_cast h
  have hlow (h : 2 * (n % d) ≤ d) : |((n / d : ℕ) * d : ℚ) - n| ≤ |(k * d : ℚ) - n| := by
    rw [hdown]
    exact hother.elim id (fun hk => by linarith [hhalf h])
  have hhigh (h : d ≤ 2 * (n % d)) : |((n / d + 1 : ℕ) * d : ℚ) - n| ≤ |(k * d : ℚ) - n| := by
    rw [hup]
    exact hother.elim (fun hk => by linarith [hhalf' h]) id
  rw [roundQuotient]
  split_ifs with hlt hgt
  · exact hlow hlt.le
  · exact hhigh hgt.le
  · rcases Nat.mod_two_eq_zero_or_one (n / d) with heven | hodd
    · rw [heven, Nat.add_zero]
      exact hlow (by omega)
    · rw [hodd]
      exact hhigh (by omega)

/-- The pattern before it is cut off at infinity. -/
def rounded (n d : ℕ) : ℕ :=
  (Nat.log2 (n / d) - 52) * 2 ^ 52 + roundQuotient n (d * 2 ^ (Nat.log2 (n / d) - 52))

theorem nearest_eq (n d : ℕ) : nearest n d = min (rounded n d) infinity := rfl

theorem roundQuotient_bounds (n d : ℕ) : n / d ≤ roundQuotient n d ∧ roundQuotient n d ≤ n / d + 1 := by
  rw [roundQuotient]
  split_ifs <;> omega

theorem rounded_parts (n d : ℕ) :
    let s := Nat.log2 (n / d) - 52
    roundQuotient n (d * 2 ^ s) ≤ 2 ^ 53 ∧ (s = 0 ∨ 2 ^ 52 ≤ n / (d * 2 ^ s)) := by
  intro s
  have hbounds := roundQuotient_bounds n (d * 2 ^ s)
  rw [← Nat.div_div_eq_div_mul] at hbounds ⊢
  constructor
  · have hlt : n / d < 2 ^ 53 * 2 ^ s := by
      calc n / d < 2 ^ (Nat.log2 (n / d) + 1) := Nat.lt_log2_self
        _ ≤ 2 ^ (53 + s) := Nat.pow_le_pow_right (by decide) (by omega)
        _ = 2 ^ 53 * 2 ^ s := pow_add ..
    have hdiv : n / d / 2 ^ s < 2 ^ 53 := Nat.div_lt_of_lt_mul (by rwa [Nat.mul_comm])
    omega
  · by_cases hzero : s = 0
    · exact .inl hzero
    · refine .inr ((Nat.le_div_iff_mul_le (Nat.two_pow_pos s)).mpr ?_)
      have hpos : n / d ≠ 0 := by
        intro h
        rw [show s = Nat.log2 (n / d) - 52 from rfl, h] at hzero
        exact hzero rfl
      calc 2 ^ 52 * 2 ^ s = 2 ^ (52 + s) := (pow_add ..).symm
        _ = 2 ^ Nat.log2 (n / d) := by congr 1; omega
        _ ≤ n / d := Nat.log2_self_le hpos

theorem unitsOf_rounded (n d : ℕ) :
    unitsOf (rounded n d) =
      roundQuotient n (d * 2 ^ (Nat.log2 (n / d) - 52)) * 2 ^ (Nat.log2 (n / d) - 52) := by
  obtain ⟨hle, hs⟩ := rounded_parts n d
  exact unitsOf_pattern hle (hs.imp id (fun h => h.trans (roundQuotient_bounds ..).1))

/-- No pattern is closer to the fraction. -/
theorem rounded_closest (n : ℕ) {d : ℕ} (hd : 0 < d) (m : ℕ) :
    |(unitsOf (rounded n d) : ℚ) - n / d| ≤ |(unitsOf m : ℚ) - n / d| := by
  have hpos : (0 : ℚ) < d := by exact_mod_cast hd
  have hscale (x : ℚ) : |x - n / d| * d = |x * d - n| := by
    calc |x - n / d| * d = |x - n / d| * |(d : ℚ)| := by rw [abs_of_pos hpos]
      _ = |(x - n / d) * d| := (abs_mul ..).symm
      _ = |x * d - n| := by rw [sub_mul, div_mul_cancel₀ _ hpos.ne']
  apply le_of_mul_le_mul_right _ hpos
  rw [hscale, hscale, unitsOf_rounded]
  obtain ⟨-, hs⟩ := rounded_parts n d
  generalize Nat.log2 (n / d) - 52 = s at hs ⊢
  have hclosest (k : ℕ) := roundQuotient_closest n (Nat.mul_pos hd (Nat.two_pow_pos s)) k
  push_cast at hclosest ⊢
  obtain ⟨s', q, rfl, hq, hs'⟩ := exists_pattern m
  rw [unitsOf_pattern hq.le hs']
  have hcomm (a b : ℚ) : a * b * d = a * (d * b) := by ring
  rw [hcomm]
  rcases Nat.lt_or_ge s' s with hlt | hge
  · -- below the binade of the fraction the boundary of the binade is closer
    have hbinade : 2 ^ 52 * (d * 2 ^ s) ≤ n := by
      have hone := hs.resolve_left (by omega)
      exact (Nat.le_div_iff_mul_le (Nat.mul_pos hd (Nat.two_pow_pos s))).mp hone
    have hbelow : q * 2 ^ s' ≤ 2 ^ 52 * 2 ^ s := by
      calc q * 2 ^ s' ≤ 2 ^ 53 * 2 ^ s' := Nat.mul_le_mul_right _ hq.le
        _ = 2 ^ 52 * 2 ^ (s' + 1) := by rw [pow_succ 2 s']; ring
        _ ≤ 2 ^ 52 * 2 ^ s := Nat.mul_le_mul_left _ (Nat.pow_le_pow_right (by decide) hlt)
    have hbinade' : ((2 ^ 52 : ℕ) : ℚ) * (d * 2 ^ s) ≤ n := by exact_mod_cast hbinade
    have hscaled : q * 2 ^ s' * d ≤ 2 ^ 52 * (d * 2 ^ s) := by
      calc q * 2 ^ s' * d ≤ 2 ^ 52 * 2 ^ s * d := Nat.mul_le_mul_right d hbelow
        _ = 2 ^ 52 * (d * 2 ^ s) := by ring
    have hbelow' : ((q * 2 ^ s' : ℕ) : ℚ) * d ≤ (2 ^ 52 : ℕ) * (d * 2 ^ s) := by exact_mod_cast hscaled
    refine (hclosest (2 ^ 52)).trans ?_
    rw [abs_of_nonpos (by linarith), abs_of_nonpos (by linarith)]
    linarith
  · have hmultiple : ((q * 2 ^ s' : ℕ) : ℚ) * d = ((q * 2 ^ (s' - s) : ℕ) : ℚ) * (d * 2 ^ s) := by
      have hpow : 2 ^ s' = 2 ^ (s' - s) * 2 ^ s := by rw [← pow_add]; congr 1; omega
      rw [hpow]
      push_cast
      ring
    rw [hmultiple]
    exact hclosest _

section
variable {n n' d m : ℕ}

/-- A fraction up to the magnitude of a pattern rounds to that pattern at most. -/
theorem rounded_le (hd : 0 < d) (h : n ≤ unitsOf m * d) : rounded n d ≤ m := by
  have hpos : (0 : ℚ) < d := by exact_mod_cast hd
  have hle : (n / d : ℚ) ≤ unitsOf m := (div_le_iff₀ hpos).mpr (by exact_mod_cast h)
  have hclosest := rounded_closest n hd m
  rw [abs_of_nonneg (sub_nonneg.mpr hle)] at hclosest
  have hself := le_abs_self ((unitsOf (rounded n d) : ℚ) - n / d)
  have hunits : (unitsOf (rounded n d) : ℚ) ≤ unitsOf m := by linarith
  exact unitsOf_le.mp (by exact_mod_cast hunits)

theorem le_rounded (hd : 0 < d) (h : unitsOf m * d ≤ n) : m ≤ rounded n d := by
  have hpos : (0 : ℚ) < d := by exact_mod_cast hd
  have hle : (unitsOf m : ℚ) ≤ n / d := (le_div_iff₀ hpos).mpr (by exact_mod_cast h)
  have hclosest := rounded_closest n hd m
  rw [abs_of_nonpos (sub_nonpos.mpr hle)] at hclosest
  have hself := neg_abs_le ((unitsOf (rounded n d) : ℚ) - n / d)
  have hunits : (unitsOf m : ℚ) ≤ unitsOf (rounded n d) := by linarith
  exact unitsOf_le.mp (by exact_mod_cast hunits)

/-- What is closer to the larger of two numbers lies beyond their middle. -/
theorem middle_le {u u' a : ℚ} (hlt : u' < u) (h : |u - a| ≤ |u' - a|) : u + u' ≤ 2 * a := by
  have hsq := sq_le_sq.mpr h
  by_contra hgt
  nlinarith

theorem le_middle {u u' a : ℚ} (hlt : u' < u) (h : |u' - a| ≤ |u - a|) : 2 * a ≤ u + u' := by
  have hsq := sq_le_sq.mpr h
  by_contra hgt
  nlinarith

theorem rounded_mono (hd : 0 < d) (h : n ≤ n') : rounded n d ≤ rounded n' d := by
  rcases h.eq_or_lt with rfl | hlt
  · exact le_refl _
  · by_contra hgt
    have hpos : (0 : ℚ) < d := by exact_mod_cast hd
    have hunits : (unitsOf (rounded n' d) : ℚ) < unitsOf (rounded n d) := by
      exact_mod_cast unitsOf_strictMono (not_le.mp hgt)
    have hlow := middle_le hunits (rounded_closest n hd (rounded n' d))
    have hhigh := le_middle hunits (rounded_closest n' hd (rounded n d))
    have hless : (n / d : ℚ) < n' / d := (div_lt_div_iff_of_pos_right hpos).mpr (by exact_mod_cast hlt)
    linarith

theorem nearest_mono (hd : 0 < d) (h : n ≤ n') : nearest n d ≤ nearest n' d :=
  min_le_min_right _ (rounded_mono hd h)

theorem nearest_le (hd : 0 < d) (h : n ≤ unitsOf m * d) : nearest n d ≤ m :=
  (min_le_left ..).trans (rounded_le hd h)

theorem le_nearest (hd : 0 < d) (hm : m ≤ infinity) (h : unitsOf m * d ≤ n) : m ≤ nearest n d :=
  le_min (le_rounded hd h) hm

theorem nearest_lt (n d : ℕ) : nearest n d < 2 ^ 63 :=
  (min_le_right ..).trans_lt (by decide)

theorem nearest_eq_rounded (h : nearest n d < infinity) : nearest n d = rounded n d := by
  rw [nearest_eq] at h ⊢
  exact min_eq_left (by omega)

/-- Among the integers of units. -/
theorem rounded_closest_int (n m : ℕ) : |(unitsOf (rounded n 1) : ℤ) - n| ≤ |(unitsOf m : ℤ) - n| := by
  have hclosest := rounded_closest n Nat.one_pos m
  rw [Nat.cast_one, div_one] at hclosest
  exact_mod_cast hclosest

end

/-! ## The operations -/

namespace Double
variable {x y z : Double} {a b : ℕ}

theorem isFinite_iff : x.isFinite = true ↔ x.magnitude < infinity := decide_eq_true_iff

theorem finite_of_le (h : x.magnitude ≤ a) (ha : a < infinity) : x.isFinite = true := isFinite_iff.mpr (h.trans_lt ha)

theorem magnitude_lt (x : Double) : x.magnitude < 2 ^ 63 := Nat.mod_lt _ (by decide)

theorem sign_lt (x : Double) : x.sign < 2 := by
  have hx := x.isLt
  rw [sign]
  omega

theorem magnitude_neg (x : Double) : x.neg.magnitude = x.magnitude := double_magnitude x.magnitude_lt

theorem scaled_double {s m : ℕ} (hs : s < 2) (hm : m < 2 ^ 63) :
    (double s m : Double).scaled = if s = 0 then (unitsOf m : ℤ) else -(unitsOf m : ℤ) := by
  rw [scaled, units_eq, double_sign hs hm, double_magnitude hm]

theorem scaled_neg (x : Double) : x.neg.scaled = -x.scaled := by
  have hs := x.sign_lt
  rw [neg, scaled_double (by omega) x.magnitude_lt, scaled, units_eq]
  by_cases hzero : x.sign = 0
  · rw [if_neg (by omega), if_pos hzero]
  · rw [if_pos (by omega), if_neg hzero, neg_neg]

theorem abs_scaled (x : Double) : |x.scaled| = x.units := by
  rw [scaled]
  split_ifs
  · exact abs_of_nonneg (Int.natCast_nonneg _)
  · rw [abs_neg]
    exact abs_of_nonneg (Int.natCast_nonneg _)

theorem finite_parts (h : x.isFinite = true) : x.isNaN = false ∧ x.isInf = false := by
  have hlt := isFinite_iff.mp h
  exact ⟨decide_eq_false (by omega), decide_eq_false hlt.ne⟩

theorem add_of_finite (hx : x.isFinite = true) (hy : y.isFinite = true) :
    x.add y = if x.scaled + y.scaled = 0 then double (min x.sign y.sign) 0
      else double (if x.scaled + y.scaled < 0 then 1 else 0) (nearest (x.scaled + y.scaled).natAbs 1) := by
  rw [add]
  simp [finite_parts hx, finite_parts hy]

theorem magnitude_add (hx : x.isFinite = true) (hy : y.isFinite = true) :
    (x.add y).magnitude = nearest (x.scaled + y.scaled).natAbs 1 := by
  rw [add_of_finite hx hy]
  split_ifs with hzero
  · rw [double_magnitude (by decide), hzero]
    decide
  all_goals exact double_magnitude (nearest_lt ..)

theorem not_finite_of_isInf (h : x.isInf = true) : x.isFinite = false := by
  simp only [isInf, isFinite, decide_eq_true_eq, decide_eq_false_iff_not] at h ⊢
  omega

theorem finite_of_not (hnan : x.isNaN ≠ true) (hinf : x.isInf ≠ true) : x.isFinite = true := by
  simp only [isNaN, isInf, isFinite, ne_eq, decide_eq_true_eq] at hnan hinf ⊢
  omega

theorem finite_of_add (h : (x.add y).isFinite = true) : x.isFinite = true ∧ y.isFinite = true := by
  have hnan : nan.isFinite = false := by decide
  rw [add] at h
  split_ifs at h with hany hx hopposite hy
  · rw [hnan] at h
    cases h
  · rw [hnan] at h
    cases h
  · rw [not_finite_of_isInf hx] at h
    cases h
  · rw [not_finite_of_isInf hy] at h
    cases h
  all_goals
    simp only [Bool.or_eq_true, not_or] at hany
    exact ⟨finite_of_not hany.1 hx, finite_of_not hany.2 hy⟩

/-- No double is closer to the exact sum. -/
theorem add_closest (hx : x.isFinite = true) (hy : y.isFinite = true) (h : (x.add y).isFinite = true) (z : Double) :
    |(x.add y).scaled - (x.scaled + y.scaled)| ≤ |z.scaled - (x.scaled + y.scaled)| := by
  have hlt := isFinite_iff.mp h
  rw [magnitude_add hx hy] at hlt
  rw [add_of_finite hx hy]
  generalize x.scaled + y.scaled = n at hlt ⊢
  have hzero : unitsOf 0 = 0 := by decide
  have hclosest := rounded_closest_int n.natAbs z.magnitude
  have habs : |(z.units : ℤ) - n.natAbs| ≤ |z.scaled - n| := by
    rw [← abs_scaled, Int.natCast_natAbs]
    exact abs_abs_sub_abs_le _ _
  split_ifs with hn hneg
  · rw [hn, scaled, units_eq, double_magnitude (by decide), hzero]
    simp
  · rw [scaled_double (by decide) (nearest_lt ..), if_neg (by decide), nearest_eq_rounded hlt]
    have hflip : -(unitsOf (rounded n.natAbs 1) : ℤ) - n = -((unitsOf (rounded n.natAbs 1) : ℤ) - n.natAbs) := by omega
    rw [hflip, abs_neg]
    exact hclosest.trans habs
  · rw [scaled_double (by decide) (nearest_lt ..), if_pos rfl, nearest_eq_rounded hlt]
    have hsame : (unitsOf (rounded n.natAbs 1) : ℤ) - n = (unitsOf (rounded n.natAbs 1) : ℤ) - n.natAbs := by omega
    rw [hsame]
    exact hclosest.trans habs

/-! ## Bounds -/

/-- The magnitude of a sum of two doubles of these magnitudes and of one sign. -/
def plus (a b : ℕ) : ℕ := nearest (unitsOf a + unitsOf b) 1

def times (a b : ℕ) : ℕ := nearest (unitsOf a * unitsOf b) (2 ^ 1074)

def ratio (a b : ℕ) : ℕ := nearest (unitsOf a * 2 ^ 1074) (unitsOf b)

/-- The magnitude of `1.0`. -/
def one : ℕ := 1023 * 2 ^ 52

theorem unitsOf_one : unitsOf one = 2 ^ 1074 := by
  rw [show one = 1022 * 2 ^ 52 + 2 ^ 52 by decide, unitsOf_pattern (by decide) (.inr (le_refl _)), ← pow_add]

theorem units_le (h : x.magnitude ≤ a) : x.units ≤ unitsOf a := unitsOf_le.mpr h

theorem natAbs_scaled (x : Double) : x.scaled.natAbs = x.units := by
  have habs := x.abs_scaled
  rw [Int.abs_eq_natAbs] at habs
  exact_mod_cast habs

theorem le_plus_left (ha : a ≤ infinity) : a ≤ plus a b :=
  le_nearest Nat.one_pos ha (by omega)

theorem lt_of_plus (h : plus a b < infinity) : a < infinity ∧ b < infinity := by
  have hreach {m : ℕ} (hm : unitsOf m ≤ unitsOf a + unitsOf b) : m < infinity := by
    by_contra hge
    have hle := unitsOf_le.mpr (not_lt.mp hge)
    exact absurd h (not_lt.mpr (le_nearest Nat.one_pos (le_refl _) (by omega)))
  exact ⟨hreach (Nat.le_add_right ..), hreach (Nat.le_add_left ..)⟩

theorem add_comm_of_finite (hx : x.isFinite = true) (hy : y.isFinite = true) : x.add y = y.add x := by
  rw [add_of_finite hx hy, add_of_finite hy hx, Int.add_comm, Nat.min_comm]

theorem add_le (hx : x.magnitude ≤ a) (hy : y.magnitude ≤ b) (ha : a < infinity) (hb : b < infinity) :
    (x.add y).magnitude ≤ plus a b := by
  rw [magnitude_add (finite_of_le hx ha) (finite_of_le hy hb)]
  apply nearest_mono Nat.one_pos
  calc (x.scaled + y.scaled).natAbs ≤ x.scaled.natAbs + y.scaled.natAbs := Int.natAbs_add_le ..
    _ ≤ unitsOf a + unitsOf b := by
      rw [natAbs_scaled, natAbs_scaled]
      exact Nat.add_le_add (units_le hx) (units_le hy)

theorem sub_le (hx : x.magnitude ≤ a) (hy : y.magnitude ≤ b) (ha : a < infinity) (hb : b < infinity) :
    (x.sub y).magnitude ≤ plus a b :=
  add_le hx (by rwa [magnitude_neg]) ha hb

theorem mul_le (hx : x.magnitude ≤ a) (hy : y.magnitude ≤ b) (ha : a < infinity) (hb : b < infinity) :
    (x.mul y).magnitude ≤ times a b := by
  have hxf := finite_parts (finite_of_le hx ha)
  have hyf := finite_parts (finite_of_le hy hb)
  have hmul : x.mul y = double ((x.sign + y.sign) % 2) (nearest (x.units * y.units) (2 ^ 1074)) := by
    rw [mul]
    simp only [hxf, hyf, Bool.or_self, Bool.false_eq_true, if_false]
  rw [hmul, double_magnitude (nearest_lt ..)]
  exact nearest_mono (by positivity) (Nat.mul_le_mul (units_le hx) (units_le hy))

theorem finite_of_mul (h : (x.mul y).isFinite = true) : x.isFinite = true ∧ y.isFinite = true := by
  have hnan : nan.isFinite = false := by decide
  have hinf (s : ℕ) : (double s infinity).isFinite = false := by
    rw [isFinite, double_magnitude (by decide)]
    decide
  rw [mul] at h
  split_ifs at h with hany hinfinite hzero
  · rw [hnan] at h
    cases h
  · rw [hnan] at h
    cases h
  · rw [hinf] at h
    cases h
  · simp only [Bool.or_eq_true, not_or] at hany hinfinite
    exact ⟨finite_of_not hany.1 hinfinite.1, finite_of_not hany.2 hinfinite.2⟩

/-- Products with a positive factor keep the order. -/
theorem scaled_mul_le (hx : x.isFinite = true) (hy : y.isFinite = true) (hz : z.isFinite = true) (hsign : z.sign = 0)
    (h : x.scaled ≤ y.scaled) : (x.mul z).scaled ≤ (y.mul z).scaled := by
  have hmul {v : Double} (hv : v.isFinite = true) :
      (v.mul z).scaled = if v.sign = 0 then (unitsOf (nearest (v.units * z.units) (2 ^ 1074)) : ℤ)
        else -(unitsOf (nearest (v.units * z.units) (2 ^ 1074)) : ℤ) := by
    have hv' := v.sign_lt
    rw [mul]
    simp only [finite_parts hv, finite_parts hz, Bool.or_self, Bool.false_eq_true, if_false, hsign, Nat.add_zero]
    rw [Nat.mod_eq_of_lt hv', scaled_double hv' (nearest_lt ..)]
  have hmono {a b : ℕ} (hab : a ≤ b) :
      unitsOf (nearest (a * z.units) (2 ^ 1074)) ≤ unitsOf (nearest (b * z.units) (2 ^ 1074)) :=
    unitsOf_le.mpr (nearest_mono (by positivity) (Nat.mul_le_mul_right _ hab))
  rw [hmul hx, hmul hy]
  rw [scaled, scaled] at h
  split_ifs at h ⊢ with hxs hys hys
  · exact_mod_cast hmono (by omega)
  · -- two zeros
    have hzero : x.units ≤ y.units ∧ y.units ≤ x.units := by omega
    have hunits : x.units = 0 ∧ y.units = 0 := by omega
    rw [hunits.1, hunits.2, Nat.zero_mul]
    decide +kernel
  · omega
  · exact Int.neg_le_neg (by exact_mod_cast hmono (by omega))

theorem units_pos (h : x.isZero = false) : 0 < x.units := by
  have hzero : unitsOf 0 = 0 := by decide
  have hpos : 0 < x.magnitude := Nat.pos_of_ne_zero (of_decide_eq_false h)
  have hlt := unitsOf_strictMono hpos
  rwa [hzero] at hlt

theorem div_le (hx : x.magnitude ≤ a) (ha : a < infinity) (hy : y.isFinite = true) (hzero : y.isZero = false) :
    (x.div y).magnitude ≤ ratio a y.magnitude := by
  have hxf := finite_parts (finite_of_le hx ha)
  have hdiv : x.div y = double ((x.sign + y.sign) % 2) (nearest (x.units * 2 ^ 1074) y.units) := by
    rw [div]
    simp only [hxf, finite_parts hy, hzero, Bool.and_false, Bool.or_self, Bool.false_eq_true, if_false]
  rw [hdiv, double_magnitude (nearest_lt ..)]
  exact nearest_mono (units_pos hzero) (Nat.mul_le_mul_right _ (units_le hx))

/-- A remainder is smaller than the divisor. -/
theorem mod_le (hx : x.isFinite = true) (hy : y.isFinite = true) (hzero : y.isZero = false) :
    (x.mod y).magnitude ≤ y.magnitude := by
  have hsmall : (x.remainder y).magnitude ≤ y.magnitude := by
    have hrem : x.remainder y = double x.sign (nearest (x.units % y.units) 1) := by
      rw [remainder]
      simp only [finite_parts hx, finite_parts hy, hzero, Bool.or_self, Bool.false_eq_true, if_false]
    rw [hrem, double_magnitude (nearest_lt ..)]
    apply nearest_le Nat.one_pos
    rw [Nat.mul_one]
    exact (Nat.mod_lt _ (units_pos hzero)).le
  rw [mod]
  split_ifs with hrzero hsame
  · rw [double_magnitude (by decide)]
    exact Nat.zero_le _
  · exact hsmall
  · rw [magnitude_add (finite_of_le hsmall (isFinite_iff.mp hy)) hy]
    apply nearest_le Nat.one_pos
    have hle := units_le hsmall
    have hlt := (x.remainder y).sign_lt
    have hlt' := y.sign_lt
    -- the signs differ, so the sum is a difference
    rw [Nat.mul_one, scaled, scaled, ← units_eq]
    rw [← units_eq] at hle
    split_ifs <;> omega

/-- How far into a period. -/
theorem fraction_le (hx : x.isFinite = true) (hy : y.isFinite = true) (hzero : y.isZero = false) :
    ((x.mod y).div y).magnitude ≤ one := by
  refine (div_le (mod_le hx hy hzero) (isFinite_iff.mp hy) hy hzero).trans ?_
  apply nearest_le (units_pos hzero)
  rw [unitsOf_one, Nat.mul_comm]
  exact le_refl _

/-- What an addition lost of its second operand, found by subtracting again. -/
theorem lost_le (hx : x.isFinite = true) (hy : y.magnitude ≤ b) (hsum : (x.add y).isFinite = true)
    (hb : plus b b < infinity) : (((x.sub (x.add y)).add y).magnitude ≤ plus (plus b b) b) := by
  have hbfin := (lt_of_plus hb).1
  have hyf := finite_of_le hy hbfin
  have hdiff : (x.sub (x.add y)).magnitude ≤ plus b b := by
    rw [sub, magnitude_add hx (isFinite_iff.mpr (by rw [magnitude_neg]; exact isFinite_iff.mp hsum)), scaled_neg]
    apply nearest_mono Nat.one_pos
    have hclosest := add_closest hx hyf hsum x
    rw [sub_add_cancel_left, abs_neg, abs_scaled] at hclosest
    have hunits := units_le hy
    have hyabs := natAbs_scaled y
    rw [Int.abs_eq_natAbs] at hclosest
    omega
  exact add_le hdiff hy hb hbfin

end Double

/-! ## Conversions -/

/-- The double nearest to an integer, infinite beyond the largest. -/
def nearestInteger (n : ℤ) : Double := double (if n < 0 then 1 else 0) (nearest (n.natAbs * 2 ^ 1074) 1)

theorem nearest_unitsOf {m : ℕ} (hm : m ≤ infinity) : nearest (unitsOf m) 1 = m :=
  le_antisymm (nearest_le Nat.one_pos (Nat.mul_one _).ge) (le_nearest Nat.one_pos hm (Nat.mul_one _).le)

/-- Up to `2 ^ 53` every integer is a double. -/
theorem scaled_nearestInteger {n : ℤ} (h : n.natAbs ≤ 2 ^ 53) : (nearestInteger n).scaled = n * 2 ^ 1074 := by
  obtain ⟨m, hm, hunits⟩ : ∃ m ≤ infinity, unitsOf m = n.natAbs * 2 ^ 1074 := by
    by_cases hzero : n.natAbs = 0
    · exact ⟨0, by decide, by rw [hzero, Nat.zero_mul]; decide⟩
    · have hlow : 2 ^ Nat.log2 n.natAbs ≤ n.natAbs := Nat.log2_self_le hzero
      have hhigh : n.natAbs < 2 ^ (Nat.log2 n.natAbs + 1) := Nat.lt_log2_self
      have hlog : Nat.log2 n.natAbs < 54 := (Nat.log2_lt hzero).mpr (by omega)
      generalize hl : min (Nat.log2 n.natAbs) 52 = l
      have hle : n.natAbs * 2 ^ (52 - l) ≤ 2 ^ 53 := by
        by_cases hbig : Nat.log2 n.natAbs ≤ 52
        · rw [show l = Nat.log2 n.natAbs by omega]
          calc n.natAbs * 2 ^ (52 - Nat.log2 n.natAbs)
              ≤ 2 ^ (Nat.log2 n.natAbs + 1) * 2 ^ (52 - Nat.log2 n.natAbs) := Nat.mul_le_mul_right _ hhigh.le
            _ = 2 ^ 53 := by rw [← pow_add]; congr 1; omega
        · rw [show l = 52 by omega, Nat.sub_self, pow_zero, Nat.mul_one]
          exact h
      have hge : 2 ^ 52 ≤ n.natAbs * 2 ^ (52 - l) := by
        calc 2 ^ 52 = 2 ^ l * 2 ^ (52 - l) := by rw [← pow_add]; congr 1; omega
          _ ≤ n.natAbs * 2 ^ (52 - l) :=
            Nat.mul_le_mul_right _ ((Nat.pow_le_pow_right (by decide) (by omega)).trans hlow)
      refine ⟨(1022 + l) * 2 ^ 52 + n.natAbs * 2 ^ (52 - l), ?_, ?_⟩
      · rw [infinity]
        omega
      · rw [unitsOf_pattern hle (.inr hge), Nat.mul_assoc, ← pow_add]
        congr 2
        omega
  rw [nearestInteger, ← hunits, nearest_unitsOf hm, Double.scaled_double (by split <;> decide)
    (hm.trans_lt (by decide)), hunits, Nat.cast_mul, Int.natCast_natAbs, Nat.cast_pow, Nat.cast_ofNat]
  split_ifs with hneg hsign hsign
  · cases hsign
  · rw [abs_of_neg hneg, neg_mul, neg_neg]
  · rw [abs_of_nonneg (not_lt.mp hneg)]
  · exact absurd rfl hsign

/-- The largest magnitude that rounds to a finite single. -/
def singleLimit : ℕ := 1150 * 2 ^ 52 + (2 ^ 52 - 2 ^ 28 - 1)

/-- The doubles that a single can take: what is not finite, and the finite ones up to the limit. -/
theorem narrow_isSome_iff {x : Double} : (narrow x).isSome = true ↔ (x.isFinite = true → x.magnitude ≤ singleLimit) := by
  have hlt := x.magnitude_lt
  rw [Double.isFinite_iff, infinity, singleLimit, narrow, Option.isSome_map, narrowMagnitude]
  generalize Double.magnitude x = m at hlt
  have hround (k : ℕ) : roundEven (2 ^ 52 + m % 2 ^ 52) (29 + k) ≤ 2 ^ 24 := by
    have hpow : 2 ^ 29 ≤ 2 ^ (29 + k) := Nat.pow_le_pow_right (by decide) (by omega)
    have hdiv : (2 ^ 52 + m % 2 ^ 52) / 2 ^ (29 + k) ≤ (2 ^ 52 + m % 2 ^ 52) / 2 ^ 29 :=
      Nat.div_le_div_left hpow (by decide)
    have hle := roundEven_le (2 ^ 52 + m % 2 ^ 52) (29 + k)
    omega
  have hbound : roundEven (2 ^ 52 + m % 2 ^ 52) 29 ≤ 2 ^ 24 := hround 0
  have hleast : 2 ^ 23 ≤ roundEven (2 ^ 52 + m % 2 ^ 52) 29 := by
    rw [roundEven]
    split_ifs <;> omega
  -- in the last binade the midpoint rounds up
  have htop : roundEven (2 ^ 52 + m % 2 ^ 52) 29 < 2 ^ 24 ↔ m % 2 ^ 52 ≤ 2 ^ 52 - 2 ^ 28 - 1 := by
    rw [roundEven]
    split_ifs <;> omega
  split_ifs with hspecial hfrac hquiet hzero hnormal
  · exact ⟨fun _ => by omega, fun _ => rfl⟩
  · exact ⟨fun _ => by omega, fun _ => rfl⟩
  · exact ⟨fun _ => by omega, fun _ => rfl⟩
  · exact ⟨fun _ => by omega, fun _ => rfl⟩
  · simp only
    split_ifs with hpattern
    · exact ⟨fun _ => by omega, fun _ => rfl⟩
    · refine ⟨fun h => (by cases h), fun h => absurd ?_ hpattern⟩
      omega
  · have hbelow := hround (897 - m / 2 ^ 52)
    have hpattern : roundEven (2 ^ 52 + m % 2 ^ 52) (29 + (897 - m / 2 ^ 52)) < 255 * 2 ^ 23 := by omega
    simp only [if_pos hpattern, Option.isSome_some]
    exact ⟨fun _ => by omega, fun _ => trivial⟩

/-- The magnitude of `2.0 ** 64`. -/
def wordLimit : ℕ := 1087 * 2 ^ 52

theorem ofInt_le {n : ℤ} {x : Double} (h : n.natAbs ≤ 2 ^ 64) (hx : ofInt n = some x) : x.magnitude ≤ wordLimit := by
  rw [ofInt] at hx
  simp only at hx
  generalize n.natAbs = m at h hx
  generalize (if n < 0 then 1 else 0) = s at hx
  split_ifs at hx with hzero hsmall hfits hfits
  · cases hx
    rw [double_magnitude (by decide)]
    exact Nat.zero_le _
  · cases hx
    have hup : m < 2 ^ (Nat.log2 m + 1) := Nat.lt_log2_self
    have hsignificand : m * 2 ^ (52 - Nat.log2 m) ≤ 2 ^ 53 := by
      calc m * 2 ^ (52 - Nat.log2 m) ≤ 2 ^ (Nat.log2 m + 1) * 2 ^ (52 - Nat.log2 m) := Nat.mul_le_mul_right _ hup.le
        _ = 2 ^ 53 := by rw [← pow_add]; congr 1; omega
    rw [double_magnitude (by omega), wordLimit]
    omega
  · cases hx
    have hlow : 2 ^ Nat.log2 m ≤ m := Nat.log2_self_le hzero
    have hlog : Nat.log2 m < 65 := (Nat.log2_lt hzero).mpr (by omega)
    rw [double_magnitude (by omega), wordLimit]
    by_cases htop : Nat.log2 m = 64
    · have hexact : m = 2 ^ 64 := by
        rw [htop] at hlow
        omega
      rw [hexact]
      decide +kernel
    · have hup : m < 2 ^ (Nat.log2 m + 1) := Nat.lt_log2_self
      have hsplit : 2 ^ (Nat.log2 m + 1) = 2 ^ 53 * 2 ^ (Nat.log2 m - 52) := by rw [← pow_add]; congr 1; omega
      have hdiv : m / 2 ^ (Nat.log2 m - 52) < 2 ^ 53 :=
        Nat.div_lt_of_lt_mul (by rw [hsplit, Nat.mul_comm] at hup; exact hup)
      have hround := roundEven_le m (Nat.log2 m - 52)
      omega

end Foundations.Binary
