import Mathlib.Data.Nat.Log
import Mathlib.Tactic.Ring

/-! # Binary interchange formats, as bit patterns

Patterns of the 64-bit and the 32-bit format: sign, biased exponent, fraction. `ofInt` is the nearest
double of an integer, `narrow` the nearest single of a double, both with ties to even and `none` where
the magnitude is beyond the format; `widen` is the exact inclusion. The one rounding step all of them
share is `roundEven`. -/
namespace Foundations.Binary
set_option autoImplicit false

/-- `m / 2 ^ k` rounded to the nearest integer, ties to even. -/
def roundEven (m k : ℕ) : ℕ :=
  if 2 * (m % 2 ^ k) < 2 ^ k then m / 2 ^ k
  else if 2 ^ k < 2 * (m % 2 ^ k) then m / 2 ^ k + 1
  else m / 2 ^ k + m / 2 ^ k % 2

theorem roundEven_mul (a k : ℕ) : roundEven (a * 2 ^ k) k = a := by
  have hk : 0 < 2 ^ k := Nat.two_pow_pos k
  rw [roundEven, Nat.mul_mod_left, Nat.mul_div_cancel a hk, if_pos (by omega)]

/-! ## Patterns -/

abbrev Double := BitVec 64
abbrev Single := BitVec 32

/-- The double with sign bit `s` and magnitude pattern `m`. -/
def double (s m : ℕ) : Double := BitVec.ofNat 64 (s * 2 ^ 63 + m)

/-- The single with sign bit `s` and magnitude pattern `m`. -/
def single (s m : ℕ) : Single := BitVec.ofNat 32 (s * 2 ^ 31 + m)

def Double.sign (x : Double) : ℕ := x.toNat / 2 ^ 63
def Double.magnitude (x : Double) : ℕ := x.toNat % 2 ^ 63
def Single.sign (p : Single) : ℕ := p.toNat / 2 ^ 31
def Single.magnitude (p : Single) : ℕ := p.toNat % 2 ^ 31

theorem double_sign {s m : ℕ} (hs : s < 2) (hm : m < 2 ^ 63) :
    Double.sign (double s m) = s := by
  rw [Double.sign, double, BitVec.toNat_ofNat]
  omega

theorem double_magnitude {s m : ℕ} (hm : m < 2 ^ 63) : Double.magnitude (double s m) = m := by
  rw [Double.magnitude, double, BitVec.toNat_ofNat]
  omega

theorem single_parts (p : Single) : single (Single.sign p) (Single.magnitude p) = p := by
  apply BitVec.eq_of_toNat_eq
  have hp := p.isLt
  rw [single, Single.sign, Single.magnitude, BitVec.toNat_ofNat]
  omega

theorem Single.sign_lt (p : Single) : Single.sign p < 2 := by
  have hp := p.isLt
  rw [Single.sign]
  omega

/-! ## Conversions -/

/-- The nearest double of an integer; `none` beyond the largest finite double. -/
def ofInt (n : ℤ) : Option Double :=
  let m := n.natAbs
  let s := if n < 0 then 1 else 0
  if m = 0 then some (double s 0)
  else
    let l := Nat.log2 m
    -- the hidden bit of the significand carries into the exponent field
    let significand := if l ≤ 52 then m * 2 ^ (52 - l) else roundEven m (l - 52)
    let pattern := (l + 1022) * 2 ^ 52 + significand
    if pattern < 2047 * 2 ^ 52 then some (double s pattern) else none

theorem roundEven_le (m k : ℕ) : roundEven m k ≤ m / 2 ^ k + 1 := by
  rw [roundEven]
  split_ifs <;> omega

/-- The integers of 64 bits are within the range of the doubles. -/
theorem ofInt_of_le {n : ℤ} (h : n.natAbs ≤ 2 ^ 64) : ∃ x, ofInt n = some x := by
  rw [ofInt]
  generalize n.natAbs = m at h
  by_cases hzero : m = 0
  · simp [hzero]
  · have hlog : Nat.log2 m < 65 := (Nat.log2_lt hzero).mpr (by omega)
    have hup : m < 2 ^ (Nat.log2 m + 1) := Nat.lt_log2_self
    have hsignificand : (if Nat.log2 m ≤ 52 then m * 2 ^ (52 - Nat.log2 m) else roundEven m (Nat.log2 m - 52)) ≤ 2 ^ 53 := by
      generalize Nat.log2 m = l at *
      split_ifs with hl
      · calc m * 2 ^ (52 - l) ≤ 2 ^ (l + 1) * 2 ^ (52 - l) := Nat.mul_le_mul_right _ hup.le
          _ = 2 ^ 53 := by rw [← pow_add]; congr 1; omega
      · have hsplit : 2 ^ (l + 1) = 2 ^ 53 * 2 ^ (l - 52) := by rw [← pow_add]; congr 1; omega
        have hdiv : m / 2 ^ (l - 52) < 2 ^ 53 := Nat.div_lt_of_lt_mul (by rw [hsplit, Nat.mul_comm] at hup; exact hup)
        exact (roundEven_le _ _).trans hdiv
    have hpattern : (Nat.log2 m + 1022) * 2 ^ 52 +
        (if Nat.log2 m ≤ 52 then m * 2 ^ (52 - Nat.log2 m) else roundEven m (Nat.log2 m - 52)) < 2047 * 2 ^ 52 := by
      omega
    simp only [if_neg hzero, if_pos hpattern]
    exact ⟨_, rfl⟩

/-- The magnitude pattern of the double that a single with magnitude pattern `m` denotes. -/
def widenMagnitude (m : ℕ) : ℕ :=
  let e := m / 2 ^ 23
  let f := m % 2 ^ 23
  if e = 255 then 2047 * 2 ^ 52 + f * 2 ^ 29
  else if 0 < e then (e + 896) * 2 ^ 52 + f * 2 ^ 29
  else if f = 0 then 0
  else (Nat.log2 f + 874) * 2 ^ 52 + (f - 2 ^ Nat.log2 f) * 2 ^ (52 - Nat.log2 f)

def widen (p : Single) : Double := double (Single.sign p) (widenMagnitude (Single.magnitude p))

/-- The magnitude pattern of the single nearest to a double with magnitude pattern `m`; `none` when a
finite double rounds beyond the largest finite single. -/
def narrowMagnitude (m : ℕ) : Option ℕ :=
  let e := m / 2 ^ 52
  let f := m % 2 ^ 52
  if e = 2047 then
    -- an infinity, or a NaN, whose payload keeps its high bits
    if f = 0 then some (255 * 2 ^ 23)
    else some (255 * 2 ^ 23 + (if f / 2 ^ 29 = 0 then 2 ^ 22 else f / 2 ^ 29))
  else if e = 0 then some 0
  else
    let pattern :=
      if 897 ≤ e then (e - 897) * 2 ^ 23 + roundEven (2 ^ 52 + f) 29
      else roundEven (2 ^ 52 + f) (29 + (897 - e))
    if pattern < 255 * 2 ^ 23 then some pattern else none

def narrow (x : Double) : Option Single :=
  (narrowMagnitude (Double.magnitude x)).map (single (Double.sign x))

/-! ## Every single survives the way through a double -/

theorem widenMagnitude_lt {m : ℕ} (hm : m < 2 ^ 31) : widenMagnitude m < 2 ^ 63 := by
  simp only [widenMagnitude]
  split_ifs with h1 h2 h3
  · omega
  · omega
  · omega
  · have hf : m % 2 ^ 23 ≠ 0 := h3
    have hlog : 2 ^ Nat.log2 (m % 2 ^ 23) ≤ m % 2 ^ 23 := Nat.log2_self_le hf
    have hlt : Nat.log2 (m % 2 ^ 23) < 23 := (Nat.log2_lt hf).mpr (Nat.mod_lt _ (by omega))
    have hup : m % 2 ^ 23 < 2 ^ (Nat.log2 (m % 2 ^ 23) + 1) := Nat.lt_log2_self
    generalize m % 2 ^ 23 = f at *
    generalize Nat.log2 f = l at *
    have hfrac : (f - 2 ^ l) * 2 ^ (52 - l) < 2 ^ 52 := by
      calc (f - 2 ^ l) * 2 ^ (52 - l) < 2 ^ l * 2 ^ (52 - l) := by
            apply Nat.mul_lt_mul_of_pos_right _ (Nat.two_pow_pos _)
            rw [pow_succ] at hup
            omega
        _ = 2 ^ 52 := by rw [← pow_add]; congr 1; omega
    omega

theorem narrowMagnitude_widenMagnitude {m : ℕ} (hm : m < 2 ^ 31) :
    narrowMagnitude (widenMagnitude m) = some m := by
  have hsplit : m = m / 2 ^ 23 * 2 ^ 23 + m % 2 ^ 23 := by omega
  have hf : m % 2 ^ 23 < 2 ^ 23 := Nat.mod_lt _ (by omega)
  have he : m / 2 ^ 23 < 256 := by omega
  simp only [widenMagnitude]
  generalize m / 2 ^ 23 = e at *
  generalize m % 2 ^ 23 = f at *
  subst hsplit
  split_ifs with h1 h2 h3
  · subst h1
    have hq : (2047 * 2 ^ 52 + f * 2 ^ 29) / 2 ^ 52 = 2047 := by omega
    have hr : (2047 * 2 ^ 52 + f * 2 ^ 29) % 2 ^ 52 = f * 2 ^ 29 := by omega
    simp only [narrowMagnitude, hq, hr, if_true]
    by_cases hz : f = 0
    · simp [hz]
    · have hd : f * 2 ^ 29 / 2 ^ 29 = f := Nat.mul_div_cancel f (Nat.two_pow_pos 29)
      rw [if_neg (by omega), hd, if_neg hz]
  · have hq : ((e + 896) * 2 ^ 52 + f * 2 ^ 29) / 2 ^ 52 = e + 896 := by omega
    have hr : ((e + 896) * 2 ^ 52 + f * 2 ^ 29) % 2 ^ 52 = f * 2 ^ 29 := by omega
    have hround : roundEven (2 ^ 52 + f * 2 ^ 29) 29 = 2 ^ 23 + f := by
      rw [← roundEven_mul (2 ^ 23 + f) 29]
      congr 1
      ring
    have hnormal : 897 ≤ e + 896 := by omega
    have hsum : (e + 896 - 897) * 2 ^ 23 + (2 ^ 23 + f) = e * 2 ^ 23 + f := by omega
    have hfinite : e * 2 ^ 23 + f < 255 * 2 ^ 23 := by omega
    have hnan : e + 896 ≠ 2047 := by omega
    have hzero : e + 896 ≠ 0 := by omega
    simp only [narrowMagnitude, hq, hr, hround, if_pos hnormal, hsum, if_pos hfinite, if_neg hnan,
      if_neg hzero]
  · have he0 : e = 0 := by omega
    simp [narrowMagnitude, he0, h3]
  · have he0 : e = 0 := by omega
    have hlog : 2 ^ Nat.log2 f ≤ f := Nat.log2_self_le h3
    have hlt : Nat.log2 f < 23 := (Nat.log2_lt h3).mpr hf
    have hup : f < 2 ^ (Nat.log2 f + 1) := Nat.lt_log2_self
    generalize Nat.log2 f = l at *
    have hpow : 2 ^ l * 2 ^ (52 - l) = 2 ^ 52 := by rw [← pow_add]; congr 1; omega
    have hfrac : (f - 2 ^ l) * 2 ^ (52 - l) < 2 ^ 52 := by
      rw [← hpow]
      apply Nat.mul_lt_mul_of_pos_right _ (Nat.two_pow_pos _)
      rw [pow_succ] at hup
      omega
    have hq : ((l + 874) * 2 ^ 52 + (f - 2 ^ l) * 2 ^ (52 - l)) / 2 ^ 52 = l + 874 := by omega
    have hr : ((l + 874) * 2 ^ 52 + (f - 2 ^ l) * 2 ^ (52 - l)) % 2 ^ 52 =
        (f - 2 ^ l) * 2 ^ (52 - l) := by omega
    have hsig : 2 ^ 52 + (f - 2 ^ l) * 2 ^ (52 - l) = f * 2 ^ (52 - l) := by
      rw [← hpow, ← Nat.add_mul]
      congr 1
      omega
    have hround : roundEven (2 ^ 52 + (f - 2 ^ l) * 2 ^ (52 - l)) (29 + (897 - (l + 874))) = f := by
      rw [hsig, show 29 + (897 - (l + 874)) = 52 - l by omega]
      exact roundEven_mul f (52 - l)
    have hsub : ¬ 897 ≤ l + 874 := by omega
    have hfinite : f < 255 * 2 ^ 23 := by omega
    have hnan : l + 874 ≠ 2047 := by omega
    have hzero : l + 874 ≠ 0 := by omega
    simp only [narrowMagnitude, hq, hr, hround, if_neg hsub, if_pos hfinite, if_neg hnan,
      if_neg hzero, he0, Nat.zero_mul, Nat.zero_add]

theorem narrow_widen (p : Single) : narrow (widen p) = some p := by
  have hm : Single.magnitude p < 2 ^ 31 := Nat.mod_lt _ (by omega)
  have hw := widenMagnitude_lt hm
  rw [narrow, widen, double_magnitude hw, double_sign (Single.sign_lt p) hw,
    narrowMagnitude_widenMagnitude hm, Option.map_some, single_parts]

end Foundations.Binary
