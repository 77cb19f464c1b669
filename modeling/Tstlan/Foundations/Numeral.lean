import Tstlan.Foundations.Binary
import Mathlib.Data.Nat.Size

/-! # Natural numbers with `p` significant bits, and their shortest decimal numerals

`nearest p n` is `n` rounded to `p` significant bits, ties to even; `Exact p n` says that it is `n`
itself. A numeral is read as the number nearest to it, so one number has many numerals; `shortest p n` is
the one with the fewest significant digits, and among these the one closest to the number. -/
namespace Foundations
namespace Numeral
set_option autoImplicit false

/-! ## Rounding to a fixed number of significant bits -/

/-- The low bits that do not fit. -/
def excess (p n : ℕ) : ℕ := n.size - p

def nearest (p n : ℕ) : ℕ := Binary.roundEven n (excess p n) * 2 ^ excess p n

def Exact (p n : ℕ) : Prop := nearest p n = n

instance (p n : ℕ) : Decidable (Exact p n) := inferInstanceAs (Decidable (_ = _))

theorem div_le_roundEven (n k : ℕ) : n / 2 ^ k ≤ Binary.roundEven n k := by
  rw [Binary.roundEven]
  split_ifs <;> omega

theorem roundEven_le (n k : ℕ) : Binary.roundEven n k ≤ n / 2 ^ k + 1 := by
  have hbit : n / 2 ^ k % 2 < 2 := Nat.mod_lt _ (by omega)
  rw [Binary.roundEven]
  split_ifs <;> omega

theorem roundEven_mono {m n : ℕ} (h : m ≤ n) (k : ℕ) : Binary.roundEven m k ≤ Binary.roundEven n k := by
  rcases Nat.lt_or_eq_of_le (Nat.div_le_div_right (c := 2 ^ k) h) with hlt | heq
  · calc Binary.roundEven m k ≤ m / 2 ^ k + 1 := roundEven_le m k
      _ ≤ n / 2 ^ k := hlt
      _ ≤ Binary.roundEven n k := div_le_roundEven n k
  · -- one quotient: the remainders are ordered
    have hm := Nat.div_add_mod m (2 ^ k)
    have hn := Nat.div_add_mod n (2 ^ k)
    rw [heq] at hm
    have hbit : n / 2 ^ k % 2 < 2 := Nat.mod_lt _ (by omega)
    rw [Binary.roundEven, Binary.roundEven, heq]
    split_ifs <;> omega

variable {p : ℕ}

theorem lt_pow_excess (p n : ℕ) : n < 2 ^ (p + excess p n) := by
  rw [← Nat.size_le, excess]
  omega

/-- With an excess of `k` the leading bit is at `p + k`. -/
theorem pow_le_of_excess {n k : ℕ} (h : excess p n = k + 1) : 2 ^ (p + k) ≤ n := by
  rw [← Nat.lt_size]
  rw [excess] at h
  omega

theorem excess_mono {m n : ℕ} (h : m ≤ n) : excess p m ≤ excess p n :=
  Nat.sub_le_sub_right (Nat.size_le_size h) p

theorem exact_iff_dvd (n : ℕ) : Exact p n ↔ 2 ^ excess p n ∣ n := by
  rw [Exact, nearest]
  constructor
  · intro h
    exact Dvd.intro_left _ h
  · rintro ⟨q, hq⟩
    have hround := Binary.roundEven_mul q (excess p n)
    rw [Nat.mul_comm, ← hq] at hround
    rw [hround, Nat.mul_comm]
    exact hq.symm

/-- What has no more than `p` bits before its last `e` zeros is exact. -/
theorem exact_of_dvd {n e : ℕ} (hd : 2 ^ e ∣ n) (hlt : n < 2 ^ (p + e)) : Exact p n := by
  have hle : excess p n ≤ e := by
    rw [← Nat.size_le] at hlt
    rw [excess]
    omega
  exact (exact_iff_dvd n).mpr ((pow_dvd_pow 2 hle).trans hd)

theorem exact_of_lt {n : ℕ} (h : n < 2 ^ p) : Exact p n :=
  exact_of_dvd (e := 0) (by simp) (by simpa)

theorem roundEven_excess_le (n : ℕ) : Binary.roundEven n (excess p n) ≤ 2 ^ p := by
  have hlt : n / 2 ^ excess p n < 2 ^ p := by
    rw [Nat.div_lt_iff_lt_mul (Nat.two_pow_pos _), ← pow_add]
    exact lt_pow_excess p n
  exact (roundEven_le n _).trans hlt

theorem nearest_le (n : ℕ) : nearest p n ≤ 2 ^ (p + excess p n) := by
  rw [nearest, pow_add]
  exact Nat.mul_le_mul_right _ (roundEven_excess_le n)

theorem le_nearest {n k : ℕ} (hp : 0 < p) (h : excess p n = k + 1) : 2 ^ (p + k) ≤ nearest p n := by
  have hq : 2 ^ (p - 1) ≤ n / 2 ^ (k + 1) := by
    rw [Nat.le_div_iff_mul_le (Nat.two_pow_pos _), ← pow_add]
    have he : p - 1 + (k + 1) = p + k := by omega
    rw [he]
    exact pow_le_of_excess h
  calc 2 ^ (p + k) = 2 ^ (p - 1) * 2 ^ (k + 1) := by rw [← pow_add]; congr 1; omega
    _ ≤ n / 2 ^ (k + 1) * 2 ^ (k + 1) := Nat.mul_le_mul_right _ hq
    _ ≤ Binary.roundEven n (k + 1) * 2 ^ (k + 1) := Nat.mul_le_mul_right _ (div_le_roundEven n _)
    _ = nearest p n := by rw [nearest, h]

theorem exact_nearest (hp : 0 < p) (n : ℕ) : Exact p (nearest p n) := by
  rcases Nat.lt_or_eq_of_le (roundEven_excess_le (p := p) n) with hlt | heq
  · have hd : 2 ^ excess p n ∣ nearest p n := Dvd.intro_left _ rfl
    apply exact_of_dvd hd
    rw [nearest, pow_add]
    exact Nat.mul_lt_mul_of_pos_right hlt (Nat.two_pow_pos _)
  · -- the significand has carried over
    apply exact_of_dvd (e := p + excess p n)
    · rw [nearest, heq, ← pow_add]
    · rw [nearest, heq, ← pow_add]
      exact Nat.pow_lt_pow_right (by omega) (by omega)

theorem nearest_mono (hp : 0 < p) {m n : ℕ} (h : m ≤ n) : nearest p m ≤ nearest p n := by
  rcases Nat.lt_or_eq_of_le (excess_mono (p := p) h) with hlt | heq
  · obtain ⟨k, hk⟩ := Nat.exists_eq_add_of_lt hlt
    calc nearest p m ≤ 2 ^ (p + excess p m) := nearest_le m
      _ ≤ 2 ^ (p + (excess p m + k)) := Nat.pow_le_pow_right (by omega) (by omega)
      _ ≤ nearest p n := le_nearest hp hk
  · rw [nearest, nearest, heq]
    exact Nat.mul_le_mul_right _ (roundEven_mono h _)

/-- The numerals of one number lie in an interval around it. -/
theorem nearest_eq_of_between (hp : 0 < p) {a b c : ℕ} (hab : a ≤ b) (hbc : b ≤ c)
    (h : nearest p a = nearest p c) : nearest p b = nearest p c :=
  le_antisymm (nearest_mono hp hbc) (h ▸ nearest_mono hp hab)

/-! ## The shortest decimal numeral -/

/-- A multiple of `10 ^ i` that is a numeral of `n`: of the two next to `n` the closer one, of two as close
the one with the even last digit. -/
def candidate (p n i : ℕ) : Option ℕ :=
  let low := n / 10 ^ i
  let reads (s : ℕ) : Bool := nearest p (s * 10 ^ i) = n
  let closer := 2 * (n % 10 ^ i) < 10 ^ i ∨ 2 * (n % 10 ^ i) = 10 ^ i ∧ low % 2 = 0
  if reads low ∧ (¬ reads (low + 1) ∨ closer) then some (low * 10 ^ i)
  else if reads (low + 1) then some ((low + 1) * 10 ^ i)
  else none

/-- The largest scale of at most `i` at which there is a candidate; `n` is its own. -/
def shortestFrom (p n : ℕ) : ℕ → ℕ
  | 0 => n
  | i + 1 => (candidate p n (i + 1)).getD (shortestFrom p n i)

/-- The numeral with the fewest significant digits: its trailing zeros are as many as a numeral of `n` can
have. -/
def shortest (p n : ℕ) : ℕ := shortestFrom p n n.size

theorem candidate_eq_some {n i c : ℕ} (h : candidate p n i = some c) : 10 ^ i ∣ c ∧ nearest p c = n := by
  rw [candidate] at h
  simp only [decide_eq_true_eq] at h
  split_ifs at h with h1 h2
  · cases h
    exact ⟨Nat.dvd_mul_left _ _, h1.1⟩
  · cases h
    exact ⟨Nat.dvd_mul_left _ _, h2⟩

/-- There is a candidate wherever there is a numeral. -/
theorem candidate_isSome (hp : 0 < p) {n i w : ℕ} (hn : Exact p n) (hd : 10 ^ i ∣ w) (hw : nearest p w = n) :
    ∃ c, candidate p n i = some c := by
  have hpos : 0 < 10 ^ i := Nat.pow_pos (by omega)
  obtain ⟨q, rfl⟩ := hd
  rw [Nat.mul_comm] at hw
  have hside : nearest p (n / 10 ^ i * 10 ^ i) = n ∨ nearest p ((n / 10 ^ i + 1) * 10 ^ i) = n := by
    rcases Nat.lt_or_ge (n / 10 ^ i) q with hlt | hge
    · right
      have hle : n ≤ (n / 10 ^ i + 1) * 10 ^ i := (Nat.lt_mul_of_div_lt (Nat.lt_succ_self _) hpos).le
      rw [nearest_eq_of_between hp hle (Nat.mul_le_mul_right _ hlt) (hn.trans hw.symm), hw]
    · left
      have hle : n / 10 ^ i * 10 ^ i ≤ n := Nat.div_mul_le_self n _
      rw [nearest_eq_of_between hp (Nat.mul_le_mul_right _ hge) hle (hw.trans hn.symm)]
      exact hn
  rw [candidate]
  simp only [decide_eq_true_eq]
  split_ifs with h1 h2
  · exact ⟨_, rfl⟩
  · exact ⟨_, rfl⟩
  · rcases hside with h | h
    · exact absurd ⟨h, .inl h2⟩ h1
    · exact absurd h h2

theorem candidate_of_dvd {n i : ℕ} (hn : Exact p n) (hd : 10 ^ i ∣ n) : candidate p n i = some n := by
  have hself : n / 10 ^ i * 10 ^ i = n := Nat.div_mul_cancel hd
  have hrem : n % 10 ^ i = 0 := Nat.eq_zero_of_dvd_of_lt (by
    exact (Nat.dvd_mod_iff (dvd_refl _)).mpr hd) (Nat.mod_lt _ (Nat.pow_pos (by omega)))
  have hpos : 0 < 10 ^ i := Nat.pow_pos (by omega)
  rw [candidate]
  simp only [decide_eq_true_eq, hself, hrem]
  rw [if_pos ⟨hn, .inr (.inl (by omega))⟩]

theorem nearest_shortestFrom {n : ℕ} (hn : Exact p n) (i : ℕ) : nearest p (shortestFrom p n i) = n := by
  induction i with
  | zero => exact hn
  | succ i ih =>
    rw [shortestFrom]
    cases hc : candidate p n (i + 1) with
    | none => exact ih
    | some c => exact (candidate_eq_some hc).2

/-- The shortest numeral is read as the number it stands for. -/
theorem nearest_shortest {n : ℕ} (hn : Exact p n) : nearest p (shortest p n) = n :=
  nearest_shortestFrom hn _

/-- No numeral of `n` has more trailing zeros than `n`. -/
def IsShortest (p n : ℕ) : Prop := ∀ i w, 10 ^ i ∣ w → nearest p w = n → 10 ^ i ∣ n

theorem shortestFrom_eq_self {n : ℕ} (hn : Exact p n) (h : IsShortest p n) (i : ℕ) :
    shortestFrom p n i = n := by
  induction i with
  | zero => rfl
  | succ i ih =>
    rw [shortestFrom]
    cases hc : candidate p n (i + 1) with
    | none => exact ih
    | some c =>
      obtain ⟨hd, hread⟩ := candidate_eq_some hc
      rw [candidate_of_dvd hn (h _ _ hd hread)] at hc
      exact (Option.some.inj hc).symm

/-- From the scale of a numeral on, the search keeps its trailing zeros. -/
theorem pow_dvd_shortestFrom (hp : 0 < p) {n i w : ℕ} (hn : Exact p n) (hd : 10 ^ i ∣ w)
    (hw : nearest p w = n) {j : ℕ} (hij : i ≤ j) : 10 ^ i ∣ shortestFrom p n j := by
  induction j, hij using Nat.le_induction with
  | base =>
    cases i with
    | zero => simp
    | succ i =>
      obtain ⟨c, hc⟩ := candidate_isSome hp hn hd hw
      rw [shortestFrom, hc]
      exact (candidate_eq_some hc).1
  | succ j hij ih =>
    rw [shortestFrom]
    cases hc : candidate p n (j + 1) with
    | none => exact ih
    | some c => exact (pow_dvd_pow 10 (by omega)).trans (candidate_eq_some hc).1

theorem size_nearest (hp : 0 < p) (w : ℕ) : w.size ≤ (nearest p w).size := by
  cases hk : excess p w with
  | zero =>
    have hlt : w < 2 ^ p := by
      have h := lt_pow_excess p w
      rwa [hk, Nat.add_zero] at h
    exact le_of_eq (congrArg Nat.size (exact_of_lt hlt).symm)
  | succ k =>
    have h := Nat.lt_size.mpr (le_nearest hp hk)
    rw [excess] at hk
    omega

/-- **A number is its own shortest numeral exactly when no numeral of it has more trailing zeros.** -/
theorem shortest_eq_self_iff (hp : 0 < p) {n : ℕ} (hn : Exact p n) : shortest p n = n ↔ IsShortest p n := by
  constructor
  · intro h i w hd hw
    rcases Nat.eq_zero_or_pos w with rfl | hpos
    · rw [← hw, exact_of_lt (Nat.two_pow_pos p)]
      exact Nat.dvd_zero _
    · have hi : i ≤ n.size := by
        have hle : 10 ^ i ≤ w := Nat.le_of_dvd hpos hd
        have hlt : w < 2 ^ n.size := Nat.size_le.mp (hw ▸ size_nearest hp w)
        have hten : 2 ^ i ≤ 10 ^ i := Nat.pow_le_pow_left (by omega) i
        exact ((Nat.pow_lt_pow_iff_right (by omega)).mp (hten.trans_lt (hle.trans_lt hlt))).le
      have hdvd := pow_dvd_shortestFrom hp hn hd hw hi
      rwa [← shortest, h] at hdvd
  · exact fun h => shortestFrom_eq_self hn h _

/-- A bound that is its own shortest numeral bounds the numbers with their numerals. -/
theorem shortest_lt_iff (hp : 0 < p) {n m : ℕ} (hn : Exact p n) (hm : Exact p m) (hself : shortest p m = m) :
    shortest p n < m ↔ n < m := by
  have hread := nearest_shortest hn
  constructor
  · intro h
    rcases Nat.lt_or_ge n m with hlt | hge
    · exact hlt
    · have hle := nearest_mono hp h.le
      rw [hread, hm] at hle
      have heq : n = m := le_antisymm hle hge
      rw [heq, hself] at h
      exact absurd h (lt_irrefl m)
  · intro h
    by_contra hge
    have hle := nearest_mono hp (not_lt.mp hge)
    rw [hread, hm] at hle
    omega

/-- A number with fewer than `p` bits has no other numeral. -/
theorem isShortest_of_lt (hp : 0 < p) {n : ℕ} (h : n < 2 ^ p) : IsShortest p n := by
  intro i w hd hw
  have hlt : w < 2 ^ p := by
    by_contra hge
    have hmono := nearest_mono hp (not_lt.mp hge)
    have hpow : Exact p (2 ^ p) :=
      exact_of_dvd (e := p) (dvd_refl _) (Nat.pow_lt_pow_right (by omega) (by omega))
    rw [hw, hpow] at hmono
    omega
  rw [exact_of_lt hlt] at hw
  exact hw ▸ hd

end Numeral
end Foundations
