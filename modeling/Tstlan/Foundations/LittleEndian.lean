import Mathlib.Data.Nat.Notation
import Mathlib.Tactic.Ring
import Mathlib.Tactic.NormNum

/-! # Little-endian byte strings

`encode w n` writes the low `8 * w` bits of `n` as `w` bytes, least significant first; `decode` reads
them back. Signed numbers are written in two's complement of the same width. -/
namespace Foundations
set_option autoImplicit false

abbrev Byte := BitVec 8

namespace LittleEndian

def encode : ℕ → ℕ → List Byte
  | 0, _ => []
  | w + 1, n => BitVec.ofNat 8 n :: encode w (n / 256)

def decode : List Byte → ℕ
  | [] => 0
  | b :: bs => b.toNat + 256 * decode bs

@[simp] theorem length_encode (w n : ℕ) : (encode w n).length = w := by
  induction w generalizing n with
  | zero => rfl
  | succ w ih => rw [encode, List.length_cons, ih]

theorem decode_encode (w n : ℕ) : decode (encode w n) = n % 256 ^ w := by
  induction w generalizing n with
  | zero => simp [encode, decode, Nat.mod_one]
  | succ w ih =>
    rw [encode, decode, ih, BitVec.toNat_ofNat]
    change n % 256 + 256 * (n / 256 % 256 ^ w) = n % 256 ^ (w + 1)
    rw [pow_succ', Nat.mod_mul]

theorem decode_encode_of_lt {w n : ℕ} (h : n < 256 ^ w) : decode (encode w n) = n := by
  rw [decode_encode, Nat.mod_eq_of_lt h]

theorem decode_lt (bs : List Byte) : decode bs < 256 ^ bs.length := by
  induction bs with
  | nil => exact Nat.one_pos
  | cons b bs ih =>
    have hb := b.isLt
    rw [decode, List.length_cons, pow_succ']
    omega

/-! ## Two's complement -/

def encodeSigned (w : ℕ) (v : ℤ) : List Byte := encode w (v % 256 ^ w).toNat

def decodeSigned (w : ℕ) (bs : List Byte) : ℤ :=
  if 2 * decode bs < 256 ^ w then decode bs else (decode bs : ℤ) - 256 ^ w

@[simp] theorem length_encodeSigned (w : ℕ) (v : ℤ) : (encodeSigned w v).length = w :=
  length_encode _ _

theorem decodeSigned_encodeSigned {w : ℕ} {v : ℤ} (hlo : -(256 ^ w : ℤ) ≤ 2 * v)
    (hhi : 2 * v < 256 ^ w) : decodeSigned w (encodeSigned w v) = v := by
  have hpos : (0 : ℤ) < 256 ^ w := by positivity
  have hcast : ((256 ^ w : ℕ) : ℤ) = 256 ^ w := by push_cast; rfl
  have hnonneg : 0 ≤ v % 256 ^ w := Int.emod_nonneg _ hpos.ne'
  have hlt : v % 256 ^ w < 256 ^ w := Int.emod_lt_of_pos _ hpos
  have hn : (v % 256 ^ w).toNat < 256 ^ w := by omega
  rw [decodeSigned, encodeSigned, decode_encode_of_lt hn]
  by_cases hv : 0 ≤ v
  · have he : v % 256 ^ w = v := Int.emod_eq_of_lt hv (by omega)
    rw [he] at hn ⊢
    rw [if_pos (by omega)]
    omega
  · have he : v % 256 ^ w = v + 256 ^ w := by
      rw [← Int.add_emod_right]
      exact Int.emod_eq_of_lt (by omega) (by omega)
    rw [he] at hn ⊢
    rw [if_neg (by omega)]
    omega

theorem decodeSigned_bounds {w : ℕ} {bs : List Byte} (h : bs.length = w) :
    -(256 ^ w : ℤ) ≤ 2 * decodeSigned w bs ∧ 2 * decodeSigned w bs < 256 ^ w := by
  have hlt := decode_lt bs
  have hcast : ((256 ^ w : ℕ) : ℤ) = 256 ^ w := by push_cast; rfl
  rw [h] at hlt
  rw [decodeSigned]
  split <;> constructor <;> omega

end LittleEndian
end Foundations
