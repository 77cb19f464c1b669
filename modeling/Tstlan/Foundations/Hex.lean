import Tstlan.Foundations.LittleEndian

/-! # Hexadecimal text of bytes

Two lower-case digits a byte; the reader takes both cases and skips blanks between bytes. -/
namespace Foundations
namespace Hex
set_option autoImplicit false

def digit (n : ℕ) : Char := if n < 10 then Char.ofNat (48 + n) else Char.ofNat (87 + n)

def value (c : Char) : Option ℕ :=
  if 48 ≤ c.toNat ∧ c.toNat ≤ 57 then some (c.toNat - 48)
  else if 97 ≤ c.toNat ∧ c.toNat ≤ 102 then some (c.toNat - 87)
  else if 65 ≤ c.toNat ∧ c.toNat ≤ 70 then some (c.toNat - 55)
  else none

def encode (bs : List Byte) : List Char :=
  bs.flatMap (fun b => [digit (b.toNat / 16), digit (b.toNat % 16)])

def decode : List Char → Option (List Byte)
  | [] => some []
  | c :: cs =>
    if c.isWhitespace then decode cs
    else
      match cs with
      | [] => none
      | d :: ds => do
        let hi ← value c
        let lo ← value d
        let rest ← decode ds
        return BitVec.ofNat 8 (16 * hi + lo) :: rest

theorem value_digit : ∀ n < 16, value (digit n) = some n ∧ (digit n).isWhitespace = false := by
  decide

theorem decode_encode (bs : List Byte) : decode (encode bs) = some bs := by
  induction bs with
  | nil => rfl
  | cons b bs ih =>
    have hb := b.isLt
    obtain ⟨hhi, hblank⟩ := value_digit (b.toNat / 16) (by omega)
    obtain ⟨hlo, -⟩ := value_digit (b.toNat % 16) (by omega)
    have hsum : 16 * (b.toNat / 16) + b.toNat % 16 = b.toNat := by omega
    rw [encode, List.flatMap_cons, ← encode]
    simp only [List.cons_append, List.nil_append, decode, hblank, hhi, hlo, ih]
    show some (BitVec.ofNat 8 (16 * (b.toNat / 16) + b.toNat % 16) :: bs) = some (b :: bs)
    rw [hsum, BitVec.ofNat_toNat, BitVec.setWidth_eq]

end Hex
end Foundations
