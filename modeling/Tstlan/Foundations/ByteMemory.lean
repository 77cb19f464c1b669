import Mathlib.Data.List.GetD
import Tstlan.Foundations.LittleEndian

/-! # An unbounded byte memory with bit access

One infinite byte row per device `ι`. A position `p` of a row is a bit: bit `p % 8` of byte `p / 8`.
Reads depend only on the bits of their range and writes change only those, which is what layouts with
disjoint ranges need. -/
namespace Foundations
set_option autoImplicit false

abbrev ByteMemory (ι : Type) := ι → ℕ → Byte

namespace ByteMemory
variable {ι : Type}

def read (m : ByteMemory ι) (d : ι) (i n : ℕ) : List Byte := (List.range n).map (fun k => m d (i + k))

def bit (m : ByteMemory ι) (d : ι) (p : ℕ) : Bool := (m d (p / 8)).getLsbD (p % 8)

/-- Two memories agree on the bits `lo ≤ p < hi` of row `d`. -/
def SameOn (m m' : ByteMemory ι) (d : ι) (lo hi : ℕ) : Prop :=
  ∀ p, lo ≤ p → p < hi → m.bit d p = m'.bit d p

theorem SameOn.refl (m : ByteMemory ι) (d : ι) (lo hi : ℕ) : SameOn m m d lo hi := fun _ _ _ => rfl

theorem SameOn.symm {m m' : ByteMemory ι} {d : ι} {lo hi : ℕ} (h : SameOn m m' d lo hi) :
    SameOn m' m d lo hi := fun p hlo hhi => (h p hlo hhi).symm

@[simp] theorem length_read (m : ByteMemory ι) (d : ι) (i n : ℕ) : (m.read d i n).length = n := by
  simp [read]

theorem byte_eq_of_sameOn {m m' : ByteMemory ι} {d : ι} {lo hi j : ℕ} (h : SameOn m m' d lo hi)
    (hlo : lo ≤ 8 * j) (hhi : 8 * j + 8 ≤ hi) : m d j = m' d j := by
  apply BitVec.eq_of_getLsbD_eq
  intro k hk
  have hb := h (8 * j + k) (by omega) (by omega)
  have hdiv : (8 * j + k) / 8 = j := by omega
  have hmod : (8 * j + k) % 8 = k := by omega
  rwa [bit, bit, hdiv, hmod] at hb

theorem read_congr {m m' : ByteMemory ι} {d : ι} {i n : ℕ}
    (h : SameOn m m' d (8 * i) (8 * (i + n))) : m.read d i n = m'.read d i n := by
  apply List.map_congr_left
  intro k hk
  have hk' := List.mem_range.mp hk
  exact byte_eq_of_sameOn h (by omega) (by omega)

theorem sameOn_of_read {m m' : ByteMemory ι} {d : ι} {i n : ℕ} (h : m.read d i n = m'.read d i n) :
    SameOn m m' d (8 * i) (8 * (i + n)) := by
  intro p hlo hhi
  have hk : p / 8 - i < n := by omega
  have hbyte : m d (i + (p / 8 - i)) = m' d (i + (p / 8 - i)) :=
    List.map_inj_left.mp h _ (List.mem_range.mpr hk)
  have hsum : i + (p / 8 - i) = p / 8 := by omega
  rw [hsum] at hbyte
  rw [bit, bit, hbyte]

/-- A row is its bits. -/
theorem row_ext {m m' : ByteMemory ι} {d : ι} (h : ∀ p, m.bit d p = m'.bit d p) : m d = m' d := by
  funext j
  have hsame : m.SameOn m' d (8 * j) (8 * j + 8) := fun p _ _ => h p
  exact byte_eq_of_sameOn hsame le_rfl le_rfl

/-- A memory is its bits. -/
theorem ext_bit {m m' : ByteMemory ι} (h : ∀ d p, m.bit d p = m'.bit d p) : m = m' :=
  funext (fun d => row_ext (h d))

/-! ## Writes -/

variable [DecidableEq ι]

def write (m : ByteMemory ι) (d : ι) (i : ℕ) (bs : List Byte) : ByteMemory ι := fun d' j =>
  if d' = d ∧ i ≤ j ∧ j < i + bs.length then bs.getD (j - i) 0 else m d' j

/-- The byte with bit `k` replaced. -/
def replaceBit (b : Byte) (k : ℕ) (v : Bool) : Byte :=
  if v then b ||| (1#8 <<< k) else b &&& ~~~ (1#8 <<< k)

def setBit (m : ByteMemory ι) (d : ι) (i k : ℕ) (v : Bool) : ByteMemory ι := fun d' j =>
  if d' = d ∧ j = i then replaceBit (m d i) k v else m d' j

theorem write_apply (m : ByteMemory ι) (d : ι) (i k : ℕ) (bs : List Byte) (hk : k < bs.length) :
    m.write d i bs d (i + k) = bs[k] := by
  rw [write, if_pos ⟨rfl, by omega, by omega⟩, Nat.add_sub_cancel_left, List.getD_eq_getElem _ _ hk]

theorem read_write (m : ByteMemory ι) (d : ι) (i : ℕ) (bs : List Byte) :
    (m.write d i bs).read d i bs.length = bs := by
  apply List.ext_getElem (by simp)
  intro k hk hk'
  simp only [read, List.getElem_map, List.getElem_range]
  exact write_apply m d i k bs hk'

/-- A write changes only the bits of its range. -/
theorem bit_write_of_out (m : ByteMemory ι) (d d' : ι) (i : ℕ) (bs : List Byte) (p : ℕ)
    (h : d' ≠ d ∨ p < 8 * i ∨ 8 * (i + bs.length) ≤ p) :
    (m.write d i bs).bit d' p = m.bit d' p := by
  rw [bit, bit, write, if_neg]
  rintro ⟨hd, hlo, hhi⟩
  rcases h with h | h | h
  · exact h hd
  · omega
  · omega

theorem getLsbD_replaceBit (b : Byte) (k j : ℕ) (hk : k < 8) (v : Bool) :
    (replaceBit b k v).getLsbD j = if j = k then v else b.getLsbD j := by
  by_cases hj : j = k
  · subst hj
    cases v <;> simp [replaceBit, hk]
  · by_cases h8 : j < 8
    · by_cases hlt : j < k
      · cases v <;> simp [replaceBit, hj, hlt, h8]
      · have hne : j - k ≠ 0 := by omega
        cases v <;> simp [replaceBit, hj, hlt, h8, hne]
    · have hout : b.getLsbD j = false := BitVec.getLsbD_of_ge b j (by omega)
      cases v <;> simp [replaceBit, hj, h8, hout]

theorem bit_setBit (m : ByteMemory ι) (d d' : ι) (i k : ℕ) (hk : k < 8) (v : Bool) (p : ℕ) :
    (m.setBit d i k v).bit d' p = if d' = d ∧ p = 8 * i + k then v else m.bit d' p := by
  rw [bit, bit, setBit]
  by_cases hd : d' = d ∧ p / 8 = i
  · obtain ⟨rfl, rfl⟩ := hd
    rw [if_pos ⟨rfl, rfl⟩, getLsbD_replaceBit _ _ _ hk]
    by_cases hp : p % 8 = k
    · rw [if_pos hp, if_pos ⟨rfl, by omega⟩]
    · rw [if_neg hp, if_neg (by rintro ⟨-, h⟩; omega)]
  · rw [if_neg hd, if_neg]
    rintro ⟨h, rfl⟩
    exact hd ⟨h, by omega⟩

theorem setBit_of_ge (m : ByteMemory ι) (d : ι) (i k : ℕ) (hk : 8 ≤ k) (v : Bool) :
    m.setBit d i k v = m := by
  have hzero : 1#8 <<< k = 0#8 := BitVec.shiftLeft_eq_zero hk
  funext d' j
  rw [setBit]
  split
  · next h =>
    obtain ⟨rfl, rfl⟩ := h
    rw [replaceBit, hzero]
    cases v with
    | true => exact BitVec.or_zero
    | false => exact BitVec.and_allOnes
  · rfl

theorem bit_write (m : ByteMemory ι) (d : ι) (i : ℕ) (bs : List Byte) {p : ℕ} (hlo : 8 * i ≤ p)
    (hhi : p < 8 * (i + bs.length)) :
    (m.write d i bs).bit d p = (bs.getD (p / 8 - i) 0).getLsbD (p % 8) := by
  rw [bit, write, if_pos ⟨rfl, by omega, by omega⟩]

end ByteMemory
end Foundations
