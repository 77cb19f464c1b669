import Tstlan.Foundations.LittleEndian
import Tstlan.Foundations.Binary

/-! # Run-time numbers and their packed little-endian form

Numbers of a dynamically typed language (unbounded integers, Booleans that count as integers, doubles)
and the fixed-width formats they are packed into. Packing refuses what the format cannot hold;
`unpack_pack` is the round trip for the values that are in range. -/
namespace Foundations
set_option autoImplicit false

/-- Exceptions of the language and of its standard library. -/
inductive PyError
  | assertionError
  | keyError
  | valueError
  | overflowError
  | structError
  | osError
  | typeError
  | attributeError
  | zeroDivisionError
  deriving DecidableEq, Repr

inductive Number
  | int (n : ℤ)
  | bool (b : Bool)
  | float (x : Binary.Double)
  deriving DecidableEq, Repr

namespace Number

/-- The truth value of a number: both zeros of the doubles are false. -/
def truthy : Number → Bool
  | .int n => n ≠ 0
  | .bool b => b
  | .float x => Binary.Double.magnitude x ≠ 0

/-- The number as an integer, where the language converts without loss. -/
def index : Number → Except PyError ℤ
  | .int n => .ok n
  | .bool b => .ok (if b then 1 else 0)
  | .float _ => .error .structError

/-- The number as a double. -/
def toDouble : Number → Except PyError Binary.Double
  | .int n => (Binary.ofInt n).elim (.error .overflowError) .ok
  | .bool b => (Binary.ofInt (if b then 1 else 0)).elim (.error .overflowError) .ok
  | .float x => .ok x

end Number

/-! ## Formats -/

/-- A packed little-endian format: an integer of `w` bytes, or a binary floating-point number. -/
inductive Format
  | unsigned (w : ℕ)
  | signed (w : ℕ)
  | single
  | double
  deriving DecidableEq, Repr

namespace Format
open LittleEndian

def size : Format → ℕ
  | .unsigned w => w
  | .signed w => w
  | .single => 4
  | .double => 8

/-- The integers a format of integers holds. -/
def Holds : Format → ℤ → Prop
  | .unsigned w, n => 0 ≤ n ∧ n < 256 ^ w
  | .signed w, n => -(256 ^ w : ℤ) ≤ 2 * n ∧ 2 * n < 256 ^ w
  | .single, _ => False
  | .double, _ => False

instance : (f : Format) → (n : ℤ) → Decidable (f.Holds n)
  | .unsigned w, n => inferInstanceAs (Decidable (0 ≤ n ∧ n < 256 ^ w))
  | .signed w, n => inferInstanceAs (Decidable (-(256 ^ w : ℤ) ≤ 2 * n ∧ 2 * n < 256 ^ w))
  | .single, _ => inferInstanceAs (Decidable False)
  | .double, _ => inferInstanceAs (Decidable False)

def pack (f : Format) (v : Number) : Except PyError (List Byte) :=
  match f with
  | .unsigned w => do
    let n ← v.index
    if (unsigned w).Holds n then .ok (encode w n.toNat) else .error .structError
  | .signed w => do
    let n ← v.index
    if (signed w).Holds n then .ok (encodeSigned w n) else .error .structError
  | .single => do
    let x ← v.toDouble
    match Binary.narrow x with
    | some p => .ok (encode 4 p.toNat)
    | none => .error .overflowError
  | .double => do
    let x ← v.toDouble
    .ok (encode 8 x.toNat)

def unpack (f : Format) (bs : List Byte) : Except PyError Number :=
  if bs.length = f.size then
    match f with
    | .unsigned _ => .ok (.int (decode bs))
    | .signed w => .ok (.int (decodeSigned w bs))
    | .single => .ok (.float (Binary.widen (BitVec.ofNat 32 (decode bs))))
    | .double => .ok (.float (BitVec.ofNat 64 (decode bs)))
  else .error .structError

/-- The values a format represents exactly: the integers it holds, the doubles that a single widens to,
every double. -/
def InRange (f : Format) (v : Number) : Prop :=
  match f with
  | .unsigned w => ∃ n, v = .int n ∧ (unsigned w).Holds n
  | .signed w => ∃ n, v = .int n ∧ (signed w).Holds n
  | .single => ∃ p : Binary.Single, v = .float (Binary.widen p)
  | .double => ∃ x : Binary.Double, v = .float x

theorem length_of_pack {f : Format} {v : Number} {bs : List Byte} (h : f.pack v = .ok bs) :
    bs.length = f.size := by
  cases f with
  | unsigned w =>
    simp only [pack, bind, Except.bind] at h
    split at h
    · cases h
    · split at h
      · cases h
        exact length_encode _ _
      · cases h
  | signed w =>
    simp only [pack, bind, Except.bind] at h
    split at h
    · cases h
    · split at h
      · cases h
        exact length_encodeSigned _ _
      · cases h
  | single =>
    simp only [pack, bind, Except.bind] at h
    split at h
    · cases h
    · split at h
      · cases h
        exact length_encode _ _
      · cases h
  | double =>
    simp only [pack, bind, Except.bind] at h
    split at h
    · cases h
    · cases h
      exact length_encode _ _

theorem pack_single {x : Binary.Double} {p : Binary.Single} (h : Binary.narrow x = some p) :
    single.pack (.float x) = .ok (encode 4 p.toNat) := by
  simp only [pack, Number.toDouble, bind, Except.bind, h]

theorem pack_double (x : Binary.Double) : double.pack (.float x) = .ok (encode 8 x.toNat) := by
  simp only [pack, Number.toDouble, bind, Except.bind]

/-- A value in range is packed, and unpacking gives it back. -/
theorem unpack_pack {f : Format} {v : Number} (h : f.InRange v) :
    ∃ bs, f.pack v = .ok bs ∧ f.unpack bs = .ok v := by
  cases f with
  | unsigned w =>
    obtain ⟨n, rfl, hn⟩ := h
    refine ⟨encode w n.toNat, by simp [pack, Number.index, bind, Except.bind, hn], ?_⟩
    have hlt : n.toNat < 256 ^ w := by
      have hcast : ((256 ^ w : ℕ) : ℤ) = 256 ^ w := by push_cast; rfl
      have := hn.1
      have := hn.2
      omega
    have hback : ((n.toNat : ℕ) : ℤ) = n := Int.toNat_of_nonneg hn.1
    simp [unpack, size, decode_encode_of_lt hlt, hback]
  | signed w =>
    obtain ⟨n, rfl, hn⟩ := h
    refine ⟨encodeSigned w n, by simp [pack, Number.index, bind, Except.bind, hn], ?_⟩
    simp [unpack, size, decodeSigned_encodeSigned hn.1 hn.2]
  | single =>
    obtain ⟨p, rfl⟩ := h
    refine ⟨encode 4 p.toNat, pack_single (Binary.narrow_widen p), ?_⟩
    have hp := p.isLt
    have hlt : p.toNat < 256 ^ 4 := by omega
    have hlen : (encode 4 p.toNat).length = single.size := length_encode 4 p.toNat
    rw [unpack, if_pos hlen]
    simp only [decode_encode_of_lt hlt, BitVec.ofNat_toNat, BitVec.setWidth_eq]
  | double =>
    obtain ⟨x, rfl⟩ := h
    refine ⟨encode 8 x.toNat, pack_double x, ?_⟩
    have hx := x.isLt
    have hlt : x.toNat < 256 ^ 8 := by omega
    have hlen : (encode 8 x.toNat).length = double.size := length_encode 8 x.toNat
    rw [unpack, if_pos hlen]
    simp only [decode_encode_of_lt hlt, BitVec.ofNat_toNat, BitVec.setWidth_eq]

theorem unpack_ok {f : Format} {bs : List Byte} (h : bs.length = f.size) :
    ∃ v, f.unpack bs = .ok v := by
  cases f <;> simp [unpack, h]

theorem inRange_of_unpack {f : Format} {bs : List Byte} {v : Number} (h : f.unpack bs = .ok v) : f.InRange v := by
  unfold unpack at h
  split at h
  · next hlen =>
    cases f with
    | unsigned w =>
      cases h
      refine ⟨_, rfl, by omega, ?_⟩
      have hlt := decode_lt bs
      rw [hlen, size] at hlt
      exact_mod_cast hlt
    | signed w =>
      cases h
      exact ⟨_, rfl, decodeSigned_bounds hlen⟩
    | single =>
      cases h
      exact ⟨_, rfl⟩
    | double =>
      cases h
      exact ⟨_, rfl⟩
  · cases h

end Format
end Foundations
