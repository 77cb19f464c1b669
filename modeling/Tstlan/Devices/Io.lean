import Tstlan.Foundations.Dict
import Tstlan.Foundations.Effect
import Tstlan.Foundations.ByteMemory
import Tstlan.Foundations.Struct

/-! # The device seam (`tstlan/devices/unidriver/io.py`)

`UnidriverIo` is the protocol the backend speaks to a device; `InMemoryUnidriverIo` keeps one byte
buffer per handle, which grows when it is read or written past its end. `memory` reads the buffers as
one unbounded zero-padded memory: the growth is invisible there, so the four operations refine the
reads and writes of `ByteMemory`. -/
namespace Tstlan
open Foundations
set_option autoImplicit false

/-- The operations of the protocol, over the state `σ` behind the seam. -/
class UnidriverIo (σ : Type) where
  readBytes (handle : ℤ) (index size : ℕ) : EStateM PyError σ (List Byte)
  writeBytes (handle : ℤ) (index : ℕ) (value : List Byte) : EStateM PyError σ Unit
  readBit (handle : ℤ) (byteIndex bitIndex : ℕ) : EStateM PyError σ Bool
  writeBit (handle : ℤ) (byteIndex bitIndex : ℕ) (value : Bool) : EStateM PyError σ Unit

/-- A device side whose operations are the reads and writes of one byte memory. -/
class LawfulUnidriverIo (σ : Type) [UnidriverIo σ] where
  memory : σ → ByteMemory ℤ
  readBytes_run (s : σ) (handle : ℤ) (index size : ℕ) :
    ∃ s', (UnidriverIo.readBytes handle index size).run s =
      .ok ((memory s).read handle index size) s' ∧ memory s' = memory s
  writeBytes_run (s : σ) (handle : ℤ) (index : ℕ) (value : List Byte) :
    ∃ s', (UnidriverIo.writeBytes handle index value).run s = .ok () s' ∧
      memory s' = (memory s).write handle index value
  readBit_run (s : σ) (handle : ℤ) (byteIndex bitIndex : ℕ) (hk : bitIndex < 8) :
    ∃ s', (UnidriverIo.readBit handle byteIndex bitIndex).run s =
      .ok ((memory s).bit handle (8 * byteIndex + bitIndex)) s' ∧ memory s' = memory s
  writeBit_run (s : σ) (handle : ℤ) (byteIndex bitIndex : ℕ) (hk : bitIndex < 8) (value : Bool) :
    ∃ s', (UnidriverIo.writeBit handle byteIndex bitIndex value).run s = .ok () s' ∧
      memory s' = (memory s).setBit handle byteIndex bitIndex value

structure InMemoryUnidriverIo where
  buffers : Dict ℤ (List Byte)
  deriving DecidableEq

namespace InMemoryUnidriverIo

/-- `_ensure`: the buffer of the handle, extended with zeros up to `stop`. -/
def ensure (handle : ℤ) (stop : ℕ) : EStateM PyError InMemoryUnidriverIo (List Byte) := fun io =>
  let buffer := (io.buffers.get? handle).getD []
  let buffer := buffer ++ List.replicate (stop - buffer.length) 0
  .ok buffer ⟨io.buffers.set handle buffer⟩

/-- The buffer object of the handle is changed in place. -/
def store (handle : ℤ) (buffer : List Byte) : EStateM PyError InMemoryUnidriverIo Unit := fun io =>
  .ok () ⟨io.buffers.set handle buffer⟩

def readBytes (handle : ℤ) (index size : ℕ) : EStateM PyError InMemoryUnidriverIo (List Byte) := do
  let buffer ← ensure handle (index + size)
  return (buffer.drop index).take size

def writeBytes (handle : ℤ) (index : ℕ) (value : List Byte) :
    EStateM PyError InMemoryUnidriverIo Unit := do
  let buffer ← ensure handle (index + value.length)
  store handle (buffer.take index ++ value ++ buffer.drop (index + value.length))

def readBit (handle : ℤ) (byteIndex bitIndex : ℕ) : EStateM PyError InMemoryUnidriverIo Bool := do
  let buffer ← ensure handle (byteIndex + 1)
  return buffer.getD byteIndex 0 >>> bitIndex &&& 1 ≠ 0

def writeBit (handle : ℤ) (byteIndex bitIndex : ℕ) (value : Bool) :
    EStateM PyError InMemoryUnidriverIo Unit := do
  let buffer ← ensure handle (byteIndex + 1)
  let byte := buffer.getD byteIndex 0
  let mask := 1#8 <<< bitIndex
  if value then
    -- a byte array refuses an element beyond 255
    if bitIndex < 8 then store handle (buffer.set byteIndex (byte ||| mask)) else throw .valueError
  else store handle (buffer.set byteIndex (byte &&& ~~~ mask))

instance : UnidriverIo InMemoryUnidriverIo where
  readBytes := readBytes
  writeBytes := writeBytes
  readBit := readBit
  writeBit := writeBit

/-! ## The zero-padded view -/

def memory (io : InMemoryUnidriverIo) : ByteMemory ℤ := fun handle i =>
  ((io.buffers.get? handle).getD []).getD i 0

/-- The buffer `ensure` returns. -/
def ensured (io : InMemoryUnidriverIo) (handle : ℤ) (stop : ℕ) : List Byte :=
  let buffer := (io.buffers.get? handle).getD []
  buffer ++ List.replicate (stop - buffer.length) 0

theorem ensure_run (io : InMemoryUnidriverIo) (handle : ℤ) (stop : ℕ) :
    (ensure handle stop).run io =
      .ok (io.ensured handle stop) ⟨io.buffers.set handle (io.ensured handle stop)⟩ := rfl

theorem le_length_ensured (io : InMemoryUnidriverIo) (handle : ℤ) (stop : ℕ) :
    stop ≤ (io.ensured handle stop).length := by
  simp only [ensured, List.length_append, List.length_replicate]
  omega

theorem getD_ensured (io : InMemoryUnidriverIo) (handle : ℤ) (stop i : ℕ) :
    (io.ensured handle stop).getD i 0 = io.memory handle i := by
  rw [ensured, memory]
  generalize (io.buffers.get? handle).getD [] = buffer
  by_cases h : i < buffer.length
  · rw [List.getD_append _ _ _ _ h]
  · rw [List.getD_append_right _ _ _ _ (by omega), List.getD_eq_default buffer _ (by omega)]
    by_cases hn : i - buffer.length < stop - buffer.length
    · rw [List.getD_replicate _ hn]
    · rw [List.getD_eq_default _ _ (by rw [List.length_replicate]; omega)]

/-- Assigning a buffer changes the view of its handle only. -/
theorem memory_set (d : Dict ℤ (List Byte)) (handle h : ℤ) (buffer : List Byte) (i : ℕ) :
    memory ⟨d.set handle buffer⟩ h i = if h = handle then buffer.getD i 0 else memory ⟨d⟩ h i := by
  rw [memory, Dict.get?_set]
  split <;> rfl

theorem memory_ensure (io : InMemoryUnidriverIo) (handle : ℤ) (stop : ℕ) :
    memory ⟨io.buffers.set handle (io.ensured handle stop)⟩ = io.memory := by
  funext h i
  rw [memory_set, getD_ensured]
  split
  · next hh => rw [hh]
  · rfl

/-- Reading past the buffer or inside it gives the same bytes as the view. -/
theorem read_memory (io : InMemoryUnidriverIo) (handle : ℤ) (index size : ℕ) :
    io.memory.read handle index size =
      ((io.ensured handle (index + size)).drop index).take size := by
  have hlen := io.le_length_ensured handle (index + size)
  apply List.ext_getElem
  · rw [ByteMemory.length_read, List.length_take, List.length_drop]
    omega
  · intro k hk hk'
    rw [ByteMemory.length_read] at hk
    simp only [ByteMemory.read, List.getElem_map, List.getElem_range, List.getElem_take,
      List.getElem_drop]
    rw [← getD_ensured io handle (index + size), List.getD_eq_getElem _ _ (by omega)]

theorem getD_splice (buffer value : List Byte) (index i : ℕ) (h : index + value.length ≤ buffer.length) :
    (buffer.take index ++ value ++ buffer.drop (index + value.length)).getD i 0 =
      if index ≤ i ∧ i < index + value.length then value.getD (i - index) 0 else buffer.getD i 0 := by
  have hlen : (buffer.take index).length = index := by
    rw [List.length_take]
    omega
  by_cases hlo : i < index
  · rw [List.append_assoc, List.getD_append _ _ _ _ (by omega), if_neg (by omega)]
    simp only [List.getD_eq_getElem?_getD, List.getElem?_take_of_lt hlo]
  · by_cases hhi : i < index + value.length
    · rw [List.append_assoc, List.getD_append_right _ _ _ _ (by omega), hlen,
        List.getD_append _ _ _ _ (by omega), if_pos ⟨by omega, hhi⟩]
    · rw [List.getD_append_right _ _ _ _ (by rw [List.length_append]; omega), List.length_append, hlen,
        if_neg (by omega)]
      simp only [List.getD_eq_getElem?_getD, List.getElem?_drop]
      congr 2
      omega

/-! ## The operations on the view -/

theorem readBytes_run (io : InMemoryUnidriverIo) (handle : ℤ) (index size : ℕ) :
    ∃ io', (readBytes handle index size).run io = .ok (io.memory.read handle index size) io' ∧
      io'.memory = io.memory := by
  refine ⟨_, ?_, memory_ensure io handle (index + size)⟩
  rw [readBytes, run_bind_ok (ensure_run io handle _), read_memory]
  rfl

theorem writeBytes_run (io : InMemoryUnidriverIo) (handle : ℤ) (index : ℕ) (value : List Byte) :
    ∃ io', (writeBytes handle index value).run io = .ok () io' ∧
      io'.memory = io.memory.write handle index value := by
  refine ⟨_, by rw [writeBytes, run_bind_ok (ensure_run io handle _)]; rfl, ?_⟩
  funext h i
  rw [memory_set, memory_ensure, ByteMemory.write,
    getD_splice _ _ _ _ (io.le_length_ensured handle _), getD_ensured]
  by_cases hh : h = handle
  · subst hh
    simp only [true_and, if_true]
  · simp only [hh, false_and, if_false]

theorem readBit_run (io : InMemoryUnidriverIo) (handle : ℤ) (byteIndex bitIndex : ℕ)
    (hk : bitIndex < 8) :
    ∃ io', (readBit handle byteIndex bitIndex).run io =
        .ok (io.memory.bit handle (8 * byteIndex + bitIndex)) io' ∧ io'.memory = io.memory := by
  refine ⟨_, ?_, memory_ensure io handle (byteIndex + 1)⟩
  have hdiv : (8 * byteIndex + bitIndex) / 8 = byteIndex := by omega
  have hmod : (8 * byteIndex + bitIndex) % 8 = bitIndex := by omega
  rw [readBit, run_bind_ok (ensure_run io handle _), getD_ensured, ByteMemory.bit, hdiv, hmod]
  have hbit (b : Byte) : decide (b >>> bitIndex &&& 1 ≠ 0) = b.getLsbD bitIndex := by
    change decide (b >>> bitIndex &&& 1#8 ≠ 0) = _
    rw [BitVec.and_one_eq_setWidth_ofBool_getLsbD, BitVec.getLsbD_ushiftRight, Nat.add_zero]
    cases b.getLsbD bitIndex <;> decide
  change EStateM.Result.ok _ _ = _
  rw [hbit]

theorem memory_store_byte (io : InMemoryUnidriverIo) (handle : ℤ) (byteIndex : ℕ) (byte : Byte) :
    memory ⟨(io.buffers.set handle (io.ensured handle (byteIndex + 1))).set handle
        ((io.ensured handle (byteIndex + 1)).set byteIndex byte)⟩ =
      fun h i => if h = handle ∧ i = byteIndex then byte else io.memory h i := by
  funext h i
  have hlen := io.le_length_ensured handle (byteIndex + 1)
  rw [memory_set, memory_ensure]
  by_cases hh : h = handle
  · subst hh
    by_cases hi : i = byteIndex
    · subst hi
      rw [if_pos rfl, if_pos ⟨rfl, rfl⟩, List.getD_eq_getElem _ _ (by rw [List.length_set]; omega),
        List.getElem_set_self]
    · rw [if_pos rfl, if_neg (by tauto), ← getD_ensured io h (byteIndex + 1)]
      simp only [List.getD_eq_getElem?_getD, List.getElem?_set_ne (Ne.symm hi)]
  · rw [if_neg hh, if_neg (by tauto)]

theorem writeBit_run (io : InMemoryUnidriverIo) (handle : ℤ) (byteIndex bitIndex : ℕ)
    (hk : bitIndex < 8) (value : Bool) :
    ∃ io', (writeBit handle byteIndex bitIndex value).run io = .ok () io' ∧
      io'.memory = io.memory.setBit handle byteIndex bitIndex value := by
  have hread : (io.ensured handle (byteIndex + 1)).getD byteIndex 0 = io.memory handle byteIndex :=
    getD_ensured io handle _ _
  have hrun : (writeBit handle byteIndex bitIndex value).run io = .ok () ⟨(io.buffers.set handle
      (io.ensured handle (byteIndex + 1))).set handle ((io.ensured handle (byteIndex + 1)).set byteIndex
        (ByteMemory.replaceBit (io.memory handle byteIndex) bitIndex value))⟩ := by
    rw [writeBit, run_bind_ok (ensure_run io handle _), hread]
    cases value
    · rfl
    · rw [if_pos rfl, if_pos hk]
      rfl
  exact ⟨_, hrun, memory_store_byte io handle byteIndex _⟩

/-! ## The buffers themselves -/

/-- The buffer of the handle exists and reaches `stop`, so no operation below `stop` grows it. -/
def Reaches (io : InMemoryUnidriverIo) (handle : ℤ) (stop : ℕ) : Prop :=
  ∃ buffer, io.buffers.get? handle = some buffer ∧ stop ≤ buffer.length

/-- `io'` is `io` with one buffer stored, as long as the extended one. -/
def StoredAt (io io' : InMemoryUnidriverIo) (handle : ℤ) (stop : ℕ) : Prop :=
  ∃ buffer, io' = ⟨io.buffers.set handle buffer⟩ ∧ buffer.length = (io.ensured handle stop).length

theorem writeBytes_stored {io io' : InMemoryUnidriverIo} {handle : ℤ} {index : ℕ} {value : List Byte}
    (h : (writeBytes handle index value).run io = .ok () io') :
    StoredAt io io' handle (index + value.length) := by
  rw [writeBytes, run_bind_ok (ensure_run io handle _)] at h
  cases h
  refine ⟨_, by rw [Dict.set_set], ?_⟩
  have hlen := io.le_length_ensured handle (index + value.length)
  simp only [List.length_append, List.length_take, List.length_drop]
  omega

theorem writeBit_stored {io io' : InMemoryUnidriverIo} {handle : ℤ} {byteIndex bitIndex : ℕ}
    (hk : bitIndex < 8) {value : Bool}
    (h : (writeBit handle byteIndex bitIndex value).run io = .ok () io') :
    StoredAt io io' handle (byteIndex + 1) := by
  rw [writeBit, run_bind_ok (ensure_run io handle _)] at h
  simp only [if_pos hk] at h
  cases value with
  | true =>
    cases h
    exact ⟨_, by rw [Dict.set_set], List.length_set⟩
  | false =>
    cases h
    exact ⟨_, by rw [Dict.set_set], List.length_set⟩

/-- A store leaves the buffers exactly as they were if and only if the buffer was long enough and the
view is unchanged. -/
theorem StoredAt.eq_iff {io io' : InMemoryUnidriverIo} {handle : ℤ} {stop : ℕ}
    (h : StoredAt io io' handle stop) : io' = io ↔ io.Reaches handle stop ∧ io'.memory = io.memory := by
  obtain ⟨buffer, rfl, hlen⟩ := h
  constructor
  · intro heq
    refine ⟨⟨buffer, ?_, ?_⟩, by rw [heq]⟩
    · have hb : io.buffers.set handle buffer = io.buffers := congrArg buffers heq
      rw [← hb, Dict.get?_set_self]
    · rw [hlen]
      exact io.le_length_ensured handle stop
  · rintro ⟨⟨old, hold, hstop⟩, hmem⟩
    have hens : io.ensured handle stop = old := by
      rw [ensured, hold, Option.getD_some, Nat.sub_eq_zero_of_le hstop, List.replicate_zero,
        List.append_nil]
    rw [hens] at hlen
    have hsame : buffer = old := by
      apply List.ext_getElem hlen
      intro i hi hi'
      have hcell := congrFun (congrFun hmem handle) i
      rw [memory_set, if_pos rfl, memory, hold, Option.getD_some, List.getD_eq_getElem _ _ hi,
        List.getD_eq_getElem _ _ hi'] at hcell
      exact hcell
    rw [hsame, Dict.set_of_get? hold]

instance : LawfulUnidriverIo InMemoryUnidriverIo where
  memory := memory
  readBytes_run := readBytes_run
  writeBytes_run := writeBytes_run
  readBit_run := readBit_run
  writeBit_run := writeBit_run

end InMemoryUnidriverIo
end Tstlan
