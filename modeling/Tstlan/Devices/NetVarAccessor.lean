import Tstlan.Configs.Layout
import Tstlan.Devices.Io

/-! # Access to one variable (`tstlan/devices/unidriver/netvar.py`)

An accessor reads and writes one variable through the device seam, at the address derived from the
layout. Over a seam that is a byte memory the value an accessor reads is a function of the bits of its
place (`value`), and a write changes only those bits (`stored`). The accessors of one scheme have
disjoint places, so they behave as independent registers: that is the last section. -/
namespace Tstlan
open Foundations
set_option autoImplicit false

/-- `_STRUCT_FORMAT`: there is no entry for a bit. -/
def structFormat : NetVarCType → Option Format
  | .BIT => none
  | .U8 => some (.unsigned 1)
  | .I8 => some (.signed 1)
  | .U16 => some (.unsigned 2)
  | .I16 => some (.signed 2)
  | .U32 => some (.unsigned 4)
  | .I32 => some (.signed 4)
  | .U64 => some (.unsigned 8)
  | .I64 => some (.signed 8)
  | .F32 => some .single
  | .F64 => some .double

theorem structFormat_size {c : NetVarCType} {f : Format} (h : structFormat c = some f) :
    f.size = c.byteSize := by
  cases c <;> simp only [structFormat, Option.some.injEq, reduceCtorEq] at h <;> subst h <;> rfl

theorem structFormat_bit {c : NetVarCType} : structFormat c = none ↔ c = .BIT := by
  cases c <;> simp [structFormat]

/-- The values a variable of the C type represents exactly. -/
def NetVarCType.InRange (c : NetVarCType) (v : Number) : Prop :=
  match structFormat c with
  | none => v = .int 0 ∨ v = .int 1
  | some f => f.InRange v

structure NetVarAccessor where
  handle : ℤ
  var : NetVar
  offset : VarOffset
  deriving DecidableEq

namespace NetVarAccessor
variable {σ : Type} [UnidriverIo σ]

def get (acc : NetVarAccessor) : EStateM PyError σ Number :=
  if acc.var.ctype = .BIT then
    match acc.offset.bit with
    | none => throw .assertionError
    | some k => do
      let b ← UnidriverIo.readBit acc.handle acc.offset.byte k
      return .int (if b then 1 else 0)
  else do
    let raw ← UnidriverIo.readBytes acc.handle acc.offset.byte acc.var.ctype.byteSize
    match structFormat acc.var.ctype with
    | none => throw .keyError
    | some f => fromExcept (f.unpack raw)

def set (acc : NetVarAccessor) (value : Number) : EStateM PyError σ Unit :=
  if acc.var.ctype = .BIT then
    match acc.offset.bit with
    | none => throw .assertionError
    | some k => UnidriverIo.writeBit acc.handle acc.offset.byte k value.truthy
  else
    match structFormat acc.var.ctype with
    | none => throw .keyError
    | some f => do
      let packed ← fromExcept (f.pack value)
      UnidriverIo.writeBytes acc.handle acc.offset.byte packed

/-! ## The place of an accessor -/

def start (acc : NetVarAccessor) : ℕ := acc.offset.start

def stop (acc : NetVarAccessor) : ℕ := acc.offset.stop acc.var.ctype

/-- The address fits the C type, as every derived address does. -/
def Wf (acc : NetVarAccessor) : Prop := acc.offset.Wf acc.var.ctype

/-- What the accessor reads from a memory. -/
def value (acc : NetVarAccessor) (m : ByteMemory ℤ) : Except PyError Number :=
  match structFormat acc.var.ctype with
  | none => .ok (.int (if m.bit acc.handle acc.start then 1 else 0))
  | some f => f.unpack (m.read acc.handle acc.offset.byte f.size)

/-- The memory after the accessor wrote. -/
def stored (acc : NetVarAccessor) (m : ByteMemory ℤ) (v : Number) : Except PyError (ByteMemory ℤ) :=
  match structFormat acc.var.ctype with
  | none => .ok (m.setBit acc.handle acc.offset.byte (acc.offset.bit.getD 0) v.truthy)
  | some f => (f.pack v).map (m.write acc.handle acc.offset.byte)

/-- Two accessors whose places share no bit. -/
def Disjoint (a b : NetVarAccessor) : Prop :=
  a.handle ≠ b.handle ∨ a.stop ≤ b.start ∨ b.stop ≤ a.start

theorem Disjoint.symm {a b : NetVarAccessor} (h : a.Disjoint b) : b.Disjoint a := by
  rcases h with h | h | h
  · exact .inl (Ne.symm h)
  · exact .inr (.inr h)
  · exact .inr (.inl h)

section
variable {acc : NetVarAccessor} {f : Format} {m m' : ByteMemory ℤ} {v : Number}

theorem place_of_bit (hw : acc.Wf) (hbit : acc.var.ctype = .BIT) :
    ∃ k < 8, acc.offset.bit = some k ∧ acc.start = 8 * acc.offset.byte + k ∧
      acc.stop = 8 * acc.offset.byte + k + 1 := by
  rw [Wf, hbit] at hw
  obtain ⟨k, hk, hlt⟩ := hw.bit
  have hstart : acc.start = 8 * acc.offset.byte + k := by
    rw [start, VarOffset.start, hk]
    rfl
  refine ⟨k, hlt, hk, hstart, ?_⟩
  rw [stop, VarOffset.stop, if_pos hbit, ← hstart]
  rfl

theorem ctype_ne_bit (hf : structFormat acc.var.ctype = some f) : acc.var.ctype ≠ .BIT := by
  intro h
  rw [structFormat_bit.mpr h] at hf
  cases hf

theorem place_of_format (hw : acc.Wf) (hf : structFormat acc.var.ctype = some f) :
    acc.start = 8 * acc.offset.byte ∧ acc.stop = 8 * (acc.offset.byte + f.size) := by
  have hne := ctype_ne_bit hf
  have hstart : acc.start = 8 * acc.offset.byte := by
    rw [start, VarOffset.start, VarOffset.Wf.no_bit hw hne]
    rfl
  refine ⟨hstart, ?_⟩
  rw [stop, VarOffset.stop, if_neg hne, structFormat_size hf]
  rw [start] at hstart
  omega

theorem value_of_bit (hbit : acc.var.ctype = .BIT) :
    acc.value m = .ok (.int (if m.bit acc.handle acc.start then 1 else 0)) := by
  rw [value, structFormat_bit.mpr hbit]

theorem value_of_format (hf : structFormat acc.var.ctype = some f) :
    acc.value m = f.unpack (m.read acc.handle acc.offset.byte f.size) := by
  rw [value, hf]

theorem stored_of_bit (hbit : acc.var.ctype = .BIT) :
    acc.stored m v =
      .ok (m.setBit acc.handle acc.offset.byte (acc.offset.bit.getD 0) v.truthy) := by
  rw [stored, structFormat_bit.mpr hbit]

theorem stored_of_format (hf : structFormat acc.var.ctype = some f) :
    acc.stored m v = (f.pack v).map (m.write acc.handle acc.offset.byte) := by
  rw [stored, hf]

/-- A bit or a packed format: the two ways a variable is stored. -/
theorem bit_or_format (acc : NetVarAccessor) :
    acc.var.ctype = .BIT ∨ ∃ f, structFormat acc.var.ctype = some f := by
  cases hf : structFormat acc.var.ctype with
  | none => exact .inl (structFormat_bit.mp hf)
  | some f => exact .inr ⟨f, rfl⟩

theorem value_congr (hw : acc.Wf) (h : m.SameOn m' acc.handle acc.start acc.stop) :
    acc.value m = acc.value m' := by
  rcases bit_or_format acc with hbit | ⟨f, hf⟩
  · rw [value_of_bit hbit, value_of_bit hbit]
    rw [h acc.start le_rfl (VarOffset.start_lt_stop acc.offset acc.var.ctype)]
  · obtain ⟨h1, h2⟩ := place_of_format hw hf
    rw [h1, h2] at h
    rw [value_of_format hf, value_of_format hf, ByteMemory.read_congr h]

theorem stored_eq_ok (hf : structFormat acc.var.ctype = some f) (h : acc.stored m v = .ok m') :
    ∃ bs, f.pack v = .ok bs ∧ m' = m.write acc.handle acc.offset.byte bs := by
  rw [stored_of_format hf] at h
  cases hp : f.pack v with
  | error e => rw [hp] at h; cases h
  | ok bs =>
    rw [hp] at h
    simp only [Except.map, Except.ok.injEq] at h
    exact ⟨bs, rfl, h.symm⟩

/-- A write changes no bit outside the place. -/
theorem bit_stored (hw : acc.Wf) (h : acc.stored m v = .ok m') {d : ℤ} {p : ℕ}
    (hout : d ≠ acc.handle ∨ p < acc.start ∨ acc.stop ≤ p) : m'.bit d p = m.bit d p := by
  rcases bit_or_format acc with hbit | ⟨f, hf⟩
  · obtain ⟨k, hlt, hk, hstart, hstop⟩ := place_of_bit hw hbit
    rw [stored_of_bit hbit, hk, Option.getD_some, Except.ok.injEq] at h
    rw [← h, ByteMemory.bit_setBit _ _ _ _ _ hlt, if_neg]
    rintro ⟨hd, hp⟩
    rcases hout with hout | hout | hout
    · exact hout hd
    · omega
    · omega
  · obtain ⟨bs, hp, rfl⟩ := stored_eq_ok hf h
    obtain ⟨h1, h2⟩ := place_of_format hw hf
    apply ByteMemory.bit_write_of_out
    rw [Format.length_of_pack hp, ← h1, ← h2]
    exact hout

/-- Writing through one accessor does not change what a disjoint one reads. -/
theorem value_stored_of_disjoint {other : NetVarAccessor} (hw : acc.Wf) (ho : other.Wf)
    (hd : acc.Disjoint other) (h : acc.stored m v = .ok m') : other.value m' = other.value m := by
  apply value_congr ho
  intro p hlo hhi
  apply bit_stored hw h
  rcases hd with hd | hd | hd
  · exact .inl (Ne.symm hd)
  · exact .inr (.inr (by omega))
  · exact .inr (.inl (by omega))

theorem value_stored (hw : acc.Wf) (hv : acc.var.ctype.InRange v) (m : ByteMemory ℤ) :
    ∃ m', acc.stored m v = .ok m' ∧ acc.value m' = .ok v := by
  rw [NetVarCType.InRange] at hv
  rcases bit_or_format acc with hbit | ⟨f, hf⟩
  · obtain ⟨k, hlt, hk, hstart, -⟩ := place_of_bit hw hbit
    refine ⟨_, stored_of_bit hbit, ?_⟩
    have hread : (m.setBit acc.handle acc.offset.byte k v.truthy).bit acc.handle acc.start =
        v.truthy := by
      rw [ByteMemory.bit_setBit _ _ _ _ _ hlt, if_pos ⟨rfl, hstart⟩]
    rw [value_of_bit hbit, hk, Option.getD_some, hread]
    rw [structFormat_bit.mpr hbit] at hv
    rcases hv with rfl | rfl <;> rfl
  · rw [hf] at hv
    obtain ⟨bs, hp, hu⟩ := Format.unpack_pack hv
    refine ⟨m.write acc.handle acc.offset.byte bs, by rw [stored_of_format hf, hp]; rfl, ?_⟩
    rw [value_of_format hf, ← Format.length_of_pack hp, ByteMemory.read_write]
    exact hu

theorem value_ok (acc : NetVarAccessor) (m : ByteMemory ℤ) : ∃ v, acc.value m = .ok v := by
  rcases bit_or_format acc with hbit | ⟨f, hf⟩
  · exact ⟨_, value_of_bit hbit⟩
  · rw [value_of_format hf]
    exact Format.unpack_ok (ByteMemory.length_read _ _ _ _)

end

/-! ## From one seam to another -/

/-- A read of a variable is one read of its place and what is made of that. -/
theorem get_transfer {σ' : Type} [UnidriverIo σ'] {acc : NetVarAccessor} {v : Number} {s t : σ} {s' t' : σ'}
    (hbytes : acc.var.ctype ≠ .BIT → ∀ raw,
      (UnidriverIo.readBytes acc.handle acc.offset.byte acc.var.ctype.byteSize).run s = .ok raw t →
      (UnidriverIo.readBytes acc.handle acc.offset.byte acc.var.ctype.byteSize).run s' = .ok raw t')
    (hbits : acc.var.ctype = .BIT → ∀ k b, (UnidriverIo.readBit acc.handle acc.offset.byte k).run s = .ok b t →
      (UnidriverIo.readBit acc.handle acc.offset.byte k).run s' = .ok b t')
    (h : acc.get.run s = .ok v t) : acc.get.run s' = .ok v t' := by
  unfold get at h ⊢
  by_cases hbit : acc.var.ctype = .BIT
  · rw [if_pos hbit] at h ⊢
    cases hk : acc.offset.bit with
    | none => rw [hk] at h; cases h
    | some k =>
      rw [hk] at h
      obtain ⟨b, t₁, hread, hpure⟩ := bind_eq_ok h
      cases hpure
      exact run_bind_ok (hbits hbit k b hread)
  · rw [if_neg hbit] at h ⊢
    obtain ⟨raw, t₁, hread, hunpack⟩ := bind_eq_ok h
    cases hf : structFormat acc.var.ctype with
    | none => rw [hf] at hunpack; cases hunpack
    | some f =>
      simp only [hf] at hunpack
      cases hv : f.unpack raw with
      | error e => rw [hv] at hunpack; cases hunpack
      | ok x =>
        rw [hv] at hunpack
        cases hunpack
        rw [run_bind_ok (hbytes hbit raw hread)]
        simp only [hv]
        rfl

/-! ## The operations over a lawful seam -/

section
variable [LawfulUnidriverIo σ] {acc : NetVarAccessor}
open LawfulUnidriverIo (memory)

theorem get_run (hw : acc.Wf) (s : σ) :
    ∃ v s', acc.get.run s = .ok v s' ∧ acc.value (memory s) = .ok v ∧ memory s' = memory s := by
  rcases bit_or_format acc with hbit | ⟨f, hf⟩
  · obtain ⟨k, hlt, hk, hstart, -⟩ := place_of_bit hw hbit
    obtain ⟨s', hrun, hmem⟩ := LawfulUnidriverIo.readBit_run s acc.handle acc.offset.byte k hlt
    refine ⟨_, s', ?_, value_of_bit hbit, hmem⟩
    rw [get, if_pos hbit, hk, hstart]
    exact run_bind_ok hrun
  · obtain ⟨s', hrun, hmem⟩ :=
      LawfulUnidriverIo.readBytes_run s acc.handle acc.offset.byte acc.var.ctype.byteSize
    obtain ⟨v, hv⟩ := value_ok acc (memory s)
    refine ⟨v, s', ?_, hv, hmem⟩
    rw [value_of_format hf, structFormat_size hf] at hv
    rw [get, if_neg (ctype_ne_bit hf), run_bind_ok hrun, hf]
    simp only [hv, run_fromExcept_ok]

theorem set_run (hw : acc.Wf) {s : σ} {v : Number} {m' : ByteMemory ℤ}
    (h : acc.stored (memory s) v = .ok m') :
    ∃ s', (acc.set v).run s = .ok () s' ∧ memory s' = m' := by
  rcases bit_or_format acc with hbit | ⟨f, hf⟩
  · obtain ⟨k, hlt, hk, -, -⟩ := place_of_bit hw hbit
    rw [stored_of_bit hbit, hk, Option.getD_some, Except.ok.injEq] at h
    rw [set, if_pos hbit, hk, ← h]
    exact LawfulUnidriverIo.writeBit_run s acc.handle acc.offset.byte k hlt v.truthy
  · obtain ⟨bs, hp, rfl⟩ := stored_eq_ok hf h
    rw [set, if_neg (ctype_ne_bit hf), hf]
    simp only [hp]
    exact LawfulUnidriverIo.writeBytes_run s acc.handle acc.offset.byte bs

/-- A value that cannot be packed is refused before the seam is touched. -/
theorem set_run_error {s : σ} {v : Number} {e : PyError}
    (h : acc.stored (memory s) v = .error e) : (acc.set v).run s = .error e s := by
  rcases bit_or_format acc with hbit | ⟨f, hf⟩
  · rw [stored_of_bit hbit] at h
    cases h
  · rw [stored_of_format hf] at h
    rw [set, if_neg (ctype_ne_bit hf), hf]
    cases hp : f.pack v with
    | ok bs => rw [hp] at h; cases h
    | error e' =>
      rw [hp] at h
      cases h
      simp only [hp]
      rfl

end

end NetVarAccessor
end Tstlan
