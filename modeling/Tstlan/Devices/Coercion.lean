import Tstlan.Devices.WriteValue

/-! # Which values a C type holds

`coerce_value` and the packed formats are two tables over the C types. What the first lets through an integer
type is held by it exactly; a float type holds what it is given only as far as the double, or the single,
represents it. -/
namespace Tstlan
open Foundations
set_option autoImplicit false

/-! ## Integers of a C type -/

variable {c : NetVarCType} {low high v : ℤ}

theorem inRange_of_intRange (h : intRange c = some (low, high)) (hlow : low ≤ v) (hhigh : v ≤ high) :
    c.InRange (.int v) := by
  cases c <;> simp only [intRange, Option.some.injEq, Prod.mk.injEq, reduceCtorEq] at h <;>
    obtain ⟨rfl, rfl⟩ := h
  case BIT =>
    show Number.int v = .int 0 ∨ Number.int v = .int 1
    rw [Number.int.injEq, Number.int.injEq]
    omega
  all_goals exact ⟨v, rfl, by simp only [Format.Holds]; omega⟩

theorem natAbs_le_of_intRange (h : intRange c = some (low, high)) (hlow : low ≤ v) (hhigh : v ≤ high) :
    v.natAbs ≤ 2 ^ 64 := by
  cases c <;> simp only [intRange, Option.some.injEq, Prod.mk.injEq, reduceCtorEq] at h <;>
    obtain ⟨rfl, rfl⟩ := h <;> omega

theorem zero_one_of_intRange (h : intRange c = some (low, high)) : low ≤ 0 ∧ 1 ≤ high := by
  cases c <;> simp only [intRange, Option.some.injEq, Prod.mk.injEq, reduceCtorEq] at h <;>
    obtain ⟨rfl, rfl⟩ := h <;> omega

theorem coerceValue_int (h : intRange c = some (low, high)) (w : ℤ) :
    coerceValue c (.int w) =
      if low ≤ w ∧ w ≤ high then .ok (.int w)
      else .error (.valueValidation (.outOfRange w c low high)) := by
  have hint : c ∉ floatTypes := by
    cases c <;> first | decide | cases h
  simp only [coerceValue, if_neg hint, h]

namespace NetVarAccessor
variable {acc : NetVarAccessor} {m : ByteMemory ℤ}

theorem value_of_holds (hw : acc.Wf) {x : Number} (hx : acc.var.ctype.InRange x) (h : acc.Holds m x) :
    acc.value m = .ok x := by
  obtain ⟨m', hstored, hvalue⟩ := value_stored hw hx m
  rwa [stored_of_holds hw h hstored] at hvalue

theorem packs_of_inRange (hw : acc.Wf) {x : Number} (hx : acc.var.ctype.InRange x) : acc.packs x = .ok () := by
  cases hp : acc.packs x with
  | ok _ => rfl
  | error e =>
    obtain ⟨m', hstored, -⟩ := value_stored hw hx fun _ _ => 0
    rw [packs_error_iff.mp hp] at hstored
    cases hstored

/-- No value is in a device from the start. -/
theorem exists_not_holds (hw : acc.Wf) (h : intRange acc.var.ctype = some (low, high)) (hlow : low ≤ v)
    (hhigh : v ≤ high) : ∃ io : InMemoryUnidriverIo, ¬ acc.Holds io.memory (.int v) := by
  obtain ⟨u, hne, hu⟩ : ∃ u : ℤ, u ≠ v ∧ acc.var.ctype.InRange (.int u) := by
    have hbits := zero_one_of_intRange h
    rcases eq_or_ne v 0 with rfl | hv
    · exact ⟨1, by omega, inRange_of_intRange h (by omega) (by omega)⟩
    · exact ⟨0, Ne.symm hv, inRange_of_intRange h (by omega) (by omega)⟩
  obtain ⟨io, -, hstored, -⟩ := set_inMemory hw (packs_of_inRange hw hu) ⟨.empty⟩
  refine ⟨io, fun hv => ?_⟩
  have hvalue := value_of_holds hw hu (holds_stored hw hstored)
  rw [value_of_holds hw (inRange_of_intRange h hlow hhigh) hv] at hvalue
  cases hvalue
  exact hne rfl

end NetVarAccessor

/-! ## Floats -/

/-- A float type represents the value: as a double, and `F32` as a single. -/
def NetVarCType.Represents (c : NetVarCType) (value : Number) : Prop :=
  c ∈ floatTypes → ∃ x, value.toDouble = .ok x ∧ c.InRange (.float x)

theorem coerceValue_eq_ok {value coerced : Number} (h : coerceValue c value = .ok coerced) :
    (∃ x, coerced = .float x ∧ c ∈ floatTypes ∧ value.toDouble = .ok x) ∨
      ∃ n low high, coerced = .int n ∧ intRange c = some (low, high) ∧ low ≤ n ∧ n ≤ high := by
  cases value with
  | bool b => cases h
  | int n =>
    by_cases hc : c ∈ floatTypes
    · simp only [coerceValue, if_pos hc] at h
      split at h
      · next x hx =>
        cases h
        exact .inl ⟨x, rfl, hc, hx⟩
      · cases h
    · simp only [coerceValue, if_neg hc] at h
      split at h
      · next n' low high hn hrange =>
        cases hn
        split at h
        · next hbounds =>
          cases h
          exact .inr ⟨n, low, high, rfl, hrange, hbounds⟩
        · cases h
      all_goals cases h
  | float x =>
    by_cases hc : c ∈ floatTypes
    · simp only [coerceValue, if_pos hc, Number.toDouble] at h
      cases h
      exact .inl ⟨x, rfl, hc, rfl⟩
    · simp only [coerceValue, if_neg hc] at h
      cases h

/-- What the check refuses: with its own exception, or with that of `float`. -/
theorem coerceValue_eq_error {value : Number} {e : DeviceError} (h : coerceValue c value = .error e) :
    (∃ e', e = .valueValidation e') ∨
      ∃ e', e = .python e' ∧ c ∈ floatTypes ∧ value.toDouble = .error e' := by
  cases value with
  | bool b =>
    cases h
    exact .inl ⟨_, rfl⟩
  | int n =>
    by_cases hc : c ∈ floatTypes
    · simp only [coerceValue, if_pos hc] at h
      split at h
      · cases h
      · next e' he' =>
        cases h
        exact .inr ⟨e', rfl, hc, he'⟩
    · cases hrange : intRange c with
      | none => cases c <;> first | exact absurd (by decide) hc | cases hrange
      | some bounds =>
        simp only [coerceValue, if_neg hc, hrange] at h
        split at h
        · cases h
        · cases h
          exact .inl ⟨_, rfl⟩
  | float x =>
    by_cases hc : c ∈ floatTypes
    · simp only [coerceValue, if_pos hc, Number.toDouble] at h
      cases h
    · simp only [coerceValue, if_neg hc] at h
      cases h
      exact .inl ⟨_, rfl⟩

theorem not_mem_floatTypes (h : intRange c = some (low, high)) : c ∉ floatTypes := by
  cases c <;> first | decide | cases h

theorem intRange_of_float (hc : c ∈ floatTypes) : intRange c = none := by
  cases hrange : intRange c with
  | none => rfl
  | some bounds => exact absurd hc (not_mem_floatTypes hrange)

/-- What is let through is in the range of its C type, unless a float type does not represent it. -/
theorem inRange_of_coerceValue {value coerced : Number} (h : coerceValue c value = .ok coerced) :
    c.InRange coerced ↔ c.Represents value := by
  rcases coerceValue_eq_ok h with ⟨x, rfl, hc, hx⟩ | ⟨n, low, high, rfl, hrange, hlow, hhigh⟩
  · constructor
    · exact fun hin _ => ⟨x, hx, hin⟩
    · intro hrep
      obtain ⟨x', hx', hin⟩ := hrep hc
      rw [hx, Except.ok.injEq] at hx'
      rwa [hx']
  · exact ⟨fun _ hc => absurd hc (not_mem_floatTypes hrange), fun _ => inRange_of_intRange hrange hlow hhigh⟩

/-! ## What is read is in range -/

theorem NetVarAccessor.inRange_of_value {acc : NetVarAccessor} {m : ByteMemory ℤ} {v : Number}
    (h : acc.value m = .ok v) : acc.var.ctype.InRange v := by
  rw [NetVarCType.InRange]
  rcases bit_or_format acc with hbit | ⟨f, hf⟩
  · rw [value_of_bit hbit] at h
    rw [structFormat_bit.mpr hbit]
    cases h
    cases m.bit acc.handle acc.start
    · exact .inl rfl
    · exact .inr rfl
  · rw [value_of_format hf] at h
    rw [hf]
    exact Format.inRange_of_unpack h

theorem toDouble_of_inRange {v : Number} (h : c.InRange v) : ∃ x, v.toDouble = .ok x := by
  have hint {n : ℤ} (hn : n.natAbs ≤ 2 ^ 64) : ∃ x, (Number.int n).toDouble = .ok x := by
    obtain ⟨x, hx⟩ := Binary.ofInt_of_le hn
    exact ⟨x, by rw [Number.toDouble, hx]; rfl⟩
  cases c <;> simp only [NetVarCType.InRange, structFormat, Format.InRange, Format.Holds] at h
  case BIT =>
    rcases h with rfl | rfl
    · exact hint (by decide)
    · exact hint (by decide)
  case F32 =>
    obtain ⟨p, rfl⟩ := h
    exact ⟨_, rfl⟩
  case F64 =>
    obtain ⟨x, rfl⟩ := h
    exact ⟨x, rfl⟩
  all_goals
    obtain ⟨n, rfl, hn⟩ := h
    exact hint (by omega)

theorem NetVarAccessor.value_stored_iff {acc : NetVarAccessor} (hw : acc.Wf) {m m' : ByteMemory ℤ} {v : Number}
    (h : acc.stored m v = .ok m') : acc.value m' = .ok v ↔ acc.var.ctype.InRange v :=
  ⟨inRange_of_value, fun hin => value_of_holds hw hin (holds_stored hw h)⟩

/-! ## What can be written, and what a sample becomes -/

/-- The values that an accessor of the C type can write. -/
def NetVarCType.Accepts (c : NetVarCType) (x : Number) : Prop :=
  match intRange c with
  | some (low, high) => c = .BIT ∨ ∃ k, x.int? = some k ∧ low ≤ k ∧ k ≤ high
  | none => ∃ y, x.toDouble = .ok y ∧ (c = .F32 → (Binary.narrow y).isSome)

theorem NetVarAccessor.packs_ok_iff {acc : NetVarAccessor} {x : Number} :
    acc.packs x = .ok () ↔ acc.var.ctype.Accepts x := by
  have hmap (f : Format) : (f.pack x).map (fun _ => ()) = .ok () ↔ ∃ bs, f.pack x = .ok bs := by
    cases f.pack x <;> simp [Except.map]
  rw [packs]
  cases acc.var.ctype <;>
    simp only [structFormat, hmap, NetVarCType.Accepts, intRange, Format.pack_unsigned_ok, Format.pack_signed_ok,
      Format.pack_single_ok, Format.pack_double_ok, Format.Holds, reduceCtorEq, false_or, true_or, forall_const,
      false_imp_iff, and_true]
  all_goals
    refine exists_congr (fun k => and_congr_right (fun _ => ?_))
    omega

theorem NetVarAccessor.set_ok_iff {acc : NetVarAccessor} (hw : acc.Wf) {x : Number} (io : InMemoryUnidriverIo) :
    (∃ io', (acc.set x).run io = .ok () io') ↔ acc.var.ctype.Accepts x := by
  rw [← packs_ok_iff]
  constructor
  · rintro ⟨io', hrun⟩
    cases hp : acc.packs x with
    | ok u => rfl
    | error e =>
      rw [set_run_error (packs_error_iff.mp hp)] at hrun
      cases hrun
  · intro hp
    obtain ⟨io', hrun, -⟩ := set_inMemory hw hp io
    exact ⟨io', hrun⟩

theorem accepts_clamped (h : intRange c = some (low, high)) (k : ℤ) : c.Accepts (.int (max low (min high k))) := by
  have hbits := zero_one_of_intRange h
  rw [NetVarCType.Accepts, h]
  exact .inr ⟨_, rfl, by omega, by omega⟩

theorem accepts_float_iff (hc : c ∈ floatTypes) {y : Binary.Double} :
    c.Accepts (.float y) ↔ (c = .F32 → (Binary.narrow y).isSome) := by
  simp only [NetVarCType.Accepts, intRange_of_float hc, Number.toDouble, Except.ok.injEq, exists_eq_left']

/-- A sample fits a float type as the double it converts to, and an integer type rounded and clamped. -/
def NetVarCType.Fits {R : Type} (P : Platform R) (c : NetVarCType) (v : PyValue) (x : Number) : Prop :=
  (c ∈ floatTypes ∧ ∃ y, v.toFloat P = .ok y ∧ x = .float y) ∨
    ∃ low high n k, intRange c = some (low, high) ∧ v = .number n ∧ n.round = .ok k ∧ x = .int (max low (min high k))

theorem fitValue_eq_ok {R : Type} {P : Platform R} {v : PyValue} {x : Number} :
    fitValue P c v = .ok x ↔ c.Fits P v x := by
  rw [fitValue, NetVarCType.Fits]
  by_cases hc : c ∈ floatTypes
  · rw [if_pos hc, intRange_of_float hc]
    cases v.toFloat P <;> simp [bind, Except.bind, pure, Except.pure, hc, eq_comm]
  · rw [if_neg hc]
    cases hrange : intRange c with
    | none => simp [hc]
    | some bounds =>
      obtain ⟨low, high⟩ := bounds
      cases v with
      | number n =>
        cases hn : n.round <;> simp [PyValue.operand, bind, Except.bind, pure, Except.pure, hc, hn, eq_comm (a := x)]
      | _ => simp [PyValue.operand, bind, Except.bind, hc]

/-- The integer types saturate, the float types do not. -/
theorem accepts_fits_iff {R : Type} (P : Platform R) {n : Number} (hn : n.Finite) :
    (∃ x, c.Fits P (.number n) x ∧ c.Accepts x) ↔
      (c ∈ floatTypes → ∃ y, n.toDouble = .ok y ∧ (c = .F32 → (Binary.narrow y).isSome)) := by
  by_cases hc : c ∈ floatTypes
  · constructor
    · rintro ⟨x, ⟨-, y, hy, rfl⟩ | ⟨low, high, m, k, hrange, -⟩, haccepts⟩ -
      · exact ⟨y, hy, (accepts_float_iff hc).mp haccepts⟩
      · exact absurd hc (not_mem_floatTypes hrange)
    · intro hdouble
      obtain ⟨y, hy, hnarrow⟩ := hdouble hc
      exact ⟨.float y, .inl ⟨hc, y, hy, rfl⟩, (accepts_float_iff hc).mpr hnarrow⟩
  · obtain ⟨⟨low, high⟩, hrange⟩ : ∃ bounds, intRange c = some bounds := by
      cases c <;> first | exact ⟨_, rfl⟩ | exact absurd (by decide) hc
    obtain ⟨k, hk⟩ := Number.round_of_finite hn
    exact ⟨fun _ hfloat => absurd hfloat hc,
      fun _ => ⟨_, .inr ⟨low, high, n, k, hrange, rfl, hk, rfl⟩, accepts_clamped hrange k⟩⟩

end Tstlan
