import Tstlan.Models

/-! # Addresses of variables (`variable_offsets` of `tstlan/configs/schemas.py`)

The address of a variable is derived from the order and the C types of the variables before it. A
place is read here as a range of bit positions: `start` is eight times the byte plus the bit, `stop` is
past the last bit. `variableOffsets_places` is the layout's one structural fact: the ranges come in
increasing order and do not overlap. -/
namespace Tstlan
set_option autoImplicit false

structure ConfigVar where
  name : String
  ctype : NetVarCType
  graph : Bool := false
  category : String := ""
  deriving DecidableEq, Repr

/-- A byte offset and, for a bit, its number in the byte. -/
structure VarOffset where
  byte : ℕ
  bit : Option ℕ := none
  deriving DecidableEq, Repr

/-- The body of the loop: the address after `prev`, the previous address with its C type. -/
def curOffset (prev : Option (VarOffset × NetVarCType)) (ctype : NetVarCType) : VarOffset :=
  let bit := if ctype = .BIT then some 0 else none
  match prev with
  | none => ⟨0, bit⟩
  | some (prev, prevCtype) =>
    if prevCtype = .BIT ∧ ctype = .BIT then
      match prev.bit with
      | some k => if 7 ≤ k then ⟨prev.byte + 1, some 0⟩ else ⟨prev.byte, some (k + 1)⟩
      -- `assert prev.bit is not None`, which `curOffset_wf` shows to hold
      | none => prev
    else ⟨prev.byte + prevCtype.byteSize, bit⟩

def offsetsFrom (prev : Option (VarOffset × NetVarCType)) : List ConfigVar → List VarOffset
  | [] => []
  | var :: vars =>
    let cur := curOffset prev var.ctype
    cur :: offsetsFrom (some (cur, var.ctype)) vars

def variableOffsets (vars : List ConfigVar) : List VarOffset := offsetsFrom none vars

theorem offsetsFrom_length (prev : Option (VarOffset × NetVarCType)) (vars : List ConfigVar) :
    (offsetsFrom prev vars).length = vars.length := by
  induction vars generalizing prev with
  | nil => rfl
  | cons var vars ih => rw [offsetsFrom, List.length_cons, ih, List.length_cons]

theorem variableOffsets_length (vars : List ConfigVar) :
    (variableOffsets vars).length = vars.length :=
  offsetsFrom_length none vars

/-! ## Places as ranges of bit positions -/

namespace VarOffset

def start (o : VarOffset) : ℕ := 8 * o.byte + o.bit.getD 0

def stop (o : VarOffset) (c : NetVarCType) : ℕ :=
  if c = .BIT then o.start + 1 else o.start + 8 * c.byteSize

/-- An address fits its C type: a bit number below 8 for a bit, none otherwise. -/
def Wf (o : VarOffset) (c : NetVarCType) : Prop :=
  if c = .BIT then ∃ k, o.bit = some k ∧ k < 8 else o.bit = none

theorem start_lt_stop (o : VarOffset) (c : NetVarCType) : o.start < o.stop c := by
  have := c.byteSize_pos
  rw [stop]
  split <;> omega

end VarOffset

/-- Two bits in a row share the byte until its eighth bit. -/
theorem curOffset_bit_bit {o : VarOffset} {k : ℕ} (hk : o.bit = some k) :
    curOffset (some (o, .BIT)) .BIT =
      if 7 ≤ k then ⟨o.byte + 1, some 0⟩ else ⟨o.byte, some (k + 1)⟩ := by
  simp [curOffset, hk]

/-- In every other case the next place starts at a fresh byte. -/
theorem curOffset_fresh {c c' : NetVarCType} (h : ¬ (c = .BIT ∧ c' = .BIT)) (o : VarOffset) :
    curOffset (some (o, c)) c' = ⟨o.byte + c.byteSize, if c' = .BIT then some 0 else none⟩ :=
  if_neg h

theorem VarOffset.Wf.bit {o : VarOffset} (h : o.Wf .BIT) : ∃ k, o.bit = some k ∧ k < 8 := by
  simpa [VarOffset.Wf] using h

theorem VarOffset.Wf.no_bit {o : VarOffset} {c : NetVarCType} (h : o.Wf c) (hc : c ≠ .BIT) :
    o.bit = none := by
  simpa [VarOffset.Wf, hc] using h

theorem firstOffset_wf (c : NetVarCType) : (curOffset none c).Wf c := by
  by_cases hc : c = .BIT <;> simp [curOffset, VarOffset.Wf, hc]

theorem curOffset_wf {o : VarOffset} {c : NetVarCType} (h : o.Wf c) (c' : NetVarCType) :
    (curOffset (some (o, c)) c').Wf c' := by
  by_cases hboth : c = .BIT ∧ c' = .BIT
  · obtain ⟨rfl, rfl⟩ := hboth
    obtain ⟨k, hk, hlt⟩ := h.bit
    rw [curOffset_bit_bit hk, VarOffset.Wf, if_pos rfl]
    split
    · exact ⟨0, rfl, by omega⟩
    · exact ⟨k + 1, rfl, by omega⟩
  · rw [curOffset_fresh hboth, VarOffset.Wf]
    split
    · exact ⟨0, rfl, by omega⟩
    · rfl

/-- The next place starts where the previous one has ended. -/
theorem stop_le_start {o : VarOffset} {c : NetVarCType} (h : o.Wf c) (c' : NetVarCType) :
    o.stop c ≤ (curOffset (some (o, c)) c').start := by
  by_cases hboth : c = .BIT ∧ c' = .BIT
  · obtain ⟨rfl, rfl⟩ := hboth
    obtain ⟨k, hk, hlt⟩ := h.bit
    rw [curOffset_bit_bit hk, VarOffset.stop, if_pos rfl, VarOffset.start, hk, Option.getD_some]
    split <;> simp only [VarOffset.start, Option.getD_some] <;> omega
  · have hnext : (curOffset (some (o, c)) c').start = 8 * (o.byte + c.byteSize) := by
      rw [curOffset_fresh hboth, VarOffset.start]
      split <;> rfl
    rw [hnext, VarOffset.stop, VarOffset.start]
    by_cases hc : c = .BIT
    · subst hc
      obtain ⟨k, hk, hlt⟩ := h.bit
      rw [if_pos rfl, hk, Option.getD_some, NetVarCType.byteSize]
      omega
    · rw [if_neg hc, h.no_bit hc, Option.getD_none]
      omega

/-! ## The whole list -/

/-- The addresses of a list, each with the C type it is for. -/
def places (prev : Option (VarOffset × NetVarCType)) (vars : List ConfigVar) :
    List (VarOffset × NetVarCType) :=
  (offsetsFrom prev vars).zip (vars.map ConfigVar.ctype)

@[simp] theorem places_cons (prev : Option (VarOffset × NetVarCType)) (var : ConfigVar)
    (vars : List ConfigVar) :
    places prev (var :: vars) =
      (curOffset prev var.ctype, var.ctype) ::
        places (some (curOffset prev var.ctype, var.ctype)) vars := rfl

theorem places_of_wf {o : VarOffset} {c : NetVarCType} (h : o.Wf c) (vars : List ConfigVar) :
    (∀ p ∈ places (some (o, c)) vars, p.1.Wf p.2 ∧ o.stop c ≤ p.1.start) ∧
      (places (some (o, c)) vars).Pairwise (fun p q => p.1.stop p.2 ≤ q.1.start) := by
  induction vars generalizing o c with
  | nil => exact ⟨by simp [places], List.Pairwise.nil⟩
  | cons var vars ih =>
    have hwf := curOffset_wf h var.ctype
    have hle := stop_le_start h var.ctype
    obtain ⟨hall, hpair⟩ := ih hwf
    rw [places_cons]
    refine ⟨?_, List.Pairwise.cons (fun p hp => (hall p hp).2) hpair⟩
    intro p hp
    rcases List.mem_cons.mp hp with rfl | hp
    · exact ⟨hwf, hle⟩
    · obtain ⟨hp1, hp2⟩ := hall p hp
      have := VarOffset.start_lt_stop (curOffset (some (o, c)) var.ctype) var.ctype
      exact ⟨hp1, by omega⟩

/-- Every address fits its type, and the ranges follow one another. -/
theorem variableOffsets_places (vars : List ConfigVar) :
    (∀ p ∈ places none vars, p.1.Wf p.2) ∧
      (places none vars).Pairwise (fun p q => p.1.stop p.2 ≤ q.1.start) := by
  cases vars with
  | nil => exact ⟨by simp [places], List.Pairwise.nil⟩
  | cons var vars =>
    have hwf := firstOffset_wf var.ctype
    obtain ⟨hall, hpair⟩ := places_of_wf hwf vars
    rw [places_cons]
    refine ⟨?_, List.Pairwise.cons (fun p hp => (hall p hp).2) hpair⟩
    intro p hp
    rcases List.mem_cons.mp hp with rfl | hp
    · exact hwf
    · exact (hall p hp).1

example :
    variableOffsets ([NetVarCType.BIT, .BIT, .U32, .BIT].map (fun c => { name := "", ctype := c })) =
      [⟨0, some 0⟩, ⟨0, some 1⟩, ⟨1, none⟩, ⟨5, some 0⟩] := by
  decide

end Tstlan
