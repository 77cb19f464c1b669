import Tstlan.Configs.LayoutRuns
import Tstlan.Devices.Scheme
import Tstlan.Web.Configs

/-! # The addresses that the editor shows

The loop of the frontend agrees with the backend's as long as a bit's address has a bit number, which the
backend's loop keeps. The texts of two addresses differ already in whether a digit run is followed by a
dash, or in one of the numbers. -/
namespace Tstlan.Web
open Foundations
set_option autoImplicit false

/-! ## The two loops -/

/-- The draft of a variable as the backend gets it. -/
def VariableDraft.toConfigVar (var : VariableDraft) : ConfigVar :=
  { name := var.name, ctype := var.ctype, graph := var.graph, category := var.category }

theorem ctypeByteSize_eq (c : NetVarCType) : ctypeByteSize c = c.byteSize := by cases c <;> rfl

/-- A missing bit number, which the frontend reads as zero, does not occur. -/
theorem curOffset_eq {o : VarOffset} {c : NetVarCType} (h : o.Wf c) (c' : NetVarCType) :
    curOffset (some (o, c)) c' = Tstlan.curOffset (some (o, c)) c' := by
  by_cases hboth : c = .BIT ∧ c' = .BIT
  · obtain ⟨rfl, rfl⟩ := hboth
    obtain ⟨k, hk, -⟩ := h.bit
    simp [curOffset, Tstlan.curOffset, hk]
  · rw [curOffset_fresh hboth, ← ctypeByteSize_eq]
    exact if_neg hboth

theorem offsetsFrom_eq {o : VarOffset} {c : NetVarCType} (h : o.Wf c) (vars : List VariableDraft) :
    offsetsFrom (some (o, c)) vars =
      Tstlan.offsetsFrom (some (o, c)) (vars.map VariableDraft.toConfigVar) := by
  induction vars generalizing o c with
  | nil => rfl
  | cons var vars ih =>
    have hcur := curOffset_eq h var.ctype
    rw [offsetsFrom, List.map_cons, Tstlan.offsetsFrom, hcur, ih (curOffset_wf h var.ctype)]
    rfl

theorem variableOffsets_eq (vars : List VariableDraft) :
    variableOffsets vars = Tstlan.variableOffsets (vars.map VariableDraft.toConfigVar) := by
  cases vars with
  | nil => rfl
  | cons var vars =>
    have hrest := offsetsFrom_eq (firstOffset_wf var.ctype) vars
    exact congrArg (Tstlan.curOffset none var.ctype :: ·) hrest

/-! ## The texts -/

theorem toList_toString (n : ℕ) : (toString n).toList = Nat.toDigits 10 n := by
  rw [Nat.toString_eq_ofList_toDigits, String.toList_ofList]

theorem toDigits_injective : Function.Injective (Nat.toDigits 10) := by
  intro m n h
  rw [← Nat.ofDigitChars_ten_toDigits (n := m), h, Nat.ofDigitChars_ten_toDigits]

/-- What follows the byte. -/
def bitText (bit : Option ℕ) : List Char := bit.elim [] (fun k => '-' :: Nat.toDigits 10 k)

theorem toList_formatOffset (o : VarOffset) :
    (formatOffset o).toList = Nat.toDigits 10 o.byte ++ bitText o.bit := by
  rw [formatOffset]
  cases o.bit with
  | none => rw [toList_toString, bitText, Option.elim_none, List.append_nil]
  | some k =>
    rw [String.toList_append, String.toList_append, toList_toString, toList_toString, List.append_assoc]
    rfl

theorem noDigit_bitText (bit : Option ℕ) : Json.NoDigit (bitText bit) := by
  cases bit <;> rfl

theorem bitText_injective : Function.Injective bitText := by
  intro a b h
  cases a with
  | none =>
    cases b with
    | none => rfl
    | some k => cases h
  | some j =>
    cases b with
    | none => cases h
    | some k => exact congrArg some (toDigits_injective (List.cons.inj h).2)

theorem formatOffset_injective : Function.Injective formatOffset := by
  intro o o' h
  have hlist := congrArg String.toList h
  rw [toList_formatOffset, toList_formatOffset] at hlist
  have hdigits := congrArg (List.takeWhile Char.isDigit) hlist
  rw [Json.takeWhile_toDigits _ (noDigit_bitText o.bit), Json.takeWhile_toDigits _ (noDigit_bitText o'.bit)] at hdigits
  rw [hdigits] at hlist
  have hbyte : o.byte = o'.byte := toDigits_injective hdigits
  have hbit : o.bit = o'.bit := bitText_injective (List.append_cancel_left hlist)
  cases o
  cases o'
  simp_all

/-- Addresses at different positions differ, since their ranges do not overlap. -/
theorem nodup_variableOffsets (vars : List ConfigVar) : (Tstlan.variableOffsets vars).Nodup := by
  have hpair := (variableOffsets_places vars).2
  have hfst : Tstlan.variableOffsets vars = (places none vars).map Prod.fst := by
    rw [places, List.map_fst_zip]
    · rfl
    · rw [offsetsFrom_length, List.length_map]
  rw [hfst, List.Nodup, List.pairwise_map]
  refine hpair.imp (fun {p q} hle heq => ?_)
  have hlt := VarOffset.start_lt_stop p.1 p.2
  rw [← heq] at hle
  omega

/-! ## The addresses that are read and written -/

/-- `variables_from_config` of `tstlan/devices/config_device.py`. -/
def variablesFromConfig (vars : List ConfigVar) (mode : NetVarMode) : List NetVar :=
  vars.map (fun var => { name := var.name, ctype := var.ctype, mode := mode })

theorem buildScheme_offsets (handle : ℤ) (vars : List NetVar) :
    (buildScheme handle vars).map NetVarAccessor.offset =
      Tstlan.variableOffsets (vars.map (fun var => { name := var.name, ctype := var.ctype })) := by
  rw [buildScheme, List.map_map]
  apply List.map_snd_zip
  rw [variableOffsets_length, List.length_map]

theorem variablesFromConfig_offsets (handle : ℤ) (vars : List ConfigVar) (mode : NetVarMode) :
    (buildScheme handle (variablesFromConfig vars mode)).map NetVarAccessor.offset =
      Tstlan.variableOffsets vars := by
  rw [buildScheme_offsets, variableOffsets_eq_offsets, variableOffsets_eq_offsets, variablesFromConfig,
    List.map_map, List.map_map]
  rfl

/-- **The editor shows the addresses of the backend, those of the accessors of a device with these
variables, and shows no address twice.** -/
theorem shown_addresses (vars : List VariableDraft) :
    variableOffsets vars = Tstlan.variableOffsets (vars.map VariableDraft.toConfigVar) ∧
      (∀ handle mode, (buildScheme handle
          (variablesFromConfig (vars.map VariableDraft.toConfigVar) mode)).map NetVarAccessor.offset =
        variableOffsets vars) ∧
      ((variableOffsets vars).map formatOffset).Nodup := by
  rw [variableOffsets_eq]
  exact ⟨rfl, fun handle mode => variablesFromConfig_offsets handle _ mode,
    (nodup_variableOffsets _).map formatOffset_injective⟩

end Tstlan.Web
