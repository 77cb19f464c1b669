import Mathlib.Data.List.Perm.Subperm
import Tstlan.Tools.Ini2yaml

/-! # The pairs of the `[device]` section

Each label names one place of the result: the first test of the chain that fires. What a place holds after the loop is
what the last pair that the loop reached has put there. -/
namespace Tstlan.Ini2yaml
open Foundations PyText
set_option autoImplicit false

/-! ## Places -/

/-- The field of the result that a label names, or its own entry of `params`. -/
inductive Target
  | ipRequest | ip | port | pollPeriod
  | discreteInputs | coils | holdingRegisters | inputRegisters
  | gpib | comName
  | param (label : List Char)
  deriving DecidableEq

namespace Target

def isModbus : Target → Bool
  | discreteInputs | coils | holdingRegisters | inputRegisters => true
  | ipRequest | ip | port | pollPeriod | gpib | comName | param _ => false

def isNumeric : Target → Bool
  | port | pollPeriod | discreteInputs | coils | holdingRegisters | inputRegisters | gpib => true
  | ipRequest | ip | comName | param _ => false

end Target

/-- What a place holds. -/
inductive Content
  | text (value : List Char)
  | number (n : ℤ)
  deriving DecidableEq

/-- The content of a place before the loop: the defaults of the fields. -/
def Target.initial : Target → Option Content
  | pollPeriod => some (.number 200)
  | discreteInputs | coils | holdingRegisters | inputRegisters => some (.number 0)
  | ipRequest | ip | port | gpib | comName | param _ => none

/-- The content of a place of the result. -/
def place (conn : ConnectionSettings) (modbus : Option ModbusMap) (params : Dict String String) :
    Target → Option Content
  | .ipRequest => conn.ipRequest.map (fun s => .text s.toList)
  | .ip => conn.ip.map (fun s => .text s.toList)
  | .port => conn.port.map .number
  | .pollPeriod => some (.number conn.pollPeriodMs)
  | .discreteInputs => modbus.map (fun m => .number m.discreteInputsBytes)
  | .coils => modbus.map (fun m => .number m.coilsBytes)
  | .holdingRegisters => modbus.map (fun m => .number m.holdingRegisters)
  | .inputRegisters => modbus.map (fun m => .number m.inputRegisters)
  | .gpib => conn.gpibAddr.map .number
  | .comName => conn.comName.map (fun s => .text s.toList)
  | .param label => (params.get? (String.ofList label)).map (fun s => .text s.toList)

def DeviceParams.read (d : DeviceParams) (t : Target) : Option Content := place d.conn (some d.modbus) d.params t

def readConnection (conn : ConnectionSettings) (t : Target) : Option Content :=
  place conn conn.modbus conn.params t

variable (U : Unicode)

/-- The chain of tests of `_apply_device_param`. -/
def target (label : List Char) : Target :=
  let text := U.lower label
  if contains text "запрос".toList ∧ contains text "ip".toList then .ipRequest
  else if text = "ip".toList ∨ contains text "ip адрес".toList ∨
      contains text "ip".toList ∧ contains text "адрес".toList then .ip
  else if contains text "порт".toList ∨ text = "port".toList then .port
  else if contains text "обновлен".toList ∨ contains text "измерен".toList then .pollPeriod
  else if contains text "discret".toList then .discreteInputs
  else if contains text "coils".toList then .coils
  else if contains text "holding".toList then .holdingRegisters
  else if contains text "input registers".toList then .inputRegisters
  else if contains text "gpib".toList then .gpib
  else if contains text "com name".toList ∨ text = "com".toList then .comName
  else .param label

/-- What a value is at a place: its text, or the integer that it reads as. -/
def content (t : Target) (value : List Char) : Option Content :=
  if t.isNumeric then (asInt U value).map .number else some (.text value)

/-- The assignment of one place. -/
def DeviceParams.assign (d : DeviceParams) (t : Target) (value : List Char) (number : Option ℤ) : DeviceParams :=
  match t with
  | .ipRequest => { d with conn := { d.conn with ipRequest := some (String.ofList value) } }
  | .ip => { d with conn := { d.conn with ip := some (String.ofList value) } }
  | .port => { d with conn := { d.conn with port := number } }
  | .pollPeriod =>
    match number with
    | some n => { d with conn := { d.conn with pollPeriodMs := n } }
    | none => d
  | .discreteInputs => { d with modbus := { d.modbus with discreteInputsBytes := number.getD 0 } }
  | .coils => { d with modbus := { d.modbus with coilsBytes := number.getD 0 } }
  | .holdingRegisters => { d with modbus := { d.modbus with holdingRegisters := number.getD 0 } }
  | .inputRegisters => { d with modbus := { d.modbus with inputRegisters := number.getD 0 } }
  | .gpib => { d with conn := { d.conn with gpibAddr := number } }
  | .comName => { d with conn := { d.conn with comName := some (String.ofList value) } }
  | .param label => { d with params := d.params.set (String.ofList label) (String.ofList value) }

theorem DeviceParams.assign_ite (d : DeviceParams) (test : Prop) [Decidable test] (t t' : Target) (value : List Char)
    (number : Option ℤ) :
    d.assign (if test then t else t') value number =
      if test then d.assign t value number else d.assign t' value number := apply_ite (d.assign · value number) _ _ _

theorem applyDeviceParam_eq (label value : List Char) (d : DeviceParams) :
    applyDeviceParam U label value d = d.assign (target U label) value (asInt U value) := by
  simp only [applyDeviceParam, target, DeviceParams.assign_ite]
  rfl

theorem target_eq_param {label entry : List Char} (h : target U label = .param entry) : entry = label := by
  revert h
  simp only [target]
  iterate 10
    refine iteInduction (motive := fun t => t = Target.param entry → entry = label) (fun _ h => by cases h) (fun _ => ?_)
  exact fun h => (Target.param.inj h).symm

theorem read_assign_of_ne (d : DeviceParams) {t t' : Target} (value : List Char) (number : Option ℤ) (h : t' ≠ t) :
    (d.assign t value number).read t' = d.read t' := by
  cases t with
  | pollPeriod => cases number <;> cases t' <;> first | rfl | exact absurd rfl h
  | param label =>
    cases t' with
    | param label' =>
      have hne : String.ofList label' ≠ String.ofList label := fun he => h (by rw [String.ofList_injective he])
      simp only [DeviceParams.assign, DeviceParams.read, place, Dict.get?_set_of_ne _ _ hne]
    | _ => rfl
  | _ => cases t' <;> first | rfl | exact absurd rfl h

theorem read_assign_self (d : DeviceParams) {t : Target} {value : List Char} {c : Content}
    (h : content U t value = some c) : (d.assign t value (asInt U value)).read t = some c := by
  cases t with
  | ipRequest | ip | comName | param =>
    simp only [content, Target.isNumeric, Bool.false_eq_true, if_false, Option.some.injEq] at h
    simp [DeviceParams.assign, DeviceParams.read, place, h]
  | port | pollPeriod | discreteInputs | coils | holdingRegisters | inputRegisters | gpib =>
    simp only [content, Target.isNumeric, if_true] at h
    obtain ⟨n, hn, rfl⟩ := Option.map_eq_some_iff.mp h
    simp [DeviceParams.assign, DeviceParams.read, place, hn]

theorem transport_assign (d : DeviceParams) (t : Target) (value : List Char) (number : Option ℤ) :
    (d.assign t value number).conn.transport = d.conn.transport := by
  cases t with
  | pollPeriod => cases number <;> rfl
  | _ => rfl

/-! ## Pairs -/

/-- The number of a pair that has a label. -/
def IsPair (device : Section) (n : ℕ) : Prop :=
  0 < n ∧ (device.get? (rowKey "key" (Nat.toDigits 10 n))).isSome ∧ pairLabel device n ≠ []

/-- All numbers up to this one are there. -/
def Reached (device : Section) (n : ℕ) : Prop :=
  ∀ m, 0 < m → m ≤ n → (device.get? (rowKey "key" (Nat.toDigits 10 m))).isSome

def pairTarget (device : Section) (n : ℕ) : Target := target U (pairLabel device n)

def pairContent (device : Section) (n : ℕ) : Option Content :=
  content U (pairTarget U device n) (pairValue device n)

theorem rowKey_injective {pre : String} {a b : List Char} (h : rowKey pre a = rowKey pre b) : a = b := by
  have hlist := congrArg String.toList h
  simp only [rowKey, String.toList_append, String.toList_ofList] at hlist
  exact List.append_cancel_left hlist

theorem eq_of_key {m n : ℕ} (h : rowKey "key" (Nat.toDigits 10 m) = rowKey "key" (Nat.toDigits 10 n)) : m = n := by
  rw [← Nat.ofDigitChars_ten_toDigits (n := m), rowKey_injective h, Nat.ofDigitChars_ten_toDigits]

/-- The numbers that are reached have keys of their own, so there are no more of them than keys. -/
theorem Reached.le_length {device : Section} {n : ℕ} (h : Reached device n) : n ≤ device.entries.length := by
  have hnodup : ((List.range' 1 n).map (fun m => rowKey "key" (Nat.toDigits 10 m))).Nodup := by
    exact List.Nodup.map_on (fun a _ b _ hab => eq_of_key hab) List.nodup_range'
  have hsubset : (List.range' 1 n).map (fun m => rowKey "key" (Nat.toDigits 10 m)) ⊆ device.keys := by
    intro key hkey
    obtain ⟨m, hm, rfl⟩ := List.mem_map.mp hkey
    obtain ⟨hpos, hle⟩ := List.mem_range'_1.mp hm
    exact Dict.mem_keys.mpr (Option.isSome_iff_ne_none.mp (h m (by omega) (by omega)))
  have hlength := (List.subperm_of_subset hnodup hsubset).length_le
  simpa [Dict.keys] using hlength

theorem mem_takeWhile_range' (p : ℕ → Bool) (n start count : ℕ) :
    n ∈ (List.range' start count).takeWhile p ↔
      start ≤ n ∧ n < start + count ∧ ∀ m, start ≤ m → m ≤ n → p m = true := by
  induction count generalizing start with
  | zero => simp; omega
  | succ count ih =>
    rw [List.range'_succ, List.takeWhile_cons]
    cases hp : p start with
    | false =>
      simp only [Bool.false_eq_true, if_false, List.not_mem_nil, false_iff]
      rintro ⟨hle, _, hall⟩
      have htrue := hall start (Nat.le_refl _) hle
      rw [hp] at htrue
      cases htrue
    | true =>
      rw [if_pos rfl, List.mem_cons, ih]
      constructor
      · rintro (rfl | ⟨hle, hlt, hall⟩)
        · refine ⟨Nat.le_refl _, by omega, fun m hm hmn => ?_⟩
          rw [show m = n by omega, hp]
        · refine ⟨by omega, by omega, fun m hm hmn => ?_⟩
          rcases Nat.eq_or_lt_of_le hm with rfl | hlt'
          · exact hp
          · exact hall m hlt' hmn
      · rintro ⟨hle, hlt, hall⟩
        rcases Nat.eq_or_lt_of_le hle with rfl | hlt'
        · exact .inl rfl
        · exact .inr ⟨hlt', by omega, fun m hm hmn => hall m (by omega) hmn⟩

theorem mem_pairIndices {device : Section} {n : ℕ} : n ∈ pairIndices device ↔ 0 < n ∧ Reached device n := by
  rw [pairIndices, mem_takeWhile_range']
  constructor
  · rintro ⟨hpos, _, hall⟩
    exact ⟨hpos, hall⟩
  · rintro ⟨hpos, hreached⟩
    exact ⟨hpos, by have := hreached.le_length; omega, hreached⟩

/-! ## The loop -/

/-- What the loop leaves. -/
def filled (device : Section) (indices : List ℕ) : DeviceParams :=
  indices.foldl (applyPair U device) { conn := { transport := mapTransport U (device.text "type" "") } }

theorem filled_append (device : Section) (indices : List ℕ) (n : ℕ) :
    filled U device (indices ++ [n]) = applyPair U device (filled U device indices) n := by
  rw [filled, List.foldl_append]
  rfl

theorem transport_filled (device : Section) (indices : List ℕ) :
    (filled U device indices).conn.transport = mapTransport U (device.text "type" "") := by
  induction indices using List.reverseRecOn with
  | nil => rfl
  | append_singleton indices n ih =>
    rw [filled_append, applyPair]
    split
    · rw [applyDeviceParam_eq, transport_assign, ih]
    · exact ih

/-- A place that no pair names keeps its default. -/
theorem read_filled_of_unnamed {device : Section} {indices : List ℕ} {t : Target}
    (h : ∀ n ∈ indices, pairLabel device n ≠ [] → pairTarget U device n ≠ t) :
    (filled U device indices).read t = t.initial := by
  induction indices using List.reverseRecOn with
  | nil => cases t <;> rfl
  | append_singleton indices n ih =>
    have hbefore := ih (fun m hm => h m (List.mem_append_left _ hm))
    rw [filled_append, applyPair]
    split
    · next hlabel =>
      have hne : t ≠ target U (pairLabel device n) := Ne.symm (h n (List.mem_append_right _ (.head _)) hlabel)
      rw [applyDeviceParam_eq, read_assign_of_ne _ _ _ hne, hbefore]
    · exact hbefore

/-- A place holds what the pairs that name it say, if they say the same. -/
theorem read_filled_of_named {device : Section} {indices : List ℕ} {t : Target} {c : Content}
    (hsame : ∀ n ∈ indices, pairLabel device n ≠ [] → pairTarget U device n = t →
      pairContent U device n = some c)
    (h : ∃ n ∈ indices, pairLabel device n ≠ [] ∧ pairTarget U device n = t) :
    (filled U device indices).read t = some c := by
  induction indices using List.reverseRecOn with
  | nil =>
    obtain ⟨n, hn, _⟩ := h
    cases hn
  | append_singleton indices n ih =>
    have hlast : n ∈ indices ++ [n] := List.mem_append_right _ (.head _)
    have hbefore := ih (fun m hm => hsame m (List.mem_append_left _ hm))
    rw [filled_append, applyPair]
    by_cases hnamed : pairLabel device n ≠ [] ∧ pairTarget U device n = t
    · obtain ⟨hlabel, rfl⟩ := hnamed
      rw [if_pos hlabel, applyDeviceParam_eq]
      exact read_assign_self U _ (hsame n hlast hlabel rfl)
    · obtain ⟨m, hm, hmlabel, hmt⟩ := h
      have hearlier : m ∈ indices := by
        rcases List.mem_append.mp hm with hin | heq
        · exact hin
        · rw [List.mem_singleton.mp heq] at hmlabel hmt
          exact absurd ⟨hmlabel, hmt⟩ hnamed
      split
      · next hlabel =>
        have hne : t ≠ target U (pairLabel device n) := fun he => hnamed ⟨hlabel, he.symm⟩
        rw [applyDeviceParam_eq, read_assign_of_ne _ _ _ hne]
        exact hbefore ⟨m, hearlier, hmlabel, hmt⟩
      · exact hbefore ⟨m, hearlier, hmlabel, hmt⟩

theorem target_of_params_filled {device : Section} {indices : List ℕ} {label : List Char}
    (h : (filled U device indices).params.get? (String.ofList label) ≠ none) : target U label = .param label := by
  by_contra hother
  have hunnamed : (filled U device indices).read (.param label) = Target.initial (.param label) :=
    read_filled_of_unnamed U (fun n _ _ hn => hother (target_eq_param U hn ▸ hn))
  rw [DeviceParams.read, place, Target.initial, Option.map_eq_none_iff] at hunnamed
  exact h hunnamed

/-! ## Losing no pair -/

/-- The value is in the field that the label names, or under the label in `params`. -/
def Carries (conn : ConnectionSettings) (label value : List Char) : Prop :=
  (∃ c, content U (target U label) value = some c ∧ readConnection conn (target U label) = some c) ∨
    conn.params.get? (String.ofList label) = some (String.ofList value)

def Lossless (device : Section) (conn : ConnectionSettings) : Prop :=
  ∀ n, IsPair device n → Carries U conn (pairLabel device n) (pairValue device n)

/-- What keeps every pair. -/
structure Recoverable (device : Section) : Prop where
  /-- Numeric fields have integers. -/
  readable : ∀ n, IsPair device n → (pairContent U device n).isSome
  /-- The pairs of one field say the same. -/
  consistent : ∀ m n, IsPair device m → IsPair device n → pairTarget U device m = pairTarget U device n →
    pairContent U device m = pairContent U device n
  /-- Behind a gap in the numbering there is only what is said before it as well, or by the defaults. -/
  reached : ∀ n, IsPair device n →
    (∃ m, IsPair device m ∧ Reached device m ∧ pairTarget U device m = pairTarget U device n) ∨
      (pairTarget U device n).initial = pairContent U device n
  /-- Zeros of the Modbus map are kept only with the map. -/
  mapped : ∀ n, IsPair device n → (pairTarget U device n).isModbus →
    startsWithModbus (mapTransport U (device.text "type" "")) ∨
      ∃ m, IsPair device m ∧ Reached device m ∧ (pairTarget U device m).isModbus ∧
        pairContent U device m ≠ some (.number 0)

theorem content_param (label value : List Char) : content U (.param label) value = some (.text value) := rfl

/-- The settings after the loop. -/
theorem parseConnection_eq (device : Section) :
    parseConnection U device =
      { (filled U device (pairIndices device)).conn with
        modbus :=
          if startsWithModbus (mapTransport U (device.text "type" "")) ∨
            (filled U device (pairIndices device)).modbus ≠ {} then
            some (filled U device (pairIndices device)).modbus else none
        params := (filled U device (pairIndices device)).params } := by
  rw [← transport_filled U device (pairIndices device)]
  rfl

theorem readConnection_eq (device : Section) (t : Target)
    (h : t.isModbus → startsWithModbus (mapTransport U (device.text "type" "")) ∨
      (filled U device (pairIndices device)).modbus ≠ {}) :
    readConnection (parseConnection U device) t = (filled U device (pairIndices device)).read t := by
  rw [parseConnection_eq]
  cases t with
  | discreteInputs | coils | holdingRegisters | inputRegisters =>
    simp only [readConnection, DeviceParams.read, place, if_pos (h rfl)]
  | _ => rfl

theorem Carries.read {device : Section} {label value : List Char}
    (h : Carries U (parseConnection U device) label value) :
    ∃ c, content U (target U label) value = some c ∧
      readConnection (parseConnection U device) (target U label) = some c := by
  rcases h with hfield | hparam
  · exact hfield
  · have hparams : (filled U device (pairIndices device)).params.get? (String.ofList label) =
        some (String.ofList value) := hparam
    have htarget : target U label = .param label :=
      target_of_params_filled U (by rw [hparams]; exact Option.some_ne_none _)
    refine ⟨.text value, by rw [htarget, content_param], ?_⟩
    rw [htarget, readConnection, place, hparam]
    simp

theorem read_of_readConnection {device : Section} {t : Target} {c : Content}
    (h : readConnection (parseConnection U device) t = some c) :
    (filled U device (pairIndices device)).read t = some c ∧
      (t.isModbus → startsWithModbus (mapTransport U (device.text "type" "")) ∨
        (filled U device (pairIndices device)).modbus ≠ {}) := by
  have hmapped : t.isModbus → startsWithModbus (mapTransport U (device.text "type" "")) ∨
      (filled U device (pairIndices device)).modbus ≠ {} := by
    intro ht
    by_contra hnone
    rw [parseConnection_eq, if_neg hnone] at h
    cases t with
    | discreteInputs | coils | holdingRegisters | inputRegisters => cases h
    | _ => cases ht
  exact ⟨readConnection_eq U device t hmapped ▸ h, hmapped⟩

theorem modbus_eq_default {d : DeviceParams} (h : ∀ t : Target, t.isModbus → d.read t = some (.number 0)) :
    d.modbus = {} := by
  have hdiscrete := h .discreteInputs rfl
  have hcoils := h .coils rfl
  have hholding := h .holdingRegisters rfl
  have hinput := h .inputRegisters rfl
  obtain ⟨conn, ⟨discrete, coils, holding, input⟩, params⟩ := d
  simp only [DeviceParams.read, place, Option.map_some, Option.some.injEq, Content.number.injEq] at *
  rw [hdiscrete, hcoils, hholding, hinput]

theorem read_of_modbus_default {d : DeviceParams} (h : d.modbus = {}) {t : Target} (ht : t.isModbus) :
    d.read t = some (.number 0) := by
  cases t with
  | discreteInputs | coils | holdingRegisters | inputRegisters => simp only [DeviceParams.read, place, h, Option.map_some]
  | _ => cases ht

theorem isPair_of_mem {device : Section} {n : ℕ} (h : n ∈ pairIndices device) (hlabel : pairLabel device n ≠ []) :
    IsPair device n ∧ Reached device n := by
  obtain ⟨hpos, hreached⟩ := mem_pairIndices.mp h
  exact ⟨⟨hpos, hreached n hpos (Nat.le_refl n), hlabel⟩, hreached⟩

theorem Recoverable.read_of_reached {device : Section} (h : Recoverable U device) {m : ℕ} (hm : IsPair device m)
    (hreached : Reached device m) :
    (filled U device (pairIndices device)).read (pairTarget U device m) = pairContent U device m := by
  obtain ⟨c, hc⟩ := Option.isSome_iff_exists.mp (h.readable m hm)
  rw [hc]
  refine read_filled_of_named U (fun k hk hlabel htarget => ?_)
    ⟨m, mem_pairIndices.mpr ⟨hm.1, hreached⟩, hm.2.2, rfl⟩
  rw [h.consistent k m (isPair_of_mem hk hlabel).1 hm htarget, hc]

theorem Recoverable.read_filled {device : Section} (h : Recoverable U device) {n : ℕ} (hn : IsPair device n) :
    (filled U device (pairIndices device)).read (pairTarget U device n) = pairContent U device n := by
  by_cases hnamed : ∃ m, IsPair device m ∧ Reached device m ∧ pairTarget U device m = pairTarget U device n
  · obtain ⟨m, hm, hreached, htarget⟩ := hnamed
    rw [← htarget, h.read_of_reached U hm hreached, h.consistent m n hm hn htarget]
  · rw [← (h.reached n hn).resolve_left hnamed]
    refine read_filled_of_unnamed U (fun m hmem hlabel htarget => hnamed ⟨m, ?_⟩)
    exact ⟨(isPair_of_mem hmem hlabel).1, (isPair_of_mem hmem hlabel).2, htarget⟩

theorem Recoverable.lossless {device : Section} (h : Recoverable U device) :
    Lossless U device (parseConnection U device) := by
  intro n hn
  obtain ⟨c, hc⟩ := Option.isSome_iff_exists.mp (h.readable n hn)
  refine .inl ⟨c, hc, ?_⟩
  refine (readConnection_eq U device (pairTarget U device n) (fun ht => ?_)).trans ((h.read_filled U hn).trans hc)
  refine (h.mapped n hn ht).imp_right ?_
  rintro ⟨m, hm, hreached, hmt, hvalue⟩ hdefault
  exact hvalue ((h.read_of_reached U hm hreached).symm.trans (read_of_modbus_default hdefault hmt))

theorem Lossless.recoverable {device : Section} (h : Lossless U device (parseConnection U device)) :
    Recoverable U device := by
  have hread : ∀ n, IsPair device n → ∃ c, pairContent U device n = some c ∧
      readConnection (parseConnection U device) (pairTarget U device n) = some c := fun n hn => (h n hn).read
  refine ⟨fun n hn => ?_, fun m n hm hn htarget => ?_, fun n hn => ?_, fun n hn ht => ?_⟩
  · obtain ⟨c, hc, _⟩ := hread n hn
    exact Option.isSome_iff_exists.mpr ⟨c, hc⟩
  · obtain ⟨c, hc, hcread⟩ := hread m hm
    obtain ⟨e, he, heread⟩ := hread n hn
    rw [htarget, heread] at hcread
    rw [hc, he, hcread]
  · obtain ⟨c, hc, hcread⟩ := hread n hn
    refine or_iff_not_imp_left.mpr (fun hnamed => ?_)
    rw [hc, ← (read_of_readConnection U hcread).1]
    refine (read_filled_of_unnamed U (fun m hmem hlabel htarget => hnamed ⟨m, ?_⟩)).symm
    exact ⟨(isPair_of_mem hmem hlabel).1, (isPair_of_mem hmem hlabel).2, htarget⟩
  · obtain ⟨c, hc, hcread⟩ := hread n hn
    refine ((read_of_readConnection U hcread).2 ht).imp_right (fun hmodbus => ?_)
    by_contra hzeros
    refine hmodbus (modbus_eq_default (fun t ht' => ?_))
    -- every pair of the map that the loop reached says zero, so does every place of the map
    by_cases hnamed : ∃ m ∈ pairIndices device, pairLabel device m ≠ [] ∧ pairTarget U device m = t
    · refine read_filled_of_named U (fun m hmem hlabel htarget => ?_) hnamed
      by_contra hvalue
      obtain ⟨hm, hreached⟩ := isPair_of_mem hmem hlabel
      exact hzeros ⟨m, hm, hreached, htarget ▸ ht', hvalue⟩
    · rw [read_filled_of_unnamed U (fun m hmem hlabel htarget => hnamed ⟨m, hmem, hlabel, htarget⟩)]
      cases t with
      | discreteInputs | coils | holdingRegisters | inputRegisters => rfl
      | _ => cases ht'

/-! ## The conversion -/

theorem convert_eq {file : IniFile} {device : Section} (hdevice : file.device = some device)
    (hvars : ∀ sec, file.vars = some sec → ∃ vars, parseVariables U sec = .ok vars) (name : String) :
    ∃ vars, convert U file name = .ok ⟨name, name, ⟨parseConnection U device, vars⟩⟩ := by
  rw [convert, hdevice]
  cases hsec : file.vars with
  | none => exact ⟨[], rfl⟩
  | some sec =>
    obtain ⟨vars, hread⟩ := hvars sec hsec
    refine ⟨vars, ?_⟩
    simp only [hread]
    rfl

/-- **The conversion of a readable file loses no pair of the connection exactly if the numeric values are integers,
the pairs of one field agree, nothing new stands behind a gap in the numbering, and no zero of a Modbus map stands
without one.** -/
theorem convert_lossless_iff (file : IniFile) (device : Section) (name : String)
    (hdevice : file.device = some device)
    (hvars : ∀ sec, file.vars = some sec → ∃ vars, parseVariables U sec = .ok vars) :
    (∃ result, convert U file name = .ok result ∧ Lossless U device result.payload.connection) ↔
      Recoverable U device := by
  obtain ⟨vars, hconvert⟩ := convert_eq U hdevice hvars name
  constructor
  · rintro ⟨result, hresult, hlossless⟩
    rw [hconvert, Except.ok.injEq] at hresult
    subst hresult
    exact hlossless.recoverable U
  · exact fun h => ⟨_, hconvert, h.lossless U⟩

/-- The pairs of a section that is written out have the numbers of its keys. -/
theorem mem_of_isPair {entries : List (String × String)} {numbers : List ℕ}
    (hkeys : ∀ e ∈ entries, e.1.toList.take 3 = "key".toList → ∃ n ∈ numbers, e.1 = rowKey "key" (Nat.toDigits 10 n))
    {n : ℕ} (h : IsPair (Dict.ofList entries) n) : n ∈ numbers := by
  obtain ⟨label, hlabel⟩ := Option.isSome_iff_exists.mp h.2.1
  have hprefix : (rowKey "key" (Nat.toDigits 10 n)).toList.take 3 = "key".toList := by
    rw [rowKey, String.toList_append]
    rfl
  obtain ⟨m, hm, he⟩ := hkeys _ (Dict.mem_of_get?_ofList hlabel) hprefix
  exact eq_of_key he ▸ hm

/-- Texts, numbers, a count of the Modbus map, an unknown label, a blank one, and behind a gap the port again. -/
def plcDevice : Section := Dict.ofList [("type", "Modbus TCP"), ("key1", "IP адрес"), ("value1", "192.168.0.5"),
  ("key2", "Порт"), ("value2", " 502 "), ("key3", "Input registers"), ("value3", "8"), ("key4", "Серийный номер"),
  ("value4", "A-17"), ("key5", " "), ("key7", "port"), ("value7", "502")]

theorem plcDevice_lossless :
    ∃ result, convert cyrillic ⟨some plcDevice, none⟩ "plc" = .ok result ∧
      Lossless cyrillic plcDevice result.payload.connection := by
  refine (convert_lossless_iff cyrillic ⟨some plcDevice, none⟩ _ "plc" rfl (fun _ h => by cases h)).mpr ?_
  have hnumber (n : ℕ) (hn : IsPair plcDevice n) : n ∈ [1, 2, 3, 4, 5, 7] := mem_of_isPair (by decide) hn
  have hreached : ∀ m ∈ [1, 2, 3, 4], IsPair plcDevice m ∧ Reached plcDevice m := by
    have hkeys : ∀ k ∈ [1, 2, 3, 4], (plcDevice.get? (rowKey "key" (Nat.toDigits 10 k))).isSome = true ∧
        pairLabel plcDevice k ≠ [] := by decide
    intro m hm
    have hle : 0 < m ∧ m ≤ 4 := (by decide : ∀ m ∈ [1, 2, 3, 4], 0 < m ∧ m ≤ 4) m hm
    refine ⟨⟨hle.1, hkeys m hm⟩, fun k hpos hk => (hkeys k ?_).1⟩
    have hcases : k = 1 ∨ k = 2 ∨ k = 3 ∨ k = 4 := by omega
    simpa using hcases
  refine ⟨fun n hn => ?_, fun m n hm hn htarget => ?_, fun n hn => .inl ?_, fun n hn _ => .inl (by decide)⟩
  · exact (by decide : ∀ n ∈ [1, 2, 3, 4, 5, 7], pairLabel plcDevice n ≠ [] →
      (pairContent cyrillic plcDevice n).isSome = true) n (hnumber n hn) hn.2.2
  · exact (by decide +kernel : ∀ m ∈ [1, 2, 3, 4, 5, 7], ∀ n ∈ [1, 2, 3, 4, 5, 7], pairLabel plcDevice m ≠ [] →
      pairLabel plcDevice n ≠ [] → pairTarget cyrillic plcDevice m = pairTarget cyrillic plcDevice n →
        pairContent cyrillic plcDevice m = pairContent cyrillic plcDevice n)
      m (hnumber m hm) n (hnumber n hn) hm.2.2 hn.2.2 htarget
  · obtain ⟨m, hm, htarget⟩ := (by decide : ∀ n ∈ [1, 2, 3, 4, 5, 7], pairLabel plcDevice n ≠ [] →
      ∃ m ∈ [1, 2, 3, 4], pairTarget cyrillic plcDevice m = pairTarget cyrillic plcDevice n) n (hnumber n hn) hn.2.2
    exact ⟨m, (hreached m hm).1, (hreached m hm).2, htarget⟩

/-- A file with one pair. -/
def onePair (label value : String) : IniFile := ⟨some (Dict.ofList [("key1", label), ("value1", value)]), none⟩

/-- A port that is no number is in no field of the result, and not in `params`. -/
theorem onePair_lost :
    ∃ result, convert cyrillic (onePair "Порт" "auto") "oven" = .ok result ∧
      ¬ Lossless cyrillic (Dict.ofList [("key1", "Порт"), ("value1", "auto")]) result.payload.connection := by
  have hdevice : (onePair "Порт" "auto").device = some (Dict.ofList [("key1", "Порт"), ("value1", "auto")]) := rfl
  obtain ⟨vars, hconvert⟩ := convert_eq cyrillic hdevice (fun _ h => by cases h) "oven"
  refine ⟨_, hconvert, fun hlossless => ?_⟩
  have hpair : IsPair (Dict.ofList [("key1", "Порт"), ("value1", "auto")]) 1 :=
    ⟨by decide, by decide, by decide⟩
  have hread := (hlossless.recoverable cyrillic).readable 1 hpair
  revert hread
  decide

end Tstlan.Ini2yaml
