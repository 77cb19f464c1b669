import Tstlan.Foundations.Sorting
import Tstlan.Tools.Ini2yaml

/-! # The rows of the `[vars]` section

The number of a row is read from the key, sorted, and written back to look up the four attributes. The way back gives
the row itself when the number under its own suffix and the number as it is written have the same attributes. -/
namespace Tstlan.Ini2yaml
open Foundations PyText
set_option autoImplicit false

variable (U : Unicode)

/-- The suffixes of the `name_N` keys. -/
def nameSuffixes (sec : Section) : List (List Char) := sec.keys.filterMap (nameSuffix U)

/-- Each row that has a name has a known type. -/
def KnownTypes (sec : Section) : Prop :=
  ∀ suffix ∈ nameSuffixes U sec, strip (sec.text (rowKey "name_" suffix) "") ≠ [] →
    ∃ ctype, mapCtype U (sec.text (rowKey "type_" suffix) "") = .ok ctype

/-- The variable stored under a suffix. -/
def storedRow (sec : Section) (suffix : List Char) : Option ConfigVar := (rowAt U sec suffix).toOption.join

/-- One variable for each `name_N` key that has a name, from the row with the same suffix and under its number, in
the order of the numbers. -/
def Faithful (sec : Section) : Prop :=
  ∃ suffixes : List (List Char), suffixes.Perm (nameSuffixes U sec) ∧
    suffixes.Pairwise (fun a b => number U a ≤ number U b) ∧
    indexedVariables U sec =
      .ok (suffixes.filterMap (fun suffix => (storedRow U sec suffix).map (number U suffix, ·)))

/-- The suffix can be read as a number, and the row under that number has the attributes of the row itself. -/
def Canonical (sec : Section) (suffix : List Char) : Prop :=
  suffix.length ≤ maxStrDigits ∧
    storedRow U sec (Nat.toDigits 10 (number U suffix)) = storedRow U sec suffix

/-! ## Suffixes -/

theorem nameSuffix_rowKey {suffix : List Char} (hne : suffix ≠ []) (hall : suffix.all (isDecimal U) = true) :
    nameSuffix U (rowKey "name_" suffix) = some suffix := by
  have hlist : (rowKey "name_" suffix).toList = 'n' :: 'a' :: 'm' :: 'e' :: '_' :: suffix := by
    simp [rowKey, String.toList_append]
  rw [nameSuffix, hlist]
  exact if_pos ⟨hne, hall⟩

theorem nameSuffix_toDigits (n : ℕ) :
    nameSuffix U (rowKey "name_" (Nat.toDigits 10 n)) = some (Nat.toDigits 10 n) := by
  refine nameSuffix_rowKey U Nat.toDigits_ne_nil (List.all_eq_true.mpr ?_)
  intro c hc
  exact isDecimal_of_isDigit U (Nat.isDigit_of_mem_toDigits (by omega) (by omega) hc)

/-- The row of a number is that of a key, or it has no name. -/
theorem toDigits_mem_or (sec : Section) (n : ℕ) :
    Nat.toDigits 10 n ∈ nameSuffixes U sec ∨
      strip (sec.text (rowKey "name_" (Nat.toDigits 10 n)) "") = [] := by
  cases hget : sec.get? (rowKey "name_" (Nat.toDigits 10 n)) with
  | none =>
    right
    rw [Section.text, hget]
    rfl
  | some value =>
    left
    refine List.mem_filterMap.mpr ⟨_, Dict.mem_keys.mpr ?_, nameSuffix_toDigits U n⟩
    simp [hget]

/-! ## Rows -/

theorem rowAt_of_blank {sec : Section} {suffix : List Char}
    (h : strip (sec.text (rowKey "name_" suffix) "") = []) : rowAt U sec suffix = .ok none := by
  rw [rowAt, if_pos h]
  rfl

theorem rowAt_eq_storedRow {sec : Section} {suffix : List Char}
    (h : strip (sec.text (rowKey "name_" suffix) "") ≠ [] →
      ∃ ctype, mapCtype U (sec.text (rowKey "type_" suffix) "") = .ok ctype) :
    rowAt U sec suffix = .ok (storedRow U sec suffix) := by
  by_cases hblank : strip (sec.text (rowKey "name_" suffix) "") = []
  · rw [storedRow, rowAt_of_blank U hblank]
    rfl
  · obtain ⟨ctype, hctype⟩ := h hblank
    rw [storedRow, rowAt, if_neg hblank, hctype]
    rfl

theorem KnownTypes.rowAt_toDigits {sec : Section} (h : KnownTypes U sec) (n : ℕ) :
    rowAt U sec (Nat.toDigits 10 n) = .ok (storedRow U sec (Nat.toDigits 10 n)) := by
  refine rowAt_eq_storedRow U (fun hname => ?_)
  rcases toDigits_mem_or U sec n with hmem | hblank
  · exact h _ hmem hname
  · exact absurd hblank hname

/-! ## The loops -/

theorem rowIndices_eq_ok {suffixes : List (List Char)} (h : ∀ suffix ∈ suffixes, suffix.length ≤ maxStrDigits) :
    rowIndices U suffixes = .ok (suffixes.map (number U)) := by
  induction suffixes with
  | nil => rfl
  | cons suffix rest ih =>
    obtain ⟨hhead, hrest⟩ := List.forall_mem_cons.mp h
    rw [rowIndices, intOfDigits, if_pos hhead, ih hrest]
    rfl

theorem length_le_of_rowIndices {suffixes : List (List Char)} {indices : List ℕ}
    (h : rowIndices U suffixes = .ok indices) : ∀ suffix ∈ suffixes, suffix.length ≤ maxStrDigits := by
  induction suffixes generalizing indices with
  | nil => simp
  | cons suffix rest ih =>
    by_cases hhead : suffix.length ≤ maxStrDigits
    · cases hrest : rowIndices U rest with
      | error e =>
        rw [rowIndices, intOfDigits, if_pos hhead, hrest] at h
        cases h
      | ok tail => exact List.forall_mem_cons.mpr ⟨hhead, ih hrest⟩
    · rw [rowIndices, intOfDigits, if_neg hhead] at h
      cases h

theorem variablesAt_eq_ok {sec : Section} (h : KnownTypes U sec) (indices : List ℕ) :
    variablesAt U sec indices =
      .ok (indices.filterMap (fun n => (storedRow U sec (Nat.toDigits 10 n)).map (n, ·))) := by
  induction indices with
  | nil => rfl
  | cons n rest ih =>
    rw [variablesAt, h.rowAt_toDigits U n, ih, List.filterMap_cons]
    cases storedRow U sec (Nat.toDigits 10 n) <;> rfl

/-- What the converter reads, for any listing of the suffixes in the order of their numbers. -/
theorem indexedVariables_eq {sec : Section} (h : KnownTypes U sec) {suffixes : List (List Char)}
    (hperm : suffixes.Perm (nameSuffixes U sec))
    (hsorted : suffixes.Pairwise (fun a b => number U a ≤ number U b))
    (hlength : ∀ suffix ∈ nameSuffixes U sec, suffix.length ≤ maxStrDigits) :
    indexedVariables U sec = .ok (suffixes.filterMap (fun suffix =>
      (storedRow U sec (Nat.toDigits 10 (number U suffix))).map (number U suffix, ·))) := by
  have hindices := rowIndices_eq_ok U hlength
  rw [nameSuffixes] at hindices
  rw [indexedVariables, hindices]
  refine (variablesAt_eq_ok U h _).trans ?_
  rw [← nameSuffixes, mergeSort_map_key hperm hsorted, List.filterMap_map]
  rfl

/-! ## Rows under their numbers -/

section Blocks
variable {κ α : Type} (num : κ → ℕ)

theorem filter_filterMap_fst (f : κ → Option α) (n : ℕ) (keys : List κ) :
    (keys.filterMap (fun key => (f key).map (num key, ·))).filter (fun entry => entry.1 = n) =
      (keys.filter (fun key => num key = n)).filterMap (fun key => (f key).map (num key, ·)) := by
  rw [List.filter_filterMap, List.filterMap_filter]
  refine List.filterMap_congr (fun key _ => ?_)
  by_cases hn : num key = n <;> cases f key <;> simp [hn]

/-- Two readings of a list of keys under their numbers, of which the first depends on the number only, give the same
list only if they agree on every key. -/
theorem eq_of_filterMap_eq {keys : List κ} {f : ℕ → Option α} {g : κ → Option α}
    (h : keys.filterMap (fun key => (f (num key)).map (num key, ·)) =
      keys.filterMap (fun key => (g key).map (num key, ·)))
    {key : κ} (hkey : key ∈ keys) : f (num key) = g key := by
  -- the keys of one number read the same value on the left, so their block is full or empty on both sides
  have hblock := congrArg (List.filter (fun entry => entry.1 = num key)) h
  rw [filter_filterMap_fst num (fun k => f (num k)), filter_filterMap_fst] at hblock
  have hin : key ∈ keys.filter (fun k => num k = num key) := List.mem_filter.mpr ⟨hkey, by simp⟩
  have hnum : ∀ k ∈ keys.filter (fun k => num k = num key), num k = num key :=
    fun k hk => of_decide_eq_true (List.mem_filter.mp hk).2
  generalize keys.filter (fun k => num k = num key) = block at hblock hin hnum
  cases hf : f (num key) with
  | none =>
    have hempty : block.filterMap (fun k => (f (num k)).map (num k, ·)) = [] := by
      refine List.filterMap_eq_nil_iff.mpr (fun k hk => ?_)
      rw [hnum k hk, hf]
      rfl
    rw [hempty] at hblock
    have hnone := List.filterMap_eq_nil_iff.mp hblock.symm key hin
    exact (Option.map_eq_none_iff.mp hnone).symm
  | some value =>
    have hfull : (block.filterMap (fun k => (f (num k)).map (num k, ·))).length = block.length := by
      refine List.filterMap_length_eq_length.mpr (fun k hk => ?_)
      rw [hnum k hk, hf]
      rfl
    rw [hblock] at hfull
    have hsome := List.filterMap_length_eq_length.mp hfull key hin
    obtain ⟨read, hread⟩ := Option.isSome_iff_exists.mp hsome
    have hmem : read ∈ block.filterMap (fun k => (f (num k)).map (num k, ·)) := by
      rw [hblock]
      exact List.mem_filterMap.mpr ⟨key, hin, hread⟩
    obtain ⟨k, hk, hvalue⟩ := List.mem_filterMap.mp hmem
    rw [hnum k hk, hf, Option.map_some, Option.some.injEq] at hvalue
    obtain ⟨own, hown, hpair⟩ := Option.map_eq_some_iff.mp hread
    rw [hown, (Prod.mk.inj (hvalue.trans hpair.symm)).2]

end Blocks

/-! ## Faithful reading -/

theorem exists_sorted (sec : Section) :
    ∃ suffixes : List (List Char), suffixes.Perm (nameSuffixes U sec) ∧
      suffixes.Pairwise (fun a b => number U a ≤ number U b) :=
  ⟨_, List.mergeSort_perm _ _, pairwise_mergeSort_key (number U) (nameSuffixes U sec)⟩

theorem Canonical.faithful {sec : Section} (hknown : KnownTypes U sec)
    (h : ∀ suffix ∈ nameSuffixes U sec, Canonical U sec suffix) : Faithful U sec := by
  obtain ⟨suffixes, hperm, hsorted⟩ := exists_sorted U sec
  refine ⟨suffixes, hperm, hsorted, ?_⟩
  rw [indexedVariables_eq U hknown hperm hsorted (fun suffix hs => (h suffix hs).1)]
  refine congrArg Except.ok (List.filterMap_congr (fun suffix hs => ?_))
  rw [(h suffix (hperm.mem_iff.mp hs)).2]

theorem Faithful.canonical {sec : Section} (hknown : KnownTypes U sec) (h : Faithful U sec) :
    ∀ suffix ∈ nameSuffixes U sec, Canonical U sec suffix := by
  obtain ⟨suffixes, hperm, hsorted, hread⟩ := h
  have hlength : ∀ suffix ∈ nameSuffixes U sec, suffix.length ≤ maxStrDigits := by
    cases hindices : rowIndices U (nameSuffixes U sec) with
    | error e =>
      rw [indexedVariables, ← nameSuffixes, hindices] at hread
      cases hread
    | ok indices => exact length_le_of_rowIndices U hindices
  rw [indexedVariables_eq U hknown hperm hsorted hlength, Except.ok.injEq] at hread
  intro suffix hs
  exact ⟨hlength suffix hs, eq_of_filterMap_eq (number U)
    (f := fun n => storedRow U sec (Nat.toDigits 10 n)) hread (hperm.mem_iff.mpr hs)⟩

/-- **The rows of the section come out once each, in order and with their own attributes, exactly if every suffix is
canonical: the row under the number as it is written is the row under the suffix.** -/
theorem faithful_iff_canonical (sec : Section) (hknown : KnownTypes U sec) :
    (Faithful U sec ∧ parseVariables U sec = (indexedVariables U sec).map (List.map Prod.snd)) ↔
      ∀ suffix ∈ nameSuffixes U sec, Canonical U sec suffix :=
  ⟨fun h => h.1.canonical U hknown, fun h => ⟨Canonical.faithful U hknown h, rfl⟩⟩

/-- Rows out of order, one of them with two digits, one without a name; aliases of types, both values of the flag. -/
def ovenRows : Section :=
  Dict.ofList [("name_10", "pressure"), ("type_10", " Double "), ("name_2", "temperature"), ("type_2", "float"),
    ("graph_2", "1"), ("category_2", "oven"), ("name_7", "  "), ("name_3", "heater"), ("type_3", "bit"),
    ("graph_3", "true"), ("name_11", "mode"), ("type_11", "u16"), ("graph_11", "no")]

theorem ovenRows_faithful :
    Faithful cyrillic ovenRows ∧
      parseVariables cyrillic ovenRows = (indexedVariables cyrillic ovenRows).map (List.map Prod.snd) := by
  have hsuffixes : nameSuffixes cyrillic ovenRows = [['1', '0'], ['2'], ['7'], ['3'], ['1', '1']] := by decide
  refine (faithful_iff_canonical cyrillic ovenRows ?_).mpr ?_
  · rw [KnownTypes, hsuffixes]
    simp only [List.forall_mem_cons, List.not_mem_nil, IsEmpty.forall_iff, implies_true, and_true]
    exact ⟨fun _ => ⟨.F64, by decide⟩, fun _ => ⟨.F32, by decide⟩, fun hname => absurd (by decide) hname,
      fun _ => ⟨.BIT, by decide⟩, fun _ => ⟨.U16, by decide⟩⟩
  · rw [hsuffixes]
    unfold Canonical
    decide

def temperature : ConfigVar := { name := "temperature", ctype := .F32, graph := true, category := "oven" }

/-- A section with one row. -/
def oneRow (suffix : String) : Section :=
  Dict.ofList [("name_" ++ suffix, "temperature"), ("type_" ++ suffix, "float"), ("graph_" ++ suffix, "1"),
    ("category_" ++ suffix, "oven")]

/-- A row numbered `01` is lost: its attributes are looked up under `1`. -/
theorem paddedRow_not_faithful :
    KnownTypes cyrillic (oneRow "01") ∧ storedRow cyrillic (oneRow "01") ['0', '1'] = some temperature ∧
      parseVariables cyrillic (oneRow "01") = .ok [] ∧ ¬ Faithful cyrillic (oneRow "01") := by
  have hsuffixes : nameSuffixes cyrillic (oneRow "01") = [['0', '1']] := by decide
  have hrow : storedRow cyrillic (oneRow "01") ['0', '1'] = some temperature := by decide
  have hlost : storedRow cyrillic (oneRow "01") (Nat.toDigits 10 (number cyrillic ['0', '1'])) = none := by decide
  have hknown : KnownTypes cyrillic (oneRow "01") := by
    rw [KnownTypes, hsuffixes]
    exact List.forall_mem_singleton.mpr (fun _ => ⟨.F32, by decide⟩)
  refine ⟨hknown, hrow, ?_, fun hfaithful => ?_⟩
  · have hread := indexedVariables_eq cyrillic hknown (.of_eq hsuffixes.symm) (List.pairwise_singleton _ _)
      (by rw [hsuffixes]; decide)
    rw [parseVariables, hread, List.filterMap_cons, hlost]
    rfl
  · have hcanonical := hfaithful.canonical cyrillic hknown ['0', '1'] (by rw [hsuffixes]; exact .head _)
    rw [Canonical, hlost, hrow] at hcanonical
    cases hcanonical.2

end Tstlan.Ini2yaml
