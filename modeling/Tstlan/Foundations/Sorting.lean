import Mathlib.Data.List.Sort

/-! # Sorting by a key -/
namespace Foundations
set_option autoImplicit false

variable {α β : Type} [LinearOrder β]

theorem pairwise_mergeSort_key (key : α → β) (xs : List α) :
    (xs.mergeSort (fun a b => key a ≤ key b)).Pairwise (fun a b => key a ≤ key b) := by
  refine (List.pairwise_mergeSort (fun a b c hab hbc => ?_) (fun a b => ?_) xs).imp of_decide_eq_true
  · exact decide_eq_true ((of_decide_eq_true hab).trans (of_decide_eq_true hbc))
  · rcases le_total (key a) (key b) with h | h <;> simp [h]

/-- The keys of a list in the order of its keys are the sorted keys. -/
theorem mergeSort_map_key {key : α → β} {xs sorted : List α} (hperm : sorted.Perm xs)
    (hsorted : sorted.Pairwise (fun a b => key a ≤ key b)) :
    (xs.map key).mergeSort (fun a b => a ≤ b) = sorted.map key :=
  List.Perm.eq_of_pairwise (fun _ _ _ _ => le_antisymm) (pairwise_mergeSort_key id (xs.map key))
    (List.pairwise_map.mpr hsorted) ((List.mergeSort_perm _ _).trans (hperm.map key).symm)

/-- The head of a sorted list is before every element. -/
theorem head?_mergeSort {le : α → α → Bool} (htrans : ∀ a b c, le a b → le b c → le a c)
    (htotal : ∀ a b, le a b || le b a) {xs : List α} {a : α} (h : (xs.mergeSort le).head? = some a) :
    a ∈ xs ∧ ∀ b ∈ xs, le a b := by
  obtain ⟨rest, hsort⟩ := List.head?_eq_some_iff.mp h
  have hmem (b : α) : b ∈ xs ↔ b = a ∨ b ∈ rest := by
    have hsame : b ∈ xs.mergeSort le ↔ b ∈ xs := List.mem_mergeSort
    rw [← hsame, hsort, List.mem_cons]
  have hsorted := List.pairwise_mergeSort htrans htotal xs
  rw [hsort, List.pairwise_cons] at hsorted
  refine ⟨(hmem a).mpr (.inl rfl), fun b hb => ?_⟩
  rcases (hmem b).mp hb with rfl | hrest
  · simpa using htotal b b
  · exact hsorted.1 b hrest

end Foundations
