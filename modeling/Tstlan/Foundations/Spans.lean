import Mathlib.Data.List.Basic
import Mathlib.Data.List.Infix
import Mathlib.Order.Lattice

/-! # Spans of an increasing list

A list grows at its end and loses elements at its front. While it is increasing, the elements between two
bounds stand side by side: `span_of_mem` finds the ends of their span by a scan from either side. -/
namespace Foundations.Spans
open List
set_option autoImplicit false

variable {α τ : Type}

/-! ## Slices -/

/-- The elements from one index to another, both included. -/
def slice (xs : List α) (first last : ℕ) : List α := (xs.drop first).take (last + 1 - first)

theorem getElem?_slice (xs : List α) (first last k : ℕ) :
    (slice xs first last)[k]? = if first + k ≤ last then xs[first + k]? else none := by
  rw [slice, getElem?_take, getElem?_drop]
  exact if_congr (by omega) rfl rfl

theorem mem_slice {xs : List α} {first last : ℕ} {x : α} :
    x ∈ slice xs first last ↔ ∃ k, first ≤ k ∧ k ≤ last ∧ xs[k]? = some x := by
  rw [mem_iff_getElem?]
  constructor
  · rintro ⟨k, hk⟩
    rw [getElem?_slice] at hk
    split at hk
    · exact ⟨first + k, by omega, by omega, hk⟩
    · cases hk
  · rintro ⟨k, hfirst, hlast, hx⟩
    refine ⟨k - first, ?_⟩
    rw [getElem?_slice, Nat.add_sub_cancel' hfirst, if_pos hlast, hx]

theorem filter_eq_take_drop {xs : List α} {p : α → Prop} [DecidablePred p] {first stop : ℕ}
    (h : ∀ k x, xs[k]? = some x → (p x ↔ first ≤ k ∧ k < stop)) :
    xs.filter p = (xs.drop first).take (stop - first) := by
  induction xs generalizing first stop with
  | nil => simp
  | cons x xs ih =>
    have htail (k : ℕ) (y : α) (hy : xs[k]? = some y) : p y ↔ first ≤ k + 1 ∧ k + 1 < stop := h (k + 1) y hy
    have hx : p x ↔ first ≤ 0 ∧ 0 < stop := h 0 x rfl
    cases stop with
    | zero =>
      have hnone : ∀ y ∈ x :: xs, ¬p y := by
        intro y hy
        obtain ⟨k, hk⟩ := mem_iff_getElem?.mp hy
        exact mt (h k y hk).mp (by omega)
      rw [filter_eq_nil_iff.mpr (by simpa using hnone), Nat.zero_sub, take_zero]
    | succ stop =>
      cases first with
      | zero =>
        have hrest : xs.filter p = (xs.drop 0).take (stop - 0) :=
          ih (fun k y hy => (htail k y hy).trans (by omega))
        rw [filter_cons_of_pos (by simpa using hx.mpr (by omega)), hrest]
        rfl
      | succ first =>
        have hrest : xs.filter p = (xs.drop first).take (stop - first) :=
          ih (fun k y hy => (htail k y hy).trans (by omega))
        rw [filter_cons_of_neg (by simpa using mt hx.mp (by omega)), hrest, drop_succ_cons,
          Nat.add_sub_add_right]

/-- A predicate that holds exactly from one index to another cuts out the slice. -/
theorem filter_eq_slice {xs : List α} {p : α → Prop} [DecidablePred p] {first last : ℕ}
    (h : ∀ k x, xs[k]? = some x → (p x ↔ first ≤ k ∧ k ≤ last)) : xs.filter p = slice xs first last :=
  filter_eq_take_drop (fun k x hx => (h k x hx).trans (by omega))

/-! ## A list that grows at its end and shrinks at its front -/

inductive Change (α : Type)
  | append (x : α)
  | dropOldest

def Change.apply : Change α → List α → List α
  | .append x, xs => xs ++ [x]
  | .dropOldest, xs => xs.tail

def Change.added : Change α → List α
  | .append x => [x]
  | .dropOldest => []

def after (changes : List (Change α)) (xs : List α) : List α := changes.foldl (fun xs c => c.apply xs) xs

/-- Everything the changes append, in its order. -/
def appended (changes : List (Change α)) : List α := changes.flatMap Change.added

/-- What is left is the end of what was ever there. -/
theorem after_suffix (changes : List (Change α)) (xs : List α) : after changes xs <:+ xs ++ appended changes := by
  induction changes generalizing xs with
  | nil => exact (append_nil xs).symm ▸ suffix_rfl
  | cons c changes ih =>
    have hrest := ih (c.apply xs)
    rw [after, foldl_cons, appended, flatMap_cons, ← append_assoc]
    cases c with
    | append x => exact hrest
    | dropOldest =>
      refine hrest.trans ?_
      rw [Change.added, append_nil]
      obtain ⟨dropped, hdropped⟩ := tail_suffix xs
      exact ⟨dropped, by rw [← append_assoc, Change.apply, hdropped, appended]⟩

/-! ## Scans from both ends -/

/-- The first index below `n` where `p` holds. -/
def scanUp (n : ℕ) (p : ℕ → Bool) : Option ℕ := (range n).find? p

/-- The last index below `n` where `p` holds. -/
def scanDown (n : ℕ) (p : ℕ → Bool) : Option ℕ := (range n).reverse.find? p

theorem scanUp_eq_some {n k : ℕ} {p : ℕ → Bool} :
    scanUp n p = some k ↔ k < n ∧ p k = true ∧ ∀ m < k, p m = false := by
  simp [scanUp, and_left_comm]

theorem scanDown_eq_some {n k : ℕ} {p : ℕ → Bool} :
    scanDown n p = some k ↔ k < n ∧ p k = true ∧ ∀ m < n, k < m → p m = false := by
  induction n with
  | zero => simp [scanDown]
  | succ n ih =>
    rw [scanDown] at ih
    rw [scanDown, range_succ, reverse_append, reverse_singleton, singleton_append]
    by_cases hn : p n = true
    · rw [find?_cons_of_pos hn, Option.some.injEq]
      constructor
      · rintro rfl
        exact ⟨Nat.lt_succ_self n, hn, fun m hm hlt => by omega⟩
      · rintro ⟨hk, -, hlater⟩
        by_contra hne
        have hfalse := hlater n (Nat.lt_succ_self n) (by omega)
        rw [hn] at hfalse
        cases hfalse
    · rw [find?_cons_of_neg hn, ih]
      constructor
      · rintro ⟨hk, hp, hlater⟩
        refine ⟨by omega, hp, fun m hm hlt => ?_⟩
        rcases Nat.lt_succ_iff_lt_or_eq.mp hm with hm | rfl
        · exact hlater m hm hlt
        · exact Bool.eq_false_iff.mpr hn
      · rintro ⟨hk, hp, hlater⟩
        have hne : k ≠ n := by
          rintro rfl
          exact hn hp
        exact ⟨by omega, hp, fun m hm hlt => hlater m (by omega) hlt⟩

theorem scanUp_isSome {n k : ℕ} {p : ℕ → Bool} (hk : k < n) (hp : p k = true) : (scanUp n p).isSome := by
  rw [scanUp, find?_isSome]
  exact ⟨k, mem_range.mpr hk, hp⟩

theorem scanDown_isSome {n k : ℕ} {p : ℕ → Bool} (hk : k < n) (hp : p k = true) : (scanDown n p).isSome := by
  rw [scanDown, find?_isSome]
  exact ⟨k, mem_reverse.mpr (mem_range.mpr hk), hp⟩

/-! ## The span between two bounds -/

section Ordered
variable [LinearOrder τ]

/-- The first index with an element from `a` on. -/
def firstFrom (xs : List τ) (a : τ) : Option ℕ := scanUp xs.length (fun k => xs[k]?.any (a ≤ ·))

/-- The last index with an element up to `b`. -/
def lastUpTo (xs : List τ) (b : τ) : Option ℕ := scanDown xs.length (fun k => xs[k]?.any (· ≤ b))

theorem le_iff_of_increasing {xs : List τ} (h : xs.Pairwise (· < ·)) {i k : ℕ} {a x : τ}
    (hi : xs[i]? = some a) (hk : xs[k]? = some x) : a ≤ x ↔ i ≤ k := by
  obtain ⟨hilt, rfl⟩ := List.getElem?_eq_some_iff.mp hi
  obtain ⟨hklt, rfl⟩ := List.getElem?_eq_some_iff.mp hk
  have hlt := pairwise_iff_getElem.mp h
  constructor
  · intro hle
    by_contra hki
    exact (hlt k i hklt hilt (by omega)).not_ge hle
  · intro hik
    rcases Nat.eq_or_lt_of_le hik with rfl | hik
    · exact le_rfl
    · exact (hlt i k hilt hklt hik).le

/-- An increasing list has each element once. -/
theorem index_unique {xs : List τ} (h : xs.Pairwise (· < ·)) {i j : ℕ} {x : τ} (hi : xs[i]? = some x)
    (hj : xs[j]? = some x) : i = j :=
  le_antisymm ((le_iff_of_increasing h hi hj).mp le_rfl) ((le_iff_of_increasing h hj hi).mp le_rfl)

theorem firstFrom_eq_some {xs : List τ} (h : xs.Pairwise (· < ·)) {a : τ} {first : ℕ}
    (hfirst : firstFrom xs a = some first) {k : ℕ} {x : τ} (hk : xs[k]? = some x) : a ≤ x ↔ first ≤ k := by
  obtain ⟨hlt, hp, hbefore⟩ := scanUp_eq_some.mp hfirst
  obtain ⟨y, hy⟩ : ∃ y, xs[first]? = some y := ⟨_, getElem?_eq_getElem hlt⟩
  rw [hy, Option.any_some, decide_eq_true_eq] at hp
  constructor
  · intro hax
    by_contra hkf
    have hfalse := hbefore k (by omega)
    rw [hk, Option.any_some, decide_eq_false_iff_not] at hfalse
    exact hfalse hax
  · exact fun hfk => hp.trans ((le_iff_of_increasing h hy hk).mpr hfk)

theorem lastUpTo_eq_some {xs : List τ} (h : xs.Pairwise (· < ·)) {b : τ} {last : ℕ}
    (hlast : lastUpTo xs b = some last) {k : ℕ} {x : τ} (hk : xs[k]? = some x) : x ≤ b ↔ k ≤ last := by
  obtain ⟨hlt, hp, hafter⟩ := scanDown_eq_some.mp hlast
  obtain ⟨y, hy⟩ : ∃ y, xs[last]? = some y := ⟨_, getElem?_eq_getElem hlt⟩
  rw [hy, Option.any_some, decide_eq_true_eq] at hp
  constructor
  · intro hxb
    by_contra hlk
    have hfalse := hafter k (List.getElem?_eq_some_iff.mp hk).1 (by omega)
    rw [hk, Option.any_some, decide_eq_false_iff_not] at hfalse
    exact hfalse hxb
  · exact fun hkl => ((le_iff_of_increasing h hk hy).mpr hkl).trans hp

/-- Where some element lies between the bounds, the scans find the ends of their span. -/
theorem span_of_mem {xs : List τ} (h : xs.Pairwise (· < ·)) {a b : τ} (hmem : ∃ x ∈ xs, a ≤ x ∧ x ≤ b) :
    ∃ first last, firstFrom xs a = some first ∧ lastUpTo xs b = some last ∧
      ∀ k x, xs[k]? = some x → (a ≤ x ∧ x ≤ b ↔ first ≤ k ∧ k ≤ last) := by
  obtain ⟨x, hx, hax, hxb⟩ := hmem
  obtain ⟨k, hk⟩ := mem_iff_getElem?.mp hx
  have hlt : k < xs.length := (List.getElem?_eq_some_iff.mp hk).1
  obtain ⟨first, hfirst⟩ := Option.isSome_iff_exists.mp
    (scanUp_isSome (p := fun k => xs[k]?.any (a ≤ ·)) hlt (by simp [hk, hax]))
  obtain ⟨last, hlast⟩ := Option.isSome_iff_exists.mp
    (scanDown_isSome (p := fun k => xs[k]?.any (· ≤ b)) hlt (by simp [hk, hxb]))
  exact ⟨first, last, hfirst, hlast, fun k x hk =>
    and_congr (firstFrom_eq_some h hfirst hk) (lastUpTo_eq_some h hlast hk)⟩

/-- Where none does, the scans cross. -/
theorem last_lt_first {xs : List τ} (h : xs.Pairwise (· < ·)) {a b : τ} (hnone : ¬∃ x ∈ xs, a ≤ x ∧ x ≤ b)
    {first last : ℕ} (hfirst : firstFrom xs a = some first) (hlast : lastUpTo xs b = some last) :
    last < first := by
  by_contra hle
  obtain ⟨hlt, -⟩ := scanUp_eq_some.mp hfirst
  have hk : xs[first]? = some xs[first] := getElem?_eq_getElem hlt
  exact hnone ⟨xs[first], getElem_mem hlt, (firstFrom_eq_some h hfirst hk).mpr le_rfl,
    (lastUpTo_eq_some h hlast hk).mpr (by omega)⟩

end Ordered
end Foundations.Spans
