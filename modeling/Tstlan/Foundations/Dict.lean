import Mathlib.Data.List.Nodup
import Mathlib.Data.List.Basic

/-! # Finite maps that keep insertion order

A key occurs at most once, an assignment to a present key keeps its place and an assignment to a
new key goes to the end. Lookups are stated through `get?`; `mem_entries` connects them to the
list of entries, which is what an iteration sees. -/
namespace Foundations
set_option autoImplicit false

/-- A dictionary: its entries in order, no key twice. -/
structure Dict (κ ν : Type) where
  entries : List (κ × ν)
  nodup : (entries.map Prod.fst).Nodup

namespace Dict
variable {κ ν : Type}

@[ext] theorem ext {d e : Dict κ ν} (h : d.entries = e.entries) : d = e := by
  cases d
  cases e
  simp only at h
  subst h
  rfl

instance [DecidableEq κ] [DecidableEq ν] : DecidableEq (Dict κ ν) := fun d e =>
  decidable_of_iff (d.entries = e.entries) ⟨ext, fun h => h ▸ rfl⟩

def empty : Dict κ ν := ⟨[], List.nodup_nil⟩

def keys (d : Dict κ ν) : List κ := d.entries.map Prod.fst

def values (d : Dict κ ν) : List ν := d.entries.map Prod.snd

variable [DecidableEq κ]

/-! ## The entry list -/

def lookup (k : κ) : List (κ × ν) → Option ν
  | [] => none
  | e :: es => if e.1 = k then some e.2 else lookup k es

def assign (k : κ) (v : ν) : List (κ × ν) → List (κ × ν)
  | [] => [(k, v)]
  | e :: es => if e.1 = k then (k, v) :: es else e :: assign k v es

theorem lookup_assign (k k' : κ) (v : ν) (es : List (κ × ν)) :
    lookup k' (assign k v es) = if k' = k then some v else lookup k' es := by
  induction es with
  | nil => simp [assign, lookup, eq_comm]
  | cons e es ih =>
    by_cases he : e.1 = k
    · by_cases hk : k' = k
      · simp [assign, lookup, he, hk]
      · simp [assign, lookup, he, hk, Ne.symm hk]
    · by_cases hk : k' = k
      · subst hk
        simp [assign, lookup, he, ih]
      · simp [assign, lookup, he, hk, ih]

theorem mem_assign_key (k x : κ) (v : ν) (es : List (κ × ν)) :
    x ∈ (assign k v es).map Prod.fst ↔ x = k ∨ x ∈ es.map Prod.fst := by
  induction es with
  | nil => simp [assign]
  | cons e es ih =>
    by_cases he : e.1 = k
    · simp [assign, he]
    · simp only [assign, if_neg he, List.map_cons, List.mem_cons, ih]
      tauto

theorem assign_nodup (k : κ) (v : ν) (es : List (κ × ν)) (h : (es.map Prod.fst).Nodup) :
    ((assign k v es).map Prod.fst).Nodup := by
  induction es with
  | nil => simp [assign]
  | cons e es ih =>
    obtain ⟨hnot, htail⟩ := List.nodup_cons.mp h
    by_cases he : e.1 = k
    · simpa [assign, he] using h
    · rw [assign, if_neg he, List.map_cons, List.nodup_cons]
      refine ⟨?_, ih htail⟩
      rw [mem_assign_key]
      exact fun hm => hm.elim he hnot

theorem mem_of_lookup {k : κ} {v : ν} {es : List (κ × ν)} (h : lookup k es = some v) :
    (k, v) ∈ es := by
  induction es with
  | nil => simp [lookup] at h
  | cons e es ih =>
    by_cases he : e.1 = k
    · simp only [lookup, if_pos he, Option.some.injEq] at h
      simp [← he, ← h]
    · rw [lookup, if_neg he] at h
      exact List.mem_cons_of_mem _ (ih h)

/-- Assigning the value a key already has changes nothing. -/
theorem assign_of_lookup {k : κ} {v : ν} {es : List (κ × ν)} (h : lookup k es = some v) :
    assign k v es = es := by
  induction es with
  | nil => cases h
  | cons e es ih =>
    by_cases he : e.1 = k
    · rw [lookup, if_pos he, Option.some.injEq] at h
      rw [assign, if_pos he, ← he, ← h]
    · rw [lookup, if_neg he] at h
      rw [assign, if_neg he, ih h]

theorem assign_assign (k : κ) (v w : ν) (es : List (κ × ν)) :
    assign k w (assign k v es) = assign k w es := by
  induction es with
  | nil => simp [assign]
  | cons e es ih =>
    by_cases he : e.1 = k
    · simp [assign, he]
    · simp [assign, he, ih]

theorem lookup_eq_none {k : κ} {es : List (κ × ν)} :
    lookup k es = none ↔ k ∉ es.map Prod.fst := by
  induction es with
  | nil => simp [lookup]
  | cons e es ih =>
    by_cases he : e.1 = k
    · simp [lookup, he]
    · simp [lookup, he, ih, Ne.symm he]

theorem lookup_of_mem {k : κ} {v : ν} {es : List (κ × ν)} (hn : (es.map Prod.fst).Nodup)
    (h : (k, v) ∈ es) : lookup k es = some v := by
  induction es with
  | nil => simp at h
  | cons e es ih =>
    obtain ⟨hnot, htail⟩ := List.nodup_cons.mp hn
    rcases List.mem_cons.mp h with rfl | hm
    · simp [lookup]
    · have hne : e.1 ≠ k := by
        rintro rfl
        exact hnot (List.mem_map.mpr ⟨_, hm, rfl⟩)
      rw [lookup, if_neg hne]
      exact ih htail hm

/-! ## One entry changed in place -/

/-- Apply `f` to the value of `k`, where there is one. -/
def adjust (k : κ) (f : ν → ν) : List (κ × ν) → List (κ × ν)
  | [] => []
  | e :: es => if e.1 = k then (e.1, f e.2) :: es else e :: adjust k f es

theorem keys_adjust (k : κ) (f : ν → ν) (es : List (κ × ν)) :
    (adjust k f es).map Prod.fst = es.map Prod.fst := by
  induction es with
  | nil => rfl
  | cons e es ih =>
    by_cases he : e.1 = k
    · simp [adjust, he]
    · simp [adjust, he, ih]

theorem lookup_adjust (k k' : κ) (f : ν → ν) (es : List (κ × ν)) :
    lookup k' (adjust k f es) = if k' = k then (lookup k es).map f else lookup k' es := by
  induction es with
  | nil => simp [adjust, lookup]
  | cons e es ih =>
    by_cases he : e.1 = k
    · by_cases hk : k' = k
      · simp [adjust, lookup, he, hk]
      · simp [adjust, lookup, he, hk, Ne.symm hk]
    · by_cases hk : k' = k
      · subst hk
        simp [adjust, lookup, he, ih]
      · simp [adjust, lookup, he, hk, ih]

/-- Two functions that agree on the value of the key do the same. -/
theorem adjust_congr {k : κ} {f g : ν → ν} {es : List (κ × ν)} (h : ∀ v, lookup k es = some v → f v = g v) :
    adjust k f es = adjust k g es := by
  induction es with
  | nil => rfl
  | cons e es ih =>
    by_cases he : e.1 = k
    · have hv : f e.2 = g e.2 := h e.2 (by rw [lookup, if_pos he])
      rw [adjust, adjust, if_pos he, if_pos he, hv]
    · rw [lookup, if_neg he] at h
      rw [adjust, adjust, if_neg he, if_neg he, ih h]

@[simp] theorem adjust_id (k : κ) (es : List (κ × ν)) : adjust k id es = es := by
  induction es with
  | nil => rfl
  | cons e es ih =>
    rw [adjust, ih]
    exact ite_self _

theorem adjust_adjust (k : κ) (f g : ν → ν) (es : List (κ × ν)) :
    adjust k g (adjust k f es) = adjust k (g ∘ f) es := by
  induction es with
  | nil => rfl
  | cons e es ih =>
    by_cases he : e.1 = k
    · simp [adjust, he]
    · simp [adjust, he, ih]

theorem adjust_comm {k k' : κ} (hne : k ≠ k') (f g : ν → ν) (es : List (κ × ν)) :
    adjust k f (adjust k' g es) = adjust k' g (adjust k f es) := by
  induction es with
  | nil => rfl
  | cons e es ih =>
    by_cases he : e.1 = k
    · simp [adjust, he, hne]
    · by_cases he' : e.1 = k'
      · simp [adjust, he', Ne.symm hne]
      · simp [adjust, he, he', ih]

/-- An assignment to a present key adjusts it. -/
theorem assign_eq_adjust {k : κ} {v w : ν} {f : ν → ν} {es : List (κ × ν)} (h : lookup k es = some v)
    (hw : f v = w) : assign k w es = adjust k f es := by
  induction es with
  | nil => cases h
  | cons e es ih =>
    by_cases he : e.1 = k
    · rw [lookup, if_pos he, Option.some.injEq] at h
      rw [assign, adjust, if_pos he, if_pos he, h, hw, he]
    · rw [lookup, if_neg he] at h
      rw [assign, adjust, if_neg he, if_neg he, ih h]

theorem adjust_append {k : κ} {f : ν → ν} {ds es : List (κ × ν)} (h : k ∉ ds.map Prod.fst) :
    adjust k f (ds ++ es) = ds ++ adjust k f es := by
  induction ds with
  | nil => rfl
  | cons d ds ih =>
    rw [List.map_cons, List.mem_cons, not_or] at h
    rw [List.cons_append, adjust, if_neg (Ne.symm h.1), ih h.2, List.cons_append]

/-! ## Operations -/

def get? (d : Dict κ ν) (k : κ) : Option ν := lookup k d.entries

def set (d : Dict κ ν) (k : κ) (v : ν) : Dict κ ν :=
  ⟨assign k v d.entries, assign_nodup k v d.entries d.nodup⟩

/-- Keep the entries that satisfy `p`. -/
def filter (d : Dict κ ν) (p : κ → ν → Bool) : Dict κ ν :=
  ⟨d.entries.filter (fun e => p e.1 e.2),
    (List.Sublist.map Prod.fst List.filter_sublist).nodup d.nodup⟩

/-- Change the value of a key; a key that is not there stays away. -/
def modify (d : Dict κ ν) (k : κ) (f : ν → ν) : Dict κ ν :=
  ⟨adjust k f d.entries, by
    rw [keys_adjust]
    exact d.nodup⟩

def erase (d : Dict κ ν) (k : κ) : Dict κ ν := d.filter (fun x _ => x ≠ k)

/-- The dictionary built by assigning the pairs in order: the last pair of a key wins. -/
def ofList (es : List (κ × ν)) : Dict κ ν := es.foldl (fun d e => d.set e.1 e.2) empty

theorem mem_entries {d : Dict κ ν} {k : κ} {v : ν} : (k, v) ∈ d.entries ↔ d.get? k = some v :=
  ⟨lookup_of_mem d.nodup, mem_of_lookup⟩

theorem mem_values {d : Dict κ ν} {v : ν} : v ∈ d.values ↔ ∃ k, d.get? k = some v := by
  simp only [values, List.mem_map, Prod.exists, exists_eq_right, mem_entries]

theorem mem_keys {d : Dict κ ν} {k : κ} : k ∈ d.keys ↔ d.get? k ≠ none := by
  rw [keys, get?, ne_eq, lookup_eq_none, not_not]

@[simp] theorem get?_empty (k : κ) : (empty : Dict κ ν).get? k = none := rfl

@[grind =] theorem get?_set (d : Dict κ ν) (k k' : κ) (v : ν) :
    (d.set k v).get? k' = if k' = k then some v else d.get? k' :=
  lookup_assign k k' v d.entries

@[simp] theorem get?_set_self (d : Dict κ ν) (k : κ) (v : ν) : (d.set k v).get? k = some v := by
  rw [get?_set, if_pos rfl]

theorem get?_set_of_ne (d : Dict κ ν) {k k' : κ} (v : ν) (h : k' ≠ k) :
    (d.set k v).get? k' = d.get? k' := by
  rw [get?_set, if_neg h]

theorem set_of_get? {d : Dict κ ν} {k : κ} {v : ν} (h : d.get? k = some v) : d.set k v = d :=
  ext (assign_of_lookup h)

@[simp] theorem set_set (d : Dict κ ν) (k : κ) (v w : ν) : (d.set k v).set k w = d.set k w :=
  ext (assign_assign k v w d.entries)

theorem get?_filter (d : Dict κ ν) (p : κ → ν → Bool) (k : κ) :
    (d.filter p).get? k = (d.get? k).filter (p k) := by
  cases h : d.get? k with
  | none =>
    rw [Option.filter_none, get?, lookup_eq_none]
    intro hm
    obtain ⟨e, he, rfl⟩ := List.mem_map.mp hm
    have hin := mem_entries.mp (List.mem_of_mem_filter he)
    rw [h] at hin
    cases hin
  | some v =>
    rw [Option.filter_some]
    split
    · next hp => exact mem_entries.mp (List.mem_filter.mpr ⟨mem_entries.mpr h, hp⟩)
    · next hp =>
      rw [get?, lookup_eq_none]
      intro hm
      obtain ⟨⟨k', v'⟩, he, rfl⟩ := List.mem_map.mp hm
      obtain ⟨hin, hp'⟩ := List.mem_filter.mp he
      have hv : d.get? k' = some v' := mem_entries.mp hin
      rw [h, Option.some.injEq] at hv
      exact hp (hv ▸ hp')

@[grind =] theorem get?_erase (d : Dict κ ν) (k k' : κ) :
    (d.erase k).get? k' = if k' = k then none else d.get? k' := by
  rw [erase, get?_filter]
  cases d.get? k' <;> simp [Option.filter]

theorem get?_foldl_set (es : List (κ × ν)) (d : Dict κ ν) (k : κ) :
    (es.foldl (fun d e => d.set e.1 e.2) d).get? k =
      ((es.reverse.find? (fun e => e.1 = k)).map Prod.snd).or (d.get? k) := by
  induction es generalizing d with
  | nil => simp
  | cons e es ih =>
    rw [List.foldl_cons, ih, get?_set, List.reverse_cons, List.find?_append]
    by_cases he : k = e.1
    · subst he
      cases es.reverse.find? (fun x => x.1 = e.1) <;> simp
    · cases es.reverse.find? (fun x => x.1 = k) <;> simp [he, Ne.symm he]

/-- What a loop that updates entries one by one, each from a default where it is missing, does to one key. -/
theorem get?_foldl_update {β : Type} (f : ν → β → ν) (default : ν) (es : List (κ × β)) (d : Dict κ ν) (k : κ) :
    (es.foldl (fun d e => d.set e.1 (f ((d.get? e.1).getD default) e.2)) d).get? k =
      if es.filter (fun e => e.1 = k) = [] then d.get? k
      else some (((es.filter (fun e => e.1 = k)).map Prod.snd).foldl f ((d.get? k).getD default)) := by
  induction es generalizing d with
  | nil => rfl
  | cons e es ih =>
    rw [List.foldl_cons, ih, get?_set]
    by_cases he : e.1 = k
    · subst he
      rw [if_pos rfl, List.filter_cons_of_pos (by simp), if_neg (List.cons_ne_nil _ _), List.map_cons,
        List.foldl_cons, Option.getD_some]
      split
      · next hrest => rw [hrest, List.map_nil, List.foldl_nil]
      · rfl
    · rw [if_neg (Ne.symm he), List.filter_cons_of_neg (by simpa using he)]

theorem getD_foldl_update {β : Type} (f : ν → β → ν) (default : ν) (es : List (κ × β)) (d : Dict κ ν) (k : κ) :
    ((es.foldl (fun d e => d.set e.1 (f ((d.get? e.1).getD default) e.2)) d).get? k).getD default =
      ((es.filter (fun e => e.1 = k)).map Prod.snd).foldl f ((d.get? k).getD default) := by
  rw [get?_foldl_update]
  split
  · next hnone => rw [hnone, List.map_nil, List.foldl_nil]
  · rw [Option.getD_some]

/-- A loop that assigns what the entries already hold changes nothing. -/
theorem foldl_set_of_get? {β : Type} (f : Option ν → β → ν) (es : List (κ × β)) {d : Dict κ ν}
    (h : ∀ e ∈ es, d.get? e.1 = some (f (d.get? e.1) e.2)) :
    es.foldl (fun d e => d.set e.1 (f (d.get? e.1) e.2)) d = d := by
  induction es with
  | nil => rfl
  | cons e es ih =>
    rw [List.foldl_cons, set_of_get? (h e List.mem_cons_self)]
    exact ih (fun e' he' => h e' (List.mem_cons_of_mem e he'))

theorem filter_of_nodup {k : κ} {es : List (κ × ν)} (h : (es.map Prod.fst).Nodup) :
    es.filter (fun e => e.1 = k) = (lookup k es).toList.map (Prod.mk k) := by
  induction es with
  | nil => rfl
  | cons e es ih =>
    obtain ⟨hnot, htail⟩ := List.nodup_cons.mp h
    by_cases he : e.1 = k
    · have hrest : lookup k es = none := lookup_eq_none.mpr (he ▸ hnot)
      rw [List.filter_cons_of_pos (by simpa using he), ih htail, hrest, lookup, if_pos he, ← he]
      rfl
    · rw [List.filter_cons_of_neg (by simpa using he), ih htail, lookup, if_neg he]

theorem filter_entries (d : Dict κ ν) (k : κ) :
    d.entries.filter (fun e => e.1 = k) = (d.get? k).toList.map (Prod.mk k) := filter_of_nodup d.nodup

/-- A key of `ofList es` holds the value of the last pair with that key. -/
theorem get?_ofList (es : List (κ × ν)) (k : κ) :
    (ofList es).get? k = (es.reverse.find? (fun e => e.1 = k)).map Prod.snd := by
  rw [ofList, get?_foldl_set]
  simp

/-- A key whose pairs all have one value holds it. -/
theorem get?_ofList_of_forall {es : List (κ × ν)} {k : κ} {v : ν} (hall : ∀ e ∈ es, e.1 = k → e.2 = v)
    (hmem : ∃ e ∈ es, e.1 = k) : (ofList es).get? k = some v := by
  rw [get?_ofList]
  cases hf : es.reverse.find? (fun e => e.1 = k) with
  | none =>
    obtain ⟨e, he, hk⟩ := hmem
    exact absurd (decide_eq_true hk) (List.find?_eq_none.mp hf e (List.mem_reverse.mpr he))
  | some e =>
    have he : e ∈ es := List.mem_reverse.mp (List.mem_of_find?_eq_some hf)
    have hk : e.1 = k := of_decide_eq_true (List.find?_some hf :)
    rw [Option.map_some, hall e he hk]

theorem assign_of_not_mem {k : κ} {v : ν} {es : List (κ × ν)} (h : k ∉ es.map Prod.fst) :
    assign k v es = es ++ [(k, v)] := by
  induction es with
  | nil => rfl
  | cons e es ih =>
    rw [List.map_cons, List.mem_cons, not_or] at h
    rw [assign, if_neg (Ne.symm h.1), ih h.2, List.cons_append]

theorem entries_foldl_set (es : List (κ × ν)) (d : Dict κ ν)
    (h : ((d.entries ++ es).map Prod.fst).Nodup) :
    (es.foldl (fun d e => d.set e.1 e.2) d).entries = d.entries ++ es := by
  induction es generalizing d with
  | nil => simp
  | cons e es ih =>
    have hnew : e.1 ∉ d.entries.map Prod.fst := by
      rw [List.map_append, List.map_cons] at h
      intro hmem
      exact (List.nodup_append.mp h).2.2 _ hmem _ List.mem_cons_self rfl
    have hset : (d.set e.1 e.2).entries = d.entries ++ [e] := assign_of_not_mem hnew
    rw [List.foldl_cons, ih _ (by rw [hset]; simpa using h), hset]
    simp

@[simp] theorem ofList_entries (d : Dict κ ν) : ofList d.entries = d :=
  ext (entries_foldl_set d.entries empty d.nodup)

theorem erase_of_fresh {d : Dict κ ν} {k : κ} (h : d.get? k = none) : d.erase k = d := by
  have hnot : k ∉ d.entries.map Prod.fst := lookup_eq_none.mp h
  refine ext (List.filter_eq_self.mpr (fun e he => ?_))
  rw [decide_eq_true_eq]
  rintro rfl
  exact hnot (List.mem_map_of_mem he)

theorem erase_comm (d : Dict κ ν) (k k' : κ) : (d.erase k).erase k' = (d.erase k').erase k := by
  apply ext
  show (d.entries.filter _).filter _ = (d.entries.filter _).filter _
  rw [List.filter_filter, List.filter_filter]
  simp only [Bool.and_comm]

/-- Taking out an entry that was just added. -/
theorem erase_set_of_fresh {d : Dict κ ν} {k : κ} (v : ν) (h : d.get? k = none) : (d.set k v).erase k = d := by
  have hnot : k ∉ d.entries.map Prod.fst := lookup_eq_none.mp h
  apply ext
  show (assign k v d.entries).filter (fun e => e.1 ≠ k) = d.entries
  rw [assign_of_not_mem hnot, List.filter_append, List.filter_eq_self.mpr, List.filter_singleton]
  · simp
  · intro e he
    rw [decide_eq_true_eq]
    rintro rfl
    exact hnot (List.mem_map_of_mem he)

theorem mem_of_get?_ofList {es : List (κ × ν)} {k : κ} {v : ν} (h : (ofList es).get? k = some v) :
    (k, v) ∈ es := by
  rw [get?_ofList, Option.map_eq_some_iff] at h
  obtain ⟨⟨k', v'⟩, hf, rfl⟩ := h
  have hk : k' = k := by simpa using List.find?_some hf
  rw [← hk]
  exact List.mem_reverse.mp (List.mem_of_find?_eq_some hf)

/-! ## Mapping the values -/

def map {μ : Type} (f : ν → μ) (d : Dict κ ν) : Dict κ μ where
  entries := d.entries.map (Prod.map id f)
  nodup := by
    rw [List.map_map]
    exact d.nodup

theorem lookup_map {μ : Type} (f : ν → μ) (k : κ) (es : List (κ × ν)) :
    lookup k (es.map (Prod.map id f)) = (lookup k es).map f := by
  induction es with
  | nil => rfl
  | cons e es ih =>
    by_cases he : e.1 = k
    · simp [lookup, he]
    · simp [lookup, he, ih]

theorem get?_map {μ : Type} (f : ν → μ) (d : Dict κ ν) (k : κ) : (d.map f).get? k = (d.get? k).map f :=
  lookup_map f k d.entries

theorem erase_map {μ : Type} (f : ν → μ) (d : Dict κ ν) (k : κ) : (d.map f).erase k = (d.erase k).map f := by
  apply ext
  show (d.entries.map _).filter _ = (d.entries.filter _).map _
  rw [List.filter_map]
  rfl

omit [DecidableEq κ] in
theorem values_map {μ : Type} (f : ν → μ) (d : Dict κ ν) : (d.map f).values = d.values.map f := by
  rw [values, values, map, List.map_map, List.map_map]
  rfl

end Dict
end Foundations
