import Mathlib.Data.List.Induction
import Mathlib.Data.List.Perm.Lattice
import Mathlib.Data.Setoid.Basic
import Tstlan.Foundations.Dict

/-! # Grouping

Elements collected into buckets by a key, in one pass that keeps the position of each key beside the
array of buckets: the buckets stand in the order in which their keys appear, and each holds the elements
of its key in their order. What a change of keys does to the classes of equal keys is said by two
operations on equivalences: an element comes to stand alone, or goes over to the class of another. -/
namespace Foundations
set_option autoImplicit false

variable {κ α N : Type}

/-! ## Classes -/

/-- `x` stands alone. -/
def alone (r : Setoid N) (x : N) : Setoid N := r ⊓ Setoid.ker (fun y => y = x)

/-- The whole class of `x` falls apart. -/
def scattered (r : Setoid N) (x : N) : Setoid N where
  r y z := y = z ∨ (r y z ∧ ¬ r y x)
  iseqv :=
    { refl := fun _ => .inl rfl
      symm := by
        intro y z h
        refine h.elim (fun he => .inl he.symm) (fun hr => .inr ⟨r.symm hr.1, fun hz => ?_⟩)
        exact hr.2 (r.trans hr.1 hz)
      trans := by
        intro y z w h h'
        refine h.elim (fun he => he ▸ h') (fun hr => ?_)
        exact h'.elim (fun he => he ▸ .inr hr) (fun hr' => .inr ⟨r.trans hr.1 hr'.1, hr.2⟩) }

theorem alone_iff {r : Setoid N} {x y z : N} : alone r x y z ↔ r y z ∧ (y = x ↔ z = x) := by
  show r y z ∧ (y = x) = (z = x) ↔ _
  rw [eq_iff_iff]

variable [DecidableEq N]

/-- `x` goes over to the class of `y`. -/
def joined (r : Setoid N) (y x : N) : Setoid N := r.comap (fun z => if z = x then y else z)

omit [DecidableEq N] in
/-- A new key of `x`, which nobody else has. -/
theorem ker_alone {f f' : N → κ} {x : N} (hothers : ∀ y, y ≠ x → f' y = f y) (hnew : ∀ y, y ≠ x → f' y ≠ f' x) :
    Setoid.ker f' = alone (Setoid.ker f) x := by
  ext y z
  rw [alone_iff]
  by_cases hy : y = x
  · by_cases hz : z = x
    · simp [hy, hz]
    · simp [Setoid.ker_def, hy, hz, (hnew z hz).symm]
  · by_cases hz : z = x
    · simp [Setoid.ker_def, hy, hz, hnew y hy]
    · simp [Setoid.ker_def, hy, hz, hothers y hy, hothers z hz]

/-- Keys that only say who has the key of whom. -/
theorem ker_joined {f f' : N → κ} {y x : N} (g : κ → κ) (hkeys : ∀ z, f' z = g (f (if z = x then y else z)))
    (hg : ∀ z w, g (f z) = g (f w) → f z = f w) : Setoid.ker f' = joined (Setoid.ker f) y x := by
  ext z w
  show f' z = f' w ↔ f _ = f _
  rw [hkeys, hkeys]
  exact ⟨hg _ _, congrArg g⟩

omit [DecidableEq N] in
/-- New keys of a class, one for each of its elements. -/
theorem ker_scattered {f f' : N → κ} {x : N} (hothers : ∀ y, f y ≠ f x → f' y = f y)
    (hnew : ∀ y z, f y = f x → f' y = f' z → y = z) : Setoid.ker f' = scattered (Setoid.ker f) x := by
  ext y z
  show f' y = f' z ↔ y = z ∨ (f y = f z ∧ ¬ f y = f x)
  by_cases hy : f y = f x
  · exact ⟨fun h => .inl (hnew y z hy h), fun h => h.elim (congrArg f') (fun hr => absurd hy hr.2)⟩
  · by_cases hz : f z = f x
    · refine ⟨fun h => .inl (hnew z y hz h.symm).symm, fun h => h.elim (congrArg f') (fun hr => ?_)⟩
      exact absurd (hr.1.trans hz) hr.2
    · rw [hothers y hy, hothers z hz]
      exact ⟨fun h => .inr ⟨h, hy⟩, fun h => h.elim (congrArg f) And.left⟩

/-! ## Buckets -/

structure Bucket (κ α : Type) where
  id : κ
  members : List α
  deriving DecidableEq

/-- An array of buckets, and the position of each key in it. -/
structure Buckets (κ α : Type) where
  array : List (Bucket κ α) := []
  position : Dict κ ℕ := Dict.empty

variable [DecidableEq κ]

def Buckets.add (key : α → κ) (b : Buckets κ α) (x : α) : Buckets κ α :=
  match b.position.get? (key x) with
  | none =>
    { array := b.array ++ [⟨key x, [x]⟩]
      position := b.position.set (key x) b.array.length }
  | some i => { b with array := b.array.modify i (fun c => { c with members := c.members ++ [x] }) }

/-- The buckets of a list. -/
def bucketsOf (key : α → κ) (xs : List α) : List (Bucket κ α) := (xs.foldl (Buckets.add key) {}).array

/-- The keys of a list, each where it appears first. -/
def keysOf (key : α → κ) (xs : List α) : List κ := (xs.map key).eraseDups

/-- The bucket of a key. -/
def bucket (key : α → κ) (xs : List α) (k : κ) : Bucket κ α := ⟨k, xs.filter (fun x => key x = k)⟩

theorem nodup_eraseDups (ks : List κ) : ks.eraseDups.Nodup := by
  induction hn : ks.length using Nat.strong_induction_on generalizing ks with
  | _ n ih =>
    cases ks with
    | nil => exact List.nodup_nil
    | cons k ks =>
      rw [List.eraseDups_cons, List.nodup_cons]
      refine ⟨fun hmem => ?_, ih _ ?_ _ rfl⟩
      · simpa using List.mem_eraseDups.mp hmem
      · have hle := List.length_filter_le (fun b => !b == k) ks
        simp only [List.length_cons] at hn
        omega

theorem nodup_keysOf (key : α → κ) (xs : List α) : (keysOf key xs).Nodup := nodup_eraseDups _

theorem mem_keysOf {key : α → κ} {xs : List α} {k : κ} : k ∈ keysOf key xs ↔ ∃ x ∈ xs, key x = k := by
  rw [keysOf, List.mem_eraseDups, List.mem_map]

theorem keysOf_snoc (key : α → κ) (xs : List α) (x : α) :
    keysOf key (xs ++ [x]) = if key x ∈ keysOf key xs then keysOf key xs else keysOf key xs ++ [key x] := by
  have hmem : key x ∈ keysOf key xs ↔ key x ∈ xs.map key := by rw [keysOf, List.mem_eraseDups]
  have hlast : ([key x].removeAll (xs.map key)).eraseDups = if key x ∈ xs.map key then [] else [key x] := by
    by_cases h : key x ∈ xs.map key
    · rw [if_pos h, List.removeAll, List.filter_cons_of_neg (by simpa using h), List.filter_nil]
      rfl
    · rw [if_neg h, List.removeAll, List.filter_cons_of_pos (by simpa using h), List.filter_nil]
      rfl
  rw [keysOf, List.map_append, List.eraseDups_append, List.map_singleton, hlast]
  by_cases h : key x ∈ xs.map key
  · rw [if_pos h, if_pos (hmem.mpr h), List.append_nil]
    rfl
  · rw [if_neg h, if_neg (fun hin => h (hmem.mp hin))]
    rfl

/-- What one pass has built. -/
structure Buckets.Built (key : α → κ) (xs : List α) (b : Buckets κ α) : Prop where
  array : b.array = (keysOf key xs).map (bucket key xs)
  position : ∀ k, b.position.get? k = (keysOf key xs).idxOf? k

theorem Buckets.Built.add {key : α → κ} {xs : List α} {b : Buckets κ α} (h : Buckets.Built key xs b) (x : α) :
    Buckets.Built key (xs ++ [x]) (b.add key x) := by
  have hother : ∀ k, k ≠ key x → bucket key (xs ++ [x]) k = bucket key xs k := by
    intro k hk
    simp [bucket, List.filter_append, hk.symm]
  unfold Buckets.add
  rw [h.position]
  cases hindex : (keysOf key xs).idxOf? (key x) with
  | none =>
    have hfresh : key x ∉ keysOf key xs := List.idxOf?_eq_none_iff.mp hindex
    have hkeys := keysOf_snoc key xs x
    rw [if_neg hfresh] at hkeys
    constructor
    · show b.array ++ [_] = _
      rw [hkeys, h.array, List.map_append, List.map_singleton]
      congr 1
      · refine (List.map_congr_left (fun k hk => hother k ?_)).symm
        rintro rfl
        exact hfresh hk
      · have hnone : xs.filter (fun y => key y = key x) = [] := by
          refine List.filter_eq_nil_iff.mpr (fun y hy => ?_)
          simpa using fun he => hfresh (mem_keysOf.mpr ⟨y, hy, he⟩)
        simp [bucket, List.filter_append, hnone]
    · intro k
      show (b.position.set (key x) b.array.length).get? k = _
      rw [Dict.get?_set, hkeys, h.array, List.length_map]
      by_cases hk : k = key x
      · rw [if_pos hk, hk, eq_comm, List.idxOf?_eq_some_iff]
        refine ⟨by simp, by simp, fun j hj => ?_⟩
        rw [List.getElem_append_left hj]
        intro he
        exact hfresh (he ▸ List.getElem_mem hj)
      · rw [if_neg hk, h.position]
        have hlast : ¬ (key x == k) = true := by simpa using fun he => hk he.symm
        simp only [List.idxOf?, List.findIdx?_append, List.findIdx?_cons, hlast]
        cases (keysOf key xs).findIdx? (· == k) <;> rfl
  | some i =>
    obtain ⟨hi, hget, -⟩ := List.idxOf?_eq_some_iff.mp hindex
    have hseen : key x ∈ keysOf key xs := by
      have hat := List.getElem_mem hi
      rwa [hget] at hat
    have hkeys := keysOf_snoc key xs x
    rw [if_pos hseen] at hkeys
    constructor
    · show b.array.modify i _ = _
      rw [hkeys, h.array]
      refine List.ext_getElem? (fun j => ?_)
      rw [List.getElem?_modify, List.getElem?_map, List.getElem?_map]
      cases hj : (keysOf key xs)[j]? with
      | none => simp
      | some k =>
        by_cases hij : i = j
        · subst hij
          have hk : k = key x := by
            rw [List.getElem?_eq_getElem hi] at hj
            rw [← Option.some.inj hj, hget]
          simp [bucket, List.filter_append, hk]
        · have hk : k ≠ key x := by
            rintro rfl
            have hjlt := (List.getElem?_eq_some_iff.mp hj).1
            have heq : (keysOf key xs)[i] = (keysOf key xs)[j] ↔ i = j := (nodup_keysOf key xs).getElem_inj_iff
            rw [hget, (List.getElem?_eq_some_iff.mp hj).2] at heq
            exact hij (heq.mp rfl)
          simp [hij, hother k hk]
    · intro k
      rw [hkeys]
      exact h.position k

theorem Buckets.built (key : α → κ) (xs : List α) : Buckets.Built key xs (xs.foldl (Buckets.add key) {}) := by
  induction xs using List.reverseRecOn with
  | nil => exact ⟨rfl, fun _ => rfl⟩
  | append_singleton xs x ih =>
    rw [List.foldl_append]
    exact ih.add x

theorem bucketsOf_eq (key : α → κ) (xs : List α) : bucketsOf key xs = (keysOf key xs).map (bucket key xs) :=
  (Buckets.built key xs).array

theorem ids_bucketsOf (key : α → κ) (xs : List α) : (bucketsOf key xs).map Bucket.id = keysOf key xs := by
  rw [bucketsOf_eq, List.map_map]
  exact List.map_id' (keysOf key xs)

theorem mem_bucketsOf {key : α → κ} {xs : List α} {c : Bucket κ α} :
    c ∈ bucketsOf key xs ↔ ∃ x ∈ xs, c = bucket key xs (key x) := by
  rw [bucketsOf_eq, List.mem_map]
  constructor
  · intro h
    obtain ⟨k, hk, rfl⟩ := h
    obtain ⟨x, hx, rfl⟩ := mem_keysOf.mp hk
    exact ⟨x, hx, rfl⟩
  · intro h
    obtain ⟨x, hx, rfl⟩ := h
    exact ⟨key x, mem_keysOf.mpr ⟨x, hx, rfl⟩, rfl⟩

/-- The buckets hold every element once. -/
theorem perm_bucketsOf [DecidableEq α] (key : α → κ) (xs : List α) :
    ((bucketsOf key xs).flatMap Bucket.members).Perm xs := by
  rw [bucketsOf_eq, List.flatMap_map]
  refine List.perm_iff_count.mpr (fun a => ?_)
  rw [List.count_flatMap]
  have hcount : ∀ k, List.count a (bucket key xs k).members = if k = key a then List.count a xs else 0 := by
    intro k
    by_cases hk : k = key a
    · rw [if_pos hk, bucket, List.count_filter (by simpa using hk.symm)]
    · rw [if_neg hk, List.count_eq_zero]
      intro hmem
      exact hk (of_decide_eq_true (List.mem_filter.mp hmem).2).symm
  have hsum : ∀ ks : List κ, ks.Nodup →
      (ks.map (fun k => if k = key a then List.count a xs else 0)).sum =
        if key a ∈ ks then List.count a xs else 0 := by
    intro ks hks
    induction ks with
    | nil => rfl
    | cons k ks ih =>
      obtain ⟨hk, hks⟩ := List.nodup_cons.mp hks
      rw [List.map_cons, List.sum_cons, ih hks]
      by_cases he : k = key a
      · subst he
        simp [hk]
      · simp [he, Ne.symm he]
  have hmap : ((keysOf key xs).map (List.count a ∘ fun k => (bucket key xs k).members)) =
      (keysOf key xs).map (fun k => if k = key a then List.count a xs else 0) :=
    List.map_congr_left (fun k _ => hcount k)
  rw [hmap, hsum _ (nodup_keysOf key xs)]
  split
  · rfl
  · next habsent =>
    rw [eq_comm, List.count_eq_zero]
    exact fun hmem => habsent (mem_keysOf.mpr ⟨a, hmem, rfl⟩)

/-- The buckets stand in the order of their first elements. -/
theorem heads_bucketsOf (key : α → κ) (xs : List α) :
    ((bucketsOf key xs).filterMap (fun c => c.members.head?)).Sublist xs := by
  rw [bucketsOf_eq, List.filterMap_map]
  induction hn : xs.length using Nat.strong_induction_on generalizing xs with
  | _ n ih =>
    cases xs with
    | nil => exact List.Sublist.slnil
    | cons x xs =>
      have hkeys : keysOf key (x :: xs) = key x :: keysOf key (xs.filter (fun y => key y ≠ key x)) := by
        have hrest : (xs.map key).filter (fun b => !b == key x) = (xs.filter (fun y => key y ≠ key x)).map key := by
          rw [List.filter_map]
          refine congrArg (List.map key) (List.filter_congr (fun y _ => ?_))
          by_cases he : key y = key x
          · simp [he]
          · simp [he]
        rw [keysOf, List.map_cons, List.eraseDups_cons, hrest]
        rfl
      have hhead : ((bucket key (x :: xs) (key x)).members).head? = some x := by simp [bucket]
      rw [hkeys, List.filterMap_cons_some (by exact hhead)]
      refine List.Sublist.cons_cons x ?_
      have hlen : (xs.filter (fun y => key y ≠ key x)).length < n := by
        have hle := List.length_filter_le (fun y => decide (key y ≠ key x)) xs
        simp only [List.length_cons] at hn
        omega
      have hrest : (keysOf key (xs.filter (fun y => key y ≠ key x))).filterMap
            ((fun c => c.members.head?) ∘ bucket key (x :: xs)) =
          (keysOf key (xs.filter (fun y => key y ≠ key x))).filterMap
            ((fun c => c.members.head?) ∘ bucket key (xs.filter (fun y => key y ≠ key x))) := by
        refine List.filterMap_congr (fun k hk => ?_)
        obtain ⟨y, hy, rfl⟩ := mem_keysOf.mp hk
        have hne : key y ≠ key x := of_decide_eq_true (List.mem_filter.mp hy).2
        show List.head? _ = List.head? _
        rw [bucket, bucket, List.filter_cons_of_neg (by simpa using hne.symm), List.filter_filter]
        refine congrArg List.head? (List.filter_congr (fun z _ => ?_))
        by_cases hz : key z = key y
        · simp [hz, hne]
        · simp [hz]
      rw [hrest]
      exact (ih _ hlen _ rfl).trans List.filter_sublist

end Foundations
