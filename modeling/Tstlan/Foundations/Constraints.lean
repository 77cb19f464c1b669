import Mathlib.Algebra.Order.Ring.Int
import Tstlan.Foundations.Dict

/-! # Constraints of keyed tables

A table is a dictionary from its primary key to its rows. The constraints of a relational schema are
decidable, so a database can refuse a statement whose outcome breaks one; the lemmas say which changes of
a table keep which constraint. -/
namespace Foundations
set_option autoImplicit false

variable {κ κ' ρ ρ' α : Type} [DecidableEq κ] [DecidableEq κ']

/-- Every row is stored under its own key. -/
def Keyed (key : ρ → κ) (d : Dict κ ρ) : Prop := ∀ k r, d.get? k = some r → key r = k

/-- No two rows agree on the columns `cols`. -/
def Unique (cols : ρ → α) (d : Dict κ ρ) : Prop :=
  ∀ j k r s, d.get? j = some r → d.get? k = some s → cols r = cols s → j = k

/-- A foreign key: what the column holds is a key of the other table. -/
def References (col : ρ → κ') (d : Dict κ ρ) (e : Dict κ' ρ') : Prop :=
  ∀ k r, d.get? k = some r → (e.get? (col r)).isSome

instance (key : ρ → κ) (d : Dict κ ρ) : Decidable (Keyed key d) :=
  decidable_of_iff (∀ e ∈ d.entries, key e.2 = e.1)
    ⟨fun h k r hr => h (k, r) (Dict.mem_entries.mpr hr),
      fun h e he => h e.1 e.2 (Dict.mem_entries.mp he)⟩

instance [DecidableEq α] (cols : ρ → α) (d : Dict κ ρ) : Decidable (Unique cols d) :=
  decidable_of_iff (∀ e ∈ d.entries, ∀ e' ∈ d.entries, cols e.2 = cols e'.2 → e.1 = e'.1)
    ⟨fun h j k r s hr hs => h (j, r) (Dict.mem_entries.mpr hr) (k, s) (Dict.mem_entries.mpr hs),
      fun h e he e' he' => h e.1 e'.1 e.2 e'.2 (Dict.mem_entries.mp he) (Dict.mem_entries.mp he')⟩

instance (col : ρ → κ') (d : Dict κ ρ) (e : Dict κ' ρ') : Decidable (References col d e) :=
  decidable_of_iff (∀ x ∈ d.entries, (e.get? (col x.2)).isSome)
    ⟨fun h k r hr => h (k, r) (Dict.mem_entries.mpr hr),
      fun h x hx => h x.1 x.2 (Dict.mem_entries.mp hx)⟩

/-! ## Which changes keep which constraint -/

variable {key : ρ → κ} {cols : ρ → α} {col : ρ → κ'} {d : Dict κ ρ} {e e' : Dict κ' ρ'}

theorem Keyed.set (h : Keyed key d) {k : κ} {r : ρ} (hr : key r = k) : Keyed key (d.set k r) := by
  intro k' r' hr'
  rw [Dict.get?_set] at hr'
  split at hr'
  · next hk =>
    cases hr'
    exact hr.trans hk.symm
  · exact h k' r' hr'

theorem Keyed.filter (h : Keyed key d) (p : κ → ρ → Bool) : Keyed key (d.filter p) := by
  intro k r hr
  rw [Dict.get?_filter, Option.filter_eq_some_iff] at hr
  exact h k r hr.1

theorem Unique.set (h : Unique cols d) {k : κ} {r : ρ}
    (hr : ∀ j s, d.get? j = some s → cols s = cols r → j = k) : Unique cols (d.set k r) := by
  intro i j s t hs ht hcols
  rw [Dict.get?_set] at hs ht
  split at hs
  · next hi =>
    cases hs
    split at ht
    · next hj => exact hi.trans hj.symm
    · exact hi.trans (hr j t ht hcols.symm).symm
  · split at ht
    · next hj =>
      cases ht
      exact (hr i s hs hcols).trans hj.symm
    · exact h i j s t hs ht hcols

theorem Unique.filter (h : Unique cols d) (p : κ → ρ → Bool) : Unique cols (d.filter p) := by
  intro i j s t hs ht hcols
  rw [Dict.get?_filter, Option.filter_eq_some_iff] at hs ht
  exact h i j s t hs.1 ht.1 hcols

theorem References.set (h : References col d e) {k : κ} {r : ρ} (hr : (e.get? (col r)).isSome) :
    References col (d.set k r) e := by
  intro k' r' hr'
  rw [Dict.get?_set] at hr'
  split at hr'
  · cases hr'
    exact hr
  · exact h k' r' hr'

theorem References.filter (h : References col d e) (p : κ → ρ → Bool) :
    References col (d.filter p) e := by
  intro k r hr
  rw [Dict.get?_filter, Option.filter_eq_some_iff] at hr
  exact h k r hr.1

/-- The referenced table may gain rows. -/
theorem References.set_right (h : References col d e) (k : κ') (r : ρ') :
    References col d (e.set k r) := by
  intro k' r' hr'
  rw [Dict.get?_set]
  split
  · rfl
  · exact h k' r' hr'

/-! ## Generated keys -/

/-- How a database picks the key of a new row: one that no row has. -/
structure IdSource where
  next : List ℤ → ℤ
  fresh : ∀ ks, next ks ∉ ks

/-- One more than the largest key. -/
def IdSource.largest : IdSource where
  next ks := ks.foldr max 0 + 1
  fresh ks := by
    have hle : ∀ ks : List ℤ, ∀ k ∈ ks, k ≤ ks.foldr max 0 := by
      intro ks
      induction ks with
      | nil => simp
      | cons x xs ih =>
        intro k hk
        rcases List.mem_cons.mp hk with rfl | hin
        · exact le_max_left _ _
        · exact (ih k hin).trans (le_max_right _ _)
    intro hmem
    have := hle ks _ hmem
    omega

def IdSource.nextKey (ids : IdSource) (d : Dict ℤ ρ) : ℤ := ids.next d.keys

theorem IdSource.get?_nextKey (ids : IdSource) (d : Dict ℤ ρ) : d.get? (ids.nextKey d) = none := by
  by_contra h
  exact ids.fresh d.keys (Dict.mem_keys.mpr h)

end Foundations
