import Mathlib.Data.Int.Notation
import Tstlan.Foundations.Dict

/-! # Untyped JSON values and edits at a place in them

A value of any shape, and operations that change one member of an object, every item of a list or the
presence of a key, and leave everything of another shape alone. Objects are lists of members in their
order; a member is found by the first occurrence of its key. The lemmas say how two edits compose: at one
place they compose as functions, at two places they commute. -/
namespace Foundations
set_option autoImplicit false

/-- A JSON value; `φ` stands for the numbers that are not integers. -/
inductive JsonValue (φ : Type)
  | null
  | bool (b : Bool)
  | int (n : ℤ)
  | float (x : φ)
  | str (s : String)
  | list (items : List (JsonValue φ))
  | dict (members : List (String × JsonValue φ))

namespace JsonValue
variable {φ : Type}

def member? (key : String) : JsonValue φ → Option (JsonValue φ)
  | .dict members => Dict.lookup key members
  | _ => none

def isNull : JsonValue φ → Bool
  | .null => true
  | _ => false

/-! ## Edits -/

/-- Change the value under a key of an object. -/
def onMember (key : String) (f : JsonValue φ → JsonValue φ) : JsonValue φ → JsonValue φ
  | .dict members => .dict (Dict.adjust key f members)
  | v => v

/-- Change every item of a list, each with its position. -/
def onItems (f : ℕ → JsonValue φ → JsonValue φ) : JsonValue φ → JsonValue φ
  | .list items => .list (items.mapIdx f)
  | v => v

/-- Take a key out of an object. -/
def without (key : String) : JsonValue φ → JsonValue φ
  | .dict members => .dict (members.filter (fun m => m.1 ≠ key))
  | v => v

/-- Put a key into an object that does not have it. -/
def withDefault (key : String) : JsonValue φ → JsonValue φ → JsonValue φ
  | .dict members, default =>
    match Dict.lookup key members with
    | none => .dict (Dict.assign key default members)
    | some _ => .dict members
  | v, _ => v

/-! ## How edits compose -/

theorem member?_onMember (key key' : String) (f : JsonValue φ → JsonValue φ) (v : JsonValue φ) :
    (v.onMember key f).member? key' = if key' = key then (v.member? key).map f else v.member? key' := by
  cases v with
  | dict members => exact Dict.lookup_adjust key key' f members
  | _ => simp [onMember, member?]

theorem onMember_congr {key : String} {f g : JsonValue φ → JsonValue φ} {v : JsonValue φ}
    (h : ∀ w, v.member? key = some w → f w = g w) : v.onMember key f = v.onMember key g := by
  cases v with
  | dict members => rw [onMember, onMember, Dict.adjust_congr h]
  | _ => rfl

theorem onMember_onMember (key : String) (f g : JsonValue φ → JsonValue φ) (v : JsonValue φ) :
    (v.onMember key f).onMember key g = v.onMember key (fun w => g (f w)) := by
  cases v with
  | dict members =>
    rw [onMember, onMember, onMember, Dict.adjust_adjust]
    rfl
  | _ => rfl

theorem onMember_comm {key key' : String} (hne : key ≠ key') (f g : JsonValue φ → JsonValue φ)
    (v : JsonValue φ) : (v.onMember key' g).onMember key f = (v.onMember key f).onMember key' g := by
  cases v with
  | dict members => rw [onMember, onMember, onMember, onMember, Dict.adjust_comm hne]
  | _ => rfl

/-- An edit that leaves the member as it is leaves the value as it is. -/
theorem onMember_eq_self {key : String} {f : JsonValue φ → JsonValue φ} {v : JsonValue φ}
    (h : ∀ w, v.member? key = some w → f w = w) : v.onMember key f = v := by
  rw [onMember_congr (f := f) (g := id) h]
  cases v with
  | dict members => rw [onMember, Dict.adjust_id]
  | _ => rfl

theorem onItems_onItems (f g : ℕ → JsonValue φ → JsonValue φ) (v : JsonValue φ) :
    (v.onItems f).onItems g = v.onItems (fun position w => g position (f position w)) := by
  cases v with
  | list items =>
    rw [onItems, onItems, onItems, List.mapIdx_mapIdx]
    rfl
  | _ => rfl

theorem onItems_eq_self {f : ℕ → JsonValue φ → JsonValue φ} {v : JsonValue φ}
    (h : ∀ items, v = .list items → ∀ item ∈ items, ∀ position, f position item = item) : v.onItems f = v := by
  cases v with
  | list items =>
    have hsame : items.mapIdx f = items := by
      apply List.ext_getElem
      · simp
      · intro position hleft hright
        rw [List.getElem_mapIdx, h items rfl _ (List.getElem_mem hright)]
    rw [onItems, hsame]
  | _ => rfl

theorem without_without (key : String) (v : JsonValue φ) : (v.without key).without key = v.without key := by
  cases v with
  | dict members => simp [without, List.filter_filter]
  | _ => rfl

theorem without_of_absent {key : String} {v : JsonValue φ} (h : v.member? key = none) : v.without key = v := by
  cases v with
  | dict members =>
    have hnot : key ∉ members.map Prod.fst := Dict.lookup_eq_none.mp h
    rw [without, List.filter_eq_self.mpr]
    intro m hm
    rw [decide_eq_true_eq]
    intro hkey
    exact hnot (hkey ▸ List.mem_map_of_mem hm)
  | _ => rfl

/-- Taking out a key that was just put in. -/
theorem without_withDefault {key : String} {v : JsonValue φ} (w : JsonValue φ) (h : v.member? key = none) :
    (v.withDefault key w).without key = v := by
  cases v with
  | dict members =>
    have hnone : Dict.lookup key members = none := h
    have hrest : without key (.dict members) = .dict members := without_of_absent h
    rw [without, dict.injEq] at hrest
    simp only [withDefault, hnone, without]
    rw [Dict.assign_of_not_mem (Dict.lookup_eq_none.mp hnone), List.filter_append, hrest]
    simp
  | _ => rfl

end JsonValue
end Foundations
