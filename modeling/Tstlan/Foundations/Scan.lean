import Mathlib.Data.List.Basic

/-! # Reading a shared state part by part

A scan reads several parts of a state, one after the other, while others act on the state in between. The
parts are functions of a view that a read itself does not change. `values_eq_of_cut`: if at one moment of
the scan everything read so far is still as it was read, because no action before the moment changed a
part already read, and no action after it changes a part still to be read, then all the values are those
of that moment. -/
namespace Foundations.Scan
set_option autoImplicit false

variable {σ μ β : Type}

/-- What a read may do to the state. -/
structure Touch (view : σ → μ) where
  apply : σ → σ
  keeps : ∀ s, view (apply s) = view s

inductive Event (view : σ → μ) (β : Type)
  | act (f : σ → σ)
  | read (part : μ → β) (touch : Touch view)

variable {view : σ → μ}

namespace Event

def next : Event view β → σ → σ
  | .act f, s => f s
  | .read _ touch, s => touch.apply s

/-- The part of the view that the event reads. -/
def part? : Event view β → Option (μ → β)
  | .act _ => none
  | .read part _ => some part

end Event

def after (es : List (Event view β)) (s : σ) : σ := es.foldl (fun s e => e.next s) s

/-- The states after each of the events. -/
def trail : List (Event view β) → σ → List σ
  | [], _ => []
  | e :: es, s => e.next s :: trail es (e.next s)

def parts (es : List (Event view β)) : List (μ → β) := es.filterMap Event.part?

/-- What the reads return. -/
def values : List (Event view β) → σ → List β
  | [], _ => []
  | .act f :: es, s => values es (f s)
  | .read part touch :: es, s => part (view s) :: values es (touch.apply s)

/-- No action changes a part that has been read, `done` having been read before. -/
def LeavesRead : List (μ → β) → List (Event view β) → σ → Prop
  | _, [], _ => True
  | done, .act f :: es, s => (∀ part ∈ done, part (view (f s)) = part (view s)) ∧ LeavesRead done es (f s)
  | done, .read part touch :: es, s => LeavesRead (part :: done) es (touch.apply s)

/-- No action changes a part that is still to be read. -/
def LeavesUnread : List (Event view β) → σ → Prop
  | [], _ => True
  | .act f :: es, s => (∀ part ∈ parts es, part (view (f s)) = part (view s)) ∧ LeavesUnread es (f s)
  | .read _ touch :: es, s => LeavesUnread es (touch.apply s)

instance decidableLeavesRead [DecidableEq β] :
    (done : List (μ → β)) → (es : List (Event view β)) → (s : σ) → Decidable (LeavesRead done es s)
  | _, [], _ => isTrue trivial
  | done, .act f :: es, s =>
    have := decidableLeavesRead done es (f s)
    inferInstanceAs (Decidable (_ ∧ _))
  | done, .read part touch :: es, s => decidableLeavesRead (part :: done) es (touch.apply s)

instance decidableLeavesUnread [DecidableEq β] :
    (es : List (Event view β)) → (s : σ) → Decidable (LeavesUnread es s)
  | [], _ => isTrue trivial
  | .act f :: es, s =>
    have := decidableLeavesUnread es (f s)
    inferInstanceAs (Decidable (_ ∧ _))
  | .read _ touch :: es, s => decidableLeavesUnread es (touch.apply s)

theorem after_append (es es' : List (Event view β)) (s : σ) : after (es ++ es') s = after es' (after es s) :=
  List.foldl_append

theorem trail_append (es es' : List (Event view β)) (s : σ) :
    trail (es ++ es') s = trail es s ++ trail es' (after es s) := by
  induction es generalizing s with
  | nil => rfl
  | cons e es ih => rw [List.cons_append, trail, ih, trail, List.cons_append]; rfl

theorem parts_append (es es' : List (Event view β)) : parts (es ++ es') = parts es ++ parts es' :=
  List.filterMap_append

theorem values_append (es es' : List (Event view β)) (s : σ) :
    values (es ++ es') s = values es s ++ values es' (after es s) := by
  induction es generalizing s with
  | nil => rfl
  | cons e es ih =>
    cases e with
    | act f => exact ih (f s)
    | read part touch => exact congrArg (part (view s) :: ·) (ih (touch.apply s))

theorem after_mem_trail (es : List (Event view β)) (s : σ) : after es s ∈ s :: trail es s := by
  induction es generalizing s with
  | nil => exact List.mem_cons_self
  | cons e es ih => exact List.mem_cons_of_mem _ (ih (e.next s))

/-- Up to the cut: what was read is still there. -/
theorem values_eq_of_leavesRead {done : List (μ → β)} {es : List (Event view β)} {s : σ}
    (h : LeavesRead done es s) :
    (∀ part ∈ done, part (view (after es s)) = part (view s)) ∧
      values es s = (parts es).map (fun part => part (view (after es s))) := by
  induction es generalizing done s with
  | nil => exact ⟨fun _ _ => rfl, rfl⟩
  | cons e es ih =>
    cases e with
    | act f =>
      obtain ⟨hdone, hvalues⟩ := ih h.2
      exact ⟨fun part hpart => (hdone part hpart).trans (h.1 part hpart), hvalues⟩
    | read part touch =>
      obtain ⟨hdone, hvalues⟩ := ih h
      refine ⟨fun p hp => ?_, ?_⟩
      · exact (hdone p (List.mem_cons_of_mem _ hp)).trans (congrArg p (touch.keeps s))
      · have hfirst := (hdone part List.mem_cons_self).trans (congrArg part (touch.keeps s))
        exact congrArg₂ List.cons hfirst.symm hvalues

/-- From the cut on: what is read was there. -/
theorem values_eq_of_leavesUnread {es : List (Event view β)} {s : σ} (h : LeavesUnread es s) :
    values es s = (parts es).map (fun part => part (view s)) := by
  induction es generalizing s with
  | nil => rfl
  | cons e es ih =>
    cases e with
    | act f => exact (ih h.2).trans (List.map_congr_left (fun part hpart => h.1 part hpart))
    | read part touch =>
      have hrest : values es (touch.apply s) = (parts es).map (fun part => part (view s)) := by
        rw [ih h, touch.keeps]
      exact congrArg (part (view s) :: ·) hrest

theorem values_eq_of_cut {es es' : List (Event view β)} {s : σ} (hread : LeavesRead [] es s)
    (hunread : LeavesUnread es' (after es s)) :
    values (es ++ es') s = (parts (es ++ es')).map (fun part => part (view (after es s))) := by
  rw [values_append, parts_append, List.map_append, (values_eq_of_leavesRead hread).2,
    values_eq_of_leavesUnread hunread]

theorem cut_mem_trail (es es' : List (Event view β)) (s : σ) : after es s ∈ s :: trail (es ++ es') s := by
  rw [trail_append]
  rcases List.mem_cons.mp (after_mem_trail es s) with h | h
  · exact List.mem_cons.mpr (.inl h)
  · exact List.mem_cons_of_mem _ (List.mem_append_left _ h)

end Foundations.Scan
