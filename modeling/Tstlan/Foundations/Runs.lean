import Mathlib.Data.List.Basic

/-! # Labelled runs

A system is a labelled step relation. `Run step s as t` says that the labels `as`, taken in order,
lead from `s` to `t`. An invariant is proved for one step and lifted to runs by `Run.invariant`; a
refinement is proved for one step and lifted by `Run.simulate`. -/
namespace Foundations
set_option autoImplicit false

variable {σ τ α : Type}

inductive Run (step : σ → α → σ → Prop) : σ → List α → σ → Prop
  | nil (s : σ) : Run step s [] s
  | cons {s t u : σ} {a : α} {as : List α} (head : step s a t) (tail : Run step t as u) :
      Run step s (a :: as) u

namespace Run
variable {step : σ → α → σ → Prop}

theorem append {s t u : σ} {as bs : List α} (h : Run step s as t) (h' : Run step t bs u) :
    Run step s (as ++ bs) u := by
  induction h with
  | nil s => exact h'
  | cons head _ ih => exact .cons head (ih h')

theorem single {s t : σ} {a : α} (h : step s a t) : Run step s [a] t := .cons h (.nil t)

theorem snoc {s t u : σ} {as : List α} {a : α} (h : Run step s as t) (h' : step t a u) :
    Run step s (as ++ [a]) u := h.append (single h')

/-- A run passes through a state between any two of its labels. -/
theorem split {s u : σ} {as bs : List α} (h : Run step s (as ++ bs) u) : ∃ t, Run step s as t ∧ Run step t bs u := by
  induction as generalizing s with
  | nil => exact ⟨s, .nil s, h⟩
  | cons a as ih =>
    cases h with
    | cons head tail =>
      obtain ⟨t, hfirst, hlast⟩ := ih tail
      exact ⟨t, .cons head hfirst, hlast⟩

/-- What one step preserves, a run preserves. -/
theorem invariant {P : σ → Prop} (hstep : ∀ s a t, P s → step s a t → P t) {s t : σ} {as : List α}
    (h : Run step s as t) (hs : P s) : P t := by
  induction h with
  | nil s => exact hs
  | cons head _ ih => exact ih (hstep _ _ _ hs head)

/-- What the steps with good labels preserve, a run with good labels preserves. -/
theorem invariant_of_labels {P : σ → Prop} {good : α → Prop}
    (hstep : ∀ s a t, good a → P s → step s a t → P t) {s t : σ} {as : List α} (h : Run step s as t)
    (hgood : ∀ a ∈ as, good a) (hs : P s) : P t := by
  induction h with
  | nil s => exact hs
  | cons head _ ih =>
    obtain ⟨hfirst, hrest⟩ := List.forall_mem_cons.mp hgood
    exact ih hrest (hstep _ _ _ hfirst hs head)

/-- A run of a stronger step relation is a run of a weaker one. -/
theorem mono {step' : σ → α → σ → Prop} (hle : ∀ s a t, step s a t → step' s a t) {s t : σ}
    {as : List α} (h : Run step s as t) : Run step' s as t := by
  induction h with
  | nil s => exact .nil s
  | cons head _ ih => exact .cons (hle _ _ _ head) ih

/-- Forward simulation: if `R` is kept by every step when the abstract side answers it by `f`, it is
kept by every run when the abstract side folds `f`. -/
theorem simulate {R : σ → τ → Prop} {f : τ → α → τ}
    (hstep : ∀ s a t x, R s x → step s a t → R t (f x a)) {s t : σ} {as : List α} {x : τ}
    (h : Run step s as t) (hs : R s x) : R t (as.foldl f x) := by
  induction h generalizing x with
  | nil s => exact hs
  | cons head _ ih => exact ih (hstep _ _ _ _ hs head)

end Run

/-- The states reached from an initial one. -/
def Reachable (init : σ → Prop) (step : σ → α → σ → Prop) (t : σ) : Prop :=
  ∃ s as, init s ∧ Run step s as t

theorem Reachable.invariant {init : σ → Prop} {step : σ → α → σ → Prop} {P : σ → Prop} {t : σ}
    (h : Reachable init step t) (hinit : ∀ s, init s → P s)
    (hstep : ∀ s a t, P s → step s a t → P t) : P t := by
  obtain ⟨s, as, hs, hr⟩ := h
  exact hr.invariant hstep (hinit s hs)

end Foundations
