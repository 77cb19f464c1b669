import Mathlib.Logic.Function.Basic
import Tstlan.Foundations.Effect

/-! # One member of a family of states

A computation over a state `σ` acts on member `i` of a family `ι → σ` and leaves the others. `onMember` is that
lift. It commutes with the constructors of the monad, so a program over the family that addresses one member
only is the lift of the same program over that member. -/
namespace Foundations
set_option autoImplicit false

variable {ι ε ε' σ α β : Type} [DecidableEq ι]

def onMember (i : ι) (x : EStateM ε σ α) : EStateM ε (ι → σ) α := fun s =>
  match x.run (s i) with
  | .ok a t => .ok a (Function.update s i t)
  | .error e t => .error e (Function.update s i t)

theorem run_onMember_ok {i : ι} {x : EStateM ε σ α} {s : ι → σ} {a : α} {t : σ} (h : x.run (s i) = .ok a t) :
    (onMember i x).run s = .ok a (Function.update s i t) := by
  show (match x.run (s i) with
    | .ok a t => EStateM.Result.ok a (Function.update s i t)
    | .error e t => .error e (Function.update s i t)) = _
  rw [h]

theorem run_onMember_error {i : ι} {x : EStateM ε σ α} {s : ι → σ} {e : ε} {t : σ}
    (h : x.run (s i) = .error e t) : (onMember i x).run s = .error e (Function.update s i t) := by
  show (match x.run (s i) with
    | .ok a t => EStateM.Result.ok a (Function.update s i t)
    | .error e t => .error e (Function.update s i t)) = _
  rw [h]

theorem onMember_pure (i : ι) (a : α) : onMember i (pure a : EStateM ε σ α) = pure a := by
  funext s
  exact (run_onMember_ok rfl).trans (congrArg (EStateM.Result.ok a) (Function.update_eq_self i s))

theorem onMember_throw (i : ι) (e : ε) : onMember i (throw e : EStateM ε σ α) = throw e := by
  funext s
  exact (run_onMember_error rfl).trans (congrArg (EStateM.Result.error e) (Function.update_eq_self i s))

theorem onMember_fromExcept (i : ι) (x : Except ε α) : onMember i (fromExcept x : EStateM ε σ α) = fromExcept x := by
  cases x with
  | ok a => exact onMember_pure i a
  | error e => exact onMember_throw i e

theorem onMember_bind (i : ι) (x : EStateM ε σ α) (f : α → EStateM ε σ β) :
    onMember i (x >>= f) = onMember i x >>= fun a => onMember i (f a) := by
  funext s
  show (onMember i (x >>= f)).run s = (onMember i x >>= fun a => onMember i (f a)).run s
  cases hx : x.run (s i) with
  | error e t =>
    rw [run_bind_error (run_onMember_error hx), run_onMember_error (run_bind_error hx)]
  | ok a t =>
    have hself : Function.update s i t i = t := Function.update_self ..
    rw [run_bind_ok (run_onMember_ok hx)]
    cases hf : (f a).run t with
    | ok b u =>
      have hrest := run_onMember_ok (i := i) (x := f a) (s := Function.update s i t) (by rw [hself, hf])
      rw [hrest, run_onMember_ok ((run_bind_ok hx).trans hf), Function.update_idem]
    | error e u =>
      have hrest := run_onMember_error (i := i) (x := f a) (s := Function.update s i t) (by rw [hself, hf])
      rw [hrest, run_onMember_error ((run_bind_ok hx).trans hf), Function.update_idem]

theorem onMember_adaptExcept (i : ι) (g : ε → ε') (x : EStateM ε σ α) :
    onMember i (EStateM.adaptExcept g x) = EStateM.adaptExcept g (onMember i x) := by
  funext s
  show (onMember i (EStateM.adaptExcept g x)).run s = (EStateM.adaptExcept g (onMember i x)).run s
  have hrun := EStateM.run_adaptExcept g x (s i)
  rw [EStateM.run_adaptExcept]
  cases hx : x.run (s i) with
  | ok a t =>
    rw [hx] at hrun
    rw [run_onMember_ok hx, run_onMember_ok hrun]
  | error e t =>
    rw [hx] at hrun
    rw [run_onMember_error hx, run_onMember_error hrun]

theorem outcome_onMember (i : ι) (x : EStateM ε σ α) (s : ι → σ) :
    outcome ((onMember i x).run s) = outcome (x.run (s i)) := by
  cases hx : x.run (s i) with
  | ok a t => rw [run_onMember_ok hx, outcome_ok, outcome_ok]
  | error e t => rw [run_onMember_error hx, outcome_error, outcome_error]

theorem final_onMember_self (i : ι) (x : EStateM ε σ α) (s : ι → σ) :
    final ((onMember i x).run s) i = final (x.run (s i)) := by
  cases hx : x.run (s i) with
  | ok a t =>
    rw [run_onMember_ok hx]
    exact Function.update_self ..
  | error e t =>
    rw [run_onMember_error hx]
    exact Function.update_self ..

theorem final_onMember_of_ne {i j : ι} (h : j ≠ i) (x : EStateM ε σ α) (s : ι → σ) :
    final ((onMember i x).run s) j = s j := by
  cases hx : x.run (s i) with
  | ok a t =>
    rw [run_onMember_ok hx]
    exact Function.update_of_ne h ..
  | error e t =>
    rw [run_onMember_error hx]
    exact Function.update_of_ne h ..

end Foundations
