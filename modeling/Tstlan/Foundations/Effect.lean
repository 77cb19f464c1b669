import Mathlib.Data.List.Basic

/-! # Computations that may raise over a mutable state

`EStateM ε σ` is the semantics of code that mutates `σ` and may raise `ε`: the state reached when the
exception was raised is kept. `outcome` and `final` read the two halves of a result; the lemmas move
them through `bind`. -/
namespace Foundations
set_option autoImplicit false

variable {ε σ α β : Type}

/-- What a computation returned or raised. -/
def outcome : EStateM.Result ε σ α → Except ε α
  | .ok a _ => .ok a
  | .error e _ => .error e

/-- The state a computation ended in, also when it raised. -/
def final : EStateM.Result ε σ α → σ
  | .ok _ s => s
  | .error _ s => s

@[simp] theorem outcome_ok (a : α) (s : σ) : outcome (.ok a s : EStateM.Result ε σ α) = .ok a := rfl
@[simp] theorem outcome_error (e : ε) (s : σ) :
    outcome (.error e s : EStateM.Result ε σ α) = .error e := rfl
@[simp] theorem final_ok (a : α) (s : σ) : final (.ok a s : EStateM.Result ε σ α) = s := rfl
@[simp] theorem final_error (e : ε) (s : σ) :
    final (.error e s : EStateM.Result ε σ α) = s := rfl

theorem outcome_isOk {x : EStateM ε σ α} {s : σ} : (outcome (x.run s)).isOk = true ↔ ∃ a t, x.run s = .ok a t := by
  cases x.run s <;> simp [Except.isOk, Except.toBool]

theorem run_bind_ok {x : EStateM ε σ α} {f : α → EStateM ε σ β} {s t : σ} {a : α}
    (h : x.run s = .ok a t) : (x >>= f).run s = (f a).run t := by
  rw [EStateM.run_bind, h]

theorem run_bind_error {x : EStateM ε σ α} {f : α → EStateM ε σ β} {s t : σ} {e : ε}
    (h : x.run s = .error e t) : (x >>= f).run s = .error e t := by
  rw [EStateM.run_bind, h]

theorem run_get_bind (f : σ → EStateM ε σ β) (s : σ) : (get >>= f).run s = (f s).run s := rfl

/-- A bind that returns comes from two parts that return. -/
theorem bind_eq_ok {x : EStateM ε σ α} {f : α → EStateM ε σ β} {s u : σ} {b : β}
    (h : (x >>= f).run s = .ok b u) : ∃ a t, x.run s = .ok a t ∧ (f a).run t = .ok b u := by
  rw [EStateM.run_bind] at h
  cases hx : x.run s with
  | ok a t => exact ⟨a, t, rfl, by rw [hx] at h; exact h⟩
  | error e t => rw [hx] at h; cases h

theorem run_bind_ok_iff {x : EStateM ε σ α} {f : α → EStateM ε σ β} {s u : σ} {b : β} :
    (x >>= f).run s = .ok b u ↔ ∃ a t, x.run s = .ok a t ∧ (f a).run t = .ok b u := by
  constructor
  · exact bind_eq_ok
  · rintro ⟨a, t, hx, hf⟩
    exact (run_bind_ok hx).trans hf

theorem run_pure_ok_iff {s u : σ} {a b : α} : (pure a : EStateM ε σ α).run s = .ok b u ↔ b = a ∧ u = s := by
  rw [EStateM.run_pure, EStateM.Result.ok.injEq]
  exact and_congr eq_comm eq_comm

/-- Computations that keep a property of the state, whatever they return or raise. -/
def Keeps (P : σ → Prop) (x : EStateM ε σ α) : Prop := ∀ s, P s → P (final (x.run s))

theorem Keeps.pure (P : σ → Prop) (a : α) : Keeps P (pure a : EStateM ε σ α) := fun _ hs => hs

theorem Keeps.throw (P : σ → Prop) (e : ε) : Keeps P (throw e : EStateM ε σ α) := fun _ hs => hs

theorem Keeps.bind {P : σ → Prop} {x : EStateM ε σ α} {f : α → EStateM ε σ β} (hx : Keeps P x)
    (hf : ∀ a, Keeps P (f a)) : Keeps P (x >>= f) := by
  intro s hs
  have hmid := hx s hs
  rw [EStateM.run_bind]
  cases hr : x.run s with
  | ok a t => exact hf a t (by rw [hr] at hmid; exact hmid)
  | error e t => rw [hr] at hmid; exact hmid

theorem Keeps.get_bind {P : σ → Prop} {f : σ → EStateM ε σ α} (hf : ∀ s, P s → Keeps P (f s)) :
    Keeps P (get >>= f) := fun s hs => hf s hs s hs

theorem Keeps.set {P : σ → Prop} {s : σ} (hs : P s) : Keeps P (set s : EStateM ε σ PUnit) := fun _ _ => hs

/-- A computation lifted out of an exception-only result leaves the state alone. -/
def fromExcept (x : Except ε α) : EStateM ε σ α := fun s =>
  match x with
  | .ok a => .ok a s
  | .error e => .error e s

@[simp] theorem fromExcept_ok_bind (a : α) (f : α → EStateM ε σ β) :
    fromExcept (.ok a) >>= f = f a := rfl

@[simp] theorem run_fromExcept_ok (a : α) (s : σ) :
    (fromExcept (.ok a : Except ε α)).run s = .ok a s := rfl
@[simp] theorem run_fromExcept_error (e : ε) (s : σ) :
    (fromExcept (.error e : Except ε α)).run s = .error e s := rfl

theorem fromExcept_run_ok_iff {x : Except ε α} {s s' : σ} {a : α} :
    (fromExcept x).run s = .ok a s' ↔ x = .ok a ∧ s' = s := by
  cases x <;> simp [fromExcept, EStateM.run, eq_comm (a := s)]

theorem run_fromExcept_bind_ok_iff {x : Except ε α} {f : α → EStateM ε σ β} {s u : σ} {b : β} :
    (fromExcept x >>= f).run s = .ok b u ↔ ∃ a, x = .ok a ∧ (f a).run s = .ok b u := by
  rw [run_bind_ok_iff]
  constructor
  · rintro ⟨a, t, hx, hf⟩
    obtain ⟨rfl, rfl⟩ := fromExcept_run_ok_iff.mp hx
    exact ⟨a, rfl, hf⟩
  · rintro ⟨a, rfl, hf⟩
    exact ⟨a, s, rfl, hf⟩

theorem outcome_fromExcept (x : Except ε α) (s : σ) : outcome ((fromExcept x).run s) = x := by
  cases x <;> rfl

/-- Computations that leave the state alone, whatever they return or raise. -/
def Silent (x : EStateM ε σ α) : Prop := ∀ s, final (x.run s) = s

theorem Silent.pure (a : α) : Silent (pure a : EStateM ε σ α) := fun _ => rfl

theorem Silent.throw (e : ε) : Silent (throw e : EStateM ε σ α) := fun _ => rfl

theorem Silent.fromExcept (x : Except ε α) : Silent (fromExcept x : EStateM ε σ α) := by
  intro s
  cases x <;> rfl

theorem Silent.bind {x : EStateM ε σ α} {f : α → EStateM ε σ β} (hx : Silent x) (hf : ∀ a, Silent (f a)) :
    Silent (x >>= f) := by
  intro s
  have hmid := hx s
  rw [EStateM.run_bind]
  cases hr : x.run s with
  | ok a t =>
    rw [hr] at hmid
    exact (hf a t).trans hmid
  | error e t =>
    rw [hr] at hmid
    exact hmid

theorem Silent.keeps {x : EStateM ε σ α} (hx : Silent x) (P : σ → Prop) : Keeps P x := by
  intro s hs
  rw [hx s]
  exact hs

/-- What follows leaves the state alone. -/
theorem final_bind {x : EStateM ε σ α} {f : α → EStateM ε σ β} (hf : ∀ a, Silent (f a)) (s : σ) :
    final ((x >>= f).run s) = final (x.run s) := by
  rw [EStateM.run_bind]
  cases x.run s with
  | ok a t => exact hf a t
  | error e t => rfl

/-- What comes first leaves the state alone: it raises, or the rest runs from the same state. -/
theorem Silent.final_bind {x : EStateM ε σ α} (hx : Silent x) (f : α → EStateM ε σ β) (s : σ) :
    final ((x >>= f).run s) = s ∨
      ∃ a, x.run s = .ok a s ∧ final ((x >>= f).run s) = final ((f a).run s) := by
  have hmid := hx s
  rw [EStateM.run_bind]
  cases hr : x.run s with
  | ok a t =>
    rw [hr] at hmid
    cases hmid
    exact .inr ⟨a, rfl, rfl⟩
  | error e t =>
    rw [hr] at hmid
    exact .inl hmid

theorem final_adaptExcept {ε' : Type} (f : ε → ε') (x : EStateM ε σ α) (s : σ) :
    final ((EStateM.adaptExcept f x).run s) = final (x.run s) := by
  rw [EStateM.run_adaptExcept]
  cases x.run s <;> rfl

theorem Keeps.adaptExcept {ε' : Type} {P : σ → Prop} {x : EStateM ε σ α} (hx : Keeps P x) (f : ε → ε') :
    Keeps P (EStateM.adaptExcept f x) := by
  intro s hs
  rw [final_adaptExcept]
  exact hx s hs

theorem Silent.adaptExcept {ε' : Type} {x : EStateM ε σ α} (hx : Silent x) (f : ε → ε') :
    Silent (EStateM.adaptExcept f x) := by
  intro s
  rw [final_adaptExcept]
  exact hx s

/-! ## Two runs side by side -/

/-- Two computations that no two agreeing states tell apart: they return or raise the same, and the states they end
in agree. -/
def Respects (agree : σ → σ → Prop) (x y : EStateM ε σ α) : Prop :=
  ∀ s s', agree s s' → outcome (x.run s) = outcome (y.run s') ∧ agree (final (x.run s)) (final (y.run s'))

namespace Respects
variable {agree : σ → σ → Prop}

theorem pure (a : α) : Respects agree (pure a : EStateM ε σ α) (pure a) := fun _ _ h => ⟨rfl, h⟩

theorem throw (e : ε) : Respects agree (throw e : EStateM ε σ α) (throw e) := fun _ _ h => ⟨rfl, h⟩

theorem fromExcept (x : Except ε α) :
    Respects agree (Foundations.fromExcept x : EStateM ε σ α) (Foundations.fromExcept x) := by
  intro s s' h
  rw [outcome_fromExcept, outcome_fromExcept, Silent.fromExcept, Silent.fromExcept]
  exact ⟨rfl, h⟩

theorem bind {x y : EStateM ε σ α} {f g : α → EStateM ε σ β} (hx : Respects agree x y)
    (hf : ∀ a, Respects agree (f a) (g a)) : Respects agree (x >>= f) (y >>= g) := by
  intro s s' h
  obtain ⟨hout, hagree⟩ := hx s s' h
  rw [EStateM.run_bind, EStateM.run_bind]
  cases hxs : x.run s with
  | ok a t =>
    cases hys : y.run s' with
    | ok b t' =>
      rw [hxs, hys] at hout hagree
      cases hout
      exact hf a t t' hagree
    | error e t' =>
      rw [hxs, hys] at hout
      cases hout
  | error e t =>
    cases hys : y.run s' with
    | ok b t' =>
      rw [hxs, hys] at hout
      cases hout
    | error e' t' =>
      rw [hxs, hys] at hout hagree
      cases hout
      exact ⟨rfl, hagree⟩

theorem get_bind {f g : σ → EStateM ε σ α} (hf : ∀ s s', agree s s' → Respects agree (f s) (g s')) :
    Respects agree (get >>= f) (get >>= g) := fun s s' h => hf s s' h s s' h

theorem set {s s' : σ} (h : agree s s') : Respects agree (set s : EStateM ε σ PUnit) (set s') := fun _ _ _ => ⟨rfl, h⟩

end Respects
end Foundations
