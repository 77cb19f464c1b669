import Tstlan.Foundations.Effect

/-! # Two programs in lockstep

From related states both programs return related values or both raise related errors, and they end in related
states. The two may differ in their states, values and errors. -/
namespace Foundations
set_option autoImplicit false

variable {ε ε' σ σ' α α' β β' : Type}

def Lockstep (states : σ → σ' → Prop) (errors : ε → ε' → Prop) (values : α → α' → Prop) (x : EStateM ε σ α)
    (y : EStateM ε' σ' α') : Prop :=
  ∀ s s', states s s' →
    (∃ a t a' t', x.run s = .ok a t ∧ y.run s' = .ok a' t' ∧ values a a' ∧ states t t') ∨
      ∃ e t e' t', x.run s = .error e t ∧ y.run s' = .error e' t' ∧ errors e e' ∧ states t t'

namespace Lockstep
variable {states : σ → σ' → Prop} {errors : ε → ε' → Prop} {values : α → α' → Prop} {results : β → β' → Prop}
  {x : EStateM ε σ α} {y : EStateM ε' σ' α'}

theorem pure {a : α} {a' : α'} (h : values a a') :
    Lockstep states errors values (Pure.pure a : EStateM ε σ α) (Pure.pure a' : EStateM ε' σ' α') :=
  fun s s' hs => .inl ⟨a, s, a', s', rfl, rfl, h, hs⟩

theorem bind {f : α → EStateM ε σ β} {g : α' → EStateM ε' σ' β'} (hx : Lockstep states errors values x y)
    (hf : ∀ a a', values a a' → Lockstep states errors results (f a) (g a')) :
    Lockstep states errors results (x >>= f) (y >>= g) := by
  intro s s' hs
  rcases hx s s' hs with ⟨a, t, a', t', hxs, hys, hvalue, ht⟩ | ⟨e, t, e', t', hxs, hys, herror, ht⟩
  · rw [run_bind_ok hxs, run_bind_ok hys]
    exact hf a a' hvalue t t' ht
  · rw [run_bind_error hxs, run_bind_error hys]
    exact .inr ⟨e, t, e', t', rfl, rfl, herror, ht⟩

theorem ok (h : Lockstep states errors values x y) {s t : σ} {s' : σ'} {a : α} (hs : states s s')
    (hrun : x.run s = .ok a t) : ∃ a' t', y.run s' = .ok a' t' ∧ values a a' ∧ states t t' := by
  rcases h s s' hs with ⟨b, u, a', t', hxs, hys, hvalue, ht⟩ | ⟨e, u, e', t', hxs, -⟩
  · rw [hrun] at hxs
    cases hxs
    exact ⟨a', t', hys, hvalue, ht⟩
  · rw [hrun] at hxs
    cases hxs

theorem ok_of_ok (h : Lockstep states errors values x y) {s : σ} {s' t' : σ'} {a' : α'} (hs : states s s')
    (hrun : y.run s' = .ok a' t') : ∃ a t, x.run s = .ok a t ∧ values a a' ∧ states t t' := by
  rcases h s s' hs with ⟨a, t, b, u, hxs, hys, hvalue, ht⟩ | ⟨e, t, e', u, -, hys, -⟩
  · rw [hrun] at hys
    cases hys
    exact ⟨a, t, hxs, hvalue, ht⟩
  · rw [hrun] at hys
    cases hys

theorem states_final (h : Lockstep states errors values x y) {s : σ} {s' : σ'} (hs : states s s') :
    states (final (x.run s)) (final (y.run s')) := by
  rcases h s s' hs with ⟨a, t, a', t', hxs, hys, -, ht⟩ | ⟨e, t, e', t', hxs, hys, -, ht⟩
  · rw [hxs, hys]
    exact ht
  · rw [hxs, hys]
    exact ht

end Lockstep
end Foundations
