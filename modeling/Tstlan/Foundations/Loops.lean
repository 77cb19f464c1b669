import Mathlib.Algebra.Order.Ring.Int
import Mathlib.Data.List.Chain
import Mathlib.Tactic.Ring

/-! # Loops and the progressions they count through

A loop runs on fuel; `whileLoop_total` is the rule of an invariant with a variant, which leaves no fuel in its
conclusion. A progression holds the numbers that a counting loop visits, and `mem_progression_iff` says when
these are all numbers of a residue class in an interval. -/
namespace Foundations
set_option autoImplicit false

/-! ## Loops that may throw -/

section Throw
variable {σ α : Type} {f : σ → α → Option σ} {g : σ → α → σ} {xs : List α} {s t : σ}

theorem foldlM_of_forall (h : ∀ x ∈ xs, ∀ s, f s x = some (g s x)) : xs.foldlM f s = some (xs.foldl g s) := by
  induction xs generalizing s with
  | nil => rfl
  | cons x xs ih =>
    obtain ⟨hx, hxs⟩ := List.forall_mem_cons.mp h
    rw [List.foldlM_cons, hx, List.foldl_cons]
    exact ih hxs

theorem eq_foldl_of_foldlM (h : ∀ s x s', f s x = some s' → s' = g s x) (hrun : xs.foldlM f s = some t) :
    t = xs.foldl g s := by
  induction xs generalizing s with
  | nil => exact (Option.some.inj hrun).symm
  | cons x xs ih =>
    rw [List.foldlM_cons] at hrun
    obtain ⟨s', hs', hrest⟩ := Option.bind_eq_some_iff.mp hrun
    rw [List.foldl_cons, ← h s x s' hs']
    exact ih hrest

/-- Where exactly the bad items throw, a loop returns when there is none. -/
theorem foldlM_eq_some_iff {P : σ → Prop} {Q : α → Prop}
    (hgood : ∀ s x, P s → Q x → f s x = some (g s x) ∧ P (g s x)) (hbad : ∀ s x, P s → ¬ Q x → f s x = none)
    (hs : P s) : xs.foldlM f s = some t ↔ (∀ x ∈ xs, Q x) ∧ t = xs.foldl g s := by
  induction xs generalizing s with
  | nil => simp [eq_comm]
  | cons x xs ih =>
    rw [List.foldlM_cons, List.forall_mem_cons, List.foldl_cons]
    by_cases hx : Q x
    · obtain ⟨hstep, hnext⟩ := hgood s x hs hx
      rw [hstep]
      exact (ih hnext).trans (and_congr_left' (by simp [hx]))
    · rw [hbad s x hs hx]
      simp [hx]

theorem foldl_invariant {P : σ → Prop} (h : ∀ s, ∀ x ∈ xs, P s → P (g s x)) (hs : P s) : P (xs.foldl g s) := by
  induction xs generalizing s with
  | nil => exact hs
  | cons x xs ih =>
    exact ih (fun s y hy => h s y (List.mem_cons_of_mem _ hy)) (h s x List.mem_cons_self hs)

end Throw

section Collect
variable {α β γ : Type} {xs : List α}

theorem mapM_of_forall {m : Type → Type} [Monad m] [LawfulMonad m] {f : α → m β} {g : α → β}
    (h : ∀ x ∈ xs, f x = pure (g x)) : xs.mapM f = pure (xs.map g) := by
  induction xs with
  | nil => rfl
  | cons x xs ih =>
    obtain ⟨hx, hxs⟩ := List.forall_mem_cons.mp h
    rw [List.mapM_cons, hx, ih hxs, pure_bind, pure_bind, List.map_cons]

theorem mapM_eq_none {f : α → Option β} {x : α} (hx : x ∈ xs) (h : f x = none) : xs.mapM f = none := by
  induction xs with
  | nil => cases hx
  | cons y ys ih =>
    rcases List.mem_cons.mp hx with rfl | hx
    · simp [h]
    · cases hy : f y <;> simp [hy, ih hx]

theorem mapM_bind (f : α → Option β) (g : β → Option γ) (xs : List α) :
    (xs.mapM f).bind (List.mapM g) = xs.mapM (fun x => (f x).bind g) := by
  induction xs with
  | nil => rfl
  | cons x xs ih =>
    cases hf : f x with
    | none => simp [hf]
    | some y =>
      cases hfs : xs.mapM f with
      | none =>
        rw [hfs] at ih
        simp only [Option.bind_none] at ih
        cases hg : g y <;> simp [hf, hfs, hg, ← ih]
      | some ys =>
        rw [hfs] at ih
        simp only [Option.bind_some] at ih
        cases hg : g y <;> simp [hf, hfs, hg, ← ih]

end Collect

/-! ## While loops -/

section While
variable {σ : Type}

/-- `none` when the fuel runs out. -/
def whileLoop (cond : σ → Bool) (body : σ → σ) : ℕ → σ → Option σ
  | 0, _ => none
  | fuel + 1, s => if cond s then whileLoop cond body fuel (body s) else some s

/-- While the condition holds, the body keeps the invariant and decreases the variant. -/
theorem whileLoop_total {cond : σ → Bool} {body : σ → σ} (inv : σ → Prop) (variant : σ → ℕ)
    (hstep : ∀ s, inv s → cond s = true → inv (body s) ∧ variant (body s) < variant s) {s : σ} (hs : inv s) :
    ∃ t, inv t ∧ cond t = false ∧ ∀ fuel, variant s < fuel → whileLoop cond body fuel s = some t := by
  induction hn : variant s using Nat.strong_induction_on generalizing s with
  | _ n ih =>
    cases hcond : cond s with
    | false =>
      refine ⟨s, hs, hcond, fun fuel hfuel => ?_⟩
      obtain ⟨more, rfl⟩ : ∃ more, fuel = more + 1 := ⟨fuel - 1, by omega⟩
      rw [whileLoop, if_neg (by simp [hcond])]
    | true =>
      obtain ⟨hbody, hless⟩ := hstep s hs hcond
      obtain ⟨t, ht, hend, hrun⟩ := ih (variant (body s)) (by omega) hbody rfl
      refine ⟨t, ht, hend, fun fuel hfuel => ?_⟩
      obtain ⟨more, rfl⟩ : ∃ more, fuel = more + 1 := ⟨fuel - 1, by omega⟩
      rw [whileLoop, if_pos hcond]
      exact hrun more (by omega)

end While

/-! ## Progressions -/

def progression (first step : ℤ) (count : ℕ) : List ℤ := (List.range count).map (fun k : ℕ => first + k * step)

theorem length_progression (first step : ℤ) (count : ℕ) : (progression first step count).length = count := by
  simp [progression]

theorem progression_succ (first step : ℤ) (count : ℕ) :
    progression first step (count + 1) = progression first step count ++ [first + count * step] := by
  simp [progression, List.range_succ]

theorem mem_progression {first step : ℤ} {count : ℕ} {t : ℤ} :
    t ∈ progression first step count ↔ ∃ k : ℕ, k < count ∧ t = first + k * step := by
  simp [progression, eq_comm]

theorem progression_spaced (first step : ℤ) (count : ℕ) :
    (progression first step count).IsChain (fun a b => b = a + step) := by
  induction count with
  | zero => simp [progression]
  | succ count ih =>
    rw [progression_succ]
    refine List.isChain_append.mpr ⟨ih, List.isChain_singleton _, fun a ha b hb => ?_⟩
    cases count with
    | zero => simp [progression] at ha
    | succ count =>
      rw [progression_succ, List.getLast?_concat, Option.mem_some_iff] at ha
      rw [List.head?_cons, Option.mem_some_iff] at hb
      rw [← ha, ← hb]
      push_cast
      ring

theorem progression_increasing (first : ℤ) {step : ℤ} (hstep : 0 < step) (count : ℕ) :
    (progression first step count).Pairwise (· < ·) :=
  List.isChain_iff_pairwise.mp ((progression_spaced first step count).imp (fun hab => by omega))

/-- From the first number of a residue class that is not below `lo` up to the last that is not above `hi`. -/
theorem mem_progression_iff {lo hi offset first step : ℤ} {count : ℕ} (hstep : 0 < step)
    (hclass : step ∣ first - offset) (hfirst : lo ≤ first ∧ first < lo + step)
    (hinside : ∀ k : ℕ, k < count → first + k * step ≤ hi) (houtside : hi < first + count * step) (t : ℤ) :
    t ∈ progression first step count ↔ lo ≤ t ∧ t ≤ hi ∧ step ∣ t - offset := by
  rw [mem_progression]
  constructor
  · rintro ⟨k, hk, rfl⟩
    have hpos : 0 ≤ (k : ℤ) * step := mul_nonneg (Int.natCast_nonneg k) hstep.le
    refine ⟨by omega, hinside k hk, ?_⟩
    have hsplit : first + k * step - offset = first - offset + k * step := by ring
    rw [hsplit]
    exact Int.dvd_add hclass (Dvd.intro_left _ rfl)
  · rintro ⟨hlo, hhi, hdvd⟩
    obtain ⟨m, hm⟩ : step ∣ t - first := by
      have hsplit : t - first = t - offset - (first - offset) := by ring
      rw [hsplit]
      exact Int.dvd_sub hdvd hclass
    have ht : t = first + m * step := by
      rw [mul_comm] at hm
      omega
    have hm0 : 0 ≤ m := by
      by_contra hneg
      have hle : m * step ≤ -1 * step := mul_le_mul_of_nonneg_right (by omega) hstep.le
      omega
    have hmcount : m < count := by
      by_contra hge
      have hle : (count : ℤ) * step ≤ m * step := mul_le_mul_of_nonneg_right (by omega) hstep.le
      omega
    exact ⟨m.toNat, by omega, by rw [Int.toNat_of_nonneg hm0]; exact ht⟩

/-- A progression inside an interval of at most `gaps` steps. -/
theorem count_le {lo hi first step : ℤ} {count : ℕ} (hstep : 0 < step) (hfirst : lo ≤ first)
    (hinside : ∀ k : ℕ, k < count → first + k * step ≤ hi) {gaps : ℤ} (hgaps : 0 ≤ gaps)
    (hwide : hi - lo ≤ gaps * step) : (count : ℤ) ≤ gaps + 1 := by
  by_contra hmany
  have hlast := hinside (count - 1) (by omega)
  have hle : (gaps + 1) * step ≤ ((count - 1 : ℕ) : ℤ) * step := mul_le_mul_of_nonneg_right (by omega) hstep.le
  rw [add_mul, one_mul] at hle
  omega

end Foundations
