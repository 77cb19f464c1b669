import Mathlib.Data.List.Basic
import Mathlib.Logic.Function.Basic
import Tstlan.Foundations.Effect

/-! # Programs with parts of the state of their own

A program sees a part of the state if nothing else decides what it returns and what becomes of that part, and it
leaves a part that it does not change. Where each program of a list sees its own part and leaves those of the
others, running all of them in rounds gives each what it gets when it is run alone. -/
namespace Foundations
set_option autoImplicit false

variable {ε σ τ α S T : Type}

def Sees (part : σ → τ) (x : EStateM ε σ α) : Prop := Respects (fun s s' => part s = part s') x x

def Leaves (part : σ → τ) (x : EStateM ε σ α) : Prop := ∀ s, part (final (x.run s)) = part s

theorem Sees.run_ok {part : σ → τ} {x : EStateM ε σ α} (h : Sees part x) {s s' t : σ} {a : α}
    (hpart : part s = part s') (hrun : x.run s = .ok a t) : ∃ t', x.run s' = .ok a t' ∧ part t = part t' := by
  obtain ⟨hout, hfinal⟩ := h s s' hpart
  rw [hrun] at hout hfinal
  cases hrun' : x.run s' with
  | error e t' =>
    rw [hrun'] at hout
    cases hout
  | ok b t' =>
    rw [hrun'] at hout hfinal
    cases hout
    exact ⟨t', rfl, hfinal⟩

theorem Leaves.run_ok {part : σ → τ} {x : EStateM ε σ α} (h : Leaves part x) {s t : σ} {a : α}
    (hrun : x.run s = .ok a t) : part t = part s := by
  have hfinal := h s
  rw [hrun] at hfinal
  exact hfinal

theorem mapM_cons_ok_iff {x : S → EStateM ε σ α} {i : S} {is : List S} {s u : σ} {row : List α} :
    ((i :: is).mapM x).run s = .ok row u ↔
      ∃ a t rest, (x i).run s = .ok a t ∧ (is.mapM x).run t = .ok rest u ∧ row = a :: rest := by
  rw [List.mapM_cons, run_bind_ok_iff]
  simp only [run_bind_ok_iff, run_pure_ok_iff]
  constructor
  · rintro ⟨a, t, hx, rest, u', hrest, rfl, rfl⟩
    exact ⟨a, t, rest, hx, hrest, rfl⟩
  · rintro ⟨a, t, rest, hx, hrest, rfl⟩
    exact ⟨a, t, hx, rest, u, hrest, rfl, rfl⟩

theorem mapM_nil_ok_iff {x : S → EStateM ε σ α} {s u : σ} {row : List α} :
    (([] : List S).mapM x).run s = .ok row u ↔ row = [] ∧ u = s := by
  rw [List.mapM_nil]
  exact run_pure_ok_iff

/-- Programs that return in every state or in none return one after the other exactly if each does. -/
theorem mapM_ok_iff_forall {x : S → EStateM ε σ α}
    (hx : ∀ i s s', (∃ a t, (x i).run s = .ok a t) → ∃ a t, (x i).run s' = .ok a t) {is : List S} {s : σ} :
    (∃ row u, (is.mapM x).run s = .ok row u) ↔ ∀ i ∈ is, ∃ a t, (x i).run s = .ok a t := by
  induction is generalizing s with
  | nil => exact ⟨fun _ _ hi => absurd hi List.not_mem_nil, fun _ => ⟨[], s, mapM_nil_ok_iff.mpr ⟨rfl, rfl⟩⟩⟩
  | cons i is ih =>
    rw [List.forall_mem_cons]
    constructor
    · rintro ⟨row, u, hrun⟩
      obtain ⟨a, t, rest, hfirst, hrest, -⟩ := mapM_cons_ok_iff.mp hrun
      exact ⟨⟨a, t, hfirst⟩, fun j hj => hx j t s (ih.mp ⟨rest, u, hrest⟩ j hj)⟩
    · rintro ⟨⟨a, t, hfirst⟩, hothers⟩
      obtain ⟨rest, u, hrest⟩ := (ih (s := t)).mpr (fun j hj => hx j s t (hothers j hj))
      exact ⟨a :: rest, u, mapM_cons_ok_iff.mpr ⟨a, t, rest, hfirst, hrest, rfl⟩⟩

theorem part_mapM {part : σ → τ} {x : S → EStateM ε σ α} {is : List S} (h : ∀ i ∈ is, Leaves part (x i)) {s t : σ}
    {row : List α} (hrun : (is.mapM x).run s = .ok row t) : part t = part s := by
  induction is generalizing s row with
  | nil =>
    obtain ⟨-, rfl⟩ := mapM_nil_ok_iff.mp hrun
    rfl
  | cons i is ih =>
    obtain ⟨a, s₁, rest, hx, hrest, -⟩ := mapM_cons_ok_iff.mp hrun
    exact (ih (fun i hi => h i (List.mem_cons_of_mem _ hi)) hrest).trans ((h i List.mem_cons_self).run_ok hx)

/-- Each program sees its own part and leaves those of the others. -/
structure Separate (part : S → σ → τ) (x : S → EStateM ε σ α) (is : List S) : Prop where
  sees : ∀ i ∈ is, Sees (part i) (x i)
  leaves : is.Pairwise (fun i j => Leaves (part j) (x i) ∧ Leaves (part i) (x j))

namespace Separate

section
variable {part : S → σ → τ} {x : S → EStateM ε σ α}

theorem tail {i : S} {is : List S} (h : Separate part x (i :: is)) : Separate part x is :=
  ⟨fun j hj => h.sees j (List.mem_cons_of_mem _ hj), (List.pairwise_cons.mp h.leaves).2⟩

/-- The first program leaves the states of the others as they were. -/
theorem parts_after_head {i : S} {is : List S} (h : Separate part x (i :: is)) {s t : σ} {start : S → σ} {a : α}
    (hparts : ∀ j ∈ i :: is, part j s = part j (start j)) (hrun : (x i).run s = .ok a t) :
    ∀ j ∈ is, part j t = part j (start j) := by
  intro j hj
  have hleaves := ((List.pairwise_cons.mp h.leaves).1 j hj).1
  exact (hleaves.run_ok hrun).trans (hparts j (List.mem_cons_of_mem _ hj))

/-- The others leave the state of the first one as it is. -/
theorem part_after_tail {i : S} {is : List S} (h : Separate part x (i :: is)) {s t : σ} {row : List α}
    (hrun : (is.mapM x).run s = .ok row t) : part i t = part i s :=
  part_mapM (fun j hj => ((List.pairwise_cons.mp h.leaves).1 j hj).2) hrun

/-- In a round that returns, each program returns alone, and its part ends as it ends alone. -/
theorem alone_of_round {is : List S} (h : Separate part x is) {s t : σ} {start : S → σ} {row : List α}
    (hparts : ∀ i ∈ is, part i s = part i (start i)) (hrun : (is.mapM x).run s = .ok row t) :
    ∀ i ∈ is, ∃ a t', (x i).run (start i) = .ok a t' ∧ part i t = part i t' := by
  induction is generalizing s row with
  | nil => exact fun i hi => absurd hi List.not_mem_nil
  | cons i is ih =>
    obtain ⟨a, s₁, rest, hx, hrest, -⟩ := mapM_cons_ok_iff.mp hrun
    refine List.forall_mem_cons.mpr ⟨?_, ih h.tail (h.parts_after_head hparts hx) hrest⟩
    obtain ⟨t', hx', hpart⟩ := (h.sees i List.mem_cons_self).run_ok (hparts i List.mem_cons_self) hx
    exact ⟨a, t', hx', (h.part_after_tail hrest).trans hpart⟩

/-- Programs that return alone return in a round, and return the same. -/
theorem round_of_alone {is : List S} (h : Separate part x is) {s : σ} {start after : S → σ} {value : S → α}
    (hparts : ∀ i ∈ is, part i s = part i (start i))
    (halone : ∀ i ∈ is, (x i).run (start i) = .ok (value i) (after i)) :
    ∃ t, (is.mapM x).run s = .ok (is.map value) t := by
  induction is generalizing s with
  | nil => exact ⟨s, rfl⟩
  | cons i is ih =>
    have hstart : part i (start i) = part i s := (hparts i List.mem_cons_self).symm
    obtain ⟨s₁, hx, -⟩ := (h.sees i List.mem_cons_self).run_ok hstart (halone i List.mem_cons_self)
    obtain ⟨t, hrest⟩ := ih h.tail (h.parts_after_head hparts hx) (fun j hj => halone j (List.mem_cons_of_mem _ hj))
    exact ⟨t, mapM_cons_ok_iff.mpr ⟨value i, s₁, is.map value, hx, hrest, rfl⟩⟩

end

/-! ## Rounds -/

section
variable {β : Type} {part : S → σ → τ} {x : S → T → EStateM ε σ α} {total : List α → β} {is : List S}

/-- A round at each time; of what the programs return in it the total is kept. -/
def rounds (total : List α → β) (x : S → T → EStateM ε σ α) (is : List S) (times : List T) : EStateM ε σ (List β) :=
  times.mapM (fun t => do
    let row ← is.mapM (fun i => x i t)
    return total row)

theorem round_ok_iff {t : T} {s u : σ} {b : β} :
    (do
      let row ← is.mapM (fun i => x i t)
      return total row : EStateM ε σ β).run s = .ok b u ↔
        ∃ row, (is.mapM (fun i => x i t)).run s = .ok row u ∧ b = total row := by
  rw [run_bind_ok_iff]
  simp only [run_pure_ok_iff]
  constructor
  · rintro ⟨row, u', hrun, rfl, rfl⟩
    exact ⟨row, hrun, rfl⟩
  · rintro ⟨row, hrun, rfl⟩
    exact ⟨row, u, hrun, rfl, rfl⟩

/-- If the rounds return, each program returns alone at each time, and its part ends as it ends alone. -/
theorem alone_of_rounds (h : ∀ t, Separate part (fun i => x i t) is) {times : List T} {s u : σ} {start : S → σ}
    {totals : List β} (hparts : ∀ i ∈ is, part i s = part i (start i))
    (hrun : (rounds total x is times).run s = .ok totals u) :
    ∀ i ∈ is, ∃ samples u', (times.mapM (x i)).run (start i) = .ok samples u' ∧ part i u = part i u' := by
  induction times generalizing s start totals with
  | nil =>
    obtain ⟨-, rfl⟩ := mapM_nil_ok_iff.mp hrun
    exact fun i hi => ⟨[], start i, rfl, hparts i hi⟩
  | cons t times ih =>
    obtain ⟨b, s₁, rest, hround, hrest, -⟩ := mapM_cons_ok_iff.mp hrun
    obtain ⟨row, hrow, -⟩ := round_ok_iff.mp hround
    have hnonempty : Nonempty σ := ⟨s⟩
    have hmiddle : ∀ i ∈ is, ∃ t', (∃ a, (x i t).run (start i) = .ok a t') ∧ part i s₁ = part i t' := by
      intro i hi
      obtain ⟨a, t', hx, hpart⟩ := (h t).alone_of_round hparts hrow i hi
      exact ⟨t', ⟨a, hx⟩, hpart⟩
    choose! middle hx hpart using hmiddle
    intro i hi
    obtain ⟨a, ha⟩ := hx i hi
    obtain ⟨samples, u', hsamples, hend⟩ := ih hpart hrest i hi
    exact ⟨a :: samples, u', mapM_cons_ok_iff.mpr ⟨a, middle i, samples, ha, hsamples, rfl⟩, hend⟩

/-- If each program returns alone at each time, the rounds return, and the total of a round is that of what the
programs return at its time. -/
theorem rounds_of_alone (absent : α) (h : ∀ t, Separate part (fun i => x i t) is) {times : List T} {s : σ}
    {start after : S → σ} {samples : S → List α} (hparts : ∀ i ∈ is, part i s = part i (start i))
    (halone : ∀ i ∈ is, (times.mapM (x i)).run (start i) = .ok (samples i) (after i)) :
    ∃ u, (rounds total x is times).run s =
      .ok ((List.range times.length).map (fun k => total (is.map (fun i => (samples i).getD k absent)))) u := by
  induction times generalizing s start samples with
  | nil => exact ⟨s, rfl⟩
  | cons t times ih =>
    have hnonempty : Nonempty σ := ⟨s⟩
    have hvalues : Nonempty α := ⟨absent⟩
    have hhead : ∀ i ∈ is, ∃ a t' rest, (x i t).run (start i) = .ok a t' ∧
        (times.mapM (x i)).run t' = .ok rest (after i) ∧ samples i = a :: rest :=
      fun i hi => mapM_cons_ok_iff.mp (halone i hi)
    choose! value middle rest hx hrest hsamples using hhead
    obtain ⟨s₁, hround⟩ := (h t).round_of_alone hparts hx
    have hmiddle : ∀ i ∈ is, part i s₁ = part i (middle i) := by
      intro i hi
      obtain ⟨a, t', hx', hpart⟩ := (h t).alone_of_round hparts hround i hi
      rw [hx i hi] at hx'
      cases hx'
      exact hpart
    obtain ⟨u, hrounds⟩ := ih hmiddle hrest
    have hrow : is.map (fun i => (samples i).getD 0 absent) = is.map value := by
      apply List.map_congr_left
      intro i hi
      rw [hsamples i hi, List.getD_cons_zero]
    have hrows : ∀ k, is.map (fun i => (samples i).getD (k + 1) absent) =
        is.map (fun i => (rest i).getD k absent) := by
      intro k
      apply List.map_congr_left
      intro i hi
      rw [hsamples i hi, List.getD_cons_succ]
    refine ⟨u, mapM_cons_ok_iff.mpr ⟨_, s₁, _, round_ok_iff.mpr ⟨_, hround, rfl⟩, hrounds, ?_⟩⟩
    rw [List.length_cons, List.range_succ_eq_map, List.map_cons, List.map_map, hrow]
    simp only [Function.comp_def, hrows]

end
end Separate

/-- What every program leaves, rounds leave. -/
theorem part_rounds {β τ' : Type} {part : σ → τ'} {x : S → T → EStateM ε σ α} {total : List α → β} {is : List S}
    (h : ∀ i ∈ is, ∀ t, Leaves part (x i t)) {times : List T} {s u : σ} {totals : List β}
    (hrun : (Separate.rounds total x is times).run s = .ok totals u) : part u = part s := by
  induction times generalizing s totals with
  | nil =>
    obtain ⟨-, rfl⟩ := mapM_nil_ok_iff.mp hrun
    rfl
  | cons t times ih =>
    obtain ⟨b, s₁, rest, hround, hrest, -⟩ := mapM_cons_ok_iff.mp hrun
    obtain ⟨row, hrow, -⟩ := Separate.round_ok_iff.mp hround
    exact (ih hrest).trans (part_mapM (fun i hi => h i hi t) hrow)

end Foundations
