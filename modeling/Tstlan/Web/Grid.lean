import Tstlan.Foundations.Loops
import Mathlib.Data.Rat.Floor
import Mathlib.Tactic.Linarith

/-! # The time grid of a chart (`lib/chart-grid.ts`)

The numbers are exact. The zone's offset in minutes is a function of the moment, as for a `Date`. -/
namespace Tstlan.Web
open Foundations
set_option autoImplicit false

/-- `TIME_STEPS_MS`. -/
def timeStepsMs : List ℤ :=
  [1, 2, 5, 10, 15, 30, 60, 120, 300, 600, 900, 1800, 3600, 7200, 10800, 21600, 43200, 86400].map
    (fun seconds => seconds * 1000)

structure TimeGrid where
  ticks : List ℚ
  secondsGrid : Bool
  deriving DecidableEq

/-- The first step that is not below the rough one, or the last of all. -/
def gridStep (rough : ℚ) : ℤ :=
  (timeStepsMs.find? (fun candidate : ℤ => rough ≤ candidate)).getD (timeStepsMs.getLastD 0)

/-- The variables of the loop. -/
structure TickLoop where
  t : ℚ
  ticks : List ℚ

/-- `none` when the loop runs out of fuel. -/
def niceTimeTicks (getTimezoneOffset : ℚ → ℤ) (fuel : ℕ) (min max target : ℚ) : Option TimeGrid :=
  let span := max - min
  if ¬0 < span then some ⟨[min], true⟩
  else
    let rough := span / target
    let step := gridStep rough
    let tzOffset : ℚ := getTimezoneOffset min * 60000
    let first : ℚ := ⌈(min - tzOffset) / step⌉ * step + tzOffset
    (whileLoop (fun s : TickLoop => s.t ≤ max) (fun s => ⟨s.t + step, s.ticks ++ [s.t]⟩) fuel ⟨first, []⟩).map
      (fun s => ⟨s.ticks, step < 60000⟩)

/-! ## The step -/

/-- The smallest step of the ladder that is at least `rough`, or a day where there is none. -/
def LadderStep (rough : ℚ) (step : ℤ) : Prop :=
  (step ∈ timeStepsMs ∧ rough ≤ step ∧ ∀ other ∈ timeStepsMs, rough ≤ other → step ≤ other) ∨
    (step = 86400000 ∧ ∀ other ∈ timeStepsMs, other < rough)

theorem timeStepsMs_increasing : timeStepsMs.Pairwise (· ≤ ·) := by decide

theorem ladderStep_gridStep (rough : ℚ) : LadderStep rough (gridStep rough) := by
  rw [gridStep]
  cases hfind : timeStepsMs.find? (fun candidate : ℤ => rough ≤ candidate) with
  | none =>
    right
    refine ⟨rfl, fun other hother => ?_⟩
    simpa using List.find?_eq_none.mp hfind other hother
  | some step =>
    left
    obtain ⟨hstep, before, later, hsplit, hbefore⟩ := List.find?_eq_some_iff_append.mp hfind
    rw [Option.getD_some]
    refine ⟨hsplit ▸ by simp, by simpa using hstep, fun other hother hrough => ?_⟩
    have hsorted := timeStepsMs_increasing
    rw [hsplit] at hother hsorted
    rcases List.mem_append.mp hother with hother | hother
    · exact absurd hrough (by simpa using hbefore other hother)
    · rcases List.mem_cons.mp hother with rfl | hother
      · exact le_rfl
      · exact List.rel_of_pairwise_cons (List.pairwise_append.mp hsorted).2.1 hother

theorem LadderStep.pos {rough : ℚ} {step : ℤ} (h : LadderStep rough step) : 0 < step := by
  have hall : ∀ other ∈ timeStepsMs, 0 < other := by decide
  rcases h with ⟨hmem, -⟩ | ⟨rfl, -⟩
  · exact hall step hmem
  · decide

/-- Where a day is enough, so is the step. -/
theorem LadderStep.rough_le {rough : ℚ} {step : ℤ} (h : LadderStep rough step) (hday : rough ≤ 86400000) :
    rough ≤ step := by
  rcases h with ⟨-, hle, -⟩ | ⟨-, hnone⟩
  · exact hle
  · have hlt := hnone 86400000 (by decide)
    push_cast at hlt
    exact absurd hday hlt.not_ge

/-! ## The ticks -/

def firstTick (lo offset step : ℤ) : ℤ := ⌈((lo - offset : ℤ) : ℚ) / step⌉ * step + offset

/-- It is the first number of its residue class that is not below `lo`. -/
theorem firstTick_spec (lo offset : ℤ) {step : ℤ} (hstep : 0 < step) :
    step ∣ firstTick lo offset step - offset ∧ lo ≤ firstTick lo offset step ∧
      firstTick lo offset step < lo + step := by
  have hpos : (0 : ℚ) < step := Int.cast_pos.mpr hstep
  have hle : ((lo - offset : ℤ) : ℚ) ≤ ⌈((lo - offset : ℤ) : ℚ) / step⌉ * step :=
    (div_le_iff₀ hpos).mp (Int.le_ceil _)
  have hlt : (⌈((lo - offset : ℤ) : ℚ) / step⌉ - 1 : ℚ) * step < (lo - offset : ℤ) :=
    (lt_div_iff₀ hpos).mp (by linarith [Int.ceil_lt_add_one (((lo - offset : ℤ) : ℚ) / step)])
  have hle' : lo - offset ≤ ⌈((lo - offset : ℤ) : ℚ) / step⌉ * step := by exact_mod_cast hle
  have hlt' : (⌈((lo - offset : ℤ) : ℚ) / step⌉ - 1) * step < lo - offset := by exact_mod_cast hlt
  rw [sub_mul, one_mul] at hlt'
  rw [firstTick, add_sub_cancel_right]
  exact ⟨Int.dvd_mul_left _ _, by omega, by omega⟩

/-- The loop has visited `count` numbers, none of them above `max`. -/
def Visited (first step max : ℤ) (s : TickLoop) : Prop :=
  ∃ count : ℕ, s = ⟨((first + count * step : ℤ) : ℚ), (progression first step count).map (fun t : ℤ => (t : ℚ))⟩ ∧
    ∀ k : ℕ, k < count → first + k * step ≤ max

theorem visited_step {first step max : ℤ} (hstep : 0 < step) (s : TickLoop) (hs : Visited first step max s)
    (hcond : decide (s.t ≤ max) = true) :
    Visited first step max ⟨s.t + step, s.ticks ++ [s.t]⟩ ∧
      (⌊max - (s.t + step)⌋ + 1).toNat < (⌊max - s.t⌋ + 1).toNat := by
  obtain ⟨count, rfl, hinside⟩ := hs
  have hle : first + count * step ≤ max := Int.cast_le.mp (of_decide_eq_true hcond)
  have hnext : first + (count + 1 : ℕ) * step = first + count * step + step := by
    push_cast
    ring
  refine ⟨⟨count + 1, ?_, fun k hk => ?_⟩, ?_⟩
  · rw [progression_succ, List.map_append, List.map_singleton, hnext, Int.cast_add _ step]
  · rcases Nat.lt_succ_iff_lt_or_eq.mp hk with hk | rfl
    · exact hinside k hk
    · exact hle
  · rw [← Int.cast_add, ← Int.cast_sub, ← Int.cast_sub, Int.floor_intCast, Int.floor_intCast]
    omega

/-- The loop visits a progression up to the end of the interval. -/
theorem tickLoop_total (first max : ℤ) {step : ℤ} (hstep : 0 < step) :
    ∃ count : ℕ, (∀ k : ℕ, k < count → first + k * step ≤ max) ∧ max < first + count * step ∧
      ∃ enough, ∀ fuel, enough < fuel →
        whileLoop (fun s : TickLoop => s.t ≤ max) (fun s => ⟨s.t + step, s.ticks ++ [s.t]⟩) fuel ⟨first, []⟩ =
          some ⟨((first + count * step : ℤ) : ℚ), (progression first step count).map (fun t : ℤ => (t : ℚ))⟩ := by
  have hstart : Visited first step max ⟨first, []⟩ := ⟨0, by simp [progression], by omega⟩
  obtain ⟨_, ⟨count, rfl, hinside⟩, hend, hrun⟩ := whileLoop_total (Visited first step max)
    (fun s => (⌊max - s.t⌋ + 1).toNat) (visited_step hstep) hstart
  exact ⟨count, hinside, Int.cast_lt.mp (not_le.mp (of_decide_eq_false hend)), _, hrun⟩

theorem niceTimeTicks_run (getTimezoneOffset : ℚ → ℤ) {min max : ℤ} (target : ℚ) (hspan : min < max) :
    ∃ count : ℕ, (∀ k : ℕ, k < count →
        firstTick min (getTimezoneOffset min * 60000) (gridStep ((max - min) / target)) +
          k * gridStep ((max - min) / target) ≤ max) ∧
      max < firstTick min (getTimezoneOffset min * 60000) (gridStep ((max - min) / target)) +
        count * gridStep ((max - min) / target) ∧
      ∃ enough, ∀ fuel, enough < fuel → niceTimeTicks getTimezoneOffset fuel min max target =
        some ⟨(progression (firstTick min (getTimezoneOffset min * 60000) (gridStep ((max - min) / target)))
          (gridStep ((max - min) / target)) count).map (fun t : ℤ => (t : ℚ)),
          gridStep ((max - min) / target) < 60000⟩ := by
  have hpos : 0 < (max - min : ℚ) := sub_pos.mpr (Int.cast_lt.mpr hspan)
  obtain ⟨count, hinside, houtside, enough, hrun⟩ := tickLoop_total
    (firstTick min (getTimezoneOffset min * 60000) (gridStep ((max - min) / target))) max
    (ladderStep_gridStep ((max - min) / target)).pos
  refine ⟨count, hinside, houtside, enough, fun fuel hfuel => ?_⟩
  have hfirst (step : ℤ) : (⌈((min : ℚ) - getTimezoneOffset min * 60000) / step⌉ * step +
      getTimezoneOffset min * 60000 : ℚ) = (firstTick min (getTimezoneOffset min * 60000) step : ℚ) := by
    rw [firstTick]
    push_cast
    rfl
  rw [niceTimeTicks, if_neg (not_not.mpr hpos)]
  dsimp only
  rw [hfirst, hrun fuel hfuel, Option.map_some]

/-- All times of an interval that are aligned to the step, in their order. -/
structure GridTicks (tzOffset min max step : ℤ) (ticks : List ℤ) : Prop where
  exact_times : ∀ t, t ∈ ticks ↔ min ≤ t ∧ t ≤ max ∧ step ∣ t - tzOffset
  increasing : ticks.Pairwise (· < ·)
  spaced : ticks.IsChain (fun a b => b = a + step)

/-- `niceTimeTicks` ends, its ticks are the times of the interval that are aligned to the step of the ladder, and
while a day is enough for that step there is at most one tick more than the target. -/
theorem niceTimeTicks_exact (getTimezoneOffset : ℚ → ℤ) (min max target : ℤ) (hspan : min < max)
    (htarget : 1 ≤ target) :
    ∃ (step : ℤ) (ticks : List ℤ), LadderStep ((max - min) / target) step ∧
      (∃ enough, ∀ fuel, enough < fuel → niceTimeTicks getTimezoneOffset fuel min max target =
        some ⟨ticks.map (fun t : ℤ => (t : ℚ)), step < 60000⟩) ∧
      GridTicks (getTimezoneOffset min * 60000) min max step ticks ∧
      (max - min ≤ target * 86400000 → (ticks.length : ℤ) ≤ target + 1) := by
  have hladder := ladderStep_gridStep ((max - min) / target)
  have hstep := hladder.pos
  obtain ⟨hclass, hlo, hhi⟩ := firstTick_spec min (getTimezoneOffset min * 60000) hstep
  obtain ⟨count, hinside, houtside, hrun⟩ := niceTimeTicks_run getTimezoneOffset target hspan
  refine ⟨_, _, hladder, hrun, ⟨?_, ?_, ?_⟩, fun hday => ?_⟩
  · exact mem_progression_iff hstep hclass ⟨hlo, hhi⟩ hinside houtside
  · exact progression_increasing _ hstep _
  · exact progression_spaced _ _ _
  · have hpos : (0 : ℚ) < target := Int.cast_pos.mpr (by omega)
    have hday' : ((max - min : ℤ) : ℚ) ≤ ((target * 86400000 : ℤ) : ℚ) := Int.cast_le.mpr hday
    push_cast at hday'
    have hrough := hladder.rough_le ((div_le_iff₀ hpos).mpr (by linarith))
    have hwide : max - min ≤ target * gridStep ((max - min) / target) := by
      rw [div_le_iff₀ hpos, mul_comm] at hrough
      exact_mod_cast hrough
    rw [length_progression]
    exact count_le hstep hlo hinside (by omega) hwide

/-- Ten minutes that start between two marks, three hours east of Greenwich. -/
theorem tenMinutes_grid : ∃ (step : ℤ) (ticks : List ℤ),
    GridTicks (-180 * 60000) 1234 601234 step ticks ∧ (ticks.length : ℤ) ≤ 7 := by
  obtain ⟨step, ticks, -, -, hgrid, hcount⟩ :=
    niceTimeTicks_exact (fun _ => -180) 1234 601234 6 (by decide) (by decide)
  exact ⟨step, ticks, hgrid, hcount (by decide)⟩

example : niceTimeTicks (fun _ => -180) 10 1234 601234 6 =
    some ⟨[120000, 240000, 360000, 480000, 600000], false⟩ := by decide +kernel

end Tstlan.Web
