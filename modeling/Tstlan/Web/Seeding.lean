import Tstlan.Web.Monitor

/-! # Seeding the series from the recorded history (`lib/history.ts`)

`seedHistory` puts the samples of the response in front of the live ones, variable by variable. -/
namespace Tstlan.Web
open Foundations Foundations.Window
set_option autoImplicit false

variable {V : Type}

/-- What a variable of the response has after it, `live` before it. -/
structure Seeded (maxPoints : ℕ) (live samples next : List (Sample V)) : Prop where
  joined : next =
    (samples.filter (fun sample => ∀ first ∈ live.head?, sample.t < first.t) ++ live).rtake maxPoints
  increasing : next.Pairwise (fun a b => a.t < b.t)
  nodup : (next.map Sample.t).Nodup
  keeps : live <:+ next
  bounded : next.length ≤ maxPoints

theorem pointSamples_increasing (name : String) {points : List (HistoryPoint V)}
    (h : points.Pairwise (fun p q => p.t < q.t)) : Increasing Sample.t (pointSamples name points) := by
  refine List.pairwise_flatMap.mpr ⟨fun p _ => ?_, h.imp (fun hpq a ha b hb => ?_)⟩
  · cases p.values.get? name <;> simp
  · obtain ⟨v, -, rfl⟩ := List.mem_map.mp ha
    obtain ⟨w, -, rfl⟩ := List.mem_map.mp hb
    exact hpq

theorem pointSamples_eq_nil {name : String} {points : List (HistoryPoint V)} :
    pointSamples name points = [] ↔ ∀ p ∈ points, p.values.get? name = none := by
  simp only [pointSamples, List.flatMap_eq_nil_iff, List.map_eq_nil_iff, Option.toList_eq_nil_iff]

section Graft
variable {n : ℕ} (hn : 1 ≤ n)
include hn

theorem seeded_eq_graft (live samples : List (Sample V)) :
    seeded n live samples = graft Sample.t n samples live := by
  have hslice (xs : List (Sample V)) : sliceLast n xs = xs.rtake n := if_neg (Nat.one_le_iff_ne_zero.mp hn)
  cases live <;> exact hslice _

theorem get?_seedHistory (prev : Series V) (points : List (HistoryPoint V)) (name : String) :
    (seedHistory prev points n).get? name =
      if pointSamples name points = [] then prev.get? name
      else some (graft Sample.t n (pointSamples name points) ((prev.get? name).getD [])) := by
  rw [seedHistory, Dict.get?_foldl_update (seeded n), Dict.filter_entries, get?_byName]
  split
  · rfl
  · rw [Option.toList_some, List.map_singleton, List.map_singleton, if_neg (List.cons_ne_nil _ _),
      List.foldl_cons, List.foldl_nil, seeded_eq_graft hn]

theorem seedHistory_seedHistory {prev : Series V} {points : List (HistoryPoint V)}
    (hpoints : points.Pairwise (fun p q => p.t < q.t)) :
    seedHistory (seedHistory prev points n) points n = seedHistory prev points n := by
  refine Dict.foldl_set_of_get? (fun live samples => seeded n (live.getD []) samples) _ (fun e he => ?_)
  have hsamples : (byName points).get? e.1 = some e.2 := Dict.mem_entries.mp he
  rw [get?_byName] at hsamples
  split at hsamples
  · cases hsamples
  · next hpresent =>
    rw [← Option.some.inj hsamples, get?_seedHistory hn, if_neg hpresent, Option.getD_some, seeded_eq_graft hn,
      graft_graft (pointSamples_increasing e.1 hpoints)]

end Graft

/-- Each variable of the response gets its older samples in front of the live ones, the others keep what
they have, and the same response once more changes nothing. -/
theorem seedHistory_joins (prev : Series V) (points : List (HistoryPoint V)) (maxPoints : ℕ)
    (hmax : 1 ≤ maxPoints)
    (hprev : ∀ name live, prev.get? name = some live →
      live.Pairwise (fun a b => a.t < b.t) ∧ live.length ≤ maxPoints)
    (hpoints : points.Pairwise (fun p q => p.t < q.t)) :
    (∀ name, (∃ p ∈ points, p.values.get? name ≠ none) →
      ∃ next, (seedHistory prev points maxPoints).get? name = some next ∧
        Seeded maxPoints ((prev.get? name).getD []) (pointSamples name points) next) ∧
    (∀ name, (∀ p ∈ points, p.values.get? name = none) →
      (seedHistory prev points maxPoints).get? name = prev.get? name) ∧
    seedHistory (seedHistory prev points maxPoints) points maxPoints = seedHistory prev points maxPoints := by
  refine ⟨fun name hname => ?_, fun name hname => ?_, seedHistory_seedHistory hmax hpoints⟩
  · have hpresent : pointSamples name points ≠ [] := by
      rw [ne_eq, pointSamples_eq_nil]
      push Not
      exact hname
    have hlive : Increasing Sample.t ((prev.get? name).getD []) ∧
        ((prev.get? name).getD []).length ≤ maxPoints := by
      cases hget : prev.get? name with
      | none => exact ⟨.nil, Nat.zero_le _⟩
      | some live => exact hprev name live hget
    have hincreasing := graft_increasing maxPoints (pointSamples_increasing name hpoints) hlive.1
    refine ⟨_, (get?_seedHistory hmax prev points name).trans (if_neg hpresent), ?_, hincreasing, ?_, ?_, ?_⟩
    · rw [graft, older_eq_filter]
    · exact (increasing_iff_nodup (hincreasing.imp le_of_lt)).mp hincreasing
    · exact suffix_graft _ hlive.2
    · exact graft_length_le _ _ _
  · rw [get?_seedHistory hmax, if_pos (pointSamples_eq_nil.mpr hname)]

/-! ## Two live samples and three recorded ones -/

def liveVoltage : Series ℕ := .ofList [("voltage", [⟨2000, 221⟩, ⟨3000, 222⟩])]

def voltagePoints : List (HistoryPoint ℕ) :=
  [⟨500, .ofList [("voltage", 219)]⟩, ⟨1000, .ofList [("voltage", 220)]⟩, ⟨2000, .ofList [("voltage", 221)]⟩]

theorem liveVoltage_joined :
    ∃ next, (seedHistory liveVoltage voltagePoints 3).get? "voltage" = some next ∧
      Seeded 3 ((liveVoltage.get? "voltage").getD []) (pointSamples "voltage" voltagePoints) next := by
  refine (seedHistory_joins liveVoltage voltagePoints 3 (by decide) (fun name live h => ?_) (by decide +kernel)).1
    "voltage" ⟨_, List.mem_cons_self, by decide +kernel⟩
  have hmem : (name, live) ∈ [("voltage", [(⟨2000, 221⟩ : Sample ℕ), ⟨3000, 222⟩])] := Dict.mem_entries.mpr h
  obtain ⟨rfl, rfl⟩ := Prod.mk.inj (List.mem_singleton.mp hmem)
  exact ⟨by decide +kernel, by decide⟩

example : (seedHistory liveVoltage voltagePoints 3).get? "voltage" =
    some [⟨1000, 220⟩, ⟨2000, 221⟩, ⟨3000, 222⟩] := by decide +kernel

end Tstlan.Web
