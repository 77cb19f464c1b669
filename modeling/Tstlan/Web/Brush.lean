import Tstlan.Foundations.Spans
import Tstlan.Web.Chart
import Tstlan.Web.History

/-! # The brush of a chart (`lib/chart-brush.ts`, `components/time-series-chart.tsx`)

The selection is kept as two times. At every rendering the chart finds the indices of its ends by two scans,
and the statistics take the rows between the two times. -/
namespace Tstlan.Web
open Foundations Foundations.Spans Foundations.Window
set_option autoImplicit false

/-! ## Indices and times -/

structure TimeRange where
  startT : ℚ
  endT : ℚ
  deriving DecidableEq

/-- `times[index]`, `undefined` outside the array. -/
def timeAt (times : List ℚ) (index : ℤ) : Option ℚ := if index < 0 then none else times[index.toNat]?

def toTimeRange (times : List ℚ) (startIndex endIndex : Option ℤ) : Option TimeRange := do
  let startIndex ← startIndex
  let endIndex ← endIndex
  if startIndex ≤ 0 ∧ (times.length : ℤ) - 1 ≤ endIndex then none
  else
    let startT ← timeAt times startIndex
    let endT ← timeAt times endIndex
    some ⟨startT, endT⟩

def firstIndexAtOrAfter (times : List ℚ) (t : ℚ) : ℕ := (firstFrom times t).getD (max 0 (times.length - 1))

def lastIndexAtOrBefore (times : List ℚ) (t : ℚ) : ℕ := (lastUpTo times t).getD 0

/-! ## The component -/

/-- `data`: the rows of the window. -/
def chartData (rows : List Row) : Option ℚ → List Row
  | none => rows
  | some windowMs =>
    match rows.getLast? with
    | none => rows
    | some last => rows.filter (fun row => last.t - windowMs ≤ row.t)

def visible (data : List Row) (windowMs : Option ℚ) (brush : Option TimeRange) : List Row :=
  match windowMs, brush with
  | none, some brush =>
    let within := data.filter (fun row => brush.startT ≤ row.t ∧ row.t ≤ brush.endT)
    if within.length > 0 then within else data
  | _, _ => data

def brushStart (data : List Row) (brush : Option TimeRange) : ℕ :=
  match brush with
  | none => 0
  | some brush => firstIndexAtOrAfter (data.map Row.t) brush.startT

def brushEnd (data : List Row) (brush : Option TimeRange) : ℕ :=
  match brush with
  | none => data.length - 1
  | some brush => lastIndexAtOrBefore (data.map Row.t) brush.endT

/-- `data[brushStart..brushEnd]`: the rows that the chart displays. -/
def displayed (data : List Row) (brush : Option TimeRange) : List Row :=
  slice data (brushStart data brush) (brushEnd data brush)

/-! ## Selections -/

/-- A selection of indices, other than all of them, gives the times of its ends. -/
theorem toTimeRange_of_le {times : List ℚ} {i j : ℕ} (hij : i ≤ j) (hj : j < times.length) :
    toTimeRange times (some i) (some j) =
      if i = 0 ∧ j = times.length - 1 then none else some ⟨times[i], times[j]⟩ := by
  have hat (k : ℕ) (hk : k < times.length) : timeAt times k = some times[k] := by
    rw [timeAt, if_neg (by omega), Int.toNat_natCast, List.getElem?_eq_getElem hk]
  rw [toTimeRange, Option.bind_eq_bind, Option.bind_some, Option.bind_eq_bind, Option.bind_some]
  refine if_congr (by omega) rfl ?_
  rw [hat i (by omega), hat j hj]
  rfl

/-- Among the times of a growing array, those of a selection are those between its ends. -/
theorem mem_selection_iff {times : List ℚ} {i j : ℕ} (hij : i ≤ j) (hj : j < times.length)
    {changes : List (Change ℚ)} (hlater : (times ++ appended changes).Pairwise (· < ·)) {x : ℚ}
    (hx : x ∈ after changes times) : times[i] ≤ x ∧ x ≤ times[j] ↔ x ∈ slice times i j := by
  obtain ⟨k, hk⟩ := List.mem_iff_getElem?.mp ((after_suffix changes times).subset hx)
  have hat (m : ℕ) (hm : m < times.length) : (times ++ appended changes)[m]? = some times[m] := by
    rw [List.getElem?_append_left hm, List.getElem?_eq_getElem hm]
  rw [le_iff_of_increasing hlater (hat i (by omega)) hk, le_iff_of_increasing hlater hk (hat j hj), mem_slice]
  constructor
  · rintro ⟨hik, hkj⟩
    refine ⟨k, hik, hkj, ?_⟩
    rwa [List.getElem?_append_left (by omega)] at hk
  · rintro ⟨m, him, hmj, hm⟩
    have hm' : (times ++ appended changes)[m]? = some x := by
      rwa [List.getElem?_append_left (by omega)]
    have hkm : k = m := index_unique hlater hk hm'
    omega

theorem after_increasing {times : List ℚ} {changes : List (Change ℚ)}
    (hlater : (times ++ appended changes).Pairwise (· < ·)) : (after changes times).Pairwise (· < ·) :=
  hlater.sublist (after_suffix changes times).sublist

/-- Where a time lies in the range, the two scans bound the indices of those that do. -/
theorem indices_of_range {times : List ℚ} (h : times.Pairwise (· < ·)) {a b : ℚ}
    (hmem : ∃ x ∈ times, a ≤ x ∧ x ≤ b) (k : ℕ) :
    firstIndexAtOrAfter times a ≤ k ∧ k ≤ lastIndexAtOrBefore times b ↔
      ∃ x, times[k]? = some x ∧ a ≤ x ∧ x ≤ b := by
  obtain ⟨first, last, hfirst, hlast, hspan⟩ := span_of_mem h hmem
  rw [firstIndexAtOrAfter, lastIndexAtOrBefore, hfirst, hlast, Option.getD_some, Option.getD_some]
  constructor
  · intro hk
    have hlt : last < times.length := (scanDown_eq_some.mp hlast).1
    have hx : times[k]? = some times[k] := List.getElem?_eq_getElem (by omega)
    exact ⟨times[k], hx, (hspan k _ hx).mpr hk⟩
  · rintro ⟨x, hx, hab⟩
    exact (hspan k x hx).mp hab

theorem indices_of_selection {times : List ℚ} {i j : ℕ} (hij : i ≤ j) (hj : j < times.length)
    {changes : List (Change ℚ)} (hlater : (times ++ appended changes).Pairwise (· < ·))
    (hleft : ∃ x ∈ after changes times, x ∈ slice times i j) (k : ℕ) :
    firstIndexAtOrAfter (after changes times) times[i] ≤ k ∧
        k ≤ lastIndexAtOrBefore (after changes times) times[j] ↔
      ∃ x ∈ slice times i j, (after changes times)[k]? = some x := by
  obtain ⟨y, hy, hsel⟩ := hleft
  rw [indices_of_range (after_increasing hlater) ⟨y, hy, (mem_selection_iff hij hj hlater hy).mpr hsel⟩]
  constructor
  · rintro ⟨x, hx, hrange⟩
    exact ⟨x, (mem_selection_iff hij hj hlater (List.mem_of_getElem? hx)).mp hrange, hx⟩
  · rintro ⟨x, hsel, hx⟩
    exact ⟨x, hx, (mem_selection_iff hij hj hlater (List.mem_of_getElem? hx)).mpr hsel⟩

theorem index_mem_slice_iff {times : List ℚ} (h : times.Pairwise (· < ·)) {i j k : ℕ} (hj : j < times.length) :
    (∃ x ∈ slice times i j, times[k]? = some x) ↔ i ≤ k ∧ k ≤ j := by
  constructor
  · rintro ⟨x, hx, hk⟩
    obtain ⟨m, him, hmj, hm⟩ := mem_slice.mp hx
    have hkm : k = m := index_unique h hk hm
    omega
  · rintro ⟨hik, hkj⟩
    have hk : times[k]? = some times[k] := List.getElem?_eq_getElem (by omega)
    exact ⟨times[k], mem_slice.mpr ⟨k, hik, hkj, hk⟩, hk⟩

/-- On every later array that still has a selected point, the indices found for the range are those of the
selected points that are left. -/
theorem selection_survives (times : List ℚ) (hincreasing : times.Pairwise (· < ·)) (i j : ℕ) (hij : i ≤ j)
    (hj : j < times.length) (hpart : ¬(i = 0 ∧ j = times.length - 1)) :
    ∃ range, toTimeRange times (some i) (some j) = some range ∧
      (firstIndexAtOrAfter times range.startT = i ∧ lastIndexAtOrBefore times range.endT = j) ∧
      ∀ changes, (times ++ appended changes).Pairwise (· < ·) → (∃ x ∈ after changes times, x ∈ slice times i j) →
        firstIndexAtOrAfter (after changes times) range.startT ≤
            lastIndexAtOrBefore (after changes times) range.endT ∧
          ∀ k, firstIndexAtOrAfter (after changes times) range.startT ≤ k ∧
              k ≤ lastIndexAtOrBefore (after changes times) range.endT ↔
            ∃ x ∈ slice times i j, (after changes times)[k]? = some x := by
  refine ⟨⟨times[i], times[j]⟩, (toTimeRange_of_le hij hj).trans (if_neg hpart), ?_, ?_⟩
  · -- the unchanged array
    have hsame : (times ++ appended []).Pairwise (· < ·) := by rwa [appended, List.flatMap_nil, List.append_nil]
    have hi : times[i] ∈ slice times i j := mem_slice.mpr ⟨i, le_rfl, hij, List.getElem?_eq_getElem _⟩
    have hindices (k : ℕ) := (indices_of_selection hij hj hsame ⟨_, List.getElem_mem _, hi⟩ k).trans
      (index_mem_slice_iff hincreasing hj)
    simp only [after, List.foldl_nil] at hindices ⊢
    have hati := hindices i
    have hatj := hindices j
    have hfirst := hindices (firstIndexAtOrAfter times times[i])
    have hlast := hindices (lastIndexAtOrBefore times times[j])
    omega
  · rintro changes hlater ⟨x, hx, hsel⟩
    have hindices := indices_of_selection hij hj hlater ⟨x, hx, hsel⟩
    obtain ⟨k, hk⟩ := List.mem_iff_getElem?.mp hx
    have hspan := (hindices k).mpr ⟨x, hsel, hk⟩
    exact ⟨hspan.1.trans hspan.2, hindices⟩

theorem tail_survives : ∃ range, toTimeRange [10, 20, 30, 40] (some 1) (some 2) = some range ∧
    ∀ k, firstIndexAtOrAfter [30, 40, 50] range.startT ≤ k ∧ k ≤ lastIndexAtOrBefore [30, 40, 50] range.endT ↔
      ∃ x ∈ slice [10, 20, 30, 40] 1 2, ([30, 40, 50] : List ℚ)[k]? = some x := by
  obtain ⟨range, hrange, -, hleft⟩ := selection_survives [10, 20, 30, 40] (by decide +kernel) 1 2 (by decide)
    (by decide) (by decide)
  exact ⟨range, hrange,
    (hleft [.append 50, .dropOldest, .dropOldest] (by decide +kernel) ⟨30, by decide +kernel, by decide +kernel⟩).2⟩

/-! ## The times of a line over the stream -/

theorem push_changes {n : ℕ} {samples : List (Sample ℚ)} (hlen : samples.length ≤ n) (sample : Sample ℚ) :
    ∃ changes, appended changes = [sample.t] ∧
      (push n samples sample).map Sample.t = after changes (samples.map Sample.t) := by
  rcases Nat.lt_or_ge samples.length n with hroom | hfull
  · refine ⟨[.append sample.t], rfl, ?_⟩
    rw [push, rtake_of_length_le (by rw [List.length_append, List.length_singleton]; omega), List.map_append]
    rfl
  · refine ⟨[.append sample.t, .dropOldest], rfl, ?_⟩
    have hone : (samples ++ [sample]).length - n = 1 := by
      rw [List.length_append, List.length_singleton]
      omega
    rw [push, List.rtake, hone, List.drop_one, List.map_tail, List.map_append]
    rfl

theorem foldl_push_changes {n : ℕ} (arrived : List (Sample ℚ)) {samples : List (Sample ℚ)}
    (hlen : samples.length ≤ n) :
    ∃ changes, appended changes = arrived.map Sample.t ∧
      (arrived.foldl (push n) samples).map Sample.t = after changes (samples.map Sample.t) := by
  induction arrived generalizing samples with
  | nil => exact ⟨[], rfl, rfl⟩
  | cons sample arrived ih =>
    obtain ⟨first, hfirst, hpush⟩ := push_changes hlen sample
    have hcap : (push n samples sample).length ≤ n := (rtake_length n _).trans_le (min_le_left _ _)
    obtain ⟨rest, hrest, hfold⟩ := ih hcap
    refine ⟨first ++ rest, ?_, ?_⟩
    · rw [appended, List.flatMap_append, ← appended, ← appended, hfirst, hrest, List.map_cons,
        List.singleton_append]
    · rw [List.foldl_cons, hfold, hpush, after, after, after, List.foldl_append]

theorem times_of_line {line : ChartSeries} (hkey : line.key ≠ "t" ∧ line.key ≠ "__proto__")
    (hsamples : line.samples.Pairwise (fun a b => a.t < b.t)) :
    (buildRows [line]).map Row.t = line.samples.map Sample.t := by
  have hfree : FreeNames [line] :=
    List.forall_mem_singleton.mpr ⟨fun h => absurd h hkey.2, fun h => absurd h hkey.1⟩
  have haligned := hfree.aligned (List.nodup_singleton _)
  refine haligned.increasing.eq_of_mem_iff (List.pairwise_map.mpr hsamples) (fun {x} => ?_)
  rw [haligned.covers, sampleTimes, List.flatMap_singleton]

/-- The stream appends to the chart of a variable and evicts its oldest rows, which is all that happens to
their times. -/
theorem streamed_line_changes {m m' : Monitor ℚ} {name : String} (hname : name ≠ "t" ∧ name ≠ "__proto__")
    (hlen : (m.series name).length ≤ maxPoints) (es : List (StreamData ℚ))
    (hrun : (es.map .stream).foldlM Monitor.receive m = some m')
    (hlater : (m.series name ++ es.flatMap (streamed name)).Pairwise (fun a b => a.t < b.t)) :
    ∃ changes, appended changes = (es.flatMap (streamed name)).map Sample.t ∧
      (buildRows [⟨name, m'.series name⟩]).map Row.t = after changes ((buildRows [⟨name, m.series name⟩]).map Row.t) := by
  obtain ⟨changes, happended, hafter⟩ := foldl_push_changes (es.flatMap (streamed name)) hlen
  refine ⟨changes, happended, ?_⟩
  have hseries : m'.series name = (m.series name ++ es.flatMap (streamed name)).rtake maxPoints := by
    rw [eq_foldl_of_foldlM (fun _ _ _ h => Monitor.receive_eq_some h) hrun]
    exact Monitor.series_streams m es name hlen
  have hbefore : (buildRows [⟨name, m.series name⟩]).map Row.t = (m.series name).map Sample.t :=
    times_of_line hname (hlater.sublist (List.sublist_append_left _ _))
  have hsorted : (m'.series name).Pairwise (fun a b => a.t < b.t) := by
    rw [hseries]
    exact hlater.sublist (rtake_suffix _ _).sublist
  have hnow : (buildRows [⟨name, m'.series name⟩]).map Row.t = (m'.series name).map Sample.t := times_of_line hname hsorted
  rw [hnow, hbefore, ← hafter, foldl_push hlen, hseries]

/-! ## Statistics of what is displayed -/

theorem firstIndexAtOrAfter_le (times : List ℚ) (t : ℚ) : firstIndexAtOrAfter times t ≤ times.length - 1 := by
  rw [firstIndexAtOrAfter]
  cases hfirst : firstFrom times t with
  | none => simp
  | some first =>
    have hlt : first < times.length := (scanUp_eq_some.mp hfirst).1
    rw [Option.getD_some]
    omega

/-- The row lies in the range. -/
def Within (range : TimeRange) (row : Row) : Prop := range.startT ≤ row.t ∧ row.t ≤ range.endT

instance (range : TimeRange) (row : Row) : Decidable (Within range row) := inferInstanceAs (Decidable (_ ∧ _))

theorem displayed_none (data : List Row) : displayed data none = data := by
  rw [displayed, brushStart, brushEnd, slice, List.drop_zero, List.take_of_length_le (by omega)]

section Selected
variable {data : List Row} {range : TimeRange}

theorem displayed_of_within (hordered : (data.map Row.t).Pairwise (· < ·)) (hmem : ∃ row ∈ data, Within range row) :
    displayed data (some range) = data.filter (Within range) := by
  obtain ⟨left, hleft, hwithin⟩ := hmem
  refine (filter_eq_slice (fun k row hk => ?_)).symm
  rw [brushStart, brushEnd, indices_of_range hordered ⟨left.t, List.mem_map_of_mem hleft, hwithin⟩, List.getElem?_map,
    hk, Option.map_some]
  simp [Within]

theorem visible_of_within (hmem : ∃ row ∈ data, Within range row) :
    visible data none (some range) = data.filter (Within range) := by
  have hpos : 0 < (data.filter (Within range)).length := by
    simpa [List.length_filter_pos_iff] using hmem
  exact if_pos hpos

theorem visible_of_not_within (hnone : ¬∃ row ∈ data, Within range row) :
    visible data none (some range) = data := by
  have hnil : data.filter (Within range) = [] :=
    List.filter_eq_nil_iff.mpr (fun row hrow => by simpa using fun h => hnone ⟨row, hrow, h⟩)
  have hpos : ¬0 < (data.filter (Within range)).length := by simp [hnil]
  exact if_neg hpos

/-- With nothing of the selection left, the chart displays one row at most. -/
theorem length_displayed_le (hordered : (data.map Row.t).Pairwise (· < ·)) (hnone : ¬∃ row ∈ data, Within range row) :
    (displayed data (some range)).length ≤ 1 := by
  have hnone' : ¬∃ x ∈ data.map Row.t, range.startT ≤ x ∧ x ≤ range.endT := by
    rintro ⟨x, hx, hrange⟩
    obtain ⟨row, hrow, rfl⟩ := List.mem_map.mp hx
    exact hnone ⟨row, hrow, hrange⟩
  rw [displayed, slice, List.length_take, List.length_drop, brushStart, brushEnd, firstIndexAtOrAfter,
    lastIndexAtOrBefore, List.length_map]
  cases hfirst : firstFrom (data.map Row.t) range.startT with
  | none =>
    rw [Option.getD_none]
    omega
  | some first =>
    cases hlast : lastUpTo (data.map Row.t) range.endT with
    | none =>
      rw [Option.getD_none]
      omega
    | some last =>
      have hcross := last_lt_first hordered hnone' hfirst hlast
      rw [Option.getD_some, Option.getD_some]
      omega

theorem visible_eq_displayed_iff (hordered : (data.map Row.t).Pairwise (· < ·)) :
    visible data none (some range) = displayed data (some range) ↔
      (∃ row ∈ data, Within range row) ∨ data.length ≤ 1 := by
  by_cases hmem : ∃ row ∈ data, Within range row
  · rw [visible_of_within hmem, displayed_of_within hordered hmem]
    exact iff_of_true rfl (.inl hmem)
  · rw [visible_of_not_within hmem, or_iff_right hmem]
    constructor
    · intro heq
      rw [heq]
      exact length_displayed_le hordered hmem
    · intro hlen
      have hstart : brushStart data (some range) ≤ (data.map Row.t).length - 1 := firstIndexAtOrAfter_le _ _
      rw [List.length_map, Nat.sub_eq_zero_of_le hlen, Nat.le_zero] at hstart
      rw [displayed, hstart, slice, List.drop_zero, List.take_of_length_le (by omega)]

end Selected

/-- A selection was made on `data`, and the times have changed since. The statistics in the window "all" take
the displayed rows exactly if the selection was of all rows, or some row of it is left, or at most one row is. -/
theorem visible_displayed_iff (data now : List Row) (i j : ℕ) (hij : i ≤ j) (hj : j < data.length)
    (changes : List (Change ℚ)) (hlater : (data.map Row.t ++ appended changes).Pairwise (· < ·))
    (hnow : now.map Row.t = after changes (data.map Row.t)) :
    visible (chartData now none) none (toTimeRange (data.map Row.t) (some i) (some j)) =
        displayed (chartData now none) (toTimeRange (data.map Row.t) (some i) (some j)) ↔
      (i = 0 ∧ j = data.length - 1) ∨ (∃ row ∈ now, row.t ∈ slice (data.map Row.t) i j) ∨ now.length ≤ 1 := by
  have hj' : j < (data.map Row.t).length := by rwa [List.length_map]
  have hordered : (now.map Row.t).Pairwise (· < ·) := hnow ▸ after_increasing hlater
  have hrange := toTimeRange_of_le hij hj'
  simp only [List.length_map] at hrange
  rw [hrange, chartData]
  split
  · next hall => exact iff_of_true (displayed_none now).symm (.inl hall)
  · next hpart =>
    have hselected : (∃ row ∈ now, Within ⟨(data.map Row.t)[i], (data.map Row.t)[j]⟩ row) ↔
        ∃ row ∈ now, row.t ∈ slice (data.map Row.t) i j :=
      exists_congr (fun row => and_congr_right (fun hrow =>
        mem_selection_iff hij hj' hlater (hnow ▸ List.mem_map_of_mem hrow)))
    rw [visible_eq_displayed_iff hordered, hselected, or_iff_right hpart]

/-! ## A page that has run for a while -/

/-- The rows of the milliseconds from `first` on. -/
def ticks (first count : ℕ) : List Row := (List.range' first count).map (fun k : ℕ => Row.new (k : ℚ))

/-- Two more events on a page that is full. -/
def twoTicks : List (Change ℚ) := [.append 1000, .dropOldest, .append 1001, .dropOldest]

theorem times_ticks (first count : ℕ) :
    (ticks first count).map Row.t = (List.range' first count).map (fun k : ℕ => (k : ℚ)) := by
  rw [ticks, List.map_map]
  refine List.map_congr_left (fun k _ => ?_)
  rw [Function.comp_apply, Row.t, Row.get?_new, if_pos rfl, Option.getD_some]

theorem times_ticks_increasing (first count : ℕ) : ((ticks first count).map Row.t).Pairwise (· < ·) := by
  rw [times_ticks, List.pairwise_map]
  have hlt : (List.range' first count).Pairwise (· < ·) := List.pairwise_lt_range'
  exact hlt.imp (fun h => Nat.cast_lt.mpr h)

theorem length_ticks (first count : ℕ) : (ticks first count).length = count := by
  rw [ticks, List.length_map, List.length_range']

/-- The two oldest of 1000 rows are selected, and two events later both are gone: the chart displays one row,
and the statistics are those of all rows. -/
theorem selection_gone : ¬∀ (data now : List Row) (i j : ℕ), i ≤ j → j < data.length →
    ∀ changes : List (Change ℚ), (data.map Row.t ++ appended changes).Pairwise (· < ·) →
      now.map Row.t = after changes (data.map Row.t) →
        visible (chartData now none) none (toTimeRange (data.map Row.t) (some i) (some j)) =
          displayed (chartData now none) (toTimeRange (data.map Row.t) (some i) (some j)) := by
  intro h
  have hlast (first count : ℕ) : (ticks first (count + 1)).map Row.t =
      (ticks first count).map Row.t ++ [((first + count : ℕ) : ℚ)] := by
    rw [times_ticks, times_ticks, List.range'_concat, List.map_append, Nat.one_mul, List.map_singleton]
  have hfirst (first count : ℕ) : ((ticks first (count + 1)).map Row.t).tail = (ticks (first + 1) count).map Row.t := by
    rw [times_ticks, times_ticks, List.range'_succ, List.map_cons, List.tail_cons]
  have hlater : ((ticks 0 1000).map Row.t ++ appended twoTicks).Pairwise (· < ·) := by
    have hall : (ticks 0 1002).map Row.t = (ticks 0 1000).map Row.t ++ appended twoTicks := by
      rw [hlast 0 1001, hlast 0 1000, List.append_assoc]
      rfl
    exact hall ▸ times_ticks_increasing 0 1002
  have hnow : (ticks 2 1000).map Row.t = after twoTicks ((ticks 0 1000).map Row.t) := by
    rw [← hfirst 1 1000, hlast 1 1000, ← hfirst 0 1000, hlast 0 1000]
    rfl
  have hrange : toTimeRange ((ticks 0 1000).map Row.t) (some (0 : ℕ)) (some (1 : ℕ)) = some ⟨0, 1⟩ := by
    have hlen : ((ticks 0 1000).map Row.t).length = 1000 := by rw [List.length_map, length_ticks]
    rw [toTimeRange_of_le (by decide) (by omega), if_neg (by omega)]
    simp [times_ticks]
  have hnone : ¬∃ row ∈ ticks 2 1000, Within ⟨0, 1⟩ row := by
    rintro ⟨row, hrow, -, hend⟩
    have ht := List.mem_map_of_mem (f := Row.t) hrow
    rw [times_ticks] at ht
    obtain ⟨k, hk, hkt⟩ := List.mem_map.mp ht
    have hle : (k : ℚ) ≤ 1 := hkt ▸ hend
    have hk2 : 2 ≤ k := (List.mem_range'_1.mp hk).1
    have hk1 : k ≤ 1 := by exact_mod_cast hle
    omega
  have hsame := h (ticks 0 1000) (ticks 2 1000) 0 1 (by decide) (by rw [length_ticks]; decide) twoTicks hlater hnow
  have hshort := length_displayed_le (times_ticks_increasing 2 1000) hnone
  rw [hrange, chartData, visible_of_not_within hnone] at hsame
  rw [← hsame, length_ticks] at hshort
  omega

/-- One selected row is left of three. -/
theorem rest_displayed :
    visible (chartData (ticks 4 9) none) none (toTimeRange ((ticks 0 9).map Row.t) (some (2 : ℕ)) (some (4 : ℕ))) =
      displayed (chartData (ticks 4 9) none)
        (toTimeRange ((ticks 0 9).map Row.t) (some (2 : ℕ)) (some (4 : ℕ))) :=
  (visible_displayed_iff (ticks 0 9) (ticks 4 9) 2 4 (by decide) (by decide +kernel)
    [.append 9, .append 10, .append 11, .append 12, .dropOldest, .dropOldest, .dropOldest, .dropOldest]
    (by decide +kernel) (by decide +kernel)).mpr (.inr (.inl ⟨.new 4, by decide +kernel, by decide +kernel⟩))

end Tstlan.Web
