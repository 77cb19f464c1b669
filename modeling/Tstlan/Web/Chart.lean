import Tstlan.Foundations.Sorting
import Tstlan.Web.Monitor

/-! # The rows of a chart (`components/time-series-chart.tsx`)

The samples of all lines are collected into one row for each time. A row is an object with its time under `t` and the
values of the lines under their keys, so the names `t` and `__proto__` meet properties that are there already. -/
namespace Tstlan.Web
open Foundations
set_option autoImplicit false

/-! ## Rows -/

/-- A line of the chart. -/
structure ChartSeries where
  key : String
  samples : List (Sample ℚ)
  deriving DecidableEq

/-- The own properties of a row, all of them numbers. -/
abbrev Row := Dict String ℚ

namespace Row

/-- `{ t }`. -/
def new (t : ℚ) : Row := Dict.empty.set "t" t

/-- `row[key] = value`; the inherited setter of `__proto__` takes no number. -/
def setProperty (row : Row) (key : String) (value : ℚ) : Row :=
  if key = "__proto__" then row else row.set key value

/-- `row.t`. -/
def t (row : Row) : ℚ := (row.get? "t").getD 0

end Row

def addSample (key : String) (byT : Dict ℚ Row) (sample : Sample ℚ) : Dict ℚ Row :=
  byT.set sample.t (((byT.get? sample.t).getD (.new sample.t)).setProperty key sample.v)

def byTime (series : List ChartSeries) : Dict ℚ Row :=
  series.foldl (fun byT line => line.samples.foldl (addSample line.key) byT) .empty

def buildRows (series : List ChartSeries) : List Row :=
  (byTime series).values.mergeSort (fun a b => a.t ≤ b.t)

/-- The values of the rows that hold a number of their own under the key. -/
def columnValues (rows : List Row) (key : String) : List ℚ := rows.filterMap (fun row => row.get? key)

/-! ## The chart that is meant -/

/-- The last value of a line at a time. -/
def lastAt (samples : List (Sample ℚ)) (x : ℚ) : Option ℚ :=
  (samples.filter (fun sample => sample.t = x)).getLast?.map Sample.v

def sampleTimes (series : List ChartSeries) : List ℚ := series.flatMap (fun line => line.samples.map Sample.t)

/-- The rows stand at the times of the samples in their order, and each line reads its own values in them. -/
structure Aligned (series : List ChartSeries) : Prop where
  increasing : ((buildRows series).map Row.t).Pairwise (· < ·)
  covers : ∀ x, x ∈ (buildRows series).map Row.t ↔ x ∈ sampleTimes series
  holds : ∀ row ∈ buildRows series, ∀ line ∈ series, row.get? line.key = lastAt line.samples row.t
  columns : ∀ line ∈ series, columnValues (buildRows series) line.key =
    ((buildRows series).map Row.t).filterMap (lastAt line.samples)

/-- A line named `__proto__` is empty, and a line named `t` says the time at every time. -/
def FreeNames (series : List ChartSeries) : Prop :=
  ∀ line ∈ series, (line.key = "__proto__" → line.samples = []) ∧
    (line.key = "t" → ∀ x ∈ sampleTimes series, lastAt line.samples x = some x)

/-! ## Collecting -/

theorem Row.get?_new (t : ℚ) (key : String) : (Row.new t).get? key = if key = "t" then some t else none := by
  rw [new, Dict.get?_set, Dict.get?_empty]

theorem Row.get?_setProperty (row : Row) (name : String) (value : ℚ) (key : String) :
    (row.setProperty name value).get? key =
      if name = key ∧ key ≠ "__proto__" then some value else row.get? key := by
  rw [setProperty]
  by_cases hname : name = "__proto__"
  · subst hname
    rw [if_pos rfl, if_neg (fun h => h.2 h.1.symm)]
  · rw [if_neg hname, Dict.get?_set]
    by_cases hkey : key = name
    · subst hkey
      rw [if_pos rfl, if_pos ⟨rfl, hname⟩]
    · rw [if_neg hkey, if_neg (fun h => hkey h.1.symm)]

theorem lastAt_append (samples : List (Sample ℚ)) (sample : Sample ℚ) (x : ℚ) :
    lastAt (samples ++ [sample]) x = if sample.t = x then some sample.v else lastAt samples x := by
  rw [lastAt, List.filter_append, List.filter_singleton]
  by_cases hx : sample.t = x
  · simp [hx]
  · simp [hx, lastAt]

theorem lastAt_eq_none {samples : List (Sample ℚ)} {x : ℚ} : lastAt samples x = none ↔ x ∉ samples.map Sample.t := by
  rw [lastAt, Option.map_eq_none_iff, List.getLast?_eq_none_iff, List.filter_eq_nil_iff]
  simp only [decide_eq_true_eq, List.mem_map, not_exists, not_and]

/-- All samples in the order of the loops, with their keys. -/
def written (series : List ChartSeries) : List (String × Sample ℚ) :=
  series.flatMap (fun line => line.samples.map (fun sample => (line.key, sample)))

def collected (samples : List (String × Sample ℚ)) : Dict ℚ Row :=
  samples.foldl (fun byT w => addSample w.1 byT w.2) .empty

theorem byTime_eq (series : List ChartSeries) : byTime series = collected (written series) := by
  rw [byTime, collected, written, List.foldl_flatMap]
  simp only [List.foldl_map]

/-- What the row of a time holds under a key: the last value written there, or the time itself. -/
def cell (samples : List (String × Sample ℚ)) (x : ℚ) (key : String) : Option ℚ :=
  if key = "__proto__" then none
  else (lastAt ((samples.filter (fun w => w.1 = key)).map Prod.snd) x).or (if key = "t" then some x else none)

theorem cell_append (samples : List (String × Sample ℚ)) (w : String × Sample ℚ) (x : ℚ) (key : String) :
    cell (samples ++ [w]) x key =
      if w.2.t = x ∧ w.1 = key ∧ key ≠ "__proto__" then some w.2.v else cell samples x key := by
  rw [cell, cell, List.filter_append, List.map_append]
  by_cases hkey : w.1 = key
  · rw [List.filter_cons_of_pos (by simpa using hkey), List.filter_nil, List.map_singleton, lastAt_append]
    by_cases hx : w.2.t = x <;> by_cases hproto : key = "__proto__" <;> simp [hx, hproto, hkey]
  · have hother : ¬ (w.2.t = x ∧ w.1 = key ∧ key ≠ "__proto__") := fun h => hkey h.2.1
    rw [List.filter_cons_of_neg (by simpa using hkey), List.filter_nil, List.map_nil, List.append_nil, if_neg hother]

theorem cell_of_no_sample {samples : List (String × Sample ℚ)} {x : ℚ} (h : x ∉ samples.map (fun w => w.2.t))
    (key : String) : cell samples x key = (Row.new x).get? key := by
  have hnone : lastAt ((samples.filter (fun w => w.1 = key)).map Prod.snd) x = none := by
    refine lastAt_eq_none.mpr (fun hmem => h ?_)
    rw [List.map_map] at hmem
    obtain ⟨w, hw, rfl⟩ := List.mem_map.mp hmem
    exact List.mem_map.mpr ⟨w, List.mem_of_mem_filter hw, rfl⟩
  rw [cell, hnone, Row.get?_new]
  by_cases hproto : key = "__proto__"
  · simp [hproto]
  · simp [hproto]

/-- The row of a time is there once a sample has it, and each property is the cell of its key. -/
theorem get?_collected (samples : List (String × Sample ℚ)) (x : ℚ) :
    (x ∉ samples.map (fun w => w.2.t) ∧ (collected samples).get? x = none) ∨
      x ∈ samples.map (fun w => w.2.t) ∧
        ∃ row, (collected samples).get? x = some row ∧ ∀ key, row.get? key = cell samples x key := by
  induction samples using List.reverseRecOn with
  | nil => exact .inl ⟨List.not_mem_nil, rfl⟩
  | append_singleton samples w ih =>
    have hstep : collected (samples ++ [w]) = addSample w.1 (collected samples) w.2 := by
      rw [collected, List.foldl_append]
      rfl
    rw [hstep, addSample, Dict.get?_set, List.map_append, List.mem_append, List.map_singleton, List.mem_singleton]
    by_cases hx : x = w.2.t
    · refine .inr ⟨.inr hx, _, if_pos hx, fun key => ?_⟩
      have hbefore : (((collected samples).get? w.2.t).getD (.new w.2.t)).get? key = cell samples x key := by
        rw [← hx]
        rcases ih with ⟨hfresh, hnone⟩ | ⟨-, row, hrow, hcells⟩
        · rw [hnone, Option.getD_none, cell_of_no_sample hfresh]
        · rw [hrow, Option.getD_some, hcells]
      rw [Row.get?_setProperty, cell_append, hbefore]
      simp only [hx, true_and]
    · have hcells (key : String) : cell (samples ++ [w]) x key = cell samples x key := by
        rw [cell_append, if_neg (fun h => hx h.1.symm)]
      simp only [hx, if_false, or_false, hcells]
      exact ih

/-! ## The rows and their times -/

theorem mem_sampleTimes (series : List ChartSeries) (x : ℚ) :
    x ∈ sampleTimes series ↔ x ∈ (written series).map (fun w => w.2.t) := by
  simp only [sampleTimes, written, List.map_flatMap, List.map_map, List.mem_flatMap]
  rfl

theorem samples_of_key {series : List ChartSeries} (hkeys : (series.map ChartSeries.key).Nodup) {line : ChartSeries}
    (hline : line ∈ series) :
    ((written series).filter (fun w => w.1 = line.key)).map Prod.snd = line.samples := by
  induction series with
  | nil => cases hline
  | cons first rest ih =>
    obtain ⟨hfresh, hrest⟩ := List.nodup_cons.mp hkeys
    rw [written, List.flatMap_cons, List.filter_append, List.map_append]
    rcases List.mem_cons.mp hline with rfl | hin
    · have hown : (line.samples.map (fun sample => (line.key, sample))).filter (fun w => w.1 = line.key) =
          line.samples.map (fun sample => (line.key, sample)) :=
        List.filter_eq_self.mpr (fun w hw => by obtain ⟨_, _, rfl⟩ := List.mem_map.mp hw; simp)
      have hothers : (rest.flatMap (fun other => other.samples.map (fun sample => (other.key, sample)))).filter
          (fun w => w.1 = line.key) = [] := by
        refine List.filter_eq_nil_iff.mpr (fun w hw => ?_)
        obtain ⟨other, hother, hw⟩ := List.mem_flatMap.mp hw
        obtain ⟨_, _, rfl⟩ := List.mem_map.mp hw
        intro hkey
        exact hfresh (List.mem_map.mpr ⟨other, hother, of_decide_eq_true hkey⟩)
      rw [hown, hothers, List.map_map, List.map_nil, List.append_nil]
      exact List.map_id _
    · have hothers : (first.samples.map (fun sample => (first.key, sample))).filter (fun w => w.1 = line.key) = [] := by
        refine List.filter_eq_nil_iff.mpr (fun w hw => ?_)
        obtain ⟨_, _, rfl⟩ := List.mem_map.mp hw
        intro hkey
        exact hfresh (List.mem_map.mpr ⟨line, hin, (of_decide_eq_true hkey).symm⟩)
      rw [hothers, List.map_nil, List.nil_append]
      exact ih hrest hin

/-- The cell of a line that is not named like a property of the row. -/
theorem cell_of_line {series : List ChartSeries} (hkeys : (series.map ChartSeries.key).Nodup) {line : ChartSeries}
    (hline : line ∈ series) (x : ℚ) :
    cell (written series) x line.key =
      if line.key = "__proto__" then none
      else (lastAt line.samples x).or (if line.key = "t" then some x else none) := by
  rw [cell, samples_of_key hkeys hline]

theorem mem_buildRows {series : List ChartSeries} {row : Row} :
    row ∈ buildRows series ↔ ∃ x, (byTime series).get? x = some row := by
  rw [buildRows, List.mem_mergeSort, Dict.mem_values]

theorem cells_of_mem {series : List ChartSeries} {row : Row} (h : row ∈ buildRows series) :
    ∃ x ∈ sampleTimes series, (byTime series).get? x = some row ∧ ∀ key, row.get? key = cell (written series) x key := by
  obtain ⟨x, hx⟩ := mem_buildRows.mp h
  rw [byTime_eq] at hx
  rcases get?_collected (written series) x with ⟨-, hnone⟩ | ⟨hmem, row', hrow', hcells⟩
  · rw [hx] at hnone
    cases hnone
  · obtain rfl : row = row' := Option.some.inj (hx.symm.trans hrow')
    exact ⟨x, (mem_sampleTimes series x).mpr hmem, byTime_eq series ▸ hx, hcells⟩

theorem t_of_cells {samples : List (String × Sample ℚ)} {row : Row} {x : ℚ}
    (h : ∀ key, row.get? key = cell samples x key) :
    row.get? "t" = some row.t ∧
      row.t = (lastAt ((samples.filter (fun w => w.1 = "t")).map Prod.snd) x).getD x := by
  have ht : row.get? "t" = some ((lastAt ((samples.filter (fun w => w.1 = "t")).map Prod.snd) x).getD x) := by
    rw [h, cell, if_neg (by decide), if_pos rfl]
    cases lastAt ((samples.filter (fun w => w.1 = "t")).map Prod.snd) x <;> rfl
  have heq : row.t = (lastAt ((samples.filter (fun w => w.1 = "t")).map Prod.snd) x).getD x := by
    rw [Row.t, ht, Option.getD_some]
  exact ⟨by rw [ht, heq], heq⟩

theorem FreeNames.t_of_cells {series : List ChartSeries} (hfree : FreeNames series)
    (hkeys : (series.map ChartSeries.key).Nodup) {row : Row} {x : ℚ} (hx : x ∈ sampleTimes series)
    (h : ∀ key, row.get? key = cell (written series) x key) : row.t = x := by
  rw [(Web.t_of_cells h).2]
  by_cases hline : ∃ line ∈ series, line.key = "t"
  · obtain ⟨line, hline, hkey⟩ := hline
    have hsamples := samples_of_key hkeys hline
    rw [hkey] at hsamples
    rw [hsamples, (hfree line hline).2 hkey x hx, Option.getD_some]
  · have hempty : (written series).filter (fun w => w.1 = "t") = [] := by
      refine List.filter_eq_nil_iff.mpr (fun w hw htime => hline ?_)
      obtain ⟨line, hmem, hw⟩ := List.mem_flatMap.mp hw
      obtain ⟨_, _, rfl⟩ := List.mem_map.mp hw
      exact ⟨line, hmem, of_decide_eq_true htime⟩
    rw [hempty]
    rfl

theorem columns_of_holds {series : List ChartSeries}
    (h : ∀ row ∈ buildRows series, ∀ line ∈ series, row.get? line.key = lastAt line.samples row.t)
    {line : ChartSeries} (hline : line ∈ series) :
    columnValues (buildRows series) line.key = ((buildRows series).map Row.t).filterMap (lastAt line.samples) := by
  rw [columnValues, List.filterMap_map]
  exact List.filterMap_congr (fun row hrow => h row hrow line hline)

theorem FreeNames.increasing {series : List ChartSeries} (hfree : FreeNames series)
    (hkeys : (series.map ChartSeries.key).Nodup) : ((buildRows series).map Row.t).Pairwise (· < ·) := by
  have htimes : (byTime series).values.map Row.t = (byTime series).keys := by
    rw [Dict.values, Dict.keys, List.map_map]
    refine List.map_congr_left (fun entry hentry => ?_)
    have hget : (byTime series).get? entry.1 = some entry.2 := Dict.mem_entries.mp hentry
    rw [byTime_eq] at hget
    rcases get?_collected (written series) entry.1 with ⟨-, hnone⟩ | ⟨hmem, row, hrow, hcells⟩
    · rw [hget] at hnone
      cases hnone
    · obtain rfl := Option.some.inj (hget.symm.trans hrow)
      exact hfree.t_of_cells hkeys ((mem_sampleTimes series _).mpr hmem) hcells
  have hsorted : ((buildRows series).map Row.t).Pairwise (· ≤ ·) :=
    List.pairwise_map.mpr (pairwise_mergeSort_key Row.t (byTime series).values)
  have hnodup : ((buildRows series).map Row.t).Nodup := by
    have hperm : ((buildRows series).map Row.t).Perm (byTime series).keys := by
      rw [← htimes]
      exact (List.mergeSort_perm _ _).map _
    exact hperm.nodup_iff.mpr (byTime series).nodup
  exact (hsorted.and hnodup).imp (fun h => lt_of_le_of_ne h.1 h.2)

theorem FreeNames.aligned {series : List ChartSeries} (hfree : FreeNames series)
    (hkeys : (series.map ChartSeries.key).Nodup) : Aligned series := by
  have hholds : ∀ row ∈ buildRows series, ∀ line ∈ series, row.get? line.key = lastAt line.samples row.t := by
    intro row hrow line hline
    obtain ⟨x, hx, -, hcells⟩ := cells_of_mem hrow
    rw [hfree.t_of_cells hkeys hx hcells, hcells, cell_of_line hkeys hline]
    by_cases hproto : line.key = "__proto__"
    · rw [if_pos hproto, (hfree line hline).1 hproto]
      rfl
    · rw [if_neg hproto]
      by_cases htime : line.key = "t"
      · rw [(hfree line hline).2 htime x hx, Option.some_or]
      · rw [if_neg htime, Option.or_none]
  refine ⟨hfree.increasing hkeys, fun x => ⟨fun hx => ?_, fun hx => ?_⟩, hholds,
    fun line hline => columns_of_holds hholds hline⟩
  · obtain ⟨row, hrow, rfl⟩ := List.mem_map.mp hx
    obtain ⟨x, hx, -, hcells⟩ := cells_of_mem hrow
    rwa [hfree.t_of_cells hkeys hx hcells]
  · rcases get?_collected (written series) x with ⟨hfresh, -⟩ | ⟨-, row, hrow, hcells⟩
    · exact absurd ((mem_sampleTimes series x).mp hx) hfresh
    · exact List.mem_map.mpr ⟨row, mem_buildRows.mpr ⟨x, byTime_eq series ▸ hrow⟩, hfree.t_of_cells hkeys hx hcells⟩

theorem Aligned.freeNames {series : List ChartSeries} (h : Aligned series) : FreeNames series := by
  have hrow : ∀ x ∈ sampleTimes series, ∃ row ∈ buildRows series, row.t = x := fun x hx =>
    List.mem_map.mp ((h.covers x).mpr hx)
  intro line hline
  constructor
  · intro hproto
    by_contra hne
    obtain ⟨sample, hsample⟩ := List.exists_mem_of_ne_nil _ hne
    have htime : sample.t ∈ line.samples.map Sample.t := List.mem_map_of_mem hsample
    obtain ⟨row, hmem, ht⟩ := hrow sample.t (List.mem_flatMap.mpr ⟨line, hline, htime⟩)
    obtain ⟨x, -, -, hcells⟩ := cells_of_mem hmem
    have hlast := h.holds row hmem line hline
    rw [hproto, hcells, cell, if_pos rfl, ht] at hlast
    exact lastAt_eq_none.mp hlast.symm htime
  · intro hkey x hx
    obtain ⟨row, hmem, rfl⟩ := hrow x hx
    obtain ⟨x, -, -, hcells⟩ := cells_of_mem hmem
    rw [← h.holds row hmem line hline, hkey]
    exact (Web.t_of_cells hcells).1

/-- **The rows of a chart keep every line at its times exactly if no line with samples is named `__proto__` and a line
named `t`, if there is one, says the time itself at every time of the chart.** -/
theorem aligned_iff_freeNames (series : List ChartSeries) (hkeys : (series.map ChartSeries.key).Nodup) :
    Aligned series ↔ FreeNames series :=
  ⟨Aligned.freeNames, fun h => h.aligned hkeys⟩

/-- Two lines that share one time. -/
def sampleLines (name : String) : List ChartSeries :=
  [⟨"voltage", [⟨1000, 220⟩, ⟨2000, 221⟩]⟩, ⟨name, [⟨2000, 7⟩]⟩]

theorem sampleLines_aligned : Aligned (sampleLines "current") := by
  refine (aligned_iff_freeNames (sampleLines "current") (by decide)).mpr ?_
  exact List.forall_mem_cons.mpr ⟨⟨by decide, by decide⟩, List.forall_mem_singleton.mpr ⟨by decide, by decide⟩⟩

/-- A variable named `t` puts its values on the time axis. -/
theorem sampleLines_not_aligned :
    ((sampleLines "t").map ChartSeries.key).Nodup ∧ ¬ Aligned (sampleLines "t") := by
  refine ⟨by decide, fun h => ?_⟩
  have htime := (h.freeNames ⟨"t", [⟨2000, 7⟩]⟩ (.tail _ (.head _))).2 rfl 1000 (by decide +kernel)
  revert htime
  decide +kernel

end Tstlan.Web
