import Tstlan.Foundations.Dict
import Tstlan.Foundations.Loops
import Tstlan.Foundations.Rounding
import Tstlan.Foundations.Window

/-! # The state of a device page (`lib/history.ts`, `components/device-monitor.tsx`)

The page holds the shown value and the recorded series of each variable. Both connections give server time in seconds,
which `getHistory` and `streamValues` turn into whole milliseconds. A value is carried along unread. The series are looked
up in plain objects: for a name that every object inherits, such as `constructor`, the page finds no list and throws. -/
namespace Tstlan.Web
open Foundations Foundations.Window
open Foundations.Binary (Double)
set_option autoImplicit false

/-! ## The language -/

/-- The names that every object inherits. -/
def objectPrototype : List String :=
  ["__proto__", "__defineGetter__", "__defineSetter__", "__lookupGetter__", "__lookupSetter__", "constructor",
    "hasOwnProperty", "isPrototypeOf", "propertyIsEnumerable", "toLocaleString", "toString", "valueOf"]

/-- `Math.round` of a finite number; halves go up. -/
def mathRound (x : Double) : ℚ := ((2 * x.scaled + 2 ^ 1074) / 2 ^ 1075 : ℤ)

/-- `slice(-n)`; `-0` is `0`, which drops nothing. -/
def sliceLast {α : Type} (n : ℕ) (xs : List α) : List α := if n = 0 then xs else xs.rtake n

/-! ## Times -/

/-- `1000` -/
def thousand : Double := 0x408F400000000000

/-- A time of the server in seconds, with finite milliseconds. -/
structure ServerTime where
  seconds : Double
  finite : (seconds.mul thousand).isFinite = true
  deriving DecidableEq

instance : Preorder ServerTime where
  le s t := s.seconds.scaled ≤ t.seconds.scaled
  lt s t := s.seconds.scaled < t.seconds.scaled
  le_refl _ := Int.le_refl _
  le_trans _ _ _ := Int.le_trans
  lt_iff_le_not_ge _ _ := Int.lt_iff_le_and_not_ge

instance : DecidableLT ServerTime := fun s t => inferInstanceAs (Decidable (s.seconds.scaled < t.seconds.scaled))

/-- `Math.round(t * 1000)` -/
def milliseconds (t : ServerTime) : ℚ := mathRound (t.seconds.mul thousand)

theorem mathRound_mono {x y : Double} (h : x.scaled ≤ y.scaled) : mathRound x ≤ mathRound y := by
  rw [mathRound, mathRound, Int.cast_le]
  exact Int.ediv_le_ediv (by positivity) (by omega)

theorem milliseconds_mono {s t : ServerTime} (h : s ≤ t) : milliseconds s ≤ milliseconds t := by
  obtain ⟨hs, hthousand⟩ := Double.finite_of_mul s.finite
  exact mathRound_mono (Double.scaled_mul_le hs (Double.finite_of_mul t.finite).1 hthousand (by decide) h)

/-- `1.0` -/
def oneSecond : ServerTime := ⟨0x3FF0000000000000, by decide +kernel⟩

/-- `2.0` -/
def twoSeconds : ServerTime := ⟨0x4000000000000000, by decide +kernel⟩

/-- Two times within a millisecond. -/
example : milliseconds ⟨0x41DA39DE00000831, by decide +kernel⟩ = milliseconds ⟨0x41DA39DE00001062, by decide +kernel⟩ := by
  decide +kernel

/-! ## Messages -/

variable {V : Type}

structure Sample (V : Type) where
  t : ℚ
  v : V
  deriving DecidableEq

structure VariableValue (V : Type) where
  name : String
  value : V

/-- A point as the page holds it, in milliseconds. -/
structure HistoryPoint (V : Type) where
  t : ℚ
  values : Dict String V

/-- A point of the response. -/
structure RecordedPoint (V : Type) where
  t : ServerTime
  values : Dict String V

/-- What an event of the stream carries. -/
structure StreamData (V : Type) where
  t : ServerTime
  values : List (VariableValue V)

def getHistory (points : List (RecordedPoint V)) : List (HistoryPoint V) :=
  points.map (fun point => ⟨milliseconds point.t, point.values⟩)

/-! ## The series -/

abbrev Series (V : Type) := Dict String (List (Sample V))

def byName (points : List (HistoryPoint V)) : Series V :=
  points.foldl (fun byName point => point.values.entries.foldl
    (fun byName e => byName.set e.1 ((byName.get? e.1).getD [] ++ [⟨point.t, e.2⟩])) byName) .empty

/-- One variable of `seedHistory`: the cutoff is the first live time, or infinite. -/
def seeded (maxPoints : ℕ) (live samples : List (Sample V)) : List (Sample V) :=
  let older := match live with
    | [] => samples
    | first :: _ => samples.filter (fun sample => sample.t < first.t)
  sliceLast maxPoints (older ++ live)

/-- `seedHistory` of points none of whose names is inherited. -/
def seedHistory (prev : Series V) (points : List (HistoryPoint V)) (maxPoints : ℕ) : Series V :=
  (byName points).entries.foldl
    (fun next e => next.set e.1 (seeded maxPoints ((next.get? e.1).getD []) e.2)) prev

/-! ## The page -/

def maxPoints : ℕ := 1000

structure Monitor (V : Type) where
  values : Dict String V
  history : Series V

/-- `next[name] ?? []`, none where spreading it throws. -/
def liveSamples (next : Series V) (name : String) : Option (List (Sample V)) :=
  match next.get? name with
  | some samples => some samples
  | none => if name ∈ objectPrototype then none else some []

namespace Monitor

def init : Monitor V := ⟨.empty, .empty⟩

def handleWritten (m : Monitor V) (name : String) (value : V) : Monitor V :=
  { m with values := m.values.set name value }

/-- The stream's callback, none when it throws. -/
def onSnapshot (m : Monitor V) (snapshot : List (VariableValue V)) (t : ℚ) : Option (Monitor V) := do
  let history ← snapshot.foldlM (fun next v => do
    let live ← liveSamples next v.name
    return next.set v.name (sliceLast maxPoints (live ++ [⟨t, v.value⟩]))) m.history
  return ⟨.ofList (snapshot.map (fun v => (v.name, v.value))), history⟩

/-- What the page does with the history response; an empty one is ignored. -/
def onHistory (m : Monitor V) (points : List (HistoryPoint V)) : Option (Monitor V) :=
  if points.isEmpty then some m
  -- `push` of what a fresh object inherits
  else if points.any (fun point => point.values.keys.any (· ∈ objectPrototype)) then none
  else some { m with history := seedHistory m.history points maxPoints }

end Monitor

/-- What arrives from the server. -/
inductive Message (V : Type) where
  | stream (data : StreamData V)
  | history (points : List (RecordedPoint V))

def Monitor.receive (m : Monitor V) : Message V → Option (Monitor V)
  | .stream data => m.onSnapshot data.values (milliseconds data.t)
  | .history points => m.onHistory (getHistory points)

/-- The page after the messages in the order of their arrival, none after it has thrown. -/
def Monitor.after (messages : List (Message V)) : Option (Monitor V) := messages.foldlM Monitor.receive .init

/-! ## Names that no object inherits -/

def Message.names : Message V → List String
  | .stream data => data.values.map VariableValue.name
  | .history points => points.flatMap (fun point => point.values.keys)

/-- No variable of the message is called like a property that objects inherit. -/
def Message.Plain (message : Message V) : Prop := ∀ name ∈ message.names, name ∉ objectPrototype

instance (message : Message V) : Decidable message.Plain :=
  inferInstanceAs (Decidable (∀ name ∈ message.names, name ∉ objectPrototype))

section
variable {next : Series V} {name : String} {live : List (Sample V)}

theorem liveSamples_of_plain (next : Series V) (h : name ∉ objectPrototype) :
    liveSamples next name = some ((next.get? name).getD []) := by
  rw [liveSamples]
  cases next.get? name with
  | none => rw [if_neg h, Option.getD_none]
  | some samples => rfl

theorem liveSamples_of_inherited (hnone : next.get? name = none) (h : name ∈ objectPrototype) :
    liveSamples next name = none := by
  rw [liveSamples, hnone]
  exact if_pos h

theorem liveSamples_eq_some (h : liveSamples next name = some live) : live = (next.get? name).getD [] := by
  rw [liveSamples] at h
  cases hget : next.get? name with
  | none =>
    simp only [hget] at h
    split at h
    · cases h
    · exact (Option.some.inj h).symm
  | some samples =>
    simp only [hget] at h
    exact (Option.some.inj h).symm

end

namespace Monitor

/-- What the stream's callback leaves when it returns. -/
def shows (m : Monitor V) (snapshot : List (VariableValue V)) (t : ℚ) : Monitor V where
  values := .ofList (snapshot.map (fun v => (v.name, v.value)))
  history := snapshot.foldl (fun next v =>
    next.set v.name (sliceLast maxPoints ((next.get? v.name).getD [] ++ [⟨t, v.value⟩]))) m.history

def seeds (m : Monitor V) (points : List (HistoryPoint V)) : Monitor V :=
  if points.isEmpty then m else { m with history := seedHistory m.history points maxPoints }

def received (m : Monitor V) : Message V → Monitor V
  | .stream data => m.shows data.values (milliseconds data.t)
  | .history points => m.seeds (getHistory points)

/-- The series are those of variables. -/
def Plain (m : Monitor V) : Prop := ∀ name ∈ objectPrototype, m.history.get? name = none

theorem plain_init : (init : Monitor V).Plain := fun _ _ => rfl

theorem onSnapshot_of_plain (m : Monitor V) {snapshot : List (VariableValue V)}
    (h : ∀ v ∈ snapshot, v.name ∉ objectPrototype) (t : ℚ) : m.onSnapshot snapshot t = some (m.shows snapshot t) := by
  rw [onSnapshot, foldlM_of_forall (g := fun next v =>
    next.set v.name (sliceLast maxPoints ((next.get? v.name).getD [] ++ [⟨t, v.value⟩])))]
  · rfl
  · intro v hv next
    rw [liveSamples_of_plain next (h v hv)]
    rfl

theorem onSnapshot_eq_some {m m' : Monitor V} {snapshot : List (VariableValue V)} {t : ℚ}
    (h : m.onSnapshot snapshot t = some m') : m' = m.shows snapshot t := by
  obtain ⟨history, hloop, hret⟩ := Option.bind_eq_some_iff.mp h
  have hhistory := eq_foldl_of_foldlM (g := fun next v =>
    next.set v.name (sliceLast maxPoints ((next.get? v.name).getD [] ++ [⟨t, v.value⟩]))) (fun next v next' hnext => by
      obtain ⟨live, hlive, hset⟩ := Option.bind_eq_some_iff.mp hnext
      rw [← liveSamples_eq_some hlive]
      exact (Option.some.inj hset).symm) hloop
  rw [← Option.some.inj hret, hhistory]
  rfl

/-- A name that is only inherited makes the callback throw. -/
theorem onSnapshot_eq_none {m : Monitor V} (hm : m.Plain) {snapshot : List (VariableValue V)} {v : VariableValue V}
    (hv : v ∈ snapshot) (hname : v.name ∈ objectPrototype) (t : ℚ) : m.onSnapshot snapshot t = none := by
  rw [Option.eq_none_iff_forall_not_mem]
  intro m' hm'
  obtain ⟨history, hloop, -⟩ := Option.bind_eq_some_iff.mp hm'
  refine ((foldlM_eq_some_iff (P := fun next : Series V => ∀ name ∈ objectPrototype, next.get? name = none)
    (Q := fun v => v.name ∉ objectPrototype) (g := fun next v =>
      next.set v.name (sliceLast maxPoints ((next.get? v.name).getD [] ++ [⟨t, v.value⟩])))
    (fun next w hnext hw => ⟨?_, fun name hinherited => ?_⟩) (fun next w hnext hw => ?_) hm).mp hloop).1 v hv hname
  · rw [liveSamples_of_plain next hw]
    rfl
  · rw [Dict.get?_set_of_ne _ _ (fun he : name = w.name => hw (he ▸ hinherited))]
    exact hnext name hinherited
  · rw [liveSamples_of_inherited (hnext _ (not_not.mp hw)) (not_not.mp hw)]
    rfl

end Monitor

/-! ## One variable's series -/

def Monitor.series (m : Monitor V) (name : String) : List (Sample V) := (m.history.get? name).getD []

/-- The samples of a variable in the stream's events. -/
def streamed (name : String) (data : StreamData V) : List (Sample V) :=
  (data.values.filter (fun v => v.name = name)).map (fun v => ⟨milliseconds data.t, v.value⟩)

/-- The samples of a variable in the history response. -/
def recorded (name : String) (points : List (RecordedPoint V)) : List (Sample V) :=
  points.flatMap (fun point => ((point.values.get? name).toList).map (fun v => ⟨milliseconds point.t, v⟩))

theorem sliceLast_maxPoints {α : Type} (xs : List α) : sliceLast maxPoints xs = xs.rtake maxPoints :=
  if_neg (by decide)

theorem foldl_append_singleton {α : Type} (xs ys : List α) : xs.foldl (fun v x => v ++ [x]) ys = ys ++ xs := by
  induction xs generalizing ys with
  | nil => simp
  | cons x xs ih => simp [ih]

/-- The samples of a variable in the points, in their order. -/
def pointSamples (name : String) (points : List (HistoryPoint V)) : List (Sample V) :=
  points.flatMap (fun point => ((point.values.get? name).toList).map (fun v => ⟨point.t, v⟩))

/-- The loops of `seedHistory` collect the samples of each variable that some point has. -/
theorem get?_byName (points : List (HistoryPoint V)) (name : String) :
    (byName points).get? name =
      if pointSamples name points = [] then none else some (pointSamples name points) := by
  have hflat : byName points =
      (points.flatMap (fun p => p.values.entries.map (fun e => (e.1, (⟨p.t, e.2⟩ : Sample V))))).foldl
        (fun d e => d.set e.1 ((d.get? e.1).getD [] ++ [e.2])) .empty := by
    rw [byName, List.foldl_flatMap]
    simp only [List.foldl_map]
  have hsamples : ((points.flatMap (fun p => p.values.entries.map
      (fun e => (e.1, (⟨p.t, e.2⟩ : Sample V))))).filter (fun e => e.1 = name)).map Prod.snd =
        pointSamples name points := by
    rw [List.filter_flatMap, List.map_flatMap, pointSamples]
    refine List.flatMap_congr (fun p _ => ?_)
    rw [List.filter_map, Function.comp_def, Dict.filter_entries, List.map_map, List.map_map]
    rfl
  have hnone : (points.flatMap (fun p => p.values.entries.map
      (fun e => (e.1, (⟨p.t, e.2⟩ : Sample V))))).filter (fun e => e.1 = name) = [] ↔
        pointSamples name points = [] := by
    rw [← hsamples, List.map_eq_nil_iff]
  rw [hflat, Dict.get?_foldl_update (fun v x => v ++ [x]), hsamples, foldl_append_singleton, Dict.get?_empty]
  simp only [hnone, Option.getD_none, List.nil_append]

theorem samples_byName (points : List (RecordedPoint V)) (name : String) :
    ((byName (getHistory points)).get? name).getD [] = recorded name points := by
  have hrecorded : pointSamples name (getHistory points) = recorded name points := by
    rw [pointSamples, getHistory, List.flatMap_map, recorded]
  rw [get?_byName, hrecorded]
  split
  · next hnone => rw [hnone, Option.getD_none]
  · rfl

namespace Monitor

theorem series_stream (m : Monitor V) (data : StreamData V) (name : String) :
    (m.received (.stream data)).series name = (streamed name data).foldl (push maxPoints) (m.series name) := by
  have hloop : (m.received (.stream data)).history =
      (data.values.map (fun v => (v.name, (⟨milliseconds data.t, v.value⟩ : Sample V)))).foldl
        (fun d e => d.set e.1 (push maxPoints ((d.get? e.1).getD []) e.2)) m.history := by
    rw [received, shows, List.foldl_map]
    simp only [sliceLast_maxPoints, push]
  rw [series, hloop, Dict.getD_foldl_update (push maxPoints), List.filter_map, List.map_map]
  rfl

/-- The response grafts the recorded samples under the live ones. -/
theorem series_history (m : Monitor V) (points : List (RecordedPoint V)) (name : String)
    (h : (m.series name).length ≤ maxPoints) :
    (m.received (.history points)).series name =
      graft Sample.t maxPoints (recorded name points) (m.series name) := by
  have hgraft (live samples : List (Sample V)) :
      seeded maxPoints live samples = graft Sample.t maxPoints samples live := by
    cases live <;> exact sliceLast_maxPoints _
  have hnone : graft Sample.t maxPoints [] (m.series name) = m.series name := by
    rw [graft, show older Sample.t [] (m.series name) = [] by cases m.series name <;> rfl, List.nil_append,
      rtake_of_length_le h]
  rw [received, seeds]
  split
  · next hempty =>
    have hpoints : points = [] := by simpa [getHistory] using hempty
    rw [hpoints]
    exact hnone.symm
  · rw [series, seedHistory, Dict.getD_foldl_update (seeded maxPoints), Dict.filter_entries,
      ← samples_byName points name]
    cases (byName (getHistory points)).get? name with
    | none =>
      rw [Option.toList_none, List.map_nil, List.map_nil, List.foldl_nil, Option.getD_none]
      exact hnone.symm
    | some samples =>
      rw [Option.toList_some, List.map_singleton, List.map_singleton, List.foldl_cons, List.foldl_nil,
        Option.getD_some]
      exact hgraft _ samples

/-! ## Runs -/

theorem plain_received {m : Monitor V} (hm : m.Plain) {message : Message V} (h : message.Plain) :
    (m.received message).Plain := by
  intro name hname
  cases message with
  | stream data =>
    refine foldl_invariant (P := fun next : Series V => next.get? name = none) (fun next v hv hnext => ?_) (hm name hname)
    rw [Dict.get?_set_of_ne _ _ (fun he : name = v.name => h v.name (List.mem_map_of_mem hv) (he ▸ hname))]
    exact hnext
  | history points =>
    rw [received, seeds]
    split
    · exact hm name hname
    · refine foldl_invariant (P := fun next : Series V => next.get? name = none) (fun next e he hnext => ?_) (hm name hname)
      have hne : name ≠ e.1 := by
        rintro rfl
        have hsome : (byName (getHistory points)).get? e.1 = some e.2 := Dict.mem_entries.mp he
        rw [get?_byName] at hsome
        split at hsome
        · cases hsome
        · next hsamples =>
          obtain ⟨point, hpoint, hv⟩ : ∃ point ∈ points, point.values.get? e.1 ≠ none := by
            simpa [pointSamples, getHistory] using hsamples
          exact h e.1 (List.mem_flatMap.mpr ⟨point, hpoint, Dict.mem_keys.mpr hv⟩) hname
      rw [Dict.get?_set_of_ne _ _ hne]
      exact hnext

theorem receive_of_plain (m : Monitor V) {message : Message V} (h : message.Plain) :
    m.receive message = some (m.received message) := by
  cases message with
  | stream data => exact onSnapshot_of_plain m (fun v hv => h v.name (List.mem_map_of_mem hv)) _
  | history points =>
    have hfree : ¬ (getHistory points).any (fun point => point.values.keys.any (· ∈ objectPrototype)) = true := by
      rw [List.any_eq_true]
      rintro ⟨point, hpoint, hany⟩
      obtain ⟨name, hname, hinherited⟩ := List.any_eq_true.mp hany
      obtain ⟨recorded, hrecorded, rfl⟩ := List.mem_map.mp hpoint
      exact h name (List.mem_flatMap.mpr ⟨recorded, hrecorded, hname⟩) (of_decide_eq_true hinherited)
    rw [receive, onHistory, received, seeds, if_neg hfree]
    split <;> rfl

theorem receive_eq_none {m : Monitor V} (hm : m.Plain) {message : Message V} (h : ¬ message.Plain) :
    m.receive message = none := by
  rw [Message.Plain] at h
  push Not at h
  obtain ⟨name, hname, hinherited⟩ := h
  cases message with
  | stream data =>
    obtain ⟨v, hv, rfl⟩ := List.mem_map.mp hname
    exact onSnapshot_eq_none hm hv hinherited _
  | history points =>
    obtain ⟨point, hpoint, hkey⟩ := List.mem_flatMap.mp hname
    have hin : (⟨milliseconds point.t, point.values⟩ : HistoryPoint V) ∈ getHistory points := List.mem_map_of_mem hpoint
    have hany : (getHistory points).any (fun point => point.values.keys.any (· ∈ objectPrototype)) = true :=
      List.any_eq_true.mpr ⟨_, hin, List.any_eq_true.mpr ⟨name, hkey, decide_eq_true hinherited⟩⟩
    rw [receive, onHistory, if_neg, if_pos hany]
    rw [List.isEmpty_iff]
    exact List.ne_nil_of_mem hin

theorem receive_eq_some {m m' : Monitor V} {message : Message V} (h : m.receive message = some m') :
    m' = m.received message := by
  cases message with
  | stream data => exact onSnapshot_eq_some h
  | history points =>
    rw [receive, onHistory] at h
    rw [received, seeds]
    split at h
    · next hempty => rw [if_pos hempty, Option.some.inj h]
    · next hempty =>
      rw [if_neg hempty]
      split at h
      · cases h
      · exact (Option.some.inj h).symm

/-- The page lives on exactly while no message carries a name that objects inherit. -/
theorem after_eq_some_iff {messages : List (Message V)} {m : Monitor V} :
    after messages = some m ↔ (∀ message ∈ messages, message.Plain) ∧ m = messages.foldl received init :=
  foldlM_eq_some_iff (fun _ _ hm h => ⟨receive_of_plain _ h, plain_received hm h⟩)
    (fun _ _ hm h => receive_eq_none hm h) plain_init

end Monitor
end Tstlan.Web
