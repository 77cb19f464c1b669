import Tstlan.Web.Monitor

/-! # The seam between the recorded history and the live stream

The events arrive in their order and the history response at any point among them. A response that comes
after a live sample is cut at it; one that comes first is kept whole, and what it overtook is appended
behind its last point. `increasing_iff_seamless` says when every series stays increasing all the same. -/
namespace Tstlan.Web
open Foundations Foundations.Window
set_option autoImplicit false

variable {V : Type}

/-- The arrival of a history response between two parts of the stream. -/
def delivery (pre : List (StreamData V)) (points : List (RecordedPoint V)) (post : List (StreamData V)) :
    List (Message V) := pre.map .stream ++ .history points :: post.map .stream

namespace Monitor

/-- Every series is strictly increasing in time. -/
def Increasing (m : Monitor V) : Prop :=
  ∀ name samples, m.history.get? name = some samples → samples.Pairwise (fun a b => a.t < b.t)

theorem increasing_iff_series (m : Monitor V) :
    m.Increasing ↔ ∀ name, Window.Increasing Sample.t (m.series name) := by
  refine forall_congr' (fun name => ?_)
  rw [series]
  cases m.history.get? name with
  | none => simp [Window.Increasing]
  | some samples => simp [Window.Increasing]

theorem series_streams (m : Monitor V) (es : List (StreamData V)) (name : String)
    (h : (m.series name).length ≤ maxPoints) :
    ((es.map .stream).foldl received m).series name =
      (m.series name ++ es.flatMap (streamed name)).rtake maxPoints := by
  rw [← foldl_push h]
  clear h
  induction es generalizing m with
  | nil => rfl
  | cons e es ih => rw [List.map_cons, List.foldl_cons, ih, series_stream, List.flatMap_cons, List.foldl_append]

theorem series_after_streams (es : List (StreamData V)) (name : String) :
    ((es.map .stream).foldl received init).series name = (es.flatMap (streamed name)).rtake maxPoints :=
  series_streams init es name (Nat.zero_le _)

theorem series_after_history (pre post : List (StreamData V)) (points : List (RecordedPoint V)) (name : String) :
    ((delivery pre points post).foldl received init).series name =
      (graft Sample.t maxPoints (recorded name points) ((pre.flatMap (streamed name)).rtake maxPoints) ++
        post.flatMap (streamed name)).rtake maxPoints := by
  have hlen : (((pre.map .stream).foldl received init).series name).length ≤ maxPoints := by
    rw [series_after_streams, rtake_length]
    exact min_le_left _ _
  have hgraft : ((((pre.map .stream).foldl received init).received (.history points)).series name) =
      graft Sample.t maxPoints (recorded name points) ((pre.flatMap (streamed name)).rtake maxPoints) := by
    rw [series_history _ points name hlen, series_after_streams]
  have hcap : ((((pre.map .stream).foldl received init).received (.history points)).series name).length ≤ maxPoints := by
    rw [hgraft, graft, rtake_length]
    exact min_le_left _ _
  rw [delivery, List.foldl_append, List.foldl_cons, ← hgraft]
  exact series_streams _ post name hcap

end Monitor

theorem delivery_prefixes (pre post : List (StreamData V)) (points : List (RecordedPoint V))
    (P : List (Message V) → Prop) :
    (∀ messages, messages <+: delivery pre points post → P messages) ↔
      (∀ es, es <+: pre → P (es.map .stream)) ∧ ∀ es, es <+: post → P (delivery pre points es) := by
  constructor
  · intro h
    refine ⟨fun es hes => h _ ?_, fun es hes => h _ ?_⟩
    · exact (hes.map _).trans (List.prefix_append _ _)
    · exact (List.prefix_append_right_inj _).mpr ((List.prefix_cons_inj _).mpr (hes.map _))
  · rintro ⟨hpre, hpost⟩ messages hmessages
    rcases List.prefix_or_prefix_of_prefix hmessages (List.prefix_append (pre.map Message.stream) _) with hle | ⟨rest, rfl⟩
    · obtain ⟨es, hes, rfl⟩ := List.prefix_map_iff.mp hle
      exact hpre es hes
    · rw [delivery, List.prefix_append_right_inj, List.prefix_cons_iff] at hmessages
      rcases hmessages with rfl | ⟨tail, rfl, htail⟩
      · rw [List.append_nil]
        exact hpre pre List.prefix_rfl
      · obtain ⟨es, hes, rfl⟩ := List.prefix_map_iff.mp htail
        exact hpost es hes

theorem t_of_streamed {name : String} {e : StreamData V} {a : Sample V} (h : a ∈ streamed name e) :
    a.t = milliseconds e.t := by
  obtain ⟨v, -, rfl⟩ := List.mem_map.mp h
  rfl

theorem streamed_sorted (name : String) {es : List (StreamData V)} (h : es.Pairwise (fun d e => d.t < e.t)) :
    (es.flatMap (streamed name)).Pairwise (fun a b => a.t ≤ b.t) := by
  refine List.pairwise_flatMap.mpr ⟨fun e _ => ?_, h.imp (fun hde a ha b hb => ?_)⟩
  · exact List.pairwise_of_forall_mem_list
      (fun a ha b hb => by rw [t_of_streamed ha, t_of_streamed hb])
  · rw [t_of_streamed ha, t_of_streamed hb]
    exact milliseconds_mono hde.le

theorem recorded_sorted (name : String) {points : List (RecordedPoint V)}
    (h : points.Pairwise (fun p q => p.t < q.t)) :
    (recorded name points).Pairwise (fun a b => a.t ≤ b.t) := by
  refine List.pairwise_flatMap.mpr ⟨fun p _ => ?_, h.imp (fun hpq a ha b hb => ?_)⟩
  · cases p.values.get? name <;> simp
  · obtain ⟨v, -, rfl⟩ := List.mem_map.mp ha
    obtain ⟨w, -, rfl⟩ := List.mem_map.mp hb
    exact milliseconds_mono hpq.le

/-- The page lives through the delivery, with increasing series after every message of it. -/
def StaysIncreasing (pre : List (StreamData V)) (points : List (RecordedPoint V)) (post : List (StreamData V)) : Prop :=
  ∀ messages, messages <+: delivery pre points post → ∃ m, Monitor.after messages = some m ∧ m.Increasing

theorem staysIncreasing_iff (pre post : List (StreamData V)) (points : List (RecordedPoint V)) :
    StaysIncreasing pre points post ↔ (∀ message ∈ delivery pre points post, message.Plain) ∧
      ∀ messages, messages <+: delivery pre points post → (messages.foldl Monitor.received .init).Increasing := by
  simp only [StaysIncreasing, Monitor.after_eq_some_iff]
  constructor
  · intro h
    obtain ⟨_, ⟨hplain, -⟩, -⟩ := h _ List.prefix_rfl
    refine ⟨hplain, fun messages hmessages => ?_⟩
    obtain ⟨m, ⟨-, rfl⟩, hincreasing⟩ := h messages hmessages
    exact hincreasing
  · rintro ⟨hplain, hincreasing⟩ messages hmessages
    exact ⟨_, ⟨fun message hmessage => hplain message (hmessages.subset hmessage), rfl⟩, hincreasing messages hmessages⟩

/-- The server produces events and points in time order. All series stay increasing exactly if no variable is called
like what every object inherits and, for each variable, no two live samples and no two of the grafted samples fall in the
same millisecond, and a response that came before every live sample has no point later than one that followed. -/
theorem increasing_iff_seamless (pre post : List (StreamData V)) (points : List (RecordedPoint V))
    (hevents : (pre ++ post).Pairwise (fun d e => d.t < e.t))
    (hpoints : points.Pairwise (fun p q => p.t < q.t)) :
    StaysIncreasing pre points post ↔ (∀ message ∈ delivery pre points post, message.Plain) ∧
      ∀ name, Seamless Sample.t maxPoints (pre.flatMap (streamed name)) (recorded name points)
        (post.flatMap (streamed name)) := by
  have hsorted (name : String) := streamed_sorted name hevents
  simp only [List.flatMap_append] at hsorted
  have hgroup (name : String) : ∀ e ∈ pre ++ post, ∀ a ∈ streamed name e, ∀ b ∈ streamed name e, a.t = b.t :=
    fun e _ a ha b hb => (t_of_streamed ha).trans (t_of_streamed hb).symm
  rw [staysIncreasing_iff]
  refine and_congr_right (fun _ => ?_)
  rw [delivery_prefixes]
  simp only [Monitor.increasing_iff_series, Monitor.series_after_streams, Monitor.series_after_history]
  have hwindows (name : String) := windows_increasing_iff (show 2 ≤ maxPoints by decide) (streamed name)
    (hgroup name) (recorded_sorted name hpoints) (hsorted name)
  constructor
  · rintro ⟨hpre, hpost⟩ name
    exact (hwindows name).mp ⟨fun es hes => hpre es hes name, fun es hes => hpost es hes name⟩
  · intro h
    exact ⟨fun es hes name => ((hwindows name).mpr (h name)).1 es hes,
      fun es hes name => ((hwindows name).mpr (h name)).2 es hes⟩

/-! ## A response that overtakes an event -/

/-- `1.5` -/
def overtakenTime : ServerTime := ⟨0x3FF8000000000000, by decide +kernel⟩

/-- `2.5` -/
def laterTime : ServerTime := ⟨0x4004000000000000, by decide +kernel⟩

def sampleEvent (t : ServerTime) : StreamData ℕ := ⟨t, [⟨"voltage", 220⟩]⟩

def samplePoints : List (RecordedPoint ℕ) :=
  [⟨oneSecond, .ofList [("voltage", 220)]⟩, ⟨twoSeconds, .ofList [("voltage", 221)]⟩]

/-- The event of 1.5 s arrives after the response with the points of 1 s and 2 s. -/
theorem overtaken_event_out_of_order : ¬∀ (pre post : List (StreamData ℕ)) (points : List (RecordedPoint ℕ)),
    (pre ++ post).Pairwise (fun d e => d.t < e.t) → points.Pairwise (fun p q => p.t < q.t) →
      StaysIncreasing pre points post := by
  intro h
  obtain ⟨m, hafter, hincreasing⟩ := h [] [sampleEvent overtakenTime] samplePoints (by decide +kernel) (by decide +kernel) _
    List.prefix_rfl
  obtain ⟨-, rfl⟩ := Monitor.after_eq_some_iff.mp hafter
  have hseries := hincreasing "voltage" [⟨1000, 220⟩, ⟨2000, 221⟩, ⟨1500, 220⟩] (by decide +kernel)
  revert hseries
  decide +kernel

/-- The event of 1.5 s arrives before the response, which is cut at it. -/
theorem samplePoints_seamless :
    StaysIncreasing [sampleEvent overtakenTime] samplePoints [sampleEvent laterTime] := by
  refine (increasing_iff_seamless _ _ _ (by decide +kernel) (by decide +kernel)).mpr ⟨by decide +kernel, fun name => ?_⟩
  by_cases hname : name = "voltage"
  · subst hname
    exact ⟨by decide +kernel, by decide +kernel, fun h => absurd h (by decide +kernel)⟩
  · have hlive (t : ServerTime) : streamed name (sampleEvent t) = [] := by simp [streamed, sampleEvent, Ne.symm hname]
    have hpoints : recorded name samplePoints = [] := by
      simp [recorded, samplePoints, Dict.ofList, Dict.get?_set, hname]
    exact ⟨by simp [hlive], by simp [hpoints], by simp [hpoints]⟩

end Tstlan.Web
