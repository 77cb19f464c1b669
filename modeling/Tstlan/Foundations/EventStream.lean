import Mathlib.Data.List.Basic
import Mathlib.Data.Nat.Notation

/-! # Server-sent events

What the recipient of an event stream makes of its characters, one after another: lines end with `\n`, `\r` or both,
a field line adds to the event that is being built, and an empty line dispatches it. `feed_frames` says what is
dispatched of events that were framed as one data line each, wherever the stream ends. -/
namespace Foundations
namespace EventStream
set_option autoImplicit false

structure Event where
  type : List Char
  data : List Char
  deriving DecidableEq

/-- The line so far, whether it comes after a `\r`, and the buffers of the event. -/
structure Parser where
  line : List Char := []
  afterReturn : Bool := false
  type : List Char := []
  data : List Char := []
  deriving DecidableEq

namespace Parser

/-- A field of the event; `id` and `retry` are about reconnecting. -/
def field (p : Parser) (name value : List Char) : Parser :=
  if name = "event".toList then { p with type := value }
  else if name = "data".toList then { p with data := p.data ++ value ++ ['\n'] }
  else p

def dispatch (p : Parser) : Parser × Option Event :=
  if p.data = [] then ({ p with type := [] }, none)
  else ({ p with type := [], data := [] },
    some ⟨if p.type = [] then "message".toList else p.type, p.data.dropLast⟩)

def dropSpace : List Char → List Char
  | ' ' :: cs => cs
  | cs => cs

/-- The line has ended. -/
def endLine (p : Parser) : Parser × Option Event :=
  let p' := { p with line := [] }
  match p.line with
  | [] => p'.dispatch
  | ':' :: _ => (p', none)
  | line => (p'.field (line.takeWhile (· ≠ ':')) (dropSpace (line.dropWhile (· ≠ ':')).tail), none)

def step (p : Parser) (c : Char) : Parser × Option Event :=
  if c = '\n' ∧ p.afterReturn then ({ p with afterReturn := false }, none)
  else if c = '\n' then { p with afterReturn := false }.endLine
  else if c = '\r' then { p with afterReturn := true }.endLine
  else ({ p with line := p.line ++ [c], afterReturn := false }, none)

/-- The characters, one after another. -/
def feed (p : Parser) : List Char → Parser × List Event
  | [] => (p, [])
  | c :: cs => (((p.step c).1.feed cs).1, (p.step c).2.toList ++ ((p.step c).1.feed cs).2)

end Parser

/-- An event of one line. -/
def frame (data : List Char) : List Char := "data: ".toList ++ data ++ ['\n', '\n']

/-! ## Chunks -/

section
variable (p : Parser)

theorem feed_append (cs ds : List Char) :
    p.feed (cs ++ ds) = (((p.feed cs).1.feed ds).1, (p.feed cs).2 ++ ((p.feed cs).1.feed ds).2) := by
  induction cs generalizing p with
  | nil => simp [Parser.feed]
  | cons c cs ih => simp [Parser.feed, ih]

/-- A chunk after the events of those before it. -/
def Parser.feedChunk (s : Parser × List Event) (chunk : List Char) : Parser × List Event :=
  ((s.1.feed chunk).1, s.2 ++ (s.1.feed chunk).2)

/-- It does not matter how the stream is cut into chunks. -/
theorem foldl_feedChunk (events : List Event) (chunks : List (List Char)) :
    chunks.foldl Parser.feedChunk (p, events) = ((p.feed chunks.flatten).1, events ++ (p.feed chunks.flatten).2) := by
  induction chunks generalizing p events with
  | nil => simp [Parser.feed]
  | cons chunk chunks ih => simp [Parser.feedChunk, ih, feed_append]

end

/-! ## Frames -/

/-- Characters of one line. -/
def InLine (cs : List Char) : Prop := '\n' ∉ cs ∧ '\r' ∉ cs

theorem feed_inLine {cs : List Char} (h : InLine cs) (p : Parser) (hp : p.afterReturn = false) :
    p.feed cs = ({ p with line := p.line ++ cs }, []) := by
  induction cs generalizing p with
  | nil => simp [Parser.feed]
  | cons c cs ih =>
    obtain ⟨hnewline, hreturn⟩ := h
    simp only [List.mem_cons, not_or] at hnewline hreturn
    have hstep : p.step c = ({ p with line := p.line ++ [c] }, none) := by
      unfold Parser.step
      rw [if_neg (fun h => hnewline.1 h.1.symm), if_neg (Ne.symm hnewline.1), if_neg (Ne.symm hreturn.1), hp]
    have hrest := ih ⟨hnewline.2, hreturn.2⟩ { p with line := p.line ++ [c] } hp
    simp only [Parser.feed, hstep, hrest]
    simp

theorem feed_line {cs : List Char} (h : InLine cs) :
    ({} : Parser).feed ("data: ".toList ++ cs ++ ['\n']) = ({ data := cs ++ ['\n'] }, []) := by
  have hline : InLine ("data: ".toList ++ cs) :=
    ⟨by simp [h.1], by simp [h.2]⟩
  rw [feed_append, feed_inLine hline _ rfl]
  rfl

theorem feed_frame {cs : List Char} (h : InLine cs) :
    ({} : Parser).feed (frame cs) = ({}, [⟨"message".toList, cs⟩]) := by
  have hframe : frame cs = ("data: ".toList ++ cs ++ ['\n']) ++ ['\n'] := by simp [frame]
  rw [hframe, feed_append, feed_line h]
  simp [Parser.feed, Parser.step, Parser.endLine, Parser.dispatch]

/-- Nothing is dispatched before the end of a frame. -/
theorem feed_cut {cs ds : List Char} (h : InLine cs) (hinitial : ds <+: frame cs) (hne : ds ≠ frame cs) :
    (({} : Parser).feed ds).2 = [] := by
  have hframe : frame cs = ("data: ".toList ++ cs ++ ['\n']) ++ ['\n'] := by simp [frame]
  have hbefore : ds <+: "data: ".toList ++ cs ++ ['\n'] := by
    rw [hframe] at hinitial hne
    exact (List.prefix_concat_iff.mp hinitial).resolve_left hne
  obtain ⟨rest, hrest⟩ := hbefore
  have hall := feed_line h
  rw [← hrest, feed_append] at hall
  have hevents := congrArg Prod.snd hall
  exact (List.append_eq_nil_iff.mp hevents).1

/-- Of a stream of frames, cut anywhere, those frames are dispatched that are in it. -/
theorem feed_frames (messages : List (List Char)) (h : ∀ m ∈ messages, InLine m) {cs : List Char}
    (hinitial : cs <+: messages.flatMap frame) :
    ∃ k, (messages.take k).flatMap frame <+: cs ∧ (k < messages.length → ¬ (messages.take (k + 1)).flatMap frame <+: cs) ∧
      (({} : Parser).feed cs).2 = (messages.take k).map (fun m => ⟨"message".toList, m⟩) := by
  induction messages generalizing cs with
  | nil =>
    refine ⟨0, List.nil_prefix, fun h => absurd h (by simp), ?_⟩
    rw [List.flatMap_nil, List.prefix_nil] at hinitial
    rw [hinitial]
    rfl
  | cons m ms ih =>
    obtain ⟨hm, hms⟩ := List.forall_mem_cons.mp h
    rw [List.flatMap_cons] at hinitial
    by_cases hwhole : frame m <+: cs
    · obtain ⟨rest, rfl⟩ := hwhole
      obtain ⟨k, hk, hnext, hevents⟩ := ih hms ((List.prefix_append_right_inj _).mp hinitial)
      refine ⟨k + 1, ?_, fun hlt hcut => ?_, ?_⟩
      · rw [List.take_succ_cons, List.flatMap_cons]
        exact (List.prefix_append_right_inj _).mpr hk
      · rw [List.take_succ_cons, List.flatMap_cons] at hcut
        exact hnext (Nat.lt_of_succ_lt_succ hlt) ((List.prefix_append_right_inj _).mp hcut)
      · rw [feed_append, feed_frame hm, hevents]
        rfl
    · have hcut : cs <+: frame m :=
        (List.prefix_or_prefix_of_prefix hinitial (List.prefix_append _ _)).resolve_right hwhole
      refine ⟨0, List.nil_prefix, fun _ hone => hwhole ?_, ?_⟩
      · rw [List.take_succ_cons, List.flatMap_cons] at hone
        exact (List.prefix_append _ _).trans hone
      · rw [feed_cut hm hcut (fun he => hwhole (he ▸ List.prefix_rfl))]
        rfl

end EventStream
end Foundations
