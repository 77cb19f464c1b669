import Mathlib.Data.Nat.Notation

/-! # Line framing

A stream is a list of symbols; a line ends after the first terminator. Messages whose bodies are free of
the terminator are framed by appending it: `readLines_flatMap` says that the n-th line read is then the
n-th message written. -/
namespace Foundations
namespace Lines
set_option autoImplicit false

variable {α β : Type} [DecidableEq α]

/-- One line with its terminator, or all that is left, and the rest of the stream. -/
def readLine (terminator : α) : List α → List α × List α
  | [] => ([], [])
  | c :: cs =>
    if c = terminator then ([c], cs)
    else (c :: (readLine terminator cs).1, (readLine terminator cs).2)

def readLines (terminator : α) : ℕ → List α → List (List α) × List α
  | 0, stream => ([], stream)
  | n + 1, stream =>
    let (line, stream) := readLine terminator stream
    let (lines, stream) := readLines terminator n stream
    (line :: lines, stream)

theorem readLine_append {terminator : α} {body : List α} (h : terminator ∉ body) (rest : List α) :
    readLine terminator (body ++ [terminator] ++ rest) = (body ++ [terminator], rest) := by
  induction body with
  | nil => simp [readLine]
  | cons c cs ih =>
    rw [List.mem_cons, not_or] at h
    simp only [List.cons_append, readLine, if_neg (Ne.symm h.1)]
    rw [ih h.2]

/-- The n-th line is the n-th message. -/
theorem readLines_flatMap {terminator : α} {body : β → List α} (messages : List β)
    (h : ∀ m ∈ messages, terminator ∉ body m) (rest : List α) :
    readLines terminator messages.length
        (messages.flatMap (fun m => body m ++ [terminator]) ++ rest) =
      (messages.map (fun m => body m ++ [terminator]), rest) := by
  induction messages with
  | nil => rfl
  | cons m ms ih =>
    rw [List.length_cons, List.flatMap_cons, readLines, List.append_assoc,
      readLine_append (h m List.mem_cons_self)]
    simp only
    rw [ih (fun x hx => h x (List.mem_cons_of_mem _ hx)), List.map_cons]

end Lines
end Foundations
