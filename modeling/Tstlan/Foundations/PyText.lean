import Mathlib.Data.List.DropRight
import Mathlib.Data.List.Infix
import Mathlib.Data.Nat.Notation
import Tstlan.Foundations.Struct

/-! # Texts and decimal numerals of Python

The parts of the language that look at the tables of Unicode (letter case, the decimal digits of all scripts) are
fields of `Unicode`; of the digits only those of ASCII are fixed. `int` of a text and the texts of integers are
defined over them, with the limit on the number of digits. -/
namespace Foundations
set_option autoImplicit false

/-- What the character tables say. -/
structure Unicode where
  /-- `str.lower`. -/
  lower : List Char → List Char
  /-- The value of a decimal digit of any script (the category `Nd`, which `\d` matches). -/
  digit : Char → Option ℕ
  digit_ascii : ∀ c : Char, c.isDigit = true → digit c = some (c.toNat - '0'.toNat)

namespace PyText

/-! ## Blanks -/

/-- `str.isspace` of one character. -/
def isSpace (c : Char) : Bool :=
  c.toNat ∈ [0x9, 0xA, 0xB, 0xC, 0xD, 0x1C, 0x1D, 0x1E, 0x1F, 0x20, 0x85, 0xA0, 0x1680, 0x2000, 0x2001, 0x2002,
    0x2003, 0x2004, 0x2005, 0x2006, 0x2007, 0x2008, 0x2009, 0x200A, 0x2028, 0x2029, 0x202F, 0x205F, 0x3000]

/-- `str.strip`. -/
def strip (cs : List Char) : List Char := (cs.dropWhile isSpace).rdropWhile isSpace

/-- `needle in text`. -/
def contains (text needle : List Char) : Bool := needle <:+: text

/-! ## Numerals -/

variable (U : Unicode)

/-- The most digits that `int` reads and that `str` writes (`sys.int_info.default_max_str_digits`). -/
def maxStrDigits : ℕ := 4300

def isDecimal (c : Char) : Bool := (U.digit c).isSome

/-- The number that a row of digits writes. -/
def number (ds : List Char) : ℕ := ds.foldl (fun n c => 10 * n + (U.digit c).getD 0) 0

/-- `int` of a row of digits. -/
def intOfDigits (ds : List Char) : Except PyError ℕ :=
  if ds.length ≤ maxStrDigits then .ok (number U ds) else .error .valueError

/-- Digits with single underscores between them; `wanted` where a digit has to follow. -/
def digitRow (wanted : Bool) : List Char → Option (List Char)
  | [] => if wanted then none else some []
  | '_' :: cs => if wanted then none else digitRow true cs
  | c :: cs => if isDecimal U c then (digitRow false cs).map (c :: ·) else none

/-- `int(text)`. -/
def int (cs : List Char) : Except PyError ℤ :=
  let read (negative : Bool) (cs : List Char) : Except PyError ℤ :=
    match digitRow U true cs with
    | none => .error .valueError
    | some ds => (intOfDigits U ds).map (fun n => if negative then -n else n)
  match strip cs with
  | '-' :: cs => read true cs
  | '+' :: cs => read false cs
  | cs => read false cs

theorem isDecimal_of_isDigit {c : Char} (h : c.isDigit = true) : isDecimal U c = true := by
  rw [isDecimal, U.digit_ascii c h]
  rfl

/-- ASCII letters and those of the Russian alphabet, and the digits of ASCII. -/
def cyrillic : Unicode where
  lower cs := cs.map (fun c =>
    if c.toNat = 0x401 then 'ё'
    else if 0x410 ≤ c.toNat ∧ c.toNat ≤ 0x42F then Char.ofNat (c.toNat + 32)
    else c.toLower)
  digit c := if c.isDigit then some (c.toNat - '0'.toNat) else none
  digit_ascii _ h := if_pos h

end PyText
end Foundations
