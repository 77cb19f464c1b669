import Mathlib.Data.List.TakeWhile
import Tstlan.Foundations.Dict
import Tstlan.Foundations.Hex

/-! # Flat JSON objects as text

Objects whose values are strings, integers or Booleans. `dumps` writes one with `, ` and `: ` between its
parts and everything outside the printable ASCII range escaped; `loads` reads it back and allows blanks
between the parts. Three theorems are what a line protocol needs: `loads_dumps`, with blanks after the
text, `newline_not_mem_dumps`, and `loads_take_dumps` for a text that was cut off. -/
namespace Foundations
namespace Json
set_option autoImplicit false

inductive Value
  | str (s : String)
  | int (n : ℤ)
  | bool (b : Bool)
  deriving DecidableEq, Repr

/-! ## Writing -/

def hex4 (n : ℕ) : List Char :=
  [Hex.digit (n / 4096 % 16), Hex.digit (n / 256 % 16), Hex.digit (n / 16 % 16), Hex.digit (n % 16)]

def escapeChar (c : Char) : List Char :=
  if c = '"' then ['\\', '"']
  else if c = '\\' then ['\\', '\\']
  else if 32 ≤ c.toNat ∧ c.toNat ≤ 126 then [c]
  else if c = '\n' then ['\\', 'n']
  else if c = '\r' then ['\\', 'r']
  else if c = '\t' then ['\\', 't']
  else if c.toNat = 12 then ['\\', 'f']
  else if c.toNat = 8 then ['\\', 'b']
  else if c.toNat < 0x10000 then '\\' :: 'u' :: hex4 c.toNat
  else
    '\\' :: 'u' :: hex4 (0xd800 + (c.toNat - 0x10000) / 1024) ++
      '\\' :: 'u' :: hex4 (0xdc00 + (c.toNat - 0x10000) % 1024)

def quote (s : String) : List Char := '"' :: s.toList.flatMap escapeChar ++ ['"']

def writeInt : ℤ → List Char
  | .ofNat n => Nat.toDigits 10 n
  | .negSucc n => '-' :: Nat.toDigits 10 (n + 1)

def writeValue : Value → List Char
  | .str s => quote s
  | .int n => writeInt n
  | .bool true => "true".toList
  | .bool false => "false".toList

theorem writeValue_int (n : ℤ) : writeValue (.int n) = writeInt n := rfl

def writeMember (m : String × Value) : List Char := quote m.1 ++ ':' :: ' ' :: writeValue m.2

def writeMembers : List (String × Value) → List Char
  | [] => ['}']
  | [m] => writeMember m ++ ['}']
  | m :: ms => writeMember m ++ ',' :: ' ' :: writeMembers ms

def dumps (d : Dict String Value) : List Char := '{' :: writeMembers d.entries

/-! ## Reading -/

def isBlank (c : Char) : Bool := c = ' ' || c = '\t' || c = '\n' || c = '\r'

def skipBlanks (cs : List Char) : List Char := cs.dropWhile isBlank

def unhex4 (a b c d : Char) : Option ℕ := do
  let a ← Hex.value a
  let b ← Hex.value b
  let c ← Hex.value c
  let d ← Hex.value d
  return 4096 * a + 256 * b + 16 * c + d

def unescape : Char → Option Char
  | '"' => some '"'
  | '\\' => some '\\'
  | '/' => some '/'
  | 'n' => some '\n'
  | 'r' => some '\r'
  | 't' => some '\t'
  | 'f' => some (Char.ofNat 12)
  | 'b' => some (Char.ofNat 8)
  | _ => none

def push (c : Char) (r : Option (List Char × List Char)) : Option (List Char × List Char) :=
  r.map (fun p => (c :: p.1, p.2))

/-- The body of a string, up to its closing quote. -/
def readString : List Char → Option (List Char × List Char)
  | [] => none
  | '"' :: cs => some ([], cs)
  | '\\' :: 'u' :: a :: b :: c :: d :: cs =>
    match unhex4 a b c d with
    | none => none
    | some hi =>
      if 0xd800 ≤ hi ∧ hi < 0xdc00 then
        match cs with
        | '\\' :: 'u' :: a :: b :: c :: d :: cs =>
          match unhex4 a b c d with
          | none => none
          | some lo =>
            if 0xdc00 ≤ lo ∧ lo < 0xe000 then
              push (Char.ofNat (0x10000 + (hi - 0xd800) * 1024 + (lo - 0xdc00))) (readString cs)
            -- a surrogate without its other half is no character
            else none
        | _ => none
      else push (Char.ofNat hi) (readString cs)
  | '\\' :: e :: cs =>
    match unescape e with
    | none => none
    | some c => push c (readString cs)
  | c :: cs => if c.toNat < 32 then none else push c (readString cs)

/-- A run of digits; a leading zero stands alone. -/
def readNat (cs : List Char) : Option (ℕ × List Char) :=
  let ds := cs.takeWhile Char.isDigit
  let n := Nat.ofDigitChars 10 ds 0
  if ds = Nat.toDigits 10 n then some (n, cs.dropWhile Char.isDigit) else none

def readValue : List Char → Option (Value × List Char)
  | '"' :: cs => (readString cs).map (fun p => (.str (String.ofList p.1), p.2))
  | '-' :: cs => (readNat cs).map (fun p => (.int (-p.1), p.2))
  | 't' :: 'r' :: 'u' :: 'e' :: cs => some (.bool true, cs)
  | 'f' :: 'a' :: 'l' :: 's' :: 'e' :: cs => some (.bool false, cs)
  | cs => (readNat cs).map (fun p => (.int p.1, p.2))

def readMember (cs : List Char) : Option ((String × Value) × List Char) :=
  match skipBlanks cs with
  | '"' :: cs =>
    match readString cs with
    | none => none
    | some (key, cs) =>
      match skipBlanks cs with
      | ':' :: cs => (readValue (skipBlanks cs)).map (fun p => ((String.ofList key, p.1), p.2))
      | _ => none
  | _ => none

/-- The members after the opening brace; `fuel` bounds their number. -/
def readMembers : ℕ → List Char → Option (List (String × Value) × List Char)
  | 0, _ => none
  | fuel + 1, cs =>
    match readMember cs with
    | none => none
    | some (m, cs) =>
      match skipBlanks cs with
      | '}' :: cs => some ([m], cs)
      | ',' :: cs => (readMembers fuel cs).map (fun p => (m :: p.1, p.2))
      | _ => none

def loads (text : List Char) : Option (Dict String Value) :=
  match skipBlanks text with
  | '{' :: cs =>
    match skipBlanks cs with
    | '}' :: rest => if skipBlanks rest = [] then some Dict.empty else none
    | cs =>
      match readMembers cs.length cs with
      | none => none
      | some (ms, rest) => if skipBlanks rest = [] then some (Dict.ofList ms) else none
  | _ => none

/-! ## Strings -/

theorem unhex4_hex4 {n : ℕ} (h : n < 0x10000) :
    unhex4 (Hex.digit (n / 4096 % 16)) (Hex.digit (n / 256 % 16)) (Hex.digit (n / 16 % 16))
      (Hex.digit (n % 16)) = some n := by
  have hd (k : ℕ) : Hex.value (Hex.digit (k % 16)) = some (k % 16) :=
    (Hex.value_digit (k % 16) (Nat.mod_lt _ (by omega))).1
  rw [unhex4, hd, hd, hd, hd]
  have hn : 4096 * (n / 4096 % 16) + 256 * (n / 256 % 16) + 16 * (n / 16 % 16) + n % 16 = n := by
    omega
  exact congrArg some hn

theorem readString_hex4 {n : ℕ} (h : n < 0xd800 ∨ 0xdfff < n ∧ n < 0x10000) (rest : List Char) :
    readString ('\\' :: 'u' :: hex4 n ++ rest) = push (Char.ofNat n) (readString rest) := by
  simp only [hex4, List.cons_append, List.nil_append, readString]
  rw [unhex4_hex4 (by omega)]
  simp only
  rw [if_neg (by omega)]

theorem readString_pair {hi lo : ℕ} (hhi : 0xd800 ≤ hi ∧ hi < 0xdc00)
    (hlo : 0xdc00 ≤ lo ∧ lo < 0xe000) (rest : List Char) :
    readString ('\\' :: 'u' :: hex4 hi ++ '\\' :: 'u' :: hex4 lo ++ rest) =
      push (Char.ofNat (0x10000 + (hi - 0xd800) * 1024 + (lo - 0xdc00))) (readString rest) := by
  simp only [hex4, List.cons_append, List.nil_append, readString]
  rw [unhex4_hex4 (by omega)]
  simp only
  rw [if_pos hhi, unhex4_hex4 (by omega)]
  simp only
  rw [if_pos hlo]

/-- One escaped character in front of any text is read as that character. -/
theorem readString_escapeChar (c : Char) (rest : List Char) :
    readString (escapeChar c ++ rest) = push c (readString rest) := by
  unfold escapeChar
  by_cases hquote : c = '"'
  · rw [if_pos hquote, hquote]
    rfl
  by_cases hback : c = '\\'
  · rw [if_neg hquote, if_pos hback, hback]
    rfl
  rw [if_neg hquote, if_neg hback]
  by_cases hplain : 32 ≤ c.toNat ∧ c.toNat ≤ 126
  · rw [if_pos hplain]
    show readString (c :: rest) = _
    rw [readString.eq_def]
    split
    · next h => cases h
    · next h => exact absurd (List.cons.inj h).1 hquote
    · next h => exact absurd (List.cons.inj h).1 hback
    · next h => exact absurd (List.cons.inj h).1 hback
    · next d ds _ _ _ h =>
      obtain ⟨rfl, rfl⟩ := List.cons.inj h
      rw [if_neg (by omega)]
  rw [if_neg hplain]
  by_cases hn : c = '\n'
  · rw [if_pos hn, hn]
    rfl
  by_cases hr : c = '\r'
  · rw [if_neg hn, if_pos hr, hr]
    rfl
  by_cases ht : c = '\t'
  · rw [if_neg hn, if_neg hr, if_pos ht, ht]
    rfl
  rw [if_neg hn, if_neg hr, if_neg ht]
  by_cases hf : c.toNat = 12
  · have hc : Char.ofNat 12 = c := by rw [← hf, Char.ofNat_toNat]
    rw [if_pos hf, ← hc]
    rfl
  by_cases hb : c.toNat = 8
  · have hc : Char.ofNat 8 = c := by rw [← hb, Char.ofNat_toNat]
    rw [if_neg hf, if_pos hb, ← hc]
    rfl
  rw [if_neg hf, if_neg hb]
  have hvalid : c.toNat < 0xd800 ∨ 0xdfff < c.toNat ∧ c.toNat < 0x110000 := c.valid
  by_cases hbmp : c.toNat < 0x10000
  · rw [if_pos hbmp, readString_hex4 (by omega), Char.ofNat_toNat]
  · have hsum : 0x10000 + (0xd800 + (c.toNat - 0x10000) / 1024 - 0xd800) * 1024 +
        (0xdc00 + (c.toNat - 0x10000) % 1024 - 0xdc00) = c.toNat := by omega
    rw [if_neg hbmp, readString_pair (by omega) (by omega), hsum, Char.ofNat_toNat]

theorem readString_escaped (s rest : List Char) :
    readString (s.flatMap escapeChar ++ '"' :: rest) = some (s, rest) := by
  induction s with
  | nil => rfl
  | cons c cs ih =>
    rw [List.flatMap_cons, List.append_assoc, readString_escapeChar, ih]
    rfl

/-! ## Values -/

/-- The text that follows a number does not go on with a digit. -/
def NoDigit (rest : List Char) : Prop := rest.takeWhile Char.isDigit = []

theorem isDigit_toDigits {n : ℕ} {c : Char} (h : c ∈ Nat.toDigits 10 n) : c.isDigit = true :=
  Nat.isDigit_of_mem_toDigits (by omega) (by omega) h

theorem takeWhile_toDigits (n : ℕ) {rest : List Char} (hr : NoDigit rest) :
    (Nat.toDigits 10 n ++ rest).takeWhile Char.isDigit = Nat.toDigits 10 n := by
  rw [List.takeWhile_append_of_pos (fun c hc => isDigit_toDigits hc), hr, List.append_nil]

theorem dropWhile_toDigits (n : ℕ) {rest : List Char} (hr : NoDigit rest) :
    (Nat.toDigits 10 n ++ rest).dropWhile Char.isDigit = rest := by
  have hsplit := List.takeWhile_append_dropWhile (p := Char.isDigit) (l := Nat.toDigits 10 n ++ rest)
  rw [takeWhile_toDigits n hr] at hsplit
  exact List.append_cancel_left hsplit

theorem readNat_toDigits (n : ℕ) {rest : List Char} (hr : NoDigit rest) :
    readNat (Nat.toDigits 10 n ++ rest) = some (n, rest) := by
  have hback : Nat.ofDigitChars 10 (Nat.toDigits 10 n) 0 = n := Nat.ofDigitChars_ten_toDigits
  unfold readNat
  simp only [takeWhile_toDigits n hr, dropWhile_toDigits n hr, hback]
  rfl

theorem toDigits_cons (n : ℕ) : ∃ c cs, Nat.toDigits 10 n = c :: cs ∧ c.isDigit = true := by
  cases h : Nat.toDigits 10 n with
  | nil => exact absurd h Nat.toDigits_ne_nil
  | cons c cs =>
    refine ⟨c, cs, rfl, isDigit_toDigits (n := n) ?_⟩
    rw [h]
    exact List.mem_cons_self

theorem readValue_digit {c : Char} (hc : c.isDigit = true) (cs : List Char) :
    readValue (c :: cs) = (readNat (c :: cs)).map (fun p => (.int p.1, p.2)) := by
  have hne (d : Char) (hd : d.isDigit = false) : c ≠ d := by
    rintro rfl
    rw [hc] at hd
    cases hd
  rw [readValue.eq_def]
  split
  · next h => exact absurd (List.cons.inj h).1 (hne _ (by decide))
  · next h => exact absurd (List.cons.inj h).1 (hne _ (by decide))
  · next h => exact absurd (List.cons.inj h).1 (hne _ (by decide))
  · next h => exact absurd (List.cons.inj h).1 (hne _ (by decide))
  · rfl

theorem readValue_writeValue (v : Value) {rest : List Char} (hr : NoDigit rest) :
    readValue (writeValue v ++ rest) = some (v, rest) := by
  cases v with
  | str s =>
    show (readString (s.toList.flatMap escapeChar ++ ['"'] ++ rest)).map _ = _
    rw [List.append_assoc, List.singleton_append, readString_escaped]
    simp only [Option.map_some, String.ofList_toList]
  | bool b => cases b <;> rfl
  | int n =>
    cases n with
    | ofNat n =>
      obtain ⟨c, cs, hcs, hc⟩ := toDigits_cons n
      have hread := readNat_toDigits n hr
      rw [hcs, List.cons_append] at hread
      rw [writeValue_int, writeInt, hcs, List.cons_append, readValue_digit hc, hread]
      rfl
    | negSucc n =>
      show (readNat (Nat.toDigits 10 (n + 1) ++ rest)).map _ = _
      rw [readNat_toDigits (n + 1) hr]
      rfl

theorem skipBlanks_writeValue (v : Value) (rest : List Char) :
    skipBlanks (writeValue v ++ rest) = writeValue v ++ rest := by
  cases v with
  | str s => rfl
  | bool b => cases b <;> rfl
  | int n =>
    cases n with
    | ofNat n =>
      obtain ⟨c, cs, hcs, hc⟩ := toDigits_cons n
      have hblank : isBlank c = false := by
        by_contra h
        simp only [isBlank, Bool.or_eq_false_iff, decide_eq_false_iff_not, not_and_or, not_not] at h
        rcases h with ((rfl | rfl) | rfl) | rfl <;> cases hc
      rw [writeValue_int, writeInt, hcs, List.cons_append, skipBlanks, List.dropWhile_cons, hblank]
      rfl
    | negSucc n => rfl

/-! ## Objects -/

theorem readMember_writeMember (m : String × Value) {rest : List Char} (hr : NoDigit rest) :
    readMember (writeMember m ++ rest) = some (m, rest) := by
  have hkey : readString (m.1.toList.flatMap escapeChar ++ '"' :: ':' :: ' ' :: (writeValue m.2 ++ rest)) =
      some (m.1.toList, ':' :: ' ' :: (writeValue m.2 ++ rest)) := readString_escaped _ _
  have hvalue : readValue (skipBlanks (' ' :: (writeValue m.2 ++ rest))) = some (m.2, rest) := by
    show readValue (skipBlanks (writeValue m.2 ++ rest)) = _
    rw [skipBlanks_writeValue, readValue_writeValue m.2 hr]
  have hstart : skipBlanks (writeMember m ++ rest) =
      '"' :: (m.1.toList.flatMap escapeChar ++ '"' :: ':' :: ' ' :: (writeValue m.2 ++ rest)) := by
    simp only [writeMember, quote, List.cons_append, List.append_assoc, List.nil_append]
    rfl
  have hcolon (cs : List Char) : skipBlanks (':' :: cs) = ':' :: cs := rfl
  unfold readMember
  rw [hstart]
  simp only
  rw [hkey]
  simp only
  rw [hcolon]
  simp only
  rw [hvalue]
  simp only [Option.map_some, String.ofList_toList]

theorem readMembers_blank (fuel : ℕ) (cs : List Char) :
    readMembers fuel (' ' :: cs) = readMembers fuel cs := by
  cases fuel <;> rfl

theorem readMembers_writeMembers (m : String × Value) (ms : List (String × Value)) (fuel : ℕ)
    (hfuel : ms.length < fuel) (rest : List Char) :
    readMembers fuel (writeMembers (m :: ms) ++ rest) = some (m :: ms, rest) := by
  induction ms generalizing m fuel with
  | nil =>
    obtain ⟨fuel, rfl⟩ : ∃ k, fuel = k + 1 := ⟨fuel - 1, by omega⟩
    have hclose : NoDigit (['}'] ++ rest) := rfl
    rw [writeMembers, List.append_assoc, readMembers, readMember_writeMember m hclose]
    rfl
  | cons m' ms ih =>
    obtain ⟨fuel, rfl⟩ : ∃ k, fuel = k + 1 := ⟨fuel - 1, by omega⟩
    rw [List.length_cons] at hfuel
    have htail := ih m' fuel (by omega)
    have hcomma (cs : List Char) : skipBlanks (',' :: cs) = ',' :: cs := rfl
    have hsep : NoDigit (',' :: ' ' :: (writeMembers (m' :: ms) ++ rest)) := rfl
    rw [writeMembers, List.append_assoc, List.cons_append, List.cons_append, readMembers,
      readMember_writeMember m hsep]
    simp only
    rw [hcomma]
    simp only
    rw [readMembers_blank, htail]
    rfl
    simp

theorem length_le_writeMembers (ms : List (String × Value)) : ms.length < (writeMembers ms).length := by
  induction ms with
  | nil => simp [writeMembers]
  | cons m ms ih =>
    cases ms with
    | nil => simp [writeMembers, writeMember, quote]
    | cons m' ms =>
      rw [writeMembers]
      simp only [List.length_append, List.length_cons] at ih ⊢
      omega
      simp

/-- Reading back what was written, with any blanks after it. -/
theorem loads_dumps (d : Dict String Value) {blanks : List Char} (h : skipBlanks blanks = []) :
    loads (dumps d ++ blanks) = some d := by
  have hbrace (cs : List Char) : skipBlanks ('{' :: cs) = '{' :: cs := rfl
  unfold loads
  rw [dumps, List.cons_append, hbrace]
  simp only
  cases hd : d.entries with
  | nil =>
    have hclose (cs : List Char) : skipBlanks ('}' :: cs) = '}' :: cs := rfl
    rw [writeMembers, List.singleton_append, hclose]
    simp only
    rw [if_pos h]
    exact congrArg some (Dict.ext hd.symm)
  | cons m ms =>
    have hlen := length_le_writeMembers (m :: ms)
    have hread := readMembers_writeMembers m ms (writeMembers (m :: ms) ++ blanks).length
      (by rw [List.length_append]; rw [List.length_cons] at hlen; omega) blanks
    obtain ⟨cs, hcs⟩ : ∃ cs, writeMembers (m :: ms) ++ blanks = '"' :: cs := by
      cases ms <;> exact ⟨_, rfl⟩
    have hquote : skipBlanks ('"' :: cs) = '"' :: cs := rfl
    rw [hcs] at hread ⊢
    rw [hquote]
    show (match readMembers ('"' :: cs).length ('"' :: cs) with
      | none => none
      | some (ms, rest) => if skipBlanks rest = [] then some (Dict.ofList ms) else none) = some d
    rw [hread]
    simp only
    rw [if_pos h, ← hd, Dict.ofList_entries]

/-- An object with one member and no blanks, as `JSON.stringify` writes it. -/
def compact (key : String) (value : List Char) : List Char := '{' :: (quote key ++ ':' :: (value ++ ['}']))

theorem loads_compact (key : String) (v : Value) :
    loads (compact key (writeValue v)) = some (Dict.ofList [(key, v)]) := by
  have hclose : NoDigit ['}'] := rfl
  have hkey : readString (key.toList.flatMap escapeChar ++ '"' :: ':' :: (writeValue v ++ ['}'])) =
      some (key.toList, ':' :: (writeValue v ++ ['}'])) := readString_escaped _ _
  have htext : quote key ++ ':' :: (writeValue v ++ ['}']) =
      '"' :: (key.toList.flatMap escapeChar ++ '"' :: ':' :: (writeValue v ++ ['}'])) := by
    simp only [quote, List.cons_append, List.append_assoc, List.nil_append]
  have hmember : readMember (quote key ++ ':' :: (writeValue v ++ ['}'])) = some ((key, v), ['}']) := by
    have hquote (cs : List Char) : skipBlanks ('"' :: cs) = '"' :: cs := rfl
    have hcolon (cs : List Char) : skipBlanks (':' :: cs) = ':' :: cs := rfl
    rw [htext]
    unfold readMember
    rw [hquote]
    simp only
    rw [hkey]
    simp only
    rw [hcolon]
    simp only
    rw [skipBlanks_writeValue, readValue_writeValue v hclose, Option.map_some, String.ofList_toList]
  obtain ⟨cs, hcs⟩ : ∃ cs, quote key ++ ':' :: (writeValue v ++ ['}']) = '"' :: cs := ⟨_, htext⟩
  have hread : readMembers ('"' :: cs).length ('"' :: cs) = some ([(key, v)], []) := by
    rw [← hcs, List.length_append, List.length_cons, ← Nat.add_assoc, readMembers, hmember]
    rfl
  rw [compact, hcs]
  show (match readMembers ('"' :: cs).length ('"' :: cs) with
    | none => none
    | some (ms, rest) => if skipBlanks rest = [] then some (Dict.ofList ms) else none) = _
  rw [hread]
  rfl

/-! ## Characters that do not occur -/

/-- No escape sequence is written with the character. -/
def Unescaping (x : Char) : Prop := (∀ n < 16, Hex.digit n ≠ x) ∧ x ∉ ['"', '\\', 'n', 'r', 't', 'f', 'b', 'u']

theorem unescaping_newline : Unescaping '\n' := ⟨by decide, by decide⟩

theorem unescaping_brace : Unescaping '}' := ⟨by decide, by decide⟩

theorem not_mem_hex4 {x : Char} (hx : Unescaping x) (n : ℕ) : x ∉ hex4 n := by
  have hd (k : ℕ) : x ≠ Hex.digit (k % 16) := (hx.1 _ (Nat.mod_lt _ (by omega))).symm
  simp only [hex4, List.mem_cons, List.not_mem_nil, or_false, not_or]
  exact ⟨hd _, hd _, hd _, hd _⟩

theorem not_mem_ite {α : Type} {p : Prop} [Decidable p] {x : α} {as bs : List α} (ha : p → x ∉ as)
    (hb : ¬p → x ∉ bs) : x ∉ if p then as else bs := by
  split
  · exact ha ‹p›
  · exact hb ‹¬p›

/-- An unescaped character stands for itself only. -/
theorem not_mem_escapeChar {x c : Char} (hx : Unescaping x) (hc : 32 ≤ c.toNat → c ≠ x) : x ∉ escapeChar c := by
  have hhex := not_mem_hex4 hx
  have hletters := hx.2
  simp only [List.mem_cons, List.not_mem_nil, or_false, not_or] at hletters
  unfold escapeChar
  refine not_mem_ite (fun _ => by simp [hletters]) fun _ => ?_
  refine not_mem_ite (fun _ => by simp [hletters]) fun _ => ?_
  refine not_mem_ite (fun hplain => ?_) fun _ => ?_
  · rw [List.mem_singleton]
    exact (hc hplain.1).symm
  refine not_mem_ite (fun _ => by simp [hletters]) fun _ => ?_
  refine not_mem_ite (fun _ => by simp [hletters]) fun _ => ?_
  refine not_mem_ite (fun _ => by simp [hletters]) fun _ => ?_
  refine not_mem_ite (fun _ => by simp [hletters]) fun _ => ?_
  refine not_mem_ite (fun _ => by simp [hletters]) fun _ => ?_
  refine not_mem_ite (fun _ => ?_) fun _ => ?_
  · simp [hhex, hletters]
  · simp [hhex, hletters]

theorem not_mem_quote {x : Char} (hx : Unescaping x) {s : String} (hs : ∀ c ∈ s.toList, 32 ≤ c.toNat → c ≠ x) :
    x ∉ quote s := by
  have hquote : x ≠ '"' := fun h => hx.2 (by rw [h]; exact List.mem_cons_self)
  simp only [quote, List.cons_append, List.mem_cons, List.mem_append, List.mem_flatMap, not_or,
    not_exists, not_and]
  exact ⟨hquote, fun c hc => not_mem_escapeChar hx (hs c hc), hquote, List.not_mem_nil⟩

/-! ## One line -/

theorem newline_not_mem_quote (s : String) : '\n' ∉ quote s := by
  refine not_mem_quote unescaping_newline (fun c _ hplain => ?_)
  rintro rfl
  exact absurd hplain (by decide)

theorem newline_not_mem_toDigits (n : ℕ) : '\n' ∉ Nat.toDigits 10 n := by
  intro h
  have hd := isDigit_toDigits h
  cases hd

theorem newline_not_mem_writeValue (v : Value) : '\n' ∉ writeValue v := by
  cases v with
  | str s => exact newline_not_mem_quote s
  | bool b => cases b <;> decide
  | int n =>
    cases n with
    | ofNat n => exact newline_not_mem_toDigits n
    | negSucc n =>
      rw [writeValue_int, writeInt, List.mem_cons, not_or]
      exact ⟨by decide, newline_not_mem_toDigits (n + 1)⟩

theorem newline_not_mem_writeMember (m : String × Value) : '\n' ∉ writeMember m := by
  simp only [writeMember, List.mem_append, List.mem_cons, not_or]
  exact ⟨newline_not_mem_quote m.1, by decide, by decide, newline_not_mem_writeValue m.2⟩

theorem newline_not_mem_writeMembers (ms : List (String × Value)) : '\n' ∉ writeMembers ms := by
  induction ms with
  | nil => decide
  | cons m ms ih =>
    have hm := newline_not_mem_writeMember m
    cases ms with
    | nil => simp [writeMembers, hm]
    | cons m' ms =>
      rw [writeMembers]
      · simp [hm, ih]
      · simp

theorem newline_not_mem_dumps (d : Dict String Value) : '\n' ∉ dumps d := by
  rw [dumps, List.mem_cons, not_or]
  exact ⟨by decide, newline_not_mem_writeMembers d.entries⟩

/-! ## A text that is cut off -/

theorem push_eq_some {c : Char} {r : Option (List Char × List Char)} {s rest : List Char}
    (h : push c r = some (s, rest)) : ∃ s', r = some (s', rest) := by
  obtain ⟨⟨s', rest'⟩, hr, heq⟩ := Option.map_eq_some_iff.mp h
  cases heq
  exact ⟨s', hr⟩

theorem readString_suffix (cs : List Char) {s rest : List Char} (h : readString cs = some (s, rest)) : rest <:+ cs := by
  fun_induction readString cs generalizing s with
  | case1 => cases h
  | case2 cs =>
    cases h
    exact List.suffix_cons _ _
  | case3 => cases h
  | case4 => cases h
  | case5 a b c d hi _ _ a' b' c' d' cs lo _ _ ih =>
    obtain ⟨s', hs⟩ := push_eq_some h
    exact (ih hs).trans (List.suffix_append (['\\', 'u', a, b, c, d, '\\', 'u', a', b', c', d']) cs)
  | case6 => cases h
  | case7 => cases h
  | case8 a b c d cs hi _ _ ih =>
    obtain ⟨s', hs⟩ := push_eq_some h
    exact (ih hs).trans (List.suffix_append ['\\', 'u', a, b, c, d] cs)
  | case9 => cases h
  | case10 e cs _ c _ ih =>
    obtain ⟨s', hs⟩ := push_eq_some h
    exact (ih hs).trans (List.suffix_append ['\\', e] cs)
  | case11 => cases h
  | case12 c cs _ _ _ _ ih =>
    obtain ⟨s', hs⟩ := push_eq_some h
    exact (ih hs).trans (List.suffix_cons c cs)

theorem readNat_suffix {cs rest : List Char} {n : ℕ} (h : readNat cs = some (n, rest)) : rest <:+ cs := by
  simp only [readNat] at h
  split at h
  · cases h
    exact List.dropWhile_suffix _
  · cases h

theorem readValue_suffix {cs rest : List Char} {v : Value} (h : readValue cs = some (v, rest)) : rest <:+ cs := by
  unfold readValue at h
  split at h
  · next cs =>
    obtain ⟨⟨s, rest'⟩, hs, heq⟩ := Option.map_eq_some_iff.mp h
    cases heq
    exact (readString_suffix cs hs).trans (List.suffix_cons _ _)
  · next cs =>
    obtain ⟨⟨n, rest'⟩, hn, heq⟩ := Option.map_eq_some_iff.mp h
    cases heq
    exact (readNat_suffix hn).trans (List.suffix_cons _ _)
  · cases h
    exact List.suffix_append ['t', 'r', 'u', 'e'] _
  · cases h
    exact List.suffix_append ['f', 'a', 'l', 's', 'e'] _
  · obtain ⟨⟨n, rest'⟩, hn, heq⟩ := Option.map_eq_some_iff.mp h
    cases heq
    exact readNat_suffix hn

theorem skipBlanks_suffix (cs : List Char) : skipBlanks cs <:+ cs := List.dropWhile_suffix _

theorem readMember_suffix {cs rest : List Char} {m : String × Value} (h : readMember cs = some (m, rest)) :
    rest <:+ cs := by
  unfold readMember at h
  split at h
  · next cs' hquote =>
    split at h
    · cases h
    · next key ds hkey =>
      split at h
      · next es hcolon =>
        obtain ⟨⟨v, rest'⟩, hv, heq⟩ := Option.map_eq_some_iff.mp h
        cases heq
        have hvalue : _ <:+ es := (readValue_suffix hv).trans (skipBlanks_suffix es)
        have hes : es <:+ ds := (List.suffix_cons ':' es).trans (hcolon ▸ skipBlanks_suffix ds)
        have hds : ds <:+ cs' := readString_suffix cs' hkey
        exact hvalue.trans (hes.trans (hds.trans ((List.suffix_cons '"' cs').trans (hquote ▸ skipBlanks_suffix cs))))
      · cases h
  · cases h

/-- The members are read up to a closing brace. -/
theorem brace_mem_of_readMembers {fuel : ℕ} {cs rest : List Char} {ms : List (String × Value)}
    (h : readMembers fuel cs = some (ms, rest)) : '}' ∈ cs := by
  induction fuel generalizing cs ms with
  | zero => cases h
  | succ fuel ih =>
    rw [readMembers] at h
    split at h
    · cases h
    · next m ds hmember =>
      have hds : ds ⊆ cs := (readMember_suffix hmember).subset
      split at h
      · next es hclose =>
        exact hds ((skipBlanks_suffix ds).subset (hclose ▸ List.mem_cons_self))
      · next es hcomma =>
        obtain ⟨⟨ms', rest'⟩, hrest, heq⟩ := Option.map_eq_some_iff.mp h
        cases heq
        exact hds ((skipBlanks_suffix ds).subset (hcomma ▸ List.mem_cons_of_mem _ (ih hrest)))
      · cases h

theorem loads_eq_none {text : List Char} (h : '}' ∉ text) : loads text = none := by
  unfold loads
  split
  · next cs hopen =>
    have hcs : '}' ∉ cs := fun hm => h ((skipBlanks_suffix text).subset (hopen ▸ List.mem_cons_of_mem _ hm))
    split
    · next rest hclose =>
      exact absurd ((skipBlanks_suffix cs).subset (hclose ▸ List.mem_cons_self)) hcs
    · split
      · rfl
      · next hmembers => exact absurd ((skipBlanks_suffix cs).subset (brace_mem_of_readMembers hmembers)) hcs
  · rfl

/-- An object with one member, cut anywhere: without its closing brace it is refused. -/
theorem loads_take_dumps {key : String} {v : Value} (hkey : '}' ∉ key.toList) (hv : '}' ∉ writeValue v)
    {blanks : List Char} (h : skipBlanks blanks = []) (n : ℕ) :
    loads ((dumps (Dict.ofList [(key, v)]) ++ blanks).take n) =
      if n < (dumps (Dict.ofList [(key, v)])).length then none else some (Dict.ofList [(key, v)]) := by
  have hdumps : dumps (Dict.ofList [(key, v)]) = '{' :: writeMember (key, v) ++ ['}'] := rfl
  have hmember : '}' ∉ '{' :: writeMember (key, v) := by
    have hquote : '}' ∉ quote key := not_mem_quote unescaping_brace (fun c hc _ heq => hkey (heq ▸ hc))
    simp only [writeMember, List.mem_cons, List.mem_append, not_or]
    exact ⟨by decide, hquote, by decide, by decide, hv⟩
  by_cases hn : n < (dumps (Dict.ofList [(key, v)])).length
  · rw [if_pos hn]
    apply loads_eq_none
    rw [hdumps, List.length_append, List.length_singleton] at hn
    rw [hdumps, List.append_assoc, List.take_append_of_le_length (by omega)]
    exact fun hm => hmember (List.mem_of_mem_take hm)
  · rw [if_neg hn, List.take_append, List.take_of_length_le (by omega)]
    have hblank := List.dropWhile_eq_nil_iff.mp h
    exact loads_dumps _ (List.dropWhile_eq_nil_iff.mpr (fun c hc => hblank c (List.mem_of_mem_take hc)))

end Json
end Foundations
