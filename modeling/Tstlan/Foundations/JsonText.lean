import Tstlan.Foundations.Json
import Tstlan.Foundations.JsonValue

/-! # JSON values of any shape as text

`write` puts `, ` and `: ` between the parts and escapes everything outside printable ASCII; numbers that are no
integers are written by a parameter, which may also write what is no JSON number. `read` accepts blanks between the
parts, keeps the last of several members with one key and turns each number by a parameter; `read_write` says what it
makes of a written value, and that it refuses the value when one of its numbers is written as none. -/
namespace Foundations
namespace Json
set_option autoImplicit false

variable {φ ψ : Type}

/-! ## Writing -/

/-- Texts with commas between them, and a closing bracket. -/
def joinedTail (close : Char) : List (List Char) → List Char
  | [] => [close]
  | text :: texts => ',' :: ' ' :: text ++ joinedTail close texts

def joined (close : Char) : List (List Char) → List Char
  | [] => [close]
  | text :: texts => text ++ joinedTail close texts

section
variable (writeFloat : φ → List Char)

mutual

def write : JsonValue φ → List Char
  | .null => "null".toList
  | .bool true => "true".toList
  | .bool false => "false".toList
  | .int n => writeInt n
  | .float x => writeFloat x
  | .str s => quote s
  | .list items => '[' :: joined ']' (writeItems items)
  | .dict members => '{' :: joined '}' (writeDict members)

def writeItems : List (JsonValue φ) → List (List Char)
  | [] => []
  | v :: vs => write v :: writeItems vs

def writeDict : List (String × JsonValue φ) → List (List Char)
  | [] => []
  | (key, v) :: ms => (quote key ++ ':' :: ' ' :: write v) :: writeDict ms

end

end

/-! ## Reading -/

def isNumberChar (c : Char) : Bool := c.isDigit || c ∈ ['-', '+', '.', 'e', 'E']

/-- Digits, at least one. -/
def isDigits (cs : List Char) : Bool := !cs.isEmpty && cs.all Char.isDigit

def isNatural (cs : List Char) : Bool := isDigits cs && (cs.length = 1 || cs.head? ≠ some '0')

def isExponent (cs : List Char) : Bool :=
  match cs with
  | '+' :: cs => isDigits cs
  | '-' :: cs => isDigits cs
  | cs => isDigits cs

/-- What may follow the integer part of a number. -/
def isFraction (cs : List Char) : Bool :=
  let rest := match cs with
    | '.' :: cs => if isDigits (cs.takeWhile Char.isDigit) then some (cs.dropWhile Char.isDigit) else none
    | cs => some cs
  match rest with
  | none => false
  | some [] => true
  | some (c :: cs) => (c = 'e' || c = 'E') && isExponent cs

def isUnsigned (cs : List Char) : Bool :=
  isNatural (cs.takeWhile Char.isDigit) && isFraction (cs.dropWhile Char.isDigit)

/-- The numbers of the grammar. -/
def isNumber (cs : List Char) : Bool :=
  cs.all isNumberChar &&
    match cs with
    | '-' :: cs => isUnsigned cs
    | cs => isUnsigned cs

section
variable {α : Type} (readOne : List Char → Option (α × List Char)) (close : Char)

/-- What follows an element: the end, or a comma and the next element. -/
def readTail : ℕ → List Char → Option (List α × List Char)
  | 0, _ => none
  | fuel + 1, cs =>
    match skipBlanks cs with
    | [] => none
    | c :: cs =>
      if c = close then some ([], cs)
      else if c = ',' then
        match readOne cs with
        | none => none
        | some (x, cs) => (readTail fuel cs).map (fun p => (x :: p.1, p.2))
      else none

/-- The elements after an opening bracket. -/
def readSeq (cs : List Char) : Option (List α × List Char) :=
  if (skipBlanks cs).head? = some close then some ([], (skipBlanks cs).tail)
  else
    match readOne cs with
    | none => none
    | some (x, cs) => (readTail readOne close cs.length cs).map (fun p => (x :: p.1, p.2))

end

/-- A member: a key, a colon and a value. -/
def readPair {α : Type} (readOne : List Char → Option (α × List Char)) (cs : List Char) :
    Option ((String × α) × List Char) :=
  match skipBlanks cs with
  | '"' :: cs =>
    match readString cs with
    | none => none
    | some (key, cs) =>
      match skipBlanks cs with
      | ':' :: cs => (readOne cs).map (fun p => ((String.ofList key, p.1), p.2))
      | _ => none
  | _ => none

section
variable (number : List Char → JsonValue ψ)

def readNumber (cs : List Char) : Option (JsonValue ψ × List Char) :=
  let token := cs.takeWhile isNumberChar
  if isNumber token then some (number token, cs.dropWhile isNumberChar) else none

/-- A value after blanks; `fuel` bounds the depth. -/
def readJson : ℕ → List Char → Option (JsonValue ψ × List Char)
  | 0, _ => none
  | fuel + 1, cs =>
    match skipBlanks cs with
    | '"' :: cs => (readString cs).map (fun p => (.str (String.ofList p.1), p.2))
    | '[' :: cs => (readSeq (readJson fuel) ']' cs).map (fun p => (.list p.1, p.2))
    | '{' :: cs => (readSeq (readPair (readJson fuel)) '}' cs).map (fun p => (.dict (Dict.ofList p.1).entries, p.2))
    | 'n' :: 'u' :: 'l' :: 'l' :: cs => some (.null, cs)
    | 't' :: 'r' :: 'u' :: 'e' :: cs => some (.bool true, cs)
    | 'f' :: 'a' :: 'l' :: 's' :: 'e' :: cs => some (.bool false, cs)
    | cs => readNumber number cs

def parse (text : List Char) : Option (JsonValue ψ) :=
  match readJson number (text.length + 1) text with
  | none => none
  | some (v, rest) => if skipBlanks rest = [] then some v else none

end

/-! ## What is read of what was written -/

section
variable (writeFloat : φ → List Char) (number : List Char → JsonValue ψ)

mutual

/-- The value as it is read; none when a number in it is written as no number. -/
def received : JsonValue φ → Option (JsonValue ψ)
  | .null => some .null
  | .bool b => some (.bool b)
  | .int n => some (number (writeInt n))
  | .float x => if isNumber (writeFloat x) then some (number (writeFloat x)) else none
  | .str s => some (.str s)
  | .list items => (receivedItems items).map .list
  | .dict members => (receivedDict members).map (fun ms => .dict (Dict.ofList ms).entries)

def receivedItems : List (JsonValue φ) → Option (List (JsonValue ψ))
  | [] => some []
  | v :: vs => do
    let w ← received v
    let ws ← receivedItems vs
    return w :: ws

def receivedDict : List (String × JsonValue φ) → Option (List (String × JsonValue ψ))
  | [] => some []
  | (key, v) :: ms => do
    let w ← received v
    let ns ← receivedDict ms
    return (key, w) :: ns

end

/-- A member as it is written. -/
def memberText (m : String × JsonValue φ) : List Char := quote m.1 ++ ':' :: ' ' :: write writeFloat m.2

theorem writeItems_eq (items : List (JsonValue φ)) : writeItems writeFloat items = items.map (write writeFloat) := by
  induction items with
  | nil => simp [writeItems]
  | cons v vs ih => simp [writeItems, ih]

theorem writeDict_eq (members : List (String × JsonValue φ)) :
    writeDict writeFloat members = members.map (memberText writeFloat) := by
  induction members with
  | nil => simp [writeDict]
  | cons m ms ih =>
    cases m
    simp [writeDict, memberText, ih]

theorem receivedItems_eq (items : List (JsonValue φ)) :
    receivedItems writeFloat number items = items.mapM (received writeFloat number) := by
  induction items with
  | nil => simp [receivedItems]
  | cons v vs ih => simp [receivedItems, ih]

theorem receivedDict_eq (members : List (String × JsonValue φ)) :
    receivedDict writeFloat number members =
      members.mapM (fun m => (received writeFloat number m.2).map (fun w => (m.1, w))) := by
  induction members with
  | nil => simp [receivedDict]
  | cons m ms ih =>
    cases m with
    | mk key v => cases h : received writeFloat number v <;> simp [receivedDict, h, ih]

end

/-! ## Numbers -/

/-- The text does not go on with a number. -/
def NoNumber (rest : List Char) : Prop := rest.takeWhile isNumberChar = []

theorem noNumber_cons {c : Char} (h : isNumberChar c = false) (rest : List Char) : NoNumber (c :: rest) := by
  rw [NoNumber, List.takeWhile_cons, h]
  rfl

theorem readNumber_append {number : List Char → JsonValue ψ} {token rest : List Char} (h : isNumber token = true)
    (hrest : NoNumber rest) : readNumber number (token ++ rest) = some (number token, rest) := by
  have hall : ∀ c ∈ token, isNumberChar c = true := by
    unfold isNumber at h
    exact List.all_eq_true.mp (Bool.and_eq_true_iff.mp h).1
  have htake : (token ++ rest).takeWhile isNumberChar = token := by
    rw [List.takeWhile_append_of_pos hall, hrest, List.append_nil]
  have hdrop : (token ++ rest).dropWhile isNumberChar = rest := by
    have hsplit := List.takeWhile_append_dropWhile (p := isNumberChar) (l := token ++ rest)
    rw [htake] at hsplit
    exact List.append_cancel_left hsplit
  unfold readNumber
  simp only [htake, hdrop, if_pos h]

theorem digitChar_ne_zero : ∀ n < 10, 0 < n → [Nat.digitChar n].head? ≠ some '0' := by decide

theorem head_toDigits {n : ℕ} (h : 0 < n) : (Nat.toDigits 10 n).head? ≠ some '0' := by
  induction n using Nat.strongRecOn with
  | ind n ih =>
    by_cases hlt : n < 10
    · rw [Nat.toDigits_of_lt_base hlt]
      exact digitChar_ne_zero n hlt h
    · have hnext : 0 < n / 10 := by omega
      rw [Nat.toDigits_of_base_le (by omega) (by omega), List.head?_append_of_ne_nil _ Nat.toDigits_ne_nil]
      exact ih (n / 10) (by omega) hnext

theorem isNatural_toDigits (n : ℕ) : isNatural (Nat.toDigits 10 n) = true := by
  have hdigits : isDigits (Nat.toDigits 10 n) = true := by
    rw [isDigits, List.all_eq_true.mpr (fun c hc => isDigit_toDigits hc)]
    simp [Nat.toDigits_ne_nil]
  rw [isNatural, hdigits, Bool.true_and, Bool.or_eq_true]
  by_cases hzero : n = 0
  · subst hzero
    exact .inl rfl
  · exact .inr (decide_eq_true (head_toDigits (Nat.pos_of_ne_zero hzero)))

/-- Digits, and what may follow them. -/
theorem isUnsigned_append (n : ℕ) {rest : List Char} (hr : NoDigit rest) :
    isUnsigned (Nat.toDigits 10 n ++ rest) = isFraction rest := by
  rw [isUnsigned, takeWhile_toDigits n hr, dropWhile_toDigits n hr, isNatural_toDigits, Bool.true_and]

theorem isUnsigned_toDigits (n : ℕ) : isUnsigned (Nat.toDigits 10 n) = true := by
  have hnil : NoDigit [] := rfl
  rw [← List.append_nil (Nat.toDigits 10 n), isUnsigned_append n hnil]
  rfl

theorem isNumberChar_of_isDigit {c : Char} (h : c.isDigit = true) : isNumberChar c = true := by
  rw [isNumberChar, h, Bool.true_or]

theorem all_toDigits (n : ℕ) : (Nat.toDigits 10 n).all isNumberChar = true :=
  List.all_eq_true.mpr (fun _ hc => isNumberChar_of_isDigit (isDigit_toDigits hc))

/-- The sign is no part of an unsigned numeral. -/
theorem isNumber_of_isUnsigned {cs : List Char} (hchars : cs.all isNumberChar = true) (h : isUnsigned cs = true) :
    isNumber cs = true := by
  rw [isNumber.eq_def, hchars, Bool.true_and]
  split
  · cases h
  · exact h

theorem isNumber_writeInt (n : ℤ) : isNumber (writeInt n) = true := by
  cases n with
  | ofNat m => exact isNumber_of_isUnsigned (all_toDigits m) (isUnsigned_toDigits m)
  | negSucc m =>
    simp only [writeInt, isNumber, List.all_cons, all_toDigits, isUnsigned_toDigits]
    rfl

/-! ## Sequences -/

section
variable {α ι : Type} {readOne : List Char → Option (α × List Char)} {close : Char} {text : ι → List Char}
  {value : ι → Option α}

/-- A bracket that closes a sequence. -/
def Closes (close : Char) : Prop := isNumberChar close = false ∧ isBlank close = false ∧ close ≠ ','

theorem skipBlanks_of_not_blank {c : Char} (h : isBlank c = false) (cs : List Char) :
    skipBlanks (c :: cs) = c :: cs := by
  rw [skipBlanks, List.dropWhile_cons, h]
  rfl

theorem noNumber_joinedTail (hclose : Closes close) (texts : List (List Char)) (rest : List Char) :
    NoNumber (joinedTail close texts ++ rest) := by
  cases texts with
  | nil => exact noNumber_cons hclose.1 _
  | cons text texts => exact noNumber_cons (by decide) _

theorem length_lt_joinedTail (close : Char) (texts : List (List Char)) :
    texts.length < (joinedTail close texts).length := by
  induction texts with
  | nil => simp [joinedTail]
  | cons text texts ih =>
    simp only [joinedTail, List.length_cons, List.length_append]
    omega

theorem length_lt_joined {texts : List (List Char)} {t : List Char} (h : t ∈ texts) (close : Char) :
    t.length < (joined close texts).length := by
  have htail : ∀ texts : List (List Char), t ∈ texts → t.length < (joinedTail close texts).length := by
    intro texts h
    induction texts with
    | nil => cases h
    | cons text texts ih =>
      simp only [joinedTail, List.length_cons, List.length_append]
      rcases List.mem_cons.mp h with rfl | h
      · omega
      · have := ih h
        omega
  cases texts with
  | nil => cases h
  | cons text texts =>
    have hpos := length_lt_joinedTail close texts
    simp only [joined, List.length_append]
    rcases List.mem_cons.mp h with rfl | h
    · omega
    · have := htail texts h
      omega

theorem readTail_joinedTail (hclose : Closes close) (hblank : ∀ cs, readOne (' ' :: cs) = readOne cs) (items : List ι)
    (hread : ∀ i ∈ items, ∀ r, NoNumber r → readOne (text i ++ r) = (value i).map (fun x => (x, r)))
    {fuel : ℕ} (hfuel : items.length < fuel) (rest : List Char) :
    readTail readOne close fuel (joinedTail close (items.map text) ++ rest) =
      (items.mapM value).map (fun xs => (xs, rest)) := by
  induction items generalizing fuel with
  | nil =>
    obtain ⟨fuel, rfl⟩ : ∃ k, fuel = k + 1 := ⟨fuel - 1, by omega⟩
    simp [readTail, joinedTail, skipBlanks_of_not_blank hclose.2.1]
  | cons i items ih =>
    obtain ⟨fuel, rfl⟩ : ∃ k, fuel = k + 1 := ⟨fuel - 1, by omega⟩
    rw [List.length_cons] at hfuel
    have hfirst := hread i List.mem_cons_self _ (noNumber_joinedTail hclose (items.map text) rest)
    have htail : readTail readOne close fuel (joinedTail close (items.map text) ++ rest) = _ :=
      ih (fun j hj => hread j (List.mem_cons_of_mem _ hj)) (by omega)
    have hcomma (cs : List Char) : skipBlanks (',' :: cs) = ',' :: cs := skipBlanks_of_not_blank (by decide) cs
    rw [List.map_cons, joinedTail, List.append_assoc, List.cons_append, List.cons_append, readTail, hcomma]
    simp only
    rw [if_neg hclose.2.2.symm, if_pos trivial, hblank, hfirst]
    cases hvalue : value i with
    | none => simp [hvalue]
    | some x =>
      simp only [Option.map_some, htail, List.mapM_cons, hvalue, Option.map_map]
      cases items.mapM value <;> rfl

theorem readSeq_joined (hclose : Closes close) (hblank : ∀ cs, readOne (' ' :: cs) = readOne cs) (items : List ι)
    (hread : ∀ i ∈ items, ∀ r, NoNumber r → readOne (text i ++ r) = (value i).map (fun x => (x, r)))
    (hhead : ∀ i ∈ items, ∃ c cs, text i = c :: cs ∧ isBlank c = false ∧ c ≠ close) (rest : List Char) :
    readSeq readOne close (joined close (items.map text) ++ rest) = (items.mapM value).map (fun xs => (xs, rest)) := by
  cases items with
  | nil => simp [readSeq, joined, skipBlanks_of_not_blank hclose.2.1]
  | cons i items =>
    obtain ⟨c, cs, htext, hc, hne⟩ := hhead i List.mem_cons_self
    have hfirst := hread i List.mem_cons_self _ (noNumber_joinedTail hclose (items.map text) rest)
    have hlength : items.length < (joinedTail close (items.map text) ++ rest).length := by
      have hlt := length_lt_joinedTail close (items.map text)
      rw [List.length_map] at hlt
      rw [List.length_append]
      omega
    have htail := readTail_joinedTail hclose hblank items (fun j hj => hread j (List.mem_cons_of_mem _ hj)) hlength rest
    have hstart : (skipBlanks (text i ++ (joinedTail close (items.map text) ++ rest))).head? = some c := by
      rw [htext, List.cons_append, skipBlanks_of_not_blank hc]
      rfl
    rw [List.map_cons, joined, List.append_assoc, readSeq, hstart, if_neg (fun h => hne (Option.some.inj h)), hfirst]
    cases hvalue : value i with
    | none => simp [hvalue]
    | some x =>
      simp only [Option.map_some, htail, List.mapM_cons, hvalue, Option.map_map]
      cases items.mapM value <;> rfl

end

/-! ## Values -/

/-- What is written for a number that JSON does not have. -/
def nonNumbers : List (List Char) := ["NaN".toList, "Infinity".toList, "-Infinity".toList]

/-- Every number is written as one of the grammar, or as one that JSON does not have. -/
def Writes (writeFloat : φ → List Char) : Prop :=
  ∀ x, isNumber (writeFloat x) = true ∨ writeFloat x ∈ nonNumbers

section
variable {writeFloat : φ → List Char} {number : List Char → JsonValue ψ}

theorem readJson_blank (fuel : ℕ) (cs : List Char) : readJson number fuel (' ' :: cs) = readJson number fuel cs := by
  cases fuel <;> rfl

theorem readPair_blank {α : Type} (readOne : List Char → Option (α × List Char)) (cs : List Char) :
    readPair readOne (' ' :: cs) = readPair readOne cs := rfl

theorem not_nonNumber {token : List Char} (h : token ∈ nonNumbers) : isNumber token = false := by
  revert token
  decide

theorem isBlank_of_isNumberChar {c : Char} (h : isNumberChar c = true) : isBlank c = false := by
  by_contra hblank
  simp only [isBlank, Bool.not_eq_false, Bool.or_eq_true, decide_eq_true_eq] at hblank
  rcases hblank with ((rfl | rfl) | rfl) | rfl <;> cases h

/-- Where a number starts, nothing else is read. -/
theorem readJson_number {c : Char} (hc : isNumberChar c = true) (fuel : ℕ) (cs : List Char) :
    readJson number (fuel + 1) (c :: cs) = readNumber number (c :: cs) := by
  have hne (d : Char) (hd : isNumberChar d = false) : c ≠ d := by
    rintro rfl
    rw [hc] at hd
    cases hd
  rw [readJson, skipBlanks_of_not_blank (isBlank_of_isNumberChar hc)]
  split
  · next h => exact absurd (List.cons.inj h).1 (hne _ (by decide))
  · next h => exact absurd (List.cons.inj h).1 (hne _ (by decide))
  · next h => exact absurd (List.cons.inj h).1 (hne _ (by decide))
  · next h => exact absurd (List.cons.inj h).1 (hne _ (by decide))
  · next h => exact absurd (List.cons.inj h).1 (hne _ (by decide))
  · next h => exact absurd (List.cons.inj h).1 (hne _ (by decide))
  · rfl

theorem cons_of_isNumber {token : List Char} (h : isNumber token = true) :
    ∃ c cs, token = c :: cs ∧ isNumberChar c = true := by
  cases token with
  | nil => cases h
  | cons c cs =>
    unfold isNumber at h
    exact ⟨c, cs, rfl, List.all_eq_true.mp (Bool.and_eq_true_iff.mp h).1 c List.mem_cons_self⟩

theorem readJson_token {token rest : List Char} (h : isNumber token = true) (hrest : NoNumber rest) (fuel : ℕ) :
    readJson number (fuel + 1) (token ++ rest) = some (number token, rest) := by
  obtain ⟨c, cs, rfl, hc⟩ := cons_of_isNumber h
  rw [List.cons_append, readJson_number hc, ← List.cons_append, readNumber_append h hrest]

theorem readJson_nonNumber {token : List Char} (h : token ∈ nonNumbers) (rest : List Char) (fuel : ℕ) :
    readJson number (fuel + 1) (token ++ rest) = none := by
  simp only [nonNumbers, List.mem_cons, List.not_mem_nil, or_false] at h
  rcases h with rfl | rfl | rfl <;> rfl

/-- A written value starts neither with a blank nor with a closing bracket. -/
theorem head_write (hwrites : Writes writeFloat) (v : JsonValue φ) :
    ∃ c cs, write writeFloat v = c :: cs ∧ isBlank c = false ∧ c ≠ ']' := by
  have htoken {token : List Char} (h : isNumber token = true) :
      ∃ c cs, token = c :: cs ∧ isBlank c = false ∧ c ≠ ']' := by
    obtain ⟨c, cs, rfl, hc⟩ := cons_of_isNumber h
    refine ⟨c, cs, rfl, isBlank_of_isNumberChar hc, ?_⟩
    rintro rfl
    cases hc
  cases v with
  | null => exact ⟨'n', _, by rw [write]; rfl, by decide, by decide⟩
  | bool b =>
    cases b with
    | true => exact ⟨'t', _, by rw [write]; rfl, by decide, by decide⟩
    | false => exact ⟨'f', _, by rw [write]; rfl, by decide, by decide⟩
  | int n =>
    rw [write]
    exact htoken (isNumber_writeInt n)
  | float x =>
    rw [write]
    rcases hwrites x with h | h
    · exact htoken h
    · simp only [nonNumbers, List.mem_cons, List.not_mem_nil, or_false] at h
      rcases h with h | h | h <;> rw [h]
      · exact ⟨'N', _, rfl, by decide, by decide⟩
      · exact ⟨'I', _, rfl, by decide, by decide⟩
      · exact ⟨'-', _, rfl, by decide, by decide⟩
  | str s => exact ⟨'"', _, by rw [write]; rfl, by decide, by decide⟩
  | list items => exact ⟨'[', _, by rw [write], by decide, by decide⟩
  | dict members => exact ⟨'{', _, by rw [write], by decide, by decide⟩

/-- A member of an object, where its value is read so. -/
theorem readPair_memberText (m : String × JsonValue φ) {fuel : ℕ} {rest : List Char}
    (h : readJson number fuel (write writeFloat m.2 ++ rest) =
      (received writeFloat number m.2).map (fun w => (w, rest))) :
    readPair (readJson number fuel) (memberText writeFloat m ++ rest) =
      ((received writeFloat number m.2).map (fun w => (m.1, w))).map (fun x => (x, rest)) := by
  have hkey : readString (m.1.toList.flatMap escapeChar ++ '"' :: ':' :: ' ' :: (write writeFloat m.2 ++ rest)) =
      some (m.1.toList, ':' :: ' ' :: (write writeFloat m.2 ++ rest)) := readString_escaped _ _
  have hstart : skipBlanks (memberText writeFloat m ++ rest) =
      '"' :: (m.1.toList.flatMap escapeChar ++ '"' :: ':' :: ' ' :: (write writeFloat m.2 ++ rest)) := by
    simp only [memberText, quote, List.cons_append, List.append_assoc, List.nil_append]
    exact skipBlanks_of_not_blank (by decide) _
  have hcolon (cs : List Char) : skipBlanks (':' :: cs) = ':' :: cs := skipBlanks_of_not_blank (by decide) cs
  unfold readPair
  rw [hstart]
  simp only [hkey, hcolon, readJson_blank, h, Option.map_map, String.ofList_toList]
  rfl

theorem readJson_write (hwrites : Writes writeFloat) (fuel : ℕ) :
    ∀ (v : JsonValue φ), (write writeFloat v).length < fuel → ∀ rest, NoNumber rest →
      readJson number fuel (write writeFloat v ++ rest) =
        (received writeFloat number v).map (fun w => (w, rest)) := by
  induction fuel with
  | zero => exact fun v h => absurd h (by omega)
  | succ fuel ih =>
    intro v hfuel rest hrest
    cases v with
    | null => simp only [write, received]; rfl
    | bool b => cases b <;> simp only [write, received] <;> rfl
    | int n =>
      simp only [write, received]
      exact readJson_token (isNumber_writeInt n) hrest fuel
    | float x =>
      simp only [write, received]
      rcases hwrites x with h | h
      · rw [if_pos h, readJson_token h hrest]
        rfl
      · rw [if_neg (by rw [not_nonNumber h]; decide), readJson_nonNumber h]
        rfl
    | str s =>
      simp only [write, received, quote, List.cons_append, List.append_assoc, readJson,
        skipBlanks_of_not_blank (show isBlank '"' = false by decide), List.nil_append, readString_escaped, Option.map_some,
        String.ofList_toList]
    | list items =>
      rw [write, List.length_cons, writeItems_eq] at hfuel
      have hread : ∀ v ∈ items, ∀ r, NoNumber r → readJson number fuel (write writeFloat v ++ r) =
          (received writeFloat number v).map (fun w => (w, r)) := by
        intro v hv
        have hlt := length_lt_joined (List.mem_map_of_mem (f := write writeFloat) hv) ']'
        exact ih v (by omega)
      have hitems := readSeq_joined (show Closes ']' from ⟨by decide, by decide, by decide⟩) (readJson_blank fuel) items hread
        (fun v _ => head_write hwrites v) rest
      simp only [write, received, writeItems_eq, receivedItems_eq, List.cons_append, readJson,
        skipBlanks_of_not_blank (show isBlank '[' = false by decide), hitems, Option.map_map]
      rfl
    | dict members =>
      rw [write, List.length_cons, writeDict_eq] at hfuel
      have hread : ∀ m ∈ members, ∀ r, NoNumber r → readPair (readJson number fuel) (memberText writeFloat m ++ r) =
          ((received writeFloat number m.2).map (fun w => (m.1, w))).map (fun x => (x, r)) := by
        intro m hm r hr
        have hlt := length_lt_joined (List.mem_map_of_mem (f := memberText writeFloat) hm) '}'
        simp only [memberText, List.length_append, List.length_cons] at hlt
        exact readPair_memberText m (ih m.2 (by omega) r hr)
      have hmembers := readSeq_joined (show Closes '}' from ⟨by decide, by decide, by decide⟩) (readPair_blank _) members hread
        (fun m _ => ⟨'"', _, rfl, by decide, by decide⟩) rest
      simp only [write, received, writeDict_eq, receivedDict_eq, List.cons_append, readJson,
        skipBlanks_of_not_blank (show isBlank '{' = false by decide), hmembers, Option.map_map]
      rfl

/-- What is read of a written value, blanks after it or not. -/
theorem parse_write (hwrites : Writes writeFloat) (v : JsonValue φ) {blanks : List Char} (h : skipBlanks blanks = []) :
    parse number (write writeFloat v ++ blanks) = received writeFloat number v := by
  have hblanks : NoNumber blanks := by
    cases blanks with
    | nil => rfl
    | cons c cs =>
      refine noNumber_cons (Bool.eq_false_iff.mpr (fun hc => ?_)) cs
      rw [skipBlanks_of_not_blank (isBlank_of_isNumberChar hc)] at h
      cases h
  unfold parse
  rw [readJson_write hwrites _ v (by rw [List.length_append]; omega) blanks hblanks]
  cases received writeFloat number v with
  | none => rfl
  | some w => exact if_pos h

end

/-! ## One line -/

section
variable {writeFloat : φ → List Char} {x : Char}

theorem not_mem_joined {close : Char} {texts : List (List Char)} (htexts : ∀ t ∈ texts, x ∉ t) (hclose : x ≠ close)
    (hcomma : x ∉ [',', ' ']) : x ∉ joined close texts := by
  simp only [List.mem_cons, List.not_mem_nil, or_false, not_or] at hcomma
  have htail : ∀ texts : List (List Char), (∀ t ∈ texts, x ∉ t) → x ∉ joinedTail close texts := by
    intro texts htexts
    induction texts with
    | nil => simp [joinedTail, hclose]
    | cons t texts ih =>
      obtain ⟨ht, hrest⟩ := List.forall_mem_cons.mp htexts
      simp [joinedTail, hcomma, ht, ih hrest]
  cases texts with
  | nil => simp [joined, hclose]
  | cons t texts =>
    obtain ⟨ht, hrest⟩ := List.forall_mem_cons.mp htexts
    simp [joined, ht, htail texts hrest]

theorem control_not_mem (hx : x.toNat < 32) {cs : List Char} (h : cs.all (fun c => 32 ≤ c.toNat) = true) : x ∉ cs :=
  fun hmem => absurd (of_decide_eq_true (List.all_eq_true.mp h x hmem)) (by omega)

theorem unescaping_control (hx : x.toNat < 32) : Unescaping x := by
  have hdigit : ∀ n < 16, 32 ≤ (Hex.digit n).toNat := by decide
  refine ⟨fun n hn he => ?_, control_not_mem hx rfl⟩
  have := hdigit n hn
  rw [he] at this
  omega

theorem control_not_mem_quote (hx : x.toNat < 32) (s : String) : x ∉ quote s :=
  not_mem_quote (unescaping_control hx) (fun c _ hc he => by
    rw [he] at hc
    omega)

theorem control_not_number (hx : x.toNat < 32) {token : List Char} (h : isNumber token = true) : x ∉ token := by
  intro hmem
  unfold isNumber at h
  have hchar := List.all_eq_true.mp (Bool.and_eq_true_iff.mp h).1 x hmem
  simp only [isNumberChar, Bool.or_eq_true, decide_eq_true_eq] at hchar
  rcases hchar with hdigit | hother
  · have : 48 ≤ x.toNat := (Char.isDigit_iff_toNat.mp hdigit).1
    omega
  · exact control_not_mem hx rfl hother

/-- A control character is never written: a written value stays in its line. -/
theorem control_not_mem_write (hwrites : Writes writeFloat) (hx : x.toNat < 32) (fuel : ℕ) :
    ∀ v : JsonValue φ, (write writeFloat v).length < fuel → x ∉ write writeFloat v := by
  have hplain {c : Char} (hc : 32 ≤ c.toNat) : x ≠ c := by
    rintro rfl
    omega
  have hseparators : x ∉ [',', ' '] := by
    simp [hplain (show 32 ≤ ','.toNat by decide), hplain (show 32 ≤ ' '.toNat by decide)]
  induction fuel with
  | zero => exact fun v h => absurd h (by omega)
  | succ fuel ih =>
    intro v hfuel
    cases v with
    | null => exact control_not_mem hx (by rw [write]; rfl)
    | bool b => cases b <;> exact control_not_mem hx (by rw [write]; rfl)
    | int n =>
      rw [write]
      exact control_not_number hx (isNumber_writeInt n)
    | float y =>
      rw [write]
      rcases hwrites y with h | h
      · exact control_not_number hx h
      · simp only [nonNumbers, List.mem_cons, List.not_mem_nil, or_false] at h
        rcases h with h | h | h <;> exact control_not_mem hx (by rw [h]; rfl)
    | str s =>
      rw [write]
      exact control_not_mem_quote hx s
    | list items =>
      rw [write, List.length_cons, writeItems_eq] at hfuel
      rw [write, writeItems_eq, List.mem_cons, not_or]
      refine ⟨hplain (by decide), not_mem_joined (fun t ht => ?_) (hplain (by decide)) hseparators⟩
      obtain ⟨v, hv, rfl⟩ := List.mem_map.mp ht
      have hlt := length_lt_joined ht ']'
      exact ih v (by omega)
    | dict members =>
      rw [write, List.length_cons, writeDict_eq] at hfuel
      rw [write, writeDict_eq, List.mem_cons, not_or]
      refine ⟨hplain (by decide), not_mem_joined (fun t ht => ?_) (hplain (by decide)) hseparators⟩
      obtain ⟨m, hm, rfl⟩ := List.mem_map.mp ht
      have hlt := length_lt_joined ht '}'
      simp only [memberText, List.length_append, List.length_cons] at hlt
      simp only [memberText, List.mem_append, List.mem_cons, not_or]
      exact ⟨control_not_mem_quote hx m.1, hplain (by decide), hplain (by decide), ih m.2 (by omega)⟩

end

end Json
end Foundations
