import Tstlan.Foundations.Json
import Tstlan.Foundations.Numeral
import Mathlib.Data.List.DropRight

/-! # Texts and integral Numbers of JavaScript

A Number has 53 significant bits, at most 1024 bits in all, or is infinite. The ones here are integral; the
negative zero is not told apart from zero, as neither a comparison nor a text tells them apart. `Number(..)`
of an integer literal is the nearest Number, and `String(..)` is its shortest numeral, in exponent form from
`10 ^ 21` on. -/
namespace Foundations
namespace Js
open Numeral
set_option autoImplicit false

/-! ## Texts -/

/-- White space and line terminators, which `trim` removes. -/
def isSpace (c : Char) : Bool :=
  c.toNat ∈ [0x9, 0xA, 0xB, 0xC, 0xD, 0x20, 0xA0, 0x1680, 0x2000, 0x2001, 0x2002, 0x2003, 0x2004, 0x2005,
    0x2006, 0x2007, 0x2008, 0x2009, 0x200A, 0x2028, 0x2029, 0x202F, 0x205F, 0x3000, 0xFEFF]

def trimChars (cs : List Char) : List Char := (cs.dropWhile isSpace).rdropWhile isSpace

def trim (s : String) : String := String.ofList (trimChars s.toList)

/-- `length`: code units of UTF-16. -/
def length (s : String) : ℕ := (s.toList.map (fun c => if 0x10000 ≤ c.toNat then 2 else 1)).sum

theorem trimChars_trimChars (cs : List Char) : trimChars (trimChars cs) = trimChars cs := by
  have hdrop : (trimChars cs).dropWhile isSpace = trimChars cs := by
    rw [trimChars]
    cases hcs : cs.dropWhile isSpace with
    | nil => rfl
    | cons c rest =>
      have hc : isSpace c = false := by
        have h := List.head_dropWhile_not isSpace (l := cs) (by rw [hcs]; exact List.cons_ne_nil c rest)
        simpa only [hcs, List.head_cons] using h
      obtain hnil | ⟨t, ht, -⟩ := List.prefix_cons_iff.mp (List.rdropWhile_prefix isSpace (l := c :: rest))
      · rw [hnil, List.dropWhile_nil]
      · rw [ht, List.dropWhile_cons_of_neg (by simp [hc])]
  rw [trimChars, hdrop, trimChars, List.rdropWhile_idempotent]

/-- A text without blanks is not changed. -/
theorem trimChars_of_solid {cs : List Char} (h : ∀ c ∈ cs, isSpace c = false) : trimChars cs = cs := by
  have hdrop : cs.dropWhile isSpace = cs := by
    cases cs with
    | nil => rfl
    | cons c cs =>
      have hc := h c List.mem_cons_self
      exact List.dropWhile_cons_of_neg (by simp [hc])
  rw [trimChars, hdrop, List.rdropWhile_eq_self_iff]
  intro hne
  simp [h _ (List.getLast_mem hne)]

@[simp] theorem trim_trim (s : String) : trim (trim s) = trim s := by
  rw [trim, trim, String.toList_ofList, trimChars_trimChars]

/-! ## Numbers -/

def signed (negative : Bool) (n : ℕ) : ℤ := if negative then -n else n

@[simp] theorem natAbs_signed (negative : Bool) (n : ℕ) : (signed negative n).natAbs = n := by
  cases negative <;> simp [signed]

/-- An integral Number. -/
inductive Number
  | integer (n : ℤ) (exact : Exact 53 n.natAbs)
  | infinity (negative : Bool)
  deriving DecidableEq

namespace Number

/-- The Number nearest to an integer of this sign and magnitude. -/
def ofMagnitude (negative : Bool) (n : ℕ) : Number :=
  if (nearest 53 n).size ≤ 1024 then
    .integer (signed negative (nearest 53 n)) (by
      rw [natAbs_signed]
      exact exact_nearest (by omega) n)
  else .infinity negative

def ofInt (n : ℤ) : Number := ofMagnitude (n < 0) n.natAbs

/-- `x < c` for an integer `c` that is a Number itself. -/
def lt (x : Number) (c : ℤ) : Bool :=
  match x with
  | .integer n _ => n < c
  | .infinity negative => negative

/-- `x > c` for an integer `c` that is a Number itself. -/
def gt (x : Number) (c : ℤ) : Bool :=
  match x with
  | .integer n _ => c < n
  | .infinity negative => ¬ negative

/-- The digits of a numeral with its exponent, as in `1.5e+21`. -/
def exponentForm (n : ℕ) : List Char :=
  let digits := (Nat.toDigits 10 n).rdropWhile (· = '0')
  let exponent := 'e' :: '+' :: Nat.toDigits 10 ((Nat.toDigits 10 n).length - 1)
  match digits with
  | [] => exponent
  | [d] => d :: exponent
  | d :: ds => d :: '.' :: (ds ++ exponent)

def magnitudeText (n : ℕ) : List Char :=
  let numeral := shortest 53 n
  if numeral < 10 ^ 21 then Nat.toDigits 10 numeral else exponentForm numeral

/-- `String(x)`. -/
def text : Number → List Char
  | .integer n _ => if n < 0 then '-' :: magnitudeText n.natAbs else magnitudeText n.natAbs
  | .infinity negative => if negative then "-Infinity".toList else "Infinity".toList

end Number

/-- `/^-?\d+$/`, with the sign and the value of the digits. -/
def integerLiteral : List Char → Option (Bool × ℕ)
  | '-' :: ds => if ds ≠ [] ∧ ds.all Char.isDigit then some (true, Nat.ofDigitChars 10 ds 0) else none
  | ds => if ds ≠ [] ∧ ds.all Char.isDigit then some (false, Nat.ofDigitChars 10 ds 0) else none

/-- `Number(text)` of a text that is an integer literal. -/
def numberOf (cs : List Char) : Option Number :=
  (integerLiteral cs).map (fun l => Number.ofMagnitude l.1 l.2)

/-! ## Literals -/

theorem integerLiteral_of_ne {cs : List Char} (h : cs.head? ≠ some '-') :
    integerLiteral cs =
      if cs ≠ [] ∧ cs.all Char.isDigit then some (false, Nat.ofDigitChars 10 cs 0) else none := by
  rw [integerLiteral.eq_def]
  split
  · simp at h
  · rfl

theorem integerLiteral_toDigits (n : ℕ) : integerLiteral (Nat.toDigits 10 n) = some (false, n) := by
  have hall : (Nat.toDigits 10 n).all Char.isDigit = true :=
    List.all_eq_true.mpr (fun c hc => Json.isDigit_toDigits hc)
  have hhead : (Nat.toDigits 10 n).head? ≠ some '-' := by
    obtain ⟨c, cs, hcs, hc⟩ := Json.toDigits_cons n
    rw [hcs, List.head?_cons]
    rintro ⟨⟩
    exact absurd hc (by decide)
  rw [integerLiteral_of_ne hhead, if_pos ⟨Nat.toDigits_ne_nil, hall⟩, Nat.ofDigitChars_ten_toDigits]

theorem integerLiteral_neg_toDigits (n : ℕ) :
    integerLiteral ('-' :: Nat.toDigits 10 n) = some (true, n) := by
  have hall : (Nat.toDigits 10 n).all Char.isDigit = true :=
    List.all_eq_true.mpr (fun c hc => Json.isDigit_toDigits hc)
  rw [integerLiteral, if_pos ⟨Nat.toDigits_ne_nil, hall⟩, Nat.ofDigitChars_ten_toDigits]

/-- A literal has digits only, after its sign. -/
theorem integerLiteral_eq_none {cs : List Char} {c : Char} (h : c ∈ cs) (hdigit : c.isDigit = false)
    (hsign : c ≠ '-') : integerLiteral cs = none := by
  have hany {ds : List Char} (hc : c ∈ ds) : ¬ (ds ≠ [] ∧ ds.all Char.isDigit = true) := by
    rintro ⟨-, hall⟩
    have := List.all_eq_true.mp hall c hc
    rw [hdigit] at this
    cases this
  rw [integerLiteral.eq_def]
  split
  · next ds => exact if_neg (hany ((List.mem_cons.mp h).resolve_left hsign))
  · exact if_neg (hany h)

theorem solid_of_isDigit {c : Char} (h : c.isDigit = true) : isSpace c = false := by
  have hrange : 48 ≤ c.toNat ∧ c.toNat ≤ 57 := by
    simpa [Char.isDigit, ← Char.toNat_val, UInt32.le_iff_toNat_le] using h
  simp only [isSpace, List.mem_cons, List.not_mem_nil, or_false, decide_eq_false_iff_not]
  omega

theorem solid_toDigits {n : ℕ} {c : Char} (h : c ∈ Nat.toDigits 10 n) : isSpace c = false :=
  solid_of_isDigit (Json.isDigit_toDigits h)

/-! ## Reading a printed Number back -/

namespace Number

theorem ofInt_of_exact {n : ℤ} (hn : Exact 53 n.natAbs) (hsize : n.natAbs.size ≤ 1024) :
    ofInt n = .integer n hn := by
  have hread : nearest 53 n.natAbs = n.natAbs := hn
  have hsign : signed (n < 0) n.natAbs = n := by
    rw [signed]
    split_ifs with hneg
    · have := of_decide_eq_true hneg
      omega
    · have := of_decide_eq_false (Bool.eq_false_iff.mpr hneg)
      omega
  simp only [ofInt, ofMagnitude, hread, if_pos hsize, hsign]

/-- Below `2 ^ 53` there is nothing to round. -/
theorem ofInt_of_lt {n : ℤ} (h : n.natAbs < 2 ^ 53) : ofInt n = .integer n (exact_of_lt h) :=
  ofInt_of_exact (exact_of_lt h) ((Nat.size_le.mpr h).trans (by omega))

/-- From `2 ^ 53` on the rounded magnitude stays there, and the sign is kept. -/
theorem ofInt_of_le {n : ℤ} (h : 2 ^ 53 ≤ n.natAbs) :
    (∃ k hk, ofInt n = .integer k hk ∧ 2 ^ 53 ≤ k.natAbs ∧ (k < 0 ↔ n < 0)) ∨ ofInt n = .infinity (n < 0) := by
  have hbound : 2 ^ 53 ≤ nearest 53 n.natAbs := by
    have hself : Exact 53 (2 ^ 53) := by decide +kernel
    have hmono := nearest_mono (p := 53) (by omega) h
    rwa [hself] at hmono
  rw [ofInt, ofMagnitude]
  split_ifs with hsize
  · have hexact : Exact 53 (signed (n < 0) (nearest 53 n.natAbs)).natAbs := by
      rw [natAbs_signed]
      exact exact_nearest (by omega) n.natAbs
    refine .inl ⟨_, hexact, rfl, ?_, ?_⟩
    · rw [natAbs_signed]
      exact hbound
    · rw [signed]
      by_cases hneg : n < 0
      · rw [decide_eq_true hneg, if_pos rfl]
        omega
      · rw [decide_eq_false hneg, if_neg (by decide)]
        omega
  · exact .inr rfl

/-- Comparisons with a small integer are not changed by rounding. -/
theorem ofInt_lt {c : ℤ} (hc : c.natAbs < 2 ^ 53) (n : ℤ) : (ofInt n).lt c = decide (n < c) := by
  rcases Nat.lt_or_ge n.natAbs (2 ^ 53) with hsmall | hbig
  · rw [ofInt_of_lt hsmall]
    rfl
  · rcases ofInt_of_le hbig with ⟨k, hk, heq, hlarge, hsign⟩ | heq
    · rw [heq]
      simp only [lt, decide_eq_decide]
      omega
    · rw [heq]
      simp only [lt, decide_eq_decide]
      omega

theorem ofInt_gt {c : ℤ} (hc : c.natAbs < 2 ^ 53) (n : ℤ) : (ofInt n).gt c = decide (c < n) := by
  rcases Nat.lt_or_ge n.natAbs (2 ^ 53) with hsmall | hbig
  · rw [ofInt_of_lt hsmall]
    rfl
  · rcases ofInt_of_le hbig with ⟨k, hk, heq, hlarge, hsign⟩ | heq
    · rw [heq]
      simp only [gt, decide_eq_decide]
      omega
    · rw [heq]
      simp only [gt, decide_eq_true_eq, decide_eq_decide]
      omega

/-- The Numbers that `String` prints as integers. -/
def Plain (x : Number) : Prop := x.lt (10 ^ 21) ∧ x.gt (-10 ^ 21)

instance (x : Number) : Decidable x.Plain := inferInstanceAs (Decidable (_ ∧ _))

theorem plain_integer (n : ℤ) (hn : Exact 53 n.natAbs) : (integer n hn).Plain ↔ n.natAbs < 10 ^ 21 := by
  simp only [Plain, lt, gt, decide_eq_true_eq]
  omega

theorem not_plain_infinity (negative : Bool) : ¬ (infinity negative).Plain := by
  cases negative <;> simp [Plain, lt, gt]

theorem exact_limit : Exact 53 (10 ^ 21) := by decide +kernel

theorem shortest_limit : shortest 53 (10 ^ 21) = 10 ^ 21 := by decide +kernel

theorem magnitudeText_of_lt {n : ℕ} (hn : Exact 53 n) (h : n < 10 ^ 21) :
    magnitudeText n = Nat.toDigits 10 (shortest 53 n) := by
  exact if_pos ((shortest_lt_iff (by omega) hn exact_limit shortest_limit).mpr h)

theorem magnitudeText_of_le {n : ℕ} (hn : Exact 53 n) (h : 10 ^ 21 ≤ n) :
    magnitudeText n = exponentForm (shortest 53 n) := by
  apply if_neg
  rw [shortest_lt_iff (by omega) hn exact_limit shortest_limit]
  omega

theorem mem_exponentForm {n : ℕ} {c : Char} (h : c ∈ exponentForm n) :
    c.isDigit = true ∨ c ∈ ['.', 'e', '+'] := by
  have hdigits {c : Char} (hc : c ∈ (Nat.toDigits 10 n).rdropWhile (· = '0')) : c.isDigit = true :=
    Json.isDigit_toDigits ((List.rdropWhile_prefix _ _).subset hc)
  have hexponent {c : Char}
      (hc : c ∈ 'e' :: '+' :: Nat.toDigits 10 ((Nat.toDigits 10 n).length - 1)) :
      c.isDigit = true ∨ c ∈ ['.', 'e', '+'] := by
    rcases List.mem_cons.mp hc with rfl | hc
    · exact .inr (by decide)
    · rcases List.mem_cons.mp hc with rfl | hc
      · exact .inr (by decide)
      · exact .inl (Json.isDigit_toDigits hc)
  rw [exponentForm] at h
  split at h
  · exact hexponent h
  · next d hd =>
    rcases List.mem_cons.mp h with rfl | h
    · exact .inl (hdigits (by rw [hd]; exact List.mem_cons_self))
    · exact hexponent h
  · next d ds _ hd =>
    rcases List.mem_cons.mp h with rfl | h
    · exact .inl (hdigits (by rw [hd]; exact List.mem_cons_self))
    · rcases List.mem_cons.mp h with rfl | h
      · exact .inr (by decide)
      · rcases List.mem_append.mp h with h | h
        · exact .inl (hdigits (by rw [hd]; exact List.mem_cons_of_mem _ h))
        · exact hexponent h

theorem e_mem_exponentForm (n : ℕ) : 'e' ∈ exponentForm n := by
  rw [exponentForm]
  split <;> simp

theorem solid_of_all {cs : List Char} (h : (cs.all fun c => !isSpace c) = true) {c : Char} (hc : c ∈ cs) :
    isSpace c = false := by
  simpa using List.all_eq_true.mp h c hc

/-- A printed Number has no blanks. -/
theorem solid_text (x : Number) {c : Char} (h : c ∈ x.text) : isSpace c = false := by
  have hmagnitude {n : ℕ} {c : Char} (hc : c ∈ magnitudeText n) : isSpace c = false := by
    rw [magnitudeText] at hc
    split at hc
    · exact solid_toDigits hc
    · rcases mem_exponentForm hc with hdigit | hmem
      · exact solid_of_isDigit hdigit
      · exact solid_of_all (by decide : ['.', 'e', '+'].all (fun c => !isSpace c) = true) hmem
  cases x with
  | integer n hn =>
    rw [text] at h
    split at h
    · rcases List.mem_cons.mp h with rfl | h
      · rfl
      · exact hmagnitude h
    · exact hmagnitude h
  | infinity negative =>
    cases negative
    · exact solid_of_all (by decide : "Infinity".toList.all (fun c => !isSpace c) = true) h
    · exact solid_of_all (by decide : "-Infinity".toList.all (fun c => !isSpace c) = true) h

theorem text_ne_nil (x : Number) : x.text ≠ [] := by
  have hmagnitude (n : ℕ) : magnitudeText n ≠ [] := by
    rw [magnitudeText]
    split
    · exact Nat.toDigits_ne_nil
    · exact List.ne_nil_of_mem (e_mem_exponentForm _)
  cases x with
  | integer n hn =>
    rw [text]
    split
    · exact List.cons_ne_nil _ _
    · exact hmagnitude _
  | infinity negative => cases negative <;> decide

/-- The number behind the printed magnitude. -/
theorem ofMagnitude_shortest {n : ℤ} (hn : Exact 53 n.natAbs) (h : n.natAbs < 10 ^ 21) :
    ofMagnitude (n < 0) (shortest 53 n.natAbs) = .integer n hn := by
  have hread : nearest 53 (shortest 53 n.natAbs) = n.natAbs := nearest_shortest hn
  have hsize : n.natAbs.size ≤ 1024 := by
    have h70 : n.natAbs.size ≤ 70 := Nat.size_le.mpr (h.trans (by decide))
    omega
  rw [← ofInt_of_exact hn hsize, ofInt]
  simp only [ofMagnitude, hread]
  have hself : nearest 53 n.natAbs = n.natAbs := hn
  simp only [hself]

/-- **What `String` prints is read back as the same Number up to `10 ^ 21`, and from there on it is not an
integer literal.** -/
theorem numberOf_text (x : Number) : numberOf x.text = if x.Plain then some x else none := by
  cases x with
  | infinity negative =>
    rw [if_neg (not_plain_infinity negative)]
    cases negative <;> decide
  | integer n hn =>
    by_cases hlt : n.natAbs < 10 ^ 21
    · rw [if_pos ((plain_integer n hn).mpr hlt), text, magnitudeText_of_lt hn hlt, numberOf,
        ← ofMagnitude_shortest hn hlt]
      split_ifs with hneg
      · rw [integerLiteral_neg_toDigits, Option.map_some, decide_eq_true hneg]
      · rw [integerLiteral_toDigits, Option.map_some, decide_eq_false hneg]
    · have hform := magnitudeText_of_le hn (not_lt.mp hlt)
      have he : 'e' ∈ (integer n hn).text := by
        rw [text, hform]
        split_ifs
        · exact List.mem_cons_of_mem _ (e_mem_exponentForm _)
        · exact e_mem_exponentForm _
      rw [if_neg (fun h => hlt ((plain_integer n hn).mp h)), numberOf,
        integerLiteral_eq_none he (by decide) (by decide), Option.map_none]

/-! ## An integer through a Number and back -/

/-- The integer that `String` prints for the Number nearest to `v`. -/
def printed (v : ℤ) : ℤ := signed (v < 0) (shortest 53 (nearest 53 v.natAbs))

theorem signed_ofNat (n : ℕ) : Json.writeInt (signed false n) = Nat.toDigits 10 n := rfl

theorem writeInt_neg {n : ℕ} (h : 0 < n) : Json.writeInt (signed true n) = '-' :: Nat.toDigits 10 n := by
  obtain ⟨k, rfl⟩ : ∃ k, n = k + 1 := ⟨n - 1, by omega⟩
  rfl

theorem numberOf_writeInt (v : ℤ) : numberOf (Json.writeInt v) = some (ofInt v) := by
  cases v with
  | ofNat n =>
    rw [Json.writeInt, numberOf, integerLiteral_toDigits, Option.map_some, ofInt]
    rfl
  | negSucc n =>
    rw [Json.writeInt, numberOf, integerLiteral_neg_toDigits, Option.map_some, ofInt,
      decide_eq_true (Int.negSucc_lt_zero n)]
    rfl

theorem solid_writeInt {v : ℤ} {c : Char} (h : c ∈ Json.writeInt v) : isSpace c = false := by
  cases v with
  | ofNat n => exact solid_toDigits h
  | negSucc n =>
    rcases List.mem_cons.mp h with rfl | h
    · decide
    · exact solid_toDigits h

theorem shortest_pos {n : ℕ} (hn : Exact 53 n) (h : 0 < n) : 0 < shortest 53 n := by
  by_contra hzero
  have hread := nearest_shortest hn
  rw [Nat.eq_zero_of_not_pos hzero, exact_of_lt (Nat.two_pow_pos 53)] at hread
  omega

/-- The words of 64 bits are below every limit of a Number. -/
theorem text_ofInt {v : ℤ} (h : v.natAbs ≤ 2 ^ 64) :
    ∃ k hk, ofInt v = .integer k hk ∧ (ofInt v).text = Json.writeInt (printed v) := by
  have hexact : Exact 53 (nearest 53 v.natAbs) := exact_nearest (by omega) _
  have hle : nearest 53 v.natAbs ≤ 2 ^ 64 := by
    have hself : Exact 53 (2 ^ 64) := by decide +kernel
    have hmono := nearest_mono (p := 53) (by omega) h
    rwa [hself] at hmono
  have hsize : (nearest 53 v.natAbs).size ≤ 1024 := by
    have hlt : (nearest 53 v.natAbs).size ≤ 65 := Nat.size_le.mpr (hle.trans_lt (by decide))
    omega
  have hlimit : nearest 53 v.natAbs < 10 ^ 21 := hle.trans_lt (by decide)
  have hof : ofInt v = .integer (signed (v < 0) (nearest 53 v.natAbs)) (by rwa [natAbs_signed]) := by
    simp only [ofInt, ofMagnitude, if_pos hsize]
  refine ⟨_, _, hof, ?_⟩
  rw [hof, text, natAbs_signed, magnitudeText_of_lt hexact hlimit, printed]
  by_cases hneg : v < 0
  · have hpos : 0 < nearest 53 v.natAbs := by
      have hone : Exact 53 1 := exact_of_lt (by decide)
      have hmono := nearest_mono (p := 53) (by omega) (show 1 ≤ v.natAbs by omega)
      rwa [hone] at hmono
    rw [decide_eq_true hneg, writeInt_neg (shortest_pos hexact hpos), if_pos]
    rw [signed, if_pos rfl]
    omega
  · rw [decide_eq_false hneg, signed_ofNat, if_neg]
    rw [signed, if_neg (by decide)]
    omega

theorem printed_of_exact {v : ℤ} (hv : Exact 53 v.natAbs) : printed v = v ↔ IsShortest 53 v.natAbs := by
  have hread : nearest 53 v.natAbs = v.natAbs := hv
  rw [← shortest_eq_self_iff (by omega) hv, printed, hread, signed]
  by_cases hneg : v < 0
  · rw [decide_eq_true hneg, if_pos rfl]
    omega
  · rw [decide_eq_false hneg, if_neg (by decide)]
    omega

end Number
end Js
end Foundations
