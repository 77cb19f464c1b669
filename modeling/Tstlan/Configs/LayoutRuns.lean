import Tstlan.Configs.Layout

/-! # The layout in closed form

The loop of `variable_offsets` carries the previous address and its C type only. A `Cursor` is what these
two stand for: the byte at which the current run of bits has started and the number of its bits so far.
`curOffset_eq_place` is the one step that ties the two together; what the layout looks like is then read
off the cursor. -/
namespace Tstlan
set_option autoImplicit false

/-- `⌈n / 8⌉`: the bytes that `n` bits take. -/
def bitBytes (n : ℕ) : ℕ := (n + 7) / 8

@[simp] theorem bitBytes_zero : bitBytes 0 = 0 := rfl

/-- The first byte of the run of bits the loop is in and the bits of that run so far; outside a run, the
first free byte and no bits. -/
@[ext] structure Cursor where
  byte : ℕ := 0
  bits : ℕ := 0

namespace Cursor

/-- The first byte after everything placed so far. -/
def free (s : Cursor) : ℕ := s.byte + bitBytes s.bits

def place (s : Cursor) (c : NetVarCType) : VarOffset :=
  if c = .BIT then ⟨s.byte + s.bits / 8, some (s.bits % 8)⟩ else ⟨s.free, none⟩

def advance (s : Cursor) (c : NetVarCType) : Cursor :=
  if c = .BIT then ⟨s.byte, s.bits + 1⟩ else ⟨s.free + c.byteSize, 0⟩

def offsets (s : Cursor) : List NetVarCType → List VarOffset
  | [] => []
  | c :: cs => s.place c :: (s.advance c).offsets cs

def after (s : Cursor) (cs : List NetVarCType) : Cursor := cs.foldl advance s

@[simp] theorem place_bit (s : Cursor) :
    s.place .BIT = ⟨s.byte + s.bits / 8, some (s.bits % 8)⟩ := if_pos rfl

@[simp] theorem advance_bit (s : Cursor) : s.advance .BIT = ⟨s.byte, s.bits + 1⟩ := if_pos rfl

theorem place_of_ne {c : NetVarCType} (hc : c ≠ .BIT) (s : Cursor) : s.place c = ⟨s.free, none⟩ :=
  if_neg hc

theorem advance_of_ne {c : NetVarCType} (hc : c ≠ .BIT) (s : Cursor) :
    s.advance c = ⟨s.free + c.byteSize, 0⟩ := if_neg hc

@[simp] theorem after_append (s : Cursor) (cs ds : List NetVarCType) :
    s.after (cs ++ ds) = (s.after cs).after ds := List.foldl_append

@[simp] theorem after_singleton (s : Cursor) (c : NetVarCType) : s.after [c] = s.advance c := rfl

theorem offsets_append (s : Cursor) (cs ds : List NetVarCType) :
    s.offsets (cs ++ ds) = s.offsets cs ++ (s.after cs).offsets ds := by
  induction cs generalizing s with
  | nil => rfl
  | cons c cs ih =>
    rw [List.cons_append, offsets, ih]
    rfl

/-- The bits of a run are numbered through its bytes. -/
theorem offsets_bits (s : Cursor) (n : ℕ) :
    s.offsets (List.replicate n .BIT) =
      (List.range n).map (fun k => ⟨s.byte + (s.bits + k) / 8, some ((s.bits + k) % 8)⟩) := by
  induction n generalizing s with
  | zero => rfl
  | succ n ih =>
    rw [List.replicate_succ, offsets, ih, List.range_succ_eq_map, List.map_cons, List.map_map, place_bit,
      advance_bit]
    congr 1
    apply List.map_congr_left
    intro k hk
    simp [Nat.add_right_comm s.bits 1 k, Nat.add_assoc]

theorem after_bits (s : Cursor) (n : ℕ) :
    s.after (List.replicate n .BIT) = ⟨s.byte, s.bits + n⟩ := by
  induction n generalizing s with
  | zero => rfl
  | succ n ih =>
    have h : s.after (List.replicate (n + 1) .BIT) = (s.advance .BIT).after (List.replicate n .BIT) := rfl
    rw [h, ih, advance_bit, Nat.add_assoc, Nat.add_comm 1 n]

/-- Outside a run the cursor has no bits. -/
theorem bits_after {cs : List NetVarCType} (h : cs.getLast? ≠ some .BIT) :
    (Cursor.after {} cs).bits = 0 := by
  rcases List.eq_nil_or_concat cs with rfl | ⟨cs, c, rfl⟩
  · rfl
  · have hc : c ≠ .BIT := by simpa using h
    rw [List.concat_eq_append, after_append, after_singleton, advance_of_ne hc]

/-! ## The loop carries a cursor -/

/-- `prev`, the previous address with its C type, stands for the cursor. -/
def CarriedBy (s : Cursor) : Option (VarOffset × NetVarCType) → Prop
  | none => s = {}
  | some (o, c) => ∃ t : Cursor, o = t.place c ∧ s = t.advance c

theorem carriedBy_none : CarriedBy {} none := rfl

theorem curOffset_eq_place {s : Cursor} {prev : Option (VarOffset × NetVarCType)} (h : s.CarriedBy prev)
    (c : NetVarCType) : curOffset prev c = s.place c := by
  cases prev with
  | none =>
    have hs : s = {} := h
    by_cases hc : c = .BIT <;> simp [curOffset, place, free, hs, hc]
  | some p =>
    obtain ⟨o, d⟩ := p
    obtain ⟨t, rfl, rfl⟩ := h
    by_cases hboth : d = .BIT ∧ c = .BIT
    · obtain ⟨rfl, rfl⟩ := hboth
      rw [place_bit, advance_bit, place_bit, curOffset_bit_bit rfl]
      split
      · simp only [VarOffset.mk.injEq, Option.some.injEq]
        omega
      · simp only [VarOffset.mk.injEq, Option.some.injEq]
        omega
    · rw [curOffset_fresh hboth]
      by_cases hd : d = .BIT
      · have hc : c ≠ .BIT := fun hc => hboth ⟨hd, hc⟩
        rw [hd, place_bit, advance_bit, place_of_ne hc, if_neg hc]
        simp only [free, bitBytes, NetVarCType.byteSize, VarOffset.mk.injEq, and_true]
        omega
      · rw [place_of_ne hd, advance_of_ne hd]
        by_cases hc : c = .BIT <;> simp [place, free, hc]

theorem offsetsFrom_eq_offsets {s : Cursor} {prev : Option (VarOffset × NetVarCType)}
    (h : s.CarriedBy prev) (vars : List ConfigVar) :
    offsetsFrom prev vars = s.offsets (vars.map ConfigVar.ctype) := by
  induction vars generalizing s prev with
  | nil => rfl
  | cons var vars ih =>
    have hcur := curOffset_eq_place h var.ctype
    have hnext : (s.advance var.ctype).CarriedBy (some (s.place var.ctype, var.ctype)) := ⟨s, rfl, rfl⟩
    rw [offsetsFrom, List.map_cons, offsets, hcur, ih hnext]

end Cursor

theorem variableOffsets_eq_offsets (vars : List ConfigVar) :
    variableOffsets vars = Cursor.offsets {} (vars.map ConfigVar.ctype) :=
  Cursor.offsetsFrom_eq_offsets Cursor.carriedBy_none vars

/-! ## The bytes of a layout -/

/-- Some bit of the byte `b` belongs to the place. -/
def Touches (p : VarOffset × NetVarCType) (b : ℕ) : Prop :=
  p.1.start < 8 * (b + 1) ∧ 8 * b < p.1.stop p.2

/-- The first byte after every place of the list. -/
def firstFree (vars : List ConfigVar) : ℕ :=
  (places none vars).foldl (fun n p => max n (bitBytes (p.1.stop p.2))) 0

/-- The bytes of the non-bits, and those of the runs of bits between them. -/
def layoutBytes (cs : List NetVarCType) : ℕ :=
  ((cs.filter (fun c => c ≠ .BIT)).map NetVarCType.byteSize).sum +
    ((cs.splitOnP (fun c => c ≠ .BIT)).map (fun run => bitBytes run.length)).sum

namespace Cursor

theorem stop_place (s : Cursor) (c : NetVarCType) :
    (s.place c).stop c = if c = .BIT then 8 * s.byte + s.bits + 1 else 8 * (s.free + c.byteSize) := by
  by_cases hc : c = .BIT
  · rw [if_pos hc, hc, place_bit, VarOffset.stop, if_pos rfl]
    simp only [VarOffset.start, Option.getD_some]
    omega
  · rw [if_neg hc, place_of_ne hc, VarOffset.stop, if_neg hc]
    simp only [VarOffset.start, Option.getD_none]
    omega

theorem free_advance (s : Cursor) (c : NetVarCType) :
    (s.advance c).free = max s.free (bitBytes ((s.place c).stop c)) := by
  rw [stop_place]
  by_cases hc : c = .BIT
  · rw [if_pos hc, hc, advance_bit]
    simp only [free, bitBytes]
    omega
  · rw [if_neg hc, advance_of_ne hc]
    simp only [free, bitBytes]
    omega

theorem free_after (s : Cursor) (cs : List NetVarCType) :
    ((s.offsets cs).zip cs).foldl (fun n p => max n (bitBytes (p.1.stop p.2))) s.free =
      (s.after cs).free := by
  induction cs generalizing s with
  | nil => rfl
  | cons c cs ih =>
    rw [offsets, List.zip_cons_cons, List.foldl_cons, ← free_advance]
    exact ih (s.advance c)

/-- A place adds to the bytes in use exactly those it touches. -/
theorem lt_free_advance (s : Cursor) (c : NetVarCType) (b : ℕ) :
    b < (s.advance c).free ↔ b < s.free ∨ Touches (s.place c, c) b := by
  have hpos := c.byteSize_pos
  rw [Touches, stop_place]
  by_cases hc : c = .BIT
  · rw [if_pos hc, hc, advance_bit, place_bit]
    simp only [free, bitBytes, VarOffset.start, Option.getD_some]
    omega
  · rw [if_neg hc, advance_of_ne hc, place_of_ne hc]
    simp only [free, bitBytes, VarOffset.start, Option.getD_none]
    omega

theorem lt_free_after (s : Cursor) (cs : List NetVarCType) (b : ℕ) :
    b < (s.after cs).free ↔ b < s.free ∨ ∃ p ∈ (s.offsets cs).zip cs, Touches p b := by
  induction cs generalizing s with
  | nil => simp [after, offsets]
  | cons c cs ih =>
    have hstep := lt_free_advance s c b
    have hrest := ih (s.advance c)
    simp only [offsets, List.zip_cons_cons, List.mem_cons, exists_eq_or_imp, ← or_assoc, ← hstep]
    exact hrest

/-- The bits pending at the cursor join the first run of what follows. -/
theorem free_after_eq (s : Cursor) (cs : List NetVarCType) :
    ∃ run runs, cs.splitOnP (fun c => c ≠ .BIT) = run :: runs ∧
      (s.after cs).free =
        s.byte + bitBytes (s.bits + run.length) +
          ((cs.filter (fun c => c ≠ .BIT)).map NetVarCType.byteSize).sum +
          (runs.map (fun run => bitBytes run.length)).sum := by
  induction cs generalizing s with
  | nil => exact ⟨[], [], List.splitOnP_nil, rfl⟩
  | cons c cs ih =>
    obtain ⟨run, runs, hsplit, hfree⟩ := ih (s.advance c)
    have hafter : s.after (c :: cs) = (s.advance c).after cs := rfl
    rw [hafter, hfree, List.splitOnP_cons_eq_if_modifyHead, hsplit]
    by_cases hc : c = .BIT
    · refine ⟨c :: run, runs, by simp [hc], ?_⟩
      rw [hc, advance_bit, List.length_cons, List.filter_cons_of_neg (by simp)]
      simp only [Nat.add_assoc, Nat.add_comm 1 run.length]
    · refine ⟨[], run :: runs, by simp [hc], ?_⟩
      rw [advance_of_ne hc, List.filter_cons_of_pos (by simpa using hc)]
      simp only [free, List.map_cons, List.sum_cons, List.length_nil, Nat.add_zero, Nat.zero_add]
      omega

end Cursor

theorem places_eq (vars : List ConfigVar) :
    places none vars =
      (Cursor.offsets {} (vars.map ConfigVar.ctype)).zip (vars.map ConfigVar.ctype) := by
  rw [places, Cursor.offsetsFrom_eq_offsets Cursor.carriedBy_none]

theorem firstFree_eq (vars : List ConfigVar) :
    firstFree vars = (Cursor.after {} (vars.map ConfigVar.ctype)).free := by
  rw [firstFree, places_eq]
  exact Cursor.free_after {} (vars.map ConfigVar.ctype)

theorem firstFree_eq_layoutBytes (vars : List ConfigVar) :
    firstFree vars = layoutBytes (vars.map ConfigVar.ctype) := by
  obtain ⟨run, runs, hsplit, hfree⟩ := Cursor.free_after_eq {} (vars.map ConfigVar.ctype)
  rw [firstFree_eq, hfree, layoutBytes, hsplit, List.map_cons, List.sum_cons]
  simp only [Nat.zero_add]
  omega

/-! ## The addresses, position by position -/

/-- A maximal run of bits in `pre ++ run ++ post`. -/
structure IsBitRun (pre run post : List ConfigVar) : Prop where
  bits : ∀ var ∈ run, var.ctype = .BIT
  nonempty : run ≠ []
  before : pre.getLast?.map ConfigVar.ctype ≠ some .BIT
  after : post.head?.map ConfigVar.ctype ≠ some .BIT

theorem IsBitRun.ctypes {pre run post : List ConfigVar} (h : IsBitRun pre run post) :
    run.map ConfigVar.ctype = List.replicate run.length .BIT := by
  rw [List.eq_replicate_iff, List.length_map]
  exact ⟨rfl, List.forall_mem_map.mpr h.bits⟩

/-- A run starts at the first free byte, with no bits before its own. -/
theorem IsBitRun.cursor {pre run post : List ConfigVar} (h : IsBitRun pre run post) :
    Cursor.after {} (pre.map ConfigVar.ctype) = ⟨firstFree pre, 0⟩ := by
  have hlast : (pre.map ConfigVar.ctype).getLast? ≠ some .BIT := by
    rw [List.getLast?_map]
    exact h.before
  have hbits := Cursor.bits_after hlast
  rw [firstFree_eq, Cursor.free, hbits, bitBytes_zero, Nat.add_zero]
  exact Cursor.ext rfl hbits

theorem variableOffsets_append (pre post : List ConfigVar) :
    variableOffsets (pre ++ post) =
      variableOffsets pre ++
        (Cursor.after {} (pre.map ConfigVar.ctype)).offsets (post.map ConfigVar.ctype) := by
  simp only [variableOffsets_eq_offsets, List.map_append, Cursor.offsets_append]

theorem variableOffsets_single {pre post : List ConfigVar} {var : ConfigVar} (h : var.ctype ≠ .BIT) :
    (variableOffsets (pre ++ var :: post))[pre.length]? = some ⟨firstFree pre, none⟩ := by
  rw [variableOffsets_append, List.getElem?_append_right (variableOffsets_length pre).le,
    variableOffsets_length, Nat.sub_self, List.map_cons, Cursor.offsets, List.getElem?_cons_zero,
    Cursor.place_of_ne h, firstFree_eq]

theorem variableOffsets_run {pre run post : List ConfigVar} (h : IsBitRun pre run post) {k : ℕ}
    (hk : k < run.length) :
    (variableOffsets (pre ++ run ++ post))[pre.length + k]? =
      some ⟨firstFree pre + k / 8, some (k % 8)⟩ := by
  have hrun : (Cursor.after {} (pre.map ConfigVar.ctype)).offsets (run.map ConfigVar.ctype) =
      (List.range run.length).map (fun k => ⟨firstFree pre + k / 8, some (k % 8)⟩) := by
    rw [h.cursor, h.ctypes, Cursor.offsets_bits]
    simp only [Nat.zero_add]
  have hlength : (variableOffsets pre).length = pre.length := variableOffsets_length pre
  rw [List.append_assoc, variableOffsets_append, List.getElem?_append_right (by omega), List.map_append,
    Cursor.offsets_append, hrun, hlength, Nat.add_sub_cancel_left, List.getElem?_append_left (by simpa),
    List.getElem?_map, List.getElem?_range hk, Option.map_some]

theorem firstFree_run {pre run post : List ConfigVar} (h : IsBitRun pre run post) :
    firstFree (pre ++ run) = firstFree pre + bitBytes run.length := by
  rw [firstFree_eq, List.map_append, Cursor.after_append, h.cursor, h.ctypes, Cursor.after_bits,
    Cursor.free, Nat.zero_add]

/-- **The layout.** A non-bit starts at the first byte after everything before it. A maximal run of bits
starts there too, numbers its bits through its bytes and takes as many bytes as they fill. A bit number is
given exactly to a bit and is below 8; the ranges follow one another; the bytes in use are those below
`layoutBytes`, without a gap; and what follows a prefix does not move it. -/
theorem variableOffsets_layout (vars : List ConfigVar) :
    (variableOffsets vars).length = vars.length ∧
    (∀ pre var post, vars = pre ++ var :: post → var.ctype ≠ .BIT →
      (variableOffsets vars)[pre.length]? = some ⟨firstFree pre, none⟩) ∧
    (∀ pre run post, vars = pre ++ run ++ post → IsBitRun pre run post →
      (∀ k < run.length,
        (variableOffsets vars)[pre.length + k]? = some ⟨firstFree pre + k / 8, some (k % 8)⟩) ∧
      firstFree (pre ++ run) = firstFree pre + bitBytes run.length) ∧
    (∀ p ∈ (variableOffsets vars).zip (vars.map ConfigVar.ctype),
      (p.1.bit.isSome ↔ p.2 = .BIT) ∧ ∀ k, p.1.bit = some k → k < 8) ∧
    (places none vars).Pairwise (fun p q => p.1.stop p.2 ≤ q.1.start) ∧
    (∀ b, b < layoutBytes (vars.map ConfigVar.ctype) ↔ ∃ p ∈ places none vars, Touches p b) ∧
    ∀ pre post, vars = pre ++ post → (variableOffsets vars).take pre.length = variableOffsets pre := by
  obtain ⟨hwf, hpair⟩ := variableOffsets_places vars
  refine ⟨variableOffsets_length vars, ?_, ?_, ?_, hpair, ?_, ?_⟩
  · rintro pre var post rfl hc
    exact variableOffsets_single hc
  · rintro pre run post rfl h
    exact ⟨fun k hk => variableOffsets_run h hk, firstFree_run h⟩
  · intro p hp
    have hp := hwf p hp
    by_cases hc : p.2 = .BIT
    · rw [hc] at hp
      obtain ⟨k, hk, hlt⟩ := hp.bit
      refine ⟨by simp [hk, hc], fun j hj => ?_⟩
      rw [hk] at hj
      exact Option.some.inj hj ▸ hlt
    · simp [hp.no_bit hc, hc]
  · intro b
    have hbytes := Cursor.lt_free_after {} (vars.map ConfigVar.ctype) b
    rw [← firstFree_eq_layoutBytes, firstFree_eq, places_eq, hbytes]
    simp [Cursor.free]
  · rintro pre post rfl
    rw [variableOffsets_append, ← variableOffsets_length pre, List.take_left]

end Tstlan
