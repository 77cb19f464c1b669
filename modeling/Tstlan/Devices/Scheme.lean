import Mathlib.Logic.Function.Basic
import Mathlib.Data.List.Zip
import Tstlan.Devices.NetVarAccessor

/-! # The scheme of a device (`build_scheme` of `tstlan/devices/unidriver/netvar.py`)

The accessors of a list of variables have disjoint places, so over any lawful seam they refine a file of
independent registers: each shows the last value set through it, and nothing else moves it. -/
namespace Tstlan
open Foundations
set_option autoImplicit false

/-- The zip is strict in the source; `variableOffsets_length` shows that the two lists match. -/
def buildScheme (handle : ℤ) (vars : List NetVar) : List NetVarAccessor :=
  let offsets := variableOffsets (vars.map (fun var => { name := var.name, ctype := var.ctype }))
  (vars.zip offsets).map (fun p => ⟨handle, p.1, p.2⟩)

/-- Every two accessors of the list have disjoint places, and every address fits its C type. -/
structure Independent (scheme : List NetVarAccessor) : Prop where
  wf : ∀ acc ∈ scheme, acc.Wf
  disjoint : scheme.Pairwise NetVarAccessor.Disjoint

theorem handle_of_mem_buildScheme {handle : ℤ} {vars : List NetVar} {acc : NetVarAccessor}
    (h : acc ∈ buildScheme handle vars) : acc.handle = handle := by
  obtain ⟨p, -, rfl⟩ := List.mem_map.mp h
  rfl

theorem buildScheme_var (handle : ℤ) (vars : List NetVar) :
    (buildScheme handle vars).map NetVarAccessor.var = vars := by
  have hlen : vars.length = (variableOffsets (vars.map
      (fun var => { name := var.name, ctype := var.ctype }))).length := by
    rw [variableOffsets_length, List.length_map]
  rw [buildScheme, List.map_map]
  exact List.map_fst_zip hlen.le

theorem buildScheme_places (handle : ℤ) (vars : List NetVar) :
    (buildScheme handle vars).map (fun acc => (acc.offset, acc.var.ctype)) =
      places none (vars.map (fun var => { name := var.name, ctype := var.ctype })) := by
  rw [buildScheme, places, ← variableOffsets, List.map_map, List.map_map, ← List.zip_swap,
    List.zip_map_right, List.map_map]
  rfl

theorem buildScheme_independent (handle : ℤ) (vars : List NetVar) :
    Independent (buildScheme handle vars) := by
  obtain ⟨hwf, hpair⟩ := variableOffsets_places
    (vars.map (fun var => { name := var.name, ctype := var.ctype }))
  rw [← buildScheme_places handle] at hwf hpair
  refine ⟨fun acc hacc => hwf _ (List.mem_map.mpr ⟨acc, hacc, rfl⟩), ?_⟩
  exact (List.pairwise_map.mp hpair).imp (fun h => .inr (.inl h))

/-! ## Calls on the accessors -/

/-- A call on the accessor at one position of a list of `n`. -/
inductive Call (n : ℕ)
  | get (j : Fin n)
  | set (j : Fin n) (value : Number)
  deriving DecidableEq

/-- A written value is in the range of the C type it is written to. -/
def Call.Valid (scheme : List NetVarAccessor) : Call scheme.length → Prop
  | .get _ => True
  | .set j v => scheme[j].var.ctype.InRange v

section
variable {σ : Type} [UnidriverIo σ]

def perform (scheme : List NetVarAccessor) : Call scheme.length → EStateM PyError σ Unit
  | .get j => do
    let _ ← scheme[j].get
    return ()
  | .set j v => scheme[j].set v

def performAll (scheme : List NetVarAccessor) : List (Call scheme.length) → EStateM PyError σ Unit
  | [] => return ()
  | c :: cs => do
    perform scheme c
    performAll scheme cs

end

/-- The value of the last `set` at position `j`. -/
def lastSet {n : ℕ} (j : Fin n) : List (Call n) → Option Number
  | [] => none
  | .get _ :: cs => lastSet j cs
  | .set i v :: cs => (lastSet j cs).or (if i = j then some v else none)

/-! ## Independent registers -/

/-- The abstract device side: one value for each position. -/
abbrev Registers (n : ℕ) := Fin n → Number

def Registers.after {n : ℕ} (regs : Registers n) : Call n → Registers n
  | .get _ => regs
  | .set j v => Function.update regs j v

theorem foldl_after {n : ℕ} (calls : List (Call n)) (regs : Registers n) (j : Fin n) :
    calls.foldl Registers.after regs j = (lastSet j calls).getD (regs j) := by
  induction calls generalizing regs with
  | nil => rfl
  | cons c cs ih =>
    rw [List.foldl_cons, ih]
    cases c with
    | get i => rfl
    | set i v =>
      rw [lastSet, Registers.after, Function.update_apply]
      by_cases hij : j = i
      · subst hij
        cases lastSet j cs <;> simp
      · cases lastSet j cs <;> simp [hij, Ne.symm hij]

/-- The memory shows the registers through the accessors. -/
def Shows (scheme : List NetVarAccessor) (m : ByteMemory ℤ) (regs : Registers scheme.length) : Prop :=
  ∀ j : Fin scheme.length, scheme[j].value m = .ok (regs j)

theorem exists_shows (scheme : List NetVarAccessor) (m : ByteMemory ℤ) :
    ∃ regs, Shows scheme m regs :=
  ⟨fun j => (NetVarAccessor.value_ok scheme[j] m).choose,
    fun j => (NetVarAccessor.value_ok scheme[j] m).choose_spec⟩

theorem Independent.disjoint_of_ne {scheme : List NetVarAccessor} (hs : Independent scheme)
    {i j : Fin scheme.length} (h : i ≠ j) : scheme[i].Disjoint scheme[j] := by
  have hpair := List.pairwise_iff_getElem.mp hs.disjoint
  rcases Nat.lt_or_gt_of_ne (Fin.val_ne_of_ne h) with hlt | hlt
  · exact hpair i j i.isLt j.isLt hlt
  · exact (hpair j i j.isLt i.isLt hlt).symm

theorem Independent.disjoint_of_mem {scheme : List NetVarAccessor} (hs : Independent scheme)
    {a b : NetVarAccessor} (ha : a ∈ scheme) (hb : b ∈ scheme) (h : a ≠ b) : a.Disjoint b := by
  obtain ⟨i, hi, rfl⟩ := List.getElem_of_mem ha
  obtain ⟨j, hj, rfl⟩ := List.getElem_of_mem hb
  refine hs.disjoint_of_ne (i := ⟨i, hi⟩) (j := ⟨j, hj⟩) ?_
  intro hij
  rw [Fin.mk.injEq] at hij
  subst hij
  exact h rfl

section
variable {σ : Type} [UnidriverIo σ] [LawfulUnidriverIo σ]
open LawfulUnidriverIo (memory)

/-- One call: the registers make the same move, and accessors away from the scheme see nothing. -/
theorem perform_run {scheme : List NetVarAccessor} (hs : Independent scheme) {s : σ}
    {regs : Registers scheme.length} (hregs : Shows scheme (memory s) regs)
    {c : Call scheme.length} (hc : c.Valid scheme) :
    ∃ s', (perform scheme c).run s = .ok () s' ∧ Shows scheme (memory s') (regs.after c) ∧
      ∀ other : NetVarAccessor, other.Wf → (∀ acc ∈ scheme, acc.Disjoint other) →
        other.value (memory s') = other.value (memory s) := by
  cases c with
  | get j =>
    obtain ⟨v, s', hrun, -, hmem⟩ := NetVarAccessor.get_run (hs.wf _ (scheme.get_mem j)) s
    refine ⟨s', run_bind_ok hrun, ?_, fun other _ _ => by rw [hmem]⟩
    intro i
    rw [hmem]
    exact hregs i
  | set j v =>
    have hwf := hs.wf _ (scheme.get_mem j)
    obtain ⟨m', hstored, hread⟩ := NetVarAccessor.value_stored hwf hc (memory s)
    obtain ⟨s', hrun, rfl⟩ := NetVarAccessor.set_run hwf hstored
    refine ⟨s', hrun, ?_, ?_⟩
    · intro i
      rw [Registers.after, Function.update_apply]
      by_cases hij : i = j
      · rw [if_pos hij, hij]
        exact hread
      · rw [if_neg hij, ← hregs i]
        exact NetVarAccessor.value_stored_of_disjoint hwf (hs.wf _ (scheme.get_mem i))
          (hs.disjoint_of_ne (Ne.symm hij)) hstored
    · intro other ho hd
      exact NetVarAccessor.value_stored_of_disjoint hwf ho (hd _ (scheme.get_mem j)) hstored

theorem performAll_run {scheme : List NetVarAccessor} (hs : Independent scheme)
    (calls : List (Call scheme.length)) (hc : ∀ c ∈ calls, c.Valid scheme) {s : σ}
    {regs : Registers scheme.length} (hregs : Shows scheme (memory s) regs) :
    ∃ s', (performAll scheme calls).run s = .ok () s' ∧
      Shows scheme (memory s') (calls.foldl Registers.after regs) ∧
      ∀ other : NetVarAccessor, other.Wf → (∀ acc ∈ scheme, acc.Disjoint other) →
        other.value (memory s') = other.value (memory s) := by
  induction calls generalizing s regs with
  | nil => exact ⟨s, rfl, hregs, fun _ _ _ => rfl⟩
  | cons c cs ih =>
    obtain ⟨s1, hrun1, hregs1, hout1⟩ := perform_run hs hregs (hc c (List.mem_cons_self ..))
    obtain ⟨s2, hrun2, hregs2, hout2⟩ := ih (fun x hx => hc x (List.mem_cons_of_mem _ hx)) hregs1
    refine ⟨s2, ?_, hregs2, fun other ho hd => (hout2 other ho hd).trans (hout1 other ho hd)⟩
    rw [performAll, run_bind_ok hrun1]
    exact hrun2

theorem outcome_get {acc : NetVarAccessor} (hw : acc.Wf) (s : σ) :
    outcome (acc.get.run s) = acc.value (memory s) := by
  obtain ⟨v, s', hrun, hval, -⟩ := NetVarAccessor.get_run hw s
  rw [hrun, hval, outcome_ok]

end

/-- **Every accessor shows its last written value.** After any sequence of reads and in-range writes
through the accessors of a scheme, over any initial buffers, every call has succeeded, each accessor
returns the value of the last write at its position or what it returned at the start, and the accessors
of a scheme on another handle return what they returned at the start. -/
theorem scheme_shows_last_set (io : InMemoryUnidriverIo) (handle : ℤ) (vars : List NetVar)
    (calls : List (Call (buildScheme handle vars).length)) (hc : ∀ c ∈ calls, c.Valid (buildScheme handle vars)) :
    ∃ io', (performAll (buildScheme handle vars) calls).run io = .ok () io' ∧
      (∀ j : Fin (buildScheme handle vars).length, ∃ v0,
        outcome ((buildScheme handle vars)[j].get.run io) = .ok v0 ∧
        outcome ((buildScheme handle vars)[j].get.run io') = .ok ((lastSet j calls).getD v0)) ∧
      ∀ handle' vars', handle' ≠ handle → ∀ acc ∈ buildScheme handle' vars',
        outcome (acc.get.run io') = outcome (acc.get.run io) := by
  have hs := buildScheme_independent handle vars
  obtain ⟨regs, hregs⟩ := exists_shows (buildScheme handle vars) (LawfulUnidriverIo.memory io)
  obtain ⟨io', hrun, hregs', hout⟩ := performAll_run hs calls hc hregs
  refine ⟨io', hrun, ?_, ?_⟩
  · intro j
    have hwf := hs.wf _ ((buildScheme handle vars).get_mem j)
    refine ⟨regs j, (outcome_get hwf io).trans (hregs j), ?_⟩
    rw [← foldl_after]
    exact (outcome_get hwf io').trans (hregs' j)
  · intro handle' vars' hne acc hacc
    have hwf := (buildScheme_independent handle' vars').wf acc hacc
    rw [outcome_get hwf, outcome_get hwf]
    apply hout acc hwf
    intro a ha
    refine .inl ?_
    rw [handle_of_mem_buildScheme ha, handle_of_mem_buildScheme hacc]
    exact Ne.symm hne

/-- Two bits that share a byte, then a signed word. -/
def sampleVars : List NetVar :=
  [⟨"run", .BIT, .RW, .int 0⟩, ⟨"hold", .BIT, .RW, .int 0⟩, ⟨"level", .I16, .RW, .int 0⟩]

def sampleCalls : List (Call (buildScheme 1 sampleVars).length) :=
  [.set ⟨1, by decide⟩ (.int 1), .set ⟨2, by decide⟩ (.int (-300)), .get ⟨0, by decide⟩]

theorem sampleCalls_last_set :
    ∃ io' : InMemoryUnidriverIo,
      (performAll (buildScheme 1 sampleVars) sampleCalls).run ⟨Dict.empty⟩ = .ok () io' ∧
      outcome ((buildScheme 1 sampleVars)[2].get.run io') = .ok (.int (-300)) := by
  have hvalid : ∀ c ∈ sampleCalls, c.Valid (buildScheme 1 sampleVars) := by
    intro c hc
    simp only [sampleCalls, List.mem_cons, List.not_mem_nil, or_false] at hc
    rcases hc with rfl | rfl | rfl
    · exact .inr rfl
    · exact ⟨-300, rfl, by decide⟩
    · exact trivial
  obtain ⟨io', hrun, hvals, -⟩ := scheme_shows_last_set ⟨Dict.empty⟩ 1 sampleVars sampleCalls hvalid
  obtain ⟨v0, -, h⟩ := hvals ⟨2, by decide⟩
  exact ⟨io', hrun, h⟩

end Tstlan
