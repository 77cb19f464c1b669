import Mathlib.Data.Rat.Floor
import Tstlan.Devices.Simulation.Exact
import Tstlan.Devices.Simulation.Profile
import Tstlan.Foundations.Lockstep

/-! # Specifications as objects (`devsim/signals.py`)

`build_signal` takes entries out of a copy of the dictionary that it is given. Here the dictionaries are objects of
a store and refer to each other, so that an entry taken out of a shared one would be missed by the next build. The
program over the store is in lockstep with `buildSignal` over the tree that the store represents. -/
namespace Tstlan.Simulation
open Foundations
set_option autoImplicit false

/-- What a key of a dictionary holds: a parameter, or a list of references to dictionaries. -/
inductive SpecItem
  | value (v : PyValue)
  | list (refs : List ℕ)

/-- The dictionaries so far, each under its position, and the random sources. -/
structure Building (R : Type) where
  specs : List (Dict String SpecItem)
  heap : Heap R

inductive BuildError
  | python (e : PyError)
  | recursionError
  deriving DecidableEq

section
variable {R : Type} (P : Platform R)

/-! ## The program -/

def onHeap {α : Type} (x : EStateM PyError (Heap R) α) : EStateM BuildError (Building R) α := fun s =>
  match x.run s.heap with
  | .ok a heap => .ok a { s with heap := heap }
  | .error e heap => .error (.python e) { s with heap := heap }

/-- `dict(spec)` -/
def copyDict (spec : ℕ) : EStateM BuildError (Building R) ℕ := fun s =>
  match s.specs[spec]? with
  | none => .error (.python .typeError) s
  | some d => .ok s.specs.length { s with specs := s.specs ++ [d] }

/-- `params.pop(key, default)`, or `params.pop(key)` without a default. -/
def popItem (params : ℕ) (key : String) (default : Option SpecItem) : EStateM BuildError (Building R) SpecItem := fun s =>
  match (s.specs[params]?.bind (fun d => d.get? key)).or default with
  | none => .error (.python .keyError) s
  | some item => .ok item { s with specs := s.specs.modify params (fun d => d.erase key) }

/-- A list among the keyword arguments is a value that no source uses. -/
def SpecItem.argument : SpecItem → PyValue
  | .value v => v
  | .list _ => .other

/-- `_FACTORIES[kind](params)` -/
def callFactory (kind : SpecItem) (params : ℕ) : EStateM BuildError (Building R) Source := fun s =>
  match kind, s.specs[params]? with
  | .value (.text kind), some d => (onHeap (makeSource P kind (d.map SpecItem.argument))).run s
  | .value (.text _), none => .error (.python .typeError) s
  | .value .other, _ => .error (.python .typeError) s
  | .list _, _ => .error (.python .typeError) s
  | .value _, _ => .error (.python .keyError) s

/-- The loop over the terms. -/
def sumTerms (build : ℕ → EStateM BuildError (Building R) (Signal Source)) (signal : Signal Source) :
    List ℕ → EStateM BuildError (Building R) (Signal Source)
  | [] => return signal
  | term :: terms => do
    let other ← build term
    sumTerms build (.sum [signal, other]) terms

/-- `build_signal`, with the depth of calls that the interpreter has left. -/
def buildSignalAt : ℕ → ℕ → EStateM BuildError (Building R) (Signal Source)
  | 0, _ => throw .recursionError
  | depth + 1, spec => do
    let params ← copyDict spec
    let kind ← popItem params "kind" none
    let terms ← popItem params "plus" (some (.list []))
    let source ← callFactory P kind params
    match terms with
    | .list refs => sumTerms (buildSignalAt depth) (.source source) refs
    -- a `plus` that is given is a list
    | .value _ => throw (.python .typeError)

end

/-! ## The tree in the store -/

mutual

/-- The dictionary at `root` has the parameters of the tree, and its list refers to the terms. -/
def Represents (specs : List (Dict String SpecItem)) : SignalSpec → ℕ → Prop
  | .mk params plus, root => ∃ d refs, specs[root]? = some d ∧ (d.erase "plus").map SpecItem.argument = params ∧
      (d.get? "plus").getD (.list []) = .list refs ∧ RepresentsAll specs plus refs

def RepresentsAll (specs : List (Dict String SpecItem)) : List SignalSpec → List ℕ → Prop
  | [], refs => refs = []
  | spec :: rest, refs => ∃ ref others, refs = ref :: others ∧ Represents specs spec ref ∧
      RepresentsAll specs rest others

end

mutual

def SignalSpec.depth : SignalSpec → ℕ
  | .mk _ plus => termDepth plus + 1

def termDepth : List SignalSpec → ℕ
  | [] => 0
  | spec :: rest => max spec.depth (termDepth rest)

end

/-- Induction over a specification together with the terms of its nodes. -/
theorem SignalSpec.induction {P : SignalSpec → Prop} {Q : List SignalSpec → Prop}
    (node : ∀ params plus, Q plus → P (.mk params plus)) (nil : Q [])
    (cons : ∀ term terms, P term → Q terms → Q (term :: terms)) (spec : SignalSpec) : P spec :=
  SignalSpec.rec node nil cons spec

section
variable {R : Type} {P : Platform R} {base : List (Dict String SpecItem)}

/-- The store has the dictionaries of `base`, as they were, and the heap is the same. -/
def Over (base : List (Dict String SpecItem)) (s : Building R) (heap : Heap R) : Prop :=
  base <+: s.specs ∧ s.heap = heap

def Raised (e : BuildError) (e' : PyError) : Prop := e = .python e'

theorem onHeap_lockstep {α : Type} (x : EStateM PyError (Heap R) α) :
    Lockstep (Over base) Raised Eq (onHeap x) x := by
  rintro s heap ⟨hbase, rfl⟩
  cases hx : x.run s.heap with
  | ok a heap =>
    refine .inl ⟨a, { s with heap := heap }, a, heap, ?_, rfl, rfl, hbase, rfl⟩
    simp only [onHeap, EStateM.run] at hx ⊢
    rw [hx]
  | error e heap =>
    refine .inr ⟨.python e, { s with heap := heap }, e, heap, ?_, rfl, rfl, hbase, rfl⟩
    simp only [onHeap, EStateM.run] at hx ⊢
    rw [hx]

theorem getElem?_grown {d : Dict String SpecItem} {specs : List (Dict String SpecItem)} {root : ℕ}
    (h : base <+: specs) (hd : base[root]? = some d) : specs[root]? = some d := by
  obtain ⟨more, rfl⟩ := h
  obtain ⟨hlt, -⟩ := List.getElem?_eq_some_iff.mp hd
  rw [List.getElem?_append_left hlt, hd]

/-- A store that grew represents what it represented. -/
theorem Represents.mono {specs : List (Dict String SpecItem)} {spec : SignalSpec} {root : ℕ}
    (hspec : Represents base spec root) (h : base <+: specs) : Represents specs spec root := by
  revert root
  apply SignalSpec.induction
    (P := fun spec => ∀ {root : ℕ}, Represents base spec root → Represents specs spec root)
    (Q := fun terms => ∀ {refs : List ℕ}, RepresentsAll base terms refs → RepresentsAll specs terms refs)
  · intro params plus ih root hspec
    obtain ⟨d, refs, hd, hparams, hplus, hrefs⟩ := hspec
    exact ⟨d, refs, getElem?_grown h hd, hparams, hplus, ih hrefs⟩
  · intro refs hrefs
    exact hrefs
  · intro term terms hterm hterms refs hrefs
    obtain ⟨ref, others, hcons, hspec, hothers⟩ := hrefs
    exact ⟨ref, others, hcons, hterm hspec, hterms hothers⟩

theorem modify_copy (specs : List (Dict String SpecItem)) (d : Dict String SpecItem)
    (f : Dict String SpecItem → Dict String SpecItem) : (specs ++ [d]).modify specs.length f = specs ++ [f d] := by
  induction specs with
  | nil => rfl
  | cons e specs ih => rw [List.cons_append, List.length_cons, List.modify_succ_cons, ih, List.cons_append]

theorem copyDict_run {s : Building R} {root : ℕ} {d : Dict String SpecItem} (hd : s.specs[root]? = some d) :
    (copyDict root).run s = .ok s.specs.length ⟨s.specs ++ [d], s.heap⟩ := by
  show copyDict root s = _
  rw [copyDict, hd]

theorem popItem_run {specs : List (Dict String SpecItem)} {d : Dict String SpecItem} {heap : Heap R} {key : String}
    {default : Option SpecItem} {item : SpecItem} (h : (d.get? key).or default = some item) :
    (popItem specs.length key default).run ⟨specs ++ [d], heap⟩ = .ok item ⟨specs ++ [d.erase key], heap⟩ := by
  show popItem specs.length key default ⟨specs ++ [d], heap⟩ = _
  simp only [popItem, List.getElem?_concat_length, Option.bind_some, h, modify_copy]

theorem popItem_missing {specs : List (Dict String SpecItem)} {d : Dict String SpecItem} {heap : Heap R} {key : String}
    (h : d.get? key = none) :
    (popItem specs.length key none).run ⟨specs ++ [d], heap⟩ = .error (.python .keyError) ⟨specs ++ [d], heap⟩ := by
  show popItem specs.length key none ⟨specs ++ [d], heap⟩ = _
  simp only [popItem, List.getElem?_concat_length, Option.bind_some, h, Option.or_none]

theorem callFactory_run {s : Building R} {params : ℕ} {d : Dict String SpecItem} (hd : s.specs[params]? = some d)
    {given : Dict String PyValue} {kind : SpecItem} (hkind : given.get? "kind" = some kind.argument)
    (hgiven : d.map SpecItem.argument = given.erase "kind") :
    (callFactory P kind params).run s = (onHeap (sourceOf P given)).run s := by
  show callFactory P kind params s = onHeap (sourceOf P given) s
  rw [sourceOf, hkind]
  cases kind with
  | list refs => rfl
  | value v =>
    cases v with
    | text kind =>
      simp only [callFactory, hd, hgiven]
      rfl
    | _ => rfl

/-- A call works on a copy, which holds no entry but those of the source when the terms are built. -/
theorem node_run {d : Dict String SpecItem} {params : Dict String PyValue} {refs : List ℕ} {root : ℕ} {s : Building R}
    (hd : s.specs[root]? = some d) (hparams : (d.erase "plus").map SpecItem.argument = params)
    (hplus : (d.get? "plus").getD (.list []) = .list refs) (depth : ℕ) :
    ∃ copy, (buildSignalAt P (depth + 1) root).run s =
      (onHeap (sourceOf P params) >>= fun source => sumTerms (buildSignalAt P depth) (.source source) refs).run
        ⟨s.specs ++ [copy], s.heap⟩ := by
  have hkind : params.get? "kind" = (d.get? "kind").map SpecItem.argument := by
    rw [← hparams, Dict.get?_map, Dict.get?_erase, if_neg (by decide)]
  cases hk : d.get? "kind" with
  | none =>
    refine ⟨d, ?_⟩
    have hsource : sourceOf P params = throw .keyError := by rw [sourceOf, hkind, hk, Option.map_none]
    rw [buildSignalAt, run_bind_ok (copyDict_run hd), run_bind_error (popItem_missing hk), hsource]
    rfl
  | some kind =>
    refine ⟨(d.erase "kind").erase "plus", ?_⟩
    have hitem : (d.get? "kind").or none = some kind := by rw [hk, Option.or_none]
    have hlist : ((d.erase "kind").get? "plus").or (some (.list [])) = some (.list refs) := by
      rw [Dict.get?_erase, if_neg (by decide), ← hplus]
      cases d.get? "plus" <;> rfl
    have hgiven : ((d.erase "kind").erase "plus").map SpecItem.argument = params.erase "kind" := by
      rw [← hparams, Dict.erase_map, Dict.erase_comm]
    have hcall := callFactory_run (P := P) (s := ⟨s.specs ++ [(d.erase "kind").erase "plus"], s.heap⟩)
      List.getElem?_concat_length (hkind.trans (congrArg _ hk)) hgiven
    rw [buildSignalAt, run_bind_ok (copyDict_run hd), run_bind_ok (popItem_run hitem), run_bind_ok (popItem_run hlist),
      EStateM.run_bind, EStateM.run_bind, hcall]

/-- The program over the store is in lockstep with the one over the tree, as long as the calls may go as deep. -/
theorem buildSignalAt_lockstep (P : Platform R) (base : List (Dict String SpecItem)) (spec : SignalSpec) :
    ∀ depth root, spec.depth ≤ depth → Represents base spec root →
      Lockstep (Over base) Raised Eq (buildSignalAt P depth root) (buildSignal P spec) := by
  apply SignalSpec.induction
    (P := fun spec => ∀ depth root, spec.depth ≤ depth → Represents base spec root →
      Lockstep (Over base) Raised Eq (buildSignalAt P depth root) (buildSignal P spec))
    (Q := fun terms => ∀ depth refs signal, termDepth terms ≤ depth → RepresentsAll base terms refs →
      Lockstep (Over base) Raised Eq (sumTerms (buildSignalAt P depth) signal refs) (addTerms P signal terms))
  · intro params plus ih depth root hdepth hspec
    rw [SignalSpec.depth] at hdepth
    obtain ⟨depth, rfl⟩ : ∃ k, depth = k + 1 := ⟨depth - 1, by omega⟩
    obtain ⟨d, refs, hd, hparams, hplus, hrefs⟩ := hspec
    have hbody : Lockstep (Over base) Raised Eq
        (onHeap (sourceOf P params) >>= fun source => sumTerms (buildSignalAt P depth) (.source source) refs)
        (buildSignal P (.mk params plus)) := by
      refine .bind (onHeap_lockstep _) ?_
      rintro source _ rfl
      exact ih depth refs (.source source) (by omega) hrefs
    intro s heap hover
    obtain ⟨copy, hrun⟩ := node_run (P := P) (getElem?_grown hover.1 hd) hparams hplus depth
    rw [hrun]
    exact hbody _ _ ⟨hover.1.trans (List.prefix_append _ _), hover.2⟩
  · intro depth refs signal _ hrefs
    rw [RepresentsAll] at hrefs
    subst hrefs
    exact .pure rfl
  · intro term terms hterm hterms depth refs signal hdepth hrefs
    obtain ⟨ref, others, rfl, hspec, hothers⟩ := hrefs
    rw [termDepth] at hdepth
    refine .bind (hterm depth ref (by omega) hspec) ?_
    rintro other _ rfl
    exact hterms depth others _ (by omega) hothers

end

/-! ## The sources of the tree -/

mutual

/-- The parameters of the nodes, in the order of the calls. -/
def SignalSpec.nodes : SignalSpec → List (Dict String PyValue)
  | .mk params plus => params :: termNodes plus

def termNodes : List SignalSpec → List (Dict String PyValue)
  | [] => []
  | spec :: rest => spec.nodes ++ termNodes rest

end

section
variable {R : Type} (P : Platform R)

/-- The sources of the signal are those of the nodes, made one after the other. -/
theorem sources_buildSignal (spec : SignalSpec) :
    Signal.sources <$> buildSignal P spec = spec.nodes.mapM (sourceOf P) := by
  apply SignalSpec.induction
    (P := fun spec => Signal.sources <$> buildSignal P spec = spec.nodes.mapM (sourceOf P))
    (Q := fun terms => ∀ signal : Signal Source, Signal.sources <$> addTerms P signal terms =
      (fun rest => signal.sources ++ rest) <$> (termNodes terms).mapM (sourceOf P))
  · intro params plus ih
    rw [buildSignal, SignalSpec.nodes, map_bind]
    simp [ih, Signal.sources]
  · intro signal
    simp [addTerms, termNodes]
  · intro term terms hterm hterms signal
    rw [addTerms, termNodes, map_bind, List.mapM_append, ← hterm]
    simp [hterms, Signal.sources, termSources]

end

/-! ## New objects -/

/-- The source with other objects. -/
def Source.moved (place : ℕ → ℕ) : Source → Source
  | .noise object amplitude => .noise (place object) amplitude
  | .randomWalk object step low high => .randomWalk (place object) step low high
  | source => source

section
variable {R : Type}

/-- What making a source can do: it raises, it returns a source without an object, or it makes one new object, whose
state does not depend on the objects that are there, save for entropy. -/
inductive Makes (seeded : Prop) (x : EStateM PyError (Heap R) Source) : Prop
  | raises (e : PyError) (h : x = throw e)
  | plain (source : Source) (hobject : source.object? = none) (h : x = pure source)
  | random (make : ℕ → Source) (cell : ℕ → Cell R) (hobject : ∀ object, (make object).object? = some object)
      (hmoved : ∀ place object, (make object).moved place = make (place object))
      (hcell : seeded → ∀ object object', cell object = cell object')
      (h : ∀ heap, x.run heap =
        .ok (make heap.next) ⟨heap.next + 1, Function.update heap.cells heap.next (cell heap.next)⟩)

theorem Makes.bind {α : Type} {seeded : Prop} (x : Except PyError α) {f : α → EStateM PyError (Heap R) Source}
    (h : ∀ a, x = .ok a → Makes seeded (f a)) : Makes seeded (fromExcept x >>= f) := by
  cases x with
  | ok a => exact h a rfl
  | error e => exact .raises e rfl

theorem Makes.newObject (P : Platform R) {seeded : Prop} (value : PyValue) {seed : PyValue} (hseeded : seeded → seed ≠ .null)
    {make : ℕ → Source} (hobject : ∀ object, (make object).object? = some object)
    (hmoved : ∀ place object, (make object).moved place = make (place object)) :
    Makes seeded (newObject P value seed >>= fun object => pure (make object)) := by
  by_cases hseed : seed = .other
  · subst hseed
    exact .raises .typeError rfl
  · refine .random make (fun object => ⟨value, if seed = .null then P.entropy object else P.seed seed⟩) hobject hmoved ?_ ?_
    · intro h object object'
      simp only [if_neg (hseeded h)]
    · intro heap
      rw [Simulation.newObject, if_neg hseed]
      rfl

/-- A source without an object, where there is one. -/
def NoObject (x : Except PyError Source) : Prop := ∀ source, x = .ok source → source.object? = none

theorem NoObject.pure {source : Source} (h : source.object? = none) : NoObject (pure source) := by
  rintro _ ⟨⟩
  exact h

theorem NoObject.bind {α : Type} (x : Except PyError α) {f : α → Except PyError Source} (h : ∀ a, NoObject (f a)) :
    NoObject (x >>= f) := by
  cases x with
  | ok a => exact h a
  | error e =>
    rintro source ⟨⟩

theorem NoObject.makes {seeded : Prop} {x : Except PyError Source} (h : NoObject x) :
    Makes seeded (fromExcept x : EStateM PyError (Heap R) Source) := by
  cases x with
  | ok source => exact .plain source (h source rfl) rfl
  | error e => exact .raises e rfl

/-- The seed is one of the numbers that a specification gives unless it is null. -/
theorem argument_seed {params : Dict String PyValue} {seed : PyValue}
    (h : argument params "seed" (some (.number (.int 0))) = .ok seed) (hseeded : params.get? "seed" ≠ some .null) :
    seed ≠ .null := by
  unfold argument at h
  cases hget : params.get? "seed" with
  | none =>
    rw [hget] at h
    cases h
    exact fun he => nomatch he
  | some value =>
    rw [hget] at h hseeded
    cases h
    exact fun he => hseeded (congrArg some he)

theorem makeSource_makes (P : Platform R) (kind : String) (params : Dict String PyValue) :
    Makes (params.get? "seed" ≠ some .null) (makeSource P kind params) := by
  unfold makeSource
  split
  · exact NoObject.makes (.bind _ fun _ => .bind _ fun _ => .pure rfl)
  · exact NoObject.makes (.bind _ fun _ => .bind _ fun _ => .bind _ fun _ => .bind _ fun _ => .bind _ fun _ => .pure rfl)
  · exact NoObject.makes (.bind _ fun _ => .bind _ fun _ => .bind _ fun _ => .bind _ fun _ => .pure rfl)
  · exact NoObject.makes (.bind _ fun _ => .bind _ fun _ => .bind _ fun _ => .bind _ fun _ => .bind _ fun _ => .pure rfl)
  · exact NoObject.makes (.bind _ fun _ => .bind _ fun _ => .bind _ fun _ => .pure rfl)
  · exact .bind _ fun _ _ => .bind _ fun _ _ => .bind _ fun _ hseed =>
      .newObject P _ (argument_seed hseed) (fun _ => rfl) (fun _ _ => rfl)
  · exact .bind _ fun _ _ => .bind _ fun _ _ => .bind _ fun _ _ => .bind _ fun _ _ => .bind _ fun _ _ =>
      .bind _ fun _ hseed => .newObject P _ (argument_seed hseed) (fun _ => rfl) (fun _ _ => rfl)
  · exact .raises .keyError rfl

theorem sourceOf_makes (P : Platform R) (params : Dict String PyValue) :
    Makes (params.get? "seed" ≠ some .null) (sourceOf P params) := by
  unfold sourceOf
  split
  · next kind hkind =>
    have hseed : (params.erase "kind").get? "seed" = params.get? "seed" := by
      rw [Dict.get?_erase, if_neg (by decide)]
    rw [← hseed]
    exact makeSource_makes P _ _
  · exact .raises .typeError rfl
  · exact .raises .keyError rfl

/-- Whether a source can be made does not depend on the objects that are there. -/
theorem sourceOf_ok_of_ok (P : Platform R) {params : Dict String PyValue} {heap : Heap R} (heap' : Heap R)
    (h : ∃ source after, (sourceOf P params).run heap = .ok source after) :
    ∃ source after, (sourceOf P params).run heap' = .ok source after := by
  obtain ⟨source, after, hrun⟩ := h
  cases sourceOf_makes P params with
  | raises e he =>
    rw [he] at hrun
    cases hrun
  | plain source hobject he => exact ⟨source, heap', by rw [he]; rfl⟩
  | random make cell hobject hmoved hcell he => exact ⟨_, _, he heap'⟩

/-- The new objects have the numbers from `heap.next` on, in the order of the sources. -/
theorem objects_of_nodes {P : Platform R} {nodes : List (Dict String PyValue)} {heap heap' : Heap R}
    {sources : List Source} (hrun : (nodes.mapM (sourceOf P)).run heap = .ok sources heap') :
    ∃ n, sources.filterMap Source.object? = List.range' heap.next n ∧ heap'.next = heap.next + n := by
  induction nodes generalizing heap sources with
  | nil =>
    obtain ⟨rfl, rfl⟩ := mapM_nil_ok_iff.mp hrun
    exact ⟨0, rfl, rfl⟩
  | cons params nodes ih =>
    obtain ⟨source, heap₁, rest, hsource, hrest, rfl⟩ := mapM_cons_ok_iff.mp hrun
    obtain ⟨n, hobjects, hnext⟩ := ih hrest
    cases sourceOf_makes P params with
    | raises e h =>
      rw [h] at hsource
      cases hsource
    | plain source hobject h =>
      rw [h] at hsource
      cases hsource
      exact ⟨n, by rw [List.filterMap_cons_none hobject, hobjects], hnext⟩
    | random make cell hobject hmoved hcell h =>
      rw [h] at hsource
      cases hsource
      refine ⟨n + 1, ?_, by rw [hnext]; dsimp only; omega⟩
      rw [List.filterMap_cons_some (hobject _), hobjects, List.range'_succ]

end

/-! ## Building again -/

mutual

def Signal.map {S S' : Type} (f : S → S') : Signal S → Signal S'
  | .source s => .source (f s)
  | .sum terms => .sum (mapTerms f terms)

def mapTerms {S S' : Type} (f : S → S') : List (Signal S) → List (Signal S')
  | [] => []
  | term :: terms => term.map f :: mapTerms f terms

end

section
variable {R : Type}

/-- Two signals that differ in the objects of their random sources only, which hold the same states. -/
def SameSignal (signal : Signal Source) (cells : ℕ → Cell R) (signal' : Signal Source) (cells' : ℕ → Cell R) : Prop :=
  ∃ place : ℕ → ℕ, signal' = signal.map (Source.moved place) ∧
    ∀ source ∈ signal.sources, ∀ object, source.object? = some object → cells' (place object) = cells object

/-- The number of an object when the objects are counted from `start'` on instead of from `start`. -/
def renumber (start start' object : ℕ) : ℕ := start' + (object - start)

/-- As many new objects in both heaps, in the same states. -/
structure Parallel (start start' : ℕ) (heap heap' : Heap R) : Prop where
  le : start ≤ heap.next
  next : heap'.next = renumber start start' heap.next
  cells : ∀ object, start ≤ object → object < heap.next →
    heap'.cells (renumber start start' object) = heap.cells object

theorem Parallel.refl (heap heap' : Heap R) : Parallel heap.next heap'.next heap heap' where
  le := Nat.le_refl _
  next := by rw [renumber, Nat.sub_self, Nat.add_zero]
  cells object hle hlt := by omega

theorem Parallel.new {start start' : ℕ} {heap heap' : Heap R} (h : Parallel start start' heap heap') (cell : Cell R) :
    Parallel start start' ⟨heap.next + 1, Function.update heap.cells heap.next cell⟩
      ⟨heap'.next + 1, Function.update heap'.cells heap'.next cell⟩ where
  le := h.le.trans (Nat.le_succ _)
  next := by
    have hnext := h.next
    have hle := h.le
    simp only [renumber] at hnext ⊢
    omega
  cells object hle hlt := by
    have hnext := h.next
    simp only [renumber] at hnext hlt ⊢
    by_cases hnew : object = heap.next
    · subst hnew
      rw [← hnext, Function.update_self, Function.update_self]
    · have hold : start' + (object - start) ≠ heap'.next := by
        have := h.le
        omega
      rw [Function.update_of_ne hold, Function.update_of_ne hnew]
      exact h.cells object hle (by omega)

theorem moved_of_plain {source : Source} (h : source.object? = none) (f : ℕ → ℕ) : source.moved f = source := by
  cases source with
  | noise object amplitude => cases h
  | randomWalk object step low high => cases h
  | _ => rfl

variable (P : Platform R) (start start' : ℕ)

theorem sourceOf_parallel {params : Dict String PyValue} (hseed : params.get? "seed" ≠ some .null) :
    Lockstep (Parallel start start') Eq (fun source source' => source' = source.moved (renumber start start'))
      (sourceOf P params) (sourceOf P params) := by
  intro heap heap' hheaps
  cases sourceOf_makes P params with
  | raises e h => exact .inr ⟨e, heap, e, heap', by rw [h]; rfl, by rw [h]; rfl, rfl, hheaps⟩
  | plain source hobject h =>
    exact .inl ⟨source, heap, source, heap', by rw [h]; rfl, by rw [h]; rfl, (moved_of_plain hobject _).symm, hheaps⟩
  | random make cell hobject hmoved hcell h =>
    refine .inl ⟨_, _, _, _, h heap, h heap', ?_, ?_⟩
    · show make heap'.next = (make heap.next).moved (renumber start start')
      rw [hmoved, hheaps.next]
    · rw [hcell hseed heap'.next heap.next]
      exact hheaps.new (cell heap.next)

/-- A build from another heap makes the same signal of its own new objects, if no seed is null. -/
theorem buildSignal_parallel (spec : SignalSpec) :
    (∀ params ∈ spec.nodes, params.get? "seed" ≠ some .null) →
      Lockstep (Parallel start start') Eq
        (fun signal signal' => signal' = signal.map (Source.moved (renumber start start')))
        (buildSignal P spec) (buildSignal P spec) := by
  apply SignalSpec.induction
    (P := fun spec => (∀ params ∈ spec.nodes, params.get? "seed" ≠ some .null) →
      Lockstep (Parallel start start') Eq
        (fun signal signal' => signal' = signal.map (Source.moved (renumber start start')))
        (buildSignal P spec) (buildSignal P spec))
    (Q := fun terms => (∀ params ∈ termNodes terms, params.get? "seed" ≠ some .null) →
      ∀ signal : Signal Source, Lockstep (Parallel start start') Eq
        (fun signal signal' => signal' = signal.map (Source.moved (renumber start start')))
        (addTerms P signal terms) (addTerms P (signal.map (Source.moved (renumber start start'))) terms))
  · intro params plus ih hseeds
    obtain ⟨hseed, hplus⟩ := List.forall_mem_cons.mp hseeds
    refine .bind (sourceOf_parallel P start start' hseed) ?_
    rintro source _ rfl
    exact ih hplus (.source source)
  · intro _ signal
    exact .pure rfl
  · intro term terms hterm hterms hseeds signal
    obtain ⟨hfirst, hrest⟩ := List.forall_mem_append.mp hseeds
    refine .bind (hterm hfirst) ?_
    rintro other _ rfl
    exact hterms hrest (.sum [signal, other])

end

/-! ## What `build_signal` makes -/

section
variable {K R : Type} [Field K] [LinearOrder K] [FloorRing K] {P : Platform R}

/-- The random sources of a signal that was built are different objects, all of them new. -/
theorem objects_of_buildSignal {spec : SignalSpec} {heap heap' : Heap R} {signal : Signal Source}
    (hrun : (buildSignal P spec).run heap = .ok signal heap') :
    (spec.nodes.mapM (sourceOf P)).run heap = .ok signal.sources heap' ∧
      (signal.sources.filterMap Source.object?).Nodup ∧
      ∀ source ∈ signal.sources, ∀ object, source.object? = some object → heap.next ≤ object ∧ object < heap'.next := by
  have hsources : (spec.nodes.mapM (sourceOf P)).run heap = .ok signal.sources heap' := by
    rw [← sources_buildSignal, map_eq_pure_bind, run_bind_ok hrun]
    rfl
  obtain ⟨n, hobjects, hnext⟩ := objects_of_nodes hsources
  refine ⟨hsources, ?_, ?_⟩
  · rw [hobjects]
    exact List.nodup_range'
  · intro source hsource object hobject
    have hmem : object ∈ signal.sources.filterMap Source.object? := List.mem_filterMap.mpr ⟨source, hsource, hobject⟩
    rw [hobjects, List.mem_range'_1] at hmem
    omega

/-- A signal is built exactly if the source of each node can be made. -/
theorem buildSignal_ok_iff (spec : SignalSpec) (heap : Heap R) :
    (∃ signal heap', (buildSignal P spec).run heap = .ok signal heap') ↔
      ∀ params ∈ spec.nodes, ∃ source heap', (sourceOf P params).run heap = .ok source heap' := by
  rw [← mapM_ok_iff_forall (fun _ _ heap' => sourceOf_ok_of_ok P heap')]
  constructor
  · rintro ⟨signal, heap', hrun⟩
    exact ⟨_, _, (objects_of_buildSignal hrun).1⟩
  · rintro ⟨sources, heap', hrun⟩
    rw [← sources_buildSignal, map_eq_pure_bind] at hrun
    obtain ⟨signal, heap₁, hbuilt, -⟩ := bind_eq_ok hrun
    exact ⟨signal, heap₁, hbuilt⟩

/-- Two builds of one specification without null seeds, from any two heaps, make the same signal. -/
theorem buildSignal_again {spec : SignalSpec} (hseeds : ∀ params ∈ spec.nodes, params.get? "seed" ≠ some .null)
    {heap heap' : Heap R} {signal : Signal Source}
    (hrun : (buildSignal P spec).run heap = .ok signal heap') (later : Heap R) :
    ∃ signal' later', (buildSignal P spec).run later = .ok signal' later' ∧
      SameSignal signal heap'.cells signal' later'.cells := by
  obtain ⟨signal', later', hlater, rfl, hheaps⟩ :=
    (buildSignal_parallel P heap.next later.next spec hseeds).ok (Parallel.refl heap later) hrun
  refine ⟨_, later', hlater, renumber heap.next later.next, rfl, ?_⟩
  intro source hsource object hobject
  obtain ⟨-, -, hbounds⟩ := objects_of_buildSignal hrun
  obtain ⟨hle, hlt⟩ := hbounds source hsource object hobject
  exact hheaps.cells object hle hlt

end

/-- The generators count their draws. -/
def counting : Platform ℕ := ⟨id, fun _ => none, fun _ => 0, id, fun drawn => (0, drawn + 1)⟩

def halves : Arithmetic ℚ ℕ where
  number x := x.int?.getD 0
  twoPi := 6
  sin := id
  random drawn := (if drawn % 2 = 0 then 0 else 1 / 2, drawn + 1)

def noiseSpec : SignalSpec :=
  .mk (Dict.ofList [("kind", .text "noise"), ("amplitude", .number (.int 2))]) []

def walkSpec : SignalSpec :=
  .mk (Dict.ofList [("kind", .text "random_walk"), ("start", .number (.int 0)), ("step", .number (.int 1)),
    ("low", .number (.int (-10))), ("high", .number (.int 10))]) [noiseSpec]

def sharedSpec : SignalSpec :=
  .mk (Dict.ofList [("kind", .text "constant"), ("value", .number (.int 1))]) [walkSpec, noiseSpec]

/-- The two noises of `sharedSpec` are one dictionary. -/
def sharedSpecs : List (Dict String SpecItem) := [
  Dict.ofList [("kind", .value (.text "noise")), ("amplitude", .value (.number (.int 2)))],
  Dict.ofList [("kind", .value (.text "random_walk")), ("start", .value (.number (.int 0))),
    ("step", .value (.number (.int 1))), ("low", .value (.number (.int (-10)))),
    ("high", .value (.number (.int 10))), ("plus", .list [0])],
  Dict.ofList [("kind", .value (.text "constant")), ("value", .value (.number (.int 1))), ("plus", .list [1, 0])]]

/-- The exact states that the objects start from. -/
def exactCells (heap : Heap ℕ) (object : ℕ) : ExactCell ℚ ℕ :=
  ⟨halves.value (heap.cells object).value, (heap.cells object).rng⟩

/-- What the built signal returns at the first two times. -/
def sharedTotals (built : EStateM.Result BuildError (Building ℕ) (Signal Source)) : Option (List ℚ) := do
  let signal ← (outcome built).toOption
  (outcome (([0, 1].mapM (fun t => halves.sampleAt (fun _ => 0) t signal)).run (exactCells (final built).heap))).toOption

end Tstlan.Simulation
