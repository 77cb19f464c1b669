import Mathlib.Data.Finset.SymmDiff
import Tstlan.Configs.Layout
import Tstlan.Devices.Routes
import Tstlan.Foundations.Grouping
import Tstlan.Foundations.Runs
import Tstlan.Web.Layout
import Tstlan.Web.Monitor

/-! # The charts of a device page (`components/device-monitor.tsx`)

The page draws the selected variables; a variable has a chart of its own, or stands on one with others.
The sharing is kept as a text for each variable that has ever been merged, with new texts from a counter.
What is meant is a set of variables with an equivalence, and the page follows it whatever is clicked. -/
namespace Tstlan.Web
open Foundations
set_option autoImplicit false

/-! ## Ids -/

/-- What `grouping[name] ?? soloId(name)` gives: a text, or what objects inherit under the name. -/
inductive GroupId
  | text (id : String)
  | inherited (name : String)
  deriving DecidableEq

def soloId (name : String) : String := "solo:" ++ name

/-- The text of `nextGroupId` after its counter has reached `n`. -/
def groupId (n : ℕ) : String := "g" ++ toString n

/-- `id.startsWith("solo:")`. -/
def IsSolo (id : String) : Prop := "solo:".toList <+: id.toList

instance (id : String) : Decidable (IsSolo id) := inferInstanceAs (Decidable (_ <+: _))

theorem isSolo_soloId (name : String) : IsSolo (soloId name) := by
  rw [IsSolo, soloId, String.toList_append]
  exact List.prefix_append _ _

theorem not_isSolo_groupId (n : ℕ) : ¬ IsSolo (groupId n) := by
  rw [IsSolo, groupId, String.toList_append]
  rintro ⟨rest, h⟩
  cases h

theorem soloId_injective : Function.Injective soloId := by
  intro a b h
  have hlist := congrArg String.toList h
  rw [soloId, soloId, String.toList_append, String.toList_append] at hlist
  exact String.toList_inj.mp (List.append_cancel_left hlist)

theorem groupId_injective : Function.Injective groupId := by
  intro a b h
  have hlist := congrArg String.toList h
  rw [groupId, groupId, String.toList_append, String.toList_append] at hlist
  have hdigits := List.append_cancel_left hlist
  rw [toList_toString, toList_toString] at hdigits
  exact toDigits_injective hdigits

/-! ## The page -/

abbrev ChartGroup := Bucket GroupId VariableInfo

/-- The state of the page that its charts are drawn from, and the counter of the ids. -/
structure ChartPanel where
  selected : Finset String := ∅
  grouping : Dict String String := Dict.empty
  groupSeq : ℕ := 0

def groupIdOf (grouping : Dict String String) (name : String) : GroupId :=
  match grouping.get? name with
  | some id => .text id
  | none => if name ∈ objectPrototype then .inherited name else .text (soloId name)

/-- `next[name] = id`; the inherited setter of `__proto__` takes no text. -/
def setGroup (grouping : Dict String String) (name id : String) : Dict String String :=
  if name = "__proto__" then grouping else grouping.set name id

/-- The names of a config's variables that are drawn by default. -/
def graphSelection (configVars : List ConfigVar) (deviceVarNames : List String) : Finset String :=
  ((configVars.filter (fun var => var.graph ∧ var.name ∈ deviceVarNames)).map ConfigVar.name).toFinset

namespace ChartPanel

def toggleSelected (s : ChartPanel) (name : String) : ChartPanel :=
  { s with
    selected := if name ∈ s.selected then s.selected.erase name else insert name s.selected
    grouping :=
      if s.grouping.get? name = none ∧ name ∉ objectPrototype then s.grouping else s.grouping.erase name }

def charted (vars : List VariableInfo) (s : ChartPanel) : List VariableInfo :=
  vars.filter (fun var => var.name ∈ s.selected)

def groups (vars : List VariableInfo) (s : ChartPanel) : List ChartGroup :=
  bucketsOf (fun var => groupIdOf s.grouping var.name) (s.charted vars)

/-- None when the id is not a text: it has no `startsWith`. -/
def mergeInto (s : ChartPanel) (group : ChartGroup) (name : String) : Option ChartPanel :=
  match group.id with
  | .inherited _ => none
  | .text id =>
    if IsSolo id then
      let targetId := groupId (s.groupSeq + 1)
      let grouping := group.members.foldl (fun next member => setGroup next member.name targetId) s.grouping
      some { s with grouping := setGroup grouping name targetId, groupSeq := s.groupSeq + 1 }
    else some { s with grouping := setGroup s.grouping name id }

def splitOut (s : ChartPanel) (name : String) : ChartPanel := { s with grouping := s.grouping.erase name }

def closeGroup (s : ChartPanel) (group : ChartGroup) : ChartPanel :=
  group.members.foldl (fun s var => s.toggleSelected var.name) s

/-- The defaults of a config, which do not touch a selection that is there. -/
def preselect (vars : List VariableInfo) (s : ChartPanel) (configVars : List ConfigVar) : ChartPanel :=
  { s with
    selected := if s.selected = ∅ then graphSelection configVars (vars.map VariableInfo.name) else s.selected }

end ChartPanel

/-! ## Clicks -/

/-- What changes the charts; a chart is named by a variable that it shows. -/
inductive ChartEvent
  | toggle (name : String)
  | preselect (configVars : List ConfigVar)
  | merge (lead name : String)
  | split (name : String)
  | close (lead : String)

namespace ChartPanel

/-- The chart that shows a variable. -/
def chartOf (vars : List VariableInfo) (s : ChartPanel) (lead : String) : Option ChartGroup :=
  (s.groups vars).find? (fun group => group.members.any (fun var => var.name = lead))

def perform (vars : List VariableInfo) (s : ChartPanel) : ChartEvent → Option ChartPanel
  | .toggle name => some (s.toggleSelected name)
  | .preselect configVars => some (s.preselect vars configVars)
  | .merge lead name => (s.chartOf vars lead).bind (fun group => s.mergeInto group name)
  | .split name => some (s.splitOut name)
  | .close lead => (s.chartOf vars lead).map s.closeGroup

/-- A variable is drawn. -/
def Draws (vars : List VariableInfo) (s : ChartPanel) (name : String) : Prop := ∃ var ∈ s.charted vars, var.name = name

/-- The page has a button for it: only what is drawn can be merged, split off or closed, and only what is drawn
on another chart is in the menu of a chart. -/
def Offers (vars : List VariableInfo) (s : ChartPanel) : ChartEvent → Prop
  | .toggle name => ∃ var ∈ vars, var.name = name ∧ var.mode ≠ .W
  | .preselect _ => True
  | .merge lead name => s.Draws vars lead ∧ s.Draws vars name ∧ groupIdOf s.grouping name ≠ groupIdOf s.grouping lead
  | .split name => s.Draws vars name
  | .close lead => s.Draws vars lead

/-- A click. -/
def Step (vars : List VariableInfo) (s : ChartPanel) (event : ChartEvent) (t : ChartPanel) : Prop :=
  s.Offers vars event ∧ s.perform vars event = some t

end ChartPanel

/-! ## What is meant -/

/-- The variables shown, and which of them stand on one chart. -/
structure Charts where
  shown : Set String
  together : Setoid String

namespace Charts

def start : Charts := ⟨∅, ⟨Eq, eq_equivalence⟩⟩

/-- A variable that is put on or taken off, or split out, stands alone; a merge moves one variable. -/
def perform (vars : List VariableInfo) (c : Charts) : ChartEvent → Charts
  | .toggle name => ⟨symmDiff c.shown {name}, alone c.together name⟩
  | .preselect configVars =>
    ⟨{name | name ∈ c.shown ∨ (c.shown = ∅ ∧ name ∈ graphSelection configVars (vars.map VariableInfo.name))},
      c.together⟩
  | .merge lead name => ⟨c.shown, joined c.together lead name⟩
  | .split name => ⟨c.shown, alone c.together name⟩
  | .close lead => ⟨c.shown \ {name | c.together name lead}, scattered c.together lead⟩

end Charts

/-- The charts that the page draws are the classes of what is shown: each variable stands on one chart, and the
charts and the lines of each stand in the order of the table. -/
structure Drawn (vars : List VariableInfo) (c : Charts) (groups : List ChartGroup) : Prop where
  once : ∃ shown : List VariableInfo, shown.Sublist vars ∧ (∀ var ∈ vars, var ∈ shown ↔ var.name ∈ c.shown) ∧
    (groups.flatMap Bucket.members).Perm shown
  ids : (groups.map Bucket.id).Nodup
  leads : (groups.filterMap (fun group => group.members.head?)).Sublist vars
  classes : ∀ group ∈ groups, ∃ lead, group.members.head? = some lead ∧ group.members.Sublist vars ∧
    ∀ var ∈ vars, var ∈ group.members ↔ var.name ∈ c.shown ∧ c.together var.name lead.name

/-! ## The keys -/

theorem groupIdOf_some {grouping : Dict String String} {name id : String} (h : grouping.get? name = some id) :
    groupIdOf grouping name = .text id := by
  rw [groupIdOf, h]

theorem groupIdOf_none {grouping : Dict String String} {name : String} (h : grouping.get? name = none) :
    groupIdOf grouping name = if name ∈ objectPrototype then .inherited name else .text (soloId name) := by
  rw [groupIdOf, h]

theorem groupIdOf_congr {grouping grouping' : Dict String String} {name : String}
    (h : grouping'.get? name = grouping.get? name) : groupIdOf grouping' name = groupIdOf grouping name := by
  rw [groupIdOf, groupIdOf, h]

/-- The texts in use come from the counter. -/
def Issued (groupSeq : ℕ) (grouping : Dict String String) : Prop :=
  ∀ name id, grouping.get? name = some id → ∃ n ≤ groupSeq, id = groupId n

section
variable {groupSeq : ℕ} {grouping : Dict String String} {name other : String}

theorem Issued.not_isSolo (h : Issued groupSeq grouping) {id : String} (hid : grouping.get? name = some id) :
    ¬ IsSolo id := by
  obtain ⟨n, -, rfl⟩ := h name id hid
  exact not_isSolo_groupId n

/-- A variable that has never been merged shares its chart with nobody. -/
theorem Issued.solo (h : Issued groupSeq grouping) (hname : grouping.get? name = none)
    (he : groupIdOf grouping other = groupIdOf grouping name) : other = name := by
  rw [groupIdOf_none hname] at he
  cases hother : grouping.get? other with
  | some id =>
    rw [groupIdOf_some hother] at he
    split at he
    · cases he
    · refine absurd (isSolo_soloId name) ?_
      rw [← GroupId.text.inj he]
      exact h.not_isSolo hother
  | none =>
    rw [groupIdOf_none hother] at he
    split at he
    · split at he
      · exact GroupId.inherited.inj he
      · cases he
    · split at he
      · cases he
      · exact soloId_injective (GroupId.text.inj he)

/-- The next text is nobody's. -/
theorem Issued.fresh (h : Issued groupSeq grouping) (name : String) :
    groupIdOf grouping name ≠ .text (groupId (groupSeq + 1)) := by
  intro he
  cases hname : grouping.get? name with
  | some id =>
    rw [groupIdOf_some hname] at he
    obtain ⟨n, hn, hid⟩ := h name id hname
    have hsame := groupId_injective (hid.symm.trans (GroupId.text.inj he))
    omega
  | none =>
    rw [groupIdOf_none hname] at he
    split at he
    · cases he
    · exact not_isSolo_groupId (groupSeq + 1) (GroupId.text.inj he ▸ isSolo_soloId name)

theorem Issued.mono {groupSeq' : ℕ} {grouping' : Dict String String} (h : Issued groupSeq grouping)
    (hle : groupSeq ≤ groupSeq')
    (hsub : ∀ name id, grouping'.get? name = some id → grouping.get? name = some id ∨
      ∃ n ≤ groupSeq', id = groupId n) : Issued groupSeq' grouping' := by
  intro name id hid
  refine (hsub name id hid).elim (fun hold => ?_) (fun hnew => hnew)
  obtain ⟨n, hn, hid'⟩ := h name id hold
  exact ⟨n, hn.trans hle, hid'⟩

end

theorem get?_setGroup (grouping : Dict String String) {name : String} (hname : name ∉ objectPrototype) (id z : String) :
    (setGroup grouping name id).get? z = if z = name then some id else grouping.get? z := by
  have hproto : name ≠ "__proto__" := by
    rintro rfl
    exact hname (List.mem_cons_self)
  rw [setGroup, if_neg hproto, Dict.get?_set]

theorem get?_setGroups (members : List VariableInfo) (hmembers : ∀ var ∈ members, var.name ∉ objectPrototype)
    (grouping : Dict String String) (id z : String) :
    (members.foldl (fun next member => setGroup next member.name id) grouping).get? z =
      if ∃ var ∈ members, var.name = z then some id else grouping.get? z := by
  induction members generalizing grouping with
  | nil => simp
  | cons var members ih =>
    obtain ⟨hvar, hrest⟩ := List.forall_mem_cons.mp hmembers
    rw [List.foldl_cons, ih hrest, get?_setGroup _ hvar]
    by_cases hz : z = var.name
    · simp [hz]
    · simp [hz, Ne.symm hz]

/-! ## One click -/

namespace ChartPanel

/-- The charts that the state stands for. -/
def charts (s : ChartPanel) : Charts := ⟨↑s.selected, Setoid.ker (groupIdOf s.grouping)⟩

/-- Only what is drawn is merged. -/
structure Wf (vars : List VariableInfo) (s : ChartPanel) : Prop where
  issued : Issued s.groupSeq s.grouping
  drawn : ∀ name, s.grouping.get? name ≠ none → s.Draws vars name

variable {vars : List VariableInfo} {s t : ChartPanel} {name lead : String}

theorem draws_iff : s.Draws vars name ↔ name ∈ vars.map VariableInfo.name ∧ name ∈ s.selected := by
  rw [Draws, charted, List.mem_map]
  constructor
  · intro h
    obtain ⟨var, hvar, rfl⟩ := h
    obtain ⟨hmem, hselected⟩ := List.mem_filter.mp hvar
    exact ⟨⟨var, hmem, rfl⟩, of_decide_eq_true hselected⟩
  · intro h
    obtain ⟨⟨var, hvar, rfl⟩, hselected⟩ := h
    exact ⟨var, List.mem_filter.mpr ⟨hvar, decide_eq_true hselected⟩, rfl⟩

/-- The chart of a variable holds what has the same id. -/
theorem chartOf_eq (h : s.Draws vars lead) : s.chartOf vars lead =
    some (bucket (fun var => groupIdOf s.grouping var.name) (s.charted vars) (groupIdOf s.grouping lead)) := by
  obtain ⟨var, hvar, rfl⟩ := h
  have hown : bucket (fun var => groupIdOf s.grouping var.name) (s.charted vars) (groupIdOf s.grouping var.name) ∈
      s.groups vars := mem_bucketsOf.mpr ⟨var, hvar, rfl⟩
  have hshows : (bucket (fun var => groupIdOf s.grouping var.name) (s.charted vars)
      (groupIdOf s.grouping var.name)).members.any (fun other => other.name = var.name) = true :=
    List.any_eq_true.mpr ⟨var, List.mem_filter.mpr ⟨hvar, by simp⟩, by simp⟩
  cases hfind : s.chartOf vars var.name with
  | none => exact absurd hshows (List.find?_eq_none.mp hfind _ hown)
  | some group =>
    obtain ⟨x, -, rfl⟩ := mem_bucketsOf.mp (List.mem_of_find?_eq_some hfind)
    have hany := List.find?_some (p := fun group : ChartGroup => group.members.any (fun var => var.name = _)) hfind
    obtain ⟨other, hother, hname⟩ := List.any_eq_true.mp hany
    have hkey : groupIdOf s.grouping other.name = groupIdOf s.grouping x.name :=
      of_decide_eq_true (List.mem_filter.mp hother).2
    rw [of_decide_eq_true hname] at hkey
    rw [hkey]

theorem get?_toggleSelected (s : ChartPanel) (name z : String) :
    (s.toggleSelected name).grouping.get? z = if z = name then none else s.grouping.get? z := by
  show (if _ then s.grouping else s.grouping.erase name).get? z = _
  split
  · next h =>
    split
    · next hz => rw [hz, h.1]
    · rfl
  · rw [Dict.get?_erase]

theorem mem_toggleSelected (s : ChartPanel) (name z : String) :
    z ∈ (s.toggleSelected name).selected ↔ if z = name then name ∉ s.selected else z ∈ s.selected := by
  show z ∈ (if name ∈ s.selected then s.selected.erase name else insert name s.selected) ↔ _
  by_cases hname : name ∈ s.selected
  · by_cases hz : z = name
    · simp [hname, hz]
    · simp [hname, hz]
  · by_cases hz : z = name
    · simp [hname, hz]
    · simp [hname, hz]

/-- Whoever has no text stands alone. -/
theorem ker_ungrouped {grouping : Dict String String} (hissued : Issued s.groupSeq s.grouping)
    (hget : ∀ z, grouping.get? z = if z = name then none else s.grouping.get? z) :
    Setoid.ker (groupIdOf grouping) = alone (Setoid.ker (groupIdOf s.grouping)) name := by
  have hissued' : Issued s.groupSeq grouping := by
    refine hissued.mono le_rfl (fun z id hid => .inl ?_)
    rw [hget] at hid
    split at hid
    · cases hid
    · exact hid
  refine ker_alone (fun y hy => groupIdOf_congr ?_) (fun y hy he => hy ?_)
  · rw [hget, if_neg hy]
  · exact hissued'.solo (by rw [hget, if_pos rfl]) he

theorem Wf.toggle (h : s.Wf vars) (name : String) :
    (s.toggleSelected name).Wf vars ∧ (s.toggleSelected name).charts = s.charts.perform vars (.toggle name) := by
  refine ⟨⟨h.issued.mono le_rfl (fun z id hid => .inl ?_), fun z hz => ?_⟩, ?_⟩
  · rw [get?_toggleSelected] at hid
    split at hid
    · cases hid
    · exact hid
  · rw [get?_toggleSelected] at hz
    split at hz
    · exact absurd rfl hz
    · next hne =>
      obtain ⟨hmem, hselected⟩ := draws_iff.mp (h.drawn z hz)
      exact draws_iff.mpr ⟨hmem, by rw [mem_toggleSelected, if_neg hne]; exact hselected⟩
  · have hshown : (↑(s.toggleSelected name).selected : Set String) = symmDiff ↑s.selected {name} := by
      ext z
      rw [Finset.mem_coe, mem_toggleSelected, Set.mem_symmDiff, Finset.mem_coe, Set.mem_singleton_iff]
      by_cases hz : z = name
      · simp [hz]
      · simp [hz]
    exact congrArg₂ Charts.mk hshown (ker_ungrouped h.issued (get?_toggleSelected s name))

theorem Wf.split (h : s.Wf vars) (name : String) :
    (s.splitOut name).Wf vars ∧ (s.splitOut name).charts = s.charts.perform vars (.split name) := by
  have hget : ∀ z, (s.splitOut name).grouping.get? z = if z = name then none else s.grouping.get? z :=
    fun z => Dict.get?_erase _ _ _
  refine ⟨⟨h.issued.mono le_rfl (fun z id hid => .inl ?_), fun z hz => ?_⟩, ?_⟩
  · rw [hget] at hid
    split at hid
    · cases hid
    · exact hid
  · rw [hget] at hz
    split at hz
    · exact absurd rfl hz
    · exact h.drawn z hz
  · exact congrArg (Charts.mk _) (ker_ungrouped h.issued hget)

theorem Wf.preselect (h : s.Wf vars) (configVars : List ConfigVar) :
    (s.preselect vars configVars).Wf vars ∧
      (s.preselect vars configVars).charts = s.charts.perform vars (.preselect configVars) := by
  have hselected : ∀ z, z ∈ (s.preselect vars configVars).selected ↔
      z ∈ s.selected ∨ (s.selected = ∅ ∧ z ∈ graphSelection configVars (vars.map VariableInfo.name)) := by
    intro z
    show z ∈ (if _ then _ else _ : Finset String) ↔ _
    by_cases hempty : s.selected = ∅
    · simp [hempty]
    · simp [hempty]
  refine ⟨⟨h.issued, fun z hz => ?_⟩, ?_⟩
  · obtain ⟨hmem, hz⟩ := draws_iff.mp (h.drawn z hz)
    exact draws_iff.mpr ⟨hmem, (hselected z).mpr (.inl hz)⟩
  · refine congrArg (Charts.mk · _) ?_
    ext z
    rw [Finset.mem_coe, hselected]
    simp [charts]

/-! ## Merges -/

/-- The names of the table are not those of properties that every object has. -/
def FreeNames (vars : List VariableInfo) : Prop := ∀ var ∈ vars, var.name ∉ objectPrototype

theorem not_inherited (hfree : FreeNames vars) (h : s.Draws vars name) : name ∉ objectPrototype := by
  obtain ⟨var, hvar, rfl⟩ := h
  exact hfree var (List.mem_filter.mp hvar).1

/-- What a merge does to the ids: `name` gets that of `lead`, which is a new one if `lead` stood alone. -/
theorem Wf.mergeInto (h : s.Wf vars) (hfree : FreeNames vars) (hlead : s.Draws vars lead)
    (hname : s.Draws vars name) :
    ∃ id t, s.perform vars (.merge lead name) = some t ∧ t.selected = s.selected ∧ s.groupSeq ≤ t.groupSeq ∧
      (∃ n ≤ t.groupSeq, id = groupId n) ∧
      (∀ z, t.grouping.get? z = if z = name ∨ z = lead then some id else s.grouping.get? z) ∧
      ((s.grouping.get? lead = none ∧ id = groupId (s.groupSeq + 1)) ∨ s.grouping.get? lead = some id) := by
  have hmembers : ∀ var ∈ s.charted vars, var.name ∉ objectPrototype :=
    fun var hvar => not_inherited hfree ⟨var, hvar, rfl⟩
  have hgroup := chartOf_eq hlead
  have hperform : s.perform vars (.merge lead name) = (s.chartOf vars lead).bind (fun group => s.mergeInto group name) :=
    rfl
  rw [hperform, hgroup, Option.bind_some, ChartPanel.mergeInto]
  cases hid : s.grouping.get? lead with
  | none =>
    have hkey : groupIdOf s.grouping lead = .text (soloId lead) := by
      rw [groupIdOf_none hid, if_neg (not_inherited hfree hlead)]
    simp only [bucket, hkey, if_pos (isSolo_soloId lead)]
    refine ⟨groupId (s.groupSeq + 1), _, rfl, rfl, Nat.le_succ _, ⟨_, le_rfl, rfl⟩, fun z => ?_, .inl ⟨trivial, rfl⟩⟩
    rw [get?_setGroup _ (not_inherited hfree hname),
      get?_setGroups _ (fun var hvar => hmembers var (List.mem_filter.mp hvar).1)]
    have halone : (∃ var ∈ (s.charted vars).filter
        (fun var => groupIdOf s.grouping var.name = .text (soloId lead)), var.name = z) ↔ z = lead := by
      constructor
      · intro hvar
        obtain ⟨var, hvar, rfl⟩ := hvar
        have hsame := of_decide_eq_true (List.mem_filter.mp hvar).2
        exact h.issued.solo hid (hsame.trans hkey.symm)
      · rintro rfl
        obtain ⟨var, hvar, rfl⟩ := hlead
        exact ⟨var, List.mem_filter.mpr ⟨hvar, decide_eq_true hkey⟩, rfl⟩
    by_cases hz : z = name
    · simp [hz]
    · by_cases hzlead : z = lead
      · rw [if_neg hz, if_pos (halone.mpr hzlead), if_pos (.inr hzlead)]
      · rw [if_neg hz, if_neg (fun hin => hzlead (halone.mp hin)), if_neg (by simp [hz, hzlead])]
  | some id =>
    have hkey : groupIdOf s.grouping lead = .text id := groupIdOf_some hid
    simp only [bucket, hkey, if_neg (h.issued.not_isSolo hid)]
    refine ⟨id, _, rfl, rfl, le_rfl, h.issued lead id hid, fun z => ?_, .inr rfl⟩
    rw [get?_setGroup _ (not_inherited hfree hname)]
    by_cases hz : z = name
    · simp [hz]
    · by_cases hzlead : z = lead
      · simp [hzlead, hid]
      · simp [hz, hzlead]

theorem Wf.merge (h : s.Wf vars) (hfree : FreeNames vars) (hlead : s.Draws vars lead) (hname : s.Draws vars name) :
    ∃ t, s.perform vars (.merge lead name) = some t ∧ t.Wf vars ∧
      t.charts = s.charts.perform vars (.merge lead name) := by
  obtain ⟨id, t, hperform, hselected, hseq, hissued, hget, hid⟩ := h.mergeInto hfree hlead hname
  refine ⟨t, hperform, ⟨h.issued.mono hseq (fun z id' hz => ?_), fun z hz => ?_⟩, ?_⟩
  · rw [hget] at hz
    split at hz
    · cases hz
      exact .inr hissued
    · exact .inl hz
  · have hdraws : s.Draws vars z := by
      by_cases hmerged : z = name ∨ z = lead
      · exact hmerged.elim (fun he => he ▸ hname) (fun he => he ▸ hlead)
      · rw [hget, if_neg hmerged] at hz
        exact h.drawn z hz
    rw [draws_iff] at hdraws ⊢
    rw [hselected]
    exact hdraws
  · have hkeys : ∀ z, groupIdOf t.grouping z =
        if z = name ∨ z = lead then .text id else groupIdOf s.grouping z := by
      intro z
      by_cases hmerged : z = name ∨ z = lead
      · rw [if_pos hmerged, groupIdOf_some (by rw [hget, if_pos hmerged])]
      · rw [if_neg hmerged]
        exact groupIdOf_congr (by rw [hget, if_neg hmerged])
    refine congrArg₂ Charts.mk (by rw [hselected]; rfl) ?_
    refine ker_joined (fun k => if k = groupIdOf s.grouping lead then .text id else k) (fun z => ?_) (fun z w hzw => ?_)
    · rw [hkeys]
      by_cases hz : z = name
      · simp [hz]
      · by_cases hzlead : z = lead
        · simp [hzlead]
        · rw [if_neg (by simp [hz, hzlead]), if_neg hz]
          split
          · next hsame =>
            refine hid.elim (fun hnone => absurd (h.issued.solo hnone.1 hsame) hzlead) (fun hsome => ?_)
            rw [hsame, groupIdOf_some hsome]
          · rfl
    · refine hid.elim (fun hnone => ?_) (fun hsome => ?_)
      · have hfresh : ∀ x, groupIdOf s.grouping x ≠ .text id := fun x => by
          rw [hnone.2]
          exact h.issued.fresh x
        split at hzw
        · next hz =>
          split at hzw
          · next hw => rw [hz, hw]
          · exact absurd hzw.symm (hfresh w)
        · split at hzw
          · exact absurd hzw (hfresh z)
          · exact hzw
      · have hsame : ∀ x, (if groupIdOf s.grouping x = groupIdOf s.grouping lead then .text id
            else groupIdOf s.grouping x) = groupIdOf s.grouping x := by
          intro x
          split
          · next hx => rw [hx, groupIdOf_some hsome]
          · rfl
        simp only [hsame] at hzw
        exact hzw

/-! ## Closing a chart -/

/-- Toggling distinct names that are all selected takes them all off. -/
theorem toggleAll {names : List String} (hnodup : names.Nodup) (hselected : ∀ name ∈ names, name ∈ s.selected) :
    let t := names.foldl toggleSelected s
    t.groupSeq = s.groupSeq ∧ (∀ z, z ∈ t.selected ↔ z ∈ s.selected ∧ z ∉ names) ∧
      ∀ z, t.grouping.get? z = if z ∈ names then none else s.grouping.get? z := by
  induction names generalizing s with
  | nil => simp
  | cons name names ih =>
    obtain ⟨hname, hnodup⟩ := List.nodup_cons.mp hnodup
    obtain ⟨hfirst, hrest⟩ := List.forall_mem_cons.mp hselected
    have hstill : ∀ other ∈ names, other ∈ (s.toggleSelected name).selected := by
      intro other hother
      have hne : other ≠ name := fun he => hname (he ▸ hother)
      rw [mem_toggleSelected, if_neg hne]
      exact hrest other hother
    obtain ⟨hseq, hmem, hget⟩ := ih hnodup hstill
    refine ⟨hseq, fun z => ?_, fun z => ?_⟩
    · rw [List.foldl_cons, hmem, mem_toggleSelected]
      by_cases hz : z = name
      · simp [hz, hfirst]
      · simp [hz]
    · rw [List.foldl_cons, hget, get?_toggleSelected]
      by_cases hz : z = name
      · simp [hz]
      · simp [hz]

theorem Wf.close (h : s.Wf vars) (hnames : (vars.map VariableInfo.name).Nodup) (hlead : s.Draws vars lead) :
    ∃ t, s.perform vars (.close lead) = some t ∧ t.Wf vars ∧ t.charts = s.charts.perform vars (.close lead) := by
  let names := ((s.charted vars).filter
    (fun var => groupIdOf s.grouping var.name = groupIdOf s.grouping lead)).map VariableInfo.name
  have hperform : s.perform vars (.close lead) = some (names.foldl toggleSelected s) := by
    show (s.chartOf vars lead).map s.closeGroup = _
    rw [chartOf_eq hlead, List.foldl_map]
    rfl
  have hsublist : names.Sublist (vars.map VariableInfo.name) :=
    List.Sublist.map _ (List.filter_sublist.trans List.filter_sublist)
  have hmem : ∀ z, z ∈ names ↔ s.Draws vars z ∧ groupIdOf s.grouping z = groupIdOf s.grouping lead := by
    intro z
    rw [List.mem_map]
    constructor
    · intro hz
      obtain ⟨var, hvar, rfl⟩ := hz
      obtain ⟨hcharted, hsame⟩ := List.mem_filter.mp hvar
      exact ⟨⟨var, hcharted, rfl⟩, of_decide_eq_true hsame⟩
    · intro hz
      obtain ⟨⟨var, hvar, rfl⟩, hsame⟩ := hz
      exact ⟨var, List.mem_filter.mpr ⟨hvar, decide_eq_true hsame⟩, rfl⟩
  -- whoever has the id of the chart is drawn on it
  have hclass : ∀ z, groupIdOf s.grouping z = groupIdOf s.grouping lead → z ∈ names := by
    intro z hz
    refine (hmem z).mpr ⟨?_, hz⟩
    cases hid : s.grouping.get? z with
    | some id => exact h.drawn z (by rw [hid]; exact Option.some_ne_none id)
    | none => exact (h.issued.solo hid hz.symm) ▸ hlead
  obtain ⟨hseq, hselected, hget⟩ := toggleAll (hnames.sublist hsublist)
    (fun z hz => (draws_iff.mp ((hmem z).mp hz).1).2)
  have hissued : Issued s.groupSeq (names.foldl toggleSelected s).grouping := by
    refine h.issued.mono le_rfl (fun z id hid => .inl ?_)
    rw [hget] at hid
    split at hid
    · cases hid
    · exact hid
  refine ⟨_, hperform, ⟨hseq ▸ hissued, fun z hz => ?_⟩, ?_⟩
  · rw [hget] at hz
    split at hz
    · exact absurd rfl hz
    · next hout =>
      obtain ⟨htable, hz⟩ := draws_iff.mp (h.drawn z hz)
      exact draws_iff.mpr ⟨htable, (hselected z).mpr ⟨hz, hout⟩⟩
  · refine congrArg₂ Charts.mk ?_ (ker_scattered (fun y hy => groupIdOf_congr ?_) (fun y z hy he => ?_))
    · ext z
      rw [Finset.mem_coe, hselected]
      exact and_congr_right (fun hz => not_congr ⟨fun hin => ((hmem z).mp hin).2, hclass z⟩)
    · rw [hget, if_neg (fun hin => hy ((hmem y).mp hin).2)]
    · exact (hissued.solo (by rw [hget, if_pos (hclass y hy)]) he.symm).symm

/-! ## Runs -/

theorem drawn_groups (vars : List VariableInfo) (s : ChartPanel) : Drawn vars s.charts (s.groups vars) := by
  have hcharted : ∀ var, var ∈ s.charted vars ↔ var ∈ vars ∧ var.name ∈ s.selected := by
    intro var
    rw [charted, List.mem_filter, decide_eq_true_iff]
  have hsublist : (s.charted vars).Sublist vars := List.filter_sublist
  refine ⟨⟨s.charted vars, hsublist, fun var hvar => ?_, perm_bucketsOf _ _⟩, ?_,
    (heads_bucketsOf _ _).trans hsublist, fun group hgroup => ?_⟩
  · rw [hcharted]
    exact ⟨And.right, And.intro hvar⟩
  · rw [groups, ids_bucketsOf]
    exact nodup_keysOf _ _
  · obtain ⟨x, hx, rfl⟩ := mem_bucketsOf.mp hgroup
    have hmem : ∀ var, var ∈ (bucket (fun var => groupIdOf s.grouping var.name) (s.charted vars)
        (groupIdOf s.grouping x.name)).members ↔
          (var ∈ vars ∧ var.name ∈ s.selected) ∧ groupIdOf s.grouping var.name = groupIdOf s.grouping x.name := by
      intro var
      rw [bucket, List.mem_filter, hcharted, decide_eq_true_iff]
    cases hmembers : (bucket (fun var => groupIdOf s.grouping var.name) (s.charted vars)
        (groupIdOf s.grouping x.name)).members with
    | nil =>
      have hin := (hmem x).mpr ⟨(hcharted x).mp hx, rfl⟩
      rw [hmembers] at hin
      cases hin
    | cons lead rest =>
      have hlead : groupIdOf s.grouping lead.name = groupIdOf s.grouping x.name := by
        refine ((hmem lead).mp ?_).2
        rw [hmembers]
        exact List.mem_cons_self
      refine ⟨lead, rfl, ?_, fun var hvar => ?_⟩
      · rw [← hmembers]
        exact List.filter_sublist.trans hsublist
      · rw [← hmembers, hmem]
        show _ ↔ var.name ∈ s.selected ∧ groupIdOf s.grouping var.name = groupIdOf s.grouping lead.name
        rw [hlead]
        exact ⟨fun h => ⟨h.1.2, h.2⟩, fun h => ⟨⟨hvar, h.1⟩, h.2⟩⟩

/-- A click that the page offers does what is meant. -/
theorem Wf.perform (h : s.Wf vars) (hnames : (vars.map VariableInfo.name).Nodup) (hfree : FreeNames vars)
    {event : ChartEvent} (hoffer : s.Offers vars event) :
    ∃ t, s.perform vars event = some t ∧ t.Wf vars ∧ t.charts = s.charts.perform vars event := by
  cases event with
  | toggle name => exact ⟨_, rfl, h.toggle name⟩
  | preselect configVars => exact ⟨_, rfl, h.preselect configVars⟩
  | merge lead name => exact h.merge hfree hoffer.1 hoffer.2.1
  | split name => exact ⟨_, rfl, h.split name⟩
  | close lead => exact h.close hnames hoffer

/-- Whatever is clicked, no click fails, and the page draws the charts that are meant. -/
theorem charts_follow_clicks (vars : List VariableInfo) (hnames : (vars.map VariableInfo.name).Nodup)
    (hfree : FreeNames vars) (groupSeq : ℕ) (clicks : List ChartEvent) (s : ChartPanel)
    (hrun : Run (Step vars) { groupSeq := groupSeq } clicks s) :
    Drawn vars (clicks.foldl (Charts.perform vars) Charts.start) (s.groups vars) ∧
      ∀ click, s.Offers vars click → ∃ t, s.perform vars click = some t := by
  have hstart : ({ groupSeq := groupSeq } : ChartPanel).Wf vars ∧
      ({ groupSeq := groupSeq } : ChartPanel).charts = Charts.start := by
    refine ⟨⟨fun name id h => (nomatch h), fun name h => absurd rfl h⟩, congrArg₂ Charts.mk Finset.coe_empty ?_⟩
    ext y z
    constructor
    · intro hyz
      have hissued : Issued 0 (Dict.empty : Dict String String) := fun name id h => nomatch h
      exact hissued.solo rfl hyz
    · rintro rfl
      rfl
  have hstep : ∀ s click t c, s.Wf vars ∧ s.charts = c → Step vars s click t →
      t.Wf vars ∧ t.charts = c.perform vars click := by
    intro s click t c hs hclick
    obtain ⟨t', hperform, hwf, hcharts⟩ := hs.1.perform hnames hfree hclick.1
    rw [hclick.2] at hperform
    cases hperform
    exact ⟨hwf, hs.2 ▸ hcharts⟩
  obtain ⟨hwf, hcharts⟩ := hrun.simulate hstep hstart
  refine ⟨hcharts ▸ drawn_groups vars s, fun click hoffer => ?_⟩
  obtain ⟨t, hperform, -⟩ := hwf.perform hnames hfree hoffer
  exact ⟨t, hperform⟩

/-! ## Two lines on one chart -/

def panelVars : List VariableInfo := [⟨"voltage", .F32, .R⟩, ⟨"current", .F32, .R⟩]

/-- Both variables are put on, and the second one goes over to the chart of the first. -/
def panelClicks : List ChartEvent := [.toggle "voltage", .toggle "current", .merge "voltage" "current"]

/-- The page after these clicks. -/
def panelAfter (clicks : List ChartEvent) : ChartPanel :=
  clicks.foldl (fun s click => (s.perform panelVars click).getD s) {}

/-- The two lines are drawn as the clicks mean. -/
theorem panelClicks_drawn : Drawn panelVars (panelClicks.foldl (Charts.perform panelVars) Charts.start)
    ((panelAfter panelClicks).groups panelVars) :=
  (charts_follow_clicks panelVars (by decide) (show ∀ var ∈ panelVars, var.name ∉ objectPrototype by decide) 0
    panelClicks (panelAfter panelClicks)
    (.cons (t := panelAfter (panelClicks.take 1)) ⟨⟨⟨"voltage", .F32, .R⟩, by decide, rfl, by decide⟩, rfl⟩
      (.cons (t := panelAfter (panelClicks.take 2)) ⟨⟨⟨"current", .F32, .R⟩, by decide, rfl, by decide⟩, rfl⟩
        (.single ⟨⟨⟨⟨"voltage", .F32, .R⟩, by decide, rfl⟩, ⟨⟨"current", .F32, .R⟩, by decide, rfl⟩, by decide⟩,
          rfl⟩)))).1

end ChartPanel
end Tstlan.Web
