import Mathlib.Data.List.Nodup
import Tstlan.Foundations.JsonValue

/-! # Formats of records in untyped JSON

A reader makes a value of a type from a JSON value, or says everything that is wrong, and where. A record is read
field by field: a field may have a default, and keys that are not fields are complaints. The lemmas say what a
reader makes of what a writer has written, also when the members that are null are left out, and which edits of
a value a reader does not notice. -/
namespace Foundations.Formats
set_option autoImplicit false

/-- A step from a value to a part of it. -/
inductive Place
  | key (name : String)
  | item (position : ℕ)
  deriving DecidableEq

structure Complaint where
  loc : List Place
  kind : String
  deriving DecidableEq

/-- A value, or what is wrong. -/
inductive Checked (α : Type)
  | ok (a : α)
  | wrong (complaints : List Complaint)
  deriving DecidableEq

namespace Checked
variable {α β : Type}

def map (f : α → β) : Checked α → Checked β
  | .ok a => .ok (f a)
  | .wrong complaints => .wrong complaints

/-- Both are read, and the complaints of both are kept. -/
def ap : Checked (α → β) → Checked α → Checked β
  | .ok f, x => x.map f
  | .wrong complaints, .ok _ => .wrong complaints
  | .wrong complaints, .wrong more => .wrong (complaints ++ more)

/-- The complaints are about a part. -/
def under (place : Place) : Checked α → Checked α
  | .ok a => .ok a
  | .wrong complaints => .wrong (complaints.map (fun complaint => { complaint with loc := place :: complaint.loc }))

@[simp] theorem map_ok (f : α → β) (a : α) : (ok a).map f = .ok (f a) := rfl

@[simp] theorem ap_ok (f : α → β) (x : Checked α) : (ok f).ap x = x.map f := rfl

@[simp] theorem under_ok (place : Place) (a : α) : (ok a).under place = .ok a := rfl

@[simp] theorem map_id (x : Checked α) : x.map id = x := by
  cases x <;> rfl

end Checked

section
variable {φ α β : Type}

/-! ## Readers -/

abbrev Reader (φ α : Type) := JsonValue φ → Checked α

def text : Reader φ String
  | .str s => .ok s
  | _ => .wrong [⟨[], "string_type"⟩]

/-- One of some texts, each with its meaning. -/
def oneOf (kind : String) (labels : List (String × α)) : Reader φ α
  | .str s =>
    match Dict.lookup s labels with
    | some a => .ok a
    | none => .wrong [⟨[], kind⟩]
  | _ => .wrong [⟨[], kind⟩]

def nullable (read : Reader φ α) : Reader φ (Option α)
  | .null => .ok none
  | v => (read v).map some

def itemsFrom (read : Reader φ α) : ℕ → List (JsonValue φ) → Checked (List α)
  | _, [] => .ok []
  | position, v :: vs => (((read v).under (.item position)).map List.cons).ap (itemsFrom read (position + 1) vs)

def listOf (read : Reader φ α) : Reader φ (List α)
  | .list items => itemsFrom read 0 items
  | _ => .wrong [⟨[], "list_type"⟩]

def entriesOf (read : Reader φ α) : List (String × JsonValue φ) → Checked (List (String × α))
  | [] => .ok []
  | m :: ms => ((((read m.2).under (.key m.1)).map (Prod.mk m.1)).map List.cons).ap (entriesOf read ms)

def dictOf (read : Reader φ α) : Reader φ (Dict String α)
  | .dict members => (entriesOf read members).map Dict.ofList
  | _ => .wrong [⟨[], "dict_type"⟩]

/-! ## Records -/

/-- A field that may be missing when it has a default. -/
def field (members : List (String × JsonValue φ)) (name : String) (default : Option α) (read : Reader φ α) :
    Checked α :=
  match Dict.lookup name members, default with
  | some v, _ => (read v).under (.key name)
  | none, some a => .ok a
  | none, none => .wrong [⟨[.key name], "missing"⟩]

/-- There are no keys but these. -/
def onlyFields (names : List String) (members : List (String × JsonValue φ)) : Checked Unit :=
  match (members.map Prod.fst).filter (fun key => key ∉ names) with
  | [] => .ok ()
  | extra => .wrong (extra.map (fun key => ⟨[.key key], "extra_forbidden"⟩))

/-- A record with these fields and no others. -/
def record (names : List String) (fields : List (String × JsonValue φ) → Checked α) : Reader φ α
  | .dict members => ((fields members).map (fun a _ => a)).ap (onlyFields names members)
  | _ => .wrong [⟨[], "model_type"⟩]

/-! ## What has been written -/

/-- The members that are written: all, or those that are not null. -/
def written (excludeNone : Bool) (members : List (String × JsonValue φ)) : List (String × JsonValue φ) :=
  if excludeNone then members.filter (fun m => ¬ m.2.isNull) else members

theorem lookup_filter_of_nodup {members : List (String × JsonValue φ)} (hnodup : (members.map Prod.fst).Nodup)
    (p : JsonValue φ → Bool) (name : String) :
    Dict.lookup name (members.filter (fun m => p m.2)) = (Dict.lookup name members).filter p := by
  induction members with
  | nil => rfl
  | cons m ms ih =>
    obtain ⟨hnot, hms⟩ := List.nodup_cons.mp hnodup
    have hrest := ih hms
    by_cases hname : m.1 = name
    · have hnone : Dict.lookup name ms = none := by
        rw [Dict.lookup_eq_none, ← hname]
        exact hnot
      cases hp : p m.2 with
      | false => simp [Dict.lookup, hname, hp, hrest, hnone, Option.filter]
      | true => simp [Dict.lookup, hname, hp, Option.filter]
    · cases hp : p m.2 with
      | false => simp [Dict.lookup, hname, hp, hrest]
      | true => simp [Dict.lookup, hname, hp, hrest]

theorem lookup_written {excludeNone : Bool} {members : List (String × JsonValue φ)} {name : String} {v : JsonValue φ}
    (hnodup : (members.map Prod.fst).Nodup) (hlookup : Dict.lookup name members = some v) (hv : v.isNull = false) :
    Dict.lookup name (written excludeNone members) = some v := by
  cases excludeNone with
  | false => exact hlookup
  | true =>
    have hfilter := lookup_filter_of_nodup hnodup (fun v : JsonValue φ => ¬ v.isNull) name
    rw [written, if_pos rfl, hfilter, hlookup]
    simp [Option.filter, hv]

theorem lookup_written_of_absent {excludeNone : Bool} {members : List (String × JsonValue φ)} {name : String}
    (h : name ∉ members.map Prod.fst) : Dict.lookup name (written excludeNone members) = none := by
  rw [Dict.lookup_eq_none]
  cases excludeNone with
  | false => exact h
  | true => exact fun hmem => h (List.map_subset _ (List.filter_subset_self _) hmem)

/-- A field is read back as it was written; one that is null may be left out if its default is none. -/
theorem field_written {excludeNone : Bool} {members : List (String × JsonValue φ)} {name : String} {v : JsonValue φ}
    {default : Option α} {read : Reader φ α} {a : α} (hnodup : (members.map Prod.fst).Nodup)
    (hlookup : Dict.lookup name members = some v) (hread : read v = .ok a)
    (hnull : v.isNull = false ∨ default = some a) :
    field (written excludeNone members) name default read = .ok a := by
  cases hv : v.isNull with
  | false => simp only [field, lookup_written hnodup hlookup hv, hread, Checked.under_ok]
  | true =>
    cases excludeNone with
    | false => simp only [written, Bool.false_eq_true, if_false, field, hlookup, hread, Checked.under_ok]
    | true =>
      have hfilter := lookup_filter_of_nodup hnodup (fun v : JsonValue φ => ¬ v.isNull) name
      have hnone : (some v).filter (fun v => decide ¬ v.isNull) = none := by simp [hv]
      rw [hlookup, hnone] at hfilter
      have hdefault : default = some a := hnull.resolve_left (by rw [hv]; decide)
      simp only [written, if_true, field, hfilter, hdefault]

theorem onlyFields_written {excludeNone : Bool} {members : List (String × JsonValue φ)} {names : List String}
    (h : ∀ m ∈ members, m.1 ∈ names) : onlyFields names (written excludeNone members) = .ok () := by
  have hnone : ((written excludeNone members).map Prod.fst).filter (fun key => key ∉ names) = [] := by
    rw [List.filter_eq_nil_iff]
    intro key hkey
    obtain ⟨m, hm, rfl⟩ := List.mem_map.mp hkey
    have hmem : m ∈ members := by
      cases excludeNone with
      | false => exact hm
      | true => exact List.mem_of_mem_filter hm
    simpa using h m hmem
  rw [onlyFields, hnone]

theorem record_written {excludeNone : Bool} {members : List (String × JsonValue φ)}
    {fields : List (String × JsonValue φ) → Checked α} {a : α} (names : List String)
    (hnames : ∀ m ∈ members, m.1 ∈ names) (hfields : fields (written excludeNone members) = .ok a) :
    record names fields (.dict (written excludeNone members)) = .ok a := by
  rw [record, hfields, onlyFields_written hnames]
  rfl

theorem itemsFrom_map {read : Reader φ α} {write : α → JsonValue φ} (h : ∀ a, read (write a) = .ok a) (position : ℕ)
    (as : List α) : itemsFrom read position (as.map write) = .ok as := by
  induction as generalizing position with
  | nil => rfl
  | cons a as ih => simp [itemsFrom, h, ih]

theorem listOf_map {read : Reader φ α} {write : α → JsonValue φ} (h : ∀ a, read (write a) = .ok a) (as : List α) :
    listOf read (.list (as.map write)) = .ok as := itemsFrom_map h 0 as

theorem entriesOf_map {read : Reader φ α} {write : α → JsonValue φ} (h : ∀ a, read (write a) = .ok a)
    (es : List (String × α)) : entriesOf read (es.map (fun e => (e.1, write e.2))) = .ok es := by
  induction es with
  | nil => rfl
  | cons e es ih => simp [entriesOf, h, ih]

theorem dictOf_entries {read : Reader φ α} {write : α → JsonValue φ} (h : ∀ a, read (write a) = .ok a)
    (d : Dict String α) : dictOf read (.dict (d.entries.map (fun e => (e.1, write e.2)))) = .ok d := by
  rw [dictOf, entriesOf_map h, Checked.map_ok, Dict.ofList_entries]

/-! ## Edits that are not noticed -/

theorem field_congr {members members' : List (String × JsonValue φ)} {name : String}
    (h : Dict.lookup name members = Dict.lookup name members') (default : Option α) (read : Reader φ α) :
    field members name default read = field members' name default read := by
  unfold field
  rw [h]

theorem field_adjust_of_ne {key name : String} (hne : name ≠ key) (f : JsonValue φ → JsonValue φ)
    (members : List (String × JsonValue φ)) (default : Option α) (read : Reader φ α) :
    field (Dict.adjust key f members) name default read = field members name default read :=
  field_congr (by rw [Dict.lookup_adjust, if_neg hne]) default read

theorem field_adjust (name : String) (f : JsonValue φ → JsonValue φ) (members : List (String × JsonValue φ))
    (default : Option α) (read : Reader φ α) :
    field (Dict.adjust name f members) name default read = field members name default (fun v => read (f v)) := by
  unfold field
  rw [Dict.lookup_adjust, if_pos rfl]
  cases Dict.lookup name members <;> cases default <;> rfl

theorem onlyFields_adjust (names : List String) (key : String) (f : JsonValue φ → JsonValue φ)
    (members : List (String × JsonValue φ)) :
    onlyFields names (Dict.adjust key f members) = onlyFields names members := by
  rw [onlyFields, onlyFields, Dict.keys_adjust]

theorem lookup_filter_key {key name : String} (hne : name ≠ key) (members : List (String × JsonValue φ)) :
    Dict.lookup name (members.filter (fun m => m.1 ≠ key)) = Dict.lookup name members := by
  induction members with
  | nil => rfl
  | cons m ms ih =>
    by_cases hkey : m.1 = key
    · have hname : m.1 ≠ name := fun h => hne (h.symm.trans hkey)
      rw [List.filter_cons_of_neg (by simp [hkey]), ih, Dict.lookup, if_neg hname]
    · rw [List.filter_cons_of_pos (by simp [hkey]), Dict.lookup, Dict.lookup, ih]

theorem field_without {key name : String} (hne : name ≠ key) (members : List (String × JsonValue φ))
    (default : Option α) (read : Reader φ α) :
    field (members.filter (fun m => m.1 ≠ key)) name default read = field members name default read :=
  field_congr (lookup_filter_key hne members) default read

/-- A key that is taken out is not a complaint, as if it were a field. -/
theorem onlyFields_without (names : List String) (key : String) (members : List (String × JsonValue φ)) :
    onlyFields names (members.filter (fun m => m.1 ≠ key)) = onlyFields (key :: names) members := by
  have hkeys : ((members.filter (fun m => m.1 ≠ key)).map Prod.fst).filter (fun name => name ∉ names) =
      (members.map Prod.fst).filter (fun name => name ∉ key :: names) := by
    induction members with
    | nil => rfl
    | cons m ms ih => by_cases hkey : m.1 = key <;> by_cases hmem : m.1 ∈ names <;> simp_all
  rw [onlyFields, onlyFields, hkeys]

theorem itemsFrom_mapIdx {read read' : Reader φ α} {f : ℕ → JsonValue φ → JsonValue φ}
    (h : ∀ position v, read (f position v) = read' v) (position : ℕ) (vs : List (JsonValue φ)) :
    itemsFrom read position (vs.mapIdx f) = itemsFrom read' position vs := by
  induction vs generalizing position f with
  | nil => rfl
  | cons v vs ih => rw [List.mapIdx_cons, itemsFrom, itemsFrom, h, ih (fun i => h (i + 1))]

theorem listOf_onItems {read read' : Reader φ α} {f : ℕ → JsonValue φ → JsonValue φ}
    (h : ∀ position v, read (f position v) = read' v) (v : JsonValue φ) :
    listOf read (v.onItems f) = listOf read' v := by
  cases v with
  | list items => exact itemsFrom_mapIdx h 0 items
  | _ => rfl

/-- A text that is replaced by one with the same meaning. -/
theorem oneOf_relabel {kind : String} {labels labels' : List (String × α)} {f : JsonValue φ → JsonValue φ}
    (hother : ∀ v, (∀ s, v ≠ .str s) → f v = v)
    (htext : ∀ s, ∃ s', f (.str s) = .str s' ∧ Dict.lookup s' labels = Dict.lookup s labels') (v : JsonValue φ) :
    oneOf kind labels (f v) = oneOf kind labels' v := by
  cases v with
  | str s =>
    obtain ⟨s', hs', hlookup⟩ := htext s
    rw [hs', oneOf, oneOf, hlookup]
  | _ =>
    rw [hother _ (fun s => by intro h; cases h)]
    rfl

end
end Foundations.Formats
