import Tstlan.Foundations.JsonValue
import Tstlan.Foundations.Struct

/-! # Migrations of the stored payloads (`migrations/versions`)

Two revisions rewrite the payloads of `device_configs`: `c1d2e3f4a5b6` renames a transport, `d2e3f4a5b6c7`
drops the key `index` of every variable. Payloads are untyped JSON: a payload of another shape is skipped,
and a row is written only if its payload changed. -/
namespace Tstlan.Migrations
open Foundations
set_option autoImplicit false

/-- A row of `device_configs`; `others` are the columns that the revisions do not name. -/
structure ConfigRow (φ ρ : Type) where
  payload : JsonValue φ
  others : ρ

variable {φ ρ : Type}

def ConfigRow.onPayload (f : JsonValue φ → JsonValue φ) (row : ConfigRow φ ρ) : ConfigRow φ ρ :=
  { row with payload := f row.payload }

/-! ## The loop over the rows -/

/-- `select(id, payload)`, taken before any row is written. -/
def selectPayloads (table : Dict ℤ (ConfigRow φ ρ)) : List (ℤ × JsonValue φ) :=
  table.entries.map (fun e => (e.1, e.2.payload))

/-- The loop that both revisions share; `rewrite` gives the payload to store, if there is one. -/
def rewriteRows (rewrite : JsonValue φ → Except PyError (Option (JsonValue φ))) :
    List (ℤ × JsonValue φ) → Dict ℤ (ConfigRow φ ρ) → Except PyError (Dict ℤ (ConfigRow φ ρ))
  | [], table => .ok table
  | (rowId, rawPayload) :: rows, table =>
    match rewrite rawPayload with
    | .error e => .error e
    | .ok none => rewriteRows rewrite rows table
    | .ok (some payload) =>
      rewriteRows rewrite rows (table.modify rowId (fun row => { row with payload := payload }))

/-! ## `c1d2e3f4a5b6`: the transport -/

/-- `value in transport_map`: a list or a dictionary has no hash, and nothing but a text equals a text. -/
def lookupTransport (transportMap : Dict String String) : Option (JsonValue φ) → Except PyError (Option String)
  | some (.str transport) => .ok (transportMap.get? transport)
  | some (.list _) => .error .typeError
  | some (.dict _) => .error .typeError
  | _ => .ok none

def remapPayload (transportMap : Dict String String) (rawPayload : JsonValue φ) :
    Except PyError (Option (JsonValue φ)) :=
  match rawPayload with
  | .dict payload =>
    match Dict.lookup "connection" payload with
    | some (.dict conn) =>
      match lookupTransport transportMap (Dict.lookup "transport" conn) with
      | .error e => .error e
      | .ok none => .ok none
      | .ok (some transport) =>
        -- `conn` is the dictionary inside `payload`
        let conn := Dict.assign "transport" (.str transport) conn
        .ok (some (.dict (Dict.assign "connection" (.dict conn) payload)))
    | _ => .ok none
  | _ => .ok none

def remapTransport (transportMap : Dict String String) (table : Dict ℤ (ConfigRow φ ρ)) :
    Except PyError (Dict ℤ (ConfigRow φ ρ)) :=
  rewriteRows (remapPayload transportMap) (selectPayloads table) table

namespace NormalizeModbusTransport

def upgrade (table : Dict ℤ (ConfigRow φ ρ)) : Except PyError (Dict ℤ (ConfigRow φ ρ)) :=
  remapTransport (Dict.ofList [("modbus", "modbus_tcp")]) table

def downgrade (table : Dict ℤ (ConfigRow φ ρ)) : Except PyError (Dict ℤ (ConfigRow φ ρ)) :=
  remapTransport (Dict.ofList [("modbus_tcp", "modbus"), ("modbus_udp", "modbus")]) table

end NormalizeModbusTransport

/-! ## `d2e3f4a5b6c7`: the index of a variable -/

/-- The entries of a dictionary and its position, to its entries afterwards and whether it changed. -/
def stripIndex (vars : List (String × JsonValue φ)) (_position : ℕ) : List (String × JsonValue φ) × Bool :=
  match Dict.lookup "index" vars with
  | some _ => (vars.filter (fun m => m.1 ≠ "index"), true)
  | none => (vars, false)

def backfillIndex (vars : List (String × JsonValue φ)) (position : ℕ) : List (String × JsonValue φ) × Bool :=
  match Dict.lookup "index" vars with
  | some _ => (vars, false)
  | none => (Dict.assign "index" (.int position) vars, true)

def mutateItem (mutate : List (String × JsonValue φ) → ℕ → List (String × JsonValue φ) × Bool) (position : ℕ) :
    JsonValue φ → JsonValue φ × Bool
  | .dict item => (.dict (mutate item position).1, (mutate item position).2)
  | item => (item, false)

/-- The items from `position` on, and whether one of them changed. -/
def mutateItems (mutate : List (String × JsonValue φ) → ℕ → List (String × JsonValue φ) × Bool) :
    ℕ → List (JsonValue φ) → List (JsonValue φ) × Bool
  | _, [] => ([], false)
  | position, item :: items =>
    let first := mutateItem mutate position item
    let rest := mutateItems mutate (position + 1) items
    (first.1 :: rest.1, first.2 || rest.2)

def rewritePayload (mutate : List (String × JsonValue φ) → ℕ → List (String × JsonValue φ) × Bool)
    (rawPayload : JsonValue φ) : Except PyError (Option (JsonValue φ)) :=
  match rawPayload with
  | .dict payload =>
    match Dict.lookup "variables" payload with
    | some (.list items) =>
      let mutated := mutateItems mutate 0 items
      .ok (if mutated.2 then some (.dict (Dict.assign "variables" (.list mutated.1) payload)) else none)
    | _ => .ok none
  | _ => .ok none

def rewriteVariables (mutate : List (String × JsonValue φ) → ℕ → List (String × JsonValue φ) × Bool)
    (table : Dict ℤ (ConfigRow φ ρ)) : Except PyError (Dict ℤ (ConfigRow φ ρ)) :=
  rewriteRows (rewritePayload mutate) (selectPayloads table) table

namespace DropVariableIndex

def upgrade (table : Dict ℤ (ConfigRow φ ρ)) : Except PyError (Dict ℤ (ConfigRow φ ρ)) :=
  rewriteVariables stripIndex table

def downgrade (table : Dict ℤ (ConfigRow φ ρ)) : Except PyError (Dict ℤ (ConfigRow φ ρ)) :=
  rewriteVariables backfillIndex table

end DropVariableIndex

/-- From `a1b2c3d4e5f6` to `d2e3f4a5b6c7`. -/
def upgradeBoth (table : Dict ℤ (ConfigRow φ ρ)) : Except PyError (Dict ℤ (ConfigRow φ ρ)) :=
  NormalizeModbusTransport.upgrade table >>= DropVariableIndex.upgrade

/-- From `d2e3f4a5b6c7` back to `a1b2c3d4e5f6`. -/
def downgradeBoth (table : Dict ℤ (ConfigRow φ ρ)) : Except PyError (Dict ℤ (ConfigRow φ ρ)) :=
  DropVariableIndex.downgrade table >>= NormalizeModbusTransport.downgrade

/-! ## What the edits are -/

/-- The rewrite turns `payload` into `payload'`, by storing it or by leaving it. -/
def Rewrites (rewrite : JsonValue φ → Except PyError (Option (JsonValue φ))) (payload payload' : JsonValue φ) :
    Prop := ∃ stored, rewrite payload = .ok stored ∧ stored.getD payload = payload'

theorem Rewrites.of_skip {rewrite : JsonValue φ → Except PyError (Option (JsonValue φ))}
    {payload payload' : JsonValue φ} (hskip : rewrite payload = .ok none) (h : payload' = payload) :
    Rewrites rewrite payload payload' := ⟨none, hskip, h.symm⟩

/-- One row of the loop: the payload is edited in its place, and the rows before and after it stay. -/
theorem rewriteRows_step {rewrite : JsonValue φ → Except PyError (Option (JsonValue φ))} {payload' : JsonValue φ}
    {before es : List (ℤ × ConfigRow φ ρ)} {e : ℤ × ConfigRow φ ρ} {table : Dict ℤ (ConfigRow φ ρ)}
    (htable : table.entries = before ++ e :: es) (h : Rewrites rewrite e.2.payload payload') :
    ∃ table' : Dict ℤ (ConfigRow φ ρ),
      (∀ rows, rewriteRows rewrite ((e.1, e.2.payload) :: rows) table = rewriteRows rewrite rows table') ∧
      table'.entries = before ++ (e.1, { e.2 with payload := payload' }) :: es := by
  obtain ⟨stored, hrewrite, hstored⟩ := h
  cases stored with
  | none =>
    have hsame : e.2.payload = payload' := hstored
    refine ⟨table, fun rows => by rw [rewriteRows, hrewrite], ?_⟩
    rw [htable, ← hsame]
  | some payload =>
    have hpayload : payload = payload' := hstored
    have hkey : e.1 ∉ before.map Prod.fst := by
      have hnodup := table.nodup
      rw [htable, List.map_append, List.nodup_append] at hnodup
      intro hmem
      exact hnodup.2.2 _ hmem _ List.mem_cons_self rfl
    refine ⟨table.modify e.1 (fun row => { row with payload := payload }), fun rows => by rw [rewriteRows, hrewrite], ?_⟩
    show Dict.adjust _ _ _ = _
    rw [htable, Dict.adjust_append hkey, Dict.adjust, if_pos rfl, hpayload]

theorem rewriteRows_eq {rewrite : JsonValue φ → Except PyError (Option (JsonValue φ))}
    {f : JsonValue φ → JsonValue φ} (es : List (ℤ × ConfigRow φ ρ)) {before : List (ℤ × ConfigRow φ ρ)}
    {table : Dict ℤ (ConfigRow φ ρ)} (htable : table.entries = before ++ es)
    (h : ∀ e ∈ es, Rewrites rewrite e.2.payload (f e.2.payload)) :
    ∃ after, rewriteRows rewrite (es.map (fun e => (e.1, e.2.payload))) table = .ok after ∧
      after.entries = before ++ es.map (Prod.map id (ConfigRow.onPayload f)) := by
  induction es generalizing table before with
  | nil => exact ⟨table, rfl, htable⟩
  | cons e es ih =>
    obtain ⟨table', hstep, hentries⟩ := rewriteRows_step htable (h e List.mem_cons_self)
    rw [List.append_cons] at hentries
    obtain ⟨after, hrun, hafter⟩ := ih hentries (fun e' he' => h e' (List.mem_cons_of_mem e he'))
    refine ⟨after, ?_, ?_⟩
    · rw [List.map_cons, hstep, hrun]
    · rw [hafter, ← List.append_cons]
      rfl

/-- A loop whose rewrite never fails edits every payload and keeps the rest of every row. -/
theorem rewriteRows_select {rewrite : JsonValue φ → Except PyError (Option (JsonValue φ))}
    {f : JsonValue φ → JsonValue φ} {table : Dict ℤ (ConfigRow φ ρ)}
    (h : ∀ row ∈ table.values, Rewrites rewrite row.payload (f row.payload)) :
    rewriteRows rewrite (selectPayloads table) table = .ok (table.map (ConfigRow.onPayload f)) := by
  have hrows : ∀ e ∈ table.entries, Rewrites rewrite e.2.payload (f e.2.payload) :=
    fun e he => h e.2 (List.mem_map_of_mem he)
  obtain ⟨after, hrun, hafter⟩ := rewriteRows_eq table.entries (List.nil_append _).symm hrows
  rw [selectPayloads, hrun, Except.ok.injEq]
  exact Dict.ext hafter

/-! ### The transport -/

/-- What stands at `connection.transport`. -/
def transport? (payload : JsonValue φ) : Option (JsonValue φ) :=
  (payload.member? "connection").bind (fun connection => connection.member? "transport")

def onTransport (f : JsonValue φ → JsonValue φ) (payload : JsonValue φ) : JsonValue φ :=
  payload.onMember "connection" (fun connection => connection.onMember "transport" f)

/-- The transport, where there is one, is a text. -/
def TextTransport (payload : JsonValue φ) : Prop :=
  ∀ transport, transport? payload = some transport → ∃ text, transport = .str text

def relabel (transportMap : Dict String String) : JsonValue φ → JsonValue φ
  | .str text => .str ((transportMap.get? text).getD text)
  | v => v

theorem transport?_onTransport (f : JsonValue φ → JsonValue φ) (payload : JsonValue φ) :
    transport? (onTransport f payload) = (transport? payload).map f := by
  rw [transport?, transport?, onTransport, JsonValue.member?_onMember, if_pos rfl]
  cases payload.member? "connection" with
  | none => rfl
  | some connection =>
    rw [Option.map_some, Option.bind_some, Option.bind_some, JsonValue.member?_onMember, if_pos rfl]

theorem onTransport_congr {f g : JsonValue φ → JsonValue φ} {payload : JsonValue φ}
    (h : ∀ transport, transport? payload = some transport → f transport = g transport) :
    onTransport f payload = onTransport g payload := by
  apply JsonValue.onMember_congr
  intro connection hconnection
  apply JsonValue.onMember_congr
  intro transport htransport
  apply h
  rw [transport?, hconnection, Option.bind_some, htransport]

theorem onTransport_onTransport (f g : JsonValue φ → JsonValue φ) (payload : JsonValue φ) :
    onTransport g (onTransport f payload) = onTransport (fun v => g (f v)) payload := by
  rw [onTransport, onTransport, onTransport, JsonValue.onMember_onMember]
  simp only [JsonValue.onMember_onMember]

theorem onTransport_eq_self {f : JsonValue φ → JsonValue φ} {payload : JsonValue φ}
    (h : ∀ transport, transport? payload = some transport → f transport = transport) :
    onTransport f payload = payload := by
  apply JsonValue.onMember_eq_self
  intro connection hconnection
  apply JsonValue.onMember_eq_self
  intro transport htransport
  apply h
  rw [transport?, hconnection, Option.bind_some, htransport]

theorem TextTransport.onTransport {payload : JsonValue φ} (h : TextTransport payload)
    (transportMap : Dict String String) : TextTransport (onTransport (relabel transportMap) payload) := by
  intro transport htransport
  rw [transport?_onTransport, Option.map_eq_some_iff] at htransport
  obtain ⟨before, hbefore, rfl⟩ := htransport
  obtain ⟨text, rfl⟩ := h before hbefore
  exact ⟨(transportMap.get? text).getD text, rfl⟩

theorem dicts_of_transport {payload transport : JsonValue φ} (h : transport? payload = some transport) :
    ∃ members conn, payload = .dict members ∧ Dict.lookup "connection" members = some (.dict conn) ∧
      Dict.lookup "transport" conn = some transport := by
  rw [transport?, Option.bind_eq_some_iff] at h
  obtain ⟨connection, hconnection, htransport⟩ := h
  cases payload with
  | dict members =>
    cases connection with
    | dict conn => exact ⟨members, conn, rfl, hconnection, htransport⟩
    | _ => cases htransport
  | _ => cases hconnection

/-- A payload without a transport is skipped. -/
theorem remapPayload_of_none (transportMap : Dict String String) {payload : JsonValue φ}
    (h : transport? payload = none) : remapPayload transportMap payload = .ok none := by
  cases payload with
  | dict members =>
    cases hconnection : Dict.lookup "connection" members with
    | none => simp [remapPayload, hconnection]
    | some connection =>
      cases connection with
      | dict conn =>
        have htransport : Dict.lookup "transport" conn = none := by
          simpa [transport?, JsonValue.member?, hconnection] using h
        simp [remapPayload, hconnection, htransport, lookupTransport]
      | _ => simp [remapPayload, hconnection]
  | _ => rfl

/-- A text that the map has is replaced in its place. -/
theorem remapPayload_of_label {transportMap : Dict String String} {members conn : List (String × JsonValue φ)}
    {text label : String} (hconnection : Dict.lookup "connection" members = some (.dict conn))
    (htransport : Dict.lookup "transport" conn = some (.str text)) (hlabel : transportMap.get? text = some label) :
    remapPayload transportMap (.dict members) =
      .ok (some (onTransport (relabel transportMap) (.dict members))) := by
  have hconn : (JsonValue.dict conn).onMember "transport" (relabel transportMap) =
      .dict (Dict.assign "transport" (.str label) conn) := by
    rw [JsonValue.onMember, Dict.assign_eq_adjust htransport]
    rw [relabel, hlabel, Option.getD_some]
  rw [onTransport, JsonValue.onMember, ← Dict.assign_eq_adjust hconnection hconn]
  simp only [remapPayload, hconnection, htransport, lookupTransport, hlabel]

/-- A text that the map does not have stays, the others are replaced. -/
theorem remapPayload_rewrites (transportMap : Dict String String) {payload : JsonValue φ}
    (h : TextTransport payload) :
    Rewrites (remapPayload transportMap) payload (onTransport (relabel transportMap) payload) := by
  cases htransport : transport? payload with
  | none =>
    refine .of_skip (remapPayload_of_none transportMap htransport) (onTransport_eq_self ?_)
    intro transport hsome
    rw [htransport] at hsome
    cases hsome
  | some transport =>
    obtain ⟨text, rfl⟩ := h transport htransport
    obtain ⟨members, conn, rfl, hconnection, htext⟩ := dicts_of_transport htransport
    cases hlabel : transportMap.get? text with
    | none =>
      refine .of_skip (by simp [remapPayload, hconnection, htext, lookupTransport, hlabel]) (onTransport_eq_self ?_)
      intro transport hsome
      rw [htransport, Option.some.injEq] at hsome
      rw [← hsome, relabel, hlabel, Option.getD_none]
    | some label => exact ⟨_, remapPayload_of_label hconnection htext hlabel, rfl⟩

theorem remapTransport_eq (transportMap : Dict String String) {table : Dict ℤ (ConfigRow φ ρ)}
    (h : ∀ row ∈ table.values, TextTransport row.payload) :
    remapTransport transportMap table =
      .ok (table.map (ConfigRow.onPayload (onTransport (relabel transportMap)))) :=
  rewriteRows_select (fun row hrow => remapPayload_rewrites transportMap (h row hrow))

/-! ### The variables -/

def onVariables (f : ℕ → JsonValue φ → JsonValue φ) (payload : JsonValue φ) : JsonValue φ :=
  payload.onMember "variables" (fun vars => vars.onItems f)

/-- `mutate` edits a dictionary as `f` does, which leaves every other value alone, and reports a change. -/
structure Edits (mutate : List (String × JsonValue φ) → ℕ → List (String × JsonValue φ) × Bool)
    (f : ℕ → JsonValue φ → JsonValue φ) : Prop where
  item : ∀ position v, (mutateItem mutate position v).1 = f position v
  unchanged : ∀ position v, (mutateItem mutate position v).2 = false → (mutateItem mutate position v).1 = v

theorem edits_stripIndex : Edits (φ := φ) stripIndex (fun _ v => v.without "index") where
  item position v := by
    cases v with
    | dict members =>
      cases hindex : Dict.lookup "index" members with
      | none =>
        have hsame : (JsonValue.dict members).without "index" = .dict members := JsonValue.without_of_absent hindex
        rw [hsame, mutateItem, stripIndex, hindex]
      | some index =>
        rw [mutateItem, stripIndex, hindex]
        rfl
    | _ => rfl
  unchanged position v h := by
    cases v with
    | dict members =>
      cases hindex : Dict.lookup "index" members with
      | none => rw [mutateItem, stripIndex, hindex]
      | some index => simp [mutateItem, stripIndex, hindex] at h
    | _ => rfl

theorem edits_backfillIndex :
    Edits (φ := φ) backfillIndex (fun position v => v.withDefault "index" (.int position)) where
  item position v := by
    cases v with
    | dict members =>
      cases hindex : Dict.lookup "index" members with
      | none => simp [mutateItem, backfillIndex, JsonValue.withDefault, hindex]
      | some index => simp [mutateItem, backfillIndex, JsonValue.withDefault, hindex]
    | _ => rfl
  unchanged position v h := by
    cases v with
    | dict members =>
      cases hindex : Dict.lookup "index" members with
      | none => simp [mutateItem, backfillIndex, hindex] at h
      | some index => rw [mutateItem, backfillIndex, hindex]
    | _ => rfl

theorem Edits.items {mutate : List (String × JsonValue φ) → ℕ → List (String × JsonValue φ) × Bool}
    {f : ℕ → JsonValue φ → JsonValue φ} (h : Edits mutate f) (position : ℕ) (items : List (JsonValue φ)) :
    (mutateItems mutate position items).1 = items.mapIdx (fun i => f (position + i)) ∧
      ((mutateItems mutate position items).2 = false → (mutateItems mutate position items).1 = items) := by
  induction items generalizing position with
  | nil => exact ⟨rfl, fun _ => rfl⟩
  | cons item items ih =>
    obtain ⟨hrest, hsame⟩ := ih (position + 1)
    constructor
    · have hshift : (fun i => f (position + 1 + i)) = fun i => f (position + (i + 1)) := by
        funext i
        rw [Nat.add_assoc, Nat.add_comm 1 i]
      rw [mutateItems, List.mapIdx_cons, hrest, h.item, hshift]
      rfl
    · intro hchanged
      rw [mutateItems, Bool.or_eq_false_iff] at hchanged
      rw [mutateItems, h.unchanged position item hchanged.1, hsame hchanged.2]

theorem Edits.rewrites {mutate : List (String × JsonValue φ) → ℕ → List (String × JsonValue φ) × Bool}
    {f : ℕ → JsonValue φ → JsonValue φ} (h : Edits mutate f) (payload : JsonValue φ) :
    Rewrites (rewritePayload mutate) payload (onVariables f payload) := by
  cases payload with
  | dict members =>
    have hskip : (∀ items, Dict.lookup "variables" members ≠ some (.list items)) →
        onVariables f (.dict members) = .dict members := by
      intro hother
      apply JsonValue.onMember_eq_self
      intro vars hvars
      cases vars with
      | list items => exact absurd hvars (hother items)
      | _ => rfl
    cases hvars : Dict.lookup "variables" members with
    | none => exact .of_skip (by simp [rewritePayload, hvars]) (hskip (by simp [hvars]))
    | some vars =>
      cases vars with
      | list items =>
        obtain ⟨hitems, hsame⟩ := h.items 0 items
        have hlist : JsonValue.list (mutateItems mutate 0 items).1 = (JsonValue.list items).onItems f := by
          rw [hitems, JsonValue.onItems]
          simp only [Nat.zero_add]
        have hedit : onVariables f (.dict members) =
            .dict (Dict.assign "variables" (.list (mutateItems mutate 0 items).1) members) := by
          rw [onVariables, JsonValue.onMember, Dict.assign_eq_adjust hvars hlist.symm]
        cases hchanged : (mutateItems mutate 0 items).2 with
        | false =>
          refine .of_skip (by simp [rewritePayload, hvars, hchanged]) ?_
          rw [hedit, hsame hchanged, Dict.assign_of_lookup hvars]
        | true =>
          refine ⟨some (onVariables f (.dict members)), ?_, rfl⟩
          rw [hedit]
          simp only [rewritePayload, hvars, hchanged, if_pos]
      | _ => exact .of_skip (by simp [rewritePayload, hvars]) (hskip (by simp [hvars]))
  | _ => exact .of_skip rfl rfl

theorem Edits.rewriteVariables {mutate : List (String × JsonValue φ) → ℕ → List (String × JsonValue φ) × Bool}
    {f : ℕ → JsonValue φ → JsonValue φ} (h : Edits mutate f) (table : Dict ℤ (ConfigRow φ ρ)) :
    rewriteVariables mutate table = .ok (table.map (ConfigRow.onPayload (onVariables f))) :=
  rewriteRows_select (fun row _ => h.rewrites row.payload)

/-! ## What the revisions do -/

def modbusAsTcp : JsonValue φ → JsonValue φ
  | .str "modbus" => .str "modbus_tcp"
  | v => v

def udpAsTcp : JsonValue φ → JsonValue φ
  | .str "modbus_udp" => .str "modbus_tcp"
  | v => v

/-- No dictionary in the list of variables has the key `index`. -/
def NoIndex (payload : JsonValue φ) : Prop :=
  ∀ items, payload.member? "variables" = some (.list items) → ∀ item ∈ items, item.member? "index" = none

theorem values_onPayload {p : JsonValue φ → Prop} {f : JsonValue φ → JsonValue φ}
    {table : Dict ℤ (ConfigRow φ ρ)} (hf : ∀ payload, p payload → p (f payload))
    (h : ∀ row ∈ table.values, p row.payload) :
    ∀ row ∈ (table.map (ConfigRow.onPayload f)).values, p row.payload := by
  intro row hrow
  rw [Dict.values_map] at hrow
  obtain ⟨before, hbefore, rfl⟩ := List.mem_map.mp hrow
  exact hf before.payload (h before hbefore)

theorem transport?_onVariables (f : ℕ → JsonValue φ → JsonValue φ) (payload : JsonValue φ) :
    transport? (onVariables f payload) = transport? payload := by
  rw [transport?, transport?, onVariables, JsonValue.member?_onMember, if_neg (by decide)]

theorem TextTransport.onVariables {payload : JsonValue φ} (h : TextTransport payload)
    (f : ℕ → JsonValue φ → JsonValue φ) : TextTransport (onVariables f payload) := by
  rw [TextTransport, transport?_onVariables]
  exact h

theorem onVariables_onTransport (f : ℕ → JsonValue φ → JsonValue φ) (g : JsonValue φ → JsonValue φ)
    (payload : JsonValue φ) :
    onVariables f (onTransport g payload) = onTransport g (onVariables f payload) :=
  JsonValue.onMember_comm (by decide) _ _ payload

theorem onVariables_onVariables (f g : ℕ → JsonValue φ → JsonValue φ) (payload : JsonValue φ) :
    onVariables g (onVariables f payload) = onVariables (fun position v => g position (f position v)) payload := by
  rw [onVariables, onVariables, onVariables, JsonValue.onMember_onMember]
  simp only [JsonValue.onItems_onItems]

theorem onVariables_eq_self {f : ℕ → JsonValue φ → JsonValue φ} {payload : JsonValue φ}
    (h : ∀ items, payload.member? "variables" = some (.list items) →
      ∀ item ∈ items, ∀ position, f position item = item) : onVariables f payload = payload := by
  apply JsonValue.onMember_eq_self
  intro vars hvars
  apply JsonValue.onItems_eq_self
  rintro items rfl
  exact h items hvars

theorem relabel_upgrade : relabel (φ := φ) (Dict.ofList [("modbus", "modbus_tcp")]) = modbusAsTcp := by
  funext v
  cases v with
  | str text =>
    by_cases hmodbus : text = "modbus"
    · subst hmodbus
      rfl
    · simp [relabel, modbusAsTcp, Dict.get?_ofList, hmodbus, Ne.symm hmodbus]
  | _ => rfl

theorem modbusAsTcp_relabel_downgrade {v : JsonValue φ} (h : v ≠ .str "modbus") :
    modbusAsTcp (relabel (Dict.ofList [("modbus_tcp", "modbus"), ("modbus_udp", "modbus")]) v) = udpAsTcp v := by
  cases v with
  | str text =>
    by_cases htcp : text = "modbus_tcp"
    · subst htcp
      rfl
    · by_cases hudp : text = "modbus_udp"
      · subst hudp
        rfl
      · simp [relabel, modbusAsTcp, udpAsTcp, Dict.get?_ofList, hudp, Ne.symm htcp, Ne.symm hudp]
  | _ => rfl

theorem modbusAsTcp_modbusAsTcp (v : JsonValue φ) : modbusAsTcp (modbusAsTcp v) = modbusAsTcp v := by
  cases v with
  | str text =>
    by_cases hmodbus : text = "modbus"
    · subst hmodbus
      rfl
    · simp [modbusAsTcp, hmodbus]
  | _ => rfl

/-- What both upgrades make of a payload. -/
def upgraded (payload : JsonValue φ) : JsonValue φ :=
  onVariables (fun _ v => v.without "index") (onTransport modbusAsTcp payload)

/-- What both downgrades make of a payload. -/
def downgraded (payload : JsonValue φ) : JsonValue φ :=
  onTransport (relabel (Dict.ofList [("modbus_tcp", "modbus"), ("modbus_udp", "modbus")]))
    (onVariables (fun position v => v.withDefault "index" (.int position)) payload)

theorem TextTransport.renamed {payload : JsonValue φ} (h : TextTransport payload) :
    TextTransport (Migrations.onTransport modbusAsTcp payload) := by
  rw [← relabel_upgrade]
  exact h.onTransport _

theorem TextTransport.upgraded {payload : JsonValue φ} (h : TextTransport payload) :
    TextTransport (upgraded payload) := h.renamed.onVariables _

theorem TextTransport.downgraded {payload : JsonValue φ} (h : TextTransport payload) :
    TextTransport (downgraded payload) := (h.onVariables _).onTransport _

theorem upgraded_downgraded {payload : JsonValue φ} (hindex : NoIndex payload)
    (hmodbus : transport? payload ≠ some (.str "modbus")) :
    upgraded (downgraded payload) = onTransport udpAsTcp payload := by
  have hvars : onVariables (fun position v => (v.withDefault "index" (.int position)).without "index") payload =
      payload := by
    apply onVariables_eq_self
    intro items hitems item hitem position
    exact JsonValue.without_withDefault _ (hindex items hitems item hitem)
  rw [upgraded, downgraded, onTransport_onTransport, onVariables_onTransport, onVariables_onVariables, hvars]
  apply onTransport_congr
  intro transport htransport
  apply modbusAsTcp_relabel_downgrade
  rintro rfl
  exact hmodbus htransport

theorem onTransport_upgraded (payload : JsonValue φ) :
    onTransport modbusAsTcp (upgraded payload) = upgraded payload := by
  rw [upgraded, ← onVariables_onTransport, onTransport_onTransport]
  simp only [modbusAsTcp_modbusAsTcp]

theorem onVariables_upgraded (payload : JsonValue φ) :
    onVariables (fun _ v => v.without "index") (upgraded payload) = upgraded payload := by
  rw [upgraded, onVariables_onVariables]
  simp only [JsonValue.without_without]

/-! ### On a table -/

theorem map_onPayload_onPayload (f g : JsonValue φ → JsonValue φ) (table : Dict ℤ (ConfigRow φ ρ)) :
    (table.map (ConfigRow.onPayload f)).map (ConfigRow.onPayload g) =
      table.map (ConfigRow.onPayload (fun payload => g (f payload))) := by
  apply Dict.ext
  show (List.map _ _).map _ = List.map _ _
  rw [List.map_map]
  rfl

theorem DropVariableIndex.upgrade_eq (table : Dict ℤ (ConfigRow φ ρ)) :
    DropVariableIndex.upgrade table =
      .ok (table.map (ConfigRow.onPayload (onVariables (fun _ v => v.without "index")))) :=
  edits_stripIndex.rewriteVariables table

theorem NormalizeModbusTransport.upgrade_eq {table : Dict ℤ (ConfigRow φ ρ)}
    (h : ∀ row ∈ table.values, TextTransport row.payload) :
    NormalizeModbusTransport.upgrade table = .ok (table.map (ConfigRow.onPayload (onTransport modbusAsTcp))) := by
  rw [NormalizeModbusTransport.upgrade, remapTransport_eq _ h, relabel_upgrade]

theorem upgradeBoth_eq {table : Dict ℤ (ConfigRow φ ρ)} (h : ∀ row ∈ table.values, TextTransport row.payload) :
    upgradeBoth table = .ok (table.map (ConfigRow.onPayload upgraded)) := by
  rw [upgradeBoth, NormalizeModbusTransport.upgrade_eq h]
  show DropVariableIndex.upgrade _ = _
  rw [DropVariableIndex.upgrade_eq, map_onPayload_onPayload]
  rfl

theorem downgradeBoth_eq {table : Dict ℤ (ConfigRow φ ρ)} (h : ∀ row ∈ table.values, TextTransport row.payload) :
    downgradeBoth table = .ok (table.map (ConfigRow.onPayload downgraded)) := by
  rw [downgradeBoth, DropVariableIndex.downgrade, edits_backfillIndex.rewriteVariables]
  show NormalizeModbusTransport.downgrade _ = _
  rw [NormalizeModbusTransport.downgrade,
    remapTransport_eq _ (values_onPayload (fun _ hp => hp.onVariables _) h), map_onPayload_onPayload]
  rfl

theorem NormalizeModbusTransport.upgrade_upgrade {table : Dict ℤ (ConfigRow φ ρ)}
    (h : ∀ row ∈ table.values, TextTransport row.payload) :
    (NormalizeModbusTransport.upgrade table >>= NormalizeModbusTransport.upgrade) =
      NormalizeModbusTransport.upgrade table := by
  rw [NormalizeModbusTransport.upgrade_eq h]
  show NormalizeModbusTransport.upgrade _ = _
  rw [NormalizeModbusTransport.upgrade_eq (values_onPayload (fun _ hp => hp.renamed) h), map_onPayload_onPayload]
  simp only [onTransport_onTransport, modbusAsTcp_modbusAsTcp]

theorem DropVariableIndex.upgrade_upgrade (table : Dict ℤ (ConfigRow φ ρ)) :
    (DropVariableIndex.upgrade table >>= DropVariableIndex.upgrade) = DropVariableIndex.upgrade table := by
  rw [DropVariableIndex.upgrade_eq]
  show DropVariableIndex.upgrade _ = _
  rw [DropVariableIndex.upgrade_eq, map_onPayload_onPayload]
  simp only [onVariables_onVariables, JsonValue.without_without]

theorem downgradeBoth_upgradeBoth {table : Dict ℤ (ConfigRow φ ρ)}
    (h : ∀ row ∈ table.values, TextTransport row.payload) :
    (downgradeBoth table >>= upgradeBoth) =
      .ok (table.map (ConfigRow.onPayload (fun payload => upgraded (downgraded payload)))) := by
  rw [downgradeBoth_eq h]
  show upgradeBoth _ = _
  rw [upgradeBoth_eq (values_onPayload (fun _ hp => hp.downgraded) h), map_onPayload_onPayload]

/-- Both upgrades rename `modbus` and drop `index`, keep everything else and are done after one run. Down and
up again, a payload that had neither comes back with its other Modbus transport named `modbus_tcp`. -/
theorem migrations_exact (table : Dict ℤ (ConfigRow φ ρ)) (h : ∀ row ∈ table.values, TextTransport row.payload) :
    ∃ after restored : Dict ℤ (ConfigRow φ ρ),
      upgradeBoth table = .ok after ∧ after = table.map (ConfigRow.onPayload upgraded) ∧
      (NormalizeModbusTransport.upgrade table >>= NormalizeModbusTransport.upgrade) =
        NormalizeModbusTransport.upgrade table ∧
      (DropVariableIndex.upgrade table >>= DropVariableIndex.upgrade) = DropVariableIndex.upgrade table ∧
      NormalizeModbusTransport.upgrade after = .ok after ∧ DropVariableIndex.upgrade after = .ok after ∧
      (downgradeBoth table >>= upgradeBoth) = .ok restored ∧ restored.keys = table.keys ∧
      ∀ id row, table.get? id = some row → NoIndex row.payload → transport? row.payload ≠ some (.str "modbus") →
        restored.get? id = some (row.onPayload (onTransport udpAsTcp)) := by
  refine ⟨_, _, upgradeBoth_eq h, rfl, NormalizeModbusTransport.upgrade_upgrade h,
    DropVariableIndex.upgrade_upgrade table, ?_, ?_, downgradeBoth_upgradeBoth h, ?_, ?_⟩
  · rw [NormalizeModbusTransport.upgrade_eq (values_onPayload (fun _ hp => hp.upgraded) h), map_onPayload_onPayload]
    simp only [onTransport_upgraded]
  · rw [DropVariableIndex.upgrade_eq, map_onPayload_onPayload]
    simp only [onVariables_upgraded]
  · show (List.map _ _).map _ = _
    rw [List.map_map]
    rfl
  · intro id row hrow hindex hmodbus
    rw [Dict.get?_map, hrow, Option.map_some, ConfigRow.onPayload, ConfigRow.onPayload,
      upgraded_downgraded hindex hmodbus]

/-- A config from before both revisions and one that was saved since. -/
def legacyConfigs : Dict ℤ (ConfigRow Binary.Double String) :=
  Dict.ofList [
    (1, ⟨.dict [("connection", .dict [("transport", .str "modbus")]),
      ("variables", .list [.dict [("index", .int 0), ("name", .str "a")], .dict [("index", .int 34), ("name", .str "b")]])],
      "boiler"⟩),
    (2, ⟨.dict [("connection", .dict [("transport", .str "modbus_udp"), ("port", .int 502)]),
      ("variables", .list [.dict [("name", .str "c")]])], "pump"⟩)]

theorem legacyConfigs_migrated : ∃ after restored : Dict ℤ (ConfigRow Binary.Double String),
    upgradeBoth legacyConfigs = .ok after ∧
    after.get? 1 = some ⟨.dict [("connection", .dict [("transport", .str "modbus_tcp")]),
      ("variables", .list [.dict [("name", .str "a")], .dict [("name", .str "b")]])], "boiler"⟩ ∧
    (downgradeBoth legacyConfigs >>= upgradeBoth) = .ok restored ∧
    restored.get? 2 = some ⟨.dict [("connection", .dict [("transport", .str "modbus_tcp"), ("port", .int 502)]),
      ("variables", .list [.dict [("name", .str "c")]])], "pump"⟩ := by
  have htext : ∀ row ∈ legacyConfigs.values, TextTransport row.payload := by
    intro row hrow
    have hcases : row ∈ legacyConfigs.values ↔ _ := List.mem_cons
    rcases hcases.mp hrow with rfl | hrow
    · rintro transport ⟨⟩
      exact ⟨_, rfl⟩
    · rw [List.mem_singleton.mp hrow]
      rintro transport ⟨⟩
      exact ⟨_, rfl⟩
  obtain ⟨after, restored, hafter, rfl, -, -, -, -, hrestored, -, hback⟩ := migrations_exact legacyConfigs htext
  refine ⟨_, restored, hafter, rfl, hrestored, hback 2 _ rfl ?_ (by simp [transport?, JsonValue.member?, Dict.lookup])⟩
  rintro items ⟨⟩ item hitem
  rw [List.mem_singleton.mp hitem]
  rfl

end Tstlan.Migrations
