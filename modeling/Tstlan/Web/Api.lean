import Tstlan.Effects
import Tstlan.Foundations.Js
import Tstlan.Foundations.Percent

/-! # The calls of the web (`lib/api.ts`, `next.config.ts`)

Every function of the module is one request under `/api`: its method, the segments of its path and its
body. The client takes the segments `.` and `..` for steps, the web server redirects to the path without
empty segments and rewrites `/api/:path*` to the application, whose router has the escapes read. Names of
devices and variables and logins stand in the path. -/
namespace Tstlan
open Foundations
set_option autoImplicit false

namespace Web

/-- A call; `β` is a body as the application decodes it. -/
inductive ApiCall (β : Type)
  | fetchMe
  | login (body : β)
  | logout
  | listUsers
  | listDevices
  | getDevice (deviceId : String)
  | listValues (deviceId : String)
  | writeValue (deviceId name : String) (body : β)
  | getHistory (deviceId : String)
  | streamValues (deviceId : String)
  | listConfigs
  | getConfig (id : ℤ)
  | createConfig (body : β)
  | updateConfig (id : ℤ) (body : β)
  | deleteConfig (id : ℤ)
  | shareConfig (id : ℤ) (body : β)
  | unshareConfig (id : ℤ) (grantee : String)

/-- `encodeURIComponent`. -/
def encodeURIComponent (text : String) : List Char := Percent.encode text.toList

namespace ApiCall
variable {β : Type}

/-! ## Requests -/

def method : ApiCall β → String
  | .login _ => "POST"
  | .logout => "POST"
  | .writeValue _ _ _ => "PUT"
  | .createConfig _ => "POST"
  | .updateConfig _ _ => "PUT"
  | .deleteConfig _ => "DELETE"
  | .shareConfig _ _ => "POST"
  | .unshareConfig _ _ => "DELETE"
  | _ => "GET"

/-- The segments of the path behind `/api`. -/
def path : ApiCall β → List (List Char)
  | .fetchMe => ["auth".toList, "me".toList]
  | .login _ => ["auth".toList, "login".toList]
  | .logout => ["auth".toList, "logout".toList]
  | .listUsers => ["users".toList]
  | .listDevices => ["devices".toList]
  | .getDevice deviceId => ["devices".toList, encodeURIComponent deviceId]
  | .listValues deviceId => ["devices".toList, encodeURIComponent deviceId, "values".toList]
  | .writeValue deviceId name _ =>
    ["devices".toList, encodeURIComponent deviceId, "values".toList, encodeURIComponent name]
  | .getHistory deviceId => ["devices".toList, encodeURIComponent deviceId, "history".toList]
  | .streamValues deviceId => ["devices".toList, encodeURIComponent deviceId, "stream".toList]
  | .listConfigs => ["configs".toList]
  | .getConfig id => ["configs".toList, (toString id).toList]
  | .createConfig _ => ["configs".toList]
  | .updateConfig id _ => ["configs".toList, (toString id).toList]
  | .deleteConfig id => ["configs".toList, (toString id).toList]
  | .shareConfig id _ => ["configs".toList, (toString id).toList, "shares".toList]
  | .unshareConfig id grantee =>
    ["configs".toList, (toString id).toList, "shares".toList, encodeURIComponent grantee]

def body : ApiCall β → Option β
  | .login body => some body
  | .writeValue _ _ body => some body
  | .createConfig body => some body
  | .updateConfig _ body => some body
  | .shareConfig _ body => some body
  | _ => none

/-- Whether the call takes the CSRF token and sends it as `X-CSRF-Token`. -/
def guarded : ApiCall β → Bool
  | .logout => true
  | .writeValue _ _ _ => true
  | .createConfig _ => true
  | .updateConfig _ _ => true
  | .deleteConfig _ => true
  | .shareConfig _ _ => true
  | .unshareConfig _ _ => true
  | _ => false

/-- The path that the router matches, none outside `/api`. -/
def delivered (call : ApiCall β) : Option String := (Url.received "api".toList call.path).map String.ofList

/-- Where the request arrives. -/
def arrives (call : ApiCall β) : Option Endpoint := call.delivered.bind (route call.method)

/-! ## Endpoints -/

/-- The endpoint that the call is for. -/
def endpoint : ApiCall β → Endpoint
  | .fetchMe => .me
  | .login _ => .login
  | .logout => .logout
  | .listUsers => .users
  | .listDevices => .devices
  | .getDevice deviceId => .device deviceId
  | .listValues deviceId => .values deviceId
  | .writeValue deviceId name _ => .writeValue deviceId name
  | .getHistory deviceId => .history deviceId
  | .streamValues deviceId => .stream deviceId
  | .listConfigs => .configs
  | .getConfig id => .config (toString id)
  | .createConfig _ => .createConfig
  | .updateConfig id _ => .updateConfig (toString id)
  | .deleteConfig id => .deleteConfig (toString id)
  | .shareConfig id _ => .share (toString id)
  | .unshareConfig id grantee => .unshare (toString id) grantee

/-- The texts that the caller puts into the path. -/
def params : ApiCall β → List String
  | .getDevice deviceId => [deviceId]
  | .listValues deviceId => [deviceId]
  | .writeValue deviceId name _ => [deviceId, name]
  | .getHistory deviceId => [deviceId]
  | .streamValues deviceId => [deviceId]
  | .unshareConfig _ grantee => [grantee]
  | _ => []

theorem method_endpoint (call : ApiCall β) : call.method = call.endpoint.method := by
  cases call <;> rfl

/-- The token is sent where the middleware asks for it. -/
theorem guarded_iff (call : ApiCall β) :
    call.guarded = true ↔ call.method ∈ UNSAFE_METHODS ∧ call.endpoint ≠ .login := by
  cases call <;> simp [guarded, method, endpoint, UNSAFE_METHODS]

end ApiCall

/-! ## The way of a call -/

section
variable {β : Type}

/-- A number stands in a path as it is. -/
theorem toString_plain (id : ℤ) :
    (∀ c ∈ (toString id).toList, Percent.unreserved c = true) ∧ Url.Portable (toString id).toList := by
  have hdigits : ∀ n : ℕ, ∀ c ∈ n.repr.toList, c.isDigit = true := by
    intro n c hc
    rw [Nat.repr_eq_ofList_toDigits, String.toList_ofList] at hc
    exact Json.isDigit_toDigits hc
  have hne : ∀ n : ℕ, n.repr.toList ≠ [] := by
    intro n
    rw [Nat.repr_eq_ofList_toDigits, String.toList_ofList]
    exact Nat.toDigits_ne_nil
  have hchars : ∀ c ∈ (toString id).toList, c.isDigit = true ∨ c = '-' := by
    intro c hc
    rw [Int.toString_eq_repr, Int.repr_eq_if] at hc
    split at hc
    · exact .inl (hdigits _ c hc)
    · rw [String.toList_append, List.mem_append] at hc
      exact hc.elim (fun h => .inr (List.mem_singleton.mp h)) (fun h => .inl (hdigits _ c h))
  have hsome : (toString id).toList ≠ [] := by
    rw [Int.toString_eq_repr, Int.repr_eq_if]
    split
    · exact hne _
    · simp
  have hnot : ∀ d : Char, d.isDigit = false → d ≠ '-' → d ∉ (toString id).toList := by
    intro d hd hdash h
    refine (hchars d h).elim (fun hdigit => ?_) hdash
    rw [hd] at hdigit
    cases hdigit
  have hdot := hnot '.' (by decide) (by decide)
  refine ⟨fun c hc => ?_, hsome, hnot '/' (by decide) (by decide), ?_⟩
  · rw [Percent.unreserved, Bool.or_eq_true]
    refine (hchars c hc).elim (fun h => .inl ?_) (fun h => .inr (by rw [h]; decide))
    rw [Char.isAlphanum, h, Bool.or_true]
  · rintro (h | h)
    · exact hdot (h ▸ List.mem_cons_self)
    · exact hdot (h ▸ List.mem_cons_self)

namespace ApiCall

theorem path_eq (call : ApiCall β) :
    call.path = (call.endpoint.texts.map String.toList).map Percent.encode := by
  have hfixed : ∀ t ∈ ["auth", "me", "login", "logout", "users", "devices", "values", "history", "stream", "configs",
      "shares"], Percent.encode t.toList = t.toList := by decide
  have hid : ∀ id : ℤ, Percent.encode (toString id).toList = (toString id).toList :=
    fun id => Percent.encode_of_unreserved (toString_plain id).1
  simp only [List.forall_mem_cons] at hfixed
  cases call <;> simp only [path, endpoint, Endpoint.texts, encodeURIComponent, List.map_cons, List.map_nil, hfixed, hid]

/-- What the caller has not put into the path can stand in it. -/
theorem portable_texts (call : ApiCall β) :
    (∀ t ∈ call.endpoint.texts.map String.toList, Url.Portable t) ↔
      ∀ t ∈ call.params, Url.Portable t.toList := by
  have hfixed : ∀ t ∈ ["auth", "me", "login", "logout", "users", "devices", "values", "history", "stream", "configs",
      "shares"], Url.Portable t.toList := by decide
  have hid : ∀ id : ℤ, Url.Portable (toString id).toList := fun id => (toString_plain id).2
  rw [List.forall_mem_map]
  simp only [List.forall_mem_cons] at hfixed
  cases call <;> simp only [endpoint, Endpoint.texts, params, List.forall_mem_cons, hfixed, hid, true_and]

theorem segments_eq {path : List Char} {texts : List String} :
    Url.segments (String.ofList path) = "" :: texts ↔ Url.splitSegments path = [] :: texts.map String.toList := by
  rw [Url.segments, String.toList_ofList]
  constructor
  · intro h
    have hback := congrArg (List.map String.toList) h
    rw [List.map_map] at hback
    simpa [Function.comp_def] using hback
  · intro h
    rw [h, List.map_cons, List.map_map]
    simp [Function.comp_def]

/-- A call arrives at its endpoint exactly when its path can carry what it names. -/
theorem arrives_iff (call : ApiCall β) :
    call.arrives = some call.endpoint ↔ ∀ t ∈ call.params, Url.Portable t.toList := by
  have hsome : ∃ t ∈ call.endpoint.texts.map String.toList, t ≠ [] := by
    cases call <;> exact ⟨_, List.mem_cons_self, by decide⟩
  have hplain : ∀ c ∈ "api".toList, Percent.unreserved c = true := List.all_eq_true.mp rfl
  have hreceived := @Url.received_iff "api".toList (by decide) hplain (by decide) _ hsome
  rw [← path_eq] at hreceived
  rw [← portable_texts, ← hreceived, Option.map_eq_some_iff]
  have harrives : call.arrives = some call.endpoint ↔ ∃ path, Url.received "api".toList call.path = some path ∧
      route call.method (String.ofList path) = some call.endpoint := by
    rw [arrives, delivered, Option.bind_eq_some_iff]
    simp only [Option.map_eq_some_iff]
    exact ⟨fun ⟨_, ⟨path, hpath, he⟩, hroute⟩ => ⟨path, hpath, he ▸ hroute⟩,
      fun ⟨path, hpath, hroute⟩ => ⟨_, ⟨path, hpath, rfl⟩, hroute⟩⟩
  rw [harrives]
  refine exists_congr (fun path => and_congr_right (fun hpath => ?_))
  rw [route_eq_some, segments_eq]
  refine ⟨fun h => h.2.2, fun h => ⟨fun hempty => ?_, call.method_endpoint, h⟩⟩
  have hall := hreceived.mp (by rw [hpath, Option.map_some, h])
  rw [segments_eq.mpr h, List.tail_cons] at hempty
  exact (hall _ (List.mem_map_of_mem hempty)).1 rfl

/-- A step at the end takes the segment in front of it away. -/
theorem received_parent {t : List Char} (hplain : ∀ c ∈ t, Percent.unreserved c = true) (ht : Url.Portable t) :
    Url.received "api".toList ["configs".toList, t, "shares".toList, ['.', '.']] =
      some (Url.pathText ["configs".toList, t]) := by
  obtain ⟨hone, htwo⟩ := not_or.mp ht.2.2
  have htexts : ["configs".toList, t].map Percent.encode = ["configs".toList, t] := by
    rw [List.map_cons, List.map_cons, List.map_nil, Percent.encode_of_unreserved hplain]
    rfl
  have hwalk : Url.walk [] ["api".toList, "configs".toList, t, "shares".toList, ['.', '.']] =
      ["api".toList, "configs".toList, t, []] := by
    simp [Url.walk, hone, htwo]
  have hfilter : ["configs".toList, t, []].filter (fun s => s ≠ []) = ["configs".toList, t] := by
    simp [ht.1]
  rw [Url.received, hwalk]
  simp only [if_true]
  rw [hfilter, ← Url.unquote_pathText, htexts]

/-- Taking a share back from a user called `..` is the request that deletes the config. -/
theorem arrives_unshare_parent (id : ℤ) :
    (unshareConfig id ".." : ApiCall β).arrives = some (.deleteConfig (toString id)) := by
  obtain ⟨hplain, hportable⟩ := toString_plain id
  have hslashes : ∀ s ∈ ["configs".toList, (toString id).toList], '/' ∉ s := by
    simp only [List.forall_mem_cons]
    exact ⟨by decide, hportable.2.1, fun _ h => absurd h List.not_mem_nil⟩
  have hsegments : Url.segments (String.ofList (Url.pathText ["configs".toList, (toString id).toList])) =
      ["", "configs", toString id] :=
    segments_eq.mpr (Url.splitSegments_pathText (List.cons_ne_nil _ _) hslashes)
  have hempty : "" ∉ ["configs", toString id] := by
    simp only [List.mem_cons, List.not_mem_nil, or_false, not_or]
    exact ⟨by decide, fun h => hportable.1 (by rw [← h]; rfl)⟩
  have hdelivered : (unshareConfig id ".." : ApiCall β).delivered =
      some (String.ofList (Url.pathText ["configs".toList, (toString id).toList])) :=
    congrArg (Option.map String.ofList) (received_parent hplain hportable)
  rw [arrives, hdelivered, Option.bind_some, route_eq_some, hsegments]
  exact ⟨hempty, rfl, rfl⟩

/-- A call of the web reaches the endpoint it is for exactly when the ids, names and logins that it puts into
its path are not empty, have no slash and are not steps; it sends the CSRF token exactly where the middleware asks
for one; and taking back the share of a user called `..` deletes the config. -/
theorem calls_arrive : (∀ call : ApiCall β,
      (call.arrives = some call.endpoint ↔ ∀ t ∈ call.params, Url.Portable t.toList) ∧
      (call.guarded = true ↔ call.method ∈ UNSAFE_METHODS ∧ call.endpoint ≠ .login)) ∧
    ∀ id : ℤ, (unshareConfig id ".." : ApiCall β).arrives = some (.deleteConfig (toString id)) :=
  ⟨fun call => ⟨arrives_iff call, guarded_iff call⟩, arrives_unshare_parent⟩

end ApiCall
end
end Web
end Tstlan
