import Tstlan.Devices.Values
import Tstlan.Devices.WriteValue
import Tstlan.Foundations.Js
import Tstlan.Web.Api
import Tstlan.Web.Monitor

/-! # The value editor (`components/device-monitor.tsx`, `lib/api.ts`)

A draft becomes a Number, the Number a JSON body, the body an argument of the endpoint that the call reaches, and
what the backend then sends becomes a Number again. Integers are modelled on the whole way; what the two languages
make of any other draft or body is a parameter. -/
namespace Tstlan.Web
open Foundations Foundations.Numeral
set_option autoImplicit false

/-- What happens outside of the integers. -/
structure Fractions where
  /-- `JSON.stringify(Number(draft))` of a draft that is no integer literal, `none` for `NaN`. -/
  stringify : List Char → Option (List Char)
  /-- The request model on a body that is no flat object of integers, texts and Booleans. -/
  request : List Char → Option Number

variable (fractions : Fractions)

/-! ## The frontend -/

/-- `JSON.stringify` of a Number. -/
def stringify : Js.Number → List Char
  | .integer n exact => (Js.Number.integer n exact).text
  | .infinity _ => "null".toList

/-- `JSON.stringify(Number(draft))`; `Number` ignores blanks around the literal. -/
def draftText (draft : List Char) : Option (List Char) :=
  match Js.numberOf (Js.trimChars draft) with
  | some x => some (stringify x)
  | none => fractions.stringify draft

/-- What `submit` does first: a message to the user, or a request with this body. -/
inductive Submission
  | message (text : String)
  | request (body : List Char)
  deriving DecidableEq

def submit (csrfToken : Option String) (draft : List Char) : Submission :=
  match if Js.trimChars draft = [] then none else draftText fractions draft with
  | none => .message "введите число"
  | some text =>
    match csrfToken with
    | none => .message "нет сессии"
    | some _ => .request (Json.compact "value" text)

/-- `JSON.parse` of a value in a response or an event, if it is an integer. -/
def parsed : Number → Option Js.Number
  | .int n => Js.numberOf (Json.writeInt n)
  | _ => none

def receivedValues (values : List Tstlan.VariableValue) : List (VariableValue (Option Js.Number)) :=
  values.map (fun value => ⟨value.name, parsed value.value⟩)

/-! ## The backend -/

/-- The strict model of the body (`WriteValueRequest`): one member, which is no Boolean. -/
def writeValueRequest (body : List Char) : Option Number :=
  match Json.loads body with
  | none => fractions.request body
  | some d =>
    if d.keys = ["value"] then
      match d.get? "value" with
      | some (.int n) => some (.int n)
      | _ => none
    else none

/-- The editor of one variable, with the user behind it. -/
structure ValueEditor where
  csrfToken : Option String
  user : User
  deviceId : String
  name : String

namespace ValueEditor

/-- The value of the response, if there is one, and the buffers after the submission. -/
def enter (editor : ValueEditor) (root : LogLevel) (bench : Bench) (draft : List Char)
    (io : InMemoryUnidriverIo) : Option Tstlan.VariableValue × InMemoryUnidriverIo :=
  match submit fractions editor.csrfToken draft with
  | .message _ => (none, io)
  | .request body =>
    match (ApiCall.writeValue editor.deviceId editor.name body).arrives with
    | some (.writeValue deviceId name) =>
      match writeValueRequest fractions body with
      | none => (none, io)
      | some value =>
        match ((⟨editor.user, deviceId, name, value⟩ : WriteRequest).serve root bench).run io with
        | .ok written io' => (some written, io')
        | .error _ io' => (none, io')
    -- nothing else that a path under `/devices` can reach with `PUT` writes a value
    | _ => (none, io)

/-- The values of the next event of the page's stream, none when the stream is not reached or breaks off. -/
def nextEvent (editor : ValueEditor) (root : LogLevel) (bench : Bench) (io : InMemoryUnidriverIo) :
    Option (List Tstlan.VariableValue) :=
  match (ApiCall.streamValues editor.deviceId : ApiCall (List Char)).arrives with
  | some (.stream deviceId) => (outcome ((DeviceRoutes.readValues root bench.service deviceId).run io)).toOption
  | _ => none

end ValueEditor

/-! ## The way of an integer -/

theorem submit_writeInt (csrfToken : Option String) {v : ℤ} (h : v.natAbs ≤ 2 ^ 64) :
    submit fractions csrfToken (Json.writeInt v) =
      match csrfToken with
      | none => .message "нет сессии"
      | some _ => .request (Json.compact "value" (Json.writeInt (Js.Number.printed v))) := by
  have hne : Json.writeInt v ≠ [] := by
    cases v with
    | ofNat n => exact Nat.toDigits_ne_nil
    | negSucc n => exact List.cons_ne_nil _ _
  obtain ⟨k, hk, hof, htext⟩ := Js.Number.text_ofInt h
  have hdraft : draftText fractions (Json.writeInt v) = some (Json.writeInt (Js.Number.printed v)) := by
    rw [draftText, Js.trimChars_of_solid (fun c hc => Js.Number.solid_writeInt hc), Js.Number.numberOf_writeInt]
    simp only
    rw [← htext, hof]
    rfl
  rw [submit, Js.trimChars_of_solid (fun c hc => Js.Number.solid_writeInt hc), if_neg hne, hdraft]

theorem writeValueRequest_compact (w : ℤ) :
    writeValueRequest fractions (Json.compact "value" (Json.writeInt w)) = some (.int w) := by
  rw [writeValueRequest, show Json.writeInt w = Json.writeValue (.int w) from rfl, Json.loads_compact]
  rfl

theorem parsed_int (v : ℤ) : parsed (.int v) = some (Js.Number.ofInt v) := Js.Number.numberOf_writeInt v

end Tstlan.Web
