import Tstlan.Auth.Service
import Tstlan.Foundations.Url
import Tstlan.Http

/-! # The session and the CSRF check (`tstlan/auth/middleware.py`)

Every request passes here: its session cookie is resolved to a user, and a method that is not safe needs
an allowed origin and, with a session, the session's CSRF token. -/
namespace Tstlan
open Foundations
set_option autoImplicit false

def SESSION_COOKIE : String := "tstlan_session"

/-- `X-CSRF-Token`, which headers are looked up by in lower case. -/
def CSRF_HEADER : String := "x-csrf-token"

def LOGIN_PATH : String := "/auth/login"

def UNSAFE_METHODS : List String := ["POST", "PUT", "PATCH", "DELETE"]

def SAFE_METHODS : List String := ["GET", "HEAD"]

def setSessionCookie (settings : Settings) (response : Response) (token : String) : Response :=
  { response with cookie := .set token settings.maxAge settings.cookieSecure }

def clearSessionCookie (response : Response) : Response := { response with cookie := .clear }

def forbidden (detail : String) : Response := ⟨403, .detail detail, .keep⟩

namespace AuthCsrfMiddleware
variable {β : Type} (netlocAllowed : String → Bool) (urlPath : Request β → String) (settings : Settings)

def originOf (url : String) : Except PyError String := do
  let parts ← Url.urlsplit netlocAllowed url
  return parts.scheme ++ "://" ++ parts.netloc

/-- The origin that a request claims: its `Origin`, or that of its `Referer`. -/
def requestOrigin (request : Request β) : Except PyError (Option String) :=
  match request.headers.get? "origin" with
  | some origin => return some origin
  | none =>
    match request.headers.get? "referer" with
    | none => return none
    | some referer =>
      if referer = "" then return none
      else do
        let origin ← originOf netlocAllowed referer
        return some origin

def originAllowed (request : Request β) : Except PyError Bool := do
  let origin ← requestOrigin netlocAllowed request
  return origin.any (fun origin => origin ∈ settings.allowedOrigins)

def rejectCsrf (request : Request β) (csrfToken : Option String) : Except PyError (Option Response) :=
  if request.method ∉ UNSAFE_METHODS then return none
  else if urlPath request = LOGIN_PATH then do
    if (← originAllowed netlocAllowed settings request) = false then
      return some (forbidden "origin not allowed")
    else return none
  else
    match csrfToken with
    | none => return none
    | some csrfToken => do
      if (← originAllowed netlocAllowed settings request) = false then
        return some (forbidden "origin not allowed")
      else if request.headers.get? CSRF_HEADER ≠ some csrfToken then
        return some (forbidden "csrf token mismatch")
      else return none

end AuthCsrfMiddleware
end Tstlan
