import Tstlan.Auth.Models
import Tstlan.Configs.Schemas
import Tstlan.Devices.History
import Tstlan.Devices.Routes

/-! # Requests and responses

A request as the framework hands it to the application: `β` is a decoded body, the names of the headers
are in lower case, and the path is the one that the router matches. -/
namespace Tstlan
open Foundations
set_option autoImplicit false

structure Request (β : Type) where
  method : String
  path : String
  headers : Dict String String := Dict.empty
  cookies : Dict String String := Dict.empty
  /-- None when it is not JSON. -/
  body : Option β := none

structure LoginRequest where
  login : String
  password : String
  deriving DecidableEq

structure UserSummary where
  login : String
  role : Role
  deriving DecidableEq

inductive Content
  | detail (text : String)
  | health
  | identity (login : String) (role : Role) (csrfToken : Option String)
  | loggedOut
  | users (users : List UserSummary)
  | devices (devices : List DeviceSummary)
  | device (device : DeviceDetail)
  | values (values : List VariableValue)
  | value (value : VariableValue)
  | history (points : List HistoryPoint)
  | stream (events : List (List VariableValue))
  | configs (configs : List ConfigSummary)
  | config (config : ConfigDetail)
  /-- With the path in `Location`. -/
  | redirect (path : String)
  | empty
  deriving DecidableEq

/-- What a response does to the session cookie. -/
inductive CookieChange
  | keep
  | set (token : String) (maxAge : ℤ) (secure : Bool)
  | clear
  deriving DecidableEq

structure Response where
  status : ℕ
  content : Content
  cookie : CookieChange := .keep
  deriving DecidableEq

/-- `Settings`, as far as requests read it. -/
structure Settings where
  logLevel : LogLevel := .INFO
  sessionTtlHours : ℤ := 720
  sessionRefreshHours : ℤ := 24
  cookieSecure : Bool := false
  allowedOrigins : List String := ["http://localhost:3000", "http://127.0.0.1:3000"]

/-- `timedelta(hours=..)`. -/
def hours (n : ℤ) : Time := n * 3600000000

namespace Settings
variable (settings : Settings)

def ttl : Time := hours settings.sessionTtlHours

def refreshAfter : Time := hours settings.sessionRefreshHours

/-- `int(ttl.total_seconds())`. -/
def maxAge : ℤ := settings.sessionTtlHours * 3600

end Settings
end Tstlan
