import Mathlib.Data.Nat.Notation
import Tstlan.Foundations.Effect
import Tstlan.Foundations.Struct

/-! Log calls (`tstlan/logging_setup.py` over the standard `logging`): which calls are enabled at a server's
level, and which raise because a key of `extra` is an attribute of the log record. -/
namespace Tstlan
open Foundations
set_option autoImplicit false

inductive LogLevel
  | CRITICAL | ERROR | WARNING | INFO | DEBUG | NOTSET
  deriving DecidableEq, Repr

namespace LogLevel

def number : LogLevel → ℕ
  | .CRITICAL => 50
  | .ERROR => 40
  | .WARNING => 30
  | .INFO => 20
  | .DEBUG => 10
  | .NOTSET => 0

/-- A record of level `level` is made when the server's level `root` lets it through. -/
def Enabled (root level : LogLevel) : Prop := root.number ≤ level.number

instance (root level : LogLevel) : Decidable (root.Enabled level) :=
  inferInstanceAs (Decidable (root.number ≤ level.number))

end LogLevel

/-- The keys that `Logger.makeRecord` refuses in `extra`: the attributes of a record and the two that
formatting adds. -/
def recordAttributes : List String :=
  ["name", "msg", "args", "levelname", "levelno", "pathname", "filename", "module", "exc_info",
    "exc_text", "stack_info", "lineno", "funcName", "created", "msecs", "relativeCreated", "thread",
    "threadName", "processName", "process", "taskName", "message", "asctime"]

/-- `logger.log(level, .., extra=..)`, with the keys of `extra`. -/
def logCall (root level : LogLevel) (extra : List String) : Except PyError Unit :=
  if root.Enabled level ∧ extra.any recordAttributes.contains then .error .keyError else .ok ()

def logEvent (root level : LogLevel) (fields : List String) : Except PyError Unit :=
  logCall root level ("event" :: fields)

/-- A log call inside code whose exceptions are `ε`. -/
def log {ε σ : Type} (python : PyError → ε) (call : Except PyError Unit) : EStateM ε σ Unit :=
  fromExcept (call.mapError python)

theorem silent_log {ε σ : Type} (python : PyError → ε) (call : Except PyError Unit) :
    Silent (log python call : EStateM ε σ Unit) :=
  .fromExcept _

theorem logCall_of_clean {extra : List String} (h : extra.any recordAttributes.contains = false)
    (root level : LogLevel) : logCall root level extra = .ok () := by
  rw [logCall, h, if_neg]
  rintro ⟨-, h⟩
  cases h

/-- A call whose keys are free of the record's attributes has no effect. -/
theorem logCall_bind {ε σ α : Type} {extra : List String}
    (h : extra.any recordAttributes.contains = false) (python : PyError → ε) (root level : LogLevel)
    (f : Unit → EStateM ε σ α) : log python (logCall root level extra) >>= f = f () := by
  rw [logCall_of_clean h]
  rfl

theorem logEvent_bind {ε σ α : Type} {fields : List String}
    (h : ("event" :: fields).any recordAttributes.contains = false) (python : PyError → ε)
    (root level : LogLevel) (f : Unit → EStateM ε σ α) :
    log python (logEvent root level fields) >>= f = f () :=
  logCall_bind h python root level f

theorem logEvent_pure {ε σ : Type} {fields : List String}
    (h : ("event" :: fields).any recordAttributes.contains = false) (python : PyError → ε)
    (root level : LogLevel) :
    (log python (logEvent root level fields) : EStateM ε σ Unit) = pure () := by
  rw [logEvent, logCall_of_clean h]
  rfl

end Tstlan
