import Tstlan.Devices.Service
import Mathlib.Data.Rat.Defs

/-! The recorded values of the devices (`tstlan/devices/history.py`), as far as a request reads them. -/
namespace Tstlan
open Foundations
set_option autoImplicit false

structure Sample where
  t : ℚ
  values : Dict String Number
  deriving DecidableEq

abbrev History := Dict String (List Sample)

def deviceHistory (history : History) (deviceId : String) : List Sample :=
  (history.get? deviceId).getD []

structure HistoryPoint where
  t : ℚ
  values : Dict String Number
  deriving DecidableEq

def HistoryPoint.fromSample (sample : Sample) : HistoryPoint := ⟨sample.t, sample.values⟩

end Tstlan
