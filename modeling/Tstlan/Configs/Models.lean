import Tstlan.Auth.Models
import Tstlan.Configs.Layout
import Tstlan.Foundations.Dict

/-! Stored configs and their grants (`tstlan/configs/models.py`), with the payload of
`tstlan/configs/schemas.py`. The payload column holds the dumped payload; its `==` does not look at the
order of `params`. -/
namespace Tstlan
open Foundations
set_option autoImplicit false

inductive ConfigVisibility
  | PRIVATE | SHARED | PUBLIC
  deriving DecidableEq, Repr

inductive SharePermission
  | READ | WRITE
  deriving DecidableEq, Repr

inductive Transport
  | ethernet | gpib | com | modbusTcp | modbusUdp
  deriving DecidableEq, Repr

structure ModbusMap where
  discreteInputsBytes : ℤ := 0
  coilsBytes : ℤ := 0
  holdingRegisters : ℤ := 0
  inputRegisters : ℤ := 0
  deriving DecidableEq

structure ConnectionSettings where
  transport : Transport := .ethernet
  ip : Option String := none
  port : Option ℤ := none
  gpibAddr : Option ℤ := none
  comName : Option String := none
  ipRequest : Option String := none
  pollPeriodMs : ℤ := 200
  modbus : Option ModbusMap := none
  params : Dict String String := Dict.empty
  deriving DecidableEq

structure ConfigPayload where
  connection : ConnectionSettings := {}
  vars : List ConfigVar := []
  deriving DecidableEq

/-- Equality of the dumped payloads. -/
def ConfigPayload.same (p q : ConfigPayload) : Prop :=
  { p.connection with params := Dict.empty } = { q.connection with params := Dict.empty } ∧
    p.connection.params.entries.Perm q.connection.params.entries ∧ p.vars = q.vars

instance (p q : ConfigPayload) : Decidable (p.same q) :=
  inferInstanceAs (Decidable (_ ∧ _ ∧ _))

theorem ConfigPayload.same_refl (p : ConfigPayload) : p.same p := ⟨rfl, .refl _, rfl⟩

structure DeviceConfig where
  id : ℤ
  ownerId : ℤ
  name : String
  deviceType : String
  payload : ConfigPayload
  visibility : ConfigVisibility
  createdAt : Time
  updatedAt : Time
  deriving DecidableEq

structure ConfigShare where
  id : ℤ
  configId : ℤ
  granteeId : ℤ
  permission : SharePermission
  deriving DecidableEq

end Tstlan
