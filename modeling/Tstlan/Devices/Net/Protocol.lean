import Tstlan.Foundations.Json
import Tstlan.Foundations.Lines
import Tstlan.Devices.Io

/-! # The line protocol (`tstlan/devices/net/protocol.py`, `devsim/protocol.py`)

A message is one line of JSON. The client and the device each have a copy of the codec; the device also
has `apply`, which performs a request on its seam. Texts are ASCII, so their characters stand for the
bytes of the stream. -/
namespace Tstlan
open Foundations
set_option autoImplicit false

abbrev Message := Dict String Json.Value

/-- The text both copies of the codec write for a message. -/
def messageLine (message : Message) : List Char := Json.dumps message ++ ['\n']

def messageOfLine (line : List Char) : Except PyError Message :=
  (Json.loads line).elim (.error .valueError) .ok

namespace Protocol

def encode (message : Message) : List Char := messageLine message

def decode (line : List Char) : Except PyError Message := messageOfLine line

/-! ## Fields -/

def field (message : Message) (key : String) : Except PyError Json.Value :=
  (message.get? key).elim (.error .keyError) .ok

def strField (message : Message) (key : String) : Except PyError String := do
  match ← field message key with
  | .str s => .ok s
  | _ => .error .typeError

def intField (message : Message) (key : String) : Except PyError ℤ := do
  match ← field message key with
  | .int n => .ok n
  | .bool b => .ok (if b then 1 else 0)
  | .str _ => .error .typeError

/-- An index. Negative ones, which slices count from the end, are outside the model: no caller sends
one. -/
def indexField (message : Message) (key : String) : Except PyError ℕ := do
  let n ← intField message key
  if 0 ≤ n then .ok n.toNat else .error .valueError

/-- The truth value of a field. -/
def boolField (message : Message) (key : String) : Except PyError Bool := do
  match ← field message key with
  | .str s => .ok (s ≠ "")
  | .int n => .ok (n ≠ 0)
  | .bool b => .ok b

/-- `bytes.fromhex` of a field. -/
def bytesField (message : Message) (key : String) : Except PyError (List Byte) := do
  let text ← strField message key
  (Hex.decode text.toList).elim (.error .valueError) .ok

def hex (value : List Byte) : Json.Value := .str (String.ofList (Hex.encode value))

end Protocol

namespace DevsimProtocol
open Protocol

def encode (message : Message) : List Char := messageLine message

def decode (line : List Char) : Except PyError Message := messageOfLine line

/-- Perform a request on the device's buffer and return the response. -/
def apply {σ : Type} [UnidriverIo σ] (request : Message) : EStateM PyError σ Message := do
  let op ← fromExcept (strField request "op")
  let handle ← fromExcept (intField request "handle")
  if op = "read_bytes" then
    let index ← fromExcept (indexField request "index")
    let size ← fromExcept (indexField request "size")
    let data ← UnidriverIo.readBytes handle index size
    return Dict.ofList [("data", hex data)]
  else if op = "write_bytes" then
    let index ← fromExcept (indexField request "index")
    let data ← fromExcept (bytesField request "data")
    UnidriverIo.writeBytes handle index data
    return Dict.ofList [("ok", .bool true)]
  else if op = "read_bit" then
    let byte ← fromExcept (indexField request "byte")
    let bit ← fromExcept (indexField request "bit")
    let value ← UnidriverIo.readBit handle byte bit
    return Dict.ofList [("value", .bool value)]
  else if op = "write_bit" then
    let byte ← fromExcept (indexField request "byte")
    let bit ← fromExcept (indexField request "bit")
    let value ← fromExcept (boolField request "value")
    UnidriverIo.writeBit handle byte bit value
    return Dict.ofList [("ok", .bool true)]
  else throw .valueError

end DevsimProtocol

/-! ## One message is one line -/

theorem messageOfLine_messageLine (message : Message) :
    messageOfLine (messageLine message) = .ok message := by
  unfold messageOfLine messageLine
  rw [Json.loads_dumps message rfl]
  rfl

theorem readLine_messageLine (message : Message) (rest : List Char) :
    Lines.readLine '\n' (messageLine message ++ rest) = (messageLine message, rest) :=
  Lines.readLine_append (Json.newline_not_mem_dumps message) rest

/-- Of a stream of messages, the n-th line is the n-th message. -/
theorem readLines_messages (messages : List Message) (rest : List Char) :
    Lines.readLines '\n' messages.length (messages.flatMap messageLine ++ rest) =
      (messages.map messageLine, rest) :=
  Lines.readLines_flatMap messages (fun m _ => Json.newline_not_mem_dumps m) rest

/-! ## Requests and replies -/

/-- A call on the seam. -/
inductive Op
  | readBytes (handle : ℤ) (index size : ℕ)
  | writeBytes (handle : ℤ) (index : ℕ) (value : List Byte)
  | readBit (handle : ℤ) (byteIndex bitIndex : ℕ)
  | writeBit (handle : ℤ) (byteIndex bitIndex : ℕ) (value : Bool)
  deriving DecidableEq

inductive OpResult
  | bytes (value : List Byte)
  | bit (value : Bool)
  | done
  deriving DecidableEq

namespace Op
open Protocol

def call {σ : Type} [UnidriverIo σ] : Op → EStateM PyError σ OpResult
  | .readBytes handle index size => do
    let value ← UnidriverIo.readBytes handle index size
    return .bytes value
  | .writeBytes handle index value => do
    UnidriverIo.writeBytes handle index value
    return .done
  | .readBit handle byteIndex bitIndex => do
    let value ← UnidriverIo.readBit handle byteIndex bitIndex
    return .bit value
  | .writeBit handle byteIndex bitIndex value => do
    UnidriverIo.writeBit handle byteIndex bitIndex value
    return .done

/-- The request the client sends for the call. -/
def message : Op → Message
  | .readBytes handle index size =>
    Dict.ofList [("op", .str "read_bytes"), ("handle", .int handle), ("index", .int index),
      ("size", .int size)]
  | .writeBytes handle index value =>
    Dict.ofList [("op", .str "write_bytes"), ("handle", .int handle), ("index", .int index),
      ("data", hex value)]
  | .readBit handle byteIndex bitIndex =>
    Dict.ofList [("op", .str "read_bit"), ("handle", .int handle), ("byte", .int byteIndex),
      ("bit", .int bitIndex)]
  | .writeBit handle byteIndex bitIndex value =>
    Dict.ofList [("op", .str "write_bit"), ("handle", .int handle), ("byte", .int byteIndex),
      ("bit", .int bitIndex), ("value", .bool value)]

/-- What the client makes of a reply to the call: a write ignores it. -/
def ofReply (op : Op) (reply : Message) : Except PyError OpResult :=
  match op with
  | .readBytes _ _ _ => (bytesField reply "data").map .bytes
  | .writeBytes _ _ _ => .ok .done
  | .readBit _ _ _ => (boolField reply "value").map .bit
  | .writeBit _ _ _ _ => .ok .done

end Op

/-- The reply of the device to a performed call. -/
def OpResult.reply : OpResult → Message
  | .bytes value => Dict.ofList [("data", Protocol.hex value)]
  | .bit value => Dict.ofList [("value", .bool value)]
  | .done => Dict.ofList [("ok", .bool true)]

/-! ## The device answers a request as the direct call -/

section
open Protocol

theorem bytesField_hex (message : Message) (key : String) (value : List Byte)
    (h : message.get? key = some (hex value)) : bytesField message key = .ok value := by
  unfold bytesField strField field
  rw [h]
  show (Hex.decode (String.ofList (Hex.encode value)).toList).elim _ _ = _
  rw [String.toList_ofList, Hex.decode_encode]
  rfl

theorem indexField_natCast (message : Message) (key : String) (n : ℕ)
    (h : message.get? key = some (.int n)) : indexField message key = .ok n := by
  unfold indexField intField field
  rw [h]
  show (if (0 : ℤ) ≤ n then Except.ok (n : ℤ).toNat else .error .valueError) = _
  rw [if_pos (Int.natCast_nonneg n), Int.toNat_natCast]

theorem apply_message {σ : Type} [UnidriverIo σ] (op : Op) (s : σ) :
    (DevsimProtocol.apply op.message).run s =
      (op.call >>= fun r => (pure r.reply : EStateM PyError σ Message)).run s := by
  unfold DevsimProtocol.apply
  cases op with
  | readBytes handle index size =>
    have hindex := indexField_natCast (Op.readBytes handle index size).message "index" index rfl
    have hsize := indexField_natCast (Op.readBytes handle index size).message "size" size rfl
    have hop : strField (Op.readBytes handle index size).message "op" = .ok "read_bytes" := rfl
    have hhandle : intField (Op.readBytes handle index size).message "handle" = .ok handle := rfl
    rw [hop, hhandle, hindex, hsize]
    simp only [fromExcept_ok_bind]
    rw [if_pos trivial, Op.call, bind_assoc]
    rfl
  | writeBytes handle index value =>
    have hindex := indexField_natCast (Op.writeBytes handle index value).message "index" index rfl
    have hdata := bytesField_hex (Op.writeBytes handle index value).message "data" value rfl
    have hop : strField (Op.writeBytes handle index value).message "op" = .ok "write_bytes" := rfl
    have hhandle : intField (Op.writeBytes handle index value).message "handle" = .ok handle := rfl
    rw [hop, hhandle, hindex, hdata]
    simp only [fromExcept_ok_bind]
    rw [if_neg (by decide), if_pos trivial, Op.call, bind_assoc]
    rfl
  | readBit handle byteIndex bitIndex =>
    have hbyte := indexField_natCast (Op.readBit handle byteIndex bitIndex).message "byte" byteIndex rfl
    have hbit := indexField_natCast (Op.readBit handle byteIndex bitIndex).message "bit" bitIndex rfl
    have hop : strField (Op.readBit handle byteIndex bitIndex).message "op" = .ok "read_bit" := rfl
    have hhandle : intField (Op.readBit handle byteIndex bitIndex).message "handle" = .ok handle := rfl
    rw [hop, hhandle, hbyte, hbit]
    simp only [fromExcept_ok_bind]
    rw [if_neg (by decide), if_neg (by decide), if_pos trivial, Op.call, bind_assoc]
    rfl
  | writeBit handle byteIndex bitIndex value =>
    have hbyte :=
      indexField_natCast (Op.writeBit handle byteIndex bitIndex value).message "byte" byteIndex rfl
    have hbit :=
      indexField_natCast (Op.writeBit handle byteIndex bitIndex value).message "bit" bitIndex rfl
    have hop : strField (Op.writeBit handle byteIndex bitIndex value).message "op" = .ok "write_bit" := rfl
    have hhandle :
        intField (Op.writeBit handle byteIndex bitIndex value).message "handle" = .ok handle := rfl
    have hvalue :
        boolField (Op.writeBit handle byteIndex bitIndex value).message "value" = .ok value := rfl
    rw [hop, hhandle, hbyte, hbit, hvalue]
    simp only [fromExcept_ok_bind]
    rw [if_neg (by decide), if_neg (by decide), if_neg (by decide), if_pos trivial, Op.call, bind_assoc]
    rfl

theorem apply_of_call {σ : Type} [UnidriverIo σ] {op : Op} {r : OpResult} {s t : σ} (h : op.call.run s = .ok r t) :
    (DevsimProtocol.apply op.message).run s = .ok r.reply t := by
  rw [apply_message, run_bind_ok h]
  rfl

/-- The client makes the call's own result of the device's reply to it. -/
theorem ofReply_reply {σ : Type} [UnidriverIo σ] {op : Op} {r : OpResult} {s t : σ}
    (h : op.call.run s = .ok r t) : op.ofReply r.reply = .ok r := by
  cases op with
  | readBytes handle index size =>
    obtain ⟨value, u, -, hret⟩ := bind_eq_ok h
    cases hret
    show (bytesField _ "data").map _ = _
    rw [bytesField_hex _ "data" value rfl]
    rfl
  | readBit handle byteIndex bitIndex =>
    obtain ⟨value, u, -, hret⟩ := bind_eq_ok h
    cases hret
    rfl
  | writeBytes handle index value =>
    obtain ⟨-, u, -, hret⟩ := bind_eq_ok h
    cases hret
    rfl
  | writeBit handle byteIndex bitIndex value =>
    obtain ⟨-, u, -, hret⟩ := bind_eq_ok h
    cases hret
    rfl

end
end Tstlan
