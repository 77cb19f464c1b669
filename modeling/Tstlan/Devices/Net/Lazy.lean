import Tstlan.Foundations.Family
import Tstlan.Devices.Snapshots

/-! # The lazy client when connections fail (`LazySocketUnidriverIO` of `tstlan/devices/net/client.py`)

A script says what the client meets at each attempt: whether a new connection is accepted, what comes back of
the request, and the buffers of the device at that moment. Of the ways in which an attempt can fail all but one
are an `OSError`, which is tried once more; a reply line that was cut off is no JSON and a `ValueError`.
`readFate` follows the attempts of a read of several variables through the script. -/
namespace Tstlan
open Foundations
set_option autoImplicit false

/-- What comes back of a request on a connection. -/
inductive Outcome
  | reset
  | timedOut
  /-- The connection ends before the reply. -/
  | closed
  /-- The connection ends after the first `kept` characters of the reply line. -/
  | cut (kept : ℕ)
  | answered
  deriving DecidableEq

structure Attempt where
  /-- A new connection is accepted. -/
  accepts : Bool
  outcome : Outcome
  /-- The buffers of the device when it serves the request. -/
  device : InMemoryUnidriverIo

namespace Attempt

/-- The line the handler writes; an exception ends its thread and nothing is written. -/
def reply (a : Attempt) (message : Message) : List Char :=
  match (Handler.handleLine (Protocol.encode message)).run a.device with
  | .ok line _ => line
  | .error _ _ => []

/-- What `readline` returns, if it returns: at the end of the stream, what is left. -/
def line (a : Attempt) (message : Message) : Option (List Char) :=
  match a.outcome with
  | .reset => none
  | .timedOut => none
  | .closed => some []
  | .cut kept => some ((a.reply message).take kept)
  | .answered => some (a.reply message)

end Attempt

structure LazySocket where
  /-- `self._io` is set. -/
  connected : Bool
  script : ℕ → Attempt
  /-- The attempts made. -/
  used : ℕ

namespace LazySocket

def now (socket : LazySocket) : Attempt := socket.script socket.used

def next (socket : LazySocket) : LazySocket := { socket with used := socket.used + 1 }

def reset (socket : LazySocket) : LazySocket := { socket with connected := false }

/-- `_connect`. -/
def connect : EStateM PyError LazySocket Unit := fun socket =>
  if socket.connected ∨ socket.now.accepts then .ok () { socket with connected := true }
  else .error .osError socket.next

def readline (message : Message) : EStateM PyError LazySocket (List Char) := fun socket =>
  match socket.now.line message with
  | none => .error .osError socket.next
  | some line => .ok line socket.next

/-- `SocketUnidriverIO._request`. -/
def request (message : Message) : EStateM PyError LazySocket Message := do
  let line ← readline message
  if line = [] then throw .osError
  fromExcept (Protocol.decode line)

section
variable {α : Type} (message : Message) (field : Message → Except PyError α)

/-- One attempt of `_call`; `field` is what the operation makes of the reply. -/
def attempt : EStateM PyError LazySocket α := do
  connect
  let reply ← request message
  fromExcept (field reply)

/-- `_call`: only an `OSError` is tried once more. -/
def call : EStateM PyError LazySocket α := fun socket =>
  match (attempt message field).run socket with
  | .error .osError socket => (attempt message field).run socket.reset
  | result => result

end

instance : UnidriverIo LazySocket where
  readBytes handle index size :=
    call (Op.readBytes handle index size).message (fun reply => Protocol.bytesField reply "data")
  writeBytes handle index value := call (Op.writeBytes handle index value).message (fun _ => .ok ())
  readBit handle byteIndex bitIndex :=
    call (Op.readBit handle byteIndex bitIndex).message (fun reply => Protocol.boolField reply "value")
  writeBit handle byteIndex bitIndex value :=
    call (Op.writeBit handle byteIndex bitIndex value).message (fun _ => .ok ())

end LazySocket

/-! ## The fate of a request -/

inductive Fate
  | unreachable
  | damaged
  | read
  deriving DecidableEq

def Attempt.fate (a : Attempt) (message : Message) : Fate :=
  match a.outcome with
  | .reset => .unreachable
  | .timedOut => .unreachable
  | .closed => .unreachable
  | .cut kept =>
    if kept = 0 then .unreachable
    -- a line that lacks only its line break is whole for the JSON reader
    else if kept + 1 < (a.reply message).length then .damaged
    else .read
  | .answered => .read

namespace LazySocket

def attemptFate (socket : LazySocket) (message : Message) : Fate × LazySocket :=
  if socket.connected ∨ socket.now.accepts then (socket.now.fate message, { socket.next with connected := true })
  else (.unreachable, socket.next)

def callFate (socket : LazySocket) (message : Message) : Fate × LazySocket :=
  match socket.attemptFate message with
  | (.unreachable, socket) => socket.reset.attemptFate message
  | other => other

/-- The requests are sent one after the other, up to the first that is not read. -/
def readFate : LazySocket → List Message → Fate
  | _, [] => .read
  | socket, message :: messages =>
    match socket.callFate message with
    | (.read, socket) => readFate socket messages
    | (fate, _) => fate

end LazySocket

/-! ## One request -/

section
variable {α : Type}

/-- The request reads what `direct` reads on the device: the reply has one member, and `field` takes the
direct result from it. -/
def Reads (message : Message) (field : Message → Except PyError α) (direct : EStateM PyError InMemoryUnidriverIo α) :
    Prop :=
  ∀ device, ∃ a after key value, direct.run device = .ok a after ∧
    (Handler.handleLine (Protocol.encode message)).run device = .ok (messageLine (Dict.ofList [(key, value)])) after ∧
    '}' ∉ key.toList ∧ '}' ∉ Json.writeValue value ∧ field (Dict.ofList [(key, value)]) = .ok a

/-- The value is one that the device would have returned at some moment. -/
def ReadOnce (direct : EStateM PyError InMemoryUnidriverIo α) (a : α) : Prop :=
  ∃ device after, direct.run device = .ok a after

/-- How a request ends that meets the fate, and what is known of a value that is read. -/
def Fate.Ends (fate : Fate) (socket : LazySocket) (P : α → Prop) (result : EStateM.Result PyError LazySocket α) : Prop :=
  match fate with
  | .read => ∃ a, P a ∧ result = .ok a socket
  | .unreachable => result = .error .osError socket
  | .damaged => result = .error .valueError socket

/-- What follows a read and neither fails nor touches the connection. -/
theorem Fate.Ends.bind {β : Type} {fate : Fate} {socket start : LazySocket} {P : α → Prop} {Q : β → Prop}
    {x : EStateM PyError LazySocket α} {f : α → EStateM PyError LazySocket β}
    (h : fate.Ends socket P (x.run start)) (hf : ∀ a, P a → ∃ b, Q b ∧ (f a).run socket = .ok b socket) :
    fate.Ends socket Q ((x >>= f).run start) := by
  cases fate with
  | unreachable => exact run_bind_error h
  | damaged => exact run_bind_error h
  | read =>
    obtain ⟨a, ha, hrun⟩ := h
    obtain ⟨b, hb, hnext⟩ := hf a ha
    exact ⟨b, hb, (run_bind_ok hrun).trans hnext⟩

theorem brace_not_mem_hex (bs : List Byte) : '}' ∉ Json.writeValue (Protocol.hex bs) := by
  have hdigit (n : ℕ) (hn : n < 16) : Hex.digit n ≠ '}' := Json.unescaping_brace.1 n hn
  refine Json.not_mem_quote Json.unescaping_brace (fun c hc _ => ?_)
  rw [String.toList_ofList, Hex.encode] at hc
  obtain ⟨b, -, hc⟩ := List.mem_flatMap.mp hc
  have hlt := b.isLt
  rcases List.mem_cons.mp hc with rfl | hc
  · exact hdigit _ (by omega)
  · rw [List.mem_singleton.mp hc]
    exact hdigit _ (by omega)

theorem reads_readBytes (handle : ℤ) (index size : ℕ) :
    Reads (Op.readBytes handle index size).message (fun reply => Protocol.bytesField reply "data")
      (UnidriverIo.readBytes handle index size) := by
  intro device
  obtain ⟨after, hrun, -⟩ := InMemoryUnidriverIo.readBytes_run device handle index size
  have hcall : (Op.readBytes handle index size).call.run device =
      .ok (.bytes (device.memory.read handle index size)) after := run_bind_ok hrun
  exact ⟨_, after, "data", _, hrun, SocketUnidriverIo.handleLine_ok (apply_of_call hcall), by decide,
    brace_not_mem_hex _, bytesField_hex _ "data" _ rfl⟩

theorem reads_readBit (handle : ℤ) (byteIndex : ℕ) {bitIndex : ℕ} (hk : bitIndex < 8) :
    Reads (Op.readBit handle byteIndex bitIndex).message (fun reply => Protocol.boolField reply "value")
      (UnidriverIo.readBit handle byteIndex bitIndex) := by
  intro device
  obtain ⟨after, hrun, -⟩ := InMemoryUnidriverIo.readBit_run device handle byteIndex bitIndex hk
  have hcall : (Op.readBit handle byteIndex bitIndex).call.run device =
      .ok (.bit (device.memory.bit handle (8 * byteIndex + bitIndex))) after := run_bind_ok hrun
  have hbool (b : Bool) : '}' ∉ Json.writeValue (.bool b) := by cases b <;> decide
  exact ⟨_, after, "value", _, hrun, SocketUnidriverIo.handleLine_ok (apply_of_call hcall), by decide, hbool _, rfl⟩

namespace LazySocket
variable {message : Message} {field : Message → Except PyError α} {direct : EStateM PyError InMemoryUnidriverIo α}

theorem request_of_none {socket : LazySocket} (h : socket.now.line message = none) :
    (request message).run socket = .error .osError socket.next := by
  have hread : (readline message).run socket = .error .osError socket.next := by
    show (match socket.now.line message with
      | none => EStateM.Result.error PyError.osError socket.next
      | some line => .ok line socket.next) = _
    rw [h]
  exact run_bind_error hread

theorem request_of_line {socket : LazySocket} {line : List Char} (h : socket.now.line message = some line) :
    (request message).run socket =
      if line = [] then .error .osError socket.next else (fromExcept (Protocol.decode line)).run socket.next := by
  have hread : (readline message).run socket = .ok line socket.next := by
    show (match socket.now.line message with
      | none => EStateM.Result.error PyError.osError socket.next
      | some line => .ok line socket.next) = _
    rw [h]
  rw [request, run_bind_ok hread]
  split <;> rfl

/-- A reply line of one member, cut anywhere. -/
theorem decode_take {key : String} {value : Json.Value} (hkey : '}' ∉ key.toList) (hvalue : '}' ∉ Json.writeValue value)
    (n : ℕ) :
    Protocol.decode ((messageLine (Dict.ofList [(key, value)])).take n) =
      if n + 1 < (messageLine (Dict.ofList [(key, value)])).length then .error .valueError
      else .ok (Dict.ofList [(key, value)]) := by
  have hlen : (messageLine (Dict.ofList [(key, value)])).length = (Json.dumps (Dict.ofList [(key, value)])).length + 1 :=
    List.length_append
  rw [Protocol.decode, messageOfLine, hlen]
  rw [messageLine, Json.loads_take_dumps hkey hvalue rfl]
  by_cases hn : n < (Json.dumps (Dict.ofList [(key, value)])).length
  · rw [if_pos hn, if_pos (by omega)]
    rfl
  · rw [if_neg hn, if_neg (by omega)]
    rfl

theorem request_run (h : Reads message field direct) (socket : LazySocket) :
    (socket.now.fate message).Ends socket.next (ReadOnce direct)
      ((request message >>= fun reply => fromExcept (field reply)).run socket) := by
  obtain ⟨a, after, key, value, hdirect, hhandle, hkey, hvalue, hfield⟩ := h socket.now.device
  have hreply : socket.now.reply message = messageLine (Dict.ofList [(key, value)]) := by
    rw [Attempt.reply, hhandle]
  have hlost (hline : socket.now.line message = none ∨ socket.now.line message = some []) :
      (request message >>= fun reply => fromExcept (field reply)).run socket = .error .osError socket.next := by
    refine run_bind_error ?_
    rcases hline with hline | hline
    · exact request_of_none hline
    · exact (request_of_line hline).trans (if_pos rfl)
  -- what arrives of the line, if anything does
  have hpart {n : ℕ} (hn : n ≠ 0) (hline : socket.now.line message = some ((socket.now.reply message).take n)) :
      (if n + 1 < (socket.now.reply message).length then Fate.damaged else .read).Ends socket.next (ReadOnce direct)
        ((request message >>= fun reply => fromExcept (field reply)).run socket) := by
    rw [hreply] at hline ⊢
    have hne : (messageLine (Dict.ofList [(key, value)])).take n ≠ [] := by
      rw [Ne, List.take_eq_nil_iff, not_or]
      exact ⟨hn, by simp [messageLine]⟩
    have hrun := request_of_line hline
    rw [if_neg hne, decode_take hkey hvalue] at hrun
    by_cases hcut : n + 1 < (messageLine (Dict.ofList [(key, value)])).length
    · rw [if_pos hcut] at hrun ⊢
      exact run_bind_error hrun
    · rw [if_neg hcut] at hrun ⊢
      refine ⟨a, ⟨_, _, hdirect⟩, ?_⟩
      rw [run_bind_ok hrun, hfield]
      rfl
  unfold Attempt.fate
  cases hout : socket.now.outcome with
  | reset => exact hlost (.inl (by rw [Attempt.line, hout]))
  | timedOut => exact hlost (.inl (by rw [Attempt.line, hout]))
  | closed => exact hlost (.inr (by rw [Attempt.line, hout]))
  | cut kept =>
    have hline : socket.now.line message = some ((socket.now.reply message).take kept) := by
      rw [Attempt.line, hout]
    by_cases hkept : kept = 0
    · simp only [if_pos hkept]
      exact hlost (.inr (by rw [hline, hkept, List.take_zero]))
    · simp only [if_neg hkept]
      exact hpart hkept hline
  | answered =>
    have hlen : (socket.now.reply message).length ≠ 0 := by
      rw [hreply]
      simp [messageLine]
    have hwhole := hpart hlen (by rw [Attempt.line, hout, List.take_length])
    rwa [if_neg (by omega)] at hwhole

theorem attempt_run (h : Reads message field direct) (socket : LazySocket) :
    (socket.attemptFate message).1.Ends (socket.attemptFate message).2 (ReadOnce direct)
      ((attempt message field).run socket) := by
  unfold attemptFate
  by_cases hconn : socket.connected ∨ socket.now.accepts
  · rw [if_pos hconn]
    have hconnect : connect.run socket = .ok () { socket with connected := true } := if_pos hconn
    rw [attempt, run_bind_ok hconnect]
    exact request_run h { socket with connected := true }
  · rw [if_neg hconn]
    have hconnect : connect.run socket = .error .osError socket.next := if_neg hconn
    exact run_bind_error hconnect

theorem call_run (h : Reads message field direct) (socket : LazySocket) :
    (socket.callFate message).1.Ends (socket.callFate message).2 (ReadOnce direct) ((call message field).run socket) := by
  have hfirst := attempt_run h socket
  show ((socket.callFate message).1.Ends (socket.callFate message).2 (ReadOnce direct)
    (match (attempt message field).run socket with
      | .error .osError socket => (attempt message field).run socket.reset
      | result => result))
  unfold callFate
  rcases hfate : socket.attemptFate message with ⟨fate, after⟩
  rw [hfate] at hfirst
  cases fate with
  | unreachable =>
    have hrun : (attempt message field).run socket = .error .osError after := hfirst
    rw [hrun]
    exact attempt_run h after.reset
  | damaged =>
    have hrun : (attempt message field).run socket = .error .valueError after := hfirst
    rw [hrun]
    rfl
  | read =>
    obtain ⟨a, ha, hrun⟩ := hfirst
    have hrun : (attempt message field).run socket = .ok a after := hrun
    rw [hrun]
    exact ⟨a, ha, rfl⟩

end LazySocket
end

end Tstlan
