import Tstlan.Devices.Net.Protocol

/-! # The socket client over an unbroken connection (`tstlan/devices/net/client.py`, `devsim/server.py`)

`Link` is one connection with the device state behind it. The client writes one line, the handler thread
serves whole lines while the client waits, and the client reads one line. `call_link` is the simulation:
a call over the link is the call made directly on the device. -/
namespace Tstlan
open Foundations
set_option autoImplicit false

structure Link (σ : Type) where
  toDevice : List Char
  toClient : List Char
  device : σ
  /-- The handler thread still serves the connection. -/
  alive : Bool
  deriving DecidableEq

section
variable {σ : Type} [UnidriverIo σ]

namespace Handler

/-- The loop's body for one line: the answer the handler writes. -/
def handleLine (line : List Char) : EStateM PyError σ (List Char) := do
  let request ← fromExcept (DevsimProtocol.decode line)
  let response ← DevsimProtocol.apply request
  return DevsimProtocol.encode response

/-- The loop over the lines that have arrived whole. An exception ends the thread and with it the
connection. -/
def handle : ℕ → Link σ → Link σ
  | 0, link => link
  | fuel + 1, link =>
    if link.alive ∧ '\n' ∈ link.toDevice then
      let (line, rest) := Lines.readLine '\n' link.toDevice
      match (handleLine line).run link.device with
      | .ok response device =>
        handle fuel { link with toDevice := rest, toClient := link.toClient ++ response, device := device }
      | .error _ device => { link with toDevice := rest, device := device, alive := false }
    else link

end Handler

namespace SocketUnidriverIo

/-- `readline` on the connection: it waits for a whole line until the timeout, and at the end of the
stream returns what is left. -/
def readline : EStateM PyError (Link σ) (List Char) := fun link =>
  if '\n' ∈ link.toClient then
    .ok (Lines.readLine '\n' link.toClient).1 { link with toClient := (Lines.readLine '\n' link.toClient).2 }
  else if link.alive then .error .osError link
  else .ok link.toClient { link with toClient := [] }

def request (message : Message) : EStateM PyError (Link σ) Message := do
  modify (fun link => { link with toDevice := link.toDevice ++ Protocol.encode message })
  -- the handler thread, while the client waits
  modify (fun link => Handler.handle link.toDevice.length link)
  let line ← readline
  if line = [] then throw .osError
  fromExcept (Protocol.decode line)

def readBytes (handle : ℤ) (index size : ℕ) : EStateM PyError (Link σ) (List Byte) := do
  let reply ← request (Op.readBytes handle index size).message
  fromExcept (Protocol.bytesField reply "data")

def writeBytes (handle : ℤ) (index : ℕ) (value : List Byte) : EStateM PyError (Link σ) Unit := do
  let _reply ← request (Op.writeBytes handle index value).message

def readBit (handle : ℤ) (byteIndex bitIndex : ℕ) : EStateM PyError (Link σ) Bool := do
  let reply ← request (Op.readBit handle byteIndex bitIndex).message
  fromExcept (Protocol.boolField reply "value")

def writeBit (handle : ℤ) (byteIndex bitIndex : ℕ) (value : Bool) : EStateM PyError (Link σ) Unit := do
  let _reply ← request (Op.writeBit handle byteIndex bitIndex value).message

instance : UnidriverIo (Link σ) where
  readBytes := readBytes
  writeBytes := writeBytes
  readBit := readBit
  writeBit := writeBit

/-! ## One call -/

/-- A connection with nothing in flight. -/
def quiet (device : σ) : Link σ := ⟨[], [], device, true⟩

theorem readLine_line (message : Message) :
    Lines.readLine '\n' (messageLine message) = (messageLine message, []) := by
  have h := readLine_messageLine message []
  rwa [List.append_nil] at h

theorem newline_mem_line (message : Message) : '\n' ∈ messageLine message :=
  List.mem_append_right _ (List.mem_singleton_self _)

theorem length_line (message : Message) : ∃ n, (messageLine message).length = n + 1 :=
  ⟨(Json.dumps message).length, List.length_append⟩

theorem handleLine_ok {message reply : Message} {s t : σ}
    (h : (DevsimProtocol.apply message).run s = .ok reply t) :
    (Handler.handleLine (messageLine message)).run s = .ok (messageLine reply) t := by
  unfold Handler.handleLine DevsimProtocol.decode
  rw [messageOfLine_messageLine, fromExcept_ok_bind, run_bind_ok h]
  rfl

/-- The handler answers the one line that has arrived and waits for the next. -/
theorem handle_line {message reply : Message} {s t : σ}
    (h : (DevsimProtocol.apply message).run s = .ok reply t) :
    Handler.handle (messageLine message).length ⟨messageLine message, [], s, true⟩ =
      ⟨[], messageLine reply, t, true⟩ := by
  obtain ⟨n, hn⟩ := length_line message
  rw [hn, Handler.handle, if_pos ⟨rfl, newline_mem_line message⟩]
  simp only [readLine_line, handleLine_ok h]
  cases n with
  | zero => rfl
  | succ n =>
    rw [Handler.handle, if_neg]
    · rfl
    · rintro ⟨-, hm⟩
      cases hm

theorem request_run {message reply : Message} {s t : σ}
    (h : (DevsimProtocol.apply message).run s = .ok reply t) :
    (request message).run (quiet s) = .ok reply (quiet t) := by
  have hread : readline.run ⟨[], messageLine reply, t, true⟩ = .ok (messageLine reply) (quiet t) := by
    show (if '\n' ∈ messageLine reply then _ else _) = _
    rw [if_pos (newline_mem_line reply)]
    simp only [readLine_line]
    rfl
  have hline : messageLine reply ≠ [] := by
    intro hnil
    have hm := newline_mem_line reply
    rw [hnil] at hm
    cases hm
  unfold request
  change EStateM.run (readline >>= _) (Handler.handle ([] ++ messageLine message).length
    ⟨[] ++ messageLine message, [], s, true⟩) = _
  rw [List.nil_append, handle_line h, run_bind_ok hread]
  simp only [if_neg hline]
  unfold Protocol.decode
  rw [messageOfLine_messageLine]
  rfl

/-- A call over the link is the direct call. -/
theorem call_link {op : Op} {r : OpResult} {s t : σ} (h : op.call.run s = .ok r t) :
    op.call.run (quiet s) = .ok r (quiet t) := by
  have hreq := request_run (apply_of_call h)
  have hres := ofReply_reply h
  cases op with
  | readBytes handle index size =>
    have hdata : (Protocol.bytesField r.reply "data").map OpResult.bytes = .ok r := hres
    cases hb : Protocol.bytesField r.reply "data" with
    | error e => rw [hb] at hdata; cases hdata
    | ok value =>
      rw [hb] at hdata
      cases hdata
      have hcall : (readBytes handle index size).run (quiet s) = .ok value (quiet t) := by
        rw [readBytes, run_bind_ok hreq, hb]
        rfl
      exact run_bind_ok hcall
  | readBit handle byteIndex bitIndex =>
    have hvalue : (Protocol.boolField r.reply "value").map OpResult.bit = .ok r := hres
    cases hb : Protocol.boolField r.reply "value" with
    | error e => rw [hb] at hvalue; cases hvalue
    | ok value =>
      rw [hb] at hvalue
      cases hvalue
      have hcall : (readBit handle byteIndex bitIndex).run (quiet s) = .ok value (quiet t) := by
        rw [readBit, run_bind_ok hreq, hb]
        rfl
      exact run_bind_ok hcall
  | writeBytes handle index value =>
    cases hres
    have hcall : (writeBytes handle index value).run (quiet s) = .ok () (quiet t) := run_bind_ok hreq
    exact run_bind_ok hcall
  | writeBit handle byteIndex bitIndex value =>
    cases hres
    have hcall : (writeBit handle byteIndex bitIndex value).run (quiet s) = .ok () (quiet t) :=
      run_bind_ok hreq
    exact run_bind_ok hcall

end SocketUnidriverIo
end

/-! ## Any number of calls -/

def callAll {σ : Type} [UnidriverIo σ] : List Op → EStateM PyError σ (List OpResult)
  | [] => return []
  | op :: ops => do
    let r ← op.call
    let rs ← callAll ops
    return r :: rs

/-- Calls that return on the device return the same over a link to it. -/
theorem callAll_link {σ : Type} [UnidriverIo σ] (ops : List Op) {rs : List OpResult} {s t : σ}
    (h : (callAll ops).run s = .ok rs t) :
    (callAll ops).run (SocketUnidriverIo.quiet s) = .ok rs (SocketUnidriverIo.quiet t) := by
  induction ops generalizing rs s with
  | nil =>
    cases h
    rfl
  | cons op ops ih =>
    obtain ⟨r, s1, h1, hrest⟩ := bind_eq_ok h
    obtain ⟨rs', s2, h2, hret⟩ := bind_eq_ok hrest
    cases hret
    rw [callAll, run_bind_ok (SocketUnidriverIo.call_link h1), run_bind_ok (ih h2)]
    rfl

/-- A bit index inside a byte. -/
def Op.BitInByte : Op → Prop
  | .readBytes _ _ _ => True
  | .writeBytes _ _ _ => True
  | .readBit _ _ bitIndex => bitIndex < 8
  | .writeBit _ _ bitIndex _ => bitIndex < 8

/-- Every call on the in-memory device returns. -/
theorem call_inMemory {op : Op} (h : op.BitInByte) (io : InMemoryUnidriverIo) :
    ∃ r io', op.call.run io = .ok r io' := by
  cases op with
  | readBytes handle index size =>
    obtain ⟨io', hrun, -⟩ := InMemoryUnidriverIo.readBytes_run io handle index size
    exact ⟨_, io', run_bind_ok hrun⟩
  | writeBytes handle index value =>
    obtain ⟨io', hrun, -⟩ := InMemoryUnidriverIo.writeBytes_run io handle index value
    exact ⟨_, io', run_bind_ok hrun⟩
  | readBit handle byteIndex bitIndex =>
    obtain ⟨io', hrun, -⟩ := InMemoryUnidriverIo.readBit_run io handle byteIndex bitIndex h
    exact ⟨_, io', run_bind_ok hrun⟩
  | writeBit handle byteIndex bitIndex value =>
    obtain ⟨io', hrun, -⟩ := InMemoryUnidriverIo.writeBit_run io handle byteIndex bitIndex h value
    exact ⟨_, io', run_bind_ok hrun⟩

theorem callAll_inMemory (ops : List Op) (h : ∀ op ∈ ops, op.BitInByte) (io : InMemoryUnidriverIo) :
    ∃ rs io', (callAll ops).run io = .ok rs io' := by
  induction ops generalizing io with
  | nil => exact ⟨[], io, rfl⟩
  | cons op ops ih =>
    obtain ⟨r, io1, h1⟩ := call_inMemory (h op List.mem_cons_self) io
    obtain ⟨rs, io2, h2⟩ := ih (fun x hx => h x (List.mem_cons_of_mem _ hx)) io1
    exact ⟨r :: rs, io2, by rw [callAll, run_bind_ok h1, run_bind_ok h2]; rfl⟩

/-- **The socket client is the in-memory device.** Any sequence of calls returns the same results and
leaves the same buffers over the link as directly, with nothing left in flight; and of any stream of
messages the n-th line read is the n-th message written, by either copy of the codec. -/
theorem socket_simulates_inMemory (io : InMemoryUnidriverIo) (ops : List Op)
    (h : ∀ op ∈ ops, op.BitInByte) :
    (∃ rs io', (callAll ops).run io = .ok rs io' ∧
      (callAll ops).run (SocketUnidriverIo.quiet io) = .ok rs (SocketUnidriverIo.quiet io')) ∧
    ∀ (messages : List Message) (rest : List Char),
      Lines.readLines '\n' messages.length (messages.flatMap Protocol.encode ++ rest) =
          (messages.map Protocol.encode, rest) ∧
        Lines.readLines '\n' messages.length (messages.flatMap DevsimProtocol.encode ++ rest) =
          (messages.map DevsimProtocol.encode, rest) ∧
        ∀ m ∈ messages, DevsimProtocol.decode (Protocol.encode m) = .ok m ∧
          Protocol.decode (DevsimProtocol.encode m) = .ok m := by
  obtain ⟨rs, io', hrun⟩ := callAll_inMemory ops h io
  refine ⟨⟨rs, io', hrun, callAll_link ops hrun⟩, fun messages rest => ?_⟩
  exact ⟨readLines_messages messages rest, readLines_messages messages rest,
    fun m _ => ⟨messageOfLine_messageLine m, messageOfLine_messageLine m⟩⟩

def sampleOps : List Op :=
  [.writeBytes 1 2 [0x0a, 0xff], .writeBit 1 0 7 true, .readBytes 1 0 4, .readBit 1 9 3]

theorem sampleOps_simulated :
    ∃ rs io', (callAll sampleOps).run (⟨Dict.empty⟩ : InMemoryUnidriverIo) = .ok rs io' ∧
      (callAll sampleOps).run (SocketUnidriverIo.quiet (⟨Dict.empty⟩ : InMemoryUnidriverIo)) =
        .ok rs (SocketUnidriverIo.quiet io') := by
  have hbits : ∀ op ∈ sampleOps, op.BitInByte := by
    intro op hop
    simp only [sampleOps, List.mem_cons, List.not_mem_nil, or_false] at hop
    rcases hop with rfl | rfl | rfl | rfl
    · exact trivial
    · exact (by decide : 7 < 8)
    · exact trivial
    · exact (by decide : 3 < 8)
  exact (socket_simulates_inMemory ⟨Dict.empty⟩ sampleOps hbits).1

/-! ## What a call leaves in memory -/

namespace Op

/-- The memory after the call, whether it returned or raised. -/
def effect (op : Op) (m : ByteMemory ℤ) : ByteMemory ℤ :=
  match op with
  | .readBytes _ _ _ => m
  | .writeBytes handle index value => m.write handle index value
  | .readBit _ _ _ => m
  | .writeBit handle byteIndex bitIndex value => m.setBit handle byteIndex bitIndex value

/-- The bits the call assigns. -/
def Writes (op : Op) (d : ℤ) (p : ℕ) : Prop :=
  match op with
  | .readBytes _ _ _ => False
  | .writeBytes handle index value => d = handle ∧ 8 * index ≤ p ∧ p < 8 * (index + value.length)
  | .readBit _ _ _ => False
  | .writeBit handle byteIndex bitIndex _ => d = handle ∧ bitIndex < 8 ∧ p = 8 * byteIndex + bitIndex

/-- The two calls assign a common bit. -/
def Overlaps (a b : Op) : Prop := ∃ d p, a.Writes d p ∧ b.Writes d p

/-- The memory shows what the call writes: making the call again would change nothing. -/
def Shown (op : Op) (m : ByteMemory ℤ) : Prop := op.effect m = m

theorem bit_effect_of_not_writes {op : Op} {d : ℤ} {p : ℕ} (h : ¬ op.Writes d p) (m : ByteMemory ℤ) :
    (op.effect m).bit d p = m.bit d p := by
  cases op with
  | readBytes handle index size => rfl
  | readBit handle byteIndex bitIndex => rfl
  | writeBytes handle index value =>
    apply ByteMemory.bit_write_of_out
    by_cases hd : d = handle
    · refine .inr ?_
      by_contra hin
      exact h ⟨hd, by omega, by omega⟩
    · exact .inl hd
  | writeBit handle byteIndex bitIndex value =>
    by_cases hk : bitIndex < 8
    · show (m.setBit handle byteIndex bitIndex value).bit d p = _
      rw [ByteMemory.bit_setBit _ _ _ _ _ hk, if_neg]
      rintro ⟨hd, hp⟩
      exact h ⟨hd, hk, hp⟩
    · show (m.setBit handle byteIndex bitIndex value).bit d p = _
      rw [ByteMemory.setBit_of_ge _ _ _ _ (by omega)]

/-- A bit the call assigns does not depend on the memory before. -/
theorem bit_effect_of_writes {op : Op} {d : ℤ} {p : ℕ} (h : op.Writes d p) (m m' : ByteMemory ℤ) :
    (op.effect m).bit d p = (op.effect m').bit d p := by
  cases op with
  | readBytes handle index size => exact h.elim
  | readBit handle byteIndex bitIndex => exact h.elim
  | writeBytes handle index value =>
    obtain ⟨rfl, hlo, hhi⟩ := h
    exact (ByteMemory.bit_write m d index value hlo hhi).trans
      (ByteMemory.bit_write m' d index value hlo hhi).symm
  | writeBit handle byteIndex bitIndex value =>
    obtain ⟨rfl, hk, rfl⟩ := h
    show (m.setBit d byteIndex bitIndex value).bit d _ = (m'.setBit d byteIndex bitIndex value).bit d _
    rw [ByteMemory.bit_setBit _ _ _ _ _ hk, ByteMemory.bit_setBit _ _ _ _ _ hk, if_pos ⟨rfl, rfl⟩,
      if_pos ⟨rfl, rfl⟩]

theorem shown_effect (op : Op) (m : ByteMemory ℤ) : op.Shown (op.effect m) := by
  apply ByteMemory.ext_bit
  intro d p
  by_cases h : op.Writes d p
  · exact bit_effect_of_writes h _ _
  · exact bit_effect_of_not_writes h _

theorem Shown.of_not_overlaps {op a : Op} {m : ByteMemory ℤ} (h : op.Shown m) (hd : ¬ a.Overlaps op) :
    op.Shown (a.effect m) := by
  apply ByteMemory.ext_bit
  intro d p
  by_cases hw : op.Writes d p
  · have ha : ¬ a.Writes d p := fun ha => hd ⟨d, p, ha, hw⟩
    have hm : op.effect m = m := h
    rw [bit_effect_of_writes hw _ m, hm, bit_effect_of_not_writes ha]
  · exact bit_effect_of_not_writes hw _

end Op

theorem InMemoryUnidriverIo.memory_writeBit (io : InMemoryUnidriverIo) (handle : ℤ)
    (byteIndex bitIndex : ℕ) (value : Bool) :
    (final ((InMemoryUnidriverIo.writeBit handle byteIndex bitIndex value).run io)).memory =
      io.memory.setBit handle byteIndex bitIndex value := by
  by_cases hk : bitIndex < 8
  · obtain ⟨io', hrun, hmem⟩ := InMemoryUnidriverIo.writeBit_run io handle byteIndex bitIndex hk value
    rw [hrun]
    exact hmem
  · have hread : (io.ensured handle (byteIndex + 1)).getD byteIndex 0 = io.memory handle byteIndex :=
      InMemoryUnidriverIo.getD_ensured io handle _ _
    have hmask : 1#8 <<< bitIndex = 0#8 := BitVec.shiftLeft_eq_zero (by omega)
    rw [ByteMemory.setBit_of_ge _ _ _ _ (by omega), InMemoryUnidriverIo.writeBit,
      run_bind_ok (InMemoryUnidriverIo.ensure_run io handle _), hread]
    cases value with
    | true =>
      rw [if_pos rfl, if_neg hk]
      exact InMemoryUnidriverIo.memory_ensure io handle (byteIndex + 1)
    | false =>
      refine (InMemoryUnidriverIo.memory_store_byte io handle byteIndex _).trans ?_
      funext h i
      by_cases hhi : h = handle ∧ i = byteIndex
      · obtain ⟨rfl, rfl⟩ := hhi
        rw [if_pos ⟨rfl, rfl⟩, hmask]
        exact BitVec.and_allOnes
      · rw [if_neg hhi]

theorem memory_call (op : Op) (io : InMemoryUnidriverIo) :
    (final (op.call.run io)).memory = op.effect io.memory := by
  cases op with
  | readBytes handle index size =>
    obtain ⟨io', hrun, hmem⟩ := InMemoryUnidriverIo.readBytes_run io handle index size
    have hcall : (Op.readBytes handle index size).call.run io = .ok (.bytes _) io' := run_bind_ok hrun
    rw [hcall]
    exact hmem
  | writeBytes handle index value =>
    obtain ⟨io', hrun, hmem⟩ := InMemoryUnidriverIo.writeBytes_run io handle index value
    have hcall : (Op.writeBytes handle index value).call.run io = .ok .done io' := run_bind_ok hrun
    rw [hcall]
    exact hmem
  | readBit handle byteIndex bitIndex => exact InMemoryUnidriverIo.memory_ensure io handle (byteIndex + 1)
  | writeBit handle byteIndex bitIndex value =>
    have hmem := InMemoryUnidriverIo.memory_writeBit io handle byteIndex bitIndex value
    cases hrun : (InMemoryUnidriverIo.writeBit handle byteIndex bitIndex value).run io with
    | ok _ io' =>
      have hcall : (Op.writeBit handle byteIndex bitIndex value).call.run io = .ok .done io' :=
        run_bind_ok hrun
      rw [hrun] at hmem
      rw [hcall]
      exact hmem
    | error e io' =>
      have hcall : (Op.writeBit handle byteIndex bitIndex value).call.run io = .error e io' :=
        run_bind_error hrun
      rw [hrun] at hmem
      rw [hcall]
      exact hmem

end Tstlan
