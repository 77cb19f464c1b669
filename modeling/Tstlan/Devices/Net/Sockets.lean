import Tstlan.Devices.Net.Lazy

/-! # The sockets of the devices

Each external device has a client of its own, and a process with one device at one handle behind it. Here the
handle of a bench picks the client. A read of all values of a device is the same read over its client alone
(`readValues_member`), and what the client meets decides how it ends (`readValues_ends`). -/
namespace Tstlan
open Foundations
set_option autoImplicit false

abbrev Sockets := ℤ → LazySocket

instance : UnidriverIo Sockets where
  readBytes handle index size := onMember handle (UnidriverIo.readBytes devsimHandle index size)
  writeBytes handle index value := onMember handle (UnidriverIo.writeBytes devsimHandle index value)
  readBit handle byteIndex bitIndex := onMember handle (UnidriverIo.readBit devsimHandle byteIndex bitIndex)
  writeBit handle byteIndex bitIndex value := onMember handle (UnidriverIo.writeBit devsimHandle byteIndex bitIndex value)

/-! ## One client -/

namespace NetVarAccessor

/-- The accessor of the same variable at another handle. -/
def withHandle (acc : NetVarAccessor) (handle : ℤ) : NetVarAccessor := { acc with handle := handle }

/-- The request a read of the variable sends. -/
def request (acc : NetVarAccessor) : Message :=
  if acc.var.ctype = .BIT then (Op.readBit acc.handle acc.offset.byte (acc.offset.bit.getD 0)).message
  else (Op.readBytes acc.handle acc.offset.byte acc.var.ctype.byteSize).message

theorem get_member (acc : NetVarAccessor) (handle : ℤ) :
    (acc.withHandle handle).get = onMember handle ((acc.withHandle devsimHandle).get : EStateM PyError LazySocket Number) := by
  unfold get withHandle
  by_cases hbit : acc.var.ctype = .BIT
  · simp only [if_pos hbit]
    cases acc.offset.bit with
    | none => exact (onMember_throw _ _).symm
    | some k =>
      rw [onMember_bind]
      simp only [onMember_pure]
      rfl
  · simp only [if_neg hbit]
    cases structFormat acc.var.ctype with
    | none =>
      rw [onMember_bind]
      simp only [onMember_throw]
      rfl
    | some f =>
      rw [onMember_bind]
      simp only [onMember_fromExcept]
      rfl

/-- A read of a variable ends as the request it sends. -/
theorem get_ends {acc : NetVarAccessor} (hw : acc.Wf) (socket : LazySocket) :
    (socket.callFate acc.request).1.Ends (socket.callFate acc.request).2 (ReadOnce acc.get) (acc.get.run socket) := by
  have hdevice (device : InMemoryUnidriverIo) : ∃ v after, acc.get.run device = .ok v after := by
    obtain ⟨v, after, hrun, -⟩ := get_run hw device
    exact ⟨v, after, hrun⟩
  unfold request
  unfold get at hdevice ⊢
  by_cases hbit : acc.var.ctype = .BIT
  · obtain ⟨k, hlt, hk, -⟩ := place_of_bit hw hbit
    simp only [if_pos hbit, hk, Option.getD_some] at hdevice ⊢
    refine (LazySocket.call_run (reads_readBit acc.handle acc.offset.byte hlt) socket).bind ?_
    rintro b ⟨device, after, hdirect⟩
    exact ⟨_, ⟨device, after, run_bind_ok hdirect⟩, rfl⟩
  · simp only [if_neg hbit] at hdevice ⊢
    refine (LazySocket.call_run (reads_readBytes acc.handle acc.offset.byte acc.var.ctype.byteSize) socket).bind ?_
    rintro raw ⟨device, after, hdirect⟩
    -- the bytes that are unpacked are those of a direct read, which returns
    obtain ⟨v, after', hvalue⟩ := hdevice device
    refine ⟨v, ⟨device, after', hvalue⟩, ?_⟩
    rw [run_bind_ok hdirect] at hvalue
    cases hf : structFormat acc.var.ctype with
    | none => rw [hf] at hvalue; cases hvalue
    | some f =>
      simp only [hf] at hvalue ⊢
      cases hv : f.unpack raw with
      | error e => rw [hv] at hvalue; cases hvalue
      | ok x =>
        rw [hv] at hvalue
        cases hvalue
        rfl

end NetVarAccessor

/-- How a read of several variables ends that meets the fate. -/
def Fate.Gives (fate : Fate) (result : Except DeviceError (List NetVar)) : Prop :=
  match fate with
  | .read => ∃ vars, result = .ok vars
  | .unreachable => result = .error (.python .osError)
  | .damaged => result = .error (.python .valueError)

theorem Fate.Gives.map {fate : Fate} {x : EStateM DeviceError LazySocket (List NetVar)} {socket : LazySocket}
    (h : fate.Gives (outcome (x.run socket))) (f : List NetVar → List NetVar) :
    fate.Gives (outcome ((x >>= fun vars => pure (f vars)).run socket)) := by
  cases hx : x.run socket with
  | ok vars next =>
    rw [hx] at h
    rw [run_bind_ok hx]
    cases fate with
    | read => exact ⟨f vars, rfl⟩
    | unreachable => cases h
    | damaged => cases h
  | error e next =>
    rw [hx] at h
    rw [run_bind_error hx]
    cases fate with
    | read => obtain ⟨vars, hvars⟩ := h; cases hvars
    | unreachable => exact h
    | damaged => exact h

section
variable {device : Device}

theorem snapshot_ends {var : NetVar} {acc : NetVarAccessor}
    (hacc : (attachDevice device devsimHandle).scheme.get? var.name = some acc) (socket : LazySocket) :
    let next := (socket.callFate acc.request).2
    let result := (DeviceService.snapshot (attachDevice device devsimHandle) var).run socket
    match (socket.callFate acc.request).1 with
    | .read => ∃ value, result = .ok value next
    | .unreachable => result = .error (.python .osError) next
    | .damaged => result = .error (.python .valueError) next := by
  have hw : acc.Wf := (buildScheme_independent devsimHandle device.vars).wf acc (Bench.mem_of_scheme_get? hacc)
  have hget := NetVarAccessor.get_ends hw socket
  simp only [DeviceService.snapshot, hacc]
  have hadapt := EStateM.run_adaptExcept DeviceError.python acc.get socket
  cases hfate : (socket.callFate acc.request).1 with
  | unreachable =>
    rw [hfate] at hget
    have hrun : acc.get.run socket = _ := hget
    rw [hrun] at hadapt
    exact run_bind_error hadapt
  | damaged =>
    rw [hfate] at hget
    have hrun : acc.get.run socket = _ := hget
    rw [hrun] at hadapt
    exact run_bind_error hadapt
  | read =>
    rw [hfate] at hget
    obtain ⟨v, -, hrun⟩ := hget
    rw [hrun] at hadapt
    exact ⟨_, run_bind_ok hadapt⟩

theorem snapshots_ends {vars : List NetVar} (hvars : ∀ var ∈ vars, var ∈ device.vars) (socket : LazySocket) :
    (socket.readFate ((accessorsOf (attachDevice device devsimHandle) vars).map NetVarAccessor.request)).Gives
      (outcome ((DeviceService.snapshots (attachDevice device devsimHandle) vars).run socket)) := by
  induction vars generalizing socket with
  | nil => exact ⟨[], rfl⟩
  | cons var vars ih =>
    obtain ⟨hvar, hrest⟩ := List.forall_mem_cons.mp hvars
    obtain ⟨acc, hacc⟩ := scheme_get?_of_mem devsimHandle hvar
    have hfirst := snapshot_ends hacc socket
    rw [accessorsOf_cons hacc, List.map_cons, LazySocket.readFate, DeviceService.snapshots]
    rcases hfate : socket.callFate acc.request with ⟨fate, next⟩
    rw [hfate] at hfirst
    cases fate with
    | unreachable => exact congrArg outcome (run_bind_error hfirst)
    | damaged => exact congrArg outcome (run_bind_error hfirst)
    | read =>
      obtain ⟨value, hrun⟩ := hfirst
      rw [run_bind_ok hrun]
      exact (ih hrest next).map (value :: ·)

end

/-! ## All clients -/

theorem scheme_withHandle (device : Device) (handle : ℤ) (name : String) :
    (attachDevice device handle).scheme.get? name =
      ((attachDevice device devsimHandle).scheme.get? name).map (fun acc => acc.withHandle handle) := by
  have hscheme : buildScheme handle device.vars =
      (buildScheme devsimHandle device.vars).map (fun acc => acc.withHandle handle) := by
    simp only [buildScheme, List.map_map]
    rfl
  rw [attachDevice, attachDevice, Dict.get?_ofList, Dict.get?_ofList, hscheme, List.map_map, ← List.map_reverse,
    ← List.map_reverse, List.find?_map, List.find?_map, Option.map_map, Option.map_map, Option.map_map]
  rfl

namespace DeviceService
variable {device : Device} {handle : ℤ}

theorem snapshot_member (var : NetVar) :
    snapshot (attachDevice device handle) var = onMember handle
      (snapshot (attachDevice device devsimHandle) var : EStateM DeviceError LazySocket NetVar) := by
  unfold snapshot
  rw [scheme_withHandle device handle]
  cases hacc : (attachDevice device devsimHandle).scheme.get? var.name with
  | none => exact (onMember_throw _ _).symm
  | some acc =>
    have hself : acc.withHandle devsimHandle = acc := by
      obtain ⟨h, v, o⟩ := acc
      have hhandle := handle_of_mem_buildScheme (Bench.mem_of_scheme_get? hacc)
      rw [NetVarAccessor.withHandle, ← hhandle]
    simp only [Option.map_some]
    rw [onMember_bind, onMember_adaptExcept, NetVarAccessor.get_member, hself]
    simp only [onMember_pure]

theorem snapshots_member (vars : List NetVar) :
    snapshots (attachDevice device handle) vars = onMember handle
      (snapshots (attachDevice device devsimHandle) vars : EStateM DeviceError LazySocket (List NetVar)) := by
  induction vars with
  | nil => exact (onMember_pure _ _).symm
  | cons var vars ih =>
    rw [snapshots, snapshots, onMember_bind, snapshot_member, ih]
    congr 1
    funext value
    rw [onMember_bind]
    simp only [onMember_pure]

end DeviceService

section
variable (root : LogLevel) {bench : Bench} {deviceId : String} {device : Device} {handle : ℤ}

/-- A read of all values of a device goes through its own client only. -/
theorem readValues_member (hd : bench.device? deviceId = some (device, handle)) :
    bench.service.readValues root deviceId = onMember handle
      (DeviceService.snapshots (attachDevice device devsimHandle) (device.vars.filter (fun var => var.mode ≠ .W)) :
        EStateM DeviceError LazySocket (List NetVar)) := by
  rw [← DeviceService.snapshots_member, DeviceService.readValues_eq_snapshots hd]

/-- It ends as the requests that its client sends. -/
theorem readValues_ends (hd : bench.device? deviceId = some (device, handle)) (sockets : Sockets) :
    ((sockets handle).readFate ((readableAccessors device).map NetVarAccessor.request)).Gives
      (outcome ((bench.service.readValues root deviceId).run sockets)) := by
  rw [readValues_member root hd, outcome_onMember]
  exact snapshots_ends (fun _ hvar => List.mem_of_mem_filter hvar) (sockets handle)

end

end Tstlan
