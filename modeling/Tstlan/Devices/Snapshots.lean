import Tstlan.Devices.Devsim

/-! # A read of all values while the device runs

The client reads one variable per request, so what the others do between two of its requests is seen by the
later ones only. `clientRead_eq` gives the values that are returned over the socket; `read_consistent` says
when they are those of one moment, and for which devices they always are. -/
namespace Tstlan
open Foundations Foundations.Scan
set_option autoImplicit false

/-! ## Over the socket -/

namespace SocketUnidriverIo
variable {σ : Type} [UnidriverIo σ]

theorem readBytes_link {handle : ℤ} {index size : ℕ} {bs : List Byte} {s t : σ}
    (h : (UnidriverIo.readBytes handle index size).run s = .ok bs t) :
    (UnidriverIo.readBytes handle index size).run (quiet s) = .ok bs (quiet t) := by
  have hcall : (Op.readBytes handle index size).call.run s = .ok (.bytes bs) t := run_bind_ok h
  obtain ⟨bs', t', hrun, hpure⟩ := bind_eq_ok (call_link hcall)
  cases hpure
  exact hrun

theorem readBit_link {handle : ℤ} {byteIndex bitIndex : ℕ} {b : Bool} {s t : σ}
    (h : (UnidriverIo.readBit handle byteIndex bitIndex).run s = .ok b t) :
    (UnidriverIo.readBit handle byteIndex bitIndex).run (quiet s) = .ok b (quiet t) := by
  have hcall : (Op.readBit handle byteIndex bitIndex).call.run s = .ok (.bit b) t := run_bind_ok h
  obtain ⟨b', t', hrun, hpure⟩ := bind_eq_ok (call_link hcall)
  cases hpure
  exact hrun

theorem get_link {acc : NetVarAccessor} {v : Number} {s t : σ} (h : acc.get.run s = .ok v t) :
    acc.get.run (quiet s) = .ok v (quiet t) := by
  exact NetVarAccessor.get_transfer (fun _ _ => readBytes_link) (fun _ _ _ => readBit_link) h

theorem snapshots_link {runtime : DeviceRuntime} {vars values : List NetVar} {s t : σ}
    (h : (DeviceService.snapshots runtime vars).run s = .ok values t) :
    (DeviceService.snapshots runtime vars).run (quiet s) = .ok values (quiet t) := by
  induction vars generalizing s values with
  | nil => cases h; rfl
  | cons var vars ih =>
    obtain ⟨value, s1, hvalue, h⟩ := bind_eq_ok h
    obtain ⟨rest, s2, hrest, h⟩ := bind_eq_ok h
    cases h
    have hfirst : (DeviceService.snapshot runtime var).run (quiet s) = .ok value (quiet s1) := by
      unfold DeviceService.snapshot at hvalue ⊢
      cases hacc : runtime.scheme.get? var.name with
      | none => rw [hacc] at hvalue; cases hvalue
      | some acc =>
        simp only [hacc] at hvalue ⊢
        obtain ⟨v, s', hget, hpure⟩ := bind_eq_ok hvalue
        cases hpure
        rw [EStateM.run_adaptExcept] at hget
        cases hrun : acc.get.run s with
        | error e u => rw [hrun] at hget; cases hget
        | ok w u =>
          rw [hrun] at hget
          cases hget
          refine run_bind_ok ?_
          rw [EStateM.run_adaptExcept, get_link hrun]
    exact (run_bind_ok hfirst).trans (run_bind_ok (ih hrest))

end SocketUnidriverIo

/-! ## The order of the actions and the reads -/

theorem memory_get (acc : NetVarAccessor) (io : InMemoryUnidriverIo) : (final (acc.get.run io)).memory = io.memory := by
  unfold NetVarAccessor.get
  by_cases hbit : acc.var.ctype = .BIT
  · rw [if_pos hbit]
    cases acc.offset.bit with
    | none => rfl
    | some k => exact InMemoryUnidriverIo.memory_ensure io acc.handle (acc.offset.byte + 1)
  · rw [if_neg hbit]
    refine (congrArg InMemoryUnidriverIo.memory (final_bind (fun raw => ?_) io)).trans
      (InMemoryUnidriverIo.memory_ensure io acc.handle (acc.offset.byte + acc.var.ctype.byteSize))
    cases structFormat acc.var.ctype with
    | none => exact .throw _
    | some f => exact .fromExcept _

/-- A read of the client may make a buffer longer. -/
def NetVarAccessor.touch (acc : NetVarAccessor) : Touch InMemoryUnidriverIo.memory where
  apply io := final (acc.get.run io)
  keeps := memory_get acc

def Action.event (device : Device) (a : Action) : Event InMemoryUnidriverIo.memory Number := .act (a.perform device)

/-- The actions of the others and the requests of the client, in the order in which they take the lock. -/
def timeline (device : Device) : List NetVarAccessor → List (List Action) → List (Event InMemoryUnidriverIo.memory Number)
  | [], _ => []
  | acc :: accs, schedule =>
    (schedule.headD []).map (Action.event device) ++ .read acc.shown acc.touch :: timeline device accs schedule.tail

theorem parts_timeline (device : Device) (accs : List NetVarAccessor) (schedule : List (List Action)) :
    parts (timeline device accs schedule) = accs.map NetVarAccessor.shown := by
  induction accs generalizing schedule with
  | nil => rfl
  | cons acc accs ih =>
    have hbatch : parts ((schedule.headD []).map (Action.event device)) = [] :=
      List.filterMap_eq_nil_iff.mpr (by
        intro e he
        obtain ⟨a, -, rfl⟩ := List.mem_map.mp he
        rfl)
    rw [timeline, parts_append, hbatch, List.nil_append, List.map_cons, ← ih schedule.tail]
    rfl

namespace DeviceServer

/-- The server after some events: the buffers have moved and the states are recorded. -/
def advance (server : DeviceServer) (es : List (Event InMemoryUnidriverIo.memory Number))
    (schedule : List (List Action)) : DeviceServer :=
  ⟨server.device, after es server.io, schedule, server.states ++ trail es server.io⟩

theorem foldl_moveTo (batch : List Action) (server : DeviceServer) :
    batch.foldl (fun server a => server.moveTo (a.perform server.device server.io)) server =
      server.advance (batch.map (Action.event server.device)) server.schedule := by
  induction batch generalizing server with
  | nil => simp [advance, after, trail]
  | cons a batch ih =>
    rw [List.foldl_cons, ih, advance, advance, moveTo, List.append_assoc]
    rfl

theorem others_eq (server : DeviceServer) :
    server.others =
      server.advance ((server.schedule.headD []).map (Action.event server.device)) server.schedule.tail := by
  obtain ⟨device, io, schedule, states⟩ := server
  cases schedule with
  | nil => simp [others, advance, after, trail]
  | cons batch rest => exact foldl_moveTo batch ⟨device, io, rest, states⟩

theorem request_run {α : Type} {x : EStateM PyError InMemoryUnidriverIo α} {server : DeviceServer} {a : α}
    {io : InMemoryUnidriverIo} (h : x.run server.others.io = .ok a io) :
    (request x).run server = .ok a (server.others.moveTo io) := by
  rw [EStateM.run] at h ⊢
  unfold request
  rw [EStateM.run, h]

theorem others_io (server : DeviceServer) :
    server.others.io = after ((server.schedule.headD []).map (Action.event server.device)) server.io := by
  rw [others_eq, advance]

/-- After its next request the client sees the next actions of the others, then its own read. -/
theorem moveTo_read (server : DeviceServer) (acc : NetVarAccessor) :
    server.others.moveTo (acc.touch.apply server.others.io) =
      server.advance ((server.schedule.headD []).map (Action.event server.device) ++ [.read acc.shown acc.touch])
        server.schedule.tail := by
  rw [others_eq, advance, moveTo, advance, after_append, trail_append, List.append_assoc]
  rfl

theorem get_run {acc : NetVarAccessor} (hw : acc.Wf) (server : DeviceServer) :
    acc.get.run server =
      .ok (acc.shown server.others.io.memory) (server.others.moveTo (acc.touch.apply server.others.io)) := by
  obtain ⟨v, io, hrun, hvalue, -⟩ := NetVarAccessor.get_run hw server.others.io
  have hshown : acc.shown server.others.io.memory = v := by
    have hv := acc.value_eq_shown server.others.io.memory
    exact Except.ok.inj (hv.symm.trans hvalue)
  have htouch : acc.touch.apply server.others.io = io := congrArg final hrun
  rw [hshown, htouch]
  exact NetVarAccessor.get_transfer (fun _ _ => request_run) (fun _ _ _ => request_run) hrun

theorem values_events (device : Device) (batch : List Action) (io : InMemoryUnidriverIo) :
    values (batch.map (Action.event device)) io = [] := by
  induction batch generalizing io with
  | nil => rfl
  | cons a batch ih => exact ih (a.perform device io)

theorem advance_advance (server : DeviceServer) (es es' : List (Event InMemoryUnidriverIo.memory Number))
    (schedule schedule' : List (List Action)) :
    (server.advance es schedule).advance es' schedule' = server.advance (es ++ es') schedule' := by
  simp only [advance, after_append, trail_append, List.append_assoc]

end DeviceServer

def accessorsOf (runtime : DeviceRuntime) (vars : List NetVar) : List NetVarAccessor :=
  vars.filterMap (fun var => runtime.scheme.get? var.name)

theorem accessorsOf_cons {runtime : DeviceRuntime} {var : NetVar} {acc : NetVarAccessor}
    (h : runtime.scheme.get? var.name = some acc) (vars : List NetVar) :
    accessorsOf runtime (var :: vars) = acc :: accessorsOf runtime vars :=
  List.filterMap_cons_some h

def withValues (vars : List NetVar) (values : List Number) : List NetVar :=
  List.zipWith (fun var value => { var with value := value }) vars values

theorem shown_eq_withValues {device : Device} {handle : ℤ} {vars : List NetVar} (h : ∀ var ∈ vars, var ∈ device.vars)
    (m : ByteMemory ℤ) :
    vars.map ((attachDevice device handle).shown m) =
      withValues vars ((accessorsOf (attachDevice device handle) vars).map (fun acc => acc.shown m)) := by
  induction vars with
  | nil => rfl
  | cons var vars ih =>
    obtain ⟨hvar, hrest⟩ := List.forall_mem_cons.mp h
    obtain ⟨acc, hacc⟩ := scheme_get?_of_mem handle hvar
    rw [List.map_cons, ih hrest, DeviceRuntime.shown, hacc, accessorsOf_cons hacc]
    rfl

namespace DeviceServer
variable {bench : Bench} {d : Device × ℤ}

/-- The read of one variable comes after the next actions of the others. -/
theorem snapshot_run (hd : d ∈ bench.devices) {var : NetVar} {acc : NetVarAccessor}
    (hacc : (attachDevice d.1 d.2).scheme.get? var.name = some acc) (server : DeviceServer) :
    (DeviceService.snapshot (attachDevice d.1 d.2) var).run server =
      .ok { var with value := acc.shown server.others.io.memory }
        (server.others.moveTo (acc.touch.apply server.others.io)) := by
  have hw : acc.Wf :=
    bench.accessors_independent.wf acc (Bench.mem_accessors hd (Bench.mem_of_scheme_get? hacc))
  simp only [DeviceService.snapshot, hacc]
  rw [EStateM.run_bind, EStateM.run_adaptExcept, get_run hw]
  rfl

/-- The values of a read are those of its timeline. -/
theorem snapshots_run (hd : d ∈ bench.devices) {vars : List NetVar} (hvars : ∀ var ∈ vars, var ∈ d.1.vars)
    (server : DeviceServer) :
    let es := timeline server.device (accessorsOf (attachDevice d.1 d.2) vars) server.schedule
    ∃ schedule, (DeviceService.snapshots (attachDevice d.1 d.2) vars).run server =
      .ok (withValues vars (values es server.io)) (server.advance es schedule) := by
  induction vars generalizing server with
  | nil =>
    refine ⟨server.schedule, ?_⟩
    simp [accessorsOf, timeline, advance, after, trail]
    rfl
  | cons var vars ih =>
    obtain ⟨hvar, hrest⟩ := List.forall_mem_cons.mp hvars
    obtain ⟨acc, hacc⟩ := scheme_get?_of_mem d.2 hvar
    obtain ⟨schedule, hrun⟩ := ih hrest (server.others.moveTo (acc.touch.apply server.others.io))
    refine ⟨schedule, ?_⟩
    have hfirst := snapshot_run hd hacc server
    have hio : (server.others.moveTo (acc.touch.apply server.others.io)).io = acc.touch.apply server.others.io := rfl
    rw [moveTo_read] at hrun hfirst hio
    rw [accessorsOf_cons hacc, timeline, DeviceService.snapshots, run_bind_ok hfirst, run_bind_ok hrun,
      advance_advance, List.append_assoc, values_append, values_events, ← others_io, hio]
    rfl

end DeviceServer

/-! ## One moment -/

/-- What the client is to read of the device. -/
def readableAccessors (device : Device) : List NetVarAccessor :=
  accessorsOf (attachDevice device devsimHandle) (device.vars.filter (fun var => var.mode ≠ .W))

/-- There is a moment in the read such that no action before it has changed a value the client had read by
then, and no action after it changes a value the client had still to read. -/
def Undisturbed (device : Device) (io : InMemoryUnidriverIo) (schedule : List (List Action)) : Prop :=
  ∃ es es', timeline device (readableAccessors device) schedule = es ++ es' ∧ LeavesRead [] es io ∧
    LeavesUnread es' (after es io)

/-- The read of all values through a fresh connection. -/
def clientRead (root : LogLevel) (device : Device) (io : InMemoryUnidriverIo) (schedule : List (List Action)) :
    EStateM.Result DeviceError (Link DeviceServer) (List NetVar) :=
  ((deviceBench device).service.readValues root device.id).run
    (SocketUnidriverIo.quiet (DeviceServer.start device io schedule))

/-- The read returns, with the values that its timeline gives. -/
theorem clientRead_eq (root : LogLevel) (device : Device) (io : InMemoryUnidriverIo) (schedule : List (List Action)) :
    ∃ link, clientRead root device io schedule =
        .ok (withValues (device.vars.filter (fun var => var.mode ≠ .W))
          (values (timeline device (readableAccessors device) schedule) io)) link ∧
      link.device.states = io :: trail (timeline device (readableAccessors device) schedule) io := by
  have hd : (deviceBench device).device? device.id = some (device, devsimHandle) := by
    simp [Bench.device?, deviceBench]
  have hvars : ∀ var ∈ device.vars.filter (fun var => var.mode ≠ .W), var ∈ device.vars :=
    fun _ hvar => List.mem_of_mem_filter hvar
  obtain ⟨rest, hrun⟩ := DeviceServer.snapshots_run (Bench.mem_of_device? hd) hvars
    (DeviceServer.start device io schedule)
  rw [clientRead, DeviceService.readValues_eq_snapshots hd]
  exact ⟨_, SocketUnidriverIo.snapshots_link hrun, rfl⟩

/-- The read returns, and its values are those of one state of the device between two actions. -/
def Consistent (root : LogLevel) (device : Device) (io : InMemoryUnidriverIo) (schedule : List (List Action)) : Prop :=
  ∃ values link, clientRead root device io schedule = .ok values link ∧
    ∃ state ∈ link.device.states, values = (attachDevice device devsimHandle).readable state.memory

theorem consistent_of_undisturbed (root : LogLevel) {device : Device} {io : InMemoryUnidriverIo}
    {schedule : List (List Action)} (h : Undisturbed device io schedule) : Consistent root device io schedule := by
  obtain ⟨es, es', hcut, hread, hunread⟩ := h
  obtain ⟨link, hrun, hstates⟩ := clientRead_eq root device io schedule
  refine ⟨_, link, hrun, after es io, ?_, ?_⟩
  · rw [hstates, hcut]
    exact cut_mem_trail es es' io
  · have hparts : parts (es ++ es') = (readableAccessors device).map NetVarAccessor.shown := by
      rw [← hcut, parts_timeline]
    rw [hcut, values_eq_of_cut hread hunread, hparts, List.map_map, DeviceRuntime.readable]
    exact (shown_eq_withValues (fun _ hvar => List.mem_of_mem_filter hvar) _).symm

/-! ## Which devices are safe -/

theorem leavesRead_events (device : Device) (batch : List Action) (acc : NetVarAccessor) (io : InMemoryUnidriverIo) :
    LeavesRead [] (batch.map (Action.event device) ++ [.read acc.shown acc.touch]) io := by
  induction batch generalizing io with
  | nil => exact trivial
  | cons a batch ih => exact ⟨fun _ h => absurd h List.not_mem_nil, ih (a.perform device io)⟩

/-- One value is always the value of a moment. -/
theorem undisturbed_of_length_le {device : Device} (h : (readableAccessors device).length ≤ 1)
    (io : InMemoryUnidriverIo) (schedule : List (List Action)) : Undisturbed device io schedule := by
  rcases haccs : readableAccessors device with _ | ⟨acc, _ | ⟨second, rest⟩⟩
  · refine ⟨[], [], ?_, trivial, trivial⟩
    rw [haccs]
    rfl
  · refine ⟨timeline device [acc] schedule, [], ?_, leavesRead_events device _ acc io, trivial⟩
    rw [haccs, List.append_nil]
  · rw [haccs, List.length_cons, List.length_cons] at h
    omega

theorem unpack_replicate_ne {c : NetVarCType} {f : Format} (h : structFormat c = some f) :
    f.unpack (List.replicate f.size 0) ≠ f.unpack (List.replicate f.size 255) := by
  cases c <;> simp only [structFormat, Option.some.injEq, reduceCtorEq] at h <;> subst h <;> decide +kernel

/-- Bytes of zeros and bytes of ones are different values of every C type. -/
theorem shown_ne {acc : NetVarAccessor} (hw : acc.Wf) {m m' : ByteMemory ℤ}
    (hm : ∀ j < acc.offset.byte + acc.var.ctype.byteSize, m acc.handle j = 0)
    (hm' : ∀ j < acc.offset.byte + acc.var.ctype.byteSize, m' acc.handle j = 255) :
    acc.shown m ≠ acc.shown m' := by
  intro heq
  have hvalue : acc.value m = acc.value m' := by rw [acc.value_eq_shown, acc.value_eq_shown, heq]
  rcases NetVarAccessor.bit_or_format acc with hbit | ⟨f, hf⟩
  · obtain ⟨k, hk, -, hstart, -⟩ := NetVarAccessor.place_of_bit hw hbit
    have hbyte : acc.start / 8 < acc.offset.byte + acc.var.ctype.byteSize := by
      have := acc.var.ctype.byteSize_pos
      omega
    have hone : (255 : Byte).getLsbD (acc.start % 8) = true := by
      have hall : ∀ i < 8, (255 : Byte).getLsbD i = true := by decide
      exact hall _ (Nat.mod_lt _ (by omega))
    rw [NetVarAccessor.value_of_bit hbit, NetVarAccessor.value_of_bit hbit, ByteMemory.bit, ByteMemory.bit,
      hm _ hbyte, hm' _ hbyte, hone] at hvalue
    simp at hvalue
  · have hsize := structFormat_size hf
    have hread {m : ByteMemory ℤ} {b : Byte}
        (h : ∀ j < acc.offset.byte + acc.var.ctype.byteSize, m acc.handle j = b) :
        m.read acc.handle acc.offset.byte f.size = List.replicate f.size b := by
      rw [ByteMemory.read, List.eq_replicate_iff]
      refine ⟨by simp, fun x hx => ?_⟩
      obtain ⟨i, hi, rfl⟩ := List.mem_map.mp hx
      have := List.mem_range.mp hi
      exact h _ (by omega)
    rw [NetVarAccessor.value_of_format hf, NetVarAccessor.value_of_format hf, hread hm, hread hm'] at hvalue
    exact unpack_replicate_ne hf hvalue

/-- Another client sets every bit of the first bytes. -/
def overwrite (n : ℕ) : Action := .request (Op.writeBytes devsimHandle 0 (List.replicate n 255)).message

theorem memory_overwrite (device : Device) (n : ℕ) (io : InMemoryUnidriverIo) :
    ((overwrite n).perform device io).memory = io.memory.write devsimHandle 0 (List.replicate n 255) := by
  obtain ⟨io', hrun, hmem⟩ := LawfulUnidriverIo.writeBytes_run io devsimHandle 0 (List.replicate n 255)
  have hcall : (Op.writeBytes devsimHandle 0 (List.replicate n 255)).call.run io = .ok .done io' := run_bind_ok hrun
  rw [overwrite, Action.perform, apply_of_call hcall]
  exact hmem

/-- Reads alone leave the memory. -/
theorem memory_of_mem_trail {device : Device} {accs : List NetVarAccessor} {io state : InMemoryUnidriverIo}
    (h : state ∈ trail (timeline device accs []) io) : state.memory = io.memory := by
  induction accs generalizing io with
  | nil => cases h
  | cons acc accs ih =>
    rcases List.mem_cons.mp h with rfl | h
    · exact acc.touch.keeps io
    · exact (ih h).trans (acc.touch.keeps io)

/-- An action between the first two reads: the memory is that from before it, or that which it leaves. -/
theorem memory_of_mem_trail_between {device : Device} {first second : NetVarAccessor} {rest : List NetVarAccessor}
    {a : Action} {io state : InMemoryUnidriverIo}
    (h : state ∈ io :: trail (timeline device (first :: second :: rest) [[], [a]]) io) :
    state.memory = io.memory ∨ state.memory = (a.perform device (first.touch.apply io)).memory := by
  rcases List.mem_cons.mp h with rfl | h
  · exact .inl rfl
  rcases List.mem_cons.mp h with rfl | h
  · exact .inl (first.touch.keeps io)
  rcases List.mem_cons.mp h with rfl | h
  · exact .inr rfl
  rcases List.mem_cons.mp h with rfl | h
  · exact .inr (second.touch.keeps _)
  · exact .inr ((memory_of_mem_trail h).trans (second.touch.keeps _))

theorem length_accessorsOf {device : Device} {handle : ℤ} {vars : List NetVar} (h : ∀ var ∈ vars, var ∈ device.vars) :
    (accessorsOf (attachDevice device handle) vars).length = vars.length := by
  induction vars with
  | nil => rfl
  | cons var vars ih =>
    obtain ⟨hvar, hrest⟩ := List.forall_mem_cons.mp h
    obtain ⟨acc, hacc⟩ := scheme_get?_of_mem handle hvar
    rw [accessorsOf_cons hacc, List.length_cons, List.length_cons, ih hrest]

theorem map_value_withValues {vars : List NetVar} {values : List Number} (h : values.length = vars.length) :
    (withValues vars values).map NetVar.value = values := by
  induction vars generalizing values with
  | nil => cases values with
    | nil => rfl
    | cons v values => cases h
  | cons var vars ih => cases values with
    | nil => cases h
    | cons v values => exact congrArg (v :: ·) (ih (Nat.succ.inj h))

theorem length_values (es : List (Event InMemoryUnidriverIo.memory Number)) (io : InMemoryUnidriverIo) :
    (values es io).length = (parts es).length := by
  induction es generalizing io with
  | nil => rfl
  | cons e es ih =>
    cases e with
    | act f => exact ih (f io)
    | read part touch => exact congrArg (· + 1) (ih (touch.apply io))

/-- A consistent read has, for each accessor, the value it shows in one of the states. -/
theorem values_of_consistent {root : LogLevel} {device : Device} {io : InMemoryUnidriverIo}
    {schedule : List (List Action)} (h : Consistent root device io schedule) :
    ∃ state ∈ io :: trail (timeline device (readableAccessors device) schedule) io,
      values (timeline device (readableAccessors device) schedule) io =
        (readableAccessors device).map (fun acc => acc.shown state.memory) := by
  obtain ⟨vs, link, hrun, state, hstate, heq⟩ := h
  obtain ⟨link', hrun', hstates⟩ := clientRead_eq root device io schedule
  rw [hrun'] at hrun
  cases hrun
  rw [hstates] at hstate
  refine ⟨state, hstate, ?_⟩
  have hvars : ∀ var ∈ device.vars.filter (fun var => var.mode ≠ .W), var ∈ device.vars :=
    fun _ hvar => List.mem_of_mem_filter hvar
  have hlen : (readableAccessors device).length = (device.vars.filter (fun var => var.mode ≠ .W)).length :=
    length_accessorsOf hvars
  rw [DeviceRuntime.readable, show (attachDevice device devsimHandle).device = device from rfl,
    shown_eq_withValues hvars] at heq
  have hmap := congrArg (List.map NetVar.value) heq
  rw [map_value_withValues, map_value_withValues] at hmap
  · exact hmap
  · rw [List.length_map]
    exact hlen
  · rw [length_values, parts_timeline, List.length_map]
    exact hlen

/-- With two values to read, a write of all bytes between the two reads is seen by the second only. -/
theorem exists_inconsistent (root : LogLevel) (device : Device) (h : 2 ≤ (readableAccessors device).length) :
    ∃ io schedule, ¬ Consistent root device io schedule := by
  match haccs : readableAccessors device, h with
  | first :: second :: rest, _ =>
    have hin {acc : NetVarAccessor} (hacc : acc ∈ readableAccessors device) : acc.Wf ∧ acc.handle = devsimHandle := by
      obtain ⟨var, -, hget⟩ := List.mem_filterMap.mp hacc
      have hmem := Bench.mem_of_scheme_get? hget
      exact ⟨(buildScheme_independent _ _).wf acc hmem, handle_of_mem_buildScheme hmem⟩
    obtain ⟨hwfirst, hfirst⟩ := hin (haccs ▸ List.mem_cons_self)
    obtain ⟨hwsecond, hsecond⟩ := hin (haccs ▸ List.mem_cons_of_mem _ List.mem_cons_self)
    have hones {n j : ℕ} (m : ByteMemory ℤ) (hj : j < n) :
        m.write devsimHandle 0 (List.replicate n 255) devsimHandle j = 255 := by
      have hw := ByteMemory.write_apply m devsimHandle 0 j (List.replicate n 255) (by rwa [List.length_replicate])
      rwa [Nat.zero_add, List.getElem_replicate] at hw
    let n := first.offset.byte + first.var.ctype.byteSize + (second.offset.byte + second.var.ctype.byteSize)
    let io : InMemoryUnidriverIo := ⟨.empty⟩
    let written := (overwrite n).perform device (first.touch.apply io)
    have hwritten : written.memory = io.memory.write devsimHandle 0 (List.replicate n 255) := by
      rw [memory_overwrite, first.touch.keeps]
    refine ⟨io, [[], [overwrite n]], fun hc => ?_⟩
    obtain ⟨state, hstate, hvalues⟩ := values_of_consistent hc
    rw [haccs] at hstate hvalues
    obtain ⟨hhead, htail⟩ := List.cons.inj hvalues
    have hsecondvalue : second.shown written.memory = second.shown state.memory := (List.cons.inj htail).1
    rcases memory_of_mem_trail_between hstate with hmem | hmem
    · rw [hmem] at hsecondvalue
      refine shown_ne hwsecond (fun j _ => ?_) (fun j hj => ?_) hsecondvalue.symm
      · rfl
      · rw [hwritten, hsecond]
        exact hones _ (by omega)
    · rw [hmem] at hhead
      refine shown_ne hwfirst (fun j _ => ?_) (fun j hj => ?_) hhead
      · rfl
      · rw [hwritten, hfirst]
        exact hones _ (by omega)

/-- **A read is consistent if it is undisturbed, and the devices whose reads are consistent under every
schedule are those with at most one value to read.** -/
theorem read_consistent (root : LogLevel) (device : Device) :
    (∀ io schedule, Undisturbed device io schedule → Consistent root device io schedule) ∧
      ((∀ io schedule, Consistent root device io schedule) ↔ (readableAccessors device).length ≤ 1) := by
  refine ⟨fun io schedule h => consistent_of_undisturbed root h, fun h => ?_, fun h io schedule => ?_⟩
  · by_contra htwo
    obtain ⟨io, schedule, hbad⟩ := exists_inconsistent root device (by omega)
    exact hbad (h io schedule)
  · exact consistent_of_undisturbed root (undisturbed_of_length_le h io schedule)

/-! ## Two sensors -/

def sensorDevice : Device :=
  ⟨"sim", "Sim", "Эмулятор", true, .OK, [⟨"a", .U8, .R, .int 0⟩, ⟨"b", .U8, .R, .int 0⟩]⟩

def sensorTick : Action := .tick (Dict.ofList [("a", .int 1), ("b", .int 1)])

/-- A tick that publishes both sensors falls between the two requests: the list is `[0, 1]`. -/
theorem sensorTick_torn : ¬ ∀ (root : LogLevel) (device : Device) (io : InMemoryUnidriverIo)
    (schedule : List (List Action)), Consistent root device io schedule := by
  intro h
  obtain ⟨state, hstate, hvalues⟩ := values_of_consistent (h .INFO sensorDevice ⟨.empty⟩ [[], [sensorTick]])
  have hnone : ∀ state ∈ (⟨.empty⟩ : InMemoryUnidriverIo) ::
      trail (timeline sensorDevice (readableAccessors sensorDevice) [[], [sensorTick]]) ⟨.empty⟩,
      values (timeline sensorDevice (readableAccessors sensorDevice) [[], [sensorTick]]) ⟨.empty⟩ ≠
        (readableAccessors sensorDevice).map (fun acc => acc.shown state.memory) := by decide +kernel
  exact hnone state hstate hvalues

/-- The tick comes before the first request, and only a foreign read between the two. -/
theorem sensorTick_whole : Consistent .INFO sensorDevice ⟨.empty⟩
    [[sensorTick], [.request (Op.readBytes devsimHandle 0 2).message]] := by
  refine (read_consistent .INFO sensorDevice).1 _ _ ⟨_, [], (List.append_nil _).symm, ?_, trivial⟩
  decide +kernel

end Tstlan
