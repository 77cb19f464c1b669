import Tstlan.Devices.Bench
import Tstlan.Devices.Routes

/-! # One write request, from the checks to the response

`planned` is the chain of checks before the buffer write: it gives the variable, the accessor that is
written and the coerced value, or the exception. `writeValue_run` and `writeValue_refused` say that the
endpoint does exactly what is planned. The last section states what a write request promises and proves
exactly when the endpoint keeps the promise. -/
namespace Tstlan
open Foundations
set_option autoImplicit false

namespace NetVarAccessor

/-- Whether the accessor's format can pack the value, and the exception if not. -/
def packs (acc : NetVarAccessor) (v : Number) : Except PyError Unit :=
  match structFormat acc.var.ctype with
  | none => .ok ()
  | some f => (f.pack v).map (fun _ => ())

/-- The place of the accessor holds the encoding of the value. -/
def Holds (acc : NetVarAccessor) (m : ByteMemory ℤ) (v : Number) : Prop :=
  match structFormat acc.var.ctype with
  | none => m.bit acc.handle acc.start = v.truthy
  | some f => f.pack v = .ok (m.read acc.handle acc.offset.byte f.size)

section
variable {acc : NetVarAccessor} {f : Format} {m m' : ByteMemory ℤ} {v : Number}

theorem holds_of_bit (hbit : acc.var.ctype = .BIT) :
    acc.Holds m v ↔ m.bit acc.handle acc.start = v.truthy := by
  rw [Holds, structFormat_bit.mpr hbit]

theorem holds_of_format (hf : structFormat acc.var.ctype = some f) :
    acc.Holds m v ↔ f.pack v = .ok (m.read acc.handle acc.offset.byte f.size) := by
  rw [Holds, hf]

theorem packs_error_iff {e : PyError} : acc.packs v = .error e ↔ acc.stored m v = .error e := by
  rcases bit_or_format acc with hbit | ⟨f, hf⟩
  · rw [packs, structFormat_bit.mpr hbit, stored_of_bit hbit]
    simp
  · rw [packs, hf, stored_of_format hf]
    cases hp : f.pack v <;> simp [Except.map, hp]

/-- A write leaves the places away from its own. -/
theorem sameOn_stored {other : NetVarAccessor} (hw : acc.Wf) (hd : acc.Disjoint other) (h : acc.stored m v = .ok m') :
    m.SameOn m' other.handle other.start other.stop := by
  intro q hlo hhi
  refine (bit_stored hw h ?_).symm
  rcases hd with hd | hd | hd
  · exact .inl (Ne.symm hd)
  · exact .inr (.inr (by omega))
  · exact .inr (.inl (by omega))

theorem stored_of_packs (h : acc.packs v = .ok ()) (m : ByteMemory ℤ) :
    ∃ m', acc.stored m v = .ok m' := by
  cases hs : acc.stored m v with
  | ok m' => exact ⟨m', rfl⟩
  | error e =>
    rw [packs_error_iff.mpr hs] at h
    cases h

theorem holds_congr (hw : acc.Wf) (h : m.SameOn m' acc.handle acc.start acc.stop) :
    acc.Holds m v ↔ acc.Holds m' v := by
  rcases bit_or_format acc with hbit | ⟨f, hf⟩
  · rw [holds_of_bit hbit, holds_of_bit hbit]
    rw [h acc.start le_rfl (VarOffset.start_lt_stop acc.offset acc.var.ctype)]
  · obtain ⟨h1, h2⟩ := place_of_format hw hf
    rw [h1, h2] at h
    rw [holds_of_format hf, holds_of_format hf, ByteMemory.read_congr h]

theorem holds_stored (hw : acc.Wf) (h : acc.stored m v = .ok m') : acc.Holds m' v := by
  rcases bit_or_format acc with hbit | ⟨f, hf⟩
  · obtain ⟨k, hlt, hk, hstart, -⟩ := place_of_bit hw hbit
    rw [stored_of_bit hbit, hk, Option.getD_some, Except.ok.injEq] at h
    rw [holds_of_bit hbit, ← h, ByteMemory.bit_setBit _ _ _ _ _ hlt, if_pos ⟨rfl, hstart⟩]
  · obtain ⟨bs, hp, rfl⟩ := stored_eq_ok hf h
    rw [holds_of_format hf, hp, ← Format.length_of_pack hp, ByteMemory.read_write]

theorem sameOn_of_holds (hw : acc.Wf) (h : acc.Holds m v) (h' : acc.Holds m' v) :
    m.SameOn m' acc.handle acc.start acc.stop := by
  rcases bit_or_format acc with hbit | ⟨f, hf⟩
  · obtain ⟨k, -, -, hstart, hstop⟩ := place_of_bit hw hbit
    intro p hlo hhi
    have hp : p = acc.start := by omega
    rw [hp, (holds_of_bit hbit).mp h, (holds_of_bit hbit).mp h']
  · obtain ⟨h1, h2⟩ := place_of_format hw hf
    rw [holds_of_format hf] at h h'
    rw [h, Except.ok.injEq] at h'
    rw [h1, h2]
    exact ByteMemory.sameOn_of_read h'

/-- Writing what the place already holds changes nothing. -/
theorem stored_of_holds (hw : acc.Wf) (hh : acc.Holds m v) (h : acc.stored m v = .ok m') : m' = m := by
  apply ByteMemory.ext_bit
  intro d p
  by_cases hin : d = acc.handle ∧ acc.start ≤ p ∧ p < acc.stop
  · obtain ⟨rfl, hlo, hhi⟩ := hin
    exact sameOn_of_holds hw (holds_stored hw h) hh p hlo hhi
  · apply bit_stored hw h
    by_cases hd : d = acc.handle
    · exact .inr (by omega)
    · exact .inl hd

end
end NetVarAccessor

/-! ## The checks before the write -/

/-- A write that has passed every check. -/
structure PlannedWrite where
  var : NetVar
  acc : NetVarAccessor
  coerced : Number

def DeviceService.planned (service : DeviceService) (deviceId name : String) (value : Number) :
    Except DeviceError PlannedWrite :=
  match service.devices.get? deviceId with
  | none => .error (.deviceNotFound deviceId)
  | some runtime =>
    match runtime.device.vars.find? (fun var => var.name = name) with
    | none => .error (.variableNotFound name)
    | some var =>
      if var.mode = .R then .error (.variableAccess name)
      else
        match coerceValue var.ctype value with
        | .error e => .error e
        | .ok coerced =>
          match runtime.scheme.get? name with
          | none => .error (.python .keyError)
          | some acc =>
            match acc.packs coerced with
            | .error e => .error (.python e)
            | .ok () => .ok ⟨var, acc, coerced⟩

/-- The write the endpoint makes for a caller, and the exception when it makes none. -/
def DeviceRoutes.planned (service : DeviceService) (user : User) (deviceId name : String)
    (value : Number) : Except DeviceRouteError PlannedWrite :=
  if user.role ∉ [Role.DEV, Role.ADMIN] then
    .error (.http 403 "write requires dev or admin role")
  else (service.planned deviceId name value).mapError .service

section
variable {σ : Type} [UnidriverIo σ] [LawfulUnidriverIo σ] {root : LogLevel} {service : DeviceService}
  {user : User} {deviceId name : String} {value : Number}

/-- The service does what is planned: it raises the planned exception with the buffers untouched, or it
writes the coerced value through the planned accessor. -/
theorem DeviceService.writeValue_planned (root : LogLevel) (service : DeviceService) (deviceId name : String)
    (value : Number) (s : σ) :
    (service.writeValue root deviceId name value).run s =
      match service.planned deviceId name value with
      | .error e => .error e s
      | .ok p => ((EStateM.adaptExcept .python (p.acc.set p.coerced) : EStateM DeviceError σ Unit) >>=
          fun _ => pure { p.var with value := p.coerced }).run s := by
  unfold DeviceService.writeValue DeviceService.runtimeOf DeviceService.variableOf
    DeviceService.planned
  simp (disch := decide) only [logEvent_bind]
  cases service.devices.get? deviceId with
  | none => rfl
  | some runtime =>
    refine (run_bind_ok (EStateM.run_pure runtime s)).trans ?_
    cases hv : runtime.device.vars.find? (fun var => var.name = name) with
    | none => simp only [hv]; rfl
    | some var =>
      refine (run_bind_ok (EStateM.run_pure var s)).trans ?_
      simp only [hv]
      by_cases hm : var.mode = .R
      · simp only [if_pos hm]
        rfl
      · simp only [if_neg hm]
        cases coerceValue var.ctype value with
        | error e => rfl
        | ok coerced =>
          refine (run_bind_ok (run_fromExcept_ok coerced s)).trans ?_
          cases runtime.scheme.get? name with
          | none => rfl
          | some acc =>
            simp only
            cases hp : acc.packs coerced with
            | ok _ => rfl
            | error e =>
              have hset := NetVarAccessor.set_run_error (NetVarAccessor.packs_error_iff.mp hp) (s := s)
              rw [EStateM.run_bind, EStateM.run_adaptExcept, hset]

/-- The endpoint does what is planned, and logs after the write. -/
theorem DeviceRoutes.writeValue_planned (s : σ) :
    (DeviceRoutes.writeValue root service user deviceId name value).run s =
      match DeviceRoutes.planned service user deviceId name value with
      | .error e => .error e s
      | .ok p => ((EStateM.adaptExcept DeviceRoutes.python (p.acc.set p.coerced) :
            EStateM DeviceRouteError σ Unit) >>= fun _ => do
          log DeviceRoutes.python (logCall root .INFO ["device_id", "name", "login"])
          pure (VariableValue.fromVar { p.var with value := p.coerced })).run s := by
  unfold DeviceRoutes.writeValue DeviceRoutes.requireWriter DeviceRoutes.planned
  by_cases hrole : user.role ∉ [Role.DEV, Role.ADMIN]
  · simp only [if_pos hrole]
    simp (disch := decide) only [logCall_bind]
    rfl
  · simp only [if_neg hrole]
    refine (run_bind_ok (EStateM.run_pure user s)).trans ?_
    rw [EStateM.run_bind, EStateM.run_adaptExcept, DeviceService.writeValue_planned]
    cases service.planned deviceId name value with
    | error e => rfl
    | ok p =>
      simp only [Except.mapError]
      rw [EStateM.run_bind, EStateM.run_bind, EStateM.run_adaptExcept, EStateM.run_adaptExcept]
      cases (p.acc.set p.coerced).run s <;> rfl

end

/-- The call at the end of a successful write has the key `name`, which a record already has. -/
theorem logCall_written (root : LogLevel) :
    logCall root .INFO ["device_id", "name", "login"] =
      if root.Enabled .INFO then .error .keyError else .ok () := by
  have hclash : ["device_id", "name", "login"].any recordAttributes.contains = true := by decide
  rw [logCall, hclash]
  simp only [and_true]

/-! ## What a planned write is about -/

section
variable {bench : Bench} {user : User} {deviceId name : String} {value : Number} {p : PlannedWrite}

theorem DeviceRoutes.planned_service
    (h : DeviceRoutes.planned bench.service user deviceId name value = .ok p) :
    bench.service.planned deviceId name value = .ok p := by
  rw [DeviceRoutes.planned] at h
  split at h
  · cases h
  · cases hp : bench.service.planned deviceId name value with
    | error e => rw [hp] at h; cases h
    | ok q => rw [hp] at h; cases h; rfl

/-- The planned variable is the addressed one, its coerced value has passed the checks of its C type, and
the accessor that is written is one of the bench and can pack the value. -/
theorem DeviceService.planned_addressed (h : bench.service.planned deviceId name value = .ok p) :
    ∃ acc, bench.addressed deviceId name = some acc ∧ acc.var = p.var ∧
      coerceValue acc.var.ctype value = .ok p.coerced ∧ p.acc ∈ bench.accessors ∧
      p.acc.packs p.coerced = .ok () := by
  rw [DeviceService.planned, Bench.service_get?] at h
  rw [Bench.addressed]
  cases hd : bench.device? deviceId with
  | none => rw [hd] at h; cases h
  | some d =>
    obtain ⟨device, handle⟩ := d
    simp only [hd, Option.map_some] at h ⊢
    have hdev : (attachDevice device handle).device = device := rfl
    rw [hdev, ← Bench.find?_buildScheme handle] at h
    cases hv : (buildScheme handle device.vars).find? (fun acc => acc.var.name = name) with
    | none => rw [hv] at h; cases h
    | some acc =>
      simp only [hv, Option.map_some] at h
      split at h
      · cases h
      · cases hc : coerceValue acc.var.ctype value with
        | error e => rw [hc] at h; cases h
        | ok coerced =>
          simp only [hc] at h
          cases hs : (attachDevice device handle).scheme.get? name with
          | none => rw [hs] at h; cases h
          | some target =>
            simp only [hs] at h
            cases hp : target.packs coerced with
            | error e => rw [hp] at h; cases h
            | ok _ =>
              rw [hp] at h
              cases h
              have hin := Bench.mem_of_scheme_get? hs
              exact ⟨acc, rfl, rfl, hc, Bench.mem_accessors (Bench.mem_of_device? hd) hin, hp⟩

end
/-- The buffers reach past the accessor's place and the place holds the value. -/
def NetVarAccessor.AlreadyStored (acc : NetVarAccessor) (io : InMemoryUnidriverIo) (v : Number) : Prop :=
  io.Reaches acc.handle (acc.offset.byte + acc.var.ctype.byteSize) ∧ acc.Holds io.memory v

/-- A write in memory: it returns, the place then holds the value, only bits of the place have moved,
and the buffers are exactly the old ones if and only if the value was already stored. -/
theorem NetVarAccessor.set_inMemory {acc : NetVarAccessor} (hw : acc.Wf) {v : Number}
    (hp : acc.packs v = .ok ()) (io : InMemoryUnidriverIo) :
    ∃ io', (acc.set v).run io = .ok () io' ∧ acc.stored io.memory v = .ok io'.memory ∧
      (io' = io ↔ acc.AlreadyStored io v) := by
  obtain ⟨m', hstored⟩ := stored_of_packs hp io.memory
  obtain ⟨io', hrun, hmem⟩ := set_run (σ := InMemoryUnidriverIo) hw hstored
  have hmem' : io'.memory = m' := hmem
  subst hmem'
  have hat : io.StoredAt io' acc.handle (acc.offset.byte + acc.var.ctype.byteSize) := by
    rcases bit_or_format acc with hbit | ⟨f, hf⟩
    · obtain ⟨k, hlt, hk, -, -⟩ := place_of_bit hw hbit
      rw [set, if_pos hbit, hk] at hrun
      rw [hbit]
      exact InMemoryUnidriverIo.writeBit_stored hlt hrun
    · obtain ⟨bs, hpack, -⟩ := stored_eq_ok hf hstored
      rw [set, if_neg (ctype_ne_bit hf), hf] at hrun
      simp only [hpack] at hrun
      rw [← structFormat_size hf, ← Format.length_of_pack hpack]
      exact InMemoryUnidriverIo.writeBytes_stored hrun
  refine ⟨io', hrun, hstored, ?_⟩
  rw [hat.eq_iff, AlreadyStored]
  refine and_congr_right (fun _ => ⟨fun hsame => ?_, fun hh => stored_of_holds hw hh hstored⟩)
  rw [← hsame]
  exact holds_stored hw hstored

/-! ## The promise of a write request -/

structure WriteRequest where
  user : User
  deviceId : String
  name : String
  value : Number

namespace WriteRequest

def serve (req : WriteRequest) (root : LogLevel) (bench : Bench) :
    EStateM DeviceRouteError InMemoryUnidriverIo VariableValue :=
  DeviceRoutes.writeValue root bench.service req.user req.deviceId req.name req.value

def planned (req : WriteRequest) (bench : Bench) : Except DeviceRouteError PlannedWrite :=
  DeviceRoutes.planned bench.service req.user req.deviceId req.name req.value

/-- On success the addressed variable holds the coerced value and no bit of another variable has moved;
otherwise every buffer is exactly what it was. -/
def Kept (req : WriteRequest) (root : LogLevel) (bench : Bench) (io : InMemoryUnidriverIo) : Prop :=
  match (req.serve root bench).run io with
  | .ok _ io' => ∃ acc coerced, bench.addressed req.deviceId req.name = some acc ∧
      coerceValue acc.var.ctype req.value = .ok coerced ∧ acc.Holds io'.memory coerced ∧
      ∀ other ∈ bench.accessors, other ≠ acc →
        io.memory.SameOn io'.memory other.handle other.start other.stop
  | .error _ io' => io' = io

/-- The request is refused before the write; or the log level disables the message after the write and
the written variable is the addressed one, not a later one of its name; or the write stores what is there
already. -/
def Harmless (req : WriteRequest) (root : LogLevel) (bench : Bench) (io : InMemoryUnidriverIo) : Prop :=
  match req.planned bench with
  | .error _ => True
  | .ok p =>
    if root.Enabled .INFO then p.acc.AlreadyStored io p.coerced
    else bench.addressed req.deviceId req.name = some p.acc ∨
      p.acc.Holds io.memory p.coerced ∧
        ∃ acc, bench.addressed req.deviceId req.name = some acc ∧ acc.Holds io.memory p.coerced

variable {req : WriteRequest} {root : LogLevel} {bench : Bench} {io io' : InMemoryUnidriverIo}
  {p : PlannedWrite}

theorem serve_of_planned (h : req.planned bench = .ok p)
    (hset : (p.acc.set p.coerced).run io = .ok () io') :
    (req.serve root bench).run io =
      if root.Enabled .INFO then .error (DeviceRoutes.python .keyError) io'
      else .ok (VariableValue.fromVar { p.var with value := p.coerced }) io' := by
  rw [serve, DeviceRoutes.writeValue_planned, ← planned, h]
  simp only
  rw [EStateM.run_bind, EStateM.run_adaptExcept, hset, logCall_written]
  by_cases hinfo : root.Enabled .INFO
  · simp only [if_pos hinfo]
    rfl
  · simp only [if_neg hinfo]
    rfl

/-- A write that leaves the bits of every variable but the addressed one. -/
theorem sameOn_others (hp : p.acc ∈ bench.accessors) (hstored : p.acc.stored io.memory p.coerced = .ok io'.memory)
    {other : NetVarAccessor} (ho : other ∈ bench.accessors) (hne : other ≠ p.acc) :
    io.memory.SameOn io'.memory other.handle other.start other.stop := by
  have hind := bench.accessors_independent
  exact NetVarAccessor.sameOn_stored (hind.wf _ hp) (hind.disjoint_of_mem hp ho (Ne.symm hne)) hstored

/-- **A write request keeps its promise exactly when it is harmless.** -/
theorem kept_iff_harmless (req : WriteRequest) (root : LogLevel) (bench : Bench)
    (io : InMemoryUnidriverIo) : req.Kept root bench io ↔ req.Harmless root bench io := by
  unfold Kept Harmless
  cases hp : req.planned bench with
  | error e =>
    rw [serve, DeviceRoutes.writeValue_planned, ← planned, hp]
    exact ⟨fun _ => trivial, fun _ => rfl⟩
  | ok p =>
    obtain ⟨acc, hacc, hvar, hcoerce, hin, hpacks⟩ :=
      DeviceService.planned_addressed (DeviceRoutes.planned_service hp)
    have hind := bench.accessors_independent
    have hw := hind.wf _ hin
    obtain ⟨io', hset, hstored, hiff⟩ := NetVarAccessor.set_inMemory hw hpacks io
    have hheld : p.acc.Holds io'.memory p.coerced := NetVarAccessor.holds_stored hw hstored
    rw [serve_of_planned hp hset]
    by_cases hinfo : root.Enabled .INFO
    · simp only [if_pos hinfo]
      exact hiff
    · simp only [if_neg hinfo]
      constructor
      · rintro ⟨acc', coerced, hacc', hcoerce', hholds, hothers⟩
        obtain rfl : acc = acc' := Option.some.inj (hacc.symm.trans hacc')
        obtain rfl : p.coerced = coerced := Except.ok.inj (hcoerce.symm.trans hcoerce')
        by_cases heq : p.acc = acc
        · exact .inl (by rw [heq, hacc])
        · have hsame := hothers p.acc hin heq
          have hsame' := sameOn_others hin hstored (Bench.mem_of_addressed hacc) (Ne.symm heq)
          refine .inr ⟨(NetVarAccessor.holds_congr hw hsame).mpr hheld, acc, hacc, ?_⟩
          exact (NetVarAccessor.holds_congr (hind.wf _ (Bench.mem_of_addressed hacc)) hsame').mpr hholds
      · rintro (h | ⟨hh, acc', hacc', hholds⟩)
        · obtain rfl : acc = p.acc := Option.some.inj (hacc.symm.trans h)
          exact ⟨p.acc, p.coerced, h, hcoerce, hheld, fun other ho hne => sameOn_others hin hstored ho hne⟩
        · obtain rfl : acc = acc' := Option.some.inj (hacc.symm.trans hacc')
          have hsame : io'.memory = io.memory := NetVarAccessor.stored_of_holds hw hh hstored
          rw [hsame]
          exact ⟨acc, p.coerced, hacc, hcoerce, hholds, fun _ _ _ => ByteMemory.SameOn.refl _ _ _ _⟩

/-- One writable word, bound with its initial value. -/
def sampleBench : Bench :=
  Bench.enumerate [⟨"tank", "Tank", "Эмулятор", true, .OK, [⟨"level", .U16, .RW, .int 0⟩]⟩]

def sampleWrite : WriteRequest := ⟨⟨1, "dev", "", .DEV, true⟩, "tank", "level", .int 5⟩

/-- At the default log level the write is made and the request then fails. -/
theorem sampleWrite_not_kept :
    ¬ sampleWrite.Kept .INFO sampleBench ⟨Dict.ofList [(1, [0, 0])]⟩ := by
  have hrun : (sampleWrite.serve .INFO sampleBench).run ⟨Dict.ofList [(1, [0, 0])]⟩ =
      .error (DeviceRoutes.python .keyError) ⟨Dict.ofList [(1, [5, 0])]⟩ := rfl
  rw [Kept, hrun]
  decide

end WriteRequest
end Tstlan
