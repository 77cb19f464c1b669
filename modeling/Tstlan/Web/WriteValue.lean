import Tstlan.Devices.Lookup
import Tstlan.Web.ValueEditor

/-! # A value from the editor to the device and back

An entered integer passes through two Numbers: the one that is sent, whose shortest numeral the backend
reads, and the one that the browser reads back. `delivered_iff` says for which integers, and in which setting,
the device then holds the entered value and the page shows it. -/
namespace Tstlan
open Foundations
set_option autoImplicit false

/-! ## What the page shows -/

namespace Web
open Foundations.Numeral Js

variable {fractions : Fractions} {editor : ValueEditor} {root : LogLevel} {bench : Bench} {acc : NetVarAccessor}
  {low high v : ℤ} {io : InMemoryUnidriverIo}

/-- The page holds the integer `v` for the variable. -/
def Monitor.Holds (page : Monitor (Option Js.Number)) (name : String) (v : ℤ) : Prop :=
  ∃ exact, page.values.get? name = some (some (.integer v exact))

/-- What entering `v` promises: the device stores it, whatever reaches the page, the response or the next event of the
stream, shows it, and the page outlives the event; one of the two reaches it. A write-only variable is in no event. -/
structure Delivered (fractions : Fractions) (editor : ValueEditor) (root : LogLevel) (bench : Bench)
    (acc : NetVarAccessor) (v : ℤ) (io : InMemoryUnidriverIo) : Prop where
  stored : acc.Holds (editor.enter fractions root bench (Json.writeInt v) io).2.memory (.int v)
  response : ∀ written, (editor.enter fractions root bench (Json.writeInt v) io).1 = some written →
    ∀ page : Monitor (Option Js.Number),
      (page.handleWritten written.name (parsed written.value)).Holds editor.name v
  stream : ∃ values, editor.nextEvent root bench (editor.enter fractions root bench (Json.writeInt v) io).2 = some values ∧
    ∀ (page : Monitor (Option Js.Number)) (t : ℚ), ∃ page', page.onSnapshot (receivedValues values) t = some page' ∧
      (acc.var.mode ≠ .W → page'.Holds editor.name v)
  received : (editor.enter fractions root bench (Json.writeInt v) io).1 ≠ none ∨ acc.var.mode ≠ .W

/-- `v` is a Number, and no integer with more trailing zeros is read as the same Number; the user is signed
in and may write; the id and the name can stand in the path of a request, and no shown name is one that objects inherit;
the name is not hidden by a later variable; and if only the response can show the value, the log level lets it
through. -/
structure Deliverable (editor : ValueEditor) (root : LogLevel) (bench : Bench) (acc : NetVarAccessor) (v : ℤ) :
    Prop where
  exact : Exact 53 v.natAbs
  shortest : IsShortest 53 v.natAbs
  signedIn : editor.csrfToken ≠ none
  writer : editor.user.role ∈ [Role.DEV, Role.ADMIN]
  device : Url.Portable editor.deviceId.toList
  name : Url.Portable editor.name.toList
  plain : ∀ d, bench.device? editor.deviceId = some d → ∀ var ∈ d.1.vars, var.mode ≠ .W → var.name ∉ objectPrototype
  target : bench.target editor.deviceId editor.name = some acc
  answered : acc.var.mode = .W → ¬ root.Enabled .INFO

/-! ## The request -/

namespace ValueEditor

/-- Where the request of a submission arrives; the body does not matter. -/
def arrival (editor : ValueEditor) : Option Endpoint :=
  (ApiCall.writeValue editor.deviceId editor.name ([] : List Char)).arrives

/-- The request that an entered integer makes of an endpoint. -/
def sent (editor : ValueEditor) (deviceId name : String) (v : ℤ) : WriteRequest :=
  ⟨editor.user, deviceId, name, .int (Number.printed v)⟩

theorem arrival_iff : editor.arrival = some (.writeValue editor.deviceId editor.name) ↔
    Url.Portable editor.deviceId.toList ∧ Url.Portable editor.name.toList := by
  refine (ApiCall.arrives_iff _).trans ?_
  simp only [ApiCall.params, List.forall_mem_cons, List.not_mem_nil, IsEmpty.forall_iff, implies_true, and_true]

end ValueEditor

theorem enter_signedOut (hsigned : editor.csrfToken = none) (hv : v.natAbs ≤ 2 ^ 64) :
    editor.enter fractions root bench (Json.writeInt v) io = (none, io) := by
  rw [ValueEditor.enter, submit_writeInt fractions editor.csrfToken hv, hsigned]

theorem enter_elsewhere (harrival : ∀ deviceId name, editor.arrival ≠ some (.writeValue deviceId name))
    (hv : v.natAbs ≤ 2 ^ 64) : editor.enter fractions root bench (Json.writeInt v) io = (none, io) := by
  have harrives (body : List Char) :
      (ApiCall.writeValue editor.deviceId editor.name body).arrives = editor.arrival := rfl
  rw [ValueEditor.enter, submit_writeInt fractions editor.csrfToken hv]
  cases editor.csrfToken with
  | none => rfl
  | some token =>
    -- by `harrival` it is the last case of the match
    simp only [harrives]

section
variable {deviceId name : String} (harrival : editor.arrival = some (.writeValue deviceId name))
include harrival

theorem enter_signedIn (hsigned : editor.csrfToken ≠ none) (hv : v.natAbs ≤ 2 ^ 64) :
    editor.enter fractions root bench (Json.writeInt v) io =
      match ((editor.sent deviceId name v).serve root bench).run io with
      | .ok written io' => (some written, io')
      | .error _ io' => (none, io') := by
  obtain ⟨token, htoken⟩ := Option.ne_none_iff_exists'.mp hsigned
  rw [ValueEditor.enter, submit_writeInt fractions editor.csrfToken hv, htoken]
  have harrives (body : List Char) :
      (ApiCall.writeValue editor.deviceId editor.name body).arrives = some (.writeValue deviceId name) := harrival
  simp only [harrives, writeValueRequest_compact]
  rfl

/-- A planned write is made; the response comes unless the message after the write fails. -/
theorem enter_planned (fractions : Fractions) (root : LogLevel) (hsigned : editor.csrfToken ≠ none)
    (hv : v.natAbs ≤ 2 ^ 64) {p : PlannedWrite} (hp : (editor.sent deviceId name v).planned bench = .ok p)
    {io' : InMemoryUnidriverIo} (hset : (p.acc.set p.coerced).run io = .ok () io') :
    editor.enter fractions root bench (Json.writeInt v) io =
      (if root.Enabled .INFO then none
        else some (Tstlan.VariableValue.fromVar { p.var with value := p.coerced }), io') := by
  rw [enter_signedIn harrival hsigned hv, WriteRequest.serve_of_planned hp hset]
  by_cases hinfo : root.Enabled .INFO
  · simp only [if_pos hinfo]
  · simp only [if_neg hinfo]

theorem enter_refused (hsigned : editor.csrfToken ≠ none) (hv : v.natAbs ≤ 2 ^ 64) {e : DeviceRouteError}
    (hp : (editor.sent deviceId name v).planned bench = .error e) :
    editor.enter fractions root bench (Json.writeInt v) io = (none, io) := by
  rw [enter_signedIn harrival hsigned hv, WriteRequest.serve, DeviceRoutes.writeValue_planned, ← WriteRequest.planned, hp]

end

/-- A stream that is reached shows the values of the buffers. -/
theorem nextEvent_eq (root : LogLevel) (hdevice : Url.Portable editor.deviceId.toList) {d : Device × ℤ}
    (hd : bench.device? editor.deviceId = some d) (io : InMemoryUnidriverIo) :
    editor.nextEvent root bench io =
      some (((attachDevice d.1 d.2).readable io.memory).map Tstlan.VariableValue.fromVar) := by
  have harrives : (ApiCall.streamValues editor.deviceId : ApiCall (List Char)).arrives =
      some (.stream editor.deviceId) := (ApiCall.arrives_iff _).mpr (List.forall_mem_singleton.mpr hdevice)
  obtain ⟨io', hread, -⟩ : ∃ io', (DeviceRoutes.readValues root bench.service editor.deviceId).run io =
      .ok (((attachDevice d.1 d.2).readable io.memory).map Tstlan.VariableValue.fromVar) io' ∧
        io'.memory = io.memory := DeviceRoutes.readValues_run hd io
  rw [ValueEditor.nextEvent, harrives]
  simp only [hread]
  rfl

theorem parsed_exact (hv : Exact 53 v.natAbs) (hle : v.natAbs ≤ 2 ^ 64) :
    parsed (.int v) = some (.integer v hv) := by
  have hsize : v.natAbs.size ≤ 1024 := by
    have hlt : v.natAbs.size ≤ 65 := Nat.size_le.mpr (hle.trans_lt (by decide))
    omega
  rw [parsed_int, Number.ofInt_of_exact hv hsize]

theorem name_shown (runtime : DeviceRuntime) (m : ByteMemory ℤ) (var : NetVar) : (runtime.shown m var).name = var.name := by
  rw [DeviceRuntime.shown]
  split <;> rfl

/-- An event shows what the accessor of the name reads. -/
theorem shows_readable {d : Device × ℤ} {name : String} (hmem : acc.var ∈ d.1.vars)
    (hname : acc.var.name = name) (htarget : (attachDevice d.1 d.2).scheme.get? name = some acc)
    (hmode : acc.var.mode ≠ .W) (m : ByteMemory ℤ) (page : Monitor (Option Js.Number)) (t : ℚ) :
    (page.shows (receivedValues (((attachDevice d.1 d.2).readable m).map Tstlan.VariableValue.fromVar)) t).values.get?
      name = some (parsed (acc.shown m)) := by
  rw [Monitor.shows, receivedValues, DeviceRuntime.readable, List.map_map, List.map_map, List.map_map]
  apply Dict.get?_ofList_of_forall
  · intro e he hk
    obtain ⟨var, hvar, rfl⟩ := List.mem_map.mp he
    have hkey : var.name = name := (name_shown (attachDevice d.1 d.2) m var).symm.trans hk
    show parsed ((attachDevice d.1 d.2).shown m var).value = _
    rw [DeviceRuntime.shown, hkey, htarget]
  · have hin : acc.var ∈ d.1.vars.filter (fun var => var.mode ≠ .W) :=
      List.mem_filter.mpr ⟨hmem, decide_eq_true hmode⟩
    exact ⟨_, List.mem_map_of_mem hin, (name_shown (attachDevice d.1 d.2) m acc.var).trans hname⟩

/-- The page outlives an event exactly if no shown name is one that objects inherit. -/
theorem onSnapshot_readable (runtime : DeviceRuntime) (m : ByteMemory ℤ) :
    (∀ (page : Monitor (Option Js.Number)) (t : ℚ), ∃ page',
      page.onSnapshot (receivedValues ((runtime.readable m).map Tstlan.VariableValue.fromVar)) t = some page') ↔
    ∀ var ∈ runtime.device.vars, var.mode ≠ .W → var.name ∉ objectPrototype := by
  constructor
  · intro h var hvar hmode hname
    obtain ⟨page', hpage⟩ := h .init 0
    have hin : var ∈ runtime.device.vars.filter (fun var => var.mode ≠ .W) :=
      List.mem_filter.mpr ⟨hvar, decide_eq_true hmode⟩
    have hshown := List.mem_map_of_mem (f := fun value : Tstlan.VariableValue =>
      (⟨value.name, parsed value.value⟩ : VariableValue (Option Js.Number)))
      (List.mem_map_of_mem (f := Tstlan.VariableValue.fromVar) (List.mem_map_of_mem (f := runtime.shown m) hin))
    have hinherited : (runtime.shown m var).name ∈ objectPrototype := (name_shown runtime m var).symm ▸ hname
    cases (Monitor.onSnapshot_eq_none Monitor.plain_init hshown hinherited 0).symm.trans hpage
  · intro h page t
    refine ⟨_, Monitor.onSnapshot_of_plain page (fun value hvalue => ?_) t⟩
    obtain ⟨shown, hshown, rfl⟩ := List.mem_map.mp hvalue
    obtain ⟨_, hread, rfl⟩ := List.mem_map.mp hshown
    obtain ⟨var, hvar, rfl⟩ := List.mem_map.mp hread
    obtain ⟨hin, hmode⟩ := List.mem_filter.mp hvar
    show (runtime.shown m var).name ∉ objectPrototype
    rw [name_shown]
    exact h var hin (of_decide_eq_true hmode)

/-- The message after the write takes the place of the response wherever it is logged. -/
theorem no_response (hv : v.natAbs ≤ 2 ^ 64) (hinfo : root.Enabled .INFO) :
    (editor.enter fractions root bench (Json.writeInt v) io).1 = none := by
  by_cases hsigned : editor.csrfToken = none
  · rw [enter_signedOut hsigned hv]
  by_cases harrival : ∃ deviceId name, editor.arrival = some (.writeValue deviceId name)
  · obtain ⟨deviceId, name, harrival⟩ := harrival
    cases hp : (editor.sent deviceId name v).planned bench with
    | error e => rw [enter_refused harrival hsigned hv hp]
    | ok p =>
      obtain ⟨_, -, -, -, hmem, hpacks⟩ := DeviceService.planned_addressed (DeviceRoutes.planned_service hp)
      obtain ⟨io', hset, -, -⟩ :=
        NetVarAccessor.set_inMemory (bench.accessors_independent.wf _ hmem) hpacks io
      rw [enter_planned harrival fractions root hsigned hv hp hset, if_pos hinfo]
  · rw [enter_elsewhere (fun deviceId name he => harrival ⟨deviceId, name, he⟩) hv]

section
variable (hacc : bench.addressed editor.deviceId editor.name = some acc)
include hacc

theorem device_of_addressed : ∃ d, bench.device? editor.deviceId = some d ∧ acc.var ∈ d.1.vars ∧
    acc.var.name = editor.name := by
  obtain ⟨d, hd, hfind⟩ := Bench.device?_of_addressed hacc
  have hin : acc.var ∈ (buildScheme d.2 d.1.vars).map NetVarAccessor.var :=
    List.mem_map_of_mem (List.mem_of_find?_eq_some hfind)
  rw [buildScheme_var] at hin
  exact ⟨d, hd, hin, of_decide_eq_true (List.find?_some hfind :)⟩

variable (hrange : intRange acc.var.ctype = some (low, high)) (hlow : low ≤ v) (hhigh : v ≤ high)
include hrange hlow hhigh

theorem delivered_of_deliverable (hmode : acc.var.mode ≠ .R) (h : Deliverable editor root bench acc v) (io : InMemoryUnidriverIo) :
    Delivered fractions editor root bench acc v io := by
  have hle := natAbs_le_of_intRange hrange hlow hhigh
  have hw : acc.Wf := bench.accessors_independent.wf acc (Bench.mem_of_addressed hacc)
  have hin : acc.var.ctype.InRange (.int v) := inRange_of_intRange hrange hlow hhigh
  have hsent : Number.printed v = v := (Number.printed_of_exact h.exact).mpr h.shortest
  have hcoerce : coerceValue acc.var.ctype (.int (Number.printed v)) = .ok (.int v) := by
    rw [hsent, coerceValue_int hrange, if_pos ⟨hlow, hhigh⟩]
  have hpacks := NetVarAccessor.packs_of_inRange hw hin
  have hp : (editor.sent editor.deviceId editor.name v).planned bench = .ok ⟨acc.var, acc, .int v⟩ :=
    DeviceRoutes.planned_of_target h.writer hacc h.target hmode hcoerce hpacks
  obtain ⟨io', hset, hstored, -⟩ := NetVarAccessor.set_inMemory hw hpacks io
  have henter := enter_planned (ValueEditor.arrival_iff.mpr ⟨h.device, h.name⟩) fractions root h.signedIn hle hp hset
  have hheld : acc.Holds io'.memory (.int v) := NetVarAccessor.holds_stored hw hstored
  obtain ⟨d, hd, hvar, hname⟩ := device_of_addressed hacc
  have hvalue : acc.shown io'.memory = .int v := by
    have hread := NetVarAccessor.value_of_holds hw hin hheld
    rw [NetVarAccessor.value_eq_shown] at hread
    exact Except.ok.inj hread
  constructor
  · rw [henter]
    exact hheld
  · intro written hwritten page
    rw [henter] at hwritten
    split at hwritten
    · cases hwritten
    · cases hwritten
      refine ⟨h.exact, ?_⟩
      show (page.values.set acc.var.name (parsed (.int v))).get? editor.name = _
      rw [hname, Dict.get?_set_self, parsed_exact h.exact hle]
  · rw [henter]
    refine ⟨_, nextEvent_eq root h.device hd io', fun page t => ?_⟩
    obtain ⟨page', hpage⟩ := (onSnapshot_readable (attachDevice d.1 d.2) io'.memory).mpr (h.plain d hd) page t
    refine ⟨page', hpage, fun hreadable => ⟨h.exact, ?_⟩⟩
    have htarget := h.target
    rw [Bench.target_eq_scheme hd] at htarget
    rw [Monitor.onSnapshot_eq_some hpage, shows_readable hvar hname htarget hreadable]
    show some (parsed (acc.shown io'.memory)) = _
    rw [hvalue, parsed_exact h.exact hle]
  · rw [henter]
    by_cases hwonly : acc.var.mode = .W
    · left
      simp only [if_neg (h.answered hwonly)]
      exact Option.some_ne_none _
    · exact .inr hwonly

/-- Where a submission puts the value into a device that did not have it, the request was planned for the
addressed variable, and what was sent is what was entered. -/
theorem planned_of_stored (hfresh : ¬ acc.Holds io.memory (.int v))
    (hstored : acc.Holds (editor.enter fractions root bench (Json.writeInt v) io).2.memory (.int v)) :
    editor.csrfToken ≠ none ∧ editor.arrival = some (.writeValue editor.deviceId editor.name) ∧ Number.printed v = v ∧
      ∃ p, (editor.sent editor.deviceId editor.name v).planned bench = .ok p ∧ p.acc = acc := by
  have hle := natAbs_le_of_intRange hrange hlow hhigh
  have hw : acc.Wf := bench.accessors_independent.wf acc (Bench.mem_of_addressed hacc)
  have hsigned : editor.csrfToken ≠ none := by
    intro hnone
    rw [enter_signedOut hnone hle] at hstored
    exact hfresh hstored
  obtain ⟨deviceId, name, harrival⟩ : ∃ deviceId name, editor.arrival = some (.writeValue deviceId name) := by
    by_contra hnot
    rw [enter_elsewhere (fun deviceId name he => hnot ⟨deviceId, name, he⟩) hle] at hstored
    exact hfresh hstored
  cases hp : (editor.sent deviceId name v).planned bench with
  | error e =>
    rw [enter_refused harrival hsigned hle hp] at hstored
    exact absurd hstored hfresh
  | ok p =>
    obtain ⟨acc', hacc', -, hcoerce, hmem, hpacks⟩ :=
      DeviceService.planned_addressed (DeviceRoutes.planned_service hp)
    have hwtarget := bench.accessors_independent.wf _ hmem
    obtain ⟨io', hset, hwrite, -⟩ := NetVarAccessor.set_inMemory hwtarget hpacks io
    rw [enter_planned harrival fractions root hsigned hle hp hset] at hstored
    -- a write elsewhere leaves the variable as it was
    have htarget : p.acc = acc := by
      by_contra hne
      have hsame := WriteRequest.sameOn_others hmem hwrite (Bench.mem_of_addressed hacc) (Ne.symm hne)
      exact hfresh ((NetVarAccessor.holds_congr hw hsame).mpr hstored)
    obtain ⟨rfl, rfl⟩ := Bench.eq_of_target
      (htarget ▸ DeviceService.planned_target (DeviceRoutes.planned_service hp)) hacc
    obtain rfl : acc = acc' := Option.some.inj (hacc.symm.trans hacc')
    refine ⟨hsigned, harrival, ?_, p, hp, htarget⟩
    change coerceValue acc.var.ctype (.int (Number.printed v)) = _ at hcoerce
    rw [coerceValue_int hrange] at hcoerce
    split at hcoerce
    · next hbounds =>
      have hheld := NetVarAccessor.holds_stored hwtarget hwrite
      rw [← Except.ok.inj hcoerce, htarget] at hheld
      have hvalue := NetVarAccessor.value_of_holds hw (inRange_of_intRange hrange hlow hhigh) hstored
      rw [NetVarAccessor.value_of_holds hw (inRange_of_intRange hrange hbounds.1 hbounds.2) hheld] at hvalue
      simpa using hvalue
    · cases hcoerce

theorem deliverable_of_delivered (h : ∀ io, Delivered fractions editor root bench acc v io) :
    Deliverable editor root bench acc v := by
  have hle := natAbs_le_of_intRange hrange hlow hhigh
  have hw : acc.Wf := bench.accessors_independent.wf acc (Bench.mem_of_addressed hacc)
  obtain ⟨io, hfresh⟩ := NetVarAccessor.exists_not_holds hw hrange hlow hhigh
  obtain ⟨hstored, hresponse, ⟨values, hevent, hshows⟩, hreceived⟩ := h io
  obtain ⟨hsigned, harrival, hsent, p, hp, htarget⟩ := planned_of_stored hacc hrange hlow hhigh hfresh hstored
  obtain ⟨hdevice, hname⟩ := ValueEditor.arrival_iff.mp harrival
  have hexact : Exact 53 v.natAbs := by
    by_cases hreadable : acc.var.mode = .W
    · obtain ⟨written, hwritten⟩ := Option.ne_none_iff_exists'.mp (hreceived.resolve_right (not_not.mpr hreadable))
      exact (hresponse written hwritten .init).1
    · obtain ⟨page', -, hholds⟩ := hshows .init 0
      exact (hholds hreadable).1
  refine ⟨hexact, (Number.printed_of_exact hexact).mp hsent, hsigned, DeviceRoutes.planned_writer hp, hdevice, hname,
    fun d hd => ?_, ?_, ?_⟩
  · rw [nextEvent_eq root hdevice hd, Option.some.injEq] at hevent
    subst hevent
    exact (onSnapshot_readable (attachDevice d.1 d.2) _).mp (fun page t => (hshows page t).imp (fun _ h => h.1))
  · rw [← htarget]
    exact DeviceService.planned_target (DeviceRoutes.planned_service hp)
  · intro hwonly hinfo
    exact hreceived.elim (fun hne => hne (no_response hle hinfo)) (fun hne => hne hwonly)

end

theorem deliverable_of_lt (hv : v.natAbs < 2 ^ 53) (hsigned : editor.csrfToken ≠ none)
    (hwriter : editor.user.role ∈ [Role.DEV, Role.ADMIN]) (hdevice : Url.Portable editor.deviceId.toList)
    (hname : Url.Portable editor.name.toList)
    (hplain : ∀ d, bench.device? editor.deviceId = some d → ∀ var ∈ d.1.vars, var.mode ≠ .W → var.name ∉ objectPrototype)
    (htarget : bench.target editor.deviceId editor.name = some acc)
    (hanswered : acc.var.mode = .W → ¬ root.Enabled .INFO) : Deliverable editor root bench acc v :=
  ⟨exact_of_lt hv, isShortest_of_lt (by omega) hv, hsigned, hwriter, hdevice, hname, hplain, htarget, hanswered⟩

/-! ## A counter of 64 bits -/

/-- No fraction is ever sent here. -/
def noFractions : Fractions := ⟨fun _ => none, fun _ => none⟩

def counterBench : Bench :=
  Bench.enumerate [⟨"plc", "PLC", "Эмулятор", true, .OK, [⟨"counter", .U64, .RW, .int 0⟩]⟩]

def counterAccessor : NetVarAccessor := ⟨1, ⟨"counter", .U64, .RW, .int 0⟩, ⟨0, none⟩⟩

def counterEditor : ValueEditor := ⟨some "token", ⟨1, "dev", "", .DEV, true⟩, "plc", "counter"⟩

end Web
end Tstlan
