import Tstlan.Foundations.Window
import Tstlan.Devices.History
import Tstlan.Devices.Net.Sockets

/-! # The history sampler (`record_snapshot` and `run_sampler` of `tstlan/devices/history.py`)

A snapshot reads every device and appends one sample for each that could be read. It passes over a device
whose read raises an `OSError` only. `sampler_goes_on_iff` says what that needs of the connections: no reply
line may arrive in part. -/
namespace Tstlan
open Foundations
set_option autoImplicit false

/-- `MAX_POINTS`. -/
def maxPoints : ℕ := 900

/-- `points.append(sample)` on the bounded queue of the device. -/
def appendSample (history : History) (deviceId : String) (sample : Sample) : History :=
  history.set deviceId (Window.push maxPoints (deviceHistory history deviceId) sample)

/-- What the sampler works on: the devices, the histories and its clock. -/
structure Sampler (σ : Type) where
  io : σ
  history : History
  clock : ℕ → ℚ
  /-- The readings of the clock so far. -/
  readings : ℕ

def sampleValues (vars : List NetVar) : Dict String Number := Dict.ofList (vars.map (fun var => (var.name, var.value)))

section
variable {σ : Type} [UnidriverIo σ] (root : LogLevel) (service : DeviceService)

/-- The body of the loop of `record_snapshot`. -/
def recordDevice (device : Device) : EStateM DeviceError (Sampler σ) Unit := fun s =>
  match (service.readValues root device.id).run s.io with
  | .ok vars io =>
    .ok () { s with
      io := io
      history := appendSample s.history device.id ⟨s.clock s.readings, sampleValues vars⟩
      readings := s.readings + 1 }
  | .error e io => if e = .python .osError then .ok () { s with io := io } else .error e { s with io := io }

def recordDevices : List Device → EStateM DeviceError (Sampler σ) Unit
  | [] => return ()
  | device :: devices => do
    recordDevice root service device
    recordDevices devices

def recordSnapshot : EStateM DeviceError (Sampler σ) Unit := fun s =>
  match (service.listDevices root).run s.io with
  | .ok devices io => (recordDevices root service devices).run { s with io := io }
  | .error e io => .error e { s with io := io }

/-- One iteration for each pause until `stop` is set; a pause is what happens to the devices meanwhile. -/
def runSampler : List (σ → σ) → EStateM DeviceError (Sampler σ) Unit
  | [] => return ()
  | pause :: pauses => do
    recordSnapshot root service
    modify (fun s => { s with io := pause s.io })
    runSampler pauses

/-- The device has one sample more if its values could be read, and otherwise the history it had. -/
def RecordedAt (s t : Sampler σ) (deviceId : String) : Prop :=
  match outcome ((service.readValues root deviceId).run s.io) with
  | .ok vars => ∃ n, deviceHistory t.history deviceId =
      Window.push maxPoints (deviceHistory s.history deviceId) ⟨s.clock n, sampleValues vars⟩
  | .error _ => deviceHistory t.history deviceId = deviceHistory s.history deviceId

/-- `record_snapshot` returns from `s`, and has recorded every device. -/
def Records (s : Sampler σ) : Prop :=
  ∃ t, (recordSnapshot root service).run s = .ok () t ∧ ∀ deviceId, RecordedAt root service s t deviceId

/-- The sampler runs until `stop` is set, and every snapshot on the way is recorded. -/
def GoesOn (pauses : List (σ → σ)) (start : Sampler σ) : Prop :=
  (∃ t, (runSampler root service pauses).run start = .ok () t) ∧
    ∀ before pause after, pauses = before ++ pause :: after →
      ∃ s, (runSampler root service before).run start = .ok () s ∧ Records root service s

end

/-! ## The histories -/

theorem deviceHistory_appendSample (history : History) (deviceId other : String) (sample : Sample) :
    deviceHistory (appendSample history deviceId sample) other =
      if other = deviceId then Window.push maxPoints (deviceHistory history deviceId) sample
      else deviceHistory history other := by
  rw [deviceHistory, appendSample, Dict.get?_set]
  by_cases h : other = deviceId
  · rw [if_pos h, if_pos h, Option.getD_some]
  · rw [if_neg h, if_neg h, deviceHistory]

/-! ## One device -/

section
variable {σ : Type} [UnidriverIo σ] {root : LogLevel} {service : DeviceService} {device : Device} {s : Sampler σ}

/-- The device can be read, or is passed over. -/
def Passable (root : LogLevel) (service : DeviceService) (io : σ) (deviceId : String) : Prop :=
  (∃ vars, outcome ((service.readValues root deviceId).run io) = .ok vars) ∨
    outcome ((service.readValues root deviceId).run io) = .error (.python .osError)

theorem run_recordDevice (device : Device) (s : Sampler σ) :
    (recordDevice root service device).run s = match (service.readValues root device.id).run s.io with
      | .ok vars io =>
        .ok () { s with
          io := io
          history := appendSample s.history device.id ⟨s.clock s.readings, sampleValues vars⟩
          readings := s.readings + 1 }
      | .error e io => if e = .python .osError then .ok () { s with io := io } else .error e { s with io := io } := rfl

theorem recordDevice_ok (h : Passable root service s.io device.id) :
    ∃ t, (recordDevice root service device).run s = .ok () t ∧ t.clock = s.clock ∧
      t.io = final ((service.readValues root device.id).run s.io) ∧ RecordedAt root service s t device.id ∧
      ∀ other ≠ device.id, deviceHistory t.history other = deviceHistory s.history other := by
  unfold RecordedAt
  unfold Passable at h
  rw [run_recordDevice]
  cases hread : (service.readValues root device.id).run s.io with
  | ok vars io =>
    refine ⟨_, rfl, rfl, rfl, ⟨s.readings, ?_⟩, fun other hne => ?_⟩
    · exact (deviceHistory_appendSample _ _ _ _).trans (if_pos rfl)
    · exact (deviceHistory_appendSample _ _ _ _).trans (if_neg hne)
  | error e io =>
    rw [hread] at h
    rcases h with ⟨vars, h⟩ | h
    · cases h
    · cases h
      exact ⟨_, rfl, rfl, rfl, rfl, fun _ _ => rfl⟩

theorem recordDevice_error {e : DeviceError} (he : e ≠ .python .osError)
    (h : outcome ((service.readValues root device.id).run s.io) = .error e) :
    ∃ t, (recordDevice root service device).run s = .error e t := by
  rw [run_recordDevice]
  cases hread : (service.readValues root device.id).run s.io with
  | ok vars io => rw [hread] at h; cases h
  | error e' io =>
    rw [hread] at h
    cases h
    exact ⟨_, if_neg he⟩

end

/-! ## All devices -/

section
variable {root : LogLevel} {bench : Bench}

/-- The client of the device meets a reply line that arrives in part. -/
def CutOff (bench : Bench) (sockets : Sockets) (deviceId : String) : Prop :=
  ∃ device handle, bench.device? deviceId = some (device, handle) ∧
    (sockets handle).readFate ((readableAccessors device).map NetVarAccessor.request) = .damaged

theorem readValues_of_cutOff {sockets : Sockets} {deviceId : String} (h : CutOff bench sockets deviceId) :
    outcome ((bench.service.readValues root deviceId).run sockets) = .error (.python .valueError) := by
  obtain ⟨device, handle, hd, hfate⟩ := h
  have hends := readValues_ends root hd sockets
  rwa [hfate] at hends

theorem passable_of_not_cutOff {sockets : Sockets} {deviceId : String} {device : Device} {handle : ℤ}
    (hd : bench.device? deviceId = some (device, handle)) (h : ¬ CutOff bench sockets deviceId) :
    Passable root bench.service sockets deviceId := by
  have hends := readValues_ends root hd sockets
  cases hfate : (sockets handle).readFate ((readableAccessors device).map NetVarAccessor.request) with
  | read => rw [hfate] at hends; exact .inl hends
  | unreachable => rw [hfate] at hends; exact .inr hends
  | damaged => exact absurd ⟨device, handle, hd, hfate⟩ h

/-- Two devices of the service have two clients. -/
theorem handle_ne_of_id_ne {id id' : String} {d e : Device × ℤ} (hd : bench.device? id = some d)
    (he : bench.device? id' = some e) (hne : id ≠ id') : d.2 ≠ e.2 := by
  intro h
  have hid : d.1.id = id := Bench.id_of_device? hd
  have hid' : e.1.id = id' := Bench.id_of_device? he
  have heq : d = e :=
    List.inj_on_of_nodup_map bench.handles (Bench.mem_of_device? hd) (Bench.mem_of_device? he) h
  exact hne (by rw [← hid, ← hid', heq])

theorem final_readValues {deviceId other : String} {d e : Device × ℤ} (hd : bench.device? deviceId = some d)
    (he : bench.device? other = some e) (hne : other ≠ deviceId) (sockets : Sockets) :
    final ((bench.service.readValues root deviceId).run sockets) e.2 = sockets e.2 := by
  rw [readValues_member root hd]
  exact final_onMember_of_ne (handle_ne_of_id_ne he hd hne) _ _

theorem outcome_readValues_congr {deviceId : String} {d : Device × ℤ} (hd : bench.device? deviceId = some d)
    {sockets sockets' : Sockets} (h : sockets d.2 = sockets' d.2) :
    outcome ((bench.service.readValues root deviceId).run sockets) =
      outcome ((bench.service.readValues root deviceId).run sockets') := by
  rw [readValues_member root hd, outcome_onMember, outcome_onMember, h]

theorem cutOff_congr {deviceId : String} {d : Device × ℤ} (hd : bench.device? deviceId = some d)
    {sockets sockets' : Sockets} (h : sockets d.2 = sockets' d.2) :
    CutOff bench sockets deviceId ↔ CutOff bench sockets' deviceId := by
  have hone (sockets : Sockets) : CutOff bench sockets deviceId ↔
      (sockets d.2).readFate ((readableAccessors d.1).map NetVarAccessor.request) = .damaged := by
    constructor
    · rintro ⟨device, handle, hd', hfate⟩
      rw [hd] at hd'
      cases hd'
      exact hfate
    · exact fun hfate => ⟨d.1, d.2, hd, hfate⟩
  rw [hone, hone, h]

/-- The device is the one the service has under its id. -/
def Listed (bench : Bench) (device : Device) : Prop := ∃ handle, bench.device? device.id = some (device, handle)

section
variable {devices : List Device} {s : Sampler Sockets}

/-- After a read of one device the others are as they were to the sampler. -/
theorem frame_recordDevice {device other : Device} (hd : Listed bench device) (ho : Listed bench other)
    (hne : other.id ≠ device.id) {t : Sampler Sockets}
    (hio : t.io = final ((bench.service.readValues root device.id).run s.io)) :
    outcome ((bench.service.readValues root other.id).run t.io) =
        outcome ((bench.service.readValues root other.id).run s.io) ∧
      (CutOff bench t.io other.id ↔ CutOff bench s.io other.id) := by
  obtain ⟨handle, hd⟩ := hd
  obtain ⟨handle', ho⟩ := ho
  have hsame : t.io handle' = s.io handle' := by
    rw [hio]
    exact final_readValues hd ho hne s.io
  exact ⟨outcome_readValues_congr ho hsame, cutOff_congr ho hsame⟩

/-- The recording of a device reads no more of the states before and after than this. -/
theorem RecordedAt.trans {s s' t t' : Sampler Sockets} {deviceId : String}
    (h : RecordedAt root bench.service s t deviceId) (hclock : s.clock = s'.clock)
    (hread : outcome ((bench.service.readValues root deviceId).run s.io) =
      outcome ((bench.service.readValues root deviceId).run s'.io))
    (hbefore : deviceHistory s.history deviceId = deviceHistory s'.history deviceId)
    (hafter : deviceHistory t.history deviceId = deviceHistory t'.history deviceId) :
    RecordedAt root bench.service s' t' deviceId := by
  unfold RecordedAt at h ⊢
  rwa [hread, hclock, hbefore, hafter] at h

/-- If no reply line arrives in part, every device is recorded, and no other history changes. -/
theorem recordDevices_ok (hlisted : ∀ device ∈ devices, Listed bench device)
    (hdistinct : (devices.map Device.id).Nodup) (hwhole : ∀ device ∈ devices, ¬ CutOff bench s.io device.id) :
    ∃ t, (recordDevices root bench.service devices).run s = .ok () t ∧
      (∀ device ∈ devices, RecordedAt root bench.service s t device.id) ∧
      ∀ deviceId ∉ devices.map Device.id, deviceHistory t.history deviceId = deviceHistory s.history deviceId := by
  induction devices generalizing s with
  | nil => exact ⟨s, rfl, fun _ h => absurd h List.not_mem_nil, fun _ _ => rfl⟩
  | cons device devices ih =>
    obtain ⟨hd, hlisted⟩ := List.forall_mem_cons.mp hlisted
    obtain ⟨hnew, hdistinct⟩ := List.nodup_cons.mp hdistinct
    obtain ⟨hfirst, hwhole⟩ := List.forall_mem_cons.mp hwhole
    have hne (other : Device) (ho : other ∈ devices) : other.id ≠ device.id :=
      fun h => hnew (h ▸ List.mem_map_of_mem ho)
    obtain ⟨handle, hdevice⟩ := hd
    obtain ⟨s1, hrun1, hclock, hio, hrec1, hkept1⟩ := recordDevice_ok (passable_of_not_cutOff hdevice hfirst)
    have hframe (other : Device) (ho : other ∈ devices) :=
      frame_recordDevice ⟨handle, hdevice⟩ (hlisted other ho) (hne other ho) hio
    obtain ⟨t, hrun, hrec, hkept⟩ :=
      ih hlisted hdistinct (fun other ho hcut => hwhole other ho ((hframe other ho).2.mp hcut))
    refine ⟨t, ?_, List.forall_mem_cons.mpr ⟨?_, fun other ho => ?_⟩, fun deviceId hnot => ?_⟩
    · rw [recordDevices, run_bind_ok hrun1, hrun]
    · exact hrec1.trans rfl rfl rfl (hkept _ hnew).symm
    · exact (hrec other ho).trans hclock (hframe other ho).1 (hkept1 _ (hne other ho)) rfl
    · rw [List.map_cons, List.mem_cons, not_or] at hnot
      exact (hkept _ hnot.2).trans (hkept1 _ hnot.1)

/-- A reply line that arrives in part ends the loop with an exception. -/
theorem recordDevices_error (hlisted : ∀ device ∈ devices, Listed bench device)
    (hdistinct : (devices.map Device.id).Nodup) (hcut : ∃ device ∈ devices, CutOff bench s.io device.id) :
    ∃ t, (recordDevices root bench.service devices).run s = .error (.python .valueError) t := by
  induction devices generalizing s with
  | nil =>
    obtain ⟨device, hin, -⟩ := hcut
    cases hin
  | cons device devices ih =>
    obtain ⟨hd, hlisted⟩ := List.forall_mem_cons.mp hlisted
    obtain ⟨hnew, hdistinct⟩ := List.nodup_cons.mp hdistinct
    obtain ⟨handle, hdevice⟩ := hd
    by_cases hfirst : CutOff bench s.io device.id
    · have hread : outcome ((bench.service.readValues root device.id).run s.io) = .error (.python .valueError) :=
        readValues_of_cutOff hfirst
      obtain ⟨t, ht⟩ := recordDevice_error (by decide) hread
      exact ⟨t, run_bind_error ht⟩
    · obtain ⟨other, ho, hother⟩ := hcut
      rcases List.mem_cons.mp ho with rfl | ho
      · exact absurd hother hfirst
      obtain ⟨s1, hrun1, -, hio, -⟩ := recordDevice_ok (passable_of_not_cutOff hdevice hfirst)
      have hne : other.id ≠ device.id := fun h => hnew (h ▸ List.mem_map_of_mem ho)
      have hframe := frame_recordDevice ⟨handle, hdevice⟩ (hlisted other ho) hne hio
      obtain ⟨t, ht⟩ := ih hlisted hdistinct ⟨other, ho, hframe.2.mpr hother⟩
      exact ⟨t, (run_bind_ok hrun1).trans ht⟩

end

/-! ## One snapshot -/

theorem listDevices_run {σ : Type} (root : LogLevel) (service : DeviceService) (s : σ) :
    (service.listDevices root).run s = .ok (service.devices.values.map DeviceRuntime.device) s := by
  unfold DeviceService.listDevices
  simp (disch := decide) only [logEvent_bind]
  rfl

theorem mem_listDevices (device : Device) :
    device ∈ bench.service.devices.values.map DeviceRuntime.device ↔ Listed bench device := by
  rw [List.mem_map]
  constructor
  · rintro ⟨runtime, hin, rfl⟩
    obtain ⟨deviceId, hget⟩ := Dict.mem_values.mp hin
    rw [Bench.service_get?] at hget
    obtain ⟨d, hd, rfl⟩ := Option.map_eq_some_iff.mp hget
    have hid : d.1.id = deviceId := Bench.id_of_device? hd
    exact ⟨d.2, by rw [attachDevice, hid]; exact hd⟩
  · rintro ⟨handle, hd⟩
    refine ⟨attachDevice device handle, Dict.mem_values.mpr ⟨device.id, ?_⟩, rfl⟩
    rw [Bench.service_get?, hd]
    rfl

theorem nodup_listDevices :
    ((bench.service.devices.values.map DeviceRuntime.device).map Device.id).Nodup := by
  have hkeys : (bench.service.devices.values.map DeviceRuntime.device).map Device.id = bench.service.devices.keys := by
    rw [Dict.values, Dict.keys, List.map_map, List.map_map]
    refine List.map_congr_left (fun entry hentry => ?_)
    have hget := Dict.mem_entries.mp hentry
    rw [Bench.service_get?] at hget
    obtain ⟨d, hd, heq⟩ := Option.map_eq_some_iff.mp hget
    rw [Function.comp_apply, Function.comp_apply, ← heq]
    exact Bench.id_of_device? hd
  rw [hkeys]
  exact bench.service.devices.nodup

theorem run_recordSnapshot {σ : Type} [UnidriverIo σ] (root : LogLevel) (service : DeviceService) (s : Sampler σ) :
    (recordSnapshot root service).run s =
      (recordDevices root service (service.devices.values.map DeviceRuntime.device)).run s := by
  have hlist := listDevices_run root service s.io
  rw [EStateM.run] at hlist ⊢
  unfold recordSnapshot
  rw [EStateM.run, hlist]

/-- No reply line arrives in part. -/
def Whole (bench : Bench) (sockets : Sockets) : Prop := ∀ deviceId, ¬ CutOff bench sockets deviceId

theorem readValues_of_unknown {σ : Type} [UnidriverIo σ] (root : LogLevel) {service : DeviceService} {deviceId : String}
    (h : service.devices.get? deviceId = none) (io : σ) :
    outcome ((service.readValues root deviceId).run io) = .error (.deviceNotFound deviceId) := by
  unfold DeviceService.readValues DeviceService.runtimeOf
  simp (disch := decide) only [h, logEvent_bind]
  rfl

/-- A snapshot is recorded if and only if every reply line that arrives is whole. -/
theorem records_iff (root : LogLevel) (bench : Bench) (s : Sampler Sockets) :
    Records root bench.service s ↔ Whole bench s.io := by
  have hlisted : ∀ device ∈ bench.service.devices.values.map DeviceRuntime.device, Listed bench device :=
    fun device hin => (mem_listDevices device).mp hin
  have hdistinct : ((bench.service.devices.values.map DeviceRuntime.device).map Device.id).Nodup := nodup_listDevices
  unfold Records
  rw [run_recordSnapshot]
  constructor
  · rintro ⟨t, hrun, -⟩ deviceId ⟨device, handle, hd, hfate⟩
    have hcut : ∃ device ∈ bench.service.devices.values.map DeviceRuntime.device, CutOff bench s.io device.id := by
      rw [← Bench.id_of_device? hd] at hd
      exact ⟨device, (mem_listDevices device).mpr ⟨handle, hd⟩, device, handle, hd, hfate⟩
    obtain ⟨u, hu⟩ : ∃ u, (recordDevices root bench.service
        (bench.service.devices.values.map DeviceRuntime.device)).run s = .error (.python .valueError) u :=
      recordDevices_error hlisted hdistinct hcut
    rw [hu] at hrun
    cases hrun
  · intro hwhole
    obtain ⟨t, hrun, hrec, hkept⟩ : ∃ t, (recordDevices root bench.service
        (bench.service.devices.values.map DeviceRuntime.device)).run s = .ok () t ∧ _ ∧ _ :=
      recordDevices_ok hlisted hdistinct (fun device _ => hwhole device.id)
    refine ⟨t, hrun, fun deviceId => ?_⟩
    by_cases hin : deviceId ∈ (bench.service.devices.values.map DeviceRuntime.device).map Device.id
    · obtain ⟨device, hdevice, rfl⟩ := List.mem_map.mp hin
      exact hrec device hdevice
    · have hnone : bench.service.devices.get? deviceId = none := by
        rw [Bench.service_get?, Option.map_eq_none_iff, Option.eq_none_iff_forall_ne_some]
        intro d hd
        have hid : d.1.id = deviceId := Bench.id_of_device? hd
        exact hin (List.mem_map.mpr ⟨d.1, (mem_listDevices d.1).mpr ⟨d.2, by rw [hid]; exact hd⟩, hid⟩)
      unfold RecordedAt
      rw [readValues_of_unknown root hnone]
      exact hkept deviceId hin

/-! ## The run -/

theorem runSampler_append {σ : Type} [UnidriverIo σ] (root : LogLevel) (service : DeviceService)
    (before after : List (σ → σ)) :
    runSampler root service (before ++ after) =
      (do runSampler root service before; runSampler root service after) := by
  induction before with
  | nil => exact (pure_bind _ _).symm
  | cons pause before ih =>
    rw [List.cons_append, runSampler, runSampler, ih, bind_assoc]
    congr 1

/-- A run that meets whole lines only reaches its end, whatever the length. -/
theorem runSampler_ok {root : LogLevel} {bench : Bench} {pauses : List (Sockets → Sockets)} {start : Sampler Sockets}
    (h : ∀ before pause after, pauses = before ++ pause :: after →
      ∀ s, (runSampler root bench.service before).run start = .ok () s → Whole bench s.io) :
    ∃ t, (runSampler root bench.service pauses).run start = .ok () t := by
  induction pauses using List.reverseRecOn with
  | nil => exact ⟨start, rfl⟩
  | append_singleton before pause ih =>
    obtain ⟨s, hs⟩ := ih (fun b p a heq => h b p (a ++ [pause]) (by rw [heq, List.append_assoc, List.cons_append]))
    obtain ⟨t, ht, -⟩ := (records_iff root bench s).mpr (h before pause [] rfl s hs)
    refine ⟨{ t with io := pause t.io }, ?_⟩
    rw [runSampler_append, run_bind_ok hs, runSampler, run_bind_ok ht]
    rfl

/-- **The sampler goes on, and every snapshot appends one sample to each device that was read and leaves the
other histories, if and only if no device's client meets a reply line that arrives in part.** -/
theorem sampler_goes_on_iff (root : LogLevel) (bench : Bench) (pauses : List (Sockets → Sockets))
    (start : Sampler Sockets) :
    GoesOn root bench.service pauses start ↔
      ∀ before pause after, pauses = before ++ pause :: after →
        ∀ s, (runSampler root bench.service before).run start = .ok () s → Whole bench s.io := by
  constructor
  · rintro ⟨-, hsnapshots⟩ before pause after hsplit s hs
    obtain ⟨s', hs', hrecords⟩ := hsnapshots before pause after hsplit
    rw [hs] at hs'
    cases hs'
    exact (records_iff root bench s).mp hrecords
  · intro h
    refine ⟨runSampler_ok h, fun before pause after hsplit => ?_⟩
    have hprefix : ∀ b p a, before = b ++ p :: a → ∀ s, (runSampler root bench.service b).run start = .ok () s →
        Whole bench s.io := by
      intro b p a heq
      exact h b p (a ++ pause :: after) (by rw [hsplit, heq, List.append_assoc, List.cons_append])
    obtain ⟨s, hs⟩ := runSampler_ok hprefix
    exact ⟨s, hs, (records_iff root bench s).mpr (h before pause after hsplit s hs)⟩

end

/-! ## A reply cut off -/

def cutBench : Bench := ⟨[(sensorDevice, 1), ({ sensorDevice with id := "spare" }, 2)], by decide⟩

/-- Of the replies of the first device only the first five characters arrive; the second device answers. -/
def cutStart : Sampler Sockets where
  io := fun handle => ⟨false, fun _ => ⟨true, if handle = 1 then .cut 5 else .answered, ⟨.empty⟩⟩, 0⟩
  history := .empty
  clock := fun n => n
  readings := 0

/-- The first snapshot raises, and the second device is never read. -/
theorem cut_reply_ends_sampler : ¬ ∀ (root : LogLevel) (bench : Bench) (pauses : List (Sockets → Sockets))
    (start : Sampler Sockets), GoesOn root bench.service pauses start := by
  intro h
  obtain ⟨⟨t, ht⟩, -⟩ := h .INFO cutBench [id] cutStart
  have hraised : outcome ((runSampler .INFO cutBench.service [id]).run cutStart) = .error (.python .valueError) := by
    decide +kernel
  rw [ht] at hraised
  cases hraised

end Tstlan
