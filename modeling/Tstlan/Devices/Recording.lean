import Tstlan.Devices.Echo
import Tstlan.Devices.Sampler
import Tstlan.Foundations.Loops

/-! # What the histories hold (`tstlan/devices/history.py`)

Every read of a device may raise an `OSError`. The log of a run keeps what each snapshot read of each device, in
the order of the reads, also where one of them raised; the bounded queues hold the samples of the last whole
visits to their devices (`histories_exact`). -/
namespace Tstlan
open Foundations
set_option autoImplicit false

/-! ## Visits -/

/-- A device side whose reads return what was asked for or raise an `OSError`. -/
class FlakyIo (σ : Type) [UnidriverIo σ] : Prop where
  readBytes_ends (s : σ) (handle : ℤ) (index size : ℕ) :
    (∃ raw s', (UnidriverIo.readBytes handle index size).run s = .ok raw s' ∧ raw.length = size) ∨
      ∃ s', (UnidriverIo.readBytes handle index size).run s = .error .osError s'
  readBit_ends (s : σ) (handle : ℤ) (byteIndex bitIndex : ℕ) (hk : bitIndex < 8) :
    (∃ b s', (UnidriverIo.readBit handle byteIndex bitIndex).run s = .ok b s') ∨
      ∃ s', (UnidriverIo.readBit handle byteIndex bitIndex).run s = .error .osError s'

def Device.readable (device : Device) : List NetVar := device.vars.filter (fun var => var.mode ≠ .W)

/-- What one snapshot read of one device, up to the first read that raised. -/
structure Visit where
  device : Device
  reads : List (Except PyError Number)
  /-- What the clock shows after the reads. -/
  time : ℚ

/-- The sample of an visit in which no read raised. -/
def Visit.sample? (a : Visit) : Option Sample :=
  (a.reads.mapM Except.toOption).map
    (fun values => ⟨a.time, Dict.ofList ((a.device.readable.map NetVar.name).zip values)⟩)

/-- The samples of one device in a log. -/
def pointsOf (log : List Visit) (deviceId : String) : List Sample :=
  (log.filter (fun a => a.device.id = deviceId)).filterMap Visit.sample?

section
variable {σ : Type} [UnidriverIo σ]

def readVariable (runtime : DeviceRuntime) (var : NetVar) : EStateM PyError σ Number :=
  match runtime.scheme.get? var.name with
  | none => throw .keyError
  | some acc => acc.get

def readsOf (runtime : DeviceRuntime) : List NetVar → σ → List (Except PyError Number)
  | [], _ => []
  | var :: vars, s =>
    match (readVariable runtime var).run s with
    | .ok value s' => .ok value :: readsOf runtime vars s'
    | .error e _ => [.error e]

def visit (runtime : DeviceRuntime) (s : Sampler σ) : Visit :=
  ⟨runtime.device, readsOf runtime runtime.device.readable s.io, s.clock s.readings⟩

variable (root : LogLevel) (service : DeviceService)

/-- The visits of one snapshot. -/
def snapshotVisits : List DeviceRuntime → Sampler σ → List Visit
  | [], _ => []
  | runtime :: runtimes, s =>
    visit runtime s :: snapshotVisits runtimes (final ((recordDevice root service runtime.device).run s))

/-- The visits of a run, in their order. -/
def runVisits : List (σ → σ) → Sampler σ → List Visit
  | [], _ => []
  | pause :: pauses, s =>
    let t := final ((recordSnapshot root service).run s)
    snapshotVisits root service service.devices.values s ++ runVisits pauses { t with io := pause t.io }

end

/-- Every readable variable was read, or some read raised an `OSError`. -/
def Visit.Ends (a : Visit) : Prop :=
  (∃ values : List Number, a.reads = values.map .ok ∧ values.length = a.device.readable.length) ∨
    ∃ values : List Number, a.reads = values.map .ok ++ [.error .osError]

theorem mapM_toOption_ok (values : List Number) :
    (values.map (Except.ok (ε := PyError))).mapM Except.toOption = some values := by
  rw [List.mapM_map]
  refine (mapM_of_forall (g := id) (fun _ _ => rfl)).trans ?_
  rw [List.map_id]
  rfl

theorem mapM_toOption_error (values : List Number) (e : PyError) :
    (values.map Except.ok ++ [Except.error e]).mapM Except.toOption = none :=
  mapM_eq_none (List.mem_append_right _ List.mem_cons_self) rfl

theorem Visit.sample?_whole {v : Visit} {values : List Number} (h : v.reads = values.map .ok) :
    v.sample? = some ⟨v.time, Dict.ofList ((v.device.readable.map NetVar.name).zip values)⟩ := by
  rw [sample?, h, mapM_toOption_ok, Option.map_some]

theorem Visit.sample?_failed {v : Visit} {values : List Number} {e : PyError}
    (h : v.reads = values.map .ok ++ [.error e]) : v.sample? = none := by
  rw [sample?, h, mapM_toOption_error, Option.map_none]

theorem pointsOf_append (log log' : List Visit) (deviceId : String) :
    pointsOf (log ++ log') deviceId = pointsOf log deviceId ++ pointsOf log' deviceId := by
  rw [pointsOf, List.filter_append, List.filterMap_append, pointsOf, pointsOf]

theorem pointsOf_singleton (v : Visit) (deviceId : String) :
    pointsOf [v] deviceId = if v.device.id = deviceId then v.sample?.toList else [] := by
  by_cases hid : v.device.id = deviceId
  · rw [pointsOf, List.filter_cons_of_pos (by simpa using hid), List.filter_nil, if_pos hid]
    cases hv : v.sample? <;> simp [hv]
  · rw [pointsOf, List.filter_cons_of_neg (by simpa using hid), List.filter_nil, if_neg hid, List.filterMap_nil]

/-! ## One device -/

section
variable {σ : Type} [UnidriverIo σ]

theorem snapshot_eq (runtime : DeviceRuntime) (var : NetVar) :
    (DeviceService.snapshot runtime var : EStateM DeviceError σ NetVar) =
      (do let value ← EStateM.adaptExcept .python (readVariable runtime var); return { var with value := value }) := by
  unfold DeviceService.snapshot readVariable
  cases runtime.scheme.get? var.name with
  | none => rfl
  | some acc => rfl

variable [FlakyIo σ] {d : Device × ℤ}

theorem NetVarAccessor.get_flaky {acc : NetVarAccessor} (hw : acc.Wf) (s : σ) :
    (∃ value s', acc.get.run s = .ok value s') ∨ ∃ s', acc.get.run s = .error .osError s' := by
  rcases bit_or_format acc with hbit | ⟨f, hf⟩
  · obtain ⟨k, hlt, hk, -⟩ := place_of_bit hw hbit
    unfold NetVarAccessor.get
    simp only [if_pos hbit, hk]
    rcases FlakyIo.readBit_ends s acc.handle acc.offset.byte k hlt with ⟨b, s', hrun⟩ | ⟨s', hrun⟩
    · exact .inl ⟨_, s', run_bind_ok hrun⟩
    · exact .inr ⟨s', run_bind_error hrun⟩
  · unfold NetVarAccessor.get
    simp only [if_neg (ctype_ne_bit hf)]
    rcases FlakyIo.readBytes_ends s acc.handle acc.offset.byte acc.var.ctype.byteSize with
      ⟨raw, s', hrun, hlen⟩ | ⟨s', hrun⟩
    · obtain ⟨value, hvalue⟩ := Format.unpack_ok (hlen.trans (structFormat_size hf).symm)
      refine .inl ⟨value, s', ?_⟩
      rw [run_bind_ok hrun, hf]
      simp only [hvalue, run_fromExcept_ok]
    · exact .inr ⟨s', run_bind_error hrun⟩

theorem readVariable_flaky {var : NetVar} (hvar : var ∈ d.1.vars) (s : σ) :
    (∃ value s', (readVariable (attachDevice d.1 d.2) var).run s = .ok value s') ∨
      ∃ s', (readVariable (attachDevice d.1 d.2) var).run s = .error .osError s' := by
  obtain ⟨acc, hacc⟩ := scheme_get?_of_mem d.2 hvar
  unfold readVariable
  simp only [hacc]
  exact NetVarAccessor.get_flaky ((buildScheme_independent d.2 d.1.vars).wf acc (Bench.mem_of_scheme_get? hacc)) s

/-- The read of the variables ends as the reads of the visit. -/
theorem snapshots_flaky {vars : List NetVar} (hvars : ∀ var ∈ vars, var ∈ d.1.vars) (s : σ) :
    (∃ (values : List Number) (s' : σ), readsOf (attachDevice d.1 d.2) vars s = values.map .ok ∧ values.length = vars.length ∧
        (DeviceService.snapshots (attachDevice d.1 d.2) vars).run s =
          .ok (List.zipWith (fun var value => { var with value := value }) vars values) s') ∨
      ∃ (values : List Number) (s' : σ), readsOf (attachDevice d.1 d.2) vars s = values.map .ok ++ [.error .osError] ∧
        (DeviceService.snapshots (attachDevice d.1 d.2) vars).run s = .error (.python .osError) s' := by
  induction vars generalizing s with
  | nil => exact .inl ⟨[], s, rfl, rfl, rfl⟩
  | cons var vars ih =>
    obtain ⟨hvar, hrest⟩ := List.forall_mem_cons.mp hvars
    rw [readsOf, DeviceService.snapshots, snapshot_eq]
    have hadapt := EStateM.run_adaptExcept DeviceError.python (readVariable (attachDevice d.1 d.2) var) s
    rcases readVariable_flaky hvar s with ⟨value, s1, hrun⟩ | ⟨s1, hrun⟩
    · rw [hrun] at hadapt
      simp only [hrun]
      rw [bind_assoc, run_bind_ok hadapt, pure_bind]
      rcases ih hrest s1 with ⟨values, s2, hreads, hlen, hrun2⟩ | ⟨values, s2, hreads, hrun2⟩
      · refine .inl ⟨value :: values, s2, by rw [hreads, List.map_cons], by simp [hlen], ?_⟩
        rw [run_bind_ok hrun2]
        rfl
      · exact .inr ⟨value :: values, s2, by rw [hreads, List.map_cons, List.cons_append], run_bind_error hrun2⟩
    · rw [hrun] at hadapt
      simp only [hrun]
      exact .inr ⟨[], s1, rfl, run_bind_error (run_bind_error hadapt)⟩

end

theorem sampleValues_zipWith (vars : List NetVar) (values : List Number) :
    sampleValues (List.zipWith (fun var value => { var with value := value }) vars values) =
      Dict.ofList ((vars.map NetVar.name).zip values) := by
  rw [sampleValues, List.map_zipWith, List.zip_map_left, List.zip, List.map_zipWith]
  rfl

/-! ## The log of a run -/

section
variable {σ : Type} {bench : Bench}

/-- The samplers before and after a part of a run with this log. -/
structure Recorded (bench : Bench) (s t : Sampler σ) (log : List Visit) : Prop where
  clock : t.clock = s.clock
  readings : s.readings ≤ t.readings
  histories : ∀ deviceId, deviceHistory t.history deviceId =
    (pointsOf log deviceId).foldl (Window.push maxPoints) (deviceHistory s.history deviceId)
  visited : ∀ v ∈ log, Listed bench v.device ∧ v.Ends
  times : ∀ v ∈ log, ∃ n, s.readings ≤ n ∧ n ≤ t.readings ∧ v.time = s.clock n
  ordered : Monotone s.clock → log.Pairwise (fun v w => v.time ≤ w.time)

namespace Recorded

theorem refl (s : Sampler σ) : Recorded bench s s [] where
  clock := rfl
  readings := le_rfl
  histories _ := rfl
  visited _ hv := absurd hv List.not_mem_nil
  times _ hv := absurd hv List.not_mem_nil
  ordered _ := .nil

theorem trans {s t u : Sampler σ} {log log' : List Visit} (h : Recorded bench s t log)
    (h' : Recorded bench t u log') : Recorded bench s u (log ++ log') where
  clock := h'.clock.trans h.clock
  readings := h.readings.trans h'.readings
  histories deviceId := by rw [h'.histories, h.histories, pointsOf_append, List.foldl_append]
  visited v hv := (List.mem_append.mp hv).elim (h.visited v) (h'.visited v)
  times v hv := by
    rcases List.mem_append.mp hv with hv | hv
    · obtain ⟨n, hlow, hhigh, htime⟩ := h.times v hv
      exact ⟨n, hlow, hhigh.trans h'.readings, htime⟩
    · obtain ⟨n, hlow, hhigh, htime⟩ := h'.times v hv
      exact ⟨n, h.readings.trans hlow, hhigh, htime.trans (congrFun h.clock n)⟩
  ordered hclock := by
    refine List.pairwise_append.mpr ⟨h.ordered hclock, h'.ordered (h.clock ▸ hclock), fun v hv w hw => ?_⟩
    obtain ⟨n, -, hn, hv⟩ := h.times v hv
    obtain ⟨m, hm, -, hw⟩ := h'.times w hw
    rw [hv, hw, h.clock]
    exact hclock (hn.trans hm)

/-- What happens to the devices meanwhile is not the sampler's. -/
theorem pause {s t : Sampler σ} {log : List Visit} (h : Recorded bench s t log) (io : σ) :
    Recorded bench s { t with io := io } log := ⟨h.clock, h.readings, h.histories, h.visited, h.times, h.ordered⟩

end Recorded

variable [UnidriverIo σ] [FlakyIo σ] (root : LogLevel)

theorem recordDevice_recorded {d : Device × ℤ} (hd : bench.device? d.1.id = some d) (s : Sampler σ) :
    ∃ t, (recordDevice root bench.service d.1).run s = .ok () t ∧
      Recorded bench s t [visit (attachDevice d.1 d.2) s] := by
  have hread : (bench.service.readValues root d.1.id : EStateM DeviceError σ (List NetVar)) =
      DeviceService.snapshots (attachDevice d.1 d.2) d.1.readable := DeviceService.readValues_eq_snapshots hd
  have hlisted : Listed bench d.1 := ⟨d.2, hd⟩
  have hvars : ∀ var ∈ d.1.readable, var ∈ d.1.vars := fun _ hvar => List.mem_of_mem_filter hvar
  rw [run_recordDevice, hread]
  rcases snapshots_flaky hvars s.io with ⟨values, io, hreads, hlen, hrun⟩ | ⟨values, io, hreads, hrun⟩
  · rw [hrun]
    refine ⟨_, rfl, rfl, Nat.le_succ _, fun deviceId => ?_, ?_, ?_, fun _ => List.pairwise_singleton _ _⟩
    · rw [pointsOf_singleton, Visit.sample?_whole hreads, deviceHistory_appendSample, sampleValues_zipWith]
      have hdevice : (visit (attachDevice d.1 d.2) s).device = d.1 := rfl
      rw [hdevice]
      by_cases hid : deviceId = d.1.id
      · subst hid
        rw [if_pos rfl, if_pos rfl, Option.toList_some, List.foldl_cons, List.foldl_nil]
        rfl
      · rw [if_neg hid, if_neg (Ne.symm hid), List.foldl_nil]
    · exact List.forall_mem_singleton.mpr ⟨hlisted, .inl ⟨values, hreads, hlen⟩⟩
    · exact List.forall_mem_singleton.mpr ⟨s.readings, le_rfl, Nat.le_succ _, rfl⟩
  · rw [hrun]
    refine ⟨_, if_pos rfl, rfl, le_rfl, fun deviceId => ?_, ?_, ?_, fun _ => List.pairwise_singleton _ _⟩
    · rw [pointsOf_singleton, Visit.sample?_failed hreads, Option.toList_none, ite_self, List.foldl_nil]
    · exact List.forall_mem_singleton.mpr ⟨hlisted, .inr ⟨values, hreads⟩⟩
    · exact List.forall_mem_singleton.mpr ⟨s.readings, le_rfl, le_rfl, rfl⟩

theorem recordDevices_recorded {runtimes : List DeviceRuntime}
    (h : ∀ runtime ∈ runtimes, runtime ∈ bench.service.devices.values) (s : Sampler σ) :
    ∃ t, (recordDevices root bench.service (runtimes.map DeviceRuntime.device)).run s = .ok () t ∧
      Recorded bench s t (snapshotVisits root bench.service runtimes s) := by
  induction runtimes generalizing s with
  | nil => exact ⟨s, rfl, .refl s⟩
  | cons runtime runtimes ih =>
    obtain ⟨hin, hrest⟩ := List.forall_mem_cons.mp h
    obtain ⟨deviceId, hget⟩ := Dict.mem_values.mp hin
    rw [Bench.service_get?] at hget
    obtain ⟨d, hd, rfl⟩ := Option.map_eq_some_iff.mp hget
    have hid : d.1.id = deviceId := Bench.id_of_device? hd
    obtain ⟨s1, hrun1, hfirst⟩ := recordDevice_recorded root (hid ▸ hd) s
    obtain ⟨t, hrun, hothers⟩ := ih hrest s1
    have hnext : final ((recordDevice root bench.service (attachDevice d.1 d.2).device).run s) = s1 := by
      have hsame : (attachDevice d.1 d.2).device = d.1 := rfl
      rw [hsame, hrun1, final_ok]
    refine ⟨t, (run_bind_ok hrun1).trans hrun, ?_⟩
    rw [snapshotVisits, hnext]
    exact hfirst.trans hothers

theorem recordSnapshot_recorded (bench : Bench) (s : Sampler σ) :
    ∃ t, (recordSnapshot root bench.service).run s = .ok () t ∧
      Recorded bench s t (snapshotVisits root bench.service bench.service.devices.values s) := by
  rw [run_recordSnapshot]
  exact recordDevices_recorded root (fun _ hin => hin) s

/-- The sampler never ends with an exception. -/
theorem runSampler_recorded (bench : Bench) (pauses : List (σ → σ)) (s : Sampler σ) :
    ∃ t, (runSampler root bench.service pauses).run s = .ok () t ∧
      Recorded bench s t (runVisits root bench.service pauses s) := by
  induction pauses generalizing s with
  | nil => exact ⟨s, rfl, .refl s⟩
  | cons pause pauses ih =>
    obtain ⟨s1, hrun1, hsnapshot⟩ := recordSnapshot_recorded root bench s
    obtain ⟨t, hrun, hrest⟩ := ih { s1 with io := pause s1.io }
    refine ⟨t, (run_bind_ok hrun1).trans hrun, ?_⟩
    rw [runVisits, hrun1, final_ok]
    exact (hsnapshot.pause (pause s1.io)).trans hrest

end

/-! ## The histories of a run -/

/-- The sample of a whole visit: one entry for each variable that is not write-only, with what was read. -/
structure Visit.Yields (v : Visit) (sample : Sample) : Prop where
  time : sample.t = v.time
  names : sample.values.keys = v.device.readable.map NetVar.name
  reads : v.reads = sample.values.values.map .ok

/-- In both logs the device was read alike, whatever the clock showed. -/
def SameReads (log log' : List Visit) (deviceId : String) : Prop :=
  (log.filter (fun v => v.device.id = deviceId)).map (fun v => (v.device, v.reads)) =
    (log'.filter (fun v => v.device.id = deviceId)).map (fun v => (v.device, v.reads))

theorem Visit.Ends.yields {v : Visit} (h : v.Ends) (hnames : v.device.DistinctNames) :
    (∃ sample, v.sample? = some sample ∧ v.Yields sample) ∨ v.sample? = none ∧ .error .osError ∈ v.reads := by
  rcases h with ⟨values, hreads, hlen⟩ | ⟨values, hreads⟩
  · refine .inl ⟨_, Visit.sample?_whole hreads, ?_⟩
    have hlen' : (v.device.readable.map NetVar.name).length = values.length := by rw [List.length_map, hlen]
    have hkeys : ((v.device.readable.map NetVar.name).zip values).map Prod.fst = v.device.readable.map NetVar.name :=
      List.map_fst_zip hlen'.le
    have hnodup : (((v.device.readable.map NetVar.name).zip values).map Prod.fst).Nodup := by
      rw [hkeys]
      exact hnames.sublist (List.filter_sublist.map _)
    have hentries : (Dict.ofList ((v.device.readable.map NetVar.name).zip values)).entries =
        (v.device.readable.map NetVar.name).zip values := Dict.entries_foldl_set _ .empty hnodup
    refine ⟨rfl, ?_, ?_⟩
    · rw [Dict.keys, hentries, hkeys]
    · rw [hreads, Dict.values, hentries, List.map_snd_zip hlen'.ge]
  · exact .inr ⟨Visit.sample?_failed hreads, hreads ▸ by simp⟩

theorem SameReads.values {log log' : List Visit} {deviceId : String} (h : SameReads log log' deviceId) :
    (pointsOf log deviceId).map Sample.values = (pointsOf log' deviceId).map Sample.values := by
  have hread (log : List Visit) : (pointsOf log deviceId).map Sample.values =
      ((log.filter (fun v => v.device.id = deviceId)).map (fun v => (v.device, v.reads))).filterMap (fun r =>
        (r.2.mapM Except.toOption).map (fun values => Dict.ofList ((r.1.readable.map NetVar.name).zip values))) := by
    rw [pointsOf, List.map_filterMap, List.filterMap_map]
    refine List.filterMap_congr (fun v _ => ?_)
    rw [Visit.sample?, Option.map_map]
    rfl
  rw [hread, hread, h]

theorem pointsOf_ordered {log : List Visit} (h : log.Pairwise (fun v w => v.time ≤ w.time)) (deviceId : String) :
    (pointsOf log deviceId).Pairwise (fun a b => a.t ≤ b.t) := by
  have htime (v : Visit) (sample : Sample) (hsample : v.sample? = some sample) : sample.t = v.time := by
    obtain ⟨values, -, rfl⟩ := Option.map_eq_some_iff.mp hsample
    rfl
  refine (h.sublist List.filter_sublist).filterMap _ (fun v w hvw a ha b hb => ?_)
  rw [htime v a ha, htime w b hb]
  exact hvw

/-- The history of a device is what its last whole visits yield, in the order of time and whatever became of the
other devices. -/
theorem histories_exact {σ : Type} [UnidriverIo σ] [FlakyIo σ] (root : LogLevel) (bench : Bench)
    (hnames : ∀ d ∈ bench.devices, d.1.DistinctNames) (pauses : List (σ → σ)) (start : Sampler σ)
    (hclock : Monotone start.clock) (hnew : start.history = .empty) :
    ∃ t, (runSampler root bench.service pauses).run start = .ok () t ∧
      (∀ deviceId, deviceHistory t.history deviceId =
          (pointsOf (runVisits root bench.service pauses start) deviceId).rtake maxPoints ∧
        (deviceHistory t.history deviceId).Pairwise (fun a b => a.t ≤ b.t)) ∧
      (∀ v ∈ runVisits root bench.service pauses start,
        (∃ sample, v.sample? = some sample ∧ v.Yields sample) ∨ v.sample? = none ∧ .error .osError ∈ v.reads) ∧
      (∀ deviceId, bench.device? deviceId = none → deviceHistory t.history deviceId = []) ∧
      ∀ (pauses' : List (σ → σ)) (start' : Sampler σ), start'.history = .empty →
        ∀ t', (runSampler root bench.service pauses').run start' = .ok () t' →
          ∀ deviceId, SameReads (runVisits root bench.service pauses start)
              (runVisits root bench.service pauses' start') deviceId →
            (deviceHistory t.history deviceId).map Sample.values =
              (deviceHistory t'.history deviceId).map Sample.values := by
  have hhistory (pauses : List (σ → σ)) {s t : Sampler σ} (hs : s.history = .empty)
      (h : Recorded bench s t (runVisits root bench.service pauses s)) (deviceId : String) :
      deviceHistory t.history deviceId =
        (pointsOf (runVisits root bench.service pauses s) deviceId).rtake maxPoints := by
    have hempty : deviceHistory s.history deviceId = [] := by rw [hs]; rfl
    rw [h.histories, hempty, Window.foldl_push (Nat.zero_le _), List.nil_append]
  obtain ⟨t, hrun, hrecorded⟩ := runSampler_recorded root bench pauses start
  have hexact := hhistory pauses hnew hrecorded
  refine ⟨t, hrun, fun deviceId => ⟨hexact deviceId, ?_⟩, fun v hv => ?_, fun deviceId hnone => ?_, ?_⟩
  · have hordered := pointsOf_ordered (hrecorded.ordered hclock) deviceId
    rw [hexact]
    exact hordered.sublist (Window.rtake_suffix _ _).sublist
  · obtain ⟨⟨handle, hd⟩, hends⟩ := hrecorded.visited v hv
    exact hends.yields (hnames _ (Bench.mem_of_device? hd))
  · have hnever : pointsOf (runVisits root bench.service pauses start) deviceId = [] := by
      rw [pointsOf, List.filter_eq_nil_iff.mpr, List.filterMap_nil]
      intro v hv hid
      obtain ⟨⟨handle, hd⟩, -⟩ := hrecorded.visited v hv
      rw [of_decide_eq_true hid, hnone] at hd
      cases hd
    rw [hexact, hnever, List.rtake_nil]
  · intro pauses' start' hnew' t' hrun' deviceId hsame
    obtain ⟨_, hrun'', hrecorded'⟩ := runSampler_recorded root bench pauses' start'
    cases hrun'.symm.trans hrun''
    have hmap (points : List Sample) :
        (points.rtake maxPoints).map Sample.values = (points.map Sample.values).rtake maxPoints := by
      rw [List.rtake, List.rtake, List.map_drop, List.length_map]
    rw [hexact, hhistory pauses' hnew' hrecorded', hmap, hmap, hsame.values]

/-! ## A device that answers now and then -/

/-- The device side in memory, of which some reads raise. -/
structure UnsteadyIo where
  device : InMemoryUnidriverIo
  answers : ℕ → Bool
  calls : ℕ

namespace UnsteadyIo

def read {α : Type} (x : EStateM PyError InMemoryUnidriverIo α) : EStateM PyError UnsteadyIo α := fun io =>
  if io.answers io.calls then
    match x.run io.device with
    | .ok a device => .ok a { io with device := device, calls := io.calls + 1 }
    | .error e device => .error e { io with device := device, calls := io.calls + 1 }
  else .error .osError { io with calls := io.calls + 1 }

instance : UnidriverIo UnsteadyIo where
  readBytes handle index size := read (UnidriverIo.readBytes handle index size)
  writeBytes handle index value := read (UnidriverIo.writeBytes handle index value)
  readBit handle byteIndex bitIndex := read (UnidriverIo.readBit handle byteIndex bitIndex)
  writeBit handle byteIndex bitIndex value := read (UnidriverIo.writeBit handle byteIndex bitIndex value)

theorem read_run {α : Type} {x : EStateM PyError InMemoryUnidriverIo α} {io : UnsteadyIo} {a : α}
    {device : InMemoryUnidriverIo} (h : x.run io.device = .ok a device) :
    (∃ io', (read x).run io = .ok a io') ∨ ∃ io', (read x).run io = .error .osError io' := by
  rw [EStateM.run] at h ⊢
  rw [read, EStateM.run, h]
  split
  · exact .inl ⟨_, rfl⟩
  · exact .inr ⟨_, rfl⟩

instance : FlakyIo UnsteadyIo where
  readBytes_ends io handle index size := by
    obtain ⟨device, hrun, -⟩ := LawfulUnidriverIo.readBytes_run io.device handle index size
    rcases read_run hrun with ⟨io', h⟩ | ⟨io', h⟩
    · exact .inl ⟨_, io', h, ByteMemory.length_read _ _ _ _⟩
    · exact .inr ⟨io', h⟩
  readBit_ends io handle byteIndex bitIndex hk := by
    obtain ⟨device, hrun, -⟩ := LawfulUnidriverIo.readBit_run io.device handle byteIndex bitIndex hk
    rcases read_run hrun with ⟨io', h⟩ | ⟨io', h⟩
    · exact .inl ⟨_, io', h⟩
    · exact .inr ⟨io', h⟩

end UnsteadyIo

/-- The second read of the first device raises. -/
def unsteadyStart : Sampler UnsteadyIo := ⟨⟨⟨.empty⟩, fun n => n ≠ 1, 0⟩, .empty, fun n => n, 0⟩

theorem unsteadyStart_recorded : ∃ t, (runSampler .INFO cutBench.service [id, id]).run unsteadyStart = .ok () t ∧
    deviceHistory t.history "sim" =
      (pointsOf (runVisits .INFO cutBench.service [id, id] unsteadyStart) "sim").rtake maxPoints := by
  have hnames : ∀ d ∈ cutBench.devices, d.1.DistinctNames := by
    unfold Device.DistinctNames
    decide
  obtain ⟨t, hrun, hhistories, -⟩ := histories_exact .INFO cutBench hnames [id, id] unsteadyStart Nat.mono_cast rfl
  exact ⟨t, hrun, (hhistories "sim").1⟩

example : (runVisits .INFO cutBench.service [id, id] unsteadyStart).map (fun v => (v.device.id, v.sample?.isSome)) =
    [("sim", false), ("spare", true), ("sim", true), ("spare", true)] := by decide +kernel

end Tstlan
