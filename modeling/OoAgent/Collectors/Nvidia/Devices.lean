import OoAgent.Collectors.Mixed
import OoAgent.Collectors.Nvidia.Gddr6
import OoAgent.Lib.Traverse

/-!
# NVIDIA GPUs

`NvidiaGpuCollector.collect` asks NVML a dozen questions about each GPU.  Most of them go
through `_try`; the handle and the name do not, and the share of the used memory is divided
by the total.

* `Query`, `NvmlDevice` — the outcomes of the queries on a GPU.
* `deviceReport`, `collectNvidia` — the body of the loop, and `collect`; `none` where it raises.
* `gpuView` — what a payload says of one GPU; `gpuView_nvidiaPayload` — it comes from that GPU
  alone.
* `other_gpus_unharmed_iff` — **one failing GPU does not hide the others**, exactly when every
  GPU has a handle, a name and, if it tells its memory, some of it.
-/

namespace OoAgent

/-! ## Queries -/

/-- The outcome of an NVML query. -/
inductive Query (α : Type) where
  | value (a : α)
  | notSupported
  | error

namespace Query

/-- The value; `none` where the call raises. -/
def value? {α : Type} : Query α → Option α
  | .value a => some a
  | _ => none

/-- Another outcome than a value or "not supported". -/
def failed {α : Type} : Query α → Bool
  | .error => true
  | _ => false

end Query

/-- `_try`: a call that raises has no value. -/
def tryQuery {α : Type} (query : Query α) : Option α := query.value?

/-- What `nvmlDeviceGetName` returns. -/
inductive NvmlName where
  | str (name : String)
  | bytes (raw : ByteArray)

/-- `name.decode()` of bytes; `none` where it raises. -/
def NvmlName.decode : NvmlName → Option String
  | .str name => some name
  | .bytes raw => String.fromUTF8? raw

/-- What `nvmlDeviceGetMemoryInfo` returns, as far as it is read. -/
structure NvmlMemory where
  used : ℕ
  total : ℕ

/-- An entry of what `nvmlDeviceGetFieldValues` returns. -/
structure FieldValue where
  nvmlReturn : ℕ
  uiVal : ℕ
  ullVal : ℕ

/-- The thresholds that are asked for. -/
inductive Threshold where
  | slowdown
  | shutdown
  | gpuMax
  | memMax
  deriving DecidableEq

/-- A GPU, as the outcomes of the queries on it. -/
structure NvmlDevice where
  handle : Query Unit
  name : Query NvmlName
  /-- `util.gpu`. -/
  util : Query ℕ
  memory : Query NvmlMemory
  coreTemp : Query ℕ
  fieldValues : Query (List FieldValue)
  /-- `pci.bus`. -/
  pci : Query ℕ
  powerMw : Query ℕ
  limitMw : Query ℕ
  fanPct : Query ℕ
  threshold : Threshold → Query ℕ
  reasons : Query ℕ

/-- The machine around the loop: the constants the library has, the arithmetic on floats, and
what the `gddr6` tool prints where it can be run. -/
structure NvmlHost where
  /-- `NVML_TEMPERATURE_THRESHOLD_GPU_MAX` is there. -/
  hasGpuMax : Bool
  /-- `NVML_TEMPERATURE_THRESHOLD_MEM_MAX` is there. -/
  hasMemMax : Bool
  /-- `NVML_FI_DEV_MEMORY_TEMP` is there. -/
  hasMemoryTemp : Bool
  /-- `round(n / 1024**2)`. -/
  megabytes : ℕ → ℤ
  /-- `round(used / total * 100, 1)`, for a total other than 0. -/
  percent : ℕ → ℕ → PyFloat
  /-- `round(mw / 1000, 1)`. -/
  watts : ℕ → PyFloat
  gddr6 : Option (List Char)

/-! ## The body of the loop -/

/-- `_THERMAL_MASK`. -/
def thermalMask : ℕ := 0x20 ||| 0x40

/-- `float(n)`. -/
def floatOf (n : ℕ) : Value := .float (.finite n)

/-- A value that may be `None`. -/
def orNone (v : Option Value) : Value := v.getD .none

/-- The pairs of `_thresholds`. -/
def thresholdPairs (host : NvmlHost) : List (String × Option Threshold) :=
  [("slowdown", some .slowdown), ("shutdown", some .shutdown),
    ("gpu_max", if host.hasGpuMax then some .gpuMax else none),
    ("mem_max", if host.hasMemMax then some .memMax else none)]

/-- `_thresholds`. -/
def thresholds (host : NvmlHost) (device : NvmlDevice) : Dict String Value :=
  (thresholdPairs host).filterMap fun (key, const) => do
    let value ← tryQuery (device.threshold (← const))
    if 0 < value ∧ value ≤ 250 then some (key, floatOf value) else none

/-- `_mem_temp`. -/
def memTemp (host : NvmlHost) (device : NvmlDevice) : Option ℕ :=
  if host.hasMemoryTemp then do
    let values ← tryQuery device.fieldValues
    let value ← values.head?
    if value.nvmlReturn ≠ 0 then none
    else
      let raw := if value.uiVal ≠ 0 then value.uiVal else value.ullVal
      if 0 < raw ∧ raw ≤ 200 then some raw else none
  else none

/-- `_gddr6_temps`. -/
def gddr6Temps (host : NvmlHost) : Dict ℕ ℕ × List ℕ :=
  match host.gddr6 with
  | some text => parseGddr6Output text
  | none => ([], [])

/-- `vram_temp`: from NVML, or else from the `gddr6` tool. -/
def vramTemp (host : NvmlHost) (index : ℕ) (device : NvmlDevice) : Option ℕ :=
  (memTemp host device).or (takeTemp (gddr6Temps host) (tryQuery device.pci) index)

/-- `throttling`. -/
def throttling (device : NvmlDevice) : ℤ :=
  match tryQuery device.reasons with
  | some reasons => if reasons &&& thermalMask ≠ 0 then 1 else 0
  | none => 0

/-- A power draw or limit; 0 is left out. -/
def power (host : NvmlHost) (milliwatts : Query ℕ) : Option Value :=
  (tryQuery milliwatts).bind fun mw => if mw = 0 then none else some (.float (host.watts mw))

/-- The metrics of the memory, if it is known; `none` where the division raises. -/
def gpuMemory (host : NvmlHost) (memory : Option NvmlMemory) : Option (Option GpuMemory) :=
  match memory with
  | none => some none
  | some memory =>
    if memory.total = 0 then none
    else some (some
      { used := .int memory.used, total := .int memory.total
        pused := .float (host.percent memory.used memory.total) })

/-- The entry of a GPU in the inventory. -/
def gpuEntry (host : NvmlHost) (index : ℕ) (device : NvmlDevice) (name : String) : Value :=
  let memory := tryQuery device.memory
  let limits := thresholds host device
  .dict
    [(.str "vendor", .str "nvidia"), (.str "name", .str name),
      (.str "load", orNone ((tryQuery device.util).map fun n => .int n)),
      (.str "memUsedMb", orNone (memory.map fun m => .int (host.megabytes m.used))),
      (.str "memTotalMb", orNone (memory.map fun m => .int (host.megabytes m.total))),
      (.str "coreTempC", orNone ((tryQuery device.coreTemp).map fun n => .int n)),
      (.str "vramTempC", orNone ((vramTemp host index device).map floatOf)),
      (.str "powerW", orNone (power host device.powerMw)),
      (.str "powerLimitW", orNone (power host device.limitMw)),
      (.str "fanPct", orNone ((tryQuery device.fanPct).map fun n => .int n)),
      (.str "thresholds",
        if limits = [] then .none else .dict (limits.map fun item => (.str item.1, item.2)))]

/-- `f"gpu:nv{index}/core"`. -/
def coreId (index : ℕ) : String := "gpu:nv" ++ Nat.repr index ++ "/core"

/-- `f"gpu:nv{index}/vram"`. -/
def vramId (index : ℕ) : String := "gpu:nv" ++ Nat.repr index ++ "/vram"

/-- The sensor of the core. -/
def coreSensor (host : NvmlHost) (index : ℕ) (device : NvmlDevice) (name : String) (temp : ℕ) :
    Sensor where
  id := coreId index
  name := name ++ " · core"
  kind := "gpu"
  value := floatOf temp
  unit := "C"
  limits :=
    let limits := thresholds host device
    deviceLimits [("max", limits.get "slowdown"), ("crit", limits.get "shutdown")]

/-- The sensor of the memory. -/
def vramSensor (host : NvmlHost) (index : ℕ) (device : NvmlDevice) (name : String) (temp : ℕ) :
    Sensor where
  id := vramId index
  name := name ++ " · VRAM"
  kind := "vram"
  value := floatOf temp
  unit := "C"
  limits := deviceLimits [("max", (thresholds host device).get "mem_max")]

/-- What the loop adds for one GPU. -/
structure GpuReport where
  entry : Value
  gpu : NvidiaGpu
  sensors : List Sensor

/-- The body of the loop in `NvidiaGpuCollector.collect`; `none` where it raises. -/
def deviceReport (host : NvmlHost) (index : ℕ) (device : NvmlDevice) : Option GpuReport := do
  let _ ← device.handle.value?
  let name ← (← device.name.value?).decode
  let memory ← gpuMemory host (tryQuery device.memory)
  return {
    entry := gpuEntry host index device name
    gpu :=
      { util := (tryQuery device.util).map fun n => .int n
        memory := memory
        powerW := power host device.powerMw
        fanPct := (tryQuery device.fanPct).map fun n => .int n
        throttling := .int (throttling device) }
    sensors :=
      ((tryQuery device.coreTemp).map (coreSensor host index device name)).toList ++
        ((vramTemp host index device).map (vramSensor host index device name)).toList }

/-- What is returned after the loop. -/
def nvidiaPayload (reports : List GpuReport) : Produced where
  readings := .gpuNvidia (reports.map GpuReport.gpu)
  sensors := reports.flatMap GpuReport.sensors
  inventory := [(.str "gpus", .list (reports.map GpuReport.entry))]

/-- The loop over the GPUs. -/
def gpuReports (host : NvmlHost) (devices : List NvmlDevice) : Option (List GpuReport) :=
  devices.zipIdx.mapM fun (device, index) => deviceReport host index device

/-- `NvidiaGpuCollector.collect`; `none` where it raises. -/
def collectNvidia (host : NvmlHost) (devices : List NvmlDevice) : Option Produced :=
  (gpuReports host devices).map nvidiaPayload

/-! ## One GPU of a payload -/

/-- A sensor of the GPU with this index. -/
def ofGpu (index : ℕ) (sensor : Sensor) : Bool :=
  decide (sensor.id = coreId index ∨ sensor.id = vramId index)

/-- The `gpus` of an inventory. -/
def gpuEntries (p : Produced) : List Value :=
  match p.inventory.lookup (.str "gpus") with
  | some (.list entries) => entries
  | _ => []

/-- What a payload says of the GPU with some index. -/
structure GpuView where
  entry : Option Value
  sensors : List Sensor
  metrics : List (Option Value)

def gpuView (p : Produced) (index : ℕ) : GpuView where
  entry := (gpuEntries p)[index]?
  sensors := p.sensors.filter (ofGpu index)
  metrics := p.readings.families.map fun name =>
    p.readings.metrics.get (indexed name (Nat.repr index))

theorem sensorId_inj {i j : ℕ} :
    (coreId i = coreId j → i = j) ∧ (vramId i = vramId j → i = j) ∧ coreId i ≠ vramId j := by
  refine ⟨fun h => Nat.repr_injective ?_, fun h => Nat.repr_injective ?_, fun h => ?_⟩
  · simpa [coreId] using h
  · simpa [vramId] using h
  · have hlast := congrArg (fun s : String => s.toList.reverse.head?) h
    simp [coreId, vramId] at hlast

/-- The sensors of a GPU carry its index. -/
theorem ofGpu_of_mem {host : NvmlHost} {device : NvmlDevice} {i j : ℕ} {report : GpuReport}
    (h : deviceReport host j device = some report) {sensor : Sensor}
    (hsensor : sensor ∈ report.sensors) : ofGpu i sensor = decide (j = i) := by
  unfold deviceReport at h
  simp only [Option.bind_eq_bind, Option.bind_eq_some_iff, Option.pure_def,
    Option.some.injEq] at h
  obtain ⟨-, -, raw, -, name, -, memory, -, rfl⟩ := h
  have hid : sensor.id = coreId j ∨ sensor.id = vramId j := by
    rcases List.mem_append.1 hsensor with hmem | hmem
    · obtain ⟨temp, -, rfl⟩ := Option.map_eq_some_iff.1 (Option.mem_toList.1 hmem)
      exact .inl rfl
    · obtain ⟨temp, -, rfl⟩ := Option.map_eq_some_iff.1 (Option.mem_toList.1 hmem)
      exact .inr rfl
  rw [ofGpu, decide_eq_decide]
  constructor
  · intro hown
    rcases hid with hid | hid <;> rw [hid] at hown
    · rcases hown with hown | hown
      · exact sensorId_inj.1 hown
      · exact absurd hown sensorId_inj.2.2
    · rcases hown with hown | hown
      · exact absurd hown.symm sensorId_inj.2.2
      · exact sensorId_inj.2.1 hown
  · rintro rfl
    exact hid

/-- What is kept of a list of parts, when it is just one of them. -/
theorem filter_flatMap_of_index {α β : Type} {f : α → List β} {p : β → Bool} {l : List α} {i : ℕ}
    (h : ∀ j a, l[j]? = some a → ∀ b ∈ f a, p b = decide (j = i)) :
    (l.flatMap f).filter p = l[i]?.toList.flatMap f := by
  induction l generalizing i with
  | nil => rfl
  | cons a l ih =>
    rw [List.flatMap_cons, List.filter_append]
    cases i with
    | zero =>
      have hhead : (f a).filter p = f a :=
        List.filter_eq_self.2 fun b hb => by rw [h 0 a rfl b hb]; rfl
      have htail : (l.flatMap f).filter p = [] := by
        refine List.filter_eq_nil_iff.2 fun b hb => ?_
        obtain ⟨a', ha', hb⟩ := List.mem_flatMap.1 hb
        obtain ⟨j, hj⟩ := List.mem_iff_getElem?.1 ha'
        simp [h (j + 1) a' hj b hb]
      rw [hhead, htail]
      simp
    | succ i =>
      have hhead : (f a).filter p = [] :=
        List.filter_eq_nil_iff.2 fun b hb => by simp [h 0 a rfl b hb]
      rw [hhead, List.nil_append, List.getElem?_cons_succ]
      exact ih fun j a' ha' b hb => by simp [h (j + 1) a' ha' b hb]

/-- The metrics of a GPU are its readings. -/
theorem get_nvidiaMetrics (gpus : List NvidiaGpu) (i : ℕ) {name : String}
    (hname : '[' ∉ name.toList) :
    (nvidiaMetrics gpus).get (indexed name (Nat.repr i)) =
      gpus[i]?.bind fun gpu => Dict.get gpu.readings name := by
  ext v
  constructor
  · intro h
    obtain ⟨j, readings, name', hgpu, hv, hkey⟩ :=
      mem_gpuWrites.1 (mem_of_mem_metricsOf (Dict.mem_of_get h))
    rw [List.getElem?_map] at hgpu
    obtain ⟨gpu, hgpu', rfl⟩ := Option.map_eq_some_iff.1 hgpu
    obtain ⟨rfl, hindex⟩ := indexed_inj hname (bracket_notMem (@nvidia_families gpus _ _ _ hv)) hkey
    obtain rfl := Nat.repr_injective hindex
    rw [hgpu', Option.bind_some]
    exact Dict.get_of_mem (nodup_nvidia gpu) hv
  · intro h
    obtain ⟨gpu, hgpu, hv⟩ := Option.bind_eq_some_iff.1 h
    exact Dict.get_of_mem (nodup_metricsOf _) (mem_nvidiaMetrics hgpu (Dict.mem_of_get hv))

/-- What a report says of its GPU. -/
def reportView (report : Option GpuReport) : GpuView where
  entry := report.map GpuReport.entry
  sensors := report.toList.flatMap GpuReport.sensors
  metrics := (Readings.gpuNvidia []).families.map fun name =>
    report.bind fun report => Dict.get report.gpu.readings name

/-- The reports are those of the GPUs, in their order. -/
theorem getElem?_gpuReports {host : NvmlHost} {devices : List NvmlDevice}
    {reports : List GpuReport} (h : gpuReports host devices = some reports) (i : ℕ) :
    reports[i]? = devices[i]?.bind (deviceReport host i) := by
  rw [Traverse.getElem?_of_mapM h, List.getElem?_zipIdx, Nat.zero_add]
  cases devices[i]? <;> rfl

/-- **What a payload says of a GPU** comes from that GPU alone. -/
theorem gpuView_nvidiaPayload {host : NvmlHost} {devices : List NvmlDevice}
    {reports : List GpuReport} (h : gpuReports host devices = some reports) (i : ℕ) :
    gpuView (nvidiaPayload reports) i = reportView (devices[i]?.bind (deviceReport host i)) := by
  rw [← getElem?_gpuReports h]
  have hsensors : (nvidiaPayload reports).sensors.filter (ofGpu i) =
      reports[i]?.toList.flatMap GpuReport.sensors := by
    refine filter_flatMap_of_index fun j report hreport sensor hsensor => ?_
    rw [getElem?_gpuReports h] at hreport
    obtain ⟨device, -, hreport⟩ := Option.bind_eq_some_iff.1 hreport
    exact ofGpu_of_mem hreport hsensor
  have hmetrics : (nvidiaPayload reports).readings.families.map (fun name =>
      (nvidiaPayload reports).readings.metrics.get (indexed name (Nat.repr i))) =
      (Readings.gpuNvidia []).families.map fun name =>
        reports[i]?.bind fun report => Dict.get report.gpu.readings name := by
    refine List.map_congr_left fun name hname => ?_
    have hget := get_nvidiaMetrics (reports.map GpuReport.gpu) i (bracket_notMem hname)
    rw [List.getElem?_map, Option.bind_map] at hget
    exact hget
  have hentries : gpuEntries (nvidiaPayload reports) = reports.map GpuReport.entry := rfl
  rw [gpuView, reportView, hsensors, hmetrics, hentries, List.getElem?_map]

/-! ## Failing GPUs -/

namespace NvmlDevice

/-- Which queries on the GPU failed. -/
def failures (device : NvmlDevice) : List Bool :=
  [device.handle.failed, device.name.failed, device.util.failed, device.memory.failed,
    device.coreTemp.failed, device.fieldValues.failed, device.pci.failed, device.powerMw.failed,
    device.limitMw.failed, device.fanPct.failed, (device.threshold .slowdown).failed,
    (device.threshold .shutdown).failed, (device.threshold .gpuMax).failed,
    (device.threshold .memMax).failed, device.reasons.failed]

/-- Every query on the GPU has a value, or is not supported. -/
def Succeeds (device : NvmlDevice) : Prop := true ∉ device.failures

/-- The GPU has a handle and a name, and a memory if it tells how large that is. -/
structure Reported (device : NvmlDevice) : Prop where
  handle : device.handle.value? ≠ none
  name : device.name.value?.bind NvmlName.decode ≠ none
  memory : ∀ memory, device.memory.value? = some memory → memory.total ≠ 0

/-- A GPU that failed answers normally; one that did not stays as it is. -/
structure Answered (device answered : NvmlDevice) : Prop where
  same : device.Succeeds → answered = device
  normal : ¬ device.Succeeds → answered.Succeeds ∧ answered.Reported

end NvmlDevice

theorem gpuMemory_ne_none {host : NvmlHost} {memory : Option NvmlMemory} :
    gpuMemory host memory ≠ none ↔ ∀ m, memory = some m → m.total ≠ 0 := by
  cases memory with
  | none => simp [gpuMemory]
  | some memory => by_cases htotal : memory.total = 0 <;> simp [gpuMemory, htotal]

/-- **The body of the loop raises** for a GPU that is not reported. -/
theorem deviceReport_ne_none {host : NvmlHost} {index : ℕ} {device : NvmlDevice} :
    deviceReport host index device ≠ none ↔ device.Reported := by
  constructor
  · intro h
    obtain ⟨report, h⟩ := Option.ne_none_iff_exists'.1 h
    simp only [deviceReport, Option.bind_eq_bind, Option.bind_eq_some_iff] at h
    obtain ⟨handle, hhandle, raw, hraw, name, hname, memory, hmemory, -⟩ := h
    exact
      { handle := by simp [hhandle]
        name := by simp [hraw, hname]
        memory := gpuMemory_ne_none.1 (Option.ne_none_iff_exists'.2 ⟨memory, hmemory⟩) }
  · rintro ⟨hhandle, hname, hmemory⟩
    obtain ⟨handle, hhandle⟩ := Option.ne_none_iff_exists'.1 hhandle
    obtain ⟨name, hname⟩ := Option.ne_none_iff_exists'.1 hname
    obtain ⟨raw, hraw, hname⟩ := Option.bind_eq_some_iff.1 hname
    have hmemory : gpuMemory host device.memory.value? ≠ none := gpuMemory_ne_none.2 hmemory
    obtain ⟨memory, hmemory⟩ := Option.ne_none_iff_exists'.1 hmemory
    simp [deviceReport, hhandle, hraw, hname, tryQuery, hmemory]

/-- **`collect` returns** exactly when every GPU is reported. -/
theorem exists_gpuReports_iff {host : NvmlHost} {devices : List NvmlDevice} :
    (∃ reports, gpuReports host devices = some reports) ↔
      ∀ device ∈ devices, device.Reported := by
  rw [gpuReports, Traverse.exists_mapM_iff]
  constructor
  · intro h device hdevice
    obtain ⟨i, hi⟩ := List.mem_iff_getElem?.1 hdevice
    exact deviceReport_ne_none.1 (h (device, i) (List.mem_zipIdx_iff_getElem?.2 hi))
  · rintro h ⟨device, i⟩ hdevice
    have hi := List.mem_zipIdx_iff_getElem?.1 hdevice
    exact deviceReport_ne_none.2 (h device (List.mem_of_getElem? hi))

/-- With the failing GPUs answered, all of them are reported. -/
theorem reported_of_answered {devices answered : List NvmlDevice}
    (hanswered : List.Forall₂ NvmlDevice.Answered devices answered)
    (h : ∀ device ∈ devices, device.Reported) : ∀ device ∈ answered, device.Reported := by
  induction hanswered with
  | nil => exact h
  | @cons device _ _ _ hdevice _ ih =>
    rw [List.forall_mem_cons] at h ⊢
    refine ⟨?_, ih h.2⟩
    by_cases hsucceeds : device.Succeeds
    · rw [hdevice.same hsucceeds]
      exact h.1
    · exact (hdevice.normal hsucceeds).2

/-- **One failing GPU does not hide the others**: `collect` returns, and what it says of the
GPUs whose queries succeed is what it says when the others answer normally, exactly when every
GPU has a handle, a name and no memory of size 0. -/
theorem other_gpus_unharmed_iff (host : NvmlHost) (devices : List NvmlDevice) :
    (∃ p, collectNvidia host devices = some p ∧
      ∀ answered, List.Forall₂ NvmlDevice.Answered devices answered →
        ∃ p', collectNvidia host answered = some p' ∧
          ∀ i device, devices[i]? = some device → device.Succeeds →
            gpuView p i = gpuView p' i) ↔
    ∀ device ∈ devices, device.Reported := by
  constructor
  · rintro ⟨p, hp, -⟩
    obtain ⟨reports, hreports, -⟩ := Option.map_eq_some_iff.1 hp
    exact exists_gpuReports_iff.1 ⟨reports, hreports⟩
  · intro h
    obtain ⟨reports, hreports⟩ := exists_gpuReports_iff.2 h
    refine ⟨_, by rw [collectNvidia, hreports, Option.map_some], fun answered hanswered => ?_⟩
    obtain ⟨reports', hreports'⟩ := exists_gpuReports_iff.2 (reported_of_answered hanswered h)
    refine ⟨_, by rw [collectNvidia, hreports', Option.map_some], fun i device hi hsucceeds => ?_⟩
    -- the GPU is the same in both, and so is what is said of it
    have hsame : answered[i]? = some device := by
      obtain ⟨hlength, hget⟩ := List.forall₂_iff_get.1 hanswered
      obtain ⟨hlt, rfl⟩ := List.getElem?_eq_some_iff.1 hi
      rw [List.getElem?_eq_getElem (hlength ▸ hlt)]
      exact congrArg some ((hget i hlt (hlength ▸ hlt)).same hsucceeds)
    rw [gpuView_nvidiaPayload hreports, gpuView_nvidiaPayload hreports', hi, hsame]

/-- A GPU that answers some of the queries. -/
def sampleGpu : NvmlDevice where
  handle := .value ()
  name := .value (.str "NVIDIA GeForce RTX 3090")
  util := .value 40
  memory := .value { used := 1073741824, total := 25769803776 }
  coreTemp := .value 51
  fieldValues := .notSupported
  pci := .value 132
  powerMw := .notSupported
  limitMw := .notSupported
  fanPct := .notSupported
  threshold := fun _ => .notSupported
  reasons := .notSupported

/-- A machine without the tool. -/
def sampleNvmlHost : NvmlHost where
  hasGpuMax := true
  hasMemMax := true
  hasMemoryTemp := true
  megabytes := fun n => n / 1048576
  percent := fun used total => .finite (used * 1000 / total / 10)
  watts := fun mw => .finite (mw / 100 / 10)
  gddr6 := none

/-- **A lost GPU** takes the report of the other one with it. -/
theorem lost_gpu_hides_all :
    ¬ ∀ (host : NvmlHost) (devices : List NvmlDevice), ∃ p, collectNvidia host devices = some p ∧
      ∀ answered, List.Forall₂ NvmlDevice.Answered devices answered →
        ∃ p', collectNvidia host answered = some p' ∧
          ∀ i device, devices[i]? = some device → device.Succeeds →
            gpuView p i = gpuView p' i := by
  intro h
  obtain ⟨p, hp, -⟩ := h sampleNvmlHost [sampleGpu, { sampleGpu with handle := .error }]
  have hraises : collectNvidia sampleNvmlHost [sampleGpu, { sampleGpu with handle := .error }] =
      none := rfl
  rw [hraises] at hp
  exact absurd hp (by simp)

end OoAgent
