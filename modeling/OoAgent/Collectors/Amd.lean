import OoAgent.Collectors.Hwmon.Chips

/-!
# AMD GPUs

`AmdGpuCollector` (`oo_agent/collectors/gpu_amd.py`) reads a GPU from the files of its device and
of the first hwmon directory there.  The temperatures go into a dictionary by their label in lower
case, so that channels of one label share a sensor.

* `DrmCard`, `cards` — the entries of `/sys/class/drm`, and those of AMD GPUs.
* `amdTemps` — `_temps`; `get_amdTemps` — the last channel of a label is the one kept.
* `amdReport`, `collectAmd` — the body of the loop, and `collect`; `none` where it raises.
* `amd_channels_once` — **each label of each GPU has one sensor**, with the last reading under it.
-/

namespace OoAgent

open PyText

/-! ## Cards -/

/-- The arithmetic on floats, with the quotient of two. -/
structure AmdCalls extends FloatCalls where
  /-- `x / y`, for a `y` other than 0. -/
  quotient : PyFloat → PyFloat → PyFloat

/-- An entry of `/sys/class/drm`, with the first of the hwmon directories of its device. -/
structure DrmCard where
  name : List Char
  device : ChipDir
  hwmon : Option ChipDir

/-- `card[0-9]*`. -/
def isCardName (name : List Char) : Bool :=
  "card".toList.isPrefixOf name && (name.drop 4).head?.any Char.isDigit

/-- `_AMD_VENDOR`. -/
def amdVendor : List Char := "0x1002".toList

/-- `_cards`. -/
def cards (entries : List DrmCard) : List DrmCard :=
  ((entries.filter fun card => isCardName card.name).insertionSort
    fun a b => a.name ≤ b.name).filter fun card =>
      '-' ∉ card.name ∧ card.device.readFile "vendor".toList = some amdVendor

/-! ## Temperatures -/

/-- The channel of a file `temp[0-9]*_input`. -/
def amdTempChannel (fname : List Char) : Option (List Char) :=
  if "temp".toList.isPrefixOf fname && ((fname.drop 4).head?.any Char.isDigit &&
      inputEnd.isSuffixOf (fname.drop 5)) then
    some (fname.take (fname.length - 6))
  else none

/-- An entry of `_temps`. -/
structure AmdTemp where
  value : PyFloat
  max : Option PyFloat
  crit : Option PyFloat

/-- A limit that is kept: above 0 and at most 250. -/
def amdLimit (calls : AmdCalls) (dir : ChipDir) (name : List Char) : Option PyFloat :=
  ((dir.readNum calls.toFloatCalls name 1000).filter fun x => x.above 0 && !x.above 250).map
    fun x => calls.round x 1

/-- `label.lower()`, of the label of the channel or its name. -/
def amdLabel (dir : ChipDir) (channel : List Char) : List Char :=
  lowerAscii (if dir.label channel = [] then channel else dir.label channel)

/-- What the loop of `_temps` stores for a file, if anything, and under which label. -/
def amdTemp (calls : AmdCalls) (dir : ChipDir) (fname : List Char) :
    Option (List Char × AmdTemp) := do
  let channel ← amdTempChannel fname
  let value ← dir.readNum calls.toFloatCalls fname 1000
  guard (¬ (value.below (-50) = true ∨ value.above 200 = true))
  return (amdLabel dir channel,
    { value := calls.round value 1
      max := amdLimit calls dir (channel ++ "_crit".toList)
      crit := amdLimit calls dir (channel ++ "_emergency".toList) })

/-- `_temps`. -/
def amdTemps (calls : AmdCalls) (dir : ChipDir) : Dict (List Char) AmdTemp :=
  Dict.update [] (dir.names.filterMap (amdTemp calls dir))

/-! ## One GPU -/

/-- What is made of a reading, if there is one; `none` where that raises. -/
def ofReading {α β : Type} (f : α → Option β) : Option α → Option (Option β)
  | none => some none
  | some a => (f a).map some

/-- A reading, unless it is 0 or missing. -/
def orZero (x : Option PyFloat) : Option PyFloat := x.filter PyFloat.truthy

/-- `fan_pct`. -/
def amdFan (calls : AmdCalls) (hwmon : ChipDir) : Option (Option ℤ) :=
  let top := (orZero (hwmon.readNum calls.toFloatCalls "pwm1_max".toList 1)).getD (.finite 255)
  ofReading (fun pwm => (calls.mul (calls.quotient pwm top) 100).roundInt)
    ((hwmon.readNum calls.toFloatCalls "pwm1".toList 1).filter fun _ => top.above 0)

/-- `power_w`. -/
def amdPower (calls : AmdCalls) (hwmon : ChipDir) : Option PyFloat :=
  (orZero (hwmon.readNum calls.toFloatCalls "power1_average".toList 1000000)).or
    (hwmon.readNum calls.toFloatCalls "power1_input".toList 1000000)

/-- The metrics of the memory, if both numbers are known and there is some; `none` where they
cannot be rounded. -/
def amdMemory (calls : AmdCalls) (used total : Option PyFloat) : Option (Option GpuMemory) :=
  match used, orZero total with
  | some used, some total => do
    let bytesUsed ← used.trunc
    let bytesTotal ← total.trunc
    return some
      { used := .int bytesUsed
        total := .int bytesTotal
        pused := .float (calls.round (calls.mul (calls.quotient used total) 100) 1) }
  | _, _ => some none

/-- `f"gpu:amd{index}/{label}"`. -/
def amdId (index : ℕ) (label : List Char) : String :=
  "gpu:amd" ++ Nat.repr index ++ String.ofList ('/' :: label)

/-- The sensor of a temperature. -/
def amdSensor (index : ℕ) (name : String) (item : List Char × AmdTemp) : Sensor where
  id := amdId index item.1
  name := name ++ " · " ++ String.ofList item.1
  kind := if item.1 = "mem".toList then "vram" else "gpu"
  value := .float item.2.value
  unit := "C"
  limits := deviceLimits [("max", item.2.max.map .float), ("crit", item.2.crit.map .float)]

/-- What the loop adds for one GPU. -/
structure AmdReport where
  entry : Value
  gpu : AmdGpu
  sensors : List Sensor

/-- The temperatures of a card. -/
def DrmCard.temps (calls : AmdCalls) (card : DrmCard) : Dict (List Char) AmdTemp :=
  (card.hwmon.map (amdTemps calls)).getD []

/-- `name`. -/
def DrmCard.gpuName (card : DrmCard) : String :=
  "AMD GPU " ++ String.ofList
    (((card.device.readFile "device".toList).filter (· ≠ [])).getD "unknown".toList)

/-- The body of the loop in `AmdGpuCollector.collect`; `none` where it raises. -/
def amdReport (calls : AmdCalls) (index : ℕ) (card : DrmCard) : Option AmdReport := do
  let num (name : String) := card.device.readNum calls.toFloatCalls name.toList 1
  let load := num "gpu_busy_percent"
  let used := num "mem_info_vram_used"
  let total := num "mem_info_vram_total"
  let temps := card.temps calls
  let core := (temps.get "junction".toList).or (temps.get "edge".toList)
  let power := card.hwmon.bind (amdPower calls)
  let fan ← (card.hwmon.map (amdFan calls)).getD (some none)
  let megabytes (x : Option PyFloat) :=
    ofReading (fun x => (calls.div x (1024 ^ 2)).roundInt) (orZero x)
  let loadPct ← ofReading PyFloat.roundInt load
  let usedMb ← megabytes used
  let totalMb ← megabytes total
  let memory ← amdMemory calls used total
  let shown (x : Option ℤ) : Value := (x.map Value.int).getD .none
  let celsius (x : Option AmdTemp) : Value := (x.map fun temp => .float temp.value).getD .none
  let watts := power.map fun x => Value.float (calls.round x 1)
  return {
    entry := .dict
      [(.str "vendor", .str "amd"), (.str "name", .str card.gpuName), (.str "load", shown loadPct),
        (.str "memUsedMb", shown usedMb), (.str "memTotalMb", shown totalMb),
        (.str "coreTempC", celsius core), (.str "vramTempC", celsius (temps.get "mem".toList)),
        (.str "powerW", watts.getD .none), (.str "fanPct", shown fan)]
    gpu := { load := load.map fun x => .float (calls.round x 1), memory := memory, powerW := watts }
    sensors := temps.map (amdSensor index card.gpuName) }

/-- What is returned after the loop. -/
def amdPayload (reports : List AmdReport) : Produced where
  readings := .gpuAmd (reports.map AmdReport.gpu)
  sensors := reports.flatMap AmdReport.sensors
  inventory := [(.str "gpus", .list (reports.map AmdReport.entry))]

/-- The loop over the GPUs. -/
def amdReports (calls : AmdCalls) (entries : List DrmCard) : Option (List AmdReport) :=
  (cards entries).zipIdx.mapM fun (card, index) => amdReport calls index card

/-- `AmdGpuCollector.collect`; `none` where it raises. -/
def collectAmd (calls : AmdCalls) (entries : List DrmCard) : Option Produced :=
  (amdReports calls entries).map amdPayload

/-! ## One sensor for each label -/

theorem amdId_inj {i j : ℕ} {label label' : List Char} (h : amdId i label = amdId j label') :
    i = j ∧ label = label' := by
  have hlist := congrArg String.toList h
  simp only [amdId, String.toList_append, String.toList_ofList, List.append_assoc,
    List.append_cancel_left_eq] at hlist
  have hslash (n : ℕ) : '/' ∉ (Nat.repr n).toList := by
    intro hmem
    rw [Nat.toList_repr] at hmem
    exact absurd (isDigit_of_mem_toDigits _ hmem) (by decide)
  have hsplit := congrArg (splitOnce '/') hlist
  rw [splitOnce_append (hslash i), splitOnce_append (hslash j), Prod.mk.injEq] at hsplit
  exact ⟨Nat.repr_injective (String.toList_injective hsplit.1), hsplit.2⟩

/-- The channel of a label that counts: no later file has a temperature under the label. -/
def LastTemp (calls : AmdCalls) (dir : ChipDir) (label : List Char) (temp : AmdTemp) : Prop :=
  ∃ before fname after, dir.names = before ++ fname :: after ∧
    amdTemp calls dir fname = some (label, temp) ∧
    ∀ later ∈ after, ∀ temp', amdTemp calls dir later ≠ some (label, temp')

/-- **The last channel of a label is the one kept.** -/
theorem get_amdTemps {calls : AmdCalls} {dir : ChipDir} {label : List Char} {temp : AmdTemp} :
    (amdTemps calls dir).get label = some temp ↔ LastTemp calls dir label temp :=
  Dict.get_update_filterMap

theorem nodup_temps (calls : AmdCalls) (card : DrmCard) :
    ((card.temps calls).map Prod.fst).Nodup := by
  have hempty : (([] : Dict (List Char) AmdTemp).map Prod.fst).Nodup := List.nodup_nil
  unfold DrmCard.temps
  cases card.hwmon with
  | none => exact hempty
  | some hwmon => exact Dict.nodup_update hempty _

theorem mem_temps {calls : AmdCalls} {card : DrmCard} {label : List Char} {temp : AmdTemp} :
    (label, temp) ∈ card.temps calls ↔
      ∃ hwmon, card.hwmon = some hwmon ∧ LastTemp calls hwmon label temp := by
  have hget : (label, temp) ∈ card.temps calls ↔ (card.temps calls).get label = some temp :=
    ⟨Dict.get_of_mem (nodup_temps calls card), Dict.mem_of_get⟩
  rw [hget]
  unfold DrmCard.temps
  cases card.hwmon with
  | none => simp
  | some hwmon =>
    rw [Option.map_some, Option.getD_some, get_amdTemps]
    simp

theorem sensors_amdReport {calls : AmdCalls} {index : ℕ} {card : DrmCard} {report : AmdReport}
    (h : amdReport calls index card = some report) :
    report.sensors = (card.temps calls).map (amdSensor index card.gpuName) := by
  simp only [amdReport, Option.bind_eq_bind, Option.bind_eq_some_iff, Option.pure_def,
    Option.some.injEq] at h
  obtain ⟨fan, -, load, -, used, -, total, -, memory, -, rfl⟩ := h
  rfl

/-- The sensors of a pass are those of the temperatures of the cards. -/
theorem sensors_collectAmd {calls : AmdCalls} {entries : List DrmCard} {payload : Produced}
    (h : collectAmd calls entries = some payload) :
    payload.sensors = (cards entries).zipIdx.flatMap fun (card, index) =>
      (card.temps calls).map (amdSensor index card.gpuName) := by
  obtain ⟨reports, hreports, rfl⟩ := Option.map_eq_some_iff.1 h
  change reports.flatMap AmdReport.sensors = _
  rw [List.flatMap_def, List.flatMap_def]
  congr 1
  exact Traverse.map_of_mapM hreports fun item _ report hreport => sensors_amdReport hreport

/-- **Each label of each GPU has one sensor.**  Whatever the files hold, the ids of the sensors are
distinct, and the sensor of a label shows the last channel with that label. -/
theorem amd_channels_once {calls : AmdCalls} {entries : List DrmCard} {payload : Produced}
    (h : collectAmd calls entries = some payload) :
    (payload.sensors.map Sensor.id).Nodup ∧
    ∀ sensor, sensor ∈ payload.sensors ↔
      ∃ index card hwmon label temp, (cards entries)[index]? = some card ∧
        card.hwmon = some hwmon ∧ LastTemp calls hwmon label temp ∧
        sensor = amdSensor index card.gpuName (label, temp) := by
  rw [sensors_collectAmd h]
  constructor
  · rw [List.map_flatMap, List.nodup_flatMap]
    refine ⟨?_, ?_⟩
    · rintro ⟨card, index⟩ -
      rw [List.map_map]
      have hids : Sensor.id ∘ amdSensor index card.gpuName = amdId index ∘ Prod.fst := rfl
      rw [hids, ← List.map_map]
      exact (nodup_temps calls card).map fun label label' heq => (amdId_inj heq).2
    · have hindices : ((cards entries).zipIdx.map Prod.snd).Nodup := by
        rw [List.zipIdx_map_snd]
        exact List.nodup_range'
      refine (List.pairwise_map.1 hindices).imp ?_
      rintro ⟨card, i⟩ ⟨card', j⟩ hne id hid hid'
      obtain ⟨sensor, hsensor, rfl⟩ := List.mem_map.1 hid
      obtain ⟨sensor', hsensor', heq⟩ := List.mem_map.1 hid'
      obtain ⟨item, -, rfl⟩ := List.mem_map.1 hsensor
      obtain ⟨item', -, rfl⟩ := List.mem_map.1 hsensor'
      exact hne (amdId_inj heq).1.symm
  · intro sensor
    simp only [List.mem_flatMap, List.mem_map, Prod.exists, List.mem_zipIdx_iff_getElem?, mem_temps]
    constructor
    · rintro ⟨card, index, hcard, label, temp, ⟨hwmon, hhwmon, hlast⟩, rfl⟩
      exact ⟨index, card, hwmon, label, temp, hcard, hhwmon, hlast, rfl⟩
    · rintro ⟨index, card, hwmon, label, temp, hcard, hhwmon, hlast, rfl⟩
      exact ⟨card, index, hcard, label, temp, ⟨hwmon, hhwmon, hlast⟩, rfl⟩

/-- The device of an AMD GPU. -/
def sampleDevice : ChipDir where
  files := [("vendor".toList, some "0x1002\n".toList)]
  nodup := List.nodup_singleton _
  plain := by
    show ∀ name ∈ ["vendor".toList], '/' ∉ name
    decide +kernel

/-- Two temperatures, of one label but for its case. -/
def twoEdges : ChipDir where
  files := [("temp1_input".toList, some "51000\n".toList),
    ("temp1_label".toList, some "edge\n".toList),
    ("temp2_input".toList, some "63000\n".toList),
    ("temp2_label".toList, some "Edge\n".toList)]
  nodup := by
    show ["temp1_input".toList, "temp1_label".toList, "temp2_input".toList,
      "temp2_label".toList].Nodup
    decide +kernel
  plain := by
    show ∀ name ∈ ["temp1_input".toList, "temp1_label".toList, "temp2_input".toList,
      "temp2_label".toList], '/' ∉ name
    decide +kernel

def sampleCard : DrmCard :=
  { name := "card0".toList, device := sampleDevice, hwmon := some twoEdges }

/-- Arithmetic on finite floats alone. -/
def sampleAmdCalls : AmdCalls :=
  { sampleFloats with
    quotient := fun x y =>
      match x, y with
      | .finite p, .finite q => .finite (p / q)
      | _, _ => .nan }

theorem amd_channels_once_edge :
    ∃ payload, collectAmd sampleAmdCalls [sampleCard] = some payload ∧
      (payload.sensors.map Sensor.id).Nodup := by
  have hsome : (collectAmd sampleAmdCalls [sampleCard]).isSome = true := by decide +kernel
  obtain ⟨payload, hpayload⟩ := Option.isSome_iff_exists.1 hsome
  exact ⟨payload, hpayload, (amd_channels_once hpayload).1⟩

end OoAgent
