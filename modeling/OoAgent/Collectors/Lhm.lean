import OoAgent.Collectors.Hardware.Dmidecode
import OoAgent.Collectors.Payloads
import OoAgent.Lib.Forest
import OoAgent.Python.Float

/-!
# Sensors of LibreHardwareMonitor

`LhmSensorsCollector` (`oo_agent/collectors/sensors_lhm.py`) walks a tree of hardware, with a list
that every step of the walk appends to.  An NVIDIA GPU is left alone, with all that is below it,
unless the options ask for it.

* `Hardware`, `lhmSensor` — a piece of hardware, and what is reported of one of its sensors.
* `lhmWalk`, `collectLhm` — `_walk` and `collect`; `none` where `Update()` raises.
* `collectLhm_eq` — the walk appends what each piece of hardware it meets reports.
* `lhm_follows_tree` — **the report follows the tree**: the sensors of the hardware under no NVIDIA
  GPU, in the order of the tree.
-/

namespace OoAgent

/-! ## Hardware -/

/-- A sensor of a piece of hardware. -/
structure LhmReading where
  sensorType : String
  identifier : String
  name : String
  /-- `Value`; `none` for `None`. -/
  value : Option PyFloat

/-- A piece of hardware; its `SubHardware` are the children of its node. -/
structure Hardware where
  /-- `Update()` raises. -/
  raises : Bool
  hardwareType : String
  name : String
  sensors : List LhmReading

/-- `_UNITS`. -/
def lhmUnits : Dict String String :=
  [("Temperature", "C"), ("Fan", "rpm"), ("Voltage", "V"), ("Power", "W"), ("Current", "A"),
    ("Control", "%")]

/-- `_KIND_BY_HARDWARE`. -/
def kindByHardware : Dict String String :=
  [("Cpu", "cpu"), ("Motherboard", "board"), ("SuperIO", "board"), ("Memory", "ram"),
    ("Storage", "disk"), ("GpuNvidia", "gpu"), ("GpuAmd", "gpu"), ("GpuIntel", "gpu")]

/-- `_kind`. -/
def lhmKind (hardwareType sensorName : String) : String :=
  let kind := (kindByHardware.get hardwareType).getD "board"
  let lowered := lowerKelvin sensorName.toList
  let has (word : String) : Bool := word.toList <:+: lowered
  if kind = "cpu" && has "core" && !has "package" then "core"
  else if kind = "gpu" && (has "memory" || has "hot spot") then
    -- the memory junction of a GPU is on the scale of its VRAM
    if has "memory" then "vram" else "gpu"
  else if kind = "board" && (has "pch" || has "chipset") then "chipset"
  else kind

/-- `f"lhm:{sensor.Identifier}"`. -/
def lhmId (identifier : String) : String := "lhm:" ++ identifier

/-- What the loop over the sensors appends for one of them, if anything. -/
def lhmSensor (calls : FloatCalls) (hardware : Hardware) (sensor : LhmReading) : Option Sensor := do
  let unit ← lhmUnits.get sensor.sensorType
  let value ← sensor.value
  guard (¬ (unit = "C" ∧ (value.below (-50) = true ∨ value.above 200 = true)))
  return {
    id := lhmId sensor.identifier
    name := hardware.name ++ " · " ++ sensor.name
    kind := lhmKind hardware.hardwareType sensor.name
    value := .float (calls.round value 1)
    unit := unit
    limits := [] }

/-! ## The walk -/

/-- `self._include_nvidia`. -/
def includeNvidia (options : Dict String Value) : Bool :=
  ((options.get "nvidia").getD (.bool false)).truthy

/-- The walk goes on after `Update()`. -/
def entersLhm (options : Dict String Value) (hardware : Hardware) : Bool :=
  !(hardware.hardwareType = "GpuNvidia" && !includeNvidia options)

mutual

/-- `_walk`, from the sensors so far. -/
def lhmWalk (calls : FloatCalls) (options : Dict String Value) (sensors : List Sensor) :
    Rose Hardware → Option (List Sensor)
  | .node hardware subs =>
    if hardware.raises then none
    else if !entersLhm options hardware then some sensors
    else
      lhmWalkAll calls options
        (hardware.sensors.foldl
          (fun sensors sensor => sensors ++ (lhmSensor calls hardware sensor).toList) sensors)
        subs

/-- The loop over hardware. -/
def lhmWalkAll (calls : FloatCalls) (options : Dict String Value) (sensors : List Sensor) :
    List (Rose Hardware) → Option (List Sensor)
  | [] => some sensors
  | sub :: subs => (lhmWalk calls options sensors sub).bind fun sensors =>
      lhmWalkAll calls options sensors subs

end

/-- The sensors of `LhmSensorsCollector.collect`; `none` where it raises. -/
def collectLhm (calls : FloatCalls) (options : Dict String Value)
    (computer : List (Rose Hardware)) : Option (List Sensor) :=
  lhmWalkAll calls options [] computer

/-! ## What the walk appends -/

/-- What a piece of hardware reports. -/
def lhmReports (calls : FloatCalls) (options : Dict String Value) (hardware : Hardware) :
    List Sensor :=
  if entersLhm options hardware then hardware.sensors.filterMap (lhmSensor calls hardware) else []

section

variable {calls : FloatCalls} {options : Dict String Value}

theorem foldl_lhmSensor (hardware : Hardware) (readings : List LhmReading)
    (sensors : List Sensor) :
    readings.foldl (fun sensors sensor => sensors ++ (lhmSensor calls hardware sensor).toList)
        sensors =
      sensors ++ readings.filterMap (lhmSensor calls hardware) := by
  induction readings generalizing sensors with
  | nil => simp
  | cons reading readings ih =>
    rw [List.foldl_cons, ih, List.append_assoc, List.filterMap_cons]
    cases lhmSensor calls hardware reading <;> rfl

mutual

/-- The walk through a tree appends the reports of what it meets, unless some of that raises. -/
theorem lhmWalk_eq (sensors : List Sensor) :
    ∀ tree, lhmWalk calls options sensors tree =
      if (Forest.visitsOf (entersLhm options) tree).any Hardware.raises then none
      else some (sensors ++
        (Forest.visitsOf (entersLhm options) tree).flatMap (lhmReports calls options))
  | .node hardware subs => by
    rw [lhmWalk, Forest.visitsOf, List.any_cons, List.flatMap_cons, lhmReports]
    cases hraises : hardware.raises with
    | true => rfl
    | false =>
      cases henters : entersLhm options hardware with
      | false => simp
      | true =>
        simp only [Bool.not_true, Bool.false_eq_true, if_false, if_true, Bool.false_or]
        rw [lhmWalkAll_eq, foldl_lhmSensor, List.append_assoc]

theorem lhmWalkAll_eq (sensors : List Sensor) :
    ∀ trees, lhmWalkAll calls options sensors trees =
      if (Forest.visits (entersLhm options) trees).any Hardware.raises then none
      else some (sensors ++
        (Forest.visits (entersLhm options) trees).flatMap (lhmReports calls options))
  | [] => by
    rw [lhmWalkAll, Forest.visits, List.flatMap_nil, List.append_nil]
    rfl
  | tree :: trees => by
    rw [lhmWalkAll, Forest.visits, List.any_append, List.flatMap_append, lhmWalk_eq sensors tree]
    cases (Forest.visitsOf (entersLhm options) tree).any Hardware.raises with
    | true => rfl
    | false =>
      rw [Bool.false_or, ← List.append_assoc]
      exact lhmWalkAll_eq _ trees

end

/-- **`collect`** gathers the reports of the hardware the walk meets. -/
theorem collectLhm_eq (computer : List (Rose Hardware)) :
    collectLhm calls options computer =
      if (Forest.visits (entersLhm options) computer).any Hardware.raises then none
      else some ((Forest.visits (entersLhm options) computer).flatMap (lhmReports calls options)) :=
  lhmWalkAll_eq [] computer

end

/-- **The report follows the tree.**  `collect` raises exactly when a piece of hardware it reaches
does.  Otherwise it reports what the hardware reports whose path goes through no NVIDIA GPU that is
left alone, in the order of the paths. -/
theorem lhm_follows_tree (calls : FloatCalls) (options : Dict String Value)
    (computer : List (Rose Hardware)) :
    (collectLhm calls options computer = none ↔
      ∃ path hardware, Forest.Reached (entersLhm options) computer path ∧
        Forest.labelAt computer path = some hardware ∧ hardware.raises = true) ∧
    ∀ sensors, collectLhm calls options computer = some sensors →
      ∃ paths : List (List ℕ), paths.Pairwise (· < ·) ∧
        (∀ path, path ∈ paths ↔ Forest.Reached (entersLhm options) computer path) ∧
        sensors = paths.flatMap fun path =>
          (Forest.labelAt computer path).elim [] (lhmReports calls options) := by
  have hraises : (Forest.visits (entersLhm options) computer).any Hardware.raises = true ↔
      ∃ path hardware, Forest.Reached (entersLhm options) computer path ∧
        Forest.labelAt computer path = some hardware ∧ hardware.raises = true := by
    rw [List.any_eq_true]
    constructor
    · rintro ⟨hardware, hmem, hraises⟩
      obtain ⟨path, hreached, hlabel⟩ := Forest.mem_visits.1 hmem
      exact ⟨path, hardware, hreached, hlabel, hraises⟩
    · rintro ⟨path, hardware, hreached, hlabel, hraises⟩
      exact ⟨hardware, Forest.mem_visits.2 ⟨path, hreached, hlabel⟩, hraises⟩
  rw [← hraises, collectLhm_eq]
  constructor
  · simp
  · intro sensors hsensors
    refine ⟨Forest.paths (entersLhm options) computer, Forest.sorted_paths _ _,
      fun path => Forest.mem_paths, ?_⟩
    rw [Option.ite_none_left_eq_some] at hsensors
    rw [Forest.flatMap_paths]
    exact (Option.some.inj hsensors.2).symm

end OoAgent
