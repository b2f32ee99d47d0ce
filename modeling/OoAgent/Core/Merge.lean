import OoAgent.Lib.Dict
import OoAgent.Python.Value

/-!
# Merging collector payloads

`_merge` takes what a collector returned apart without knowing what it is: `metrics`
are written key by key, `sensors` are appended and mirrored into the metrics, lists of
the `inventory` are extended.  Whatever does not fit raises, and raises out of the
merge.

* `merge` — one payload into what the tick has assembled so far.
* `mergeable` — the shape a payload must have; `isSome_merge` — **the merge
  raises exactly on payloads without it**.
-/

namespace OoAgent

/-- The three channels of `result`. -/
structure Assembled where
  metrics : Dict String Value
  sensors : List Value
  inventory : Dict Key Value

/-- The channels before the first collector runs. -/
def Assembled.empty : Assembled := { metrics := [], sensors := [], inventory := [] }

/-! ## Taking a payload apart -/

/-- `(v or {}).items()`; `none` when there is no such method. -/
def itemsOf (v : Value) : Option (List (Key × Value)) :=
  if v.truthy then
    match v with
    | .dict items => some items
    | _ => none
  else some []

/-- A dictionary key as iteration hands it out. -/
def keyValue : Key → Value
  | .str s => .str s
  | .other n => .object n

/-- The elements a `for` loop over `v or []` sees; `none` when it cannot be iterated. -/
def elementsOf (v : Value) : Option (List Value) :=
  if v.truthy then
    match v with
    | .list items => some items
    | .tuple items => some items
    | .str s => some (s.toList.map fun c => .str (String.singleton c))
    | .dict items => some (items.map fun item => keyValue item.1)
    | _ => none
  else some []

/-- `_SENSOR_METRIC.get(unit)`. -/
def sensorMetric : Value → Option String
  | .str s =>
    if s = "C" then some "sensor.temp"
    else if s = "rpm" then some "sensor.fan"
    else if s = "V" then some "sensor.volt"
    else if s = "W" then some "sensor.power"
    else if s = "A" then some "sensor.curr"
    else none
  | _ => none

/-- `prefix + key`; `none` when the key is not a string. -/
def metricKey (pre : String) : Key → Option String
  | .str key => some (pre ++ key)
  | .other _ => none

/-- The loop over `metrics`. -/
def mergeMetrics (pre : String) (d : Dict String Value) (items : List (Key × Value)) :
    Option (Dict String Value) :=
  items.foldlM (fun d item => (metricKey pre item.1).map fun key => d.set key item.2) d

/-- The flat metric a sensor is mirrored to, if any; the outer `none` when the code
raises. -/
def mirrorOf : Value → Option (Option (String × Value))
  | .dict sensor =>
    let unit := Value.getD sensor "unit" (.str "")
    let value := Value.getD sensor "value" .none
    if !unit.hashable then none
    else
      match sensorMetric unit with
      | none => some none
      | some metric =>
        if value.isNumber then
          match Value.lookup sensor "id" with
          | none => none
          | some id =>
            if id.printable then some (some (metric ++ "[" ++ id.toStr ++ "]", value)) else none
        else some none
  | _ => none

/-- One turn of the loop over `sensors`. -/
def mergeSensor (a : Assembled) (sensor : Value) : Option Assembled :=
  (mirrorOf sensor).map fun mirror =>
    { a with sensors := a.sensors ++ [sensor], metrics := a.metrics.update mirror.toList }

/-- One turn of the loop over `inventory`: two lists are joined, everything else
replaces what was there. -/
def mergeInventory (d : Dict Key Value) (item : Key × Value) : Dict Key Value :=
  match d.get item.1, item.2 with
  | some (.list existing), .list value => d.set item.1 (.list (existing ++ value))
  | _, value => d.set item.1 value

/-- `_merge`; `none` when it raises. -/
def merge (pre : String) (a : Assembled) : Value → Option Assembled
  | .dict fields => do
    let metrics ← itemsOf (Value.getD fields "metrics" .none)
    let metrics ← mergeMetrics pre a.metrics metrics
    let sensors ← elementsOf (Value.getD fields "sensors" .none)
    let a ← sensors.foldlM mergeSensor { a with metrics := metrics }
    let inventory ← itemsOf (Value.getD fields "inventory" .none)
    return { a with inventory := inventory.foldl mergeInventory a.inventory }
  | _ => none

/-! ## The shape of a payload -/

/-- A false value stands for an empty field. -/
def emptyOr (shape : Value → Bool) (v : Value) : Bool := !v.truthy || shape v

/-- A dictionary with string keys. -/
def isMetrics : Value → Bool
  | .dict items => items.all fun item =>
    match item.1 with
    | .str _ => true
    | .other _ => false
  | _ => false

/-- A dictionary with a hashable unit, and with an `id` that prints when the unit has a
flat metric and the value is a number. -/
def isSensor : Value → Bool
  | .dict sensor =>
    (Value.getD sensor "unit" (.str "")).hashable &&
      (!((sensorMetric (Value.getD sensor "unit" (.str ""))).isSome &&
          (Value.getD sensor "value" .none).isNumber) ||
        (Value.lookup sensor "id").any Value.printable)
  | _ => false

/-- A list or tuple of sensors. -/
def isSensors : Value → Bool
  | .list items => items.all isSensor
  | .tuple items => items.all isSensor
  | _ => false

/-- A dictionary. -/
def isDict : Value → Bool
  | .dict _ => true
  | _ => false

/-- A payload as the collector contract describes it: a dictionary whose three fields
have their shapes. -/
def mergeable : Value → Bool
  | .dict fields =>
    emptyOr isMetrics (Value.getD fields "metrics" .none) &&
      (emptyOr isSensors (Value.getD fields "sensors" .none) &&
        emptyOr isDict (Value.getD fields "inventory" .none))
  | _ => false

/-! ## The merge raises exactly on other shapes -/

/-- A loop that raises on some elements raises when one of them comes. -/
theorem isSome_foldlM {σ ι : Type} {step : σ → ι → Option σ} {ok : ι → Bool}
    (h : ∀ s i, (step s i).isSome = ok i) (items : List ι) (s : σ) :
    (items.foldlM step s).isSome = items.all ok := by
  induction items generalizing s with
  | nil => rfl
  | cons i items ih =>
    rw [List.foldlM_cons, List.all_cons, ← h s i]
    cases step s i with
    | none => rfl
    | some s' => simpa using ih s'

theorem isSome_mergeMetrics (pre : String) (d : Dict String Value) (v : Value) :
    ((itemsOf v).bind (mergeMetrics pre d)).isSome = emptyOr isMetrics v := by
  unfold itemsOf emptyOr
  by_cases htruthy : v.truthy = true
  · cases v with
    | dict items =>
      simp only [htruthy, if_true, Bool.not_true, Bool.false_or, isMetrics,
        Option.bind_some, mergeMetrics]
      apply isSome_foldlM
      rintro d ⟨key, value⟩
      cases key <;> rfl
    | _ => simp [htruthy, isMetrics]
  · simp [htruthy, mergeMetrics]

theorem isSome_mergeSensor (a : Assembled) (sensor : Value) :
    (mergeSensor a sensor).isSome = isSensor sensor := by
  rw [mergeSensor, Option.isSome_map]
  cases sensor with
  | dict sensor =>
    simp only [mirrorOf, isSensor]
    generalize Value.getD sensor "unit" (.str "") = unit
    generalize Value.getD sensor "value" .none = value
    cases hhash : unit.hashable with
    | false => simp
    | true =>
      cases hmetric : sensorMetric unit with
      | none => simp
      | some metric =>
        cases hnumber : value.isNumber with
        | false => simp
        | true =>
          cases hid : Value.lookup sensor "id" with
          | none => simp
          | some id => cases hprint : id.printable <;> simp [hprint]
  | _ => rfl

/-- Sensors come in lists and tuples only: what a loop over anything else sees is none. -/
theorem all_isSensor_elementsOf {v : Value} {elements : List Value} (htruthy : v.truthy = true)
    (h : elementsOf v = some elements) : elements.all isSensor = isSensors v := by
  unfold elementsOf at h
  rw [if_pos htruthy] at h
  cases v with
  | list items => rw [← Option.some.inj h]; rfl
  | tuple items => rw [← Option.some.inj h]; rfl
  | str s =>
    rw [← Option.some.inj h]
    have hne : s.toList ≠ [] := by
      intro hnil
      have hs : s = "" := String.toList_inj.1 hnil
      rw [hs] at htruthy
      exact absurd htruthy (by decide)
    obtain ⟨c, cs, hcs⟩ := List.exists_cons_of_ne_nil hne
    rw [hcs]
    rfl
  | dict items =>
    rw [← Option.some.inj h]
    cases items with
    | nil => exact absurd htruthy (by decide)
    | cons item items =>
      obtain ⟨key, value⟩ := item
      cases key <;> rfl
  | _ => exact absurd h (by simp)

theorem isSome_mergeSensors (a : Assembled) (v : Value) :
    ((elementsOf v).bind fun elements => elements.foldlM mergeSensor a).isSome =
      emptyOr isSensors v := by
  unfold emptyOr
  by_cases htruthy : v.truthy = true
  · cases helements : elementsOf v with
    | none =>
      unfold elementsOf at helements
      cases v <;> simp_all [isSensors]
    | some elements =>
      rw [Option.bind_some, isSome_foldlM isSome_mergeSensor,
        all_isSensor_elementsOf htruthy helements, htruthy]
      rfl
  · simp [elementsOf, htruthy]

theorem isSome_inventory (v : Value) : (itemsOf v).isSome = emptyOr isDict v := by
  unfold itemsOf emptyOr
  by_cases htruthy : v.truthy = true
  · cases v <;> simp [htruthy, isDict]
  · simp [htruthy]

/-- **The merge raises exactly on payloads of another shape.** -/
theorem isSome_merge (pre : String) (a : Assembled) (payload : Value) :
    (merge pre a payload).isSome = mergeable payload := by
  cases payload with
  | dict fields =>
    simp only [merge, mergeable, bind, pure]
    generalize Value.getD fields "metrics" .none = metrics
    generalize Value.getD fields "sensors" .none = sensors
    generalize Value.getD fields "inventory" .none = inventory
    rw [← isSome_mergeMetrics pre a.metrics metrics, ← isSome_inventory inventory]
    cases hitems : itemsOf metrics with
    | none => rfl
    | some items =>
      simp only [Option.bind_some]
      cases hmetrics : mergeMetrics pre a.metrics items with
      | none => rfl
      | some written =>
        simp only [Option.bind_some]
        rw [← isSome_mergeSensors { a with metrics := written } sensors]
        cases helements : elementsOf sensors with
        | none => rfl
        | some elements =>
          simp only [Option.bind_some]
          cases elements.foldlM mergeSensor { a with metrics := written } with
          | none => rfl
          | some a' => cases hinventory : itemsOf inventory <;> simp
  | _ => rfl

end OoAgent
