import OoAgent.Core.Channels

/-!
# The sensor mirror

A sensor with one of five units and a number for its value is written into the metrics as
well, under `sensor.<kind>[<id>]`.  The key says which sensor it comes from, since no kind
has a bracket in it, and a plugin's own metrics cannot get in the way, since they carry the
prefix `custom.`.

* `sensors_runOnce` — the sensors of a run are those of its payloads, in the order of the
  jobs.
* `Mirrored` — what the mirror of a sensor is.
* `sensor_mirror_coherent` — **the two channels agree**: every such sensor is found in the
  metrics, and every such key comes from one sensor.
-/

namespace OoAgent

/-! ## The sensors of a run -/

/-- The sensors a payload lists. -/
def sensorsOf : Value → List Value
  | .dict fields => (elementsOf (Value.getD fields "sensors" .none)).getD []
  | _ => []

/-- The metric keys a payload lists. -/
def metricKeysOf : Value → List String
  | .dict fields =>
    (metricWrites "" ((itemsOf (Value.getD fields "metrics" .none)).getD [])).map Prod.fst
  | _ => []

/-- The sensors of one job. -/
def Job.sensors (j : Job) : List Value := (j.payload.map sensorsOf).getD []

/-- The metric keys the collector of a job emits itself. -/
def Job.metricKeys (j : Job) : List String := (j.payload.map metricKeysOf).getD []

theorem sensors_mergeSensors {a a' : Assembled} {sensors : List Value}
    (h : sensors.foldlM mergeSensor a = some a') : a'.sensors = a.sensors ++ sensors := by
  induction sensors generalizing a with
  | nil =>
    obtain rfl := Option.some.inj h
    exact (List.append_nil _).symm
  | cons sensor sensors ih =>
    rw [List.foldlM_cons] at h
    obtain ⟨b, hb, h⟩ := Option.bind_eq_some_iff.1 h
    obtain ⟨mirror, -, rfl⟩ := Option.map_eq_some_iff.1 hb
    rw [ih h, List.append_assoc, List.singleton_append]

theorem sensors_merge {pre : String} {a a' : Assembled} {payload : Value}
    (h : merge pre a payload = some a') : a'.sensors = a.sensors ++ sensorsOf payload := by
  cases payload with
  | dict fields =>
    simp only [merge, bind, pure, Option.bind_eq_some_iff] at h
    obtain ⟨items, -, written, -, elements, helements, b, hsensors, inventory, -, h⟩ := h
    have hlist := sensors_mergeSensors hsensors
    rwa [← Option.some.inj h, sensorsOf, helements, Option.getD_some]
  | _ => exact absurd h (by simp [merge])

/-- **The sensors of a run** are those of its payloads, in the order of the jobs. -/
theorem sensors_runOnce {ts : Int} {now : Time} {jobs : List Job} {p : PushPayload}
    (h : (runOnce ts now jobs).2 = some p) : p.sensors = jobs.flatMap Job.sensors := by
  simp only [runOnce, Option.map_eq_some_iff] at h
  obtain ⟨a, ha, rfl⟩ := h
  have hfold := @channel_runJobs _ Assembled.sensors (fun sensors j => sensors ++ j.sensors)
    (fun hpayload hb => by rw [sensors_merge hb, Job.sensors, hpayload]; rfl)
    (fun sensors hpayload => by rw [Job.sensors, hpayload]; exact List.append_nil _) _ _ _ ha
  rw [List.flatMap_eq_foldl]
  exact hfold

/-- A payload that merges has sensors only where the mirror looks for them. -/
theorem isSome_mirrorOf_of_mergeable {payload sensor : Value} (h : mergeable payload = true)
    (hsensor : sensor ∈ sensorsOf payload) : (mirrorOf sensor).isSome = true := by
  cases payload with
  | dict fields =>
    simp only [mergeable, emptyOr, Bool.and_eq_true, Bool.or_eq_true, Bool.not_eq_true'] at h
    simp only [sensorsOf] at hsensor
    rcases h.2.1 with hfalse | hshape
    · simp [elementsOf, hfalse] at hsensor
    · cases helements : elementsOf (Value.getD fields "sensors" .none) with
      | none => simp [helements] at hsensor
      | some elements =>
        rw [helements, Option.getD_some] at hsensor
        by_cases htruthy : (Value.getD fields "sensors" .none).truthy = true
        · rw [← all_isSensor_elementsOf htruthy helements, List.all_eq_true] at hshape
          rw [← hshape sensor hsensor, ← isSome_mergeSensor .empty sensor, mergeSensor,
            Option.isSome_map]
        · simp only [elementsOf, htruthy] at helements
          rw [← Option.some.inj helements] at hsensor
          exact absurd hsensor List.not_mem_nil
  | _ => exact absurd h (by simp [mergeable])

/-- The payload of a harmless entry merges. -/
theorem mergeable_of_harmless {j : Job} (h : j.runs = true → j.harmless = true) {v : Value}
    (hv : j.payload = some v) : mergeable v = true := by
  unfold Job.payload at hv
  split at hv
  · rename_i w hruns hcall
    have hj := h hruns
    simp only [Job.harmless, hcall] at hj
    rw [← Option.some.inj hv, mergeable_orElse]
    exact hj
  · exact absurd hv (by simp)

/-- None of the sensors of a run made the mirror raise. -/
theorem isSome_mirrorOf_of_runOnce {ts : Int} {now : Time} {jobs : List Job} {p : PushPayload}
    (h : (runOnce ts now jobs).2 = some p) {sensor : Value}
    (hsensor : sensor ∈ jobs.flatMap Job.sensors) : (mirrorOf sensor).isSome = true := by
  obtain ⟨a, ha, -⟩ := Option.map_eq_some_iff.1 h
  have hran : (runJobs .empty jobs).2.isSome = true := by rw [ha]; rfl
  obtain ⟨j, hj, hsensor⟩ := List.mem_flatMap.1 hsensor
  cases hpayload : j.payload with
  | none => simp [Job.sensors, hpayload] at hsensor
  | some v =>
    simp only [Job.sensors, hpayload, Option.map_some, Option.getD_some] at hsensor
    exact isSome_mirrorOf_of_mergeable
      (mergeable_of_harmless ((isSome_runJobs .empty jobs).1 hran j hj) hpayload) hsensor

/-! ## Mirror keys -/

/-- A key of the form `sensor.<kind>[...]`. -/
def IsMirrorKey (key : String) : Prop :=
  ∃ metric ∈ mirrorFamilies, ∃ id, key = metric ++ "[" ++ id ++ "]"

/-- The `id` of a sensor, as text. -/
def sensorId : Value → Option String
  | .dict fields => (Value.lookup fields "id").map Value.toStr
  | _ => none

/-- Sensor ids are pairwise distinct. -/
def DistinctIds (sensors : List Value) : Prop := (sensors.filterMap sensorId).Nodup

theorem Mirrored.isMirrorKey {sensor value : Value} {key : String}
    (h : Mirrored sensor key value) : IsMirrorKey key := by
  obtain ⟨fields, metric, id, -, hmetric, -, -, -, rfl⟩ := h
  exact ⟨metric, sensorMetric_mem hmetric, id.toStr, rfl⟩

/-- A mirror key ends the name of its metric with the first bracket. -/
theorem splitOnce_mirrorKey {metric : String} (h : metric ∈ mirrorFamilies) (id : String) :
    PyText.splitOnce '[' (metric ++ "[" ++ id ++ "]").toList =
      (metric.toList, id.toList ++ [']']) := by
  have hbracket : ∀ m ∈ mirrorFamilies, '[' ∉ m.toList := by decide
  have htext : (metric ++ "[" ++ id ++ "]").toList =
      metric.toList ++ '[' :: (id.toList ++ [']']) := by simp
  rw [htext, PyText.splitOnce_append (hbracket metric h)]

/-- **The key says which sensor it comes from.** -/
theorem Mirrored.sensorId_eq {sensor sensor' value value' : Value} {key : String}
    (h : Mirrored sensor key value) (h' : Mirrored sensor' key value') :
    ∃ id, sensorId sensor = some id ∧ sensorId sensor' = some id := by
  obtain ⟨fields, metric, id, rfl, hmetric, -, -, hid, hkey⟩ := h
  obtain ⟨fields', metric', id', rfl, hmetric', -, -, hid', hkey'⟩ := h'
  have hsplit := splitOnce_mirrorKey (sensorMetric_mem hmetric) id.toStr
  rw [← hkey, hkey', splitOnce_mirrorKey (sensorMetric_mem hmetric') id'.toStr] at hsplit
  have hsame : id'.toStr = id.toStr := by
    simpa [String.toList_inj] using congrArg Prod.snd hsplit
  exact ⟨id.toStr, by simp [sensorId, hid], by simp [sensorId, hid', hsame]⟩

/-- Two sensors of a list with distinct ids that share a key are one. -/
theorem Mirrored.eq_of_distinct {sensors : List Value} (hids : DistinctIds sensors)
    {i j : Nat} (hi : i < sensors.length) (hj : j < sensors.length) {key : String}
    {value value' : Value} (h : Mirrored sensors[i] key value)
    (h' : Mirrored sensors[j] key value') : i = j := by
  obtain ⟨id, hid, hid'⟩ := h.sensorId_eq h'
  rw [DistinctIds, List.Nodup, List.pairwise_filterMap, List.pairwise_iff_getElem] at hids
  rcases lt_trichotomy i j with hlt | heq | hlt
  · exact absurd rfl (hids i j hi hj hlt id hid id hid')
  · exact heq
  · exact absurd rfl (hids j i hj hi hlt id hid' id hid)

/-- The value of a mirror is the one of its sensor. -/
theorem Mirrored.value_eq {sensor value value' : Value} {key key' : String}
    (h : Mirrored sensor key value) (h' : Mirrored sensor key' value') : value = value' := by
  obtain ⟨fields, -, -, rfl, -, hvalue, -⟩ := h
  obtain ⟨fields', -, -, hfields, -, hvalue', -⟩ := h'
  cases hfields
  exact hvalue.symm.trans hvalue'

/-! ## The writes of a run -/

/-- Every mirror key begins with an `s`. -/
theorem IsMirrorKey.head? {key : String} (h : IsMirrorKey key) : key.toList.head? = some 's' := by
  obtain ⟨metric, hmetric, id, rfl⟩ := h
  have hhead : ∀ m ∈ mirrorFamilies, m.toList.head? = some 's' := by decide
  simp [List.head?_append, hhead metric hmetric]

/-- A key with the prefix of a plugin is no mirror key. -/
theorem not_isMirrorKey_custom (rest : String) : ¬ IsMirrorKey ("custom." ++ rest) := by
  intro h
  have hhead := h.head?
  simp at hhead

theorem mem_metricWrites {pre key : String} {value : Value} {items : List (Key × Value)}
    (h : (key, value) ∈ metricWrites pre items) :
    ∃ own ∈ (metricWrites "" items).map Prod.fst, key = pre ++ own := by
  obtain ⟨⟨k, v⟩, hitem, hwrite⟩ := List.mem_filterMap.1 h
  cases k with
  | str own =>
    cases hwrite
    refine ⟨own, List.mem_map.2 ⟨(own, v), List.mem_filterMap.2 ⟨_, hitem, ?_⟩, rfl⟩, rfl⟩
    simp [metricKey]
  | other n => exact absurd hwrite (by simp [metricKey])

/-- **What a payload writes**: its metrics under the prefix, or the mirror of a sensor. -/
theorem mem_writes {pre key : String} {value payload : Value}
    (h : (key, value) ∈ writes pre payload) :
    (∃ own ∈ metricKeysOf payload, key = pre ++ own) ∨
      ∃ sensor ∈ sensorsOf payload, Mirrored sensor key value := by
  cases payload with
  | dict fields =>
    rcases List.mem_append.1 h with h | h
    · exact .inl (mem_metricWrites h)
    · obtain ⟨sensor, hsensor, hmirror⟩ := List.mem_filterMap.1 h
      exact .inr ⟨sensor, hsensor, mirrored_of_mirrorOf (Option.join_eq_some_iff.1 hmirror)⟩
  | _ => exact absurd h (by simp [writes])

/-- No collector emits a mirror key itself; what plugins emit is prefixed anyway. -/
def NoOwnMirrorKeys (jobs : List Job) : Prop :=
  ∀ j ∈ jobs, j.entry.custom = false → ∀ key ∈ j.metricKeys, ¬ IsMirrorKey key

/-- Under a mirror key a job writes mirrors only. -/
theorem mirrored_of_mem_writes {jobs : List Job} (hown : NoOwnMirrorKeys jobs) {key : String}
    {value : Value} (h : (key, value) ∈ jobs.flatMap Job.writes) (hkey : IsMirrorKey key) :
    ∃ sensor ∈ jobs.flatMap Job.sensors, Mirrored sensor key value := by
  obtain ⟨j, hj, h⟩ := List.mem_flatMap.1 h
  have hpayload : (∃ own ∈ j.metricKeys, key = j.entry.metricPrefix ++ own) ∨
      ∃ sensor ∈ j.sensors, Mirrored sensor key value := by
    rw [Job.writes_eq] at h
    unfold Job.metricKeys Job.sensors
    cases hpayload : j.payload with
    | none => simp [hpayload] at h
    | some v =>
      rw [hpayload, Option.map_some, Option.getD_some] at h
      exact mem_writes h
  rcases hpayload with ⟨own, hmem, heq⟩ | ⟨sensor, hsensor, hmirror⟩
  · cases hcustom : j.entry.custom with
    | true =>
      rw [heq, Entry.metricPrefix, hcustom, if_pos rfl, String.append_assoc, String.append_assoc]
        at hkey
      exact absurd hkey (not_isMirrorKey_custom _)
    | false =>
      have hplain : key = own := by simpa [Entry.metricPrefix, hcustom] using heq
      exact absurd (hplain ▸ hkey) (hown j hj hcustom own hmem)
  · exact ⟨sensor, List.mem_flatMap.2 ⟨j, hj, hsensor⟩, hmirror⟩

/-- The mirror of a sensor is written by the job that has it. -/
theorem mem_writes_of_mirrorOf {jobs : List Job} {sensor value : Value} {key : String}
    (h : sensor ∈ jobs.flatMap Job.sensors) (hmirror : mirrorOf sensor = some (some (key, value))) :
    (key, value) ∈ jobs.flatMap Job.writes := by
  obtain ⟨j, hj, h⟩ := List.mem_flatMap.1 h
  refine List.mem_flatMap.2 ⟨j, hj, ?_⟩
  rw [Job.writes_eq]
  unfold Job.sensors at h
  cases hpayload : j.payload with
  | none => simp [hpayload] at h
  | some v =>
    rw [hpayload, Option.map_some, Option.getD_some] at h
    cases v with
    | dict fields =>
      have hwrite : (key, value) ∈ mirrorWrites (sensorsOf (.dict fields)) :=
        List.mem_filterMap.2 ⟨sensor, h, by rw [hmirror]; rfl⟩
      exact List.mem_append_right _ hwrite
    | _ => exact absurd h List.not_mem_nil

/-! ## Coherence -/

/-- A sensor with one of the five units and a number for its value has a mirror, unless the
code raises on it. -/
theorem exists_mirror {fields : List (Key × Value)} {metric : String}
    (hsome : (mirrorOf (.dict fields)).isSome = true)
    (hmetric : sensorMetric (Value.getD fields "unit" (.str "")) = some metric)
    (hnumber : (Value.getD fields "value" .none).isNumber = true) :
    ∃ id, Value.lookup fields "id" = some id ∧
      mirrorOf (.dict fields) =
        some (some (metric ++ "[" ++ id.toStr ++ "]", Value.getD fields "value" .none)) := by
  simp only [mirrorOf, hmetric, hnumber, if_true] at hsome ⊢
  by_cases hhash : (Value.getD fields "unit" (.str "")).hashable = true
  · simp only [hhash] at hsome ⊢
    cases hid : Value.lookup fields "id" with
    | none => simp [hid] at hsome
    | some id =>
      cases hprint : id.printable with
      | false => simp [hid, hprint] at hsome
      | true => exact ⟨id, rfl, by simp [hprint]⟩
  · simp [hhash] at hsome

/-- The sensors and the metrics of a payload agree. -/
structure MirrorCoherent (p : PushPayload) : Prop where
  /-- A sensor with one of the five units and a number for its value is found in the
  metrics, with that value. -/
  mirrored : ∀ fields metric, .dict fields ∈ p.sensors →
    sensorMetric (Value.getD fields "unit" (.str "")) = some metric →
    (Value.getD fields "value" .none).isNumber = true →
    ∃ id, Value.lookup fields "id" = some id ∧
      p.metrics.get (metric ++ "[" ++ id.toStr ++ "]") = some (Value.getD fields "value" .none)
  /-- A mirror key comes from exactly one such sensor. -/
  traced : ∀ key value, IsMirrorKey key → p.metrics.get key = some value →
    ∃! i, ∃ hi : i < p.sensors.length, Mirrored p.sensors[i] key value

/-- **The sensor mirror is coherent** when the ids are distinct and no collector emits
mirror keys itself. -/
theorem sensor_mirror_coherent {ts : Int} {now : Time} {jobs : List Job} {p : PushPayload}
    (h : (runOnce ts now jobs).2 = some p) (hids : DistinctIds (jobs.flatMap Job.sensors))
    (hown : NoOwnMirrorKeys jobs) : MirrorCoherent p := by
  have hsensors := sensors_runOnce h
  have hmetrics := metrics_runOnce h
  rw [← hsensors] at hids
  constructor
  · intro fields metric hmem hmetric hnumber
    have hsome := isSome_mirrorOf_of_runOnce h (hsensors ▸ hmem)
    obtain ⟨id, hid, hmirror⟩ := exists_mirror hsome hmetric hnumber
    refine ⟨id, hid, ?_⟩
    rw [hmetrics]
    refine Dict.get_update_of_agree (mem_writes_of_mirrorOf (hsensors ▸ hmem) hmirror) ?_ []
    -- whatever else is written under the key comes from a sensor with the same id
    intro value' hwrite
    have hthis := mirrored_of_mirrorOf hmirror
    obtain ⟨sensor', hmem', hother⟩ := mirrored_of_mem_writes hown hwrite hthis.isMirrorKey
    rw [← hsensors] at hmem'
    obtain ⟨i, hi, heq⟩ := List.getElem_of_mem hmem
    obtain ⟨j, hj, heq'⟩ := List.getElem_of_mem hmem'
    obtain rfl := Mirrored.eq_of_distinct hids hi hj (by rw [heq]; exact hthis)
      (by rw [heq']; exact hother)
    have hsame : sensor' = .dict fields := heq'.symm.trans heq
    exact hother.value_eq (hsame ▸ hthis)
  · intro key value hkey hget
    have hwrite : (key, value) ∈ jobs.flatMap Job.writes := by
      rw [hmetrics] at hget
      rcases Dict.mem_update (Dict.mem_of_get hget) with hnil | hwrite
      · exact absurd hnil List.not_mem_nil
      · exact hwrite
    obtain ⟨sensor, hmem, hmirror⟩ := mirrored_of_mem_writes hown hwrite hkey
    obtain ⟨i, hi, rfl⟩ := List.getElem_of_mem (hsensors ▸ hmem)
    refine ⟨i, ⟨hi, hmirror⟩, ?_⟩
    rintro j ⟨hj, hother⟩
    exact Mirrored.eq_of_distinct hids hj hi hother hmirror

/-- A sensor reading. -/
def sampleSensor (id unit : String) (value : Int) : Value :=
  .dict [(.str "id", .str id), (.str "unit", .str unit), (.str "value", .int value)]

/-- A collector with a metric of its own, a temperature and a fan duty. -/
def sampleHwmon : Job :=
  { entry := sampleEntry "hwmon", included := true
    call := .returned (.dict
      [(.str "metrics", .dict [(.str "fan.count", .int 1)]),
        (.str "sensors",
          .list [sampleSensor "k10temp/temp1" "C" 40, sampleSensor "pwm1" "%" 30])]) }

theorem sensor_mirror_coherent_hwmon :
    ∃ p, (runOnce 0 0 [sampleHwmon]).2 = some p ∧ MirrorCoherent p := by
  have hsome : (runOnce 0 0 [sampleHwmon]).2.isSome = true := by decide +kernel
  obtain ⟨p, hp⟩ := Option.isSome_iff_exists.1 hsome
  have hids : DistinctIds ([sampleHwmon].flatMap Job.sensors) := by
    unfold DistinctIds
    decide +kernel
  have hkeys : sampleHwmon.metricKeys = ["fan.count"] := by decide +kernel
  refine ⟨p, hp, sensor_mirror_coherent hp hids ?_⟩
  intro j hj _ key hkey hmirror
  rw [List.mem_singleton.1 hj, hkeys, List.mem_singleton] at hkey
  have hhead := hmirror.head?
  rw [hkey] at hhead
  simp at hhead

end OoAgent
