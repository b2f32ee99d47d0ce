import OoAgent.Core.Isolation

/-!
# The flat channel as a list of writes

Whatever the merges of a run put into `result["metrics"]`, they put it there by writing
keys, one after the other: the metrics of a payload first, then the mirrors of its
sensors.

* `writes` — the writes of one payload, `Job.writes` those of one job.
* `metrics_runOnce` — **the metrics of a run are its writes**, in the order of the jobs.
-/

namespace OoAgent

/-- The writes of the loop over `metrics`. -/
def metricWrites (pre : String) (items : List (Key × Value)) : List (String × Value) :=
  items.filterMap fun item => (metricKey pre item.1).map fun key => (key, item.2)

/-- The writes of the loop over `sensors`. -/
def mirrorWrites (sensors : List Value) : List (String × Value) :=
  sensors.filterMap fun sensor => (mirrorOf sensor).join

/-- The writes of one payload. -/
def writes (pre : String) : Value → List (String × Value)
  | .dict fields =>
    metricWrites pre ((itemsOf (Value.getD fields "metrics" .none)).getD []) ++
      mirrorWrites ((elementsOf (Value.getD fields "sensors" .none)).getD [])
  | _ => []

/-! ## The mirror of a sensor -/

/-- The families the sensors are mirrored to. -/
def mirrorFamilies : List String :=
  ["sensor.temp", "sensor.fan", "sensor.volt", "sensor.power", "sensor.curr"]

/-- The sensor has one of the five units, a number for its value and an `id`, and is found
under this key with this value. -/
def Mirrored (sensor : Value) (key : String) (value : Value) : Prop :=
  ∃ fields metric id, sensor = .dict fields ∧
    sensorMetric (Value.getD fields "unit" (.str "")) = some metric ∧
    Value.getD fields "value" .none = value ∧ value.isNumber = true ∧
    Value.lookup fields "id" = some id ∧ key = metric ++ "[" ++ id.toStr ++ "]"

theorem sensorMetric_mem {unit : Value} {metric : String} (h : sensorMetric unit = some metric) :
    metric ∈ mirrorFamilies := by
  unfold sensorMetric at h
  cases unit with
  | str s =>
    simp only at h
    split_ifs at h <;> rw [← Option.some.inj h] <;> decide
  | _ => exact absurd h (by simp)

/-- The mirror of a sensor is what the loop writes for it. -/
theorem mirrored_of_mirrorOf {sensor : Value} {key : String} {value : Value} :
    mirrorOf sensor = some (some (key, value)) → Mirrored sensor key value := by
  intro h
  cases sensor with
  | dict fields =>
    simp only [mirrorOf] at h
    split at h
    · exact absurd h (by simp)
    · split at h
      · exact absurd h (by simp)
      · rename_i metric hmetric
        split at h
        · rename_i hnumber
          split at h
          · exact absurd h (by simp)
          · rename_i id hid
            split at h
            · simp only [Option.some.injEq, Prod.mk.injEq] at h
              obtain ⟨rfl, rfl⟩ := h
              exact ⟨fields, metric, id, rfl, hmetric, rfl, hnumber, hid, rfl⟩
            · exact absurd h (by simp)
        · exact absurd h (by simp)
  | _ => exact absurd h (by simp [mirrorOf])

/-! ## The writes of a run -/

theorem mergeMetrics_eq {pre : String} {d d' : Dict String Value} {items : List (Key × Value)}
    (h : mergeMetrics pre d items = some d') : d' = d.update (metricWrites pre items) := by
  induction items generalizing d with
  | nil => exact (Option.some.inj h).symm
  | cons item items ih =>
    unfold mergeMetrics at h
    rw [List.foldlM_cons] at h
    cases hkey : metricKey pre item.1 with
    | none => simp [hkey] at h
    | some key =>
      simp only [hkey, Option.map_some] at h
      rw [ih h, metricWrites, metricWrites, List.filterMap_cons, hkey]
      rfl

theorem mergeSensors_eq {a a' : Assembled} {sensors : List Value}
    (h : sensors.foldlM mergeSensor a = some a') :
    a'.metrics = a.metrics.update (mirrorWrites sensors) ∧ a'.inventory = a.inventory := by
  induction sensors generalizing a with
  | nil =>
    obtain rfl := Option.some.inj h
    exact ⟨rfl, rfl⟩
  | cons sensor sensors ih =>
    rw [List.foldlM_cons] at h
    cases hmirror : mirrorOf sensor with
    | none => simp [mergeSensor, hmirror] at h
    | some mirror =>
      have hstep : mergeSensor a sensor = some
          { a with
            sensors := a.sensors ++ [sensor]
            metrics := a.metrics.update mirror.toList } := by
        rw [mergeSensor, hmirror]
        rfl
      rw [hstep] at h
      obtain ⟨hmetrics, hinventory⟩ := ih h
      refine ⟨?_, hinventory⟩
      rw [hmetrics, mirrorWrites, mirrorWrites, List.filterMap_cons, hmirror]
      cases mirror <;> rfl

/-- A merge writes the writes of its payload. -/
theorem metrics_merge {pre : String} {a a' : Assembled} {payload : Value}
    (h : merge pre a payload = some a') :
    a'.metrics = a.metrics.update (writes pre payload) := by
  cases payload with
  | dict fields =>
    simp only [merge, bind, pure, Option.bind_eq_some_iff] at h
    obtain ⟨items, hitems, written, hmetrics, elements, helements, b, hsensors, inventory, -, h⟩ :=
      h
    rw [← Option.some.inj h]
    show b.metrics = _
    simp only [(mergeSensors_eq hsensors).1, mergeMetrics_eq hmetrics, ← Dict.update_append, writes,
      hitems, helements, Option.getD_some]
  | _ => exact absurd h (by simp [merge])

/-- The writes of one job. -/
def Job.writes (j : Job) : List (String × Value) :=
  match j.runs, j.call with
  | true, .returned v => OoAgent.writes j.entry.metricPrefix (v.orElse (.dict []))
  | _, _ => []

/-- The payload an entry hands to the merge, if it does. -/
def Job.payload (j : Job) : Option Value :=
  match j.runs, j.call with
  | true, .returned v => some (v.orElse (.dict []))
  | _, _ => none

theorem Job.writes_eq (j : Job) :
    j.writes = (j.payload.map (OoAgent.writes j.entry.metricPrefix)).getD [] := by
  unfold Job.writes Job.payload
  split <;> rfl

/-- What an entry contributes is its payload. -/
theorem contribute_eq_some {j : Job} {a a' : Assembled} (h : j.contribute a = some a') :
    (∃ v, j.payload = some v ∧ merge j.entry.metricPrefix a v = some a') ∨
      (j.payload = none ∧ a' = a) := by
  unfold Job.contribute at h
  unfold Job.payload
  cases hruns : j.runs with
  | false =>
    rw [hruns] at h
    exact .inr ⟨rfl, (Option.some.inj h).symm⟩
  | true =>
    rw [hruns, if_pos rfl] at h
    cases hcall : j.call with
    | raised at_ =>
      simp only [hcall] at h
      split_ifs at h
      exact .inr ⟨rfl, (Option.some.inj h).symm⟩
    | returned v =>
      simp only [hcall] at h
      exact .inl ⟨_, rfl, h⟩

/-- **A channel of a run** is what the payloads make of it, one after the other. -/
theorem channel_runJobs {β : Type} {channel : Assembled → β} {step : β → Job → β}
    (hmerge : ∀ {j v a a'}, j.payload = some v → merge j.entry.metricPrefix a v = some a' →
      channel a' = step (channel a) j)
    (hskip : ∀ {j} b, j.payload = none → step b j = b)
    {a a' : Assembled} {js : List Job} (h : (runJobs a js).2 = some a') :
    channel a' = js.foldl step (channel a) := by
  induction js generalizing a with
  | nil => exact congrArg _ (Option.some.inj h).symm
  | cons j js ih =>
    rw [runJobs_cons, Option.bind_eq_some_iff] at h
    obtain ⟨b, hb, h⟩ := h
    rw [ih h, List.foldl_cons]
    rcases contribute_eq_some hb with ⟨v, hpayload, hb⟩ | ⟨hpayload, rfl⟩
    · rw [hmerge hpayload hb]
    · rw [hskip _ hpayload]

theorem metrics_runJobs {a a' : Assembled} {js : List Job} (h : (runJobs a js).2 = some a') :
    a'.metrics = a.metrics.update (js.flatMap Job.writes) := by
  have hfold := @channel_runJobs _ Assembled.metrics (fun d j => d.update j.writes)
    (fun hpayload hb => by rw [metrics_merge hb, Job.writes_eq, hpayload]; rfl)
    (fun d hpayload => by rw [Job.writes_eq, hpayload]; rfl) _ _ _ h
  rw [hfold, Dict.update, List.foldl_flatMap]
  rfl

/-- **The metrics of a run are its writes**, in the order of the jobs. -/
theorem metrics_runOnce {ts : Int} {now : Time} {jobs : List Job} {p : PushPayload}
    (h : (runOnce ts now jobs).2 = some p) :
    p.metrics = Dict.update [] (jobs.flatMap Job.writes) := by
  simp only [runOnce, Option.map_eq_some_iff] at h
  obtain ⟨a, ha, rfl⟩ := h
  exact metrics_runJobs ha

end OoAgent
