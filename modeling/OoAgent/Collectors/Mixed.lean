import OoAgent.Collectors.Payloads
import OoAgent.Core.Channels

/-!
# Metrics of mixed collectors

The collectors share one flat dictionary of metrics.  What keeps them apart is the part
of a key before the bracket: every collector has its own, except that the two GPU
collectors have the same, and both number their GPUs from zero.

* `family` — the part of a key before the bracket; `family_metrics` — which ones a
  collector uses; `shared_family` — **only the GPU collectors share any**.
* `no_metric_lost_iff` — **no metric is lost**, exactly when GPUs with the same index
  report the same.
-/

namespace OoAgent

/-! ## Families of keys -/

/-- The part of a key before the first bracket. -/
def family (key : String) : String := String.ofList (key.toList.takeWhile (· ≠ '['))

/-- The families the metrics of a collector are in. -/
def Readings.families : Readings → List String
  | .system _ =>
    ["cpu.util", "cpu.util.core", "cpu.num", "mem.pused", "mem.used", "mem.total", "swap.pused",
      "swap.used", "swap.total", "system.uptime", "system.load1", "system.load5", "system.load15",
      "cpu.throttle"]
  | .fs _ => ["fs.pused", "fs.used", "fs.total"]
  | .diskio _ => ["diskio.read.kbps", "diskio.write.kbps"]
  | .net _ => ["net.rx.kbps", "net.tx.kbps"]
  | .tcpconn _ _ => ["net.tcp.established", "net.tcp.synrecv"]
  | .security _ =>
    ["security.ports.listen", "security.firewall", "security.ssh_failed_24h",
      "security.updates.pending"]
  | .cron _ => ["cron.jobs", "cron.failed"]
  | .dockerState _ =>
    ["docker.containers.total", "docker.containers.running", "docker.containers.exited",
      "docker.containers.restarting", "docker.containers.paused", "docker.containers.unhealthy",
      "docker.containers.oom_killed"]
  | .gpuNvidia _ =>
    ["gpu.util", "gpu.mem.used", "gpu.mem.total", "gpu.mem.pused", "gpu.power", "gpu.fan",
      "gpu.throttle"]
  | .gpuAmd _ => ["gpu.util", "gpu.mem.used", "gpu.mem.total", "gpu.mem.pused", "gpu.power"]
  | _ => []

/-- One collector of each kind that has metrics. -/
def withMetrics : List Readings :=
  [.fs [], .diskio none, .net none, .tcpconn 0 0, .cron [], .dockerState [], .gpuNvidia [],
    .gpuAmd [], .security { ports := 0, firewall := "", failed := none, updates := none },
    .system { cpuTotal := .none, perCore := [], memPercent := .none, memUsed := .none
              memTotal := .none, swapPercent := .none, swapUsed := .none, swapTotal := .none
              uptime := .none, loads := none, grew := none }]

theorem family_indexed {name : String} (h : '[' ∉ name.toList) (index : String) :
    family (indexed name index) = name := by
  have hname : ∀ c ∈ name.toList, decide (c ≠ '[') = true := by
    rintro c hc
    rw [decide_eq_true_eq]
    rintro rfl
    exact h hc
  apply String.toList_inj.1
  rw [family, indexed, String.toList_ofList, String.toList_append, String.toList_append,
    String.toList_append, List.append_assoc, List.append_assoc,
    List.takeWhile_append_of_pos hname]
  simp

theorem indexed_inj {name name' index index' : String} (h : '[' ∉ name.toList)
    (h' : '[' ∉ name'.toList) (heq : indexed name index = indexed name' index') :
    name = name' ∧ index = index' := by
  have hname : name = name' := by
    rw [← family_indexed h index, heq, family_indexed h' index']
  subst hname
  simpa [indexed, String.append_assoc] using heq

/-- The families of a collector depend on its kind alone. -/
theorem exists_withMetrics {r : Readings} {f : String} (h : f ∈ r.families) :
    ∃ r' ∈ withMetrics, r'.name = r.name ∧ r'.families = r.families := by
  cases r with
  | docker | hardware | rapl | sensorsHwmon | sensorsLhm | smart =>
    exact absurd h (by simp [Readings.families])
  | _ => simp [withMetrics, Readings.name, Readings.families]

/-- No family has a bracket. -/
theorem bracket_notMem {r : Readings} {f : String} (h : f ∈ r.families) : '[' ∉ f.toList := by
  have hall : ∀ r ∈ withMetrics, ∀ f ∈ r.families, '[' ∉ f.toList := by decide +kernel
  obtain ⟨r', hr', -, hfamilies⟩ := exists_withMetrics h
  exact hall r' hr' f (by rwa [hfamilies])

/-- **Only the GPU collectors share a family.** -/
theorem shared_family {r r' : Readings} {f : String} (h : f ∈ r.families) (h' : f ∈ r'.families) :
    r.name = r'.name ∨ (r.name = "gpu_nvidia" ∧ r'.name = "gpu_amd") ∨
      r.name = "gpu_amd" ∧ r'.name = "gpu_nvidia" := by
  have hall : ∀ r ∈ withMetrics, ∀ r' ∈ withMetrics, ∀ f ∈ r.families, f ∈ r'.families →
      r.name = r'.name ∨ (r.name = "gpu_nvidia" ∧ r'.name = "gpu_amd") ∨
        r.name = "gpu_amd" ∧ r'.name = "gpu_nvidia" := by decide +kernel
  obtain ⟨s, hs, hname, hfamilies⟩ := exists_withMetrics h
  obtain ⟨s', hs', hname', hfamilies'⟩ := exists_withMetrics h'
  rw [← hname, ← hname']
  exact hall s hs s' hs' f (by rwa [hfamilies]) (by rwa [hfamilies'])

/-- No collector's own metrics are in a family of the mirror. -/
theorem mirror_notMem {r : Readings} {f : String} (h : f ∈ r.families) : f ∉ mirrorFamilies := by
  have hall : ∀ r ∈ withMetrics, ∀ f ∈ r.families, f ∉ mirrorFamilies := by decide +kernel
  obtain ⟨r', hr', -, hfamilies⟩ := exists_withMetrics h
  exact hall r' hr' f (by rwa [hfamilies])

/-! ## The families a collector uses -/

theorem mem_of_mem_metricsOf {items : List (String × Value)} {item : String × Value}
    (h : item ∈ metricsOf items) : item ∈ items := by
  rcases Dict.mem_update h with h | h
  · exact absurd h (by simp)
  · exact h

theorem key_of_mem_metricsOf {items : List (String × Value)} {key : String} {v : Value}
    (h : (key, v) ∈ metricsOf items) : key ∈ items.map Prod.fst :=
  List.mem_map_of_mem (mem_of_mem_metricsOf h)

/-- A fixed key is its own family. -/
theorem family_of_mem {r : Readings} {key : String} (h : key ∈ r.families) :
    family key ∈ r.families := by
  have hkey : family key = key := by
    apply String.toList_inj.1
    rw [family, String.toList_ofList, List.takeWhile_eq_self_iff]
    intro c hc
    rw [decide_eq_true_eq]
    rintro rfl
    exact bracket_notMem h hc
  rwa [hkey]

/-- An indexed key is in the family of its name. -/
theorem family_indexed_mem {r : Readings} {f index : String} (h : f ∈ r.families) :
    family (indexed f index) ∈ r.families := by
  rwa [family_indexed (bracket_notMem h)]

/-- The writes of GPUs are their readings, under the index of the GPU. -/
theorem mem_gpuWrites {gpus : List (List (String × Value))} {key : String} {v : Value} :
    (key, v) ∈ gpuWrites gpus ↔
      ∃ i readings name, gpus[i]? = some readings ∧ (name, v) ∈ readings ∧
        key = indexed name (Nat.repr i) := by
  constructor
  · intro h
    obtain ⟨⟨readings, i⟩, hgpu, hreading⟩ := List.mem_flatMap.1 h
    obtain ⟨⟨name, w⟩, hw, heq⟩ := List.mem_map.1 hreading
    obtain ⟨rfl, rfl⟩ := Prod.mk.inj heq
    exact ⟨i, readings, name, List.mem_zipIdx_iff_getElem?.1 hgpu, hw, rfl⟩
  · rintro ⟨i, readings, name, hgpu, hv, rfl⟩
    apply List.mem_flatMap.2
    exact ⟨(readings, i), List.mem_zipIdx_iff_getElem?.2 hgpu, List.mem_map.2 ⟨(name, v), hv, rfl⟩⟩

/-- A reading reaches the metrics of its collector when its names are distinct. -/
theorem mem_gpuMetrics {gpus : List (List (String × Value))}
    (hbracket : ∀ readings ∈ gpus, ∀ reading ∈ readings, '[' ∉ reading.1.toList)
    (hdistinct : ∀ readings ∈ gpus, (readings.map Prod.fst).Nodup) {i : Nat}
    {readings : List (String × Value)} {name : String} {v : Value}
    (hgpu : gpus[i]? = some readings) (hv : (name, v) ∈ readings) :
    (indexed name (Nat.repr i), v) ∈ gpuMetrics gpus := by
  apply Dict.mem_of_get
  apply Dict.get_update_of_agree (mem_gpuWrites.2 ⟨i, readings, name, hgpu, hv, rfl⟩)
  intro v' hv'
  obtain ⟨i', readings', name', hgpu', hname', heq⟩ := mem_gpuWrites.1 hv'
  have hmem := List.mem_of_getElem? hgpu
  obtain ⟨rfl, hindex⟩ := indexed_inj (hbracket _ hmem _ hv)
    (hbracket _ (List.mem_of_getElem? hgpu') _ hname') heq
  obtain rfl := Nat.repr_injective hindex
  obtain rfl := Option.some.inj (hgpu.symm.trans hgpu')
  exact Dict.eq_of_mem (hdistinct _ hmem) hname' hv

theorem nvidia_families {gpus : List NvidiaGpu} {g : NvidiaGpu} {name : String} {v : Value}
    (h : (name, v) ∈ g.readings) : name ∈ (Readings.gpuNvidia gpus).families := by
  simp only [NvidiaGpu.readings, GpuMemory.readings, List.mem_append, List.mem_map,
    List.mem_flatMap, Option.mem_toList, List.mem_cons, List.not_mem_nil, or_false,
    Prod.mk.injEq] at h
  simp only [Readings.families, List.mem_cons, List.not_mem_nil, or_false]
  tauto

theorem amd_families {gpus : List AmdGpu} {g : AmdGpu} {name : String} {v : Value}
    (h : (name, v) ∈ g.readings) : name ∈ (Readings.gpuAmd gpus).families := by
  simp only [AmdGpu.readings, GpuMemory.readings, List.mem_append, List.mem_map, List.mem_flatMap,
    Option.mem_toList, List.mem_cons, List.not_mem_nil, or_false, Prod.mk.injEq] at h
  simp only [Readings.families, List.mem_cons, List.not_mem_nil, or_false]
  tauto

/-- Every metric of a collector is in one of its families. -/
theorem family_metrics {r : Readings} {key : String} {v : Value} (h : (key, v) ∈ r.metrics) :
    family key ∈ r.families := by
  cases r with
  | system r =>
    have hitem := mem_of_mem_metricsOf h
    apply family_of_mem
    simp only [List.mem_append, List.mem_cons, List.mem_flatMap, List.mem_map, Option.mem_toList,
      List.not_mem_nil, or_false, Prod.mk.injEq, Prod.exists] at hitem
    simp only [Readings.families, List.mem_cons, List.not_mem_nil, or_false]
    tauto
  | fs mounts =>
    obtain ⟨m, -, hm⟩ := List.mem_flatMap.1 (mem_of_mem_metricsOf h)
    simp only [List.mem_cons, Prod.mk.injEq, List.not_mem_nil, or_false] at hm
    rcases hm with ⟨rfl, -⟩ | ⟨rfl, -⟩ | ⟨rfl, -⟩
    · exact family_indexed_mem (by simp [Readings.families])
    · exact family_indexed_mem (by simp [Readings.families])
    · exact family_indexed_mem (by simp [Readings.families])
  | security r =>
    have hitem := mem_of_mem_metricsOf h
    apply family_of_mem
    simp only [List.mem_append, List.mem_cons, List.mem_map, Option.mem_toList, List.not_mem_nil,
      or_false, Prod.mk.injEq] at hitem
    simp only [Readings.families, List.mem_cons, List.not_mem_nil, or_false]
    tauto
  | gpuNvidia gpus =>
    obtain ⟨i, readings, name, hgpu, hreading, rfl⟩ := mem_gpuWrites.1 (mem_of_mem_metricsOf h)
    rw [List.getElem?_map] at hgpu
    obtain ⟨g, -, rfl⟩ := Option.map_eq_some_iff.1 hgpu
    exact family_indexed_mem (nvidia_families hreading)
  | gpuAmd gpus =>
    obtain ⟨i, readings, name, hgpu, hreading, rfl⟩ := mem_gpuWrites.1 (mem_of_mem_metricsOf h)
    rw [List.getElem?_map] at hgpu
    obtain ⟨g, -, rfl⟩ := Option.map_eq_some_iff.1 hgpu
    exact family_indexed_mem (amd_families hreading)
  | diskio rates =>
    have hkey := key_of_mem_metricsOf h
    apply family_of_mem
    cases rates <;> simp [Readings.families] at hkey ⊢
    exact hkey
  | net rates =>
    have hkey := key_of_mem_metricsOf h
    apply family_of_mem
    cases rates <;> simp [Readings.families] at hkey ⊢
    exact hkey
  | tcpconn _ _ => exact family_of_mem (key_of_mem_metricsOf h)
  | cron _ => exact family_of_mem (key_of_mem_metricsOf h)
  | dockerState _ => exact family_of_mem (key_of_mem_metricsOf h)
  | _ => exact absurd h (by simp [Readings.metrics])

/-! ## What a collector writes -/

theorem isSensor_toValue (s : Sensor) : isSensor s.toValue = true := by
  have hunit : Value.getD s.fields "unit" (.str "") = .str s.unit := rfl
  have hid : Value.lookup s.fields "id" = some (.str s.id) := rfl
  simp [isSensor, Sensor.toValue, hunit, hid, Value.hashable, Value.printable]

/-- The payload of a built-in collector has the shape of a payload. -/
theorem mergeable_payload (p : Produced) : mergeable p.payload = true := by
  have hmetrics : emptyOr isMetrics p.metricsValue = true := by
    simp [emptyOr, isMetrics, Produced.metricsValue]
  have hsensors : emptyOr isSensors p.sensorsValue = true := by
    simp [emptyOr, isSensors, Produced.sensorsValue, isSensor_toValue]
  have hinventory : emptyOr isDict (.dict p.inventory) = true := by
    simp [emptyOr, isDict]
  show (emptyOr isMetrics p.metricsValue &&
    (emptyOr isSensors p.sensorsValue && emptyOr isDict (.dict p.inventory))) = true
  rw [hmetrics, hsensors, hinventory]
  rfl

/-- What a built-in collector writes: its metrics, and then the mirrors of its sensors. -/
theorem writes_payload (p : Produced) :
    writes "" p.payload = p.readings.metrics ++ mirrorWrites (p.sensors.map Sensor.toValue) := by
  have hitems : (itemsOf p.metricsValue).getD [] =
      p.readings.metrics.map fun item => (Key.str item.1, item.2) := by
    cases hmetrics : p.readings.metrics <;>
      simp [itemsOf, Produced.metricsValue, Value.truthy, hmetrics]
  have helements : (elementsOf p.sensorsValue).getD [] = p.sensors.map Sensor.toValue := by
    cases hsensors : p.sensors <;>
      simp [elementsOf, Produced.sensorsValue, Value.truthy, hsensors]
  show metricWrites "" ((itemsOf p.metricsValue).getD []) ++
    mirrorWrites ((elementsOf p.sensorsValue).getD []) = _
  rw [hitems, helements, metricWrites, List.filterMap_map]
  congr 1
  simp [metricKey]

/-- A mirrored sensor is written under the metric of its unit, indexed by its id. -/
theorem mirrorOf_key {sensor : Value} {key : String} {v : Value}
    (h : mirrorOf sensor = some (some (key, v))) :
    ∃ metric ∈ mirrorFamilies, ∃ id, key = indexed metric id := by
  obtain ⟨fields, metric, id, -, hmetric, -, -, -, rfl⟩ := mirrored_of_mirrorOf h
  exact ⟨metric, sensorMetric_mem hmetric, id.toStr, rfl⟩

/-- What the sensors write is in the families of the mirror. -/
theorem family_mirrorWrites {sensors : List Value} {key : String} {v : Value}
    (h : (key, v) ∈ mirrorWrites sensors) : family key ∈ mirrorFamilies := by
  have hbracket : ∀ metric ∈ mirrorFamilies, '[' ∉ metric.toList := by decide
  obtain ⟨sensor, -, hmirror⟩ := List.mem_filterMap.1 h
  obtain ⟨metric, hmetric, id, rfl⟩ := mirrorOf_key (Option.join_eq_some_iff.1 hmirror)
  rwa [family_indexed (hbracket metric hmetric)]

/-! ## No metric is lost -/

/-- The number a value is, if it is a finite one. -/
def numberOf : Value → Option ℚ
  | .bool b => some (if b then 1 else 0)
  | .int n => some n
  | .float (.finite q) => some q
  | .float .negZero => some 0
  | _ => none

/-- `v == w`, on metrics: numbers are equal across their types. -/
def SameValue (v w : Value) : Prop := v = w ∨ ∃ q, numberOf v = some q ∧ numberOf w = some q

theorem SameValue.symm {v w : Value} (h : SameValue v w) : SameValue w v := by
  rcases h with rfl | ⟨q, hv, hw⟩
  · exact .inl rfl
  · exact .inr ⟨q, hw, hv⟩

theorem SameValue.trans {u v w : Value} (h : SameValue u v) (h' : SameValue v w) :
    SameValue u w := by
  rcases h with rfl | ⟨q, hu, hv⟩
  · exact h'
  · rcases h' with rfl | ⟨q', hv', hw⟩
    · exact .inr ⟨q, hu, hv⟩
    · obtain rfl := Option.some.inj (hv.symm.trans hv')
      exact .inr ⟨q, hu, hw⟩

/-- The active built-in collectors of one tick, in the order in which they run, with
what they returned.  Each collector is active once. -/
structure ActiveCollectors where
  collected : List (Entry × Produced)
  distinct : (collected.map fun c => c.2.readings.name).Nodup

namespace ActiveCollectors

/-- The jobs of the tick. -/
def jobs (active : ActiveCollectors) : List Job :=
  active.collected.map fun c =>
    { entry := { c.1 with custom := false, disabled := false }, included := true
      call := .returned c.2.payload }

/-- The collector with these readings is active. -/
def Has (active : ActiveCollectors) (r : Readings) : Prop :=
  ∃ c ∈ active.collected, c.2.readings = r

/-- Every metric of every active collector is in the payload, with its value. -/
def NoMetricLost (active : ActiveCollectors) (p : PushPayload) : Prop :=
  ∀ r, active.Has r → ∀ key v, (key, v) ∈ r.metrics →
    ∃ w, p.metrics.get key = some w ∧ SameValue w v

/-- Where an NVIDIA and an AMD GPU have the same index, the readings both report
agree. -/
def GpusAgree (active : ActiveCollectors) : Prop :=
  ∀ nvidia amd, active.Has (.gpuNvidia nvidia) → active.Has (.gpuAmd amd) →
    ∀ (i : Nat) (n : NvidiaGpu) (a : AmdGpu), nvidia[i]? = some n → amd[i]? = some a →
      ∀ name v w, (name, v) ∈ n.readings → (name, w) ∈ a.readings → SameValue v w

end ActiveCollectors

/-- Two active collectors of one name are the same. -/
theorem ActiveCollectors.Has.unique {active : ActiveCollectors} {r r' : Readings}
    (h : active.Has r) (h' : active.Has r') (hname : r.name = r'.name) : r = r' := by
  obtain ⟨c, hc, rfl⟩ := h
  obtain ⟨c', hc', rfl⟩ := h'
  rw [List.inj_on_of_nodup_map active.distinct hc hc' hname]

theorem writes_jobs (active : ActiveCollectors) :
    active.jobs.flatMap Job.writes = active.collected.flatMap fun c =>
      c.2.readings.metrics ++ mirrorWrites (c.2.sensors.map Sensor.toValue) := by
  rw [ActiveCollectors.jobs, List.flatMap_map]
  congr 1
  funext c
  exact writes_payload c.2

/-- The run returns: every built-in payload can be merged. -/
theorem runOnce_jobs (active : ActiveCollectors) (ts : Int) (now : Time) :
    ∃ p, (runOnce ts now active.jobs).2 = some p := by
  have hharmless : ∀ j ∈ active.jobs, j.runs = true → j.harmless = true := by
    rintro j hj -
    obtain ⟨c, -, rfl⟩ := List.mem_map.1 hj
    simp [Job.harmless, mergeable_payload]
  obtain ⟨a, ha⟩ := Option.isSome_iff_exists.1 ((isSome_runJobs .empty _).2 hharmless)
  exact ⟨_, by rw [runOnce, ha]; rfl⟩

/-- A metric that is written holds in the end what one of the active collectors wrote. -/
theorem get_metrics {active : ActiveCollectors} {ts : Int} {now : Time} {p : PushPayload}
    (hp : (runOnce ts now active.jobs).2 = some p) {r : Readings} (hr : active.Has r)
    {key : String} {v : Value} (hv : (key, v) ∈ r.metrics) :
    ∃ w r', active.Has r' ∧ (key, w) ∈ r'.metrics ∧ p.metrics.get key = some w := by
  obtain ⟨c, hc, rfl⟩ := hr
  have hwritten : key ∈ (active.jobs.flatMap Job.writes).map Prod.fst := by
    rw [writes_jobs]
    apply List.mem_map.2
    exact ⟨(key, v), List.mem_flatMap.2 ⟨c, hc, List.mem_append_left _ hv⟩, rfl⟩
  obtain ⟨w, hw, hget⟩ := Dict.get_update_mem hwritten []
  rw [← metrics_runOnce hp] at hget
  rw [writes_jobs] at hw
  obtain ⟨c', hc', hw'⟩ := List.mem_flatMap.1 hw
  rcases List.mem_append.1 hw' with hw' | hmirror
  · exact ⟨w, c'.2.readings, ⟨c', hc', rfl⟩, hw', hget⟩
  · exact absurd (family_mirrorWrites hmirror) (mirror_notMem (family_metrics hv))

theorem nodup_metricsOf (items : List (String × Value)) :
    ((metricsOf items).map Prod.fst).Nodup :=
  Dict.nodup_update (by simp) items

theorem nodup_metrics (r : Readings) : (r.metrics.map Prod.fst).Nodup := by
  cases r with
  | docker | hardware | rapl | sensorsHwmon | sensorsLhm | smart => exact List.nodup_nil
  | _ => exact nodup_metricsOf _

theorem eq_gpuNvidia {r : Readings} (h : r.name = "gpu_nvidia") : ∃ gpus, r = .gpuNvidia gpus := by
  cases r with
  | gpuNvidia gpus => exact ⟨gpus, rfl⟩
  | _ => exact absurd h (by simp [Readings.name])

theorem eq_gpuAmd {r : Readings} (h : r.name = "gpu_amd") : ∃ gpus, r = .gpuAmd gpus := by
  cases r with
  | gpuAmd gpus => exact ⟨gpus, rfl⟩
  | _ => exact absurd h (by simp [Readings.name])

/-- A key of both GPU collectors is a reading of two GPUs with one index. -/
theorem same_of_shared {active : ActiveCollectors} (hagree : active.GpusAgree)
    {nvidia : List NvidiaGpu} {amd : List AmdGpu} (hn : active.Has (.gpuNvidia nvidia))
    (ha : active.Has (.gpuAmd amd)) {key : String} {v w : Value}
    (hv : (key, v) ∈ nvidiaMetrics nvidia) (hw : (key, w) ∈ amdMetrics amd) : SameValue v w := by
  obtain ⟨i, readings, name, hgpu, hv, rfl⟩ := mem_gpuWrites.1 (mem_of_mem_metricsOf hv)
  obtain ⟨i', readings', name', hgpu', hw, heq⟩ := mem_gpuWrites.1 (mem_of_mem_metricsOf hw)
  rw [List.getElem?_map, Option.map_eq_some_iff] at hgpu hgpu'
  obtain ⟨n, hn', rfl⟩ := hgpu
  obtain ⟨a, ha', rfl⟩ := hgpu'
  obtain ⟨rfl, hindex⟩ := indexed_inj (bracket_notMem (@nvidia_families nvidia _ _ _ hv))
    (bracket_notMem (@amd_families amd _ _ _ hw)) heq
  obtain rfl := Nat.repr_injective hindex
  exact hagree nvidia amd hn ha i n a hn' ha' name v w hv hw

theorem nodup_nvidia (g : NvidiaGpu) : (g.readings.map Prod.fst).Nodup := by
  obtain ⟨util, memory, powerW, fanPct, throttling⟩ := g
  cases util <;> cases memory <;> cases powerW <;> cases fanPct <;>
    simp [NvidiaGpu.readings, GpuMemory.readings]

theorem nodup_amd (g : AmdGpu) : (g.readings.map Prod.fst).Nodup := by
  obtain ⟨load, memory, powerW⟩ := g
  cases load <;> cases memory <;> cases powerW <;> simp [AmdGpu.readings, GpuMemory.readings]

/-- Every reading of a GPU is among the metrics of its collector. -/
theorem mem_gpuMetrics_map {γ : Type} {readings : γ → List (String × Value)} {r : Readings}
    (hfamilies : ∀ g name v, (name, v) ∈ readings g → name ∈ r.families)
    (hdistinct : ∀ g, ((readings g).map Prod.fst).Nodup) {gpus : List γ} {i : Nat} {g : γ}
    {name : String} {v : Value} (hg : gpus[i]? = some g) (hv : (name, v) ∈ readings g) :
    (indexed name (Nat.repr i), v) ∈ gpuMetrics (gpus.map readings) := by
  refine mem_gpuMetrics ?_ ?_ (by rw [List.getElem?_map, hg]; rfl) hv
  · rintro items hitems item hitem
    obtain ⟨g, -, rfl⟩ := List.mem_map.1 hitems
    exact bracket_notMem (hfamilies g item.1 item.2 hitem)
  · rintro items hitems
    obtain ⟨g, -, rfl⟩ := List.mem_map.1 hitems
    exact hdistinct g

theorem mem_nvidiaMetrics {gpus : List NvidiaGpu} {i : Nat} {g : NvidiaGpu} {name : String}
    {v : Value} (hg : gpus[i]? = some g) (hv : (name, v) ∈ g.readings) :
    (indexed name (Nat.repr i), v) ∈ nvidiaMetrics gpus :=
  mem_gpuMetrics_map (@nvidia_families gpus) nodup_nvidia hg hv

theorem mem_amdMetrics {gpus : List AmdGpu} {i : Nat} {g : AmdGpu} {name : String}
    {v : Value} (hg : gpus[i]? = some g) (hv : (name, v) ∈ g.readings) :
    (indexed name (Nat.repr i), v) ∈ amdMetrics gpus :=
  mem_gpuMetrics_map (@amd_families gpus) nodup_amd hg hv

/-- In the payload of a run no metric is lost exactly when the GPUs agree. -/
theorem noMetricLost_iff {active : ActiveCollectors} {ts : Int} {now : Time} {p : PushPayload}
    (hp : (runOnce ts now active.jobs).2 = some p) :
    active.NoMetricLost p ↔ active.GpusAgree := by
  constructor
  · intro hkept nvidia amd hn ha i n a hn' ha' name v w hv hw
    obtain ⟨x, hx, hxv⟩ := hkept _ hn _ v (mem_nvidiaMetrics hn' hv)
    obtain ⟨y, hy, hyw⟩ := hkept _ ha _ w (mem_amdMetrics ha' hw)
    obtain rfl := Option.some.inj (hx.symm.trans hy)
    exact hxv.symm.trans hyw
  · intro hagree r hr key v hv
    obtain ⟨w, r', hr', hw, hget⟩ := get_metrics hp hr hv
    refine ⟨w, hget, ?_⟩
    rcases shared_family (family_metrics hv) (family_metrics hw) with
      hname | ⟨hnvidia, hamd⟩ | ⟨hamd, hnvidia⟩
    · obtain rfl := hr.unique hr' hname
      exact .inl (Dict.eq_of_mem (nodup_metrics r) hw hv)
    · obtain ⟨nvidia, rfl⟩ := eq_gpuNvidia hnvidia
      obtain ⟨amd, rfl⟩ := eq_gpuAmd hamd
      exact (same_of_shared hagree hr hr' hv hw).symm
    · obtain ⟨nvidia, rfl⟩ := eq_gpuNvidia hnvidia
      obtain ⟨amd, rfl⟩ := eq_gpuAmd hamd
      exact same_of_shared hagree hr' hr hw hv

/-- **No metric is lost**, exactly when GPUs with the same index report the same. -/
theorem no_metric_lost_iff (active : ActiveCollectors) (ts : Int) (now : Time) :
    (∃ p, (runOnce ts now active.jobs).2 = some p ∧ active.NoMetricLost p) ↔
      active.GpusAgree := by
  constructor
  · rintro ⟨p, hp, hkept⟩
    exact (noMetricLost_iff hp).1 hkept
  · intro hagree
    obtain ⟨p, hp⟩ := runOnce_jobs active ts now
    exact ⟨p, hp, (noMetricLost_iff hp).2 hagree⟩

/-- An NVIDIA GPU under load. -/
def sampleNvidia : NvidiaGpu :=
  { util := some (.int 90), memory := none, powerW := none, fanPct := none, throttling := .int 0 }

/-- An AMD GPU that has little to do. -/
def sampleAmd : AmdGpu := { load := some (.float (.finite 5)), memory := none, powerW := none }

/-- A host with one GPU of each vendor. -/
def sampleMixedHost : ActiveCollectors where
  collected :=
    [(sampleEntry "gpu_amd",
        { readings := .gpuAmd [sampleAmd], sensors := [], inventory := [] }),
      (sampleEntry "gpu_nvidia",
        { readings := .gpuNvidia [sampleNvidia], sensors := [], inventory := [] })]
  distinct := by decide

/-- **A lost metric**: both GPUs are number zero, and one load overwrites the other. -/
theorem gpu_metrics_collide :
    ¬ ∃ p, (runOnce 0 0 sampleMixedHost.jobs).2 = some p ∧ sampleMixedHost.NoMetricLost p := by
  rintro ⟨p, hp, hkept⟩
  have hsame : SameValue (.int 90) (.float (.finite 5)) :=
    (noMetricLost_iff hp).1 hkept [sampleNvidia] [sampleAmd] ⟨_, List.mem_cons_of_mem _
      List.mem_cons_self, rfl⟩ ⟨_, List.mem_cons_self, rfl⟩ 0 sampleNvidia sampleAmd rfl rfl
      "gpu.util" (.int 90) (.float (.finite 5)) List.mem_cons_self List.mem_cons_self
  rcases hsame with heq | ⟨q, hq, hq'⟩
  · exact absurd heq (by simp)
  · have h90 : (90 : ℚ) = 5 := (Option.some.inj hq).trans (Option.some.inj hq').symm
    exact absurd h90 (by norm_num)

end OoAgent
