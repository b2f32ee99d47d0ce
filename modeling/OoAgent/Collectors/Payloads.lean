import OoAgent.Lib.Dict
import OoAgent.Python.Value

/-!
# What the built-in collectors return

Each built-in collector turns what it read into a dictionary of metrics, a list of
sensors and an inventory.  The readings are taken as they come from the system, each
already the value of the expression the source writes under its key; the keys, and
when they are there at all, are the source's.

* `systemMetrics`, `fsMetrics`, … — the metrics of each collector.
* `Readings` — the readings of any one of them; `Readings.metrics` its metrics.
* `Produced` — everything one call of `collect()` returned.
-/

namespace OoAgent

/-- `f"{name}[{index}]"`. -/
def indexed (name index : String) : String := name ++ "[" ++ index ++ "]"

/-- The dictionary that results from writing these items. -/
def metricsOf (items : List (String × Value)) : Dict String Value := Dict.update [] items

/-! ## Host metrics -/

/-- What `system.py` reads. -/
structure SystemReadings where
  cpuTotal : Value
  perCore : List Value
  memPercent : Value
  memUsed : Value
  memTotal : Value
  swapPercent : Value
  swapUsed : Value
  swapTotal : Value
  uptime : Value
  /-- The load averages, where the platform has them. -/
  loads : Option (Value × Value × Value)
  /-- `int(grew)`, where there are throttle counters. -/
  grew : Option Value

/-- The metrics of `SystemCollector.collect`. -/
def systemMetrics (r : SystemReadings) : Dict String Value :=
  metricsOf ([("cpu.util", r.cpuTotal), ("cpu.util.core", .list r.perCore),
      ("cpu.num", .int r.perCore.length), ("mem.pused", r.memPercent), ("mem.used", r.memUsed),
      ("mem.total", r.memTotal), ("swap.pused", r.swapPercent), ("swap.used", r.swapUsed),
      ("swap.total", r.swapTotal), ("system.uptime", r.uptime)] ++
    (r.loads.toList.flatMap fun (load1, load5, load15) =>
      [("system.load1", load1), ("system.load5", load5), ("system.load15", load15)]) ++
    r.grew.toList.map fun grew => ("cpu.throttle", grew))

/-- A partition that `fs.py` does not skip. -/
structure Mount where
  mountpoint : String
  percent : Value
  used : Value
  total : Value

/-- The metrics of `FsCollector.collect`. -/
def fsMetrics (mounts : List Mount) : Dict String Value :=
  metricsOf (mounts.flatMap fun m =>
    [(indexed "fs.pused" m.mountpoint, m.percent), (indexed "fs.used" m.mountpoint, m.used),
      (indexed "fs.total" m.mountpoint, m.total)])

/-- The metrics of `DiskIoCollector.collect`, from the read and write rates if there are
any yet. -/
def diskioMetrics (rates : Option (Value × Value)) : Dict String Value :=
  metricsOf (rates.toList.flatMap fun (read, write) =>
    [("diskio.read.kbps", read), ("diskio.write.kbps", write)])

/-- The metrics of `NetCollector.collect`, from the two rates if there are any yet. -/
def netMetrics (rates : Option (Value × Value)) : Dict String Value :=
  metricsOf (rates.toList.flatMap fun (rx, tx) => [("net.rx.kbps", rx), ("net.tx.kbps", tx)])

/-- The metrics of `TcpConnCollector.collect`. -/
def tcpconnMetrics (established synRecv : Nat) : Dict String Value :=
  metricsOf [("net.tcp.established", .int established), ("net.tcp.synrecv", .int synRecv)]

/-- What `SecurityCollector.collect` counts. -/
structure SecurityReadings where
  ports : Nat
  firewall : String
  /-- Failed SSH logins, when a log could be read. -/
  failed : Option Int
  /-- Pending updates, when a package manager answered. -/
  updates : Option Int

/-- The metrics of `SecurityCollector.collect`. -/
def securityMetrics (r : SecurityReadings) : Dict String Value :=
  metricsOf ([("security.ports.listen", .int r.ports),
      ("security.firewall", .int (if r.firewall = "on" then 1 else 0))] ++
    (r.failed.toList.map fun failed => ("security.ssh_failed_24h", .int failed)) ++
    r.updates.toList.map fun updates => ("security.updates.pending", .int updates))

/-- The metrics of `CronCollector.collect`, from the `last_status` of each job. -/
def cronMetrics (statuses : List (Option String)) : Dict String Value :=
  metricsOf
    [("cron.jobs", .int statuses.length), ("cron.failed", .int (statuses.count (some "failed")))]

/-- A container entry, as far as it is counted. -/
structure ContainerState where
  state : String
  health : Option String
  oomKilled : Bool

/-- The metrics of `DockerStateCollector.collect`. -/
def dockerStateMetrics (entries : List ContainerState) : Dict String Value :=
  let count (p : ContainerState → Bool) : Value := .int (entries.countP p)
  metricsOf
    [("docker.containers.total", .int entries.length),
      ("docker.containers.running", count fun e => e.state = "running"),
      ("docker.containers.exited", count fun e => e.state = "exited"),
      ("docker.containers.restarting", count fun e => e.state = "restarting"),
      ("docker.containers.paused", count fun e => e.state = "paused"),
      ("docker.containers.unhealthy",
        count fun e => e.state = "running" && e.health = some "unhealthy"),
      ("docker.containers.oom_killed", count fun e => e.oomKilled)]

/-! ## GPU metrics -/

/-- The memory of a GPU. -/
structure GpuMemory where
  used : Value
  total : Value
  pused : Value

/-- The three readings of a GPU's memory, by the names of their metrics. -/
def GpuMemory.readings (m : GpuMemory) : List (String × Value) :=
  [("gpu.mem.used", m.used), ("gpu.mem.total", m.total), ("gpu.mem.pused", m.pused)]

/-- What NVML told about one GPU; `none` for what it did not, or for no power draw. -/
structure NvidiaGpu where
  util : Option Value
  memory : Option GpuMemory
  powerW : Option Value
  fanPct : Option Value
  throttling : Value

/-- The readings `NvidiaGpuCollector.collect` puts into the metrics. -/
def NvidiaGpu.readings (g : NvidiaGpu) : List (String × Value) :=
  (g.util.toList.map fun v => ("gpu.util", v)) ++
    g.memory.toList.flatMap GpuMemory.readings ++
    (g.powerW.toList.map fun v => ("gpu.power", v)) ++
    (g.fanPct.toList.map fun v => ("gpu.fan", v)) ++
    [("gpu.throttle", g.throttling)]

/-- What sysfs told about one AMD GPU. -/
structure AmdGpu where
  load : Option Value
  memory : Option GpuMemory
  powerW : Option Value

/-- The readings `AmdGpuCollector.collect` puts into the metrics. -/
def AmdGpu.readings (g : AmdGpu) : List (String × Value) :=
  (g.load.toList.map fun v => ("gpu.util", v)) ++
    g.memory.toList.flatMap GpuMemory.readings ++
    g.powerW.toList.map fun v => ("gpu.power", v)

/-- The writes of the loop over the GPUs: each collector numbers its own from zero. -/
def gpuWrites (gpus : List (List (String × Value))) : List (String × Value) :=
  gpus.zipIdx.flatMap fun (readings, index) =>
    readings.map fun reading => (indexed reading.1 (Nat.repr index), reading.2)

/-- The metrics of a list of GPUs. -/
def gpuMetrics (gpus : List (List (String × Value))) : Dict String Value :=
  metricsOf (gpuWrites gpus)

/-- The metrics of `NvidiaGpuCollector.collect`. -/
def nvidiaMetrics (gpus : List NvidiaGpu) : Dict String Value :=
  gpuMetrics (gpus.map NvidiaGpu.readings)

/-- The metrics of `AmdGpuCollector.collect`. -/
def amdMetrics (gpus : List AmdGpu) : Dict String Value := gpuMetrics (gpus.map AmdGpu.readings)

/-! ## Any collector -/

/-- The readings behind the metrics of a built-in collector. -/
inductive Readings where
  | system (r : SystemReadings)
  | fs (mounts : List Mount)
  | diskio (rates : Option (Value × Value))
  | net (rates : Option (Value × Value))
  | tcpconn (established synRecv : Nat)
  | security (r : SecurityReadings)
  | cron (statuses : List (Option String))
  | dockerState (entries : List ContainerState)
  | gpuNvidia (gpus : List NvidiaGpu)
  | gpuAmd (gpus : List AmdGpu)
  /-- The collectors without metrics. -/
  | docker
  | hardware
  | rapl
  | sensorsHwmon
  | sensorsLhm
  | smart

namespace Readings

/-- `collector.name`. -/
def name : Readings → String
  | .system _ => "system"
  | .fs _ => "fs"
  | .diskio _ => "diskio"
  | .net _ => "net"
  | .tcpconn _ _ => "tcpconn"
  | .security _ => "security"
  | .cron _ => "cron"
  | .dockerState _ => "docker_state"
  | .gpuNvidia _ => "gpu_nvidia"
  | .gpuAmd _ => "gpu_amd"
  | .docker => "docker"
  | .hardware => "hardware"
  | .rapl => "rapl"
  | .sensorsHwmon => "sensors_hwmon"
  | .sensorsLhm => "sensors_lhm"
  | .smart => "smart"

/-- The metrics of the collector. -/
def metrics : Readings → Dict String Value
  | .system r => systemMetrics r
  | .fs mounts => fsMetrics mounts
  | .diskio rates => diskioMetrics rates
  | .net rates => netMetrics rates
  | .tcpconn established synRecv => tcpconnMetrics established synRecv
  | .security r => securityMetrics r
  | .cron statuses => cronMetrics statuses
  | .dockerState entries => dockerStateMetrics entries
  | .gpuNvidia gpus => nvidiaMetrics gpus
  | .gpuAmd gpus => amdMetrics gpus
  | _ => []

end Readings

/-- A sensor of a built-in collector; `limits` holds `max`, `crit` and
`threshold_source` where the device has them. -/
structure Sensor where
  id : String
  name : String
  kind : String
  value : Value
  unit : String
  limits : List (Key × Value)

/-- The limits a device has for a sensor, and that they come from there. -/
def deviceLimits (limits : List (String × Option Value)) : List (Key × Value) :=
  let found : List (Key × Value) :=
    limits.filterMap fun (key, limit) => limit.map fun v => (.str key, v)
  if found = [] then [] else found ++ [(.str "threshold_source", .str "device")]

/-- The items of the sensor. -/
def Sensor.fields (s : Sensor) : List (Key × Value) :=
  [(.str "id", .str s.id), (.str "name", .str s.name), (.str "kind", .str s.kind),
    (.str "value", s.value), (.str "unit", .str s.unit)] ++ s.limits

/-- The sensor as it is returned. -/
def Sensor.toValue (s : Sensor) : Value := .dict s.fields

/-- What one call of a built-in `collect()` returned; a field the collector does not
have is empty. -/
structure Produced where
  readings : Readings
  sensors : List Sensor
  inventory : List (Key × Value)

/-- The metrics as they are returned. -/
def Produced.metricsValue (p : Produced) : Value :=
  .dict (p.readings.metrics.map fun item => (.str item.1, item.2))

/-- The sensors as they are returned. -/
def Produced.sensorsValue (p : Produced) : Value := .list (p.sensors.map Sensor.toValue)

/-- The payload as it is returned. -/
def Produced.payload (p : Produced) : Value :=
  .dict [(.str "metrics", p.metricsValue), (.str "sensors", p.sensorsValue),
    (.str "inventory", .dict p.inventory)]

end OoAgent
