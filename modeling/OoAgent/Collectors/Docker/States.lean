import OoAgent.Collectors.Docker.Times
import OoAgent.Collectors.Payloads
import OoAgent.Python.Float

/-!
# States of containers

`DockerStateCollector` (`oo_agent/collectors/docker_state.py`) makes an entry of what Docker tells
about a container, sorts the entries by name and counts them.  A container whose data has another
shape is skipped.

* `ContainerEntry`, `containerEntry` — an entry, and `container_entry`; `none` where it raises.
* `dockerEntries`, `collectDockerState` — the sorted entries, and `collect`.
* `states_of_containers` — **the report does not depend on the order of the containers**, and its
  counts agree with each other.
-/

namespace OoAgent

open PyText

/-! ## One container -/

/-- `v.get(key)`; `none` where `v` has no `get`. -/
def getOf (v : Value) (key : String) : Option Value :=
  match v with
  | .dict items => some (Value.getD items key .none)
  | _ => none

/-- `v or {}`. -/
def orDict (v : Value) : Value := v.orElse (.dict [])

/-- `v or default`, for a text. -/
def orText (v : Value) (default : String) : Value := v.orElse (.str default)

/-- `v or None`. -/
def orNothing (v : Value) : Value := v.orElse .none

/-- `parse_docker_time` on any value; `none` where it raises. -/
def dockerTimeOf (v : Value) : Option (Option ℚ) :=
  if v.truthy then
    match v with
    | .str s => some (parseDockerTime s.toList)
    | _ => none
  else some none

/-- `v[:12]`; `none` where it raises. -/
def firstTwelve : Value → Option Value
  | .str s => some (.str (String.ofList (s.toList.take 12)))
  | .list items => some (.list (items.take 12))
  | .tuple items => some (.tuple (items.take 12))
  | _ => none

/-- `v.lstrip("/")`; `none` where it raises. -/
def withoutSlash : Value → Option (List Char)
  | .str s => some (s.toList.dropWhile (· = '/'))
  | _ => none

/-- An entry of the inventory. -/
structure ContainerEntry where
  id : Value
  name : List Char
  image : Value
  state : Value
  health : Value
  exitCode : Value
  oomKilled : Bool
  error : Value
  restartCount : Value
  restartPolicy : Value
  startedAt : Option ℚ
  finishedAt : Option ℚ
  uptime : Option ℤ

/-- `status == "running"`. -/
def isRunning (status : Value) : Bool :=
  match status with
  | .str s => s = "running"
  | _ => false

/-- `attrs.get("RestartCount", 0)`. -/
def restarts : Value → Value
  | .dict items => Value.getD items "RestartCount" (.int 0)
  | _ => .none

/-- `container_entry`; `none` where it raises. -/
def containerEntry (attrs : Value) (now : ℚ) : Option ContainerEntry := do
  let state := orDict (← getOf attrs "State")
  let status := orText (← getOf state "Status") "unknown"
  let running := isRunning status
  let started ← dockerTimeOf (orText (← getOf state "StartedAt") "")
  let policy := orDict (← getOf (orDict (← getOf attrs "HostConfig")) "RestartPolicy")
  let id ← firstTwelve (orText (← getOf attrs "Id") "")
  let name ← withoutSlash (orText (← getOf attrs "Name") "")
  let image ← getOf (orDict (← getOf attrs "Config")) "Image"
  let health ← getOf (orDict (← getOf state "Health")) "Status"
  let exitCode ← getOf state "ExitCode"
  let oomKilled ← getOf state "OOMKilled"
  let error ← getOf state "Error"
  let policyName ← getOf policy "Name"
  let finished ←
    if running then some none else dockerTimeOf (orText (← getOf state "FinishedAt") "")
  return {
    id := id
    name := name
    image := orText image ""
    state := status
    health := orNothing health
    exitCode := if running then .none else exitCode
    oomKilled := oomKilled.truthy
    error := orNothing error
    restartCount := restarts attrs
    restartPolicy := orText policyName "no"
    startedAt := started
    finishedAt := finished
    uptime :=
      -- a start at the epoch counts as none
      (started.filter fun t => running && t ≠ 0).bind fun t => PyFloat.trunc (.finite (now - t)) }

namespace ContainerEntry

/-- A moment that may be missing. -/
def moment (t : Option ℚ) : Value := (t.map fun t => .float (.finite t)).getD .none

/-- The entry as it is sent. -/
def toValue (e : ContainerEntry) : Value :=
  .dict
    [(.str "id", e.id), (.str "name", .str (String.ofList e.name)), (.str "image", e.image),
      (.str "state", e.state), (.str "health", e.health), (.str "exit_code", e.exitCode),
      (.str "oom_killed", .bool e.oomKilled), (.str "error", e.error),
      (.str "restart_count", e.restartCount), (.str "restart_policy", e.restartPolicy),
      (.str "started_at", moment e.startedAt), (.str "finished_at", moment e.finishedAt),
      (.str "uptime_s", (e.uptime.map Value.int).getD .none)]

/-- What is counted of the entry. -/
def counted (e : ContainerEntry) : ContainerState where
  state := match e.state with | .str s => s | _ => ""
  health := match e.health with | .str s => some s | _ => none
  oomKilled := e.oomKilled

end ContainerEntry

/-! ## The collector -/

/-- The entries, sorted by name; what raises is skipped. -/
def dockerEntries (containers : List Value) (now : ℚ) : List ContainerEntry :=
  (containers.filterMap fun attrs => containerEntry attrs now).insertionSort
    fun a b => a.name ≤ b.name

/-- `DockerStateCollector.collect`. -/
def collectDockerState (containers : List Value) (now : ℚ) : Produced where
  readings := .dockerState ((dockerEntries containers now).map ContainerEntry.counted)
  sensors := []
  inventory :=
    [(.str "docker_states", .list ((dockerEntries containers now).map ContainerEntry.toValue))]

/-! ## The order of the containers -/

/-- No element is counted under two keys. -/
theorem sum_countP_le {α β : Type} [DecidableEq β] (f : α → β) {keys : List β} (h : keys.Nodup)
    (l : List α) : (keys.map fun key => l.countP fun a => f a = key).sum ≤ l.length := by
  induction l with
  | nil => simp
  | cons a l ih =>
    have hstep : (keys.map fun key => (a :: l).countP fun a => f a = key).sum =
        (keys.map fun key => l.countP fun a => f a = key).sum + keys.count (f a) := by
      clear h ih
      induction keys with
      | nil => rfl
      | cons key keys ih =>
        rw [List.map_cons, List.map_cons, List.sum_cons, List.sum_cons, ih, List.countP_cons,
          List.count_cons]
        by_cases hkey : f a = key
        · simp only [hkey, decide_true, if_true, BEq.rfl]
          omega
        · have hne : (key == f a) = false := beq_eq_false_iff_ne.2 fun heq => hkey heq.symm
          simp only [hkey, decide_false, Bool.false_eq_true, if_false, hne]
          omega
    have hcount := List.nodup_iff_count_le_one.1 h (f a)
    rw [hstep, List.length_cons]
    omega

theorem sorted_dockerEntries (containers : List Value) (now : ℚ) :
    (dockerEntries containers now).Pairwise fun a b => a.name ≤ b.name := by
  have htotal : Std.Total fun a b : ContainerEntry => a.name ≤ b.name :=
    ⟨fun a b => le_total a.name b.name⟩
  have htrans : IsTrans ContainerEntry fun a b => a.name ≤ b.name :=
    ⟨fun a b c => le_trans⟩
  exact List.pairwise_insertionSort _ _

/-- Containers in another order have the same entries. -/
theorem perm_dockerEntries {containers containers' : List Value} (h : containers.Perm containers')
    (now : ℚ) : (dockerEntries containers now).Perm (dockerEntries containers' now) :=
  (List.perm_insertionSort _ _).trans
    ((h.filterMap _).trans (List.perm_insertionSort _ _).symm)

/-- The metrics are those of the entries in any order. -/
theorem metrics_of_perm {entries entries' : List ContainerState} (h : entries.Perm entries') :
    dockerStateMetrics entries = dockerStateMetrics entries' := by
  simp only [dockerStateMetrics, h.length_eq, h.countP_eq]

/-- **The report does not depend on the order of the containers.**  The metrics are the same for
any order, and so is the whole report where the names are distinct, whose entries are sorted by
name.  No container is counted in two states, and only running ones as unhealthy. -/
theorem states_of_containers (containers : List Value) (now : ℚ) :
    (∃ total running exited restarting paused unhealthy oomKilled : ℕ,
      (collectDockerState containers now).readings.metrics =
        [("docker.containers.total", .int total), ("docker.containers.running", .int running),
          ("docker.containers.exited", .int exited),
          ("docker.containers.restarting", .int restarting),
          ("docker.containers.paused", .int paused),
          ("docker.containers.unhealthy", .int unhealthy),
          ("docker.containers.oom_killed", .int oomKilled)] ∧
      running + exited + restarting + paused ≤ total ∧ unhealthy ≤ running ∧
      oomKilled ≤ total) ∧
    ((dockerEntries containers now).Pairwise fun a b => a.name ≤ b.name) ∧
    ∀ containers', containers.Perm containers' →
      (collectDockerState containers' now).readings.metrics =
        (collectDockerState containers now).readings.metrics ∧
      (((dockerEntries containers now).map ContainerEntry.name).Nodup →
        collectDockerState containers' now = collectDockerState containers now) := by
  refine ⟨?_, sorted_dockerEntries containers now, ?_⟩
  · generalize hentries : (dockerEntries containers now).map ContainerEntry.counted = entries
    have hkeys : ["running", "exited", "restarting", "paused"].Nodup := by decide
    have hstates := sum_countP_le ContainerState.state hkeys entries
    refine ⟨entries.length, entries.countP fun e => e.state = "running",
      entries.countP fun e => e.state = "exited", entries.countP fun e => e.state = "restarting",
      entries.countP fun e => e.state = "paused",
      entries.countP fun e => e.state = "running" && e.health = some "unhealthy",
      entries.countP fun e => e.oomKilled, ?_, ?_, ?_, List.countP_le_length⟩
    · change dockerStateMetrics ((dockerEntries containers now).map ContainerEntry.counted) = _
      rw [hentries]
      rfl
    · simpa [Nat.add_assoc] using hstates
    · apply List.countP_mono_left
      intro e he hboth
      exact (Bool.and_eq_true _ _ ▸ hboth).1
  · intro containers' hperm
    have hentries := perm_dockerEntries hperm now
    refine ⟨metrics_of_perm (hentries.symm.map _), fun hnames => ?_⟩
    have heq : dockerEntries containers now = dockerEntries containers' now := by
      apply hentries.eq_of_pairwise ?_ (sorted_dockerEntries containers now)
        (sorted_dockerEntries containers' now)
      intro a b ha hb hab hba
      exact List.inj_on_of_nodup_map hnames ha (hentries.mem_iff.2 hb) (le_antisymm hab hba)
    rw [collectDockerState, collectDockerState, heq]

end OoAgent
