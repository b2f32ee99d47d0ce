import OoAgent.Core.Merge
import OoAgent.Lib.Machine
import OoAgent.Transport.Http

/-!
# The scheduler

`run_once` runs the included collectors one after the other and merges what they
return; `run_forever` ticks, runs the collectors that are due, and hands the result to
the sink.  Only `collect()` itself runs inside a `try`.

* `runEntry` — `_run_entry`, with the backoff of a failing collector.
* `runJobs`, `runOnce` — the loop of `run_once`, which ends when something raises.
* `schedulerLoop` — `run_forever` as a machine over ticks; its state is gone once an
  exception has left the loop.
-/

namespace OoAgent

/-! ## Entries -/

/-- A scheduled collector with its runtime state. -/
structure Entry where
  name : String
  /-- Seconds between two runs. -/
  interval : Int
  custom : Bool
  disabled : Bool
  /-- Consecutive failures. -/
  failures : Nat
  retryAt : Time

/-- What a call of `collect()` comes to. -/
inductive Collect where
  /-- It raised an `Exception`; the clock reads `at_` when that is handled. -/
  | raised (at_ : Time)
  | returned (v : Value)

/-- What `_run_entry` came to: a payload, `None`, or an exception of its own. -/
inductive Ran where
  | payload (v : Value)
  | failed
  | escaped

/-- `_BACKOFF_BASE`, in seconds. -/
def backoffBase : Nat := 300

/-- `_BACKOFF_MAX`, in seconds. -/
def backoffMax : Nat := 3600

/-- The powers of two from this exponent on are too large for a float. -/
def floatExponents : Nat := 1024

/-- The cooldown after this many failures; `none` when `2 ** (failures - 1)` does not
fit a float. -/
def cooldown (failures : Nat) : Option Time :=
  if floatExponents ≤ failures - 1 then none
  else some (seconds (min (backoffBase * 2 ^ (failures - 1)) backoffMax))

/-- `_run_entry`. -/
def runEntry (e : Entry) : Collect → Entry × Ran
  | .returned v =>
    ({ e with failures := 0, retryAt := 0 }, .payload (v.orElse (.dict [])))
  | .raised at_ =>
    match cooldown (e.failures + 1) with
    | none => ({ e with failures := e.failures + 1 }, .escaped)
    | some t => ({ e with failures := e.failures + 1, retryAt := at_ + t }, .failed)

/-- The prefix of the metrics of a custom plugin. -/
def Entry.metricPrefix (e : Entry) : String :=
  if e.custom then "custom." ++ e.name ++ "." else ""

/-! ## One run -/

/-- An entry in one call of `run_once`: whether `include` takes it, and what its
`collect()` comes to if it is run. -/
structure Job where
  entry : Entry
  included : Bool
  call : Collect

/-- The entry is run. -/
def Job.runs (j : Job) : Bool := !j.entry.disabled && j.included

/-- The loop of `run_once`: the entries afterwards and what was assembled, `none` when
an exception left the loop. -/
def runJobs : Assembled → List Job → List Entry × Option Assembled
  | a, [] => ([], some a)
  | a, j :: js =>
    if j.runs then
      match runEntry j.entry j.call with
      | (e, .escaped) => (e :: js.map Job.entry, none)
      | (e, .failed) => (e :: (runJobs a js).1, (runJobs a js).2)
      | (e, .payload v) =>
        match merge e.metricPrefix a v with
        | none => (e :: js.map Job.entry, none)
        | some a' => (e :: (runJobs a' js).1, (runJobs a' js).2)
    else (j.entry :: (runJobs a js).1, (runJobs a js).2)

/-- The payload `run_once` assembles, without the `agent` block. -/
structure PushPayload where
  ts : Int
  metrics : Dict String Value
  sensors : List Value
  /-- `none` when there is none. -/
  inventory : Option (Dict Key Value)
  capabilities : List String

/-- `capabilities`. -/
def capabilities (entries : List Entry) (now : Time) : List String :=
  ((entries.filter fun e => !e.disabled && decide (e.retryAt ≤ now)).map Entry.name).mergeSort
    fun a b => decide (a ≤ b)

/-- What `run_once` makes of the three channels. -/
def assemble (ts : Int) (capable : List String) (a : Assembled) : PushPayload :=
  { ts := ts
    metrics := a.metrics
    sensors := a.sensors
    inventory := if a.inventory.isEmpty then none else some a.inventory
    capabilities := capable }

/-- `run_once`, at a wall-clock time and a reading of the monotonic clock; `none` when
it raises. -/
def runOnce (ts : Int) (now : Time) (jobs : List Job) : List Entry × Option PushPayload :=
  let ran := runJobs .empty jobs
  (ran.1, ran.2.map (assemble ts (capabilities (jobs.map Job.entry) now)))

/-! ## The daemon loop -/

/-- The state of `run_forever`. -/
structure Loop where
  entries : List Entry
  /-- `next_run`, in nanoseconds of the monotonic clock. -/
  nextRun : String → Int

/-- One tick of the loop: its clock readings, and what the collector of each entry
comes to if it is run. -/
structure Tick where
  now : Time
  ts : Int
  capableAt : Time
  calls : Nat → Collect

/-- What a tick shows: a payload handed to the sink, or the exception that ended the
loop. -/
inductive LoopEvent where
  | sunk (payload : PushPayload)
  | died

namespace Loop

/-- `run_forever` before its first tick. -/
def start (entries : List Entry) : Loop := { entries := entries, nextRun := fun _ => 0 }

/-- The entry is due. -/
def due (l : Loop) (now : Time) (e : Entry) : Bool :=
  !e.disabled && (decide (l.nextRun e.name ≤ now) && decide (e.retryAt ≤ now))

/-- The jobs of a tick: the due entries are included. -/
def jobs (l : Loop) (t : Tick) : List Job :=
  l.entries.mapIdx fun i e => { entry := e, included := l.due t.now e, call := t.calls i }

/-- `next_run` once the due entries are scheduled again. -/
def rescheduled (l : Loop) (now : Time) : String → Int :=
  (l.entries.filter (l.due now)).foldl
    (fun next e => Function.update next e.name (now + e.interval * seconds 1)) l.nextRun

/-- One turn of the loop. -/
def tick (l : Loop) (t : Tick) : Option Loop × List LoopEvent :=
  if (l.entries.filter (l.due t.now)).isEmpty then (some l, [])
  else
    match runOnce t.ts t.capableAt (l.jobs t) with
    | (_, none) => (none, [.died])
    | (entries, some payload) =>
      (some { entries := entries, nextRun := l.rescheduled t.now },
        if payload.metrics.isEmpty && payload.inventory.isNone then [] else [.sunk payload])

end Loop

/-- `run_forever` over ticks. -/
def schedulerLoop : Machine (Option Loop) Tick LoopEvent where
  step
    | none, _ => (none, [])
    | some l, t => l.tick t

end OoAgent
