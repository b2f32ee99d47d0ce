import OoAgent.Collectors.Cron.Timers
import OoAgent.Lib.Traverse
import OoAgent.Python.Digits

/-!
# Timer jobs

`_timer_jobs` joins two listings: the timers, and the services they activate.  Either call of
`systemctl` may fail and print nothing, and units may be missing from what it prints.

* `parseSystemdTimestamp`, `timerJobs` — `parse_systemd_timestamp` and `_timer_jobs`.
* `timerJob_spec` — what a job says of its timer.
* `Evidenced` — a job is failed only where the block of its unit says so, and there are no
  more failed jobs than units of that kind.
* `failed_evidence_iff` — **no job is failed without evidence** exactly when every timer that
  shows a run has a service with a `Result`, and the timers that ran are no more than the
  failed units.
-/

namespace PyText

/-- `s.replace(old, new)` for an `old` that is not empty. -/
def replace (old new s : List Char) : List Char :=
  Scan.subst (fun s => if old.isPrefixOf s then some ((), old.length) else none) (fun _ => new) s

end PyText

namespace OoAgent

open PyText Traverse

/-! ## Timestamps -/

/-- The library's part in `parse_systemd_timestamp`, on floats `φ` and times `σ`. -/
structure TimeCalls (φ σ : Type) where
  /-- `float(s)`; `none` for a `ValueError`. -/
  float : List Char → Option φ
  /-- `time.strptime(s, "%Y-%m-%d %H:%M:%S")`; `none` for a `ValueError`. -/
  strptime : List Char → Option σ
  /-- `float(calendar.timegm(st))`. -/
  timegm : σ → φ
  /-- `time.mktime(st)`; `none` when it raises. -/
  mktime : σ → Option φ
  /-- `not x` of a float. -/
  isZero : φ → Bool

variable {φ σ : Type}

/-- `parse_systemd_timestamp`; the outer `none` is an exception. -/
def parseSystemdTimestamp (calls : TimeCalls φ σ) (value : List Char) : Option (Option φ) :=
  let value := strip value
  if value = [] ∨ value = "n/a".toList ∨ value = "0".toList then some none
  else if value.head? = some '@' then some (calls.float value.tail)
  else
    match words value with
    | _ :: date :: time :: rest =>
      match calls.strptime (date ++ ' ' :: time) with
      | none => some none
      | some st =>
        if rest.head? = some "UTC".toList then some (some (calls.timegm st))
        else (calls.mktime st).map some
    | _ => some none

/-! ## The two listings -/

/-- The timer units of `systemctl list-units`. -/
def timerNames (listing : List Char) : List (List Char) :=
  (splitlines listing).filterMap fun line =>
    match words line with
    | name :: _ => if ".timer".toList.isSuffixOf name then some name else none
    | [] => none

/-- `info.get(key, "")`. -/
def Info.value (info : Info) (key : String) : List Char := (info.get key.toList).getD []

/-- The unit that a timer activates. -/
def unitOf (info : Info) : List Char :=
  if info.value "Unit" ≠ [] then info.value "Unit"
  else replace ".timer".toList ".service".toList (info.value "Id")

/-- The blocks of the services by their `Id`. -/
def servicesOf (servicesOut : List Char) : Dict (List Char) Info :=
  Dict.update [] ((parseShowBlocks servicesOut).map fun info => (info.value "Id", info))

/-- `services.get(unit, {})`. -/
def serviceOf (services : Dict (List Char) Info) (info : Info) : Info :=
  (services.get (unitOf info)).getD []

/-! ## Jobs -/

/-- `last_status`. -/
inductive JobStatus
  | started | unknown | ok | failed
deriving DecidableEq

/-- What `_timer_jobs` returns for a timer. -/
structure TimerJob (φ : Type) where
  schedule : List Char
  command : List Char
  name : List Char
  enabled : Bool
  nextRun : Option φ
  lastRun : Option φ
  lastStatus : JobStatus
  exitCode : Option ℤ
deriving DecidableEq

/-- The last run: the start of the service, or else the last trigger of the timer. -/
def lastRunOf (calls : TimeCalls φ σ) (services : Dict (List Char) Info) (info : Info) :
    Option (Option φ) := do
  let service := serviceOf services info
  match ← parseSystemdTimestamp calls (service.value "ExecMainStartTimestamp") with
  | some started =>
    if calls.isZero started then parseSystemdTimestamp calls (info.value "LastTriggerUSec")
    else return some started
  | none => parseSystemdTimestamp calls (info.value "LastTriggerUSec")

/-- `exit_status.lstrip("-").isdigit()`. -/
def isExitStatus (exitStatus : List Char) : Bool :=
  let digits := exitStatus.dropWhile (· == '-')
  digits != [] && digits.all isDigit

/-- The exit code of a timer with that last run. -/
def exitCodeOf (exitStatus : List Char) (lastRun : Option φ) : Option (Option ℤ) :=
  if isExitStatus exitStatus && lastRun.isSome then (parseInt exitStatus).map some
  else some none

/-- `last_status` for a last run and a `Result`. -/
def timerStatus (lastRun : Option φ) (result : Option (List Char)) : JobStatus :=
  if lastRun.isNone then .unknown
  else if result = some "success".toList then .ok
  else .failed

/-- The entry of a timer. -/
def timerEntry (service info : Info) (lastRun nextRun : Option φ) (exitCode : Option ℤ) :
    TimerJob φ where
  schedule := timerSchedule info
  command := unitOf info
  name := info.value "Id"
  enabled := info.value "UnitFileState" ∉ ["disabled".toList, "masked".toList]
  nextRun := nextRun
  lastRun := lastRun
  lastStatus := timerStatus lastRun (service.get "Result".toList)
  exitCode := exitCode

/-- The job of one timer; `none` when an exception ends the loop. -/
def timerJob (calls : TimeCalls φ σ) (services : Dict (List Char) Info) (info : Info) :
    Option (TimerJob φ) := do
  let service := serviceOf services info
  let lastRun ← lastRunOf calls services info
  let nextRun ← parseSystemdTimestamp calls (info.value "NextElapseUSecRealtime")
  let exitCode ← exitCodeOf (service.value "ExecMainStatus") lastRun
  return timerEntry service info lastRun nextRun exitCode

/-- The timers that `_timer_jobs` goes through. -/
def shownTimers (listing timersOut : List Char) : List Info :=
  if timerNames listing = [] then [] else parseShowBlocks timersOut

/-- `_timer_jobs`, from what the three calls of `systemctl` print; `none` when it raises. -/
def timerJobs (calls : TimeCalls φ σ) (listing timersOut servicesOut : List Char) :
    Option (List (TimerJob φ)) :=
  (shownTimers listing timersOut).mapM (timerJob calls (servicesOf servicesOut))

/-- `cron.failed` of these jobs. -/
def failedCount (jobs : List (TimerJob φ)) : ℕ :=
  jobs.countP fun job => decide (job.lastStatus = .failed)

/-! ## Evidence -/

/-- The `Result` that the block of a unit carries, if the block is there and has one. -/
def resultOf (services : Dict (List Char) Info) (unit : List Char) : Option (List Char) :=
  (services.get unit).bind fun block => block.get "Result".toList

/-- The block of a unit carries a `Result` other than `success`. -/
def BadResult (services : Dict (List Char) Info) (unit : List Char) : Prop :=
  ∃ r, resultOf services unit = some r ∧ r ≠ "success".toList

theorem badResult_iff {services : Dict (List Char) Info} {unit : List Char} :
    BadResult services unit ↔
      resultOf services unit ≠ none ∧ resultOf services unit ≠ some "success".toList := by
  unfold BadResult
  generalize "success".toList = success
  cases resultOf services unit <;> simp

instance (services : Dict (List Char) Info) (unit : List Char) :
    Decidable (BadResult services unit) := decidable_of_iff' _ badResult_iff

/-- The number of units with such a `Result`. -/
def badUnits (services : Dict (List Char) Info) : ℕ :=
  (services.map Prod.fst).countP fun unit => decide (BadResult services unit)

/-- A failed job has the `Result` of its own unit to show for it, and there are no more failed
jobs than such units. -/
structure Evidenced (services : Dict (List Char) Info) (jobs : List (TimerJob φ)) : Prop where
  own : ∀ job ∈ jobs, job.lastStatus = .failed → BadResult services job.command
  count : failedCount jobs ≤ badUnits services

/-- The timer shows a run: one of its service, or one of its own. -/
def HasRun (calls : TimeCalls φ σ) (services : Dict (List Char) Info) (info : Info) : Prop :=
  ∃ time, lastRunOf calls services info = some (some time)

instance (calls : TimeCalls φ σ) (services : Dict (List Char) Info) (info : Info) :
    Decidable (HasRun calls services info) :=
  decidable_of_iff ((lastRunOf calls services info).any Option.isSome = true) (by
    simp [HasRun, Option.any_eq_true, Option.isSome_iff_exists])

/-- A time or an exit code of the timer raises. -/
def Raises (calls : TimeCalls φ σ) (services : Dict (List Char) Info) (info : Info) : Prop :=
  lastRunOf calls services info = none ∨
    parseSystemdTimestamp calls (info.value "NextElapseUSecRealtime") = none ∨
    HasRun calls services info ∧
      isExitStatus ((serviceOf services info).value "ExecMainStatus") = true ∧
      parseInt ((serviceOf services info).value "ExecMainStatus") = none

/-- Every timer that shows a run has a service with a `Result`, and the timers that ran with a
bad one are no more than the units that have it. -/
structure ResultsShown (calls : TimeCalls φ σ) (services : Dict (List Char) Info)
    (timers : List Info) : Prop where
  shown : ∀ info ∈ timers, HasRun calls services info → resultOf services (unitOf info) ≠ none
  count : (timers.countP fun info => decide (HasRun calls services info ∧
    BadResult services (unitOf info))) ≤ badUnits services

section

variable {calls : TimeCalls φ σ} {services : Dict (List Char) Info} {info : Info}

theorem exitCodeOf_eq_none {exitStatus : List Char} {lastRun : Option φ} :
    exitCodeOf exitStatus lastRun = none ↔
      (∃ time, lastRun = some time) ∧ isExitStatus exitStatus = true ∧
        parseInt exitStatus = none := by
  unfold exitCodeOf
  cases lastRun <;> cases isExitStatus exitStatus <;> simp

theorem serviceOf_result :
    (serviceOf services info).get "Result".toList = resultOf services (unitOf info) := by
  unfold serviceOf resultOf
  cases services.get (unitOf info) <;> rfl

theorem timerStatus_eq_failed {lastRun : Option φ} {result : Option (List Char)} :
    timerStatus lastRun result = .failed ↔
      (∃ time, lastRun = some time) ∧ result ≠ some "success".toList := by
  unfold timerStatus
  generalize some "success".toList = success
  cases lastRun with
  | none => simp
  | some time => by_cases hok : result = success <;> simp [hok]

/-- **What a job says**: the schedule and the unit of its timer, and when it is failed. -/
theorem timerJob_spec {job : TimerJob φ} (h : timerJob calls services info = some job) :
    job.schedule = timerSchedule info ∧ job.command = unitOf info ∧
      (job.lastStatus = .failed ↔ HasRun calls services info ∧
        resultOf services (unitOf info) ≠ some "success".toList) := by
  unfold timerJob at h
  simp only [Option.bind_eq_bind, Option.bind_eq_some_iff, Option.pure_def,
    Option.some.injEq] at h
  obtain ⟨lastRun, hlast, nextRun, -, exitCode, -, rfl⟩ := h
  refine ⟨rfl, rfl, ?_⟩
  rw [timerEntry, timerStatus_eq_failed, serviceOf_result, HasRun, hlast]
  simp only [Option.some.injEq]

/-- **A job raises** exactly where one of its times or its exit code does. -/
theorem timerJob_eq_none : timerJob calls services info = none ↔ Raises calls services info := by
  unfold timerJob Raises HasRun
  cases hlast : lastRunOf calls services info with
  | none => simp
  | some lastRun =>
    cases hnext : parseSystemdTimestamp calls (info.value "NextElapseUSecRealtime") with
    | none => simp
    | some nextRun =>
      cases hexit : exitCodeOf ((serviceOf services info).value "ExecMainStatus") lastRun with
      | none => simpa [hexit] using exitCodeOf_eq_none.1 hexit
      | some exitCode =>
        have hnot := mt exitCodeOf_eq_none.2 (by rw [hexit]; simp :
          exitCodeOf ((serviceOf services info).value "ExecMainStatus") lastRun ≠ none)
        simpa [hexit] using hnot

/-- The evidence for the jobs of a listing. -/
theorem evidenced_iff {timers : List Info} {jobs : List (TimerJob φ)}
    (h : timers.mapM (timerJob calls services) = some jobs) :
    Evidenced services jobs ↔ ResultsShown calls services timers := by
  have hown : (∀ job ∈ jobs, job.lastStatus = .failed → BadResult services job.command) ↔
      ∀ info ∈ timers, HasRun calls services info → resultOf services (unitOf info) ≠ none := by
    rw [forall_mem_of_mapM h]
    refine forall₂_congr fun info hinfo => ?_
    obtain ⟨job, hjob⟩ := Option.ne_none_iff_exists'.1 (exists_mapM_iff.1 ⟨jobs, h⟩ info hinfo)
    obtain ⟨-, hcommand, hfailed⟩ := timerJob_spec hjob
    simp only [hjob, Option.some.injEq, forall_eq', hcommand, hfailed, badResult_iff]
    constructor
    · intro hjobs hrun hnone
      exact (hjobs ⟨hrun, by simp [hnone]⟩).1 hnone
    · rintro hshown ⟨hrun, hbad⟩
      exact ⟨hshown hrun, hbad⟩
  -- with a `Result` for every run, the failed ones are the bad ones
  have hcount (hshown : ∀ info ∈ timers, HasRun calls services info →
      resultOf services (unitOf info) ≠ none) : failedCount jobs =
        timers.countP fun info => decide (HasRun calls services info ∧
          BadResult services (unitOf info)) := by
    refine countP_of_mapM h fun info hinfo job hjob => ?_
    rw [decide_eq_decide, (timerJob_spec hjob).2.2, badResult_iff]
    constructor
    · rintro ⟨hrun, hbad⟩
      exact ⟨hrun, hshown info hinfo hrun, hbad⟩
    · rintro ⟨hrun, -, hbad⟩
      exact ⟨hrun, hbad⟩
  constructor
  · rintro ⟨hjobs, hfew⟩
    exact ⟨hown.1 hjobs, hcount (hown.1 hjobs) ▸ hfew⟩
  · rintro ⟨hshown, hfew⟩
    exact ⟨hown.2 hshown, (hcount hshown).symm ▸ hfew⟩

end

/-- **No job is failed without evidence**, for what the calls of `systemctl` print, exactly when
every timer that shows a run has a service with a `Result`, and the timers that ran are no
more than the failed units. -/
theorem failed_evidence_iff (calls : TimeCalls φ σ) (listing timersOut servicesOut : List Char) :
    (∀ jobs, timerJobs calls listing timersOut servicesOut = some jobs →
      Evidenced (servicesOf servicesOut) jobs) ↔
    ((∀ info ∈ shownTimers listing timersOut, ¬ Raises calls (servicesOf servicesOut) info) →
      ResultsShown calls (servicesOf servicesOut) (shownTimers listing timersOut)) := by
  unfold timerJobs
  generalize servicesOf servicesOut = services, shownTimers listing timersOut = timers
  simp only [← timerJob_eq_none, ← ne_eq]
  rw [← exists_mapM_iff]
  constructor
  · rintro h ⟨jobs, hjobs⟩
    exact (evidenced_iff hjobs).1 (h jobs hjobs)
  · intro h jobs hjobs
    exact (evidenced_iff hjobs).2 (h ⟨jobs, hjobs⟩)

/-- Library calls that read one time. -/
def sampleCalls : TimeCalls ℕ Unit where
  float := fun _ => none
  strptime := fun s => if s = "2026-07-12 16:50:04".toList then some () else none
  timegm := fun _ => 1783875004
  mktime := fun _ => none
  isZero := (· == 0)

/-- **A call that prints nothing** fails every timer that has run. -/
theorem hiccup_fails_timer :
    ¬ ∀ (calls : TimeCalls ℕ Unit) (listing timersOut servicesOut : List Char),
      ∀ jobs, timerJobs calls listing timersOut servicesOut = some jobs →
        Evidenced (servicesOf servicesOut) jobs := by
  intro h
  have hfailed : (timerJobs sampleCalls "backup.timer loaded active waiting\n".toList
      "Id=backup.timer\nUnit=backup.service\nLastTriggerUSec=Sun 2026-07-12 16:50:04 UTC\n".toList
      []).map failedCount = some 1 := by decide +kernel
  obtain ⟨jobs, hjobs, hcount⟩ := Option.map_eq_some_iff.1 hfailed
  have hfew := (h _ _ _ _ jobs hjobs).count
  rw [hcount] at hfew
  exact absurd hfew (by decide +kernel)

end OoAgent
