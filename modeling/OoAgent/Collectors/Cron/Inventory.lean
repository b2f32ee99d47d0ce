import OoAgent.Collectors.Cron.TimerJobs
import OoAgent.Collectors.Cron.Crontab

/-!
# The job inventory

`collect` gathers the jobs of five sources, and gives each an id: a digest of its source,
user, schedule and command, joined by bars.  The backend joins the history of a job on it.

* `jobName`, `logFile` — `job_name` and `log_file`.
* `CronHost` — what the collector reads; `listedJobs`, `collectCron` — `_system_jobs`,
  `_user_jobs`, `_dir_jobs` and `collect`.
* `hashed_eq_iff` — two jobs are hashed alike when they agree in the four fields, or a bar in
  a user or a schedule stands where a field of the other ends.
* `DistinctKeys` — no line in two files of `cron.d`, no two timers with one schedule and unit,
  no such bar.
* `job_ids_iff` — **ids are a join key** exactly then.
-/

namespace OoAgent

open PyText Scan Traverse

/-! ## Commands -/

/-- The target of a redirection that starts here, behind the digit and the arrow: the white
space before it, and the word. -/
def redirectTarget (taken : ℕ) (s : List Char) : Option (List Char × ℕ) :=
  let target := (lstrip s).takeWhile fun c => !isSpace c
  if target = [] then none
  else some (target, taken + (s.takeWhile isSpace).length + target.length)

/-- `\d?>>?\s*(\S+)` at the start of a text: the target, and how much matches. -/
def redirectArrow (s : List Char) : Option (List Char × ℕ) :=
  let digit := s.head?.any fun c => (decimal c).isSome
  let taken := if digit then 1 else 0
  match s.drop taken with
  | '>' :: '>' :: rest =>
    (redirectTarget (taken + 2) rest).or (redirectTarget (taken + 1) ('>' :: rest))
  | '>' :: rest => redirectTarget (taken + 1) rest
  | _ => none

/-- `_REDIRECT` behind the start of the text: white space comes first. -/
def redirectBehind : List Char → Option (List Char × ℕ)
  | [] => none
  | c :: cs =>
    if isSpace c then (redirectArrow cs).map fun (target, taken) => (target, taken + 1) else none

/-- The targets of `_REDIRECT.finditer(command)`. -/
def redirects (command : List Char) : List (List Char) :=
  match redirectArrow command with
  | some (target, taken) => target :: scan redirectBehind (command.drop taken)
  | none => scan redirectBehind command

/-- `_REDIRECT.sub(" ", command)`. -/
def withoutRedirects (command : List Char) : List Char :=
  match redirectArrow command with
  | some (_, taken) => ' ' :: subst redirectBehind (fun _ => [' ']) (command.drop taken)
  | none => subst redirectBehind (fun _ => [' ']) command

/-- `re.split(r"&&|\|\||[;|]", s)`, where the first segment has begun with `segment`. -/
def segmentsFrom (segment : List Char) : List Char → List (List Char)
  | [] => [segment]
  | '&' :: '&' :: cs => segment :: segmentsFrom [] cs
  | '|' :: '|' :: cs => segment :: segmentsFrom [] cs
  | c :: cs =>
    if c = ';' ∨ c = '|' then segment :: segmentsFrom [] cs else segmentsFrom (segment ++ [c]) cs

/-- `_WRAPPERS`. -/
def wrappers : List (List Char) :=
  ["env", "nice", "ionice", "flock", "timeout", "chronic", "cd", "bash", "sh", "zsh", "dash",
    "node", "php", "perl", "ruby", "test", "command", "["].map String.toList

/-- `re.fullmatch(r"python[\d.]*", base)`. -/
def isPython (base : List Char) : Bool :=
  "python".toList.isPrefixOf base &&
    (base.drop "python".toList.length).all fun c => (decimal c).isSome || c == '.'

/-- The name a token gives to its job, if it is no option, assignment or wrapper. -/
def tokenName (token : List Char) : Option (List Char) :=
  if '=' ∈ token ∧ token.head? ≠ some '/' then none
  else if token.head? = some '-' then none
  else
    let base := (token.rdropWhile (· == '&')).rtakeWhile (· != '/')
    if base = [] ∨ base ∈ wrappers ∨ isPython base = true then none else some base

/-- `job_name`. -/
def jobName (command : List Char) : List Char :=
  (((segmentsFrom [] (withoutRedirects command)).flatMap words).findSome? tokenName).getD
    ((strip command).take 60)

/-- `log_file`. -/
def logFile (command : List Char) : Option (List Char) :=
  (redirects command).findSome? fun target =>
    let target := target.rdropWhile fun c => c == ';' || c == '&' || c == '|'
    if target = [] ∨ target.head? = some '&' ∨ target = "/dev/null".toList then none
    else some target

example : jobName "/usr/bin/python3 /opt/backup.py >> /var/log/backup.log 2>&1".toList =
    "backup.py".toList := by decide +kernel

/-! ## Classic cron -/

/-- Where a classic job comes from. -/
inductive ClassicSource
  | systemCrontab | cronD | userCrontab | cronDir
deriving DecidableEq

/-- `source`. -/
def ClassicSource.text : ClassicSource → List Char
  | systemCrontab => "system_crontab".toList
  | cronD => "cron_d".toList
  | userCrontab => "user_crontab".toList
  | cronDir => "cron_dir".toList

/-- A job as its source lists it, with the file of `cron.d` it came from. -/
structure ListedJob where
  source : ClassicSource
  job : CronJob
  file : Option (List Char)
deriving DecidableEq

/-- A directory: its names, and what is known of each; `none` when it cannot be listed. -/
abbrev Directory (α : Type) := Option (List (List Char × α))

/-- `sorted(os.listdir(directory))`. -/
def Directory.sorted {α : Type} (directory : Directory α) : List (List Char × α) :=
  (directory.getD []).insertionSort fun a b => a.1 ≤ b.1

/-- A name in a spool. -/
structure SpoolFile where
  isFile : Bool
  /-- What it holds; `none` when it cannot be read. -/
  text : Option (List Char)

/-- What the collector reads on a host, on floats `φ` and times `σ`. -/
structure CronHost (φ σ : Type) where
  /-- `/etc/crontab`; `none` when it cannot be read. -/
  crontab : Option (List Char)
  /-- `/etc/cron.d`. -/
  cronD : Directory (Option (List Char))
  isRoot : Bool
  /-- `_SPOOL_DIRS`. -/
  spools : List (Directory SpoolFile)
  /-- What `crontab -l` prints. -/
  ownCrontab : List Char
  /-- The user's name; `none` when the lookup raises. -/
  ownName : Option (List Char)
  /-- `/etc/cron.<period>`, and whether a name in it is an executable file. -/
  period : List Char → Directory Bool
  /-- `_journal_starts()`. -/
  starts : Dict (List Char × List Char) φ
  /-- The option `timers`. -/
  timers : Bool
  /-- What `systemctl list-units`, and `systemctl show` for the timers and the services, print. -/
  listing : List Char
  timersOut : List Char
  servicesOut : List Char
  calls : TimeCalls φ σ
  zone : PyTime.Zone
  now : ℚ

/-- The files of `cron.d` that are read, in order: cron skips names with a dot. -/
def CronHost.cronFiles (host : CronHost φ σ) : List (List Char × List Char) :=
  host.cronD.sorted.filterMap fun (name, text) =>
    if '.' ∈ name then none else text.map fun text => (name, translateNewlines text)

/-- `_system_jobs`. -/
def systemJobs (host : CronHost φ σ) : List ListedJob :=
  (parseCrontab none (translateNewlines (host.crontab.getD []))).map
      (fun job => ⟨.systemCrontab, job, none⟩) ++
    host.cronFiles.flatMap fun (name, text) =>
      (parseCrontab none text).map fun job => ⟨.cronD, job, some name⟩

/-- The jobs of one spool. -/
def spoolJobs (spool : Directory SpoolFile) : List ListedJob :=
  spool.sorted.flatMap fun (user, file) =>
    if file.isFile then
      (parseCrontab (some user) (translateNewlines (file.text.getD []))).map
        fun job => ⟨.userCrontab, job, none⟩
    else []

/-- `_user_jobs`; `none` when the user has no name. -/
def userJobs (host : CronHost φ σ) : Option (List ListedJob) :=
  if host.isRoot then
    -- the first spool with a job in it
    some (((host.spools.map spoolJobs).find? fun jobs => jobs != []).getD [])
  else if host.ownCrontab = [] then some []
  else host.ownName.map fun user =>
    (parseCrontab (some user) host.ownCrontab).map fun job => ⟨.userCrontab, job, none⟩

/-- `_CRON_PERIODS`. -/
def cronPeriods : List (List Char) :=
  ["hourly", "daily", "weekly", "monthly"].map String.toList

/-- `_dir_jobs`. -/
def dirJobs (host : CronHost φ σ) : List ListedJob :=
  cronPeriods.flatMap fun period =>
    (host.period period).sorted.filterMap fun (name, executable) =>
      if '.' ∉ name ∧ executable = true then
        some ⟨.cronDir, ⟨'@' :: period, "root".toList,
          "/etc/cron.".toList ++ (period ++ '/' :: name)⟩, none⟩
      else none

/-- The classic jobs, as `collect` gathers them. -/
def listedJobs (host : CronHost φ σ) : Option (List ListedJob) :=
  (userJobs host).map fun jobs => systemJobs host ++ jobs ++ dirJobs host

/-! ## The list -/

/-- A classic job with what `collect` adds to it. -/
structure ClassicJob (φ : Type) extends ListedJob where
  lastRun : Option φ
  lastStatus : JobStatus
  name : List Char
  logFile : Option (List Char)
  nextRun : Option ℚ
  enabled : Bool := true
  exitCode : Option ℤ := none

/-- An element of `cron_jobs`, but for its id. -/
inductive CronEntry (φ : Type)
  | classic (job : ClassicJob φ)
  | timer (job : TimerJob φ)

/-- The body of the loop over the classic jobs; `none` when it raises. -/
def completeJob (host : CronHost φ σ) (starts : Dict (List Char × List Char) φ)
    (listed : ListedJob) : Option (ClassicJob φ) := do
  let last := starts.get (listed.job.user, listed.job.command)
  let nextRun ← nextRunOf host.zone host.now listed.job
  return {
    toListedJob := listed
    lastRun := last
    lastStatus := if last.any fun time => !host.calls.isZero time then .started else .unknown
    name := jobName listed.job.command
    logFile := OoAgent.logFile listed.job.command
    nextRun := nextRun }

/-- What an id is made of. -/
structure JobKey where
  source : List Char
  user : List Char
  schedule : List Char
  command : List Char
deriving DecidableEq

/-- `f"{source}|{user}|{schedule}|{command}"`. -/
def JobKey.hashed (key : JobKey) : List Char :=
  key.source ++ '|' :: (key.user ++ '|' :: (key.schedule ++ '|' :: key.command))

def ListedJob.key (listed : ListedJob) : JobKey where
  source := listed.source.text
  user := listed.job.user
  schedule := listed.job.schedule
  command := listed.job.command

def timerKey (schedule unit : List Char) : JobKey where
  source := "systemd_timer".toList
  user := "root".toList
  schedule := schedule
  command := unit

namespace CronEntry

def key : CronEntry φ → JobKey
  | classic job => job.toListedJob.key
  | timer job => timerKey job.schedule job.command

def lastStatus : CronEntry φ → JobStatus
  | classic job => job.lastStatus
  | timer job => job.lastStatus

/-- The key of the sort. -/
def sortKey (entry : CronEntry φ) : List (List Char) :=
  [entry.key.source, entry.key.user, entry.key.command]

end CronEntry

/-- What `collect` returns. -/
structure CronReport (φ : Type) where
  /-- `cron_jobs`: each with its id. -/
  jobs : List (List Char × CronEntry φ)
  /-- `cron.jobs`. -/
  count : ℕ
  /-- `cron.failed`. -/
  failed : ℕ

/-- The timers of a host. -/
def CronHost.timerInfos (host : CronHost φ σ) : List Info :=
  if host.timers then shownTimers host.listing host.timersOut else []

/-- `collect`, where `digest` gives the first twelve hexadecimal digits of the SHA-1. -/
def collectCron (digest : List Char → List Char) (host : CronHost φ σ) :
    Option (CronReport φ) := do
  let listed ← listedJobs host
  let starts := if listed = [] then [] else host.starts
  let classic ← listed.mapM (completeJob host starts)
  let timers ← host.timerInfos.mapM (timerJob host.calls (servicesOf host.servicesOut))
  let entries := classic.map CronEntry.classic ++ timers.map CronEntry.timer
  let sorted := entries.insertionSort fun a b => a.sortKey ≤ b.sortKey
  return {
    jobs := sorted.map fun entry => (digest entry.key.hashed, entry)
    count := sorted.length
    failed := sorted.countP fun entry => decide (entry.lastStatus = .failed) }

/-! ## What is hashed alike -/

/-- Two texts around a separator are the same when they are cut at the same one, or the
separator of one is inside a part of the other. -/
theorem append_cons_eq_append_cons_iff {α : Type*} {sep : α} {a b c d : List α} :
    a ++ sep :: b = c ++ sep :: d ↔ (a = c ∧ b = d) ∨
      (∃ x, c = a ++ sep :: x ∧ b = x ++ sep :: d) ∨
      ∃ x, a = c ++ sep :: x ∧ d = x ++ sep :: b := by
  constructor
  · intro h
    rcases List.append_eq_append_iff.1 h with ⟨x, rfl, hx⟩ | ⟨x, rfl, hx⟩
    · cases x with
      | nil => exact .inl ⟨by simp, (List.cons.inj hx).2⟩
      | cons e x =>
        obtain ⟨rfl, rfl⟩ := List.cons.inj hx
        exact .inr (.inl ⟨x, rfl, rfl⟩)
    · cases x with
      | nil => exact .inl ⟨by simp, (List.cons.inj hx).2.symm⟩
      | cons e x =>
        obtain ⟨rfl, rfl⟩ := List.cons.inj hx
        exact .inr (.inr ⟨x, rfl, rfl⟩)
  · rintro (⟨rfl, rfl⟩ | ⟨x, rfl, rfl⟩ | ⟨x, rfl, rfl⟩) <;> simp

/-- A bar in the user or the schedule of the second key stands where that field of the first
one ends. -/
def Shifted (a b : JobKey) : Prop :=
  (∃ y, b.user = a.user ++ '|' :: y ∧
    a.schedule ++ '|' :: a.command = y ++ '|' :: (b.schedule ++ '|' :: b.command)) ∨
  a.user = b.user ∧ ∃ x, b.schedule = a.schedule ++ '|' :: x ∧ a.command = x ++ '|' :: b.command

theorem not_shifted_self (a : JobKey) : ¬ Shifted a a := by
  rintro (⟨y, huser, -⟩ | ⟨-, x, hschedule, -⟩)
  · exact absurd (congrArg List.length huser) (by simp)
  · exact absurd (congrArg List.length hschedule) (by simp)

/-- **What is hashed alike**, of one source. -/
theorem hashed_eq_iff {a b : JobKey} (hsource : a.source = b.source) :
    a.hashed = b.hashed ↔ a = b ∨ Shifted a b ∨ Shifted b a := by
  obtain ⟨source, user, schedule, command⟩ := a
  obtain ⟨source', user', schedule', command'⟩ := b
  obtain rfl : source = source' := hsource
  simp only [JobKey.hashed, Shifted, List.append_cancel_left_eq, List.cons.injEq, true_and,
    JobKey.mk.injEq]
  rw [append_cons_eq_append_cons_iff, append_cons_eq_append_cons_iff]
  constructor
  · rintro (⟨rfl, ⟨rfl, rfl⟩ | ⟨x, hx⟩ | ⟨x, hx⟩⟩ | ⟨x, hx⟩ | ⟨x, hx⟩)
    · exact .inl ⟨rfl, rfl, rfl⟩
    · exact .inr (.inl (.inr ⟨rfl, x, hx⟩))
    · exact .inr (.inr (.inr ⟨rfl, x, hx⟩))
    · exact .inr (.inl (.inl ⟨x, hx⟩))
    · exact .inr (.inr (.inl ⟨x, hx⟩))
  · rintro (⟨rfl, rfl, rfl⟩ | (⟨x, hx⟩ | ⟨rfl, x, hx⟩) | (⟨x, hx⟩ | ⟨rfl, x, hx⟩))
    · exact .inl ⟨rfl, .inl ⟨rfl, rfl⟩⟩
    · exact .inr (.inl ⟨x, hx⟩)
    · exact .inl ⟨rfl, .inr (.inl ⟨x, hx⟩)⟩
    · exact .inr (.inr ⟨x, hx⟩)
    · exact .inl ⟨rfl, .inr (.inr ⟨x, hx⟩)⟩

/-- No source has a bar in its name. -/
theorem bar_notMem_source (entry : CronEntry φ) : '|' ∉ entry.key.source := by
  have htexts : (∀ source ∈ [ClassicSource.systemCrontab, .cronD, .userCrontab, .cronDir],
      '|' ∉ source.text) ∧ '|' ∉ "systemd_timer".toList := by decide +kernel
  cases entry with
  | classic job =>
    exact htexts.1 job.source (by cases job.source <;> simp)
  | timer job => exact htexts.2

theorem sourceText_injective {source source' : ClassicSource} (h : source.text = source'.text) :
    source = source' := by
  have htexts : ∀ a ∈ [ClassicSource.systemCrontab, .cronD, .userCrontab, .cronDir],
      ∀ b ∈ [ClassicSource.systemCrontab, .cronD, .userCrontab, .cronDir],
        a.text = b.text → a = b := by decide +kernel
  exact htexts source (by cases source <;> simp) source' (by cases source' <;> simp) h

theorem source_eq_of_hashed_eq {a b : CronEntry φ} (h : a.key.hashed = b.key.hashed) :
    a.key.source = b.key.source := by
  have hsplit := congrArg (splitOnce '|') h
  rw [JobKey.hashed, JobKey.hashed, splitOnce_append (bar_notMem_source a),
    splitOnce_append (bar_notMem_source b)] at hsplit
  exact (Prod.mk.inj hsplit).1

/-! ## Distinct keys -/

/-- The keys of the jobs of a host. -/
def CronHost.keys (host : CronHost φ σ) : List JobKey :=
  ((listedJobs host).getD []).map ListedJob.key ++
    host.timerInfos.map fun info => timerKey (timerSchedule info) (unitOf info)

/-- No line is in two files of `cron.d`, two timers that have one schedule and activate one unit
do not differ in anything, and no bar in a field stands where a field of another job of
that source ends. -/
structure DistinctKeys (host : CronHost φ σ) : Prop where
  files : ∀ f ∈ host.cronFiles, ∀ g ∈ host.cronFiles, ∀ job ∈ parseCrontab none f.2,
    job ∈ parseCrontab none g.2 → f.1 = g.1
  timers : ∀ i ∈ host.timerInfos, ∀ j ∈ host.timerInfos, timerSchedule i = timerSchedule j →
    unitOf i = unitOf j → timerJob host.calls (servicesOf host.servicesOut) i =
      timerJob host.calls (servicesOf host.servicesOut) j
  bars : ∀ a ∈ host.keys, ∀ b ∈ host.keys, a.source = b.source → ¬ Shifted a b

/-- No line of a file, and no timer, is reported twice. -/
structure NoneTwice (host : CronHost φ σ) : Prop where
  listed : ((listedJobs host).getD []).Nodup
  timers : (host.timerInfos.map
    (timerJob host.calls (servicesOf host.servicesOut))).Nodup

/-! ## The entries of a report -/

/-- The entries a host yields, from the jobs it lists and the timers it shows. -/
inductive Yields (host : CronHost φ σ) (starts : Dict (List Char × List Char) φ)
    (listed : List ListedJob) : CronEntry φ → Prop
  | classic {job : ListedJob} {complete : ClassicJob φ} (mem : job ∈ listed)
      (completes : completeJob host starts job = some complete) :
      Yields host starts listed (.classic complete)
  | timer {info : Info} {job : TimerJob φ} (mem : info ∈ host.timerInfos)
      (reads : timerJob host.calls (servicesOf host.servicesOut) info = some job) :
      Yields host starts listed (.timer job)

section

variable {digest : List Char → List Char} {host : CronHost φ σ} {report : CronReport φ}

/-- **What `collect` returns**, from what it gathers. -/
theorem collectCron_eq_some (h : collectCron digest host = some report) :
    ∃ listed starts classic timers, listedJobs host = some listed ∧
      listed.mapM (completeJob host starts) = some classic ∧
      host.timerInfos.mapM (timerJob host.calls (servicesOf host.servicesOut)) = some timers ∧
      (report.jobs.Perm ((classic.map CronEntry.classic ++ timers.map CronEntry.timer).map
        fun entry => (digest entry.key.hashed, entry))) ∧
      report.count = classic.length + timers.length ∧ report.failed =
        (classic.map CronEntry.classic ++ timers.map CronEntry.timer).countP
          fun entry => decide (entry.lastStatus = .failed) := by
  unfold collectCron at h
  simp only [Option.bind_eq_bind, Option.bind_eq_some_iff, Option.pure_def,
    Option.some.injEq] at h
  obtain ⟨listed, hlisted, classic, hclassic, timers, htimers, rfl⟩ := h
  refine ⟨listed, _, classic, timers, hlisted, hclassic, htimers, ?_, ?_, ?_⟩
  · exact (List.perm_insertionSort _ _).map _
  · simp
  · exact (List.perm_insertionSort _ _).countP_eq _

theorem completeJob_listed {starts : Dict (List Char × List Char) φ} {job : ListedJob}
    {complete : ClassicJob φ} (h : completeJob host starts job = some complete) :
    complete.toListedJob = job := by
  unfold completeJob at h
  simp only [Option.bind_eq_bind, Option.bind_eq_some_iff, Option.pure_def,
    Option.some.injEq] at h
  obtain ⟨nextRun, -, rfl⟩ := h
  rfl

/-- **`cron.failed` counts timers**: no classic job is ever failed. -/
theorem collectCron_failed (h : collectCron digest host = some report) :
    ∃ timers, host.timerInfos.mapM (timerJob host.calls (servicesOf host.servicesOut)) =
      some timers ∧ report.failed = failedCount timers := by
  obtain ⟨listed, starts, classic, timers, -, hclassic, htimers, -, -, hfailed⟩ :=
    collectCron_eq_some h
  refine ⟨timers, htimers, ?_⟩
  have hnone : (classic.map CronEntry.classic).countP
      (fun entry => decide (entry.lastStatus = .failed)) = 0 := by
    rw [List.countP_eq_zero, List.forall_mem_map, forall_mem_of_mapM hclassic]
    intro job _ complete hcomplete
    unfold completeJob at hcomplete
    simp only [Option.bind_eq_bind, Option.bind_eq_some_iff, Option.pure_def,
      Option.some.injEq] at hcomplete
    obtain ⟨nextRun, -, rfl⟩ := hcomplete
    simp only [CronEntry.lastStatus]
    split_ifs <;> decide
  rw [hfailed, List.countP_append, hnone, Nat.zero_add, List.countP_map]
  rfl

theorem spoolJobs_file {spool : Directory SpoolFile} :
    ∀ l ∈ spoolJobs spool, l.source ≠ .cronD ∧ l.file = none := by
  intro l hl
  obtain ⟨⟨user, file⟩, -, hl⟩ := List.mem_flatMap.1 hl
  dsimp only at hl
  split_ifs at hl with hfile
  · obtain ⟨job, -, rfl⟩ := List.mem_map.1 hl
    exact ⟨by simp, rfl⟩
  · exact absurd hl (by simp)

theorem userJobs_file {users : List ListedJob} (h : userJobs host = some users) :
    ∀ l ∈ users, l.source ≠ .cronD ∧ l.file = none := by
  unfold userJobs at h
  split_ifs at h with hroot hown
  · obtain rfl := Option.some.inj h
    cases hfind : (host.spools.map spoolJobs).find? fun jobs => jobs != [] with
    | none => simp
    | some jobs =>
      obtain ⟨spool, -, rfl⟩ := List.mem_map.1 (List.mem_of_find?_eq_some hfind)
      exact spoolJobs_file
  · obtain rfl := Option.some.inj h
    simp
  · obtain ⟨user, -, rfl⟩ := Option.map_eq_some_iff.1 h
    intro l hl
    obtain ⟨job, -, rfl⟩ := List.mem_map.1 hl
    exact ⟨by simp, rfl⟩

/-- A job of `cron.d` names its file, and only such a job does. -/
theorem listedJobs_file {listed : List ListedJob} (h : listedJobs host = some listed) :
    (∀ f ∈ host.cronFiles, ∀ job ∈ parseCrontab none f.2, ⟨.cronD, job, some f.1⟩ ∈ listed) ∧
      ∀ l ∈ listed, (l.source ≠ .cronD ∧ l.file = none) ∨
        ∃ f ∈ host.cronFiles, l.job ∈ parseCrontab none f.2 ∧ l = ⟨.cronD, l.job, some f.1⟩ := by
  obtain ⟨users, husers, rfl⟩ := Option.map_eq_some_iff.1 h
  have huser := userJobs_file husers
  constructor
  · intro f hf job hjob
    refine List.mem_append_left _ (List.mem_append_left _ (List.mem_append_right _ ?_))
    exact List.mem_flatMap.2 ⟨f, hf, List.mem_map.2 ⟨job, hjob, rfl⟩⟩
  · intro l hl
    rcases List.mem_append.1 hl with hl | hl
    · rcases List.mem_append.1 hl with hl | hl
      · rcases List.mem_append.1 hl with hl | hl
        · obtain ⟨job, -, rfl⟩ := List.mem_map.1 hl
          exact .inl ⟨by simp, rfl⟩
        · obtain ⟨f, hf, hl⟩ := List.mem_flatMap.1 hl
          obtain ⟨job, hjob, rfl⟩ := List.mem_map.1 hl
          exact .inr ⟨f, hf, hjob, rfl⟩
      · exact .inl (huser l hl)
    · obtain ⟨period, -, hl⟩ := List.mem_flatMap.1 hl
      obtain ⟨⟨name, executable⟩, -, hl⟩ := List.mem_filterMap.1 hl
      dsimp only at hl
      split_ifs at hl with hrun
      obtain rfl := Option.some.inj hl
      exact .inl ⟨by simp, rfl⟩

/-- The entries of a report are those the host yields, each with its id. -/
theorem mem_report (h : collectCron digest host = some report) :
    ∃ listed starts, listedJobs host = some listed ∧
      (∀ l ∈ listed, ∃ complete, completeJob host starts l = some complete) ∧
      (∀ info ∈ host.timerInfos, ∃ job,
        timerJob host.calls (servicesOf host.servicesOut) info = some job) ∧
      ∀ item, item ∈ report.jobs ↔ ∃ entry, Yields host starts listed entry ∧
        item = (digest entry.key.hashed, entry) := by
  obtain ⟨listed, starts, classic, timers, hlisted, hclassic, htimers, hperm, -, -⟩ :=
    collectCron_eq_some h
  refine ⟨listed, starts, hlisted, fun l hl => ?_, fun info hinfo => ?_, fun item => ?_⟩
  · exact Option.ne_none_iff_exists'.1 (exists_mapM_iff.1 ⟨classic, hclassic⟩ l hl)
  · exact Option.ne_none_iff_exists'.1 (exists_mapM_iff.1 ⟨timers, htimers⟩ info hinfo)
  · rw [hperm.mem_iff, List.mem_map]
    refine exists_congr fun entry => and_congr ?_ eq_comm
    rw [List.mem_append, filterMap_of_mapM hclassic, filterMap_of_mapM htimers]
    simp only [List.mem_map, List.mem_filterMap]
    constructor
    · rintro (⟨complete, ⟨l, hl, hcomplete⟩, rfl⟩ | ⟨job, ⟨info, hinfo, hjob⟩, rfl⟩)
      · exact .classic hl hcomplete
      · exact .timer hinfo hjob
    · rintro (@⟨l, complete, hl, hcomplete⟩ | @⟨info, job, hinfo, hjob⟩)
      · exact .inl ⟨complete, ⟨l, hl, hcomplete⟩, rfl⟩
      · exact .inr ⟨job, ⟨info, hinfo, hjob⟩, rfl⟩

/-- The key of an entry is one of the host's. -/
theorem Yields.key_mem {starts : Dict (List Char × List Char) φ} {listed : List ListedJob}
    {entry : CronEntry φ} (h : Yields host starts listed entry)
    (hlisted : listedJobs host = some listed) : entry.key ∈ host.keys := by
  rw [CronHost.keys, hlisted]
  cases h with
  | @classic job complete mem completes =>
    refine List.mem_append_left _ (List.mem_map.2 ⟨job, mem, ?_⟩)
    rw [CronEntry.key, completeJob_listed completes]
  | @timer info job mem reads =>
    obtain ⟨hschedule, hcommand, -⟩ := timerJob_spec reads
    refine List.mem_append_right _ (List.mem_map.2 ⟨info, mem, ?_⟩)
    rw [CronEntry.key, hschedule, hcommand]

/-- The jobs of a host that have the same key are the same. -/
theorem listed_eq_of_key_eq (hkeys : DistinctKeys host) {listed : List ListedJob}
    (hlisted : listedJobs host = some listed) {k l : ListedJob} (hk : k ∈ listed)
    (hl : l ∈ listed) (hkey : k.key = l.key) : k = l := by
  obtain ⟨-, hfile⟩ := listedJobs_file hlisted
  obtain ⟨source, ⟨schedule, user, command⟩, file⟩ := k
  obtain ⟨source', ⟨schedule', user', command'⟩, file'⟩ := l
  obtain ⟨hsource, rfl, rfl, rfl⟩ : source.text = source'.text ∧ user = user' ∧
    schedule = schedule' ∧ command = command' := by simpa [ListedJob.key] using hkey
  obtain rfl := sourceText_injective hsource
  rcases hfile _ hk with ⟨hnot, hnone⟩ | ⟨f, hf, hjob, heq⟩
  · rcases hfile _ hl with ⟨-, hnone'⟩ | ⟨g, -, -, heq'⟩
    · rw [show file = none from hnone, show file' = none from hnone']
    · exact absurd (congrArg ListedJob.source heq') hnot
  · rcases hfile _ hl with ⟨hnot', -⟩ | ⟨g, hg, hjob', heq'⟩
    · exact absurd (congrArg ListedJob.source heq) hnot'
    · rw [heq, heq', hkeys.files f hf g hg _ hjob hjob']

/-- **The entries of a host that have the same key are the same.** -/
theorem Yields.eq_of_key_eq (hkeys : DistinctKeys host)
    {starts : Dict (List Char × List Char) φ} {listed : List ListedJob}
    (hlisted : listedJobs host = some listed) {a b : CronEntry φ}
    (ha : Yields host starts listed a) (hb : Yields host starts listed b)
    (hkey : a.key = b.key) : a = b := by
  have hother (source : ClassicSource) : source.text ≠ "systemd_timer".toList := by
    cases source <;> decide +kernel
  cases ha with
  | @classic k complete mem completes =>
    cases hb with
    | @classic l complete' mem' completes' =>
      have hlisted' : k = l := listed_eq_of_key_eq hkeys hlisted mem mem' (by
        rw [← completeJob_listed completes, ← completeJob_listed completes']
        exact hkey)
      rw [hlisted'] at completes
      rw [Option.some.inj (completes.symm.trans completes')]
    | timer mem' reads' => exact absurd (congrArg JobKey.source hkey) (hother _)
  | @timer i job mem reads =>
    cases hb with
    | classic mem' completes' => exact absurd (congrArg JobKey.source hkey).symm (hother _)
    | @timer j job' mem' reads' =>
      obtain ⟨hschedule, hcommand, -⟩ := timerJob_spec reads
      obtain ⟨hschedule', hcommand', -⟩ := timerJob_spec reads'
      have hsame := hkeys.timers i mem j mem'
        (by rw [← hschedule, ← hschedule']; exact congrArg JobKey.schedule hkey)
        (by rw [← hcommand, ← hcommand']; exact congrArg JobKey.command hkey)
      rw [reads, reads'] at hsame
      rw [Option.some.inj hsame]

/-- What makes two keys the keys of a host, entries have. -/
theorem exists_yields_of_mem_keys {starts : Dict (List Char × List Char) φ}
    {listed : List ListedJob} (hlisted : listedJobs host = some listed)
    (hcomplete : ∀ l ∈ listed, ∃ complete, completeJob host starts l = some complete)
    (hread : ∀ info ∈ host.timerInfos, ∃ job,
      timerJob host.calls (servicesOf host.servicesOut) info = some job)
    {key : JobKey} (hkey : key ∈ host.keys) :
    ∃ entry, Yields host starts listed entry ∧ entry.key = key := by
  rw [CronHost.keys, hlisted, List.mem_append, List.mem_map, List.mem_map] at hkey
  rcases hkey with ⟨l, hl, rfl⟩ | ⟨info, hinfo, rfl⟩
  · obtain ⟨complete, hl'⟩ := hcomplete l hl
    refine ⟨_, .classic hl hl', ?_⟩
    rw [CronEntry.key, completeJob_listed hl']
  · obtain ⟨job, hjob⟩ := hread info hinfo
    obtain ⟨hschedule, hcommand, -⟩ := timerJob_spec hjob
    refine ⟨_, .timer hinfo hjob, ?_⟩
    rw [CronEntry.key, hschedule, hcommand]

/-- Where entries that are hashed alike are the same, keys are distinct. -/
theorem distinctKeys_of_hashed {starts : Dict (List Char × List Char) φ}
    {listed : List ListedJob} (hlisted : listedJobs host = some listed)
    (hcomplete : ∀ l ∈ listed, ∃ complete, completeJob host starts l = some complete)
    (hread : ∀ info ∈ host.timerInfos, ∃ job,
      timerJob host.calls (servicesOf host.servicesOut) info = some job)
    (hsame : ∀ {a b : CronEntry φ}, Yields host starts listed a → Yields host starts listed b →
      a.key.hashed = b.key.hashed → a = b) : DistinctKeys host := by
  refine ⟨fun f hf g hg job hjob hjob' => ?_, fun i hi j hj hschedule hunit => ?_,
    fun a ha b hb hsource hshifted => ?_⟩
  · obtain ⟨hfiles, -⟩ := listedJobs_file hlisted
    have hl := hfiles f hf job hjob
    have hl' := hfiles g hg job hjob'
    obtain ⟨complete, hcomplete₁⟩ := hcomplete _ hl
    obtain ⟨complete', hcomplete₂⟩ := hcomplete _ hl'
    have heq := hsame (.classic hl hcomplete₁) (.classic hl' hcomplete₂) (by
      rw [CronEntry.key, CronEntry.key, completeJob_listed hcomplete₁,
        completeJob_listed hcomplete₂]
      rfl)
    have hlisted' := congrArg ClassicJob.toListedJob (CronEntry.classic.inj heq)
    rw [completeJob_listed hcomplete₁, completeJob_listed hcomplete₂] at hlisted'
    exact Option.some.inj (congrArg ListedJob.file hlisted')
  · obtain ⟨job, hjob⟩ := hread i hi
    obtain ⟨job', hjob'⟩ := hread j hj
    obtain ⟨hs, hc, -⟩ := timerJob_spec hjob
    obtain ⟨hs', hc', -⟩ := timerJob_spec hjob'
    have heq := hsame (.timer hi hjob) (.timer hj hjob') (by
      rw [CronEntry.key, CronEntry.key, hs, hc, hs', hc', hschedule, hunit])
    rw [hjob, hjob', CronEntry.timer.inj heq]
  · obtain ⟨ea, hea, rfl⟩ := exists_yields_of_mem_keys hlisted hcomplete hread ha
    obtain ⟨eb, heb, rfl⟩ := exists_yields_of_mem_keys hlisted hcomplete hread hb
    have heq := hsame hea heb ((hashed_eq_iff hsource).2 (.inr (.inl hshifted)))
    exact not_shifted_self _ (heq ▸ hshifted)

/-- With distinct keys, entries that are hashed alike are the same. -/
theorem Yields.eq_of_hashed_eq (hkeys : DistinctKeys host)
    {starts : Dict (List Char × List Char) φ} {listed : List ListedJob}
    (hlisted : listedJobs host = some listed) {a b : CronEntry φ}
    (ha : Yields host starts listed a) (hb : Yields host starts listed b)
    (hhash : a.key.hashed = b.key.hashed) : a = b := by
  have hsource := source_eq_of_hashed_eq hhash
  have hka := ha.key_mem hlisted
  have hkb := hb.key_mem hlisted
  rcases (hashed_eq_iff hsource).1 hhash with hkey | hshifted | hshifted
  · exact ha.eq_of_key_eq hkeys hlisted hb hkey
  · exact absurd hshifted (hkeys.bars _ hka _ hkb hsource)
  · exact absurd hshifted (hkeys.bars _ hkb _ hka hsource.symm)

/-- The hashed string determines the entry. -/
def IdsDetermine (report : CronReport φ) : Prop :=
  ∀ a ∈ report.jobs, ∀ b ∈ report.jobs, a.1 = b.1 → a = b

/-- The digest is injective on what is hashed for a report. -/
def DigestInjective (digest : List Char → List Char) (report : CronReport φ) : Prop :=
  ∀ a ∈ report.jobs, ∀ b ∈ report.jobs, digest a.2.key.hashed = digest b.2.key.hashed →
    a.2.key.hashed = b.2.key.hashed

theorem idsDetermine_iff (h : collectCron digest host = some report)
    (hdigest : DigestInjective digest report) : IdsDetermine report ↔ DistinctKeys host := by
  obtain ⟨listed, starts, hlisted, hcomplete, hread, hmem⟩ := mem_report h
  constructor
  · intro hids
    refine distinctKeys_of_hashed hlisted hcomplete hread fun {a b} ha hb hhash => ?_
    have heq := hids _ ((hmem _).2 ⟨a, ha, rfl⟩) _ ((hmem _).2 ⟨b, hb, rfl⟩)
      (congrArg digest hhash)
    exact (Prod.mk.inj heq).2
  · intro hkeys x hx y hy hid
    obtain ⟨ex, hex, rfl⟩ := (hmem x).1 hx
    obtain ⟨ey, hey, rfl⟩ := (hmem y).1 hy
    rw [hex.eq_of_hashed_eq hkeys hlisted hey (hdigest _ hx _ hy hid)]

/-- What is listed once is reported once. -/
theorem nodup_jobs_iff (h : collectCron digest host = some report) :
    report.jobs.Nodup ↔ NoneTwice host := by
  obtain ⟨listed, starts, classic, timers, hlisted, hclassic, htimers, hperm, -, -⟩ :=
    collectCron_eq_some h
  have hid : Function.Injective fun entry : CronEntry φ => (digest entry.key.hashed, entry) :=
    fun a b hab => (Prod.mk.inj hab).2
  have hclassicInj : Function.Injective (CronEntry.classic : ClassicJob φ → CronEntry φ) :=
    fun a b hab => CronEntry.classic.inj hab
  have htimerInj : Function.Injective (CronEntry.timer : TimerJob φ → CronEntry φ) :=
    fun a b hab => CronEntry.timer.inj hab
  have hapart : (classic.map CronEntry.classic).Disjoint (timers.map CronEntry.timer) := by
    intro entry hentry hentry'
    obtain ⟨job, -, rfl⟩ := List.mem_map.1 hentry
    obtain ⟨job', -, hjob'⟩ := List.mem_map.1 hentry'
    cases hjob'
  have hlistedNodup : (listed.map (completeJob host starts)).Nodup ↔ listed.Nodup := by
    refine ⟨fun hnodup => hnodup.of_map _, fun hnodup => hnodup.map_on fun a ha b _ hab => ?_⟩
    obtain ⟨complete, hcomplete⟩ := Option.ne_none_iff_exists'.1
      (exists_mapM_iff.1 ⟨classic, hclassic⟩ a ha)
    exact (completeJob_listed hcomplete).symm.trans (completeJob_listed (hab ▸ hcomplete))
  rw [hperm.nodup_iff, List.nodup_map_iff hid, List.nodup_append',
    List.nodup_map_iff hclassicInj, List.nodup_map_iff htimerInj, nodup_of_mapM hclassic,
    nodup_of_mapM htimers, hlistedNodup]
  constructor
  · rintro ⟨hlistedOnce, htimersOnce, -⟩
    exact ⟨by rwa [hlisted], htimersOnce⟩
  · rintro ⟨hlistedOnce, htimersOnce⟩
    rw [hlisted] at hlistedOnce
    exact ⟨hlistedOnce, htimersOnce, hapart⟩

/-- **Job ids are a join key**: the hashed string determines the entry exactly for hosts with
distinct keys, and no id is given twice exactly if, besides, nothing is reported twice. -/
theorem job_ids_iff (h : collectCron digest host = some report)
    (hdigest : DigestInjective digest report) :
    (IdsDetermine report ↔ DistinctKeys host) ∧
      ((report.jobs.map Prod.fst).Nodup ↔ DistinctKeys host ∧ NoneTwice host) := by
  refine ⟨idsDetermine_iff h hdigest, ?_⟩
  rw [← idsDetermine_iff h hdigest, ← nodup_jobs_iff h]
  constructor
  · intro hnodup
    exact ⟨fun a ha b hb => List.inj_on_of_nodup_map hnodup ha hb, hnodup.of_map _⟩
  · rintro ⟨hids, hnodup⟩
    exact hnodup.map_on fun a ha b hb => hids a ha b hb

end

/-- A host on which one user has two jobs. -/
def joeHost : CronHost ℕ Unit where
  crontab := none
  cronD := none
  isRoot := false
  spools := []
  ownCrontab := "@reboot backup\n@reboot report\n".toList
  ownName := some "joe".toList
  period := fun _ => none
  starts := []
  timers := false
  listing := []
  timersOut := []
  servicesOut := []
  calls := sampleCalls
  zone := PyTime.utc
  now := 0

theorem job_ids_joe : ∃ report, collectCron id joeHost = some report ∧ report.jobs.length = 2 ∧
    (IdsDetermine report ↔ DistinctKeys joeHost) ∧
      ((report.jobs.map Prod.fst).Nodup ↔ DistinctKeys joeHost ∧ NoneTwice joeHost) := by
  have htwo : (collectCron id joeHost).map (fun report => report.jobs.length) = some 2 := by
    decide +kernel
  obtain ⟨report, hreport, hlen⟩ := Option.map_eq_some_iff.1 htwo
  exact ⟨report, hreport, hlen, job_ids_iff hreport fun _ _ _ _ h => h⟩

/-- **One line in two files** of `cron.d` gives two entries with one id. -/
theorem copied_line_shares_id :
    ¬ ∀ (digest : List Char → List Char) (host : CronHost ℕ Unit) (report : CronReport ℕ),
      collectCron digest host = some report → DigestInjective digest report →
        IdsDetermine report := by
  intro h
  let line := some "@reboot root backup\n".toList
  let host : CronHost ℕ Unit :=
    { joeHost with cronD := some [("backup".toList, line), ("copy".toList, line)] }
  have hreturns : (collectCron id host).isSome = true := by decide +kernel
  obtain ⟨report, hreport⟩ := Option.isSome_iff_exists.1 hreturns
  have hids := h id host report hreport fun _ _ _ _ h => h
  have hfiles := ((idsDetermine_iff hreport fun _ _ _ _ h => h).1 hids).files
  have hread : host.cronFiles =
      [("backup".toList, "@reboot root backup\n".toList),
        ("copy".toList, "@reboot root backup\n".toList)] := by decide +kernel
  rw [hread] at hfiles
  have hjob : (⟨"@reboot".toList, "root".toList, "backup".toList⟩ : CronJob) ∈
      parseCrontab none "@reboot root backup\n".toList := by decide +kernel
  exact absurd (hfiles _ List.mem_cons_self _ (List.mem_cons_of_mem _ List.mem_cons_self) _
    hjob hjob) (by decide +kernel)

end OoAgent
