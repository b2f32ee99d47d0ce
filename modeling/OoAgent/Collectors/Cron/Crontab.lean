import OoAgent.Collectors.Cron.Grammar
import OoAgent.Collectors.Cron.VixieRule

/-!
# Crontabs

`parse_crontab` reads the jobs of a crontab, and `collect` asks `cron_next_run` about one
after the other.  A number or `None` is what each is meant to get; what raises takes all
jobs with it.

* `splitlines`, `splitWords` — `text.splitlines()` and `line.split(None, n)`.
* `parseCrontab` — `parse_crontab`; `nextRuns` — the loop of `collect`.
* `BadStep` — a step of digits that `int` refuses, behind parts that can be read.
* `next_runs_iff` — **all jobs are reported** exactly when no schedule has such a step, and
  the search returns for every schedule that parses.
-/

namespace OoAgent

open PyText PyTime

/-! ## Lines and words -/

/-- The ends of a line that `splitlines` knows. -/
def isLineEnd (c : Char) : Bool :=
  c.toNat ∈ [10, 11, 12, 13, 28, 29, 30, 133, 8232, 8233]

/-- The lines of a text, the first of which has begun with `line`. -/
def linesFrom (line : List Char) : List Char → List (List Char)
  | [] => if line = [] then [] else [line]
  | '\r' :: '\n' :: cs => line :: linesFrom [] cs
  | c :: cs => if isLineEnd c then line :: linesFrom [] cs else linesFrom (line ++ [c]) cs

/-- `text.splitlines()`. -/
def splitlines (text : List Char) : List (List Char) := linesFrom [] text

/-- `line.split(None, n)`: that many words, and the rest of the line. -/
def splitWords : ℕ → List Char → List (List Char)
  | 0, s => if lstrip s = [] then [] else [lstrip s]
  | n + 1, s =>
    if lstrip s = [] then []
    else (lstrip s).takeWhile (fun c => !isSpace c) ::
      splitWords n ((lstrip s).dropWhile fun c => !isSpace c)

/-- `" ".join(words)`. -/
def joinSpaces (words : List (List Char)) : List Char := [' '].intercalate words

/-! ## Crontabs -/

/-- A job of a crontab. -/
structure CronJob where
  schedule : List Char
  user : List Char
  command : List Char
deriving DecidableEq

/-- `_ENV_LINE.match(line)`. -/
def isEnvLine : List Char → Bool
  | [] => false
  | c :: cs => (c.isAlpha || c == '_') &&
      ((cs.dropWhile fun c => c.isAlphanum || c == '_').dropWhile isSpace).head? == some '='

/-- The job of a line, if it has one; without a default user the line names it. -/
def jobOfLine (defaultUser : Option (List Char)) (raw : List Char) : Option CronJob :=
  let line := strip raw
  if line = [] ∨ line.head? = some '#' ∨ isEnvLine line then none
  else if line.head? = some '@' then
    match defaultUser with
    | none =>
      match splitWords 2 line with
      | [schedule, user, command] => some ⟨schedule, user, strip command⟩
      | _ => none
    | some user =>
      match splitWords 1 line with
      | [schedule, command] => some ⟨schedule, user, strip command⟩
      | _ => none
  else
    match defaultUser with
    | none =>
      match splitWords 6 line with
      | [minute, hour, dom, month, dow, user, command] =>
        some ⟨joinSpaces [minute, hour, dom, month, dow], user, strip command⟩
      | _ => none
    | some user =>
      match splitWords 5 line with
      | [minute, hour, dom, month, dow, command] =>
        some ⟨joinSpaces [minute, hour, dom, month, dow], user, strip command⟩
      | _ => none

/-- `parse_crontab`. -/
def parseCrontab (defaultUser : Option (List Char)) (text : List Char) : List CronJob :=
  (splitlines text).filterMap (jobOfLine defaultUser)

/-- The `next_run` of a job; the outer `none` is the exception. -/
def nextRunOf (zone : Zone) (now : ℚ) (job : CronJob) : Option (Option ℚ) :=
  match cronNextRun zone job.schedule now with
  | .at_ epoch => some (some epoch)
  | .absent => some none
  | .raised => none

/-- The loop of `collect` over the jobs; `none` when an exception ends it. -/
def nextRuns (zone : Zone) (now : ℚ) : List CronJob → Option (List (CronJob × Option ℚ))
  | [] => some []
  | job :: jobs => do
    let run ← nextRunOf zone now job
    let rest ← nextRuns zone now jobs
    return (job, run) :: rest

/-! ## What raises -/

/-- A step of digits that `int` refuses, behind parts that can be read. -/
def BadStep (names : NameTable) (spec : List Char) : Prop :=
  ∃ before text stepRaw after, split ',' spec = before ++ (text ++ '/' :: stepRaw) :: after ∧
    (∀ text' ∈ before, ∃ part, ReadsPart PyText.lowerAscii names text' part) ∧
    '/' ∉ text ∧ (stepRaw ≠ [] ∧ stepRaw.all isDigit) ∧ intOf stepRaw = none

/-- The fields of a schedule, in their order, with the names each may use. -/
def fieldsOf (schedule : List Char) : List (List Char × NameTable) :=
  (words ((keywordSpecs.lookup schedule).getD schedule)).zip [[], [], [], monthNames, dowNames]

/-- No field of a five-field schedule has a bad step. -/
def StepsRead (schedule : List Char) : Prop :=
  (words ((keywordSpecs.lookup schedule).getD schedule)).length = 5 →
    ∀ field ∈ fieldsOf schedule, ¬ BadStep field.2 field.1

/-- The search of a schedule returns: the present has a local time, and the first minute of
the window has a timestamp, or the window has no minute and the calendar goes on. -/
def SearchReturns (zone : Zone) (now : ℚ) (s : Schedule) : Prop :=
  ∃ start, zone.fromtimestamp (now + 60) = some start ∧
    ((∃ c, IsLeast (window s.minutes s.hours s.dayOk start.toMinute) c ∧
        zone.timestamp c ≠ none) ∨
      window s.minutes s.hours s.dayOk start.toMinute = ∅ ∧
        (start.day.later windowDays).isSome)

/-! ## Fields that raise -/

theorem stepOf_eq_none {stepRaw : List Char} :
    stepOf stepRaw = none ↔ (stepRaw ≠ [] ∧ stepRaw.all isDigit) ∧ intOf stepRaw = none := by
  unfold stepOf
  split
  · rename_i hdigits
    rw [and_iff_right hdigits, Option.map_eq_none_iff]
  · rename_i hdigits
    exact iff_of_false (by simp) fun h => hdigits h.1

/-- A part gets a set exactly when it can be read, whatever the bounds. -/
theorem exists_partSet_iff {lower : List Char → List Char} {names : NameTable} {lo hi : ℤ}
    {text : List Char} :
    (∃ S, partSet lower names lo hi text = some (some S)) ↔
      ∃ part, ReadsPart lower names text part := by
  constructor
  · rintro ⟨S, hS⟩
    exact exists_reads_of_partSet hS
  · rintro ⟨part, hpart⟩
    unfold partSet
    cases hpart with
    | plain whole reads =>
      rw [if_neg whole, valuesAt_of_reads reads]
      exact ⟨_, rfl⟩
    | stepped cut reads digits counts pos =>
      rw [if_pos (by simp), splitOnce_append cut, stepOf_eq_some.2 ⟨digits, counts, pos⟩,
        Option.map_some, Option.bind_some, valuesAt_of_reads reads]
      exact ⟨_, rfl⟩

/-- **A field raises** exactly at a bad step. -/
theorem parseField_eq_none {lo hi : ℕ} {names : NameTable} {spec : List Char} :
    parseField lo hi names spec = none ↔ BadStep names spec := by
  rw [parseField_eq, Option.map_eq_none_iff, parseFieldAt_eq_none]
  simp only [exists_partSet_iff, partSet_eq_none]
  constructor
  · rintro ⟨before, text, after, hsplit, hbefore, hslash, hstep⟩
    obtain ⟨body, stepRaw, rfl, cut⟩ := List.eq_append_cons_of_mem hslash
    rw [splitOnce_append cut] at hstep
    obtain ⟨digits, hint⟩ := stepOf_eq_none.1 hstep
    exact ⟨before, body, stepRaw, after, hsplit, hbefore, cut, digits, hint⟩
  · rintro ⟨before, body, stepRaw, after, hsplit, hbefore, cut, digits, hint⟩
    refine ⟨before, _, after, hsplit, hbefore, by simp, ?_⟩
    rw [splitOnce_append cut]
    exact stepOf_eq_none.2 ⟨digits, hint⟩

/-- **Parsing a schedule raises** exactly when one of its five fields has a bad step. -/
theorem parseSchedule_ne_none {schedule : List Char} :
    parseSchedule schedule ≠ none ↔ StepsRead schedule := by
  unfold parseSchedule StepsRead fieldsOf
  split
  · rename_i minuteSpec hourSpec domSpec monthSpec dowSpec hwords
    rw [hwords]
    simp only [List.length_cons, List.length_nil, forall_const, List.zip_cons_cons,
      List.zip_nil_right, List.forall_mem_cons, List.not_mem_nil, false_implies, and_true]
    rw [← (@parseField_eq_none 0 59 [] minuteSpec).not,
      ← (@parseField_eq_none 0 23 [] hourSpec).not,
      ← (@parseField_eq_none 1 31 [] domSpec).not,
      ← (@parseField_eq_none 1 12 monthNames monthSpec).not,
      ← (@parseField_eq_none 0 7 dowNames dowSpec).not]
    cases parseField 0 59 [] minuteSpec with
    | none => simp
    | some minutes =>
      cases parseField 0 23 [] hourSpec with
      | none => simp
      | some hours =>
        cases parseField 1 31 [] domSpec with
        | none => simp
        | some doms =>
          cases parseField 1 12 monthNames monthSpec with
          | none => simp
          | some months => cases parseField 0 7 dowNames dowSpec <;> simp
  · rename_i hshape
    refine iff_of_true (by simp) fun hlength => ?_
    match hwords : words ((keywordSpecs.lookup schedule).getD schedule), hlength with
    | [a, b, c, d, e], _ => exact absurd hwords (hshape a b c d e)

/-! ## Searches that return -/

/-- **`cron_next_run` returns** exactly when the steps of its schedule can be read and the
search, if it comes to that, returns. -/
theorem cronNextRun_ne_raised {zone : Zone} {schedule : List Char} {now : ℚ} :
    cronNextRun zone schedule now ≠ .raised ↔
      StepsRead schedule ∧
        ∀ s, parseSchedule schedule = some (some s) → SearchReturns zone now s := by
  rw [← parseSchedule_ne_none]
  unfold cronNextRun
  cases hs : parseSchedule schedule with
  | none => simp
  | some parsed =>
    cases parsed with
    | none => simp
    | some s =>
      simp only [ne_eq, reduceCtorEq, not_false_eq_true, true_and, Option.some.injEq, forall_eq']
      unfold SearchReturns
      cases hstart : zone.fromtimestamp (now + 60) with
      | none => simp
      | some start =>
        simp only [Option.some.injEq, exists_eq_left']
        have hspec := nextMinute_spec s.minutes s.hours s.dayOk start.toMinute
        generalize nextMinute s.minutes s.hours s.dayOk start.toMinute = search at hspec ⊢
        generalize window s.minutes s.hours s.dayOk start.toMinute = wanted at hspec ⊢
        cases hspec with
        | @found c least =>
          have hne : wanted ≠ ∅ := Set.nonempty_iff_ne_empty.1 ⟨c, least.1⟩
          have hunique (c' : Minute) : IsLeast wanted c' ↔ c' = c :=
            ⟨fun h => h.unique least, fun h => h ▸ least⟩
          simp only [hunique, exists_eq_left, hne, false_and, or_false]
          cases zone.timestamp c <;> simp
        | exhausted nothing goesOn => simp [nothing, goesOn]
        | overflow nothing ends =>
          simp [nothing, ends, IsLeast]

/-! ## The loop -/

section

variable {zone : Zone} {now : ℚ}

theorem nextRunOf_eq_none {job : CronJob} :
    nextRunOf zone now job = none ↔ cronNextRun zone job.schedule now = .raised := by
  unfold nextRunOf
  cases cronNextRun zone job.schedule now <;> simp

/-- The loop reports every job, in order, unless one of them raises. -/
theorem exists_nextRuns_iff {jobs : List CronJob} :
    (∃ runs, nextRuns zone now jobs = some runs ∧ runs.map Prod.fst = jobs) ↔
      ∀ job ∈ jobs, cronNextRun zone job.schedule now ≠ .raised := by
  induction jobs with
  | nil => simp [nextRuns]
  | cons job jobs ih =>
    rw [List.forall_mem_cons, ← ih, ne_eq, ← nextRunOf_eq_none, nextRuns]
    cases nextRunOf zone now job with
    | none => simp
    | some run =>
      cases nextRuns zone now jobs with
      | none => simp
      | some rest => simp

end

/-- **All jobs of a crontab are reported**, each with a number or `None`, exactly when none of
them has a step that raises and every search returns. -/
theorem next_runs_iff (zone : Zone) (now : ℚ) (defaultUser : Option (List Char))
    (text : List Char) :
    (∃ runs, nextRuns zone now (parseCrontab defaultUser text) = some runs ∧
      runs.map Prod.fst = parseCrontab defaultUser text) ↔
    ∀ job ∈ parseCrontab defaultUser text, StepsRead job.schedule ∧
      ∀ s, parseSchedule job.schedule = some (some s) → SearchReturns zone now s := by
  rw [exists_nextRuns_iff]
  simp only [cronNextRun_ne_raised]

/-- **A superscript in a step** hides all jobs. -/
theorem superscript_hides_jobs :
    ¬ ∀ zone now defaultUser text, ∃ runs,
      nextRuns zone now (parseCrontab defaultUser text) = some runs ∧
        runs.map Prod.fst = parseCrontab defaultUser text := by
  intro h
  have hreturns := exists_nextRuns_iff.1 (h utc 0 (some "joe".toList)
    "0 4 * * * backup\n*/² * * * * report\n".toList)
  have hjob : (⟨"*/² * * * *".toList, "joe".toList, "report".toList⟩ : CronJob) ∈
      parseCrontab (some "joe".toList) "0 4 * * * backup\n*/² * * * * report\n".toList := by
    decide +kernel
  have hraises : parseSchedule "*/² * * * *".toList = none := by
    rw [← Option.isNone_iff_eq_none]
    decide +kernel
  have hsteps := (cronNextRun_ne_raised.1 (hreturns _ hjob)).1
  exact parseSchedule_ne_none.2 hsteps hraises

end OoAgent
