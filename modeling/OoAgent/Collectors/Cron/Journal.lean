import OoAgent.Collectors.Cron.Inventory
import OoAgent.Collectors.Nvidia.Gddr6

/-!
# Starts of cron jobs

The journal has a line for every job that cron starts.  `parse_journal_starts` keeps the last
start of each command of each user, and `collect` looks its jobs up in them.

* `journalStart` — `_JOURNAL_CMD`, and what is read off its groups.
* `parseJournalStarts` — `parse_journal_starts`.
* `JournalEntry` — a line of the journal: a start that is printed, or anything else.
* `last_run_of_journal` — **the last run of a job** is the latest start the journal has of its
  command under its user.
-/

namespace OoAgent

open PyText

/-! ## A line of the journal -/

/-- What the expression and the time library know of characters and times. -/
structure JournalCalls (φ : Type) where
  /-- `\w`. -/
  isWord : Char → Bool
  bracket : isWord '[' = false
  plain : ∀ c, isWord c = true → isSpace c = false
  /-- `datetime.strptime(s, "%Y-%m-%dT%H:%M:%S%z").timestamp()`; `none` for a `ValueError`. -/
  strptime : List Char → Option φ

variable {φ σ : Type}

/-- `(\S+)\s+`, and what follows. -/
def wordGap (s : List Char) : Option (List Char × List Char) :=
  let word := s.takeWhile fun c => !isSpace c
  let rest := s.dropWhile fun c => !isSpace c
  if word ≠ [] ∧ rest ≠ [] then some (word, lstrip rest) else none

/-- `\((.*)\)`, on all of a text. -/
def inParens (s : List Char) : Option (List Char) :=
  if s.head? = some '(' ∧ 2 ≤ s.length ∧ s.getLast? = some ')' then some s.tail.dropLast else none

/-- `CRON\w*\[\d+\]:`, on all of a word. -/
def isCronTag (calls : JournalCalls φ) (word : List Char) : Bool :=
  let number := ((word.drop 4).dropWhile calls.isWord).tail
  "CRON".toList.isPrefixOf word &&
    (((word.drop 4).dropWhile calls.isWord).head? == some '[' &&
      (number.takeWhile isDecimal != [] && number.dropWhile isDecimal == [']', ':']))

/-- What a line says was started, and when: its user and command; `none` when the line does not
match or its time cannot be read. -/
def journalStart (calls : JournalCalls φ) (line : List Char) :
    Option ((List Char × List Char) × φ) := do
  let (stamp, line) ← wordGap line
  let (_, line) ← wordGap line
  let (tag, line) ← wordGap line
  guard (isCronTag calls tag = true)
  let (user, line) ← wordGap line
  let user ← inParens user
  guard (user ≠ [])
  let (action, line) ← wordGap line
  guard (action = "CMD".toList)
  let command ← inParens (rstrip line)
  let time ← calls.strptime stamp
  return ((user, strip command), time)

/-- `parse_journal_starts`. -/
def parseJournalStarts [LinearOrder φ] [Zero φ] (calls : JournalCalls φ) (text : List Char) :
    Dict (List Char × List Char) φ :=
  ((splitlines text).filterMap (journalStart calls)).foldl Dict.keepLargest []

/-! ## What cron logs -/

/-- A start that is logged. -/
structure CronStart (calls : JournalCalls φ) where
  stamp : List Char
  host : List Char
  suffix : List Char
  pid : List Char
  user : List Char
  command : List Char
  stamp_word : IsWord stamp
  host_word : IsWord host
  suffix_word : ∀ c ∈ suffix, calls.isWord c = true
  pid_digits : pid ≠ [] ∧ ∀ c ∈ pid, c.isDigit = true
  user_word : IsWord user

namespace CronStart

variable {calls : JournalCalls φ}

/-- `CRON[1]:`. -/
def tag (e : CronStart calls) : List Char :=
  "CRON".toList ++ (e.suffix ++ '[' :: (e.pid ++ [']', ':']))

/-- The line of a start. -/
def line (e : CronStart calls) : List Char :=
  e.stamp ++ ' ' :: (e.host ++ ' ' :: (e.tag ++ ' ' :: ('(' :: (e.user ++ [')']) ++ ' ' ::
    ("CMD".toList ++ ' ' :: '(' :: (e.command ++ [')'])))))

end CronStart

/-- A line of the journal: a start, or something the expression does not match. -/
inductive JournalEntry (calls : JournalCalls φ) where
  | start (e : CronStart calls) (oneLine : OneLine e.line)
  | other (line : List Char) (oneLine : OneLine line) (unmatched : journalStart calls line = none)

/-- The text of an entry. -/
def JournalEntry.line {calls : JournalCalls φ} : JournalEntry calls → List Char
  | .start e _ => e.line
  | .other line _ _ => line

/-- The journal has a start of this command under this user at this time. -/
def StartedAt {calls : JournalCalls φ} (journal : List (JournalEntry calls))
    (user command : List Char) (time : φ) : Prop :=
  ∃ e oneLine, JournalEntry.start e oneLine ∈ journal ∧ e.user = user ∧
    strip e.command = command ∧ calls.strptime e.stamp = some time

/-! ## Reading a logged start -/

/-- A text that is checked for white space. -/
theorem plain_of_all {s : List Char} (h : (s.all fun c => !isSpace c) = true) :
    ∀ c ∈ s, isSpace c = false := by
  intro c hc
  simpa using List.all_eq_true.1 h c hc

theorem wordGap_word {word rest : List Char} (hword : IsWord word) (hrest : Begins rest) :
    wordGap (word ++ ' ' :: rest) = some (word, rest) := by
  have hgap : [' '] ≠ [] ∧ ∀ c ∈ [' '], isSpace c = true := by
    refine ⟨List.cons_ne_nil _ _, fun c hc => ?_⟩
    rw [List.mem_singleton.1 hc]
    decide
  obtain ⟨htake, hdrop⟩ := @takeWhile_word word [' '] rest hword hgap
  have hstrip : lstrip (' ' :: rest) = rest := by
    rw [lstrip, List.dropWhile_cons_of_pos (by decide)]
    exact lstrip_of_begins hrest
  rw [List.singleton_append] at htake hdrop
  rw [wordGap, htake, hdrop, if_pos ⟨hword.1, List.cons_ne_nil _ _⟩, hstrip]

theorem inParens_parens (s : List Char) : inParens ('(' :: (s ++ [')'])) = some s := by
  have hlast : ('(' :: (s ++ [')'])).getLast? = some ')' := by
    rw [← List.cons_append, List.getLast?_concat]
  have hlength : 2 ≤ ('(' :: (s ++ [')'])).length := by simp
  rw [inParens, if_pos ⟨rfl, hlength, hlast⟩, List.tail_cons, List.dropLast_concat]

namespace CronStart

variable {calls : JournalCalls φ}

theorem isCronTag_tag (e : CronStart calls) : isCronTag calls e.tag = true := by
  have hbracket : ¬ calls.isWord '[' = true := by rw [calls.bracket]; exact Bool.false_ne_true
  have hsuffix : (e.tag.drop 4).dropWhile calls.isWord = '[' :: (e.pid ++ [']', ':']) := by
    have hdrop : e.tag.drop 4 = e.suffix ++ '[' :: (e.pid ++ [']', ':']) := rfl
    rw [hdrop, List.dropWhile_append_of_pos e.suffix_word, List.dropWhile_cons_of_neg hbracket]
  have hdigits : ∀ c ∈ e.pid, isDecimal c = true := by
    intro c hc
    rw [isDecimal, decimal_ascii (e.pid_digits.2 c hc)]
    rfl
  have hstop : ¬ isDecimal ']' = true := by decide +kernel
  have htake : (e.pid ++ [']', ':']).takeWhile isDecimal = e.pid := by
    rw [List.takeWhile_append_of_pos hdigits, List.takeWhile_cons_of_neg hstop, List.append_nil]
  have hrest : (e.pid ++ [']', ':']).dropWhile isDecimal = [']', ':'] := by
    rw [List.dropWhile_append_of_pos hdigits, List.dropWhile_cons_of_neg hstop]
  have hprefix : "CRON".toList.isPrefixOf e.tag = true :=
    List.isPrefixOf_iff_prefix.2 (List.prefix_append _ _)
  simp only [isCronTag, hsuffix, List.tail_cons, htake, hrest, hprefix, List.head?_cons]
  simpa using e.pid_digits.1

theorem tag_word (e : CronStart calls) : IsWord e.tag := by
  refine ⟨List.cons_ne_nil _ _, fun c hc => ?_⟩
  rcases List.mem_append.1 hc with hc | hc
  · exact plain_of_all (by decide) c hc
  · rcases List.mem_append.1 hc with hc | hc
    · exact calls.plain c (e.suffix_word c hc)
    · rcases List.mem_cons.1 hc with rfl | hc
      · decide
      · rcases List.mem_append.1 hc with hc | hc
        · have hbounds := toNat_of_ascii (e.pid_digits.2 c hc)
          simp only [isSpace, List.mem_cons, List.not_mem_nil, or_false, decide_eq_false_iff_not]
          omega
        · exact plain_of_all (by decide) c hc

theorem parens_word {s : List Char} (h : ∀ c ∈ s, isSpace c = false) :
    IsWord ('(' :: (s ++ [')'])) := by
  refine ⟨List.cons_ne_nil _ _, fun c hc => ?_⟩
  rcases List.mem_cons.1 hc with rfl | hc
  · decide
  · rcases List.mem_append.1 hc with hc | hc
    · exact h c hc
    · rw [List.mem_singleton.1 hc]
      decide

/-- **A logged start is read as it was logged.** -/
theorem journalStart_line (e : CronStart calls) :
    journalStart calls e.line =
      (calls.strptime e.stamp).map fun time => ((e.user, strip e.command), time) := by
  have hopen (s : List Char) : Begins ('(' :: s) := ⟨'(', s, rfl, by decide⟩
  have haction : IsWord "CMD".toList := ⟨by decide, plain_of_all (by decide)⟩
  have hstrip : rstrip ('(' :: (e.command ++ [')'])) = '(' :: (e.command ++ [')']) := by
    rw [rstrip, ← List.cons_append, List.rdropWhile_concat_neg _ _ _ (by decide)]
  have hparens := parens_word e.user_word.2
  have hstamp := wordGap_word e.stamp_word (e.host_word.begins
    (' ' :: (e.tag ++ ' ' :: ('(' :: (e.user ++ [')']) ++ ' ' ::
      ("CMD".toList ++ ' ' :: '(' :: (e.command ++ [')']))))))
  have hhost := wordGap_word e.host_word (e.tag_word.begins
    (' ' :: ('(' :: (e.user ++ [')']) ++ ' ' ::
      ("CMD".toList ++ ' ' :: '(' :: (e.command ++ [')'])))))
  have htag := wordGap_word e.tag_word (hparens.begins
    (' ' :: ("CMD".toList ++ ' ' :: '(' :: (e.command ++ [')']))))
  have huser := wordGap_word hparens (haction.begins (' ' :: '(' :: (e.command ++ [')'])))
  have hcommand := wordGap_word haction (hopen (e.command ++ [')']))
  simp only [journalStart, line, hstamp, hhost, htag, huser, hcommand, isCronTag_tag,
    inParens_parens, hstrip, Option.bind_eq_bind, Option.bind_some, guard_true]
  have hguard : (guard (e.user ≠ []) : Option Unit) = some () := if_pos e.user_word.1
  rw [hguard]
  cases calls.strptime e.stamp <;> rfl

end CronStart

/-! ## The last start -/

section

variable {calls : JournalCalls φ}

theorem mem_starts {journal : List (JournalEntry calls)} {user command : List Char} {time : φ} :
    ((user, command), time) ∈
        (splitlines (unlines (journal.map JournalEntry.line))).filterMap (journalStart calls) ↔
      StartedAt journal user command time := by
  have hlines : ∀ l ∈ journal.map JournalEntry.line, OneLine l := by
    intro l hl
    obtain ⟨entry, -, rfl⟩ := List.mem_map.1 hl
    cases entry with
    | start e oneLine => exact oneLine
    | other line oneLine unmatched => exact oneLine
  rw [splitlines_unlines hlines, List.filterMap_map, List.mem_filterMap]
  constructor
  · rintro ⟨entry, hentry, hstart⟩
    cases entry with
    | start e oneLine =>
      rw [Function.comp_apply, JournalEntry.line, e.journalStart_line,
        Option.map_eq_some_iff] at hstart
      obtain ⟨time', htime, heq⟩ := hstart
      obtain ⟨hkey, rfl⟩ := Prod.mk.inj heq
      obtain ⟨rfl, rfl⟩ := Prod.mk.inj hkey
      exact ⟨e, oneLine, hentry, rfl, rfl, htime⟩
    | other line oneLine unmatched =>
      rw [Function.comp_apply, JournalEntry.line, unmatched] at hstart
      cases hstart
  · rintro ⟨e, oneLine, hentry, rfl, rfl, htime⟩
    refine ⟨_, hentry, ?_⟩
    rw [Function.comp_apply, JournalEntry.line, e.journalStart_line, htime]
    rfl

/-- A classic job of a report has been looked up in the starts. -/
theorem lastRun_of_mem {digest : List Char → List Char} {host : CronHost φ σ}
    {report : CronReport φ} (h : collectCron digest host = some report) {id : List Char}
    {job : ClassicJob φ} (hjob : (id, CronEntry.classic job) ∈ report.jobs) :
    job.lastRun = host.starts.get (job.job.user, job.job.command) := by
  simp only [collectCron, Option.bind_eq_bind, Option.bind_eq_some_iff, Option.pure_def,
    Option.some.injEq] at h
  obtain ⟨listed, hlisted, classic, hclassic, timers, -, rfl⟩ := h
  obtain ⟨entry, hentry, heq⟩ := List.mem_map.1 hjob
  obtain ⟨-, rfl⟩ := Prod.mk.inj heq
  rcases List.mem_append.1 ((List.perm_insertionSort _ _).mem_iff.1 hentry) with hmem | hmem
  · obtain ⟨job', hjob', heq⟩ := List.mem_map.1 hmem
    obtain rfl := CronEntry.classic.inj heq
    rw [Traverse.filterMap_of_mapM hclassic] at hjob'
    obtain ⟨l, hl, hcomplete⟩ := List.mem_filterMap.1 hjob'
    rw [if_neg (List.ne_nil_of_mem hl)] at hcomplete
    simp only [completeJob, Option.bind_eq_bind, Option.bind_eq_some_iff, Option.pure_def,
      Option.some.injEq] at hcomplete
    obtain ⟨nextRun, -, rfl⟩ := hcomplete
    rfl
  · obtain ⟨timer, -, heq⟩ := List.mem_map.1 hmem
    cases heq

/-- **The last run of a job** is the latest start that the journal has of its command under its
user, wherever in the journal that stands. -/
theorem last_run_of_journal [LinearOrder φ] [Zero φ] {digest : List Char → List Char}
    {host : CronHost φ σ}
    {report : CronReport φ} {journal : List (JournalEntry calls)}
    (hstarts : host.starts =
      parseJournalStarts calls (unlines (journal.map JournalEntry.line)))
    (h : collectCron digest host = some report) {id : List Char} {job : ClassicJob φ}
    (hjob : (id, CronEntry.classic job) ∈ report.jobs) (time : φ) :
    job.lastRun = some time ↔
      0 < time ∧ StartedAt journal job.job.user job.job.command time ∧
        ∀ time', StartedAt journal job.job.user job.job.command time' → time' ≤ time := by
  rw [lastRun_of_mem h hjob, hstarts, parseJournalStarts, Dict.get_foldl_keepLargest, mem_starts]
  exact and_congr_right fun _ => and_congr_right fun _ => forall_congr' fun time' => by
    rw [mem_starts]

end

/-- Letters, digits and the underscore of ASCII, and one time that can be read. -/
def sampleJournalCalls : JournalCalls ℕ where
  isWord c := c.isAlphanum || c == '_'
  bracket := by decide
  plain := by
    intro c hc
    have hbounds : 48 ≤ c.toNat ∧ c.toNat ≤ 122 := by
      simp only [Char.isAlphanum, Char.isAlpha, Char.isUpper, Char.isLower, Char.isDigit,
        Bool.or_eq_true, Bool.and_eq_true, decide_eq_true_eq, beq_iff_eq] at hc
      rcases hc with ((hc | hc) | hc) | rfl
      · exact ⟨le_trans (by decide) hc.1, le_trans hc.2 (by decide)⟩
      · exact ⟨le_trans (by decide) hc.1, hc.2⟩
      · exact ⟨hc.1, le_trans hc.2 (by decide)⟩
      · decide
    simp only [isSpace, List.mem_cons, List.not_mem_nil, or_false, decide_eq_false_iff_not]
    omega
  strptime s :=
    if s = "2026-07-12T16:45:01+0300".toList then some 1783863901
    else if s = "2026-07-11T16:45:01+0300".toList then some 1783777501
    else none

/-- Joe's job is started. -/
def joeStart (stamp : List Char) (hstamp : IsWord stamp) : CronStart sampleJournalCalls where
  stamp := stamp
  host := "nas".toList
  suffix := []
  pid := "71".toList
  user := "joe".toList
  command := "backup".toList
  stamp_word := hstamp
  host_word := ⟨by decide, plain_of_all (by decide)⟩
  suffix_word := fun _ hc => absurd hc List.not_mem_nil
  pid_digits := ⟨by decide, fun c hc => by
    have hall : ("71".toList.all Char.isDigit) = true := by decide
    exact List.all_eq_true.1 hall c hc⟩
  user_word := ⟨by decide, plain_of_all (by decide)⟩

/-- The later start of the two. -/
def joeLater : CronStart sampleJournalCalls :=
  joeStart "2026-07-12T16:45:01+0300".toList ⟨by decide, plain_of_all (by decide)⟩

/-- The earlier one. -/
def joeEarlier : CronStart sampleJournalCalls :=
  joeStart "2026-07-11T16:45:01+0300".toList ⟨by decide, plain_of_all (by decide)⟩

theorem oneLine_joeLater : OneLine joeLater.line := by decide +kernel

theorem oneLine_joeEarlier : OneLine joeEarlier.line := by decide +kernel

/-- A journal that has the later start first. -/
def joeJournal : List (JournalEntry sampleJournalCalls) :=
  [.start joeLater oneLine_joeLater, .start joeEarlier oneLine_joeEarlier]

/-- The host of the journal. -/
def joeLogged : CronHost ℕ Unit :=
  { joeHost with
    starts := parseJournalStarts sampleJournalCalls
      (unlines (joeJournal.map JournalEntry.line)) }

/-- The user and command of a classic job. -/
def CronEntry.classicJob : CronEntry φ → Option CronJob
  | .classic job => some job.job
  | .timer _ => none

theorem last_run_of_journal_joe :
    ∃ report id, ∃ job : ClassicJob ℕ, collectCron (fun key => key) joeLogged = some report ∧
      (id, CronEntry.classic job) ∈ report.jobs ∧ job.lastRun = some 1783863901 := by
  have hjobs : ((collectCron (fun key => key) joeLogged).map
      (fun report => (report.jobs.map fun item => item.2.classicJob).contains
        (some ⟨"@reboot".toList, "joe".toList, "backup".toList⟩))) = some true := by
    decide +kernel
  obtain ⟨report, hreport, hentries⟩ := Option.map_eq_some_iff.1 hjobs
  obtain ⟨⟨id, entry⟩, hentry, hclassic⟩ := List.mem_map.1 (List.contains_iff_mem.1 hentries)
  cases entry with
  | timer job => cases hclassic
  | classic job =>
    have hown : job.job = ⟨"@reboot".toList, "joe".toList, "backup".toList⟩ :=
      Option.some.inj hclassic
    have hstarts : joeLogged.starts = parseJournalStarts sampleJournalCalls
        (unlines (joeJournal.map JournalEntry.line)) := rfl
    refine ⟨report, id, job, hreport, hentry, ?_⟩
    rw [last_run_of_journal hstarts hreport hentry, hown]
    refine ⟨by decide, ⟨joeLater, oneLine_joeLater, List.mem_cons_self, rfl, by decide,
      by decide⟩, ?_⟩
    rintro time ⟨e, oneLine, hmem, -, -, htime⟩
    have hlater : sampleJournalCalls.strptime joeLater.stamp = some 1783863901 := by decide
    have hearlier : sampleJournalCalls.strptime joeEarlier.stamp = some 1783777501 := by decide
    rcases List.mem_cons.1 hmem with heq | hmem
    · obtain rfl := (JournalEntry.start.inj heq)
      exact (Option.some.inj (htime.symm.trans hlater)).le
    · obtain rfl := JournalEntry.start.inj (List.mem_singleton.1 hmem)
      exact (Option.some.inj (htime.symm.trans hearlier)).le.trans (by decide)

end OoAgent
