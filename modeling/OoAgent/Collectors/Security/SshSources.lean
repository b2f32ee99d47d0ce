import OoAgent.Collectors.Security.SshLog

/-!
# The two sources of SSH log lines

The same history of log events, read from a log file and from a journal that gives the messages
of sshd in the last 24 hours.

* `LogEvent`, `SshHistory` — what was logged, and when.
* `fallback`, `withJournal` — `ssh_activity_24h` without and with the journal.
* `SourcesAgree` — both count the same, and only recent lines of sshd.
* `sshReport24h_eq` — the reports are then the same.
* `ssh_sources_agree_iff` — **they agree** exactly when no other line of a log file that is read
  counts.
-/

namespace OoAgent

open PyText

/-! ## Histories -/

/-- An event that is logged. -/
structure LogEvent where
  time : ℚ
  /-- It was written by sshd. -/
  sshd : Bool
  header : LogHeader
  message : List Char
  oneLine : OneLine message

namespace LogEvent

/-- The event is one of sshd in the last 24 hours. -/
def isRecent (now : ℚ) (e : LogEvent) : Bool := e.sshd && decide (now - 86400 ≤ e.time)

/-- The line of the event in a log file, without its end. -/
def text (e : LogEvent) : List Char := e.header.text ++ e.message

theorem oneLine_text (e : LogEvent) : OneLine e.text := e.header.oneLine.append e.oneLine

/-- The message is a failed login, or an accepted one from an address. -/
def Counts (chars : WordChars) (e : LogEvent) : Prop :=
  isFailedSsh e.message = true ∨
    isAcceptedSsh e.message = true ∧ (fromIp chars e.message).isSome = true

end LogEvent

/-- What was logged, and when the log file was last written. -/
structure SshHistory where
  events : List LogEvent
  modified : ℚ
  written : ∀ e ∈ events, e.time ≤ modified

namespace SshHistory

/-- The messages of sshd in the last 24 hours. -/
def recent (h : SshHistory) (now : ℚ) : List (List Char) :=
  (h.events.filter (LogEvent.isRecent now)).map LogEvent.message

/-- The log file. -/
def file (h : SshHistory) : LogFile :=
  { modified := h.modified, content := some (unlines (h.events.map LogEvent.text)) }

/-- A host with the log file in one of the two places. -/
def host (h : SshHistory) (now : ℚ) (inSecure : Bool) (journal : List Char) : SshHost :=
  { windows := false, journal := journal,
    authLog := if inSecure then none else some h.file,
    secure := if inSecure then some h.file else none, now := now }

/-- `ssh_activity_24h` through the log file. -/
def fallback (chars : WordChars) (h : SshHistory) (now : ℚ) (inSecure : Bool) :
    Option SshActivity :=
  sshActivity24h chars (h.host now inSecure [])

/-- `ssh_activity_24h` with a journal that gives the messages of sshd in the last 24 hours. -/
def withJournal (chars : WordChars) (h : SshHistory) (now : ℚ) (inSecure : Bool) :
    Option SshActivity :=
  sshActivity24h chars (h.host now inSecure (unlines (h.recent now)))

end SshHistory

/-- The failed count and the counts for each address are the same. -/
def SameCounts (a b : SshActivity) : Prop :=
  a.failed = b.failed ∧ (∀ ip, a.failedIps.get ip = b.failedIps.get ip) ∧
    ∀ ip, a.okIps.get ip = b.okIps.get ip

/-- Both sources count the same, and only the lines of sshd in the last 24 hours. -/
def SourcesAgree (chars : WordChars) (h : SshHistory) (now : ℚ) (inSecure : Bool) : Prop :=
  (h.fallback chars now inSecure = none → h.withJournal chars now inSecure = none) ∧
  ∀ a, h.fallback chars now inSecure = some a →
    (∃ b, h.withJournal chars now inSecure = some b ∧ SameCounts a b) ∧
      SameCounts a (sshActivity chars (h.recent now))

/-! ## The lines of the sources -/

theorem readLinesFrom_append_newline {line l : List Char} (hl : '\n' ∉ l) (rest : List Char) :
    readLinesFrom line (l ++ '\n' :: rest) = (line ++ l ++ ['\n']) :: readLinesFrom [] rest := by
  induction l generalizing line with
  | nil => rw [List.nil_append, readLinesFrom, if_pos rfl, List.append_nil]
  | cons c l ih =>
    rw [List.mem_cons, not_or] at hl
    rw [List.cons_append, readLinesFrom, if_neg (Ne.symm hl.1), ih hl.2, List.append_assoc line,
      List.singleton_append]

theorem OneLine.notMem {s : List Char} (h : OneLine s) {c : Char} (hc : isLineEnd c = true) :
    c ∉ s := by
  intro hmem
  rw [h c hmem] at hc
  cases hc

/-- The lines of a file of lines. -/
theorem readlines_unlines {lines : List (List Char)} (h : ∀ l ∈ lines, OneLine l) :
    readlines (unlines lines) = lines.map (· ++ ['\n']) := by
  have hreturn : '\r' ∉ unlines lines := by
    intro hmem
    obtain ⟨l, hl, hc⟩ := List.mem_flatMap.1 hmem
    rcases List.mem_append.1 hc with hc | hc
    · exact (h l hl).notMem (by decide) hc
    · exact absurd (List.mem_singleton.1 hc) (by decide)
  rw [readlines, translateNewlines_of_not_mem hreturn]
  clear hreturn
  induction lines with
  | nil => rfl
  | cons l lines ih =>
    obtain ⟨hl, hlines⟩ := List.forall_mem_cons.1 h
    have hcons : unlines (l :: lines) = l ++ '\n' :: unlines lines := by simp [unlines]
    rw [hcons, readLinesFrom_append_newline (hl.notMem (by decide)), ih hlines, List.nil_append,
      List.map_cons]

section

variable {chars : WordChars} {h : SshHistory} {now : ℚ} {inSecure : Bool}

theorem oneLine_recent : ∀ l ∈ h.recent now, OneLine l := by
  intro l hl
  obtain ⟨e, -, rfl⟩ := List.mem_map.1 hl
  exact e.oneLine

/-- The journal is empty when it has no message. -/
theorem unlines_eq_nil_iff {lines : List (List Char)} : unlines lines = [] ↔ lines = [] := by
  cases lines with
  | nil => simp [unlines]
  | cons l lines => simp [unlines]

/-- Without the journal, all lines of a log file that is fresh are counted. -/
theorem fallback_eq :
    h.fallback chars now inSecure =
      if h.modified < now - 86400 then none
      else some (sshActivity chars (h.events.map fun e => e.header.line e.message)) := by
  have hfile : logFileLines now (some h.file) =
      if h.modified < now - 86400 then none
      else some (h.events.map fun e => e.header.line e.message) := by
    have hlines : readlines (unlines (h.events.map LogEvent.text)) =
        h.events.map fun e => e.header.line e.message := by
      rw [readlines_unlines, List.map_map]
      · rfl
      · intro l hl
        obtain ⟨e, -, rfl⟩ := List.mem_map.1 hl
        exact e.oneLine_text
    show (if h.modified < now - 86400 then none
      else some (readlines (unlines (h.events.map LogEvent.text)))) = _
    rw [hlines]
  have hlines : sshLogLines (h.host now inSecure []) = logFileLines now (some h.file) := by
    cases inSecure with
    | false => exact Option.or_none
    | true => exact Option.none_or
  rw [SshHistory.fallback, sshActivity24h, hlines, hfile]
  split_ifs <;> rfl

/-- With the journal, its lines are counted, unless there are none. -/
theorem withJournal_eq :
    h.withJournal chars now inSecure =
      if h.recent now = [] then h.fallback chars now inSecure
      else some (sshActivity chars (h.recent now)) := by
  split_ifs with hnil
  · rw [SshHistory.withJournal, hnil]
    rfl
  · have hjournal : unlines (h.recent now) ≠ [] := fun heq => hnil (unlines_eq_nil_iff.1 heq)
    have hlines : sshLogLines (h.host now inSecure (unlines (h.recent now))) =
        some (h.recent now) := by
      show (if unlines (h.recent now) ≠ [] then some (splitlines (unlines (h.recent now)))
        else _) = _
      rw [if_pos hjournal, splitlines_unlines oneLine_recent]
    rw [SshHistory.withJournal, sshActivity24h, hlines, Option.map_some]

/-! ## When they agree -/

/-- What is counted is the same when the lines of each kind are as many. -/
theorem sameCounts_iff {lines lines' : List (List Char)} :
    SameCounts (sshActivity chars lines) (sshActivity chars lines') ↔
      lines.countP isFailedSsh = lines'.countP isFailedSsh ∧
      (∀ ip, lines.countP (isFailedFrom chars ip) = lines'.countP (isFailedFrom chars ip)) ∧
      ∀ ip, lines.countP (isAcceptedFrom chars ip) = lines'.countP (isAcceptedFrom chars ip) := by
  obtain ⟨hfailed, hfailedIps, hokIps⟩ := @sshActivity_eq chars lines
  obtain ⟨hfailed', hfailedIps', hokIps'⟩ := @sshActivity_eq chars lines'
  unfold SameCounts
  simp only [hfailed, hfailed', hfailedIps, hfailedIps', hokIps, hokIps', countEntry_inj]

theorem SameCounts.refl (a : SshActivity) : SameCounts a a := ⟨rfl, fun _ => rfl, fun _ => rfl⟩

/-- Elements are as many as those that are kept exactly when all of them are kept. -/
theorem countP_eq_filter_iff {α : Type*} {p q : α → Bool} {l : List α} :
    l.countP p = (l.filter q).countP p ↔ ∀ x ∈ l, p x = true → q x = true := by
  rw [List.countP_eq_countP_filter_add l p q, Nat.add_eq_left, List.countP_eq_zero]
  simp only [List.mem_filter]
  constructor
  · intro hnone x hx hp
    by_contra hq
    exact hnone x ⟨hx, by simpa using hq⟩ hp
  · rintro hall x ⟨hx, hq⟩ hp
    rw [hall x hx hp] at hq
    cases hq

/-- A line of a log file is counted as the message in it. -/
theorem countP_lines {p : List Char → Bool}
    (hp : ∀ (header : LogHeader) message, p (header.line message) = p message) :
    (h.events.map fun e => e.header.line e.message).countP p = (h.recent now).countP p ↔
      ∀ e ∈ h.events, p e.message = true → e.isRecent now = true := by
  have hlines : (h.events.map fun e => e.header.line e.message).countP p =
      h.events.countP fun e => p e.message := by
    rw [List.countP_map]
    exact List.countP_congr fun e _ => by rw [Function.comp_apply, hp]
  have hrecent : (h.recent now).countP p =
      (h.events.filter (LogEvent.isRecent now)).countP fun e => p e.message := List.countP_map
  rw [hlines, hrecent]
  exact countP_eq_filter_iff

/-- **The lines of the file count as the recent ones** exactly when no other one counts. -/
theorem sameCounts_lines_iff :
    SameCounts (sshActivity chars (h.events.map fun e => e.header.line e.message))
        (sshActivity chars (h.recent now)) ↔
      ∀ e ∈ h.events, e.Counts chars → e.isRecent now = true := by
  rw [sameCounts_iff, countP_lines LogHeader.isFailedSsh_line]
  have hfailedFrom (ip : List Char) := @countP_lines h now (isFailedFrom chars ip)
    fun header message => by
      rw [isFailedFrom, isFailedFrom, header.isFailedSsh_line, header.fromIp_line]
  have hacceptedFrom (ip : List Char) := @countP_lines h now (isAcceptedFrom chars ip)
    fun header message => by
      rw [isAcceptedFrom, isAcceptedFrom, header.isFailedSsh_line, header.isAcceptedSsh_line,
        header.fromIp_line]
  simp only [hfailedFrom, hacceptedFrom]
  constructor
  · rintro ⟨hfailed, -, haccepted⟩ e he hcounts
    by_cases hmessage : isFailedSsh e.message = true
    · exact hfailed e he hmessage
    · obtain ⟨haccept, hsome⟩ := hcounts.resolve_left hmessage
      obtain ⟨ip, hip⟩ := Option.isSome_iff_exists.1 hsome
      refine haccepted ip e he ?_
      simp [isAcceptedFrom, hmessage, haccept, hip]
  · intro hall
    refine ⟨fun e he hfailed => hall e he (.inl hfailed), fun ip e he hfailed => ?_,
      fun ip e he haccepted => ?_⟩
    · rw [isFailedFrom, Bool.and_eq_true] at hfailed
      exact hall e he (.inl hfailed.1)
    · rw [isAcceptedFrom, Bool.and_eq_true, Bool.and_eq_true] at haccepted
      refine hall e he (.inr ⟨haccepted.1.2, ?_⟩)
      rw [of_decide_eq_true haccepted.2]
      rfl

/-- A message that is neither a failed login nor an accepted one from an address changes nothing. -/
theorem activityStep_of_not_counts {e : LogEvent} (hnot : ¬ e.Counts chars) (a : SshActivity) :
    activityStep chars a e.message = a := by
  obtain ⟨hfailed, haccepted⟩ := not_or.1 hnot
  rw [activityStep, if_neg hfailed]
  split_ifs with haccept
  · have hnone : fromIp chars e.message = none :=
      Option.not_isSome_iff_eq_none.1 fun hsome => haccepted ⟨haccept, hsome⟩
    rw [hnone]
    rfl
  · rfl

/-- The loop over the lines of the file is that over the messages. -/
theorem sshActivity_lines (events : List LogEvent) :
    sshActivity chars (events.map fun e => e.header.line e.message) =
      sshActivity chars (events.map LogEvent.message) := by
  have hstep (a : SshActivity) (e : LogEvent) :
      activityStep chars a (e.header.line e.message) = activityStep chars a e.message := by
    rw [activityStep, activityStep, e.header.isFailedSsh_line, e.header.isAcceptedSsh_line,
      e.header.fromIp_line]
  rw [sshActivity, sshActivity, List.foldl_map, List.foldl_map]
  exact List.foldl_ext _ _ _ fun a e _ => hstep a e

/-- Where no other line counts, the counters are those of the recent messages. -/
theorem sshActivity_eq_recent
    (hall : ∀ e ∈ h.events, e.Counts chars → e.isRecent now = true) :
    sshActivity chars (h.events.map fun e => e.header.line e.message) =
      sshActivity chars (h.recent now) := by
  rw [sshActivity_lines, SshHistory.recent, sshActivity, sshActivity]
  generalize ({ failed := 0, failedIps := [], okIps := [] } : SshActivity) = a
  generalize h.events = events at hall ⊢
  induction events generalizing a with
  | nil => rfl
  | cons e events ih =>
    obtain ⟨he, hevents⟩ := List.forall_mem_cons.1 hall
    rw [List.map_cons, List.foldl_cons, ih _ hevents]
    by_cases hrecent : e.isRecent now = true
    · rw [List.filter_cons_of_pos hrecent, List.map_cons, List.foldl_cons]
    · rw [List.filter_cons_of_neg hrecent,
        activityStep_of_not_counts (fun hcounts => hrecent (he hcounts))]

/-- A log file that is not fresh has no recent event. -/
theorem recent_eq_nil_of_old (hold : h.modified < now - 86400) : h.recent now = [] := by
  refine List.map_eq_nil_iff.2 (List.filter_eq_nil_iff.2 fun e he hrecent => ?_)
  rw [LogEvent.isRecent, Bool.and_eq_true] at hrecent
  have hnew := of_decide_eq_true hrecent.2
  exact absurd ((hnew.trans (h.written e he)).trans_lt hold) (lt_irrefl _)

/-- **The reports are the same** where no other line of a fresh log file counts. -/
theorem sshReport24h_eq
    (hall : now - 86400 ≤ h.modified →
      ∀ e ∈ h.events, e.Counts chars → e.isRecent now = true) :
    sshReport24h chars (h.host now inSecure []) =
      sshReport24h chars (h.host now inSecure (unlines (h.recent now))) := by
  refine congrArg (Option.map SshActivity.report) ?_
  show h.fallback chars now inSecure = h.withJournal chars now inSecure
  rw [withJournal_eq, fallback_eq]
  split_ifs with hold hnil hnil
  · rfl
  · exact absurd (recent_eq_nil_of_old hold) hnil
  · rfl
  · rw [sshActivity_eq_recent (hall (not_lt.1 hold))]

end

/-- **Both sources of SSH log lines give the same report** of the last 24 hours, for any history,
exactly when in a log file that was written in that time no line counts that is older or of
another program. -/
theorem ssh_sources_agree_iff (chars : WordChars) (h : SshHistory) (now : ℚ) (inSecure : Bool) :
    SourcesAgree chars h now inSecure ↔
    (now - 86400 ≤ h.modified →
      ∀ e ∈ h.events, e.Counts chars → e.isRecent now = true) := by
  unfold SourcesAgree
  rw [withJournal_eq, fallback_eq]
  by_cases hold : h.modified < now - 86400
  · rw [if_pos hold, if_pos (recent_eq_nil_of_old hold)]
    constructor
    · intro _ hfresh
      exact absurd hold hfresh.not_gt
    · intro _
      refine ⟨fun _ => rfl, fun a ha => ?_⟩
      cases ha
  · rw [if_neg hold, ← sameCounts_lines_iff]
    constructor
    · rintro ⟨-, hsome⟩ _
      exact (hsome _ rfl).2
    · intro hsame
      have hcounts := hsame (not_lt.1 hold)
      constructor
      · intro hnone
        cases hnone
      · intro a ha
        obtain rfl := Option.some.inj ha
        refine ⟨?_, hcounts⟩
        split_ifs
        · exact ⟨_, rfl, SameCounts.refl _⟩
        · exact ⟨_, rfl, hcounts⟩

/-- The letters and digits of ASCII, and the underscore. -/
def asciiWordChars : WordChars where
  isWord c := c.isAlphanum || c == '_'
  blank := by decide
  newline := by decide

/-- A header of sshd. -/
def sampleHeader : LogHeader where
  text := "Jul 12 16:50:04 host sshd[7]: ".toList
  oneLine := by decide +kernel
  ends := by decide +kernel
  quiet := by decide +kernel

/-- A failed login of two days ago, and a start of sshd an hour ago. -/
def sampleHistory : SshHistory where
  events :=
    [{ time := 0, sshd := true, header := sampleHeader
       message := "Failed password for root from 192.0.2.7 port 4242 ssh2".toList
       oneLine := by decide +kernel },
      { time := 169200, sshd := true, header := sampleHeader
        message := "Server listening on 0.0.0.0 port 22.".toList
        oneLine := by decide +kernel }]
  modified := 169200
  written := by
    intro e he
    rcases List.mem_cons.1 he with rfl | he
    · norm_num
    · rw [List.mem_singleton.1 he]

/-- **A failed login of two days ago** is counted when the journal is missing. -/
theorem old_login_is_counted :
    ¬ ∀ (chars : WordChars) (h : SshHistory) (now : ℚ) (inSecure : Bool),
      SourcesAgree chars h now inSecure := by
  intro h
  have hagree := h asciiWordChars sampleHistory 172800 false
  have hfallback : (sampleHistory.fallback asciiWordChars 172800 false).map SshActivity.failed =
      some 1 := by decide +kernel
  have hjournal : (sampleHistory.withJournal asciiWordChars 172800 false).map SshActivity.failed =
      some 0 := by decide +kernel
  obtain ⟨a, ha, hfailed⟩ := Option.map_eq_some_iff.1 hfallback
  obtain ⟨⟨b, hb, hsame⟩, -⟩ := hagree.2 a ha
  rw [hb, Option.map_some, ← hsame.1, hfailed] at hjournal
  cases hjournal

end OoAgent
