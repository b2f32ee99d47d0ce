import OoAgent.Collectors.Cron.Crontab

/-!
# Printing crontabs

A job that was parsed can be printed as one line: its schedule, its user where the format has
one, and its command, with single spaces between them.  Parsing is line by line, and a
printed line gives back its job.

* `Parted` — the parts of a line, with white space between them; `splitWords_eq` — what
  `line.split(None, n)` finds.
* `jobOfLine_eq_some` — **the lines that hold a job**, in both formats.
* `printJobs` — the printed crontab.
* `crontab_lines_fixed` — **parsing is line-wise, and a fixed point of printing**.
-/

namespace OoAgent

open PyText

/-! ## Parts of a line -/

/-- A text that begins with something other than white space. -/
def Begins (s : List Char) : Prop := ∃ c t, s = c :: t ∧ isSpace c = false

/-- A word. -/
def IsWord (s : List Char) : Prop := s ≠ [] ∧ ∀ c ∈ s, isSpace c = false

/-- A line by its parts: words, and whatever is left after them, with white space between. -/
inductive Parted : List (List Char) → List Char → Prop
  | last {rest : List Char} (begins : Begins rest) : Parted [rest] rest
  | word {w gap s : List Char} {parts : List (List Char)} (isWord : IsWord w)
      (gapped : gap ≠ [] ∧ ∀ c ∈ gap, isSpace c = true) (more : Parted parts s) :
      Parted (w :: parts) (w ++ (gap ++ s))

theorem IsWord.begins {w : List Char} (h : IsWord w) (t : List Char) : Begins (w ++ t) := by
  obtain ⟨hne, hplain⟩ := h
  cases w with
  | nil => exact absurd rfl hne
  | cons c w => exact ⟨c, w ++ t, rfl, hplain c List.mem_cons_self⟩

theorem Parted.begins {parts : List (List Char)} {s : List Char} (h : Parted parts s) :
    Begins s := by
  cases h with
  | last begins => exact begins
  | word isWord _ _ => exact isWord.begins _

theorem lstrip_of_begins {s : List Char} (h : Begins s) : lstrip s = s := by
  obtain ⟨c, t, rfl, hc⟩ := h
  simp [lstrip, hc]

theorem begins_lstrip {s : List Char} (h : lstrip s ≠ []) : Begins (lstrip s) := by
  have hhead := List.head?_dropWhile_not isSpace s
  cases hs : lstrip s with
  | nil => exact absurd hs h
  | cons c t =>
    rw [lstrip] at hs
    rw [hs] at hhead
    exact ⟨c, t, rfl, by simpa using hhead⟩

/-- The word a line begins with, and the white space behind it. -/
theorem takeWhile_word {w gap s : List Char} (hw : IsWord w)
    (hgap : gap ≠ [] ∧ ∀ c ∈ gap, isSpace c = true) :
    (w ++ (gap ++ s)).takeWhile (fun c => !isSpace c) = w ∧
      (w ++ (gap ++ s)).dropWhile (fun c => !isSpace c) = gap ++ s := by
  obtain ⟨hne, hspaces⟩ := hgap
  cases gap with
  | nil => exact absurd rfl hne
  | cons c gap =>
    have hc : isSpace c = true := hspaces c List.mem_cons_self
    have hplain : ∀ d ∈ w, (!isSpace d) = true := fun d hd => by simp [hw.2 d hd]
    rw [List.takeWhile_append_of_pos hplain, List.dropWhile_append_of_pos hplain]
    simp [hc]

/-- **What `line.split(None, n)` finds**, when the line has as many parts. -/
theorem splitWords_of_parted {parts : List (List Char)} {s : List Char} (h : Parted parts s)
    {n : ℕ} (hn : parts.length = n + 1) {t : List Char} (ht : lstrip t = s) :
    splitWords n t = parts := by
  induction h generalizing n t with
  | @last rest begins =>
    obtain rfl : n = 0 := by simpa using hn.symm
    obtain ⟨c, tail, rfl, -⟩ := begins
    rw [splitWords, ht, if_neg (by simp)]
  | @word w gap s parts isWord gapped more ih =>
    have hparts : 0 < parts.length := by cases more <;> simp
    obtain ⟨m, rfl⟩ := Nat.exists_eq_add_one.2 (hparts.trans_eq (Nat.succ.inj hn))
    obtain ⟨c, tail, hline, -⟩ := isWord.begins (gap ++ s)
    obtain ⟨htake, hdrop⟩ := @takeWhile_word w gap s isWord gapped
    have hrest : lstrip (gap ++ s) = s := by
      rw [lstrip, List.dropWhile_append_of_pos gapped.2]
      exact lstrip_of_begins more.begins
    rw [splitWords, ht, if_neg (by rw [hline]; simp), htake, hdrop,
      ih (Nat.succ.inj hn) hrest]

/-- A line with that many words and a rest is parted by them. -/
theorem parted_of_splitWords {n : ℕ} {t : List Char} (h : (splitWords n t).length = n + 1) :
    Parted (splitWords n t) (lstrip t) := by
  induction n generalizing t with
  | zero =>
    by_cases hnil : lstrip t = []
    · rw [splitWords, if_pos hnil] at h
      exact absurd h (by simp)
    · rw [splitWords, if_neg hnil]
      exact .last (begins_lstrip hnil)
  | succ n ih =>
    by_cases hnil : lstrip t = []
    · rw [splitWords, if_pos hnil] at h
      exact absurd h (by simp)
    · rw [splitWords, if_neg hnil] at h ⊢
      have hmore := ih (Nat.succ.inj h)
      have hword : IsWord ((lstrip t).takeWhile fun c => !isSpace c) := by
        refine ⟨?_, fun c hc => by simpa using List.mem_takeWhile_imp hc⟩
        obtain ⟨c, tail, hline, hc⟩ := begins_lstrip hnil
        rw [hline]
        simp [hc]
      -- the rest of the line begins with the white space behind the word
      have hgap : ((lstrip t).dropWhile fun c => !isSpace c).takeWhile isSpace ≠ [] := by
        have hhead := List.head?_dropWhile_not (fun c => !isSpace c) (lstrip t)
        cases hafter : (lstrip t).dropWhile fun c => !isSpace c with
        | nil =>
          rw [hafter] at hmore
          obtain ⟨c, tail, hline, -⟩ := hmore.begins
          exact absurd hline (by simp [lstrip])
        | cons c tail =>
          rw [hafter] at hhead
          have hc : isSpace c = true := by simpa using hhead
          simp [hc]
      have hsplit := Parted.word hword
        ⟨hgap, fun c hc => by simpa using List.mem_takeWhile_imp hc⟩ hmore
      have hbehind (l : List Char) : l.takeWhile isSpace ++ lstrip l = l :=
        List.takeWhile_append_dropWhile
      rwa [hbehind, List.takeWhile_append_dropWhile] at hsplit

/-- A line begins as its first part does. -/
theorem Parted.head?_eq {w : List Char} {parts : List (List Char)} {s : List Char}
    (h : Parted (w :: parts) s) : s.head? = w.head? := by
  cases h with
  | last begins => rfl
  | word isWord gapped more =>
    obtain ⟨c, w, rfl⟩ := List.exists_cons_of_ne_nil isWord.1
    rfl

/-- A line ends as its last part does. -/
theorem Parted.getLast?_eq {before : List (List Char)} {w : List Char} {s : List Char}
    (h : Parted (before ++ [w]) s) : s.getLast? = w.getLast? := by
  generalize hparts : before ++ [w] = parts at h
  induction h generalizing before with
  | last begins =>
    cases before with
    | nil => rw [(List.cons.inj hparts).1]
    | cons p before => exact absurd hparts (by simp)
  | @word v gap s parts isWord gapped more ih =>
    cases before with
    | nil => cases more <;> exact absurd hparts (by simp)
    | cons p before =>
      obtain ⟨c, tail, hline, -⟩ := more.begins
      rw [← ih (List.cons.inj hparts).2, List.getLast?_append, List.getLast?_append, hline]
      simp [List.getLast?_cons]

theorem Parted.subset {parts : List (List Char)} {s : List Char} (h : Parted parts s) :
    ∀ part ∈ parts, part ⊆ s := by
  induction h with
  | last begins => simp
  | word isWord gapped more ih =>
    rw [List.forall_mem_cons]
    refine ⟨List.subset_append_left _ _, fun part hpart c hc => ?_⟩
    exact List.mem_append_right _ (List.mem_append_right _ (ih part hpart hc))

theorem joinSpaces_cons {w : List Char} {parts : List (List Char)} (h : parts ≠ []) :
    joinSpaces (w :: parts) = w ++ ([' '] ++ joinSpaces parts) := by
  cases parts with
  | nil => exact absurd rfl h
  | cons p parts => simp [joinSpaces, List.intercalate]

/-- The parts joined by single spaces are the parts of that line. -/
theorem Parted.joined {parts : List (List Char)} {s : List Char} (h : Parted parts s) :
    Parted parts (joinSpaces parts) := by
  induction h with
  | last begins => simpa [joinSpaces] using Parted.last begins
  | word isWord gapped more ih =>
    rw [joinSpaces_cons (by cases more <;> simp)]
    exact .word isWord ⟨by simp, by simp [isSpace]⟩ ih

theorem Parted.forall_begins {parts : List (List Char)} {s : List Char} (h : Parted parts s) :
    ∀ part ∈ parts, Begins part := by
  induction h with
  | last begins => simpa using begins
  | word isWord gapped more ih =>
    rw [List.forall_mem_cons]
    exact ⟨by simpa using isWord.begins [], ih⟩

/-- Two lines with the same parts begin with the same character. -/
theorem Parted.head?_eq_head? {parts : List (List Char)} {s t : List Char} (hs : Parted parts s)
    (ht : Parted parts t) : s.head? = t.head? := by
  cases parts with
  | nil => cases hs
  | cons w parts => rw [hs.head?_eq, ht.head?_eq]

/-- Two lines with the same parts end with the same character. -/
theorem Parted.getLast?_eq_getLast? {parts : List (List Char)} {s t : List Char}
    (hs : Parted parts s) (ht : Parted parts t) : s.getLast? = t.getLast? := by
  rcases List.eq_nil_or_concat parts with rfl | ⟨before, w, rfl⟩
  · cases hs
  · rw [List.concat_eq_append] at hs ht
    rw [hs.getLast?_eq, ht.getLast?_eq]

/-! ## Lines that hold a job -/

/-- A character of a variable's name. -/
def isNameChar (c : Char) : Bool := c.isAlphanum || c == '_'

theorem isNameChar_of_isSpace {c : Char} (hc : isSpace c = true) : isNameChar c = false := by
  have hspaces : ∀ n ∈ [9, 10, 11, 12, 13, 28, 29, 30, 31, 32, 133, 160, 5760, 8192, 8193, 8194,
      8195, 8196, 8197, 8198, 8199, 8200, 8201, 8202, 8232, 8233, 8239, 8287, 12288],
      isNameChar (Char.ofNat n) = false := by decide
  simpa using hspaces c.toNat (by simpa [isSpace] using hc)

/-- An environment line is known by its first word and what the next part begins with. -/
theorem isEnvLine_word {c : Char} {cs gap s : List Char} (hword : IsWord (c :: cs))
    (hgap : gap ≠ [] ∧ ∀ d ∈ gap, isSpace d = true) (hs : Begins s) :
    isEnvLine (c :: cs ++ (gap ++ s)) = ((c.isAlpha || c == '_') &&
      (cs.dropWhile isNameChar ++ s).head? == some '=') := by
  have hskip : (gap ++ s).dropWhile isSpace = s := by
    rw [List.dropWhile_append_of_pos hgap.2]
    exact lstrip_of_begins hs
  have hname : (fun d => d.isAlphanum || d == '_') = isNameChar := rfl
  rw [List.cons_append, isEnvLine, hname, List.dropWhile_append]
  cases hrest : cs.dropWhile isNameChar with
  | nil =>
    obtain ⟨d, gap, rfl⟩ := List.exists_cons_of_ne_nil hgap.1
    have hd : isNameChar d = false := isNameChar_of_isSpace (hgap.2 d List.mem_cons_self)
    have hstop : (d :: gap ++ s).dropWhile isNameChar = d :: gap ++ s := by simp [hd]
    rw [List.isEmpty_nil, if_pos rfl, hstop, hskip, List.nil_append]
  | cons d rest =>
    have hd : isSpace d = false := hword.2 d (List.mem_cons_of_mem _
      (List.dropWhile_subset _ (hrest ▸ List.mem_cons_self)))
    simp [hd]

/-- Two lines with the same parts, two or more of them, are environment lines together. -/
theorem Parted.isEnvLine_eq {w : List Char} {parts : List (List Char)} {s t : List Char}
    (hs : Parted (w :: parts) s) (ht : Parted (w :: parts) t) (hne : parts ≠ []) :
    isEnvLine s = isEnvLine t := by
  cases hs with
  | last => exact absurd rfl hne
  | @word _ gap s _ isWord gapped more =>
    cases ht with
    | last => exact absurd rfl hne
    | @word _ gap' t _ _ gapped' more' =>
      obtain ⟨c, cs, rfl⟩ := List.exists_cons_of_ne_nil isWord.1
      rw [isEnvLine_word isWord gapped more.begins, isEnvLine_word isWord gapped' more'.begins,
        List.head?_append, List.head?_append, more.head?_eq_head? more']

/-- The parts of a line and the job they make. -/
inductive JobParts : Option (List Char) → List (List Char) → CronJob → Prop
  | keywordSystem {schedule user command : List Char} (at_ : schedule.head? = some '@') :
      JobParts none [schedule, user, command] ⟨schedule, user, command⟩
  | keywordUser {schedule user command : List Char} (at_ : schedule.head? = some '@') :
      JobParts (some user) [schedule, command] ⟨schedule, user, command⟩
  | fieldsSystem {minute hour dom month dow user command : List Char}
      (plain : minute.head? ≠ some '@') :
      JobParts none [minute, hour, dom, month, dow, user, command]
        ⟨joinSpaces [minute, hour, dom, month, dow], user, command⟩
  | fieldsUser {minute hour dom month dow user command : List Char}
      (plain : minute.head? ≠ some '@') :
      JobParts (some user) [minute, hour, dom, month, dow, command]
        ⟨joinSpaces [minute, hour, dom, month, dow], user, command⟩

/-- The last part of a stripped line is stripped. -/
theorem strip_command {before : List (List Char)} {command s : List Char}
    (h : Parted (before ++ [command]) s) (hs : ∀ c ∈ s.getLast?, isSpace c = false) :
    strip command = command := by
  refine strip_eq_self (fun c hc => ?_) (h.getLast?_eq ▸ hs)
  obtain ⟨d, t, rfl, hd⟩ := h.forall_begins command (by simp)
  obtain rfl : d = c := by simpa using hc
  exact hd

theorem lstrip_strip (s : List Char) : lstrip (strip s) = strip s := by
  cases hs : strip s with
  | nil => rfl
  | cons c t =>
    have hc : isSpace c = false := head?_strip (s := s) c (by rw [hs]; rfl)
    simp [lstrip, hc]

/-- A stripped line in so many parts is split into them. -/
theorem splitWords_eq {n : ℕ} {raw : List Char} {parts : List (List Char)}
    (hlength : parts.length = n + 1) :
    splitWords n (strip raw) = parts ↔ Parted parts (strip raw) := by
  constructor
  · rintro rfl
    have hparted := parted_of_splitWords hlength
    rwa [lstrip_strip] at hparted
  · exact fun hparted => splitWords_of_parted hparted hlength (lstrip_strip raw)

/-- What a stripped line is split into: its parts, the last of them stripped. -/
theorem parted_of_words {n : ℕ} {raw command : List Char} {before : List (List Char)}
    (hlength : before.length = n) (hwords : splitWords n (strip raw) = before ++ [command]) :
    Parted (before ++ [command]) (strip raw) ∧ strip command = command := by
  have hparted := (splitWords_eq (by simp [hlength])).1 hwords
  exact ⟨hparted, strip_command hparted getLast?_strip⟩

/-- The parts of a line with a job. -/
theorem jobParts_of_jobOfLine {u : Option (List Char)} {raw : List Char} {job : CronJob}
    (h : jobOfLine u raw = some job) :
    ∃ parts, Parted parts (strip raw) ∧ JobParts u parts job ∧
      (strip raw).head? ≠ some '#' ∧ isEnvLine (strip raw) = false := by
  unfold jobOfLine at h
  dsimp only at h
  by_cases hskip : strip raw = [] ∨ (strip raw).head? = some '#' ∨ isEnvLine (strip raw) = true
  · rw [if_pos hskip] at h
    cases h
  rw [if_neg hskip] at h
  obtain ⟨-, hcomment, henv⟩ : strip raw ≠ [] ∧ (strip raw).head? ≠ some '#' ∧
    isEnvLine (strip raw) = false := by simpa using hskip
  suffices hparts : ∃ parts, Parted parts (strip raw) ∧ JobParts u parts job by
    obtain ⟨parts, hparted, hparts⟩ := hparts
    exact ⟨parts, hparted, hparts, hcomment, henv⟩
  by_cases hat : (strip raw).head? = some '@'
  · rw [if_pos hat] at h
    cases u with
    | none =>
      dsimp only at h
      split at h
      · rename_i schedule user command hwords
        obtain ⟨hparted, hcommand⟩ := @parted_of_words 2 raw command [schedule, user] rfl hwords
        obtain rfl := Option.some.inj h
        rw [hcommand]
        exact ⟨_, hparted, .keywordSystem (hparted.head?_eq ▸ hat)⟩
      · cases h
    | some user =>
      dsimp only at h
      split at h
      · rename_i schedule command hwords
        obtain ⟨hparted, hcommand⟩ := @parted_of_words 1 raw command [schedule] rfl hwords
        obtain rfl := Option.some.inj h
        rw [hcommand]
        exact ⟨_, hparted, .keywordUser (hparted.head?_eq ▸ hat)⟩
      · cases h
  · rw [if_neg hat] at h
    cases u with
    | none =>
      dsimp only at h
      split at h
      · rename_i minute hour dom month dow user command hwords
        obtain ⟨hparted, hcommand⟩ :=
          @parted_of_words 6 raw command [minute, hour, dom, month, dow, user] rfl hwords
        obtain rfl := Option.some.inj h
        rw [hcommand]
        exact ⟨_, hparted, .fieldsSystem (hparted.head?_eq ▸ hat)⟩
      · cases h
    | some user =>
      dsimp only at h
      split at h
      · rename_i minute hour dom month dow command hwords
        obtain ⟨hparted, hcommand⟩ :=
          @parted_of_words 5 raw command [minute, hour, dom, month, dow] rfl hwords
        obtain rfl := Option.some.inj h
        rw [hcommand]
        exact ⟨_, hparted, .fieldsUser (hparted.head?_eq ▸ hat)⟩
      · cases h

/-- The job of a line with such parts. -/
theorem jobOfLine_of_jobParts {u : Option (List Char)} {raw : List Char} {job : CronJob}
    {parts : List (List Char)} (hparted : Parted parts (strip raw)) (hparts : JobParts u parts job)
    (hcomment : (strip raw).head? ≠ some '#') (henv : isEnvLine (strip raw) = false) :
    jobOfLine u raw = some job := by
  have hne : strip raw ≠ [] := by
    obtain ⟨c, tail, hline, -⟩ := hparted.begins
    rw [hline]
    exact List.cons_ne_nil _ _
  unfold jobOfLine
  dsimp only
  rw [if_neg (by simp [hne, hcomment, henv])]
  cases hparts with
  | @keywordSystem schedule user command at_ =>
    have hcommand := @strip_command [schedule, user] command _ hparted getLast?_strip
    rw [if_pos (hparted.head?_eq ▸ at_), (@splitWords_eq 2 raw _ rfl).2 hparted]
    dsimp only
    rw [hcommand]
  | @keywordUser schedule user command at_ =>
    have hcommand := @strip_command [schedule] command _ hparted getLast?_strip
    rw [if_pos (hparted.head?_eq ▸ at_), (@splitWords_eq 1 raw _ rfl).2 hparted]
    dsimp only
    rw [hcommand]
  | @fieldsSystem minute hour dom month dow user command plain =>
    have hcommand :=
      @strip_command [minute, hour, dom, month, dow, user] command _ hparted getLast?_strip
    rw [if_neg (hparted.head?_eq ▸ plain), (@splitWords_eq 6 raw _ rfl).2 hparted]
    dsimp only
    rw [hcommand]
  | @fieldsUser minute hour dom month dow user command plain =>
    have hcommand :=
      @strip_command [minute, hour, dom, month, dow] command _ hparted getLast?_strip
    rw [if_neg (hparted.head?_eq ▸ plain), (@splitWords_eq 5 raw _ rfl).2 hparted]
    dsimp only
    rw [hcommand]

/-- **The lines that hold a job**, in both formats. -/
theorem jobOfLine_eq_some {u : Option (List Char)} {raw : List Char} {job : CronJob} :
    jobOfLine u raw = some job ↔ ∃ parts, Parted parts (strip raw) ∧ JobParts u parts job ∧
      (strip raw).head? ≠ some '#' ∧ isEnvLine (strip raw) = false := by
  constructor
  · exact jobParts_of_jobOfLine
  · rintro ⟨parts, hparted, hparts, hcomment, henv⟩
    exact jobOfLine_of_jobParts hparted hparts hcomment henv

/-! ## Printing -/

/-- The parts a job is printed with. -/
def printParts (defaultUser : Option (List Char)) (job : CronJob) : List (List Char) :=
  match defaultUser with
  | none => [job.schedule, job.user, job.command]
  | some _ => [job.schedule, job.command]

/-- The line of a job: its schedule, its user in the system format, and its command. -/
def printJob (defaultUser : Option (List Char)) (job : CronJob) : List Char :=
  joinSpaces (printParts defaultUser job)

/-- The crontab of a list of jobs, a line each. -/
def printJobs (defaultUser : Option (List Char)) (jobs : List CronJob) : List Char :=
  ['\n'].intercalate (jobs.map (printJob defaultUser))

/-- The line of a job joins the parts the job was made of. -/
theorem JobParts.printJob_eq {u : Option (List Char)} {parts : List (List Char)} {job : CronJob}
    (h : JobParts u parts job) : printJob u job = joinSpaces parts := by
  cases h <;> simp [printJob, printParts, joinSpaces, List.intercalate]

theorem JobParts.two_le {u : Option (List Char)} {parts : List (List Char)} {job : CronJob}
    (h : JobParts u parts job) : ∃ w p more, parts = w :: p :: more := by
  cases h <;> exact ⟨_, _, _, rfl⟩

/-- **A printed job is read back.** -/
theorem jobOfLine_printJob {u : Option (List Char)} {raw : List Char} {job : CronJob}
    (h : jobOfLine u raw = some job) : jobOfLine u (printJob u job) = some job := by
  obtain ⟨parts, hparted, hparts, hcomment, henv⟩ := jobOfLine_eq_some.1 h
  have hjoined := hparted.joined
  have hstrip : strip (joinSpaces parts) = joinSpaces parts := by
    obtain ⟨c, tail, hline, hc⟩ := hjoined.begins
    refine strip_eq_self (fun d hd => ?_) ?_
    · obtain rfl : c = d := by simpa [hline] using hd
      exact hc
    · rw [hjoined.getLast?_eq_getLast? hparted]
      exact getLast?_strip
  rw [hparts.printJob_eq]
  refine jobOfLine_eq_some.2 ⟨parts, hstrip.symm ▸ hjoined, hparts, ?_, ?_⟩
  · rwa [hstrip, hjoined.head?_eq_head? hparted]
  · obtain ⟨w, p, more, rfl⟩ := hparts.two_le
    rwa [hstrip, hjoined.isEnvLine_eq hparted (by simp)]

/-- A printed job is a line: it is not empty, and no end of a line is in it. -/
theorem printJob_line {u : Option (List Char)} {raw : List Char} {job : CronJob}
    (h : jobOfLine u raw = some job) (hraw : ∀ c ∈ raw, isLineEnd c = false) :
    printJob u job ≠ [] ∧ ∀ c ∈ printJob u job, isLineEnd c = false := by
  obtain ⟨parts, hparted, hparts, -⟩ := jobOfLine_eq_some.1 h
  rw [hparts.printJob_eq]
  constructor
  · obtain ⟨c, tail, hline, -⟩ := hparted.joined.begins
    rw [hline]
    exact List.cons_ne_nil _ _
  · intro c hc
    rcases mem_intercalate hc with rfl | ⟨part, hpart, hc⟩
    · decide
    · exact hraw c (strip_subset raw (hparted.subset part hpart hc))

/-! ## Lines -/

/-- No line of a text has an end of a line in it. -/
theorem not_isLineEnd_of_mem_linesFrom {line text : List Char}
    (hline : ∀ c ∈ line, isLineEnd c = false) :
    ∀ l ∈ linesFrom line text, ∀ c ∈ l, isLineEnd c = false := by
  fun_induction linesFrom line text with
  | case1 => simp
  | case2 line hne => simpa using hline
  | case3 line cs ih => exact List.forall_mem_cons.2 ⟨hline, ih (by simp)⟩
  | case4 line c cs hcrlf hend ih => exact List.forall_mem_cons.2 ⟨hline, ih (by simp)⟩
  | case5 line c cs hcrlf hend ih =>
    refine ih fun d hd => ?_
    rcases List.mem_append.1 hd with hd | hd
    · exact hline d hd
    · obtain rfl := List.mem_singleton.1 hd
      simpa using hend

theorem linesFrom_cons {line cs : List Char} {c : Char}
    (hcrlf : ∀ tail, c = '\r' → cs ≠ '\n' :: tail) :
    linesFrom line (c :: cs) =
      if isLineEnd c then line :: linesFrom [] cs else linesFrom (line ++ [c]) cs := by
  rw [linesFrom]
  exact hcrlf

/-- A text without an end of a line is one line. -/
theorem linesFrom_line {line text : List Char} (htext : ∀ c ∈ text, isLineEnd c = false)
    (hne : line ++ text ≠ []) : linesFrom line text = [line ++ text] := by
  induction text generalizing line with
  | nil =>
    rw [List.append_nil] at hne ⊢
    rw [linesFrom, if_neg hne]
  | cons c cs ih =>
    obtain ⟨hc, hcs⟩ := List.forall_mem_cons.1 htext
    have hreturn : c ≠ '\r' := by
      rintro rfl
      exact absurd hc (by decide)
    rw [linesFrom_cons fun _ h => absurd h hreturn, if_neg (by simp [hc]), ih hcs (by simp)]
    simp

/-- **Lines come one after the other**, but for lines that hold nothing. -/
theorem filterMap_linesFrom {α : Type*} {f : List Char → Option α} (hnil : f [] = none)
    (line a b : List Char) :
    (linesFrom line (a ++ '\n' :: b)).filterMap f =
      (linesFrom line a).filterMap f ++ (splitlines b).filterMap f := by
  have hbreak (line : List Char) :
      linesFrom line ('\n' :: b) = line :: splitlines b := by
    rw [linesFrom_cons fun _ h => absurd h (by decide), if_pos (by decide), splitlines]
  have hkeeps {c : Char} {cs : List Char} (hcrlf : ∀ tail, c = '\r' → cs = '\n' :: tail → False)
      (hreturn : ¬ (c = '\r' ∧ cs = [])) (tail : List Char) (hc : c = '\r') :
      cs ++ '\n' :: b ≠ '\n' :: tail := by
    cases cs with
    | nil => exact absurd ⟨hc, rfl⟩ hreturn
    | cons d cs =>
      intro h
      exact hcrlf cs hc (by rw [(List.cons.inj h).1])
  fun_induction linesFrom line a with
  | case1 => rw [List.nil_append, hbreak, List.filterMap_cons_none hnil]; rfl
  | case2 line hne =>
    rw [List.nil_append, hbreak, ← List.filterMap_append]
    rfl
  | case3 line cs ih =>
    rw [List.cons_append, List.cons_append, linesFrom, List.filterMap_cons, ih]
    rw [List.filterMap_cons]
    cases f line <;> simp
  | case4 line c cs hcrlf hend ih =>
    rw [List.filterMap_cons]
    by_cases hreturn : c = '\r' ∧ cs = []
    · -- the newline ends the line that the carriage return has ended
      obtain ⟨rfl, rfl⟩ := hreturn
      have hboth : linesFrom line ('\r' :: '\n' :: b) = line :: splitlines b := by
        rw [linesFrom, splitlines]
      rw [List.cons_append, List.nil_append, hboth, List.filterMap_cons]
      cases f line <;> simp [linesFrom]
    · rw [List.cons_append, linesFrom_cons (hkeeps hcrlf hreturn), if_pos hend,
        List.filterMap_cons, ih]
      cases f line <;> simp
  | case5 line c cs hcrlf hend ih =>
    have hreturn : ¬ (c = '\r' ∧ cs = []) := by
      rintro ⟨rfl, -⟩
      exact hend (by decide)
    rw [List.cons_append, linesFrom_cons (hkeeps hcrlf hreturn), if_neg hend, ih]

/-- **Parsing is line-wise.** -/
theorem parseCrontab_append_newline (u : Option (List Char)) (a b : List Char) :
    parseCrontab u (a ++ '\n' :: b) = parseCrontab u a ++ parseCrontab u b :=
  filterMap_linesFrom (by simp [jobOfLine, strip, lstrip, rstrip]) [] a b

/-- A crontab of one line. -/
theorem parseCrontab_line {u : Option (List Char)} {line : List Char} (hne : line ≠ [])
    (hline : ∀ c ∈ line, isLineEnd c = false) :
    parseCrontab u line = (jobOfLine u line).toList := by
  rw [parseCrontab, splitlines, @linesFrom_line [] line hline hne, List.nil_append]
  cases hjob : jobOfLine u line <;> simp [hjob]

/-- **Printed jobs are read back**, each from its own line. -/
theorem parseCrontab_printJobs {u : Option (List Char)} {jobs : List CronJob}
    (h : ∀ job ∈ jobs, ∃ raw, jobOfLine u raw = some job ∧ ∀ c ∈ raw, isLineEnd c = false) :
    parseCrontab u (printJobs u jobs) = jobs := by
  induction jobs with
  | nil => rfl
  | cons job jobs ih =>
    obtain ⟨⟨raw, hraw, hline⟩, hjobs⟩ := List.forall_mem_cons.1 h
    obtain ⟨hne, hplain⟩ := printJob_line hraw hline
    have hfirst : parseCrontab u (printJob u job) = [job] := by
      rw [parseCrontab_line hne hplain, jobOfLine_printJob hraw]
      rfl
    cases jobs with
    | nil => simpa [printJobs, List.intercalate] using hfirst
    | cons next jobs =>
      have hprint : printJobs u (job :: next :: jobs) =
          printJob u job ++ '\n' :: printJobs u (next :: jobs) := by
        simp [printJobs, List.intercalate]
      rw [hprint, parseCrontab_append_newline, hfirst, ih hjobs, List.singleton_append]

/-- **Parsing a crontab is line-wise, and a fixed point of printing**, in both formats. -/
theorem crontab_lines_fixed (u : Option (List Char)) (a b text : List Char) :
    parseCrontab u (a ++ '\n' :: b) = parseCrontab u a ++ parseCrontab u b ∧
      parseCrontab u (printJobs u (parseCrontab u text)) = parseCrontab u text := by
  refine ⟨parseCrontab_append_newline u a b, parseCrontab_printJobs fun job hjob => ?_⟩
  obtain ⟨raw, hraw, hjob⟩ := List.mem_filterMap.1 hjob
  exact ⟨raw, hjob, not_isLineEnd_of_mem_linesFrom (by simp) raw hraw⟩

end OoAgent
