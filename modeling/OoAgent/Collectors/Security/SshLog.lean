import OoAgent.Collectors.Cron.Timers
import OoAgent.Lib.Dict

/-!
# SSH activity in a log

`_ssh_log_lines_24h` takes the lines from the journal or from a log file; `ssh_activity_24h`
counts failed and accepted logins in them.

* `WordChars`, `fromIp` — `_FROM_IP.search(line)`.
* `SshActivity`, `sshActivity` — the counting loop; `sshActivity_eq` — **what it counts**.
* `SshHost`, `sshLogLines` — where the lines come from.
* `isFailedSsh_line`, `isAcceptedSsh_line`, `fromIp_line` — **a line of a log file** counts like
  the message in it.
-/

namespace OoAgent

open PyText

/-! ## Patterns -/

/-- The characters of `\w`: all digits and letters of Unicode, and the underscore. -/
structure WordChars where
  isWord : Char → Bool
  blank : isWord ' ' = false
  newline : isWord '\n' = false

/-- `re.search` for a word. -/
def containsWord (word line : List Char) : Bool := word <:+: line

/-- `_FAILED_SSH.search(line)`. -/
def isFailedSsh (line : List Char) : Bool :=
  containsWord "Failed password".toList line || containsWord "Invalid user".toList line

/-- `_ACCEPTED_SSH.search(line)`. -/
def isAcceptedSsh (line : List Char) : Bool := containsWord "Accepted ".toList line

/-- The digits at the beginning of a text. -/
def digitsOf (s : List Char) : List Char := s.takeWhile fun c => (decimal c).isSome

/-- `\d{1,3}(?:\.\d{1,3}){n}\b`: the text that matches.  Only whole runs of digits can. -/
def matchOctets (chars : WordChars) : ℕ → List Char → Option (List Char)
  | 0, s =>
    let digits := digitsOf s
    let ends := (s.drop digits.length).head?.all fun c => !chars.isWord c
    if digits ≠ [] ∧ digits.length ≤ 3 ∧ ends = true then some digits else none
  | n + 1, s =>
    let digits := digitsOf s
    if digits ≠ [] ∧ digits.length ≤ 3 ∧ (s.drop digits.length).head? = some '.' then
      (matchOctets chars n (s.drop (digits.length + 1))).map fun rest => digits ++ '.' :: rest
    else none

/-- `from `. -/
def fromWord : List Char := "from ".toList

/-- `_FROM_IP` at one place, behind the character `before`. -/
def matchFromIp (chars : WordChars) (before : Option Char) (s : List Char) : Option (List Char) :=
  if (before.all fun c => !chars.isWord c) ∧ fromWord <+: s then
    matchOctets chars 3 (s.drop 5)
  else none

/-- The first match of `_FROM_IP` in a text that stands behind the character `before`. -/
def searchFromIp (chars : WordChars) : Option Char → List Char → Option (List Char)
  | _, [] => none
  | before, c :: cs => (matchFromIp chars before (c :: cs)).or (searchFromIp chars (some c) cs)

/-- `_FROM_IP.search(line)`, its group. -/
def fromIp (chars : WordChars) (line : List Char) : Option (List Char) :=
  searchFromIp chars none line

/-! ## The counting loop -/

/-- The counters of `ssh_activity_24h`. -/
structure SshActivity where
  failed : ℕ
  failedIps : Dict (List Char) ℕ
  okIps : Dict (List Char) ℕ
  deriving DecidableEq

/-- `counter[ip] = counter.get(ip, 0) + 1`. -/
def bump (counter : Dict (List Char) ℕ) (ip : List Char) : Dict (List Char) ℕ :=
  counter.set ip ((counter.get ip).getD 0 + 1)

/-- The body of the loop of `ssh_activity_24h`. -/
def activityStep (chars : WordChars) (a : SshActivity) (line : List Char) : SshActivity :=
  if isFailedSsh line then
    { a with
      failed := a.failed + 1
      failedIps := (fromIp chars line).elim a.failedIps (bump a.failedIps) }
  else if isAcceptedSsh line then
    { a with okIps := (fromIp chars line).elim a.okIps (bump a.okIps) }
  else a

/-- The loop of `ssh_activity_24h`. -/
def sshActivity (chars : WordChars) (lines : List (List Char)) : SshActivity :=
  lines.foldl (activityStep chars) { failed := 0, failedIps := [], okIps := [] }

/-- `_top_sources`. -/
def topSources (counter : Dict (List Char) ℕ) : List (List Char × ℕ) :=
  (counter.insertionSort fun a b => b.2 ≤ a.2).take 10

/-- The report of `ssh_activity_24h`. -/
structure SshReport where
  failed24h : ℕ
  failedSources : List (List Char × ℕ)
  acceptedSources : List (List Char × ℕ)

/-- What `ssh_activity_24h` returns of its counters. -/
def SshActivity.report (a : SshActivity) : SshReport :=
  { failed24h := a.failed, failedSources := topSources a.failedIps,
    acceptedSources := topSources a.okIps }

/-! ## Where the lines come from -/

/-- A log file. -/
structure LogFile where
  /-- `os.stat(path).st_mtime`. -/
  modified : ℚ
  /-- What `fh.read()` would give; `none` when the file cannot be opened. -/
  content : Option (List Char)

/-- The calls of `_ssh_log_lines_24h`. -/
structure SshHost where
  windows : Bool
  /-- What `_cmd_output` returns for the `journalctl` command; empty when it fails. -/
  journal : List Char
  /-- `/var/log/auth.log`; `none` when `os.stat` fails. -/
  authLog : Option LogFile
  /-- `/var/log/secure`. -/
  secure : Option LogFile
  /-- `time.time()`. -/
  now : ℚ

/-- The lines of a text with their ends, the first of which has begun with `line`. -/
def readLinesFrom (line : List Char) : List Char → List (List Char)
  | [] => if line = [] then [] else [line]
  | c :: cs =>
    if c = '\n' then (line ++ [c]) :: readLinesFrom [] cs else readLinesFrom (line ++ [c]) cs

/-- `fh.readlines()`. -/
def readlines (content : List Char) : List (List Char) :=
  readLinesFrom [] (translateNewlines content)

/-- The lines of a log file that is not too old and can be opened. -/
def logFileLines (now : ℚ) (file : Option LogFile) : Option (List (List Char)) := do
  let file ← file
  if file.modified < now - 86400 then none else file.content.map readlines

/-- `_ssh_log_lines_24h`. -/
def sshLogLines (host : SshHost) : Option (List (List Char)) :=
  if host.windows then none
  else if host.journal ≠ [] then some (splitlines host.journal)
  else (logFileLines host.now host.authLog).or (logFileLines host.now host.secure)

/-- The counters of `ssh_activity_24h`; `none` without a log. -/
def sshActivity24h (chars : WordChars) (host : SshHost) : Option SshActivity :=
  (sshLogLines host).map (sshActivity chars)

/-- `ssh_activity_24h`. -/
def sshReport24h (chars : WordChars) (host : SshHost) : Option SshReport :=
  (sshActivity24h chars host).map SshActivity.report

/-! ## What is counted -/

/-- A count in a `dict` that holds none of 0. -/
def countEntry (n : ℕ) : Option ℕ := if n = 0 then none else some n

theorem countEntry_inj {n m : ℕ} : countEntry n = countEntry m ↔ n = m := by
  unfold countEntry
  split_ifs with hn hm hm
  · simp [hn, hm]
  · simp [hn, Ne.symm hm]
  · simp [hm, hn]
  · exact Option.some_inj

theorem get_bump {counter : Dict (List Char) ℕ} {ip ip' : List Char} {n : ℕ}
    (h : counter.get ip' = countEntry n) :
    (bump counter ip).get ip' = countEntry (n + if ip = ip' then 1 else 0) := by
  unfold bump
  rw [Dict.get_set]
  split_ifs with heq
  · subst heq
    rw [h]
    unfold countEntry
    split_ifs with hn <;> simp_all
  · exact h

theorem get_elim_bump {counter : Dict (List Char) ℕ} (found : Option (List Char)) {ip : List Char}
    {n : ℕ} (h : counter.get ip = countEntry n) :
    (found.elim counter (bump counter)).get ip =
      countEntry (n + if found = some ip then 1 else 0) := by
  cases found with
  | none => simpa using h
  | some ip' =>
    rw [Option.elim_some, get_bump h]
    simp

section

variable {chars : WordChars}

/-- The line is a failed login from the address. -/
def isFailedFrom (chars : WordChars) (ip line : List Char) : Bool :=
  isFailedSsh line && decide (fromIp chars line = some ip)

/-- The line is an accepted login from the address. -/
def isAcceptedFrom (chars : WordChars) (ip line : List Char) : Bool :=
  !isFailedSsh line && isAcceptedSsh line && decide (fromIp chars line = some ip)

/-- **What the loop counts**: failed logins, and those of either kind from each address. -/
theorem sshActivity_eq (lines : List (List Char)) :
    (sshActivity chars lines).failed = lines.countP isFailedSsh ∧
    (∀ ip, (sshActivity chars lines).failedIps.get ip =
      countEntry (lines.countP (isFailedFrom chars ip))) ∧
    ∀ ip, (sshActivity chars lines).okIps.get ip =
      countEntry (lines.countP (isAcceptedFrom chars ip)) := by
  induction lines using List.reverseRecOn with
  | nil => exact ⟨rfl, fun ip => rfl, fun ip => rfl⟩
  | append_singleton lines line ih =>
    obtain ⟨hfailed, hfailedIps, hokIps⟩ := ih
    have hstep : sshActivity chars (lines ++ [line]) =
        activityStep chars (sshActivity chars lines) line := by
      rw [sshActivity, List.foldl_append]
      rfl
    rw [hstep]
    unfold activityStep
    simp only [List.countP_append, List.countP_singleton]
    by_cases hline : isFailedSsh line = true
    · rw [if_pos hline]
      refine ⟨by simp [hfailed, hline], fun ip => ?_, fun ip => ?_⟩
      · rw [get_elim_bump _ (hfailedIps ip)]
        simp [isFailedFrom, hline]
      · simp [hokIps ip, isAcceptedFrom, hline]
    · rw [if_neg hline]
      by_cases haccepted : isAcceptedSsh line = true
      · rw [if_pos haccepted]
        refine ⟨by simp [hfailed, hline], fun ip => ?_, fun ip => ?_⟩
        · simp [hfailedIps ip, isFailedFrom, hline]
        · rw [get_elim_bump _ (hokIps ip)]
          simp [isAcceptedFrom, hline, haccepted]
      · rw [if_neg haccepted]
        refine ⟨by simp [hfailed, hline], fun ip => ?_, fun ip => ?_⟩
        · simp [hfailedIps ip, isFailedFrom, hline]
        · simp [hokIps ip, isAcceptedFrom, haccepted]

/-! ## A message in a line of a log file -/

/-- The text in front of a message: it ends in a colon and a blank, and holds none of the words
that are searched for. -/
structure LogHeader where
  text : List Char
  oneLine : OneLine text
  ends : [':', ' '] <:+ text
  quiet : ∀ word ∈ ["Failed password".toList, "Invalid user".toList, "Accepted ".toList, fromWord],
    ¬ word <:+: text

/-- A word of a message, not of the signs that end a header or a line. -/
def IsPlainWord (word : List Char) : Prop :=
  word ≠ [] ∧ ':' ∉ word ∧ '\n' ∉ word ∧ word.head? ≠ some ' '

instance decidableIsPlainWord (word : List Char) : Decidable (IsPlainWord word) :=
  inferInstanceAs (Decidable (_ ∧ _ ∧ _ ∧ _))

/-- A word that is not in a header does not begin there either. -/
theorem LogHeader.not_prefix (header : LogHeader) {word t s : List Char}
    (hword : IsPlainWord word) (hquiet : ¬ word <:+: header.text) (ht : t <:+ header.text)
    (hne : t ≠ []) : ¬ word <+: t ++ s := by
  obtain ⟨-, hcolon, -, hhead⟩ := hword
  intro h
  rcases List.prefix_or_prefix_of_prefix h (List.prefix_append t s) with hin | hbegins
  · exact hquiet (hin.isInfix.trans ht.isInfix)
  · have hmem : ':' ∉ t := fun hmem => hcolon (hbegins.subset hmem)
    rcases List.suffix_or_suffix_of_suffix header.ends ht with hends | hshort
    · exact hmem (hends.subset List.mem_cons_self)
    · obtain ⟨before, hbefore⟩ := hshort
      cases before with
      | nil =>
        rw [List.nil_append] at hbefore
        exact hmem (hbefore ▸ List.mem_cons_self)
      | cons c before =>
        have hrest := (List.cons.inj hbefore).2
        cases before with
        | nil =>
          have ht' : t = [' '] := hrest
          rw [ht'] at hbegins
          obtain ⟨after, rfl⟩ := hbegins
          exact hhead rfl
        | cons d before =>
          have hnil := (List.append_eq_nil_iff.1 (List.cons.inj hrest).2).2
          exact hne hnil

/-- A word that does not begin in a text in front is searched behind it. -/
theorem infix_append_of_not_prefix {word before s : List Char}
    (h : ∀ t, t ≠ [] → t <:+ before → ¬ word <+: t ++ s) :
    word <:+: before ++ s ↔ word <:+: s := by
  induction before with
  | nil => rfl
  | cons c before ih =>
    have hrest := ih fun t hne ht => h t hne (ht.trans (List.suffix_cons c before))
    rw [List.cons_append, List.infix_cons_iff, hrest]
    exact or_iff_right (h (c :: before) (List.cons_ne_nil c before) List.suffix_rfl)

/-- A newline behind a text is part of no word. -/
theorem infix_newline {word s : List Char} (hword : IsPlainWord word) :
    word <:+: s ++ ['\n'] ↔ word <:+: s := by
  obtain ⟨hne, -, hnewline, -⟩ := hword
  rw [List.infix_concat_iff]
  refine or_iff_right fun h => ?_
  obtain ⟨before, hbefore⟩ := h
  have hlast := congrArg List.getLast? hbefore
  rw [List.getLast?_append_of_ne_nil before hne, List.getLast?_concat] at hlast
  exact hnewline (List.mem_of_getLast? hlast)

/-- The line of a message in a log file. -/
def LogHeader.line (header : LogHeader) (message : List Char) : List Char :=
  header.text ++ message ++ ['\n']

/-- **A word is found in a line** exactly when it is in the message. -/
theorem LogHeader.containsWord_line (header : LogHeader) {word : List Char}
    (hword : IsPlainWord word) (hquiet : ¬ word <:+: header.text) (message : List Char) :
    containsWord word (header.line message) = containsWord word message := by
  have hframed : word <:+: header.line message ↔ word <:+: message := by
    rw [line, infix_newline hword]
    exact infix_append_of_not_prefix fun t hne ht => header.not_prefix hword hquiet ht hne
  unfold containsWord
  exact decide_eq_decide.2 hframed

/-! ## Addresses in a line -/

theorem digitsOf_newline (s : List Char) : digitsOf (s ++ ['\n']) = digitsOf s := by
  have hnewline : (decimal '\n').isSome = false := by decide +kernel
  unfold digitsOf
  induction s with
  | nil => simp [hnewline]
  | cons c s ih =>
    rw [List.cons_append, List.takeWhile_cons, List.takeWhile_cons, ih]

theorem drop_digitsOf_newline (s : List Char) :
    (s ++ ['\n']).drop (digitsOf s).length = s.drop (digitsOf s).length ++ ['\n'] := by
  refine List.drop_append_of_le_length ?_
  exact (List.takeWhile_prefix _).length_le

/-- An address ends before a newline as at the end of the text. -/
theorem matchOctets_newline (n : ℕ) (s : List Char) :
    matchOctets chars n (s ++ ['\n']) = matchOctets chars n s := by
  induction n generalizing s with
  | zero =>
    rw [matchOctets, matchOctets, digitsOf_newline, drop_digitsOf_newline]
    have hends : ((s.drop (digitsOf s).length ++ ['\n']).head?.all fun c => !chars.isWord c) =
        (s.drop (digitsOf s).length).head?.all fun c => !chars.isWord c := by
      cases s.drop (digitsOf s).length with
      | nil => simp [chars.newline]
      | cons c rest => rfl
    rw [hends]
  | succ n ih =>
    rw [matchOctets, matchOctets, digitsOf_newline, drop_digitsOf_newline]
    have hhead : (s.drop (digitsOf s).length ++ ['\n']).head? = some '.' ↔
        (s.drop (digitsOf s).length).head? = some '.' := by
      cases s.drop (digitsOf s).length with
      | nil => simp
      | cons c rest => rfl
    simp only [hhead]
    split_ifs with hmatch
    · have hlt : (digitsOf s).length + 1 ≤ s.length := by
        by_contra hge
        rw [List.drop_eq_nil_of_le (by omega)] at hmatch
        cases hmatch.2.2
      rw [List.drop_append_of_le_length hlt, ih]
    · rfl

theorem isPlainWord_fromWord : IsPlainWord fromWord := by decide +kernel

theorem fromWord_prefix_newline {s : List Char} : fromWord <+: s ++ ['\n'] ↔ fromWord <+: s := by
  rw [List.prefix_concat_iff]
  refine or_iff_right fun h => ?_
  refine isPlainWord_fromWord.2.2.1 ?_
  rw [h]
  exact List.mem_append_right _ List.mem_cons_self

theorem matchFromIp_newline (before : Option Char) (s : List Char) :
    matchFromIp chars before (s ++ ['\n']) = matchFromIp chars before s := by
  unfold matchFromIp
  simp only [fromWord_prefix_newline]
  split_ifs with h
  · have hlength : fromWord.length = 5 := by decide +kernel
    have hle := h.2.length_le
    rw [hlength] at hle
    rw [List.drop_append_of_le_length hle, matchOctets_newline]
  · rfl

theorem searchFromIp_newline (before : Option Char) (s : List Char) :
    searchFromIp chars before (s ++ ['\n']) = searchFromIp chars before s := by
  induction s generalizing before with
  | nil =>
    have hnot : ¬ fromWord <+: ['\n'] := by decide +kernel
    show (matchFromIp chars before ['\n']).or none = none
    rw [Option.or_none, matchFromIp, if_neg fun h => hnot h.2]
  | cons c s ih =>
    rw [List.cons_append, searchFromIp, searchFromIp, ih, ← List.cons_append, matchFromIp_newline]

/-- A text in front in which no match begins is passed over. -/
theorem searchFromIp_append {text s : List Char} (before : Option Char)
    (h : ∀ t, t ≠ [] → t <:+ text → ¬ fromWord <+: t ++ s) :
    searchFromIp chars before (text ++ s) = searchFromIp chars (text.getLast?.or before) s := by
  induction text generalizing before with
  | nil => rfl
  | cons c text ih =>
    have hhead := h (c :: text) (List.cons_ne_nil c text) List.suffix_rfl
    have hnone : matchFromIp chars before (c :: (text ++ s)) = none :=
      if_neg fun hmatch => hhead hmatch.2
    rw [List.cons_append, searchFromIp, hnone, Option.none_or,
      ih (some c) fun t hne ht => h t hne (ht.trans (List.suffix_cons c text)), List.getLast?_cons]
    cases text.getLast? <;> rfl

/-- **The address in a line** is that in the message. -/
theorem LogHeader.fromIp_line (header : LogHeader) (message : List Char) :
    fromIp chars (header.line message) = fromIp chars message := by
  have hquiet : ¬ fromWord <:+: header.text := header.quiet fromWord (by simp)
  have hlast : header.text.getLast? = some ' ' := by
    obtain ⟨rest, hrest⟩ := header.ends
    rw [← hrest, List.getLast?_append_of_ne_nil rest (by simp)]
    rfl
  have hpass := @searchFromIp_append chars header.text message none
    fun t hne ht => header.not_prefix isPlainWord_fromWord hquiet ht hne
  rw [fromIp, line, searchFromIp_newline, hpass, hlast, Option.some_or, fromIp]
  cases message with
  | nil => rfl
  | cons c message =>
    have hblank : (Option.all (fun c => !chars.isWord c) (some ' ')) = true := by
      simp [chars.blank]
    rw [searchFromIp, searchFromIp]
    unfold matchFromIp
    rw [hblank]
    rfl

/-- A line is a failed login when the message is. -/
theorem LogHeader.isFailedSsh_line (header : LogHeader) (message : List Char) :
    isFailedSsh (header.line message) = isFailedSsh message := by
  have hwords : ∀ word ∈ ["Failed password".toList, "Invalid user".toList], IsPlainWord word := by
    decide +kernel
  unfold isFailedSsh
  rw [header.containsWord_line (hwords _ (by simp)) (header.quiet _ (by simp)),
    header.containsWord_line (hwords _ (by simp)) (header.quiet _ (by simp))]

/-- A line is an accepted login when the message is. -/
theorem LogHeader.isAcceptedSsh_line (header : LogHeader) (message : List Char) :
    isAcceptedSsh (header.line message) = isAcceptedSsh message := by
  have hword : IsPlainWord "Accepted ".toList := by decide +kernel
  unfold isAcceptedSsh
  rw [header.containsWord_line hword (header.quiet _ (by simp))]

end

end OoAgent
