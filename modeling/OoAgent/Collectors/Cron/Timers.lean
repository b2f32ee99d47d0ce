import OoAgent.Collectors.Cron.Printing
import OoAgent.Lib.Dict
import OoAgent.Lib.Scan

/-!
# Timer schedules

`systemctl show` prints a block of `key=value` lines for each unit, with blank lines between
the blocks.  A property name repeats when a unit has several specs of one kind, and a
dictionary has one value for it.

* `parseShowBlocks`, `timerSchedule` — `parse_show_blocks` and `_timer_schedule`.
* `ShowUnit`, `showText` — what `systemctl` prints; `parseShowBlocks_showText` — the blocks
  of a printed text.
* `timerSchedule_blockOf` — the schedule of a block has the last spec of each kind.
* `timer_specs_iff` — **a schedule lists all specs** exactly of the units with at most one of
  each kind, whose trigger `_TIMER_SPEC` knows.
-/

namespace OoAgent

open PyText Scan

/-! ## Blocks -/

/-- The properties of a unit. -/
abbrev Info := Dict (List Char) (List Char)

/-- A line of `systemctl show`, split at its first `=`. -/
def setLine (current : Info) (line : List Char) : Info :=
  if '=' ∈ line then current.set (splitOnce '=' line).1 (splitOnce '=' line).2 else current

/-- The loop of `parse_show_blocks` over the lines. -/
def blocksFrom (current : Info) : List (List Char) → List Info
  | [] => if current = [] then [] else [current]
  | line :: lines =>
    if strip line = [] then
      if current = [] then blocksFrom [] lines else current :: blocksFrom [] lines
    else blocksFrom (setLine current line) lines

/-- `parse_show_blocks`. -/
def parseShowBlocks (text : List Char) : List Info := blocksFrom [] (splitlines text)

/-! ## Schedules -/

/-- The triggers of `_TIMER_SPEC`. -/
def timerTriggers : List (List Char) :=
  ["OnCalendar", "OnUnitActiveSec", "OnUnitInactiveSec", "OnBootSec", "OnStartupSec",
    "OnActiveSec"].map String.toList

/-- `[^;}]`. -/
def isSpecChar (c : Char) : Bool := c != ';' && c != '}'

/-- `_TIMER_SPEC` at the start of a text: the trigger and its value, and how much matches. -/
def timerSpec (s : List Char) : Option ((List Char × List Char) × ℕ) :=
  match timerTriggers.find? fun trigger => (trigger ++ ['=']).isPrefixOf s with
  | none => none
  | some trigger =>
    let value := (s.drop (trigger.length + 1)).takeWhile isSpecChar
    if value = [] then none else some ((trigger, value), trigger.length + 1 + value.length)

/-- The specs of one property. -/
def specsOf (value : List Char) : List (List Char) :=
  (scan timerSpec value).map fun spec => spec.1 ++ '=' :: strip spec.2

/-- `_timer_schedule`. -/
def timerSchedule (info : Info) : List Char :=
  "; ".toList.intercalate
    (["TimersCalendar".toList, "TimersMonotonic".toList].flatMap fun property =>
      specsOf ((info.get property).getD []))

/-! ## What `systemctl show` prints -/

/-- No character of a text ends a line. -/
def OneLine (s : List Char) : Prop := ∀ c ∈ s, isLineEnd c = false

instance (s : List Char) : Decidable (OneLine s) :=
  decidable_of_iff ((s.all fun c => !isLineEnd c) = true) (by simp [OneLine])

/-- The value of a trigger. -/
structure Spec where
  text : List Char
  nonempty : text ≠ []
  stripped : strip text = text
  plain : text.all isSpecChar = true ∧ '=' ∉ text
  oneLine : OneLine text

/-- When a trigger elapses next. -/
structure Elapse where
  text : List Char
  plain : '=' ∉ text
  oneLine : OneLine text

/-- What a monotonic timer counts from. -/
inductive TimerBase
  | active | boot | startup | unitActive | unitInactive
deriving DecidableEq

/-- The name of a monotonic trigger, which ends in `Sec` or in `USec`. -/
def TimerBase.trigger (base : TimerBase) (usec : Bool) : List Char :=
  (match base with
    | .active => "OnActive"
    | .boot => "OnBoot"
    | .startup => "OnStartup"
    | .unitActive => "OnUnitActive"
    | .unitInactive => "OnUnitInactive").toList ++ if usec then "USec".toList else "Sec".toList

/-- `{ <trigger>=<spec> ; next_elapse=<elapse> }`. -/
def specValue (trigger : List Char) (spec : Spec) (elapse : Elapse) : List Char :=
  "\x7b ".toList ++ (trigger ++ '=' :: (spec.text ++ ' ' ::
    ("; next_elapse=".toList ++ (elapse.text ++ " \x7d".toList))))

/-- A calendar trigger. -/
structure CalendarTrigger where
  spec : Spec
  elapse : Elapse

/-- A monotonic trigger. -/
structure MonotonicTrigger where
  base : TimerBase
  usec : Bool
  spec : Spec
  elapse : Elapse

namespace CalendarTrigger

def text (c : CalendarTrigger) : List Char := "OnCalendar".toList ++ '=' :: c.spec.text

def value (c : CalendarTrigger) : List Char := specValue "OnCalendar".toList c.spec c.elapse

end CalendarTrigger

namespace MonotonicTrigger

def text (m : MonotonicTrigger) : List Char := m.base.trigger m.usec ++ '=' :: m.spec.text

def value (m : MonotonicTrigger) : List Char := specValue (m.base.trigger m.usec) m.spec m.elapse

end MonotonicTrigger

/-- A line of a block. -/
inductive ShowLine
  | property (key value : List Char) (name : '=' ∉ key ∧ key ≠ "TimersCalendar".toList ∧
      key ≠ "TimersMonotonic".toList) (oneLine : OneLine key ∧ OneLine value)
  | calendar (c : CalendarTrigger)
  | monotonic (m : MonotonicTrigger)

namespace ShowLine

/-- The key and the value of a line. -/
def item : ShowLine → List Char × List Char
  | property key value _ _ => (key, value)
  | calendar c => ("TimersCalendar".toList, c.value)
  | monotonic m => ("TimersMonotonic".toList, m.value)

def text (line : ShowLine) : List Char := line.item.1 ++ '=' :: line.item.2

def calendar? : ShowLine → Option CalendarTrigger
  | calendar c => some c
  | _ => none

def monotonic? : ShowLine → Option MonotonicTrigger
  | monotonic m => some m
  | _ => none

end ShowLine

/-- A unit, by the lines of its block, and how many blank lines more than one follow it. -/
structure ShowUnit where
  lines : List ShowLine
  nonempty : lines ≠ []
  blanks : ℕ

/-- A text of lines. -/
def unlines (lines : List (List Char)) : List Char := lines.flatMap (· ++ ['\n'])

/-- The lines of the blocks. -/
def showLines : List ShowUnit → List (List Char)
  | [] => []
  | [u] => u.lines.map ShowLine.text
  | u :: units =>
    u.lines.map ShowLine.text ++ (List.replicate (u.blanks + 1) [] ++ showLines units)

/-- The text for a list of units. -/
def showText (units : List ShowUnit) : List Char := unlines (showLines units)

namespace ShowUnit

/-- The calendar triggers of a unit, in the order printed. -/
def calendars (u : ShowUnit) : List CalendarTrigger := u.lines.filterMap ShowLine.calendar?

/-- The monotonic triggers of a unit, in the order printed. -/
def monotonics (u : ShowUnit) : List MonotonicTrigger := u.lines.filterMap ShowLine.monotonic?

/-- The specs of a unit, the calendar specs first. -/
def specs (u : ShowUnit) : List (List Char) :=
  u.calendars.map CalendarTrigger.text ++ u.monotonics.map MonotonicTrigger.text

/-- The block of a unit. -/
def blockOf (u : ShowUnit) : Info := Dict.update [] (u.lines.map ShowLine.item)

end ShowUnit

/-- The schedule of a block lists every spec of its unit, in their order. -/
def ListsSpecs (u : ShowUnit) (info : Info) : Prop := InOrder u.specs (timerSchedule info)

/-! ## The blocks of a text -/

theorem linesFrom_append_newline {line l : List Char} (hl : OneLine l) (rest : List Char) :
    linesFrom line (l ++ '\n' :: rest) = (line ++ l) :: linesFrom [] rest := by
  induction l generalizing line with
  | nil =>
    rw [List.nil_append, linesFrom_cons fun _ h => absurd h (by decide), if_pos (by decide),
      List.append_nil]
  | cons c l ih =>
    obtain ⟨hc, hl⟩ := List.forall_mem_cons.1 hl
    have hreturn : c ≠ '\r' := by
      rintro rfl
      exact absurd hc (by decide)
    rw [List.cons_append, linesFrom_cons fun _ h => absurd h hreturn, if_neg (by simp [hc]),
      ih hl, List.append_assoc, List.singleton_append]

/-- The lines of a text of lines. -/
theorem splitlines_unlines {lines : List (List Char)} (h : ∀ l ∈ lines, OneLine l) :
    splitlines (unlines lines) = lines := by
  induction lines with
  | nil => rfl
  | cons l lines ih =>
    obtain ⟨hl, hlines⟩ := List.forall_mem_cons.1 h
    have hcons : unlines (l :: lines) = l ++ '\n' :: unlines lines := by simp [unlines]
    rw [splitlines, hcons, linesFrom_append_newline hl, List.nil_append]
    exact congrArg (l :: ·) (ih hlines)

theorem OneLine.append {s t : List Char} (hs : OneLine s) (ht : OneLine t) : OneLine (s ++ t) :=
  List.forall_mem_append.2 ⟨hs, ht⟩

theorem OneLine.cons {c : Char} {s : List Char} (hc : isLineEnd c = false) (hs : OneLine s) :
    OneLine (c :: s) := List.forall_mem_cons.2 ⟨hc, hs⟩

/-- The names that are printed: each is one line, without an `=`, and no other name that
`_TIMER_SPEC` knows ends where it does. -/
structure TriggerName (name : List Char) : Prop where
  oneLine : OneLine name
  plain : '=' ∉ name
  only : ∀ t ∈ ("\x7b ".toList ++ name).tails, t ∈ timerTriggers → t = name
  length : 3 ≤ name.length

theorem triggerName_iff {name : List Char} :
    TriggerName name ↔ OneLine name ∧ '=' ∉ name ∧
      (∀ t ∈ ("\x7b ".toList ++ name).tails, t ∈ timerTriggers → t = name) ∧ 3 ≤ name.length :=
  ⟨fun h => ⟨h.oneLine, h.plain, h.only, h.length⟩, fun h => ⟨h.1, h.2.1, h.2.2.1, h.2.2.2⟩⟩

instance (name : List Char) : Decidable (TriggerName name) := decidable_of_iff' _ triggerName_iff

theorem triggerName_calendar :
    TriggerName "OnCalendar".toList ∧ "OnCalendar".toList ∈ timerTriggers := by decide +kernel

/-- `_TIMER_SPEC` knows the monotonic triggers that count in `Sec`. -/
theorem triggerName_monotonic : ∀ (base : TimerBase) (usec : Bool),
    TriggerName (base.trigger usec) ∧ (base.trigger usec ∈ timerTriggers ↔ usec = false) := by
  have hnames : ∀ usec ∈ [false, true],
      ∀ base ∈ [TimerBase.active, .boot, .startup, .unitActive, .unitInactive],
        TriggerName (base.trigger usec) ∧ (base.trigger usec ∈ timerTriggers ↔ usec = false) := by
    decide +kernel
  intro base usec
  exact hnames usec (by cases usec <;> simp) base (by cases base <;> simp)

/-- The keys the specs are printed under. -/
theorem timerKeys :
    (OneLine "TimersCalendar".toList ∧ '=' ∉ "TimersCalendar".toList) ∧
      (OneLine "TimersMonotonic".toList ∧ '=' ∉ "TimersMonotonic".toList) ∧
      "TimersCalendar".toList ≠ "TimersMonotonic".toList := by decide +kernel

/-- What is printed around a spec. -/
theorem specFrame :
    OneLine ("\x7b ".toList ++ "; next_elapse=".toList ++ " \x7d".toList) ∧
      '=' ∉ "\x7b ".toList ∧ "; next_elapse=".toList = "; next_elaps".toList ++ ['e', '='] := by
  decide +kernel

theorem specValue_oneLine {trigger : List Char} (h : OneLine trigger) (spec : Spec)
    (elapse : Elapse) : OneLine (specValue trigger spec elapse) := by
  obtain ⟨hframe, hclose⟩ := List.forall_mem_append.1 specFrame.1
  obtain ⟨hopen, hnext⟩ := List.forall_mem_append.1 hframe
  exact OneLine.append hopen (h.append (.cons (by decide) (spec.oneLine.append (.cons (by decide)
    (OneLine.append hnext (elapse.oneLine.append hclose))))))

/-- Key and value are on one line, and the key is the text before the first `=`. -/
theorem ShowLine.item_wellFormed (line : ShowLine) :
    OneLine line.item.1 ∧ OneLine line.item.2 ∧ '=' ∉ line.item.1 := by
  cases line with
  | property key value name oneLine => exact ⟨oneLine.1, oneLine.2, name.1⟩
  | calendar c =>
    exact ⟨timerKeys.1.1, specValue_oneLine triggerName_calendar.1.oneLine c.spec c.elapse,
      timerKeys.1.2⟩
  | monotonic m =>
    exact ⟨timerKeys.2.1.1, specValue_oneLine (triggerName_monotonic m.base m.usec).1.oneLine
      m.spec m.elapse, timerKeys.2.1.2⟩

theorem ShowLine.text_oneLine (line : ShowLine) : OneLine line.text :=
  line.item_wellFormed.1.append (.cons (by decide) line.item_wellFormed.2.1)

theorem setLine_text (current : Info) (line : ShowLine) :
    setLine current line.text = current.set line.item.1 line.item.2 := by
  rw [setLine, if_pos (by simp [ShowLine.text]), ShowLine.text,
    splitOnce_append line.item_wellFormed.2.2]

/-- A text with something other than white space in it is not blank. -/
theorem strip_ne_nil {c : Char} {s : List Char} (hmem : c ∈ s) (hc : isSpace c = false) :
    strip s ≠ [] := by
  intro h
  by_cases hl : lstrip s = []
  · have hspaces : ∀ d ∈ s, isSpace d = true := by simpa [lstrip] using hl
    exact absurd (hspaces c hmem) (by simp [hc])
  · obtain ⟨d, t, hline, hd⟩ := begins_lstrip hl
    have hspaces : ∀ e ∈ lstrip s, isSpace e = true := by simpa [strip, rstrip] using h
    exact absurd (hspaces d (by simp [hline])) (by simp [hd])

/-- A printed line is not blank. -/
theorem ShowLine.strip_text_ne_nil (line : ShowLine) : strip line.text ≠ [] :=
  @strip_ne_nil '=' _ (by simp [ShowLine.text]) (by decide)

/-- The lines of a unit are written one after the other. -/
theorem blocksFrom_lines (current : Info) (lines : List ShowLine) (rest : List (List Char)) :
    blocksFrom current (lines.map ShowLine.text ++ rest) =
      blocksFrom (current.update (lines.map ShowLine.item)) rest := by
  induction lines generalizing current with
  | nil => rfl
  | cons line lines ih =>
    rw [List.map_cons, List.cons_append, blocksFrom, if_neg line.strip_text_ne_nil, setLine_text,
      ih, List.map_cons, Dict.update_cons]

theorem strip_nil : strip [] = [] := rfl

theorem blocksFrom_blanks (n : ℕ) (rest : List (List Char)) :
    blocksFrom [] (List.replicate n [] ++ rest) = blocksFrom [] rest := by
  induction n with
  | zero => rfl
  | succ n ih =>
    rw [List.replicate_succ, List.cons_append, blocksFrom, if_pos strip_nil, if_pos rfl, ih]

theorem ShowUnit.blockOf_ne_nil (u : ShowUnit) : u.blockOf ≠ [] := fun h =>
  u.nonempty (List.map_eq_nil_iff.1 (Dict.update_eq_nil.1 h).2)

theorem blocksFrom_showLines (units : List ShowUnit) :
    blocksFrom [] (showLines units) = units.map ShowUnit.blockOf := by
  induction units with
  | nil => rfl
  | cons u units ih =>
    cases units with
    | nil =>
      have hlast := blocksFrom_lines [] u.lines []
      rw [List.append_nil] at hlast
      rw [showLines, hlast, blocksFrom]
      exact if_neg u.blockOf_ne_nil
    | cons next units =>
      have hcons : showLines (u :: next :: units) = u.lines.map ShowLine.text ++
          (List.replicate (u.blanks + 1) [] ++ showLines (next :: units)) := rfl
      rw [hcons, blocksFrom_lines, List.replicate_succ, List.cons_append, blocksFrom,
        if_pos strip_nil, blocksFrom_blanks, ih]
      exact if_neg u.blockOf_ne_nil

theorem showLines_oneLine (units : List ShowUnit) : ∀ l ∈ showLines units, OneLine l := by
  have hlines (u : ShowUnit) : ∀ l ∈ u.lines.map ShowLine.text, OneLine l :=
    List.forall_mem_map.2 fun line _ => line.text_oneLine
  induction units with
  | nil => simp [showLines]
  | cons u units ih =>
    cases units with
    | nil => exact hlines u
    | cons next units =>
      refine List.forall_mem_append.2 ⟨hlines u, List.forall_mem_append.2 ⟨fun l hl => ?_, ih⟩⟩
      rw [List.eq_of_mem_replicate hl]
      decide

/-- **The blocks of a printed text**, one for each unit. -/
theorem parseShowBlocks_showText (units : List ShowUnit) :
    parseShowBlocks (showText units) = units.map ShowUnit.blockOf := by
  rw [parseShowBlocks, showText, splitlines_unlines (showLines_oneLine units),
    blocksFrom_showLines]

/-! ## The specs of a value -/

theorem timerTriggers_wellFormed :
    ∀ trigger ∈ timerTriggers, '=' ∉ trigger ∧ trigger ≠ [] ∧ trigger.getLast? ≠ some 'e' := by
  decide +kernel

/-- `_TIMER_SPEC` at a name. -/
theorem timerSpec_append {key : List Char} (hkey : '=' ∉ key) (rest : List Char) :
    timerSpec (key ++ '=' :: rest) =
      if key ∈ timerTriggers ∧ rest.takeWhile isSpecChar ≠ [] then
        some ((key, rest.takeWhile isSpecChar), key.length + 1 + (rest.takeWhile isSpecChar).length)
      else none := by
  -- a trigger and its `=` begin the text only where the trigger is the name
  have hat : ∀ trigger ∈ timerTriggers,
      (trigger ++ ['=']).isPrefixOf (key ++ '=' :: rest) = true ↔ trigger = key := by
    intro trigger htrigger
    rw [List.isPrefixOf_iff_prefix]
    constructor
    · rintro ⟨after, hafter⟩
      rw [List.append_assoc, List.singleton_append] at hafter
      have hsplit := congrArg (splitOnce '=') hafter
      rw [splitOnce_append (timerTriggers_wellFormed trigger htrigger).1,
        splitOnce_append hkey] at hsplit
      exact (Prod.mk.inj hsplit).1
    · rintro rfl
      exact ⟨rest, by simp⟩
  unfold timerSpec
  cases hfind : timerTriggers.find? fun trigger =>
      (trigger ++ ['=']).isPrefixOf (key ++ '=' :: rest) with
  | none =>
    refine (if_neg fun h => ?_).symm
    exact List.find?_eq_none.1 hfind key h.1 ((hat key h.1).2 rfl)
  | some trigger =>
    have hmem := List.mem_of_find?_eq_some hfind
    have hbegins : (trigger ++ ['=']).isPrefixOf (key ++ '=' :: rest) = true := by
      simpa only using List.find?_some hfind
    obtain rfl := (hat trigger hmem).1 hbegins
    have hvalue : (trigger ++ '=' :: rest).drop (trigger.length + 1) = rest := by
      simp [List.drop_append]
    simp only [hvalue, hmem, true_and]
    split_ifs <;> first | rfl | contradiction

/-- **A name that is no trigger**, nor ends in one, has no spec. -/
theorem scan_key {key : List Char} (hkey : '=' ∉ key)
    (hno : ∀ t, t <:+ key → t ∉ timerTriggers) (rest : List Char) :
    scan timerSpec (key ++ '=' :: rest) = scan timerSpec rest := by
  have hline : key ++ '=' :: rest = (key ++ ['=']) ++ rest := by simp
  rw [hline]
  refine scan_append_of_none fun t hne ht => ?_
  obtain ⟨t, rfl, htail⟩ := (List.suffix_concat_iff.1 ht).resolve_left hne
  have hshape : t ++ ['='] ++ rest = t ++ '=' :: rest := by simp
  rw [hshape, timerSpec_append (fun h => hkey (htail.subset h)), if_neg fun h => hno t htail h.1]

/-- A text without an `=` has no spec. -/
theorem scan_plain {s : List Char} (hs : '=' ∉ s) : scan timerSpec s = [] := by
  refine scan_eq_nil fun t _ ht => ?_
  have hnone : timerTriggers.find? (fun trigger => (trigger ++ ['=']).isPrefixOf t) = none := by
    refine List.find?_eq_none.2 fun trigger _ hbegins => hs (ht.subset ?_)
    exact (List.isPrefixOf_iff_prefix.1 hbegins).subset (by simp)
  rw [timerSpec, hnone]

/-- What a printed value has behind its spec. -/
theorem scan_elapse {before : List Char} (hbefore : '=' ∉ before) (elapse : Elapse) :
    scan timerSpec (before ++ ("; next_elapse=".toList ++ (elapse.text ++ " \x7d".toList))) =
      [] := by
  have hline : before ++ ("; next_elapse=".toList ++ (elapse.text ++ " \x7d".toList)) =
      (before ++ "; next_elaps".toList ++ ['e']) ++ '=' :: (elapse.text ++ " \x7d".toList) := by
    rw [specFrame.2.2]
    simp
  rw [hline, scan_key (by simp [hbefore]) fun t ht hmem => ?_, scan_plain (by simp [elapse.plain])]
  -- what ends in `e` is no trigger
  obtain ⟨front, hfront⟩ := ht
  have hend := congrArg List.getLast? hfront
  obtain ⟨hne, hnot⟩ := (timerTriggers_wellFormed t hmem).2
  obtain ⟨c, hc⟩ := Option.ne_none_iff_exists'.1 (mt List.getLast?_eq_none_iff.1 hne)
  rw [List.getLast?_append, List.getLast?_concat, hc] at hend
  exact hnot (hc.trans hend)

/-- **The spec of a printed value**: it is found where `_TIMER_SPEC` knows its trigger. -/
theorem scan_specValue {trigger : List Char} (hname : TriggerName trigger) (spec : Spec)
    (elapse : Elapse) :
    scan timerSpec (specValue trigger spec elapse) =
      if trigger ∈ timerTriggers then [(trigger, spec.text ++ [' '])] else [] := by
  have hopen := specFrame.2.1
  have htrigger := hname.plain
  have honly (t : List Char) (ht : t <:+ "\x7b ".toList ++ trigger) :=
    hname.only t ((List.mem_tails _ _).2 ht)
  have hspec : '=' ∉ spec.text ++ [' '] := by simp [spec.plain.2]
  have hnone : scan timerSpec ("; next_elapse=".toList ++ (elapse.text ++ " \x7d".toList)) = [] :=
    @scan_elapse [] (by simp) elapse
  have hbehind := scan_elapse hspec elapse
  have hsemicolon : ∃ next', "; next_elapse=".toList ++ (elapse.text ++ " \x7d".toList) =
      ';' :: next' := ⟨_, rfl⟩
  rw [specValue]
  generalize "; next_elapse=".toList ++ (elapse.text ++ " \x7d".toList) = next at *
  split_ifs with hknown
  · have hvalue : (spec.text ++ ' ' :: next).takeWhile isSpecChar = spec.text ++ [' '] := by
      obtain ⟨next', rfl⟩ := hsemicolon
      rw [List.takeWhile_append_of_pos (List.all_eq_true.1 spec.plain.1)]
      simp [isSpecChar]
    have hstep := timerSpec_append htrigger (spec.text ++ ' ' :: next)
    rw [hvalue, if_pos ⟨hknown, by simp⟩] at hstep
    have hshape : trigger ++ '=' :: (spec.text ++ ' ' :: next) =
        (trigger ++ '=' :: (spec.text ++ [' '])) ++ next := by simp
    rw [scan_append_of_none fun t hne ht => ?_, hshape, scan_append_of_some (by simp) ?_, hnone]
    · rw [← hshape, hstep]
      simp
      omega
    · rw [← List.append_assoc, timerSpec_append ?_, if_neg fun h => ?_]
      · have hname := honly (t ++ trigger) ((List.suffix_append_self_iff).2 ht) h.1
        exact hne (List.append_left_eq_self.1 hname)
      · simpa [htrigger] using fun h => hopen (ht.subset h)
  · have hshape : spec.text ++ ' ' :: next = (spec.text ++ [' ']) ++ next := by simp
    rw [← List.append_assoc, scan_key (by simp [htrigger])
      fun t ht hmem => hknown (honly t ht hmem ▸ hmem), hshape, hbehind]

theorem specsOf_specValue {trigger : List Char} (hname : TriggerName trigger) (spec : Spec)
    (elapse : Elapse) :
    specsOf (specValue trigger spec elapse) =
      if trigger ∈ timerTriggers then [trigger ++ '=' :: spec.text] else [] := by
  rw [specsOf, scan_specValue hname]
  split_ifs with hknown
  · rw [List.map_singleton, strip_append_space (by decide), spec.stripped]
  · rfl

theorem specsOf_calendar (c : CalendarTrigger) : specsOf c.value = [c.text] := by
  rw [CalendarTrigger.value, specsOf_specValue triggerName_calendar.1,
    if_pos triggerName_calendar.2]
  rfl

/-- **A monotonic spec is found** unless its trigger counts in `USec`. -/
theorem specsOf_monotonic (m : MonotonicTrigger) :
    specsOf m.value = if m.usec then [] else [m.text] := by
  obtain ⟨hname, hknown⟩ := triggerName_monotonic m.base m.usec
  rw [MonotonicTrigger.value, specsOf_specValue hname]
  simp only [hknown]
  cases husec : m.usec <;> simp [husec, MonotonicTrigger.text]

/-! ## The schedule of a block -/

namespace ShowUnit

theorem get_calendar (u : ShowUnit) :
    u.blockOf.get "TimersCalendar".toList = (u.calendars.map CalendarTrigger.value).getLast? := by
  rw [blockOf, Dict.get_update_eq_getLast?, List.filterMap_map, calendars, List.map_filterMap]
  congr 2
  funext line
  cases line with
  | property key value name _ => exact if_neg name.2.1
  | calendar c => rfl
  | monotonic m =>
    exact @if_neg _ _ timerKeys.2.2.symm _ (some m.value) none

theorem get_monotonic (u : ShowUnit) :
    u.blockOf.get "TimersMonotonic".toList =
      (u.monotonics.map MonotonicTrigger.value).getLast? := by
  rw [blockOf, Dict.get_update_eq_getLast?, List.filterMap_map, monotonics, List.map_filterMap]
  congr 2
  funext line
  cases line with
  | property key value name _ => exact if_neg name.2.2
  | calendar c =>
    exact @if_neg _ _ timerKeys.2.2 _ (some c.value) none
  | monotonic m => rfl

/-- The specs a schedule has: the last of each kind, if `_TIMER_SPEC` knows its trigger. -/
def lastSpecs (u : ShowUnit) : List (List Char) :=
  u.calendars.getLast?.toList.map CalendarTrigger.text ++
    (u.monotonics.getLast?.toList.filter fun m => !m.usec).map MonotonicTrigger.text

/-- **The schedule of a block.** -/
theorem timerSchedule_blockOf (u : ShowUnit) :
    timerSchedule u.blockOf = "; ".toList.intercalate u.lastSpecs := by
  have hnone : specsOf [] = [] := rfl
  rw [timerSchedule, List.flatMap_cons, List.flatMap_cons, List.flatMap_nil, List.append_nil,
    get_calendar, get_monotonic, List.getLast?_map, List.getLast?_map, lastSpecs]
  congr 2
  · cases u.calendars.getLast? with
    | none => rfl
    | some c => exact specsOf_calendar c
  · cases u.monotonics.getLast? with
    | none => rfl
    | some m =>
      refine (specsOf_monotonic m).trans ?_
      cases husec : m.usec <;> simp [husec]

end ShowUnit

/-! ## Which specs are listed -/

theorem length_intercalate (sep : List Char) (pieces : List (List Char)) :
    (sep.intercalate pieces).length =
      (pieces.map List.length).sum + sep.length * (pieces.length - 1) := by
  induction pieces with
  | nil => rfl
  | cons piece pieces ih =>
    cases pieces with
    | nil => simp
    | cons next pieces =>
      rw [List.intercalate_cons_cons, List.length_append, List.length_append, ih]
      simp only [List.map_cons, List.sum_cons, List.length_cons, Nat.add_sub_cancel]
      ring

/-- What the pieces before the last one take. -/
theorem sum_last_add_le {α : Type*} {f : α → List Char} {k : ℕ} (hf : ∀ x, k ≤ (f x).length)
    (xs : List α) :
    ((xs.getLast?.toList.map f).map List.length).sum + k * (xs.length - 1) ≤
      ((xs.map f).map List.length).sum := by
  rcases List.eq_nil_or_concat xs with rfl | ⟨before, last, rfl⟩
  · simp
  · have hbefore := List.card_nsmul_le_sum ((before.map f).map List.length) k
      (by simpa using fun x _ => hf x)
    simp only [List.length_map, smul_eq_mul] at hbefore
    rw [List.concat_eq_append]
    simp only [List.getLast?_concat, Option.toList_some, List.map_cons, List.map_nil,
      List.sum_cons, List.sum_nil, List.length_append, List.length_singleton,
      Nat.add_sub_cancel, List.map_append, List.sum_append]
    rw [Nat.mul_comm k]
    omega

theorem length_spec {trigger : List Char} {k : ℕ} (h : k ≤ trigger.length) (rest : List Char) :
    k ≤ (trigger ++ '=' :: rest).length := by
  rw [List.length_append]
  omega

theorem CalendarTrigger.length_text (c : CalendarTrigger) : 3 ≤ c.text.length :=
  length_spec triggerName_calendar.1.length c.spec.text

theorem MonotonicTrigger.length_text (m : MonotonicTrigger) : 3 ≤ m.text.length :=
  length_spec (triggerName_monotonic m.base m.usec).1.length m.spec.text

/-- At most one spec of each kind, and a trigger that `_TIMER_SPEC` knows. -/
def ShowUnit.Single (u : ShowUnit) : Prop :=
  u.calendars.length ≤ 1 ∧ u.monotonics.length ≤ 1 ∧ ∀ m ∈ u.monotonics, m.usec = false

theorem getLast?_toList_of_length_le {α : Type*} {xs : List α} (h : xs.length ≤ 1) :
    xs.getLast?.toList = xs := by
  match xs, h with
  | [], _ => rfl
  | [x], _ => rfl

/-- **A unit's specs are all listed** exactly when it has at most one of each kind. -/
theorem listsSpecs_iff (u : ShowUnit) : ListsSpecs u u.blockOf ↔ u.Single := by
  unfold ListsSpecs ShowUnit.Single
  rw [u.timerSchedule_blockOf]
  constructor
  · intro h
    -- a spec that is left out takes more room than the separator
    have hlength := h.length_le
    have hcalendars := sum_last_add_le CalendarTrigger.length_text u.calendars
    have hmonotonics := sum_last_add_le MonotonicTrigger.length_text u.monotonics
    have hseparator : "; ".toList.length = 2 := rfl
    rw [length_intercalate, hseparator, ShowUnit.specs, ShowUnit.lastSpecs] at hlength
    simp only [List.map_append, List.sum_append, List.length_append, List.length_map] at hlength
    have hone : u.calendars.getLast?.toList.length ≤ 1 := by cases u.calendars.getLast? <;> simp
    have hfound : (u.monotonics.getLast?.toList.filter fun m => !m.usec).Sublist
        u.monotonics.getLast?.toList := List.filter_sublist
    have hatMost : u.monotonics.getLast?.toList.length ≤ 1 := by
      cases u.monotonics.getLast? <;> simp
    have hcount := hfound.length_le
    have hsum := ((hfound.map MonotonicTrigger.text).map List.length).sum_le_sum (by simp)
    refine ⟨by omega, by omega, fun m hm => ?_⟩
    by_contra husec
    -- the only monotonic spec is left out
    have hmonotonic : u.monotonics = [m] := by
      have hpos := List.length_pos_of_mem hm
      have hlength : u.monotonics.length = 1 := by omega
      obtain ⟨x, hx⟩ := List.length_eq_one_iff.1 hlength
      rw [hx] at hm ⊢
      rw [List.mem_singleton.1 hm]
    have htext := m.length_text
    have hleft : [m].filter (fun m => !m.usec) = [] := by simp [Bool.eq_true_of_not_eq_false husec]
    simp only [hmonotonic, List.getLast?_singleton, Option.toList_some, hleft, List.map_cons,
      List.map_nil, List.sum_cons, List.sum_nil, List.length_nil] at hlength
    omega
  · rintro ⟨hcalendars, hmonotonics, hknown⟩
    have hall : u.lastSpecs = u.specs := by
      rw [ShowUnit.lastSpecs, ShowUnit.specs, getLast?_toList_of_length_le hcalendars,
        getLast?_toList_of_length_le hmonotonics, List.filter_eq_self.2 (by simpa using hknown)]
    rw [hall]
    exact inOrder_intercalate _ _

/-- **A schedule lists all specs of its unit**, for every unit of a listing, exactly when no
unit has two specs of one kind or a trigger that counts in `USec`. -/
theorem timer_specs_iff (units : List ShowUnit) :
    List.Forall₂ ListsSpecs units (parseShowBlocks (showText units)) ↔
      ∀ u ∈ units, u.Single := by
  rw [parseShowBlocks_showText, List.forall₂_map_right_iff, List.forall₂_same]
  simp only [listsSpecs_iff]

/-- A calendar trigger whose next time is not known. -/
def calendarOf (text : List Char) (h : text ≠ [] ∧ strip text = text ∧
    (text.all isSpecChar = true ∧ '=' ∉ text) ∧ OneLine text) : CalendarTrigger where
  spec := ⟨text, h.1, h.2.1, h.2.2.1, h.2.2.2⟩
  elapse := ⟨[], by simp, by simp [OneLine]⟩

/-- **A second calendar spec** hides the first. -/
theorem second_spec_hides_first :
    ¬ ∀ units, List.Forall₂ ListsSpecs units (parseShowBlocks (showText units)) := by
  intro h
  have hlists := h [⟨[.calendar (calendarOf "*-*-* 06:00:00".toList (by decide +kernel)),
    .calendar (calendarOf "*-*-* 18:00:00".toList (by decide +kernel))], by simp, 0⟩]
  rw [parseShowBlocks_showText, List.map_singleton, List.forall₂_cons] at hlists
  have hsingle := ((listsSpecs_iff _).1 hlists.1).1
  simp [ShowUnit.calendars, ShowLine.calendar?] at hsingle

end OoAgent
