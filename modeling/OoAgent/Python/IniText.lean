import OoAgent.Lib.Machine
import OoAgent.Lib.Traverse
import OoAgent.Python.Configparser

/-!
# Writing INI files

A section is written as its header and one line for each option, with every `%` of a value doubled.

* `IniSection`, `IniFile` — what can be written; `IniFile.print` — the text of it.
* `readBack` — what is read of a value; `readBack_spec` — **a value comes back as it is** exactly
  when there is no white space around it and no comment begins in it.
* `readSections` — the loop over the lines of some sections.
* `readIni_print`, `itemsOf_read` — the sections of a file, read back, and their options.
-/

namespace Ini

open PyText

/-! ## Values -/

/-- A value with every `%` doubled. -/
def escape (value : Text) : Text := value.flatMap fun c => if c = '%' then ['%', '%'] else [c]

theorem escape_cons (c : Char) (value : Text) :
    escape (c :: value) = (if c = '%' then ['%', '%'] else [c]) ++ escape value := rfl

theorem escape_append (v w : Text) : escape (v ++ w) = escape v ++ escape w :=
  List.flatMap_append

theorem mem_escape {c : Char} {value : Text} : c ∈ escape value ↔ c ∈ value := by
  rw [escape, List.mem_flatMap]
  constructor
  · rintro ⟨d, hd, hc⟩
    split at hc
    · rename_i hpercent
      subst hpercent
      have hc : c = '%' := by simpa using hc
      exact hc ▸ hd
    · exact List.mem_singleton.1 hc ▸ hd
  · intro hc
    refine ⟨c, hc, ?_⟩
    split
    · rename_i hpercent
      rw [hpercent]
      exact List.mem_cons_self
    · exact List.mem_singleton_self c

/-- Doubled characters are read as one. -/
theorem piecesFrom_escape (value : Text) :
    piecesFrom none (escape value) = some (value.map .char) := by
  induction value with
  | nil => rfl
  | cons c value ih =>
    rw [escape_cons]
    split
    · rename_i hpercent
      subst hpercent
      show (piecesFrom none (escape value)).map (Piece.char '%' :: ·) = _
      rw [ih]
      rfl
    · rename_i hpercent
      have hchar : piecesFrom none (c :: escape value) =
          (piecesFrom none (escape value)).map (.char c :: ·) := by
        rw [piecesFrom] <;> simp [hpercent]
      show piecesFrom none (c :: escape value) = _
      rw [hchar, ih]
      rfl

/-- **An escaped value is interpolated to itself.** -/
theorem interpolate_escape (options : Dict Text Text) (depth : ℕ) (value : Text) :
    interpolate options (depth + 1) (escape value) = some value := by
  have htexts (resolve : Text → Option Text) :
      (value.map Piece.char).mapM (Piece.text resolve) = some (value.map fun c => [c]) := by
    rw [Traverse.mapM_eq_some_iff, List.forall₂_map_left_iff, List.forall₂_map_right_iff,
      List.forall₂_same]
    exact fun c _ => rfl
  rw [interpolate, piecesFrom_escape, Option.bind_eq_bind, Option.bind_some, htexts]
  exact congrArg some (List.flatMap_singleton' value)

theorem blankBefore_append_cons (blank : Bool) (c : Char) (before rest : Text) :
    blankBefore blank (before ++ c :: rest) = blankBefore (isSpace c) rest := by
  induction before generalizing blank with
  | nil => exact blankBefore_cons blank c rest
  | cons d before ih => rw [List.cons_append, blankBefore_cons, ih]

theorem blankBefore_escape (blank : Bool) (value : Text) :
    blankBefore blank (escape value) = blankBefore blank value := by
  induction value generalizing blank with
  | nil => rfl
  | cons c value ih =>
    rw [escape_cons, blankBefore_cons]
    split
    · rename_i hpercent
      subst hpercent
      show blankBefore blank ('%' :: '%' :: escape value) = _
      rw [blankBefore_cons, blankBefore_cons, ih]
    · rw [List.singleton_append, blankBefore_cons, ih]

/-- A mark of an escaped value is one of the value. -/
theorem eq_of_escape_eq {value before after : Text} {mark : Char} (hmark : mark ≠ '%')
    (h : escape value = before ++ mark :: after) :
    ∃ start rest, value = start ++ mark :: rest ∧ before = escape start := by
  induction value generalizing before with
  | nil => exact absurd h (by simp [escape])
  | cons c value ih =>
    rw [escape_cons] at h
    by_cases hc : c = '%'
    · rw [if_pos hc] at h
      cases before with
      | nil => exact absurd (List.cons.inj h).1.symm hmark
      | cons d before =>
        cases before with
        | nil => exact absurd (List.cons.inj (List.cons.inj h).2).1.symm hmark
        | cons e before =>
          obtain ⟨hd, h⟩ := List.cons.inj h
          obtain ⟨he, h⟩ := List.cons.inj h
          obtain ⟨start, rest, rfl, rfl⟩ := ih h
          refine ⟨c :: start, rest, rfl, ?_⟩
          rw [escape_cons, if_pos hc, ← hd, ← he]
          rfl
    · rw [if_neg hc] at h
      cases before with
      | nil => exact ⟨[], value, by rw [(List.cons.inj h).1]; rfl, rfl⟩
      | cons d before =>
        obtain ⟨hd, h⟩ := List.cons.inj h
        obtain ⟨start, rest, rfl, rfl⟩ := ih h
        refine ⟨c :: start, rest, rfl, ?_⟩
        rw [escape_cons, if_neg hc, hd]
        rfl

/-- Comments begin in an escaped value where they do in the value. -/
theorem begins_escape {blank : Bool} {value before : Text} :
    Begins blank (escape value) before ↔
      ∃ start, before = escape start ∧ Begins blank value start := by
  constructor
  · rintro ⟨mark, after, hmark, hsplit, hblank⟩
    have hne : mark ≠ '%' := by rcases hmark with rfl | rfl <;> decide
    obtain ⟨start, rest, hvalue, rfl⟩ := eq_of_escape_eq hne hsplit
    rw [blankBefore_escape] at hblank
    exact ⟨start, rfl, mark, rest, hmark, hvalue, hblank⟩
  · rintro ⟨start, rfl, mark, rest, hmark, rfl, hblank⟩
    have hne : mark ≠ '%' := by rcases hmark with rfl | rfl <;> decide
    refine ⟨mark, escape rest, hmark, ?_, (blankBefore_escape blank start).trans hblank⟩
    rw [escape_append, escape_cons, if_neg hne]
    rfl

/-! ## White space -/

theorem lstrip_escape (value : Text) : lstrip (escape value) = escape (lstrip value) := by
  induction value with
  | nil => rfl
  | cons c value ih =>
    rw [escape_cons]
    split
    · rename_i hpercent
      subst hpercent
      rfl
    · rename_i hpercent
      rw [lstrip, lstrip, List.singleton_append, List.dropWhile_cons, List.dropWhile_cons]
      split
      · exact ih
      · rw [escape_cons, if_neg hpercent]
        rfl

theorem rstrip_escape (value : Text) : rstrip (escape value) = escape (rstrip value) := by
  induction value using List.reverseRecOn with
  | nil => rfl
  | append_singleton value c ih =>
    have hlast : escape [c] = if c = '%' then ['%', '%'] else [c] := List.append_nil _
    rw [escape_append, hlast]
    split
    · rename_i hpercent
      subst hpercent
      have hend : escape value ++ ['%', '%'] = (escape value ++ ['%']) ++ ['%'] := by simp
      rw [rstrip, rstrip, hend, List.rdropWhile_concat_neg _ _ _ (by decide),
        List.rdropWhile_concat_neg _ _ _ (by decide), escape_append, ← hend]
      rfl
    · rename_i hpercent
      by_cases hspace : isSpace c = true
      · rw [rstrip, rstrip, List.rdropWhile_concat_pos _ _ _ hspace,
          List.rdropWhile_concat_pos _ _ _ hspace]
        exact ih
      · rw [rstrip, rstrip, List.rdropWhile_concat_neg _ _ _ hspace,
          List.rdropWhile_concat_neg _ _ _ hspace, escape_append, hlast, if_neg hpercent]

theorem strip_escape (value : Text) : strip (escape value) = escape (strip value) := by
  rw [strip, strip, lstrip_escape, rstrip_escape]

/-- White space is cut off behind the last character that is none. -/
theorem rstrip_append_cons {c : Char} (h : isSpace c = false) (before rest : Text) :
    rstrip (before ++ c :: rest) = before ++ c :: rstrip rest := by
  induction rest using List.reverseRecOn with
  | nil => exact List.rdropWhile_concat_neg _ _ _ (by simp [h])
  | append_singleton rest d ih =>
    rw [← List.cons_append, ← List.append_assoc]
    by_cases hspace : isSpace d = true
    · rw [rstrip, rstrip, List.rdropWhile_concat_pos _ _ _ hspace,
        List.rdropWhile_concat_pos _ _ _ hspace]
      exact ih
    · rw [rstrip, rstrip, List.rdropWhile_concat_neg _ _ _ hspace,
        List.rdropWhile_concat_neg _ _ _ hspace]
      simp

theorem strip_rstrip (s : Text) : strip (rstrip s) = strip s := by
  induction s using List.reverseRecOn with
  | nil => rfl
  | append_singleton s c ih =>
    by_cases hspace : isSpace c = true
    · rw [strip_append_space hspace, rstrip, List.rdropWhile_concat_pos _ _ _ hspace]
      exact ih
    · rw [rstrip, List.rdropWhile_concat_neg _ _ _ hspace]

theorem length_strip_le (s : Text) : (strip s).length ≤ s.length := by
  have hright : (strip s).length ≤ (lstrip s).length := (List.rdropWhile_prefix _ _).length_le
  have hleft : (lstrip s).length ≤ s.length := (List.dropWhile_suffix _).length_le
  omega

/-! ## Options -/

/-- A text within one line. -/
def OneLine (text : Text) : Prop := '\n' ∉ text ∧ '\r' ∉ text

/-- A value that is read as it is written: no white space is around it, and no comment begins in
it. -/
def Plain (value : Text) : Prop := strip value = value ∧ Quiet true value

/-- What can be written as the name of an option. -/
structure OptionName (key : Text) : Prop where
  ne_nil : key ≠ []
  lowered : lowerAscii key = key
  stripped : strip key = key
  /-- It is not taken for a section header. -/
  unbracketed : key.head? ≠ some '['
  undelimited : ∀ c ∈ key, isDelimiter c = false
  quiet : Quiet true key
  oneLine : OneLine key

/-- What is written for an option. -/
def optionText (key value : Text) : Text := key ++ ' ' :: '=' :: ' ' :: escape value

/-- What is read of it. -/
def readBack (key value : Text) : Text :=
  ((optionLine (lineValue (optionText key value))).bind fun o => interpolate [] 1 o.2).getD []

/-- The delimiter has one blank before it. -/
theorem delimiter_split (key value : Text) :
    key ++ ' ' :: '=' :: value = (key ++ [' ']) ++ '=' :: value := by
  rw [List.append_assoc]
  rfl

section

variable {key : Text} (h : OptionName key)

include h

theorem OptionName.head : ∃ c rest, key = c :: rest ∧ isSpace c = false := by
  obtain ⟨c, rest, rfl⟩ := List.exists_cons_of_ne_nil h.ne_nil
  have hhead := @head?_strip (c :: rest)
  rw [h.stripped] at hhead
  exact ⟨c, rest, rfl, hhead c rfl⟩

theorem OptionName.lstrip_append (rest : Text) : lstrip (key ++ rest) = key ++ rest := by
  obtain ⟨c, key, rfl, hspace⟩ := h.head
  exact List.dropWhile_cons_of_neg (by simp [hspace])

/-- A line of the option, as far as a value. -/
theorem OptionName.strip_line (value : Text) :
    strip (key ++ ' ' :: '=' :: value) = key ++ ' ' :: '=' :: rstrip value := by
  rw [strip, h.lstrip_append, delimiter_split, rstrip_append_cons (by decide), ← delimiter_split]

/-- **The option and the value of a line.** -/
theorem OptionName.optionLine_strip (value : Text) :
    optionLine (strip (key ++ ' ' :: '=' :: ' ' :: value)) = some (key, strip value) := by
  have hspace : ∀ c ∈ key ++ [' '], (!isDelimiter c) = true := by
    intro c hc
    rcases List.mem_append.1 hc with hc | hc
    · rw [h.undelimited c hc]
      rfl
    · rw [List.mem_singleton.1 hc]
      decide
  have hkey : rstrip (key ++ [' ']) = key := by
    have hstrip : strip key = rstrip key := by
      have hself := h.lstrip_append []
      rw [List.append_nil] at hself
      rw [strip, hself]
    rw [rstrip, List.rdropWhile_concat_pos _ _ _ (by decide)]
    exact hstrip.symm.trans h.stripped
  have hvalue : strip (rstrip (' ' :: value)) = strip value := strip_rstrip _
  rw [h.strip_line, delimiter_split, optionLine, List.dropWhile_append_of_pos hspace,
    List.takeWhile_append_of_pos hspace, List.dropWhile_cons_of_neg (by decide),
    List.takeWhile_cons_of_neg (by decide), List.append_nil, hkey]
  exact congrArg (fun text => some (key, text)) hvalue

/-- The comments of a line are those of its value. -/
theorem OptionName.begins_line {value before : Text} :
    Begins true (key ++ ' ' :: '=' :: ' ' :: value) before ↔
      ∃ start, before = key ++ ' ' :: '=' :: ' ' :: start ∧ Begins true value start := by
  have hblank (start : Text) :
      blankBefore true (key ++ ' ' :: '=' :: ' ' :: start) = blankBefore true start := by
    rw [blankBefore_append_cons, blankBefore_cons, blankBefore_cons]
    rfl
  constructor
  · rintro ⟨mark, after, hmark, hsplit, hblanks⟩
    rcases Machine.append_eq_append_cons hsplit with ⟨rest, hkey⟩ | ⟨rest, rfl, hrest⟩
    · exact absurd ⟨mark, rest, hmark, hkey, hblanks⟩ (h.quiet before)
    · -- neither blank nor the delimiter is a mark
      cases rest with
      | nil =>
        obtain rfl := (List.cons.inj hrest).1
        exact absurd hmark (by decide)
      | cons c rest =>
        obtain ⟨rfl, hbehind⟩ := List.cons.inj hrest
        cases rest with
        | nil =>
          obtain rfl := (List.cons.inj hbehind).1
          exact absurd hmark (by decide)
        | cons c rest =>
          obtain ⟨rfl, hblankBehind⟩ := List.cons.inj hbehind
          cases rest with
          | nil =>
            obtain rfl := (List.cons.inj hblankBehind).1
            exact absurd hmark (by decide)
          | cons c start =>
            obtain ⟨rfl, hvalue⟩ := List.cons.inj hblankBehind
            exact ⟨start, rfl, mark, after, hmark, hvalue, (hblank start).symm.trans hblanks⟩
  · rintro ⟨start, rfl, mark, after, hmark, rfl, hblanks⟩
    exact ⟨mark, after, hmark, by simp, (hblank start).trans hblanks⟩

/-- **What is read of an option**, with its value as it is exactly when that is plain. -/
theorem OptionName.exists_read (value : Text) :
    ∃ raw start, lineValue (optionText key value) = strip (key ++ ' ' :: '=' :: ' ' :: raw) ∧
      raw = escape start ∧ (strip start = value ↔ Plain value) := by
  have hmarks : ∀ mark, IsMark mark → (strip (optionText key value)).head? ≠ some mark := by
    intro mark hmark hhead
    obtain ⟨c, rest, hkey, -⟩ := h.head
    rw [optionText, h.strip_line, hkey] at hhead
    obtain rfl := Option.some.inj hhead
    exact h.quiet [] ⟨c, rest, hmark, hkey, rfl⟩
  rcases lineValue_spec hmarks with ⟨hline, hquiet⟩ | ⟨before, hbegins, hline⟩
  · refine ⟨escape value, value, hline, rfl, fun hstrip => ⟨hstrip, ?_⟩, fun hplain => hplain.1⟩
    intro start hbegins
    exact hquiet _ (h.begins_line.2 ⟨_, rfl, begins_escape.2 ⟨start, rfl, hbegins⟩⟩)
  · obtain ⟨raw, rfl, hraw⟩ := h.begins_line.1 hbegins
    obtain ⟨start, rfl, hstart⟩ := begins_escape.1 hraw
    refine ⟨escape start, start, hline, rfl, ?_, fun hplain => absurd hstart (hplain.2 start)⟩
    intro hstrip
    -- what is before a comment is shorter
    obtain ⟨mark, after, -, hvalue, -⟩ := hstart
    have hle := length_strip_le start
    rw [hstrip, hvalue, List.length_append, List.length_cons] at hle
    omega

theorem OptionName.readBack_spec (value : Text) :
    optionLine (lineValue (optionText key value)) = some (key, escape (readBack key value)) ∧
      (readBack key value = value ↔ Plain value) ∧
      rstrip (readBack key value) = readBack key value := by
  obtain ⟨raw, start, hline, rfl, hiff⟩ := h.exists_read value
  have hoption : optionLine (lineValue (optionText key value)) =
      some (key, escape (strip start)) := by
    rw [hline, h.optionLine_strip, strip_escape]
  have hread : readBack key value = strip start := by
    rw [readBack, hoption, Option.bind_some, interpolate_escape]
    rfl
  have hstripped : rstrip (strip start) = strip start := List.rdropWhile_idempotent _ _
  rw [hread]
  exact ⟨hoption, hiff, hstripped⟩

/-- The line of an option is an entry of its own, and no header. -/
theorem OptionName.entry (value : Text) :
    lineValue (optionText key value) ≠ [] ∧
      sectionHeader (lineValue (optionText key value)) = none ∧
      (optionText key value).takeWhile isSpace = [] := by
  obtain ⟨raw, start, hline, -, -⟩ := h.exists_read value
  obtain ⟨c, rest, rfl, hspace⟩ := h.head
  rw [hline, h.strip_line]
  refine ⟨by simp, ?_, List.takeWhile_cons_of_neg (by simp [hspace])⟩
  have hbracket : c ≠ '[' := fun hc => h.unbracketed (congrArg some hc)
  show sectionHeader (c :: _) = none
  unfold sectionHeader
  split
  · rename_i heq
    exact absurd (List.cons.inj heq).1 hbracket
  · rfl

end

/-! ## Sections -/

/-- What can be written as the name of a section. -/
structure SectionName (name : Text) : Prop where
  ne_nil : name ≠ []
  ne_default : name ≠ defaultSection
  quiet : Quiet false name
  oneLine : OneLine name

/-- What is written for the header of a section. -/
def headerText (name : Text) : Text := '[' :: (name ++ [']'])

theorem SectionName.lineValue_header {name : Text} (h : SectionName name) :
    lineValue (headerText name) = headerText name := by
  have hlast : (headerText name).getLast? = some ']' := by
    rw [headerText, ← List.cons_append, List.getLast?_concat]
  have hstrip : strip (headerText name) = headerText name := by
    apply strip_eq_self
    · intro c hc
      rw [← Option.some.inj hc]
      decide
    · intro c hc
      rw [hlast] at hc
      rw [← Option.some.inj hc]
      decide
  have hmarks : ∀ mark, IsMark mark → (strip (headerText name)).head? ≠ some mark := by
    intro mark hmark hhead
    rw [hstrip] at hhead
    obtain rfl := Option.some.inj hhead
    exact absurd hmark (by decide)
  rcases lineValue_spec hmarks with ⟨hline, -⟩ | ⟨before, ⟨mark, after, hmark, hsplit, hblank⟩, -⟩
  · rw [hline, hstrip]
  · exfalso
    cases before with
    | nil =>
      obtain rfl := (List.cons.inj hsplit).1
      exact absurd hmark (by decide)
    | cons c before =>
      obtain ⟨rfl, hname⟩ := List.cons.inj hsplit
      rw [blankBefore_cons] at hblank
      rcases Machine.append_eq_append_cons hname with ⟨rest, hrest⟩ | ⟨rest, -, hrest⟩
      · exact h.quiet before ⟨mark, rest, hmark, hrest, hblank⟩
      · cases rest with
        | nil =>
          obtain rfl := (List.cons.inj hrest).1
          exact absurd hmark (by decide)
        | cons d rest => exact absurd (List.cons.inj hrest).2 (by simp)

theorem SectionName.sectionHeader_header {name : Text} (h : SectionName name) :
    sectionHeader (headerText name) = some name := by
  have hbracket : (name ++ [']']).rdropWhile (· != ']') = name ++ [']'] :=
    List.rdropWhile_concat_neg _ _ _ (by decide)
  show (if ((name ++ [']']).rdropWhile (· != ']')).dropLast = [] then none
    else some ((name ++ [']']).rdropWhile (· != ']')).dropLast) = some name
  rw [hbracket, List.dropLast_concat, if_neg h.ne_nil]

/-- A section that can be written. -/
structure IniSection where
  name : Text
  options : List (Text × Text)
  named : SectionName name
  distinct : (options.map Prod.fst).Nodup
  writable : ∀ o ∈ options, OptionName o.1 ∧ OneLine o.2

namespace IniSection

variable (s : IniSection)

/-- The lines of a section. -/
def lines : List Text := headerText s.name :: s.options.map fun o => optionText o.1 o.2

/-- The lines of its values, as they are read. -/
def read : Options := s.options.map fun o => (o.1, [escape (readBack o.1 o.2)])

end IniSection

/-! ## Reading what was written -/

namespace Reader

/-- The loop is in the last of the sections that were met. -/
structure At (r : Reader) (sections : Dict Text Options) (name : Text) (options : Options) :
    Prop where
  sections_eq : r.sections = sections ++ [(name, options)]
  fresh : name ∉ sections.map Prod.fst
  current : r.current = some name
  indent : r.indent = 0
  sound : r.bogus = false

/-- A line that is not indented is an entry of its own. -/
theorem readLine_flush {r : Reader} {line : Text} (hindent : line.takeWhile isSpace = [])
    (hvalue : lineValue line ≠ []) (hr : r.indent = 0) :
    r.readLine line = r.readEntry (lineValue line) := by
  have hsame : { r with indent := 0 } = r := by rw [← hr]
  unfold readLine
  split
  · rw [if_neg hvalue, hindent, List.length_nil, if_neg (Nat.not_lt_zero _)]
    exact congrArg (fun r => readEntry r (lineValue line)) hsame
  · rw [if_neg hvalue, hindent]
    exact congrArg (fun r => readEntry r (lineValue line)) hsame

variable {r : Reader} {sections : Dict Text Options} {name : Text} {options : Options}

theorem At.optionsOf_eq (h : r.At sections name options) : r.optionsOf name = options := by
  rw [optionsOf, h.sections_eq, Dict.get_append_singleton h.fresh]
  rfl

/-- A section header opens a section. -/
theorem readLine_header {r : Reader} (hname : SectionName name)
    (hfresh : name ∉ r.sections.map Prod.fst) (hindent : r.indent = 0) (hsound : r.bogus = false) :
    ∃ r', r.readLine (headerText name) = some r' ∧ r'.At r.sections name [] := by
  have hvalue : lineValue (headerText name) ≠ [] := by
    rw [hname.lineValue_header]
    exact List.cons_ne_nil _ _
  have hstart : (headerText name).takeWhile isSpace = [] :=
    List.takeWhile_cons_of_neg (by decide)
  have hread : r.readLine (headerText name) = r.enter name := by
    rw [readLine_flush hstart hvalue hindent, hname.lineValue_header, readEntry,
      hname.sectionHeader_header]
  rw [hread, enter, Dict.get_of_notMem hfresh]
  exact ⟨_, rfl, Dict.set_of_notMem hfresh [], hfresh, rfl, hindent, hsound⟩

theorem readEntry_option {value option text : Text} (hheader : sectionHeader value = none)
    (hcurrent : r.current = some name) (hoption : optionLine value = some (option, text)) :
    r.readEntry value = r.define name (lowerAscii option) text := by
  unfold readEntry
  simp only [hheader, hcurrent, hoption, Option.bind_eq_bind, Option.bind_some]

/-- The line of an option adds it to the section. -/
theorem At.readOption (h : r.At sections name options) {key : Text} (hkey : OptionName key)
    (hnew : key ∉ options.map Prod.fst) (value : Text) :
    ∃ r', r.readLine (optionText key value) = some r' ∧
      r'.At sections name (options ++ [(key, [escape (readBack key value)])]) := by
  obtain ⟨hvalue, hheader, hindent⟩ := hkey.entry value
  have hread : r.readLine (optionText key value) =
      r.define name key (escape (readBack key value)) := by
    rw [readLine_flush hindent hvalue h.indent,
      readEntry_option hheader h.current (hkey.readBack_spec value).1, hkey.lowered]
  rw [hread, define, h.optionsOf_eq, Dict.get_of_notMem hnew, if_pos rfl]
  refine ⟨_, rfl, ?_, h.fresh, h.current, h.indent, ?_⟩
  · show r.sections.set name ((r.optionsOf name).set key _) = _
    rw [h.optionsOf_eq, h.sections_eq, Dict.set_append_singleton h.fresh,
      Dict.set_of_notMem hnew]
  · show (r.bogus || key == []) = false
    rw [h.sound, Bool.false_or]
    exact beq_eq_false_iff_ne.2 hkey.ne_nil

/-- The lines of some options add them in order. -/
theorem At.readOptions {written : List (Text × Text)} (h : r.At sections name options)
    (hkeys : ∀ o ∈ written, OptionName o.1)
    (hnew : (options.map Prod.fst ++ written.map Prod.fst).Nodup) :
    ∃ r', (written.map fun o => optionText o.1 o.2).foldlM readLine r = some r' ∧
      r'.At sections name
        (options ++ written.map fun o => (o.1, [escape (readBack o.1 o.2)])) := by
  induction written generalizing r options with
  | nil => exact ⟨r, rfl, by rwa [List.map_nil, List.append_nil]⟩
  | cons o written ih =>
    obtain ⟨hkey, hkeys⟩ := List.forall_mem_cons.1 hkeys
    have hfresh : o.1 ∉ options.map Prod.fst := by
      intro hmem
      exact (List.nodup_append.1 hnew).2.2 _ hmem _ List.mem_cons_self rfl
    obtain ⟨r₁, hr₁, hat₁⟩ := h.readOption hkey hfresh o.2
    have hnew₁ : ((options ++ [(o.1, [escape (readBack o.1 o.2)])]).map Prod.fst ++
        written.map Prod.fst).Nodup := by
      rw [List.map_append, List.append_assoc]
      exact hnew
    obtain ⟨r', hr', hat⟩ := ih hat₁ hkeys hnew₁
    refine ⟨r', ?_, ?_⟩
    · rw [List.map_cons, List.foldlM_cons, hr₁]
      exact hr'
    · rwa [List.append_assoc, List.singleton_append] at hat

/-- **The lines of some sections** add them in order. -/
theorem readSections {written : List IniSection} (hindent : r.indent = 0)
    (hsound : r.bogus = false)
    (hnames : (r.sections.map Prod.fst ++ written.map IniSection.name).Nodup) :
    ∃ r', (written.flatMap IniSection.lines).foldlM readLine r = some r' ∧ r'.bogus = false ∧
      r'.sections = r.sections ++ written.map fun s => (s.name, s.read) := by
  induction written generalizing r with
  | nil => exact ⟨r, rfl, hsound, by rw [List.map_nil, List.append_nil]⟩
  | cons s written ih =>
    have hfresh : s.name ∉ r.sections.map Prod.fst := by
      intro hmem
      exact (List.nodup_append.1 hnames).2.2 _ hmem _ List.mem_cons_self rfl
    obtain ⟨r₁, hr₁, hat₁⟩ := readLine_header s.named hfresh hindent hsound
    obtain ⟨r₂, hr₂, hat₂⟩ := hat₁.readOptions (fun o ho => (s.writable o ho).1) s.distinct
    have hsections : r₂.sections = r.sections ++ [(s.name, s.read)] := hat₂.sections_eq
    have hnames₂ : (r₂.sections.map Prod.fst ++ written.map IniSection.name).Nodup := by
      rw [hsections, List.map_append, List.append_assoc]
      exact hnames
    obtain ⟨r', hr', hbogus, hdone⟩ := ih hat₂.indent hat₂.sound hnames₂
    refine ⟨r', ?_, hbogus, ?_⟩
    · rw [List.flatMap_cons, List.foldlM_append, IniSection.lines, List.foldlM_cons, hr₁]
      show ((s.options.map fun o => optionText o.1 o.2).foldlM readLine r₁ >>= _) = _
      rw [hr₂]
      exact hr'
    · rw [hdone, hsections, List.append_assoc]
      rfl

end Reader

/-! ## Files -/

/-- A file that can be written. -/
structure IniFile where
  sections : List IniSection
  distinct : (sections.map IniSection.name).Nodup

namespace IniFile

variable (ini : IniFile)

/-- The text of a file. -/
def print : Text := (ini.sections.flatMap IniSection.lines).flatMap fun line => line ++ ['\n']

/-- The options of a section; none if it is not written. -/
def optionsOf (name : Text) : List (Text × Text) :=
  ((ini.sections.find? fun s => s.name = name).map IniSection.options).getD []

/-- All values are plain. -/
def AllPlain : Prop := ∀ s ∈ ini.sections, ∀ o ∈ s.options, Plain o.2

end IniFile

theorem oneLine_escape {value : Text} (h : OneLine value) : OneLine (escape value) :=
  ⟨fun hmem => h.1 (mem_escape.1 hmem), fun hmem => h.2 (mem_escape.1 hmem)⟩

theorem oneLine_of_mem_lines {s : IniSection} {line : Text} (h : line ∈ s.lines) :
    OneLine line := by
  rcases List.mem_cons.1 h with rfl | h
  · have hname := s.named.oneLine
    rw [OneLine] at hname
    simp [headerText, OneLine, hname]
  · obtain ⟨o, ho, rfl⟩ := List.mem_map.1 h
    obtain ⟨hkey, hvalue⟩ := s.writable o ho
    have hkey := hkey.oneLine
    have hvalue := oneLine_escape hvalue
    rw [OneLine] at hkey hvalue
    simp [optionText, OneLine, hkey, hvalue]

/-- The lines of a text of lines. -/
theorem split_lines {lines : List Text} (h : ∀ line ∈ lines, '\n' ∉ line) :
    split '\n' (lines.flatMap fun line => line ++ ['\n']) = lines ++ [[]] := by
  induction lines with
  | nil => rfl
  | cons line lines ih =>
    obtain ⟨hline, hlines⟩ := List.forall_mem_cons.1 h
    rw [List.flatMap_cons, List.append_assoc, List.singleton_append, split_append_cons hline,
      ih hlines, List.cons_append]

theorem fileLines_print (ini : IniFile) :
    fileLines ini.print = ini.sections.flatMap IniSection.lines := by
  have hlines : ∀ line ∈ ini.sections.flatMap IniSection.lines, OneLine line := by
    intro line hline
    obtain ⟨s, -, hmem⟩ := List.mem_flatMap.1 hline
    exact oneLine_of_mem_lines hmem
  have hreturn : '\r' ∉ ini.print := by
    intro hmem
    obtain ⟨line, hline, hmem⟩ := List.mem_flatMap.1 hmem
    rcases List.mem_append.1 hmem with hmem | hmem
    · exact (hlines line hline).2 hmem
    · exact absurd (List.mem_singleton.1 hmem) (by decide)
  rw [fileLines, translateNewlines_of_not_mem hreturn, IniFile.print,
    split_lines fun line hline => (hlines line hline).1]
  simp

theorem joinLines_read {key : Text} (h : OptionName key) (value : Text) :
    joinLines [escape (readBack key value)] = escape (readBack key value) := by
  rw [joinLines, List.intercalate_singleton, rstrip_escape, (h.readBack_spec value).2.2]

/-- What is read of the options of a section. -/
def IniSection.readItems (s : IniSection) : List (Text × Text) :=
  s.options.map fun o => (o.1, readBack o.1 o.2)

/-- The sections of a written file, as they are read. -/
def IniFile.read (ini : IniFile) : Sections :=
  ini.sections.map fun s => (s.name, s.readItems.map fun o => (o.1, escape o.2))

/-- **A written file is read**, each value as it is read back. -/
theorem readIni_print (ini : IniFile) :
    readIni ini.print = some ini.read := by
  have hnames : (Reader.init.sections.map Prod.fst ++ ini.sections.map IniSection.name).Nodup :=
    ini.distinct
  obtain ⟨r, hr, hsound, hsections⟩ := Reader.readSections rfl rfl hnames
  rw [readIni, fileLines_print, hr, Option.bind_some, hsound, if_neg (by decide), hsections]
  show some (List.map _ (ini.sections.map _)) = _
  rw [List.map_map]
  congr 1
  apply List.map_congr_left
  intro s hs
  show (s.name, List.map _ (s.options.map _)) = (s.name, List.map _ (s.options.map _))
  rw [List.map_map, List.map_map]
  congr 1
  apply List.map_congr_left
  intro o ho
  exact congrArg (Prod.mk o.1) (joinLines_read (s.writable o ho).1 o.2)

theorem IniFile.keys_read (ini : IniFile) :
    ini.read.map Prod.fst = ini.sections.map IniSection.name := by
  rw [read, List.map_map]
  rfl

theorem IniSection.keys_readItems (s : IniSection) :
    (s.readItems.map fun o => (o.1, escape o.2)).map Prod.fst = s.options.map Prod.fst := by
  rw [readItems, List.map_map, List.map_map]
  rfl

/-- **Asking for the options of a section.** -/
theorem itemsOf_read {ini : IniFile} {s : IniSection} (h : s ∈ ini.sections) :
    itemsOf ini.read s.name = some s.readItems := by
  have hdefault : ini.read.get defaultSection = none := by
    apply Dict.get_of_notMem
    rw [ini.keys_read]
    intro hmem
    obtain ⟨t, -, ht⟩ := List.mem_map.1 hmem
    exact t.named.ne_default ht
  have hsection : ini.read.get s.name = some (s.readItems.map fun o => (o.1, escape o.2)) := by
    apply Dict.get_of_mem
    · rw [ini.keys_read]
      exact ini.distinct
    · exact List.mem_map_of_mem (f := fun s : IniSection =>
        (s.name, s.readItems.map fun o => (o.1, escape o.2))) h
  have hkeys : ((s.readItems.map fun o => (o.1, escape o.2)).map Prod.fst).Nodup := by
    rw [s.keys_readItems]
    exact s.distinct
  unfold itemsOf
  rw [hdefault, hsection]
  show (Dict.update [] (s.readItems.map fun o => (o.1, escape o.2))).mapM _ = _
  rw [Dict.update_of_nodup hkeys, Traverse.mapM_eq_some_iff, List.forall₂_map_left_iff,
    List.forall₂_same]
  intro o _
  show (interpolate _ (9 + 1) (escape o.2)).map _ = some o
  rw [interpolate_escape]
  rfl

theorem hasSection_read (ini : IniFile) (name : Text) :
    hasSection ini.read name = decide (name ∈ ini.sections.map IniSection.name) := by
  rw [hasSection, Bool.eq_iff_iff, Bool.and_eq_true, decide_eq_true_eq, decide_eq_true_eq,
    ← ini.keys_read]
  constructor
  · rintro ⟨-, hsome⟩
    by_contra hmem
    rw [Dict.get_of_notMem hmem] at hsome
    exact absurd hsome (by decide)
  · intro hmem
    obtain ⟨item, hitem, rfl⟩ := List.mem_map.1 hmem
    refine ⟨?_, ?_⟩
    · obtain ⟨s, -, rfl⟩ := List.mem_map.1 hitem
      exact s.named.ne_default
    · have hdistinct : (ini.read.map Prod.fst).Nodup := ini.keys_read ▸ ini.distinct
      rw [Dict.get_of_mem hdistinct hitem]
      rfl

/-- The options of a section come back as they are exactly when their values are plain. -/
theorem readItems_eq_iff (s : IniSection) :
    s.readItems = s.options ↔ ∀ o ∈ s.options, Plain o.2 := by
  have hread : ∀ o ∈ s.options, (o.1, readBack o.1 o.2) = o ↔ Plain o.2 := by
    intro o ho
    rw [← ((s.writable o ho).1.readBack_spec o.2).2.1]
    exact ⟨fun heq => congrArg Prod.snd heq, fun heq => congrArg (Prod.mk o.1) heq⟩
  have hmap : s.options.map (fun o => (o.1, readBack o.1 o.2)) = s.options.map id ↔
      ∀ o ∈ s.options, (o.1, readBack o.1 o.2) = o := List.map_inj_left
  rw [List.map_id] at hmap
  rw [IniSection.readItems, hmap]
  exact forall₂_congr hread

theorem IniFile.optionsOf_name {ini : IniFile} {s : IniSection} (h : s ∈ ini.sections) :
    ini.optionsOf s.name = s.options := by
  rw [optionsOf]
  cases hfind : ini.sections.find? fun t => decide (t.name = s.name) with
  | none =>
    rw [List.find?_eq_none] at hfind
    exact absurd (decide_eq_true rfl) (hfind s h)
  | some t =>
    have hfound := List.find?_some hfind
    have hname : t.name = s.name := of_decide_eq_true hfound
    have ht := List.mem_of_find?_eq_some hfind
    rw [List.inj_on_of_nodup_map ini.distinct ht h hname]
    rfl

theorem IniFile.optionsOf_of_notMem {ini : IniFile} {name : Text}
    (h : name ∉ ini.sections.map IniSection.name) : ini.optionsOf name = [] := by
  have hfind : (ini.sections.find? fun s => decide (s.name = name)) = none := by
    rw [List.find?_eq_none]
    intro s hs hname
    exact h (of_decide_eq_true hname ▸ List.mem_map_of_mem hs)
  rw [optionsOf, hfind]
  rfl

end Ini
