import OoAgent.Lib.Dict
import OoAgent.Python.Text

/-!
# INI files

`configparser.ConfigParser(inline_comment_prefixes=(";", "#"))` goes through a file line by line: a
line is a comment, part of the value above it, a section header or an option.  The values are
interpolated when they are asked for.

* `cutComment`, `lineValue` — what a line says without its comment.
* `readLine`, `readIni` — the loop of `_read`, as it is up to Python 3.12.
* `interpolate`, `itemsOf` — `BasicInterpolation` and `items(section)`.
* `lineValue_spec` — **what a line says** is all of it, or what stands before one of its comments.
-/

namespace Ini

open PyText

/-- A piece of text. -/
abbrev Text := List Char

/-! ## Comments -/

/-- Where a character occurs, and whether it is at the start or behind white space. -/
def occurrences (mark : Char) (i : ℕ) (blank : Bool) : Text → List (ℕ × Bool)
  | [] => []
  | c :: cs =>
    if c = mark then (i, blank) :: occurrences mark (i + 1) (isSpace c) cs
    else occurrences mark (i + 1) (isSpace c) cs

/-- The search for inline comments: both prefixes go on to their next occurrence together, until
one of them begins a comment. -/
def inlineComment : List (ℕ × Bool) → List (ℕ × Bool) → Option ℕ
  | [], hashes => (hashes.find? (·.2)).map (·.1)
  | semi :: semis, [] => ((semi :: semis).find? (·.2)).map (·.1)
  | semi :: semis, hash :: hashes =>
    if semi.2 && hash.2 then some (min semi.1 hash.1)
    else if semi.2 then some semi.1
    else if hash.2 then some hash.1
    else inlineComment semis hashes

/-- Where the comment of a line starts, if it has one. -/
def cutComment (line : Text) : Option ℕ :=
  if (strip line).head? ∈ [some '#', some ';'] then some 0
  else inlineComment (occurrences ';' 0 true line) (occurrences '#' 0 true line)

/-- The line without its comment and the white space around it. -/
def lineValue (line : Text) : Text :=
  match cutComment line with
  | some n => strip (line.take n)
  | none => strip line

example : lineValue "path = a;b ;c #d".toList = "path = a;b ;c".toList := by decide +kernel

/-! ## Headers and options -/

/-- `SECTCRE`: the text between a bracket at the start and the last one that closes. -/
def sectionHeader : Text → Option Text
  | '[' :: rest =>
    let header := (rest.rdropWhile (· != ']')).dropLast
    if header = [] then none else some header
  | _ => none

/-- What stands between an option and its value. -/
def isDelimiter (c : Char) : Bool := c == '=' || c == ':'

/-- `OPTCRE`: the option before the first delimiter, and the value. -/
def optionLine (value : Text) : Option (Text × Text) :=
  match value.dropWhile fun c => !isDelimiter c with
  | [] => none
  | _ :: rest => some (rstrip (value.takeWhile fun c => !isDelimiter c), strip rest)

/-! ## Reading -/

/-- The options of a section, with the lines of their values. -/
abbrev Options := Dict Text (List Text)

/-- The name of the section whose options all others have. -/
def defaultSection : Text := "DEFAULT".toList

/-- The state of the loop. -/
structure Reader where
  /-- The sections that were met, `[DEFAULT]` among them. -/
  sections : Dict Text Options
  /-- The section the loop is in. -/
  current : Option Text
  /-- The option the loop is at; no text for none. -/
  option : Text
  indent : ℕ
  /-- Some line was neither a header nor an option. -/
  bogus : Bool

namespace Reader

/-- Before the first line. -/
def init : Reader where
  sections := []
  current := none
  option := []
  indent := 0
  bogus := false

/-- The options of a section. -/
def optionsOf (r : Reader) (name : Text) : Options := (r.sections.get name).getD []

/-- Set the lines of an option. -/
def store (r : Reader) (name option : Text) (lines : List Text) : Reader :=
  { r with sections := r.sections.set name ((r.optionsOf name).set option lines) }

/-- One more line of the value of the option the loop is at. -/
def append (r : Reader) (name line : Text) : Reader :=
  r.store name r.option (((r.optionsOf name).get r.option).getD [] ++ [line])

/-- A section header; `none` for one that was there before. -/
def enter (r : Reader) (name : Text) : Option Reader :=
  match r.sections.get name with
  | some _ =>
    if name = defaultSection then some { r with current := some name, option := [] } else none
  | none =>
    some { r with sections := r.sections.set name [], current := some name, option := [] }

/-- An option; `none` for one that was there before. -/
def define (r : Reader) (name option value : Text) : Option Reader :=
  if (r.optionsOf name).get option = none then
    some { r.store name option [value] with option := option, bogus := r.bogus || option == [] }
  else none

/-- A line that is no part of the value above it. -/
def readEntry (r : Reader) (value : Text) : Option Reader :=
  match sectionHeader value with
  | some name => r.enter name
  | none => do
    let name ← r.current
    match optionLine value with
    | some (option, text) => r.define name (lowerAscii option) text
    | none => some { r with bogus := true }

/-- One line of the file; `none` when it raises. -/
def readLine (r : Reader) (line : Text) : Option Reader :=
  let value := lineValue line
  let indent := (line.takeWhile isSpace).length
  match r.current.filter fun _ => r.option != [] with
  | some name =>
    if value = [] then
      some (if cutComment line = none then r.append name [] else r)
    else if r.indent < indent then some (r.append name value)
    else { r with indent := indent }.readEntry value
  | none => if value = [] then some r else { r with indent := indent }.readEntry value

end Reader

/-- The lines of a file. -/
def fileLines (text : Text) : List Text :=
  let pieces := split '\n' (translateNewlines text)
  if pieces.getLast? = some [] then pieces.dropLast else pieces

/-- The sections of a file, with their options. -/
abbrev Sections := Dict Text (Dict Text Text)

/-- `"\n".join(lines).rstrip()`. -/
def joinLines (lines : List Text) : Text := rstrip (['\n'].intercalate lines)

/-- `read`; `none` when it raises. -/
def readIni (text : Text) : Option Sections :=
  ((fileLines text).foldlM Reader.readLine Reader.init).bind fun r =>
    if r.bogus then none
    else some (r.sections.map fun (name, options) =>
      (name, options.map fun (option, lines) => (option, joinLines lines)))

/-! ## Interpolation -/

/-- A piece of a value: a character, or a reference to another option. -/
inductive Piece where
  | char (c : Char)
  | reference (name : Text)

/-- The pieces of a value, of which a reference may have begun; `none` for a syntax error. -/
def piecesFrom : Option Text → Text → Option (List Piece)
  | none, [] => some []
  | some _, [] => none
  | none, '%' :: '%' :: cs => (piecesFrom none cs).map (.char '%' :: ·)
  | none, '%' :: '(' :: cs => piecesFrom (some []) cs
  | none, '%' :: _ => none
  | none, c :: cs => (piecesFrom none cs).map (.char c :: ·)
  | some name, ')' :: 's' :: cs =>
    if name = [] then none else (piecesFrom none cs).map (.reference name :: ·)
  | some _, ')' :: _ => none
  | some name, c :: cs => piecesFrom (some (name ++ [c])) cs

/-- The text of a piece, for a way to resolve references. -/
def Piece.text (resolve : Text → Option Text) : Piece → Option Text
  | .char c => some [c]
  | .reference name => resolve name

/-- `_interpolate_some`, down to that many references in one another; `none` when it raises. -/
def interpolate (options : Dict Text Text) : ℕ → Text → Option Text
  | 0, _ => none
  | depth + 1, text => do
    let pieces ← piecesFrom none text
    let texts ← pieces.mapM (Piece.text fun name => do
      let value ← options.get (lowerAscii name)
      if '%' ∈ value then interpolate options depth value else some value)
    return texts.flatten

/-- `MAX_INTERPOLATION_DEPTH`. -/
def maxDepth : ℕ := 10

/-- `items(section)` of a section there is; `none` when it raises. -/
def itemsOf (file : Sections) (name : Text) : Option (List (Text × Text)) :=
  let options := ((file.get defaultSection).getD []).update ((file.get name).getD [])
  options.mapM fun (option, value) => (interpolate options maxDepth value).map (option, ·)

/-- `has_section(name)`. -/
def hasSection (file : Sections) (name : Text) : Bool :=
  decide (name ≠ defaultSection) && (file.get name).isSome

/-! ## Where comments begin -/

/-- The two characters a comment begins with. -/
def IsMark (c : Char) : Prop := c = ';' ∨ c = '#'

instance (c : Char) : Decidable (IsMark c) := inferInstanceAs (Decidable (c = ';' ∨ c = '#'))

/-- What comes next is behind white space, or at the start. -/
def blankBefore (blank : Bool) (before : Text) : Bool := (before.getLast?.map isSpace).getD blank

theorem blankBefore_cons (blank : Bool) (c : Char) (before : Text) :
    blankBefore blank (c :: before) = blankBefore (isSpace c) before := by
  rw [blankBefore, blankBefore, List.getLast?_cons]
  cases before.getLast? <;> rfl

theorem mem_occurrences {mark : Char} {i n : ℕ} {blank : Bool} {line : Text} :
    (n, true) ∈ occurrences mark i blank line ↔
      ∃ before after, line = before ++ mark :: after ∧ n = i + before.length ∧
        blankBefore blank before = true := by
  induction line generalizing i blank with
  | nil => simp [occurrences]
  | cons c line ih =>
    have hlater : (n, true) ∈ occurrences mark (i + 1) (isSpace c) line ↔
        ∃ before after, c :: line = (c :: before) ++ mark :: after ∧
          n = i + (c :: before).length ∧ blankBefore blank (c :: before) = true := by
      rw [ih]
      simp only [blankBefore_cons, List.cons_append, List.cons.injEq, true_and, List.length_cons]
      constructor
      · rintro ⟨before, after, hline, hn, hblank⟩
        exact ⟨before, after, hline, by omega, hblank⟩
      · rintro ⟨before, after, hline, hn, hblank⟩
        exact ⟨before, after, hline, by omega, hblank⟩
    have hsplit : (∃ before after, c :: line = before ++ mark :: after ∧ n = i + before.length ∧
        blankBefore blank before = true) ↔
        (c = mark ∧ n = i ∧ blank = true) ∨
          (n, true) ∈ occurrences mark (i + 1) (isSpace c) line := by
      rw [hlater]
      constructor
      · rintro ⟨before, after, hline, hn, hblank⟩
        cases before with
        | nil => exact .inl ⟨(List.cons.inj hline).1, hn, hblank⟩
        | cons d before =>
          obtain rfl := (List.cons.inj hline).1
          exact .inr ⟨before, after, hline, hn, hblank⟩
      · rintro (⟨rfl, rfl, rfl⟩ | ⟨before, after, hline, hn, hblank⟩)
        · exact ⟨[], line, rfl, rfl, rfl⟩
        · exact ⟨c :: before, after, hline, hn, hblank⟩
    rw [hsplit, occurrences]
    split
    · rename_i hmark
      rw [List.mem_cons, Prod.mk.injEq]
      simp [hmark, eq_comm]
    · rename_i hmark
      simp [hmark]

theorem find_spec (marks : List (ℕ × Bool)) :
    (∃ n, (marks.find? (·.2)).map (·.1) = some n ∧ (n, true) ∈ marks) ∨
      (marks.find? (·.2)).map (·.1) = none ∧ ∀ n, (n, true) ∉ marks := by
  cases hfind : marks.find? (·.2) with
  | none =>
    rw [List.find?_eq_none] at hfind
    exact .inr ⟨rfl, fun n hn => hfind _ hn rfl⟩
  | some mark =>
    obtain ⟨n, begins⟩ := mark
    have hbegins : begins = true := List.find?_some hfind
    exact .inl ⟨n, rfl, hbegins ▸ List.mem_of_find?_eq_some hfind⟩

/-- The search finds a comment, and misses none if it finds nothing. -/
theorem inlineComment_spec (semis hashes : List (ℕ × Bool)) :
    (∃ n, inlineComment semis hashes = some n ∧ ((n, true) ∈ semis ∨ (n, true) ∈ hashes)) ∨
      inlineComment semis hashes = none ∧ ∀ n, (n, true) ∉ semis ∧ (n, true) ∉ hashes := by
  induction semis generalizing hashes with
  | nil =>
    rcases find_spec hashes with ⟨n, hn, hmem⟩ | ⟨hnone, hno⟩
    · exact .inl ⟨n, hn, .inr hmem⟩
    · exact .inr ⟨hnone, fun n => ⟨List.not_mem_nil, hno n⟩⟩
  | cons semi semis ih =>
    cases hashes with
    | nil =>
      rcases find_spec (semi :: semis) with ⟨n, hn, hmem⟩ | ⟨hnone, hno⟩
      · exact .inl ⟨n, hn, .inl hmem⟩
      · exact .inr ⟨hnone, fun n => ⟨hno n, List.not_mem_nil⟩⟩
    | cons hash hashes =>
      obtain ⟨i, semiBegins⟩ := semi
      obtain ⟨j, hashBegins⟩ := hash
      rw [inlineComment]
      cases semiBegins with
      | true =>
        cases hashBegins with
        | true =>
          rcases le_total i j with h | h
          · refine .inl ⟨i, ?_, .inl List.mem_cons_self⟩
            exact congrArg some (min_eq_left h)
          · refine .inl ⟨j, ?_, .inr List.mem_cons_self⟩
            exact congrArg some (min_eq_right h)
        | false => exact .inl ⟨i, rfl, .inl List.mem_cons_self⟩
      | false =>
        cases hashBegins with
        | true => exact .inl ⟨j, rfl, .inr List.mem_cons_self⟩
        | false =>
          show (∃ n, inlineComment semis hashes = some n ∧ _) ∨
            inlineComment semis hashes = none ∧ _
          simp only [List.mem_cons, Prod.mk.injEq, Bool.true_eq_false, and_false, false_or]
          exact ih hashes

/-- A comment begins behind this much of a line. -/
def Begins (blank : Bool) (line before : Text) : Prop :=
  ∃ mark after, IsMark mark ∧ line = before ++ mark :: after ∧ blankBefore blank before = true

/-- No comment begins in a line. -/
def Quiet (blank : Bool) (line : Text) : Prop := ∀ before, ¬ Begins blank line before

/-- **What a line says** is all of it, or what stands before one of its comments. -/
theorem lineValue_spec {line : Text} (h : ∀ mark, IsMark mark → (strip line).head? ≠ some mark) :
    (lineValue line = strip line ∧ Quiet true line) ∨
      ∃ before, Begins true line before ∧ lineValue line = strip before := by
  have hcut : cutComment line =
      inlineComment (occurrences ';' 0 true line) (occurrences '#' 0 true line) := by
    rw [cutComment, if_neg]
    rw [List.mem_cons, List.mem_singleton]
    rintro (hhash | hsemi)
    · exact h '#' (.inr rfl) hhash
    · exact h ';' (.inl rfl) hsemi
  rcases inlineComment_spec (occurrences ';' 0 true line) (occurrences '#' 0 true line) with
    ⟨n, hn, hmem⟩ | ⟨hnone, hno⟩
  · have hbegins : ∃ before, Begins true line before ∧ n = before.length := by
      rcases hmem with hmem | hmem
      · obtain ⟨before, after, hline, hn, hblank⟩ := mem_occurrences.1 hmem
        exact ⟨before, ⟨';', after, .inl rfl, hline, hblank⟩, by omega⟩
      · obtain ⟨before, after, hline, hn, hblank⟩ := mem_occurrences.1 hmem
        exact ⟨before, ⟨'#', after, .inr rfl, hline, hblank⟩, by omega⟩
    obtain ⟨before, hbegins, rfl⟩ := hbegins
    refine .inr ⟨before, hbegins, ?_⟩
    obtain ⟨mark, after, -, hline, -⟩ := hbegins
    have htake : line.take before.length = before := by rw [hline, List.take_left]
    rw [lineValue, hcut, hn]
    exact congrArg strip htake
  · refine .inl ⟨by rw [lineValue, hcut, hnone], ?_⟩
    rintro before ⟨mark, after, rfl | rfl, hline, hblank⟩
    · exact (hno before.length).1
        (mem_occurrences.2 ⟨before, after, hline, (Nat.zero_add _).symm, hblank⟩)
    · exact (hno before.length).2
        (mem_occurrences.2 ⟨before, after, hline, (Nat.zero_add _).symm, hblank⟩)

end Ini
