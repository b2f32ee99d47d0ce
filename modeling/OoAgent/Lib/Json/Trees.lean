import OoAgent.Lib.Json.Numbers
import OoAgent.Lib.Json.Strings

/-!
# JSON texts

A JSON text as a tree, with the three constants that are not JSON but are written by those
who have to write infinite numbers.  A number is kept as it is spelled and an object as the
list of its members, so the tree says all that the text does.

* `Layout`, `renderIn` — the text of a tree in a layout; `render` — on one line.
* `parse` — a recursive descent over a text, blanks allowed wherever JSON allows them.
-/

/-- A JSON text. -/
inductive Json where
  | null
  | bool (b : Bool)
  | num (n : Json.Number)
  | nan
  | inf (negative : Bool)
  | str (s : List Char)
  | arr (items : List Json)
  | obj (members : List (List Char × Json))

namespace Json

/-! ## Writing -/

/-- White space between the parts of a text. -/
def isBlank (c : Char) : Bool := c ∈ [' ', '\t', '\n', '\r']

/-- How the parts of a text are set apart, by how deep they lie. -/
structure Layout where
  /-- Behind an opening bracket. -/
  opening : ℕ → List Char
  /-- Behind a comma. -/
  between : ℕ → List Char
  /-- Before a closing bracket. -/
  closing : ℕ → List Char
  blank_opening : ∀ d, ∀ c ∈ opening d, isBlank c = true
  blank_between : ∀ d, ∀ c ∈ between d, isBlank c = true
  blank_closing : ∀ d, ∀ c ∈ closing d, isBlank c = true

/-- All on one line. -/
def Layout.line : Layout where
  opening := fun _ => []
  between := fun _ => [' ']
  closing := fun _ => []
  blank_opening := fun _ _ h => absurd h List.not_mem_nil
  blank_between := fun _ _ h => by rw [List.mem_singleton.1 h]; rfl
  blank_closing := fun _ _ h => absurd h List.not_mem_nil

/-- A new line, indented by so many spaces. -/
def newLine (n : ℕ) : List Char := '\n' :: List.replicate n ' '

theorem blank_newLine (n : ℕ) : ∀ c ∈ newLine n, isBlank c = true := by
  intro c hc
  rcases List.mem_cons.1 hc with rfl | hc
  · rfl
  · rw [List.eq_of_mem_replicate hc]
    rfl

/-- Every item on a line of its own, indented by so many spaces for each bracket. -/
def Layout.indented (n : ℕ) : Layout where
  opening := fun d => newLine (n * (d + 1))
  between := fun d => newLine (n * (d + 1))
  closing := fun d => newLine (n * d)
  blank_opening := fun _ => blank_newLine _
  blank_between := fun _ => blank_newLine _
  blank_closing := fun _ => blank_newLine _

/-- A string literal. -/
def renderString (s : List Char) : List Char := '"' :: (escape s ++ ['"'])

variable (l : Layout)

mutual

/-- The text of a tree that lies so deep. -/
def renderIn (d : ℕ) : Json → List Char
  | .null => ['n', 'u', 'l', 'l']
  | .bool true => ['t', 'r', 'u', 'e']
  | .bool false => ['f', 'a', 'l', 's', 'e']
  | .num n => n.render
  | .nan => ['N', 'a', 'N']
  | .inf false => ['I', 'n', 'f', 'i', 'n', 'i', 't', 'y']
  | .inf true => ['-', 'I', 'n', 'f', 'i', 'n', 'i', 't', 'y']
  | .str s => renderString s
  | .arr [] => ['[', ']']
  | .arr (x :: xs) => '[' :: (l.opening d ++ (renderIn (d + 1) x ++ renderItems d xs))
  | .obj [] => ['\x7b', '\x7d']
  | .obj ((k, x) :: xs) =>
    '\x7b' :: (l.opening d ++
      (renderString k ++ ':' :: ' ' :: (renderIn (d + 1) x ++ renderMembers d xs)))

/-- The items behind the first one, and the closing bracket. -/
def renderItems (d : ℕ) : List Json → List Char
  | [] => l.closing d ++ [']']
  | x :: xs => ',' :: (l.between d ++ (renderIn (d + 1) x ++ renderItems d xs))

/-- The members behind the first one, and the closing brace. -/
def renderMembers (d : ℕ) : List (List Char × Json) → List Char
  | [] => l.closing d ++ ['\x7d']
  | (k, x) :: xs =>
    ',' :: (l.between d ++
      (renderString k ++ ':' :: ' ' :: (renderIn (d + 1) x ++ renderMembers d xs)))

end

/-- The text of a tree on one line. -/
def render (j : Json) : List Char := renderIn Layout.line 0 j

/-! ## Reading -/

/-- A text without the blanks at its front. -/
def skipBlanks (text : List Char) : List Char := text.dropWhile isBlank

/-- What follows a word at the front of a text. -/
def after : List Char → List Char → Option (List Char)
  | [], text => some text
  | _ :: _, [] => none
  | p :: word, c :: text => if p = c then after word text else none

/-- The words that stand for a value. -/
def constants : List (List Char × Json) :=
  [(['n', 'u', 'l', 'l'], .null), (['t', 'r', 'u', 'e'], .bool true),
    (['f', 'a', 'l', 's', 'e'], .bool false), (['N', 'a', 'N'], .nan),
    (['I', 'n', 'f', 'i', 'n', 'i', 't', 'y'], .inf false),
    (['-', 'I', 'n', 'f', 'i', 'n', 'i', 't', 'y'], .inf true)]

/-- A word at the front of a text. -/
def scanConstant (text : List Char) : Option (Json × List Char) :=
  constants.findSome? fun p => (after p.1 text).map fun rest => (p.2, rest)

/-- A string literal at the front of a text. -/
def scanLiteral (text : List Char) : Option (List Char × List Char) :=
  if text.head? = some '"' then scanString text.length text.tail else none

mutual

/-- A value at the front of a text; `fuel` bounds how deep it goes and how much it holds. -/
def scanValue : ℕ → List Char → Option (Json × List Char)
  | 0, _ => none
  | fuel + 1, text =>
    if text.head? = some '"' then
      (scanLiteral text).map fun (s, rest) => (.str s, rest)
    else if text.head? = some '[' then
      let inside := skipBlanks text.tail
      if inside.head? = some ']' then some (.arr [], inside.tail)
      else (scanItems fuel inside).map fun (xs, rest) => (.arr xs, rest)
    else if text.head? = some '\x7b' then
      let inside := skipBlanks text.tail
      if inside.head? = some '\x7d' then some (.obj [], inside.tail)
      else (scanMembers fuel inside).map fun (xs, rest) => (.obj xs, rest)
    else
      match scanConstant text with
      | some found => some found
      | none => (scanNumber text).map fun (n, rest) => (.num n, rest)

/-- The items of a list that has some, up to its closing bracket. -/
def scanItems : ℕ → List Char → Option (List Json × List Char)
  | 0, _ => none
  | fuel + 1, text => do
    let (x, rest) ← scanValue fuel text
    let rest := skipBlanks rest
    if rest.head? = some ']' then some ([x], rest.tail)
    else if rest.head? = some ',' then
      (scanItems fuel (skipBlanks rest.tail)).map fun (xs, rest) => (x :: xs, rest)
    else none

/-- The members of an object that has some, up to its closing brace. -/
def scanMembers : ℕ → List Char → Option (List (List Char × Json) × List Char)
  | 0, _ => none
  | fuel + 1, text => do
    let (k, rest) ← scanLiteral text
    let rest := skipBlanks rest
    if rest.head? = some ':' then
      let (x, rest) ← scanValue fuel (skipBlanks rest.tail)
      let rest := skipBlanks rest
      if rest.head? = some '\x7d' then some ([(k, x)], rest.tail)
      else if rest.head? = some ',' then
        (scanMembers fuel (skipBlanks rest.tail)).map fun (xs, rest) => ((k, x) :: xs, rest)
      else none
    else none

end

/-- A whole text; `none` when it is not JSON. -/
def parse (text : List Char) : Option Json := do
  let (j, rest) ← scanValue (text.length + 1) (skipBlanks text)
  if skipBlanks rest = [] then some j else none

end Json
