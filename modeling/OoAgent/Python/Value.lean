import OoAgent.Python.FloatText
import OoAgent.Python.Literal

/-!
# Python values

The agent passes untyped data around: what `response.json()` returns, what a
collector's `collect()` returns, what the INI file coerces to.  `Value` is that
data, with the three operations the code uses on it without knowing its type:
`truthy` (`x or y`, `if x`), `toStr` (`str(x)` and f-strings) and `get`
(`d.get("key")`).

A dictionary is a list of items, looked up first match first; a key that is not a
string is known only up to equality.
-/

/-- A dictionary key. -/
inductive Key where
  | str (s : String)
  /-- Any other hashable key, up to Python's `==`. -/
  | other (n : Nat)
  deriving DecidableEq, Repr

/-- A Python value. -/
inductive Value where
  | none
  | bool (b : Bool)
  | int (n : Int)
  | float (x : PyFloat)
  | str (s : String)
  | list (items : List Value)
  | tuple (items : List Value)
  | dict (items : List (Key × Value))
  /-- Any other object: truthy, hashable, neither a mapping nor iterable. -/
  | object (id : Nat)
  deriving Repr, Inhabited

namespace PyFloat

/-- `bool(x)`. -/
def truthy : PyFloat → Bool
  | .finite q => decide (q ≠ 0)
  | .negZero => false
  | _ => true

end PyFloat

/-- `repr` of a dictionary key. -/
def Key.repr : Key → String
  | .str s => PyText.quote s
  | .other n => "<key " ++ Nat.repr n ++ ">"

namespace Value

mutual

/-- `repr(v)`. -/
def repr : Value → String
  | .none => "None"
  | .bool b => if b then "True" else "False"
  | .int n => n.repr
  | .float x => x.toStr
  | .str s => PyText.quote s
  | .list items => "[" ++ reprItems items ++ "]"
  | .tuple [x] => "(" ++ repr x ++ ",)"
  | .tuple items => "(" ++ reprItems items ++ ")"
  | .dict items => "\x7b" ++ reprPairs items ++ "\x7d"
  | .object id => "<object " ++ Nat.repr id ++ ">"

/-- The comma-separated items of a list or tuple. -/
def reprItems : List Value → String
  | [] => ""
  | [x] => repr x
  | x :: y :: rest => repr x ++ ", " ++ reprItems (y :: rest)

/-- The comma-separated items of a dictionary. -/
def reprPairs : List (Key × Value) → String
  | [] => ""
  | [(k, x)] => k.repr ++ ": " ++ repr x
  | (k, x) :: y :: rest => k.repr ++ ": " ++ repr x ++ ", " ++ reprPairs (y :: rest)

end

/-- `str(v)`: a string is its own text, everything else its `repr`. -/
def toStr : Value → String
  | .str s => s
  | v => v.repr

/-- `bool(v)`. -/
def truthy : Value → Bool
  | .none => false
  | .bool b => b
  | .int n => decide (n ≠ 0)
  | .float x => x.truthy
  | .str s => decide (s ≠ "")
  | .list items => !items.isEmpty
  | .tuple items => !items.isEmpty
  | .dict items => !items.isEmpty
  | .object _ => true

/-- `a or b`. -/
def orElse (a b : Value) : Value := if a.truthy then a else b

/-- `isinstance(v, (int, float))`; a bool is an int. -/
def isNumber : Value → Bool
  | .bool _ => true
  | .int _ => true
  | .float _ => true
  | _ => false

mutual

/-- Whether `hash(v)` succeeds. -/
def hashable : Value → Bool
  | .list _ => false
  | .dict _ => false
  | .tuple items => hashableAll items
  | _ => true

/-- Whether every item of a tuple is hashable. -/
def hashableAll : List Value → Bool
  | [] => true
  | x :: rest => hashable x && hashableAll rest

end

mutual

/-- Whether `str(v)` succeeds: it raises on an integer with too many digits. -/
def printable : Value → Bool
  | .int n => decide ((Nat.toDigits 10 n.natAbs).length ≤ PyText.maxStrDigits)
  | .list items => printableAll items
  | .tuple items => printableAll items
  | .dict items => printablePairs items
  | _ => true

/-- Whether every item of a list or tuple prints. -/
def printableAll : List Value → Bool
  | [] => true
  | x :: rest => printable x && printableAll rest

/-- Whether every value of a dictionary prints. -/
def printablePairs : List (Key × Value) → Bool
  | [] => true
  | (_, x) :: rest => printable x && printablePairs rest

end

/-- `d.get(key)` on the items of a dictionary. -/
def lookup (items : List (Key × Value)) (key : String) : Option Value :=
  List.lookup (Key.str key) items

/-- `d.get(key, default)`. -/
def getD (items : List (Key × Value)) (key : String) (default : Value) : Value :=
  (lookup items key).getD default

/-- `d if isinstance(d, dict) else {}`, on what `response.json()` gave, `none`
when it raised `ValueError`. -/
def asDict : Option Value → List (Key × Value)
  | some (.dict items) => items
  | _ => []

/-! ## Only the empty string prints as nothing -/

theorem repr_ne_empty (v : Value) : v.repr ≠ "" := by
  have happ : ∀ {a b : String}, a ≠ "" → a ++ b ≠ "" := by
    intro a b ha h
    exact ha (by simpa using (String.append_eq_empty_iff.1 h).1)
  cases v with
  | none => simp [repr]
  | bool b => cases b <;> simp [repr]
  | int n =>
    simp only [repr]
    cases n with
    | ofNat m => exact Nat.repr_ne_empty
    | negSucc m => exact happ (by decide)
  | float x =>
    simp only [repr]
    exact x.toStr_ne_empty
  | str s =>
    simp only [repr]
    exact PyText.quote_ne_empty s
  | list items => simp only [repr]; exact happ (happ (by decide))
  | tuple items =>
    cases items with
    | nil => simp only [repr]; exact happ (happ (by decide))
    | cons x rest =>
      cases rest with
      | nil => simp only [repr]; exact happ (happ (by decide))
      | cons y rest => simp only [repr]; exact happ (happ (by decide))
  | dict items => simp only [repr]; exact happ (happ (by decide))
  | object id => simp only [repr]; exact happ (happ (by decide))

/-- **Only the empty string prints as the empty string.** -/
theorem toStr_eq_empty_iff {v : Value} : v.toStr = "" ↔ v = .str "" := by
  cases v with
  | str s => simp [toStr]
  | _ => simp [toStr, repr_ne_empty]

end Value
