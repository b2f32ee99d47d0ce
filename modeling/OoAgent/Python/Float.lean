import OoAgent.Python.Datetime
import OoAgent.Python.Value

/-!
# Floats of a file

Comparing a float with a constant, and what `int(x)` and `round(x)` make of one.  The
arithmetic that rounds stays a parameter.

* `FloatCalls` — `float(s)`, division, multiplication and `round(x, digits)`.
* `PyFloat.below`, `PyFloat.above` — comparisons; `nan` is neither.
* `PyFloat.trunc`, `PyFloat.roundInt` — the conversions, which raise for an infinity or `nan`.
-/

namespace OoAgent

/-- The arithmetic on floats. -/
structure FloatCalls where
  /-- `float(s)`; `none` for a `ValueError`. -/
  parse : List Char → Option PyFloat
  /-- `x / q`. -/
  div : PyFloat → ℚ → PyFloat
  /-- `x * q`. -/
  mul : PyFloat → ℚ → PyFloat
  /-- `round(x, digits)`. -/
  round : PyFloat → ℕ → PyFloat

end OoAgent

namespace PyFloat

/-- `x < q`. -/
def below (x : PyFloat) (q : ℚ) : Bool :=
  match x with
  | .finite p => decide (p < q)
  | .negZero => decide (0 < q)
  | .inf negative => negative
  | .nan => false

/-- `x > q`. -/
def above (x : PyFloat) (q : ℚ) : Bool :=
  match x with
  | .finite p => decide (q < p)
  | .negZero => decide (q < 0)
  | .inf negative => !negative
  | .nan => false

/-- `int(x)`; `none` when it raises. -/
def trunc : PyFloat → Option ℤ
  | .finite q => some (if q < 0 then ⌈q⌉ else ⌊q⌋)
  | .negZero => some 0
  | _ => none

/-- `round(x)`, halves to the even number; `none` when it raises. -/
def roundInt : PyFloat → Option ℤ
  | .finite q => some (PyTime.roundHalfEven q)
  | .negZero => some 0
  | _ => none

end PyFloat
