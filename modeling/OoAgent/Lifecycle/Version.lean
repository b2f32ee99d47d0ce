import OoAgent.Python.Digits

/-!
# Version numbers

`lifecycle.py` compares versions as tuples of numbers, read off the chunks between
the dots; whatever is not a digit is dropped.

* `versionTuple` — `_version_tuple`.
* `upToDate` — the test that stops an update before anything is downloaded.
-/

namespace OoAgent

/-- `__version__`. -/
def version : String := "0.2.1"

/-- One chunk of `_version_tuple`: its digits as a number, `0` without any. -/
def versionChunk (chunk : List Char) : Option Nat :=
  let digits := chunk.filter PyText.isDigit
  if digits = [] then some 0 else PyText.intOf digits

/-- `_version_tuple`; `none` when `int` raises. -/
def versionTuple (value : String) : Option (List Nat) :=
  (PyText.split '.' (PyText.strip value.toList)).mapM versionChunk

/-- `_version_tuple(latest) <= _version_tuple(__version__)`; `none` when a version
cannot be read. -/
def upToDate (latest : String) : Option Bool := do
  let offered ← versionTuple latest
  let running ← versionTuple version
  return decide (offered ≤ running)

example : upToDate "0.2.1" = some true := by decide

example : upToDate "v0.10-rc" = some false := by decide

end OoAgent
