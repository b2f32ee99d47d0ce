import OoAgent.Python.Digits

/-!
# Crontab fields

One field of a schedule, as `_parse_field` reads it: parts between commas, each of them a
star, a value or a range, with a step behind a slash.  `int` decides what a number is, so
signs and underscores are accepted too; a step is asked for `isdigit` first, which lets
texts through that `int` then raises on.

* `parseField` — the set of a field, `none` for a malformed one; the outer `none` is the
  exception that leaves the function.
* `FieldSet` — a set of values within the bounds of its field, which is what a field
  parses to.
-/

namespace OoAgent

open PyText

/-! ## Numbers -/

/-- The names of months or weekdays, in small letters. -/
abbrev NameTable : Type := List (List Char × Int)

/-- The table of these names, numbered from `first`. -/
def nameTable (first : Int) (names : List String) : NameTable :=
  names.mapIdx fun i name => (name.toList, first + i)

/-- `_MONTH_NAMES`. -/
def monthNames : NameTable :=
  nameTable 1
    ["jan", "feb", "mar", "apr", "may", "jun", "jul", "aug", "sep", "oct", "nov", "dec"]

/-- `_DOW_NAMES`. -/
def dowNames : NameTable := nameTable 0 ["sun", "mon", "tue", "wed", "thu", "fri", "sat"]

/-- `resolve`; `none` when it raises `ValueError`. -/
def resolve (names : NameTable) (token : List Char) : Option Int :=
  match names.lookup (lowerAscii token) with
  | some value => some value
  | none => parseInt token

/-- The step of a part, `some none` for the `-1` of a malformed one, `none` when `int`
raises on what `isdigit` has let through. -/
def stepOf (stepRaw : List Char) : Option (Option Nat) :=
  if stepRaw ≠ [] ∧ stepRaw.all isDigit then
    (intOf stepRaw).map fun step => if step = 0 then none else some step
  else some none

/-- `set(range(start, stop, step))`. -/
def stepRange (start stop : Int) (step : Nat) : Finset Int :=
  Finset.image (fun k : Nat => start + (k : Int))
    ((Finset.range (stop - start).toNat).filter fun k => k % step = 0)

/-! ## Fields -/

/-- The values a part adds; `none` when a number in it raises `ValueError`. -/
def partValues (lo hi : Nat) (names : NameTable) (part : List Char) (step : Nat) :
    Option (Finset Int) :=
  if part = ['*'] ∨ part = [] then some (stepRange lo (hi + 1) step)
  else if '-' ∈ part then do
    let (first, last) := splitOnce '-' part
    let start ← resolve names first
    let stop ← resolve names last
    return stepRange start (stop + 1) step
  else if 1 < step then (resolve names part).map fun start => stepRange start (hi + 1) step
  else (resolve names part).map fun value => {value}

/-- The loop over the parts of a field, with the values so far. -/
def parseParts (lo hi : Nat) (names : NameTable) (values : Finset Int) :
    List (List Char) → Option (Option (Finset Int))
  | [] => some (some values)
  | part :: parts =>
    let (body, step) := if '/' ∈ part then
        let (body, stepRaw) := splitOnce '/' part
        (body, stepOf stepRaw)
      else (part, some (some 1))
    match step with
    | none => none
    | some none => some none
    | some (some step) =>
      match partValues lo hi names body step with
      | none => some none
      | some new => parseParts lo hi names (values ∪ new) parts

/-- The set of a field: some values, all of them within its bounds. -/
structure FieldSet (lo hi : Nat) where
  values : Finset Nat
  nonempty : values.Nonempty
  bounds : ∀ v ∈ values, lo ≤ v ∧ v ≤ hi

/-- The check at the end of `_parse_field`. -/
def checkField (lo hi : Nat) (values : Finset Int) : Option (FieldSet lo hi) :=
  if h : values.Nonempty ∧ ∀ v ∈ values, (lo : Int) ≤ v ∧ v ≤ hi then
    some {
      values := values.image Int.toNat
      nonempty := h.1.image Int.toNat
      bounds := by
        intro v hv
        obtain ⟨w, hw, rfl⟩ := Finset.mem_image.1 hv
        have hbounds := h.2 w hw
        omega }
  else none

/-- `_parse_field`. -/
def parseField (lo hi : Nat) (names : NameTable) (spec : List Char) :
    Option (Option (FieldSet lo hi)) :=
  (parseParts lo hi names ∅ (split ',' spec)).map fun values => values.bind (checkField lo hi)

/-- `sorted(values)`. -/
def FieldSet.sorted {lo hi : Nat} (s : FieldSet lo hi) : List {v : Nat // lo ≤ v ∧ v ≤ hi} :=
  ((List.range (hi + 1)).filter (· ∈ s.values)).attachWith _ fun v hv =>
    s.bounds v (by simpa using (List.mem_filter.1 hv).2)

section

variable {lo hi : Nat} (s : FieldSet lo hi)

@[simp] theorem FieldSet.mem_sorted {v : {v : Nat // lo ≤ v ∧ v ≤ hi}} :
    v ∈ s.sorted ↔ v.1 ∈ s.values := by
  have hle : v.1 < hi + 1 := Nat.lt_succ_of_le v.2.2
  simp [FieldSet.sorted, List.mem_attachWith, hle]

theorem FieldSet.sorted_pairwise : s.sorted.Pairwise fun v w => v.1 < w.1 := by
  have hrange : ((List.range (hi + 1)).filter (· ∈ s.values)).Pairwise (· < ·) :=
    List.pairwise_lt_range.filter _
  unfold FieldSet.sorted
  rw [← List.pairwise_map (f := Subtype.val)]
  simpa using hrange

end

end OoAgent
