import OoAgent.Collectors.Cron.Crontab
import OoAgent.Lib.Traverse

/-!
# RAM modules in the output of dmidecode

`parse_dmidecode_memory` goes through the lines with the module it is filling, if any.  A line
opens a module, gives it an entry, discards it or sends it off.

* `lineEffect` — what a line does to an open module; `memoryStep` — the body of the loop.
* `finish` — what becomes of a module that is opened above given lines.
* `MemoryBlock`, `memoryBlocks` — the lines between one opening and the next.
* `parseDmidecodeMemory_eq` — **the loop** finishes the modules of the blocks, one by one.
-/

namespace OoAgent

open PyText

/-! ## Values -/

/-- `value.lower()`, as far as it tells whether that is one of some ASCII texts: the Kelvin sign
becomes a `k`, other letters that are not ASCII do not become ASCII ones. -/
def lowerKelvin (s : List Char) : List Char :=
  s.map fun c => if c.toNat = 8490 then 'k' else c.toLower

/-- `_PLACEHOLDERS`. -/
def placeholders : List (List Char) :=
  ["".toList, "system product name".toList, "to be filled by o.e.m.".toList,
    "default string".toList, "none".toList, "not specified".toList, "unknown".toList, "n/a".toList]

/-- `_clean`. -/
def clean (value : List Char) : Option (List Char) :=
  if lowerKelvin (strip value) ∈ placeholders then none else some (strip value)

/-- `key, _, value = s.partition(": ")`. -/
def partitionField : List Char → List Char × List Char
  | ':' :: ' ' :: rest => ([], rest)
  | c :: rest => (c :: (partitionField rest).1, (partitionField rest).2)
  | [] => ([], [])

/-- The key and the value of a line. -/
def fieldOf (line : List Char) : List Char × List Char := partitionField (strip line)

/-- The digits of `re.match(r"(\d+)", value)`; none without a match. -/
def leadingDigits (value : List Char) : List Char := value.takeWhile fun c => (decimal c).isSome

/-- `re.match(r"(\d+)\s*(MB|GB)", value)`: the digits, and whether the unit is GB. -/
def matchSize (value : List Char) : Option (List Char × Bool) :=
  let digits := leadingDigits value
  let rest := (value.drop digits.length).dropWhile isSpace
  if digits = [] then none
  else if "MB".toList.isPrefixOf rest then some (digits, false)
  else if "GB".toList.isPrefixOf rest then some (digits, true)
  else none

/-! ## The loop -/

/-- The keys of a module. -/
inductive ModuleKey where
  | sizeMb
  | type
  | speedMt
  | vendor
  | model
  deriving DecidableEq

/-- An entry of a module. -/
inductive ModuleEntry where
  | number (n : ℕ)
  | text (s : List Char)
  deriving DecidableEq

/-- A module: a `dict` with some of the keys. -/
abbrev MemoryModule := ModuleKey → Option ModuleEntry

/-- `{}`. -/
def MemoryModule.empty : MemoryModule := fun _ => none

/-- `current[key] = entry`. -/
def MemoryModule.set (m : MemoryModule) (key : ModuleKey) (entry : ModuleEntry) : MemoryModule :=
  Function.update m key (some entry)

@[simp] theorem MemoryModule.set_self (m : MemoryModule) (key : ModuleKey) (entry : ModuleEntry) :
    m.set key entry key = some entry := by
  rw [MemoryModule.set, Function.update_self]

theorem MemoryModule.set_of_ne (m : MemoryModule) {key key' : ModuleKey} (h : key' ≠ key)
    (entry : ModuleEntry) : m.set key entry key' = m key' := by
  rw [MemoryModule.set, Function.update_of_ne h]

/-- What a line does to an open module. -/
inductive LineEffect where
  /-- `int` raises on the digits. -/
  | raises
  /-- The slot is empty. -/
  | discards
  | sets (key : ModuleKey) (entry : ModuleEntry)
  /-- The model is set and the module is complete. -/
  | emits (entry : ModuleEntry)
  | nothing
  deriving DecidableEq

/-- An entry from `int(digits)`. -/
def setsNumber (key : ModuleKey) (digits : List Char) (unit : ℕ) : LineEffect :=
  match intOf digits with
  | none => .raises
  | some n => .sets key (.number (n * unit))

/-- The branches of the loop of `parse_dmidecode_memory` for a line below an opening. -/
def lineEffect (line : List Char) : LineEffect :=
  let (key, value) := fieldOf line
  if key = "Size".toList then
    match matchSize value with
    | none => .discards
    | some (digits, gb) => setsNumber .sizeMb digits (if gb then 1024 else 1)
  else if key = "Type".toList ∧ clean value ≠ none then .sets .type (.text value)
  else if key = "Speed".toList ∧ leadingDigits value ≠ [] then
    setsNumber .speedMt (leadingDigits value) 1
  else if key = "Manufacturer".toList ∧ clean value ≠ none then .sets .vendor (.text value)
  else if key = "Part Number".toList ∧ clean value ≠ none then .emits (.text (strip value))
  else .nothing

/-- `Memory Device`. -/
def deviceTitle : List Char := "Memory Device".toList

/-- `line.startswith("Memory Device")`. -/
def opensModule (line : List Char) : Bool := deviceTitle.isPrefixOf line

/-- `line.startswith("\t")`. -/
def isIndented (line : List Char) : Bool := line.head? = some '\t'

/-- The modules and the open one, behind a line with that effect. -/
def applyEffect (modules : List MemoryModule) (current : MemoryModule) :
    LineEffect → Option (List MemoryModule × Option MemoryModule)
  | .raises => none
  | .discards => some (modules, none)
  | .sets key entry => some (modules, some (current.set key entry))
  | .emits entry => some (modules ++ [current.set .model entry], none)
  | .nothing => some (modules, some current)

/-- The body of the loop of `parse_dmidecode_memory`, on `modules` and `current`. -/
def memoryStep (state : List MemoryModule × Option MemoryModule) (line : List Char) :
    Option (List MemoryModule × Option MemoryModule) :=
  if opensModule line then some (state.1, some .empty)
  else
    match state.2 with
    | none => some state
    | some current =>
      if !isIndented line then some state
      else applyEffect state.1 current (lineEffect line)

/-- `parse_dmidecode_memory`; `none` when it raises. -/
def parseDmidecodeMemory (text : List Char) : Option (List MemoryModule) :=
  ((splitlines text).foldlM memoryStep ([], none)).map Prod.fst

/-! ## Blocks -/

/-- An opening line, and the indented lines down to the next one. -/
structure MemoryBlock where
  title : List Char
  /-- Those that follow right below. -/
  own : List (List Char)
  lines : List (List Char)

/-- The blocks of a text. -/
def memoryBlocks : List (List Char) → List MemoryBlock
  | [] => []
  | line :: lines =>
    if opensModule line then
      { title := line
        own := lines.takeWhile isIndented
        lines := (lines.takeWhile fun l => !opensModule l).filter isIndented } ::
        memoryBlocks lines
    else memoryBlocks lines

/-- What becomes of an open module: it is sent off, or not; `none` when `int` raises. -/
def finish (current : MemoryModule) : List (List Char) → Option (Option MemoryModule)
  | [] => some none
  | line :: lines =>
    match lineEffect line with
    | .raises => none
    | .discards => some none
    | .sets key entry => finish (current.set key entry) lines
    | .emits entry => some (some (current.set .model entry))
    | .nothing => finish current lines

/-- What becomes of the module of a block. -/
def MemoryBlock.finished (b : MemoryBlock) : Option (Option MemoryModule) := finish .empty b.lines

theorem opensModule_of_isIndented {line : List Char} (h : isIndented line = true) :
    opensModule line = false := by
  have hstart : deviceTitle = 'M' :: "emory Device".toList := by decide +kernel
  have hhead : line.head? = some '\t' := of_decide_eq_true h
  obtain ⟨rest, rfl⟩ : ∃ rest, line = '\t' :: rest := by
    cases line with
    | nil => cases hhead
    | cons c rest => exact ⟨rest, by rw [Option.some.inj hhead]⟩
  rw [opensModule, hstart]
  rfl

/-- The lines right below an opening are the first ones of the block. -/
theorem own_isPrefix (lines : List (List Char)) :
    lines.takeWhile isIndented <+: (lines.takeWhile fun l => !opensModule l).filter isIndented := by
  induction lines with
  | nil => exact List.prefix_rfl
  | cons line lines ih =>
    by_cases hline : isIndented line = true
    · have hopens := opensModule_of_isIndented hline
      rw [List.takeWhile_cons_of_pos hline, List.takeWhile_cons_of_pos (by simp [hopens]),
        List.filter_cons_of_pos hline]
      exact (List.prefix_cons_inj line).2 ih
    · rw [List.takeWhile_cons_of_neg hline]
      exact List.nil_prefix

/-- The loop, from a module that is open or not. -/
theorem foldlM_memoryStep (lines : List (List Char)) (modules : List MemoryModule)
    (current : Option MemoryModule) :
    (lines.foldlM memoryStep (modules, current)).map Prod.fst =
      (current.elim (some none) fun m =>
          finish m ((lines.takeWhile fun l => !opensModule l).filter isIndented)).bind fun first =>
        ((memoryBlocks lines).mapM MemoryBlock.finished).map fun rest =>
          modules ++ first.toList ++ rest.filterMap id := by
  induction lines generalizing modules current with
  | nil => cases current <;> simp [finish, memoryBlocks]
  | cons line lines ih =>
    rw [List.foldlM_cons, memoryBlocks]
    by_cases hopens : opensModule line = true
    · -- the module before it, if any, is never sent off
      have hstep : memoryStep (modules, current) line = some (modules, some .empty) := by
        rw [memoryStep, if_pos hopens]
      have hfirst : (current.elim (some none) fun m => finish m
          (((line :: lines).takeWhile fun l => !opensModule l).filter isIndented)) =
            some none := by
        rw [List.takeWhile_cons_of_neg (by simp [hopens])]
        cases current <;> rfl
      rw [hstep, if_pos hopens, hfirst, Option.bind_eq_bind, Option.bind_some, ih,
        Option.bind_some, List.mapM_cons]
      show (finish .empty _).bind _ = Option.map _ ((finish .empty _).bind _)
      cases finish .empty ((lines.takeWhile fun l => !opensModule l).filter isIndented) with
      | none => rfl
      | some first =>
        cases (memoryBlocks lines).mapM MemoryBlock.finished with
        | none => rfl
        | some rest => cases first <;> simp
    · rw [if_neg hopens, List.takeWhile_cons_of_pos (by simp [hopens])]
      cases current with
      | none =>
        have hstep : memoryStep (modules, none) line = some (modules, none) := by
          rw [memoryStep, if_neg hopens]
        rw [hstep, Option.bind_eq_bind, Option.bind_some, ih]
        rfl
      | some m =>
        by_cases hindented : isIndented line = true
        · rw [List.filter_cons_of_pos hindented]
          have hstep : memoryStep (modules, some m) line =
              applyEffect modules m (lineEffect line) := by
            rw [memoryStep, if_neg hopens]
            exact if_neg (by simp [hindented])
          rw [hstep, Option.elim_some, finish]
          cases lineEffect line with
          | raises => rfl
          | discards => exact ih modules none
          | sets key entry => exact ih modules (some (m.set key entry))
          | emits entry =>
            refine (ih (modules ++ [m.set .model entry]) none).trans ?_
            simp
          | nothing => exact ih modules (some m)
        · have hstep : memoryStep (modules, some m) line = some (modules, some m) := by
            rw [memoryStep, if_neg hopens]
            exact if_pos (by simp [hindented])
          rw [hstep, List.filter_cons_of_neg hindented, Option.bind_eq_bind, Option.bind_some, ih]

/-- **`parse_dmidecode_memory`** finishes the module of each block. -/
theorem parseDmidecodeMemory_eq (text : List Char) :
    parseDmidecodeMemory text =
      ((memoryBlocks (splitlines text)).mapM MemoryBlock.finished).map fun found =>
        found.filterMap id := by
  rw [parseDmidecodeMemory, foldlM_memoryStep]
  rfl

end OoAgent
