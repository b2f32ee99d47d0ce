import OoAgent.Lib.Scan
import OoAgent.Lib.Dict
import OoAgent.Python.Digits

/-!
# Readings of the `gddr6` tool

The tool prints a line for each device, with its PCI bus, and then a row of readings for each
poll.  `parse_gddr6_output` finds the buses and the readings with two regular expressions and
brings them together by their positions.

* `deviceBuses`, `tempReadings` — `_GDDR6_DEVICE_RE` and `_GDDR6_TEMP_RE`.
* `parseGddr6Output`, `takeTemp` — the matching, and the look-up in the loop of `collect`.
* `Gddr6Output` — what the tool prints; `deviceBuses_text`, `tempReadings_text` — what the
  regular expressions find in it.
-/

namespace OoAgent

open PyText Scan

/-! ## The regular expressions -/

/-- `[0-9a-fA-F]`. -/
def isHexDigit (c : Char) : Bool :=
  c.isDigit || (decide ('a' ≤ c) && decide (c ≤ 'f')) || (decide ('A' ≤ c) && decide (c ≤ 'F'))

/-- The value of a hexadecimal digit. -/
def hexDigit (c : Char) : ℕ :=
  if c.isDigit then c.toNat - 48 else if 'a' ≤ c then c.toNat - 87 else c.toNat - 55

/-- `int(digits, 16)`. -/
def hexValue (digits : List Char) : ℕ := digits.foldl (fun n c => 16 * n + hexDigit c) 0

/-- What the line of a device begins with, and what its bus stands behind. -/
def deviceName : List Char := "Device: ".toList

def pciName : List Char := " pci=".toList

theorem deviceName_eq : deviceName = ['D', 'e', 'v', 'i', 'c', 'e', ':', ' '] := by decide +kernel

theorem pciName_eq : pciName = [' ', 'p', 'c', 'i', '='] := by decide +kernel

/-- ` pci=([0-9a-fA-F]+):` at the start of a text. -/
def pciAt (s : List Char) : Option (List Char) :=
  let digits := (s.drop 5).takeWhile isHexDigit
  if pciName.isPrefixOf s = true ∧ digits ≠ [] ∧
      (s.drop (5 + digits.length)).head? = some ':' then some digits
  else none

/-- The last match of it: the `.+` in front takes all it can. -/
def lastPci : List Char → Option (List Char)
  | [] => none
  | c :: cs => (lastPci cs).or (pciAt (c :: cs))

/-- `_GDDR6_DEVICE_RE` on a line: the `.+` takes at least one character. -/
def deviceBus (line : List Char) : Option ℕ :=
  if deviceName.isPrefixOf line then (lastPci (line.drop 9)).map hexValue else none

/-- The bus numbers in a text. -/
def deviceBuses (text : List Char) : List ℕ := (split '\n' text).filterMap deviceBus

/-- `\d`. -/
def isDecimal (c : Char) : Bool := (decimal c).isSome

/-- `float(digits)`. -/
def decimalValue (digits : List Char) : ℕ :=
  digits.foldl (fun n c => 10 * n + (decimal c).getD 0) 0

/-- `_GDDR6_TEMP_RE` at the start of a text: the reading, and how much matches. -/
def tempAt (s : List Char) : Option (ℕ × ℕ) :=
  let digits := s.takeWhile isDecimal
  let rest := s.dropWhile isDecimal
  if digits ≠ [] ∧ "°C".toList.isPrefixOf (lstrip rest) = true then
    some (decimalValue digits, digits.length + (rest.takeWhile isSpace).length + 2)
  else none

/-- The readings in a text. -/
def tempReadings (text : List Char) : List ℕ := scan tempAt text

/-! ## Matching -/

/-- `0 < t <= 150`. -/
def Plausible (t : ℕ) : Prop := 0 < t ∧ t ≤ 150

instance (t : ℕ) : Decidable (Plausible t) := inferInstanceAs (Decidable (_ ∧ _))

/-- `parse_gddr6_output`: the readings are cut to the number of buses, filtered, and then zipped
with the buses. -/
def parseGddr6Output (text : List Char) : Dict ℕ ℕ × List ℕ :=
  let buses := deviceBuses text
  let temps := ((tempReadings text).take buses.length).filter fun t => Plausible t
  (Dict.update [] (buses.zip temps), temps)

/-- What the loop of `collect` takes for a GPU, from its bus if that is known, or else from its
index. -/
def takeTemp (gddr6 : Dict ℕ ℕ × List ℕ) (bus : Option ℕ) (index : ℕ) : Option ℕ :=
  match bus.bind gddr6.1.get with
  | some temp => some temp
  | none => gddr6.2[index]?

/-! ## What the tool prints -/

/-- The line of a device. -/
structure DeviceLine where
  model : List Char
  digits : List Char
  rest : List Char
  model_plain : model ≠ [] ∧ '\n' ∉ model ∧ '°' ∉ model
  digits_hex : digits ≠ [] ∧ digits.all isHexDigit = true
  rest_plain : '\n' ∉ rest ∧ '°' ∉ rest ∧ '=' ∉ rest

namespace DeviceLine

/-- `Device: <model> pci=<digits>:<rest>`. -/
def text (line : DeviceLine) : List Char :=
  deviceName ++ (line.model ++ (pciName ++ (line.digits ++ ':' :: line.rest)))

def bus (line : DeviceLine) : ℕ := hexValue line.digits

end DeviceLine

/-- A reading in a row. -/
structure Cell where
  pad : ℕ
  digits : List Char
  digits_plain : digits ≠ [] ∧ digits.all Char.isDigit = true

namespace Cell

def text (cell : Cell) : List Char :=
  List.replicate cell.pad ' ' ++ (cell.digits ++ "°C |".toList)

def value (cell : Cell) : ℕ := asciiValue cell.digits

end Cell

/-- A row of readings; it may begin anew on its line. -/
structure TempRow where
  cells : List Cell
  newline : Bool

namespace TempRow

def text (row : TempRow) : List Char :=
  "VRAM Temps: |".toList ++ (row.cells.flatMap Cell.text ++ [if row.newline then '\n' else '\r'])

def values (row : TempRow) : List ℕ := row.cells.map Cell.value

end TempRow

/-- What the tool prints: the devices, and rows with a reading for each. -/
structure Gddr6Output where
  devices : List DeviceLine
  rows : List TempRow
  aligned : ∀ row ∈ rows, row.cells.length = devices.length

namespace Gddr6Output

def deviceText (out : Gddr6Output) : List Char :=
  out.devices.flatMap fun line => line.text ++ ['\n']

def rowText (rows : List TempRow) : List Char := rows.flatMap TempRow.text

def text (out : Gddr6Output) : List Char := out.deviceText ++ rowText out.rows

def buses (out : Gddr6Output) : List ℕ := out.devices.map DeviceLine.bus

/-- The readings of the first row, by their columns. -/
def readings (out : Gddr6Output) : List ℕ := out.rows.head?.toList.flatMap TempRow.values

end Gddr6Output

/-! ## The readings of a text -/

theorem tempAt_of_notDecimal {c : Char} {s : List Char} (hc : isDecimal c = false) :
    tempAt (c :: s) = none := by
  rw [tempAt, List.takeWhile_cons_of_neg (by simp [hc])]
  exact if_neg fun h => h.1 rfl

/-- Text without a digit has no reading. -/
theorem scan_tempAt_plain {before : List Char} (hbefore : before.all (fun c => !isDecimal c) = true)
    (s : List Char) : scan tempAt (before ++ s) = scan tempAt s := by
  refine scan_append_of_none fun t hne ht => ?_
  obtain ⟨c, t, rfl⟩ := List.exists_cons_of_ne_nil hne
  have hc := List.all_eq_true.1 hbefore c (ht.subset List.mem_cons_self)
  exact tempAt_of_notDecimal (by simpa using hc)

/-- A text of lines without a degree sign has no reading, unless one comes behind it. -/
theorem tempAt_lines {t s : List Char} (hlast : '\n' ∈ t) (ht : '°' ∉ t)
    (hs : (lstrip s).head? ≠ some '°') : tempAt (t ++ s) = none := by
  -- the digits end before the end of the line
  have hstop : t.dropWhile isDecimal ≠ [] := fun h =>
    absurd (List.dropWhile_eq_nil_iff.1 h '\n' hlast) (by decide)
  have hdrop : (t ++ s).dropWhile isDecimal = t.dropWhile isDecimal ++ s := by
    rw [List.dropWhile_append, if_neg (by simpa using hstop)]
  unfold tempAt
  rw [hdrop]
  refine if_neg fun h => ?_
  obtain ⟨after, hafter⟩ := List.isPrefixOf_iff_prefix.1 h.2
  have hhead : (lstrip (t.dropWhile isDecimal ++ s)).head? = some '°' := by
    rw [← hafter]
    rfl
  rw [lstrip, List.dropWhile_append] at hhead
  split_ifs at hhead with hblank
  · exact hs hhead
  · rw [List.head?_append_of_ne_nil _ (by simpa using hblank)] at hhead
    exact ht (List.dropWhile_subset _ (List.dropWhile_subset _ (List.mem_of_head? hhead)))

theorem decimalValue_ascii {digits : List Char} (h : digits.all Char.isDigit = true) :
    decimalValue digits = asciiValue digits := by
  unfold decimalValue asciiValue
  refine List.foldl_ext _ _ _ fun n c hc => ?_
  rw [decimal_ascii (List.all_eq_true.1 h c hc), Option.getD_some]

/-- **A cell** has its reading. -/
theorem scan_cell (cell : Cell) (s : List Char) :
    scan tempAt (cell.text ++ s) = cell.value :: scan tempAt s := by
  have hline : cell.text ++ s = List.replicate cell.pad ' ' ++
      ((cell.digits ++ ['°', 'C']) ++ ([' ', '|'] ++ s)) := by
    simp [Cell.text]
  have hdecimal : ∀ c ∈ cell.digits, isDecimal c = true := fun c hc => by
    rw [isDecimal, decimal_ascii (List.all_eq_true.1 cell.digits_plain.2 c hc)]
    rfl
  have hdegree : isDecimal '°' = false := by decide
  have hpad : (List.replicate cell.pad ' ').all (fun c => !isDecimal c) = true := by
    rw [List.all_eq_true]
    intro c hc
    rw [List.eq_of_mem_replicate hc]
    decide
  have hstep : tempAt ((cell.digits ++ ['°', 'C']) ++ ([' ', '|'] ++ s)) =
      some (cell.value, (cell.digits ++ ['°', 'C']).length) := by
    have htake : ((cell.digits ++ ['°', 'C']) ++ ([' ', '|'] ++ s)).takeWhile isDecimal =
        cell.digits := by
      rw [List.append_assoc, List.takeWhile_append_of_pos hdecimal]
      simp [hdegree]
    have hdrop : ((cell.digits ++ ['°', 'C']) ++ ([' ', '|'] ++ s)).dropWhile isDecimal =
        '°' :: 'C' :: ([' ', '|'] ++ s) := by
      rw [List.append_assoc, List.dropWhile_append_of_pos hdecimal]
      simp [hdegree]
    have hspace : isSpace '°' = false := by decide
    rw [tempAt, htake, hdrop, if_pos ⟨cell.digits_plain.1, by simp [lstrip, hspace]⟩,
      decimalValue_ascii cell.digits_plain.2]
    simp [hspace, Cell.value]
  rw [hline, scan_tempAt_plain hpad, scan_append_of_some (by simp) hstep,
    scan_tempAt_plain (by decide)]

/-- **A row** has its readings. -/
theorem scan_row (row : TempRow) (s : List Char) :
    scan tempAt (row.text ++ s) = row.values ++ scan tempAt s := by
  have hcells (cells : List Cell) (s : List Char) :
      scan tempAt (cells.flatMap Cell.text ++ s) = cells.map Cell.value ++ scan tempAt s := by
    induction cells with
    | nil => rfl
    | cons cell cells ih =>
      rw [List.flatMap_cons, List.append_assoc, scan_cell, ih, List.map_cons, List.cons_append]
  have hend : [if row.newline then '\n' else '\r'].all (fun c => !isDecimal c) = true := by
    cases row.newline <;> decide
  have hname : "VRAM Temps: |".toList.all (fun c => !isDecimal c) = true := by decide +kernel
  unfold TempRow.text TempRow.values
  generalize "VRAM Temps: |".toList = name at hname
  rw [List.append_assoc, scan_tempAt_plain hname, List.append_assoc, hcells,
    scan_tempAt_plain hend]

theorem scan_rows (rows : List TempRow) :
    scan tempAt (Gddr6Output.rowText rows) = rows.flatMap TempRow.values := by
  induction rows with
  | nil => rfl
  | cons row rows ih =>
    rw [Gddr6Output.rowText, List.flatMap_cons, scan_row, List.flatMap_cons]
    exact congrArg (row.values ++ ·) ih

namespace Gddr6Output

theorem degree_notMem_deviceText (out : Gddr6Output) : '°' ∉ out.deviceText := by
  have hfixed : '°' ∉ deviceName ∧ '°' ∉ pciName := by decide +kernel
  intro h
  obtain ⟨line, -, hline⟩ := List.mem_flatMap.1 h
  have hhex : '°' ∉ line.digits := fun hmem =>
    absurd (List.all_eq_true.1 line.digits_hex.2 '°' hmem) (by decide)
  have htext : '°' ∉ line.text := by
    unfold DeviceLine.text
    simp only [List.mem_append, List.mem_cons, not_or]
    exact ⟨hfixed.1, line.model_plain.2.2, hfixed.2, hhex, by decide, line.rest_plain.2.1⟩
  rcases List.mem_append.1 hline with hline | hline
  · exact htext hline
  · exact absurd (List.mem_singleton.1 hline) (by decide)

/-- **The readings in what the tool prints** are those of its rows, row by row. -/
theorem tempReadings_text (out : Gddr6Output) :
    tempReadings out.text = out.rows.flatMap TempRow.values := by
  have hrows : (lstrip (rowText out.rows)).head? ≠ some '°' := by
    cases out.rows with
    | nil => simp [rowText, lstrip]
    | cons row rows =>
      obtain ⟨text, htext⟩ : ∃ text, rowText (row :: rows) = 'V' :: text := ⟨_, rfl⟩
      have hletter : isSpace 'V' = false := by decide
      simp [htext, lstrip, hletter]
  rw [tempReadings, text, ← scan_rows]
  refine scan_append_of_none fun t hne ht => tempAt_lines ?_
    (fun h => out.degree_notMem_deviceText (ht.subset h)) hrows
  -- what is left of the lines ends with the end of the last one
  obtain ⟨before, hbefore⟩ := ht
  rcases List.eq_nil_or_concat out.devices with hnil | ⟨lines, line, hlines⟩
  · rw [deviceText, hnil] at hbefore
    exact absurd (List.append_eq_nil_iff.1 hbefore).2 hne
  · have hlast := congrArg List.getLast? hbefore
    rw [deviceText, hlines, List.concat_eq_append, List.flatMap_append, List.flatMap_singleton,
      ← List.append_assoc, List.getLast?_concat, List.getLast?_append] at hlast
    obtain ⟨c, hc⟩ := Option.ne_none_iff_exists'.1 (mt List.getLast?_eq_none_iff.1 hne)
    rw [hc] at hlast
    obtain rfl : c = '\n' := by simpa using hlast
    exact List.mem_of_getLast? hc

end Gddr6Output

/-! ## The buses of a text -/

theorem pciAt_of_ne {c : Char} {s : List Char} (hc : c ≠ ' ') : pciAt (c :: s) = none := by
  refine if_neg fun h => ?_
  obtain ⟨after, hafter⟩ := List.isPrefixOf_iff_prefix.1 h.1
  exact hc (List.cons.inj hafter).1.symm

theorem pciAt_plain {s : List Char} (hs : '=' ∉ s) : pciAt s = none := by
  refine if_neg fun h => hs ?_
  exact (List.isPrefixOf_iff_prefix.1 h.1).subset (by decide)

/-- A line without an `=` has no bus. -/
theorem lastPci_plain {s : List Char} (hs : '=' ∉ s) : lastPci s = none := by
  induction s with
  | nil => rfl
  | cons c s ih =>
    rw [lastPci, ih (fun h => hs (List.mem_cons_of_mem _ h)), pciAt_plain hs]
    rfl

/-- Text without a blank in it adds no match. -/
theorem lastPci_append_of_plain {before s : List Char} (hbefore : ' ' ∉ before) :
    lastPci (before ++ s) = lastPci s := by
  induction before with
  | nil => rfl
  | cons c before ih =>
    rw [List.mem_cons, not_or] at hbefore
    rw [List.cons_append, lastPci, ih hbefore.2, pciAt_of_ne (Ne.symm hbefore.1), Option.or_none]

/-- The last match stays the last one, whatever comes before it. -/
theorem lastPci_append {s digits : List Char} (h : lastPci s = some digits) (before : List Char) :
    lastPci (before ++ s) = some digits := by
  induction before with
  | nil => exact h
  | cons c before ih => rw [List.cons_append, lastPci, ih, Option.some_or]

theorem isHexDigit_notMem {digits : List Char} (h : digits.all isHexDigit = true) :
    ' ' ∉ digits ∧ '\n' ∉ digits :=
  ⟨fun hmem => absurd (List.all_eq_true.1 h _ hmem) (by decide),
    fun hmem => absurd (List.all_eq_true.1 h _ hmem) (by decide)⟩

/-- The bus is found where it is printed. -/
theorem lastPci_bus (line : DeviceLine) :
    lastPci (pciName ++ (line.digits ++ ':' :: line.rest)) = some line.digits := by
  have hshape : pciName ++ (line.digits ++ ':' :: line.rest) =
      ' ' :: ((['p', 'c', 'i', '='] ++ (line.digits ++ [':'])) ++ line.rest) := by
    rw [pciName_eq]
    simp
  have hbehind : lastPci ((['p', 'c', 'i', '='] ++ (line.digits ++ [':'])) ++ line.rest) =
      none := by
    rw [lastPci_append_of_plain, lastPci_plain line.rest_plain.2.2]
    simp [(isHexDigit_notMem line.digits_hex.2).1]
  have hdrop : (' ' :: ((['p', 'c', 'i', '='] ++ (line.digits ++ [':'])) ++ line.rest)).drop 5 =
      line.digits ++ ':' :: line.rest := by simp
  have hcolon : isHexDigit ':' = false := by decide
  have htake : (line.digits ++ ':' :: line.rest).takeWhile isHexDigit = line.digits := by
    rw [List.takeWhile_append_of_pos (List.all_eq_true.1 line.digits_hex.2)]
    simp [hcolon]
  have hat : pciAt (' ' :: ((['p', 'c', 'i', '='] ++ (line.digits ++ [':'])) ++ line.rest)) =
      some line.digits := by
    unfold pciAt
    simp only [hdrop, htake, ← List.drop_drop, pciName_eq]
    simp [line.digits_hex.1]
  rw [hshape, lastPci, hbehind, Option.none_or, hat]

/-- **The bus of a device line.** -/
theorem deviceBus_text (line : DeviceLine) : deviceBus line.text = some line.bus := by
  obtain ⟨c, model, hmodel⟩ := List.exists_cons_of_ne_nil line.model_plain.1
  have hshape : line.text = ['D', 'e', 'v', 'i', 'c', 'e', ':', ' '] ++
      (c :: model ++ (pciName ++ (line.digits ++ ':' :: line.rest))) := by
    rw [DeviceLine.text, hmodel, deviceName_eq]
  have hdrop : line.text.drop 9 =
      model ++ (pciName ++ (line.digits ++ ':' :: line.rest)) := by
    rw [hshape]
    rfl
  rw [deviceBus, deviceName_eq, hdrop, lastPci_append (lastPci_bus line), hshape]
  rfl

theorem newline_notMem_text (line : DeviceLine) : '\n' ∉ line.text := by
  rw [DeviceLine.text, deviceName_eq, pciName_eq]
  simp [line.model_plain.2.1, (isHexDigit_notMem line.digits_hex.2).2, line.rest_plain.1]

namespace Gddr6Output

theorem equals_notMem_rowText (rows : List TempRow) : '=' ∉ rowText rows := by
  have hcell (cell : Cell) : '=' ∉ cell.text := by
    have hdigits : '=' ∉ cell.digits := fun h =>
      absurd (List.all_eq_true.1 cell.digits_plain.2 _ h) (by decide)
    have hunit : '=' ∉ "°C |".toList := by decide +kernel
    unfold Cell.text
    generalize "°C |".toList = unit at hunit
    simp [hdigits, hunit]
  have hname : '=' ∉ "VRAM Temps: |".toList := by decide +kernel
  intro h
  obtain ⟨row, -, hrow⟩ := List.mem_flatMap.1 h
  unfold TempRow.text at hrow
  generalize "VRAM Temps: |".toList = name at hname hrow
  rcases List.mem_append.1 hrow with hrow | hrow
  · exact hname hrow
  · rcases List.mem_append.1 hrow with hrow | hrow
    · obtain ⟨cell, -, hmem⟩ := List.mem_flatMap.1 hrow
      exact hcell cell hmem
    · cases hnewline : row.newline <;> simp [hnewline] at hrow

/-- **The buses in what the tool prints** are those of its device lines. -/
theorem deviceBuses_text (out : Gddr6Output) : deviceBuses out.text = out.buses := by
  have hlines (lines : List DeviceLine) :
      (split '\n' ((lines.flatMap fun line => line.text ++ ['\n']) ++
        rowText out.rows)).filterMap deviceBus = lines.map DeviceLine.bus := by
    induction lines with
    | nil =>
      rw [List.flatMap_nil, List.nil_append, List.map_nil, List.filterMap_eq_nil_iff]
      intro piece hpiece
      have hplain : '=' ∉ piece := fun h =>
        equals_notMem_rowText out.rows (mem_of_mem_split hpiece h)
      rw [deviceBus, lastPci_plain fun h => hplain (List.mem_of_mem_drop h)]
      exact ite_self _
    | cons line lines ih =>
      have hshape : ((line :: lines).flatMap fun line => line.text ++ ['\n']) ++ rowText out.rows =
          line.text ++ '\n' :: ((lines.flatMap fun line => line.text ++ ['\n']) ++
            rowText out.rows) := by simp
      rw [hshape, split_append_cons (newline_notMem_text line), List.filterMap_cons,
        deviceBus_text, ih, List.map_cons]
  exact hlines out.devices

end Gddr6Output

example : parseGddr6Output
    "Device: RTX 3090 GDDR6X (GA102 / 0x2204) pci=84:0:0\nVRAM Temps: |  40°C |\r".toList =
      ([(0x84, 40)], [40]) := by decide +kernel

end OoAgent
