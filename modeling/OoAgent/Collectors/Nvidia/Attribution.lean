import OoAgent.Collectors.Nvidia.Devices

/-!
# Whose VRAM temperature it is

The readings of the `gddr6` tool come in columns, one for each device line.  `collect` matches
them to the GPUs by the bus of the line; but implausible readings are dropped first, and what
is left moves up.  A GPU whose bus is not among the lines that still have a reading is given
one by its index.

* `Shows`, `rank`, `Place` — what a column shows, the plausible readings in front of it, and
  where the reading for a GPU is looked for.
* `takeTemp_eq` — **what is taken** is the plausible reading in that place.
* `vram_temps_of_columns_iff` — **a GPU is given the reading of its own column**, exactly when
  the readings in front of the column are as many as its place.
-/

namespace OoAgent

/-- An element that is kept is in the place of the number of those kept before it. -/
theorem getElem?_filter_eq_some {α : Type} {l : List α} {p : α → Bool} {r : ℕ} {a : α} :
    (l.filter p)[r]? = some a ↔ ∃ c, l[c]? = some a ∧ p a = true ∧ (l.take c).countP p = r := by
  induction l generalizing r with
  | nil => simp
  | cons b l ih =>
    constructor
    · intro h
      by_cases hb : p b = true
      · rw [List.filter_cons_of_pos hb] at h
        cases r with
        | zero =>
          obtain rfl := Option.some.inj h
          exact ⟨0, rfl, hb, rfl⟩
        | succ r =>
          obtain ⟨c, hc, ha, hcount⟩ := ih.1 h
          refine ⟨c + 1, hc, ha, ?_⟩
          rw [List.take_succ_cons, List.countP_cons_of_pos hb, hcount]
      · rw [List.filter_cons_of_neg hb] at h
        obtain ⟨c, hc, ha, hcount⟩ := ih.1 h
        refine ⟨c + 1, hc, ha, ?_⟩
        rw [List.take_succ_cons, List.countP_cons_of_neg hb, hcount]
    · rintro ⟨c, hc, ha, hcount⟩
      cases c with
      | zero =>
        obtain rfl := Option.some.inj hc
        obtain rfl : 0 = r := hcount
        rw [List.filter_cons_of_pos ha]
        rfl
      | succ c =>
        rw [List.take_succ_cons] at hcount
        by_cases hb : p b = true
        · rw [List.countP_cons_of_pos hb] at hcount
          subst hcount
          rw [List.filter_cons_of_pos hb]
          exact ih.2 ⟨c, hc, ha, rfl⟩
        · rw [List.countP_cons_of_neg hb] at hcount
          rw [List.filter_cons_of_neg hb]
          exact ih.2 ⟨c, hc, ha, hcount⟩

namespace Gddr6Output

variable {out : Gddr6Output} {index bus : ℕ}

/-! ## Columns and places -/

/-- The column shows a plausible reading. -/
def Shows (out : Gddr6Output) (column temp : ℕ) : Prop :=
  out.readings[column]? = some temp ∧ Plausible temp

/-- A column on the bus shows the reading. -/
def ShowsOn (out : Gddr6Output) (bus temp : ℕ) : Prop :=
  ∃ column, out.buses[column]? = some bus ∧ out.Shows column temp

/-- The number of plausible readings in front of a column. -/
def rank (out : Gddr6Output) (column : ℕ) : ℕ :=
  (out.readings.take column).countP fun t => Plausible t

/-- The number of plausible readings. -/
def shown (out : Gddr6Output) : ℕ := out.readings.countP fun t => Plausible t

/-- One of the first lines, as many as there are plausible readings, is on the bus. -/
def Listed (out : Gddr6Output) (bus line : ℕ) : Prop :=
  line < out.shown ∧ out.buses[line]? = some bus

/-- Where the reading for a GPU is looked for among the plausible ones: under its last line that
has one, or else under its index. -/
def Place (out : Gddr6Output) (index bus place : ℕ) : Prop :=
  (out.Listed bus place ∧ ∀ line, out.Listed bus line → line ≤ place) ∨
    place = index ∧ ∀ line, ¬ out.Listed bus line

/-- What is taken for a GPU is a reading of its bus, and nothing where its bus shows none. -/
structure FromColumn (out : Gddr6Output) (bus : ℕ) (taken : Option ℕ) : Prop where
  own : ∀ temp, taken = some temp → out.ShowsOn bus temp
  absent : taken = none → ∀ temp, ¬ out.ShowsOn bus temp

/-- The place of a GPU is that of a reading its bus shows, or there is none for it and none is
due. -/
inductive Attributed (out : Gddr6Output) (index bus : ℕ) : Prop
  /-- The column in this place shows what a column on the bus shows. -/
  | shown {column temp : ℕ} (place : out.Place index bus (out.rank column))
      (shows : out.Shows column temp) (own : out.ShowsOn bus temp)
  /-- No line on the bus has a reading, and the index is past the readings. -/
  | absent (unlisted : ∀ line, ¬ out.Listed bus line) (past : out.shown ≤ index)
      (none : ∀ temp, ¬ out.ShowsOn bus temp)

/-! ## What is taken -/

/-- The readings left after the filter. -/
def kept (out : Gddr6Output) : List ℕ := out.readings.filter fun t => Plausible t

theorem length_kept (out : Gddr6Output) : out.kept.length = out.shown :=
  List.countP_eq_length_filter.symm

/-- A plausible reading is in the place of the number of those in front of its column. -/
theorem getElem?_kept {place temp : ℕ} :
    out.kept[place]? = some temp ↔
      ∃ column, out.Shows column temp ∧ out.rank column = place := by
  rw [kept, getElem?_filter_eq_some]
  refine exists_congr fun column => ?_
  rw [Shows, rank, and_assoc, decide_eq_true_iff]

/-- A row has a reading for each line. -/
theorem length_readings (hrows : out.rows ≠ []) : out.readings.length = out.buses.length := by
  obtain ⟨row, rows, hcons⟩ := List.exists_cons_of_ne_nil hrows
  have hreadings : out.readings = row.values := by simp [readings, hcons]
  rw [hreadings, TempRow.values, buses, List.length_map, List.length_map]
  exact out.aligned row (by simp [hcons])

theorem parseGddr6Output_text (out : Gddr6Output) :
    parseGddr6Output out.text = (Dict.update [] (out.buses.zip out.kept), out.kept) := by
  have hfirst : (out.rows.flatMap TempRow.values).take out.buses.length = out.readings := by
    cases hrows : out.rows with
    | nil => simp [readings, hrows]
    | cons row rows =>
      have hreadings : out.readings = row.values := by simp [readings, hrows]
      have hlength := out.length_readings (by simp [hrows])
      rw [List.flatMap_cons, ← hlength, hreadings, List.take_left]
  rw [parseGddr6Output, deviceBuses_text, tempReadings_text, hfirst, kept]

/-- A line with a reading is a pair of the zipped lists. -/
theorem listed_iff {line : ℕ} :
    out.Listed bus line ↔ ∃ temp, (out.buses.zip out.kept)[line]? = some (bus, temp) := by
  rw [Listed, ← length_kept]
  constructor
  · rintro ⟨hlt, hbus⟩
    exact ⟨out.kept[line], List.getElem?_zip_eq_some.2 ⟨hbus, List.getElem?_eq_getElem hlt⟩⟩
  · rintro ⟨temp, htemp⟩
    obtain ⟨hbus, htemp⟩ := List.getElem?_zip_eq_some.1 htemp
    exact ⟨(List.getElem?_eq_some_iff.1 htemp).1, hbus⟩

/-- **What is taken for a GPU** is the plausible reading in its place. -/
theorem takeTemp_eq (out : Gddr6Output) (index bus : ℕ) :
    ∃ place, out.Place index bus place ∧
      takeTemp (parseGddr6Output out.text) (some bus) index = out.kept[place]? := by
  rw [parseGddr6Output_text]
  unfold takeTemp
  rw [Option.bind_some]
  cases hget : Dict.get (Dict.update [] (out.buses.zip out.kept)) bus with
  | none =>
    refine ⟨index, .inr ⟨rfl, fun line hline => ?_⟩, rfl⟩
    obtain ⟨temp, htemp⟩ := listed_iff.1 hline
    obtain ⟨_, -, hsome⟩ :=
      Dict.get_update_mem (List.mem_map_of_mem (List.mem_of_getElem? htemp)) []
    rw [hget] at hsome
    exact absurd hsome (by simp)
  | some temp =>
    -- the last write of the bus is that of its last line with a reading
    obtain ⟨before, after, hzip, hafter⟩ := Dict.get_update_eq_some.1 hget
    have hplace : (out.buses.zip out.kept)[before.length]? = some (bus, temp) := by
      simp [hzip]
    refine ⟨before.length, .inl ⟨listed_iff.2 ⟨temp, hplace⟩, fun line hline => ?_⟩,
      (List.getElem?_zip_eq_some.1 hplace).2.symm⟩
    obtain ⟨later, hlater⟩ := listed_iff.1 hline
    by_contra hlt
    rw [hzip, List.getElem?_append_right (by omega)] at hlater
    obtain ⟨k, hk⟩ : ∃ k, line - before.length = k + 1 := ⟨line - before.length - 1, by omega⟩
    rw [hk, List.getElem?_cons_succ] at hlater
    exact hafter (List.mem_map_of_mem (List.mem_of_getElem? hlater))

theorem Place.unique {place place' : ℕ} (h : out.Place index bus place)
    (h' : out.Place index bus place') : place = place' := by
  rcases h with ⟨hline, hlast⟩ | ⟨rfl, hnone⟩ <;> rcases h' with ⟨hline', hlast'⟩ | ⟨rfl, hnone'⟩
  · exact le_antisymm (hlast' _ hline) (hlast _ hline')
  · exact absurd hline (hnone' _)
  · exact absurd hline' (hnone _)
  · rfl

/-- **A GPU is given the reading of its own column**, exactly when it is attributed. -/
theorem fromColumn_iff (out : Gddr6Output) (index bus : ℕ) :
    out.FromColumn bus (takeTemp (parseGddr6Output out.text) (some bus) index) ↔
      out.Attributed index bus := by
  obtain ⟨place, hplace, htaken⟩ := out.takeTemp_eq index bus
  rw [htaken]
  constructor
  · rintro ⟨hown, habsent⟩
    cases hget : out.kept[place]? with
    | some temp =>
      obtain ⟨column, hshows, rfl⟩ := getElem?_kept.1 hget
      exact .shown hplace hshows (hown temp hget)
    | none =>
      have hpast : out.shown ≤ place := by
        rw [← length_kept]
        exact List.getElem?_eq_none_iff.1 hget
      rcases hplace with ⟨hline, -⟩ | ⟨rfl, hnone⟩
      · exact absurd hline.1 (by omega)
      · exact .absent hnone hpast (habsent hget)
  · intro hattributed
    cases hattributed with
    | @shown column temp hplace' hshows hown =>
      have hget : out.kept[place]? = some temp :=
        getElem?_kept.2 ⟨column, hshows, hplace'.unique hplace⟩
      rw [hget]
      refine ⟨fun t ht => ?_, fun h => absurd h (by simp)⟩
      rwa [← Option.some.inj ht]
    | absent hunlisted hpast hnone =>
      obtain rfl : index = place := Place.unique (.inr ⟨rfl, hunlisted⟩) hplace
      have hget : out.kept[index]? = none := by
        rw [List.getElem?_eq_none_iff, length_kept]
        exact hpast
      rw [hget]
      exact ⟨fun t ht => absurd ht (by simp), fun _ => hnone⟩

/-- Plausible readings only: a GPU on the bus of a line is attributed. -/
theorem attributed_of_plausible (hall : ∀ t ∈ out.readings, Plausible t) (hbus : bus ∈ out.buses)
    (hrows : out.rows ≠ []) : out.Attributed index bus := by
  have hshown : out.shown = out.readings.length :=
    List.countP_eq_length.2 fun t ht => decide_eq_true (hall t ht)
  obtain ⟨line, hline⟩ := List.mem_iff_getElem?.1 hbus
  have hlisted : out.Listed bus line := by
    refine ⟨?_, hline⟩
    rw [hshown, length_readings hrows]
    exact (List.getElem?_eq_some_iff.1 hline).1
  obtain ⟨place, hplace, -⟩ := out.takeTemp_eq index bus
  rcases hplace with ⟨hown, hlast⟩ | ⟨-, hnone⟩
  · -- every reading stays in the place of its column
    have hlt : place < out.readings.length := hshown ▸ hown.1
    have hrank : out.rank place = place := by
      rw [rank, List.countP_eq_length.2 fun t ht =>
        decide_eq_true (hall t (List.mem_of_mem_take ht)), List.length_take]
      omega
    have hshows : out.Shows place out.readings[place] :=
      ⟨List.getElem?_eq_getElem hlt, hall _ (List.getElem_mem hlt)⟩
    refine .shown ?_ hshows ⟨place, hown.2, hshows⟩
    rw [hrank]
    exact .inl ⟨hown, hlast⟩
  · exact absurd hlisted (hnone line)

end Gddr6Output

/-! ## The GPUs of a host -/

/-- **Every GPU is given the reading of its own column**, exactly when every GPU that is given one
by the tool is attributed. -/
theorem vram_temps_of_columns_iff (host : NvmlHost) (out : Gddr6Output)
    (devices : List NvmlDevice) :
    (∀ index device bus, devices[index]? = some device → tryQuery device.pci = some bus →
      memTemp host device = none →
        out.FromColumn bus (vramTemp { host with gddr6 := some out.text } index device)) ↔
    ∀ index device bus, devices[index]? = some device → tryQuery device.pci = some bus →
      memTemp host device = none → out.Attributed index bus := by
  refine forall₃_congr fun index device bus => forall₃_congr fun _ hbus hmem => ?_
  have htaken : vramTemp { host with gddr6 := some out.text } index device =
      takeTemp (parseGddr6Output out.text) (some bus) index := by
    have hmem' : memTemp { host with gddr6 := some out.text } device = none := hmem
    rw [vramTemp, hmem', Option.none_or, hbus]
    rfl
  rw [htaken, out.fromColumn_iff]

/-- The line of a device on a bus of one digit. -/
def sampleLine (digit : Char) (h : isHexDigit digit = true) : DeviceLine where
  model := "RTX 3090".toList
  digits := [digit]
  rest := "0:0".toList
  model_plain := by decide +kernel
  digits_hex := by simp [h]
  rest_plain := by decide +kernel

/-- Two devices, and a row in which the first one shows nothing. -/
def sampleOutput : Gddr6Output where
  devices := [sampleLine '1' (by decide), sampleLine '2' (by decide)]
  rows :=
    [{ cells :=
        [{ pad := 2, digits := ['0'], digits_plain := by decide },
          { pad := 2, digits := ['4', '0'], digits_plain := by decide }]
       newline := false }]
  aligned := by decide

/-- **An implausible reading** gives a GPU the temperature of the next one. -/
theorem shifted_reading_misattributed :
    ¬ ∀ (host : NvmlHost) (out : Gddr6Output) (devices : List NvmlDevice) index device bus,
      devices[index]? = some device → tryQuery device.pci = some bus →
      memTemp host device = none →
        out.FromColumn bus (vramTemp { host with gddr6 := some out.text } index device) := by
  intro h
  have hown := (h sampleNvmlHost sampleOutput [{ sampleGpu with pci := .value 1 }] 0
    { sampleGpu with pci := .value 1 } 1 rfl rfl rfl).own 40
  have htaken : vramTemp { sampleNvmlHost with gddr6 := some sampleOutput.text } 0
      { sampleGpu with pci := .value 1 } = some 40 := by decide +kernel
  obtain ⟨column, hbus, hreading, -⟩ := hown htaken
  have hbuses : sampleOutput.buses = [1, 2] := by decide +kernel
  have hreadings : sampleOutput.readings = [0, 40] := by decide +kernel
  rw [hbuses] at hbus
  rw [hreadings] at hreading
  match column with
  | 0 => exact absurd hreading (by simp)
  | 1 => exact absurd hbus (by simp)
  | n + 2 => exact absurd hbus (by simp)

end OoAgent
