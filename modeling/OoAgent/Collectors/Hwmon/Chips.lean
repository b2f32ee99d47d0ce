import OoAgent.Collectors.Hwmon.Channels
import OoAgent.Lib.Numbering

/-!
# Ids of hwmon sensors

`HwmonCollector.collect` names a chip by its driver, and from the second chip of a driver on by
the driver and the number of its chips before it.  The names of the drivers come from the files
of the chips, and nothing keeps one of them from looking like a numbered one.

* `HwmonTree`, `collectHwmon` — the directories of the chips, and `collect`; `none` where it
  raises.
* `HwmonTree.chips`, `collectHwmon_eq` — the chips with their numbers; `collect` takes the sensors
  of each.
* `chipId_eq_iff` — **when two chips have one id**.
* `hwmon_ids_distinct_iff` — **the ids of the sensors are distinct**, exactly when no chip with a
  channel of a numbered chip is named like it.
-/

namespace OoAgent

/-! ## The collector -/

/-- What is under `/sys/class/hwmon`: names, and the directory of each if that can be listed. -/
structure HwmonTree where
  entries : List (List Char × Option ChipDir)

/-- `_read(os.path.join(chip_dir, "name")) or entry`. -/
def driverOf (entry : List Char × Option ChipDir) : List Char :=
  ((entry.2.bind fun dir => dir.readFile "name".toList).filter (· ≠ [])).getD entry.1

/-- `f"{driver}-{count}"`. -/
def numbered (driver : List Char) (count : ℕ) : List Char :=
  driver ++ '-' :: (Nat.repr count).toList

/-- `chip_id`. -/
def chipId (driver : List Char) (count : ℕ) : List Char :=
  "hwmon:".toList ++ if count = 0 then driver else numbered driver count

/-- The loop over the chips, from what is in `driver_seen`. -/
def collectFrom (calls : FloatCalls) (seen : Dict (List Char) ℕ) :
    List (List Char × Option ChipDir) → Option (List Sensor)
  | [] => some []
  | entry :: entries => do
    let driver := driverOf entry
    let count := (seen.get driver).getD 0
    let dir ← entry.2
    let sensors ← chipSensors calls dir driver (chipId driver count)
    let others ← collectFrom calls (seen.set driver (count + 1)) entries
    return sensors ++ others

/-- `sorted(os.listdir(_HWMON_ROOT))`. -/
def HwmonTree.sorted (tree : HwmonTree) : List (List Char × Option ChipDir) :=
  tree.entries.insertionSort fun a b => a.1 ≤ b.1

/-- The sensors of `HwmonCollector.collect`; `none` where it raises. -/
def collectHwmon (calls : FloatCalls) (tree : HwmonTree) : Option (List Sensor) :=
  collectFrom calls [] tree.sorted

/-! ## The chips -/

/-- A chip, with the number of chips of its driver before it. -/
structure Chip where
  driver : List Char
  count : ℕ
  dir : Option ChipDir

namespace Chip

/-- The sensors of the chip; `none` where it raises. -/
def sensors (calls : FloatCalls) (chip : Chip) : Option (List Sensor) :=
  chip.dir.bind fun dir => chipSensors calls dir chip.driver (chipId chip.driver chip.count)

/-- The chip has a reading for this channel. -/
def Reports (calls : FloatCalls) (chip : Chip) (channel : List Char) : Prop :=
  ∃ dir, chip.dir = some dir ∧ ∃ s ∈ scanners, s.Reports calls dir channel

/-- The chip cannot be listed, or it has a reading that cannot be sent. -/
def Raises (calls : FloatCalls) (chip : Chip) : Prop :=
  ∀ dir, chip.dir = some dir → ∃ s ∈ scanners, s.Raises calls dir

end Chip

/-- The chips in the order of the loop. -/
def HwmonTree.chips (tree : HwmonTree) : List Chip :=
  tree.sorted.mapIdx fun i entry =>
    { driver := driverOf entry
      count := Numbering.occurrences (driverOf entry) ((tree.sorted.map driverOf).take i)
      dir := entry.2 }

/-- No chip has the name that a later chip of another driver is given, and a channel with it. -/
def HwmonTree.Apart (calls : FloatCalls) (tree : HwmonTree) : Prop :=
  ∀ chip ∈ tree.chips, ∀ later ∈ tree.chips, chip.count = 0 → later.count ≠ 0 →
    chip.driver = numbered later.driver later.count →
      ∀ channel, ¬ (chip.Reports calls channel ∧ later.Reports calls channel)

theorem getElem?_chips (tree : HwmonTree) (i : ℕ) :
    tree.chips[i]? = tree.sorted[i]?.map fun entry =>
      { driver := driverOf entry
        count := Numbering.occurrences (driverOf entry) ((tree.sorted.map driverOf).take i)
        dir := entry.2 } := by
  rw [HwmonTree.chips, List.getElem?_mapIdx]

/-- The loop takes the sensors of chips with the numbers it counts. -/
theorem collectFrom_eq (calls : FloatCalls) (seen : Dict (List Char) ℕ)
    (entries : List (List Char × Option ChipDir)) :
    collectFrom calls seen entries =
      ((List.zipWith (fun entry count => { driver := driverOf entry, count, dir := entry.2 })
        entries (Numbering.numbersFrom seen (entries.map driverOf))).mapM
          (Chip.sensors calls)).map List.flatten := by
  induction entries generalizing seen with
  | nil => rfl
  | cons entry entries ih =>
    rw [collectFrom, List.map_cons, Numbering.numbersFrom, List.zipWith_cons_cons, List.mapM_cons]
    obtain ⟨name, dir⟩ := entry
    cases dir with
    | none => rfl
    | some dir =>
      have hcount : (Dict.get seen (driverOf (name, some dir))).getD 0 =
          Numbering.met seen (driverOf (name, some dir)) := rfl
      generalize driverOf (name, some dir) = driver at hcount ⊢
      simp only [hcount, ih, Chip.sensors, Option.bind_some, Option.bind_eq_bind]
      cases chipSensors calls dir driver (chipId driver (Numbering.met seen driver)) with
      | none => rfl
      | some sensors =>
        simp only [Option.bind_some, Option.pure_def, Option.map_bind, Option.bind_map]
        rfl

/-- **`collect`** takes the sensors of the chips, one after the other. -/
theorem collectHwmon_eq (calls : FloatCalls) (tree : HwmonTree) :
    collectHwmon calls tree = (tree.chips.mapM (Chip.sensors calls)).map List.flatten := by
  have hchips : List.zipWith
      (fun entry count => ({ driver := driverOf entry, count, dir := entry.2 } : Chip))
      tree.sorted (Numbering.numbersFrom [] (tree.sorted.map driverOf)) = tree.chips := by
    refine List.ext_getElem? fun i => ?_
    rw [getElem?_chips, List.getElem?_zipWith, Numbering.getElem?_numbersFrom, List.getElem?_map]
    cases tree.sorted[i]? with
    | none => rfl
    | some entry => simp [Numbering.met]
  rw [collectHwmon, collectFrom_eq, hchips]

/-- Chips of one driver have different numbers. -/
theorem count_lt_of_lt {tree : HwmonTree} {i j : ℕ} (hij : i < j) {chip later : Chip}
    (hi : tree.chips[i]? = some chip) (hj : tree.chips[j]? = some later)
    (hdriver : chip.driver = later.driver) : chip.count < later.count := by
  rw [getElem?_chips] at hi hj
  obtain ⟨entry, hentry, rfl⟩ := Option.map_eq_some_iff.1 hi
  obtain ⟨entry', hentry', rfl⟩ := Option.map_eq_some_iff.1 hj
  have hmet : (tree.sorted.map driverOf)[i]? = some (driverOf entry) := by
    rw [List.getElem?_map, hentry]
    rfl
  dsimp only at hdriver ⊢
  rw [← hdriver]
  exact Numbering.occurrences_lt hij hmet

/-! ## Equal ids -/

/-- A text is cut at the last separator in one way. -/
theorem eq_of_append_cons {c : Char} {a b s t : List Char} (hs : c ∉ s) (ht : c ∉ t)
    (h : a ++ c :: s = b ++ c :: t) : a = b ∧ s = t := by
  rcases List.append_eq_append_iff.1 h with ⟨x, hb, hx⟩ | ⟨x, ha, hx⟩
  · cases x with
    | nil => exact ⟨by rw [hb, List.append_nil], (List.cons.inj hx).2⟩
    | cons d x => exact absurd (by rw [(List.cons.inj hx).2]; simp) hs
  · cases x with
    | nil => exact ⟨by rw [ha, List.append_nil], (List.cons.inj hx).2.symm⟩
    | cons d x => exact absurd (by rw [(List.cons.inj hx).2]; simp) ht

theorem dash_notMem_repr (n : ℕ) : '-' ∉ (Nat.repr n).toList := by
  intro h
  have hdigit : '-' ∈ Nat.toDigits 10 n := by simpa [Nat.repr] using h
  exact absurd (Nat.isDigit_of_mem_toDigits (by decide) (by decide) hdigit) (by decide)

/-- **When two chips have one id.** -/
theorem chipId_eq_iff {driver driver' : List Char} {n m : ℕ} :
    chipId driver n = chipId driver' m ↔
      (driver = driver' ∧ n = m) ∨ (n = 0 ∧ m ≠ 0 ∧ driver = numbered driver' m) ∨
        (m = 0 ∧ n ≠ 0 ∧ driver' = numbered driver n) := by
  unfold chipId
  generalize "hwmon:".toList = start
  rw [List.append_cancel_left_eq]
  by_cases hn : n = 0 <;> by_cases hm : m = 0
  · simp [hn, hm]
  · simp [hn, hm, Ne.symm hm]
  · simp [hn, hm, eq_comm]
  · have hcut : numbered driver n = numbered driver' m ↔ driver = driver' ∧ n = m := by
      constructor
      · intro h
        obtain ⟨hdriver, hrepr⟩ := eq_of_append_cons (dash_notMem_repr n) (dash_notMem_repr m) h
        exact ⟨hdriver, Nat.repr_injective (String.toList_inj.1 hrepr)⟩
      · rintro ⟨rfl, rfl⟩
        rfl
    simp [hn, hm, hcut]

/-- Two sensors have one id when their chips do, and their channels. -/
theorem channelId_eq_iff {x y c c' : List Char} (hc : '/' ∉ c) (hc' : '/' ∉ c') :
    channelId x c = channelId y c' ↔ x = y ∧ c = c' := by
  constructor
  · exact fun h => eq_of_append_cons hc hc' (String.ofList_injective h)
  · rintro ⟨rfl, rfl⟩
    rfl

namespace Chip

variable {calls : FloatCalls} {chip : Chip}

/-- Channels are parts of file names. -/
theorem slash_notMem {channel : List Char} (h : chip.Reports calls channel) : '/' ∉ channel := by
  obtain ⟨dir, -, s, -, fname, hfname, value, hvalue⟩ := h
  have hpart := (s.channel_spec (Scanner.channel_of_reading hvalue)).2
  exact fun hmem => ChipDir.slash_notMem hfname (hpart.subset hmem)

/-- The sensors of a chip are those of its channels, one for each. -/
theorem sensors_perChannel {sensors : List Sensor} (h : chip.sensors calls = some sensors) :
    PerChannel (chipId chip.driver chip.count) (chip.Reports calls) sensors := by
  obtain ⟨dir, hdir, h⟩ := Option.bind_eq_some_iff.1 h
  refine (chipSensors_perChannel h).congr fun c => ?_
  simp [Reports, hdir]

/-- The ids of the sensors of the chip. -/
def ids (calls : FloatCalls) (chip : Chip) : List String :=
  ((chip.sensors calls).getD []).map Sensor.id

theorem mem_ids (hsensors : chip.sensors calls ≠ none) {id : String} :
    id ∈ chip.ids calls ↔
      ∃ c, chip.Reports calls c ∧ id = channelId (chipId chip.driver chip.count) c := by
  obtain ⟨sensors, hsensors⟩ := Option.ne_none_iff_exists'.1 hsensors
  rw [ids, hsensors, Option.getD_some]
  exact (sensors_perChannel hsensors).mem_ids

theorem nodup_ids (hsensors : chip.sensors calls ≠ none) : (chip.ids calls).Nodup := by
  obtain ⟨sensors, hsensors⟩ := Option.ne_none_iff_exists'.1 hsensors
  rw [ids, hsensors, Option.getD_some]
  exact (sensors_perChannel hsensors).nodup

theorem sensors_ne_none : chip.sensors calls ≠ none ↔ ¬ chip.Raises calls := by
  unfold sensors Raises
  cases chip.dir with
  | none => simp
  | some dir =>
    rw [Option.bind_some, chipSensors_ne_none]
    simp

end Chip

/-! ## Distinct ids -/

section

variable {calls : FloatCalls} {tree : HwmonTree} {sensors : List Sensor}

theorem exists_collectHwmon_iff :
    (∃ sensors, collectHwmon calls tree = some sensors) ↔
      ∀ chip ∈ tree.chips, ¬ chip.Raises calls := by
  rw [collectHwmon_eq, ← Option.ne_none_iff_exists', ne_eq, Option.map_eq_none_iff, ← ne_eq,
    Option.ne_none_iff_exists', Traverse.exists_mapM_iff]
  exact forall₂_congr fun chip _ => Chip.sensors_ne_none

/-- The ids of what `collect` returns are those of the chips. -/
theorem ids_of_collect (h : collectHwmon calls tree = some sensors) :
    sensors.map Sensor.id = tree.chips.flatMap (Chip.ids calls) := by
  rw [collectHwmon_eq] at h
  obtain ⟨parts, hparts, rfl⟩ := Option.map_eq_some_iff.1 h
  have hids : parts.map (List.map Sensor.id) = tree.chips.map (Chip.ids calls) :=
    Traverse.map_of_mapM hparts fun chip _ part hpart => by rw [Chip.ids, hpart, Option.getD_some]
  rw [List.map_flatten, hids, List.flatMap_def]

/-- Chips in different places have no id in common when the names are apart. -/
theorem disjoint_of_apart (hapart : tree.Apart calls)
    (hsensors : ∀ chip ∈ tree.chips, chip.sensors calls ≠ none) {i j : ℕ} (hij : i < j)
    {chip later : Chip} (hi : tree.chips[i]? = some chip) (hj : tree.chips[j]? = some later) :
    List.Disjoint (chip.ids calls) (later.ids calls) := by
  have hmem := List.mem_of_getElem? hi
  have hmem' := List.mem_of_getElem? hj
  intro id hid hid'
  obtain ⟨c, hc, rfl⟩ := (Chip.mem_ids (hsensors chip hmem)).1 hid
  obtain ⟨c', hc', heq⟩ := (Chip.mem_ids (hsensors later hmem')).1 hid'
  obtain ⟨hchip, rfl⟩ := (channelId_eq_iff (Chip.slash_notMem hc) (Chip.slash_notMem hc')).1 heq
  rcases chipId_eq_iff.1 hchip with ⟨hdriver, hcount⟩ | ⟨hfirst, hlater, hname⟩ |
    ⟨hfirst, hlater, hname⟩
  · exact absurd hcount (count_lt_of_lt hij hi hj hdriver).ne
  · exact hapart chip hmem later hmem' hfirst hlater hname c ⟨hc, hc'⟩
  · exact hapart later hmem' chip hmem hfirst hlater hname c ⟨hc', hc⟩

/-- **The ids of what `collect` returns** are distinct when the names are apart. -/
theorem nodup_ids_iff (h : collectHwmon calls tree = some sensors) :
    (sensors.map Sensor.id).Nodup ↔ tree.Apart calls := by
  have hsensors : ∀ chip ∈ tree.chips, chip.sensors calls ≠ none := fun chip hchip =>
    Chip.sensors_ne_none.2 (exists_collectHwmon_iff.1 ⟨sensors, h⟩ chip hchip)
  rw [ids_of_collect h, List.nodup_flatMap]
  constructor
  · rintro ⟨-, hdisjoint⟩ chip hchip later hlater hfirst hcount hname c ⟨hc, hc'⟩
    have : Std.Symm (Function.onFun List.Disjoint (Chip.ids calls)) := ⟨fun _ _ h => h.symm⟩
    have hne : chip ≠ later := by
      rintro rfl
      exact hcount hfirst
    have hid : channelId (chipId chip.driver chip.count) c =
        channelId (chipId later.driver later.count) c :=
      congrArg (channelId · c) (chipId_eq_iff.2 (.inr (.inl ⟨hfirst, hcount, hname⟩)))
    exact hdisjoint.forall hchip hlater hne ((Chip.mem_ids (hsensors chip hchip)).2 ⟨c, hc, rfl⟩)
      ((Chip.mem_ids (hsensors later hlater)).2 ⟨c, hc', hid⟩)
  · intro hapart
    refine ⟨fun chip hchip => Chip.nodup_ids (hsensors chip hchip), ?_⟩
    rw [List.pairwise_iff_getElem]
    intro i j hi hj hij
    exact disjoint_of_apart hapart hsensors hij (List.getElem?_eq_getElem hi)
      (List.getElem?_eq_getElem hj)

end

/-- **Hwmon sensor ids are distinct**, for any tree, exactly when, unless a chip raises, no chip
has the name that a later chip of another driver is given and a channel with it. -/
theorem hwmon_ids_distinct_iff (calls : FloatCalls) (tree : HwmonTree) :
    (∀ sensors, collectHwmon calls tree = some sensors → (sensors.map Sensor.id).Nodup) ↔
    ((∀ chip ∈ tree.chips, ¬ chip.Raises calls) → tree.Apart calls) := by
  rw [← exists_collectHwmon_iff]
  constructor
  · rintro h ⟨sensors, hsensors⟩
    exact (nodup_ids_iff hsensors).1 (h sensors hsensors)
  · intro h sensors hsensors
    exact (nodup_ids_iff hsensors).2 (h ⟨sensors, hsensors⟩)

/-- Arithmetic on finite floats alone, that reads whole numbers. -/
def sampleFloats : FloatCalls where
  parse := fun s => (PyText.parseInt s).map fun n => .finite n
  div := fun x q => match x with | .finite p => .finite (p / q) | x => x
  mul := fun x q => match x with | .finite p => .finite (p * q) | x => x
  round := fun x digits =>
    match x with
    | .finite p => .finite (⌊p * 10 ^ digits + 1 / 2⌋ / 10 ^ digits)
    | x => x

/-- A chip with a temperature. -/
def sampleChip (name : List Char) : ChipDir where
  files := [("name".toList, some name), ("temp1_input".toList, some "41850\n".toList)]
  nodup := by
    show ["name".toList, "temp1_input".toList].Nodup
    decide +kernel
  plain := by
    show ∀ name ∈ ["name".toList, "temp1_input".toList], '/' ∉ name
    decide +kernel

/-- Three chips, one of which is named like the second one of another driver. -/
def sampleTree : HwmonTree where
  entries :=
    [("hwmon0".toList, some (sampleChip "nvme\n".toList)),
      ("hwmon1".toList, some (sampleChip "nvme\n".toList)),
      ("hwmon2".toList, some (sampleChip "nvme-1\n".toList))]

/-- **A driver named like a numbered chip** has its sensors mixed up with that one's. -/
theorem numbered_name_collides :
    ¬ ∀ (calls : FloatCalls) (tree : HwmonTree) sensors,
      collectHwmon calls tree = some sensors → (sensors.map Sensor.id).Nodup := by
  intro h
  have hids : (collectHwmon sampleFloats sampleTree).map (fun sensors => sensors.map Sensor.id) =
      some ["hwmon:nvme/temp1", "hwmon:nvme-1/temp1", "hwmon:nvme-1/temp1"] := by decide +kernel
  obtain ⟨sensors, hsensors, heq⟩ := Option.map_eq_some_iff.1 hids
  have hnodup := h sampleFloats sampleTree sensors hsensors
  rw [heq] at hnodup
  exact absurd hnodup (by decide)

end OoAgent
