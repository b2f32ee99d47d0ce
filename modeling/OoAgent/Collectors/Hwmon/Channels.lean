import OoAgent.Collectors.Payloads
import OoAgent.Lib.Traverse
import OoAgent.Python.Digits
import OoAgent.Python.Float

/-!
# Channels of a hwmon chip

A chip is a directory with a file for each reading.  Six scanners go through its names, each
taking those of its own kind of channel.

* `ChipDir`, `readFile`, `readNum` — the directory, `_read` and `_read_num`.
* `Scanner` — what sets one scanner apart from the others; `scanChannels` — what five of them do;
  `powerSensors` — the one that looks at two files for each channel.
* `PerChannel` — sensors that have each channel once; `chipSensors_perChannel` — **the sensors of
  a chip** do.
-/

namespace OoAgent

open PyText

/-! ## Files -/

/-- The directory of a chip: its names, and the text of each file that can be read as ASCII. -/
structure ChipDir where
  files : Dict (List Char) (Option (List Char))
  nodup : (files.map Prod.fst).Nodup
  plain : ∀ name ∈ files.map Prod.fst, '/' ∉ name

namespace ChipDir

/-- `sorted(os.listdir(chip_dir))`. -/
def names (dir : ChipDir) : List (List Char) :=
  (dir.files.map Prod.fst).insertionSort fun a b => a ≤ b

theorem nodup_names (dir : ChipDir) : dir.names.Nodup :=
  (List.perm_insertionSort _ _).nodup_iff.2 dir.nodup

theorem slash_notMem {dir : ChipDir} {name : List Char} (h : name ∈ dir.names) : '/' ∉ name :=
  dir.plain name ((List.perm_insertionSort _ _).mem_iff.1 h)

/-- `_read`. -/
def readFile (dir : ChipDir) (name : List Char) : Option (List Char) :=
  (dir.files.get name).join.map fun text => strip (translateNewlines text)

/-- `_read_num`. -/
def readNum (calls : FloatCalls) (dir : ChipDir) (name : List Char) (scale : ℚ) :
    Option PyFloat :=
  ((dir.readFile name).bind calls.parse).map fun x => calls.div x scale

/-- `_read(f"{channel}_label") or ""`. -/
def label (dir : ChipDir) (channel : List Char) : List Char :=
  (dir.readFile (channel ++ "_label".toList)).getD []

end ChipDir

/-! ## Names of channels -/

/-- `_input`. -/
def inputEnd : List Char := "_input".toList

theorem inputEnd_eq : inputEnd = ['_', 'i', 'n', 'p', 'u', 't'] := by decide +kernel

/-- A file `<start>…_input`, without the `_input`. -/
def inputChannel (start fname : List Char) : Option (List Char) :=
  if start.isPrefixOf fname && inputEnd.isSuffixOf fname then some (fname.take (fname.length - 6))
  else none

/-- The channel of `_volt_sensors`: no `intrusion0_input`. -/
def voltChannel (fname : List Char) : Option (List Char) := do
  let channel ← inputChannel "in".toList fname
  let number := channel.drop 2
  if number ≠ [] ∧ number.all isDigit = true then some channel else none

/-- The channel of `_power_sensors`: an `_input` or an `_average`. -/
def powerChannel (fname : List Char) : Option (List Char) :=
  if "power".toList.isPrefixOf fname &&
      (inputEnd.isSuffixOf fname || "_average".toList.isSuffixOf fname) then
    some (fname.takeWhile (· ≠ '_'))
  else none

/-- The channel of `_pwm_sensors`. -/
def pwmChannel (fname : List Char) : Option (List Char) :=
  let number := fname.drop 3
  if "pwm".toList.isPrefixOf fname && (number != [] && number.all isDigit) then some fname
  else none

/-- A text without an underscore in front of one is in front of it. -/
theorem prefix_of_plain {a s r : List Char} (ha : '_' ∉ a) (h : a <+: s ++ '_' :: r) :
    a <+: s := by
  rcases List.prefix_or_prefix_of_prefix h (List.prefix_append s ('_' :: r)) with h' | h'
  · exact h'
  · obtain ⟨b, rfl⟩ := h'
    rw [List.prefix_append_right_inj] at h
    cases b with
    | nil => rw [List.append_nil]
    | cons c b =>
      obtain rfl := (List.cons_prefix_cons.1 h).1
      exact absurd (by simp) ha

theorem inputChannel_eq_some {start fname channel : List Char} (hstart : '_' ∉ start) :
    inputChannel start fname = some channel ↔ start <+: channel ∧ fname = channel ++ inputEnd := by
  unfold inputChannel
  rw [Option.ite_none_right_eq_some, Bool.and_eq_true, List.isPrefixOf_iff_prefix,
    List.isSuffixOf_iff_suffix, Option.some_inj]
  constructor
  · rintro ⟨⟨hbegins, rest, rfl⟩, rfl⟩
    have htake : (rest ++ inputEnd).take ((rest ++ inputEnd).length - 6) = rest := by
      simp [inputEnd_eq]
    rw [htake]
    rw [inputEnd_eq] at hbegins
    exact ⟨prefix_of_plain hstart hbegins, rfl⟩
  · rintro ⟨hbegins, rfl⟩
    refine ⟨⟨hbegins.trans (List.prefix_append _ _), List.suffix_append _ _⟩, ?_⟩
    simp [inputEnd_eq]

theorem voltChannel_eq_some {fname channel : List Char} (h : voltChannel fname = some channel) :
    inputChannel "in".toList fname = some channel := by
  simp only [voltChannel, Option.bind_eq_bind, Option.bind_eq_some_iff,
    Option.ite_none_right_eq_some] at h
  obtain ⟨channel', hchannel, -, heq⟩ := h
  rwa [← Option.some.inj heq]

theorem powerChannel_spec {fname channel : List Char} (h : powerChannel fname = some channel) :
    "power".toList <+: channel ∧ channel <+: fname := by
  have hplain : '_' ∉ "power".toList := by decide +kernel
  unfold powerChannel at h
  generalize "power".toList = start at h hplain ⊢
  rw [Option.ite_none_right_eq_some, Bool.and_eq_true, List.isPrefixOf_iff_prefix] at h
  obtain ⟨⟨hbegins, -⟩, heq⟩ := h
  obtain rfl := Option.some.inj heq
  refine ⟨?_, List.takeWhile_prefix _⟩
  cases hrest : fname.dropWhile (· ≠ '_') with
  | nil =>
    have hall := List.takeWhile_append_dropWhile (p := (· ≠ '_')) (l := fname)
    rw [hrest, List.append_nil] at hall
    rwa [hall]
  | cons c rest =>
    have hc : c = '_' := by
      have hhead := List.head?_dropWhile_not (· ≠ '_') fname
      rw [hrest] at hhead
      simpa using hhead
    subst hc
    have hall := List.takeWhile_append_dropWhile (p := (· ≠ '_')) (l := fname)
    rw [hrest] at hall
    rw [← hall] at hbegins
    exact prefix_of_plain hplain hbegins

theorem pwmChannel_eq_some {fname channel : List Char} (h : pwmChannel fname = some channel) :
    "pwm".toList <+: channel ∧ channel = fname := by
  unfold pwmChannel at h
  rw [Option.ite_none_right_eq_some, Bool.and_eq_true, List.isPrefixOf_iff_prefix] at h
  obtain rfl := Option.some.inj h.2
  exact ⟨h.1.1, rfl⟩

/-! ## Kinds of sensors -/

/-- `_KIND_BY_DRIVER`. -/
def kindByDriver : List (String × String) :=
  [("coretemp", "cpu"), ("k10temp", "cpu"), ("zenpower", "cpu"), ("amdgpu", "gpu"),
    ("nouveau", "gpu"), ("i915", "gpu"), ("xe", "gpu"), ("nvme", "disk"), ("drivetemp", "disk"),
    ("spd5118", "ram"), ("jc42", "ram"), ("acpitz", "board"), ("pch_skylake", "chipset"),
    ("pch_cannonlake", "chipset")]

/-- `_KIND_BY_DRIVER.get(driver, "board")`. -/
def driverKind (driver : List Char) : String :=
  (kindByDriver.lookup (String.ofList driver)).getD "board"

/-- `_kind`. -/
def kindOf (driver label : List Char) : String :=
  let lowered := lowerAscii label
  let base := driverKind driver
  if base = "cpu" ∧ "core ".toList.isPrefixOf lowered then "core"
  else if base = "gpu" ∧ ("mem".toList <:+: lowered ∨ "vram".toList <:+: lowered) then "vram"
  else base

/-! ## Scanners -/

/-- What sets one scanner of channels apart from the others. -/
structure Scanner where
  /-- What the names of its files begin with. -/
  start : List Char
  /-- The channel of a file, if it is one of the scanner's. -/
  channel : List Char → Option (List Char)
  channel_spec : ∀ {fname c}, channel fname = some c → start <+: c ∧ c <+: fname
  scale : ℚ
  /-- A reading that is not taken. -/
  bogus : PyFloat → Bool
  /-- The kind of a sensor, from the driver and the label. -/
  kind : List Char → List Char → String
  /-- The value that is sent; `none` when the conversion raises. -/
  value : FloatCalls → PyFloat → Option Value
  unit : String
  /-- What ends the name of a sensor without a label. -/
  ending : List Char
  limits : FloatCalls → ChipDir → List Char → List (String × Option Value)

/-- A scanner of files `<start>…_input` has the channels that begin with it. -/
theorem inputChannel_spec {start fname c : List Char} (hstart : '_' ∉ start)
    (h : inputChannel start fname = some c) : start <+: c ∧ c <+: fname := by
  obtain ⟨hbegins, rfl⟩ := (inputChannel_eq_some hstart).1 h
  exact ⟨hbegins, List.prefix_append _ _⟩

/-- `max` and `crit` of `_temp_sensors`: without a maximum, the critical and the emergency
temperature stand for the two. -/
def tempLimits (calls : FloatCalls) (dir : ChipDir) (channel : List Char) :
    List (String × Option Value) :=
  let maximum := dir.readNum calls (channel ++ "_max".toList) 1000
  let crit := dir.readNum calls (channel ++ "_crit".toList) 1000
  let emergency := dir.readNum calls (channel ++ "_emergency".toList) 1000
  let shifted := emergency.isSome && crit.isSome && maximum.isNone
  let upper := if shifted then crit else maximum
  let hard := if shifted then emergency else crit
  [("max", (upper.filter fun x => x.above 0 && !x.above 200).map fun x =>
      .float (calls.round x 1)),
    ("crit", (hard.filter fun x => x.above 0 && !x.above 250).map fun x =>
      .float (calls.round x 1))]

/-- `max` and `crit` of `_power_sensors`. -/
def powerLimits (calls : FloatCalls) (dir : ChipDir) (channel : List Char) :
    List (String × Option Value) :=
  let cap := dir.readNum calls (channel ++ "_cap".toList) 1000000
  let crit := dir.readNum calls (channel ++ "_crit".toList) 1000000
  [("max", (cap.filter fun x => x.above 0).map fun x => .float (calls.round x 1)),
    ("crit", (crit.filter fun x => x.above 0).map fun x => .float (calls.round x 1))]

/-- `_temp_sensors`. -/
def tempScanner : Scanner where
  start := "temp".toList
  channel := inputChannel "temp".toList
  channel_spec := inputChannel_spec (by decide +kernel)
  scale := 1000
  bogus x := x.below (-50) || x.above 200
  kind := kindOf
  value calls x := some (.float (calls.round x 1))
  unit := "C"
  ending := []
  limits := tempLimits

/-- `_fan_sensors`. -/
def fanScanner : Scanner where
  start := "fan".toList
  channel := inputChannel "fan".toList
  channel_spec := inputChannel_spec (by decide +kernel)
  scale := 1
  bogus x := x.below 0
  kind _ _ := "fan"
  value _ x := x.trunc.map .int
  unit := "rpm"
  ending := []
  limits _ _ _ := []

/-- `_volt_sensors`. -/
def voltScanner : Scanner where
  start := "in".toList
  channel := voltChannel
  channel_spec h := inputChannel_spec (by decide +kernel) (voltChannel_eq_some h)
  scale := 1000
  bogus x := x.above 100 || x.below (-100)
  kind _ _ := "board"
  value calls x := some (.float (calls.round x 3))
  unit := "V"
  ending := []
  limits _ _ _ := []

/-- `_power_sensors`. -/
def powerScanner : Scanner where
  start := "power".toList
  channel := powerChannel
  channel_spec := powerChannel_spec
  scale := 1000000
  bogus x := x.below 0 || x.above 20000
  kind driver _ := driverKind driver
  value calls x := some (.float (calls.round x 1))
  unit := "W"
  ending := []
  limits := powerLimits

/-- `_curr_sensors`. -/
def currScanner : Scanner where
  start := "curr".toList
  channel := inputChannel "curr".toList
  channel_spec := inputChannel_spec (by decide +kernel)
  scale := 1000
  bogus x := x.below 0 || x.above 1000
  kind _ _ := "board"
  value calls x := some (.float (calls.round x 2))
  unit := "A"
  ending := []
  limits _ _ _ := []

/-- `_pwm_sensors`. -/
def pwmScanner : Scanner where
  start := "pwm".toList
  channel := pwmChannel
  channel_spec h := ⟨(pwmChannel_eq_some h).1, by rw [(pwmChannel_eq_some h).2]⟩
  scale := 1
  bogus x := x.below 0 || x.above 255
  kind _ _ := "fan"
  value calls x := (calls.mul (calls.div x 255) 100).roundInt.map .int
  unit := "%"
  ending := " duty".toList
  limits _ _ _ := []

/-- The scanners, in the order in which they run. -/
def scanners : List Scanner :=
  [tempScanner, fanScanner, voltScanner, powerScanner, currScanner, pwmScanner]

/-- `f"{chip_id}/{channel}"`. -/
def channelId (chipId channel : List Char) : String := String.ofList (chipId ++ '/' :: channel)

namespace Scanner

/-- The channel of a file and its reading, if that is there and not bogus. -/
def reading (s : Scanner) (calls : FloatCalls) (dir : ChipDir) (fname : List Char) :
    Option (List Char × PyFloat) := do
  let channel ← s.channel fname
  let value ← dir.readNum calls fname s.scale
  if s.bogus value then none else some (channel, value)

/-- The sensor of a channel. -/
def sensor (s : Scanner) (calls : FloatCalls) (dir : ChipDir) (driver chipId : List Char)
    (item : List Char × PyFloat) : Option Sensor := do
  let (channel, reading) := item
  let label := dir.label channel
  let value ← s.value calls reading
  return {
    id := channelId chipId channel
    name := String.ofList (if label = [] then driver ++ ' ' :: (channel ++ s.ending) else label)
    kind := s.kind driver label
    value := value
    unit := s.unit
    limits := deviceLimits (s.limits calls dir channel) }

/-- The channel has a reading. -/
def Reports (s : Scanner) (calls : FloatCalls) (dir : ChipDir) (channel : List Char) : Prop :=
  ∃ fname ∈ dir.names, ∃ value, s.reading calls dir fname = some (channel, value)

end Scanner

/-- The scanners that look at one file for each channel; `none` where one raises. -/
def scanChannels (s : Scanner) (calls : FloatCalls) (dir : ChipDir) (driver chipId : List Char) :
    Option (List Sensor) :=
  (dir.names.filterMap (s.reading calls dir)).mapM (s.sensor calls dir driver chipId)

/-- The body of the loop in `_power_sensors`: a channel that has a sensor is left alone. -/
def powerStep (calls : FloatCalls) (dir : ChipDir) (driver chipId : List Char)
    (sensors : List Sensor) (fname : List Char) : List Sensor :=
  match powerChannel fname with
  | none => sensors
  | some channel =>
    if sensors.any fun s => s.id = channelId chipId channel then sensors
    else sensors ++ ((powerScanner.reading calls dir fname).bind
      (powerScanner.sensor calls dir driver chipId)).toList

/-- `_power_sensors`. -/
def powerSensors (calls : FloatCalls) (dir : ChipDir) (driver chipId : List Char) : List Sensor :=
  dir.names.foldl (powerStep calls dir driver chipId) []

/-- What the six scanners find, one after the other. -/
def chipParts (calls : FloatCalls) (dir : ChipDir) (driver chipId : List Char) :
    List (Option (List Sensor)) :=
  [scanChannels tempScanner calls dir driver chipId,
    scanChannels fanScanner calls dir driver chipId,
    scanChannels voltScanner calls dir driver chipId,
    some (powerSensors calls dir driver chipId),
    scanChannels currScanner calls dir driver chipId,
    scanChannels pwmScanner calls dir driver chipId]

/-- The sensors of a chip; `none` where a scanner raises. -/
def chipSensors (calls : FloatCalls) (dir : ChipDir) (driver chipId : List Char) :
    Option (List Sensor) :=
  ((chipParts calls dir driver chipId).mapM id).map List.flatten

/-! ## One sensor for each channel -/

/-- The sensors are those of the channels with this property, one for each. -/
def PerChannel (chipId : List Char) (reported : List Char → Prop) (sensors : List Sensor) : Prop :=
  ∃ channels : List (List Char), sensors.map Sensor.id = channels.map (channelId chipId) ∧
    channels.Nodup ∧ ∀ c, c ∈ channels ↔ reported c

theorem channelId_injective (chipId : List Char) : Function.Injective (channelId chipId) := by
  intro c c' h
  have hlist := String.ofList_injective h
  exact (List.cons.inj (List.append_cancel_left hlist)).2

namespace PerChannel

variable {chipId : List Char} {reported reported' : List Char → Prop}
variable {sensors sensors' : List Sensor}

theorem congr (h : PerChannel chipId reported sensors) (hiff : ∀ c, reported c ↔ reported' c) :
    PerChannel chipId reported' sensors := by
  obtain ⟨channels, hids, hnodup, hmem⟩ := h
  exact ⟨channels, hids, hnodup, fun c => (hmem c).trans (hiff c)⟩

theorem nil : PerChannel chipId (fun _ => False) [] := ⟨[], rfl, List.nodup_nil, by simp⟩

theorem singleton {sensor : Sensor} {channel : List Char}
    (h : sensor.id = channelId chipId channel) : PerChannel chipId (· = channel) [sensor] :=
  ⟨[channel], by simp [h], List.nodup_singleton _, by simp⟩

/-- Different channels of two lists are channels of both together. -/
theorem append (h : PerChannel chipId reported sensors) (h' : PerChannel chipId reported' sensors')
    (hdisjoint : ∀ c, reported c → ¬ reported' c) :
    PerChannel chipId (fun c => reported c ∨ reported' c) (sensors ++ sensors') := by
  obtain ⟨channels, hids, hnodup, hmem⟩ := h
  obtain ⟨channels', hids', hnodup', hmem'⟩ := h'
  refine ⟨channels ++ channels', by simp [hids, hids'], ?_, fun c => ?_⟩
  · refine List.nodup_append'.2 ⟨hnodup, hnodup', fun c hc hc' => ?_⟩
    exact hdisjoint c ((hmem c).1 hc) ((hmem' c).1 hc')
  · rw [List.mem_append, hmem, hmem']

/-- The ids are those of the channels. -/
theorem mem_ids (h : PerChannel chipId reported sensors) {id : String} :
    id ∈ sensors.map Sensor.id ↔ ∃ c, reported c ∧ id = channelId chipId c := by
  obtain ⟨channels, hids, -, hmem⟩ := h
  rw [hids, List.mem_map]
  constructor
  · rintro ⟨c, hc, rfl⟩
    exact ⟨c, (hmem c).1 hc, rfl⟩
  · rintro ⟨c, hc, rfl⟩
    exact ⟨c, (hmem c).2 hc, rfl⟩

/-- **The ids are distinct.** -/
theorem nodup (h : PerChannel chipId reported sensors) : (sensors.map Sensor.id).Nodup := by
  obtain ⟨channels, hids, hnodup, -⟩ := h
  rw [hids]
  exact hnodup.map (channelId_injective chipId)

end PerChannel

section

variable {s : Scanner} {calls : FloatCalls} {dir : ChipDir} {driver chipId : List Char}

theorem Scanner.channel_of_reading {fname channel : List Char} {value : PyFloat}
    (h : s.reading calls dir fname = some (channel, value)) : s.channel fname = some channel := by
  simp only [reading, Option.bind_eq_bind, Option.bind_eq_some_iff,
    Option.ite_none_left_eq_some, Option.some.injEq, Prod.mk.injEq] at h
  obtain ⟨c, hc, x, -, -, rfl, -⟩ := h
  exact hc

theorem Scanner.sensor_id {item : List Char × PyFloat} {sensor : Sensor}
    (h : s.sensor calls dir driver chipId item = some sensor) :
    sensor.id = channelId chipId item.1 := by
  simp only [Scanner.sensor, Option.bind_eq_bind, Option.bind_eq_some_iff] at h
  obtain ⟨value, -, h⟩ := h
  rw [← Option.some.inj h]

/-- Files of different names have different channels, for a scanner that looks at one file for
each. -/
theorem scanChannels_perChannel (hinj : ∀ {fname fname' c}, s.channel fname = some c →
      s.channel fname' = some c → fname = fname') {sensors : List Sensor}
    (h : scanChannels s calls dir driver chipId = some sensors) :
    PerChannel chipId (s.Reports calls dir) sensors := by
  refine ⟨(dir.names.filterMap (s.reading calls dir)).map Prod.fst, ?_, ?_, fun c => ?_⟩
  · rw [List.map_map]
    exact Traverse.map_of_mapM h fun item _ sensor hsensor => Scanner.sensor_id hsensor
  · rw [List.map_filterMap]
    refine dir.nodup_names.filterMap fun fname fname' c hc hc' => ?_
    obtain ⟨⟨_, value⟩, hvalue, rfl⟩ := Option.map_eq_some_iff.1 hc
    obtain ⟨⟨_, value'⟩, hvalue', rfl⟩ := Option.map_eq_some_iff.1 hc'
    exact hinj (Scanner.channel_of_reading hvalue) (Scanner.channel_of_reading hvalue')
  · simp only [List.mem_map, List.mem_filterMap, Scanner.Reports, Prod.exists]
    constructor
    · rintro ⟨_, value, ⟨fname, hfname, hvalue⟩, rfl⟩
      exact ⟨fname, hfname, value, hvalue⟩
    · rintro ⟨fname, hfname, value, hvalue⟩
      exact ⟨c, value, ⟨fname, hfname, hvalue⟩, rfl⟩

/-- **A step of `_power_sensors`** adds the channel of the file, unless it is there. -/
theorem powerStep_perChannel {sensors : List Sensor} {reported : List Char → Prop}
    (h : PerChannel chipId reported sensors) (fname : List Char) :
    PerChannel chipId
      (fun c => reported c ∨ ∃ value, powerScanner.reading calls dir fname = some (c, value))
      (powerStep calls dir driver chipId sensors fname) := by
  unfold powerStep
  cases hchannel : powerChannel fname with
  | none =>
    refine h.congr fun c => ⟨.inl, fun hc => hc.resolve_right ?_⟩
    rintro ⟨value, hvalue⟩
    exact absurd ((Scanner.channel_of_reading hvalue).symm.trans hchannel) (by simp)
  | some channel =>
    have hown {c value} (hvalue : powerScanner.reading calls dir fname = some (c, value)) :
        c = channel :=
      Option.some.inj ((Scanner.channel_of_reading hvalue).symm.trans hchannel)
    have hany :
        (sensors.any fun s => s.id = channelId chipId channel) = true ↔ reported channel := by
      have hmem : (sensors.any fun s => s.id = channelId chipId channel) = true ↔
          channelId chipId channel ∈ sensors.map Sensor.id := by
        rw [List.any_eq_true, List.mem_map]
        exact exists_congr fun s => and_congr_right fun _ => decide_eq_true_iff
      rw [hmem, h.mem_ids]
      constructor
      · rintro ⟨c, hc, heq⟩
        rwa [channelId_injective chipId heq]
      · exact fun hc => ⟨channel, hc, rfl⟩
    dsimp only
    split_ifs with hthere
    · refine h.congr fun c => ⟨.inl, fun hc => hc.elim id ?_⟩
      rintro ⟨value, hvalue⟩
      rw [hown hvalue]
      exact hany.1 hthere
    · cases hreading : powerScanner.reading calls dir fname with
      | none => simpa using h
      | some item =>
        obtain ⟨c, value⟩ := item
        obtain rfl := hown hreading
        refine (h.append (PerChannel.singleton rfl) ?_).congr fun c' => or_congr_right ?_
        · rintro _ hc rfl
          exact hthere (hany.2 hc)
        · constructor
          · rintro rfl
            exact ⟨value, rfl⟩
          · rintro ⟨value', heq⟩
            exact (Prod.mk.inj (Option.some.inj heq)).1.symm

/-- `_power_sensors` has one sensor for each channel. -/
theorem powerSensors_perChannel :
    PerChannel chipId (powerScanner.Reports calls dir) (powerSensors calls dir driver chipId) := by
  have hfold (names : List (List Char)) :
      PerChannel chipId
        (fun c => ∃ fname ∈ names, ∃ value,
          powerScanner.reading calls dir fname = some (c, value))
        (names.foldl (powerStep calls dir driver chipId) []) := by
    induction names using List.reverseRecOn with
    | nil => exact PerChannel.nil.congr fun c => by simp
    | append_singleton names fname ih =>
      rw [List.foldl_append]
      exact (powerStep_perChannel ih fname).congr fun c => by simp [or_and_right, exists_or]
  exact hfold dir.names

/-! ## The sensors of a chip -/

/-- The readings of a scanner cannot all be sent. -/
def Scanner.Raises (s : Scanner) (calls : FloatCalls) (dir : ChipDir) : Prop :=
  ∃ fname ∈ dir.names, ∃ channel value,
    s.reading calls dir fname = some (channel, value) ∧ s.value calls value = none

theorem scanChannels_ne_none :
    scanChannels s calls dir driver chipId ≠ none ↔ ¬ s.Raises calls dir := by
  have hsensor (item : List Char × PyFloat) :
      s.sensor calls dir driver chipId item ≠ none ↔ s.value calls item.2 ≠ none := by
    cases hvalue : s.value calls item.2 <;> simp [Scanner.sensor, hvalue]
  rw [scanChannels, Option.ne_none_iff_exists', Traverse.exists_mapM_iff]
  constructor
  · rintro hall ⟨fname, hfname, channel, value, hreading, hvalue⟩
    have hitem := hall (channel, value) (List.mem_filterMap.2 ⟨fname, hfname, hreading⟩)
    exact (hsensor _).1 hitem hvalue
  · intro hnot item hitem
    obtain ⟨fname, hfname, hreading⟩ := List.mem_filterMap.1 hitem
    exact (hsensor item).2 fun hvalue => hnot ⟨fname, hfname, item.1, item.2, hreading, hvalue⟩

/-- Channels of different scanners begin differently. -/
theorem scanners_disjoint : scanners.Pairwise fun s s' =>
    ∀ c, s.Reports calls dir c → ¬ s'.Reports calls dir c := by
  have hstarts : (scanners.map Scanner.start).Pairwise fun a b => ¬ a <+: b ∧ ¬ b <+: a := by
    decide +kernel
  refine (List.pairwise_map.1 hstarts).imp fun {s s'} hne c hc hc' => ?_
  obtain ⟨fname, -, value, hvalue⟩ := hc
  obtain ⟨fname', -, value', hvalue'⟩ := hc'
  have hstart := (s.channel_spec (Scanner.channel_of_reading hvalue)).1
  have hstart' := (s'.channel_spec (Scanner.channel_of_reading hvalue')).1
  exact (List.prefix_or_prefix_of_prefix hstart hstart').elim hne.1 hne.2

/-- Scanners with different channels, and what each found. -/
theorem perChannel_flatten {ss : List Scanner} {results : List (Option (List Sensor))}
    {parts : List (List Sensor)}
    (honce : List.Forall₂ (fun s result => ∀ sensors, result = some sensors →
      PerChannel chipId (s.Reports calls dir) sensors) ss results)
    (hdisjoint : ss.Pairwise fun s s' => ∀ c, s.Reports calls dir c → ¬ s'.Reports calls dir c)
    (hparts : results.mapM id = some parts) :
    PerChannel chipId (fun c => ∃ s ∈ ss, s.Reports calls dir c) parts.flatten := by
  induction honce generalizing parts with
  | nil =>
    obtain rfl := Option.some.inj hparts
    exact PerChannel.nil.congr fun c => by simp
  | @cons s result ss results hs _ ih =>
    rw [List.pairwise_cons] at hdisjoint
    rw [List.mapM_cons, Option.bind_eq_bind, Option.bind_eq_some_iff] at hparts
    obtain ⟨part, hpart, hparts⟩ := hparts
    obtain ⟨rest, hrest, hparts⟩ := Option.bind_eq_some_iff.1 hparts
    obtain rfl := Option.some.inj hparts
    rw [List.flatten_cons]
    refine ((hs part hpart).append (ih hdisjoint.2 hrest) ?_).congr fun c => by simp
    rintro c hc ⟨s', hs', hc'⟩
    exact hdisjoint.1 s' hs' c hc hc'

/-- **The sensors of a chip** are those of its channels, one for each. -/
theorem chipSensors_perChannel {sensors : List Sensor}
    (h : chipSensors calls dir driver chipId = some sensors) :
    PerChannel chipId (fun c => ∃ s ∈ scanners, s.Reports calls dir c) sensors := by
  obtain ⟨parts, hparts, rfl⟩ := Option.map_eq_some_iff.1 h
  have hinput {start : List Char} (hstart : '_' ∉ start) {fname fname' c}
      (hc : inputChannel start fname = some c) (hc' : inputChannel start fname' = some c) :
      fname = fname' := by
    rw [((inputChannel_eq_some hstart).1 hc).2, ((inputChannel_eq_some hstart).1 hc').2]
  refine perChannel_flatten (.cons ?temp (.cons ?fan (.cons ?volt (.cons ?power (.cons ?curr
    (.cons ?pwm .nil)))))) scanners_disjoint hparts
  case temp => exact fun sensors => scanChannels_perChannel (hinput (by decide +kernel))
  case fan => exact fun sensors => scanChannels_perChannel (hinput (by decide +kernel))
  case volt =>
    exact fun sensors => scanChannels_perChannel fun hc hc' =>
      hinput (by decide +kernel) (voltChannel_eq_some hc) (voltChannel_eq_some hc')
  case power =>
    intro sensors hsensors
    rw [← Option.some.inj hsensors]
    exact powerSensors_perChannel
  case curr => exact fun sensors => scanChannels_perChannel (hinput (by decide +kernel))
  case pwm =>
    exact fun sensors => scanChannels_perChannel fun hc hc' =>
      (pwmChannel_eq_some hc).2.symm.trans (pwmChannel_eq_some hc').2

/-- **A chip raises** when a scanner has a reading it cannot send. -/
theorem chipSensors_ne_none :
    chipSensors calls dir driver chipId ≠ none ↔ ∀ s ∈ scanners, ¬ s.Raises calls dir := by
  have hpower : ¬ powerScanner.Raises calls dir := by
    rintro ⟨fname, -, channel, value, -, hvalue⟩
    exact absurd hvalue (by simp [powerScanner])
  have hparts : some (powerSensors calls dir driver chipId) ≠ none := Option.some_ne_none _
  rw [chipSensors, ne_eq, Option.map_eq_none_iff, ← ne_eq, Option.ne_none_iff_exists',
    Traverse.exists_mapM_iff]
  simp only [chipParts, scanners, List.forall_mem_cons, id_eq, scanChannels_ne_none, hpower,
    hparts, ne_eq, not_false_eq_true, true_and]
  simp

end

end OoAgent
