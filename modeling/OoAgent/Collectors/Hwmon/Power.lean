import OoAgent.Collectors.Hwmon.Chips

/-!
# The reading of a power channel

A power channel may have an instant reading in `_input` and an averaged one in `_average`.

* `PowerChannel`, `ChipDir.preferred` — a channel, and the reading that should be sent for it: the
  instant one, or else the average.
* `PowerReported` — a channel is reported once, with that reading.
* `powerReported_iff` — **it is** exactly when the first of its files in the order of the names
  shows that reading; `powerReported_pair_iff` — for a channel that has no other files, exactly
  when its two readings do not differ.
* `power_channels_reported_iff` — all channels of a chip.
-/

namespace OoAgent

open PyText

/-! ## What is preferred -/

/-- `_average`. -/
def averageEnd : List Char := "_average".toList

theorem averageEnd_eq : averageEnd = ['_', 'a', 'v', 'e', 'r', 'a', 'g', 'e'] := by decide +kernel

/-- A power channel: `power` and its number. -/
structure PowerChannel where
  number : List Char
  plain : '_' ∉ number

namespace PowerChannel

/-- The name of a channel. -/
def name (c : PowerChannel) : List Char := "power".toList ++ c.number

theorem underscore_notMem (c : PowerChannel) : '_' ∉ c.name := by
  have hstart : '_' ∉ "power".toList := by decide +kernel
  intro h
  rcases List.mem_append.1 h with hmem | hmem
  · exact hstart hmem
  · exact c.plain hmem

/-- The channel of a file whose name goes on behind an underscore. -/
theorem takeWhile_name (c : PowerChannel) (rest : List Char) :
    (c.name ++ '_' :: rest).takeWhile (· ≠ '_') = c.name := by
  have hall : ∀ x ∈ c.name, decide (x ≠ '_') = true := by
    intro x hx
    refine decide_eq_true ?_
    rintro rfl
    exact c.underscore_notMem hx
  rw [List.takeWhile_append_of_pos hall, List.takeWhile_cons_of_neg (by simp), List.append_nil]

/-- A file `<channel>_…_input` or `<channel>_…_average` is one of the channel. -/
theorem powerChannel_eq (c : PowerChannel) {rest : List Char}
    (h : inputEnd <:+ '_' :: rest ∨ averageEnd <:+ '_' :: rest) :
    powerChannel (c.name ++ '_' :: rest) = some c.name := by
  have hbegins : "power".toList <+: c.name ++ '_' :: rest := by
    rw [name, List.append_assoc]
    exact List.prefix_append _ _
  have hends : inputEnd <:+ c.name ++ '_' :: rest ∨ averageEnd <:+ c.name ++ '_' :: rest :=
    h.imp (List.suffix_append_of_suffix ·) (List.suffix_append_of_suffix ·)
  rw [powerChannel, c.takeWhile_name, if_pos]
  rw [Bool.and_eq_true, Bool.or_eq_true, List.isPrefixOf_iff_prefix, List.isSuffixOf_iff_suffix,
    List.isSuffixOf_iff_suffix]
  exact ⟨hbegins, hends⟩

theorem powerChannel_input (c : PowerChannel) :
    powerChannel (c.name ++ inputEnd) = some c.name := by
  rw [inputEnd_eq]
  refine c.powerChannel_eq (.inl ?_)
  rw [inputEnd_eq]

theorem powerChannel_average (c : PowerChannel) :
    powerChannel (c.name ++ averageEnd) = some c.name := by
  rw [averageEnd_eq]
  refine c.powerChannel_eq (.inr ?_)
  rw [averageEnd_eq]

end PowerChannel

/-- A power between 0 and 20000 W. -/
def inPowerRange : PyFloat → Bool
  | .finite q => decide (0 ≤ q ∧ q ≤ 20000)
  | .negZero => true
  | _ => false

/-- A power in the range is not bogus. -/
theorem not_bogus_of_inPowerRange {x : PyFloat} (h : inPowerRange x = true) :
    powerScanner.bogus x = false := by
  cases x with
  | finite q =>
    have hq := of_decide_eq_true h
    show (decide (q < 0) || decide (20000 < q)) = false
    rw [decide_eq_false hq.1.not_gt, decide_eq_false hq.2.not_gt]
    rfl
  | negZero => rfl
  | inf negative => cases h
  | nan => cases h

namespace ChipDir

variable (calls : FloatCalls) (dir : ChipDir)

/-- The power in a file, if it has one in the range. -/
def power (fname : List Char) : Option PyFloat :=
  (dir.readNum calls fname powerScanner.scale).filter inPowerRange

/-- The reading for a channel: the instant one, or else the average. -/
def preferred (c : PowerChannel) : Option PyFloat :=
  (dir.power calls (c.name ++ inputEnd)).or (dir.power calls (c.name ++ averageEnd))

/-- The file is the first of the channel, in the order of the names, that has a reading which is
not bogus. -/
def FirstTaken (c : PowerChannel) (fname : List Char) (x : PyFloat) : Prop :=
  fname ∈ dir.names ∧ powerScanner.reading calls dir fname = some (c.name, x) ∧
    ∀ fname' ∈ dir.names, (∃ x', powerScanner.reading calls dir fname' = some (c.name, x')) →
      fname ≤ fname'

end ChipDir

/-- The channel is reported once, with the instant reading or else the average; without either,
not at all. -/
def PowerReported (calls : FloatCalls) (dir : ChipDir) (driver chipId : List Char)
    (c : PowerChannel) : Prop :=
  let own := (powerSensors calls dir driver chipId).filter fun s => s.id = channelId chipId c.name
  (∀ x, dir.preferred calls c = some x →
    ∃ sensor, own = [sensor] ∧ sensor.value = .float (calls.round x 1)) ∧
  (dir.preferred calls c = none → own = [])

/-! ## The first reading is sent -/

section

variable {calls : FloatCalls} {dir : ChipDir} {driver chipId : List Char}

/-- The reading of a file for the channel. -/
def ownReading (calls : FloatCalls) (dir : ChipDir) (channel fname : List Char) :
    Option PyFloat :=
  (powerScanner.reading calls dir fname).bind fun item =>
    if item.1 = channel then some item.2 else none

theorem ownReading_eq_some {channel fname : List Char} {x : PyFloat} :
    ownReading calls dir channel fname = some x ↔
      powerScanner.reading calls dir fname = some (channel, x) := by
  simp [ownReading, Option.bind_eq_some_iff]

/-- A sensor of a power channel shows the reading. -/
theorem powerSensor_eq_some (item : List Char × PyFloat) :
    ∃ sensor, powerScanner.sensor calls dir driver chipId item = some sensor ∧
      sensor.id = channelId chipId item.1 ∧ sensor.value = .float (calls.round item.2 1) :=
  ⟨_, rfl, rfl, rfl⟩

/-- What a file adds for a channel. -/
theorem filter_sensor_of_reading {channel fname : List Char}
    (hown : ∀ item, powerScanner.reading calls dir fname = some item → item.1 = channel) :
    ((powerScanner.reading calls dir fname).bind
        (powerScanner.sensor calls dir driver chipId)).toList.filter
        (fun s => s.id = channelId chipId channel) =
      ((ownReading calls dir channel fname).bind fun x =>
        powerScanner.sensor calls dir driver chipId (channel, x)).toList := by
  unfold ownReading
  cases hreading : powerScanner.reading calls dir fname with
  | none => rfl
  | some item =>
    obtain ⟨c, x⟩ := item
    obtain rfl : c = channel := hown (c, x) hreading
    obtain ⟨sensor, hsensor, hid, -⟩ :=
      @powerSensor_eq_some calls dir driver chipId (c, x)
    simp [hsensor, hid]

/-- A file of another channel adds nothing. -/
theorem filter_sensor_of_other {channel other fname : List Char} (hne : other ≠ channel)
    (hother : powerChannel fname = some other) :
    ((powerScanner.reading calls dir fname).bind
        (powerScanner.sensor calls dir driver chipId)).toList.filter
        (fun s => s.id = channelId chipId channel) = [] := by
  cases hreading : powerScanner.reading calls dir fname with
  | none => rfl
  | some item =>
    obtain ⟨sensor, hsensor, hid, -⟩ := @powerSensor_eq_some calls dir driver chipId item
    have hitem : item.1 = other :=
      Option.some.inj ((Scanner.channel_of_reading hreading).symm.trans hother)
    have hneq : sensor.id ≠ channelId chipId channel := by
      rw [hid, hitem]
      exact fun heq => hne (channelId_injective chipId heq)
    simp [hsensor, hneq]

/-- One step of the loop of `_power_sensors`: a file adds a sensor to a channel that has none. -/
theorem own_powerStep {channel fname : List Char} {sensors : List Sensor} {first : Option PyFloat}
    (h : (sensors.filter fun s => s.id = channelId chipId channel) =
      (first.bind fun x => powerScanner.sensor calls dir driver chipId (channel, x)).toList) :
    ((powerStep calls dir driver chipId sensors fname).filter
        fun s => s.id = channelId chipId channel) =
      ((first.or (ownReading calls dir channel fname)).bind fun x =>
        powerScanner.sensor calls dir driver chipId (channel, x)).toList := by
  unfold powerStep
  cases hchannel : powerChannel fname with
  | none =>
    have hnone : ownReading calls dir channel fname = none := by
      refine Option.eq_none_iff_forall_ne_some.2 fun x hx => ?_
      have hreads := Scanner.channel_of_reading (ownReading_eq_some.1 hx)
      exact absurd (hreads.symm.trans hchannel) (by simp)
    rw [hnone, Option.or_none]
    exact h
  | some own =>
    have hown : ∀ item, powerScanner.reading calls dir fname = some item → item.1 = own :=
      fun item hitem =>
        Option.some.inj ((Scanner.channel_of_reading hitem).symm.trans hchannel)
    dsimp only
    by_cases hc : own = channel
    · subst hc
      cases first with
      | none =>
        have hnew : (sensors.any fun s => s.id = channelId chipId own) = false := by
          have hnil := List.filter_eq_nil_iff.1 h
          exact List.any_eq_false.2 hnil
        rw [hnew, if_neg (by simp), List.filter_append, h, Option.none_or]
        exact filter_sensor_of_reading hown
      | some x =>
        obtain ⟨sensor, hsensor, -, -⟩ := @powerSensor_eq_some calls dir driver chipId (own, x)
        have hthere : (sensors.any fun s => s.id = channelId chipId own) = true := by
          have hmem : sensor ∈ sensors.filter fun s => s.id = channelId chipId own := by
            rw [h, Option.bind_some, hsensor]
            exact List.mem_singleton_self sensor
          exact List.any_eq_true.2 ⟨sensor, List.mem_filter.1 hmem⟩
        rw [hthere, if_pos rfl, h, Option.some_or]
    · have hnone : ownReading calls dir channel fname = none := by
        refine Option.eq_none_iff_forall_ne_some.2 fun x hx => ?_
        exact hc (hown _ (ownReading_eq_some.1 hx)).symm
      rw [hnone, Option.or_none]
      split_ifs with hthere
      · exact h
      · rw [List.filter_append, h, filter_sensor_of_other hc hchannel, List.append_nil]

/-- **The sensors of a channel**, in the loop of `_power_sensors`: that of the first reading. -/
theorem own_foldl_powerStep (channel : List Char) (names : List (List Char)) :
    ((names.foldl (powerStep calls dir driver chipId) []).filter
        fun s => s.id = channelId chipId channel) =
      ((names.findSome? (ownReading calls dir channel)).bind fun x =>
        powerScanner.sensor calls dir driver chipId (channel, x)).toList := by
  induction names using List.reverseRecOn with
  | nil => rfl
  | append_singleton names fname ih =>
    rw [List.foldl_append, List.findSome?_append, List.findSome?_singleton]
    exact own_powerStep ih

/-- The first reading of a channel is that of the first file with one. -/
theorem findSome?_ownReading {c : PowerChannel} {x : PyFloat} :
    dir.names.findSome? (ownReading calls dir c.name) = some x ↔
      ∃ fname, dir.FirstTaken calls c fname x := by
  have hsorted : dir.names.Pairwise (· ≤ ·) := List.pairwise_insertionSort _ _
  rw [Traverse.findSome?_of_sorted hsorted]
  simp only [ownReading_eq_some]
  exact ⟨fun ⟨fname, h⟩ => ⟨fname, h⟩, fun ⟨fname, h⟩ => ⟨fname, h⟩⟩

/-- A file with a power in the range is taken. -/
theorem reading_of_power {c : PowerChannel} {fname : List Char} {x : PyFloat}
    (hchannel : powerChannel fname = some c.name) (hx : dir.power calls fname = some x) :
    fname ∈ dir.names ∧ powerScanner.reading calls dir fname = some (c.name, x) := by
  obtain ⟨hnum, hrange⟩ := Option.filter_eq_some_iff.1 hx
  constructor
  · obtain ⟨y, hy, -⟩ := Option.map_eq_some_iff.1 hnum
    obtain ⟨text, htext, -⟩ := Option.bind_eq_some_iff.1 hy
    obtain ⟨content, hcontent, -⟩ := Option.map_eq_some_iff.1 htext
    have hfile := Dict.mem_of_get (Option.join_eq_some_iff.1 hcontent)
    exact (List.perm_insertionSort _ _).mem_iff.2 (List.mem_map_of_mem hfile)
  · have hbogus := not_bogus_of_inPowerRange hrange
    show ((powerChannel fname).bind fun channel =>
      (dir.readNum calls fname powerScanner.scale).bind fun value =>
        if powerScanner.bogus value then none else some (channel, value)) = some (c.name, x)
    rw [hchannel, Option.bind_some, hnum, Option.bind_some, hbogus]
    rfl

/-- The preferred reading is taken from one of the files. -/
theorem reading_of_preferred {c : PowerChannel} {x : PyFloat}
    (hx : dir.preferred calls c = some x) :
    ∃ fname ∈ dir.names, powerScanner.reading calls dir fname = some (c.name, x) := by
  rcases Option.or_eq_some_iff.1 hx with hinput | ⟨-, haverage⟩
  · exact ⟨_, reading_of_power c.powerChannel_input hinput⟩
  · exact ⟨_, reading_of_power c.powerChannel_average haverage⟩

end

/-- **A power channel is reported with the preferred reading** exactly when the first of its files
in the order of the names that has a reading shows the same one, in tenths of a watt. -/
theorem powerReported_iff (calls : FloatCalls) (dir : ChipDir) (driver chipId : List Char)
    (c : PowerChannel) :
    PowerReported calls dir driver chipId c ↔
    ∀ fname x, dir.FirstTaken calls c fname x →
      ∃ y, dir.preferred calls c = some y ∧ calls.round x 1 = calls.round y 1 := by
  have hown := @own_foldl_powerStep calls dir driver chipId c.name dir.names
  unfold PowerReported
  rw [show powerSensors calls dir driver chipId = dir.names.foldl _ [] from rfl, hown]
  cases hfirst : dir.names.findSome? (ownReading calls dir c.name) with
  | none =>
    have hnone : dir.preferred calls c = none := by
      refine Option.eq_none_iff_forall_ne_some.2 fun x hx => ?_
      obtain ⟨fname, hfname, hreading⟩ := reading_of_preferred hx
      have hmiss := List.findSome?_eq_none_iff.1 hfirst fname hfname
      exact absurd (hmiss.symm.trans (ownReading_eq_some.2 hreading)) (by simp)
    constructor
    · intro _ fname x hx
      have hsome := findSome?_ownReading.2 ⟨fname, hx⟩
      exact absurd (hfirst.symm.trans hsome) (by simp)
    · intro _
      refine ⟨fun x hx => ?_, fun _ => rfl⟩
      exact absurd (hnone.symm.trans hx) (by simp)
  | some x =>
    obtain ⟨sensor, hsensor, -, hvalue⟩ := @powerSensor_eq_some calls dir driver chipId (c.name, x)
    rw [Option.bind_some, hsensor]
    constructor
    · rintro ⟨hsome, hnone⟩ fname x' hx'
      have heq := hfirst.symm.trans (findSome?_ownReading.2 ⟨fname, hx'⟩)
      obtain rfl := Option.some.inj heq
      cases hpreferred : dir.preferred calls c with
      | none => exact absurd (hnone hpreferred) (by simp)
      | some y =>
        obtain ⟨sensor', hlist, hvalue'⟩ := hsome y hpreferred
        obtain rfl := List.singleton_injective hlist
        rw [hvalue] at hvalue'
        exact ⟨y, rfl, Value.float.inj hvalue'⟩
    · intro h
      obtain ⟨fname, hfname⟩ := findSome?_ownReading.1 hfirst
      obtain ⟨y, hy, hround⟩ := h fname x hfname
      constructor
      · intro z hz
        obtain rfl := Option.some.inj (hy.symm.trans hz)
        exact ⟨sensor, rfl, by rw [hvalue, hround]⟩
      · intro hnone
        exact absurd (hy.symm.trans hnone) (by simp)

/-- The average comes before the instant reading in the order of the names. -/
theorem average_lt_input (c : PowerChannel) : c.name ++ averageEnd < c.name ++ inputEnd := by
  have hends : averageEnd < inputEnd := by decide +kernel
  exact List.append_left_lt hends

/-- **A channel that has no other file** is reported with the preferred reading exactly when its
instant reading and its average, if it has both, are the same in tenths of a watt. -/
theorem powerReported_pair_iff (calls : FloatCalls) (dir : ChipDir) (driver chipId : List Char)
    (c : PowerChannel)
    (honly : ∀ fname x, powerScanner.reading calls dir fname = some (c.name, x) →
      (fname = c.name ++ inputEnd ∨ fname = c.name ++ averageEnd) ∧
        dir.power calls fname = some x) :
    PowerReported calls dir driver chipId c ↔
    ∀ x y, dir.power calls (c.name ++ inputEnd) = some x →
      dir.power calls (c.name ++ averageEnd) = some y → calls.round y 1 = calls.round x 1 := by
  rw [powerReported_iff]
  constructor
  · intro h x y hx hy
    obtain ⟨hmem, hreading⟩ := reading_of_power c.powerChannel_average hy
    have hfirst : dir.FirstTaken calls c (c.name ++ averageEnd) y := by
      refine ⟨hmem, hreading, ?_⟩
      rintro fname - ⟨z, hz⟩
      rcases (honly fname z hz).1 with rfl | rfl
      · exact (average_lt_input c).le
      · exact le_rfl
    obtain ⟨z, hz, hround⟩ := h _ y hfirst
    rw [ChipDir.preferred, hx, Option.some_or] at hz
    rw [hround, Option.some.inj hz]
  · rintro h fname x ⟨-, hreading, -⟩
    obtain ⟨hname, hx⟩ := honly fname x hreading
    unfold ChipDir.preferred
    rcases hname with rfl | rfl
    · exact ⟨x, by rw [hx, Option.some_or], rfl⟩
    · cases hinput : dir.power calls (c.name ++ inputEnd) with
      | none => exact ⟨x, by rw [hx, Option.none_or], rfl⟩
      | some z => exact ⟨z, rfl, h z x hinput hx⟩

/-- **Every power channel of a chip** is reported once, with the instant reading where there is one,
exactly when no file of a channel that comes first shows another reading than the preferred one. -/
theorem power_channels_reported_iff (calls : FloatCalls) (dir : ChipDir)
    (driver chipId : List Char) :
    (∀ c, PowerReported calls dir driver chipId c) ↔
    ∀ c fname x, dir.FirstTaken calls c fname x →
      ∃ y, dir.preferred calls c = some y ∧ calls.round x 1 = calls.round y 1 :=
  forall_congr' fun c => powerReported_iff calls dir driver chipId c

/-- A chip with 50 W now, and 40 W on average. -/
def loadedChip : ChipDir where
  files := [("power1_input".toList, some "50000000\n".toList),
    ("power1_average".toList, some "40000000\n".toList)]
  nodup := by
    show ["power1_input".toList, "power1_average".toList].Nodup
    decide +kernel
  plain := by
    show ∀ name ∈ ["power1_input".toList, "power1_average".toList], '/' ∉ name
    decide +kernel

/-- **The average is sent** for a channel that has an instant reading. -/
theorem average_shadows_input :
    ¬ ∀ (calls : FloatCalls) (dir : ChipDir) (driver chipId : List Char) (c : PowerChannel),
      PowerReported calls dir driver chipId c := by
  intro h
  have hone := h sampleFloats loadedChip "amdgpu".toList "hwmon:amdgpu".toList
    { number := ['1'], plain := by decide +kernel }
  obtain ⟨sensor, hown, hvalue⟩ := hone.1 (.finite 50) (by decide +kernel)
  have hfirst : loadedChip.names.findSome? (ownReading sampleFloats loadedChip "power1".toList) =
      some (.finite 40) := by decide +kernel
  have hname : PowerChannel.name { number := ['1'], plain := by decide +kernel } =
      "power1".toList := by decide +kernel
  rw [hname, show powerSensors sampleFloats loadedChip "amdgpu".toList "hwmon:amdgpu".toList =
    loadedChip.names.foldl _ [] from rfl, own_foldl_powerStep, hfirst] at hown
  obtain rfl := List.singleton_injective hown
  have heq := Value.float.inj hvalue
  exact absurd heq (by decide +kernel)

end OoAgent
