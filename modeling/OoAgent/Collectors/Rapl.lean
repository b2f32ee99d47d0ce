import OoAgent.Core.Rates
import OoAgent.Python.Datetime
import OoAgent.Python.Digits

/-!
# The power sensors of RAPL

`RaplCollector` (`oo_agent/collectors/rapl.py`), in exact arithmetic.  The files under
`/sys/class/powercap` count energy in µJ, and the sensors show power in W.

* `discoverDomains` — the domains with a counter; `nodup_sensorIds` — each has an id of its own.
* `raplCollect` — one pass, and `RaplRun` the passes of one collector, of which the first only
  primes the counters.
* `reports_eq` — the sensors of a pass are those of the rates of the run.
* `energy_reported` — **the watts account for the energy** a domain has used, up to what rounding
  them to one decimal can do.
-/

namespace OoAgent

open PyText PyTime Increments

/-! ## Domains -/

/-- The text of a file in an entry of `/sys/class/powercap`, if there is one. -/
abbrev Powercap := String → String → Option (List Char)

/-- `_read`: the text of a file, if it is plain ASCII. -/
def Powercap.read (files : Powercap) (entry file : String) : Option (List Char) :=
  ((files entry file).filter fun text => text.all fun c => c.toNat < 128).map strip

/-- An item of `discover_domains`. -/
structure RaplDomain where
  sensorId : String
  label : List Char
  /-- The entry whose `energy_uj` is read. -/
  entry : String

/-- The domain of an entry, if it has a name and a counter. -/
def discoverDomain (files : Powercap) (entry : String) : Option RaplDomain :=
  if "intel-rapl".toList.isPrefixOf entry.toList then do
    let name ← files.read entry "name"
    let _ ← files.read entry "energy_uj"
    let label :=
      match (split ':' entry.toList).tail with
      | socket :: _ :: _ => name ++ '-' :: socket
      | _ => name
    some { sensorId := "rapl:" ++ entry, label := label, entry := entry }
  else none

/-- `discover_domains`, from the sorted names in the directory. -/
def discoverDomains (entries : List String) (files : Powercap) : List RaplDomain :=
  entries.filterMap (discoverDomain files)

theorem sensorId_discoverDomain {files : Powercap} {entry : String} {d : RaplDomain}
    (h : discoverDomain files entry = some d) : d.sensorId = "rapl:" ++ entry := by
  unfold discoverDomain at h
  split at h
  · obtain ⟨name, -, h⟩ := Option.bind_eq_some_iff.1 h
    obtain ⟨raw, -, h⟩ := Option.bind_eq_some_iff.1 h
    rw [← Option.some.inj h]
  · cases h

/-- **Every domain has an id of its own.** -/
theorem nodup_sensorIds {entries : List String} (h : entries.Nodup) (files : Powercap) :
    ((discoverDomains entries files).map RaplDomain.sensorId).Nodup := by
  rw [discoverDomains, List.nodup_iff_pairwise_ne, List.pairwise_map, List.pairwise_filterMap]
  apply h.imp
  intro entry entry' hne d hd d' hd' heq
  rw [sensorId_discoverDomain hd, sensorId_discoverDomain hd'] at heq
  apply hne
  have hlist := congrArg String.toList heq
  rw [String.toList_append, String.toList_append, List.append_cancel_left_eq] at hlist
  exact String.toList_injective hlist

/-! ## One pass -/

/-- The counter of a domain, if its file holds plain digits. -/
def RaplDomain.energy (d : RaplDomain) (files : Powercap) : Option ℚ :=
  (files.read d.entry "energy_uj").bind fun raw =>
    if raw ≠ [] ∧ raw.all isDigit = true then some (asciiValue raw) else none

/-- The counters of a pass. -/
def raplCounters (domains : List RaplDomain) (files : Powercap) : Dict String ℚ :=
  Dict.update []
    (domains.filterMap fun d => (d.energy files).map fun energy => (d.sensorId, energy))

/-- A sensor of the report. -/
structure RaplSensor where
  id : String
  name : List Char
  kind : String
  value : ℚ
  unit : String

/-- `round(x, 1)`. -/
def round1 (x : ℚ) : ℚ := (roundHalfEven (10 * x) : ℚ) / 10

/-- The sensor of a domain, if it has a rate below 5 kW. -/
def RaplDomain.sensor (d : RaplDomain) (watts : Dict String ℚ) : Option RaplSensor :=
  (watts.get d.sensorId).bind fun w =>
    if w < 5000 then
      some
        { id := d.sensorId, name := "CPU power ".toList ++ d.label, kind := "cpu"
          value := round1 w, unit := "W" }
    else none

/-- The sensors for the rates of the counters. -/
def raplSensors (domains : List RaplDomain) (rates : Dict String ℚ) : List RaplSensor :=
  let watts := rates.map fun (key, value) => (key, value / 1000000)
  domains.filterMap fun d => d.sensor watts

/-- A pass of the collector: what the files hold, and the two readings of the clock. -/
structure RaplPass where
  files : Powercap
  now : ℚ
  stored : ℚ

/-- The call of `rates` that a pass makes. -/
def RaplPass.call (pass : RaplPass) (domains : List RaplDomain) : RateCall :=
  { now := pass.now, stored := pass.stored, values := raplCounters domains pass.files }

/-- `RaplCollector.collect`: the tracker afterwards, and the sensors. -/
def raplCollect (domains : List RaplDomain) (t : RateTracker) (pass : RaplPass) :
    RateTracker × List RaplSensor :=
  ((t.rates (pass.call domains)).1, raplSensors domains (t.rates (pass.call domains)).2)

/-- The collector as a machine that logs its reports. -/
def raplMachine (domains : List RaplDomain) : Machine RateTracker RaplPass (List RaplSensor) where
  step t pass := ((raplCollect domains t pass).1, [(raplCollect domains t pass).2])

/-! ## What one pass says -/

/-- Each domain has its own counter. -/
theorem get_raplCounters {domains : List RaplDomain}
    (hdistinct : (domains.map RaplDomain.sensorId).Nodup) {d : RaplDomain} (hd : d ∈ domains)
    (files : Powercap) : (raplCounters domains files).get d.sensorId = d.energy files := by
  have hown {d' : RaplDomain} (hd' : d' ∈ domains) (hid : d'.sensorId = d.sensorId) : d' = d :=
    List.inj_on_of_nodup_map hdistinct hd' hd hid
  cases henergy : d.energy files with
  | none =>
    rw [raplCounters, Dict.get_update_of_notMem]
    · rfl
    · intro hmem
      obtain ⟨item, hitem, hkey⟩ := List.mem_map.1 hmem
      obtain ⟨d', hd', hsome⟩ := List.mem_filterMap.1 hitem
      obtain ⟨energy, henergy', rfl⟩ := Option.map_eq_some_iff.1 hsome
      rw [hown hd' hkey, henergy] at henergy'
      cases henergy'
  | some energy =>
    apply Dict.get_update_of_agree
    · exact List.mem_filterMap.2 ⟨d, hd, by rw [henergy, Option.map_some]⟩
    · intro energy' hmem
      obtain ⟨d', hd', hsome⟩ := List.mem_filterMap.1 hmem
      obtain ⟨energy'', henergy', hitem⟩ := Option.map_eq_some_iff.1 hsome
      obtain ⟨hkey, rfl⟩ := Prod.mk.inj hitem
      rw [hown hd' hkey, henergy] at henergy'
      exact (Option.some.inj henergy').symm

theorem abs_round1_sub_le (x : ℚ) : |round1 x - x| ≤ 1 / 20 := by
  have hround := abs_le.1 (abs_roundHalfEven_sub_le (10 * x))
  rw [round1, abs_le]
  constructor <;> linarith [hround.1, hround.2]

/-- The sensor of a domain with a rate below 5 kW. -/
theorem mem_raplSensors {domains : List RaplDomain} {d : RaplDomain} (hd : d ∈ domains)
    {rates : Dict String ℚ} {rate : ℚ} (hrate : rates.get d.sensorId = some rate)
    (hlow : rate / 1000000 < 5000) :
    ∃ s ∈ raplSensors domains rates, s.id = d.sensorId ∧ s.value = round1 (rate / 1000000) := by
  have hwatts := Dict.get_map (fun _ value => value / 1000000) rates d.sensorId
  rw [hrate, Option.map_some] at hwatts
  refine ⟨⟨d.sensorId, "CPU power ".toList ++ d.label, "cpu", round1 (rate / 1000000), "W"⟩,
    List.mem_filterMap.2 ⟨d, hd, ?_⟩, rfl, rfl⟩
  rw [RaplDomain.sensor, hwatts, Option.bind_some, if_pos hlow]

/-- Without rates there are no sensors. -/
theorem raplSensors_nil (domains : List RaplDomain) : raplSensors domains [] = [] :=
  List.filterMap_eq_nil_iff.2 fun _ _ => rfl

/-! ## Whole runs -/

/-- The passes of one collector: the domains it has found, the pass that primes the counters, and
those that follow, each of which begins after the sample before it was stored. -/
structure RaplRun where
  domains : List RaplDomain
  distinct : (domains.map RaplDomain.sensorId).Nodup
  first : RaplPass
  passes : List RaplPass
  increasing : ∀ reading ∈ clockOf first.stored (passes.map fun pass => pass.call domains),
    reading.1 < reading.2

namespace RaplRun

variable (run : RaplRun)

/-- The calls of the tracker after the first. -/
def calls : List RateCall := run.passes.map fun pass => pass.call run.domains

/-- The run of the tracker. -/
def rates : RateRun where
  primed := (run.first.call run.domains).toSample
  calls := run.calls
  increasing := run.increasing

theorem calls_rates : run.rates.calls = run.calls := rfl

/-- The reports of the passes, with that of the first. -/
def reports : List (List RaplSensor) :=
  ((raplMachine run.domains).run RateTracker.init (run.first :: run.passes)).2

/-- A pass reports on the rates that its call of the tracker returned. -/
theorem raplMachine_run (domains : List RaplDomain) (t : RateTracker) (passes : List RaplPass) :
    ((raplMachine domains).run t passes).2 =
      (RateTracker.machine.run t (passes.map fun pass => pass.call domains)).2.map
        (raplSensors domains) := by
  induction passes generalizing t with
  | nil => rfl
  | cons pass passes ih =>
    rw [List.map_cons, Machine.run_cons, Machine.run_cons, List.map_append]
    show [raplSensors domains _] ++ ((raplMachine domains).run _ passes).2 = _
    rw [ih]
    rfl

/-- **The sensors of a run**: none in the first pass, and then those of the rates. -/
theorem reports_eq : run.reports = [] :: run.rates.log.map (raplSensors run.domains) := by
  rw [reports, raplMachine_run, List.map_cons, Machine.run_cons]
  show raplSensors run.domains [] :: _ = _
  rw [raplSensors_nil]
  rfl

/-- The pass of a run, counted from the first. -/
def pass (i : ℕ) : Option RaplPass := (run.first :: run.passes)[i]?

theorem counter_rates {d : RaplDomain} (hd : d ∈ run.domains) (i : ℕ) :
    run.rates.counter d.sensorId i = (run.pass i).bind fun pass => d.energy pass.files := by
  cases i with
  | zero => exact get_raplCounters run.distinct hd run.first.files
  | succ i =>
    rw [RateRun.counter_succ, pass, List.getElem?_cons_succ, calls_rates, calls,
      List.getElem?_map]
    cases run.passes[i]? with
    | none => rfl
    | some pass => exact get_raplCounters run.distinct hd pass.files

/-- The report of a pass after the first has a sensor for a domain that has a low enough rate. -/
theorem exists_sensor {d : RaplDomain} (hd : d ∈ run.domains) {i : ℕ} {rate : ℚ}
    (hrate : run.rates.rate d.sensorId i = some rate) (hlow : rate / 1000000 < 5000) :
    ∃ sensors, run.reports[i + 1]? = some sensors ∧
      ∃ s ∈ sensors, s.id = d.sensorId ∧ |s.value - rate / 1000000| ≤ 1 / 20 := by
  obtain ⟨result, hresult, hget⟩ := Option.bind_eq_some_iff.1 hrate
  obtain ⟨s, hs, hid, hvalue⟩ := mem_raplSensors hd hget hlow
  refine ⟨raplSensors run.domains result, ?_, s, hs, hid, ?_⟩
  · rw [reports_eq, List.getElem?_cons_succ, List.getElem?_map, hresult, Option.map_some]
  · rw [hvalue]
    exact abs_round1_sub_le _

/-- **The watts account for the energy.**  A domain that is read in every pass, whose counter never
falls and never shows 5 kW or more, has a sensor in every pass after the first; these, times the
seconds they are for, make up the energy it has used but for a twentieth of a watt. -/
theorem energy_reported {d : RaplDomain} (hd : d ∈ run.domains) {energy : ℕ → ℚ}
    (hread : ∀ i ≤ run.passes.length,
      (run.pass i).bind (fun pass => d.energy pass.files) = some (energy i))
    (hmono : ∀ i < run.passes.length, energy i ≤ energy (i + 1))
    (hlow : ∀ i < run.passes.length,
      (energy (i + 1) - energy i) / 1000000 < 5000 * run.rates.interval i) :
    ∃ value : ℕ → ℚ,
      (∀ i < run.passes.length, ∃ sensors, run.reports[i + 1]? = some sensors ∧
        ∃ s ∈ sensors, s.id = d.sensorId ∧ s.value = value i) ∧
      |∑ i ∈ Finset.range run.passes.length, value i * run.rates.interval i -
          (energy run.passes.length - energy 0) / 1000000| ≤
        1 / 20 * ∑ i ∈ Finset.range run.passes.length, run.rates.interval i := by
  have hlength : run.rates.calls.length = run.passes.length := List.length_map _
  have hpos (i : ℕ) (hi : i < run.passes.length) : 0 < run.rates.interval i :=
    RateRun.interval_pos (hlength ▸ hi)
  let rate (i : ℕ) : ℚ := max 0 ((energy (i + 1) - energy i) / run.rates.interval i)
  have hmul (i : ℕ) (hi : i < run.passes.length) :
      rate i * run.rates.interval i = energy (i + 1) - energy i := by
    rw [max_div_mul _ _ (hpos i hi), rise_of_le (hmono i hi)]
  have hsensor (i : ℕ) : ∃ value, i < run.passes.length →
      (∃ sensors, run.reports[i + 1]? = some sensors ∧
        ∃ s ∈ sensors, s.id = d.sensorId ∧ s.value = value) ∧
      |value - rate i / 1000000| ≤ 1 / 20 := by
    by_cases hi : i < run.passes.length
    · have hrate : run.rates.rate d.sensorId i = some (rate i) := by
        rw [RateRun.rate_eq, run.counter_rates hd, run.counter_rates hd, hread i hi.le,
          hread (i + 1) hi]
        rfl
      have hwatts : rate i / 1000000 < 5000 := by
        rw [← mul_lt_mul_iff_of_pos_right (hpos i hi), div_mul_eq_mul_div, hmul i hi]
        exact hlow i hi
      obtain ⟨sensors, hreport, s, hs, hid, hclose⟩ := run.exists_sensor hd hrate hwatts
      exact ⟨s.value, fun _ => ⟨⟨sensors, hreport, s, hs, hid, rfl⟩, hclose⟩⟩
    · exact ⟨0, fun h => absurd h hi⟩
  choose value hvalue using hsensor
  have htotal : ∑ i ∈ Finset.range run.passes.length, rate i / 1000000 * run.rates.interval i =
      (energy run.passes.length - energy 0) / 1000000 := by
    rw [← Finset.sum_range_sub, Finset.sum_div]
    apply Finset.sum_congr rfl
    intro i hi
    rw [div_mul_eq_mul_div, hmul i (Finset.mem_range.1 hi)]
  refine ⟨value, fun i hi => (hvalue i hi).1, ?_⟩
  rw [← htotal]
  exact abs_sum_mul_sub_le (fun i hi => (hpos i hi).le) fun i hi => (hvalue i hi).2

/-- The files of one socket whose counter shows this. -/
def socketFiles (energy : String) : Powercap := fun entry file =>
  if entry = "intel-rapl:0" ∧ file = "name" then some "package-0\n".toList
  else if entry = "intel-rapl:0" ∧ file = "energy_uj" then some energy.toList
  else none

/-- A socket that takes 90 J in one minute and 30 J in the next. -/
def sampleRaplRun : RaplRun where
  domains := [{ sensorId := "rapl:intel-rapl:0", label := "package-0".toList
                entry := "intel-rapl:0" }]
  distinct := List.nodup_singleton _
  first := { files := socketFiles "1000000\n", now := 0, stored := 0 }
  passes := [{ files := socketFiles "91000000\n", now := 60, stored := 60 },
    { files := socketFiles "121000000\n", now := 120, stored := 120 }]
  increasing := by decide +kernel

theorem energy_reported_socket : ∃ value : ℕ → ℚ,
    |∑ i ∈ Finset.range 2, value i * sampleRaplRun.rates.interval i - 120| ≤ 6 := by
  obtain ⟨value, -, hsum⟩ := @energy_reported sampleRaplRun _ List.mem_cons_self
    (fun i => [1000000, 91000000, 121000000].getD i 0) (by decide +kernel) (by decide +kernel)
    (by decide +kernel)
  refine ⟨value, ?_⟩
  have hintervals : ∑ i ∈ Finset.range 2, sampleRaplRun.rates.interval i = 120 := by
    decide +kernel
  change |∑ i ∈ Finset.range 2, value i * sampleRaplRun.rates.interval i -
    (121000000 - 1000000) / 1000000| ≤
      1 / 20 * ∑ i ∈ Finset.range 2, sampleRaplRun.rates.interval i at hsum
  rw [hintervals] at hsum
  norm_num at hsum ⊢
  exact hsum

end RaplRun

end OoAgent
