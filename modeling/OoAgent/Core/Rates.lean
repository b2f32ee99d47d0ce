import OoAgent.Lib.Dict
import OoAgent.Lib.Increments
import OoAgent.Lib.Machine

/-!
# Rates from counters

`RateTracker` (`oo_agent/core/rates.py`), in exact arithmetic.  A call of `rates` reads the clock
twice: at its top, and once more when `prime` stores its sample.

* `RateTracker.prime`, `RateTracker.rates` — the two methods.
* `RateRun` — a tracker that is primed once and then called again and again, and what it returned;
  `log_eq` — **every call answers for the sample before it**, and for nothing earlier.
* `rate_eq` — a rate by the two readings of its counter; `rate_unreset` — **a reset is one zero**
  and changes no other rate.
* `increments_accounted` — **every increment is accounted for once**.
-/

namespace OoAgent

open Increments

/-! ## The tracker -/

/-- A sample: the clock when it is stored, and the counters. -/
structure Sample where
  stored : ℚ
  values : Dict String ℚ

/-- A call of `rates`: the sample it stores, and the clock at its top. -/
structure RateCall extends Sample where
  now : ℚ

/-- The state of a `RateTracker`. -/
structure RateTracker where
  /-- `_at`. -/
  sampledAt : Option ℚ
  values : Dict String ℚ

namespace RateTracker

/-- `RateTracker.__init__`. -/
def init : RateTracker := { sampledAt := none, values := [] }

/-- `RateTracker.prime`, which forgets the sample before. -/
def prime (_ : RateTracker) (sample : Sample) : RateTracker :=
  { sampledAt := some sample.stored, values := sample.values }

/-- `RateTracker.rates`: the tracker afterwards, and what is returned. -/
def rates (t : RateTracker) (call : RateCall) : RateTracker × Dict String ℚ :=
  match t.sampledAt with
  | none => (t.prime call.toSample, [])
  | some sampledAt =>
    if call.now ≤ sampledAt then (t.prime call.toSample, [])
    else
      let dt := call.now - sampledAt
      (t.prime call.toSample,
        call.values.map fun (key, value) =>
          (key, max 0 ((value - (t.values.get key).getD value) / dt)))

/-- The tracker as a machine that logs what its calls return. -/
def machine : Machine RateTracker RateCall (Dict String ℚ) where
  step t call := ((t.rates call).1, [(t.rates call).2])

/-- What a call returns for the sample before it. -/
def answer (sample : Sample) (call : RateCall) : Dict String ℚ :=
  call.values.map fun (key, value) =>
    (key, max 0 ((value - (sample.values.get key).getD value) / (call.now - sample.stored)))

/-- What a call returns for a key. -/
theorem get_answer (sample : Sample) (call : RateCall) (key : String) :
    (answer sample call).get key = (call.values.get key).map fun value =>
      max 0 ((value - (sample.values.get key).getD value) / (call.now - sample.stored)) :=
  Dict.get_map (fun key value =>
    max 0 ((value - (sample.values.get key).getD value) / (call.now - sample.stored))) _ _

/-- What a call leaves behind is its own sample, whatever was there before. -/
theorem rates_fst (t : RateTracker) (call : RateCall) :
    (t.rates call).1 = t.prime call.toSample := by
  unfold rates
  split
  · rfl
  · split <;> rfl

/-- What a call returns while the clock has moved on since the sample before. -/
theorem rates_prime (t : RateTracker) {sample : Sample} {call : RateCall}
    (h : sample.stored < call.now) :
    ((t.prime sample).rates call).2 = answer sample call := by
  rw [rates, prime]
  exact congrArg Prod.snd (if_neg (not_le.2 h))

end RateTracker

/-! ## Runs -/

/-- For every call, the clock when the sample before it was stored and at its top. -/
def clockOf (primed : ℚ) (calls : List RateCall) : List (ℚ × ℚ) :=
  (primed :: calls.map (·.stored)).zip (calls.map (·.now))

/-- A tracker that is primed once and then called again and again, where every call begins after
the sample before it was stored. -/
structure RateRun where
  primed : Sample
  calls : List RateCall
  increasing : ∀ reading ∈ clockOf primed.stored calls, reading.1 < reading.2

/-- **Every call answers for the sample before it**, and for nothing earlier. -/
theorem RateTracker.machine_run (t : RateTracker) (sample : Sample) (calls : List RateCall)
    (h : ∀ reading ∈ clockOf sample.stored calls, reading.1 < reading.2) :
    (machine.run (t.prime sample) calls).2 =
      List.zipWith answer (sample :: calls.map RateCall.toSample) calls := by
  induction calls generalizing t sample with
  | nil => rfl
  | cons call calls ih =>
    obtain ⟨hcall, hcalls⟩ := List.forall_mem_cons.1 h
    rw [List.map_cons, List.zipWith_cons_cons, Machine.run_cons]
    show ((t.prime sample).rates call).2 ::
      (machine.run ((t.prime sample).rates call).1 calls).2 = _
    rw [rates_prime t hcall, rates_fst, ih _ call.toSample hcalls]

namespace RateRun

variable (run : RateRun)

/-- All samples, with that of `prime`. -/
def samples : List Sample := run.primed :: run.calls.map RateCall.toSample

/-- What the calls return. -/
def log : List (Dict String ℚ) :=
  (RateTracker.machine.run (RateTracker.init.prime run.primed) run.calls).2

/-- The counter of a key in a sample. -/
def counter (key : String) (i : ℕ) : Option ℚ :=
  run.samples[i]?.bind fun sample => sample.values.get key

/-- The rate of a key that a call returns. -/
def rate (key : String) (i : ℕ) : Option ℚ := run.log[i]?.bind fun result => result.get key

/-- The time between the storing of the sample before a call and its top. -/
def interval (i : ℕ) : ℚ :=
  ((clockOf run.primed.stored run.calls)[i]?.map fun (stored, now) => now - stored).getD 0

theorem log_eq : run.log = List.zipWith RateTracker.answer run.samples run.calls :=
  RateTracker.init.machine_run run.primed run.calls run.increasing

theorem counter_succ (key : String) (i : ℕ) :
    run.counter key (i + 1) = run.calls[i]?.bind fun call => call.values.get key := by
  rw [counter, samples, List.getElem?_cons_succ, List.getElem?_map, Option.bind_map]
  rfl

variable {run}

/-- There is a sample before every call. -/
theorem exists_sample {i : ℕ} {call : RateCall} (h : run.calls[i]? = some call) :
    ∃ sample, run.samples[i]? = some sample ∧
      (clockOf run.primed.stored run.calls)[i]? = some (sample.stored, call.now) := by
  have hi : i < run.samples.length := by
    obtain ⟨hlt, -⟩ := List.getElem?_eq_some_iff.1 h
    simp only [samples, List.length_cons, List.length_map]
    omega
  have hstored : run.primed.stored :: run.calls.map (·.stored) = run.samples.map (·.stored) := by
    simp [samples]
  refine ⟨run.samples[i], List.getElem?_eq_getElem hi, ?_⟩
  rw [clockOf, hstored, List.getElem?_zip_eq_some, List.getElem?_map, List.getElem?_map, h,
    List.getElem?_eq_getElem hi]
  exact ⟨rfl, rfl⟩

theorem interval_pos {i : ℕ} (h : i < run.calls.length) : 0 < run.interval i := by
  obtain ⟨sample, -, hclock⟩ := exists_sample (List.getElem?_eq_getElem h)
  rw [interval, hclock]
  exact sub_pos.2 (run.increasing _ (List.mem_of_getElem? hclock))

variable (run)

/-- **A rate** by the two readings of its counter. -/
theorem rate_eq (key : String) (i : ℕ) :
    run.rate key i = (run.counter key (i + 1)).map fun value =>
      max 0 ((value - (run.counter key i).getD value) / run.interval i) := by
  rw [rate, counter_succ, log_eq, List.getElem?_zipWith]
  cases hcall : run.calls[i]? with
  | none => cases run.samples[i]? <;> rfl
  | some call =>
    obtain ⟨sample, hsample, hclock⟩ := exists_sample hcall
    rw [counter, interval, hsample, hclock]
    exact RateTracker.get_answer sample call key

/-- **A rate is left alone** by what shifts both readings of its counter alike. -/
theorem rate_of_shift {run run' : RateRun} {key : String} {i : ℕ} {d : ℚ}
    (hinterval : run'.interval i = run.interval i)
    (hcounter : run'.counter key i = (run.counter key i).map (· + d))
    (hnext : run'.counter key (i + 1) = (run.counter key (i + 1)).map (· + d)) :
    run'.rate key i = run.rate key i := by
  rw [rate_eq, rate_eq, hinterval, hcounter, hnext, Option.map_map]
  congr 1
  funext value
  cases run.counter key i with
  | none => simp
  | some before => simp

/-! ## Resets -/

end RateRun

/-- The sample in which the counter of a key is higher by an amount. -/
def Sample.raise (sample : Sample) (key : String) (amount : ℚ) : Sample :=
  { sample with
    values := sample.values.map fun (key', value) =>
      (key', if key' = key then value + amount else value) }

theorem Sample.get_raise (sample : Sample) (key : String) (amount : ℚ) (key' : String) :
    (sample.raise key amount).values.get key' =
      (sample.values.get key').map fun value => if key' = key then value + amount else value :=
  Dict.get_map (fun key' value => if key' = key then value + amount else value) _ _

namespace RateRun

/-- The call of a run in which a counter did not lose an amount before the call `j`. -/
def unresetCall (key : String) (amount : ℚ) (j i : ℕ) (call : RateCall) : RateCall :=
  if i < j then call else { call with toSample := call.toSample.raise key amount }

theorem unresetCall_stored (key : String) (amount : ℚ) (j i : ℕ) (call : RateCall) :
    (unresetCall key amount j i call).stored = call.stored := by
  unfold unresetCall
  split <;> rfl

theorem unresetCall_now (key : String) (amount : ℚ) (j i : ℕ) (call : RateCall) :
    (unresetCall key amount j i call).now = call.now := by
  unfold unresetCall
  split <;> rfl

theorem clockOf_unreset (key : String) (amount : ℚ) (j : ℕ) (primed : ℚ) (calls : List RateCall) :
    clockOf primed (calls.mapIdx (unresetCall key amount j)) = clockOf primed calls := by
  have hstored : (calls.mapIdx (unresetCall key amount j)).map (·.stored) =
      calls.map (·.stored) := by
    refine List.ext_getElem? fun i => ?_
    simp [Function.comp_def, unresetCall_stored]
  have hnow : (calls.mapIdx (unresetCall key amount j)).map (·.now) = calls.map (·.now) := by
    refine List.ext_getElem? fun i => ?_
    simp [Function.comp_def, unresetCall_now]
  rw [clockOf, hstored, hnow, clockOf]

/-- The run in which the counter of a key did not lose an amount between the samples `j` and
`j + 1`: it goes on from there as it did, higher by that amount. -/
def unreset (run : RateRun) (key : String) (amount : ℚ) (j : ℕ) : RateRun where
  primed := run.primed
  calls := run.calls.mapIdx (unresetCall key amount j)
  increasing := by
    rw [clockOf_unreset]
    exact run.increasing

variable (run : RateRun) (key : String) (amount : ℚ) (j : ℕ)

theorem interval_unreset (i : ℕ) : (run.unreset key amount j).interval i = run.interval i := by
  rw [interval, interval, unreset, clockOf_unreset]

theorem counter_unreset (key' : String) (i : ℕ) :
    (run.unreset key amount j).counter key' i =
      (run.counter key' i).map (· + if key' = key ∧ j < i then amount else 0) := by
  cases i with
  | zero => simp [counter, samples, unreset]
  | succ i =>
    rw [counter_succ, counter_succ, unreset, List.getElem?_mapIdx]
    cases run.calls[i]? with
    | none => rfl
    | some call =>
      show (unresetCall key amount j i call).values.get key' = (call.values.get key').map _
      unfold unresetCall
      split
      · rename_i hbefore
        rw [if_neg fun h => absurd h.2 (by omega)]
        simp
      · rename_i hafter
        rw [Sample.get_raise]
        by_cases hkey : key' = key
        · simp [hkey, show j < i + 1 by omega]
        · simp [hkey]

/-- **A reset is one zero**: without it, all other rates are the same. -/
theorem rate_unreset {key' : String} {i : ℕ} (h : key' ≠ key ∨ i ≠ j) :
    (run.unreset key amount j).rate key' i = run.rate key' i := by
  refine rate_of_shift (run.interval_unreset key amount j i) (run.counter_unreset _ _ _ _ _) ?_
  have hsame : (key' = key ∧ j < i + 1) ↔ (key' = key ∧ j < i) := by
    rcases h with hkey | hi
    · simp [hkey]
    · rw [Nat.lt_succ_iff, and_congr_right_iff]
      exact fun _ => ⟨fun hle => lt_of_le_of_ne hle hi.symm, le_of_lt⟩
  rw [counter_unreset]
  simp only [hsame]

/-- **The increments are accounted for**, each exactly once. -/
theorem increments_accounted {count : ℕ → ℚ}
    (hcount : ∀ i ≤ run.calls.length, run.counter key i = some (count i)) :
    ∃ rate : ℕ → ℚ,
      (∀ i < run.calls.length,
        run.rate key i = some (rate i) ∧ 0 ≤ rate i ∧
          rate i * run.interval i = max 0 (count (i + 1) - count i) ∧
          (rate i = 0 ↔ count (i + 1) ≤ count i)) ∧
      ((∀ i < run.calls.length, count i ≤ count (i + 1)) →
        ∑ i ∈ Finset.range run.calls.length, rate i * run.interval i =
          count run.calls.length - count 0) ∧
      ∀ j amount key' i, (key' ≠ key ∨ i ≠ j) →
        (run.unreset key amount j).rate key' i = run.rate key' i := by
  let rate (i : ℕ) : ℚ := max 0 ((count (i + 1) - count i) / run.interval i)
  have hmul (i : ℕ) (hi : i < run.calls.length) :
      rate i * run.interval i = rise (count i) (count (i + 1)) :=
    max_div_mul (count i) (count (i + 1)) (interval_pos hi)
  refine ⟨rate, ?_, ?_, fun j amount key' i h => run.rate_unreset key amount j h⟩
  · intro i hi
    refine ⟨?_, le_max_left _ _, hmul i hi, max_div_eq_zero (interval_pos hi)⟩
    rw [rate_eq, hcount (i + 1) hi, hcount i hi.le]
    rfl
  · intro hmono
    rw [← sum_rise_of_le hmono]
    exact Finset.sum_congr rfl fun i hi => hmul i (Finset.mem_range.1 hi)

/-- Two counters that are sampled four times, the first of which is reset before the third. -/
def resetRun : RateRun where
  primed := { stored := 1, values := [("rx", 100), ("tx", 7)] }
  calls :=
    [{ now := 3, stored := 4, values := [("rx", 160), ("tx", 10)] },
      { now := 6, stored := 6, values := [("rx", 20), ("tx", 10)] },
      { now := 7, stored := 8, values := [("rx", 45), ("tx", 12)] }]
  increasing := by decide +kernel

/-- The second counter has risen by 5 in all, and so say its rates, of which two differ from zero;
the first one shows its reset as one zero. -/
theorem resetRun_accounted :
    (∃ rate : ℕ → ℚ, (∀ i < 3, resetRun.rate "tx" i = some (rate i)) ∧
      ∑ i ∈ Finset.range 3, rate i * resetRun.interval i = 5) ∧
    resetRun.rate "rx" 0 = some 30 ∧ resetRun.rate "rx" 1 = some 0 ∧
      resetRun.rate "rx" 2 = some 25 := by
  refine ⟨?_, by decide +kernel, by decide +kernel, by decide +kernel⟩
  obtain ⟨rate, hrate, hsum, -⟩ := @increments_accounted resetRun "tx"
    (fun i => [7, 10, 10, 12].getD i 0) (by decide +kernel)
  refine ⟨rate, fun i hi => (hrate i hi).1, ?_⟩
  exact (hsum (by decide +kernel)).trans (by decide +kernel)

end RateRun

end OoAgent
