import OoAgent.Core.Scheduler

/-!
# Isolation of collectors

A collector that raises is backed off and leaves no trace in what the tick assembles.
A collector that returns something of another shape than a payload is not stopped by
anything: the merge runs outside the `try`.

* `Job.harmless` — the behaviours the scheduler survives; `isSome_runJobs` — **it
  survives no others**.
* `runJobs_filter` — a collector that misbehaves harmlessly might as well be absent.
* `isolated_iff` — **isolation of one run**, exactly when every behaviour met is harmless.
* `isSome_run` — the daemon loop survives exactly such behaviours.
-/

namespace OoAgent

namespace Job

/-- The collector returned a payload. -/
def behaves (j : Job) : Bool :=
  match j.call with
  | .raised _ => false
  | .returned v => mergeable v

/-- The collector raised, with fewer earlier failures in a row than a float has binary
exponents, or it returned a false value or a payload. -/
def harmless (j : Job) : Bool :=
  match j.call with
  | .raised _ => decide (j.entry.failures < floatExponents)
  | .returned v => !v.truthy || mergeable v

end Job

/-! ## One run -/

/-- An empty payload adds nothing. -/
@[simp] theorem merge_empty (pre : String) (a : Assembled) : merge pre a (.dict []) = some a := rfl

/-- What an entry makes of the channels assembled before it; `none` when an exception
leaves the loop. -/
def Job.contribute (j : Job) (a : Assembled) : Option Assembled :=
  if j.runs then
    match j.call with
    | .raised _ => if j.entry.failures < floatExponents then some a else none
    | .returned v => merge j.entry.metricPrefix a (v.orElse (.dict []))
  else some a

theorem runJobs_cons (a : Assembled) (j : Job) (js : List Job) :
    (runJobs a (j :: js)).2 = (j.contribute a).bind fun a' => (runJobs a' js).2 := by
  unfold Job.contribute
  rw [runJobs]
  by_cases hruns : j.runs = true
  · rw [if_pos hruns, if_pos hruns]
    cases hcall : j.call with
    | raised at_ =>
      have hexponent : floatExponents ≤ j.entry.failures + 1 - 1 ↔
          ¬ j.entry.failures < floatExponents := by omega
      simp only [runEntry, cooldown, hexponent]
      by_cases hfew : j.entry.failures < floatExponents
      · simp [hfew]
      · simp [hfew]
    | returned v =>
      simp only [runEntry, Entry.metricPrefix]
      cases merge (if j.entry.custom then "custom." ++ j.entry.name ++ "." else "") a
        (v.orElse (.dict [])) <;> rfl
  · rw [if_neg hruns, if_neg hruns]
    rfl

/-- **The loop is a fold** of what the entries contribute. -/
theorem runJobs_eq (a : Assembled) (js : List Job) :
    (runJobs a js).2 = js.foldlM (fun a j => j.contribute a) a := by
  induction js generalizing a with
  | nil => rfl
  | cons j js ih =>
    rw [runJobs_cons, List.foldlM_cons]
    exact congrArg _ (funext ih)

theorem mergeable_orElse (v : Value) :
    mergeable (v.orElse (.dict [])) = (!v.truthy || mergeable v) := by
  unfold Value.orElse
  cases v.truthy <;> rfl

/-- An entry that is run ends the loop unless it is harmless. -/
theorem isSome_contribute (a : Assembled) (j : Job) :
    (j.contribute a).isSome = (!j.runs || j.harmless) := by
  unfold Job.contribute Job.harmless
  cases hruns : j.runs with
  | false => rfl
  | true =>
    cases j.call with
    | raised at_ => by_cases hfew : j.entry.failures < floatExponents <;> simp [hfew]
    | returned v => simp [isSome_merge, mergeable_orElse]

/-- **The loop returns exactly when every entry it runs is harmless.** -/
theorem isSome_runJobs (a : Assembled) (js : List Job) :
    (runJobs a js).2.isSome = true ↔ ∀ j ∈ js, j.runs = true → j.harmless = true := by
  rw [runJobs_eq, isSome_foldlM (fun a j => isSome_contribute a j), List.all_eq_true]
  simp only [Bool.or_eq_true, Bool.not_eq_true']
  refine forall₂_congr fun j _ => ?_
  cases j.runs <;> simp

/-- A collector that misbehaves harmlessly contributes nothing. -/
theorem contribute_of_misbehaves {j : Job} (hharmless : j.runs = true → j.harmless = true)
    (hbad : j.behaves = false) (a : Assembled) : j.contribute a = some a := by
  unfold Job.contribute
  by_cases hruns : j.runs = true
  · have hj := hharmless hruns
    unfold Job.harmless at hj
    unfold Job.behaves at hbad
    rw [if_pos hruns]
    cases hcall : j.call with
    | raised at_ =>
      rw [hcall] at hj
      simp only [decide_eq_true_eq] at hj
      simp [hj]
    | returned v =>
      rw [hcall] at hj hbad
      simp only at hj hbad
      have hfalse : v.truthy = false := by simpa [hbad] using hj
      simp [Value.orElse, hfalse]
  · rw [if_neg hruns]

/-- **Misbehaving collectors might as well be absent.** -/
theorem runJobs_filter {js : List Job} {keep : Job → Bool}
    (hharmless : ∀ j ∈ js, j.runs = true → j.harmless = true)
    (hkeep : ∀ j ∈ js, j.behaves = true → keep j = true) (a : Assembled) :
    (runJobs a (js.filter keep)).2 = (runJobs a js).2 := by
  induction js generalizing a with
  | nil => rfl
  | cons j js ih =>
    rw [List.forall_mem_cons] at hharmless hkeep
    rw [runJobs_cons]
    by_cases hj : keep j = true
    · rw [List.filter_cons_of_pos hj, runJobs_cons]
      exact congrArg _ (funext fun a' => ih hharmless.2 hkeep.2 a')
    · have hbad : j.behaves = false := by
        by_contra hgood
        exact hj (hkeep.1 (by simpa using hgood))
      rw [List.filter_cons_of_neg hj, contribute_of_misbehaves hharmless.1 hbad,
        Option.bind_some]
      exact ih hharmless.2 hkeep.2 a

/-- `run_once` returns, and its three channels are what they would be without any choice
of the collectors that misbehave. -/
def Isolated (jobs : List Job) : Prop :=
  ∀ ts now (keep : Job → Bool), (∀ j ∈ jobs, j.behaves = true → keep j = true) →
    ∃ full without, (runOnce ts now jobs).2 = some full ∧
      (runOnce ts now (jobs.filter keep)).2 = some without ∧
      full.metrics = without.metrics ∧ full.sensors = without.sensors ∧
      full.inventory = without.inventory

/-- **Isolation of one run**, exactly when every collector it runs is harmless. -/
theorem isolated_iff (jobs : List Job) :
    Isolated jobs ↔ ∀ j ∈ jobs, j.runs = true → j.harmless = true := by
  constructor
  · intro h
    obtain ⟨full, -, hfull, -⟩ := h 0 0 (fun _ => true) (fun _ _ _ => rfl)
    rw [← isSome_runJobs .empty]
    have hsome : (runOnce 0 0 jobs).2.isSome = true := by rw [hfull]; rfl
    simpa [runOnce] using hsome
  · intro hharmless ts now keep hkeep
    obtain ⟨a, ha⟩ := Option.isSome_iff_exists.1 ((isSome_runJobs .empty jobs).2 hharmless)
    have hwithout := (runJobs_filter hharmless hkeep .empty).trans ha
    exact ⟨assemble ts (capabilities (jobs.map Job.entry) now) a,
      assemble ts (capabilities ((jobs.filter keep).map Job.entry) now) a,
      by simp [runOnce, ha], by simp [runOnce, hwithout], rfl, rfl, rfl⟩

/-! ## The daemon loop -/

/-- Every collector that is due at a tick is harmless. -/
def HarmlessTick (s : Option Loop) (t : Tick) : Prop :=
  ∀ l, s = some l → ∀ j ∈ l.jobs t, j.runs = true → j.harmless = true

/-- A tick at which nothing is due runs no job. -/
theorem runs_of_none_due {l : Loop} {t : Tick} (h : l.entries.filter (l.due t.now) = [])
    {j : Job} (hj : j ∈ l.jobs t) : j.runs = false := by
  obtain ⟨i, hi, rfl⟩ := List.mem_mapIdx.1 hj
  have hdue := List.filter_eq_nil_iff.1 h _ (List.getElem_mem hi)
  simp only [Job.runs, Bool.not_eq_true] at hdue ⊢
  rw [hdue, Bool.and_false]

/-- A tick leaves the loop running exactly when it meets harmless behaviour only. -/
theorem isSome_tick (l : Loop) (t : Tick) :
    (l.tick t).1.isSome = true ↔ HarmlessTick (some l) t := by
  have hjobs : HarmlessTick (some l) t ↔ ∀ j ∈ l.jobs t, j.runs = true → j.harmless = true :=
    ⟨fun h => h l rfl, fun h l' hl => by rw [← Option.some.inj hl]; exact h⟩
  rw [hjobs]
  unfold Loop.tick
  by_cases hnone : l.entries.filter (l.due t.now) = []
  · simp only [hnone, List.isEmpty_nil, if_true, Option.isSome_some, true_iff]
    intro j hj hruns
    exact absurd hruns (by simp [runs_of_none_due hnone hj])
  · have hsome : (l.entries.filter (l.due t.now)).isEmpty = false := by simpa using hnone
    rw [hsome, if_neg (by decide), ← isSome_runJobs .empty]
    simp only [runOnce]
    cases (runJobs .empty (l.jobs t)).2 <;> simp

/-- **The daemon loop survives exactly the harmless ticks.** -/
theorem isSome_run (l : Loop) (ticks : List Tick) :
    (schedulerLoop.run (some l) ticks).1.isSome = true ↔
      schedulerLoop.Along HarmlessTick (some l) ticks :=
  Machine.isSome_run_iff (fun _ => rfl) isSome_tick l ticks

/-- A built-in entry with nothing against it. -/
def sampleEntry (name : String) : Entry :=
  { name := name, interval := 60, custom := false, disabled := false, failures := 0, retryAt := 0 }

/-- A sensor without an `id`, in an otherwise good payload. -/
def sampleBrokenPayload : Value :=
  .dict [(.str "sensors", .list [.dict [(.str "unit", .str "C"), (.str "value", .int 40)]])]

end OoAgent
