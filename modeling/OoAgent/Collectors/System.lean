import OoAgent.Collectors.Payloads
import OoAgent.Lib.Increments
import OoAgent.Lib.Machine
import OoAgent.Lib.Since
import OoAgent.Python.Digits

/-!
# CPU throttling

`SystemCollector` (`oo_agent/collectors/system.py`) keeps the thermal throttle counters of the
pass before and reports whether one of them has grown.  A pass that can read no counter reports
nothing and keeps the counters it had.

* `throttleCounts` — `_throttle_counts`; `collectSystem` — one pass.
* `ThrottleRun` — the passes of one collector, the first of which is that of its constructor.
* `get_state_iff` — what a pass compares with: the counters of the latest pass that read any.
* `throttle_reported` — **no rise is missed or made up**.
-/

namespace OoAgent

open PyText

/-! ## One pass -/

/-- What `glob.glob(_THROTTLE_GLOB)` finds, with the text of each file that can be opened. -/
abbrev ThrottleFiles := List (String × Option (List Char))

/-- `int(fh.read().strip())` of an ASCII file. -/
def throttleCount (text : List Char) : Option ℤ :=
  if text.all (fun c => c.toNat < 128) then parseInt (strip text) else none

/-- `_throttle_counts`. -/
def throttleCounts (files : ThrottleFiles) : Dict String ℤ :=
  Dict.update [] (files.filterMap fun file =>
    (file.2.bind throttleCount).map fun count => (file.1, count))

/-- The test of one counter: it is larger than it was, if it was there. -/
def hasGrown (prev : Dict String ℤ) (item : String × ℤ) : Bool :=
  decide ((prev.get item.1).getD item.2 < item.2)

/-- `int(grew)`. -/
def grewValue (prev current : Dict String ℤ) : ℤ := if current.any (hasGrown prev) then 1 else 0

/-- The counters that are kept, and the verdict on those of a pass. -/
def throttle (prev current : Dict String ℤ) : Dict String ℤ × Option ℤ :=
  if current = [] then (prev, none) else (current, some (grewValue prev current))

/-- What a pass reads: the counters, and everything else of the report. -/
structure SystemPass where
  files : ThrottleFiles
  others : SystemReadings

/-- `SystemCollector.collect`: the counters it keeps, and its metrics. -/
def collectSystem (prev : Dict String ℤ) (pass : SystemPass) :
    Dict String ℤ × Dict String Value :=
  let verdict := throttle prev (throttleCounts pass.files)
  (verdict.1, systemMetrics { pass.others with grew := verdict.2.map Value.int })

/-- The collector as a machine that logs its metrics. -/
def systemMachine : Machine (Dict String ℤ) SystemPass (Dict String Value) where
  step prev pass := ((collectSystem prev pass).1, [(collectSystem prev pass).2])

/-- The reported verdict is the one of the counters. -/
theorem get_throttle (r : SystemReadings) : (systemMetrics r).get "cpu.throttle" = r.grew := by
  rw [systemMetrics, metricsOf, Dict.update_append]
  cases hgrew : r.grew with
  | none =>
    rw [Option.toList_none, List.map_nil, Dict.update_nil]
    apply Dict.get_update_of_notMem
    cases r.loads with
    | none => simp
    | some loads => simp
  | some grew =>
    rw [Option.toList_some, List.map_singleton, Dict.update_cons, Dict.update_nil, Dict.get_set,
      if_pos rfl]

/-- A pass reports growth when a counter is larger than it was. -/
theorem grewValue_eq_one {prev current : Dict String ℤ} (h : (current.map Prod.fst).Nodup) :
    grewValue prev current = 1 ↔
      ∃ path old new, prev.get path = some old ∧ current.get path = some new ∧ old < new := by
  have hany : grewValue prev current = 1 ↔ current.any (hasGrown prev) = true := by
    rw [grewValue]
    split
    · rename_i hgrown
      simp [hgrown]
    · rename_i hgrown
      simp [hgrown]
  rw [hany, List.any_eq_true]
  constructor
  · rintro ⟨⟨path, new⟩, hmem, hgrown⟩
    have hlt := of_decide_eq_true hgrown
    cases hprev : prev.get path with
    | none =>
      rw [hprev] at hlt
      exact absurd hlt (lt_irrefl new)
    | some old =>
      rw [hprev] at hlt
      exact ⟨path, old, new, hprev, Dict.get_of_mem h hmem, hlt⟩
  · rintro ⟨path, old, new, hprev, hcurrent, hlt⟩
    refine ⟨(path, new), Dict.mem_of_get hcurrent, ?_⟩
    rw [hasGrown, hprev]
    exact decide_eq_true hlt

theorem nodup_throttleCounts (files : ThrottleFiles) :
    ((throttleCounts files).map Prod.fst).Nodup :=
  Dict.nodup_update (by rw [List.map_nil]; exact List.nodup_nil) _

/-! ## Runs -/

/-- The passes of a collector: the counters its constructor reads, and then those of `collect`. -/
structure ThrottleRun where
  primed : ThrottleFiles
  passes : List SystemPass

namespace ThrottleRun

variable (run : ThrottleRun)

/-- The counters of every pass, with those of the constructor. -/
def counts : List (Dict String ℤ) :=
  throttleCounts run.primed :: run.passes.map fun pass => throttleCounts pass.files

/-- The metrics of every pass. -/
def log : List (Dict String Value) :=
  (systemMachine.run (throttleCounts run.primed) run.passes).2

/-- A counter in a pass, counted from the constructor on. -/
def count (path : String) (i : ℕ) : Option ℤ := run.counts[i]?.bind fun counts => counts.get path

/-- What was last known of a counter in the first passes: the latest of them that read any
counter has it. -/
def LastKnown (path : String) (i : ℕ) (old : ℤ) : Prop :=
  Since (fun counts : Dict String ℤ => counts.get path = some old)
    (fun counts : Dict String ℤ => counts = []) (run.counts.take i)

/-- **What a pass compares with**: a collector keeps the counters of the latest pass that read
any. -/
theorem get_state_iff (primed : ThrottleFiles) (passes : List SystemPass) (path : String)
    (old : ℤ) :
    (systemMachine.run (throttleCounts primed) passes).1.get path = some old ↔
      Since (fun counts : Dict String ℤ => counts.get path = some old)
        (fun counts : Dict String ℤ => counts = [])
        (throttleCounts primed :: passes.map fun pass => throttleCounts pass.files) := by
  induction passes using List.reverseRecOn with
  | nil =>
    show (throttleCounts primed).get path = some old ↔ Since _ _ ([] ++ [throttleCounts primed])
    rw [since_append_singleton, or_iff_left]
    exact fun h => not_since_nil h.2
  | append_singleton passes pass ih =>
    rw [Machine.run_concat, List.map_append, List.map_singleton, ← List.cons_append,
      since_append_singleton, ← ih]
    show (throttle _ (throttleCounts pass.files)).1.get path = some old ↔ _
    unfold throttle
    split
    · rename_i hblind
      -- nothing was read: the counters stay
      rw [hblind, or_iff_right (by simp), and_iff_right rfl]
    · rename_i hread
      rw [or_iff_left fun h => hread h.1]

/-- The counters of the first passes. -/
theorem take_counts (i : ℕ) :
    run.counts.take (i + 1) =
      throttleCounts run.primed :: (run.passes.take i).map fun pass =>
        throttleCounts pass.files := by
  rw [counts, List.take_succ_cons, List.map_take]

theorem count_succ (path : String) (i : ℕ) :
    run.count path (i + 1) =
      run.passes[i]?.bind fun pass => (throttleCounts pass.files).get path := by
  rw [count, counts, List.getElem?_cons_succ, List.getElem?_map, Option.bind_map]
  rfl

variable {run}

/-- **What a pass reports.** -/
theorem exists_report {i : ℕ} {pass : SystemPass} (h : run.passes[i]? = some pass) :
    ∃ metrics, run.log[i]? = some metrics ∧
      metrics.get "cpu.throttle" ∈ [none, some (.int 0), some (.int 1)] ∧
      (metrics.get "cpu.throttle" = none ↔ throttleCounts pass.files = []) ∧
      (metrics.get "cpu.throttle" = some (.int 1) ↔
        ∃ path old new, run.LastKnown path (i + 1) old ∧ run.count path (i + 1) = some new ∧
          old < new) := by
  let prev := (systemMachine.run (throttleCounts run.primed) (run.passes.take i)).1
  have hlog : run.log[i]? = some (collectSystem prev pass).2 := by
    rw [log, Machine.run_getElem? systemMachine (fun _ _ => rfl), h]
    rfl
  refine ⟨_, hlog, ?_⟩
  have hcount (path : String) : run.count path (i + 1) = (throttleCounts pass.files).get path := by
    rw [count_succ, h]
    rfl
  have hlast (path : String) (old : ℤ) : run.LastKnown path (i + 1) old ↔
      prev.get path = some old := by
    rw [LastKnown, take_counts, get_state_iff]
  have hverdict : (collectSystem prev pass).2.get "cpu.throttle" =
      (throttle prev (throttleCounts pass.files)).2.map Value.int := by
    rw [collectSystem, get_throttle]
  simp only [hcount, hlast, hverdict]
  rw [← grewValue_eq_one (nodup_throttleCounts pass.files)]
  unfold throttle
  split
  · rename_i hblind
    refine ⟨List.mem_cons_self, by simp [hblind], ?_⟩
    simp [hblind, grewValue]
  · rename_i hread
    refine ⟨?_, by simp [hread], by simp⟩
    unfold grewValue
    split <;> simp

/-- The latest pass that read a counter is the pass before, if that one read it. -/
theorem lastKnown_of_count {path : String} {i : ℕ} {old : ℤ} (h : run.count path i = some old) :
    run.LastKnown path (i + 1) old := by
  obtain ⟨counts, hcounts, hget⟩ := Option.bind_eq_some_iff.1 h
  rw [LastKnown, List.take_add_one, hcounts, Option.toList_some, since_append_singleton]
  exact .inl hget

/-- **No rise is missed or made up.**  A pass reports 1 exactly when a counter is larger than in the
latest pass before that read any, and reports nothing exactly when it reads none; a counter that is
read in every pass from one to another and has risen by then is reported in some pass between
them. -/
theorem throttle_reported (run : ThrottleRun) :
    (∀ i pass, run.passes[i]? = some pass → ∃ metrics, run.log[i]? = some metrics ∧
      metrics.get "cpu.throttle" ∈ [none, some (.int 0), some (.int 1)] ∧
      (metrics.get "cpu.throttle" = none ↔ throttleCounts pass.files = []) ∧
      (metrics.get "cpu.throttle" = some (.int 1) ↔
        ∃ path old new, run.LastKnown path (i + 1) old ∧ run.count path (i + 1) = some new ∧
          old < new)) ∧
    ∀ (path : String) (c : ℕ → ℤ) (i j : ℕ), i ≤ j →
      (∀ k, i ≤ k → k ≤ j → run.count path k = some (c k)) → c i < c j →
        ∃ k metrics, i ≤ k ∧ k < j ∧ run.log[k]? = some metrics ∧
          metrics.get "cpu.throttle" = some (.int 1) := by
  refine ⟨fun i pass h => exists_report h, ?_⟩
  intro path c i j hij hread hrise
  obtain ⟨k, hik, hkj, hlt⟩ := Increments.exists_rise hij hrise
  have hold : run.count path k = some (c k) := hread k hik hkj.le
  have hnew : run.count path (k + 1) = some (c (k + 1)) := hread (k + 1) (by omega) hkj
  obtain ⟨pass, hpass, -⟩ := Option.bind_eq_some_iff.1 ((count_succ run path k).symm.trans hnew)
  obtain ⟨metrics, hlog, -, -, hone⟩ := exists_report hpass
  exact ⟨k, metrics, hik, hkj, hlog,
    hone.2 ⟨path, c k, c (k + 1), lastKnown_of_count hold, hnew, hlt⟩⟩

end ThrottleRun

end OoAgent
