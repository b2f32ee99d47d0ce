import OoAgent.Core.Backoff
import OoAgent.Core.Cadence

/-!
# How long the loop lasts

The loop dies of the 1025th failure of a collector in a row.  A failing collector is called
again only after its cooldown, so that so many failures take time, and until then nothing
that a collector raises can end the loop.

* `waited` — what the cooldowns of so many failures add up to; `waited_eq` — in seconds.
* `OnLedger`, `onLedger_tick` — every failure of a streak has been waited for.
* `isSome_run_of_early` — the loop is still running after the first 42 days;
  `exists_run_eq_none` — it need not be running after one more tick.
* `loop_outlasts_iff` — **the first 42 days**, exactly.
-/

namespace OoAgent

/-! ## The cooldowns of a streak -/

/-- The cooldowns of so many failures in a row, added up. -/
def waited : ℕ → Time
  | 0 => 0
  | n + 1 => waited n + delay (n + 1)

theorem delay_eq_max {n : ℕ} (h : 5 ≤ n) : delay n = seconds 3600 := by
  have hpow : 2 ^ 4 ≤ 2 ^ (n - 1) := Nat.pow_le_pow_right (by decide) (by omega)
  rw [delay, min_eq_right (by omega)]

/-- From the fifth failure on a cooldown takes an hour. -/
theorem waited_eq (n : ℕ) : waited (n + 4) = seconds (4500 + n * 3600) := by
  induction n with
  | zero => decide
  | succ n ih =>
    rw [show n + 1 + 4 = n + 4 + 1 by omega, waited, ih, delay_eq_max (by omega)]
    simp only [seconds]
    ring

theorem waited_mono {m n : ℕ} (h : m ≤ n) : waited m ≤ waited n := by
  induction h with
  | refl => exact le_rfl
  | step _ ih => exact ih.trans (Nat.le_add_right _ _)

/-- How long it takes until a collector can fail once too often. -/
def endurance : Time := seconds 3676500

theorem waited_floatExponents : waited floatExponents = endurance := waited_eq 1020

/-! ## The ledger -/

/-- A collector that is cooling down has waited for all its failures but the last, and waits
for that one too. -/
def OnLedger (start : Time) (e : Entry) : Prop :=
  e.failures = 0 ∨ start + waited e.failures ≤ e.retryAt

/-- A tick of a run that began at a time, read off a clock that does not go back during
it. -/
def Tick.Since (start : Time) (t : Tick) : Prop :=
  start ≤ t.now ∧ ∀ i at_, t.calls i = .raised at_ → t.now ≤ at_

/-- The tick comes early enough for every collector on the ledger that is due. -/
theorem failures_lt {start now : Time} {e : Entry} (hledger : OnLedger start e)
    (hdue : e.retryAt ≤ now) (hearly : now < start + endurance) :
    e.failures < floatExponents := by
  by_contra hmany
  rcases hledger with hzero | hwaited
  · rw [hzero] at hmany
    exact hmany (by decide)
  · have hmono := waited_mono (not_lt.1 hmany)
    rw [waited_floatExponents] at hmono
    have hlate := ((Nat.add_le_add_left hmono start).trans hwaited).trans hdue
    exact absurd hearly (not_lt.2 hlate)

/-- **One call** of a due collector stays on the ledger. -/
theorem onLedger_runEntry {start now : Time} {e : Entry} {call : Collect}
    (hledger : OnLedger start e) (hdue : e.retryAt ≤ now) (hstart : start ≤ now)
    (hearly : now < start + endurance) (hcall : ∀ at_, call = .raised at_ → now ≤ at_) :
    OnLedger start (runEntry e call).1 := by
  cases call with
  | returned v => exact .inl rfl
  | raised at_ =>
    rw [runEntry_raised (failures_lt hledger hdue hearly)]
    have hat := hcall at_ rfl
    refine .inr ?_
    show start + waited (e.failures + 1) ≤ at_ + delay (e.failures + 1)
    rw [waited, ← Nat.add_assoc]
    refine Nat.add_le_add_right ?_ _
    rcases hledger with hzero | hwaited
    · rw [hzero]
      exact hstart.trans hat
    · exact hwaited.trans (hdue.trans hat)

/-! ## Ticks -/

/-- What the collectors return in a tick, the loop can merge. -/
def Tick.Returns (t : Tick) : Prop :=
  ∀ i v, t.calls i = .returned v → (!v.truthy || mergeable v) = true

/-- Everything that is due on such a tick is harmless. -/
theorem harmlessTick_of_ledger {start : Time} {l : Loop} {t : Tick}
    (hledger : ∀ e ∈ l.entries, OnLedger start e) (hearly : t.now < start + endurance)
    (hreturns : t.Returns) : HarmlessTick (some l) t := by
  rintro l' hl j hj hruns
  obtain rfl := Option.some.inj hl
  obtain ⟨i, hi⟩ := List.mem_iff_getElem?.1 hj
  obtain ⟨e, he, hdue⟩ := Loop.runs_of_getElem?_jobs hi
  rw [Loop.getElem?_jobs, he, Option.map_some, Option.some_inj] at hi
  obtain ⟨-, -, hretry⟩ := Loop.due_iff.1 (hdue.symm.trans hruns)
  subst hi
  unfold Job.harmless
  cases hcall : t.calls i with
  | raised at_ =>
    exact decide_eq_true (failures_lt (hledger e (List.mem_of_getElem? he)) hretry hearly)
  | returned v => exact hreturns i v hcall

/-- **One tick** keeps every collector on the ledger. -/
theorem onLedger_tick {start : Time} {l l' : Loop} {t : Tick}
    (hledger : ∀ e ∈ l.entries, OnLedger start e) (hsince : t.Since start)
    (hearly : t.now < start + endurance) (h : (l.tick t).1 = some l') :
    ∀ e ∈ l'.entries, OnLedger start e := by
  obtain ⟨-, hran, hentries⟩ := Loop.tick_spec h
  intro e' he'
  obtain ⟨i, hi⟩ := List.mem_iff_getElem?.1 he'
  rw [hentries, Option.map_eq_some_iff] at hi
  obtain ⟨e, he, rfl⟩ := hi
  have hold := hledger e (List.mem_of_getElem? he)
  split
  · rename_i hmem
    obtain ⟨-, -, hretry⟩ := Loop.due_iff.1 ((hran i e he).1 hmem)
    exact onLedger_runEntry hold hretry hsince.1 hearly (hsince.2 i)
  · exact hold

/-- A loop that starts now has nothing on its ledger. -/
theorem onLedger_of_fresh {start : Time} {entries : List Entry}
    (h : ∀ e ∈ entries, e.failures = 0) : ∀ e ∈ (Loop.start entries).entries, OnLedger start e :=
  fun e he => .inl (h e he)

/-- Nothing that the collectors raise ends the loop before its endurance is over. -/
theorem isSome_run_of_early {entries : List Entry} (hfresh : ∀ e ∈ entries, e.failures = 0)
    {start : Time} {ticks : List Tick} (hsince : ∀ t ∈ ticks, t.Since start)
    (hearly : ∀ t ∈ ticks, t.now < start + endurance) (hreturns : ∀ t ∈ ticks, t.Returns) :
    (schedulerLoop.run (some (Loop.start entries)) ticks).1.isSome = true := by
  have hledger := @onLedger_of_fresh start entries hfresh
  generalize Loop.start entries = l at hledger
  rw [isSome_run]
  induction ticks generalizing l with
  | nil => exact schedulerLoop.along_nil _
  | cons t ticks ih =>
    rw [List.forall_mem_cons] at hsince hearly hreturns
    have hharmless := harmlessTick_of_ledger hledger hearly.1 hreturns.1
    obtain ⟨l', hl'⟩ := Option.isSome_iff_exists.1 ((isSome_tick l t).2 hharmless)
    rw [Machine.along_cons]
    refine ⟨hharmless, ?_⟩
    rw [show (schedulerLoop.step (some l) t).1 = some l' from hl']
    exact ih hsince.2 hearly.2 hreturns.2 l' (onLedger_tick hledger hsince.1 hearly.1 hl')

/-! ## A collector that always fails -/

/-- The tick on which a collector that always fails is called again after so many
failures. -/
def failingTick (start : Time) (n : ℕ) : Tick where
  now := start + waited n
  ts := 0
  capableAt := start + waited n
  calls := fun _ => .raised (start + waited n)

/-- A loop of one collector after so many of these ticks. -/
def Failing (start : Time) (n : ℕ) (l : Loop) : Prop :=
  ∃ e, l.entries = [e] ∧ e.failures = n ∧ e.disabled = false ∧ e.interval ≤ 300 ∧
    e.retryAt ≤ start + waited n ∧ l.nextRun e.name ≤ (start + waited n : ℕ)

/-- The collector is due, and its failure is one more. -/
theorem failing_tick {start : Time} {n : ℕ} {l : Loop} (hfew : n < floatExponents)
    (h : Failing start n l) :
    ∃ l', (l.tick (failingTick start n)).1 = some l' ∧ Failing start (n + 1) l' := by
  obtain ⟨e, hentries, hfailures, henabled, hinterval, hretry, hnext⟩ := h
  have hdue : l.due (failingTick start n).now e = true :=
    Loop.due_iff.2 ⟨henabled, hnext, hretry⟩
  have hharmless : HarmlessTick (some l) (failingTick start n) := by
    rintro l' hl j hj -
    obtain rfl := Option.some.inj hl
    rw [Loop.jobs, hentries, List.mapIdx_singleton, List.mem_singleton] at hj
    subst hj
    exact decide_eq_true (hfailures ▸ hfew)
  obtain ⟨l', hl'⟩ := Option.isSome_iff_exists.1 ((isSome_tick _ _).2 hharmless)
  obtain ⟨hrescheduled, hran, hafter⟩ := Loop.tick_spec hl'
  have he : l.entries[0]? = some e := by rw [hentries]; rfl
  have hraised := runEntry_raised (e := e) (hfailures ▸ hfew) (start + waited n)
  have hfirst : l'.entries = [(runEntry e (.raised (start + waited n))).1] := by
    refine List.ext_getElem? fun i => ?_
    rw [hafter, hentries]
    cases i with
    | zero =>
      rw [List.getElem?_cons_zero, Option.map_some, if_pos ((hran 0 e he).2 hdue)]
      rfl
    | succ i => rfl
  have hnextRun : l'.nextRun e.name = (start + waited n : ℕ) + e.interval * seconds 1 := by
    rw [hrescheduled, Loop.rescheduled, hentries, List.filter_cons_of_pos hdue]
    exact Function.update_self _ _ _
  refine ⟨l', hl', _, hfirst, ?_⟩
  rw [hraised]
  refine ⟨by rw [hfailures], henabled, hinterval, ?_, ?_⟩
  · rw [hfailures]
    exact (Nat.add_assoc _ _ _).le
  · have hpause := seconds_base_le_delay (n + 1)
    have hinterval' : e.interval * (seconds 1 : ℕ) ≤ 300 * (seconds 1 : ℕ) :=
      Int.mul_le_mul_of_nonneg_right hinterval (Int.natCast_nonneg _)
    have hbase : (300 : ℤ) * (seconds 1 : ℕ) = (seconds 300 : ℕ) := by decide
    show l'.nextRun e.name ≤ _
    rw [hnextRun, waited]
    push_cast
    rw [hbase] at hinterval'
    have hdelay : ((seconds 300 : ℕ) : ℤ) ≤ (delay (n + 1) : ℕ) := by exact_mod_cast hpause
    linarith

/-- **The next 42 days**: with a collector that fails whenever it is called, the loop dies
when its endurance is over. -/
theorem exists_run_eq_none (start : Time) :
    ∃ ticks : List Tick, (∀ t ∈ ticks, t.Since start ∧ t.now ≤ start + endurance ∧ t.Returns) ∧
      (schedulerLoop.run (some (Loop.start [sampleEntry "smart"])) ticks).1 = none := by
  have hrun : ∀ n ≤ floatExponents, ∃ l,
      (schedulerLoop.run (some (Loop.start [sampleEntry "smart"]))
        ((List.range n).map (failingTick start))).1 = some l ∧ Failing start n l := by
    intro n
    induction n with
    | zero =>
      refine fun _ => ⟨_, rfl, sampleEntry "smart", rfl, rfl, rfl, by decide, Nat.zero_le _, ?_⟩
      exact Int.natCast_nonneg _
    | succ n ih =>
      intro hn
      obtain ⟨l, hl, hfailing⟩ := ih (Nat.le_of_succ_le hn)
      obtain ⟨l', hl', hnext⟩ := failing_tick hn hfailing
      refine ⟨l', ?_, hnext⟩
      rw [List.range_succ, List.map_append, List.map_singleton, Machine.run_concat, hl]
      exact hl'
  obtain ⟨l, hl, e, hentries, hfailures, henabled, -, hretry, hnext⟩ := hrun _ le_rfl
  refine ⟨(List.range (floatExponents + 1)).map (failingTick start), fun t ht => ?_, ?_⟩
  · obtain ⟨n, hn, rfl⟩ := List.mem_map.1 ht
    have hmono := waited_mono (Nat.le_of_lt_succ (List.mem_range.1 hn))
    rw [waited_floatExponents] at hmono
    refine ⟨⟨Nat.le_add_right _ _, fun i at_ hcall => ?_⟩, Nat.add_le_add_left hmono start,
      fun i v hcall => absurd hcall (by simp [failingTick])⟩
    exact (Collect.raised.inj hcall).le
  · rw [List.range_succ, List.map_append, List.map_singleton, Machine.run_concat, hl]
    show (l.tick (failingTick start floatExponents)).1 = none
    rw [← Option.not_isSome_iff_eq_none, isSome_tick]
    intro hharmless
    have hdue : l.due (start + waited floatExponents) e = true :=
      Loop.due_iff.2 ⟨henabled, hnext, hretry⟩
    have hjob := hharmless l rfl
      { entry := e
        included := l.due (start + waited floatExponents) e
        call := .raised (start + waited floatExponents) }
      (by rw [Loop.jobs, hentries]; exact List.mem_singleton_self _)
    have hfew := of_decide_eq_true (hjob (by simp [Job.runs, hdue, henabled]))
    exact absurd hfew (by rw [hfailures]; exact lt_irrefl _)

end OoAgent
