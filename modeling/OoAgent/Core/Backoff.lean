import OoAgent.Core.Isolation

/-!
# The backoff of a failing collector

The exponential is computed before it is capped: `_BACKOFF_BASE * 2 ** (failures - 1)` makes
a float of the power first, and the 1025th failure in a row takes a power that no float
holds.  The `OverflowError` comes up inside the handler, where nothing catches it.

* `cooldown_eq_some` — the cooldown, as long as the power fits a double.
* `runEntry_raised` — one failure of a streak; `failing_failures`, `failing_retryAt` — the
  entry after a whole streak.
* `backoff_law_iff` — **the backoff is what it should be** for streaks of up to 1024
  failures, and for no others.
-/

namespace OoAgent

/-! ## Doubles -/

/-- `float(n)` returns: what rounds to `2 ** 1024` or more does not fit a double. -/
def FitsDouble (n : Nat) : Prop := n < 2 ^ 1024 - 2 ^ 970

theorem fitsDouble_two_pow {k : Nat} : FitsDouble (2 ^ k) ↔ k < floatExponents := by
  have hpow (m : Nat) : 2 ^ k < 2 ^ m ↔ k < m := Nat.pow_lt_pow_iff_right (by decide)
  have hpow_le (m : Nat) : k ≤ m → 2 ^ k ≤ 2 ^ m := Nat.pow_le_pow_right (by decide)
  rw [floatExponents, ← hpow, FitsDouble]
  constructor
  · intro h
    generalize 2 ^ 970 = halfStep at h
    exact h.trans_le (Nat.sub_le _ halfStep)
  · intro h
    have hle := hpow_le 1023 (Nat.le_of_lt_succ ((hpow 1024).1 h))
    exact hle.trans_lt (by decide +kernel)

/-- `min(300 * 2 ** (n - 1), 3600)` seconds. -/
def delay (n : Nat) : Time := seconds (min (300 * 2 ^ (n - 1)) 3600)

/-- **The cooldown**, as long as the power fits a double. -/
theorem cooldown_eq_some {n : Nat} {t : Time} :
    cooldown n = some t ↔ FitsDouble (2 ^ (n - 1)) ∧ t = delay n := by
  rw [fitsDouble_two_pow]
  unfold cooldown
  split
  · rename_i hlarge
    simp [not_lt.2 hlarge]
  · rename_i hsmall
    rw [Option.some_inj, eq_comm]
    exact ⟨fun h => ⟨not_le.1 hsmall, h⟩, fun h => h.2⟩

theorem cooldown_eq_none {n : Nat} : cooldown n = none ↔ floatExponents ≤ n - 1 := by
  unfold cooldown
  split
  · rename_i hlarge
    simp [hlarge]
  · rename_i hsmall
    simp [hsmall]

theorem delay_mono {m n : Nat} (h : m ≤ n) : delay m ≤ delay n := by
  have hpow : 2 ^ (m - 1) ≤ 2 ^ (n - 1) :=
    Nat.pow_le_pow_right (by decide) (Nat.sub_le_sub_right h 1)
  exact Nat.mul_le_mul_right _ (min_le_min_right _ (Nat.mul_le_mul_left _ hpow))

theorem seconds_base_le_delay (n : Nat) : seconds 300 ≤ delay n := by
  have hpow : 1 ≤ 2 ^ (n - 1) := Nat.one_le_two_pow
  exact Nat.mul_le_mul_right _ (le_min (Nat.le_mul_of_pos_right 300 hpow) (by decide))

theorem delay_le_seconds_max (n : Nat) : delay n ≤ seconds 3600 :=
  Nat.mul_le_mul_right _ (min_le_right _ _)

/-! ## Streaks -/

/-- An entry whose collector is called again and again. -/
def entryMachine : Machine Entry Collect Ran where
  step e call := ((runEntry e call).1, [(runEntry e call).2])

/-- A streak of failures, by the readings of the clock when they are handled: the entry
afterwards, and what the calls of `_run_entry` came to. -/
def failing (e : Entry) (times : List Time) : Entry × List Ran :=
  entryMachine.run e (times.map Collect.raised)

/-- A failure is counted whatever comes of it. -/
theorem failures_runEntry_raised (e : Entry) (at_ : Time) :
    (runEntry e (.raised at_)).1.failures = e.failures + 1 := by
  rw [runEntry]
  cases cooldown (e.failures + 1) <;> rfl

/-- **One failure** that a float can still hold. -/
theorem runEntry_raised {e : Entry} (h : e.failures < floatExponents) (at_ : Time) :
    runEntry e (.raised at_) =
      ({ e with failures := e.failures + 1, retryAt := at_ + delay (e.failures + 1) },
        .failed) := by
  have hcooldown : cooldown (e.failures + 1) = some (delay (e.failures + 1)) :=
    cooldown_eq_some.2 ⟨fitsDouble_two_pow.2 h, rfl⟩
  rw [runEntry, hcooldown]

/-- The failure after these raises in the handler. -/
theorem runEntry_escapes {e : Entry} (h : floatExponents ≤ e.failures) (at_ : Time) :
    (runEntry e (.raised at_)).2 = .escaped := by
  rw [runEntry, cooldown_eq_none.2 h]

theorem failing_concat (e : Entry) (times : List Time) (t : Time) :
    failing e (times ++ [t]) =
      ((runEntry (failing e times).1 (.raised t)).1,
        (failing e times).2 ++ [(runEntry (failing e times).1 (.raised t)).2]) := by
  rw [failing, List.map_append, List.map_singleton, entryMachine.run_concat]
  rfl

/-- Every failure of a streak is counted. -/
theorem failing_failures (e : Entry) (times : List Time) :
    (failing e times).1.failures = e.failures + times.length := by
  induction times using List.reverseRecOn with
  | nil => rfl
  | append_singleton times t ih =>
    rw [failing_concat, failures_runEntry_raised, ih, List.length_append, List.length_singleton,
      Nat.add_assoc]

/-- The entry waits from the last failure on. -/
theorem failing_retryAt {e : Entry} {times : List Time} {t : Time}
    (h : e.failures + times.length < floatExponents) :
    (failing e (times ++ [t])).1.retryAt = t + delay (e.failures + times.length + 1) := by
  have hcount := failing_failures e times
  rw [failing_concat, runEntry_raised (hcount ▸ h), hcount]

/-- Up to 1024 failures in a row `_run_entry` returns `None` every time. -/
theorem failing_returned {e : Entry} {times : List Time}
    (h : e.failures + times.length ≤ floatExponents) : ∀ r ∈ (failing e times).2, r = .failed := by
  induction times using List.reverseRecOn with
  | nil => exact fun r hr => absurd hr List.not_mem_nil
  | append_singleton times t ih =>
    rw [List.length_append, List.length_singleton] at h
    have hfew : (failing e times).1.failures < floatExponents := by
      rw [failing_failures]
      omega
    intro r hr
    rw [failing_concat, runEntry_raised hfew] at hr
    rcases List.mem_append.1 hr with hr | hr
    · exact ih (by omega) r hr
    · exact List.mem_singleton.1 hr

/-- One more, and an exception leaves the handler. -/
theorem escaped_mem_failing {e : Entry} {times : List Time}
    (h : floatExponents < e.failures + times.length) (hfresh : e.failures ≤ floatExponents) :
    .escaped ∈ (failing e times).2 := by
  induction times using List.reverseRecOn with
  | nil => exact absurd h (not_lt.2 hfresh)
  | append_singleton times t ih =>
    rw [failing_concat, List.mem_append]
    rw [List.length_append, List.length_singleton] at h
    by_cases hlong : floatExponents < e.failures + times.length
    · exact .inl (ih hlong)
    · refine .inr (List.mem_singleton.2 (runEntry_escapes ?_ t).symm)
      rw [failing_failures]
      omega

/-! ## The law -/

/-- **What a streak of failures should come to**, at every length up to its own. -/
structure BackoffLaw (e : Entry) (times : List Time) : Prop where
  /-- `_run_entry` returned `None` every time. -/
  returned : ∀ r ∈ (failing e times).2, r = .failed
  counted : ∀ n ≤ times.length, (failing e (times.take n)).1.failures = n
  waits : ∀ n, (h : n < times.length) →
    (failing e (times.take (n + 1))).1.retryAt =
      times[n] + seconds (min (300 * 2 ^ n) 3600)
  /-- The cooldown never decreases along the streak. -/
  grows : ∀ m n, (h : n < times.length) → (hle : m ≤ n) →
    (failing e (times.take (m + 1))).1.retryAt - times[m] ≤
      (failing e (times.take (n + 1))).1.retryAt - times[n]
  bounded : ∀ n, (h : n < times.length) →
    times[n] + seconds 300 ≤ (failing e (times.take (n + 1))).1.retryAt ∧
      (failing e (times.take (n + 1))).1.retryAt ≤ times[n] + seconds 3600
  /-- One success resets both fields. -/
  reset : ∀ v, (runEntry (failing e times).1 (.returned v)).1 =
    { (failing e times).1 with failures := 0, retryAt := 0 }

/-- The wait after each failure of a streak that starts afresh. -/
theorem retryAt_take {e : Entry} (hfresh : e.failures = 0) {times : List Time}
    (hfew : times.length ≤ floatExponents) {n : Nat} (h : n < times.length) :
    (failing e (times.take (n + 1))).1.retryAt = times[n] + delay (n + 1) := by
  have hlen : (times.take n).length = n := by rw [List.length_take, min_eq_left h.le]
  have hcount : e.failures + (times.take n).length < floatExponents := by omega
  rw [List.take_succ_eq_append_getElem h, failing_retryAt hcount, hlen, hfresh, Nat.zero_add]

/-- **The backoff law** holds for the streaks of up to 1024 failures, and for no others. -/
theorem backoff_law_iff {e : Entry} (hfresh : e.failures = 0) (times : List Time) :
    BackoffLaw e times ↔ times.length ≤ 1024 := by
  constructor
  · intro law
    by_contra hlong
    have hescaped : Ran.escaped ∈ (failing e times).2 := by
      refine escaped_mem_failing ?_ (by rw [hfresh]; exact Nat.zero_le _)
      rw [hfresh, Nat.zero_add]
      exact not_le.1 hlong
    exact absurd (law.returned _ hescaped) (by simp)
  · intro hfew
    have hwait {n : Nat} (h : n < times.length) := retryAt_take hfresh hfew h
    exact {
      returned := failing_returned (by rw [hfresh, Nat.zero_add]; exact hfew)
      counted := by
        intro n hn
        rw [failing_failures, hfresh, List.length_take, min_eq_left hn, Nat.zero_add]
      waits := fun n h => hwait h
      grows := by
        intro m n h hle
        rw [hwait h, hwait (hle.trans_lt h), Nat.add_sub_cancel_left, Nat.add_sub_cancel_left]
        exact delay_mono (Nat.succ_le_succ hle)
      bounded := by
        intro n h
        rw [hwait h]
        exact ⟨Nat.add_le_add_left (seconds_base_le_delay _) _,
          Nat.add_le_add_left (delay_le_seconds_max _) _⟩
      reset := fun _ => rfl }

theorem backoff_law_twice : BackoffLaw (sampleEntry "smart") [seconds 10, seconds 400] :=
  (backoff_law_iff rfl _).2 (by decide)

/-- **The 1025th failure in a row** ends the agent. -/
theorem backoff_overflows : ¬ BackoffLaw (sampleEntry "smart") (List.replicate 1025 0) := by
  intro law
  have hescaped : Ran.escaped ∈ (failing (sampleEntry "smart") (List.replicate 1025 0)).2 := by
    refine escaped_mem_failing ?_ (by decide)
    rw [List.length_replicate]
    decide
  exact absurd (law.returned _ hescaped) (by simp)

end OoAgent
