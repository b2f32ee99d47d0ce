import OoAgent.Collectors.Cron.VixieRule
import OoAgent.Python.Localtime

/-!
# The next run and the past

The search goes on from the local minute a minute ahead, and `timestamp` takes the minute
it finds for the first of its moments.  In the hour that is repeated after the clock has
been put back that is an hour ago.

* `FirstDue` — the first minute of a schedule from the one a minute ahead on.
* `PutBackOver` — the clock has been put back over a minute that it had been through.
* `next_run_future_iff` — **the next run is in the future** unless the clock has been put
  back over the first minute due.
* `next_run_future` — it is in every zone whose clock has never been put back.
-/

namespace OoAgent

open PyText PyTime Gregorian

/-- The first minute of the schedule, within the window, from the local minute a minute
ahead on. -/
def FirstDue (zone : Zone) (schedule : List Char) (now : ℚ) (c : Minute) : Prop :=
  ∃ s start, parseSchedule schedule = some (some s) ∧
    zone.fromtimestamp (now + 60) = some start ∧
    IsLeast (window s.minutes s.hours s.dayOk start.toMinute) c

/-- The clock has been through a minute by now, and is put back since: a minute ahead it
has a smaller offset than it had before. -/
structure PutBackOver (clock : Clock) (now : ℚ) (c : Minute) : Prop where
  passed : clock.PassedBy now (secondsOf c)
  back : ∃ u : ℤ, (u : ℚ) ≤ now ∧ clock.offset (secondOf (now + 60)) < clock.offset u

theorem firstDue_iff_returns {zone : Zone} {schedule : List Char} {now : ℚ} {c : Minute} :
    FirstDue zone schedule now c ↔ Returns zone schedule now c := by
  simp only [FirstDue, Returns, nextMinute_eq_found]

section

variable {clock : Clock} {zone : Zone} (hzone : zone.Follows clock) {schedule : List Char}
  {now : ℚ} {c : Minute}

include hzone

/-- A due minute is ahead of the clock, so that it was passed only if the clock was put
back. -/
theorem putBackOver_of_passedBy (hdue : FirstDue zone schedule now c)
    (hpassed : clock.PassedBy now (secondsOf c)) : PutBackOver clock now c := by
  obtain ⟨s, start, -, hstart, hleast⟩ := hdue
  have hahead := lt_secondsOf hzone hstart hleast.1.1
  exact ⟨hpassed, Clock.exists_offset_of_passedBy hpassed hahead⟩

/-- **The next run is in the future** exactly when the clock has not been put back over the
first minute due, unless that has no timestamp. -/
theorem next_run_future_iff (schedule : List Char) (now : ℚ) :
    (∀ epoch, cronNextRun zone schedule now = .at_ epoch → now < epoch) ↔
      ∀ c, FirstDue zone schedule now c → zone.timestamp c ≠ none →
        ¬ PutBackOver clock now c := by
  constructor
  · intro h c hdue hsome hback
    obtain ⟨epoch, hepoch⟩ := Option.ne_none_iff_exists'.1 hsome
    obtain ⟨m, hm, rfl⟩ := hzone.means hepoch
    have hreturns := firstDue_iff_returns.1 hdue
    have hfuture := h m (cronNextRun_eq_at.2 ⟨c, hreturns, hepoch⟩)
    exact absurd ((Clock.passedBy_iff hm).1 hback.passed) (not_le.2 hfuture)
  · intro h epoch hat
    obtain ⟨c, hreturns, hepoch⟩ := cronNextRun_eq_at.1 hat
    obtain ⟨m, hm, rfl⟩ := hzone.means hepoch
    have hdue := firstDue_iff_returns.2 hreturns
    by_contra hpast
    have hpassed := (Clock.passedBy_iff hm).2 (not_lt.1 hpast)
    exact h c hdue (by simp [hepoch]) (putBackOver_of_passedBy hzone hdue hpassed)

/-- **Where the clock is only ever put forward** the next run is in the future. -/
theorem next_run_future (hforward : Monotone clock.offset) {epoch : ℚ}
    (hat : cronNextRun zone schedule now = .at_ epoch) : now < epoch := by
  refine (next_run_future_iff hzone schedule now).2 (fun c _ _ hback => ?_) epoch hat
  obtain ⟨u, hu, hlt⟩ := hback.back
  have hround := sub_half_le_roundHalfEven ((now + 60) * 1000000)
  have hle : u ≤ secondOf (now + 60) := by
    unfold secondOf microsOf
    rw [Int.le_ediv_iff_mul_le (by decide)]
    have hmicros : (u : ℚ) * 1000000 ≤ roundHalfEven ((now + 60) * 1000000) := by linarith
    exact_mod_cast hmicros
  exact absurd (hforward hle) (not_le.2 hlt)

end

/-! ## Summer time -/

/-- A schedule that is due in the minute a minute ahead runs then, at the moment which that
minute stands for. -/
theorem cronNextRun_of_reading {clock : Clock} {schedule : List Char} {s : Schedule}
    (hs : parseSchedule schedule = some (some s)) {c : Minute} {u m : ℤ}
    (hreads : clock.reading u = secondsOf c) (hmoment : clock.moment (secondsOf c) = some m)
    (hfound : nextMinute s.minutes s.hours s.dayOk c = .found c) :
    cronNextRun (localZone clock) schedule (u - 60) = .at_ m := by
  obtain ⟨start, hstart, hminute⟩ := civil_secondsOf c
  have hshows : (localZone clock).fromtimestamp ((u : ℚ) - 60 + 60) = some start := by
    have hmicros : microsOf u = u * 1000000 := roundHalfEven_seconds u
    change civil (localMicros clock ((u : ℚ) - 60 + 60)) = some start
    rw [sub_add_cancel, localMicros, secondOf, hmicros, Int.mul_ediv_cancel _ (by decide),
      Int.mul_emod_left, add_zero, hreads]
    exact hstart
  refine cronNextRun_eq_at.2 ⟨c, ⟨s, start, hs, hshows, by rwa [hminute]⟩, ?_⟩
  simp [localZone, hmoment]

/-- A clock that is put back by an hour, from two hours ahead, on 25 October 2026. -/
def autumn : Clock where
  base := 7200
  changes := [(1792890000, 3600)]
  sorted := List.pairwise_singleton _ _

/-- A minute of the hour that is repeated. -/
def repeated : Minute := ⟨⟨.of 2026 10 25 (by decide), by decide⟩, 2, 11, by decide, by decide⟩

/-- Every minute is due. -/
theorem every_minute_due :
    ∃ s, parseSchedule "* * * * *".toList = some (some s) ∧
      nextMinute s.minutes s.hours s.dayOk repeated = .found repeated := by
  obtain ⟨s, hs, hfound⟩ := @exists_schedule "* * * * *".toList
    (fun s => decide (nextMinute s.minutes s.hours s.dayOk repeated = .found repeated))
    (by decide +kernel)
  exact ⟨s, hs, of_decide_eq_true hfound⟩

theorem next_run_future_summer :
    ∃ epoch, cronNextRun (localZone autumn) "* * * * *".toList 1792887000 = .at_ epoch ∧
      1792887000 < epoch := by
  obtain ⟨s, hs, hfound⟩ := every_minute_due
  have hat := @cronNextRun_of_reading autumn "* * * * *".toList s hs repeated 1792887060 1792887060
    (by decide +kernel) (by decide +kernel) hfound
  have hnow : ((1792887060 : ℤ) : ℚ) - 60 = 1792887000 := by norm_num
  rw [hnow] at hat
  have hiff := next_run_future_iff (localZone_follows autumn) "* * * * *".toList 1792887000
  refine ⟨_, hat, hiff.2 (fun c _ _ hback => ?_) _ hat⟩
  -- all of that is before the change
  obtain ⟨u, hu, hlt⟩ := hback.back
  have hsecond : secondOf ((1792887000 : ℚ) + 60) = 1792887060 := by decide +kernel
  have hbefore : u ≤ 1792887000 := by exact_mod_cast hu
  rw [hsecond] at hlt
  unfold Clock.offset autumn Clock.offsetFrom at hlt
  rw [if_pos (by omega), if_pos (by omega)] at hlt
  exact absurd hlt (lt_irrefl _)

/-- **In the repeated hour** the next run of `* * * * *` is an hour ago. -/
theorem next_run_past :
    ¬ ∀ clock zone, Zone.Follows zone clock → ∀ schedule now epoch,
      cronNextRun zone schedule now = .at_ epoch → now < epoch := by
  intro h
  obtain ⟨s, hs, hfound⟩ := every_minute_due
  have hat := @cronNextRun_of_reading autumn "* * * * *".toList s hs repeated 1792890660 1792887060
    (by decide +kernel) (by decide +kernel) hfound
  have hlt := h autumn (localZone autumn) (localZone_follows autumn) _ _ _ hat
  norm_num at hlt

end OoAgent
