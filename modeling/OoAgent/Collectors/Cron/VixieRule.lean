import OoAgent.Collectors.Cron.NextRun

/-!
# The Vixie rule

Cron asks for both day fields when one of them starts with a star, and for one of them
otherwise.  "When both day fields are restricted, either matches", says the code, and
takes every field that starts with a star for one that does not restrict: a stepped star
such as `*/2` starts with a star, too.

* `Schedule.CronDay`, `Schedule.Fires` — cron's own rule.
* `cronNextRun_eq_at` — what `cron_next_run` returns is the timestamp of a minute found.
* `follows_cron_iff` — **the rule is followed** exactly by the schedules whose star fields
  have all the values that can matter.
-/

namespace OoAgent

open PyTime Gregorian

namespace Schedule

variable (s : Schedule)

/-- **Cron's rule for the day.** -/
def CronDay (d : Date) : Prop :=
  if s.domStar ∨ s.dowStar then d.day ∈ s.doms.values ∧ d.weekday ∈ s.dows.values
  else d.day ∈ s.doms.values ∨ d.weekday ∈ s.dows.values

/-- The schedule fires at this minute. -/
def Fires (c : Minute) : Prop :=
  c.minute ∈ s.minutes.values ∧ c.hour ∈ s.hours.values ∧
    c.day.date.month ∈ s.months.values ∧ s.CronDay c.day.date

/-- The day-of-month field has every day of the scheduled months. -/
def AllDays : Prop :=
  ∀ month ∈ s.months.values, ∀ day, 1 ≤ day → day ≤ daysIn 2000 month → day ∈ s.doms.values

/-- The day-of-week field has every weekday. -/
def AllWeekdays : Prop := ∀ weekday < 7, weekday ∈ s.dows.values

/-- No scheduled month has any of the scheduled days, as in `30 2`. -/
def NoDay : Prop :=
  ∀ month ∈ s.months.values, ∀ day ∈ s.doms.values, daysIn 2000 month < day

/-- A day field that starts with a star has all the values that can matter. -/
def StarsFull : Prop :=
  (s.domStar = true → s.AllDays) ∧ (s.dowStar = true → s.AllWeekdays ∨ s.NoDay)

end Schedule

/-- The minute whose timestamp `cron_next_run` returns. -/
def Returns (zone : Zone) (schedule : List Char) (now : ℚ) (c : Minute) : Prop :=
  ∃ s start, parseSchedule schedule = some (some s) ∧
    zone.fromtimestamp (now + 60) = some start ∧
    nextMinute s.minutes s.hours s.dayOk start.toMinute = .found c

/-- Whatever the zone and the time, what `cron_next_run` returns is a time at which the
schedule fires. -/
def FollowsCron (schedule : List Char) (s : Schedule) : Prop :=
  ∀ zone now epoch, cronNextRun zone schedule now = .at_ epoch →
    ∃ c, Returns zone schedule now c ∧ zone.timestamp c = some epoch ∧ s.Fires c

/-! ## What is returned -/

/-- **What `cron_next_run` returns** is the timestamp of a minute that was found. -/
theorem cronNextRun_eq_at {zone : Zone} {schedule : List Char} {now epoch : ℚ} :
    cronNextRun zone schedule now = .at_ epoch ↔
      ∃ c, Returns zone schedule now c ∧ zone.timestamp c = some epoch := by
  unfold cronNextRun Returns
  constructor
  · intro h
    cases hs : parseSchedule schedule with
    | none => rw [hs] at h; cases h
    | some parsed =>
      rw [hs] at h
      cases parsed with
      | none => cases h
      | some s =>
        simp only at h
        cases hstart : zone.fromtimestamp (now + 60) with
        | none => rw [hstart] at h; cases h
        | some start =>
          rw [hstart] at h
          simp only at h
          cases hsearch : nextMinute s.minutes s.hours s.dayOk start.toMinute with
          | exhausted => rw [hsearch] at h; cases h
          | overflow => rw [hsearch] at h; cases h
          | found c =>
            rw [hsearch] at h
            simp only at h
            cases hepoch : zone.timestamp c with
            | none => rw [hepoch] at h; cases h
            | some e =>
              rw [hepoch] at h
              cases h
              exact ⟨c, ⟨s, start, rfl, rfl, hsearch⟩, hepoch⟩
  · rintro ⟨c, ⟨s, start, hs, hstart, hsearch⟩, hepoch⟩
    simp only [hs, hstart, hsearch, hepoch]

/-- A minute that was found lies in the window of its search. -/
theorem mem_window_of_returns {zone : Zone} {schedule : List Char} {now : ℚ} {c : Minute}
    (h : Returns zone schedule now c) {s : Schedule}
    (hs : parseSchedule schedule = some (some s)) :
    ∃ start, c ∈ window s.minutes s.hours s.dayOk start := by
  obtain ⟨s', start, hs', -, hsearch⟩ := h
  obtain rfl : s = s' := by simpa [hs] using hs'
  exact ⟨start.toMinute, ((nextMinute_eq_found s.minutes s.hours s.dayOk _).1 hsearch).1⟩

/-! ## The day test -/

@[simp] theorem dowOf_eq (day : Day) : dowOf day = day.date.weekday := by
  unfold dowOf Date.weekday
  omega

/-- The day test in terms of the two day fields. -/
theorem dayOk_iff {s : Schedule} {day : Day} :
    s.dayOk day = true ↔ day.date.month ∈ s.months.values ∧
      ((s.domStar = true ∧ s.dowStar = true) ∨
        (s.domStar = true ∧ day.date.weekday ∈ s.dows.values) ∨
        (s.dowStar = true ∧ day.date.day ∈ s.doms.values) ∨
        (s.domStar = false ∧ s.dowStar = false ∧
          (day.date.day ∈ s.doms.values ∨ day.date.weekday ∈ s.dows.values))) := by
  simp only [Schedule.dayOk, Schedule.domOk, Schedule.dowOk, dowOf_eq, Bool.and_eq_true,
    Bool.or_eq_true, decide_eq_true_eq, Bool.not_eq_true', and_assoc, or_assoc]

theorem weekday_lt (d : Date) : d.weekday < 7 := Nat.mod_lt _ (by decide)

/-- A date lies within the longest its month can be. -/
theorem day_le_leap (d : Date) : d.day ≤ daysIn 2000 d.month :=
  d.day_le.trans (daysIn_le_leap d.year d.month)

/-- With full stars a day that passes the test is one of cron's. -/
theorem cronDay_of_dayOk {s : Schedule} (hfull : s.StarsFull) {day : Day}
    (hok : s.dayOk day = true) : s.CronDay day.date := by
  obtain ⟨hmonth, hrule⟩ := dayOk_iff.1 hok
  have hdom (hstar : s.domStar = true) : day.date.day ∈ s.doms.values :=
    hfull.1 hstar _ hmonth _ day.date.day_pos (day_le_leap day.date)
  have hdow (hstar : s.dowStar = true) (hday : day.date.day ∈ s.doms.values) :
      day.date.weekday ∈ s.dows.values := by
    rcases hfull.2 hstar with hall | hnone
    · exact hall _ (weekday_lt _)
    · exact absurd (day_le_leap day.date) (not_le.2 (hnone _ hmonth _ hday))
  unfold Schedule.CronDay
  rcases hrule with ⟨hstar, hstar'⟩ | ⟨hstar, hin⟩ | ⟨hstar, hin⟩ | ⟨hplain, hplain', hin⟩
  · rw [if_pos (.inl hstar)]
    exact ⟨hdom hstar, hdow hstar' (hdom hstar)⟩
  · rw [if_pos (.inl hstar)]
    exact ⟨hdom hstar, hin⟩
  · rw [if_pos (.inr hstar)]
    exact ⟨hin, hdow hstar hin⟩
  · rw [if_neg (by simp [hplain, hplain'])]
    exact hin

/-- Every month and day falls on every weekday within the calendar. -/
theorem exists_day_on {month day weekday : ℕ} (hmonth : 1 ≤ month) (hle : month ≤ 12)
    (hday : 1 ≤ day) (hday_le : day ≤ daysIn 2000 month) (hweekday : weekday < 7) :
    ∃ d : Day, d.date.month = month ∧ d.date.day = day ∧ d.date.weekday = weekday := by
  obtain ⟨d, hyear, hd⟩ := Date.exists_date_on hmonth hle hday hday_le hweekday
  exact ⟨⟨d, hyear.le.trans (by decide)⟩, hd⟩

/-- If every day that passes the test is one of cron's, the stars are full. -/
theorem starsFull_of_forall {s : Schedule}
    (h : ∀ day, s.dayOk day = true → s.CronDay day.date) : s.StarsFull := by
  constructor
  · intro hstar month hmonth day hpos hle
    -- a weekday of the schedule: the test lets the date through whatever its day
    obtain ⟨weekday, hweekday⟩ := s.dows.nonempty
    obtain ⟨hm, hm'⟩ := s.months.bounds month hmonth
    obtain ⟨d, rfl, rfl, rfl⟩ := exists_day_on hm hm' hpos hle
      (Nat.lt_succ_of_le (s.dows.bounds weekday hweekday).2)
    have hcron := h d (dayOk_iff.2 ⟨hmonth, .inr (.inl ⟨hstar, hweekday⟩)⟩)
    unfold Schedule.CronDay at hcron
    rw [if_pos (.inl hstar)] at hcron
    exact hcron.1
  · intro hstar
    by_contra hnot
    rw [not_or] at hnot
    obtain ⟨hall, hnone⟩ := hnot
    unfold Schedule.AllWeekdays at hall
    unfold Schedule.NoDay at hnone
    push Not at hall hnone
    obtain ⟨weekday, hlt, hmissing⟩ := hall
    obtain ⟨month, hmonth, day, hday, hle⟩ := hnone
    obtain ⟨hm, hm'⟩ := s.months.bounds month hmonth
    obtain ⟨d, rfl, rfl, rfl⟩ := exists_day_on hm hm' (s.doms.bounds day hday).1 hle hlt
    have hcron := h d (dayOk_iff.2 ⟨hmonth, .inr (.inr (.inl ⟨hstar, hday⟩))⟩)
    unfold Schedule.CronDay at hcron
    rw [if_pos (.inr hstar)] at hcron
    exact hmissing hcron.2

/-! ## The rule -/

/-- **Every day that passes the test is returned**, at midnight of that day. -/
theorem exists_returns {schedule : List Char} {s : Schedule}
    (hs : parseSchedule schedule = some (some s)) {day : Day} (hok : s.dayOk day = true) :
    ∃ now c, Returns utc schedule now c ∧ c.day = day := by
  let midnight : Minute := ⟨day, 0, 0, by decide, by decide⟩
  obtain ⟨start, hstart, hmidnight⟩ := utc_fromtimestamp midnight
  obtain ⟨hour, hhour⟩ := s.hours.nonempty
  obtain ⟨minute, hminute⟩ := s.minutes.nonempty
  let time : Minute := candidate day ⟨hour, s.hours.bounds hour hhour⟩
    ⟨minute, s.minutes.bounds minute hminute⟩
  have hbefore : midnight ≤ time := by
    rw [← not_lt, Minute.lt_iff]
    simp [midnight, time, candidate]
  have hwindow : time ∈ window s.minutes s.hours s.dayOk midnight :=
    ⟨hbefore, ⟨0, by decide, rfl⟩, hok, hhour, hminute⟩
  obtain ⟨c, hfound, hle⟩ := exists_found_of_mem_window s.minutes s.hours s.dayOk _ hwindow
  have hmem := ((nextMinute_eq_found s.minutes s.hours s.dayOk _).1 hfound).1
  refine ⟨secondsOf midnight - 60, c, ⟨s, start, hs, ?_, by rwa [hmidnight]⟩, ?_⟩
  · rw [sub_add_cancel]
    exact hstart
  · exact le_antisymm (Minute.day_le_of_le hle) (Minute.day_le_of_le hmem.1)

/-- The rule is followed exactly when the day test asks for no less than cron does. -/
theorem followsCron_iff_dayOk {schedule : List Char} {s : Schedule}
    (hs : parseSchedule schedule = some (some s)) :
    FollowsCron schedule s ↔ ∀ day, s.dayOk day = true → s.CronDay day.date := by
  constructor
  · intro h day hok
    obtain ⟨now, c, hreturns, rfl⟩ := exists_returns hs hok
    obtain ⟨c', ⟨s', start', hs', hstart', hfound'⟩, -, hfires⟩ :=
      h utc now (secondsOf c) (cronNextRun_eq_at.2 ⟨c, hreturns, rfl⟩)
    obtain ⟨s₁, start₁, hs₁, hstart₁, hfound₁⟩ := hreturns
    -- both are what the one search found
    obtain rfl : s₁ = s' := by simpa [hs₁] using hs'
    obtain rfl : start₁ = start' := by simpa [hstart₁] using hstart'
    obtain rfl : c = c' := by simpa [hfound₁] using hfound'
    exact hfires.2.2.2
  · intro h zone now epoch hat
    obtain ⟨c, hreturns, hepoch⟩ := cronNextRun_eq_at.1 hat
    obtain ⟨start, -, -, hok, hhour, hminute⟩ := mem_window_of_returns hreturns hs
    exact ⟨c, hreturns, hepoch, hminute, hhour, (dayOk_iff.1 hok).1, h c.day hok⟩

/-- **The Vixie rule** is followed, in every zone and at every time, exactly by the schedules
whose star fields have all the values that can matter: all days of the scheduled months,
all weekdays. -/
theorem follows_cron_iff {schedule : List Char} {s : Schedule}
    (hs : parseSchedule schedule = some (some s)) : FollowsCron schedule s ↔ s.StarsFull := by
  rw [followsCron_iff_dayOk hs]
  exact ⟨starsFull_of_forall, fun hfull _ => cronDay_of_dayOk hfull⟩

theorem follows_cron_daily :
    ∃ s, parseSchedule "30 4 * * *".toList = some (some s) ∧
      FollowsCron "30 4 * * *".toList s := by
  obtain ⟨s, hs, hsets⟩ := @exists_schedule "30 4 * * *".toList
    (fun s => decide (Finset.Icc 1 31 ⊆ s.doms.values) &&
      decide (Finset.range 7 ⊆ s.dows.values)) (by decide +kernel)
  rw [Bool.and_eq_true, decide_eq_true_eq, decide_eq_true_eq] at hsets
  refine ⟨s, hs, (follows_cron_iff hs).2 ⟨fun _ month _ day hpos hle => ?_, fun _ => .inl ?_⟩⟩
  · exact hsets.1 (Finset.mem_Icc.2 ⟨hpos, hle.trans (daysIn_le 2000 month)⟩)
  · exact fun weekday hlt => hsets.2 (Finset.mem_range.2 hlt)

/-- **Every second day** is every day: `0 0 */2 * *` runs on the second of January. -/
theorem stepped_star_runs_daily :
    ∃ s, parseSchedule "0 0 */2 * *".toList = some (some s) ∧
      ¬ FollowsCron "0 0 */2 * *".toList s := by
  let day : Day :=
    ⟨⟨2025, 1, 2, by decide, by decide, by decide, by decide, by decide⟩, by decide⟩
  obtain ⟨s, hs, hday⟩ := @exists_schedule "0 0 */2 * *".toList
    (fun s => s.domStar && s.dayOk day && decide (day.date.day ∉ s.doms.values))
    (by decide +kernel)
  simp only [Bool.and_eq_true, decide_eq_true_eq] at hday
  obtain ⟨⟨hstar, hok⟩, hnot⟩ := hday
  refine ⟨s, hs, fun h => ?_⟩
  have hcron := (followsCron_iff_dayOk hs).1 h day hok
  unfold Schedule.CronDay at hcron
  rw [if_pos (.inl hstar)] at hcron
  exact hnot hcron.1

end OoAgent
