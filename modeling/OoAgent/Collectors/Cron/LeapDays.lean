import OoAgent.Collectors.Cron.VixieRule

/-!
# The length of the search

Two years of 366 days hold every date of the calendar but one: the leap day, for which one
may have to wait eight years.

* `Schedule.CanFire` — the schedule fires again and again, in a calendar without an end.
* `Schedule.LeapDayOnly` — of all dates it names the 29th of February only.
* `has_next_run_iff` — **a schedule that can fire has a next run** unless it is for leap
  days only, and none of them is ahead in the window.
-/

namespace OoAgent

open PyTime Gregorian

namespace Schedule

variable (s : Schedule)

/-- However far one goes in the calendar, there is a later day on which cron would run it. -/
def CanFire : Prop :=
  ∀ n, ∃ d : Date, n ≤ d.ordinal ∧ d.month ∈ s.months.values ∧ s.CronDay d

/-- The days are chosen by the day of the month, and the 29th of February is the only date
among them. -/
def LeapDayOnly : Prop :=
  s.domStar = false ∧ s.dowStar = true ∧ ∀ month ∈ s.months.values, ∀ day ∈ s.doms.values,
    day ≤ daysIn 2000 month → month = 2 ∧ day = 29

/-- A leap day of the window on which the times of the schedule are not over at the start. -/
def LeapDayAhead (start : Minute) : Prop :=
  ∃ k < windowDays, ∃ day, start.day.later k = some day ∧
    day.date.month = 2 ∧ day.date.day = 29 ∧
    (k = 0 → ∃ hour ∈ s.hours.values, ∃ minute ∈ s.minutes.values,
      start.hour < hour ∨ start.hour = hour ∧ start.minute ≤ minute)

end Schedule

/-! ## `None` -/

/-- `None` is what an exhausted search comes to. -/
theorem cronNextRun_eq_absent {zone : Zone} {schedule : List Char} {s : Schedule} {now : ℚ}
    {start : DateTime} (hs : parseSchedule schedule = some (some s))
    (hstart : zone.fromtimestamp (now + 60) = some start) :
    cronNextRun zone schedule now = .absent ↔
      nextMinute s.minutes s.hours s.dayOk start.toMinute = .exhausted := by
  simp only [cronNextRun, hs, hstart]
  cases nextMinute s.minutes s.hours s.dayOk start.toMinute with
  | exhausted => simp
  | overflow => simp
  | found c => cases hepoch : zone.timestamp c <;> simp [hepoch]

variable {s : Schedule} {start : Minute}

/-- A day of the window that passes the test, with time left on it, ends the search. -/
theorem window_nonempty {k : ℕ} {day : Day} (hk : k < windowDays)
    (hday : start.day.later k = some day) (hok : s.dayOk day = true)
    (htime : k = 0 → ∃ hour ∈ s.hours.values, ∃ minute ∈ s.minutes.values,
      start.hour < hour ∨ start.hour = hour ∧ start.minute ≤ minute) :
    (window s.minutes s.hours s.dayOk start).Nonempty := by
  have hdate := Day.later_eq_some.1 hday
  cases k with
  | zero =>
    obtain ⟨hour, hhour, minute, hminute, hlater⟩ := htime rfl
    obtain rfl := Option.some.inj hday
    refine ⟨candidate start.day ⟨hour, s.hours.bounds hour hhour⟩
      ⟨minute, s.minutes.bounds minute hminute⟩, ?_, ⟨0, hk, rfl⟩, hok, hhour, hminute⟩
    rw [← not_lt, Minute.lt_iff]
    simp only [candidate, lt_self_iff_false, true_and, false_or]
    omega
  | succ k =>
    obtain ⟨hour, hhour⟩ := s.hours.nonempty
    obtain ⟨minute, hminute⟩ := s.minutes.nonempty
    refine ⟨candidate day ⟨hour, s.hours.bounds hour hhour⟩
      ⟨minute, s.minutes.bounds minute hminute⟩, ?_, ⟨k + 1, hk, hday⟩, hok, hhour, hminute⟩
    have hlt : start.day < day := by
      rw [Day.lt_iff, hdate, Date.lt_iff_ordinal_lt, Date.ordinal_iterate_next]
      omega
    exact (Minute.lt_iff.2 (.inl hlt)).le

/-! ## Days that come round -/

/-- **Every other schedule passes the day test** within 372 days of any date. -/
theorem exists_dayOk (hother : ¬ s.LeapDayOnly) (d : Date) :
    ∃ k, 1 ≤ k ∧ k ≤ 372 ∧ ∀ day : Day, day.date = Date.next^[k] d → s.dayOk day = true := by
  obtain ⟨month, hmonth⟩ := s.months.nonempty
  obtain ⟨weekday, hweekday⟩ := s.dows.nonempty
  obtain ⟨hm, hm'⟩ := s.months.bounds month hmonth
  have hlt : weekday < 7 := Nat.lt_succ_of_le (s.dows.bounds weekday hweekday).2
  obtain ⟨k, hpos, hk, hin, hon⟩ := d.exists_weekday hm hm' hlt
  have hweek (day : Day) (hday : day.date = Date.next^[k] d) :
      day.date.month ∈ s.months.values ∧ day.date.weekday ∈ s.dows.values := by
    rw [hday, hin, hon]
    exact ⟨hmonth, hweekday⟩
  cases hdom : s.domStar with
  | true =>
    -- the weekday alone decides
    refine ⟨k, hpos, hk, fun day hday => ?_⟩
    exact dayOk_iff.2 ⟨(hweek day hday).1, .inr (.inl ⟨hdom, (hweek day hday).2⟩)⟩
  | false =>
    cases hdow : s.dowStar with
    | false =>
      -- the weekday is enough
      refine ⟨k, hpos, hk, fun day hday => ?_⟩
      exact dayOk_iff.2 ⟨(hweek day hday).1,
        .inr (.inr (.inr ⟨hdom, hdow, .inr (hweek day hday).2⟩))⟩
    | true =>
      -- the day of the month decides, and there is one besides the leap day
      unfold Schedule.LeapDayOnly at hother
      push Not at hother
      obtain ⟨month, hmonth, day, hday, hle, hnot⟩ := hother hdom hdow
      obtain ⟨hm, hm'⟩ := s.months.bounds month hmonth
      have hevery (year : ℕ) : day ≤ daysIn year month := by
        by_cases hfeb : month = 2
        · subst hfeb
          have hfits := twentyEight_le_daysIn year 2
          have hmax : daysIn 2000 2 = 29 := by decide
          have hleap := hnot rfl
          omega
        · rwa [daysIn_of_ne hfeb year 2000]
      obtain ⟨k, hpos, hk, hin, hon⟩ :=
        d.exists_anniversary hm hm' (s.doms.bounds day hday).1 hevery
      refine ⟨k, hpos, hk.trans (by decide), fun day' hday' => ?_⟩
      refine dayOk_iff.2 ⟨?_, .inr (.inr (.inl ⟨hdow, ?_⟩))⟩
      · rwa [hday', hin]
      · rwa [hday', hon]

/-- A schedule for leap days only runs on no other day. -/
theorem leapDay_of_dayOk (honly : s.LeapDayOnly) {day : Day} (hok : s.dayOk day = true) :
    day.date.month = 2 ∧ day.date.day = 29 := by
  obtain ⟨hdom, hdow, hdays⟩ := honly
  obtain ⟨hmonth, hrule⟩ := dayOk_iff.1 hok
  rcases hrule with ⟨hstar, -⟩ | ⟨hstar, -⟩ | ⟨-, hin⟩ | ⟨-, hplain, -⟩
  · exact absurd hstar (by simp [hdom])
  · exact absurd hstar (by simp [hdom])
  · exact hdays _ hmonth _ hin (day_le_leap day.date)
  · exact absurd hdow (by simp [hplain])

/-- If such a schedule can fire, it does so on the leap day. -/
theorem dayOk_of_leapDay (hfire : s.CanFire) (honly : s.LeapDayOnly) {day : Day}
    (hmonth : day.date.month = 2) (hday : day.date.day = 29) : s.dayOk day = true := by
  obtain ⟨d, -, hin, hcron⟩ := hfire 0
  unfold Schedule.CronDay at hcron
  rw [if_pos (.inr honly.2.1)] at hcron
  obtain ⟨hfeb, hleap⟩ := honly.2.2 _ hin _ hcron.1 (day_le_leap d)
  refine dayOk_iff.2 ⟨?_, .inr (.inr (.inl ⟨honly.2.1, ?_⟩))⟩
  · rwa [hmonth, ← hfeb]
  · rw [hday, ← hleap]
    exact hcron.1

/-! ## The next run -/

/-- The search is exhausted exactly when it has nothing but leap days to look for, none of
them is ahead, and the calendar goes on. -/
theorem exhausted_iff (hfire : s.CanFire) (start : Minute) :
    nextMinute s.minutes s.hours s.dayOk start = .exhausted ↔
      s.LeapDayOnly ∧ ¬ s.LeapDayAhead start ∧ (start.day.later windowDays).isSome := by
  rw [nextMinute_eq_exhausted]
  constructor
  · rintro ⟨hempty, hcalendar⟩
    have hsearch {k : ℕ} {day : Day} := @window_nonempty s start k day
    rw [hempty] at hsearch
    have honly : s.LeapDayOnly := by
      by_contra hother
      obtain ⟨k, hpos, hk, hok⟩ := exists_dayOk hother start.day.date
      obtain ⟨last, hlast⟩ := Option.isSome_iff_exists.1 hcalendar
      have hk' : k < windowDays := hk.trans_lt (by decide)
      obtain ⟨day, hday⟩ := Day.exists_later_of_le hlast hk'.le
      exact Set.not_nonempty_empty (hsearch hk' hday (hok day (Day.later_eq_some.1 hday))
        (fun hzero => absurd hzero (by omega)))
    refine ⟨honly, ?_, hcalendar⟩
    rintro ⟨k, hk, day, hday, hmonth, hleap, htime⟩
    exact Set.not_nonempty_empty (hsearch hk hday (dayOk_of_leapDay hfire honly hmonth hleap) htime)
  · rintro ⟨honly, hahead, hcalendar⟩
    refine ⟨Set.eq_empty_of_forall_notMem fun c hc => hahead ?_, hcalendar⟩
    obtain ⟨hstart, ⟨k, hk, hday⟩, hok, hhour, hminute⟩ := hc
    obtain ⟨hmonth, hleap⟩ := leapDay_of_dayOk honly hok
    refine ⟨k, hk, c.day, hday, hmonth, hleap, fun hzero => ⟨c.hour, hhour, c.minute, hminute, ?_⟩⟩
    subst hzero
    have hsame : start.day = c.day := Option.some.inj hday
    rw [← not_lt, Minute.lt_iff] at hstart
    simp only [hsame, lt_self_iff_false, true_and, false_or] at hstart
    omega

/-- **A schedule that can fire has a next run**, at every time and in every zone, unless it
is for leap days only and none of them is ahead in the window, all of which the calendar
has. -/
theorem has_next_run_iff {schedule : List Char} (hs : parseSchedule schedule = some (some s))
    (hfire : s.CanFire) (zone : Zone) (now : ℚ) :
    cronNextRun zone schedule now ≠ .absent ↔
      ∀ start, zone.fromtimestamp (now + 60) = some start →
        ¬ s.LeapDayOnly ∨ s.LeapDayAhead start.toMinute ∨ start.day.later windowDays = none := by
  cases hstart : zone.fromtimestamp (now + 60) with
  | none =>
    refine iff_of_true ?_ fun start h => absurd h (by simp)
    simp [cronNextRun, hs, hstart]
  | some start =>
    rw [ne_eq, cronNextRun_eq_absent hs hstart, exhausted_iff hfire]
    simp only [Option.some.injEq, forall_eq', ← Option.not_isSome_iff_eq_none]
    tauto

/-- A month and day together with every weekday come round again and again. -/
theorem canFire_of_date {month day : ℕ} (hmonth : month ∈ s.months.values)
    (hday : day ∈ s.doms.values) (hweekdays : Finset.range 7 ⊆ s.dows.values)
    (hle : day ≤ daysIn 2000 month) : s.CanFire := by
  intro n
  obtain ⟨hm, hm'⟩ := s.months.bounds month hmonth
  -- every four hundredth year is a leap year
  have hleap : Leap (400 * (n + 1)) := by unfold Leap; omega
  have hfits : day ≤ daysIn (400 * (n + 1)) month := by
    rwa [daysIn_of_leap hleap (by decide : Leap 2000)]
  let d : Date := ⟨400 * (n + 1), month, day, by omega, hm, hm', (s.doms.bounds day hday).1, hfits⟩
  have hweekday : d.weekday ∈ s.dows.values := hweekdays (Finset.mem_range.2 (weekday_lt d))
  refine ⟨d, ?_, hmonth, ?_⟩
  · have hyear : 400 * (n + 1) ≤ d.ordinal := d.year_le_ordinal
    omega
  · unfold Schedule.CronDay
    split_ifs
    · exact ⟨hday, hweekday⟩
    · exact .inl hday

theorem yearly_has_next_run : cronNextRun utc "@yearly".toList 0 ≠ .absent := by
  obtain ⟨s, hs, hsets⟩ := @exists_schedule "@yearly".toList
    (fun s => decide (1 ∈ s.months.values) && decide (1 ∈ s.doms.values) &&
      decide (Finset.range 7 ⊆ s.dows.values)) (by decide +kernel)
  simp only [Bool.and_eq_true, decide_eq_true_eq] at hsets
  obtain ⟨⟨hmonth, hday⟩, hweekdays⟩ := hsets
  have hfire := canFire_of_date hmonth hday hweekdays (by decide)
  refine (has_next_run_iff hs hfire utc 0).2 fun start _ => .inl fun honly => ?_
  exact absurd (honly.2.2 1 hmonth 1 hday (by decide)).1 (by decide)

/-- **The first of March 2025** is too early to look for the next leap day. -/
theorem leap_day_not_found :
    ∃ s, parseSchedule "0 0 29 2 *".toList = some (some s) ∧ s.CanFire ∧
      cronNextRun utc "0 0 29 2 *".toList 1740787140 = .absent := by
  let start : Minute :=
    ⟨⟨.of 2025 3 1 (by decide), by decide⟩, 0, 0, by decide, by decide⟩
  obtain ⟨s, hs, hsets⟩ := @exists_schedule "0 0 29 2 *".toList
    (fun s => decide (2 ∈ s.months.values) && decide (29 ∈ s.doms.values) &&
      decide (Finset.range 7 ⊆ s.dows.values) &&
      decide (nextMinute s.minutes s.hours s.dayOk start = .exhausted)) (by decide +kernel)
  simp only [Bool.and_eq_true, decide_eq_true_eq] at hsets
  obtain ⟨⟨⟨hmonth, hday⟩, hweekdays⟩, hexhausted⟩ := hsets
  refine ⟨s, hs, canFire_of_date hmonth hday hweekdays (by decide), ?_⟩
  obtain ⟨t, ht, hstart⟩ := utc_fromtimestamp start
  have hnow : (1740787140 : ℚ) + 60 = secondsOf start := by
    have hseconds : secondsOf start = 1740787200 := by decide +kernel
    rw [hseconds]
    norm_num
  refine (cronNextRun_eq_absent hs (hnow ▸ ht)).2 ?_
  rwa [hstart]

end OoAgent
