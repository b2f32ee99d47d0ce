import OoAgent.Collectors.Cron.Field
import OoAgent.Python.Datetime

/-!
# The next run of a schedule

`cron_next_run` goes from day to day, for two years of 366 days, and tries the hours and
minutes of the schedule on every day that passes the day test.

* `parseSchedule` — the five sets of a schedule, and whether its day fields start with a
  star.
* `nextMinute` — the three nested loops; `cronNextRun` — `cron_next_run`.
* `searchDays_spec` — what one stretch of days comes to.
* `next_minute_minimal` — **the search is minimal**: it finds the earliest minute of its
  window, and nothing only when there is none.
-/

namespace OoAgent

open PyText PyTime Gregorian

/-! ## Schedules -/

/-- `_KEYWORD_SPECS`. -/
def keywordSpecs : List (List Char × List Char) :=
  [("@hourly", "0 * * * *"), ("@daily", "0 0 * * *"), ("@midnight", "0 0 * * *"),
    ("@weekly", "0 0 * * 0"), ("@monthly", "0 0 1 * *"), ("@yearly", "0 0 1 1 *"),
    ("@annually", "0 0 1 1 *")].map fun (keyword, spec) => (keyword.toList, spec.toList)

/-- A five-field schedule, parsed. -/
structure Schedule where
  minutes : FieldSet 0 59
  hours : FieldSet 0 23
  doms : FieldSet 1 31
  months : FieldSet 1 12
  /-- The weekdays, counted from Sunday. -/
  dows : FieldSet 0 6
  /-- The text of the day-of-month field starts with a star. -/
  domStar : Bool
  /-- The text of the day-of-week field starts with a star. -/
  dowStar : Bool

/-- `{d % 7 for d in dows}`: both 0 and 7 mean Sunday. -/
def FieldSet.mod7 (dows : FieldSet 0 7) : FieldSet 0 6 where
  values := dows.values.image (· % 7)
  nonempty := dows.nonempty.image _
  bounds := by
    intro v hv
    obtain ⟨d, -, rfl⟩ := Finset.mem_image.1 hv
    omega

/-- The first half of `cron_next_run`: `some none` where it returns `None`, `none` where
a field raises. -/
def parseSchedule (schedule : List Char) : Option (Option Schedule) :=
  match words ((keywordSpecs.lookup schedule).getD schedule) with
  | [minuteSpec, hourSpec, domSpec, monthSpec, dowSpec] => do
    let minutes ← parseField 0 59 [] minuteSpec
    let hours ← parseField 0 23 [] hourSpec
    let doms ← parseField 1 31 [] domSpec
    let months ← parseField 1 12 monthNames monthSpec
    let dows ← parseField 0 7 dowNames dowSpec
    return do
      let minutes ← minutes
      let hours ← hours
      let doms ← doms
      let months ← months
      let dows ← dows
      return {
        minutes := minutes
        hours := hours
        doms := doms
        months := months
        dows := dows.mod7
        domStar := domSpec.head? == some '*'
        dowStar := dowSpec.head? == some '*' }
  | _ => some none

/-- A schedule that parses, with what is checked of it. -/
theorem exists_schedule {schedule : List Char} {p : Schedule → Bool}
    (h : (parseSchedule schedule).any (fun parsed => parsed.any p) = true) :
    ∃ s, parseSchedule schedule = some (some s) ∧ p s = true := by
  obtain ⟨parsed, hparsed, hany⟩ := (Option.any_eq_true _ _).1 h
  obtain ⟨s, rfl, hp⟩ := (Option.any_eq_true _ _).1 hany
  exact ⟨s, hparsed, hp⟩

/-- `(day.weekday() + 1) % 7`, where `weekday` counts from Monday. -/
def dowOf (day : Day) : Nat := ((day.date.ordinal + 6) % 7 + 1) % 7

/-- `dom_ok`. -/
def Schedule.domOk (s : Schedule) (day : Day) : Bool := decide (day.date.day ∈ s.doms.values)

/-- `dow_ok`. -/
def Schedule.dowOk (s : Schedule) (day : Day) : Bool := decide (dowOf day ∈ s.dows.values)

/-- The day test of the loop. -/
def Schedule.dayOk (s : Schedule) (day : Day) : Bool :=
  decide (day.date.month ∈ s.months.values) &&
    ((s.domStar && s.dowStar) || (s.domStar && s.dowOk day) || (s.dowStar && s.domOk day) ||
      (!s.domStar && !s.dowStar && (s.domOk day || s.dowOk day)))

/-! ## The search -/

/-- `datetime(day.year, day.month, day.day, hour, minute)`. -/
def candidate (day : Day) (hour : {v // 0 ≤ v ∧ v ≤ 23}) (minute : {v // 0 ≤ v ∧ v ≤ 59}) :
    Minute :=
  ⟨day, hour.1, minute.1, Nat.lt_succ_of_le hour.2.2, Nat.lt_succ_of_le minute.2.2⟩

/-- The loops over the hours and minutes of a day. -/
def firstOfDay (minutes : FieldSet 0 59) (hours : FieldSet 0 23) (start : Minute) (day : Day) :
    Option Minute :=
  hours.sorted.findSome? fun hour =>
    minutes.sorted.findSome? fun minute =>
      if start ≤ candidate day hour minute then some (candidate day hour minute) else none

/-- What the search comes to. -/
inductive Search where
  | found (c : Minute)
  | exhausted
  /-- The calendar ended: `OverflowError`. -/
  | overflow
deriving DecidableEq

/-- The loop over the days, that many of them from this one on. -/
def searchDays (minutes : FieldSet 0 59) (hours : FieldSet 0 23) (dayOk : Day → Bool)
    (start : Minute) : Nat → Day → Search
  | 0, _ => .exhausted
  | n + 1, day =>
    match if dayOk day then firstOfDay minutes hours start day else none with
    | some c => .found c
    | none =>
      match day.tomorrow with
      | none => .overflow
      | some next => searchDays minutes hours dayOk start n next

/-- The number of days that are tried. -/
def windowDays : Nat := 366 * 2

/-- The search from a start minute on. -/
def nextMinute (minutes : FieldSet 0 59) (hours : FieldSet 0 23) (dayOk : Day → Bool)
    (start : Minute) : Search :=
  searchDays minutes hours dayOk start windowDays start.day

/-- What `cron_next_run` comes to. -/
inductive NextRun where
  | at_ (epoch : ℚ)
  /-- It returned `None`. -/
  | absent
  | raised

/-- `cron_next_run`. -/
def cronNextRun (zone : Zone) (schedule : List Char) (now : ℚ) : NextRun :=
  match parseSchedule schedule with
  | none => .raised
  | some none => .absent
  | some (some s) =>
    match zone.fromtimestamp (now + 60) with
    | none => .raised
    | some start =>
      match nextMinute s.minutes s.hours s.dayOk start.toMinute with
      | .exhausted => .absent
      | .overflow => .raised
      | .found c =>
        match zone.timestamp c with
        | none => .raised
        | some epoch => .at_ epoch

/-! ## One day -/

/-- The search of a sorted list finds the least element it asks for. -/
theorem isLeast_of_find? {α : Type} [Preorder α] {l : List α} {p : α → Bool} {x : α}
    (hsorted : l.Pairwise (· < ·)) (h : l.find? p = some x) :
    IsLeast {y | y ∈ l ∧ p y = true} x := by
  obtain ⟨hp, before, after, rfl, hbefore⟩ := List.find?_eq_some_iff_append.1 h
  refine ⟨⟨by simp, hp⟩, fun y ⟨hy, hpy⟩ => ?_⟩
  rcases List.mem_append.1 hy with hy | hy
  · have hno := hbefore y hy
    rw [hpy] at hno
    exact absurd hno (by decide)
  · rcases List.mem_cons.1 hy with rfl | hy
    · exact le_rfl
    · exact ((List.pairwise_cons.1 (List.pairwise_append.1 hsorted).2.1).1 y hy).le

section

variable (minutes : FieldSet 0 59) (hours : FieldSet 0 23)

/-- The minutes of a day that the loops go through. -/
def timesOf (day : Day) : List Minute :=
  hours.sorted.flatMap fun hour => minutes.sorted.map fun minute => candidate day hour minute

theorem mem_timesOf {day : Day} {c : Minute} :
    c ∈ timesOf minutes hours day ↔
      c.day = day ∧ c.hour ∈ hours.values ∧ c.minute ∈ minutes.values := by
  simp only [timesOf, List.mem_flatMap, List.mem_map, FieldSet.mem_sorted]
  constructor
  · rintro ⟨hour, hhour, minute, hminute, rfl⟩
    exact ⟨rfl, hhour, hminute⟩
  · rintro ⟨rfl, hhour, hminute⟩
    exact ⟨⟨c.hour, hours.bounds _ hhour⟩, hhour, ⟨c.minute, minutes.bounds _ hminute⟩,
      hminute, rfl⟩

theorem timesOf_pairwise (day : Day) : (timesOf minutes hours day).Pairwise (· < ·) := by
  unfold timesOf
  rw [List.pairwise_flatMap]
  constructor
  · intro hour _
    rw [List.pairwise_map]
    refine minutes.sorted_pairwise.imp fun h => ?_
    exact Minute.lt_iff.2 (.inr ⟨rfl, .inr ⟨rfl, h⟩⟩)
  · refine hours.sorted_pairwise.imp fun h c hc c' hc' => ?_
    obtain ⟨minute, -, rfl⟩ := List.mem_map.1 hc
    obtain ⟨minute', -, rfl⟩ := List.mem_map.1 hc'
    exact Minute.lt_iff.2 (.inr ⟨rfl, .inl h⟩)

/-- The loops of a day are a search through its minutes. -/
theorem firstOfDay_eq (start : Minute) (day : Day) :
    firstOfDay minutes hours start day =
      (timesOf minutes hours day).find? fun c => decide (start ≤ c) := by
  unfold firstOfDay timesOf
  rw [List.find?_flatMap]
  congr
  funext hour
  induction minutes.sorted with
  | nil => rfl
  | cons minute rest ih =>
    rw [List.findSome?_cons, List.map_cons, List.find?_cons, ih]
    by_cases h : start ≤ candidate day hour minute <;> simp [h]

/-! ## A stretch of days -/

variable (dayOk : Day → Bool) (start : Minute)

/-- The minutes of a stretch of days, not before the start, that a schedule asks for. -/
def minutesWithin (n : Nat) (day : Day) : Set Minute :=
  {c | start ≤ c ∧ (∃ k < n, day.later k = some c.day) ∧ dayOk c.day = true ∧
    c.hour ∈ hours.values ∧ c.minute ∈ minutes.values}

variable {minutes hours dayOk start}

/-- What the first day of a stretch contributes. -/
theorem mem_minutesWithin_succ {n : Nat} {day : Day} {c : Minute} :
    c ∈ minutesWithin minutes hours dayOk start (n + 1) day ↔
      (dayOk day = true ∧ c ∈ timesOf minutes hours day ∧ start ≤ c) ∨
      ∃ next, day.tomorrow = some next ∧ c ∈ minutesWithin minutes hours dayOk start n next := by
  simp only [minutesWithin, Set.mem_ofPred_eq, mem_timesOf]
  constructor
  · rintro ⟨hstart, ⟨k, hk, hday⟩, hok, hhour, hminute⟩
    cases k with
    | zero =>
      obtain rfl := Option.some.inj hday
      exact .inl ⟨hok, ⟨rfl, hhour, hminute⟩, hstart⟩
    | succ k =>
      obtain ⟨next, hnext, hlater⟩ := Option.bind_eq_some_iff.1 hday
      exact .inr ⟨next, hnext, hstart, ⟨k, by omega, hlater⟩, hok, hhour, hminute⟩
  · rintro (⟨hok, ⟨rfl, hhour, hminute⟩, hstart⟩ | ⟨next, hnext, hstart, ⟨k, hk, hday⟩, hrest⟩)
    · exact ⟨hstart, ⟨0, by omega, rfl⟩, hok, hhour, hminute⟩
    · refine ⟨hstart, ⟨k + 1, by omega, ?_⟩, hrest⟩
      rw [Day.later, hnext]
      exact hday

/-- The later days of a stretch are later. -/
theorem day_lt_of_mem_minutesWithin {n : Nat} {day next : Day} {c : Minute}
    (hnext : day.tomorrow = some next) (hc : c ∈ minutesWithin minutes hours dayOk start n next) :
    day < c.day := by
  obtain ⟨-, ⟨k, -, hday⟩, -⟩ := hc
  have hdate := Day.later_eq_some.1 hday
  rw [Day.lt_iff, hdate, Date.lt_iff_ordinal_lt, Date.ordinal_iterate_next,
    Day.tomorrow_eq_some.1 hnext, Date.ordinal_next]
  omega

/-- The loops of one day, behind the day test, find its earliest minute. -/
theorem firstOfDay_spec (day : Day) :
    match if dayOk day then firstOfDay minutes hours start day else none with
    | some c => dayOk day = true ∧
        IsLeast {c' | c' ∈ timesOf minutes hours day ∧ start ≤ c'} c
    | none => ∀ c ∈ timesOf minutes hours day, dayOk day = true → ¬ start ≤ c := by
  rw [firstOfDay_eq]
  cases hok : dayOk day with
  | false => simp
  | true =>
    rw [if_pos rfl]
    cases hfind : (timesOf minutes hours day).find? fun c => decide (start ≤ c) with
    | some c =>
      refine ⟨rfl, ?_⟩
      simpa using isLeast_of_find? (timesOf_pairwise minutes hours day) hfind
    | none => simpa using hfind

/-- What a search for the earliest of some minutes comes to, by the day after its days. -/
inductive Searched (wanted : Set Minute) (dayAfter : Option Day) : Search → Prop
  | found {c : Minute} (least : IsLeast wanted c) : Searched wanted dayAfter (.found c)
  | exhausted (nothing : wanted = ∅) (goesOn : dayAfter.isSome) :
      Searched wanted dayAfter .exhausted
  | overflow (nothing : wanted = ∅) (ends : dayAfter = none) : Searched wanted dayAfter .overflow

namespace Searched

variable {wanted : Set Minute} {dayAfter : Option Day} {search : Search}

theorem found_iff (h : Searched wanted dayAfter search) {c : Minute} :
    search = .found c ↔ IsLeast wanted c := by
  cases h with
  | found least => exact ⟨fun h => Search.found.inj h ▸ least, fun h => by rw [least.unique h]⟩
  | exhausted nothing => simp [nothing, IsLeast]
  | overflow nothing => simp [nothing, IsLeast]

theorem exhausted_iff (h : Searched wanted dayAfter search) :
    search = .exhausted ↔ wanted = ∅ ∧ dayAfter.isSome := by
  cases h with
  | found least => simp [Set.nonempty_iff_ne_empty.1 ⟨_, least.1⟩]
  | exhausted nothing goesOn => simp [nothing, goesOn]
  | overflow nothing ends => simp [ends]

theorem overflow_iff (h : Searched wanted dayAfter search) :
    search = .overflow ↔ wanted = ∅ ∧ dayAfter = none := by
  cases h with
  | found least => simp [Set.nonempty_iff_ne_empty.1 ⟨_, least.1⟩]
  | exhausted nothing goesOn => simp [Option.isSome_iff_ne_none.1 goesOn]
  | overflow nothing ends => simp [nothing, ends]

end Searched

/-- **What a stretch of days comes to**: its earliest minute, or no minute, and then the
calendar may have ended first. -/
theorem searchDays_spec (n : Nat) (day : Day) :
    Searched (minutesWithin minutes hours dayOk start n day) (day.later n)
      (searchDays minutes hours dayOk start n day) := by
  induction n generalizing day with
  | zero =>
    refine .exhausted (Set.eq_empty_of_forall_notMem fun c hc => ?_) rfl
    obtain ⟨-, ⟨k, hk, -⟩, -⟩ := hc
    exact Nat.not_lt_zero k hk
  | succ n ih =>
    have hfirst := @firstOfDay_spec minutes hours dayOk start day
    rw [searchDays]
    cases hday : if dayOk day then firstOfDay minutes hours start day else none with
    | some c =>
      -- the rest of the stretch is later than the day
      rw [hday] at hfirst
      obtain ⟨hok, ⟨hmem, hstart⟩, hleast⟩ := hfirst
      refine .found ⟨mem_minutesWithin_succ.2 (.inl ⟨hok, hmem, hstart⟩), fun c' hc' => ?_⟩
      rcases mem_minutesWithin_succ.1 hc' with ⟨-, hmem', hstart'⟩ | ⟨next, hnext, hc'⟩
      · exact hleast ⟨hmem', hstart'⟩
      · have hlt := day_lt_of_mem_minutesWithin hnext hc'
        rw [← ((mem_timesOf minutes hours).1 hmem).1] at hlt
        exact (Minute.lt_iff.2 (.inl hlt)).le
    | none =>
      rw [hday] at hfirst
      have hskip (c : Minute) : c ∈ minutesWithin minutes hours dayOk start (n + 1) day ↔
          ∃ next, day.tomorrow = some next ∧
            c ∈ minutesWithin minutes hours dayOk start n next := by
        rw [mem_minutesWithin_succ, or_iff_right]
        rintro ⟨hok, hmem, hstart⟩
        exact hfirst c hmem hok hstart
      cases hnext : day.tomorrow with
      | none =>
        refine .overflow (Set.eq_empty_of_forall_notMem fun c hc => ?_)
          (by rw [Day.later, hnext]; rfl)
        obtain ⟨next, hsome, -⟩ := (hskip c).1 hc
        exact absurd (hnext.symm.trans hsome) (by simp)
      | some next =>
        have hset : minutesWithin minutes hours dayOk start (n + 1) day =
            minutesWithin minutes hours dayOk start n next := by
          ext c
          rw [hskip, hnext]
          simp
        have hlater : day.later (n + 1) = next.later n := by rw [Day.later, hnext]; rfl
        rw [hset, hlater]
        exact ih next

/-! ## The window -/

variable (minutes hours dayOk start)

/-- The minutes of the window: the days that are tried begin with the day of the start. -/
def window : Set Minute := minutesWithin minutes hours dayOk start windowDays start.day

/-- What the whole search comes to. -/
theorem nextMinute_spec :
    Searched (window minutes hours dayOk start) (start.day.later windowDays)
      (nextMinute minutes hours dayOk start) := searchDays_spec windowDays start.day

/-- The search finds the earliest minute of the window. -/
theorem nextMinute_eq_found {c : Minute} :
    nextMinute minutes hours dayOk start = .found c ↔
      IsLeast (window minutes hours dayOk start) c :=
  (nextMinute_spec minutes hours dayOk start).found_iff

/-- It gives up when the window has no minute and does not reach the end of the calendar. -/
theorem nextMinute_eq_exhausted :
    nextMinute minutes hours dayOk start = .exhausted ↔
      window minutes hours dayOk start = ∅ ∧ (start.day.later windowDays).isSome :=
  (nextMinute_spec minutes hours dayOk start).exhausted_iff

/-- It raises when the calendar ends first. -/
theorem nextMinute_eq_overflow :
    nextMinute minutes hours dayOk start = .overflow ↔
      window minutes hours dayOk start = ∅ ∧ start.day.later windowDays = none :=
  (nextMinute_spec minutes hours dayOk start).overflow_iff

/-- A minute in the window is found, or an earlier one. -/
theorem exists_found_of_mem_window {c : Minute} (h : c ∈ window minutes hours dayOk start) :
    ∃ c', nextMinute minutes hours dayOk start = .found c' ∧ c' ≤ c := by
  have hspec := nextMinute_spec minutes hours dayOk start
  generalize nextMinute minutes hours dayOk start = search at hspec ⊢
  cases hspec with
  | found least => exact ⟨_, rfl, least.2 h⟩
  | exhausted nothing =>
    rw [nothing] at h
    exact absurd h (Set.notMem_empty c)
  | overflow nothing =>
    rw [nothing] at h
    exact absurd h (Set.notMem_empty c)

/-- **The search is minimal**: it finds the earliest minute of its window; it finds nothing
exactly when there is none, and returns then unless the calendar ends first. -/
theorem next_minute_minimal :
    (∀ c, nextMinute minutes hours dayOk start = .found c ↔
      IsLeast (window minutes hours dayOk start) c) ∧
    (nextMinute minutes hours dayOk start = .exhausted ↔
      window minutes hours dayOk start = ∅ ∧ (start.day.later windowDays).isSome) ∧
    (nextMinute minutes hours dayOk start = .overflow ↔
      window minutes hours dayOk start = ∅ ∧ start.day.later windowDays = none) :=
  ⟨fun _ => nextMinute_eq_found minutes hours dayOk start,
    nextMinute_eq_exhausted minutes hours dayOk start,
    nextMinute_eq_overflow minutes hours dayOk start⟩

end

/-- The first minute of an hour, or of a day. -/
def sampleField (lo hi : Nat) (h : lo ≤ hi) : FieldSet lo hi where
  values := {lo}
  nonempty := Finset.singleton_nonempty lo
  bounds := by
    intro v hv
    rw [Finset.mem_singleton.1 hv]
    exact ⟨le_rfl, h⟩

/-- **On the last day of the calendar** a search without a result does not return. -/
theorem search_past_calendar :
    ¬ ∀ minutes hours dayOk start,
      (∀ c, nextMinute minutes hours dayOk start = .found c ↔
        IsLeast (window minutes hours dayOk start) c) ∧
      (nextMinute minutes hours dayOk start = .exhausted ↔
        window minutes hours dayOk start = ∅) := by
  intro h
  have hiff := (h (sampleField 0 59 (by decide)) (sampleField 0 23 (by decide)) (fun _ => false)
    ⟨lastDay, 0, 0, by decide, by decide⟩).2
  have hempty : window (sampleField 0 59 (by decide)) (sampleField 0 23 (by decide))
      (fun _ => false) ⟨lastDay, 0, 0, by decide, by decide⟩ = ∅ :=
    Set.eq_empty_of_forall_notMem fun _ hc => Bool.false_ne_true hc.2.2.1
  exact absurd (hiff.2 hempty) (by decide +kernel)

end OoAgent
