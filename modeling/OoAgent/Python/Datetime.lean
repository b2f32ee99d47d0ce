import OoAgent.Lib.Gregorian

/-!
# Python's naive dates and times

`datetime.date` ends with the year 9999; going on from there raises `OverflowError`.

* `Day`, `Day.tomorrow` — `date` and `day + timedelta(days=1)`; `Day.later` — going on
  from there, and `Day.later_eq_some` — the day one comes to.
* `Minute` — a naive `datetime` at a full minute, compared as Python compares them.
* `Zone` — the local time zone: what `fromtimestamp` and `timestamp` make of it; `utc` is
  one.
-/

open Gregorian

namespace PyTime

/-- `datetime.MAXYEAR`. -/
def maxYear : ℕ := 9999

/-! ## Dates -/

/-- A `date`. -/
@[ext] structure Day where
  date : Date
  year_le : date.year ≤ maxYear
deriving DecidableEq

namespace Day

theorem date_injective : Function.Injective date := fun _ _ h => Day.ext h

instance : LinearOrder Day := LinearOrder.lift' date date_injective

theorem lt_iff {d e : Day} : d < e ↔ d.date < e.date := Iff.rfl

/-- `day + timedelta(days=1)`; `none` when it raises `OverflowError`. -/
def tomorrow (d : Day) : Option Day :=
  if h : d.date.next.year ≤ maxYear then some ⟨d.date.next, h⟩ else none

/-- The day that many days later; `none` past the end of the calendar. -/
def later (d : Day) : ℕ → Option Day
  | 0 => some d
  | n + 1 => d.tomorrow.bind fun e => e.later n

@[simp] theorem later_zero (d : Day) : d.later 0 = some d := rfl

theorem tomorrow_eq_some {d e : Day} : d.tomorrow = some e ↔ e.date = d.date.next := by
  unfold tomorrow
  constructor
  · intro h
    split at h
    · exact congrArg date (Option.some.inj h).symm
    · exact absurd h (by simp)
  · intro h
    rw [dif_pos (h ▸ e.year_le)]
    exact congrArg some (Day.ext h.symm)

/-- **Days are counted by the calendar.** -/
theorem later_eq_some {d e : Day} {n : ℕ} : d.later n = some e ↔ e.date = Date.next^[n] d.date := by
  induction n generalizing d with
  | zero =>
    rw [later_zero, Option.some_inj, Function.iterate_zero_apply, eq_comm]
    exact ⟨congrArg date, fun h => Day.ext h⟩
  | succ n ih =>
    rw [later, Option.bind_eq_some_iff, Function.iterate_succ_apply]
    constructor
    · rintro ⟨d', hd', he⟩
      rw [ih.1 he, tomorrow_eq_some.1 hd']
    · intro h
      have hyear : d.date.next.year ≤ maxYear :=
        (h ▸ Date.year_le_iterate_next d.date.next n).trans e.year_le
      exact ⟨⟨d.date.next, hyear⟩, tomorrow_eq_some.2 rfl, ih.2 h⟩

/-- The calendar has every day before one it has. -/
theorem exists_later_of_le {d e : Day} {k n : ℕ} (h : d.later n = some e) (hk : k ≤ n) :
    ∃ e', d.later k = some e' := by
  have hyear := Date.year_le_iterate_next (Date.next^[k] d.date) (n - k)
  rw [← Function.iterate_add_apply, Nat.sub_add_cancel hk, ← later_eq_some.1 h] at hyear
  exact ⟨⟨Date.next^[k] d.date, hyear.trans e.year_le⟩, later_eq_some.2 rfl⟩

end Day

/-! ## Times -/

/-- A naive `datetime` without seconds. -/
@[ext] structure Minute where
  day : Day
  hour : ℕ
  minute : ℕ
  hour_lt : hour < 24
  minute_lt : minute < 60
deriving DecidableEq

namespace Minute

/-- Times are compared by day, then by hour, then by minute. -/
def key (c : Minute) : Day ×ₗ ℕ ×ₗ ℕ := toLex (c.day, toLex (c.hour, c.minute))

theorem key_injective : Function.Injective key := by
  intro c c' h
  simp only [key, toLex_inj, Prod.mk.injEq] at h
  exact Minute.ext h.1 h.2.1 h.2.2

instance : LinearOrder Minute := LinearOrder.lift' key key_injective

theorem lt_iff {c c' : Minute} :
    c < c' ↔ c.day < c'.day ∨ c.day = c'.day ∧
      (c.hour < c'.hour ∨ c.hour = c'.hour ∧ c.minute < c'.minute) := by
  change c.key < c'.key ↔ _
  simp [key, Prod.Lex.toLex_lt_toLex]

theorem day_le_of_le {c c' : Minute} (h : c ≤ c') : c.day ≤ c'.day := by
  by_contra hlt
  exact absurd h (not_le.2 (lt_iff.2 (.inl (not_le.1 hlt))))

end Minute

/-- A naive `datetime`. -/
structure DateTime extends Minute where
  second : ℕ
  microsecond : ℕ
  second_lt : second < 60
  microsecond_lt : microsecond < 1000000

/-! ## Time zones -/

/-- The local time zone. -/
structure Zone where
  /-- `datetime.fromtimestamp(t)`; `none` when it raises. -/
  fromtimestamp : ℚ → Option DateTime
  /-- `candidate.timestamp()`; `none` when it raises. -/
  timestamp : Minute → Option ℚ

/-- The nearest whole number, an even one where two are as near. -/
def roundHalfEven (q : ℚ) : ℤ :=
  if q - ⌊q⌋ < 1 / 2 ∨ (q - ⌊q⌋ = 1 / 2 ∧ ⌊q⌋ % 2 = 0) then ⌊q⌋ else ⌊q⌋ + 1

/-- The first of January of year 1. -/
def firstDay : Day := ⟨.of 1 1 1 (by decide), by decide⟩

/-- The last day there is. -/
def lastDay : Day := ⟨.of 9999 12 31 (by decide), by decide⟩

/-- `date.fromordinal(n)`; `none` when it raises. -/
def fromOrdinal (n : ℤ) : Option Day := if 1 ≤ n then firstDay.later (n.toNat - 1) else none

/-- The ordinal of the first of January 1970. -/
def epochOrdinal : ℤ := 719163

/-- The seconds from 1970 to a minute, both on one clock. -/
def secondsOf (c : Minute) : ℤ :=
  (c.day.date.ordinal - epochOrdinal) * 86400 + c.hour * 3600 + c.minute * 60

/-- The time that many microseconds after 1970, on one clock; `none` outside the
calendar. -/
def civil (microseconds : ℤ) : Option DateTime :=
  let seconds := microseconds / 1000000
  let time := (seconds % 86400).toNat
  have htime : time < 86400 := by
    have hmod := Int.emod_lt_of_pos seconds (by decide : (0 : ℤ) < 86400)
    omega
  (fromOrdinal (seconds / 86400 + epochOrdinal)).map fun day =>
    { day := day
      hour := time / 3600
      minute := time % 3600 / 60
      second := time % 60
      microsecond := (microseconds % 1000000).toNat
      hour_lt := by omega
      minute_lt := by omega
      second_lt := by omega
      microsecond_lt := by
        have hmod := Int.emod_lt_of_pos microseconds (by decide : (0 : ℤ) < 1000000)
        omega }

/-- Universal time. -/
def utc : Zone where
  fromtimestamp t := civil (roundHalfEven (t * 1000000))
  timestamp c := some (secondsOf c)

/-- Rounding moves a number by a half at most. -/
theorem abs_roundHalfEven_sub_le (q : ℚ) : |(roundHalfEven q : ℚ) - q| ≤ 1 / 2 := by
  have hfloor := Int.floor_le q
  have hlt := Int.lt_floor_add_one q
  rw [abs_le]
  unfold roundHalfEven
  split
  · rename_i h
    rcases h with h | ⟨h, -⟩
    · constructor <;> linarith
    · constructor <;> linarith
  · rename_i h
    push Not at h
    push_cast
    constructor <;> linarith [h.1]

theorem roundHalfEven_intCast (n : ℤ) : roundHalfEven n = n := by
  unfold roundHalfEven
  rw [Int.floor_intCast, sub_self, if_pos (.inl (by norm_num))]

theorem fromOrdinal_ordinal (d : Day) : fromOrdinal d.date.ordinal = some d := by
  have hpos := d.date.daysBeforeYear_lt_ordinal
  have hfirst : firstDay.date.ordinal = 1 := by decide +kernel
  unfold fromOrdinal
  rw [if_pos (by omega), Int.toNat_natCast, Day.later_eq_some, ← hfirst,
    Date.iterate_next_eq (by omega)]

/-- **The calendar shows every minute** at its own number of seconds. -/
theorem civil_secondsOf (c : Minute) :
    ∃ t, civil (secondsOf c * 1000000) = some t ∧ t.toMinute = c := by
  have hhour := c.hour_lt
  have hminute := c.minute_lt
  have hseconds : secondsOf c * 1000000 / 1000000 = secondsOf c :=
    Int.mul_ediv_cancel _ (by decide)
  have hday : secondsOf c / 86400 + epochOrdinal = c.day.date.ordinal := by
    unfold secondsOf
    omega
  have htime : (secondsOf c % 86400).toNat = c.hour * 3600 + c.minute * 60 := by
    unfold secondsOf
    omega
  unfold civil
  simp only [hseconds, hday, htime, fromOrdinal_ordinal, Option.map_some,
    Option.some.injEq, exists_eq_left']
  refine Minute.ext rfl ?_ ?_
  · change (c.hour * 3600 + c.minute * 60) / 3600 = c.hour
    omega
  · change (c.hour * 3600 + c.minute * 60) % 3600 / 60 = c.minute
    omega

/-- Whole seconds are not rounded. -/
theorem roundHalfEven_seconds (n : ℤ) : roundHalfEven ((n : ℚ) * 1000000) = n * 1000000 := by
  rw [← roundHalfEven_intCast (n * 1000000)]
  push_cast
  rfl

/-- **Universal time shows every minute** at its own moment. -/
theorem utc_fromtimestamp (c : Minute) :
    ∃ t, utc.fromtimestamp (secondsOf c) = some t ∧ t.toMinute = c := by
  change ∃ t, civil (roundHalfEven ((secondsOf c : ℚ) * 1000000)) = some t ∧ t.toMinute = c
  rw [roundHalfEven_seconds]
  exact civil_secondsOf c

end PyTime
