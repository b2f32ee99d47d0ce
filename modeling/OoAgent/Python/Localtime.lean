import OoAgent.Lib.Clock
import OoAgent.Python.Datetime

/-!
# Local time

`fromtimestamp` rounds to microseconds and asks `localtime` about the whole seconds;
`timestamp` of a naive time goes back: to the first of the moments at which the time is
shown, and by the offset before the change for a time that the clock was put forward past.

* `Zone.Follows` — a zone whose conversions are those of a clock; either may raise.
* `localZone` — the zone of a clock.
* `lt_secondsOf` — **a minute not before the one a minute ahead** is ahead of the clock.
-/

open Gregorian

namespace PyTime

/-- A timestamp in microseconds. -/
def microsOf (t : ℚ) : ℤ := roundHalfEven (t * 1000000)

/-- The whole second that `localtime` is asked about. -/
def secondOf (t : ℚ) : ℤ := microsOf t / 1000000

/-- The microseconds that the local clock is at. -/
def localMicros (clock : Clock) (t : ℚ) : ℤ :=
  clock.reading (secondOf t) * 1000000 + microsOf t % 1000000

/-- The zone keeps the time of a clock. -/
structure Zone.Follows (zone : Zone) (clock : Clock) : Prop where
  shows {t : ℚ} {d : DateTime} : zone.fromtimestamp t = some d →
    civil (localMicros clock t) = some d
  means {c : Minute} {epoch : ℚ} : zone.timestamp c = some epoch →
    ∃ m, clock.moment (secondsOf c) = some m ∧ epoch = m

/-- The zone of a clock. -/
def localZone (clock : Clock) : Zone where
  fromtimestamp t := civil (localMicros clock t)
  timestamp c := (clock.moment (secondsOf c)).map fun m : ℤ => (m : ℚ)

theorem localZone_follows (clock : Clock) : (localZone clock).Follows clock where
  shows h := h
  means := by
    intro c epoch h
    obtain ⟨m, hm, rfl⟩ := Option.map_eq_some_iff.1 h
    exact ⟨m, hm, rfl⟩

/-! ## The seconds of a time -/

theorem ordinal_of_fromOrdinal {n : ℤ} {day : Day} (h : fromOrdinal n = some day) :
    (day.date.ordinal : ℤ) = n := by
  have hfirst : firstDay.date.ordinal = 1 := by decide +kernel
  unfold fromOrdinal at h
  split at h
  · rw [Day.later_eq_some.1 h, Date.ordinal_iterate_next, hfirst]
    omega
  · cases h

/-- A time of the calendar lies in its own minute. -/
theorem secondsOf_of_civil {micros : ℤ} {d : DateTime} (h : civil micros = some d) :
    secondsOf d.toMinute * 1000000 ≤ micros ∧
      micros < (secondsOf d.toMinute + 60) * 1000000 := by
  unfold civil at h
  obtain ⟨day, hday, rfl⟩ := Option.map_eq_some_iff.1 h
  have hordinal := ordinal_of_fromOrdinal hday
  simp only [secondsOf, hordinal]
  omega

/-- Later minutes have more seconds before them. -/
theorem secondsOf_mono {c c' : Minute} (h : c ≤ c') : secondsOf c ≤ secondsOf c' := by
  have hhour := c.hour_lt
  have hminute := c.minute_lt
  unfold secondsOf
  rcases h.lt_or_eq with h | rfl
  · rcases Minute.lt_iff.1 h with hday | ⟨hday, htime⟩
    · rw [Day.lt_iff, Date.lt_iff_ordinal_lt] at hday
      omega
    · rw [hday]
      omega
  · exact le_rfl

theorem sub_half_le_roundHalfEven (q : ℚ) : q - 1 / 2 ≤ roundHalfEven q := by
  have hclose := abs_le.1 (abs_roundHalfEven_sub_le q)
  linarith [hclose.1]

/-- **A minute not before the one a minute ahead** is ahead of the clock, by the offset of
that minute. -/
theorem lt_secondsOf {zone : Zone} {clock : Clock} (hzone : zone.Follows clock) {now : ℚ}
    {start : DateTime} (hstart : zone.fromtimestamp (now + 60) = some start) {c : Minute}
    (hc : start.toMinute ≤ c) : now + clock.offset (secondOf (now + 60)) < secondsOf c := by
  have hminute := (secondsOf_of_civil (hzone.shows hstart)).2
  have hround := sub_half_le_roundHalfEven ((now + 60) * 1000000)
  have hmono := secondsOf_mono hc
  -- all in whole microseconds, of which the rounding costs half a one
  have hgrid : microsOf (now + 60) + clock.offset (secondOf (now + 60)) * 1000000 + 1 ≤
      (secondsOf c + 60) * 1000000 := by
    unfold localMicros Clock.reading secondOf at hminute
    unfold secondOf
    omega
  have hgrid' : (microsOf (now + 60) : ℚ) + clock.offset (secondOf (now + 60)) * 1000000 + 1 ≤
      (secondsOf c + 60) * 1000000 := by exact_mod_cast hgrid
  unfold microsOf at hgrid'
  linarith

end PyTime
