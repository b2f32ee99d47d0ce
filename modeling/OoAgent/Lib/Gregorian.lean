import Mathlib

/-!
# The Gregorian calendar

Dates of the proleptic Gregorian calendar from the first of January of year 1 on, without
an end.

* `Date`, `Date.next` — the calendar date and the one after it.
* `Date.ordinal` — days counted from year 1; `ordinal_next`, `lt_iff_ordinal_lt` — the
  count follows the calendar, so that dates and days are the same thing.
* `exists_anniversary` — **every month and day but the leap day** comes round within 366
  days of any date; `exists_weekday` — every weekday does in every month.
* `exists_date_on` — every month and day falls on every weekday in some year.
-/

namespace Gregorian

/-! ## Years and months -/

/-- A leap year. -/
def Leap (year : ℕ) : Prop := year % 4 = 0 ∧ (year % 100 ≠ 0 ∨ year % 400 = 0)

instance (year : ℕ) : Decidable (Leap year) := inferInstanceAs (Decidable (_ ∧ _))

/-- The number of days of a month. -/
def daysIn (year month : ℕ) : ℕ :=
  if month = 2 then (if Leap year then 29 else 28)
  else if month = 4 ∨ month = 6 ∨ month = 9 ∨ month = 11 then 30
  else 31

/-- The number of days before the first of a month, counted in its year. -/
def daysBeforeMonth (year month : ℕ) : ℕ := ∑ m ∈ Finset.Ico 1 month, daysIn year m

/-- The number of days before the first of January of a year. -/
def daysBeforeYear (year : ℕ) : ℕ :=
  365 * (year - 1) + (year - 1) / 4 - (year - 1) / 100 + (year - 1) / 400

theorem daysIn_le (year month : ℕ) : daysIn year month ≤ 31 := by
  unfold daysIn
  split_ifs <;> omega

theorem twentyEight_le_daysIn (year month : ℕ) : 28 ≤ daysIn year month := by
  unfold daysIn
  split_ifs <;> omega

theorem daysIn_of_ne {month : ℕ} (h : month ≠ 2) (year year' : ℕ) :
    daysIn year month = daysIn year' month := by
  unfold daysIn
  rw [if_neg h, if_neg h]

theorem daysIn_of_leap {year year' : ℕ} (h : Leap year) (h' : Leap year') (month : ℕ) :
    daysIn year month = daysIn year' month := by
  unfold daysIn
  rw [if_pos h, if_pos h']

/-- No month is longer than in a leap year. -/
theorem daysIn_le_leap (year month : ℕ) : daysIn year month ≤ daysIn 2000 month := by
  have hleap : Leap 2000 := by decide
  unfold daysIn
  split_ifs <;> omega

theorem daysBeforeMonth_succ {year month : ℕ} (h : 1 ≤ month) :
    daysBeforeMonth year (month + 1) = daysBeforeMonth year month + daysIn year month :=
  Finset.sum_Ico_succ_top h _

theorem daysBeforeMonth_mono (year : ℕ) : Monotone (daysBeforeMonth year) := fun _ _ h =>
  Finset.sum_le_sum_of_subset (Finset.Ico_subset_Ico_right h)

/-- The leap day moves the months after February by one day. -/
theorem daysBeforeMonth_eq {month : ℕ} (hpos : 1 ≤ month) (hle : month ≤ 13) (year : ℕ) :
    daysBeforeMonth year month =
      daysBeforeMonth 1 month + if Leap year ∧ 2 < month then 1 else 0 := by
  have hone : ¬ Leap 1 := by decide
  by_cases hleap : Leap year <;> interval_cases month <;>
    simp [daysBeforeMonth, Finset.sum_Ico_succ_top, daysIn, hleap, hone]

/-- The number of days of a year. -/
theorem daysBeforeMonth_thirteen (year : ℕ) :
    daysBeforeMonth year 13 = if Leap year then 366 else 365 := by
  have hyear : daysBeforeMonth 1 13 = 365 := by decide
  rw [daysBeforeMonth_eq (by omega) le_rfl, hyear]
  by_cases hleap : Leap year <;> simp [hleap]

/-- A leap year in terms of the divisions that count the leap days. -/
theorem leap_iff (year : ℕ) : Leap year ↔ 4 ∣ year ∧ (100 ∣ year → 400 ∣ year) := by
  simp only [Leap, Nat.dvd_iff_mod_eq_zero, ne_eq, ← imp_iff_not_or]

theorem daysBeforeYear_succ {year : ℕ} (h : 1 ≤ year) :
    daysBeforeYear (year + 1) = daysBeforeYear year + daysBeforeMonth year 13 := by
  obtain ⟨n, rfl⟩ : ∃ n, year = n + 1 := ⟨year - 1, by omega⟩
  have hcenturies : n / 100 ≤ n / 4 := Nat.div_le_div_left (by decide) (by decide)
  have h100 : 100 ∣ n + 1 → 4 ∣ n + 1 := fun h => Dvd.dvd.trans (by decide) h
  have h400 : 400 ∣ n + 1 → 100 ∣ n + 1 := fun h => Dvd.dvd.trans (by decide) h
  rw [daysBeforeMonth_thirteen]
  simp only [daysBeforeYear, Nat.add_sub_cancel, Nat.succ_div, leap_iff]
  by_cases h4 : 4 ∣ n + 1
  · by_cases hcentury : 100 ∣ n + 1
    · by_cases hquad : 400 ∣ n + 1
      · simp only [h4, hcentury, hquad, if_true, imp_self, and_self]
        omega
      · simp only [h4, hcentury, hquad, if_true, if_false, imp_false, not_true_eq_false, and_false]
        omega
    · have hquad : ¬ 400 ∣ n + 1 := fun h => hcentury (h400 h)
      simp only [h4, hcentury, hquad, if_true, if_false, imp_self, and_self]
      omega
  · have hcentury : ¬ 100 ∣ n + 1 := fun h => h4 (h100 h)
    have hquad : ¬ 400 ∣ n + 1 := fun h => hcentury (h400 h)
    simp only [h4, hcentury, hquad, if_false, imp_self, and_true]
    omega

theorem daysBeforeYear_mono {year year' : ℕ} (h : 1 ≤ year) (hle : year ≤ year') :
    daysBeforeYear year ≤ daysBeforeYear year' := by
  induction year', hle using Nat.le_induction with
  | base => exact le_rfl
  | succ year' hle ih =>
    rw [daysBeforeYear_succ (h.trans hle)]
    exact ih.trans (Nat.le_add_right _ _)

/-! ## Dates -/

/-- A date of the calendar. -/
@[ext] structure Date where
  year : ℕ
  month : ℕ
  day : ℕ
  year_pos : 1 ≤ year
  month_pos : 1 ≤ month
  month_le : month ≤ 12
  day_pos : 1 ≤ day
  day_le : day ≤ daysIn year month
deriving DecidableEq

namespace Date

/-- The date of these numbers. -/
def of (year month day : ℕ)
    (h : 1 ≤ year ∧ (1 ≤ month ∧ month ≤ 12) ∧ 1 ≤ day ∧ day ≤ daysIn year month) : Date :=
  ⟨year, month, day, h.1, h.2.1.1, h.2.1.2, h.2.2.1, h.2.2.2⟩

/-- Dates are compared by year, then by month, then by day. -/
def key (d : Date) : ℕ ×ₗ ℕ ×ₗ ℕ := toLex (d.year, toLex (d.month, d.day))

theorem key_injective : Function.Injective key := by
  intro d e h
  simp only [key, toLex_inj, Prod.mk.injEq] at h
  exact Date.ext h.1 h.2.1 h.2.2

instance : LinearOrder Date := LinearOrder.lift' key key_injective

theorem lt_iff {d e : Date} :
    d < e ↔ d.year < e.year ∨ d.year = e.year ∧
      (d.month < e.month ∨ d.month = e.month ∧ d.day < e.day) := by
  change d.key < e.key ↔ _
  simp [key, Prod.Lex.toLex_lt_toLex]

/-- The days from the last of December of year 0 to a date. -/
def ordinal (d : Date) : ℕ :=
  daysBeforeYear d.year + daysBeforeMonth d.year d.month + d.day

/-- The date after a date. -/
def next (d : Date) : Date :=
  if hday : d.day < daysIn d.year d.month then
    { d with day := d.day + 1, day_pos := Nat.le_add_left 1 _, day_le := hday }
  else if hmonth : d.month < 12 then
    { d with
      month := d.month + 1
      day := 1
      month_pos := Nat.le_add_left 1 _
      month_le := hmonth
      day_pos := le_rfl
      day_le := (by decide : 1 ≤ 28).trans (twentyEight_le_daysIn _ _) }
  else
    { year := d.year + 1
      month := 1
      day := 1
      year_pos := Nat.le_add_left 1 _
      month_pos := le_rfl
      month_le := by decide
      day_pos := le_rfl
      day_le := (by decide : 1 ≤ 28).trans (twentyEight_le_daysIn _ _) }

/-- The count of days goes up by one from a date to the next. -/
@[simp] theorem ordinal_next (d : Date) : d.next.ordinal = d.ordinal + 1 := by
  have hday := d.day_le
  have hmonth := d.month_le
  unfold next
  split_ifs with hless hbefore
  · simp only [ordinal]
    omega
  · simp only [ordinal, daysBeforeMonth_succ d.month_pos]
    omega
  · have hlast : d.month = 12 := by omega
    have hone : daysBeforeMonth (d.year + 1) 1 = 0 := by simp [daysBeforeMonth]
    have hyear : daysBeforeMonth d.year 13 = daysBeforeMonth d.year 12 + daysIn d.year 12 :=
      daysBeforeMonth_succ (by omega)
    rw [hlast] at hless hday
    simp only [ordinal, daysBeforeYear_succ d.year_pos, hone, hyear, hlast]
    omega

/-- A date lies within its year. -/
theorem ordinal_le (d : Date) : d.ordinal ≤ daysBeforeYear d.year + daysBeforeMonth d.year 13 := by
  have hmonth : daysBeforeMonth d.year (d.month + 1) ≤ daysBeforeMonth d.year 13 :=
    daysBeforeMonth_mono d.year (Nat.succ_le_succ d.month_le)
  rw [daysBeforeMonth_succ d.month_pos] at hmonth
  have hday := d.day_le
  unfold ordinal
  omega

theorem daysBeforeYear_lt_ordinal (d : Date) : daysBeforeYear d.year < d.ordinal := by
  have hday := d.day_pos
  unfold ordinal
  omega

theorem year_le_ordinal (d : Date) : d.year ≤ d.ordinal := by
  have hlt := d.daysBeforeYear_lt_ordinal
  have hcenturies : (d.year - 1) / 100 ≤ (d.year - 1) / 4 :=
    Nat.div_le_div_left (by decide) (by decide)
  unfold daysBeforeYear at hlt
  omega

theorem ordinal_lt_of_lt {d e : Date} (h : d < e) : d.ordinal < e.ordinal := by
  rcases lt_iff.1 h with hyear | ⟨hyear, hmonth | ⟨hmonth, hday⟩⟩
  · have hnext := daysBeforeYear_mono (Nat.le_add_left 1 d.year) hyear
    rw [daysBeforeYear_succ d.year_pos] at hnext
    exact (d.ordinal_le.trans hnext).trans_lt e.daysBeforeYear_lt_ordinal
  · have hnext := daysBeforeMonth_mono d.year hmonth
    rw [Nat.succ_eq_add_one, daysBeforeMonth_succ d.month_pos] at hnext
    have hle := d.day_le
    have hpos := e.day_pos
    unfold ordinal
    rw [← hyear]
    omega
  · unfold ordinal
    rw [← hyear, ← hmonth]
    omega

/-- **The count of days follows the calendar.** -/
theorem strictMono_ordinal : StrictMono ordinal := fun _ _ => ordinal_lt_of_lt

theorem lt_iff_ordinal_lt {d e : Date} : d < e ↔ d.ordinal < e.ordinal :=
  strictMono_ordinal.lt_iff_lt.symm

theorem ordinal_injective : Function.Injective ordinal := strictMono_ordinal.injective

/-! ## Days from one date to another -/

@[simp] theorem ordinal_iterate_next (d : Date) (n : ℕ) :
    (next^[n] d).ordinal = d.ordinal + n := by
  induction n with
  | zero => rfl
  | succ n ih => rw [Function.iterate_succ_apply', ordinal_next, ih, Nat.add_assoc]

/-- **Every later date is reached** by going from day to day. -/
theorem iterate_next_eq {d e : Date} (h : d.ordinal ≤ e.ordinal) :
    next^[e.ordinal - d.ordinal] d = e := by
  apply ordinal_injective
  rw [ordinal_iterate_next]
  omega

theorem year_le_iterate_next (d : Date) (n : ℕ) : d.year ≤ (next^[n] d).year := by
  have hle : d ≤ next^[n] d := by
    rw [← not_lt, lt_iff_ordinal_lt, ordinal_iterate_next]
    omega
  by_contra hlt
  exact absurd hle (not_le.2 (lt_iff.2 (.inl (not_le.1 hlt))))

/-- The days of a month follow one another. -/
theorem iterate_next_of_le (d : Date) {n : ℕ} (h : d.day + n ≤ daysIn d.year d.month) :
    (next^[n] d).month = d.month ∧ (next^[n] d).day = d.day + n := by
  have hsame : next^[n] d = { d with
      day := d.day + n
      day_pos := d.day_pos.trans (Nat.le_add_right _ _)
      day_le := h } := by
    apply ordinal_injective
    rw [ordinal_iterate_next]
    simp only [ordinal]
    omega
  rw [hsame]
  exact ⟨rfl, rfl⟩

/-! ## What comes round -/

/-- The same month and day of two years that follow each other are a year apart, the leap
day excepted. -/
theorem ordinal_succ_year_le {year month day : ℕ} (hyear : 1 ≤ year) (hmonth : 1 ≤ month)
    (hle : month ≤ 12) :
    daysBeforeYear (year + 1) + daysBeforeMonth (year + 1) month + day ≤
      daysBeforeYear year + daysBeforeMonth year month + day + 366 := by
  have hconsecutive : Leap year → ¬ Leap (year + 1) := by
    unfold Leap
    omega
  rw [daysBeforeYear_succ hyear, daysBeforeMonth_thirteen,
    daysBeforeMonth_eq hmonth (by omega) (year + 1), daysBeforeMonth_eq hmonth (by omega) year]
  split_ifs <;> first | omega | (exfalso; simp_all)

/-- **Every month and day but the leap day** comes round within 366 days of a date. -/
theorem exists_anniversary (d : Date) {month day : ℕ} (hmonth : 1 ≤ month) (hle : month ≤ 12)
    (hday : 1 ≤ day) (hday_le : ∀ year, day ≤ daysIn year month) :
    ∃ n, 1 ≤ n ∧ n ≤ 366 ∧ (next^[n] d).month = month ∧ (next^[n] d).day = day := by
  -- the one in the year of the date, and the one in the year after
  let this_ : Date := ⟨d.year, month, day, d.year_pos, hmonth, hle, hday, hday_le _⟩
  let after : Date :=
    ⟨d.year + 1, month, day, Nat.le_add_left 1 _, hmonth, hle, hday, hday_le _⟩
  have hstart := d.daysBeforeYear_lt_ordinal
  by_cases hlater : d.ordinal < this_.ordinal
  · refine ⟨this_.ordinal - d.ordinal, by omega, ?_, ?_⟩
    · have hend := this_.ordinal_le
      have hyear : daysBeforeMonth d.year 13 ≤ 366 := by
        rw [daysBeforeMonth_thirteen]
        split_ifs <;> omega
      change this_.ordinal ≤ daysBeforeYear d.year + daysBeforeMonth d.year 13 at hend
      omega
    · rw [iterate_next_eq hlater.le]
      exact ⟨rfl, rfl⟩
  · have hyear : d.ordinal < after.ordinal :=
      lt_iff_ordinal_lt.1 (lt_iff.2 (.inl (Nat.lt_succ_self _)))
    have hgap : after.ordinal ≤ this_.ordinal + 366 :=
      ordinal_succ_year_le d.year_pos hmonth hle
    refine ⟨after.ordinal - d.ordinal, by omega, by omega, ?_⟩
    rw [iterate_next_eq hyear.le]
    exact ⟨rfl, rfl⟩

/-- The day of the week, counted from Sunday. -/
def weekday (d : Date) : ℕ := d.ordinal % 7

theorem weekday_iterate_next (d : Date) (n : ℕ) :
    (next^[n] d).weekday = (d.weekday + n) % 7 := by
  unfold weekday
  rw [ordinal_iterate_next]
  omega

/-- **Every weekday comes round in every month** within 372 days of a date. -/
theorem exists_weekday (d : Date) {month weekday : ℕ} (hmonth : 1 ≤ month) (hle : month ≤ 12)
    (hweekday : weekday < 7) :
    ∃ n, 1 ≤ n ∧ n ≤ 372 ∧ (next^[n] d).month = month ∧ (next^[n] d).weekday = weekday := by
  obtain ⟨n, hpos, hn, hm, hday⟩ := exists_anniversary d hmonth hle le_rfl fun year =>
    (by decide : 1 ≤ 28).trans (twentyEight_le_daysIn year month)
  -- the first week of the month has it
  let offset := (weekday + 7 - (next^[n] d).weekday) % 7
  have hfirst : (next^[n] d).weekday < 7 := Nat.mod_lt _ (by decide)
  have hoffset : offset < 7 := Nat.mod_lt _ (by decide)
  have hweek : (next^[n] d).day + offset ≤ daysIn (next^[n] d).year (next^[n] d).month := by
    have hmin := twentyEight_le_daysIn (next^[n] d).year (next^[n] d).month
    omega
  refine ⟨offset + n, by omega, by omega, ?_⟩
  rw [Function.iterate_add_apply, (iterate_next_of_le _ hweek).1, weekday_iterate_next]
  exact ⟨hm, by omega⟩

/-- **Every month and day falls on every weekday** in some year. -/
theorem exists_date_on {month day weekday : ℕ} (hmonth : 1 ≤ month) (hle : month ≤ 12)
    (hday : 1 ≤ day) (hday_le : day ≤ daysIn 2000 month) (hweekday : weekday < 7) :
    ∃ d : Date, d.year < 2028 ∧ d.month = month ∧ d.day = day ∧ d.weekday = weekday := by
  have hyears : ∀ k < 7, daysBeforeYear (2000 + 4 * k) = daysBeforeYear 2000 + 1461 * k := by
    decide
  let start := daysBeforeYear 2000 + daysBeforeMonth 2000 month + day
  -- from one leap year to the next the weekday moves by five
  obtain ⟨k, hk, hturn⟩ : ∃ k < 7, (start + 1461 * k) % 7 = weekday :=
    ⟨3 * (weekday + 7 - start % 7) % 7, by omega, by omega⟩
  have hleap : Leap (2000 + 4 * k) := by
    unfold Leap
    omega
  have hleap' : Leap 2000 := by decide
  have hmonths : daysBeforeMonth (2000 + 4 * k) month = daysBeforeMonth 2000 month := by
    rw [daysBeforeMonth_eq hmonth (by omega), daysBeforeMonth_eq hmonth (by omega) 2000]
    simp only [hleap, hleap']
  have hyear : 2000 + 4 * k < 2028 := by omega
  refine ⟨⟨2000 + 4 * k, month, day, by omega, hmonth, hle, hday, ?_⟩, hyear, rfl, rfl, ?_⟩
  · rwa [daysIn_of_leap hleap hleap']
  · simp only [Date.weekday, ordinal, hyears k hk, hmonths]
    omega

end Date

end Gregorian
