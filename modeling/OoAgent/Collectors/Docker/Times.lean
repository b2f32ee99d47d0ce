import OoAgent.Collectors.Nvidia.Gddr6
import OoAgent.Lib.Fields
import OoAgent.Python.Datetime

/-!
# Timestamps of Docker

`parse_docker_time` (`oo_agent/collectors/docker_state.py`) takes RFC 3339 timestamps with any
number of fractional digits, brings them into the form that `datetime.fromisoformat` reads, and
cuts the fraction to microseconds.

* `matchTime` — `_TIME_RE`; `fromIso` — `datetime.fromisoformat(…).timestamp()` on what has the
  form that is made of a match.
* `parseDockerTime` — `parse_docker_time`, in exact seconds.
* `DockerStamp` — a timestamp with its date, time, fraction and offset, printed by `text`.
* `parseDockerTime_iff` — **exactly the timestamps are read**, each as its own moment.
-/

namespace OoAgent

open PyText PyTime Gregorian Fields

/-! ## The regular expression -/

/-- `\d{4}-\d{2}-\d{2}T\d{2}:\d{2}:\d{2}`. -/
def basePieces : List Piece :=
  [.number 4, .text '-', .number 2, .text '-', .number 2, .text 'T', .number 2, .text ':',
    .number 2, .text ':', .number 2]

/-- `\d{2}:\d{2}`, and the same without the colon. -/
def zonePieces (colon : Bool) : List Piece :=
  if colon then [.number 2, .text ':', .number 2] else [.number 2, .number 2]

/-- `Z|[+-]\d{2}:?\d{2}`. -/
def isZone (tz : List Char) : Bool :=
  decide (tz = ['Z']) ||
    ((tz.head?.any fun sign => sign = '+' || sign = '-') &&
      [true, false].any fun colon =>
        (cut isDecimal (zonePieces colon) tz.tail).any fun found => found.2.isEmpty)

/-- The groups of a match. -/
structure TimeMatch where
  base : List Char
  frac : List Char
  tz : List Char

/-- `$` also stands before a newline at the very end. -/
def dropNewline (s : List Char) : List Char := if s.getLast? = some '\n' then s.dropLast else s

/-- `(?:\.(\d+))?`, and what follows. -/
def fracAt (s : List Char) : List Char × List Char :=
  if s.head? = some '.' then (s.tail.takeWhile isDecimal, s.tail.dropWhile isDecimal) else ([], s)

/-- `_TIME_RE.match(value)`; the group of a fraction that is not there is empty. -/
def matchTime (value : List Char) : Option TimeMatch :=
  (cut isDecimal basePieces (dropNewline value)).bind fun found =>
    let part := fracAt found.2
    if (found.2.head? = some '.' → part.1 ≠ []) ∧ isZone part.2 = true then
      some { base := found.1, frac := part.1, tz := part.2 }
    else none

/-! ## The moment -/

/-- `+hh:mm`, of a group `tz`. -/
def normalZone (tz : List Char) : List Char :=
  if tz = ['Z'] then "+00:00".toList
  else if ':' ∈ tz then tz
  else tz.take 3 ++ ':' :: tz.drop 3

/-- `(frac or '0')[:6].ljust(6, '0')`. -/
def microDigits (frac : List Char) : List Char :=
  let digits := (if frac = [] then ['0'] else frac).take 6
  digits ++ List.replicate (6 - digits.length) '0'

/-- The text that `fromisoformat` is given. -/
def TimeMatch.iso (m : TimeMatch) : List Char :=
  m.base ++ '.' :: (microDigits m.frac ++ normalZone m.tz)

/-- The date and time of these numbers, if there is one. -/
def minuteOf (year month day hour minute : ℕ) : Option Minute :=
  if h : ((1 ≤ year ∧ (1 ≤ month ∧ month ≤ 12) ∧ 1 ≤ day ∧ day ≤ daysIn year month) ∧
      year ≤ maxYear) ∧ hour < 24 ∧ minute < 60 then
    some ⟨⟨.of year month day h.1.1, h.1.2⟩, hour, minute, h.2.1, h.2.2⟩
  else none

/-- The seconds of a moment: a minute and a second of it on a clock that is ahead by an offset, and
microseconds. -/
def moment (c : Minute) (second : ℕ) (offset : ℤ) (micros : ℕ) : ℚ :=
  ((secondsOf c + second - offset : ℤ) : ℚ) + micros / 1000000

/-- `datetime.fromisoformat(iso).timestamp()`; `none` where it raises `ValueError`.  The minutes of
an offset may be any two digits; the offset is less than a day. -/
def fromIso (iso : List Char) : Option ℚ :=
  match scan (basePieces ++ [.text '.', .number 6]) iso with
  | some ([year, month, day, hour, minute, second, micros], sign :: zone) =>
    match scan (zonePieces true) zone with
    | some ([hours, minutes], []) =>
      if (sign = '+' ∨ sign = '-') ∧ second < 60 ∧ hours * 60 + minutes < 1440 then
        (minuteOf year month day hour minute).map fun c =>
          moment c second ((if sign = '-' then -1 else 1) * (hours * 3600 + minutes * 60)) micros
      else none
    | _ => none
  | _ => none

/-- The date of a time that never was. -/
def zeroDate : List Char := "0001-01-01".toList

/-- `parse_docker_time`. -/
def parseDockerTime (value : List Char) : Option ℚ :=
  if value = [] ∨ zeroDate <+: value then none
  else (matchTime value).bind fun m => fromIso m.iso

/-! ## Timestamps -/

/-- An offset from universal time. -/
inductive UtcOffset where
  | zulu
  | hours (negative colon : Bool) (hour minute : ℕ)

namespace UtcOffset

/-- Two digits each, and less than a day. -/
def Valid : UtcOffset → Prop
  | .zulu => True
  | .hours _ _ hour minute => hour < 100 ∧ minute < 100 ∧ hour * 60 + minute < 1440

def text : UtcOffset → List Char
  | .zulu => ['Z']
  | .hours negative colon hour minute =>
    (if negative then '-' else '+') :: print (zonePieces colon) [hour, minute]

def seconds : UtcOffset → ℤ
  | .zulu => 0
  | .hours negative _ hour minute => (if negative then -1 else 1) * (hour * 3600 + minute * 60)

end UtcOffset

/-- A timestamp.  Of the digits of its fraction the first six are plain ones. -/
structure DockerStamp where
  minute : Minute
  second : ℕ
  frac : List Char
  offset : UtcOffset
  second_lt : second < 60
  decimal : ∀ c ∈ frac, isDecimal c = true
  plain : ∀ c ∈ frac.take 6, c.isDigit = true
  valid : offset.Valid

namespace DockerStamp

/-- The numbers of date and time. -/
def numbers (stamp : DockerStamp) : List ℕ :=
  [stamp.minute.day.date.year, stamp.minute.day.date.month, stamp.minute.day.date.day,
    stamp.minute.hour, stamp.minute.minute, stamp.second]

/-- The text of a timestamp. -/
def text (stamp : DockerStamp) : List Char :=
  print basePieces stamp.numbers ++
    ((if stamp.frac = [] then [] else '.' :: stamp.frac) ++ stamp.offset.text)

/-- The moment of a timestamp, cut to microseconds. -/
def seconds (stamp : DockerStamp) : ℚ :=
  moment stamp.minute stamp.second stamp.offset.seconds (Fields.value (microDigits stamp.frac))

end DockerStamp

/-! ## Digits -/

theorem isDecimal_of_isDigit {c : Char} (h : c.isDigit = true) : isDecimal c = true := by
  rw [isDecimal, decimal_ascii h]
  rfl

theorem length_microDigits (frac : List Char) : (microDigits frac).length = 6 := by
  have hlen : ((if frac = [] then ['0'] else frac).take 6).length ≤ 6 := List.length_take_le _ _
  rw [microDigits, List.length_append, List.length_replicate]
  omega

theorem isDigit_microDigits {frac : List Char} :
    (∀ c ∈ microDigits frac, c.isDigit = true) ↔ ∀ c ∈ frac.take 6, c.isDigit = true := by
  have hzeros (n : ℕ) : ∀ c ∈ List.replicate n '0', c.isDigit = true := by
    intro c hc
    rw [List.eq_of_mem_replicate hc]
    rfl
  unfold microDigits
  rw [List.forall_mem_append, and_iff_left (hzeros _)]
  by_cases hnil : frac = []
  · subst hnil
    simp
  · rw [if_neg hnil]

/-- **The fraction is cut to microseconds.** -/
theorem value_microDigits {frac : List Char} (h : ∀ c ∈ frac, c.isDigit = true) :
    Fields.value (microDigits frac) = Fields.value frac * 1000000 / 10 ^ frac.length := by
  by_cases hnil : frac = []
  · subst hnil
    decide
  · have hshift := value_shift h 6
    have hcount : 6 - (frac.take 6).length = 6 - frac.length := by
      rw [List.length_take]
      omega
    rw [microDigits, if_neg hnil, hcount, hshift]
    norm_num

theorem minuteOf_eq_some {year month day hour minute : ℕ} {c : Minute} :
    minuteOf year month day hour minute = some c ↔
      c.day.date.year = year ∧ c.day.date.month = month ∧ c.day.date.day = day ∧
        c.hour = hour ∧ c.minute = minute := by
  constructor
  · intro h
    unfold minuteOf at h
    split at h
    · obtain rfl := Option.some.inj h
      exact ⟨rfl, rfl, rfl, rfl, rfl⟩
    · cases h
  · rintro ⟨rfl, rfl, rfl, rfl, rfl⟩
    have hvalid : ((1 ≤ c.day.date.year ∧ (1 ≤ c.day.date.month ∧ c.day.date.month ≤ 12) ∧
        1 ≤ c.day.date.day ∧ c.day.date.day ≤ daysIn c.day.date.year c.day.date.month) ∧
        c.day.date.year ≤ maxYear) ∧ c.hour < 24 ∧ c.minute < 60 :=
      ⟨⟨⟨c.day.date.year_pos, ⟨c.day.date.month_pos, c.day.date.month_le⟩, c.day.date.day_pos,
        c.day.date.day_le⟩, c.day.year_le⟩, c.hour_lt, c.minute_lt⟩
    rw [minuteOf, dif_pos hvalid]
    rfl

/-! ## Offsets -/

theorem fits_zone {colon : Bool} {hour minute : ℕ} :
    Fits (zonePieces colon) [hour, minute] ↔ hour < 100 ∧ minute < 100 := by
  cases colon <;> simp [zonePieces, Fits]

theorem width_zonePieces (colon : Bool) : width (zonePieces colon) = if colon then 5 else 4 := by
  cases colon <;> rfl

/-- The offset with a colon, of the same numbers. -/
theorem normalZone_text {negative colon : Bool} {hour minute : ℕ} :
    normalZone (UtcOffset.hours negative colon hour minute).text =
      (UtcOffset.hours negative true hour minute).text := by
  have hcolon {n : ℕ} : ':' ∉ padded 2 n := by
    intro hmem
    exact absurd (isDigit_of_mem_padded hmem) (by decide)
  have hsign : (if negative then '-' else '+') ≠ ':' := by cases negative <;> decide
  have hne : (UtcOffset.hours negative colon hour minute).text ≠ ['Z'] := by
    rw [UtcOffset.text]
    intro h
    have hhead := (List.cons.inj h).1
    cases negative <;> exact absurd hhead (by decide)
  rw [normalZone, if_neg hne]
  cases colon with
  | true =>
    rw [if_pos]
    simp [UtcOffset.text, zonePieces, print]
  | false =>
    rw [if_neg]
    · have htake : (padded 2 hour ++ (padded 2 minute ++ [])).take 2 = padded 2 hour := by
        rw [List.take_left' (length_padded 2 hour)]
      have hdrop : (padded 2 hour ++ (padded 2 minute ++ [])).drop 2 = padded 2 minute ++ [] := by
        rw [List.drop_left' (length_padded 2 hour)]
      simp only [UtcOffset.text, zonePieces, print, if_true, Bool.false_eq_true, if_false,
        List.take_succ_cons, List.drop_succ_cons, htake, hdrop, List.cons_append]
    · simp [UtcOffset.text, zonePieces, print, hcolon, hsign.symm]

theorem isZone_text {offset : UtcOffset} (h : offset.Valid) : isZone offset.text = true := by
  cases offset with
  | zulu => rfl
  | hours negative colon hour minute =>
    have hfits : Fits (zonePieces colon) [hour, minute] := fits_zone.2 ⟨h.1, h.2.1⟩
    have hcut : cut isDecimal (zonePieces colon) (print (zonePieces colon) [hour, minute] ++ []) =
        some (print (zonePieces colon) [hour, minute], []) :=
      cut_print (fun c => isDecimal_of_isDigit) hfits []
    rw [List.append_nil] at hcut
    have hsign : (if negative then '-' else '+') = '+' ∨ (if negative then '-' else '+') = '-' := by
      cases negative <;> simp
    rw [isZone, Bool.or_eq_true, Bool.and_eq_true]
    refine .inr ⟨?_, ?_⟩
    · rw [UtcOffset.text, List.head?_cons, Option.any_some, Bool.or_eq_true, decide_eq_true_eq,
        decide_eq_true_eq]
      exact hsign
    · rw [List.any_eq_true]
      refine ⟨colon, by cases colon <;> simp, ?_⟩
      rw [UtcOffset.text, List.tail_cons, hcut]
      rfl

/-- What follows the digits of a timestamp is not one. -/
theorem head_text (offset : UtcOffset) :
    ∃ c rest, offset.text = c :: rest ∧ isDecimal c = false ∧ c ≠ '.' := by
  cases offset with
  | zulu => exact ⟨'Z', [], rfl, by decide +kernel, by decide⟩
  | hours negative colon hour minute =>
    refine ⟨_, _, rfl, ?_, ?_⟩
    · cases negative <;> decide +kernel
    · cases negative <;> decide

/-! ## Reading a printed timestamp -/

theorem fits_numbers (stamp : DockerStamp) : Fits basePieces stamp.numbers := by
  have hyear := stamp.minute.day.year_le
  have hmonth := stamp.minute.day.date.month_le
  have hday := stamp.minute.day.date.day_le.trans (daysIn_le _ _)
  have hhour := stamp.minute.hour_lt
  have hminute := stamp.minute.minute_lt
  have hsecond := stamp.second_lt
  unfold maxYear at hyear
  simp only [basePieces, DockerStamp.numbers, Fits, and_true]
  omega

/-- The group of the fraction, in front of an offset. -/
theorem fracAt_text {frac : List Char} (h : ∀ c ∈ frac, isDecimal c = true) (offset : UtcOffset) :
    fracAt ((if frac = [] then [] else '.' :: frac) ++ offset.text) = (frac, offset.text) := by
  obtain ⟨c, rest, htext, hdecimal, hdot⟩ := head_text offset
  unfold fracAt
  by_cases hnil : frac = []
  · subst hnil
    rw [if_pos rfl, List.nil_append, htext, List.head?_cons, if_neg (by simpa using hdot)]
  · have hstop : ¬ isDecimal c = true := by rw [hdecimal]; exact Bool.false_ne_true
    rw [if_neg hnil, List.cons_append, List.head?_cons, if_pos rfl, List.tail_cons,
      List.takeWhile_append_of_pos h, List.dropWhile_append_of_pos h, htext,
      List.takeWhile_cons_of_neg hstop, List.dropWhile_cons_of_neg hstop, List.append_nil]

theorem getLast?_text (offset : UtcOffset) : ∃ c, offset.text.getLast? = some c ∧ c ≠ '\n' := by
  cases offset with
  | zulu => exact ⟨'Z', rfl, by decide⟩
  | hours negative colon hour minute =>
    have hlast : (UtcOffset.hours negative colon hour minute).text.getLast? =
        some (Nat.digitChar (minute % 10)) := by
      rw [UtcOffset.text, List.getLast?_cons]
      cases colon <;> simp [zonePieces, print, padded]
    refine ⟨_, hlast, ?_⟩
    have hall : ∀ d < 10, Nat.digitChar d ≠ '\n' := by decide
    exact hall _ (Nat.mod_lt _ (by decide))

/-- The groups of a timestamp are its parts, also with a newline at the end. -/
theorem matchTime_text (stamp : DockerStamp) {ending : List Char}
    (h : ending = [] ∨ ending = ['\n']) :
    matchTime (stamp.text ++ ending) =
      some { base := print basePieces stamp.numbers, frac := stamp.frac
             tz := stamp.offset.text } := by
  have hlast : ∃ c, stamp.text.getLast? = some c ∧ c ≠ '\n' := by
    obtain ⟨c, hc, hne⟩ := getLast?_text stamp.offset
    refine ⟨c, ?_, hne⟩
    rw [DockerStamp.text, List.getLast?_append, List.getLast?_append, hc]
    rfl
  have hdrop : dropNewline (stamp.text ++ ending) = stamp.text := by
    obtain ⟨c, hc, hne⟩ := hlast
    unfold dropNewline
    rcases h with rfl | rfl
    · rw [List.append_nil, hc, if_neg (by simpa using hne)]
    · rw [List.getLast?_concat, if_pos rfl, List.dropLast_concat]
  have hgroup : ((if stamp.frac = [] then [] else '.' :: stamp.frac) ++
      stamp.offset.text).head? = some '.' → stamp.frac ≠ [] := by
    intro hhead hnil
    obtain ⟨c, rest, htext, -, hdot⟩ := head_text stamp.offset
    rw [if_pos hnil, List.nil_append, htext, List.head?_cons, Option.some_inj] at hhead
    exact hdot hhead
  rw [matchTime, hdrop, DockerStamp.text,
    cut_print (fun c => isDecimal_of_isDigit) (fits_numbers stamp), Option.bind_some]
  simp only [fracAt_text stamp.decimal, isZone_text stamp.valid, and_true]
  rw [if_pos hgroup]

/-- The text that `fromisoformat` reads. -/
def isoText (c : Minute) (second micros : ℕ) (negative : Bool) (hours minutes : ℕ) : List Char :=
  print basePieces [c.day.date.year, c.day.date.month, c.day.date.day, c.hour, c.minute, second] ++
    '.' :: (padded 6 micros ++ (UtcOffset.hours negative true hours minutes).text)

/-- **What `fromisoformat` reads**, and the moment it gives. -/
theorem fromIso_iff {iso : List Char} {t : ℚ} :
    fromIso iso = some t ↔
      ∃ c second micros negative hours minutes, second < 60 ∧ micros < 1000000 ∧
        (UtcOffset.hours negative true hours minutes).Valid ∧
        iso = isoText c second micros negative hours minutes ∧
        t = moment c second (UtcOffset.hours negative true hours minutes).seconds micros := by
  have hprint (year month day hour minute second micros : ℕ) (rest : List Char) :
      print (basePieces ++ [.text '.', .number 6])
          [year, month, day, hour, minute, second, micros] ++ rest =
        print basePieces [year, month, day, hour, minute, second] ++
          '.' :: (padded 6 micros ++ rest) := by
    simp [basePieces, print]
  constructor
  · intro h
    unfold fromIso at h
    split at h
    · rename_i year month day hour minute second micros sign zone hscan
      split at h
      · rename_i hours minutes hzone
        obtain ⟨hfits, hiso⟩ := scan_eq_some_iff.1 hscan
        obtain ⟨hzoneFits, hzoneText⟩ := scan_eq_some_iff.1 hzone
        rw [Option.ite_none_right_eq_some, Option.map_eq_some_iff] at h
        obtain ⟨⟨hsign, hsecond, hday⟩, c, hc, rfl⟩ := h
        obtain ⟨rfl, rfl, rfl, rfl, rfl⟩ := minuteOf_eq_some.1 hc
        have hmicros : micros < 10 ^ 6 := hfits.2.2.2.2.2.2.1
        have hvalid : (UtcOffset.hours (decide (sign = '-')) true hours minutes).Valid :=
          ⟨(fits_zone.1 hzoneFits).1, (fits_zone.1 hzoneFits).2, hday⟩
        refine ⟨c, second, micros, decide (sign = '-'), hours, minutes, hsecond,
          by simpa using hmicros, hvalid, ?_, ?_⟩
        · have hchar : (if decide (sign = '-') = true then '-' else '+') = sign := by
            rcases hsign with rfl | rfl <;> rfl
          rw [hiso, hprint, isoText, UtcOffset.text, hchar, hzoneText, List.append_nil]
        · simp only [UtcOffset.seconds, decide_eq_true_eq]
      · cases h
    · cases h
  · rintro ⟨c, second, micros, negative, hours, minutes, hsecond, hmicros, hvalid, rfl, rfl⟩
    have hyear := c.day.year_le
    have hmonth := c.day.date.month_le
    have hday := c.day.date.day_le.trans (daysIn_le _ _)
    have hhour := c.hour_lt
    have hminute := c.minute_lt
    unfold maxYear at hyear
    have hfits : Fits (basePieces ++ [.text '.', .number 6])
        [c.day.date.year, c.day.date.month, c.day.date.day, c.hour, c.minute, second, micros] := by
      simp only [basePieces, List.cons_append, List.nil_append, Fits, and_true]
      omega
    have hscan := scan_eq_some_iff.2 ⟨hfits, (hprint _ _ _ _ _ _ _
      (UtcOffset.hours negative true hours minutes).text).symm⟩
    have hzone : scan (zonePieces true) (print (zonePieces true) [hours, minutes]) =
        some ([hours, minutes], []) :=
      scan_eq_some_iff.2 ⟨fits_zone.2 ⟨hvalid.1, hvalid.2.1⟩, (List.append_nil _).symm⟩
    have hsign : (if negative then '-' else '+') = '+' ∨ (if negative then '-' else '+') = '-' := by
      cases negative <;> simp
    have hminuteOf : minuteOf c.day.date.year c.day.date.month c.day.date.day c.hour c.minute =
        some c := minuteOf_eq_some.2 ⟨rfl, rfl, rfl, rfl, rfl⟩
    unfold fromIso isoText
    rw [hscan]
    simp only [UtcOffset.text, hzone, hminuteOf, Option.map_some]
    rw [if_pos ⟨hsign, hsecond, hvalid.2.2⟩]
    cases negative <;> rfl

/-! ## Exactly the timestamps -/

/-- A group `tz` is an offset, whose numbers its normal form has. -/
theorem exists_offset {tz : List Char} (h : isZone tz = true) {negative : Bool}
    {hour minute : ℕ} (hvalid : (UtcOffset.hours negative true hour minute).Valid)
    (heq : normalZone tz = (UtcOffset.hours negative true hour minute).text) :
    ∃ offset : UtcOffset, offset.Valid ∧ tz = offset.text ∧
      offset.seconds = (UtcOffset.hours negative true hour minute).seconds := by
  have htext (colon : Bool) : (UtcOffset.hours negative colon hour minute).text =
      (if negative then '-' else '+') :: print (zonePieces colon) [hour, minute] := rfl
  by_cases hzulu : tz = ['Z']
  · -- `+00:00` has no other numbers than zeros
    have hzeros : "+00:00".toList = '+' :: print (zonePieces true) [0, 0] := by decide
    rw [normalZone, if_pos hzulu, hzeros, htext] at heq
    have hnumbers := print_inj (fits_zone.2 ⟨by decide, by decide⟩)
      (fits_zone.2 ⟨hvalid.1, hvalid.2.1⟩) (List.cons.inj heq).2
    obtain ⟨rfl, hminute⟩ := List.cons.inj hnumbers
    obtain ⟨rfl, -⟩ := List.cons.inj hminute
    refine ⟨.zulu, trivial, hzulu, ?_⟩
    simp [UtcOffset.seconds]
  · rw [normalZone, if_neg hzulu] at heq
    by_cases hcolon : ':' ∈ tz
    · rw [if_pos hcolon] at heq
      exact ⟨_, hvalid, heq, rfl⟩
    · -- without a colon there are four digits behind the sign
      rw [if_neg hcolon] at heq
      have hlen : tz.length = 5 ∨ tz.length = 6 := by
        rw [isZone, Bool.or_eq_true, decide_eq_true_eq, or_iff_right hzulu, Bool.and_eq_true,
          List.any_eq_true] at h
        obtain ⟨hsign, colon, -, hfound⟩ := h
        obtain ⟨sign, hhead, -⟩ := (Option.any_eq_true _ _).1 hsign
        obtain ⟨⟨front, rest⟩, hcut, hempty⟩ := (Option.any_eq_true _ _).1 hfound
        obtain ⟨htail, hfront⟩ := cut_spec hcut
        obtain rfl : rest = [] := List.isEmpty_iff.1 hempty
        rw [List.append_nil] at htail
        rw [List.eq_cons_of_mem_head? hhead, List.length_cons, htail, hfront, width_zonePieces]
        cases colon <;> simp
      have hlength := congrArg List.length heq
      rw [htext, List.length_append, List.length_cons, List.length_cons, List.length_take,
        List.length_drop, length_print (fits_zone.2 ⟨hvalid.1, hvalid.2.1⟩),
        width_zonePieces] at hlength
      have hfive : tz.length = 5 := by
        rw [if_pos rfl] at hlength
        omega
      have htake : (tz.take 3).length =
          ((if negative then '-' else '+') :: padded 2 hour).length := by
        rw [List.length_take, List.length_cons, length_padded]
        omega
      have hparts : (if negative then '-' else '+') :: print (zonePieces true) [hour, minute] =
          ((if negative then '-' else '+') :: padded 2 hour) ++ ':' :: padded 2 minute := by
        simp [zonePieces, print]
      rw [htext, hparts] at heq
      obtain ⟨hfirst, hrest⟩ := List.append_inj heq htake
      refine ⟨.hours negative false hour minute, hvalid, ?_, rfl⟩
      rw [← List.take_append_drop 3 tz, hfirst, (List.cons.inj hrest).2, htext]
      simp [zonePieces, print]

theorem fracAt_spec (s : List Char) :
    (∀ c ∈ (fracAt s).1, isDecimal c = true) ∧
      ((s.head? = some '.' → (fracAt s).1 ≠ []) →
        s = (if (fracAt s).1 = [] then [] else '.' :: (fracAt s).1) ++ (fracAt s).2) := by
  unfold fracAt
  split
  · rename_i hdot
    refine ⟨fun c hc => List.mem_takeWhile_imp hc, fun hne => ?_⟩
    rw [if_neg (hne hdot), List.cons_append, List.takeWhile_append_dropWhile]
    exact List.eq_cons_of_mem_head? hdot
  · refine ⟨fun c hc => absurd hc List.not_mem_nil, fun _ => ?_⟩
    rw [if_pos rfl, List.nil_append]

/-- The groups of a match, and the text they are from. -/
theorem matchTime_spec {value : List Char} {m : TimeMatch} (h : matchTime value = some m) :
    (∃ ending, (ending = [] ∨ ending = ['\n']) ∧
      value = m.base ++ ((if m.frac = [] then [] else '.' :: m.frac) ++ m.tz) ++ ending) ∧
    m.base.length = width basePieces ∧ (∀ c ∈ m.frac, isDecimal c = true) ∧
      isZone m.tz = true := by
  obtain ⟨⟨base, rest⟩, hcut, hm⟩ := Option.bind_eq_some_iff.1 h
  rw [Option.ite_none_right_eq_some, Option.some_inj] at hm
  obtain ⟨⟨hfrac, hzone⟩, rfl⟩ := hm
  obtain ⟨hdecimal, hrest⟩ := fracAt_spec rest
  obtain ⟨heq, hlen⟩ := cut_spec hcut
  refine ⟨?_, hlen, hdecimal, hzone⟩
  change ∃ ending, _ ∧ value = base ++ _ ++ ending
  rw [← hrest hfrac, ← heq]
  unfold dropNewline
  split
  · rename_i hlast
    exact ⟨['\n'], .inr rfl, (List.dropLast_append_getLast? _ hlast).symm⟩
  · exact ⟨[], .inl rfl, (List.append_nil value).symm⟩

/-- A text that is read is one of a stamp. -/
theorem exists_stamp {m : TimeMatch} {value : List Char} (hmatch : matchTime value = some m) {t : ℚ}
    (hread : fromIso m.iso = some t) :
    ∃ stamp : DockerStamp, (value = stamp.text ∨ value = stamp.text ++ ['\n']) ∧
      t = stamp.seconds := by
  obtain ⟨⟨ending, hending, rfl⟩, hbase, hdecimal, hzone⟩ := matchTime_spec hmatch
  obtain ⟨c, second, micros, negative, hours, minutes, hsecond, hmicros, hvalid, hiso, rfl⟩ :=
    fromIso_iff.1 hread
  have hfits : Fits basePieces [c.day.date.year, c.day.date.month, c.day.date.day, c.hour,
      c.minute, second] :=
    fits_numbers { minute := c, second := second, frac := [], offset := .zulu
                   second_lt := hsecond, decimal := by simp, plain := by simp, valid := trivial }
  rw [TimeMatch.iso, isoText] at hiso
  obtain ⟨hbaseText, hrest⟩ := List.append_inj hiso (hbase.trans (length_print hfits).symm)
  obtain ⟨hdigits, hzoneText⟩ := List.append_inj (List.cons.inj hrest).2
    ((length_microDigits m.frac).trans (length_padded 6 micros).symm)
  obtain ⟨offset, hoffset, htz, hseconds⟩ := exists_offset hzone hvalid hzoneText
  have hplain : ∀ c ∈ m.frac.take 6, c.isDigit = true := by
    rw [← isDigit_microDigits, hdigits]
    exact fun c => isDigit_of_mem_padded
  refine ⟨{ minute := c, second := second, frac := m.frac, offset := offset
            second_lt := hsecond, decimal := hdecimal, plain := hplain
            valid := hoffset }, ?_, ?_⟩
  · rw [hbaseText, htz]
    rcases hending with rfl | rfl
    · exact .inl (List.append_nil _)
    · exact .inr rfl
  · rw [DockerStamp.seconds, hdigits, value_padded hmicros, hseconds]

/-- Every offset is one of hours and minutes. -/
theorem exists_hours {offset : UtcOffset} (h : offset.Valid) :
    ∃ negative hours minutes, (UtcOffset.hours negative true hours minutes).Valid ∧
      normalZone offset.text = (UtcOffset.hours negative true hours minutes).text ∧
      offset.seconds = (UtcOffset.hours negative true hours minutes).seconds := by
  cases offset with
  | zulu => exact ⟨false, 0, 0, ⟨by decide, by decide, by decide⟩, by decide, by decide⟩
  | hours negative colon hours minutes =>
    exact ⟨negative, hours, minutes, h, normalZone_text, rfl⟩

/-- What a stamp matches is read as its time. -/
theorem fromIso_iso (stamp : DockerStamp) {m : TimeMatch}
    (hbase : m.base = print basePieces stamp.numbers) (hfrac : m.frac = stamp.frac)
    (htz : m.tz = stamp.offset.text) : fromIso m.iso = some stamp.seconds := by
  have hplain := isDigit_microDigits.2 stamp.plain
  have hmicros : Fields.value (microDigits stamp.frac) < 1000000 := by
    have hlt := value_lt hplain
    rwa [length_microDigits] at hlt
  have hpadded : padded 6 (Fields.value (microDigits stamp.frac)) = microDigits stamp.frac := by
    have hback := padded_value hplain
    rwa [length_microDigits] at hback
  obtain ⟨negative, hours, minutes, hvalid, hzone, hseconds⟩ := exists_hours stamp.valid
  refine fromIso_iff.2 ⟨stamp.minute, stamp.second, _, negative, hours, minutes,
    stamp.second_lt, hmicros, hvalid, ?_, ?_⟩
  · rw [TimeMatch.iso, isoText, hbase, hfrac, htz, hpadded, hzone]
    rfl
  · rw [DockerStamp.seconds, hseconds]

/-- **Exactly the timestamps are read**, each as its own moment: a text gives a time when it is a
timestamp, perhaps with a newline behind it, of another day than the first of the year 1. -/
theorem parseDockerTime_iff (value : List Char) (t : ℚ) :
    parseDockerTime value = some t ↔
      ¬ zeroDate <+: value ∧
        ∃ stamp : DockerStamp, (value = stamp.text ∨ value = stamp.text ++ ['\n']) ∧
          t = stamp.seconds := by
  have hnonempty (stamp : DockerStamp) (rest : List Char) : stamp.text ++ rest ≠ [] := by
    obtain ⟨c, tail, htext, -, -⟩ := head_text stamp.offset
    rw [DockerStamp.text, htext]
    simp
  rw [parseDockerTime, Option.ite_none_left_eq_some, not_or, Option.bind_eq_some_iff]
  constructor
  · rintro ⟨⟨-, hzero⟩, m, hmatch, hread⟩
    exact ⟨hzero, exists_stamp hmatch hread⟩
  · rintro ⟨hzero, stamp, hvalue, rfl⟩
    obtain ⟨ending, hending, rfl⟩ : ∃ ending, (ending = [] ∨ ending = ['\n']) ∧
        value = stamp.text ++ ending := by
      rcases hvalue with rfl | rfl
      · exact ⟨[], .inl rfl, (List.append_nil _).symm⟩
      · exact ⟨['\n'], .inr rfl, rfl⟩
    exact ⟨⟨hnonempty stamp ending, hzero⟩, _, matchTime_text stamp hending,
      fromIso_iso stamp rfl rfl rfl⟩

end OoAgent
