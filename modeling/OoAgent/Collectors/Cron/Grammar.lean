import OoAgent.Collectors.Cron.Field

/-!
# The language of a field

`_parse_field` reads the crontab grammar and more: an empty part is a star, `int` decides
what a number is, a range may be empty, and only the union of all parts has to be within the
bounds.

* `parseFieldAt` — `_parse_field` with any bounds, any table of names and any `str.lower`;
  `parseField_eq` — the fields of a schedule are read by it.
* `ReadsPart`, `Part.meaning` — the texts that are read as a part, and the values it stands
  for.
* `Slip` — the texts left out: a step on which `int` raises, and a single value by steps of
  one.
* `parseFieldAt_iff` — **a field has the meaning of its parts**; `parseFieldAt_eq_none` —
  when it raises.
-/

namespace OoAgent

open PyText

section

variable (lower : List Char → List Char) (names : NameTable) (lo hi : ℤ)

/-! ## The function -/

/-- `resolve`; `none` when it raises `ValueError`. -/
def resolveAt (token : List Char) : Option ℤ :=
  match names.lookup (lower token) with
  | some value => some value
  | none => parseInt token

/-- The values of a part without its step; `none` when a number in it raises. -/
def valuesAt (part : List Char) (step : ℕ) : Option (Finset ℤ) :=
  if part = ['*'] ∨ part = [] then some (stepRange lo (hi + 1) step)
  else if '-' ∈ part then do
    let (first, last) := splitOnce '-' part
    let start ← resolveAt lower names first
    let stop ← resolveAt lower names last
    return stepRange start (stop + 1) step
  else if 1 < step then
    (resolveAt lower names part).map fun start => stepRange start (hi + 1) step
  else (resolveAt lower names part).map fun value => {value}

/-- The body of the loop: the values of a part, `some none` for a malformed one, `none` when
its step raises. -/
def partSet (part : List Char) : Option (Option (Finset ℤ)) :=
  if '/' ∈ part then
    (stepOf (splitOnce '/' part).2).map fun step =>
      step.bind (valuesAt lower names lo hi (splitOnce '/' part).1)
  else some (valuesAt lower names lo hi part 1)

/-- The loop over the parts, with the values so far. -/
def parsePartsAt (values : Finset ℤ) : List (List Char) → Option (Option (Finset ℤ))
  | [] => some (some values)
  | part :: parts =>
    match partSet lower names lo hi part with
    | none => none
    | some none => some none
    | some (some new) => parsePartsAt (values ∪ new) parts

/-- `_parse_field`. -/
def parseFieldAt (spec : List Char) : Option (Option (Finset ℤ)) :=
  (parsePartsAt lower names lo hi ∅ (split ',' spec)).map fun values =>
    values.filter fun values => values.Nonempty ∧ ∀ v ∈ values, lo ≤ v ∧ v ≤ hi

/-! ## The grammar -/

/-- A part of a field without its step. -/
inductive Body
  | star
  | value (v : ℤ)
  | range (v w : ℤ)

/-- A part of a field, with the step behind its slash. -/
structure Part where
  body : Body
  step : Option ℕ

/-- The values from `v` to `w`, by a step. -/
def progression (v w : ℤ) (step : ℕ) : Set ℤ := {x | ∃ k : ℕ, x = v + k * step ∧ x ≤ w}

/-- The values a part stands for: a value with a step goes on to the upper bound. -/
def Part.meaning : Part → Set ℤ
  | ⟨.star, step⟩ => progression lo hi (step.getD 1)
  | ⟨.value v, none⟩ => {v}
  | ⟨.value v, some step⟩ => progression v hi step
  | ⟨.range v w, step⟩ => progression v w (step.getD 1)

/-- The values of a whole field. -/
def fieldMeaning (parts : List Part) : Set ℤ := {x | ∃ part ∈ parts, x ∈ part.meaning lo hi}

/-- The texts that are read as the body of a part: a range is cut at its first hyphen. -/
inductive ReadsBody : List Char → Body → Prop
  | star : ReadsBody ['*'] .star
  | empty : ReadsBody [] .star
  | value {token : List Char} {v : ℤ} (plain : token ≠ ['*'] ∧ token ≠ []) (single : '-' ∉ token)
      (reads : resolveAt lower names token = some v) : ReadsBody token (.value v)
  | range {first last : List Char} {v w : ℤ} (cut : '-' ∉ first)
      (reads : resolveAt lower names first = some v)
      (reads' : resolveAt lower names last = some w) :
      ReadsBody (first ++ '-' :: last) (.range v w)

/-- The texts that are read as a part: a step is digits that `int` reads as a positive
number. -/
inductive ReadsPart : List Char → Part → Prop
  | plain {text : List Char} {body : Body} (whole : '/' ∉ text)
      (reads : ReadsBody lower names text body) : ReadsPart text ⟨body, none⟩
  | stepped {text stepRaw : List Char} {body : Body} {step : ℕ} (cut : '/' ∉ text)
      (reads : ReadsBody lower names text body) (digits : stepRaw ≠ [] ∧ stepRaw.all isDigit)
      (counts : intOf stepRaw = some step) (pos : 0 < step) :
      ReadsPart (text ++ '/' :: stepRaw) ⟨body, some step⟩

/-- A step of digits that `int` raises on, or a single value by steps of one. -/
def Slip (part : List Char) : Prop :=
  '/' ∈ part ∧ (stepOf (splitOnce '/' part).2 = none ∨
    stepOf (splitOnce '/' part).2 = some (some 1) ∧
      (splitOnce '/' part).1 ∉ [['*'], []] ∧ '-' ∉ (splitOnce '/' part).1 ∧
      (resolveAt lower names (splitOnce '/' part).1).isSome)

instance (part : List Char) : Decidable (Slip lower names part) :=
  inferInstanceAs (Decidable (_ ∧ (_ ∨ _ ∧ _ ∧ _ ∧ _)))

end

section

variable {lower : List Char → List Char} {names : NameTable} {lo hi : ℤ}

/-! ## Ranges -/

theorem mem_stepRange {start stop x : ℤ} {step : ℕ} :
    x ∈ stepRange start stop step ↔ ∃ k : ℕ, x = start + k * step ∧ x < stop := by
  simp only [stepRange, Finset.mem_image, Finset.mem_filter, Finset.mem_range]
  constructor
  · rintro ⟨n, ⟨hn, hstep⟩, rfl⟩
    obtain ⟨k, rfl⟩ := Nat.dvd_of_mod_eq_zero hstep
    refine ⟨k, by push_cast; ring, by omega⟩
  · rintro ⟨k, rfl, hlt⟩
    refine ⟨k * step, ⟨?_, Nat.mul_mod_left k step⟩, by push_cast; rfl⟩
    have hpos : (0 : ℤ) ≤ k * step := by positivity
    zify
    omega

theorem coe_stepRange (v w : ℤ) (step : ℕ) :
    (stepRange v (w + 1) step : Set ℤ) = progression v w step := by
  ext x
  simp only [Finset.mem_coe, mem_stepRange, progression, Set.mem_ofPred_eq, Int.lt_add_one_iff]

/-! ## Bodies -/

/-- The values that the loop gives to a body by a step. -/
def Body.values (lo hi : ℤ) (step : ℕ) : Body → Finset ℤ
  | .star => stepRange lo (hi + 1) step
  | .value v => if 1 < step then stepRange v (hi + 1) step else {v}
  | .range v w => stepRange v (w + 1) step

theorem valuesAt_of_reads {text : List Char} {body : Body} (h : ReadsBody lower names text body)
    (step : ℕ) : valuesAt lower names lo hi text step = some (body.values lo hi step) := by
  unfold valuesAt
  cases h with
  | star => simp [Body.values]
  | empty => simp [Body.values]
  | value plain single reads =>
    rw [if_neg (not_or.2 plain), if_neg single, reads]
    unfold Body.values
    split <;> rfl
  | range cut reads reads' =>
    rw [if_neg (by simp [List.append_eq_singleton_iff]), if_pos (by simp), splitOnce_append cut]
    simp [reads, reads', Body.values]

theorem exists_reads_of_valuesAt {text : List Char} {step : ℕ} {values : Finset ℤ}
    (h : valuesAt lower names lo hi text step = some values) :
    ∃ body, ReadsBody lower names text body := by
  unfold valuesAt at h
  split at h
  · rename_i hstar
    rcases hstar with rfl | rfl
    · exact ⟨.star, .star⟩
    · exact ⟨.star, .empty⟩
  · rename_i hplain
    split at h
    · rename_i hrange
      obtain ⟨first, last, rfl, cut⟩ := List.eq_append_cons_of_mem hrange
      rw [splitOnce_append cut] at h
      obtain ⟨v, hv, h⟩ := Option.bind_eq_some_iff.1 h
      obtain ⟨w, hw, -⟩ := Option.bind_eq_some_iff.1 h
      exact ⟨.range v w, .range cut hv hw⟩
    · rename_i hsingle
      have hvalue : ∃ v, resolveAt lower names text = some v := by
        split at h
        · obtain ⟨v, hv, -⟩ := Option.map_eq_some_iff.1 h
          exact ⟨v, hv⟩
        · obtain ⟨v, hv, -⟩ := Option.map_eq_some_iff.1 h
          exact ⟨v, hv⟩
      obtain ⟨v, hv⟩ := hvalue
      exact ⟨.value v, .value (not_or.1 hplain) hsingle hv⟩

/-! ## Parts -/

theorem stepOf_eq_some {stepRaw : List Char} {step : ℕ} :
    stepOf stepRaw = some (some step) ↔
      (stepRaw ≠ [] ∧ stepRaw.all isDigit) ∧ intOf stepRaw = some step ∧ 0 < step := by
  unfold stepOf
  split
  · rename_i hdigits
    rw [and_iff_right hdigits, Option.map_eq_some_iff]
    constructor
    · rintro ⟨n, hn, hstep⟩
      split at hstep
      · cases hstep
      · obtain rfl := Option.some.inj hstep
        exact ⟨hn, by omega⟩
    · rintro ⟨hn, hpos⟩
      exact ⟨step, hn, if_neg (by omega)⟩
  · rename_i hdigits
    exact iff_of_false (by simp) fun h => hdigits h.1

/-- **A part that can be read** gets its meaning. -/
theorem partSet_of_reads {text : List Char} {part : Part} (h : ReadsPart lower names text part)
    (hslip : ¬ Slip lower names text) :
    ∃ S, partSet lower names lo hi text = some (some S) ∧ (S : Set ℤ) = part.meaning lo hi := by
  unfold partSet
  cases h with
  | @plain _ body whole reads =>
    rw [if_neg whole, valuesAt_of_reads reads]
    refine ⟨_, rfl, ?_⟩
    cases body with
    | star => exact coe_stepRange lo hi 1
    | value v => exact Finset.coe_singleton v
    | range v w => exact coe_stepRange v w 1
  | @stepped text stepRaw body step cut reads digits counts pos =>
    have hstep := stepOf_eq_some.2 ⟨digits, counts, pos⟩
    have hmem : '/' ∈ text ++ '/' :: stepRaw := by simp
    rw [if_pos hmem, splitOnce_append cut, hstep, Option.map_some, Option.bind_some,
      valuesAt_of_reads reads]
    refine ⟨_, rfl, ?_⟩
    cases reads with
    | star => exact coe_stepRange lo hi step
    | empty => exact coe_stepRange lo hi step
    | range => exact coe_stepRange _ _ step
    | value plain single reads =>
      have hone : step ≠ 1 := by
        rintro rfl
        refine hslip ⟨hmem, .inr ?_⟩
        rw [splitOnce_append cut]
        exact ⟨hstep, by simpa using plain, single, by rw [reads]; rfl⟩
      rw [Body.values, if_pos (by omega)]
      exact coe_stepRange _ hi step

/-- A part that gets a set can be read. -/
theorem exists_reads_of_partSet {text : List Char} {S : Finset ℤ}
    (h : partSet lower names lo hi text = some (some S)) :
    ∃ part, ReadsPart lower names text part := by
  unfold partSet at h
  split at h
  · rename_i hslash
    obtain ⟨body, stepRaw, rfl, cut⟩ := List.eq_append_cons_of_mem hslash
    rw [splitOnce_append cut] at h
    obtain ⟨step, hstep, h⟩ := Option.map_eq_some_iff.1 h
    obtain ⟨step, rfl, h⟩ := Option.bind_eq_some_iff.1 h
    obtain ⟨digits, counts, pos⟩ := stepOf_eq_some.1 hstep
    obtain ⟨body, reads⟩ := exists_reads_of_valuesAt h
    exact ⟨_, .stepped cut reads digits counts pos⟩
  · rename_i hslash
    obtain ⟨body, reads⟩ := exists_reads_of_valuesAt (Option.some.inj h)
    exact ⟨_, .plain hslash reads⟩

/-- Only a step makes the reading of a part raise. -/
theorem partSet_eq_none {text : List Char} :
    partSet lower names lo hi text = none ↔
      '/' ∈ text ∧ stepOf (splitOnce '/' text).2 = none := by
  unfold partSet
  split
  · rename_i hslash
    simp [hslash]
  · rename_i hslash
    simp [hslash]

/-! ## Fields -/

theorem fieldMeaning_cons (part : Part) (parts : List Part) :
    fieldMeaning lo hi (part :: parts) = part.meaning lo hi ∪ fieldMeaning lo hi parts := by
  ext x
  simp [fieldMeaning]

/-- **The loop** comes to the values so far together with those of the parts. -/
theorem parsePartsAt_eq_some {texts : List (List Char)}
    (hslip : ∀ text ∈ texts, ¬ Slip lower names text) {values S : Finset ℤ} :
    parsePartsAt lower names lo hi values texts = some (some S) ↔
      ∃ parts, List.Forall₂ (ReadsPart lower names) texts parts ∧
        (S : Set ℤ) = (values : Set ℤ) ∪ fieldMeaning lo hi parts := by
  induction texts generalizing values with
  | nil =>
    rw [parsePartsAt, Option.some_inj, Option.some_inj]
    constructor
    · rintro rfl
      exact ⟨[], .nil, by simp [fieldMeaning]⟩
    · rintro ⟨parts, hparts, hS⟩
      cases hparts
      exact Finset.coe_injective (by simpa [fieldMeaning] using hS.symm)
  | cons text texts ih =>
    have hfirst := hslip text List.mem_cons_self
    have hrest := fun text' hmem => hslip text' (List.mem_cons_of_mem text hmem)
    constructor
    · intro h
      rw [parsePartsAt] at h
      split at h
      · cases h
      · cases h
      · rename_i new hnew
        obtain ⟨part, hpart⟩ := exists_reads_of_partSet hnew
        obtain ⟨new', hnew', hmeaning⟩ := @partSet_of_reads lower names lo hi _ _ hpart hfirst
        obtain rfl : new = new' := by simpa [hnew] using hnew'
        obtain ⟨parts, hparts, hS⟩ := (ih hrest).1 h
        refine ⟨part :: parts, .cons hpart hparts, ?_⟩
        rw [hS, fieldMeaning_cons, ← hmeaning, Finset.coe_union, Set.union_assoc]
    · rintro ⟨parts, hparts, hS⟩
      cases hparts with
      | @cons _ part _ parts hpart hparts =>
        obtain ⟨new, hnew, hmeaning⟩ := @partSet_of_reads lower names lo hi _ _ hpart hfirst
        rw [parsePartsAt, hnew]
        refine (ih hrest).2 ⟨parts, hparts, ?_⟩
        rw [hS, fieldMeaning_cons, ← hmeaning, Finset.coe_union, Set.union_assoc]

/-- **The loop raises** at a step that raises, when it comes to it. -/
theorem parsePartsAt_eq_none {texts : List (List Char)} {values : Finset ℤ} :
    parsePartsAt lower names lo hi values texts = none ↔
      ∃ before text after, texts = before ++ text :: after ∧
        (∀ text' ∈ before, ∃ S, partSet lower names lo hi text' = some (some S)) ∧
        partSet lower names lo hi text = none := by
  induction texts generalizing values with
  | nil => simp [parsePartsAt]
  | cons text texts ih =>
    rw [parsePartsAt]
    cases hset : partSet lower names lo hi text with
    | none => exact iff_of_true rfl ⟨[], text, texts, rfl, by simp, hset⟩
    | some set =>
      cases set with
      | none =>
        refine iff_of_false (by simp) ?_
        rintro ⟨before, text', after, htexts, hbefore, hraise⟩
        cases before with
        | nil =>
          obtain ⟨rfl, -⟩ := List.cons.inj htexts
          exact absurd (hset.symm.trans hraise) (by simp)
        | cons first before =>
          obtain ⟨rfl, -⟩ := List.cons.inj htexts
          obtain ⟨S, hS⟩ := hbefore _ List.mem_cons_self
          exact absurd (hset.symm.trans hS) (by simp)
      | some new =>
        refine ih.trans ?_
        constructor
        · rintro ⟨before, text', after, rfl, hbefore, hraise⟩
          exact ⟨text :: before, text', after, rfl,
            List.forall_mem_cons.2 ⟨⟨new, hset⟩, hbefore⟩, hraise⟩
        · rintro ⟨before, text', after, htexts, hbefore, hraise⟩
          cases before with
          | nil =>
            obtain ⟨rfl, -⟩ := List.cons.inj htexts
            exact absurd (hset.symm.trans hraise) (by simp)
          | cons first before =>
            obtain ⟨rfl, rfl⟩ := List.cons.inj htexts
            exact ⟨before, text', after, rfl, (List.forall_mem_cons.1 hbefore).2, hraise⟩

/-- The check at the end. -/
theorem parseFieldAt_eq_some {spec : List Char} {S : Finset ℤ} :
    parseFieldAt lower names lo hi spec = some (some S) ↔
      parsePartsAt lower names lo hi ∅ (split ',' spec) = some (some S) ∧
        S.Nonempty ∧ ∀ v ∈ S, lo ≤ v ∧ v ≤ hi := by
  simp [parseFieldAt, Option.filter_eq_some_iff]

/-- **A field raises** at a step that raises, when the loop comes to it. -/
theorem parseFieldAt_eq_none {spec : List Char} :
    parseFieldAt lower names lo hi spec = none ↔
      ∃ before text after, split ',' spec = before ++ text :: after ∧
        (∀ text' ∈ before, ∃ S, partSet lower names lo hi text' = some (some S)) ∧
        partSet lower names lo hi text = none := by
  rw [parseFieldAt, Option.map_eq_none_iff, parsePartsAt_eq_none]

/-- Without slips no part raises. -/
theorem parseFieldAt_ne_none {spec : List Char}
    (hslip : ∀ text ∈ split ',' spec, ¬ Slip lower names text) :
    parseFieldAt lower names lo hi spec ≠ none := by
  intro h
  obtain ⟨before, text, after, hsplit, -, hraise⟩ := parseFieldAt_eq_none.1 h
  obtain ⟨hslash, hstep⟩ := partSet_eq_none.1 hraise
  exact hslip text (by simp [hsplit]) ⟨hslash, .inl hstep⟩

/-- Without slips a field has the meaning of its parts. -/
theorem parseFieldAt_iff {spec : List Char}
    (hslip : ∀ text ∈ split ',' spec, ¬ Slip lower names text) {S : Finset ℤ} :
    parseFieldAt lower names lo hi spec = some (some S) ↔
      ∃ parts, List.Forall₂ (ReadsPart lower names) (split ',' spec) parts ∧
        (S : Set ℤ) = fieldMeaning lo hi parts ∧
        (fieldMeaning lo hi parts).Nonempty ∧ fieldMeaning lo hi parts ⊆ Set.Icc lo hi := by
  rw [parseFieldAt_eq_some, parsePartsAt_eq_some hslip]
  simp only [Finset.coe_empty, Set.empty_union]
  constructor
  · rintro ⟨⟨parts, hparts, hS⟩, hne, hbounds⟩
    refine ⟨parts, hparts, hS, ?_⟩
    rw [← hS]
    exact ⟨Finset.coe_nonempty.2 hne, hbounds⟩
  · rintro ⟨parts, hparts, hS, hne, hbounds⟩
    rw [← hS] at hne hbounds
    exact ⟨⟨parts, hparts, hS⟩, Finset.coe_nonempty.1 hne, hbounds⟩

end

/-! ## The fields of a schedule -/

theorem partValues_eq (lo hi : ℕ) (names : NameTable) (part : List Char) (step : ℕ) :
    partValues lo hi names part step = valuesAt PyText.lowerAscii names lo hi part step := rfl

theorem parseParts_eq (lo hi : ℕ) (names : NameTable) (values : Finset ℤ)
    (parts : List (List Char)) :
    parseParts lo hi names values parts =
      parsePartsAt PyText.lowerAscii names lo hi values parts := by
  induction parts generalizing values with
  | nil => rfl
  | cons part parts ih =>
    rw [parseParts, parsePartsAt, partSet]
    by_cases hslash : '/' ∈ part
    · rw [if_pos hslash, if_pos hslash]
      cases splitOnce '/' part with
      | mk body stepRaw =>
        cases hstep : stepOf stepRaw with
        | none => simp only [hstep, Option.map_none]
        | some step =>
          cases step with
          | none => simp only [hstep, Option.map_some, Option.bind_none]
          | some step =>
            simp only [hstep, Option.map_some, Option.bind_some, partValues_eq]
            cases valuesAt PyText.lowerAscii names lo hi body step with
            | none => rfl
            | some new => exact ih _
    · rw [if_neg hslash, if_neg hslash]
      simp only [partValues_eq]
      cases valuesAt PyText.lowerAscii names lo hi part 1 with
      | none => rfl
      | some new => exact ih _

/-- **The fields of a schedule** are read by the same function. -/
theorem parseField_eq (lo hi : ℕ) (names : NameTable) (spec : List Char) :
    parseField lo hi names spec =
      (parseFieldAt PyText.lowerAscii names lo hi spec).map fun values =>
        values.bind (checkField lo hi) := by
  rw [parseField, parseFieldAt, parseParts_eq, Option.map_map]
  congr 1
  funext values
  cases values with
  | none => rfl
  | some S =>
    simp only [Option.bind_some, Function.comp_apply, Option.filter]
    by_cases hS : S.Nonempty ∧ ∀ v ∈ S, (lo : ℤ) ≤ v ∧ v ≤ hi
    · rw [if_pos (decide_eq_true hS), Option.bind_some]
    · rw [if_neg (by simpa using hS), checkField, dif_neg hS, Option.bind_none]

end OoAgent
