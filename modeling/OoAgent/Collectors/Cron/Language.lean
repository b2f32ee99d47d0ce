import OoAgent.Collectors.Cron.Grammar

/-!
# The crontab grammar

* `StrictPart` — the parts of the crontab grammar itself: a star, a value or a range within
  the bounds, each with a step if need be.
* `StrictPart.reads` — **they are read as what they are**; `fieldMeaning_bounds` — they stand
  for values within the bounds.
* `field_language` — **what `_parse_field` accepts** and what it makes of it.
-/

namespace OoAgent

open PyText

section

variable (lower : List Char → List Char) (names : NameTable) (lo hi : ℤ)

/-- A value of the crontab grammar: a name in any letter case, or else a number. -/
inductive StrictToken : List Char → ℤ → Prop
  | name {token : List Char} {v : ℤ} (known : names.lookup (lower token) = some v)
      (plain : token ≠ ['*'] ∧ token ≠ []) (single : '-' ∉ token) (whole : '/' ∉ token) :
      StrictToken token v
  | number {digits : List Char} (other : names.lookup (lower digits) = none)
      (ascii : AsciiNumber digits) : StrictToken digits (asciiValue digits)

/-- The body of a part in the crontab grammar, within the bounds. -/
inductive StrictBody : List Char → Body → Prop
  | star : StrictBody ['*'] .star
  | value {token : List Char} {v : ℤ} (is : StrictToken lower names token v)
      (bounds : lo ≤ v ∧ v ≤ hi) : StrictBody token (.value v)
  | range {first last : List Char} {v w : ℤ} (is : StrictToken lower names first v)
      (is' : StrictToken lower names last w) (bounds : lo ≤ v ∧ v ≤ w ∧ w ≤ hi) :
      StrictBody (first ++ '-' :: last) (.range v w)

/-- A part of a field in the crontab grammar. -/
inductive StrictPart : List Char → Part → Prop
  | plain {text : List Char} {body : Body} (is : StrictBody lower names lo hi text body) :
      StrictPart text ⟨body, none⟩
  | stepped {text digits : List Char} {body : Body} (is : StrictBody lower names lo hi text body)
      (ascii : AsciiNumber digits) (pos : 0 < asciiValue digits) :
      StrictPart (text ++ '/' :: digits) ⟨body, some (asciiValue digits)⟩

end

section

variable {lower : List Char → List Char} {names : NameTable} {lo hi : ℤ}

/-! ## Strict parts -/

theorem StrictToken.reads {token : List Char} {v : ℤ} (h : StrictToken lower names token v) :
    resolveAt lower names token = some v := by
  unfold resolveAt
  cases h with
  | name known => rw [known]
  | number other ascii => rw [other, parseInt_ascii ascii]

/-- A value has none of the signs that a part is cut at. -/
theorem StrictToken.plain {token : List Char} {v : ℤ} (h : StrictToken lower names token v) :
    (token ≠ ['*'] ∧ token ≠ []) ∧ '-' ∉ token ∧ '/' ∉ token := by
  cases h with
  | name _ plain single whole => exact ⟨plain, single, whole⟩
  | number _ ascii =>
    obtain ⟨hne, hdigits, -⟩ := ascii
    have hother (c : Char) (hc : c.isDigit = false) : c ∉ token := fun hmem =>
      absurd (hdigits c hmem) (by simp [hc])
    refine ⟨⟨?_, hne⟩, hother '-' (by decide), hother '/' (by decide)⟩
    rintro rfl
    exact hother '*' (by decide) List.mem_cons_self

theorem StrictPart.ne_nil {text : List Char} {part : Part}
    (h : StrictPart lower names lo hi text part) : text ≠ [] := by
  cases h with
  | plain is =>
    cases is with
    | star => simp
    | value is => exact is.plain.1.2
    | range => simp
  | stepped => simp

theorem StrictBody.reads {text : List Char} {body : Body}
    (h : StrictBody lower names lo hi text body) :
    ReadsBody lower names text body ∧ '/' ∉ text := by
  cases h with
  | star => exact ⟨.star, by decide⟩
  | value is =>
    obtain ⟨plain, single, whole⟩ := is.plain
    exact ⟨.value plain single is.reads, whole⟩
  | range is is' =>
    refine ⟨.range is.plain.2.1 is.reads is'.reads, ?_⟩
    simp [is.plain.2.2, is'.plain.2.2]

/-- **The parts of the crontab grammar** are read as what they are. -/
theorem StrictPart.reads {text : List Char} {part : Part}
    (h : StrictPart lower names lo hi text part) : ReadsPart lower names text part := by
  cases h with
  | plain is => exact .plain is.reads.2 is.reads.1
  | stepped is ascii pos =>
    refine .stepped is.reads.2 is.reads.1 ⟨ascii.1, ?_⟩ (intOf_ascii ascii) pos
    exact List.all_eq_true.2 fun c hc => isDigit_ascii (ascii.2.1 c hc)

/-- A progression starts with its first value and stays within its bounds. -/
theorem progression_bounds {v w : ℤ} (h : v ≤ w) (step : ℕ) :
    (progression v w step).Nonempty ∧ progression v w step ⊆ Set.Icc v w := by
  refine ⟨⟨v, 0, by simp, h⟩, ?_⟩
  rintro x ⟨k, rfl, hle⟩
  exact ⟨le_add_of_nonneg_right (by positivity), hle⟩

/-- They stand for values within the bounds, and for at least one. -/
theorem StrictPart.meaning_bounds {text : List Char} {part : Part} (hle : lo ≤ hi)
    (h : StrictPart lower names lo hi text part) :
    (part.meaning lo hi).Nonempty ∧ part.meaning lo hi ⊆ Set.Icc lo hi := by
  have hrange {v w : ℤ} (bounds : lo ≤ v ∧ v ≤ w ∧ w ≤ hi) (step : ℕ) :
      (progression v w step).Nonempty ∧ progression v w step ⊆ Set.Icc lo hi :=
    (progression_bounds bounds.2.1 step).imp_right fun hsubset =>
      hsubset.trans (Set.Icc_subset_Icc bounds.1 bounds.2.2)
  cases h with
  | plain is =>
    cases is with
    | star => exact hrange ⟨le_rfl, hle, le_rfl⟩ 1
    | value _ bounds => exact ⟨Set.singleton_nonempty _, Set.singleton_subset_iff.2 bounds⟩
    | range _ _ bounds => exact hrange bounds 1
  | stepped is =>
    cases is with
    | star => exact hrange ⟨le_rfl, hle, le_rfl⟩ _
    | value _ bounds => exact hrange ⟨bounds.1, bounds.2, le_rfl⟩ _
    | range _ _ bounds => exact hrange bounds _

theorem split_ne_nil (sep : Char) (s : List Char) : split sep s ≠ [] := by
  cases s with
  | nil => simp [split]
  | cons c cs =>
    rw [split]
    split
    · simp
    · split <;> simp

/-- A field of the crontab grammar has values, all of them within the bounds. -/
theorem fieldMeaning_bounds {texts : List (List Char)} {parts : List Part} (hle : lo ≤ hi)
    (hne : texts ≠ []) (h : List.Forall₂ (StrictPart lower names lo hi) texts parts) :
    (fieldMeaning lo hi parts).Nonempty ∧ fieldMeaning lo hi parts ⊆ Set.Icc lo hi := by
  have hsubset : fieldMeaning lo hi parts ⊆ Set.Icc lo hi := by
    clear hne
    induction h with
    | nil => simp [fieldMeaning]
    | cons hpart _ ih =>
      rw [fieldMeaning_cons]
      exact Set.union_subset (hpart.meaning_bounds hle).2 ih
  refine ⟨?_, hsubset⟩
  cases h with
  | nil => exact absurd rfl hne
  | cons hpart _ =>
    rw [fieldMeaning_cons]
    exact (hpart.meaning_bounds hle).1.inl

/-! ## The language -/

/-- A field of the crontab grammar has its meaning. -/
theorem parseFieldAt_of_strict (hle : lo ≤ hi) {spec : List Char}
    (hslip : ∀ text ∈ split ',' spec, ¬ Slip lower names text) {parts : List Part}
    (h : List.Forall₂ (StrictPart lower names lo hi) (split ',' spec) parts) :
    ∃ S : Finset ℤ, parseFieldAt lower names lo hi spec = some (some S) ∧
      (S : Set ℤ) = fieldMeaning lo hi parts := by
  obtain ⟨hne, hbounds⟩ := fieldMeaning_bounds hle (split_ne_nil ',' spec) h
  have hfinite : (fieldMeaning lo hi parts).Finite := (Set.finite_Icc lo hi).subset hbounds
  refine ⟨hfinite.toFinset, (parseFieldAt_iff hslip).2 ⟨parts, ?_, ?_, hne, hbounds⟩, ?_⟩
  · exact h.imp fun _ _ hstrict => hstrict.reads
  · exact hfinite.coe_toFinset
  · exact hfinite.coe_toFinset

end

/-- **What `_parse_field` accepts.**  Slips apart it never raises; it returns the union of the
meanings of the parts when all of them can be read, and when that has a value and lies
within the bounds, and `None` for every other text; a field of the crontab grammar has its
meaning. -/
theorem field_language (lower : List Char → List Char) (names : NameTable) {lo hi : ℤ}
    (hle : lo ≤ hi) {spec : List Char}
    (hslip : ∀ text ∈ split ',' spec, ¬ Slip lower names text) :
    parseFieldAt lower names lo hi spec ≠ none ∧
    (∀ S : Finset ℤ, parseFieldAt lower names lo hi spec = some (some S) ↔
      ∃ parts, List.Forall₂ (ReadsPart lower names) (split ',' spec) parts ∧
        (S : Set ℤ) = fieldMeaning lo hi parts ∧
        (fieldMeaning lo hi parts).Nonempty ∧ fieldMeaning lo hi parts ⊆ Set.Icc lo hi) ∧
    (∀ parts, List.Forall₂ (StrictPart lower names lo hi) (split ',' spec) parts →
      ∃ S : Finset ℤ, parseFieldAt lower names lo hi spec = some (some S) ∧
        (S : Set ℤ) = fieldMeaning lo hi parts) :=
  ⟨parseFieldAt_ne_none hslip, fun _ => parseFieldAt_iff hslip,
    fun _ hstrict => parseFieldAt_of_strict hle hslip hstrict⟩

theorem field_language_months :
    ∃ parts, List.Forall₂ (ReadsPart PyText.lowerAscii monthNames)
        (split ',' "Jan-mar,9,10/2".toList) parts ∧
      (({1, 2, 3, 9, 10, 12} : Finset ℤ) : Set ℤ) = fieldMeaning 1 12 parts := by
  have hlanguage := @field_language PyText.lowerAscii monthNames 1 12 (by decide)
    "Jan-mar,9,10/2".toList (by decide +kernel)
  obtain ⟨parts, hparts, hS, -⟩ := (hlanguage.2.1 {1, 2, 3, 9, 10, 12}).1 (by decide +kernel)
  exact ⟨parts, hparts, hS⟩

/-- **An empty part** is a star. -/
theorem empty_part_accepted :
    ¬ ∀ (lower : List Char → List Char) (names : NameTable) (lo hi : ℤ) (spec : List Char),
      lo ≤ hi →
      (¬ ∃ parts, List.Forall₂ (StrictPart lower names lo hi) (split ',' spec) parts) →
      parseFieldAt lower names lo hi spec = some none := by
  intro h
  have hnone := h PyText.lowerAscii [] 0 59 "1,,2".toList (by decide) fun ⟨parts, hparts⟩ => by
    have hsplit : split ',' "1,,2".toList = [['1'], [], ['2']] := by decide
    rw [hsplit] at hparts
    obtain _ | ⟨-, _ | ⟨hempty, -⟩⟩ := hparts
    exact hempty.ne_nil rfl
  exact absurd hnone (by decide +kernel)

end OoAgent
