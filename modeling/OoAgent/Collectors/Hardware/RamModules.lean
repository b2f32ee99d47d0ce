import OoAgent.Collectors.Hardware.Dmidecode

/-!
# One RAM module for each populated slot

Every section `Memory Device` with a size should give one module, with what the lines of the
section say.

* `stated` — what lines say of a key; `expectedModule` — the module of a section.
* `DmidecodeText` — a text whose sections state each key once; `populated` — its modules.
* `finish_eq_none_iff`, `finish_eq_stated_iff` — when a module is sent off, and with which entries.
* `ram_modules_iff` — **the modules are those of the sections** exactly when in each section with
  a size the part number comes last, and no other section is given one.
-/

namespace OoAgent

open PyText

/-! ## What a section says -/

/-- The key of a line that states an entry. -/
def dmiKey : ModuleKey → List Char
  | .sizeMb => "Size".toList
  | .type => "Type".toList
  | .speedMt => "Speed".toList
  | .vendor => "Manufacturer".toList
  | .model => "Part Number".toList

theorem dmiKey_injective : Function.Injective dmiKey := by
  have hall : ∀ k k' : ModuleKey, (dmiKey k == dmiKey k') = true → k = k' := by
    intro k k'
    cases k <;> cases k' <;> decide +kernel
  intro k k' h
  exact hall k k' (beq_iff_eq.2 h)

/-- The number that digits stand for. -/
def digitsValue (digits : List Char) : ℕ :=
  digits.foldl (fun n c => 10 * n + (decimal c).getD 0) 0

/-- The entry in a value: a number of MB or GB, a number, or a text that is no placeholder. -/
def entryOf : ModuleKey → List Char → Option ModuleEntry
  | .sizeMb, value => (matchSize value).map fun (digits, gb) =>
      .number (digitsValue digits * if gb then 1024 else 1)
  | .type, value | .vendor, value => (clean value).map fun _ => .text value
  | .speedMt, value =>
      if leadingDigits value = [] then none else some (.number (digitsValue (leadingDigits value)))
  | .model, value => (clean value).map .text

/-- What the lines of a section say of a key. -/
def stated (section_ : List (List Char)) (key : ModuleKey) : Option ModuleEntry :=
  ((section_.map fieldOf).lookup (dmiKey key)).bind (entryOf key)

/-- The module of a section, if that has a size. -/
def expectedModule (section_ : List (List Char)) : Option MemoryModule :=
  if (stated section_ .sizeMb).isSome then some (stated section_) else none

/-- The lines of the sections `Memory Device`. -/
def memorySections : List (List Char) → List (List (List Char))
  | [] => []
  | line :: lines =>
    if line = deviceTitle then
      lines.takeWhile isIndented :: memorySections lines
    else memorySections lines

/-- The line is about the key. -/
def About (key : ModuleKey) (line : List Char) : Prop := (fieldOf line).1 = dmiKey key

instance decidableAbout (key : ModuleKey) (line : List Char) : Decidable (About key line) :=
  inferInstanceAs (Decidable ((fieldOf line).1 = dmiKey key))

/-- No key has two lines. -/
def StatesOnce (section_ : List (List Char)) : Prop :=
  ∀ key, section_.countP (About key) ≤ 1

/-- An output of `dmidecode -t memory`: no section states a key twice. -/
structure DmidecodeText where
  text : List Char
  once : ∀ section_ ∈ memorySections (splitlines text), StatesOnce section_

/-- The modules of the sections that have a size. -/
def DmidecodeText.populated (d : DmidecodeText) : List MemoryModule :=
  (memorySections (splitlines d.text)).filterMap expectedModule

/-! ## What a line says -/

/-- What a line says of a key. -/
def lineStates (key : ModuleKey) (line : List Char) : Option ModuleEntry :=
  if About key line then entryOf key (fieldOf line).2 else none

/-- What the lines say first of a key. -/
def firstStated (lines : List (List Char)) (key : ModuleKey) : Option ModuleEntry :=
  lines.findSome? (lineStates key)

/-- Where a key has one line, that says what is stated. -/
theorem stated_eq_firstStated {lines : List (List Char)} (h : StatesOnce lines) :
    stated lines = firstStated lines := by
  funext key
  have hkey := h key
  clear h
  unfold stated firstStated
  induction lines with
  | nil => rfl
  | cons line lines ih =>
    rw [List.map_cons, List.findSome?_cons]
    by_cases habout : About key line
    · have hrest : lines.findSome? (lineStates key) = none := by
        rw [List.countP_cons_of_pos (by simpa using habout)] at hkey
        have hnone : lines.countP (About key) = 0 := by omega
        rw [List.findSome?_eq_none_iff]
        intro l hl
        have hnot := List.countP_eq_zero.1 hnone l hl
        exact if_neg (by simpa using hnot)
      have hlookup : (fieldOf line :: lines.map fieldOf).lookup (dmiKey key) =
          some (fieldOf line).2 := by
        rw [List.lookup, habout, beq_self_eq_true]
      rw [hlookup, Option.bind_some, lineStates, if_pos habout, hrest]
      cases entryOf key (fieldOf line).2 <;> rfl
    · have hlookup : (fieldOf line :: lines.map fieldOf).lookup (dmiKey key) =
          (lines.map fieldOf).lookup (dmiKey key) := by
        rw [List.lookup, beq_eq_false_iff_ne.2 (Ne.symm habout)]
      rw [List.countP_cons_of_neg (by simpa using habout)] at hkey
      rw [hlookup, ih hkey, lineStates, if_neg habout]

/-- `int` gives the number that digits stand for. -/
theorem eq_digitsValue_of_intOf {digits : List Char} {n : ℕ} (h : intOf digits = some n) :
    n = digitsValue digits := by
  have hfold (m : ℕ) (hm : digits.foldlM
      (fun n c => (decimal c).map fun d => 10 * n + d) m = some n) :
      n = digits.foldl (fun n c => 10 * n + (decimal c).getD 0) m := by
    clear h
    induction digits generalizing m with
    | nil => exact (Option.some.inj hm).symm
    | cons c digits ih =>
      rw [List.foldlM_cons, Option.bind_eq_bind, Option.bind_eq_some_iff] at hm
      obtain ⟨m', hm', hrest⟩ := hm
      obtain ⟨d, hd, rfl⟩ := Option.map_eq_some_iff.1 hm'
      rw [List.foldl_cons, hd]
      exact ih _ hrest
  unfold intOf at h
  split_ifs at h
  exact hfold 0 h

/-- What an effect says about the line. -/
def LineEffect.Means (line : List Char) : LineEffect → Prop
  | .raises => ∃ key entry, key ≠ .model ∧ lineStates key line = some entry
  | .discards => About .sizeMb line ∧ ∀ key, lineStates key line = none
  | .sets key entry => key ≠ .model ∧ lineStates key line = some entry ∧
      ∀ key' ≠ key, lineStates key' line = none
  | .emits entry => lineStates .model line = some entry ∧
      ∀ key ≠ .model, lineStates key line = none
  | .nothing => ∀ key, lineStates key line = none

theorem lineStates_of_about {key : ModuleKey} {line : List Char} (h : About key line) :
    lineStates key line = entryOf key (fieldOf line).2 := if_pos h

/-- A line about one key says nothing of another. -/
theorem lineStates_of_ne {key key' : ModuleKey} {line : List Char} (h : About key line)
    (hne : key' ≠ key) : lineStates key' line = none :=
  if_neg fun habout => hne (dmiKey_injective (habout.symm.trans h))

/-- A line with digits for an entry sets it, or raises. -/
theorem setsNumber_means {key : ModuleKey} {line digits : List Char} {unit : ℕ}
    (hkey : key ≠ .model) (h : About key line)
    (hentry : entryOf key (fieldOf line).2 = some (.number (digitsValue digits * unit))) :
    (setsNumber key digits unit).Means line := by
  rw [← lineStates_of_about h] at hentry
  unfold setsNumber
  cases hint : intOf digits with
  | none => exact ⟨key, _, hkey, hentry⟩
  | some n =>
    rw [eq_digitsValue_of_intOf hint]
    exact ⟨hkey, hentry, fun key' hne => lineStates_of_ne h hne⟩

/-- **The effect of a line** is what it says. -/
theorem lineEffect_means (line : List Char) : (lineEffect line).Means line := by
  have hclean {value : List Char} (h : clean value ≠ none) : clean value = some (strip value) := by
    unfold clean at h ⊢
    exact if_neg fun hmem => h (if_pos hmem)
  unfold lineEffect
  dsimp only
  split_ifs with hsize htype hspeed hvendor hmodel
  · have habout : About .sizeMb line := hsize
    cases hmatch : matchSize (fieldOf line).2 with
    | none =>
      refine ⟨habout, fun key => ?_⟩
      by_cases hkey : key = .sizeMb
      · rw [hkey, lineStates_of_about habout, entryOf, hmatch, Option.map_none]
      · exact lineStates_of_ne habout hkey
    | some found =>
      refine setsNumber_means (by decide) habout ?_
      rw [entryOf, hmatch, Option.map_some]
  · have habout : About .type line := htype.1
    refine ⟨by decide, ?_, fun key' hne => lineStates_of_ne habout hne⟩
    rw [lineStates_of_about habout, entryOf, hclean htype.2, Option.map_some]
  · have habout : About .speedMt line := hspeed.1
    refine setsNumber_means (by decide) habout ?_
    rw [entryOf, if_neg hspeed.2, Nat.mul_one]
  · have habout : About .vendor line := hvendor.1
    refine ⟨by decide, ?_, fun key' hne => lineStates_of_ne habout hne⟩
    rw [lineStates_of_about habout, entryOf, hclean hvendor.2, Option.map_some]
  · have habout : About .model line := hmodel.1
    refine ⟨?_, fun key' hne => lineStates_of_ne habout hne⟩
    rw [lineStates_of_about habout, entryOf, hclean hmodel.2, Option.map_some]
  · intro key
    refine Option.eq_none_iff_forall_ne_some.2 fun entry hentry => ?_
    by_cases habout : About key line
    · rw [lineStates_of_about habout] at hentry
      cases key with
      | sizeMb => exact hsize habout
      | type =>
        obtain ⟨_, hvalue, -⟩ := Option.map_eq_some_iff.1 hentry
        exact htype ⟨habout, by simp [hvalue]⟩
      | speedMt =>
        rw [entryOf] at hentry
        exact hspeed ⟨habout, fun hnil => by simp [hnil] at hentry⟩
      | vendor =>
        obtain ⟨_, hvalue, -⟩ := Option.map_eq_some_iff.1 hentry
        exact hvendor ⟨habout, by simp [hvalue]⟩
      | model =>
        obtain ⟨_, hvalue, -⟩ := Option.map_eq_some_iff.1 hentry
        exact hmodel ⟨habout, by simp [hvalue]⟩
    · exact absurd (hentry.symm.trans (if_neg habout)) (by simp)

/-! ## What becomes of a module -/

/-- The module is still open behind the line. -/
def LineEffect.leavesOpen : LineEffect → Bool
  | .sets _ _ | .nothing => true
  | _ => false

/-- What leaves a module open. -/
theorem LineEffect.eq_of_leavesOpen {effect : LineEffect} (h : effect.leavesOpen = true) :
    (∃ key entry, effect = .sets key entry) ∨ effect = .nothing := by
  cases effect with
  | sets key entry => exact .inl ⟨key, entry, rfl⟩
  | nothing => exact .inr rfl
  | raises => cases h
  | discards => cases h
  | emits entry => cases h

/-- What ends a module. -/
theorem LineEffect.eq_of_not_leavesOpen {effect : LineEffect} (h : effect.leavesOpen = false) :
    effect = .discards ∨ effect = .raises ∨ ∃ entry, effect = .emits entry := by
  cases effect with
  | sets key entry => cases h
  | nothing => cases h
  | raises => exact .inr (.inl rfl)
  | discards => exact .inl rfl
  | emits entry => exact .inr (.inr ⟨entry, rfl⟩)

theorem LineEffect.means_of_eq {line : List Char} {effect : LineEffect}
    (h : lineEffect line = effect) : effect.Means line := h ▸ lineEffect_means line

/-- A key that one line is about has no other. -/
theorem StatesOnce.not_about {before after : List (List Char)} {line : List Char}
    (h : StatesOnce (before ++ line :: after)) {key : ModuleKey} (habout : About key line) :
    ∀ l, l ∈ before ∨ l ∈ after → ¬ About key l := by
  have hkey := h key
  rw [List.countP_append, List.countP_cons_of_pos (by simpa using habout)] at hkey
  have hbefore : before.countP (About key) = 0 := by omega
  have hafter : after.countP (About key) = 0 := by omega
  rintro l (hl | hl)
  · simpa using List.countP_eq_zero.1 hbefore l hl
  · simpa using List.countP_eq_zero.1 hafter l hl

theorem about_of_lineStates {key : ModuleKey} {line : List Char} {entry : ModuleEntry}
    (h : lineStates key line = some entry) : About key line := by
  by_contra hnot
  exact absurd (h.symm.trans (if_neg hnot)) (by simp)

theorem firstStated_eq_none {lines : List (List Char)} {key : ModuleKey}
    (h : ∀ l ∈ lines, ¬ About key l) : firstStated lines key = none :=
  List.findSome?_eq_none_iff.2 fun l hl => if_neg (h l hl)

theorem firstStated_append (before after : List (List Char)) (key : ModuleKey) :
    firstStated (before ++ after) key =
      (firstStated before key).or (firstStated after key) := List.findSome?_append

theorem firstStated_cons (line : List Char) (lines : List (List Char)) (key : ModuleKey) :
    firstStated (line :: lines) key = (lineStates key line).or (firstStated lines key) := by
  rw [firstStated, List.findSome?_cons]
  cases lineStates key line <;> rfl

theorem StatesOnce.of_append_left {before after : List (List Char)}
    (h : StatesOnce (before ++ after)) : StatesOnce before := by
  intro key
  have hkey := h key
  rw [List.countP_append] at hkey
  omega

/-- **Lines that leave a module open** give it what they say. -/
theorem finish_append_of_open {before : List (List Char)} (honce : StatesOnce before)
    (hopen : ∀ l ∈ before, (lineEffect l).leavesOpen = true) (m : MemoryModule)
    (rest : List (List Char)) :
    finish m (before ++ rest) = finish (fun key => (firstStated before key).or (m key)) rest := by
  induction before generalizing m with
  | nil => rfl
  | cons line before ih =>
    obtain ⟨hline, hbefore⟩ := List.forall_mem_cons.1 hopen
    have honce' : StatesOnce before := by
      intro key
      exact (List.Sublist.countP_le (List.sublist_cons_self line before)).trans (honce key)
    rw [List.cons_append, finish]
    obtain ⟨key, entry, heffect⟩ | heffect := LineEffect.eq_of_leavesOpen hline
    · obtain ⟨-, hstates, hothers⟩ := LineEffect.means_of_eq heffect
      rw [heffect]
      refine (ih honce' hbefore (m.set key entry)).trans (congrArg (finish · rest) ?_)
      funext key'
      rw [firstStated_cons]
      by_cases hkey : key' = key
      · have hnone : firstStated before key = none :=
          firstStated_eq_none fun l hl => @StatesOnce.not_about [] before line honce key
            (about_of_lineStates hstates) l (.inr hl)
        rw [hkey, hnone, hstates, Option.none_or, Option.some_or, Option.some_or]
        exact m.set_self key entry
      · rw [hothers key' hkey, Option.none_or]
        rw [m.set_of_ne hkey]
    · have hstates := LineEffect.means_of_eq heffect
      rw [heffect]
      refine (ih honce' hbefore m).trans (congrArg (finish · rest) ?_)
      funext key
      rw [firstStated_cons, hstates key, Option.none_or]

/-- Lines that leave a module open only change it. -/
theorem exists_finish_append {before : List (List Char)}
    (hopen : ∀ l ∈ before, (lineEffect l).leavesOpen = true) (m : MemoryModule)
    (rest : List (List Char)) : ∃ m', finish m (before ++ rest) = finish m' rest := by
  induction before generalizing m with
  | nil => exact ⟨m, rfl⟩
  | cons line before ih =>
    obtain ⟨hline, hbefore⟩ := List.forall_mem_cons.1 hopen
    rw [List.cons_append, finish]
    obtain ⟨key, entry, heffect⟩ | heffect := LineEffect.eq_of_leavesOpen hline
    · rw [heffect]
      exact ih hbefore (m.set key entry)
    · rw [heffect]
      exact ih hbefore m

/-- The first line that raises or sends the module off, if any, stands behind one that
discards it. -/
def Dropped (lines : List (List Char)) : Prop :=
  ∀ before line after, lines = before ++ line :: after →
    (lineEffect line = .raises ∨ ∃ entry, lineEffect line = .emits entry) →
    ∃ l ∈ before, lineEffect l = .discards

/-- **A module is not sent off** exactly when it is discarded before. -/
theorem finish_eq_none_iff (m : MemoryModule) (lines : List (List Char)) :
    finish m lines = some none ↔ Dropped lines := by
  have hends {line : List Char}
      (h : lineEffect line = .raises ∨ ∃ entry, lineEffect line = .emits entry) :
      (lineEffect line).leavesOpen = false ∧ lineEffect line ≠ .discards := by
    rcases h with h | ⟨entry, h⟩ <;> simp [h, LineEffect.leavesOpen]
  rcases Traverse.all_or_cut (fun l => (lineEffect l).leavesOpen) lines with
    hopen | ⟨before, line, after, rfl, hopen, hcloses⟩
  · obtain ⟨m', hm'⟩ := exists_finish_append hopen m []
    rw [List.append_nil] at hm'
    refine ⟨fun _ => ?_, fun _ => hm'⟩
    rintro before line after rfl heffect
    have hline := hopen line (List.mem_append_right _ List.mem_cons_self)
    exact absurd hline (by simp [(hends heffect).1])
  · obtain ⟨m', hm'⟩ := exists_finish_append hopen m (line :: after)
    rw [hm', finish]
    obtain heffect | heffect := LineEffect.eq_of_not_leavesOpen hcloses
    · rw [heffect]
      refine ⟨fun _ => ?_, fun _ => rfl⟩
      intro before' line' after' heq hcloses'
      obtain ⟨hline', hnot⟩ := hends hcloses'
      rcases Traverse.eq_or_mem_of_cut heq hopen hline' with rfl | hmem
      · exact absurd heffect hnot
      · exact ⟨line, hmem, heffect⟩
    · -- nothing in front of the line discards the module
      have hkept : ¬ Dropped (before ++ line :: after) := by
        intro h
        obtain ⟨l, hl, hdiscards⟩ := h before line after rfl heffect
        have hl' := hopen l hl
        rw [hdiscards] at hl'
        cases hl'
      refine ⟨fun h => ?_, fun h => absurd h hkept⟩
      rcases heffect with heffect | ⟨entry, heffect⟩
      · rw [heffect] at h
        cases h
      · rw [heffect] at h
        cases h

/-! ## Sections -/

section

variable {own : List (List Char)}

/-- A section with a size has no line that discards the module. -/
theorem not_discards (honce : StatesOnce own) (hsize : (stated own .sizeMb).isSome = true) :
    ∀ l ∈ own, lineEffect l ≠ .discards := by
  intro l hl heffect
  obtain ⟨before, after, rfl⟩ := List.append_of_mem hl
  obtain ⟨habout, hstates⟩ := LineEffect.means_of_eq heffect
  have hothers := honce.not_about habout
  have hnone : firstStated (before ++ l :: after) .sizeMb = none := by
    rw [firstStated_append, firstStated_cons, hstates,
      firstStated_eq_none fun l' hl' => hothers l' (.inl hl'),
      firstStated_eq_none fun l' hl' => hothers l' (.inr hl')]
    rfl
  rw [stated_eq_firstStated honce, hnone] at hsize
  cases hsize

/-- A section with a size and a part number has a first line that ends the module. -/
theorem exists_closing (honce : StatesOnce own) (hsize : (stated own .sizeMb).isSome = true)
    (hmodel : (stated own .model).isSome = true) :
    ∃ before line after, own = before ++ line :: after ∧
      (∀ l ∈ before, (lineEffect l).leavesOpen = true) ∧
      (lineEffect line = .raises ∨ ∃ entry, lineEffect line = .emits entry) := by
  rcases Traverse.all_or_cut (fun l => (lineEffect l).leavesOpen) own with
    hopen | ⟨before, line, after, heq, hopen, hcloses⟩
  · exfalso
    rw [stated_eq_firstStated honce] at hmodel
    obtain ⟨entry, hentry⟩ := Option.isSome_iff_exists.1 hmodel
    obtain ⟨l, hl, hstates⟩ := List.exists_of_findSome?_eq_some hentry
    obtain ⟨key, entry', heffect⟩ | heffect := LineEffect.eq_of_leavesOpen (hopen l hl)
    · obtain ⟨hkey, -, hothers⟩ := LineEffect.means_of_eq heffect
      exact absurd (hstates.symm.trans (hothers .model hkey.symm)) (by simp)
    · exact absurd (hstates.symm.trans (LineEffect.means_of_eq heffect .model)) (by simp)
  · refine ⟨before, line, after, heq, hopen, ?_⟩
    have hnot := not_discards honce hsize line (heq ▸ List.mem_append_right _ List.mem_cons_self)
    exact (LineEffect.eq_of_not_leavesOpen hcloses).resolve_left hnot

/-- The part number is the last line of the section that counts, and `int` raises on none in
front of it. -/
def Complete (own : List (List Char)) : Prop :=
  ∃ before line after entry, own = before ++ line :: after ∧ lineEffect line = .emits entry ∧
    (∀ l ∈ before, lineEffect l ≠ .raises) ∧ ∀ l ∈ after, lineEffect l = .nothing

/-- A section with a size and a part number has its module sent off, unless `int` raises. -/
theorem exists_finish_eq_some {rest : List (List Char)} (honce : StatesOnce own)
    (hsize : (stated own .sizeMb).isSome = true) (hmodel : (stated own .model).isSome = true)
    (hsome : finish .empty (own ++ rest) ≠ none) :
    ∃ m, finish .empty (own ++ rest) = some (some m) := by
  obtain ⟨before, line, after, rfl, hopen, heffect⟩ := exists_closing honce hsize hmodel
  rw [List.append_assoc, finish_append_of_open honce.of_append_left hopen, List.cons_append,
    finish] at hsome ⊢
  rcases heffect with hraises | ⟨entry, hemits⟩
  · rw [hraises] at hsome
    exact absurd rfl hsome
  · rw [hemits]
    exact ⟨_, rfl⟩

/-- What is stated up to the part number, and of which key. -/
theorem firstStated_of_emits {before after : List (List Char)} {line : List Char}
    {entry : ModuleEntry}
    (honce : StatesOnce (before ++ line :: after)) (hemits : lineEffect line = .emits entry)
    (key : ModuleKey) :
    firstStated (before ++ line :: after) key =
      (MemoryModule.set (fun key => (firstStated before key).or (MemoryModule.empty key))
        .model entry key).or (firstStated after key) := by
  obtain ⟨hstates, hothers⟩ := LineEffect.means_of_eq hemits
  rw [firstStated_append, firstStated_cons]
  by_cases hkey : key = .model
  · have hnone : firstStated before .model = none :=
      firstStated_eq_none fun l hl =>
        honce.not_about (about_of_lineStates hstates) l (.inl hl)
    rw [hkey, hstates, hnone, MemoryModule.set_self, Option.none_or]
  · rw [hothers key hkey, MemoryModule.set_of_ne _ hkey, Option.none_or]
    exact congrArg (Option.or · (firstStated after key)) (Option.or_none).symm

/-- A module that is sent off has a model. -/
theorem isSome_model_of_finish {m m' : MemoryModule} {lines : List (List Char)}
    (h : finish m lines = some (some m')) : (m' .model).isSome = true := by
  induction lines generalizing m with
  | nil => cases h
  | cons line lines ih =>
    rw [finish] at h
    cases heffect : lineEffect line with
    | raises =>
      rw [heffect] at h
      cases h
    | discards =>
      rw [heffect] at h
      cases h
    | sets key entry =>
      rw [heffect] at h
      exact ih h
    | emits entry =>
      rw [heffect] at h
      obtain rfl := Option.some.inj (Option.some.inj h)
      rw [MemoryModule.set_self]
      rfl
    | nothing =>
      rw [heffect] at h
      exact ih h

/-- If the module has all that the section states, nothing is stated behind the part number. -/
theorem silent_of_emits {before after : List (List Char)} {line : List Char} {entry : ModuleEntry}
    (honce : StatesOnce (before ++ line :: after)) (hemits : lineEffect line = .emits entry)
    (hmodule : MemoryModule.set (fun key => (firstStated before key).or (MemoryModule.empty key))
      .model entry = firstStated (before ++ line :: after)) :
    ∀ l ∈ after, ∀ key, lineStates key l = none := by
  intro l hl key
  refine Option.eq_none_iff_forall_ne_some.2 fun entry' hstates => ?_
  obtain ⟨after, after', rfl⟩ := List.append_of_mem hl
  have honce' : StatesOnce ((before ++ line :: after) ++ l :: after') := by
    rwa [List.append_assoc, List.cons_append]
  have hothers := honce'.not_about (about_of_lineStates hstates)
  have hkey : key ≠ .model := by
    rintro rfl
    exact hothers line (.inl (by simp))
      (about_of_lineStates (LineEffect.means_of_eq hemits).1)
  have hbefore : firstStated before key = none :=
    firstStated_eq_none fun l' hl' => hothers l' (.inl (by simp [hl']))
  have hafter : firstStated (after ++ l :: after') key = some entry' := by
    rw [firstStated_append, firstStated_cons, hstates,
      firstStated_eq_none fun l' hl' => hothers l' (.inl (by simp [hl']))]
    rfl
  have hentry := congrFun hmodule key
  rw [firstStated_of_emits honce hemits, MemoryModule.set_of_ne _ hkey, hbefore, hafter] at hentry
  cases hentry

/-- A line that says nothing does nothing, unless it discards the module. -/
theorem lineEffect_of_silent {l : List Char} (hsilent : ∀ key, lineStates key l = none)
    (hdiscards : lineEffect l ≠ .discards) : lineEffect l = .nothing := by
  have hnot {key : ModuleKey} {entry : ModuleEntry} : lineStates key l ≠ some entry := by
    rw [hsilent key]
    exact (Option.some_ne_none entry).symm
  have hmeans := lineEffect_means l
  cases heffect : lineEffect l with
  | raises =>
    rw [heffect] at hmeans
    obtain ⟨key, entry, -, hstates⟩ := hmeans
    exact absurd hstates hnot
  | discards => exact absurd heffect hdiscards
  | sets key entry =>
    rw [heffect] at hmeans
    exact absurd hmeans.2.1 hnot
  | emits entry =>
    rw [heffect] at hmeans
    exact absurd hmeans.1 hnot
  | nothing => rfl

/-- In front of the part number of a section with a size, only `int` ends the module. -/
theorem leavesOpen_of_emits {before after : List (List Char)} {line : List Char}
    {entry : ModuleEntry} (honce : StatesOnce (before ++ line :: after))
    (hsize : (stated (before ++ line :: after) .sizeMb).isSome = true)
    (hemits : lineEffect line = .emits entry) (hraises : ∀ l ∈ before, lineEffect l ≠ .raises) :
    ∀ l ∈ before, (lineEffect l).leavesOpen = true := by
  intro l hl
  by_contra hcloses
  obtain heffect | heffect | ⟨entry', heffect⟩ :=
    LineEffect.eq_of_not_leavesOpen (Bool.eq_false_iff.2 hcloses)
  · exact not_discards honce hsize l (List.mem_append_left _ hl) heffect
  · exact hraises l hl heffect
  · -- the part number is stated once
    exact honce.not_about (about_of_lineStates (LineEffect.means_of_eq hemits).1) l (.inl hl)
      (about_of_lineStates (LineEffect.means_of_eq heffect).1)

/-- **The module sent off is that of the section** exactly when the part number comes last. -/
theorem finish_eq_stated_iff (honce : StatesOnce own)
    (hsize : (stated own .sizeMb).isSome = true) (rest : List (List Char)) :
    finish .empty (own ++ rest) = some (some (stated own)) ↔ Complete own := by
  constructor
  · intro h
    obtain ⟨before, line, after, rfl, hopen, heffect⟩ :=
      exists_closing honce hsize (isSome_model_of_finish h)
    rw [List.append_assoc, finish_append_of_open honce.of_append_left hopen, List.cons_append,
      finish] at h
    rcases heffect with heffect | ⟨entry, hemits⟩
    · rw [heffect] at h
      cases h
    · rw [hemits, stated_eq_firstStated honce] at h
      have hsilent := silent_of_emits honce hemits (Option.some.inj (Option.some.inj h))
      refine ⟨before, line, after, entry, rfl, hemits, ?_, fun l hl => ?_⟩
      · intro l hl hraises
        have hl' := hopen l hl
        rw [hraises] at hl'
        cases hl'
      · exact lineEffect_of_silent (hsilent l hl) (not_discards honce hsize l (by simp [hl]))
  · rintro ⟨before, line, after, entry, rfl, hemits, hraises, hafter⟩
    have hopen := leavesOpen_of_emits honce hsize hemits hraises
    rw [List.append_assoc, finish_append_of_open honce.of_append_left hopen, List.cons_append,
      finish, hemits]
    refine congrArg (fun m => some (some m)) (funext fun key => ?_)
    have hnone : firstStated after key = none :=
      List.findSome?_eq_none_iff.2 fun l hl => LineEffect.means_of_eq (hafter l hl) key
    rw [stated_eq_firstStated honce, firstStated_of_emits honce hemits, hnone, Option.or_none]

end

/-! ## All sections -/

/-- The module of the section at the head of a block. -/
def MemoryBlock.expected (b : MemoryBlock) : Option MemoryModule :=
  if b.title = deviceTitle then expectedModule b.own else none

/-- The sections `Memory Device` are those at the heads of the blocks with that title. -/
theorem memorySections_eq (lines : List (List Char)) :
    memorySections lines =
      ((memoryBlocks lines).filter fun b => b.title = deviceTitle).map
        MemoryBlock.own := by
  induction lines with
  | nil => rfl
  | cons line lines ih =>
    rw [memorySections, memoryBlocks]
    by_cases hopens : opensModule line = true
    · rw [if_pos hopens]
      by_cases htitle : line = deviceTitle
      · rw [if_pos htitle, List.filter_cons_of_pos (by simpa using htitle), List.map_cons, ih]
      · rw [if_neg htitle, List.filter_cons_of_neg (by simpa using htitle), ih]
    · have htitle : line ≠ deviceTitle := by
        rintro rfl
        exact hopens (List.isPrefixOf_iff_prefix.2 List.prefix_rfl)
      rw [if_neg hopens, if_neg htitle, ih]

theorem filterMap_expected (lines : List (List Char)) :
    (memorySections lines).filterMap expectedModule =
      (memoryBlocks lines).filterMap MemoryBlock.expected := by
  rw [memorySections_eq, List.filterMap_map, List.filterMap_filter]
  refine List.filterMap_congr fun b _ => ?_
  unfold MemoryBlock.expected
  by_cases htitle : b.title = deviceTitle
  · rw [if_pos htitle, if_pos (by simpa using htitle)]
    rfl
  · rw [if_neg htitle, if_neg (by simpa using htitle)]

/-- The lines right below the title come first. -/
theorem own_prefix_lines {lines : List (List Char)} {b : MemoryBlock}
    (h : b ∈ memoryBlocks lines) : b.own <+: b.lines := by
  induction lines with
  | nil => cases h
  | cons line lines ih =>
    rw [memoryBlocks] at h
    split_ifs at h with hopens
    · rcases List.mem_cons.1 h with rfl | hmem
      · exact own_isPrefix lines
      · exact ih hmem
    · exact ih h

namespace DmidecodeText

/-- The blocks of the text. -/
def blocks (d : DmidecodeText) : List MemoryBlock := memoryBlocks (splitlines d.text)

theorem statesOnce {d : DmidecodeText} {b : MemoryBlock} (h : b ∈ d.blocks)
    (htitle : b.title = deviceTitle) : StatesOnce b.own := by
  refine d.once b.own ?_
  rw [memorySections_eq]
  exact List.mem_map_of_mem (List.mem_filter.2 ⟨h, by simpa using htitle⟩)

/-- A block whose section has a size. -/
theorem of_expected_eq_some {d : DmidecodeText} {b : MemoryBlock} (h : b ∈ d.blocks)
    {m : MemoryModule} (hm : b.expected = some m) :
    StatesOnce b.own ∧ (stated b.own .sizeMb).isSome = true ∧ m = stated b.own := by
  unfold MemoryBlock.expected at hm
  split_ifs at hm with htitle
  unfold expectedModule at hm
  split_ifs at hm with hsize
  exact ⟨statesOnce h htitle, hsize, (Option.some.inj hm).symm⟩

/-- **A block gives the module of its section.** -/
theorem finished_eq_expected_iff {d : DmidecodeText} {b : MemoryBlock} (h : b ∈ d.blocks) :
    b.finished = some b.expected ↔
      (b.expected ≠ none → Complete b.own) ∧ (b.expected = none → Dropped b.lines) := by
  cases hexpected : b.expected with
  | none =>
    rw [MemoryBlock.finished, finish_eq_none_iff]
    simp
  | some m =>
    obtain ⟨honce, hsize, rfl⟩ := of_expected_eq_some h hexpected
    obtain ⟨rest, hrest⟩ := own_prefix_lines h
    rw [MemoryBlock.finished, ← hrest, finish_eq_stated_iff honce hsize]
    simp

/-- **The modules are those of the sections** exactly when each block gives that of its own. -/
theorem parse_eq_populated_iff (d : DmidecodeText) :
    parseDmidecodeMemory d.text = some d.populated ↔
      ∀ b ∈ d.blocks, b.finished = some b.expected := by
  rw [parseDmidecodeMemory_eq, populated, filterMap_expected]
  show (d.blocks.mapM MemoryBlock.finished).map _ = some (d.blocks.filterMap _) ↔ _
  constructor
  · intro h
    obtain ⟨found, hfound, heq⟩ := Option.map_eq_some_iff.1 h
    have hsome := Traverse.exists_mapM_iff.1 ⟨found, hfound⟩
    have hvalues : found.map id = d.blocks.map fun b => b.finished.join :=
      Traverse.map_of_mapM hfound fun b _ result hresult => by rw [hresult, Option.join_some, id]
    rw [List.map_id] at hvalues
    rw [hvalues, List.filterMap_map] at heq
    have hall : ∀ b ∈ d.blocks, b.expected.isSome = true → b.finished.join.isSome = true := by
      intro b hb hexpected
      obtain ⟨m, hm⟩ := Option.isSome_iff_exists.1 hexpected
      obtain ⟨honce, hsize, rfl⟩ := of_expected_eq_some hb hm
      have hmem : stated b.own ∈ d.blocks.filterMap MemoryBlock.expected :=
        List.mem_filterMap.2 ⟨b, hb, hm⟩
      rw [← heq] at hmem
      obtain ⟨b', hb', hb''⟩ := List.mem_filterMap.1 hmem
      have hmodel := isSome_model_of_finish (Option.join_eq_some_iff.1 hb'')
      obtain ⟨rest, hrest⟩ := own_prefix_lines hb
      have hne := hsome b hb
      rw [MemoryBlock.finished, ← hrest] at hne
      obtain ⟨m, hm'⟩ := exists_finish_eq_some honce hsize hmodel hne
      rw [MemoryBlock.finished, ← hrest, hm']
      rfl
    have hblocks := (Traverse.filterMap_eq_iff hall).1 heq
    intro b hb
    obtain ⟨result, hresult⟩ := Option.ne_none_iff_exists'.1 (hsome b hb)
    have hb' := hblocks b hb
    rw [hresult, Option.join_some] at hb'
    rw [hresult, hb']
  · intro h
    have hfound : d.blocks.mapM MemoryBlock.finished =
        some (d.blocks.map MemoryBlock.expected) :=
      Traverse.mapM_eq_some_iff.2
        (List.forall₂_map_right_iff.2 (List.forall₂_same.2 h))
    rw [hfound, Option.map_some, List.filterMap_map]
    rfl

end DmidecodeText

/-- **One RAM module is reported for each populated slot**, with what its own lines say, exactly
when in every section with a size the part number is the last line that counts, and no section
without one is sent off with what follows it. -/
theorem ram_modules_iff (d : DmidecodeText) :
    parseDmidecodeMemory d.text = some d.populated ↔
    ∀ b ∈ d.blocks,
      (b.expected ≠ none → Complete b.own) ∧ (b.expected = none → Dropped b.lines) := by
  rw [d.parse_eq_populated_iff]
  exact forall₂_congr fun b hb => DmidecodeText.finished_eq_expected_iff hb

/-- A module of 16 GB without a part number. -/
def unnamedModule : List Char :=
  ("Handle 0x0040, DMI type 17, 84 bytes\nMemory Device\n\tSize: 16 GB\n" ++
    "\tType: DDR4\n\tPart Number: Not Specified\n").toList

/-- **A module without a part number** is not reported. -/
theorem unnamed_module_is_lost :
    ¬ ∀ d : DmidecodeText, parseDmidecodeMemory d.text = some d.populated := by
  intro h
  have honce : ∀ section_ ∈ memorySections (splitlines unnamedModule), StatesOnce section_ := by
    have hsections : memorySections (splitlines unnamedModule) =
        [["\tSize: 16 GB".toList, "\tType: DDR4".toList,
          "\tPart Number: Not Specified".toList]] := by decide +kernel
    rw [hsections]
    intro section_ hsection key
    rw [List.mem_singleton.1 hsection]
    cases key <;> decide +kernel
  have hmodules := h { text := unnamedModule, once := honce }
  have hparsed : (parseDmidecodeMemory unnamedModule).map List.length = some 0 := by
    decide +kernel
  have hlength : ((memorySections (splitlines unnamedModule)).filterMap expectedModule).length =
      1 := by decide +kernel
  rw [hmodules, Option.map_some, DmidecodeText.populated, hlength] at hparsed
  cases hparsed

end OoAgent
