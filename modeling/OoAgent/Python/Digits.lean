import OoAgent.Python.Text

/-!
# Python's digits

`str.isdigit` accepts more than `int` does: besides the decimal digits of every
script it accepts superscripts, circled digits and their like, on which `int`
raises `ValueError`.

* `isDigit`, `decimal` — `c.isdigit()` and the value `int` gives to a digit.
* `intOf` — `int(s)` on digits.
* `parseInt` — `int(s)` on any text: white space around it, a sign, and single
  underscores between digits are allowed.
* `AsciiNumber`, `asciiValue` — plain digits and their number; `parseInt_ascii` — `int`
  reads it.
* `strInt` — `str(n)`; `strInt_of_parseInt` — **what `int` reads from a printed number** is that
  number.
* `notMem_of_parseInt` — a text that `int` reads has digits, underscores, a sign and white space.
-/

namespace PyText

/-- The zeros of all scripts; each is followed by the other nine decimal digits. -/
def zeros : List Nat :=
  [48, 1632, 1776, 1984, 2406, 2534, 2662, 2790, 2918, 3046, 3174, 3302, 3430, 3558, 3664, 3792,
    3872, 4160, 4240, 6112, 6160, 6470, 6608, 6784, 6800, 6992, 7088, 7232, 7248, 42528, 43216,
    43264, 43472, 43504, 43600, 44016, 65296, 66720, 68912, 69734, 69872, 69942, 70096, 70384,
    70736, 70864, 71248, 71360, 71472, 71904, 72016, 72784, 73040, 73120, 92768, 92864, 93008,
    120782, 120792, 120802, 120812, 120822, 123200, 123632, 125264, 130032]

/-- The digits that are not decimal, as first and last character of each run. -/
def otherDigits : List (Nat × Nat) :=
  [(178, 179), (185, 185), (4969, 4977), (6618, 6618), (8304, 8304), (8308, 8313), (8320, 8329),
    (9312, 9320), (9332, 9340), (9352, 9360), (9450, 9450), (9461, 9469), (9471, 9471),
    (10102, 10110), (10112, 10120), (10122, 10130), (68160, 68163), (69216, 69224),
    (69714, 69722), (127232, 127242)]

/-- The value of a decimal digit. -/
def decimal (c : Char) : Option Nat :=
  (zeros.find? fun z => z ≤ c.toNat && c.toNat < z + 10).map fun z => c.toNat - z

/-- `c.isdigit()`. -/
def isDigit (c : Char) : Bool :=
  (decimal c).isSome || otherDigits.any fun (first, last) => first ≤ c.toNat && c.toNat ≤ last

/-- `int(s)` on a text of digits; `none` when it raises `ValueError`. -/
def intOf (digits : List Char) : Option Nat :=
  if digits = [] ∨ maxStrDigits < digits.length then none
  else digits.foldlM (fun n c => (decimal c).map fun d => 10 * n + d) 0

/-- The white space `int` skips. -/
def isIntSpace (c : Char) : Bool := isSpace c && !decide (28 ≤ c.toNat ∧ c.toNat ≤ 31)

/-- The digits of a number between its underscores, one of which may stand between two
digits. -/
def unsignedOf (s : List Char) : Option Nat :=
  let groups := split '_' s
  if [] ∈ groups then none else intOf groups.flatten

/-- `int(s)`; `none` when it raises `ValueError`. -/
def parseInt (s : List Char) : Option Int :=
  match (s.dropWhile isIntSpace).rdropWhile isIntSpace with
  | '+' :: digits => (unsignedOf digits).map Int.ofNat
  | '-' :: digits => (unsignedOf digits).map fun n => -(n : Int)
  | digits => (unsignedOf digits).map Int.ofNat

example : parseInt "-1_000 ".toList = some (-1000) := by decide +kernel

/-! ## Plain digits -/

/-- Digits of ASCII, not more of them than `int` reads. -/
def AsciiNumber (digits : List Char) : Prop :=
  digits ≠ [] ∧ (∀ c ∈ digits, c.isDigit = true) ∧ digits.length ≤ maxStrDigits

/-- The number they stand for. -/
def asciiValue (digits : List Char) : Nat :=
  digits.foldl (fun n c => 10 * n + (c.toNat - 48)) 0

theorem toNat_of_ascii {c : Char} (h : c.isDigit = true) : 48 ≤ c.toNat ∧ c.toNat ≤ 57 := by
  rw [Char.isDigit, Bool.and_eq_true, decide_eq_true_eq, decide_eq_true_eq] at h
  exact h

theorem decimal_ascii {c : Char} (h : c.isDigit = true) : decimal c = some (c.toNat - 48) := by
  have hbounds := toNat_of_ascii h
  obtain ⟨others, hzeros⟩ : ∃ others, zeros = 48 :: others := ⟨_, rfl⟩
  rw [decimal, hzeros, List.find?_cons_of_pos, Option.map_some]
  rw [Bool.and_eq_true, decide_eq_true_eq, decide_eq_true_eq]
  omega

theorem isDigit_ascii {c : Char} (h : c.isDigit = true) : isDigit c = true := by
  rw [isDigit, decimal_ascii h]
  rfl

theorem foldlM_ascii {digits : List Char} (h : ∀ c ∈ digits, c.isDigit = true) (n : Nat) :
    digits.foldlM (fun n c => (decimal c).map fun d => 10 * n + d) n =
      some (digits.foldl (fun n c => 10 * n + (c.toNat - 48)) n) := by
  induction digits generalizing n with
  | nil => rfl
  | cons c digits ih =>
    obtain ⟨hc, hrest⟩ := List.forall_mem_cons.1 h
    rw [List.foldlM_cons, decimal_ascii hc, List.foldl_cons]
    exact ih hrest _

theorem intOf_ascii {digits : List Char} (h : AsciiNumber digits) :
    intOf digits = some (asciiValue digits) := by
  obtain ⟨hne, hdigits, hlen⟩ := h
  rw [intOf, if_neg (not_or.2 ⟨hne, not_lt.2 hlen⟩), foldlM_ascii hdigits, asciiValue]

/-- No character of a number is white space. -/
theorem isIntSpace_ascii {c : Char} (h : c.isDigit = true ∨ c = '-') : isIntSpace c = false := by
  have hplain : isSpace c = false := by
    rcases h with hdigit | rfl
    · have hbounds := toNat_of_ascii hdigit
      simp only [isSpace, List.mem_cons, List.not_mem_nil, or_false, decide_eq_false_iff_not]
      omega
    · decide
  rw [isIntSpace, hplain, Bool.false_and]

/-- A text without white space is read as it stands. -/
theorem trim_eq_self {s : List Char} (h : ∀ c ∈ s, isIntSpace c = false) :
    (s.dropWhile isIntSpace).rdropWhile isIntSpace = s := by
  have hleft : s.dropWhile isIntSpace = s := by
    rw [List.dropWhile_eq_self_iff]
    intro hpos
    simpa using h _ (List.getElem_mem hpos)
  rw [hleft, List.rdropWhile_eq_self_iff]
  intro hnil
  simpa using h _ (List.getLast_mem hnil)

/-- **`int` reads plain digits.** -/
theorem parseInt_ascii {digits : List Char} (h : AsciiNumber digits) :
    parseInt digits = some (asciiValue digits : Int) := by
  obtain ⟨hne, hdigits, -⟩ := id h
  have hother (c : Char) (hc : c.isDigit = false) : c ∉ digits := fun hmem =>
    absurd (hdigits c hmem) (by simp [hc])
  have hunsigned : unsignedOf digits = some (asciiValue digits) := by
    rw [unsignedOf, split_of_not_mem (hother '_' (by decide))]
    simpa [hne.symm] using intOf_ascii h
  rw [parseInt, trim_eq_self fun c hc => isIntSpace_ascii (.inl (hdigits c hc))]
  split
  · exact absurd List.mem_cons_self (hother '+' (by decide))
  · exact absurd List.mem_cons_self (hother '-' (by decide))
  · rw [hunsigned]
    rfl

/-! ## Printed numbers -/

/-- `str(n)`. -/
def strInt : ℤ → List Char
  | .ofNat n => Nat.toDigits 10 n
  | .negSucc n => '-' :: Nat.toDigits 10 (n + 1)

theorem isDigit_of_mem_toDigits {n : ℕ} : ∀ c ∈ Nat.toDigits 10 n, c.isDigit = true :=
  fun _ hc => Nat.isDigit_of_mem_toDigits (by decide) (by decide) hc

theorem asciiValue_toDigits (n : ℕ) : asciiValue (Nat.toDigits 10 n) = n :=
  Nat.ofDigitChars_ten_toDigits

/-- Plain digits, as many as they are. -/
theorem unsignedOf_ascii {digits : List Char} {m : ℕ} (hdigits : ∀ c ∈ digits, c.isDigit = true)
    (h : unsignedOf digits = some m) : m = asciiValue digits := by
  have hunderscore : '_' ∉ digits := fun hmem => absurd (hdigits '_' hmem) (by decide)
  rw [unsignedOf, split_of_not_mem hunderscore] at h
  split_ifs at h
  rw [List.flatten_singleton, intOf] at h
  split_ifs at h
  rw [foldlM_ascii hdigits] at h
  exact (Option.some.inj h).symm

/-- **What `int` reads from a printed number** is that number. -/
theorem strInt_of_parseInt {n m : ℤ} (h : parseInt (strInt n) = some m) : m = n := by
  cases n with
  | ofNat n =>
    have hdigits := @isDigit_of_mem_toDigits n
    have hsign (c : Char) (hc : c.isDigit = false) : ∀ rest, Nat.toDigits 10 n ≠ c :: rest := by
      intro rest heq
      have hmem : c ∈ Nat.toDigits 10 n := heq ▸ List.mem_cons_self
      rw [hdigits c hmem] at hc
      cases hc
    rw [strInt, parseInt, trim_eq_self fun c hc => isIntSpace_ascii (.inl (hdigits c hc))] at h
    split at h
    · rename_i rest heq
      exact absurd heq (hsign '+' (by decide) rest)
    · rename_i rest heq
      exact absurd heq (hsign '-' (by decide) rest)
    · obtain ⟨k, hk, rfl⟩ := Option.map_eq_some_iff.1 h
      rw [unsignedOf_ascii hdigits hk, asciiValue_toDigits]
  | negSucc n =>
    have hdigits := @isDigit_of_mem_toDigits (n + 1)
    have hspace : ∀ c ∈ '-' :: Nat.toDigits 10 (n + 1), isIntSpace c = false := by
      intro c hc
      rcases List.mem_cons.1 hc with rfl | hc
      · exact isIntSpace_ascii (.inr rfl)
      · exact isIntSpace_ascii (.inl (hdigits c hc))
    rw [strInt, parseInt, trim_eq_self hspace] at h
    obtain ⟨k, hk, rfl⟩ := Option.map_eq_some_iff.1 h
    obtain ⟨v, hv, hcast⟩ := Option.bind_eq_some_iff.1 hk
    obtain rfl := Option.some.inj hcast
    rw [unsignedOf_ascii hdigits hv, asciiValue_toDigits]
    rfl

theorem mem_flatten_split {sep c : Char} (hc : c ≠ sep) {s : List Char} (h : c ∈ s) :
    c ∈ (split sep s).flatten := by
  induction s with
  | nil => cases h
  | cons d s ih =>
    rw [split]
    by_cases hd : d = sep
    · rw [if_pos hd, List.flatten_cons, List.nil_append]
      exact ih ((List.mem_cons.1 h).resolve_left fun heq => hc (heq.trans hd))
    · rw [if_neg hd]
      cases hsplit : split sep s with
      | nil =>
        rw [hsplit] at ih
        rcases List.mem_cons.1 h with rfl | hmem
        · simp
        · exact absurd (ih hmem) (by simp)
      | cons piece pieces =>
        rw [hsplit] at ih
        rcases List.mem_cons.1 h with rfl | hmem
        · simp
        · have hrest := ih hmem
          rw [List.flatten_cons] at hrest ⊢
          exact List.mem_cons_of_mem d hrest

/-- A number holds decimal digits only. -/
theorem notMem_of_intOf {digits : List Char} {k : ℕ} (h : intOf digits = some k) {c : Char}
    (hdecimal : decimal c = none) : c ∉ digits := by
  intro hmem
  have hfold (l : List Char) (m : ℕ) (hl : c ∈ l) :
      l.foldlM (fun n c => (decimal c).map fun d => 10 * n + d) m = none := by
    induction l generalizing m with
    | nil => cases hl
    | cons d l ih =>
      rw [List.foldlM_cons]
      rcases List.mem_cons.1 hl with rfl | hl
      · rw [hdecimal]
        rfl
      · cases hd : decimal d with
        | none => rfl
        | some v => exact ih _ hl
  unfold intOf at h
  split_ifs at h
  rw [hfold digits 0 hmem] at h
  cases h

theorem notMem_of_unsignedOf {s : List Char} {k : ℕ} (h : unsignedOf s = some k) {c : Char}
    (hdecimal : decimal c = none) (hunderscore : c ≠ '_') : c ∉ s := by
  intro hmem
  unfold unsignedOf at h
  dsimp only at h
  split_ifs at h
  exact notMem_of_intOf h hdecimal (mem_flatten_split hunderscore hmem)

/-- What `int` skips around a number is white space. -/
theorem mem_trim {s : List Char} {c : Char} (hmem : c ∈ s) (hspace : isIntSpace c = false) :
    c ∈ (s.dropWhile isIntSpace).rdropWhile isIntSpace := by
  have hleft : c ∈ s.dropWhile isIntSpace := by
    rw [← List.takeWhile_append_dropWhile (p := isIntSpace) (l := s)] at hmem
    refine (List.mem_append.1 hmem).resolve_left fun htake => ?_
    rw [List.mem_takeWhile_imp htake] at hspace
    cases hspace
  rw [← List.rdropWhile_append_rtakeWhile (p := isIntSpace)
    (l := s.dropWhile isIntSpace)] at hleft
  refine (List.mem_append.1 hleft).resolve_right fun htake => ?_
  rw [List.rtakeWhile, List.mem_reverse] at htake
  rw [List.mem_takeWhile_imp htake] at hspace
  cases hspace

/-- A text that `int` reads holds no other signs. -/
theorem notMem_of_parseInt {s : List Char} {n : ℤ} (h : parseInt s = some n) {c : Char}
    (hspace : isIntSpace c = false) (hdecimal : decimal c = none) (hsign : c ≠ '+' ∧ c ≠ '-')
    (hunderscore : c ≠ '_') : c ∉ s := by
  intro hmem
  have htrim := mem_trim hmem hspace
  unfold parseInt at h
  split at h
  · rename_i digits heq
    rw [heq] at htrim
    obtain ⟨k, hk, -⟩ := Option.map_eq_some_iff.1 h
    exact notMem_of_unsignedOf hk hdecimal hunderscore
      ((List.mem_cons.1 htrim).resolve_left hsign.1)
  · rename_i digits heq
    rw [heq] at htrim
    obtain ⟨k, hk, -⟩ := Option.map_eq_some_iff.1 h
    obtain ⟨v, hv, -⟩ := Option.bind_eq_some_iff.1 hk
    exact notMem_of_unsignedOf hv hdecimal hunderscore
      ((List.mem_cons.1 htrim).resolve_left hsign.2)
  · obtain ⟨k, hk, -⟩ := Option.map_eq_some_iff.1 h
    exact notMem_of_unsignedOf hk hdecimal hunderscore htrim

end PyText
