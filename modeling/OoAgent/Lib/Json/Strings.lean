import Mathlib

/-!
# JSON strings

String literals in ASCII: what needs no escape stands for itself, a few characters have a
letter of their own, and everything else is written in UTF-16 code units of four hexadecimal
digits, the characters beyond the first plane as a surrogate pair.

* `escapeChar`, `scanChar` — one character of a literal, written and read;
  `scanChar_escapeChar` — **the round trip** of it.
* `scanString` — a literal up to its closing quote; `scanString_escape` — the round trip.
-/

namespace Json

/-! ## Hexadecimal digits -/

/-- Four hexadecimal digits. -/
def hex4 (n : ℕ) : List Char :=
  [Nat.digitChar (n / 4096), Nat.digitChar (n / 256 % 16), Nat.digitChar (n / 16 % 16),
    Nat.digitChar (n % 16)]

/-- A hexadecimal digit of either case. -/
def readHex (c : Char) : Option ℕ :=
  if '0' ≤ c ∧ c ≤ '9' then some (c.toNat - 48)
  else if 'a' ≤ c ∧ c ≤ 'f' then some (c.toNat - 87)
  else if 'A' ≤ c ∧ c ≤ 'F' then some (c.toNat - 55)
  else none

/-- Four hexadecimal digits at the front of a text. -/
def readHex4 : List Char → Option (ℕ × List Char)
  | a :: b :: c :: d :: rest => do
    let a ← readHex a
    let b ← readHex b
    let c ← readHex c
    let d ← readHex d
    pure (a * 4096 + b * 256 + c * 16 + d, rest)
  | _ => none

theorem readHex_digitChar : ∀ d < 16, readHex (Nat.digitChar d) = some d := by decide

theorem readHex4_hex4 {n : ℕ} (h : n < 65536) (rest : List Char) :
    readHex4 (hex4 n ++ rest) = some (n, rest) := by
  have hvalue : n / 4096 * 4096 + n / 256 % 16 * 256 + n / 16 % 16 * 16 + n % 16 = n := by omega
  simp only [hex4, List.cons_append, List.nil_append, readHex4,
    readHex_digitChar (n / 4096) (by omega), readHex_digitChar (n / 256 % 16) (by omega),
    readHex_digitChar (n / 16 % 16) (by omega), readHex_digitChar (n % 16) (by omega),
    Option.bind_eq_bind, Option.bind_some, hvalue]
  rfl

/-! ## One character -/

/-- The characters that have a letter of their own behind a backslash. -/
def letters : List (Char × Char) :=
  [('"', '"'), ('\\', '\\'), ('\n', 'n'), ('\r', 'r'), ('\t', 't'), ('\x0c', 'f'), ('\x08', 'b')]

/-- A code unit behind a backslash. -/
def unit (n : ℕ) : List Char := '\\' :: 'u' :: hex4 n

/-- One character of a literal. -/
def escapeChar (c : Char) : List Char :=
  match letters.lookup c with
  | some letter => ['\\', letter]
  | none =>
    if 32 ≤ c.toNat ∧ c.toNat ≤ 126 then [c]
    else if c.toNat < 65536 then unit c.toNat
    else unit (55296 + (c.toNat - 65536) / 1024) ++ unit (56320 + (c.toNat - 65536) % 1024)

/-- The character of a letter behind a backslash; a slash may be escaped as well. -/
def ofLetter (letter : Char) : Option Char :=
  ((('/', '/') :: letters).find? fun p => p.2 = letter).map Prod.fst

/-- A high surrogate: the first half of a character beyond the first plane. -/
def isHigh (n : ℕ) : Bool := decide (55296 ≤ n ∧ n < 56320)

/-- A low surrogate. -/
def isLow (n : ℕ) : Bool := decide (56320 ≤ n ∧ n < 57344)

/-- The second half of a surrogate pair. -/
def scanLow (high : ℕ) : List Char → Option (Char × List Char)
  | '\\' :: 'u' :: rest => do
    let (low, rest) ← readHex4 rest
    if isLow low then
      some (Char.ofNat (65536 + (high - 55296) * 1024 + (low - 56320)), rest)
    else none
  | _ => none

/-- The code units behind a backslash and a `u`; a surrogate must have its other half. -/
def scanUnit (text : List Char) : Option (Char × List Char) := do
  let (n, rest) ← readHex4 text
  if isHigh n then scanLow n rest
  else if isLow n then none
  else some (Char.ofNat n, rest)

/-- What stands behind a backslash. -/
def scanEscape : List Char → Option (Char × List Char)
  | [] => none
  | letter :: rest =>
    if letter = 'u' then scanUnit rest else (ofLetter letter).map fun c => (c, rest)

/-- One character of a literal; control characters must be escaped. -/
def scanChar : List Char → Option (Char × List Char)
  | [] => none
  | c :: rest =>
    if c = '\\' then scanEscape rest else if c.toNat < 32 then none else some (c, rest)

theorem ofLetter_letters : ∀ p ∈ letters, ofLetter p.2 = some p.1 ∧ p.2 ≠ 'u' := by decide

theorem mem_letters {c letter : Char} (h : letters.lookup c = some letter) :
    (c, letter) ∈ letters := by
  obtain ⟨before, after, hletters, -⟩ := List.lookup_eq_some_iff.1 h
  rw [hletters]
  exact List.mem_append_right _ List.mem_cons_self

/-- A character that is no letter is neither a quote nor a backslash. -/
theorem ne_of_lookup {c : Char} (h : letters.lookup c = none) : c ≠ '"' ∧ c ≠ '\\' := by
  constructor
  · rintro rfl
    exact absurd h (by decide)
  · rintro rfl
    exact absurd h (by decide)

theorem scanChar_unit {n : ℕ} (h : n < 65536) (rest : List Char) :
    scanChar (unit n ++ rest) =
      if isHigh n then scanLow n rest
      else if isLow n then none
      else some (Char.ofNat n, rest) := by
  simp only [unit, List.cons_append, scanChar, scanEscape, if_true, scanUnit, readHex4_hex4 h,
    Option.bind_eq_bind, Option.bind_some]

/-- A character is not a surrogate. -/
theorem not_surrogate (c : Char) : isHigh c.toNat = false ∧ isLow c.toNat = false := by
  have hvalid : c.toNat < 55296 ∨ 57343 < c.toNat ∧ c.toNat < 1114112 := c.valid
  constructor <;> simp only [isHigh, isLow, decide_eq_false_iff_not] <;> omega

/-- **The round trip** of one character. -/
theorem scanChar_escapeChar (c : Char) (rest : List Char) :
    scanChar (escapeChar c ++ rest) = some (c, rest) := by
  unfold escapeChar
  split
  · rename_i letter hletter
    obtain ⟨hback, hne⟩ := ofLetter_letters _ (mem_letters hletter)
    simp only [List.cons_append, List.nil_append, scanChar, if_true, scanEscape, if_neg hne, hback,
      Option.map_some]
  · rename_i hnone
    obtain ⟨-, hslash⟩ := ne_of_lookup hnone
    have hvalid : c.toNat < 1114112 := by
      have hchar : c.toNat < 55296 ∨ 57343 < c.toNat ∧ c.toNat < 1114112 := c.valid
      omega
    split
    · rename_i hplain
      rw [List.cons_append, List.nil_append, scanChar, if_neg hslash, if_neg (by omega)]
    · split
      · rename_i hsmall
        obtain ⟨hhigh, hlow⟩ := not_surrogate c
        rw [scanChar_unit hsmall, hhigh, hlow, Char.ofNat_toNat]
        rfl
      · -- a surrogate pair
        rename_i hlarge
        have hhigh : isHigh (55296 + (c.toNat - 65536) / 1024) = true := by
          simp only [isHigh, decide_eq_true_eq]
          omega
        have hlow : isLow (56320 + (c.toNat - 65536) % 1024) = true := by
          simp only [isLow, decide_eq_true_eq]
          omega
        have hvalue : 65536 + (55296 + (c.toNat - 65536) / 1024 - 55296) * 1024 +
            (56320 + (c.toNat - 65536) % 1024 - 56320) = c.toNat := by omega
        rw [List.append_assoc, scanChar_unit (by omega), hhigh, if_pos rfl]
        simp only [unit, List.cons_append, scanLow]
        rw [readHex4_hex4 (by omega), Option.bind_eq_bind, Option.bind_some]
        simp only [hlow, if_true, hvalue, Char.ofNat_toNat]

/-! ## Literals -/

/-- The characters of a literal. -/
def escape (text : List Char) : List Char := text.flatMap escapeChar

/-- A literal behind its opening quote, up to the closing one; `fuel` bounds its characters. -/
def scanString : ℕ → List Char → Option (List Char × List Char)
  | 0, _ => none
  | fuel + 1, text =>
    if text.head? = some '"' then some ([], text.tail)
    else do
      let (c, rest) ← scanChar text
      let (s, rest) ← scanString fuel rest
      pure (c :: s, rest)

/-- No escaped character begins with a quote. -/
theorem head_escapeChar (c : Char) (rest : List Char) :
    (escapeChar c ++ rest).head? ≠ some '"' := by
  have hunit : ∀ n (rest : List Char), (unit n ++ rest).head? = some '\\' := fun n rest => rfl
  unfold escapeChar
  split
  · exact fun h => absurd (Option.some.inj h) (by decide)
  · rename_i hnone
    obtain ⟨hquote, -⟩ := ne_of_lookup hnone
    split
    · exact fun h => hquote (Option.some.inj h)
    · split
      · rw [hunit]
        decide
      · rw [List.append_assoc, hunit]
        decide

/-- **The round trip** of a literal. -/
theorem scanString_escape (text rest : List Char) {fuel : ℕ} (h : text.length < fuel) :
    scanString fuel (escape text ++ '"' :: rest) = some (text, rest) := by
  induction text generalizing fuel with
  | nil =>
    obtain ⟨fuel, rfl⟩ := Nat.exists_eq_succ_of_ne_zero (Nat.ne_of_gt h)
    rfl
  | cons c text ih =>
    obtain ⟨fuel, rfl⟩ := Nat.exists_eq_succ_of_ne_zero (Nat.ne_of_gt (Nat.zero_lt_of_lt h))
    have hrest := @ih fuel (Nat.lt_of_succ_lt_succ h)
    rw [escape, List.flatMap_cons, List.append_assoc, scanString, if_neg (head_escapeChar c _),
      scanChar_escapeChar, Option.bind_eq_bind, Option.bind_some]
    simp only
    rw [← escape, hrest]
    rfl

/-- An escaped character is not empty. -/
theorem length_escape_le (text : List Char) : text.length ≤ (escape text).length := by
  induction text with
  | nil => exact Nat.le_refl _
  | cons c text ih =>
    have hpos : 1 ≤ (escapeChar c).length := by
      unfold escapeChar
      split
      · exact Nat.le_add_left _ _
      · split
        · exact Nat.le_refl _
        · split <;> simp [unit]
    rw [escape, List.flatMap_cons, List.length_append, List.length_cons, ← escape]
    omega

end Json
