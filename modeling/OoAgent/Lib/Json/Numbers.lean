import Mathlib

/-!
# JSON numbers

A number as it is written: a sign, a whole part without leading zeros, perhaps a fraction,
perhaps an exponent.  What is not written like that cannot be built.

* `Number` — the spelling of a number, well formed by its type.
* `Number.render`, `scanNumber` — written and read; `scanNumber_render` — **the round trip**.
* `Number.value` — the number a spelling stands for.
-/

namespace Json

/-- The parts of a written number. -/
structure Spelling where
  negative : Bool
  whole : List Char
  /-- The digits behind the point, none without a point. -/
  frac : List Char
  /-- The sign and the digits of the exponent. -/
  exp : Option (Bool × List Char)
  deriving DecidableEq, Repr

/-- Decimal digits only. -/
def AllDigits (text : List Char) : Prop := ∀ c ∈ text, c.isDigit = true

instance instDecidableAllDigits (text : List Char) : Decidable (AllDigits text) :=
  List.decidableBAll _ text

/-- Digits where digits belong, and no zero in front of other digits. -/
def Spelling.Valid (s : Spelling) : Prop :=
  s.whole ≠ [] ∧ (s.whole.head? = some '0' → s.whole = ['0']) ∧ AllDigits s.whole ∧
    AllDigits s.frac ∧ ∀ e ∈ s.exp, e.2 ≠ [] ∧ AllDigits e.2

instance instDecidableValid (s : Spelling) : Decidable s.Valid :=
  inferInstanceAs (Decidable (_ ∧ _ ∧ _ ∧ _ ∧ ∀ e ∈ s.exp, e.2 ≠ [] ∧ AllDigits e.2))

/-- A number as it is written. -/
structure Number extends Spelling where
  valid : toSpelling.Valid
  deriving DecidableEq, Repr

/-! ## Writing -/

/-- The fraction of a number. -/
def renderFrac (frac : List Char) : List Char := if frac = [] then [] else '.' :: frac

/-- The exponent of a number, with its sign. -/
def renderExp : Option (Bool × List Char) → List Char
  | none => []
  | some (negative, digits) => 'e' :: (if negative then '-' else '+') :: digits

/-- The text of a spelling. -/
def Spelling.render (s : Spelling) : List Char :=
  (if s.negative then ['-'] else []) ++ s.whole ++ renderFrac s.frac ++ renderExp s.exp

/-- A number as it is written. -/
def Number.render (n : Number) : List Char := n.toSpelling.render

/-! ## Reading -/

/-- The digits at the front of a text, and what follows them. -/
def scanDigits (text : List Char) : List Char × List Char := text.span Char.isDigit

/-- The whole part: a zero is never followed by more of it. -/
def scanWhole (text : List Char) : List Char × List Char :=
  if text.head? = some '0' then (['0'], text.tail) else scanDigits text

/-- The fraction, if a point and a digit follow. -/
def scanFrac (text : List Char) : List Char × List Char :=
  if text.head? = some '.' ∧ (scanDigits text.tail).1 ≠ [] then scanDigits text.tail
  else ([], text)

/-- The sign in front of the digits of an exponent. -/
def scanSign (text : List Char) : Bool × List Char :=
  if text.head? = some '-' then (true, text.tail)
  else if text.head? = some '+' then (false, text.tail)
  else (false, text)

/-- The exponent, if an `e` and a digit follow. -/
def scanExp (text : List Char) : Option (Bool × List Char) × List Char :=
  let signed := scanSign text.tail
  let digits := scanDigits signed.2
  if (text.head? = some 'e' ∨ text.head? = some 'E') ∧ digits.1 ≠ [] then
    (some (signed.1, digits.1), digits.2)
  else (none, text)

/-- The sign of the number itself. -/
def scanMinus (text : List Char) : Bool × List Char :=
  if text.head? = some '-' then (true, text.tail) else (false, text)

/-- A number at the front of a text. -/
def scanNumber (text : List Char) : Option (Number × List Char) :=
  let minus := scanMinus text
  let whole := scanWhole minus.2
  let frac := scanFrac whole.2
  let exp := scanExp frac.2
  let spelling : Spelling := ⟨minus.1, whole.1, frac.1, exp.1⟩
  if h : spelling.Valid then some (⟨spelling, h⟩, exp.2) else none

/-! ## The round trip -/

/-- A text that does not go on with a number. -/
def EndsNumber (rest : List Char) : Prop :=
  ∀ c ∈ rest.head?, c.isDigit = false ∧ c ≠ '.' ∧ c ≠ 'e' ∧ c ≠ 'E'

theorem scanDigits_append {digits rest : List Char} (hdigits : AllDigits digits)
    (hrest : ∀ c ∈ rest.head?, c.isDigit = false) :
    scanDigits (digits ++ rest) = (digits, rest) := by
  have htake : rest.takeWhile Char.isDigit = [] := by
    cases rest with
    | nil => rfl
    | cons c rest => rw [List.takeWhile_cons_of_neg (by simp [hrest c rfl])]
  have hdrop : rest.dropWhile Char.isDigit = rest := by
    cases rest with
    | nil => rfl
    | cons c rest => rw [List.dropWhile_cons_of_neg (by simp [hrest c rfl])]
  rw [scanDigits, List.span_eq_takeWhile_dropWhile, List.takeWhile_append_of_pos hdigits,
    List.dropWhile_append_of_pos hdigits, htake, hdrop, List.append_nil]

theorem scanWhole_append {whole rest : List Char} (hne : whole ≠ [])
    (hzero : whole.head? = some '0' → whole = ['0']) (hdigits : AllDigits whole)
    (hrest : ∀ c ∈ rest.head?, c.isDigit = false) :
    scanWhole (whole ++ rest) = (whole, rest) := by
  have hhead : (whole ++ rest).head? = whole.head? := List.head?_append_of_ne_nil _ hne
  rw [scanWhole, hhead]
  split
  · rename_i h
    rw [hzero h]
    rfl
  · exact scanDigits_append hdigits hrest

theorem scanFrac_append {frac rest : List Char} (hdigits : AllDigits frac)
    (hrest : ∀ c ∈ rest.head?, c.isDigit = false ∧ c ≠ '.') :
    scanFrac (renderFrac frac ++ rest) = (frac, rest) := by
  unfold renderFrac
  split
  · rename_i hnil
    have hpoint : rest.head? ≠ some '.' := fun h => (hrest '.' h).2 rfl
    rw [List.nil_append, scanFrac, if_neg (fun h => hpoint h.1), hnil]
  · rename_i hne
    have hscan := scanDigits_append hdigits fun c hc => (hrest c hc).1
    rw [scanFrac, List.cons_append, List.tail_cons, hscan, if_pos ⟨rfl, hne⟩]

theorem scanExp_append {exp : Option (Bool × List Char)}
    (hexp : ∀ e ∈ exp, e.2 ≠ [] ∧ AllDigits e.2) {rest : List Char} (hrest : EndsNumber rest) :
    scanExp (renderExp exp ++ rest) = (exp, rest) := by
  cases exp with
  | none =>
    have hnone : ¬ ((rest.head? = some 'e' ∨ rest.head? = some 'E') ∧
        (scanDigits (scanSign rest.tail).2).1 ≠ []) := by
      rintro ⟨h | h, -⟩
      · exact (hrest _ h).2.2.1 rfl
      · exact (hrest _ h).2.2.2 rfl
    exact if_neg hnone
  | some e =>
    obtain ⟨negative, digits⟩ := e
    obtain ⟨hne, hdigits⟩ := hexp _ rfl
    have hsign : scanSign ((if negative then '-' else '+') :: (digits ++ rest)) =
        (negative, digits ++ rest) := by
      cases negative <;> rfl
    have hscan := scanDigits_append hdigits fun c hc => (hrest c hc).1
    simp only [renderExp, List.cons_append, scanExp, List.tail_cons, hsign, hscan]
    exact if_pos ⟨.inl rfl, hne⟩

theorem scanMinus_append {negative : Bool} {whole rest : List Char} (hne : whole ≠ [])
    (hdigits : AllDigits whole) :
    scanMinus ((if negative then ['-'] else []) ++ (whole ++ rest)) =
      (negative, whole ++ rest) := by
  cases negative with
  | true => rfl
  | false =>
    -- the first digit is not a sign
    have hhead : (whole ++ rest).head? ≠ some '-' := by
      rw [List.head?_append_of_ne_nil _ hne]
      intro h
      exact absurd (hdigits _ (List.mem_of_head? h)) (by decide)
    exact if_neg hhead

/-- **The round trip** of a number. -/
theorem scanNumber_render (n : Number) {rest : List Char} (hrest : EndsNumber rest) :
    scanNumber (n.render ++ rest) = some (n, rest) := by
  obtain ⟨hne, hzero, hwhole, hfrac, hexp⟩ := n.valid
  have hafter : ∀ c ∈ (renderExp n.exp ++ rest).head?, c.isDigit = false ∧ c ≠ '.' := by
    cases n.exp with
    | none => exact fun c hc => ⟨(hrest c hc).1, (hrest c hc).2.1⟩
    | some e =>
      intro c hc
      obtain rfl := Option.some.inj hc
      decide
  have hpoint : ∀ c ∈ (renderFrac n.frac ++ (renderExp n.exp ++ rest)).head?,
      c.isDigit = false := by
    unfold renderFrac
    split
    · exact fun c hc => (hafter c hc).1
    · intro c hc
      obtain rfl := Option.some.inj hc
      decide
  have htext : n.render ++ rest = (if n.negative then ['-'] else []) ++
      (n.whole ++ (renderFrac n.frac ++ (renderExp n.exp ++ rest))) := by
    simp [Number.render, Spelling.render, List.append_assoc]
  simp only [scanNumber, htext, scanMinus_append hne hwhole,
    scanWhole_append hne hzero hwhole hpoint, scanFrac_append hfrac hafter,
    scanExp_append hexp hrest]
  exact dif_pos n.valid

/-- A number begins with a digit or a sign. -/
theorem head_render (n : Number) (rest : List Char) :
    ∃ c, (n.render ++ rest).head? = some c ∧ (c.isDigit = true ∨ c = '-' ∧
      ∃ d, (n.render ++ rest).tail.head? = some d ∧ d.isDigit = true) := by
  obtain ⟨hne, -, hdigits, -⟩ := n.valid
  obtain ⟨d, whole, hwhole⟩ := List.exists_cons_of_ne_nil hne
  have hd : d.isDigit = true := hdigits d (by rw [hwhole]; exact List.mem_cons_self)
  simp only [Number.render, Spelling.render, hwhole]
  cases n.negative with
  | true => exact ⟨'-', rfl, .inr ⟨rfl, d, rfl, hd⟩⟩
  | false => exact ⟨d, rfl, .inl hd⟩

/-! ## Values -/

/-- The value of a list of digits. -/
def digitsValue (digits : List Char) : ℕ := Nat.ofDigitChars 10 digits 0

/-- The written exponent. -/
def Spelling.exponent (s : Spelling) : ℤ :=
  match s.exp with
  | none => 0
  | some (negative, digits) => if negative then -digitsValue digits else digitsValue digits

/-- The number a spelling stands for. -/
def Spelling.value (s : Spelling) : ℚ :=
  (if s.negative then -1 else 1) * digitsValue (s.whole ++ s.frac) *
    10 ^ (s.exponent - s.frac.length)

/-- A number without a fraction and without an exponent. -/
def Spelling.isInt (s : Spelling) : Bool := s.frac.isEmpty && s.exp.isNone

end Json
