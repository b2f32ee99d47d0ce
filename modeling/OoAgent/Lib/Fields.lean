import Mathlib

/-!
# Fields of fixed width

Texts such as `2026-07-12` are made of numbers with a fixed number of digits, and of characters
between them.

* `padded` — a number in that many digits.
* `Piece`, `print`, `scan` — the layout of such a text, printing numbers in it, and reading them.
* `cut` — the part of a text that has the layout, for any notion of a digit.
* `scan_eq_some_iff` — **reading is the inverse of printing**.
* `value_shift` — the first digits of a fraction.
-/

namespace Fields

/-! ## Numbers of fixed width -/

/-- The number a text of digits stands for. -/
def value (digits : List Char) : ℕ := Nat.ofDigitChars 10 digits 0

/-- The last digits of a number, that many of them. -/
def padded : ℕ → ℕ → List Char
  | 0, _ => []
  | width + 1, n => padded width (n / 10) ++ [Nat.digitChar (n % 10)]

theorem value_append (l m : List Char) : value (l ++ m) = 10 ^ m.length * value l + value m := by
  rw [value, Nat.ofDigitChars_append, Nat.ofDigitChars_eq_ofDigitChars_zero]
  rfl

theorem value_singleton (c : Char) : value [c] = c.toNat - 48 := by
  rw [value, Nat.ofDigitChars_cons, Nat.ofDigitChars_nil]
  simp

@[simp] theorem length_padded (width n : ℕ) : (padded width n).length = width := by
  induction width generalizing n with
  | zero => rfl
  | succ width ih => rw [padded, List.length_append, ih, List.length_singleton]

theorem isDigit_of_mem_padded {width n : ℕ} {c : Char} (h : c ∈ padded width n) :
    c.isDigit = true := by
  induction width generalizing n with
  | zero => cases h
  | succ width ih =>
    rcases List.mem_append.1 h with h | h
    · exact ih h
    · obtain rfl := List.mem_singleton.1 h
      have hdigit : ∀ d < 10, (Nat.digitChar d).isDigit = true := by decide
      exact hdigit _ (Nat.mod_lt _ (by decide))

theorem value_padded {width n : ℕ} (h : n < 10 ^ width) : value (padded width n) = n := by
  induction width generalizing n with
  | zero =>
    rw [pow_zero, Nat.lt_one_iff] at h
    subst h
    rfl
  | succ width ih =>
    have hdigit : ∀ d < 10, (Nat.digitChar d).toNat - 48 = d := by decide
    have hhead : n / 10 < 10 ^ width := by
      rw [pow_succ] at h
      omega
    rw [padded, value_append, ih hhead, value_singleton, hdigit _ (Nat.mod_lt _ (by decide)),
      List.length_singleton, pow_one]
    omega

theorem value_lt {digits : List Char} (h : ∀ c ∈ digits, c.isDigit = true) :
    value digits < 10 ^ digits.length := by
  induction digits using List.reverseRecOn with
  | nil => decide
  | append_singleton digits c ih =>
    have hc : c.toNat ≤ 57 := by
      have hdigit := h c (by simp)
      rw [Char.isDigit, Bool.and_eq_true, decide_eq_true_eq, decide_eq_true_eq] at hdigit
      exact hdigit.2
    have hinit := ih fun d hd => h d (List.mem_append_left _ hd)
    rw [value_append, value_singleton, List.length_append, List.length_singleton, pow_one,
      pow_succ]
    omega

/-- Digits are those of their number. -/
theorem padded_value {digits : List Char} (h : ∀ c ∈ digits, c.isDigit = true) :
    padded digits.length (value digits) = digits := by
  induction digits using List.reverseRecOn with
  | nil => rfl
  | append_singleton digits c ih =>
    have hdigit := h c (by simp)
    rw [Char.isDigit, Bool.and_eq_true, decide_eq_true_eq, decide_eq_true_eq] at hdigit
    have hlow : 48 ≤ c.toNat := hdigit.1
    have hhigh : c.toNat ≤ 57 := hdigit.2
    have hdiv : (10 ^ 1 * value digits + (c.toNat - 48)) / 10 = value digits := by omega
    have hmod : (10 ^ 1 * value digits + (c.toNat - 48)) % 10 = c.toNat - 48 := by omega
    have hchar : Nat.digitChar (c.toNat - 48) = c := by
      have hall : ∀ k < 10, Nat.digitChar k = Char.ofNat (48 + k) := by decide
      rw [hall _ (by omega), Nat.add_sub_cancel' hlow]
      exact Char.ofNat_toNat c
    rw [List.length_append, List.length_singleton, value_append, value_singleton,
      List.length_singleton, padded, hdiv, hmod, hchar,
      ih fun d hd => h d (List.mem_append_left _ hd)]

/-- The first digits of a fraction, filled up with zeros, are the fraction cut after them. -/
theorem value_shift {digits : List Char} (h : ∀ c ∈ digits, c.isDigit = true) (n : ℕ) :
    value (digits.take n ++ List.replicate (n - digits.length) '0') =
      value digits * 10 ^ n / 10 ^ digits.length := by
  have hzeros (k : ℕ) : value (List.replicate k '0') = 0 := by
    rw [value, Nat.ofDigitChars_replicate_zero, Nat.mul_zero]
  rw [value_append, hzeros, List.length_replicate, Nat.add_zero]
  rcases Nat.le_total digits.length n with hle | hle
  · rw [List.take_of_length_le hle]
    have hpow : 10 ^ n = 10 ^ (n - digits.length) * 10 ^ digits.length := by
      rw [← pow_add, Nat.sub_add_cancel hle]
    rw [hpow, ← Nat.mul_assoc, Nat.mul_div_cancel _ (by positivity), Nat.mul_comm]
  · have hsplit := value_append (digits.take n) (digits.drop n)
    rw [List.take_append_drop, List.length_drop] at hsplit
    have hlow := value_lt fun c hc => h c (List.mem_of_mem_drop (i := n) hc)
    rw [List.length_drop] at hlow
    have hpow : 10 ^ digits.length = 10 ^ (digits.length - n) * 10 ^ n := by
      rw [← pow_add, Nat.sub_add_cancel hle]
    rw [Nat.sub_eq_zero_of_le hle, pow_zero, one_mul, hpow,
      Nat.mul_div_mul_right _ _ (by positivity), hsplit,
      Nat.mul_add_div (by positivity), Nat.div_eq_of_lt hlow, Nat.add_zero]

/-! ## Layouts -/

/-- A piece of a layout. -/
inductive Piece where
  | text (c : Char)
  | number (width : ℕ)

/-- The numbers are those of the layout, and not too large for it. -/
def Fits : List Piece → List ℕ → Prop
  | [], [] => True
  | .text _ :: pieces, numbers => Fits pieces numbers
  | .number width :: pieces, n :: numbers => n < 10 ^ width ∧ Fits pieces numbers
  | _, _ => False

/-- The numbers, printed in the layout. -/
def print : List Piece → List ℕ → List Char
  | .text c :: pieces, numbers => c :: print pieces numbers
  | .number width :: pieces, n :: numbers => padded width n ++ print pieces numbers
  | _, _ => []

/-- The digits at the front, that many of them, and what follows. -/
def digitsAt (digit : Char → Bool) (width : ℕ) (s : List Char) : Option (List Char × List Char) :=
  if width ≤ s.length ∧ (s.take width).all digit = true then some (s.take width, s.drop width)
  else none

/-- The numbers at the front of a text with the layout, and what follows. -/
def scan : List Piece → List Char → Option (List ℕ × List Char)
  | [], s => some ([], s)
  | .text c :: pieces, s => if s.head? = some c then scan pieces s.tail else none
  | .number width :: pieces, s =>
    (digitsAt Char.isDigit width s).bind fun part =>
      (scan pieces part.2).map fun read => (value part.1 :: read.1, read.2)

/-- The front of a text with the layout, and what follows. -/
def cut (digit : Char → Bool) : List Piece → List Char → Option (List Char × List Char)
  | [], s => some ([], s)
  | .text c :: pieces, s =>
    if s.head? = some c then (cut digit pieces s.tail).map fun found => (c :: found.1, found.2)
    else none
  | .number width :: pieces, s =>
    (digitsAt digit width s).bind fun part =>
      (cut digit pieces part.2).map fun found => (part.1 ++ found.1, found.2)

theorem digitsAt_eq_some {digit : Char → Bool} {width : ℕ} {s digits rest : List Char} :
    digitsAt digit width s = some (digits, rest) ↔
      s = digits ++ rest ∧ digits.length = width ∧ ∀ c ∈ digits, digit c = true := by
  rw [digitsAt, Option.ite_none_right_eq_some, Option.some_inj, Prod.mk.injEq, List.all_eq_true]
  constructor
  · rintro ⟨⟨hlen, hall⟩, rfl, rfl⟩
    exact ⟨(List.take_append_drop _ _).symm, by rw [List.length_take, min_eq_left hlen], hall⟩
  · rintro ⟨rfl, rfl, hall⟩
    refine ⟨⟨by simp, ?_⟩, by simp, by simp⟩
    rwa [List.take_left]

/-- **Reading is the inverse of printing.** -/
theorem scan_eq_some_iff {pieces : List Piece} {s rest : List Char} {numbers : List ℕ} :
    scan pieces s = some (numbers, rest) ↔
      Fits pieces numbers ∧ s = print pieces numbers ++ rest := by
  induction pieces generalizing s numbers with
  | nil =>
    cases numbers with
    | nil => simp [scan, Fits, print]
    | cons n numbers => simp [scan, Fits]
  | cons piece pieces ih =>
    cases piece with
    | text c =>
      have hfits : Fits (.text c :: pieces) numbers ↔ Fits pieces numbers := by
        cases numbers <;> rfl
      have hprint : print (.text c :: pieces) numbers = c :: print pieces numbers := by
        cases numbers <;> rfl
      rw [scan, Option.ite_none_right_eq_some, ih, hfits, hprint]
      constructor
      · rintro ⟨hhead, hfit, htail⟩
        refine ⟨hfit, ?_⟩
        rw [List.cons_append, ← htail]
        exact List.eq_cons_of_mem_head? hhead
      · rintro ⟨hfit, rfl⟩
        exact ⟨rfl, hfit, rfl⟩
    | number width =>
      rw [scan, Option.bind_eq_some_iff]
      constructor
      · rintro ⟨⟨digits, s'⟩, hdigits, hscan⟩
        obtain ⟨⟨numbers', rest'⟩, hread, heq⟩ := Option.map_eq_some_iff.1 hscan
        obtain ⟨rfl, rfl⟩ := Prod.mk.inj heq
        obtain ⟨rfl, rfl, hall⟩ := digitsAt_eq_some.1 hdigits
        obtain ⟨hfit, rfl⟩ := ih.1 hread
        refine ⟨⟨value_lt hall, hfit⟩, ?_⟩
        rw [print, padded_value hall, List.append_assoc]
      · rintro ⟨hfit, rfl⟩
        cases numbers with
        | nil => exact absurd hfit id
        | cons n numbers =>
          obtain ⟨hn, hfit⟩ := hfit
          refine ⟨(padded width n, print pieces numbers ++ rest), ?_, ?_⟩
          · refine digitsAt_eq_some.2 ⟨?_, length_padded width n, fun c => isDigit_of_mem_padded⟩
            rw [print, List.append_assoc]
          · rw [Option.map_eq_some_iff]
            exact ⟨(numbers, rest), ih.2 ⟨hfit, rfl⟩, by rw [value_padded hn]⟩

/-- Different numbers are printed differently. -/
theorem print_inj {pieces : List Piece} {numbers numbers' : List ℕ} (h : Fits pieces numbers)
    (h' : Fits pieces numbers') (heq : print pieces numbers = print pieces numbers') :
    numbers = numbers' := by
  have hread := scan_eq_some_iff.2 ⟨h, (List.append_nil (print pieces numbers)).symm⟩
  have hread' := scan_eq_some_iff.2 ⟨h', (List.append_nil (print pieces numbers')).symm⟩
  rw [heq, hread'] at hread
  exact (Prod.mk.inj (Option.some.inj hread)).1.symm

/-- The characters a layout takes. -/
def width : List Piece → ℕ
  | [] => 0
  | .text _ :: pieces => width pieces + 1
  | .number w :: pieces => w + width pieces

theorem length_print {pieces : List Piece} {numbers : List ℕ} (h : Fits pieces numbers) :
    (print pieces numbers).length = width pieces := by
  induction pieces generalizing numbers with
  | nil => rfl
  | cons piece pieces ih =>
    cases piece with
    | text c =>
      have hfits : Fits pieces numbers := by cases numbers <;> exact h
      have hprint : print (.text c :: pieces) numbers = c :: print pieces numbers := by
        cases numbers <;> rfl
      rw [hprint, List.length_cons, ih hfits, width]
    | number w =>
      cases numbers with
      | nil => exact absurd h id
      | cons n numbers => rw [print, List.length_append, length_padded, ih h.2, width]

/-- A text is what is cut off, and the rest. -/
theorem cut_spec {digit : Char → Bool} {pieces : List Piece} {s front rest : List Char}
    (h : cut digit pieces s = some (front, rest)) :
    s = front ++ rest ∧ front.length = width pieces := by
  induction pieces generalizing s front with
  | nil =>
    obtain ⟨rfl, rfl⟩ := Prod.mk.inj (Option.some.inj h)
    exact ⟨rfl, rfl⟩
  | cons piece pieces ih =>
    cases piece with
    | text c =>
      rw [cut, Option.ite_none_right_eq_some, Option.map_eq_some_iff] at h
      obtain ⟨hhead, ⟨front', rest'⟩, hcut, heq⟩ := h
      obtain ⟨rfl, rfl⟩ := Prod.mk.inj heq
      obtain ⟨htail, hlen⟩ := ih hcut
      refine ⟨?_, by rw [List.length_cons, hlen, width]⟩
      rw [List.cons_append, ← htail]
      exact List.eq_cons_of_mem_head? hhead
    | number w =>
      rw [cut, Option.bind_eq_some_iff] at h
      obtain ⟨⟨digits, s'⟩, hdigits, hcut⟩ := h
      obtain ⟨⟨front', rest'⟩, hfront, heq⟩ := Option.map_eq_some_iff.1 hcut
      obtain ⟨rfl, rfl⟩ := Prod.mk.inj heq
      obtain ⟨rfl, hdigitsLen, -⟩ := digitsAt_eq_some.1 hdigits
      obtain ⟨htail, hlen⟩ := ih hfront
      refine ⟨?_, by rw [List.length_append, hdigitsLen, hlen, width]⟩
      rw [List.append_assoc, ← htail]

/-- Printed numbers are cut off whole. -/
theorem cut_print {digit : Char → Bool} (hdigit : ∀ c : Char, c.isDigit = true → digit c = true)
    {pieces : List Piece} {numbers : List ℕ} (h : Fits pieces numbers) (rest : List Char) :
    cut digit pieces (print pieces numbers ++ rest) = some (print pieces numbers, rest) := by
  induction pieces generalizing numbers with
  | nil =>
    cases numbers with
    | nil => rfl
    | cons n numbers => exact absurd h id
  | cons piece pieces ih =>
    cases piece with
    | text c =>
      have hfits : Fits pieces numbers := by cases numbers <;> exact h
      have hprint : print (.text c :: pieces) numbers = c :: print pieces numbers := by
        cases numbers <;> rfl
      have hhead : (c :: (print pieces numbers ++ rest)).head? = some c := rfl
      rw [hprint, cut, List.cons_append, if_pos hhead, List.tail_cons, ih hfits]
      rfl
    | number width =>
      cases numbers with
      | nil => exact absurd h id
      | cons n numbers =>
        have hdigits : digitsAt digit width
            (padded width n ++ (print pieces numbers ++ rest)) =
              some (padded width n, print pieces numbers ++ rest) :=
          digitsAt_eq_some.2 ⟨rfl, length_padded width n, fun c hc =>
            hdigit c (isDigit_of_mem_padded hc)⟩
        rw [print, List.append_assoc, cut, hdigits, Option.bind_some, ih h.2]
        rfl

end Fields
