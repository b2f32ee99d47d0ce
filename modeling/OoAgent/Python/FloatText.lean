import OoAgent.Lib.Json.Numbers

/-!
# Floats and their texts

A float is carried by the number its `repr` shows.  `repr(x)` of a finite float shows the digits
of that number, in positional notation while the point is near them and in scientific notation
otherwise, and always with a point or an exponent.

* `PyFloat` — a float.
* `significant`, `spelled` — the digits and where the point goes.
* `floatSpelling` — the whole spelling; `valid_spelled` — it is that of a JSON number.
* `value_floatSpelling` — **the spelling says the number**.
* `PyFloat.toStr` — `str(x)`.
-/

/-- A float: a finite number, the zero below it, an infinity or `nan`. -/
inductive PyFloat where
  | finite (q : ℚ)
  /-- `-0.0`: equal to zero, and printed with its sign. -/
  | negZero
  | inf (negative : Bool)
  | nan
  deriving DecidableEq, Repr

namespace PyFloat

open Json

/-! ## Spelling -/

/-- How many decimals a number has; `none` for one that no float shows. -/
def decimals (q : ℚ) : Option ℕ := (List.range 342).find? fun k => decide (q.den ∣ 10 ^ k)

/-- The number without its point and sign. -/
def unpointed (q : ℚ) (k : ℕ) : ℕ := q.num.natAbs * (10 ^ k / q.den)

/-- The digits of a number up to the last one that is not zero. -/
def significant (n : ℕ) : List Char := (Nat.toDigits 10 n).rdropWhile fun c => c == '0'

/-- An exponent has two digits at least. -/
def exponentDigits (n : ℕ) : List Char :=
  if n < 10 then '0' :: Nat.toDigits 10 n else Nat.toDigits 10 n

/-- The digits of a number whose point stands behind so many of them. -/
def spelled (negative : Bool) (digits : List Char) (point : ℤ) : Spelling :=
  if digits = [] then ⟨negative, ['0'], ['0'], none⟩
  else if -4 < point ∧ point ≤ 16 then
    if point ≤ 0 then ⟨negative, ['0'], List.replicate (-point).toNat '0' ++ digits, none⟩
    else if point < digits.length then
      ⟨negative, digits.take point.toNat, digits.drop point.toNat, none⟩
    else ⟨negative, digits ++ List.replicate (point.toNat - digits.length) '0', ['0'], none⟩
  else
    ⟨negative, digits.take 1, digits.drop 1,
      some (decide (point - 1 < 0), exponentDigits (point - 1).natAbs)⟩

/-- How `repr` spells a finite float. -/
def floatSpelling (q : ℚ) : Option Spelling :=
  (decimals q).map fun k =>
    spelled (decide (q < 0)) (significant (unpointed q k))
      ((Nat.toDigits 10 (unpointed q k)).length - k)

/-! ## Digits -/

theorem digitsValue_append_zeros (digits : List Char) (n : ℕ) :
    digitsValue (digits ++ List.replicate n '0') = digitsValue digits * 10 ^ n := by
  rw [digitsValue, Nat.ofDigitChars_append, Nat.ofDigitChars_replicate_zero, Nat.mul_comm]
  rfl

theorem digitsValue_zeros_append (digits : List Char) (n : ℕ) :
    digitsValue (List.replicate n '0' ++ digits) = digitsValue digits := by
  rw [digitsValue, Nat.ofDigitChars_append, Nat.ofDigitChars_replicate_zero, Nat.mul_zero]
  rfl

theorem digitsValue_cons_zero (digits : List Char) :
    digitsValue ('0' :: digits) = digitsValue digits := digitsValue_zeros_append digits 1

/-- Nothing but zeros is cut off. -/
theorem toDigits_eq (n : ℕ) : ∃ zeros, Nat.toDigits 10 n =
    significant n ++ List.replicate zeros '0' := by
  refine ⟨((Nat.toDigits 10 n).rtakeWhile fun c => c == '0').length, ?_⟩
  have hzeros : (Nat.toDigits 10 n).rtakeWhile (fun c => c == '0') =
      List.replicate ((Nat.toDigits 10 n).rtakeWhile fun c => c == '0').length '0' :=
    List.eq_replicate_length.2 fun c hc => by simpa using List.mem_rtakeWhile_imp hc
  rw [← hzeros]
  exact (List.rdropWhile_append_rtakeWhile ..).symm

/-- Only zero begins with a zero. -/
theorem head_toDigits {n : ℕ} (hn : n ≠ 0) : (Nat.toDigits 10 n).head? ≠ some '0' := by
  induction n using Nat.strong_induction_on with
  | _ n ih =>
    rcases Nat.lt_or_ge n 10 with hlt | hge
    · rw [Nat.toDigits_of_lt_base hlt]
      intro h
      have hdigit : ∀ d < 10, Nat.digitChar d = '0' → d = 0 := by decide
      exact hn (hdigit n hlt (Option.some.inj h))
    · rw [Nat.toDigits_of_base_le (by decide) hge, List.head?_append_of_ne_nil _
        Nat.toDigits_ne_nil]
      exact ih _ (by omega) (by omega)

theorem allDigits_toDigits (n : ℕ) : AllDigits (Nat.toDigits 10 n) :=
  fun _ hc => Nat.isDigit_of_mem_toDigits (by decide) (by decide) hc

theorem significant_zero : significant 0 = [] := by decide +kernel

/-- What is left of a number that is not zero begins with a digit that is none. -/
theorem significant_spec {n : ℕ} (hn : n ≠ 0) :
    significant n ≠ [] ∧ (significant n).head? ≠ some '0' ∧ AllDigits (significant n) := by
  obtain ⟨zeros, hzeros⟩ := toDigits_eq n
  have hhead := head_toDigits hn
  have hne : significant n ≠ [] := by
    intro hnil
    rw [hnil, List.nil_append] at hzeros
    cases zeros with
    | zero => exact Nat.toDigits_ne_nil hzeros
    | succ zeros => exact hhead (by rw [hzeros]; rfl)
  refine ⟨hne, ?_, fun c hc => ?_⟩
  · rwa [hzeros, List.head?_append_of_ne_nil _ hne] at hhead
  · exact allDigits_toDigits n c (by rw [hzeros]; exact List.mem_append_left _ hc)

/-! ## The spelling of a float is one of JSON -/

theorem allDigits_replicate (n : ℕ) : AllDigits (List.replicate n '0') := by
  intro c hc
  rw [List.eq_of_mem_replicate hc]
  decide

theorem allDigits_zero : AllDigits ['0'] := allDigits_replicate 1

theorem exponentDigits_spec (n : ℕ) :
    exponentDigits n ≠ [] ∧ AllDigits (exponentDigits n) ∧ digitsValue (exponentDigits n) = n := by
  unfold exponentDigits
  split
  · refine ⟨by simp, ?_, ?_⟩
    · exact List.forall_mem_cons.2 ⟨by decide, allDigits_toDigits n⟩
    · rw [digitsValue_cons_zero]
      exact Nat.ofDigitChars_ten_toDigits
  · exact ⟨Nat.toDigits_ne_nil, allDigits_toDigits n, Nat.ofDigitChars_ten_toDigits⟩

/-- **The spelling of a float is that of a JSON number.** -/
theorem valid_spelled {negative : Bool} {digits : List Char} {point : ℤ}
    (h : digits ≠ [] → digits.head? ≠ some '0' ∧ AllDigits digits) :
    (spelled negative digits point).Valid := by
  unfold spelled
  split
  · exact ⟨by simp, fun _ => rfl, allDigits_zero, allDigits_zero, by simp⟩
  · rename_i hne
    obtain ⟨hzero, hdigits⟩ := h hne
    have htake : AllDigits (digits.take point.toNat) := fun c hc =>
      hdigits c (List.mem_of_mem_take hc)
    have hdrop : ∀ n, AllDigits (digits.drop n) := fun n c hc =>
      hdigits c (List.mem_of_mem_drop hc)
    have hfront : ∀ n : ℕ, 0 < n → digits.take n ≠ [] ∧
        ((digits.take n).head? = some '0' → digits.take n = ['0']) := by
      intro n hn
      refine ⟨?_, fun hhead => ?_⟩
      · simp [hne, Nat.ne_of_gt hn]
      · rw [List.head?_take, if_neg (Nat.ne_of_gt hn)] at hhead
        exact absurd hhead hzero
    split
    · split
      · refine ⟨by simp, fun _ => rfl, allDigits_zero, ?_, by simp⟩
        intro c hc
        rcases List.mem_append.1 hc with hc | hc
        · exact allDigits_replicate _ c hc
        · exact hdigits c hc
      · rename_i hpos
        split
        · obtain ⟨htakene, htakezero⟩ := hfront point.toNat (by omega)
          exact ⟨htakene, htakezero, htake, hdrop _, by simp⟩
        · refine ⟨by simp [hne], fun hhead => ?_, ?_, allDigits_zero, by simp⟩
          · rw [List.head?_append_of_ne_nil _ hne] at hhead
            exact absurd hhead hzero
          · intro c hc
            rcases List.mem_append.1 hc with hc | hc
            · exact hdigits c hc
            · exact allDigits_replicate _ c hc
    · obtain ⟨htakene, htakezero⟩ := hfront 1 Nat.one_pos
      obtain ⟨hexpne, hexp, -⟩ := exponentDigits_spec (point - 1).natAbs
      refine ⟨htakene, htakezero, fun c hc => hdigits c (List.mem_of_mem_take hc), hdrop 1, ?_⟩
      intro e he
      obtain rfl := Option.some.inj he
      exact ⟨hexpne, hexp⟩

/-! ## The value of a spelling -/

/-- The sign a spelling gives a number. -/
def signOf (negative : Bool) : ℚ := if negative then -1 else 1

/-- **A spelling stands for its digits**, moved to where the point is. -/
theorem value_spelled {negative : Bool} {digits : List Char} {point : ℤ} (hne : digits ≠ []) :
    (spelled negative digits point).value =
      signOf negative * digitsValue digits * 10 ^ (point - digits.length) := by
  have hten : (10 : ℚ) ≠ 0 := by norm_num
  have hlen : 1 ≤ digits.length := List.length_pos_of_ne_nil hne
  unfold spelled
  rw [if_neg hne]
  split
  · split
    · rename_i hpoint
      simp only [Spelling.value, Spelling.exponent, List.cons_append, List.nil_append,
        digitsValue_cons_zero, digitsValue_zeros_append, List.length_append,
        List.length_replicate, signOf]
      congr 2
      push_cast
      omega
    · split
      · rename_i hpos hlt
        simp only [Spelling.value, Spelling.exponent, List.take_append_drop, List.length_drop,
          signOf]
        congr 2
        omega
      · rename_i hpos hge
        have hzeros : digits ++ List.replicate (point.toNat - digits.length) '0' ++ ['0'] =
            digits ++ List.replicate (point.toNat - digits.length + 1) '0' := by
          rw [List.replicate_succ', List.append_assoc]
        have hpower : ((10 ^ (point.toNat - digits.length + 1) : ℕ) : ℚ) * 10 ^ (0 - 1 : ℤ) =
            10 ^ (point - digits.length) := by
          rw [Nat.cast_pow, ← zpow_natCast, Nat.cast_ofNat, ← zpow_add₀ hten]
          congr 1
          omega
        simp only [Spelling.value, Spelling.exponent, hzeros, digitsValue_append_zeros, signOf,
          List.length_singleton, Nat.cast_mul, Nat.cast_one, mul_assoc]
        rw [← hpower]
  · obtain ⟨-, -, hexp⟩ := exponentDigits_spec (point - 1).natAbs
    have hexponent : (if decide (point - 1 < 0) = true then
        -(digitsValue (exponentDigits (point - 1).natAbs) : ℤ)
        else digitsValue (exponentDigits (point - 1).natAbs)) = point - 1 := by
      rw [hexp]
      split <;> rename_i h <;> simp only [decide_eq_true_eq] at h <;> omega
    simp only [Spelling.value, Spelling.exponent, List.take_append_drop, hexponent,
      List.length_drop, signOf]
    congr 2
    omega

/-- The digits of a number and the place of its point. -/
theorem abs_eq_unpointed {q : ℚ} {k : ℕ} (hk : q.den ∣ 10 ^ k) :
    |q| = unpointed q k * (10 : ℚ) ^ (-k : ℤ) := by
  have hden : (q.den : ℚ) ≠ 0 := by exact_mod_cast q.den_ne_zero
  have hten : (10 : ℚ) ^ k ≠ 0 := pow_ne_zero _ (by norm_num)
  have hscale : ((10 ^ k / q.den : ℕ) : ℚ) = 10 ^ k / q.den := by
    rw [Nat.cast_div hk hden]
    push_cast
    rfl
  have habs : |q| = q.num.natAbs / q.den := by
    conv_lhs => rw [← Rat.num_div_den q, abs_div]
    rw [Nat.abs_cast, Nat.cast_natAbs, Int.cast_abs]
  rw [unpointed, Nat.cast_mul, hscale, habs, zpow_neg, zpow_natCast]
  field_simp

theorem signOf_mul_abs (q : ℚ) : signOf (decide (q < 0)) * |q| = q := by
  by_cases hq : q < 0
  · rw [signOf, decide_eq_true hq, if_pos rfl, abs_of_neg hq]
    ring
  · rw [signOf, decide_eq_false hq, if_neg (by simp), abs_of_nonneg (not_lt.1 hq), one_mul]

/-- **The spelling of a float says the number it shows**, and is that of a JSON number. -/
theorem value_floatSpelling {q : ℚ} {s : Spelling} (h : floatSpelling q = some s) :
    s.Valid ∧ s.value = q := by
  simp only [floatSpelling, Option.map_eq_some_iff] at h
  obtain ⟨k, hk, rfl⟩ := h
  have hdvd : q.den ∣ 10 ^ k := by simpa using List.find?_some hk
  have habs := abs_eq_unpointed hdvd
  by_cases hzero : unpointed q k = 0
  · have hq : q = 0 := by
      rw [hzero] at habs
      simpa using habs
    subst hq
    rw [hzero, significant_zero]
    exact ⟨valid_spelled (fun hne => absurd rfl hne), by simp [spelled, Spelling.value, digitsValue,
      Nat.ofDigitChars]⟩
  · obtain ⟨hne, hhead, hdigits⟩ := significant_spec hzero
    refine ⟨valid_spelled fun _ => ⟨hhead, hdigits⟩, ?_⟩
    obtain ⟨zeros, hzeros⟩ := toDigits_eq (unpointed q k)
    have hvalue : (unpointed q k : ℚ) =
        digitsValue (significant (unpointed q k)) * 10 ^ zeros := by
      have hnat : unpointed q k = digitsValue (significant (unpointed q k)) * 10 ^ zeros := by
        rw [← digitsValue_append_zeros, ← hzeros]
        exact Nat.ofDigitChars_ten_toDigits.symm
      exact_mod_cast hnat
    have hpower : ((Nat.toDigits 10 (unpointed q k)).length - k : ℤ) -
        (significant (unpointed q k)).length = zeros - k := by
      rw [hzeros, List.length_append, List.length_replicate]
      push_cast
      ring
    have hsplit : (10 : ℚ) ^ (zeros - k : ℤ) = 10 ^ zeros * 10 ^ (-k : ℤ) := by
      rw [sub_eq_add_neg, zpow_add₀ (by norm_num), zpow_natCast]
    calc (spelled (decide (q < 0)) (significant (unpointed q k))
          ((Nat.toDigits 10 (unpointed q k)).length - k)).value
        = signOf (decide (q < 0)) * digitsValue (significant (unpointed q k)) *
            10 ^ (zeros - k : ℤ) := by rw [value_spelled hne, hpower]
      _ = signOf (decide (q < 0)) * |q| := by rw [habs, hvalue, hsplit]; ring
      _ = q := signOf_mul_abs q

/-- The sign of a spelling is that of the number. -/
theorem negative_floatSpelling {q : ℚ} {s : Spelling} (h : floatSpelling q = some s) :
    s.negative = decide (q < 0) := by
  simp only [floatSpelling, Option.map_eq_some_iff] at h
  obtain ⟨k, -, rfl⟩ := h
  unfold spelled
  split_ifs <;> rfl

/-! ## `str` of a float -/

/-- `repr` spells `-0.0` with its sign. -/
def negZeroSpelling : Spelling := ⟨true, ['0'], ['0'], none⟩

theorem valid_negZeroSpelling : negZeroSpelling.Valid := by decide

/-- `str(x)`; a number that no float shows is written as a fraction. -/
def toStr : PyFloat → String
  | .finite q => ((floatSpelling q).map fun s => String.ofList s.render).getD
      (toString q.num ++ "/" ++ Nat.repr q.den)
  | .negZero => String.ofList negZeroSpelling.render
  | .inf false => "inf"
  | .inf true => "-inf"
  | .nan => "nan"

/-- A spelling is not empty. -/
theorem render_ne_nil {s : Spelling} (h : s.Valid) : s.render ≠ [] := by
  intro hnil
  simp only [Spelling.render, List.append_eq_nil_iff] at hnil
  exact h.1 hnil.1.1.2

theorem toStr_ne_empty (x : PyFloat) : x.toStr ≠ "" := by
  cases x with
  | finite q =>
    intro hempty
    simp only [toStr] at hempty
    cases hs : floatSpelling q with
    | none =>
      rw [hs] at hempty
      simp [String.append_eq_empty_iff] at hempty
    | some s =>
      rw [hs] at hempty
      have hrender := congrArg String.toList hempty
      rw [Option.map_some, Option.getD_some, String.toList_ofList] at hrender
      exact render_ne_nil (value_floatSpelling hs).1 hrender
  | negZero => decide
  | inf negative => cases negative <;> decide
  | nan => decide

example : (PyFloat.finite 10000000000000000).toStr = "1e+16" := by decide +kernel
example : (PyFloat.finite (1 / 100000)).toStr = "1e-05" := by decide +kernel

end PyFloat
