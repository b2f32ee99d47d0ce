import Mathlib

/-!
# The rises of a counter

A counter that is read again and again.  It goes up, and falls back when it is reset or wraps.

* `rise` — by how much it went up from one reading to the next, if it did.
* `sum_rise` — **the rises add up** to the difference of the last reading and the first, and to all
  that was lost by falling back; `sum_rise_of_le` — to the difference alone, if the counter never
  falls.
* `max_div_mul` — a rate cut off at zero, times the time it is for, is the rise.
* `exists_rise` — a counter that has risen rose from some reading to the next.
* `abs_sum_mul_sub_le` — rates that are known up to an error.
-/

namespace Increments

variable {K : Type*} [Field K] [LinearOrder K] [IsStrictOrderedRing K]

/-- By how much a counter went up between two readings. -/
def rise (a b : K) : K := max 0 (b - a)

theorem rise_eq_zero {a b : K} : rise a b = 0 ↔ b ≤ a := by
  rw [rise, max_eq_left_iff, sub_nonpos]

theorem rise_of_le {a b : K} (h : a ≤ b) : rise a b = b - a := max_eq_right (sub_nonneg.2 h)

/-- A counter went up by the difference of the readings, and by what it fell back. -/
theorem rise_eq_sub_add (a b : K) : rise a b = b - a + rise b a := by
  rcases le_total a b with h | h
  · rw [rise_of_le h, rise_eq_zero.2 h, add_zero]
  · rw [rise_of_le h, rise_eq_zero.2 h]
    ring

/-! ## Rates -/

/-- A rate cut off at zero, times the time it is for, is the rise. -/
theorem max_div_mul (a b : K) {dt : K} (hdt : 0 < dt) :
    max 0 ((b - a) / dt) * dt = rise a b := by
  rw [max_mul_of_nonneg _ _ hdt.le, zero_mul, div_mul_cancel₀ _ hdt.ne', rise]

/-- Such a rate is zero when there is no rise. -/
theorem max_div_eq_zero {a b dt : K} (hdt : 0 < dt) :
    max 0 ((b - a) / dt) = 0 ↔ b ≤ a := by
  rw [← rise_eq_zero, ← max_div_mul a b hdt, mul_eq_zero, or_iff_left hdt.ne']

/-! ## Many readings -/

variable (c : ℕ → K) (n : ℕ)

/-- **The rises add up** to the difference of the last reading and the first, and to all that was
lost by falling back. -/
theorem sum_rise :
    ∑ i ∈ Finset.range n, rise (c i) (c (i + 1)) =
      c n - c 0 + ∑ i ∈ Finset.range n, rise (c (i + 1)) (c i) := by
  calc ∑ i ∈ Finset.range n, rise (c i) (c (i + 1))
      = ∑ i ∈ Finset.range n, (c (i + 1) - c i + rise (c (i + 1)) (c i)) :=
        Finset.sum_congr rfl fun i _ => rise_eq_sub_add (c i) (c (i + 1))
    _ = c n - c 0 + ∑ i ∈ Finset.range n, rise (c (i + 1)) (c i) := by
        rw [Finset.sum_add_distrib, Finset.sum_range_sub]

variable {c n}

/-- The rises of a counter that never falls. -/
theorem sum_rise_of_le (h : ∀ i < n, c i ≤ c (i + 1)) :
    ∑ i ∈ Finset.range n, rise (c i) (c (i + 1)) = c n - c 0 := by
  have hfall : ∀ i ∈ Finset.range n, rise (c (i + 1)) (c i) = 0 :=
    fun i hi => rise_eq_zero.2 (h i (Finset.mem_range.1 hi))
  rw [sum_rise, Finset.sum_eq_zero hfall, add_zero]

/-- A counter that is larger at one reading than at another rose between two readings that follow
one another. -/
theorem exists_rise {α : Type*} [LinearOrder α] {c : ℕ → α} {i j : ℕ} (hij : i ≤ j)
    (h : c i < c j) : ∃ k, i ≤ k ∧ k < j ∧ c k < c (k + 1) := by
  induction j, hij using Nat.le_induction with
  | base => exact absurd h (lt_irrefl _)
  | succ j hij ih =>
    by_cases hlast : c j < c (j + 1)
    · exact ⟨j, hij, Nat.lt_succ_self j, hlast⟩
    · obtain ⟨k, hik, hkj, hk⟩ := ih (h.trans_le (not_lt.1 hlast))
      exact ⟨k, hik, Nat.lt_succ_of_lt hkj, hk⟩

/-- Rates that are known up to an error give a total that is known up to the error over the whole
time. -/
theorem abs_sum_mul_sub_le {v w dt : ℕ → K} {ε : K} (hdt : ∀ i < n, 0 ≤ dt i)
    (h : ∀ i < n, |v i - w i| ≤ ε) :
    |∑ i ∈ Finset.range n, v i * dt i - ∑ i ∈ Finset.range n, w i * dt i| ≤
      ε * ∑ i ∈ Finset.range n, dt i := by
  rw [← Finset.sum_sub_distrib, Finset.mul_sum]
  apply (Finset.abs_sum_le_sum_abs _ _).trans
  apply Finset.sum_le_sum
  intro i hi
  have hi := Finset.mem_range.1 hi
  calc |v i * dt i - w i * dt i| = |v i - w i| * dt i := by
        rw [← sub_mul, abs_mul, abs_of_nonneg (hdt i hi)]
    _ ≤ ε * dt i := mul_le_mul_of_nonneg_right (h i hi) (hdt i hi)

end Increments
