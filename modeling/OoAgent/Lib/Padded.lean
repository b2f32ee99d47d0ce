import Mathlib

/-!
# Sequences that go on with the least element

Two lists compared entry by entry, where a missing entry counts as the least one.  The
lexicographic order of lists knows no missing entries: a list comes before every longer one
that starts with it.

* `Padded.entry` — an entry, `⊥` from the end of the list on.
* `Padded.Le`, `Padded.Equal` — the order, and what is the same in it.
* `Padded.le_iff` — **the two orders agree** on all pairs but those whose first list goes on
  after the second with nothing but `⊥`.
-/

namespace Padded

variable {α : Type*} [LinearOrder α] [OrderBot α]

/-- The entry at a position. -/
def entry (xs : List α) (i : ℕ) : α := xs.getD i ⊥

/-- No entry differs. -/
def Equal (xs ys : List α) : Prop := ∀ i, entry xs i = entry ys i

/-- At the first entry that differs, if there is one, the first list has the smaller. -/
def Le (xs ys : List α) : Prop :=
  Equal xs ys ∨ ∃ i, (∀ j < i, entry xs j = entry ys j) ∧ entry xs i < entry ys i

@[simp] theorem entry_nil (i : ℕ) : entry ([] : List α) i = ⊥ := rfl

@[simp] theorem entry_cons_zero (x : α) (xs : List α) : entry (x :: xs) 0 = x := rfl

@[simp] theorem entry_cons_succ (x : α) (xs : List α) (i : ℕ) :
    entry (x :: xs) (i + 1) = entry xs i := rfl

theorem equal_cons {x y : α} {xs ys : List α} :
    Equal (x :: xs) (y :: ys) ↔ x = y ∧ Equal xs ys := by
  constructor
  · intro h
    exact ⟨h 0, fun i => h (i + 1)⟩
  · rintro ⟨rfl, h⟩ i
    cases i with
    | zero => rfl
    | succ i => exact h i

theorem le_cons {x y : α} {xs ys : List α} :
    Le (x :: xs) (y :: ys) ↔ x < y ∨ x = y ∧ Le xs ys := by
  constructor
  · rintro (h | ⟨i, hbefore, hlt⟩)
    · obtain ⟨rfl, hrest⟩ := equal_cons.1 h
      exact .inr ⟨rfl, .inl hrest⟩
    · cases i with
      | zero => exact .inl hlt
      | succ i =>
        exact .inr ⟨hbefore 0 i.succ_pos,
          .inr ⟨i, fun j hj => hbefore (j + 1) (Nat.succ_lt_succ hj), hlt⟩⟩
  · rintro (hlt | ⟨rfl, h | ⟨i, hbefore, hlt⟩⟩)
    · exact .inr ⟨0, fun j hj => absurd hj j.not_lt_zero, hlt⟩
    · exact .inl (equal_cons.2 ⟨rfl, h⟩)
    · refine .inr ⟨i + 1, fun j hj => ?_, hlt⟩
      cases j with
      | zero => rfl
      | succ j => exact hbefore j (Nat.lt_of_succ_lt_succ hj)

/-- A list with no entries has the least ones everywhere. -/
theorem nil_le (ys : List α) : Le [] ys := by
  by_cases h : Equal [] ys
  · exact .inl h
  · unfold Equal at h
    push Not at h
    classical
    refine .inr ⟨Nat.find h, fun j hj => not_not.1 (Nat.find_min h hj), ?_⟩
    exact bot_lt_iff_ne_bot.2 (Nat.find_spec h).symm

theorem equal_nil_iff {xs : List α} : Equal xs [] ↔ xs = List.replicate xs.length ⊥ := by
  rw [List.eq_replicate_length]
  constructor
  · intro h x hx
    obtain ⟨i, hi, rfl⟩ := List.getElem_of_mem hx
    exact (List.getD_eq_getElem xs ⊥ hi).symm.trans (h i)
  · intro h i
    rcases Nat.lt_or_ge i xs.length with hi | hi
    · exact (List.getD_eq_getElem xs ⊥ hi).trans (h _ (List.getElem_mem hi))
    · exact List.getD_eq_default xs ⊥ hi

/-- Nothing but the least is at most nothing. -/
theorem le_nil_iff {xs : List α} : Le xs [] ↔ xs = List.replicate xs.length ⊥ := by
  rw [← equal_nil_iff]
  constructor
  · rintro (h | ⟨i, -, hlt⟩)
    · exact h
    · exact absurd hlt not_lt_bot
  · exact .inl

omit [OrderBot α] in
theorem nil_lex_le (ys : List α) : [] ≤ ys :=
  not_lt.1 (List.not_lt_nil ys)

omit [OrderBot α] in
theorem cons_lex_le {x y : α} {xs ys : List α} :
    x :: xs ≤ y :: ys ↔ x < y ∨ x = y ∧ xs ≤ ys := by
  have hlt : y :: ys < x :: xs ↔ y < x ∨ y = x ∧ ys < xs := List.cons_lt_cons_iff
  rw [← not_lt, hlt, ← not_lt]
  rcases lt_trichotomy x y with h | rfl | h
  · simp [h, h.ne', h.not_gt]
  · simp
  · simp [h, h.ne', h.not_gt]

/-- **The orders agree** on every pair but those whose first list is the second followed by
least entries. -/
theorem le_iff (xs ys : List α) :
    (xs ≤ ys ↔ Le xs ys) ↔ ¬ ∃ n, xs = ys ++ List.replicate (n + 1) ⊥ := by
  induction xs generalizing ys with
  | nil =>
    refine iff_of_true (iff_of_true (nil_lex_le ys) (nil_le ys)) ?_
    rintro ⟨n, h⟩
    exact absurd h.symm (by simp [List.replicate_succ])
  | cons x xs ih =>
    cases ys with
    | nil =>
      have hnot : ¬ x :: xs ≤ [] := not_le.2 (List.nil_lt_cons x xs)
      rw [iff_false_left hnot, le_nil_iff, not_iff_not]
      constructor
      · intro h
        exact ⟨xs.length, h⟩
      · rintro ⟨n, h⟩
        rw [List.nil_append] at h
        rw [h, List.length_replicate]
    | cons y ys =>
      rw [cons_lex_le, le_cons]
      rcases lt_trichotomy x y with hlt | rfl | hgt
      · refine iff_of_true (iff_of_true (.inl hlt) (.inl hlt)) ?_
        rintro ⟨n, h⟩
        exact absurd (List.cons.inj h).1 hlt.ne
      · simp only [lt_self_iff_false, true_and, false_or]
        rw [ih ys, not_iff_not]
        simp
      · have hne : x ≠ y := hgt.ne'
        simp [hgt.not_gt, hne]

end Padded
