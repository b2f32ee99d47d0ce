import Mathlib

/-!
# Sweeping a tree

Entries of a tree are removed, but some of them cannot be, and then nothing above them can be
removed either.

* `Held` — an entry that stays for what is at or below it.
* `sweep` — remove all wanted entries that are not held.
* `held_sweep` — a sweep holds what was held.
* `mem_sweeps` — **after any sweeps** an entry is left when none of them wanted it, or when it was
  held from the start.
-/

namespace Sweep

variable {α : Type*} (above : α → α → Prop) [DecidableRel above] (stuck : α → Bool)

/-- Something at or below an entry cannot be removed. -/
def Held (entries : List α) (p : α) : Prop := ∃ q ∈ entries, above p q ∧ stuck q = true

instance (entries : List α) (p : α) : Decidable (Held above stuck entries p) :=
  inferInstanceAs (Decidable (∃ q ∈ entries, _))

/-- Remove all wanted entries that are not held. -/
def sweep (entries : List α) (wanted : α → Bool) : List α :=
  entries.filter fun p => !wanted p || decide (Held above stuck entries p)

variable {above stuck}

theorem mem_sweep {entries : List α} {wanted : α → Bool} {p : α} :
    p ∈ sweep above stuck entries wanted ↔
      p ∈ entries ∧ (wanted p = false ∨ Held above stuck entries p) := by
  rw [sweep, List.mem_filter, Bool.or_eq_true, Bool.not_eq_true', decide_eq_true_eq]

/-- A sweep holds what was held. -/
theorem held_sweep (hrefl : ∀ p, above p p) {entries : List α} {wanted : α → Bool} {p : α} :
    Held above stuck (sweep above stuck entries wanted) p ↔ Held above stuck entries p := by
  constructor
  · rintro ⟨q, hq, habove, hstuck⟩
    exact ⟨q, (mem_sweep.1 hq).1, habove, hstuck⟩
  · rintro ⟨q, hq, habove, hstuck⟩
    -- what cannot be removed holds itself
    exact ⟨q, mem_sweep.2 ⟨hq, .inr ⟨q, hq, hrefl q, hstuck⟩⟩, habove, hstuck⟩

/-- **After any sweeps** an entry is left when none of them wanted it, or when it was held from the
start. -/
theorem mem_sweeps (hrefl : ∀ p, above p p) {wants : List (α → Bool)} {entries : List α} {p : α} :
    p ∈ wants.foldl (sweep above stuck) entries ↔
      p ∈ entries ∧ ((∀ wanted ∈ wants, wanted p = false) ∨ Held above stuck entries p) := by
  induction wants generalizing entries with
  | nil => simp
  | cons wanted wants ih =>
    rw [List.foldl_cons, ih, held_sweep hrefl, mem_sweep, List.forall_mem_cons]
    tauto

end Sweep
