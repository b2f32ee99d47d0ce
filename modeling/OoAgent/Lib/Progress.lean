import OoAgent.Lib.Machine

/-!
# Progress under a clock

A machine whose inputs carry a clock reading waits for something, a number of stages away.
Inputs that come before its due time change nothing; every other input brings it one stage
further and puts the next one off by a pause, and the last stage ends the waiting.

* `Dense` — clock readings that never go back and leave no long gap.
* `Stages` — what one input does to a waiting machine.
* `Stages.finishes` — **the progress rule**: how long a waiting machine takes at most.
-/

namespace Machine

variable {σ ι ω : Type*}

/-- From `start` on, the clock never goes back and no two readings in a row are more than
`gap` apart. -/
def Dense (gap start : ℕ) (times : List ℕ) : Prop :=
  (start :: times).IsChain fun t u => t ≤ u ∧ u ≤ t + gap

instance instDecidableDense (gap start : ℕ) (times : List ℕ) :
    Decidable (Dense gap start times) :=
  inferInstanceAs (Decidable (List.IsChain _ _))

/-- **What one input does to a waiting machine.**  `Waits n due` says that it is due at `due`
and `n` stages away from the last one. -/
structure Stages (M : Machine σ ι ω) (time : ι → ℕ) (C : σ → ι → Prop) (pause : ℕ)
    (Waits : ℕ → ℕ → σ → Prop) (Done : σ → Prop) : Prop where
  early : ∀ {n due s i}, Waits n due s → C s i → time i < due → Waits n due (M.step s i).1
  last : ∀ {due s i}, Waits 0 due s → C s i → due ≤ time i → Done (M.step s i).1
  stage : ∀ {n due s i}, Waits (n + 1) due s → C s i → due ≤ time i →
    Waits n (time i + pause) (M.step s i).1

/-- **The progress rule.**  A machine that is `n` stages away from the last one has finished
once the clock has passed its due time by `n` pauses and gaps. -/
theorem Stages.finishes {M : Machine σ ι ω} {time : ι → ℕ} {C : σ → ι → Prop} {pause : ℕ}
    {Waits : ℕ → ℕ → σ → Prop} {Done : σ → Prop} (h : M.Stages time C pause Waits Done)
    {n due base start gap : ℕ} {s : σ} {is : List ι} (hwaits : Waits n due s)
    (hdue : due ≤ base) (hstart : start ≤ base) (hdense : Dense gap start (is.map time))
    (hC : M.Along C s is)
    (hlong : base + n * (pause + gap) < (is.map time).getLastD start) :
    ∃ before i after, is = before ++ i :: after ∧ Done (M.run s (before ++ [i])).1 := by
  induction is generalizing n due base start s with
  | nil =>
    rw [List.map_nil, List.getLastD_nil] at hlong
    exact absurd hlong (not_lt.2 (hstart.trans (Nat.le_add_right _ _)))
  | cons i is ih =>
    obtain ⟨hi, hrest⟩ := hC
    obtain ⟨⟨hle, hgap⟩, hdense'⟩ := List.isChain_cons_cons.1 hdense
    rw [List.map_cons, List.getLastD_cons] at hlong
    have hlater : ∀ {n due base}, Waits n due (M.step s i).1 → due ≤ base → time i ≤ base →
        base + n * (pause + gap) < (is.map time).getLastD (time i) →
        ∃ before j after, i :: is = before ++ j :: after ∧
          Done (M.run s (before ++ [j])).1 := by
      intro n due base hwaits' hdue' hstart' hlong'
      obtain ⟨before, j, after, rfl, hdone⟩ := ih hwaits' hdue' hstart' hdense' hrest hlong'
      exact ⟨i :: before, j, after, rfl, by rwa [List.cons_append, run_cons]⟩
    rcases lt_or_ge (time i) due with hearly | hlate
    · -- too early: nothing has changed but the clock
      exact hlater (h.early hwaits hi hearly) hdue (hearly.le.trans hdue) hlong
    · have hsoon : time i ≤ base + gap := hgap.trans (Nat.add_le_add_right hstart _)
      cases n with
      | zero => exact ⟨[], i, is, rfl, by simpa using h.last hwaits hi hlate⟩
      | succ n =>
        have hnext : time i + pause ≤ base + (pause + gap) := by omega
        refine hlater (h.stage hwaits hi hlate) hnext (by omega) ?_
        calc base + (pause + gap) + n * (pause + gap) = base + (n + 1) * (pause + gap) := by
              ring
          _ < (is.map time).getLastD (time i) := hlong

end Machine
