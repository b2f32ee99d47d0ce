import Mathlib

/-!
# What has held since

A log grows at its end, and what matters is often its latest entry of some kind, as long as nothing
has come after it that undoes it.

* `Since` — some entry meets `P`, and every later one meets `Q`.
* `since_append_singleton` — **one more entry** starts it, or keeps it.
-/

variable {α : Type*}

/-- Some entry of the log meets `P`, and every later one meets `Q`. -/
def Since (P Q : α → Prop) (log : List α) : Prop :=
  ∃ before x after, log = before ++ x :: after ∧ P x ∧ ∀ y ∈ after, Q y

variable {P Q : α → Prop}

theorem not_since_nil : ¬ Since P Q [] := by
  rintro ⟨before, x, after, h, -⟩
  exact absurd h (by simp)

/-- **One more entry** starts it, or keeps it. -/
theorem since_append_singleton {log : List α} {x : α} :
    Since P Q (log ++ [x]) ↔ P x ∨ Q x ∧ Since P Q log := by
  constructor
  · rintro ⟨before, y, after, hsplit, hy, hafter⟩
    rcases List.eq_nil_or_concat after with rfl | ⟨after, z, rfl⟩
    · obtain ⟨-, hlast⟩ := List.append_inj' hsplit rfl
      obtain rfl := List.singleton_inj.1 hlast
      exact .inl hy
    · -- the entry that starts it is not the last one
      rw [List.concat_eq_append, ← List.cons_append, ← List.append_assoc] at hsplit
      obtain ⟨rfl, hlast⟩ := List.append_inj' hsplit rfl
      obtain rfl := List.singleton_inj.1 hlast
      rw [List.concat_eq_append] at hafter
      refine .inr ⟨hafter x (by simp), before, y, after, rfl, hy, ?_⟩
      exact fun w hw => hafter w (List.mem_append_left _ hw)
  · rintro (hx | ⟨hx, before, y, after, rfl, hy, hafter⟩)
    · exact ⟨log, x, [], rfl, hx, by simp⟩
    · refine ⟨before, y, after ++ [x], by simp, hy, ?_⟩
      intro w hw
      rcases List.mem_append.1 hw with hw | hw
      · exact hafter w hw
      · rwa [List.mem_singleton.1 hw]
