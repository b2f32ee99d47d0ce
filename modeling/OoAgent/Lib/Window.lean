import Mathlib

/-!
# Sliding windows

A window takes elements at its end, drops those that have expired wherever they stand, and
then the oldest ones over its size.  As long as whatever comes later expires later, the
window is what one would expect: the last elements of those that have not expired yet.

* `filter_rtake` — dropping the expired and keeping the last `n` commute where expiry
  follows the order of the list.
* `slide`, `fill` — one step of a window, and a whole run of them.
* `fill_concat` — **the closed form**: a window holds the last `n` of the elements that the
  last step has not expired.
-/

namespace Window

variable {α : Type*}

/-! ## The last elements of a list -/

theorem rtake_eq_drop (l : List α) (n : ℕ) : l.rtake n = l.drop (l.length - n) := rfl

theorem rtake_of_length_le {l : List α} {n : ℕ} (h : l.length ≤ n) : l.rtake n = l := by
  rw [rtake_eq_drop, Nat.sub_eq_zero_of_le h, List.drop_zero]

theorem rtake_rtake (l : List α) (m n : ℕ) : (l.rtake m).rtake n = l.rtake (min m n) := by
  rw [rtake_eq_drop, rtake_eq_drop, rtake_eq_drop, List.drop_drop, List.length_drop]
  congr 1
  omega

/-- The last elements of `l ++ m` only depend on the last elements of `l`. -/
theorem rtake_rtake_append (l m : List α) (n : ℕ) :
    (l.rtake n ++ m).rtake n = (l ++ m).rtake n := by
  have hlen : (l.rtake n).length = min n l.length := by
    rw [rtake_eq_drop, List.length_drop]
    omega
  rw [rtake_eq_drop (l.rtake n ++ m), rtake_eq_drop (l ++ m), List.drop_append, List.drop_append,
    List.length_append, List.length_append, hlen, rtake_eq_drop, List.drop_drop]
  congr 2 <;> omega

/-- What is kept behind an element that is kept. -/
def Follows (keep : α → Bool) (l : List α) : Prop :=
  l.Pairwise fun a b => keep a = true → keep b = true

theorem rtake_cons (a : α) (l : List α) (n : ℕ) :
    (a :: l).rtake n = if l.length < n then a :: l else l.rtake n := by
  split
  · exact rtake_of_length_le (by rw [List.length_cons]; omega)
  · rename_i hle
    have hlen : (a :: l).length - n = l.length - n + 1 := by
      rw [List.length_cons]
      omega
    rw [rtake_eq_drop, hlen, List.drop_succ_cons, rtake_eq_drop]

/-- **Dropping the expired and keeping the last `n` commute** where expiry follows the order
of the list. -/
theorem filter_rtake {keep : α → Bool} {l : List α} (h : Follows keep l) (n : ℕ) :
    (l.rtake n).filter keep = (l.filter keep).rtake n := by
  induction l with
  | nil => simp
  | cons a l ih =>
    obtain ⟨hhead, htail⟩ := List.pairwise_cons.1 h
    cases hkeep : keep a with
    | true =>
      -- nothing in the list has expired
      have hall : ∀ b ∈ a :: l, keep b = true := by
        intro b hb
        rcases List.mem_cons.1 hb with rfl | hb
        · exact hkeep
        · exact hhead b hb hkeep
      have hlast : ∀ b ∈ (a :: l).rtake n, keep b = true := fun b hb =>
        hall b ((List.drop_sublist _ _).subset hb)
      rw [List.filter_eq_self.2 hall, List.filter_eq_self.2 hlast]
    | false =>
      have hskip : (a :: l).filter keep = l.filter keep :=
        List.filter_cons_of_neg (by simp [hkeep])
      rw [rtake_cons, hskip]
      split
      · rename_i hlt
        rw [hskip, rtake_of_length_le ((List.length_filter_le _ _).trans hlt.le)]
      · exact ih htail

/-! ## Windows -/

/-- An element on its way into a window, and what the window keeps when it comes. -/
structure Step (α : Type*) where
  element : α
  keep : α → Bool

/-- One step of a window of size `n`. -/
def slide (n : ℕ) (window : List α) (s : Step α) : List α :=
  ((window ++ [s.element]).filter s.keep).rtake n

/-- A whole run of a window that was empty to begin with. -/
def fill (n : ℕ) (steps : List (Step α)) : List α := steps.foldl (slide n) []

theorem fill_append_singleton (n : ℕ) (steps : List (Step α)) (s : Step α) :
    fill n (steps ++ [s]) = slide n (fill n steps) s := by
  rw [fill, List.foldl_append]
  rfl

/-- A window holds some of the elements that came in, in their order. -/
theorem fill_sublist (n : ℕ) (steps : List (Step α)) :
    (fill n steps).Sublist (steps.map Step.element) := by
  induction steps using List.reverseRecOn with
  | nil => exact List.Sublist.refl _
  | append_singleton steps s ih =>
    rw [fill_append_singleton, List.map_append]
    exact (List.drop_sublist _ _).trans
      (List.filter_sublist.trans (ih.append (List.Sublist.refl _)))

/-- What a step keeps, every earlier step has kept as well. -/
def Narrowing (steps : List (Step α)) : Prop :=
  steps.Pairwise fun s t => ∀ a, t.keep a = true → s.keep a = true

/-- What a window would show to a step that keeps less than all before it. -/
theorem filter_fill {n : ℕ} {steps : List (Step α)} {keep : α → Bool}
    (hless : ∀ s ∈ steps, ∀ a, keep a = true → s.keep a = true)
    (hfollows : Follows keep (steps.map Step.element)) :
    ((fill n steps).filter keep).rtake n = ((steps.map Step.element).filter keep).rtake n := by
  induction steps using List.reverseRecOn with
  | nil => rfl
  | append_singleton steps s ih =>
    have hkeep : ∀ l : List α, (l.filter s.keep).filter keep = l.filter keep := by
      intro l
      rw [List.filter_filter]
      refine List.filter_congr fun a _ => ?_
      cases ha : keep a with
      | true => simp [hless s (by simp) a ha]
      | false => simp
    rw [List.map_append] at hfollows ⊢
    have hearlier : Follows keep (steps.map Step.element) := hfollows.sublist
      (List.sublist_append_left _ _)
    have hwindow : Follows keep ((fill n steps ++ [s.element]).filter s.keep) :=
      hfollows.sublist (List.filter_sublist.trans
        ((fill_sublist n steps).append (List.Sublist.refl _)))
    calc ((fill n (steps ++ [s])).filter keep).rtake n
        = (((fill n steps ++ [s.element]).filter keep).rtake n).rtake n := by
          rw [fill_append_singleton, slide, filter_rtake hwindow, hkeep]
      _ = (((fill n steps).filter keep).rtake n ++ [s.element].filter keep).rtake n := by
          rw [rtake_rtake, min_self, List.filter_append, rtake_rtake_append]
      _ = ((steps.map Step.element).filter keep ++ [s.element].filter keep).rtake n := by
          rw [ih (fun t ht => hless t (List.mem_append_left _ ht)) hearlier, rtake_rtake_append]
      _ = ((steps.map Step.element ++ [s].map Step.element).filter keep).rtake n := by
          rw [List.filter_append]
          rfl

/-- **The closed form.**  A window holds the last `n` of the elements that the last step has
not expired. -/
theorem fill_concat {n : ℕ} {steps : List (Step α)} {s : Step α}
    (hnarrowing : Narrowing (steps ++ [s]))
    (hfollows : Follows s.keep (steps.map Step.element)) :
    fill n (steps ++ [s]) = (((steps ++ [s]).map Step.element).filter s.keep).rtake n := by
  have hless : ∀ t ∈ steps, ∀ a, s.keep a = true → t.keep a = true := fun t ht =>
    (List.pairwise_append.1 hnarrowing).2.2 t ht s (List.mem_singleton_self s)
  rw [fill_append_singleton, slide, List.filter_append, ← rtake_rtake_append,
    filter_fill hless hfollows, rtake_rtake_append, List.map_append, List.filter_append]
  rfl

end Window
