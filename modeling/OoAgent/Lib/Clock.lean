import Mathlib

/-!
# Clocks that are put forward and back

A clock shows the moment plus an offset, and its offset is changed now and then.  A time
may be shown once, several times when the clock has been put back, and never when it has
been put forward past it.  Moments, offsets and times are whole seconds.

* `Clock`, `Clock.reading` — a clock, and the time it shows at a moment.
* `Clock.shown` — the first moment at which it shows a time; `Clock.skipped` — what a time
  that is put forward past stands for, by the offset before; `Clock.moment` — the two
  together, and `exists_moment`: **every time stands for a moment**.
* `Clock.PassedBy` — the clock has been through a time.
* `exists_offset_of_passedBy` — **a time ahead of the clock was passed** only if the clock
  has been put back.
-/

/-- A clock. -/
structure Clock where
  /-- The offset before the first change. -/
  base : ℤ
  /-- The moment of every change, with the offset from then on. -/
  changes : List (ℤ × ℤ)
  sorted : changes.Pairwise fun a b => a.1 < b.1

namespace Clock

/-! ## What a clock shows -/

/-- The offset at a moment, by the changes from an offset on. -/
def offsetFrom : ℤ → List (ℤ × ℤ) → ℤ → ℤ
  | o, [], _ => o
  | o, (change, o') :: rest, t => if t < change then o else offsetFrom o' rest t

variable (clock : Clock)

/-- The offset at a moment. -/
def offset (t : ℤ) : ℤ := offsetFrom clock.base clock.changes t

/-- The time shown at a moment. -/
def reading (t : ℤ) : ℤ := t + clock.offset t

/-- The offsets the clock ever has. -/
def offsets : List ℤ := clock.base :: clock.changes.map Prod.snd

/-- The first moment at which a time is shown. -/
def shown (c : ℤ) : Option ℤ :=
  ((clock.offsets.map fun o => c - o).filter fun t => clock.reading t = c).min?

/-- What a time stands for that the clock is put forward past: the offset before the first
such change decides. -/
def skippedFrom (c : ℤ) : ℤ → List (ℤ × ℤ) → Option ℤ
  | _, [] => none
  | o, (change, o') :: rest =>
    if change + o ≤ c ∧ c < change + o' then some (c - o) else skippedFrom c o' rest

/-- The same, over all changes of the clock. -/
def skipped (c : ℤ) : Option ℤ := skippedFrom c clock.base clock.changes

/-- The moment a time stands for: the first at which it is shown, and if it never is, the
one at which it would have been shown without the change. -/
def moment (c : ℤ) : Option ℤ := (clock.shown c).or (clock.skipped c)

/-- The clock has been through a time: it has shown it, or has been put forward past a time
that it never shows. -/
inductive PassedBy (now : ℚ) (c : ℤ) : Prop
  | shown {u : ℤ} (reads : clock.reading u = c) (before : (u : ℚ) ≤ now)
  | skipped {m : ℤ} (never : ∀ u, clock.reading u ≠ c) (gap : clock.skipped c = some m)
      (before : (m : ℚ) ≤ now)

/-! ## The offsets -/

theorem offsetFrom_mem (o : ℤ) (changes : List (ℤ × ℤ)) (t : ℤ) :
    offsetFrom o changes t ∈ o :: changes.map Prod.snd := by
  induction changes generalizing o with
  | nil => exact List.mem_singleton.2 rfl
  | cons head rest ih =>
    rw [offsetFrom]
    split
    · exact List.mem_cons_self
    · exact List.mem_cons_of_mem _ (ih head.2)

theorem offset_mem_offsets (t : ℤ) : clock.offset t ∈ clock.offsets :=
  offsetFrom_mem clock.base clock.changes t

/-! ## Times that are shown -/

variable {clock}

/-- **A time is first shown** at the least moment at which it is shown. -/
theorem shown_eq_some {c m : ℤ} :
    clock.shown c = some m ↔ IsLeast {u | clock.reading u = c} m := by
  have hmem (u : ℤ) :
      u ∈ (clock.offsets.map fun o => c - o).filter (fun t => clock.reading t = c) ↔
        clock.reading u = c := by
    rw [List.mem_filter, decide_eq_true_eq, and_iff_right_iff_imp]
    intro hu
    refine List.mem_map.2 ⟨clock.offset u, clock.offset_mem_offsets u, ?_⟩
    rw [← hu, reading, add_sub_cancel_right]
  rw [shown, List.min?_eq_some_iff]
  simp only [hmem]
  rfl

theorem shown_eq_none {c : ℤ} : clock.shown c = none ↔ ∀ u, clock.reading u ≠ c := by
  constructor
  · intro h u hu
    rw [shown, List.min?_eq_none_iff, List.filter_eq_nil_iff] at h
    refine h u (List.mem_map.2 ⟨clock.offset u, clock.offset_mem_offsets u, ?_⟩) ?_
    · rw [← hu, reading, add_sub_cancel_right]
    · exact decide_eq_true hu
  · intro h
    cases hshown : clock.shown c with
    | none => rfl
    | some m => exact absurd (shown_eq_some.1 hshown).1 (h m)

/-! ## Times that are skipped -/

/-- A time that stands for no moment of the changes is shown after all of them. -/
theorem offsetFrom_of_not_skipped {c o lo : ℤ} {changes : List (ℤ × ℤ)}
    (hlo : lo + o ≤ c) (hafter : ∀ change ∈ changes, lo < change.1)
    (hsorted : changes.Pairwise fun a b => a.1 < b.1)
    (hskipped : skippedFrom c o changes = none) :
    ∃ u, lo ≤ u ∧ u + offsetFrom o changes u = c := by
  induction changes generalizing o lo with
  | nil => exact ⟨c - o, by omega, by rw [offsetFrom]; omega⟩
  | cons head rest ih =>
    obtain ⟨change, o'⟩ := head
    rw [skippedFrom] at hskipped
    split at hskipped
    · cases hskipped
    · rename_i hgap
      have hlt : lo < change := hafter _ List.mem_cons_self
      by_cases hbefore : c - o < change
      · exact ⟨c - o, by omega, by rw [offsetFrom, if_pos hbefore]; omega⟩
      · -- not before the change, and not skipped by it
        obtain ⟨hrest, hsorted⟩ := List.pairwise_cons.1 hsorted
        obtain ⟨u, hu, hreads⟩ := ih (by omega) hrest hsorted hskipped
        refine ⟨u, by omega, ?_⟩
        rwa [offsetFrom, if_neg (not_lt.2 hu)]

/-- The offset that decides is one the clock had before the moment. -/
theorem offsetFrom_of_skipped {c o lo m : ℤ} {changes : List (ℤ × ℤ)}
    (hafter : ∀ change ∈ changes, lo < change.1)
    (hsorted : changes.Pairwise fun a b => a.1 < b.1)
    (hskipped : skippedFrom c o changes = some m) :
    ∃ u, lo ≤ u ∧ u ≤ m ∧ m + offsetFrom o changes u = c := by
  induction changes generalizing o lo with
  | nil => cases hskipped
  | cons head rest ih =>
    obtain ⟨change, o'⟩ := head
    have hlt : lo < change := hafter _ List.mem_cons_self
    rw [skippedFrom] at hskipped
    split at hskipped
    · rename_i hgap
      obtain rfl := Option.some.inj hskipped
      refine ⟨change - 1, by omega, by omega, ?_⟩
      rw [offsetFrom, if_pos (by omega)]
      omega
    · obtain ⟨hrest, hsorted⟩ := List.pairwise_cons.1 hsorted
      obtain ⟨u, hu, hle, hreads⟩ := ih hrest hsorted hskipped
      refine ⟨u, by omega, hle, ?_⟩
      rwa [offsetFrom, if_neg (not_lt.2 hu)]

/-- There is a moment before all changes. -/
theorem exists_before (changes : List (ℤ × ℤ)) (c : ℤ) :
    ∃ lo, lo ≤ c ∧ ∀ change ∈ changes, lo < change.1 := by
  induction changes with
  | nil => exact ⟨c, le_rfl, by simp⟩
  | cons head rest ih =>
    obtain ⟨lo, hle, hlo⟩ := ih
    refine ⟨min lo (head.1 - 1), (min_le_left _ _).trans hle, ?_⟩
    rintro change (_ | ⟨_, hmem⟩)
    · omega
    · exact lt_of_le_of_lt (min_le_left _ _) (hlo change hmem)

/-! ## Moments -/

/-- **Every time stands for a moment.** -/
theorem exists_moment (clock : Clock) (c : ℤ) : ∃ m, clock.moment c = some m := by
  unfold moment
  cases hshown : clock.shown c with
  | some m => exact ⟨m, rfl⟩
  | none =>
    cases hskipped : clock.skipped c with
    | some m => exact ⟨m, rfl⟩
    | none =>
      obtain ⟨lo, hle, hlo⟩ := exists_before clock.changes (c - clock.base)
      obtain ⟨u, -, hu⟩ :=
        offsetFrom_of_not_skipped (by omega) hlo clock.sorted hskipped
      exact absurd hu (shown_eq_none.1 hshown u)

/-- A time stands for a moment by an offset that the clock had before it. -/
theorem exists_offset_of_moment {c m : ℤ} (h : clock.moment c = some m) :
    ∃ u ≤ m, m + clock.offset u = c := by
  unfold moment at h
  cases hshown : clock.shown c with
  | some first =>
    rw [hshown] at h
    obtain rfl := Option.some.inj h
    exact ⟨first, le_rfl, (shown_eq_some.1 hshown).1⟩
  | none =>
    rw [hshown, Option.none_or] at h
    obtain ⟨lo, -, hlo⟩ := exists_before clock.changes c
    obtain ⟨u, -, hle, hu⟩ := offsetFrom_of_skipped hlo clock.sorted h
    exact ⟨u, hle, hu⟩

/-- The clock has been through a time when the moment it stands for has been. -/
theorem passedBy_iff {now : ℚ} {c m : ℤ} (h : clock.moment c = some m) :
    clock.PassedBy now c ↔ (m : ℚ) ≤ now := by
  unfold moment at h
  constructor
  · rintro (⟨hreads, hbefore⟩ | ⟨hnever, hgap, hbefore⟩)
    · cases hshown : clock.shown c with
      | some first =>
        rw [hshown] at h
        obtain rfl := Option.some.inj h
        exact (Int.cast_le.2 ((shown_eq_some.1 hshown).2 hreads)).trans hbefore
      | none => exact absurd hreads (shown_eq_none.1 hshown _)
    · rw [shown_eq_none.2 hnever, Option.none_or, hgap] at h
      obtain rfl := Option.some.inj h
      exact hbefore
  · intro hbefore
    cases hshown : clock.shown c with
    | some first =>
      rw [hshown] at h
      obtain rfl := Option.some.inj h
      exact .shown (shown_eq_some.1 hshown).1 hbefore
    | none =>
      rw [hshown, Option.none_or] at h
      exact .skipped (shown_eq_none.1 hshown) h hbefore

/-- **A time ahead of the clock was passed** only if the clock has been put back since. -/
theorem exists_offset_of_passedBy {now : ℚ} {c o : ℤ} (h : clock.PassedBy now c)
    (hahead : now + o < c) : ∃ u : ℤ, (u : ℚ) ≤ now ∧ o < clock.offset u := by
  obtain ⟨m, hm⟩ := clock.exists_moment c
  have hbefore := (passedBy_iff hm).1 h
  obtain ⟨u, hle, hreads⟩ := exists_offset_of_moment hm
  refine ⟨u, (Int.cast_le.2 hle).trans hbefore, ?_⟩
  have hsum : (m : ℚ) + clock.offset u = c := by exact_mod_cast hreads
  have hlt : (o : ℚ) < clock.offset u := by linarith
  exact_mod_cast hlt

end Clock
