import Mathlib

/-!
# Scanning a text for matches

Matches are looked for from left to right: one that is found is reported, and the scan goes
on behind it; where there is none, it goes on with the next element.

* `scan`, `subst` — all matches, and the text with its matches replaced, for a matcher that
  says what it found and how much it took.
* `scan_append_of_none`, `scan_append_of_some` — what a text without a match adds, and what
  a match adds.
* `InOrder` — pieces that occur in a text one behind the other; `InOrder.length_le` — they
  are no longer than the text.
-/

namespace Scan

variable {α β : Type*}

/-! ## Scanning -/

/-- All matches in a text, the first `skip` elements of which are part of the last one. -/
def scanFrom (step : List α → Option (β × ℕ)) : ℕ → List α → List β
  | _, [] => []
  | skip + 1, _ :: cs => scanFrom step skip cs
  | 0, c :: cs =>
    match step (c :: cs) with
    | none => scanFrom step 0 cs
    | some (found, taken) => found :: scanFrom step (taken - 1) cs

/-- All matches in a text. -/
def scan (step : List α → Option (β × ℕ)) (s : List α) : List β := scanFrom step 0 s

/-- The text with its matches replaced, the first `skip` elements of which are part of the last
one. -/
def substFrom (step : List α → Option (β × ℕ)) (new : β → List α) : ℕ → List α → List α
  | _, [] => []
  | skip + 1, _ :: cs => substFrom step new skip cs
  | 0, c :: cs =>
    match step (c :: cs) with
    | none => c :: substFrom step new 0 cs
    | some (found, taken) => new found ++ substFrom step new (taken - 1) cs

/-- The text with its matches replaced. -/
def subst (step : List α → Option (β × ℕ)) (new : β → List α) (s : List α) : List α :=
  substFrom step new 0 s

variable {step : List α → Option (β × ℕ)}

@[simp] theorem scan_nil : scan step [] = [] := rfl

theorem scanFrom_eq (skip : ℕ) (s : List α) : scanFrom step skip s = scan step (s.drop skip) := by
  induction s generalizing skip with
  | nil => simp [scanFrom]
  | cons c cs ih =>
    cases skip with
    | zero => rfl
    | succ skip => rw [scanFrom, ih, List.drop_succ_cons]

theorem scan_cons_of_none {c : α} {cs : List α} (h : step (c :: cs) = none) :
    scan step (c :: cs) = scan step cs := by
  rw [scan, scanFrom, h]
  rfl

/-- **A text without a match** adds nothing, whatever comes behind it. -/
theorem scan_append_of_none {before s : List α}
    (h : ∀ t, t ≠ [] → t <:+ before → step (t ++ s) = none) :
    scan step (before ++ s) = scan step s := by
  induction before with
  | nil => rfl
  | cons c before ih =>
    have hc := h (c :: before) (List.cons_ne_nil _ _) List.suffix_rfl
    rw [List.cons_append] at hc ⊢
    rw [scan_cons_of_none hc]
    exact ih fun t hne ht => h t hne (ht.trans (List.suffix_cons _ _))

/-- **A match** is found, and the scan goes on behind it. -/
theorem scan_append_of_some {found : β} {taken s : List α} (hne : taken ≠ [])
    (h : step (taken ++ s) = some (found, taken.length)) :
    scan step (taken ++ s) = found :: scan step s := by
  obtain ⟨c, cs, rfl⟩ := List.exists_cons_of_ne_nil hne
  rw [List.cons_append] at h ⊢
  rw [scan, scanFrom, h]
  simp [scanFrom_eq]

/-- A text without a match. -/
theorem scan_eq_nil {s : List α} (h : ∀ t, t ≠ [] → t <:+ s → step t = none) :
    scan step s = [] := by
  have hnone := @scan_append_of_none _ _ step s [] fun t hne ht => by
    rw [List.append_nil]
    exact h t hne ht
  rwa [List.append_nil, scan_nil] at hnone

/-! ## Pieces in their order -/

/-- The pieces occur in the text, each behind the end of the one before. -/
def InOrder : List (List α) → List α → Prop
  | [], _ => True
  | piece :: pieces, s => ∃ before after, s = before ++ (piece ++ after) ∧ InOrder pieces after

theorem InOrder.append_left {pieces : List (List α)} {s : List α} (h : InOrder pieces s)
    (before : List α) : InOrder pieces (before ++ s) := by
  cases pieces with
  | nil => trivial
  | cons piece pieces =>
    obtain ⟨before', after, rfl, hrest⟩ := h
    exact ⟨before ++ before', after, (List.append_assoc _ _ _).symm, hrest⟩

/-- **Pieces that occur in their order** are together no longer than the text. -/
theorem InOrder.length_le {pieces : List (List α)} {s : List α} (h : InOrder pieces s) :
    (pieces.map List.length).sum ≤ s.length := by
  induction pieces generalizing s with
  | nil => simp
  | cons piece pieces ih =>
    obtain ⟨before, after, rfl, hrest⟩ := h
    have hafter := ih hrest
    simp only [List.map_cons, List.sum_cons, List.length_append]
    omega

/-- Pieces occur in what they are joined to. -/
theorem inOrder_intercalate (sep : List α) (pieces : List (List α)) :
    InOrder pieces (sep.intercalate pieces) := by
  induction pieces with
  | nil => trivial
  | cons piece pieces ih =>
    cases pieces with
    | nil => exact ⟨[], [], by simp, trivial⟩
    | cons next pieces =>
      refine ⟨[], sep ++ sep.intercalate (next :: pieces), ?_, ih.append_left sep⟩
      rw [List.intercalate_cons_cons, List.nil_append, List.append_assoc]

end Scan
