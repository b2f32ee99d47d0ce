import Mathlib

/-!
# Lists of fallible calls

A function that may fail, on every element of a list: the results come in the order of the
elements, or there are none.

* `mapM_eq_some_iff` — the results, element by element.
* `exists_mapM_iff` — **there are results** when no element fails.
* `forall_mem_of_mapM`, `getElem?_of_mapM`, `countP_of_mapM` — what holds of the results, from
  the elements.
* `findSome?_of_sorted` — the first result of a sorted list is that of the least element with one.
* `filterMap_eq_iff` — two functions give the same results, in their order.
* `all_or_cut`, `eq_or_mem_of_cut` — a list up to the first element without a property.
-/

namespace Traverse

variable {α β : Type*}

theorem mapM_eq_some_iff {f : α → Option β} {l : List α} {ys : List β} :
    l.mapM f = some ys ↔ List.Forall₂ (fun x y => f x = some y) l ys := by
  induction l generalizing ys with
  | nil => cases ys <;> simp
  | cons x l ih =>
    rw [List.mapM_cons, Option.bind_eq_bind, Option.bind_eq_some_iff]
    constructor
    · rintro ⟨y, hy, h⟩
      obtain ⟨rest, hrest, h⟩ := Option.bind_eq_some_iff.1 h
      obtain rfl := Option.some.inj h
      exact .cons hy (ih.1 hrest)
    · intro h
      cases h with
      | @cons _ y _ rest hy hrest => exact ⟨y, hy, by rw [ih.2 hrest]; rfl⟩

/-- **There are results** exactly when no element fails. -/
theorem exists_mapM_iff {f : α → Option β} {l : List α} :
    (∃ ys, l.mapM f = some ys) ↔ ∀ x ∈ l, f x ≠ none := by
  induction l with
  | nil => simp
  | cons x l ih =>
    rw [List.mapM_cons, List.forall_mem_cons, ← ih]
    cases f x with
    | none => simp
    | some y => cases l.mapM f <;> simp

/-- The results are those of the elements that have one. -/
theorem filterMap_of_mapM {f : α → Option β} {l : List α} {ys : List β}
    (h : l.mapM f = some ys) : ys = l.filterMap f := by
  have hresults := mapM_eq_some_iff.1 h
  clear h
  induction hresults with
  | nil => rfl
  | cons hy _ ih => rw [List.filterMap_cons_some hy, ih]

/-- What holds of every result, and of the element it comes from. -/
theorem forall_mem_of_mapM {f : α → Option β} {l : List α} {ys : List β}
    (h : l.mapM f = some ys) {P : β → Prop} :
    (∀ y ∈ ys, P y) ↔ ∀ x ∈ l, ∀ y, f x = some y → P y := by
  rw [filterMap_of_mapM h]
  simp only [List.mem_filterMap]
  constructor
  · exact fun hall x hx y hy => hall y ⟨x, hx, hy⟩
  · rintro hall y ⟨x, hx, hy⟩
    exact hall x hx y hy

theorem map_eq_of_mapM {f : α → Option β} {l : List α} {ys : List β} (h : l.mapM f = some ys) :
    l.map f = ys.map some := by
  have hresults := mapM_eq_some_iff.1 h
  clear h
  induction hresults with
  | nil => rfl
  | cons hy _ ih => rw [List.map_cons, List.map_cons, ih, hy]

/-- What is read off the results can be read off the elements. -/
theorem map_of_mapM {γ : Type*} {f : α → Option β} {l : List α} {ys : List β}
    (h : l.mapM f = some ys) {g : β → γ} {g' : α → γ}
    (hg : ∀ x ∈ l, ∀ y, f x = some y → g y = g' x) : ys.map g = l.map g' := by
  have hresults := mapM_eq_some_iff.1 h
  clear h
  induction hresults with
  | nil => rfl
  | @cons x y l ys hy _ ih =>
    obtain ⟨hx, hl⟩ := List.forall_mem_cons.1 hg
    rw [List.map_cons, List.map_cons, ih hl, hx y hy]

/-- The result in a place is that of the element in it. -/
theorem getElem?_of_mapM {f : α → Option β} {l : List α} {ys : List β} (h : l.mapM f = some ys)
    (i : ℕ) : ys[i]? = l[i]?.bind f := by
  have hresults := mapM_eq_some_iff.1 h
  clear h
  induction hresults generalizing i with
  | nil => rfl
  | cons hy _ ih =>
    cases i with
    | zero => exact hy.symm
    | succ i => exact ih i

/-- The results are distinct when the calls come to distinct ones. -/
theorem nodup_of_mapM {f : α → Option β} {l : List α} {ys : List β} (h : l.mapM f = some ys) :
    ys.Nodup ↔ (l.map f).Nodup := by
  rw [map_eq_of_mapM h, List.nodup_map_iff (Option.some_injective β)]

/-- Results are counted with the elements they come from. -/
theorem countP_of_mapM {f : α → Option β} {l : List α} {ys : List β} (h : l.mapM f = some ys)
    {p : β → Bool} {q : α → Bool} (hpq : ∀ x ∈ l, ∀ y, f x = some y → p y = q x) :
    ys.countP p = l.countP q := by
  have hresults := mapM_eq_some_iff.1 h
  clear h
  induction hresults with
  | nil => rfl
  | @cons x y l ys hy _ ih =>
    obtain ⟨hx, hl⟩ := List.forall_mem_cons.1 hpq
    rw [List.countP_cons, List.countP_cons, ih hl, hx y hy]

/-- **The first result** of a sorted list is that of the least element that has one. -/
theorem findSome?_of_sorted [PartialOrder α] {f : α → Option β} {l : List α} {y : β}
    (h : l.Pairwise (· ≤ ·)) :
    l.findSome? f = some y ↔
      ∃ x ∈ l, f x = some y ∧ ∀ x' ∈ l, (∃ y', f x' = some y') → x ≤ x' := by
  induction l with
  | nil => simp
  | cons a l ih =>
    rw [List.pairwise_cons] at h
    cases ha : f a with
    | none =>
      rw [List.findSome?_cons_of_isNone (by rw [ha]; rfl), ih h.2]
      simp [ha]
    | some z =>
      rw [List.findSome?_cons_of_isSome (by rw [ha]; rfl), ha]
      constructor
      · intro hz
        refine ⟨a, List.mem_cons_self, hz ▸ ha, fun x' hx' _ => ?_⟩
        rcases List.mem_cons.1 hx' with rfl | hmem
        · exact le_rfl
        · exact h.1 x' hmem
      · rintro ⟨x, hx, hy, hleast⟩
        have hle := hleast a List.mem_cons_self ⟨z, ha⟩
        rcases List.mem_cons.1 hx with rfl | hmem
        · rw [← ha, hy]
        · rw [le_antisymm (h.1 x hmem) hle] at ha
          rw [← ha, hy]

/-- **The same results**, element by element, of a function that has one wherever the other has. -/
theorem filterMap_eq_iff {f g : α → Option β} {l : List α}
    (h : ∀ x ∈ l, (g x).isSome = true → (f x).isSome = true) :
    l.filterMap f = l.filterMap g ↔ ∀ x ∈ l, f x = g x := by
  constructor
  · intro heq
    have hlength : l.countP (fun x => (f x).isSome) = l.countP fun x => (g x).isSome := by
      rw [← List.length_filterMap_eq_countP, heq, List.length_filterMap_eq_countP]
    induction l with
    | nil => simp
    | cons x l ih =>
      obtain ⟨hx, hl⟩ := List.forall_mem_cons.1 h
      have hle := List.countP_mono_left hl
      rw [List.countP_cons, List.countP_cons] at hlength
      cases hf : f x with
      | none =>
        have hg : g x = none := by
          rw [← Option.not_isSome_iff_eq_none]
          intro hsome
          have hfx := hx hsome
          rw [hf] at hfx
          cases hfx
        rw [List.filterMap_cons_none hf, List.filterMap_cons_none hg] at heq
        rw [hf, hg] at hlength
        exact List.forall_mem_cons.2 ⟨hf.trans hg.symm, ih hl heq (by simpa using hlength)⟩
      | some y =>
        cases hg : g x with
        | none =>
          rw [hf, hg] at hlength
          simp at hlength
          omega
        | some z =>
          rw [List.filterMap_cons_some hf, List.filterMap_cons_some hg] at heq
          rw [hf, hg] at hlength
          obtain ⟨hyz, hrest⟩ := List.cons.inj heq
          refine List.forall_mem_cons.2 ⟨?_, ih hl hrest (by simpa using hlength)⟩
          rw [hf, hg, hyz]
  · exact List.filterMap_congr

/-- **A list up to the first element** without a property. -/
theorem all_or_cut (p : α → Bool) (l : List α) :
    (∀ x ∈ l, p x = true) ∨
      ∃ before x after, l = before ++ x :: after ∧ (∀ y ∈ before, p y = true) ∧ p x = false := by
  induction l with
  | nil => exact .inl (by simp)
  | cons x l ih =>
    cases hx : p x with
    | false => exact .inr ⟨[], x, l, rfl, by simp, hx⟩
    | true =>
      rcases ih with hall | ⟨before, y, after, rfl, hbefore, hy⟩
      · exact .inl (List.forall_mem_cons.2 ⟨hx, hall⟩)
      · exact .inr ⟨x :: before, y, after, rfl, List.forall_mem_cons.2 ⟨hx, hbefore⟩, hy⟩

/-- The first element without a property is not behind another one. -/
theorem eq_or_mem_of_cut {p : α → Bool} {before before' after after' : List α} {x y : α}
    (heq : before ++ x :: after = before' ++ y :: after') (h : ∀ z ∈ before, p z = true)
    (hy : p y = false) : x = y ∨ x ∈ before' := by
  rcases List.append_eq_append_iff.1 heq with ⟨between, hbefore, hrest⟩ | ⟨between, hbefore, hrest⟩
  · cases between with
    | nil => exact .inl (List.cons.inj hrest).1
    | cons z between =>
      obtain ⟨rfl, -⟩ := List.cons.inj hrest
      exact .inr (by simp [hbefore])
  · cases between with
    | nil => exact .inl (List.cons.inj hrest).1.symm
    | cons z between =>
      obtain ⟨rfl, -⟩ := List.cons.inj hrest
      have hz := h y (by simp [hbefore])
      rw [hy] at hz
      cases hz

end Traverse
