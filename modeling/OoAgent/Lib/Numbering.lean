import OoAgent.Lib.Dict

/-!
# Numbering occurrences

A loop over a list that keeps in a dictionary how often it has met each element, and gives
every element the number of its earlier occurrences.

* `numbersFrom` — the loop.
* `getElem?_numbersFrom` — **the number of an element** counts the same ones before it.
* `occurrences_lt` — an element that comes again has a larger number.
-/

namespace Numbering

variable {κ : Type*} [DecidableEq κ]

/-- How often an element was met. -/
def met (seen : Dict κ ℕ) (k : κ) : ℕ := (seen.get k).getD 0

/-- The numbers of the elements of a list, after others were seen. -/
def numbersFrom (seen : Dict κ ℕ) : List κ → List ℕ
  | [] => []
  | k :: ks => met seen k :: numbersFrom (seen.set k (met seen k + 1)) ks

theorem met_set (seen : Dict κ ℕ) (k k' : κ) (n : ℕ) :
    met (seen.set k n) k' = if k = k' then n else met seen k' := by
  rw [met, Dict.get_set]
  split_ifs <;> rfl

/-- The number of places with an element. -/
def occurrences (k : κ) (l : List κ) : ℕ := l.countP fun k' => k' = k

/-- **The number of an element** counts the same ones before it. -/
theorem getElem?_numbersFrom (seen : Dict κ ℕ) (l : List κ) (i : ℕ) :
    (numbersFrom seen l)[i]? = l[i]?.map fun k => met seen k + occurrences k (l.take i) := by
  induction l generalizing seen i with
  | nil => rfl
  | cons k l ih =>
    cases i with
    | zero => simp [numbersFrom, occurrences]
    | succ i =>
      rw [numbersFrom, List.getElem?_cons_succ, List.getElem?_cons_succ, ih]
      refine Option.map_congr fun k' _ => ?_
      rw [met_set, List.take_succ_cons, occurrences, occurrences, List.countP_cons]
      by_cases hk : k = k'
      · subst hk
        rw [if_pos rfl, if_pos (decide_eq_true rfl)]
        omega
      · rw [if_neg hk, if_neg (by simpa using hk)]
        rfl

/-- An element that comes again has a larger number. -/
theorem occurrences_lt {l : List κ} {k : κ} {i j : ℕ} (hij : i < j) (hi : l[i]? = some k) :
    occurrences k (l.take i) < occurrences k (l.take j) := by
  have hnext : occurrences k (l.take (i + 1)) = occurrences k (l.take i) + 1 := by
    rw [occurrences, occurrences, List.take_add_one, hi, Option.toList_some, List.countP_append,
      List.countP_singleton, if_pos (decide_eq_true rfl)]
  have hle : occurrences k (l.take (i + 1)) ≤ occurrences k (l.take j) :=
    (List.take_sublist_take_left hij).countP_le
  omega

end Numbering
