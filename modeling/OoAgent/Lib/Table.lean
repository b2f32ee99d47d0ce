import Mathlib

/-!
# Tables with an AUTOINCREMENT key

A table whose primary key is an `INTEGER PRIMARY KEY AUTOINCREMENT`: a partial
function from ids to columns, together with the largest id ever handed out.  It says
nothing about where the rows are stored, so whoever wants them in an order has to
ask for it.

* `select` — the rows in the order of their ids; `mem_select`, `select_sorted`.
* `insert`, `delete`, `deleteMany` — the statements, and what they do to `select`.
* `Later` — what statements can make of a table: an id that was handed out keeps its
  row or loses it for good.
-/

/-- A table with columns `ρ`. -/
structure Table (ρ : Type*) where
  /-- The columns of the row with a given id. -/
  find : Nat → Option ρ
  /-- The largest id handed out so far. -/
  seq : Nat
  bounded : ∀ id, seq < id → find id = none

namespace Table

variable {ρ : Type*}

/-! ## Statements -/

/-- `SELECT ... ORDER BY id`. -/
def select (t : Table ρ) : List (Nat × ρ) :=
  (List.range (t.seq + 1)).filterMap fun id => (t.find id).map fun r => (id, r)

/-- `SELECT COUNT(*)`. -/
def count (t : Table ρ) : Nat := t.select.length

/-- `INSERT`: the next id is one more than any id before it. -/
def insert (t : Table ρ) (r : ρ) : Table ρ where
  find := Function.update t.find (t.seq + 1) (some r)
  seq := t.seq + 1
  bounded := by
    intro id hid
    rw [Function.update_of_ne (by omega)]
    exact t.bounded id (by omega)

/-- `DELETE ... WHERE p`. -/
def delete (t : Table ρ) (p : Nat → ρ → Bool) : Table ρ where
  find id := (t.find id).filter fun r => !p id r
  seq := t.seq
  bounded := by
    intro id hid
    rw [t.bounded id hid]
    rfl

/-- `executemany("DELETE ... WHERE id = ?", ids)`. -/
def deleteMany (t : Table ρ) (ids : List Nat) : Table ρ :=
  ids.foldl (fun t i => t.delete fun id _ => id == i) t

/-! ## What a selection shows -/

theorem mem_select {t : Table ρ} {id : Nat} {r : ρ} : (id, r) ∈ t.select ↔ t.find id = some r := by
  constructor
  · intro h
    obtain ⟨id', -, hid'⟩ := List.mem_filterMap.1 h
    obtain ⟨r', hr', heq⟩ := Option.map_eq_some_iff.1 hid'
    obtain ⟨rfl, rfl⟩ := Prod.mk.inj heq
    exact hr'
  · intro h
    have hid : id < t.seq + 1 := by
      by_contra hlate
      rw [t.bounded id (by omega)] at h
      exact absurd h (by simp)
    exact List.mem_filterMap.2 ⟨id, List.mem_range.2 hid, by rw [h]; rfl⟩

/-- Ids increase along a selection. -/
theorem select_sorted (t : Table ρ) : t.select.Pairwise fun a b => a.1 < b.1 := by
  refine List.Pairwise.filterMap _ ?_ List.pairwise_lt_range
  intro i j hij a ha b hb
  obtain ⟨r, -, rfl⟩ := Option.map_eq_some_iff.1 ha
  obtain ⟨s, -, rfl⟩ := Option.map_eq_some_iff.1 hb
  exact hij

/-- No selected row has an id that was not handed out. -/
theorem select_le_seq {t : Table ρ} {a : Nat × ρ} (h : a ∈ t.select) : a.1 ≤ t.seq := by
  obtain ⟨id, r⟩ := a
  by_contra hlate
  have hfind := mem_select.1 h
  rw [t.bounded id (by simpa using hlate)] at hfind
  exact absurd hfind (by simp)

theorem select_insert (t : Table ρ) (r : ρ) :
    (t.insert r).select = t.select ++ [(t.seq + 1, r)] := by
  have hold : (List.range (t.seq + 1)).filterMap
      (fun id => ((t.insert r).find id).map fun r => (id, r)) = t.select := by
    refine List.filterMap_congr fun id hid => ?_
    have hne : id ≠ t.seq + 1 := by
      have hlt := List.mem_range.1 hid
      omega
    show ((Function.update t.find (t.seq + 1) (some r)) id).map _ = _
    rw [Function.update_of_ne hne]
  have hnew : (t.insert r).find (t.seq + 1) = some r := Function.update_self ..
  show (List.range (t.seq + 1 + 1)).filterMap _ = _
  rw [List.range_succ, List.filterMap_append, hold, List.filterMap_cons, hnew]
  rfl

theorem select_delete (t : Table ρ) (p : Nat → ρ → Bool) :
    (t.delete p).select = t.select.filter fun a => !p a.1 a.2 := by
  rw [select, select, List.filter_filterMap]
  refine List.filterMap_congr fun id _ => ?_
  show ((t.find id).filter _).map _ = _
  cases t.find id with
  | none => rfl
  | some r => cases hp : p id r <;> simp [Option.filter, hp]

theorem select_deleteMany (t : Table ρ) (ids : List Nat) :
    (t.deleteMany ids).select = t.select.filter fun a => !decide (a.1 ∈ ids) := by
  induction ids generalizing t with
  | nil => simp [deleteMany]
  | cons i ids ih =>
    show ((t.delete _).deleteMany ids).select = _
    rw [ih, select_delete, List.filter_filter]
    refine List.filter_congr fun a _ => ?_
    by_cases hi : a.1 = i <;> simp [hi]

@[simp] theorem seq_deleteMany (t : Table ρ) (ids : List Nat) : (t.deleteMany ids).seq = t.seq := by
  induction ids generalizing t with
  | nil => rfl
  | cons i ids ih => exact ih _

/-! ## The life of an id -/

/-- What statements can make of a table: an id that was handed out keeps its row or loses
it, and is not handed out again. -/
structure Later (t t' : Table ρ) : Prop where
  grows : t.seq ≤ t'.seq
  kept : ∀ id ≤ t.seq, t'.find id = none ∨ t'.find id = t.find id

theorem Later.refl (t : Table ρ) : Later t t := ⟨le_rfl, fun _ _ => .inr rfl⟩

theorem Later.trans {t t' t'' : Table ρ} (h : Later t t') (h' : Later t' t'') : Later t t'' := by
  refine ⟨h.grows.trans h'.grows, fun id hid => ?_⟩
  rcases h'.kept id (hid.trans h.grows) with hgone | hsame
  · exact .inl hgone
  · rcases h.kept id hid with hgone | hkept
    · exact .inl (hsame.trans hgone)
    · exact .inr (hsame.trans hkept)

theorem later_insert (t : Table ρ) (r : ρ) : Later t (t.insert r) := by
  refine ⟨Nat.le_succ _, fun id hid => .inr ?_⟩
  exact Function.update_of_ne (by omega) _ _

theorem later_delete (t : Table ρ) (p : Nat → ρ → Bool) : Later t (t.delete p) := by
  refine ⟨le_rfl, fun id _ => ?_⟩
  show (t.find id).filter _ = none ∨ (t.find id).filter _ = t.find id
  cases t.find id with
  | none => exact .inl rfl
  | some r => cases hp : p id r <;> simp [Option.filter, hp]

theorem later_deleteMany (t : Table ρ) (ids : List Nat) : Later t (t.deleteMany ids) := by
  induction ids generalizing t with
  | nil => exact .refl t
  | cons i ids ih => exact (later_delete t _).trans (ih _)

end Table
