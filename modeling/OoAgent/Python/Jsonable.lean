import OoAgent.Python.Json

/-!
# Values that are JSON

A value made of nothing but what JSON has, with strings for keys and no key twice: what a
collector ought to return.

* `jsonable` — such values.
* `isSome_toJson` — `json.dumps` takes them; `keysApart_of_jsonable` — they come back as they
  were.
* `dumpable` — what `json.dumps` gets through at all, with its depth of nesting.
-/

namespace OoAgent

/-- A key that is a string. -/
def isStrKey : Key → Bool
  | .str _ => true
  | .other _ => false

mutual

/-- A value that is JSON as it stands. -/
def jsonable : Value → Bool
  | .int n => convertible n
  | .float (.finite q) => (PyFloat.floatSpelling q).isSome
  | .list items => jsonableItems items
  | .tuple items => jsonableItems items
  | .dict items => decide ((items.map Prod.fst).Nodup) && jsonablePairs items
  | .object _ => false
  | _ => true

/-- The items of a list are. -/
def jsonableItems : List Value → Bool
  | [] => true
  | v :: vs => jsonable v && jsonableItems vs

/-- The values of a dictionary are, and its keys are strings. -/
def jsonablePairs : List (Key × Value) → Bool
  | [] => true
  | (k, v) :: vs => isStrKey k && jsonable v && jsonablePairs vs

end

theorem jsonableItems_iff {vs : List Value} :
    jsonableItems vs = true ↔ ∀ v ∈ vs, jsonable v = true := by
  induction vs with
  | nil => simp [jsonableItems]
  | cons v vs ih => rw [jsonableItems, Bool.and_eq_true, ih, List.forall_mem_cons]

theorem jsonablePairs_iff {vs : List (Key × Value)} :
    jsonablePairs vs = true ↔ ∀ item ∈ vs, isStrKey item.1 = true ∧ jsonable item.2 = true := by
  induction vs with
  | nil => simp [jsonablePairs]
  | cons item vs ih =>
    obtain ⟨k, v⟩ := item
    rw [jsonablePairs, Bool.and_eq_true, Bool.and_eq_true, ih, List.forall_mem_cons]

theorem jsonable_dict_iff {items : List (Key × Value)} :
    jsonable (.dict items) = true ↔ (items.map Prod.fst).Nodup ∧
      ∀ item ∈ items, isStrKey item.1 = true ∧ jsonable item.2 = true := by
  rw [jsonable, Bool.and_eq_true, decide_eq_true_eq, jsonablePairs_iff]

theorem jsonable_list_iff {items : List Value} :
    jsonable (.list items) = true ↔ ∀ v ∈ items, jsonable v = true := jsonableItems_iff

/-- What is under a key of such a dictionary. -/
theorem jsonable_lookup {items : List (Key × Value)} (h : jsonable (.dict items) = true)
    {key : String} {v : Value} (hv : Value.lookup items key = some v) : jsonable v = true :=
  ((jsonable_dict_iff.1 h).2 _ (Dict.mem_of_get hv)).2

theorem jsonable_getD {items : List (Key × Value)} (h : jsonable (.dict items) = true)
    {key : String} {v : Value} (hdefault : jsonable v = true) :
    jsonable (Value.getD items key v) = true := by
  unfold Value.getD
  cases hlookup : Value.lookup items key with
  | none => exact hdefault
  | some w => exact jsonable_lookup h hlookup

theorem exists_str {k : Key} (h : isStrKey k = true) : ∃ s, k = .str s := by
  cases k with
  | str s => exact ⟨s, rfl⟩
  | other n => exact absurd h (by simp [isStrKey])

variable (calls : JsonCalls)

mutual

/-- **`json.dumps` takes them.** -/
theorem isSome_toJson {v : Value} (h : jsonable v = true) : (toJson calls v).isSome = true := by
  cases v with
  | int n =>
    rw [jsonable] at h
    rw [toJson, if_pos h]
    rfl
  | float x =>
    cases x with
    | finite q =>
      rw [jsonable] at h
      obtain ⟨s, hs⟩ := Option.isSome_iff_exists.1 h
      have hvalid := (PyFloat.value_floatSpelling hs).1
      simp [toJson, hs, number?, hvalid]
    | negZero => simp [toJson, number?, PyFloat.valid_negZeroSpelling]
    | inf negative => rfl
    | nan => rfl
  | list items =>
    rw [toJson, Option.isSome_map]
    exact isSome_toJsonItems h
  | tuple items =>
    rw [toJson, Option.isSome_map]
    exact isSome_toJsonItems h
  | dict items =>
    rw [jsonable, Bool.and_eq_true] at h
    rw [toJson, Option.isSome_map]
    exact isSome_toJsonPairs h.2
  | object id => exact absurd h (by simp [jsonable])
  | none => rfl
  | bool b => rfl
  | str s => rfl

theorem isSome_toJsonItems {vs : List Value} (h : jsonableItems vs = true) :
    (toJsonItems calls vs).isSome = true := by
  cases vs with
  | nil => rfl
  | cons v vs =>
    rw [jsonableItems, Bool.and_eq_true] at h
    obtain ⟨j, hj⟩ := Option.isSome_iff_exists.1 (isSome_toJson h.1)
    obtain ⟨js, hjs⟩ := Option.isSome_iff_exists.1 (isSome_toJsonItems h.2)
    simp [toJsonItems, hj, hjs]

theorem isSome_toJsonPairs {vs : List (Key × Value)} (h : jsonablePairs vs = true) :
    (toJsonPairs calls vs).isSome = true := by
  cases vs with
  | nil => rfl
  | cons item vs =>
    obtain ⟨k, v⟩ := item
    rw [jsonablePairs, Bool.and_eq_true, Bool.and_eq_true] at h
    obtain ⟨⟨hk, hv⟩, hvs⟩ := h
    obtain ⟨s, rfl⟩ := exists_str hk
    obtain ⟨j, hj⟩ := Option.isSome_iff_exists.1 (isSome_toJson hv)
    obtain ⟨js, hjs⟩ := Option.isSome_iff_exists.1 (isSome_toJsonPairs hvs)
    simp [toJsonPairs, keyText_str, hj, hjs]

end

mutual

/-- **They have no two keys of the same text.** -/
theorem keysApart_of_jsonable {v : Value} (h : jsonable v = true) : keysApart calls v = true := by
  cases v with
  | list items => exact keysApartItems_of_jsonable h
  | tuple items => exact keysApartItems_of_jsonable h
  | dict items =>
    obtain ⟨hnodup, hitems⟩ := jsonable_dict_iff.1 h
    have htext : items.map (fun item => keyText calls item.1) =
        (items.map Prod.fst).map (keyText calls) := by
      rw [List.map_map]
      rfl
    have hapart : (items.map fun item => keyText calls item.1).Nodup := by
      rw [htext]
      refine List.Nodup.map_on (fun k hk k' hk' heq => ?_) hnodup
      obtain ⟨item, hitem, rfl⟩ := List.mem_map.1 hk
      obtain ⟨item', hitem', rfl⟩ := List.mem_map.1 hk'
      obtain ⟨s, hs⟩ := exists_str (hitems item hitem).1
      obtain ⟨s', hs'⟩ := exists_str (hitems item' hitem').1
      rw [hs, hs', keyText_str, keyText_str, Option.some_inj] at heq
      rw [hs, hs', heq]
    rw [keysApart, Bool.and_eq_true, decide_eq_true_eq]
    exact ⟨hapart, keysApartPairs_of_jsonable (jsonablePairs_iff.2 hitems)⟩
  | object id => rfl
  | none => rfl
  | bool b => rfl
  | int n => rfl
  | float x => rfl
  | str s => rfl

theorem keysApartItems_of_jsonable {vs : List Value} (h : jsonableItems vs = true) :
    keysApartItems calls vs = true := by
  cases vs with
  | nil => rfl
  | cons v vs =>
    rw [jsonableItems, Bool.and_eq_true] at h
    rw [keysApartItems, Bool.and_eq_true]
    exact ⟨keysApart_of_jsonable h.1, keysApartItems_of_jsonable h.2⟩

theorem keysApartPairs_of_jsonable {vs : List (Key × Value)} (h : jsonablePairs vs = true) :
    keysApartPairs calls vs = true := by
  cases vs with
  | nil => rfl
  | cons item vs =>
    obtain ⟨k, v⟩ := item
    rw [jsonablePairs, Bool.and_eq_true, Bool.and_eq_true] at h
    rw [keysApartPairs, Bool.and_eq_true]
    exact ⟨keysApart_of_jsonable h.1.2, keysApartPairs_of_jsonable h.2⟩

end

theorem isSome_dumps {v : Value} (h : jsonable v = true) : (dumps calls v).isSome = true := by
  rw [dumps, Option.isSome_map]
  exact isSome_toJson calls h

/-! ## What `json.dumps` gets through -/

variable {calls}

theorem isSome_toJsonItems_iff {vs : List Value} :
    (toJsonItems calls vs).isSome = true ↔ ∀ v ∈ vs, (toJson calls v).isSome = true := by
  induction vs with
  | nil => simp [toJsonItems]
  | cons v vs ih =>
    rw [List.forall_mem_cons, ← ih, toJsonItems]
    cases toJson calls v <;> cases toJsonItems calls vs <;> simp

theorem isSome_toJsonPairs_iff {vs : List (Key × Value)} :
    (toJsonPairs calls vs).isSome = true ↔
      ∀ item ∈ vs, (keyText calls item.1).isSome = true ∧
        (toJson calls item.2).isSome = true := by
  induction vs with
  | nil => simp [toJsonPairs]
  | cons item vs ih =>
    obtain ⟨k, v⟩ := item
    rw [List.forall_mem_cons, ← ih, toJsonPairs]
    cases keyText calls k <;> cases toJson calls v <;> cases toJsonPairs calls vs <;> simp

mutual

/-- How many lists and dictionaries are nested in each other. -/
def nesting : Value → ℕ
  | .list items => nestingItems items + 1
  | .tuple items => nestingItems items + 1
  | .dict items => nestingPairs items + 1
  | _ => 0

/-- The deepest nesting of the items of a list. -/
def nestingItems : List Value → ℕ
  | [] => 0
  | v :: vs => max (nesting v) (nestingItems vs)

/-- The deepest nesting of the values of a dictionary. -/
def nestingPairs : List (Key × Value) → ℕ
  | [] => 0
  | (_, v) :: vs => max (nesting v) (nestingPairs vs)

end

theorem nestingItems_le {vs : List Value} {n : ℕ} :
    nestingItems vs ≤ n ↔ ∀ v ∈ vs, nesting v ≤ n := by
  induction vs with
  | nil => simp [nestingItems]
  | cons v vs ih => rw [nestingItems, max_le_iff, ih, List.forall_mem_cons]

theorem nestingPairs_le {vs : List (Key × Value)} {n : ℕ} :
    nestingPairs vs ≤ n ↔ ∀ item ∈ vs, nesting item.2 ≤ n := by
  induction vs with
  | nil => simp [nestingPairs]
  | cons item vs ih =>
    obtain ⟨k, v⟩ := item
    rw [nestingPairs, max_le_iff, ih, List.forall_mem_cons]

variable (calls)

/-- `json.dumps` gets through the value with so many levels of nesting left: everything in it has
a text, and no level more ends in a `RecursionError`. -/
def dumpable (levels : ℕ) (v : Value) : Bool :=
  (dumps calls v).isSome && decide (nesting v ≤ levels)

variable {calls}

theorem dumpable_iff {levels : ℕ} {v : Value} :
    dumpable calls levels v = true ↔ (toJson calls v).isSome = true ∧ nesting v ≤ levels := by
  rw [dumpable, Bool.and_eq_true, decide_eq_true_eq, dumps, Option.isSome_map]

theorem dumpable_list_iff {levels : ℕ} {vs : List Value} :
    dumpable calls (levels + 1) (.list vs) = true ↔ ∀ v ∈ vs, dumpable calls levels v = true := by
  simp only [dumpable_iff, toJson, Option.isSome_map, isSome_toJsonItems_iff, nesting,
    Nat.add_le_add_iff_right, nestingItems_le, ← forall₂_and]

theorem dumpable_dict_iff {levels : ℕ} {items : List (Key × Value)} :
    dumpable calls (levels + 1) (.dict items) = true ↔
      ∀ item ∈ items, (keyText calls item.1).isSome = true ∧
        dumpable calls levels item.2 = true := by
  simp only [dumpable_iff, toJson, Option.isSome_map, isSome_toJsonPairs_iff, nesting,
    Nat.add_le_add_iff_right, nestingPairs_le, ← forall₂_and, and_assoc]

end OoAgent
