import Mathlib

/-!
# Insertion-ordered dictionaries

A dictionary that is only ever read by key and written one item at a time, with its
items in the order in which their keys first came.  A write to a key that is present
replaces the value where it stands.

* `get`, `set` — one key; `get_set` says what a write changes.
* `update` — a list of writes, one after the other; `get_update_of_notMem` is the
  frame rule, `get_update_mem` says what a written key holds, `get_update_eq_some` that its
  last write decides.
* `nodup_update`, `mem_update` — the keys stay distinct, and the items come from the
  writes.
* `gather` — elements folded into the value under their key; `get_gather` says that a key
  holds the fold of its own elements.
* `keepLargest` — a write that only ever raises a value; `get_foldl_keepLargest` says that a
  key holds the largest of its values.
-/

/-- A dictionary, as the list of its items. -/
abbrev Dict (κ ν : Type*) := List (κ × ν)

namespace Dict

variable {κ ν : Type*} [DecidableEq κ]

/-- The value under a key. -/
def get (d : Dict κ ν) (k : κ) : Option ν := List.lookup k d

/-- Write a value under a key. -/
def set : Dict κ ν → κ → ν → Dict κ ν
  | [], k, v => [(k, v)]
  | (k', v') :: d, k, v => if k' = k then (k', v) :: d else (k', v') :: set d k v

/-- Write a list of items, one after the other. -/
def update (d : Dict κ ν) (items : List (κ × ν)) : Dict κ ν :=
  items.foldl (fun d item => d.set item.1 item.2) d

@[simp] theorem get_nil (k : κ) : get ([] : Dict κ ν) k = none := rfl

theorem get_cons (k k' : κ) (v : ν) (d : Dict κ ν) :
    get ((k', v) :: d) k = if k' = k then some v else get d k := by
  by_cases h : k' = k
  · subst h
    simp [get]
  · have hbeq : (k == k') = false := beq_eq_false_iff_ne.2 fun heq => h heq.symm
    simp [get, List.lookup_cons, hbeq, h]

/-- What a write changes: the value under its own key. -/
theorem get_set (d : Dict κ ν) (k k' : κ) (v : ν) :
    (d.set k v).get k' = if k = k' then some v else d.get k' := by
  induction d with
  | nil => rw [set, get_cons]
  | cons item d ih =>
    obtain ⟨j, w⟩ := item
    by_cases hj : j = k
    · subst hj
      rw [set, if_pos rfl, get_cons, get_cons]
      split_ifs <;> rfl
    · rw [set, if_neg hj, get_cons, get_cons, ih]
      by_cases hk : k = k'
      · subst hk
        simp [hj]
      · simp [hk]

/-- A dictionary whose values are all changed. -/
theorem get_map {ν' : Type*} (f : κ → ν → ν') (d : Dict κ ν) (k : κ) :
    get (List.map (fun item => (item.1, f item.1 item.2)) d) k = (d.get k).map (f k) := by
  induction d with
  | nil => rfl
  | cons item d ih =>
    obtain ⟨k', v⟩ := item
    rw [List.map_cons, get_cons, get_cons, ih]
    split_ifs with hk
    · rw [hk, Option.map_some]
    · rfl

@[simp] theorem update_nil (d : Dict κ ν) : d.update [] = d := rfl

@[simp] theorem update_cons (d : Dict κ ν) (item : κ × ν) (items : List (κ × ν)) :
    d.update (item :: items) = (d.set item.1 item.2).update items := rfl

theorem update_append (d : Dict κ ν) (l m : List (κ × ν)) :
    d.update (l ++ m) = (d.update l).update m := List.foldl_append

/-- **The frame rule**: a key that is not written keeps its value. -/
theorem get_update_of_notMem {items : List (κ × ν)} {k : κ} (h : k ∉ items.map Prod.fst)
    (d : Dict κ ν) : (d.update items).get k = d.get k := by
  induction items generalizing d with
  | nil => rfl
  | cons item items ih =>
    simp only [List.map_cons, List.mem_cons, not_or] at h
    rw [update_cons, ih h.2, get_set, if_neg fun heq => h.1 heq.symm]

/-- A key whose writes agree holds the value they agree on. -/
theorem get_update_of_agree {items : List (κ × ν)} {k : κ} {v : ν} (hmem : (k, v) ∈ items)
    (hagree : ∀ v', (k, v') ∈ items → v' = v) (d : Dict κ ν) :
    (d.update items).get k = some v := by
  induction items generalizing d with
  | nil => exact absurd hmem (by simp)
  | cons item items ih =>
    rw [update_cons]
    by_cases hlater : (k, v) ∈ items
    · exact ih hlater (fun v' hv' => hagree v' (List.mem_cons_of_mem _ hv')) _
    · -- the last write of the key is this one
      have hlast : k ∉ items.map Prod.fst := by
        rintro hk
        obtain ⟨⟨k', v'⟩, hitem, rfl⟩ := List.mem_map.1 hk
        obtain rfl := hagree v' (List.mem_cons_of_mem _ hitem)
        exact hlater hitem
      obtain rfl : item = (k, v) := by
        rcases List.mem_cons.1 hmem with heq | hmem
        · exact heq.symm
        · exact absurd hmem hlater
      rw [get_update_of_notMem hlast, get_set, if_pos rfl]

/-- A written key holds the value of one of its writes. -/
theorem get_update_mem {items : List (κ × ν)} {k : κ} (h : k ∈ items.map Prod.fst)
    (d : Dict κ ν) : ∃ v, (k, v) ∈ items ∧ (d.update items).get k = some v := by
  induction items generalizing d with
  | nil => exact absurd h (by simp)
  | cons item items ih =>
    rw [update_cons]
    by_cases hlater : k ∈ items.map Prod.fst
    · obtain ⟨v, hv, hget⟩ := ih hlater (d.set item.1 item.2)
      exact ⟨v, List.mem_cons_of_mem _ hv, hget⟩
    · obtain rfl : k = item.1 := by
        rcases List.mem_cons.1 h with heq | hmem
        · exact heq
        · exact absurd hmem hlater
      exact ⟨item.2, List.mem_cons_self, by rw [get_update_of_notMem hlater, get_set, if_pos rfl]⟩

/-- A key holds the value of its last write. -/
theorem get_update_eq_some {items : List (κ × ν)} {k : κ} {v : ν} :
    (update [] items).get k = some v ↔
      ∃ before after, items = before ++ (k, v) :: after ∧ k ∉ after.map Prod.fst := by
  constructor
  · intro h
    induction items using List.reverseRecOn with
    | nil => exact absurd h (by simp)
    | append_singleton items item ih =>
      rw [update_append, update_cons, update_nil, get_set] at h
      by_cases hk : item.1 = k
      · rw [if_pos hk, Option.some_inj] at h
        subst hk h
        exact ⟨items, [], rfl, by simp⟩
      · rw [if_neg hk] at h
        obtain ⟨before, after, rfl, hafter⟩ := ih h
        refine ⟨before, after ++ [item], by simp, ?_⟩
        rw [List.map_append, List.mem_append, not_or]
        exact ⟨hafter, by simpa using fun h => hk h.symm⟩
  · rintro ⟨before, after, rfl, hafter⟩
    rw [update_append, update_cons, get_update_of_notMem hafter, get_set, if_pos rfl]

/-- What is written for the elements of a list: a key holds what the last element with that key
gave. -/
theorem get_update_filterMap {α : Type*} {f : α → Option (κ × ν)} {l : List α} {k : κ} {v : ν} :
    (update [] (l.filterMap f)).get k = some v ↔
      ∃ before a after, l = before ++ a :: after ∧ f a = some (k, v) ∧
        ∀ a' ∈ after, ∀ v', f a' ≠ some (k, v') := by
  rw [get_update_eq_some]
  constructor
  · rintro ⟨items, items', heq, hafter⟩
    obtain ⟨before, rest, rfl, -, hrest⟩ := List.filterMap_eq_append_iff.1 heq
    obtain ⟨skipped, a, after, rfl, -, ha, rfl⟩ := List.filterMap_eq_cons_iff.1 hrest
    refine ⟨before ++ skipped, a, after, by simp, ha, ?_⟩
    intro a' ha' v' hv'
    exact hafter (List.mem_map_of_mem (f := Prod.fst) (List.mem_filterMap.2 ⟨a', ha', hv'⟩))
  · rintro ⟨before, a, after, rfl, ha, hafter⟩
    refine ⟨before.filterMap f, after.filterMap f, ?_, ?_⟩
    · rw [List.filterMap_append, List.filterMap_cons_some ha]
    · intro hmem
      obtain ⟨item, hitem, rfl⟩ := List.mem_map.1 hmem
      obtain ⟨a', ha', hv'⟩ := List.mem_filterMap.1 hitem
      exact hafter a' ha' item.2 hv'

/-- A key holds the last of the values written under it. -/
theorem get_update_eq_getLast? (items : List (κ × ν)) (k : κ) :
    (update [] items).get k =
      (items.filterMap fun item => if item.1 = k then some item.2 else none).getLast? := by
  induction items using List.reverseRecOn with
  | nil => rfl
  | append_singleton items item ih =>
    rw [update_append, update_cons, update_nil, get_set, List.filterMap_append, ih]
    by_cases hk : item.1 = k <;> simp [hk]

theorem set_ne_nil (d : Dict κ ν) (k : κ) (v : ν) : d.set k v ≠ [] := by
  cases d with
  | nil => simp [set]
  | cons item d => rw [set]; split <;> simp

theorem update_eq_nil {d : Dict κ ν} {items : List (κ × ν)} :
    d.update items = [] ↔ d = [] ∧ items = [] := by
  induction items generalizing d with
  | nil => simp
  | cons item items ih => simp [ih, set_ne_nil]

/-! ## The items of a dictionary -/

theorem mem_of_get {d : Dict κ ν} {k : κ} {v : ν} (h : d.get k = some v) : (k, v) ∈ d := by
  induction d with
  | nil => exact absurd h (by simp)
  | cons item d ih =>
    obtain ⟨k', v'⟩ := item
    rw [get_cons] at h
    by_cases hk : k' = k
    · subst hk
      rw [if_pos rfl] at h
      rw [Option.some.inj h]
      exact List.mem_cons_self
    · rw [if_neg hk] at h
      exact List.mem_cons_of_mem _ (ih h)

theorem mem_set {d : Dict κ ν} {k : κ} {v : ν} {item : κ × ν} (h : item ∈ d.set k v) :
    item = (k, v) ∨ item ∈ d := by
  induction d with
  | nil => exact .inl (List.mem_singleton.1 h)
  | cons item' d ih =>
    obtain ⟨k', v'⟩ := item'
    by_cases hk : k' = k
    · rw [set, if_pos hk, List.mem_cons, hk] at h
      rcases h with h | h
      · exact .inl h
      · exact .inr (List.mem_cons_of_mem _ h)
    · rw [set, if_neg hk, List.mem_cons] at h
      rcases h with rfl | h
      · exact .inr List.mem_cons_self
      · rcases ih h with h | h
        · exact .inl h
        · exact .inr (List.mem_cons_of_mem _ h)

/-- An item of the result was there before or was written. -/
theorem mem_update {d : Dict κ ν} {items : List (κ × ν)} {item : κ × ν}
    (h : item ∈ d.update items) : item ∈ d ∨ item ∈ items := by
  induction items generalizing d with
  | nil => exact .inl h
  | cons first items ih =>
    rw [update_cons] at h
    rcases ih h with h | h
    · rcases mem_set h with h | h
      · exact .inr (by rw [h]; exact List.mem_cons_self)
      · exact .inl h
    · exact .inr (List.mem_cons_of_mem _ h)

/-- Writing keeps the keys distinct. -/
theorem nodup_set {d : Dict κ ν} (h : (d.map Prod.fst).Nodup) (k : κ) (v : ν) :
    ((d.set k v).map Prod.fst).Nodup := by
  induction d with
  | nil => simp [set]
  | cons item d ih =>
    obtain ⟨k', v'⟩ := item
    rw [List.map_cons, List.nodup_cons] at h
    by_cases hk : k' = k
    · rw [set, if_pos hk, List.map_cons, List.nodup_cons]
      exact h
    · rw [set, if_neg hk, List.map_cons, List.nodup_cons]
      refine ⟨?_, ih h.2⟩
      rintro hmem
      obtain ⟨item, hitem, hfst⟩ := List.mem_map.1 hmem
      rcases mem_set hitem with rfl | hitem
      · exact hk hfst.symm
      · exact h.1 (List.mem_map.2 ⟨item, hitem, hfst⟩)

theorem nodup_update {d : Dict κ ν} (h : (d.map Prod.fst).Nodup) (items : List (κ × ν)) :
    ((d.update items).map Prod.fst).Nodup := by
  induction items generalizing d with
  | nil => exact h
  | cons item items ih => exact ih (nodup_set h item.1 item.2)

omit [DecidableEq κ] in
/-- In a dictionary with distinct keys a key has one value. -/
theorem eq_of_mem {d : Dict κ ν} (h : (d.map Prod.fst).Nodup) {k : κ} {v v' : ν}
    (hv : (k, v) ∈ d) (hv' : (k, v') ∈ d) : v = v' :=
  congrArg Prod.snd (List.inj_on_of_nodup_map h hv hv' rfl)

/-- In a dictionary with distinct keys an item is found. -/
theorem get_of_mem {d : Dict κ ν} (h : (d.map Prod.fst).Nodup) {k : κ} {v : ν}
    (hv : (k, v) ∈ d) : d.get k = some v := by
  induction d with
  | nil => exact absurd hv (by simp)
  | cons item d ih =>
    obtain ⟨k', v'⟩ := item
    rw [get_cons]
    by_cases hk : k' = k
    · subst hk
      rw [if_pos rfl, eq_of_mem h List.mem_cons_self hv]
    · rw [if_neg hk]
      refine ih (List.nodup_cons.1 h).2 ((List.mem_cons.1 hv).resolve_left ?_)
      rintro heq
      exact hk (Prod.mk.inj heq).1.symm

theorem set_of_notMem {d : Dict κ ν} {k : κ} (h : k ∉ d.map Prod.fst) (v : ν) :
    d.set k v = d ++ [(k, v)] := by
  induction d with
  | nil => rfl
  | cons item d ih =>
    rw [List.map_cons, List.mem_cons, not_or] at h
    rw [set, if_neg fun heq => h.1 heq.symm, ih h.2]
    rfl

theorem get_of_notMem {d : Dict κ ν} {k : κ} (h : k ∉ d.map Prod.fst) : d.get k = none := by
  cases hget : d.get k with
  | none => rfl
  | some v => exact absurd (List.mem_map_of_mem (f := Prod.fst) (mem_of_get hget)) h

theorem set_append_singleton {d : Dict κ ν} {k : κ} (h : k ∉ d.map Prod.fst) (v w : ν) :
    set (d ++ [(k, v)]) k w = d ++ [(k, w)] := by
  induction d with
  | nil => exact if_pos rfl
  | cons item d ih =>
    rw [List.map_cons, List.mem_cons, not_or] at h
    rw [List.cons_append, set, if_neg fun heq => h.1 heq.symm, ih h.2]
    rfl

theorem get_append_singleton {d : Dict κ ν} {k : κ} (h : k ∉ d.map Prod.fst) (v : ν) :
    get (d ++ [(k, v)]) k = some v := by
  rw [← set_of_notMem h, get_set, if_pos rfl]

theorem length_set_of_mem {d : Dict κ ν} {k : κ} (h : k ∈ d.map Prod.fst) (v : ν) :
    (d.set k v).length = d.length := by
  induction d with
  | nil => exact absurd h (by simp)
  | cons item d ih =>
    rw [set]
    split
    · rfl
    · rename_i hne
      rw [List.map_cons, List.mem_cons] at h
      rw [List.length_cons, List.length_cons, ih (h.resolve_left fun heq => hne heq.symm)]

/-- The keys of a dictionary are those that were written. -/
theorem mem_keys_update {items : List (κ × ν)} {k : κ} :
    k ∈ (update [] items).map Prod.fst ↔ k ∈ items.map Prod.fst := by
  constructor
  · intro h
    obtain ⟨item, hitem, rfl⟩ := List.mem_map.1 h
    exact List.mem_map_of_mem ((mem_update hitem).resolve_left (by simp))
  · intro h
    obtain ⟨v, -, hget⟩ := get_update_mem h []
    exact List.mem_map_of_mem (f := Prod.fst) (mem_of_get hget)

theorem length_update_le (items : List (κ × ν)) : (update [] items).length ≤ items.length := by
  induction items using List.reverseRecOn with
  | nil => exact Nat.le_refl _
  | append_singleton items item ih =>
    rw [update_append, update_cons, update_nil, List.length_append, List.length_singleton]
    by_cases hk : item.1 ∈ (update [] items).map Prod.fst
    · rw [length_set_of_mem hk]
      exact ih.trans (Nat.le_succ _)
    · rw [set_of_notMem hk, List.length_append]
      exact Nat.succ_le_succ ih

/-- Writes under distinct keys are the dictionary. -/
theorem update_of_nodup {items : List (κ × ν)} (h : (items.map Prod.fst).Nodup) :
    update [] items = items := by
  induction items using List.reverseRecOn with
  | nil => rfl
  | append_singleton items item ih =>
    rw [List.map_append, List.map_singleton, List.nodup_append] at h
    obtain ⟨hitems, -, happart⟩ := h
    have hnew : item.1 ∉ items.map Prod.fst := fun hmem =>
      happart _ hmem _ (List.mem_singleton_self _) rfl
    rw [update_append, ih hitems, update_cons, update_nil, set_of_notMem hnew]

/-- **No write is lost** exactly when no two of them have the same key. -/
theorem length_update_eq_iff {items : List (κ × ν)} :
    (update [] items).length = items.length ↔ (items.map Prod.fst).Nodup := by
  refine ⟨fun h => ?_, fun h => by rw [update_of_nodup h]⟩
  induction items using List.reverseRecOn with
  | nil => exact List.nodup_nil
  | append_singleton items item ih =>
    rw [update_append, update_cons, update_nil, List.length_append, List.length_singleton] at h
    by_cases hk : item.1 ∈ (update [] items).map Prod.fst
    · rw [length_set_of_mem hk] at h
      exact absurd (length_update_le items) (by omega)
    · rw [set_of_notMem hk, List.length_append, List.length_singleton] at h
      rw [List.map_append, List.nodup_append]
      refine ⟨ih (by omega), List.nodup_singleton _, fun k hmem k' hk' => ?_⟩
      rintro rfl
      rw [List.mem_singleton.1 hk'] at hmem
      exact hk (mem_keys_update.2 hmem)

/-! ## Gathering elements under their keys -/

section

variable {α : Type*} (key : α → κ) (step : Option ν → α → ν)

/-- Every element is folded into the value under its key. -/
def gather (xs : List α) : Dict κ ν :=
  xs.foldl (fun d x => d.set (key x) (step (d.get (key x)) x)) []

variable {key step}

theorem gather_append_singleton (xs : List α) (x : α) :
    gather key step (xs ++ [x]) =
      (gather key step xs).set (key x) (step ((gather key step xs).get (key x)) x) := by
  rw [gather, List.foldl_append]
  rfl

/-- **A key holds the fold of its own elements.** -/
theorem get_gather (xs : List α) (k : κ) :
    (gather key step xs).get k =
      (xs.filter fun x => key x = k).foldl (fun v x => some (step v x)) none := by
  induction xs using List.reverseRecOn with
  | nil => rfl
  | append_singleton xs x ih =>
    rw [gather_append_singleton, get_set, List.filter_append, List.foldl_append, ← ih]
    by_cases hk : key x = k
    · rw [if_pos hk, List.filter_cons_of_pos (by simpa using hk), hk]
      rfl
    · rw [if_neg hk, List.filter_cons_of_neg (by simpa using hk)]
      rfl

theorem nodup_gather (xs : List α) : ((gather key step xs).map Prod.fst).Nodup := by
  induction xs using List.reverseRecOn with
  | nil => exact List.nodup_nil
  | append_singleton xs x ih =>
    rw [gather_append_singleton]
    exact nodup_set ih _ _

end

/-! ## Keeping the largest value -/

section

variable [LinearOrder ν] [Zero ν]

/-- Write a value that is larger than the one under its key; a key that is missing counts as
zero. -/
def keepLargest (d : Dict κ ν) (item : κ × ν) : Dict κ ν :=
  if (d.get item.1).getD 0 < item.2 then d.set item.1 item.2 else d

/-- A value is one of those that came, and none of these is larger. -/
theorem keepLargest_spec (items : List (κ × ν)) (k : κ) :
    (∀ v, (items.foldl keepLargest []).get k = some v → 0 < v ∧ (k, v) ∈ items) ∧
      ∀ v, (k, v) ∈ items → v ≤ ((items.foldl keepLargest []).get k).getD 0 := by
  induction items using List.reverseRecOn with
  | nil => simp
  | append_singleton items item ih =>
    obtain ⟨hcame, hlargest⟩ := ih
    rw [List.foldl_append, List.foldl_cons, List.foldl_nil, keepLargest]
    generalize items.foldl keepLargest [] = d at hcame hlargest ⊢
    have hpos : 0 ≤ (d.get k).getD 0 := by
      cases hget : d.get k with
      | none => exact le_rfl
      | some v => exact (hcame v hget).1.le
    by_cases hk : item.1 = k
    · obtain ⟨key, w⟩ := item
      obtain rfl : key = k := hk
      split
      · rename_i hlt
        rw [get_set, if_pos rfl]
        refine ⟨?_, ?_⟩
        · intro v hv
          obtain rfl := Option.some.inj hv
          exact ⟨hpos.trans_lt hlt, by simp⟩
        · intro v hv
          rcases List.mem_append.1 hv with hv | hv
          · exact (hlargest v hv).trans hlt.le
          · exact (Prod.mk.inj (List.mem_singleton.1 hv)).2.le
      · rename_i hle
        refine ⟨fun v hv => ⟨(hcame v hv).1, List.mem_append_left _ (hcame v hv).2⟩, ?_⟩
        intro v hv
        rcases List.mem_append.1 hv with hv | hv
        · exact hlargest v hv
        · rw [(Prod.mk.inj (List.mem_singleton.1 hv)).2]
          exact not_lt.1 hle
    · have hget : (if (d.get item.1).getD 0 < item.2 then d.set item.1 item.2 else d).get k =
          d.get k := by
        split
        · rw [get_set, if_neg hk]
        · rfl
      have hmem (v : ν) : (k, v) ∈ items ++ [item] ↔ (k, v) ∈ items := by
        rw [List.mem_append, List.mem_singleton, or_iff_left]
        rintro rfl
        exact hk rfl
      rw [hget]
      exact ⟨fun v hv => ⟨(hcame v hv).1, (hmem v).2 (hcame v hv).2⟩,
        fun v hv => hlargest v ((hmem v).1 hv)⟩

/-- **A key holds the largest of its values**, whatever their order. -/
theorem get_foldl_keepLargest {items : List (κ × ν)} {k : κ} {v : ν} :
    (items.foldl keepLargest []).get k = some v ↔
      0 < v ∧ (k, v) ∈ items ∧ ∀ v', (k, v') ∈ items → v' ≤ v := by
  obtain ⟨hcame, hlargest⟩ := keepLargest_spec items k
  constructor
  · intro hget
    obtain ⟨hpos, hmem⟩ := hcame v hget
    refine ⟨hpos, hmem, fun v' hv' => ?_⟩
    simpa [hget] using hlargest v' hv'
  · rintro ⟨hpos, hmem, hmax⟩
    have hle := hlargest v hmem
    cases hget : (items.foldl keepLargest []).get k with
    | none =>
      rw [hget] at hle
      exact absurd hpos (not_lt.2 hle)
    | some w =>
      rw [hget] at hle
      rw [Option.some_inj]
      exact le_antisymm (hmax w (hcame w hget).2) hle

end

end Dict
