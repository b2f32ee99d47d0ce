import Mathlib

/-!
# Walks through a forest

A node of a forest has a path: the number of its tree, then a number for each step down.  A walk
meets a node before the nodes below it and those before its next sibling, and goes below a node
only where it enters it.

* `labelAt` — the label at a path.
* `visits`, `paths` — the labels a walk meets, and their paths.
* `Reached` — there is such a node, and all nodes above it are entered.
* `mem_paths`, `sorted_paths`, `map_labelAt_paths` — **a walk** goes through the reached paths in
  their lexicographic order.
-/

/-- A tree with a label at each node. -/
inductive Rose (α : Type*) where
  | node (label : α) (children : List (Rose α))

namespace Rose

variable {α : Type*}

def label : Rose α → α
  | node label _ => label

def children : Rose α → List (Rose α)
  | node _ children => children

end Rose

namespace Forest

variable {α : Type*}

/-- The label at a path. -/
def labelAt (trees : List (Rose α)) : List ℕ → Option α
  | [] => none
  | i :: path =>
    trees[i]?.bind fun tree =>
      if path = [] then some tree.label else labelAt tree.children path

mutual

/-- The labels a walk through a tree meets. -/
def visitsOf (enters : α → Bool) : Rose α → List α
  | .node label children => label :: if enters label then visits enters children else []

/-- The labels a walk meets. -/
def visits (enters : α → Bool) : List (Rose α) → List α
  | [] => []
  | tree :: trees => visitsOf enters tree ++ visits enters trees

end

mutual

/-- The paths of a tree, which has this number. -/
def pathsOf (enters : α → Bool) (i : ℕ) : Rose α → List (List ℕ)
  | .node label children =>
    [i] :: if enters label then (pathsFrom enters 0 children).map (i :: ·) else []

/-- The paths of trees that are numbered from here. -/
def pathsFrom (enters : α → Bool) (i : ℕ) : List (Rose α) → List (List ℕ)
  | [] => []
  | tree :: trees => pathsOf enters i tree ++ pathsFrom enters (i + 1) trees

end

/-- The paths of the labels a walk meets. -/
def paths (enters : α → Bool) (trees : List (Rose α)) : List (List ℕ) := pathsFrom enters 0 trees

/-- There is a node at the path, and all nodes above it are entered. -/
def Reached (enters : α → Bool) (trees : List (Rose α)) (path : List ℕ) : Prop :=
  (∃ label, labelAt trees path = some label) ∧
    ∀ above label, above <+: path → above ≠ path → labelAt trees above = some label →
      enters label = true

variable {enters : α → Bool}

theorem labelAt_singleton (trees : List (Rose α)) (i : ℕ) :
    labelAt trees [i] = trees[i]?.map Rose.label := by
  rw [labelAt]
  cases trees[i]? <;> rfl

theorem labelAt_cons {trees : List (Rose α)} {i : ℕ} {path : List ℕ} (h : path ≠ []) :
    labelAt trees (i :: path) = trees[i]?.bind fun tree => labelAt tree.children path := by
  rw [labelAt]
  cases trees[i]? with
  | none => rfl
  | some tree => rw [Option.bind_some, Option.bind_some, if_neg h]

/-- A tree is reached, and what is reached in the children of one that is entered. -/
theorem reached_cons {trees : List (Rose α)} {i : ℕ} {path : List ℕ} :
    Reached enters trees (i :: path) ↔
      ∃ tree, trees[i]? = some tree ∧
        (path = [] ∨ enters tree.label = true ∧ Reached enters tree.children path) := by
  constructor
  · rintro ⟨⟨label, hlabel⟩, habove⟩
    obtain ⟨tree, htree, -⟩ := Option.bind_eq_some_iff.1 hlabel
    refine ⟨tree, htree, ?_⟩
    by_cases hpath : path = []
    · exact .inl hpath
    · refine .inr ⟨?_, ?_, ?_⟩
      · apply habove [i] tree.label
        · simp
        · simpa using Ne.symm hpath
        · rw [labelAt_singleton, htree]
          rfl
      · rw [labelAt_cons hpath, htree] at hlabel
        exact ⟨label, hlabel⟩
      · intro above label' hprefix hne hlabel'
        apply habove (i :: above) label'
        · exact List.cons_prefix_cons.2 ⟨rfl, hprefix⟩
        · simpa using hne
        · have hnil : above ≠ [] := by
            rintro rfl
            cases hlabel'
          rw [labelAt_cons hnil, htree]
          exact hlabel'
  · rintro ⟨tree, htree, hpath | ⟨henters, ⟨label, hlabel⟩, habove⟩⟩
    · subst hpath
      refine ⟨⟨tree.label, by rw [labelAt_singleton, htree]; rfl⟩, ?_⟩
      intro above label hprefix hne hlabel
      rcases List.prefix_cons_iff.1 hprefix with rfl | ⟨rest, rfl, hrest⟩
      · cases hlabel
      · rw [List.prefix_nil.1 hrest] at hne
        exact absurd rfl hne
    · have hpath : path ≠ [] := by
        rintro rfl
        cases hlabel
      refine ⟨⟨label, by rw [labelAt_cons hpath, htree]; exact hlabel⟩, ?_⟩
      intro above label' hprefix hne hlabel'
      rcases List.prefix_cons_iff.1 hprefix with rfl | ⟨rest, rfl, hrest⟩
      · cases hlabel'
      · by_cases hnil : rest = []
        · subst hnil
          rw [labelAt_singleton, htree] at hlabel'
          rwa [← Option.some.inj hlabel']
        · rw [labelAt_cons hnil, htree] at hlabel'
          exact habove rest label' hrest (by simpa using hne) hlabel'

mutual

theorem mem_pathsOf {i : ℕ} {path : List ℕ} :
    ∀ tree : Rose α, path ∈ pathsOf enters i tree ↔
      ∃ rest, path = i :: rest ∧
        (rest = [] ∨ enters tree.label = true ∧ Reached enters tree.children rest)
  | .node label children => by
    have hbelow : ∀ path : List ℕ, path ∈ pathsFrom enters 0 children ↔
        ∃ j rest, path = (0 + j) :: rest ∧ Reached enters children (j :: rest) :=
      fun path => mem_pathsFrom children
    rw [pathsOf, List.mem_cons]
    constructor
    · rintro (rfl | hmem)
      · exact ⟨[], rfl, .inl rfl⟩
      · cases henters : enters label with
        | false => simp [henters] at hmem
        | true =>
          rw [henters, if_pos rfl] at hmem
          obtain ⟨rest, hrest, rfl⟩ := List.mem_map.1 hmem
          obtain ⟨j, rest', rfl, hreached⟩ := (hbelow rest).1 hrest
          refine ⟨_, rfl, .inr ⟨henters, ?_⟩⟩
          rwa [Nat.zero_add]
    · rintro ⟨rest, rfl, rfl | ⟨henters, hreached⟩⟩
      · exact .inl rfl
      · right
        change enters label = true at henters
        rw [henters, if_pos rfl]
        apply List.mem_map_of_mem
        cases rest with
        | nil =>
          obtain ⟨⟨label', hlabel'⟩, -⟩ := hreached
          cases hlabel'
        | cons j rest => exact (hbelow _).2 ⟨j, rest, by rw [Nat.zero_add], hreached⟩

theorem mem_pathsFrom {i : ℕ} {path : List ℕ} :
    ∀ trees : List (Rose α), path ∈ pathsFrom enters i trees ↔
      ∃ j rest, path = (i + j) :: rest ∧ Reached enters trees (j :: rest)
  | [] => by
    rw [pathsFrom]
    simp [reached_cons]
  | tree :: trees => by
    rw [pathsFrom, List.mem_append, mem_pathsOf tree, mem_pathsFrom trees]
    constructor
    · rintro (⟨rest, rfl, hrest⟩ | ⟨j, rest, rfl, hreached⟩)
      · exact ⟨0, rest, rfl, reached_cons.2 ⟨tree, rfl, hrest⟩⟩
      · obtain ⟨tree', htree', hrest⟩ := reached_cons.1 hreached
        refine ⟨j + 1, rest, ?_, reached_cons.2 ⟨tree', htree', hrest⟩⟩
        rw [Nat.add_assoc, Nat.add_comm 1 j]
    · rintro ⟨j, rest, rfl, hreached⟩
      obtain ⟨tree', htree', hrest⟩ := reached_cons.1 hreached
      cases j with
      | zero =>
        obtain rfl := Option.some.inj htree'
        exact .inl ⟨rest, rfl, hrest⟩
      | succ j =>
        refine .inr ⟨j, rest, ?_, reached_cons.2 ⟨tree', htree', hrest⟩⟩
        rw [Nat.add_assoc, Nat.add_comm 1 j]

end

/-- **A walk goes through the reached paths.** -/
theorem mem_paths {trees : List (Rose α)} {path : List ℕ} :
    path ∈ paths enters trees ↔ Reached enters trees path := by
  rw [paths, mem_pathsFrom]
  constructor
  · rintro ⟨j, rest, rfl, hreached⟩
    rwa [Nat.zero_add]
  · intro hreached
    cases path with
    | nil =>
      obtain ⟨⟨label, hlabel⟩, -⟩ := hreached
      cases hlabel
    | cons j rest => exact ⟨j, rest, by rw [Nat.zero_add], hreached⟩

mutual

theorem sorted_pathsOf (i : ℕ) :
    ∀ tree : Rose α, (pathsOf enters i tree).Pairwise (· < ·)
  | .node label children => by
    rw [pathsOf, List.pairwise_cons]
    split
    · refine ⟨?_, ?_⟩
      · intro path hpath
        obtain ⟨rest, hrest, rfl⟩ := List.mem_map.1 hpath
        obtain ⟨j, rest', rfl, -⟩ := (mem_pathsFrom children).1 hrest
        exact List.Lex.cons List.Lex.nil
      · rw [List.pairwise_map]
        exact (sorted_pathsFrom 0 children).imp fun h => List.Lex.cons h
    · exact ⟨fun path hpath => absurd hpath (List.not_mem_nil), List.Pairwise.nil⟩

theorem sorted_pathsFrom (i : ℕ) :
    ∀ trees : List (Rose α), (pathsFrom enters i trees).Pairwise (· < ·)
  | [] => by
    rw [pathsFrom]
    exact List.Pairwise.nil
  | tree :: trees => by
    rw [pathsFrom, List.pairwise_append]
    refine ⟨sorted_pathsOf i tree, sorted_pathsFrom (i + 1) trees, ?_⟩
    intro path hpath path' hpath'
    obtain ⟨rest, rfl, -⟩ := (mem_pathsOf tree).1 hpath
    obtain ⟨j, rest', rfl, -⟩ := (mem_pathsFrom trees).1 hpath'
    exact List.Lex.rel (by omega)

end

/-- **The paths come in lexicographic order**, each once. -/
theorem sorted_paths (enters : α → Bool) (trees : List (Rose α)) :
    (paths enters trees).Pairwise (· < ·) := sorted_pathsFrom 0 trees

mutual

theorem map_pathsOf {trees : List (Rose α)} {i : ℕ} :
    ∀ tree : Rose α, trees[i]? = some tree →
      (pathsOf enters i tree).map (labelAt trees) = (visitsOf enters tree).map some
  | .node label children, htree => by
    have hhead : labelAt trees [i] = some label := by
      rw [labelAt_singleton, htree]
      rfl
    rw [pathsOf, visitsOf, List.map_cons, List.map_cons, hhead]
    split
    · rw [← map_pathsFrom children 0 children fun j => by rw [Nat.zero_add],
        List.map_map]
      congr 1
      apply List.map_congr_left
      intro rest hrest
      obtain ⟨j, rest', rfl, -⟩ := (mem_pathsFrom children).1 hrest
      rw [Function.comp_apply, labelAt_cons (List.cons_ne_nil _ _), htree]
      rfl
    · rfl

theorem map_pathsFrom (trees : List (Rose α)) (i : ℕ) :
    ∀ rest : List (Rose α), (∀ j : ℕ, trees[i + j]? = rest[j]?) →
      (pathsFrom enters i rest).map (labelAt trees) = (visits enters rest).map some
  | [], _ => by
    rw [pathsFrom, visits]
    rfl
  | tree :: rest, hrest => by
    have hhead : trees[i]? = some tree := hrest 0
    rw [pathsFrom, visits, List.map_append, List.map_append, map_pathsOf tree hhead,
      map_pathsFrom trees (i + 1) rest]
    intro j
    have hnext := hrest (j + 1)
    rw [List.getElem?_cons_succ] at hnext
    rwa [Nat.add_assoc, Nat.add_comm 1 j]

end

/-- **A walk meets the labels at its paths.** -/
theorem map_labelAt_paths (enters : α → Bool) (trees : List (Rose α)) :
    (paths enters trees).map (labelAt trees) = (visits enters trees).map some :=
  map_pathsFrom trees 0 trees fun j => by rw [Nat.zero_add]

/-- A label is met exactly when it is at a reached path. -/
theorem mem_visits {trees : List (Rose α)} {label : α} :
    label ∈ visits enters trees ↔
      ∃ path, Reached enters trees path ∧ labelAt trees path = some label := by
  have hmem : some label ∈ (visits enters trees).map some ↔ label ∈ visits enters trees := by
    simp
  rw [← hmem, ← map_labelAt_paths, List.mem_map]
  exact exists_congr fun path => and_congr_left' mem_paths

/-- What the labels give, gathered along the paths. -/
theorem flatMap_paths {β : Type*} (enters : α → Bool) (trees : List (Rose α)) (f : α → List β) :
    ((paths enters trees).flatMap fun path => (labelAt trees path).elim [] f) =
      (visits enters trees).flatMap f := by
  have hgather := congrArg (List.flatMap fun label : Option α => label.elim [] f)
    (map_labelAt_paths enters trees)
  rw [List.flatMap_map, List.flatMap_map] at hgather
  exact hgather

end Forest
