import OoAgent.Python.Text

/-!
# Paths as texts

`posixpath.basename` and `dirname` cut a text at its last slash.

* `basename`, `dirname` — the two functions.
* `components` — the names a path leads through.
* `components_eq` — **the name a path ends with comes last**, after those of its directory.
-/

namespace PyPath

open PyText

/-- `os.path.basename(p)`. -/
def basename (p : List Char) : List Char := p.rtakeWhile (· != '/')

/-- `os.path.dirname(p)`. -/
def dirname (p : List Char) : List Char :=
  let head := p.rdropWhile (· != '/')
  if head.all (· == '/') then head else rstripSlash head

/-- The names a path leads through. -/
def components (p : List Char) : List (List Char) := (split '/' p).filter (· != [])

example : dirname "/opt/oo-agent//venv".toList = "/opt/oo-agent".toList ∧
    components "/opt/oo-agent//venv".toList = ["opt", "oo-agent", "venv"].map String.toList := by
  decide +kernel

/-! ## Components -/

/-- A text is split at each of its separators. -/
theorem split_append (sep : Char) (s rest : List Char) :
    split sep (s ++ sep :: rest) = split sep s ++ split sep rest := by
  have hcons : ∃ piece pieces, split sep s = piece :: pieces ∧
      split sep (s ++ sep :: rest) = piece :: (pieces ++ split sep rest) := by
    induction s with
    | nil =>
      refine ⟨[], [], rfl, ?_⟩
      rw [List.nil_append, split, if_pos rfl, List.nil_append]
    | cons c s ih =>
      obtain ⟨piece, pieces, hs, hsplit⟩ := ih
      rw [List.cons_append, split, split]
      split_ifs
      · exact ⟨[], _, rfl, by rw [hsplit, hs, List.cons_append]⟩
      · rw [hsplit, hs]
        exact ⟨c :: piece, pieces, rfl, rfl⟩
  obtain ⟨piece, pieces, hs, hsplit⟩ := hcons
  rw [hsplit, hs, List.cons_append]

theorem components_append (p rest : List Char) :
    components (p ++ '/' :: rest) = components p ++ components rest := by
  rw [components, split_append, List.filter_append]
  rfl

/-- Slashes at the end lead nowhere. -/
theorem components_rstripSlash (p : List Char) : components (rstripSlash p) = components p := by
  induction p using List.reverseRecOn with
  | nil => rfl
  | append_singleton p c ih =>
    by_cases hc : c = '/'
    · subst hc
      rw [rstripSlash, List.rdropWhile_concat_pos _ _ _ (by decide), components_append]
      exact ih.trans (List.append_nil _).symm
    · rw [rstripSlash, List.rdropWhile_concat_neg _ _ _ (by simpa using hc)]

theorem components_dirname (p : List Char) :
    components (dirname p) = components (p.rdropWhile (· != '/')) := by
  rw [dirname]
  split
  · rfl
  · rw [components_rstripSlash]

/-- **The name a path ends with comes last**, after those of its directory. -/
theorem components_eq (p : List Char) :
    components p = components (dirname p) ++ components (basename p) := by
  have hp : p.rdropWhile (· != '/') ++ basename p = p := List.rdropWhile_append_rtakeWhile
  rw [components_dirname]
  rcases List.eq_nil_or_concat (p.rdropWhile (· != '/')) with hhead | ⟨head, c, hhead⟩
  · rw [hhead, List.nil_append] at hp
    rw [hhead, hp]
    rfl
  · have hne : p.rdropWhile (· != '/') ≠ [] := by
      rw [hhead, List.concat_eq_append]
      simp
    have hlast := List.rdropWhile_last_not (· != '/') p hne
    obtain rfl : c = '/' := by
      simpa [hhead] using hlast
    rw [hhead, List.concat_eq_append] at hp ⊢
    have hdir : components (head ++ ['/']) = components head := by
      rw [components_append]
      exact List.append_nil _
    rw [hdir, ← components_append, List.append_cons, hp]

end PyPath
