import Mathlib

/-!
# Python text methods

The `str` methods the agent relies on, on lists of characters: `strip`,
`rstrip("/")`, `split(sep)`, `split()`, `lowerAscii`, and the newline translation a text
file goes through when it is read.

* `strip_idem` — stripping twice is stripping once.
* `translateNewlines_of_not_mem` — text without a carriage return is read back
  as it was written.
* `translateNewlines_append_newline` — the newline a writer appends.
-/

namespace PyText

/-- Texts are equal when their characters are. -/
instance lawfulBEqText : LawfulBEq (List Char) := inferInstance

/-- `c.isspace()`. -/
def isSpace (c : Char) : Bool :=
  c.toNat ∈ [9, 10, 11, 12, 13, 28, 29, 30, 31, 32, 133, 160, 5760, 8192, 8193, 8194, 8195,
    8196, 8197, 8198, 8199, 8200, 8201, 8202, 8232, 8233, 8239, 8287, 12288]

/-- `s.lstrip()`. -/
def lstrip (s : List Char) : List Char := s.dropWhile isSpace

/-- `s.rstrip()`. -/
def rstrip (s : List Char) : List Char := s.rdropWhile isSpace

/-- `s.strip()`. -/
def strip (s : List Char) : List Char := rstrip (lstrip s)

/-- `s.rstrip("/")`. -/
def rstripSlash (s : List Char) : List Char := s.rdropWhile (· == '/')

/-- `s.lower()` on ASCII text; other characters are kept. -/
def lowerAscii (s : List Char) : List Char := s.map Char.toLower

/-- `s.split(sep)` for a one-character separator. -/
def split (sep : Char) : List Char → List (List Char)
  | [] => [[]]
  | c :: cs =>
    if c = sep then [] :: split sep cs
    else
      match split sep cs with
      | [] => [[c]]
      | p :: ps => (c :: p) :: ps

/-- `s.split(sep, 1)` where the separator occurs in `s`. -/
def splitOnce (sep : Char) (s : List Char) : List Char × List Char :=
  (s.takeWhile (· != sep), (s.dropWhile (· != sep)).tail)

/-- The words of a text, the first of which has begun with `word`. -/
def wordsFrom (word : List Char) : List Char → List (List Char)
  | [] => if word = [] then [] else [word]
  | c :: cs =>
    if isSpace c then (if word = [] then wordsFrom [] cs else word :: wordsFrom [] cs)
    else wordsFrom (word ++ [c]) cs

/-- `s.split()`. -/
def words (s : List Char) : List (List Char) := wordsFrom [] s

/-- What reading a text file makes of its line ends: `\r\n` and `\r` become `\n`. -/
def translateNewlines : List Char → List Char
  | '\r' :: '\n' :: cs => '\n' :: translateNewlines cs
  | '\r' :: cs => '\n' :: translateNewlines cs
  | c :: cs => c :: translateNewlines cs
  | [] => []

/-- The decimal digits `int` reads and `str` prints at most. -/
def maxStrDigits : Nat := 4300

/-! ## Stripping -/

theorem isSpace_newline : isSpace '\n' = true := by decide

/-- Text that neither starts nor ends with white space is left alone. -/
theorem strip_eq_self {s : List Char} (hhead : ∀ c ∈ s.head?, isSpace c = false)
    (hlast : ∀ c ∈ s.getLast?, isSpace c = false) : strip s = s := by
  have hl : lstrip s = s := by
    cases s with
    | nil => rfl
    | cons c cs => simp [lstrip, hhead c (by simp)]
  rw [strip, hl, rstrip, List.rdropWhile_eq_self_iff]
  intro hne
  simpa using hlast _ (List.getLast?_eq_some_getLast hne)

/-- Stripped text does not start with white space. -/
theorem head?_strip {s : List Char} : ∀ c ∈ (strip s).head?, isSpace c = false := by
  intro c hc
  have hpre : strip s <+: lstrip s := List.rdropWhile_prefix isSpace _
  have hmem : c ∈ (lstrip s).head? := by
    obtain ⟨t, ht⟩ := hpre
    rw [← ht]
    cases hs : strip s with
    | nil => simp [hs] at hc
    | cons d ds => simpa [hs] using hc
  have hne : lstrip s ≠ [] := by
    rintro hnil
    simp [hnil] at hmem
  have hdrop := List.dropWhile_get_zero_not isSpace s (List.length_pos_of_ne_nil hne)
  have hcz : (lstrip s).get ⟨0, List.length_pos_of_ne_nil hne⟩ = c := by
    rw [List.head?_eq_getElem?] at hmem
    simpa [List.getElem?_eq_getElem (List.length_pos_of_ne_nil hne)] using hmem
  rw [← hcz]
  simpa [lstrip] using hdrop

/-- Stripped text does not end with white space. -/
theorem getLast?_strip {s : List Char} : ∀ c ∈ (strip s).getLast?, isSpace c = false := by
  intro c hc
  by_cases hne : strip s = []
  · simp [hne] at hc
  · have hlast := List.rdropWhile_last_not isSpace (lstrip s) hne
    rw [List.getLast?_eq_some_getLast hne] at hc
    obtain rfl : (strip s).getLast hne = c := by simpa using hc
    simpa [strip, rstrip] using hlast

/-- Stripping twice is stripping once. -/
@[simp] theorem strip_idem (s : List Char) : strip (strip s) = strip s :=
  strip_eq_self head?_strip getLast?_strip

theorem strip_subset (s : List Char) : strip s ⊆ s := fun _ hc =>
  (List.dropWhile_subset _) ((List.rdropWhile_prefix isSpace _).subset hc)

/-- Trailing white space does not survive stripping. -/
theorem strip_append_space {c : Char} (hc : isSpace c = true) (s : List Char) :
    strip (s ++ [c]) = strip s := by
  by_cases hs : lstrip s = []
  · have hall : ∀ d ∈ s, isSpace d = true := by simpa [lstrip] using hs
    have hall' : lstrip (s ++ [c]) = [] := by
      simp only [lstrip, List.dropWhile_eq_nil_iff, List.mem_append, List.mem_singleton]
      rintro d (hd | rfl)
      · exact hall d hd
      · exact hc
    rw [strip, strip, hall', hs]
  · have hl : lstrip (s ++ [c]) = lstrip s ++ [c] := by
      rw [lstrip, List.dropWhile_append, if_neg (by simpa [lstrip] using hs)]
      rfl
    rw [strip, hl, rstrip, List.rdropWhile_concat_pos _ _ _ hc]
    rfl

/-- A trailing newline does not survive stripping. -/
theorem strip_append_newline (s : List Char) : strip (s ++ ['\n']) = strip s :=
  strip_append_space isSpace_newline s

/-! ## Splitting -/

/-- A text is split at the first separator. -/
theorem splitOnce_append {sep : Char} {l : List Char} (h : sep ∉ l) (r : List Char) :
    splitOnce sep (l ++ sep :: r) = (l, r) := by
  have hne : ∀ c ∈ l, (c != sep) = true := fun c hc => by
    simpa using ne_of_mem_of_not_mem hc h
  rw [splitOnce, List.takeWhile_append_of_pos hne, List.dropWhile_append_of_pos hne]
  simp

theorem split_of_not_mem {sep : Char} {s : List Char} (h : sep ∉ s) : split sep s = [s] := by
  induction s with
  | nil => rfl
  | cons c cs ih =>
    rw [List.mem_cons, not_or] at h
    rw [split, if_neg (Ne.symm h.1), ih h.2]

/-- A text up to its first separator is its first piece. -/
theorem split_append_cons {sep : Char} {piece : List Char} (h : sep ∉ piece) (rest : List Char) :
    split sep (piece ++ sep :: rest) = piece :: split sep rest := by
  induction piece with
  | nil => rw [List.nil_append, split, if_pos rfl]
  | cons c piece ih =>
    rw [List.mem_cons, not_or] at h
    rw [List.cons_append, split, if_neg (Ne.symm h.1), ih h.2]

/-- A character of a piece is one of the text. -/
theorem mem_of_mem_split {sep c : Char} {s piece : List Char} (hpiece : piece ∈ split sep s)
    (hc : c ∈ piece) : c ∈ s := by
  induction s generalizing piece with
  | nil =>
    obtain rfl : piece = [] := by simpa [split] using hpiece
    exact absurd hc (by simp)
  | cons d s ih =>
    rw [split] at hpiece
    split_ifs at hpiece with hd
    · rcases List.mem_cons.1 hpiece with rfl | hpiece
      · exact absurd hc (by simp)
      · exact List.mem_cons_of_mem _ (ih hpiece hc)
    · split at hpiece
      · rename_i hnil
        rw [List.mem_singleton.1 hpiece] at hc
        exact List.mem_cons.2 (.inl (List.mem_singleton.1 hc))
      · rename_i p ps hcons
        rw [hcons] at ih
        rcases List.mem_cons.1 hpiece with rfl | hpiece
        · rcases List.mem_cons.1 hc with rfl | hc
          · exact List.mem_cons_self
          · exact List.mem_cons_of_mem _ (ih List.mem_cons_self hc)
        · exact List.mem_cons_of_mem _ (ih (List.mem_cons_of_mem _ hpiece) hc)

/-! ## Joining -/

/-- A character of joined pieces is the separator or in a piece. -/
theorem mem_intercalate {sep c : Char} {pieces : List (List Char)}
    (h : c ∈ [sep].intercalate pieces) : c = sep ∨ ∃ piece ∈ pieces, c ∈ piece := by
  induction pieces with
  | nil => exact absurd h (by simp [List.intercalate])
  | cons piece pieces ih =>
    cases pieces with
    | nil =>
      rw [List.intercalate_singleton] at h
      exact .inr ⟨piece, List.mem_cons_self, h⟩
    | cons next pieces =>
      rw [List.intercalate_cons_cons, List.append_assoc, List.singleton_append, List.mem_append,
        List.mem_cons] at h
      rcases h with h | rfl | h
      · exact .inr ⟨piece, List.mem_cons_self, h⟩
      · exact .inl rfl
      · rcases ih h with h | ⟨piece', hmem, h⟩
        · exact .inl h
        · exact .inr ⟨piece', List.mem_cons_of_mem _ hmem, h⟩

/-! ## Newline translation -/

/-- Text without a carriage return is read back as it was written. -/
theorem translateNewlines_of_not_mem {s : List Char} (h : '\r' ∉ s) :
    translateNewlines s = s := by
  induction s with
  | nil => rfl
  | cons c cs ih =>
    simp only [List.mem_cons, not_or] at h
    have hc : c ≠ '\r' := fun hcr => h.1 hcr.symm
    rw [translateNewlines.eq_def]
    split
    · exact absurd (by simp_all) hc
    · exact absurd (by simp_all) hc
    · simp_all
    · simp_all

/-- A newline written after a text is read back as one newline, or as part of the
line end the text already ended in. -/
theorem translateNewlines_append_newline (s : List Char) :
    translateNewlines (s ++ ['\n']) = translateNewlines s ++ ['\n'] ∨
      translateNewlines (s ++ ['\n']) = translateNewlines s := by
  fun_induction translateNewlines s with
  | case1 cs ih => simpa [translateNewlines] using ih
  | case2 cs hne ih =>
    cases cs with
    | nil => exact .inr (by simp [translateNewlines])
    | cons c cs =>
      have hc : c ≠ '\n' := fun h => hne cs (by rw [h])
      simp only [List.cons_append] at ih ⊢
      have hstep : translateNewlines ('\r' :: c :: (cs ++ ['\n'])) =
          '\n' :: translateNewlines (c :: (cs ++ ['\n'])) := by
        rw [translateNewlines]
        intro tail htail
        exact hc (List.cons.inj htail).1
      rw [hstep]
      simpa using ih
  | case3 c cs hcr hc ih =>
    have hstep : ∀ t, translateNewlines (c :: t) = c :: translateNewlines t := by
      intro t
      rw [translateNewlines]
      · exact fun _ h _ => hc h
      · exact hc
    simp only [List.cons_append, hstep]
    simpa using ih
  | case4 => exact .inl rfl

/-- No carriage return is left after the translation. -/
theorem not_mem_translateNewlines (s : List Char) : '\r' ∉ translateNewlines s := by
  fun_induction translateNewlines s with
  | case1 cs ih => simpa using ih
  | case2 cs hne ih => simpa using ih
  | case3 c cs hcr hc ih =>
    simp only [List.mem_cons, not_or]
    exact ⟨fun h => hc h.symm, ih⟩
  | case4 => simp

end PyText
