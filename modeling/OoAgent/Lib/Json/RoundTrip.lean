import OoAgent.Lib.Json.Trees

/-!
# Reading back what was written

* `size` — how much fuel a tree needs; `size_le_length` — its text has enough of it.
* `scanValue_render`, `scanItems_render`, `scanMembers_render` — the parts of a text, by one
  induction on the fuel.
* `parse_renderIn` — **a tree is read back as it was**, whatever its layout.
* `render_injective` — different trees have different texts.
-/

namespace Json

/-! ## Fuel -/

mutual

/-- How much fuel a tree needs. -/
def size : Json → ℕ
  | .arr [] => 1
  | .arr (x :: xs) => 1 + (1 + size x + sizeItems xs)
  | .obj [] => 1
  | .obj ((_, x) :: xs) => 1 + (1 + size x + sizeMembers xs)
  | _ => 1

/-- How much fuel the items behind the first one need. -/
def sizeItems : List Json → ℕ
  | [] => 0
  | x :: xs => 1 + size x + sizeItems xs

/-- How much fuel the members behind the first one need. -/
def sizeMembers : List (List Char × Json) → ℕ
  | [] => 0
  | (_, x) :: xs => 1 + size x + sizeMembers xs

end

variable {l : Layout}

mutual

theorem size_le_length (d : ℕ) (j : Json) : size j ≤ (renderIn l d j).length := by
  cases j with
  | null => exact Nat.le_add_left _ _
  | bool b => cases b <;> exact Nat.le_add_left _ _
  | num n =>
    obtain ⟨hne, -⟩ := n.valid
    have hpos : 1 ≤ n.whole.length := List.length_pos_of_ne_nil hne
    simp only [size, renderIn, Number.render, Spelling.render, List.length_append]
    omega
  | nan => exact Nat.le_add_left _ _
  | inf b => cases b <;> exact Nat.le_add_left _ _
  | str s => exact Nat.le_add_left _ _
  | arr items =>
    cases items with
    | nil => exact Nat.le_add_left _ _
    | cons x xs =>
      have hx := size_le_length (d + 1) x
      have hxs := sizeItems_lt_length d xs
      simp only [size, renderIn, List.length_cons, List.length_append]
      omega
  | obj members =>
    cases members with
    | nil => exact Nat.le_add_left _ _
    | cons member xs =>
      obtain ⟨k, x⟩ := member
      have hx := size_le_length (d + 1) x
      have hxs := sizeMembers_lt_length d xs
      simp only [size, renderIn, List.length_cons, List.length_append]
      omega

theorem sizeItems_lt_length (d : ℕ) (xs : List Json) :
    sizeItems xs < (renderItems l d xs).length := by
  cases xs with
  | nil => simp [sizeItems, renderItems]
  | cons x xs =>
    have hx := size_le_length (d + 1) x
    have hxs := sizeItems_lt_length d xs
    simp only [sizeItems, renderItems, List.length_cons, List.length_append]
    omega

theorem sizeMembers_lt_length (d : ℕ) (xs : List (List Char × Json)) :
    sizeMembers xs < (renderMembers l d xs).length := by
  cases xs with
  | nil => simp [sizeMembers, renderMembers]
  | cons member xs =>
    obtain ⟨k, x⟩ := member
    have hx := size_le_length (d + 1) x
    have hxs := sizeMembers_lt_length d xs
    simp only [sizeMembers, renderMembers, List.length_cons, List.length_append]
    omega

end

/-! ## The front of a text -/

theorem skipBlanks_of_head {text : List Char} (h : ∀ c ∈ text.head?, isBlank c = false) :
    skipBlanks text = text := by
  cases text with
  | nil => rfl
  | cons c text => rw [skipBlanks, List.dropWhile_cons_of_neg (by simp [h c rfl])]

/-- A digit stands for no punctuation and is no blank. -/
theorem digit_ne {c : Char} (h : c.isDigit = true) :
    isBlank c = false ∧ c ≠ '"' ∧ c ≠ '[' ∧ c ≠ ']' ∧ c ≠ '\x7b' ∧ c ≠ '\x7d' := by
  refine ⟨?_, ?_, ?_, ?_, ?_, ?_⟩
  · by_contra hblank
    simp only [isBlank, List.mem_cons, List.not_mem_nil, or_false, Bool.not_eq_false,
      decide_eq_true_eq] at hblank
    rcases hblank with rfl | rfl | rfl | rfl <;> exact absurd h (by decide)
  all_goals
    rintro rfl
    exact absurd h (by decide)

/-- A value begins with something that ends nothing. -/
theorem head_renderIn (d : ℕ) (j : Json) (rest : List Char) :
    ∃ c, (renderIn l d j ++ rest).head? = some c ∧ isBlank c = false ∧ c ≠ ']' ∧ c ≠ '\x7d' := by
  cases j with
  | null => exact ⟨_, rfl, by decide⟩
  | bool b => cases b <;> exact ⟨_, rfl, by decide⟩
  | num n =>
    obtain ⟨c, hc, hdigit | ⟨rfl, -⟩⟩ := Json.head_render n rest
    · obtain ⟨hblank, -, -, hbracket, -, hbrace⟩ := digit_ne hdigit
      exact ⟨c, hc, hblank, hbracket, hbrace⟩
    · exact ⟨_, hc, by decide⟩
  | nan => exact ⟨_, rfl, by decide⟩
  | inf b => cases b <;> exact ⟨_, rfl, by decide⟩
  | str s => exact ⟨_, rfl, by decide⟩
  | arr items => cases items <;> exact ⟨_, rfl, by decide⟩
  | obj members => cases members <;> exact ⟨_, rfl, by decide⟩

theorem skipBlanks_renderIn (d : ℕ) (j : Json) (rest : List Char) :
    skipBlanks (renderIn l d j ++ rest) = renderIn l d j ++ rest := by
  obtain ⟨c, hc, hblank, -⟩ := @head_renderIn l d j rest
  refine skipBlanks_of_head fun d hd => ?_
  rw [hc] at hd
  rwa [← Option.some.inj hd]

/-- No word begins like a number. -/
theorem scanConstant_number (n : Number) (rest : List Char) :
    scanConstant (n.render ++ rest) = none := by
  obtain ⟨c, hc, hfirst⟩ := Json.head_render n rest
  obtain ⟨text, htext⟩ := List.head?_eq_some_iff.1 hc
  rw [htext] at hfirst ⊢
  have hskip : ∀ {p : Char} {word : List Char}, p ≠ c → after (p :: word) (c :: text) = none :=
    fun hne => if_neg hne
  rcases hfirst with hdigit | ⟨rfl, d, hd, hdigit⟩
  · have hne : ∀ p : Char, p.isDigit = false → p ≠ c := by
      rintro p hp rfl
      rw [hdigit] at hp
      exact absurd hp (by decide)
    simp only [scanConstant, constants, List.findSome?_cons, hskip (hne 'n' (by decide)),
      hskip (hne 't' (by decide)), hskip (hne 'f' (by decide)), hskip (hne 'N' (by decide)),
      hskip (hne 'I' (by decide)), hskip (hne '-' (by decide)), Option.map_none]
    rfl
  · obtain ⟨text, rfl⟩ := List.head?_eq_some_iff.1 hd
    have hI : 'I' ≠ d := by
      rintro rfl
      exact absurd hdigit (by decide)
    have hlast : after ['-', 'I', 'n', 'f', 'i', 'n', 'i', 't', 'y'] ('-' :: d :: text) = none := by
      rw [after, if_pos rfl, after, if_neg hI]
    simp only [scanConstant, constants, List.findSome?_cons,
      hskip (show 'n' ≠ '-' by decide), hskip (show 't' ≠ '-' by decide),
      hskip (show 'f' ≠ '-' by decide), hskip (show 'N' ≠ '-' by decide),
      hskip (show 'I' ≠ '-' by decide), hlast, Option.map_none]
    rfl

theorem scanLiteral_renderString (s rest : List Char) :
    scanLiteral (renderString s ++ rest) = some (s, rest) := by
  have hlen : s.length < (renderString s ++ rest).length := by
    have hle := length_escape_le s
    simp only [renderString, List.length_cons, List.length_append, List.cons_append]
    omega
  show scanString (renderString s ++ rest).length (escape s ++ ['"'] ++ rest) = _
  rw [List.append_assoc]
  exact scanString_escape s rest hlen

/-! ## The round trip -/

/-- What stands behind a value in a text. -/
theorem endsNumber_of_head {text : List Char} {c : Char} (h : text.head? = some c)
    (hc : c = ',' ∨ c = ']' ∨ c = '\x7d') : EndsNumber text := by
  intro d hd
  obtain rfl : c = d := Option.some.inj (h.symm.trans hd)
  rcases hc with rfl | rfl | rfl <;> decide

theorem endsNumber_of_blank {blanks text : List Char} (h : ∀ c ∈ blanks, isBlank c = true)
    (htext : EndsNumber text) : EndsNumber (blanks ++ text) := by
  cases blanks with
  | nil => exact htext
  | cons b blanks =>
    intro c hc
    obtain rfl : b = c := Option.some.inj hc
    have hblank := h b List.mem_cons_self
    simp only [isBlank, List.mem_cons, List.not_mem_nil, or_false, decide_eq_true_eq] at hblank
    rcases hblank with rfl | rfl | rfl | rfl <;> decide

theorem endsNumber_items (d : ℕ) (xs : List Json) (rest : List Char) :
    EndsNumber (renderItems l d xs ++ rest) := by
  cases xs with
  | nil =>
    rw [renderItems, List.append_assoc]
    exact endsNumber_of_blank (l.blank_closing d) (endsNumber_of_head rfl (.inr (.inl rfl)))
  | cons x xs => exact endsNumber_of_head rfl (.inl rfl)

theorem endsNumber_members (d : ℕ) (xs : List (List Char × Json)) (rest : List Char) :
    EndsNumber (renderMembers l d xs ++ rest) := by
  cases xs with
  | nil =>
    rw [renderMembers, List.append_assoc]
    exact endsNumber_of_blank (l.blank_closing d) (endsNumber_of_head rfl (.inr (.inr rfl)))
  | cons x xs => exact endsNumber_of_head rfl (.inl rfl)

/-- The reader reads back what the writer wrote, on so much fuel. -/
structure ReadsBack (l : Layout) (fuel : ℕ) : Prop where
  value : ∀ d j rest, size j ≤ fuel → EndsNumber rest →
    scanValue fuel (renderIn l d j ++ rest) = some (j, rest)
  items : ∀ d x xs rest, 1 + size x + sizeItems xs ≤ fuel →
    scanItems fuel (renderIn l (d + 1) x ++ (renderItems l d xs ++ rest)) = some (x :: xs, rest)
  members : ∀ d k x xs rest, 1 + size x + sizeMembers xs ≤ fuel →
    scanMembers fuel
        (renderString k ++ ':' :: ' ' :: (renderIn l (d + 1) x ++ (renderMembers l d xs ++ rest))) =
      some ((k, x) :: xs, rest)

variable {fuel : ℕ}

theorem skipBlanks_cons {c : Char} (h : isBlank c = false) (text : List Char) :
    skipBlanks (c :: text) = c :: text :=
  skipBlanks_of_head fun d hd => by rwa [← Option.some.inj hd]

/-- Blanks in front of a text are skipped. -/
theorem skipBlanks_append {blanks : List Char} (h : ∀ c ∈ blanks, isBlank c = true)
    (text : List Char) : skipBlanks (blanks ++ text) = skipBlanks text := by
  induction blanks with
  | nil => rfl
  | cons b blanks ih =>
    obtain ⟨hb, hblanks⟩ := List.forall_mem_cons.1 h
    rw [List.cons_append, skipBlanks, List.dropWhile_cons_of_pos hb]
    exact ih hblanks

theorem skipBlanks_space (text : List Char) : skipBlanks (' ' :: text) = skipBlanks text := rfl

theorem scanItems_render (h : ReadsBack l fuel) (d : ℕ) (x : Json) (xs : List Json)
    (rest : List Char) (hfuel : 1 + size x + sizeItems xs ≤ fuel + 1) :
    scanItems (fuel + 1) (renderIn l (d + 1) x ++ (renderItems l d xs ++ rest)) =
      some (x :: xs, rest) := by
  have hx := h.value (d + 1) x (renderItems l d xs ++ rest) (by omega) (endsNumber_items d xs rest)
  rw [scanItems, hx, Option.bind_eq_bind, Option.bind_some]
  cases xs with
  | nil =>
    simp only [renderItems, List.append_assoc, skipBlanks_append (l.blank_closing d)]
    rfl
  | cons y ys =>
    have hys := h.items d y ys rest (by simp only [sizeItems] at hfuel; omega)
    simp only [renderItems, List.cons_append, skipBlanks_cons (show isBlank ',' = false from rfl),
      List.head?_cons, List.tail_cons, List.append_assoc, skipBlanks_append (l.blank_between d),
      skipBlanks_renderIn, hys, Option.map_some]
    rfl

theorem scanMembers_render (h : ReadsBack l fuel) (d : ℕ) (k : List Char) (x : Json)
    (xs : List (List Char × Json)) (rest : List Char)
    (hfuel : 1 + size x + sizeMembers xs ≤ fuel + 1) :
    scanMembers (fuel + 1)
        (renderString k ++ ':' :: ' ' :: (renderIn l (d + 1) x ++ (renderMembers l d xs ++ rest))) =
      some ((k, x) :: xs, rest) := by
  have hx := h.value (d + 1) x (renderMembers l d xs ++ rest) (by omega)
    (endsNumber_members d xs rest)
  rw [scanMembers, scanLiteral_renderString, Option.bind_eq_bind, Option.bind_some]
  simp only [skipBlanks_cons (show isBlank ':' = false from rfl), List.head?_cons, if_true,
    List.tail_cons, skipBlanks_space, skipBlanks_renderIn, hx, Option.bind_eq_bind,
    Option.bind_some]
  cases xs with
  | nil =>
    simp only [renderMembers, List.append_assoc, skipBlanks_append (l.blank_closing d)]
    rfl
  | cons member ys =>
    obtain ⟨m, y⟩ := member
    have hys := h.members d m y ys rest (by simp only [sizeMembers] at hfuel; omega)
    have hkey : ∀ text : List Char, skipBlanks (renderString m ++ text) = renderString m ++ text :=
      fun text => skipBlanks_cons rfl _
    simp only [renderMembers, List.cons_append, List.append_assoc,
      skipBlanks_cons (show isBlank ',' = false from rfl), List.head?_cons, List.tail_cons,
      skipBlanks_append (l.blank_between d), hkey, hys, Option.map_some]
    rfl

theorem scanValue_render (h : ReadsBack l fuel) (d : ℕ) (j : Json) (rest : List Char)
    (hfuel : size j ≤ fuel + 1) (hrest : EndsNumber rest) :
    scanValue (fuel + 1) (renderIn l d j ++ rest) = some (j, rest) := by
  cases j with
  | null => rfl
  | bool b => cases b <;> rfl
  | nan => rfl
  | inf b => cases b <;> rfl
  | num n =>
    obtain ⟨c, hc, hfirst⟩ := Json.head_render n rest
    have hne : c ≠ '"' ∧ c ≠ '[' ∧ c ≠ '\x7b' := by
      rcases hfirst with hdigit | ⟨rfl, -⟩
      · obtain ⟨-, hquote, hbracket, -, hbrace, -⟩ := digit_ne hdigit
        exact ⟨hquote, hbracket, hbrace⟩
      · decide
    simp only [renderIn, scanValue, hc, Option.some.injEq, hne.1, hne.2.1, hne.2.2, if_false,
      scanConstant_number, scanNumber_render n hrest, Option.map_some]
  | str s =>
    have hquote : (renderString s ++ rest).head? = some '"' := rfl
    rw [renderIn, scanValue, if_pos hquote, scanLiteral_renderString]
    rfl
  | arr items =>
    cases items with
    | nil => rfl
    | cons x xs =>
      obtain ⟨c, hc, -, hbracket, -⟩ := @head_renderIn l (d + 1) x (renderItems l d xs ++ rest)
      have hitems := h.items d x xs rest (by simp only [size] at hfuel; omega)
      have hne : (renderIn l (d + 1) x ++ (renderItems l d xs ++ rest)).head? ≠ some ']' := by
        rw [hc]
        exact fun heq => hbracket (Option.some.inj heq)
      simp only [renderIn, List.cons_append, List.append_assoc, scanValue, List.head?_cons,
        List.tail_cons, skipBlanks_append (l.blank_opening d), skipBlanks_renderIn, if_neg hne,
        hitems, Option.map_some]
      rfl
  | obj members =>
    cases members with
    | nil => rfl
    | cons member xs =>
      obtain ⟨k, x⟩ := member
      have hmembers := h.members d k x xs rest (by simp only [size] at hfuel; omega)
      have hkey : ∀ text : List Char,
          skipBlanks (renderString k ++ text) = renderString k ++ text :=
        fun text => skipBlanks_cons rfl _
      have hne : ∀ text : List Char, (renderString k ++ text).head? ≠ some '\x7d' :=
        fun text heq => absurd (Option.some.inj heq) (by decide)
      simp only [renderIn, List.cons_append, List.append_assoc, scanValue, List.head?_cons,
        List.tail_cons, skipBlanks_append (l.blank_opening d), hkey, if_neg (hne _), hmembers,
        Option.map_some]
      rfl

/-- **The reader reads back what the writer wrote**, as long as its fuel lasts. -/
theorem readsBack (l : Layout) (fuel : ℕ) : ReadsBack l fuel := by
  induction fuel with
  | zero =>
    constructor
    · intro d j rest hfuel
      have hpos : 1 ≤ size j := by
        cases j with
        | arr items => cases items <;> simp [size]
        | obj members => cases members <;> simp [size]
        | _ => exact Nat.le_refl _
      exact absurd hfuel (by omega)
    · exact fun d x xs rest hfuel => absurd hfuel (by omega)
    · exact fun d k x xs rest hfuel => absurd hfuel (by omega)
  | succ fuel ih =>
    exact ⟨scanValue_render ih, scanItems_render ih, scanMembers_render ih⟩

/-- **The round trip**: a tree is read back as it was, whatever its layout. -/
theorem parse_renderIn (l : Layout) (d : ℕ) (j : Json) : parse (renderIn l d j) = some j := by
  have hfuel : size j ≤ (renderIn l d j).length + 1 := (size_le_length d j).trans (Nat.le_succ _)
  have hread := (readsBack l _).value d j [] hfuel fun c hc => absurd hc (by simp)
  have hblanks := @skipBlanks_renderIn l d j []
  rw [List.append_nil] at hread hblanks
  rw [parse, hblanks, hread]
  rfl

theorem parse_render (j : Json) : parse (render j) = some j := parse_renderIn _ _ j

/-- Different trees have different texts. -/
theorem render_injective : Function.Injective render := fun j j' h => by
  have hparse := congrArg parse h
  rw [parse_render, parse_render] at hparse
  exact Option.some.inj hparse

end Json
