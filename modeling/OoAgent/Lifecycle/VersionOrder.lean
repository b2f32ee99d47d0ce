import OoAgent.Lib.Padded
import OoAgent.Lifecycle.SelfUpdate

/-!
# The order of versions

`_version_tuple` gives tuples of different lengths, and Python compares tuples
lexicographically: `(1, 2)` comes before `(1, 2, 0)`.  In the order of versions a missing
component counts as zero, and the two are the same.

* `Dotted` — a dotted-numeric version; `versionTuple_text` — what `_version_tuple` makes of
  it.
* `printUpdateState` — `print_update_state`.
* `version_order_iff` — **the order of the tuples is that of the versions**, unless the first
  is the second followed by zeros.
-/

namespace OoAgent

open PyText

/-! ## Dotted versions -/

/-- A dotted-numeric version, by the digits between its dots. -/
structure Dotted where
  chunks : List (List Char)
  nonempty : chunks ≠ []
  numeric : ∀ chunk ∈ chunks, chunk ≠ [] ∧ ∀ c ∈ chunk, c.isDigit = true

namespace Dotted

/-- The text of the version. -/
def text (v : Dotted) : String := String.ofList (['.'].intercalate v.chunks)

/-- The components of the version. -/
def values (v : Dotted) : List ℕ := v.chunks.map asciiValue

/-- No component has more digits than `int` reads. -/
def Readable (v : Dotted) : Prop := ∀ chunk ∈ v.chunks, chunk.length ≤ maxStrDigits

instance (v : Dotted) : Decidable v.Readable := inferInstanceAs (Decidable (∀ _ ∈ _, _))

end Dotted

/-- Pieces without the separator come back from the text they are joined to. -/
theorem split_intercalate {sep : Char} {pieces : List (List Char)} (hne : pieces ≠ [])
    (h : ∀ piece ∈ pieces, sep ∉ piece) : split sep ([sep].intercalate pieces) = pieces := by
  induction pieces with
  | nil => exact absurd rfl hne
  | cons piece pieces ih =>
    obtain ⟨hpiece, hpieces⟩ := List.forall_mem_cons.1 h
    cases pieces with
    | nil =>
      rw [List.intercalate_singleton]
      exact split_of_not_mem hpiece
    | cons next pieces =>
      rw [List.intercalate_cons_cons, List.append_assoc, List.singleton_append,
        split_append_cons hpiece, ih (by simp) hpieces]

/-- One chunk of digits. -/
theorem versionChunk_digits {chunk : List Char} (hne : chunk ≠ [])
    (hdigits : ∀ c ∈ chunk, c.isDigit = true) :
    versionChunk chunk =
      if chunk.length ≤ maxStrDigits then some (asciiValue chunk) else none := by
  have hfilter : chunk.filter PyText.isDigit = chunk :=
    List.filter_eq_self.2 fun c hc => isDigit_ascii (hdigits c hc)
  rw [versionChunk, hfilter, if_neg hne]
  split_ifs with hlen
  · exact intOf_ascii ⟨hne, hdigits, hlen⟩
  · exact if_pos (.inr (not_le.1 hlen))

theorem mapM_versionChunk {chunks : List (List Char)}
    (h : ∀ chunk ∈ chunks, chunk ≠ [] ∧ ∀ c ∈ chunk, c.isDigit = true) :
    chunks.mapM versionChunk =
      if ∀ chunk ∈ chunks, chunk.length ≤ maxStrDigits then some (chunks.map asciiValue)
      else none := by
  induction chunks with
  | nil => rfl
  | cons chunk chunks ih =>
    obtain ⟨⟨hne, hdigits⟩, hrest⟩ := List.forall_mem_cons.1 h
    rw [List.mapM_cons, versionChunk_digits hne hdigits, ih hrest]
    simp only [List.forall_mem_cons]
    by_cases hlen : chunk.length ≤ maxStrDigits
    · by_cases hall : ∀ chunk ∈ chunks, chunk.length ≤ maxStrDigits
      · rw [if_pos hlen, if_pos hall, if_pos ⟨hlen, hall⟩]
        rfl
      · rw [if_pos hlen, if_neg hall, if_neg (not_and_of_not_right _ hall)]
        rfl
    · rw [if_neg hlen, if_neg (not_and_of_not_left _ hlen)]
      rfl

/-- **What `_version_tuple` makes of a dotted-numeric version.** -/
theorem versionTuple_text (v : Dotted) :
    versionTuple v.text = if v.Readable then some v.values else none := by
  have hdot : ∀ chunk ∈ v.chunks, '.' ∉ chunk := fun chunk hchunk hmem =>
    absurd ((v.numeric chunk hchunk).2 '.' hmem) (by decide)
  have hspace : ∀ c ∈ ['.'].intercalate v.chunks, isSpace c = false := by
    intro c hc
    rcases mem_intercalate hc with rfl | ⟨chunk, hchunk, hmem⟩
    · decide
    · have hbounds := toNat_of_ascii ((v.numeric chunk hchunk).2 c hmem)
      simp only [isSpace, List.mem_cons, List.not_mem_nil, or_false, decide_eq_false_iff_not]
      omega
  have hstrip : strip (['.'].intercalate v.chunks) = ['.'].intercalate v.chunks :=
    strip_eq_self (fun c hc => hspace c (List.mem_of_mem_head? hc))
      fun c hc => hspace c (List.mem_of_getLast? hc)
  rw [versionTuple, Dotted.text, String.toList_ofList, hstrip, split_intercalate v.nonempty hdot]
  exact mapM_versionChunk v.numeric

/-! ## What the versions are compared for -/

/-- `print_update_state`: what it prints, and what it returns; `none` when it raises. -/
def printUpdateState (manifest : Outcome) : Option (String × Nat) :=
  match checkManifest manifest with
  | none => some ("manifest unavailable", 1)
  | some m => (upToDate (latestOf m)).map fun current =>
      (if current then "up to date (" ++ version ++ ")"
        else "update available: " ++ version ++ " -> " ++ latestOf m, 0)

/-- A manifest with this version is never taken for newer: `self_update` downloads nothing,
and `print_update_state` offers nothing. -/
structure NeverNewer (latest : String) : Prop where
  update : ∀ server restart manifest download host m, checkManifest manifest = some m →
    latestOf m = latest →
      (selfUpdate server restart manifest download host).log =
        [.requested (siteBase server ++ manifestPath)]
  state : ∀ manifest m, checkManifest manifest = some m → latestOf m = latest →
    printUpdateState manifest ≠
      some ("update available: " ++ version ++ " -> " ++ latest, 0)

/-- It is the comparison of the tuples that decides. -/
theorem neverNewer_iff {latest : String} (hne : latest ≠ "") :
    NeverNewer latest ↔ upToDate latest ≠ some false := by
  constructor
  · intro h hnewer
    have hgiven : checkManifest (manifestReply [(.str "agent_version", .str latest)]) =
        some [(.str "agent_version", .str latest)] := by
      have htruthy : (Value.getD [(.str "agent_version", .str latest)] "agent_version"
          .none).truthy = true := by
        simp [Value.getD, Value.lookup, Value.truthy, hne]
      simp [checkManifest, manifestReply, Status.ok, htruthy]
    have hlog := h.update "" false _ none sampleHost _ hgiven rfl
    have hlatest : upToDate (latestOf [(.str "agent_version", .str latest)]) = some false := hnewer
    simp [selfUpdate, hgiven, hlatest] at hlog
  · intro h
    refine ⟨fun server restart manifest download host m hm hlatest => ?_,
      fun manifest m hm hlatest => ?_⟩
    · rw [selfUpdate, hm]
      simp only [hlatest]
      cases hcurrent : upToDate latest with
      | none => rfl
      | some current =>
        cases current with
        | true => rfl
        | false => exact absurd hcurrent h
    · rw [printUpdateState, hm]
      simp only [hlatest]
      cases hcurrent : upToDate latest with
      | none => simp
      | some current =>
        have hprinted : "up to date (" ++ version ++ ")" ≠
            "update available: " ++ version ++ " -> " ++ latest := by
          intro heq
          have hsecond := congrArg (fun s => s.toList[2]?) heq
          simp at hsecond
        cases current with
        | true => simpa using hprinted
        | false => exact absurd hcurrent h

/-! ## The order -/

/-- The components of the first version are those of the second, followed by zeros. -/
def TrailingZeros (a b : Dotted) : Prop :=
  ∃ n, a.values = b.values ++ List.replicate (n + 1) 0

/-- `_version_tuple(a) <= _version_tuple(b)` holds exactly when `a` is not newer than `b`, where
missing components count as zero. -/
def NumericOrder (a b : Dotted) : Prop :=
  ∃ x y, versionTuple a.text = some x ∧ versionTuple b.text = some y ∧
    (x ≤ y ↔ Padded.Le a.values b.values)

/-- The tuples are in the order of the versions exactly when both can be read and the first
does not go on after the second with zeros. -/
theorem numericOrder_iff (a b : Dotted) :
    NumericOrder a b ↔ (a.Readable ∧ b.Readable) ∧ ¬ TrailingZeros a b := by
  have hagree := Padded.le_iff a.values b.values
  rw [bot_eq_zero] at hagree
  unfold NumericOrder TrailingZeros
  rw [versionTuple_text, versionTuple_text, ← hagree]
  by_cases ha : a.Readable
  · by_cases hb : b.Readable
    · simp [ha, hb]
    · simp [hb]
  · simp [ha]

/-- The version of the agent. -/
def running : Dotted where
  chunks := [['0'], ['2'], ['1']]
  nonempty := by decide
  numeric := by simp [Char.isDigit]

theorem text_running : running.text = version := by decide

theorem Dotted.text_ne_empty (v : Dotted) : v.text ≠ "" := by
  intro h
  have hnil : ['.'].intercalate v.chunks = [] := by
    simpa [Dotted.text] using congrArg String.toList h
  have hsplit := @split_intercalate '.' v.chunks v.nonempty fun chunk hchunk hmem =>
    absurd ((v.numeric chunk hchunk).2 '.' hmem) (by decide)
  rw [hnil] at hsplit
  exact (v.numeric [] (hsplit ▸ List.mem_singleton_self _)).1 rfl

theorem upToDate_text (v : Dotted) :
    upToDate v.text =
      if v.Readable then some (decide (v.values ≤ running.values)) else none := by
  have hrunning : versionTuple version = some running.values := by
    rw [← text_running, versionTuple_text]
    exact if_pos (by decide +kernel)
  rw [upToDate, versionTuple_text, hrunning]
  by_cases h : v.Readable
  · rw [if_pos h, if_pos h]
    rfl
  · rw [if_neg h, if_neg h]
    rfl

/-- A version that equals the running one is taken for newer exactly when it can be read and
goes on with zeros. -/
theorem neverNewer_equal_iff {v : Dotted} (h : Padded.Equal v.values running.values) :
    NeverNewer v.text ↔ ¬ (v.Readable ∧ TrailingZeros v running) := by
  have hle : Padded.Le v.values running.values := .inl h
  have hagree := Padded.le_iff v.values running.values
  rw [iff_true_right hle, bot_eq_zero] at hagree
  rw [neverNewer_iff v.text_ne_empty, upToDate_text]
  by_cases hread : v.Readable
  · simp only [hread, if_true, true_and, ne_eq, Option.some.injEq, decide_eq_false_iff_not, not_not]
    exact hagree
  · simp [hread]

/-- **The order of the tuples is that of the versions**, unless a component is too long to be
read or the first version is the second followed by zeros; and a manifest version that equals
the running one is taken for newer in just that case. -/
theorem version_order_iff (a b : Dotted) :
    (NumericOrder a b ↔ (a.Readable ∧ b.Readable) ∧ ¬ TrailingZeros a b) ∧
      (Padded.Equal a.values running.values →
        (NeverNewer a.text ↔ ¬ (a.Readable ∧ TrailingZeros a running))) :=
  ⟨numericOrder_iff a b, neverNewer_equal_iff⟩

/-- The running version with a zero more. -/
def sampleLonger : Dotted where
  chunks := [['0'], ['2'], ['1'], ['0']]
  nonempty := by decide
  numeric := by simp [Char.isDigit]

/-- **A trailing zero** makes the running version newer than itself. -/
theorem trailing_zero_newer :
    ¬ ((∀ a b, NumericOrder a b) ∧
      ∀ a : Dotted, Padded.Equal a.values running.values → NeverNewer a.text) := by
  rintro ⟨horder, -⟩
  exact ((numericOrder_iff sampleLonger running).1 (horder _ _)).2 ⟨0, by decide +kernel⟩

end OoAgent
