import OoAgent.Core.Discovery
import OoAgent.Transport.Client

/-!
# Text options of the transport

`AgentConfig` coerces every option of the INI file; the consumers turn it back with `str`.

* `FloatText`, `OptionValue`, `coerceText` — Python's floats as texts, and `_coerce`.
* `TransportOptions` — the options of `[transport]`; `clientServer`, `clientTokenFile`,
  `clientToken`, `sinkQueuePath` — what `TransportClient` and `_build_sink` make of them.
* `toValue_coerceText` — it is the coercion of the rest of the configuration;
  `init_coercedOptions` — and the client that is built has these strings.
* `Unchanged`, `IsGiven` — the texts that survive, and those that are not taken for nothing;
  `str_coerceText_iff`, `truthy_coerceText_iff` — **that is what they say**.
* `transport_text_iff` — the options reach their consumers unchanged.
-/

namespace OoAgent

open PyText

/-! ## Coercion -/

/-- Python's floats, as the agent reads and prints them. -/
structure FloatText (φ : Type*) where
  /-- `float(text)`; `none` for a `ValueError`. -/
  parse : List Char → Option φ
  /-- `str(x)`. -/
  str : φ → List Char
  truthy : φ → Bool
  /-- Neither the texts of numbers nor printed numbers hold a slash. -/
  slash_parse : ∀ {s x}, parse s = some x → '/' ∉ s
  slash_str : ∀ x, '/' ∉ str x

/-- What an option is coerced to. -/
inductive OptionValue (φ : Type*) where
  | bool (b : Bool)
  | int (n : ℤ)
  | float (x : φ)
  | text (s : List Char)

/-- The words for `True` and for `False`. -/
def trueWords : List (List Char) := ["true".toList, "yes".toList, "on".toList]

/-- The words for `False`. -/
def falseWords : List (List Char) := ["false".toList, "no".toList, "off".toList]

variable {φ : Type*} (float : FloatText φ)

/-- `_coerce`, on the stripped text. -/
def coerceText (text : List Char) : OptionValue φ :=
  if lowerAscii text ∈ trueWords then .bool true
  else if lowerAscii text ∈ falseWords then .bool false
  else
    match parseInt text with
    | some n => .int n
    | none =>
      match float.parse text with
      | some x => .float x
      | none => .text text

namespace OptionValue

/-- `str(value)`. -/
def str : OptionValue φ → List Char
  | .bool true => "True".toList
  | .bool false => "False".toList
  | .int n => strInt n
  | .float x => float.str x
  | .text s => s

/-- `bool(value)`. -/
def truthy : OptionValue φ → Bool
  | .bool b => b
  | .int n => decide (n ≠ 0)
  | .float x => float.truthy x
  | .text s => decide (s ≠ [])

end OptionValue

/-! ## Consumers -/

/-- The options of `[transport]`, as `configparser` hands them over. -/
abbrev TransportOptions := List (List Char × List Char)

/-- `options.get(key, "")`. -/
def optionOf (options : TransportOptions) (key : List Char) : OptionValue φ :=
  ((options.lookup key).map fun raw => coerceText float (strip raw)).getD (.text [])

/-- `str(options.get(key, "") or default)`. -/
def optionOr (options : TransportOptions) (key default : List Char) : List Char :=
  if (optionOf float options key).truthy float then (optionOf float options key).str float
  else default

/-- `DEFAULT_QUEUE_PATH`. -/
def defaultQueuePath : String := "/var/lib/oo-agent/queue.db"

/-- `self.server`. -/
def clientServer (options : TransportOptions) : List Char :=
  rstripSlash ((optionOf float options "server".toList).str float)

/-- `self.token_file`. -/
def clientTokenFile (options : TransportOptions) : List Char :=
  optionOr float options "token_file".toList defaultTokenFile.toList

/-- `self.token`, where `read_token` gives what a file holds; `none` when it raises. -/
def clientToken (readToken : List Char → Option (List Char)) (options : TransportOptions) :
    Option (List Char) :=
  let inline := optionOf float options "token".toList
  if inline.truthy float then some (inline.str float)
  else readToken (clientTokenFile float options)

/-- The path that `_build_sink` opens the queue at. -/
def sinkQueuePath (options : TransportOptions) : List Char :=
  optionOr float options "queue_path".toList defaultQueuePath.toList

/-- The options reach their consumers as they are written, but for white space around them and
for slashes behind the base URL. -/
def TextKept (readToken : List Char → Option (List Char)) (options : TransportOptions) : Prop :=
  (∀ raw, options.lookup "server".toList = some raw →
    clientServer float options = rstripSlash (strip raw)) ∧
  (∀ raw, options.lookup "token".toList = some raw →
    clientToken float readToken options = some (strip raw)) ∧
  (∀ raw, options.lookup "token_file".toList = some raw →
    clientTokenFile float options = strip raw) ∧
  ∀ raw, options.lookup "queue_path".toList = some raw →
    sinkQueuePath float options = strip raw

/-- What an option is coerced to, among all values. -/
def OptionValue.toValue : OptionValue PyFloat → Value
  | .bool b => .bool b
  | .int n => .int n
  | .float x => .float x
  | .text s => .str (String.ofList s)

theorem ofList_mem_iff {s : List Char} {words : List String} :
    String.ofList s ∈ words ↔ s ∈ words.map String.toList := by
  rw [List.mem_map]
  constructor
  · intro h
    exact ⟨_, h, String.toList_ofList⟩
  · rintro ⟨word, hword, rfl⟩
    rwa [String.ofList_toList]

/-- **The coercion** is that of the rest of the configuration. -/
theorem toValue_coerceText (float : FloatText PyFloat) (config : Discovery.Config)
    (hfloat : config.float = float.parse) (value : String) :
    (coerceText float (strip value.toList)).toValue = config.coerce value := by
  unfold coerceText Discovery.Config.coerce
  dsimp only
  simp only [ofList_mem_iff, hfloat]
  show _ = if lowerAscii (strip value.toList) ∈ trueWords then _
    else if lowerAscii (strip value.toList) ∈ falseWords then _ else _
  split_ifs with htrue hfalse
  · rfl
  · rfl
  · cases parseInt (strip value.toList) with
    | some n => rfl
    | none => cases float.parse (strip value.toList) <;> rfl

/-! ## The client that is built -/

section

variable {float : FloatText PyFloat} (hstr : ∀ x, float.str x = x.toStr.toList)
  (htruthy : ∀ x, float.truthy x = x.truthy)

include hstr in
theorem toStr_toValue (v : OptionValue PyFloat) :
    v.toValue.toStr = String.ofList (v.str float) := by
  refine String.toList_injective ?_
  rw [String.toList_ofList]
  cases v with
  | bool b => cases b <;> rfl
  | int n =>
    cases n with
    | ofNat n => exact Nat.toList_repr
    | negSucc n =>
      show ("-" ++ Nat.repr (n + 1)).toList = '-' :: Nat.toDigits 10 (n + 1)
      rw [String.toList_append, Nat.toList_repr]
      rfl
  | float x => exact (hstr x).symm
  | text s => exact String.toList_ofList

include htruthy in
theorem truthy_toValue (v : OptionValue PyFloat) : v.toValue.truthy = v.truthy float := by
  cases v with
  | bool b => rfl
  | int n => rfl
  | float x => exact (htruthy x).symm
  | text s =>
    have hnil : String.ofList s ≠ "" ↔ s ≠ [] := by
      rw [ne_eq, ne_eq, ← String.toList_inj, String.toList_ofList]
      rfl
    exact decide_eq_decide.2 hnil

end

/-- The coerced options, as the rest of the model has them. -/
def coercedOptions (float : FloatText PyFloat) (options : TransportOptions) : List (Key × Value) :=
  options.map fun (key, raw) => (.str (String.ofList key), (coerceText float (strip raw)).toValue)

theorem getD_coercedOptions (float : FloatText PyFloat) (options : TransportOptions)
    (key : String) :
    Value.getD (coercedOptions float options) key (.str "") =
      (optionOf float options key.toList).toValue := by
  unfold Value.getD Value.lookup coercedOptions optionOf
  induction options with
  | nil => rfl
  | cons option options ih =>
    obtain ⟨k, raw⟩ := option
    rw [List.map_cons, List.lookup_cons, List.lookup_cons]
    by_cases hk : key.toList = k
    · have hkey : key = String.ofList k := by rw [← hk, String.ofList_toList]
      rw [beq_iff_eq.2 hk, beq_iff_eq.2 (congrArg Key.str hkey)]
      rfl
    · have hkey : Key.str key ≠ Key.str (String.ofList k) := by
        intro heq
        rw [Key.str.inj heq, String.toList_ofList] at hk
        exact hk rfl
      rw [beq_eq_false_iff_ne.2 hk, beq_eq_false_iff_ne.2 hkey]
      exact ih

/-- **The client that is built** from the options has these strings. -/
theorem init_coercedOptions {float : FloatText PyFloat}
    (hstr : ∀ x, float.str x = x.toStr.toList) (htruthy : ∀ x, float.truthy x = x.truthy)
    (options : TransportOptions) (files : Files) :
    TransportClient.init (coercedOptions float options) files =
      (clientToken float (fun path => (readToken files (String.ofList path)).map String.toList)
        options).map fun token =>
        { server := String.ofList (clientServer float options)
          tokenFile := String.ofList (clientTokenFile float options)
          token := String.ofList token
          authStatus := none
          serverCommands := [] } := by
  have hfile : TransportClient.tokenFileOf (coercedOptions float options) =
      String.ofList (clientTokenFile float options) := by
    unfold TransportClient.tokenFileOf clientTokenFile optionOr Value.orElse
    rw [getD_coercedOptions, truthy_toValue htruthy]
    split_ifs
    · exact toStr_toValue hstr _
    · exact (String.ofList_toList).symm
  have hserver : TransportClient.serverOf (coercedOptions float options) =
      String.ofList (clientServer float options) := by
    rw [TransportClient.serverOf, getD_coercedOptions, toStr_toValue hstr, String.toList_ofList]
    rfl
  have htoken : TransportClient.loadToken (coercedOptions float options) files =
      (clientToken float (fun path => (readToken files (String.ofList path)).map String.toList)
        options).map String.ofList := by
    unfold TransportClient.loadToken clientToken
    rw [getD_coercedOptions]
    dsimp only
    rw [truthy_toValue htruthy, toStr_toValue hstr, hfile]
    split_ifs
    · rfl
    · rw [Option.map_map]
      cases readToken files (String.ofList (clientTokenFile float options)) with
      | none => rfl
      | some token => exact congrArg some (String.ofList_toList).symm
  rw [TransportClient.init, htoken, hfile, hserver, Option.map_map]
  rfl

/-! ## The texts that survive -/

/-- The text is printed as it is read: a word is `True` or `False`, a number is written as `str`
writes it. -/
structure Unchanged (text : List Char) : Prop where
  asWord : lowerAscii text ∈ trueWords ∨ lowerAscii text ∈ falseWords →
    text = "True".toList ∨ text = "False".toList
  asInt : ¬ (lowerAscii text ∈ trueWords ∨ lowerAscii text ∈ falseWords) → parseInt text ≠ none →
    ∃ n, text = strInt n
  asFloat : ¬ (lowerAscii text ∈ trueWords ∨ lowerAscii text ∈ falseWords) → parseInt text = none →
    ∀ x, float.parse text = some x → float.str x = text

/-- The text is not taken for nothing: it is not empty, no word for `False` and no zero. -/
structure IsGiven (text : List Char) : Prop where
  asWord : lowerAscii text ∉ falseWords
  asInt : lowerAscii text ∉ trueWords → parseInt text ≠ some 0
  asFloat : lowerAscii text ∉ trueWords → parseInt text = none →
    ∀ x, float.parse text = some x → float.truthy x = true
  asText : lowerAscii text ∉ trueWords → parseInt text = none → float.parse text = none → text ≠ []

section

variable {float} {text : List Char}

theorem lowerAscii_True :
    lowerAscii "True".toList ∈ trueWords ∧ lowerAscii "True".toList ∉ falseWords := by
  decide +kernel

theorem lowerAscii_False :
    lowerAscii "False".toList ∈ falseWords ∧ lowerAscii "False".toList ∉ trueWords := by
  decide +kernel

/-- **A text is turned back into itself** exactly when it is one that survives. -/
theorem str_coerceText_iff :
    (coerceText float text).str float = text ↔ Unchanged float text := by
  unfold coerceText
  split_ifs with htrue hfalse
  · constructor
    · intro h
      exact ⟨fun _ => .inl h.symm, fun hnot => absurd (.inl htrue) hnot,
        fun hnot => absurd (.inl htrue) hnot⟩
    · intro h
      rcases h.asWord (.inl htrue) with heq | heq
      · exact heq.symm
      · rw [heq] at htrue
        exact absurd htrue lowerAscii_False.2
  · constructor
    · intro h
      exact ⟨fun _ => .inr h.symm, fun hnot => absurd (.inr hfalse) hnot,
        fun hnot => absurd (.inr hfalse) hnot⟩
    · intro h
      rcases h.asWord (.inr hfalse) with heq | heq
      · rw [heq] at hfalse
        exact absurd hfalse lowerAscii_True.2
      · exact heq.symm
  · have hword : ¬ (lowerAscii text ∈ trueWords ∨ lowerAscii text ∈ falseWords) :=
      not_or.2 ⟨htrue, hfalse⟩
    cases hint : parseInt text with
    | some n =>
      constructor
      · intro h
        exact ⟨fun hin => absurd hin hword, fun _ _ => ⟨n, h.symm⟩,
          fun _ hnone => absurd (hint.symm.trans hnone) (by simp)⟩
      · intro h
        obtain ⟨m, hm⟩ := h.asInt hword (by simp [hint])
        have hn : n = m := strInt_of_parseInt (hm ▸ hint)
        show strInt n = text
        rw [hn, ← hm]
    | none =>
      cases hfloat : float.parse text with
      | some x =>
        constructor
        · intro h
          refine ⟨fun hin => absurd hin hword, fun _ hsome => absurd hint hsome, ?_⟩
          intro _ _ y hy
          rw [← Option.some.inj (hfloat.symm.trans hy)]
          exact h
        · intro h
          exact h.asFloat hword hint x hfloat
      | none =>
        refine iff_of_true rfl ⟨fun hin => absurd hin hword, fun _ hsome => absurd hint hsome, ?_⟩
        intro _ _ y hy
        exact absurd (hfloat.symm.trans hy) (by simp)

/-- No word stands for both. -/
theorem notMem_falseWords {word : List Char} (h : word ∈ trueWords) : word ∉ falseWords := by
  have hall : (trueWords.all fun word => !falseWords.contains word) = true := by decide +kernel
  have hword := List.all_eq_true.1 hall word h
  intro hmem
  rw [List.contains_iff_mem.2 hmem] at hword
  cases hword

/-- **A text is not taken for nothing** exactly when it is given. -/
theorem truthy_coerceText_iff :
    (coerceText float text).truthy float = true ↔ IsGiven float text := by
  unfold coerceText
  split_ifs with htrue hfalse
  · exact iff_of_true rfl ⟨notMem_falseWords htrue, fun hnot => absurd htrue hnot,
      fun hnot => absurd htrue hnot, fun hnot => absurd htrue hnot⟩
  · refine iff_of_false (by simp [OptionValue.truthy]) fun h => h.asWord hfalse
  · cases hint : parseInt text with
    | some n =>
      show decide (n ≠ 0) = true ↔ _
      rw [decide_eq_true_iff]
      constructor
      · intro hn
        refine ⟨hfalse, fun _ hzero => hn (Option.some.inj (hint.symm.trans hzero)), ?_, ?_⟩
        · exact fun _ hnone => absurd (hint.symm.trans hnone) (by simp)
        · exact fun _ hnone => absurd (hint.symm.trans hnone) (by simp)
      · rintro h rfl
        exact h.asInt htrue hint
    | none =>
      have hzero : parseInt text ≠ some 0 := by simp [hint]
      cases hfloat : float.parse text with
      | some x =>
        show float.truthy x = true ↔ _
        constructor
        · intro hx
          refine ⟨hfalse, fun _ => hzero, fun _ _ y hy => ?_, fun _ _ hnone => ?_⟩
          · rwa [← Option.some.inj (hfloat.symm.trans hy)]
          · exact absurd (hfloat.symm.trans hnone) (by simp)
        · intro h
          exact h.asFloat htrue hint x hfloat
      | none =>
        show decide (text ≠ []) = true ↔ _
        rw [decide_eq_true_iff]
        constructor
        · intro hne
          refine ⟨hfalse, fun _ => hzero, fun _ _ y hy => ?_, fun _ _ _ => hne⟩
          exact absurd (hfloat.symm.trans hy) (by simp)
        · intro h
          exact h.asText htrue hint hfloat

/-! ## Slashes -/

theorem rstripSlash_of_notMem {s : List Char} (h : '/' ∉ s) : rstripSlash s = s := by
  rw [rstripSlash, List.rdropWhile_eq_self_iff]
  intro hne hlast
  exact h (beq_iff_eq.1 hlast ▸ List.getLast_mem hne)

theorem slash_notMem_strInt (n : ℤ) : '/' ∉ strInt n := by
  have hdigits (m : ℕ) : '/' ∉ Nat.toDigits 10 m := fun hmem =>
    absurd (isDigit_of_mem_toDigits '/' hmem) (by decide)
  cases n with
  | ofNat m => exact hdigits m
  | negSucc m =>
    intro hmem
    rcases List.mem_cons.1 hmem with heq | hmem
    · exact absurd heq (by decide)
    · exact hdigits (m + 1) hmem

/-- A word for `True` or `False` holds no slash. -/
theorem slash_notMem_of_word (h : lowerAscii text ∈ trueWords ∨ lowerAscii text ∈ falseWords) :
    '/' ∉ text := by
  have hall : ((trueWords ++ falseWords).all fun word => !word.contains '/') = true := by
    decide +kernel
  intro hmem
  have hlower : '/' ∈ lowerAscii text := List.mem_map.2 ⟨'/', hmem, by decide⟩
  have hword := List.all_eq_true.1 hall (lowerAscii text) (List.mem_append.2 h)
  rw [List.contains_iff_mem.2 hlower] at hword
  cases hword

/-- Coercion leaves a text alone, or neither it nor what comes out of it holds a slash. -/
theorem coerceText_cases (float : FloatText φ) (text : List Char) :
    coerceText float text = .text text ∨
      '/' ∉ text ∧ '/' ∉ (coerceText float text).str float := by
  have hprinted : '/' ∉ "True".toList ∧ '/' ∉ "False".toList := by decide +kernel
  unfold coerceText
  split_ifs with htrue hfalse
  · exact .inr ⟨slash_notMem_of_word (.inl htrue), hprinted.1⟩
  · exact .inr ⟨slash_notMem_of_word (.inr hfalse), hprinted.2⟩
  · cases hint : parseInt text with
    | some n =>
      refine .inr ⟨notMem_of_parseInt hint (by decide) (by decide +kernel) (by decide) (by decide),
        slash_notMem_strInt n⟩
    | none =>
      cases hfloat : float.parse text with
      | some x => exact .inr ⟨float.slash_parse hfloat, float.slash_str x⟩
      | none => exact .inl rfl

/-- A text is turned back into itself when it is so up to slashes behind it. -/
theorem rstripSlash_str_iff :
    rstripSlash ((coerceText float text).str float) = rstripSlash text ↔
      Unchanged float text := by
  rw [← str_coerceText_iff]
  rcases coerceText_cases float text with htext | ⟨hslash, hslash'⟩
  · rw [htext]
    exact iff_of_true rfl rfl
  · rw [rstripSlash_of_notMem hslash, rstripSlash_of_notMem hslash']

/-- What is taken for nothing is not a path. -/
theorem ne_of_not_truthy {path : List Char} (hpath : '/' ∈ path)
    (h : (coerceText float text).truthy float ≠ true) : path ≠ text := by
  rintro rfl
  rcases coerceText_cases float path with htext | ⟨hslash, -⟩
  · rw [htext] at h
    refine h (decide_eq_true ?_)
    rintro rfl
    cases hpath
  · exact hslash hpath

end

/-! ## The options -/

section

variable {float} {options : TransportOptions} {raw : List Char}

theorem optionOf_eq {key : List Char} (h : options.lookup key = some raw) :
    optionOf float options key = coerceText float (strip raw) := by
  rw [optionOf, h]
  rfl

/-- **An option with a path as its default** is kept exactly when it is given and unchanged. -/
theorem optionOr_eq_iff {key default : List Char} (h : options.lookup key = some raw)
    (hdefault : '/' ∈ default) :
    optionOr float options key default = strip raw ↔
      IsGiven float (strip raw) ∧ Unchanged float (strip raw) := by
  rw [optionOr, optionOf_eq h, ← truthy_coerceText_iff, ← str_coerceText_iff]
  split_ifs with htruthy
  · exact (and_iff_right htruthy).symm
  · exact iff_of_false (ne_of_not_truthy hdefault htruthy) fun hboth => htruthy hboth.1

theorem slash_mem_defaults :
    '/' ∈ defaultTokenFile.toList ∧ '/' ∈ defaultQueuePath.toList := by decide +kernel

/-- **The token** is kept exactly when it is given and unchanged, or is taken for nothing and the
token file holds the same text. -/
theorem clientToken_eq_iff {readToken : List Char → Option (List Char)}
    (h : options.lookup "token".toList = some raw) :
    clientToken float readToken options = some (strip raw) ↔
      IsGiven float (strip raw) ∧ Unchanged float (strip raw) ∨
      ¬ IsGiven float (strip raw) ∧
        readToken (clientTokenFile float options) = some (strip raw) := by
  rw [clientToken, optionOf_eq h, ← truthy_coerceText_iff, ← str_coerceText_iff]
  split_ifs with htruthy
  · rw [Option.some_inj]
    simp [htruthy]
  · simp [htruthy]

end

/-- **The text options of the transport reach their consumers unchanged** exactly when `str` writes
them as they are, and those that have a default are not taken for nothing. -/
theorem transport_text_iff (float : FloatText φ) (readToken : List Char → Option (List Char))
    (options : TransportOptions) :
    TextKept float readToken options ↔
    (∀ raw, options.lookup "server".toList = some raw → Unchanged float (strip raw)) ∧
    (∀ raw, options.lookup "token".toList = some raw →
      IsGiven float (strip raw) ∧ Unchanged float (strip raw) ∨
      ¬ IsGiven float (strip raw) ∧
        readToken (clientTokenFile float options) = some (strip raw)) ∧
    (∀ raw, options.lookup "token_file".toList = some raw →
      IsGiven float (strip raw) ∧ Unchanged float (strip raw)) ∧
    ∀ raw, options.lookup "queue_path".toList = some raw →
      IsGiven float (strip raw) ∧ Unchanged float (strip raw) := by
  obtain ⟨hfile, hqueue⟩ := slash_mem_defaults
  unfold TextKept
  refine and_congr ?_ (and_congr ?_ (and_congr ?_ ?_))
  · refine forall₂_congr fun raw hraw => ?_
    rw [clientServer, optionOf_eq hraw]
    exact rstripSlash_str_iff
  · exact forall₂_congr fun raw hraw => clientToken_eq_iff hraw
  · exact forall₂_congr fun raw hraw => optionOr_eq_iff hraw hfile
  · exact forall₂_congr fun raw hraw => optionOr_eq_iff hraw hqueue

/-- Whole numbers as floats. -/
def wholeFloats : FloatText ℤ where
  parse := parseInt
  str n := strInt n ++ ".0".toList
  truthy n := decide (n ≠ 0)
  slash_parse h := notMem_of_parseInt h (by decide) (by decide +kernel) (by decide) (by decide)
  slash_str n := by
    have hend : '/' ∉ ".0".toList := by decide +kernel
    intro hmem
    rcases List.mem_append.1 hmem with hmem | hmem
    · exact slash_notMem_strInt n hmem
    · exact hend hmem

/-- **A token with a leading zero** loses it. -/
theorem leading_zero_is_lost :
    ¬ ∀ (φ : Type) (float : FloatText φ) (readToken : List Char → Option (List Char))
      (options : TransportOptions), TextKept float readToken options := by
  intro h
  have hkept := h ℤ wholeFloats (fun _ => some []) [("token".toList, "0123".toList)]
  have htoken := hkept.2.1 "0123".toList rfl
  exact absurd htoken (by decide +kernel)

end OoAgent
