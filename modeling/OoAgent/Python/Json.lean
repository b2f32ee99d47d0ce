import OoAgent.Lib.Dict
import OoAgent.Lib.Json.RoundTrip
import OoAgent.Python.Digits
import OoAgent.Python.Value

/-!
# `json.dumps` and `json.loads`

Python values as JSON texts, as `json` writes and reads them by default: tuples become lists,
keys become texts, and a key that comes twice keeps its first place and its last value.

* `dumps`, `dumpsIndented`, `loads` — with what they raise.
* `canonical` — a value as it comes back; `loads_dumps` — **the round trip**.
* `redumped_iff` — **what was read back is written as before** exactly when no two keys of a
  dictionary have the same text.
-/

namespace OoAgent

open Json (Number Spelling)

/-- What `json` asks of other parts of the language. -/
structure JsonCalls where
  /-- `float(text)` of a JSON number. -/
  float : List Char → PyFloat
  /-- The text of a key that is not a string; `none` for a `TypeError`. -/
  keyText : ℕ → Option String

variable (calls : JsonCalls)

/-! ## Writing -/

/-- The text of a key. -/
def keyText : Key → Option String
  | .str s => some s
  | .other n => calls.keyText n

theorem keyText_str (s : String) : keyText calls (.str s) = some s := rfl

/-- A spelling that is well formed. -/
def number? (s : Spelling) : Option Number := if h : s.Valid then some ⟨s, h⟩ else none

/-- The parts of a printed integer. -/
def intSpelling (n : ℤ) : Spelling := ⟨decide (n < 0), Nat.toDigits 10 n.natAbs, [], none⟩

theorem valid_int (n : ℤ) : (intSpelling n).Valid := by
  refine ⟨Nat.toDigits_ne_nil, fun hzero => ?_, PyFloat.allDigits_toDigits _,
    by simp [intSpelling, Json.AllDigits], by simp [intSpelling]⟩
  show Nat.toDigits 10 n.natAbs = ['0']
  by_cases hn : n.natAbs = 0
  · rw [hn]
    rfl
  · exact absurd hzero (PyFloat.head_toDigits hn)

/-- `int.__repr__`. -/
def intNumber (n : ℤ) : Number := ⟨intSpelling n, valid_int n⟩

/-- An integer that `str` and `int` convert. -/
def convertible (n : ℤ) : Bool := decide ((Nat.toDigits 10 n.natAbs).length ≤ PyText.maxStrDigits)

mutual

/-- The JSON text of a value; `none` when `dumps` raises. -/
def toJson : Value → Option Json
  | .none => some .null
  | .bool b => some (.bool b)
  | .int n => if convertible n then some (.num (intNumber n)) else none
  | .float (.finite q) => ((PyFloat.floatSpelling q).bind number?).map Json.num
  | .float .negZero => (number? PyFloat.negZeroSpelling).map Json.num
  | .float (.inf negative) => some (.inf negative)
  | .float .nan => some .nan
  | .str s => some (.str s.toList)
  | .list items => (toJsonItems items).map Json.arr
  | .tuple items => (toJsonItems items).map Json.arr
  | .dict items => (toJsonPairs items).map Json.obj
  | .object _ => none

/-- The items of a list. -/
def toJsonItems : List Value → Option (List Json)
  | [] => some []
  | v :: vs => do
    let j ← toJson v
    let js ← toJsonItems vs
    pure (j :: js)

/-- The items of a dictionary. -/
def toJsonPairs : List (Key × Value) → Option (List (List Char × Json))
  | [] => some []
  | (k, v) :: vs => do
    let text ← keyText calls k
    let j ← toJson v
    let js ← toJsonPairs vs
    pure ((text.toList, j) :: js)

end

/-- `json.dumps(value)`. -/
def dumps (v : Value) : Option String := (toJson calls v).map fun j => String.ofList j.render

/-- `json.dumps(value, indent=indent)`. -/
def dumpsIndented (indent : ℕ) (v : Value) : Option String :=
  (toJson calls v).map fun j => String.ofList (j.renderIn (.indented indent) 0)

/-! ## Reading -/

/-- The value of a number: an integer unless it has a point or an exponent. -/
def ofNumber (n : Number) : Option Value :=
  if n.isInt then
    if n.whole.length ≤ PyText.maxStrDigits then
      some (.int ((if n.negative then -1 else 1) * Json.digitsValue n.whole))
    else none
  else some (.float (calls.float n.render))

mutual

/-- The value of a JSON text; `none` when an integer has too many digits. -/
def ofJson : Json → Option Value
  | .null => some .none
  | .bool b => some (.bool b)
  | .num n => ofNumber calls n
  | .nan => some (.float .nan)
  | .inf negative => some (.float (.inf negative))
  | .str s => some (.str (String.ofList s))
  | .arr items => (ofJsonItems items).map Value.list
  | .obj members => (ofJsonMembers members).map fun items => .dict (Dict.update [] items)

/-- The values of the items of a list. -/
def ofJsonItems : List Json → Option (List Value)
  | [] => some []
  | j :: js => do
    let v ← ofJson j
    let vs ← ofJsonItems js
    pure (v :: vs)

/-- The values of the members of an object. -/
def ofJsonMembers : List (List Char × Json) → Option (List (Key × Value))
  | [] => some []
  | (k, j) :: js => do
    let v ← ofJson j
    let vs ← ofJsonMembers js
    pure ((.str (String.ofList k), v) :: vs)

end

/-- `json.loads(text)`; `none` when it raises. -/
def loads (text : String) : Option Value := (Json.parse text.toList).bind (ofJson calls)

/-! ## A value as it comes back -/

mutual

/-- A value as it comes back. -/
def canonical : Value → Value
  | .list items => .list (canonicalItems items)
  | .tuple items => .list (canonicalItems items)
  | .dict items => .dict (Dict.update [] (canonicalPairs items))
  | v => v

/-- The items of a list as they come back. -/
def canonicalItems : List Value → List Value
  | [] => []
  | v :: vs => canonical v :: canonicalItems vs

/-- The items of a dictionary as they come back, each under the text of its key. -/
def canonicalPairs : List (Key × Value) → List (Key × Value)
  | [] => []
  | (k, v) :: vs => (.str ((keyText calls k).getD ""), canonical v) :: canonicalPairs vs

end

/-- `float` reads what `repr` writes. -/
structure ReadsRepr : Prop where
  finite : ∀ q s (h : s.Valid), PyFloat.floatSpelling q = some s →
    calls.float (Number.mk s h).render = .finite q
  negZero : calls.float PyFloat.negZeroSpelling.render = .negZero

variable {calls}

theorem ofNumber_int {n : ℤ} (h : convertible n = true) :
    ofNumber calls (intNumber n) = some (.int n) := by
  have hint : (intNumber n).isInt = true := rfl
  have hlen : (intNumber n).whole.length ≤ PyText.maxStrDigits := of_decide_eq_true h
  have hvalue : Json.digitsValue (intNumber n).whole = n.natAbs := Nat.ofDigitChars_ten_toDigits
  have hsign : (if (intNumber n).negative = true then (-1 : ℤ) else 1) * n.natAbs = n := by
    simp only [intNumber, intSpelling, decide_eq_true_eq]
    split <;> omega
  rw [ofNumber, if_pos hint, if_pos hlen, hvalue, hsign]

/-- A spelled float has a point or an exponent. -/
theorem isInt_spelled (negative : Bool) (digits : List Char) (point : ℤ) :
    (PyFloat.spelled negative digits point).isInt = false := by
  unfold PyFloat.spelled
  split
  · rfl
  · rename_i hne
    split
    · split
      · simp [Spelling.isInt, hne]
      · split
        · rename_i hpos hlt
          have hdrop : digits.drop point.toNat ≠ [] := by
            rw [Ne, List.drop_eq_nil_iff]
            omega
          simp [Spelling.isInt, List.isEmpty_eq_false_iff.2 hdrop]
        · rfl
    · simp [Spelling.isInt]

theorem isInt_floatSpelling {q : ℚ} {s : Spelling} (h : PyFloat.floatSpelling q = some s) :
    s.isInt = false := by
  simp only [PyFloat.floatSpelling, Option.map_eq_some_iff] at h
  obtain ⟨k, -, rfl⟩ := h
  exact isInt_spelled _ _ _

theorem ofNumber_float (hrepr : ReadsRepr calls) {q : ℚ} {s : Spelling}
    (h : PyFloat.floatSpelling q = some s) (hvalid : s.Valid) :
    ofNumber calls ⟨s, hvalid⟩ = some (.float (.finite q)) := by
  rw [ofNumber, if_neg (by simp [isInt_floatSpelling h]), hrepr.finite q s hvalid h]

theorem number?_eq_some {s : Spelling} {n : Number} (h : number? s = some n) :
    ∃ hvalid, n = ⟨s, hvalid⟩ := by
  unfold number? at h
  split at h
  · rename_i hvalid
    exact ⟨hvalid, (Option.some.inj h).symm⟩
  · exact absurd h (by simp)

/-! ## The round trip -/

mutual

theorem ofJson_toJson (hrepr : ReadsRepr calls) {v : Value} {j : Json}
    (h : toJson calls v = some j) : ofJson calls j = some (canonical calls v) := by
  cases v with
  | none =>
    obtain rfl := Option.some.inj h
    rfl
  | bool b =>
    obtain rfl := Option.some.inj h
    rfl
  | int n =>
    rw [toJson] at h
    split at h
    · rename_i hconvertible
      obtain rfl := Option.some.inj h
      exact ofNumber_int hconvertible
    · exact absurd h (by simp)
  | float x =>
    cases x with
    | finite q =>
      simp only [toJson, Option.map_eq_some_iff, Option.bind_eq_some_iff] at h
      obtain ⟨n, ⟨s, hs, hn⟩, rfl⟩ := h
      obtain ⟨hvalid, rfl⟩ := number?_eq_some hn
      exact ofNumber_float hrepr hs hvalid
    | negZero =>
      simp only [toJson, Option.map_eq_some_iff] at h
      obtain ⟨n, hn, rfl⟩ := h
      obtain ⟨hvalid, rfl⟩ := number?_eq_some hn
      exact congrArg (fun x => some (Value.float x)) hrepr.negZero
    | inf negative =>
      obtain rfl := Option.some.inj h
      rfl
    | nan =>
      obtain rfl := Option.some.inj h
      rfl
  | str s =>
    obtain rfl := Option.some.inj h
    rw [ofJson, String.ofList_toList]
    rfl
  | list items =>
    obtain ⟨js, hjs, rfl⟩ := Option.map_eq_some_iff.1 h
    rw [ofJson, ofJsonItems_toJsonItems hrepr hjs]
    rfl
  | tuple items =>
    obtain ⟨js, hjs, rfl⟩ := Option.map_eq_some_iff.1 h
    rw [ofJson, ofJsonItems_toJsonItems hrepr hjs]
    rfl
  | dict items =>
    obtain ⟨js, hjs, rfl⟩ := Option.map_eq_some_iff.1 h
    rw [ofJson, ofJsonMembers_toJsonPairs hrepr hjs]
    rfl
  | object id => exact absurd h (by simp [toJson])

theorem ofJsonItems_toJsonItems (hrepr : ReadsRepr calls) {vs : List Value} {js : List Json}
    (h : toJsonItems calls vs = some js) :
    ofJsonItems calls js = some (canonicalItems calls vs) := by
  cases vs with
  | nil =>
    obtain rfl := Option.some.inj h
    rfl
  | cons v vs =>
    simp only [toJsonItems, bind, pure, Option.bind_eq_some_iff, Option.some.injEq] at h
    obtain ⟨j, hj, js, hjs, rfl⟩ := h
    simp only [ofJsonItems, ofJson_toJson hrepr hj, ofJsonItems_toJsonItems hrepr hjs]
    rfl

theorem ofJsonMembers_toJsonPairs (hrepr : ReadsRepr calls) {vs : List (Key × Value)}
    {js : List (List Char × Json)} (h : toJsonPairs calls vs = some js) :
    ofJsonMembers calls js = some (canonicalPairs calls vs) := by
  cases vs with
  | nil =>
    obtain rfl := Option.some.inj h
    rfl
  | cons item vs =>
    obtain ⟨k, v⟩ := item
    simp only [toJsonPairs, bind, pure, Option.bind_eq_some_iff, Option.some.injEq] at h
    obtain ⟨text, htext, j, hj, js, hjs, rfl⟩ := h
    simp only [ofJsonMembers, ofJson_toJson hrepr hj, ofJsonMembers_toJsonPairs hrepr hjs,
      String.ofList_toList, canonicalPairs, htext]
    rfl

end

/-- The text of a value is read back as its canonical form, whatever the layout. -/
theorem loads_rendered (hrepr : ReadsRepr calls) {v : Value} {j : Json}
    (h : toJson calls v = some j) (l : Json.Layout) :
    loads calls (String.ofList (j.renderIn l 0)) = some (canonical calls v) := by
  rw [loads, String.toList_ofList, Json.parse_renderIn, Option.bind_some]
  exact ofJson_toJson hrepr h

/-- **The round trip**: what `dumps` wrote is read back as the canonical form of the value. -/
theorem loads_dumps (hrepr : ReadsRepr calls) {v : Value} {text : String}
    (h : dumps calls v = some text) : loads calls text = some (canonical calls v) := by
  obtain ⟨j, hj, rfl⟩ := Option.map_eq_some_iff.1 h
  exact loads_rendered hrepr hj _

theorem loads_dumpsIndented (hrepr : ReadsRepr calls) {v : Value} {text : String} {indent : ℕ}
    (h : dumpsIndented calls indent v = some text) :
    loads calls text = some (canonical calls v) := by
  obtain ⟨j, hj, rfl⟩ := Option.map_eq_some_iff.1 h
  exact loads_rendered hrepr hj _

/-! ## Written once more -/

variable (calls) in
mutual

/-- No two keys of a dictionary have the same text, anywhere in the value. -/
def keysApart : Value → Bool
  | .list items => keysApartItems items
  | .tuple items => keysApartItems items
  | .dict items =>
    decide ((items.map fun item => keyText calls item.1).Nodup) && keysApartPairs items
  | _ => true

/-- Nor in any item of a list. -/
def keysApartItems : List Value → Bool
  | [] => true
  | v :: vs => keysApart v && keysApartItems vs

/-- Nor in any value of a dictionary. -/
def keysApartPairs : List (Key × Value) → Bool
  | [] => true
  | (_, v) :: vs => keysApart v && keysApartPairs vs

end

/-- The text of every key is its text in the JSON object. -/
theorem keys_toJsonPairs {vs : List (Key × Value)} {js : List (List Char × Json)}
    (h : toJsonPairs calls vs = some js) :
    vs.map (fun item => keyText calls item.1) = js.map fun j => some (String.ofList j.1) := by
  induction vs generalizing js with
  | nil =>
    obtain rfl := Option.some.inj h
    rfl
  | cons item vs ih =>
    obtain ⟨k, v⟩ := item
    simp only [toJsonPairs, bind, pure, Option.bind_eq_some_iff, Option.some.injEq] at h
    obtain ⟨text, htext, j, -, js, hjs, rfl⟩ := h
    rw [List.map_cons, List.map_cons, ih hjs, htext, String.ofList_toList]

theorem length_toJsonPairs {vs : List (Key × Value)} {js : List (List Char × Json)}
    (h : toJsonPairs calls vs = some js) : js.length = vs.length := by
  have hkeys := congrArg List.length (keys_toJsonPairs h)
  simpa using hkeys.symm

/-- The keys come back as their texts. -/
theorem keys_canonicalPairs {vs : List (Key × Value)} {js : List (List Char × Json)}
    (h : toJsonPairs calls vs = some js) :
    (canonicalPairs calls vs).map Prod.fst = js.map fun j => Key.str (String.ofList j.1) := by
  induction vs generalizing js with
  | nil =>
    obtain rfl := Option.some.inj h
    rfl
  | cons item vs ih =>
    obtain ⟨k, v⟩ := item
    simp only [toJsonPairs, bind, pure, Option.bind_eq_some_iff, Option.some.injEq] at h
    obtain ⟨text, htext, j, -, js, hjs, rfl⟩ := h
    rw [canonicalPairs, List.map_cons, List.map_cons, ih hjs, htext, String.ofList_toList]
    rfl

/-- The texts of the keys are apart exactly when the keys that come back are. -/
theorem nodup_keys_iff {vs : List (Key × Value)} {js : List (List Char × Json)}
    (h : toJsonPairs calls vs = some js) :
    ((canonicalPairs calls vs).map Prod.fst).Nodup ↔
      (vs.map fun item => keyText calls item.1).Nodup := by
  have hkey : js.map (fun j => Key.str (String.ofList j.1)) =
      (js.map fun j => String.ofList j.1).map Key.str := by
    rw [List.map_map]
    rfl
  have hsome : js.map (fun j => some (String.ofList j.1)) =
      (js.map fun j => String.ofList j.1).map some := by
    rw [List.map_map]
    rfl
  rw [keys_canonicalPairs h, keys_toJsonPairs h, hkey, hsome,
    List.nodup_map_iff fun _ _ h => Key.str.inj h, List.nodup_map_iff (Option.some_injective _)]

theorem length_canonicalPairs (vs : List (Key × Value)) :
    (canonicalPairs calls vs).length = vs.length := by
  induction vs with
  | nil => rfl
  | cons item vs ih =>
    obtain ⟨k, v⟩ := item
    rw [canonicalPairs, List.length_cons, List.length_cons, ih]

mutual

/-- **The text of what came back** is the text of the value exactly when no two keys have the
same text. -/
theorem toJson_canonical_iff {v : Value} {j : Json} (h : toJson calls v = some j) :
    toJson calls (canonical calls v) = some j ↔ keysApart calls v = true := by
  cases v with
  | list items =>
    obtain ⟨js, hjs, rfl⟩ := Option.map_eq_some_iff.1 h
    rw [← show _ ↔ keysApart calls (.list items) = true from toJsonItems_canonical_iff hjs]
    show (toJsonItems calls (canonicalItems calls items)).map Json.arr = some (.arr js) ↔ _
    rw [Option.map_eq_some_iff]
    exact ⟨fun ⟨js', hjs', heq⟩ => Json.arr.inj heq ▸ hjs', fun heq => ⟨js, heq, rfl⟩⟩
  | tuple items =>
    obtain ⟨js, hjs, rfl⟩ := Option.map_eq_some_iff.1 h
    rw [← show _ ↔ keysApart calls (.tuple items) = true from toJsonItems_canonical_iff hjs]
    show (toJsonItems calls (canonicalItems calls items)).map Json.arr = some (.arr js) ↔ _
    rw [Option.map_eq_some_iff]
    exact ⟨fun ⟨js', hjs', heq⟩ => Json.arr.inj heq ▸ hjs', fun heq => ⟨js, heq, rfl⟩⟩
  | dict items =>
    obtain ⟨js, hjs, rfl⟩ := Option.map_eq_some_iff.1 h
    have hpairs := toJsonPairs_canonical_iff hjs
    have hkeys := nodup_keys_iff hjs
    show (toJsonPairs calls (Dict.update [] (canonicalPairs calls items))).map Json.obj =
      some (.obj js) ↔ (decide ((items.map fun item => keyText calls item.1).Nodup) &&
        keysApartPairs calls items) = true
    rw [Option.map_eq_some_iff, Bool.and_eq_true, decide_eq_true_eq, ← hkeys, ← hpairs]
    constructor
    · rintro ⟨js', hjs', heq⟩
      obtain rfl := Json.obj.inj heq
      -- as many members as before: no key came twice
      have hlen : (Dict.update [] (canonicalPairs calls items)).length =
          (canonicalPairs calls items).length := by
        rw [← length_toJsonPairs hjs', length_toJsonPairs hjs, length_canonicalPairs]
      have hnodup := Dict.length_update_eq_iff.1 hlen
      rw [Dict.update_of_nodup hnodup] at hjs'
      exact ⟨hnodup, hjs'⟩
    · rintro ⟨hnodup, hjs'⟩
      exact ⟨js, by rw [Dict.update_of_nodup hnodup, hjs'], rfl⟩
  | none => exact iff_of_true h rfl
  | bool b => exact iff_of_true h rfl
  | int n => exact iff_of_true h rfl
  | float x => exact iff_of_true h rfl
  | str s => exact iff_of_true h rfl
  | object id => exact iff_of_true h rfl

theorem toJsonItems_canonical_iff {vs : List Value} {js : List Json}
    (h : toJsonItems calls vs = some js) :
    toJsonItems calls (canonicalItems calls vs) = some js ↔ keysApartItems calls vs = true := by
  cases vs with
  | nil => exact iff_of_true h rfl
  | cons v vs =>
    simp only [toJsonItems, bind, pure, Option.bind_eq_some_iff, Option.some.injEq] at h
    obtain ⟨j, hj, js, hjs, rfl⟩ := h
    rw [keysApartItems, Bool.and_eq_true, ← toJson_canonical_iff hj,
      ← toJsonItems_canonical_iff hjs]
    simp only [canonicalItems, toJsonItems, bind, pure, Option.bind_eq_some_iff,
      Option.some.injEq, List.cons.injEq]
    constructor
    · rintro ⟨j', hj', js', hjs', rfl, rfl⟩
      exact ⟨hj', hjs'⟩
    · rintro ⟨hj', hjs'⟩
      exact ⟨j, hj', js, hjs', rfl, rfl⟩

theorem toJsonPairs_canonical_iff {vs : List (Key × Value)} {js : List (List Char × Json)}
    (h : toJsonPairs calls vs = some js) :
    toJsonPairs calls (canonicalPairs calls vs) = some js ↔ keysApartPairs calls vs = true := by
  cases vs with
  | nil => exact iff_of_true h rfl
  | cons item vs =>
    obtain ⟨k, v⟩ := item
    simp only [toJsonPairs, bind, pure, Option.bind_eq_some_iff, Option.some.injEq] at h
    obtain ⟨text, htext, j, hj, js, hjs, rfl⟩ := h
    rw [keysApartPairs, Bool.and_eq_true, ← toJson_canonical_iff hj,
      ← toJsonPairs_canonical_iff hjs]
    simp only [canonicalPairs, htext, Option.getD_some, toJsonPairs, keyText_str, bind, pure,
      Option.bind_some, Option.bind_eq_some_iff, Option.some.injEq, List.cons.injEq,
      Prod.mk.injEq, true_and]
    constructor
    · rintro ⟨j', hj', js', hjs', rfl, rfl⟩
      exact ⟨hj', hjs'⟩
    · rintro ⟨hj', hjs'⟩
      exact ⟨j, hj', js, hjs', rfl, rfl⟩

end

/-- **What was read back is written as before** exactly when no two keys of a dictionary have
the same text. -/
theorem redumped_iff (hrepr : ReadsRepr calls) {v : Value} {text : String}
    (h : dumps calls v = some text) :
    (loads calls text).bind (dumps calls) = some text ↔ keysApart calls v = true := by
  rw [loads_dumps hrepr h, Option.bind_some]
  obtain ⟨j, hj, rfl⟩ := Option.map_eq_some_iff.1 h
  rw [← toJson_canonical_iff hj, dumps, Option.map_eq_some_iff]
  constructor
  · rintro ⟨j', hj', heq⟩
    have hrender : j'.render = j.render := String.ofList_injective heq
    rwa [Json.render_injective hrender] at hj'
  · exact fun hj' => ⟨j, hj', rfl⟩

/-! ## Calls that read floats exactly -/

/-- `float` that reads a number exactly. -/
def exactFloat (text : List Char) : PyFloat :=
  match Json.scanNumber text with
  | some (n, _) => if n.negative ∧ n.value = 0 then .negZero else .finite n.value
  | none => .nan

/-- Calls that read floats exactly and print a key that is not a string as its number. -/
def sampleJsonCalls : JsonCalls where
  float := exactFloat
  keyText := fun n => some (toString n)

theorem readsRepr_sampleJsonCalls : ReadsRepr sampleJsonCalls := by
  have hscan (n : Number) : Json.scanNumber n.render = some (n, []) := by
    have hends : Json.EndsNumber [] := fun c hc => absurd hc (by simp)
    have hrender := Json.scanNumber_render n hends
    rwa [List.append_nil] at hrender
  constructor
  · intro q s hvalid hspelling
    have hvalue := (PyFloat.value_floatSpelling hspelling).2
    have hsign := PyFloat.negative_floatSpelling hspelling
    have hnot : ¬ (s.negative = true ∧ s.value = 0) := by
      rintro ⟨hnegative, hzero⟩
      rw [hsign, decide_eq_true_eq, ← hvalue, hzero] at hnegative
      exact lt_irrefl _ hnegative
    show exactFloat (Number.mk s hvalid).render = _
    rw [exactFloat, hscan]
    exact (if_neg hnot).trans (congrArg PyFloat.finite hvalue)
  · show exactFloat (Number.mk _ PyFloat.valid_negZeroSpelling).render = _
    rw [exactFloat, hscan]
    exact if_pos ⟨rfl, by decide +kernel⟩

end OoAgent
