import Mathlib

/-!
# Computations that make fallible calls

A program that works on a state and makes calls to something outside: a call succeeds and
changes the state, or it fails, and with it the program.  The answers are in store as a
stream.

* `Fallible` — such programs, with `call`, `modify`, `read` and `raise`.
* `Takes` — **the rule for a program**: how many calls it makes when all of them succeed,
  what it comes to then, and what holds of the state in which it fails otherwise;
  `takes_pure`, `takes_call`, `takes_modify` and `Takes.bind` derive it along the program.
* `Aborts` — the rule for a program that fails however its calls go.
-/

/-- What a call comes to. -/
inductive Answer where
  | ok
  | error
  deriving DecidableEq

/-- From a state and the answers in store: the value, if the program returns one, the state
it ends in, and the answers it leaves. -/
def Fallible (σ β : Type) : Type := σ → Stream' Answer → Option β × σ × Stream' Answer

namespace Fallible

variable {σ β γ : Type}

instance : Monad (Fallible σ) where
  pure b := fun s answers => (some b, s, answers)
  bind m k := fun s answers =>
    match m s answers with
    | (none, s', rest) => (none, s', rest)
    | (some b, s', rest) => k b s' rest

/-- A call: what it returns and what it makes of the state, when it succeeds. -/
def call (f : σ → β × σ) : Fallible σ β := fun s answers =>
  match answers.head with
  | .ok => (some (f s).1, (f s).2, answers.tail)
  | .error => (none, s, answers.tail)

/-- A change of the state that cannot fail. -/
def modify (f : σ → σ) : Fallible σ Unit := fun s answers => (some (), f s, answers)

/-- A look at the state. -/
def read (f : σ → β) : Fallible σ β := fun s answers => (some (f s), s, answers)

/-- A failure of the program's own. -/
def raise : Fallible σ β := fun s answers => (none, s, answers)

/-! ## The rule -/

/-- The first `n` calls succeed. -/
def Succeed (answers : Stream' Answer) (n : ℕ) : Prop := ∀ i < n, answers.get i = .ok

/-- From `s` the program makes `n` calls.  When they succeed it returns `b` and leaves `s'`;
otherwise it fails in a state of which `A` holds. -/
structure Takes (A : σ → Prop) (m : Fallible σ β) (s : σ) (n : ℕ) (b : β) (s' : σ) : Prop where
  returns : ∀ answers, Succeed answers n → m s answers = (some b, s', answers.drop n)
  fails : ∀ answers, ¬ Succeed answers n → (m s answers).1 = none ∧ A (m s answers).2.1

variable {A : σ → Prop} {m : Fallible σ β} {s s' : σ} {n : ℕ} {b : β}

theorem succeed_zero (answers : Stream' Answer) : Succeed answers 0 := fun _ hi =>
  absurd hi (Nat.not_lt_zero _)

theorem succeed_one {answers : Stream' Answer} : Succeed answers 1 ↔ answers.head = .ok := by
  unfold Succeed
  simp only [Nat.lt_one_iff, forall_eq]

/-- Calls in a row succeed when the first ones do and the others do. -/
theorem succeed_add {answers : Stream' Answer} {n n' : ℕ} :
    Succeed answers (n + n') ↔ Succeed answers n ∧ Succeed (answers.drop n) n' := by
  constructor
  · intro h
    refine ⟨fun i hi => h i (by omega), fun i hi => ?_⟩
    rw [Stream'.get_drop]
    exact h (n + i) (by omega)
  · rintro ⟨hfirst, hrest⟩ i hi
    rcases Nat.lt_or_ge i n with hlt | hge
    · exact hfirst i hlt
    · have hlater := hrest (i - n) (by omega)
      rwa [Stream'.get_drop, Nat.add_sub_cancel' hge] at hlater

theorem takes_pure (b : β) (s : σ) : Takes A (pure b) s 0 b s where
  returns _ _ := rfl
  fails answers h := absurd (succeed_zero answers) h

theorem takes_modify (f : σ → σ) (s : σ) : Takes A (modify f) s 0 () (f s) where
  returns _ _ := rfl
  fails answers h := absurd (succeed_zero answers) h

theorem takes_read (f : σ → β) (s : σ) : Takes A (read f) s 0 (f s) s where
  returns _ _ := rfl
  fails answers h := absurd (succeed_zero answers) h

/-- A call that fails leaves the state as it was. -/
theorem takes_call (f : σ → β × σ) (hA : A s) : Takes A (call f) s 1 (f s).1 (f s).2 where
  returns answers h := by
    rw [succeed_one] at h
    rw [call, h]
    rfl
  fails answers h := by
    rw [succeed_one] at h
    cases hhead : answers.head with
    | ok => exact absurd hhead h
    | error =>
      rw [call, hhead]
      exact ⟨rfl, hA⟩

/-- What returns goes on from where it ended. -/
theorem bind_some {k : β → Fallible σ γ} {answers rest : Stream' Answer}
    (h : m s answers = (some b, s', rest)) : (m >>= k) s answers = k b s' rest := by
  change (match m s answers with
    | (none, s', rest) => (none, s', rest)
    | (some b, s', rest) => k b s' rest) = _
  rw [h]

/-- What fails does not go on. -/
theorem bind_none {k : β → Fallible σ γ} {answers : Stream' Answer}
    (h : (m s answers).1 = none) : (m >>= k) s answers = (none, (m s answers).2) := by
  change (match m s answers with
    | (none, s', rest) => (none, s', rest)
    | (some b, s', rest) => k b s' rest) = _
  rcases hrun : m s answers with ⟨value, state, rest⟩
  rw [hrun] at h
  obtain rfl : value = none := h
  rfl

/-- **One program after another.** -/
theorem Takes.bind {k : β → Fallible σ γ} {s'' : σ} {n' : ℕ} {c : γ}
    (hm : Takes A m s n b s') (hk : Takes A (k b) s' n' c s'') :
    Takes A (m >>= k) s (n + n') c s'' where
  returns answers h := by
    obtain ⟨hfirst, hrest⟩ := succeed_add.1 h
    rw [bind_some (hm.returns answers hfirst), hk.returns _ hrest, Stream'.drop_drop]
  fails answers h := by
    by_cases hfirst : Succeed answers n
    · have hrest : ¬ Succeed (answers.drop n) n' := fun hrest => h (succeed_add.2 ⟨hfirst, hrest⟩)
      rw [bind_some (hm.returns answers hfirst)]
      exact hk.fails _ hrest
    · obtain ⟨hnone, hA⟩ := hm.fails answers hfirst
      rw [bind_none hnone]
      exact ⟨rfl, hA⟩

/-! ## Programs that fail -/

/-- From `s` the program fails, however its calls go, in a state of which `A` holds. -/
def Aborts (A : σ → Prop) (m : Fallible σ β) (s : σ) : Prop :=
  ∀ answers, (m s answers).1 = none ∧ A (m s answers).2.1

theorem aborts_raise (hA : A s) : Aborts A (raise : Fallible σ β) s := fun _ => ⟨rfl, hA⟩

/-- Nothing behind it is reached. -/
theorem Aborts.bind {k : β → Fallible σ γ} (hm : Aborts A m s) : Aborts A (m >>= k) s := by
  intro answers
  obtain ⟨hnone, hA⟩ := hm answers
  rw [bind_none hnone]
  exact ⟨rfl, hA⟩

/-- A program that goes through, before one that fails. -/
theorem Takes.bind_aborts {k : β → Fallible σ γ} (hm : Takes A m s n b s')
    (hk : Aborts A (k b) s') : Aborts A (m >>= k) s := by
  intro answers
  by_cases hok : Succeed answers n
  · rw [bind_some (hm.returns answers hok)]
    exact hk _
  · obtain ⟨hnone, hA⟩ := hm.fails answers hok
    rw [bind_none hnone]
    exact ⟨rfl, hA⟩

/-- The rule with its count and its results rewritten. -/
theorem Takes.congr {n' : ℕ} {b' : β} {t : σ} (h : Takes A m s n b s') (hn : n = n') (hb : b = b')
    (ht : s' = t) : Takes A m s n' b' t := by
  subst hn hb ht
  exact h

end Fallible
