import Mathlib

/-!
# Machines that log what they do

A `Machine` reads one input at a time, keeps a state and appends outputs to a
log.  This file is the induction kit for such machines; it knows nothing about
any particular one.

* `run` — a whole run: the final state together with everything it logged;
  `run_append` and `run_concat` cut a run in two.
* `run_getElem?` — the outputs of a machine that logs one for each input.
* `Along` — a condition on the state before a step and on the input of that
  step, asked of every step of a run; `along_append` and `along_iff` say where
  in the run it is asked.
* `isSome_run_iff` — **the survival rule**: a machine that can fail is still there after a run
  exactly when no step of it meets what makes one fail.
* `run_invariant` — **the invariant rule**: what the first state satisfies with
  an empty log, and every step of the run preserves, holds at the end of it.
* `run_simulates` — **the simulation rule**: an abstraction that commutes with every
  step commutes with every run.
* `run_split`, `run_outputs` — **the output rule**: every output of a run was
  logged by one of its steps, in a state the invariant speaks about.
* `watch` — the same steps with another log, for what an observer writes down.
-/

/-- A machine with inputs `ι`, states `σ` and logged outputs `ω`. -/
structure Machine (σ ι ω : Type*) where
  /-- One step: the next state and what the step logs. -/
  step : σ → ι → σ × List ω

namespace Machine

variable {σ ι ω : Type*} (M : Machine σ ι ω)

/-- Run the machine over a list of inputs, collecting the log. -/
def run : σ → List ι → σ × List ω
  | s, [] => (s, [])
  | s, i :: is => ((run (M.step s i).1 is).1, (M.step s i).2 ++ (run (M.step s i).1 is).2)

@[simp] theorem run_nil (s : σ) : M.run s [] = (s, []) := rfl

theorem run_cons (s : σ) (i : ι) (is : List ι) :
    M.run s (i :: is) =
      ((M.run (M.step s i).1 is).1, (M.step s i).2 ++ (M.run (M.step s i).1 is).2) := rfl

@[simp] theorem run_singleton (s : σ) (i : ι) : M.run s [i] = M.step s i := by
  simp [run_cons]

/-- A run can be cut anywhere: the second half starts where the first one ended. -/
theorem run_append (s : σ) (is js : List ι) :
    M.run s (is ++ js) =
      ((M.run (M.run s is).1 js).1, (M.run s is).2 ++ (M.run (M.run s is).1 js).2) := by
  induction is generalizing s with
  | nil => simp
  | cons i is ih => rw [List.cons_append, run_cons, ih, run_cons, List.append_assoc]

/-- The last step of a run, seen from the state the rest of it reached. -/
theorem run_concat (s : σ) (is : List ι) (i : ι) :
    M.run s (is ++ [i]) =
      ((M.step (M.run s is).1 i).1, (M.run s is).2 ++ (M.step (M.run s is).1 i).2) := by
  rw [run_append, run_singleton]

/-- **One output for each input**: that of its own step, in the state the inputs before it led
to. -/
theorem run_getElem? {f : σ → ι → ω} (hstep : ∀ s i, (M.step s i).2 = [f s i]) (s : σ)
    (is : List ι) (n : ℕ) :
    (M.run s is).2[n]? = is[n]?.map (f (M.run s (is.take n)).1) := by
  induction is generalizing s n with
  | nil => rfl
  | cons i is ih =>
    rw [run_cons, hstep, List.singleton_append]
    cases n with
    | zero => rfl
    | succ n => rw [List.getElem?_cons_succ, List.getElem?_cons_succ, ih, List.take_succ_cons,
        run_cons]

/-! ## Conditions along a run -/

/-- Every step of the run from `s` over the inputs meets `C`, which may look at
the state before the step and at its input. -/
def Along (C : σ → ι → Prop) : σ → List ι → Prop
  | _, [] => True
  | s, i :: is => C s i ∧ Along C (M.step s i).1 is

variable {C : σ → ι → Prop}

@[simp] theorem along_nil (s : σ) : M.Along C s [] := trivial

@[simp] theorem along_cons (s : σ) (i : ι) (is : List ι) :
    M.Along C s (i :: is) ↔ C s i ∧ M.Along C (M.step s i).1 is := Iff.rfl

theorem along_append (s : σ) (is js : List ι) :
    M.Along C s (is ++ js) ↔ M.Along C s is ∧ M.Along C (M.run s is).1 js := by
  induction is generalizing s with
  | nil => simp
  | cons i is ih => rw [List.cons_append, along_cons, ih, along_cons, run_cons, and_assoc]

/-- The condition holds along a run exactly when it holds at every place where
the run can be cut before a step. -/
theorem along_iff (s : σ) (is : List ι) :
    M.Along C s is ↔ ∀ pre i post, is = pre ++ i :: post → C (M.run s pre).1 i := by
  constructor
  · rintro h pre i post rfl
    exact ((M.along_append s pre (i :: post)).1 h).2.1
  · intro h
    induction is generalizing s with
    | nil => trivial
    | cons i is ih =>
      refine ⟨h [] i is rfl, ih _ ?_⟩
      intro pre j post hsplit
      have hcut := h (i :: pre) j post (by rw [hsplit, List.cons_append])
      rwa [run_cons] at hcut

theorem along_mono {C D : σ → ι → Prop} (himp : ∀ s i, C s i → D s i) {s : σ} {is : List ι}
    (h : M.Along C s is) : M.Along D s is := by
  rw [along_iff] at h ⊢
  exact fun pre i post hsplit => himp _ _ (h pre i post hsplit)

theorem along_and {C D : σ → ι → Prop} {s : σ} {is : List ι} (hC : M.Along C s is)
    (hD : M.Along D s is) : M.Along (fun s i => C s i ∧ D s i) s is := by
  rw [along_iff] at hC hD ⊢
  exact fun pre i post hsplit => ⟨hC pre i post hsplit, hD pre i post hsplit⟩

/-- A condition on the inputs alone holds along every run over such inputs. -/
theorem along_of_forall {p : ι → Prop} {s : σ} {is : List ι} (h : ∀ i ∈ is, p i) :
    M.Along (fun _ i => p i) s is := by
  rw [along_iff]
  rintro pre i post rfl
  exact h i (by simp)

/-- **The survival rule.**  A machine whose state is gone once a step has failed still has one
after a run exactly when every step of the run meets the condition under which none fails. -/
theorem isSome_run_iff {σ : Type*} {M : Machine (Option σ) ι ω} {C : Option σ → ι → Prop}
    (hgone : ∀ i, M.step none i = (none, []))
    (hstep : ∀ s i, (M.step (some s) i).1.isSome = true ↔ C (some s) i) (s : σ) (is : List ι) :
    (M.run (some s) is).1.isSome = true ↔ M.Along C (some s) is := by
  have hdead (is : List ι) : M.run none is = (none, []) := by
    induction is with
    | nil => rfl
    | cons i is ih => rw [run_cons, hgone, ih]; rfl
  induction is generalizing s with
  | nil => simp
  | cons i is ih =>
    rw [run_cons, along_cons, ← hstep]
    cases (M.step (some s) i).1 with
    | none => simp [hdead]
    | some s' => simpa using ih s'

/-! ## The invariant rule -/

/-- **The invariant rule.**  An invariant of the state and the log so far that
every step meeting `C` preserves survives every run all of whose steps meet
`C`. -/
theorem run_invariant {I : σ → List ω → Prop}
    (hstep : ∀ s log i, C s i → I s log → I (M.step s i).1 (log ++ (M.step s i).2))
    {s : σ} {log : List ω} {is : List ι} (hC : M.Along C s is) (h : I s log) :
    I (M.run s is).1 (log ++ (M.run s is).2) := by
  induction is generalizing s log with
  | nil => simpa using h
  | cons i is ih =>
    obtain ⟨hi, hrest⟩ := hC
    have hnext := ih hrest (hstep s log i hi h)
    rwa [List.append_assoc] at hnext

/-- The invariant rule for an invariant that asks nothing of the inputs. -/
theorem run_invariant' {I : σ → List ω → Prop}
    (hstep : ∀ s log i, I s log → I (M.step s i).1 (log ++ (M.step s i).2))
    {s : σ} (is : List ι) (h : I s []) : I (M.run s is).1 (M.run s is).2 := by
  have hC : M.Along (fun _ _ => True) s is :=
    (M.along_iff s is).2 fun _ _ _ _ => trivial
  exact M.run_invariant (fun s log i _ => hstep s log i) hC h

/-! ## Simulation -/

/-- **The simulation rule.**  An abstraction under which every step of one machine is the
step of another makes every run of the one a run of the other. -/
theorem run_simulates {τ : Type*} {N : Machine τ ι ω} {f : σ → τ}
    (hstep : ∀ s i, N.step (f s) i = (f (M.step s i).1, (M.step s i).2)) (s : σ) (is : List ι) :
    N.run (f s) is = (f (M.run s is).1, (M.run s is).2) := by
  induction is generalizing s with
  | nil => rfl
  | cons i is ih => rw [run_cons, run_cons, hstep, ih]

/-! ## Outputs -/

/-- An element of a concatenation lies in its first part or in its second one. -/
theorem append_eq_append_cons {l m pre post : List ω} {o : ω} (h : l ++ m = pre ++ o :: post) :
    (∃ rest, l = pre ++ o :: rest) ∨ ∃ rest, pre = l ++ rest ∧ m = rest ++ o :: post := by
  rcases List.append_eq_append_iff.1 h with ⟨rest, rfl, hm⟩ | ⟨c, hl, hrest⟩
  · exact .inr ⟨rest, rfl, hm⟩
  · cases c with
    | nil => exact .inr ⟨[], by simp [hl], hrest.symm⟩
    | cons o' c =>
      obtain ⟨rfl, -⟩ := List.cons.inj hrest
      exact .inl ⟨c, hl⟩

/-- **Every output of a run was logged by one of its steps.** -/
theorem run_split {s : σ} {is : List ι} {pre post : List ω} {o : ω}
    (h : (M.run s is).2 = pre ++ o :: post) :
    ∃ before i after done rest, is = before ++ i :: after ∧
      (M.step (M.run s before).1 i).2 = done ++ o :: rest ∧
      pre = (M.run s before).2 ++ done := by
  induction is generalizing s pre with
  | nil => exact absurd h (by simp)
  | cons i is ih =>
    rw [run_cons] at h
    rcases append_eq_append_cons h with ⟨rest, hstep⟩ | ⟨pre', rfl, hlater⟩
    · exact ⟨[], i, is, pre, rest, rfl, hstep, rfl⟩
    · obtain ⟨before, j, after, done, rest, rfl, hlog, rfl⟩ := ih hlater
      refine ⟨i :: before, j, after, done, rest, rfl, hlog, ?_⟩
      rw [run_cons, List.append_assoc]

/-- **The output rule.**  What every step logs in a state the invariant allows, given
the log before it, holds of every output of a run. -/
theorem run_outputs {I : σ → List ω → Prop} {P : List ω → ω → Prop}
    (hstep : ∀ s log i, I s log → I (M.step s i).1 (log ++ (M.step s i).2))
    (hout : ∀ s log i done o rest, I s log → (M.step s i).2 = done ++ o :: rest →
      P (log ++ done) o)
    {s : σ} {is : List ι} (h : I s []) {pre post : List ω} {o : ω}
    (hlog : (M.run s is).2 = pre ++ o :: post) : P pre o := by
  obtain ⟨before, i, after, done, rest, rfl, hi, rfl⟩ := M.run_split hlog
  exact hout _ _ i done o rest (M.run_invariant' hstep before h) hi

/-! ## Observers -/

/-- The machine that takes the same steps and logs what an observer writes down. -/
def watch {ω' : Type*} (f : σ → ι → List ω') : Machine σ ι ω' where
  step s i := ((M.step s i).1, f s i)

@[simp] theorem watch_step {ω' : Type*} (f : σ → ι → List ω') (s : σ) (i : ι) :
    (M.watch f).step s i = ((M.step s i).1, f s i) := rfl

/-- Watching a run does not disturb it. -/
theorem watch_run_fst {ω' : Type*} (f : σ → ι → List ω') (s : σ) (is : List ι) :
    ((M.watch f).run s is).1 = (M.run s is).1 := by
  induction is generalizing s with
  | nil => rfl
  | cons i is ih => rw [run_cons, run_cons, watch_step]; exact ih _

end Machine
