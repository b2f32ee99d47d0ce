import OoAgent.Lib.Machine

/-!
# Pipelines and endings

Two ways to make machines out of machines: what one machine logs can be the input of another,
and a machine may come to an end, after which it reads nothing.

* `cascade`, `run_cascade` — **a run of the pipeline** is a run of its second machine over
  what the first one feeds it.
* `Ending`, `run_cut` — **a run that may end** is the run of a machine that never ends, whole
  or up to the step that ended it.
-/

namespace Machine

variable {σ τ ι μ ν ω : Type*}

/-! ## Pipelines -/

/-- What a machine feeds the next one: its outputs, each together with the input of the step
that logged it. -/
def fed (M : Machine σ ι μ) (feed : ι → μ → ν) (s : σ) (is : List ι) : List ν :=
  ((M.watch fun s i => (M.step s i).2.map (feed i)).run s is).2

theorem fed_cons (M : Machine σ ι μ) (feed : ι → μ → ν) (s : σ) (i : ι) (is : List ι) :
    M.fed feed s (i :: is) = (M.step s i).2.map (feed i) ++ M.fed feed (M.step s i).1 is := rfl

/-- What is fed in the second half of a run is fed from where the first half ended. -/
theorem fed_append (M : Machine σ ι μ) (feed : ι → μ → ν) (s : σ) (is js : List ι) :
    M.fed feed s (is ++ js) = M.fed feed s is ++ M.fed feed (M.run s is).1 js := by
  induction is generalizing s with
  | nil => rfl
  | cons i is ih => rw [List.cons_append, fed_cons, ih, fed_cons, run_cons, List.append_assoc]

/-- The outputs of the first machine are the inputs of the second one. -/
def cascade (M : Machine σ ι μ) (N : Machine τ ν ω) (feed : ι → μ → ν) :
    Machine (σ × τ) ι ω where
  step s i :=
    let ran := N.run s.2 ((M.step s.1 i).2.map (feed i))
    (((M.step s.1 i).1, ran.1), ran.2)

/-- **A run of the pipeline.** -/
theorem run_cascade (M : Machine σ ι μ) (N : Machine τ ν ω) (feed : ι → μ → ν) (s : σ) (t : τ)
    (is : List ι) :
    (M.cascade N feed).run (s, t) is =
      (((M.run s is).1, (N.run t (M.fed feed s is)).1), (N.run t (M.fed feed s is)).2) := by
  induction is generalizing s t with
  | nil => rfl
  | cons i is ih =>
    have hstep : (M.cascade N feed).step (s, t) i =
        (((M.step s i).1, (N.run t ((M.step s i).2.map (feed i))).1),
          (N.run t ((M.step s i).2.map (feed i))).2) := rfl
    rw [run_cons, hstep, ih, run_cons, fed_cons, N.run_append]

end Machine

/-! ## Endings -/

/-- A machine that may end: a step leads to the next state or to an end. -/
structure Ending (σ ι ε ω : Type*) where
  step : σ → ι → (σ ⊕ ε) × List ω

namespace Ending

variable {σ ι ε ω : Type*} (E : Ending σ ι ε ω)

/-- Run the machine; once it has ended it reads no more. -/
def run : σ → List ι → (σ ⊕ ε) × List ω
  | s, [] => (.inl s, [])
  | s, i :: is =>
    match E.step s i with
    | (.inl s', log) => ((run s' is).1, log ++ (run s' is).2)
    | (.inr e, log) => (.inr e, log)

@[simp] theorem run_nil (s : σ) : E.run s [] = (.inl s, []) := rfl

variable {E}

theorem run_cons_inl {s s' : σ} {i : ι} {log : List ω} (h : E.step s i = (.inl s', log))
    (is : List ι) : E.run s (i :: is) = ((E.run s' is).1, log ++ (E.run s' is).2) := by
  rw [run, h]

theorem run_cons_inr {s : σ} {e : ε} {i : ι} {log : List ω} (h : E.step s i = (.inr e, log))
    (is : List ι) : E.run s (i :: is) = (.inr e, log) := by
  rw [run, h]

/-- As long as the one has not ended, both take the same steps. -/
def Follows {τ : Type*} (E : Ending σ ι ε ω) (M : Machine τ ι ω) (f : σ → τ) : Prop :=
  ∀ s i s' log, E.step s i = (.inl s', log) → M.step (f s) i = (f s', log)

/-- How a run goes: it is the run of the other machine, or it ends in one of its steps. -/
inductive Cut {τ : Type*} (E : Ending σ ι ε ω) (M : Machine τ ι ω) (f : σ → τ) (s : σ)
    (is : List ι) : Prop where
  | whole (s' : σ) (hrun : E.run s is = (.inl s', (M.run (f s) is).2))
      (hstate : f s' = (M.run (f s) is).1)
  | ended (before after : List ι) (i : ι) (s' : σ) (e : ε) (last : List ω)
      (his : is = before ++ i :: after)
      (hbefore : E.run s before = (.inl s', (M.run (f s) before).2))
      (hstate : f s' = (M.run (f s) before).1)
      (hstep : E.step s' i = (.inr e, last))
      (hrun : E.run s is = (.inr e, (M.run (f s) before).2 ++ last))

/-- **A run that may end** is the run of a machine that never ends, whole or up to the step
that ended it. -/
theorem run_cut {τ : Type*} {M : Machine τ ι ω} {f : σ → τ} (hfollows : E.Follows M f) (s : σ)
    (is : List ι) : Cut E M f s is := by
  induction is generalizing s with
  | nil => exact .whole s rfl rfl
  | cons i is ih =>
    generalize hstep : E.step s i = out
    obtain ⟨next, log⟩ := out
    cases next with
    | inr e => exact .ended [] is i s e log rfl rfl rfl hstep (run_cons_inr hstep is)
    | inl s' =>
      have hnext := hfollows s i s' log hstep
      have hrest (js : List ι) : M.run (f s) (i :: js) =
          ((M.run (f s') js).1, log ++ (M.run (f s') js).2) := by rw [M.run_cons, hnext]
      cases ih s' with
      | whole t hrun hstate =>
        refine .whole t ?_ ?_
        · rw [run_cons_inl hstep, hrun, hrest]
        · rw [hrest, hstate]
      | ended before after j t e last his hbefore hstate hend hrun =>
        refine .ended (i :: before) after j t e last (by rw [his, List.cons_append]) ?_ ?_ hend ?_
        · rw [run_cons_inl hstep, hbefore, hrest]
        · rw [hrest, hstate]
        · rw [run_cons_inl hstep, hrun, hrest, List.append_assoc]

end Ending
