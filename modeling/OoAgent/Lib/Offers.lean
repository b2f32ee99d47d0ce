import Mathlib

/-!
# Offers until the first refusal

Things are offered one after the other to a party that has a state, takes some of them and
refuses others; the first refusal ends the round.

* `answers` — the answers to all the offers, were none of them to end the round.
* `offer` — the round; `offer_eq` — **it is read off the answers**: everything before the
  first refusal is taken, and one offer more is made.
* `offer_append` — a round over two stretches is a round over the first, and goes on with
  the second if nothing of the first was refused.
-/

namespace Offers

variable {σ α : Type}

/-- A party: what it says to an offer, and its state afterwards. -/
abbrev Party (σ α : Type) : Type := σ → α → Bool × σ

/-- The answers to all the offers. -/
def answers (p : Party σ α) : σ → List α → List Bool
  | _, [] => []
  | s, x :: xs => (p s x).1 :: answers p (p s x).2 xs

/-- The number of offers before the first refusal. -/
def accepted (p : Party σ α) (s : σ) (xs : List α) : ℕ := ((answers p s xs).takeWhile id).length

/-- The state after that many offers. -/
def stateAfter (p : Party σ α) (s : σ) (xs : List α) : σ := xs.foldl (fun s x => (p s x).2) s

/-- What a round came to. -/
@[ext] structure Round (σ α : Type) where
  /-- The offers made, in order, with their answers. -/
  calls : List (α × Bool)
  taken : ℕ
  state : σ

/-- The round: offers are made until one is refused. -/
def offer (p : Party σ α) : σ → List α → Round σ α
  | s, [] => { calls := [], taken := 0, state := s }
  | s, x :: xs =>
    if (p s x).1 then
      let rest := offer p (p s x).2 xs
      { calls := (x, true) :: rest.calls, taken := rest.taken + 1, state := rest.state }
    else { calls := [(x, false)], taken := 0, state := (p s x).2 }

variable {p : Party σ α} {s : σ} {x : α} {xs ys : List α}

@[simp] theorem length_answers (p : Party σ α) (s : σ) (xs : List α) :
    (answers p s xs).length = xs.length := by
  induction xs generalizing s with
  | nil => rfl
  | cons x xs ih => simp [answers, ih]

theorem accepted_le (p : Party σ α) (s : σ) (xs : List α) : accepted p s xs ≤ xs.length := by
  rw [← length_answers p s xs]
  exact (List.takeWhile_prefix id).length_le

theorem accepted_cons_taken (h : (p s x).1 = true) :
    accepted p s (x :: xs) = accepted p (p s x).2 xs + 1 := by
  simp [accepted, answers, h]

theorem accepted_cons_refused (h : (p s x).1 = false) : accepted p s (x :: xs) = 0 := by
  simp [accepted, answers, h]

/-- The answers up to the first refusal. -/
theorem take_answers (p : Party σ α) (s : σ) (xs : List α) :
    (answers p s xs).take (accepted p s xs + 1) =
      List.replicate (accepted p s xs) true ++
        List.replicate (min 1 (xs.length - accepted p s xs)) false := by
  induction xs generalizing s with
  | nil => rfl
  | cons x xs ih =>
    cases h : (p s x).1 with
    | true =>
      rw [accepted_cons_taken h, answers, List.take_succ_cons, ih, h, List.replicate_succ,
        List.length_cons, Nat.add_sub_add_right, List.cons_append]
    | false => simp [accepted_cons_refused h, answers, h]

theorem offer_cons_taken (h : (p s x).1 = true) :
    offer p s (x :: xs) =
      let rest := offer p (p s x).2 xs
      { calls := (x, true) :: rest.calls, taken := rest.taken + 1, state := rest.state } := by
  rw [offer, if_pos h]

theorem offer_cons_refused (h : (p s x).1 = false) :
    offer p s (x :: xs) = { calls := [(x, false)], taken := 0, state := (p s x).2 } := by
  rw [offer, if_neg (by simp [h])]

/-- **A round is read off the answers**: everything before the first refusal is taken, and
at most one offer more is made. -/
theorem offer_eq (p : Party σ α) (s : σ) (xs : List α) :
    offer p s xs =
      { calls := (xs.zip (answers p s xs)).take (accepted p s xs + 1)
        taken := accepted p s xs
        state := stateAfter p s (xs.take (accepted p s xs + 1)) } := by
  induction xs generalizing s with
  | nil => rfl
  | cons x xs ih =>
    cases h : (p s x).1 with
    | true =>
      rw [offer_cons_taken h, accepted_cons_taken h, ih]
      simp [answers, stateAfter, h]
    | false =>
      rw [offer_cons_refused h, accepted_cons_refused h]
      simp [answers, stateAfter, h]

theorem taken_offer (p : Party σ α) (s : σ) (xs : List α) :
    (offer p s xs).taken = accepted p s xs := by rw [offer_eq]

/-- **Two stretches in a row**: the second one is only reached when nothing of the first one
was refused. -/
theorem offer_append (p : Party σ α) (s : σ) (xs ys : List α) :
    offer p s (xs ++ ys) =
      let r := offer p s xs
      if r.taken < xs.length then r
      else
        let r' := offer p r.state ys
        { calls := r.calls ++ r'.calls, taken := r.taken + r'.taken, state := r'.state } := by
  induction xs generalizing s with
  | nil => simp [offer]
  | cons x xs ih =>
    rw [List.cons_append]
    cases h : (p s x).1 with
    | true =>
      rw [offer_cons_taken h, offer_cons_taken h]
      simp only [ih]
      by_cases hlt : (offer p (p s x).2 xs).taken < xs.length
      · simp [hlt]
      · simp [hlt, Nat.add_right_comm]
    | false =>
      rw [offer_cons_refused h, offer_cons_refused h]
      simp

end Offers
