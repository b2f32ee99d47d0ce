import OoAgent.Transport.Drain

/-!
# Answers that cannot be read

`push` catches the `ValueError` of `response.json()` and nothing else, outside the `try`
around the request: an accepted answer whose body is nested too deeply raises
`RecursionError` through `push`, through `drain` and through `push_sink`.  Here is `push`
with that outcome, and the inner loop of `drain` over it.

* `Network` — what the network has in store, with the bodies that cannot be read.
* `Raising.push`, `Raising.deliver` — `push`, and the inner loop of `drain`.
* `Network.unreadable`, `Network.unreadableAmong` — the push, or one of so many in a row, is
  accepted with a body that cannot be read.
* `Raising.push_eq` — a push raises exactly then; otherwise it is the push of the client.
* `Raising.deliver_spec` — **everything a batch does**: it is the batch of the client, or it
  raises with part of the events of that batch behind it.
-/

namespace OoAgent

variable {α : Type}

/-- What the network has in store for the attempts to come. -/
structure Network where
  outcomes : Stream' Outcome
  /-- For each attempt: `response.json()` of its answer raises, and not a `ValueError`. -/
  bad : Stream' Bool

namespace Network

/-- One attempt later. -/
def tail (net : Network) : Network := ⟨net.outcomes.tail, net.bad.tail⟩

@[simp] theorem outcomes_tail (net : Network) : net.tail.outcomes = net.outcomes.tail := rfl

/-- What a push leaves to later requests, with the number of attempts still allowed. -/
def leftWithin : Nat → Network → Network
  | 0, net => net
  | n + 1, net => if net.outcomes.head.definitive then net.tail else leftWithin n net.tail

/-- What is left after a push. -/
def left (net : Network) : Network := net.leftWithin pushAttempts

/-- The push is accepted within so many attempts, and its body cannot be read. -/
def unreadableWithin : Nat → Network → Bool
  | 0, _ => false
  | n + 1, net =>
    match net.outcomes.head with
    | .exception => unreadableWithin n net.tail
    | .response r =>
      if r.status.accepted then net.bad.head
      else if r.status.rejected then false
      else unreadableWithin n net.tail

/-- The push is accepted, and the body of the answer cannot be read. -/
def unreadable (net : Network) : Bool := net.unreadableWithin pushAttempts

/-- One of so many pushes in a row is accepted with a body that cannot be read, before one
gets no answer. -/
def unreadableAmong : Nat → Network → Bool
  | 0, _ => false
  | n + 1, net =>
    net.unreadable || ((answer net.outcomes).isSome && unreadableAmong n net.left)

/-- No answer in store raises. -/
def Readable (net : Network) : Prop := ∀ i, net.bad.get i = false

variable {net : Network}

theorem Readable.tail (h : net.Readable) : net.tail.Readable := fun i => h (i + 1)

theorem Readable.leftWithin (h : net.Readable) (n : Nat) : (net.leftWithin n).Readable := by
  induction n generalizing net with
  | zero => exact h
  | succ n ih =>
    rw [Network.leftWithin]
    split
    · exact h.tail
    · exact ih h.tail

theorem Readable.unreadable (h : net.Readable) : net.unreadable = false := by
  have hloop : ∀ n (net : Network), net.Readable → net.unreadableWithin n = false := by
    intro n
    induction n with
    | zero => exact fun _ _ => rfl
    | succ n ih =>
      intro net h
      rw [unreadableWithin]
      split
      · exact ih _ h.tail
      · split
        · exact h 0
        · split
          · rfl
          · exact ih _ h.tail
  exact hloop _ _ h

theorem Readable.unreadableAmong (h : net.Readable) (n : Nat) : net.unreadableAmong n = false := by
  induction n generalizing net with
  | zero => rfl
  | succ n ih =>
    have hleft : net.left.Readable := h.leftWithin pushAttempts
    rw [Network.unreadableAmong, h.unreadable, ih hleft, Bool.and_false, Bool.or_false]

end Network

namespace Raising

/-! ## `push` -/

/-- What one `push` did. -/
structure Push where
  /-- The return value, `none` when an exception leaves the method. -/
  returned : Option Bool
  client : TransportClient
  tries : List Outcome
  rest : Network

/-- The loop of `push`, with the number of attempts still allowed. -/
def pushLoop : Nat → TransportClient → Network → Push
  | 0, c, net => { returned := some false, client := c, tries := [], rest := net }
  | n + 1, c, net =>
    let retry := pushLoop n c net.tail
    match net.outcomes.head with
    | .exception => { retry with tries := .exception :: retry.tries }
    | .response r =>
      if r.status.accepted then
        -- the rejection on record is cleared before the body is read
        if net.bad.head then
          { returned := none, client := { c with authStatus := none }, tries := [.response r]
            rest := net.tail }
        else
          { returned := some true, client := c.accept r, tries := [.response r], rest := net.tail }
      else if r.status.rejected then
        { returned := some true, client := c.reject r, tries := [.response r], rest := net.tail }
      else { retry with tries := .response r :: retry.tries }

/-- `TransportClient.push`. -/
def push (c : TransportClient) (net : Network) : Push := pushLoop pushAttempts c net

/-- What a push comes to, from what it would come to if the answer could be read. -/
def Push.of (p : OoAgent.Push) (c : TransportClient) (raises : Bool) (rest : Network) : Push where
  returned := if raises then none else some p.done
  client := if raises then { c with authStatus := none } else p.client
  tries := p.tries
  rest := rest

/-- **A push raises exactly when it cannot read its answer**, and otherwise is the push of the
client. -/
theorem push_eq (c : TransportClient) (net : Network) :
    push c net = .of (c.push net.outcomes) c net.unreadable net.left := by
  have hloop : ∀ n (net : Network), pushLoop n c net =
      .of (TransportClient.pushLoop n c net.outcomes) c (net.unreadableWithin n)
        (net.leftWithin n) := by
    intro n
    induction n with
    | zero => exact fun _ => rfl
    | succ n ih =>
      intro net
      rw [pushLoop, TransportClient.pushLoop, Network.unreadableWithin, Network.leftWithin]
      simp only [ih]
      cases net.outcomes.head with
      | exception => rfl
      | response r =>
        cases hacc : r.status.accepted with
        | true =>
          cases net.bad.head <;> simp [Push.of, Outcome.definitive, Status.definitive, hacc]
        | false =>
          cases hrej : r.status.rejected <;>
            simp [Push.of, Outcome.definitive, Status.definitive, hacc, hrej]
  exact hloop _ _

/-- What is left to later requests does not depend on what can be read. -/
theorem outcomes_left (c : TransportClient) (net : Network) :
    net.left.outcomes = (c.push net.outcomes).rest := by
  have hloop : ∀ n (net : Network),
      (net.leftWithin n).outcomes = (TransportClient.pushLoop n c net.outcomes).rest := by
    intro n
    induction n with
    | zero => exact fun _ => rfl
    | succ n ih =>
      intro net
      have hrest := ih net.tail
      rw [Network.leftWithin, TransportClient.pushLoop]
      cases net.outcomes.head with
      | exception => exact hrest
      | response r =>
        cases hacc : r.status.accepted <;> cases hrej : r.status.rejected <;>
          simp [Outcome.definitive, Status.definitive, hacc, hrej, hrest]
  exact hloop _ _

/-- What cannot be read is an answer. -/
theorem isSome_answer {net : Network} (h : net.unreadable = true) :
    (answer net.outcomes).isSome = true := by
  have hloop : ∀ n (net : Network), net.unreadableWithin n = true →
      (answerWithin n net.outcomes).isSome = true := by
    intro n
    induction n with
    | zero => exact fun _ h => absurd h (by simp [Network.unreadableWithin])
    | succ n ih =>
      intro net h
      have hrest := ih net.tail
      rw [Network.unreadableWithin] at h
      rw [answerWithin]
      cases hhead : net.outcomes.head with
      | exception =>
        rw [hhead] at h
        exact hrest h
      | response r =>
        rw [hhead] at h
        cases hacc : r.status.accepted <;> cases hrej : r.status.rejected <;>
          simp [Status.definitive, hacc, hrej] at h ⊢
        exact hrest h
  exact hloop _ _ h

/-! ## The inner loop of `drain` -/

/-- What the inner loop of `drain` did with one batch. -/
structure Batch (α : Type) where
  /-- The ids of the rows whose push returned `True`, in order. -/
  delivered : List Nat
  client : TransportClient
  events : List (Event α)
  rest : Network
  /-- An exception has left the loop, and the list of the ids is lost with it. -/
  raised : Bool

/-- The inner loop of `drain`. -/
def deliver : TransportClient → List (Row α) → Network → Batch α
  | c, [], net => { delivered := [], client := c, events := [], rest := net, raised := false }
  | c, row :: rows, net =>
    let p := push c net
    let posted := attempts (.queued row.id) c.token row.payload p.tries
    match p.returned with
    | some true =>
      let b := deliver p.client rows p.rest
      { b with delivered := row.id :: b.delivered, events := posted ++ b.events }
    | some false =>
      { delivered := [], client := p.client, events := posted, rest := p.rest, raised := false }
    | none =>
      { delivered := [], client := p.client, events := posted, rest := p.rest, raised := true }

/-- Everything a batch can do, next to the batch of the client. -/
inductive Delivers (rows : Nat) (net : Network) (b : OoAgent.Batch α) : Batch α → Prop
  /-- Every answer can be read: it is that batch, and what comes after it is decided by the
  network it leaves. -/
  | read {rest : Network} (outcomes : rest.outcomes = b.rest)
      (readable : net.unreadableAmong rows = false)
      (stopped : b.delivered.length < rows → ∀ m, net.unreadableAmong (rows + m) = false)
      (went : b.delivered.length = rows →
        ∀ m, net.unreadableAmong (rows + m) = rest.unreadableAmong m) :
      Delivers rows net b ⟨b.delivered, b.client, b.events, rest, false⟩
  | raised {delivered : List Nat} {client : TransportClient} {events : List (Event α)}
      {rest : Network} (unreadable : ∀ m, net.unreadableAmong (rows + m) = true)
      (before : events <+: b.events) :
      Delivers rows net b ⟨delivered, client, events, rest, true⟩

/-- A push that gets an answer and can read it, before the rest of the batch. -/
theorem Delivers.cons {rows : Nat} {net net' : Network} {b : OoAgent.Batch α} {out : Batch α}
    (h : Delivers rows net' b out)
    (hlater : ∀ m, net.unreadableAmong (rows + 1 + m) = net'.unreadableAmong (rows + m))
    (id : Nat) (posted : List (Event α)) :
    Delivers (rows + 1) net { b with delivered := id :: b.delivered, events := posted ++ b.events }
      { out with delivered := id :: out.delivered, events := posted ++ out.events } := by
  cases h with
  | read outcomes readable stopped went =>
    refine @Delivers.read α (rows + 1) net ⟨id :: b.delivered, b.client, _, b.rest⟩ _ outcomes
      ((hlater 0).trans readable) (fun h m => ?_) fun h m => ?_
    · rw [hlater]
      exact stopped (Nat.lt_of_succ_lt_succ h) m
    · rw [hlater]
      exact went (Nat.succ.inj h) m
  | raised unreadable before =>
    exact .raised (fun m => (hlater m).trans (unreadable m))
      ((List.prefix_append_right_inj posted).2 before)

/-- **Everything a batch does.** -/
theorem deliver_spec (c : TransportClient) (rows : List (Row α)) (net : Network) :
    Delivers rows.length net (OoAgent.deliver c rows net.outcomes) (deliver c rows net) := by
  induction rows generalizing c net with
  | nil =>
    refine .read rfl rfl (fun h => absurd h (Nat.lt_irrefl 0)) fun _ m => ?_
    rw [List.length_nil, Nat.zero_add]
  | cons row rows ih =>
    have hmore (m : Nat) : net.unreadableAmong ((row :: rows).length + m) =
        (net.unreadable || ((answer net.outcomes).isSome &&
          net.left.unreadableAmong (rows.length + m))) := by
      rw [List.length_cons, Nat.add_right_comm, Network.unreadableAmong]
    have hdone := c.done_push net.outcomes
    rw [deliver, push_eq]
    cases hbad : net.unreadable with
    | true =>
      refine .raised (fun m => by rw [hmore, hbad, Bool.true_or]) ?_
      rw [isSome_answer hbad] at hdone
      rw [deliver_cons_done hdone]
      exact List.prefix_append _ _
    | false =>
      cases hanswer : (answer net.outcomes).isSome with
      | false =>
        rw [hanswer] at hdone
        have hnone (m : Nat) : net.unreadableAmong ((row :: rows).length + m) = false := by
          rw [hmore, hbad, hanswer]
          rfl
        simp only [Push.of, hdone, Bool.false_eq_true, if_false]
        rw [deliver_cons_undelivered hdone]
        exact .read (outcomes_left c net) (hnone 0) (fun _ => hnone) fun h =>
          absurd h (by simp)
      | true =>
        rw [hanswer] at hdone
        have hrest := ih (c.push net.outcomes).client net.left
        rw [outcomes_left c net] at hrest
        simp only [Push.of, hdone, Bool.false_eq_true, if_false]
        rw [deliver_cons_done hdone]
        refine hrest.cons (fun m => ?_) row.id _
        rw [← List.length_cons, hmore, hbad, hanswer]
        rfl

end Raising

end OoAgent
