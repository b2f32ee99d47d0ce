import OoAgent.Lib.Offers
import OoAgent.Transport.Drain

/-!
# The batch size of a drain

Of its client `drain` wants nothing but the answers of `push`.  Here a client is any
party that answers, with a memory of whatever kind: the rounds over the batches, the
break at the first undelivered row and the exit test on the two lengths come to one pass
over the whole queue.

* `drainRounds` — `drain` on such a client, `none` when it needs more rounds.
* `drainRounds_flat` — **the rounds end**, in one pass over the queue.
* `drain_batch_immaterial` — what is pushed, what is left and what is returned, the same
  for every batch size.
* `drain_refines` — the drain of the transport client is one of these.
-/

namespace OoAgent

open Offers

variable {σ α : Type}

/-! ## The loops -/

/-- `client.push(payload)` for a row of the queue. -/
def onRow (push : Party σ α) : Party σ (Row α) := fun client row => push client row.payload

/-- What the loop over the rows of a batch did. -/
structure PushedRows (σ α : Type) where
  /-- `delivered`. -/
  delivered : List Nat
  /-- The rows pushed, in order, with the answers. -/
  calls : List (Row α × Bool)
  client : σ

/-- `for row_id, payload in rows`. -/
def pushRows (push : Party σ α) : σ → List (Row α) → PushedRows σ α
  | client, [] => { delivered := [], calls := [], client := client }
  | client, row :: rows =>
    let answer := push client row.payload
    if !answer.1 then { delivered := [], calls := [(row, false)], client := answer.2 }
    else
      let rest := pushRows push answer.2 rows
      { delivered := row.id :: rest.delivered
        calls := (row, true) :: rest.calls
        client := rest.client }

/-- What a drain did. -/
@[ext] structure Drained (σ α : Type) where
  queue : DiskQueue α
  client : σ
  /-- The return value. -/
  doneTotal : Nat
  calls : List (Row α × Bool)

/-- `while True`, in that many rounds at most; `none` when it takes more. -/
def drainRounds (push : Party σ α) (batch : Nat) :
    Nat → DiskQueue α → σ → Option (Drained σ α)
  | 0, _, _ => none
  | fuel + 1, queue, client =>
    let rows := queue.peek batch
    if rows.isEmpty then
      some { queue := queue, client := client, doneTotal := 0, calls := [] }
    else
      let pushed := pushRows push client rows
      let acked := queue.ack pushed.delivered
      if pushed.delivered.length < rows.length then
        some { queue := acked, client := pushed.client
               doneTotal := pushed.delivered.length, calls := pushed.calls }
      else
        (drainRounds push batch fuel acked pushed.client).map fun rest =>
          { rest with
            doneTotal := pushed.delivered.length + rest.doneTotal
            calls := pushed.calls ++ rest.calls }

/-! ## One pass -/

/-- The loop over a batch offers its rows until one is not delivered. -/
theorem pushRows_eq (push : Party σ α) (client : σ) (rows : List (Row α)) :
    pushRows push client rows =
      let r := offer (onRow push) client rows
      { delivered := (rows.take r.taken).map Row.id, calls := r.calls, client := r.state } := by
  induction rows generalizing client with
  | nil => rfl
  | cons row rows ih =>
    cases h : (onRow push client row).1 with
    | true =>
      rw [offer_cons_taken h, pushRows, if_neg (by simpa [onRow] using h), ih]
      rfl
    | false =>
      rw [offer_cons_refused h, pushRows, if_pos (by simpa [onRow] using h)]
      rfl

/-- The drain of a queue in one pass. -/
def onePass (push : Party σ α) (queue : DiskQueue α) (client : σ) : Drained σ α :=
  let r := offer (onRow push) client queue.rows
  { queue := queue.dropFront r.taken, client := r.state, doneTotal := r.taken, calls := r.calls }

section

variable {push : Party σ α} {batch : Nat} {queue : DiskQueue α} {client : σ}

/-- A round that is cut short is the pass over the whole queue. -/
theorem offer_rows_of_short
    (hshort : accepted (onRow push) client (queue.peek batch) < (queue.peek batch).length) :
    offer (onRow push) client queue.rows = offer (onRow push) client (queue.peek batch) := by
  rw [← taken_offer] at hshort
  have happ := offer_append (onRow push) client (queue.peek batch) (queue.rows.drop batch)
  rw [DiskQueue.peek, List.take_append_drop] at happ
  rw [happ]
  exact if_pos hshort

/-- A round that goes through is the start of that pass. -/
theorem offer_rows_of_full
    (hfull : ¬ accepted (onRow push) client (queue.peek batch) < (queue.peek batch).length) :
    offer (onRow push) client queue.rows =
      let r := offer (onRow push) client (queue.peek batch)
      let r' := offer (onRow push) r.state (queue.rows.drop batch)
      { calls := r.calls ++ r'.calls, taken := r.taken + r'.taken, state := r'.state } := by
  rw [← taken_offer] at hfull
  have happ := offer_append (onRow push) client (queue.peek batch) (queue.rows.drop batch)
  rw [DiskQueue.peek, List.take_append_drop] at happ
  rw [happ]
  exact if_neg hfull

end

/-- **The rounds end**: one more than there are rows will do, and they come to one pass
over the queue. -/
theorem drainRounds_flat (push : Party σ α) {batch : Nat} (hbatch : 0 < batch) {fuel : Nat}
    {queue : DiskQueue α} (hfuel : queue.len < fuel) (client : σ) :
    drainRounds push batch fuel queue client = some (onePass push queue client) := by
  induction fuel generalizing queue client with
  | zero => exact absurd hfuel (Nat.not_lt_zero _)
  | succ fuel ih =>
    rw [drainRounds]
    by_cases hempty : (queue.peek batch).isEmpty = true
    · have hnil := DiskQueue.rows_of_peek_isEmpty hbatch hempty
      simp [hempty, onePass, hnil, offer]
    · have hle := accepted_le (onRow push) client (queue.peek batch)
      have hlen : (((queue.peek batch).take
          (accepted (onRow push) client (queue.peek batch))).map Row.id).length =
          accepted (onRow push) client (queue.peek batch) := by
        rw [List.length_map, List.length_take, min_eq_left hle]
      simp only [hempty, Bool.false_eq_true, if_false, pushRows_eq, taken_offer, hlen,
        DiskQueue.ack_take_peek hle]
      by_cases hshort :
          accepted (onRow push) client (queue.peek batch) < (queue.peek batch).length
      · -- a row was not delivered: the loop ends here
        rw [if_pos hshort, onePass, offer_rows_of_short hshort, taken_offer]
      · -- the batch went through: the next round drains what is left
        have hall : accepted (onRow push) client (queue.peek batch) =
            (queue.peek batch).length := le_antisymm hle (not_lt.1 hshort)
        have hleft := (DiskQueue.len_dropFront_peek_lt hempty).trans_le (Nat.lt_succ_iff.1 hfuel)
        rw [if_neg hshort, hall, ih hleft, Option.map_some, onePass, onePass,
          offer_rows_of_full hshort, DiskQueue.rows_dropFront_peek]
        simp only [taken_offer, hall, DiskQueue.dropFront_dropFront]

/-- **The batch size is immaterial**: whatever it is, the drain comes to an end; it has
pushed the longest prefix of the queue that was delivered and at most one row more, in
order and once each; this prefix is off the queue, and its length is returned. -/
theorem drain_batch_immaterial (push : Party σ α) (queue : DiskQueue α) (client : σ) :
    let n := accepted (onRow push) client queue.rows
    ∃ d : Drained σ α,
      (∀ batch, 1 ≤ batch → ∃ rounds, ∀ fuel, rounds ≤ fuel →
        drainRounds push batch fuel queue client = some d) ∧
      d.calls = (queue.rows.zip (answers (onRow push) client queue.rows)).take (n + 1) ∧
      d.calls.map Prod.fst = queue.rows.take (n + 1) ∧
      d.calls.map Prod.snd =
        List.replicate n true ++ List.replicate (min 1 (queue.len - n)) false ∧
      d.queue.rows = queue.rows.drop n ∧ d.doneTotal = n := by
  have hcalls : (onePass push queue client).calls =
      (queue.rows.zip (answers (onRow push) client queue.rows)).take
        (accepted (onRow push) client queue.rows + 1) := by
    rw [onePass, offer_eq]
  refine ⟨onePass push queue client, fun batch hbatch => ⟨queue.len + 1, fun fuel hfuel => ?_⟩,
    hcalls, ?_, ?_, ?_, taken_offer _ _ _⟩
  · exact drainRounds_flat push hbatch hfuel client
  · rw [hcalls, List.map_take, List.map_fst_zip (length_answers _ _ _).ge]
  · rw [hcalls, List.map_take, List.map_snd_zip (length_answers _ _ _).le, take_answers]
    rfl
  · rw [onePass, DiskQueue.rows_dropFront, taken_offer]

/-! ## The transport client -/

/-- The transport client with the outcomes the network has in store for it. -/
def clientPush : Party (TransportClient × Stream' Outcome) α := fun c _ =>
  ((c.1.push c.2).done, ((c.1.push c.2).client, (c.1.push c.2).rest))

/-- The loop over a batch is the one of the transport client. -/
theorem deliver_eq_pushRows (c : TransportClient) (rows : List (Row α)) (http : Stream' Outcome) :
    (deliver c rows http).delivered = (pushRows clientPush (c, http) rows).delivered ∧
      ((deliver c rows http).client, (deliver c rows http).rest) =
        (pushRows clientPush (c, http) rows).client := by
  induction rows generalizing c http with
  | nil => exact ⟨rfl, rfl⟩
  | cons row rows ih =>
    cases hdone : (c.push http).done with
    | true =>
      rw [deliver_cons_done hdone, pushRows, if_neg (by simp [clientPush, hdone])]
      exact ⟨congrArg _ (ih _ _).1, (ih _ _).2⟩
    | false =>
      rw [deliver_cons_undelivered hdone, pushRows, if_pos (by simp [clientPush, hdone])]
      exact ⟨rfl, rfl⟩

/-- **The drain of the transport client** is the drain of a client that answers. -/
theorem drain_refines {batch : Nat} (hbatch : 0 < batch) (queue : DiskQueue α)
    (c : TransportClient) (http : Stream' Outcome) :
    let d := drain batch queue c http
    let d' := onePass clientPush queue (c, http)
    d.queue = d'.queue ∧ (d.client, d.rest) = d'.client ∧ d.sent = d'.doneTotal := by
  obtain ⟨hqueue, hclient, hsent, hrest, -⟩ := drain_flat hbatch queue c http
  obtain ⟨hdelivered, hstate⟩ := deliver_eq_pushRows c queue.rows http
  rw [pushRows_eq] at hdelivered hstate
  have hlen : (deliver c queue.rows http).delivered.length =
      (offer (onRow clientPush) (c, http) queue.rows).taken := by
    rw [hdelivered, List.length_map, List.length_take, taken_offer,
      min_eq_left (accepted_le _ _ _)]
  refine ⟨?_, ?_, ?_⟩
  · rw [hqueue, hlen, onePass]
  · rw [hclient, hrest, hstate, onePass]
  · rw [hsent, hlen, onePass]

end OoAgent
