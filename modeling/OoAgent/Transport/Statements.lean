import OoAgent.Lib.Fallible
import OoAgent.Transport.Raising

/-!
# The queue on a database that fails

The methods of `DiskQueue` and the loop of `drain` once more, call by call: every call of
`sqlite3` may raise, and then the method does, and so does a push that cannot read its
answer.  Nothing in them catches it.

* `answeredOf` — how many rows a drain delivers, from what the network has in store.
* `Connection` — what the connection sees, and what it has committed.
* `Statements.push`, `Statements.ack`, `Statements.drain` — the methods as programs of
  calls.
* `takes_push`, `takes_drain` — **how many calls they make**, that they do what they do on
  a database that never fails, and what a method that raises leaves in the file and the log.
* `aborts_drain` — a drain that meets an answer it cannot read raises.
-/

namespace OoAgent

open Fallible

variable {α : Type}

/-! ## What a drain delivers -/

/-- The outcomes a push leaves to later requests, of those in store. -/
def leftWithin : Nat → Stream' Outcome → Stream' Outcome
  | 0, http => http
  | n + 1, http => if http.head.definitive then http.tail else leftWithin n http.tail

/-- The outcomes left after a push. -/
def leftAfter (http : Stream' Outcome) : Stream' Outcome := leftWithin pushAttempts http

/-- How many pushes in a row get an answer, of so many. -/
def answeredOf : Nat → Stream' Outcome → Nat
  | 0, _ => 0
  | n + 1, http => if (answer http).isSome then answeredOf n (leftAfter http) + 1 else 0

theorem rest_push (c : TransportClient) (http : Stream' Outcome) :
    (c.push http).rest = leftAfter http := by
  have hloop : ∀ n (http : Stream' Outcome),
      (TransportClient.pushLoop n c http).rest = leftWithin n http := by
    intro n
    induction n with
    | zero => exact fun _ => rfl
    | succ n ih =>
      intro http
      rw [TransportClient.pushLoop, leftWithin]
      cases http.head with
      | exception => exact ih _
      | response r =>
        cases hacc : r.status.accepted <;> cases hrej : r.status.rejected <;>
          simp [Outcome.definitive, Status.definitive, hacc, hrej, ih]
  exact hloop _ _

/-- What a batch delivers is decided by the network alone. -/
theorem length_delivered (c : TransportClient) (rows : List (Row α)) (http : Stream' Outcome) :
    (deliver c rows http).delivered.length = answeredOf rows.length http := by
  induction rows generalizing c http with
  | nil => rfl
  | cons row rows ih =>
    rw [List.length_cons, answeredOf, ← c.done_push http, ← rest_push c http]
    cases hdone : (c.push http).done with
    | true =>
      rw [deliver_cons_done hdone, if_pos rfl, ← ih]
      rfl
    | false =>
      rw [deliver_cons_undelivered hdone]
      rfl

/-- A drain takes off the queue what the network answers. -/
theorem sent_drain (q : DiskQueue α) (c : TransportClient) (http : Stream' Outcome) :
    (drain drainBatch q c http).sent = answeredOf q.len http := by
  obtain ⟨-, -, hsent, -⟩ := drain_flat (by decide : 0 < drainBatch) q c http
  rw [hsent, length_delivered]
  rfl

/-! ## The connection -/

/-- A connection to the queue database, with the log of the agent that uses it. -/
structure Connection (α : Type) where
  /-- The table the connection sees, open transaction included. -/
  view : DiskQueue α
  /-- The table in the file: what was committed last. -/
  file : DiskQueue α
  log : List (Event α)

namespace Statements

/-! ## Calls -/

/-- A statement that writes. -/
def statement (f : DiskQueue α → DiskQueue α) : Fallible (Connection α) Unit :=
  call fun c => ((), { c with view := f c.view })

/-- A `SELECT`. -/
def query {β : Type} (f : DiskQueue α → β) : Fallible (Connection α) β :=
  call fun c => (f c.view, c)

/-- `self._db.commit()`. -/
def commit : Fallible (Connection α) Unit := call fun c => ((), { c with file := c.view })

/-- What the agent logs in between. -/
def emit (events : List (Event α)) : Fallible (Connection α) Unit :=
  modify fun c => { c with log := c.log ++ events }

/-! ## Methods -/

/-- `_trim`. -/
def trim (now : ℚ) : Fallible (Connection α) Unit := do
  statement fun q => q.delete (q.isAged now)
  let excess ← query DiskQueue.excess
  if 0 < excess then statement fun q => q.deleteIds ((q.peek excess).map Row.id)

/-- `push`. -/
def push [Payload α] (payload : α) (insertedAt trimmedAt : ℚ) : Fallible (Connection α) Unit := do
  statement fun q => q.inserted payload insertedAt
  trim trimmedAt
  commit

/-- `ack`. -/
def ack (rowIds : List Nat) : Fallible (Connection α) Unit :=
  if rowIds.isEmpty then pure ()
  else do
    statement fun q => q.deleteIds rowIds
    commit
    emit (ackEvents rowIds)

/-- What the rounds of `drain` hand on: the client, and the payloads taken off the queue. -/
abbrev Handed : Type := TransportClient × Nat

/-- The body of the `while True` loop of `drain` on the rows it has peeked; `again` is the
next round. -/
def drainRound (again : TransportClient → Network → Fallible (Connection α) Handed)
    (c : TransportClient) (net : Network) (rows : List (Row α)) :
    Fallible (Connection α) Handed :=
  if rows.isEmpty then pure (c, 0)
  else
    let b := Raising.deliver c rows net
    do
      emit b.events
      -- what was delivered is not acknowledged then
      if b.raised then raise
      else
        ack b.delivered
        if b.delivered.length < rows.length then pure (b.client, b.delivered.length)
        else
          let (client, sent) ← again b.client b.rest
          pure (client, b.delivered.length + sent)

/-- The `while True` loop of `drain`, cut off after `fuel` rounds. -/
def drainLoop : Nat → TransportClient → Network → Fallible (Connection α) Handed
  | 0, c, _ => pure (c, 0)
  | fuel + 1, c, net => do
    let rows ← query fun q => q.peek drainBatch
    drainRound (drainLoop fuel) c net rows

/-- `drain`. -/
def drain (c : TransportClient) (net : Network) : Fallible (Connection α) Handed := do
  -- the bound of the loop is no call: every round but the last takes rows off the queue
  let rows ← read fun conn => conn.view.len
  drainLoop (rows + 1) c net

/-! ## How many calls -/

/-- The calls of `push`: insert, two statements of `_trim`, a third one when the queue is too
long, commit. -/
def pushCalls [Payload α] (q : DiskQueue α) (payload : α) (insertedAt trimmedAt : ℚ) : Nat :=
  let q' := q.inserted payload insertedAt
  if 0 < (q'.delete (q'.isAged trimmedAt)).excess then 5 else 4

/-- The calls of `ack`. -/
def ackCalls (delivered : Nat) : Nat := if delivered = 0 then 0 else 2

/-- The calls of `drain` on that many rows of which that many are delivered: three for every
batch, less those of an empty acknowledgement, and a last look at an empty queue. -/
def drainCalls (rows delivered : Nat) : Nat :=
  if delivered < rows then 3 * (delivered / drainBatch) + 1 + ackCalls (delivered % drainBatch)
  else 3 * ((rows + (drainBatch - 1)) / drainBatch) + 1

/-! ## The methods are those of the queue -/

/-- A condition on what outlasts the connection: the file, and what is in the log. -/
def Outlasts (P : DiskQueue α → List (Event α) → Prop) (c : Connection α) : Prop := P c.file c.log

variable {P : DiskQueue α → List (Event α) → Prop}

theorem takes_statement (f : DiskQueue α → DiskQueue α) (c : Connection α) (hP : P c.file c.log) :
    Takes (Outlasts P) (statement f) c 1 () { c with view := f c.view } :=
  takes_call _ hP

theorem takes_query {β : Type} (f : DiskQueue α → β) (c : Connection α) (hP : P c.file c.log) :
    Takes (Outlasts P) (query f) c 1 (f c.view) c :=
  takes_call _ hP

theorem takes_commit (c : Connection α) (hP : P c.file c.log) :
    Takes (Outlasts P) commit c 1 () { c with file := c.view } :=
  takes_call _ hP

theorem takes_emit (events : List (Event α)) (c : Connection α) :
    Takes (Outlasts P) (emit events) c 0 () { c with log := c.log ++ events } :=
  takes_modify _ c

theorem takes_trim (now : ℚ) (c : Connection α) (hP : P c.file c.log) :
    Takes (Outlasts P) (trim now) c
      (if 0 < (c.view.delete (c.view.isAged now)).excess then 3 else 2) ()
      { c with view := c.view.trim now } := by
  let young := c.view.delete (c.view.isAged now)
  have hcut : Takes (Outlasts P)
      (if 0 < young.excess then
        statement fun q => q.deleteIds ((q.peek young.excess).map Row.id)
      else pure ()) { c with view := young } (if 0 < young.excess then 1 else 0) ()
      { c with view := c.view.trim now } := by
    by_cases hexcess : 0 < young.excess
    · rw [if_pos hexcess, if_pos hexcess, DiskQueue.trim, if_pos hexcess]
      exact takes_statement _ _ hP
    · rw [if_neg hexcess, if_neg hexcess, DiskQueue.trim, if_neg hexcess]
      exact takes_pure _ _
  have hdelete := takes_statement (fun q => q.delete (q.isAged now)) c hP
  have hcount := takes_query DiskQueue.excess { c with view := young } hP
  refine (hdelete.bind (hcount.bind hcut)).congr ?_ rfl rfl
  change 1 + (1 + if 0 < young.excess then 1 else 0) = if 0 < young.excess then 3 else 2
  split <;> rfl

/-- **A push** is that of the queue, and is committed with its last call. -/
theorem takes_push [Payload α] (payload : α) (insertedAt trimmedAt : ℚ) (c : Connection α)
    (hP : P c.file c.log) :
    Takes (Outlasts P) (push payload insertedAt trimmedAt) c
      (pushCalls c.view payload insertedAt trimmedAt) ()
      { c with
        view := c.view.push payload insertedAt trimmedAt
        file := c.view.push payload insertedAt trimmedAt } := by
  let c' : Connection α := { c with view := c.view.inserted payload insertedAt }
  have hinsert := takes_statement (fun q => q.inserted payload insertedAt) c hP
  have htrim := takes_trim trimmedAt c' hP
  have hcommit := takes_commit { c' with view := c'.view.trim trimmedAt } hP
  refine (hinsert.bind (htrim.bind hcommit)).congr ?_ rfl rfl
  simp only [pushCalls]
  split <;> rfl

/-- **An acknowledgement** is that of the queue. -/
theorem takes_ack (ids : List Nat) (c : Connection α) (hP : P c.file c.log)
    (hfile : c.view = c.file) :
    Takes (Outlasts P) (ack ids) c (ackCalls ids.length) ()
      { view := c.view.ack ids, file := c.view.ack ids, log := c.log ++ ackEvents ids } := by
  cases ids with
  | nil =>
    obtain ⟨view, file, log⟩ := c
    obtain rfl : view = file := hfile
    exact (takes_pure () _).congr rfl rfl (by simp [ackEvents, DiskQueue.ack])
  | cons i is =>
    let c' : Connection α := { c with view := c.view.deleteIds (i :: is) }
    have hdelete := takes_statement (fun q => q.deleteIds (i :: is)) c hP
    have hcommit := takes_commit c' hP
    have hlog := takes_emit (P := P) (ackEvents (i :: is)) { c' with file := c'.view }
    have htail := hcommit.bind (k := fun _ => emit (ackEvents (i :: is))) hlog
    exact hdelete.bind (k := fun _ => commit >>= fun _ => emit (ackEvents (i :: is))) htail

/-! ## A drain -/

/-- What one more batch adds to a drain that goes on after it. -/
theorem drainCalls_full {rows batch sent : Nat} (hbatch : batch = min drainBatch rows)
    (hpos : 0 < batch) (hsent : sent ≤ rows - batch) :
    drainCalls rows (batch + sent) = 1 + (2 + drainCalls (rows - batch) sent) := by
  have hsize : drainBatch = 50 := rfl
  unfold drainCalls ackCalls
  simp only [hsize] at hbatch ⊢
  split_ifs <;> omega

/-- What the last batch of a drain costs when a push in it gets no answer. -/
theorem drainCalls_last {rows sent : Nat} (hsent : sent < min drainBatch rows) :
    drainCalls rows sent = 1 + ackCalls sent := by
  have hsize : drainBatch = 50 := rfl
  unfold drainCalls
  simp only [hsize] at hsent ⊢
  rw [if_pos (by omega), Nat.div_eq_of_lt (by omega), Nat.mod_eq_of_lt (by omega)]

section Round

variable {again : TransportClient → Network → Fallible (Connection α) Handed}
  {c : TransportClient} {net : Network} {rows : List (Row α)} {q : DiskQueue α}
  {log : List (Event α)} {b : Raising.Batch α}

/-- A round on rows, with its batch named. -/
theorem drainRound_rows (hb : Raising.deliver c rows net = b) (hrows : ¬ rows.isEmpty = true) :
    drainRound again c net rows = emit b.events >>= fun _ =>
      if b.raised = true then raise
      else ack b.delivered >>= fun _ =>
        if b.delivered.length < rows.length then pure (b.client, b.delivered.length)
        else again b.client b.rest >>= fun handed => match handed with
          | (client, sent) => pure (client, b.delivered.length + sent) := by
  subst hb
  rw [drainRound, if_neg hrows]

/-- A batch and its acknowledgement, before anything else. -/
theorem takes_batch {β : Type} {k : Fallible (Connection α) β} {n : ℕ} {r : β}
    {end_ : Connection α} (hP : P q (log ++ b.events))
    (hk : Takes (Outlasts P) k
      ⟨q.ack b.delivered, q.ack b.delivered, log ++ b.events ++ ackEvents b.delivered⟩ n r end_) :
    Takes (Outlasts P) (emit b.events >>= fun _ => ack b.delivered >>= fun _ => k) ⟨q, q, log⟩
      (ackCalls b.delivered.length + n) r end_ := by
  have hack := takes_ack b.delivered ⟨q, q, log ++ b.events⟩ hP rfl
  have htail := hack.bind (k := fun _ => k) hk
  have hemit := takes_emit (P := P) b.events ⟨q, q, log⟩
  have hround := hemit.bind (k := fun _ => ack b.delivered >>= fun _ => k) htail
  exact hround.congr (Nat.zero_add _) rfl rfl

/-- A batch and its acknowledgement, before something that raises. -/
theorem aborts_batch {β : Type} {k : Fallible (Connection α) β} (hP : P q (log ++ b.events))
    (hk : Aborts (Outlasts P) k
      ⟨q.ack b.delivered, q.ack b.delivered, log ++ b.events ++ ackEvents b.delivered⟩) :
    Aborts (Outlasts P) (emit b.events >>= fun _ => ack b.delivered >>= fun _ => k) ⟨q, q, log⟩ :=
  have hack := takes_ack b.delivered ⟨q, q, log ++ b.events⟩ hP rfl
  have htail := hack.bind_aborts (k := fun _ => k) hk
  (takes_emit (P := P) b.events ⟨q, q, log⟩).bind_aborts
    (k := fun _ => ack b.delivered >>= fun _ => k) htail

/-- A round that finds no rows is the last one. -/
theorem takes_round_empty (hempty : rows.isEmpty = true) (s : Connection α) :
    Takes (Outlasts P) (drainRound again c net rows) s 0 (c, 0) s := by
  rw [drainRound, if_pos hempty]
  exact takes_pure _ _

/-- A round in which a push gets no answer is the last one. -/
theorem takes_round_last (hb : Raising.deliver c rows net = b) (hrows : ¬ rows.isEmpty = true)
    (hread : b.raised = false) (hP : P q (log ++ b.events))
    (hlast : b.delivered.length < rows.length) :
    Takes (Outlasts P) (drainRound again c net rows) ⟨q, q, log⟩ (ackCalls b.delivered.length)
      (b.client, b.delivered.length)
      ⟨q.ack b.delivered, q.ack b.delivered, log ++ b.events ++ ackEvents b.delivered⟩ := by
  have hstop : Takes (Outlasts P) (pure (b.client, b.delivered.length))
      (⟨q.ack b.delivered, q.ack b.delivered, log ++ b.events ++ ackEvents b.delivered⟩ :
        Connection α) 0 _ _ := takes_pure _ _
  rw [drainRound_rows hb hrows]
  simp only [hread, Bool.false_eq_true, if_false, if_pos hlast]
  exact takes_batch hP hstop

/-- A round that goes through is followed by another one. -/
theorem takes_round_again (hb : Raising.deliver c rows net = b) (hrows : ¬ rows.isEmpty = true)
    (hread : b.raised = false) (hP : P q (log ++ b.events))
    (hfull : ¬ b.delivered.length < rows.length) {n sent : ℕ} {client : TransportClient}
    {end_ : Connection α}
    (hagain : Takes (Outlasts P) (again b.client b.rest)
      ⟨q.ack b.delivered, q.ack b.delivered, log ++ b.events ++ ackEvents b.delivered⟩ n
      (client, sent) end_) :
    Takes (Outlasts P) (drainRound again c net rows) ⟨q, q, log⟩
      (ackCalls b.delivered.length + n) (client, b.delivered.length + sent) end_ := by
  have hnext := hagain.bind (k := fun handed => match handed with
    | (client, sent) => pure (client, b.delivered.length + sent)) (takes_pure _ _)
  rw [drainRound_rows hb hrows]
  simp only [hread, Bool.false_eq_true, if_false, if_neg hfull]
  exact takes_batch hP hnext

/-- A round with an answer that cannot be read. -/
theorem aborts_round (hb : Raising.deliver c rows net = b) (hrows : ¬ rows.isEmpty = true)
    (hraised : b.raised = true) (hP : P q (log ++ b.events)) :
    Aborts (Outlasts P) (drainRound again c net rows) ⟨q, q, log⟩ := by
  have hraise : Aborts (Outlasts P) (raise : Fallible (Connection α) Handed)
      ⟨q, q, log ++ b.events⟩ := aborts_raise hP
  rw [drainRound_rows hb hrows]
  simp only [hraised, if_true]
  exact (takes_emit (P := P) b.events ⟨q, q, log⟩).bind_aborts (k := fun _ => raise) hraise

/-- A round that goes through, before one that raises. -/
theorem aborts_round_again (hb : Raising.deliver c rows net = b) (hrows : ¬ rows.isEmpty = true)
    (hread : b.raised = false) (hP : P q (log ++ b.events))
    (hfull : ¬ b.delivered.length < rows.length)
    (hagain : Aborts (Outlasts P) (again b.client b.rest)
      ⟨q.ack b.delivered, q.ack b.delivered, log ++ b.events ++ ackEvents b.delivered⟩) :
    Aborts (Outlasts P) (drainRound again c net rows) ⟨q, q, log⟩ := by
  rw [drainRound_rows hb hrows]
  simp only [hread, Bool.false_eq_true, if_false, if_neg hfull]
  exact aborts_batch hP hagain.bind

end Round

/-- The loop of `drain` takes no more payloads off the queue than there are. -/
theorem sent_drainLoop_le {fuel : Nat} {q : DiskQueue α} (c : TransportClient)
    (http : Stream' Outcome) (hfuel : q.len < fuel) :
    (OoAgent.drainLoop drainBatch fuel q c http).sent ≤ q.len := by
  obtain ⟨-, -, hsent, -⟩ := drainLoop_flat (by decide : 0 < drainBatch) fuel q c http hfuel
  rw [hsent]
  exact deliver_length_le c q.rows http

/-- What a drain may leave behind at any point, of the queue and in the log: some of the rows
it would deliver are gone, and the log holds a beginning of what it would do. -/
def Underway (P : DiskQueue α → List (Event α) → Prop) (q : DiskQueue α) (log : List (Event α))
    (d : Drain α) : Prop :=
  ∀ n ≤ d.sent, ∀ events, events <+: d.events → P (q.dropFront n) (log ++ events)

/-- Before the first round. -/
theorem Underway.start {q : DiskQueue α} {log : List (Event α)} {d : Drain α}
    (h : Underway P q log d) {events : List (Event α)} (hevents : events <+: d.events) :
    P q (log ++ events) := by
  simpa using h 0 (Nat.zero_le _) events hevents

/-- The queue and the log of a batch, on the way of a drain that goes on after it. -/
theorem Underway.next {q q' : DiskQueue α} {log : List (Event α)} {d d' : Drain α} {k : Nat}
    {events : List (Event α)} (h : Underway P q log d) (hsent : d.sent = k + d'.sent)
    (hevents : d.events = events ++ d'.events) (hq : q' = q.dropFront k) :
    Underway P q' (log ++ events) d' := by
  intro n hn later hlater
  subst hq
  rw [DiskQueue.dropFront_dropFront, List.append_assoc]
  refine h _ (by omega) _ ?_
  rw [hevents]
  exact (List.prefix_append_right_inj events).2 hlater

/-- **The loop of `drain`** is that of the queue, when every answer it gets can be read, and
raises otherwise. -/
theorem drainLoop_spec (fuel : Nat) (q : DiskQueue α) (c : TransportClient) (net : Network)
    (log : List (Event α)) (hfuel : q.len < fuel) :
    let d := OoAgent.drainLoop drainBatch fuel q c net.outcomes
    Underway P q log d →
      (net.unreadableAmong q.len = false →
        Takes (Outlasts P) (drainLoop fuel c net) ⟨q, q, log⟩ (drainCalls q.len d.sent)
          (d.client, d.sent) ⟨d.queue, d.queue, log ++ d.events⟩) ∧
      (net.unreadableAmong q.len = true →
        Aborts (Outlasts P) (drainLoop fuel c net) ⟨q, q, log⟩) := by
  induction fuel generalizing q c net log with
  | zero => exact absurd hfuel (Nat.not_lt_zero _)
  | succ fuel ih =>
    intro d hP
    have hq : P q log := by simpa using hP.start List.nil_prefix
    have hpeek := takes_query (P := P) (fun q => q.peek drainBatch) ⟨q, q, log⟩ hq
    have hlen := q.length_peek drainBatch
    have hle := deliver_length_le c (q.peek drainBatch) net.outcomes
    have hack := ack_deliver drainBatch q c net.outcomes
    have hspec := Raising.deliver_spec c (q.peek drainBatch) net
    have hd : d = OoAgent.drainLoop drainBatch (fuel + 1) q c net.outcomes := rfl
    rw [OoAgent.drainLoop] at hd
    clear_value d
    generalize hb : deliver c (q.peek drainBatch) net.outcomes = b at hle hack hspec hd
    by_cases hempty : (q.peek drainBatch).isEmpty = true
    · have hnone : q.len = 0 :=
        congrArg List.length (DiskQueue.rows_of_peek_isEmpty (by decide) hempty)
      have hround := hpeek.bind (k := drainRound (drainLoop fuel) c net)
        (takes_round_empty hempty ⟨q, q, log⟩)
      simp only [hempty, if_true] at hd
      rw [hd, hnone]
      exact ⟨fun _ => hround.congr rfl rfl (by rw [List.append_nil]), fun h => absurd h (by
        simp [Network.unreadableAmong])⟩
    · simp only [hempty, Bool.false_eq_true, if_false] at hd
      generalize hout : Raising.deliver c (q.peek drainBatch) net = out at hspec
      have hbefore : b.events <+: d.events := by
        rw [hd]
        split
        · exact List.prefix_append _ _
        · exact (List.prefix_append _ _).trans (List.prefix_append _ _)
      have hsplit : (q.peek drainBatch).length + (q.len - (q.peek drainBatch).length) = q.len := by
        omega
      cases hspec with
      | raised unreadable before =>
        have hround : Aborts (Outlasts P) (drainRound (drainLoop fuel) c net (q.peek drainBatch))
            ⟨q, q, log⟩ := aborts_round hout hempty rfl (hP.start (before.trans hbefore))
        refine ⟨fun h => ?_, fun _ =>
          hpeek.bind_aborts (k := drainRound (drainLoop fuel) c net) hround⟩
        rw [← hsplit, unreadable] at h
        exact absurd h (by simp)
      | @read rest outcomes readable stopped went =>
        have hbatch := hP.start hbefore
        by_cases hlast : b.delivered.length < (q.peek drainBatch).length
        · -- a push got no answer: this round is the last one
          have hround := hpeek.bind (k := drainRound (drainLoop fuel) c net)
            (takes_round_last hout hempty rfl hbatch hlast)
          rw [if_pos hlast] at hd
          subst hd
          refine ⟨fun _ => ?_, fun h => ?_⟩
          · rw [drainCalls_last (hlen ▸ hlast), ← List.append_assoc]
            exact hround
          · rw [← hsplit, stopped hlast] at h
            exact absurd h (by simp)
        · -- the batch went through: the next round finds what is left
          have hfull : b.delivered.length = min drainBatch q.len := by omega
          have hpos : 0 < b.delivered.length := by
            have hrows := List.length_pos_of_ne_nil (mt List.isEmpty_iff.2 hempty)
            omega
          have hleft : (q.ack b.delivered).len = q.len - b.delivered.length := by
            rw [hack, DiskQueue.len_dropFront]
          have hfewer : (q.ack b.delivered).len < fuel := by omega
          have hwent : b.delivered.length = (q.peek drainBatch).length := by omega
          have hmore : net.unreadableAmong q.len =
              rest.unreadableAmong (q.ack b.delivered).len := by
            rw [← hsplit, went hwent, hleft, hwent]
          rw [if_neg hlast, ← outcomes] at hd
          have hnext := ih (q.ack b.delivered) b.client rest
            (log ++ (b.events ++ ackEvents b.delivered)) hfewer
            (hP.next (by rw [hd]) (by rw [hd]) hack)
          have hsent := sent_drainLoop_le b.client rest.outcomes hfewer
          rw [← List.append_assoc] at hnext
          rw [hmore]
          refine ⟨fun h => ?_, fun h => ?_⟩
          · have hround := hpeek.bind (k := drainRound (drainLoop fuel) c net)
              (takes_round_again hout hempty rfl hbatch hlast (hnext.1 h))
            subst hd
            rw [drainCalls_full hfull hpos (hleft ▸ hsent), ← hleft]
            refine hround.congr ?_ rfl ?_
            · rw [ackCalls, if_neg (Nat.ne_of_gt hpos)]
            · simp only [List.append_assoc]
          · exact hpeek.bind_aborts (k := drainRound (drainLoop fuel) c net)
              (aborts_round_again hout hempty rfl hbatch hlast (hnext.2 h))

/-- **A drain** whose answers can be read is that of the queue. -/
theorem takes_drain (q : DiskQueue α) (c : TransportClient) (net : Network)
    (log : List (Event α)) (hP : Underway P q log (OoAgent.drain drainBatch q c net.outcomes))
    (hread : net.unreadableAmong q.len = false) :
    let d := OoAgent.drain drainBatch q c net.outcomes
    Takes (Outlasts P) (drain c net) ⟨q, q, log⟩
      (drainCalls q.len (answeredOf q.len net.outcomes)) (d.client, d.sent)
      ⟨d.queue, d.queue, log ++ d.events⟩ := by
  rw [← sent_drain q c net.outcomes]
  have hcount := takes_read (A := Outlasts P) (fun conn => conn.view.len) ⟨q, q, log⟩
  have hloop := (drainLoop_spec (q.len + 1) q c net log (Nat.lt_succ_self _) hP).1 hread
  have hdrain := hcount.bind (k := fun rows => drainLoop (rows + 1) c net) hloop
  exact hdrain.congr (Nat.zero_add _) rfl rfl

/-- **A drain that cannot read an answer** raises. -/
theorem aborts_drain (q : DiskQueue α) (c : TransportClient) (net : Network)
    (log : List (Event α)) (hP : Underway P q log (OoAgent.drain drainBatch q c net.outcomes))
    (hbad : net.unreadableAmong q.len = true) :
    Aborts (Outlasts P) (drain c net) ⟨q, q, log⟩ :=
  have hcount := takes_read (A := Outlasts P) (fun conn => conn.view.len) ⟨q, q, log⟩
  hcount.bind_aborts (k := fun rows => drainLoop (rows + 1) c net)
    ((drainLoop_spec (q.len + 1) q c net log (Nat.lt_succ_self _) hP).2 hbad)

end Statements

end OoAgent
