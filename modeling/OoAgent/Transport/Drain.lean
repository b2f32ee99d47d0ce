import OoAgent.Transport.Client

/-!
# What a drain does

`drain` peeks a batch, pushes its rows one by one, acknowledges the delivered
ones and goes on until a push gets no answer or the queue is empty.  The batches
do not matter to what is sent: apart from the acknowledgements in between, a
drain does exactly what its inner loop would do on the whole queue at once.

* `deliver_delivered` — what one batch delivers is a prefix of it.
* `deliver_append` — the inner loop on two batches in a row.
* `drain_flat` — **the whole drain**: the posts, the client and the return value
  are those of the inner loop on the whole queue, and the rows it delivered are
  gone from the front.
* `mem_drain` — what a drain logs.
* `endpoint_drain` — the token is what it was.
* `commits_drain` — the queue a drain hands back is the one its commits leave.
-/

namespace OoAgent

variable {α : Type}

/-! ## One batch -/

@[simp] theorem deliver_nil (c : TransportClient) (http : Stream' Outcome) :
    deliver c ([] : List (Row α)) http =
      { delivered := [], client := c, events := [], rest := http } := rfl

theorem deliver_cons_done {c : TransportClient} {http : Stream' Outcome}
    (h : (c.push http).done = true) (row : Row α) (rows : List (Row α)) :
    deliver c (row :: rows) http =
      let p := c.push http
      let b := deliver p.client rows p.rest
      { delivered := row.id :: b.delivered, client := b.client
        events := attempts (.queued row.id) c.token row.payload p.tries ++ b.events
        rest := b.rest } := by
  simp [deliver, h]

theorem deliver_cons_undelivered {c : TransportClient} {http : Stream' Outcome}
    (h : (c.push http).done = false) (row : Row α) (rows : List (Row α)) :
    deliver c (row :: rows) http =
      { delivered := [], client := (c.push http).client
        events := attempts (.queued row.id) c.token row.payload (c.push http).tries
        rest := (c.push http).rest } := by
  simp [deliver, h]

theorem deliver_length_le (c : TransportClient) (rows : List (Row α)) (http : Stream' Outcome) :
    (deliver c rows http).delivered.length ≤ rows.length := by
  induction rows generalizing c http with
  | nil => exact Nat.le_refl _
  | cons row rows ih =>
    cases hdone : (c.push http).done with
    | true =>
      rw [deliver_cons_done hdone]
      exact Nat.succ_le_succ (ih _ _)
    | false =>
      rw [deliver_cons_undelivered hdone]
      exact Nat.zero_le _

/-- What a batch delivers is a prefix of it, in order. -/
theorem deliver_delivered (c : TransportClient) (rows : List (Row α)) (http : Stream' Outcome) :
    (deliver c rows http).delivered =
      (rows.take (deliver c rows http).delivered.length).map Row.id := by
  induction rows generalizing c http with
  | nil => rfl
  | cons row rows ih =>
    cases hdone : (c.push http).done with
    | true =>
      rw [deliver_cons_done hdone]
      simp only [List.length_cons, List.take_succ_cons, List.map_cons]
      rw [← ih]
    | false =>
      rw [deliver_cons_undelivered hdone]
      rfl

/-- The inner loop on two batches in a row: the second one is only reached when
the first one went through. -/
theorem deliver_append (c : TransportClient) (xs ys : List (Row α)) (http : Stream' Outcome) :
    deliver c (xs ++ ys) http =
      let b := deliver c xs http
      if b.delivered.length < xs.length then b
      else
        let b' := deliver b.client ys b.rest
        { delivered := b.delivered ++ b'.delivered, client := b'.client
          events := b.events ++ b'.events, rest := b'.rest } := by
  induction xs generalizing c http with
  | nil => simp
  | cons x xs ih =>
    rw [List.cons_append]
    cases hdone : (c.push http).done with
    | true =>
      rw [deliver_cons_done hdone, deliver_cons_done hdone]
      simp only [ih]
      by_cases hlt : (deliver (c.push http).client xs (c.push http).rest).delivered.length
          < xs.length
      · simp [hlt]
      · simp [hlt, List.append_assoc]
    | false =>
      rw [deliver_cons_undelivered hdone, deliver_cons_undelivered hdone]
      simp

/-! ## The loop -/

/-- The event is an attempt to post a payload. -/
def Event.isPost : Event α → Bool
  | .post .. => true
  | _ => false

theorem filter_isPost_attempts (origin : Origin) (token : String) (payload : α)
    (tries : List Outcome) :
    (attempts origin token payload tries).filter Event.isPost =
      attempts origin token payload tries := by
  simp [attempts, List.filter_map, Function.comp_def, Event.isPost]

@[simp] theorem filter_isPost_ackEvents (ids : List Nat) :
    (ackEvents ids : List (Event α)).filter Event.isPost = [] := by
  cases ids with
  | nil => rfl
  | cons i is => rfl

/-- The inner loop does nothing but post. -/
theorem filter_isPost_deliver (c : TransportClient) (rows : List (Row α))
    (http : Stream' Outcome) :
    (deliver c rows http).events.filter Event.isPost = (deliver c rows http).events := by
  induction rows generalizing c http with
  | nil => rfl
  | cons row rows ih =>
    cases hdone : (c.push http).done with
    | true =>
      rw [deliver_cons_done hdone]
      simp only [List.filter_append, filter_isPost_attempts, ih]
    | false =>
      rw [deliver_cons_undelivered hdone]
      exact filter_isPost_attempts _ _ _ _

/-- Posts are told apart from everything else a log holds. -/
theorem posts_filter_isPost (me : α → Bool) (log : List (Event α)) :
    posts me (log.filter Event.isPost) = posts me log := by
  rw [posts, posts, List.filterMap_filter]
  refine List.filterMap_congr fun e _ => ?_
  cases e <;> simp [Event.isPost, Event.postOf]

/-- Acknowledging what a batch delivered drops it from the front of the queue. -/
theorem ack_deliver (batch : Nat) (q : DiskQueue α) (c : TransportClient)
    (http : Stream' Outcome) :
    q.ack (deliver c (q.peek batch) http).delivered =
      q.dropFront (deliver c (q.peek batch) http).delivered.length := by
  have hack := DiskQueue.ack_take_peek (deliver_length_le c (q.peek batch) http)
  rwa [← deliver_delivered c (q.peek batch) http] at hack

/-- The loop of `drain` on the whole queue at once. -/
theorem drainLoop_flat {batch : Nat} (hbatch : 0 < batch) (fuel : Nat) (q : DiskQueue α)
    (c : TransportClient) (http : Stream' Outcome) (hfuel : q.len < fuel) :
    let d := drainLoop batch fuel q c http
    let b := deliver c q.rows http
    d.queue = q.dropFront b.delivered.length ∧ d.client = b.client ∧
      d.sent = b.delivered.length ∧ d.rest = b.rest ∧
      d.events.filter Event.isPost = b.events := by
  induction fuel generalizing q c http with
  | zero => exact absurd hfuel (Nat.not_lt_zero _)
  | succ fuel ih =>
    simp only [drainLoop]
    by_cases hempty : (q.peek batch).isEmpty = true
    · have hnil := DiskQueue.rows_of_peek_isEmpty hbatch hempty
      simp [hempty, hnil]
    · have hsplit : q.rows = q.peek batch ++ q.rows.drop batch :=
        (List.take_append_drop batch q.rows).symm
      have happ := deliver_append c (q.peek batch) (q.rows.drop batch) http
      rw [← hsplit] at happ
      have hack := ack_deliver batch q c http
      have hposts := filter_isPost_deliver c (q.peek batch) http
      have hle := deliver_length_le c (q.peek batch) http
      simp only [hempty, Bool.false_eq_true, if_false]
      by_cases hlt : (deliver c (q.peek batch) http).delivered.length < (q.peek batch).length
      · -- a push got no answer: the loop stops inside this batch
        simp only [hlt, if_true] at happ ⊢
        rw [happ, hack]
        exact ⟨rfl, rfl, rfl, rfl, by simp [hposts]⟩
      · -- the batch went through: the next round drains what is left
        simp only [hlt, if_false] at happ ⊢
        have hlen : (deliver c (q.peek batch) http).delivered.length = (q.peek batch).length :=
          le_antisymm hle (not_lt.1 hlt)
        have hq' : (q.ack (deliver c (q.peek batch) http).delivered).rows = q.rows.drop batch := by
          rw [hack, hlen, DiskQueue.rows_dropFront_peek]
        have hfuel' : (q.ack (deliver c (q.peek batch) http).delivered).len < fuel := by
          rw [hack, hlen]
          exact (DiskQueue.len_dropFront_peek_lt hempty).trans_le (Nat.lt_succ_iff.1 hfuel)
        obtain ⟨hqueue, hclient, hsent, hrest, hevents⟩ := ih
          (q.ack (deliver c (q.peek batch) http).delivered)
          (deliver c (q.peek batch) http).client (deliver c (q.peek batch) http).rest hfuel'
        rw [hq'] at hqueue hclient hsent hrest hevents
        rw [happ]
        refine ⟨?_, hclient, ?_, hrest, ?_⟩
        · rw [hqueue, hack, DiskQueue.dropFront_dropFront, List.length_append]
        · rw [hsent, List.length_append]
        · simp [hposts, hevents]

/-- **What a drain does**, whatever its batch size: it posts what the inner loop
would post for the whole queue, stops where that loop would stop, and the rows
delivered are gone from the front of the queue. -/
theorem drain_flat {batch : Nat} (hbatch : 0 < batch) (q : DiskQueue α) (c : TransportClient)
    (http : Stream' Outcome) :
    let d := drain batch q c http
    let b := deliver c q.rows http
    d.queue = q.dropFront b.delivered.length ∧ d.client = b.client ∧
      d.sent = b.delivered.length ∧ d.rest = b.rest ∧
      d.events.filter Event.isPost = b.events :=
  drainLoop_flat hbatch _ q c http (Nat.lt_succ_self _)

/-! ## What a drain logs -/

theorem mem_attempts {origin : Origin} {token : String} {payload : α} {tries : List Outcome}
    {e : Event α} (h : e ∈ attempts origin token payload tries) :
    ∃ o, e = .post origin token payload o := by
  obtain ⟨o, -, rfl⟩ := List.mem_map.1 h
  exact ⟨o, rfl⟩

theorem mem_deliver {c : TransportClient} {rows : List (Row α)} {http : Stream' Outcome}
    {e : Event α} (h : e ∈ (deliver c rows http).events) :
    ∃ id token payload o, e = .post (.queued id) token payload o := by
  induction rows generalizing c http with
  | nil => exact absurd h List.not_mem_nil
  | cons row rows ih =>
    cases hdone : (c.push http).done with
    | true =>
      rw [deliver_cons_done hdone] at h
      rcases List.mem_append.1 h with h | h
      · obtain ⟨o, rfl⟩ := mem_attempts h
        exact ⟨_, _, _, o, rfl⟩
      · exact ih h
    | false =>
      rw [deliver_cons_undelivered hdone] at h
      obtain ⟨o, rfl⟩ := mem_attempts h
      exact ⟨_, _, _, o, rfl⟩

/-- A drain posts queued payloads and commits acknowledgements, nothing else. -/
theorem mem_drain {batch : Nat} {q : DiskQueue α} {c : TransportClient} {http : Stream' Outcome}
    {e : Event α} (h : e ∈ (drain batch q c http).events) :
    (∃ id token payload o, e = .post (.queued id) token payload o) ∨ ∃ ids, e = .acked ids := by
  have hack : ∀ {ids}, e ∈ (ackEvents ids : List (Event α)) → ∃ ids, e = .acked ids := by
    intro ids h
    cases ids with
    | nil => exact absurd h List.not_mem_nil
    | cons i is => exact ⟨_, List.mem_singleton.1 h⟩
  have hloop : ∀ fuel (q : DiskQueue α) c http, e ∈ (drainLoop batch fuel q c http).events →
      (∃ id token payload o, e = .post (.queued id) token payload o) ∨ ∃ ids, e = .acked ids := by
    intro fuel
    induction fuel with
    | zero => exact fun _ _ _ h => absurd h List.not_mem_nil
    | succ fuel ih =>
      intro q c http h
      simp only [drainLoop] at h
      split at h
      · exact absurd h List.not_mem_nil
      · split at h
        · rcases List.mem_append.1 h with h | h
          · exact .inl (mem_deliver h)
          · exact .inr (hack h)
        · rcases List.mem_append.1 h with h | h
          · rcases List.mem_append.1 h with h | h
            · exact .inl (mem_deliver h)
            · exact .inr (hack h)
          · exact ih _ _ _ h
  exact hloop _ _ _ _ h

/-- What a drain posts is what the inner loop posts. -/
theorem post_mem_drain {batch : Nat} (hbatch : 0 < batch) {q : DiskQueue α} {c : TransportClient}
    {http : Stream' Outcome} {origin : Origin} {token : String} {payload : α} {o : Outcome}
    (h : .post origin token payload o ∈ (drain batch q c http).events) :
    .post origin token payload o ∈ (deliver c q.rows http).events := by
  obtain ⟨-, -, -, -, hevents⟩ := drain_flat hbatch q c http
  rw [← hevents]
  exact List.mem_filter.2 ⟨h, rfl⟩

/-! ## Frames -/

theorem endpoint_deliver (c : TransportClient) (rows : List (Row α)) (http : Stream' Outcome) :
    (deliver c rows http).client.endpoint = c.endpoint := by
  induction rows generalizing c http with
  | nil => rfl
  | cons row rows ih =>
    cases hdone : (c.push http).done with
    | true =>
      rw [deliver_cons_done hdone]
      exact (ih _ _).trans (c.endpoint_push http)
    | false =>
      rw [deliver_cons_undelivered hdone]
      exact c.endpoint_push http

/-- All requests of a batch carry the token the client held before it. -/
theorem token_deliver {c : TransportClient} {rows : List (Row α)} {http : Stream' Outcome}
    {origin : Origin} {token : String} {payload : α} {o : Outcome}
    (h : .post origin token payload o ∈ (deliver c rows http).events) : token = c.token := by
  have hposted : ∀ {c : TransportClient} {row : Row α} {tries : List Outcome},
      .post origin token payload o ∈ attempts (.queued row.id) c.token row.payload tries →
        token = c.token := by
    intro c row tries h
    obtain ⟨o', h⟩ := mem_attempts h
    exact (Event.post.inj h).2.1
  induction rows generalizing c http with
  | nil => exact absurd h List.not_mem_nil
  | cons row rows ih =>
    cases hdone : (c.push http).done with
    | true =>
      rw [deliver_cons_done hdone] at h
      rcases List.mem_append.1 h with h | h
      · exact hposted h
      · exact (ih h).trans (TransportClient.token_congr (c.endpoint_push http))
    | false =>
      rw [deliver_cons_undelivered hdone] at h
      exact hposted h

/-- A drain never touches the token, nor where it came from. -/
theorem endpoint_drain {batch : Nat} (hbatch : 0 < batch) (q : DiskQueue α) (c : TransportClient)
    (http : Stream' Outcome) : (drain batch q c http).client.endpoint = c.endpoint := by
  obtain ⟨-, hclient, -⟩ := drain_flat hbatch q c http
  rw [hclient]
  exact endpoint_deliver c q.rows http

/-! ## Commits -/

theorem commits_ackEvents (q : DiskQueue α) (ids : List Nat) :
    q.commits (ackEvents ids) = q.ack ids := by
  cases ids with
  | nil => rfl
  | cons i is => rfl

theorem commits_deliver (q : DiskQueue α) (c : TransportClient) (rows : List (Row α))
    (http : Stream' Outcome) : q.commits (deliver c rows http).events = q := by
  induction rows generalizing c http with
  | nil => rfl
  | cons row rows ih =>
    cases hdone : (c.push http).done with
    | true =>
      rw [deliver_cons_done hdone]
      simp only [DiskQueue.commits_append, DiskQueue.commits_attempts, ih]
    | false =>
      rw [deliver_cons_undelivered hdone]
      exact DiskQueue.commits_attempts _ _ _ _ _

/-- The queue a drain hands back is the one its commits leave. -/
theorem commits_drain (batch : Nat) (q : DiskQueue α) (c : TransportClient)
    (http : Stream' Outcome) :
    q.commits (drain batch q c http).events = (drain batch q c http).queue := by
  have hloop : ∀ fuel (q : DiskQueue α) c http,
      q.commits (drainLoop batch fuel q c http).events = (drainLoop batch fuel q c http).queue := by
    intro fuel
    induction fuel with
    | zero => exact fun _ _ _ => rfl
    | succ fuel ih =>
      intro q c http
      simp only [drainLoop]
      split
      · rfl
      · split
        · simp only [DiskQueue.commits_append, commits_deliver, commits_ackEvents]
        · simp only [DiskQueue.commits_append, commits_deliver, commits_ackEvents, ih]
  exact hloop _ _ _ _

end OoAgent
