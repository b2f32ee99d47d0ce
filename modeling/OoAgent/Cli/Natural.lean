import OoAgent.Cli.Sink

/-!
# The sink does not look inside its payloads

Everything the sink asks of a payload is its `ts`.  So payloads may be renamed,
or marked with serial numbers, before a call or after it: as long as the renaming
keeps every `ts`, the two calls are the same.

* `DiskQueue.map`, `Event.map`, `Call.map`, `Daemon.map` — renaming payloads.
* `deliver_map`, `drain_map` — a drain of renamed rows.
* `pushSink_map` — **naturality** of a call: on a renamed payload it is the renamed call.
-/

namespace OoAgent

variable {α β : Type}

/-! ## Renaming payloads -/

/-- A row with its payload renamed. -/
def Row.map (f : α → β) (r : Row α) : Row β := ⟨r.id, r.ts, f r.payload⟩

theorem Row.id_comp_map (f : α → β) : Row.id ∘ Row.map f = Row.id := rfl

/-- A queue with its payloads renamed. -/
def DiskQueue.map (f : α → β) (q : DiskQueue α) : DiskQueue β where
  rows := q.rows.map (Row.map f)
  seq := q.seq
  maxRows := q.maxRows
  maxAge := q.maxAge
  sorted := List.pairwise_map.2 q.sorted
  bounded := by
    intro r hr
    obtain ⟨s, hs, rfl⟩ := List.mem_map.1 hr
    exact q.bounded s hs

/-- An event with its payloads renamed. -/
def Event.map (f : α → β) : Event α → Event β
  | .handed payload => .handed (f payload)
  | .post origin token payload outcome => .post origin token (f payload) outcome
  | .stored row trimmed => .stored (row.map f) (trimmed.map (Row.map f))
  | .acked ids => .acked ids
  | .enroll request outcome => .enroll request outcome
  | .reenrolled token => .reenrolled token
  | .removedToken => .removedToken
  | .updateStarted at_ => .updateStarted at_
  | .raised => .raised

/-- A call with its payload renamed. -/
def Call.map (f : α → β) (call : Call α) : Call β where
  payload := f call.payload
  http := call.http
  reply := call.reply
  now := call.now
  insertedAt := call.insertedAt
  trimmedAt := call.trimmedAt
  workerDone := call.workerDone

/-- A daemon with the payloads of its queue renamed. -/
def Daemon.map (f : α → β) (d : Daemon α) : Daemon β where
  client := d.client
  queue := d.queue.map (DiskQueue.map f)
  authFails := d.authFails
  reclaim := d.reclaim
  updating := d.updating
  lastUpdate := d.lastUpdate
  files := d.files

@[simp] theorem Daemon.files_map (f : α → β) (d : Daemon α) : (d.map f).files = d.files := rfl

@[simp] theorem Daemon.reclaim_map (f : α → β) (d : Daemon α) : (d.map f).reclaim = d.reclaim := rfl

@[simp] theorem Call.now_map (f : α → β) (call : Call α) : (call.map f).now = call.now := rfl

@[simp] theorem Call.reply_map (f : α → β) (call : Call α) : (call.map f).reply = call.reply := rfl

/-- A daemon and a log, both renamed. -/
def mapResult (f : α → β) (r : Daemon α × List (Event α)) : Daemon β × List (Event β) :=
  (r.1.map f, r.2.map (Event.map f))

/-! ## The queue -/

section Queue

variable (f : α → β)

namespace DiskQueue

@[simp] theorem rows_map (q : DiskQueue α) : (q.map f).rows = q.rows.map (Row.map f) := rfl

@[simp] theorem len_map (q : DiskQueue α) : (q.map f).len = q.len := List.length_map _

@[simp] theorem peek_map (q : DiskQueue α) (limit : Nat) :
    (q.map f).peek limit = (q.peek limit).map (Row.map f) := List.map_take.symm

theorem delete_map (q : DiskQueue α) (p : Row β → Bool) :
    (q.map f).delete p = (q.delete fun r => p (r.map f)).map f := by
  ext1
  · show (q.rows.map (Row.map f)).filter _ = (q.rows.filter _).map (Row.map f)
    rw [List.filter_map]
    rfl
  · rfl
  · rfl
  · rfl

theorem deleteIds_map (q : DiskQueue α) (ids : List Nat) :
    (q.map f).deleteIds ids = (q.deleteIds ids).map f := delete_map f q _

theorem ack_map (q : DiskQueue α) (ids : List Nat) : (q.map f).ack ids = (q.ack ids).map f := by
  rw [ack_eq, ack_eq, deleteIds_map]

theorem aged_map (q : DiskQueue α) (now : ℚ) :
    (q.map f).delete ((q.map f).isAged now) = (q.delete (q.isAged now)).map f :=
  delete_map f q _

theorem excess_map (q : DiskQueue α) : (q.map f).excess = q.excess := by
  show ((q.map f).len - q.maxRows).toNat = _
  rw [len_map]
  rfl

theorem trim_map (q : DiskQueue α) (now : ℚ) : (q.map f).trim now = (q.trim now).map f := by
  simp only [trim, aged_map, excess_map, peek_map, List.map_map, Row.id_comp_map, deleteIds_map]
  split <;> rfl

theorem trimmed_map (q : DiskQueue α) (now : ℚ) :
    (q.map f).trimmed now = (q.trimmed now).map (Row.map f) := by
  simp only [trimmed, aged_map, excess_map, peek_map, List.map_append, rows_map]
  rw [List.filter_map]
  rfl

variable [Payload α] [Payload β] {f} (hts : ∀ p, Payload.ts? (f p) = Payload.ts? p)

include hts

theorem newRow_map (q : DiskQueue α) (payload : α) (insertedAt : ℚ) :
    (q.map f).newRow (f payload) insertedAt = (q.newRow payload insertedAt).map f := by
  simp only [newRow, hts]
  rfl

theorem inserted_map (q : DiskQueue α) (payload : α) (insertedAt : ℚ) :
    (q.map f).inserted (f payload) insertedAt = (q.inserted payload insertedAt).map f := by
  ext1
  · rw [rows_inserted, newRow_map hts, rows_map, rows_map, rows_inserted, List.map_append]
    rfl
  · rfl
  · rfl
  · rfl

theorem push_map (q : DiskQueue α) (payload : α) (insertedAt trimmedAt : ℚ) :
    (q.map f).push (f payload) insertedAt trimmedAt =
      (q.push payload insertedAt trimmedAt).map f := by
  rw [push, inserted_map hts, trim_map]
  rfl

end DiskQueue

end Queue

/-! ## The drain -/

section Drain

variable (f : α → β)

theorem attempts_map (origin : Origin) (token : String) (payload : α) (tries : List Outcome) :
    attempts origin token (f payload) tries =
      (attempts origin token payload tries).map (Event.map f) := by
  simp [attempts, Event.map, Function.comp_def]

theorem ackEvents_map (ids : List Nat) :
    (ackEvents ids : List (Event β)) = (ackEvents ids : List (Event α)).map (Event.map f) := by
  cases ids with
  | nil => rfl
  | cons i is => rfl

/-- One batch of renamed rows. -/
theorem deliver_map (c : TransportClient) (rows : List (Row α)) (http : Stream' Outcome) :
    deliver c (rows.map (Row.map f)) http =
      { delivered := (deliver c rows http).delivered
        client := (deliver c rows http).client
        events := (deliver c rows http).events.map (Event.map f)
        rest := (deliver c rows http).rest } := by
  induction rows generalizing c http with
  | nil => rfl
  | cons row rows ih =>
    have hposted := attempts_map f (.queued row.id) c.token row.payload (c.push http).tries
    rw [List.map_cons]
    cases hdone : (c.push http).done with
    | true =>
      rw [deliver_cons_done hdone, deliver_cons_done hdone]
      simp only [ih, List.map_append, ← hposted]
      rfl
    | false =>
      rw [deliver_cons_undelivered hdone, deliver_cons_undelivered hdone]
      simp only [← hposted]
      rfl

/-- What a drain did, with its payloads renamed. -/
def Drain.map (d : Drain α) : Drain β where
  queue := d.queue.map f
  client := d.client
  sent := d.sent
  events := d.events.map (Event.map f)
  rest := d.rest

theorem drainLoop_map (batch fuel : Nat) (q : DiskQueue α) (c : TransportClient)
    (http : Stream' Outcome) :
    drainLoop batch fuel (q.map f) c http = (drainLoop batch fuel q c http).map f := by
  induction fuel generalizing q c http with
  | zero => rfl
  | succ fuel ih =>
    simp only [drainLoop, DiskQueue.peek_map, deliver_map, List.isEmpty_map, List.length_map,
      DiskQueue.ack_map, ih]
    split
    · rfl
    · split
      · simp [Drain.map, ackEvents_map f]
      · simp [Drain.map, ackEvents_map f]

/-- A drain of a renamed queue. -/
theorem drain_map (batch : Nat) (q : DiskQueue α) (c : TransportClient) (http : Stream' Outcome) :
    drain batch (q.map f) c http = (drain batch q c http).map f := by
  rw [drain, DiskQueue.len_map, drainLoop_map]
  rfl

end Drain

/-! ## The sink -/

section Sink

variable {f : α → β}

theorem drainQueue_map (d : Daemon α) (http : Stream' Outcome) :
    drainQueue (d.map f) http = mapResult f (drainQueue d http) := by
  cases hqueue : d.queue with
  | none => simp [drainQueue, Daemon.map, mapResult, hqueue]
  | some q =>
    simp only [drainQueue, Daemon.map, hqueue, Option.map_some, DiskQueue.len_map, drain_map]
    by_cases hlen : q.len = 0
    · simp [hlen, mapResult, Daemon.map, hqueue]
    · simp [hlen, mapResult, Daemon.map, Drain.map]

theorem maybeSelfUpdate_map (d : Daemon α) (now : Time) :
    maybeSelfUpdate (d.map f) now = mapResult f (maybeSelfUpdate d now) := by
  unfold maybeSelfUpdate
  show (if (Value.getD d.client.serverCommands "update" .none).truthy = false then _ else
    if d.updating = true ∨ now < d.lastUpdate + updateThrottle then _ else _) = _
  split
  · rfl
  · split <;> rfl

theorem reclaimCall_map (d : Daemon α) (flow : ReclaimFlow) (call : Call α) :
    reclaimCall (d.map f) flow (call.map f) = mapResult f (reclaimCall d flow call) := by
  have henroll : ∀ s, (enrollEvents s call.reply : List (Event β)) =
      (enrollEvents s call.reply : List (Event α)).map (Event.map f) := by
    intro s
    cases hraised : s.raised <;> simp [enrollEvents, Event.map, Function.comp_def, hraised]
  cases htoken : (flow.step d.files call.now call.reply).token with
  | none =>
    simp only [reclaimCall, Daemon.files_map, Call.now_map, Call.reply_map, htoken, mapResult,
      henroll]
    rfl
  | some token =>
    simp only [reclaimCall, Daemon.files_map, Call.now_map, Call.reply_map, htoken, mapResult,
      List.map_append, henroll]
    rfl

theorem liveEvents_map (d : Daemon α) (call : Call α) :
    liveEvents (d.map f) (call.map f) = (liveEvents d call).map (Event.map f) := by
  show .handed (f call.payload) :: attempts .live d.client.token (f call.payload) _ = _
  rw [attempts_map]
  rfl

theorem afterAnswer_map (d : Daemon α) (call : Call α) :
    afterAnswer (d.map f) (call.map f) = mapResult f (afterAnswer d call) := by
  have hupdate : maybeSelfUpdate
      { d.map f with client := ((d.map f).client.push (call.map f).http).client, authFails := 0 }
        (call.map f).now =
      mapResult f (maybeSelfUpdate
        { d with client := (d.client.push call.http).client, authFails := 0 } call.now) :=
    maybeSelfUpdate_map
      { d with client := (d.client.push call.http).client, authFails := 0 } call.now
  unfold afterAnswer
  simp only [hupdate, liveEvents_map, mapResult, List.map_append]
  have hdrain := drainQueue_map (f := f) (maybeSelfUpdate
    { d with client := (d.client.push call.http).client, authFails := 0 } call.now).1
    (d.client.push call.http).rest
  show ((drainQueue (Daemon.map f _) (d.client.push call.http).rest).1,
    _ ++ (drainQueue (Daemon.map f _) (d.client.push call.http).rest).2) = _
  rw [hdrain]
  rfl

variable [Payload α] [Payload β] (hts : ∀ p, Payload.ts? (f p) = Payload.ts? p)

include hts

theorem enqueue_map (d : Daemon α) (call : Call α) :
    enqueue (d.map f) (call.map f) = mapResult f (enqueue d call) := by
  cases hqueue : d.queue with
  | none => simp [enqueue, Daemon.map, mapResult, hqueue]
  | some q =>
    simp only [enqueue, Daemon.map, Call.map, hqueue, Option.map_some,
      DiskQueue.push_map hts, DiskQueue.newRow_map hts, DiskQueue.inserted_map hts,
      DiskQueue.trimmed_map]
    rfl

theorem pushCall_map (d : Daemon α) (call : Call α) :
    pushCall (d.map f) (call.map f) = mapResult f (pushCall d call) := by
  have hlive := liveEvents_map (f := f) d call
  have hpush : (d.map f).client.push (call.map f).http = d.client.push call.http := rfl
  cases hdone : (d.client.push call.http).done with
  | false =>
    have henqueue : enqueue { d.map f with client := (d.client.push call.http).client }
        (call.map f) = mapResult f (enqueue { d with client := (d.client.push call.http).client }
          call) :=
      enqueue_map hts { d with client := (d.client.push call.http).client } call
    rw [pushCall_undelivered hdone, pushCall_undelivered (by rw [hpush, hdone]), hpush, henqueue,
      hlive]
    simp only [mapResult, List.map_append]
  | true =>
    cases hauth : (d.client.push call.http).client.authStatus with
    | none =>
      rw [pushCall_answered hdone hauth, pushCall_answered (by rw [hpush, hdone])
        (by rw [hpush, hauth])]
      exact afterAnswer_map d call
    | some status =>
      have hsome : (d.client.push call.http).client.authStatus.isSome = true := by rw [hauth]; rfl
      have hfails : (d.map f).authFails = d.authFails := rfl
      by_cases hmany : authFailLimit ≤ d.authFails + 1
      · rw [pushCall_wiped hdone hsome hmany, pushCall_wiped (by rw [hpush, hdone])
          (by rw [hpush, hsome]) (by rw [hfails]; exact hmany), hlive]
        simp only [mapResult, List.map_append]
        rfl
      · rw [pushCall_counted hdone hsome (not_le.1 hmany), pushCall_counted (by rw [hpush, hdone])
          (by rw [hpush, hsome]) (by rw [hfails]; exact not_le.1 hmany), hlive]
        rfl

/-- One call on a renamed payload. -/
theorem pushSink_map (d : Daemon α) (call : Call α) :
    pushSink (d.map f) (call.map f) = mapResult f (pushSink d call) := by
  unfold pushSink
  rw [Daemon.reclaim_map]
  cases d.reclaim with
  | some flow => exact reclaimCall_map (d.atCall call) flow call
  | none => exact pushCall_map hts (d.atCall call) call

end Sink

end OoAgent
