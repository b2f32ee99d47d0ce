import OoAgent.Lib.Machine
import OoAgent.Transport.Drain
import OoAgent.Transport.Enroll

/-!
# The daemon sink

`_build_sink` and `push_sink` (`oo_agent/cli.py`): one payload at a time is
pushed, queued when it gets no answer, and the backlog is drained once a push is
accepted; three authorization rejections in a row wipe the token and switch to
the re-claim flow; an accepted response may start a self-update.

A `Daemon` is everything `push_sink` closes over together with the files it
writes, a `Call` is what the outside world has in store for one call of it.  The
operating system and SQLite do what they are asked here; a token that cannot be
written in ASCII still makes a call raise.

* `Sunk` and `pushSink_spec` — everything one call can do, case by case.
* `sinkMachine` — whole runs of the sink, as a machine that logs its events.
* `buildSink` — start-up: what is rebuilt from the options and the disk.
-/

namespace OoAgent

variable {α : Type}

/-- Consecutive auth rejections before the token is wiped: `_AUTH_FAIL_LIMIT`. -/
def authFailLimit : Nat := 3

/-- Least time between two self-updates: `_UPDATE_THROTTLE`. -/
def updateThrottle : Time := seconds 3600

/-- Least time between two requests of the re-claim flow: `_MIN_INTERVAL`. -/
def reclaimInterval : Time := seconds 60

/-- The state of the sink: the client, the queue when there is one, the `state`
dictionary of `_build_sink`, and the files. -/
structure Daemon (α : Type) where
  client : TransportClient
  queue : Option (DiskQueue α)
  authFails : Nat
  /-- `state["reclaim"]`: the flow, while the agent is unenrolled. -/
  reclaim : Option ReclaimFlow
  updating : Bool
  lastUpdate : Time
  files : Files

/-- What the outside world has in store for one call of the sink. -/
structure Call (α : Type) where
  payload : α
  /-- What the attempts to post a payload come to, in order. -/
  http : Stream' Outcome
  /-- What the request of the re-claim flow comes to. -/
  reply : Outcome
  /-- `time.monotonic()`. -/
  now : Time
  /-- `time.time()` when a row is inserted. -/
  insertedAt : ℚ
  /-- `time.time()` when the queue is trimmed. -/
  trimmedAt : ℚ
  /-- The update worker, if one was running, has finished by now. -/
  workerDone : Bool

/-! ## One call -/

/-- `_maybe_self_update`. -/
def maybeSelfUpdate (d : Daemon α) (now : Time) : Daemon α × List (Event α) :=
  if (Value.getD d.client.serverCommands "update" .none).truthy = false then (d, [])
  else if d.updating = true ∨ now < d.lastUpdate + updateThrottle then (d, [])
  else ({ d with updating := true, lastUpdate := now }, [.updateStarted now])

/-- Drain the queue, when there is one and it is not empty. -/
def drainQueue (d : Daemon α) (http : Stream' Outcome) : Daemon α × List (Event α) :=
  match d.queue with
  | none => (d, [])
  | some q =>
    if q.len = 0 then (d, [])
    else
      let drained := drain drainBatch q d.client http
      ({ d with queue := some drained.queue, client := drained.client }, drained.events)

/-- Wipe the token and switch to the re-claim flow. -/
def wipeToken (d : Daemon α) : Daemon α :=
  { d with
    files := removeFile d.files d.client.tokenFile
    client := { d.client with token := "" }
    reclaim := some (ReclaimFlow.init d.client.tokenFile reclaimInterval) }

/-- Park a payload in the queue, when there is one. -/
def enqueue [Payload α] (d : Daemon α) (call : Call α) : Daemon α × List (Event α) :=
  match d.queue with
  | none => (d, [])
  | some q =>
    ({ d with queue := some (q.push call.payload call.insertedAt call.trimmedAt) },
      [.stored (q.newRow call.payload call.insertedAt)
        ((q.inserted call.payload call.insertedAt).trimmed call.trimmedAt)])

/-- What a step of the re-claim flow did: its request, if any, and the exception it
ended in, if it did. -/
def enrollEvents (s : ReclaimFlow.Step) (reply : Outcome) : List (Event α) :=
  (s.request.toList.map fun request => .enroll request reply) ++ if s.raised then [.raised] else []

/-- `push_sink` while the agent is unenrolled: one step of the flow.  Nobody
catches what the step raises; the flow then stays in place as the step left it. -/
def reclaimCall (d : Daemon α) (flow : ReclaimFlow) (call : Call α) : Daemon α × List (Event α) :=
  let s := flow.step d.files call.now call.reply
  match s.token with
  | none =>
    ({ d with reclaim := some s.flow, files := s.files },
      enrollEvents s call.reply)
  | some token =>
    ({ d with
        files := s.files
        client := { d.client with token := token }
        reclaim := none
        authFails := 0 },
      enrollEvents s call.reply ++ [.reenrolled token])

/-- The live push of one call, as events. -/
def liveEvents (d : Daemon α) (call : Call α) : List (Event α) :=
  .handed call.payload ::
    attempts .live d.client.token call.payload (d.client.push call.http).tries

/-- `push_sink` while the agent is enrolled. -/
def pushCall [Payload α] (d : Daemon α) (call : Call α) : Daemon α × List (Event α) :=
  let p := d.client.push call.http
  let posted := liveEvents d call
  let d := { d with client := p.client }
  if p.done then
    if d.client.authStatus.isSome then
      let d := { d with authFails := d.authFails + 1 }
      if authFailLimit ≤ d.authFails then (wipeToken d, posted ++ [.removedToken]) else (d, posted)
    else
      let updated := maybeSelfUpdate { d with authFails := 0 } call.now
      let drained := drainQueue updated.1 p.rest
      (drained.1, posted ++ updated.2 ++ drained.2)
  else
    let queued := enqueue d call
    (queued.1, posted ++ queued.2)

/-- The daemon as a call finds it: a finished update worker has cleared its flag. -/
def Daemon.atCall (d : Daemon α) (call : Call α) : Daemon α :=
  { d with updating := d.updating && !call.workerDone }

/-- `push_sink`. -/
def pushSink [Payload α] (d : Daemon α) (call : Call α) : Daemon α × List (Event α) :=
  match d.reclaim with
  | some flow => reclaimCall (d.atCall call) flow call
  | none => pushCall (d.atCall call) call

/-- Whole runs of the sink. -/
def sinkMachine [Payload α] : Machine (Daemon α) (Call α) (Event α) := ⟨pushSink⟩

/-! ## Frames -/

theorem maybeSelfUpdate_frame (d : Daemon α) (now : Time) :
    (maybeSelfUpdate d now).1.client = d.client ∧ (maybeSelfUpdate d now).1.queue = d.queue ∧
      (maybeSelfUpdate d now).1.authFails = d.authFails ∧
      (maybeSelfUpdate d now).1.reclaim = d.reclaim ∧
      (maybeSelfUpdate d now).1.files = d.files := by
  unfold maybeSelfUpdate
  split
  · exact ⟨rfl, rfl, rfl, rfl, rfl⟩
  · split <;> exact ⟨rfl, rfl, rfl, rfl, rfl⟩

theorem drainQueue_frame (d : Daemon α) (http : Stream' Outcome) :
    (drainQueue d http).1.client.endpoint = d.client.endpoint ∧
      (drainQueue d http).1.authFails = d.authFails ∧
      (drainQueue d http).1.reclaim = d.reclaim ∧ (drainQueue d http).1.files = d.files := by
  unfold drainQueue
  split
  · exact ⟨rfl, rfl, rfl, rfl⟩
  · split
    · exact ⟨rfl, rfl, rfl, rfl⟩
    · exact ⟨endpoint_drain (by decide) _ _ _, rfl, rfl, rfl⟩

theorem enqueue_frame [Payload α] (d : Daemon α) (call : Call α) :
    (enqueue d call).1.client = d.client ∧ (enqueue d call).1.authFails = d.authFails ∧
      (enqueue d call).1.reclaim = d.reclaim ∧ (enqueue d call).1.files = d.files := by
  unfold enqueue
  split <;> exact ⟨rfl, rfl, rfl, rfl⟩

/-! ## Everything one call can do -/

/-- The daemon after its live push was answered by something other than an
authorization rejection: the counter is reset, an update may start, the queue is
drained. -/
def afterAnswer (d : Daemon α) (call : Call α) : Daemon α × List (Event α) :=
  let p := d.client.push call.http
  let updated := maybeSelfUpdate { d with client := p.client, authFails := 0 } call.now
  let drained := drainQueue updated.1 p.rest
  (drained.1, liveEvents d call ++ updated.2 ++ drained.2)

/-- What an answered call has done when its drain begins: the live push, the count, and
perhaps the start of a worker. -/
def beforeDrain (d : Daemon α) (call : Call α) : Daemon α × List (Event α) :=
  let updated := maybeSelfUpdate
    { d with client := (d.client.push call.http).client, authFails := 0 } call.now
  (updated.1, liveEvents d call ++ updated.2)

/-- An answered call ends with its drain. -/
theorem afterAnswer_eq (d : Daemon α) (call : Call α) :
    afterAnswer d call =
      ((drainQueue (beforeDrain d call).1 (d.client.push call.http).rest).1,
        (beforeDrain d call).2 ++
          (drainQueue (beforeDrain d call).1 (d.client.push call.http).rest).2) := rfl

theorem queue_beforeDrain (d : Daemon α) (call : Call α) :
    (beforeDrain d call).1.queue = d.queue := by
  obtain ⟨-, hqueue, -⟩ := maybeSelfUpdate_frame
    { d with client := (d.client.push call.http).client, authFails := 0 } call.now
  exact hqueue

theorem afterAnswer_frame (d : Daemon α) (call : Call α) :
    (afterAnswer d call).1.client.endpoint = d.client.endpoint ∧
      (afterAnswer d call).1.authFails = 0 ∧ (afterAnswer d call).1.reclaim = d.reclaim ∧
      (afterAnswer d call).1.files = d.files := by
  obtain ⟨hendpoint, hfails, hreclaim, hfiles⟩ := drainQueue_frame
    (maybeSelfUpdate { d with client := (d.client.push call.http).client, authFails := 0 }
      call.now).1 (d.client.push call.http).rest
  obtain ⟨hclient, -, hfails', hreclaim', hfiles'⟩ := maybeSelfUpdate_frame
    { d with client := (d.client.push call.http).client, authFails := 0 } call.now
  refine ⟨?_, hfails.trans hfails', hreclaim.trans hreclaim', hfiles.trans hfiles'⟩
  rw [hclient] at hendpoint
  exact hendpoint.trans (d.client.endpoint_push call.http)

/-! ## What the parts of a call log -/

theorem mem_liveEvents {d : Daemon α} {call : Call α} {e : Event α} (h : e ∈ liveEvents d call) :
    e = .handed call.payload ∨ ∃ o, e = .post .live d.client.token call.payload o := by
  rcases List.mem_cons.1 h with h | h
  · exact .inl h
  · exact .inr (mem_attempts h)

theorem mem_enrollEvents {s : ReclaimFlow.Step} {reply : Outcome} {e : Event α}
    (h : e ∈ (enrollEvents s reply : List (Event α))) :
    (∃ request, e = .enroll request reply) ∨ e = .raised := by
  rcases List.mem_append.1 h with h | h
  · obtain ⟨request, -, rfl⟩ := List.mem_map.1 h
    exact .inl ⟨request, rfl⟩
  · split at h
    · exact .inr (List.mem_singleton.1 h)
    · exact absurd h List.not_mem_nil

theorem mem_maybeSelfUpdate {d : Daemon α} {now : Time} {e : Event α}
    (h : e ∈ (maybeSelfUpdate d now).2) : e = .updateStarted now := by
  unfold maybeSelfUpdate at h
  split at h
  · exact absurd h List.not_mem_nil
  · split at h
    · exact absurd h List.not_mem_nil
    · exact List.mem_singleton.1 h

theorem mem_beforeDrain {d : Daemon α} {call : Call α} {e : Event α}
    (h : e ∈ (beforeDrain d call).2) : e ∈ liveEvents d call ∨ e = .updateStarted call.now := by
  rcases List.mem_append.1 h with h | h
  · exact .inl h
  · exact .inr (mem_maybeSelfUpdate h)

/-- The drain of a call posts what the inner loop posts for some rows, and commits
acknowledgements. -/
theorem mem_drainQueue {d : Daemon α} {http : Stream' Outcome} {e : Event α}
    (h : e ∈ (drainQueue d http).2) :
    (∃ id payload o, e = .post (.queued id) d.client.token payload o) ∨ ∃ ids, e = .acked ids := by
  unfold drainQueue at h
  split at h
  · exact absurd h List.not_mem_nil
  · split at h
    · exact absurd h List.not_mem_nil
    · rcases mem_drain h with ⟨id, token, payload, o, rfl⟩ | hacked
      · obtain rfl := token_deliver (post_mem_drain (by decide) h)
        exact .inl ⟨id, payload, o, rfl⟩
      · exact .inr hacked

theorem mem_enqueue [Payload α] {d : Daemon α} {call : Call α} {e : Event α}
    (h : e ∈ (enqueue d call).2) : ∃ row trimmed, e = .stored row trimmed := by
  unfold enqueue at h
  split at h
  · exact absurd h List.not_mem_nil
  · exact ⟨_, _, List.mem_singleton.1 h⟩

/-- Everything an answered call can log: its own push, an update, and a drain with the
same token. -/
theorem mem_afterAnswer {d : Daemon α} {call : Call α} {e : Event α}
    (h : e ∈ (afterAnswer d call).2) :
    e ∈ liveEvents d call ∨ e = .updateStarted call.now ∨
      (∃ id payload o, e = .post (.queued id) d.client.token payload o) ∨
      ∃ ids, e = .acked ids := by
  rw [afterAnswer_eq] at h
  rcases List.mem_append.1 h with h | h
  · exact (mem_beforeDrain h).imp_right .inl
  · obtain ⟨hclient, -⟩ := maybeSelfUpdate_frame
      { d with client := (d.client.push call.http).client, authFails := 0 } call.now
    have htoken := TransportClient.token_congr (d.client.endpoint_push call.http)
    have hdrain := mem_drainQueue h
    rw [show (beforeDrain d call).1.client.token = d.client.token from
      (congrArg TransportClient.token hclient).trans htoken] at hdrain
    exact .inr (.inr hdrain)

section Branches

variable [Payload α] {d : Daemon α} {call : Call α}

theorem pushCall_undelivered (h : (d.client.push call.http).done = false) :
    pushCall d call =
      ((enqueue { d with client := (d.client.push call.http).client } call).1,
        liveEvents d call ++
          (enqueue { d with client := (d.client.push call.http).client } call).2) := by
  simp [pushCall, h]

theorem pushCall_counted (h : (d.client.push call.http).done = true)
    (hauth : (d.client.push call.http).client.authStatus.isSome = true)
    (hfew : d.authFails + 1 < authFailLimit) :
    pushCall d call =
      ({ d with client := (d.client.push call.http).client, authFails := d.authFails + 1 },
        liveEvents d call) := by
  simp [pushCall, h, hauth, not_le.2 hfew]

theorem pushCall_wiped (h : (d.client.push call.http).done = true)
    (hauth : (d.client.push call.http).client.authStatus.isSome = true)
    (hmany : authFailLimit ≤ d.authFails + 1) :
    pushCall d call =
      (wipeToken
        { d with client := (d.client.push call.http).client, authFails := d.authFails + 1 },
        liveEvents d call ++ [.removedToken]) := by
  simp [pushCall, h, hauth, hmany]

theorem pushCall_answered (h : (d.client.push call.http).done = true)
    (hauth : (d.client.push call.http).client.authStatus = none) :
    pushCall d call = afterAnswer d call := by
  simp [pushCall, afterAnswer, h, hauth]

end Branches

/-- Everything one call of the sink can do, from the daemon as the call finds it. -/
inductive Sunk [Payload α] (d : Daemon α) (call : Call α) : Daemon α × List (Event α) → Prop
  /-- Unenrolled, and no new token yet. -/
  | unenrolled {flow : ReclaimFlow} (mode : d.reclaim = some flow)
      (pending : (flow.step d.files call.now call.reply).token = none) :
      Sunk d call
        ({ d with
            reclaim := some (flow.step d.files call.now call.reply).flow
            files := (flow.step d.files call.now call.reply).files },
          enrollEvents (flow.step d.files call.now call.reply) call.reply)
  /-- Unenrolled, and a new token has come. -/
  | reenrolled {flow : ReclaimFlow} {token : String} (mode : d.reclaim = some flow)
      (issued : (flow.step d.files call.now call.reply).token = some token) :
      Sunk d call
        ({ d with
            files := (flow.step d.files call.now call.reply).files
            client := { d.client with token := token }
            reclaim := none
            authFails := 0 },
          enrollEvents (flow.step d.files call.now call.reply) call.reply ++ [.reenrolled token])
  /-- An authorization rejection is on record, and it is not yet one too many. -/
  | counted (mode : d.reclaim = none) (answered : (d.client.push call.http).done = true)
      (auth : (d.client.push call.http).client.authStatus.isSome = true)
      (few : d.authFails + 1 < authFailLimit) :
      Sunk d call
        ({ d with client := (d.client.push call.http).client, authFails := d.authFails + 1 },
          liveEvents d call)
  /-- An authorization rejection is on record, and it is the last one allowed. -/
  | wiped (mode : d.reclaim = none) (answered : (d.client.push call.http).done = true)
      (auth : (d.client.push call.http).client.authStatus.isSome = true)
      (many : authFailLimit ≤ d.authFails + 1) :
      Sunk d call
        (wipeToken
          { d with client := (d.client.push call.http).client, authFails := d.authFails + 1 },
          liveEvents d call ++ [.removedToken])
  /-- An answer, and no authorization rejection on record. -/
  | answered (mode : d.reclaim = none) (answered : (d.client.push call.http).done = true)
      (auth : (d.client.push call.http).client.authStatus = none) :
      Sunk d call (afterAnswer d call)
  /-- No answer: the payload is parked. -/
  | undelivered (mode : d.reclaim = none) (unanswered : (d.client.push call.http).done = false) :
      Sunk d call
        ((enqueue { d with client := (d.client.push call.http).client } call).1,
          liveEvents d call ++
            (enqueue { d with client := (d.client.push call.http).client } call).2)

/-- **Everything one call of the sink can do.** -/
theorem pushSink_spec [Payload α] (d : Daemon α) (call : Call α) :
    Sunk (d.atCall call) call (pushSink d call) := by
  have hreclaim : (d.atCall call).reclaim = d.reclaim := rfl
  cases hmode : d.reclaim with
  | some flow =>
    rw [pushSink, hmode]
    simp only [reclaimCall]
    cases htoken : (flow.step (d.atCall call).files call.now call.reply).token with
    | none => exact .unenrolled (hreclaim.trans hmode) htoken
    | some token => exact .reenrolled (hreclaim.trans hmode) htoken
  | none =>
    rw [pushSink, hmode]
    have hpush := hreclaim.trans hmode
    generalize d.atCall call = d' at hpush ⊢
    show Sunk d' call (pushCall d' call)
    cases hdone : (d'.client.push call.http).done with
    | false =>
      rw [pushCall_undelivered hdone]
      exact .undelivered hpush hdone
    | true =>
      cases hauth : (d'.client.push call.http).client.authStatus with
      | none =>
        rw [pushCall_answered hdone hauth]
        exact .answered hpush hdone hauth
      | some status =>
        have hsome : (d'.client.push call.http).client.authStatus.isSome = true := by
          rw [hauth]
          rfl
        by_cases hmany : authFailLimit ≤ d'.authFails + 1
        · rw [pushCall_wiped hdone hsome hmany]
          exact .wiped hpush hdone hsome hmany
        · rw [pushCall_counted hdone hsome (not_le.1 hmany)]
          exact .counted hpush hdone hsome (not_le.1 hmany)

/-! ## Start-up -/

/-- The sink the daemon runs with. -/
inductive Sink (α : Type) where
  /-- `log_sink`: payloads are only counted; the files and the queue stay as they are. -/
  | logOnly (files : Files) (queue : Option (DiskQueue α))
  | push (d : Daemon α)

/-- `_build_sink`, from the `[transport]` options, the files on disk and what
opening the queue database gives; `none` when the client cannot be built. -/
def buildSink (options : List (Key × Value)) (files : Files) (queue : Option (DiskQueue α)) :
    Option (Sink α) :=
  if (Value.getD options "server" .none).truthy = false then some (.logOnly files queue)
  else
    (TransportClient.init options files).map fun client =>
      if client.configured = false then .logOnly files queue
      else
        .push
          { client := client, queue := queue, authFails := 0, reclaim := none, updating := false,
            lastUpdate := 0, files := files }

/-- A daemon that has just started has counted nothing, and is not unenrolled. -/
theorem buildSink_push {options : List (Key × Value)} {files : Files}
    {queue : Option (DiskQueue α)} {d : Daemon α}
    (h : buildSink options files queue = some (.push d)) :
    ∃ client, TransportClient.init options files = some client ∧ client.configured = true ∧
      d = { client := client, queue := queue, authFails := 0, reclaim := none, updating := false,
            lastUpdate := 0, files := files } := by
  unfold buildSink at h
  split at h
  · simp at h
  · obtain ⟨client, hclient, hsink⟩ := Option.map_eq_some_iff.1 h
    split at hsink
    · simp at hsink
    · rename_i hconfigured
      exact ⟨client, hclient, by simpa using hconfigured, (Sink.push.inj hsink).symm⟩

/-! ## A small daemon -/

/-- Options that leave the token to the token file. -/
def sampleOptions : List (Key × Value) := [(.str "server", .str "https://example.org")]

/-- The files of an enrolled agent. -/
def sampleFiles : Files := Function.update (fun _ => none) defaultTokenFile (some "t0\n")

/-- A daemon that has just read its token from the token file. -/
def sampleDaemon : Daemon Int :=
  { client := sampleClient
    queue := some sampleQueue
    authFails := 0
    reclaim := none
    updating := false
    lastUpdate := 0
    files := sampleFiles }

theorem sampleDaemon_start :
    buildSink sampleOptions sampleFiles (some sampleQueue) = some (.push sampleDaemon) := by
  rfl

/-- A call, with its payload, every request of which comes to the same outcome. -/
def sampleCall (payload : Int) (outcome : Outcome) : Call Int :=
  { payload := payload, http := Stream'.const outcome, reply := outcome, now := 0, insertedAt := 0,
    trimmedAt := 0, workerDone := false }

/-- An outage during one call, and an accepted push in the next one. -/
def sampleOutage : List (Call Int) :=
  [sampleCall 1 .exception, sampleCall 2 (.ofStatus 200 Status.ok.final)]

end OoAgent
