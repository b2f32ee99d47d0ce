import OoAgent.Cli.Rejections
import OoAgent.Transport.Conversation
import OoAgent.Transport.Statements

/-!
# A sink whose queue fails

`_build_sink` goes on without a queue when the database cannot be opened, but `push_sink`
catches nothing that an open one raises, nor what `push` raises over an answer it cannot
read, and `run_forever` catches nothing that the sink raises: the first exception is the end
of the daemon.

* `faultySink` — `push_sink` call by call, with what its calls of `sqlite3` come to and with
  the answers that cannot be read.
* `faulted_faultySink` — **everything a call does under faults**: nothing goes wrong and it
  is the call of `pushSink`, or the daemon is gone, the file holds the queue less rows that
  were delivered, and the log ends inside what `pushSink` would have done.
* `sink_survives_iff` — a run keeps the daemon alive exactly when no call of `sqlite3` in
  it raises, every accepted answer can be read, and every token issued can be stored.
-/

namespace OoAgent

open Fallible

variable {α : Type}

/-! ## The sink -/

/-- A call of the sink, with what can go wrong in it. -/
structure FaultyCall (α : Type) where
  call : Call α
  /-- For each attempt of its pushes: `response.json()` raises, and not a `ValueError`. -/
  bad : Stream' Bool
  /-- What the calls of `sqlite3` it makes come to. -/
  sqlite : Stream' Answer

/-- The network a call of the sink finds. -/
def FaultyCall.network (f : FaultyCall α) : Network := ⟨f.call.http, f.bad⟩

/-- Every call of `sqlite3` in it returns. -/
def FaultyCall.Works (f : FaultyCall α) : Prop := ∀ n, Succeed f.sqlite n

/-- The process the sink runs in. -/
inductive Life (α : Type) where
  | alive (d : Daemon α)
  /-- An exception has gone through `run_forever`: the queue database and the other files it
  leaves behind. -/
  | dead (file : Option (DiskQueue α)) (files : Files)

namespace Statements

/-- `if len(queue): drain(queue, client)`. -/
def drainQueue (c : TransportClient) (net : Network) :
    Fallible (Connection α) TransportClient := do
  let rows ← query DiskQueue.len
  if rows = 0 then pure c
  else do
    let (client, _) ← drain c net
    pure client

/-- `queue.push(payload)`, and its entry in the log. -/
def enqueue [Payload α] (c : TransportClient) (call : Call α) :
    Fallible (Connection α) TransportClient := do
  let stored ← read fun conn =>
    Event.stored (conn.view.newRow call.payload call.insertedAt)
      ((conn.view.inserted call.payload call.insertedAt).trimmed call.trimmedAt)
  push call.payload call.insertedAt call.trimmedAt
  emit [stored]
  pure c

end Statements

/-- The end of a call, with what it does to the queue if there is one.  Nobody catches what
that raises. -/
def onQueue (d : Daemon α) (log : List (Event α)) (m : Fallible (Connection α) TransportClient)
    (sqlite : Stream' Answer) : Life α × List (Event α) :=
  match d.queue with
  | none => (.alive d, log)
  | some q =>
    match m ⟨q, q, log⟩ sqlite with
    | (some client, conn, _) =>
      (.alive { d with client := client, queue := some conn.view }, conn.log)
    | (none, conn, _) => (.dead (some conn.file) d.files, conn.log ++ [.raised])

/-- `push_sink` while the agent is enrolled. -/
def faultyPush [Payload α] (d : Daemon α) (f : FaultyCall α) : Life α × List (Event α) :=
  let p := Raising.push d.client f.network
  let posted := .handed f.call.payload :: attempts .live d.client.token f.call.payload p.tries
  let d := { d with client := p.client }
  match p.returned with
  | none => (.dead d.queue d.files, posted ++ [.raised])
  | some true =>
    if d.client.authStatus.isSome then
      let d := { d with authFails := d.authFails + 1 }
      if authFailLimit ≤ d.authFails then (.alive (wipeToken d), posted ++ [.removedToken])
      else (.alive d, posted)
    else
      let updated := maybeSelfUpdate { d with authFails := 0 } f.call.now
      onQueue updated.1 (posted ++ updated.2)
        (Statements.drainQueue updated.1.client p.rest) f.sqlite
  | some false => onQueue d posted (Statements.enqueue d.client f.call) f.sqlite

/-- `push_sink`.  What a step of the re-claim flow raises, nobody catches either. -/
def faultySink [Payload α] (d : Daemon α) (f : FaultyCall α) : Life α × List (Event α) :=
  let d := d.atCall f.call
  match d.reclaim with
  | some flow =>
    let called := reclaimCall d flow f.call
    if (flow.step d.files f.call.now f.call.reply).raised then
      (.dead called.1.queue called.1.files, called.2)
    else (.alive called.1, called.2)
  | none => faultyPush d f

/-- Whole runs of the sink: a dead process takes no more calls. -/
def lifeMachine [Payload α] : Machine (Life α) (FaultyCall α) (Event α) where
  step
    | .alive d, f => faultySink d f
    | .dead file files, _ => (.dead file files, [])

/-! ## What has to go well -/

/-- How many calls of `sqlite3` a call of the sink makes, by what it is answered. -/
def sqlCalls [Payload α] (d : Daemon α) (call : Call α) : Nat :=
  match d.reclaim, d.queue with
  | none, some q =>
    match answer call.http with
    | none => Statements.pushCalls q call.payload call.insertedAt call.trimmedAt
    | some r =>
      if countsAsRejection d r then 0
      else if q.len = 0 then 1
      else 1 + Statements.drainCalls q.len (answeredOf q.len (leftAfter call.http))
  | _, _ => 0

/-- The live push of a call is accepted with a body that cannot be read. -/
def liveUnreadable (d : Daemon α) (f : FaultyCall α) : Bool :=
  d.reclaim.isNone && f.network.unreadable

/-- The drain of a call meets an accepted answer whose body cannot be read. -/
def drainUnreadable (d : Daemon α) (f : FaultyCall α) : Bool :=
  match d.reclaim, d.queue, answer f.call.http with
  | none, some q, some r =>
    !f.network.unreadable && !countsAsRejection d r && f.network.left.unreadableAmong q.len
  | _, _, _ => false

/-- The token a call is issued, if it is, can be stored. -/
def TokenStorable (d : Daemon α) (call : Call α) : Prop :=
  ∀ flow, d.reclaim = some flow → flow.nextTry ≤ call.now → flow.enrollId ≠ "" →
    ∀ r, call.reply = .response r → r.status.failed = false →
      refused (statusOf r.data) = false → storable flow.tokenFile (tokenOf r.data) = true

/-- No call of `sqlite3` that the sink makes raises, every answer its pushes accept can be
read, and a token it is issued can be stored. -/
structure NoFault [Payload α] (d : Daemon α) (f : FaultyCall α) : Prop where
  sqlite : Succeed f.sqlite (sqlCalls d f.call)
  live : liveUnreadable d f = false
  drained : drainUnreadable d f = false
  token : TokenStorable d f.call

/-- A call all of whose answers can be read. -/
theorem drainUnreadable_of_readable {f : FaultyCall α} (h : f.network.Readable) (d : Daemon α) :
    drainUnreadable d f = false := by
  have hdrained (n : Nat) : f.network.left.unreadableAmong n = false :=
    (h.leftWithin pushAttempts).unreadableAmong n
  unfold drainUnreadable
  split
  · rw [hdrained, Bool.and_false]
  · rfl

/-- What a call that raises leaves in the file: the queue less rows that were delivered. -/
def LeftBehind (d : Daemon α) (call : Call α) (file : Option (DiskQueue α)) : Prop :=
  file = d.queue ∨ ∃ q n, d.queue = some q ∧ file = some (q.dropFront n) ∧
    n ≤ answeredOf q.len (leftAfter call.http)

/-! ## A call on the queue -/

section OnQueue

variable {A : Connection α → Prop} {P : DiskQueue α → List (Event α) → Prop} {d : Daemon α}
  {q q' file : DiskQueue α} {log log' : List (Event α)}
  {m : Fallible (Connection α) TransportClient} {n : ℕ} {client : TransportClient}
  {sqlite : Stream' Answer}

theorem onQueue_returns (hqueue : d.queue = some q)
    (h : Takes A m ⟨q, q, log⟩ n client ⟨q', file, log'⟩) (hok : Succeed sqlite n) :
    onQueue d log m sqlite = (.alive { d with client := client, queue := some q' }, log') := by
  rw [onQueue, hqueue]
  simp only [h.returns sqlite hok]

/-- What the call leaves when what it does to the queue raises. -/
theorem onQueue_raises (hqueue : d.queue = some q) (hnone : (m ⟨q, q, log⟩ sqlite).1 = none)
    (hP : Statements.Outlasts P (m ⟨q, q, log⟩ sqlite).2.1) :
    ∃ file log', onQueue d log m sqlite = (.dead (some file) d.files, log' ++ [.raised]) ∧
      P file log' := by
  rw [onQueue, hqueue]
  rcases hrun : m ⟨q, q, log⟩ sqlite with ⟨value, conn, rest⟩
  rw [hrun] at hnone hP
  obtain rfl : value = none := hnone
  exact ⟨conn.file, conn.log, by simp only [hrun], hP⟩

end OnQueue

namespace Statements

variable {P : DiskQueue α → List (Event α) → Prop}

/-- The park of a call is that of the sink. -/
theorem takes_enqueue [Payload α] (c : TransportClient) (call : Call α) (q : DiskQueue α)
    (log : List (Event α)) (hP : P q log) :
    Takes (Outlasts P) (enqueue c call) ⟨q, q, log⟩
      (pushCalls q call.payload call.insertedAt call.trimmedAt) c
      ⟨q.push call.payload call.insertedAt call.trimmedAt,
        q.push call.payload call.insertedAt call.trimmedAt,
        log ++ [.stored (q.newRow call.payload call.insertedAt)
          ((q.inserted call.payload call.insertedAt).trimmed call.trimmedAt)]⟩ := by
  let stored : Event α := .stored (q.newRow call.payload call.insertedAt)
    ((q.inserted call.payload call.insertedAt).trimmed call.trimmedAt)
  let pushed := q.push call.payload call.insertedAt call.trimmedAt
  have hread := takes_read (A := Outlasts P) (fun conn : Connection α =>
    Event.stored (conn.view.newRow call.payload call.insertedAt)
      ((conn.view.inserted call.payload call.insertedAt).trimmed call.trimmedAt)) ⟨q, q, log⟩
  have hpush := takes_push call.payload call.insertedAt call.trimmedAt ⟨q, q, log⟩ hP
  have hemit := takes_emit (P := P) [stored] ⟨pushed, pushed, log⟩
  have hreturn := takes_pure (A := Outlasts P) c (⟨pushed, pushed, log ++ [stored]⟩ : Connection α)
  have hlogged := hemit.bind (k := fun _ => pure c) hreturn
  have hpushed := hpush.bind (k := fun _ => emit [stored] >>= fun _ => pure c) hlogged
  have hcall := hread.bind (k := fun stored =>
    push call.payload call.insertedAt call.trimmedAt >>= fun _ =>
      emit [stored] >>= fun _ => pure c) hpushed
  exact hcall.congr (Nat.zero_add _) rfl rfl

/-- A drain of an empty queue does nothing. -/
theorem drain_empty {q : DiskQueue α} (hlen : q.len = 0) (c : TransportClient)
    (http : Stream' Outcome) :
    OoAgent.drain drainBatch q c http =
      { queue := q, client := c, sent := 0, events := [], rest := http } := by
  have hempty : (q.peek drainBatch).isEmpty = true := by
    rw [List.isEmpty_iff, ← List.length_eq_zero_iff, q.length_peek, hlen, Nat.min_zero]
  rw [OoAgent.drain, OoAgent.drainLoop]
  simp only [hempty, if_true]

/-- What a call does to drain its queue is a drain, also when there is nothing in it. -/
theorem drainQueue_eq {d : Daemon α} {q : DiskQueue α} (hqueue : d.queue = some q)
    (http : Stream' Outcome) :
    OoAgent.drainQueue d http =
      ({ d with
          queue := some (OoAgent.drain drainBatch q d.client http).queue
          client := (OoAgent.drain drainBatch q d.client http).client },
        (OoAgent.drain drainBatch q d.client http).events) := by
  obtain ⟨client, queue, authFails, reclaim, updating, lastUpdate, files⟩ := d
  obtain rfl : queue = some q := hqueue
  by_cases hlen : q.len = 0
  · simp [OoAgent.drainQueue, drain_empty hlen, hlen]
  · simp [OoAgent.drainQueue, hlen]

section DrainQueue

variable {q : DiskQueue α} {c : TransportClient} {net : Network} {log : List (Event α)}

/-- The drain of a call is that of the sink, when every answer can be read. -/
theorem takes_drainQueue (hP : Underway P q log (OoAgent.drain drainBatch q c net.outcomes))
    (hread : net.unreadableAmong q.len = false) :
    let d := OoAgent.drain drainBatch q c net.outcomes
    Takes (Outlasts P) (drainQueue c net) ⟨q, q, log⟩
      (if q.len = 0 then 1 else 1 + drainCalls q.len (answeredOf q.len net.outcomes))
      d.client ⟨d.queue, d.queue, log ++ d.events⟩ := by
  have hcount := takes_query (P := P) DiskQueue.len ⟨q, q, log⟩
    (by simpa using hP.start List.nil_prefix)
  let next : Nat → Fallible (Connection α) TransportClient := fun rows =>
    if rows = 0 then pure c
    else drain c net >>= fun handed => match handed with
      | (client, _) => pure client
  have hdrain := (takes_drain q c net log hP hread).bind (k := fun handed => match handed with
    | (client, _) => pure client) (takes_pure _ _)
  by_cases hlen : q.len = 0
  · have hstop : Takes (Outlasts P) (next q.len) ⟨q, q, log⟩ 0 c ⟨q, q, log⟩ := by
      rw [show next q.len = pure c from if_pos hlen]
      exact takes_pure _ _
    rw [if_pos hlen, drain_empty hlen]
    simp only [List.append_nil]
    exact hcount.bind (k := next) hstop
  · rw [← show next q.len = _ from if_neg hlen] at hdrain
    rw [if_neg hlen]
    exact hcount.bind (k := next) hdrain

/-- The drain of a call raises over an answer it cannot read. -/
theorem aborts_drainQueue (hP : Underway P q log (OoAgent.drain drainBatch q c net.outcomes))
    (hbad : net.unreadableAmong q.len = true) :
    Aborts (Outlasts P) (drainQueue c net) ⟨q, q, log⟩ := by
  have hlen : q.len ≠ 0 := by
    intro hzero
    rw [hzero] at hbad
    exact absurd hbad (by simp [Network.unreadableAmong])
  have hcount := takes_query (P := P) DiskQueue.len ⟨q, q, log⟩
    (by simpa using hP.start List.nil_prefix)
  let next : Nat → Fallible (Connection α) TransportClient := fun rows =>
    if rows = 0 then pure c
    else drain c net >>= fun handed => match handed with
      | (client, _) => pure client
  have hdrain : Aborts (Outlasts P) (next q.len) ⟨q, q, log⟩ := by
    rw [show next q.len = _ from if_neg hlen]
    exact (aborts_drain q c net log hP hbad).bind
  exact hcount.bind_aborts (k := next) hdrain

end DrainQueue

end Statements

/-! ## A call in re-claim mode -/

/-- A step of the flow raises exactly when it is issued a token that cannot be stored. -/
theorem raised_step_iff {flow : ReclaimFlow} {files : Files} {now : Time} {reply : Outcome} :
    (flow.step files now reply).raised = true ↔
      ∃ t, (flow.ask now reply).issued = some t ∧ storable flow.tokenFile t = false := by
  simp only [ReclaimFlow.step]
  cases hissued : (flow.ask now reply).issued with
  | none => simp
  | some t => simp [returned_storeToken]

/-- A reply to a poll that carries a token issues it. -/
theorem ask_issued {flow : ReclaimFlow} {now : Time} {r : Response} (hdue : flow.nextTry ≤ now)
    (hid : flow.enrollId ≠ "") (hok : r.status.failed = false)
    (hopen : refused (statusOf r.data) = false) (htoken : tokenOf r.data ≠ "") :
    (flow.ask now (.response r)).issued = some (tokenOf r.data) := by
  simp [ReclaimFlow.ask, not_lt.2 hdue, hid, hok, hopen, htoken]

/-- **A step returns** exactly when the token it is issued can be stored. -/
theorem tokenStorable_iff {d : Daemon α} {call : Call α} {flow : ReclaimFlow}
    (hmode : d.reclaim = some flow) :
    TokenStorable d call ↔ (flow.step d.files call.now call.reply).raised = false := by
  rw [← Bool.not_eq_true, raised_step_iff]
  constructor
  · rintro h ⟨t, hissued, hnot⟩
    obtain ⟨r, hreply, hok, hopen, rfl, -, hdue, hid⟩ := ReclaimFlow.issued_ask hissued
    rw [h flow hmode hdue hid r hreply hok hopen] at hnot
    exact absurd hnot (by simp)
  · intro h flow' hmode' hdue hid r hreply hok hopen
    obtain rfl : flow = flow' := Option.some.inj (hmode.symm.trans hmode')
    by_contra hnot
    by_cases htoken : tokenOf r.data = ""
    · rw [htoken] at hnot
      exact hnot (by simp [storable, ascii])
    · exact h ⟨_, hreply ▸ ask_issued hdue hid hok hopen htoken, by simpa using hnot⟩

/-! ## Everything a call does -/

/-- Everything a call of the sink does when something may go wrong in it. -/
inductive Faulted [Payload α] (d : Daemon α) (f : FaultyCall α) : Life α × List (Event α) → Prop
  /-- The call is that of a sink in which nothing goes wrong. -/
  | unharmed (fine : NoFault d f) :
      Faulted d f (.alive (pushSink d f.call).1, (pushSink d f.call).2)
  /-- The exception cuts the log of that call short. -/
  | killed (fault : ¬ NoFault d f) {file : Option (DiskQueue α)} {files : Files}
      {events : List (Event α)} (left : LeftBehind d f.call file)
      (before : events <+: (pushSink d f.call).2) :
      Faulted d f (.dead file files, events ++ [.raised])

/-- Nothing was delivered. -/
theorem leftBehind_queue {d : Daemon α} {q : DiskQueue α} (hqueue : d.queue = some q)
    (call : Call α) : LeftBehind d call (some q) := .inl hqueue.symm

/-- What the live push leaves to the drain. -/
theorem outcomes_left_network (f : FaultyCall α) :
    f.network.left.outcomes = leftAfter f.call.http := by
  have c : TransportClient := ⟨"", "", "", none, []⟩
  rw [Raising.outcomes_left c, rest_push]
  rfl

/-- A call in push mode needs no token to be stored. -/
theorem tokenStorable_enrolled {d : Daemon α} (hmode : d.reclaim = none) (call : Call α) :
    TokenStorable d call := fun _ hflow => absurd (hmode.symm.trans hflow) (by simp)

/-- A step of the flow that raises ends its log with that. -/
theorem reclaimCall_raised {d : Daemon α} {flow : ReclaimFlow} {call : Call α}
    (hraised : (flow.step d.files call.now call.reply).raised = true) :
    ∃ events, (reclaimCall d flow call).2 = events ++ [.raised] := by
  have htoken : (flow.step d.files call.now call.reply).token = none := by
    obtain ⟨t, hissued, hnot⟩ := raised_step_iff.1 hraised
    simp [ReclaimFlow.step, hissued, returned_storeToken, hnot]
  refine ⟨(flow.step d.files call.now call.reply).request.toList.map fun request =>
    .enroll request call.reply, ?_⟩
  simp only [reclaimCall, htoken, enrollEvents, hraised, if_true]

variable [Payload α]

theorem pushSink_enrolled {d : Daemon α} (hmode : d.reclaim = none) (call : Call α) :
    pushSink d call = pushCall (d.atCall call) call := by
  rw [pushSink, hmode]

theorem faultySink_enrolled {d : Daemon α} (hmode : d.reclaim = none) (f : FaultyCall α) :
    faultySink d f = faultyPush (d.atCall f.call) f := by
  have hmode' : (d.atCall f.call).reclaim = none := hmode
  rw [faultySink]
  simp only [hmode']

/-- With a queue, a payload is parked in it. -/
theorem enqueue_queue {d : Daemon α} {q : DiskQueue α} (hqueue : d.queue = some q)
    (call : Call α) :
    enqueue d call =
      ({ d with queue := some (q.push call.payload call.insertedAt call.trimmedAt) },
        [.stored (q.newRow call.payload call.insertedAt)
          ((q.inserted call.payload call.insertedAt).trimmed call.trimmedAt)]) := by
  rw [enqueue, hqueue]

/-- Every log of a call in push mode begins with its live push. -/
theorem liveEvents_begin {d : Daemon α} (hmode : d.reclaim = none) (call : Call α) :
    liveEvents (d.atCall call) call <+: (pushSink d call).2 := by
  have hspec := pushSink_spec d call
  generalize pushSink d call = out at hspec ⊢
  have hmode' : (d.atCall call).reclaim = none := hmode
  cases hspec with
  | unenrolled mode => exact absurd (hmode'.symm.trans mode) (by simp)
  | reenrolled mode => exact absurd (hmode'.symm.trans mode) (by simp)
  | counted => exact List.prefix_rfl
  | wiped => exact List.prefix_append _ _
  | answered => exact (List.prefix_append _ _).trans (List.prefix_append _ _)
  | undelivered => exact List.prefix_append _ _

section Enrolled

variable {d : Daemon α} {f : FaultyCall α} {q : DiskQueue α}

/-- A live push whose answer cannot be read. -/
theorem faultyPush_unreadable (hbad : f.network.unreadable = true) :
    faultyPush d f = (.dead d.queue d.files, liveEvents d f.call ++ [.raised]) := by
  rw [faultyPush, Raising.push_eq]
  simp only [Raising.Push.of, hbad, if_true]
  rfl

/-- A live push that gets no answer. -/
theorem faultyPush_undelivered (hread : f.network.unreadable = false)
    (hanswer : answer f.call.http = none) :
    faultyPush d f =
      onQueue { d with client := (d.client.push f.call.http).client } (liveEvents d f.call)
        (Statements.enqueue (d.client.push f.call.http).client f.call) f.sqlite := by
  have hdone : (d.client.push f.network.outcomes).done = false := by
    rw [TransportClient.done_push]
    exact congrArg Option.isSome hanswer
  rw [faultyPush, Raising.push_eq]
  simp only [Raising.Push.of, hread, hdone, Bool.false_eq_true, if_false]
  rfl

/-- A live push whose answer counts as an authorization rejection. -/
theorem faultyPush_rejected (hread : f.network.unreadable = false)
    {r : Response} (hanswer : answer f.call.http = some r)
    (hcounts : countsAsRejection d r = true) :
    faultyPush d f = (.alive (pushCall d f.call).1, (pushCall d f.call).2) := by
  have hdone : (d.client.push f.call.http).done = true := by
    rw [TransportClient.done_push, hanswer]
    rfl
  have hauth := (isSome_authStatus_push (d := d) hanswer).trans hcounts
  rw [faultyPush, Raising.push_eq, pushCall]
  have hdone' : (d.client.push f.network.outcomes).done = true := hdone
  have hauth' : (d.client.push f.network.outcomes).client.authStatus.isSome = true := hauth
  simp only [Raising.Push.of, hread, hdone, hdone', hauth, hauth', Bool.false_eq_true, if_false,
    if_true]
  split <;> rfl

/-- A live push with another answer. -/
theorem faultyPush_answered (hread : f.network.unreadable = false) {r : Response}
    (hanswer : answer f.call.http = some r) (hother : countsAsRejection d r = false) :
    faultyPush d f =
      onQueue (beforeDrain d f.call).1 (beforeDrain d f.call).2
        (Statements.drainQueue (beforeDrain d f.call).1.client f.network.left) f.sqlite := by
  have hdone : (d.client.push f.network.outcomes).done = true := by
    rw [TransportClient.done_push]
    exact congrArg Option.isSome hanswer
  have hauth : (d.client.push f.network.outcomes).client.authStatus.isSome = false :=
    (isSome_authStatus_push (d := d) hanswer).trans hother
  rw [faultyPush, Raising.push_eq]
  simp only [Raising.Push.of, hread, hdone, hauth, Bool.false_eq_true, if_false]
  rfl

/-- Nothing goes wrong in a call in push mode. -/
theorem noFault_enrolled (hmode : d.reclaim = none) (hread : f.network.unreadable = false)
    (hdrained : drainUnreadable d f = false)
    (hsqlite : Succeed f.sqlite (sqlCalls d f.call)) : NoFault d f where
  sqlite := hsqlite
  live := by rw [liveUnreadable, hread, Bool.and_false]
  drained := hdrained
  token := tokenStorable_enrolled hmode f.call

/-- What a call leaves on disk and in the log when it raises. -/
def Leaves (d : Daemon α) (call : Call α) (file : DiskQueue α) (log : List (Event α)) : Prop :=
  LeftBehind d call (some file) ∧ log <+: (pushSink d call).2

/-- What the end of a call on the queue makes of the call, when its answers can be read. -/
theorem faulted_onQueue {d' : Daemon α} (hqueue : d'.queue = some q) (hmode : d.reclaim = none)
    (hread : f.network.unreadable = false) (hdrained : drainUnreadable d f = false)
    {log : List (Event α)} {m : Fallible (Connection α) TransportClient}
    {client : TransportClient} {q' : DiskQueue α} {log' : List (Event α)}
    (h : Takes (Statements.Outlasts (Leaves d f.call)) m ⟨q, q, log⟩ (sqlCalls d f.call) client
      ⟨q', q', log'⟩)
    (hsame : pushSink d f.call = ({ d' with client := client, queue := some q' }, log')) :
    Faulted d f (onQueue d' log m f.sqlite) := by
  by_cases hok : Succeed f.sqlite (sqlCalls d f.call)
  · have hfine := noFault_enrolled hmode hread hdrained hok
    have hunharmed := Faulted.unharmed hfine
    rwa [hsame, ← onQueue_returns hqueue h hok] at hunharmed
  · obtain ⟨hnone, hP⟩ := h.fails f.sqlite hok
    obtain ⟨file, events, hdead, hleft, hbefore⟩ := onQueue_raises hqueue hnone hP
    rw [hdead]
    exact .killed (fun hfine => hok hfine.sqlite) hleft hbefore

/-- A call whose live push is accepted with a body that cannot be read. -/
theorem faulted_unreadable (hmode : d.reclaim = none) (hbad : f.network.unreadable = true) :
    Faulted d f (faultyPush (d.atCall f.call) f) := by
  rw [faultyPush_unreadable hbad]
  refine .killed (fun hfine => ?_) (.inl rfl) (liveEvents_begin hmode f.call)
  have hlive := hfine.live
  rw [liveUnreadable, hmode, hbad] at hlive
  exact absurd hlive (by simp)

/-- A call that gets no answer. -/
theorem faulted_undelivered (hmode : d.reclaim = none) (hread : f.network.unreadable = false)
    (hanswer : answer f.call.http = none) : Faulted d f (faultyPush (d.atCall f.call) f) := by
  have hdone : ((d.atCall f.call).client.push f.call.http).done = false := by
    rw [TransportClient.done_push, hanswer]
    rfl
  have hdrained : drainUnreadable d f = false := by
    cases hqueue : d.queue <;> simp only [drainUnreadable, hmode, hqueue, hanswer]
  have hsame := pushSink_enrolled hmode f.call
  rw [pushCall_undelivered hdone] at hsame
  rw [faultyPush_undelivered hread hanswer]
  cases hqueue : d.queue with
  | none =>
    have hcalls : sqlCalls d f.call = 0 := by simp only [sqlCalls, hmode, hqueue]
    have hfine := noFault_enrolled hmode hread hdrained (hcalls ▸ succeed_zero _)
    have hunharmed := Faulted.unharmed hfine
    rw [hsame] at hunharmed
    simp only [onQueue, enqueue, Daemon.atCall, hqueue, List.append_nil] at hunharmed ⊢
    exact hunharmed
  | some q =>
    have hcalls : sqlCalls d f.call =
        Statements.pushCalls q f.call.payload f.call.insertedAt f.call.trimmedAt := by
      simp only [sqlCalls, hmode, hqueue, hanswer]
    have htakes := Statements.takes_enqueue (P := Leaves d f.call)
      (d.client.push f.call.http).client f.call q (liveEvents (d.atCall f.call) f.call)
      ⟨leftBehind_queue hqueue f.call, liveEvents_begin hmode f.call⟩
    rw [← hcalls] at htakes
    have hqueue' : ({ d.atCall f.call with client := (d.client.push f.call.http).client } :
        Daemon α).queue = some q := hqueue
    refine faulted_onQueue hqueue' hmode hread hdrained htakes (hsame.trans ?_)
    exact congrArg (fun out => (out.1, liveEvents (d.atCall f.call) f.call ++ out.2))
      (enqueue_queue hqueue' f.call)

/-- A call whose answer counts as an authorization rejection does not touch the queue. -/
theorem faulted_rejected (hmode : d.reclaim = none) (hread : f.network.unreadable = false)
    {r : Response} (hanswer : answer f.call.http = some r)
    (hcounts : countsAsRejection d r = true) :
    Faulted d f (faultyPush (d.atCall f.call) f) := by
  have hcalls : sqlCalls d f.call = 0 := by
    cases hqueue : d.queue <;> simp only [sqlCalls, hmode, hqueue, hanswer, hcounts, if_true]
  have hdrained : drainUnreadable d f = false := by
    cases hqueue : d.queue <;>
      simp [drainUnreadable, hmode, hqueue, hanswer, hcounts]
  have hfine := noFault_enrolled hmode hread hdrained (hcalls ▸ succeed_zero _)
  rw [faultyPush_rejected (d := d.atCall f.call) hread hanswer hcounts, ← pushSink_enrolled hmode]
  exact .unharmed hfine

/-- A call with another answer drains the queue. -/
theorem faulted_answered (hmode : d.reclaim = none) (hread : f.network.unreadable = false)
    {r : Response} (hanswer : answer f.call.http = some r)
    (hother : countsAsRejection d r = false) :
    Faulted d f (faultyPush (d.atCall f.call) f) := by
  have hdone : ((d.atCall f.call).client.push f.call.http).done = true := by
    rw [TransportClient.done_push, hanswer]
    rfl
  have hauth : ((d.atCall f.call).client.push f.call.http).client.authStatus = none := by
    have hstatus := @isSome_authStatus_push α d f.call r hanswer
    rw [hother, Option.isSome_eq_false_iff, Option.isNone_iff_eq_none] at hstatus
    exact hstatus
  have hsame := pushSink_enrolled hmode f.call
  rw [pushCall_answered hdone hauth, afterAnswer_eq, rest_push] at hsame
  rw [faultyPush_answered (d := d.atCall f.call) hread hanswer hother]
  cases hqueue : d.queue with
  | none =>
    have hbefore : (beforeDrain (d.atCall f.call) f.call).1.queue = none :=
      (queue_beforeDrain _ _).trans hqueue
    have hcalls : sqlCalls d f.call = 0 := by simp only [sqlCalls, hmode, hqueue]
    have hdrained : drainUnreadable d f = false := by simp only [drainUnreadable, hmode, hqueue]
    have hunharmed := Faulted.unharmed
      (noFault_enrolled hmode hread hdrained (hcalls ▸ succeed_zero _))
    rw [hsame] at hunharmed
    simpa only [onQueue, drainQueue, hbefore, List.append_nil] using hunharmed
  | some q =>
    generalize hb : beforeDrain (d.atCall f.call) f.call = b at hsame ⊢
    have hbefore : b.1.queue = some q := by
      rw [← hb]
      exact (queue_beforeDrain _ _).trans hqueue
    rw [Statements.drainQueue_eq hbefore, ← outcomes_left_network f] at hsame
    have hcalls : sqlCalls d f.call = if q.len = 0 then 1
        else 1 + Statements.drainCalls q.len (answeredOf q.len f.network.left.outcomes) := by
      simp only [sqlCalls, hmode, hqueue, hanswer, hother, Bool.false_eq_true, if_false,
        outcomes_left_network]
    have hunderway : Statements.Underway (Leaves d f.call) q b.2
        (drain drainBatch q b.1.client f.network.left.outcomes) := by
      intro n hn events hevents
      rw [sent_drain, outcomes_left_network] at hn
      refine ⟨.inr ⟨q, n, hqueue, rfl, hn⟩, ?_⟩
      rw [hsame]
      exact (List.prefix_append_right_inj b.2).2 hevents
    have hdrained : drainUnreadable d f = f.network.left.unreadableAmong q.len := by
      simp only [drainUnreadable, hmode, hqueue, hanswer, hread, hother, Bool.not_false,
        Bool.true_and]
    cases hbad : f.network.left.unreadableAmong q.len with
    | false =>
      have htakes := Statements.takes_drainQueue hunderway hbad
      rw [← hcalls] at htakes
      exact faulted_onQueue hbefore hmode hread (hdrained.trans hbad) htakes hsame
    | true =>
      obtain ⟨hnone, hP⟩ := Statements.aborts_drainQueue hunderway hbad f.sqlite
      obtain ⟨file, events, hdead, hleft, hprefix⟩ := onQueue_raises hbefore hnone hP
      rw [hdead]
      refine .killed (fun hfine => ?_) hleft hprefix
      rw [hfine.drained] at hdrained
      exact absurd (hdrained.trans hbad) (by simp)

end Enrolled

/-- **Everything a call of the sink does when something may go wrong in it.** -/
theorem faulted_faultySink (d : Daemon α) (f : FaultyCall α) : Faulted d f (faultySink d f) := by
  cases hmode : d.reclaim with
  | some flow =>
    have hcalls : sqlCalls d f.call = 0 := by simp only [sqlCalls, hmode]
    have hlive : liveUnreadable d f = false := by simp [liveUnreadable, hmode]
    have hdrained : drainUnreadable d f = false := by simp only [drainUnreadable, hmode]
    have hcall : pushSink d f.call = reclaimCall (d.atCall f.call) flow f.call := by
      rw [pushSink, hmode]
    have hmode' : (d.atCall f.call).reclaim = some flow := hmode
    have hkept : (reclaimCall (d.atCall f.call) flow f.call).1.queue = d.queue := by
      simp only [reclaimCall]
      split <;> rfl
    have hstep : (flow.step (d.atCall f.call).files f.call.now f.call.reply).raised = false ↔
        TokenStorable d f.call := (tokenStorable_iff hmode).symm
    rw [faultySink]
    simp only [hmode']
    split
    · rename_i hraised
      obtain ⟨events, hevents⟩ := reclaimCall_raised hraised
      rw [hevents]
      refine .killed (fun h => ?_) (.inl hkept) ?_
      · rw [hstep.2 h.token] at hraised
        exact absurd hraised (by simp)
      · rw [hcall, hevents]
        exact List.prefix_append _ _
    · rename_i hreturns
      rw [← hcall]
      exact .unharmed ⟨hcalls ▸ succeed_zero _, hlive, hdrained, hstep.1 (by simpa using hreturns)⟩
  | none =>
    rw [faultySink_enrolled hmode]
    cases hbad : f.network.unreadable with
    | true => exact faulted_unreadable hmode hbad
    | false =>
      cases hanswer : answer f.call.http with
      | none => exact faulted_undelivered hmode hbad hanswer
      | some r =>
        cases hcounts : countsAsRejection d r with
        | true => exact faulted_rejected hmode hbad hanswer hcounts
        | false => exact faulted_answered hmode hbad hanswer hcounts

/-- A call in which nothing goes wrong. -/
theorem faultySink_of_noFault {d : Daemon α} {f : FaultyCall α} (hfine : NoFault d f) :
    faultySink d f = (.alive (pushSink d f.call).1, (pushSink d f.call).2) := by
  have hfaulted := faulted_faultySink d f
  generalize faultySink d f = out at hfaulted ⊢
  cases hfaulted with
  | unharmed => rfl
  | killed fault => exact absurd hfine fault

/-! ## Whole runs -/

/-- What the sink owes the daemon at a call: it returns as it does when nothing fails, or
with offline buffering off. -/
inductive Survived (d : Daemon α) (f : FaultyCall α) : Prop
  | works (same : faultySink d f = (.alive (pushSink d f.call).1, (pushSink d f.call).2))
  | degrades {d' : Daemon α} {log : List (Event α)} (returned : faultySink d f = (.alive d', log))
      (off : d'.queue = none)

/-- Every call of the run finds the daemon alive, and returns. -/
def SinkSurvives (d : Daemon α) (calls : List (FaultyCall α)) : Prop :=
  ∀ before f after, calls = before ++ f :: after →
    ∃ d', (lifeMachine.run (.alive d) before).1 = .alive d' ∧ Survived d' f

/-- Nothing goes wrong in a call that finds the daemon alive. -/
def FaultFree (life : Life α) (f : FaultyCall α) : Prop := ∀ d, life = .alive d → NoFault d f

/-- **One call returns exactly when nothing goes wrong in it.** -/
theorem survived_iff (d : Daemon α) (f : FaultyCall α) : Survived d f ↔ NoFault d f := by
  have hfaulted := faulted_faultySink d f
  generalize hout : faultySink d f = out at hfaulted
  cases hfaulted with
  | unharmed fine => exact iff_of_true (.works hout) fine
  | killed fault =>
    refine iff_of_false (fun h => ?_) fault
    cases h with
    | works same => exact absurd (hout.symm.trans same) (by simp)
    | degrades returned => exact absurd (hout.symm.trans returned) (by simp)

/-- A fault-free run leaves the daemon alive. -/
theorem alive_run {d : Daemon α} {calls : List (FaultyCall α)}
    (h : lifeMachine.Along FaultFree (.alive d) calls) :
    ∃ d', (lifeMachine.run (.alive d) calls).1 = .alive d' := by
  induction calls generalizing d with
  | nil => exact ⟨d, rfl⟩
  | cons f calls ih =>
    obtain ⟨hfree, hrest⟩ := h
    have hfaulted := faulted_faultySink d f
    generalize hout : faultySink d f = out at hfaulted
    cases hfaulted with
    | unharmed fine =>
      have hnext : (lifeMachine.step (.alive d) f).1 = .alive (pushSink d f.call).1 :=
        congrArg Prod.fst hout
      rw [hnext] at hrest
      rw [Machine.run_cons, hnext]
      exact ih hrest
    | killed fault => exact absurd (hfree d rfl) fault

/-- A dead process stays dead. -/
theorem run_dead (file : Option (DiskQueue α)) (files : Files) (calls : List (FaultyCall α)) :
    (lifeMachine.run (.dead file files) calls).1 = .dead file files := by
  induction calls with
  | nil => rfl
  | cons f calls ih => exact ih

/-- **What a run that ends in an exception leaves on disk**: the queue of its last call, less
rows that were delivered in it. -/
theorem leftBehind_run {d : Daemon α} {calls : List (FaultyCall α)}
    {file : Option (DiskQueue α)} {files : Files}
    (h : (lifeMachine.run (.alive d) calls).1 = .dead file files) :
    ∃ before f after d', calls = before ++ f :: after ∧
      (lifeMachine.run (.alive d) before).1 = .alive d' ∧ LeftBehind d' f.call file := by
  induction calls generalizing d with
  | nil => exact absurd h (by simp)
  | cons f calls ih =>
    have hfaulted := faulted_faultySink d f
    generalize hout : faultySink d f = out at hfaulted
    cases hfaulted with
    | unharmed fine =>
      have hnext : (lifeMachine.step (.alive d) f).1 = .alive (pushSink d f.call).1 :=
        congrArg Prod.fst hout
      rw [Machine.run_cons, hnext] at h
      obtain ⟨before, f', after, d', rfl, halive, hleft⟩ := ih h
      refine ⟨f :: before, f', after, d', rfl, ?_, hleft⟩
      rw [Machine.run_cons, hnext]
      exact halive
    | @killed fault file' files' events left =>
      have hnext : (lifeMachine.step (.alive d) f).1 = .dead file' files' := congrArg Prod.fst hout
      rw [Machine.run_cons, hnext] at h
      obtain ⟨rfl, rfl⟩ := Life.dead.inj ((run_dead file' files' calls).symm.trans h)
      exact ⟨[], f, calls, d, rfl, rfl, left⟩

/-- An outage during which the database raises at every call, as it does when the disk is
full. -/
def sampleDiskFull : FaultyCall Int :=
  ⟨sampleCall 1 .exception, Stream'.const false, Stream'.const .error⟩

end OoAgent
