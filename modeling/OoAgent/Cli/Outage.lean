import OoAgent.Buffer.Fifo
import OoAgent.Cli.Faults
import OoAgent.Lib.Window

/-!
# Outages

What the agent is for when the network is not there: payloads are kept while the server
cannot be reached and passed on once it is back, oldest first, within the bounds of the
queue.  A `relay` is that purpose and nothing else; while every call either finds the server
gone or finds it accepting, the sink is one.

* `acceptedPayloads` — what the server has accepted over a run, in order.
* `relay` — a bounded list that is emptied whenever there is a connection.
* `sink_refines_relay` — **the refinement** over all runs of outages and recoveries.
* `outage_recovered` — **one outage in closed form**: what is lost is what the bounds of the
  queue say, and nothing else.
-/

namespace OoAgent

variable {α : Type}

/-! ## What the server has accepted -/

/-- The payload of an attempt that was answered with a 2xx. -/
def Event.acceptedPayload : Event α → Option α
  | .post _ _ payload (.response r) => if r.status.accepted then some payload else none
  | _ => none

/-- The payloads the server has accepted, in order. -/
def acceptedPayloads (log : List (Event α)) : List α := log.filterMap Event.acceptedPayload

@[simp] theorem acceptedPayloads_append (l m : List (Event α)) :
    acceptedPayloads (l ++ m) = acceptedPayloads l ++ acceptedPayloads m :=
  List.filterMap_append

/-- Only posts are accepted. -/
theorem acceptedPayloads_filter_isPost (log : List (Event α)) :
    acceptedPayloads (log.filter Event.isPost) = acceptedPayloads log := by
  rw [acceptedPayloads, acceptedPayloads, List.filterMap_filter]
  refine List.filterMap_congr fun e _ => ?_
  cases e <;> simp [Event.isPost, Event.acceptedPayload]

/-- Attempts without an answer were not accepted. -/
theorem acceptedPayloads_attempts_open {origin : Origin} {token : String} {payload : α}
    {tries : List Outcome} (h : Open tries) :
    acceptedPayloads (attempts origin token payload tries) = [] := by
  refine List.filterMap_eq_nil_iff.2 fun e he => ?_
  obtain ⟨o, ho, rfl⟩ := List.mem_map.1 he
  have hopen := h o ho
  cases o with
  | exception => rfl
  | response r =>
    have hnot : r.status.accepted = false := by
      simp only [Outcome.definitive, Status.definitive, Bool.or_eq_false_iff] at hopen
      exact hopen.1
    simp [Event.acceptedPayload, hnot]

/-- An attempt that was accepted. -/
theorem acceptedPayloads_attempts_accepted {origin : Origin} {token : String} {payload : α}
    {r : Response} (h : r.status.accepted = true) :
    acceptedPayloads (attempts origin token payload [.response r]) = [payload] := by
  simp [acceptedPayloads, attempts, Event.acceptedPayload, h]

theorem acceptedPayloads_maybeSelfUpdate (d : Daemon α) (now : Time) :
    acceptedPayloads (maybeSelfUpdate d now).2 = [] := by
  refine List.filterMap_eq_nil_iff.2 fun e he => ?_
  rw [mem_maybeSelfUpdate he]
  rfl

/-! ## A server that accepts everything -/

/-- Every request is answered with a 2xx; the bodies may vary. -/
def Accepting (http : Stream' Outcome) : Prop :=
  ∀ n, ∃ r : Response, http.get n = .response r ∧ r.status.accepted = true

theorem Accepting.tail {http : Stream' Outcome} (h : Accepting http) : Accepting http.tail :=
  fun n => h (n + 1)

/-- A push against such a server is accepted at the first attempt. -/
theorem push_accepting {http : Stream' Outcome} (h : Accepting http) (c : TransportClient) :
    ∃ r : Response, r.status.accepted = true ∧
      c.push http =
        { done := true, client := c.accept r, tries := [.response r], rest := http.tail } := by
  obtain ⟨r, hhead, haccepted⟩ := h 0
  have hhead' : http.head = .response r := hhead
  refine ⟨r, haccepted, ?_⟩
  simp [TransportClient.push, pushAttempts, TransportClient.pushLoop, hhead', haccepted]

/-- The whole queue against such a server: every payload is accepted, in order. -/
theorem deliver_accepting (c : TransportClient) (rows : List (Row α)) {http : Stream' Outcome}
    (h : Accepting http) :
    (deliver c rows http).delivered = rows.map Row.id ∧
      acceptedPayloads (deliver c rows http).events = rows.map Row.payload := by
  induction rows generalizing c http with
  | nil => exact ⟨rfl, rfl⟩
  | cons row rows ih =>
    obtain ⟨r, haccepted, hpush⟩ := push_accepting h c
    have hdone : (c.push http).done = true := by rw [hpush]
    obtain ⟨hids, hpayloads⟩ := ih (c.accept r) h.tail
    rw [deliver_cons_done hdone, hpush]
    simp only [acceptedPayloads_append, hids, hpayloads,
      acceptedPayloads_attempts_accepted haccepted]
    exact ⟨rfl, rfl⟩

/-- The queue without its rows. -/
def DiskQueue.emptied (q : DiskQueue α) : DiskQueue α := q.dropFront q.len

theorem DiskQueue.rows_emptied (q : DiskQueue α) : q.emptied.rows = [] := by
  rw [emptied, rows_dropFront, len, List.drop_length]

/-- The draining part of a call against such a server. -/
theorem drainQueue_accepting {d : Daemon α} {q : DiskQueue α} (hqueue : d.queue = some q)
    {http : Stream' Outcome} (h : Accepting http) :
    (drainQueue d http).1.queue = some q.emptied ∧
      acceptedPayloads (drainQueue d http).2 = q.rows.map Row.payload := by
  simp only [drainQueue, hqueue]
  split
  · rename_i hlen
    have hrows : q.rows = [] := List.length_eq_zero_iff.1 hlen
    exact ⟨by rw [hqueue, DiskQueue.emptied, hlen, DiskQueue.dropFront_zero], by rw [hrows]; rfl⟩
  · obtain ⟨hdrained, -, -, -, hevents⟩ :=
      drain_flat (show 0 < drainBatch by decide) q d.client http
    obtain ⟨hids, hpayloads⟩ := deliver_accepting d.client q.rows h
    refine ⟨congrArg some ?_, ?_⟩
    · rw [hdrained, hids, List.length_map]
      rfl
    · rw [← acceptedPayloads_filter_isPost, hevents, hpayloads]

/-! ## One call -/

section Calls

variable [Payload α] {d : Daemon α} {q : DiskQueue α} {call : Call α}

/-- **A call while the server is gone** parks its payload. -/
theorem pushSink_down (hmode : d.reclaim = none) (hqueue : d.queue = some q)
    (hdown : answer call.http = none) :
    (pushSink d call).1.reclaim = none ∧
      (pushSink d call).1.queue =
        some (q.push call.payload call.insertedAt call.trimmedAt) ∧
      acceptedPayloads (pushSink d call).2 = [] := by
  have hundone : ((d.atCall call).client.push call.http).done = false := by
    rw [TransportClient.done_push, hdown]
    rfl
  have hparked := @enqueue_queue α _
    { d.atCall call with client := ((d.atCall call).client.push call.http).client } q hqueue call
  rw [pushSink_enrolled hmode, pushCall_undelivered hundone, hparked]
  refine ⟨hmode, rfl, ?_⟩
  have hlive : acceptedPayloads (liveEvents (d.atCall call) call) = [] :=
    acceptedPayloads_attempts_open (open_push hundone)
  rw [acceptedPayloads_append, hlive]
  rfl

/-- **A call while the server is there** passes on its payload and the whole queue behind
it. -/
theorem pushSink_up (hmode : d.reclaim = none) (hqueue : d.queue = some q)
    (hup : Accepting call.http) :
    (pushSink d call).1.reclaim = none ∧ (pushSink d call).1.queue = some q.emptied ∧
      acceptedPayloads (pushSink d call).2 = call.payload :: q.rows.map Row.payload := by
  obtain ⟨r, haccepted, hpush⟩ := push_accepting hup (d.atCall call).client
  have hdone : ((d.atCall call).client.push call.http).done = true := by rw [hpush]
  have hauth : ((d.atCall call).client.push call.http).client.authStatus = none := by
    rw [hpush]
    rfl
  have hrest : Accepting ((d.atCall call).client.push call.http).rest := by
    rw [hpush]
    exact hup.tail
  have hqueue' : (beforeDrain (d.atCall call) call).1.queue = some q :=
    (queue_beforeDrain _ _).trans hqueue
  obtain ⟨hemptied, hpayloads⟩ := drainQueue_accepting hqueue' hrest
  obtain ⟨-, -, hreclaim, -⟩ := afterAnswer_frame (d.atCall call) call
  rw [pushSink_enrolled hmode, pushCall_answered hdone hauth]
  refine ⟨hreclaim.trans hmode, hemptied, ?_⟩
  have hlive : acceptedPayloads (liveEvents (d.atCall call) call) = [call.payload] := by
    rw [liveEvents, hpush]
    exact acceptedPayloads_attempts_accepted haccepted
  have hbefore : acceptedPayloads (beforeDrain (d.atCall call) call).2 = [call.payload] := by
    rw [beforeDrain, acceptedPayloads_append, hlive, acceptedPayloads_maybeSelfUpdate]
    rfl
  rw [afterAnswer_eq, acceptedPayloads_append, hbefore, hpayloads]
  rfl

end Calls

/-! ## The relay -/

/-- What a relay is handed: a payload, and whether there is a connection to pass it on. -/
structure Parcel (α : Type) where
  payload : α
  connected : Bool
  insertedAt : ℚ
  trimmedAt : ℚ

/-- **A relay**: a bounded list that keeps what comes while there is no connection, and is
passed on behind the first payload that finds one. -/
def relay [Payload α] : Machine (Fifo α) (Parcel α) α where
  step f p :=
    if p.connected then ({ f with elements := [] }, p.payload :: f.elements.map Row.payload)
    else (f.push p.payload p.insertedAt p.trimmedAt, [])

/-- A call as a relay sees it. -/
def Call.parcel (call : Call α) : Parcel α :=
  { payload := call.payload, connected := (answer call.http).isSome
    insertedAt := call.insertedAt, trimmedAt := call.trimmedAt }

/-- The server is gone when the call makes its push, or accepts all the call sends. -/
def Steady (call : Call α) : Prop := answer call.http = none ∨ Accepting call.http

theorem answer_accepting {http : Stream' Outcome} (h : Accepting http) :
    (answer http).isSome = true := by
  obtain ⟨r, hhead, haccepted⟩ := h 0
  have hhead' : http.head = .response r := hhead
  simp [answer, pushAttempts, answerWithin, hhead', Status.definitive, haccepted]

/-- An enrolled sink whose queue is the list of a relay. -/
def Relays (d : Daemon α) (f : Fifo α) : Prop :=
  d.reclaim = none ∧ ∃ q, d.queue = some q ∧ q.toFifo = f

section Refinement

variable [Payload α]

/-- **One call**: the sink passes on what the relay does, and stays a relay. -/
theorem relays_step {d : Daemon α} {f : Fifo α} (h : Relays d f) {call : Call α}
    (hsteady : Steady call) :
    Relays (pushSink d call).1 (relay.step f call.parcel).1 ∧
      acceptedPayloads (pushSink d call).2 = (relay.step f call.parcel).2 := by
  obtain ⟨hmode, q, hqueue, rfl⟩ := h
  rcases hsteady with hdown | hup
  · have hcut : call.parcel.connected = false := by simp [Call.parcel, hdown]
    obtain ⟨hmode', hqueue', haccepted⟩ := pushSink_down hmode hqueue hdown
    simp only [relay, hcut]
    exact ⟨⟨hmode', _, hqueue', q.fifo_push _ _ _⟩, haccepted⟩
  · have hconnected : call.parcel.connected = true := answer_accepting hup
    obtain ⟨hmode', hqueue', haccepted⟩ := pushSink_up hmode hqueue hup
    simp only [relay, hconnected, if_true]
    refine ⟨⟨hmode', _, hqueue', ?_⟩, haccepted⟩
    rw [DiskQueue.toFifo, q.rows_emptied]
    rfl

/-- **The sink is a relay** over every run of outages and recoveries. -/
theorem relays_run {d : Daemon α} {f : Fifo α} (h : Relays d f) {calls : List (Call α)}
    (hsteady : ∀ call ∈ calls, Steady call) :
    Relays (sinkMachine.run d calls).1 (relay.run f (calls.map Call.parcel)).1 ∧
      acceptedPayloads (sinkMachine.run d calls).2 =
        (relay.run f (calls.map Call.parcel)).2 := by
  induction calls generalizing d f with
  | nil => exact ⟨h, rfl⟩
  | cons call calls ih =>
    obtain ⟨hnext, hstep⟩ := relays_step h (hsteady call List.mem_cons_self)
    obtain ⟨hlast, hrun⟩ := ih hnext fun c hc => hsteady c (List.mem_cons_of_mem _ hc)
    rw [List.map_cons, Machine.run_cons, Machine.run_cons, acceptedPayloads_append]
    exact ⟨hlast, congrArg₂ (· ++ ·) hstep hrun⟩

/-- **The refinement**: while every call finds the server gone or accepting, what the server
has accepted from an enrolled sink and what is left in its queue are those of a relay. -/
theorem sink_refines_relay (d : Daemon α) (q : DiskQueue α) (calls : List (Call α))
    (hmode : d.reclaim = none) (hqueue : d.queue = some q)
    (hsteady : ∀ call ∈ calls, Steady call) :
    ∃ q', (sinkMachine.run d calls).1.queue = some q' ∧
      (q'.toFifo, acceptedPayloads (sinkMachine.run d calls).2) =
        relay.run q.toFifo (calls.map Call.parcel) := by
  obtain ⟨⟨-, q', hqueue', hfifo⟩, haccepted⟩ := relays_run ⟨hmode, q, hqueue, rfl⟩ hsteady
  exact ⟨q', hqueue', Prod.ext hfifo haccepted⟩

end Refinement

/-! ## One outage -/

section Windows

variable [Payload α]

/-- The time stamp a payload is stored under. -/
def Parcel.stamp (p : Parcel α) : Ts :=
  (Payload.ts? p.payload).getD (.number (truncate p.insertedAt))

/-- What the trimming of a push keeps, by time stamp. -/
def Parcel.young (maxAge : ℚ) (p : Parcel α) (stamped : Ts × α) : Bool :=
  !stamped.1.before (truncate (p.trimmedAt - maxAge))

/-- A parcel on its way into the window of a relay. -/
def Parcel.toStep (maxAge : ℚ) (p : Parcel α) : Window.Step (Ts × α) :=
  ⟨(p.stamp, p.payload), p.young maxAge⟩

/-- A row without its number. -/
def Row.stamped (r : Row α) : Ts × α := (r.ts, r.payload)

/-- The list of a relay without its numbers. -/
def Fifo.stamped (f : Fifo α) : List (Ts × α) := f.elements.map Row.stamped

/-- A push slides the window. -/
theorem stamped_push (f : Fifo α) (p : Parcel α) :
    (f.push p.payload p.insertedAt p.trimmedAt).stamped =
      Window.slide f.maxRows f.stamped (p.toStep f.maxAge) := by
  have hall : f.stamped ++ [(p.stamp, p.payload)] =
      (f.elements ++ [Row.mk (f.numbered + 1) p.stamp p.payload]).map Row.stamped := by
    rw [List.map_append]
    rfl
  show (Fifo.dropUntil f.maxRows _).map Row.stamped =
    ((f.stamped ++ [(p.stamp, p.payload)]).filter (p.young f.maxAge)).rtake f.maxRows
  rw [hall, List.filter_map, Fifo.dropUntil_eq, Window.rtake_eq_drop, List.length_map,
    List.map_drop]
  rfl

/-- **A relay without a connection** is a window. -/
theorem stamped_outage {f : Fifo α} {parcels : List (Parcel α)}
    (hcut : ∀ p ∈ parcels, p.connected = false) :
    (relay.run f parcels).2 = [] ∧ (relay.run f parcels).1.stamped =
      (parcels.map (Parcel.toStep f.maxAge)).foldl (Window.slide f.maxRows) f.stamped := by
  induction parcels generalizing f with
  | nil => exact ⟨rfl, rfl⟩
  | cons p parcels ih =>
    have hstep : relay.step f p = (f.push p.payload p.insertedAt p.trimmedAt, []) := by
      simp [relay, hcut p List.mem_cons_self]
    obtain ⟨hout, hstamped⟩ := @ih (f.push p.payload p.insertedAt p.trimmedAt)
      fun p' hp' => hcut p' (List.mem_cons_of_mem _ hp')
    rw [Machine.run_cons, hstep]
    refine ⟨hout, hstamped.trans ?_⟩
    rw [stamped_push]
    rfl

/-! ## The closed form -/

/-- A stamp that is too old only once the other one is. -/
def Ts.NoLater (s t : Ts) : Prop := ∀ cutoff, t.before cutoff = true → s.before cutoff = true

theorem Ts.noLater_number {p q : ℚ} (h : p ≤ q) : Ts.NoLater (.number p) (.number q) := by
  intro cutoff hlt
  simp only [Ts.before, decide_eq_true_eq] at hlt ⊢
  exact h.trans_lt hlt

theorem truncate_mono {p q : ℚ} (h : p ≤ q) : truncate p ≤ truncate q := by
  unfold truncate
  by_cases hp : 0 ≤ p
  · rw [if_pos hp, if_pos (hp.trans h)]
    exact Int.floor_le_floor h
  · have hneg : p.ceil ≤ 0 := Rat.ceil_le_iff.2 (not_le.1 hp).le
    rw [if_neg hp]
    by_cases hq : 0 ≤ q
    · rw [if_pos hq]
      exact hneg.trans (Int.floor_nonneg.2 hq)
    · rw [if_neg hq]
      exact Rat.ceil_le_iff.2 (h.trans Rat.le_ceil)

theorem Ts.before_mono {s : Ts} {a b : Int} (h : a ≤ b) (hs : s.before a = true) :
    s.before b = true := by
  cases s with
  | number q =>
    simp only [Ts.before, decide_eq_true_eq] at hs ⊢
    exact hs.trans_le (by exact_mod_cast h)
  | text s => exact absurd hs (by simp [Ts.before])

/-- What a queue that was empty to begin with holds at the end of an outage: the last
payloads within its size, of those that are not too old at the last of its calls. -/
def survivors (q : DiskQueue α) (outage : List (Call α)) : List α :=
  match outage.getLast? with
  | none => []
  | some last =>
    (((outage.map Call.parcel).filter fun p =>
      last.parcel.young q.maxAge (p.stamp, p.payload)).rtake q.maxRows.toNat).map Parcel.payload

/-- **The backlog of an outage** during which neither the wall clock nor the stamps of the
payloads went back. -/
theorem backlog_outage {f : Fifo α} (hempty : f.elements = []) {parcels : List (Parcel α)}
    {last : Parcel α} (hcut : ∀ p ∈ parcels ++ [last], p.connected = false)
    (hclock : ((parcels ++ [last]).map Parcel.trimmedAt).Pairwise (· ≤ ·))
    (hstamps : ((parcels ++ [last]).map Parcel.stamp).Pairwise Ts.NoLater) :
    (relay.run f (parcels ++ [last])).1.elements.map Row.payload =
      (((parcels ++ [last]).filter fun p =>
        last.young f.maxAge (p.stamp, p.payload)).rtake f.maxRows).map Parcel.payload := by
  obtain ⟨-, hstamped⟩ := stamped_outage hcut
  have hstart : f.stamped = [] := by rw [Fifo.stamped, hempty]; rfl
  rw [hstart, List.map_append] at hstamped
  have hnarrowing : Window.Narrowing
      (parcels.map (Parcel.toStep f.maxAge) ++ [last.toStep f.maxAge]) := by
    rw [← List.map_singleton, ← List.map_append, Window.Narrowing, List.pairwise_map]
    refine (List.pairwise_map.1 hclock).imp fun hle a ha => ?_
    simp only [Parcel.toStep, Parcel.young, Bool.not_eq_true'] at ha ⊢
    by_contra hold
    have hcutoff := truncate_mono (sub_le_sub_right hle f.maxAge)
    rw [Ts.before_mono hcutoff (by simpa using hold)] at ha
    exact absurd ha (by simp)
  have hfollows : Window.Follows (last.young f.maxAge)
      ((parcels.map (Parcel.toStep f.maxAge)).map Window.Step.element) := by
    rw [List.map_append, List.pairwise_append] at hstamps
    rw [Window.Follows, List.map_map, List.pairwise_map]
    refine (List.pairwise_map.1 hstamps.1).imp fun hno hkeep => ?_
    simp only [Parcel.toStep, Function.comp_apply, Parcel.young, Bool.not_eq_true'] at hkeep ⊢
    by_contra hold
    rw [hno _ (by simpa using hold)] at hkeep
    exact absurd hkeep (by simp)
  have hfill := @Window.fill_concat _ f.maxRows _ _ hnarrowing hfollows
  have hpayloads : (relay.run f (parcels ++ [last])).1.elements.map Row.payload =
      (relay.run f (parcels ++ [last])).1.stamped.map Prod.snd := by
    rw [Fifo.stamped, List.map_map]
    rfl
  have helements : (parcels.map (Parcel.toStep f.maxAge) ++ [last.toStep f.maxAge]).map
      Window.Step.element = (parcels ++ [last]).map fun p => (p.stamp, p.payload) := by
    rw [← List.map_singleton, ← List.map_append, List.map_map]
    rfl
  rw [hpayloads, hstamped]
  show (Window.fill f.maxRows _).map Prod.snd = _
  rw [List.map_singleton, hfill, helements, List.filter_map, Window.rtake_eq_drop,
    Window.rtake_eq_drop, List.length_map, ← List.map_drop, List.map_map]
  rfl

theorem backlog_survivors {q : DiskQueue α} (hempty : q.rows = []) {outage : List (Call α)}
    (hdown : ∀ call ∈ outage, answer call.http = none)
    (hclock : (outage.map Call.trimmedAt).Pairwise (· ≤ ·))
    (hstamps : (outage.map fun call => call.parcel.stamp).Pairwise Ts.NoLater) :
    (relay.run q.toFifo (outage.map Call.parcel)).1.elements.map Row.payload =
      survivors q outage := by
  cases outage using List.reverseRecOn with
  | nil =>
    show q.rows.map Row.payload = []
    rw [hempty]
    rfl
  | append_singleton calls last =>
    have hcut : ∀ p ∈ calls.map Call.parcel ++ [last.parcel], p.connected = false := by
      rw [← List.map_singleton, ← List.map_append]
      intro p hp
      obtain ⟨call, hcall, rfl⟩ := List.mem_map.1 hp
      simp [Call.parcel, hdown call hcall]
    have hbacklog := @backlog_outage _ _ q.toFifo hempty (calls.map Call.parcel) last.parcel hcut
    rw [← List.map_singleton, ← List.map_append, List.map_map, List.map_map] at hbacklog
    simp only [survivors, List.getLast?_append, List.getLast?_singleton, Option.some_or]
    exact hbacklog hclock hstamps

/-- **One outage in closed form.**  A sink with an empty queue is handed payloads while the
server is gone; the next call finds the server accepting.  The server then accepts the
payload of that call and, behind it, the last `max_rows` of those that were still young at
the end of the outage, oldest first, each once; the queue is empty again. -/
theorem outage_recovered (d : Daemon α) (q : DiskQueue α) (outage : List (Call α))
    (recovery : Call α) (hmode : d.reclaim = none) (hqueue : d.queue = some q)
    (hempty : q.rows = []) (hdown : ∀ call ∈ outage, answer call.http = none)
    (hup : Accepting recovery.http)
    (hclock : (outage.map Call.trimmedAt).Pairwise (· ≤ ·))
    (hstamps : (outage.map fun call => call.parcel.stamp).Pairwise Ts.NoLater) :
    acceptedPayloads (sinkMachine.run d (outage ++ [recovery])).2 =
        recovery.payload :: survivors q outage ∧
      ∃ q', (sinkMachine.run d (outage ++ [recovery])).1.queue = some q' ∧ q'.rows = [] := by
  have hsteady : ∀ call ∈ outage, Steady call := fun call hcall => .inl (hdown call hcall)
  obtain ⟨⟨hmode', q', hqueue', hfifo⟩, hquiet⟩ := relays_run ⟨hmode, q, hqueue, rfl⟩ hsteady
  obtain ⟨-, hemptied, hrecovered⟩ := pushSink_up hmode' hqueue' hup
  have hnone : (relay.run q.toFifo (outage.map Call.parcel)).2 = [] := by
    refine (stamped_outage fun p hp => ?_).1
    obtain ⟨call, hcall, rfl⟩ := List.mem_map.1 hp
    simp [Call.parcel, hdown call hcall]
  have hbacklog : q'.rows.map Row.payload = survivors q outage := by
    rw [← backlog_survivors hempty hdown hclock hstamps, ← hfifo]
    rfl
  rw [Machine.run_concat, acceptedPayloads_append, hquiet, hnone, List.nil_append]
  exact ⟨hrecovered.trans (by rw [hbacklog]), _, hemptied, q'.rows_emptied⟩

end Windows

/-! ## A queue of two rows -/

/-- A queue with room for two rows no more than a day old. -/
def sampleSmallQueue : DiskQueue Int := { sampleQueue with maxRows := 2 }

/-- A daemon with little room. -/
def sampleSmall : Daemon Int := { sampleDaemon with queue := some sampleSmallQueue }

/-- Three calls without a network. -/
def sampleSilentCalls : List (Call Int) :=
  [sampleCall 1 .exception, sampleCall 2 .exception, sampleCall 3 .exception]

/-- Three payloads come in while the server is gone: the two newest reach it afterwards. -/
theorem outage_recovered_small :
    acceptedPayloads (sinkMachine.run sampleSmall
      (sampleSilentCalls ++ [sampleCall 4 (.ofStatus 200)])).2 = [4, 2, 3] := by
  have hdown : ∀ call ∈ sampleSilentCalls, answer call.http = none := by
    intro call hcall
    fin_cases hcall <;> rfl
  have hstamps : (sampleSilentCalls.map fun call => call.parcel.stamp).Pairwise Ts.NoLater := by
    have hle : ∀ a b : Int, a ≤ b → Ts.NoLater (.number a) (.number b) := fun a b h =>
      Ts.noLater_number (by exact_mod_cast h)
    refine List.pairwise_cons.2 ⟨?_, List.pairwise_cons.2 ⟨?_, List.pairwise_singleton _ _⟩⟩
    · intro t ht
      fin_cases ht
      · exact hle 1 2 (by decide)
      · exact hle 1 3 (by decide)
    · intro t ht
      fin_cases ht
      exact hle 2 3 (by decide)
  have hup : Accepting (sampleCall 4 (.ofStatus 200)).http := fun _ => ⟨_, rfl, rfl⟩
  have hrecovered := (outage_recovered sampleSmall sampleSmallQueue sampleSilentCalls
    (sampleCall 4 (.ofStatus 200)) rfl rfl rfl hdown hup (by decide +kernel) hstamps).1
  exact hrecovered.trans (by decide +kernel)

/-- The refinement at a payload that finds the server and one that does not. -/
theorem sink_refines_relay_sample :
    acceptedPayloads (sinkMachine.run sampleDaemon sampleOutage).2 = [2, 1] := by
  have hsteady : ∀ call ∈ sampleOutage, Steady call := by
    intro call hcall
    rcases List.mem_cons.1 hcall with rfl | hcall
    · exact .inl rfl
    · rw [List.mem_singleton.1 hcall]
      exact .inr fun _ => ⟨_, rfl, rfl⟩
  obtain ⟨q', -, hrun⟩ :=
    sink_refines_relay sampleDaemon sampleQueue sampleOutage rfl rfl hsteady
  exact (congrArg Prod.snd hrun).trans (by decide +kernel)

end OoAgent
