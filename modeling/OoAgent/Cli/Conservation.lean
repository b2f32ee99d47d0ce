import OoAgent.Cli.Sink

/-!
# Store and forward

A payload handed to the sink has exactly one place: it was answered once and
never posted again, or it sits in the queue once, or the queue trimmed it.  The
payload is followed through the log by a mark `me`; what one call can do to it is
a `Moved`.

* `held` — how often the queue holds the payload; `Moved` — what a call that
  delivers some other payload does to it.
* `deliver_moved`, `drainQueue_moved`, `enqueue_moved`, `sink_moved` — every path
  through a call is a `Moved`.
* `sink_entered` — the call that hands the payload in gives it its first place.
-/

namespace OoAgent

variable {α : Type}

/-! ## Places -/

/-- Where a payload ends. -/
inductive Place where
  | answered
  | queued
  | trimmed
  deriving DecidableEq, Repr

/-- What a log and a queue show of a payload in a given place: its attempts, how
often it was trimmed, how often it is queued. -/
def Fate : Place → List Outcome → Nat → Nat → Prop
  | .answered, tries, trimmed, queued => Closed tries ∧ trimmed = 0 ∧ queued = 0
  | .queued, tries, trimmed, queued => Open tries ∧ trimmed = 0 ∧ queued = 1
  | .trimmed, tries, trimmed, queued => Open tries ∧ trimmed = 1 ∧ queued = 0

/-- No payload is in two places. -/
theorem Fate.unique {p p' : Place} {tries : List Outcome} {trimmed queued : Nat}
    (h : Fate p tries trimmed queued) (h' : Fate p' tries trimmed queued) : p = p' := by
  cases p <;> cases p' <;> simp only [Fate] at h h' <;> first
    | rfl
    | exact absurd h.1 h'.1.not_open
    | exact absurd h'.1 h.1.not_open
    | omega

/-- How often the queue holds the payloads `me` picks out. -/
def held (me : α → Bool) (q : DiskQueue α) : Nat := q.rows.countP fun r => me r.payload

/-- The payload `me` picks out is in place `p` at the end of a run, which leaves that queue. -/
def At (me : α → Bool) (p : Place) (queue : Option (DiskQueue α)) (log : List (Event α)) : Prop :=
  ∃ q, queue = some q ∧ Fate p (posts me log) (trims me log) (held me q)

theorem At.unique {me : α → Bool} {p p' : Place} {queue : Option (DiskQueue α)}
    {log : List (Event α)} (h : At me p queue log) (h' : At me p' queue log) : p = p' := by
  obtain ⟨q, hq, hfate⟩ := h
  obtain ⟨q', hq', hfate'⟩ := h'
  obtain rfl : q = q' := Option.some.inj (hq.symm.trans hq')
  exact hfate.unique hfate'

/-! ## What a call can do to somebody else's payload -/

/-- What can happen to a payload the queue holds `n` times while some other payload
is delivered: the attempts made for it, how often it is trimmed, how often the
queue holds it afterwards. -/
inductive Moved : Nat → List Outcome → Nat → Nat → Prop
  /-- It stays where it is; what is not queued is not posted. -/
  | stays {n : Nat} {tries : List Outcome} (unanswered : Open tries)
      (idle : n = 0 → tries = []) : Moved n tries 0 n
  /-- It gets its answer and leaves the queue. -/
  | answered {tries : List Outcome} (answered : Closed tries) : Moved 1 tries 0 0
  /-- The queue trims it. -/
  | trimmed : Moved 1 [] 1 0

/-- A payload that is in its place stays in one. -/
theorem Fate.moved {p : Place} {tries tries' : List Outcome} {trimmed trimmed' queued queued' : Nat}
    (h : Fate p tries trimmed queued) (hmove : Moved queued tries' trimmed' queued') :
    ∃ p', Fate p' (tries ++ tries') (trimmed + trimmed') queued' := by
  cases hmove with
  | stays hopen hidle =>
    cases p with
    | answered =>
      obtain ⟨hclosed, ht, hq⟩ := h
      refine ⟨.answered, ?_, by omega, hq⟩
      rwa [hidle hq, List.append_nil]
    | queued => exact ⟨.queued, h.1.append hopen, by have := h.2.1; omega, h.2.2⟩
    | trimmed => exact ⟨.trimmed, h.1.append hopen, by have := h.2.1; omega, h.2.2⟩
  | answered hclosed =>
    cases p with
    | answered => exact absurd h.2.2 (by decide)
    | queued => exact ⟨.answered, h.1.append_closed hclosed, by have := h.2.1; omega, rfl⟩
    | trimmed => exact absurd h.2.2 (by decide)
  | trimmed =>
    cases p with
    | answered => exact absurd h.2.2 (by decide)
    | queued => exact ⟨.trimmed, h.1.append open_nil, by have := h.2.1; omega, rfl⟩
    | trimmed => exact absurd h.2.2 (by decide)

/-- What is not queued is left alone. -/
theorem Moved.of_zero {tries : List Outcome} {trimmed queued : Nat}
    (h : Moved 0 tries trimmed queued) : tries = [] ∧ trimmed = 0 ∧ queued = 0 := by
  cases h with
  | stays _ hidle => exact ⟨hidle rfl, rfl, rfl⟩

/-! ## The drain -/

/-- What one batch does to a payload it holds at most once. -/
theorem deliver_moved (me : α → Bool) (c : TransportClient) (rows : List (Row α))
    (http : Stream' Outcome) (hone : rows.countP (fun r => me r.payload) ≤ 1) :
    Moved (rows.countP fun r => me r.payload) (posts me (deliver c rows http).events) 0
      ((rows.drop (deliver c rows http).delivered.length).countP fun r => me r.payload) := by
  induction rows generalizing c http with
  | nil => exact .stays open_nil fun _ => rfl
  | cons row rows ih =>
    rw [List.countP_cons] at hone ⊢
    cases hdone : (c.push http).done with
    | false =>
      rw [deliver_cons_undelivered hdone]
      simp only [posts_attempts, List.length_nil, List.drop_zero, List.countP_cons]
      refine .stays ?_ ?_
      · split
        · exact open_push hdone
        · exact open_nil
      · intro hzero
        rw [if_neg]
        intro hme
        simp [hme] at hzero
    | true =>
      have hrest := ih (c.push http).client (c.push http).rest (by omega)
      rw [deliver_cons_done hdone]
      simp only [posts_append, posts_attempts, List.length_cons, List.drop_succ_cons]
      by_cases hme : me row.payload = true
      · -- the payload itself: nothing behind it in the batch is the same one
        simp only [hme, if_true] at hone ⊢
        have hzero : rows.countP (fun r => me r.payload) = 0 := by omega
        rw [hzero] at hrest ⊢
        obtain ⟨hposts, -, hleft⟩ := hrest.of_zero
        rw [hposts, hleft, List.append_nil]
        exact .answered (closed_push hdone)
      · simpa [hme] using hrest

/-- A drain trims nothing. -/
theorem trims_drain (me : α → Bool) (batch : Nat) (q : DiskQueue α) (c : TransportClient)
    (http : Stream' Outcome) : trims me (drain batch q c http).events = 0 := by
  refine List.sum_eq_zero_iff_forall_eq_nat.2 fun n hn => ?_
  obtain ⟨e, he, rfl⟩ := List.mem_map.1 hn
  rcases mem_drain he with ⟨id, token, payload, o, rfl⟩ | ⟨ids, rfl⟩
  · rfl
  · rfl

/-- What a drain does to a payload the queue holds at most once. -/
theorem drain_moved (me : α → Bool) {batch : Nat} (hbatch : 0 < batch) (q : DiskQueue α)
    (c : TransportClient) (http : Stream' Outcome) (hone : held me q ≤ 1) :
    Moved (held me q) (posts me (drain batch q c http).events)
      (trims me (drain batch q c http).events) (held me (drain batch q c http).queue) := by
  obtain ⟨hqueue, -, -, -, hevents⟩ := drain_flat hbatch q c http
  have hposts : posts me (drain batch q c http).events =
      posts me (deliver c q.rows http).events := by
    rw [← posts_filter_isPost, hevents]
  rw [hposts, trims_drain, hqueue, held, held, DiskQueue.rows_dropFront]
  exact deliver_moved me c q.rows http hone

/-- The draining part of a call. -/
theorem drainQueue_moved (me : α → Bool) {d : Daemon α} {q : DiskQueue α}
    (hqueue : d.queue = some q) (hone : held me q ≤ 1) (http : Stream' Outcome) :
    ∃ q', (drainQueue d http).1.queue = some q' ∧
      Moved (held me q) (posts me (drainQueue d http).2) (trims me (drainQueue d http).2)
        (held me q') := by
  simp only [drainQueue, hqueue]
  split
  · exact ⟨q, hqueue, .stays open_nil fun _ => rfl⟩
  · exact ⟨_, rfl, drain_moved me (by decide) q d.client http hone⟩

/-! ## The queue -/

/-- Parking a payload: with what was queued before, the copies left are queued or
have just been trimmed. -/
theorem enqueue_counts [Payload α] (me : α → Bool) {d : Daemon α} {q : DiskQueue α}
    (hqueue : d.queue = some q) (call : Call α) :
    ∃ q', (enqueue d call).1.queue = some q' ∧ posts me (enqueue d call).2 = [] ∧
      held me q' + trims me (enqueue d call).2 = held me q + [call.payload].countP me := by
  have hcount := q.countP_push call.payload call.insertedAt call.trimmedAt
    (fun r => me r.payload)
  simp only [enqueue, hqueue]
  exact ⟨_, rfl, rfl, hcount⟩

/-- What parking some other payload does. -/
theorem enqueue_moved [Payload α] {me : α → Bool} {d : Daemon α} {q : DiskQueue α}
    (hqueue : d.queue = some q) (hone : held me q ≤ 1) {call : Call α}
    (hother : me call.payload = false) :
    ∃ q', (enqueue d call).1.queue = some q' ∧
      Moved (held me q) (posts me (enqueue d call).2) (trims me (enqueue d call).2)
        (held me q') := by
  obtain ⟨q', hq', hposts, hcount⟩ := enqueue_counts me hqueue call
  refine ⟨q', hq', ?_⟩
  have hnone : [call.payload].countP me = 0 := by simp [hother]
  rw [hposts]
  rcases Nat.eq_zero_or_pos (trims me (enqueue d call).2) with htrims | htrims
  · have hheld : held me q' = held me q := by omega
    rw [htrims, hheld]
    exact .stays open_nil fun _ => rfl
  · have hheld : held me q = 1 := by omega
    have htrims' : trims me (enqueue d call).2 = 1 := by omega
    have hheld' : held me q' = 0 := by omega
    rw [hheld, htrims', hheld']
    exact .trimmed

/-- What parking the payload itself does: it is queued, or trimmed at once. -/
theorem enqueue_entered [Payload α] {me : α → Bool} {d : Daemon α} {q : DiskQueue α}
    (hqueue : d.queue = some q) (hfresh : held me q = 0) {call : Call α}
    (hme : me call.payload = true) :
    ∃ q', (enqueue d call).1.queue = some q' ∧ posts me (enqueue d call).2 = [] ∧
      (held me q' = 0 ∧ trims me (enqueue d call).2 = 1 ∨
        held me q' = 1 ∧ trims me (enqueue d call).2 = 0) := by
  obtain ⟨q', hq', hposts, hcount⟩ := enqueue_counts me hqueue call
  refine ⟨q', hq', hposts, ?_⟩
  rw [hfresh, List.countP_singleton, hme, if_pos rfl] at hcount
  omega

/-! ## One call -/

theorem posts_liveEvents (me : α → Bool) (d : Daemon α) (call : Call α) :
    posts me (liveEvents d call) =
      if me call.payload then (d.client.push call.http).tries else [] := by
  rw [liveEvents, ← posts_attempts me .live d.client.token]
  rfl

@[simp] theorem trims_liveEvents (me : α → Bool) (d : Daemon α) (call : Call α) :
    trims me (liveEvents d call) = 0 := by
  rw [liveEvents, ← List.singleton_append, trims_append, trims_attempts]
  rfl

/-- An update instruction concerns no payload and no queue. -/
theorem maybeSelfUpdate_quiet (me : α → Bool) (d : Daemon α) (now : Time) :
    (maybeSelfUpdate d now).1.queue = d.queue ∧ posts me (maybeSelfUpdate d now).2 = [] ∧
      trims me (maybeSelfUpdate d now).2 = 0 := by
  unfold maybeSelfUpdate
  split
  · exact ⟨rfl, rfl, rfl⟩
  · split <;> exact ⟨rfl, rfl, rfl⟩

/-- A step of the re-claim flow concerns no payload. -/
theorem enrollEvents_quiet (me : α → Bool) (s : ReclaimFlow.Step) (reply : Outcome) :
    posts me (enrollEvents s reply : List (Event α)) = [] ∧
      trims me (enrollEvents s reply : List (Event α)) = 0 := by
  cases hrequest : s.request <;> cases hraised : s.raised <;>
    simp [enrollEvents, posts, trims, Event.postOf, Event.trimsOf, hrequest, hraised]

/-- What the answered branch of a call does to the payloads in the queue. -/
theorem afterAnswer_moved (me : α → Bool) {d : Daemon α} {q : DiskQueue α}
    (hqueue : d.queue = some q) (hone : held me q ≤ 1) (call : Call α) :
    ∃ q' tries, (afterAnswer d call).1.queue = some q' ∧
      posts me (afterAnswer d call).2 = posts me (liveEvents d call) ++ tries ∧
      Moved (held me q) tries (trims me (afterAnswer d call).2) (held me q') := by
  let updated := maybeSelfUpdate
    { d with client := (d.client.push call.http).client, authFails := 0 } call.now
  let drained := drainQueue updated.1 (d.client.push call.http).rest
  obtain ⟨hupdate, hposts, htrims⟩ := maybeSelfUpdate_quiet me
    { d with client := (d.client.push call.http).client, authFails := 0 } call.now
  obtain ⟨q', hq', hmoved⟩ := drainQueue_moved me (hupdate.trans hqueue) hone
    (d.client.push call.http).rest
  refine ⟨q', posts me drained.2, hq', ?_, ?_⟩
  · show posts me (liveEvents d call ++ updated.2 ++ drained.2) = _
    rw [posts_append, posts_append, hposts, List.append_nil]
  · show Moved _ _ (trims me (liveEvents d call ++ updated.2 ++ drained.2)) _
    rw [trims_append, trims_append, trims_liveEvents, htrims, Nat.zero_add]
    exact hmoved

/-- **What a call that delivers some other payload does.** -/
theorem sink_moved [Payload α] {me : α → Bool} {d : Daemon α} {q : DiskQueue α}
    (hqueue : d.queue = some q) (hone : held me q ≤ 1) {call : Call α}
    (hother : me call.payload = false) :
    ∃ q', (pushSink d call).1.queue = some q' ∧
      Moved (held me q) (posts me (pushSink d call).2) (trims me (pushSink d call).2)
        (held me q') := by
  have hspec := pushSink_spec d call
  have hqueue' : (d.atCall call).queue = some q := hqueue
  generalize d.atCall call = d', pushSink d call = out at hspec hqueue' ⊢
  have hlive : posts me (liveEvents d' call) = [] := by rw [posts_liveEvents, hother]; rfl
  have hstays : Moved (held me q) [] 0 (held me q) := .stays open_nil fun _ => rfl
  cases hspec with
  | unenrolled =>
    obtain ⟨hposts, htrims⟩ := enrollEvents_quiet me _ call.reply
    exact ⟨q, hqueue', by rw [hposts, htrims]; exact hstays⟩
  | reenrolled =>
    obtain ⟨hposts, htrims⟩ := enrollEvents_quiet me _ call.reply
    refine ⟨q, hqueue', ?_⟩
    rw [posts_append, trims_append, hposts, htrims]
    exact hstays
  | counted =>
    refine ⟨q, hqueue', ?_⟩
    rw [hlive, trims_liveEvents]
    exact hstays
  | wiped =>
    refine ⟨q, hqueue', ?_⟩
    rw [posts_append, trims_append, hlive, trims_liveEvents]
    exact hstays
  | answered =>
    obtain ⟨q', tries, hq', hposts, hmoved⟩ := afterAnswer_moved me hqueue' hone call
    refine ⟨q', hq', ?_⟩
    rwa [hposts, hlive]
  | undelivered =>
    obtain ⟨q', hq', hmoved⟩ := enqueue_moved
      (d := { d' with client := (d'.client.push call.http).client }) hqueue' hone hother
    refine ⟨q', hq', ?_⟩
    rwa [posts_append, trims_append, hlive, trims_liveEvents, Nat.zero_add]

/-- **What the call that hands the payload in does**: the payload gets a place. -/
theorem sink_entered [Payload α] {me : α → Bool} {d : Daemon α} {q : DiskQueue α}
    (hqueue : d.queue = some q) (hfresh : held me q = 0) {call : Call α}
    (hme : me call.payload = true) (hmode : d.reclaim = none) :
    ∃ p, At me p (pushSink d call).1.queue (pushSink d call).2 := by
  have hspec := pushSink_spec d call
  have hqueue' : (d.atCall call).queue = some q := hqueue
  have hmode' : (d.atCall call).reclaim = none := hmode
  generalize d.atCall call = d', pushSink d call = out at hspec hqueue' hmode' ⊢
  have hlive : posts me (liveEvents d' call) = (d'.client.push call.http).tries := by
    rw [posts_liveEvents, hme]
    rfl
  cases hspec with
  | unenrolled mode => exact absurd (hmode'.symm.trans mode) (by simp)
  | reenrolled mode => exact absurd (hmode'.symm.trans mode) (by simp)
  | counted _ hdone =>
    refine ⟨.answered, q, hqueue', ?_, trims_liveEvents _ _ _, hfresh⟩
    rw [hlive]
    exact closed_push hdone
  | wiped _ hdone =>
    refine ⟨.answered, q, hqueue', ?_, ?_, hfresh⟩
    · rw [posts_append, hlive]
      exact (List.append_nil _).symm ▸ closed_push hdone
    · rw [trims_append, trims_liveEvents]
      rfl
  | answered _ hdone =>
    obtain ⟨q', tries, hq', hposts, hmoved⟩ :=
      afterAnswer_moved me hqueue' (by omega) call
    rw [hfresh] at hmoved
    obtain ⟨rfl, htrims, hheld⟩ := hmoved.of_zero
    refine ⟨.answered, q', hq', ?_, htrims, hheld⟩
    rw [hposts, hlive, List.append_nil]
    exact closed_push hdone
  | undelivered _ hdone =>
    obtain ⟨q', hq', hposts, hplace⟩ := enqueue_entered
      (d := { d' with client := (d'.client.push call.http).client }) hqueue' hfresh hme
    have hopen : Open (posts me (liveEvents d' call)) := by
      rw [hlive]
      exact open_push hdone
    rcases hplace with ⟨hheld, htrims⟩ | ⟨hheld, htrims⟩
    · refine ⟨.trimmed, q', hq', ?_, ?_, hheld⟩
      · rwa [posts_append, hposts, List.append_nil]
      · rw [trims_append, trims_liveEvents, htrims]
    · refine ⟨.queued, q', hq', ?_, ?_, hheld⟩
      · rwa [posts_append, hposts, List.append_nil]
      · rw [trims_append, trims_liveEvents, htrims]

end OoAgent
