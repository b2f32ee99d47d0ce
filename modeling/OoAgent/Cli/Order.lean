import OoAgent.Cli.Sink

/-!
# The order of the backlog

Buffered payloads are answered in the order in which they were queued.  All rows that
were ever in the queue form one list, `everQueued`: those it held at the start, then
those the log stored, one after the other.  When a row of it gets its answer, every row
before it has been settled: answered, or trimmed.

* `deliver_inOrder`, `answered_deliver` — one pass over the queue.
* `Tracks`, `Ordered` — the invariant: what is still in the queue is in order, and the
  rest is settled.
* `buffered_answered_in_order` — **the law**, for every answer of a run.
-/

namespace OoAgent

variable {α : Type}

/-! ## Rows in a log -/

/-- The row an event puts in the queue. -/
def Event.storedRow : Event α → Option (Row α)
  | .stored row _ => some row
  | _ => none

/-- All rows that were ever in the queue, in the order in which they were queued. -/
def everQueued (start : List (Row α)) (log : List (Event α)) : List (Row α) :=
  start ++ log.filterMap Event.storedRow

/-- A request for the row with this id got a 2xx or a 4xx. -/
def AnsweredRow (id : Nat) (log : List (Event α)) : Prop :=
  ∃ token payload outcome, .post (.queued id) token payload outcome ∈ log ∧
    outcome.definitive = true

/-- The row was trimmed. -/
def TrimmedRow (row : Row α) (log : List (Event α)) : Prop :=
  ∃ new trimmed, .stored new trimmed ∈ log ∧ row ∈ trimmed

/-- The row has been answered or trimmed. -/
def Settled (row : Row α) (log : List (Event α)) : Prop :=
  AnsweredRow row.id log ∨ TrimmedRow row log

theorem AnsweredRow.mono {id : Nat} {l m : List (Event α)} (h : AnsweredRow id l)
    (hsub : ∀ e ∈ l, e ∈ m) : AnsweredRow id m := by
  obtain ⟨token, payload, outcome, hmem, hdef⟩ := h
  exact ⟨token, payload, outcome, hsub _ hmem, hdef⟩

theorem Settled.mono {row : Row α} {l m : List (Event α)} (h : Settled row l)
    (hsub : ∀ e ∈ l, e ∈ m) : Settled row m := by
  rcases h with h | ⟨new, trimmed, hmem, hrow⟩
  · exact .inl (h.mono hsub)
  · exact .inr ⟨new, trimmed, hsub _ hmem, hrow⟩

theorem everQueued_append (start : List (Row α)) (l m : List (Event α)) :
    everQueued start (l ++ m) = everQueued (everQueued start l) m := by
  rw [everQueued, everQueued, everQueued, List.filterMap_append, List.append_assoc]

/-- Events that store nothing. -/
theorem everQueued_of_none {start : List (Row α)} {log : List (Event α)}
    (h : ∀ e ∈ log, e.storedRow = none) : everQueued start log = start := by
  rw [everQueued, List.filterMap_eq_nil_iff.2 h, List.append_nil]

/-! ## One pass over the queue -/

/-- A row delivered in a batch has been answered. -/
theorem answered_deliver (c : TransportClient) (rows : List (Row α)) (http : Stream' Outcome) :
    ∀ r ∈ rows.take (deliver c rows http).delivered.length,
      AnsweredRow r.id (deliver c rows http).events := by
  induction rows generalizing c http with
  | nil => simp
  | cons row rows ih =>
    cases hdone : (c.push http).done with
    | false =>
      rw [deliver_cons_undelivered hdone]
      simp
    | true =>
      rw [deliver_cons_done hdone]
      simp only [List.length_cons, List.take_succ_cons, List.forall_mem_cons]
      refine ⟨?_, fun r hr => (ih _ _ r hr).mono fun e he => List.mem_append_right _ he⟩
      obtain ⟨before, answer, htries, -, hdef⟩ := closed_push hdone
      refine ⟨c.token, row.payload, answer, List.mem_append_left _ ?_, hdef⟩
      rw [htries]
      exact List.mem_map_of_mem (by simp)

/-- **One pass answers in order**: when a row gets its answer, every row before it has
got one. -/
theorem deliver_inOrder {c : TransportClient} {rows : List (Row α)} {http : Stream' Outcome}
    {before after : List (Event α)} {id : Nat} {token : String} {payload : α} {outcome : Outcome}
    (hlog : (deliver c rows http).events =
      before ++ .post (.queued id) token payload outcome :: after)
    (hdef : outcome.definitive = true) :
    ∃ xs r ys, rows = xs ++ r :: ys ∧ r.id = id ∧ r.payload = payload ∧
      ∀ s ∈ xs, AnsweredRow s.id before := by
  induction rows generalizing c http before with
  | nil => exact absurd hlog (by simp)
  | cons row rows ih =>
    cases hdone : (c.push http).done with
    | false =>
      -- no attempt for this row got an answer
      rw [deliver_cons_undelivered hdone] at hlog
      have hposted : attempts (.queued row.id) c.token row.payload (c.push http).tries =
          before ++ .post (.queued id) token payload outcome :: after := hlog
      have hmem : .post (.queued id) token payload outcome ∈
          attempts (.queued row.id) c.token row.payload (c.push http).tries := by
        rw [hposted]
        simp
      obtain ⟨o, ho, heq⟩ := List.mem_map.1 hmem
      obtain ⟨-, -, -, rfl⟩ := Event.post.inj heq
      exact absurd (hdef.symm.trans (open_push hdone _ ho)) (by simp)
    | true =>
      rw [deliver_cons_done hdone] at hlog
      rcases Machine.append_eq_append_cons hlog with ⟨rest, hposted⟩ | ⟨before', rfl, hlater⟩
      · have hmem : .post (.queued id) token payload outcome ∈
            attempts (.queued row.id) c.token row.payload (c.push http).tries := by
          rw [hposted]
          simp
        obtain ⟨o, ho, heq⟩ := List.mem_map.1 hmem
        obtain ⟨hid, -, hpayload, -⟩ := Event.post.inj heq
        exact ⟨[], row, rows, rfl, by simpa using hid, hpayload, by simp⟩
      · obtain ⟨xs, r, ys, rfl, hid, hpayload, hxs⟩ := ih hlater
        refine ⟨row :: xs, r, ys, rfl, hid, hpayload, List.forall_mem_cons.2 ⟨?_, ?_⟩⟩
        · obtain ⟨first, answer, htries, -, hanswer⟩ := closed_push hdone
          refine ⟨c.token, row.payload, answer, List.mem_append_left _ ?_, hanswer⟩
          rw [htries]
          exact List.mem_map_of_mem (by simp)
        · exact fun s hs => (hxs s hs).mono fun e he => List.mem_append_right _ he

/-- A drain answers in order, too: the acknowledgements in between change nothing. -/
theorem drain_inOrder {batch : Nat} (hbatch : 0 < batch) {q : DiskQueue α} {c : TransportClient}
    {http : Stream' Outcome} {before after : List (Event α)} {id : Nat} {token : String}
    {payload : α} {outcome : Outcome}
    (hlog : (drain batch q c http).events =
      before ++ .post (.queued id) token payload outcome :: after)
    (hdef : outcome.definitive = true) :
    ∃ xs r ys, q.rows = xs ++ r :: ys ∧ r.id = id ∧ r.payload = payload ∧
      ∀ s ∈ xs, AnsweredRow s.id before := by
  obtain ⟨-, -, -, -, hevents⟩ := drain_flat hbatch q c http
  rw [hlog, List.filter_append, List.filter_cons_of_pos rfl] at hevents
  obtain ⟨xs, r, ys, hrows, hid, hpayload, hxs⟩ := deliver_inOrder hevents.symm hdef
  exact ⟨xs, r, ys, hrows, hid, hpayload,
    fun s hs => (hxs s hs).mono fun e he => List.mem_of_mem_filter he⟩

/-- What a drain takes off the queue has been answered. -/
theorem answered_drain {batch : Nat} (hbatch : 0 < batch) (q : DiskQueue α) (c : TransportClient)
    (http : Stream' Outcome) :
    ∃ n, (drain batch q c http).queue = q.dropFront n ∧
      ∀ r ∈ q.rows.take n, AnsweredRow r.id (drain batch q c http).events := by
  obtain ⟨hqueue, -, -, -, hevents⟩ := drain_flat hbatch q c http
  refine ⟨_, hqueue, fun r hr => ?_⟩
  have hanswered := answered_deliver c q.rows http r hr
  rw [← hevents] at hanswered
  exact hanswered.mono fun e he => List.mem_of_mem_filter he

/-! ## The invariant -/

/-- The rows the queue ever held, against those it holds now. -/
structure Tracks (all : List (Row α)) (log : List (Event α)) (q : DiskQueue α) : Prop where
  sorted : all.Pairwise fun r s => r.id < s.id
  bounded : ∀ r ∈ all, r.id ≤ q.seq
  sublist : q.rows.Sublist all
  settled : ∀ r ∈ all, r ∈ q.rows ∨ Settled r log

/-- The invariant of a run: there is no queue and never was a row, or the queue is
tracked. -/
structure Ordered (start : List (Row α)) (d : Daemon α) (log : List (Event α)) : Prop where
  absent : d.queue = none → everQueued start log = []
  present : ∀ q, d.queue = some q → Tracks (everQueued start log) log q

/-- Events that store nothing while the queue stays as it is. -/
theorem Ordered.keep {start : List (Row α)} {d d' : Daemon α} {log new : List (Event α)}
    (h : Ordered start d log) (hqueue : d'.queue = d.queue)
    (hnew : ∀ e ∈ new, e.storedRow = none) : Ordered start d' (log ++ new) := by
  refine ⟨fun hnone => ?_, fun q hq => ?_⟩
  · rw [everQueued_append, everQueued_of_none hnew]
    exact h.absent (hqueue.symm.trans hnone)
  · obtain ⟨hsorted, hbounded, hsublist, hsettled⟩ := h.present q (hqueue.symm.trans hq)
    rw [everQueued_append, everQueued_of_none hnew]
    refine ⟨hsorted, hbounded, hsublist, fun r hr => ?_⟩
    exact (hsettled r hr).imp_right fun h => h.mono fun e he => List.mem_append_left _ he

/-- Draining. -/
theorem Ordered.drain {start : List (Row α)} {d : Daemon α} {log : List (Event α)}
    (h : Ordered start d log) (http : Stream' Outcome) :
    Ordered start (drainQueue d http).1 (log ++ (drainQueue d http).2) := by
  have hnew : ∀ e ∈ (drainQueue d http).2, e.storedRow = none := by
    intro e he
    rcases mem_drainQueue he with ⟨id, payload, o, rfl⟩ | ⟨ids, rfl⟩
    · rfl
    · rfl
  by_cases hsame : (drainQueue d http).1.queue = d.queue
  · exact h.keep hsame hnew
  · cases hq : d.queue with
    | none => exact absurd (by simp [drainQueue, hq]) hsame
    | some q =>
      have hlen : q.len ≠ 0 := by
        intro hzero
        exact hsame (by simp [drainQueue, hq, hzero])
      have hdrained : drainQueue d http =
          ({ d with
              queue := some (OoAgent.drain drainBatch q d.client http).queue
              client := (OoAgent.drain drainBatch q d.client http).client },
            (OoAgent.drain drainBatch q d.client http).events) := by
        simp [drainQueue, hq, hlen]
      obtain ⟨n, hqueue, hanswered⟩ := answered_drain (by decide : 0 < drainBatch) q d.client http
      obtain ⟨hsorted, hbounded, hsublist, hsettled⟩ := h.present q hq
      rw [hdrained] at hnew ⊢
      refine ⟨fun hnone => absurd hnone (by simp), fun q' hq' => ?_⟩
      obtain rfl := Option.some.inj hq'
      rw [everQueued_append, everQueued_of_none hnew, hqueue]
      refine ⟨hsorted, hbounded, ?_, fun r hr => ?_⟩
      · rw [DiskQueue.rows_dropFront]
        exact (List.drop_sublist _ _).trans hsublist
      · rw [DiskQueue.rows_dropFront]
        rcases hsettled r hr with hmem | hold
        · rw [← List.take_append_drop n q.rows] at hmem
          rcases List.mem_append.1 hmem with hgone | hleft
          · exact .inr (.inl ((hanswered r hgone).mono fun e he => List.mem_append_right _ he))
          · exact .inl hleft
        · exact .inr (hold.mono fun e he => List.mem_append_left _ he)

theorem storedRow_liveEvents {d : Daemon α} {call : Call α} :
    ∀ e ∈ liveEvents d call, e.storedRow = none := by
  intro e he
  rcases mem_liveEvents he with rfl | ⟨o, rfl⟩
  · rfl
  · rfl

section Calls

variable [Payload α]

/-- Parking a payload. -/
theorem Ordered.enqueue {start : List (Row α)} {d : Daemon α} {log : List (Event α)}
    (h : Ordered start d log) (call : Call α) :
    Ordered start (enqueue d call).1 (log ++ (enqueue d call).2) := by
  cases hq : d.queue with
  | none =>
    have hnothing : OoAgent.enqueue d call = (d, []) := by simp [OoAgent.enqueue, hq]
    rw [hnothing, List.append_nil]
    exact h
  | some q =>
    obtain ⟨hsorted, hbounded, hsublist, hsettled⟩ := h.present q hq
    let row := q.newRow call.payload call.insertedAt
    let full := q.inserted call.payload call.insertedAt
    have hparked : OoAgent.enqueue d call =
        ({ d with queue := some (full.trim call.trimmedAt) },
          [.stored row (full.trimmed call.trimmedAt)]) := by
      simp [OoAgent.enqueue, hq, full, row, DiskQueue.push]
    rw [hparked]
    refine ⟨fun hnone => absurd hnone (by simp), fun q' hq' => ?_⟩
    obtain rfl := Option.some.inj hq'
    have hall : everQueued start (log ++ [.stored row (full.trimmed call.trimmedAt)]) =
        everQueued start log ++ [row] := everQueued_append _ _ _
    have hrow : row.id = q.seq + 1 := rfl
    rw [hall]
    refine ⟨?_, fun r hr => ?_, ?_, fun r hr => ?_⟩
    · refine List.pairwise_append.2 ⟨hsorted, List.pairwise_singleton _ _, fun r hr s hs => ?_⟩
      rw [List.mem_singleton.1 hs, hrow]
      exact Nat.lt_succ_of_le (hbounded r hr)
    · have hseq : (full.trim call.trimmedAt).seq = q.seq + 1 := DiskQueue.seq_trim _ _
      rw [hseq]
      rcases List.mem_append.1 hr with hr | hr
      · exact Nat.le_succ_of_le (hbounded r hr)
      · rw [List.mem_singleton.1 hr, hrow]
    · refine (DiskQueue.rows_trim_sublist _ _).trans ?_
      exact hsublist.append (List.Sublist.refl _)
    · have htrim : r ∈ full.rows → r ∈ (full.trim call.trimmedAt).rows ∨
          Settled r (log ++ [.stored row (full.trimmed call.trimmedAt)]) := by
        intro hmem
        rcases DiskQueue.mem_trim_or_trimmed hmem call.trimmedAt with hkept | hgone
        · exact .inl hkept
        · exact .inr (.inr ⟨row, full.trimmed call.trimmedAt, by simp, hgone⟩)
      rcases List.mem_append.1 hr with hr | hr
      · rcases hsettled r hr with hmem | hold
        · exact htrim (List.mem_append_left _ hmem)
        · exact .inr (hold.mono fun e he => List.mem_append_left _ he)
      · exact htrim (List.mem_append_right _ hr)

/-- **One call keeps the invariant.** -/
theorem ordered_step {start : List (Row α)} {d : Daemon α} {log : List (Event α)}
    (h : Ordered start d log) (call : Call α) :
    Ordered start (pushSink d call).1 (log ++ (pushSink d call).2) := by
  have hspec := pushSink_spec d call
  have h' : Ordered start (d.atCall call) log := ⟨h.absent, h.present⟩
  generalize d.atCall call = d', pushSink d call = out at hspec h' ⊢
  have hlive : ∀ e ∈ liveEvents d' call, e.storedRow = none := storedRow_liveEvents
  have henroll : ∀ s, ∀ e ∈ (enrollEvents s call.reply : List (Event α)), e.storedRow = none := by
    intro s e he
    rcases mem_enrollEvents he with ⟨request, rfl⟩ | rfl
    · rfl
    · rfl
  cases hspec with
  | unenrolled => exact h'.keep rfl (henroll _)
  | reenrolled =>
    refine h'.keep rfl (List.forall_mem_append.2 ⟨henroll _, ?_⟩)
    simp [Event.storedRow]
  | counted => exact h'.keep rfl hlive
  | wiped =>
    refine h'.keep rfl (List.forall_mem_append.2 ⟨hlive, ?_⟩)
    simp [Event.storedRow]
  | answered =>
    have hfront : Ordered start (beforeDrain d' call).1 (log ++ (beforeDrain d' call).2) := by
      refine h'.keep (queue_beforeDrain d' call) fun e he => ?_
      rcases mem_beforeDrain he with he | rfl
      · exact hlive e he
      · rfl
    have hdrained := hfront.drain (d'.client.push call.http).rest
    rw [List.append_assoc] at hdrained
    exact hdrained
  | undelivered =>
    have hpushed : Ordered start { d' with client := (d'.client.push call.http).client }
        (log ++ liveEvents d' call) := h'.keep rfl hlive
    have hparked := hpushed.enqueue call
    rwa [List.append_assoc] at hparked

end Calls

/-! ## The law -/

/-- What the law asks of an event, given the log before it: when a row gets its answer,
it is one of the rows that were queued, and every row queued before it is settled. -/
def AnswersInOrder (start : List (Row α)) (before : List (Event α)) : Event α → Prop
  | .post (.queued id) _ payload outcome => outcome.definitive = true →
      ∃ xs r ys, everQueued start before = xs ++ r :: ys ∧ r.id = id ∧ r.payload = payload ∧
        ∀ s ∈ xs, Settled s before
  | _ => True

/-- Only a drain answers rows of the queue. -/
theorem AnswersInOrder.of_ne {start : List (Row α)} {before : List (Event α)} {e : Event α}
    (h : ∀ id token payload o, e ≠ .post (.queued id) token payload o) :
    AnswersInOrder start before e := by
  cases e with
  | post origin token payload o =>
    cases origin with
    | live => trivial
    | queued id => exact absurd rfl (h id token payload o)
  | _ => trivial

/-- In rows sorted by id, one of a smaller id stands before. -/
theorem mem_front_of_id_lt {xs ys : List (Row α)} {r s : Row α}
    (hsorted : (xs ++ r :: ys).Pairwise fun r s => r.id < s.id) (hs : s ∈ xs ++ r :: ys)
    (hlt : s.id < r.id) : s ∈ xs := by
  rcases List.mem_append.1 hs with hbefore | hafter
  · exact hbefore
  · rcases List.mem_cons.1 hafter with rfl | hafter
    · exact absurd hlt (lt_irrefl _)
    · have hgt := (List.pairwise_cons.1 (List.pairwise_append.1 hsorted).2.1).1 s hafter
      exact absurd hlt (Nat.lt_asymm hgt)

/-- A drain answers rows in order. -/
theorem Ordered.answers {start : List (Row α)} {d : Daemon α} {log : List (Event α)}
    (h : Ordered start d log) {http : Stream' Outcome} {done rest : List (Event α)} {e : Event α}
    (hlog : (drainQueue d http).2 = done ++ e :: rest) : AnswersInOrder start (log ++ done) e := by
  by_cases hpost : ∀ id token payload o, e ≠ .post (.queued id) token payload o
  · exact .of_ne hpost
  · push Not at hpost
    obtain ⟨id, token, payload, o, rfl⟩ := hpost
    intro hdef
    have hnew : ∀ e ∈ done, e.storedRow = none := by
      intro e he
      have hmem : e ∈ (drainQueue d http).2 := by
        rw [hlog]
        exact List.mem_append_left _ he
      rcases mem_drainQueue hmem with ⟨id, payload, o, rfl⟩ | ⟨ids, rfl⟩
      · rfl
      · rfl
    unfold drainQueue at hlog
    split at hlog
    · exact absurd hlog (by simp)
    · rename_i q hq
      split at hlog
      · exact absurd hlog (by simp)
      · obtain ⟨xs, r, ys, hrows, hid, hpayload, hxs⟩ := drain_inOrder (by decide) hlog hdef
        obtain ⟨hsorted, hbounded, hsublist, hsettled⟩ := h.present q hq
        have hmem : r ∈ everQueued start log := hsublist.subset (by rw [hrows]; simp)
        obtain ⟨earlier, later, hall⟩ := List.append_of_mem hmem
        rw [everQueued_append, everQueued_of_none hnew]
        refine ⟨earlier, r, later, hall, hid, hpayload, fun s hs => ?_⟩
        -- an earlier row still in the queue stands before this one in it
        have hlt : s.id < r.id := by
          rw [hall] at hsorted
          exact (List.pairwise_append.1 hsorted).2.2 s hs r (by simp)
        rcases hsettled s (by rw [hall]; exact List.mem_append_left _ hs) with hqueued | hold
        · have hbefore := mem_front_of_id_lt (hrows ▸ q.sorted) (hrows ▸ hqueued) hlt
          exact .inl ((hxs s hbefore).mono fun e he => List.mem_append_right _ he)
        · exact hold.mono fun e he => List.mem_append_left _ he

/-- The live payload is no row of the queue. -/
theorem answers_liveEvents {start : List (Row α)} {before : List (Event α)} {d : Daemon α}
    {call : Call α} {e : Event α} (he : e ∈ liveEvents d call) : AnswersInOrder start before e := by
  rcases mem_liveEvents he with rfl | ⟨o, rfl⟩
  · trivial
  · trivial

/-- A step of the re-claim flow posts no payload. -/
theorem answers_enrollEvents {start : List (Row α)} {before : List (Event α)}
    {s : ReclaimFlow.Step} {reply : Outcome} {e : Event α}
    (he : e ∈ (enrollEvents s reply : List (Event α))) : AnswersInOrder start before e := by
  rcases mem_enrollEvents he with ⟨request, rfl⟩ | rfl
  · trivial
  · trivial

/-- What follows an answer keeps the law. -/
theorem Ordered.answers_afterAnswer {start : List (Row α)} {d : Daemon α} {log : List (Event α)}
    (h : Ordered start d log) {call : Call α} {done rest : List (Event α)} {e : Event α}
    (hlog : (afterAnswer d call).2 = done ++ e :: rest) : AnswersInOrder start (log ++ done) e := by
  have hstored : ∀ e ∈ (beforeDrain d call).2, e.storedRow = none := by
    intro e he
    rcases mem_beforeDrain he with he | rfl
    · exact storedRow_liveEvents e he
    · rfl
  rw [afterAnswer_eq] at hlog
  rcases Machine.append_eq_append_cons hlog with ⟨rest', hearly⟩ | ⟨done', rfl, hdrain⟩
  · have hfront : e ∈ (beforeDrain d call).2 := by rw [hearly]; simp
    rcases mem_beforeDrain hfront with he | rfl
    · exact answers_liveEvents he
    · trivial
  · have hdrained : Ordered start (beforeDrain d call).1 (log ++ (beforeDrain d call).2) :=
      h.keep (queue_beforeDrain d call) hstored
    have hanswers := hdrained.answers hdrain
    rwa [List.append_assoc] at hanswers

/-- One call keeps the law. -/
theorem answers_step [Payload α] {start : List (Row α)} {d : Daemon α} {log : List (Event α)}
    (h : Ordered start d log) {call : Call α} {done rest : List (Event α)} {e : Event α}
    (hlog : (pushSink d call).2 = done ++ e :: rest) : AnswersInOrder start (log ++ done) e := by
  have hspec := pushSink_spec d call
  have h' : Ordered start (d.atCall call) log := ⟨h.absent, h.present⟩
  have hmem : e ∈ (pushSink d call).2 := by rw [hlog]; simp
  generalize d.atCall call = d', pushSink d call = out at hspec hlog hmem h'
  cases hspec with
  | unenrolled => exact answers_enrollEvents hmem
  | reenrolled =>
    rcases List.mem_append.1 hmem with hmem | hmem
    · exact answers_enrollEvents hmem
    · rw [List.mem_singleton.1 hmem]
      trivial
  | counted => exact answers_liveEvents hmem
  | wiped =>
    rcases List.mem_append.1 hmem with hmem | hmem
    · exact answers_liveEvents hmem
    · rw [List.mem_singleton.1 hmem]
      trivial
  | answered => exact h'.answers_afterAnswer hlog
  | undelivered =>
    rcases List.mem_append.1 hmem with hmem | hmem
    · exact answers_liveEvents hmem
    · obtain ⟨row, trimmed, rfl⟩ := mem_enqueue hmem
      trivial

/-- The rows the daemon finds in its queue. -/
def Daemon.backlog (d : Daemon α) : List (Row α) := (d.queue.map DiskQueue.rows).getD []

theorem ordered_start (d : Daemon α) : Ordered d.backlog d [] := by
  refine ⟨fun hnone => ?_, fun q hq => ?_⟩
  · simp [everQueued, Daemon.backlog, hnone]
  · have hrows : everQueued d.backlog [] = q.rows := by simp [everQueued, Daemon.backlog, hq]
    rw [hrows]
    exact ⟨q.sorted, q.bounded, List.Sublist.refl _, fun r hr => .inl hr⟩

/-- **Buffered payloads are answered in queue order.**  In every run, whenever a
buffered payload gets its answer, every payload queued before it has already been
answered or trimmed; the ids tell the payloads apart. -/
theorem buffered_answered_in_order [Payload α] (d : Daemon α) (calls : List (Call α)) :
    ((everQueued d.backlog (sinkMachine.run d calls).2).map Row.id).Nodup ∧
      ∀ before after id token payload outcome,
        (sinkMachine.run d calls).2 =
            before ++ .post (.queued id) token payload outcome :: after →
          outcome.definitive = true →
            ∃ xs r ys, everQueued d.backlog before = xs ++ r :: ys ∧ r.id = id ∧
              r.payload = payload ∧ ∀ s ∈ xs, Settled s before := by
  constructor
  · have hordered : Ordered d.backlog (sinkMachine.run d calls).1 (sinkMachine.run d calls).2 :=
      sinkMachine.run_invariant' (I := Ordered d.backlog) (fun _ _ call h => ordered_step h call)
        calls (ordered_start d)
    cases hq : (sinkMachine.run d calls).1.queue with
    | none =>
      rw [hordered.absent hq]
      exact List.nodup_nil
    | some q =>
      exact List.pairwise_map.2 ((hordered.present q hq).sorted.imp Nat.ne_of_lt)
  · intro before after id token payload outcome hlog
    exact sinkMachine.run_outputs (I := Ordered d.backlog) (P := AnswersInOrder d.backlog)
      (fun _ _ call h => ordered_step h call) (fun _ _ _ _ _ _ h hlog => answers_step h hlog)
      (ordered_start d) hlog

end OoAgent
