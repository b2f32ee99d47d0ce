import OoAgent.Lib.Machine
import OoAgent.Transport.Drain

/-!
# Drains that are killed

`drain` acknowledges a batch after the network calls it took, and the queue is
durable at each commit.  A process killed during a drain has done a prefix of its
events; what the next process finds on disk is the queue as the commits of that
prefix left it.

* `drainLoop_prefix` — every prefix of a drain takes answered rows off the front of
  the queue, and answers at most one batch beyond them.
* `mem_reposts_deliver` — within one drain no row is posted again once answered.
* `crash_safe_drain` — **any number of kills and restarts**: nothing is lost, rows
  leave in queue order, and what is posted again after it was answered was left
  behind by one kill, which leaves at most a batch behind.
-/

namespace OoAgent

variable {α : Type}

/-! ## Rows in a log -/

/-- The row an event posts, and what the attempt came to. -/
def Event.rowPost : Event α → Option (Nat × Outcome)
  | .post (.queued id) _ _ outcome => some (id, outcome)
  | _ => none

/-- The row an event answers. -/
def Event.rowAnswer (e : Event α) : Option Nat :=
  e.rowPost.bind fun p => if p.2.definitive then some p.1 else none

/-- The rows answered in a log. -/
def answeredIds (log : List (Event α)) : List Nat := log.filterMap Event.rowAnswer

/-- The rows posted in a log although an answer to them was already seen, in it or
before it. -/
def reposts : List Nat → List (Event α) → List Nat
  | _, [] => []
  | seen, e :: es =>
    (e.rowPost.map Prod.fst).toList.filter (· ∈ seen) ++ reposts (seen ++ e.rowAnswer.toList) es

@[simp] theorem answeredIds_append (l m : List (Event α)) :
    answeredIds (l ++ m) = answeredIds l ++ answeredIds m := List.filterMap_append

theorem reposts_append (seen : List Nat) (l m : List (Event α)) :
    reposts seen (l ++ m) = reposts seen l ++ reposts (seen ++ answeredIds l) m := by
  induction l generalizing seen with
  | nil => simp [reposts, answeredIds]
  | cons e l ih =>
    have hanswered : answeredIds (e :: l) = e.rowAnswer.toList ++ answeredIds l := by
      cases h : e.rowAnswer <;> simp [answeredIds, h]
    rw [List.cons_append, reposts, ih, reposts, hanswered, List.append_assoc, List.append_assoc]

/-! ## One push -/

theorem answeredIds_open {tries : List Outcome} (h : Open tries) (id : Nat) (token : String)
    (payload : α) : answeredIds (attempts (.queued id) token payload tries) = [] := by
  rw [answeredIds, attempts, List.filterMap_map, List.filterMap_eq_nil_iff]
  intro o ho
  simp [Event.rowAnswer, Event.rowPost, h o ho]

theorem answeredIds_closed {tries : List Outcome} (h : Closed tries) (id : Nat) (token : String)
    (payload : α) : answeredIds (attempts (.queued id) token payload tries) = [id] := by
  obtain ⟨before, answer, rfl, hopen, hanswer⟩ := h
  rw [attempts, List.map_append, answeredIds_append]
  have hbefore := answeredIds_open hopen id token payload
  rw [attempts] at hbefore
  rw [hbefore]
  simp [answeredIds, Event.rowAnswer, Event.rowPost, hanswer]

/-- One push repeats its row only if the row was answered before it. -/
theorem mem_reposts_attempts {tries : List Outcome} (h : Open tries ∨ Closed tries)
    {seen : List Nat} {id id' : Nat} {token : String} {payload : α}
    (hmem : id' ∈ reposts seen (attempts (.queued id) token payload tries)) :
    id' = id ∧ id ∈ seen := by
  have hopen : ∀ {tries : List Outcome}, Open tries →
      id' ∈ reposts seen (attempts (.queued id) token payload tries) → id' = id ∧ id ∈ seen := by
    intro tries hopen hmem
    induction tries with
    | nil => exact absurd hmem List.not_mem_nil
    | cons o tries ih =>
      have ho : o.definitive = false := hopen o List.mem_cons_self
      have hrest : Open tries := fun o ho => hopen o (List.mem_cons_of_mem _ ho)
      simp only [attempts, List.map_cons, reposts, Event.rowPost, Event.rowAnswer, ho,
        Option.map_some, Option.toList_some, Option.bind_some, Bool.false_eq_true, if_false,
        Option.toList_none, List.append_nil, List.mem_append, List.mem_filter,
        List.mem_singleton, decide_eq_true_eq] at hmem
      rcases hmem with ⟨rfl, hseen⟩ | hmem
      · exact ⟨rfl, hseen⟩
      · exact ih hrest hmem
  rcases h with h | ⟨before, answer, rfl, hbefore, -⟩
  · exact hopen h hmem
  · rw [attempts, List.map_append, reposts_append, List.mem_append] at hmem
    rcases hmem with hmem | hmem
    · exact hopen hbefore hmem
    · have hnone := answeredIds_open hbefore id token payload
      rw [attempts] at hnone
      rw [hnone, List.append_nil] at hmem
      simp only [List.map_singleton, reposts, Event.rowPost, Option.map_some, Option.toList_some,
        List.append_nil, List.mem_filter, List.mem_singleton, decide_eq_true_eq] at hmem
      exact ⟨hmem.1, hmem.1 ▸ hmem.2⟩

theorem open_or_closed_push (c : TransportClient) (http : Stream' Outcome) :
    Open (c.push http).tries ∨ Closed (c.push http).tries := by
  cases h : (c.push http).done with
  | false => exact .inl (open_push h)
  | true => exact .inr (closed_push h)

/-! ## One batch -/

/-- A batch answers exactly what it delivers. -/
theorem answeredIds_deliver (c : TransportClient) (rows : List (Row α)) (http : Stream' Outcome) :
    answeredIds (deliver c rows http).events = (deliver c rows http).delivered := by
  induction rows generalizing c http with
  | nil => rfl
  | cons row rows ih =>
    cases hdone : (c.push http).done with
    | true =>
      rw [deliver_cons_done hdone]
      simp only [answeredIds_append, answeredIds_closed (closed_push hdone), ih]
      rfl
    | false =>
      rw [deliver_cons_undelivered hdone]
      exact answeredIds_open (open_push hdone) _ _ _

/-- Within one batch no row is posted again once answered: what is repeated was
answered before. -/
theorem mem_reposts_deliver {c : TransportClient} {rows : List (Row α)} {http : Stream' Outcome}
    (hnodup : (rows.map Row.id).Nodup) {seen : List Nat} {id : Nat}
    (h : id ∈ reposts seen (deliver c rows http).events) : id ∈ seen ∧ id ∈ rows.map Row.id := by
  induction rows generalizing c http seen with
  | nil => exact absurd h List.not_mem_nil
  | cons row rows ih =>
    rw [List.map_cons, List.nodup_cons] at hnodup
    cases hdone : (c.push http).done with
    | false =>
      rw [deliver_cons_undelivered hdone] at h
      obtain ⟨rfl, hseen⟩ := mem_reposts_attempts (.inl (open_push hdone)) h
      exact ⟨hseen, List.mem_cons_self⟩
    | true =>
      rw [deliver_cons_done hdone] at h
      simp only [reposts_append, List.mem_append] at h
      rcases h with h | h
      · obtain ⟨rfl, hseen⟩ := mem_reposts_attempts (open_or_closed_push c http) h
        exact ⟨hseen, List.mem_cons_self⟩
      · rw [answeredIds_closed (closed_push hdone)] at h
        obtain ⟨hseen, hid⟩ := ih hnodup.2 h
        refine ⟨?_, List.mem_cons_of_mem _ hid⟩
        rcases List.mem_append.1 hseen with hseen | hseen
        · exact hseen
        · rw [List.mem_singleton.1 hseen] at hid
          exact absurd hid hnodup.1

/-! ## The loop, cut short -/

/-- What a prefix of a drain did to the queue `q`: it took `k` rows off the front,
all of them answered, and answered at most `batch` rows beyond them. -/
def DrainedTo (batch : Nat) (q : DiskQueue α) (log : List (Event α)) : Prop :=
  ∃ k, q.commits log = q.dropFront k ∧ (∀ r ∈ q.rows.take k, r.id ∈ answeredIds log) ∧
    ∀ id ∈ answeredIds log, ∃ r ∈ q.rows.take (k + batch), r.id = id

theorem commits_take_deliver (q : DiskQueue α) (c : TransportClient) (rows : List (Row α))
    (http : Stream' Outcome) (cut : Nat) :
    q.commits ((deliver c rows http).events.take cut) = q := by
  have hposts : ∀ log : List (Event α), (∀ e ∈ log, e.isPost = true) → q.commits log = q := by
    intro log
    induction log with
    | nil => exact fun _ => rfl
    | cons e log ih =>
      intro h
      have he := h e List.mem_cons_self
      have hrest := ih fun e he => h e (List.mem_cons_of_mem _ he)
      cases e <;> first | exact hrest | exact absurd he (by simp [Event.isPost])
  refine hposts _ fun e he => ?_
  obtain ⟨id, token, payload, o, rfl⟩ := mem_deliver (List.mem_of_mem_take he)
  rfl

/-- Cut inside a batch, nothing has been committed. -/
theorem drainedTo_batch (batch : Nat) (q : DiskQueue α) (c : TransportClient)
    (http : Stream' Outcome) (cut : Nat) :
    DrainedTo batch q ((deliver c (q.peek batch) http).events.take cut) := by
  refine ⟨0, ?_, fun r hr => absurd hr (by simp), ?_⟩
  · rw [commits_take_deliver, DiskQueue.dropFront_zero]
  · intro id hid
    have hfull : id ∈ answeredIds (deliver c (q.peek batch) http).events := by
      rw [← List.take_append_drop cut (deliver c (q.peek batch) http).events, answeredIds_append]
      exact List.mem_append_left _ hid
    rw [answeredIds_deliver, deliver_delivered] at hfull
    obtain ⟨r, hr, rfl⟩ := List.mem_map.1 hfull
    rw [Nat.zero_add]
    exact ⟨r, List.mem_of_mem_take hr, rfl⟩

/-- A batch that is acknowledged, and a prefix of what comes after it. -/
theorem drainedTo_acked {batch : Nat} {q : DiskQueue α} {c : TransportClient}
    {http : Stream' Outcome} {rest : List (Event α)}
    (hrest : DrainedTo batch (q.ack (deliver c (q.peek batch) http).delivered) rest) :
    DrainedTo batch q ((deliver c (q.peek batch) http).events ++
      .acked (deliver c (q.peek batch) http).delivered :: rest) := by
  have hack := ack_deliver batch q c http
  have hanswered := answeredIds_deliver c (q.peek batch) http
  have hids := deliver_delivered c (q.peek batch) http
  have hle := deliver_length_le c (q.peek batch) http
  have hcommits := commits_deliver q c (q.peek batch) http
  generalize deliver c (q.peek batch) http = b at *
  obtain ⟨k, hqueue, hgone, hbeyond⟩ := hrest
  have hpeek := DiskQueue.take_peek hle
  rw [hpeek] at hids
  rw [hack, DiskQueue.rows_dropFront] at hgone hbeyond
  have hlog : answeredIds (b.events ++ .acked b.delivered :: rest) =
      b.delivered ++ answeredIds rest := by
    rw [answeredIds_append, hanswered]
    rfl
  refine ⟨b.delivered.length + k, ?_, ?_, ?_⟩
  · rw [DiskQueue.commits_append, hcommits, ← DiskQueue.dropFront_dropFront, ← hack, ← hqueue,
      DiskQueue.ack_eq]
    rfl
  · intro r hr
    rw [hlog, List.mem_append]
    rw [List.take_add, List.mem_append] at hr
    rcases hr with hr | hr
    · refine .inl ?_
      rw [hids]
      exact List.mem_map_of_mem hr
    · exact .inr (hgone r hr)
  · intro id hid
    rw [hlog, List.mem_append] at hid
    rcases hid with hid | hid
    · rw [hids] at hid
      obtain ⟨r, hr, rfl⟩ := List.mem_map.1 hid
      exact ⟨r, List.take_subset_take_left _ (by omega) hr, rfl⟩
    · obtain ⟨r, hr, rfl⟩ := hbeyond id hid
      refine ⟨r, ?_, rfl⟩
      rw [Nat.add_assoc, List.take_add]
      exact List.mem_append_right _ hr

/-- **Every prefix of a drain.** -/
theorem drainLoop_prefix (batch fuel : Nat) (q : DiskQueue α) (c : TransportClient)
    (http : Stream' Outcome) (cut : Nat) :
    DrainedTo batch q ((drainLoop batch fuel q c http).events.take cut) := by
  have hnothing : ∀ q : DiskQueue α, DrainedTo batch q [] := fun q =>
    ⟨0, q.dropFront_zero.symm, fun r hr => absurd hr (by simp),
      fun id hid => absurd hid List.not_mem_nil⟩
  induction fuel generalizing q c http cut with
  | zero =>
    rw [drainLoop, List.take_nil]
    exact hnothing q
  | succ fuel ih =>
    simp only [drainLoop]
    split
    · rw [List.take_nil]
      exact hnothing q
    · rename_i hrows
      by_cases hcut : cut ≤ (deliver c (q.peek batch) http).events.length
      · -- killed among the pushes of this batch
        have hinside := drainedTo_batch batch q c http cut
        split
        · rwa [List.take_append_of_le_length hcut]
        · rwa [List.append_assoc, List.take_append_of_le_length hcut]
      · -- killed after them: the acknowledgement, if there is one, is on disk
        obtain ⟨m, hm⟩ := Nat.exists_eq_add_of_lt (not_le.1 hcut)
        have htake : ∀ (e : Event α) rest,
            ((deliver c (q.peek batch) http).events ++ e :: rest).take cut =
              (deliver c (q.peek batch) http).events ++ e :: rest.take m := by
          intro e rest
          rw [hm, Nat.add_assoc, List.take_length_add_append, List.take_succ_cons]
        have hack : (deliver c (q.peek batch) http).delivered ≠ [] →
            ackEvents (deliver c (q.peek batch) http).delivered =
              [Event.acked (α := α) (deliver c (q.peek batch) http).delivered] := by
          intro hne
          rw [ackEvents, if_neg (by simpa using hne)]
        by_cases hnone : (deliver c (q.peek batch) http).delivered = []
        · have hstops : (deliver c (q.peek batch) http).delivered.length <
              (q.peek batch).length := by
            rw [hnone]
            exact List.length_pos_of_ne_nil (by simpa using hrows)
          have hall := drainedTo_batch batch q c http cut
          rw [List.take_of_length_le (by omega)] at hall
          rw [if_pos hstops]
          simp only [hnone, ackEvents, List.isEmpty_nil, if_true, List.append_nil]
          rwa [List.take_of_length_le (by omega)]
        · rw [hack hnone]
          split
          · rw [htake, List.take_nil]
            exact drainedTo_acked (hnothing _)
          · rw [List.append_assoc, List.singleton_append, htake]
            exact drainedTo_acked (ih _ _ _ _)

theorem drain_prefix (batch : Nat) (q : DiskQueue α) (c : TransportClient)
    (http : Stream' Outcome) (cut : Nat) :
    DrainedTo batch q ((drain batch q c http).events.take cut) :=
  drainLoop_prefix _ _ _ _ _ _

/-- A drain that is not killed leaves no answered row behind. -/
theorem not_mem_answeredIds_drain {batch : Nat} (hbatch : 0 < batch) (q : DiskQueue α)
    (c : TransportClient) (http : Stream' Outcome) {r : Row α}
    (hr : r ∈ (q.commits (drain batch q c http).events).rows) :
    r.id ∉ answeredIds (drain batch q c http).events := by
  obtain ⟨hqueue, -, -, -, hevents⟩ := drain_flat hbatch q c http
  have hanswered : answeredIds (drain batch q c http).events =
      (deliver c q.rows http).delivered := by
    rw [← answeredIds_deliver, ← hevents, answeredIds, answeredIds, List.filterMap_filter]
    refine List.filterMap_congr fun e _ => ?_
    cases e <;> simp [Event.isPost, Event.rowAnswer, Event.rowPost]
  have hids := deliver_delivered c q.rows http
  rw [commits_drain, hqueue, DiskQueue.rows_dropFront] at hr
  rw [hanswered, hids]
  have hnodup := q.ids_nodup
  rw [← List.take_append_drop (deliver c q.rows http).delivered.length q.rows, List.map_append,
    List.nodup_append] at hnodup
  intro hmem
  exact hnodup.2.2 _ hmem _ (List.mem_map_of_mem hr) rfl

/-! ## Kills and restarts -/

/-- A process that drains the queue and is killed after some of its events. -/
structure Session where
  client : TransportClient
  http : Stream' Outcome
  /-- How many events the process survives. -/
  survives : Nat

namespace Session

/-- Everything the process would do. -/
def planned (batch : Nat) (q : DiskQueue α) (s : Session) : List (Event α) :=
  (drain batch q s.client s.http).events

/-- What it does. -/
def events (batch : Nat) (q : DiskQueue α) (s : Session) : List (Event α) :=
  (s.planned batch q).take s.survives

/-- The process was killed before its drain was over. -/
def killed (batch : Nat) (q : DiskQueue α) (s : Session) : Prop :=
  s.survives < (s.planned batch q).length

/-- The rows the process got answered but left in the queue. -/
def leftBehind (batch : Nat) (q : DiskQueue α) (s : Session) : Finset Nat :=
  (answeredIds (s.events batch q)).toFinset ∩
    ((q.commits (s.events batch q)).rows.map Row.id).toFinset

end Session

/-- One process after the other; the next one finds the queue as the commits of the
last one left it. -/
def drainMachine (batch : Nat) : Machine (DiskQueue α) Session (Event α) :=
  ⟨fun q s => (q.commits (s.events batch q), s.events batch q)⟩

/-- The row was left behind, answered, by one of the killed processes. -/
def LeftBehindByKill (batch : Nat) (q : DiskQueue α) (sessions : List Session) (id : Nat) : Prop :=
  ∃ before s after, sessions = before ++ s :: after ∧
    s.killed batch ((drainMachine batch).run q before).1 ∧
    id ∈ s.leftBehind batch ((drainMachine batch).run q before).1

/-- What a queue that is drained by processes that may be killed is promised. -/
structure CrashSafe (batch : Nat) (q : DiskQueue α) (sessions : List Session) : Prop where
  /-- What is still queued is the end of the queue: rows leave in order. -/
  inOrder : ∃ n, ((drainMachine batch).run q sessions).1 = q.dropFront n
  /-- Every row is still queued, or it was answered. -/
  accounted : ∀ r ∈ q.rows, r ∈ ((drainMachine batch).run q sessions).1.rows ∨
    r.id ∈ answeredIds ((drainMachine batch).run q sessions).2
  /-- What is posted again after it was answered was left behind by a kill. -/
  repeated : ∀ id ∈ reposts [] ((drainMachine batch).run q sessions).2,
    LeftBehindByKill batch q sessions id
  /-- A kill leaves at most a batch behind. -/
  bounded : ∀ before s after, sessions = before ++ s :: after →
    (s.leftBehind batch ((drainMachine batch).run q before).1).card ≤ batch

theorem LeftBehindByKill.concat {batch : Nat} {q : DiskQueue α} {sessions : List Session} {id : Nat}
    (h : LeftBehindByKill batch q sessions id) (s : Session) :
    LeftBehindByKill batch q (sessions ++ [s]) id := by
  obtain ⟨before, s', after, rfl, hkilled, hid⟩ := h
  exact ⟨before, s', after ++ [s], by simp, hkilled, hid⟩

/-- A process leaves at most a batch of answered rows behind. -/
theorem card_leftBehind_le (batch : Nat) (q : DiskQueue α) (s : Session) :
    (s.leftBehind batch q).card ≤ batch := by
  obtain ⟨k, hqueue, -, hbeyond⟩ := drain_prefix batch q s.client s.http s.survives
  have hqueue' : q.commits (s.events batch q) = q.dropFront k := hqueue
  have hsubset : s.leftBehind batch q ⊆ (((q.rows.drop k).take batch).map Row.id).toFinset := by
    intro id hid
    rw [Session.leftBehind, Finset.mem_inter, List.mem_toFinset, List.mem_toFinset, hqueue',
      DiskQueue.rows_dropFront] at hid
    obtain ⟨r, hr, rfl⟩ := hbeyond id hid.1
    rw [List.mem_toFinset]
    rw [List.take_add, List.mem_append] at hr
    rcases hr with hr | hr
    · -- the rows taken off the front are gone
      have hnodup := q.ids_nodup
      rw [← List.take_append_drop k q.rows, List.map_append, List.nodup_append] at hnodup
      exact absurd rfl (hnodup.2.2 _ (List.mem_map_of_mem hr) _ hid.2)
    · exact List.mem_map_of_mem hr
  calc (s.leftBehind batch q).card
      ≤ (((q.rows.drop k).take batch).map Row.id).toFinset.card := Finset.card_le_card hsubset
    _ ≤ (((q.rows.drop k).take batch).map Row.id).length := List.toFinset_card_le _
    _ ≤ batch := by
        rw [List.length_map]
        exact List.length_take_le _ _

/-- What one process repeats was answered before it started, and still queued. -/
theorem mem_reposts_session {batch : Nat} (hbatch : 0 < batch) {q : DiskQueue α} {s : Session}
    {seen : List Nat} {id : Nat} (h : id ∈ reposts seen (s.events batch q)) :
    id ∈ seen ∧ id ∈ q.rows.map Row.id := by
  obtain ⟨-, -, -, -, hevents⟩ := drain_flat hbatch q s.client s.http
  have hfilter : ∀ (log : List (Event α)) seen,
      reposts seen (log.filter Event.isPost) = reposts seen log := by
    intro log
    induction log with
    | nil => exact fun _ => rfl
    | cons e log ih =>
      intro seen
      cases he : e.isPost with
      | true => rw [List.filter_cons_of_pos he, reposts, reposts, ih]
      | false =>
        have hpost : e.rowPost = none := by
          cases e <;> first | rfl | exact absurd he (by simp [Event.isPost])
        rw [List.filter_cons_of_neg (by simp [he]), ih, reposts]
        simp [Event.rowAnswer, hpost]
  refine @mem_reposts_deliver α s.client q.rows s.http q.ids_nodup seen id ?_
  rw [← hevents, hfilter, ← List.take_append_drop s.survives (drain batch q s.client s.http).events,
    reposts_append]
  exact List.mem_append_left _ h

/-- A row that a process has had answered and that is still queued after it was left behind
by its kill. -/
theorem leftBehind_of_queued {batch : Nat} (hbatch : 0 < batch) {q : DiskQueue α} {s : Session}
    {r : Row α} (hr : r ∈ (q.commits (s.events batch q)).rows)
    (hid : r.id ∈ answeredIds (s.events batch q)) :
    s.killed batch q ∧ r.id ∈ s.leftBehind batch q := by
  constructor
  · by_contra hsurvives
    have hall : s.events batch q = s.planned batch q := List.take_of_length_le (not_lt.1 hsurvives)
    rw [hall] at hr hid
    exact not_mem_answeredIds_drain hbatch q s.client s.http hr hid
  · rw [Session.leftBehind, Finset.mem_inter, List.mem_toFinset, List.mem_toFinset]
    exact ⟨hid, List.mem_map_of_mem hr⟩

/-- What a run of processes keeps: the promise so far, and that every answered row
still queued was left behind by a kill. -/
structure Crashed (batch : Nat) (q : DiskQueue α) (sessions : List Session) : Prop where
  safe : CrashSafe batch q sessions
  left : ∀ r ∈ ((drainMachine batch).run q sessions).1.rows,
    r.id ∈ answeredIds ((drainMachine batch).run q sessions).2 →
      LeftBehindByKill batch q sessions r.id

theorem crashed_nil (batch : Nat) (q : DiskQueue α) : Crashed batch q [] where
  safe :=
    { inOrder := ⟨0, q.dropFront_zero.symm⟩
      accounted := fun _ hr => .inl hr
      repeated := fun _ hid => absurd hid List.not_mem_nil
      bounded := fun _ s _ _ => card_leftBehind_le batch _ s }
  left := fun _ _ hid => absurd hid List.not_mem_nil

/-- **One more process keeps the promise.** -/
theorem crashed_concat {batch : Nat} (hbatch : 0 < batch) {q : DiskQueue α}
    {sessions : List Session} (h : Crashed batch q sessions) (s : Session) :
    Crashed batch q (sessions ++ [s]) := by
  obtain ⟨⟨⟨n, hn⟩, haccounted, hrepeated, -⟩, hleft⟩ := h
  have hrun := (drainMachine (α := α) batch).run_concat q sessions s
  have hlast : s.killed batch ((drainMachine batch).run q sessions).1 →
      ∀ id ∈ s.leftBehind batch ((drainMachine batch).run q sessions).1,
        LeftBehindByKill batch q (sessions ++ [s]) id :=
    fun hkilled id hid => ⟨sessions, s, [], rfl, hkilled, hid⟩
  have hconcat := fun {id} (h : LeftBehindByKill batch q sessions id) => h.concat s
  obtain ⟨k, hqueue, hgone, -⟩ := drain_prefix batch ((drainMachine batch).run q sessions).1
    s.client s.http s.survives
  generalize (drainMachine batch).run q sessions = before at *
  have hstep : (drainMachine batch).step before.1 s =
      (before.1.dropFront k, s.events batch before.1) :=
    congrArg (fun q => (q, s.events batch before.1)) hqueue
  rw [hstep] at hrun
  have hleft' : ∀ r ∈ (before.1.dropFront k).rows,
      r.id ∈ answeredIds (before.2 ++ s.events batch before.1) →
        LeftBehindByKill batch q (sessions ++ [s]) r.id := by
    intro r hr hid
    rw [answeredIds_append, List.mem_append] at hid
    rcases hid with hid | hid
    · rw [DiskQueue.rows_dropFront] at hr
      exact hconcat (hleft r (List.mem_of_mem_drop hr) hid)
    · -- answered by this process and still queued
      have hcommits : (before.1.commits (s.events batch before.1)).rows =
          (before.1.dropFront k).rows := congrArg DiskQueue.rows hqueue
      rw [← hcommits] at hr
      obtain ⟨hkilled, hbehind⟩ := leftBehind_of_queued hbatch hr hid
      exact hlast hkilled _ hbehind
  refine ⟨⟨?_, ?_, ?_, fun _ s _ _ => card_leftBehind_le batch _ s⟩, ?_⟩
  · rw [hrun, hn]
    exact ⟨n + k, q.dropFront_dropFront n k⟩
  · intro r hr
    rw [hrun, answeredIds_append, List.mem_append, DiskQueue.rows_dropFront]
    rcases haccounted r hr with hqueued | hanswered
    · rw [← List.take_append_drop k before.1.rows, List.mem_append] at hqueued
      rcases hqueued with hr | hr
      · exact .inr (.inr (hgone r hr))
      · exact .inl hr
    · exact .inr (.inl hanswered)
  · intro id hid
    rw [hrun, reposts_append, List.mem_append, List.nil_append] at hid
    rcases hid with hid | hid
    · exact hconcat (hrepeated id hid)
    · obtain ⟨hanswered, hqueued⟩ := mem_reposts_session hbatch hid
      obtain ⟨r, hr, rfl⟩ := List.mem_map.1 hqueued
      exact hconcat (hleft r hr hanswered)
  · rw [hrun]
    exact hleft'

/-- **Crash-safe drain.**  Let the queue be drained by any number of processes, each
killed at any point or not at all, against any answers: every row is still queued
or was answered, rows leave in queue order, and whatever is posted again after it
was answered was left behind by a kill, which leaves at most a batch behind. -/
theorem crash_safe_drain {batch : Nat} (hbatch : 1 ≤ batch) (q : DiskQueue α)
    (sessions : List Session) : CrashSafe batch q sessions := by
  have h : Crashed batch q sessions := by
    induction sessions using List.reverseRecOn with
    | nil => exact crashed_nil batch q
    | append_singleton sessions s ih => exact crashed_concat hbatch ih s
  exact h.safe

/-- Two rows, answered by a process that is killed before it can acknowledge them, and
drained again by the next one. -/
theorem crash_safe_drain_killed :
    CrashSafe 2 ((sampleQueue.insert (.number 1) 1).insert (.number 2) 2)
      [⟨sampleClient, Stream'.const (.ofStatus 200), 2⟩,
        ⟨sampleClient, Stream'.const (.ofStatus 200), 3⟩] :=
  crash_safe_drain (by decide) _ _

end OoAgent
