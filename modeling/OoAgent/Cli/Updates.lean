import OoAgent.Cli.Rejections

/-!
# Update instructions

An accepted response may ask the agent to update itself; the sink starts a worker for
it, at most one at a time and at most one an hour.  Two pieces of state decide this:
`server_commands` of the client, which holds the instructions of the last accepted
push, live or drained, and the stamp `last_update`, which is 0 before the first worker.

* `StartsUpdate`, `updates_pushSink` — exactly when one call starts a worker.
* `fresh_updates_iff` — **freshness**: a worker is only started for an instruction of
  the answer just received, exactly when no call meets an unheeded old instruction
  with a 4xx of another kind than an authorization rejection.
* `WorkerAlive`, `Throttled` — the throttle as seen from outside, on the calls of a run.
* `update_throttle_iff` — **the throttle is exact** exactly when no instruction comes
  in the first hour of the clock.
-/

namespace OoAgent

variable {α : Type}

/-! ## One call -/

/-- The start of a self-update worker. -/
def Event.updateStart : Event α → Option Time
  | .updateStarted t => some t
  | _ => none

/-- The starts of self-update workers in a log. -/
def updateStarts (log : List (Event α)) : List Time := log.filterMap Event.updateStart

@[simp] theorem updateStarts_append (l m : List (Event α)) :
    updateStarts (l ++ m) = updateStarts l ++ updateStarts m := List.filterMap_append

/-- A log of events that start no worker. -/
theorem updateStarts_nil {log : List (Event α)} (h : ∀ e ∈ log, e.updateStart = none) :
    updateStarts log = [] := List.filterMap_eq_nil_iff.2 h

theorem updateStarts_liveEvents (d : Daemon α) (call : Call α) :
    updateStarts (liveEvents d call) = [] := by
  refine updateStarts_nil fun e he => ?_
  rcases mem_liveEvents he with rfl | ⟨o, rfl⟩
  · rfl
  · rfl

theorem updateStarts_enrollEvents (s : ReclaimFlow.Step) (reply : Outcome) :
    updateStarts (enrollEvents s reply : List (Event α)) = [] := by
  refine updateStarts_nil fun e he => ?_
  rcases mem_enrollEvents he with ⟨request, rfl⟩ | rfl
  · rfl
  · rfl

theorem updateStarts_drainQueue (d : Daemon α) (http : Stream' Outcome) :
    updateStarts (drainQueue d http).2 = [] := by
  refine updateStarts_nil fun e he => ?_
  rcases mem_drainQueue he with ⟨id, payload, o, rfl⟩ | ⟨ids, rfl⟩
  · rfl
  · rfl

theorem updateStarts_enqueue [Payload α] (d : Daemon α) (call : Call α) :
    updateStarts (enqueue d call).2 = [] := by
  refine updateStarts_nil fun e he => ?_
  obtain ⟨row, trimmed, rfl⟩ := mem_enqueue he
  rfl

/-- The instructions ask for an update. -/
def asksUpdate (commands : List (Key × Value)) : Bool := (Value.getD commands "update" .none).truthy

/-- The response is an accepted one whose JSON object has a truthy `update`. -/
def Response.asksUpdate (r : Response) : Bool :=
  r.status.accepted && OoAgent.asksUpdate (Value.asDict r.json)

/-- The instructions the sink reads after an answer ask for an update: those of an
accepted answer, else the ones on record. -/
def instructed (d : Daemon α) (r : Response) : Bool :=
  if r.status.accepted then asksUpdate (Value.asDict r.json)
  else asksUpdate d.client.serverCommands

/-- The throttle lets a worker start. -/
def Unthrottled (d : Daemon α) (now : Time) : Prop :=
  d.updating = false ∧ d.lastUpdate + updateThrottle ≤ now

/-- A call that finds the daemon as `d` starts a worker. -/
def StartsUpdate (d : Daemon α) (call : Call α) : Prop :=
  d.reclaim = none ∧ Unthrottled d call.now ∧
    ∃ r, answer call.http = some r ∧ countsAsRejection d r = false ∧ instructed d r = true

/-- What one call does about updates. -/
inductive Updated (d : Daemon α) (call : Call α) (out : Daemon α × List (Event α)) : Prop
  | started (due : StartsUpdate d call) (log : updateStarts out.2 = [call.now])
      (busy : out.1.updating = true) (stamp : out.1.lastUpdate = call.now)
  | idle (undue : ¬ StartsUpdate d call) (log : updateStarts out.2 = [])
      (busy : out.1.updating = d.updating) (stamp : out.1.lastUpdate = d.lastUpdate)

/-- `_maybe_self_update` starts a worker exactly when it is asked to and not throttled. -/
theorem maybeSelfUpdate_spec (d : Daemon α) (now : Time) :
    (asksUpdate d.client.serverCommands = true ∧ Unthrottled d now ∧
        maybeSelfUpdate d now =
          ({ d with updating := true, lastUpdate := now }, [.updateStarted now])) ∨
      (¬ (asksUpdate d.client.serverCommands = true ∧ Unthrottled d now) ∧
        maybeSelfUpdate d now = (d, [])) := by
  unfold maybeSelfUpdate asksUpdate Unthrottled
  by_cases hasks : (Value.getD d.client.serverCommands "update" .none).truthy = false
  · exact .inr ⟨by simp [hasks], by simp [hasks]⟩
  · by_cases hthrottled : d.updating = true ∨ now < d.lastUpdate + updateThrottle
    · refine .inr ⟨?_, by simp [hasks, hthrottled]⟩
      rintro ⟨-, hidle, hapart⟩
      rcases hthrottled with hbusy | hearly
      · exact absurd (hidle.symm.trans hbusy) (by simp)
      · exact absurd hapart (not_le.2 hearly)
    · rw [not_or, not_lt] at hthrottled
      refine .inl ⟨by simpa using hasks, ⟨by simpa using hthrottled.1, hthrottled.2⟩, ?_⟩
      simp [hasks, hthrottled.1, not_lt.2 hthrottled.2]

theorem drainQueue_updating (d : Daemon α) (http : Stream' Outcome) :
    (drainQueue d http).1.updating = d.updating ∧
      (drainQueue d http).1.lastUpdate = d.lastUpdate := by
  unfold drainQueue
  split
  · exact ⟨rfl, rfl⟩
  · split <;> exact ⟨rfl, rfl⟩

theorem enqueue_updating [Payload α] (d : Daemon α) (call : Call α) :
    (enqueue d call).1.updating = d.updating ∧ (enqueue d call).1.lastUpdate = d.lastUpdate := by
  unfold enqueue
  split <;> exact ⟨rfl, rfl⟩

/-- What the answered branch of a call does about updates. -/
theorem updates_afterAnswer {d : Daemon α} {call : Call α} {r : Response} (hmode : d.reclaim = none)
    (hanswer : answer call.http = some r) (hother : countsAsRejection d r = false) :
    Updated d call (afterAnswer d call) := by
  let pushed := { d with client := (d.client.push call.http).client, authFails := 0 }
  have hcommands : asksUpdate pushed.client.serverCommands = instructed d r := by
    show asksUpdate (d.client.push call.http).client.serverCommands = _
    rw [TransportClient.serverCommands_push hanswer, instructed]
    split <;> rfl
  have hthrottle : Unthrottled pushed call.now ↔ Unthrottled d call.now := Iff.rfl
  have hlog : updateStarts (afterAnswer d call).2 =
      updateStarts (maybeSelfUpdate pushed call.now).2 := by
    simp only [afterAnswer, updateStarts_append, updateStarts_liveEvents,
      updateStarts_drainQueue, List.nil_append, List.append_nil, pushed]
  have hbusy : (afterAnswer d call).1.updating = (maybeSelfUpdate pushed call.now).1.updating :=
    (drainQueue_updating _ _).1
  have hstamp : (afterAnswer d call).1.lastUpdate =
      (maybeSelfUpdate pushed call.now).1.lastUpdate := (drainQueue_updating _ _).2
  rcases maybeSelfUpdate_spec pushed call.now with ⟨hasks, hfree, hupdate⟩ | ⟨hno, hupdate⟩
  · rw [hupdate] at hlog hbusy hstamp
    have hinstructed : instructed d r = true := hcommands.symm.trans hasks
    exact .started ⟨hmode, hthrottle.1 hfree, r, hanswer, hother, hinstructed⟩ hlog hbusy hstamp
  · rw [hupdate] at hlog hbusy hstamp
    refine .idle ?_ hlog hbusy hstamp
    rintro ⟨-, hfree, r', hanswer', -, hinstructed⟩
    obtain rfl : r = r' := Option.some.inj (hanswer.symm.trans hanswer')
    exact hno ⟨hcommands.trans hinstructed, hthrottle.2 hfree⟩

/-- **What one call does about updates.** -/
theorem updates_pushSink [Payload α] (d : Daemon α) (call : Call α) :
    Updated (d.atCall call) call (pushSink d call) := by
  have hspec := pushSink_spec d call
  generalize d.atCall call = d', pushSink d call = out at hspec ⊢
  have hdone := d'.client.done_push call.http
  have hstatus := @isSome_authStatus_push α d' call
  have hrejection : (d'.client.push call.http).client.authStatus.isSome = true →
      ¬ StartsUpdate d' call := by
    rintro hauth ⟨-, -, r, hr, hother, -⟩
    exact absurd (hother.symm.trans ((hstatus hr).symm.trans hauth)) (by simp)
  cases hspec with
  | unenrolled mode =>
    exact .idle (fun h => absurd (h.1.symm.trans mode) (by simp))
      (updateStarts_enrollEvents _ _) rfl rfl
  | reenrolled mode =>
    refine .idle (fun h => absurd (h.1.symm.trans mode) (by simp)) ?_ rfl rfl
    rw [updateStarts_append, updateStarts_enrollEvents]
    rfl
  | counted _ _ auth => exact .idle (hrejection auth) (updateStarts_liveEvents _ _) rfl rfl
  | wiped _ _ auth =>
    refine .idle (hrejection auth) ?_ rfl rfl
    rw [updateStarts_append, updateStarts_liveEvents]
    rfl
  | answered mode answered auth =>
    obtain ⟨r, hr⟩ := Option.isSome_iff_exists.1 (hdone.symm.trans answered)
    exact updates_afterAnswer mode hr ((hstatus hr).symm.trans (by rw [auth]; rfl))
  | undelivered _ unanswered =>
    obtain ⟨hbusy, hstamp⟩ := enqueue_updating
      { d' with client := (d'.client.push call.http).client } call
    refine .idle ?_ ?_ hbusy hstamp
    · rintro ⟨-, -, r, hr, -⟩
      rw [hr, unanswered] at hdone
      exact absurd hdone (by simp)
    · rw [updateStarts_append, updateStarts_liveEvents, updateStarts_enqueue]
      rfl

/-- The call starts a worker. -/
def Starts [Payload α] (d : Daemon α) (call : Call α) : Prop :=
  updateStarts (pushSink d call).2 ≠ []

theorem starts_iff [Payload α] {d : Daemon α} {call : Call α} :
    Starts d call ↔ StartsUpdate (d.atCall call) call := by
  unfold Starts
  cases updates_pushSink d call with
  | started due log => simp [log, due]
  | idle undue log => simp [log, undue]

/-! ## Fresh instructions -/

/-- The live push of the call was answered by an accepted response that asks for an
update. -/
def AskedNow [Payload α] (d : Daemon α) (call : Call α) : Prop :=
  ∃ token payload r, .post .live token payload (.response r) ∈ (pushSink d call).2 ∧
    r.asksUpdate = true

/-- A worker is only started for an instruction of the answer just received. -/
def FreshUpdate [Payload α] (d : Daemon α) (call : Call α) : Prop := Starts d call → AskedNow d call

/-- Every call of the run obeys the law. -/
def UpdatesFresh [Payload α] (d : Daemon α) (calls : List (Call α)) : Prop :=
  ∀ before call after, calls = before ++ call :: after →
    FreshUpdate (sinkMachine.run d before).1 call

/-- A 4xx of another kind than an authorization rejection, with none on record, does not
meet an instruction of an earlier response that the throttle would let through. -/
def NoStaleInstruction (d : Daemon α) (call : Call α) : Prop :=
  d.reclaim = none → ∀ r, answer call.http = some r → r.status.rejected = true →
    r.status.auth = false → d.client.authStatus = none →
      asksUpdate d.client.serverCommands = true → ¬ Unthrottled (d.atCall call) call.now

/-- In push mode the live push comes first in the log of a call. -/
theorem liveEvents_subset [Payload α] {d : Daemon α} (hmode : d.reclaim = none) (call : Call α) :
    ∀ e ∈ liveEvents d call, e ∈ (pushSink d call).2 := by
  intro e he
  have hspec := pushSink_spec d call
  have hmode' : (d.atCall call).reclaim = none := hmode
  have he' : e ∈ liveEvents (d.atCall call) call := he
  generalize d.atCall call = d', pushSink d call = out at hspec hmode' he' ⊢
  cases hspec with
  | unenrolled mode => exact absurd (hmode'.symm.trans mode) (by simp)
  | reenrolled mode => exact absurd (hmode'.symm.trans mode) (by simp)
  | counted => exact he'
  | wiped => exact List.mem_append_left _ he'
  | answered => exact List.mem_append_left _ (List.mem_append_left _ he')
  | undelivered => exact List.mem_append_left _ he'

/-- The answer a push gets is the response to one of its attempts. -/
theorem answer_mem_tries {c : TransportClient} {http : Stream' Outcome} {r : Response}
    (h : answer http = some r) : .response r ∈ (c.push http).tries := by
  have hspec := c.push_spec http
  rw [h] at hspec
  generalize c.push http = p at hspec ⊢
  cases hspec with
  | accepted => simp
  | rejected => simp

/-- An accepted response to a live push is the answer of its call. -/
theorem AskedNow.accepted [Payload α] {d : Daemon α} {call : Call α} (h : AskedNow d call) :
    ∃ r, answer call.http = some r ∧ r.status.accepted = true := by
  obtain ⟨token, payload, r, hmem, hasks⟩ := h
  have haccepted : r.status.accepted = true := by
    rw [Response.asksUpdate, Bool.and_eq_true] at hasks
    exact hasks.1
  have hanswer : (token, r.status) ∈ liveAnswers (pushSink d call).2 := by
    refine List.mem_filterMap.2 ⟨_, hmem, ?_⟩
    simp [Event.liveAnswer, Status.definitive, haccepted]
  rw [liveAnswers_pushSink] at hanswer
  split at hanswer
  · obtain ⟨r', hr', heq⟩ := List.mem_map.1 hanswer
    refine ⟨r', by simpa using hr', ?_⟩
    rw [(Prod.mk.inj heq).2]
    exact haccepted
  · exact absurd hanswer List.not_mem_nil

/-- **One call is fresh exactly when it meets no stale instruction.** -/
theorem freshUpdate_iff [Payload α] (d : Daemon α) (call : Call α) :
    FreshUpdate d call ↔ NoStaleInstruction d call := by
  constructor
  · intro hfresh hmode r hr hrejected hother hclear hasks hfree
    have hnot : r.status.accepted = false := Status.not_accepted_of_rejected hrejected
    have hstarts : Starts d call := by
      refine starts_iff.2 ⟨hmode, hfree, r, hr, ?_, ?_⟩
      · show countsAsRejection d r = false
        simp [countsAsRejection, hnot, hother, hclear]
      · show instructed d r = true
        simp [instructed, hnot, hasks]
    obtain ⟨r', hr', haccepted⟩ := (hfresh hstarts).accepted
    obtain rfl : r = r' := Option.some.inj (hr.symm.trans hr')
    exact absurd (hnot.symm.trans haccepted) (by simp)
  · intro hstale hstarts
    obtain ⟨hmode, hfree, r, hr, hother, hinstructed⟩ := starts_iff.1 hstarts
    have hmode' : d.reclaim = none := hmode
    have hother' : countsAsRejection d r = false := hother
    have hinstructed' : instructed d r = true := hinstructed
    cases haccepted : r.status.accepted with
    | true =>
      rw [instructed, if_pos haccepted] at hinstructed'
      refine ⟨d.client.token, call.payload, r, ?_, ?_⟩
      · refine liveEvents_subset hmode' call _ (List.mem_cons_of_mem _ ?_)
        exact List.mem_map_of_mem (answer_mem_tries hr)
      · rw [Response.asksUpdate, haccepted, hinstructed']
        rfl
    | false =>
      -- the answer is a 4xx, and the instruction is an old one
      have hrejected : r.status.rejected = true := by
        have hdefinitive := definitive_answer hr
        rwa [Status.definitive, haccepted, Bool.false_or] at hdefinitive
      rw [countsAsRejection, haccepted] at hother'
      simp only [Bool.not_false, Bool.true_and, Bool.or_eq_false_iff] at hother'
      have hclear : d.client.authStatus = none := by simpa using hother'.2
      rw [instructed, haccepted] at hinstructed'
      exact absurd hfree (hstale hmode' r hr hrejected hother'.1 hclear hinstructed')

/-- **Update instructions are fresh**, over a whole run, exactly when no call of it meets
a stale one. -/
theorem fresh_updates_iff [Payload α] (d : Daemon α) (calls : List (Call α)) :
    UpdatesFresh d calls ↔ sinkMachine.Along NoStaleInstruction d calls := by
  rw [Machine.along_iff]
  exact forall₄_congr fun before call after _ => freshUpdate_iff _ call

/-- A call at a reading of the monotonic clock. -/
def sampleCallAt (now : Time) (outcome : Outcome) : Call Int :=
  { sampleCall 1 outcome with now := now, workerDone := true }

/-- An accepted response that asks for an update. -/
def sampleInstruction : Outcome :=
  .response { status := Status.ok, text := "", json := some (.dict [(.str "update", .bool true)]) }

/-- **A stale instruction**: two hours after boot a 400 starts the update that was asked
for, and started, an hour before. -/
theorem stale_instruction_starts : ¬ UpdatesFresh sampleDaemon
    [sampleCallAt (seconds 3600) sampleInstruction,
      sampleCallAt (seconds 7200) (.ofStatus 400)] := by
  intro h
  let first := sampleCallAt (seconds 3600) sampleInstruction
  have hfresh := h [first] (sampleCallAt (seconds 7200) (.ofStatus 400)) [] rfl
  rw [freshUpdate_iff] at hfresh
  have hmode : (sinkMachine.run sampleDaemon [first]).1.reclaim = none := by decide +kernel
  have hclear : (sinkMachine.run sampleDaemon [first]).1.client.authStatus = none := by
    decide +kernel
  have hasks :
      asksUpdate (sinkMachine.run sampleDaemon [first]).1.client.serverCommands = true := by
    decide +kernel
  exact hfresh hmode _ rfl (by decide) (by decide) hclear hasks
    ⟨by decide +kernel, by decide +kernel⟩

/-! ## The throttle -/

section Throttle

variable [Payload α]

/-- A worker that was started in one of the calls has not finished yet. -/
def WorkerRunning (d : Daemon α) (calls : List (Call α)) : Prop :=
  ∃ before call after, calls = before ++ call :: after ∧
    Starts (sinkMachine.run d before).1 call ∧ ∀ c ∈ after, c.workerDone = false

/-- A worker started before this call is still running when the call asks for one. -/
def WorkerAlive (d : Daemon α) (before : List (Call α)) (call : Call α) : Prop :=
  WorkerRunning d before ∧ call.workerDone = false

/-- What the throttle promises of one call, given the calls before it. -/
structure Throttled (d : Daemon α) (before : List (Call α)) (call : Call α) : Prop where
  /-- A call starts at most one worker. -/
  once : (updateStarts (pushSink (sinkMachine.run d before).1 call).2).length ≤ 1
  /-- Two starts are at least an hour apart. -/
  apart : ∀ t ∈ updateStarts (pushSink (sinkMachine.run d before).1 call).2,
    ∀ t' ∈ updateStarts (sinkMachine.run d before).2, t' + updateThrottle ≤ t
  /-- No two workers overlap. -/
  alone : Starts (sinkMachine.run d before).1 call → ¬ WorkerAlive d before call
  /-- An instruction of an accepted live push is ignored only for one of these reasons. -/
  heeded : (sinkMachine.run d before).1.reclaim = none → ∀ r, answer call.http = some r →
    r.asksUpdate = true → ¬ Starts (sinkMachine.run d before).1 call →
      WorkerAlive d before call ∨
        ∃ t ∈ updateStarts (sinkMachine.run d before).2, call.now < t + updateThrottle

/-- Every call of the run keeps the promise. -/
def ThrottleExact (d : Daemon α) (calls : List (Call α)) : Prop :=
  ∀ before call after, calls = before ++ call :: after → Throttled d before call

/-- Before any worker was started, an accepted live push asks for an update only once the
clock has reached an hour. -/
def WarmedUp (d : Daemon α) (call : Call α) : Prop :=
  d.reclaim = none → d.lastUpdate = 0 → ∀ r, answer call.http = some r → r.asksUpdate = true →
    updateThrottle ≤ call.now

/-- What the stamp and the flag say about the workers started so far. -/
structure Stamped (d : Daemon α) (log : List (Event α)) : Prop where
  never : updateStarts log = [] → d.lastUpdate = 0 ∧ d.updating = false
  latest : updateStarts log ≠ [] → d.lastUpdate ∈ updateStarts log ∧ updateThrottle ≤ d.lastUpdate
  bound : ∀ t ∈ updateStarts log, t ≤ d.lastUpdate

/-- One call keeps stamp and flag in order. -/
theorem stamped_step {d : Daemon α} {log : List (Event α)} (h : Stamped d log) (call : Call α) :
    Stamped (pushSink d call).1 (log ++ (pushSink d call).2) := by
  cases updates_pushSink d call with
  | started due hlog busy stamp =>
    obtain ⟨-, ⟨-, hapart⟩, -⟩ := due
    have hlast : d.lastUpdate + updateThrottle ≤ call.now := hapart
    refine ⟨fun hnil => ?_, fun _ => ?_, fun t ht => ?_⟩
    · rw [updateStarts_append, hlog] at hnil
      exact absurd hnil (by simp)
    · rw [updateStarts_append, hlog, stamp]
      exact ⟨by simp, le_trans (Nat.le_add_left _ _) hlast⟩
    · rw [updateStarts_append, hlog] at ht
      rw [stamp]
      rcases List.mem_append.1 ht with ht | ht
      · exact le_trans (h.bound t ht) (le_trans (Nat.le_add_right _ _) hlast)
      · exact (List.mem_singleton.1 ht).le
  | idle undue hlog busy stamp =>
    have hstamp : (pushSink d call).1.lastUpdate = d.lastUpdate := stamp
    have hsame : updateStarts (log ++ (pushSink d call).2) = updateStarts log := by
      rw [updateStarts_append, hlog, List.append_nil]
    refine ⟨fun hnil => ?_, fun hsome => ?_, fun t ht => ?_⟩
    · rw [hsame] at hnil
      obtain ⟨hzero, hidle⟩ := h.never hnil
      refine ⟨hstamp.trans hzero, busy.trans ?_⟩
      show (d.updating && !call.workerDone) = false
      rw [hidle, Bool.false_and]
    · rw [hsame] at hsome ⊢
      rw [hstamp]
      exact h.latest hsome
    · rw [hsame] at ht
      rw [hstamp]
      exact h.bound t ht

/-- If the flag tells whether a worker is running, a call finds it set exactly when one is
still alive. -/
theorem updating_atCall_iff {d : Daemon α} {before : List (Call α)}
    (h : (sinkMachine.run d before).1.updating = true ↔ WorkerRunning d before) (call : Call α) :
    ((sinkMachine.run d before).1.atCall call).updating = true ↔ WorkerAlive d before call := by
  show ((sinkMachine.run d before).1.updating && !call.workerDone) = true ↔ _
  rw [Bool.and_eq_true, h, Bool.not_eq_true']
  rfl

/-- The flag of a run is set exactly while a worker is running. -/
theorem updating_run_iff {d : Daemon α} (hidle : d.updating = false) (calls : List (Call α)) :
    (sinkMachine.run d calls).1.updating = true ↔ WorkerRunning d calls := by
  induction calls using List.reverseRecOn with
  | nil =>
    rw [Machine.run_nil, hidle]
    refine ⟨fun h => absurd h (by simp), ?_⟩
    rintro ⟨before, call, after, hsplit, -⟩
    exact absurd hsplit (by simp)
  | append_singleton before call ih =>
    have hlast : WorkerRunning d (before ++ [call]) ↔
        Starts (sinkMachine.run d before).1 call ∨ WorkerAlive d before call := by
      constructor
      · rintro ⟨before', call', after, hsplit, hstarts, hdone⟩
        rcases List.eq_nil_or_concat after with rfl | ⟨after', last, rfl⟩
        · obtain ⟨rfl, hcall⟩ := List.append_inj' hsplit rfl
          obtain rfl := List.singleton_inj.1 hcall
          exact .inl hstarts
        · rw [List.concat_eq_append] at hsplit hdone
          rw [← List.cons_append, ← List.append_assoc] at hsplit
          obtain ⟨rfl, hcall⟩ := List.append_inj' hsplit rfl
          obtain rfl := List.singleton_inj.1 hcall
          rw [List.forall_mem_append] at hdone
          exact .inr ⟨⟨before', call', after', rfl, hstarts, hdone.1⟩, hdone.2 _ (by simp)⟩
      · rintro (hstarts | ⟨⟨before', call', after, rfl, hstarts, hdone⟩, hrunning⟩)
        · exact ⟨before, call, [], rfl, hstarts, by simp⟩
        · refine ⟨before', call', after ++ [call], by simp, hstarts, ?_⟩
          rw [List.forall_mem_append]
          exact ⟨hdone, by simpa using hrunning⟩
    have hstep : (sinkMachine.run d (before ++ [call])).1.updating =
        (pushSink (sinkMachine.run d before).1 call).1.updating := by
      rw [Machine.run_concat]
      rfl
    rw [hlast, hstep]
    cases updates_pushSink (sinkMachine.run d before).1 call with
    | started due _ busy => exact iff_of_true busy (.inl (starts_iff.2 due))
    | idle undue _ busy =>
      rw [busy, updating_atCall_iff ih, or_iff_right (fun h => undue (starts_iff.1 h))]

/-- Stamp and flag are in order along a run from a daemon that has started no worker. -/
theorem stamped_run {d : Daemon α} (hidle : d.updating = false) (hzero : d.lastUpdate = 0)
    (calls : List (Call α)) : Stamped (sinkMachine.run d calls).1 (sinkMachine.run d calls).2 := by
  have hstart : Stamped d [] :=
    ⟨fun _ => ⟨hzero, hidle⟩, fun h => absurd rfl h, fun t ht => absurd ht List.not_mem_nil⟩
  exact sinkMachine.run_invariant' (I := Stamped) (fun _ _ call h => stamped_step h call) calls
    hstart

section Promise

variable {d : Daemon α} {before : List (Call α)} {call : Call α}

/-- A call that comes too early breaks the promise: nothing has been started, and nothing
starts. -/
theorem warmedUp_of_throttled (hidle : d.updating = false) (hzero : d.lastUpdate = 0)
    (h : Throttled d before call) : WarmedUp (sinkMachine.run d before).1 call := by
  have hstamped := stamped_run hidle hzero before
  intro hmode hnever r hr hasks
  by_contra hearly
  have hnone : updateStarts (sinkMachine.run d before).2 = [] := by
    by_contra hsome
    have hlate := (hstamped.latest hsome).2
    rw [hnever] at hlate
    exact absurd hlate (by decide)
  have hidle' := (hstamped.never hnone).2
  have hstays : ¬ Starts (sinkMachine.run d before).1 call := by
    intro hstarts
    obtain ⟨-, ⟨-, hapart⟩, -⟩ := starts_iff.1 hstarts
    have hlate : (sinkMachine.run d before).1.lastUpdate + updateThrottle ≤ call.now := hapart
    rw [hnever, Nat.zero_add] at hlate
    exact hearly hlate
  rcases h.heeded hmode r hr hasks hstays with ⟨hrunning, -⟩ | ⟨t, ht, -⟩
  · rw [← updating_run_iff hidle, hidle'] at hrunning
    exact absurd hrunning (by simp)
  · rw [hnone] at ht
    exact absurd ht List.not_mem_nil

/-- Starts are apart: the stamp bounds all of them. -/
theorem apart_of_stamped
    (hstamped : Stamped (sinkMachine.run d before).1 (sinkMachine.run d before).2) :
    ∀ t ∈ updateStarts (pushSink (sinkMachine.run d before).1 call).2,
      ∀ t' ∈ updateStarts (sinkMachine.run d before).2, t' + updateThrottle ≤ t := by
  intro t ht t' ht'
  cases updates_pushSink (sinkMachine.run d before).1 call with
  | started due hlog =>
    obtain ⟨-, ⟨-, hapart⟩, -⟩ := due
    rw [hlog] at ht
    obtain rfl := List.mem_singleton.1 ht
    exact le_trans (Nat.add_le_add_right (hstamped.bound t' ht') _) hapart
  | idle _ hlog =>
    rw [hlog] at ht
    exact absurd ht List.not_mem_nil

/-- An instruction that is ignored was held back by a worker, if the call is not too early. -/
theorem heeded_of_warmedUp (hidle : d.updating = false) (hzero : d.lastUpdate = 0)
    (hwarm : WarmedUp (sinkMachine.run d before).1 call)
    (hmode : (sinkMachine.run d before).1.reclaim = none) {r : Response}
    (hr : answer call.http = some r) (hasks : r.asksUpdate = true)
    (hstays : ¬ Starts (sinkMachine.run d before).1 call) :
    WorkerAlive d before call ∨
      ∃ t ∈ updateStarts (sinkMachine.run d before).2, call.now < t + updateThrottle := by
  have hstamped := stamped_run hidle hzero before
  have halive := updating_atCall_iff (updating_run_iff hidle before) call
  have hboth := hasks
  rw [Response.asksUpdate, Bool.and_eq_true] at hboth
  by_contra hno
  rw [not_or] at hno
  refine hstays (starts_iff.2 ⟨hmode, ⟨?_, ?_⟩, r, hr, ?_, ?_⟩)
  · rw [← Bool.not_eq_true, halive]
    exact hno.1
  · show (sinkMachine.run d before).1.lastUpdate + updateThrottle ≤ call.now
    by_cases hnone : updateStarts (sinkMachine.run d before).2 = []
    · have hnever := (hstamped.never hnone).1
      rw [hnever, Nat.zero_add]
      exact hwarm hmode hnever r hr hasks
    · by_contra hearly
      exact hno.2 ⟨_, (hstamped.latest hnone).1, not_le.1 hearly⟩
  · simp [countsAsRejection, hboth.1]
  · simp [instructed, hboth.1, hboth.2]

end Promise

/-- **The throttle keeps its promise at a call** exactly when the call does not come too
early on the clock. -/
theorem throttled_iff {d : Daemon α} (hidle : d.updating = false) (hzero : d.lastUpdate = 0)
    (before : List (Call α)) (call : Call α) :
    Throttled d before call ↔ WarmedUp (sinkMachine.run d before).1 call := by
  refine ⟨warmedUp_of_throttled hidle hzero, fun hwarm => ⟨?_, ?_, ?_, ?_⟩⟩
  · cases updates_pushSink (sinkMachine.run d before).1 call with
    | started _ hlog => rw [hlog]; exact le_rfl
    | idle _ hlog => rw [hlog]; exact Nat.zero_le _
  · exact apart_of_stamped (stamped_run hidle hzero before)
  · intro hstarts hbusy
    obtain ⟨-, ⟨hfree, -⟩, -⟩ := starts_iff.1 hstarts
    rw [(updating_atCall_iff (updating_run_iff hidle before) call).2 hbusy] at hfree
    exact absurd hfree (by simp)
  · exact fun hmode r hr hasks hstays => heeded_of_warmedUp hidle hzero hwarm hmode hr hasks hstays

/-- **The update throttle is exact**, over a whole run from start-up, exactly when no
accepted live push asks for the first update before the clock has reached an hour. -/
theorem update_throttle_iff {options : List (Key × Value)} {files : Files}
    {queue : Option (DiskQueue α)} {d : Daemon α}
    (hstart : buildSink options files queue = some (.push d)) (calls : List (Call α)) :
    ThrottleExact d calls ↔ sinkMachine.Along WarmedUp d calls := by
  obtain ⟨client, -, -, hd⟩ := buildSink_push hstart
  have hidle : d.updating = false := by rw [hd]
  have hzero : d.lastUpdate = 0 := by rw [hd]
  rw [Machine.along_iff]
  exact forall₄_congr fun before call after _ => throttled_iff hidle hzero before call

end Throttle

/-- An hour after boot the first instruction is heeded. -/
theorem update_throttle_iff_hour :
    ThrottleExact sampleDaemon [sampleCallAt (seconds 3600) sampleInstruction] :=
  (update_throttle_iff sampleDaemon_start _).2 ⟨fun _ _ _ _ _ => le_rfl, trivial⟩

/-- **Just after boot**: ten seconds into the clock the first instruction of all is
ignored. -/
theorem first_instruction_ignored :
    ¬ ThrottleExact sampleDaemon [sampleCallAt (seconds 10) sampleInstruction] := by
  intro h
  have hcall := h [] (sampleCallAt (seconds 10) sampleInstruction) [] rfl
  have hwarm := (throttled_iff rfl rfl [] _).1 hcall
  exact absurd (hwarm rfl rfl _ rfl (by decide)) (by decide)

end OoAgent
