import OoAgent.Cli.Outage
import OoAgent.Lib.Progress
import OoAgent.Transport.Pacing

/-!
# Coming back from a revoked token

A daemon whose token was revoked runs the re-claim flow, one request a minute.  Whatever the
flow is holding when the operator approves the machine again, a claim that is still open, a
claim that is long gone or none at all, three requests are enough: one to find out that an old
claim is gone, one to make a new one, one to collect the token.

* `Approves` — a backend that has approved the machine.
* `waiting_stages` — what one call does, by the stage the flow is in.
* `reclaim_recovers` — **how long the daemon is away at most**, and that its backlog goes
  through afterwards.
-/

namespace OoAgent

variable {α : Type}

/-! ## The backend -/

/-- A backend that has approved the machine: a `POST` names the claim, a poll of the claim
carries the token, and the claims of former times are gone. -/
structure Approves (server : EnrollRequest → Response) (id token : String) : Prop where
  named : id ≠ ""
  posted : (server (.post none)).status.failed = false
  claim : (Value.getD (server (.post none)).data "enroll_id" (.str "")).toStr = id
  polled : (server (.poll id)).status.failed = false
  open_ : refused (statusOf (server (.poll id)).data) = false
  issued : tokenOf (server (.poll id)).data = token
  token : token ≠ ""
  gone : ∀ other, other ≠ id → (server (.poll other)).status.failed = true ∨
    refused (statusOf (server (.poll other)).data) = true

/-- The request of the call, should it make one, is answered by the backend. -/
def Served (server : EnrollRequest → Response) (d : Daemon α) (call : Call α) : Prop :=
  ∀ flow, d.reclaim = some flow → call.reply = .response (server flow.next)

/-- How many requests a flow has to make before the one that collects the token. -/
def ReclaimFlow.stagesLeft (id : String) (flow : ReclaimFlow) : ℕ :=
  if flow.enrollId = id then 0 else if flow.enrollId = "" then 1 else 2

/-- The daemon runs the flow, which is so many requests away from the token. -/
structure WaitingFor (id tokenFile : String) (pause : Time) (queue : Option (DiskQueue α))
    (n due : ℕ) (d : Daemon α) : Prop where
  flow : ∃ flow, d.reclaim = some flow ∧ flow.stagesLeft id = n ∧ flow.nextTry = due ∧
    flow.tokenFile = tokenFile ∧ flow.minInterval = pause
  queue : d.queue = queue

/-- The daemon pushes again, with the new token and its old backlog. -/
structure Recovered (token tokenFile : String) (queue : Option (DiskQueue α)) (d : Daemon α) :
    Prop where
  mode : d.reclaim = none
  bearer : d.client.token = token
  fails : d.authFails = 0
  stored : ∃ files, d.files = (storeToken files tokenFile token).files
  queue : d.queue = queue

/-! ## One call -/

/-- A call of the sink is one step of the flow. -/
theorem pushSink_reclaim [Payload α] {d : Daemon α} {flow : ReclaimFlow}
    (hmode : d.reclaim = some flow) (call : Call α) :
    pushSink d call = reclaimCall (d.atCall call) flow call := by
  rw [pushSink, hmode]

/-- A poll of a claim that is gone drops it. -/
theorem ReclaimFlow.step_gone {f : ReclaimFlow} (hid : f.enrollId ≠ "") {now : Time}
    (hdue : f.nextTry ≤ now) {r : Response}
    (hgone : r.status.failed = true ∨ refused (statusOf r.data) = true) (files : Files) :
    f.step files now (.response r) =
      { flow := { f with nextTry := now + f.minInterval, enrollId := "" }
        request := some (.poll f.enrollId), files := files, token := none, raised := false } := by
  rcases hgone with hfailed | hrefused
  · simp [step, ask, hid, not_lt.2 hdue, hfailed]
  · cases hfailed : r.status.failed <;> simp [step, ask, hid, not_lt.2 hdue, hfailed, hrefused]

section

variable [Payload α] {server : EnrollRequest → Response} {id token tokenFile : String}
  {pause : Time} {queue : Option (DiskQueue α)}

/-- **What one call does**, by the stage the flow is in. -/
theorem waiting_stages (h : Approves server id token)
    (hstorable : storable tokenFile token = true) :
    (sinkMachine (α := α)).Stages Call.now (Served server) pause
      (WaitingFor id tokenFile pause queue) (Recovered token tokenFile queue) := by
  constructor
  · rintro n due d call ⟨⟨flow, hmode, hleft, hnext, hfile, hpause⟩, hqueue⟩ - hearly
    have hstep := ReclaimFlow.step_early (hnext ▸ hearly) (d.atCall call).files call.reply
    show WaitingFor id tokenFile pause queue n due (pushSink d call).1
    rw [pushSink_reclaim hmode, reclaimCall, hstep]
    exact ⟨⟨flow, rfl, hleft, hnext, hfile, hpause⟩, hqueue⟩
  · -- the flow holds the claim of the backend: the poll carries the token
    rintro due d call ⟨⟨flow, hmode, hleft, hnext, hfile, hpause⟩, hqueue⟩ hserved hlate
    have hheld : flow.enrollId = id := by
      by_contra hother
      rw [ReclaimFlow.stagesLeft, if_neg hother] at hleft
      split at hleft <;> exact absurd hleft (by decide)
    have hid : flow.enrollId ≠ "" := hheld.trans_ne h.named
    have hasked : flow.next = .poll id := by rw [ReclaimFlow.next, if_neg hid, hheld]
    have hreply := hserved flow hmode
    rw [hasked] at hreply
    have hstep := step_poll hid (hnext ▸ hlate) h.polled h.open_ (d.atCall call).files
    rw [h.issued, if_neg h.token, ← hreply] at hstep
    simp only [returned_storeToken, hfile, hstorable, if_true] at hstep
    show Recovered token tokenFile queue (pushSink d call).1
    rw [pushSink_reclaim hmode, reclaimCall, hstep]
    exact ⟨rfl, rfl, rfl, ⟨_, rfl⟩, hqueue⟩
  · rintro n due d call ⟨⟨flow, hmode, hleft, hnext, hfile, hpause⟩, hqueue⟩ hserved hlate
    have hreply := hserved flow hmode
    have hother : flow.enrollId ≠ id := by
      intro hheld
      rw [ReclaimFlow.stagesLeft, if_pos hheld] at hleft
      exact absurd hleft (by simp)
    show WaitingFor id tokenFile pause queue n _ (pushSink d call).1
    rw [ReclaimFlow.stagesLeft, if_neg hother] at hleft
    by_cases hid : flow.enrollId = ""
    · -- no claim: the `POST` names it
      obtain rfl : n = 0 := by simpa [hid] using hleft.symm
      rw [ReclaimFlow.next, if_pos hid] at hreply
      have hstep := step_post hid (hnext ▸ hlate) h.posted (d.atCall call).files
      rw [h.claim, ← hreply] at hstep
      rw [pushSink_reclaim hmode, reclaimCall, hstep]
      exact ⟨⟨_, rfl, if_pos rfl, by rw [hpause], hfile, hpause⟩, hqueue⟩
    · -- an old claim: the poll finds it gone
      obtain rfl : n = 1 := by simpa [hid] using hleft.symm
      rw [ReclaimFlow.next, if_neg hid] at hreply
      have hstep := ReclaimFlow.step_gone hid (hnext ▸ hlate) (h.gone _ hother)
        (d.atCall call).files
      rw [← hreply] at hstep
      rw [pushSink_reclaim hmode, reclaimCall, hstep]
      have hempty : ("" : String) ≠ id := Ne.symm h.named
      exact ⟨⟨_, rfl, by simp [ReclaimFlow.stagesLeft, hempty], by rw [hpause], hfile, hpause⟩,
        hqueue⟩

/-! ## A run -/

theorem ReclaimFlow.stagesLeft_le (id : String) (flow : ReclaimFlow) :
    flow.stagesLeft id ≤ 2 := by
  unfold stagesLeft
  split
  · exact Nat.zero_le _
  · split <;> decide

/-- **How long the daemon is away at most.**  The backend has approved the machine, whatever
the flow is holding.  Once the calls of the sink, which leave no gap longer than `gap`, have
gone on for two pauses and two gaps since the flow was due, one of them has stored the new
token and the daemon pushes again; its backlog is what it was, and the first call that finds
the server accepting delivers it behind its own payload. -/
theorem reclaim_recovers (h : Approves server id token) (d : Daemon α) {flow : ReclaimFlow}
    (hmode : d.reclaim = some flow) (hstorable : storable flow.tokenFile token = true)
    {gap start : Time} {calls : List (Call α)}
    (hdense : Machine.Dense gap start (calls.map Call.now))
    (hserved : sinkMachine.Along (Served server) d calls)
    (hlong : max start flow.nextTry + 2 * (flow.minInterval + gap) <
      (calls.map Call.now).getLastD start) :
    ∃ before call after, calls = before ++ call :: after ∧
      Recovered token flow.tokenFile d.queue (sinkMachine.run d (before ++ [call])).1 ∧
      ∀ q recovery, d.queue = some q → Accepting recovery.http →
        acceptedPayloads (pushSink (sinkMachine.run d (before ++ [call])).1 recovery).2 =
          recovery.payload :: q.rows.map Row.payload := by
  have hwaits : WaitingFor id flow.tokenFile flow.minInterval d.queue (flow.stagesLeft id)
      flow.nextTry d := ⟨⟨flow, hmode, rfl, rfl, rfl, rfl⟩, rfl⟩
  have hstages : max start flow.nextTry + flow.stagesLeft id * (flow.minInterval + gap) ≤
      max start flow.nextTry + 2 * (flow.minInterval + gap) :=
    Nat.add_le_add_left (Nat.mul_le_mul_right _ (flow.stagesLeft_le id)) _
  obtain ⟨before, call, after, hcalls, hrecovered⟩ := (waiting_stages h hstorable).finishes hwaits
    (le_max_right start flow.nextTry) (le_max_left _ _) hdense hserved (hstages.trans_lt hlong)
  refine ⟨before, call, after, hcalls, hrecovered, fun q recovery hqueue hup => ?_⟩
  exact (pushSink_up hrecovered.mode (hrecovered.queue.trans hqueue) hup).2.2

end

/-- A backend that has approved the machine under the claim `e1`. -/
def sampleBackend : EnrollRequest → Response
  | .post _ => jsonReply [(.str "enroll_id", .str "e1")]
  | .poll id =>
    if id = "e1" then jsonReply [(.str "token", .str "t1")]
    else { status := ⟨404, by decide⟩, text := "", json := none }

theorem approves_sampleBackend : Approves sampleBackend "e1" "t1" where
  named := by decide
  posted := rfl
  claim := rfl
  polled := rfl
  open_ := rfl
  issued := rfl
  token := by decide
  gone := by
    intro other hother
    exact .inl (by simp [sampleBackend, hother, Status.failed])

/-- A daemon whose token was revoked while a payload was in its backlog. -/
def sampleAway : Daemon Int :=
  { sampleDaemon with
    queue := some (sampleQueue.insert (.number 5) 5)
    reclaim := some (ReclaimFlow.init defaultTokenFile reclaimInterval) }

/-- Three calls, far apart, and what their requests come to. -/
def sampleAwayCalls : List (Call Int) :=
  [{ sampleCall 1 (.response (sampleBackend (.post none))) with now := seconds 1000 },
    { sampleCall 2 (.response (sampleBackend (.poll "e1"))) with now := seconds 2000 },
    { sampleCall 3 (.ofStatus 200 Status.ok.final) with now := seconds 3000 }]

/-- A daemon without a claim is back after some of its calls. -/
theorem reclaim_recovers_sample :
    ∃ before call after, sampleAwayCalls = before ++ call :: after ∧
      Recovered "t1" defaultTokenFile sampleAway.queue
        (sinkMachine.run sampleAway (before ++ [call])).1 := by
  have hback : (sinkMachine.run sampleAway (sampleAwayCalls.take 2)).1.reclaim.isNone = true := by
    decide +kernel
  have hserved : sinkMachine.Along (Served sampleBackend) sampleAway sampleAwayCalls := by
    refine ⟨?_, ?_, ?_, trivial⟩
    · intro flow hflow
      obtain rfl := Option.some.inj hflow
      rfl
    · intro flow hflow
      obtain rfl := Option.some.inj hflow
      rfl
    · intro flow hflow
      have hnone := Option.isNone_iff_eq_none.1 hback
      exact absurd (hnone.symm.trans hflow) (by simp)
  obtain ⟨before, call, after, hcalls, hrecovered, -⟩ :=
    @reclaim_recovers Int _ _ _ _ approves_sampleBackend sampleAway
      (ReclaimFlow.init defaultTokenFile reclaimInterval) rfl (by decide) (seconds 1000) 0
      sampleAwayCalls (by decide +kernel) hserved (by decide +kernel)
  exact ⟨before, call, after, hcalls, hrecovered⟩

end OoAgent
