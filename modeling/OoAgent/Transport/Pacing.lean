import OoAgent.Lib.Since
import OoAgent.Transport.Agreement

/-!
# The requests of the re-claim flow

What `ReclaimFlow` (`oo_agent/transport/reclaim.py`) sends over many calls of `step`, whatever the
clock shows at each of them and whatever its requests come to.

* `sentMachine` — the flow with a log of its requests.
* `Claimed` — by the log alone, the claim that is open: the one the latest successful `POST` named,
  until a poll is refused.
* `TracksLog` — the state says what the log says: which claim is open and when the next request
  may go out; `tracksLog_step` — **every call keeps it**.
* `reclaim_paced` — the requests of a whole run.
-/

namespace OoAgent

/-! ## Requests -/

/-- A request of the flow: the clock at its call, and what it came to. -/
structure Sent where
  now : Time
  request : EnrollRequest
  reply : Outcome

namespace Sent

/-- The id that a successful `POST` is answered with. -/
def taken : Sent → Option String
  | ⟨_, .post _, .response r⟩ =>
    if r.status.failed then none else some (Value.getD r.data "enroll_id" (.str "")).toStr
  | _ => none

/-- A poll that is answered 400 or above, `rejected` or `expired`. -/
def refusal : Sent → Bool
  | ⟨_, .poll _, .response r⟩ => r.status.failed || refused (statusOf r.data)
  | _ => false

end Sent

/-- The flow with a log of its requests. -/
def sentMachine : Machine (ReclaimFlow × Files) (Time × Outcome) Sent :=
  reclaimMachine.watch fun s call =>
    (s.1.step s.2 call.1 call.2).request.toList.map fun request => ⟨call.1, request, call.2⟩

/-- The id is the one the latest successful `POST` was answered with, and no poll has been refused
since. -/
def Claimed (log : List Sent) (id : String) : Prop :=
  id ≠ "" ∧ Since (fun e => e.taken = some id) (fun e => e.taken = none ∧ e.refusal = false) log

/-! ## One call -/

namespace ReclaimFlow

/-- The request that the flow makes next. -/
def next (f : ReclaimFlow) : EnrollRequest :=
  if f.enrollId = "" then .post none else .poll f.enrollId

theorem flow_step (f : ReclaimFlow) (files : Files) (now : Time) (reply : Outcome) :
    (f.step files now reply).flow = (f.ask now reply).flow := by
  rw [step]
  cases (f.ask now reply).issued <;> rfl

/-- A call that comes too early changes nothing. -/
theorem step_early {f : ReclaimFlow} {now : Time} (h : now < f.nextTry) (files : Files)
    (reply : Outcome) :
    f.step files now reply =
      { flow := f, request := none, files := files, token := none, raised := false } := by
  rw [step, ask, if_pos h]

/-- **The id after a request** is the one it took, none if it was refused, and else the one held. -/
theorem enrollId_ask {f : ReclaimFlow} {now : Time} (h : f.nextTry ≤ now) (reply : Outcome) :
    let sent : Sent := ⟨now, f.next, reply⟩
    (f.ask now reply).flow.enrollId =
      sent.taken.getD (if sent.refusal then "" else f.enrollId) := by
  by_cases hid : f.enrollId = ""
  · cases reply with
    | exception => simp [ask, next, Sent.taken, not_lt.2 h, hid]
    | response r =>
      by_cases hnone : r.status.code = 404
      · simp [ask, next, Sent.taken, Sent.refusal, not_lt.2 h, hid, hnone, Status.failed]
      · by_cases hfailed : r.status.failed
        · simp [ask, next, Sent.taken, Sent.refusal, not_lt.2 h, hid, hnone, hfailed]
        · simp [ask, next, Sent.taken, not_lt.2 h, hid, hnone, hfailed]
  · cases reply with
    | exception => simp [ask, next, Sent.taken, Sent.refusal, not_lt.2 h, hid]
    | response r =>
      by_cases hfailed : r.status.failed
      · simp [ask, next, Sent.taken, Sent.refusal, not_lt.2 h, hid, hfailed]
      · by_cases hrefused : refused (statusOf r.data)
        · simp [ask, next, Sent.taken, Sent.refusal, not_lt.2 h, hid, hfailed, hrefused]
        · by_cases htoken : tokenOf r.data = "" <;>
            simp [ask, next, Sent.taken, Sent.refusal, not_lt.2 h, hid, hfailed, hrefused, htoken]

/-- A request puts the next one off, whatever it comes to. -/
theorem nextTry_ask {f : ReclaimFlow} {now : Time} (h : f.nextTry ≤ now) (reply : Outcome) :
    (f.ask now reply).flow.nextTry = now + f.minInterval ∧
      (f.ask now reply).flow.minInterval = f.minInterval := by
  unfold ask
  rw [if_neg (not_lt.2 h)]
  dsimp only
  split
  · split
    · exact ⟨rfl, rfl⟩
    · split
      · exact ⟨rfl, rfl⟩
      · split <;> exact ⟨rfl, rfl⟩
  · split
    · exact ⟨rfl, rfl⟩
    · split
      · exact ⟨rfl, rfl⟩
      · split
        · exact ⟨rfl, rfl⟩
        · split <;> exact ⟨rfl, rfl⟩

end ReclaimFlow

/-- **What a call does**: nothing at all when it comes too early, and else one request. -/
theorem sentMachine_step (s : ReclaimFlow × Files) (call : Time × Outcome) :
    call.1 < s.1.nextTry ∧ sentMachine.step s call = (s, []) ∨
      s.1.nextTry ≤ call.1 ∧ (sentMachine.step s call).2 = [⟨call.1, s.1.next, call.2⟩] ∧
        (sentMachine.step s call).1.1 = (s.1.ask call.1 call.2).flow := by
  rcases lt_or_ge call.1 s.1.nextTry with hearly | hdue
  · refine .inl ⟨hearly, ?_⟩
    rw [sentMachine, Machine.watch_step, reclaimMachine]
    simp only [ReclaimFlow.step_early hearly]
    rfl
  · refine .inr ⟨hdue, ?_, s.1.flow_step s.2 call.1 call.2⟩
    show (s.1.step s.2 call.1 call.2).request.toList.map _ = _
    rw [request_step hdue]
    rfl

/-! ## What the log says of the state -/

/-- The claim that is open after one more request. -/
theorem claimed_append_singleton {log : List Sent} {e : Sent} {id : String} :
    Claimed (log ++ [e]) id ↔
      id ≠ "" ∧ e.taken = some id ∨ e.taken = none ∧ e.refusal = false ∧ Claimed log id := by
  rw [Claimed, since_append_singleton, Claimed]
  tauto

/-- The state of the flow against the log of its requests. -/
structure TracksLog (minInterval : Time) (s : ReclaimFlow × Files) (log : List Sent) : Prop where
  interval : s.1.minInterval = minInterval
  /-- The next request is far enough from every one before. -/
  wait : ∀ e ∈ log, e.now + minInterval ≤ s.1.nextTry
  apart : log.Pairwise fun e e' => e.now + minInterval ≤ e'.now
  /-- The id that is held is that of the open claim. -/
  claim : ∀ id, Claimed log id ↔ id ≠ "" ∧ s.1.enrollId = id

theorem tracksLog_init (tokenFile : String) (minInterval : Time) (files : Files) :
    TracksLog minInterval (ReclaimFlow.init tokenFile minInterval, files) [] where
  interval := rfl
  wait := by simp
  apart := .nil
  claim id := by
    constructor
    · exact fun h => absurd h.2 not_since_nil
    · rintro ⟨hne, hid⟩
      exact absurd hid.symm hne

/-- **Every call keeps it.** -/
theorem tracksLog_step {minInterval : Time} {s : ReclaimFlow × Files} {log : List Sent}
    (call : Time × Outcome) (h : TracksLog minInterval s log) :
    TracksLog minInterval (sentMachine.step s call).1 (log ++ (sentMachine.step s call).2) := by
  rcases sentMachine_step s call with ⟨-, hstep⟩ | ⟨hdue, hsent, hflow⟩
  · rw [hstep, List.append_nil]
    exact h
  · obtain ⟨hnext, hinterval⟩ := ReclaimFlow.nextTry_ask hdue call.2
    have hid := ReclaimFlow.enrollId_ask hdue call.2
    rw [← hflow] at hnext hinterval hid
    rw [hsent]
    refine ⟨hinterval.trans h.interval, ?_, ?_, ?_⟩
    · intro e he
      rw [hnext, h.interval]
      rcases List.mem_append.1 he with he | he
      · exact (h.wait e he).trans (hdue.trans (Nat.le_add_right _ _))
      · rw [List.mem_singleton.1 he]
    · rw [List.pairwise_append]
      refine ⟨h.apart, List.pairwise_singleton _ _, ?_⟩
      intro e he e' he'
      rw [List.mem_singleton.1 he']
      exact (h.wait e he).trans hdue
    · intro id
      rw [claimed_append_singleton, hid, h.claim]
      cases htaken : Sent.taken ⟨call.1, s.1.next, call.2⟩ with
      | some id' => simp
      | none =>
        cases hrefusal : Sent.refusal ⟨call.1, s.1.next, call.2⟩ with
        | true => simp +contextual [eq_comm]
        | false => simp

/-- **The next request** polls the open claim, and is a `POST` when there is none. -/
theorem TracksLog.next {minInterval : Time} {s : ReclaimFlow × Files} {log : List Sent}
    (h : TracksLog minInterval s log) :
    (∀ id, s.1.next = .poll id ↔ Claimed log id) ∧
      ((∀ id, ¬ Claimed log id) → s.1.next = .post none) := by
  unfold ReclaimFlow.next
  by_cases hid : s.1.enrollId = ""
  · rw [if_pos hid]
    refine ⟨fun id => ?_, fun _ => rfl⟩
    rw [h.claim, hid]
    simp +contextual [eq_comm]
  · rw [if_neg hid]
    refine ⟨fun id => ?_, fun hnone => ?_⟩
    · rw [h.claim, EnrollRequest.poll.injEq]
      exact ⟨fun heq => ⟨heq ▸ hid, heq⟩, And.right⟩
    · exact absurd ((h.claim _).2 ⟨hid, rfl⟩) (hnone _)

/-- A network exception leaves the id that is held. -/
theorem enrollId_exception (s : ReclaimFlow × Files) (now : Time) :
    (sentMachine.step s (now, .exception)).1.1.enrollId = s.1.enrollId := by
  rcases sentMachine_step s (now, .exception) with ⟨-, hstep⟩ | ⟨hdue, -, hflow⟩
  · rw [hstep]
  · rw [hflow, ReclaimFlow.enrollId_ask hdue]
    cases s.1.next <;> rfl

/-! ## Whole runs -/

/-- **The requests of the flow**: at most one a call, any two at least `minInterval` apart; a poll
for the open claim and for no other, and a `POST` when no claim is open; and a network exception
leaves the id that is held. -/
theorem reclaim_paced (tokenFile : String) (minInterval : Time) (files : Files)
    (calls : List (Time × Outcome)) :
    let start := (ReclaimFlow.init tokenFile minInterval, files)
    (∀ before call after, calls = before ++ call :: after →
      (sentMachine.step (sentMachine.run start before).1 call).2.length ≤ 1) ∧
    ((sentMachine.run start calls).2.Pairwise fun e e' => e.now + minInterval ≤ e'.now) ∧
    (∀ pre sent post, (sentMachine.run start calls).2 = pre ++ sent :: post →
      (∀ id, sent.request = .poll id ↔ Claimed pre id) ∧
        ((∀ id, ¬ Claimed pre id) → sent.request = .post none)) ∧
    ∀ before now after, calls = before ++ (now, .exception) :: after →
      (sentMachine.run start (before ++ [(now, .exception)])).1.1.enrollId =
        (sentMachine.run start before).1.1.enrollId := by
  intro start
  have hinit : TracksLog minInterval start [] := tracksLog_init tokenFile minInterval files
  refine ⟨?_, ?_, ?_, ?_⟩
  · intro before call after _
    rcases sentMachine_step (sentMachine.run start before).1 call with ⟨-, hstep⟩ | ⟨-, hsent, -⟩
    · rw [hstep]
      exact Nat.zero_le 1
    · rw [hsent, List.length_singleton]
  · exact (sentMachine.run_invariant' (fun _ _ call h => tracksLog_step call h) calls hinit).apart
  · intro pre sent post hlog
    refine sentMachine.run_outputs (I := TracksLog minInterval)
      (P := fun pre sent => (∀ id, sent.request = .poll id ↔ Claimed pre id) ∧
        ((∀ id, ¬ Claimed pre id) → sent.request = .post none))
      (fun _ _ call h => tracksLog_step call h) ?_ hinit hlog
    intro s log call done e rest h hout
    rcases sentMachine_step s call with ⟨-, hstep⟩ | ⟨-, hsent, -⟩
    · rw [hstep] at hout
      exact absurd hout (by simp)
    · rw [hsent] at hout
      cases done with
      | nil =>
        obtain ⟨rfl, -⟩ := List.cons.inj hout
        rw [List.append_nil]
        exact h.next
      | cons d done => exact absurd hout (by simp)
  · intro before now after _
    rw [Machine.run_concat]
    exact enrollId_exception _ now

/-- A claim that is polled after a lost poll and then expires, with a call that comes too early. -/
def expiringCalls : List (Time × Outcome) :=
  [(5, .response (jsonReply [(.str "enroll_id", .str "e1")])),
    (20, .exception),
    (70, .exception),
    (130, .response (jsonReply [(.str "status", .str "expired")])),
    (200, .exception)]

/-- Its requests are paced: a `POST`, two polls of the claim and another `POST`. -/
theorem expiringCalls_paced :
    ((sentMachine.run (ReclaimFlow.init "" 60, fun _ => none) expiringCalls).2.map Sent.request =
      [.post none, .poll "e1", .poll "e1", .post none]) ∧
    (sentMachine.run (ReclaimFlow.init "" 60, fun _ => none) expiringCalls).2.Pairwise
      fun e e' => e.now + 60 ≤ e'.now :=
  ⟨by decide +kernel, (reclaim_paced "" 60 (fun _ => none) expiringCalls).2.1⟩

end OoAgent
