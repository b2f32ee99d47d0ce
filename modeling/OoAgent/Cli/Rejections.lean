import OoAgent.Cli.Sink

/-!
# Counting authorization rejections

The sink wipes its token after three authorization rejections in a row.  The
count is kept in two places: `auth_status` of the client, set by every push and
cleared only by an accepted one, and `auth_fails` of the sink.  A 4xx that says
nothing about the token leaves `auth_status` as it is, so with an old rejection
still on record it is counted as one more.

* `liveAnswers` — the answers to the live pushes, each with the token it was
  given to.
* `tallied_pushSink` — what one call does to the count.
* `counted_step` — the step lemma: the count is a number of rejections of the
  token in use, as long as no stale rejection is counted.
* `wipes_only_rejected_tokens_iff` — **over whole runs**: the token is wiped for
  rejections of that very token only, exactly when no call meets another 4xx
  while a rejection is on record.
-/

namespace OoAgent

variable {α : Type}

/-! ## The answers to the live pushes -/

/-- The token and the status of an answer to a live push. -/
def Event.liveAnswer : Event α → Option (String × Status)
  | .post .live token _ (.response r) =>
    if r.status.definitive then some (token, r.status) else none
  | _ => none

/-- The answers to the live pushes of a log, in order. -/
def liveAnswers (log : List (Event α)) : List (String × Status) := log.filterMap Event.liveAnswer

@[simp] theorem liveAnswers_append (l m : List (Event α)) :
    liveAnswers (l ++ m) = liveAnswers l ++ liveAnswers m := List.filterMap_append

theorem liveAnswers_open {tries : List Outcome} (h : Open tries) (token : String) (payload : α) :
    liveAnswers (attempts .live token payload tries) = [] := by
  rw [liveAnswers, attempts, List.filterMap_map, List.filterMap_eq_nil_iff]
  intro o ho
  cases o with
  | exception => rfl
  | response r => simpa [Event.liveAnswer, Outcome.definitive] using h _ ho

/-- A live push has one answer, or none. -/
theorem liveAnswers_liveEvents (d : Daemon α) (call : Call α) :
    liveAnswers (liveEvents d call) =
      (answer call.http).toList.map fun r => (d.client.token, r.status) := by
  have hspec := d.client.push_spec call.http
  have hanswer := @definitive_answer call.http
  have hevents : liveAnswers (liveEvents d call) = liveAnswers
      (attempts .live d.client.token call.payload (d.client.push call.http).tries) := rfl
  have hlast : ∀ r : Response, r.status.definitive = true →
      liveAnswers (attempts .live d.client.token call.payload [.response r]) =
        [(d.client.token, r.status)] := by
    intro r hr
    simp [liveAnswers, attempts, Event.liveAnswer, hr]
  have happend : ∀ l m : List Outcome, attempts .live d.client.token call.payload (l ++ m) =
      attempts .live d.client.token call.payload l ++
        attempts .live d.client.token call.payload m := fun l m => List.map_append
  rw [hevents]
  generalize answer call.http = a, d.client.push call.http = p at hspec hanswer ⊢
  cases hspec with
  | accepted hopen =>
    rw [happend, liveAnswers_append, liveAnswers_open hopen, hlast _ (hanswer rfl)]
    rfl
  | rejected hopen =>
    rw [happend, liveAnswers_append, liveAnswers_open hopen, hlast _ (hanswer rfl)]
    rfl
  | undelivered hopen => exact liveAnswers_open hopen _ _

/-- **The answers one call collects**: that of its live push, when it makes one. -/
theorem liveAnswers_pushSink [Payload α] (d : Daemon α) (call : Call α) :
    liveAnswers (pushSink d call).2 =
      if d.reclaim = none then
        (answer call.http).toList.map fun r => (d.client.token, r.status)
      else [] := by
  have hspec := pushSink_spec d call
  have hlive : liveAnswers (liveEvents (d.atCall call) call) =
      (answer call.http).toList.map fun r => (d.client.token, r.status) :=
    liveAnswers_liveEvents (d.atCall call) call
  have hmode : (d.atCall call).reclaim = d.reclaim := rfl
  have henroll : ∀ s, liveAnswers (enrollEvents s call.reply : List (Event α)) = [] := by
    intro s
    cases hrequest : s.request <;> cases hraised : s.raised <;>
      simp [liveAnswers, enrollEvents, Event.liveAnswer, hrequest, hraised]
  rw [← hmode]
  generalize d.atCall call = d', pushSink d call = out at hspec hlive ⊢
  cases hspec with
  | unenrolled mode =>
    rw [if_neg (by simp [mode])]
    exact henroll _
  | reenrolled mode =>
    rw [if_neg (by simp [mode]), liveAnswers_append, henroll]
    rfl
  | counted mode => rw [if_pos mode, hlive]
  | wiped mode =>
    rw [if_pos mode, liveAnswers_append, hlive]
    exact List.append_nil _
  | answered mode =>
    rw [if_pos mode, ← hlive]
    have hupdate : ∀ d : Daemon α, liveAnswers (maybeSelfUpdate d call.now).2 = [] := by
      intro d
      unfold maybeSelfUpdate
      split
      · rfl
      · split <;> rfl
    have hdrain : ∀ (d : Daemon α) http, liveAnswers (drainQueue d http).2 = [] := by
      intro d http
      refine List.filterMap_eq_nil_iff.2 fun e he => ?_
      rcases mem_drainQueue he with ⟨id, payload, o, rfl⟩ | ⟨ids, rfl⟩
      · rfl
      · rfl
    simp only [afterAnswer, liveAnswers_append, hupdate, hdrain, List.append_nil]
  | undelivered mode =>
    rw [if_pos mode, liveAnswers_append, hlive]
    have henqueue : ∀ d : Daemon α, liveAnswers (enqueue d call).2 = [] := by
      intro d
      unfold enqueue
      split <;> rfl
    rw [henqueue, List.append_nil]

/-! ## What one call does to the count -/

/-- The sink takes an answer for an authorization rejection. -/
def countsAsRejection (d : Daemon α) (r : Response) : Bool :=
  !r.status.accepted && (r.status.auth || d.client.authStatus.isSome)

theorem isSome_authStatus_push {d : Daemon α} {call : Call α} {r : Response}
    (h : answer call.http = some r) :
    (d.client.push call.http).client.authStatus.isSome = countsAsRejection d r := by
  rw [TransportClient.authStatus_push h, countsAsRejection]
  cases r.status.accepted <;> cases r.status.auth <;> simp

/-- What a call in push mode does to the count, the mode and the token. -/
inductive Tallied (d : Daemon α) (call : Call α) (d' : Daemon α) : Prop
  /-- No answer: nothing is counted. -/
  | unanswered (silent : answer call.http = none) (fails : d'.authFails = d.authFails)
      (mode : d'.reclaim = none) (token : d'.client.token = d.client.token)
  /-- An answer that is no rejection of the token: the count starts anew. -/
  | reset {r : Response} (answered : answer call.http = some r)
      (other : countsAsRejection d r = false) (fails : d'.authFails = 0)
      (mode : d'.reclaim = none) (token : d'.client.token = d.client.token)
  /-- One more rejection. -/
  | few {r : Response} (answered : answer call.http = some r)
      (rejection : countsAsRejection d r = true) (few : d.authFails + 1 < authFailLimit)
      (fails : d'.authFails = d.authFails + 1)
      (mode : d'.reclaim = none) (token : d'.client.token = d.client.token)
  /-- One rejection too many: the token is wiped. -/
  | many {r : Response} (answered : answer call.http = some r)
      (rejection : countsAsRejection d r = true) (many : authFailLimit ≤ d.authFails + 1)
      (fails : d'.authFails = d.authFails + 1) (mode : d'.reclaim ≠ none)

/-- **What a call in push mode does to the count.** -/
theorem tallied_pushSink [Payload α] {d : Daemon α} (hmode : d.reclaim = none) (call : Call α) :
    Tallied d call (pushSink d call).1 := by
  have hspec := pushSink_spec d call
  have hmode' : (d.atCall call).reclaim = none := hmode
  have hdone := d.client.done_push call.http
  have hstatus := @isSome_authStatus_push α d call
  have htoken := TransportClient.token_congr (d.client.endpoint_push call.http)
  generalize hout : pushSink d call = out at hspec ⊢
  cases hspec with
  | unenrolled mode => exact absurd (hmode'.symm.trans mode) (by simp)
  | reenrolled mode => exact absurd (hmode'.symm.trans mode) (by simp)
  | counted _ answered auth few =>
    obtain ⟨r, hr⟩ := Option.isSome_iff_exists.1 (hdone.symm.trans answered)
    exact .few hr ((hstatus hr).symm.trans auth) few rfl hmode' htoken
  | wiped _ answered auth many =>
    obtain ⟨r, hr⟩ := Option.isSome_iff_exists.1 (hdone.symm.trans answered)
    exact .many hr ((hstatus hr).symm.trans auth) many rfl (by simp [wipeToken])
  | answered _ answered auth =>
    obtain ⟨r, hr⟩ := Option.isSome_iff_exists.1 (hdone.symm.trans answered)
    obtain ⟨hendpoint, hfails, hreclaim, -⟩ := afterAnswer_frame (d.atCall call) call
    have hnone : (d.client.push call.http).client.authStatus = none := auth
    exact .reset hr ((hstatus hr).symm.trans (by rw [hnone]; rfl)) hfails
      (hreclaim.trans hmode') (TransportClient.token_congr hendpoint)
  | undelivered _ unanswered =>
    obtain ⟨hclient, hfails, hreclaim, -⟩ := enqueue_frame
      { d.atCall call with client := (d.client.push call.http).client } call
    have hnone : answer call.http = none := by
      rw [← Option.isNone_iff_eq_none, ← Option.not_isSome, ← hdone]
      exact congrArg (! ·) unanswered
    refine .unanswered hnone hfails (hreclaim.trans hmode') ?_
    exact (congrArg TransportClient.token hclient).trans htoken

/-- In the re-claim mode nothing is counted, and a new token starts with no
rejection. -/
theorem reclaim_pushSink [Payload α] {d : Daemon α} (hmode : d.reclaim ≠ none) (call : Call α) :
    ((pushSink d call).1.reclaim = none → (pushSink d call).1.authFails = 0) ∧
      ((pushSink d call).1.reclaim ≠ none → (pushSink d call).1.authFails = d.authFails) := by
  have hspec := pushSink_spec d call
  have hmode' : (d.atCall call).reclaim ≠ none := hmode
  generalize pushSink d call = out at hspec ⊢
  cases hspec with
  | unenrolled => exact ⟨fun h => absurd h (by simp), fun _ => rfl⟩
  | reenrolled => exact ⟨fun _ => rfl, fun h => absurd rfl h⟩
  | counted mode => exact absurd mode hmode'
  | wiped mode => exact absurd mode hmode'
  | answered mode => exact absurd mode hmode'
  | undelivered mode => exact absurd mode hmode'

/-! ## The end of a list -/

section LastAll

variable {β : Type}

/-- The last `n` elements of a list all satisfy `P`. -/
def LastAll (n : Nat) (P : β → Prop) (l : List β) : Prop :=
  ∃ before last, l = before ++ last ∧ last.length = n ∧ ∀ a ∈ last, P a

variable {P : β → Prop} {l : List β} {m n : Nat}

theorem LastAll.zero : LastAll 0 P l := ⟨l, [], by simp, rfl, by simp⟩

theorem LastAll.concat (h : LastAll n P l) {a : β} (ha : P a) : LastAll (n + 1) P (l ++ [a]) := by
  obtain ⟨before, last, rfl, hlen, hall⟩ := h
  refine ⟨before, last ++ [a], by rw [List.append_assoc], by simp [hlen], ?_⟩
  intro b hb
  rcases List.mem_append.1 hb with hb | hb
  · exact hall b hb
  · rwa [List.mem_singleton.1 hb]

theorem LastAll.mono (h : LastAll n P l) (hle : m ≤ n) : LastAll m P l := by
  obtain ⟨before, last, rfl, rfl, hall⟩ := h
  refine ⟨before ++ last.take (last.length - m), last.drop (last.length - m), ?_, ?_, ?_⟩
  · rw [List.append_assoc, List.take_append_drop]
  · rw [List.length_drop]
    omega
  · intro a ha
    exact hall a (List.mem_of_mem_drop ha)

end LastAll

/-! ## The law -/

/-- An answer rejects a token: 401, 403 or 410 to a push that carried it. -/
def Rejects (token : String) (a : String × Status) : Prop := a.1 = token ∧ a.2.auth = true

/-- The call wipes the token: it removes the token file, or it enters the re-claim
mode. -/
def Wipes [Payload α] (d : Daemon α) (call : Call α) : Prop :=
  .removedToken ∈ (pushSink d call).2 ∨ d.reclaim = none ∧ (pushSink d call).1.reclaim ≠ none

/-- What one call may count, given the answers to the live pushes before it. -/
structure CountsRejections [Payload α] (history : List (String × Status)) (d : Daemon α)
    (call : Call α) : Prop where
  /-- The token is wiped only when the last three answers rejected it. -/
  wiped : Wipes d call →
    LastAll 3 (Rejects d.client.token) (history ++ liveAnswers (pushSink d call).2)
  /-- The count goes up only when the answer to this call's push rejects its token. -/
  counted : d.reclaim = none → d.authFails < (pushSink d call).1.authFails →
    ∃ a ∈ liveAnswers (pushSink d call).2, Rejects d.client.token a
  /-- What has been counted are rejections of the token in use. -/
  own : (pushSink d call).1.reclaim = none →
    LastAll (pushSink d call).1.authFails (Rejects (pushSink d call).1.client.token)
      (history ++ liveAnswers (pushSink d call).2)

/-- Every call of the run obeys the law. -/
def WipesOnlyRejectedTokens [Payload α] (d : Daemon α) (calls : List (Call α)) : Prop :=
  ∀ before call after, calls = before ++ call :: after →
    CountsRejections (liveAnswers (sinkMachine.run d before).2) (sinkMachine.run d before).1 call

/-- In push mode, a 4xx that is no authorization rejection only comes when none is on
record. -/
def NoStaleRejection (d : Daemon α) (call : Call α) : Prop :=
  d.reclaim = none → ∀ r, answer call.http = some r → r.status.rejected = true →
    r.status.auth = false → d.client.authStatus = none

/-- What has been counted so far are rejections of the token in use. -/
def OwnCount (d : Daemon α) (log : List (Event α)) : Prop :=
  d.reclaim = none → LastAll d.authFails (Rejects d.client.token) (liveAnswers log)

/-- Without a stale rejection, only real ones are counted. -/
theorem NoStaleRejection.auth {d : Daemon α} {call : Call α} (h : NoStaleRejection d call)
    (hmode : d.reclaim = none) {r : Response} (hr : answer call.http = some r)
    (hcounts : countsAsRejection d r = true) : r.status.auth = true := by
  have hdef := definitive_answer hr
  rw [countsAsRejection, Bool.and_eq_true, Bool.not_eq_true', Bool.or_eq_true] at hcounts
  obtain ⟨haccepted, hauth | hstale⟩ := hcounts
  · exact hauth
  · rw [Status.definitive, haccepted, Bool.false_or] at hdef
    by_contra hother
    have hnone := h hmode r hr hdef (by simpa using hother)
    rw [hnone] at hstale
    exact absurd hstale (by simp)

theorem removedToken_not_mem_liveEvents (d : Daemon α) (call : Call α) :
    Event.removedToken ∉ liveEvents d call := by
  intro h
  rcases mem_liveEvents h with h | ⟨o, h⟩
  · exact absurd h (by simp)
  · exact absurd h (by simp)

theorem removedToken_not_mem_afterAnswer (d : Daemon α) (call : Call α) :
    Event.removedToken ∉ (afterAnswer d call).2 := by
  intro h
  rcases mem_afterAnswer h with h | h | ⟨id, payload, o, h⟩ | ⟨ids, h⟩
  · exact removedToken_not_mem_liveEvents d call h
  · exact absurd h (by simp)
  · exact absurd h (by simp)
  · exact absurd h (by simp)

variable [Payload α]

/-- The token file is removed only when the re-claim mode is entered. -/
theorem Wipes.enters {d : Daemon α} {call : Call α} (h : Wipes d call) :
    d.reclaim = none ∧ (pushSink d call).1.reclaim ≠ none := by
  rcases h with hmem | h
  · have hspec := pushSink_spec d call
    have hmode : (d.atCall call).reclaim = d.reclaim := rfl
    rw [← hmode]
    generalize d.atCall call = d', pushSink d call = out at hspec hmem ⊢
    cases hspec with
    | unenrolled => exact absurd hmem (by simp [enrollEvents])
    | reenrolled => exact absurd hmem (by simp [enrollEvents])
    | counted => exact absurd hmem (removedToken_not_mem_liveEvents _ _)
    | wiped mode => exact ⟨mode, by simp [wipeToken]⟩
    | answered => exact absurd hmem (removedToken_not_mem_afterAnswer _ _)
    | undelivered =>
      rcases List.mem_append.1 hmem with hmem | hmem
      · exact absurd hmem (removedToken_not_mem_liveEvents _ _)
      · obtain ⟨row, trimmed, h⟩ := mem_enqueue hmem
        exact absurd h (by simp)
  · exact h

/-! ## One step -/

/-- A call that counts no stale rejection obeys the law. -/
theorem counted_step {d : Daemon α} {log : List (Event α)} {call : Call α}
    (hown : OwnCount d log) (hfresh : NoStaleRejection d call) :
    CountsRejections (liveAnswers log) d call := by
  by_cases hmode : d.reclaim = none
  · have hlast := hown hmode
    have hanswers := liveAnswers_pushSink d call
    rw [if_pos hmode] at hanswers
    cases tallied_pushSink hmode call with
    | unanswered silent fails mode token =>
      rw [silent, Option.toList_none, List.map_nil] at hanswers
      refine ⟨fun h => absurd mode h.enters.2, fun _ h => by omega, fun _ => ?_⟩
      rwa [fails, token, hanswers, List.append_nil]
    | reset _ _ fails mode token =>
      refine ⟨fun h => absurd mode h.enters.2, fun _ h => by omega, fun _ => ?_⟩
      rw [fails]
      exact LastAll.zero
    | @few r answered rejection few fails mode token =>
      have hrejects : Rejects d.client.token (d.client.token, r.status) :=
        ⟨rfl, hfresh.auth hmode answered rejection⟩
      rw [answered, Option.toList_some, List.map_singleton] at hanswers
      refine ⟨fun h => absurd mode h.enters.2, fun _ _ => ?_, fun _ => ?_⟩
      · rw [hanswers]
        exact ⟨_, List.mem_singleton_self _, hrejects⟩
      · rw [fails, token, hanswers]
        exact hlast.concat hrejects
    | @many r answered rejection many fails mode =>
      have hrejects : Rejects d.client.token (d.client.token, r.status) :=
        ⟨rfl, hfresh.auth hmode answered rejection⟩
      rw [answered, Option.toList_some, List.map_singleton] at hanswers
      refine ⟨fun _ => ?_, fun _ _ => ?_, fun h => absurd h mode⟩
      · rw [hanswers]
        exact (hlast.concat hrejects).mono many
      · rw [hanswers]
        exact ⟨_, List.mem_singleton_self _, hrejects⟩
  · refine ⟨fun h => absurd h.enters.1 hmode, fun h => absurd h hmode, fun h => ?_⟩
    rw [(reclaim_pushSink hmode call).1 h]
    exact LastAll.zero

/-- The law fails at a call that counts a stale rejection. -/
theorem NoStaleRejection.of_counts {d : Daemon α} {history : List (String × Status)}
    {call : Call α} (h : CountsRejections history d call) : NoStaleRejection d call := by
  intro hmode r hr hrejected hother
  by_contra hstale
  have hcounts : countsAsRejection d r = true := by
    rw [countsAsRejection, Status.not_accepted_of_rejected hrejected]
    cases hstatus : d.client.authStatus with
    | none => exact absurd hstatus hstale
    | some status => simp
  have hgrows : (pushSink d call).1.authFails = d.authFails + 1 := by
    cases tallied_pushSink hmode call with
    | unanswered silent => exact absurd (hr.symm.trans silent) (by simp)
    | reset answered other =>
      obtain rfl : r = _ := Option.some.inj (hr.symm.trans answered)
      exact absurd (hcounts.symm.trans other) (by simp)
    | few _ _ _ fails => exact fails
    | many _ _ _ fails => exact fails
  obtain ⟨a, ha, hrejects⟩ := h.counted hmode (by omega)
  rw [liveAnswers_pushSink, if_pos hmode, hr, Option.toList_some, List.map_singleton,
    List.mem_singleton] at ha
  rw [ha] at hrejects
  exact absurd (hother.symm.trans hrejects.2) (by simp)

/-! ## Runs -/

/-- **The token is wiped for rejections of that token only**, over a whole run from
start-up, exactly when no call of the run meets a 4xx of another kind while an
authorization rejection is still on record. -/
theorem wipes_only_rejected_tokens_iff {options : List (Key × Value)} {files : Files}
    {queue : Option (DiskQueue α)} {d : Daemon α}
    (hstart : buildSink options files queue = some (.push d)) (calls : List (Call α)) :
    WipesOnlyRejectedTokens d calls ↔ sinkMachine.Along NoStaleRejection d calls := by
  obtain ⟨client, -, -, hd⟩ := buildSink_push hstart
  have hnothing : OwnCount d [] := by
    intro _
    rw [hd]
    exact LastAll.zero
  constructor
  · intro hlaw
    rw [Machine.along_iff]
    intro before call after hsplit
    exact .of_counts (hlaw before call after hsplit)
  · rintro hfresh before call after rfl
    obtain ⟨hbefore, hcall, -⟩ := (Machine.along_append _ _ _ _).1 hfresh
    have hstep : ∀ (d : Daemon α) log call, NoStaleRejection d call → OwnCount d log →
        OwnCount (sinkMachine.step d call).1 (log ++ (sinkMachine.step d call).2) := by
      intro d log call hfresh hown hmode
      rw [liveAnswers_append]
      exact (counted_step hown hfresh).own hmode
    exact counted_step (sinkMachine.run_invariant hstep hbefore hnothing) hcall

/-- Three rejections of the token in a row: the law holds, and the token is wiped. -/
theorem wipes_only_rejected_tokens_iff_three :
    WipesOnlyRejectedTokens sampleDaemon (List.replicate 3 (sampleCall 1 (.ofStatus 401))) := by
  refine (wipes_only_rejected_tokens_iff sampleDaemon_start _).2 ⟨?_, ?_, ?_, trivial⟩
  all_goals
    intro _ r hr _ hother
    obtain rfl := Option.some.inj hr
    exact absurd hother (by decide)

/-- **A stale rejection**: one 401 and two 400s wipe the token. -/
theorem stale_rejection_wipes : ¬ WipesOnlyRejectedTokens sampleDaemon
    [sampleCall 1 (.ofStatus 401), sampleCall 2 (.ofStatus 400), sampleCall 3 (.ofStatus 400)] := by
  intro h
  let before := [sampleCall 1 (.ofStatus 401), sampleCall 2 (.ofStatus 400)]
  have hwipes : Wipes (sinkMachine.run sampleDaemon before).1 (sampleCall 3 (.ofStatus 400)) :=
    .inr ⟨rfl, fun hnone => absurd (congrArg Option.isSome hnone) (by decide)⟩
  obtain ⟨first, last, hlist, hlen, hall⟩ :=
    (h before (sampleCall 3 (.ofStatus 400)) [] rfl).wiped hwipes
  have hanswers : liveAnswers (sinkMachine.run sampleDaemon before).2 ++ liveAnswers
      (pushSink (sinkMachine.run sampleDaemon before).1 (sampleCall 3 (.ofStatus 400))).2 =
        [("t0", ⟨401, by decide⟩), ("t0", ⟨400, by decide⟩), ("t0", ⟨400, by decide⟩)] := rfl
  have hlength := congrArg List.length (hlist.symm.trans hanswers)
  rw [List.length_append, hlen] at hlength
  have hfirst : first = [] := List.length_eq_zero_iff.1 (Nat.add_right_cancel hlength)
  rw [hanswers, hfirst, List.nil_append] at hlist
  have hrejects := hall ("t0", ⟨400, by decide⟩) (by rw [← hlist]; simp)
  exact absurd hrejects.2 (by decide)

end OoAgent
