import OoAgent.Transport.Conversation

/-!
# The two enrolments agree

The re-claim flow is meant to do what `enroll()` does, one request per call.  Fed
the replies of a blocking run that was issued a token, with calls far enough
apart, it makes the same requests and ends with the same token — when the reply to
the `POST` carries no token of its own and names the id the way the flow reads it.

* `step_post`, `step_poll` — one request of the flow against a reply below 400.
* `drive_polls` — the simulation: the polls of the flow follow the polling loop.
* `enrolments_agree_iff` — **exactly when the two agree**.
-/

namespace OoAgent

/-! ## One request -/

/-- A call that is due makes its request. -/
theorem request_step {f : ReclaimFlow} {now : Time} (hdue : f.nextTry ≤ now) (reply : Outcome)
    (files : Files) :
    (f.step files now reply).request =
      some (if f.enrollId = "" then .post none else .poll f.enrollId) := by
  have hask : (f.ask now reply).request =
      some (if f.enrollId = "" then .post none else .poll f.enrollId) := by
    by_cases hid : f.enrollId = ""
    · simp [ReclaimFlow.ask, not_lt.2 hdue, hid]
    · simp only [ReclaimFlow.ask, not_lt.2 hdue, hid, if_false]
      split
      · rfl
      · split
        · rfl
        · split
          · rfl
          · split <;> rfl
  rw [← hask]
  simp only [ReclaimFlow.step]
  split <;> rfl

/-- The first request of a run whose first call is due. -/
theorem run_due {f : ReclaimFlow} {now : Time} (hdue : f.nextTry ≤ now) (reply : Outcome)
    (files : Files) (calls : List (Time × Outcome)) :
    ∃ rest, (reclaimMachine.run (f, files) ((now, reply) :: calls)).2.map Exchange.request =
      (if f.enrollId = "" then .post none else .poll f.enrollId) :: rest := by
  simp [Machine.run_cons, reclaimMachine, request_step hdue]

/-- A `POST` of the flow that is answered below 400. -/
theorem step_post {f : ReclaimFlow} (hid : f.enrollId = "") {now : Time} (hdue : f.nextTry ≤ now)
    {r : Response} (hok : r.status.failed = false) (files : Files) :
    f.step files now (.response r) =
      { flow :=
          { f with
            nextTry := now + f.minInterval
            enrollId := (Value.getD r.data "enroll_id" (.str "")).toStr
            waitingLogged := false }
        request := some (.post none), files := files, token := none, raised := false } := by
  have hfound : r.status.code ≠ 404 := by
    intro h
    rw [Status.failed, h] at hok
    exact absurd hok (by decide)
  simp [ReclaimFlow.step, ReclaimFlow.ask, hid, not_lt.2 hdue, hok, hfound]

/-- A poll of the flow that is answered below 400 while the claim is open. -/
theorem step_poll {f : ReclaimFlow} (hid : f.enrollId ≠ "") {now : Time} (hdue : f.nextTry ≤ now)
    {r : Response} (hok : r.status.failed = false) (hopen : refused (statusOf r.data) = false)
    (files : Files) :
    f.step files now (.response r) =
      if tokenOf r.data = "" then
        { flow := { f with nextTry := now + f.minInterval }
          request := some (.poll f.enrollId), files := files, token := none, raised := false }
      else
        let stored := storeToken files f.tokenFile (tokenOf r.data)
        { flow := { f with nextTry := now + f.minInterval }
          request := some (.poll f.enrollId)
          files := stored.files
          token := if stored.returned then some (tokenOf r.data) else none
          raised := !stored.returned } := by
  by_cases htoken : tokenOf r.data = ""
  · simp [ReclaimFlow.step, ReclaimFlow.ask, hid, not_lt.2 hdue, hok, hopen, htoken]
  · simp [ReclaimFlow.step, ReclaimFlow.ask, hid, not_lt.2 hdue, hok, hopen, htoken]

/-! ## The simulation -/

/-- Calls at least `minInterval` apart. -/
def Spaced (minInterval : Time) (times : List Time) : Prop :=
  times.IsChain fun now next => now + minInterval ≤ next

/-- The call after the first one, if there is any, is far enough from it. -/
theorem Spaced.le_next {minInterval now : Time} {times : List Time}
    (h : Spaced minInterval (now :: times)) :
    ∀ next ∈ times.head?, now + minInterval ≤ next := by
  intro next hnext
  cases times with
  | nil => exact absurd hnext (by simp)
  | cons next' times =>
    obtain rfl := Option.mem_some_iff.1 hnext
    exact (List.isChain_cons_cons.1 h).1

/-- **The polls of the flow follow the polling loop**: they wait where it waits, and
return and store what it returns. -/
theorem drive_polls {deadline : Time} {before : List Poll} (after : List Poll) {p : Poll}
    {r : Response} (hwaits : ∀ p ∈ before, Waits deadline p) (hreads : Reads deadline p r)
    (htoken : tokenOf r.data ≠ "") {f : ReclaimFlow} (hid : f.enrollId ≠ "")
    (hstorable : storable f.tokenFile (tokenOf r.data) = true) {times : List Time}
    (hspaced : Spaced f.minInterval times) (hlen : times.length = before.length + 1)
    (hdue : ∀ now ∈ times.head?, f.nextTry ≤ now) (files : Files) :
    ∃ f', reclaimMachine.run (f, files) (times.zip ((before ++ p :: after).map Poll.outcome)) =
      ((f', (storeToken files f.tokenFile (tokenOf r.data)).files),
        before.map (fun p => ⟨.poll f.enrollId, p.outcome, none⟩) ++
          [⟨.poll f.enrollId, p.outcome, some (tokenOf r.data)⟩]) := by
  induction before generalizing f times with
  | nil =>
    obtain ⟨now, rfl⟩ := List.length_eq_one_iff.1 hlen
    have hstep := step_poll hid (hdue now rfl) hreads.ok hreads.open_ files
    rw [if_neg htoken] at hstep
    simp only [returned_storeToken, hstorable] at hstep
    refine ⟨{ f with nextTry := now + f.minInterval }, ?_⟩
    simp [Machine.run_cons, reclaimMachine, hreads.reply, hstep]
  | cons q before ih =>
    cases times with
    | nil => exact absurd hlen (by simp)
    | cons now times =>
      obtain ⟨rq, hreads', hempty⟩ := hwaits q List.mem_cons_self
      have hstep := step_poll hid (hdue now rfl) hreads'.ok hreads'.open_ files
      rw [if_pos hempty] at hstep
      have hnext := hspaced.le_next
      have htail : Spaced f.minInterval times := hspaced.tail
      obtain ⟨f', hrun⟩ := ih (fun p hp => hwaits p (List.mem_cons_of_mem _ hp))
        (f := { f with nextTry := now + f.minInterval }) hid hstorable htail
        (by simpa using hlen) hnext
      refine ⟨f', ?_⟩
      have hlog : (reclaimMachine.step (f, files) (now, q.outcome)) =
          (({ f with nextTry := now + f.minInterval }, files),
            [⟨.poll f.enrollId, q.outcome, none⟩]) := by
        simp [reclaimMachine, hreads'.reply, hstep]
      rw [List.cons_append, List.map_cons, List.zip_cons_cons, Machine.run_cons, hlog]
      simp only [hrun]
      rfl

/-! ## Agreement -/

/-- Driven by one call for each request of the blocking run, against the same script,
the flow makes the same requests, consumes the same replies, returns the token at
the last of them and leaves the same files. -/
def Agrees (tokenFile : String) (minInterval : Time) (posted : Outcome) (polls : List Poll)
    (files : Files) (run : EnrollRun) (t : String) : Prop :=
  ∀ times : List Time, Spaced minInterval times → times.length = run.requests.length →
    let driven := reclaimMachine.run (ReclaimFlow.init tokenFile minInterval, files)
      (times.zip (script posted polls))
    driven.2.map Exchange.request = run.requests ∧
      driven.2.map Exchange.reply = (script posted polls).take run.requests.length ∧
      driven.2.map Exchange.token = List.replicate (run.requests.length - 1) none ++ [some t] ∧
      driven.1.2 = run.files

/-- The reply to the `POST` names the id the way the flow reads it. -/
def NamesId (r : Response) : Prop :=
  (Value.getD r.data "enroll_id" (.str "")).toStr = enrollIdOf r.data

/-- Evenly spaced calls. -/
theorem spaced_range (minInterval : Time) (n : Nat) :
    Spaced minInterval ((List.range n).map (· * minInterval)) := by
  rw [Spaced, List.isChain_map, List.isChain_iff_getElem]
  intro i hi
  simp [Nat.succ_mul]

/-- The first request of a new flow, against a reply below 400. -/
theorem run_init {r : Response} (hok : r.status.failed = false) (tokenFile : String)
    (minInterval now : Time) (files : Files) (calls : List (Time × Outcome)) :
    reclaimMachine.run (ReclaimFlow.init tokenFile minInterval, files)
        ((now, .response r) :: calls) =
      let rest := reclaimMachine.run
        ({ tokenFile := tokenFile, minInterval := minInterval
           enrollId := (Value.getD r.data "enroll_id" (.str "")).toStr
           nextTry := now + minInterval, waitingLogged := false }, files) calls
      (rest.1, ⟨.post none, .response r, none⟩ :: rest.2) := by
  have hstep := step_post (f := ReclaimFlow.init tokenFile minInterval) rfl (Nat.zero_le now) hok
    files
  rw [Machine.run_cons]
  simp only [reclaimMachine, hstep]
  rfl

/-- A flow whose `POST` named the id agrees with the blocking run. -/
theorem agrees_of_namesId {tokenFile : String} {minInterval deadline : Time} {posted : Response}
    (hok : posted.status.failed = false) (hnames : NamesId posted)
    (hid : enrollIdOf posted.data ≠ "") {polls before : List Poll} {r : Response}
    (hissues : Issues deadline polls before r)
    (hstorable : storable tokenFile (tokenOf r.data) = true) (files : Files) :
    Agrees tokenFile minInterval (.response posted) polls files
      (issuedRun "" tokenFile files (enrollIdOf posted.data) (tokenOf r.data) (before.length + 1))
      (tokenOf r.data) := by
  obtain ⟨⟨p, after, rfl, hreads⟩, hwaits, htoken⟩ := hissues
  intro times hspaced hlen
  cases times with
  | nil => exact absurd hlen (by simp [issuedRun])
  | cons now times =>
    have hlen' : times.length = before.length + 1 := by simpa [issuedRun] using hlen
    have hnext := hspaced.le_next
    have htail : Spaced minInterval times := hspaced.tail
    obtain ⟨f', hrun⟩ := drive_polls after hwaits hreads htoken
      (f := { tokenFile := tokenFile, minInterval := minInterval
              enrollId := enrollIdOf posted.data
              nextTry := now + minInterval, waitingLogged := false })
      hid hstorable htail hlen' hnext files
    have hdriven : reclaimMachine.run (ReclaimFlow.init tokenFile minInterval, files)
        ((now :: times).zip (script (.response posted) (before ++ p :: after))) =
          ((f', (storeToken files tokenFile (tokenOf r.data)).files),
            ⟨.post none, .response posted, none⟩ ::
              (before.map (fun p => ⟨.poll (enrollIdOf posted.data), p.outcome, none⟩) ++
                [⟨.poll (enrollIdOf posted.data), p.outcome, some (tokenOf r.data)⟩])) := by
      have hread : (Value.getD posted.data "enroll_id" (.str "")).toStr = enrollIdOf posted.data :=
        hnames
      rw [script, List.zip_cons_cons, run_init hok]
      simp only [hread, hrun]
    have hrequests : (issuedRun "" tokenFile files (enrollIdOf posted.data) (tokenOf r.data)
        (before.length + 1)).requests.length = before.length + 2 := by
      simp [issuedRun]
    simp only [hdriven, hrequests]
    refine ⟨?_, ?_, ?_, rfl⟩
    · simp [issuedRun, enrollPost, List.replicate_succ', Function.comp_def]
    · have hbefore : (before.map Poll.outcome).length = before.length := List.length_map _
      simp only [script, List.map_append, List.map_cons, List.take_succ_cons, ← hbefore,
        List.take_length_add_append, List.take_zero]
      simp [Function.comp_def]
    · simp [List.replicate_succ, Function.comp_def]

/-- A flow that agrees with a blocking run that polled read the id the way the run did. -/
theorem namesId_of_agrees {tokenFile : String} {minInterval : Time} {posted : Response}
    (hok : posted.status.failed = false) {q : Poll} {polls : List Poll} {files : Files}
    {t t' : String} {n : Nat}
    (hagrees : Agrees tokenFile minInterval (.response posted) (q :: polls) files
      (issuedRun "" tokenFile files (enrollIdOf posted.data) t (n + 1)) t') : NamesId posted := by
  have hspaced : Spaced minInterval ((List.range (n + 2)).map (· * minInterval)) :=
    spaced_range _ _
  have hlen : ((List.range (n + 2)).map (· * minInterval)).length = n + 2 := by simp
  generalize (List.range (n + 2)).map (· * minInterval) = times at hspaced hlen
  obtain ⟨hrequests, -⟩ := hagrees times hspaced (by simp [issuedRun, hlen])
  cases times with
  | nil => exact absurd hlen (by simp)
  | cons now times =>
    cases times with
    | nil => exact absurd hlen (by simp)
    | cons next times =>
      have hdue : now + minInterval ≤ next := hspaced.le_next next rfl
      -- the second request: the flow polls the id it read, the blocking run its own
      obtain ⟨rest, hrest⟩ := run_due
        (f := { tokenFile := tokenFile, minInterval := minInterval
                enrollId := (Value.getD posted.data "enroll_id" (.str "")).toStr
                nextTry := now + minInterval, waitingLogged := false })
        hdue q.outcome files (times.zip (polls.map Poll.outcome))
      rw [script, List.zip_cons_cons, run_init hok] at hrequests
      simp only [List.map_cons, List.zip_cons_cons, hrest, issuedRun, List.replicate_succ,
        List.cons.injEq] at hrequests
      have hsecond := hrequests.2.1
      split at hsecond
      · exact absurd hsecond (by simp)
      · exact EnrollRequest.poll.inj hsecond

/-- **Exactly when the two enrolments agree.**  Whenever a blocking run without a code
returns a token, the flow agrees with it if and only if the reply to the `POST`
carries no token of its own and names the id the way the flow reads it. -/
theorem enrolments_agree_iff {tokenFile : String} {timeout start minInterval : Time}
    {posted : Response} {polls : List Poll} {files : Files} {t : String}
    (h : (enroll "" tokenFile timeout start (.response posted) polls files).result = .token t) :
    Agrees tokenFile minInterval (.response posted) polls files
        (enroll "" tokenFile timeout start (.response posted) polls files) t ↔
      tokenOf posted.data = "" ∧ NamesId posted := by
  obtain ⟨hstorable, _, ⟨rfl⟩, hok, hended⟩ := enroll_token h
  rcases hended with ⟨rfl, hne⟩ | ⟨hempty, hid, before, r, hissues, rfl⟩
  · -- the reply to the `POST` carries a token: the flow does not look for it
    rw [enroll_immediate hok hne]
    constructor
    · intro hagrees
      obtain ⟨-, -, htokens, -⟩ := hagrees [0] (List.isChain_singleton _) rfl
      rw [script, List.zip_cons_cons, run_init hok] at htokens
      exact absurd htokens (by simp [issuedRun])
    · exact fun hcond => absurd hcond.1 hne
  · rw [enroll_polled hok hempty hid hissues]
    constructor
    · intro hagrees
      refine ⟨hempty, ?_⟩
      obtain ⟨⟨p, after, hpolls, -⟩, -, -⟩ := hissues
      cases polls with
      | nil => exact absurd hpolls (by simp)
      | cons q polls => exact namesId_of_agrees hok hagrees
    · exact fun hcond => agrees_of_namesId hok hcond.2 hid hissues hstorable files

/-- The documented conversation: an id, one poll that waits, one that is approved. -/
theorem enrolments_agree_iff_approved :
    Agrees defaultTokenFile (seconds 60) (.response (jsonReply [(.str "enroll_id", .str "e1")]))
      [samplePoll [(.str "status", .str "pending")],
        samplePoll [(.str "status", .str "approved"), (.str "token", .str "t1")]]
      (fun _ => none)
      (enroll "" defaultTokenFile (seconds 1200) 0
        (.response (jsonReply [(.str "enroll_id", .str "e1")]))
        [samplePoll [(.str "status", .str "pending")],
          samplePoll [(.str "status", .str "approved"), (.str "token", .str "t1")]]
        (fun _ => none)) "t1" :=
  (@enrolments_agree_iff defaultTokenFile (seconds 1200) 0 (seconds 60) _ _ _ _ rfl).2 ⟨rfl, rfl⟩

/-- **The flow does not take an immediate token.** -/
theorem immediate_token_disagrees :
    ¬ ∀ (posted : Response) (polls : List Poll) (files : Files) (t : String),
      (enroll "" defaultTokenFile (seconds 1200) 0 (.response posted) polls files).result =
          .token t →
        Agrees defaultTokenFile (seconds 60) (.response posted) polls files
          (enroll "" defaultTokenFile (seconds 1200) 0 (.response posted) polls files) t := by
  intro h
  have hagrees := h (jsonReply [(.str "token", .str "t1")]) [] (fun _ => none) "t1" rfl
  obtain ⟨-, -, htokens, -⟩ := hagrees [0] (List.isChain_singleton _) rfl
  exact absurd htokens (by decide)

end OoAgent
