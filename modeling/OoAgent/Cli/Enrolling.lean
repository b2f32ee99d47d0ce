import OoAgent.Transport.Conversation

/-!
# How enrolling fails

`_do_enroll` expects one exception of `enroll()`, `TransportError`, and makes a message and
an exit code of it.  Statuses, refusals and the deadline become one.  What `httpx` raises does
not, and neither does a token that the ASCII codec refuses: both leave `_do_enroll`.

* `Advances` — the clock passes every time, as it does when the rounds of the polling loop are
  a pause apart (`Paced`); `exists_last_poll` — so the loop ends.
* `EnrollsAsDeclared`, `ExitsAsDeclared` — a token that is stored, or `TransportError`; an
  exit code and a message.
* `enroll_declared_iff` — **enrolling fails only as declared** exactly when no request of
  the conversation raises and the token can be stored.
-/

namespace OoAgent

/-! ## The loop ends -/

/-- The clock at the top of the rounds: the loop sleeps between two of them. -/
structure Paced (pause : Time) (polls : Stream' Poll) : Prop where
  pos : 0 < pause
  apart : ∀ k, (polls.get k).now + pause ≤ (polls.get (k + 1)).now

theorem Paced.le_now {pause : Time} {polls : Stream' Poll} (h : Paced pause polls) (k : Nat) :
    k * pause ≤ (polls.get k).now := by
  induction k with
  | zero => rw [Nat.zero_mul]; exact Nat.zero_le _
  | succ k ih =>
    calc (k + 1) * pause = k * pause + pause := Nat.succ_mul _ _
      _ ≤ (polls.get k).now + pause := Nat.add_le_add_right ih _
      _ ≤ (polls.get (k + 1)).now := h.apart k

theorem Waits.inTime {deadline : Time} {p : Poll} (h : Waits deadline p) : p.now ≤ deadline := by
  obtain ⟨r, hreads, -⟩ := h
  exact hreads.inTime

/-- The clock at the top of the rounds passes every time. -/
def Advances (polls : Stream' Poll) : Prop := ∀ t : Time, ∃ k, t < (polls.get k).now

theorem Paced.advances {pause : Time} {polls : Stream' Poll} (h : Paced pause polls) :
    Advances polls := by
  intro t
  refine ⟨t + 1, ?_⟩
  calc t < (t + 1) * 1 := by rw [Nat.mul_one]; exact Nat.lt_succ_self t
    _ ≤ (t + 1) * pause := Nat.mul_le_mul_left _ h.pos
    _ ≤ (polls.get (t + 1)).now := h.le_now _

/-- **The loop ends**: there is a first poll that does not keep it waiting. -/
theorem exists_last_poll {polls : Stream' Poll} (h : Advances polls) (deadline : Time) :
    ∃ k, (∀ j < k, Waits deadline (polls.get j)) ∧ ¬ Waits deadline (polls.get k) := by
  have hlate : ∃ k, ¬ Waits deadline (polls.get k) := by
    obtain ⟨k, hk⟩ := h deadline
    exact ⟨k, fun hwaits => absurd hwaits.inTime (not_le.2 hk)⟩
  classical
  exact ⟨Nat.find hlate, fun j hj => not_not.1 (Nat.find_min hlate hj), Nat.find_spec hlate⟩

/-- A poll that does not keep the loop waiting ends it, whatever would come next. -/
theorem pollLoop_of_not_waits {deadline : Time} {p : Poll} (h : ¬ Waits deadline p)
    (ps : List Poll) : pollLoop deadline (p :: ps) = pollLoop deadline [p] := by
  simp only [pollLoop]
  by_cases hlate : deadline < p.now
  · rw [if_pos hlate, if_pos hlate]
  · rw [if_neg hlate, if_neg hlate]
    cases hreply : p.outcome with
    | exception => rfl
    | response r =>
      simp only
      split_ifs with hfailed hrefused htoken
      · rfl
      · rfl
      · rfl
      · exact absurd ⟨r, ⟨not_lt.1 hlate, hreply, by simpa using hfailed, by simpa using hrefused⟩,
          not_not.1 htoken⟩ h

/-- From the poll on that ends it, the loop comes to the same. -/
theorem pollLoop_take {deadline : Time} {polls : Stream' Poll} {k n : Nat}
    (hwaits : ∀ j < k, Waits deadline (polls.get j)) (hends : ¬ Waits deadline (polls.get k))
    (hn : k < n) :
    pollLoop deadline (polls.take n) =
      ((pollLoop deadline [polls.get k]).1, (pollLoop deadline [polls.get k]).2 + k) := by
  induction k generalizing polls n with
  | zero =>
    obtain ⟨n, rfl⟩ := Nat.exists_eq_succ_of_ne_zero (Nat.ne_of_gt hn)
    rw [Stream'.take_succ]
    exact pollLoop_of_not_waits hends _
  | succ k ih =>
    obtain ⟨n, rfl⟩ := Nat.exists_eq_succ_of_ne_zero (Nat.ne_of_gt (Nat.zero_lt_of_lt hn))
    obtain ⟨r, hreads, hempty⟩ := hwaits 0 (Nat.succ_pos k)
    have hrest := @ih polls.tail n (fun j hj => hwaits (j + 1) (Nat.succ_lt_succ hj)) hends
      (Nat.lt_of_succ_lt_succ hn)
    rw [Stream'.take_succ, pollLoop_read hreads, if_neg (not_not.2 hempty), hrest]
    rfl

/-! ## The law -/

/-- The token is returned and stored, or `TransportError` is raised and no file touched. -/
inductive AsDeclared (tokenFile : String) (files : Files) (run : EnrollRun) : Prop
  | token (t : String) (returned : run.result = .token t) (nonempty : t ≠ "")
      (stored : tokenFile ≠ "" → run.files tokenFile = some (t ++ "\n"))
  | declared (message : String) (raised : run.result = .raised (.transport message))
      (untouched : run.files = files)

/-- However long its polling is left to run, `enroll()` ends, and as declared. -/
def EnrollsAsDeclared (code tokenFile : String) (timeout start : Time) (posted : Outcome)
    (polls : Stream' Poll) (files : Files) : Prop :=
  ∃ rounds run, AsDeclared tokenFile files run ∧
    ∀ n, rounds ≤ n → enroll code tokenFile timeout start posted (polls.take n) files = run

/-- A poll in time does not raise, and what is read off it can be stored. -/
def PollSmooth (tokenFile : String) (deadline : Time) (p : Poll) : Prop :=
  p.now ≤ deadline → p.outcome ≠ .exception ∧
    ∀ r, Reads deadline p r → storable tokenFile (tokenOf r.data) = true

/-- No request of the conversation raises, and no token of it cannot be stored: neither at
the `POST` nor at a poll that follows polls that kept the loop waiting. -/
structure Smooth (tokenFile : String) (deadline : Time) (posted : Outcome)
    (polls : Stream' Poll) : Prop where
  connected : posted ≠ .exception
  immediate : ∀ r, posted = .response r → r.status.failed = false →
    storable tokenFile (tokenOf r.data) = true
  polled : ∀ r, posted = .response r → r.status.failed = false → tokenOf r.data = "" →
    enrollIdOf r.data ≠ "" → ∀ k, (∀ j < k, Waits deadline (polls.get j)) →
      PollSmooth tokenFile deadline (polls.get k)

/-- What the loop comes to at the poll that ends it. -/
inductive PollEnds (deadline : Time) (p : Poll) : Enrolled → Prop
  | late (h : deadline < p.now) :
      PollEnds deadline p (.raised (.transport "enroll timed out — not confirmed in time"))
  | broken (h : p.now ≤ deadline) (raised : p.outcome = .exception) :
      PollEnds deadline p (.raised .network)
  | refused (message : String) (h : p.now ≤ deadline) (answered : p.outcome ≠ .exception)
      (unread : ∀ r, ¬ Reads deadline p r) : PollEnds deadline p (.raised (.transport message))
  | issued (r : Response) (reads : Reads deadline p r) (nonempty : tokenOf r.data ≠ "") :
      PollEnds deadline p (.token (tokenOf r.data))

theorem ending_pollLoop {deadline : Time} {p : Poll} (h : ¬ Waits deadline p) :
    PollEnds deadline p (pollLoop deadline [p]).1 := by
  simp only [pollLoop]
  by_cases hlate : deadline < p.now
  · rw [if_pos hlate]
    exact .late hlate
  · rw [if_neg hlate]
    cases hreply : p.outcome with
    | exception => exact .broken (not_lt.1 hlate) hreply
    | response r =>
      have hanswered : p.outcome ≠ .exception := by rw [hreply]; simp
      have hread : ∀ r', Reads deadline p r' → r' = r := fun r' hr' =>
        (Outcome.response.inj (hreply.symm.trans hr'.reply)).symm
      simp only
      split_ifs with hfailed hrefused htoken
      · refine .refused _ (not_lt.1 hlate) hanswered fun r' hr' => ?_
        exact absurd (hread r' hr' ▸ hr'.ok) (by simp [hfailed])
      · refine .refused _ (not_lt.1 hlate) hanswered fun r' hr' => ?_
        exact absurd (hread r' hr' ▸ hr'.open_) (by simp [hrefused])
      · exact .issued r
          ⟨not_lt.1 hlate, hreply, by simpa using hfailed, by simpa using hrefused⟩ htoken
      · exact absurd ⟨r, ⟨not_lt.1 hlate, hreply, by simpa using hfailed, by simpa using hrefused⟩,
          not_not.1 htoken⟩ h

/-! ## One run -/

theorem storable_empty (tokenFile : String) : storable tokenFile "" = true := by
  simp [storable, ascii]

/-- The loop is all that `enroll()` sees of the polls. -/
theorem enroll_congr {code tokenFile : String} {timeout start : Time} {posted : Outcome}
    {polls polls' : List Poll} {files : Files}
    (h : pollLoop (start + timeout) polls = pollLoop (start + timeout) polls') :
    enroll code tokenFile timeout start posted polls files =
      enroll code tokenFile timeout start posted polls' files := by
  cases posted with
  | exception => rfl
  | response r =>
    cases hok : r.status.failed with
    | true => simp [enroll, hok]
    | false => rw [enroll_response hok, enroll_response hok, enrollAnswered, enrollAnswered, h]

/-- A run that is issued a token is as declared exactly when the token can be stored. -/
theorem asDeclared_issuedRun {code tokenFile : String} {files : Files} {id t : String}
    {made : Nat} (ht : t ≠ "") :
    AsDeclared tokenFile files (issuedRun code tokenFile files id t made) ↔
      storable tokenFile t = true := by
  rw [← returned_storeToken files]
  cases hreturned : (storeToken files tokenFile t).returned with
  | true =>
    refine iff_of_true (.token t (by simp [issuedRun, hreturned]) ht fun hfile => ?_) rfl
    have hascii : ascii t = true := by
      rw [returned_storeToken, storable] at hreturned
      simpa [hfile] using hreturned
    simp [issuedRun, storeToken, hfile, writeToken, hascii]
  | false =>
    refine iff_of_false ?_ (by simp)
    have hresult : (issuedRun code tokenFile files id t made).result = .raised .encoding := by
      simp [issuedRun, hreturned]
    rintro (⟨t', hreturn, -, -⟩ | ⟨message, hraised, -⟩)
    · exact absurd (hresult.symm.trans hreturn) (by simp)
    · exact absurd (hresult.symm.trans hraised) (by simp)

section Run

variable {code tokenFile : String} {timeout start : Time} {files : Files} {r : Response}

/-- The run once its `POST` was answered with an id alone: that of its polling loop. -/
theorem enroll_pending (files : Files) (hok : r.status.failed = false)
    (hempty : tokenOf r.data = "") (hid : enrollIdOf r.data ≠ "") {polls : List Poll}
    {e : EnrollError} {made : Nat}
    (hloop : pollLoop (start + timeout) polls = (.raised e, made)) :
    (enroll code tokenFile timeout start (.response r) polls files).result = .raised e ∧
      (enroll code tokenFile timeout start (.response r) polls files).files = files := by
  rw [enroll_response hok, enrollAnswered, if_neg fun h => hid h.2]
  simp [hempty, hloop]

/-- A run that raises is as declared exactly when it raises `TransportError`. -/
theorem asDeclared_raised {run : EnrollRun} {e : EnrollError} (hresult : run.result = .raised e)
    (hfiles : run.files = files) :
    AsDeclared tokenFile files run ↔ ∃ message, e = .transport message := by
  constructor
  · rintro (⟨t, hreturn, -, -⟩ | ⟨message, hraised, -⟩)
    · exact absurd (hresult.symm.trans hreturn) (by simp)
    · exact ⟨message, Enrolled.raised.inj (hresult.symm.trans hraised)⟩
  · rintro ⟨message, rfl⟩
    exact .declared message hresult hfiles

/-- The polls that keep the loop waiting are smooth, so it is the last one that counts. -/
theorem pollSmooth_last_iff {deadline : Time} {polls : Stream' Poll} {k : Nat}
    (hwaits : ∀ j < k, Waits deadline (polls.get j)) (hends : ¬ Waits deadline (polls.get k)) :
    (∀ i, (∀ j < i, Waits deadline (polls.get j)) → PollSmooth tokenFile deadline (polls.get i)) ↔
      PollSmooth tokenFile deadline (polls.get k) := by
  refine ⟨fun h => h k hwaits, fun h i hi => ?_⟩
  rcases lt_trichotomy i k with hlt | rfl | hgt
  · obtain ⟨r, hreads, hempty⟩ := hwaits i hlt
    refine fun _ => ⟨by rw [hreads.reply]; simp, fun r' hr' => ?_⟩
    obtain rfl := Outcome.response.inj (hreads.reply.symm.trans hr'.reply)
    rw [hempty]
    exact storable_empty tokenFile
  · exact h
  · exact absurd (hi k hgt) hends

/-- A run that comes to polling is as declared exactly when the poll that ends it is smooth. -/
theorem asDeclared_polled (hok : r.status.failed = false) (hempty : tokenOf r.data = "")
    (hid : enrollIdOf r.data ≠ "") {polls : Stream' Poll} {k : Nat}
    (hwaits : ∀ j < k, Waits (start + timeout) (polls.get j))
    (hends : ¬ Waits (start + timeout) (polls.get k)) :
    AsDeclared tokenFile files
        (enroll code tokenFile timeout start (.response r) (polls.take (k + 1)) files) ↔
      PollSmooth tokenFile (start + timeout) (polls.get k) := by
  have hloop := pollLoop_take hwaits hends (Nat.lt_succ_self k)
  have hending := ending_pollLoop hends
  generalize (pollLoop (start + timeout) [polls.get k]).1 = ended at hloop hending
  cases hending with
  | late hlate =>
    obtain ⟨hresult, hfiles⟩ := enroll_pending files hok hempty hid hloop
    rw [asDeclared_raised hresult hfiles]
    exact iff_of_true ⟨_, rfl⟩ fun h => absurd h (not_le.2 hlate)
  | broken hin hraised =>
    obtain ⟨hresult, hfiles⟩ := enroll_pending files hok hempty hid hloop
    rw [asDeclared_raised hresult hfiles]
    exact iff_of_false (by simp) fun h => (h hin).1 hraised
  | refused message hin hanswered hunread =>
    obtain ⟨hresult, hfiles⟩ := enroll_pending files hok hempty hid hloop
    rw [asDeclared_raised hresult hfiles]
    exact iff_of_true ⟨_, rfl⟩ fun _ => ⟨hanswered, fun r hr => absurd hr (hunread r)⟩
  | issued r' hreads htoken =>
    obtain ⟨before, r'', hissues, heq, hmade⟩ := pollLoop_token_iff.1 hloop
    rw [enroll_polled hok hempty hid hissues, heq, asDeclared_issuedRun htoken]
    constructor
    · intro hstorable _
      refine ⟨by rw [hreads.reply]; simp, fun s hs => ?_⟩
      obtain rfl := Outcome.response.inj (hreads.reply.symm.trans hs.reply)
      exact hstorable
    · intro h
      exact (h hreads.inTime).2 r' hreads

/-- **A run is as declared exactly when its conversation is smooth.** -/
theorem asDeclared_iff_smooth {posted : Outcome} {polls : Stream' Poll} {k : Nat}
    (hwaits : ∀ j < k, Waits (start + timeout) (polls.get j))
    (hends : ¬ Waits (start + timeout) (polls.get k)) :
    AsDeclared tokenFile files
        (enroll code tokenFile timeout start posted (polls.take (k + 1)) files) ↔
      Smooth tokenFile (start + timeout) posted polls := by
  cases posted with
  | exception =>
    have hresult : (enroll code tokenFile timeout start .exception (polls.take (k + 1))
        files).result = .raised .network := rfl
    exact (asDeclared_raised hresult rfl).trans
      (iff_of_false (by simp) fun h => h.connected rfl)
  | response r =>
    have hreply : ∀ {r'}, Outcome.response r = .response r' → r' = r :=
      fun h => (Outcome.response.inj h).symm
    cases hok : r.status.failed with
    | true =>
      refine iff_of_true (.declared _ (by simp [enroll, hok]; rfl) (by simp [enroll, hok])) ?_
      refine ⟨by simp, fun r' hr' hok' => ?_, fun r' hr' hok' => ?_⟩
      · exact absurd (hreply hr' ▸ hok') (by simp [hok])
      · exact absurd (hreply hr' ▸ hok') (by simp [hok])
    | false =>
      by_cases hempty : tokenOf r.data = ""
      · have himmediate : storable tokenFile (tokenOf r.data) = true := by
          rw [hempty]
          exact storable_empty tokenFile
        by_cases hid : enrollIdOf r.data = ""
        · refine iff_of_true (.declared "enroll response carries no token or id" ?_ ?_) ?_
          · rw [enroll_response hok, enrollAnswered, if_pos ⟨hempty, hid⟩]
          · rw [enroll_response hok, enrollAnswered, if_pos ⟨hempty, hid⟩]
          · refine ⟨by simp, fun r' hr' _ => hreply hr' ▸ himmediate, ?_⟩
            intro r' hr' _ _ hid'
            exact absurd (hreply hr' ▸ hid) hid'
        · rw [asDeclared_polled hok hempty hid hwaits hends, ← pollSmooth_last_iff hwaits hends]
          constructor
          · intro h
            exact ⟨by simp, fun r' hr' _ => hreply hr' ▸ himmediate, fun _ _ _ _ _ => h⟩
          · intro h
            exact h.polled r rfl hok hempty hid
      · rw [enroll_immediate hok hempty, asDeclared_issuedRun hempty]
        constructor
        · intro h
          refine ⟨by simp, fun r' hr' _ => hreply hr' ▸ h, ?_⟩
          intro r' hr' _ hempty'
          exact absurd (hreply hr' ▸ hempty') hempty
        · intro h
          exact h.immediate r rfl hok

/-- After some rounds a run stays what it is, as declared exactly when its conversation is
smooth. -/
theorem exists_settled {posted : Outcome} {polls : Stream' Poll}
    (hclock : Advances polls) :
    ∃ rounds, (∀ n, rounds ≤ n →
        enroll code tokenFile timeout start posted (polls.take n) files =
          enroll code tokenFile timeout start posted (polls.take rounds) files) ∧
      (AsDeclared tokenFile files
          (enroll code tokenFile timeout start posted (polls.take rounds) files) ↔
        Smooth tokenFile (start + timeout) posted polls) := by
  obtain ⟨k, hwaits, hends⟩ := exists_last_poll hclock (start + timeout)
  refine ⟨k + 1, fun n hn => ?_, asDeclared_iff_smooth hwaits hends⟩
  exact enroll_congr ((pollLoop_take hwaits hends hn).trans
    (pollLoop_take hwaits hends (Nat.lt_succ_self k)).symm)

/-- **`enroll()` comes to an end as declared** exactly when its conversation is smooth. -/
theorem enrollsAsDeclared_iff {posted : Outcome} {polls : Stream' Poll}
    (hclock : Advances polls) :
    EnrollsAsDeclared code tokenFile timeout start posted polls files ↔
      Smooth tokenFile (start + timeout) posted polls := by
  obtain ⟨settled, hsettled, hiff⟩ := @exists_settled code tokenFile timeout start files posted _
    hclock
  rw [← hiff]
  constructor
  · rintro ⟨rounds, run, hrun, hall⟩
    rw [← hsettled (max rounds settled) (le_max_right _ _), hall _ (le_max_left _ _)]
    exact hrun
  · intro h
    exact ⟨settled, _, h, hsettled⟩

end Run

/-! ## `_do_enroll` -/

/-- How a call of `_do_enroll` ended. -/
inductive Exit where
  | exited (code : Nat) (message : String)
  /-- An exception that is not caught. -/
  | escaped (e : EnrollError)
  /-- The script of polls ended first. -/
  | waiting

/-- `server`. -/
def enrollServer (options : List (Key × Value)) : String :=
  (Value.getD options "server" (.str "")).toStr

/-- `timeout_minutes`, as `_do_enroll` leaves it. -/
def enrollTimeout : Time := seconds (20 * 60)

/-- What `_do_enroll` makes of the end of `enroll()`. -/
def exitOf (tokenFile : String) : Enrolled → Exit
  | .token _ => .exited 0 ("enrolled — token stored in " ++ tokenFile)
  | .raised (.transport message) => .exited 1 ("error: " ++ message)
  | .raised e => .escaped e
  | .waiting => .waiting

/-- `_do_enroll`. -/
def doEnroll (options : List (Key × Value)) (code : String) (start : Time) (posted : Outcome)
    (polls : List Poll) (files : Files) : Exit :=
  if enrollServer options = "" then
    .exited 2 ("error: no backend URL — pass --server or set 'server' in the " ++
      "[transport] config section")
  else
    let tokenFile := TransportClient.tokenFileOf options
    exitOf tokenFile (enroll code tokenFile enrollTimeout start posted polls files).result

/-- However long the polling is left to run, `_do_enroll` comes to an exit code and a
message. -/
def ExitsAsDeclared (options : List (Key × Value)) (code : String) (start : Time)
    (posted : Outcome) (polls : Stream' Poll) (files : Files) : Prop :=
  ∃ rounds exitCode message, exitCode ≤ 2 ∧ message ≠ "" ∧
    ∀ n, rounds ≤ n → doEnroll options code start posted (polls.take n) files =
      .exited exitCode message

/-- Only a run that is issued a token touches the files. -/
theorem enroll_cases (code tokenFile : String) (timeout start : Time) (posted : Outcome)
    (polls : List Poll) (files : Files) :
    (∃ id t made, t ≠ "" ∧ enroll code tokenFile timeout start posted polls files =
        issuedRun code tokenFile files id t made) ∨
      (enroll code tokenFile timeout start posted polls files).files = files ∧
        ∀ t, (enroll code tokenFile timeout start posted polls files).result ≠ .token t := by
  cases posted with
  | exception => exact .inr ⟨rfl, fun t => by simp [enroll]⟩
  | response r =>
    cases hok : r.status.failed with
    | true => exact .inr ⟨by simp [enroll, hok], fun t => by simp [enroll, hok]⟩
    | false =>
      by_cases hempty : tokenOf r.data = ""
      · by_cases hid : enrollIdOf r.data = ""
        · rw [enroll_response hok, enrollAnswered, if_pos ⟨hempty, hid⟩]
          exact .inr ⟨rfl, fun t => by simp⟩
        · cases hloop : pollLoop (start + timeout) polls with
          | mk ended made =>
            cases ended with
            | token t =>
              obtain ⟨before, r', hissues, rfl, -⟩ := pollLoop_token_iff.1 hloop
              exact .inl ⟨_, _, _, hissues.token, enroll_polled hok hempty hid hissues files⟩
            | raised e =>
              obtain ⟨hresult, hfiles⟩ := enroll_pending files hok hempty hid hloop
              exact .inr ⟨hfiles, fun t => by rw [hresult]; simp⟩
            | waiting =>
              rw [enroll_response hok, enrollAnswered, if_neg fun h => hid h.2]
              exact .inr ⟨by simp [hempty, hloop], fun t => by simp [hempty, hloop]⟩
      · exact .inl ⟨_, _, _, hempty, enroll_immediate hok hempty polls files⟩

/-- A run comes to an exit code and a message exactly when it is as declared. -/
theorem exited_iff_asDeclared {code tokenFile : String} {timeout start : Time} {posted : Outcome}
    {polls : List Poll} {files : Files} :
    (∃ exitCode message, exitCode ≤ 2 ∧ message ≠ "" ∧
      exitOf tokenFile (enroll code tokenFile timeout start posted polls files).result =
        .exited exitCode message) ↔
      AsDeclared tokenFile files (enroll code tokenFile timeout start posted polls files) := by
  have hcases := enroll_cases code tokenFile timeout start posted polls files
  generalize enroll code tokenFile timeout start posted polls files = run at hcases
  constructor
  · rintro ⟨exitCode, message, -, -, hexit⟩
    rcases hcases with ⟨id, t, made, ht, rfl⟩ | ⟨hfiles, hnone⟩
    · refine (asDeclared_issuedRun ht).2 ?_
      rw [← returned_storeToken files]
      cases hreturned : (storeToken files tokenFile t).returned with
      | true => rfl
      | false => simp [issuedRun, hreturned, exitOf] at hexit
    · cases hresult : run.result with
      | token t => exact absurd hresult (hnone t)
      | waiting => simp [hresult, exitOf] at hexit
      | raised e =>
        cases e with
        | transport message => exact .declared message hresult hfiles
        | network => simp [hresult, exitOf] at hexit
        | encoding => simp [hresult, exitOf] at hexit
  · have hne : ∀ {a b : String}, a ≠ "" → a ++ b ≠ "" := fun ha h =>
      ha (String.append_eq_empty_iff.1 h).1
    rintro (⟨t, hreturn, -, -⟩ | ⟨message, hraised, -⟩)
    · rw [hreturn]
      exact ⟨0, _, by decide, hne (by decide), rfl⟩
    · rw [hraised]
      exact ⟨1, _, by decide, hne (by decide), rfl⟩

/-- **`_do_enroll` comes to an exit code and a message** exactly when there is no backend URL
or the conversation is smooth. -/
theorem exitsAsDeclared_iff {options : List (Key × Value)} {code : String} {start : Time}
    {posted : Outcome} {polls : Stream' Poll} {files : Files} (hclock : Advances polls) :
    ExitsAsDeclared options code start posted polls files ↔
      enrollServer options = "" ∨
        Smooth (TransportClient.tokenFileOf options) (start + enrollTimeout) posted polls := by
  unfold ExitsAsDeclared doEnroll
  by_cases hserver : enrollServer options = ""
  · refine iff_of_true ⟨0, 2, _, le_rfl, ?_, fun n _ => if_pos hserver⟩ (.inl hserver)
    decide
  · simp only [if_neg hserver]
    rw [or_iff_right hserver]
    obtain ⟨settled, hsettled, hiff⟩ := @exists_settled code (TransportClient.tokenFileOf options)
      enrollTimeout start files posted _ hclock
    rw [← hiff, ← exited_iff_asDeclared]
    constructor
    · rintro ⟨rounds, exitCode, message, hcode, hmessage, hall⟩
      have hexit := hall (max rounds settled) (le_max_left _ _)
      rw [hsettled _ (le_max_right _ _)] at hexit
      exact ⟨exitCode, message, hcode, hmessage, hexit⟩
    · rintro ⟨exitCode, message, hcode, hmessage, hexit⟩
      refine ⟨settled, exitCode, message, hcode, hmessage, fun n hn => ?_⟩
      rw [hsettled n hn]
      exact hexit

/-- Polls that are never answered, five seconds apart. -/
def sampleSilence : Stream' Poll := fun k => ⟨seconds (5 * k), .exception⟩

theorem paced_sampleSilence : Paced (seconds 5) sampleSilence where
  pos := by decide
  apart := fun k => by
    change seconds (5 * k) + seconds 5 ≤ seconds (5 * (k + 1))
    exact ((Nat.add_mul _ _ _).symm.trans (congrArg (· * _) (Nat.mul_succ 5 k).symm)).le

end OoAgent
