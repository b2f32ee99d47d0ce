import OoAgent.Transport.Client

/-!
# Enrolment

The two implementations of the enrolment conversation: `enroll()`
(`oo_agent/transport/enroll.py`), which blocks until the operator has decided,
and `ReclaimFlow.step()` (`oo_agent/transport/reclaim.py`), which makes at most
one request per call.

* `enroll` — a blocking run: its result, the requests it made and the files it
  left behind, over a script of replies.
* `ReclaimFlow.ask`, `ReclaimFlow.step` — one call of the flow: its request, and
  the storing of the token that came back.
* `issued_ask` — a token always comes from a reply to a poll.
-/

namespace OoAgent

/-! ## Reading a reply -/

/-- `str(data.get("token", ""))`. -/
def tokenOf (data : List (Key × Value)) : String := (Value.getD data "token" (.str "")).toStr

/-- `str(data.get("status", "pending"))`. -/
def statusOf (data : List (Key × Value)) : String :=
  (Value.getD data "status" (.str "pending")).toStr

/-- `status in ("rejected", "expired")`. -/
def refused (status : String) : Bool := status ∈ ["rejected", "expired"]

/-- The dictionary a response carries, empty when it carries none. -/
def Response.data (r : Response) : List (Key × Value) := Value.asDict r.json

/-! ## `enroll` -/

/-- What `enroll()` raises. -/
inductive EnrollError where
  /-- `TransportError` with its message. -/
  | transport (message : String)
  /-- A network error of the HTTP library, passed through. -/
  | network
  /-- A token that cannot be written in ASCII. -/
  | encoding
  deriving DecidableEq, Repr

/-- Where a run of `enroll()` over a finite script ended. -/
inductive Enrolled where
  | token (t : String)
  | raised (e : EnrollError)
  /-- The script ended while the run was still polling. -/
  | waiting
  deriving DecidableEq, Repr

/-- One round of the polling loop: the clock at its top, and what the poll came to. -/
structure Poll where
  now : Time
  outcome : Outcome

/-- A run of the polling loop: where it ended and how many polls it made. -/
def pollLoop (deadline : Time) : List Poll → Enrolled × Nat
  | [] => (.waiting, 0)
  | p :: ps =>
    if deadline < p.now then
      (.raised (.transport "enroll timed out — not confirmed in time"), 0)
    else
      match p.outcome with
      | .exception => (.raised .network, 1)
      | .response r =>
        if r.status.failed then
          (.raised (.transport ("enroll poll failed (HTTP " ++ Nat.repr r.status.code ++ ")")), 1)
        else if refused (statusOf r.data) then
          (.raised (.transport ("enroll " ++ statusOf r.data)), 1)
        else if tokenOf r.data ≠ "" then (.token (tokenOf r.data), 1)
        else ((pollLoop deadline ps).1, (pollLoop deadline ps).2 + 1)

/-- `str(data.get("enroll_id", "") or data.get("id", ""))`. -/
def enrollIdOf (data : List (Key × Value)) : String :=
  ((Value.getD data "enroll_id" (.str "")).orElse (Value.getD data "id" (.str ""))).toStr

/-- What a run of `enroll()` did. -/
structure EnrollRun where
  result : Enrolled
  requests : List EnrollRequest
  files : Files

/-- The `POST` of `enroll()`. -/
def enrollPost (code : String) : EnrollRequest := .post (if code ≠ "" then some code else none)

/-- The rest of `enroll()` once its `POST` was answered with a status below 400. -/
def enrollAnswered (code tokenFile : String) (deadline : Time) (r : Response) (polls : List Poll)
    (files : Files) : EnrollRun :=
  if tokenOf r.data = "" ∧ enrollIdOf r.data = "" then
    { result := .raised (.transport "enroll response carries no token or id")
      requests := [enrollPost code], files := files }
  else
    let ended :=
      if tokenOf r.data ≠ "" then (Enrolled.token (tokenOf r.data), 0) else pollLoop deadline polls
    let requests := enrollPost code :: List.replicate ended.2 (.poll (enrollIdOf r.data))
    match ended.1 with
    | .token t =>
      let stored := storeToken files tokenFile t
      { result := if stored.returned then .token t else .raised .encoding
        requests := requests
        files := stored.files }
    | result => { result := result, requests := requests, files := files }

/-- `enroll()`.  `start` is the clock when the deadline is set, `posted` what the
`POST` came to, `polls` the rounds of the loop. -/
def enroll (code tokenFile : String) (timeout start : Time) (posted : Outcome) (polls : List Poll)
    (files : Files) : EnrollRun :=
  let raise := fun e => { result := .raised e, requests := [enrollPost code], files := files }
  match posted with
  | .exception => raise .network
  | .response r =>
    if r.status.failed then
      raise (.transport ("enroll rejected (HTTP " ++ Nat.repr r.status.code ++ "): " ++
        String.ofList (r.text.toList.take 200)))
    else enrollAnswered code tokenFile (start + timeout) r polls files

/-! ## `ReclaimFlow` -/

/-- The state of a re-claim flow. -/
structure ReclaimFlow where
  tokenFile : String
  minInterval : Time
  enrollId : String
  nextTry : Time
  waitingLogged : Bool
  deriving DecidableEq, Repr

namespace ReclaimFlow

/-- `ReclaimFlow.__init__`. -/
def init (tokenFile : String) (minInterval : Time) : ReclaimFlow :=
  { tokenFile := tokenFile, minInterval := minInterval, enrollId := "", nextTry := 0,
    waitingLogged := false }

/-- What the request of one call of `step` led to. -/
structure Asked where
  flow : ReclaimFlow
  request : Option EnrollRequest
  /-- The token the reply carried. -/
  issued : Option String

/-- `ReclaimFlow.step` up to the end of its `try`, at a clock reading and with what
its request, should it make one, comes to. -/
def ask (f : ReclaimFlow) (now : Time) (reply : Outcome) : Asked :=
  if now < f.nextTry then { flow := f, request := none, issued := none }
  else
    let f := { f with nextTry := now + f.minInterval }
    if f.enrollId = "" then
      let flow :=
        match reply with
        | .exception => f
        | .response r =>
          -- 404: no claim for this host yet
          if r.status.code = 404 then { f with waitingLogged := true }
          else if r.status.failed then f
          else
            { f with
              enrollId := (Value.getD r.data "enroll_id" (.str "")).toStr, waitingLogged := false }
      { flow := flow, request := some (.post none), issued := none }
    else
      let request := some (EnrollRequest.poll f.enrollId)
      match reply with
      | .exception => { flow := f, request := request, issued := none }
      | .response r =>
        if r.status.failed then
          { flow := { f with enrollId := "" }, request := request, issued := none }
        else if refused (statusOf r.data) then
          { flow := { f with enrollId := "" }, request := request, issued := none }
        else if tokenOf r.data = "" then { flow := f, request := request, issued := none }
        else { flow := f, request := request, issued := some (tokenOf r.data) }

/-- What one call of `step` did. -/
structure Step where
  flow : ReclaimFlow
  request : Option EnrollRequest
  files : Files
  /-- The return value. -/
  token : Option String
  /-- The call ended in an exception: the token could not be stored. -/
  raised : Bool

/-- `ReclaimFlow.step`. -/
def step (f : ReclaimFlow) (files : Files) (now : Time) (reply : Outcome) : Step :=
  let a := f.ask now reply
  match a.issued with
  | none => { flow := a.flow, request := a.request, files := files, token := none, raised := false }
  | some token =>
    let stored := storeToken files f.tokenFile token
    { flow := a.flow
      request := a.request
      files := stored.files
      token := if stored.returned then some token else none
      raised := !stored.returned }

/-- A token is never empty, and it comes from a reply to a poll. -/
theorem issued_ask {f : ReclaimFlow} {now : Time} {reply : Outcome} {t : String}
    (h : (f.ask now reply).issued = some t) :
    ∃ r, reply = .response r ∧ r.status.failed = false ∧ refused (statusOf r.data) = false ∧
      tokenOf r.data = t ∧ t ≠ "" ∧ f.nextTry ≤ now ∧ f.enrollId ≠ "" := by
  unfold ask at h
  split at h
  · simp at h
  · rename_i hdue
    simp only at h
    split at h
    · simp at h
    · rename_i hid
      split at h
      · simp at h
      · rename_i r
        split at h
        · simp at h
        · rename_i hfailed
          split at h
          · simp at h
          · rename_i hrefused
            split at h
            · simp at h
            · rename_i htoken
              obtain rfl : tokenOf r.data = t := by simpa using h
              exact ⟨r, rfl, by simpa using hfailed, by simpa using hrefused, rfl, htoken,
                not_lt.1 hdue, hid⟩

/-- The token a call of `step` returns is the one its reply carried. -/
theorem issued_of_token_step {f : ReclaimFlow} {files : Files} {now : Time} {reply : Outcome}
    {t : String} (h : (f.step files now reply).token = some t) :
    (f.ask now reply).issued = some t := by
  simp only [step] at h
  cases hissued : (f.ask now reply).issued with
  | none =>
    rw [hissued] at h
    exact absurd h (by simp)
  | some token =>
    rw [hissued] at h
    simp only at h
    split at h
    · exact h
    · exact absurd h (by simp)

end ReclaimFlow

end OoAgent
