import OoAgent.Python.Text
import OoAgent.Transport.Trace

/-!
# The transport client

`oo_agent/transport/client.py`: the token file, `TransportClient.push` with its
two attempts, and `drain`, which re-sends the queue oldest first.  Here every accepted
answer can be read, or is no JSON at all; what happens otherwise is in `Raising`.

* `readToken`, `writeToken` — the token file; a token outside ASCII cannot be
  written, a file outside ASCII cannot be read.
* `readToken_storeToken` — **the token file round trip**.
* `push_spec` — everything one `push` can do: an accepted answer, a rejected
  one, or no answer at all.
* `deliver`, `drain` — one batch, and the whole loop over the batches.
-/

namespace OoAgent

/-! ## The token file -/

/-- The text files on disk, by path. -/
abbrev Files := String → Option String

/-- `DEFAULT_TOKEN_FILE`. -/
def defaultTokenFile : String := "/etc/oo-agent/agent.token"

/-- A text that `encoding="ascii"` can carry. -/
def ascii (text : String) : Bool := text.toList.all fun c => decide (c.toNat < 128)

/-- What is left of a token once it has been through the token file and back. -/
def readBack (text : String) : String :=
  String.ofList (PyText.strip (PyText.translateNewlines text.toList))

/-- `read_token`: a file that cannot be opened holds no token, one that cannot be
decoded raises. -/
def readToken (files : Files) (tokenFile : String) : Option String :=
  match files tokenFile with
  | some text => if ascii text then some (readBack text) else none
  | none => some ""

/-- What writing a token came to. -/
structure Written where
  files : Files
  /-- The call returned; otherwise the token could not be encoded. -/
  returned : Bool

/-- `write_token`: the file is truncated before the token is encoded. -/
def writeToken (files : Files) (tokenFile token : String) : Written :=
  if ascii token then
    { files := Function.update files tokenFile (some (token ++ "\n")), returned := true }
  else { files := Function.update files tokenFile (some ""), returned := false }

/-- `if token_file: write_token(token_file, token)`. -/
def storeToken (files : Files) (tokenFile token : String) : Written :=
  if tokenFile = "" then { files := files, returned := true } else writeToken files tokenFile token

/-- `os.remove`. -/
def removeFile (files : Files) (path : String) : Files := Function.update files path none

theorem readBack_readBack (t : String) : readBack (readBack t) = readBack t := by
  have hno : '\r' ∉ PyText.strip (PyText.translateNewlines t.toList) := fun h =>
    PyText.not_mem_translateNewlines _ (PyText.strip_subset _ h)
  simp only [readBack, String.toList_ofList]
  rw [PyText.translateNewlines_of_not_mem hno, PyText.strip_idem]

/-- The newline `write_token` appends does not survive the reading. -/
theorem readBack_newline (t : String) : readBack (t ++ "\n") = readBack t := by
  simp only [readBack, String.toList_append]
  rcases PyText.translateNewlines_append_newline t.toList with h | h
  · have hlist : PyText.translateNewlines (t.toList ++ "\n".toList) =
        PyText.translateNewlines t.toList ++ ['\n'] := h
    rw [hlist, PyText.strip_append_newline]
  · have hlist : PyText.translateNewlines (t.toList ++ "\n".toList) =
        PyText.translateNewlines t.toList := h
    rw [hlist]

/-- **The token file round trip**: what was written is read back without its
surrounding white space. -/
theorem readToken_storeToken {files : Files} {tokenFile token : String} (hfile : tokenFile ≠ "")
    (hreturned : (storeToken files tokenFile token).returned = true) :
    readToken (storeToken files tokenFile token).files tokenFile = some (readBack token) := by
  rw [storeToken, if_neg hfile, writeToken] at hreturned ⊢
  split at hreturned
  · rename_i hascii
    have hnewline : ascii (token ++ "\n") = true := by
      simp only [ascii, String.toList_append, List.all_append, Bool.and_eq_true] at hascii ⊢
      exact ⟨hascii, by decide⟩
    simp [readToken, hascii, hnewline, readBack_newline]
  · exact absurd hreturned (by simp)

/-- A token that could not be written leaves an empty file behind. -/
theorem readToken_storeToken_raised {files : Files} {tokenFile token : String}
    (hraised : (storeToken files tokenFile token).returned = false) :
    readToken (storeToken files tokenFile token).files tokenFile = some "" := by
  unfold storeToken at hraised ⊢
  split at hraised
  · exact absurd hraised (by simp)
  · rename_i hfile
    rw [if_neg hfile]
    unfold writeToken at hraised ⊢
    split at hraised
    · exact absurd hraised (by simp)
    · rename_i hascii
      rw [if_neg hascii]
      simp only [readToken, Function.update_self]
      rfl

/-! ## The client -/

/-- The state of a `TransportClient`. -/
structure TransportClient where
  server : String
  tokenFile : String
  token : String
  /-- Status of the last authorization rejection, `none` after an accepted push. -/
  authStatus : Option Status
  /-- Backend instructions from the last accepted push response. -/
  serverCommands : List (Key × Value)

namespace TransportClient

/-- The token file the options name. -/
def tokenFileOf (options : List (Key × Value)) : String :=
  ((Value.getD options "token_file" (.str "")).orElse (.str defaultTokenFile)).toStr

/-- The token the options and the token file give: an inline token is used as it
stands, and the file is not even opened. -/
def loadToken (options : List (Key × Value)) (files : Files) : Option String :=
  let inline := Value.getD options "token" (.str "")
  if inline.truthy then some inline.toStr else readToken files (tokenFileOf options)

/-- The base URL the options name. -/
def serverOf (options : List (Key × Value)) : String :=
  String.ofList (PyText.rstripSlash (Value.getD options "server" (.str "")).toStr.toList)

/-- `TransportClient.__init__`; `none` when the token file cannot be decoded. -/
def init (options : List (Key × Value)) (files : Files) : Option TransportClient :=
  (loadToken options files).map fun token =>
    { server := serverOf options
      tokenFile := tokenFileOf options
      token := token
      authStatus := none
      serverCommands := [] }

/-- `configured`. -/
def configured (c : TransportClient) : Bool := decide (c.server ≠ "" ∧ c.token ≠ "")

/-- What an accepted response does to the client. -/
def accept (c : TransportClient) (r : Response) : TransportClient :=
  { c with authStatus := none, serverCommands := Value.asDict r.json }

/-- What a 4xx does to the client: only 401, 403 and 410 are remembered. -/
def reject (c : TransportClient) (r : Response) : TransportClient :=
  if r.status.auth then { c with authStatus := some r.status } else c

end TransportClient

/-- An enrolled client. -/
def sampleClient : TransportClient :=
  { server := "https://example.org", tokenFile := defaultTokenFile, token := "t0",
    authStatus := none, serverCommands := [] }

/-- Tries per payload before it is considered undelivered: `_ATTEMPTS`. -/
def pushAttempts : Nat := 2

/-- What one `push` did. -/
structure Push where
  /-- The return value: the caller is done with the payload. -/
  done : Bool
  client : TransportClient
  /-- The attempts made, in order. -/
  tries : List Outcome
  /-- The outcomes left for later requests. -/
  rest : Stream' Outcome

namespace TransportClient

/-- The loop of `push`, with the number of attempts still allowed, on answers that can be
read. -/
def pushLoop : Nat → TransportClient → Stream' Outcome → Push
  | 0, c, http => { done := false, client := c, tries := [], rest := http }
  | n + 1, c, http =>
    let retry := pushLoop n c http.tail
    match http.head with
    | .exception => { retry with tries := .exception :: retry.tries }
    | .response r =>
      if r.status.accepted then
        { done := true, client := c.accept r, tries := [.response r], rest := http.tail }
      else if r.status.rejected then
        -- the same body cannot succeed later: the caller drops it
        { done := true, client := c.reject r, tries := [.response r], rest := http.tail }
      else { retry with tries := .response r :: retry.tries }

/-- `TransportClient.push`, on the outcomes the network has in store. -/
def push (c : TransportClient) (http : Stream' Outcome) : Push := pushLoop pushAttempts c http

end TransportClient

/-- The answer a push will get within its attempts: the first 2xx or 4xx. -/
def answerWithin : Nat → Stream' Outcome → Option Response
  | 0, _ => none
  | n + 1, http =>
    match http.head with
    | .exception => answerWithin n http.tail
    | .response r => if r.status.definitive then some r else answerWithin n http.tail

/-- The answer a push will get, if any. -/
def answer (http : Stream' Outcome) : Option Response := answerWithin pushAttempts http

/-- Everything a push can do, given the answer it gets. -/
inductive Pushed (c : TransportClient) : Option Response → Push → Prop
  | accepted {before : List Outcome} {r : Response} {rest : Stream' Outcome}
      (unanswered : Open before) (accepted : r.status.accepted = true) :
      Pushed c (some r) ⟨true, c.accept r, before ++ [.response r], rest⟩
  | rejected {before : List Outcome} {r : Response} {rest : Stream' Outcome}
      (unanswered : Open before) (rejected : r.status.rejected = true) :
      Pushed c (some r) ⟨true, c.reject r, before ++ [.response r], rest⟩
  | undelivered {tries : List Outcome} {rest : Stream' Outcome} (unanswered : Open tries) :
      Pushed c none ⟨false, c, tries, rest⟩

/-- One more attempt without an answer changes nothing but the list of attempts. -/
theorem Pushed.retry {c : TransportClient} {a : Option Response} {p : Push} (h : Pushed c a p)
    {o : Outcome} (ho : o.definitive = false) : Pushed c a { p with tries := o :: p.tries } := by
  have hone : Open [o] := by simpa [Open] using ho
  cases h with
  | accepted hopen hacc => exact .accepted (hone.append hopen) hacc
  | rejected hopen hrej => exact .rejected (hone.append hopen) hrej
  | undelivered hopen => exact .undelivered (hone.append hopen)

namespace TransportClient

theorem pushLoop_spec (n : Nat) (c : TransportClient) (http : Stream' Outcome) :
    Pushed c (answerWithin n http) (pushLoop n c http) := by
  induction n generalizing http with
  | zero => exact .undelivered open_nil
  | succ n ih =>
    simp only [pushLoop, answerWithin]
    cases http.head with
    | exception => exact (ih http.tail).retry rfl
    | response r =>
      by_cases hacc : r.status.accepted = true
      · simp only [hacc, Status.definitive, Bool.true_or, if_true]
        exact @Pushed.accepted c [] r http.tail open_nil hacc
      · by_cases hrej : r.status.rejected = true
        · simp only [hacc, hrej, Status.definitive, Bool.or_true, if_true]
          exact @Pushed.rejected c [] r http.tail open_nil hrej
        · simp only [hacc, hrej, Status.definitive, Bool.or_self]
          refine (ih http.tail).retry ?_
          simp [Outcome.definitive, Status.definitive, hacc, hrej]

/-- **Everything a push can do**: its last attempt was accepted, or rejected, or
there was no answer and the client is as before. -/
theorem push_spec (c : TransportClient) (http : Stream' Outcome) :
    Pushed c (answer http) (c.push http) := pushLoop_spec _ _ _

/-- Where a client sends its requests, and with which token. -/
def endpoint (c : TransportClient) : String × String × String := (c.server, c.tokenFile, c.token)

/-- A push never touches the token, nor where it came from. -/
theorem endpoint_push (c : TransportClient) (http : Stream' Outcome) :
    (c.push http).client.endpoint = c.endpoint := by
  have h := push_spec c http
  have hreject : ∀ r, (c.reject r).endpoint = c.endpoint := by
    intro r
    unfold reject
    split <;> rfl
  generalize answer http = a, c.push http = p at h
  cases h with
  | accepted => rfl
  | rejected => exact hreject _
  | undelivered => rfl

/-- Clients with one endpoint carry one token. -/
theorem token_congr {c c' : TransportClient} (h : c.endpoint = c'.endpoint) : c.token = c'.token :=
  congrArg (fun e => e.2.2) h

/-- The caller is done with a payload when it got an answer. -/
theorem done_push (c : TransportClient) (http : Stream' Outcome) :
    (c.push http).done = (answer http).isSome := by
  have h := push_spec c http
  generalize answer http = a, c.push http = p at h ⊢
  cases h <;> rfl

/-- What is left of an authorization rejection on record after an answer: an
accepted push clears it, a new rejection of that kind replaces it, any other 4xx
leaves it. -/
theorem authStatus_push {c : TransportClient} {http : Stream' Outcome} {r : Response}
    (hanswer : answer http = some r) :
    (c.push http).client.authStatus =
      if r.status.accepted then none
      else if r.status.auth then some r.status else c.authStatus := by
  have h := push_spec c http
  rw [hanswer] at h
  generalize c.push http = p at h ⊢
  cases h with
  | accepted _ hacc => rw [if_pos hacc]; rfl
  | rejected _ hrej =>
    rw [if_neg (by simp [Status.not_accepted_of_rejected hrej])]
    show (c.reject r).authStatus = _
    unfold reject
    split <;> rfl

/-- The instructions on record after an answer: those of an accepted one, else the ones
that were there before. -/
theorem serverCommands_push {c : TransportClient} {http : Stream' Outcome} {r : Response}
    (hanswer : answer http = some r) :
    (c.push http).client.serverCommands =
      if r.status.accepted then Value.asDict r.json else c.serverCommands := by
  have h := push_spec c http
  rw [hanswer] at h
  generalize c.push http = p at h ⊢
  cases h with
  | accepted _ hacc => rw [if_pos hacc]; rfl
  | rejected _ hrej =>
    rw [if_neg (by simp [Status.not_accepted_of_rejected hrej])]
    show (c.reject r).serverCommands = _
    unfold reject
    split <;> rfl

end TransportClient

/-- The attempts of a push that got its answer. -/
theorem closed_push {c : TransportClient} {http : Stream' Outcome}
    (h : (c.push http).done = true) : Closed (c.push http).tries := by
  have hspec := c.push_spec http
  generalize answer http = a, c.push http = p at h hspec
  cases hspec with
  | @accepted before r rest hopen hacc =>
    exact ⟨before, _, rfl, hopen, by simp [Outcome.definitive, Status.definitive, hacc]⟩
  | @rejected before r rest hopen hrej =>
    exact ⟨before, _, rfl, hopen, by simp [Outcome.definitive, Status.definitive, hrej]⟩
  | undelivered => exact absurd h (by simp)

/-- The attempts of a push that got no answer. -/
theorem open_push {c : TransportClient} {http : Stream' Outcome}
    (h : (c.push http).done = false) : Open (c.push http).tries := by
  have hspec := c.push_spec http
  generalize answer http = a, c.push http = p at h hspec
  cases hspec with
  | accepted => exact absurd h (by simp)
  | rejected => exact absurd h (by simp)
  | undelivered hopen => exact hopen

/-- An answer is a 2xx or a 4xx. -/
theorem definitive_answer {http : Stream' Outcome} {r : Response} (h : answer http = some r) :
    r.status.definitive = true := by
  have hloop : ∀ n (http : Stream' Outcome), answerWithin n http = some r →
      r.status.definitive = true := by
    intro n
    induction n with
    | zero => exact fun _ h => absurd h (by simp [answerWithin])
    | succ n ih =>
      intro http h
      unfold answerWithin at h
      split at h
      · exact ih _ h
      · split at h
        · rename_i hdef
          rwa [Option.some.inj h] at hdef
        · exact ih _ h
  exact hloop _ _ h

/-! ## `drain` -/

variable {α : Type}

/-- What the inner loop of `drain` did with one batch. -/
structure Batch (α : Type) where
  /-- The ids of the rows whose push returned `True`, in order. -/
  delivered : List Nat
  client : TransportClient
  events : List (Event α)
  rest : Stream' Outcome

/-- The inner loop of `drain`: push the rows in order, stop at the first one that
gets no answer. -/
def deliver : TransportClient → List (Row α) → Stream' Outcome → Batch α
  | c, [], http => { delivered := [], client := c, events := [], rest := http }
  | c, row :: rows, http =>
    let p := c.push http
    let posted := attempts (.queued row.id) c.token row.payload p.tries
    if p.done then
      let b := deliver p.client rows p.rest
      { b with delivered := row.id :: b.delivered, events := posted ++ b.events }
    else { delivered := [], client := p.client, events := posted, rest := p.rest }

/-- What one `drain` did. -/
structure Drain (α : Type) where
  queue : DiskQueue α
  client : TransportClient
  /-- The return value: payloads taken off the queue. -/
  sent : Nat
  events : List (Event α)
  rest : Stream' Outcome

/-- The commit of an `ack`; acknowledging nothing commits nothing. -/
def ackEvents (ids : List Nat) : List (Event α) := if ids.isEmpty then [] else [.acked ids]

/-- The `while True` loop of `drain`, cut off after `fuel` rounds. -/
def drainLoop (batch : Nat) :
    Nat → DiskQueue α → TransportClient → Stream' Outcome → Drain α
  | 0, q, c, http => { queue := q, client := c, sent := 0, events := [], rest := http }
  | fuel + 1, q, c, http =>
    let rows := q.peek batch
    if rows.isEmpty then { queue := q, client := c, sent := 0, events := [], rest := http }
    else
      let b := deliver c rows http
      let q' := q.ack b.delivered
      let events := b.events ++ ackEvents b.delivered
      if b.delivered.length < rows.length then
        { queue := q', client := b.client, sent := b.delivered.length, events := events,
          rest := b.rest }
      else
        let d := drainLoop batch fuel q' b.client b.rest
        { d with sent := b.delivered.length + d.sent, events := events ++ d.events }

/-- `drain`: a queue of `n` rows is empty after at most `n` full batches. -/
def drain (batch : Nat) (q : DiskQueue α) (c : TransportClient) (http : Stream' Outcome) :
    Drain α :=
  drainLoop batch (q.len + 1) q c http

/-- The batch size `drain` is called with when none is given. -/
def drainBatch : Nat := 50

end OoAgent
