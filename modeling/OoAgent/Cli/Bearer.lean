import OoAgent.Cli.Sink

/-!
# The token on the wire

Every metrics request carries the token obtained last: the one the daemon was
started with, or the one the latest completed re-claim returned.  Between a wipe
and the next re-claim there is no request at all.

* `latestToken`, `wiped` — what a log says about the token, without looking at the
  state of the daemon.
* `Holds` — the invariant: in push mode the client holds that token, it is not empty
  and has not been wiped.
* `requests_carry_latest_token` — **the law**, for every request of a run.
-/

namespace OoAgent

variable {α : Type}

/-! ## What a log says about the token -/

/-- The token obtained last: the one that came with the latest re-claim, else the one
at the start. -/
def latestToken (start : String) : List (Event α) → String
  | [] => start
  | .reenrolled token :: log => latestToken token log
  | _ :: log => latestToken start log

/-- The token was wiped, and no new one has come since. -/
def wipedBy (before : Bool) : List (Event α) → Bool
  | [] => before
  | .removedToken :: log => wipedBy true log
  | .reenrolled _ :: log => wipedBy false log
  | _ :: log => wipedBy before log

/-- At the end of the log the agent is without a token. -/
def wiped (log : List (Event α)) : Bool := wipedBy false log

/-- The event neither brings a token nor takes it away. -/
def Event.keepsToken : Event α → Bool
  | .reenrolled _ => false
  | .removedToken => false
  | _ => true

theorem latestToken_append (start : String) (l m : List (Event α)) :
    latestToken start (l ++ m) = latestToken (latestToken start l) m := by
  induction l generalizing start with
  | nil => rfl
  | cons e l ih => cases e <;> exact ih _

theorem wipedBy_append (before : Bool) (l m : List (Event α)) :
    wipedBy before (l ++ m) = wipedBy (wipedBy before l) m := by
  induction l generalizing before with
  | nil => rfl
  | cons e l ih => cases e <;> exact ih _

/-- Events that keep the token change nothing about it. -/
theorem token_kept {log : List (Event α)} (h : ∀ e ∈ log, e.keepsToken = true) (start : String)
    (before : Bool) : latestToken start log = start ∧ wipedBy before log = before := by
  induction log with
  | nil => exact ⟨rfl, rfl⟩
  | cons e log ih =>
    obtain ⟨he, hlog⟩ := List.forall_mem_cons.1 h
    cases e with
    | reenrolled token => exact absurd he (by simp [Event.keepsToken])
    | removedToken => exact absurd he (by simp [Event.keepsToken])
    | _ => exact ih hlog

/-! ## What a call logs -/

theorem keepsToken_liveEvents {d : Daemon α} {call : Call α} :
    ∀ e ∈ liveEvents d call, e.keepsToken = true := by
  intro e he
  rcases mem_liveEvents he with rfl | ⟨o, rfl⟩
  · rfl
  · rfl

theorem keepsToken_afterAnswer {d : Daemon α} {call : Call α} :
    ∀ e ∈ (afterAnswer d call).2, e.keepsToken = true := by
  intro e he
  rcases mem_afterAnswer he with he | rfl | ⟨id, payload, o, rfl⟩ | ⟨ids, rfl⟩
  · exact keepsToken_liveEvents e he
  · rfl
  · rfl
  · rfl

theorem keepsToken_enqueue [Payload α] {d : Daemon α} {call : Call α} :
    ∀ e ∈ (enqueue d call).2, e.keepsToken = true := by
  intro e he
  obtain ⟨row, trimmed, rfl⟩ := mem_enqueue he
  rfl

/-- The live push carries the token of the client. -/
theorem token_liveEvents {d : Daemon α} {call : Call α} {origin : Origin} {token : String}
    {payload : α} {o : Outcome} (h : .post origin token payload o ∈ liveEvents d call) :
    token = d.client.token := by
  rcases mem_liveEvents h with h | ⟨o', h⟩
  · exact absurd h (by simp)
  · exact (Event.post.inj h).2.1

/-- So does the drain that follows it. -/
theorem token_afterAnswer {d : Daemon α} {call : Call α} {origin : Origin} {token : String}
    {payload : α} {o : Outcome} (h : .post origin token payload o ∈ (afterAnswer d call).2) :
    token = d.client.token := by
  rcases mem_afterAnswer h with h | h | ⟨id, payload', o', h⟩ | ⟨ids, h⟩
  · exact token_liveEvents h
  · exact absurd h (by simp)
  · exact (Event.post.inj h).2.1
  · exact absurd h (by simp)

/-! ## The invariant -/

/-- In push mode the client holds the token obtained last, and that token is not
empty and has not been wiped. -/
def Holds (start : String) (d : Daemon α) (log : List (Event α)) : Prop :=
  d.reclaim = none →
    d.client.token ≠ "" ∧ d.client.token = latestToken start log ∧ wiped log = false

/-- A call that keeps the token keeps the invariant. -/
theorem Holds.keep {start : String} {d d' : Daemon α} {log new : List (Event α)}
    (h : Holds start d log) (hmode : d.reclaim = none) (htoken : d'.client.token = d.client.token)
    (hnew : ∀ e ∈ new, e.keepsToken = true) : Holds start d' (log ++ new) := by
  intro _
  obtain ⟨hne, hlatest, hwiped⟩ := h hmode
  obtain ⟨hl, hw⟩ := token_kept hnew (latestToken start log) (wiped log)
  refine ⟨by rwa [htoken], ?_, ?_⟩
  · rw [latestToken_append, hl, htoken, hlatest]
  · rw [wiped, wipedBy_append]
    exact hw.trans hwiped

/-- One call keeps the invariant. -/
theorem holds_step [Payload α] {start : String} {d : Daemon α} {log : List (Event α)}
    (h : Holds start d log) (call : Call α) :
    Holds start (pushSink d call).1 (log ++ (pushSink d call).2) := by
  have hspec := pushSink_spec d call
  have h' : Holds start (d.atCall call) log := h
  generalize d.atCall call = d', pushSink d call = out at hspec h' ⊢
  have hpush := TransportClient.token_congr (d'.client.endpoint_push call.http)
  cases hspec with
  | unenrolled => exact fun hmode => absurd hmode (by simp)
  | @reenrolled flow token mode issued =>
    intro _
    obtain ⟨r, -, -, -, -, hne, -⟩ :=
      ReclaimFlow.issued_ask (ReclaimFlow.issued_of_token_step issued)
    refine ⟨hne, ?_, ?_⟩
    · rw [← List.append_assoc, latestToken_append]
      rfl
    · rw [wiped, ← List.append_assoc, wipedBy_append]
      rfl
  | counted mode => exact h'.keep mode hpush keepsToken_liveEvents
  | wiped => exact fun hmode => absurd hmode (by simp [wipeToken])
  | answered mode =>
    obtain ⟨hendpoint, -⟩ := afterAnswer_frame d' call
    exact h'.keep mode (TransportClient.token_congr hendpoint) keepsToken_afterAnswer
  | undelivered mode =>
    obtain ⟨hclient, -⟩ := enqueue_frame
      { d' with client := (d'.client.push call.http).client } call
    refine h'.keep mode ((congrArg TransportClient.token hclient).trans hpush) ?_
    exact List.forall_mem_append.2 ⟨keepsToken_liveEvents, keepsToken_enqueue⟩

/-! ## The law -/

/-- What the law asks of an event, given the log before it: a metrics request carries
the token obtained last, which is not empty and has not been wiped. -/
def CarriesLatest (start : String) (before : List (Event α)) : Event α → Prop
  | .post _ token _ _ => token ≠ "" ∧ token = latestToken start before ∧ wiped before = false
  | _ => True

/-- A request made after events that keep the token. -/
theorem Holds.carries {start : String} {d : Daemon α} {log done : List (Event α)}
    (h : Holds start d log) (hmode : d.reclaim = none) (hdone : ∀ e ∈ done, e.keepsToken = true)
    {e : Event α} (he : ∀ origin token payload o, e = .post origin token payload o →
      token = d.client.token) : CarriesLatest start (log ++ done) e := by
  cases e with
  | post origin token payload o =>
    obtain rfl := he origin token payload o rfl
    have hkept : Holds start d (log ++ done) := h.keep hmode rfl hdone
    exact hkept hmode
  | _ => trivial

/-- A step of the re-claim flow makes no metrics request. -/
theorem carries_enrollEvents {start : String} {before : List (Event α)} {s : ReclaimFlow.Step}
    {reply : Outcome} {e : Event α} (he : e ∈ (enrollEvents s reply : List (Event α))) :
    CarriesLatest start before e := by
  rcases mem_enrollEvents he with ⟨request, rfl⟩ | rfl
  · trivial
  · trivial

/-- One call keeps the law. -/
theorem carries_step [Payload α] {start : String} {d : Daemon α} {log : List (Event α)}
    (h : Holds start d log) {call : Call α} {done rest : List (Event α)} {e : Event α}
    (hlog : (pushSink d call).2 = done ++ e :: rest) : CarriesLatest start (log ++ done) e := by
  have hspec := pushSink_spec d call
  have h' : Holds start (d.atCall call) log := h
  have hmem : e ∈ (pushSink d call).2 := by rw [hlog]; simp
  have hdone : ∀ e ∈ done, e ∈ (pushSink d call).2 := by
    intro e he
    rw [hlog]
    exact List.mem_append_left _ he
  generalize d.atCall call = d', pushSink d call = out at hspec hlog hmem hdone h'
  cases hspec with
  | unenrolled => exact carries_enrollEvents hmem
  | reenrolled =>
    rcases List.mem_append.1 hmem with hmem | hmem
    · exact carries_enrollEvents hmem
    · rw [List.mem_singleton.1 hmem]
      trivial
  | counted mode =>
    refine h'.carries mode (fun e he => keepsToken_liveEvents e (hdone e he)) ?_
    rintro origin token payload o rfl
    exact token_liveEvents hmem
  | wiped mode =>
    -- nothing follows the wipe in this call
    have hlive : liveEvents d' call = done ++ (e :: rest).dropLast := by
      have hdrop := congrArg List.dropLast hlog
      rwa [List.dropLast_concat, List.dropLast_append_of_ne_nil (by simp)] at hdrop
    have hdone' : ∀ e ∈ done, e.keepsToken = true := by
      have hkept : ∀ e ∈ liveEvents d' call, e.keepsToken = true := keepsToken_liveEvents
      intro e he
      apply hkept e
      rw [hlive]
      exact List.mem_append_left _ he
    refine h'.carries mode hdone' ?_
    rintro origin token payload o rfl
    rcases List.mem_append.1 hmem with hmem | hmem
    · exact token_liveEvents hmem
    · exact absurd hmem (by simp)
  | answered mode =>
    refine h'.carries mode (fun e he => keepsToken_afterAnswer e (hdone e he)) ?_
    rintro origin token payload o rfl
    exact token_afterAnswer hmem
  | undelivered mode =>
    refine h'.carries mode (fun e he => ?_) ?_
    · rcases List.mem_append.1 (hdone e he) with he | he
      · exact keepsToken_liveEvents e he
      · exact keepsToken_enqueue e he
    · rintro origin token payload o rfl
      rcases List.mem_append.1 hmem with hmem | hmem
      · exact token_liveEvents hmem
      · obtain ⟨row, trimmed, h⟩ := mem_enqueue hmem
        exact absurd h (by simp)

/-- **No request with a dead token.**  From start-up on, every metrics request, live or
drained, carries the token obtained last, which is not empty; while the agent is
without a token there is no request. -/
theorem requests_carry_latest_token [Payload α] {options : List (Key × Value)} {files : Files}
    {queue : Option (DiskQueue α)} {d : Daemon α}
    (hstart : buildSink options files queue = some (.push d)) (calls : List (Call α))
    {before after : List (Event α)} {origin : Origin} {token : String} {payload : α}
    {outcome : Outcome}
    (hlog : (sinkMachine.run d calls).2 = before ++ .post origin token payload outcome :: after) :
    token ≠ "" ∧ token = latestToken d.client.token before ∧ wiped before = false := by
  obtain ⟨client, -, hconfigured, rfl⟩ := buildSink_push hstart
  simp only [TransportClient.configured, decide_eq_true_eq] at hconfigured
  have hheld := sinkMachine.run_outputs (P := CarriesLatest client.token)
    (fun _ _ call h => holds_step h call) (fun _ _ _ _ _ _ h hlog => carries_step h hlog)
    (I := Holds client.token) (fun _ => ⟨hconfigured.2, rfl, rfl⟩) hlog
  exact hheld

/-- The first push of a daemon that read the token `t0` from its token file. -/
theorem requests_carry_latest_token_first :
    "t0" ≠ "" ∧ "t0" = latestToken "t0" [.handed (1 : Int)] ∧
      wiped [Event.handed (1 : Int)] = false := by
  let calls := [sampleCall 1 (.ofStatus 200 Status.ok.final)]
  have hlog : (sinkMachine.run sampleDaemon calls).2 =
      [.handed 1] ++ .post .live "t0" 1 (.ofStatus 200 Status.ok.final) :: [] := rfl
  exact requests_carry_latest_token sampleDaemon_start calls hlog

end OoAgent
