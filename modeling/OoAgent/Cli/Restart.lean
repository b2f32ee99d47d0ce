import OoAgent.Cli.Sink

/-!
# Restarting the daemon

What `_build_sink` makes of the files a run left behind.  The token file follows
the token: it is removed with it and rewritten with it.  So a sink that pushes
comes back pushing with the same token, as far as the token file can carry it; a
sink that re-claims comes back with no token at all, and without one the agent
only logs; and an inline token wins over everything that happened since.

* `Credential` — what a sink can do with the server.
* `Stored` — the token file follows the token; `stored_step`, `stored_run`.
* `restart_credential` — **the credential after a restart**, from the credential
  before it.
-/

namespace OoAgent

variable {α : Type}

/-! ## Credentials -/

/-- What a sink can do with the server. -/
inductive Credential where
  /-- It only logs. -/
  | logOnly
  /-- It pushes with this token. -/
  | pushing (token : String)
  /-- It waits to be enrolled again. -/
  | reclaiming
  deriving DecidableEq, Repr

/-- The credential a sink has. -/
def Sink.credential : Sink α → Credential
  | .logOnly .. => .logOnly
  | .push d => if d.reclaim.isSome then .reclaiming else .pushing d.client.token

/-- The files a sink left on disk. -/
def Sink.files : Sink α → Files
  | .logOnly files _ => files
  | .push d => d.files

/-- A sink after some calls; one that only logs changes nothing. -/
def Sink.run [Payload α] : Sink α → List (Call α) → Sink α
  | .logOnly files queue, _ => .logOnly files queue
  | .push d, calls => .push (sinkMachine.run d calls).1

/-- A restart after the calls, with the same options and the files the sink left,
gives a sink with credential `c`, whatever becomes of the queue. -/
def RestartsAs [Payload α] (options : List (Key × Value)) (sink : Sink α)
    (calls : List (Call α)) (c : Credential) : Prop :=
  ∀ queue : Option (DiskQueue α), ∃ new,
    buildSink options (sink.run calls).files queue = some new ∧ new.credential = c

/-- The credential a token gives: an empty one gives none. -/
def credentialOf (token : String) : Credential := if token = "" then .logOnly else .pushing token

/-- The inline token of the options, when they have one. -/
def inlineToken (options : List (Key × Value)) : Option String :=
  let inline := Value.getD options "token" (.str "")
  if inline.truthy then some inline.toStr else none

/-- The credential after a restart.  An inline token wins; otherwise a token is what
the token file makes of it, and a sink that was re-claiming has none. -/
def restarted (options : List (Key × Value)) : Credential → Credential
  | .logOnly => .logOnly
  | .pushing token => credentialOf ((inlineToken options).getD (readBack token))
  | .reclaiming => credentialOf ((inlineToken options).getD "")

/-! ## The token file follows the token -/

/-- The token the files hold is the one the daemon would push with. -/
structure Stored (options : List (Key × Value)) (d : Daemon α) : Prop where
  server : d.client.server = TransportClient.serverOf options
  tokenFile : d.client.tokenFile = TransportClient.tokenFileOf options
  flow : ∀ flow, d.reclaim = some flow → flow.tokenFile = TransportClient.tokenFileOf options
  file : inlineToken options = none →
    readToken d.files (TransportClient.tokenFileOf options) =
      some (if d.reclaim.isSome then "" else readBack d.client.token)

theorem tokenFileOf_ne_empty (options : List (Key × Value)) :
    TransportClient.tokenFileOf options ≠ "" := by
  unfold TransportClient.tokenFileOf Value.orElse
  rw [Ne, Value.toStr_eq_empty_iff]
  intro h
  split at h
  · rename_i htruthy
    rw [h] at htruthy
    exact absurd htruthy (by decide)
  · exact absurd h (by simp [defaultTokenFile])

/-- The flow never forgets where its token goes. -/
theorem tokenFile_ask (f : ReclaimFlow) (now : Time) (reply : Outcome) :
    (f.ask now reply).flow.tokenFile = f.tokenFile := by
  unfold ReclaimFlow.ask
  split
  · rfl
  · dsimp only
    split
    · split
      · rfl
      · split
        · rfl
        · split <;> rfl
    · split
      · rfl
      · split
        · rfl
        · split
          · rfl
          · split <;> rfl

theorem tokenFile_step (f : ReclaimFlow) (files : Files) (now : Time) (reply : Outcome) :
    (f.step files now reply).flow.tokenFile = f.tokenFile := by
  simp only [ReclaimFlow.step]
  split <;> exact tokenFile_ask f now reply

/-- A step that hands over a token has stored it. -/
theorem files_step_issued {f : ReclaimFlow} {files : Files} {now : Time} {reply : Outcome}
    {token : String} (h : (f.step files now reply).token = some token) :
    (storeToken files f.tokenFile token).returned = true ∧
      (f.step files now reply).files = (storeToken files f.tokenFile token).files := by
  simp only [ReclaimFlow.step] at h ⊢
  split at h
  · exact absurd h (by simp)
  · simp only at h ⊢
    split at h
    · rename_i hreturned
      obtain rfl := Option.some.inj h
      exact ⟨hreturned, rfl⟩
    · exact absurd h (by simp)

/-- A step that hands over no token leaves the files alone, or an empty token file. -/
theorem files_step_pending {f : ReclaimFlow} {files : Files} {now : Time} {reply : Outcome}
    (h : (f.step files now reply).token = none) :
    (f.step files now reply).files = files ∨
      readToken (f.step files now reply).files f.tokenFile = some "" := by
  simp only [ReclaimFlow.step] at h ⊢
  split at h
  · exact .inl rfl
  · dsimp only at h ⊢
    split at h
    · exact absurd h (by simp)
    · rename_i hraised
      exact .inr (readToken_storeToken_raised (by simpa using hraised))

/-- What leaves the client's endpoint, the mode and the files alone keeps them together. -/
theorem Stored.of_same {options : List (Key × Value)} {d d' : Daemon α} (h : Stored options d)
    (hendpoint : d'.client.endpoint = d.client.endpoint) (hreclaim : d'.reclaim = d.reclaim)
    (hfiles : d'.files = d.files) : Stored options d' where
  server := (congrArg Prod.fst hendpoint).trans h.server
  tokenFile := (congrArg (fun e => e.2.1) hendpoint).trans h.tokenFile
  flow := by
    rw [hreclaim]
    exact h.flow
  file := by
    intro hinline
    rw [hfiles, hreclaim, TransportClient.token_congr hendpoint]
    exact h.file hinline

/-- A removed token file reads as none. -/
theorem readToken_removeFile (files : Files) (tokenFile : String) :
    readToken (removeFile files tokenFile) tokenFile = some "" := by
  simp [readToken, removeFile]

/-- **One call keeps the token file and the token together.** -/
theorem stored_step [Payload α] {options : List (Key × Value)} {d : Daemon α}
    (h : Stored options d) (call : Call α) : Stored options (pushSink d call).1 := by
  have hspec := pushSink_spec d call
  have h' : Stored options (d.atCall call) := h.of_same rfl rfl rfl
  clear h
  generalize d.atCall call = d', pushSink d call = out at hspec h' ⊢
  have hpush := d'.client.endpoint_push call.http
  cases hspec with
  | @unenrolled flow mode pending =>
    have hflow := h'.flow flow mode
    refine ⟨h'.server, h'.tokenFile, ?_, fun hinline => ?_⟩
    · intro flow' hflow'
      rw [← Option.some.inj hflow']
      exact (tokenFile_step flow _ _ _).trans hflow
    · have hold := h'.file hinline
      rw [mode] at hold
      rcases files_step_pending pending with hfiles | hempty
      · exact (congrArg (readToken · _) hfiles).trans hold
      · rw [hflow] at hempty
        exact hempty
  | @reenrolled flow token mode issued =>
    have hflow := h'.flow flow mode
    obtain ⟨hreturned, hfiles⟩ := files_step_issued issued
    refine ⟨h'.server, h'.tokenFile, fun _ h => absurd h (by simp), fun _ => ?_⟩
    have hstored : readToken (storeToken d'.files flow.tokenFile token).files flow.tokenFile =
        some (readBack token) :=
      readToken_storeToken (by rw [hflow]; exact tokenFileOf_ne_empty options) hreturned
    rw [← hfiles, hflow] at hstored
    exact hstored
  | counted mode => exact h'.of_same hpush rfl rfl
  | wiped mode =>
    have hfile := (congrArg (fun e => e.2.1) hpush).trans h'.tokenFile
    refine ⟨(congrArg Prod.fst hpush).trans h'.server, hfile, ?_, fun _ => ?_⟩
    · intro flow' hflow'
      rw [← Option.some.inj hflow']
      exact hfile
    · rw [← hfile]
      exact readToken_removeFile _ _
  | answered mode =>
    obtain ⟨hendpoint, -, hreclaim, hfiles⟩ := afterAnswer_frame d' call
    exact h'.of_same hendpoint hreclaim hfiles
  | undelivered mode =>
    obtain ⟨hclient, -, hreclaim, hfiles⟩ := enqueue_frame
      { d' with client := (d'.client.push call.http).client } call
    exact h'.of_same ((congrArg TransportClient.endpoint hclient).trans hpush) hreclaim hfiles

/-- Whole runs keep them together. -/
theorem stored_run [Payload α] {options : List (Key × Value)} {d : Daemon α}
    (h : Stored options d) (calls : List (Call α)) : Stored options (sinkMachine.run d calls).1 :=
  sinkMachine.run_invariant' (I := fun d _ => Stored options d)
    (fun _ _ call h => stored_step h call) calls h

/-! ## The restart -/

theorem loadToken_eq (options : List (Key × Value)) (files : Files) :
    TransportClient.loadToken options files =
      match inlineToken options with
      | some token => some token
      | none => readToken files (TransportClient.tokenFileOf options) := by
  simp only [TransportClient.loadToken, inlineToken]
  split <;> rfl

/-- What was read from the token file is not changed by another round trip. -/
theorem readBack_readToken {files : Files} {tokenFile token : String}
    (h : readToken files tokenFile = some token) : readBack token = token := by
  unfold readToken at h
  split at h
  · split at h
    · rw [← Option.some.inj h, readBack_readBack]
    · exact absurd h (by simp)
  · rw [← Option.some.inj h]
    rfl

/-- A daemon that has just started holds what its token file holds. -/
theorem stored_start {options : List (Key × Value)} {files : Files}
    {queue : Option (DiskQueue α)} {d : Daemon α}
    (h : buildSink options files queue = some (.push d)) : Stored options d := by
  obtain ⟨client, hinit, -, rfl⟩ := buildSink_push h
  obtain ⟨token, hload, rfl⟩ := Option.map_eq_some_iff.1 hinit
  refine ⟨rfl, rfl, fun _ h => absurd h (by simp), fun hinline => ?_⟩
  rw [loadToken_eq, hinline] at hload
  show readToken files _ = some (readBack token)
  rw [readBack_readToken hload]
  exact hload

/-- The sink built from a token, whatever becomes of the queue. -/
theorem credential_buildSink {options : List (Key × Value)} {files : Files} {token : String}
    (hload : TransportClient.loadToken options files = some token)
    (hserver : (Value.getD options "server" .none).truthy = true)
    (hurl : TransportClient.serverOf options ≠ "") (queue : Option (DiskQueue α)) :
    ∃ new, buildSink options files queue = some new ∧ new.credential = credentialOf token := by
  have hinit : TransportClient.init options files = some
      { server := TransportClient.serverOf options
        tokenFile := TransportClient.tokenFileOf options
        token := token, authStatus := none, serverCommands := [] } := by
    rw [TransportClient.init, hload]
    rfl
  simp only [buildSink, hserver, hinit, Bool.true_eq_false, if_false, Option.map_some]
  refine ⟨_, rfl, ?_⟩
  by_cases hempty : token = ""
  · simp [TransportClient.configured, credentialOf, hempty, Sink.credential]
  · simp [TransportClient.configured, credentialOf, hempty, hurl, Sink.credential]

/-- A sink that only logs is built again as it was. -/
theorem buildSink_logOnly {options : List (Key × Value)} {files files' : Files}
    {queue queue' : Option (DiskQueue α)}
    (h : buildSink options files queue = some (.logOnly files' queue'))
    (queue'' : Option (DiskQueue α)) :
    files' = files ∧ buildSink options files queue'' = some (.logOnly files queue'') := by
  unfold buildSink at h ⊢
  split at h
  · rename_i hserver
    rw [if_pos hserver]
    exact ⟨(Sink.logOnly.inj (Option.some.inj h)).1.symm, rfl⟩
  · rename_i hserver
    rw [if_neg hserver]
    obtain ⟨client, hinit, hsink⟩ := Option.map_eq_some_iff.1 h
    split at hsink
    · rename_i hconfigured
      rw [hinit, Option.map_some, if_pos hconfigured]
      exact ⟨(Sink.logOnly.inj hsink).1.symm, rfl⟩
    · exact absurd hsink (by simp)

/-- **The credential after a restart.**  Whatever happened during the run, the sink
built from the same options and the files it left has the credential that the
options and the credential of the old sink determine. -/
theorem restart_credential [Payload α] {options : List (Key × Value)} {files : Files}
    {queue : Option (DiskQueue α)} {sink : Sink α}
    (hstart : buildSink options files queue = some sink) (calls : List (Call α)) :
    RestartsAs options sink calls (restarted options (sink.run calls).credential) := by
  intro queue'
  cases sink with
  | logOnly files' _ =>
    obtain ⟨rfl, hagain⟩ := buildSink_logOnly hstart queue'
    exact ⟨_, hagain, rfl⟩
  | push d =>
    have hstored := stored_run (stored_start hstart) calls
    obtain ⟨client, hinit, hconfigured, -⟩ := buildSink_push hstart
    have hserver : (Value.getD options "server" .none).truthy = true := by
      unfold buildSink at hstart
      split at hstart
      · exact absurd hstart (by simp)
      · rename_i hserver
        simpa using hserver
    have hurl : TransportClient.serverOf options ≠ "" := by
      obtain ⟨token, -, rfl⟩ := Option.map_eq_some_iff.1 hinit
      exact (of_decide_eq_true hconfigured).1
    show ∃ new, buildSink options (sinkMachine.run d calls).1.files queue' = some new ∧
      new.credential = restarted options (Sink.push (sinkMachine.run d calls).1).credential
    generalize (sinkMachine.run d calls).1 = d' at hstored ⊢
    have hload := loadToken_eq options d'.files
    cases hinline : inlineToken options with
    | some token =>
      rw [hinline] at hload
      obtain ⟨new, hnew, hcredential⟩ := credential_buildSink hload hserver hurl queue'
      refine ⟨new, hnew, hcredential.trans ?_⟩
      cases hmode : d'.reclaim <;> simp [Sink.credential, restarted, hmode, hinline]
    | none =>
      rw [hinline, hstored.file hinline] at hload
      obtain ⟨new, hnew, hcredential⟩ := credential_buildSink hload hserver hurl queue'
      refine ⟨new, hnew, hcredential.trans ?_⟩
      cases hmode : d'.reclaim <;> simp [Sink.credential, restarted, hmode, hinline]

/-- Three rejections of the token, then a restart. -/
theorem restart_credential_wiped :
    RestartsAs sampleOptions (.push sampleDaemon)
      (List.replicate 3 (sampleCall 1 (.ofStatus 401))) .logOnly :=
  restart_credential sampleDaemon_start (List.replicate 3 (sampleCall 1 (.ofStatus 401)))

/-- **A restart ends the re-claiming**: the new sink only logs. -/
theorem restart_forgets_reclaim :
    ¬ RestartsAs sampleOptions (.push sampleDaemon)
      (List.replicate 3 (sampleCall 1 (.ofStatus 401)))
      (Sink.run (.push sampleDaemon)
        (List.replicate 3 (sampleCall 1 (.ofStatus 401)))).credential := by
  intro h
  obtain ⟨new, hnew, hcredential⟩ := h none
  have hrebuilt : buildSink sampleOptions (Sink.run (.push sampleDaemon)
      (List.replicate 3 (sampleCall 1 (.ofStatus 401)))).files none =
        some (.logOnly _ (none : Option (DiskQueue Int))) := rfl
  obtain rfl := Option.some.inj (hrebuilt.symm.trans hnew)
  exact absurd hcredential (by decide)

end OoAgent
