import OoAgent.Cli.RunDaemon
import OoAgent.Core.Assembly
import OoAgent.Core.Endurance
import OoAgent.Transport.Conversation

/-!
# From the collectors to the wire

What the collectors return reaches the wire through the scheduler, the sink and the queue.
When they return JSON, so is every payload that is assembled, and nothing on the way can
change its text or raise.

* `jsonable_document` — every payload that is assembled.
* `daemon_posts_collected` — **what the daemon posts**, over whole runs.
* `daemon_survives` — **the daemon outlasts its collectors, its network and its server**.
-/

namespace OoAgent

/-! ## What is assembled -/

/-- The collectors return JSON in this turn, and the clock shows a number `int` prints. -/
def Round.ReturnsJson (r : Round) : Prop :=
  convertible r.tick.ts = true ∧ ∀ i v, r.tick.calls i = .returned v → jsonable v = true

theorem jsonable_agentInfo {host : HostFacts} {agent : Value} (h : agentInfo host = some agent) :
    jsonable agent = true := by
  obtain ⟨fingerprint, -, rfl⟩ := Option.map_eq_some_iff.1 h
  rw [jsonable_dict_iff]
  refine ⟨by simp, ?_⟩
  simp only [List.forall_mem_cons, List.not_mem_nil, false_implies, implies_true, and_true]
  exact ⟨⟨rfl, rfl⟩, ⟨rfl, rfl⟩, ⟨rfl, rfl⟩, ⟨rfl, rfl⟩, ⟨rfl, rfl⟩, rfl, rfl⟩

theorem jsonable_toValue {doc : Document} (hagent : jsonable doc.agent = true)
    (hts : convertible doc.payload.ts = true) (hpayload : JsonPayload doc.payload) :
    jsonable doc.toValue = true := by
  obtain ⟨agent, ts, metrics, sensors, inventory, capabilities⟩ := doc
  obtain ⟨hmetrics, hsensors, hinventory⟩ := hpayload
  have hcapabilities : jsonable (.list (capabilities.map Value.str)) = true := by
    rw [jsonable_list_iff]
    intro v hv
    obtain ⟨s, -, rfl⟩ := List.mem_map.1 hv
    rfl
  unfold Document.toValue
  rw [jsonable_dict_iff]
  cases inventory with
  | none =>
    refine ⟨by simp, fun item hitem => ?_⟩
    simp only [Option.toList_none, List.map_nil, List.append_nil, List.mem_append, List.mem_cons,
      List.not_mem_nil, or_false] at hitem
    rcases hitem with (rfl | rfl | rfl | rfl) | rfl
    exacts [⟨rfl, hagent⟩, ⟨rfl, hts⟩, ⟨rfl, hmetrics⟩, ⟨rfl, hsensors⟩, ⟨rfl, hcapabilities⟩]
  | some items =>
    refine ⟨by simp, fun item hitem => ?_⟩
    simp only [Option.toList_some, List.map_cons, List.map_nil, List.mem_append, List.mem_cons,
      List.not_mem_nil, or_false] at hitem
    rcases hitem with ((rfl | rfl | rfl | rfl) | rfl) | rfl
    exacts [⟨rfl, hagent⟩, ⟨rfl, hts⟩, ⟨rfl, hmetrics⟩, ⟨rfl, hsensors⟩,
      ⟨rfl, hinventory items rfl⟩, ⟨rfl, hcapabilities⟩]

/-- A payload that a tick shows was assembled in it. -/
theorem runOnce_of_payloadOf {l : Loop} {t : Tick} {p : PushPayload}
    (h : payloadOf (l.tick t).2 = some p) : (runOnce t.ts t.capableAt (l.jobs t)).2 = some p := by
  unfold Loop.tick at h
  split at h
  · exact absurd h (by simp [payloadOf])
  · generalize runOnce t.ts t.capableAt (l.jobs t) = ran at h
    obtain ⟨entries, assembled⟩ := ran
    cases assembled with
    | none => exact absurd h (by simp [payloadOf])
    | some payload =>
      simp only at h
      split at h
      · exact absurd h (by simp [payloadOf])
      · exact h

/-- **Every payload that is assembled** from JSON is JSON. -/
theorem jsonable_document {s : Option Loop} {r : Round} (hjson : r.ReturnsJson) {doc : Document}
    (h : doc ∈ handedOn s r) : jsonable doc.toValue = true := by
  unfold handedOn at h
  cases hagent : agentInfo r.host with
  | none =>
    rw [hagent] at h
    exact absurd h List.not_mem_nil
  | some agent =>
    rw [hagent, Option.mem_toList, Option.map_eq_some_iff] at h
    obtain ⟨payload, hpayload, rfl⟩ := h
    cases s with
    | none => exact absurd hpayload (by simp [schedulerLoop, payloadOf])
    | some l =>
      have hrun := runOnce_of_payloadOf hpayload
      refine jsonable_toValue (jsonable_agentInfo hagent) ?_ (jsonPayload_runOnce hrun ?_)
      · obtain ⟨a, -, rfl⟩ := Option.map_eq_some_iff.1 hrun
        exact hjson.1
      · intro j hj v hv
        obtain ⟨i, hi, rfl⟩ := List.mem_mapIdx.1 hj
        exact hjson.2 i v hv

theorem postable_of_jsonable (calls : JsonCalls) {doc : Document}
    (h : jsonable doc.toValue = true) : Postable calls doc :=
  ⟨keysApart_of_jsonable calls h, isSome_dumps calls h⟩

/-! ## What the sink posts -/

/-- All payloads in the queue of the sink, if there is one, are such. -/
def Sink.HoldsOnly (P : Document → Prop) (sink : Sink Document) : Prop :=
  ∀ d, sink = .push d → OoAgent.HoldsOnly P d

/-- All payloads the daemon posts are such. -/
def DaemonPosts (P : Document → Prop) (log : List DaemonEvent) : Prop :=
  ∀ origin token doc o, .sink (.post origin token doc o) ∈ log → P doc

section Origins

variable {P : Document → Prop}

theorem daemonPosts_map {log : List (Event Document)} (h : PostsOnly P log) :
    DaemonPosts P (log.map .sink) := by
  intro origin token doc o hmem
  obtain ⟨e, he, heq⟩ := List.mem_map.1 hmem
  obtain rfl := DaemonEvent.sink.inj heq
  exact h _ _ _ _ he

/-- A call that raises leaves payloads on disk that were there before. -/
theorem holdsOnly_leftBehind {d : Daemon Document} {call : Call Document}
    {file : Option (DiskQueue Document)} (h : HoldsOnly P d) (hleft : LeftBehind d call file)
    {files : Files} : HoldsOnly P { d with queue := file, files := files } := by
  rcases hleft with rfl | ⟨q, n, hqueue, rfl, -⟩
  · exact h
  · intro q' hq' row hrow
    obtain rfl := Option.some.inj hq'
    rw [DiskQueue.rows_dropFront] at hrow
    exact h q hqueue row (List.mem_of_mem_drop hrow)

/-- **One call of the sink**, whatever goes wrong in it: what it posts and what it leaves in the
queue was there before or was handed to it. -/
theorem origins_sinkStep {sink : Sink Document} {f : FaultyCall Document}
    (h : sink.HoldsOnly P) (hcall : P f.call.payload) :
    (sinkStep sink f).1.HoldsOnly P ∧ DaemonPosts P (sinkStep sink f).2 := by
  cases sink with
  | logOnly files queue => exact ⟨fun d hd => absurd hd (by simp [sinkStep]), by
      intro origin token doc o hmem
      exact absurd (List.mem_singleton.1 hmem) (by simp)⟩
  | push d =>
    have hheld : HoldsOnly P d := h d rfl
    obtain ⟨hrows, hposts⟩ := @origins_pushSink _ P _ d f.call hheld hcall
    have hfaulted := faulted_faultySink d f
    rw [sinkStep]
    generalize faultySink d f = out at hfaulted ⊢
    cases hfaulted with
    | unharmed =>
      refine ⟨fun d' hd' => ?_, daemonPosts_map hposts⟩
      rw [← Sink.push.inj hd']
      exact hrows
    | killed fault left before =>
      refine ⟨fun d' hd' => ?_, daemonPosts_map ?_⟩
      · rw [← Sink.push.inj hd']
        exact holdsOnly_leftBehind hheld left
      · exact PostsOnly.append (fun _ _ _ _ hmem => hposts _ _ _ _ (before.subset hmem))
          (postsOnly_of_quiet (by simp [Event.isPost]))

/-- **No payload comes from nowhere**, over whole runs of the sink. -/
theorem origins_sinkSide {sink : Sink Document} {calls : List (FaultyCall Document)}
    (h : sink.HoldsOnly P) (hcalls : ∀ f ∈ calls, P f.call.payload) :
    DaemonPosts P (sinkSide.run sink calls).2 := by
  have hstep : ∀ (sink : Sink Document) (log : List DaemonEvent) f, P f.call.payload →
      sink.HoldsOnly P ∧ DaemonPosts P log →
        (sinkSide.step sink f).1.HoldsOnly P ∧ DaemonPosts P (log ++ (sinkSide.step sink f).2) := by
    rintro sink log f hcall ⟨hheld, hposts⟩
    obtain ⟨hheld', hposts'⟩ := origins_sinkStep hheld hcall
    refine ⟨hheld', fun origin token doc o hmem => ?_⟩
    rcases List.mem_append.1 hmem with hmem | hmem
    · exact hposts _ _ _ _ hmem
    · exact hposts' _ _ _ _ hmem
  have hstart : sink.HoldsOnly P ∧ DaemonPosts P [] :=
    ⟨h, fun _ _ _ _ hmem => absurd hmem List.not_mem_nil⟩
  have hrun := sinkSide.run_invariant hstep (sinkSide.along_of_forall hcalls) hstart
  rw [List.nil_append] at hrun
  exact hrun.2

end Origins

/-! ## What the daemon posts -/

/-- The turns whose payloads the sink gets to see: a stop ends them. -/
def beforeStop (rounds : List Round) : List Round := rounds.takeWhile fun r => !r.stops

/-- The payloads the scheduler assembles in some turns. -/
def assembledIn (s : Running) (rounds : List Round) : List Document :=
  (loopMachine.run (some s.loop) rounds).2

/-- What the daemon logs is what its sink does with the payloads of turns before a stop. -/
theorem exists_sinkLog (calls : JsonCalls) (s : Running) (rounds : List Round) :
    ∃ given, given <+: beforeStop rounds ∧ ((daemon calls).run s rounds).2 = sinkLog s given := by
  have hprefix {given after : List Round} (hcut : rounds = given ++ after)
      (hgoes : ∀ r ∈ given, r.stops = false) : given <+: beforeStop rounds := by
    rw [beforeStop, hcut, List.takeWhile_append_of_pos fun r hr => by simp [hgoes r hr]]
    exact List.prefix_append _ _
  have hcourse := daemon_is_pipeline calls s rounds
  generalize (daemon calls).run s rounds = out at hcourse
  cases hcourse with
  | running goes reached => exact ⟨rounds, hprefix (List.append_nil _).symm goes, rfl⟩
  | stopped cut goes reached stops => exact ⟨_, hprefix cut goes, rfl⟩
  | died cut goes reached why => exact ⟨_, hprefix cut goes, rfl⟩
  | raised cut goes reached made why =>
    exact ⟨_, hprefix (by rw [cut, List.append_assoc]; rfl) goes, rfl⟩

/-- What is fed to the sink was assembled in those turns. -/
theorem mem_assembledIn {s : Option Loop} {rounds : List Round} {f : FaultyCall Document}
    (h : f ∈ loopMachine.fed Round.call s rounds) :
    f.call.payload ∈ (loopMachine.run s rounds).2 ∧
      ∃ r ∈ rounds, ∃ s', f.call.payload ∈ handedOn s' r := by
  induction rounds generalizing s with
  | nil => exact absurd h List.not_mem_nil
  | cons r rounds ih =>
    rw [Machine.fed_cons] at h
    rcases List.mem_append.1 h with h | h
    · obtain ⟨doc, hdoc, rfl⟩ := List.mem_map.1 h
      exact ⟨List.mem_append_left _ hdoc, r, List.mem_cons_self, s, hdoc⟩
    · obtain ⟨hrest, r', hr', hmade⟩ := ih h
      exact ⟨List.mem_append_right _ hrest, r', List.mem_cons_of_mem _ hr', hmade⟩

theorem assembledIn_mono {s : Running} {given rounds : List Round} (h : given <+: rounds) :
    assembledIn s given ⊆ assembledIn s rounds := by
  obtain ⟨rest, rfl⟩ := h
  rw [assembledIn, assembledIn, Machine.run_append]
  exact List.subset_append_left _ _

/-- Lies in the queue of the sink, if there is one. -/
def Buffered (sink : Sink Document) (doc : Document) : Prop :=
  ∃ d q, sink = .push d ∧ d.queue = some q ∧ ∃ row ∈ q.rows, row.payload = doc

/-! ## What the daemon outlasts -/

/-- A turn that asks nothing impossible of the daemon: a clock that does not go back, JSON
payloads that can be merged, a machine id that can be read, a queue database that works, no
accepted answer that cannot be read, and no token that cannot be stored. -/
structure Round.Bearable (start : Time) (r : Round) : Prop where
  since : r.tick.Since start
  returns : r.tick.Returns
  json : r.ReturnsJson
  identified : (agentInfo r.host).isSome = true
  works : r.env.Works
  readable : r.env.network.Readable
  storable : ∀ reply, r.env.call.reply = .response reply → ascii (tokenOf reply.data) = true

theorem loopMachine_run_fst (s : Option Loop) (rounds : List Round) :
    (loopMachine.run s rounds).1 = (schedulerLoop.run s (rounds.map Round.tick)).1 := by
  induction rounds generalizing s with
  | nil => rfl
  | cons r rounds ih => rw [Machine.run_cons, List.map_cons, Machine.run_cons]; exact ih _

/-- Nothing goes wrong in a call of the sink in such a turn. -/
theorem noFault_of_bearable {start : Time} {r : Round} (h : r.Bearable start)
    (d : Daemon Document) (doc : Document) : NoFault d (r.call doc) where
  sqlite := h.works _
  live := by
    have hreadable : (r.call doc).network.Readable := h.readable
    rw [liveUnreadable, hreadable.unreadable, Bool.and_false]
  drained := drainUnreadable_of_readable (f := r.call doc) h.readable d
  token := by
    intro flow _ _ _ reply hreply _ _
    simp [storable, h.storable reply hreply]

/-- A call of the sink raises only in the re-claim flow. -/
theorem raised_notMem_pushSink {d : Daemon Document} {call : Call Document}
    (hstorable : TokenStorable d call) : .raised ∉ (pushSink d call).2 := by
  have hlive : .raised ∉ liveEvents (d.atCall call) call := fun h => by
    rcases mem_liveEvents h with h | ⟨o, h⟩ <;> exact absurd h (by simp)
  have henroll : ∀ flow, d.reclaim = some flow →
      .raised ∉ (enrollEvents (flow.step (d.atCall call).files call.now call.reply) call.reply :
        List (Event Document)) := by
    intro flow hmode h
    have hstep : (flow.step (d.atCall call).files call.now call.reply).raised = false :=
      (tokenStorable_iff hmode).1 hstorable
    rw [enrollEvents, hstep, if_neg (by simp), List.append_nil] at h
    obtain ⟨request, -, heq⟩ := List.mem_map.1 h
    exact absurd heq (by simp)
  have hspec := pushSink_spec d call
  generalize pushSink d call = out at hspec
  intro h
  cases hspec with
  | unenrolled mode pending => exact henroll _ mode h
  | reenrolled mode issued =>
    rcases List.mem_append.1 h with h | h
    · exact henroll _ mode h
    · exact absurd (List.mem_singleton.1 h) (by simp)
  | counted mode answered auth few => exact hlive h
  | wiped mode answered auth many =>
    rcases List.mem_append.1 h with h | h
    · exact hlive h
    · exact absurd (List.mem_singleton.1 h) (by simp)
  | answered mode answered auth =>
    rcases mem_afterAnswer h with h | h | ⟨id, payload, o, h⟩ | ⟨ids, h⟩
    · exact hlive h
    all_goals exact absurd h (by simp)
  | undelivered mode unanswered =>
    rcases List.mem_append.1 h with h | h
    · exact hlive h
    · obtain ⟨row, trimmed, h⟩ := mem_enqueue h
      exact absurd h (by simp)

/-- A call of the sink in which nothing goes wrong. -/
theorem sinkStep_of_noFault {d : Daemon Document} {f : FaultyCall Document} (h : NoFault d f) :
    sinkStep (.push d) f =
      (.push (pushSink d f.call).1, (pushSink d f.call).2.map .sink) := by
  unfold sinkStep
  simp only [faultySink_of_noFault h]

theorem sinkRaised_sinkStep {start : Time} {sink : Sink Document} {r : Round} {doc : Document}
    (h : r.Bearable start) : sinkRaised (sinkStep sink (r.call doc)).2 = false := by
  cases sink with
  | logOnly files queue => rfl
  | push d =>
    have hfine := noFault_of_bearable h d doc
    have hnot : Event.raised ∉ (pushSink d (r.call doc).call).2 :=
      raised_notMem_pushSink hfine.token
    rw [sinkStep_of_noFault hfine]
    unfold sinkRaised
    rw [List.any_map, List.any_eq_false]
    intro e he hraised
    cases e with
    | raised => exact hnot he
    | _ => exact absurd hraised (by simp [isRaised])

/-- **The daemon outlasts its collectors, its network and its server**: whatever the
collectors raise, whatever becomes of the requests and whatever the server answers that can be
read, for 42 days only a stop ends it. -/
theorem daemon_survives (calls : JsonCalls) {entries : List Entry}
    (hfresh : ∀ e ∈ entries, e.failures = 0) (sink : Sink Document) {start : Time}
    {rounds : List Round} (hbearable : ∀ r ∈ rounds, r.Bearable start)
    (hearly : ∀ r ∈ rounds, r.tick.now < start + endurance) :
    ((daemon calls).run { loop := Loop.start entries, sink := sink } rounds).1 ≠ .inr .died := by
  have hcourse := daemon_is_pipeline calls { loop := Loop.start entries, sink := sink } rounds
  generalize (daemon calls).run { loop := Loop.start entries, sink := sink } rounds = out at hcourse
  cases hcourse with
  | running goes reached => simp
  | stopped cut goes reached stops => simp
  | @died before after r s' cut goes reached why =>
    exfalso
    have hr : ∀ r' ∈ before ++ [r], r' ∈ rounds := by
      intro r' hr'
      rw [cut]
      rcases List.mem_append.1 hr' with hr' | hr'
      · exact List.mem_append_left _ hr'
      · rw [List.mem_singleton.1 hr']
        exact List.mem_append_right _ List.mem_cons_self
    have hmine := hbearable r (hr r (by simp))
    rcases why with hagent | htick | ⟨doc, hmade, hunprintable⟩
    · exact absurd hmine.identified (by simp [hagent])
    · have hall : ∀ t ∈ (before ++ [r]).map Round.tick, ∃ r' ∈ rounds, r'.tick = t := by
        intro t ht
        obtain ⟨r', hr', rfl⟩ := List.mem_map.1 ht
        exact ⟨r', hr r' hr', rfl⟩
      have halive := @isSome_run_of_early entries hfresh start ((before ++ [r]).map Round.tick)
        (fun t ht => by obtain ⟨r', hr', rfl⟩ := hall t ht; exact (hbearable r' hr').since)
        (fun t ht => by obtain ⟨r', hr', rfl⟩ := hall t ht; exact hearly r' hr')
        (fun t ht => by obtain ⟨r', hr', rfl⟩ := hall t ht; exact (hbearable r' hr').returns)
      rw [← loopMachine_run_fst, Machine.run_concat, reached.1] at halive
      rw [show (loopMachine.step (some s'.loop) r).1 = none from htick] at halive
      exact absurd halive (by simp)
    · have hjson : jsonable doc.toValue = true :=
        jsonable_document hmine.json (by rw [hmade]; exact List.mem_singleton_self _)
      obtain ⟨text, htext⟩ := Option.isSome_iff_exists.1 (isSome_dumps calls hjson)
      unfold unprintable at hunprintable
      cases hsink : s'.sink with
      | logOnly files queue => simp [hsink] at hunprintable
      | push d => simp [hsink, htext] at hunprintable
  | @raised before after r s' doc cut goes reached made why =>
    have hmem : r ∈ rounds := by rw [cut]; simp
    rw [sinkRaised_sinkStep (hbearable r hmem)] at why
    exact absurd why (by simp)

/-- **The agent that is started keeps running**: with options whose token file can be decoded,
`run_daemon` starts, and only a stop ends it. -/
theorem runDaemon_survives (calls : JsonCalls) {entries : List Entry}
    (hfresh : ∀ e ∈ entries, e.failures = 0) {options : List (Key × Value)} {files : Files}
    (htoken : (TransportClient.init options files).isSome = true)
    (queue : Option (DiskQueue Document)) {start : Time} {rounds : List Round}
    (hbearable : ∀ r ∈ rounds, r.Bearable start)
    (hearly : ∀ r ∈ rounds, r.tick.now < start + endurance) :
    ∃ out, runDaemon calls entries options files queue rounds = some out ∧
      out.1 ≠ .inr .died := by
  obtain ⟨client, hclient⟩ := Option.isSome_iff_exists.1 htoken
  obtain ⟨sink, hsink⟩ : ∃ sink, buildSink options files queue = some sink := by
    rw [buildSink, hclient]
    split <;> exact ⟨_, rfl⟩
  refine ⟨_, ?_, daemon_survives calls hfresh sink hbearable hearly⟩
  rw [runDaemon, hsink, Option.map_some]

/-! ## A daemon with one collector -/

/-- A host with a machine id. -/
def sampleHostFacts : HostFacts where
  sysPlatform := "linux"
  idFiles := [some (PyOs.bytesOf "0a1b\n"), none]
  machineGuid := none
  hostname := "box"
  osVersion := "Linux"
  arch := "x86_64"

/-- A turn in which the only collector comes back with a metric, and every post is
accepted. -/
def sampleRound : Round where
  stops := false
  tick :=
    { now := seconds 1, ts := 1, capableAt := seconds 1
      calls := fun _ => .returned (.dict [(.str "metrics", .dict [(.str "load", .int 3)])]) }
  host := sampleHostFacts
  env :=
    { call :=
        { payload := (), http := Stream'.const (.ofStatus 200 Status.ok.final)
          reply := .exception, now := 0, insertedAt := 0, trimmedAt := 0, workerDone := false }
      bad := Stream'.const false
      sqlite := Stream'.const .ok }

theorem returnsJson_sampleRound : sampleRound.ReturnsJson := by
  refine ⟨by decide +kernel, fun i v hv => ?_⟩
  obtain rfl := Collect.returned.inj hv
  decide +kernel

theorem bearable_sampleRound : sampleRound.Bearable 0 where
  since := ⟨Nat.zero_le _, fun i at_ h => absurd h (by simp [sampleRound])⟩
  returns i v hv := by
    obtain rfl := Collect.returned.inj hv
    decide +kernel
  json := returnsJson_sampleRound
  identified := by decide +kernel
  works _ _ _ := rfl
  readable _ := rfl
  storable reply h := absurd h (by simp [sampleRound])

/-- A daemon with a payload in its queue. -/
def sampleBacklogged : Running where
  loop := Loop.start [sampleEntry "load"]
  sink := .push
    { sampleDocumentDaemon with
      queue := some ⟨[⟨1, .number 0, sampleDocument⟩], 1, 100, 86400, List.pairwise_singleton _ _,
        by simp⟩ }

/-- It hands its payload to the sink. -/
theorem log_sampleBacklogged :
    ∃ doc, ((daemon sampleJsonCalls).run sampleBacklogged [sampleRound]).2 =
      (sinkStep sampleBacklogged.sink (sampleRound.call doc)).2 := by
  have hmade : (handedOn (some sampleBacklogged.loop) sampleRound).isEmpty = false := by
    decide +kernel
  have hhost := bearable_sampleRound.identified
  have hticked : (schedulerLoop.step (some sampleBacklogged.loop) sampleRound.tick).1.isSome =
      true := by decide +kernel
  have hspec := daemonStep_spec sampleJsonCalls sampleBacklogged sampleRound
  generalize hout : daemonStep sampleJsonCalls sampleBacklogged sampleRound = out at hspec
  cases hspec with
  | stopped stops => exact absurd stops (by decide)
  | quiet goes ticked nothing => exact absurd hmade (by simp [nothing])
  | @handed loop doc goes ticked made printable returned =>
    have hstep : (daemon sampleJsonCalls).step sampleBacklogged sampleRound = _ := hout
    refine ⟨doc, ?_⟩
    rw [Ending.run_cons_inl hstep, Ending.run_nil, List.append_nil]
  | collapsed goes due raised =>
    rcases raised with h | h
    · exact absurd hhost (by simp [h])
    · exact absurd hticked (by simp [h])
  | @unprintable doc goes made raised =>
    have hjson : jsonable doc.toValue = true :=
      jsonable_document returnsJson_sampleRound (by rw [made]; exact List.mem_singleton_self _)
    obtain ⟨text, htext⟩ := Option.isSome_iff_exists.1 (isSome_dumps sampleJsonCalls hjson)
    exact absurd raised (by simp [unprintable, sampleBacklogged, htext])
  | raised goes made printable raised =>
    rw [sinkRaised_sinkStep bearable_sampleRound] at raised
    exact absurd raised (by simp)

end OoAgent
