import OoAgent.Cli.Bodies
import OoAgent.Cli.Faults
import OoAgent.Core.HostInfo
import OoAgent.Lib.Pipeline

/-!
# The whole daemon

`run_daemon` runs the scheduler loop with the sink of `_build_sink` and a callback that may
stop it.  Nothing between the two catches anything: what leaves `run_once` or the sink ends
the process.

* `Round`, `daemonStep` — one turn of the loop, with everything it meets.
* `daemon` — the daemon, which may end.
* `conveyor`, `loopMachine`, `sinkSide` — the scheduler and the sink, one feeding the other,
  neither of which knows of an end.
* `daemon_is_pipeline` — **the daemon is the scheduler feeding the sink** up to the round that
  ends it.
-/

namespace OoAgent

/-! ## One turn of the loop -/

/-- What one turn of the loop meets. -/
structure Round where
  /-- `should_stop()` says so. -/
  stops : Bool
  tick : Tick
  host : HostFacts
  /-- What the outside world has in store for a call of the sink. -/
  env : FaultyCall Unit

/-- The call of the sink with a payload. -/
def Round.call (r : Round) (doc : Document) : FaultyCall Document where
  call :=
    { payload := doc
      http := r.env.call.http
      reply := r.env.call.reply
      now := r.env.call.now
      insertedAt := r.env.call.insertedAt
      trimmedAt := r.env.call.trimmedAt
      workerDone := r.env.call.workerDone }
  bad := r.env.bad
  sqlite := r.env.sqlite

/-- What the daemon does. -/
inductive DaemonEvent where
  /-- `log_sink` counted the metrics and sensors of a payload. -/
  | logged (metrics sensors : ℕ)
  /-- `push_sink` did this. -/
  | sink (e : Event Document)

/-- How the daemon ends. -/
inductive Ended where
  | stopped
  /-- An exception left the loop. -/
  | died
  deriving DecidableEq

/-- The loop and the sink of a running daemon. -/
structure Running where
  loop : Loop
  sink : Sink Document

/-- The payload a tick hands to the sink, if it does. -/
def payloadOf : List LoopEvent → Option PushPayload
  | .sunk payload :: _ => some payload
  | _ => none

/-- The event is an exception. -/
def isRaised : Event Document → Bool
  | .raised => true
  | _ => false

/-- A payload that reaches a client, which makes a text of it first, and cannot be made one. -/
def unprintable (calls : JsonCalls) (sink : Sink Document) (doc : Document) : Bool :=
  match sink with
  | .logOnly _ _ => false
  | .push d => d.reclaim.isNone && (dumps calls doc.toValue).isNone

/-- The sink is handed a payload. -/
def sinkStep (sink : Sink Document) (f : FaultyCall Document) :
    Sink Document × List DaemonEvent :=
  match sink with
  | .logOnly files queue =>
    let payload := f.call.payload.payload
    (.logOnly files queue, [.logged payload.metrics.length payload.sensors.length])
  | .push d =>
    match faultySink d f with
    | (.alive d', log) => (.push d', log.map .sink)
    -- nobody calls this sink again: the exception is in the log
    | (.dead file files, log) => (.push { d with queue := file, files := files }, log.map .sink)

/-- The sink ended in an exception. -/
def sinkRaised (events : List DaemonEvent) : Bool :=
  events.any fun e =>
    match e with
    | .sink e => isRaised e
    | .logged _ _ => false

/-- What is assembled goes to the sink, when there is something to show. -/
def handTo (calls : JsonCalls) (loop : Loop) (sink : Sink Document) (r : Round) :
    Option Document → (Running ⊕ Ended) × List DaemonEvent
  | none => (.inl { loop := loop, sink := sink }, [])
  | some doc =>
    if unprintable calls sink doc then (.inr .died, [])
    else if sinkRaised (sinkStep sink (r.call doc)).2 then
      (.inr .died, (sinkStep sink (r.call doc)).2)
    else
      (.inl { loop := loop, sink := (sinkStep sink (r.call doc)).1 },
        (sinkStep sink (r.call doc)).2)

/-- One turn of `run_forever`, with the sink. -/
def daemonStep (calls : JsonCalls) (s : Running) (r : Round) :
    (Running ⊕ Ended) × List DaemonEvent :=
  if r.stops then (.inr .stopped, [])
  else if (s.loop.entries.filter (s.loop.due r.tick.now)).isEmpty then (.inl s, [])
  else
    match agentInfo r.host, s.loop.tick r.tick with
    | some agent, (some loop, events) =>
      handTo calls loop s.sink r ((payloadOf events).map (Document.mk agent))
    | _, _ => (.inr .died, [])

/-- `run_forever` with a sink. -/
def daemon (calls : JsonCalls) : Ending Running Round Ended DaemonEvent := ⟨daemonStep calls⟩

/-- `run_daemon`, on the entries that were discovered, the transport options, the files and
what opening the queue gives; `none` when the sink cannot be built. -/
def runDaemon (calls : JsonCalls) (entries : List Entry) (options : List (Key × Value))
    (files : Files) (queue : Option (DiskQueue Document)) (rounds : List Round) :
    Option ((Running ⊕ Ended) × List DaemonEvent) :=
  (buildSink options files queue).map fun sink =>
    (daemon calls).run { loop := Loop.start entries, sink := sink } rounds

/-! ## The scheduler and the sink -/

/-- The payloads the scheduler hands on in a turn. -/
def handedOn (s : Option Loop) (r : Round) : List Document :=
  match agentInfo r.host with
  | none => []
  | some agent =>
    ((payloadOf (schedulerLoop.step s r.tick).2).map (Document.mk agent)).toList

/-- The scheduler loop, over the same turns. -/
def loopMachine : Machine (Option Loop) Round Document where
  step s r := ((schedulerLoop.step s r.tick).1, handedOn s r)

/-- The sink, over the calls it gets. -/
def sinkSide : Machine (Sink Document) (FaultyCall Document) DaemonEvent := ⟨sinkStep⟩

/-- The scheduler, feeding the sink. -/
def conveyor : Machine (Option Loop × Sink Document) Round DaemonEvent :=
  loopMachine.cascade sinkSide Round.call

/-! ## Everything one turn can do -/

/-- Everything one turn can do. -/
inductive Turned (calls : JsonCalls) (s : Running) (r : Round) :
    (Running ⊕ Ended) × List DaemonEvent → Prop
  | stopped (stops : r.stops = true) : Turned calls s r (.inr .stopped, [])
  /-- Nothing was due, or nothing came in. -/
  | quiet {loop : Loop} (goes : r.stops = false)
      (ticked : (schedulerLoop.step (some s.loop) r.tick).1 = some loop)
      (nothing : handedOn (some s.loop) r = []) :
      Turned calls s r (.inl { s with loop := loop }, [])
  /-- The sink was handed a payload, and returned. -/
  | handed {loop : Loop} {doc : Document} (goes : r.stops = false)
      (ticked : (schedulerLoop.step (some s.loop) r.tick).1 = some loop)
      (made : handedOn (some s.loop) r = [doc])
      (printable : unprintable calls s.sink doc = false)
      (returned : sinkRaised (sinkStep s.sink (r.call doc)).2 = false) :
      Turned calls s r
        (.inl { loop := loop, sink := (sinkStep s.sink (r.call doc)).1 },
          (sinkStep s.sink (r.call doc)).2)
  /-- Something was due, and no payload came of it. -/
  | collapsed (goes : r.stops = false)
      (due : (s.loop.entries.filter (s.loop.due r.tick.now)).isEmpty = false)
      (raised : agentInfo r.host = none ∨ (schedulerLoop.step (some s.loop) r.tick).1 = none) :
      Turned calls s r (.inr .died, [])
  /-- The payload could not be made a text. -/
  | unprintable {doc : Document} (goes : r.stops = false)
      (made : handedOn (some s.loop) r = [doc])
      (raised : unprintable calls s.sink doc = true) : Turned calls s r (.inr .died, [])
  /-- The sink was handed a payload, and raised. -/
  | raised {doc : Document} (goes : r.stops = false)
      (made : handedOn (some s.loop) r = [doc])
      (printable : unprintable calls s.sink doc = false)
      (raised : sinkRaised (sinkStep s.sink (r.call doc)).2 = true) :
      Turned calls s r (.inr .died, (sinkStep s.sink (r.call doc)).2)

/-- **Everything one turn can do.** -/
theorem daemonStep_spec (calls : JsonCalls) (s : Running) (r : Round) :
    Turned calls s r (daemonStep calls s r) := by
  have hstep : schedulerLoop.step (some s.loop) r.tick = s.loop.tick r.tick := rfl
  unfold daemonStep
  cases hstops : r.stops with
  | true => exact .stopped hstops
  | false =>
    rw [if_neg (by simp)]
    cases hdue : (s.loop.entries.filter (s.loop.due r.tick.now)).isEmpty with
    | true =>
      have hidle : s.loop.tick r.tick = (some s.loop, []) := if_pos hdue
      rw [if_pos rfl]
      refine .quiet hstops (by rw [hstep, hidle]) ?_
      unfold handedOn
      rw [hstep, hidle]
      cases agentInfo r.host <;> rfl
    | false =>
      rw [if_neg (by simp)]
      cases hagent : agentInfo r.host with
      | none => exact .collapsed hstops hdue (.inl hagent)
      | some agent =>
        generalize htick : s.loop.tick r.tick = out
        obtain ⟨next, events⟩ := out
        have hmade : handedOn (some s.loop) r =
            ((payloadOf events).map (Document.mk agent)).toList := by
          rw [handedOn, hagent, hstep, htick]
        cases next with
        | none => exact .collapsed hstops hdue (.inr (by rw [hstep, htick]))
        | some loop =>
          have hnext : (schedulerLoop.step (some s.loop) r.tick).1 = some loop := by
            rw [hstep, htick]
          show Turned calls s r
            (handTo calls loop s.sink r ((payloadOf events).map (Document.mk agent)))
          cases hdoc : (payloadOf events).map (Document.mk agent) with
          | none =>
            rw [hdoc] at hmade
            exact .quiet hstops hnext hmade
          | some doc =>
            rw [hdoc] at hmade
            rw [handTo]
            split
            · rename_i hprint
              exact .unprintable hstops hmade hprint
            · rename_i hprint
              rw [Bool.not_eq_true] at hprint
              split
              · rename_i hraised
                exact .raised hstops hmade hprint hraised
              · rename_i hraised
                rw [Bool.not_eq_true] at hraised
                exact .handed hstops hnext hmade hprint hraised

/-! ## The daemon as a pipeline -/

theorem conveyor_step (l : Option Loop) (sink : Sink Document) (r : Round) :
    conveyor.step (l, sink) r =
      (((schedulerLoop.step l r.tick).1, (sinkSide.run sink ((handedOn l r).map r.call)).1),
        (sinkSide.run sink ((handedOn l r).map r.call)).2) := rfl

/-- As long as the daemon runs, it is the scheduler feeding the sink. -/
theorem daemon_follows (calls : JsonCalls) :
    (daemon calls).Follows conveyor fun s => (some s.loop, s.sink) := by
  intro s r s' log h
  have hspec := daemonStep_spec calls s r
  rw [show daemonStep calls s r = (.inl s', log) from h] at hspec
  rw [conveyor_step]
  cases hspec with
  | quiet goes ticked nothing =>
    rw [ticked, nothing]
    rfl
  | handed goes ticked made printable returned =>
    rw [ticked, made, List.map_singleton, Machine.run_singleton]
    rfl

/-- What the scheduler and the sink come to after some turns. -/
def Reaches (s : Running) (rounds : List Round) (s' : Running) : Prop :=
  (loopMachine.run (some s.loop) rounds).1 = some s'.loop ∧
    (sinkSide.run s.sink (loopMachine.fed Round.call (some s.loop) rounds)).1 = s'.sink

/-- What the sink does when it is handed all that the scheduler makes in some turns. -/
def sinkLog (s : Running) (rounds : List Round) : List DaemonEvent :=
  (sinkSide.run s.sink (loopMachine.fed Round.call (some s.loop) rounds)).2

/-- How a run of the daemon goes. -/
inductive Course (calls : JsonCalls) (s : Running) (rounds : List Round) :
    (Running ⊕ Ended) × List DaemonEvent → Prop
  | running {s' : Running} (goes : ∀ r ∈ rounds, r.stops = false) (reached : Reaches s rounds s') :
      Course calls s rounds (.inl s', sinkLog s rounds)
  | stopped {before after : List Round} {r : Round} {s' : Running}
      (cut : rounds = before ++ r :: after) (goes : ∀ r ∈ before, r.stops = false)
      (reached : Reaches s before s') (stops : r.stops = true) :
      Course calls s rounds (.inr .stopped, sinkLog s before)
  /-- Nothing could be assembled, or what was assembled could not be made a text. -/
  | died {before after : List Round} {r : Round} {s' : Running}
      (cut : rounds = before ++ r :: after) (goes : ∀ r ∈ before, r.stops = false)
      (reached : Reaches s before s')
      (why : agentInfo r.host = none ∨ (s'.loop.tick r.tick).1 = none ∨
        ∃ doc, handedOn (some s'.loop) r = [doc] ∧ unprintable calls s'.sink doc = true) :
      Course calls s rounds (.inr .died, sinkLog s before)
  /-- The sink raised on the last payload it was handed. -/
  | raised {before after : List Round} {r : Round} {s' : Running} {doc : Document}
      (cut : rounds = before ++ r :: after) (goes : ∀ r' ∈ before ++ [r], r'.stops = false)
      (reached : Reaches s before s') (made : handedOn (some s'.loop) r = [doc])
      (why : sinkRaised (sinkStep s'.sink (r.call doc)).2 = true) :
      Course calls s rounds (.inr .died, sinkLog s (before ++ [r]))

/-- A daemon that is still running has not been stopped. -/
theorem goes_of_running {calls : JsonCalls} {s s' : Running} {rounds : List Round}
    {log : List DaemonEvent} (h : (daemon calls).run s rounds = (.inl s', log)) :
    ∀ r ∈ rounds, r.stops = false := by
  induction rounds generalizing s log with
  | nil => exact fun r hr => absurd hr List.not_mem_nil
  | cons r rounds ih =>
    have hspec := daemonStep_spec calls s r
    generalize hout : daemonStep calls s r = out at hspec
    obtain ⟨next, events⟩ := out
    cases next with
    | inr e =>
      rw [Ending.run_cons_inr (E := daemon calls) hout] at h
      exact absurd (Prod.mk.inj h).1 (by simp)
    | inl t =>
      rw [Ending.run_cons_inl (E := daemon calls) hout] at h
      have hgoes : r.stops = false := by cases hspec <;> assumption
      exact List.forall_mem_cons.2 ⟨hgoes, ih (Prod.ext (Prod.mk.inj h).1 rfl)⟩

/-- A turn in which the sink is handed a payload, behind the turns before it. -/
theorem sinkLog_concat {s s' : Running} {before : List Round} {r : Round} {doc : Document}
    (hreached : Reaches s before s') (hmade : handedOn (some s'.loop) r = [doc]) :
    sinkLog s (before ++ [r]) = sinkLog s before ++ (sinkStep s'.sink (r.call doc)).2 := by
  have hfed : loopMachine.fed Round.call (some s.loop) (before ++ [r]) =
      loopMachine.fed Round.call (some s.loop) before ++ [r.call doc] := by
    rw [Machine.fed_append, hreached.1, Machine.fed_cons]
    show _ ++ ((handedOn (some s'.loop) r).map r.call ++ _) = _
    rw [hmade]
    rfl
  rw [sinkLog, hfed, Machine.run_append, hreached.2, Machine.run_singleton]
  rfl

/-- **The daemon is the scheduler feeding the sink**, up to the turn that ends it. -/
theorem daemon_is_pipeline (calls : JsonCalls) (s : Running) (rounds : List Round) :
    Course calls s rounds ((daemon calls).run s rounds) := by
  have hrun (before : List Round) := Machine.run_cascade loopMachine sinkSide Round.call
    (some s.loop) s.sink before
  have hlog (before : List Round) : (conveyor.run (some s.loop, s.sink) before).2 =
      sinkLog s before := congrArg Prod.snd (hrun before)
  have hreach {before : List Round} {s' : Running}
      (hstate : (some s'.loop, s'.sink) = (conveyor.run (some s.loop, s.sink) before).1) :
      Reaches s before s' := by
    rw [show (conveyor.run (some s.loop, s.sink) before).1 = _ from congrArg Prod.fst (hrun before)]
      at hstate
    exact ⟨(Prod.mk.inj hstate).1.symm, (Prod.mk.inj hstate).2.symm⟩
  cases Ending.run_cut (daemon_follows calls) s rounds with
  | whole s' hwhole hstate =>
    rw [hlog] at hwhole
    rw [hwhole]
    exact .running (goes_of_running hwhole) (hreach hstate)
  | ended before after r s' e last hcut hbefore hstate hstep hended =>
    rw [hlog] at hended
    rw [hended]
    have hgoes := goes_of_running hbefore
    have hreached := hreach hstate
    have hspec := daemonStep_spec calls s' r
    rw [show daemonStep calls s' r = (.inr e, last) from hstep] at hspec
    cases hspec with
    | stopped stops =>
      rw [List.append_nil]
      exact .stopped hcut hgoes hreached stops
    | collapsed goes due raised =>
      rw [List.append_nil]
      exact .died hcut hgoes hreached (raised.imp_right .inl)
    | unprintable goes made raised =>
      rw [List.append_nil]
      exact .died hcut hgoes hreached (.inr (.inr ⟨_, made, raised⟩))
    | raised goes made printable raised =>
      rw [← sinkLog_concat hreached made]
      refine .raised hcut (fun r' hr' => ?_) hreached made raised
      rcases List.mem_append.1 hr' with hr' | hr'
      · exact hgoes r' hr'
      · rw [List.mem_singleton.1 hr']
        exact goes

end OoAgent
