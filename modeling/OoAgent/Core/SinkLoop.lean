import OoAgent.Core.Delivery
import OoAgent.Core.HostInfo
import OoAgent.Python.Jsonable

/-!
# The loop and its sink

`run_forever` hands what a tick assembled to the sink, and a sink that pushes makes a text of it
first.  `json.dumps` raises for what is no JSON, such as a set under a metric, and nothing between
it and the loop catches that: what a collector returns can end the agent after the merge as well
as in it.

* `Document` — the whole payload of a tick, with its `agent` block.
* `Dumpable` — what the collectors returned can be made a text; `dumpable_document_iff` — and
  with it the payload.
* `sinkLoop` — `run_forever` with a sink.
* `collector_isolation_iff` — **isolation**, of one run and of whole runs of the daemon loop,
  exactly when every behaviour met is harmless and can be made a text where that is asked for.
-/

namespace OoAgent

/-! ## The whole payload -/

/-- What `run_once` returns. -/
structure Document where
  /-- `agent_info()`. -/
  agent : Value
  payload : PushPayload

/-- The payload as the dictionary it is; without items there is no inventory. -/
def Document.toValue (doc : Document) : Value :=
  .dict <|
    [(.str "agent", doc.agent), (.str "ts", .int doc.payload.ts),
      (.str "metrics", .dict (doc.payload.metrics.map fun item => (.str item.1, item.2))),
      (.str "sensors", .list doc.payload.sensors)] ++
    (doc.payload.inventory.toList.map fun items => (.str "inventory", .dict items)) ++
    [(.str "capabilities", .list (doc.payload.capabilities.map Value.str))]

section

variable (calls : JsonCalls) {levels : ℕ}

/-- `json.dumps` gets through a string. -/
theorem dumpable_str (levels : ℕ) (s : String) : dumpable calls levels (.str s) = true :=
  dumpable_iff.2 ⟨rfl, Nat.zero_le _⟩

theorem dumpable_agentInfo {host : HostFacts} {agent : Value} (h : agentInfo host = some agent) :
    dumpable calls (levels + 1) agent = true := by
  obtain ⟨fingerprint, -, rfl⟩ := Option.map_eq_some_iff.1 h
  rw [dumpable_dict_iff]
  simp only [List.forall_mem_cons, List.not_mem_nil, false_implies, implies_true, and_true]
  exact ⟨⟨rfl, dumpable_str _ _ _⟩, ⟨rfl, dumpable_str _ _ _⟩, ⟨rfl, dumpable_str _ _ _⟩,
    ⟨rfl, dumpable_str _ _ _⟩, ⟨rfl, dumpable_str _ _ _⟩, rfl, dumpable_str _ _ _⟩

/-- The parts of a payload decide whether `json.dumps` gets through it. -/
theorem dumpable_toValue {doc : Document} (hagent : dumpable calls (levels + 1) doc.agent = true)
    (hts : convertible doc.payload.ts = true) :
    dumpable calls (levels + 2) doc.toValue = true ↔
      (∀ item ∈ doc.payload.metrics, dumpable calls levels item.2 = true) ∧
        (∀ sensor ∈ doc.payload.sensors, dumpable calls levels sensor = true) ∧
        ∀ items, doc.payload.inventory = some items → ∀ item ∈ items,
          (keyText calls item.1).isSome = true ∧ dumpable calls levels item.2 = true := by
  obtain ⟨agent, ts, metrics, sensors, inventory, capabilities⟩ := doc
  have hclock : dumpable calls (levels + 1) (.int ts) = true :=
    dumpable_iff.2 ⟨by rw [toJson, if_pos hts]; rfl, Nat.zero_le _⟩
  have hcapabilities : dumpable calls (levels + 1) (.list (capabilities.map Value.str)) = true := by
    rw [dumpable_list_iff]
    intro v hv
    obtain ⟨s, -, rfl⟩ := List.mem_map.1 hv
    exact dumpable_str _ _ _
  have hmetrics : dumpable calls (levels + 1)
      (.dict (metrics.map fun item => ((.str item.1 : Key), item.2))) = true ↔
        ∀ item ∈ metrics, dumpable calls levels item.2 = true := by
    rw [dumpable_dict_iff, List.forall_mem_map]
    exact forall₂_congr fun item _ => and_iff_right rfl
  unfold Document.toValue
  rw [dumpable_dict_iff]
  cases inventory with
  | none =>
    simp only [Option.toList_none, List.map_nil, List.append_nil, List.cons_append,
      List.nil_append, List.forall_mem_cons, List.not_mem_nil, false_implies, implies_true,
      hmetrics, dumpable_list_iff, keyText_str, Option.isSome_some, true_and, and_true,
      reduceCtorEq]
    simp only [dumpable_list_iff] at hcapabilities
    exact ⟨fun h => ⟨h.2.2.1, h.2.2.2.1⟩, fun h => ⟨hagent, hclock, h.1, h.2, hcapabilities⟩⟩
  | some items =>
    simp only [Option.toList_some, List.map_cons, List.map_nil, List.cons_append,
      List.nil_append, List.forall_mem_cons, List.not_mem_nil, false_implies, implies_true,
      hmetrics, dumpable_list_iff, dumpable_dict_iff, keyText_str, Option.isSome_some, true_and,
      and_true, Option.some.injEq, forall_eq']
    simp only [dumpable_list_iff] at hcapabilities
    exact ⟨fun h => ⟨h.2.2.1, h.2.2.2.1, h.2.2.2.2.1⟩,
      fun h => ⟨hagent, hclock, h.1, h.2.1, h.2.2, hcapabilities⟩⟩

end

/-! ## What the collectors return -/

/-- `json.dumps` gets through what the collectors of a tick returned, with so many levels of
nesting left in each channel: the value last written under every metric, every sensor, and the
inventory the items make together. -/
structure Dumpable (calls : JsonCalls) (levels : ℕ) (jobs : List Job) : Prop where
  metrics : ∀ item ∈ Dict.update [] (jobs.flatMap Job.writes),
    dumpable calls levels item.2 = true
  sensors : ∀ sensor ∈ jobs.flatMap Job.sensors, dumpable calls levels sensor = true
  inventory : ∀ item ∈ (jobs.flatMap Job.inventory).foldl mergeInventory [],
    (keyText calls item.1).isSome = true ∧ dumpable calls levels item.2 = true

/-- **A payload can be made a text** exactly when what the collectors returned can. -/
theorem dumpable_document_iff {calls : JsonCalls} {levels : ℕ} {host : HostFacts} {agent : Value}
    (hagent : agentInfo host = some agent) {ts : Int} (hts : convertible ts = true) {now : Time}
    {jobs : List Job} {p : PushPayload} (h : (runOnce ts now jobs).2 = some p) :
    dumpable calls (levels + 2) (Document.mk agent p).toValue = true ↔
      Dumpable calls levels jobs := by
  have hclock : p.ts = ts := by
    obtain ⟨a, -, rfl⟩ := Option.map_eq_some_iff.1 h
    rfl
  have hinventory : (∀ items, p.inventory = some items → ∀ item ∈ items,
      (keyText calls item.1).isSome = true ∧ dumpable calls levels item.2 = true) ↔
        ∀ item ∈ (jobs.flatMap Job.inventory).foldl mergeInventory [],
          (keyText calls item.1).isSome = true ∧ dumpable calls levels item.2 = true := by
    rw [inventory_runOnce h]
    split
    · rename_i hnil
      rw [hnil]
      exact iff_of_true (fun items hitems => absurd hitems (by simp))
        fun item hitem => absurd hitem List.not_mem_nil
    · simp only [Option.some.injEq, forall_eq']
  rw [dumpable_toValue calls (dumpable_agentInfo calls hagent) (hclock ▸ hts)]
  simp only [metrics_runOnce h, sensors_runOnce h, hinventory]
  exact ⟨fun ⟨hm, hs, hi⟩ => ⟨hm, hs, hi⟩, fun ⟨hm, hs, hi⟩ => ⟨hm, hs, hi⟩⟩

/-! ## The loop with a sink -/

/-- A tick, on a host whose `agent_info` returns and whose clock shows a number `str` converts,
and what the sink does with the payload. -/
structure SinkTick where
  tick : Tick
  host : HostFacts
  /-- The sink makes a text of the payload: `push_sink` does while it holds a token, `log_sink` and
  the re-claim flow do not. -/
  pushes : Bool
  known : (agentInfo host).isSome = true
  clock : convertible tick.ts = true

/-- The `agent` block of the payload. -/
def SinkTick.agent (t : SinkTick) : Value := (agentInfo t.host).get t.known

/-- The sink raises over the payload it is handed. -/
def SinkTick.refuses (calls : JsonCalls) (levels : ℕ) (t : SinkTick) (events : List LoopEvent) :
    Bool :=
  t.pushes && events.any fun e =>
    match e with
    | .sunk payload => !dumpable calls (levels + 2) (Document.mk t.agent payload).toValue
    | .died => false

/-- `run_forever` with a sink.  Of the levels of nesting that `json.dumps` gets through, `levels`
are left below the channels of a payload. -/
def sinkLoop (calls : JsonCalls) (levels : ℕ) : Machine (Option Loop) SinkTick LoopEvent where
  step s t :=
    let out := schedulerLoop.step s t.tick
    if t.refuses calls levels out.2 then (none, [.died]) else out

/-- Every collector that is due at a tick is harmless, and where the sink makes a text of the
payload, what they returned can be made one. -/
def Survivable (calls : JsonCalls) (levels : ℕ) (s : Option Loop) (t : SinkTick) : Prop :=
  HarmlessTick s t.tick ∧ ∀ l, s = some l → t.pushes = true → Shows (l.jobs t.tick) →
    Dumpable calls levels (l.jobs t.tick)

/-- The loop is still running after the ticks, and every one of them was isolated. -/
def LoopIsolated (calls : JsonCalls) (levels : ℕ) (l : Loop) (ticks : List SinkTick) : Prop :=
  ((sinkLoop calls levels).run (some l) ticks).1.isSome = true ∧
    (sinkLoop calls levels).Along (fun s t => ∀ l, s = some l → Isolated (l.jobs t.tick)) (some l)
      ticks

section

variable {calls : JsonCalls} {levels : ℕ}

/-- What is handed to the sink at a tick. -/
theorem sunk_mem_tick {l : Loop} {t : Tick} {p : PushPayload} :
    .sunk p ∈ (l.tick t).2 ↔
      (runOnce t.ts t.capableAt (l.jobs t)).2 = some p ∧ Shows (l.jobs t) := by
  by_cases hruns : ∃ j ∈ l.jobs t, j.runs = true
  · rw [← tick_eq_sunk hruns]
    constructor
    · intro hmem
      have hone : (l.tick t).2.length ≤ 1 := by
        unfold Loop.tick
        split
        · exact Nat.zero_le _
        · split
          · exact Nat.le_refl _
          · split <;> simp
      obtain ⟨e, hlog⟩ := List.length_eq_one_iff.1
        (Nat.le_antisymm hone (List.length_pos_of_mem hmem))
      rw [hlog] at hmem ⊢
      rw [List.mem_singleton.1 hmem]
    · intro hlog
      rw [hlog]
      exact List.mem_singleton_self _
  · -- nothing is due: no job runs, and none has anything to show
    push Not at hruns
    have hnone : (l.entries.filter (l.due t.now)).isEmpty = true := by
      rw [List.isEmpty_iff, List.filter_eq_nil_iff]
      intro e he hdue
      obtain ⟨i, hi, rfl⟩ := List.getElem_of_mem he
      have hactive : (l.entries[i]).disabled = false := by
        have hboth := hdue
        simp only [Loop.due, Bool.and_eq_true, Bool.not_eq_true'] at hboth
        exact hboth.1
      refine hruns _ (List.mem_mapIdx.2 ⟨i, hi, rfl⟩) ?_
      simp [Job.runs, hactive, hdue]
    refine iff_of_false (by simp [Loop.tick, hnone]) ?_
    rintro ⟨-, j, hj, hshows⟩
    have hpayload : j.payload = none := by
      unfold Job.payload
      split
      · rename_i h _
        exact absurd h (hruns j hj)
      · rfl
    rw [Job.writes_eq, Job.inventory, hpayload] at hshows
    exact hshows.elim (fun h => h rfl) fun h => h rfl

/-- **A tick leaves the loop running** exactly when the collectors and the sink do. -/
theorem isSome_sinkLoop (l : Loop) (t : SinkTick) :
    ((sinkLoop calls levels).step (some l) t).1.isSome = true ↔
      Survivable calls levels (some l) t := by
  have hagent : agentInfo t.host = some t.agent := (Option.some_get t.known).symm
  have hrefuses : t.refuses calls levels (l.tick t.tick).2 = true ↔
      t.pushes = true ∧ ∃ p, (runOnce t.tick.ts t.tick.capableAt (l.jobs t.tick)).2 = some p ∧
        Shows (l.jobs t.tick) ∧ ¬ Dumpable calls levels (l.jobs t.tick) := by
    rw [SinkTick.refuses, Bool.and_eq_true, List.any_eq_true]
    refine and_congr_right fun _ => ⟨?_, ?_⟩
    · rintro ⟨e, he, hnot⟩
      cases e with
      | died => exact absurd hnot (by simp)
      | sunk p =>
        obtain ⟨hp, hshows⟩ := sunk_mem_tick.1 he
        refine ⟨p, hp, hshows, fun hdumpable => ?_⟩
        have hdumps := (dumpable_document_iff hagent t.clock hp).2 hdumpable
        exact absurd hnot (by simp [hdumps])
    · rintro ⟨p, hp, hshows, hnot⟩
      refine ⟨.sunk p, sunk_mem_tick.2 ⟨hp, hshows⟩, ?_⟩
      rw [← dumpable_document_iff hagent t.clock hp] at hnot
      simpa using hnot
  have hstep : (sinkLoop calls levels).step (some l) t =
      if t.refuses calls levels (l.tick t.tick).2 then (none, [.died]) else l.tick t.tick := rfl
  rw [hstep]
  split
  · rename_i hrefused
    obtain ⟨hpushes, p, hp, hshows, hnot⟩ := hrefuses.1 hrefused
    exact iff_of_false (by simp) fun h => hnot (h.2 l rfl hpushes hshows)
  · rename_i hreturned
    rw [isSome_tick]
    refine ⟨fun hharmless => ⟨hharmless, ?_⟩, And.left⟩
    rintro l' hl hpushes hshows
    obtain rfl := Option.some.inj hl
    by_contra hnot
    obtain ⟨p, hp⟩ := harmlessTick_iff.1 hharmless
    exact hreturned (hrefuses.2 ⟨hpushes, p, hp, hshows, hnot⟩)

/-- **The daemon loop survives exactly the ticks that are survivable.** -/
theorem loopIsolated_iff (l : Loop) (ticks : List SinkTick) :
    LoopIsolated calls levels l ticks ↔
      (sinkLoop calls levels).Along (Survivable calls levels) (some l) ticks := by
  have hdead (t : SinkTick) : (sinkLoop calls levels).step none t = (none, []) := by
    show (if t.refuses calls levels [] then (none, [LoopEvent.died]) else (none, [])) = _
    rw [if_neg (by simp [SinkTick.refuses])]
  have hsink (l : Loop) (t : SinkTick) : ((sinkLoop calls levels).step (some l) t).1.isSome = true ↔
      Survivable calls levels (some l) t := isSome_sinkLoop l t
  have hrun := Machine.isSome_run_iff hdead hsink l ticks
  rw [LoopIsolated, hrun]
  refine and_iff_left_of_imp fun hsurvivable => ?_
  rw [Machine.along_iff] at hsurvivable ⊢
  rintro before t after hsplit l' hl'
  rw [isolated_iff]
  exact (hsurvivable before t after hsplit).1 l' hl'

end

end OoAgent
