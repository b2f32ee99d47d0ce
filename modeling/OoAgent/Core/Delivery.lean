import OoAgent.Core.Mirror

/-!
# What reaches the sink

The docstring of `run_forever` promises the sink "one assembled payload per base tick during
which at least one collector ran".  The loop asks the payload for metrics or an inventory
first, and a tick on which nothing but unmirrored sensors came in, such as fan duties in
percent, has neither.

* `inventory_runOnce` — the inventory of a run is what its payloads merge to.
* `covers_foldl` — nothing of an inventory is lost unless two values of a key exclude each
  other.
* `everything_sunk_iff` — **everything collected reaches the sink** exactly on the ticks
  where something shows and nothing is overwritten.
-/

namespace OoAgent

/-! ## The inventory of a run -/

/-- The items of the inventory of a payload. -/
def inventoryOf : Value → List (Key × Value)
  | .dict fields => (itemsOf (Value.getD fields "inventory" .none)).getD []
  | _ => []

/-- The inventory of one job. -/
def Job.inventory (j : Job) : List (Key × Value) := (j.payload.map inventoryOf).getD []

/-- What is under a key once one more value is merged. -/
def joined : Option Value → Value → Value
  | some (.list existing), .list value => .list (existing ++ value)
  | _, value => value

theorem mergeInventory_eq (d : Dict Key Value) (item : Key × Value) :
    mergeInventory d item = d.set item.1 (joined (d.get item.1) item.2) := by
  unfold mergeInventory joined
  cases d.get item.1 with
  | none => rfl
  | some old =>
    cases old with
    | list existing => cases item.2 <;> rfl
    | _ => rfl

theorem get_mergeInventory (d : Dict Key Value) (item : Key × Value) (k : Key) :
    (mergeInventory d item).get k =
      if item.1 = k then some (joined (d.get k) item.2) else d.get k := by
  rw [mergeInventory_eq, Dict.get_set]
  split
  · rename_i hk
    rw [hk]
  · rfl

theorem inventory_merge {pre : String} {a a' : Assembled} {payload : Value}
    (h : merge pre a payload = some a') :
    a'.inventory = (inventoryOf payload).foldl mergeInventory a.inventory := by
  cases payload with
  | dict fields =>
    simp only [merge, bind, pure, Option.bind_eq_some_iff] at h
    obtain ⟨items, -, written, -, elements, -, b, hsensors, inventory, hinventory, h⟩ := h
    have hframe := (mergeSensors_eq hsensors).2
    rw [← Option.some.inj h, inventoryOf, hinventory, Option.getD_some]
    exact congrArg (fun d => inventory.foldl mergeInventory d) hframe
  | _ => exact absurd h (by simp [merge])

theorem foldl_mergeInventory_eq_nil {items : List (Key × Value)} :
    items.foldl mergeInventory [] = [] ↔ items = [] := by
  induction items using List.reverseRecOn with
  | nil => simp
  | append_singleton items item =>
    rw [List.foldl_append, List.foldl_cons, List.foldl_nil, mergeInventory_eq]
    simp [Dict.set_ne_nil]

/-- **The inventory of a run** is what its payloads merge to. -/
theorem inventory_runOnce {ts : Int} {now : Time} {jobs : List Job} {p : PushPayload}
    (h : (runOnce ts now jobs).2 = some p) :
    p.inventory = if jobs.flatMap Job.inventory = [] then none
      else some ((jobs.flatMap Job.inventory).foldl mergeInventory []) := by
  simp only [runOnce, Option.map_eq_some_iff] at h
  obtain ⟨a, ha, rfl⟩ := h
  have hfold := @channel_runJobs _ Assembled.inventory
    (fun d j => j.inventory.foldl mergeInventory d)
    (fun hpayload hb => by rw [inventory_merge hb, Job.inventory, hpayload]; rfl)
    (fun d hpayload => by rw [Job.inventory, hpayload]; rfl) _ _ _ ha
  have hinventory : a.inventory = (jobs.flatMap Job.inventory).foldl mergeInventory [] := by
    rw [hfold, List.foldl_flatMap]
    rfl
  simp only [assemble, List.isEmpty_iff, hinventory, foldl_mergeInventory_eq_nil]

/-! ## What the inventory keeps -/

/-- A list. -/
def isList : Value → Bool
  | .list _ => true
  | _ => false

/-- The stored value has all of a value in it: a list as a stretch, anything else as it
is. -/
def Covers (stored : Value) : Value → Prop
  | .list items => ∃ all, stored = .list all ∧ items <:+: all
  | value => stored = value

/-- Two values of a key that can both be kept: two lists, or the same value twice. -/
def Compatible (v v' : Value) : Prop := (isList v = true ∧ isList v' = true) ∨ v = v'

theorem covers_iff_of_not_list {stored value : Value} (h : isList value = false) :
    Covers stored value ↔ stored = value := by
  cases value with
  | list items => exact absurd h (by simp [isList])
  | _ => exact Iff.rfl

theorem exists_list {v : Value} (h : isList v = true) : ∃ items, v = .list items := by
  cases v with
  | list items => exact ⟨items, rfl⟩
  | _ => exact absurd h (by simp [isList])

/-- What covers two values shows that they are compatible. -/
theorem compatible_of_covers {stored v v' : Value} (h : Covers stored v) (h' : Covers stored v') :
    Compatible v v' := by
  cases hv : isList v with
  | true =>
    cases hv' : isList v' with
    | true => exact .inl ⟨hv, hv'⟩
    | false =>
      obtain ⟨items, rfl⟩ := exists_list hv
      obtain ⟨all, rfl, -⟩ := h
      rw [covers_iff_of_not_list hv'] at h'
      rw [← h'] at hv'
      exact absurd hv' (by simp [isList])
  | false =>
    rw [covers_iff_of_not_list hv] at h
    subst h
    cases hv' : isList v' with
    | true =>
      obtain ⟨items, rfl⟩ := exists_list hv'
      obtain ⟨all, rfl, -⟩ := h'
      exact absurd hv (by simp [isList])
    | false => exact .inr ((covers_iff_of_not_list hv').1 h')

/-- A value that was merged last is kept. -/
theorem covers_joined_self (old : Option Value) (v : Value) : Covers (joined old v) v := by
  cases v with
  | list items =>
    cases old with
    | none => exact ⟨items, rfl, List.infix_rfl⟩
    | some old =>
      cases old with
      | list existing => exact ⟨existing ++ items, rfl, (List.suffix_append _ _).isInfix⟩
      | _ => exact ⟨items, rfl, List.infix_rfl⟩
  | _ => cases old with
    | none => rfl
    | some old => cases old <;> rfl

/-- What was kept still is when something compatible comes after it. -/
theorem covers_joined {stored v v' : Value} (h : Covers stored v) (hv : Compatible v v') :
    Covers (joined (some stored) v') v := by
  rcases hv with ⟨hlist, hlist'⟩ | rfl
  · obtain ⟨items, rfl⟩ := exists_list hlist
    obtain ⟨items', rfl⟩ := exists_list hlist'
    obtain ⟨all, rfl, hinfix⟩ := h
    exact ⟨all ++ items', rfl, hinfix.trans (List.prefix_append _ _).isInfix⟩
  · exact covers_joined_self _ _

/-- **Nothing of an inventory is lost** unless two values of a key exclude each other. -/
theorem covers_foldl {items : List (Key × Value)}
    (h : ∀ k v v', (k, v) ∈ items → (k, v') ∈ items → Compatible v v') {k : Key} {v : Value}
    (hmem : (k, v) ∈ items) :
    ∃ stored, Dict.get (items.foldl mergeInventory []) k = some stored ∧ Covers stored v := by
  induction items using List.reverseRecOn with
  | nil => exact absurd hmem List.not_mem_nil
  | append_singleton items item ih =>
    obtain ⟨k₀, v₀⟩ := item
    rw [List.foldl_append, List.foldl_cons, List.foldl_nil, get_mergeInventory]
    rcases List.mem_append.1 hmem with hearlier | hlast
    · obtain ⟨stored, hstored, hcovers⟩ := ih (fun k v v' hv hv' =>
        h k v v' (List.mem_append_left _ hv) (List.mem_append_left _ hv')) hearlier
      by_cases hk : k₀ = k
      · subst hk
        rw [if_pos rfl, hstored]
        exact ⟨_, rfl, covers_joined hcovers
          (h k₀ v v₀ hmem (List.mem_append_right _ List.mem_cons_self))⟩
      · rw [if_neg hk]
        exact ⟨stored, hstored, hcovers⟩
    · cases List.mem_singleton.1 hlast
      exact ⟨_, if_pos rfl, covers_joined_self _ _⟩

/-! ## What was collected -/

/-- A mapping or a list with something in it. -/
def holdsSome (shape : Value → Bool) (v : Value) : Bool := v.truthy && shape v

/-- A list of sensors, whatever the sensors are. -/
def isListed : Value → Bool
  | .list _ => true
  | .tuple _ => true
  | _ => false

/-- The payload has a metric, a sensor or an item of an inventory. -/
def holdsData : Value → Bool
  | .dict fields =>
    holdsSome isDict (Value.getD fields "metrics" .none) ||
      holdsSome isListed (Value.getD fields "sensors" .none) ||
      holdsSome isDict (Value.getD fields "inventory" .none)
  | _ => false

/-- The collector of the job was run and returned some data. -/
def Job.hasData (j : Job) : Bool := j.payload.any holdsData

/-- The metrics of a payload under its prefix. -/
def ownWrites (pre : String) : Value → List (String × Value)
  | .dict fields => metricWrites pre ((itemsOf (Value.getD fields "metrics" .none)).getD [])
  | _ => []

/-- The metrics of one job, without the mirrors of its sensors. -/
def Job.ownWrites (j : Job) : List (String × Value) :=
  (j.payload.map (OoAgent.ownWrites j.entry.metricPrefix)).getD []

/-- The pushed payload has all in it that a job collected. -/
structure Contains (p : PushPayload) (j : Job) : Prop where
  metrics : ∀ key value, (key, value) ∈ j.ownWrites → p.metrics.get key = some value
  sensors : j.sensors <:+: p.sensors
  inventory : ∀ key value, (key, value) ∈ j.inventory → ∃ inventory stored,
    p.inventory = some inventory ∧ Dict.get inventory key = some stored ∧ Covers stored value

/-- **Everything collected reaches the sink**: if a collector returned data at this tick, the
sink is called once, with all of it. -/
def EverythingSunk (s : Option Loop) (t : Tick) : Prop :=
  ∀ l, s = some l → (∃ j ∈ l.jobs t, j.hasData = true) →
    ∃ p, (l.tick t).2 = [.sunk p] ∧ ∀ j ∈ l.jobs t, Contains p j

/-! ## When it is all there -/

/-- The last write of the key has another value. -/
def Overwritten (all : List (String × Value)) (key : String) (value : Value) : Prop :=
  ∃ before value' after, all = before ++ (key, value') :: after ∧
    key ∉ after.map Prod.fst ∧ value' ≠ value

/-- No metric is overwritten with another value, by a metric or by the mirror of a sensor, and
no two values of an inventory exclude each other. -/
structure Keeps (jobs : List Job) : Prop where
  metrics : ∀ j ∈ jobs, ∀ key value, (key, value) ∈ j.ownWrites →
    ¬ Overwritten (jobs.flatMap Job.writes) key value
  inventory : ∀ key value value', (key, value) ∈ jobs.flatMap Job.inventory →
    (key, value') ∈ jobs.flatMap Job.inventory → Compatible value value'

/-- There is more than unmirrored sensors: a metric, a sensor with a mirror, or an item of an
inventory. -/
def Shows (jobs : List Job) : Prop := ∃ j ∈ jobs, j.writes ≠ [] ∨ j.inventory ≠ []

/-- What the ticks of a loop must be for everything to reach the sink: where data was
returned, every collector that was run is harmless, something shows, and nothing is
overwritten. -/
def Deliverable (s : Option Loop) (t : Tick) : Prop :=
  ∀ l, s = some l → (∃ j ∈ l.jobs t, j.hasData = true) →
    HarmlessTick (some l) t ∧ Shows (l.jobs t) ∧ Keeps (l.jobs t)

section

variable {ts : Int} {now : Time} {jobs : List Job} {p : PushPayload}

/-- The loop asks for metrics or an inventory. -/
theorem shows_iff (h : (runOnce ts now jobs).2 = some p) :
    (p.metrics.isEmpty && p.inventory.isNone) = false ↔ Shows jobs := by
  rw [metrics_runOnce h, inventory_runOnce h, ← Bool.not_eq_true, Bool.and_eq_true, not_and_or,
    List.isEmpty_iff, Dict.update_eq_nil]
  unfold Shows
  constructor
  · rintro (hmetrics | hinventory)
    · have hwrites : jobs.flatMap Job.writes ≠ [] := fun hnil => hmetrics ⟨rfl, hnil⟩
      rw [Ne, List.flatMap_eq_nil_iff] at hwrites
      push Not at hwrites
      obtain ⟨j, hj, hne⟩ := hwrites
      exact ⟨j, hj, .inl hne⟩
    · have hitems : jobs.flatMap Job.inventory ≠ [] := fun hnil => hinventory (by simp [hnil])
      rw [Ne, List.flatMap_eq_nil_iff] at hitems
      push Not at hitems
      obtain ⟨j, hj, hne⟩ := hitems
      exact ⟨j, hj, .inr hne⟩
  · rintro ⟨j, hj, hne | hne⟩
    · refine .inl fun hnil => hne ?_
      exact List.flatMap_eq_nil_iff.1 hnil.2 j hj
    · refine .inr fun hnone => hne ?_
      by_contra hitem
      have hitems : jobs.flatMap Job.inventory ≠ [] := fun hnil =>
        hitem (List.flatMap_eq_nil_iff.1 hnil j hj)
      rw [if_neg hitems] at hnone
      exact absurd hnone (by simp)

theorem ownWrites_subset {j : Job} {key : String} {value : Value}
    (h : (key, value) ∈ j.ownWrites) : (key, value) ∈ j.writes := by
  rw [Job.writes_eq]
  unfold Job.ownWrites at h
  cases hpayload : j.payload with
  | none => simp [hpayload] at h
  | some v =>
    rw [hpayload, Option.map_some, Option.getD_some] at h
    cases v with
    | dict fields => exact List.mem_append_left _ h
    | _ => exact absurd h List.not_mem_nil

/-- **What a run assembles has all in it** exactly when nothing is overwritten. -/
theorem contains_iff (h : (runOnce ts now jobs).2 = some p) :
    (∀ j ∈ jobs, Contains p j) ↔ Keeps jobs := by
  have hmetrics := metrics_runOnce h
  have hinventory := inventory_runOnce h
  constructor
  · intro hall
    constructor
    · rintro j hj key value hwrite ⟨before, value', after, hsplit, hafter, hne⟩
      have hget := (hall j hj).metrics key value hwrite
      rw [hmetrics, Dict.get_update_eq_some.2 ⟨before, after, hsplit, hafter⟩] at hget
      exact hne (Option.some.inj hget)
    · intro key value value' hitem hitem'
      obtain ⟨j, hj, hitem⟩ := List.mem_flatMap.1 hitem
      obtain ⟨j', hj', hitem'⟩ := List.mem_flatMap.1 hitem'
      obtain ⟨d, stored, hd, hget, hcovers⟩ := (hall j hj).inventory key value hitem
      obtain ⟨d', stored', hd', hget', hcovers'⟩ := (hall j' hj').inventory key value' hitem'
      obtain rfl : d = d' := by simpa [hd] using hd'
      obtain rfl : stored = stored' := by simpa [hget] using hget'
      exact compatible_of_covers hcovers hcovers'
  · intro hkeeps j hj
    constructor
    · intro key value hwrite
      have hmem : key ∈ (jobs.flatMap Job.writes).map Prod.fst :=
        List.mem_map.2 ⟨(key, value), List.mem_flatMap.2 ⟨j, hj, ownWrites_subset hwrite⟩, rfl⟩
      obtain ⟨value', -, hget⟩ := Dict.get_update_mem hmem []
      obtain ⟨before, after, hsplit, hafter⟩ := Dict.get_update_eq_some.1 hget
      have hsame : value' = value := by
        by_contra hne
        exact hkeeps.metrics j hj key value hwrite ⟨before, value', after, hsplit, hafter, hne⟩
      rw [hmetrics, hget, hsame]
    · rw [sensors_runOnce h, List.flatMap_def]
      exact List.infix_of_mem_flatten (List.mem_map_of_mem hj)
    · intro key value hitem
      have hmem : (key, value) ∈ jobs.flatMap Job.inventory := List.mem_flatMap.2 ⟨j, hj, hitem⟩
      obtain ⟨stored, hget, hcovers⟩ := covers_foldl hkeeps.inventory hmem
      rw [if_neg (List.ne_nil_of_mem hmem)] at hinventory
      exact ⟨_, stored, hinventory, hget, hcovers⟩

end

/-! ## The sink -/

/-- A tick at which a collector is run hands its payload to the sink, once, if it shows. -/
theorem tick_eq_sunk {l : Loop} {t : Tick} (hruns : ∃ j ∈ l.jobs t, j.runs = true)
    {p : PushPayload} :
    (l.tick t).2 = [.sunk p] ↔
      (runOnce t.ts t.capableAt (l.jobs t)).2 = some p ∧ Shows (l.jobs t) := by
  obtain ⟨j, hj, hruns⟩ := hruns
  have hdue : (l.entries.filter (l.due t.now)).isEmpty = false := by
    by_contra hnone
    have hnil : l.entries.filter (l.due t.now) = [] := by simpa using hnone
    rw [runs_of_none_due hnil hj] at hruns
    exact absurd hruns (by decide)
  unfold Loop.tick
  rw [hdue, if_neg (by decide)]
  cases hrun : runOnce t.ts t.capableAt (l.jobs t) with
  | mk entries assembled =>
    cases assembled with
    | none => simp
    | some payload =>
      have hshows := shows_iff (congrArg Prod.snd hrun)
      cases hempty : payload.metrics.isEmpty && payload.inventory.isNone with
      | true =>
        rw [hempty] at hshows
        simp [hempty, ← hshows]
      | false =>
        rw [hempty] at hshows
        simp [hempty, ← hshows]

/-- A job with data was run. -/
theorem runs_of_hasData {j : Job} (h : j.hasData = true) : j.runs = true := by
  unfold Job.hasData Job.payload at h
  split at h
  · assumption
  · exact absurd h (by simp)

/-- The run of a tick returns exactly when the tick is harmless. -/
theorem harmlessTick_iff {l : Loop} {t : Tick} :
    HarmlessTick (some l) t ↔ ∃ p, (runOnce t.ts t.capableAt (l.jobs t)).2 = some p := by
  have hrun := isSome_runJobs .empty (l.jobs t)
  rw [Option.isSome_iff_exists] at hrun
  have hjobs : HarmlessTick (some l) t ↔ ∀ j ∈ l.jobs t, j.runs = true → j.harmless = true :=
    ⟨fun h => h l rfl, fun h l' hl => by rw [← Option.some.inj hl]; exact h⟩
  rw [hjobs, ← hrun]
  constructor
  · rintro ⟨a, ha⟩
    exact ⟨_, Option.map_eq_some_iff.2 ⟨a, ha, rfl⟩⟩
  · rintro ⟨p, hp⟩
    obtain ⟨a, ha, -⟩ := Option.map_eq_some_iff.1 hp
    exact ⟨a, ha⟩

/-- **Everything collected at a tick reaches the sink** exactly when the tick is
deliverable. -/
theorem everythingSunk_iff (s : Option Loop) (t : Tick) : EverythingSunk s t ↔ Deliverable s t := by
  refine forall₂_congr fun l hl => forall_congr' fun hdata => ?_
  have hruns : ∃ j ∈ l.jobs t, j.runs = true := by
    obtain ⟨j, hj, hdata⟩ := hdata
    exact ⟨j, hj, runs_of_hasData hdata⟩
  rw [harmlessTick_iff]
  constructor
  · rintro ⟨p, hsunk, hall⟩
    obtain ⟨hp, hshows⟩ := (tick_eq_sunk hruns).1 hsunk
    exact ⟨⟨p, hp⟩, hshows, (contains_iff hp).1 hall⟩
  · rintro ⟨⟨p, hp⟩, hshows, hkeeps⟩
    exact ⟨p, (tick_eq_sunk hruns).2 ⟨hp, hshows⟩, (contains_iff hp).2 hkeeps⟩

/-- **Everything collected reaches the sink** at every tick of a run, exactly when every tick
is deliverable. -/
theorem everything_sunk_iff (s : Option Loop) (ticks : List Tick) :
    schedulerLoop.Along EverythingSunk s ticks ↔ schedulerLoop.Along Deliverable s ticks := by
  rw [Machine.along_iff, Machine.along_iff]
  simp only [everythingSunk_iff]

/-- A tick at which the only collector comes back with a fan duty, in percent. -/
def sampleDutyTick : Tick :=
  { now := seconds 1, ts := 0, capableAt := seconds 1
    calls := fun _ => .returned (.dict
      [(.str "sensors", .list [sampleSensor "hwmon:it87/pwm1" "%" 30])]) }

/-- **A fan duty alone** never reaches the sink. -/
theorem fan_duty_not_sunk :
    ¬ schedulerLoop.Along EverythingSunk (some (Loop.start [sampleEntry "sensors_hwmon"]))
      [sampleDutyTick] := by
  intro h
  have hdata : ((Loop.start [sampleEntry "sensors_hwmon"]).jobs sampleDutyTick).any Job.hasData =
      true := by decide +kernel
  have hnone : ((Loop.start [sampleEntry "sensors_hwmon"]).tick sampleDutyTick).2.isEmpty =
      true := by decide +kernel
  obtain ⟨p, hsunk, -⟩ := h.1 _ rfl (List.any_eq_true.1 hdata)
  rw [hsunk] at hnone
  exact absurd hnone (by simp)

end OoAgent
