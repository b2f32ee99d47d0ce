import OoAgent.Core.Delivery
import OoAgent.Python.Jsonable

/-!
# Payloads that are JSON

`run_once` hands on what the collectors returned, taken apart and put together again.  When
all of them return JSON, what it assembles is JSON, whatever they write over each other.

* `jsonable_of_mem_writes`, `jsonable_of_mem_sensorsOf`, `jsonable_of_mem_inventoryOf` — what
  one payload puts into each of the three channels.
* `jsonPayload_runOnce` — **what a run assembles**.
-/

namespace OoAgent

/-! ## One payload -/

section Payload

theorem jsonable_itemsOf {v : Value} (h : jsonable v = true) {items : List (Key × Value)}
    (hitems : itemsOf v = some items) : jsonable (.dict items) = true := by
  unfold itemsOf at hitems
  split at hitems
  · cases v with
    | dict inner =>
      obtain rfl := Option.some.inj hitems
      exact h
    | _ => exact absurd hitems (by simp)
  · obtain rfl := Option.some.inj hitems
    rfl

theorem jsonable_elementsOf {v : Value} (h : jsonable v = true) {elements : List Value}
    (helements : elementsOf v = some elements) : ∀ e ∈ elements, jsonable e = true := by
  unfold elementsOf at helements
  split at helements
  · cases v with
    | list items =>
      obtain rfl := Option.some.inj helements
      exact jsonable_list_iff.1 h
    | tuple items =>
      obtain rfl := Option.some.inj helements
      exact jsonableItems_iff.1 h
    | str s =>
      obtain rfl := Option.some.inj helements
      intro e he
      obtain ⟨c, -, rfl⟩ := List.mem_map.1 he
      rfl
    | dict items =>
      obtain rfl := Option.some.inj helements
      intro e he
      obtain ⟨item, hitem, rfl⟩ := List.mem_map.1 he
      obtain ⟨s, hs⟩ := exists_str ((jsonable_dict_iff.1 h).2 item hitem).1
      rw [hs]
      rfl
    | _ => exact absurd helements (by simp)
  · obtain rfl := Option.some.inj helements
    exact fun e he => absurd he List.not_mem_nil

variable {payload : Value}

/-- The items under a key of a payload. -/
theorem jsonable_field {fields : List (Key × Value)} (h : jsonable (.dict fields) = true)
    (key : String) :
    jsonable (.dict ((itemsOf (Value.getD fields key .none)).getD [])) = true := by
  cases hitems : itemsOf (Value.getD fields key .none) with
  | none => rfl
  | some items => exact jsonable_itemsOf (jsonable_getD h rfl) hitems

theorem jsonable_of_mem_sensorsOf (h : jsonable payload = true) :
    ∀ sensor ∈ sensorsOf payload, jsonable sensor = true := by
  cases payload with
  | dict fields =>
    rw [sensorsOf]
    cases helements : elementsOf (Value.getD fields "sensors" .none) with
    | none => exact fun sensor hsensor => absurd hsensor List.not_mem_nil
    | some elements =>
      exact jsonable_elementsOf (@jsonable_getD fields h "sensors" .none rfl) helements
  | _ => exact fun sensor hsensor => absurd hsensor List.not_mem_nil

/-- The mirror of a sensor is its own value. -/
theorem jsonable_mirror {sensor value : Value} {key : String} (h : jsonable sensor = true)
    (hmirror : Mirrored sensor key value) : jsonable value = true := by
  obtain ⟨fields, -, -, rfl, -, rfl, -⟩ := hmirror
  exact jsonable_getD h rfl

theorem jsonable_of_mem_writes {pre key : String} {value : Value} (h : jsonable payload = true)
    (hwrite : (key, value) ∈ writes pre payload) : jsonable value = true := by
  cases payload with
  | dict fields =>
    rcases List.mem_append.1 hwrite with hmetric | hmirror
    · obtain ⟨item, hitem, hkey⟩ := List.mem_filterMap.1 hmetric
      obtain ⟨k, -, heq⟩ := Option.map_eq_some_iff.1 hkey
      obtain ⟨-, rfl⟩ := Prod.mk.inj heq
      exact ((jsonable_dict_iff.1 (jsonable_field h "metrics")).2 item hitem).2
    · obtain ⟨sensor, hsensor, hjoin⟩ := List.mem_filterMap.1 hmirror
      have hsensors : sensor ∈ sensorsOf (.dict fields) := hsensor
      exact jsonable_mirror (jsonable_of_mem_sensorsOf h sensor hsensors)
        (mirrored_of_mirrorOf (Option.join_eq_some_iff.1 hjoin))
  | _ => exact absurd hwrite List.not_mem_nil

theorem jsonable_of_mem_inventoryOf (h : jsonable payload = true) :
    ∀ item ∈ inventoryOf payload, isStrKey item.1 = true ∧ jsonable item.2 = true := by
  cases payload with
  | dict fields => exact (jsonable_dict_iff.1 (jsonable_field h "inventory")).2
  | _ => exact fun item hitem => absurd hitem List.not_mem_nil

end Payload

/-! ## The inventory of a run -/

theorem jsonable_joined {old : Option Value} {v : Value}
    (hold : ∀ w, old = some w → jsonable w = true) (hv : jsonable v = true) :
    jsonable (joined old v) = true := by
  unfold joined
  split
  · rename_i existing value
    have hexisting := jsonable_list_iff.1 (hold _ rfl)
    refine jsonable_list_iff.2 fun x hx => ?_
    exact (List.mem_append.1 hx).elim (hexisting x) (jsonable_list_iff.1 hv x)
  · exact hv

/-- Merging keeps an inventory JSON. -/
theorem jsonable_mergeInventory {d : Dict Key Value} {item : Key × Value}
    (hd : jsonable (.dict d) = true) (hkey : isStrKey item.1 = true)
    (hvalue : jsonable item.2 = true) : jsonable (.dict (mergeInventory d item)) = true := by
  obtain ⟨hnodup, hitems⟩ := jsonable_dict_iff.1 hd
  rw [mergeInventory_eq, jsonable_dict_iff]
  refine ⟨Dict.nodup_set hnodup _ _, fun i hi => ?_⟩
  rcases Dict.mem_set hi with rfl | hi
  · refine ⟨hkey, jsonable_joined (fun w hw => ?_) hvalue⟩
    exact (hitems _ (Dict.mem_of_get hw)).2
  · exact hitems i hi

theorem jsonable_foldl_mergeInventory {d : Dict Key Value} {items : List (Key × Value)}
    (hd : jsonable (.dict d) = true)
    (hitems : ∀ item ∈ items, isStrKey item.1 = true ∧ jsonable item.2 = true) :
    jsonable (.dict (items.foldl mergeInventory d)) = true := by
  induction items generalizing d with
  | nil => exact hd
  | cons item items ih =>
    obtain ⟨⟨hkey, hvalue⟩, hrest⟩ := List.forall_mem_cons.1 hitems
    exact ih (jsonable_mergeInventory hd hkey hvalue) hrest

/-! ## What a run assembles -/

/-- The three channels of a payload are JSON. -/
structure JsonPayload (p : PushPayload) : Prop where
  metrics : jsonable (.dict (p.metrics.map fun item => (.str item.1, item.2))) = true
  sensors : jsonable (.list p.sensors) = true
  inventory : ∀ items, p.inventory = some items → jsonable (.dict items) = true

/-- The collector of a job returns JSON, if it returns. -/
def Job.ReturnsJson (j : Job) : Prop := ∀ v, j.call = .returned v → jsonable v = true

/-- A false value stands for an empty payload. -/
theorem jsonable_payload {j : Job} (h : j.ReturnsJson) {v : Value} (hv : j.payload = some v) :
    jsonable v = true := by
  unfold Job.payload at hv
  split at hv
  · rename_i w hruns hcall
    obtain rfl := Option.some.inj hv
    unfold Value.orElse
    split
    · exact h w hcall
    · rfl
  · exact absurd hv (by simp)

/-- What a job puts into a channel, when its payload puts only such things there. -/
theorem forall_mem_job {β : Type} {P : β → Prop} {of : Value → List β}
    (hof : ∀ payload, jsonable payload = true → ∀ x ∈ of payload, P x) {j : Job}
    (h : j.ReturnsJson) : ∀ x ∈ (j.payload.map of).getD [], P x := by
  cases hpayload : j.payload with
  | none => exact fun x hx => absurd hx List.not_mem_nil
  | some v => exact hof v (jsonable_payload h hpayload)

/-- **What a run assembles** is JSON when what the collectors return is. -/
theorem jsonPayload_runOnce {ts : Int} {now : Time} {jobs : List Job} {p : PushPayload}
    (h : (runOnce ts now jobs).2 = some p) (hjobs : ∀ j ∈ jobs, j.ReturnsJson) :
    JsonPayload p := by
  have hwrites : ∀ item ∈ jobs.flatMap Job.writes, jsonable item.2 = true := by
    intro item hitem
    obtain ⟨j, hj, hitem⟩ := List.mem_flatMap.1 hitem
    rw [Job.writes_eq] at hitem
    exact forall_mem_job (fun payload hpayload x hx => jsonable_of_mem_writes hpayload hx)
      (hjobs j hj) item hitem
  have hinventory : ∀ item ∈ jobs.flatMap Job.inventory,
      isStrKey item.1 = true ∧ jsonable item.2 = true := by
    intro item hitem
    obtain ⟨j, hj, hitem⟩ := List.mem_flatMap.1 hitem
    exact forall_mem_job (fun _ => jsonable_of_mem_inventoryOf) (hjobs j hj) item hitem
  constructor
  · rw [jsonable_dict_iff, metrics_runOnce h, List.map_map]
    constructor
    · have hfst : (Dict.update [] (jobs.flatMap Job.writes)).map
          (Prod.fst ∘ fun item => ((.str item.1 : Key), item.2)) =
          ((Dict.update [] (jobs.flatMap Job.writes)).map Prod.fst).map Key.str := by
        rw [List.map_map]
        rfl
      rw [hfst]
      exact (Dict.nodup_update (d := []) List.nodup_nil _).map fun _ _ h => Key.str.inj h
    · intro item hitem
      obtain ⟨write, hwrite, rfl⟩ := List.mem_map.1 hitem
      exact ⟨rfl, hwrites write ((Dict.mem_update hwrite).resolve_left List.not_mem_nil)⟩
  · rw [jsonable_list_iff, sensors_runOnce h]
    intro sensor hsensor
    obtain ⟨j, hj, hsensor⟩ := List.mem_flatMap.1 hsensor
    exact forall_mem_job (fun _ => jsonable_of_mem_sensorsOf) (hjobs j hj) sensor hsensor
  · intro items hitems
    rw [inventory_runOnce h] at hitems
    split at hitems
    · exact absurd hitems (by simp)
    · obtain rfl := Option.some.inj hitems
      exact jsonable_foldl_mergeInventory rfl hinventory

end OoAgent
