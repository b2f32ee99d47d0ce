import OoAgent.Core.Discovery

/-!
# The guards of discovery

"A collector is skipped (never fatally)" when it is disabled or not available, or when
importing or instantiating it raises.  What is read of it outside the guards can raise, too,
and leaves no collector at all.

* `Isolated` — discovery returns, and what is wrong with one collector or file makes no
  difference to the others.
* `HasInterval`, `Guarded` — nothing goes wrong outside the guards.
* `discover_returns_iff` — **discovery returns** exactly then.
* `load_keep` — what is skipped makes no difference.
* `discovery_isolated_iff` — **isolation** is exactly that.
-/

namespace OoAgent

namespace Discovery

/-! ## Isolation -/

/-- The module cannot be imported, or not be looked through. -/
def Imported.Broken (module : Imported) : Prop := ∀ classes, module ≠ .loaded (some classes)

/-- The module with some of its classes only. -/
def Imported.keep (keep : Cls → Bool) : Imported → Imported
  | .loaded (some classes) => .loaded (some (classes.filter keep))
  | module => module

/-- The directory with some of its files, and of these with some of their classes. -/
def Directory.keep (dir : Directory) (file : Imported → Bool) (keep : Cls → Bool) :
    Directory where
  files := (dir.files.filter fun f => file f.imported).map fun f =>
    { f with imported := f.imported.keep keep }
  nodup := by
    rw [List.map_map]
    exact (List.filter_sublist.map PluginFile.name).nodup dir.nodup

/-- The world with some of its modules and files, and with some of their classes. -/
def World.keep (w : World) (file : Imported → Bool) (keep : Cls → Bool) : World where
  config := w.config
  builtins := (w.builtins.filter file).map (Imported.keep keep)
  plugins := w.plugins.map fun dir => dir.keep file keep

/-- A collector that gets no entry, or one without a name: its options cannot be read or
switch it off, its constructor fails, it is not available, it has no interval. -/
def Offends (config : Config) (cls : Cls) : Prop :=
  ∀ custom entry, instantiate config custom cls = some (some entry) → entry.collector.name = none

/-- **Isolation**: discovery returns, and would return the same if modules that cannot be
imported and collectors that get no entry did not exist. -/
def Isolated (w : World) : Prop :=
  ∃ entries, discover w = some entries ∧ ∀ file keep,
    (∀ module ∈ w.modules, file module = false → module.Broken) →
    (∀ cls ∈ w.collectors, keep cls = false → Offends w.config cls) →
    discover (w.keep file keep) = some entries

/-! ## What is not guarded -/

/-- The interval is one: the configured one if it is true, or else the collector's own, or
else the default of the agent, is something that `int` reads. -/
inductive HasInterval (options : List (String × Number)) (collector : Collector)
    (default : Value) : Prop
  | configured {n : Number} (set : options.lookup "interval" = some n) (true_ : n.truth = some true)
      (reads : n.int ≠ none)
  | own (unset : ∀ n, options.lookup "interval" = some n → n.truth = some false) {n : Number}
      (set : collector.interval = some n) (true_ : n.truth = some true) (reads : n.int ≠ none)
  | agent (unset : ∀ n, options.lookup "interval" = some n → n.truth = some false) {n : Number}
      (set : collector.interval = some n) (false_ : n.truth = some false)
      (reads : toInt default ≠ none)

/-- With this collector nothing goes wrong outside the guards: its options can be read, and
if it comes up then so can its attributes and its interval. -/
inductive Cls.Guarded (config : Config) (cls : Cls) : Prop
  | disabled {name : String} {options : List (String × Value)} (named : cls.name = some name)
      (reads : config.collector name = some options)
      (off : switchedOff options = true)
  | skipped {name : String} {options : List (String × Value)} (named : cls.name = some name)
      (reads : config.collector name = some options)
      (on : switchedOff options = false)
      (fails : cls.construct options = .raised ∨ cls.construct options = .unavailable)
  | ready {name : String} {options : List (String × Value)} {collector : Collector}
      {left : List (String × Number)} {inventory : Bool} (named : cls.name = some name)
      (reads : config.collector name = some options)
      (on : switchedOff options = false)
      (comes : cls.construct options = .ready collector left)
      (kind : collector.inventory = some inventory)
      (interval : HasInterval left collector
        (if inventory then config.inventoryInterval else config.interval))
      (title : collector.name ≠ none)

/-- Nothing goes wrong outside the guards. -/
structure Guarded (w : World) : Prop where
  listed : w.plugins ≠ none
  imports : ∀ module ∈ w.modules, module ≠ .escaped ∧ module ≠ .loaded none
  collectors : ∀ cls ∈ w.collectors, cls.Guarded w.config
  names : ∀ name,
    1 < ((w.collectors.filterMap (Cls.up w.config)).filterMap Collector.name).count name →
    isStr name = true

/-! ## One collector -/

/-- `x or y` inside `int`: the object itself if it is true, what follows if it is not. -/
theorem or_ne_none {n : Number} {rest : Option ℤ} :
    (do if ← n.truth then n.int else rest) ≠ none ↔
      n.truth = some true ∧ n.int ≠ none ∨ n.truth = some false ∧ rest ≠ none := by
  cases n.truth with
  | none => simp
  | some b => cases b <;> simp

/-- The fallback of the configured interval: the collector's own, or the agent's. -/
theorem ownInterval_ne_none {collector : Collector} {default : Value} :
    (do
      let interval ← collector.interval
      if ← interval.truth then interval.int else toInt default) ≠ none ↔
    ∃ n, collector.interval = some n ∧
      (n.truth = some true ∧ n.int ≠ none ∨ n.truth = some false ∧ toInt default ≠ none) := by
  cases collector.interval with
  | none => simp
  | some n =>
    simp only [Option.some.injEq, exists_eq_left']
    exact or_ne_none

section

variable {options : List (String × Number)} {collector : Collector} {default : Value}

theorem hasInterval_iff :
    HasInterval options collector default ↔
      (∃ n, options.lookup "interval" = some n ∧ n.truth = some true ∧ n.int ≠ none) ∨
      (∀ n, options.lookup "interval" = some n → n.truth = some false) ∧
        ∃ n, collector.interval = some n ∧
          (n.truth = some true ∧ n.int ≠ none ∨ n.truth = some false ∧ toInt default ≠ none) := by
  constructor
  · intro h
    cases h with
    | configured set true_ reads => exact .inl ⟨_, set, true_, reads⟩
    | own unset set true_ reads => exact .inr ⟨unset, _, set, .inl ⟨true_, reads⟩⟩
    | agent unset set false_ reads => exact .inr ⟨unset, _, set, .inr ⟨false_, reads⟩⟩
  · rintro (⟨n, set, htrue, reads⟩ | ⟨unset, n, set, ⟨htrue, reads⟩ | ⟨hfalse, reads⟩⟩)
    · exact .configured set htrue reads
    · exact .own unset set htrue reads
    · exact .agent unset set hfalse reads

/-- **The interval** is found where it is one. -/
theorem intervalOf_ne_none :
    intervalOf options collector default ≠ none ↔ HasInterval options collector default := by
  rw [hasInterval_iff, ← ownInterval_ne_none]
  unfold intervalOf
  cases options.lookup "interval" with
  | none => simp
  | some n =>
    simp only [Option.some.injEq, exists_eq_left', forall_eq']
    exact or_ne_none

end

section

variable {config : Config} {custom : Bool}

/-- **Nothing goes wrong with a collector** exactly when it gets past `_instantiate`, with a
name if it gets an entry. -/
theorem guarded_iff {cls : Cls} :
    cls.Guarded config ↔ ∃ entry, instantiate config custom cls = some entry ∧
      ∀ e ∈ entry, e.collector.name ≠ none := by
  constructor
  · intro h
    cases h with
    | disabled named reads off =>
      exact ⟨none, (instantiate_of_off named reads off).1, by simp⟩
    | skipped named reads on fails =>
      refine ⟨none, (instantiate_of_on named reads on).1.trans ?_, by simp⟩
      rcases fails with h | h <;> rw [h]
    | @ready _ _ collector _ _ named reads on comes kind interval title =>
      obtain ⟨n, hn⟩ := Option.ne_none_iff_exists'.1 (intervalOf_ne_none.2 interval)
      refine ⟨some ⟨collector, n, custom⟩, (instantiate_of_on named reads on).1.trans ?_, ?_⟩
      · simp only [comes, kind, hn, Option.bind_some, Option.map_some]
      · rintro e ⟨⟩
        exact title
  · rintro ⟨entry, hentry, htitle⟩
    cases named : cls.name with
    | none => simp [instantiate, named] at hentry
    | some name =>
      cases reads : config.collector name with
      | none => simp [instantiate, named, reads] at hentry
      | some options =>
        cases on : switchedOff options with
        | true => exact .disabled named reads on
        | false =>
          rw [(instantiate_of_on named reads on).1] at hentry
          cases hbuilt : cls.construct options with
          | raised => exact .skipped named reads on (.inl hbuilt)
          | unavailable => exact .skipped named reads on (.inr hbuilt)
          | escaped => rw [hbuilt] at hentry; cases hentry
          | ready collector left =>
            rw [hbuilt] at hentry
            obtain ⟨inventory, kind, hentry⟩ := Option.bind_eq_some_iff.1 hentry
            obtain ⟨n, hn, rfl⟩ := Option.map_eq_some_iff.1 hentry
            have interval := intervalOf_ne_none.1 (Option.ne_none_iff_exists'.2 ⟨n, hn⟩)
            exact .ready named reads on hbuilt kind interval (htitle _ rfl)

/-! ## All collectors -/

/-- **The classes of a module** are loaded, and named, when nothing goes wrong with any. -/
theorem exists_loadClasses_iff {classes : List Cls} :
    (∃ entries, loadClasses config custom classes = some entries ∧
      ∀ e ∈ entries, e.collector.name ≠ none) ↔ ∀ cls ∈ classes, cls.Guarded config := by
  induction classes with
  | nil => simp [loadClasses]
  | cons cls classes ih =>
    rw [List.forall_mem_cons, ← ih, @guarded_iff config custom cls, loadClasses]
    cases instantiate config custom cls with
    | none => simp
    | some entry =>
      cases loadClasses config custom classes with
      | none => simp
      | some entries => simp [or_imp, forall_and]

/-- **Modules** are loaded when they can be imported and looked through, and nothing goes
wrong with any of their classes. -/
theorem exists_load_iff {modules : List Imported} :
    (∃ entries, load config custom modules = some entries ∧
      ∀ e ∈ entries, e.collector.name ≠ none) ↔
    (∀ module ∈ modules, module ≠ .escaped ∧ module ≠ .loaded none) ∧
      ∀ cls ∈ modules.flatMap Imported.classes, cls.Guarded config := by
  induction modules with
  | nil => simp [load]
  | cons module modules ih =>
    have hmodule : (∃ entries, loadModule config custom module = some entries ∧
        ∀ e ∈ entries, e.collector.name ≠ none) ↔
        (module ≠ .escaped ∧ module ≠ .loaded none) ∧
          ∀ cls ∈ module.classes, cls.Guarded config := by
      cases module with
      | raised => simp [loadModule, Imported.classes]
      | escaped => simp [loadModule]
      | loaded classes =>
        cases classes with
        | none => simp [loadModule]
        | some classes =>
          rw [loadModule, exists_loadClasses_iff]
          simp [Imported.classes]
    rw [List.forall_mem_cons, List.flatMap_cons, List.forall_mem_append, and_and_and_comm,
      ← hmodule, ← ih, load]
    cases loadModule config custom module with
    | none => simp
    | some entries =>
      cases load config custom modules with
      | none => simp
      | some rest => simp [or_imp, forall_and]

end

section

variable {w : World} {dir : Directory}

theorem modules_of_listed (hdir : w.plugins = some dir) :
    w.modules = w.builtins ++ dir.modules := by
  simp [World.modules, hdir]

theorem collectors_of_listed (hdir : w.plugins = some dir) :
    w.collectors =
      w.builtins.flatMap Imported.classes ++ dir.modules.flatMap Imported.classes := by
  rw [World.collectors, modules_of_listed hdir, List.flatMap_append]

/-- The collectors of the two loops are those that come up. -/
theorem collectors_of_loops (hdir : w.plugins = some dir) {builtin plugins : List Discovered}
    (hbuiltin : load w.config false w.builtins = some builtin)
    (hplugins : load w.config true dir.modules = some plugins) :
    (builtin ++ plugins).map Discovered.collector =
      w.collectors.filterMap (Cls.up w.config) := by
  rw [List.map_append, collectors_of_load hbuiltin, collectors_of_load hplugins,
    collectors_of_listed hdir, List.filterMap_append]

end

/-- **Discovery returns** exactly when nothing goes wrong outside the guards. -/
theorem discover_returns_iff {w : World} : (∃ entries, discover w = some entries) ↔ Guarded w := by
  constructor
  · rintro ⟨entries, h⟩
    obtain ⟨dir, builtin, plugins, hdir, hbuiltin, hplugins, rfl, hnamed, hstr⟩ :=
      discover_eq_some.1 h
    rw [List.forall_mem_append] at hnamed
    obtain ⟨himports, hclasses⟩ := exists_load_iff.1 ⟨builtin, hbuiltin, hnamed.1⟩
    obtain ⟨himports', hclasses'⟩ := exists_load_iff.1 ⟨plugins, hplugins, hnamed.2⟩
    refine ⟨by simp [hdir], ?_, ?_, ?_⟩
    · rw [modules_of_listed hdir, List.forall_mem_append]
      exact ⟨himports, himports'⟩
    · rw [collectors_of_listed hdir, List.forall_mem_append]
      exact ⟨hclasses, hclasses'⟩
    · rwa [← collectors_of_loops hdir hbuiltin hplugins]
  · rintro ⟨hlisted, himports, hclasses, hstr⟩
    obtain ⟨dir, hdir⟩ := Option.ne_none_iff_exists'.1 hlisted
    rw [modules_of_listed hdir, List.forall_mem_append] at himports
    rw [collectors_of_listed hdir, List.forall_mem_append] at hclasses
    obtain ⟨builtin, hbuiltin, hnamed⟩ :=
      (@exists_load_iff w.config false _).2 ⟨himports.1, hclasses.1⟩
    obtain ⟨plugins, hplugins, hnamed'⟩ :=
      (@exists_load_iff w.config true _).2 ⟨himports.2, hclasses.2⟩
    refine ⟨builtin ++ plugins, discover_eq_some.2 ⟨dir, builtin, plugins, hdir, hbuiltin, hplugins,
      rfl, List.forall_mem_append.2 ⟨hnamed, hnamed'⟩, ?_⟩⟩
    rwa [collectors_of_loops hdir hbuiltin hplugins]

/-! ## What makes no difference -/

section

variable {config : Config} {custom : Bool} {file : Imported → Bool} {keep : Cls → Bool}

/-- A class that gets no entry makes no difference to its module. -/
theorem loadClasses_keep {classes : List Cls} {entries : List Discovered}
    (h : loadClasses config custom classes = some entries)
    (hnamed : ∀ e ∈ entries, e.collector.name ≠ none)
    (hkeep : ∀ cls ∈ classes, keep cls = false → Offends config cls) :
    loadClasses config custom (classes.filter keep) = some entries := by
  induction classes generalizing entries with
  | nil => exact h
  | cons cls classes ih =>
    obtain ⟨entry, hentry, h⟩ := Option.bind_eq_some_iff.1 h
    obtain ⟨rest, hrest, h⟩ := Option.bind_eq_some_iff.1 h
    obtain rfl := Option.some.inj h
    rw [List.forall_mem_append] at hnamed
    rw [List.forall_mem_cons] at hkeep
    have hsame := ih hrest hnamed.2 hkeep.2
    cases hcls : keep cls with
    | true =>
      rw [List.filter_cons_of_pos hcls, loadClasses, hentry, hsame]
      rfl
    | false =>
      rw [List.filter_cons_of_neg (by simp [hcls])]
      cases entry with
      | none => exact hsame
      | some e => exact absurd (hkeep.1 hcls custom e hentry) (hnamed.1 e (by simp))

/-- Nor does it make one to what its module adds. -/
theorem loadModule_keep {module : Imported} {entries : List Discovered}
    (h : loadModule config custom module = some entries)
    (hnamed : ∀ e ∈ entries, e.collector.name ≠ none)
    (hkeep : ∀ cls ∈ module.classes, keep cls = false → Offends config cls) :
    loadModule config custom (module.keep keep) = some entries := by
  cases module with
  | raised => exact h
  | escaped => exact h
  | loaded classes =>
    cases classes with
    | none => exact h
    | some classes => exact loadClasses_keep h hnamed hkeep

/-- A module that cannot be imported adds nothing. -/
theorem loadModule_of_broken {module : Imported} {entries : List Discovered}
    (h : loadModule config custom module = some entries) (hbroken : module.Broken) :
    entries = [] := by
  cases module with
  | raised => exact (Option.some.inj h).symm
  | escaped => cases h
  | loaded classes =>
    cases classes with
    | none => cases h
    | some classes => exact absurd rfl (hbroken classes)

/-- Modules that cannot be imported make no difference to the others. -/
theorem load_keep {modules : List Imported} {entries : List Discovered}
    (h : load config custom modules = some entries)
    (hnamed : ∀ e ∈ entries, e.collector.name ≠ none)
    (hfile : ∀ module ∈ modules, file module = false → module.Broken)
    (hkeep : ∀ cls ∈ modules.flatMap Imported.classes, keep cls = false → Offends config cls) :
    load config custom ((modules.filter file).map (Imported.keep keep)) = some entries := by
  induction modules generalizing entries with
  | nil => exact h
  | cons module modules ih =>
    obtain ⟨first, hfirst, h⟩ := Option.bind_eq_some_iff.1 h
    obtain ⟨rest, hrest, h⟩ := Option.bind_eq_some_iff.1 h
    obtain rfl := Option.some.inj h
    rw [List.forall_mem_append] at hnamed
    rw [List.forall_mem_cons] at hfile
    rw [List.flatMap_cons, List.forall_mem_append] at hkeep
    have hsame := ih hrest hnamed.2 hfile.2 hkeep.2
    cases hmodule : file module with
    | true =>
      rw [List.filter_cons_of_pos hmodule, List.map_cons, load,
        loadModule_keep hfirst hnamed.1 hkeep.1, hsame]
      rfl
    | false =>
      rw [List.filter_cons_of_neg (by simp [hmodule]),
        loadModule_of_broken hfirst (hfile.1 hmodule)]
      exact hsame

end

/-- **Sorting and leaving out** files of different names can be exchanged. -/
theorem filter_mergeSort {files : List PluginFile} (hnodup : (files.map PluginFile.name).Nodup)
    (p : PluginFile → Bool) :
    (files.filter p).mergeSort byName = (files.mergeSort byName).filter p := by
  have htrans (a b c : PluginFile) (hab : byName a b) (hbc : byName b c) : byName a c :=
    decide_eq_true ((of_decide_eq_true hab).trans (of_decide_eq_true hbc))
  have htotal (a b : PluginFile) : byName a b || byName b a := by
    rw [Bool.or_eq_true, byName, byName, decide_eq_true_eq, decide_eq_true_eq]
    exact le_total a.name b.name
  refine List.Perm.eq_of_pairwise (fun a b ha hb hab hba => ?_)
    (List.pairwise_mergeSort htrans htotal _)
    ((List.pairwise_mergeSort htrans htotal _).filter p)
    ((List.mergeSort_perm _ _).trans ((List.mergeSort_perm files byName).filter p).symm)
  have hname : a.name = b.name := le_antisymm (of_decide_eq_true hab) (of_decide_eq_true hba)
  refine List.inj_on_of_nodup_map hnodup ?_ ?_ hname
  · exact List.mem_of_mem_filter ((List.mergeSort_perm _ _).subset ha)
  · exact (List.mergeSort_perm _ _).subset (List.mem_of_mem_filter hb)

/-- The modules of a directory with some of its files and classes. -/
theorem modules_keep (dir : Directory) (file : Imported → Bool) (keep : Cls → Bool) :
    (dir.keep file keep).modules = (dir.modules.filter file).map (Imported.keep keep) := by
  let kept (f : PluginFile) : PluginFile := { f with imported := f.imported.keep keep }
  have hsort : ((dir.files.filter fun f => file f.imported).map kept).mergeSort byName =
      ((dir.files.mergeSort byName).filter fun f => file f.imported).map kept := by
    rw [← filter_mergeSort dir.nodup]
    exact (List.map_mergeSort (f := kept) fun _ _ _ _ => rfl).symm
  have hplugin : PluginFile.isPlugin ∘ kept = PluginFile.isPlugin := rfl
  have himported : PluginFile.imported ∘ kept = Imported.keep keep ∘ PluginFile.imported := rfl
  change ((((dir.files.filter fun f => file f.imported).map kept).mergeSort byName).filter
    PluginFile.isPlugin).map PluginFile.imported = _
  rw [hsort, List.filter_map, hplugin, List.map_map, himported, List.filter_comm, Directory.modules,
    List.filter_map, List.map_map]
  rfl

/-! ## A bad interval -/

/-- A collector that comes up whatever its options. -/
def sampleCls (name : String) : Cls where
  name := some name
  construct options := .ready ⟨some (.str name), some false, some (number .none)⟩
    (options.map fun (key, value) => (key, number value))

/-- `[collector:cpu]` with `interval = 5m`. -/
def sampleConfig : Config where
  interval := .int 60
  inventoryInterval := .int 600
  float _ := none
  hasSection section_ := section_ == "collector:cpu"
  items _ := some [("interval", "5m")]

/-- A collector that is fine, and the one that is configured so. -/
def sampleWorld : World where
  config := sampleConfig
  builtins := [.loaded (some [sampleCls "disk", sampleCls "cpu"])]
  plugins := some ⟨[], List.nodup_nil⟩

end Discovery

end OoAgent
