import OoAgent.Core.Cadence
import OoAgent.Lib.Traverse
import OoAgent.Python.Digits

/-!
# Discovery

Built-in modules and plugin files are imported, and their collector classes instantiated.
Importing, constructing and `available()` are guarded; the options, the attributes that are
read afterwards, the interval and the names are not.

* `Cls`, `Imported`, `World` — what discovery meets: classes, modules, a configuration and a
  directory of plugins.
* `Discovery.instantiate`, `Discovery.discover` — `_instantiate` and `discover`; `none` when
  they raise.
* `discover_eq_some` — **what discovery returns**; `up_of_load` — the collectors that come up,
  in order.
* `discover_refines` — it is what the scheduler starts with.
-/

namespace OoAgent

open PyText Traverse

namespace Discovery

/-! ## The configuration -/

/-- `int(value)`; `none` when it raises. -/
def toInt : Value → Option ℤ
  | .bool b => some (if b then 1 else 0)
  | .int n => some n
  | .float (.finite q) => some (if q < 0 then ⌈q⌉ else ⌊q⌋)
  | .str s => parseInt s.toList
  | _ => none

/-- A parsed INI file. -/
structure Config where
  /-- `agent["interval"]` and `agent["inventory_interval"]`. -/
  interval : Value
  inventoryInterval : Value
  /-- `float(text)`; `none` when it raises. -/
  float : List Char → Option PyFloat
  hasSection : String → Bool
  /-- `_parser.items(section)`; `none` when a value cannot be interpolated. -/
  items : String → Option (List (String × String))

/-- `_coerce`. -/
def Config.coerce (config : Config) (value : String) : Value :=
  let text := strip value.toList
  let lowered := String.ofList (lowerAscii text)
  if lowered ∈ ["true", "yes", "on"] then .bool true
  else if lowered ∈ ["false", "no", "off"] then .bool false
  else
    match parseInt text with
    | some n => .int n
    | none =>
      match config.float text with
      | some x => .float x
      | none => .str (String.ofList text)

/-- `AgentConfig.collector`; `none` when it raises. -/
def Config.collector (config : Config) (name : String) : Option (List (String × Value)) :=
  if config.hasSection ("collector:" ++ name) then
    (config.items ("collector:" ++ name)).map fun items =>
      items.map fun (key, value) => (key, config.coerce value)
  else some []

/-! ## Collectors -/

/-- What `bool(x)` and `int(x)` make of any object; `none` when they raise. -/
structure Number where
  truth : Option Bool
  int : Option ℤ

/-- A value as a number. -/
def number (v : Value) : Number := ⟨some v.truthy, toInt v⟩

/-- A collector, by the attributes that are read; `none` when reading one raises. -/
structure Collector where
  name : Option Key
  inventory : Option Bool
  interval : Option Number

/-- What `cls(options)` and `available()` come to. -/
inductive Built where
  | raised
  /-- What was raised is no `Exception`. -/
  | escaped
  | unavailable
  /-- A collector, and the options as its constructor has left them. -/
  | ready (collector : Collector) (options : List (String × Number))

/-- A collector class. -/
structure Cls where
  /-- The text of its name; `none` when it has none. -/
  name : Option String
  construct : List (String × Value) → Built

/-- A scheduled collector. -/
structure Discovered where
  collector : Collector
  interval : ℤ
  custom : Bool

/-- `int(options.get("interval") or collector.interval or default)`. -/
def intervalOf (options : List (String × Number)) (collector : Collector) (default : Value) :
    Option ℤ :=
  let fallback := do
    let interval ← collector.interval
    if ← interval.truth then interval.int else toInt default
  match options.lookup "interval" with
  | none => fallback
  | some interval => do if ← interval.truth then interval.int else fallback

/-- `options.get("enabled") is False`. -/
def switchedOff (options : List (String × Value)) : Bool :=
  match options.lookup "enabled" with
  | some (.bool false) => true
  | _ => false

/-- `_instantiate`: `some none` for a collector that is skipped, `none` when it raises. -/
def instantiate (config : Config) (custom : Bool) (cls : Cls) : Option (Option Discovered) := do
  let name ← cls.name
  let options ← config.collector name
  if switchedOff options then some none
  else
    match cls.construct options with
    | .raised => some none
    | .escaped => none
    | .unavailable => some none
    | .ready collector options => do
      let inventory ← collector.inventory
      let interval ← intervalOf options collector
        (if inventory then config.inventoryInterval else config.interval)
      return some { collector := collector, interval := interval, custom := custom }

/-! ## Modules -/

/-- What importing a module comes to. -/
inductive Imported where
  | raised
  /-- What was raised is no `Exception`. -/
  | escaped
  /-- The collector classes it defines; `none` when looking through it raises. -/
  | loaded (classes : Option (List Cls))

/-- The inner loop over the classes of a module. -/
def loadClasses (config : Config) (custom : Bool) : List Cls → Option (List Discovered)
  | [] => some []
  | cls :: classes => do
    let entry ← instantiate config custom cls
    let entries ← loadClasses config custom classes
    return entry.toList ++ entries

/-- What one module adds to the entries. -/
def loadModule (config : Config) (custom : Bool) : Imported → Option (List Discovered)
  | .raised => some []
  | .escaped => none
  | .loaded none => none
  | .loaded (some classes) => loadClasses config custom classes

/-- The loop of `_load_builtin` and of `_load_plugins`. -/
def load (config : Config) (custom : Bool) : List Imported → Option (List Discovered)
  | [] => some []
  | module :: modules => do
    let entries ← loadModule config custom module
    let rest ← load config custom modules
    return entries ++ rest

/-- A file of the plugins directory. -/
structure PluginFile where
  name : String
  imported : Imported

/-- The order of the names. -/
def byName (a b : PluginFile) : Bool := decide (a.name ≤ b.name)

/-- A file that is loaded. -/
def PluginFile.isPlugin (file : PluginFile) : Bool :=
  file.name.endsWith ".py" && !file.name.startsWith "_"

/-- A directory: no two files have one name. -/
structure Directory where
  files : List PluginFile
  nodup : (files.map PluginFile.name).Nodup

/-- The files that are loaded, in the order of their names. -/
def Directory.modules (dir : Directory) : List Imported :=
  ((dir.files.mergeSort byName).filter PluginFile.isPlugin).map PluginFile.imported

/-- What discovery meets. -/
structure World where
  config : Config
  builtins : List Imported
  /-- The plugins directory, empty when there is none; `none` when it cannot be listed. -/
  plugins : Option Directory

/-- The name is a string. -/
def isStr : Key → Bool
  | .str _ => true
  | .other _ => false

/-- The names that more than one entry has. -/
def dupes (names : List Key) : List Key := names.filter fun name => 1 < names.count name

/-- `discover`; `none` when it raises.  Duplicate names are joined to a text, which takes
strings. -/
def discover (w : World) : Option (List Discovered) := do
  let builtin ← load w.config false w.builtins
  let dir ← w.plugins
  let plugins ← load w.config true dir.modules
  let entries := builtin ++ plugins
  let names ← entries.mapM fun entry => entry.collector.name
  if (dupes names).all isStr then return entries else none

/-- The collector classes of a module that could be imported. -/
def Imported.classes : Imported → List Cls
  | .loaded (some classes) => classes
  | _ => []

/-- The modules that are loaded. -/
def World.modules (w : World) : List Imported :=
  w.builtins ++ (w.plugins.map Directory.modules).getD []

/-- The collector classes they define. -/
def World.collectors (w : World) : List Cls := w.modules.flatMap Imported.classes

/-- The collector that comes up. -/
def Cls.up (config : Config) (cls : Cls) : Option Collector := do
  let name ← cls.name
  let options ← config.collector name
  if switchedOff options then none
  else
    match cls.construct options with
    | .ready collector _ => some collector
    | _ => none

/-! ## What comes up -/

section

variable {config : Config} {custom : Bool} {cls : Cls} {name : String}
  {options : List (String × Value)}

/-- A collector that is switched off. -/
theorem instantiate_of_off (named : cls.name = some name)
    (reads : config.collector name = some options)
    (off : switchedOff options = true) :
    instantiate config custom cls = some none ∧ cls.up config = none := by
  simp [instantiate, Cls.up, named, reads, off]

/-- A collector that is not switched off is constructed. -/
theorem instantiate_of_on (named : cls.name = some name)
    (reads : config.collector name = some options)
    (on : switchedOff options = false) :
    instantiate config custom cls =
      (match cls.construct options with
      | .raised => some none
      | .escaped => none
      | .unavailable => some none
      | .ready collector left => collector.inventory.bind fun inventory =>
        (intervalOf left collector
          (if inventory then config.inventoryInterval else config.interval)).map fun interval =>
          some ⟨collector, interval, custom⟩) ∧
    cls.up config =
      match cls.construct options with
      | .ready collector _ => some collector
      | _ => none := by
  simp only [instantiate, Cls.up, named, reads, on, Option.bind_eq_bind, Option.bind_some,
    Bool.false_eq_true, if_false, and_true]
  cases cls.construct options with
  | raised => rfl
  | escaped => rfl
  | unavailable => rfl
  | ready collector left =>
    simp only [Option.map_eq_bind]
    rfl

/-- An entry is that of the collector that came up. -/
theorem up_of_instantiate {entry : Option Discovered}
    (h : instantiate config custom cls = some entry) :
    entry.map (fun e => (e.collector, e.custom)) = (cls.up config).map fun c => (c, custom) := by
  cases named : cls.name with
  | none => simp [instantiate, named] at h
  | some name =>
    cases reads : config.collector name with
    | none => simp [instantiate, named, reads] at h
    | some options =>
      cases on : switchedOff options with
      | true =>
        obtain ⟨hskip, hup⟩ := @instantiate_of_off config custom cls _ _ named reads on
        obtain rfl := Option.some.inj (hskip.symm.trans h)
        rw [hup]
        rfl
      | false =>
        obtain ⟨hbuild, hup⟩ := @instantiate_of_on config custom cls _ _ named reads on
        rw [hbuild] at h
        rw [hup]
        cases hbuilt : cls.construct options with
        | raised => rw [hbuilt] at h; cases h; rfl
        | escaped => rw [hbuilt] at h; cases h
        | unavailable => rw [hbuilt] at h; cases h; rfl
        | ready collector left =>
          rw [hbuilt] at h
          obtain ⟨inventory, -, h⟩ := Option.bind_eq_some_iff.1 h
          obtain ⟨n, -, rfl⟩ := Option.map_eq_some_iff.1 h
          rfl

/-- The entries of a module are those of the collectors that came up, in order. -/
theorem up_of_loadClasses {classes : List Cls} {entries : List Discovered}
    (h : loadClasses config custom classes = some entries) :
    entries.map (fun e => (e.collector, e.custom)) =
      (classes.filterMap (Cls.up config)).map fun c => (c, custom) := by
  induction classes generalizing entries with
  | nil =>
    obtain rfl := Option.some.inj h
    rfl
  | cons cls classes ih =>
    obtain ⟨entry, hentry, h⟩ := Option.bind_eq_some_iff.1 h
    obtain ⟨rest, hrest, h⟩ := Option.bind_eq_some_iff.1 h
    obtain rfl := Option.some.inj h
    have hup := up_of_instantiate hentry
    rw [List.map_append, ih hrest, List.filterMap_cons]
    cases hcls : cls.up config with
    | none =>
      rw [hcls, Option.map_none, Option.map_eq_none_iff] at hup
      rw [hup]
      rfl
    | some collector =>
      rw [hcls, Option.map_some] at hup
      obtain ⟨e, rfl, he⟩ := Option.map_eq_some_iff.1 hup
      simp [he]

/-- **The entries of a loop** are those of the collectors that came up, in order. -/
theorem up_of_load {modules : List Imported} {entries : List Discovered}
    (h : load config custom modules = some entries) :
    entries.map (fun e => (e.collector, e.custom)) =
      ((modules.flatMap Imported.classes).filterMap (Cls.up config)).map fun c => (c, custom) := by
  induction modules generalizing entries with
  | nil =>
    obtain rfl := Option.some.inj h
    rfl
  | cons module modules ih =>
    obtain ⟨first, hfirst, h⟩ := Option.bind_eq_some_iff.1 h
    obtain ⟨rest, hrest, h⟩ := Option.bind_eq_some_iff.1 h
    obtain rfl := Option.some.inj h
    rw [List.map_append, ih hrest, List.flatMap_cons, List.filterMap_append, List.map_append]
    congr 1
    cases module with
    | raised => obtain rfl := Option.some.inj hfirst; rfl
    | escaped => cases hfirst
    | loaded classes =>
      cases classes with
      | none => cases hfirst
      | some classes => exact up_of_loadClasses hfirst

theorem collectors_of_load {modules : List Imported} {entries : List Discovered}
    (h : load config custom modules = some entries) :
    entries.map Discovered.collector =
      (modules.flatMap Imported.classes).filterMap (Cls.up config) := by
  have hfst := congrArg (List.map Prod.fst) (up_of_load h)
  rw [List.map_map, List.map_map] at hfst
  exact hfst.trans (List.map_id _)

theorem custom_of_load {modules : List Imported} {entries : List Discovered}
    (h : load config custom modules = some entries) : ∀ e ∈ entries, e.custom = custom := by
  intro e he
  have hmem : (e.collector, e.custom) ∈ entries.map fun e => (e.collector, e.custom) :=
    List.mem_map_of_mem he
  rw [up_of_load h] at hmem
  obtain ⟨c, -, hc⟩ := List.mem_map.1 hmem
  exact (Prod.mk.inj hc).2.symm

end

/-! ## What is returned -/

theorem dupes_all_isStr {names : List Key} :
    (dupes names).all isStr = true ↔ ∀ name, 1 < names.count name → isStr name = true := by
  simp only [dupes, List.all_eq_true, List.mem_filter, decide_eq_true_eq]
  refine forall_congr' fun name => ⟨fun h hcount => h ⟨?_, hcount⟩, fun h hname => h hname.2⟩
  exact List.count_pos_iff.1 (by omega)

/-- What discovery returns. -/
theorem discover_eq_some {w : World} {entries : List Discovered} :
    discover w = some entries ↔ ∃ dir builtin plugins, w.plugins = some dir ∧
      load w.config false w.builtins = some builtin ∧
      load w.config true dir.modules = some plugins ∧ entries = builtin ++ plugins ∧
      (∀ e ∈ entries, e.collector.name ≠ none) ∧
      ∀ name, 1 < ((entries.map Discovered.collector).filterMap Collector.name).count name →
        isStr name = true := by
  unfold discover
  constructor
  · intro h
    obtain ⟨builtin, hbuiltin, h⟩ := Option.bind_eq_some_iff.1 h
    obtain ⟨dir, hdir, h⟩ := Option.bind_eq_some_iff.1 h
    obtain ⟨plugins, hplugins, h⟩ := Option.bind_eq_some_iff.1 h
    obtain ⟨names, hnames, h⟩ := Option.bind_eq_some_iff.1 h
    split at h
    · rename_i hstr
      obtain rfl := Option.some.inj h
      refine ⟨dir, builtin, plugins, hdir, hbuiltin, hplugins, rfl,
        exists_mapM_iff.1 ⟨names, hnames⟩, ?_⟩
      rw [filterMap_of_mapM hnames, dupes_all_isStr] at hstr
      rwa [List.filterMap_map]
    · cases h
  · rintro ⟨dir, builtin, plugins, hdir, hbuiltin, hplugins, rfl, hnamed, hstr⟩
    obtain ⟨names, hnames⟩ := exists_mapM_iff.2 hnamed
    rw [List.filterMap_map] at hstr
    have hdupes : (dupes names).all isStr = true := by
      rw [filterMap_of_mapM hnames, dupes_all_isStr]
      exact hstr
    rw [hbuiltin, hdir]
    simp only [Option.bind_eq_bind, Option.bind_some, hplugins, hnames, hdupes, if_true]
    rfl

/-! ## What the scheduler starts with -/

/-- What the scheduler knows of a discovered collector, if its name is a string. -/
def Discovered.found (d : Discovered) : Option Found :=
  match d.collector.name with
  | some (.str name) => some ⟨name, d.interval⟩
  | _ => none

/-- Its entry. -/
def Discovered.entry (d : Discovered) : Option OoAgent.Entry :=
  d.found.map (OoAgent.instantiate · d.custom)

/-- The entries of one loop are those of what it found. -/
theorem filterMap_entry {custom : Bool} {entries : List Discovered}
    (h : ∀ e ∈ entries, e.custom = custom) :
    entries.filterMap Discovered.entry =
      (entries.filterMap Discovered.found).map (OoAgent.instantiate · custom) := by
  rw [List.map_filterMap]
  exact List.filterMap_congr fun e he => by rw [Discovered.entry, h e he]

/-- **What is discovered** are the entries of the scheduler, built-ins first. -/
theorem discover_refines {w : World} {entries : List Discovered} (h : discover w = some entries) :
    ∃ builtin plugins, entries.filterMap Discovered.entry = OoAgent.discover builtin plugins := by
  obtain ⟨dir, builtin, plugins, -, hbuiltin, hplugins, rfl, -, -⟩ := discover_eq_some.1 h
  refine ⟨builtin.filterMap Discovered.found, plugins.filterMap Discovered.found, ?_⟩
  rw [List.filterMap_append, filterMap_entry (custom_of_load hbuiltin),
    filterMap_entry (custom_of_load hplugins)]
  rfl

end Discovery

end OoAgent
