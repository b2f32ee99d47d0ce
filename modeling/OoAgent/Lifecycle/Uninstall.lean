import OoAgent.Lib.Sweep
import OoAgent.Lifecycle.SelfUpdate
import OoAgent.Python.Posixpath

/-!
# Uninstalling

`uninstall` (`oo_agent/lifecycle.py`) on Linux removes the unit file, the directories of the
configuration and the state, the launcher, and with a detached command the directory the agent is
installed in, if that looks like its own.

* `installPrefix` — `_install_prefix`; `installPrefix_spec` — **which directory that is**.
* `uninstall` — what the command comes to, down to the detached removal.
* `uninstall_removes_own` — **it removes what belongs to the agent and nothing else**.
-/

namespace OoAgent

open PyText PyPath Sweep

/-! ## The directory of the installation -/

/-- The name that the directories of the agent have. -/
def ownName : List Char := serviceName.toList

/-- `_install_prefix`. -/
def installPrefix (pyPrefix : List Char) : Option (List Char) :=
  if basename (dirname pyPrefix) = ownName ∨ basename pyPrefix = ownName then
    some (if basename pyPrefix = "venv".toList then dirname pyPrefix else pyPrefix)
  else none

theorem ownName_mem {p : List Char} (h : basename p = ownName) : ownName ∈ components p := by
  have hown : components ownName = [ownName] := by decide +kernel
  rw [components_eq, h, hown]
  exact List.mem_append_right _ (List.mem_singleton_self _)

/-- **Only a directory of the agent's own** counts as its installation: one with the agent's name
or inside of such a one, and the interpreter is in it. -/
theorem installPrefix_spec {pyPrefix root : List Char} (h : installPrefix pyPrefix = some root) :
    ownName ∈ components root ∧ components root <+: components pyPrefix := by
  have hdir : components (dirname pyPrefix) <+: components pyPrefix := by
    rw [components_eq pyPrefix]
    exact List.prefix_append _ _
  unfold installPrefix at h
  split at h
  · rename_i hown
    have hroot := (Option.some.inj h).symm
    split at hroot
    · rename_i hvenv
      rcases hown with hown | hown
      · exact ⟨hroot ▸ ownName_mem hown, hroot ▸ hdir⟩
      · exact absurd (hown.symm.trans hvenv) (by decide)
    · rcases hown with hown | hown
      · exact ⟨hroot ▸ hdir.subset (ownName_mem hown), hroot ▸ List.prefix_refl _⟩
      · exact ⟨hroot ▸ ownName_mem hown, hroot ▸ List.prefix_refl _⟩
  · cases h

example : installPrefix "/opt/oo-agent/venv".toList = some "/opt/oo-agent".toList ∧
    installPrefix "/usr".toList = none := by decide +kernel

/-! ## The command -/

/-- A file or directory, by the names that lead to it. -/
abbrev Path := List (List Char)

/-- The file system, apart from which files there are. -/
structure Disk where
  directory : Path → Bool
  /-- It cannot be removed. -/
  stuck : Path → Bool

/-- `_LINUX_UNIT`. -/
def linuxUnit : Path := components "/etc/systemd/system/oo-agent.service".toList

/-- `_LINUX_DIRS`. -/
def linuxDirs : List Path :=
  [components "/etc/oo-agent".toList, components "/var/lib/oo-agent".toList]

/-- The command that is on the path of the shell. -/
def launcher : Path := components "/usr/local/bin/oo-agent".toList

/-- What `os.remove(path)` wants removed. -/
def fileRemoval (disk : Disk) (file p : Path) : Bool := !disk.directory file && decide (p = file)

/-- What `shutil.rmtree(path)` wants removed. -/
def treeRemoval (disk : Disk) (root p : Path) : Bool := disk.directory root && root.isPrefixOf p

/-- What `rm -rf` wants removed. -/
def wholeRemoval (root p : Path) : Bool := root.isPrefixOf p

/-- Whether the user goes on: `--yes`, or what was typed, if anything could be. -/
inductive Confirmation where
  | assumed
  | typed (text : List Char)
  | closed

/-- The answer is a yes. -/
def Confirmation.confirmed : Confirmation → Bool
  | .assumed => true
  | .typed text => decide (lowerAscii (strip text) ∈ ["y".toList, "yes".toList])
  | .closed => false

/-- The machine, as far as the command sees it. -/
structure Machinery where
  disk : Disk
  /-- `sys.prefix`, an absolute path. -/
  pyPrefix : List Char
  absolute : pyPrefix.head? = some '/'
  /-- It is free of detours. -/
  direct : ∀ name ∈ components pyPrefix, name ≠ ".".toList ∧ name ≠ "..".toList
  /-- A quote would end the word that the shell of the detached removal reads. -/
  unquoted : '\'' ∉ pyPrefix
  /-- Whether the detached removal can be started. -/
  spawns : Bool

/-- What the command comes to. -/
structure Uninstalled where
  /-- The exit status, if it returns. -/
  exit : Option ℕ
  /-- The commands that were run. -/
  commands : List (List String)
  /-- The files and directories that are left in the end. -/
  entries : List Path

/-- The removals of the command itself. -/
def ownRemovals (disk : Disk) : List (Path → Bool) :=
  fileRemoval disk linuxUnit :: linuxDirs.map (treeRemoval disk) ++ [fileRemoval disk launcher]

/-- The detached removal: a shell reads the directory between the quotes as one word. -/
def detachedRemovals (m : Machinery) : List (Path → Bool) :=
  if m.spawns then
    ((installPrefix m.pyPrefix).map fun root => wholeRemoval (components root)).toList
  else []

/-- What is left after some removals. -/
def remaining (disk : Disk) (removals : List (Path → Bool)) (entries : List Path) : List Path :=
  removals.foldl (sweep (· <+: ·) disk.stuck) entries

/-- The exit status without a yes: `input` raises when there is nothing to read. -/
def Confirmation.declined : Confirmation → Option ℕ
  | .closed => none
  | _ => some 1

/-- `uninstall`. -/
def uninstall (answer : Confirmation) (m : Machinery) (entries : List Path) : Uninstalled :=
  if answer.confirmed then
    { exit := if (installPrefix m.pyPrefix).isSome && !m.spawns then none else some 0
      commands := [["systemctl", "disable", "--now", serviceName], ["systemctl", "daemon-reload"]]
      entries := remaining m.disk (detachedRemovals m)
        (remaining m.disk (ownRemovals m.disk) entries) }
  else ⟨answer.declined, [], entries⟩

/-! ## What is left -/

/-- What the command is to remove: the unit file and the launcher, and what is in the two
directories or in that of the installation. -/
def Own (m : Machinery) (p : Path) : Prop :=
  (∃ file ∈ [linuxUnit, launcher], m.disk.directory file = false ∧ p = file) ∨
  (∃ root ∈ linuxDirs, m.disk.directory root = true ∧ root <+: p) ∨
  (m.spawns = true ∧ ∃ root, installPrefix m.pyPrefix = some root ∧ components root <+: p)

variable {m : Machinery} {p : Path}

/-- **What is the agent's own has its name**, but for the unit file. -/
theorem ownName_mem_of_own (h : Own m p) : ownName ∈ p ∨ p = linuxUnit := by
  rcases h with ⟨file, hfile, -, rfl⟩ | ⟨root, hroot, -, hbelow⟩ | ⟨-, root, hroot, hbelow⟩
  · have hnames : ∀ file ∈ [linuxUnit, launcher], ownName ∈ file ∨ file = linuxUnit := by
      decide +kernel
    exact hnames p hfile
  · have hnames : ∀ root ∈ linuxDirs, ownName ∈ root := by decide +kernel
    exact .inl (hbelow.subset (hnames root hroot))
  · exact .inl (hbelow.subset (installPrefix_spec hroot).1)

theorem own_of_fileRemoval {files : List Path} {file : Path} (hfile : file ∈ files)
    (h : fileRemoval m.disk file p = true) :
    ∃ file ∈ files, m.disk.directory file = false ∧ p = file := by
  rw [fileRemoval, Bool.and_eq_true, Bool.not_eq_true', decide_eq_true_eq] at h
  exact ⟨file, hfile, h⟩

/-- The removals are those of what is the agent's own. -/
theorem own_iff : Own m p ↔ ∃ wanted ∈ ownRemovals m.disk ++ detachedRemovals m,
    wanted p = true := by
  constructor
  · rintro (⟨file, hfile, hplain, rfl⟩ | ⟨root, hroot, hdir, hbelow⟩ |
      ⟨hspawns, root, hroot, hbelow⟩)
    · have hwanted : fileRemoval m.disk p p = true := by
        rw [fileRemoval, hplain]
        exact decide_eq_true rfl
      refine ⟨fileRemoval m.disk p, List.mem_append_left _ ?_, hwanted⟩
      rcases List.mem_cons.1 hfile with rfl | hfile
      · exact List.mem_cons_self
      · rw [List.mem_singleton.1 hfile]
        exact List.mem_append_right _ (List.mem_singleton_self _)
    · have hwanted : treeRemoval m.disk root p = true := by
        rw [treeRemoval, hdir]
        exact List.isPrefixOf_iff_prefix.2 hbelow
      refine ⟨treeRemoval m.disk root, List.mem_append_left _ ?_, hwanted⟩
      exact List.mem_append_left _ (List.mem_cons_of_mem _ (List.mem_map_of_mem hroot))
    · refine ⟨wholeRemoval (components root), List.mem_append_right _ ?_, ?_⟩
      · rw [detachedRemovals, hspawns, hroot]
        exact List.mem_singleton_self _
      · exact List.isPrefixOf_iff_prefix.2 hbelow
  · rintro ⟨wanted, hmem, hwanted⟩
    rcases List.mem_append.1 hmem with hmem | hmem
    · rcases List.mem_append.1 hmem with hmem | hmem
      · rcases List.mem_cons.1 hmem with rfl | hmem
        · exact .inl (own_of_fileRemoval List.mem_cons_self hwanted)
        · obtain ⟨root, hroot, rfl⟩ := List.mem_map.1 hmem
          obtain ⟨hdir, hbelow⟩ := (Bool.and_eq_true _ _).mp hwanted
          exact .inr (.inl ⟨root, hroot, hdir, List.isPrefixOf_iff_prefix.1 hbelow⟩)
      · obtain rfl := List.mem_singleton.1 hmem
        exact .inl (own_of_fileRemoval (List.mem_cons_of_mem _ (List.mem_singleton_self _)) hwanted)
    · unfold detachedRemovals at hmem
      split at hmem
      · rename_i hspawns
        obtain ⟨root, hroot, rfl⟩ := Option.map_eq_some_iff.1 (Option.mem_toList.1 hmem)
        exact .inr (.inr ⟨hspawns, root, hroot, List.isPrefixOf_iff_prefix.1 hwanted⟩)
      · exact absurd hmem List.not_mem_nil

/-- What the removals leave. -/
theorem mem_remaining {entries : List Path} :
    p ∈ remaining m.disk (detachedRemovals m) (remaining m.disk (ownRemovals m.disk) entries) ↔
      p ∈ entries ∧ (¬ Own m p ∨ Held (· <+: ·) m.disk.stuck entries p) := by
  rw [remaining, remaining, ← List.foldl_append, mem_sweeps List.prefix_refl, own_iff]
  simp only [not_exists, not_and, Bool.not_eq_true]

/-- **Uninstalling removes what belongs to the agent and nothing else.**  Unless the answer is a yes
nothing happens; after one an entry is left exactly when it is not the agent's own or holds
something that cannot be removed; and what is the agent's own has its name, but for the unit
file. -/
theorem uninstall_removes_own (answer : Confirmation) (m : Machinery) (entries : List Path) :
    (answer.confirmed = false →
      (uninstall answer m entries).entries = entries ∧
      (uninstall answer m entries).commands = [] ∧
      (uninstall answer m entries).exit ≠ some 0) ∧
    (answer.confirmed = true → ∀ p, p ∈ (uninstall answer m entries).entries ↔
      p ∈ entries ∧ (¬ Own m p ∨ ∃ q ∈ entries, p <+: q ∧ m.disk.stuck q = true)) ∧
    ∀ p, Own m p → ownName ∈ p ∨ p = linuxUnit := by
  refine ⟨?_, ?_, fun p => ownName_mem_of_own⟩
  · intro hno
    rw [uninstall, hno]
    refine ⟨rfl, rfl, ?_⟩
    cases answer <;> simp [Confirmation.declined]
  · intro hyes p
    rw [uninstall, hyes]
    exact mem_remaining

/-- A machine with an installation of its own, where everything can be removed. -/
def sampleMachinery : Machinery where
  disk :=
    { directory := fun p => decide (p ∈ linuxDirs)
      stuck := fun _ => false }
  pyPrefix := "/opt/oo-agent/venv".toList
  absolute := by decide
  direct := by decide +kernel
  unquoted := by decide
  spawns := true

/-- The unit file goes, and the file of another service stays. -/
theorem uninstall_removes_own_sample :
    linuxUnit ∉ (uninstall .assumed sampleMachinery
        [linuxUnit, components "/etc/systemd/system/cron.service".toList]).entries ∧
      components "/etc/systemd/system/cron.service".toList ∈ (uninstall .assumed sampleMachinery
        [linuxUnit, components "/etc/systemd/system/cron.service".toList]).entries := by
  obtain ⟨-, hyes, hown⟩ := uninstall_removes_own .assumed sampleMachinery
    [linuxUnit, components "/etc/systemd/system/cron.service".toList]
  constructor
  · intro hleft
    rcases ((hyes rfl _).1 hleft).2 with hother | ⟨q, -, -, hstuck⟩
    · exact hother (.inl ⟨linuxUnit, List.mem_cons_self, by decide +kernel, rfl⟩)
    · exact absurd hstuck (by simp [sampleMachinery])
  · refine (hyes rfl _).2 ⟨by simp, .inl fun hmine => ?_⟩
    rcases hown _ hmine with h | h
    · exact absurd h (by decide +kernel)
    · exact absurd h (by decide +kernel)

end OoAgent
