import OoAgent.Lifecycle.Version
import OoAgent.Python.Os
import OoAgent.Python.Sha256
import OoAgent.Python.Value

/-!
# The host

`agent_info` is the `agent` block of every payload.  The machine id is read with
`encoding="ascii"` and only `OSError` is handled, so that a file with any other byte makes it
raise.

* `machineId`, `agentInfo` — with what they meet on the host.
-/

namespace OoAgent

open PyOs (isAscii textOf)

/-- What `agent_info` asks the host for. -/
structure HostFacts where
  /-- `sys.platform`. -/
  sysPlatform : String
  /-- The bytes of the files of `_MACHINE_ID_PATHS`, `none` for an `OSError`. -/
  idFiles : List (Option (List UInt8))
  /-- `MachineGuid` of the registry, `none` for an `OSError`. -/
  machineGuid : Option String
  /-- `socket.gethostname()`. -/
  hostname : String
  /-- `platform.platform()`. -/
  osVersion : String
  /-- `platform.machine()`. -/
  arch : String

/-- The text of a machine id file, stripped. -/
def idText (bytes : List UInt8) : String :=
  String.ofList (PyText.strip (PyText.translateNewlines (textOf bytes).toList))

/-- The loop over `_MACHINE_ID_PATHS`: the first text that is not empty; the outer `none`
when a file is not ASCII. -/
def searchIds : List (Option (List UInt8)) → Option String
  | [] => some ""
  | none :: files => searchIds files
  | some bytes :: files =>
    if isAscii bytes then if idText bytes = "" then searchIds files else some (idText bytes)
    else none

/-- `raw` before the hostname stands in for it; `none` when reading it raises. -/
def rawId (host : HostFacts) : Option String :=
  if host.sysPlatform = "win32" then some (host.machineGuid.getD "") else searchIds host.idFiles

/-- `hashlib.sha256(text.encode()).hexdigest()[:32]`. -/
def fingerprintOf (text : String) : String :=
  String.ofList ((Sha256.hexdigest text.toUTF8.data.toList).toList.take 32)

/-- `_machine_id`. -/
def machineId (host : HostFacts) : Option String :=
  (rawId host).map fun raw =>
    fingerprintOf ((if raw = "" then host.hostname else raw) ++ "|" ++ host.hostname)

/-- `agent_info`; `none` when it raises. -/
def agentInfo (host : HostFacts) : Option Value :=
  (machineId host).map fun fingerprint =>
    .dict
      [(.str "version", .str version), (.str "fingerprint", .str fingerprint),
        (.str "hostname", .str host.hostname),
        (.str "os", .str (if host.sysPlatform = "win32" then "windows" else host.sysPlatform)),
        (.str "os_version", .str host.osVersion), (.str "arch", .str host.arch)]

end OoAgent
