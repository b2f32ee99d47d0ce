import OoAgent.Lib.Dict

/-!
# Listening ports and remote access

`listening_ports` makes one entry of all sockets that listen on a port; `remote_access_services`
picks the entries of remote access daemons.

* `SocketConn`, `PsutilHost` — what `psutil` says.
* `listeningPorts`, `remoteAccessServices` — the two functions.
* `serviceAt` — the service on a port, from the sockets that listen there.
* `mem_services_iff`, `services_eq_iff` — **the services** are those on the ports.
-/

namespace OoAgent

/-! ## What psutil says -/

/-- A connection of `psutil.net_connections`. -/
structure SocketConn where
  status : String
  /-- `conn.laddr`: the IP and the port. -/
  laddr : Option (List Char × ℕ)
  pid : Option ℕ

/-- The calls of `listening_ports`. -/
structure PsutilHost where
  /-- `psutil.net_connections(kind="inet")`; `none` for a `psutil.Error`. -/
  connections : Option (List SocketConn)
  /-- `psutil.Process(pid).name()`, which is asked once for each process; `none` for a
  `psutil.Error`. -/
  processName : ℕ → Option (List Char)

/-! ## The patterns -/

/-- The letter that a character stands for under `re.IGNORECASE`. -/
def foldLetter (c : Char) : Char :=
  if c.toNat = 304 ∨ c.toNat = 305 then 'i'
  else if c.toNat = 383 then 's'
  else if c.toNat = 8490 then 'k'
  else c.toLower

/-- The alternatives of `_REMOTE_ACCESS`. -/
def remoteAccessWords : List (List Char) :=
  ["sshd".toList, "dropbear".toList, "telnetd".toList, "vsftpd".toList, "proftpd".toList,
    "pure-ftpd".toList, "xrdp".toList, "vnc".toList, "x11vnc".toList, "tigervnc".toList,
    "teamviewer".toList, "anydesk".toList, "rustdesk".toList]

/-- `_REMOTE_ACCESS.search(name)`. -/
def isRemoteAccess (name : List Char) : Bool :=
  remoteAccessWords.any fun word => word <:+: name.map foldLetter

/-- `_RISKY_PORTS`. -/
def riskyPorts : List (ℕ × List Char) :=
  [(23, "telnet".toList), (21, "ftp".toList), (3389, "rdp".toList), (5900, "vnc".toList)]

/-- `addr in ("0.0.0.0", "::", "")`. -/
def isWildcard (addr : List Char) : Bool :=
  ["0.0.0.0".toList, "::".toList, []].contains addr

/-! ## Listening ports -/

/-- A listening socket, and the name of its process. -/
structure Listener where
  port : ℕ
  addr : List Char
  pid : Option ℕ
  name : List Char

/-- The name of the process of a socket; empty when it is unknown. -/
def ownerName (processName : ℕ → Option (List Char)) : Option ℕ → List Char
  | none | some 0 => []
  | some pid => (processName pid).getD []

/-- What `listening_ports` takes from a connection, if that is a listening socket. -/
def listenerOf (processName : ℕ → Option (List Char)) (conn : SocketConn) : Option Listener :=
  if conn.status ≠ "LISTEN" then none
  else conn.laddr.map fun (ip, port) =>
    { port := port, addr := ip, pid := conn.pid, name := ownerName processName conn.pid }

/-- An entry of `listening_ports`. -/
structure PortEntry where
  proto : String
  port : ℕ
  process : List Char
  addr : List Char
  isPublic : Bool
  serviceHint : Option (List Char)
  deriving DecidableEq

/-- The entry of a port, with one more socket. -/
def joinEntry : Option PortEntry → Listener → PortEntry
  | none, l =>
    { proto := "tcp", port := l.port, process := l.name, addr := l.addr,
      isPublic := isWildcard l.addr, serviceHint := none }
  | some e, l =>
    { e with
      isPublic := e.isPublic || isWildcard l.addr
      process := if l.name ≠ [] ∧ e.process = [] then l.name else e.process }

/-- `entries`, behind the loop of `listening_ports`. -/
def portEntries (listeners : List Listener) : Dict (String × ℕ) PortEntry :=
  Dict.gather (fun l => ("tcp", l.port)) joinEntry listeners

/-- The entry with the hint of its port. -/
def withHint (e : PortEntry) : PortEntry := { e with serviceHint := riskyPorts.lookup e.port }

/-- `listening_ports`. -/
def listeningPorts (host : PsutilHost) : List PortEntry :=
  match host.connections with
  | none => []
  | some conns =>
    (((portEntries (conns.filterMap (listenerOf host.processName))).map
      Prod.snd).insertionSort fun e e' => e.port ≤ e'.port).map withHint

/-! ## Remote access services -/

/-- A service of `remote_access_services`. -/
structure Service where
  port : ℕ
  process : List Char
  isPublic : Bool
  deriving DecidableEq

/-- The service of an entry, if it is one. -/
def remoteServiceOf (e : PortEntry) : Option Service :=
  let hint := e.serviceHint.getD []
  if isRemoteAccess e.process ||
      ["telnet".toList, "rdp".toList, "vnc".toList, "ftp".toList].contains hint then
    some { port := e.port, process := if e.process = [] then hint else e.process,
           isPublic := e.isPublic }
  else none

/-- `remote_access_services`. -/
def remoteAccessServices (ports : List PortEntry) : List Service := ports.filterMap remoteServiceOf

/-! ## One service for each port -/

/-- The first name that is known. -/
def firstName (listeners : List Listener) : List Char :=
  ((listeners.find? fun l => l.name ≠ []).map Listener.name).getD []

/-- The entry of sockets that listen on one port. -/
def portEntry : List Listener → Option PortEntry
  | [] => none
  | l :: ls => some
      { proto := "tcp", port := l.port, process := firstName (l :: ls), addr := l.addr,
        isPublic := (l :: ls).any fun l => isWildcard l.addr, serviceHint := none }

/-- The sockets that listen on a port. -/
def onPort (listeners : List Listener) (port : ℕ) : List Listener :=
  listeners.filter fun l => l.port = port

/-- The service on a port. -/
def serviceAt (listeners : List Listener) (port : ℕ) : Option Service :=
  (portEntry (onPort listeners port)).bind fun e => remoteServiceOf (withHint e)

theorem firstName_append (ls ls' : List Listener) :
    firstName (ls ++ ls') = if firstName ls = [] then firstName ls' else firstName ls := by
  unfold firstName
  rw [List.find?_append]
  cases hfind : ls.find? fun l => l.name ≠ [] with
  | none => rfl
  | some l =>
    have hname : l.name ≠ [] := by simpa using List.find?_some hfind
    rw [Option.some_or, Option.map_some, Option.getD_some, if_neg hname]

theorem firstName_singleton (l : Listener) : firstName [l] = l.name := by
  unfold firstName
  by_cases hname : l.name = [] <;> simp [hname]

/-- **The entry of a port** is that of its sockets together. -/
theorem foldl_joinEntry (ls : List Listener) :
    ls.foldl (fun e l => some (joinEntry e l)) none = portEntry ls := by
  induction ls using List.reverseRecOn with
  | nil => rfl
  | append_singleton ls l ih =>
    rw [List.foldl_append, ih]
    cases ls with
    | nil =>
      show some (joinEntry none l) = portEntry [l]
      simp [joinEntry, portEntry, firstName_singleton]
    | cons l' ls =>
      show some (joinEntry (portEntry (l' :: ls)) l) = portEntry (l' :: (ls ++ [l]))
      have hname := firstName_append (l' :: ls) [l]
      rw [firstName_singleton, List.cons_append] at hname
      have hpublic : ((l' :: (ls ++ [l])).any fun l => isWildcard l.addr) =
          (((l' :: ls).any fun l => isWildcard l.addr) || isWildcard l.addr) := by
        rw [← List.cons_append, List.any_append]
        simp
      unfold portEntry
      dsimp only
      rw [hname, hpublic]
      by_cases hfirst : firstName (l' :: ls) = []
      · by_cases hl : l.name = [] <;> simp [joinEntry, hfirst, hl]
      · simp [joinEntry, hfirst]

/-- The value under a key of `entries`. -/
theorem get_portEntries (ls : List Listener) (port : ℕ) :
    (portEntries ls).get ("tcp", port) = portEntry (onPort ls port) := by
  rw [portEntries, Dict.get_gather, foldl_joinEntry]
  simp [onPort]

theorem port_of_portEntry {ls : List Listener} {port : ℕ} {e : PortEntry}
    (h : portEntry (onPort ls port) = some e) : e.port = port := by
  cases hown : onPort ls port with
  | nil =>
    rw [hown] at h
    cases h
  | cons l rest =>
    have hl : l ∈ onPort ls port := hown ▸ List.mem_cons_self
    rw [hown] at h
    rw [← Option.some.inj h]
    exact of_decide_eq_true (List.mem_filter.1 hl).2

/-- The items of `entries` are the entries of the ports. -/
theorem mem_portEntries_iff {ls : List Listener} {item : (String × ℕ) × PortEntry} :
    item ∈ portEntries ls ↔
      item.1 = ("tcp", item.2.port) ∧ portEntry (onPort ls item.2.port) = some item.2 := by
  obtain ⟨⟨proto, port⟩, e⟩ := item
  constructor
  · intro h
    have hget : (portEntries ls).get (proto, port) = some e :=
      Dict.get_of_mem (Dict.nodup_gather ls) h
    have hproto : proto = "tcp" := by
      rw [portEntries, Dict.get_gather] at hget
      cases hown : ls.filter fun l => ("tcp", l.port) = (proto, port) with
      | nil =>
        rw [hown] at hget
        cases hget
      | cons l rest =>
        have hl : l ∈ ls.filter fun l => ("tcp", l.port) = (proto, port) :=
          hown ▸ List.mem_cons_self
        exact (Prod.mk.inj (of_decide_eq_true (List.mem_filter.1 hl).2)).1.symm
    subst hproto
    rw [get_portEntries] at hget
    obtain rfl := port_of_portEntry hget
    exact ⟨rfl, hget⟩
  · rintro ⟨hkey, hentry⟩
    rw [← get_portEntries, ← hkey] at hentry
    exact Dict.mem_of_get hentry

/-- `remote_access_services(listening_ports())` for these sockets. -/
def remoteServices (ls : List Listener) : List Service :=
  remoteAccessServices ((((portEntries ls).map Prod.snd).insertionSort
    fun e e' => e.port ≤ e'.port).map withHint)

theorem port_of_remoteServiceOf {e : PortEntry} {s : Service}
    (h : remoteServiceOf (withHint e) = some s) :
    s.port = e.port := by
  unfold remoteServiceOf at h
  dsimp only at h
  rw [Option.ite_none_right_eq_some] at h
  rw [← Option.some.inj h.2]
  rfl

theorem port_of_serviceAt {ls : List Listener} {port : ℕ} {s : Service}
    (h : serviceAt ls port = some s) : s.port = port := by
  obtain ⟨e, he, hs⟩ := Option.bind_eq_some_iff.1 h
  rw [port_of_remoteServiceOf hs, port_of_portEntry he]

/-- **The services** are those on the ports. -/
theorem mem_services_iff {ls : List Listener} {s : Service} :
    s ∈ remoteServices ls ↔ serviceAt ls s.port = some s := by
  unfold remoteServices remoteAccessServices serviceAt
  rw [List.mem_filterMap, Option.bind_eq_some_iff]
  constructor
  · rintro ⟨e', he', hs⟩
    obtain ⟨e, he, rfl⟩ := List.mem_map.1 he'
    obtain ⟨item, hitem, rfl⟩ :=
      List.mem_map.1 ((List.perm_insertionSort _ _).mem_iff.1 he)
    rw [port_of_remoteServiceOf hs]
    exact ⟨item.2, (mem_portEntries_iff.1 hitem).2, hs⟩
  · rintro ⟨e, he, hs⟩
    refine ⟨withHint e, List.mem_map_of_mem ?_, hs⟩
    refine (List.perm_insertionSort _ _).mem_iff.2 (List.mem_map.2 ⟨(("tcp", e.port), e), ?_, rfl⟩)
    have hport := port_of_remoteServiceOf hs
    rw [hport] at he
    exact mem_portEntries_iff.2 ⟨rfl, he⟩

/-- The services come in the order of their ports. -/
theorem pairwise_remoteServices (ls : List Listener) :
    (remoteServices ls).Pairwise fun s s' => s.port < s'.port := by
  have hle := List.pairwise_insertionSort (fun e e' : PortEntry => e.port ≤ e'.port)
    ((portEntries ls).map Prod.snd)
  have hports : (((portEntries ls).map Prod.snd).map PortEntry.port).Nodup := by
    have hkeys : ((portEntries ls).map Prod.fst).Nodup := Dict.nodup_gather ls
    have hmap : (portEntries ls).map Prod.fst =
        (((portEntries ls).map Prod.snd).map PortEntry.port).map fun port => ("tcp", port) := by
      rw [List.map_map, List.map_map]
      exact List.map_congr_left fun item hitem => (mem_portEntries_iff.1 hitem).1
    rw [hmap] at hkeys
    exact hkeys.of_map _
  have hne := ((List.perm_insertionSort (fun e e' : PortEntry => e.port ≤ e'.port) _).map
    PortEntry.port).nodup_iff.2 hports
  rw [List.Nodup, List.pairwise_map] at hne
  unfold remoteServices remoteAccessServices
  rw [List.pairwise_filterMap, List.pairwise_map]
  refine (hle.and hne).imp fun {e e'} hlt s hs s' hs' => ?_
  rw [port_of_remoteServiceOf hs, port_of_remoteServiceOf hs']
  exact lt_of_le_of_ne hlt.1 hlt.2

/-- **The services of two lists of sockets** are the same exactly when those on each port are. -/
theorem services_eq_iff {ls ls' : List Listener} :
    remoteServices ls = remoteServices ls' ↔ ∀ port, serviceAt ls port = serviceAt ls' port := by
  constructor
  · intro h port
    ext s
    have hmem {ls : List Listener} : serviceAt ls port = some s ↔
        s.port = port ∧ s ∈ remoteServices ls := by
      rw [mem_services_iff]
      constructor
      · intro hs
        obtain rfl := port_of_serviceAt hs
        exact ⟨rfl, hs⟩
      · rintro ⟨rfl, hs⟩
        exact hs
    rw [hmem, hmem, h]
  · intro h
    have hirrefl : Std.Irrefl fun s s' : Service => s.port < s'.port := ⟨fun s => lt_irrefl s.port⟩
    have hasymm : Std.Antisymm fun s s' : Service => s.port < s'.port :=
      ⟨fun s s' hlt hlt' => absurd hlt (lt_asymm hlt')⟩
    refine (pairwise_remoteServices ls).eq_of_mem_iff (pairwise_remoteServices ls') fun s => ?_
    rw [mem_services_iff, mem_services_iff, h]

end OoAgent
