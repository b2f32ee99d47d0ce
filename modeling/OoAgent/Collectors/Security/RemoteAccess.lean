import OoAgent.Collectors.Security.Ports

/-!
# No remote access daemon is missed

Every socket of a remote access daemon should show up under its own name, with the flag of its
own process, whatever the order of the sockets.

* `DaemonsReported` — what is promised of `remote_access_services(listening_ports())`.
* `serviceAt_eq_some` — when a service is reported on a port: the first name there decides.
* `remote_services_iff` — **the promise is kept** exactly when no other process with a name
  listens on the port of a daemon, and no other one makes it public.
-/

namespace OoAgent

/-! ## What is promised -/

/-- The sockets that listen. -/
def listenersOf (processName : ℕ → Option (List Char)) (conns : List SocketConn) :
    List Listener := conns.filterMap (listenerOf processName)

/-- `remote_access_services(listening_ports())`. -/
def exposedServices (processName : ℕ → Option (List Char)) (conns : List SocketConn) :
    List Service :=
  remoteAccessServices (listeningPorts { connections := some conns, processName := processName })

theorem exposedServices_eq (processName : ℕ → Option (List Char)) (conns : List SocketConn) :
    exposedServices processName conns = remoteServices (listenersOf processName conns) := rfl

/-- The process of a socket listens on its port at a wildcard address. -/
def OwnPublic (ls : List Listener) (l : Listener) : Prop :=
  ∃ l' ∈ ls, l'.port = l.port ∧ l'.pid = l.pid ∧ isWildcard l'.addr = true

/-- Every socket of a remote access daemon is reported with its port, its name and the flag of
its process, and the order of the connections does not matter. -/
def DaemonsReported (processName : ℕ → Option (List Char)) (conns : List SocketConn) : Prop :=
  (∀ l ∈ listenersOf processName conns, isRemoteAccess l.name = true →
    ∃ s ∈ exposedServices processName conns, s.port = l.port ∧ s.process = l.name ∧
      (s.isPublic = true ↔ OwnPublic (listenersOf processName conns) l)) ∧
  ∀ conns', conns'.Perm conns →
    exposedServices processName conns' = exposedServices processName conns

/-- A port that is worth a flag. -/
def isRisky (port : ℕ) : Bool := (riskyPorts.lookup port).isSome

/-! ## The service on a port -/

/-- Every hint is one of those `remote_access_services` looks for. -/
theorem contains_hint (port : ℕ) :
    ["telnet".toList, "rdp".toList, "vnc".toList, "ftp".toList].contains
      ((riskyPorts.lookup port).getD []) = isRisky port := by
  have hhints : ∀ item ∈ riskyPorts,
      ["telnet".toList, "rdp".toList, "vnc".toList, "ftp".toList].contains item.2 = true := by
    decide +kernel
  have hnone : ["telnet".toList, "rdp".toList, "vnc".toList, "ftp".toList].contains [] = false := by
    decide +kernel
  unfold isRisky
  cases hint : riskyPorts.lookup port with
  | none => exact hnone
  | some hint' =>
    obtain ⟨before, after, heq, -⟩ := List.lookup_eq_some_iff.1 hint
    have hmem : (port, hint') ∈ riskyPorts := by
      rw [heq]
      exact List.mem_append_right _ List.mem_cons_self
    exact hhints _ hmem

/-- **The service on a port**, from the names and addresses there. -/
theorem serviceAt_eq_some {ls : List Listener} {port : ℕ} {s : Service} :
    serviceAt ls port = some s ↔
      onPort ls port ≠ [] ∧
      (isRemoteAccess (firstName (onPort ls port)) || isRisky port) = true ∧
      s = { port := port
            process := if firstName (onPort ls port) = [] then (riskyPorts.lookup port).getD []
              else firstName (onPort ls port)
            isPublic := (onPort ls port).any fun l => isWildcard l.addr } := by
  unfold serviceAt
  cases hown : onPort ls port with
  | nil => simp [portEntry]
  | cons l rest =>
    have hport : l.port = port := by
      have hl : l ∈ onPort ls port := hown ▸ List.mem_cons_self
      exact of_decide_eq_true (List.mem_filter.1 hl).2
    have hhint := contains_hint port
    rw [portEntry, Option.bind_some, remoteServiceOf, withHint]
    dsimp only
    rw [hport, hhint, Option.ite_none_right_eq_some]
    constructor
    · rintro ⟨hremote, hs⟩
      exact ⟨List.cons_ne_nil _ _, hremote, (Option.some.inj hs).symm⟩
    · rintro ⟨-, hremote, hs⟩
      exact ⟨hremote, by rw [hs]⟩

/-! ## The first name on a port -/

theorem firstName_cons_of_ne {l : Listener} (ls : List Listener) (h : l.name ≠ []) :
    firstName (l :: ls) = l.name := by
  have happend := firstName_append [l] ls
  rwa [firstName_singleton, if_neg h] at happend

theorem firstName_eq_nil_iff {ls : List Listener} :
    firstName ls = [] ↔ ∀ l ∈ ls, l.name = [] := by
  induction ls with
  | nil => simp [firstName]
  | cons l ls ih =>
    have happend := firstName_append [l] ls
    rw [firstName_singleton, List.singleton_append] at happend
    rw [happend, List.forall_mem_cons, ← ih]
    by_cases hname : l.name = [] <;> simp [hname]

theorem exists_of_firstName {ls : List Listener} (h : firstName ls ≠ []) :
    ∃ l ∈ ls, l.name = firstName ls := by
  unfold firstName at h ⊢
  cases hfind : ls.find? fun l => l.name ≠ [] with
  | none =>
    rw [hfind] at h
    exact absurd rfl h
  | some l => exact ⟨l, List.mem_of_find?_eq_some hfind, rfl⟩

theorem mem_onPort {ls : List Listener} {port : ℕ} {l : Listener} :
    l ∈ onPort ls port ↔ l ∈ ls ∧ l.port = port := by
  rw [onPort, List.mem_filter, decide_eq_true_iff]

theorem isRemoteAccess_nil : isRemoteAccess [] = false := by decide +kernel

theorem name_ne_nil {l : Listener} (h : isRemoteAccess l.name = true) : l.name ≠ [] := by
  intro hnil
  rw [hnil, isRemoteAccess_nil] at h
  cases h

/-- Any socket may come first. -/
theorem exists_perm_first {processName : ℕ → Option (List Char)} {conns : List SocketConn}
    {l : Listener} (h : l ∈ listenersOf processName conns) :
    ∃ conns', conns'.Perm conns ∧ ∃ rest, listenersOf processName conns' = l :: rest := by
  obtain ⟨conn, hconn, hl⟩ := List.mem_filterMap.1 h
  obtain ⟨before, after, rfl⟩ := List.append_of_mem hconn
  refine ⟨conn :: (before ++ after), List.perm_middle.symm, ?_⟩
  exact ⟨listenersOf processName (before ++ after), List.filterMap_cons_some hl⟩

/-! ## When the promise is kept -/

/-- The processes that have a name and listen on the port of a daemon, or on a port that is worth a
flag, have the same one. -/
def OneName (ls : List Listener) : Prop :=
  ∀ l ∈ ls, ∀ l' ∈ ls, l'.port = l.port → l.name ≠ [] → l'.name ≠ [] →
    (isRemoteAccess l.name || isRisky l.port) = true → l'.name = l.name

/-- A port of a daemon that is open at a wildcard address is so for that daemon's process. -/
def OwnFlags (ls : List Listener) : Prop :=
  ∀ l ∈ ls, isRemoteAccess l.name = true →
    ∀ l' ∈ ls, l'.port = l.port → isWildcard l'.addr = true → OwnPublic ls l

section

variable {processName : ℕ → Option (List Char)} {conns : List SocketConn}

theorem mem_exposedServices {s : Service} :
    s ∈ exposedServices processName conns ↔
      serviceAt (listenersOf processName conns) s.port = some s :=
  mem_services_iff

/-- If any order gives the same services, a daemon shares its port with no other name. -/
theorem oneName_of_reported (h : DaemonsReported processName conns) :
    OneName (listenersOf processName conns) := by
  intro l hl l' hl' hport hname hname' hremote
  obtain ⟨first, hfirst, rest, hrest⟩ := exists_perm_first hl
  obtain ⟨first', hfirst', rest', hrest'⟩ := exists_perm_first hl'
  have hsame := (h.2 first hfirst).trans (h.2 first' hfirst').symm
  rw [exposedServices_eq, exposedServices_eq] at hsame
  have hat := services_eq_iff.1 hsame l.port
  have hown : firstName (onPort (listenersOf processName first) l.port) = l.name := by
    rw [hrest, onPort, List.filter_cons_of_pos (by simp)]
    exact firstName_cons_of_ne _ hname
  have hown' : firstName (onPort (listenersOf processName first') l.port) = l'.name := by
    rw [hrest', onPort, List.filter_cons_of_pos (by simpa using hport)]
    exact firstName_cons_of_ne _ hname'
  have hne : onPort (listenersOf processName first) l.port ≠ [] := by
    refine List.ne_nil_of_mem (mem_onPort.2 ⟨?_, rfl⟩)
    rw [hrest]
    exact List.mem_cons_self
  have hs := serviceAt_eq_some.2 ⟨hne, by rwa [hown], rfl⟩
  rw [hown, if_neg hname] at hs
  obtain ⟨-, -, heq⟩ := serviceAt_eq_some.1 (hat.symm.trans hs)
  rw [hown', if_neg hname'] at heq
  exact (congrArg Service.process heq).symm

/-- If the flags are those of the processes, the port of a daemon is public by its own one. -/
theorem ownFlags_of_reported (h : DaemonsReported processName conns) :
    OwnFlags (listenersOf processName conns) := by
  intro l hl hremote l' hl' hport hwild
  obtain ⟨s, hs, hsport, -, hpublic⟩ := h.1 l hl hremote
  obtain ⟨-, -, heq⟩ := serviceAt_eq_some.1 (mem_exposedServices.1 hs)
  refine hpublic.1 ?_
  rw [heq]
  refine List.any_eq_true.2 ⟨l', mem_onPort.2 ⟨hl', ?_⟩, hwild⟩
  rw [hport, hsport]

/-- Two orders have the same first name on a port, or neither is one of a daemon. -/
theorem firstName_perm {ls ls' : List Listener} (hperm : ls'.Perm ls) (hone : OneName ls)
    (port : ℕ) :
    firstName (onPort ls' port) = firstName (onPort ls port) ∨
      (isRemoteAccess (firstName (onPort ls' port)) || isRisky port) = false ∧
      (isRemoteAccess (firstName (onPort ls port)) || isRisky port) = false := by
  have hown : (onPort ls' port).Perm (onPort ls port) := hperm.filter _
  by_cases hnil : firstName (onPort ls port) = []
  · left
    rw [hnil]
    exact firstName_eq_nil_iff.2 fun l hl =>
      firstName_eq_nil_iff.1 hnil l (hown.mem_iff.1 hl)
  · have hnil' : firstName (onPort ls' port) ≠ [] := by
      intro hnil'
      refine hnil (firstName_eq_nil_iff.2 fun l hl => ?_)
      exact firstName_eq_nil_iff.1 hnil' l (hown.mem_iff.2 hl)
    obtain ⟨l, hl, hname⟩ := exists_of_firstName hnil
    obtain ⟨l', hl', hname'⟩ := exists_of_firstName hnil'
    obtain ⟨hmem, rfl⟩ := mem_onPort.1 hl
    obtain ⟨hmem', hport⟩ := mem_onPort.1 (hown.mem_iff.1 hl')
    rw [← hname] at hnil ⊢
    rw [← hname'] at hnil' ⊢
    cases hremote : isRemoteAccess l.name || isRisky l.port with
    | true => exact .inl (hone l hmem l' hmem' hport hnil hnil' hremote)
    | false =>
      cases hremote' : isRemoteAccess l'.name || isRisky l.port with
      | true =>
        rw [← hport] at hremote'
        exact .inl (hone l' hmem' l hmem hport.symm hnil' hnil hremote').symm
      | false => exact .inr ⟨rfl, rfl⟩

/-- The order does not matter where a daemon shares its port with no other name. -/
theorem exposedServices_perm {conns' : List SocketConn} (hperm : conns'.Perm conns)
    (hone : OneName (listenersOf processName conns)) :
    exposedServices processName conns' = exposedServices processName conns := by
  rw [exposedServices_eq, exposedServices_eq, services_eq_iff]
  intro port
  have hls : (listenersOf processName conns').Perm (listenersOf processName conns) :=
    hperm.filterMap _
  have hown : (onPort (listenersOf processName conns') port).Perm
      (onPort (listenersOf processName conns) port) := hls.filter _
  have hnil : onPort (listenersOf processName conns') port = [] ↔
      onPort (listenersOf processName conns) port = [] := by
    constructor
    · intro hnil
      rw [hnil] at hown
      exact hown.nil_eq.symm
    · intro hnil
      rw [hnil] at hown
      exact hown.eq_nil
  have hpublic : ((onPort (listenersOf processName conns') port).any fun l => isWildcard l.addr) =
      (onPort (listenersOf processName conns) port).any fun l => isWildcard l.addr :=
    hown.any_eq
  ext s
  rw [serviceAt_eq_some, serviceAt_eq_some, ne_eq, hnil, hpublic]
  rcases firstName_perm hls hone port with hname | ⟨hremote', hremote⟩
  · rw [hname]
  · rw [hremote', hremote]
    simp

/-- A daemon that shares its port with no other name, and is public by its own process, is
reported. -/
theorem exists_service {l : Listener} (hl : l ∈ listenersOf processName conns)
    (hremote : isRemoteAccess l.name = true) (hone : OneName (listenersOf processName conns))
    (hflags : OwnFlags (listenersOf processName conns)) :
    ∃ s ∈ exposedServices processName conns, s.port = l.port ∧ s.process = l.name ∧
      (s.isPublic = true ↔ OwnPublic (listenersOf processName conns) l) := by
  have hown : l ∈ onPort (listenersOf processName conns) l.port := mem_onPort.2 ⟨hl, rfl⟩
  have hname : firstName (onPort (listenersOf processName conns) l.port) = l.name := by
    have hne : firstName (onPort (listenersOf processName conns) l.port) ≠ [] := fun hnil =>
      name_ne_nil hremote (firstName_eq_nil_iff.1 hnil l hown)
    obtain ⟨l', hl', hname'⟩ := exists_of_firstName hne
    obtain ⟨hmem', hport⟩ := mem_onPort.1 hl'
    rw [← hname'] at hne ⊢
    exact hone l hl l' hmem' hport (name_ne_nil hremote) hne (by rw [hremote, Bool.true_or])
  have hs := serviceAt_eq_some.2
    ⟨List.ne_nil_of_mem hown, by rw [hname, hremote, Bool.true_or], rfl⟩
  rw [hname, if_neg (name_ne_nil hremote)] at hs
  obtain ⟨s, hservice, hport, hprocess, hpublic⟩ :
      ∃ s, serviceAt (listenersOf processName conns) l.port = some s ∧ s.port = l.port ∧
        s.process = l.name ∧ s.isPublic =
          (onPort (listenersOf processName conns) l.port).any fun l => isWildcard l.addr :=
    ⟨_, hs, rfl, rfl, rfl⟩
  refine ⟨s, mem_exposedServices.2 (by rwa [hport]), hport, hprocess, ?_⟩
  rw [hpublic, List.any_eq_true]
  constructor
  · rintro ⟨l', hl', hwild⟩
    obtain ⟨hmem', hport'⟩ := mem_onPort.1 hl'
    exact hflags l hl hremote l' hmem' hport' hwild
  · rintro ⟨l', hmem', hport', -, hwild⟩
    exact ⟨l', mem_onPort.2 ⟨hmem', hport'⟩, hwild⟩

end

/-- **No remote access daemon is missed**, for any connections in any order, exactly when no other
name listens on the port of a daemon and no other process makes it public. -/
theorem remote_services_iff (processName : ℕ → Option (List Char)) (conns : List SocketConn) :
    DaemonsReported processName conns ↔
    OneName (listenersOf processName conns) ∧ OwnFlags (listenersOf processName conns) := by
  constructor
  · intro h
    exact ⟨oneName_of_reported h, ownFlags_of_reported h⟩
  · rintro ⟨hone, hflags⟩
    refine ⟨fun l hl hremote => exists_service hl hremote hone hflags, ?_⟩
    intro conns' hperm
    exact exposedServices_perm hperm hone

/-- A proxy and an SSH daemon. -/
def sampleProcess : ℕ → Option (List Char)
  | 10 => some "haproxy".toList
  | 20 => some "sshd".toList
  | _ => none

/-- **A daemon behind another process** on its port is missed. -/
theorem daemon_on_shared_port_is_missed :
    ¬ ∀ (processName : ℕ → Option (List Char)) (conns : List SocketConn),
      DaemonsReported processName conns := by
  intro h
  have hreported := (h sampleProcess
    [{ status := "LISTEN", laddr := some ("127.0.0.1".toList, 2222), pid := some 10 },
      { status := "LISTEN", laddr := some ("0.0.0.0".toList, 2222), pid := some 20 }]).1
    { port := 2222, addr := "0.0.0.0".toList, pid := some 20, name := "sshd".toList }
    (List.mem_of_getElem? (i := 1) rfl) (by decide +kernel)
  obtain ⟨s, hs, -⟩ := hreported
  have hnone : exposedServices sampleProcess
      [{ status := "LISTEN", laddr := some ("127.0.0.1".toList, 2222), pid := some 10 },
        { status := "LISTEN", laddr := some ("0.0.0.0".toList, 2222), pid := some 20 }] = [] := by
    decide +kernel
  rw [hnone] at hs
  cases hs

end OoAgent
