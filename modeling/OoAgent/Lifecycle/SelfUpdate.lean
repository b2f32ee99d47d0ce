import OoAgent.Lifecycle.Version
import OoAgent.Python.Sha256
import OoAgent.Transport.Http

/-!
# The self-update

`self_update` fetches a manifest, compares versions, downloads a tarball, checks
its digest, spools it to a temporary file, runs `pip install` on that file and
schedules a restart.  The digest is checked only when the manifest gives one.

* `selfUpdate` — one update, with everything it does in its log.
* `mem_pip_selfUpdate` — **the inversion lemma**: what must have happened before
  `pip` ran.
* `verified_installation_iff` — **only verified bytes are installed**, exactly when
  the manifest gives a digest; `installed_of_makeManifest` — the manifests of the
  release tooling do.
-/

namespace OoAgent

/-! ## The manifest -/

/-- `MANIFEST_PATH`. -/
def manifestPath : String := "/dl/agent.json"

/-- `SERVICE_NAME`. -/
def serviceName : String := "oo-agent"

/-- `_site_base`: the server without trailing slashes and without a final `/api`. -/
def siteBase (server : String) : String :=
  let base := PyText.rstripSlash server.toList
  String.ofList (if "/api".toList <:+ base then base.dropLast.dropLast.dropLast.dropLast else base)

/-- `check_manifest`, on what the request for it came to. -/
def checkManifest : Outcome → Option (List (Key × Value))
  | .exception => none
  | .response r =>
    if r.status.code ≠ 200 then none
    else
      match r.json with
      | some (.dict m) => if (Value.getD m "agent_version" .none).truthy then some m else none
      | _ => none

/-- `latest`. -/
def latestOf (m : List (Key × Value)) : String := (Value.getD m "agent_version" .none).toStr

/-- Where the tarball is downloaded from. -/
def tarballUrl (server : String) (m : List (Key × Value)) : String :=
  ((Value.getD m "url" .none).orElse (.str (siteBase server ++ "/dl/oo-agent.tar.gz"))).toStr

/-- `expected_sha`. -/
def expectedSha (m : List (Key × Value)) : String :=
  String.ofList (PyText.lowerAscii ((Value.getD m "sha256" .none).orElse (.str "")).toStr.toList)

/-- `make_manifest`, before it is dumped as JSON. -/
def makeManifest (tarball : List UInt8) (version baseUrl : String) : List (Key × Value) :=
  [(.str "agent_version", .str version),
    (.str "url", .str (String.ofList (PyText.rstripSlash baseUrl.toList) ++ "/dl/oo-agent.tar.gz")),
    (.str "sha256", .str (Sha256.hexdigest tarball))]

/-! ## The update -/

/-- The response to the download, redirects followed. -/
structure Download where
  status : Status
  content : List UInt8

/-- The temporary file: it cannot be created, cannot be written to the end, or holds
the tarball. -/
inductive Spool where
  | uncreated
  | unwritten (path : String)
  | written (path : String)

/-- What running `pip` came to. -/
inductive Pip where
  | exited (returncode : Int)
  /-- `OSError` or `TimeoutExpired`. -/
  | unavailable
  /-- Any other exception. -/
  | raised
  deriving DecidableEq

/-- The machine the agent runs on, as far as one update sees it. -/
structure Host where
  win32 : Bool
  spool : Spool
  pip : Pip
  /-- Whether the tarball can be removed again. -/
  removable : Bool
  /-- Whether the detached restart command can be started. -/
  spawns : Bool

/-- One thing an update did. -/
inductive UpdateEvent where
  | requested (url : String)
  /-- The temporary file was created. -/
  | created (path : String)
  /-- `pip install` was run on a file with this content. -/
  | pip (content : List UInt8) (result : Pip)
  | removed (path : String)
  /-- A detached restart command was started. -/
  | restart (command : String)

/-- How a call of `self_update` ended. -/
inductive UpdateResult where
  | returned (code : Nat)
  | raised
  deriving DecidableEq

/-- One call of `self_update`. -/
structure Update where
  log : List UpdateEvent
  result : UpdateResult

/-- The command `_detached` is given. -/
def restartCommand (win32 : Bool) : String :=
  if win32 then "Restart-Service " ++ serviceName
  else "sleep 1; systemctl restart " ++ serviceName

/-- The events up to the removal of the tarball. -/
def pipEvents (path : String) (blob : List UInt8) (host : Host) : List UpdateEvent :=
  [.created path, .pip blob host.pip] ++ if host.removable then [.removed path] else []

/-- What `self_update` does with the bytes it downloaded. -/
def install (restart : Bool) (blob : List UInt8) (host : Host) : Update :=
  match host.spool with
  | .uncreated => ⟨[], .raised⟩
  | .unwritten path => ⟨[.created path], .raised⟩
  | .written path =>
    match host.pip with
    | .raised => ⟨pipEvents path blob host, .raised⟩
    | .unavailable => ⟨pipEvents path blob host, .returned 1⟩
    | .exited returncode =>
      if returncode ≠ 0 then ⟨pipEvents path blob host, .returned 1⟩
      else if !restart then ⟨pipEvents path blob host, .returned 0⟩
      else if host.spawns then
        ⟨pipEvents path blob host ++ [.restart (restartCommand host.win32)], .returned 0⟩
      else ⟨pipEvents path blob host, .raised⟩

/-- The digest test: it is skipped when the manifest gives no digest. -/
def checksumOk (m : List (Key × Value)) (blob : List UInt8) : Bool :=
  if expectedSha m ≠ "" then decide (Sha256.hexdigest blob = expectedSha m) else true

/-- The downloaded bytes; `none` when the download failed. -/
def blobOf : Option Download → Option (List UInt8)
  | none => none
  | some d => if d.status.code ≠ 200 then none else some d.content

/-- What `self_update` does once it has a newer version to go to. -/
def fetchAndInstall (restart : Bool) (m : List (Key × Value)) (download : Option Download)
    (host : Host) : Update :=
  match blobOf download with
  | none => ⟨[], .returned 1⟩
  | some blob => if checksumOk m blob then install restart blob host else ⟨[], .returned 1⟩

/-- `self_update`. -/
def selfUpdate (server : String) (restart : Bool) (manifest : Outcome)
    (download : Option Download) (host : Host) : Update :=
  let asked := [.requested (siteBase server ++ manifestPath)]
  match checkManifest manifest with
  | none => ⟨asked, .returned 1⟩
  | some m =>
    match upToDate (latestOf m) with
    | none => ⟨asked, .raised⟩
    | some true => ⟨asked, .returned 0⟩
    | some false =>
      let u := fetchAndInstall restart m download host
      ⟨asked ++ [.requested (tarballUrl server m)] ++ u.log, u.result⟩

/-! ## What the log shows -/

/-- The temporary file holds the tarball. -/
def Spool.ready : Spool → Bool
  | .written _ => true
  | _ => false

/-- `pip` runs once the tarball is spooled, on exactly those bytes. -/
theorem mem_pip_install {restart : Bool} {blob content : List UInt8} {host : Host} {result : Pip} :
    .pip content result ∈ (install restart blob host).log ↔
      host.spool.ready = true ∧ content = blob ∧ result = host.pip := by
  have hevents : ∀ path, .pip content result ∈ pipEvents path blob host ↔
      content = blob ∧ result = host.pip := by
    intro path
    cases h : host.removable <;> simp [pipEvents, h]
  unfold install
  cases host.spool with
  | uncreated => simp [Spool.ready]
  | unwritten path => simp [Spool.ready]
  | written path =>
    simp only [Spool.ready, true_and]
    split
    · exact hevents path
    · exact hevents path
    · split_ifs
      · exact hevents path
      · exact hevents path
      · simp [hevents]
      · exact hevents path

theorem not_mem_restart_pipEvents {path command : String} {blob : List UInt8} {host : Host} :
    .restart command ∉ pipEvents path blob host := by
  cases hrem : host.removable <;> simp [pipEvents, hrem]

/-- An event that closes a list and is not in the rest of it stands nowhere else. -/
theorem eq_of_concat_eq {α : Type*} {pre before after : List α} {e : α}
    (h : pre ++ [e] = before ++ e :: after) (hpre : e ∉ pre) : before = pre := by
  rcases List.eq_nil_or_concat after with rfl | ⟨rest, last, rfl⟩
  · exact (List.append_inj_left' h rfl).symm
  · have hcut : pre ++ [e] = (before ++ e :: rest) ++ [last] := by simpa using h
    have hsplit : pre = before ++ e :: rest := List.append_inj_left' hcut rfl
    exact absurd (by simp [hsplit]) hpre

/-- A restart is the last thing an installation does, and only once `pip` succeeded. -/
theorem mem_restart_install {restart : Bool} {blob : List UInt8} {host : Host} {command : String}
    (h : .restart command ∈ (install restart blob host).log) :
    host.pip = .exited 0 ∧
      ∃ path, (install restart blob host).log = pipEvents path blob host ++ [.restart command] := by
  unfold install at h ⊢
  cases hspool : host.spool with
  | uncreated => simp [hspool] at h
  | unwritten path => simp [hspool] at h
  | written path =>
    cases hpip : host.pip with
    | raised =>
      simp only [hspool, hpip] at h
      exact absurd h not_mem_restart_pipEvents
    | unavailable =>
      simp only [hspool, hpip] at h
      exact absurd h not_mem_restart_pipEvents
    | exited returncode =>
      simp only [hspool, hpip] at h ⊢
      split_ifs at h ⊢ with hcode hrestart hspawns
      · exact absurd h not_mem_restart_pipEvents
      · exact absurd h not_mem_restart_pipEvents
      · obtain rfl : returncode = 0 := by simpa using hcode
        rcases List.mem_append.1 h with hmem | hmem
        · exact absurd hmem not_mem_restart_pipEvents
        · obtain rfl := UpdateEvent.restart.inj (List.mem_singleton.1 hmem)
          exact ⟨rfl, path, rfl⟩
      · exact absurd h not_mem_restart_pipEvents

/-- The update got as far as installing these bytes under this manifest. -/
structure Cleared (manifest : Outcome) (download : Option Download) (m : List (Key × Value))
    (blob : List UInt8) : Prop where
  manifest : checkManifest manifest = some m
  newer : upToDate (latestOf m) = some false
  fetched : blobOf download = some blob
  checksum : checksumOk m blob = true

/-- **What an update comes to**: an installation of the bytes that were cleared, after
the two requests, or requests alone. -/
theorem log_selfUpdate (server : String) (restart : Bool) (manifest : Outcome)
    (download : Option Download) (host : Host) :
    (∃ m blob, Cleared manifest download m blob ∧
        (selfUpdate server restart manifest download host).log =
          [.requested (siteBase server ++ manifestPath), .requested (tarballUrl server m)] ++
            (install restart blob host).log) ∨
      (∀ m blob, ¬ Cleared manifest download m blob) ∧
        ∀ e ∈ (selfUpdate server restart manifest download host).log,
          ∃ url, e = .requested url := by
  unfold selfUpdate
  cases hm : checkManifest manifest with
  | none =>
    refine .inr ⟨?_, by simp⟩
    rintro m blob ⟨hm', -, -, -⟩
    exact absurd (hm.symm.trans hm') (by simp)
  | some m =>
    have huniq : ∀ m' blob, Cleared manifest download m' blob →
        Cleared manifest download m blob := by
      rintro m' blob hc
      obtain rfl := Option.some.inj (hm.symm.trans hc.manifest)
      exact hc
    cases hnew : upToDate (latestOf m) with
    | none =>
      refine .inr ⟨?_, by simp [hnew]⟩
      intro m' blob hc
      exact absurd (hnew.symm.trans (huniq m' blob hc).newer) (by simp)
    | some old =>
      cases old with
      | true =>
        refine .inr ⟨?_, by simp [hnew]⟩
        intro m' blob hc
        exact absurd (hnew.symm.trans (huniq m' blob hc).newer) (by simp)
      | false =>
        cases hblob : blobOf download with
        | none =>
          refine .inr ⟨?_, by simp [hnew, fetchAndInstall, hblob]⟩
          intro m' blob hc
          exact absurd (hblob.symm.trans hc.fetched) (by simp)
        | some blob =>
          by_cases hsum : checksumOk m blob = true
          · refine .inl ⟨m, blob, ⟨hm, hnew, hblob, hsum⟩, ?_⟩
            simp [hnew, fetchAndInstall, hblob, hsum]
          · refine .inr ⟨?_, by simp [hnew, fetchAndInstall, hblob, hsum]⟩
            intro m' blob' hc
            obtain rfl := Option.some.inj (hblob.symm.trans hc.fetched)
            exact hsum (huniq m' blob hc).checksum

/-- **The inversion lemma.**  `pip` runs exactly on the bytes that were cleared, once
they are spooled. -/
theorem mem_pip_selfUpdate {server : String} {restart : Bool} {manifest : Outcome}
    {download : Option Download} {host : Host} {content : List UInt8} {result : Pip} :
    .pip content result ∈ (selfUpdate server restart manifest download host).log ↔
      (∃ m, Cleared manifest download m content) ∧ host.spool.ready = true ∧
        result = host.pip := by
  rcases log_selfUpdate server restart manifest download host with
    ⟨m, blob, hc, hlog⟩ | ⟨hnone, hrequests⟩
  · rw [hlog]
    simp only [List.mem_append, List.mem_cons, List.not_mem_nil, reduceCtorEq, or_self, false_or,
      mem_pip_install]
    constructor
    · rintro ⟨hready, rfl, rfl⟩
      exact ⟨⟨m, hc⟩, hready, rfl⟩
    · rintro ⟨⟨m', hc'⟩, hready, rfl⟩
      exact ⟨hready, Option.some.inj (hc'.fetched.symm.trans hc.fetched), rfl⟩
  · constructor
    · intro h
      obtain ⟨url, hurl⟩ := hrequests _ h
      exact absurd hurl (by simp)
    · rintro ⟨⟨m, hc⟩, -⟩
      exact absurd hc (hnone m content)

/-- In the log of an update a restart comes after a successful run of `pip`. -/
theorem pip_before_restart {server : String} {restart : Bool} {manifest : Outcome}
    {download : Option Download} {host : Host} {before after : List UpdateEvent}
    {command : String}
    (h : (selfUpdate server restart manifest download host).log =
      before ++ .restart command :: after) :
    ∃ content, .pip content (.exited 0) ∈ before := by
  have hmem : .restart command ∈ (selfUpdate server restart manifest download host).log := by
    rw [h]
    simp
  rcases log_selfUpdate server restart manifest download host with
    ⟨m, blob, hc, hlog⟩ | ⟨-, hrequests⟩
  · rw [hlog] at h hmem
    have hinstall : .restart command ∈ (install restart blob host).log := by simpa using hmem
    obtain ⟨hpip, path, hevents⟩ := mem_restart_install hinstall
    have hpre : UpdateEvent.restart command ∉
        [.requested (siteBase server ++ manifestPath), .requested (tarballUrl server m)] ++
          pipEvents path blob host := by
      simp [not_mem_restart_pipEvents]
    rw [hevents, ← List.append_assoc] at h
    refine ⟨blob, ?_⟩
    rw [eq_of_concat_eq h hpre]
    simp [pipEvents, hpip]
  · obtain ⟨url, hurl⟩ := hrequests _ hmem
    exact absurd hurl (by simp)

/-! ## Verified installation -/

/-- The digest the manifest gives, in lower case; a false value is no digest. -/
def digestOf (m : List (Key × Value)) : Option String :=
  let given := Value.getD m "sha256" .none
  if given.truthy then some (String.ofList (PyText.lowerAscii given.toStr.toList)) else none

/-- `pip` ran only on downloaded bytes that have the digest of a newer manifest, and a
restart came only after it succeeded. -/
structure VerifiedOnly (manifest : Outcome) (download : Option Download)
    (log : List UpdateEvent) : Prop where
  installed : ∀ content result, .pip content result ∈ log →
    ∃ m d, checkManifest manifest = some m ∧ upToDate (latestOf m) = some false ∧
      download = some d ∧ d.status.code = 200 ∧ d.content = content ∧
      digestOf m = some (Sha256.hexdigest content)
  restarted : ∀ before command after, log = before ++ .restart command :: after →
    ∃ content, .pip content (.exited 0) ∈ before

/-- Nothing but the digest stands between this manifest and `pip`. -/
def Ready (manifest : Outcome) (download : Option Download) (host : Host)
    (m : List (Key × Value)) : Prop :=
  checkManifest manifest = some m ∧ upToDate (latestOf m) = some false ∧
    (blobOf download).isSome = true ∧ host.spool.ready = true

theorem expectedSha_eq (m : List (Key × Value)) : expectedSha m = (digestOf m).getD "" := by
  unfold expectedSha digestOf Value.orElse
  cases hgiven : (Value.getD m "sha256" .none).truthy with
  | false => simp [hgiven, Value.toStr, PyText.lowerAscii]
  | true => simp [hgiven]

/-- A digest that is given is not empty. -/
theorem digestOf_ne_empty {m : List (Key × Value)} : digestOf m ≠ some "" := by
  unfold digestOf
  generalize Value.getD m "sha256" .none = given
  intro h
  by_cases htruthy : given.truthy = true
  · simp only [htruthy, if_true, Option.some.injEq] at h
    have hempty : given.toStr = "" := by
      apply String.toList_inj.1
      simpa [PyText.lowerAscii] using congrArg String.toList h
    rw [Value.toStr_eq_empty_iff.1 hempty] at htruthy
    exact absurd htruthy (by decide)
  · simp [htruthy] at h

/-- The digest test passes on the right digest, and on anything when there is none. -/
theorem checksumOk_iff {m : List (Key × Value)} {blob : List UInt8} :
    checksumOk m blob = true ↔ digestOf m = none ∨ digestOf m = some (Sha256.hexdigest blob) := by
  unfold checksumOk
  rw [expectedSha_eq]
  cases hdigest : digestOf m with
  | none => simp
  | some s =>
    have hs : s ≠ "" := fun h => digestOf_ne_empty (m := m) (by rw [hdigest, h])
    simp [hs, eq_comm]

theorem blobOf_eq_some {download : Option Download} {blob : List UInt8} :
    blobOf download = some blob ↔
      ∃ d, download = some d ∧ d.status.code = 200 ∧ d.content = blob := by
  cases download with
  | none => simp [blobOf]
  | some d => by_cases h : d.status.code = 200 <;> simp [blobOf, h]

/-- **Verified installation only**, exactly when the manifest of an update that gets as
far as `pip` gives a digest. -/
theorem verified_installation_iff (server : String) (restart : Bool) (manifest : Outcome)
    (download : Option Download) (host : Host) :
    VerifiedOnly manifest download (selfUpdate server restart manifest download host).log ↔
      ∀ m, Ready manifest download host m → (Value.getD m "sha256" .none).truthy = true := by
  constructor
  · rintro ⟨hinstalled, -⟩ m ⟨hm, hnew, hfetched, hready⟩
    by_contra hnot
    have hdigest : digestOf m = none := by simp [digestOf, hnot]
    obtain ⟨blob, hblob⟩ := Option.isSome_iff_exists.1 hfetched
    have hcleared : Cleared manifest download m blob :=
      ⟨hm, hnew, hblob, checksumOk_iff.2 (.inl hdigest)⟩
    obtain ⟨m', -, hm', -, -, -, -, hdigest'⟩ :=
      hinstalled blob host.pip (mem_pip_selfUpdate.2 ⟨⟨m, hcleared⟩, hready, rfl⟩)
    obtain rfl := Option.some.inj (hm.symm.trans hm')
    exact absurd (hdigest.symm.trans hdigest') (by simp)
  · intro hgiven
    refine ⟨?_, fun before command after h => pip_before_restart h⟩
    intro content result hpip
    obtain ⟨⟨m, hc⟩, hready, -⟩ := mem_pip_selfUpdate.1 hpip
    have htruthy := hgiven m ⟨hc.manifest, hc.newer, by simp [hc.fetched], hready⟩
    obtain ⟨d, hd, hstatus, hcontent⟩ := blobOf_eq_some.1 hc.fetched
    rcases checksumOk_iff.1 hc.checksum with hnone | hdigest
    · simp [digestOf, htruthy] at hnone
    · exact ⟨m, d, hc.manifest, hc.newer, hd, hstatus, hcontent, hdigest⟩

/-- A newer manifest without a digest. -/
def sampleManifest : List (Key × Value) := [(.str "agent_version", .str "9.9.9")]

/-- The reply that serves a manifest. -/
def manifestReply (m : List (Key × Value)) : Outcome :=
  .response { status := .ok, text := "", json := some (.dict m) }

/-- A download that went well. -/
def sampleDownload : Download := { status := .ok, content := [0x78] }

/-- A host on which everything works. -/
def sampleHost : Host :=
  { win32 := false, spool := .written "/tmp/tmp1.tar.gz", pip := .exited 0, removable := true
    spawns := true }

/-- **An unverified installation**: a newer manifest without a digest. -/
theorem missing_digest_installs_anything :
    ¬ VerifiedOnly (manifestReply sampleManifest) (some sampleDownload)
      (selfUpdate "https://example.org" true (manifestReply sampleManifest) (some sampleDownload)
        sampleHost).log := by
  rintro ⟨hinstalled, -⟩
  have hnone : digestOf sampleManifest = none := by decide
  have hcleared :
      Cleared (manifestReply sampleManifest) (some sampleDownload) sampleManifest [0x78] :=
    ⟨rfl, by decide, rfl, checksumOk_iff.2 (.inl hnone)⟩
  obtain ⟨m, d, hm, -, -, -, -, hdigest⟩ :=
    hinstalled [0x78] (.exited 0) (mem_pip_selfUpdate.2 ⟨⟨_, hcleared⟩, rfl, rfl⟩)
  obtain rfl : sampleManifest = m := Option.some.inj hm
  exact absurd (hnone.symm.trans hdigest) (by simp)

/-! ## The manifests of the release tooling -/

theorem digestOf_makeManifest (tarball : List UInt8) (version baseUrl : String) :
    digestOf (makeManifest tarball version baseUrl) = some (Sha256.hexdigest tarball) := by
  have hgiven : Value.getD (makeManifest tarball version baseUrl) "sha256" .none =
      .str (Sha256.hexdigest tarball) := rfl
  have hne : Sha256.hexdigest tarball ≠ "" := by
    intro hempty
    have hlen := Sha256.length_hexdigest tarball
    rw [hempty] at hlen
    exact absurd hlen (by decide)
  simp [digestOf, hgiven, Value.truthy, Value.toStr, Sha256.lower_hexdigest, hne]

/-- **The manifests of the release tooling are verified**: an update to what
`make_manifest` wrote installs only bytes with the digest of its tarball. -/
theorem installed_of_makeManifest {tarball content : List UInt8} {version baseUrl : String}
    {server : String} {restart : Bool} {download : Option Download} {host : Host} {result : Pip}
    (h : .pip content result ∈ (selfUpdate server restart
      (manifestReply (makeManifest tarball version baseUrl)) download host).log) :
    Sha256.hexdigest content = Sha256.hexdigest tarball := by
  obtain ⟨⟨m, hc⟩, -⟩ := mem_pip_selfUpdate.1 h
  have hm : makeManifest tarball version baseUrl = m := by
    have hmanifest := hc.manifest
    simp only [manifestReply, checkManifest, Status.ok, ne_eq, not_true_eq_false, if_false]
      at hmanifest
    split at hmanifest
    · exact Option.some.inj hmanifest
    · exact absurd hmanifest (by simp)
  subst hm
  rcases checksumOk_iff.1 hc.checksum with hnone | hdigest
  · exact absurd ((digestOf_makeManifest tarball version baseUrl).symm.trans hnone) (by simp)
  · exact Option.some.inj (hdigest.symm.trans (digestOf_makeManifest tarball version baseUrl))

end OoAgent
