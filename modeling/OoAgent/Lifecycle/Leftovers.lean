import OoAgent.Lifecycle.SelfUpdate

/-!
# What a failed update leaves behind

`self_update` returns 1 where it expects to fail, and removes its tarball in the `finally` of
the block that runs `pip`.  The tarball is created before that block, and the versions are
compared before any: a disk that fills up while the tarball is written leaves part of it
behind, and the exception leaves the function.

* `leftOver` — the temporary files a log leaves on disk.
* `Failed` — the points at which an update can fail.
* `failed_update_clean_iff` — **a failed update leaves nothing behind** exactly when the
  version can be read, the tarball is written to the end and removed again, and `pip` fails
  in a way that is expected.
-/

namespace OoAgent

/-! ## Temporary files -/

/-- The temporary files on disk after one more event. -/
def onDisk (files : List String) : UpdateEvent → List String
  | .created path => path :: files
  | .removed path => files.erase path
  | _ => files

/-- The temporary files a log leaves on disk. -/
def leftOver (log : List UpdateEvent) : List String := log.foldl onDisk []

@[simp] theorem leftOver_requested (url : String) (log : List UpdateEvent) :
    leftOver (.requested url :: log) = leftOver log := rfl

/-- The tarball is left when it cannot be removed. -/
theorem leftOver_pipEvents (path : String) (blob : List UInt8) (host : Host) :
    leftOver (pipEvents path blob host) = if host.removable then [] else [path] := by
  cases hremovable : host.removable <;> simp [pipEvents, hremovable, leftOver, onDisk]

/-- A failed update as it is to be: it returns 1, no tarball is left, and no restart is
scheduled. -/
structure LeavesNothing (u : Update) : Prop where
  returned : u.result = .returned 1
  removed : leftOver u.log = []
  unscheduled : ∀ command, .restart command ∉ u.log

/-- The points at which an update fails. -/
inductive Failed (manifest : Outcome) (download : Option Download) (host : Host) : Prop
  | manifest (unavailable : checkManifest manifest = none)
  | version (m : List (Key × Value)) (given : checkManifest manifest = some m)
      (unreadable : upToDate (latestOf m) = none)
  | download (m : List (Key × Value)) (given : checkManifest manifest = some m)
      (newer : upToDate (latestOf m) = some false) (failed : blobOf download = none)
  | digest (m : List (Key × Value)) (blob : List UInt8) (given : checkManifest manifest = some m)
      (newer : upToDate (latestOf m) = some false) (fetched : blobOf download = some blob)
      (mismatch : checksumOk m blob = false)
  | spool (m : List (Key × Value)) (blob : List UInt8) (cleared : Cleared manifest download m blob)
      (unready : host.spool.ready = false)
  | pip (m : List (Key × Value)) (blob : List UInt8) (cleared : Cleared manifest download m blob)
      (ready : host.spool.ready = true) (failed : host.pip ≠ .exited 0)

/-- The version of the manifest can be read; and the tarball that was cleared is written to
the end, `pip` does not raise what is not expected of it, and the tarball can be removed. -/
structure Tidied (manifest : Outcome) (download : Option Download) (host : Host) : Prop where
  readable : ∀ m, checkManifest manifest = some m → upToDate (latestOf m) ≠ none
  handled : ∀ m blob, Cleared manifest download m blob →
    host.spool.ready = true ∧ host.pip ≠ .raised ∧ host.removable = true

/-! ## The points of failure -/

section

variable {server : String} {restart : Bool} {manifest : Outcome} {download : Option Download}
  {host : Host} {m : List (Key × Value)} {blob : List UInt8}

/-- Once cleared, the rest of the update is the installation. -/
theorem selfUpdate_cleared (h : Cleared manifest download m blob) :
    selfUpdate server restart manifest download host =
      ⟨[.requested (siteBase server ++ manifestPath), .requested (tarballUrl server m)] ++
        (install restart blob host).log, (install restart blob host).result⟩ := by
  simp [selfUpdate, h.manifest, h.newer, fetchAndInstall, h.fetched, h.checksum]

/-- Nothing but requests is left by an update that returned 1 before it cleared anything. -/
theorem leavesNothing_requested {urls : List String} :
    LeavesNothing ⟨urls.map .requested, .returned 1⟩ where
  returned := rfl
  removed := by
    induction urls with
    | nil => rfl
    | cons url urls ih => exact ih
  unscheduled := by simp

/-- An update that clears nothing is tidied as soon as its version can be read. -/
theorem tidied_of_not_cleared (hread : ∀ m, checkManifest manifest = some m →
    upToDate (latestOf m) ≠ none) (hnone : ∀ m blob, ¬ Cleared manifest download m blob) :
    Tidied manifest download host :=
  ⟨hread, fun m blob h => absurd h (hnone m blob)⟩

/-- A cleared update is tidied when the rest of it is. -/
theorem tidied_iff_of_cleared (h : Cleared manifest download m blob) :
    Tidied manifest download host ↔
      host.spool.ready = true ∧ host.pip ≠ .raised ∧ host.removable = true := by
  refine ⟨fun ht => ht.handled m blob h, fun ht => ⟨fun m' hm' => ?_, fun _ _ _ => ht⟩⟩
  obtain rfl := Option.some.inj (h.manifest.symm.trans hm')
  rw [h.newer]
  simp

/-- An installation in which `pip` fails. -/
theorem install_of_pip_failed {path : String} (hspool : host.spool = .written path)
    (hfailed : host.pip ≠ .exited 0) :
    install restart blob host =
      ⟨pipEvents path blob host, if host.pip = .raised then .raised else .returned 1⟩ := by
  unfold install
  rw [hspool]
  cases hpip : host.pip with
  | raised => rfl
  | unavailable => rfl
  | exited returncode =>
    have hcode : returncode ≠ 0 := fun h => hfailed (h ▸ hpip)
    simp [hcode]

/-- Nothing is left of it when the failure is an expected one and the tarball can be
removed. -/
theorem leavesNothing_pip_iff (hc : Cleared manifest download m blob) {path : String}
    (hspool : host.spool = .written path) (hfailed : host.pip ≠ .exited 0) :
    LeavesNothing (selfUpdate server restart manifest download host) ↔
      host.pip ≠ .raised ∧ host.removable = true := by
  rw [selfUpdate_cleared hc, install_of_pip_failed hspool hfailed]
  constructor
  · rintro ⟨hreturned, hremoved, -⟩
    have hleft : leftOver (pipEvents path blob host) = [] := hremoved
    rw [leftOver_pipEvents] at hleft
    refine ⟨fun hraised => ?_, ?_⟩
    · exact absurd hreturned (by simp [hraised])
    · cases hremovable : host.removable with
      | true => rfl
      | false => exact absurd hleft (by simp [hremovable])
  · rintro ⟨hpip, hremovable⟩
    refine ⟨if_neg hpip, ?_, ?_⟩
    · exact (leftOver_pipEvents path blob host).trans (if_pos hremovable)
    · intro command hmem
      rcases List.mem_append.1 hmem with hmem | hmem
      · exact absurd hmem (by simp)
      · exact not_mem_restart_pipEvents hmem

end

/-- **A failed update leaves nothing behind** exactly when it is tidied. -/
theorem failed_update_clean_iff (server : String) (restart : Bool) {manifest : Outcome}
    {download : Option Download} {host : Host} (h : Failed manifest download host) :
    LeavesNothing (selfUpdate server restart manifest download host) ↔
      Tidied manifest download host := by
  cases h with
  | manifest unavailable =>
    refine iff_of_true ?_ (tidied_of_not_cleared ?_ ?_)
    · rw [selfUpdate, unavailable]
      exact @leavesNothing_requested [_]
    · exact fun m hm => absurd (unavailable.symm.trans hm) (by simp)
    · exact fun m blob hc => absurd (unavailable.symm.trans hc.manifest) (by simp)
  | version m given unreadable =>
    refine iff_of_false (fun hleaves => ?_) fun ht => ht.readable m given unreadable
    have hreturned := hleaves.returned
    simp [selfUpdate, given, unreadable] at hreturned
  | download m given newer failed =>
    refine iff_of_true ?_ (tidied_of_not_cleared ?_ ?_)
    · simp only [selfUpdate, given, newer, fetchAndInstall, failed]
      exact @leavesNothing_requested [_, _]
    · intro m' hm'
      rw [← Option.some.inj (given.symm.trans hm'), newer]
      simp
    · exact fun m' blob hc => absurd (failed.symm.trans hc.fetched) (by simp)
  | digest m blob given newer fetched mismatch =>
    refine iff_of_true ?_ (tidied_of_not_cleared ?_ ?_)
    · simp only [selfUpdate, given, newer, fetchAndInstall, fetched, mismatch]
      exact @leavesNothing_requested [_, _]
    · intro m' hm'
      rw [← Option.some.inj (given.symm.trans hm'), newer]
      simp
    · intro m' blob' hc
      have hsum := hc.checksum
      rw [← Option.some.inj (given.symm.trans hc.manifest),
        ← Option.some.inj (fetched.symm.trans hc.fetched), mismatch] at hsum
      exact absurd hsum (by simp)
  | spool m blob cleared unready =>
    rw [tidied_iff_of_cleared cleared]
    refine iff_of_false (fun hleaves => ?_) fun ht => absurd (unready.symm.trans ht.1) (by simp)
    have hreturned := hleaves.returned
    rw [selfUpdate_cleared cleared] at hreturned
    cases hspool : host.spool with
    | uncreated => simp [install, hspool] at hreturned
    | unwritten path => simp [install, hspool] at hreturned
    | written path => simp [hspool, Spool.ready] at unready
  | pip m blob cleared ready failed =>
    rw [tidied_iff_of_cleared cleared, and_iff_right ready]
    cases hspool : host.spool with
    | uncreated => simp [hspool, Spool.ready] at ready
    | unwritten path => simp [hspool, Spool.ready] at ready
    | written path => exact leavesNothing_pip_iff cleared hspool failed

theorem sampleManifest_cleared :
    Cleared (manifestReply sampleManifest) (some sampleDownload) sampleManifest [0x78] :=
  ⟨rfl, by decide, rfl, checksumOk_iff.2 (.inl (by decide))⟩

/-- `pip` fails. -/
theorem failed_update_clean_pip :
    LeavesNothing (selfUpdate "https://example.org" true (manifestReply sampleManifest)
      (some sampleDownload) { sampleHost with pip := .exited 1 }) :=
  (failed_update_clean_iff "https://example.org" true
    (.pip sampleManifest [0x78] sampleManifest_cleared rfl (by decide))).2
    ((tidied_iff_of_cleared sampleManifest_cleared).2 ⟨rfl, by decide, rfl⟩)

/-- **A full disk** leaves part of the tarball behind. -/
theorem full_disk_leaves_tarball :
    ¬ ∀ (server : String) (restart : Bool) (manifest : Outcome) (download : Option Download)
      (host : Host), Failed manifest download host →
      LeavesNothing (selfUpdate server restart manifest download host) := by
  intro h
  have hleaves := h "https://example.org" true (manifestReply sampleManifest) (some sampleDownload)
    { sampleHost with spool := .unwritten "/tmp/tmp1.tar.gz" }
    (.spool sampleManifest [0x78] sampleManifest_cleared rfl)
  have hremoved := hleaves.removed
  rw [selfUpdate_cleared sampleManifest_cleared] at hremoved
  exact absurd hremoved (by decide)

end OoAgent
