import SorobanDevkit.Core.FetchAll

/-!
# What a consistent report says

`verify_dependencies` of `sdkt-core/src/lock.rs` reports a lock as consistent when it finds no
drift. It compares a commit or a tree only where git can read the checkout, it does not compare the
integrity of local dependencies, of entries with one name it looks at the last, and the message
about a commit slices ids at a byte. `publish_plan` of `sdkt-core/src/package.rs` rests on the
report.

## Main results

* `verifyReading_consistent_iff` — when a report is consistent.
* `sound_report_iff` — when a report is made and is right.
* `publishPlan_ready_iff` — when a package is ready to be published.
-/

namespace SorobanDevkit.Core

open Strings NameIndex

section Outcome

variable (reading : CacheReading) (fs : FileSystem) (base : String) (config : DevKitConfig)

/-- The message about the commit of a dependency slices an id inside a character. -/
def messagePanics (lock : LockFile) (name : String) (dep : Dependency) : Bool :=
  match lockedEntry lock name with
  | none => false
  | some entry =>
    dep.git.isSome ∧ entry.source = "git" ∧ entry.commitSha ≠ "" ∧
      reading.present (gitCacheKey dep) = true ∧ headDiffers reading dep entry ∧
      (splitsCharacter (gitHeadCommit reading (gitCacheKey dep)) ∨ splitsCharacter entry.commitSha)

/-- `verify_dependencies` on what `read_lock` gives: the report, or none when it panics. -/
def verifyOutcome (lock : Option LockFile) : Option DepVerifyReport :=
  if lock.any fun l => config.dependencies.entries.any fun e => messagePanics reading l e.1 e.2 then
    none
  else some (verifyReading reading fs base config lock)

/-! ### Publishing -/

/-- `PublishReadiness`. -/
structure PublishReadiness where
  ready : Bool
  checks : List (String × Bool × String)

/-- The detail of a drift in `publish_plan`. -/
def driftDetail (m : DepMismatch) : String :=
  m.name ++ match m.kind with
    | .cacheMissing => ": cache checkout missing"
    | .integrityMismatch => ": integrity mismatch"
    | .commitMismatch => ": commit mismatch"
    | .referenceChanged => ": reference changed"
    | .sourceChanged => ": source changed"
    | .missingInLock => ": missing in lock"
    | .notInManifest => ": not in manifest"
    | .pathMissing => ": local path missing"

/-- The check of the manifest in `publish_plan`. -/
def manifestCheck (valid : Except PackageError Unit) : String × Bool × String :=
  match valid with
  | .ok () => ("manifest-valid", true, "manifest validated")
  | .error e => ("manifest-valid", false, "manifest invalid: " ++ e.text)

/-- The checks of `publish_plan` on a report. -/
def reportChecks (report : DepVerifyReport) : List (String × Bool × String) :=
  [("lock-present", report.present, if report.present then "sdkt.lock present"
    else "sdkt.lock missing"),
    ("lock-consistent", report.consistent,
      if report.consistent then "lock consistent with manifest + cache"
      else toString report.mismatches.length ++ " drift(s) detected")] ++
  report.mismatches.map fun m => ("dep:" ++ m.name, false, driftDetail m)

/-- `publish_plan`, or none when the report panics. -/
def publishPlan (semver : Semver) (scan : Rearrangement String) (lock : Option LockFile) :
    Option PublishReadiness :=
  (verifyOutcome reading fs base config lock).map fun report =>
    let checks := manifestCheck (validateManifest semver fs scan base config) :: reportChecks report
    { ready := checks.all fun c => c.2.1, checks }

/-! ### What a report should say -/

/-- The locked dependency is what is on disk: a locked commit is that of a checkout, with the locked
integrity, and a local dependency exists, with the locked integrity. -/
structure Undrifted (dep : Dependency) (entry : DependencyLock) : Prop where
  commit : dep.git.isSome → entry.commitSha ≠ "" → reading.present (gitCacheKey dep) = true ∧
    gitHeadCommit reading (gitCacheKey dep) = entry.commitSha
  path : dep.git = none → fs.pathExists (joinPath base (dep.path.getD "")) = true
  integrity : (dep.git.isSome → entry.commitSha ≠ "") → entry.integrity ≠ "" →
    computeDependencyIntegrity reading fs base dep = entry.integrity

/-- Git reads the checkout of a dependency, if there is one. -/
def Readable (dep : Dependency) : Prop :=
  dep.git.isSome → reading.present (gitCacheKey dep) = true →
    gitHeadCommit reading (gitCacheKey dep) ≠ ""

/-- The lock and the manifest have the same dependencies, each locked one is what is on disk, and
git reads every checkout. -/
structure NothingDrifted (lock : LockFile) : Prop where
  names : ∀ name, name ∈ lock.dependencies.map DependencyLock.name ↔ name ∈ config.dependencies.keys
  undrifted : ∀ name dep entry, (name, dep) ∈ config.dependencies.entries →
    entry ∈ lock.dependencies → entry.name = name → Undrifted reading fs base dep entry
  readable : ∀ name dep, (name, dep) ∈ config.dependencies.entries → Readable reading dep

/-- A report is made, and it says that the lock is consistent only if nothing has drifted. -/
def SoundReport (lock : Option LockFile) : Prop :=
  ∃ report, verifyOutcome reading fs base config lock = some report ∧
    (report.consistent = true → ∃ l, lock = some l ∧ NothingDrifted reading fs base config l)

/-! ### What the checker compares -/

/-- What the checker compares of an entry agrees with the manifest and the disk. -/
inductive DepAgrees (dep : Dependency) (entry : DependencyLock) : Prop
  | git (url : String) (hgit : dep.git = some url) (hsource : entry.source = "git")
      (hurl : entry.gitUrl = url) (hreference : entry.resolvedReference = dep.reference.getD "")
      (hcheckout : entry.commitSha ≠ "" → reading.present (gitCacheKey dep) = true ∧
        (gitHeadCommit reading (gitCacheKey dep) ≠ "" →
          gitHeadCommit reading (gitCacheKey dep) = entry.commitSha) ∧
        (entry.integrity ≠ "" → computeDependencyIntegrity reading fs base dep ≠ "" →
          computeDependencyIntegrity reading fs base dep = entry.integrity))
  | path (hgit : dep.git = none) (hsource : entry.source ≠ "git")
      (horiginal : entry.originalSource = joinPath base (dep.path.getD ""))
      (hexists : fs.pathExists (joinPath base (dep.path.getD "")) = true)

/-- What the checker compares of a lock agrees with the manifest and the disk. -/
structure Agrees (lock : LockFile) : Prop where
  recorded : ∀ e ∈ config.dependencies.entries, ∃ entry, lockedEntry lock e.1 = some entry ∧
    DepAgrees reading fs base e.2 entry
  declared : ∀ d ∈ lock.dependencies, d.name ∈ config.dependencies.keys

/-- What the checker passes over of a dependency agrees, too: git reads its checkout, and the tree
where one is compared, a local dependency has its locked integrity, and the entries of its name that
are hidden by the last one are what is on disk. -/
structure PassedOver (lock : LockFile) (name : String) (dep : Dependency) : Prop where
  head : Readable reading dep
  tree : ∀ entry, lockedEntry lock name = some entry → dep.git.isSome → entry.commitSha ≠ "" →
    entry.integrity ≠ "" → computeDependencyIntegrity reading fs base dep ≠ ""
  files : ∀ entry, lockedEntry lock name = some entry → dep.git = none → entry.integrity ≠ "" →
    computeDependencyIntegrity reading fs base dep = entry.integrity
  hidden : ∀ entry ∈ lock.dependencies, entry.name = name → lockedEntry lock name ≠ some entry →
    Undrifted reading fs base dep entry

variable {reading fs base config}

theorem localMismatches_eq_nil_iff {name : String} {dep : Dependency} {entry : DependencyLock} :
    localMismatches fs base name dep entry = [] ↔
      entry.originalSource = joinPath base (dep.path.getD "") ∧
        fs.pathExists (joinPath base (dep.path.getD "")) = true := by
  rw [localMismatches]
  by_cases horiginal : entry.originalSource = joinPath base (dep.path.getD "")
  · cases hexists : fs.pathExists (joinPath base (dep.path.getD "")) with
    | false => simp [horiginal]
    | true => simp [horiginal]
  · simp [horiginal]

theorem mem_of_lockedEntry {lock : LockFile} {name : String} {entry : DependencyLock}
    (h : lockedEntry lock name = some entry) : entry ∈ lock.dependencies ∧ entry.name = name :=
  ⟨List.mem_reverse.mp (List.mem_of_find?_eq_some h), by simpa using List.find?_some h⟩

/-- A dependency has no mismatch exactly when what is compared of its entry agrees. -/
theorem depMismatches_eq_nil_iff {lock : LockFile} {name : String} {dep : Dependency} :
    depMismatches reading fs base lock name dep = [] ↔
      ∃ entry, lockedEntry lock name = some entry ∧ DepAgrees reading fs base dep entry := by
  rw [depMismatches]
  cases lockedEntry lock name with
  | none => simp
  | some entry =>
    simp only [Option.some.injEq, exists_eq_left']
    cases hgit : dep.git with
    | some url =>
      by_cases hsource : entry.source = "git"
      · simp only [hsource, Option.isSome_some, beq_self_eq_true, ne_eq,
          not_true_eq_false, if_false,
          gitMismatches_eq_nil_iff, cacheMismatches_eq_nil_iff]
        constructor
        · rintro ⟨hurl, hreference, hcheckout⟩
          exact .git url hgit hsource hurl hreference hcheckout
        · rintro (⟨url', hgit', -, hurl, hreference, hcheckout⟩ | ⟨hnone, -, -, -⟩)
          · obtain rfl := Option.some.inj (hgit.symm.trans hgit')
            exact ⟨hurl, hreference, hcheckout⟩
          · cases hgit.symm.trans hnone
      · refine iff_of_false (by simp [hsource]) ?_
        rintro (⟨-, -, hsource', -⟩ | ⟨hnone, -, -, -⟩)
        · exact hsource hsource'
        · cases hgit.symm.trans hnone
    | none =>
      by_cases hsource : entry.source = "git"
      · refine iff_of_false (by simp [hsource]) ?_
        rintro (⟨url, hsome, -⟩ | ⟨-, hsource', -, -⟩)
        · cases hgit.symm.trans hsome
        · exact hsource' hsource
      · have hkind : ¬((none : Option String).isSome ≠ (entry.source == "git")) := by
          simp [hsource]
        rw [if_neg hkind, localMismatches_eq_nil_iff]
        constructor
        · rintro ⟨horiginal, hexists⟩
          exact .path hgit hsource horiginal hexists
        · rintro (⟨url, hsome, -⟩ | ⟨-, -, horiginal, hexists⟩)
          · cases hgit.symm.trans hsome
          · exact ⟨horiginal, hexists⟩

/-- **A report is consistent exactly when what the checker compares agrees.** -/
theorem verifyReading_consistent_iff {lock : Option LockFile} :
    (verifyReading reading fs base config lock).consistent = true ↔
      ∃ l, lock = some l ∧ Agrees reading fs base config l := by
  cases lock with
  | none => simp [verifyReading]
  | some lock =>
    simp only [verifyReading, List.isEmpty_iff, List.append_eq_nil_iff, List.flatMap_eq_nil_iff,
      List.map_eq_nil_iff, List.filter_eq_nil_iff, decide_eq_true_eq, not_not, Option.some.injEq,
      exists_eq_left', depMismatches_eq_nil_iff]
    exact ⟨fun h => ⟨h.1, h.2⟩, fun h => ⟨h.1, h.2⟩⟩

/-- Where the last entry of a dependency agrees, every entry of its name is what is on disk, and git
reads the checkout, exactly if what is passed over agrees. -/
theorem passedOver_iff {lock : LockFile} {name : String} {dep : Dependency}
    {entry : DependencyLock} (hentry : lockedEntry lock name = some entry)
    (h : DepAgrees reading fs base dep entry) :
    PassedOver reading fs base lock name dep ↔ Readable reading dep ∧
      ∀ entry ∈ lock.dependencies, entry.name = name → Undrifted reading fs base dep entry := by
  constructor
  · intro hpassed
    refine ⟨hpassed.head, fun other hother hname => ?_⟩
    by_cases hlast : lockedEntry lock name = some other
    · obtain rfl := Option.some.inj (hentry.symm.trans hlast)
      cases h with
      | git url hgit hsource hurl hreference hcheckout =>
        have hsome : dep.git.isSome := by simp [hgit]
        refine ⟨fun _ hcommit => ?_, fun hnone => ?_, fun hcommit hintegrity => ?_⟩
        · obtain ⟨hpresent, hhead, -⟩ := hcheckout hcommit
          exact ⟨hpresent, hhead (hpassed.head hsome hpresent)⟩
        · cases hgit.symm.trans hnone
        · obtain ⟨-, -, htree⟩ := hcheckout (hcommit hsome)
          exact htree hintegrity (hpassed.tree entry hentry hsome (hcommit hsome) hintegrity)
      | path hgit hsource horiginal hexists =>
        refine ⟨fun hsome => by simp [hgit] at hsome, fun _ => hexists, fun _ hintegrity => ?_⟩
        exact hpassed.files entry hentry hgit hintegrity
    · exact hpassed.hidden other hother hname hlast
  · rintro ⟨hreadable, hundrifted⟩
    have hentries {entry : DependencyLock} (hentry : lockedEntry lock name = some entry) :
        Undrifted reading fs base dep entry := by
      obtain ⟨hmem, hname⟩ := mem_of_lockedEntry hentry
      exact hundrifted entry hmem hname
    refine ⟨hreadable, fun entry hentry hgit hcommit hintegrity => ?_,
      fun entry hentry hgit hintegrity => ?_, fun entry hmem hname _ => hundrifted entry hmem hname⟩
    · rw [(hentries hentry).integrity (fun _ => hcommit) hintegrity]
      exact hintegrity
    · exact (hentries hentry).integrity (fun hsome => by simp [hgit] at hsome) hintegrity

/-- **A report is made and is right exactly when no message slices an id inside a character, and,
where all that is compared agrees, what is passed over agrees.** -/
theorem sound_report_iff (reading : CacheReading) (fs : FileSystem) (base : String)
    (config : DevKitConfig) (lock : Option LockFile) :
    SoundReport reading fs base config lock ↔
      (∀ l, lock = some l → ∀ e ∈ config.dependencies.entries,
        messagePanics reading l e.1 e.2 = false) ∧
      ∀ l, lock = some l → Agrees reading fs base config l →
        ∀ e ∈ config.dependencies.entries, PassedOver reading fs base l e.1 e.2 := by
  have houtcome : ∀ report, verifyOutcome reading fs base config lock = some report ↔
      (∀ l, lock = some l → ∀ e ∈ config.dependencies.entries,
        messagePanics reading l e.1 e.2 = false) ∧
      verifyReading reading fs base config lock = report := by
    intro report
    rw [verifyOutcome]
    cases lock with
    | none => simp
    | some l => simp
  constructor
  · rintro ⟨report, hreport, hsound⟩
    obtain ⟨hslices, rfl⟩ := (houtcome report).mp hreport
    refine ⟨hslices, fun l hl hagrees e he => ?_⟩
    obtain ⟨l', hl', hnothing⟩ := hsound (verifyReading_consistent_iff.mpr ⟨l, hl, hagrees⟩)
    obtain rfl := Option.some.inj (hl.symm.trans hl')
    obtain ⟨entry, hentry, hdepAgrees⟩ := hagrees.recorded e he
    exact (passedOver_iff hentry hdepAgrees).mpr ⟨hnothing.readable e.1 e.2 he,
      fun entry hmem hname => hnothing.undrifted e.1 e.2 entry he hmem hname⟩
  · rintro ⟨hslices, hpassed⟩
    refine ⟨_, (houtcome _).mpr ⟨hslices, rfl⟩, fun hconsistent => ?_⟩
    obtain ⟨l, hl, hagrees⟩ := verifyReading_consistent_iff.mp hconsistent
    have hdrift {e : String × Dependency} (he : e ∈ config.dependencies.entries) :
        Readable reading e.2 ∧ ∀ entry ∈ l.dependencies, entry.name = e.1 →
          Undrifted reading fs base e.2 entry := by
      obtain ⟨entry, hentry, hdepAgrees⟩ := hagrees.recorded e he
      exact (passedOver_iff hentry hdepAgrees).mp (hpassed l hl hagrees e he)
    refine ⟨l, hl, fun name => ⟨fun hname => ?_, fun hname => ?_⟩,
      fun name dep entry hdep hmem hname => (hdrift hdep).2 entry hmem hname,
      fun name dep hdep => (hdrift hdep).1⟩
    · obtain ⟨d, hd, rfl⟩ := List.mem_map.mp hname
      exact hagrees.declared d hd
    · obtain ⟨e, he, rfl⟩ := List.mem_map.mp hname
      obtain ⟨entry, hentry, -⟩ := hagrees.recorded e he
      exact List.mem_map.mpr ⟨entry, mem_of_lockedEntry hentry⟩

/-- **A package is ready to be published exactly when the manifest is valid and the report is
consistent.** -/
theorem publishPlan_ready_iff {semver : Semver} {scan : Rearrangement String}
    {lock : Option LockFile} {readiness : PublishReadiness}
    (h : publishPlan reading fs base config semver scan lock = some readiness) :
    readiness.ready = true ↔ validateManifest semver fs scan base config = .ok () ∧
      (verifyReading reading fs base config lock).consistent = true := by
  obtain ⟨report, hreport, rfl⟩ := Option.map_eq_some_iff.mp h
  obtain rfl : verifyReading reading fs base config lock = report := by
    rw [verifyOutcome] at hreport
    split at hreport
    · cases hreport
    · exact Option.some.inj hreport
  have hreported : ((reportChecks (verifyReading reading fs base config lock)).all
      fun c => c.2.1) = true ↔ (verifyReading reading fs base config lock).consistent = true := by
    cases lock with
    | none => simp [reportChecks, verifyReading]
    | some l =>
      rw [reportChecks, List.all_append, List.all_map]
      simp only [verifyReading, List.all_cons, List.all_nil, Bool.and_true, Bool.true_and,
        Bool.and_eq_true, and_iff_left_iff_imp, List.isEmpty_iff]
      intro hnil
      rw [hnil]
      rfl
  simp only [List.all_cons, Bool.and_eq_true, hreported, and_congr_left_iff]
  intro _
  cases validateManifest semver fs scan base config with
  | error e => simp [manifestCheck]
  | ok u => simp [manifestCheck]

end Outcome

section Failing

/-- A dependency on the directory `token`. -/
def tokenDep : Dependency := { Dependency.default with path := some "token" }

/-- A project that depends on a local directory. -/
def localConfig : DevKitConfig where
  contracts := ⟨[], List.nodup_nil⟩
  package := none
  dependencies := ⟨[("token", tokenDep)], List.nodup_singleton "token"⟩

/-- The lock of the directory, as it was when it was fetched. -/
def localLock : LockFile where
  version := 1
  deployOrder := []
  contracts := []
  dependencies := [{ lockDependency "/app" "token" tokenDep with integrity := "sha256:old" }]

/-- The disk on which the files of the directory have changed. -/
def changedFiles : FileSystem := ⟨fun _ => true, fun _ => some "new"⟩

/-- A cache in which every checkout is there, and git can read none. -/
def corruptCache : CacheReading := ⟨fun _ => true, fun _ => none, fun _ => none⟩

/-- A cache in which every checkout is at one commit. -/
def cacheAt (commit : String) : CacheReading := ⟨fun _ => true, fun _ => some commit, fun _ => none⟩

/-- A lock in which the commit of the library is a text whose twelfth byte is inside a character. -/
def accentedLock : LockFile :=
  { libraryLock commit₀ with
    dependencies :=
      [{ lockDependency "/app" "library" libraryDep with commitSha := "aaaaaaaaaaaé" }] }

/-- The lock of the library before it is fetched. -/
def unfetchedLock : LockFile :=
  { libraryLock commit₀ with dependencies := [lockDependency "/app" "library" libraryDep] }

/-- A lock with two entries for the library. -/
def twofoldLock : LockFile :=
  { libraryLock commit₀ with
    dependencies := (libraryLock commit₁).dependencies ++ (libraryLock commit₀).dependencies }

/-- Changed files of a local dependency, checkouts that git cannot read and a commit in an entry
that is not the last of its name are reported as consistent, and a lock with a character across the
slice panics. -/
theorem drift_is_reported_consistent :
    ¬ SoundReport corruptCache changedFiles "/app" localConfig (some localLock) ∧
      ¬ SoundReport corruptCache changedFiles "/app" libraryConfig (some (libraryLock commit₀)) ∧
      ¬ SoundReport corruptCache changedFiles "/app" libraryConfig (some unfetchedLock) ∧
      ¬ SoundReport (cacheAt "c0") changedFiles "/app" libraryConfig (some twofoldLock) ∧
      ¬ SoundReport (cacheAt "c1") changedFiles "/app" libraryConfig (some accentedLock) := by
  have hconsistent : ∀ {reading : CacheReading} {config : DevKitConfig} {lock : LockFile},
      verifyOutcome reading changedFiles "/app" config (some lock) = some ⟨true, true, 1, []⟩ →
      SoundReport reading changedFiles "/app" config (some lock) →
        NothingDrifted reading changedFiles "/app" config lock := by
    rintro reading config lock houtcome ⟨report, hreport, hsound⟩
    obtain rfl := Option.some.inj (houtcome.symm.trans hreport)
    obtain ⟨l, hl, hnothing⟩ := hsound rfl
    exact Option.some.inj hl ▸ hnothing
  refine ⟨fun h => ?_, fun h => ?_, fun h => ?_, fun h => ?_, ?_⟩
  · have hundrifted :=
      (hconsistent (by decide +kernel) h).undrifted "token" tokenDep _ (by decide) (.head _) rfl
    exact absurd (hundrifted.integrity (by decide) (by decide)) (by decide)
  · have hundrifted :=
      (hconsistent (by decide +kernel) h).undrifted "library" libraryDep _ (by decide) (.head _) rfl
    exact absurd (hundrifted.commit rfl (by decide)).2 (by decide)
  · have hreadable := (hconsistent (by decide +kernel) h).readable "library" libraryDep (by decide)
    exact absurd (hreadable rfl rfl) (by decide)
  · have hundrifted :=
      (hconsistent (by decide +kernel) h).undrifted "library" libraryDep _ (by decide) (.head _) rfl
    exact absurd (hundrifted.commit rfl (by decide)).2 (by decide)
  · rintro ⟨report, hreport, -⟩
    have hpanics : verifyOutcome (cacheAt "c1") changedFiles "/app" libraryConfig
        (some accentedLock) = none := by decide +kernel
    rw [hpanics] at hreport
    cases hreport

end Failing

end SorobanDevkit.Core
