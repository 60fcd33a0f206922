import SorobanDevkit.Core.Fetch
import SorobanDevkit.Library.NameIndex

/-!
# The lock file

`sdkt.lock` records the deploy order with its artifacts and, for every package dependency, the
source, the reference, the commit, the cache location and an integrity hash. `sdkt-core/src/lock.rs`
rebuilds the dependency entries from the manifest, with the outcomes of the fetches that were made
(`lock_dependencies_resolved`), and verifies them against the manifest and the cache
(`verify_dependencies`). The lock is serialized by the `toml` crate; here it is kept as it is, so
that reading the lock that was written gives that lock.
-/

namespace SorobanDevkit.Core

open Strings NameIndex

/-- `LockEntry`: one locked contract. -/
structure LockEntry where
  contract : String
  path : String
  artifact : String
  sha256 : String
  order : ℕ
  deriving DecidableEq

/-- `DependencyLock`: one locked dependency. -/
structure DependencyLock where
  name : String
  source : String
  originalSource : String
  gitUrl : String
  resolvedReference : String
  commitSha : String
  cacheLocation : String
  integrity : String
  version : String
  deriving DecidableEq

/-- `DependencyLock::default()` with a name. -/
def DependencyLock.named (name : String) : DependencyLock where
  name := name
  source := ""
  originalSource := ""
  gitUrl := ""
  resolvedReference := ""
  commitSha := ""
  cacheLocation := ""
  integrity := ""
  version := ""

/-- `LockFile`. -/
structure LockFile where
  version : UInt32
  deployOrder : List String
  contracts : List LockEntry
  dependencies : List DependencyLock
  deriving DecidableEq

/-- What the package commands read and write below the project directory. -/
structure Workspace where
  cache : Cache
  lock : Option LockFile

/-! ### Writing the entries -/

/-- The entry of `lock_dependencies` for one dependency: its source, nothing fetched. -/
def lockDependency (base name : String) (dep : Dependency) : DependencyLock :=
  match dep.git with
  | some url =>
    { name, source := "git", originalSource := url, gitUrl := url,
      resolvedReference := dep.reference.getD "", commitSha := "", cacheLocation := "",
      integrity := "", version := dep.version.getD "" }
  | none =>
    let path := dep.path.getD ""
    { name, source := "local", originalSource := if path = "" then path else joinPath base path,
      gitUrl := "", resolvedReference := "", commitSha := "", cacheLocation := "",
      integrity := "", version := "" }

/-- `lock_dependencies`. -/
def lockDependencies (base : String) (deps : UnorderedMap String Dependency) :
    List DependencyLock :=
  deps.entries.map fun e => lockDependency base e.1 e.2

/-- What is found in the cache, by the keys of the checkouts: whether there is one, and what `git
rev-parse HEAD` and `git rev-parse HEAD^{tree}` print there, if they succeed. -/
structure CacheReading where
  present : String → Bool
  head : String → Option String
  tree : String → Option String

/-- What is found in a cache of checkouts that git can read. -/
def CacheReading.of (git : Git) (cache : Cache) : CacheReading where
  present key := (cache key).isSome
  head key := ((cache key).bind Checkout.headCommit).map ObjectId.text
  tree key := ((cache key).bind Checkout.headCommit).map git.tree

/-- `git_head_commit`. -/
def gitHeadCommit (reading : CacheReading) (key : String) : String := (reading.head key).getD ""

/-- `compute_dependency_integrity`: the tree of the checkout's `HEAD`, or the digest of a local
directory. -/
def computeDependencyIntegrity (reading : CacheReading) (fs : FileSystem) (base : String)
    (dep : Dependency) : String :=
  match dep.git with
  | some _ =>
    if reading.present (gitCacheKey dep) then
      match reading.tree (gitCacheKey dep) with
      | none => ""
      | some tree => if tree = "" then "" else "sha256:" ++ tree
    else ""
  | none =>
    let path := dep.path.getD ""
    if path = "" then ""
    else
      match fs.dirDigest (joinPath base path) with
      | none => ""
      | some hex => "sha256:" ++ hex

/-- The entry of `lock_dependencies_resolved` for one dependency. -/
def resolvedEntry (git : Git) (fs : FileSystem) (base : String) (cache : Cache)
    (deps : UnorderedMap String Dependency) (fetched : List FetchOutcome) (name : String)
    (dep : Dependency) : DependencyLock :=
  match fetched.find? fun o => o.name = name with
  | some outcome =>
    let entry : DependencyLock := match dep.git with
      | some url =>
        { DependencyLock.named name with
          source := "git", originalSource := url, gitUrl := url,
          resolvedReference := dep.reference.getD "" }
      | none =>
        { DependencyLock.named name with
          source := "local", originalSource := joinPath base (dep.path.getD "") }
    { entry with
      commitSha := outcome.resolvedRev
      cacheLocation := outcome.localPath
      integrity := computeDependencyIntegrity (.of git cache) fs base dep
      version := dep.version.getD "" }
  | none =>
    ((lockDependencies base deps).find? fun d => d.name = name).getD (.named name)

/-- `lock_dependencies_resolved`. -/
def lockDependenciesResolved (git : Git) (fs : FileSystem) (base : String) (cache : Cache)
    (config : DevKitConfig) (fetched : List FetchOutcome) : List DependencyLock :=
  config.dependencies.entries.map fun e =>
    resolvedEntry git fs base cache config.dependencies fetched e.1 e.2

/-- The locked entry of a name: of entries with one name the last is kept. -/
def lockedEntry (lock : LockFile) (name : String) : Option DependencyLock :=
  lastAt DependencyLock.name lock.dependencies name

/-! ### Verifying the entries -/

/-- `DepMismatchKind`. -/
inductive DepMismatchKind
  | missingInLock
  | notInManifest
  | sourceChanged
  | referenceChanged
  | cacheMissing
  | pathMissing
  | commitMismatch
  | integrityMismatch
  deriving DecidableEq

/-- `DepMismatch`. -/
structure DepMismatch where
  name : String
  kind : DepMismatchKind
  detail : String
  deriving DecidableEq

/-- `DepVerifyReport`. -/
structure DepVerifyReport where
  present : Bool
  consistent : Bool
  checked : ℕ
  mismatches : List DepMismatch
  deriving DecidableEq

/-- The first twelve bytes of an id. Where they end inside a character, slicing them panics, and
there is no text. -/
def shortId (id : String) : String := String.ofList ((takeBytes 12 id.toList).getD [])

/-- Slicing the first twelve bytes of an id panics. -/
def splitsCharacter (id : String) : Bool := (takeBytes 12 id.toList).isNone

section Verify

variable (reading : CacheReading) (fs : FileSystem) (base : String)

/-- The message that `HEAD` is not at the locked commit is made. -/
def headDiffers (dep : Dependency) (entry : DependencyLock) : Bool :=
  let head := gitHeadCommit reading (gitCacheKey dep)
  head ≠ "" ∧ head ≠ entry.commitSha

/-- The comparison of an entry with the checkout in the cache, which `verify_dependencies` makes
once a commit is locked. -/
def cacheMismatches (name : String) (dep : Dependency) (entry : DependencyLock) :
    List DepMismatch :=
  let key := gitCacheKey dep
  if reading.present key = false then
    [⟨name, .cacheMissing,
      "git cache checkout missing: " ++ checkoutPath (joinPath base ".sdkt-cache") key⟩]
  else
    let commit : List DepMismatch :=
      if headDiffers reading dep entry then
        [⟨name, .commitMismatch, "cache commit " ++ shortId (gitHeadCommit reading key) ++
          " != locked " ++ shortId entry.commitSha⟩]
      else []
    let current := computeDependencyIntegrity reading fs base dep
    let integrity : List DepMismatch :=
      if entry.integrity ≠ "" ∧ current ≠ "" ∧ current ≠ entry.integrity then
        [⟨name, .integrityMismatch, "integrity changed: " ++ current ++ " != " ++ entry.integrity⟩]
      else []
    commit ++ integrity

/-- The checks of `verify_dependencies` on a git dependency whose entry is a git entry. -/
def gitMismatches (name url : String) (dep : Dependency) (entry : DependencyLock) :
    List DepMismatch :=
  let requested := dep.reference.getD ""
  let source : List DepMismatch :=
    if entry.gitUrl ≠ url then
      [⟨name, .sourceChanged,
        "git url changed: manifest '" ++ url ++ "' vs lock '" ++ entry.gitUrl ++ "'"⟩]
    else []
  let reference : List DepMismatch :=
    if entry.resolvedReference ≠ requested then
      [⟨name, .referenceChanged, "reference changed: manifest '" ++ requested ++ "' vs lock '" ++
        entry.resolvedReference ++ "'"⟩]
    else []
  source ++ reference ++
    if entry.commitSha ≠ "" then cacheMismatches reading fs base name dep entry else []

/-- The checks of `verify_dependencies` on a local dependency whose entry is a local entry. -/
def localMismatches (name : String) (dep : Dependency) (entry : DependencyLock) :
    List DepMismatch :=
  let resolved := joinPath base (dep.path.getD "")
  if entry.originalSource ≠ resolved then
    [⟨name, .sourceChanged,
      "path changed: manifest '" ++ resolved ++ "' vs lock '" ++ entry.originalSource ++ "'"⟩]
  else if !fs.pathExists resolved then
    [⟨name, .pathMissing, "local path dependency missing: " ++ resolved⟩]
  else []

/-- The checks of `verify_dependencies` on one dependency. -/
def depMismatches (lock : LockFile) (name : String) (dep : Dependency) : List DepMismatch :=
  match lockedEntry lock name with
  | none => [⟨name, .missingInLock, "dependency not recorded in lock"⟩]
  | some entry =>
    if dep.git.isSome ≠ (entry.source == "git") then
      [⟨name, .sourceChanged, "manifest source is " ++
        (if dep.git.isSome then "git" else "local") ++
        ", lock recorded " ++ entry.source⟩]
    else
      match dep.git with
      | some url => gitMismatches reading fs base name url dep entry
      | none => localMismatches fs base name dep entry

/-- The report of `verify_dependencies` on what `read_lock` gives, where no message panics. -/
def verifyReading (config : DevKitConfig) : Option LockFile → DepVerifyReport
  | none =>
    { present := false, consistent := false, checked := config.dependencies.entries.length,
      mismatches := config.dependencies.keys.map fun name =>
        ⟨name, .missingInLock, "no sdkt.lock present"⟩ }
  | some lock =>
    let mismatches :=
      config.dependencies.entries.flatMap (fun e => depMismatches reading fs base lock e.1 e.2) ++
        (lock.dependencies.filter fun d => d.name ∉ config.dependencies.keys).map fun d =>
          ⟨d.name, .notInManifest, "lock records a dependency absent from the manifest"⟩
    { present := true, consistent := mismatches.isEmpty,
      checked := config.dependencies.entries.length, mismatches }

end Verify

/-- `verify_dependencies` in a workspace whose checkouts git can read. -/
def verifyDependencies (git : Git) (fs : FileSystem) (base : String) (config : DevKitConfig)
    (w : Workspace) : DepVerifyReport :=
  verifyReading (.of git w.cache) fs base config w.lock

/-! ### The written entries -/

theorem lockDependency_name (base name : String) (dep : Dependency) :
    (lockDependency base name dep).name = name := by
  rw [lockDependency]
  split <;> rfl

theorem resolvedEntry_name (git : Git) (fs : FileSystem) (base : String) (cache : Cache)
    (deps : UnorderedMap String Dependency) (fetched : List FetchOutcome) (name : String)
    (dep : Dependency) :
    (resolvedEntry git fs base cache deps fetched name dep).name = name := by
  rw [resolvedEntry]
  split
  · split <;> rfl
  · cases hfind : (lockDependencies base deps).find? fun d => d.name = name with
    | none => rfl
    | some d => simpa using List.find?_some hfind

theorem find?_lockDependencies (base : String) (deps : UnorderedMap String Dependency)
    (name : String) : ((lockDependencies base deps).find? fun d => d.name = name) =
      (deps.get? name).map (lockDependency base name) := by
  rw [lockDependencies, List.find?_map, UnorderedMap.get?, Option.map_map]
  simp only [Function.comp_def, lockDependency_name]
  cases hfind : deps.entries.find? fun e => e.1 = name with
  | none => rfl
  | some e =>
    have hkey : e.1 = name := by simpa using List.find?_some hfind
    simp [hkey]

/-- Without an outcome, the entry of a dependency is made from the manifest. -/
theorem resolvedEntry_of_not_fetched (git : Git) (fs : FileSystem) (base : String) (cache : Cache)
    {deps : UnorderedMap String Dependency} {fetched : List FetchOutcome} {name : String}
    {dep : Dependency} (hdep : (name, dep) ∈ deps.entries)
    (hfetched : ∀ o ∈ fetched, o.name ≠ name) :
    resolvedEntry git fs base cache deps fetched name dep = lockDependency base name dep := by
  have hfind : (fetched.find? fun o => o.name = name) = none := by
    rw [List.find?_eq_none]
    simpa using hfetched
  rw [resolvedEntry, hfind, find?_lockDependencies, UnorderedMap.get?_eq_some.mpr hdep]
  rfl

/-- The outcome of a dependency is found when the outcomes have different names. -/
theorem find?_outcome {fetched : List FetchOutcome} {o : FetchOutcome} {name : String}
    (hnames : (fetched.map FetchOutcome.name).Nodup) (ho : o ∈ fetched) (hname : o.name = name) :
    (fetched.find? fun o => o.name = name) = some o := by
  cases hfind : fetched.find? fun o => o.name = name with
  | none => simpa [hname] using List.find?_eq_none.mp hfind o ho
  | some o' =>
    have hname' : o'.name = name := by simpa using List.find?_some hfind
    rw [List.inj_on_of_nodup_map hnames (List.mem_of_find?_eq_some hfind) ho
      (hname'.trans hname.symm)]

/-- The entry of a dependency in the rebuilt lock. -/
theorem lockedEntry_resolved (git : Git) (fs : FileSystem) (base : String) (cache : Cache)
    (config : DevKitConfig) (fetched : List FetchOutcome) {lock : LockFile}
    (hlock : lock.dependencies = lockDependenciesResolved git fs base cache config fetched)
    {name : String} {dep : Dependency} (hdep : (name, dep) ∈ config.dependencies.entries) :
    lockedEntry lock name =
      some (resolvedEntry git fs base cache config.dependencies fetched name dep) := by
  have hnames : lock.dependencies.map DependencyLock.name = config.dependencies.keys := by
    rw [hlock, lockDependenciesResolved, List.map_map, UnorderedMap.keys]
    exact List.map_congr_left fun e _ => resolvedEntry_name _ _ _ _ _ _ _ _
  have hmem : resolvedEntry git fs base cache config.dependencies fetched name dep ∈
      lock.dependencies := by
    rw [hlock]
    exact List.mem_map.mpr ⟨(name, dep), hdep, rfl⟩
  have hnodup : (lock.dependencies.map DependencyLock.name).Nodup := by
    rw [hnames]
    exact config.dependencies.nodup
  have hlast := lastAt_of_mem hnodup hmem
  rwa [resolvedEntry_name] at hlast

end SorobanDevkit.Core
