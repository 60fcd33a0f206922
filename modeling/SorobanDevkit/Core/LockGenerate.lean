import SorobanDevkit.Core.FetchAll
import SorobanDevkit.Core.Project
import SorobanDevkit.Library.Hex

/-!
# The commands that write the lock

`generate_lock` of `sdkt-core/src/lock.rs` makes a lock from the manifest and the artifacts that are
built. It is called at the end of `build_workspace` and by `sdkt lock generate`. The other commands
that write the lock are `sdkt package fetch` and `sdkt package update`, which rebuild the
dependencies of the lock that is there.
-/

namespace SorobanDevkit.Core

open Strings NameIndex

/-- `LockError`, as far as writing a lock raises it. -/
inductive LockError
  | project (e : ProjectError)
  /-- The `expect` of the contract of an alias in the deploy order. -/
  | noContract (contract : String)
  | artifactNotFound (contract : String)
  | io (path source : String)
  | write (path source : String)
  deriving DecidableEq

/-- What is found of the built artifacts, and how writing the lock fails. -/
structure BuildEnv where
  graphOrder : Rearrangement (String × List String)
  scan : Rearrangement String
  /-- `find_artifact`: the path of the artifact, by the contract for which it is called and its
  path. -/
  findArtifact : String → String → Option String
  read : String → Except String (List UInt8)
  sha256 : List UInt8 → Vector UInt8 32
  lockFault : Option String

/-- `LOCK_VERSION`. -/
def lockVersion : UInt32 := 1

/-- `LOCK_FILE_NAME`. -/
def lockFileName : String := "sdkt.lock"

/-! ### Generating a lock -/

section Generate

variable (env : BuildEnv) (base : String) (config : DevKitConfig)

/-- `compute_sha256`. -/
def computeSha256 (path : String) : Except LockError String :=
  match env.read path with
  | .error source => .error (.io path source)
  | .ok bytes => .ok (Hex.encode (env.sha256 bytes).toList)

/-- The body of the loop of `generate_lock`. -/
def lockContract (contract : String) (order : ℕ) : Except LockError LockEntry :=
  match config.contracts.get? contract with
  | none => .error (.noContract contract)
  | some cfg =>
    match env.findArtifact contract cfg.path with
    | none => .error (.artifactNotFound contract)
    | some artifact =>
      (computeSha256 env artifact).map fun sha256 =>
        { contract, path := cfg.path, artifact, sha256, order }

/-- `generate_lock`. -/
def generateLock : Except LockError LockFile := do
  let ordered ← (resolveDeployOrder env.graphOrder env.scan config).mapError .project
  let contracts ← ordered.zipIdx.mapM fun e => lockContract env config e.1 e.2
  .ok
    { version := lockVersion
      deployOrder := ordered
      contracts
      dependencies := lockDependencies base config.dependencies }

/-- The end of `build_workspace`: the lock that is written, if one is. No failure fails the
build. -/
def buildLock (w : Workspace) : Option LockFile × Workspace :=
  match generateLock env base config with
  | .error _ => (none, w)
  | .ok lock =>
    match env.lockFault with
    | some _ => (none, w)
    | none => (some lock, { w with lock := some lock })

/-- `sdkt lock generate`. -/
def lockGenerate (w : Workspace) : Except LockError LockFile × Workspace :=
  match generateLock env base config with
  | .error e => (.error e, w)
  | .ok lock =>
    match env.lockFault with
    | some source => (.error (.write (joinPath base lockFileName) source), w)
    | none => (.ok lock, { w with lock := some lock })

/-- A lock is made and written: there is a deploy order, the artifact of each contract in it is
found and read, and the file can be written. -/
structure Generates : Prop where
  order : ∃ ordered, resolveDeployOrder env.graphOrder env.scan config = .ok ordered ∧
    ∀ contract ∈ ordered, ∃ cfg artifact bytes, config.contracts.get? contract = some cfg ∧
      env.findArtifact contract cfg.path = some artifact ∧ env.read artifact = .ok bytes
  writable : env.lockFault = none

variable {env base config}

theorem exists_lockContract_iff {contract : String} {order : ℕ} :
    (∃ entry, lockContract env config contract order = .ok entry) ↔
      ∃ cfg artifact bytes, config.contracts.get? contract = some cfg ∧
        env.findArtifact contract cfg.path = some artifact ∧ env.read artifact = .ok bytes := by
  rw [lockContract]
  cases config.contracts.get? contract with
  | none => simp
  | some cfg =>
    cases hfind : env.findArtifact contract cfg.path with
    | none => simp [hfind]
    | some artifact =>
      cases hread : env.read artifact with
      | error source => simp [computeSha256, hfind, hread, Except.map]
      | ok bytes => simp [computeSha256, hfind, hread, Except.map]

/-- **The lock that is made locks no commit**: its dependencies are those of the manifest. -/
theorem generateLock_eq_ok {lock : LockFile} (h : generateLock env base config = .ok lock) :
    lock.dependencies = lockDependencies base config.dependencies := by
  obtain ⟨ordered, -, h⟩ := Except.bind_eq_ok_iff.mp h
  obtain ⟨contracts, -, h⟩ := Except.bind_eq_ok_iff.mp h
  cases h
  rfl

theorem exists_generateLock_iff : (∃ lock, generateLock env base config = .ok lock) ↔
    ∃ ordered, resolveDeployOrder env.graphOrder env.scan config = .ok ordered ∧
      ∀ contract ∈ ordered, ∃ cfg artifact bytes, config.contracts.get? contract = some cfg ∧
        env.findArtifact contract cfg.path = some artifact ∧ env.read artifact = .ok bytes := by
  have hcontracts : ∀ ordered : List String,
      (∃ contracts, (ordered.zipIdx.mapM fun e => lockContract env config e.1 e.2) =
        .ok contracts) ↔
      ∀ contract ∈ ordered, ∃ cfg artifact bytes, config.contracts.get? contract = some cfg ∧
        env.findArtifact contract cfg.path = some artifact ∧ env.read artifact = .ok bytes := by
    intro ordered
    rw [Except.exists_mapM_eq_ok_iff]
    simp only [exists_lockContract_iff]
    constructor
    · intro h contract hcontract
      obtain ⟨n, hn, rfl⟩ := List.mem_iff_getElem.mp hcontract
      exact h (ordered[n], n) (List.mk_mem_zipIdx_iff_getElem?.mpr (List.getElem?_eq_getElem hn))
    · intro h e he
      exact h e.1 (List.mem_of_getElem? (List.mem_zipIdx_iff_getElem?.mp he))
  simp only [generateLock, Except.bind_eq_ok_iff, Except.mapError_eq_ok_iff, Except.ok.injEq]
  constructor
  · rintro ⟨lock, ordered, hordered, contracts, hmapM, -⟩
    exact ⟨ordered, hordered, (hcontracts ordered).mp ⟨contracts, hmapM⟩⟩
  · rintro ⟨ordered, hordered, hfound⟩
    obtain ⟨contracts, hmapM⟩ := (hcontracts ordered).mpr hfound
    exact ⟨_, ordered, hordered, contracts, hmapM, rfl⟩

/-- What the end of a build does to the lock. -/
theorem buildLock_cases (w : Workspace) :
    (¬ Generates env config ∧ buildLock env base config w = (none, w)) ∨
      Generates env config ∧ ∃ lock,
        buildLock env base config w = (some lock, { w with lock := some lock }) ∧
        lock.dependencies = lockDependencies base config.dependencies := by
  rw [buildLock]
  cases hlock : generateLock env base config with
  | error e =>
    refine .inl ⟨fun h => ?_, rfl⟩
    obtain ⟨lock, hok⟩ := exists_generateLock_iff.mpr h.order
    rw [hlock] at hok
    cases hok
  | ok lock =>
    cases hfault : env.lockFault with
    | some source =>
      refine .inl ⟨fun h => ?_, rfl⟩
      rw [h.writable] at hfault
      cases hfault
    | none =>
      exact .inr ⟨⟨exists_generateLock_iff.mp ⟨lock, hlock⟩, hfault⟩, lock, rfl,
        generateLock_eq_ok hlock⟩

/-- `sdkt lock generate` does to the lock what a build does. -/
theorem lockGenerate_eq (w : Workspace) :
    ((lockGenerate env base config w).1.toOption, (lockGenerate env base config w).2) =
      buildLock env base config w := by
  rw [lockGenerate, buildLock]
  cases generateLock env base config with
  | error e => rfl
  | ok lock => cases env.lockFault <;> rfl

end Generate

/-! ### `sdkt package fetch` -/

/-- Why `sdkt package fetch` fails. -/
inductive PackageFetchError
  | validation (e : PackageError)
  | fetch (e : FetchError)

/-- The lock of a project that has none. -/
def emptyLock : LockFile where
  version := lockVersion
  deployOrder := []
  contracts := []
  dependencies := []

/-- `sdkt package fetch`: the outcomes, and the lock that is written, if one is. -/
def packageFetch (env : Env) (base : String) (force : Bool) (config : DevKitConfig)
    (w : Workspace) :
    Except PackageFetchError (List FetchOutcome × Option LockFile) × Workspace :=
  match validateManifest env.semver env.fs env.scan base config with
  | .error e => (.error (.validation e), w)
  | .ok _ =>
    if config.dependencies.entries.isEmpty then (.ok ([], none), w)
    else
      match fetchAll env base force config.dependencies.entries w.cache with
      | (.error e, cache) => (.error (.fetch e), { w with cache })
      | (.ok outcomes, cache) =>
        let lock := fetchedLock env base config cache outcomes (w.lock.getD emptyLock)
        match env.lockFault with
        | some _ => (.ok (outcomes, none), { w with cache })
        | none => (.ok (outcomes, some lock), { cache, lock := some lock })

/-- What `sdkt package fetch` does to the lock. -/
theorem packageFetch_cases (env : Env) (base : String) (force : Bool) (config : DevKitConfig)
    (w : Workspace) :
    ((packageFetch env base force config w).1.toOption.bind Prod.snd = none ∧
      (packageFetch env base force config w).2.lock = w.lock) ∨
    ∃ lock dependencies, (packageFetch env base force config w).1.toOption.bind Prod.snd
      = some lock ∧
      (packageFetch env base force config w).2.lock = some lock ∧
      lock = { w.lock.getD emptyLock with dependencies } := by
  rw [packageFetch]
  split
  · exact .inl ⟨rfl, rfl⟩
  · split
    · exact .inl ⟨rfl, rfl⟩
    · split
      · exact .inl ⟨rfl, rfl⟩
      · cases env.lockFault with
        | some source => exact .inl ⟨rfl, rfl⟩
        | none => exact .inr ⟨_, _, rfl, rfl, rfl⟩

/-- What `apply_updates` does to the lock. -/
theorem applyUpdates_cases (env : Env) (base : String) (config : DevKitConfig) (w : Workspace) :
    ((applyUpdates env base config w).1.toOption.map Prod.snd = none ∧
      (applyUpdates env base config w).2.lock = w.lock) ∨
    ∃ lock dependencies, (applyUpdates env base config w).1.toOption.map Prod.snd = some lock ∧
      (applyUpdates env base config w).2.lock = some lock ∧
      lock = { w.lock.getD emptyLock with dependencies } := by
  rw [applyUpdates]
  split
  · exact .inl ⟨rfl, rfl⟩
  · split
    · exact .inl ⟨rfl, rfl⟩
    · split
      · exact .inl ⟨rfl, rfl⟩
      · cases w.lock with
        | none => exact .inl ⟨rfl, rfl⟩
        | some lock =>
          cases env.lockFault with
          | some source => exact .inl ⟨rfl, rfl⟩
          | none => exact .inr ⟨_, _, rfl, rfl, rfl⟩

end SorobanDevkit.Core
