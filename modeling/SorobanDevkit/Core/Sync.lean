import SorobanDevkit.Core.Lock

/-!
# Updating locked dependencies

`plan_updates` of `sdkt-core/src/sync.rs` asks every remote what it offers for the declared tag,
branch or version constraint and compares the answer with the locked commit; `apply_updates` fetches
the dependencies that are planned as updated and rewrites the lock.
-/

namespace SorobanDevkit.Core

open Strings

/-- `UpdateStatus`. -/
inductive UpdateStatus
  | unchanged
  | updated
  | pinned
  | constraint
  | error
  deriving DecidableEq

/-- `UpdateChange`. -/
structure UpdateChange where
  name : String
  source : String
  status : UpdateStatus
  oldCommit : String
  newCommit : String
  detail : String
  resolvedTag : Option String

/-- `UpdateReport`. -/
structure UpdateReport where
  checked : ℕ
  updated : ℕ
  unchanged : ℕ
  changes : List UpdateChange

/-- Everything outside of the project directory, and how writing fails. -/
structure Env where
  semver : Semver
  fs : FileSystem
  git : Git
  scan : Rearrangement String
  mkdirFault : Option String
  lockFault : Option String

/-- A `FetchError` as a `SyncError`. -/
def FetchError.toSyncError : FetchError → SyncError
  | .gitUnavailable => .gitUnavailable
  | .git args status stderr =>
    if isNetworkMessage stderr then
      .networkFailure ("git " ++ args ++ " failed: " ++ trim stderr)
    else .git args status stderr
  | .noSource name => .git "" none (FetchError.noSource name).text
  | .missingUrl name => .git "" none (FetchError.missingUrl name).text
  | .io context source => .git "" none (FetchError.io context source).text

/-! ### The plan -/

/-- The part of a marked reference after its mark. -/
def unmark (mark reference : String) : Option String :=
  if (stripPrefix mark reference).isSome then some (trimStartMatches mark reference) else none

/-- `git_checkout`: the cache key of a reference that is marked as a tag, branch or revision. -/
def gitCheckoutKey (url reference : String) : String :=
  gitCacheKey { Dependency.default with
    git := some url
    tag := unmark "tag:" reference
    branch := unmark "branch:" reference
    rev := unmark "rev:" reference }

/-- `git_cache_exists`. -/
def gitCacheExists (cache : Cache) (dep : Dependency) : Bool :=
  let reference := ((dep.tag.map ("tag:" ++ ·)).or (dep.branch.map ("branch:" ++ ·))).or
    (dep.rev.map ("rev:" ++ ·))
  (cache (gitCheckoutKey (dep.git.getD "") (reference.getD ""))).isSome

/-- The detail of an error, which first says that nothing is cached. -/
def errorDetail (cache : Cache) (dep : Dependency) (e : SyncError) : String :=
  if gitCacheExists cache dep then e.text
  else "missing cache (run `sdkt package fetch`): " ++ e.text

/-- The change of a dependency with a version constraint and no reference. -/
def planConstraint (env : Env) (cache : Cache) (name url constraint old : String)
    (dep : Dependency) : UpdateChange :=
  match resolveVersionConstraint env.git env.semver url constraint with
  | .ok (some (tag, commit)) =>
    let change (status : UpdateStatus) (detail : String) : UpdateChange :=
      { name, source := "git", status, oldCommit := old, newCommit := commit, detail,
        resolvedTag := some tag }
    if old = "" then
      change .updated
        ("not yet locked — would record " ++ tag ++ " (satisfies '" ++ constraint ++ "')")
    else if commit ≠ old then
      change .updated ("update-available (" ++ tag ++ " satisfies '" ++ constraint ++ "')")
    else change .unchanged ("up-to-date (" ++ tag ++ " satisfies '" ++ constraint ++ "')")
  | .ok none =>
    { name, source := "git", status := .constraint, oldCommit := old, newCommit := "",
      detail := "constraint '" ++ constraint ++ "' unsatisfied by available tags",
      resolvedTag := none }
  | .error e =>
    { name, source := "git", status := .error, oldCommit := old, newCommit := "",
      detail := errorDetail cache dep e, resolvedTag := none }

/-- The change of a dependency with a tag or a branch. -/
def planReference (env : Env) (cache : Cache) (name url old : String) (dep : Dependency) :
    UpdateChange :=
  match resolveAvailableCommit env.git url dep with
  | .error e =>
    { name, source := "git", status := .error, oldCommit := old, newCommit := "",
      detail := errorDetail cache dep e, resolvedTag := none }
  | .ok available =>
    let change (status : UpdateStatus) (detail : String) : UpdateChange :=
      { name, source := "git", status, oldCommit := old, newCommit := available, detail,
        resolvedTag := none }
    if old = "" then change .updated "not yet locked — would record available commit"
    else if available ≠ old then
      change .updated
        ("available commit " ++ shortId available ++ " != locked " ++ shortId old)
    else change .unchanged "already at latest"

/-- The body of the loop of `plan_updates`. -/
def planChange (env : Env) (cache : Cache) (lock : LockFile) (name : String) (dep : Dependency) :
    UpdateChange :=
  let old := ((lockedEntry lock name).map DependencyLock.commitSha).getD ""
  match dep.git with
  | none =>
    { name, source := "local", status := .unchanged, oldCommit := "", newCommit := "",
      detail := "local path dependency (no remote update)", resolvedTag := none }
  | some url =>
    match dep.rev with
    | some rev =>
      { name, source := "git", status := .pinned, oldCommit := old, newCommit := rev,
        detail := "pinned to rev (immutable)", resolvedTag := none }
    | none =>
      match dep.version with
      | some constraint =>
        if dep.tag.isNone && dep.branch.isNone then
          planConstraint env cache name url constraint old dep
        else planReference env cache name url old dep
      | none => planReference env cache name url old dep

/-- `summarize`. -/
def summarize (changes : List UpdateChange) : UpdateReport where
  checked := changes.length
  updated := changes.countP fun c => c.status = .updated
  unchanged := changes.countP fun c =>
    c.status = .unchanged ∨ c.status = .pinned ∨ c.status = .error
  changes := changes

/-- `plan_updates`. -/
def planUpdates (env : Env) (base : String) (config : DevKitConfig) (w : Workspace) :
    Except SyncError UpdateReport :=
  match validateManifest env.semver env.fs env.scan base config with
  | .error e => .error (.invalidManifest e.text)
  | .ok _ =>
    match w.lock with
    | none => .error .missingLock
    | some lock => .ok (summarize (config.dependencies.entries.map fun e =>
        planChange env w.cache lock e.1 e.2))

/-! ### Applying the plan -/

/-- The dependency that `apply_updates` fetches: a resolved tag replaces the reference. -/
def fetchDep (change : UpdateChange) (dep : Dependency) : Dependency :=
  match change.resolvedTag with
  | some tag => { Dependency.default with git := dep.git, tag := some tag }
  | none => dep

/-- The detached-branch guard: the checkout of a branch dependency is on a branch, if there is
one. -/
def branchDetached (cache : Cache) (dep : Dependency) : Bool :=
  match dep.branch with
  | none => false
  | some branch =>
    (cache (gitCheckoutKey (dep.git.getD "") ("branch:" ++ branch))).any fun c => !c.onBranch

/-- `cache_root`. -/
def cacheRootOf (base : String) : String := joinPath base ".sdkt-cache"

/-- The body of the loop of `apply_updates`: a dependency planned as updated is fetched. -/
def fetchChange (env : Env) (base : String) (config : DevKitConfig) (change : UpdateChange)
    (cache : Cache) : Except SyncError (Option FetchOutcome) × Cache :=
  if change.status ≠ .updated then (.ok none, cache)
  else
    match config.dependencies.get? change.name with
    | none => (.ok none, cache)
    | some dep =>
      if dep.git.isNone then (.ok none, cache)
      else
        let dep := fetchDep change dep
        if branchDetached cache dep then (.error (.detachedBranch change.name), cache)
        else
          match gitFetch env.git env.semver env.mkdirFault (cacheRootOf base) cache change.name dep
              true with
          | (.error e, cache) => (.error e.toSyncError, cache)
          | (.ok outcome, cache) => (.ok (some outcome), cache)

/-- The loop of `apply_updates`, which stops at the first error. -/
def fetchUpdated (env : Env) (base : String) (config : DevKitConfig) :
    List UpdateChange → Cache → Except SyncError (List FetchOutcome) × Cache
  | [], cache => (.ok [], cache)
  | change :: changes, cache =>
    match fetchChange env base config change cache with
    | (.error e, cache) => (.error e, cache)
    | (.ok outcome, cache) =>
      match fetchUpdated env base config changes cache with
      | (.error e, cache) => (.error e, cache)
      | (.ok outcomes, cache) => (.ok (outcome.toList ++ outcomes), cache)

/-- `apply_updates`, with the workspace as it is afterwards. -/
def applyUpdates (env : Env) (base : String) (config : DevKitConfig) (w : Workspace) :
    Except SyncError (UpdateReport × LockFile) × Workspace :=
  match validateManifest env.semver env.fs env.scan base config with
  | .error e => (.error (.invalidManifest e.text), w)
  | .ok _ =>
    match planUpdates env base config w with
    | .error e => (.error e, w)
    | .ok plan =>
      match fetchUpdated env base config plan.changes w.cache with
      | (.error e, cache) => (.error e, { w with cache })
      | (.ok fetched, cache) =>
        match w.lock with
        | none => (.error .missingLock, { w with cache })
        | some lock =>
          let lock := { lock with
            dependencies := lockDependenciesResolved env.git env.fs base cache config fetched }
          match env.lockFault with
          | some source =>
            (.error (.io ("writing sdkt.lock: " ++ source) source), { w with cache })
          | none => (.ok (plan, lock), { cache, lock := some lock })

/-! ### What a plan says -/

/-- The commit that is locked under a name, if there is one. -/
def lockedCommit (lock : LockFile) (name : String) : String :=
  ((lockedEntry lock name).map DependencyLock.commitSha).getD ""

/-- What the remote of a dependency that is not pinned offers for its tag, its branch or its version
constraint. -/
def offered (env : Env) (url : String) (dep : Dependency) : Option String :=
  if dep.tag.isNone && dep.branch.isNone && dep.version.isSome then
    match resolveVersionConstraint env.git env.semver url (dep.version.getD "") with
    | .ok (some (_, commit)) => some commit
    | _ => none
  else (resolveAvailableCommit env.git url dep).toOption

/-- The dependency is to be fetched: its remote offers something else than what is locked. -/
def Outdated (env : Env) (lock : LockFile) (name : String) (dep : Dependency) : Prop :=
  ∃ url, dep.git = some url ∧ dep.rev = none ∧ ∃ commit, offered env url dep = some commit ∧
    (lockedCommit lock name = "" ∨ commit ≠ lockedCommit lock name)

section PlanChange

variable (env : Env) (cache : Cache) (lock : LockFile) (name : String)

theorem planConstraint_spec (url constraint old : String) (dep : Dependency) :
    (planConstraint env cache name url constraint old dep).name = name ∧
      ((planConstraint env cache name url constraint old dep).status = .updated ↔
        ∃ tag commit, resolveVersionConstraint env.git env.semver url constraint =
          .ok (some (tag, commit)) ∧ (old = "" ∨ commit ≠ old)) ∧
      ((planConstraint env cache name url constraint old dep).status = .unchanged ↔
        ∃ tag commit, resolveVersionConstraint env.git env.semver url constraint =
          .ok (some (tag, commit)) ∧ ¬(old = "" ∨ commit ≠ old)) ∧
      ∀ tag commit, resolveVersionConstraint env.git env.semver url constraint =
          .ok (some (tag, commit)) →
        (planConstraint env cache name url constraint old dep).resolvedTag = some tag := by
  rw [planConstraint]
  split
  · next tag commit h =>
    by_cases hold : old = ""
    · simp [h, hold]
    · by_cases hne : commit = old
      · simp [h, hold, hne]
      · simp [h, hold, hne]
  · next h => simp [h]
  · next e h => simp [h]

theorem planReference_spec (url old : String) (dep : Dependency) :
    (planReference env cache name url old dep).name = name ∧
      ((planReference env cache name url old dep).status = .updated ↔
        ∃ commit, resolveAvailableCommit env.git url dep = .ok commit ∧
          (old = "" ∨ commit ≠ old)) ∧
      ((planReference env cache name url old dep).status = .unchanged ↔
        ∃ commit, resolveAvailableCommit env.git url dep = .ok commit ∧
          ¬(old = "" ∨ commit ≠ old)) ∧
      (planReference env cache name url old dep).resolvedTag = none := by
  rw [planReference]
  split
  · next e h => simp [h]
  · next available h =>
    by_cases hold : old = ""
    · simp [h, hold]
    · by_cases hne : available = old
      · simp [h, hold, hne]
      · simp [h, hold, hne]

/-- The change of a git dependency that is not pinned, by its version constraint or its
reference. -/
theorem planChange_eq {dep : Dependency} {url : String} (hgit : dep.git = some url)
    (hrev : dep.rev = none) : planChange env cache lock name dep =
      if dep.tag.isNone && dep.branch.isNone && dep.version.isSome then
        planConstraint env cache name url (dep.version.getD "") (lockedCommit lock name) dep
      else planReference env cache name url (lockedCommit lock name) dep := by
  rw [planChange, hgit, hrev]
  cases hversion : dep.version with
  | none => simp [lockedCommit]
  | some constraint => simp [lockedCommit]

theorem planChange_name (dep : Dependency) : (planChange env cache lock name dep).name = name := by
  cases hgit : dep.git with
  | none => rw [planChange, hgit]
  | some url =>
    cases hrev : dep.rev with
    | some rev => rw [planChange, hgit, hrev]
    | none =>
      rw [planChange_eq env cache lock name hgit hrev]
      split
      · exact (planConstraint_spec env cache name _ _ _ dep).1
      · exact (planReference_spec env cache name _ _ dep).1

/-- What the remote offers for a version constraint, or for a reference. -/
theorem offered_eq_some_iff {dep : Dependency} {url commit : String} :
    offered env url dep = some commit ↔
      if dep.tag.isNone && dep.branch.isNone && dep.version.isSome then
        ∃ tag, resolveVersionConstraint env.git env.semver url (dep.version.getD "") =
          .ok (some (tag, commit))
      else resolveAvailableCommit env.git url dep = .ok commit := by
  rw [offered]
  split
  · cases resolveVersionConstraint env.git env.semver url (dep.version.getD "") with
    | error e => simp
    | ok answer =>
      cases answer with
      | none => simp
      | some best => simp [Prod.ext_iff]
  · cases resolveAvailableCommit env.git url dep <;> simp [Except.toOption]

/-- **A dependency is planned as updated exactly when it is outdated.** -/
theorem planChange_status_iff (dep : Dependency) :
    (planChange env cache lock name dep).status = .updated ↔ Outdated env lock name dep := by
  cases hgit : dep.git with
  | none => simp [planChange, Outdated, hgit]
  | some url =>
    cases hrev : dep.rev with
    | some rev => simp [planChange, Outdated, hgit, hrev]
    | none =>
      rw [planChange_eq env cache lock name hgit hrev]
      simp only [Outdated, hgit, hrev, Option.some.injEq, true_and, exists_eq_left',
        offered_eq_some_iff]
      split
      · rw [(planConstraint_spec env cache name _ _ _ dep).2.1, exists_comm]
        simp only [exists_and_right]
      · exact (planReference_spec env cache name _ _ dep).2.1

/-- A git dependency is planned as unchanged exactly when its remote offers the locked commit. -/
theorem planChange_unchanged_iff {dep : Dependency} {url : String} (hgit : dep.git = some url) :
    (planChange env cache lock name dep).status = .unchanged ↔
      dep.rev = none ∧ ∃ commit, offered env url dep = some commit ∧
        ¬(lockedCommit lock name = "" ∨ commit ≠ lockedCommit lock name) := by
  cases hrev : dep.rev with
  | some rev => simp [planChange, hgit, hrev]
  | none =>
    rw [planChange_eq env cache lock name hgit hrev]
    simp only [true_and, offered_eq_some_iff]
    split
    · rw [(planConstraint_spec env cache name _ _ _ dep).2.2.1, exists_comm]
      simp only [exists_and_right]
    · exact (planReference_spec env cache name _ _ dep).2.2.1

end PlanChange

end SorobanDevkit.Core
