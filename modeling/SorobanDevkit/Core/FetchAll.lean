import SorobanDevkit.Core.Update

/-!
# Fetching all dependencies and verifying the lock

`sdkt package fetch` fetches the dependencies of a manifest one after the other and writes the lock
from the outcomes; `sdkt lock verify` compares the lock with the manifest and the cache. The checker
computes the directory of a dependency from the manifest and compares `HEAD` with what the fetch
recorded.
-/

namespace SorobanDevkit.Core

open Strings NameIndex

/-! ### The loop of `sdkt package fetch` -/

/-- The body of the loop of `sdkt package fetch`. -/
def fetchOne (env : Env) (base : String) (force : Bool) (name : String) (dep : Dependency)
    (cache : Cache) : Except FetchError FetchOutcome × Cache :=
  if dep.git.isSome then
    gitFetch env.git env.semver env.mkdirFault (cacheRootOf base) cache name dep force
  else (pathFetch name dep, cache)

/-- The loop of `sdkt package fetch`, which stops at the first error. -/
def fetchAll (env : Env) (base : String) (force : Bool) :
    List (String × Dependency) → Cache → Except FetchError (List FetchOutcome) × Cache
  | [], cache => (.ok [], cache)
  | (name, dep) :: deps, cache =>
    match fetchOne env base force name dep cache with
    | (.error e, cache) => (.error e, cache)
    | (.ok outcome, cache) =>
      match fetchAll env base force deps cache with
      | (.error e, cache) => (.error e, cache)
      | (.ok outcomes, cache) => (.ok (outcome :: outcomes), cache)

/-- The lock that `sdkt package fetch` writes: the one before with the dependencies rebuilt. -/
def fetchedLock (env : Env) (base : String) (config : DevKitConfig) (cache : Cache)
    (outcomes : List FetchOutcome) (lock : LockFile) : LockFile :=
  { lock with
    dependencies := lockDependenciesResolved env.git env.fs base cache config outcomes }

/-! ### What is fetched -/

section Run

variable {env : Env} {base : String} {force : Bool}

end Run

/-! ### What the checker accepts -/

section Verify

variable {git : Git} {fs : FileSystem} {base name url : String} {cache : Cache} {dep : Dependency}

theorem cacheMismatches_eq_nil_iff {reading : CacheReading} {entry : DependencyLock} :
    cacheMismatches reading fs base name dep entry = [] ↔
      reading.present (gitCacheKey dep) = true ∧
        (gitHeadCommit reading (gitCacheKey dep) ≠ "" →
          gitHeadCommit reading (gitCacheKey dep) = entry.commitSha) ∧
        (entry.integrity ≠ "" → computeDependencyIntegrity reading fs base dep ≠ "" →
          computeDependencyIntegrity reading fs base dep = entry.integrity) := by
  rw [cacheMismatches]
  cases hpresent : reading.present (gitCacheKey dep) with
  | false => simp
  | true =>
    simp only [Bool.true_eq_false, if_false, headDiffers, List.append_eq_nil_iff, ite_eq_right_iff,
      reduceCtorEq, imp_false, not_and, not_not, decide_eq_true_eq, true_and]

theorem gitHeadCommit_of {c : Checkout} {key : String} (h : cache key = some c) :
    gitHeadCommit (.of git cache) key = headRev c := by
  simp only [gitHeadCommit, CacheReading.of, h, Option.bind_some]
  rfl

/-- The comparison with a checkout that git can read. -/
theorem cacheMismatches_of_eq_nil_iff {entry : DependencyLock} :
    cacheMismatches (.of git cache) fs base name dep entry = [] ↔
      ∃ c, cache (gitCacheKey dep) = some c ∧ (headRev c ≠ "" → headRev c = entry.commitSha) ∧
        (entry.integrity ≠ "" → computeDependencyIntegrity (.of git cache) fs base dep ≠ "" →
          computeDependencyIntegrity (.of git cache) fs base dep = entry.integrity) := by
  rw [cacheMismatches_eq_nil_iff]
  cases hcache : cache (gitCacheKey dep) with
  | none => simp [CacheReading.of, hcache]
  | some c =>
    have hpresent : (CacheReading.of git cache).present (gitCacheKey dep) = true := by
      simp [CacheReading.of, hcache]
    rw [gitHeadCommit_of hcache]
    simp only [hpresent, true_and, Option.some.injEq, exists_eq_left']

theorem gitMismatches_eq_nil_iff {reading : CacheReading} {entry : DependencyLock} :
    gitMismatches reading fs base name url dep entry = [] ↔
      entry.gitUrl = url ∧ entry.resolvedReference = dep.reference.getD "" ∧
        (entry.commitSha ≠ "" → cacheMismatches reading fs base name dep entry = []) := by
  simp only [gitMismatches, List.append_eq_nil_iff, ite_eq_right_iff, reduceCtorEq, imp_false,
    not_not, and_assoc]

end Verify

section Resolved

variable {git : Git} {fs : FileSystem} {base : String} {cache : Cache} {config : DevKitConfig}
  {lock : LockFile} {fetched : List FetchOutcome} {name : String} {dep : Dependency}

end Resolved

end SorobanDevkit.Core
