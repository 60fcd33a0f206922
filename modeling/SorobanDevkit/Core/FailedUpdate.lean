import SorobanDevkit.Core.LockSoundness

/-!
# What a failed update leaves

`apply_updates` moves the checkouts of the dependencies it updates one after the other, and writes
the lock at the end. When it fails in between, the checkouts that were moved before stay where they
are, while the lock is that of before. A failure to write the lock may leave it torn.

## Main results

* `fetchUpdated_stops` — what the loop fetches, and what it leaves.
* `leftAt_after_iff` — where a checkout is after the loop.
* `failed_update_consistent_iff` — when a failed update leaves a consistent project.
-/

namespace SorobanDevkit.Core

open NameIndex

/-- `apply_updates`, where writing the lock may fail after the file was opened. What can be read of
the lock then is `torn`. -/
def applyUpdatesTorn (env : Env) (torn : Option (Option LockFile)) (base : String)
    (config : DevKitConfig) (w : Workspace) :
    Except SyncError (UpdateReport × LockFile) × Workspace :=
  match applyUpdates env base config w with
  | (.error (.io context source), w') =>
    (.error (.io context source), { w' with lock := torn.getD w'.lock })
  | result => result

section Loop

variable {env : Env} {base : String} {config : DevKitConfig}

/-- `HEAD` of a checkout is kept while its other refs are fetched. -/
theorem headCommit_of_prepare {git : Git} {cacheRoot url key : String} {force : Bool}
    {c c' : Checkout} (h : prepare git cacheRoot url key force (some c) = .ok c') :
    c'.headCommit = c.headCommit := by
  cases force with
  | true =>
    obtain ⟨remote, -, rfl⟩ := Except.map_eq_ok_iff.mp (Except.mapError_eq_ok_iff.mp h)
    rfl
  | false =>
    obtain ⟨remote, -, rfl⟩ := Except.map_eq_ok_iff.mp (Except.mapError_eq_ok_iff.mp h)
    rfl

/-- A fetch that fails keeps `HEAD` of every checkout. -/
theorem headCommit_of_failed_fetch {git : Git} {semver : Semver} {mkdirFault : Option String}
    {cacheRoot name : String} {cache cache' : Cache} {dep : Dependency} {force : Bool}
    {e : FetchError}
    (h : gitFetch git semver mkdirFault cacheRoot cache name dep force = (.error e, cache'))
    {key : String} {c : Checkout} (hc : cache key = some c) :
    ∃ c', cache' key = some c' ∧ c'.headCommit = c.headCommit := by
  rw [gitFetch] at h
  split at h
  · cases h; exact ⟨c, hc, rfl⟩
  · next url _ =>
    split at h
    · cases h; exact ⟨c, hc, rfl⟩
    · split at h
      · cases h; exact ⟨c, hc, rfl⟩
      · split at h
        · cases h; exact ⟨c, hc, rfl⟩
        · next effective _ =>
          unfold materialize at h
          split at h
          · cases h; exact ⟨c, hc, rfl⟩
          · simp only at h
            split at h
            · cases h
            · split at h
              · cases h; exact ⟨c, hc, rfl⟩
              · next c₁ hprepare =>
                split at h
                · cases h
                  by_cases hkey : key = gitCacheKey effective
                  · subst hkey
                    rw [hc] at hprepare
                    exact ⟨c₁, Function.update_self _ _ _, headCommit_of_prepare hprepare⟩
                  · exact ⟨c, (Function.update_of_ne hkey _ _).trans hc, rfl⟩
                · cases h

/-- When the body of the loop fails, it keeps `HEAD` of every checkout, and the error is not one of
the file system. -/
theorem fetchChange_error {change : UpdateChange} {cache cache' : Cache} {e : SyncError}
    (h : fetchChange env base config change cache = (.error e, cache')) :
    (∀ context source, e ≠ .io context source) ∧
      ∀ key c, cache key = some c → ∃ c', cache' key = some c' ∧ c'.headCommit = c.headCommit := by
  rw [fetchChange] at h
  split at h
  · cases h
  · split at h
    · cases h
    · next dep hget =>
      split at h
      · cases h
      · simp only at h
        split at h
        · cases h
          exact ⟨by simp, fun key c hc => ⟨c, hc, rfl⟩⟩
        · split at h
          · next e' cache₁ hfetch =>
            cases h
            refine ⟨fun context source h => ?_,
              fun key c hc => headCommit_of_failed_fetch hfetch hc⟩
            cases e' with
            | git args status stderr =>
              simp only [FetchError.toSyncError] at h
              split at h <;> cases h
            | _ => cases h
          · cases h

/-- The sources that an update fetches before it stops, and the cache it stops with. -/
abbrev FetchesUntil (env : Env) (base : String) (config : DevKitConfig) (w : Workspace)
    (lock : LockFile) : List Source → Cache → Prop :=
  KeyedRun.Stops sourceKey (UpdatesTo env base)
    (updateSources env w.cache lock config.dependencies.entries) w.cache

/-- **The loop fetches sources until one cannot be fetched**, and leaves `HEAD` of every checkout
where that is then, whether it fails or not. -/
theorem fetchUpdated_stops {w : Workspace} {lock : LockFile} {cache' : Cache}
    {result : Except SyncError (List FetchOutcome)}
    (h : fetchUpdated env base config (plannedChanges env config w.cache lock) w.cache =
      (result, cache')) :
    ∃ done stop, FetchesUntil env base config w lock done stop ∧
      (∀ key c, stop key = some c → ∃ c', cache' key = some c' ∧ c'.headCommit = c.headCommit) ∧
      ((∃ fetched, result = .ok fetched) ↔
        done = updateSources env w.cache lock config.dependencies.entries) ∧
      ∀ context source, result ≠ .error (.io context source) := by
  rcases fetchUpdated_run (fun _ he => he) h with ⟨⟨fetched, rfl⟩, hrun⟩ | ⟨before, name, dep,
    after, s, start, e, hsplit, hsource, rfl, hrun, hnever, hone⟩
  · refine ⟨_, cache', ⟨[], (List.append_nil _).symm, hrun, by simp⟩,
      fun key c hc => ⟨c, hc, rfl⟩, iff_of_true ⟨fetched, rfl⟩ rfl, by simp⟩
  · have hsources : updateSources env w.cache lock config.dependencies.entries =
        updateSources env w.cache lock before ++ s :: updateSources env w.cache lock after := by
      rw [hsplit, updateSources, List.filterMap_append, List.filterMap_cons, hsource]
      rfl
    obtain ⟨hio, hheads⟩ := fetchChange_error hone
    refine ⟨_, start, ⟨_, hsources, hrun, ?_⟩, hheads, iff_of_false (by simp) ?_, ?_⟩
    · rintro s' rest' hrest a
      obtain ⟨rfl, -⟩ := List.cons.inj hrest
      exact hnever a
    · intro hall
      have hlength := congrArg List.length (hall.trans hsources)
      simp at hlength
    · intro context source heq
      exact hio context source (Except.error.inj heq)

end Loop

/-! ### What the checker finds afterwards -/

/-- The integrity of the tree of a checkout, if git can read it. -/
def treeIntegrity (git : Git) (c : Checkout) : String :=
  match c.headCommit with
  | none => ""
  | some commit => if git.tree commit = "" then "" else "sha256:" ++ git.tree commit

/-- A checkout is where an entry says, as far as git can read it. -/
def LeftAt (git : Git) (entry : DependencyLock) (c : Checkout) : Prop :=
  (headRev c ≠ "" → headRev c = entry.commitSha) ∧
    (entry.integrity ≠ "" → treeIntegrity git c ≠ "" → treeIntegrity git c = entry.integrity)

theorem leftAt_congr {git : Git} {entry : DependencyLock} {c c' : Checkout}
    (h : c'.headCommit = c.headCommit) : LeftAt git entry c' ↔ LeftAt git entry c := by
  rw [LeftAt, LeftAt, headRev, headRev, treeIntegrity, treeIntegrity, h]

/-- A commit is the one that an entry locks. When there was no commit to compare its integrity with
before, that is the one of the tree of the commit. -/
def LockedAt (git : Git) (entry : DependencyLock) (before : Checkout) (commit : ObjectId) : Prop :=
  commit.text = entry.commitSha ∧
    (before.headCommit = none → entry.integrity ≠ "" → git.tree commit ≠ "" →
      "sha256:" ++ git.tree commit = entry.integrity)

/-- From where an entry says, a checkout is moved to another such place exactly if `HEAD` is then at
the locked commit. -/
theorem leftAt_iff {git : Git} {entry : DependencyLock} {before c : Checkout}
    (hbefore : LeftAt git entry before) :
    LeftAt git entry c ↔
      ∀ commit, c.headCommit = some commit → LockedAt git entry before commit := by
  obtain ⟨hhead, hintegrity⟩ := hbefore
  cases hc : c.headCommit with
  | none => simp [LeftAt, headRev, treeIntegrity, hc]
  | some commit =>
    simp only [LeftAt, headRev, hc, idText_some, treeIntegrity, Option.some.injEq, forall_eq',
      LockedAt]
    refine ⟨fun h => ⟨h.1 commit.ne, fun _ hlocked htree => ?_⟩, fun h => ⟨fun _ => h.1, ?_⟩⟩
    · rw [if_neg htree] at h
      exact h.2 hlocked (by simp [String.append_eq_empty_iff])
    · intro hlocked hread
      split at hread
      · exact absurd rfl hread
      · next htree =>
        rw [if_neg htree]
        cases hold : before.headCommit with
        | none => exact h.2 hold hlocked htree
        | some commit' =>
          rw [headRev, hold, idText_some] at hhead
          obtain rfl : commit' = commit :=
            ObjectId.text_injective ((hhead commit'.ne).trans h.1.symm)
          simp only [treeIntegrity, hold, if_neg htree] at hintegrity
          exact hintegrity hlocked (by simp [String.append_eq_empty_iff])

section Check

variable {git : Git} {fs : FileSystem} {base : String} {cache cache' : Cache} {dep : Dependency}
  {entry : DependencyLock}

theorem computeDependencyIntegrity_of (hgit : dep.git.isSome) {c : Checkout}
    (hc : cache (gitCacheKey dep) = some c) :
    computeDependencyIntegrity (.of git cache) fs base dep = treeIntegrity git c := by
  obtain ⟨url, hurl⟩ := Option.isSome_iff_exists.mp hgit
  simp only [computeDependencyIntegrity, hurl, CacheReading.of, hc, Option.isSome_some, if_true,
    Option.bind_some, treeIntegrity]
  cases c.headCommit <;> rfl

/-- What the checker compares of a locked commit. -/
theorem cacheMismatches_eq_nil_iff_leftAt (hgit : dep.git.isSome) (name : String) :
    cacheMismatches (.of git cache) fs base name dep entry = [] ↔
      ∃ c, cache (gitCacheKey dep) = some c ∧ LeftAt git entry c := by
  rw [cacheMismatches_of_eq_nil_iff]
  constructor
  · rintro ⟨c, hc, hagrees⟩
    rw [computeDependencyIntegrity_of hgit hc] at hagrees
    exact ⟨c, hc, hagrees⟩
  · rintro ⟨c, hc, hagrees⟩
    rw [computeDependencyIntegrity_of hgit hc]
    exact ⟨c, hc, hagrees⟩

/-- In another cache an entry agrees when the checkout of its commit is where it says. -/
theorem depAgrees_iff_of (h : DepAgrees (.of git cache) fs base dep entry) :
    DepAgrees (.of git cache') fs base dep entry ↔ (dep.git.isSome → entry.commitSha ≠ "" →
      ∃ c, cache' (gitCacheKey dep) = some c ∧ LeftAt git entry c) := by
  cases h with
  | git url hgit hsource hurl hreference hcheckout =>
    have hsome : dep.git.isSome := by simp [hgit]
    constructor
    · rintro (⟨-, -, -, -, -, hcheckout'⟩ | ⟨hnone, -, -, -⟩) - hcommit
      · exact (cacheMismatches_eq_nil_iff_leftAt hsome "").mp
          (cacheMismatches_eq_nil_iff.mpr (hcheckout' hcommit))
      · cases hgit.symm.trans hnone
    · intro hleft
      refine .git url hgit hsource hurl hreference fun hcommit => ?_
      exact cacheMismatches_eq_nil_iff.mp
        ((cacheMismatches_eq_nil_iff_leftAt hsome "").mpr (hleft hsome hcommit))
  | path hgit hsource horiginal hexists =>
    exact iff_of_true (.path hgit hsource horiginal hexists) fun hsome => by simp [hgit] at hsome

end Check

/-- What a failed update leaves: the cache of the loop, and the lock, unless it is torn. -/
theorem applyUpdatesTorn_error {env : Env} {torn : Option (Option LockFile)} {base : String}
    {config : DevKitConfig} {w w' : Workspace} {lock : LockFile} {e : SyncError}
    (hvalid : validateManifest env.semver env.fs env.scan base config = .ok ())
    (hlock : w.lock = some lock)
    (h : applyUpdatesTorn env torn base config w = (.error e, w')) :
    ∃ result, fetchUpdated env base config (plannedChanges env config w.cache lock) w.cache =
        (result, w'.cache) ∧
      ((∃ e', result = .error e') ∧ w'.lock = w.lock ∨
        (∃ fetched, result = .ok fetched) ∧ w'.lock = torn.getD w.lock) := by
  have hplan : planUpdates env base config w =
      .ok (summarize (plannedChanges env config w.cache lock)) := by
    rw [planUpdates, hvalid, hlock]
    rfl
  have hchanges : (summarize (plannedChanges env config w.cache lock)).changes =
      plannedChanges env config w.cache lock := rfl
  rw [applyUpdatesTorn, applyUpdates, hvalid, hplan] at h
  simp only [hchanges] at h
  cases hloop : fetchUpdated env base config (plannedChanges env config w.cache lock) w.cache with
  | mk result cache' =>
    rw [hloop] at h
    cases result with
    | error e' =>
      simp only at h
      obtain ⟨-, -, -, -, -, hio⟩ := fetchUpdated_stops hloop
      split at h
      · next context source _ heq =>
        exact absurd (congrArg _ (Except.error.inj (Prod.mk.inj heq).1)) (hio context source)
      · cases h
        exact ⟨_, rfl, .inl ⟨⟨_, rfl⟩, rfl⟩⟩
    | ok fetched =>
      simp only [hlock] at h
      cases hfault : env.lockFault with
      | none =>
        rw [hfault] at h
        cases h
      | some source =>
        rw [hfault] at h
        cases h
        exact ⟨_, rfl, .inr ⟨⟨fetched, rfl⟩, by rw [hlock]⟩⟩

/-- **Where a checkout is after the loop**, compared with an entry that agreed before: the commits
at which the last fetches into its directory leave `HEAD` are the locked ones. -/
theorem leftAt_after_iff {env : Env} {base key : String} {done : List Source} {cache stop : Cache}
    {entry : DependencyLock} {before c : Checkout}
    (hrun : UpdateRun env base done cache stop) (hbefore : cache key = some before)
    (hleft : LeftAt env.git entry before) (hc : stop key = some c) :
    LeftAt env.git entry c ↔ ∀ commit,
      AtLast sourceKey (UpdatesTo env base) (LeavesAt env.git (cacheRootOf base) true commit) done
        cache key → LockedAt env.git entry before commit := by
  rcases hrun.cell key with ⟨hne, hsame⟩ | ⟨a, ha, hlast⟩
  · obtain rfl := Option.some.inj (hbefore.symm.trans (hsame.symm.trans hc))
    refine iff_of_true hleft fun commit hlast => ?_
    obtain ⟨s, hs, hkey⟩ := hlast.exists_mem
    exact absurd hkey (hne s hs)
  · obtain rfl := Option.some.inj (ha.symm.trans hc)
    rw [leftAt_iff hleft]
    refine forall_congr' fun commit => imp_congr_left ⟨fun hhead => ?_, fun hleaves => ?_⟩
    · exact hlast.imp fun s start hstep => (hstep.fetch.leavesAt_iff commit).mpr hhead
    · obtain ⟨s, start, a', -, hleaves, hstep, ha'⟩ :=
        hrun.exists_step_of_atLast UpdatesTo.unique hleaves
      obtain rfl := Option.some.inj (ha'.symm.trans ha)
      exact (hstep.fetch.leavesAt_iff commit).mp hleaves

/-- The sources that are fetched move no checkout away from a locked commit: the last fetch into the
directory of a locked dependency leaves `HEAD` at the commit that is locked. When they are all that
the update fetches, the failing write spares the lock. -/
structure MovesNothing (env : Env) (torn : Option (Option LockFile)) (base : String)
    (config : DevKitConfig) (w : Workspace) (lock : LockFile) (done : List Source) : Prop where
  spared : done = updateSources env w.cache lock config.dependencies.entries →
    torn = none ∨ torn = some w.lock
  locked : ∀ name dep entry before commit, (name, dep) ∈ config.dependencies.entries →
    dep.git.isSome → lockedEntry lock name = some entry → entry.commitSha ≠ "" →
    w.cache (gitCacheKey dep) = some before →
    AtLast sourceKey (UpdatesTo env base) (LeavesAt env.git (cacheRootOf base) true commit) done
      w.cache (gitCacheKey dep) → LockedAt env.git entry before commit

/-- **A failed update leaves a consistent project exactly when what it fetches before it stops moves
no checkout away from a locked commit.** -/
theorem failed_update_consistent_iff {env : Env} {torn : Option (Option LockFile)} {base : String}
    {config : DevKitConfig} {w w' : Workspace} {lock : LockFile} {e : SyncError}
    (hvalid : validateManifest env.semver env.fs env.scan base config = .ok ())
    (hlock : w.lock = some lock)
    (hconsistent : (verifyDependencies env.git env.fs base config w).consistent = true)
    (h : applyUpdatesTorn env torn base config w = (.error e, w')) :
    (w'.lock = w.lock ∧
        (verifyDependencies env.git env.fs base config w').consistent = true) ↔
      ∀ done stop, FetchesUntil env base config w lock done stop →
        MovesNothing env torn base config w lock done := by
  obtain ⟨lock', hlock', hagrees⟩ := verifyReading_consistent_iff.mp hconsistent
  obtain rfl := Option.some.inj (hlock.symm.trans hlock')
  obtain ⟨result, hloop, hresult⟩ := applyUpdatesTorn_error hvalid hlock h
  obtain ⟨done, stop, hstops, hheads, hall, -⟩ := fetchUpdated_stops hloop
  have hrun : UpdateRun env base done w.cache stop := by
    obtain ⟨-, -, hrun, -⟩ := hstops
    exact hrun
  have hkept : w'.lock = w.lock ↔
      (done = updateSources env w.cache lock config.dependencies.entries →
        torn = none ∨ torn = some w.lock) := by
    rw [← hall]
    rcases hresult with ⟨⟨e', rfl⟩, hkept⟩ | ⟨hok, htorn⟩
    · exact iff_of_true hkept fun hok => by simp at hok
    · rw [htorn]
      simp only [hok, forall_const]
      cases torn <;> simp
  -- the checkout of a locked dependency is as the loop leaves it
  have hleft : ∀ {dep entry before}, w.cache (gitCacheKey dep) = some before →
      LeftAt env.git entry before →
      ((∃ c, w'.cache (gitCacheKey dep) = some c ∧ LeftAt env.git entry c) ↔ ∀ commit,
        AtLast sourceKey (UpdatesTo env base) (LeavesAt env.git (cacheRootOf base) true commit)
          done w.cache (gitCacheKey dep) → LockedAt env.git entry before commit) := by
    intro dep entry before hbefore hleft
    obtain ⟨c, hc⟩ := hrun.exists_of_some hbefore
    obtain ⟨c', hc', hhead⟩ := hheads _ c hc
    rw [← leftAt_after_iff hrun hbefore hleft hc, ← leftAt_congr hhead]
    simp [hc']
  have hafter : w'.lock = w.lock →
      ((verifyDependencies env.git env.fs base config w').consistent = true ↔
        ∀ e ∈ config.dependencies.entries, ∃ entry, lockedEntry lock e.1 = some entry ∧
          DepAgrees (.of env.git w'.cache) env.fs base e.2 entry) := by
    intro hsame
    rw [verifyDependencies, verifyReading_consistent_iff, hsame, hlock]
    constructor
    · rintro ⟨l, hl, hagrees'⟩
      obtain rfl := Option.some.inj hl
      exact hagrees'.recorded
    · exact fun hrecorded => ⟨lock, rfl, hrecorded, hagrees.declared⟩
  constructor
  · rintro ⟨hsame, hafterwards⟩ done' stop' hstops'
    obtain ⟨rfl, rfl⟩ := hstops.unique UpdatesTo.unique hstops'
    refine ⟨hkept.mp hsame,
      fun name dep entry before commit hdep hgit hentry hcommit hbefore => ?_⟩
    obtain ⟨entry₀, hentry₀, hagreed⟩ := hagrees.recorded (name, dep) hdep
    obtain rfl := Option.some.inj (hentry.symm.trans hentry₀)
    obtain ⟨entry₁, hentry₁, hagrees'⟩ := (hafter hsame).mp hafterwards (name, dep) hdep
    obtain rfl := Option.some.inj (hentry.symm.trans hentry₁)
    obtain ⟨before', hbefore', hleft₀⟩ := (depAgrees_iff_of hagreed).mp hagreed hgit hcommit
    obtain rfl := Option.some.inj (hbefore.symm.trans hbefore')
    exact (hleft hbefore hleft₀).mp ((depAgrees_iff_of hagreed).mp hagrees' hgit hcommit) commit
  · intro hcond
    obtain ⟨hspared, hlocked⟩ := hcond done stop hstops
    have hsame := hkept.mpr hspared
    refine ⟨hsame, (hafter hsame).mpr ?_⟩
    rintro ⟨name, dep⟩ hdep
    obtain ⟨entry, hentry, hagreed⟩ := hagrees.recorded (name, dep) hdep
    refine ⟨entry, hentry, (depAgrees_iff_of hagreed).mpr fun hgit hcommit => ?_⟩
    obtain ⟨before, hbefore, hleft₀⟩ := (depAgrees_iff_of hagreed).mp hagreed hgit hcommit
    exact (hleft hbefore hleft₀).mpr fun commit =>
      hlocked name dep entry before commit hdep hgit hentry hcommit hbefore

section LibraryAndTool

/-- A dependency on the branch of the repository. -/
def toolDep : Dependency :=
  { Dependency.default with git := some "https://host/library", branch := some "main" }

/-- A project that depends on the tag and on the branch. -/
def toolConfig : DevKitConfig :=
  { libraryConfig with dependencies := ⟨[("library", libraryDep), ("tool", toolDep)], by decide⟩ }

/-- The project reaches the repository, but it cannot be cloned. -/
def uncloneableEnv (tag : ObjectId) : Env :=
  { libraryEnv tag with
    git := { libraryGit tag with
      fault := fun command =>
        match command with
        | .clone _ _ => some (.exit (some 128) "fatal: could not create work tree dir")
        | _ => none } }

/-- The tag was fetched at a commit, and the branch was not fetched. -/
def toolWorkspace (commit : ObjectId) : Workspace :=
  { libraryWorkspace commit with
    lock := some
      { libraryLock commit with
        dependencies := (libraryLock commit).dependencies ++
          [lockDependency "/app" "tool" toolDep] } }

theorem updateSources_tool : updateSources (uncloneableEnv tagObject) (toolWorkspace commit₁).cache
    (((toolWorkspace commit₁).lock).getD (libraryLock commit₁)) toolConfig.dependencies.entries =
      [("https://host/library", libraryDep), ("https://host/library", toolDep)] := by
  decide +kernel

/-- The tag has become an annotated one of the locked commit, and the update of the branch fails
after it was fetched. What is left is consistent. -/
theorem failed_update_consistent_iff_tool : ∃ e w',
    applyUpdatesTorn (uncloneableEnv tagObject) none "/app" toolConfig (toolWorkspace commit₁) =
        (.error e, w') ∧
      w'.lock = (toolWorkspace commit₁).lock ∧
      (verifyDependencies (uncloneableEnv tagObject).git (uncloneableEnv tagObject).fs "/app"
        toolConfig w').consistent = true := by
  have hfails : ∃ e w', applyUpdatesTorn (uncloneableEnv tagObject) none "/app" toolConfig
      (toolWorkspace commit₁) = (.error e, w') := ⟨_, _, rfl⟩
  obtain ⟨e, w', hfails⟩ := hfails
  refine ⟨e, w', hfails, (failed_update_consistent_iff rfl rfl (by decide +kernel) hfails).mpr ?_⟩
  rintro done stop ⟨rest, hsplit, -, -⟩
  replace hsplit : [("https://host/library", libraryDep), ("https://host/library", toolDep)] =
      done ++ rest := updateSources_tool.symm.trans hsplit
  refine ⟨fun _ => .inl rfl, fun name dep entry before commit hdep _ hentry hcommit hbefore => ?_⟩
  rintro ⟨earlier, s, later, start, rfl, -, hkey, hrun, hleaves⟩
  rcases List.mem_cons.mp hdep with heq | hdep
  · obtain ⟨rfl, rfl⟩ := Prod.mk.inj heq
    -- the tag is the first source, and it stands for the commit that is locked
    have hne : gitCacheKey toolDep ≠ gitCacheKey libraryDep := by decide +kernel
    cases earlier with
    | nil =>
      cases hrun
      obtain ⟨rfl, -⟩ := List.cons.inj hsplit
      rcases hleaves with ⟨c, ⟨hforce, -⟩, -⟩ | ⟨-, c, hprepare, hstands⟩
      · cases hforce
      · rw [sourceKey, hbefore] at hprepare
        simp only [toolWorkspace, libraryWorkspace, Function.update_self] at hbefore
        obtain rfl := Option.some.inj hbefore
        obtain rfl := Except.ok.inj hprepare
        obtain rfl : commit₁ = commit := Option.some.inj hstands
        obtain rfl := Option.some.inj hentry
        exact ⟨rfl, fun hnone => by cases hnone⟩
    | cons first earlier =>
      obtain ⟨-, htail⟩ := List.cons.inj hsplit
      have hs : s ∈ [("https://host/library", toolDep)] := htail ▸ by simp
      obtain rfl := List.mem_singleton.mp hs
      exact absurd hkey hne
  · obtain ⟨rfl, rfl⟩ := Prod.mk.inj (List.mem_singleton.mp hdep)
    obtain rfl := Option.some.inj hentry
    exact absurd rfl hcommit

/-- The update of the branch fails after the tag was moved. -/
theorem failed_update_moves_library : ∃ e w',
    validateManifest (uncloneableEnv commit₁).semver (uncloneableEnv commit₁).fs
        (uncloneableEnv commit₁).scan "/app" toolConfig = .ok () ∧
      (verifyDependencies (uncloneableEnv commit₁).git (uncloneableEnv commit₁).fs "/app" toolConfig
        (toolWorkspace commit₀)).consistent = true ∧
      applyUpdates (uncloneableEnv commit₁) "/app" toolConfig (toolWorkspace commit₀) =
        (.error e, w') ∧
      (verifyDependencies (uncloneableEnv commit₁).git (uncloneableEnv commit₁).fs "/app" toolConfig
        w').consistent = false := by
  refine ⟨_, _, rfl, ?_, rfl, ?_⟩
  · decide +kernel
  · decide +kernel

end LibraryAndTool

end SorobanDevkit.Core
