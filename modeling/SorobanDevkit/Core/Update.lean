import SorobanDevkit.Core.FetchRuns
import SorobanDevkit.Core.Sync

/-!
# What an update does to the lock

A successful `apply_updates` rebuilds every dependency entry. The entry of a dependency that was
fetched carries what the fetch reports; every other entry is made from the manifest alone, so that
the commit, the cache location and the integrity that were locked before are lost.

## Main results

* `applyUpdates_ok` — the steps of a successful update.
* `resolvedEntry_updated`, `resolvedEntry_not_updated` — the entry of a dependency after an update.
* `update_preserves_iff` — when an update keeps what it does not update.
* `second_plan_iff` — when nothing is left to update after an update.
-/

namespace SorobanDevkit.Core

open Strings NameIndex

section Run

variable {env : Env} {base : String} {config : DevKitConfig}

/-! ### The fetches of an update -/

/-- The outcome is the one of the fetch that `apply_updates` makes for a change. -/
def FetchedFor (env : Env) (base : String) (config : DevKitConfig) (change : UpdateChange)
    (outcome : FetchOutcome) : Prop :=
  change.status = .updated ∧ ∃ dep cache cache',
    config.dependencies.get? change.name = some dep ∧ dep.git.isSome ∧
      gitFetch env.git env.semver env.mkdirFault (cacheRootOf base) cache change.name
        (fetchDep change dep) true = (.ok outcome, cache')

theorem fetchChange_ok {change : UpdateChange} {cache cache' : Cache}
    {outcome : Option FetchOutcome}
    (h : fetchChange env base config change cache = (.ok outcome, cache')) :
    (∀ o, outcome = some o → FetchedFor env base config change o) ∧
      (change.status = .updated → ∀ dep, config.dependencies.get? change.name = some dep →
        dep.git.isSome → outcome.isSome) := by
  rw [fetchChange] at h
  split at h
  · next hstatus =>
    cases h
    exact ⟨by simp, fun hupdated => absurd hupdated hstatus⟩
  · next hstatus =>
    split at h
    · next hget =>
      cases h
      exact ⟨by simp, fun _ dep hdep => by simp [hget] at hdep⟩
    · next dep hget =>
      split at h
      · next hnone =>
        cases h
        refine ⟨by simp, fun _ dep' hdep' hgit => ?_⟩
        obtain rfl : dep = dep' := Option.some.inj (hget.symm.trans hdep')
        simp [Option.isNone_iff_eq_none.mp hnone] at hgit
      · next hsome =>
        simp only at h
        split at h
        · cases h
        · split at h
          · cases h
          · next o cache'' hfetch =>
            cases h
            have hgit : dep.git.isSome := by simpa [Option.isSome_iff_ne_none] using hsome
            refine ⟨fun o' ho' => ?_, by simp⟩
            obtain rfl : o = o' := Option.some.inj ho'
            exact ⟨not_not.mp hstatus, dep, cache, _, hget, hgit, hfetch⟩

/-- Every outcome is the one of a change, and every change that asks for a fetch has one. -/
theorem fetchUpdated_ok {changes : List UpdateChange} {cache cache' : Cache}
    {fetched : List FetchOutcome}
    (h : fetchUpdated env base config changes cache = (.ok fetched, cache')) :
    (∀ o ∈ fetched, ∃ change ∈ changes, FetchedFor env base config change o) ∧
      ∀ change ∈ changes, change.status = .updated →
        ∀ dep, config.dependencies.get? change.name = some dep → dep.git.isSome →
          ∃ o ∈ fetched, FetchedFor env base config change o := by
  induction changes generalizing cache fetched with
  | nil =>
    cases h
    simp
  | cons change changes ih =>
    rw [fetchUpdated] at h
    split at h
    · cases h
    · next outcome cache₁ hchange =>
      split at h
      · cases h
      · next outcomes cache₂ hchanges =>
        cases h
        obtain ⟨hone, hall⟩ := fetchChange_ok hchange
        obtain ⟨hmem, hfetched⟩ := ih hchanges
        constructor
        · intro o ho
          rcases List.mem_append.mp ho with ho | ho
          · exact ⟨change, List.mem_cons_self, hone o (by simpa using ho)⟩
          · obtain ⟨change', hchange', hfor⟩ := hmem o ho
            exact ⟨change', List.mem_cons_of_mem _ hchange', hfor⟩
        · intro change' hchange' hstatus dep hdep hgit
          rcases List.mem_cons.mp hchange' with rfl | hchange'
          · obtain ⟨o, ho⟩ := Option.isSome_iff_exists.mp (hall hstatus dep hdep hgit)
            exact ⟨o, by simp [ho], hone o ho⟩
          · obtain ⟨o, ho, hfor⟩ := hfetched change' hchange' hstatus dep hdep hgit
            exact ⟨o, List.mem_append_right _ ho, hfor⟩

theorem FetchedFor.name {change : UpdateChange} {outcome : FetchOutcome}
    (h : FetchedFor env base config change outcome) : outcome.name = change.name := by
  obtain ⟨-, dep, cache, cache', -, -, hfetch⟩ := h
  obtain ⟨url, effective, -, -, hmaterialize⟩ := gitFetch_ok hfetch
  exact (materialize_ok hmaterialize).1

/-! ### The steps of an update -/

/-- The changes that are planned from a lock. -/
def plannedChanges (env : Env) (config : DevKitConfig) (cache : Cache) (lock : LockFile) :
    List UpdateChange :=
  config.dependencies.entries.map fun e => planChange env cache lock e.1 e.2

/-- **A successful update** has a valid manifest and a lock, fetches the planned changes one after
the other and writes the lock with its dependencies rebuilt. -/
theorem applyUpdates_ok {w w' : Workspace} {report : UpdateReport} {lock' : LockFile}
    (h : applyUpdates env base config w = (.ok (report, lock'), w')) :
    validateManifest env.semver env.fs env.scan base config = .ok () ∧
      ∃ lock fetched, w.lock = some lock ∧
        report = summarize (plannedChanges env config w.cache lock) ∧
        fetchUpdated env base config (plannedChanges env config w.cache lock) w.cache =
          (.ok fetched, w'.cache) ∧
        lock' = { lock with dependencies :=
          lockDependenciesResolved env.git env.fs base w'.cache config fetched } ∧
        w'.lock = some lock' := by
  rw [applyUpdates] at h
  split at h
  · cases h
  · next hvalid =>
    refine ⟨hvalid, ?_⟩
    split at h
    · cases h
    · next plan hplan =>
      split at h
      · cases h
      · next fetched cache hfetched =>
        split at h
        · cases h
        · next lock hlock =>
          simp only at h
          split at h
          · cases h
          · cases h
            rw [planUpdates, hvalid, hlock] at hplan
            obtain rfl := Except.ok.inj hplan
            exact ⟨lock, fetched, hlock, rfl, hfetched, rfl, rfl⟩

/-- The change of a dependency is the only one under its name. -/
theorem plannedChange_unique {cache : Cache} {lock : LockFile} {name : String} {dep : Dependency}
    (hdep : (name, dep) ∈ config.dependencies.entries) {change : UpdateChange}
    (hchange : change ∈ plannedChanges env config cache lock) (hname : change.name = name) :
    change = planChange env cache lock name dep := by
  obtain ⟨⟨name', dep'⟩, hmem, rfl⟩ := List.mem_map.mp hchange
  rw [planChange_name] at hname
  obtain rfl : name' = name := hname
  have heq := (UnorderedMap.get?_eq_some.mpr hmem).symm.trans (UnorderedMap.get?_eq_some.mpr hdep)
  rw [Option.some.inj heq]

section Entry

variable {cache cache' : Cache} {lock : LockFile} {fetched : List FetchOutcome} {name : String}
  {dep : Dependency}

/-- The entry of a dependency that was planned as updated carries what its fetch reports. -/
theorem resolvedEntry_updated (hdep : (name, dep) ∈ config.dependencies.entries)
    (hfetched : fetchUpdated env base config (plannedChanges env config cache lock) cache =
      (.ok fetched, cache'))
    (hgit : dep.git.isSome) (hstatus : (planChange env cache lock name dep).status = .updated) :
    ∃ o ∈ fetched, FetchedFor env base config (planChange env cache lock name dep) o ∧
      (resolvedEntry env.git env.fs base cache' config.dependencies fetched name dep).commitSha =
        o.resolvedRev := by
  obtain ⟨hmem, hall⟩ := fetchUpdated_ok hfetched
  have hplanned : planChange env cache lock name dep ∈ plannedChanges env config cache lock :=
    List.mem_map.mpr ⟨(name, dep), hdep, rfl⟩
  have hget : config.dependencies.get? (planChange env cache lock name dep).name = some dep := by
    rw [planChange_name, UnorderedMap.get?_eq_some]
    exact hdep
  obtain ⟨o', ho', hfor'⟩ := hall _ hplanned hstatus dep hget hgit
  cases hfind : fetched.find? fun o => o.name = name with
  | none =>
    have hname : o'.name = name := hfor'.name.trans (planChange_name env cache lock name dep)
    simpa [hname] using List.find?_eq_none.mp hfind o' ho'
  | some o =>
    have hname : o.name = name := by simpa using List.find?_some hfind
    have ho := List.mem_of_find?_eq_some hfind
    obtain ⟨change, hchange, hfor⟩ := hmem o ho
    have hunique := plannedChange_unique hdep hchange (hfor.name.symm.trans hname)
    refine ⟨o, ho, hunique ▸ hfor, ?_⟩
    rw [resolvedEntry, hfind]

/-- The entry of a dependency that was not planned as updated is made from the manifest. -/
theorem resolvedEntry_not_updated (hdep : (name, dep) ∈ config.dependencies.entries)
    (hfetched : fetchUpdated env base config (plannedChanges env config cache lock) cache =
      (.ok fetched, cache'))
    (hstatus : (planChange env cache lock name dep).status ≠ .updated) :
    resolvedEntry env.git env.fs base cache' config.dependencies fetched name dep =
      lockDependency base name dep := by
  refine resolvedEntry_of_not_fetched _ _ _ _ hdep fun o ho hname => hstatus ?_
  obtain ⟨change, hchange, hfor⟩ := (fetchUpdated_ok hfetched).1 o ho
  rw [← plannedChange_unique hdep hchange (hfor.name.symm.trans hname)]
  exact hfor.1

end Entry

/-! ### The sources of an update -/

/-- What an update fetches for a dependency: a source, if it is planned as updated. -/
def updateSource (env : Env) (cache : Cache) (lock : LockFile) (e : String × Dependency) :
    Option Source :=
  let change := planChange env cache lock e.1 e.2
  if change.status = .updated then e.2.git.map fun url => (url, fetchDep change e.2) else none

/-- The sources that an update fetches for dependencies. -/
def updateSources (env : Env) (cache : Cache) (lock : LockFile)
    (deps : List (String × Dependency)) : List Source :=
  deps.filterMap (updateSource env cache lock)

theorem updateSources_cons (env : Env) (cache : Cache) (lock : LockFile)
    (e : String × Dependency) (deps : List (String × Dependency)) :
    updateSources env cache lock (e :: deps) =
      (updateSource env cache lock e).toList ++ updateSources env cache lock deps := by
  rw [updateSources, List.filterMap_cons]
  cases updateSource env cache lock e <;> rfl

/-- The body of the loop fetches a source. -/
structure UpdatesTo (env : Env) (base : String) (s : Source) (cache : Cache) (c : Checkout) :
    Prop where
  binary : env.git.binary ≠ .missing
  blank : isBlank s.1 = false
  mkdir : env.mkdirFault = none
  attached : branchDetached cache s.2 = false
  fetch : FetchesTo env.git (cacheRootOf base) true s cache c

/-- A run of the loop that fetches sources. -/
abbrev UpdateRun (env : Env) (base : String) : List Source → Cache → Cache → Prop :=
  KeyedRun sourceKey (UpdatesTo env base)

theorem UpdatesTo.unique (s : Source) (cache : Cache) (c c' : Checkout)
    (h : UpdatesTo env base s cache c) (h' : UpdatesTo env base s cache c') : c = c' :=
  FetchesTo.unique s cache c c' h.fetch h'.fetch

section Sources

variable {cache₀ : Cache} {lock : LockFile} {name url commit : String} {dep : Dependency}
  {s : Source}

theorem fetchDep_of_constraint {tag : String} (hgit : dep.git = some url) (hrev : dep.rev = none)
    (hversion : (dep.tag.isNone && dep.branch.isNone && dep.version.isSome) = true)
    (hresolve : resolveVersionConstraint env.git env.semver url (dep.version.getD "") =
      .ok (some (tag, commit))) :
    fetchDep (planChange env cache₀ lock name dep) dep = atTag url tag := by
  have htag : (planChange env cache₀ lock name dep).resolvedTag = some tag := by
    rw [planChange_eq env cache₀ lock name hgit hrev, if_pos hversion]
    exact (planConstraint_spec env cache₀ name _ _ _ dep).2.2.2 tag commit hresolve
  rw [fetchDep, htag, hgit, atTag]

theorem fetchDep_of_reference (hgit : dep.git = some url) (hrev : dep.rev = none)
    (hversion : ¬(dep.tag.isNone && dep.branch.isNone && dep.version.isSome) = true) :
    fetchDep (planChange env cache₀ lock name dep) dep = dep := by
  have htag : (planChange env cache₀ lock name dep).resolvedTag = none := by
    rw [planChange_eq env cache₀ lock name hgit hrev, if_neg hversion]
    exact (planReference_spec env cache₀ name _ _ dep).2.2.2
  rw [fetchDep, htag]

theorem updateSource_eq_some_iff : updateSource env cache₀ lock (name, dep) = some s ↔
    Outdated env lock name dep ∧ dep.git = some s.1 ∧
      s.2 = fetchDep (planChange env cache₀ lock name dep) dep := by
  rw [updateSource]
  simp only
  rw [← planChange_status_iff env cache₀ lock name dep]
  split
  · next hstatus =>
    rw [Option.map_eq_some_iff]
    constructor
    · rintro ⟨url, hurl, rfl⟩
      exact ⟨hstatus, hurl, rfl⟩
    · rintro ⟨-, hurl, hdep⟩
      exact ⟨s.1, hurl, by rw [← hdep]⟩
  · next hstatus => exact iff_of_false (by simp) fun h => hstatus h.1

theorem updateSource_eq_none_iff : updateSource env cache₀ lock (name, dep) = none ↔
    ¬Outdated env lock name dep := by
  rw [← planChange_status_iff env cache₀ lock name dep, updateSource]
  simp only
  split
  · next hstatus =>
    obtain ⟨url, hurl, -⟩ := (planChange_status_iff env cache₀ lock name dep).mp hstatus
    simp [hurl, hstatus]
  · next hstatus => simp [hstatus]

/-- What is fetched has a tag or a branch, and no revision. It is fetched as it is. -/
theorem updateSource_spec (h : updateSource env cache₀ lock (name, dep) = some s) :
    s.2.git = some s.1 ∧ s.2.rev = none ∧ s.2.refs ≠ [] := by
  obtain ⟨⟨url, hgit, hrev, commit, hoffered, -⟩, hurl, hdep⟩ := updateSource_eq_some_iff.mp h
  obtain rfl := Option.some.inj (hgit.symm.trans hurl)
  rw [hdep]
  rw [offered_eq_some_iff] at hoffered
  by_cases hversion : (dep.tag.isNone && dep.branch.isNone && dep.version.isSome) = true
  · rw [if_pos hversion] at hoffered
    obtain ⟨tag, hresolve⟩ := hoffered
    rw [fetchDep_of_constraint hgit hrev hversion hresolve]
    exact ⟨rfl, rfl, by simp [atTag, Dependency.refs]⟩
  · rw [if_neg hversion] at hoffered
    rw [fetchDep_of_reference hgit hrev hversion]
    refine ⟨hgit, hrev, fun hrefs => ?_⟩
    have htag : dep.tag = none := by
      cases htag : dep.tag with
      | none => rfl
      | some tag => simp [Dependency.refs, htag] at hrefs
    have hbranch : dep.branch = none := by
      cases hbranch : dep.branch with
      | none => rfl
      | some branch => simp [Dependency.refs, hbranch] at hrefs
    rw [resolveAvailableCommit, hrev, htag, hbranch] at hoffered
    cases hoffered

/-- The body of the loop does nothing for a dependency that is not outdated. -/
theorem fetchChange_of_none (hnone : updateSource env cache₀ lock (name, dep) = none)
    (cache : Cache) :
    fetchChange env base config (planChange env cache₀ lock name dep) cache =
      (.ok none, cache) := by
  have hstatus := (planChange_status_iff env cache₀ lock name dep).not.mpr
    (updateSource_eq_none_iff.mp hnone)
  rw [fetchChange, if_pos hstatus]

/-- **The body of the loop fetches the source of an outdated dependency**, or it fails. -/
theorem fetchChange_of_some (hdep : (name, dep) ∈ config.dependencies.entries)
    (hsome : updateSource env cache₀ lock (name, dep) = some s) (cache : Cache) :
    (∃ o c, UpdatesTo env base s cache c ∧ o.name = name ∧
      o.resolvedRev = resolvedRevFor env.git s.2 c ∧
      fetchChange env base config (planChange env cache₀ lock name dep) cache =
        (.ok (some o), Function.update cache (sourceKey s) (some c))) ∨
      (∀ c, ¬UpdatesTo env base s cache c) ∧ ∃ e cache',
        fetchChange env base config (planChange env cache₀ lock name dep) cache =
          (.error e, cache') := by
  obtain ⟨houtdated, hurl, hfetched⟩ := updateSource_eq_some_iff.mp hsome
  obtain ⟨hgit, -, hrefs⟩ := updateSource_spec hsome
  have hstatus := (planChange_status_iff env cache₀ lock name dep).mpr houtdated
  have heffective : effectiveDep env.git env.semver s.1 s.2 = .ok s.2 := effectiveDep_of_refs hrefs
  rw [fetchChange, if_neg (not_not.mpr hstatus), planChange_name,
    UnorderedMap.get?_eq_some.mpr hdep]
  simp only [hurl, Option.isNone_some, Bool.false_eq_true, if_false]
  rw [← hfetched]
  split
  · next hdetached => exact .inr ⟨fun c h => by simp [h.attached] at hdetached, _, _, rfl⟩
  · next hattached =>
    split
    · next e cache' hfetch =>
      refine .inr ⟨fun c h => ?_, _, _, rfl⟩
      have hstep := @gitFetch_of_step env.git env.semver env.mkdirFault (cacheRootOf base) cache
        name s.1 s.2 true c hgit h.blank h.binary h.mkdir s.2 heffective h.fetch
      obtain ⟨o, hok⟩ := hstep
      cases hfetch.symm.trans hok
    · next o cache' hfetch =>
      obtain ⟨url', effective, hurl', heffective', hmaterialize⟩ := gitFetch_ok hfetch
      obtain rfl := Option.some.inj (hgit.symm.trans hurl')
      obtain rfl := Except.ok.inj (heffective.symm.trans heffective')
      obtain ⟨hname, c, hstep, rfl, hresolved⟩ := materialize_ok hmaterialize
      refine .inl ⟨o, c, ⟨fun h => ?_, ?_, ?_, Bool.eq_false_iff.mpr hattached, hstep⟩, hname,
        hresolved, rfl⟩
      · simp [gitFetch, hgit, h] at hfetch
        split at hfetch <;> cases hfetch
      · cases hblank : isBlank s.1 with
        | false => rfl
        | true => simp [gitFetch, hgit, hblank] at hfetch
      · cases hmkdir : env.mkdirFault with
        | none => rfl
        | some source => simp [materialize, hmkdir] at hmaterialize

variable {deps : List (String × Dependency)} {cache cache' : Cache}

theorem fetchUpdated_cons_of_ok {change : UpdateChange} {changes : List UpdateChange}
    {cache₁ : Cache} {outcome : Option FetchOutcome}
    (h : fetchChange env base config change cache = (.ok outcome, cache₁)) :
    fetchUpdated env base config (change :: changes) cache =
      ((fetchUpdated env base config changes cache₁).1.map (outcome.toList ++ ·),
        (fetchUpdated env base config changes cache₁).2) := by
  rw [fetchUpdated, h]
  simp only
  split
  · next hrest => rw [hrest]; rfl
  · next hrest => rw [hrest]; rfl

/-- **The loop fetches the sources one after the other, up to the first that cannot be fetched.** -/
theorem fetchUpdated_run (hdeps : ∀ e ∈ deps, e ∈ config.dependencies.entries)
    {result : Except SyncError (List FetchOutcome)}
    (h : fetchUpdated env base config (deps.map fun e => planChange env cache₀ lock e.1 e.2) cache =
      (result, cache')) :
    (∃ fetched, result = .ok fetched) ∧
        UpdateRun env base (updateSources env cache₀ lock deps) cache cache' ∨
      ∃ before name dep after s start e, deps = before ++ (name, dep) :: after ∧
        updateSource env cache₀ lock (name, dep) = some s ∧ result = .error e ∧
        UpdateRun env base (updateSources env cache₀ lock before) cache start ∧
        (∀ c, ¬UpdatesTo env base s start c) ∧
        fetchChange env base config (planChange env cache₀ lock name dep) start =
          (.error e, cache') := by
  induction deps generalizing cache result with
  | nil =>
    cases h
    exact .inl ⟨⟨[], rfl⟩, .nil⟩
  | cons first deps ih =>
    obtain ⟨name, dep⟩ := first
    obtain ⟨hdep, hdeps⟩ := List.forall_mem_cons.mp hdeps
    rw [List.map_cons] at h
    cases hsource : updateSource env cache₀ lock (name, dep) with
    | none =>
      rw [fetchUpdated_cons_of_ok (fetchChange_of_none hsource cache)] at h
      obtain ⟨rfl, rfl⟩ := Prod.mk.inj h
      rcases ih hdeps rfl with ⟨⟨fetched, hok⟩, hrun⟩ | ⟨before, name', dep', after, s, start, e,
        rfl, hsource', herror, hrun, hnever, hfails⟩
      · rw [updateSources_cons, hsource]
        exact .inl ⟨⟨fetched, by rw [hok]; rfl⟩, hrun⟩
      · refine .inr ⟨(name, dep) :: before, name', dep', after, s, start, e, rfl, hsource',
          by rw [herror]; rfl, ?_, hnever, hfails⟩
        rw [updateSources_cons, hsource]
        exact hrun
    | some s =>
      rcases fetchChange_of_some hdep hsource cache with
        ⟨o, c, hstep, -, -, hone⟩ | ⟨hnone, e, cache₁, hone⟩
      · rw [fetchUpdated_cons_of_ok hone] at h
        obtain ⟨rfl, rfl⟩ := Prod.mk.inj h
        rcases ih hdeps rfl with ⟨⟨fetched, hok⟩, hrun⟩ | ⟨before, name', dep', after, s', start, e,
          rfl, hsource', herror, hrun, hnever, hfails⟩
        · rw [updateSources_cons, hsource]
          exact .inl ⟨⟨_, by rw [hok]; rfl⟩, .cons hstep hrun⟩
        · refine .inr ⟨(name, dep) :: before, name', dep', after, s', start, e, rfl, hsource',
            by rw [herror]; rfl, ?_, hnever, hfails⟩
          rw [updateSources_cons, hsource]
          exact .cons hstep hrun
      · rw [fetchUpdated, hone] at h
        cases h
        exact .inr ⟨[], name, dep, deps, s, cache, e, rfl, hsource, rfl, .nil, hnone, hone⟩

/-- An outdated dependency has an outcome, which records what its reference resolves to. -/
theorem fetchUpdated_outcome {before after : List (String × Dependency)}
    {fetched : List FetchOutcome}
    (hdeps : ∀ e ∈ before ++ (name, dep) :: after, e ∈ config.dependencies.entries)
    (hsource : updateSource env cache₀ lock (name, dep) = some s)
    (h : fetchUpdated env base config ((before ++ (name, dep) :: after).map
      fun e => planChange env cache₀ lock e.1 e.2) cache = (.ok fetched, cache')) :
    ∃ start c, UpdateRun env base (updateSources env cache₀ lock before) cache start ∧
      UpdatesTo env base s start c ∧
        ∃ o ∈ fetched, o.name = name ∧ o.resolvedRev = resolvedRevFor env.git s.2 c := by
  induction before generalizing cache fetched with
  | nil =>
    obtain ⟨hdep, -⟩ := List.forall_mem_cons.mp hdeps
    rw [List.nil_append, List.map_cons] at h
    rcases fetchChange_of_some hdep hsource cache with
      ⟨o, c, hstep, hname, hresolved, hone⟩ | ⟨-, e, cache₁, hone⟩
    · rw [fetchUpdated_cons_of_ok hone] at h
      obtain ⟨rest, -, rfl⟩ := Except.map_eq_ok_iff.mp (Prod.mk.inj h).1
      exact ⟨cache, c, .nil, hstep, o, by simp, hname, hresolved⟩
    · rw [fetchUpdated, hone] at h
      cases h
  | cons first before ih =>
    obtain ⟨name', dep'⟩ := first
    obtain ⟨hdep', hdeps⟩ := List.forall_mem_cons.mp hdeps
    rw [List.cons_append, List.map_cons] at h
    cases hsource' : updateSource env cache₀ lock (name', dep') with
    | none =>
      rw [fetchUpdated_cons_of_ok (fetchChange_of_none hsource' cache)] at h
      obtain ⟨hmap, hcache⟩ := Prod.mk.inj h
      obtain ⟨rest, hrest, rfl⟩ := Except.map_eq_ok_iff.mp hmap
      rw [updateSources_cons, hsource']
      simpa using ih hdeps (Prod.ext hrest hcache)
    | some s' =>
      rcases fetchChange_of_some hdep' hsource' cache with
        ⟨o', c', hstep', -, -, hone⟩ | ⟨-, e, cache₁, hone⟩
      · rw [fetchUpdated_cons_of_ok hone] at h
        obtain ⟨hmap, hcache⟩ := Prod.mk.inj h
        obtain ⟨rest, hrest, rfl⟩ := Except.map_eq_ok_iff.mp hmap
        obtain ⟨start, c, hrun, hstep, o, ho, hname, hresolved⟩ :=
          ih hdeps (Prod.ext hrest hcache)
        rw [updateSources_cons, hsource']
        exact ⟨start, c, .cons hstep' hrun, hstep, o, List.mem_append_right _ ho, hname, hresolved⟩
      · rw [fetchUpdated, hone] at h
        cases h

/-- The outcomes are those of dependencies of the list, in its order. -/
theorem fetchUpdated_names (hdeps : ∀ e ∈ deps, e ∈ config.dependencies.entries)
    {fetched : List FetchOutcome}
    (h : fetchUpdated env base config (deps.map fun e => planChange env cache₀ lock e.1 e.2) cache =
      (.ok fetched, cache')) :
    (fetched.map FetchOutcome.name).Sublist (deps.map Prod.fst) := by
  induction deps generalizing cache fetched with
  | nil =>
    cases h
    exact .slnil
  | cons first deps ih =>
    obtain ⟨name, dep⟩ := first
    obtain ⟨hdep, hdeps⟩ := List.forall_mem_cons.mp hdeps
    rw [List.map_cons] at h
    cases hsource : updateSource env cache₀ lock (name, dep) with
    | none =>
      rw [fetchUpdated_cons_of_ok (fetchChange_of_none hsource cache)] at h
      obtain ⟨hmap, hcache⟩ := Prod.mk.inj h
      obtain ⟨rest, hrest, rfl⟩ := Except.map_eq_ok_iff.mp hmap
      exact (ih hdeps (Prod.ext hrest hcache)).cons _
    | some s =>
      rcases fetchChange_of_some hdep hsource cache with
        ⟨o, c, -, hname, -, hone⟩ | ⟨-, e, cache₁, hone⟩
      · rw [fetchUpdated_cons_of_ok hone] at h
        obtain ⟨hmap, hcache⟩ := Prod.mk.inj h
        obtain ⟨rest, hrest, rfl⟩ := Except.map_eq_ok_iff.mp hmap
        rw [Option.toList_some, List.singleton_append, List.map_cons, List.map_cons, hname]
        exact (ih hdeps (Prod.ext hrest hcache)).cons_cons _
      · rw [fetchUpdated, hone] at h
        cases h

end Sources

end Run

/-! ### What an update keeps -/

/-- An update from one workspace to another keeps what it does not update: the entry of a git
dependency that is not planned as updated keeps its commit, cache location and integrity, the entry
of one that is carries what its fetch reports, and the rest of the lock stays. -/
structure UpdatePreserves (env : Env) (base : String) (config : DevKitConfig) (w w' : Workspace)
    (lock lock' : LockFile) : Prop where
  kept : ∀ name dep, (name, dep) ∈ config.dependencies.entries → dep.git.isSome →
    (planChange env w.cache lock name dep).status ≠ .updated →
      ∀ entry, lockedEntry lock name = some entry → ∃ entry', lockedEntry lock' name = some entry' ∧
        entry'.commitSha = entry.commitSha ∧ entry'.cacheLocation = entry.cacheLocation ∧
        entry'.integrity = entry.integrity
  refreshed : ∀ name dep, (name, dep) ∈ config.dependencies.entries → dep.git.isSome →
    (planChange env w.cache lock name dep).status = .updated →
      ∃ fetched, fetchUpdated env base config (plannedChanges env config w.cache lock) w.cache =
          (.ok fetched, w'.cache) ∧
        ∃ outcome ∈ fetched,
          FetchedFor env base config (planChange env w.cache lock name dep) outcome ∧
          ∃ entry', lockedEntry lock' name = some entry' ∧ entry'.commitSha = outcome.resolvedRev
  version : lock'.version = lock.version
  deployOrder : lock'.deployOrder = lock.deployOrder
  contracts : lock'.contracts = lock.contracts

/-- **An update keeps what it does not update exactly when there was nothing to keep.** Every git
dependency that is not planned as updated has no entry before, or one without a commit, a cache
location and an integrity. -/
theorem update_preserves_iff {env : Env} {base : String} {config : DevKitConfig}
    {w w' : Workspace} {lock lock' : LockFile} {report : UpdateReport} (hlock : w.lock = some lock)
    (h : applyUpdates env base config w = (.ok (report, lock'), w')) :
    UpdatePreserves env base config w w' lock lock' ↔
      ∀ name dep, (name, dep) ∈ config.dependencies.entries → dep.git.isSome →
        (planChange env w.cache lock name dep).status ≠ .updated →
          ∀ entry, lockedEntry lock name = some entry →
            entry.commitSha = "" ∧ entry.cacheLocation = "" ∧ entry.integrity = "" := by
  obtain ⟨-, lock₀, fetched, hlock₀, -, hfetched, hlock', -⟩ := applyUpdates_ok h
  obtain rfl : lock = lock₀ := Option.some.inj (hlock.symm.trans hlock₀)
  have hentry : ∀ {name dep}, (name, dep) ∈ config.dependencies.entries →
      lockedEntry lock' name = some (resolvedEntry env.git env.fs base w'.cache config.dependencies
        fetched name dep) :=
    fun hdep => lockedEntry_resolved _ _ _ _ _ fetched (by rw [hlock']) hdep
  have hblank : ∀ name dep, dep.git.isSome → (lockDependency base name dep).commitSha = "" ∧
      (lockDependency base name dep).cacheLocation = "" ∧
      (lockDependency base name dep).integrity = "" := by
    intro name dep hgit
    obtain ⟨url, hurl⟩ := Option.isSome_iff_exists.mp hgit
    simp [lockDependency, hurl]
  constructor
  · intro hpreserves name dep hdep hgit hstatus entry hlocked
    obtain ⟨entry', hlocked', hcommit, hlocation, hintegrity⟩ :=
      hpreserves.kept name dep hdep hgit hstatus entry hlocked
    rw [hentry hdep, resolvedEntry_not_updated hdep hfetched hstatus] at hlocked'
    obtain rfl := Option.some.inj hlocked'
    obtain ⟨hcommit', hlocation', hintegrity'⟩ := hblank name dep hgit
    exact ⟨hcommit ▸ hcommit', hlocation ▸ hlocation', hintegrity ▸ hintegrity'⟩
  · intro hnothing
    refine ⟨fun name dep hdep hgit hstatus entry hlocked => ?_,
      fun name dep hdep hgit hstatus => ?_, by rw [hlock'], by rw [hlock'], by rw [hlock']⟩
    · obtain ⟨hcommit, hlocation, hintegrity⟩ := hnothing name dep hdep hgit hstatus entry hlocked
      obtain ⟨hcommit', hlocation', hintegrity'⟩ := hblank name dep hgit
      refine ⟨_, hentry hdep, ?_⟩
      rw [resolvedEntry_not_updated hdep hfetched hstatus]
      exact ⟨hcommit'.trans hcommit.symm, hlocation'.trans hlocation.symm,
        hintegrity'.trans hintegrity.symm⟩
    · obtain ⟨o, ho, hfor, hcommit⟩ := resolvedEntry_updated hdep hfetched hgit hstatus
      exact ⟨fetched, hfetched, o, ho, hfor, _, hentry hdep, hcommit⟩

section Library

/-- Versions of three numbers and requirements that keep the first one. -/
def caretSemver : Semver where
  Version := List ℕ
  VersionReq := List ℕ
  parseVersion := fun s => (splitAt (· == '.') s).mapM String.toNat?
  parseReq := fun s => (splitAt (· == '.') ((stripPrefix "^" s).getD s)).mapM String.toNat?
  isMatch := fun req v => req.head? == v.head? && decide (req ≤ v)
  ge := fun v v' => decide (v' ≤ v)

def commit₀ : ObjectId := ⟨"c0", by decide⟩

def commit₁ : ObjectId := ⟨"c1", by decide⟩

/-- The object of an annotated tag. -/
def tagObject : ObjectId := ⟨"t1", by decide⟩

/-- A repository whose branch and tag are at its last commit. -/
def libraryRemote (tag : ObjectId) : Remote where
  defaultBranch := "main"
  lines := [("HEAD", commit₁), ("refs/heads/main", commit₁), ("refs/tags/v1.0.0", tag)] ++
    if tag = tagObject then [("refs/tags/v1.0.0^\x7b\x7d", commit₁)] else []
  lines_nodup := by split <;> simp
  head_notMem := by split <;> simp

/-- A git installation that reaches the repository. It knows revisions by the full ids of commits,
and the commit of the tag. -/
def libraryGit (tag : ObjectId) : Git where
  binary := .working
  cwd := ["app"]
  remote := fun url => if url = "https://host/library" then .ok (libraryRemote tag)
    else .error (.exit (some 128) "repository not found")
  peel := fun id => if id = commit₀ then some commit₀
    else if id = commit₁ ∨ id = tagObject then some commit₁ else none
  tree := fun commit => "tree of " ++ commit.text
  follows := fun _ => true
  revision := fun c ref =>
    if ref = "c0" then some { c with head := .detached commit₀ }
    else if ref = "c1" then some { c with head := .detached commit₁ }
    else none
  expression := fun c name =>
    if name = "refs/tags/v1.0.0^\x7bcommit\x7d" ∧ (c.tags "v1.0.0").isSome then "c1" else ""
  wildmatch := fun _ _ => false
  fault := fun _ => none

theorem libraryGit_documented (tag : ObjectId) : (libraryGit tag).Documented where
  revision_refs := by
    intro c ref c' h
    simp only [libraryGit] at h
    split at h
    · cases h
      exact ⟨rfl, rfl, rfl, rfl⟩
    · split at h
      · cases h
        exact ⟨rfl, rfl, rfl, rfl⟩
      · cases h

/-- The project reaches the repository, with the tag as a lightweight or an annotated one. -/
def libraryEnv (tag : ObjectId) : Env where
  semver := caretSemver
  fs := ⟨fun _ => false, fun _ => none⟩
  git := libraryGit tag
  scan := .id
  mkdirFault := none
  lockFault := none

/-- A dependency on the tag of the repository. -/
def libraryDep : Dependency :=
  { Dependency.default with git := some "https://host/library", tag := some "v1.0.0" }

def libraryConfig : DevKitConfig where
  contracts := ⟨[], List.nodup_nil⟩
  package := some ⟨some "app", some "0.1.0", none⟩
  dependencies := ⟨[("library", libraryDep)], List.nodup_singleton "library"⟩

/-- The lock after the tag was fetched at a commit. -/
def libraryLock (commit : ObjectId) : LockFile where
  version := 1
  deployOrder := []
  contracts := []
  dependencies := [{ lockDependency "/app" "library" libraryDep with
    commitSha := commit.text
    cacheLocation := "/app/.sdkt-cache/git/" ++ gitCacheKey libraryDep
    integrity := "sha256:tree of " ++ commit.text }]

/-- The project after the tag was fetched at a commit, with its checkout at the tag. -/
def libraryWorkspace (commit : ObjectId) : Workspace where
  cache := Function.update (fun _ => none) (gitCacheKey libraryDep) (some
    { origin := "https://host/library"
      originHead := "main"
      heads := fun _ => none
      remoteHeads := fun b => if b = "main" then some commit else none
      tags := fun t => if t = "v1.0.0" then some commit else none
      head := .detached commit })
  lock := some (libraryLock commit)

/-- An update of a tag that has moved keeps the rest of the lock, of which there is nothing else. -/
theorem update_preserves_iff_library : ∃ report lock' w',
    applyUpdates (libraryEnv commit₁) "/app" libraryConfig (libraryWorkspace commit₀) =
        (.ok (report, lock'), w') ∧
      UpdatePreserves (libraryEnv commit₁) "/app" libraryConfig (libraryWorkspace commit₀) w'
        (libraryLock commit₀)
        lock' := by
  have hlock : (libraryWorkspace commit₀).lock = some (libraryLock commit₀) := rfl
  refine ⟨_, _, _, rfl, (update_preserves_iff hlock rfl).mpr fun name dep hdep _ hstatus => ?_⟩
  obtain ⟨rfl, rfl⟩ := Prod.mk.inj (List.mem_singleton.mp hdep)
  exact absurd (by decide) hstatus

/-- **An update of a tag that has not moved forgets its commit.** -/
theorem unchanged_tag_is_forgotten : ∃ report lock' w',
    applyUpdates (libraryEnv commit₁) "/app" libraryConfig (libraryWorkspace commit₁) =
        (.ok (report, lock'), w') ∧
      lockedCommit (libraryLock commit₁) "library" = "c1" ∧ lockedCommit lock' "library" = "" ∧
      ¬UpdatePreserves (libraryEnv commit₁) "/app" libraryConfig (libraryWorkspace commit₁) w'
        (libraryLock commit₁)
        lock' := by
  refine ⟨_, _, _, rfl, by decide, by decide, fun hpreserves => ?_⟩
  obtain ⟨entry', hlocked, hcommit, -⟩ := hpreserves.kept "library" libraryDep (by decide) rfl
    (by decide) _ rfl
  obtain rfl := Option.some.inj hlocked
  exact absurd hcommit (by decide)

end Library

/-! ### Updating twice -/

section Twice

variable {env : Env} {base : String} {config : DevKitConfig} {url commit : String}
  {dep : Dependency}

theorem reportedId_ok {reference : String} {id : Option ObjectId} {commit : String}
    (h : reportedId reference id = .ok commit) : ∃ id', id = some id' ∧ id'.text = commit := by
  cases id with
  | none => simp [reportedId] at h
  | some id => exact ⟨id, rfl, Except.ok.inj h⟩

theorem offered_ne_empty (hrev : dep.rev = none) (h : offered env url dep = some commit) :
    commit ≠ "" := by
  rw [offered_eq_some_iff] at h
  split at h
  · obtain ⟨tag, hresolve⟩ := h
    obtain ⟨tags, htags, hbest⟩ := Except.bind_eq_ok_iff.mp hresolve
    obtain ⟨remote, -, hmap⟩ := Except.bind_eq_ok_iff.mp htags
    obtain rfl := Except.ok.inj hmap
    obtain ⟨⟨tag', id⟩, -, hpair⟩ := List.mem_map.mp (bestVersionMatch_mem (Except.ok.inj hbest))
    rw [← (Prod.mk.inj hpair).2]
    exact id.ne
  · simp only [resolveAvailableCommit, hrev] at h
    split at h
    · obtain ⟨remote, -, hreported⟩ := Except.bind_eq_ok_iff.mp h
      obtain ⟨id, -, rfl⟩ := reportedId_ok hreported
      exact id.ne
    · obtain ⟨remote, -, hreported⟩ := Except.bind_eq_ok_iff.mp h
      obtain ⟨id, -, rfl⟩ := reportedId_ok hreported
      exact id.ne
    · cases h

/-- The id that a remote has for the tag or the branch of a dependency. -/
def Remote.reference (remote : Remote) (dep : Dependency) : Option ObjectId :=
  match dep.tag with
  | some tag => remote.tags.lookup tag
  | none => dep.branch.bind fun branch => remote.branches.lookup branch

/-- A forced fetch of a reference that the remote has records its id. -/
theorem resolvedRevFor_of_reference (hdocumented : env.git.Documented) {cacheRoot : String}
    {s : Source} {cache : Cache} {c : Checkout} {remote : Remote} {id : ObjectId}
    (hrev : s.2.rev = none) (hremote : env.git.remote s.1 = .ok remote)
    (hid : remote.reference s.2 = some id) (h : FetchesTo env.git cacheRoot true s cache c) :
    resolvedRevFor env.git s.2 c = id.text := by
  rw [FetchesTo] at h
  generalize cache (sourceKey s) = current at h
  cases h with
  | reuse hforce => cases hforce
  | switch _ hprepare hcheckout =>
    obtain ⟨remote', hremote', htags, hbranches⟩ := prepare_force_refs hprepare
    obtain rfl : remote = remote' := Except.ok.inj (hremote.symm.trans hremote')
    have hrefs := switchTo_refs hdocumented (switchTo_of_checkout hcheckout)
    rw [Remote.reference] at hid
    rw [resolvedRevFor, hrev]
    cases htag : s.2.tag with
    | some tag =>
      rw [htag] at hid
      simp only [hrefs.tags, htags tag id hid, Git.revParse]
    | none =>
      rw [htag] at hid
      obtain ⟨branch, hbranch, hlookup⟩ := Option.bind_eq_some_iff.mp hid
      have hne : branch ≠ "HEAD" := fun heq =>
        remote.head_notMem_branches (heq ▸ mem_of_lookup hlookup)
      rw [hbranch]
      simp only [Checkout.remoteHead, if_neg hne, hrefs.remoteHeads, hbranches branch id hlookup,
        Git.revParse]

/-- What a remote offers for a source is the id of its reference: the line that is listed first is
that of the reference. When the remote has no such reference, it is what git reads of it in the
checkout, where the reference may be left from before. -/
def OffersReference (env : Env) (base : String) (cache : Cache) (lock : LockFile)
    (before : List (String × Dependency)) (s : Source) (commit : String) : Prop :=
  ∀ remote, env.git.remote s.1 = .ok remote →
    match remote.reference s.2 with
    | some id => id.text = commit
    | none => ∀ start c, UpdateRun env base (updateSources env cache lock before) cache start →
        UpdatesTo env base s start c → resolvedRevFor env.git s.2 c = commit

theorem offersReference_iff (hdocumented : env.git.Documented) {cache start : Cache}
    {lock : LockFile} {before : List (String × Dependency)} {s : Source} {c : Checkout}
    (hrev : s.2.rev = none)
    (hrun : UpdateRun env base (updateSources env cache lock before) cache start)
    (hstep : UpdatesTo env base s start c) :
    OffersReference env base cache lock before s commit ↔
      resolvedRevFor env.git s.2 c = commit := by
  obtain ⟨remote, hremote⟩ : ∃ remote, env.git.remote s.1 = .ok remote := by
    have hfetch := hstep.fetch
    rw [FetchesTo] at hfetch
    generalize start (sourceKey s) = current at hfetch
    cases hfetch with
    | reuse hforce => cases hforce
    | switch _ hprepare _ =>
      obtain ⟨remote, hremote, -⟩ := prepare_force_refs hprepare
      exact ⟨remote, hremote⟩
  simp only [OffersReference, hremote, Except.ok.injEq, forall_eq']
  cases hid : remote.reference s.2 with
  | some id => rw [resolvedRevFor_of_reference hdocumented hrev hremote hid hstep.fetch]
  | none =>
    refine ⟨fun h => h start c hrun hstep, fun h start' c' hrun' hstep' => ?_⟩
    obtain rfl := hrun.unique UpdatesTo.unique hrun'
    rwa [← hstep.unique _ _ _ _ hstep']

/-- After an update an outdated dependency is locked at what its reference resolves to in the
checkout that its fetch leads to. -/
theorem lockedCommit_of_update {w w' : Workspace} {lock lock' : LockFile} {report : UpdateReport}
    {before after : List (String × Dependency)} {name : String} {s : Source}
    (hlock : w.lock = some lock) (h : applyUpdates env base config w = (.ok (report, lock'), w'))
    (hsplit : config.dependencies.entries = before ++ (name, dep) :: after)
    (hsource : updateSource env w.cache lock (name, dep) = some s) :
    ∃ start c, UpdateRun env base (updateSources env w.cache lock before) w.cache start ∧
      UpdatesTo env base s start c ∧ lockedCommit lock' name = resolvedRevFor env.git s.2 c := by
  obtain ⟨-, lock₀, fetched, hlock₀, -, hfetched, hlock', -⟩ := applyUpdates_ok h
  obtain rfl : lock = lock₀ := Option.some.inj (hlock.symm.trans hlock₀)
  have hdep : (name, dep) ∈ config.dependencies.entries := by simp [hsplit]
  have hloop := hfetched
  rw [plannedChanges, hsplit] at hloop
  obtain ⟨start, c, hrun, hstep, o, ho, hname, hresolved⟩ :=
    fetchUpdated_outcome (fun e he => hsplit ▸ he) hsource hloop
  have hnodup : (fetched.map FetchOutcome.name).Nodup :=
    config.dependencies.nodup.sublist (fetchUpdated_names (fun _ he => he) hfetched)
  refine ⟨start, c, hrun, hstep, ?_⟩
  rw [lockedCommit, lockedEntry_resolved _ _ _ _ _ fetched (by rw [hlock']) hdep, Option.map_some,
    Option.getD_some, resolvedEntry, find?_outcome hnodup ho hname, ← hresolved]

/-- After an update a dependency that was not outdated is locked without a commit. -/
theorem lockedCommit_of_not_outdated {w w' : Workspace} {lock lock' : LockFile}
    {report : UpdateReport} {name : String} (hlock : w.lock = some lock)
    (h : applyUpdates env base config w = (.ok (report, lock'), w'))
    (hdep : (name, dep) ∈ config.dependencies.entries) (hgit : dep.git.isSome)
    (hcurrent : ¬Outdated env lock name dep) : lockedCommit lock' name = "" := by
  obtain ⟨-, lock₀, fetched, hlock₀, -, hfetched, hlock', -⟩ := applyUpdates_ok h
  obtain rfl : lock = lock₀ := Option.some.inj (hlock.symm.trans hlock₀)
  rw [lockedCommit, lockedEntry_resolved _ _ _ _ _ fetched (by rw [hlock']) hdep,
    resolvedEntry_not_updated hdep hfetched
      (mt (planChange_status_iff env w.cache lock name dep).mp hcurrent)]
  obtain ⟨url, hurl⟩ := Option.isSome_iff_exists.mp hgit
  simp [lockDependency, hurl]

/-- **After an update nothing is left to update exactly when nothing was up to date before and what
is fetched is what was offered.** A git dependency that is planned as unchanged loses its commit,
and is to be updated the next time. -/
theorem second_plan_iff (hdocumented : env.git.Documented) {w w' : Workspace}
    {lock lock' : LockFile}
    {report : UpdateReport} (hlock : w.lock = some lock)
    (h : applyUpdates env base config w = (.ok (report, lock'), w')) :
    (∃ report', planUpdates env base config w' = .ok report' ∧
        ∀ change ∈ report'.changes, change.status ≠ .updated) ↔
      ∀ before name dep after, config.dependencies.entries = before ++ (name, dep) :: after →
        dep.git.isSome → (planChange env w.cache lock name dep).status ≠ .unchanged ∧
          ∀ s commit, updateSource env w.cache lock (name, dep) = some s →
            offered env s.1 dep = some commit →
              OffersReference env base w.cache lock before s commit := by
  obtain ⟨hvalid, -, -, -, -, -, -, hw'⟩ := applyUpdates_ok h
  have hplan : planUpdates env base config w' =
      .ok (summarize (plannedChanges env config w'.cache lock')) := by
    rw [planUpdates, hvalid, hw']
    rfl
  have hstatus : ∀ before name dep after,
      config.dependencies.entries = before ++ (name, dep) :: after →
      ((planChange env w'.cache lock' name dep).status ≠ .updated ↔
        (dep.git.isSome → (planChange env w.cache lock name dep).status ≠ .unchanged ∧
          ∀ s commit, updateSource env w.cache lock (name, dep) = some s →
            offered env s.1 dep = some commit →
              OffersReference env base w.cache lock before s commit)) := by
    intro before name dep after hsplit
    have hdep : (name, dep) ∈ config.dependencies.entries := by simp [hsplit]
    cases hurl : dep.git with
    | none => simp [planChange, hurl]
    | some url =>
      simp only [Option.isSome_some, forall_const]
      rw [Ne, planChange_status_iff, Ne, planChange_unchanged_iff env w.cache lock name hurl]
      by_cases houtdated : Outdated env lock name dep
      · obtain ⟨url', hurl', hrev, commit, hoffered, hne⟩ := id houtdated
        obtain rfl : url = url' := Option.some.inj (hurl.symm.trans hurl')
        obtain ⟨s, hsource⟩ := Option.ne_none_iff_exists'.mp
          (mt (updateSource_eq_none_iff).mp (not_not.mpr houtdated) :
            updateSource env w.cache lock (name, dep) ≠ none)
        obtain rfl : url = s.1 :=
          Option.some.inj (hurl.symm.trans (updateSource_eq_some_iff.mp hsource).2.1)
        obtain ⟨start, c, hrun, hstep, hcommit⟩ := lockedCommit_of_update hlock h hsplit hsource
        have hoffers : OffersReference env base w.cache lock before s commit ↔ _ :=
          offersReference_iff hdocumented (updateSource_spec hsource).2.1 hrun hstep
        constructor
        · intro hcurrent
          refine ⟨?_, fun s' commit' hsource' hoffered' => ?_⟩
          · rintro ⟨-, commit', hoffered', hne'⟩
            obtain rfl : commit = commit' := Option.some.inj (hoffered.symm.trans hoffered')
            exact hne' hne
          · obtain rfl := Option.some.inj (hsource.symm.trans hsource')
            obtain rfl : commit = commit' := Option.some.inj (hoffered.symm.trans hoffered')
            refine hoffers.mpr (by_contra fun hother => hcurrent ?_)
            exact ⟨_, hurl, hrev, commit, hoffered, .inr (hcommit ▸ Ne.symm hother)⟩
        · rintro ⟨-, hall⟩ ⟨url', hurl', -, commit', hoffered', hne'⟩
          obtain rfl := Option.some.inj (hurl.symm.trans hurl')
          obtain rfl : commit = commit' := Option.some.inj (hoffered.symm.trans hoffered')
          have hsame := hcommit.trans (hoffers.mp (hall s commit hsource hoffered))
          rcases hne' with hempty | hne'
          · exact offered_ne_empty hrev hoffered (hsame.symm.trans hempty)
          · exact hne' hsame.symm
      · have hblank : lockedCommit lock' name = "" :=
          lockedCommit_of_not_outdated hlock h hdep (by simp [hurl]) houtdated
        have hnone : updateSource env w.cache lock (name, dep) = none :=
          updateSource_eq_none_iff.mpr houtdated
        constructor
        · rintro hcurrent
          refine ⟨?_, fun s commit hsource => by simp [hnone] at hsource⟩
          rintro ⟨hrev, commit, hoffered, -⟩
          exact hcurrent ⟨url, hurl, hrev, commit, hoffered, .inl hblank⟩
        · rintro ⟨hcurrent, -⟩ ⟨url', hurl', hrev, commit, hoffered, -⟩
          obtain rfl : url = url' := Option.some.inj (hurl.symm.trans hurl')
          exact hcurrent ⟨hrev, commit, hoffered,
            fun hne => houtdated ⟨url, hurl, hrev, commit, hoffered, hne⟩⟩
  rw [hplan]
  constructor
  · rintro ⟨report', hreport', hnone⟩ before name dep after hsplit
    obtain rfl := Except.ok.inj hreport'
    exact (hstatus before name dep after hsplit).mp
      (hnone _ (List.mem_map.mpr ⟨(name, dep), by simp [hsplit], rfl⟩))
  · intro hcurrent
    refine ⟨_, rfl, fun change hchange => ?_⟩
    obtain ⟨⟨name, dep⟩, hdep, rfl⟩ := List.mem_map.mp hchange
    obtain ⟨before, after, hsplit⟩ := List.append_of_mem hdep
    exact (hstatus before name dep after hsplit).mpr (hcurrent before name dep after hsplit)

/-- After an update of a tag that has moved nothing is left to update. -/
theorem second_plan_iff_library : ∃ report lock' w',
    applyUpdates (libraryEnv commit₁) "/app" libraryConfig (libraryWorkspace commit₀) =
        (.ok (report, lock'), w') ∧
      ∃ report', planUpdates (libraryEnv commit₁) "/app" libraryConfig w' = .ok report' ∧
        ∀ change ∈ report'.changes, change.status ≠ .updated := by
  have hlock : (libraryWorkspace commit₀).lock = some (libraryLock commit₀) := rfl
  refine ⟨_, _, _, rfl, (second_plan_iff (libraryGit_documented commit₁) hlock rfl).mpr
    fun before name dep after hsplit _ => ?_⟩
  have hdep : (name, dep) ∈ libraryConfig.dependencies.entries := by simp [hsplit]
  obtain ⟨rfl, rfl⟩ := Prod.mk.inj (List.mem_singleton.mp hdep)
  refine ⟨by decide, fun s commit hsource hoffered remote hremote => ?_⟩
  obtain rfl := Option.some.inj hsource
  obtain rfl := Option.some.inj hoffered
  obtain rfl := Except.ok.inj hremote
  rfl

/-- **A tag that has not moved is to be updated after an update.** -/
theorem unchanged_tag_is_updated_again : ∃ report lock' w',
    applyUpdates (libraryEnv commit₁) "/app" libraryConfig (libraryWorkspace commit₁) =
        (.ok (report, lock'), w') ∧
      report.updated = 0 ∧ ∃ report', planUpdates (libraryEnv commit₁) "/app" libraryConfig w' =
        .ok report' ∧
        ∃ change ∈ report'.changes, change.status = .updated :=
  ⟨_, _, _, rfl, by decide, _, rfl, _, List.mem_singleton_self _, by decide⟩

end Twice

end SorobanDevkit.Core
