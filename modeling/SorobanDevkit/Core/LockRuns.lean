import SorobanDevkit.Core.LockGenerate
import SorobanDevkit.Library.Runs

/-!
# Runs of the commands that write the lock

The lock has two halves: the artifacts, which a build makes anew, and the dependencies, which a
fetch or an update makes anew. Beside the lock, the history of the runs keeps what the last fetch or
update pinned, as long as the manifest declares it in the same way, and what the last build made.
-/

namespace SorobanDevkit.Core

open NameIndex

/-! ### The two halves of a lock -/

/-- What is pinned of a git dependency. -/
structure Pin where
  gitUrl : String
  reference : String
  commitSha : String
  cacheLocation : String
  integrity : String
  deriving DecidableEq

/-- An entry pins nothing. -/
def DependencyLock.Blank (entry : DependencyLock) : Prop :=
  entry.commitSha = "" ∧ entry.cacheLocation = "" ∧ entry.integrity = ""

instance (entry : DependencyLock) : Decidable entry.Blank :=
  inferInstanceAs (Decidable (_ ∧ _ ∧ _))

/-- What an entry pins. -/
def DependencyLock.pin (entry : DependencyLock) : Option Pin :=
  if entry.source = "git" ∧ ¬ entry.Blank then
    some
      { gitUrl := entry.gitUrl
        reference := entry.resolvedReference
        commitSha := entry.commitSha
        cacheLocation := entry.cacheLocation
        integrity := entry.integrity }
  else none

/-- What a lock pins of a dependency. -/
def LockFile.pin (lock : LockFile) (name : String) : Option Pin :=
  (lockedEntry lock name).bind DependencyLock.pin

/-- The deploy order and the contracts of a lock. -/
def LockFile.built (lock : LockFile) : List String × List LockEntry :=
  (lock.deployOrder, lock.contracts)

/-- The lock of a project, which is empty if there is none. -/
def Workspace.lockFile (w : Workspace) : LockFile := w.lock.getD emptyLock

/-- The manifest declares a dependency with the URL and the reference of a git entry. -/
def Declares (config : DevKitConfig) (name gitUrl reference : String) : Prop :=
  ∃ dep, config.dependencies.get? name = some dep ∧ dep.git = some gitUrl ∧
    dep.reference.getD "" = reference

instance (config : DevKitConfig) (name gitUrl reference : String) :
    Decidable (Declares config name gitUrl reference) :=
  decidable_of_iff (∃ dep ∈ config.dependencies.get? name, dep.git = some gitUrl ∧
    dep.reference.getD "" = reference) Iff.rfl

/-! ### Runs -/

/-- A run of a command that writes the lock. -/
inductive LockRun
  | build (env : BuildEnv) (config : DevKitConfig)
  | generate (env : BuildEnv) (config : DevKitConfig)
  | fetch (env : Env) (force : Bool) (config : DevKitConfig)
  | update (env : Env) (config : DevKitConfig)

/-- What a run that makes the artifacts finds. -/
def LockRun.builds : LockRun → Option (BuildEnv × DevKitConfig)
  | build env config => some (env, config)
  | generate env config => some (env, config)
  | fetch _ _ _ => none
  | update _ _ => none

section

variable (base : String)

/-- The lock that a run writes, if it writes one, and the workspace after the run. -/
def LockRun.exec (w : Workspace) : LockRun → Option LockFile × Workspace
  | build env config => buildLock env base config w
  | generate env config =>
    let ran := lockGenerate env base config w
    (ran.1.toOption, ran.2)
  | fetch env force config =>
    let ran := packageFetch env base force config w
    (ran.1.toOption.bind Prod.snd, ran.2)
  | update env config =>
    let ran := applyUpdates env base config w
    (ran.1.toOption.map Prod.snd, ran.2)

/-- **What a run does to the lock**: nothing, or it writes it with one half made anew. -/
theorem LockRun.exec_cases (w : Workspace) (run : LockRun) :
    ((run.exec base w).1 = none ∧ (run.exec base w).2.lock = w.lock ∧
      ∀ env config, run.builds = some (env, config) → ¬ Generates env config) ∨
    ∃ lock, (run.exec base w).1 = some lock ∧ (run.exec base w).2.lock = some lock ∧
      ((∃ env config, run.builds = some (env, config) ∧ Generates env config ∧
          lock.dependencies = lockDependencies base config.dependencies) ∨
        run.builds = none ∧ lock.built = w.lockFile.built) := by
  have hbuild : ∀ env config, run.exec base w = buildLock env base config w →
      run.builds = some (env, config) →
      ((run.exec base w).1 = none ∧ (run.exec base w).2.lock = w.lock ∧
        ∀ env config, run.builds = some (env, config) → ¬ Generates env config) ∨
      ∃ lock, (run.exec base w).1 = some lock ∧ (run.exec base w).2.lock = some lock ∧
        ((∃ env config, run.builds = some (env, config) ∧ Generates env config ∧
            lock.dependencies = lockDependencies base config.dependencies) ∨
          run.builds = none ∧ lock.built = w.lockFile.built) := by
    intro env config hexec hbuilds
    rw [hexec, hbuilds]
    rcases @buildLock_cases env base config w with ⟨hnot, hran⟩ | ⟨hgenerates, lock, hran, hdeps⟩
    · rw [hran]
      refine .inl ⟨rfl, rfl, fun env' config' heq => ?_⟩
      cases heq
      exact hnot
    · rw [hran]
      exact .inr ⟨lock, rfl, rfl, .inl ⟨env, config, rfl, hgenerates, hdeps⟩⟩
  cases run with
  | build env config => exact hbuild env config rfl rfl
  | generate env config => exact hbuild env config (lockGenerate_eq w) rfl
  | fetch env force config =>
    rcases packageFetch_cases env base force config w with
      ⟨hnone, hlock⟩ | ⟨lock, dependencies, hwritten, hlock, rfl⟩
    · exact .inl ⟨hnone, hlock, fun _ _ heq => nomatch heq⟩
    · exact .inr ⟨_, hwritten, hlock, .inr ⟨rfl, rfl⟩⟩
  | update env config =>
    rcases applyUpdates_cases env base config w with
      ⟨hnone, hlock⟩ | ⟨lock, dependencies, hwritten, hlock, rfl⟩
    · exact .inl ⟨hnone, hlock, fun _ _ heq => nomatch heq⟩
    · exact .inr ⟨_, hwritten, hlock, .inr ⟨rfl, rfl⟩⟩

/-! ### Histories -/

/-- A project after some runs, what the last fetch or update pinned of the dependencies that were
declared in the same way since then, and what the last build made. -/
structure LockHistory where
  workspace : Workspace
  pins : String → Option Pin
  built : List String × List LockEntry

/-- The history before the first run is that of the lock that is there. -/
def LockHistory.start (w : Workspace) : LockHistory where
  workspace := w
  pins := w.lockFile.pin
  built := w.lockFile.built

/-- The history after a run. -/
def LockHistory.step (h : LockHistory) (run : LockRun) : LockHistory :=
  let ran := run.exec base h.workspace
  match ran.1, run.builds with
  | none, _ => { h with workspace := ran.2 }
  | some lock, some (_, config) =>
    { workspace := ran.2
      pins := fun name => (h.pins name).filter fun pin =>
        Declares config name pin.gitUrl pin.reference
      built := lock.built }
  | some lock, none => { workspace := ran.2, pins := lock.pin, built := h.built }

/-- A run keeps the half of the lock that it does not make: a build the pins of the dependencies
that are declared as they are locked, and a fetch or an update the deploy order and the
contracts. -/
structure KeepsOtherHalf (h : LockHistory) (run : LockRun) (h' : LockHistory) : Prop where
  pins : ∀ env config, run.builds = some (env, config) →
    ∀ name entry, lockedEntry h.workspace.lockFile name = some entry → entry.source = "git" →
      Declares config name entry.gitUrl entry.resolvedReference →
      ∃ entry', lockedEntry h'.workspace.lockFile name = some entry' ∧
        entry'.commitSha = entry.commitSha ∧ entry'.cacheLocation = entry.cacheLocation ∧
        entry'.integrity = entry.integrity
  built : run.builds = none → h'.workspace.lockFile.built = h.workspace.lockFile.built

/-- The pins of the lock are those of the last fetch or update, and its artifacts are those of the
last build. -/
structure Current (h : LockHistory) : Prop where
  pins : ∀ name, h.workspace.lockFile.pin name = h.pins name
  built : h.workspace.lockFile.built = h.built

/-- There is nothing to keep for a build that writes the lock: no git dependency that is declared as
it is locked has a commit, a cache location or an integrity. -/
def ForgetsNothing (h : LockHistory) (run : LockRun) : Prop :=
  ∀ env config, run.builds = some (env, config) → Generates env config →
    ∀ name entry, lockedEntry h.workspace.lockFile name = some entry → entry.source = "git" →
      Declares config name entry.gitUrl entry.resolvedReference → entry.Blank

end

/-! ### What a run keeps -/

section

variable {base : String}

theorem current_start (w : Workspace) : Current (.start w) where
  pins _ := rfl
  built := rfl

theorem LockFile.lockFile_of_lock {w : Workspace} {lock : LockFile} (h : w.lock = some lock) :
    w.lockFile = lock := by
  rw [Workspace.lockFile, h]
  rfl

theorem lockFile_congr {w w' : Workspace} (h : w'.lock = w.lock) : w'.lockFile = w.lockFile := by
  rw [Workspace.lockFile, h, Workspace.lockFile]

/-- A lock whose dependencies are made from the manifest pins nothing. -/
theorem blank_of_lockDependencies {config : DevKitConfig} {lock : LockFile}
    (hdeps : lock.dependencies = lockDependencies base config.dependencies) {name : String}
    {entry : DependencyLock} (hentry : lockedEntry lock name = some entry) : entry.Blank := by
  have hmem := (mem_of_lastAt hentry).1
  rw [hdeps] at hmem
  obtain ⟨⟨name', dep⟩, -, rfl⟩ := List.mem_map.mp hmem
  simp only [lockDependency]
  split <;> exact ⟨rfl, rfl, rfl⟩

/-- A lock whose dependencies are made from the manifest has an entry of each. -/
theorem lockedEntry_lockDependencies {config : DevKitConfig} {lock : LockFile}
    (hdeps : lock.dependencies = lockDependencies base config.dependencies) {name : String}
    {dep : Dependency} (hdep : config.dependencies.get? name = some dep) :
    lockedEntry lock name = some (lockDependency base name dep) := by
  have hnames : lock.dependencies.map DependencyLock.name = config.dependencies.keys := by
    rw [hdeps, lockDependencies, List.map_map, UnorderedMap.keys]
    exact List.map_congr_left fun e _ => lockDependency_name base e.1 e.2
  have hmem : lockDependency base name dep ∈ lock.dependencies := by
    rw [hdeps]
    exact List.mem_map.mpr ⟨(name, dep), UnorderedMap.get?_eq_some.mp hdep, rfl⟩
  have hnodup : (lock.dependencies.map DependencyLock.name).Nodup := by
    rw [hnames]
    exact config.dependencies.nodup
  have hlast := lastAt_of_mem hnodup hmem
  rwa [lockDependency_name] at hlast

theorem pin_eq_some {lock : LockFile} {name : String} {pin : Pin} (h : lock.pin name = some pin) :
    ∃ entry, lockedEntry lock name = some entry ∧ entry.source = "git" ∧ ¬ entry.Blank ∧
      entry.gitUrl = pin.gitUrl ∧ entry.resolvedReference = pin.reference := by
  obtain ⟨entry, hentry, hpin⟩ := Option.bind_eq_some_iff.mp h
  rw [DependencyLock.pin] at hpin
  split at hpin
  · next hpinned =>
    cases hpin
    exact ⟨entry, hentry, hpinned.1, hpinned.2, rfl, rfl⟩
  · cases hpin

theorem pin_eq_none {lock : LockFile} {name : String}
    (h : ∀ entry, lockedEntry lock name = some entry → entry.Blank) : lock.pin name = none := by
  cases hpin : lock.pin name with
  | none => rfl
  | some pin =>
    obtain ⟨entry, hentry, -, hnot, -⟩ := pin_eq_some hpin
    exact absurd (h entry hentry) hnot

theorem LockHistory.step_workspace (h : LockHistory) (run : LockRun) :
    (h.step base run).workspace = (run.exec base h.workspace).2 := by
  rw [LockHistory.step]
  split <;> rfl

/-- **A run keeps the other half of the lock exactly if it forgets nothing.** -/
theorem keepsOtherHalf_iff (h : LockHistory) (run : LockRun) :
    KeepsOtherHalf h run (h.step base run) ↔ ForgetsNothing h run := by
  rcases run.exec_cases base h.workspace with ⟨-, hlock, hnot⟩ |
    ⟨lock, -, hlock, ⟨env, config, hbuilds, hgenerates, hdeps⟩ | ⟨hbuilds, hbuilt⟩⟩
  · have hsame : (h.step base run).workspace.lockFile = h.workspace.lockFile := by
      rw [LockHistory.step_workspace, lockFile_congr hlock]
    refine iff_of_true ⟨?_, fun _ => by rw [hsame]⟩ ?_
    · intro env config _ name entry hentry _ _
      exact ⟨entry, hsame ▸ hentry, rfl, rfl, rfl⟩
    · intro env config hbuilds hgenerates
      exact absurd hgenerates (hnot env config hbuilds)
  · have hafter : (h.step base run).workspace.lockFile = lock := by
      rw [LockHistory.step_workspace, LockFile.lockFile_of_lock hlock]
    constructor
    · intro hkeeps env' config' hbuilds' _ name entry hentry hsource hdeclares
      obtain ⟨rfl, rfl⟩ := Prod.mk.inj (Option.some.inj (hbuilds.symm.trans hbuilds'))
      obtain ⟨entry', hentry', hcommit, hlocation, hintegrity⟩ :=
        hkeeps.pins env config hbuilds name entry hentry hsource hdeclares
      rw [hafter] at hentry'
      obtain ⟨hcommit', hlocation', hintegrity'⟩ := blank_of_lockDependencies hdeps hentry'
      exact ⟨hcommit ▸ hcommit', hlocation ▸ hlocation', hintegrity ▸ hintegrity'⟩
    · refine fun hforgets => ⟨?_, fun hnone => nomatch hnone.symm.trans hbuilds⟩
      intro env' config' hbuilds' name entry hentry hsource hdeclares
      obtain ⟨rfl, rfl⟩ := Prod.mk.inj (Option.some.inj (hbuilds.symm.trans hbuilds'))
      obtain ⟨hcommit, hlocation, hintegrity⟩ :=
        hforgets env config hbuilds hgenerates name entry hentry hsource hdeclares
      obtain ⟨dep, hdep, -⟩ := hdeclares
      have hentry' := lockedEntry_lockDependencies hdeps hdep
      obtain ⟨hcommit', hlocation', hintegrity'⟩ := blank_of_lockDependencies hdeps hentry'
      exact ⟨_, hafter ▸ hentry', hcommit'.trans hcommit.symm, hlocation'.trans hlocation.symm,
        hintegrity'.trans hintegrity.symm⟩
  · have hafter : (h.step base run).workspace.lockFile = lock := by
      rw [LockHistory.step_workspace, LockFile.lockFile_of_lock hlock]
    refine iff_of_true ⟨?_, fun _ => by rw [hafter, hbuilt]⟩ ?_
    · intro env config hbuilds'
      exact nomatch hbuilds.symm.trans hbuilds'
    · intro env config hbuilds'
      exact nomatch hbuilds.symm.trans hbuilds'

/-- A run that forgets nothing leaves the lock of the history. -/
theorem Current.step {h : LockHistory} (hcurrent : Current h) {run : LockRun}
    (hforgets : ForgetsNothing h run) : Current (h.step base run) := by
  rcases run.exec_cases base h.workspace with ⟨hwritten, hlock, -⟩ |
    ⟨lock, hwritten, hlock, ⟨env, config, hbuilds, hgenerates, hdeps⟩ | ⟨hbuilds, hbuilt⟩⟩
  · simp only [LockHistory.step, hwritten]
    exact ⟨fun name => by rw [lockFile_congr hlock, hcurrent.pins],
      by rw [lockFile_congr hlock, hcurrent.built]⟩
  · simp only [LockHistory.step, hwritten, hbuilds]
    refine ⟨fun name => ?_, by rw [LockFile.lockFile_of_lock hlock]⟩
    rw [LockFile.lockFile_of_lock hlock,
      pin_eq_none fun entry hentry => blank_of_lockDependencies hdeps hentry, eq_comm,
      Option.filter_eq_none_iff]
    intro pin hpin hdeclares
    obtain ⟨entry, hentry, hsource, hnot, hurl, hreference⟩ :=
      pin_eq_some ((hcurrent.pins name).trans hpin)
    exact hnot (hforgets env config hbuilds hgenerates name entry hentry hsource
      (by simpa [hurl, hreference] using hdeclares))
  · simp only [LockHistory.step, hwritten, hbuilds]
    exact ⟨fun name => by rw [LockFile.lockFile_of_lock hlock],
      by rw [LockFile.lockFile_of_lock hlock, hbuilt, hcurrent.built]⟩

/-- **The histories in which each run keeps the half of the lock that it does not make**, and in
which the lock is always that of the last fetch or update and of the last build: no build that
writes the lock finds a dependency pinned that is declared as it is locked. -/
theorem other_half_kept_throughout_iff (base : String) (w : Workspace) (runs : List LockRun) :
    ((∀ before run, before ++ [run] <+: runs →
        KeepsOtherHalf (Runs.run (LockHistory.step base) (.start w) before) run
          (Runs.run (LockHistory.step base) (.start w) (before ++ [run]))) ∧
      ∀ before, before <+: runs → Current (Runs.run (LockHistory.step base) (.start w) before)) ↔
      ∀ before run, before ++ [run] <+: runs →
        ForgetsNothing (Runs.run (LockHistory.step base) (.start w) before) run :=
  Runs.forall_step_iff (current_start w) (fun _ _ hcurrent hforgets => hcurrent.step hforgets)
    keepsOtherHalf_iff runs

end

/-! ### A build after a fetch -/

section TokenAndLibrary

/-- A project with a token, which depends on a tag of a library. -/
def tokenConfig : DevKitConfig :=
  { libraryConfig with contracts :=
    ⟨[("token", ⟨"token", [], [], []⟩)], List.nodup_singleton "token"⟩ }

/-- The artifact of the token is code without sections. -/
def tokenBuildEnv : BuildEnv where
  graphOrder := .id
  scan := .id
  findArtifact _ path := some (joinPath path "target/wasm32v1-none/release/token.wasm")
  read _ := .ok [0, 97, 115, 109, 1, 0, 0, 0]
  sha256 _ := #v[147, 164, 75, 187, 150, 199, 81, 33, 142, 76, 0, 212, 121, 228, 193, 67,
    88, 18, 42, 56, 154, 204, 161, 98, 5, 177, 228, 208, 220, 95, 148, 118]
  lockFault := none

/-- The library is fetched, and the token is built. -/
def fetchThenBuild : List LockRun :=
  [.fetch (libraryEnv commit₁) false tokenConfig, .build tokenBuildEnv tokenConfig]

/-- The build forgets the commit that was fetched. -/
theorem build_forgets_fetched :
    ¬ ∀ (base : String) (w : Workspace) (runs : List LockRun),
      (∀ before run, before ++ [run] <+: runs →
        KeepsOtherHalf (Runs.run (LockHistory.step base) (.start w) before) run
          (Runs.run (LockHistory.step base) (.start w) (before ++ [run]))) ∧
      ∀ before, before <+: runs →
        Current (Runs.run (LockHistory.step base) (.start w) before) := by
  intro h
  have hkeeps := (h "/app" { cache := fun _ => none, lock := none } fetchThenBuild).1
    [.fetch (libraryEnv commit₁) false tokenConfig] (.build tokenBuildEnv tokenConfig)
    List.prefix_rfl
  obtain ⟨entry, hentry, hcommit, -⟩ := hkeeps.pins tokenBuildEnv tokenConfig rfl "library"
    { lockDependency "/app" "library" libraryDep with
      commitSha := "c1"
      cacheLocation := "/app/.sdkt-cache/git/" ++ gitCacheKey libraryDep
      integrity := "sha256:tree of c1" } (by decide +kernel) rfl
    ⟨libraryDep, rfl, rfl, rfl⟩
  obtain rfl := Option.some.inj
    ((show _ = some (lockDependency "/app" "library" libraryDep) by decide +kernel).symm.trans
      hentry)
  exact absurd hcommit (by decide)

end TokenAndLibrary

end SorobanDevkit.Core
