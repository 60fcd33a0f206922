import SorobanDevkit.Cli.ProjectDeploy
import SorobanDevkit.Core.Build

/-!
# The artifact that is built, locked and deployed

`build_workspace`, `generate_lock` and `resolve_project` each list the release directory of a
contract and take the first file with the extension `wasm`. A directory may be listed in another
order each time. Where it holds one such file, the three take that file; where it holds two, the
lock may record a file that is not the one that is uploaded.
-/

namespace SorobanDevkit.Cli

open SorobanDevkit.Core TopologicalOrder

section Choice

variable (tools : BuildTools) (files : Core.ReleaseFiles) (sha256 : List UInt8 → Vector UInt8 32)
  (config : DevKitConfig)

/-- What is built, locked and deployed for a contract is one file, and the lock has the hash of its
bytes. The path in the lock is given from the current directory. -/
def SameArtifact (results : List BuildResult) (lock : LockFile) (project : ResolvedProject)
    (contract : String) : Prop :=
  ∃ built ∈ results, ∃ locked ∈ lock.contracts, ∃ deployed ∈ project.contracts,
    built.contract = contract ∧ locked.contract = contract ∧ deployed.aliasName = contract ∧
    deployed.wasmArtifact = built.wasmArtifact ∧
    locked.artifact = joinPath "." built.wasmArtifact ∧
    ∃ bytes, files.read deployed.wasmArtifact = .ok bytes ∧
      locked.sha256 = Hex.encode (sha256 bytes).toList

/-- `resolve_project` in the iteration orders of a command. -/
def resolvedIn (orders : Enumeration) : Except ResolveError ResolvedProject :=
  resolveProject orders.graphOrder orders.scan config fun contract path =>
    findWasm files (orders.listing contract) (releaseDir path)

/-- Whatever the iteration orders of the three commands are, when they succeed they choose the same
file for every contract. -/
def LockedIsDeployed : Prop :=
  ∀ (build lock resolve : Enumeration) (lockEnv : BuildEnv) (lockFault : Option String)
    (w : Workspace) (results : List BuildResult) (locked : LockFile) (project : ResolvedProject),
    (buildWorkspace tools files build lockEnv config w).1 = .ok results →
    generateLock (lock.toBuildEnv files sha256 lockFault) "." config = .ok locked →
    resolvedIn files config resolve = .ok project →
    ∀ contract ∈ config.contracts.keys, SameArtifact files sha256 results locked project contract

/-- The names of the artifacts in the release directory of a contract. -/
def artifactNames (path : String) : List String :=
  ((files.entries (releaseDir path)).getD []).filter isWasm

/-- There is a deploy order, each contract is built, and its release directory holds an artifact
that can be read. -/
structure Deployable : Prop where
  nonempty : config.contracts.entries ≠ []
  declared : AllWellDeclared config
  acyclic : AcyclicOn config.contracts.keys (DeployAfter config)
  built : ∀ e ∈ config.contracts.entries,
    tools.isDir e.2.path = true ∧ compile tools e.2.path = .ok ()
  readable : ∀ e ∈ config.contracts.entries, ∃ name ∈ artifactNames files e.2.path,
    ∃ bytes, files.read (joinPath (releaseDir e.2.path) name) = .ok bytes

variable {tools files sha256 config}

/-! ### One scan -/

/-- What a scan finds is an artifact of the directory. -/
theorem exists_of_findWasm {listing : Rearrangement String} {path artifact : String}
    (h : findWasm files listing (releaseDir path) = some artifact) :
    ∃ name ∈ artifactNames files path, artifact = joinPath (releaseDir path) name := by
  rw [findWasm] at h
  cases hentries : files.entries (releaseDir path) with
  | none =>
    rw [hentries] at h
    cases h
  | some names =>
    rw [hentries] at h
    obtain ⟨name, hname, rfl⟩ := Option.map_eq_some_iff.mp h
    refine ⟨name, ?_, rfl⟩
    rw [artifactNames, hentries]
    exact listing.find?_order hname

/-- A scan may find any artifact of the directory. -/
theorem findWasm_toFront {path name : String} (h : name ∈ artifactNames files path) :
    findWasm files (.toFront name) (releaseDir path) = some (joinPath (releaseDir path) name) := by
  rw [artifactNames] at h
  rw [findWasm]
  cases hentries : files.entries (releaseDir path) with
  | none =>
    rw [hentries] at h
    cases h
  | some names =>
    rw [hentries] at h
    obtain ⟨hmem, hwasm⟩ := List.mem_filter.mp h
    exact congrArg (Option.map _) (Rearrangement.find?_toFront hmem hwasm)

theorem relative_of_mem_artifactNames {path name : String} (h : name ∈ artifactNames files path) :
    name.toList.head? ≠ some '/' := by
  rw [artifactNames] at h
  cases hentries : files.entries (releaseDir path) with
  | none =>
    rw [hentries] at h
    cases h
  | some names =>
    rw [hentries] at h
    exact fun hhead => files.undivided _ names hentries name (List.mem_of_mem_filter h)
      (List.mem_of_head? hhead)

theorem artifactNames_nodup (path : String) : (artifactNames files path).Nodup := by
  rw [artifactNames]
  cases hentries : files.entries (releaseDir path) with
  | none => exact List.nodup_nil
  | some names => exact (files.nodup _ names hentries).filter _

/-- `find_artifact` makes the scan of the other two in the current directory. -/
theorem findArtifact_here (listing : Rearrangement String) (path : String) :
    findArtifact files listing "." path =
      (findWasm files listing (releaseDir path)).map (joinPath ".") := by
  rw [findArtifact, releaseDir_joinPath, findWasm, findWasm, files.entries_here]
  cases hentries : files.entries (releaseDir path) with
  | none => rfl
  | some names =>
    simp only [Option.map_map]
    refine Option.map_congr fun name hname => ?_
    have hmem := List.mem_of_mem_filter (listing.find?_order hname)
    exact joinPath_joinPath (fun hhead => files.undivided _ names hentries name hmem
      (List.mem_of_head? hhead)) _ _

/-! ### One contract -/

theorem buildContract_eq_ok_iff {listing : String → Rearrangement String} {contract : String}
    {result : BuildResult} : buildContract tools files listing config contract = .ok result ↔
      ∃ cfg artifact, config.contracts.get? contract = some cfg ∧ tools.isDir cfg.path = true ∧
        compile tools cfg.path = .ok () ∧
        findWasm files (listing contract) (releaseDir cfg.path) = some artifact ∧
        result = ⟨contract, cfg.path, artifact⟩ := by
  rw [buildContract]
  cases config.contracts.get? contract with
  | none => simp
  | some cfg =>
    cases hdir : tools.isDir cfg.path with
    | false => simp [hdir]
    | true =>
      cases hcompile : compile tools cfg.path with
      | error e => simp [hdir, hcompile]
      | ok u =>
        cases hfind : findWasm files (listing contract) (releaseDir cfg.path) with
        | none => simp [hdir, hcompile, hfind]
        | some artifact =>
          simp only [hdir, hcompile, hfind, Bool.true_eq_false, if_false, Except.ok.injEq,
            Option.some.injEq, exists_and_left, exists_eq_left', true_and]
          exact eq_comm

theorem lockContract_eq_ok_iff {env : BuildEnv} {contract : String} {order : ℕ}
    {entry : LockEntry} : lockContract env config contract order = .ok entry ↔
      ∃ cfg artifact bytes, config.contracts.get? contract = some cfg ∧
        env.findArtifact contract cfg.path = some artifact ∧ env.read artifact = .ok bytes ∧
        entry = ⟨contract, cfg.path, artifact, Hex.encode (env.sha256 bytes).toList, order⟩ := by
  rw [lockContract]
  cases config.contracts.get? contract with
  | none => simp
  | some cfg =>
    cases hfind : env.findArtifact contract cfg.path with
    | none => simp [hfind]
    | some artifact =>
      cases hread : env.read artifact with
      | error source => simp [computeSha256, hfind, hread, Except.map]
      | ok bytes =>
        simp only [computeSha256, hfind, hread, Except.map, Option.some.injEq, Except.ok.injEq,
          exists_and_left, exists_eq_left']
        exact eq_comm

theorem resolveContract_eq_ok_iff {artifact : String → String → Option String}
    {contract : String} {resolved : ResolvedContract} :
    resolveContract config artifact contract = .ok resolved ↔
      ∃ cfg found, config.contracts.get? contract = some cfg ∧
        artifact contract cfg.path = some found ∧
        resolved = ⟨contract, cfg.path, found, cfg.ctorArgs⟩ := by
  rw [resolveContract]
  cases config.contracts.get? contract with
  | none => simp
  | some cfg =>
    cases hfind : artifact contract cfg.path with
    | none => simp [hfind]
    | some found =>
      simp only [hfind, Except.ok.injEq, Option.some.injEq, exists_and_left, exists_eq_left']
      exact eq_comm

/-! ### Every contract -/

theorem exists_findWasm {path name : String} (h : name ∈ artifactNames files path)
    (listing : Rearrangement String) :
    ∃ artifact, findWasm files listing (releaseDir path) = some artifact := by
  rw [artifactNames] at h
  rw [findWasm]
  cases hentries : files.entries (releaseDir path) with
  | none =>
    rw [hentries] at h
    cases h
  | some names =>
    rw [hentries] at h
    obtain ⟨hmem, hwasm⟩ := List.mem_filter.mp h
    have hfound : ((listing.order names).find? isWasm).isSome = true :=
      List.find?_isSome.mpr ⟨name, (listing.perm names).mem_iff.mpr hmem, hwasm⟩
    obtain ⟨found, hfind⟩ := Option.isSome_iff_exists.mp hfound
    exact ⟨joinPath (releaseDir path) found, congrArg (Option.map _) hfind⟩

/-- A deploy order has the contracts of the project. -/
theorem mem_deployOrder_iff {graphOrder : Rearrangement (String × List String)}
    {scan : Rearrangement String} {order : List String}
    (h : resolveDeployOrder graphOrder scan config = .ok order) (contract : String) :
    contract ∈ order ↔ contract ∈ config.contracts.keys := by
  have hne : config.contracts.entries ≠ [] := by
    intro hnil
    simp [resolveDeployOrder, hnil] at h
  exact (resolveDeployOrder_isLeast graphOrder scan hne h).1.perm.mem_iff

theorem buildWorkspace_eq_ok_iff {orders : Enumeration} {lockEnv : BuildEnv} {w : Workspace}
    {results : List BuildResult} :
    (buildWorkspace tools files orders lockEnv config w).1 = .ok results ↔
      ∃ order, resolveDeployOrder orders.graphOrder orders.scan config = .ok order ∧
        order.mapM (buildContract tools files orders.listing config) = .ok results := by
  have hfst : (buildWorkspace tools files orders lockEnv config w).1 =
      buildContracts tools files orders config := by
    rw [buildWorkspace]
    cases buildContracts tools files orders config <;> rfl
  rw [hfst, buildContracts]
  split_ifs with hempty
  · have herror : resolveDeployOrder orders.graphOrder orders.scan config =
        .error .missingConfig := if_pos hempty
    simp [herror]
  · simp only [Except.bind_eq_ok_iff, Except.mapError_eq_ok_iff]

theorem generateLock_eq_ok_iff {env : BuildEnv} {base : String} {lock : LockFile} :
    generateLock env base config = .ok lock ↔
      ∃ order contracts, resolveDeployOrder env.graphOrder env.scan config = .ok order ∧
        (order.zipIdx.mapM fun e => lockContract env config e.1 e.2) = .ok contracts ∧
        lock = ⟨lockVersion, order, contracts, lockDependencies base config.dependencies⟩ := by
  rw [generateLock]
  simp only [Except.bind_eq_ok_iff, Except.mapError_eq_ok_iff, Except.ok.injEq, ← exists_and_left]
  simp only [eq_comm (b := lock)]

theorem resolvedIn_eq_ok_iff {orders : Enumeration} {project : ResolvedProject} :
    resolvedIn files config orders = .ok project ↔
      ∃ order, resolveDeployOrder orders.graphOrder orders.scan config = .ok order ∧
        order.mapM (resolveContract config fun contract path =>
          findWasm files (orders.listing contract) (releaseDir path)) = .ok project.contracts := by
  rw [resolvedIn, resolveProject]
  split
  · next e horder => simp [horder]
  · next order horder =>
    simp only [horder, Except.ok.injEq, exists_eq_left']
    split
    · next e hcontracts => simp [hcontracts]
    · next contracts hcontracts =>
      constructor
      · rintro h
        cases h
        exact hcontracts
      · intro h
        obtain ⟨chosen, haliases⟩ := project
        cases hcontracts.symm.trans h
        rfl

section Chosen

variable {contract : String} {cfg : ContractConfig}
  (hcontract : (contract, cfg) ∈ config.contracts.entries)

include hcontract

/-- A build that succeeds has built every contract, and has found an artifact of it. -/
theorem built_of_ok {orders : Enumeration} {lockEnv : BuildEnv} {w : Workspace}
    {results : List BuildResult}
    (h : (buildWorkspace tools files orders lockEnv config w).1 = .ok results) :
    tools.isDir cfg.path = true ∧ compile tools cfg.path = .ok () ∧
      ∃ name ∈ artifactNames files cfg.path,
        ⟨contract, cfg.path, joinPath (releaseDir cfg.path) name⟩ ∈ results := by
  obtain ⟨order, horder, hresults⟩ := buildWorkspace_eq_ok_iff.mp h
  obtain ⟨built, hbuilt, hbuilds⟩ := Except.exists_mem_of_mapM_eq_ok hresults contract
    ((mem_deployOrder_iff horder contract).mpr (List.mem_map_of_mem hcontract))
  obtain ⟨cfg', artifact, hget, hdir, hcompile, hfound, rfl⟩ := buildContract_eq_ok_iff.mp hbuilds
  obtain rfl := Option.some.inj (hget.symm.trans (UnorderedMap.get?_eq_some.mpr hcontract))
  obtain ⟨name, hname, rfl⟩ := exists_of_findWasm hfound
  exact ⟨hdir, hcompile, name, hname, hbuilt⟩

/-- A lock that is made has the hash of an artifact of every contract. -/
theorem locked_of_ok {orders : Enumeration} {lockFault : Option String} {lock : LockFile}
    (h : generateLock (orders.toBuildEnv files sha256 lockFault) "." config = .ok lock) :
    ∃ name ∈ artifactNames files cfg.path, ∃ bytes order,
      files.read (joinPath (releaseDir cfg.path) name) = .ok bytes ∧
      ⟨contract, cfg.path, joinPath "." (joinPath (releaseDir cfg.path) name),
        Hex.encode (sha256 bytes).toList, order⟩ ∈ lock.contracts := by
  obtain ⟨order, contracts, horder, hentries, rfl⟩ := generateLock_eq_ok_iff.mp h
  obtain ⟨n, hn, hget⟩ := List.mem_iff_getElem.mp
    ((mem_deployOrder_iff horder contract).mpr (List.mem_map_of_mem hcontract))
  obtain ⟨entry, hentry, hlocks⟩ := Except.exists_mem_of_mapM_eq_ok hentries (contract, n)
    (List.mk_mem_zipIdx_iff_getElem?.mpr (List.getElem?_eq_some_iff.mpr ⟨hn, hget⟩))
  obtain ⟨cfg', artifact, bytes, hget', hfound, hread, rfl⟩ := lockContract_eq_ok_iff.mp hlocks
  obtain rfl := Option.some.inj (hget'.symm.trans (UnorderedMap.get?_eq_some.mpr hcontract))
  have hhere := (@findArtifact_here files (orders.listing contract) cfg'.path).symm.trans
    hfound
  obtain ⟨path, hscan, rfl⟩ := Option.map_eq_some_iff.mp hhere
  obtain ⟨name, hname, rfl⟩ := exists_of_findWasm hscan
  exact ⟨name, hname, bytes, n, (files.read_here cfg'.path name).symm.trans hread, hentry⟩

/-- A project that is resolved has an artifact of every contract. -/
theorem resolved_of_ok {orders : Enumeration} {project : ResolvedProject}
    (h : resolvedIn files config orders = .ok project) :
    ∃ name ∈ artifactNames files cfg.path,
      ⟨contract, cfg.path, joinPath (releaseDir cfg.path) name, cfg.ctorArgs⟩ ∈
        project.contracts := by
  obtain ⟨order, horder, hprojects⟩ := resolvedIn_eq_ok_iff.mp h
  obtain ⟨deployed, hdeployed, hresolves⟩ := Except.exists_mem_of_mapM_eq_ok hprojects contract
    ((mem_deployOrder_iff horder contract).mpr (List.mem_map_of_mem hcontract))
  obtain ⟨cfg', artifact, hget, hfound, rfl⟩ := resolveContract_eq_ok_iff.mp hresolves
  obtain rfl := Option.some.inj (hget.symm.trans (UnorderedMap.get?_eq_some.mpr hcontract))
  obtain ⟨name, hname, rfl⟩ := exists_of_findWasm hfound
  exact ⟨name, hname, hdeployed⟩

end Chosen

/-- When a build and a lock succeed, the project is deployable. -/
theorem deployable_of_ok {build lock : Enumeration} {lockEnv : BuildEnv}
    {lockFault : Option String} {w : Workspace} {results : List BuildResult} {locked : LockFile}
    (hbuild : (buildWorkspace tools files build lockEnv config w).1 = .ok results)
    (hlock : generateLock (lock.toBuildEnv files sha256 lockFault) "." config = .ok locked) :
    Deployable tools files config := by
  obtain ⟨order, horder, -⟩ := buildWorkspace_eq_ok_iff.mp hbuild
  have hne : config.contracts.entries ≠ [] := by
    intro hnil
    simp [resolveDeployOrder, hnil] at horder
  obtain ⟨hdeclared, hacyclic⟩ :=
    (exists_resolveDeployOrder_iff build.graphOrder build.scan hne).mp ⟨order, horder⟩
  refine ⟨hne, hdeclared, hacyclic, fun e he => ?_, fun e he => ?_⟩
  · have hentry : (e.1, e.2) ∈ config.contracts.entries := he
    obtain ⟨hdir, hcompile, -⟩ := built_of_ok hentry hbuild
    exact ⟨hdir, hcompile⟩
  · have hentry : (e.1, e.2) ∈ config.contracts.entries := he
    obtain ⟨name, hname, bytes, -, hread, -⟩ := locked_of_ok hentry hlock
    exact ⟨name, hname, bytes, hread⟩

/-- Where the commands may succeed, they do so when the lock is made in an order that finds a
readable artifact for each contract. -/
theorem Deployable.exists_ok (h : Deployable tools files config)
    (build resolve : Enumeration) : ∃ (lock : Enumeration) (w : Workspace)
      (results : List BuildResult) (locked : LockFile) (project : ResolvedProject),
      (buildWorkspace tools files build (lock.toBuildEnv files sha256 none) config w).1 =
        .ok results ∧
      generateLock (lock.toBuildEnv files sha256 none) "." config = .ok locked ∧
      resolvedIn files config resolve = .ok project := by
  have horder : ∀ orders : Enumeration, ∃ order,
      resolveDeployOrder orders.graphOrder orders.scan config = .ok order :=
    fun orders => (exists_resolveDeployOrder_iff orders.graphOrder orders.scan h.nonempty).mpr
      ⟨h.declared, h.acyclic⟩
  have hcontract : ∀ contract ∈ config.contracts.keys, ∃ cfg,
      config.contracts.get? contract = some cfg ∧ (contract, cfg) ∈ config.contracts.entries := by
    intro contract hmem
    obtain ⟨e, he, rfl⟩ := List.mem_map.mp hmem
    exact ⟨e.2, UnorderedMap.get?_eq_some.mpr he, he⟩
  have hreadable : ∀ contract, ∃ name, ∀ cfg, (contract, cfg) ∈ config.contracts.entries →
      name ∈ artifactNames files cfg.path ∧
        ∃ bytes, files.read (joinPath (releaseDir cfg.path) name) = .ok bytes := by
    intro contract
    by_cases hmem : contract ∈ config.contracts.keys
    · obtain ⟨cfg, hget, he⟩ := hcontract contract hmem
      obtain ⟨name, hname, hbytes⟩ := h.readable _ he
      refine ⟨name, fun cfg' he' => ?_⟩
      obtain rfl := Option.some.inj (hget.symm.trans (UnorderedMap.get?_eq_some.mpr he'))
      exact ⟨hname, hbytes⟩
    · exact ⟨"", fun cfg he => absurd (List.mem_map_of_mem he) hmem⟩
  choose name hname using hreadable
  obtain ⟨order, horderBuild⟩ := horder build
  obtain ⟨order', horderLock⟩ := horder ⟨build.graphOrder, build.scan, fun c => .toFront (name c)⟩
  obtain ⟨order'', horderResolve⟩ := horder resolve
  obtain ⟨results, hresults⟩ : ∃ results,
      order.mapM (buildContract tools files build.listing config) = .ok results := by
    refine Except.exists_mapM_eq_ok fun contract hmem => ?_
    obtain ⟨cfg, hget, he⟩ := hcontract contract ((mem_deployOrder_iff horderBuild _).mp hmem)
    obtain ⟨artifact, hfound⟩ := exists_findWasm (hname contract cfg he).1 (build.listing contract)
    exact ⟨_, buildContract_eq_ok_iff.mpr
      ⟨cfg, artifact, hget, (h.built _ he).1, (h.built _ he).2, hfound, rfl⟩⟩
  let lock : Enumeration := ⟨build.graphOrder, build.scan, fun c => .toFront (name c)⟩
  obtain ⟨contracts, hcontracts⟩ : ∃ contracts, (order'.zipIdx.mapM fun e =>
      lockContract (lock.toBuildEnv files sha256 none) config e.1 e.2) = .ok contracts := by
    refine Except.exists_mapM_eq_ok fun e hmem => ?_
    have hmem' : e.1 ∈ order' := List.mem_of_getElem? (List.mem_zipIdx_iff_getElem?.mp hmem)
    obtain ⟨cfg, hget, he⟩ := hcontract e.1 ((mem_deployOrder_iff horderLock _).mp hmem')
    obtain ⟨hmem, bytes, hread⟩ := hname e.1 cfg he
    have hfound : findArtifact files (.toFront (name e.1)) "." cfg.path =
        some (joinPath "." (joinPath (releaseDir cfg.path) (name e.1))) := by
      rw [findArtifact_here, findWasm_toFront hmem, Option.map_some]
    exact ⟨_, lockContract_eq_ok_iff.mpr ⟨cfg, _, bytes, hget, hfound,
      (files.read_here cfg.path (name e.1)).trans hread, rfl⟩⟩
  obtain ⟨resolved, hresolved⟩ : ∃ resolved, order''.mapM (resolveContract config
      fun contract path => findWasm files (resolve.listing contract) (releaseDir path)) =
        .ok resolved := by
    refine Except.exists_mapM_eq_ok fun contract hmem => ?_
    obtain ⟨cfg, hget, he⟩ := hcontract contract ((mem_deployOrder_iff horderResolve _).mp hmem)
    obtain ⟨artifact, hfound⟩ :=
      exists_findWasm (hname contract cfg he).1 (resolve.listing contract)
    exact ⟨_, resolveContract_eq_ok_iff.mpr ⟨cfg, artifact, hget, hfound, rfl⟩⟩
  have haliases : (resolved.map ResolvedContract.aliasName).Nodup := by
    rw [aliases_of_mapM_resolveContract hresolved]
    exact nodup_of_resolveDeployOrder horderResolve
  exact ⟨lock, ⟨fun _ => none, none⟩, results, _, ⟨resolved, haliases⟩,
    buildWorkspace_eq_ok_iff.mpr ⟨order, horderBuild, hresults⟩,
    generateLock_eq_ok_iff.mpr ⟨order', contracts, horderLock, hcontracts, rfl⟩,
    resolvedIn_eq_ok_iff.mpr ⟨order'', horderResolve, hresolved⟩⟩

/-- **The locked artifact is the deployed one exactly when no release directory holds two
artifacts**, in a project on which the commands may succeed. -/
theorem locked_is_deployed_iff (tools : BuildTools) (files : Core.ReleaseFiles)
    (sha256 : List UInt8 → Vector UInt8 32) (config : DevKitConfig) :
    LockedIsDeployed tools files sha256 config ↔
      (Deployable tools files config →
        ∀ e ∈ config.contracts.entries, (artifactNames files e.2.path).length ≤ 1) := by
  constructor
  · intro h hdeployable e he
    by_contra hlong
    obtain ⟨a, ha, b, hb, hne⟩ : ∃ a ∈ artifactNames files e.2.path,
        ∃ b ∈ artifactNames files e.2.path, a ≠ b := by
      have hnodup : (artifactNames files e.2.path).Nodup := artifactNames_nodup e.2.path
      match hnames : artifactNames files e.2.path with
      | [] => simp [hnames] at hlong
      | [a] => simp [hnames] at hlong
      | a :: b :: names =>
        rw [hnames] at hnodup
        exact ⟨a, by simp, b, by simp, (List.ne_of_not_mem_cons (List.nodup_cons.mp hnodup).1)⟩
    -- one artifact is built, and the other is deployed
    let first : Enumeration := ⟨.id, .id, fun _ => .toFront a⟩
    let second : Enumeration := ⟨.id, .id, fun _ => .toFront b⟩
    obtain ⟨lock, w, results, locked, project, hbuild, hlock, hresolve⟩ :=
      hdeployable.exists_ok first second
    obtain ⟨built, hbuilt, -, -, deployed, hdeployed, hcontract, -, halias, hsame, -⟩ :=
      h _ _ _ _ _ w _ _ _ hbuild hlock hresolve e.1 (List.mem_map_of_mem he)
    obtain ⟨order, -, hresults⟩ := buildWorkspace_eq_ok_iff.mp hbuild
    obtain ⟨order', -, hprojects⟩ := resolvedIn_eq_ok_iff.mp hresolve
    obtain ⟨c, -, hc⟩ := Except.mem_of_mapM_eq_ok hresults built hbuilt
    obtain ⟨c', -, hc'⟩ := Except.mem_of_mapM_eq_ok hprojects deployed hdeployed
    obtain ⟨cfg, artifact, hget, -, -, hfound, rfl⟩ := buildContract_eq_ok_iff.mp hc
    obtain ⟨cfg', artifact', hget', hfound', rfl⟩ := resolveContract_eq_ok_iff.mp hc'
    obtain rfl : c = e.1 := hcontract
    obtain rfl : c' = e.1 := halias
    obtain rfl := Option.some.inj (hget.symm.trans (UnorderedMap.get?_eq_some.mpr he))
    obtain rfl := Option.some.inj (hget'.symm.trans (UnorderedMap.get?_eq_some.mpr he))
    obtain rfl := Option.some.inj (hfound.symm.trans (findWasm_toFront ha))
    obtain rfl := Option.some.inj (hfound'.symm.trans (findWasm_toFront hb))
    have hjoin : joinPath (releaseDir e.2.path) b = joinPath (releaseDir e.2.path) a := hsame
    rw [joinPath_of_relative (relative_of_mem_artifactNames ha),
      joinPath_of_relative (relative_of_mem_artifactNames hb)] at hjoin
    exact hne (String.append_right_inj _ |>.mp hjoin).symm
  · intro h build lock resolve lockEnv lockFault w results locked project hbuild hlock hresolve
      contract hcontract
    obtain ⟨⟨contract, cfg⟩, he, rfl⟩ := List.mem_map.mp hcontract
    obtain ⟨-, -, b, hb, hbuilt⟩ := built_of_ok he hbuild
    obtain ⟨l, hl, bytes, order, hread, hlocked⟩ := locked_of_ok he hlock
    obtain ⟨d, hd, hdeployed⟩ := resolved_of_ok he hresolve
    have hone : (artifactNames files cfg.path).length ≤ 1 :=
      h (deployable_of_ok hbuild hlock) (contract, cfg) he
    obtain ⟨name, hname⟩ : ∃ name, artifactNames files cfg.path = [name] :=
      List.length_eq_one_iff.mp (Nat.le_antisymm hone (List.length_pos_of_mem hb))
    rw [hname, List.mem_singleton] at hb hl hd
    subst hb hl hd
    exact ⟨_, hbuilt, _, hlocked, _, hdeployed, rfl, rfl, rfl, rfl, rfl, bytes, hread, rfl⟩

end Choice

section TokenAndOptimized

/-- What is behind the last separator of a path. -/
def lastName (path : String) : List Char := (path.toList.reverse.takeWhile (· ≠ '/')).reverse

theorem lastName_here (path : String) : lastName (joinPath "." path) = lastName path := by
  by_cases habsolute : path.toList.head? = some '/'
  · rw [joinPath_of_absolute habsolute]
  · have hstop : ∀ cs : List Char, (cs ++ ['/', '.']).takeWhile (· ≠ '/') = cs.takeWhile
      (· ≠ '/') := by
      intro cs
      induction cs with
      | nil => rfl
      | cons c cs ih =>
        rw [List.cons_append, List.takeWhile_cons, List.takeWhile_cons, ih]
    have hhere : (asDirectory ".").toList.reverse = ['/', '.'] := by decide
    rw [joinPath_of_relative habsolute, lastName, String.toList_append, List.reverse_append, hhere,
      hstop, lastName]

/-- The code of a token, and code with an empty section more. -/
def tokenCode (optimized : Bool) : List UInt8 :=
  [0, 97, 115, 109, 1, 0, 0, 0] ++ if optimized then [] else [0, 1, 0]

/-- A release directory with the code of a token and an optimized copy of it. -/
def tokenAndOptimized : Core.ReleaseFiles where
  entries _ := some ["token.wasm", "token.optimized.wasm"]
  read path := .ok (tokenCode (lastName path = "token.optimized.wasm".toList))
  nodup _ names h := by
    cases h
    decide
  undivided _ names h := by
    cases h
    decide
  entries_here _ := rfl
  read_here path name := by rw [lastName_here]

/-- The SHA-256 digests of the two files. -/
def tokenSha256 (bytes : List UInt8) : Vector UInt8 32 :=
  if bytes = tokenCode true then
    .ofFn fun i => [147, 164, 75, 187, 150, 199, 81, 33, 142, 76, 0, 212, 121, 228, 193, 67,
      88, 18, 42, 56, 154, 204, 161, 98, 5, 177, 228, 208, 220, 95, 148, 118].getD i 0
  else
    .ofFn fun i => [237, 50, 156, 163, 234, 81, 217, 49, 11, 186, 224, 226, 181, 148, 89, 93,
      218, 115, 255, 91, 114, 172, 227, 109, 30, 218, 74, 99, 145, 105, 100, 115].getD i 0

/-- Tools that build every contract. -/
def buildingTools : BuildTools where
  isDir _ := true
  requiresV28BuildSystem _ := false
  stellarCliVersion := none
  run _ _ := .ok (.ok ())

/-- A project of one token. -/
def tokenProject : DevKitConfig where
  contracts := ⟨[("token", ⟨"contracts/token", [], [], []⟩)], List.nodup_singleton "token"⟩
  package := none
  dependencies := ⟨[], List.nodup_nil⟩

/-- The directories are listed backwards. -/
def backwards : Enumeration := ⟨.id, .id, fun _ => .reverse⟩

/-- The directories are listed in their order. -/
def inOrder : Enumeration := ⟨.id, .id, fun _ => .id⟩

/-- The optimized copy is locked, and the other file is deployed. -/
theorem optimized_is_locked :
    ¬ LockedIsDeployed buildingTools tokenAndOptimized tokenSha256 tokenProject := by
  intro h
  obtain ⟨results, hresults, hbuiltWasm⟩ : ∃ results,
      (buildWorkspace buildingTools tokenAndOptimized backwards
        (backwards.toBuildEnv tokenAndOptimized tokenSha256 none) tokenProject
        ⟨fun _ => none, none⟩).1 = .ok results ∧
        results.map BuildResult.wasmArtifact =
          ["contracts/token/target/wasm32v1-none/release/token.optimized.wasm"] :=
    ⟨_, rfl, rfl⟩
  obtain ⟨project, hproject, hdeployedWasm⟩ : ∃ project,
      resolvedIn tokenAndOptimized tokenProject inOrder = .ok project ∧
        project.contracts.map ResolvedContract.wasmArtifact =
          ["contracts/token/target/wasm32v1-none/release/token.wasm"] :=
    ⟨_, rfl, rfl⟩
  obtain ⟨built, hbuilt, -, -, deployed, hdeployed, -, -, -, hsame, -⟩ := h backwards backwards
    inOrder _ none _ results _ project hresults rfl hproject "token" (by decide)
  have hb := List.mem_map_of_mem (f := BuildResult.wasmArtifact) hbuilt
  have hd := List.mem_map_of_mem (f := ResolvedContract.wasmArtifact) hdeployed
  rw [hbuiltWasm, List.mem_singleton] at hb
  rw [hdeployedWasm, List.mem_singleton, hsame, hb] at hd
  exact absurd hd (by decide)

end TokenAndOptimized

end SorobanDevkit.Cli
