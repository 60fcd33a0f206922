import SorobanDevkit.Core.LockGenerate
import SorobanDevkit.Library.PathText
import SorobanDevkit.Library.Utf8Lossy

/-!
# Building the contracts

`build_workspace` of `sdkt-core/src/build.rs` builds the contracts of a project in deploy order,
each in its own directory, and takes the first file with the extension `wasm` in the release
directory as its artifact. `find_artifact` of `sdkt-core/src/lock.rs` looks for the artifact in the
same way, from a base directory. What the tools that are run answer is arbitrary, and the release
directories are as they are left by the builds. What is printed is left out.
-/

namespace SorobanDevkit.Core

open Strings

/-! ### Release directories -/

/-- `WASM_BUILD_TARGET`. -/
def wasmBuildTarget : String := "wasm32v1-none"

/-- The directory in which the artifact of a contract is expected, by the path of the contract. -/
def releaseDir (path : String) : String :=
  joinPath (joinPath (joinPath path "target") wasmBuildTarget) "release"

/-- The file name has the extension of an artifact. -/
def isWasm (name : String) : Bool := PathText.extension '.' name.toList = some "wasm".toList

/-- The release directories and their files. The names in a directory are distinct and are not
divided. A path may be given from the current directory. -/
structure ReleaseFiles where
  /-- The names of the entries, if the directory is there and can be listed. -/
  entries : String → Option (List String)
  read : String → Except String (List UInt8)
  nodup : ∀ dir names, entries dir = some names → names.Nodup
  undivided : ∀ dir names, entries dir = some names → ∀ name ∈ names, '/' ∉ name.toList
  entries_here : ∀ path, entries (joinPath "." (releaseDir path)) = entries (releaseDir path)
  read_here : ∀ path name,
    read (joinPath "." (joinPath (releaseDir path) name)) = read (joinPath (releaseDir path) name)

/-- The first artifact in a directory, in the order in which its entries are listed. -/
def findWasm (files : ReleaseFiles) (listing : Rearrangement String) (dir : String) :
    Option String :=
  match files.entries dir with
  | none => none
  | some names => ((listing.order names).find? isWasm).map (joinPath dir)

/-- `find_artifact`. -/
def findArtifact (files : ReleaseFiles) (listing : Rearrangement String) (base path : String) :
    Option String :=
  findWasm files listing (releaseDir (joinPath base path))

/-- The release directory of a contract is below the base. -/
theorem releaseDir_joinPath (base path : String) :
    releaseDir (joinPath base path) = joinPath base (releaseDir path) := by
  have htarget : "target".toList.head? ≠ some '/' := by decide
  have hwasm : wasmBuildTarget.toList.head? ≠ some '/' := by decide
  have hrelease : "release".toList.head? ≠ some '/' := by decide
  rw [releaseDir, releaseDir, joinPath_joinPath htarget, joinPath_joinPath hwasm,
    joinPath_joinPath hrelease]

/-! ### Building -/

/-- `BuildError`. -/
inductive BuildError
  | missingConfig
  | pathNotFound (path : String)
  | cargoFailed (path stderr : String)
  | artifactNotFound (path : String)
  | invalidProject (e : ProjectError)
  /-- The `expect` of the contract of an alias in the deploy order. -/
  | noContract (contract : String)
  | stellarCliMissing
  | stellarCliUnsupported (version : String)
  deriving DecidableEq

/-- `BuildResult`. -/
structure BuildResult where
  contract : String
  path : String
  wasmArtifact : String
  deriving DecidableEq

/-- The tool that builds a contract. -/
inductive BuildTool
  | stellarContractBuild
  | cargoBuild
  deriving DecidableEq

/-- How a failure of the tool is named. -/
def BuildTool.label : BuildTool → String
  | .stellarContractBuild => "`stellar contract build`"
  | .cargoBuild => "Build"

/-- What the outside answers to a build. -/
structure BuildTools where
  /-- The path is that of a directory. -/
  isDir : String → Bool
  /-- `requires_v28_build_system`. -/
  requiresV28BuildSystem : String → Bool
  /-- `stellar_cli_version`. -/
  stellarCliVersion : Option (ℕ × ℕ)
  /-- The tool cannot be run, or it fails with an output, or it succeeds. -/
  run : BuildTool → String → Except String (Except (List UInt8) Unit)

/-- `STELLAR_CLI_MIN_VERSION`. -/
def stellarCliMinVersion : ℕ × ℕ := (25, 2)

/-- The version is older than another. -/
def olderThan (version other : ℕ × ℕ) : Bool :=
  version.1 < other.1 ∨ version.1 = other.1 ∧ version.2 < other.2

section Build

variable (tools : BuildTools)

/-- A tool is run in the directory of a contract. -/
def runTool (tool : BuildTool) (path : String) : Except BuildError Unit :=
  match tools.run tool path with
  | .error e => .error (.cargoFailed path e)
  | .ok (.error stderr) => .error (.cargoFailed path
      (tool.label ++ " for target " ++ wasmBuildTarget ++
        " failed. If this target is not installed, run " ++
        "`rustup target add " ++ wasmBuildTarget ++ "`.\n" ++
          String.ofList (Utf8Lossy.decode stderr)))
  | .ok (.ok ()) => .ok ()

/-- The part of the loop of `build_workspace` in which the contract is built. -/
def compile (path : String) : Except BuildError Unit :=
  if tools.requiresV28BuildSystem path then
    match tools.stellarCliVersion with
    | none => .error .stellarCliMissing
    | some version =>
      if olderThan version stellarCliMinVersion then
        .error (.stellarCliUnsupported (toString version.1 ++ "." ++ toString version.2))
      else runTool tools .stellarContractBuild path
  else runTool tools .cargoBuild path

variable (files : ReleaseFiles) (listing : String → Rearrangement String) (config : DevKitConfig)

/-- The body of the loop of `build_workspace`. -/
def buildContract (contract : String) : Except BuildError BuildResult :=
  match config.contracts.get? contract with
  | none => .error (.noContract contract)
  | some cfg =>
    if tools.isDir cfg.path = false then .error (.pathNotFound cfg.path)
    else
      match compile tools cfg.path with
      | .error e => .error e
      | .ok () =>
        match findWasm files (listing contract) (releaseDir cfg.path) with
        | none => .error (.artifactNotFound (releaseDir cfg.path))
        | some wasmArtifact => .ok { contract, path := cfg.path, wasmArtifact }

end Build

/-- The iteration orders of one command. -/
structure Enumeration where
  graphOrder : Rearrangement (String × List String)
  scan : Rearrangement String
  /-- The order in which the release directory is listed for a contract. -/
  listing : String → Rearrangement String

/-- What a command finds that makes a lock in the current directory. -/
def Enumeration.toBuildEnv (orders : Enumeration) (files : ReleaseFiles)
    (sha256 : List UInt8 → Vector UInt8 32) (lockFault : Option String) : BuildEnv where
  graphOrder := orders.graphOrder
  scan := orders.scan
  findArtifact contract path := findArtifact files (orders.listing contract) "." path
  read := files.read
  sha256 := sha256
  lockFault := lockFault

/-- The loop of `build_workspace`. -/
def buildContracts (tools : BuildTools) (files : ReleaseFiles) (orders : Enumeration)
    (config : DevKitConfig) : Except BuildError (List BuildResult) :=
  if config.contracts.entries.isEmpty then .error .missingConfig
  else do
    let ordered ← (resolveDeployOrder orders.graphOrder orders.scan config).mapError .invalidProject
    ordered.mapM (buildContract tools files orders.listing config)

/-- `build_workspace`, with the workspace as it is afterwards. The lock is made with iteration
orders of its own. -/
def buildWorkspace (tools : BuildTools) (files : ReleaseFiles) (orders : Enumeration)
    (lockEnv : BuildEnv) (config : DevKitConfig) (w : Workspace) :
    Except BuildError (List BuildResult) × Workspace :=
  match buildContracts tools files orders config with
  | .error e => (.error e, w)
  | .ok results => (.ok results, (buildLock lockEnv "." config w).2)

end SorobanDevkit.Core
