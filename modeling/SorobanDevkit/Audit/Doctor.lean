import SorobanDevkit.Audit.SignedInstall
import SorobanDevkit.Audit.FunctionCollection
import SorobanDevkit.Audit.Plugins
import SorobanDevkit.Library.Stages

/-!
# The plugin doctor

The doctor makes six checks of a bundle, of a directory or of an installed plugin, and stops at the
first one that fails (`sdkt-audit/src/plugin_doctor.rs`). A bundle is verified in a directory that
is removed afterwards.

What a build loads and what the artifacts of plugins answer is arbitrary.
-/

namespace SorobanDevkit.Audit

open Except Strings Utf8Lossy
open Effect (lift)

/-! ### Reports -/

/-- `DoctorStageStatus`. -/
abbrev DoctorStageStatus := StageStatus

/-- `DoctorStage`. -/
abbrev DoctorStage := Stage String String

/-- `DoctorReport`. -/
structure DoctorReport where
  target : String
  healthy : Bool
  stages : List DoctorStage
  deriving DecidableEq

namespace DoctorReport

/-- `DoctorReport::new`. -/
def new (target : String) : DoctorReport := ⟨target, true, []⟩

/-- `add_stage`. -/
def addStage (report : DoctorReport) (stage : DoctorStage) : DoctorReport where
  target := report.target
  healthy := if stage.status = .failed then false else report.healthy
  stages := report.stages ++ [stage]

/-- `failed_stage`. -/
def failedStage (report : DoctorReport) : Option DoctorStage :=
  report.stages.find? fun s => decide (s.status = .failed)

/-- `exit_code`. -/
def exitCode (report : DoctorReport) : ℕ :=
  if report.healthy then 0
  else
    match report.stages.findIdx? fun s => decide (s.status = .failed) with
    | some idx => idx + 1
    | none => 1

/-- The report of stages that are added one after the other. -/
def ofStages (target : String) (stages : List DoctorStage) : DoctorReport :=
  stages.foldl addStage (new target)

end DoctorReport

/-- The names of the stages. -/
def stageNames : List String :=
  ["metadata", "artifact", "integrity", "compatibility", "load", "self-check"]

/-- The texts of the errors of the store. -/
def StoreError.text : StoreError → String
  | io message => "io error: " ++ message
  | toml message => "failed to parse plugin.toml: " ++ message
  | invalidMetadata message => "invalid plugin metadata: " ++ message
  | abiMismatch pluginMajor hostMajor =>
    "plugin ABI mismatch (plugin v" ++ toString pluginMajor ++ ".x, host v" ++ toString hostMajor ++
      ".x)"
  | kindExtMismatch kind actual =>
    "artifact extension '" ++ actual ++ "' does not match plugin kind '" ++ kind ++ "'"
  | notInstalled id => "plugin '" ++ id ++ "' is not installed"
  | alreadyInstalled id => "plugin '" ++ id ++ "' already installed (use --force to overwrite)"
  | dryRunLoad message => "dry-run load of plugin failed: " ++ message
  | remoteUnsupported => "remote sources are not supported in M40 (local paths only)"
  | invalidBundle message => "invalid plugin bundle: " ++ message
  | invalidSignature => "plugin bundle signature verification failed"

/-! ### Loading -/

/-- A plugin that was loaded, and whether its check panics. -/
structure LoadedRule where
  rule : Plugin
  panics : Bool

/-- What is loaded of an artifact: the ABI version that it exports, if it can be asked, and the
plugin, which is given the source of a contract. -/
structure Loader (version : Type) where
  abiVersion : Except String (List UInt8) → Option version
  load : Except String (List UInt8) → String → Except String LoadedRule

/-- The loaders of a build, which are there with the features `plugins` and `wasm-plugins`. -/
structure Build where
  native : Option (Loader UInt32)
  wasm : Option (Loader Int64)

/-- `SDKT_AUDIT_WASM_ABI_MAJOR`. -/
def auditWasmAbiMajor : UInt32 := 1

/-- `abi_major`. -/
def abiMajor (v : UInt32) : UInt32 := v >>> 16

/-- The major ABI version of a WASM plugin. -/
def wasmAbiMajor (v : Int64) : UInt32 := UInt32.ofNat v.toInt.natAbs

/-- The major ABI version of the host for plugins of a kind. -/
def hostMajor (kind : String) : UInt32 :=
  if kind = "native" then auditAbiMajor else if kind = "wasm" then auditWasmAbiMajor
  else auditAbiMajor

/-- The major ABI version that an artifact exports. -/
def exportedMajor (build : Build) (kind : String) (artifact : Except String (List UInt8)) :
    Option UInt32 :=
  if kind = "native" then build.native.bind fun loader => (loader.abiVersion artifact).map abiMajor
  else if kind = "wasm" then
    build.wasm.bind fun loader => (loader.abiVersion artifact).map wasmAbiMajor
  else none

/-- `DOCTOR_SAMPLE_CONTRACT`. -/
def doctorSampleContract : String := "pub fn sdkt_example_trigger_admin() \x7b\x7d\n"

/-- The sample contract as it is parsed. -/
def doctorSampleFile : List Node :=
  [.function ⟨"sdkt_example_trigger_admin", [], .default⟩ [] (.other [])]

/-! ### Stages -/

section

variable (build : Build) (json : SerdeJson)

/-- What is found about the ABI of a plugin. -/
def checkCompatibility (m : PluginMeta) (artifact : Except String (List UInt8)) :
    Except String (String × Unit) :=
  let mismatch (major : UInt32) := (StoreError.abiMismatch major (hostMajor m.kind)).text
  if m.abiMajor ≠ hostMajor m.kind then .error (mismatch m.abiMajor)
  else
    match (exportedMajor build m.kind artifact).filter fun major => major ≠ hostMajor m.kind with
    | some major => .error (mismatch major)
    | none => .ok ("ABI compatible (host v" ++ toString (hostMajor m.kind) ++ ".x, plugin v" ++
        toString m.abiMajor ++ ".x)", ())

/-- What is found when a plugin is loaded by a loader, if the build has it. -/
def loadWith {version : Type} (feature : String) (loader : Option (Loader version))
    (artifact : Except String (List UInt8)) : Except String (String × LoadedRule) :=
  match loader with
  | none => .error ("loader unavailable (build compiled without `" ++ feature ++ "` feature)")
  | some loader => (loader.load artifact doctorSampleContract).map fun loaded =>
    ("plugin loaded successfully (id: '" ++ loaded.rule.id ++ "')", loaded)

/-- What is found when a plugin is loaded. -/
def checkLoad (m : PluginMeta) (artifact : Except String (List UInt8)) :
    Except String (String × LoadedRule) :=
  if m.kind = "native" then loadWith "plugins" build.native artifact
  else if m.kind = "wasm" then loadWith "wasm-plugins" build.wasm artifact
  else .error ("unsupported plugin kind '" ++ m.kind ++ "'")

/-- `run_self_check`: what is found when a plugin checks the sample contract. -/
def runSelfCheck (loaded : LoadedRule) : Except String (String × Unit) :=
  if loaded.panics then .error "plugin panicked during execution"
  else
    let report := (BoxedRule.plugin loaded.rule).check json (scanAllFunctions doctorSampleFile)
      ⟨none⟩ .default
    match report.findings.find? fun f =>
        contains "wasm plugin trap" f.message || contains "mutex poisoned" f.message with
    | some f => .error ("self-check caught error: " ++ f.message)
    | none => .ok ("self-check completed (" ++ toString report.findings.length ++
        " finding(s) emitted)", ())

/-- `run_compatibility_load_and_check`. -/
def runCompatibilityLoadAndCheck (m : PluginMeta) (artifact : Except String (List UInt8)) :
    Staged String String FileTree :=
  .check "compatibility" (lift (checkCompatibility build m artifact)) fun _ =>
    .check "load" (lift (checkLoad build m artifact)) fun loaded =>
      .check "self-check" (lift (runSelfCheck json loaded)) fun _ => .done

variable {Key Signature : Type} [DecidableEq Key] (toml : TomlCrate) (refuses : Refusals)
  (root : List String) (sha256 : List UInt8 → Vector UInt8 32) (ed25519 : Ed25519 Key Signature)

/-- What is found in the text of a `plugin.toml`. -/
def checkMetadata (text : String) : Except String (String × PluginMeta) := do
  let m ← (toml.parse text).mapError ("failed to parse plugin.toml: " ++ ·)
  m.validateBasic.mapError fun e => "invalid plugin metadata: " ++ e.text
  return ("valid plugin metadata for '" ++ m.id ++ "' (v" ++ m.version ++ ", " ++ m.kind ++ ")", m)

/-! ### Bundles -/

/-- Adds an entry of an archive, if it is a file, over one with the same path. -/
def readItem (entries : BundleEntries) (item : Except String ArchiveEntry) :
    Except String BundleEntries := do
  let entry ← item
  if entry.isFile then do
    let path ← entry.path
    let bytes ← entry.bytes
    return entries.insert path bytes
  else return entries

/-- The files of an archive, as the doctor reads them. -/
def readItems (archive : Archive) : Except String BundleEntries := do
  let items ← archive
  items.foldlM readItem ∅

/-- What is found in the archive of a bundle: the archive, its files and its metadata. -/
def checkBundleMetadata (opened : Except String Archive) :
    Except String (String × Archive × BundleEntries × PluginMeta) := do
  let archive ← opened.mapError ("failed to open bundle: " ++ ·)
  let entries ← (readItems archive).mapError ("invalid bundle archive: " ++ ·)
  let rawMeta ← present "missing plugin.toml in bundle" entries["plugin.toml"]?
  let text ← present "plugin.toml is not valid UTF-8" (fromUtf8 rawMeta)
  let (detail, m) ← checkMetadata toml text
  return (detail, archive, entries, m)

/-- What is found about the artifact of a bundle. -/
def checkBundleArtifact (entries : BundleEntries) (m : PluginMeta) :
    Except String (String × Unit) := do
  ensure (m.artifact ∈ entries)
    ("artifact '" ++ m.artifact ++ "' declared in plugin.toml not found in bundle")
  (validateKindExt m (pathExtension m.artifact)).mapError StoreError.text
  return ("artifact '" ++ m.artifact ++ "' present and matches kind '" ++ m.kind ++ "'", ())

/-- What is found when a bundle is verified. -/
def checkBundleIntegrity (archive : Archive) (staging : List String) :
    Effect FileTree String (String × Unit) :=
  Effect.mapError StoreError.text do
    let v ← verifyBundle toml refuses sha256 ed25519 archive staging none
    return (if v.signed then "bundle integrity verified (signed)"
      else "bundle integrity verified (unsigned)", ())

/-- `run_bundle_doctor`. The bundle is verified in a directory that is removed at the end. -/
def runBundleDoctor (opened : Except String Archive) (staging : List String) :
    Staged String String FileTree :=
  .check "metadata" (lift (checkBundleMetadata toml opened)) fun (archive, entries, m) =>
    .check "artifact" (lift (checkBundleArtifact entries m)) fun _ =>
      .andThen
        (.check "integrity" (checkBundleIntegrity toml refuses sha256 ed25519 archive staging)
          fun _ tree => runCompatibilityLoadAndCheck build json m
            (readNamed refuses tree staging m.artifact) tree)
        fun tree => (Disk.removeAll refuses staging tree).2

/-! ### Directories -/

/-- The text of a path. -/
def displayPath (path : List String) : String := "/" ++ "/".intercalate path

/-- What is found in the `plugin.toml` of a directory. -/
def checkDirectoryMetadata (tree : FileTree) (dir : List String) :
    Except String (String × PluginMeta) := do
  let missing (e : String) :=
    "plugin.toml not found at '" ++ displayPath (dir ++ ["plugin.toml"]) ++ "': " ++ e
  let raw ← (Disk.read refuses tree (dir ++ ["plugin.toml"])).mapError missing
  let text ← present (missing "stream did not contain valid UTF-8") (fromUtf8 raw)
  checkMetadata toml text

/-- What is found about the artifact of a directory. -/
def checkDirectoryArtifact (tree : FileTree) (dir : List String) (m : PluginMeta) :
    Except String (String × Unit) := do
  let path := displayPath dir ++ "/" ++ m.artifact
  ensure (existsNamed refuses tree dir m.artifact = true) ("artifact not found at '" ++ path ++ "'")
  (validateKindExt m (pathExtension m.artifact)).mapError StoreError.text
  return ("artifact found at '" ++ path ++ "'", ())

/-- What is found about the manifest of a directory, if it has one. -/
def checkDirectoryIntegrity (tree : FileTree) (dir : List String) (m : PluginMeta) :
    Except String (String × Unit) :=
  if Disk.isThere refuses tree (dir ++ ["manifest.sha256"]) then do
    let signed ← verifyDirManifest refuses sha256 ed25519 tree dir m.artifact
    return (if signed then "manifest verified (signed)" else "manifest verified (unsigned)", ())
  else .ok ("directory target (unbundled)", ())

/-- `run_directory_doctor`. -/
def runDirectoryDoctor (dir : List String) : Staged String String FileTree := fun tree =>
  Staged.check "metadata" (lift (checkDirectoryMetadata toml refuses tree dir)) (fun m =>
    .check "artifact" (lift (checkDirectoryArtifact refuses tree dir m)) fun _ =>
      .check "integrity" (lift (checkDirectoryIntegrity refuses sha256 ed25519 tree dir m)) fun _ =>
        runCompatibilityLoadAndCheck build json m (readNamed refuses tree dir m.artifact)) tree

/-! ### Targets -/

/-- What the path of a target leads to. -/
inductive DoctorTarget
  | file (opened : Except String Archive)
  | dir (path : List String)
  | other

/-- The stages for what is not found. -/
def notFound (detail : String) : Staged String String FileTree :=
  .check "metadata" (lift (.error detail : Except String (String × Empty))) Empty.elim

/-- The stages of `doctor_installed_with_root`. -/
def installedStages (id : String) : Staged String String FileTree := fun tree =>
  if Disk.isThere refuses tree (pluginDir root id) then
    runDirectoryDoctor build json toml refuses sha256 ed25519 (pluginDir root id) tree
  else notFound ("plugin '" ++ id ++ "' not found in store (" ++ displayPath root ++ ")") tree

/-- The stages of `doctor_with_root`. -/
def doctorStages (led : DoctorTarget) (target : String) (staging : List String) :
    Staged String String FileTree := fun tree =>
  match led with
  | .file opened => runBundleDoctor build json toml refuses sha256 ed25519 opened staging tree
  | .dir path => runDirectoryDoctor build json toml refuses sha256 ed25519 path tree
  | .other =>
    if Disk.isThere refuses tree (pluginDir root target) then
      runDirectoryDoctor build json toml refuses sha256 ed25519 (pluginDir root target) tree
    else notFound ("target '" ++ target ++
      "' not found: not a valid file/directory and not installed in store (" ++ displayPath root ++
        ")") tree

/-- `doctor_with_root`, for a target whose path leads somewhere, with the tree that it leaves. -/
def doctorWithRoot (led : DoctorTarget) (target : String) (staging : List String)
    (tree : FileTree) : DoctorReport × FileTree :=
  let (stages, tree') :=
    doctorStages build json toml refuses root sha256 ed25519 led target staging tree
  (.ofStages target stages, tree')

/-- `doctor_installed_with_root`. -/
def doctorInstalledWithRoot (id : String) (tree : FileTree) : DoctorReport :=
  .ofStages id (installedStages build json toml refuses root sha256 ed25519 id tree).1

end

/-! ### What a report says -/

namespace DoctorReport

theorem foldl_addStage (stages : List DoctorStage) (report : DoctorReport) :
    stages.foldl addStage report =
      { target := report.target
        healthy := report.healthy && stages.all fun s => decide (s.status = .passed)
        stages := report.stages ++ stages } := by
  induction stages generalizing report with
  | nil => simp
  | cons s stages ih =>
    rw [List.foldl_cons, ih, addStage, List.all_cons]
    cases s.status with
    | passed => simp
    | failed => simp

theorem ofStages_eq (target : String) (stages : List DoctorStage) :
    ofStages target stages =
      ⟨target, stages.all fun s => decide (s.status = .passed), stages⟩ := by
  rw [ofStages, foldl_addStage, new, Bool.true_and, List.nil_append]

/-- What a report of the doctor says: of the first stages, all before the last one passed; it is
healthy if all six stages passed, and else the last one failed, whose number is the exit code. -/
structure Diagnosis (report : DoctorReport) : Prop where
  names : report.stages.map Stage.name <+: stageNames
  nonempty : report.stages ≠ []
  earlier : ∀ s ∈ report.stages.dropLast, s.status = .passed
  healthy_iff : report.healthy = true ↔ report.stages.map Stage.name = stageNames ∧
    ∀ s ∈ report.stages.getLast?, s.status = .passed
  failedStage : report.failedStage = if report.healthy then none else report.stages.getLast?
  exitCode : report.exitCode = if report.healthy then 0 else report.stages.length

/-- Stages that follow the names of the stages make a diagnosis. -/
theorem Diagnosis.of_follows {stages : List DoctorStage} (h : Follows stageNames stages)
    (target : String) : Diagnosis (ofStages target stages) := by
  have hne : stages ≠ [] := h.ne_nil (List.cons_ne_nil _ _)
  have hall : (stages.all fun s => decide (s.status = .passed)) = true ↔
      ∀ s ∈ stages, s.status = .passed := by simp
  rw [ofStages_eq]
  refine ⟨h.prefix_names, hne, h.passed_of_mem_dropLast, hall.trans h.all_passed_iff, ?_, ?_⟩
  · rw [DoctorReport.failedStage, h.find?_failed]
    exact if_congr hall.symm rfl rfl
  · have hpos := List.length_pos_iff.mpr hne
    rw [DoctorReport.exitCode]
    dsimp only
    by_cases hhealthy : ∀ s ∈ stages, s.status = .passed
    · rw [if_pos (hall.mpr hhealthy), if_pos (hall.mpr hhealthy)]
    · rw [if_neg (mt hall.mp hhealthy), if_neg (mt hall.mp hhealthy), h.findIdx?_failed,
        if_neg hhealthy]
      dsimp only
      omega

end DoctorReport

/-! ### What the doctor does -/

section

variable {build : Build} {json : SerdeJson} {Key Signature : Type} {toml : TomlCrate}
  {refuses : Refusals} {root : List String} {sha256 : List UInt8 → Vector UInt8 32}
  {ed25519 : Ed25519 Key Signature}

theorem within_runCompatibilityLoadAndCheck (m : PluginMeta)
    (artifact : Except String (List UInt8)) :
    Staged.Within ["compatibility", "load", "self-check"]
      (runCompatibilityLoadAndCheck build json m artifact) :=
  .check fun _ => .check fun _ => .check fun _ => Staged.within_done

theorem within_runDirectoryDoctor (dir : List String) :
    Staged.Within stageNames (runDirectoryDoctor build json toml refuses sha256 ed25519 dir) :=
  fun tree => Staged.Within.check (fun _ => .check fun _ => .check fun _ =>
    within_runCompatibilityLoadAndCheck _ _) tree

theorem within_notFound (detail : String) : Staged.Within stageNames (notFound detail) :=
  .check Empty.rec

theorem within_installedStages (id : String) : Staged.Within stageNames
    (installedStages build json toml refuses root sha256 ed25519 id) := by
  intro tree
  rw [installedStages]
  split
  · exact within_runDirectoryDoctor _ tree
  · exact within_notFound _ tree

theorem runCompatibilityLoadAndCheck_snd (m : PluginMeta)
    (artifact : Except String (List UInt8)) (tree : FileTree) :
    (runCompatibilityLoadAndCheck build json m artifact tree).2 = tree :=
  Staged.check_snd (fun _ => Staged.check_snd fun _ => Staged.check_snd fun _ _ => rfl) tree

/-- The doctor leaves a directory as it is. -/
theorem runDirectoryDoctor_snd (dir : List String) (tree : FileTree) :
    (runDirectoryDoctor build json toml refuses sha256 ed25519 dir tree).2 = tree := by
  have hstages : (Staged.check "metadata"
      (lift (checkDirectoryMetadata toml refuses tree dir)) (fun m =>
        .check "artifact" (lift (checkDirectoryArtifact refuses tree dir m)) fun _ =>
          .check "integrity" (lift (checkDirectoryIntegrity refuses sha256 ed25519 tree dir m))
            fun _ => runCompatibilityLoadAndCheck build json m
              (readNamed refuses tree dir m.artifact)) tree).2 = tree :=
    Staged.check_snd (fun _ => Staged.check_snd fun _ => Staged.check_snd fun _ =>
      runCompatibilityLoadAndCheck_snd _ _) tree
  exact hstages

variable [DecidableEq Key]

theorem within_runBundleDoctor (opened : Except String Archive) (staging : List String) :
    Staged.Within stageNames
      (runBundleDoctor build json toml refuses sha256 ed25519 opened staging) :=
  .check fun _ => .check fun _ => .andThen (.check fun _ _ =>
    within_runCompatibilityLoadAndCheck _ _ _) _

theorem within_doctorStages (led : DoctorTarget) (target : String) (staging : List String) :
    Staged.Within stageNames
      (doctorStages build json toml refuses root sha256 ed25519 led target staging) := by
  intro tree
  cases led with
  | file opened => exact within_runBundleDoctor opened staging tree
  | dir path => exact within_runDirectoryDoctor path tree
  | other =>
    simp only [doctorStages]
    split
    · exact within_runDirectoryDoctor _ tree
    · exact within_notFound _ tree

/-! ### What it does to the disk -/

/-- What is checked of the integrity of a bundle does to the disk what verifying it does. -/
theorem checkBundleIntegrity_snd (archive : Archive) (staging : List String) (tree : FileTree) :
    (checkBundleIntegrity toml refuses sha256 ed25519 archive staging tree).2 =
      (verifyBundle toml refuses sha256 ed25519 archive staging none tree).2 := by
  rw [checkBundleIntegrity, Effect.mapError]
  exact congrArg Prod.snd (Effect.bind_pure_apply _ _ tree)

/-- A bundle is not verified, or the directory in which it is verified is removed again. -/
theorem runBundleDoctor_snd (opened : Except String Archive) (staging : List String)
    (tree : FileTree) :
    (runBundleDoctor build json toml refuses sha256 ed25519 opened staging tree).2 = tree ∨
    ∃ archive, (runBundleDoctor build json toml refuses sha256 ed25519 opened staging tree).2 =
      (Disk.removeAll refuses staging
        (verifyBundle toml refuses sha256 ed25519 archive staging none tree).2).2 := by
  rw [runBundleDoctor]
  obtain ⟨_, hstages⟩ | ⟨_, ⟨archive, entries, m⟩, -, hstages⟩ := Staged.check_lift_cases "metadata"
    (checkBundleMetadata toml opened) _ tree
  · exact .inl (congrArg Prod.snd hstages)
  · rw [hstages]
    dsimp only
    obtain ⟨_, hstages⟩ | ⟨_, _, -, hstages⟩ := Staged.check_lift_cases "artifact"
      (checkBundleArtifact entries m) _ tree
    · exact .inl (congrArg Prod.snd hstages)
    · refine .inr ⟨archive, ?_⟩
      rw [hstages, ← checkBundleIntegrity_snd]
      exact congrArg (fun tree => (Disk.removeAll refuses staging tree).2)
        (Staged.check_snd (fun _ _ => runCompatibilityLoadAndCheck_snd _ _ _) tree)

/-- What is not below a directory stays when it is removed. -/
theorem sameOutside_removeAll (staging : List String) (tree : FileTree) :
    SameOutside staging tree (Disk.removeAll refuses staging tree).2 := fun path hpath =>
  .inl ((get?_removeAll_cases refuses staging tree path).resolve_right fun hgone =>
    hpath hgone.1)

variable (build json toml refuses root sha256 ed25519) in
/-- The doctor leaves the disk as it is, or removes the directory in which a bundle was verified. -/
theorem doctorStages_snd (led : DoctorTarget) (target : String) (staging : List String)
    (tree : FileTree) :
    (doctorStages build json toml refuses root sha256 ed25519 led target staging tree).2 = tree ∨
    ∃ archive,
      (doctorStages build json toml refuses root sha256 ed25519 led target staging tree).2 =
        (Disk.removeAll refuses staging
          (verifyBundle toml refuses sha256 ed25519 archive staging none tree).2).2 := by
  cases led with
  | file opened => exact runBundleDoctor_snd opened staging tree
  | dir path => exact .inl (runDirectoryDoctor_snd path tree)
  | other =>
    left
    simp only [doctorStages]
    split
    · exact runDirectoryDoctor_snd _ tree
    · rfl

theorem removeAll_of_dir {path : List String} {tree : FileTree}
    (hdisk : refuses .remove path = none) (hdir : tree.get? path = some .dir) :
    (Disk.removeAll refuses path tree).2 = tree.removeAll path := by
  have hok : Disk.removeAll refuses path tree = (.ok (), tree.removeAll path) :=
    Disk.removeAll_eq_ok_iff.mpr ⟨hdisk, hdir, rfl⟩
  rw [hok]

/-- The directory in which a bundle was verified is not there after it is removed. -/
theorem get?_removeAll_verifyBundle (hdisk : ∀ access path, refuses access path = none)
    {staging : List String} {tree : FileTree} (hfresh : Fresh tree staging) (archive : Archive) :
    (Disk.removeAll refuses staging
      (verifyBundle toml refuses sha256 ed25519 archive staging none tree).2).2.get? staging =
        none := by
  cases hcheck : checkBundle toml sha256 ed25519 archive none with
  | error e =>
    rw [verifyBundle_of_checkBundle hcheck]
    rcases get?_removeAll_cases refuses staging tree staging with heq | hgone
    · rw [heq, hfresh.absent]
    · exact hgone.2
  | ok checked =>
    have hdir := get?_verifyBundle hdisk hfresh hcheck
    have hne : staging ≠ [] := by
      rintro rfl
      exact absurd hfresh.absent (by rw [FileTree.get?_nil]; exact Option.some_ne_none _)
    rw [removeAll_of_dir (hdisk _ _) hdir, FileTree.get?_removeAll hne, if_pos List.prefix_rfl]

variable (build json toml refuses root sha256 ed25519) in
/-- **What the doctor says and does.** A report has the first of the six stages, of which all before
the last one passed. It is healthy if all six passed; otherwise the last one failed, and its number
is the exit code. The disk is left as it is outside the directory in which a bundle is verified,
except that the directories above it may be made, and that directory is removed. -/
theorem doctor_diagnosis (led : DoctorTarget) (target : String) (staging : List String)
    (tree : FileTree) :
    (doctorWithRoot build json toml refuses root sha256 ed25519 led target staging
      tree).1.Diagnosis ∧
    (doctorInstalledWithRoot build json toml refuses root sha256 ed25519 target tree).Diagnosis ∧
    SameOutside staging tree
      (doctorWithRoot build json toml refuses root sha256 ed25519 led target staging tree).2 ∧
    ((∀ access path, refuses access path = none) → Fresh tree staging →
      (doctorWithRoot build json toml refuses root sha256 ed25519 led target staging
        tree).2.get? staging = none) := by
  have hstages : Follows stageNames
      (doctorStages build json toml refuses root sha256 ed25519 led target staging tree).1 :=
    within_doctorStages led target staging tree
  have hinstalled : Follows stageNames
      (installedStages build json toml refuses root sha256 ed25519 target tree).1 :=
    within_installedStages target tree
  refine ⟨.of_follows hstages target, .of_follows hinstalled target, ?_⟩
  show SameOutside staging tree
      (doctorStages build json toml refuses root sha256 ed25519 led target staging tree).2 ∧
    (_ → _ → (doctorStages build json toml refuses root sha256 ed25519 led target staging
      tree).2.get? staging = none)
  obtain heq | ⟨archive, heq⟩ := doctorStages_snd build json toml refuses root sha256 ed25519 led
    target staging tree
  · rw [heq]
    exact ⟨SameOutside.refl tree, fun _ hfresh => hfresh.absent⟩
  · rw [heq]
    exact ⟨SameOutside.trans _ _ _ (keeps_verifyBundle archive staging none tree)
      (sameOutside_removeAll staging _), fun hdisk hfresh =>
        get?_removeAll_verifyBundle hdisk hfresh archive⟩

end

end SorobanDevkit.Audit
