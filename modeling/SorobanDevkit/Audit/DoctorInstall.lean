import SorobanDevkit.Audit.Doctor

/-!
# The doctor and the installation of a bundle

The doctor is asked about a bundle before it is installed, and about the plugin afterwards
(`sdkt-audit/src/plugin_doctor.rs`, `plugin_store.rs`). It reads the bundle on its own, verifies it
as an installation does, and later finds in the store what was copied there.

## Main results

* `exists_verifyBundle_iff` — which bundles are verified in a new directory.
* `runBundleDoctor_eq`, `runDirectoryDoctor_eq` — the stages past the third one.
* `doctor_predicts_install` — a bundle past the third stage is what is installed, and the plugin is
  diagnosed as the bundle was.
-/

namespace SorobanDevkit.Audit

open Except Strings Utf8Lossy
open Effect (lift ask)

/-! ### What the doctor reads of a bundle -/

theorem foldlM_readItem {items : List (Except String ArchiveEntry)}
    {files : List (String × List UInt8)} (h : List.Forall₂ IsFile items files)
    (entries : BundleEntries) :
    items.foldlM readItem entries =
      .ok (files.foldl (fun m file => m.insert file.1 file.2) entries) := by
  induction h generalizing entries with
  | nil => rfl
  | @cons item file items files hfile _ ih =>
    obtain ⟨entry, rfl, hisFile, hpath, -, hbytes⟩ := hfile
    have hitem : readItem entries (.ok entry) = .ok (entries.insert file.1 file.2) := by
      rw [readItem]
      simp only [bind_eq_ok_iff]
      refine ⟨entry, rfl, ?_⟩
      rw [if_pos hisFile]
      simp only [bind_eq_ok_iff]
      exact ⟨file.1, hpath, file.2, hbytes, rfl⟩
    rw [List.foldlM_cons, hitem]
    exact ih _

/-- Of a bundle without other entries and without two of one path, the doctor reads what is read
when it is verified. -/
theorem readItems_of_readEntries {archive : Archive} {entries : BundleEntries}
    (h : readEntries archive = .ok entries) : readItems archive = .ok entries := by
  obtain ⟨items, files, rfl, hfiles, hnodup, hholds⟩ := readEntries_eq_ok_iff.mp h
  have hempty : ∀ file ∈ files, file.1 ∉ (∅ : BundleEntries) :=
    fun _ _ => Std.ExtTreeMap.not_mem_empty
  have hread : readItems (.ok items) = items.foldlM readItem ∅ := rfl
  rw [hread, foldlM_readItem hfiles, Except.ok.injEq]
  refine Std.ExtTreeMap.ext_getElem? fun k => ?_
  ext bytes
  exact (UniqueKeys.holds_foldl UniqueKeys.holds_empty hnodup hempty k bytes).trans
    (hholds k bytes).symm

theorem checkMetadata_eq_ok_iff {toml : TomlCrate} {text detail : String} {m : PluginMeta} :
    checkMetadata toml text = .ok (detail, m) ↔ toml.parse text = .ok m ∧ m.Basic ∧
      detail = "valid plugin metadata for '" ++ m.id ++ "' (v" ++ m.version ++ ", " ++ m.kind ++
        ")" := by
  simp only [checkMetadata, bind_eq_ok_iff, mapError_eq_ok_iff, PluginMeta.validateBasic_eq_ok_iff]
  constructor
  · rintro ⟨m', hparse, -, hbasic, heq⟩
    cases heq
    exact ⟨hparse, hbasic, rfl⟩
  · rintro ⟨hparse, hbasic, rfl⟩
    exact ⟨m, hparse, (), hbasic, rfl⟩

section

variable {Key Signature : Type} [DecidableEq Key] {toml : TomlCrate} {refuses : Refusals}
  {root : List String} {sha256 : List UInt8 → Vector UInt8 32} {ed25519 : Ed25519 Key Signature}
  {load : String → Except String (List UInt8) → Except String Unit} {archive : Archive}
  {entries : BundleEntries} {m : PluginMeta} {before : FileTree} {staging : List String}

theorem checkBundleMetadata_eq_ok_iff {archive' : Archive} {detail : String} :
    checkBundleMetadata toml (.ok archive) = .ok (detail, archive', entries, m) ↔
      archive' = archive ∧ readItems archive = .ok entries ∧ ∃ text,
        entries["plugin.toml"]? = some (encode text) ∧
          checkMetadata toml text = .ok (detail, m) := by
  simp only [checkBundleMetadata, bind_eq_ok_iff, mapError_eq_ok_iff, present_eq_ok_iff,
    fromUtf8_eq_some_iff]
  constructor
  · rintro ⟨_, harchive, _, hentries, _, hraw, text, rfl, _, hmeta, heq⟩
    cases harchive
    cases heq
    exact ⟨rfl, hentries, text, hraw, hmeta⟩
  · rintro ⟨rfl, hentries, text, hraw, hmeta⟩
    exact ⟨_, rfl, entries, hentries, _, hraw, text, rfl, _, hmeta, rfl⟩

/-- The doctor reads the metadata of a bundle that passes the checks. -/
theorem checkBundleMetadata_of_checkBundle {required : Option Key} {v : BundleVerification}
    (h : checkBundle toml sha256 ed25519 archive required = .ok (v, entries)) :
    ∃ detail, checkBundleMetadata toml (.ok archive) =
      .ok (detail, archive, entries, v.metadata) := by
  obtain ⟨items, files, rfl, hitems, hfiles, haccepted⟩ := checkBundle_eq_ok_iff.mp h
  obtain ⟨raw, hraw, hparse⟩ := haccepted.metadata
  obtain ⟨hparse, hbasic, -⟩ := parseMeta_eq_ok_iff.mp hparse
  exact ⟨_, checkBundleMetadata_eq_ok_iff.mpr ⟨rfl, readItems_of_readEntries
    (readEntries_eq_ok_iff.mpr ⟨items, files, rfl, hitems, haccepted.nodup, hfiles⟩), raw,
    (hfiles _ _).mpr hraw, checkMetadata_eq_ok_iff.mpr ⟨hparse, hbasic, rfl⟩⟩⟩

/-- The artifact of a bundle that passes the checks is among its files. -/
theorem exists_artifact_of_checkBundle {required : Option Key} {v : BundleVerification}
    (h : checkBundle toml sha256 ed25519 archive required = .ok (v, entries)) :
    ∃ bytes, entries[v.metadata.artifact]? = some bytes := by
  obtain ⟨items, files, -, -, hfiles, haccepted⟩ := checkBundle_eq_ok_iff.mp h
  obtain ⟨text, rows, -, -, hlists, -⟩ := haccepted.manifest
  obtain ⟨row, hrow, hpath⟩ := List.mem_map.mp hlists.artifact
  obtain ⟨bytes, hbytes, -⟩ := hlists.digest row hrow
  exact ⟨bytes, (hfiles _ _).mpr (hpath ▸ hbytes)⟩

/-- **Which bundles are verified** in a new directory: those that pass the checks and whose files
are writable. -/
theorem exists_verifyBundle_iff (hdisk : ∀ access path, refuses access path = none)
    (hfresh : Fresh before staging) {required : Option Key} {v : BundleVerification} :
    (∃ tree, verifyBundle toml refuses sha256 ed25519 archive staging required before =
        (.ok v, tree)) ↔
      ∃ entries, checkBundle toml sha256 ed25519 archive required = .ok (v, entries) ∧
        Writable entries.toList := by
  constructor
  · rintro ⟨tree, hverify⟩
    obtain ⟨entries, hcheck, hextract⟩ := verifyBundle_eq_ok_iff.mp hverify
    obtain ⟨hextracted, hfile⟩ := extracted_of_ok (safe_of_checkBundle hcheck) hextract
    exact ⟨entries, hcheck, hextracted.prefixFree, hfile⟩
  · rintro ⟨entries, hcheck, hwritable⟩
    obtain ⟨tree, hextract⟩ := exists_extract hdisk hfresh (safe_of_checkBundle hcheck)
      hwritable.file hwritable.prefixFree
    exact ⟨tree, verifyBundle_eq_ok_iff.mpr ⟨entries, hcheck, hextract⟩⟩

/-- A file in the root of a bundle is read where the bundle was verified. -/
theorem read_of_verifyBundle (hdisk : ∀ access path, refuses access path = none)
    {required : Option Key} {v : BundleVerification} {tree : FileTree}
    (hcheck : checkBundle toml sha256 ed25519 archive required = .ok (v, entries))
    (hok : verifyBundle toml refuses sha256 ed25519 archive staging required before = (.ok v, tree))
    {name : String} (hroot : IsRoot name) {bytes : List UInt8}
    (hbytes : entries[name]? = some bytes) :
    tree.read (staging ++ [name]) = some bytes ∧
      readNamed refuses tree staging name = .ok bytes := by
  obtain ⟨entries', hcheck', hextract⟩ := verifyBundle_eq_ok_iff.mp hok
  rw [hcheck] at hcheck'
  cases hcheck'
  have hsafe := safe_of_checkBundle hcheck
  obtain ⟨hextracted, hfile⟩ := extracted_of_ok hsafe hextract
  have hread := hextracted.read_named ⟨nodup_toList entries, hsafe, hfile⟩ hroot.relative
    (Std.ExtTreeMap.mem_toList_iff_getElem?_eq_some.mpr hbytes)
  refine ⟨hread, (readNamed_eq_ok_iff hdisk).mpr ⟨hroot.file, ?_⟩⟩
  rw [hroot.relative, hread]

/-! ### The stages of a bundle -/

theorem exists_checkBundleArtifact_iff :
    (∃ detail, checkBundleArtifact entries m = .ok (detail, ())) ↔
      m.artifact ∈ entries ∧ validateKindExt m (pathExtension m.artifact) = .ok () := by
  simp only [checkBundleArtifact, bind_eq_ok_iff, mapError_eq_ok_iff, ensure_eq_ok_iff]
  constructor
  · rintro ⟨_, _, hmem, _, hkind, -⟩
    exact ⟨hmem, hkind⟩
  · rintro ⟨hmem, hkind⟩
    exact ⟨_, (), hmem, (), hkind, rfl⟩

theorem exists_checkBundleIntegrity_iff {tree : FileTree} :
    (∃ detail, checkBundleIntegrity toml refuses sha256 ed25519 archive staging before =
        (.ok (detail, ()), tree)) ↔
      ∃ v, verifyBundle toml refuses sha256 ed25519 archive staging none before =
        (.ok v, tree) := by
  simp only [checkBundleIntegrity, Effect.mapError_eq_ok_iff, Effect.bind_eq_ok_iff,
    Effect.pure_eq_ok_iff]
  constructor
  · rintro ⟨_, v, _, hverify, -, rfl⟩
    exact ⟨v, hverify⟩
  · rintro ⟨v, hverify⟩
    exact ⟨_, v, tree, hverify, rfl, rfl⟩

variable (build : Build) (json : SerdeJson)

omit [DecidableEq Key] in
/-- The last three stages do not depend on the disk. -/
theorem runCompatibilityLoadAndCheck_fst (m : PluginMeta) (artifact : Except String (List UInt8))
    (tree tree' : FileTree) : (runCompatibilityLoadAndCheck build json m artifact tree).1 =
      (runCompatibilityLoadAndCheck build json m artifact tree').1 :=
  Staged.check_lift_fst fun _ => Staged.check_lift_fst fun _ => Staged.check_lift_fst fun _ => rfl

/-- **The stages of a bundle past the third one**, if its artifact is in the root. -/
theorem runBundleDoctor_eq (hdisk : ∀ access path, refuses access path = none)
    (hfresh : Fresh before staging) {v : BundleVerification}
    (hcheck : checkBundle toml sha256 ed25519 archive none = .ok (v, entries))
    (hwritable : Writable entries.toList)
    (hkind : validateKindExt v.metadata (pathExtension v.metadata.artifact) = .ok ())
    (hroot : IsRoot v.metadata.artifact) {bytes : List UInt8}
    (hbytes : entries[v.metadata.artifact]? = some bytes) :
    ∃ d₁ d₂ d₃, (runBundleDoctor build json toml refuses sha256 ed25519 (.ok archive) staging
        before).1 =
      ⟨"metadata", .passed, d₁⟩ :: ⟨"artifact", .passed, d₂⟩ :: ⟨"integrity", .passed, d₃⟩ ::
        (runCompatibilityLoadAndCheck build json v.metadata (.ok bytes) before).1 := by
  obtain ⟨d₁, hmeta⟩ := checkBundleMetadata_of_checkBundle hcheck
  obtain ⟨tree, hverify⟩ := (exists_verifyBundle_iff hdisk hfresh).mpr ⟨entries, hcheck, hwritable⟩
  have hread := (read_of_verifyBundle hdisk hcheck hverify hroot hbytes).2
  have hmem : v.metadata.artifact ∈ entries := by
    rw [Std.ExtTreeMap.mem_iff_isSome_getElem?, hbytes]
    rfl
  obtain ⟨d₂, hd₂⟩ := exists_checkBundleArtifact_iff.mpr ⟨hmem, hkind⟩
  obtain ⟨d₃, hintegrity⟩ := exists_checkBundleIntegrity_iff.mpr ⟨v, hverify⟩
  refine ⟨d₁, d₂, d₃, ?_⟩
  rw [runBundleDoctor, hmeta, Staged.check_lift_ok]
  dsimp only
  rw [hd₂, Staged.check_lift_ok, Staged.andThen, Staged.check_of_ok hintegrity]
  dsimp only
  rw [hread, runCompatibilityLoadAndCheck_fst]

variable {build json} in
/-- A bundle past the third stage passes the checks, its files are writable, and its artifact is one
of its kind. -/
theorem exists_checkBundle_of_mem_stages (hdisk : ∀ access path, refuses access path = none)
    (hfresh : Fresh before staging) {s : DoctorStage}
    (hs : s ∈ (runBundleDoctor build json toml refuses sha256 ed25519 (.ok archive) staging
      before).1) (hname : s.name = "compatibility") :
    ∃ v entries, checkBundle toml sha256 ed25519 archive none = .ok (v, entries) ∧
      Writable entries.toList ∧
      validateKindExt v.metadata (pathExtension v.metadata.artifact) = .ok () := by
  have hnot {name detail : String} (hne : name ≠ "compatibility") :
      s ∉ [⟨name, .failed, detail⟩] := by
    rintro hmem
    rw [List.mem_singleton.mp hmem] at hname
    exact hne hname
  have hskip {name detail : String} {stages : List DoctorStage} (hne : name ≠ "compatibility")
      (hmem : s ∈ ⟨name, .passed, detail⟩ :: stages) : s ∈ stages := by
    refine (List.mem_cons.mp hmem).resolve_left fun heq => ?_
    rw [heq] at hname
    exact hne hname
  rw [runBundleDoctor] at hs
  obtain ⟨_, hstages⟩ | ⟨d₁, ⟨archive', entries, m⟩, hmeta, hstages⟩ := Staged.check_lift_cases
    "metadata" (checkBundleMetadata toml (.ok archive)) _ before
  · rw [hstages] at hs
    exact absurd hs (hnot (by decide))
  rw [hstages] at hs
  obtain ⟨rfl, -⟩ := checkBundleMetadata_eq_ok_iff.mp hmeta
  have hs := hskip (by decide) hs
  dsimp only at hs
  obtain ⟨_, hstages⟩ | ⟨d₂, _, hartifact, hstages⟩ := Staged.check_lift_cases
    "artifact" (checkBundleArtifact entries m) _ before
  · rw [hstages] at hs
    exact absurd hs (hnot (by decide))
  rw [hstages] at hs
  have hs := hskip (by decide) hs
  rw [Staged.andThen] at hs
  dsimp only at hs
  cases hintegrity : checkBundleIntegrity toml refuses sha256 ed25519 archive' staging before with
  | mk result tree =>
    cases result with
    | error detail =>
      rw [Staged.check_of_error hintegrity] at hs
      exact absurd hs (hnot (by decide))
    | ok found =>
      obtain ⟨v, hverify⟩ := exists_checkBundleIntegrity_iff.mp ⟨found.1, hintegrity⟩
      obtain ⟨entries', hcheck, hwritable⟩ :=
        (exists_verifyBundle_iff hdisk hfresh).mp ⟨tree, hverify⟩
      obtain ⟨_, hmeta'⟩ := checkBundleMetadata_of_checkBundle hcheck
      rw [hmeta] at hmeta'
      cases hmeta'
      exact ⟨v, entries, hcheck, hwritable, (exists_checkBundleArtifact_iff.mp ⟨d₂, hartifact⟩).2⟩

/-! ### The stages of an installed plugin -/

omit [DecidableEq Key] in
variable (sha256 ed25519) in
/-- **The stages of a directory without a manifest past the third one.** -/
theorem runDirectoryDoctor_eq (hdisk : ∀ access path, refuses access path = none)
    {tree : FileTree} {dir : List String} {text : String}
    (hmanifest : tree.read (dir ++ ["plugin.toml"]) = some (encode text))
    (hparse : toml.parse text = .ok m) (hm : m.Basic) {bytes : List UInt8}
    (hread : readNamed refuses tree dir m.artifact = .ok bytes)
    (hkind : validateKindExt m (pathExtension m.artifact) = .ok ())
    (hnone : tree.get? (dir ++ ["manifest.sha256"]) = none) :
    ∃ d₁ d₂ d₃, (runDirectoryDoctor build json toml refuses sha256 ed25519 dir tree).1 =
      ⟨"metadata", .passed, d₁⟩ :: ⟨"artifact", .passed, d₂⟩ :: ⟨"integrity", .passed, d₃⟩ ::
        (runCompatibilityLoadAndCheck build json m (.ok bytes) tree).1 := by
  obtain ⟨d₁, hd₁⟩ : ∃ d₁, checkDirectoryMetadata toml refuses tree dir = .ok (d₁, m) := by
    simp only [checkDirectoryMetadata, bind_eq_ok_iff, mapError_eq_ok_iff, present_eq_ok_iff,
      fromUtf8_eq_some_iff, read_eq_ok_iff hdisk]
    exact ⟨_, _, hmanifest, text, rfl, checkMetadata_eq_ok_iff.mpr ⟨hparse, hm, rfl⟩⟩
  obtain ⟨d₂, hd₂⟩ : ∃ d₂, checkDirectoryArtifact refuses tree dir m = .ok (d₂, ()) := by
    obtain ⟨hfile, hbytes⟩ := (readNamed_eq_ok_iff hdisk).mp hread
    have hthere : existsNamed refuses tree dir m.artifact = true := by
      rw [existsNamed, hdisk, FileTree.read_eq_some_iff.mp hbytes, hfile]
      rfl
    simp only [checkDirectoryArtifact, bind_eq_ok_iff, mapError_eq_ok_iff, ensure_eq_ok_iff]
    exact ⟨_, (), hthere, (), hkind, rfl⟩
  have hintegrity : checkDirectoryIntegrity refuses sha256 ed25519 tree dir m =
      .ok ("directory target (unbundled)", ()) := by
    rw [checkDirectoryIntegrity, isThere_eq hdisk, hnone]
    rfl
  refine ⟨d₁, d₂, "directory target (unbundled)", ?_⟩
  rw [runDirectoryDoctor, hd₁, Staged.check_lift_ok, hd₂, Staged.check_lift_ok, hintegrity,
    Staged.check_lift_ok, hread]

omit [DecidableEq Key] in
/-- An installation into a new directory makes no manifest of digests. -/
theorem get?_manifest_of_install {source : LocalSource} {opts : InstallOpts} {tree tree' : FileTree}
    (hok : install toml refuses root source opts tree = (.ok m, tree'))
    (hfresh : Fresh tree (pluginDir root m.id)) :
    tree'.get? (pluginDir root m.id ++ ["manifest.sha256"]) = none := by
  obtain ⟨e, -, herror, -⟩ | ⟨checked, hcheck, -, hdone⟩ := install_cases hok
  · cases herror
  obtain ⟨rfl, hcommitted⟩ := hdone m rfl
  obtain ⟨-, raw, parsed, -, -, -, hm⟩ :=
    sourceMeta_eq_ok_iff.mp (checkInstall_eq_ok_iff.mp hcheck).1
  have hartifact := relative_ne_reserved hm hcommitted.file "manifest.sha256"
    (by simp [reservedPaths])
  obtain ⟨_, _, tree₁, tree₂, tree₃, -, -, h₁, h₂, h₃, hkept⟩ := exists_writes_of_install hok
  refine (hkept _).elim (fun heq => ?_) id
  rw [heq, FileTree.get?_write h₃, if_neg (fun h => absurd (List.append_cancel_left h) (by decide)),
    FileTree.get?_write h₂, if_neg (fun h => hartifact (List.append_cancel_left h).symm),
    hfresh.get?_concat h₁]

end

/-! ### What an installation adds to the diagnosis -/

/-- The metadata that is installed. -/
def installedMeta (opts : InstallOpts) (m : PluginMeta) : PluginMeta :=
  { m with id := opts.id.getD m.id }

/-- What an installation of a bundle needs besides the first three stages of the doctor: an id that
overrides that of the bundle is valid, the artifact loads, and the metadata can be written. -/
structure Loadable (toml : TomlCrate)
    (load : String → Except String (List UInt8) → Except String Unit) (opts : InstallOpts)
    (entries : BundleEntries) (m : PluginMeta) : Prop where
  basic : (installedMeta opts m).Basic
  loads : ∃ bytes, entries[m.artifact]? = some bytes ∧ load m.kind (.ok bytes) = .ok ()
  writes : ∃ text, toml.write (installedMeta opts m) = .ok text

section

variable {Key Signature : Type} [DecidableEq Key] {toml : TomlCrate} {refuses : Refusals}
  {root : List String} {sha256 : List UInt8 → Vector UInt8 32} {ed25519 : Ed25519 Key Signature}
  {load : String → Except String (List UInt8) → Except String Unit} {archive : Archive}
  {entries : BundleEntries} {before : FileTree} {staging : List String} {opts : InstallOpts}
  {v : BundleVerification}

/-- What is installed of a bundle that is verified and whose artifact is in the root. -/
theorem checkInstall_staged_iff (hdisk : ∀ access path, refuses access path = none)
    {tree : FileTree}
    (hcheck : checkBundle toml sha256 ed25519 archive none = .ok (v, entries))
    (hverify : verifyBundle toml refuses sha256 ed25519 archive staging none before = (.ok v, tree))
    (hroot : IsRoot v.metadata.artifact) {bytes : List UInt8}
    (hbytes : entries[v.metadata.artifact]? = some bytes) {m : PluginMeta} :
    checkInstall toml refuses root tree
        (stagedSource refuses load tree staging v.metadata.artifact) opts = .ok m ↔
      m = installedMeta opts v.metadata ∧ m.Basic ∧
        validateKindExt v.metadata (pathExtension v.metadata.artifact) = .ok () ∧
        ¬ (Disk.isThere refuses tree (pluginDir root m.id) = true ∧ opts.force = false) ∧
        load v.metadata.kind (.ok bytes) = .ok () := by
  obtain ⟨items, files, -, -, hfiles, haccepted⟩ := checkBundle_eq_ok_iff.mp hcheck
  obtain ⟨raw, hraw, hparse⟩ := haccepted.metadata
  have hmanifest : (stagedSource refuses load tree staging v.metadata.artifact).manifest =
      some raw := by
    rw [stagedSource, hroot.relative, readToString_eq_some_iff]
    refine ⟨hdisk _ _, ?_⟩
    rw [List.dropLast_singleton, List.append_nil]
    exact (read_of_verifyBundle hdisk hcheck hverify
      (isRoot_of_reserved (by simp [reservedPaths])) ((hfiles _ _).mpr hraw)).1
  have hread := (read_of_verifyBundle hdisk hcheck hverify hroot hbytes).2
  rw [checkInstall_eq_ok_iff, sourceMeta_eq_ok_iff]
  constructor
  · rintro ⟨⟨-, raw', parsed, hraw', hparse', rfl, hbasic⟩, hkind, hthere, hload⟩
    rw [hmanifest] at hraw'
    cases hraw'
    rw [hparse] at hparse'
    cases hparse'
    rw [stagedSource, hread] at hload
    exact ⟨rfl, hbasic, hkind, hthere, hload⟩
  · rintro ⟨rfl, hbasic, hkind, hthere, hload⟩
    refine ⟨⟨rfl, raw, v.metadata, hmanifest, hparse, rfl, hbasic⟩, hkind, hthere, ?_⟩
    rw [stagedSource, hread]
    exact hload

end

/-! ### Loading without a contract -/

/-- The dry-run load of an installation, by a loader if the build has it. -/
def dryRunWith {version : Type} (loader : Option (Loader version))
    (artifact : Except String (List UInt8)) : Except String Unit :=
  match loader with
  | none => .ok ()
  | some loader => (loader.load artifact "").map fun _ => ()

/-- The dry-run load of `install`, without the source of a contract. -/
def Build.dryRun (build : Build) (kind : String) (artifact : Except String (List UInt8)) :
    Except String Unit :=
  if kind = "native" then dryRunWith build.native artifact
  else if kind = "wasm" then dryRunWith build.wasm artifact
  else .ok ()

/-- What is loaded with the sample contract is loaded without a contract. -/
def Loader.Steady {version : Type} (loader : Loader version) : Prop :=
  ∀ artifact loaded, loader.load artifact doctorSampleContract = .ok loaded →
    ∃ loaded', loader.load artifact "" = .ok loaded'

/-- The loaders of a build load without a contract what they load with one. -/
structure Build.Steady (build : Build) : Prop where
  native : ∀ loader ∈ build.native, loader.Steady
  wasm : ∀ loader ∈ build.wasm, loader.Steady

section

variable {build : Build} {json : SerdeJson} {m : PluginMeta} {artifact : Except String (List UInt8)}

theorem dryRunWith_of_loadWith {version : Type} {loader : Option (Loader version)}
    {feature : String} {found : String × LoadedRule} (hsteady : ∀ l ∈ loader, l.Steady)
    (h : loadWith feature loader artifact = .ok found) : dryRunWith loader artifact = .ok () := by
  cases loader with
  | none => cases h
  | some loader =>
    rw [loadWith, map_eq_ok_iff] at h
    obtain ⟨loaded, hload, -⟩ := h
    obtain ⟨loaded', hload'⟩ := hsteady loader rfl artifact loaded hload
    rw [dryRunWith, hload']
    rfl

/-- What the doctor loads is loaded in the dry run of an installation. -/
theorem dryRun_of_checkLoad (hsteady : build.Steady) {found : String × LoadedRule}
    (h : checkLoad build m artifact = .ok found) : build.dryRun m.kind artifact = .ok () := by
  rw [checkLoad] at h
  rw [Build.dryRun]
  split_ifs at h ⊢ with hnative hwasm
  · exact dryRunWith_of_loadWith hsteady.native h
  · exact dryRunWith_of_loadWith hsteady.wasm h

/-- The artifact was loaded if the last three stages passed. -/
theorem exists_checkLoad {tree : FileTree}
    (h : ∀ s ∈ (runCompatibilityLoadAndCheck build json m artifact tree).1, s.status = .passed) :
    ∃ found, checkLoad build m artifact = .ok found := by
  have hnot {name detail : String} {stages : List DoctorStage}
      (hpassed : ∀ s ∈ stages, s.status = .passed) : stages ≠ [⟨name, .failed, detail⟩] := by
    rintro rfl
    cases hpassed _ (List.mem_singleton_self _)
  rw [runCompatibilityLoadAndCheck] at h
  obtain ⟨_, hstages⟩ | ⟨_, _, -, hstages⟩ := Staged.check_lift_cases "compatibility"
    (checkCompatibility build m artifact) (fun _ =>
      .check "load" (lift (checkLoad build m artifact)) fun loaded =>
        .check "self-check" (lift (runSelfCheck json loaded)) fun _ => .done) tree
  · exact absurd (congrArg Prod.fst hstages) (hnot h)
  rw [hstages] at h
  obtain ⟨_, hstages⟩ | ⟨detail, loaded, hload, -⟩ := Staged.check_lift_cases "load"
    (checkLoad build m artifact) (fun loaded =>
      .check "self-check" (lift (runSelfCheck json loaded)) fun _ => .done) tree
  · exact absurd (congrArg Prod.fst hstages) (hnot (List.forall_mem_cons.mp h).2)
  · exact ⟨_, hload⟩

end

/-! ### What the doctor predicts -/

/-- The stages of a report, without what they found. -/
def DoctorReport.verdicts (report : DoctorReport) : List (String × DoctorStageStatus) :=
  report.stages.map Stage.verdict

/-- The exit code depends on which stages passed. -/
theorem exitCode_congr {target target' : String} {stages stages' : List DoctorStage}
    (h : stages.map Stage.verdict = stages'.map Stage.verdict) :
    (DoctorReport.ofStages target stages).exitCode =
      (DoctorReport.ofStages target' stages').exitCode := by
  have hall (stages : List DoctorStage) : (stages.all fun s => decide (s.status = .passed)) =
      (stages.map Stage.verdict).all fun x => decide (x.2 = .passed) := by
    rw [List.all_map]
    rfl
  have hidx (stages : List DoctorStage) :
      (stages.findIdx? fun s => decide (s.status = .failed)) =
        (stages.map Stage.verdict).findIdx? fun x => decide (x.2 = .failed) := by
    rw [List.findIdx?_map]
    rfl
  rw [DoctorReport.ofStages_eq, DoctorReport.ofStages_eq, DoctorReport.exitCode,
    DoctorReport.exitCode]
  dsimp only
  rw [hall, hall, hidx, hidx, h]

theorem exists_compatibility (build : Build) (json : SerdeJson) (m : PluginMeta)
    (artifact : Except String (List UInt8)) (tree : FileTree) :
    ∃ s ∈ (runCompatibilityLoadAndCheck build json m artifact tree).1,
      s.name = "compatibility" := by
  obtain ⟨detail, hstages⟩ | ⟨detail, _, -, hstages⟩ := Staged.check_lift_cases "compatibility"
    (checkCompatibility build m artifact) (fun _ =>
      .check "load" (lift (checkLoad build m artifact)) fun loaded =>
        .check "self-check" (lift (runSelfCheck json loaded)) fun _ => .done) tree
  · exact ⟨⟨"compatibility", .failed, detail⟩, by
      rw [runCompatibilityLoadAndCheck, hstages]
      exact List.mem_singleton_self _, rfl⟩
  · exact ⟨⟨"compatibility", .passed, detail⟩, by
      rw [runCompatibilityLoadAndCheck, hstages]
      exact List.mem_cons_self, rfl⟩

section

variable {Key Signature : Type} [DecidableEq Key] {toml : TomlCrate} {refuses : Refusals}
  {root : List String} {sha256 : List UInt8 → Vector UInt8 32} {ed25519 : Ed25519 Key Signature}
  {load : String → Except String (List UInt8) → Except String Unit} {archive : Archive}
  {entries : BundleEntries} {m : PluginMeta} {before : FileTree} {staging : List String}
  {opts : InstallOpts} {v : BundleVerification} {detail : String}

/-- What an installation of a bundle went through. -/
theorem install_of_installBundle (hdisk : ∀ access path, refuses access path = none)
    (hfresh : Fresh before staging)
    (hmeta : checkBundleMetadata toml (.ok archive) = .ok (detail, archive, entries, m))
    (hroot : IsRoot m.artifact) {tree : FileTree}
    (hok : installBundle toml refuses root sha256 ed25519 load archive opts staging before =
      (.ok v, tree)) :
    ∃ verified tree₁ tree₂, checkBundle toml sha256 ed25519 archive none = .ok (verified, entries) ∧
      verified.metadata = m ∧ Writable entries.toList ∧
      validateKindExt m (pathExtension m.artifact) = .ok () ∧ v.metadata = installedMeta opts m ∧
      Loadable toml load opts entries m ∧ SameOutside staging before tree₁ ∧
      install toml refuses root (stagedSource refuses load tree₁ staging m.artifact) opts tree₁ =
        (.ok v.metadata, tree₂) ∧
      (∀ bytes, entries[m.artifact]? = some bytes →
        readNamed refuses tree₁ staging m.artifact = .ok bytes) ∧
      (Disk.removeAll refuses staging tree₂).2 = tree := by
  obtain ⟨tree₂, hstage, htree⟩ := installBundleWithKey_eq_ok_iff.mp hok
  obtain ⟨verified, tree₁, hverify, -, hinstall, -⟩ := stageAndInstall_eq_ok_iff.mp hstage
  obtain ⟨entries', hcheck, hwritable⟩ :=
    (exists_verifyBundle_iff hdisk hfresh).mp ⟨tree₁, hverify⟩
  obtain ⟨_, hmeta'⟩ := checkBundleMetadata_of_checkBundle hcheck
  rw [hmeta] at hmeta'
  cases hmeta'
  obtain ⟨bytes, hbytes⟩ := exists_artifact_of_checkBundle hcheck
  obtain ⟨e, -, herror, -⟩ | ⟨m', hchecked, -, hdone⟩ := install_cases hinstall
  · cases herror
  obtain ⟨rfl, hcommitted⟩ := hdone _ rfl
  obtain ⟨heq, hbasic, hkind, -, hload⟩ :=
    (checkInstall_staged_iff hdisk hcheck hverify hroot hbytes).mp hchecked
  obtain ⟨text, hwrite, -⟩ := hcommitted.manifest
  refine ⟨verified, tree₁, tree₂, hcheck, rfl, hwritable, hkind, heq,
    ⟨heq ▸ hbasic, ⟨bytes, hbytes, hload⟩, ⟨text, heq ▸ hwrite⟩⟩, sameOutside_verifyBundle hverify,
    hinstall, fun bytes hbytes => (read_of_verifyBundle hdisk hcheck hverify hroot hbytes).2, htree⟩

/-- A bundle that is verified and whose artifact loads is installed into a store without the
plugin. -/
theorem exists_installBundle_of_loadable
    (hplace : Workplace refuses root (installedMeta opts v.metadata).id staging before)
    (hcheck : checkBundle toml sha256 ed25519 archive none = .ok (v, entries))
    (hwritable : Writable entries.toList)
    (hkind : validateKindExt v.metadata (pathExtension v.metadata.artifact) = .ok ())
    (hroot : IsRoot v.metadata.artifact) (h : Loadable toml load opts entries v.metadata) :
    ∃ installed tree, installBundle toml refuses root sha256 ed25519 load archive opts staging
      before = (.ok installed, tree) := by
  obtain ⟨tree₁, hverify⟩ :=
    (exists_verifyBundle_iff hplace.disk hplace.files).mpr ⟨entries, hcheck, hwritable⟩
  obtain ⟨bytes, hbytes, hload⟩ := h.loads
  obtain ⟨text, hwrite⟩ := h.writes
  have hfresh : Fresh tree₁ (pluginDir root (installedMeta opts v.metadata).id) :=
    hplace.plugin.of_sameOutside (sameOutside_verifyBundle hverify) hplace.below hplace.above
  have hthere : Disk.isThere refuses tree₁
      (pluginDir root (installedMeta opts v.metadata).id) = false := by
    rw [isThere_eq hplace.disk, hfresh.absent]
    rfl
  have hchecked : checkInstall toml refuses root tree₁
      (stagedSource refuses load tree₁ staging v.metadata.artifact) opts =
        .ok (installedMeta opts v.metadata) :=
    (checkInstall_staged_iff hplace.disk hcheck hverify hroot hbytes).mpr
      ⟨rfl, h.basic, hkind, by rw [hthere]; simp, hload⟩
  obtain ⟨tree₂, hinstall⟩ := exists_install hchecked hplace.disk hroot hfresh
    (read_of_verifyBundle hplace.disk hcheck hverify hroot hbytes).2 hwrite
  exact ⟨⟨installedMeta opts v.metadata, v.signed⟩, _, installBundleWithKey_eq_ok_iff.mpr
    ⟨tree₂, stageAndInstall_eq_ok_iff.mpr ⟨v, tree₁, hverify, by simp, hinstall, rfl⟩, rfl⟩⟩

variable (build : Build) (json : SerdeJson)

omit [DecidableEq Key] in
variable (sha256 ed25519) in
/-- **The stages of an installed plugin** past the third one. -/
theorem installedStages_of_install (htoml : toml.RoundTrips)
    (hdisk : ∀ access path, refuses access path = none) {source : LocalSource}
    {tree₁ tree₂ : FileTree} (hfresh : Fresh tree₁ (pluginDir root m.id))
    (hbelow : ¬ staging <+: pluginDir root m.id) (habove : ¬ pluginDir root m.id <+: staging)
    (hm : m.Basic) (hroot : IsRoot m.artifact)
    (hkind : validateKindExt m (pathExtension m.artifact) = .ok ()) {bytes : List UInt8}
    (hbytes : source.bytes = .ok bytes)
    (hok : install toml refuses root source opts tree₁ = (.ok m, tree₂)) :
    ∃ d₁ d₂ d₃, (installedStages build json toml refuses root sha256 ed25519 m.id
        (Disk.removeAll refuses staging tree₂).2).1 =
      ⟨"metadata", .passed, d₁⟩ :: ⟨"artifact", .passed, d₂⟩ :: ⟨"integrity", .passed, d₃⟩ ::
        (runCompatibilityLoadAndCheck build json m (.ok bytes)
          (Disk.removeAll refuses staging tree₂).2).1 := by
  obtain ⟨e, -, herror, -⟩ | ⟨_, -, -, hdone⟩ := install_cases hok
  · cases herror
  obtain ⟨rfl, hcommitted⟩ := hdone _ rfl
  have hapart := not_prefix_append hbelow habove
  have hget (names : List String) : (Disk.removeAll refuses staging tree₂).2.get?
      (pluginDir root m.id ++ names) = tree₂.get? (pluginDir root m.id ++ names) :=
    (get?_removeAll_cases refuses staging tree₂ _).resolve_right fun hgone => hapart names hgone.1
  obtain ⟨text, hwrite, hmanifest⟩ := hcommitted.manifest
  obtain ⟨copied, hcopied, hartifact⟩ := hcommitted.artifact fun old hold => by
    rw [showMeta_of_fresh hfresh] at hold
    cases hold
  rw [hbytes] at hcopied
  cases hcopied
  rw [← FileTree.read_congr (hget _)] at hmanifest hartifact
  have hthere : Disk.isThere refuses (Disk.removeAll refuses staging tree₂).2
      (pluginDir root m.id) = true := by
    have hdir := hget []
    rw [List.append_nil] at hdir
    rw [isThere_eq hdisk, hdir, hcommitted.dir]
    rfl
  rw [installedStages, if_pos hthere]
  exact runDirectoryDoctor_eq sha256 ed25519 build json hdisk hmanifest (htoml _ _ hwrite) hm
    ((readNamed_eq_ok_iff hdisk).mpr ⟨hroot.file, hartifact⟩) hkind
    ((hget _).trans (get?_manifest_of_install hok hfresh))

/-- A report with the exit code 0 has all stages, which passed. -/
theorem passed_of_exitCode {report : DoctorReport} (h : report.Diagnosis)
    (hcode : report.exitCode = 0) :
    (∃ s ∈ report.stages, s.name = "compatibility") ∧ ∀ s ∈ report.stages, s.status = .passed := by
  have hhealthy : report.healthy = true := by
    by_contra hnot
    rw [h.exitCode, if_neg hnot] at hcode
    exact h.nonempty (List.length_eq_zero_iff.mp hcode)
  obtain ⟨hnames, hlast⟩ := h.healthy_iff.mp hhealthy
  refine ⟨List.mem_map.mp (by rw [hnames]; decide), fun s hs => ?_⟩
  rw [← List.dropLast_append_getLast h.nonempty, List.mem_append, List.mem_singleton] at hs
  obtain hs | rfl := hs
  · exact h.earlier s hs
  · exact hlast _ (List.getLast?_eq_some_getLast h.nonempty)

variable (toml refuses root sha256 ed25519 archive opts staging before entries m) in
/-- What a report about a bundle says about its installation and about the plugin afterwards. -/
structure Predicts (report : DoctorReport) : Prop where
  installs_iff : (∃ v tree, installBundle toml refuses root sha256 ed25519 build.dryRun archive opts
      staging before = (.ok v, tree)) ↔
    (∃ s ∈ report.stages, s.name = "compatibility") ∧ Loadable toml build.dryRun opts entries m
  installed : ∀ v tree, installBundle toml refuses root sha256 ed25519 build.dryRun archive opts
      staging before = (.ok v, tree) →
    v.metadata = installedMeta opts m ∧
      (doctorInstalledWithRoot build json toml refuses root sha256 ed25519 v.metadata.id
        tree).verdicts = report.verdicts ∧
      (doctorInstalledWithRoot build json toml refuses root sha256 ed25519 v.metadata.id
        tree).exitCode = report.exitCode
  healthy : build.Steady → report.exitCode = 0 → (installedMeta opts m).Basic →
    (∃ text, toml.write (installedMeta opts m) = .ok text) →
      ∃ v tree, installBundle toml refuses root sha256 ed25519 build.dryRun archive opts staging
        before = (.ok v, tree)

section

variable {doctorStaging : List String}

/-- A bundle past the third stage was verified, with the files and the metadata that the doctor
reads. -/
theorem verified_of_mem_stages (hdisk : ∀ access path, refuses access path = none)
    (hfresh : Fresh before doctorStaging)
    (hmeta : checkBundleMetadata toml (.ok archive) = .ok (detail, archive, entries, m))
    {s : DoctorStage} (hs : s ∈ (runBundleDoctor build json toml refuses sha256 ed25519
      (.ok archive) doctorStaging before).1) (hname : s.name = "compatibility") :
    ∃ v bytes, v.metadata = m ∧ checkBundle toml sha256 ed25519 archive none = .ok (v, entries) ∧
      Writable entries.toList ∧ validateKindExt m (pathExtension m.artifact) = .ok () ∧
      entries[m.artifact]? = some bytes := by
  obtain ⟨v, entries', hcheck, hwritable, hkind⟩ :=
    exists_checkBundle_of_mem_stages hdisk hfresh hs hname
  obtain ⟨_, hmeta'⟩ := checkBundleMetadata_of_checkBundle hcheck
  rw [hmeta] at hmeta'
  cases hmeta'
  obtain ⟨bytes, hbytes⟩ := exists_artifact_of_checkBundle hcheck
  exact ⟨v, bytes, rfl, hcheck, hwritable, hkind, hbytes⟩

variable (hplace : Workplace refuses root (installedMeta opts m).id staging before)
  (hfresh : Fresh before doctorStaging)
  (hmeta : checkBundleMetadata toml (.ok archive) = .ok (detail, archive, entries, m))
  (hroot : IsRoot m.artifact)

include hplace hfresh hmeta hroot

/-- What is installed is a bundle past the third stage that loads. -/
theorem exists_installBundle_iff :
    (∃ v tree, installBundle toml refuses root sha256 ed25519 load archive opts staging before =
      (.ok v, tree)) ↔
    (∃ s ∈ (runBundleDoctor build json toml refuses sha256 ed25519 (.ok archive) doctorStaging
      before).1, s.name = "compatibility") ∧ Loadable toml load opts entries m := by
  constructor
  · rintro ⟨v, tree, hok⟩
    obtain ⟨verified, -, -, hcheck, rfl, hwritable, hkind, -, hloadable, -⟩ :=
      install_of_installBundle hplace.disk hplace.files hmeta hroot hok
    obtain ⟨bytes, hbytes, -⟩ := hloadable.loads
    obtain ⟨d₁, d₂, d₃, heq⟩ :=
      runBundleDoctor_eq build json hplace.disk hfresh hcheck hwritable hkind hroot hbytes
    obtain ⟨s, hs, hname⟩ := exists_compatibility build json verified.metadata (.ok bytes) before
    rw [heq]
    exact ⟨⟨s, List.mem_cons_of_mem _ (List.mem_cons_of_mem _ (List.mem_cons_of_mem _ hs)), hname⟩,
      hloadable⟩
  · rintro ⟨⟨s, hs, hname⟩, hloadable⟩
    obtain ⟨v, bytes, rfl, hcheck, hwritable, hkind, -⟩ :=
      verified_of_mem_stages build json hplace.disk hfresh hmeta hs hname
    exact exists_installBundle_of_loadable hplace hcheck hwritable hkind hroot hloadable

/-- The stages of the bundle that was installed and those of the plugin have the same verdicts. -/
theorem verdicts_installed (htoml : toml.RoundTrips) {tree : FileTree}
    (hok : installBundle toml refuses root sha256 ed25519 load archive opts staging before =
      (.ok v, tree)) :
    v.metadata = installedMeta opts m ∧
      (installedStages build json toml refuses root sha256 ed25519 v.metadata.id tree).1.map
          Stage.verdict =
        (runBundleDoctor build json toml refuses sha256 ed25519 (.ok archive) doctorStaging
          before).1.map Stage.verdict := by
  have hdisk := hplace.disk
  obtain ⟨verified, tree₁, tree₂, hcheck, rfl, hwritable, hkind, heq, hloadable, hsame, hinstall,
    hread, rfl⟩ := install_of_installBundle hdisk hplace.files hmeta hroot hok
  obtain ⟨bytes, hbytes, -⟩ := hloadable.loads
  obtain ⟨d₁, d₂, d₃, hbundle⟩ :=
    runBundleDoctor_eq build json hdisk hfresh hcheck hwritable hkind hroot hbytes
  rw [heq] at hinstall ⊢
  obtain ⟨e₁, e₂, e₃, hinstalled⟩ := installedStages_of_install sha256 ed25519 build json htoml
    hdisk (hplace.plugin.of_sameOutside hsame hplace.below hplace.above) hplace.below hplace.above
    hloadable.basic hroot hkind (hread bytes hbytes) hinstall
  refine ⟨rfl, ?_⟩
  rw [hinstalled, hbundle, runCompatibilityLoadAndCheck_fst build json
    (installedMeta opts verified.metadata) (.ok bytes) _ before]
  rfl

/-- A bundle whose stages all passed is installed, if its metadata can be. -/
theorem exists_installBundle_of_passed (hsteady : build.Steady)
    {s : DoctorStage} (hs : s ∈ (runBundleDoctor build json toml refuses sha256 ed25519
      (.ok archive) doctorStaging before).1) (hname : s.name = "compatibility")
    (hall : ∀ s ∈ (runBundleDoctor build json toml refuses sha256 ed25519 (.ok archive)
      doctorStaging before).1, s.status = .passed)
    (hbasic : (installedMeta opts m).Basic)
    (hwrites : ∃ text, toml.write (installedMeta opts m) = .ok text) :
    ∃ v tree, installBundle toml refuses root sha256 ed25519 build.dryRun archive opts staging
      before = (.ok v, tree) := by
  obtain ⟨v, bytes, rfl, hcheck, hwritable, hkind, hbytes⟩ :=
    verified_of_mem_stages build json hplace.disk hfresh hmeta hs hname
  obtain ⟨d₁, d₂, d₃, hbundle⟩ :=
    runBundleDoctor_eq build json hplace.disk hfresh hcheck hwritable hkind hroot hbytes
  rw [hbundle] at hall
  obtain ⟨found, hload⟩ := exists_checkLoad fun s hs =>
    hall s (List.mem_cons_of_mem _ (List.mem_cons_of_mem _ (List.mem_cons_of_mem _ hs)))
  exact exists_installBundle_of_loadable hplace hcheck hwritable hkind hroot
    ⟨hbasic, ⟨bytes, hbytes, dryRun_of_checkLoad hsteady hload⟩, hwrites⟩

end

theorem doctorWithRoot_file (opened : Except String Archive) (target : String)
    (doctorStaging : List String) :
    (doctorWithRoot build json toml refuses root sha256 ed25519 (.file opened) target doctorStaging
        before).1 =
      .ofStages target (runBundleDoctor build json toml refuses sha256 ed25519 opened doctorStaging
        before).1 := rfl

variable (sha256 ed25519 root archive opts staging) in
/-- **What the doctor predicts.** A bundle whose artifact is in its root is installed into a store
without the plugin exactly if the doctor gets past the third stage of it, the artifact loads and the
metadata can be written. The plugin that was installed is then diagnosed as the bundle was, stage by
stage. A bundle with the exit code 0 loads. -/
theorem doctor_predicts_install (htoml : toml.RoundTrips) (target : String)
    (doctorStaging : List String)
    (hplace : Workplace refuses root (installedMeta opts m).id staging before)
    (hfresh : Fresh before doctorStaging)
    (hmeta : checkBundleMetadata toml (.ok archive) = .ok (detail, archive, entries, m))
    (hroot : relative m.artifact = [m.artifact]) :
    Predicts toml refuses root sha256 ed25519 archive entries m before staging opts build json
      (doctorWithRoot build json toml refuses root sha256 ed25519 (.file (.ok archive)) target
        doctorStaging before).1 := by
  obtain ⟨-, -, text, -, hchecked⟩ := checkBundleMetadata_eq_ok_iff.mp hmeta
  have hisRoot : IsRoot m.artifact :=
    isRoot_of_relative (checkMetadata_eq_ok_iff.mp hchecked).2.1.safe hroot
  have hdiagnosis : DoctorReport.Diagnosis (.ofStages target (runBundleDoctor build json toml
      refuses sha256 ed25519 (.ok archive) doctorStaging before).1) :=
    .of_follows (within_runBundleDoctor _ _ before) target
  rw [doctorWithRoot_file]
  refine ⟨?_, fun v tree hok => ?_, fun hsteady hcode hbasic hwrites => ?_⟩
  · rw [DoctorReport.ofStages_eq]
    exact exists_installBundle_iff build json hplace hfresh hmeta hisRoot
  · obtain ⟨heq, hverdicts⟩ :=
      verdicts_installed build json hplace hfresh hmeta hisRoot htoml hok
    refine ⟨heq, ?_, exitCode_congr hverdicts⟩
    rw [doctorInstalledWithRoot, DoctorReport.verdicts, DoctorReport.verdicts,
      DoctorReport.ofStages_eq, DoctorReport.ofStages_eq]
    exact hverdicts
  · obtain ⟨⟨s, hs, hname⟩, hall⟩ := passed_of_exitCode hdiagnosis hcode
    rw [DoctorReport.ofStages_eq] at hs hall
    exact exists_installBundle_of_passed build json hplace hfresh hmeta hisRoot hsteady hs hname
      hall hbasic hwrites

end

/-- A build that loads the module of the team, whose rule has no findings, and no other one. -/
def teamBuild : Build where
  native := none
  wasm := some
    { abiVersion := fun artifact => if artifact = .ok ruleModule then some 1 else none
      load := fun artifact _ =>
        if artifact = .ok ruleModule then
          .ok ⟨.wasm ⟨"team/rule", .warning, "", false, fun _ => .ok "[]"⟩, false⟩
        else .error "failed to parse WebAssembly module" }

theorem steady_teamBuild : teamBuild.Steady where
  native _ h := (Option.not_mem_none _ h).elim
  wasm loader h := by
    obtain rfl := Option.some.inj h
    exact fun _ loaded hload => ⟨loaded, hload⟩

/-- JSON as it is for the sample contract and for a plugin without findings. -/
def sampleJson : SerdeJson where
  toString _ := .ok ("\x7b\"scans\":[\x7b\"fn_name\":\"sdkt_example_trigger_admin\"," ++
    "\"require_auth\":0,\"invoke_contract\":0,\"bound\":[],\"usage\":\x7b\x7d," ++
    "\"division_before_multiplication\":false,\"external_call_before_state_write\":false," ++
    "\"state_writes\":0,\"is_entrypoint\":false,\"returns_value\":false\x7d]\x7d")
  fromStr := SerdeJson.noScans.fromStr

/-- What the doctor reports about the bundle of the team. -/
def teamReport : DoctorReport :=
  (doctorWithRoot teamBuild sampleJson teamToml (fun _ _ => none) ["plugins"] Sha256.digest
    teamEd25519 (.file (.ok (archiveOf (teamFiles (some ()))))) "rule.sdkt-plugin" ["doctor"]
    .empty).1

/-- The stages of the module of the team. -/
theorem runCompatibilityLoadAndCheck_team :
    (runCompatibilityLoadAndCheck teamBuild sampleJson teamMeta (.ok ruleModule) .empty).1 =
      [⟨"compatibility", .passed, "ABI compatible (host v1.x, plugin v1.x)"⟩,
        ⟨"load", .passed, "plugin loaded successfully (id: 'team/rule')"⟩,
        ⟨"self-check", .passed, "self-check completed (0 finding(s) emitted)"⟩] := by
  decide +kernel

theorem teamPlace : Workplace (fun _ _ => none) ["plugins"] teamMeta.id ["tmp"] .empty :=
  ⟨fun _ _ => rfl, fresh_empty (by decide), fresh_empty (by decide), by decide, by decide⟩

/-- The bundle of the team passes the checks, with its module in its root. -/
theorem exists_checkBundle_team : ∃ entries,
    checkBundle teamToml Sha256.digest teamEd25519 (archiveOf (teamFiles (some ()))) none =
      .ok (⟨teamMeta, true⟩, entries) ∧
    Writable entries.toList ∧ entries[teamMeta.artifact]? = some ruleModule := by
  have hteam : Installable (fun _ _ => .ok ()) teamMeta ruleModule :=
    ⟨relative_team, by decide, by decide, by decide, rfl⟩
  have hparse : teamToml.parse teamText = .ok teamMeta := TomlCrate.parse_single _ _
  have hkey : ∀ sk ∈ some (), ∀ k ∈ (none : Option (List UInt8)),
      teamEd25519.keyOf (teamSigner.publicKey sk) = some k :=
    fun _ _ k hk => (Option.not_mem_none k hk).elim
  obtain ⟨tree, hverify, hartifact, -⟩ := hteam.exists_verifyBundle teamMeta_basic rfl
    hparse signs_team teamPlace hkey
  obtain ⟨entries, hcheck, hwritable⟩ :=
    (exists_verifyBundle_iff teamPlace.disk teamPlace.files).mp ⟨tree, hverify⟩
  have hroot : IsRoot teamMeta.artifact := isRoot_of_relative teamMeta_basic.safe relative_team
  obtain ⟨bytes, hbytes⟩ := exists_artifact_of_checkBundle hcheck
  have hread := (read_of_verifyBundle teamPlace.disk hcheck hverify hroot hbytes).2
  rw [hartifact] at hread
  exact ⟨entries, hcheck, hwritable, hbytes.trans (congrArg some (Except.ok.inj hread).symm)⟩

/-- The bundle of the team has all stages, which pass; it is installed, and the plugin is diagnosed
as the bundle was. -/
theorem doctor_predicts_install_team :
    teamReport.verdicts = stageNames.map (·, .passed) ∧ teamReport.exitCode = 0 ∧ ∃ v tree,
      installBundle teamToml (fun _ _ => none) ["plugins"] Sha256.digest teamEd25519
          teamBuild.dryRun (archiveOf (teamFiles (some ()))) ⟨none, false⟩ ["tmp"] .empty =
        (.ok v, tree) ∧ v.metadata = teamMeta ∧
      (doctorInstalledWithRoot teamBuild sampleJson teamToml (fun _ _ => none) ["plugins"]
        Sha256.digest teamEd25519 v.metadata.id tree).verdicts = teamReport.verdicts ∧
      (doctorInstalledWithRoot teamBuild sampleJson teamToml (fun _ _ => none) ["plugins"]
        Sha256.digest teamEd25519 v.metadata.id tree).exitCode = 0 := by
  obtain ⟨entries, hcheck, hwritable, hbytes⟩ := exists_checkBundle_team
  obtain ⟨d₁, d₂, d₃, hstages⟩ := runBundleDoctor_eq teamBuild sampleJson teamPlace.disk
    (fresh_empty (List.cons_ne_nil "doctor" [])) hcheck hwritable (by decide)
    (isRoot_of_relative teamMeta_basic.safe relative_team) hbytes
  rw [runCompatibilityLoadAndCheck_team] at hstages
  have hreport : teamReport = .ofStages "rule.sdkt-plugin" _ := doctorWithRoot_file ..
  rw [hstages, DoctorReport.ofStages_eq] at hreport
  have hcode : teamReport.exitCode = 0 := by
    rw [hreport]
    rfl
  obtain ⟨detail, hmeta⟩ := checkBundleMetadata_of_checkBundle hcheck
  have hpredicts := doctor_predicts_install ["plugins"] Sha256.digest teamEd25519
    (archiveOf (teamFiles (some ()))) ["tmp"] ⟨none, false⟩ teamBuild sampleJson
    teamToml_roundTrips "rule.sdkt-plugin" ["doctor"] teamPlace
    (fresh_empty (List.cons_ne_nil "doctor" [])) hmeta relative_team
  rw [← teamReport] at hpredicts
  obtain ⟨v, tree, hinstall⟩ := hpredicts.healthy steady_teamBuild hcode teamMeta_basic
    ⟨_, TomlCrate.write_single teamMeta teamText⟩
  obtain ⟨heq, hverdicts, hsame⟩ := hpredicts.installed v tree hinstall
  refine ⟨?_, hcode, v, tree, hinstall, heq, hverdicts, hsame.trans hcode⟩
  rw [hreport]
  rfl

end SorobanDevkit.Audit
