import SorobanDevkit.Audit.ManifestVerifiers

/-!
# Installing plugin bundles

A bundle is verified and extracted into a new directory, from which its artifact is installed like
any other; the directory is removed whatever comes of it (`sdkt-audit/src/plugin_store.rs`).

The loaders of plugins are parameters, and so is what the disk refuses.

## Main results

* `exists_install` — an artifact with one name is installed into a store without the plugin.
* `Installable.exists_installBundle` — a bundle whose artifact can be installed is installed.
* `packsWell_iff` — which bundles that were packed are verified and installed.
-/

namespace SorobanDevkit.Audit

open Except Strings Utf8Lossy
open Effect (lift ask)

/-- The extension of a path. -/
def pathExtension (path : String) : Option String :=
  ((relative path).getLast?.bind fun name => PathText.extension '.' name.toList).map String.ofList

section

variable {Key Signature : Type} [DecidableEq Key] (toml : TomlCrate) (refuses : Refusals)
  (root : List String) (sha256 : List UInt8 → Vector UInt8 32) (ed25519 : Ed25519 Key Signature)
  (load : String → Except String (List UInt8) → Except String Unit)

/-- The artifact of a bundle in the directory that the bundle was extracted into. `load` is the
loader of plugins of a kind. -/
def stagedSource (tree : FileTree) (staging : List String) (artifact : String) : LocalSource where
  remote := false
  manifest :=
    readToString refuses tree (staging ++ (relative artifact).dropLast ++ ["plugin.toml"])
  extension := pathExtension artifact
  dryRun kind := load kind (readNamed refuses tree staging artifact)
  bytes := readNamed refuses tree staging artifact

/-- Verifies a bundle, and installs its artifact from the directory it was extracted into. -/
def stageAndInstall (archive : Archive) (opts : InstallOpts) (required : Option Key)
    (staging : List String) : Effect FileTree StoreError BundleVerification := do
  let verified ← verifyBundle toml refuses sha256 ed25519 archive staging required
  lift (ensure (¬ (required.isSome = true ∧ verified.signed = false)) (.invalidBundle
    "bundle is not signed but a public key was provided; refusing to install"))
  let source ← ask fun tree => stagedSource refuses load tree staging verified.metadata.artifact
  let metadata ← install toml refuses root source opts
  return { verified with metadata }

/-- `install_bundle_with_key`. -/
def installBundleWithKey (archive : Archive) (opts : InstallOpts) (required : Option Key)
    (staging : List String) : Effect FileTree StoreError BundleVerification := fun tree =>
  let (result, tree') :=
    stageAndInstall toml refuses root sha256 ed25519 load archive opts required staging tree
  (result, (Disk.removeAll refuses staging tree').2)

/-- `install_bundle`. -/
def installBundle (archive : Archive) (opts : InstallOpts) (staging : List String) :
    Effect FileTree StoreError BundleVerification :=
  installBundleWithKey toml refuses root sha256 ed25519 load archive opts none staging

variable {toml refuses root sha256 ed25519 load}

theorem stageAndInstall_eq_ok_iff {archive : Archive} {opts : InstallOpts} {required : Option Key}
    {staging : List String} {tree tree' : FileTree} {v : BundleVerification} :
    stageAndInstall toml refuses root sha256 ed25519 load archive opts required staging tree =
        (.ok v, tree') ↔
      ∃ verified tree₁,
        verifyBundle toml refuses sha256 ed25519 archive staging required tree =
          (.ok verified, tree₁) ∧
        ¬ (required.isSome = true ∧ verified.signed = false) ∧
        install toml refuses root
          (stagedSource refuses load tree₁ staging verified.metadata.artifact) opts tree₁ =
          (.ok v.metadata, tree') ∧
        v.signed = verified.signed := by
  simp only [stageAndInstall, Effect.bind_eq_ok_iff, Effect.lift_eq_ok_iff, ensure_eq_ok_iff,
    Effect.ask_eq_ok_iff, Effect.pure_eq_ok_iff]
  constructor
  · rintro ⟨verified, tree₁, hverify, -, _, ⟨hsigned, rfl⟩, _, _, ⟨rfl, rfl⟩, m, _, hinstall, rfl,
      rfl⟩
    exact ⟨verified, tree₁, hverify, hsigned, hinstall, rfl⟩
  · rintro ⟨verified, tree₁, hverify, hsigned, hinstall, heq⟩
    refine ⟨verified, tree₁, hverify, (), tree₁, ⟨hsigned, rfl⟩, _, tree₁, ⟨rfl, rfl⟩, v.metadata,
      tree', hinstall, ?_, rfl⟩
    rw [← heq]

theorem installBundleWithKey_eq_ok_iff {archive : Archive} {opts : InstallOpts}
    {required : Option Key} {staging : List String} {tree tree' : FileTree}
    {v : BundleVerification} :
    installBundleWithKey toml refuses root sha256 ed25519 load archive opts required staging tree =
        (.ok v, tree') ↔
      ∃ tree₁,
        stageAndInstall toml refuses root sha256 ed25519 load archive opts required staging tree =
          (.ok v, tree₁) ∧
        (Disk.removeAll refuses staging tree₁).2 = tree' := by
  rw [installBundleWithKey]
  rcases stageAndInstall toml refuses root sha256 ed25519 load archive opts required staging tree
    with ⟨result, tree₁⟩
  simp only [Prod.mk.injEq]
  constructor
  · rintro ⟨rfl, htree⟩
    exact ⟨tree₁, ⟨rfl, rfl⟩, htree⟩
  · rintro ⟨_, ⟨rfl, rfl⟩, htree⟩
    exact ⟨rfl, htree⟩

end

/-! ### What an extraction leaves alone -/

section

variable {refuses : Refusals} {destination : List String}

theorem keeps_extractEntry (file : String × List UInt8) :
    Effect.Keeps (SameOutside destination) (extractEntry refuses destination file) := by
  refine .bind SameOutside.trans
    (Disk.keeps_makeDirs SameOutside.refl fun _ _ =>
      .of_makeDirs (.inl (List.prefix_append _ _))) fun _ => ?_
  refine .lift_bind SameOutside.refl fun _ _ => ?_
  exact Disk.keeps_write SameOutside.refl fun _ _ => .of_write (List.prefix_append _ _)

/-- An extraction changes nothing outside its directory. -/
theorem keeps_extract (entries : BundleEntries) :
    Effect.Keeps (SameOutside destination) (extract refuses destination entries) :=
  .bind SameOutside.trans
    (Disk.keeps_makeDirs SameOutside.refl fun _ _ => .of_makeDirs (.inl List.prefix_rfl)) fun _ =>
      .each SameOutside.refl SameOutside.trans fun file _ => keeps_extractEntry file

/-- A place that is apart from a directory stays fresh. -/
theorem Fresh.of_sameOutside {tree tree' : FileTree} {dir : List String}
    (hfresh : Fresh tree dir) (h : SameOutside destination tree tree')
    (hbelow : ¬ destination <+: dir) (habove : ¬ dir <+: destination) : Fresh tree' dir where
  absent := (h.get?_eq hbelow habove).trans hfresh.absent
  above above hpre := by
    rw [h.read_eq fun hdest => hbelow (hdest.trans hpre)]
    exact hfresh.above above hpre

end

/-! ### Installing into a store without the plugin -/

section

variable {toml : TomlCrate} {refuses : Refusals} {root : List String} {m : PluginMeta}
  {source : LocalSource} {tree : FileTree}

theorem Fresh.get?_concat {dir : List String} (h : Fresh tree dir) {tree' : FileTree}
    (hmade : tree.makeDirs dir = some tree') (name : String) :
    tree'.get? (dir ++ [name]) = none := by
  rw [FileTree.get?_makeDirs hmade, if_neg, h.get?_append]
  intro hpre
  have hlength := hpre.length_le
  rw [List.length_append, List.length_singleton] at hlength
  omega

/-- Without a directory there is no metadata. -/
theorem showMeta_of_fresh (h : Fresh tree (pluginDir root m.id)) :
    showMeta toml refuses root tree m.id = none := by
  rw [Option.eq_none_iff_forall_ne_some]
  intro m' hm'
  obtain ⟨-, raw, hread, -⟩ := showMeta_eq_some_iff.mp hm'
  rw [FileTree.read, h.get?_append] at hread
  cases hread

/-- An artifact of one name is copied into a directory that is made for it. -/
theorem exists_commit (hdisk : ∀ access path, refuses access path = none)
    (hroot : IsRoot m.artifact) (hfresh : Fresh tree (pluginDir root m.id)) {bytes : List UInt8}
    (hbytes : source.bytes = .ok bytes) {text : String} (htext : toml.write m = .ok text) :
    ∃ tree', commit toml refuses root source m tree = (.ok (), tree') := by
  obtain ⟨tree₁, h₁⟩ := FileTree.exists_makeDirs_iff.mpr hfresh.above
  have hdir : tree₁.get? (pluginDir root m.id) = some .dir := by
    rw [FileTree.get?_makeDirs h₁, if_pos List.prefix_rfl]
  obtain ⟨tree₂, h₂⟩ : ∃ tree₂,
      tree₁.write (pluginDir root m.id ++ relative m.artifact) bytes = some tree₂ := by
    rw [hroot.relative]
    refine FileTree.exists_write_iff.mpr ⟨?_, ?_⟩
    · rw [List.dropLast_concat, hdir]
    · rw [hfresh.get?_concat h₁]
      exact nofun
  have hget₂ := FileTree.get?_write h₂
  rw [hroot.relative] at hget₂
  obtain ⟨tree₃, h₃⟩ : ∃ tree₃,
      tree₂.write (pluginDir root m.id ++ ["plugin.toml"]) (encode text) = some tree₃ := by
    refine FileTree.exists_write_iff.mpr ⟨?_, ?_⟩
    · rw [List.dropLast_concat, hget₂, if_neg, hdir]
      exact fun heq => List.cons_ne_nil _ _ (List.self_eq_append_right.mp heq)
    · rw [hget₂]
      split_ifs with heq
      · exact nofun
      · rw [hfresh.get?_concat h₁]
        exact nofun
  refine ⟨tree₃, ?_⟩
  simp only [commit, Effect.bind_eq_ok_iff, io_eq_ok_iff, Effect.ask_eq_ok_iff,
    Effect.lift_eq_ok_iff, Disk.makeDirs_eq_ok_iff, writeNamed_eq_ok_iff, Disk.write_eq_ok_iff,
    mapError_eq_ok_iff]
  exact ⟨none, tree, ⟨by rw [showMeta_of_fresh hfresh]; rfl, rfl⟩, (), tree₁, ⟨hdisk _ _, h₁⟩,
    bytes, tree₁, ⟨hbytes, rfl⟩, (), tree₂, ⟨hroot.file, hdisk _ _, h₂⟩, text, tree₂, ⟨htext, rfl⟩,
    (), tree₃, ⟨hdisk _ _, h₃⟩, rfl⟩

/-- **An artifact with one name is installed** into a store without the plugin. -/
theorem exists_install {opts : InstallOpts}
    (hcheck : checkInstall toml refuses root tree source opts = .ok m)
    (hdisk : ∀ access path, refuses access path = none) (hroot : IsRoot m.artifact)
    (hfresh : Fresh tree (pluginDir root m.id)) {bytes : List UInt8}
    (hbytes : source.bytes = .ok bytes) {text : String} (htext : toml.write m = .ok text) :
    ∃ tree', install toml refuses root source opts tree = (.ok m, tree') := by
  obtain ⟨tree', hcommit⟩ := exists_commit hdisk hroot hfresh hbytes htext
  refine ⟨tree', ?_⟩
  simp only [install, Effect.bind_eq_ok_iff, Effect.ask_eq_ok_iff, Effect.lift_eq_ok_iff,
    Effect.pure_eq_ok_iff]
  exact ⟨.ok m, tree, ⟨hcheck, rfl⟩, m, tree, ⟨rfl, rfl⟩, (), tree', hcommit, rfl, rfl⟩

end

/-! ### Packed bundles -/

/-- A store without the plugin and without anything where its directory is made, and a directory
for the files of the bundle that is apart from it. The disk refuses nothing. -/
structure Workplace (refuses : Refusals) (root : List String) (id : String)
    (staging : List String) (tree : FileTree) : Prop where
  disk : ∀ access path, refuses access path = none
  files : Fresh tree staging
  plugin : Fresh tree (pluginDir root id)
  below : ¬ staging <+: pluginDir root id
  above : ¬ pluginDir root id <+: staging

/-- A bundle of the artifact can be installed: the path of the artifact is one name, which the lines
of a manifest keep and which has an extension of the kind, and the loader loads the artifact. -/
structure Installable (load : String → Except String (List UInt8) → Except String Unit)
    (m : PluginMeta) (artifact : List UInt8) : Prop where
  name : relative m.artifact = [m.artifact]
  lineFeed : '\n' ∉ m.artifact.toList
  carriageReturn : m.artifact.toList.getLast? ≠ some '\r'
  extension : validateKindExt m (pathExtension m.artifact) = .ok ()
  loads : load m.kind (.ok artifact) = .ok ()

section

variable {Key Signature SigningKey : Type} [DecidableEq Key] {toml : TomlCrate}
  {refuses : Refusals} {root : List String} {sha256 : List UInt8 → Vector UInt8 32}
  {ed25519 : Ed25519 Key Signature} {signer : Signer SigningKey}
  {load : String → Except String (List UInt8) → Except String Unit} {m : PluginMeta}
  {artifact : List UInt8} {key : Option SigningKey} {required : Option Key} {text : String}
  {staging : List String} {before tree : FileTree} {v : BundleVerification}

theorem Installable.portable (h : Installable load m artifact) : Portable m.artifact :=
  ⟨storedPath_of_relative h.name, h.lineFeed, h.carriageReturn⟩

theorem readNamed_eq_ok_iff (hdisk : ∀ access path, refuses access path = none)
    {dir : List String} {path : String} {bytes : List UInt8} :
    readNamed refuses tree dir path = .ok bytes ↔
      namesDirectory path = false ∧ tree.read (dir ++ relative path) = some bytes := by
  simp only [readNamed, bind_eq_ok_iff, ensure_eq_ok_iff, Disk.read, Refusals.grant_eq_ok_iff,
    hdisk, true_and, exists_const]

/-- What is read of a packed bundle that was extracted. -/
theorem read_packed {entries : BundleEntries}
    (hfiles : readEntries (archiveOf (packedFiles sha256 signer m (encode text) artifact key)) =
      .ok entries)
    (hextracted : Extracted before staging entries.toList tree) (hfresh : Fresh before staging)
    {names : List String} {bytes : List UInt8} :
    tree.read (staging ++ names) = some bytes → ∃ path,
      (path, bytes) ∈ packedFiles sha256 signer m (encode text) artifact key ∧
        relative path = names := by
  intro hread
  rw [hextracted.read_of_fresh hfresh, Option.map_eq_some_iff] at hread
  obtain ⟨file, hlast, rfl⟩ := hread
  obtain ⟨hmem, hrel⟩ := LastWrite.lastOf_eq_some hlast
  exact ⟨file.1, ((readEntries_archiveOf hfiles).2 file).mpr hmem, hrel⟩

/-- An extension that is not of the kind is refused. -/
theorem validateKindExt_toml : validateKindExt m (some "toml") ≠ .ok () := by
  rw [validateKindExt, Ne, ensure_eq_ok_iff]
  have hlower : String.ofList (((some "toml").getD "").toList.map Char.toLower) = "toml" := by
    decide
  rw [hlower]
  simp

/-- The manifest next to the artifact of a bundle that was packed is that of the bundle, and the
artifact is in the root, unless it is a manifest itself. -/
theorem manifest_packed (hm : m.Basic) (hfresh : Fresh before staging) {entries : BundleEntries}
    (hfiles : readEntries (archiveOf (packedFiles sha256 signer m (encode text) artifact key)) =
      .ok entries)
    (hextracted : Extracted before staging entries.toList tree) (hportable : Portable m.artifact)
    (hfile : namesDirectory m.artifact = false) {raw : String}
    (hraw : (stagedSource refuses load tree staging m.artifact).manifest = some raw) :
    raw = text ∧ relative m.artifact = [m.artifact] ∨ pathExtension m.artifact = some "toml" := by
  obtain ⟨-, hread⟩ := readToString_eq_some_iff.mp hraw
  rw [List.append_assoc] at hread
  obtain ⟨path, hmem, hrel⟩ := read_packed hfiles hextracted hfresh hread
  have hnodup := (readEntries_archiveOf hfiles).1
  by_cases hreserved : path ∈ reservedPaths
  · -- the names of the manifest are one name
    left
    rw [(isRoot_of_reserved hreserved).relative, ← List.nil_append [path]] at hrel
    obtain ⟨hdrop, hname⟩ := List.append_inj' hrel rfl
    obtain rfl := List.singleton_inj.mp hname
    have hsame := List.inj_on_of_nodup_map hnodup hmem (mem_packedFiles.mpr (.inl rfl)) rfl
    refine ⟨encode_inj.mp (Prod.mk.inj hsame).2, ?_⟩
    have hconcat := List.dropLast_append_getLast (relative_ne_nil hm)
    rw [← hdrop, List.nil_append] at hconcat
    rw [← hconcat, ← eq_of_relative_singleton hm.safe hfile hconcat.symm]
  · right
    have hpath := eq_storedPath_of_mem hmem hreserved
    rw [hportable.stored] at hpath
    have hlast : (relative m.artifact).getLast? = some "plugin.toml" := by
      rw [← hpath, hrel, List.getLast?_concat]
    rw [pathExtension, hlast]
    decide

end

section

variable {Key Signature SigningKey : Type} [DecidableEq Key] (toml : TomlCrate)
  (refuses : Refusals) (root : List String) (sha256 : List UInt8 → Vector UInt8 32)
  (ed25519 : Ed25519 Key Signature) (signer : Signer SigningKey)
  (load : String → Except String (List UInt8) → Except String Unit) (m : PluginMeta)
  (artifact : List UInt8) (key : Option SigningKey) (staging : List String) (before : FileTree)

/-- The archive of files is verified, returns the metadata and whether there was a key, extracts the
artifact under its path, and is installed. -/
structure PacksWell (files : List (String × List UInt8)) : Prop where
  verifies : ∀ required : Option Key,
    (∀ sk ∈ key, ∀ k ∈ required, ed25519.keyOf (signer.publicKey sk) = some k) →
      ∃ tree, verifyBundle toml refuses sha256 ed25519 (archiveOf files) staging required before =
          (.ok ⟨m, key.isSome⟩, tree) ∧
        readNamed refuses tree staging m.artifact = .ok artifact
  installs : ∀ force, ∃ v tree, installBundle toml refuses root sha256 ed25519 load
    (archiveOf files) ⟨none, force⟩ staging before = (.ok v, tree)

variable {toml refuses root sha256 ed25519 signer load m artifact key staging before}
variable {text : String}

/-- The files of a bundle that was verified are read, if they are in the root. -/
theorem read_verified {files : List (String × List UInt8)} {required : Option Key}
    {v : BundleVerification} {tree : FileTree}
    (hok : verifyBundle toml refuses sha256 ed25519 (archiveOf files) staging required before =
      (.ok v, tree)) (hfresh : Fresh before staging) (hroot : ∀ file ∈ files, IsRoot file.1)
    {file : String × List UInt8} (hfile : file ∈ files) :
    tree.read (staging ++ relative file.1) = some file.2 := by
  obtain ⟨entries, hentries, -, -, hextracted⟩ := extracted_of_verifyBundle hok
  obtain ⟨hnodup, hmem⟩ := readEntries_archiveOf hentries
  obtain ⟨f, hlast⟩ := LastWrite.exists_lastOf (p := fun f => relative f.1 = relative file.1)
    ((hmem file).mp hfile) rfl
  obtain ⟨hf, hrel⟩ := LastWrite.lastOf_eq_some hlast
  rw [hextracted.read_of_fresh hfresh, hlast, Option.map_some,
    eq_of_isRoot hnodup hroot ((hmem f).mpr hf) hfile hrel]

/-- A bundle that is verified changes nothing outside the directory of its files. -/
theorem sameOutside_verifyBundle {archive : Archive} {required : Option Key}
    {v : BundleVerification} {tree : FileTree}
    (hok : verifyBundle toml refuses sha256 ed25519 archive staging required before =
      (.ok v, tree)) : SameOutside staging before tree := by
  obtain ⟨entries, -, hextract⟩ := verifyBundle_eq_ok_iff.mp hok
  have hkeeps : SameOutside staging before (extract refuses staging entries before).2 :=
    keeps_extract entries before
  rwa [hextract] at hkeeps

/-- A bundle that packs well has an artifact that can be installed. -/
theorem PacksWell.installable (hm : m.Basic) (habi : m.abiMajor = auditAbiMajor)
    (htoml : toml.parse text = .ok m) (hsigns : signer.Signs ed25519)
    (hplace : Workplace refuses root m.id staging before)
    (h : PacksWell toml refuses root sha256 ed25519 signer load m artifact key staging before
      (packedFiles sha256 signer m (encode text) artifact key)) :
    Installable load m artifact := by
  obtain ⟨tree, hverify, hread⟩ := h.verifies none fun _ _ => nofun
  obtain ⟨entries, hentries, haccepted, -, hextracted⟩ := extracted_of_verifyBundle hverify
  obtain ⟨hnodup, hmem⟩ := readEntries_archiveOf hentries
  obtain ⟨hportable, -, -⟩ :=
    (packed_accepted_iff hm habi htoml hsigns).mp (haccepted.of_mem_iff hmem hnodup)
  obtain ⟨hfile, -⟩ := (readNamed_eq_ok_iff hplace.disk).mp hread
  obtain ⟨v, _, hinstall⟩ := h.installs false
  obtain ⟨_, hstage, -⟩ := installBundleWithKey_eq_ok_iff.mp hinstall
  obtain ⟨verified, _, hverify', -, hinstall, -⟩ := stageAndInstall_eq_ok_iff.mp hstage
  rw [hverify] at hverify'
  cases hverify'
  obtain ⟨e, -, herror, -⟩ | ⟨m', hcheck, -, -⟩ := install_cases hinstall
  · cases herror
  obtain ⟨hmeta, hkind, -, hloads⟩ := checkInstall_eq_ok_iff.mp hcheck
  obtain ⟨-, raw, parsed, hraw, hparse, rfl, -⟩ := sourceMeta_eq_ok_iff.mp hmeta
  rw [Option.getD_none] at hkind hloads
  obtain ⟨rfl, hname⟩ | htomlExt :=
    manifest_packed hm hplace.files hentries hextracted hportable hfile hraw
  · obtain rfl := Except.ok.inj ((parseMeta_eq_ok_iff.mp hparse).1.symm.trans htoml)
    rw [stagedSource, hread] at hloads
    exact ⟨hname, hportable.lineFeed, hportable.carriageReturn, hkind, hloads⟩
  · rw [stagedSource, htomlExt] at hkind
    exact absurd hkind validateKindExt_toml

section

variable (hm : m.Basic) (habi : m.abiMajor = auditAbiMajor) (htoml : toml.parse text = .ok m)
  (hsigns : signer.Signs ed25519) (hplace : Workplace refuses root m.id staging before)
  (h : Installable load m artifact) {required : Option Key}
  (hrequired : ∀ sk ∈ key, ∀ k ∈ required, ed25519.keyOf (signer.publicKey sk) = some k)

include hm habi htoml hsigns hplace h hrequired

/-- A bundle whose artifact can be installed is verified, and its files are read. -/
theorem Installable.exists_verifyBundle :
    ∃ tree, verifyBundle toml refuses sha256 ed25519
        (archiveOf (packedFiles sha256 signer m (encode text) artifact key)) staging required
        before = (.ok ⟨m, key.isSome⟩, tree) ∧
      readNamed refuses tree staging m.artifact = .ok artifact ∧
      (stagedSource refuses load tree staging m.artifact).manifest = some text := by
  have hroot : ∀ file ∈ packedFiles sha256 signer m (encode text) artifact key, IsRoot file.1 :=
    fun _ => isRoot_packedFiles hm h.name
  obtain ⟨tree, hverify⟩ :=
    (accepted_packedFiles hm habi htoml hsigns h.portable hrequired).exists_verifyBundle hplace.disk
      (packed_packedFiles hm h.name) (prefixFree_of_isRoot hroot) hplace.files
  have hartifact : (m.artifact, artifact) ∈
      packedFiles sha256 signer m (encode text) artifact key :=
    mem_packedFiles.mpr (.inr (.inr (.inl (by rw [h.portable.stored]))))
  have hread := read_verified hverify hplace.files hroot hartifact
  have htext := read_verified hverify hplace.files hroot (mem_packedFiles.mpr (.inl rfl))
  rw [(isRoot_of_reserved (by simp [reservedPaths])).relative] at htext
  refine ⟨tree, hverify, (readNamed_eq_ok_iff hplace.disk).mpr ⟨(hroot _ hartifact).file, hread⟩,
    ?_⟩
  rw [stagedSource, h.name, readToString_eq_some_iff]
  exact ⟨hplace.disk _ _, by rw [List.dropLast_singleton, List.append_nil, htext]⟩

/-- A bundle whose artifact can be installed is installed, if it is signed when a key is
required. -/
theorem Installable.exists_installBundle {stored : String} (hwrite : toml.write m = .ok stored)
    (hkey : required.isSome = true → key.isSome = true) (force : Bool) :
    ∃ tree, installBundleWithKey toml refuses root sha256 ed25519 load
      (archiveOf (packedFiles sha256 signer m (encode text) artifact key)) ⟨none, force⟩ required
      staging before = (.ok ⟨m, key.isSome⟩, tree) := by
  obtain ⟨tree, hverify, hread, hmanifest⟩ :=
    h.exists_verifyBundle hm habi htoml hsigns hplace hrequired
  have hplugin : Fresh tree (pluginDir root m.id) :=
    hplace.plugin.of_sameOutside (sameOutside_verifyBundle hverify) hplace.below hplace.above
  have hcheck : checkInstall toml refuses root tree
      (stagedSource refuses load tree staging m.artifact) ⟨none, force⟩ = .ok m := by
    refine checkInstall_eq_ok_iff.mpr ⟨sourceMeta_eq_ok_iff.mpr ⟨rfl, text, m, hmanifest,
      parseMeta_eq_ok_iff.mpr ⟨htoml, hm, habi⟩, rfl, hm⟩, h.extension, fun hthere => ?_, ?_⟩
    · rw [Disk.isThere, hplugin.absent, Option.isSome_none, Bool.and_false] at hthere
      exact Bool.false_ne_true hthere.1
    · rw [stagedSource, hread]
      exact h.loads
  obtain ⟨tree', hinstall⟩ := exists_install hcheck hplace.disk
    (isRoot_of_relative hm.safe h.name) hplugin hread hwrite
  refine ⟨_, installBundleWithKey_eq_ok_iff.mpr ⟨tree', stageAndInstall_eq_ok_iff.mpr
    ⟨_, tree, hverify, fun hunsigned => ?_, hinstall, rfl⟩, rfl⟩⟩
  exact Bool.false_ne_true (hunsigned.2.symm.trans (hkey hunsigned.1))

end

/-- A bundle is packed well if its artifact can be installed. -/
theorem Installable.packsWell (hm : m.Basic) (habi : m.abiMajor = auditAbiMajor)
    (hwrite : toml.write m = .ok text) (htoml : toml.parse text = .ok m)
    (hsigns : signer.Signs ed25519) (hplace : Workplace refuses root m.id staging before)
    (h : Installable load m artifact) :
    PacksWell toml refuses root sha256 ed25519 signer load m artifact key staging before
      (packedFiles sha256 signer m (encode text) artifact key) where
  verifies required hrequired := by
    obtain ⟨tree, hverify, hread, -⟩ :=
      h.exists_verifyBundle hm habi htoml hsigns hplace hrequired
    exact ⟨tree, hverify, hread⟩
  installs force := by
    have hnone : ∀ sk ∈ key, ∀ k ∈ (none : Option Key),
        ed25519.keyOf (signer.publicKey sk) = some k := fun _ _ => nofun
    obtain ⟨tree, hinstall⟩ := h.exists_installBundle hm habi htoml hsigns hplace hnone hwrite
      (fun hkey => absurd hkey Bool.false_ne_true) force
    exact ⟨_, tree, hinstall⟩

/-- **What packs also verifies and installs** exactly if the artifact can be installed: its path is
one name, which the lines of a manifest keep and which has an extension of the kind, and it
loads. -/
theorem packsWell_iff {files : List (String × List UInt8)} {extension : Option String}
    {written : Except String Unit} (htoml : toml.RoundTrips) (hsigns : signer.Signs ed25519)
    (hplace : Workplace refuses root m.id staging before)
    (hpack : packBundle toml sha256 signer m extension (.ok artifact) written key = .ok files) :
    PacksWell toml refuses root sha256 ed25519 signer load m artifact key staging before files ↔
      Installable load m artifact := by
  obtain ⟨⟨hm, habi⟩, -, -, bytes, text, hbytes, hwrite, rfl⟩ := packBundle_eq_ok_iff.mp hpack
  obtain rfl := Except.ok.inj hbytes
  have hparse := htoml m text hwrite
  exact ⟨PacksWell.installable hm habi hparse hsigns hplace,
    Installable.packsWell hm habi hwrite hparse hsigns hplace⟩

end

/-! ### An artifact in the root and one below it -/

/-- The bundle of the team is installed on a host without loaders. -/
theorem packsWell_team :
    PacksWell teamToml (fun _ _ => none) ["plugins"] Sha256.digest teamEd25519 teamSigner
      (fun _ _ => .ok ()) teamMeta ruleModule (some ()) ["tmp"] .empty (teamFiles (some ())) := by
  have hpack : packBundle teamToml Sha256.digest teamSigner teamMeta (some "wasm")
      (.ok ruleModule) (.ok ()) (some ()) = .ok (teamFiles (some ())) :=
    packBundle_eq_ok_iff.mpr ⟨⟨teamMeta_basic, rfl⟩, by decide, rfl, ruleModule, teamText, rfl,
      TomlCrate.write_single _ _, rfl⟩
  have hplace : Workplace (fun _ _ => none) ["plugins"] teamMeta.id ["tmp"] .empty :=
    ⟨fun _ _ => rfl, fresh_empty (by decide), fresh_empty (by decide), by decide,
      by decide⟩
  exact (packsWell_iff teamToml_roundTrips signs_team hplace hpack).mpr
    ⟨relative_team, by decide, by decide, by decide, rfl⟩

/-- The metadata of a plugin with its artifact in a directory. -/
def libMeta : PluginMeta := { teamMeta with artifact := "lib/rule.wasm" }

/-- The metadata as TOML. -/
def libText : String :=
  "id = \"team/rule\"\nname = \"Rule\"\nversion = \"1.0.0\"\nauthor = \"\"\n" ++
    "description = \"\"\nkind = \"wasm\"\nartifact = \"lib/rule.wasm\"\nabi_major = 1\n" ++
    "abi_minor = 0\n"

/-- TOML, as far as this metadata is concerned. -/
def libToml : TomlCrate := .single libMeta libText

theorem libToml_roundTrips : libToml.RoundTrips := TomlCrate.single_roundTrips _ _

/-- An artifact in a directory is packed, and not installed. -/
theorem artifact_in_directory :
    libToml.RoundTrips ∧
    packBundle libToml Sha256.digest teamSigner libMeta (some "wasm") (.ok ruleModule) (.ok ())
        none =
      .ok (packedFiles Sha256.digest teamSigner libMeta (encode libText) ruleModule none) ∧
    ¬ PacksWell libToml (fun _ _ => none) ["plugins"] Sha256.digest teamEd25519 teamSigner
        (fun _ _ => .ok ()) libMeta ruleModule none ["tmp"] .empty
        (packedFiles Sha256.digest teamSigner libMeta (encode libText) ruleModule none) := by
  have hbasic : libMeta.Basic :=
    PluginMeta.validateBasic_eq_ok_iff.mp (show libMeta.validateBasic = .ok () by decide)
  have hplace : Workplace (fun _ _ => none) ["plugins"] libMeta.id ["tmp"] .empty :=
    ⟨fun _ _ => rfl, fresh_empty (by decide), fresh_empty (by decide), by decide,
      by decide⟩
  have hparse : libToml.parse libText = .ok libMeta := TomlCrate.parse_single _ _
  refine ⟨libToml_roundTrips, packBundle_eq_ok_iff.mpr ⟨⟨hbasic, rfl⟩, by decide, rfl, ruleModule,
    libText, rfl, TomlCrate.write_single _ _, rfl⟩, fun h => ?_⟩
  have hname := (h.installable hbasic rfl hparse signs_team hplace).name
  exact absurd hname (by decide)

end SorobanDevkit.Audit
