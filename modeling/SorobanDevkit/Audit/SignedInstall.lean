import SorobanDevkit.Audit.BundleOutcome

/-!
# Signed bundles in the store

What a bundle that is installed under a key has put into the store, and what a bundle that is
refused has changed (`sdkt-audit/src/plugin_store.rs`). The store has the metadata as TOML writes
it, which need not be the text in the bundle.
-/

namespace SorobanDevkit.Audit

open Except Strings Utf8Lossy
open Effect (lift ask)

/-! ### Signed bundles -/

section

variable {Key Signature : Type} (sha256 : List UInt8 → Vector UInt8 32)
  (ed25519 : Ed25519 Key Signature)

/-- The rows of a manifest list a file with its digest. -/
def IsListed (rows : List (String × String)) (file : String × List UInt8) : Prop :=
  (file.1, digestHex sha256 file.2) ∈ rows

/-- The files of a bundle have safe and different paths, are listed unless they are those of the
manifest, and the manifest is signed under a key. -/
structure SignedBundle (files : List (String × List UInt8)) (rows : List (String × String))
    (key : Key) : Prop where
  nodup : (files.map Prod.fst).Nodup
  safe : ∀ file ∈ files, isSafeRelativePath file.1 = true
  listed : ∀ file ∈ files, IsListed sha256 rows file ∨ file.1 ∈ unlistedPaths
  signature : ∃ text raw sig, ("manifest.sha256", encode text) ∈ files ∧
    List.Forall₂ IsRow (lines text) rows ∧ ("signature.ed25519", raw) ∈ files ∧
    ed25519.signatureFromSlice raw = some sig ∧ ed25519.verify key (encode text) sig = true

variable {sha256 ed25519} {toml : TomlCrate} {files : List (String × List UInt8)}
  {rows : List (String × String)} {key : Key} {v : BundleVerification}

/-- The row with the path of a file has its digest. -/
theorem Lists.isListed {artifact : String} (h : Lists sha256 files artifact rows)
    (hnodup : (files.map Prod.fst).Nodup) {file : String × List UInt8} (hfile : file ∈ files)
    (hrow : file.1 ∈ rows.map Prod.fst) : IsListed sha256 rows file := by
  obtain ⟨row, hrow, hpath⟩ := List.mem_map.mp hrow
  obtain ⟨bytes, hbytes, hdigest⟩ := h.digest row hrow
  have hsame := List.inj_on_of_nodup_map hnodup hbytes hfile hpath
  rw [IsListed, ← hsame, ← hdigest]
  exact hrow

/-- A bundle that is accepted under a key is signed under that key, if it is signed. -/
theorem Accepted.exists_signedBundle (h : Accepted toml sha256 ed25519 files (some key) v)
    (hfiles : Packed files) (hsigned : v.signed = true) :
    ∃ rows, SignedBundle sha256 ed25519 files rows key := by
  obtain ⟨-, -, text, rows, htext, hrows, hlists, hsig⟩ := h
  rw [hsigned] at hsig
  obtain ⟨raw, sig, -, embedded, hraw, hsigOf, -, -, hrequired, hverify⟩ := hsig
  obtain rfl := hrequired key rfl
  refine ⟨rows, hfiles.nodup, hfiles.safe, fun file hfile => ?_, text, raw, sig, htext, hrows, hraw,
    hsigOf, hverify⟩
  exact (hlists.listed file hfile).imp_left (hlists.isListed hfiles.nodup hfile)

/-- A file that was extracted to a path that is not of the manifest is listed. -/
theorem SignedBundle.exists_listed (h : SignedBundle sha256 ed25519 files rows key)
    {destination names : List String} {before tree : FileTree}
    (hextracted : Extracted before destination files tree)
    (hnames : ∀ name ∈ unlistedPaths, names ≠ [name]) {bytes : List UInt8}
    (hread : tree.read (destination ++ names) = some bytes) :
    (∃ path, relative path = names ∧ (path, bytes) ∈ files ∧ IsListed sha256 rows (path, bytes)) ∨
      before.read (destination ++ names) = some bytes ∧
        ∀ file ∈ files, relative file.1 ≠ names := by
  rw [hextracted.read] at hread
  cases hlast : LastWrite.lastOf files (relative ·.1 = names) with
  | some file =>
    rw [hlast, Option.map_some, Option.some_or, Option.some_inj] at hread
    subst hread
    obtain ⟨hfile, hrel⟩ := LastWrite.lastOf_eq_some hlast
    refine .inl ⟨file.1, hrel, hfile, (h.listed file hfile).resolve_right fun hunlisted => ?_⟩
    exact hnames file.1 hunlisted (by rw [← hrel, relative_of_unlisted hunlisted])
  | none =>
    rw [hlast, Option.map_none, Option.none_or] at hread
    refine .inr ⟨hread, fun file hfile hrel => ?_⟩
    obtain ⟨f, hf⟩ := LastWrite.exists_lastOf (p := fun f => relative f.1 = names) hfile hrel
    rw [hlast] at hf
    cases hf

end

/-! ### What is copied -/

section

variable {toml : TomlCrate} {refuses : Refusals} {root : List String} {source : LocalSource}
  {opts : InstallOpts} {m : PluginMeta} {tree tree' : FileTree}

/-- What an installation writes: a directory, the artifact and the manifest. Files may be removed
afterwards. -/
theorem exists_writes_of_install
    (hok : install toml refuses root source opts tree = (.ok m, tree')) :
    ∃ bytes text tree₁ tree₂ tree₃, source.bytes = .ok bytes ∧ toml.write m = .ok text ∧
      tree.makeDirs (pluginDir root m.id) = some tree₁ ∧
      tree₁.write (pluginDir root m.id ++ relative m.artifact) bytes = some tree₂ ∧
      tree₂.write (pluginDir root m.id ++ ["plugin.toml"]) (encode text) = some tree₃ ∧
      ∀ path, tree'.get? path = tree₃.get? path ∨ tree'.get? path = none := by
  simp only [install, Effect.bind_eq_ok_iff, Effect.ask_eq_ok_iff, Effect.lift_eq_ok_iff,
    Effect.pure_eq_ok_iff, commit, io_eq_ok_iff, Disk.makeDirs_eq_ok_iff, writeNamed_eq_ok_iff,
    Disk.write_eq_ok_iff, mapError_eq_ok_iff] at hok
  obtain ⟨_, _, ⟨rfl, rfl⟩, m', _, ⟨hm', rfl⟩, _, _, ⟨previous, _, ⟨-, rfl⟩, _, tree₁, ⟨-, h₁⟩,
    bytes, _, ⟨hbytes, rfl⟩, _, tree₂, ⟨-, -, h₂⟩, text, _, ⟨htext, rfl⟩, _, tree₃, ⟨-, h₃⟩,
    hstale⟩, rfl, rfl⟩ := hok
  exact ⟨bytes, text, tree₁, tree₂, tree₃, hbytes, htext, h₁, h₂, h₃, fun path =>
    (removeStale_ok hstale path).imp_right And.left⟩

/-- What is in the store under the path of the artifact is what was copied. -/
theorem exists_copied (hok : install toml refuses root source opts tree = (.ok m, tree')) :
    ∃ bytes, source.bytes = .ok bytes ∧
      ∀ stored, tree'.read (pluginDir root m.id ++ relative m.artifact) = some stored →
        stored = bytes := by
  obtain ⟨e, -, herror, -⟩ | ⟨checked, hcheck, -, hdone⟩ := install_cases hok
  · cases herror
  obtain ⟨rfl, hcommitted⟩ := hdone m rfl
  obtain ⟨-, raw, parsed, -, -, -, hm⟩ :=
    sourceMeta_eq_ok_iff.mp (checkInstall_eq_ok_iff.mp hcheck).1
  have hmanifest := relative_ne_reserved hm hcommitted.file "plugin.toml" (by simp [reservedPaths])
  obtain ⟨bytes, text, tree₁, tree₂, tree₃, hbytes, -, -, h₂, h₃, hkept⟩ :=
    exists_writes_of_install hok
  refine ⟨bytes, hbytes, fun stored hstored => ?_⟩
  rw [FileTree.read_eq_some_iff] at hstored
  rcases hkept (pluginDir root m.id ++ relative m.artifact) with heq | hnone
  · rw [heq, FileTree.get?_write h₃, if_neg (fun h => hmanifest (List.append_cancel_left h)),
      FileTree.get?_write h₂, if_pos rfl] at hstored
    cases hstored
    rfl
  · rw [hnone] at hstored
    cases hstored

end

/-! ### What is in the store -/

/-- What is removed with the directory of a bundle, if it is removed. -/
theorem get?_removeAll_cases (refuses : Refusals) (staging : List String) (tree : FileTree)
    (path : List String) :
    (Disk.removeAll refuses staging tree).2.get? path = tree.get? path ∨
      staging <+: path ∧ (Disk.removeAll refuses staging tree).2.get? path = none := by
  cases hremove : Disk.removeAll refuses staging tree with
  | mk result tree' =>
    cases result with
    | error e =>
      rw [Disk.removeAll, Effect.change] at hremove
      split at hremove
      · cases hremove
      · cases hremove
        exact .inl rfl
    | ok u =>
      obtain ⟨-, -, rfl⟩ := Disk.removeAll_eq_ok_iff.mp hremove
      cases hnode : (tree.removeAll staging).get? path with
      | some node => exact .inl (FileTree.get?_of_removeAll hnode).symm
      | none =>
        by_cases hpre : staging <+: path
        · exact .inr ⟨hpre, rfl⟩
        · have hne : staging ≠ [] := fun heq => hpre (heq ▸ List.nil_prefix)
          rw [FileTree.get?_removeAll hne, if_neg hpre] at hnode
          exact .inl hnode.symm

theorem read_of_removeAll {refuses : Refusals} {staging path : List String} {tree : FileTree}
    {content : List UInt8}
    (h : (Disk.removeAll refuses staging tree).2.read path = some content) :
    tree.read path = some content := by
  rw [FileTree.read_eq_some_iff] at h ⊢
  rcases get?_removeAll_cases refuses staging tree path with heq | ⟨-, hnone⟩
  · rwa [← heq]
  · rw [hnone] at h
    cases h

theorem read_removeAll {refuses : Refusals} {staging path : List String} {tree : FileTree}
    (h : ¬ staging <+: path) :
    (Disk.removeAll refuses staging tree).2.read path = tree.read path :=
  FileTree.read_congr ((get?_removeAll_cases refuses staging tree path).resolve_right
    fun hgone => h hgone.1)

/-- What is below a directory is not below one that is apart from it. -/
theorem not_prefix_append {dir dir' : List String} (hbelow : ¬ dir <+: dir')
    (habove : ¬ dir' <+: dir) (names : List String) : ¬ dir <+: dir' ++ names := fun h =>
  (List.prefix_or_prefix_of_prefix h (List.prefix_append _ _)).elim hbelow habove

section

variable (toml : TomlCrate) (refuses : Refusals) (root : List String)
  (sha256 : List UInt8 → Vector UInt8 32) (opts : InstallOpts)
  (files : List (String × List UInt8)) (rows : List (String × String)) (m : PluginMeta)
  (staging : List String) (before : FileTree) (v : BundleVerification) (tree : FileTree)

/-- What is in the store after a bundle with the files was installed, and where it comes from.
`m` is the metadata in the root of the bundle, and `v.metadata` that next to its artifact. -/
structure InStore : Prop where
  signed : v.signed = true
  packed : ∃ raw, ("plugin.toml", encode raw) ∈ files ∧
    IsListed sha256 rows ("plugin.toml", encode raw) ∧ parseMeta toml raw = .ok m
  metadata : ∃ raw parsed, parseMeta toml raw = .ok parsed ∧
    v.metadata = { parsed with id := opts.id.getD parsed.id } ∧
    ((∃ path, relative path = (relative m.artifact).dropLast ++ ["plugin.toml"] ∧
      (path, encode raw) ∈ files ∧ IsListed sha256 rows (path, encode raw)) ∨
      before.read (staging ++ ((relative m.artifact).dropLast ++ ["plugin.toml"])) =
        some (encode raw))
  manifest : ∀ stored, tree.read (pluginDir root v.metadata.id ++ ["plugin.toml"]) = some stored →
    ∃ text, toml.write v.metadata = .ok text ∧ stored = encode text
  artifact : ∀ stored, tree.read (pluginDir root v.metadata.id ++ relative v.metadata.artifact) =
    some stored → ∃ path, relative path = relative m.artifact ∧ (path, stored) ∈ files ∧
      IsListed sha256 rows (path, stored)
  present : ¬ staging <+: pluginDir root v.metadata.id →
    ¬ pluginDir root v.metadata.id <+: staging →
    (∀ old, showMeta toml refuses root before v.metadata.id = some old →
      old.artifact ≠ v.metadata.artifact →
        relative old.artifact ≠ relative v.metadata.artifact) →
    (tree.read (pluginDir root v.metadata.id ++ ["plugin.toml"])).isSome = true ∧
      (tree.read (pluginDir root v.metadata.id ++ relative v.metadata.artifact)).isSome = true
  outside : ∀ path, ¬ staging <+: path → ¬ pluginDir root v.metadata.id <+: path →
    tree.read path = before.read path

end

section

variable {Key Signature : Type} {toml : TomlCrate} {refuses : Refusals} {root : List String}
  {sha256 : List UInt8 → Vector UInt8 32} {ed25519 : Ed25519 Key Signature}
  {load : String → Except String (List UInt8) → Except String Unit} {archive : Archive}
  {opts : InstallOpts} {key : Key} {staging : List String} {before tree : FileTree}
  {v : BundleVerification}

theorem readNamed_granted_iff {dir : List String} {path : String} {bytes : List UInt8} :
    readNamed refuses tree dir path = .ok bytes ↔ namesDirectory path = false ∧
      refuses .read (dir ++ relative path) = none ∧
      tree.read (dir ++ relative path) = some bytes := by
  simp only [readNamed, bind_eq_ok_iff, ensure_eq_ok_iff, Disk.read, Refusals.grant_eq_ok_iff,
    exists_const]

/-- The artifact of a signed bundle that was extracted is a file that is listed. -/
theorem SignedBundle.exists_artifact {files : List (String × List UInt8)}
    {rows : List (String × String)} (h : SignedBundle sha256 ed25519 files rows key)
    (haccepted : Accepted toml sha256 ed25519 files (some key) v)
    (hextracted : Extracted before staging files tree) {bytes : List UInt8}
    (hread : readNamed refuses tree staging v.metadata.artifact = .ok bytes) :
    ∃ path, relative path = relative v.metadata.artifact ∧ (path, bytes) ∈ files ∧
      IsListed sha256 rows (path, bytes) := by
  obtain ⟨hfile, -, hread⟩ := readNamed_granted_iff.mp hread
  obtain ⟨raw, -, hparse⟩ := haccepted.metadata
  obtain ⟨text, rows', -, -, hlists, -⟩ := haccepted.manifest
  have hm := (parseMeta_eq_ok_iff.mp hparse).2.1
  refine (h.exists_listed hextracted (fun name hname => ?_) hread).resolve_right fun hnot => ?_
  · exact relative_ne_reserved hm hfile name (List.mem_cons_of_mem _ hname)
  · obtain ⟨row, hrow, hpath⟩ := List.mem_map.mp hlists.artifact
    obtain ⟨bytes', hbytes', -⟩ := hlists.digest row hrow
    exact hnot.2 _ hbytes' (congrArg relative hpath)

/-- The manifest next to the artifact of a signed bundle is a file that is listed, or was there
before. -/
theorem SignedBundle.exists_manifest {files : List (String × List UInt8)}
    {rows : List (String × String)} (h : SignedBundle sha256 ed25519 files rows key)
    (hextracted : Extracted before staging files tree) {artifact raw : String}
    (hraw : (stagedSource refuses load tree staging artifact).manifest = some raw) :
    (∃ path, relative path = (relative artifact).dropLast ++ ["plugin.toml"] ∧
      (path, encode raw) ∈ files ∧ IsListed sha256 rows (path, encode raw)) ∨
      before.read (staging ++ ((relative artifact).dropLast ++ ["plugin.toml"])) =
        some (encode raw) := by
  obtain ⟨-, hread⟩ := readToString_eq_some_iff.mp hraw
  rw [List.append_assoc] at hread
  refine (h.exists_listed hextracted (fun name hname hnames => ?_) hread).imp_right And.left
  have hlast := congrArg List.getLast? hnames
  rw [List.getLast?_concat, List.getLast?_singleton, Option.some_inj] at hlast
  subst hlast
  exact absurd hname (by decide)

variable [DecidableEq Key]

/-- **What is in the store after a bundle was installed under a key**: files of the bundle, which is
signed under that key. -/
theorem inStore_of_installBundle
    (hok : installBundleWithKey toml refuses root sha256 ed25519 load archive opts (some key)
      staging before = (.ok v, tree)) :
    ∃ entries rows m, readEntries archive = .ok entries ∧
      SignedBundle sha256 ed25519 entries.toList rows key ∧
      InStore toml refuses root sha256 opts entries.toList rows m staging before v tree := by
  obtain ⟨tree₂, hstage, rfl⟩ := installBundleWithKey_eq_ok_iff.mp hok
  obtain ⟨verified, tree₁, hverify, hsigned, hinstall, heq⟩ := stageAndInstall_eq_ok_iff.mp hstage
  have htrue : verified.signed = true := by
    cases hflag : verified.signed with
    | false => exact absurd ⟨rfl, hflag⟩ hsigned
    | true => rfl
  obtain ⟨entries, hentries, haccepted, hpacked, hextracted⟩ := extracted_of_verifyBundle hverify
  obtain ⟨rows, hbundle⟩ := haccepted.exists_signedBundle hpacked htrue
  have hsame := sameOutside_verifyBundle hverify
  refine ⟨entries, rows, verified.metadata, hentries, hbundle, ?_⟩
  obtain ⟨bytes, hbytes, hcopied⟩ := exists_copied hinstall
  obtain ⟨e, -, herror, -⟩ | ⟨m, hcheck, hchanged, hdone⟩ := install_cases hinstall
  · cases herror
  obtain ⟨rfl, hcommitted⟩ := hdone _ rfl
  obtain ⟨-, raw, parsed, hraw, hparse, hmeta, -⟩ :=
    sourceMeta_eq_ok_iff.mp (checkInstall_eq_ok_iff.mp hcheck).1
  obtain ⟨raw₀, hraw₀, hparse₀⟩ := haccepted.metadata
  have hlisted :=
    (hbundle.listed _ hraw₀).resolve_right (show "plugin.toml" ∉ unlistedPaths by decide)
  obtain ⟨text, hwrite, hmanifest⟩ := hcommitted.manifest
  refine ⟨heq.trans htrue, ⟨raw₀, hraw₀, hlisted, hparse₀⟩,
    ⟨raw, parsed, hparse, hmeta, hbundle.exists_manifest hextracted hraw⟩, fun stored hread => ?_,
    fun stored hread => ?_, fun hbelow habove hnoalias => ?_, fun path hstaging hplugin => ?_⟩
  · have hsome := hmanifest.symm.trans (read_of_removeAll hread)
    exact ⟨text, hwrite, (Option.some.inj hsome).symm⟩
  · rw [hcopied stored (read_of_removeAll hread)]
    exact hbundle.exists_artifact haccepted hextracted hbytes
  · have hapart := not_prefix_append hbelow habove
    have hshown (old : PluginMeta)
        (hold : showMeta toml refuses root tree₁ v.metadata.id = some old) :
        showMeta toml refuses root before v.metadata.id = some old := by
      rw [showMeta_eq_some_iff] at hold ⊢
      exact (Stored.congr (hsame.read_eq (hapart _))).mp hold
    obtain ⟨copied, -, hartifact⟩ :=
      hcommitted.artifact fun old hold => hnoalias old (hshown old hold)
    rw [read_removeAll (hapart _), read_removeAll (hapart _), hmanifest, hartifact]
    exact ⟨rfl, rfl⟩
  · rw [read_removeAll hstaging, hchanged.outside.read_eq hplugin, hsame.read_eq hstaging]

variable (toml refuses root sha256 ed25519 load archive opts staging before) in
/-- **Installed means signed.** What an installation under a key leaves in the store comes from
files that the manifest of the bundle lists with their digests, and the manifest is signed under
that key. Verifying a bundle changes nothing outside the directory of its files, except that the
directories above it may be made, and nothing at all if a check of the bundle fails. -/
theorem installed_signed :
    (∀ key v tree, installBundleWithKey toml refuses root sha256 ed25519 load archive opts
        (some key) staging before = (.ok v, tree) →
      ∃ entries rows m, readEntries archive = .ok entries ∧
        SignedBundle sha256 ed25519 entries.toList rows key ∧
        InStore toml refuses root sha256 opts entries.toList rows m staging before v tree) ∧
    ∀ required,
      SameOutside staging before
        (verifyBundle toml refuses sha256 ed25519 archive staging required before).2 ∧
      ∀ e, checkBundle toml sha256 ed25519 archive required = .error e →
        verifyBundle toml refuses sha256 ed25519 archive staging required before =
          (.error e, before) :=
  ⟨fun _ _ _ hok => inStore_of_installBundle hok, fun required =>
    ⟨keeps_verifyBundle archive staging required before,
      fun _ hcheck => verifyBundle_of_checkBundle hcheck before⟩⟩

end

/-- The signed bundle of the team is installed under its key. -/
theorem installed_signed_team : ∃ tree,
    installBundleWithKey teamToml (fun _ _ => none) ["plugins"] Sha256.digest teamEd25519
        (fun _ _ => .ok ()) (archiveOf (teamFiles (some ()))) ⟨none, false⟩ (some teamKey) ["tmp"]
        .empty = (.ok ⟨teamMeta, true⟩, tree) ∧
      ∃ entries rows m, readEntries (archiveOf (teamFiles (some ()))) = .ok entries ∧
        SignedBundle Sha256.digest teamEd25519 entries.toList rows teamKey ∧
        InStore teamToml (fun _ _ => none) ["plugins"] Sha256.digest ⟨none, false⟩ entries.toList
          rows m ["tmp"] .empty ⟨teamMeta, true⟩ tree := by
  have hplace : Workplace (fun _ _ => none) ["plugins"] teamMeta.id ["tmp"] .empty :=
    ⟨fun _ _ => rfl, fresh_empty (by decide), fresh_empty (by decide), by decide, by decide⟩
  have hteam : Installable (fun _ _ => .ok ()) teamMeta ruleModule :=
    ⟨relative_team, by decide, by decide, by decide, rfl⟩
  have hkey : ∀ sk ∈ some (), ∀ k ∈ some teamKey,
      teamEd25519.keyOf (teamSigner.publicKey sk) = some k := by
    rintro _ _ k hk
    rw [← Option.some.inj hk]
    exact if_pos rfl
  have hparse : teamToml.parse teamText = .ok teamMeta := TomlCrate.parse_single _ _
  have hwrite : teamToml.write teamMeta = .ok teamText := TomlCrate.write_single _ _
  obtain ⟨tree, hinstall⟩ := hteam.exists_installBundle teamMeta_basic rfl hparse signs_team hplace
    hkey hwrite (fun _ => rfl) false
  exact ⟨tree, hinstall, (installed_signed teamToml (fun _ _ => none) ["plugins"] Sha256.digest
    teamEd25519 (fun _ _ => .ok ()) (archiveOf (teamFiles (some ()))) ⟨none, false⟩ ["tmp"]
    .empty).1 teamKey _ tree hinstall⟩

end SorobanDevkit.Audit
