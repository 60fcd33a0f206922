import SorobanDevkit.Audit.BundleInstall

/-!
# What verifying a bundle does

A bundle that fails a check changes nothing. One that passes the checks is extracted, which fails if
a path is above another or ends like that of a directory, and then leaves its directory behind
(`sdkt-audit/src/plugin_store.rs`).

## Main definitions

* `Writable` — the files can be written one after another.

## Main results

* `Extracted.prefixFree` — no path of a file that was extracted is above another.
* `get?_verifyBundle` — the directory of a bundle that passes the checks is there.
* `verifyBundle_outcome` — what verifying a bundle does, whatever the archive.
-/

namespace SorobanDevkit.Audit

open Except Strings Utf8Lossy
open Effect (lift ask)

section

variable {refuses : Refusals} {destination : List String} {files : List (String × List UInt8)}
  {before tree : FileTree}

/-- No path of a file that was extracted is above another. -/
theorem Extracted.prefixFree (h : Extracted before destination files tree) : PrefixFree files := by
  intro file hfile file' hfile' hpre
  by_contra hne
  obtain ⟨f, hf⟩ := LastWrite.exists_lastOf (p := fun f => relative f.1 = relative file.1) hfile rfl
  obtain ⟨f', hf'⟩ :=
    LastWrite.exists_lastOf (p := fun f => relative f.1 = relative file'.1) hfile' rfl
  have hread := h.read (relative file.1)
  have hread' := h.read (relative file'.1)
  rw [hf, Option.map_some, Option.some_or] at hread
  rw [hf', Option.map_some, Option.some_or] at hread'
  have hdir := tree.isDir_of_prefix ((List.prefix_append_right_inj destination).mpr hpre)
    (fun heq => hne (List.append_cancel_left heq)) (FileTree.read_eq_some_iff.mp hread')
  rw [FileTree.read, hdir] at hread
  cases hread

/-- A directory stays one. -/
def KeepsDir (dir : List String) (tree tree' : FileTree) : Prop :=
  tree.get? dir = some .dir → tree'.get? dir = some .dir

theorem keepsDir_extractEntry (dir : List String) (file : String × List UInt8) :
    Effect.Keeps (KeepsDir dir) (extractEntry refuses destination file) := by
  have hrefl (tree : FileTree) : KeepsDir dir tree tree := id
  refine .bind (fun _ _ _ h h' hdir => h' (h hdir)) (Disk.keeps_makeDirs hrefl ?_) fun _ => ?_
  · intro tree tree' hmade hdir
    rw [FileTree.get?_makeDirs hmade, hdir, ite_self]
  · refine .lift_bind hrefl fun _ _ => Disk.keeps_write hrefl fun tree tree' hwritten hdir => ?_
    rw [FileTree.get?_write hwritten, if_neg, hdir]
    rintro rfl
    exact (FileTree.exists_write_iff.mp ⟨tree', hwritten⟩).2 hdir

/-- The directory of an extraction is there once it could be made, whatever comes of the files. -/
theorem get?_extract (hdisk : ∀ access path, refuses access path = none)
    (hfresh : Fresh tree destination) (entries : BundleEntries) :
    (extract refuses destination entries tree).2.get? destination = some .dir := by
  obtain ⟨tree₁, hmade⟩ := FileTree.exists_makeDirs_iff.mpr hfresh.above
  have hfirst : Disk.makeDirs refuses destination tree = (.ok (), tree₁) :=
    Disk.makeDirs_eq_ok_iff.mpr ⟨hdisk _ _, hmade⟩
  have hkeeps : Effect.Keeps (KeepsDir destination)
      (Effect.each (extractEntry refuses destination) entries.toList) :=
    .each (fun _ => id) (fun _ _ _ h h' hdir => h' (h hdir))
      fun file _ => keepsDir_extractEntry destination file
  rw [extract, Effect.bind_of_ok hfirst]
  exact hkeeps tree₁ (by rw [FileTree.get?_makeDirs hmade, if_pos List.prefix_rfl])

end

/-! ### What is verified -/

/-- The files can be written one after another: no path is above another or ends like that of a
directory. -/
structure Writable (files : List (String × List UInt8)) : Prop where
  prefixFree : PrefixFree files
  file : ∀ file ∈ files, namesDirectory file.1 = false

section

variable {Key Signature : Type} [DecidableEq Key] {toml : TomlCrate} {refuses : Refusals}
  {sha256 : List UInt8 → Vector UInt8 32} {ed25519 : Ed25519 Key Signature} {archive : Archive}
  {staging : List String} {before : FileTree} {v : BundleVerification}

/-- Verifying a bundle changes nothing outside the directory of its files. -/
theorem keeps_verifyBundle (archive : Archive) (staging : List String) (required : Option Key) :
    Effect.Keeps (SameOutside staging)
      (verifyBundle toml refuses sha256 ed25519 archive staging required) :=
  .lift_bind SameOutside.refl fun checked _ =>
    .bind SameOutside.trans (keeps_io (keeps_extract checked.2)) fun _ =>
      Effect.keeps_pure SameOutside.refl _

/-- A bundle that fails a check changes nothing. -/
theorem verifyBundle_of_checkBundle {required : Option Key} {e : StoreError}
    (h : checkBundle toml sha256 ed25519 archive required = .error e) (tree : FileTree) :
    verifyBundle toml refuses sha256 ed25519 archive staging required tree = (.error e, tree) :=
  Effect.bind_of_error (by rw [lift, h])

/-- The directory of a bundle that passes the checks is there, whatever comes of its files. -/
theorem get?_verifyBundle (hdisk : ∀ access path, refuses access path = none)
    (hfresh : Fresh before staging) {required : Option Key} {entries : BundleEntries}
    (h : checkBundle toml sha256 ed25519 archive required = .ok (v, entries)) :
    (verifyBundle toml refuses sha256 ed25519 archive staging required before).2.get? staging =
      some .dir := by
  have hlift : (lift (checkBundle toml sha256 ed25519 archive required) :
      Effect FileTree StoreError (BundleVerification × BundleEntries)) before =
        (.ok (v, entries), before) := by rw [lift, h]
  have hstate : (verifyBundle toml refuses sha256 ed25519 archive staging required before).2 =
      (extract refuses staging entries before).2 := by
    rw [verifyBundle, Effect.bind_of_ok hlift]
    exact congrArg Prod.snd
      (Effect.bind_pure_apply (io (extract refuses staging entries)) (fun _ => v) before)
  rw [hstate]
  exact get?_extract hdisk hfresh entries

/-- The entries of a bundle that passes the checks have safe paths. -/
theorem safe_of_checkBundle {required : Option Key} {entries : BundleEntries}
    (h : checkBundle toml sha256 ed25519 archive required = .ok (v, entries)) :
    ∀ file ∈ entries.toList, isSafeRelativePath file.1 = true := by
  obtain ⟨items, files, -, hitems, hfiles, -⟩ := checkBundle_eq_ok_iff.mp h
  exact fun file hfile => safe_of_forall₂ hitems file (hfiles.mem_toList_iff.mp hfile)

/-- The files of a bundle that is accepted pass the checks. -/
theorem Accepted.exists_checkBundle {files : List (String × List UInt8)} {required : Option Key}
    (h : Accepted toml sha256 ed25519 files required v) (hfiles : Packed files) :
    ∃ entries, checkBundle toml sha256 ed25519 (archiveOf files) required = .ok (v, entries) ∧
      ∀ file, file ∈ entries.toList ↔ file ∈ files := by
  obtain ⟨entries, hentries⟩ := UniqueKeys.exists_holds h.nodup
  exact ⟨entries, checkBundle_eq_ok_iff.mpr
    ⟨_, files, rfl, forall₂_isFile_iff.mpr ⟨rfl, hfiles.safe⟩, hentries, h⟩,
    fun _ => hentries.mem_toList_iff⟩

/-- What is in the directory of a bundle that is verified. -/
structure Unpacked (files : List (String × List UInt8)) (destination : List String)
    (before tree : FileTree) : Prop where
  read : ∀ names, tree.read (destination ++ names) =
    (LastWrite.lastOf files (relative ·.1 = names)).map (·.2)
  there : ∀ names, (tree.get? (destination ++ names)).isSome = true ↔
    names = [] ∨ ∃ file ∈ files, names <+: relative file.1
  outside : SameOutside destination before tree

/-- **What verifying a bundle does.** A bundle that fails a check changes nothing. One that passes
them is extracted exactly if its files are writable: there are its files and nothing else. Otherwise
its directory is left behind. -/
theorem verifyBundle_outcome (hdisk : ∀ access path, refuses access path = none)
    (hfresh : Fresh before staging) (required : Option Key) :
    (∀ e, checkBundle toml sha256 ed25519 archive required = .error e →
      verifyBundle toml refuses sha256 ed25519 archive staging required before =
        (.error e, before)) ∧
    ∀ v entries, checkBundle toml sha256 ed25519 archive required = .ok (v, entries) →
      (Writable entries.toList → ∃ tree,
        verifyBundle toml refuses sha256 ed25519 archive staging required before = (.ok v, tree) ∧
        Unpacked entries.toList staging before tree) ∧
      (¬ Writable entries.toList → ∃ e tree,
        verifyBundle toml refuses sha256 ed25519 archive staging required before =
          (.error e, tree) ∧
        tree.get? staging = some .dir ∧ SameOutside staging before tree) := by
  refine ⟨fun e he => verifyBundle_of_checkBundle he before, fun v entries hcheck => ?_⟩
  have hsafe := safe_of_checkBundle hcheck
  refine ⟨fun hwritable => ?_, fun hnot => ?_⟩
  · obtain ⟨tree, hextract⟩ :=
      exists_extract hdisk hfresh hsafe hwritable.file hwritable.prefixFree
    have hok := verifyBundle_eq_ok_iff.mpr ⟨entries, hcheck, hextract⟩
    have hextracted := (extracted_of_ok hsafe hextract).1
    exact ⟨tree, hok, hextracted.read_of_fresh hfresh, hextracted.there_of_fresh hfresh,
      sameOutside_verifyBundle hok⟩
  · have hdir := get?_verifyBundle hdisk hfresh hcheck
    have hsame : SameOutside staging before
        (verifyBundle toml refuses sha256 ed25519 archive staging required before).2 :=
      keeps_verifyBundle archive staging required before
    cases hverify : verifyBundle toml refuses sha256 ed25519 archive staging required before with
    | mk result tree =>
      rw [hverify] at hdir hsame
      cases result with
      | error e => exact ⟨e, tree, rfl, hdir, hsame⟩
      | ok v' =>
        obtain ⟨entries', hcheck', hextract⟩ := verifyBundle_eq_ok_iff.mp hverify
        rw [hcheck] at hcheck'
        cases hcheck'
        obtain ⟨hextracted, hfile⟩ := extracted_of_ok hsafe hextract
        exact absurd ⟨hextracted.prefixFree, hfile⟩ hnot

end

/-- The bundle of the team is unpacked into a new directory. -/
theorem unpacked_team : ∃ entries tree,
    checkBundle teamToml Sha256.digest teamEd25519 (archiveOf (teamFiles (some ()))) none =
      .ok (⟨teamMeta, true⟩, entries) ∧
    verifyBundle teamToml (fun _ _ => none) Sha256.digest teamEd25519
        (archiveOf (teamFiles (some ()))) ["out"] none .empty = (.ok ⟨teamMeta, true⟩, tree) ∧
      Unpacked entries.toList ["out"] .empty tree := by
  have hroot := isRoot_teamFiles (some ())
  obtain ⟨entries, hcheck, hmem⟩ := (accepted_teamFiles (some ())).exists_checkBundle
    (packed_packedFiles teamMeta_basic relative_team)
  have hentries : ∀ file ∈ entries.toList, IsRoot file.1 := fun file hfile =>
    hroot file ((hmem file).mp hfile)
  obtain ⟨tree, hok, hunpacked⟩ := ((verifyBundle_outcome (fun _ _ => rfl)
    (fresh_empty (List.cons_ne_nil "out" [])) none).2 _ _ hcheck).1
    ⟨prefixFree_of_isRoot hentries, fun file hfile => (hentries file hfile).file⟩
  exact ⟨entries, tree, hcheck, hok, hunpacked⟩

end SorobanDevkit.Audit
