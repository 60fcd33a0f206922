import SorobanDevkit.Audit.BundlePack
import SorobanDevkit.Audit.StoreRuns
import SorobanDevkit.Library.Sha256

/-!
# The two verifiers of a manifest

A bundle is verified before it is extracted, and the doctor verifies the directory that it was
extracted into. Each of them reads the manifest in its own way: what one accepts is what the other
accepts under conditions on the files and on the lines of the manifest.

## Main results

* `verifyDirManifest_eq_ok_iff` — the directories that the doctor accepts.
* `verifyDirManifest_extracted_iff` — the extracted bundles that the doctor accepts.
* `verifyBundle_packed_iff` — the accepted directories whose bundles are accepted.
* `verifiers_agree_iff` — both.
-/

namespace SorobanDevkit.Audit

open Except Strings Utf8Lossy

section

variable {Key Signature : Type} (sha256 : List UInt8 → Vector UInt8 32)
  (ed25519 : Ed25519 Key Signature) (tree : FileTree) (dir : List String)

/-! ### The directories that the doctor accepts -/

/-- The path of a row is safe, and the file under it has the digest of the row. -/
def HasDigest (row : String × String) : Prop :=
  isSafeRelativePath row.1 = true ∧ namesDirectory row.1 = false ∧
    ∃ bytes, tree.read (dir ++ relative row.1) = some bytes ∧ digestHex sha256 bytes = row.2

/-- A line of a manifest covers a path, or is blank. -/
def Covers (line : String) (covered : Option String) : Prop :=
  if trim line = "" then covered = none
  else ∃ row, dirLine line = some (row.2, row.1) ∧ HasDigest sha256 tree dir row ∧
    covered = some row.1

/-- A directory is signed, or has neither a signature nor a key. -/
def DirSigned (manifest : List UInt8) : Bool → Prop
  | false => tree.get? (dir ++ ["signature.ed25519"]) = none ∧
      tree.get? (dir ++ ["public_key.ed25519"]) = none
  | true => ∃ raw sig keyBytes key, tree.read (dir ++ ["signature.ed25519"]) = some raw ∧
      ed25519.signatureFromSlice raw = some sig ∧
      tree.read (dir ++ ["public_key.ed25519"]) = some keyBytes ∧
      ed25519.keyOf keyBytes = some key ∧ ed25519.verify key manifest sig = true

variable {sha256 ed25519 tree dir} {refuses : Refusals}

theorem read_eq_ok_iff (hdisk : ∀ access path, refuses access path = none) {path : List String}
    {bytes : List UInt8} :
    Disk.read refuses tree path = .ok bytes ↔ tree.read path = some bytes := by
  rw [Disk.read, Refusals.grant_eq_ok_iff]
  exact and_iff_right (hdisk _ _)

theorem isThere_eq (hdisk : ∀ access path, refuses access path = none) (path : List String) :
    Disk.isThere refuses tree path = (tree.get? path).isSome := by
  rw [Disk.isThere, hdisk, Option.isNone_none, Bool.true_and]

theorem isThere_of_read {path : List String} {bytes : List UInt8}
    (h : tree.read path = some bytes) : (tree.get? path).isSome = true := by
  rw [FileTree.read_eq_some_iff.mp h]
  rfl

theorem checkLine_eq_ok_iff (hdisk : ∀ access path, refuses access path = none) {line : String}
    {covered : Option String} :
    checkLine refuses sha256 tree dir line = .ok covered ↔ Covers sha256 tree dir line covered := by
  rw [checkLine, Covers]
  split
  · rw [Except.ok.injEq, eq_comm]
  · simp only [bind_eq_ok_iff, present_eq_ok_iff, ensure_eq_ok_iff, mapError_eq_ok_iff, readNamed,
      read_eq_ok_iff hdisk, HasDigest]
    constructor
    · rintro ⟨⟨digest, path⟩, hline, -, hsafe, bytes, ⟨-, hfile, hread⟩, -, hdigest, heq⟩
      cases heq
      exact ⟨(path, digest), hline, ⟨hsafe, hfile, bytes, hread, hdigest⟩, rfl⟩
    · rintro ⟨⟨path, digest⟩, hline, ⟨hsafe, hfile, bytes, hread, hdigest⟩, rfl⟩
      exact ⟨(digest, path), hline, (), hsafe, bytes, ⟨(), hfile, hread⟩, (), hdigest, rfl⟩

theorem verifyDirSignature_eq_ok_iff (hdisk : ∀ access path, refuses access path = none)
    {manifest : List UInt8} {signed : Bool} :
    verifyDirSignature refuses ed25519 tree dir manifest = .ok signed ↔
      DirSigned ed25519 tree dir manifest signed := by
  simp only [verifyDirSignature, bind_eq_ok_iff, ensure_eq_ok_iff, isThere_eq hdisk]
  by_cases hthere : (tree.get? (dir ++ ["signature.ed25519"])).isSome = true ∧
      (tree.get? (dir ++ ["public_key.ed25519"])).isSome = true
  · simp only [if_pos hthere, bind_eq_ok_iff, present_eq_ok_iff, ensure_eq_ok_iff,
      read_eq_ok_iff hdisk]
    cases signed with
    | false =>
      refine iff_of_false ?_ fun h => ?_
      · rintro ⟨-, -, -, -, -, -, -, -, -, -, -, -, heq⟩
        cases heq
      · rw [h.1] at hthere
        exact Bool.false_ne_true hthere.1
    | true =>
      constructor
      · rintro ⟨-, -, raw, hraw, keyBytes, hkeyBytes, sig, hsig, key, hkey, -, hverify, -⟩
        exact ⟨raw, sig, keyBytes, key, hraw, hsig, hkeyBytes, hkey, hverify⟩
      · rintro ⟨raw, sig, keyBytes, key, hraw, hsig, hkeyBytes, hkey, hverify⟩
        exact ⟨(), hthere.1.trans hthere.2.symm, raw, hraw, keyBytes, hkeyBytes, sig, hsig, key,
          hkey, (), hverify, rfl⟩
  · simp only [if_neg hthere]
    cases signed with
    | false =>
      constructor
      · rintro ⟨-, hsame, -⟩
        rw [← hsame, and_self] at hthere
        have hnone := Option.not_isSome_iff_eq_none.mp hthere
        rw [hnone, Option.isSome_none] at hsame
        exact ⟨hnone, Option.isNone_iff_eq_none.mp (Option.isSome_eq_false_iff.mp hsame.symm)⟩
      · rintro ⟨hsig, hkey⟩
        exact ⟨(), by rw [hsig, hkey], rfl⟩
    | true =>
      refine iff_of_false ?_ ?_
      · rintro ⟨-, -, heq⟩
        cases heq
      · rintro ⟨raw, sig, keyBytes, key, hraw, -, hkeyBytes, -⟩
        exact hthere ⟨isThere_of_read hraw, isThere_of_read hkeyBytes⟩

theorem forM_required_eq_ok_iff {covered : List (Option String)} {artifact : String} {u : Unit} :
    (["plugin.toml", artifact].forM fun required =>
        ensure (some required ∈ covered) ("manifest does not cover '" ++ required ++ "'")) = .ok u ↔
      some "plugin.toml" ∈ covered ∧ some artifact ∈ covered := by
  cases u
  simp only [forM_eq_ok_iff, ensure_eq_ok_iff, List.forall_mem_cons, List.not_mem_nil,
    IsEmpty.forall_iff, implies_true, and_true]

/-- **The directories that the doctor accepts.** -/
theorem verifyDirManifest_eq_ok_iff (hdisk : ∀ access path, refuses access path = none)
    {artifact : String} {signed : Bool} :
    verifyDirManifest refuses sha256 ed25519 tree dir artifact = .ok signed ↔
      ∃ text covered, tree.read (dir ++ ["manifest.sha256"]) = some (encode text) ∧
        List.Forall₂ (Covers sha256 tree dir) (lines text) covered ∧
        (some "plugin.toml" ∈ covered ∧ some artifact ∈ covered) ∧
        DirSigned ed25519 tree dir (encode text) signed := by
  simp only [verifyDirManifest, bind_eq_ok_iff, present_eq_ok_iff, read_eq_ok_iff hdisk,
    fromUtf8_eq_some_iff, mapM_eq_ok_iff, checkLine_eq_ok_iff hdisk, forM_required_eq_ok_iff,
    verifyDirSignature_eq_ok_iff hdisk]
  constructor
  · rintro ⟨manifest, hread, text, rfl, covered, hlines, -, hrequired, hsigned⟩
    exact ⟨text, covered, hread, hlines, hrequired, hsigned⟩
  · rintro ⟨text, covered, hread, hlines, hrequired, hsigned⟩
    exact ⟨encode text, hread, text, rfl, covered, hlines, (), hrequired, hsigned⟩

end

/-! ### The rows of a manifest -/

/-- A hexadecimal digit is not whitespace. -/
theorem isWhitespace_of_decodeDigit {c : Char} (h : (Hex.decodeDigit c).isSome = true) :
    isWhitespace c = false := by
  have hrange : '0' ≤ c ∧ c ≤ '9' ∨ 'a' ≤ c ∧ c ≤ 'f' ∨ 'A' ≤ c ∧ c ≤ 'F' := by
    rw [Hex.decodeDigit] at h
    split_ifs at h with hdigit hlower hupper
    · exact .inl hdigit
    · exact .inr (.inl hlower)
    · exact .inr (.inr hupper)
    · cases h
  have hcode : 48 ≤ c.toNat ∧ c.toNat ≤ 57 ∨ 97 ≤ c.toNat ∧ c.toNat ≤ 102 ∨
    65 ≤ c.toNat ∧ c.toNat ≤ 70 := hrange
  simp only [isWhitespace, Bool.or_eq_false_iff, Bool.and_eq_false_iff, decide_eq_false_iff_not,
    beq_eq_false_iff_ne]
  omega

/-- A line is not blank, and is divided by two spaces. -/
def Divided (line : String) (row : String × String) : Prop :=
  trim line ≠ "" ∧ splitOnce line "  " = some (row.2, row.1)

/-- A row of a bundle is not blank. -/
theorem IsRow.divided {line : String} {row : String × String} (h : IsRow line row) :
    Divided line row := by
  obtain ⟨hsplit, hdigest, -⟩ := h
  obtain ⟨⟨before, after⟩, haux, heq⟩ := Option.map_eq_some_iff.mp hsplit
  rw [isDigest, Bool.and_eq_true, decide_eq_true_iff, List.all_eq_true] at hdigest
  have hbefore : row.2.toList = before := by
    rw [← (Prod.mk.inj heq).1, String.toList_ofList]
  obtain ⟨c, cs, hcons⟩ := List.exists_cons_of_length_pos (by omega : 0 < row.2.toList.length)
  have hc : c ∈ row.2.toList := hcons ▸ List.mem_cons_self
  exact ⟨trim_ne_empty ((prefix_of_splitOnceAux haux).subset (hbefore ▸ hc))
    (isWhitespace_of_decodeDigit (hdigest.2 c hc)), hsplit⟩

section

variable {Key Signature : Type} {toml : TomlCrate} {refuses : Refusals}
  {sha256 : List UInt8 → Vector UInt8 32} {ed25519 : Ed25519 Key Signature}
  {tree : FileTree} {dir : List String}

/-- A line that is divided by two spaces covers what a bundle reads there. -/
theorem covers_iff {line : String} {row : String × String} (h : Divided line row)
    {covered : Option String} : Covers sha256 tree dir line covered ↔
      HasDigest sha256 tree dir row ∧ covered = some row.1 := by
  rw [Covers, if_neg h.1, dirLine, h.2, Option.some_or]
  constructor
  · rintro ⟨row', heq, hdigest, rfl⟩
    obtain ⟨hdigest', hpath⟩ := Prod.mk.inj (Option.some.inj heq)
    obtain rfl : row = row' := Prod.ext hpath hdigest'
    exact ⟨hdigest, rfl⟩
  · rintro ⟨hdigest, rfl⟩
    exact ⟨row, rfl, hdigest, rfl⟩

theorem forall₂_covers_iff {ls : List String} {rows : List (String × String)}
    (h : List.Forall₂ Divided ls rows) {covered : List (Option String)} :
    List.Forall₂ (Covers sha256 tree dir) ls covered ↔
      (∀ row ∈ rows, HasDigest sha256 tree dir row) ∧ covered = rows.map fun row => some row.1 := by
  induction h generalizing covered with
  | nil => simp [List.forall₂_nil_left_iff]
  | cons hline _ ih =>
    rw [List.forall₂_cons_left_iff, List.forall_mem_cons, List.map_cons]
    constructor
    · rintro ⟨c, cs, hc, hcs, rfl⟩
      obtain ⟨hdigest, rfl⟩ := (covers_iff hline).mp hc
      obtain ⟨hdigests, rfl⟩ := ih.mp hcs
      exact ⟨⟨hdigest, hdigests⟩, rfl⟩
    · rintro ⟨⟨hdigest, hdigests⟩, rfl⟩
      exact ⟨_, _, (covers_iff hline).mpr ⟨hdigest, rfl⟩, ih.mpr ⟨hdigests, rfl⟩, rfl⟩

/-! ### Extracted bundles -/

variable {before : FileTree} {destination : List String} {files : List (String × List UInt8)}
  {required : Option Key} {v : BundleVerification}

variable (sha256 files) in
/-- Files that are written to one path have one digest. -/
def OneDigest : Prop :=
  ∀ file ∈ files, ∀ file' ∈ files, relative file.1 = relative file'.1 →
    sha256 file.2 = sha256 file'.2

variable (before destination files) in
/-- There is neither a signature nor a key in a directory, and no file makes one. -/
def Unsigned : Prop :=
  ∀ name ∈ ["signature.ed25519", "public_key.ed25519"],
    before.get? (destination ++ [name]) = none ∧
      ∀ file ∈ files, (relative file.1).head? ≠ some name

/-- A file in the root of a bundle is written once. -/
theorem Packed.eq_of_relative (h : Packed files) {file : String × List UInt8} (hfile : file ∈ files)
    {name : String} {bytes : List UInt8} (hmem : (name, bytes) ∈ files)
    (hrel : relative file.1 = [name]) : file = (name, bytes) :=
  List.inj_on_of_nodup_map h.nodup hfile hmem
    (eq_of_relative_singleton (h.safe file hfile) (h.file file hfile) hrel)

theorem Extracted.read_named (h : Extracted before destination files tree) (hfiles : Packed files)
    {name : String} {bytes : List UInt8} (hname : relative name = [name])
    (hmem : (name, bytes) ∈ files) : tree.read (destination ++ [name]) = some bytes := by
  obtain ⟨file, hlast⟩ := LastWrite.exists_lastOf
    (p := fun file => relative file.1 = [name]) hmem hname
  obtain ⟨hfile, hrel⟩ := LastWrite.lastOf_eq_some hlast
  rw [h.read, hlast, hfiles.eq_of_relative hfile hmem hrel]
  rfl

theorem Extracted.get?_eq_none_iff (h : Extracted before destination files tree) {name : String} :
    tree.get? (destination ++ [name]) = none ↔ before.get? (destination ++ [name]) = none ∧
      ∀ file ∈ files, (relative file.1).head? ≠ some name := by
  have hhead {names : List String} : [name] <+: names ↔ names.head? = some name := by
    cases names with
    | nil => simp
    | cons first rest => simp [eq_comm]
  rw [← Option.not_isSome_iff_eq_none, h.there, ← Option.not_isSome_iff_eq_none]
  simp only [hhead, not_or, not_exists, not_and, List.cons_ne_self, not_false_iff, true_and, ne_eq]

/-- A listed file has the digest of what is written to its path. -/
theorem Lists.exists_read {artifact : String} {rows : List (String × String)}
    (hlists : Lists sha256 files artifact rows) (hfiles : Packed files)
    (h : ∀ row ∈ rows, HasDigest sha256 tree destination row) {file : String × List UInt8}
    (hfile : file ∈ files) (hlisted : file.1 ∈ rows.map Prod.fst) :
    ∃ bytes, tree.read (destination ++ relative file.1) = some bytes ∧
      sha256 bytes = sha256 file.2 := by
  obtain ⟨row, hrow, hpath⟩ := List.mem_map.mp hlisted
  obtain ⟨bytes, hbytes, hdigest⟩ := hlists.digest row hrow
  obtain ⟨-, -, written, hread, hwritten⟩ := h row hrow
  obtain rfl : (row.1, bytes) = file := List.inj_on_of_nodup_map hfiles.nodup hbytes hfile hpath
  exact ⟨written, hread, digestHex_eq_iff.mp (hwritten.trans hdigest)⟩

theorem relative_of_unlisted {name : String} (h : name ∈ unlistedPaths) :
    relative name = [name] :=
  (isRoot_of_reserved (List.mem_cons_of_mem "plugin.toml" h)).relative

/-- The digests of a manifest are those of the extracted files if no file is written over another
with another digest. -/
theorem Lists.hasDigest_iff {artifact : String} {rows : List (String × String)}
    (hlists : Lists sha256 files artifact rows) (hfiles : Packed files)
    (h : Extracted before destination files tree) :
    (∀ row ∈ rows, HasDigest sha256 tree destination row) ↔ OneDigest sha256 files := by
  constructor
  · intro hdigests file hfile file' hfile' hrel
    -- the files that are not listed have no other spelling
    rcases hlists.listed file hfile with hlisted | hname
    · rcases hlists.listed file' hfile' with hlisted' | hname'
      · obtain ⟨bytes, hread, hdigest⟩ := hlists.exists_read hfiles hdigests hfile hlisted
        obtain ⟨bytes', hread', hdigest'⟩ := hlists.exists_read hfiles hdigests hfile' hlisted'
        rw [hrel, hread', Option.some_inj] at hread
        rw [← hdigest, ← hdigest', hread]
      · rw [hfiles.eq_of_relative hfile hfile' (hrel.trans (relative_of_unlisted hname'))]
    · rw [hfiles.eq_of_relative hfile' hfile (hrel.symm.trans (relative_of_unlisted hname))]
  · intro hone row hrow
    obtain ⟨bytes, hbytes, hdigest⟩ := hlists.digest row hrow
    obtain ⟨file, hlast⟩ := LastWrite.exists_lastOf
      (p := fun file => relative file.1 = relative row.1) hbytes rfl
    obtain ⟨hfile, hrel⟩ := LastWrite.lastOf_eq_some hlast
    refine ⟨hfiles.safe _ hbytes, hfiles.file _ hbytes, file.2, ?_, ?_⟩
    · rw [h.read, hlast]
      rfl
    · rw [hdigest, digestHex_eq_iff]
      exact hone file hfile _ hbytes hrel

theorem Signed.dirSigned_iff {manifest : List UInt8} {signed : Bool}
    (hsigned : Signed ed25519 files manifest required signed) (hfiles : Packed files)
    (h : Extracted before destination files tree) :
    DirSigned ed25519 tree destination manifest signed ↔
      "signature.ed25519" ∈ files.map Prod.fst ∨ Unsigned before destination files := by
  cases signed with
  | false =>
    rw [or_iff_right hsigned]
    simp only [DirSigned, Unsigned, h.get?_eq_none_iff, List.forall_mem_cons, List.not_mem_nil,
      IsEmpty.forall_iff, implies_true, and_true]
  | true =>
    obtain ⟨raw, sig, keyBytes, key, hraw, hsig, hkeyBytes, hkey, -, hverify⟩ := hsigned
    refine iff_of_true ⟨raw, sig, keyBytes, key, ?_, hsig, ?_, hkey, hverify⟩
      (.inl (List.mem_map_of_mem hraw))
    · exact h.read_named hfiles (relative_of_unlisted (by simp [unlistedPaths])) hraw
    · exact h.read_named hfiles (relative_of_unlisted (by simp [unlistedPaths])) hkeyBytes

/-- The extracted files of an accepted bundle are accepted by the doctor if files that are written
to one path have one digest, and the bundle has a signature or nothing of one. -/
theorem Accepted.verifyDirManifest_iff (hdisk : ∀ access path, refuses access path = none)
    (haccepted : Accepted toml sha256 ed25519 files required v) (hfiles : Packed files)
    (h : Extracted before destination files tree) :
    verifyDirManifest refuses sha256 ed25519 tree destination v.metadata.artifact = .ok v.signed ↔
      OneDigest sha256 files ∧
        ("signature.ed25519" ∈ files.map Prod.fst ∨ Unsigned before destination files) := by
  obtain ⟨text, rows, hmanifest, hrows, hlists, hsigned⟩ := haccepted.manifest
  have htext : tree.read (destination ++ ["manifest.sha256"]) = some (encode text) :=
    h.read_named hfiles (relative_of_unlisted (by simp [unlistedPaths])) hmanifest
  have hdivided : List.Forall₂ Divided (lines text) rows := hrows.imp fun _ _ => IsRow.divided
  rw [verifyDirManifest_eq_ok_iff hdisk, ← hlists.hasDigest_iff hfiles h,
    ← hsigned.dirSigned_iff hfiles h]
  constructor
  · rintro ⟨text', covered, htext', hcovers, -, hdirSigned⟩
    rw [htext, Option.some_inj, encode_inj] at htext'
    subst htext'
    exact ⟨((forall₂_covers_iff hdivided).mp hcovers).1, hdirSigned⟩
  · rintro ⟨hdigests, hdirSigned⟩
    have hmem {path : String} (hpath : path ∈ rows.map Prod.fst) :
        some path ∈ rows.map fun row => some row.1 := by
      obtain ⟨row, hrow, rfl⟩ := List.mem_map.mp hpath
      exact List.mem_map_of_mem hrow
    exact ⟨text, _, htext, (forall₂_covers_iff hdivided).mpr ⟨hdigests, rfl⟩,
      ⟨hmem hlists.metadata, hmem hlists.artifact⟩, hdirSigned⟩

/-- **The extracted bundles that the doctor accepts**, with the same flag. -/
theorem verifyDirManifest_extracted_iff [DecidableEq Key]
    (hdisk : ∀ access path, refuses access path = none)
    {archive : Archive} {entries : BundleEntries} (hentries : readEntries archive = .ok entries)
    (hok : verifyBundle toml refuses sha256 ed25519 archive destination required before =
      (.ok v, tree)) :
    verifyDirManifest refuses sha256 ed25519 tree destination v.metadata.artifact = .ok v.signed ↔
      OneDigest sha256 entries.toList ∧
        ("signature.ed25519" ∈ entries ∨ Unsigned before destination entries.toList) := by
  obtain ⟨entries', hentries', haccepted, hfiles, hextracted⟩ := extracted_of_verifyBundle hok
  obtain rfl : entries' = entries := Except.ok.inj (hentries'.symm.trans hentries)
  rw [haccepted.verifyDirManifest_iff hdisk hfiles hextracted,
    Std.ExtTreeMap.map_fst_toList_eq_keys, Std.ExtTreeMap.mem_keys]

/-! ### Packed directories -/

/-- The files of a directory are those of a list. -/
def FilesAre (tree : FileTree) (dir : List String) (files : List (String × List UInt8)) : Prop :=
  ∀ names bytes, tree.read (dir ++ names) = some bytes ↔
    ∃ file ∈ files, relative file.1 = names ∧ file.2 = bytes

/-- The files of a directory are those that were extracted into it, if none was written over another
one. -/
theorem Extracted.filesAre (h : Extracted before destination files tree)
    (hfresh : Fresh before destination)
    (hone : ∀ file ∈ files, ∀ file' ∈ files, relative file.1 = relative file'.1 → file = file') :
    FilesAre tree destination files := by
  intro names bytes
  rw [h.read_of_fresh hfresh, Option.map_eq_some_iff]
  constructor
  · rintro ⟨file, hlast, rfl⟩
    obtain ⟨hfile, hrel⟩ := LastWrite.lastOf_eq_some hlast
    exact ⟨file, hfile, hrel, rfl⟩
  · rintro ⟨file, hfile, hrel, rfl⟩
    obtain ⟨file', hlast⟩ := LastWrite.exists_lastOf (p := fun file => relative file.1 = names)
      hfile hrel
    obtain ⟨hfile', hrel'⟩ := LastWrite.lastOf_eq_some hlast
    exact ⟨file', hlast, by rw [hone file' hfile' file hfile (hrel'.trans hrel.symm)]⟩

/-- What a bundle of files has to be, besides what the doctor looks at: its paths are safe and
different, its metadata is that of the artifact, each line of its manifest is divided by two spaces,
the paths there are different and those of the files, and no file but those of the signature is left
out. The key is the required one. -/
structure WellPacked (toml : TomlCrate) (ed25519 : Ed25519 Key Signature)
    (files : List (String × List UInt8)) (artifact : String) (required : Option Key) : Prop where
  packed : Packed files
  metadata : ∃ raw m, ("plugin.toml", encode raw) ∈ files ∧ parseMeta toml raw = .ok m ∧
    m.artifact = artifact
  manifest : ∃ text rows, ("manifest.sha256", encode text) ∈ files ∧
    List.Forall₂ Divided (lines text) rows ∧ (rows.map Prod.fst).Nodup ∧
    (∀ row ∈ rows, row.1 ∈ files.map Prod.fst) ∧
    ∀ file ∈ files, file.1 ∈ rows.map Prod.fst ∨ file.1 ∈ unlistedPaths
  key : ∀ k ∈ required, ∃ bytes, ("public_key.ed25519", bytes) ∈ files ∧
    ed25519.keyOf bytes = some k

/-- A file of a directory has the content that is read there. -/
theorem FilesAre.read (h : FilesAre tree dir files) {file : String × List UInt8}
    (hfile : file ∈ files) : tree.read (dir ++ relative file.1) = some file.2 :=
  (h _ _).mpr ⟨file, hfile, rfl, rfl⟩

/-- What is read in the root of a directory is a file under that name. -/
theorem FilesAre.mem_of_read (h : FilesAre tree dir files) (hfiles : Packed files) {name : String}
    {bytes : List UInt8} (hread : tree.read (dir ++ [name]) = some bytes) :
    (name, bytes) ∈ files := by
  obtain ⟨file, hfile, hrel, rfl⟩ := (h _ _).mp hread
  have hname := eq_of_relative_singleton (hfiles.safe file hfile) (hfiles.file file hfile) hrel
  rwa [← hname]

/-- A path in a directory of files is not above another. -/
theorem FilesAre.prefixFree (h : FilesAre tree dir files) : PrefixFree files := by
  intro file hfile file' hfile' hpre
  by_contra hne
  have hread := FileTree.read_eq_some_iff.mp (h.read hfile)
  have hread' := FileTree.read_eq_some_iff.mp (h.read hfile')
  rw [tree.isDir_of_prefix ((List.prefix_append_right_inj dir).mpr hpre)
    (fun heq => hne (List.append_cancel_left heq)) hread'] at hread
  cases hread

/-- The rows of lines that the doctor accepts are rows of a bundle. -/
theorem HasDigest.isRow {line : String} {row : String × String}
    (h : HasDigest sha256 tree dir row) (hline : Divided line row) : IsRow line row := by
  obtain ⟨hsafe, -, bytes, -, hdigest⟩ := h
  exact ⟨hline.2, hdigest ▸ isDigest_digestHex sha256 bytes, hsafe⟩


/-- A directory that the doctor accepts as signed is accepted as a bundle if it is well packed. -/
theorem WellPacked.exists_accepted {artifact : String}
    (h : WellPacked toml ed25519 files artifact required)
    (hdisk : ∀ access path, refuses access path = none) (hdir : FilesAre tree dir files)
    (hdoctor : verifyDirManifest refuses sha256 ed25519 tree dir artifact = .ok true) :
    ∃ m, m.artifact = artifact ∧ Accepted toml sha256 ed25519 files required ⟨m, true⟩ := by
  obtain ⟨raw, m, hraw, hparse, rfl⟩ := h.metadata
  obtain ⟨text, rows, htext, hdivided, hnodup, hnames, hlisted⟩ := h.manifest
  obtain ⟨text', covered, htext', hcovers, hrequired, hsigned⟩ :=
    (verifyDirManifest_eq_ok_iff hdisk).mp hdoctor
  have hread := hdir.read htext
  rw [relative_of_unlisted (by simp [unlistedPaths]), htext', Option.some_inj, encode_inj] at hread
  subst hread
  obtain ⟨hdigests, rfl⟩ := (forall₂_covers_iff hdivided).mp hcovers
  have hmem {path : String} (hpath : some path ∈ rows.map fun row => some row.1) :
      path ∈ rows.map Prod.fst := by
    obtain ⟨row, hrow, heq⟩ := List.mem_map.mp hpath
    exact List.mem_map.mpr ⟨row, hrow, Option.some.inj heq⟩
  refine ⟨m, rfl, h.packed.nodup, ⟨raw, hraw, hparse⟩, text', rows, htext, ?_,
    ⟨hnodup, hmem hrequired.1, hmem hrequired.2, fun row hrow => ?_, hlisted⟩, ?_⟩
  · have hboth := (List.forall₂_and_left _ _).mpr ⟨hdigests, hdivided.flip⟩
    exact hboth.flip.imp fun _ _ hrow => hrow.1.isRow hrow.2
  · obtain ⟨file, hfile, hpath⟩ := List.mem_map.mp (hnames row hrow)
    obtain ⟨-, -, bytes, hread, hdigest⟩ := hdigests row hrow
    rw [← hpath, hdir.read hfile, Option.some_inj] at hread
    exact ⟨file.2, hpath ▸ hfile, by rw [hread, hdigest]⟩
  · obtain ⟨sigBytes, sig, keyBytes, key, hsigBytes, hsig, hkeyBytes, hkey, hverify⟩ := hsigned
    have hkeyMem := hdir.mem_of_read h.packed hkeyBytes
    refine ⟨sigBytes, sig, keyBytes, key, hdir.mem_of_read h.packed hsigBytes, hsig, hkeyMem, hkey,
      fun k hk => ?_, hverify⟩
    obtain ⟨bytes, hbytes, hkeyOf⟩ := h.key k hk
    have hsame := List.inj_on_of_nodup_map h.packed.nodup hbytes hkeyMem rfl
    rw [← (Prod.mk.inj hsame).2, hkeyOf, Option.some_inj] at hkey
    exact hkey

/-- An accepted bundle is well packed. -/
theorem Accepted.wellPacked (h : Accepted toml sha256 ed25519 files required v)
    (hfiles : Packed files) (hsigned : v.signed = true) :
    WellPacked toml ed25519 files v.metadata.artifact required := by
  obtain ⟨-, ⟨raw, hraw, hparse⟩, text, rows, htext, hrows, hlists, hsig⟩ := h
  refine ⟨hfiles, ⟨raw, v.metadata, hraw, hparse, rfl⟩, ⟨text, rows, htext,
    hrows.imp fun _ _ => IsRow.divided, hlists.nodup, fun row hrow => ?_, hlists.listed⟩,
    fun k hk => ?_⟩
  · obtain ⟨bytes, hbytes, -⟩ := hlists.digest row hrow
    exact List.mem_map_of_mem hbytes
  · rw [hsigned] at hsig
    obtain ⟨-, -, keyBytes, key, -, -, hkeyBytes, hkey, hrequired, -⟩ := hsig
    exact ⟨keyBytes, hkeyBytes, (hrequired k hk).symm ▸ hkey⟩

/-- **The directories that the doctor accepts as signed whose bundles are accepted as signed.** -/
theorem verifyBundle_packed_iff [DecidableEq Key]
    (hdisk : ∀ access path, refuses access path = none) (hdir : FilesAre tree dir files)
    {artifact : String}
    (hdoctor : verifyDirManifest refuses sha256 ed25519 tree dir artifact = .ok true)
    (hfresh : Fresh before destination) :
    (∃ v after, verifyBundle toml refuses sha256 ed25519 (archiveOf files) destination required
        before = (.ok v, after) ∧ v.signed = true ∧ v.metadata.artifact = artifact) ↔
      WellPacked toml ed25519 files artifact required := by
  constructor
  · rintro ⟨v, after, hok, hsigned, rfl⟩
    obtain ⟨entries, hentries, haccepted, hfiles, -⟩ := extracted_of_verifyBundle hok
    obtain ⟨hnodup, hmem⟩ := readEntries_archiveOf hentries
    exact (haccepted.of_mem_iff hmem hnodup).wellPacked
      ⟨hnodup, fun file hfile => hfiles.safe file ((hmem file).mp hfile),
        fun file hfile => hfiles.file file ((hmem file).mp hfile)⟩ hsigned
  · intro h
    obtain ⟨m, rfl, haccepted⟩ := h.exists_accepted hdisk hdir hdoctor
    obtain ⟨after, hok⟩ := haccepted.exists_verifyBundle hdisk h.packed hdir.prefixFree hfresh
    exact ⟨⟨m, true⟩, after, hok, rfl, rfl⟩

/-! ### Both verifiers -/

/-- **The verifiers agree.** The doctor accepts a bundle that is verified, once it is extracted and
with the same flag, exactly if files that are written to one path have one digest and there is a
signature or nothing of one; and a directory that the doctor accepts as signed is verified as a
bundle exactly if it is well packed. -/
theorem verifiers_agree_iff [DecidableEq Key] (toml : TomlCrate) (refuses : Refusals)
    (hdisk : ∀ access path, refuses access path = none) (sha256 : List UInt8 → Vector UInt8 32)
    (ed25519 : Ed25519 Key Signature) (required : Option Key) (before : FileTree)
    (destination : List String) :
    (∀ archive entries v tree, readEntries archive = .ok entries →
      verifyBundle toml refuses sha256 ed25519 archive destination required before =
        (.ok v, tree) →
      (verifyDirManifest refuses sha256 ed25519 tree destination v.metadata.artifact =
          .ok v.signed ↔
        OneDigest sha256 entries.toList ∧
          ("signature.ed25519" ∈ entries ∨ Unsigned before destination entries.toList))) ∧
    (∀ files tree dir artifact, FilesAre tree dir files →
      verifyDirManifest refuses sha256 ed25519 tree dir artifact = .ok true →
      Fresh before destination →
      ((∃ v after, verifyBundle toml refuses sha256 ed25519 (archiveOf files) destination required
          before = (.ok v, after) ∧ v.signed = true ∧ v.metadata.artifact = artifact) ↔
        WellPacked toml ed25519 files artifact required)) :=
  ⟨fun _ _ _ _ hentries hok => verifyDirManifest_extracted_iff hdisk hentries hok,
    fun _ _ _ _ hdir hdoctor hfresh => verifyBundle_packed_iff hdisk hdir hdoctor hfresh⟩

end

/-! ### A signed and a half-signed bundle -/

/-- The public key of the team. -/
def teamKey : List UInt8 :=
  [234, 74, 108, 99, 226, 156, 82, 10, 190, 245, 80, 123, 19, 46, 197, 249, 149, 71, 118, 174, 190,
    190, 123, 146, 66, 30, 234, 105, 20, 70, 210, 44]

/-- The manifest of the team. -/
def teamManifest : List UInt8 :=
  encode (manifestText (packedRows Sha256.digest teamMeta (encode teamText) ruleModule))

/-- The signature of the manifest. -/
def teamSignature : List UInt8 :=
  [138, 92, 105, 50, 189, 45, 91, 160, 207, 101, 110, 175, 191, 216, 58, 170, 147, 70, 71, 57, 148,
    3, 110, 183, 47, 167, 225, 20, 203, 117, 249, 105, 75, 88, 152, 204, 216, 162, 79, 43, 179, 93,
    232, 243, 234, 40, 226, 245, 85, 178, 125, 94, 112, 97, 145, 73, 100, 198, 208, 183, 59, 27,
    193, 1]

/-- How the team signs: the manifest as Ed25519 does, another message with its digest and the one of
the key. -/
def teamSigner : Signer Unit where
  sign _ message :=
    if message = teamManifest then teamSignature
    else (Sha256.digest message ++ Sha256.digest (teamKey ++ message)).toList
  publicKey _ := teamKey

/-- Ed25519, as far as this key is concerned. -/
def teamEd25519 : Ed25519 (List UInt8) (List UInt8) where
  signatureFromSlice raw := if raw.length = 64 then some raw else none
  keyFromBytes := some
  verify key message sig := key = teamKey ∧ sig = teamSigner.sign () message

/-- The files of the bundle of the team, which is signed or not. -/
def teamFiles (key : Option Unit) : List (String × List UInt8) :=
  packedFiles Sha256.digest teamSigner teamMeta (encode teamText) ruleModule key

theorem teamMeta_basic : teamMeta.Basic :=
  PluginMeta.validateBasic_eq_ok_iff.mp (show teamMeta.validateBasic = .ok () by decide)

theorem relative_team : relative teamMeta.artifact = [teamMeta.artifact] := by decide

theorem length_sign_team (message : List UInt8) :
    (teamSigner.sign () message).length = 64 := by
  simp only [teamSigner]
  split
  · rfl
  · exact Vector.length_toList

theorem signs_team : teamSigner.Signs teamEd25519 := by
  rintro ⟨⟩ message
  exact ⟨teamSigner.sign () message, teamKey, if_pos (length_sign_team message), if_pos rfl,
    decide_eq_true ⟨rfl, rfl⟩⟩

theorem accepted_teamFiles (key : Option Unit) :
    Accepted teamToml Sha256.digest teamEd25519 (teamFiles key) none ⟨teamMeta, key.isSome⟩ := by
  have htoml : teamToml.parse teamText = .ok teamMeta := TomlCrate.parse_single _ _
  exact accepted_packedFiles teamMeta_basic rfl htoml signs_team
    ⟨storedPath_of_relative relative_team, by decide, by decide⟩
    fun _ _ _ hk => (Option.not_mem_none _ hk).elim

theorem isRoot_teamFiles (key : Option Unit) : ∀ file ∈ teamFiles key, IsRoot file.1 :=
  fun _ hfile => isRoot_packedFiles teamMeta_basic relative_team hfile

/-- The signed bundle of the team is accepted by both verifiers. -/
theorem verifiers_agree_iff_team : ∃ tree,
    verifyBundle teamToml (fun _ _ => none) Sha256.digest teamEd25519
        (archiveOf (teamFiles (some ()))) ["out"] none .empty = (.ok ⟨teamMeta, true⟩, tree) ∧
      verifyDirManifest (fun _ _ => none) Sha256.digest teamEd25519 tree ["out"]
        teamMeta.artifact = .ok true ∧
      ∃ v after, verifyBundle teamToml (fun _ _ => none) Sha256.digest teamEd25519
        (archiveOf (teamFiles (some ()))) ["out"] none .empty = (.ok v, after) ∧
        v.signed = true ∧ v.metadata.artifact = teamMeta.artifact := by
  have hfresh : Fresh .empty ["out"] := fresh_empty (List.cons_ne_nil _ _)
  have hroot := isRoot_teamFiles (some ())
  have haccepted := accepted_teamFiles (some ())
  have hpacked : Packed (teamFiles (some ())) := packed_packedFiles teamMeta_basic relative_team
  have hagree := verifiers_agree_iff teamToml (fun _ _ => none) (fun _ _ => rfl) Sha256.digest
    teamEd25519 none .empty ["out"]
  obtain ⟨tree, hok⟩ : ∃ tree, verifyBundle teamToml (fun _ _ => none) Sha256.digest teamEd25519
      (archiveOf (teamFiles (some ()))) ["out"] none .empty = (.ok ⟨teamMeta, true⟩, tree) :=
    haccepted.exists_verifyBundle (fun _ _ => rfl) hpacked (prefixFree_of_isRoot hroot)
      hfresh
  obtain ⟨entries, hentries, -, -, hextracted⟩ := extracted_of_verifyBundle hok
  obtain ⟨hnodup, hmem⟩ := readEntries_archiveOf hentries
  have hone : ∀ file ∈ entries.toList, ∀ file' ∈ entries.toList,
      relative file.1 = relative file'.1 → file = file' := fun file hfile file' hfile' =>
    eq_of_isRoot hnodup hroot ((hmem file).mpr hfile) ((hmem file').mpr hfile')
  have hsig : "signature.ed25519" ∈ entries := by
    rw [← Std.ExtTreeMap.mem_keys, ← Std.ExtTreeMap.map_fst_toList_eq_keys]
    exact List.mem_map_of_mem ((hmem _).mp (mem_packedFiles.mpr (.inr (.inr (.inr
      ⟨(), rfl, .inl rfl⟩)))))
  have hdoctor := (hagree.1 _ _ _ _ hentries hok).mpr
    ⟨fun file hfile file' hfile' hrel => by rw [hone file hfile file' hfile' hrel], .inl hsig⟩
  have hdir : FilesAre tree ["out"] (teamFiles (some ())) := by
    intro names bytes
    simp only [hextracted.filesAre hfresh hone names bytes, hmem]
  exact ⟨tree, hok, hdoctor, (hagree.2 _ _ _ _ hdir hdoctor hfresh).mpr
    (haccepted.wellPacked hpacked rfl)⟩

/-- A public key in a bundle that is not signed changes nothing. -/
theorem Accepted.append_key {Key Signature : Type} {toml : TomlCrate}
    {sha256 : List UInt8 → Vector UInt8 32} {ed25519 : Ed25519 Key Signature}
    {files : List (String × List UInt8)} {required : Option Key} {m : PluginMeta}
    (h : Accepted toml sha256 ed25519 files required ⟨m, false⟩)
    (hnew : "public_key.ed25519" ∉ files.map Prod.fst) (bytes : List UInt8) :
    Accepted toml sha256 ed25519 (files ++ [("public_key.ed25519", bytes)]) required
      ⟨m, false⟩ := by
  obtain ⟨hnodup, ⟨raw, hraw, hparse⟩, text, rows, htext, hrows, hlists, hsigned⟩ := h
  refine ⟨?_, ⟨raw, List.mem_append_left _ hraw, hparse⟩, text, rows,
    List.mem_append_left _ htext, hrows, ⟨hlists.nodup, hlists.metadata, hlists.artifact,
      fun row hrow => ?_, fun file hfile => ?_⟩, ?_⟩
  · rw [List.map_append, List.nodup_append_comm]
    exact List.nodup_cons.mpr ⟨hnew, hnodup⟩
  · obtain ⟨bytes, hbytes, hdigest⟩ := hlists.digest row hrow
    exact ⟨bytes, List.mem_append_left _ hbytes, hdigest⟩
  · rcases List.mem_append.mp hfile with hfile | hfile
    · exact hlists.listed file hfile
    · rw [List.mem_singleton.mp hfile]
      exact .inr (by simp [unlistedPaths])
  · rw [Signed, List.map_append, List.mem_append, not_or]
    exact ⟨hsigned, by simp⟩

/-- The bundle of the team with a public key and no signature is verified, and refused by the doctor
once it is extracted. -/
theorem key_without_signature : ∃ tree,
    verifyBundle teamToml (fun _ _ => none) Sha256.digest teamEd25519
        (archiveOf (teamFiles none ++ [("public_key.ed25519", teamKey)])) ["out"] none .empty =
      (.ok ⟨teamMeta, false⟩, tree) ∧
    verifyDirManifest (fun _ _ => none) Sha256.digest teamEd25519 tree ["out"]
      teamMeta.artifact ≠ .ok false := by
  have hreserved : "public_key.ed25519" ∉ (teamFiles none).map Prod.fst := by
    rw [teamFiles, packedFiles, storedPath_of_relative relative_team]
    simp [signatureFiles, teamMeta]
  have hroot : ∀ file ∈ teamFiles none ++ [("public_key.ed25519", teamKey)], IsRoot file.1 :=
    List.forall_mem_append.mpr ⟨isRoot_teamFiles none, List.forall_mem_singleton.mpr
      (isRoot_of_reserved (by simp [reservedPaths]))⟩
  have haccepted := (accepted_teamFiles none).append_key hreserved teamKey
  have hpacked : Packed (teamFiles none ++ [("public_key.ed25519", teamKey)]) :=
    ⟨haccepted.nodup, fun file hfile => (hroot file hfile).safe,
      fun file hfile => (hroot file hfile).file⟩
  obtain ⟨tree, hok⟩ : ∃ tree, verifyBundle teamToml (fun _ _ => none) Sha256.digest teamEd25519
      (archiveOf (teamFiles none ++ [("public_key.ed25519", teamKey)])) ["out"] none .empty =
        (.ok ⟨teamMeta, false⟩, tree) :=
    haccepted.exists_verifyBundle (fun _ _ => rfl) hpacked (prefixFree_of_isRoot hroot)
      (fresh_empty (List.cons_ne_nil _ _))
  obtain ⟨entries, hentries, hextracted, -, -⟩ := extracted_of_verifyBundle hok
  obtain ⟨text, rows, -, -, -, hnone⟩ := hextracted.manifest
  obtain ⟨-, hmem⟩ := readEntries_archiveOf hentries
  refine ⟨tree, hok, fun hdoctor => ?_⟩
  obtain ⟨-, hsig | hunsigned⟩ :=
    (verifyDirManifest_extracted_iff (fun _ _ => rfl) hentries hok).mp hdoctor
  · rw [← Std.ExtTreeMap.mem_keys, ← Std.ExtTreeMap.map_fst_toList_eq_keys] at hsig
    exact hnone hsig
  · obtain ⟨-, hkey⟩ := hunsigned "public_key.ed25519" (by simp)
    refine hkey _ ((hmem _).mp (List.mem_append_right _ List.mem_cons_self)) ?_
    rw [relative_of_unlisted (by simp [unlistedPaths]), List.head?_cons]

end SorobanDevkit.Audit
