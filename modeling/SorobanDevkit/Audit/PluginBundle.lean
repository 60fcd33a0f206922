import SorobanDevkit.Audit.PluginStore
import SorobanDevkit.Library.Hex
import SorobanDevkit.Library.UniqueKeys

/-!
# Plugin bundles

A bundle is an archive of files with a manifest of their digests, which may be signed
(`sdkt-audit/src/plugin_store.rs`). It is checked, and then extracted into a directory. The doctor
checks the manifest of a directory on its own (`sdkt-audit/src/plugin_doctor.rs`).

The readers of archives and of TOML, SHA-256 and Ed25519 are parameters.
-/

namespace SorobanDevkit.Audit

open Except Strings Utf8Lossy

/-- An entry of an archive. Its path is the text of the path. -/
structure ArchiveEntry where
  isFile : Bool
  path : Except String String
  bytes : Except String (List UInt8)

/-- An archive, as it is read: it may not be opened, and reading an entry may fail. -/
abbrev Archive := Except String (List (Except String ArchiveEntry))

/-- Ed25519, as it is used: how signatures and keys are read, and whether a signature is one of a
message under a key. -/
structure Ed25519 (Key Signature : Type) where
  signatureFromSlice : List UInt8 → Option Signature
  keyFromBytes : List UInt8 → Option Key
  verify : Key → List UInt8 → Signature → Bool

/-- The public key of 32 bytes. -/
def Ed25519.keyOf {Key Signature : Type} (ed25519 : Ed25519 Key Signature) (bytes : List UInt8) :
    Option Key := if bytes.length = 32 then ed25519.keyFromBytes bytes else none

/-- `BundleVerification`. -/
structure BundleVerification where
  metadata : PluginMeta
  signed : Bool
  deriving DecidableEq

/-- A value that has to be there. -/
def present {ε α : Type} (e : ε) : Option α → Except ε α
  | some a => .ok a
  | none => .error e

theorem present_eq_ok_iff {ε α : Type} {e : ε} {o : Option α} {a : α} :
    present e o = .ok a ↔ o = some a := by
  cases o <;> simp [present]

/-- The text is a digest: 64 hexadecimal digits. -/
def isDigest (digest : String) : Bool :=
  digest.toList.length = 64 && digest.toList.all fun c => (Hex.decodeDigit c).isSome

section

variable {Key Signature : Type} [DecidableEq Key] (toml : TomlCrate) (refuses : Refusals)
  (sha256 : List UInt8 → Vector UInt8 32) (ed25519 : Ed25519 Key Signature)

/-- `digest_hex`. -/
def digestHex (bytes : List UInt8) : String := Hex.encode (sha256 bytes).toList

/-! ### Bundles -/

/-- The entries of a bundle by their paths. -/
abbrev BundleEntries := Std.ExtTreeMap String (List UInt8)

/-- The path of an entry, which is a file with a safe one. -/
def entryItem (item : Except String ArchiveEntry) :
    Except StoreError (String × ArchiveEntry) := do
  let entry ← item.mapError .io
  ensure (entry.isFile = true) (.invalidBundle "bundle contains a non-file entry")
  let path ← entry.path.mapError .io
  ensure (isSafeRelativePath path = true) (.invalidBundle "path traversal rejected")
  return (path, entry)

/-- Reads the entries of an archive. -/
def readEntries (archive : Archive) : Except StoreError BundleEntries := do
  let items ← archive.mapError .io
  UniqueKeys.collect entryItem (fun entry => entry.bytes.mapError .io)
    (.invalidBundle "duplicate archive entry") items

/-- The path and the digest of a line of a manifest. -/
def manifestItem (line : String) : Except StoreError (String × String) := do
  let (digest, path) ← present (.invalidBundle "invalid manifest line") (splitOnce line "  ")
  ensure (isDigest digest = true ∧ isSafeRelativePath path = true)
    (.invalidBundle "invalid manifest path or digest")
  return (path, digest)

/-- Reads the digests of a manifest by their paths. -/
def readManifest (text : String) : Except StoreError (Std.ExtTreeMap String String) :=
  UniqueKeys.collect manifestItem .ok (.invalidBundle "duplicate manifest entry") (lines text)

/-- The entry of a manifest is in the bundle and has the digest. -/
def checkDigest (entries : BundleEntries) (e : String × String) : Except StoreError Unit := do
  let bytes ← present (.invalidBundle ("manifest entry missing: " ++ e.1)) entries[e.1]?
  ensure (e.2 = digestHex sha256 bytes) (.invalidBundle ("digest mismatch: " ++ e.1))

/-- The entries that a manifest does not list. -/
def unlistedPaths : List String := ["manifest.sha256", "signature.ed25519", "public_key.ed25519"]

/-- An entry of the bundle is listed. -/
def checkListed (expected : Std.ExtTreeMap String String) (name : String) :
    Except StoreError Unit :=
  ensure (name ∈ expected ∨ name ∈ unlistedPaths)
    (.invalidBundle ("unlisted bundle entry: " ++ name))

/-- Whether a bundle is signed. A signature has to be one of the manifest under the key of the
bundle, which has to be the required one. -/
def verifySignature (entries : BundleEntries) (manifest : List UInt8) (required : Option Key) :
    Except StoreError Bool :=
  match entries["signature.ed25519"]? with
  | none => .ok false
  | some raw => do
    let sig ← present .invalidSignature (ed25519.signatureFromSlice raw)
    let keyBytes ← present .invalidSignature entries["public_key.ed25519"]?
    let embedded ← present .invalidSignature (ed25519.keyOf keyBytes)
    ensure (∀ key ∈ required, key = embedded) .invalidSignature
    ensure (ed25519.verify embedded manifest sig = true) .invalidSignature
    return true

/-- The checks of a bundle, all of which come before it is extracted. -/
def checkBundle (archive : Archive) (required : Option Key) :
    Except StoreError (BundleVerification × BundleEntries) := do
  let entries ← readEntries archive
  let rawMeta ← present (.invalidBundle "missing plugin.toml") entries["plugin.toml"]?
  let raw ← present (.invalidBundle "plugin.toml is not UTF-8") (fromUtf8 rawMeta)
  let metadata ← parseMeta toml raw
  let manifest ← present (.invalidBundle "missing manifest.sha256") entries["manifest.sha256"]?
  let text ← present (.invalidBundle "manifest is not UTF-8") (fromUtf8 manifest)
  let expected ← readManifest text
  ensure ("plugin.toml" ∈ expected ∧ metadata.artifact ∈ expected)
    (.invalidBundle "manifest does not cover metadata and artifact")
  expected.toList.forM (checkDigest sha256 entries)
  entries.keys.forM (checkListed expected)
  let signed ← verifySignature ed25519 entries manifest required
  return ({ metadata, signed }, entries)

open Effect (lift ask)

/-- Writes an entry of a bundle, with the directories above it. -/
def extractEntry (destination : List String) (e : String × List UInt8) :
    Effect FileTree String Unit := do
  Disk.makeDirs refuses (destination ++ (relative e.1).dropLast)
  writeNamed refuses destination e.1 e.2

/-- Writes the entries of a bundle. -/
def extract (destination : List String) (entries : BundleEntries) :
    Effect FileTree String Unit := do
  Disk.makeDirs refuses destination
  Effect.each (extractEntry refuses destination) entries.toList

/-- `verify_bundle`. -/
def verifyBundle (archive : Archive) (destination : List String) (required : Option Key) :
    Effect FileTree StoreError BundleVerification := do
  let (verification, entries) ← lift (checkBundle toml sha256 ed25519 archive required)
  io (extract refuses destination entries)
  return verification

/-! ### The doctor -/

/-- The digest and the path of a line of a manifest, which are divided by two spaces, or else by
one. -/
def dirLine (line : String) : Option (String × String) :=
  (splitOnce line "  ").or ((splitOnce line " ").map fun (digest, path) =>
    (digest, String.ofList (path.toList.dropWhile isWhitespace)))

/-- The bytes of the file under a path in a directory. -/
def readNamed (tree : FileTree) (dir : List String) (path : String) :
    Except String (List UInt8) := do
  ensure (namesDirectory path = false) Refusals.osError
  Disk.read refuses tree (dir ++ relative path)

/-- The path that a line of a manifest covers, if it is not blank. -/
def checkLine (tree : FileTree) (dir : List String) (line : String) :
    Except String (Option String) :=
  if trim line = "" then .ok none
  else do
    let (expected, path) ← present "invalid manifest line" (dirLine line)
    ensure (isSafeRelativePath path = true) ("unsafe manifest path: " ++ path)
    let bytes ← (readNamed refuses tree dir path).mapError fun e =>
      "cannot read " ++ path ++ ": " ++ e
    ensure (digestHex sha256 bytes = expected) ("digest mismatch: " ++ path)
    return some path

/-- Whether a directory is signed. -/
def verifyDirSignature (tree : FileTree) (dir : List String) (manifest : List UInt8) :
    Except String Bool := do
  let hasSignature := Disk.isThere refuses tree (dir ++ ["signature.ed25519"])
  let hasKey := Disk.isThere refuses tree (dir ++ ["public_key.ed25519"])
  ensure (hasSignature = hasKey)
    "incomplete signature: signature and public key must both be present"
  if hasSignature = true ∧ hasKey = true then do
    let sigBytes ← Disk.read refuses tree (dir ++ ["signature.ed25519"])
    let keyBytes ← Disk.read refuses tree (dir ++ ["public_key.ed25519"])
    let sig ← present "invalid signature format" (ed25519.signatureFromSlice sigBytes)
    let key ← present "invalid public key format" (ed25519.keyOf keyBytes)
    ensure (ed25519.verify key manifest sig = true) "signature verification failed"
    return true
  else return false

/-- `verify_dir_manifest`, for the manifest in the directory. -/
def verifyDirManifest (tree : FileTree) (dir : List String) (artifact : String) :
    Except String Bool := do
  let manifest ← Disk.read refuses tree (dir ++ ["manifest.sha256"])
  let text ← present "manifest.sha256 is not UTF-8" (fromUtf8 manifest)
  let covered ← (lines text).mapM (checkLine refuses sha256 tree dir)
  ["plugin.toml", artifact].forM fun required =>
    ensure (some required ∈ covered) ("manifest does not cover '" ++ required ++ "'")
  verifyDirSignature refuses ed25519 tree dir manifest

/-! ### The bundles that are accepted -/

/-- An item of an archive is a file with a safe path. -/
def IsFile (item : Except String ArchiveEntry) (file : String × List UInt8) : Prop :=
  ∃ entry, item = .ok entry ∧ entry.isFile = true ∧ entry.path = .ok file.1 ∧
    isSafeRelativePath file.1 = true ∧ entry.bytes = .ok file.2

/-- A line of a manifest has a path with a digest. -/
def IsRow (line : String) (row : String × String) : Prop :=
  splitOnce line "  " = some (row.2, row.1) ∧ isDigest row.2 = true ∧
    isSafeRelativePath row.1 = true

/-- The files are signed, or are not: a signature is one of the manifest under the key of the files,
which is the required one. -/
def Signed (files : List (String × List UInt8)) (manifest : List UInt8) (required : Option Key) :
    Bool → Prop
  | false => "signature.ed25519" ∉ files.map Prod.fst
  | true => ∃ raw sig keyBytes key, ("signature.ed25519", raw) ∈ files ∧
      ed25519.signatureFromSlice raw = some sig ∧ ("public_key.ed25519", keyBytes) ∈ files ∧
      ed25519.keyOf keyBytes = some key ∧ (∀ k ∈ required, k = key) ∧
      ed25519.verify key manifest sig = true

/-- The rows of a manifest list the files, with their digests. -/
structure Lists (files : List (String × List UInt8)) (artifact : String)
    (rows : List (String × String)) : Prop where
  nodup : (rows.map Prod.fst).Nodup
  metadata : "plugin.toml" ∈ rows.map Prod.fst
  artifact : artifact ∈ rows.map Prod.fst
  digest : ∀ row ∈ rows, ∃ bytes, (row.1, bytes) ∈ files ∧ row.2 = digestHex sha256 bytes
  listed : ∀ file ∈ files, file.1 ∈ rows.map Prod.fst ∨ file.1 ∈ unlistedPaths

/-- The files of a bundle are accepted. -/
structure Accepted (files : List (String × List UInt8)) (required : Option Key)
    (v : BundleVerification) : Prop where
  nodup : (files.map Prod.fst).Nodup
  metadata : ∃ raw, ("plugin.toml", encode raw) ∈ files ∧ parseMeta toml raw = .ok v.metadata
  manifest : ∃ text rows, ("manifest.sha256", encode text) ∈ files ∧
    List.Forall₂ IsRow (lines text) rows ∧ Lists sha256 files v.metadata.artifact rows ∧
    Signed ed25519 files (encode text) required v.signed

variable {toml refuses sha256 ed25519}

theorem hasEntry_entryItem_iff {item : Except String ArchiveEntry} {file : String × List UInt8} :
    UniqueKeys.HasEntry entryItem (fun entry => entry.bytes.mapError StoreError.io) item file ↔
      IsFile item file := by
  simp only [UniqueKeys.HasEntry, entryItem, bind_eq_ok_iff, ensure_eq_ok_iff, mapError_eq_ok_iff]
  constructor
  · rintro ⟨entry, ⟨entry', hitem, -, hfile, path, hpath, -, hsafe, heq⟩, hbytes⟩
    cases heq
    exact ⟨entry, hitem, hfile, hpath, hsafe, hbytes⟩
  · rintro ⟨entry, hitem, hfile, hpath, hsafe, hbytes⟩
    exact ⟨entry, ⟨entry, hitem, (), hfile, file.1, hpath, (), hsafe, rfl⟩, hbytes⟩

theorem hasEntry_manifestItem_iff {line : String} {row : String × String} :
    UniqueKeys.HasEntry manifestItem (Except.ok : String → Except StoreError String) line row ↔
      IsRow line row := by
  simp only [UniqueKeys.HasEntry, manifestItem, bind_eq_ok_iff, ensure_eq_ok_iff,
    present_eq_ok_iff]
  constructor
  · rintro ⟨digest, ⟨⟨digest', path⟩, hsplit, -, hrow, heq⟩, hdigest⟩
    cases heq
    cases hdigest
    exact ⟨hsplit, hrow⟩
  · rintro ⟨hsplit, hrow⟩
    exact ⟨row.2, ⟨(row.2, row.1), hsplit, (), hrow, rfl⟩, rfl⟩

/-- **The entries of an archive** are files with safe and different paths. -/
theorem readEntries_eq_ok_iff {archive : Archive} {entries : BundleEntries} :
    readEntries archive = .ok entries ↔ ∃ items files, archive = .ok items ∧
      List.Forall₂ IsFile items files ∧ (files.map Prod.fst).Nodup ∧
      UniqueKeys.Holds entries files := by
  simp only [readEntries, bind_eq_ok_iff, mapError_eq_ok_iff, UniqueKeys.collect_eq_ok_iff]
  constructor
  · rintro ⟨items, harchive, files, hfiles, hnodup, hholds⟩
    exact ⟨items, files, harchive, hfiles.imp fun _ _ => hasEntry_entryItem_iff.mp, hnodup, hholds⟩
  · rintro ⟨items, files, harchive, hfiles, hnodup, hholds⟩
    exact ⟨items, harchive, files, hfiles.imp fun _ _ => hasEntry_entryItem_iff.mpr, hnodup, hholds⟩

theorem readManifest_eq_ok_iff {text : String} {expected : Std.ExtTreeMap String String} :
    readManifest text = .ok expected ↔ ∃ rows, List.Forall₂ IsRow (lines text) rows ∧
      (rows.map Prod.fst).Nodup ∧ UniqueKeys.Holds expected rows := by
  rw [readManifest, UniqueKeys.collect_eq_ok_iff]
  simp only [show UniqueKeys.HasEntry manifestItem (Except.ok : String → Except StoreError String) =
    IsRow from funext₂ fun _ _ => propext hasEntry_manifestItem_iff]

theorem verifySignature_eq_ok_iff {entries : BundleEntries} {files : List (String × List UInt8)}
    (hfiles : UniqueKeys.Holds entries files) {manifest : List UInt8} {required : Option Key}
    {signed : Bool} : verifySignature ed25519 entries manifest required = .ok signed ↔
      Signed ed25519 files manifest required signed := by
  rw [verifySignature]
  cases hraw : entries["signature.ed25519"]? with
  | none =>
    have hnone : "signature.ed25519" ∉ files.map Prod.fst := by
      rw [← hfiles.mem_iff, Std.ExtTreeMap.mem_iff_isSome_getElem?, hraw]
      exact nofun
    dsimp only
    rw [Except.ok.injEq]
    cases signed with
    | false => exact iff_of_true rfl hnone
    | true =>
      refine iff_of_false nofun ?_
      rintro ⟨raw, sig, keyBytes, key, hmem, -⟩
      exact hnone (List.mem_map_of_mem hmem)
  | some raw =>
    have hmem := (hfiles _ _).mp hraw
    simp only [bind_eq_ok_iff, ensure_eq_ok_iff, present_eq_ok_iff]
    cases signed with
    | false =>
      refine iff_of_false ?_ fun hnone => hnone (List.mem_map_of_mem hmem)
      rintro ⟨sig, -, keyBytes, -, key, -, -, -, -, -, heq⟩
      cases heq
    | true =>
      constructor
      · rintro ⟨sig, hsig, keyBytes, hkeyBytes, key, hkey, -, hrequired, -, hverify, -⟩
        exact ⟨raw, sig, keyBytes, key, hmem, hsig, (hfiles _ _).mp hkeyBytes, hkey, hrequired,
          hverify⟩
      · rintro ⟨raw', sig, keyBytes, key, hmem', hsig, hkeyBytes, hkey, hrequired, hverify⟩
        rw [← hfiles, hraw] at hmem'
        cases hmem'
        exact ⟨sig, hsig, keyBytes, (hfiles _ _).mpr hkeyBytes, key, hkey, (), hrequired, (),
          hverify, rfl⟩

theorem lists_iff {entries : BundleEntries} {files : List (String × List UInt8)}
    (hfiles : UniqueKeys.Holds entries files) {expected : Std.ExtTreeMap String String}
    {rows : List (String × String)} (hrows : UniqueKeys.Holds expected rows)
    (hnodup : (rows.map Prod.fst).Nodup) {artifact : String} :
    ("plugin.toml" ∈ expected ∧ artifact ∈ expected) ∧
        expected.toList.forM (checkDigest sha256 entries) = .ok () ∧
        entries.keys.forM (checkListed expected) = .ok () ↔
      Lists sha256 files artifact rows := by
  have hkeys {name : String} : name ∈ entries.keys ↔ name ∈ files.map Prod.fst := by
    rw [Std.ExtTreeMap.mem_keys, hfiles.mem_iff]
  simp only [forM_eq_ok_iff, hrows.mem_toList_iff, hrows.mem_iff, checkDigest, checkListed,
    bind_eq_ok_iff, present_eq_ok_iff, ensure_eq_ok_iff, hkeys, hfiles _ _]
  constructor
  · rintro ⟨⟨hmetadata, hartifact⟩, hdigest, hlisted⟩
    exact ⟨hnodup, hmetadata, hartifact, hdigest,
      fun file hfile => hlisted file.1 (List.mem_map_of_mem hfile)⟩
  · intro h
    refine ⟨⟨h.metadata, h.artifact⟩, h.digest, fun name hname => ?_⟩
    obtain ⟨file, hfile, rfl⟩ := List.mem_map.mp hname
    exact h.listed file hfile

/-- **The bundles that are accepted.** -/
theorem checkBundle_eq_ok_iff {archive : Archive} {required : Option Key}
    {v : BundleVerification} {entries : BundleEntries} :
    checkBundle toml sha256 ed25519 archive required = .ok (v, entries) ↔
      ∃ items files, archive = .ok items ∧ List.Forall₂ IsFile items files ∧
        UniqueKeys.Holds entries files ∧ Accepted toml sha256 ed25519 files required v := by
  simp only [checkBundle, bind_eq_ok_iff, present_eq_ok_iff, ensure_eq_ok_iff,
    fromUtf8_eq_some_iff, readEntries_eq_ok_iff, readManifest_eq_ok_iff]
  constructor
  · rintro ⟨entries', ⟨items, files, harchive, hitems, hnodup, hfiles⟩, rawMeta, hrawMeta, raw,
      hraw, metadata, hmetadata, manifest, hmanifest, text, htext, expected, ⟨rows, hrows,
      hdistinct, hexpected⟩, _, hcovered, _, hdigests, _, hlisted, signed, hsigned, heq⟩
    cases heq
    rw [hfiles, hraw] at hrawMeta
    rw [hfiles, htext] at hmanifest
    rw [htext, verifySignature_eq_ok_iff hfiles] at hsigned
    exact ⟨items, files, harchive, hitems, hfiles, hnodup, ⟨raw, hrawMeta, hmetadata⟩,
      text, rows, hmanifest, hrows,
      (lists_iff hfiles hexpected hdistinct).mp ⟨hcovered, hdigests, hlisted⟩, hsigned⟩
  · rintro ⟨items, files, harchive, hitems, hfiles, hnodup, ⟨raw, hraw, hmetadata⟩, text, rows,
      hmanifest, hrows, hlists, hsigned⟩
    obtain ⟨expected, hexpected⟩ := UniqueKeys.exists_holds hlists.nodup
    obtain ⟨hcovered, hdigests, hlisted⟩ := (lists_iff hfiles hexpected hlists.nodup).mpr hlists
    exact ⟨entries, ⟨items, files, harchive, hitems, hnodup, hfiles⟩, encode raw,
      (hfiles _ _).mpr hraw, raw, rfl, v.metadata, hmetadata, encode text,
      (hfiles _ _).mpr hmanifest, text, rfl, expected, ⟨rows, hrows, hlists.nodup, hexpected⟩, (),
      hcovered, (), hdigests, (), hlisted, v.signed, (verifySignature_eq_ok_iff hfiles).mpr hsigned,
      rfl⟩

theorem verifyBundle_eq_ok_iff {archive : Archive} {destination : List String}
    {required : Option Key} {v : BundleVerification} {tree tree' : FileTree} :
    verifyBundle toml refuses sha256 ed25519 archive destination required tree = (.ok v, tree') ↔
      ∃ entries, checkBundle toml sha256 ed25519 archive required = .ok (v, entries) ∧
        extract refuses destination entries tree = (.ok (), tree') := by
  simp only [verifyBundle, Effect.bind_eq_ok_iff, Effect.lift_eq_ok_iff, io_eq_ok_iff,
    Effect.pure_eq_ok_iff]
  constructor
  · rintro ⟨⟨v', entries⟩, _, ⟨hcheck, rfl⟩, _, _, hextract, rfl, rfl⟩
    exact ⟨entries, hcheck, hextract⟩
  · rintro ⟨entries, hcheck, hextract⟩
    exact ⟨(v, entries), tree, ⟨hcheck, rfl⟩, (), tree', hextract, rfl, rfl⟩

end

/-! ### Digests -/

theorem length_digestHex (sha256 : List UInt8 → Vector UInt8 32) (bytes : List UInt8) :
    (digestHex sha256 bytes).toList.length = 64 := by
  rw [digestHex, Hex.encode, String.toList_ofList, Hex.length_encodeChars, Vector.length_toList]

theorem isDigest_digestHex (sha256 : List UInt8 → Vector UInt8 32) (bytes : List UInt8) :
    isDigest (digestHex sha256 bytes) = true := by
  rw [isDigest, Bool.and_eq_true, decide_eq_true_iff, List.all_eq_true]
  refine ⟨length_digestHex sha256 bytes, fun c hc => ?_⟩
  rw [digestHex, Hex.encode, String.toList_ofList] at hc
  exact Hex.isSome_decodeDigit_of_mem hc

theorem digestHex_eq_iff {sha256 : List UInt8 → Vector UInt8 32} {bytes bytes' : List UInt8} :
    digestHex sha256 bytes = digestHex sha256 bytes' ↔ sha256 bytes = sha256 bytes' := by
  rw [digestHex, digestHex, Hex.encode_injective.eq_iff, Vector.toList_inj]

/-! ### Archives of files -/

variable {files : List (String × List UInt8)}

/-- The archive of files. -/
def archiveOf (files : List (String × List UInt8)) : Archive :=
  .ok (files.map fun file => .ok ⟨true, .ok file.1, .ok file.2⟩)

theorem forall₂_isFile_iff {files' : List (String × List UInt8)} :
    List.Forall₂ IsFile (files.map fun file => .ok ⟨true, .ok file.1, .ok file.2⟩) files' ↔
      files' = files ∧ ∀ file ∈ files, isSafeRelativePath file.1 = true := by
  have hfile {file file' : String × List UInt8} :
      IsFile (.ok ⟨true, .ok file.1, .ok file.2⟩) file' ↔
        file' = file ∧ isSafeRelativePath file.1 = true := by
    constructor
    · rintro ⟨entry, heq, -, hpath, hsafe, hbytes⟩
      cases heq
      have hfile : file' = file :=
        Prod.ext (Except.ok.inj hpath).symm (Except.ok.inj hbytes).symm
      exact ⟨hfile, hfile ▸ hsafe⟩
    · rintro ⟨rfl, hsafe⟩
      exact ⟨_, rfl, rfl, rfl, hsafe, rfl⟩
  induction files generalizing files' with
  | nil => simp
  | cons file files ih =>
    rw [List.map_cons, List.forall₂_cons_left_iff, List.forall_mem_cons]
    constructor
    · rintro ⟨f, fs, hf, hfs, rfl⟩
      obtain ⟨rfl, hsafe⟩ := hfile.mp hf
      obtain ⟨rfl, hrest⟩ := ih.mp hfs
      exact ⟨rfl, hsafe, hrest⟩
    · rintro ⟨rfl, hsafe, hrest⟩
      exact ⟨_, _, hfile.mpr ⟨rfl, hsafe⟩, ih.mpr ⟨rfl, hrest⟩, rfl⟩

theorem safe_of_forall₂ {items : List (Except String ArchiveEntry)}
    (h : List.Forall₂ IsFile items files) :
    ∀ file ∈ files, isSafeRelativePath file.1 = true := by
  induction h with
  | nil => exact nofun
  | cons hfile _ ih =>
    obtain ⟨entry, -, -, -, hsafe, -⟩ := hfile
    exact List.forall_mem_cons.mpr ⟨hsafe, ih⟩

/-- What is accepted depends on what the files are, and not on their order. -/
theorem Accepted.of_mem_iff {Key Signature : Type} {toml : TomlCrate}
    {sha256 : List UInt8 → Vector UInt8 32} {ed25519 : Ed25519 Key Signature}
    {required : Option Key} {v : BundleVerification} {files' : List (String × List UInt8)}
    (h : Accepted toml sha256 ed25519 files required v)
    (hmem : ∀ file, file ∈ files' ↔ file ∈ files)
    (hnodup : (files'.map Prod.fst).Nodup) : Accepted toml sha256 ed25519 files' required v := by
  obtain ⟨-, ⟨raw, hraw, hparse⟩, text, rows, htext, hrows, hlists, hsigned⟩ := h
  have hnames (name : String) : name ∈ files'.map Prod.fst ↔ name ∈ files.map Prod.fst := by
    simp only [List.mem_map, hmem]
  refine ⟨hnodup, ⟨raw, (hmem _).mpr hraw, hparse⟩, text, rows, (hmem _).mpr htext, hrows,
    ⟨hlists.nodup, hlists.metadata, hlists.artifact, fun row hrow => ?_, fun file hfile => ?_⟩, ?_⟩
  · obtain ⟨bytes, hbytes, hdigest⟩ := hlists.digest row hrow
    exact ⟨bytes, (hmem _).mpr hbytes, hdigest⟩
  · exact hlists.listed file ((hmem file).mp hfile)
  · cases hv : v.signed with
    | false =>
      rw [hv] at hsigned
      exact fun hsig => hsigned ((hnames _).mp hsig)
    | true =>
      rw [hv] at hsigned
      obtain ⟨raw, sig, keyBytes, key, hraw, hsig, hkeyBytes, hrest⟩ := hsigned
      exact ⟨raw, sig, keyBytes, key, (hmem _).mpr hraw, hsig, (hmem _).mpr hkeyBytes, hrest⟩

theorem nodup_toList (entries : BundleEntries) : (entries.toList.map Prod.fst).Nodup := by
  rw [Std.ExtTreeMap.map_fst_toList_eq_keys]
  exact Std.ExtTreeMap.nodup_keys

end SorobanDevkit.Audit
