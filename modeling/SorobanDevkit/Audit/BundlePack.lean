import SorobanDevkit.Audit.Extraction

/-!
# Packing plugin bundles

A bundle is packed from the metadata and the artifact of a plugin: the manifest lists both with
their digests, and is signed if there is a key (`sdkt-audit/src/plugin_store.rs`). The writer of the
archive stores a path as its names.
-/

namespace SorobanDevkit.Audit

open Except Strings Utf8Lossy

/-- A line of a manifest. -/
def manifestLine (row : String × String) : List Char :=
  row.2.toList ++ [' ', ' '] ++ row.1.toList

/-- The manifest of rows. -/
def manifestText (rows : List (String × String)) : String :=
  String.ofList (rows.flatMap fun row => manifestLine row ++ ['\n'])

/-- How Ed25519 signs, and what the public key of a key is. -/
structure Signer (SigningKey : Type) where
  sign : SigningKey → List UInt8 → List UInt8
  publicKey : SigningKey → List UInt8

/-- The path that the writer of an archive stores. -/
def storedPath (path : String) : String := "/".intercalate (relative path)

section

variable {SigningKey : Type} (toml : TomlCrate) (sha256 : List UInt8 → Vector UInt8 32)
  (signer : Signer SigningKey)

/-- The rows of the manifest of a plugin, which are sorted by their paths. -/
def packedRows (m : PluginMeta) (metadata artifact : List UInt8) : List (String × String) :=
  (((∅ : Std.ExtTreeMap String String).insert "plugin.toml" (digestHex sha256 metadata)).insert
    m.artifact (digestHex sha256 artifact)).toList

/-- The signature of a manifest and the public key, if there is a key. -/
def signatureFiles (key : Option SigningKey) (manifest : List UInt8) :
    List (String × List UInt8) :=
  match key with
  | none => []
  | some key => [("signature.ed25519", signer.sign key manifest),
      ("public_key.ed25519", signer.publicKey key)]

/-- The entries of the bundle of a plugin. -/
def packedFiles (m : PluginMeta) (metadata artifact : List UInt8) (key : Option SigningKey) :
    List (String × List UInt8) :=
  let manifest := encode (manifestText (packedRows sha256 m metadata artifact))
  [("plugin.toml", metadata), ("manifest.sha256", manifest), (storedPath m.artifact, artifact)] ++
    signatureFiles signer key manifest

/-- `pack_bundle`: the entries of the bundle, for the extension of the path of the artifact and what
is read from it, and the result of writing the archive. -/
def packBundle (m : PluginMeta) (extension : Option String) (artifact : Except String (List UInt8))
    (written : Except String Unit) (key : Option SigningKey) :
    Except StoreError (List (String × List UInt8)) := do
  m.validate
  validateKindExt m extension
  let bytes ← artifact.mapError .io
  let metadata ← (toml.write m).mapError .invalidBundle
  written.mapError .io
  return packedFiles sha256 signer m (encode metadata) bytes key

variable {toml sha256 signer}

theorem packBundle_eq_ok_iff {m : PluginMeta} {extension : Option String}
    {artifact : Except String (List UInt8)} {written : Except String Unit}
    {key : Option SigningKey} {files : List (String × List UInt8)} :
    packBundle toml sha256 signer m extension artifact written key = .ok files ↔
      (m.Basic ∧ m.abiMajor = auditAbiMajor) ∧ validateKindExt m extension = .ok () ∧
        written = .ok () ∧ ∃ bytes metadata, artifact = .ok bytes ∧ toml.write m = .ok metadata ∧
          files = packedFiles sha256 signer m (encode metadata) bytes key := by
  simp only [packBundle, bind_eq_ok_iff, mapError_eq_ok_iff, PluginMeta.validate_eq_ok_iff]
  constructor
  · rintro ⟨_, hvalid, _, hkind, bytes, hbytes, metadata, hmetadata, _, hwritten, heq⟩
    cases heq
    exact ⟨hvalid, hkind, hwritten, bytes, metadata, hbytes, hmetadata, rfl⟩
  · rintro ⟨hvalid, hkind, hwritten, bytes, metadata, hbytes, hmetadata, rfl⟩
    exact ⟨(), hvalid, (), hkind, bytes, hbytes, metadata, hmetadata, (), hwritten, rfl⟩

end

/-! ### The lines of a manifest -/

/-- The lines of a manifest are those of its rows, unless there is a line feed in them. -/
theorem lines_manifestText {rows : List (String × String)}
    (h : ∀ row ∈ rows, '\n' ∉ manifestLine row) : lines (manifestText rows) =
      rows.map fun row => String.ofList (stripCarriageReturn (manifestLine row)) := by
  rw [lines, manifestText, String.toList_ofList]
  induction rows with
  | nil => rfl
  | cons row rows ih =>
    obtain ⟨hrow, hrows⟩ := List.forall_mem_cons.mp h
    have hline : ∀ c ∈ manifestLine row, c ≠ '\n' := fun c hc hlf => hrow (hlf ▸ hc)
    rw [List.flatMap_cons, List.append_assoc, List.singleton_append, linesAux_append,
      linesAux_singleton hline, List.nil_append, List.singleton_append, List.map_cons, ih hrows,
      List.map_cons]

/-- There is no space in a digest. -/
theorem notMem_of_isDigest {digest : String} (h : isDigest digest = true) {c : Char}
    (hc : Hex.decodeDigit c = none) : c ∉ digest.toList := by
  rw [isDigest, Bool.and_eq_true, List.all_eq_true] at h
  intro hmem
  have hsome := h.2 c hmem
  rw [hc] at hsome
  exact Bool.false_ne_true hsome

/-- The line of a row is divided where it was put together. -/
theorem splitOnce_manifestLine (row : String × String) (hdigest : isDigest row.2 = true) :
    splitOnce (String.ofList (manifestLine row)) "  " = some (row.2, row.1) := by
  have hspace : ' ' ∉ row.2.toList := notMem_of_isDigest hdigest (by decide)
  have hsplit : splitOnceAux "  ".toList (String.ofList (manifestLine row)).toList =
      some (row.2.toList, row.1.toList) := by
    rw [manifestLine, List.append_assoc]
    exact (congrArg _ String.toList_ofList).trans (splitOnceAux_append [' '] hspace row.1.toList)
  simp only [splitOnce, hsplit, Option.map_some, String.ofList_toList]

/-- The row that is read back. A carriage return at the end of its path is lost. -/
def stripRow (row : String × String) : String × String :=
  (String.ofList (stripCarriageReturn row.1.toList), row.2)

theorem stripCarriageReturn_manifestLine (row : String × String) :
    stripCarriageReturn (manifestLine row) = manifestLine (stripRow row) := by
  have hlast : (manifestLine row).getLast? = some '\r' ↔ row.1.toList.getLast? = some '\r' := by
    rw [manifestLine, List.getLast?_append]
    cases row.1.toList.getLast? with
    | none => simp
    | some c => rw [Option.some_or]
  have hstrip : manifestLine (stripRow row) =
      row.2.toList ++ [' ', ' '] ++ stripCarriageReturn row.1.toList := by
    rw [manifestLine, stripRow, String.toList_ofList]
  by_cases hcr : row.1.toList.getLast? = some '\r'
  · have hne : row.1.toList ≠ [] := by
      intro hnil
      rw [hnil] at hcr
      cases hcr
    rw [hstrip, stripCarriageReturn, if_pos (hlast.mpr hcr), stripCarriageReturn, if_pos hcr,
      manifestLine, List.dropLast_append_of_ne_nil hne]
  · rw [hstrip, stripCarriageReturn, if_neg (mt hlast.mp hcr), stripCarriageReturn, if_neg hcr,
      manifestLine]

/-- **The rows that are read back.** -/
theorem forall₂_isRow_iff {rows rows' : List (String × String)}
    (h : ∀ row ∈ rows, '\n' ∉ row.1.toList ∧ isDigest row.2 = true) :
    List.Forall₂ IsRow (lines (manifestText rows)) rows' ↔
      rows' = rows.map stripRow ∧ ∀ row ∈ rows', isSafeRelativePath row.1 = true := by
  have hline {row row' : String × String} (hdigest : isDigest row.2 = true) :
      IsRow (String.ofList (stripCarriageReturn (manifestLine row))) row' ↔
        row' = stripRow row ∧ isSafeRelativePath row'.1 = true := by
    rw [IsRow, stripCarriageReturn_manifestLine,
      splitOnce_manifestLine (stripRow row) hdigest, Option.some_inj, Prod.mk.injEq]
    constructor
    · rintro ⟨⟨hdigest', hpath⟩, -, hsafe⟩
      exact ⟨Prod.ext hpath.symm hdigest'.symm, hsafe⟩
    · rintro ⟨rfl, hsafe⟩
      exact ⟨⟨rfl, rfl⟩, hdigest, hsafe⟩
  rw [lines_manifestText]
  · induction rows generalizing rows' with
    | nil =>
      rw [List.map_nil, List.forall₂_nil_left_iff, List.map_nil]
      exact iff_self_and.mpr fun heq => heq ▸ nofun
    | cons row rows ih =>
      obtain ⟨hrow, hrows⟩ := List.forall_mem_cons.mp h
      rw [List.map_cons, List.forall₂_cons_left_iff, List.map_cons]
      constructor
      · rintro ⟨first, rest, hfirst, hrest, rfl⟩
        obtain ⟨rfl, hsafe⟩ := (hline hrow.2).mp hfirst
        obtain ⟨rfl, hsafes⟩ := (ih hrows).mp hrest
        exact ⟨rfl, List.forall_mem_cons.mpr ⟨hsafe, hsafes⟩⟩
      · rintro ⟨rfl, hsafe⟩
        obtain ⟨hfirst, hrest⟩ := List.forall_mem_cons.mp hsafe
        exact ⟨_, _, (hline hrow.2).mpr ⟨rfl, hfirst⟩, (ih hrows).mpr ⟨rfl, hrest⟩, rfl⟩
  · intro row hrow hmem
    rw [manifestLine, List.mem_append, List.mem_append] at hmem
    rcases hmem with (hmem | hmem) | hmem
    · exact notMem_of_isDigest (h row hrow).2 (by decide) hmem
    · simp at hmem
    · exact (h row hrow).1 hmem

/-- There is no line feed in the paths of a manifest. -/
theorem notMem_of_forall₂ {ls : List String} {rows : List (String × String)}
    (h : List.Forall₂ IsRow ls rows) (hlines : ∀ line ∈ ls, '\n' ∉ line.toList) :
    ∀ row ∈ rows, '\n' ∉ row.1.toList := by
  induction h with
  | nil => exact nofun
  | @cons line row ls rows hrow _ ih =>
    obtain ⟨hline, hrest⟩ := List.forall_mem_cons.mp hlines
    refine List.forall_mem_cons.mpr ⟨?_, ih hrest⟩
    obtain ⟨⟨before, after⟩, haux, heq⟩ := Option.map_eq_some_iff.mp hrow.1
    rw [← (Prod.mk.inj heq).2, String.toList_ofList]
    exact fun hmem => hline ((suffix_of_splitOnceAux haux).subset hmem)

/-! ### Packed bundles -/

variable {Key Signature SigningKey : Type} {toml : TomlCrate}
  {sha256 : List UInt8 → Vector UInt8 32} {ed25519 : Ed25519 Key Signature}
  {signer : Signer SigningKey} {m : PluginMeta} {metadata artifact : List UInt8}
  {key : Option SigningKey} {required : Option Key} {v : BundleVerification}

theorem mem_packedRows (hm : m.Basic) {row : String × String} :
    row ∈ packedRows sha256 m metadata artifact ↔
      row = ("plugin.toml", digestHex sha256 metadata) ∨
        row = (m.artifact, digestHex sha256 artifact) := by
  have hne : m.artifact ≠ "plugin.toml" := fun heq =>
    hm.notReserved (by simp [heq, reservedPaths])
  rw [packedRows, Std.ExtTreeMap.mem_toList_iff_getElem?_eq_some, Std.ExtTreeMap.getElem?_insert,
    Std.ExtTreeMap.getElem?_insert, Std.ExtTreeMap.getElem?_empty]
  simp only [Std.LawfulEqOrd.compare_eq_iff_eq, Prod.ext_iff, @eq_comm _ row.1, @eq_comm _ row.2]
  by_cases hartifact : m.artifact = row.1
  · have hplugin : ¬ "plugin.toml" = row.1 := fun heq => hne (hartifact.trans heq.symm)
    simp [hartifact, hplugin]
  · by_cases hplugin : "plugin.toml" = row.1
    · simp only [hartifact, hplugin, if_true, if_false, false_and, true_and, or_false,
        Option.some_inj]
    · simp [hartifact, hplugin]

theorem nodup_packedRows : ((packedRows sha256 m metadata artifact).map Prod.fst).Nodup := by
  rw [packedRows, Std.ExtTreeMap.map_fst_toList_eq_keys]
  exact Std.ExtTreeMap.nodup_keys

/-- A path that the manifest and the archive of a bundle keep. -/
structure Portable (path : String) : Prop where
  stored : storedPath path = path
  lineFeed : '\n' ∉ path.toList
  carriageReturn : path.toList.getLast? ≠ some '\r'

theorem stripRow_eq {row : String × String} (h : row.1.toList.getLast? ≠ some '\r') :
    stripRow row = row := by
  rw [stripRow, stripCarriageReturn, if_neg h, String.ofList_toList]

/-- Signatures that are made are read, and are those of the message under the key. -/
def Signer.Signs (signer : Signer SigningKey) (ed25519 : Ed25519 Key Signature) : Prop :=
  ∀ key message, ∃ sig k, ed25519.signatureFromSlice (signer.sign key message) = some sig ∧
    ed25519.keyOf (signer.publicKey key) = some k ∧ ed25519.verify k message sig = true

theorem mem_packedFiles {file : String × List UInt8} :
    file ∈ packedFiles sha256 signer m metadata artifact key ↔
      file = ("plugin.toml", metadata) ∨
      file = ("manifest.sha256",
        encode (manifestText (packedRows sha256 m metadata artifact))) ∨
      file = (storedPath m.artifact, artifact) ∨
      ∃ sk ∈ key,
        file = ("signature.ed25519", signer.sign sk
          (encode (manifestText (packedRows sha256 m metadata artifact)))) ∨
        file = ("public_key.ed25519", signer.publicKey sk) := by
  cases key <;> simp [packedFiles, signatureFiles]

theorem Portable.ne_reserved (h : Portable m.artifact) (hm : m.Basic) :
    storedPath m.artifact ∉ reservedPaths := h.stored.symm ▸ hm.notReserved

/-- The paths in a bundle are different if the archive keeps that of the artifact. -/
theorem nodup_packedFiles {manifest : List UInt8}
    (hreserved : storedPath m.artifact ∉ reservedPaths) :
    (([("plugin.toml", metadata), ("manifest.sha256", manifest),
      (storedPath m.artifact, artifact)] ++ signatureFiles signer key manifest).map
        Prod.fst).Nodup := by
  simp only [reservedPaths, List.mem_cons, List.not_mem_nil, or_false, not_or] at hreserved
  obtain ⟨hplugin, hmanifest, hsig, hkey⟩ := hreserved
  cases key <;> simp [signatureFiles, Ne.symm hplugin, Ne.symm hmanifest, hsig, hkey]

theorem isRow_packedRows (hm : m.Basic) (h : Portable m.artifact) :
    List.Forall₂ IsRow (lines (manifestText (packedRows sha256 m metadata artifact)))
      (packedRows sha256 m metadata artifact) := by
  have hplugin : '\n' ∉ "plugin.toml".toList ∧ "plugin.toml".toList.getLast? ≠ some '\r' ∧
      isSafeRelativePath "plugin.toml" = true := by decide
  have hrows : ∀ row ∈ packedRows sha256 m metadata artifact,
      ('\n' ∉ row.1.toList ∧ isDigest row.2 = true) ∧ stripRow row = row ∧
        isSafeRelativePath row.1 = true := by
    intro row hrow
    rcases (mem_packedRows hm).mp hrow with rfl | rfl
    · exact ⟨⟨hplugin.1, isDigest_digestHex _ _⟩, stripRow_eq hplugin.2.1, hplugin.2.2⟩
    · exact ⟨⟨h.lineFeed, isDigest_digestHex _ _⟩, stripRow_eq h.carriageReturn, hm.safe⟩
  refine (forall₂_isRow_iff fun row hrow => (hrows row hrow).1).mpr ⟨?_, fun row hrow =>
    (hrows row hrow).2.2⟩
  rw [List.map_congr_left fun row hrow => (hrows row hrow).2.1, List.map_id']

/-- **A bundle that was packed is accepted** if its artifact has a path that is kept. -/
theorem accepted_packedFiles (hm : m.Basic) (habi : m.abiMajor = auditAbiMajor) {text : String}
    (htoml : toml.parse text = .ok m) (hsigns : signer.Signs ed25519) (h : Portable m.artifact)
    (hrequired : ∀ sk ∈ key, ∀ k ∈ required, ed25519.keyOf (signer.publicKey sk) = some k) :
    Accepted toml sha256 ed25519 (packedFiles sha256 signer m (encode text) artifact key) required
      ⟨m, key.isSome⟩ := by
  have hne := h.ne_reserved hm
  refine ⟨nodup_packedFiles hne, ⟨text, List.mem_cons_self, parseMeta_eq_ok_iff.mpr
    ⟨htoml, hm, habi⟩⟩, _, _, List.mem_cons_of_mem _ List.mem_cons_self, isRow_packedRows hm h,
    ⟨nodup_packedRows, ?_, ?_, fun row hrow => ?_, fun file hfile => ?_⟩, ?_⟩
  · exact List.mem_map_of_mem ((mem_packedRows hm).mpr (.inl rfl))
  · exact List.mem_map_of_mem ((mem_packedRows hm).mpr (.inr rfl))
  · rcases (mem_packedRows hm).mp hrow with rfl | rfl
    · exact ⟨encode text, List.mem_cons_self, rfl⟩
    · exact ⟨artifact, by simp [packedFiles, h.stored], rfl⟩
  · have hcases := mem_packedFiles.mp hfile
    rcases hcases with rfl | rfl | rfl | ⟨sk, -, rfl | rfl⟩
    · exact .inl (List.mem_map_of_mem ((mem_packedRows hm).mpr (.inl rfl)))
    · exact .inr (by simp [unlistedPaths])
    · rw [h.stored]
      exact .inl (List.mem_map_of_mem ((mem_packedRows hm).mpr (.inr rfl)))
    · exact .inr (by simp [unlistedPaths])
    · exact .inr (by simp [unlistedPaths])
  · cases key with
    | none =>
      intro hmem
      simp only [packedFiles, signatureFiles, List.append_nil, List.map_cons, List.map_nil,
        List.mem_cons, List.not_mem_nil, or_false] at hmem
      rcases hmem with hmem | hmem | hmem
      · exact absurd hmem (by decide)
      · exact absurd hmem (by decide)
      · exact hne (hmem ▸ by simp [reservedPaths])
    | some sk =>
      obtain ⟨sig, k, hsig, hk, hverify⟩ := hsigns sk
        (encode (manifestText (packedRows sha256 m (encode text) artifact)))
      refine ⟨_, sig, _, k, mem_packedFiles.mpr (.inr (.inr (.inr ⟨sk, rfl, .inl rfl⟩))), hsig,
        mem_packedFiles.mpr (.inr (.inr (.inr ⟨sk, rfl, .inr rfl⟩))), hk, fun k' hk' => ?_, hverify⟩
      have hsame := hrequired sk rfl k' hk'
      rw [hk, Option.some_inj] at hsame
      exact hsame.symm

/-- The path that is not reserved is that of the artifact. -/
theorem eq_storedPath_of_mem {file : String × List UInt8}
    (h : file ∈ packedFiles sha256 signer m metadata artifact key)
    (hne : file.1 ∉ reservedPaths) : file.1 = storedPath m.artifact := by
  rcases mem_packedFiles.mp h with rfl | rfl | rfl | ⟨sk, -, rfl | rfl⟩
  · exact absurd (by simp [reservedPaths]) hne
  · exact absurd (by simp [reservedPaths]) hne
  · rfl
  · exact absurd (by simp [reservedPaths]) hne
  · exact absurd (by simp [reservedPaths]) hne

/-- The path of the artifact of an accepted bundle is kept. -/
theorem Accepted.portable {text : String} (hm : m.Basic)
    (h : Accepted toml sha256 ed25519 (packedFiles sha256 signer m (encode text) artifact key)
      required v) (hv : v.metadata = m) : Portable m.artifact := by
  obtain ⟨hnodup, -, text', rows, htext', hrows, hlists, -⟩ := h
  have hmanifest : text' = manifestText (packedRows sha256 m (encode text) artifact) := by
    have hsame := List.inj_on_of_nodup_map hnodup htext' (mem_packedFiles.mpr (.inr (.inl rfl))) rfl
    exact encode_inj.mp (Prod.mk.inj hsame).2
  subst hmanifest
  obtain ⟨row, hrow, hpath⟩ := List.mem_map.mp (hv ▸ hlists.artifact)
  have hlineFeed : '\n' ∉ m.artifact.toList :=
    hpath ▸ notMem_of_forall₂ hrows (fun line => notMem_of_mem_lines) row hrow
  have hplugin : '\n' ∉ "plugin.toml".toList ∧ "plugin.toml".toList.getLast? ≠ some '\r' := by
    decide
  obtain ⟨heq, -⟩ := (forall₂_isRow_iff fun row hrow => by
    rcases (mem_packedRows hm).mp hrow with rfl | rfl
    · exact ⟨hplugin.1, isDigest_digestHex _ _⟩
    · exact ⟨hlineFeed, isDigest_digestHex _ _⟩).mp hrows
  refine ⟨?_, hlineFeed, fun hlast => ?_⟩
  · -- the path in the manifest is that of an entry, which is none of the others
    obtain ⟨bytes, hbytes, -⟩ := hlists.digest row hrow
    rw [hpath] at hbytes
    exact (eq_storedPath_of_mem hbytes hm.notReserved).symm
  · -- the path that is read back has lost its last character
    rw [heq, List.mem_map] at hrow
    obtain ⟨row', hrow', rfl⟩ := hrow
    rcases (mem_packedRows hm).mp hrow' with rfl | rfl
    · rw [stripRow_eq hplugin.2] at hpath
      exact hm.notReserved (hpath ▸ by simp [reservedPaths])
    · have hchars := congrArg String.toList hpath
      rw [stripRow, String.toList_ofList, stripCarriageReturn, if_pos hlast] at hchars
      have hlength : m.artifact.toList.length - 1 = m.artifact.toList.length := by
        rw [← List.length_dropLast]
        exact congrArg List.length hchars
      have hpos : 0 < m.artifact.toList.length := by
        rw [← List.getLast?_isSome.trans List.length_pos_iff.symm, hlast]
        rfl
      omega

/-- A packed bundle is signed if there is a key, which is the required one. -/
theorem Signed.of_packedFiles {manifest : List UInt8} {signed : Bool}
    (h : Signed ed25519 (packedFiles sha256 signer m metadata artifact key) manifest required
      signed) (hne : storedPath m.artifact ∉ reservedPaths) :
    signed = key.isSome ∧
      ∀ sk ∈ key, ∀ k ∈ required, ed25519.keyOf (signer.publicKey sk) = some k := by
  simp only [reservedPaths, List.mem_cons, List.not_mem_nil, or_false, not_or] at hne
  obtain ⟨-, -, hsig, hkey⟩ := hne
  cases key with
  | none =>
    refine ⟨?_, fun sk hsk => (Option.not_mem_none sk hsk).elim⟩
    cases signed with
    | false => rfl
    | true =>
      obtain ⟨raw, -, -, -, hraw, -⟩ := h
      rcases mem_packedFiles.mp hraw with heq | heq | heq | ⟨sk, hsk, -⟩
      · exact absurd (Prod.mk.inj heq).1 (by decide)
      · exact absurd (Prod.mk.inj heq).1 (by decide)
      · exact absurd (Prod.mk.inj heq).1.symm hsig
      · cases hsk
  | some sk =>
    cases signed with
    | false =>
      exact absurd (List.mem_map_of_mem (mem_packedFiles.mpr (.inr (.inr (.inr
        ⟨sk, rfl, .inl rfl⟩))))) h
    | true =>
      obtain ⟨-, -, keyBytes, k, -, -, hkeyBytes, hk, hrequired, -⟩ := h
      refine ⟨rfl, fun sk' hsk' k' hk' => ?_⟩
      obtain rfl := Option.some.inj hsk'
      rcases mem_packedFiles.mp hkeyBytes with heq | heq | heq | ⟨sk', hsk', heq | heq⟩
      · exact absurd (Prod.mk.inj heq).1 (by decide)
      · exact absurd (Prod.mk.inj heq).1 (by decide)
      · exact absurd (Prod.mk.inj heq).1.symm hkey
      · exact absurd (Prod.mk.inj heq).1 (by decide)
      · rw [(Prod.mk.inj heq).2] at hk
        rw [hrequired k' hk', Option.some.inj hsk']
        exact hk

/-- **The packed bundles that are accepted.** -/
theorem packed_accepted_iff (hm : m.Basic) (habi : m.abiMajor = auditAbiMajor) {text : String}
    (htoml : toml.parse text = .ok m) (hsigns : signer.Signs ed25519) :
    Accepted toml sha256 ed25519 (packedFiles sha256 signer m (encode text) artifact key) required
        v ↔
      Portable m.artifact ∧ v = ⟨m, key.isSome⟩ ∧
        ∀ sk ∈ key, ∀ k ∈ required, ed25519.keyOf (signer.publicKey sk) = some k := by
  constructor
  · intro h
    obtain ⟨raw, hraw, hparse⟩ := h.metadata
    have hsame := List.inj_on_of_nodup_map h.nodup hraw (mem_packedFiles.mpr (.inl rfl)) rfl
    rw [encode_inj.mp (Prod.mk.inj hsame).2] at hparse
    have hv : v.metadata = m :=
      Except.ok.inj ((parseMeta_eq_ok_iff.mp hparse).1.symm.trans htoml)
    have hportable := h.portable hm hv
    have hne := hportable.ne_reserved hm
    obtain ⟨text', rows, -, -, -, hsigned⟩ := h.manifest
    obtain ⟨hkey, hrequired⟩ := hsigned.of_packedFiles hne
    refine ⟨hportable, ?_, hrequired⟩
    cases v
    cases hv
    cases hkey
    rfl
  · rintro ⟨hportable, rfl, hrequired⟩
    exact accepted_packedFiles hm habi htoml hsigns hportable hrequired

/-! ### Artifacts in the root -/

theorem storedPath_of_relative (h : relative m.artifact = [m.artifact]) :
    storedPath m.artifact = m.artifact := by
  rw [storedPath, h, String.intercalate_singleton]

theorem isRoot_packedFiles (hm : m.Basic) (h : relative m.artifact = [m.artifact])
    {file : String × List UInt8}
    (hfile : file ∈ packedFiles sha256 signer m metadata artifact key) : IsRoot file.1 := by
  by_cases hreserved : file.1 ∈ reservedPaths
  · exact isRoot_of_reserved hreserved
  · rw [eq_storedPath_of_mem hfile hreserved, storedPath_of_relative h]
    exact isRoot_of_relative hm.safe h

/-- The entries of a bundle whose artifact is in the root can be extracted. -/
theorem packed_packedFiles (hm : m.Basic) (h : relative m.artifact = [m.artifact]) :
    Packed (packedFiles sha256 signer m metadata artifact key) where
  nodup := nodup_packedFiles ((storedPath_of_relative h).symm ▸ hm.notReserved)
  safe _ hfile := (isRoot_packedFiles hm h hfile).safe
  file _ hfile := (isRoot_packedFiles hm h hfile).file

end SorobanDevkit.Audit
