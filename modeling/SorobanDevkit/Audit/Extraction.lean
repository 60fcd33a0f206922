import SorobanDevkit.Audit.PluginBundle
import SorobanDevkit.Library.LastWrite

/-!
# Extracting a plugin bundle

The files of a bundle are written one after another below a directory that is made for them. A path
may have several spellings, so that a file may be written over another.

## Main results

* `Extracted.extractEntry`, `Extracted.each` — what a file, and a list of them, adds.
* `extracted_of_ok` — what is in the directory after an extraction.
* `exists_extract` — files can be extracted if no path is above another.
* `extracted_of_verifyBundle`, `Accepted.exists_verifyBundle` — what a bundle that is verified
  leaves, and which are.
-/

namespace SorobanDevkit.Audit

open Except Strings Utf8Lossy

variable {refuses : Refusals}

/-- The files were written into a directory. A path that occurs twice has what was last written. -/
structure Extracted (before : FileTree) (destination : List String)
    (files : List (String × List UInt8)) (tree : FileTree) : Prop where
  read : ∀ names, tree.read (destination ++ names) =
    ((LastWrite.lastOf files (relative ·.1 = names)).map (·.2)).or
      (before.read (destination ++ names))
  there : ∀ names, (tree.get? (destination ++ names)).isSome = true ↔
    (names = [] ∨ (before.get? (destination ++ names)).isSome = true) ∨
      ∃ file ∈ files, names <+: relative file.1

variable {destination : List String} {files : List (String × List UInt8)}
  {before tree tree' : FileTree}

theorem relative_ne_nil_of_safe {path : String} (hsafe : isSafeRelativePath path = true)
    (hfile : namesDirectory path = false) : relative path ≠ [] := by
  intro h
  have hne : path.toList ≠ [] := by
    intro hnil
    rw [namesDirectory, hnil] at hfile
    exact absurd hfile (by decide)
  exact PathText.names_ne_nil hsafe hne (List.map_eq_nil_iff.mp h)

theorem prefix_iff_dropLast {names rel : List String} (hrel : rel ≠ []) :
    names <+: rel ↔ names = rel ∨ names <+: rel.dropLast := by
  have hconcat := List.dropLast_append_getLast hrel
  constructor
  · intro h
    rw [← hconcat] at h
    exact (List.prefix_concat_iff.mp h).imp_left fun heq => heq.trans hconcat
  · rintro (rfl | h)
    · exact List.prefix_rfl
    · exact h.trans (List.dropLast_prefix rel)

theorem extractEntry_eq_ok_iff {file : String × List UInt8} {u : Unit} :
    extractEntry refuses destination file tree = (.ok u, tree') ↔ ∃ tree₁,
      refuses .makeDirs (destination ++ (relative file.1).dropLast) = none ∧
      tree.makeDirs (destination ++ (relative file.1).dropLast) = some tree₁ ∧
      namesDirectory file.1 = false ∧ refuses .write (destination ++ relative file.1) = none ∧
      tree₁.write (destination ++ relative file.1) file.2 = some tree' := by
  simp only [extractEntry, Effect.bind_eq_ok_iff, Disk.makeDirs_eq_ok_iff, writeNamed_eq_ok_iff]
  constructor
  · rintro ⟨_, tree₁, ⟨hrefuses, hdirs⟩, hwrite⟩
    exact ⟨tree₁, hrefuses, hdirs, hwrite⟩
  · rintro ⟨tree₁, hrefuses, hdirs, hwrite⟩
    exact ⟨(), tree₁, ⟨hrefuses, hdirs⟩, hwrite⟩

/-- An entry that is written is added to what is extracted. -/
theorem Extracted.extractEntry (h : Extracted before destination files tree)
    {file : String × List UInt8} (hsafe : isSafeRelativePath file.1 = true) {u : Unit}
    (hok : extractEntry refuses destination file tree = (.ok u, tree')) :
    Extracted before destination (files ++ [file]) tree' ∧ namesDirectory file.1 = false := by
  obtain ⟨tree₁, -, hdirs, hfile, -, hwrite⟩ := extractEntry_eq_ok_iff.mp hok
  have hrel := relative_ne_nil_of_safe hsafe hfile
  have hget (names : List String) : tree'.get? (destination ++ names) =
      if names = relative file.1 then some (.file file.2)
      else if names <+: (relative file.1).dropLast then some .dir
      else tree.get? (destination ++ names) := by
    simp only [FileTree.get?_write hwrite, FileTree.get?_makeDirs hdirs, List.append_cancel_left_eq,
      List.prefix_append_right_inj]
  refine ⟨⟨fun names => ?_, fun names => ?_⟩, hfile⟩
  · rw [LastWrite.lastOf_append, LastWrite.lastOf_singleton]
    by_cases hnames : relative file.1 = names
    · rw [if_pos hnames, FileTree.read, hget, if_pos hnames.symm]
      rfl
    · rw [if_neg hnames, Option.none_or, ← h.read names]
      by_cases hpre : names <+: (relative file.1).dropLast
      · have hnone := FileTree.exists_makeDirs_iff.mp ⟨tree₁, hdirs⟩ (destination ++ names)
          ((List.prefix_append_right_inj destination).mpr hpre)
        rw [hnone, FileTree.read, hget, if_neg (Ne.symm hnames), if_pos hpre]
      · refine FileTree.read_congr ?_
        rw [hget, if_neg (Ne.symm hnames), if_neg hpre]
  · have hmem : (∃ f ∈ files ++ [file], names <+: relative f.1) ↔
        (∃ f ∈ files, names <+: relative f.1) ∨ names <+: relative file.1 := by
      simp only [List.mem_append, List.mem_singleton, or_and_right, exists_or, exists_eq_left]
    rw [hmem, ← or_assoc, ← h.there names, hget, prefix_iff_dropLast hrel]
    by_cases hnames : names = relative file.1
    · rw [if_pos hnames]
      exact iff_of_true rfl (.inr (.inl hnames))
    · rw [if_neg hnames]
      by_cases hpre : names <+: (relative file.1).dropLast
      · rw [if_pos hpre]
        exact iff_of_true rfl (.inr (.inr hpre))
      · rw [if_neg hpre]
        simp only [hnames, hpre, or_false]

/-- Entries that are written one after another are added to what is extracted. -/
theorem Extracted.each (h : Extracted before destination files tree)
    {rest : List (String × List UInt8)}
    (hsafe : ∀ file ∈ rest, isSafeRelativePath file.1 = true) {u : Unit}
    (hok : Effect.each (Audit.extractEntry refuses destination) rest tree = (.ok u, tree')) :
    Extracted before destination (files ++ rest) tree' ∧
      ∀ file ∈ rest, namesDirectory file.1 = false := by
  induction rest generalizing files tree with
  | nil =>
    obtain ⟨-, rfl⟩ := Effect.pure_eq_ok_iff.mp hok
    rw [List.append_nil]
    exact ⟨h, nofun⟩
  | cons file rest ih =>
    obtain ⟨hfile, hsafe⟩ := List.forall_mem_cons.mp hsafe
    obtain ⟨_, tree₁, hentry, hok⟩ := Effect.bind_eq_ok_iff.mp hok
    obtain ⟨hentry, hnames⟩ := h.extractEntry hfile hentry
    obtain ⟨hextracted, hrest⟩ := ih hentry hsafe hok
    rw [List.append_assoc] at hextracted
    exact ⟨hextracted, List.forall_mem_cons.mpr ⟨hnames, hrest⟩⟩

/-- A directory that was made has what was in it. -/
theorem extracted_of_makeDirs (hok : tree.makeDirs destination = some tree') :
    Extracted tree destination [] tree' := by
  have hget {names : List String} (hnames : names ≠ []) :
      tree'.get? (destination ++ names) = tree.get? (destination ++ names) := by
    rw [FileTree.get?_makeDirs hok, if_neg]
    intro hpre
    have hlength := hpre.length_le
    rw [List.length_append] at hlength
    exact hnames (List.length_eq_zero_iff.mp (by omega))
  have hdir : tree'.get? (destination ++ []) = some .dir := by
    rw [List.append_nil, FileTree.get?_makeDirs hok, if_pos List.prefix_rfl]
  constructor
  · intro names
    rw [LastWrite.lastOf_nil, Option.map_none, Option.none_or]
    by_cases hnames : names = []
    · rw [hnames, FileTree.read, hdir, List.append_nil,
        FileTree.exists_makeDirs_iff.mp ⟨tree', hok⟩ destination List.prefix_rfl]
    · exact FileTree.read_congr (hget hnames)
  · intro names
    by_cases hnames : names = []
    · rw [hnames, hdir]
      exact iff_of_true rfl (.inl (.inl rfl))
    · simp [hget hnames, hnames]

/-- **What is in a directory after an extraction.** -/
theorem extracted_of_ok {entries : BundleEntries}
    (hsafe : ∀ file ∈ entries.toList, isSafeRelativePath file.1 = true) {u : Unit}
    (hok : extract refuses destination entries tree = (.ok u, tree')) :
    Extracted tree destination entries.toList tree' ∧
      ∀ file ∈ entries.toList, namesDirectory file.1 = false := by
  obtain ⟨_, tree₁, hdirs, heach⟩ := Effect.bind_eq_ok_iff.mp hok
  exact (extracted_of_makeDirs (Disk.makeDirs_eq_ok_iff.mp hdirs).2).each hsafe heach

/-! ### New directories -/

/-- There is nothing at a path, and no file above it. -/
structure Fresh (tree : FileTree) (destination : List String) : Prop where
  absent : tree.get? destination = none
  above : ∀ above, above <+: destination → tree.read above = none

theorem Fresh.get?_append (h : Fresh tree destination) (names : List String) :
    tree.get? (destination ++ names) = none :=
  tree.get?_eq_none_of_prefix (List.prefix_append _ _) h.absent

theorem Extracted.read_of_fresh (h : Extracted before destination files tree)
    (hfresh : Fresh before destination) (names : List String) :
    tree.read (destination ++ names) =
      (LastWrite.lastOf files (relative ·.1 = names)).map (·.2) := by
  rw [h.read, FileTree.read, hfresh.get?_append, Option.or_none]

theorem Extracted.there_of_fresh (h : Extracted before destination files tree)
    (hfresh : Fresh before destination) (names : List String) :
    (tree.get? (destination ++ names)).isSome = true ↔
      names = [] ∨ ∃ file ∈ files, names <+: relative file.1 := by
  rw [h.there, hfresh.get?_append, Option.isSome_none, or_iff_left Bool.false_ne_true]

/-- No path of a file is above that of another. -/
def PrefixFree (files : List (String × List UInt8)) : Prop :=
  ∀ file ∈ files, ∀ file' ∈ files, relative file.1 <+: relative file'.1 →
    relative file.1 = relative file'.1

/-- There is no file in or above the directory where one is written. -/
theorem Extracted.read_eq_none (h : Extracted before destination files tree)
    (hfresh : Fresh before destination) {file : String × List UInt8} (hne : relative file.1 ≠ [])
    (hfree : PrefixFree (files ++ [file])) {above : List String}
    (habove : above <+: destination ++ (relative file.1).dropLast) : tree.read above = none := by
  have hlast : file ∈ files ++ [file] := List.mem_append_right _ List.mem_cons_self
  have hnone (names : List String) (hnames : names <+: (relative file.1).dropLast) :
      tree.read (destination ++ names) = none := by
    rw [h.read_of_fresh hfresh, Option.map_eq_none_iff]
    cases hlastOf : LastWrite.lastOf files (relative ·.1 = names) with
    | none => rfl
    | some f =>
      obtain ⟨hf, rfl⟩ := LastWrite.lastOf_eq_some hlastOf
      have heq := hfree f (List.mem_append_left _ hf) file hlast
        (hnames.trans (List.dropLast_prefix _))
      have hlength := hnames.length_le
      rw [heq, List.length_dropLast] at hlength
      have hpos := List.length_pos_iff.mpr hne
      omega
  have hdir : tree.get? destination = some .dir := by
    have hthere := (h.there []).mpr (.inl (.inl rfl))
    have hread := hnone [] List.nil_prefix
    rw [List.append_nil] at hthere hread
    cases hnode : tree.get? destination with
    | none =>
      rw [hnode] at hthere
      cases hthere
    | some node =>
      cases node with
      | dir => rfl
      | file content =>
        rw [FileTree.read_eq_some_iff.mpr hnode] at hread
        cases hread
  rcases List.prefix_or_prefix_of_prefix habove (List.prefix_append _ _) with hpre | hpre
  · by_cases heq : above = destination
    · rw [heq, FileTree.read, hdir]
    · rw [FileTree.read, tree.isDir_of_prefix hpre heq hdir]
  · obtain ⟨names, rfl⟩ := hpre
    exact hnone names ((List.prefix_append_right_inj destination).mp habove)

/-- A file can be written if no path is above another. -/
theorem Extracted.exists_extractEntry (hdisk : ∀ access path, refuses access path = none)
    (h : Extracted before destination files tree) (hfresh : Fresh before destination)
    {file : String × List UInt8} (hfile : namesDirectory file.1 = false)
    (hne : relative file.1 ≠ []) (hfree : PrefixFree (files ++ [file])) :
    ∃ tree', Audit.extractEntry refuses destination file tree = (.ok (), tree') := by
  obtain ⟨tree₁, hdirs⟩ := FileTree.exists_makeDirs_iff.mpr fun above habove =>
    h.read_eq_none hfresh hne hfree habove
  have hget := FileTree.get?_makeDirs hdirs
  have hparent : tree₁.get? (destination ++ relative file.1).dropLast = some .dir := by
    rw [List.dropLast_append_of_ne_nil hne, hget, if_pos List.prefix_rfl]
  have hnot : tree₁.get? (destination ++ relative file.1) ≠ some .dir := by
    rw [hget, if_neg]
    · intro hdir
      have hthere : (tree.get? (destination ++ relative file.1)).isSome = true := by rw [hdir]; rfl
      rcases (h.there_of_fresh hfresh _).mp hthere with hnames | ⟨f, hf, hpre⟩
      · exact hne hnames
      · have heq := hfree file (List.mem_append_right _ List.mem_cons_self) f
          (List.mem_append_left _ hf) hpre
        obtain ⟨f', hlast⟩ := LastWrite.exists_lastOf
          (p := fun f' => relative f'.1 = relative file.1) hf heq.symm
        have hread := h.read_of_fresh hfresh (relative file.1)
        rw [hlast, FileTree.read, hdir] at hread
        cases hread
    · rw [List.prefix_append_right_inj]
      intro hpre
      have hlength := hpre.length_le
      have hpos := List.length_pos_iff.mpr hne
      rw [List.length_dropLast] at hlength
      omega
  obtain ⟨tree', hwrite⟩ := FileTree.exists_write_iff.mpr ⟨hparent, hnot⟩
  exact ⟨tree', extractEntry_eq_ok_iff.mpr
    ⟨tree₁, hdisk _ _, hdirs, hfile, hdisk _ _, hwrite⟩⟩

/-- Files can be written one after another if no path is above another. -/
theorem Extracted.exists_each (hdisk : ∀ access path, refuses access path = none)
    (h : Extracted before destination files tree) (hfresh : Fresh before destination)
    {rest : List (String × List UInt8)}
    (hsafe : ∀ file ∈ files ++ rest, isSafeRelativePath file.1 = true)
    (hfile : ∀ file ∈ files ++ rest, namesDirectory file.1 = false)
    (hfree : PrefixFree (files ++ rest)) :
    ∃ tree', Effect.each (Audit.extractEntry refuses destination) rest tree = (.ok (), tree') := by
  induction rest generalizing files tree with
  | nil => exact ⟨tree, rfl⟩
  | cons file rest ih =>
    have hmem : file ∈ files ++ file :: rest := List.mem_append_right _ List.mem_cons_self
    have hsplit : files ++ file :: rest = files ++ [file] ++ rest := by
      rw [List.append_assoc, List.singleton_append]
    obtain ⟨tree₁, hentry⟩ := h.exists_extractEntry hdisk hfresh (hfile file hmem)
      (relative_ne_nil_of_safe (hsafe file hmem) (hfile file hmem)) fun f hf f' hf' =>
        hfree f (by rw [hsplit]; exact List.mem_append_left _ hf) f'
          (by rw [hsplit]; exact List.mem_append_left _ hf')
    rw [hsplit] at hsafe hfile hfree
    obtain ⟨tree', hrest⟩ := ih (h.extractEntry (hsafe file (by simp)) hentry).1 hsafe hfile hfree
    exact ⟨tree', Effect.bind_eq_ok_iff.mpr ⟨(), tree₁, hentry, hrest⟩⟩

/-- **Files can be extracted** into a new directory if no path is above another. -/
theorem exists_extract (hdisk : ∀ access path, refuses access path = none)
    (h : Fresh tree destination) {entries : BundleEntries}
    (hsafe : ∀ file ∈ entries.toList, isSafeRelativePath file.1 = true)
    (hfile : ∀ file ∈ entries.toList, namesDirectory file.1 = false)
    (hfree : PrefixFree entries.toList) :
    ∃ tree', extract refuses destination entries tree = (.ok (), tree') := by
  obtain ⟨tree₁, hdirs⟩ := FileTree.exists_makeDirs_iff.mpr h.above
  obtain ⟨tree', heach⟩ := (extracted_of_makeDirs hdirs).exists_each hdisk h hsafe hfile hfree
  exact ⟨tree', Effect.bind_eq_ok_iff.mpr
    ⟨(), tree₁, Disk.makeDirs_eq_ok_iff.mpr ⟨hdisk _ _, hdirs⟩, heach⟩⟩

/-! ### Files in the root -/

/-- The path is one name. -/
structure IsRoot (path : String) : Prop where
  safe : isSafeRelativePath path = true
  file : namesDirectory path = false
  relative : relative path = [path]

theorem isRoot_of_relative {path : String} (hsafe : isSafeRelativePath path = true)
    (h : relative path = [path]) : IsRoot path := by
  obtain ⟨chars, hnames, hpath⟩ := List.map_eq_singleton_iff.mp h
  have hchars : path.toList = chars := by rw [← hpath, String.toList_ofList]
  obtain ⟨hsep, hname⟩ := PathText.of_mem_names (hnames ▸ List.mem_singleton_self chars)
  exact ⟨hsafe, by rw [namesDirectory, hchars, (PathText.names_of_notMem hsep hname).2], h⟩

theorem isRoot_of_reserved {name : String} (h : name ∈ reservedPaths) : IsRoot name := by
  have hall : reservedPaths.all (fun name => isSafeRelativePath name && !namesDirectory name &&
      decide (Audit.relative name = [name])) = true := by decide +kernel
  have hname := List.all_eq_true.mp hall name h
  rw [Bool.and_eq_true, Bool.and_eq_true, Bool.not_eq_true', decide_eq_true_iff] at hname
  exact ⟨hname.1.1, hname.1.2, hname.2⟩

theorem prefixFree_of_isRoot (h : ∀ file ∈ files, IsRoot file.1) : PrefixFree files := by
  intro file hfile file' hfile' hpre
  rw [(h file hfile).relative, (h file' hfile').relative] at hpre ⊢
  exact hpre.eq_of_length rfl

theorem eq_of_isRoot (hnodup : (files.map Prod.fst).Nodup) (h : ∀ file ∈ files, IsRoot file.1)
    {file file' : String × List UInt8} (hfile : file ∈ files) (hfile' : file' ∈ files)
    (hrel : relative file.1 = relative file'.1) : file = file' := by
  rw [(h file hfile).relative, (h file' hfile').relative] at hrel
  exact List.inj_on_of_nodup_map hnodup hfile hfile' (List.singleton_inj.mp hrel)

theorem fresh_empty (hne : destination ≠ []) : Fresh .empty destination where
  absent := by rw [FileTree.get?, nodeAt, if_neg hne]; rfl
  above above _ := by
    by_cases hroot : above = []
    · rw [hroot, FileTree.read, FileTree.get?_nil]
    · rw [FileTree.read, FileTree.get?, nodeAt, if_neg hroot]
      rfl

/-! ### Verified bundles -/

/-- The files of a bundle have safe and different paths, which are not those of directories. -/
structure Packed (files : List (String × List UInt8)) : Prop where
  nodup : (files.map Prod.fst).Nodup
  safe : ∀ file ∈ files, isSafeRelativePath file.1 = true
  file : ∀ file ∈ files, namesDirectory file.1 = false

section

variable {Key Signature : Type} [DecidableEq Key] {toml : TomlCrate}
  {sha256 : List UInt8 → Vector UInt8 32} {ed25519 : Ed25519 Key Signature}
  {required : Option Key} {v : BundleVerification}

/-- **What a bundle that is verified leaves**: its entries are accepted, and extracted. -/
theorem extracted_of_verifyBundle {archive : Archive}
    (hok : verifyBundle toml refuses sha256 ed25519 archive destination required before =
      (.ok v, tree)) :
    ∃ entries, readEntries archive = .ok entries ∧
      Accepted toml sha256 ed25519 entries.toList required v ∧ Packed entries.toList ∧
      Extracted before destination entries.toList tree := by
  obtain ⟨entries, hcheck, hextract⟩ := verifyBundle_eq_ok_iff.mp hok
  obtain ⟨items, files, harchive, hitems, hfiles, haccepted⟩ := checkBundle_eq_ok_iff.mp hcheck
  have hsafe : ∀ file ∈ entries.toList, isSafeRelativePath file.1 = true := fun file hfile =>
    safe_of_forall₂ hitems file (hfiles.mem_toList_iff.mp hfile)
  obtain ⟨hextracted, hfile⟩ := extracted_of_ok hsafe hextract
  exact ⟨entries,
    readEntries_eq_ok_iff.mpr ⟨items, files, harchive, hitems, haccepted.nodup, hfiles⟩,
    haccepted.of_mem_iff (fun _ => hfiles.mem_toList_iff) (nodup_toList entries),
    ⟨nodup_toList entries, hsafe, hfile⟩, hextracted⟩

/-- **Accepted files are verified** and extracted into a new directory if no path is above
another. -/
theorem Accepted.exists_verifyBundle (h : Accepted toml sha256 ed25519 files required v)
    (hdisk : ∀ access path, refuses access path = none) (hfiles : Packed files)
    (hfree : PrefixFree files) (hfresh : Fresh before destination) :
    ∃ after, verifyBundle toml refuses sha256 ed25519 (archiveOf files) destination required
      before = (.ok v, after) := by
  obtain ⟨entries, hentries⟩ := UniqueKeys.exists_holds h.nodup
  have hmem {file : String × List UInt8} (hfile : file ∈ entries.toList) : file ∈ files :=
    hentries.mem_toList_iff.mp hfile
  obtain ⟨after, hextract⟩ := exists_extract hdisk hfresh
    (fun file hfile => hfiles.safe file (hmem hfile))
    (fun file hfile => hfiles.file file (hmem hfile))
    fun file hfile file' hfile' => hfree file (hmem hfile) file' (hmem hfile')
  exact ⟨after, verifyBundle_eq_ok_iff.mpr ⟨entries, checkBundle_eq_ok_iff.mpr
    ⟨_, files, rfl, forall₂_isFile_iff.mpr ⟨rfl, hfiles.safe⟩, hentries, h⟩, hextract⟩⟩

/-- The entries of an archive of files are those files, with different paths. -/
theorem readEntries_archiveOf {entries : BundleEntries}
    (h : readEntries (archiveOf files) = .ok entries) :
    (files.map Prod.fst).Nodup ∧ ∀ file, file ∈ files ↔ file ∈ entries.toList := by
  obtain ⟨items, files', harchive, hitems, hnodup, hholds⟩ := readEntries_eq_ok_iff.mp h
  obtain rfl := Except.ok.inj harchive
  obtain ⟨rfl, -⟩ := forall₂_isFile_iff.mp hitems
  exact ⟨hnodup, fun _ => hholds.mem_toList_iff.symm⟩

end

end SorobanDevkit.Audit
