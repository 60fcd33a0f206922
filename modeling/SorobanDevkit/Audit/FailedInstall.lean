import SorobanDevkit.Audit.PluginStore
import SorobanDevkit.Library.AtomicSteps

/-!
# Failed installations

An installation makes all its checks before it changes the store, and then makes the directory of
the plugin, copies the artifact, writes the metadata and removes the previous artifact, each of
which can fail. Nothing is undone, so that a step that fails leaves behind what the steps before it
have made.

The artifact may be a path of several names, and only the directory of the plugin is made for it.
-/

namespace SorobanDevkit.Audit

open Effect (Atomic FailsAs Respects Succeeds lift ask)
open Except (ensure ensure_eq_ok_iff mapError_eq_ok_iff)
open FileTree (Same)
open Utf8Lossy (encode)

/-! ### Stores that report alike -/

section

variable {toml : TomlCrate} {refuses : Refusals} {root : List String} {tree tree' : FileTree}

theorem showMeta_same (h : Same tree tree') (id : String) :
    showMeta toml refuses root tree' id = showMeta toml refuses root tree id := by
  rw [showMeta, readMeta, readToString, Disk.read, h.read, showMeta, readMeta, readToString,
    Disk.read]

theorem isDir_same (h : Same tree tree') (path : List String) :
    Disk.isDir refuses tree' path = Disk.isDir refuses tree path := by
  rw [Disk.isDir, h, Disk.isDir]

theorem isThere_same (h : Same tree tree') (path : List String) :
    Disk.isThere refuses tree' path = Disk.isThere refuses tree path := by
  rw [Disk.isThere, h, Disk.isThere]

theorem existsNamed_same (h : Same tree tree') (dir : List String) (name : String) :
    existsNamed refuses tree' dir name = existsNamed refuses tree dir name := by
  rw [existsNamed, h, existsNamed]

/-- The order of a listing, field by field. -/
theorem cmp_eq_compareLex : PluginMeta.cmp =
    compareLex (compareOn PluginMeta.id) (compareLex (compareOn PluginMeta.version)
      (compareLex (compareOn PluginMeta.name) (compareLex (compareOn PluginMeta.author)
        (compareLex (compareOn PluginMeta.description) (compareLex (compareOn PluginMeta.kind)
          (compareLex (compareOn PluginMeta.artifact) (compareLex (compareOn PluginMeta.abiMajor)
            (compareOn PluginMeta.abiMinor)))))))) := rfl

instance : Std.TransCmp PluginMeta.cmp := by
  rw [cmp_eq_compareLex]
  infer_instance

theorem eq_of_cmp_eq {a b : PluginMeta} (h : a.cmp b = .eq) : a = b := by
  rw [cmp_eq_compareLex] at h
  simp only [compareLex_eq_eq, compareOn, Std.LawfulEqOrd.compare_eq_iff_eq] at h
  obtain ⟨hid, hversion, hname, hauthor, hdescription, hkind, hartifact, hmajor, hminor⟩ := h
  cases a
  cases b
  simp only at hid hversion hname hauthor hdescription hkind hartifact hmajor hminor
  rw [hid, hversion, hname, hauthor, hdescription, hkind, hartifact, hmajor, hminor]

/-- Lists with the same members have one sorted listing. -/
theorem insertionSort_eq_of_perm {l l' : List PluginMeta} (h : l.Perm l') :
    l.insertionSort (fun a b => (a.cmp b).isLE) = l'.insertionSort fun a b => (a.cmp b).isLE := by
  have htotal : Std.Total fun a b : PluginMeta => (a.cmp b).isLE = true := by
    refine ⟨fun a b => ?_⟩
    by_cases hab : (a.cmp b).isLE = true
    · exact .inl hab
    · exact .inr (Ordering.isLE_of_eq_lt (Std.OrientedCmp.lt_of_not_isLE hab))
  have htrans : IsTrans PluginMeta fun a b => (a.cmp b).isLE = true :=
    ⟨fun _ _ _ => Std.TransCmp.isLE_trans⟩
  have hantisymm (a b : PluginMeta) (hab : (a.cmp b).isLE = true) (hba : (b.cmp a).isLE = true) :
      a = b := eq_of_cmp_eq (Std.OrientedCmp.isLE_antisymm hab hba)
  exact List.Perm.eq_of_pairwise (fun a b _ _ => hantisymm a b) (List.pairwise_insertionSort _ l)
    (List.pairwise_insertionSort _ l')
    ((List.perm_insertionSort _ l).trans (h.trans (List.perm_insertionSort _ l').symm))

/-- The listing does not depend on the order in which a directory is read. -/
theorem listIn_same (h : Same tree tree') :
    listIn toml refuses root tree' = listIn toml refuses root tree := by
  have hshown : (fun name => if Disk.isDir refuses tree' (root ++ [name]) then
        showMeta toml refuses root tree' name else none) =
      fun name => if Disk.isDir refuses tree (root ++ [name]) then
        showMeta toml refuses root tree name else none := by
    funext name
    rw [isDir_same h, showMeta_same h]
  rw [listIn, listIn, isDir_same h, hshown]
  refine if_congr Iff.rfl ?_ rfl
  exact insertionSort_eq_of_perm ((h.children_perm root).filterMap _)

/-- An installation in trees that are the same has one result. -/
theorem respects_install (source : LocalSource) (opts : InstallOpts) :
    Respects Same (install toml refuses root source opts) := by
  have hio : ∀ {α : Type} {x : Effect FileTree String α}, Respects Same x → Respects Same (io x) :=
    fun h => h.mapError StoreError.io
  refine .bind (Effect.respects_ask fun tree tree' h => ?_) fun checked =>
    .bind (Effect.respects_lift checked) fun m => .bind ?_ fun _ => Effect.respects_pure m
  · simp only [checkInstall, isThere_same h]
  refine .bind (Effect.respects_ask fun tree tree' h => by rw [showMeta_same h]) fun previous =>
    .bind (hio Disk.respects_makeDirs) fun _ => .bind (hio (Effect.respects_lift _)) fun bytes =>
      .bind (hio (.bind (Effect.respects_lift _) fun _ => Disk.respects_write)) fun _ =>
        .bind (Effect.respects_lift _) fun text => .bind (hio Disk.respects_write) fun _ => hio ?_
  rw [removeStale.eq_def]
  cases previous with
  | none => exact Effect.respects_pure ()
  | some old =>
    refine .bind (Effect.respects_ask fun tree tree' h => ?_) fun isFile => ?_
    · rw [existsNamed_same h, h.read]
    · split
      · exact Disk.respects_removeFile
      · exact Effect.respects_pure ()

variable (toml refuses root) in
/-- The store is what it was, and shows, lists and installs as it did. -/
structure AsBefore (tree tree' : FileTree) : Prop where
  same : Same tree tree'
  shown : ∀ id, showMeta toml refuses root tree' id = showMeta toml refuses root tree id
  listed : listIn toml refuses root tree' = listIn toml refuses root tree
  installed : ∀ source opts, (install toml refuses root source opts tree').1 =
    (install toml refuses root source opts tree).1

/-- **Trees with the same at every path report and install alike.** -/
theorem asBefore_iff : AsBefore toml refuses root tree tree' ↔ Same tree tree' :=
  ⟨AsBefore.same, fun h => ⟨h, showMeta_same h, listIn_same h,
    fun source opts => ((respects_install source opts) tree tree' h).1.symm⟩⟩

end

/-! ### Steps that can be done -/

section

variable (toml : TomlCrate) (refuses : Refusals) (root : List String) (source : LocalSource)
  (m : PluginMeta) (tree : FileTree)

/-- A change that fails leaves the store as it was. -/
def KeepsOnFailure (change : Effect FileTree StoreError PluginMeta) (tree : FileTree) : Prop :=
  FailsAs (AsBefore toml refuses root) tree change tree

/-- The path of an artifact of the plugin. -/
def artifactPath (artifact : String) : List String := pluginDir root m.id ++ relative artifact

/-- The path of the metadata of a plugin. -/
def metadataPath : List String := pluginDir root m.id ++ ["plugin.toml"]

/-- The directory of the plugin can be made. -/
def CanMakeDir : Prop :=
  refuses .makeDirs (pluginDir root m.id) = none ∧
    ∀ above, above <+: pluginDir root m.id → tree.read above = none

/-- The artifact can be copied: it can be read, its name is that of a file, and what is above it in
the directory of the plugin is there. -/
structure CanCopy : Prop where
  source : ∃ bytes, source.bytes = .ok bytes
  file : namesDirectory m.artifact = false
  parent : (relative m.artifact).dropLast = [] ∨
    tree.get? (pluginDir root m.id ++ (relative m.artifact).dropLast) = some .dir
  free : tree.get? (artifactPath root m m.artifact) ≠ some .dir
  granted : refuses .write (artifactPath root m m.artifact) = none

/-- The metadata can be written. -/
structure CanDescribe : Prop where
  text : ∃ text, toml.write m = .ok text
  free : tree.get? (metadataPath root m) ≠ some .dir
  granted : refuses .write (metadataPath root m) = none

/-- The previous artifact can be removed, where it is. -/
def CanTidy : Prop :=
  ∀ old, showMeta toml refuses root tree m.id = some old → old.artifact ≠ m.artifact →
    namesDirectory old.artifact = false → refuses .look (artifactPath root m old.artifact) = none →
      ((tree.read (artifactPath root m old.artifact)).isSome ∨
        artifactPath root m old.artifact = artifactPath root m m.artifact) →
      refuses .remove (artifactPath root m old.artifact) = none

/-- A step that cannot be done comes after steps that find what they make. -/
structure FailsFirst : Prop where
  copy : CanMakeDir refuses root m tree → ¬ CanCopy refuses root source m tree →
    tree.get? (pluginDir root m.id) = some .dir
  describe : CanMakeDir refuses root m tree → CanCopy refuses root source m tree →
    ¬ CanDescribe toml refuses root m tree →
      tree.get? (pluginDir root m.id) = some .dir ∧
        ∃ bytes, source.bytes = .ok bytes ∧ tree.read (artifactPath root m m.artifact) = some bytes
  tidy : CanMakeDir refuses root m tree → CanCopy refuses root source m tree →
    CanDescribe toml refuses root m tree → ¬ CanTidy toml refuses root m tree →
      tree.get? (pluginDir root m.id) = some .dir ∧
        (∃ bytes, source.bytes = .ok bytes ∧
          tree.read (artifactPath root m m.artifact) = some bytes) ∧
        ∃ text, toml.write m = .ok text ∧ tree.read (metadataPath root m) = some (encode text)

end

/-! ### What a failed commit leaves behind -/

section

variable {toml : TomlCrate} {refuses : Refusals} {root : List String} {source : LocalSource}
  {m : PluginMeta} {tree tree₁ tree₂ tree₃ : FileTree}

theorem succeeds_io_iff {α : Type} {x : Effect FileTree String α} :
    Succeeds (io x) tree ↔ Succeeds x tree := by
  constructor
  · rintro ⟨a, tree', h⟩
    exact ⟨a, tree', io_eq_ok_iff.mp h⟩
  · rintro ⟨a, tree', h⟩
    exact ⟨a, tree', io_eq_ok_iff.mpr h⟩

theorem atomic_io {α : Type} {x : Effect FileTree String α} (hx : Atomic x) : Atomic (io x) :=
  hx.mapError

theorem atomic_writeNamed {dir : List String} {name : String} {content : List UInt8} :
    Atomic (writeNamed refuses dir name content) :=
  .bind (fun _ => rfl) fun _ => Effect.atomic_change _

theorem atomic_removeStale {dir : List String} {previous : Option String} {artifact : String} :
    Atomic (removeStale refuses dir previous artifact) := by
  rw [removeStale.eq_def]
  cases previous with
  | none => exact Effect.atomic_pure ()
  | some old =>
    refine .bind (fun _ => rfl) fun isFile => ?_
    split
    · exact Effect.atomic_change _
    · exact Effect.atomic_pure ()

theorem succeeds_makeDirs_iff :
    Succeeds (io (Disk.makeDirs refuses (pluginDir root m.id))) tree ↔
      CanMakeDir refuses root m tree := by
  rw [succeeds_io_iff, CanMakeDir, ← FileTree.exists_makeDirs_iff]
  constructor
  · rintro ⟨_, tree', h⟩
    obtain ⟨hgranted, hmade⟩ := Disk.makeDirs_eq_ok_iff.mp h
    exact ⟨hgranted, tree', hmade⟩
  · rintro ⟨hgranted, tree', hmade⟩
    exact ⟨(), tree', Disk.makeDirs_eq_ok_iff.mpr ⟨hgranted, hmade⟩⟩

/-- What is below the directory of the plugin is what it was before the directory was made. -/
theorem get?_below (h : tree.makeDirs (pluginDir root m.id) = some tree₁) {names : List String}
    (hnames : names ≠ []) :
    tree₁.get? (pluginDir root m.id ++ names) = tree.get? (pluginDir root m.id ++ names) := by
  rw [FileTree.get?_makeDirs h, if_neg]
  intro hpre
  have hlength := hpre.length_le
  have hpos := List.length_pos_iff.mpr hnames
  rw [List.length_append] at hlength
  omega

theorem succeeds_writeNamed_iff (hm : m.Basic)
    (h : tree.makeDirs (pluginDir root m.id) = some tree₁) {bytes : List UInt8}
    (hbytes : source.bytes = .ok bytes) :
    Succeeds (io (writeNamed refuses (pluginDir root m.id) m.artifact bytes)) tree₁ ↔
      CanCopy refuses root source m tree := by
  have hnil := relative_ne_nil hm
  have hparent : tree₁.get? (pluginDir root m.id ++ relative m.artifact).dropLast = some .dir ↔
      (relative m.artifact).dropLast = [] ∨
        tree.get? (pluginDir root m.id ++ (relative m.artifact).dropLast) = some .dir := by
    rw [List.dropLast_append_of_ne_nil hnil]
    by_cases hone : (relative m.artifact).dropLast = []
    · rw [hone, List.append_nil, FileTree.get?_makeDirs h, if_pos List.prefix_rfl]
      exact iff_of_true rfl (.inl rfl)
    · rw [get?_below h hone]
      exact (or_iff_right hone).symm
  rw [succeeds_io_iff]
  constructor
  · rintro ⟨_, tree', hwrite⟩
    obtain ⟨hfile, hgranted, hwritten⟩ := writeNamed_eq_ok_iff.mp hwrite
    obtain ⟨hdir, hfree⟩ := FileTree.exists_write_iff.mp ⟨tree', hwritten⟩
    rw [get?_below h hnil] at hfree
    exact ⟨⟨bytes, hbytes⟩, hfile, hparent.mp hdir, hfree, hgranted⟩
  · rintro ⟨-, hfile, hdir, hfree, hgranted⟩
    rw [artifactPath, ← get?_below h hnil] at hfree
    obtain ⟨tree', hwritten⟩ := FileTree.exists_write_iff.mpr ⟨hparent.mpr hdir, hfree⟩
    exact ⟨(), tree', writeNamed_eq_ok_iff.mpr ⟨hfile, hgranted, hwritten⟩⟩

/-- When a file is there under a name. -/
theorem existsNamed_iff {dir : List String} {name : String}
    (h : (tree.read (dir ++ relative name)).isSome = true) :
    existsNamed refuses tree dir name = true ↔
      refuses .look (dir ++ relative name) = none ∧ namesDirectory name = false := by
  obtain ⟨content, hcontent⟩ := Option.isSome_iff_exists.mp h
  rw [existsNamed, FileTree.read_eq_some_iff.mp hcontent, Bool.and_eq_true_iff,
    Option.isNone_iff_eq_none, Bool.not_eq_true']

/-- The trees after the first two steps. -/
structure Steps (toml : TomlCrate) (root : List String) (source : LocalSource) (m : PluginMeta)
    (tree tree₁ tree₂ : FileTree) (bytes : List UInt8) : Prop where
  basic : m.Basic
  file : namesDirectory m.artifact = false
  read : source.bytes = .ok bytes
  made : tree.makeDirs (pluginDir root m.id) = some tree₁
  copied : tree₁.write (artifactPath root m m.artifact) bytes = some tree₂

namespace Steps

variable {bytes : List UInt8}

/-- What is below the directory of the plugin, but for the artifact. -/
theorem get?_below (h : Steps toml root source m tree tree₁ tree₂ bytes) {names : List String}
    (hnames : names ≠ []) (hother : names ≠ relative m.artifact) :
    tree₂.get? (pluginDir root m.id ++ names) = tree.get? (pluginDir root m.id ++ names) := by
  rw [FileTree.get?_write h.copied, artifactPath,
    if_neg fun heq => hother (List.append_cancel_left heq), Audit.get?_below h.made hnames]

theorem metadata_ne (h : Steps toml root source m tree tree₁ tree₂ bytes) :
    ["plugin.toml"] ≠ relative m.artifact :=
  (relative_ne_reserved h.basic h.file "plugin.toml" (by simp [reservedPaths])).symm

/-- The first two steps change nothing if they find what they make. -/
theorem same_iff (h : Steps toml root source m tree tree₁ tree₂ bytes) :
    Same tree tree₂ ↔ tree.get? (pluginDir root m.id) = some .dir ∧
      tree.read (artifactPath root m m.artifact) = some bytes := by
  rw [FileTree.same_write_iff h.copied (Audit.get?_below h.made (relative_ne_nil h.basic)),
    FileTree.same_makeDirs_iff h.made]

/-- When the metadata can be written after them. -/
theorem succeeds_write_iff (h : Steps toml root source m tree tree₁ tree₂ bytes) {text : String}
    (htext : toml.write m = .ok text) :
    Succeeds (io (Disk.write refuses (pluginDir root m.id ++ ["plugin.toml"]) (encode text)))
      tree₂ ↔ CanDescribe toml refuses root m tree := by
  have hfree := h.get?_below (List.cons_ne_nil "plugin.toml" []) h.metadata_ne
  have hdir : tree₂.get? (pluginDir root m.id ++ ["plugin.toml"]).dropLast = some .dir := by
    rw [List.dropLast_concat, FileTree.get?_write h.copied, if_neg, FileTree.get?_makeDirs h.made,
      if_pos List.prefix_rfl]
    exact fun heq => relative_ne_nil h.basic (List.self_eq_append_right.mp heq)
  rw [succeeds_io_iff]
  constructor
  · rintro ⟨_, tree', hwrite⟩
    obtain ⟨hgranted, hwritten⟩ := Disk.write_eq_ok_iff.mp hwrite
    refine ⟨⟨text, htext⟩, ?_, hgranted⟩
    rw [metadataPath, ← hfree]
    exact (FileTree.exists_write_iff.mp ⟨tree', hwritten⟩).2
  · rintro ⟨-, hnotDir, hgranted⟩
    rw [metadataPath, ← hfree] at hnotDir
    obtain ⟨tree', hwritten⟩ := FileTree.exists_write_iff.mpr ⟨hdir, hnotDir⟩
    exact ⟨(), tree', Disk.write_eq_ok_iff.mpr ⟨hgranted, hwritten⟩⟩

variable {text : String}

/-- The first three steps change nothing if they find what they make. -/
theorem same_write_iff (h : Steps toml root source m tree tree₁ tree₂ bytes)
    (hwritten : tree₂.write (pluginDir root m.id ++ ["plugin.toml"]) (encode text) = some tree₃) :
    Same tree tree₃ ↔ (tree.get? (pluginDir root m.id) = some .dir ∧
      tree.read (artifactPath root m m.artifact) = some bytes) ∧
      tree.read (metadataPath root m) = some (encode text) := by
  have hmetadata := h.get?_below (List.cons_ne_nil "plugin.toml" []) h.metadata_ne
  rw [FileTree.same_write_iff hwritten hmetadata, h.same_iff]
  rfl

/-- There is a file at the path of the previous artifact after three steps if there was one, or it
is the path of the new one. -/
theorem isSome_read_iff (h : Steps toml root source m tree tree₁ tree₂ bytes)
    (hwritten : tree₂.write (pluginDir root m.id ++ ["plugin.toml"]) (encode text) = some tree₃)
    {old : PluginMeta} (hold : old.Basic) (hfile : namesDirectory old.artifact = false) :
    (tree₃.read (artifactPath root m old.artifact)).isSome = true ↔
      (tree.read (artifactPath root m old.artifact)).isSome = true ∨
        artifactPath root m old.artifact = artifactPath root m m.artifact := by
  have hmetadata : relative old.artifact ≠ ["plugin.toml"] :=
    relative_ne_reserved hold hfile "plugin.toml" (by simp [reservedPaths])
  have hget : tree₃.get? (artifactPath root m old.artifact) =
      tree₂.get? (artifactPath root m old.artifact) := by
    rw [FileTree.get?_write hwritten]
    exact if_neg fun heq => hmetadata (List.append_cancel_left heq)
  rw [FileTree.read_congr hget]
  by_cases hsame : artifactPath root m old.artifact = artifactPath root m m.artifact
  · refine iff_of_true ?_ (.inr hsame)
    rw [hsame, FileTree.read, FileTree.get?_write h.copied, if_pos rfl]
    rfl
  · have hother : relative old.artifact ≠ relative m.artifact := fun heq =>
      hsame (congrArg (pluginDir root m.id ++ ·) heq)
    have hread : tree₂.read (artifactPath root m old.artifact) =
        tree.read (artifactPath root m old.artifact) :=
      FileTree.read_congr (h.get?_below (relative_ne_nil hold) hother)
    rw [hread]
    exact (or_iff_left hsame).symm

/-- When the previous artifact can be removed after them. -/
theorem succeeds_removeStale_iff (h : Steps toml root source m tree tree₁ tree₂ bytes)
    (hwritten : tree₂.write (pluginDir root m.id ++ ["plugin.toml"]) (encode text) = some tree₃) :
    Succeeds (io (removeStale refuses (pluginDir root m.id)
        ((showMeta toml refuses root tree m.id).map (·.artifact)) m.artifact)) tree₃ ↔
      CanTidy toml refuses root m tree := by
  rw [succeeds_io_iff, CanTidy, removeStale.eq_def]
  cases hshown : showMeta toml refuses root tree m.id with
  | none => exact iff_of_true ⟨(), tree₃, rfl⟩ fun old hold => by cases hold
  | some old =>
    obtain ⟨-, -, -, -, hbasic⟩ := showMeta_eq_some_iff.mp hshown
    have hthere : ∀ hfile : namesDirectory old.artifact = false,
        (tree₃.read (artifactPath root m old.artifact)).isSome = true ↔ _ :=
      fun hfile => h.isSome_read_iff hwritten hbasic hfile
    constructor
    · rintro ⟨_, tree', hrun⟩ old' hsome hne hfile hlook hbefore
      cases hsome
      have hisSome := (hthere hfile).mpr hbefore
      have hisFile : (existsNamed refuses tree₃ (pluginDir root m.id) old.artifact &&
          (tree₃.read (pluginDir root m.id ++ relative old.artifact)).isSome) = true :=
        Bool.and_eq_true_iff.mpr ⟨(existsNamed_iff hisSome).mpr ⟨hlook, hfile⟩, hisSome⟩
      change (if _ then _ else _ : Effect FileTree String Unit) tree₃ = _ at hrun
      rw [if_pos ⟨hne, hisFile, hbasic.safe⟩] at hrun
      exact (Disk.removeFile_eq_ok_iff.mp hrun).1
    · intro hcan
      show Succeeds (if _ then _ else _ : Effect FileTree String Unit) tree₃
      split
      · next hcond =>
        obtain ⟨hne, hisFile, -⟩ := hcond
        obtain ⟨hexists, hisSome⟩ := Bool.and_eq_true_iff.mp hisFile
        obtain ⟨hlook, hfile⟩ := (existsNamed_iff hisSome).mp hexists
        obtain ⟨tree', hremoved⟩ := FileTree.exists_removeFile_iff.mpr hisSome
        exact ⟨(), tree', Disk.removeFile_eq_ok_iff.mpr
          ⟨hcan old rfl hne hfile hlook ((hthere hfile).mp hisSome), hremoved⟩⟩
      · exact ⟨(), tree₃, rfl⟩

end Steps

/-- The steps of a commit that follow the copy of the artifact. -/
def describe (toml : TomlCrate) (refuses : Refusals) (root : List String) (m : PluginMeta)
    (previous : Option String) : Effect FileTree StoreError Unit := do
  let text ← lift ((toml.write m).mapError .toml)
  io (Disk.write refuses (pluginDir root m.id ++ ["plugin.toml"]) (encode text))
  io (removeStale refuses (pluginDir root m.id) previous m.artifact)

theorem succeeds_lift_iff {α : Type} {x : Except StoreError α} :
    Succeeds (lift x) tree ↔ ∃ a, x = .ok a := by
  constructor
  · rintro ⟨a, tree', h⟩
    exact ⟨a, (Effect.lift_eq_ok_iff.mp h).1⟩
  · rintro ⟨a, h⟩
    exact ⟨a, tree, Effect.lift_eq_ok_iff.mpr ⟨h, rfl⟩⟩

/-- What is left behind when a step after the copy fails. -/
theorem Steps.failsAs_describe_iff {bytes : List UInt8}
    (h : Steps toml root source m tree tree₁ tree₂ bytes) :
    FailsAs Same tree (describe toml refuses root m
        ((showMeta toml refuses root tree m.id).map (·.artifact))) tree₂ ↔
      (¬ CanDescribe toml refuses root m tree → Same tree tree₂) ∧
        (CanDescribe toml refuses root m tree → ¬ CanTidy toml refuses root m tree →
          Same tree tree₂ ∧ ∃ text, toml.write m = .ok text ∧
            tree.read (metadataPath root m) = some (encode text)) := by
  rw [describe, Effect.failsAs_bind_iff (Effect.atomic_lift _), succeeds_lift_iff]
  cases htext : toml.write m with
  | error e =>
    have hcannot : ¬ CanDescribe toml refuses root m tree := by
      rintro ⟨⟨text, hok⟩, -, -⟩
      rw [htext] at hok
      cases hok
    constructor
    · exact fun hfails => ⟨fun _ => hfails.1 (by simp [Except.mapError]),
        fun hcan => absurd hcan hcannot⟩
    · refine fun hfirst => ⟨fun _ => hfirst.1 hcannot, fun text tree' hlift => ?_⟩
      cases (Effect.lift_eq_ok_iff.mp hlift).1
  | ok text =>
    have hwrite : Succeeds (io (Disk.write refuses (pluginDir root m.id ++ ["plugin.toml"])
        (encode text))) tree₂ ↔ CanDescribe toml refuses root m tree := h.succeeds_write_iff htext
    have htidy : ∀ tree₃, Disk.write refuses (pluginDir root m.id ++ ["plugin.toml"]) (encode text)
          tree₂ = (.ok (), tree₃) →
        (FailsAs Same tree (io (removeStale refuses (pluginDir root m.id)
            ((showMeta toml refuses root tree m.id).map (·.artifact)) m.artifact)) tree₃ ↔
          (¬ CanTidy toml refuses root m tree → Same tree tree₂ ∧
            tree.read (metadataPath root m) = some (encode text))) := by
      intro tree₃ hrun
      have hwritten := (Disk.write_eq_ok_iff.mp hrun).2
      rw [(atomic_io atomic_removeStale).failsAs_iff, h.succeeds_removeStale_iff hwritten,
        h.same_write_iff hwritten, h.same_iff]
    constructor
    · rintro ⟨-, hfails⟩
      obtain ⟨hdescribe, hstale⟩ :=
        (Effect.failsAs_bind_iff (atomic_io (Effect.atomic_change _))).mp
        (hfails text tree₂ (Effect.lift_eq_ok_iff.mpr ⟨rfl, rfl⟩))
      refine ⟨fun hcannot => hdescribe (mt hwrite.mp hcannot), fun hcan hcannot => ?_⟩
      obtain ⟨_, tree₃, hrun⟩ := hwrite.mpr hcan
      obtain ⟨hsame, hread⟩ := (htidy tree₃ (io_eq_ok_iff.mp hrun)).mp
        (hstale () tree₃ hrun) hcannot
      exact ⟨hsame, text, rfl, hread⟩
    · rintro ⟨hdescribe, hstale⟩
      refine ⟨fun hnot => absurd ⟨text, rfl⟩ hnot, fun text' tree' hlift => ?_⟩
      obtain ⟨hok, rfl⟩ := Effect.lift_eq_ok_iff.mp hlift
      obtain rfl : text = text' := Except.ok.inj hok
      refine (Effect.failsAs_bind_iff (atomic_io (Effect.atomic_change _))).mpr
        ⟨fun hnot => hdescribe (mt hwrite.mpr hnot), fun _ tree₃ hrun => ?_⟩
      refine (htidy tree₃ (io_eq_ok_iff.mp hrun)).mpr fun hcannot => ?_
      obtain ⟨hsame, text', htext', hread⟩ := hstale (hwrite.mp ⟨_, tree₃, hrun⟩) hcannot
      cases htext'
      exact ⟨hsame, hread⟩

/-- The steps of a commit that follow the directory. -/
def copy (toml : TomlCrate) (refuses : Refusals) (root : List String) (source : LocalSource)
    (m : PluginMeta) (previous : Option String) : Effect FileTree StoreError Unit := do
  let bytes ← io (lift source.bytes)
  io (writeNamed refuses (pluginDir root m.id) m.artifact bytes)
  describe toml refuses root m previous

/-- What is left behind when a step after the directory fails. -/
theorem failsAs_copy_iff (hm : m.Basic) (hmade : tree.makeDirs (pluginDir root m.id) = some tree₁)
    (hcan : CanMakeDir refuses root m tree) :
    FailsAs Same tree (copy toml refuses root source m
        ((showMeta toml refuses root tree m.id).map (·.artifact))) tree₁ ↔
      FailsFirst toml refuses root source m tree := by
  have hdir := FileTree.same_makeDirs_iff hmade
  rw [copy, Effect.failsAs_bind_iff (atomic_io (Effect.atomic_lift _)), succeeds_io_iff]
  cases hbytes : source.bytes with
  | error e =>
    have hcannot : ¬ CanCopy refuses root source m tree := by
      rintro ⟨⟨bytes, hok⟩, -⟩
      rw [hbytes] at hok
      cases hok
    have hnot : ¬ Succeeds (lift (.error e) : Effect FileTree String (List UInt8)) tree₁ := by
      rintro ⟨bytes, tree', hlift⟩
      cases (Effect.lift_eq_ok_iff.mp hlift).1
    constructor
    · exact fun hfails => ⟨fun _ _ => hdir.mp (hfails.1 hnot), fun _ h => absurd h hcannot,
        fun _ h => absurd h hcannot⟩
    · refine fun hfirst =>
        ⟨fun _ => hdir.mpr (hfirst.copy hcan hcannot), fun bytes tree' hlift => ?_⟩
      cases (Effect.lift_eq_ok_iff.mp (io_eq_ok_iff.mp hlift)).1
  | ok bytes =>
    have hcopy : Succeeds (io (writeNamed refuses (pluginDir root m.id) m.artifact bytes)) tree₁ ↔
        CanCopy refuses root source m tree := succeeds_writeNamed_iff hm hmade hbytes
    have hsteps : ∀ tree₂, writeNamed refuses (pluginDir root m.id) m.artifact bytes tree₁ =
        (.ok (), tree₂) → Steps toml root source m tree tree₁ tree₂ bytes := by
      intro tree₂ hrun
      obtain ⟨hfile, -, hcopied⟩ := writeNamed_eq_ok_iff.mp hrun
      exact ⟨hm, hfile, hbytes, hmade, hcopied⟩
    constructor
    · rintro ⟨-, hfails⟩
      obtain ⟨hfirst, hrest⟩ := (Effect.failsAs_bind_iff (atomic_io atomic_writeNamed)).mp
        (hfails bytes tree₁ (io_eq_ok_iff.mpr (Effect.lift_eq_ok_iff.mpr ⟨rfl, rfl⟩)))
      refine ⟨fun _ hcannot => hdir.mp (hfirst (mt hcopy.mp hcannot)), fun _ hcan hcannot => ?_,
        fun _ hcan hdescribed hcannot => ?_⟩
      · obtain ⟨_, tree₂, hrun⟩ := hcopy.mpr hcan
        have h := hsteps tree₂ (io_eq_ok_iff.mp hrun)
        obtain ⟨hthere, hread⟩ :=
          h.same_iff.mp ((h.failsAs_describe_iff.mp (hrest () tree₂ hrun)).1 hcannot)
        exact ⟨hthere, bytes, hbytes, hread⟩
      · obtain ⟨_, tree₂, hrun⟩ := hcopy.mpr hcan
        have h := hsteps tree₂ (io_eq_ok_iff.mp hrun)
        obtain ⟨hsame, hmetadata⟩ :=
          (h.failsAs_describe_iff.mp (hrest () tree₂ hrun)).2 hdescribed hcannot
        obtain ⟨hthere, hread⟩ := h.same_iff.mp hsame
        exact ⟨hthere, ⟨bytes, hbytes, hread⟩, hmetadata⟩
    · intro hfirst
      refine ⟨fun hnot => absurd ⟨bytes, tree₁, rfl⟩ hnot, fun bytes' tree' hlift => ?_⟩
      obtain ⟨hok, rfl⟩ := Effect.lift_eq_ok_iff.mp (io_eq_ok_iff.mp hlift)
      obtain rfl : bytes = bytes' := Except.ok.inj hok
      refine (Effect.failsAs_bind_iff (atomic_io atomic_writeNamed)).mpr
        ⟨fun hnot => hdir.mpr (hfirst.copy hcan (mt hcopy.mpr hnot)), fun _ tree₂ hrun => ?_⟩
      have h := hsteps tree₂ (io_eq_ok_iff.mp hrun)
      have hcopied := hcopy.mp ⟨_, tree₂, hrun⟩
      have hread : ∀ {bytes'}, source.bytes = .ok bytes' → bytes' = bytes := by
        intro bytes' heq
        rw [hbytes] at heq
        exact (Except.ok.inj heq).symm
      refine h.failsAs_describe_iff.mpr ⟨fun hcannot => ?_, fun hdescribed hcannot => ?_⟩
      · obtain ⟨hthere, bytes', heq, hartifact⟩ := hfirst.describe hcan hcopied hcannot
        exact h.same_iff.mpr ⟨hthere, hread heq ▸ hartifact⟩
      · obtain ⟨hthere, ⟨bytes', heq, hartifact⟩, hmetadata⟩ :=
          hfirst.tidy hcan hcopied hdescribed hcannot
        exact ⟨h.same_iff.mpr ⟨hthere, hread heq ▸ hartifact⟩, hmetadata⟩

/-- **When a failed commit changes nothing.** -/
theorem failsAs_commit_iff (hm : m.Basic) :
    FailsAs Same tree (commit toml refuses root source m) tree ↔
      FailsFirst toml refuses root source m tree := by
  have hcommit : FailsAs Same tree (commit toml refuses root source m) tree ↔
      FailsAs Same tree (io (Disk.makeDirs refuses (pluginDir root m.id)) >>= fun _ =>
        copy toml refuses root source m
          ((showMeta toml refuses root tree m.id).map (·.artifact))) tree := Iff.rfl
  have hatomic : Atomic (io (Disk.makeDirs refuses (pluginDir root m.id))) :=
    atomic_io (Effect.atomic_change _)
  rw [hcommit, Effect.failsAs_bind_iff hatomic, and_iff_right fun _ => Same.refl tree]
  by_cases hcan : CanMakeDir refuses root m tree
  · obtain ⟨_, tree₁, hrun⟩ := succeeds_makeDirs_iff.mpr hcan
    have hmade := (Disk.makeDirs_eq_ok_iff.mp (io_eq_ok_iff.mp hrun)).2
    rw [← failsAs_copy_iff hm hmade hcan]
    constructor
    · exact fun hfails => hfails () tree₁ hrun
    · rintro hfails _ tree' hrun'
      obtain rfl : tree₁ = tree' := congrArg Prod.snd (hrun.symm.trans hrun')
      exact hfails
  · refine iff_of_true (fun _ tree₁ hrun => absurd ?_ hcan)
      ⟨fun h => absurd h hcan, fun h => absurd h hcan, fun h => absurd h hcan⟩
    exact succeeds_makeDirs_iff.mp ⟨_, tree₁, hrun⟩

/-- When a failed installation leaves the store as it was. -/
theorem keepsOnFailure_install_iff (source : LocalSource) (opts : InstallOpts) :
    KeepsOnFailure toml refuses root (install toml refuses root source opts) tree ↔
      ∀ m, checkInstall toml refuses root tree source opts = .ok m →
        FailsFirst toml refuses root source m tree := by
  have hsame : AsBefore toml refuses root = Same := by
    funext tree tree'
    exact propext asBefore_iff
  have hinstall : install toml refuses root source opts tree =
      (lift (checkInstall toml refuses root tree source opts) >>= fun m =>
        commit toml refuses root source m >>= fun _ => pure m :
          Effect FileTree StoreError PluginMeta) tree := rfl
  rw [KeepsOnFailure, hsame, FailsAs, hinstall]
  cases hcheck : checkInstall toml refuses root tree source opts with
  | error e =>
    refine iff_of_true (fun e' tree' hrun => ?_) fun m hm => by cases hm
    cases hrun
    exact Same.refl tree
  | ok m =>
    obtain ⟨-, -, -, -, -, -, hbasic⟩ :=
      sourceMeta_eq_ok_iff.mp (checkInstall_eq_ok_iff.mp hcheck).1
    have hlift : (lift (.ok m) >>= fun m => commit toml refuses root source m >>= fun _ => pure m :
        Effect FileTree StoreError PluginMeta) tree =
          (commit toml refuses root source m >>= fun _ => pure m :
            Effect FileTree StoreError PluginMeta) tree := rfl
    rw [hlift, ← FailsAs, Effect.failsAs_bind_pure_iff, failsAs_commit_iff hbasic]
    exact ⟨fun h m' hm' => Except.ok.inj hm' ▸ h, fun h => h m rfl⟩

/-- An update is an installation under the id, over what is there. -/
theorem update_eq_install (id : String) (source : LocalSource) :
    update toml refuses root id source =
      install toml refuses root source { id := some id, force := true } := by
  funext tree
  by_cases hlocal : source.remote = false
  · have hensure : ensure (source.remote = false) StoreError.remoteUnsupported = .ok () :=
      if_pos hlocal
    rw [update, hensure]
    rfl
  · have hensure : ensure (source.remote = false) StoreError.remoteUnsupported =
        .error .remoteUnsupported := if_neg hlocal
    have hcheck : checkInstall toml refuses root tree source { id := some id, force := true } =
        .error .remoteUnsupported := by
      rw [checkInstall, sourceMeta, hensure]
      rfl
    have hinstall : install toml refuses root source { id := some id, force := true } tree =
        (lift (checkInstall toml refuses root tree source { id := some id, force := true }) >>=
          fun m => commit toml refuses root source m >>= fun _ => pure m :
            Effect FileTree StoreError PluginMeta) tree := rfl
    rw [update, hensure, hinstall, hcheck]
    rfl

/-- **When a failed installation or update leaves the store as it was**: each step that is done
before one that cannot be done finds what it makes. -/
theorem keepsOnFailure_iff (toml : TomlCrate) (refuses : Refusals) (root : List String)
    (tree : FileTree) (source : LocalSource) :
    (∀ opts, KeepsOnFailure toml refuses root (install toml refuses root source opts) tree ↔
        ∀ m, checkInstall toml refuses root tree source opts = .ok m →
          FailsFirst toml refuses root source m tree) ∧
      ∀ id, KeepsOnFailure toml refuses root (update toml refuses root id source) tree ↔
        ∀ m, checkInstall toml refuses root tree source { id := some id, force := true } = .ok m →
          FailsFirst toml refuses root source m tree := by
  refine ⟨keepsOnFailure_install_iff source, fun id => ?_⟩
  rw [← keepsOnFailure_install_iff, KeepsOnFailure, FailsAs, update_eq_install]
  rfl

/-! ### An artifact in a directory of its own -/

/-- The metadata of a plugin with such an artifact. -/
def nestedMeta : PluginMeta where
  id := "nested"
  name := "Nested"
  version := "1.0.0"
  author := ""
  description := ""
  kind := "wasm"
  artifact := "sub/rule.wasm"
  abiMajor := 1
  abiMinor := 0

/-- The metadata as TOML. -/
def nestedText : String :=
  "id = \"nested\"\nname = \"Nested\"\nversion = \"1.0.0\"\nauthor = \"\"\n" ++
    "description = \"\"\nkind = \"wasm\"\nartifact = \"sub/rule.wasm\"\nabi_major = 1\n" ++
    "abi_minor = 0\n"

/-- TOML, as far as one text is concerned. -/
def TomlCrate.single (m : PluginMeta) (text : String) : TomlCrate where
  parse raw := if raw = text then .ok m else .error "missing field"
  write m' := if m' = m then .ok text else .error "not the metadata of the text"

theorem TomlCrate.parse_single (m : PluginMeta) (text : String) :
    (TomlCrate.single m text).parse text = .ok m := if_pos rfl

theorem TomlCrate.write_single (m : PluginMeta) (text : String) :
    (TomlCrate.single m text).write m = .ok text := if_pos rfl

theorem TomlCrate.single_roundTrips (m : PluginMeta) (text : String) :
    (TomlCrate.single m text).RoundTrips := by
  intro m' written h
  by_cases hm : m' = m
  · subst hm
    rw [← Except.ok.inj ((write_single m' text).symm.trans h), parse_single]
  · have hwrite : (TomlCrate.single m text).write m' = .error "not the metadata of the text" :=
      if_neg hm
    rw [hwrite] at h
    cases h

/-- A module of a rule without findings, which exports the id `team/rule` and the severity of a
warning. -/
def ruleModule : List UInt8 :=
  [0, 97, 115, 109, 1, 0, 0, 0, 1, 20, 4, 96, 1, 126, 1, 126, 96, 2, 126, 127, 0, 96, 2, 126, 126,
    0, 96, 0, 1, 127, 2, 109, 4, 15, 101, 120, 116, 105, 115, 109, 58, 104, 111, 115, 116, 47, 101,
    110, 118, 5, 97, 108, 108, 111, 99, 0, 0, 15, 101, 120, 116, 105, 115, 109, 58, 104, 111, 115,
    116, 47, 101, 110, 118, 8, 115, 116, 111, 114, 101, 95, 117, 56, 0, 1, 15, 101, 120, 116, 105,
    115, 109, 58, 104, 111, 115, 116, 47, 101, 110, 118, 9, 115, 116, 111, 114, 101, 95, 117, 54,
    52, 0, 2, 15, 101, 120, 116, 105, 115, 109, 58, 104, 111, 115, 116, 47, 101, 110, 118, 10, 111,
    117, 116, 112, 117, 116, 95, 115, 101, 116, 0, 2, 3, 6, 5, 3, 3, 3, 3, 3, 7, 113, 5, 23, 115,
    100, 107, 116, 95, 112, 108, 117, 103, 105, 110, 95, 97, 98, 105, 95, 118, 101, 114, 115, 105,
    111, 110, 0, 4, 14, 115, 100, 107, 116, 95, 112, 108, 117, 103, 105, 110, 95, 105, 100, 0, 5,
    20, 115, 100, 107, 116, 95, 112, 108, 117, 103, 105, 110, 95, 115, 101, 118, 101, 114, 105, 116,
    121, 0, 6, 23, 115, 100, 107, 116, 95, 112, 108, 117, 103, 105, 110, 95, 100, 101, 115, 99, 114,
    105, 112, 116, 105, 111, 110, 0, 7, 17, 115, 100, 107, 116, 95, 112, 108, 117, 103, 105, 110,
    95, 99, 104, 101, 99, 107, 0, 8, 10, 136, 1, 5, 24, 1, 1, 126, 66, 8, 16, 0, 33, 0, 32, 0, 66,
    1, 16, 2, 32, 0, 66, 8, 16, 3, 65, 0, 11, 43, 1, 1, 126, 66, 9, 16, 0, 33, 0, 32, 0, 66, 244,
    202, 133, 235, 246, 197, 220, 186, 236, 0, 16, 2, 32, 0, 66, 8, 124, 65, 229, 0, 16, 1, 32, 0,
    66, 9, 16, 3, 65, 0, 11, 24, 1, 1, 126, 66, 8, 16, 0, 33, 0, 32, 0, 66, 1, 16, 2, 32, 0, 66, 8,
    16, 3, 65, 0, 11, 4, 0, 65, 0, 11, 35, 1, 1, 126, 66, 2, 16, 0, 33, 0, 32, 0, 65, 219, 0, 16, 1,
    32, 0, 66, 1, 124, 65, 221, 0, 16, 1, 32, 0, 66, 2, 16, 3, 65, 0, 11]

/-- A path that the plugin is installed from. -/
def nestedSource : LocalSource where
  remote := false
  manifest := some nestedText
  extension := some "wasm"
  dryRun _ := .ok ()
  bytes := .ok ruleModule

/-- The installation of the plugin into an empty store fails, and the plugin is there. -/
theorem not_keepsOnFailure_nested :
    ¬ KeepsOnFailure (.single nestedMeta nestedText) (fun _ _ => none) ["plugins"]
        (install (.single nestedMeta nestedText) (fun _ _ => none) ["plugins"] nestedSource
          ⟨none, false⟩) .empty := by
  intro h
  have hfails : (install (.single nestedMeta nestedText) (fun _ _ => none) ["plugins"]
      nestedSource ⟨none, false⟩ .empty).1 = .error (.io Refusals.osError) := by decide +kernel
  have hleft : (install (.single nestedMeta nestedText) (fun _ _ => none) ["plugins"]
      nestedSource ⟨none, false⟩ .empty).2.get? ["plugins", "nested"] = some .dir := by
    decide +kernel
  generalize hrun : install (.single nestedMeta nestedText) (fun _ _ => none) ["plugins"]
    nestedSource ⟨none, false⟩ .empty = result at hfails hleft
  have hkept := (h _ result.2 (hrun.trans (Prod.ext hfails rfl))).same ["plugins", "nested"]
  rw [hleft] at hkept
  exact absurd hkept (by decide)

end

end SorobanDevkit.Audit
