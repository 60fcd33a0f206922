import SorobanDevkit.Library.Disk
import SorobanDevkit.Library.Fallible
import SorobanDevkit.Library.PathText
import SorobanDevkit.Library.Strings
import SorobanDevkit.Library.Utf8Lossy
import Mathlib.Data.List.Sort
import Mathlib.Data.Ordering.Basic

/-!
# The plugin store

A plugin is a directory in the root of the store, under its id with some characters replaced, with a
`plugin.toml` and an artifact in it. TOML is a parameter, and so is what the disk refuses.
-/

namespace SorobanDevkit.Audit

open Except Strings Utf8Lossy

/-! ### Metadata -/

/-- Metadata stored in the `plugin.toml` of a plugin. -/
structure PluginMeta where
  id : String
  name : String
  version : String
  author : String
  description : String
  kind : String
  artifact : String
  abiMajor : UInt32
  abiMinor : UInt32
  deriving DecidableEq

/-- Errors of the plugin store. -/
inductive StoreError
  | io (message : String)
  | toml (message : String)
  | invalidMetadata (message : String)
  | abiMismatch (pluginMajor hostMajor : UInt32)
  | kindExtMismatch (kind actual : String)
  | notInstalled (id : String)
  | alreadyInstalled (id : String)
  | dryRunLoad (message : String)
  | remoteUnsupported
  | invalidBundle (message : String)
  | invalidSignature
  deriving DecidableEq

/-- `SDKT_AUDIT_ABI_MAJOR`. -/
def auditAbiMajor : UInt32 := 1

/-- The path is relative and its components are names. -/
def isSafeRelativePath (path : String) : Bool := PathText.isSafe '/' '.' path.toList

/-- The names in a path that is safe. -/
def relative (path : String) : List String :=
  (PathText.names '/' '.' path.toList).map String.ofList

/-- The path ends like that of a directory. -/
def namesDirectory (path : String) : Bool := PathText.namesDirectory '/' '.' path.toList

/-- The names in a bundle that are not for the artifact. -/
def reservedPaths : List String :=
  ["plugin.toml", "manifest.sha256", "signature.ed25519", "public_key.ed25519"]

namespace PluginMeta

variable (m : PluginMeta)

/-- The checks that do not depend on the ABI of the host. -/
def validateBasic : Except StoreError Unit := do
  ensure (trim m.id ≠ "") (.invalidMetadata "id must not be empty")
  ensure (m.kind = "native" ∨ m.kind = "wasm")
    (.invalidMetadata ("kind must be 'native' or 'wasm', got '" ++ m.kind ++ "'"))
  ensure (trim m.artifact ≠ "") (.invalidMetadata "artifact must not be empty")
  ensure (isSafeRelativePath m.artifact = true)
    (.invalidMetadata "artifact must be a safe relative path")
  ensure (m.artifact ∉ reservedPaths)
    (.invalidMetadata "artifact uses a reserved bundle path")

/-- The checks that do not need the artifact. -/
def validate : Except StoreError Unit := do
  m.validateBasic
  ensure (m.abiMajor = auditAbiMajor) (.abiMismatch m.abiMajor auditAbiMajor)

/-- The metadata passes the checks that do not depend on the ABI of the host. -/
structure Basic : Prop where
  id : trim m.id ≠ ""
  kind : m.kind = "native" ∨ m.kind = "wasm"
  artifact : trim m.artifact ≠ ""
  safe : isSafeRelativePath m.artifact = true
  notReserved : m.artifact ∉ reservedPaths

variable {m}

theorem validateBasic_eq_ok_iff {u : Unit} : m.validateBasic = .ok u ↔ m.Basic := by
  simp only [validateBasic, bind_eq_ok_iff, ensure_eq_ok_iff]
  constructor
  · rintro ⟨-, hid, -, hkind, -, hartifact, -, hsafe, hreserved⟩
    exact ⟨hid, hkind, hartifact, hsafe, hreserved⟩
  · rintro ⟨hid, hkind, hartifact, hsafe, hreserved⟩
    exact ⟨(), hid, (), hkind, (), hartifact, (), hsafe, hreserved⟩

theorem validate_eq_ok_iff {u : Unit} : m.validate = .ok u ↔ m.Basic ∧
    m.abiMajor = auditAbiMajor := by
  simp only [validate, bind_eq_ok_iff, ensure_eq_ok_iff, validateBasic_eq_ok_iff]
  exact ⟨fun ⟨_, hbasic, habi⟩ => ⟨hbasic, habi⟩, fun ⟨hbasic, habi⟩ => ⟨(), hbasic, habi⟩⟩

end PluginMeta

/-! ### Where a plugin is -/

/-- A character of an id, in the name of a directory. -/
def sanitizeChar (c : Char) : Char :=
  if c = '/' ∨ c = '\\' ∨ c = '.' ∨ c = ':' ∨ c = ' ' then '_' else c

/-- The name of the directory of an id. -/
def sanitizeId (id : String) : String := String.ofList (id.toList.map sanitizeChar)

/-- The directory of a plugin. An empty name adds nothing to the root. -/
def pluginDir (root : List String) (id : String) : List String :=
  if sanitizeId id = "" then root else root ++ [sanitizeId id]

/-! ### What the store reports -/

/-- TOML, as the store uses it. -/
structure TomlCrate where
  parse : String → Except String PluginMeta
  write : PluginMeta → Except String String

/-- What is written can be parsed. -/
def TomlCrate.RoundTrips (toml : TomlCrate) : Prop :=
  ∀ m text, toml.write m = .ok text → toml.parse text = .ok m

variable (toml : TomlCrate) (refuses : Refusals) (root : List String)

/-- Parses `plugin.toml` content. -/
def parseMeta (raw : String) : Except StoreError PluginMeta := do
  let m ← (toml.parse raw).mapError .toml
  m.validate
  return m

/-- The text of a file. -/
def readToString (tree : FileTree) (path : List String) : Option String :=
  (Disk.read refuses tree path).toOption.bind fromUtf8

/-- Reads and validates the metadata of a plugin from its directory. -/
def readMeta (tree : FileTree) (id : String) : Except StoreError PluginMeta :=
  match readToString refuses tree (pluginDir root id ++ ["plugin.toml"]) with
  | none => .error (.notInstalled id)
  | some raw => do
    let m ← (toml.parse raw).mapError .toml
    m.validateBasic
    return m

/-- The metadata of a plugin. -/
def showMeta (tree : FileTree) (id : String) : Option PluginMeta :=
  (readMeta toml refuses root tree id).toOption

/-- There is a file or a directory under a name in a directory. -/
def existsNamed (tree : FileTree) (dir : List String) (name : String) : Bool :=
  (refuses .look (dir ++ relative name)).isNone &&
    match tree.get? (dir ++ relative name) with
    | some .dir => true
    | some (.file _) => !namesDirectory name
    | none => false

/-- The path of the artifact of a plugin: the directory and the name in it. -/
def resolve (tree : FileTree) (id : String) : Option (List String × String) :=
  (showMeta toml refuses root tree id).bind fun m =>
    if existsNamed refuses tree (pluginDir root id) m.artifact then
      some (pluginDir root id, m.artifact)
    else none

/-- The order of a listing. -/
def PluginMeta.cmp (a b : PluginMeta) : Ordering :=
  (compare a.id b.id).then <| (compare a.version b.version).then <| (compare a.name b.name).then <|
    (compare a.author b.author).then <| (compare a.description b.description).then <|
    (compare a.kind b.kind).then <| (compare a.artifact b.artifact).then <|
    (compare a.abiMajor b.abiMajor).then (compare a.abiMinor b.abiMinor)

/-- The metadata of all plugins. -/
def listIn (tree : FileTree) : List PluginMeta :=
  if Disk.isDir refuses tree root ∧ refuses .list root = none then
    ((tree.children root).filterMap fun name =>
      if Disk.isDir refuses tree (root ++ [name]) then showMeta toml refuses root tree name
      else none).insertionSort fun a b => (a.cmp b).isLE
  else []

/-! ### Changes of the store -/

/-- The extension is one of the kind. -/
def validateKindExt (m : PluginMeta) (extension : Option String) : Except StoreError Unit :=
  let ext := String.ofList ((extension.getD "").toList.map Char.toLower)
  ensure (m.kind = "native" ∧ (ext = "so" ∨ ext = "dylib" ∨ ext = "dll") ∨
    m.kind = "wasm" ∧ ext = "wasm") (.kindExtMismatch m.kind ext)

/-- Options of an installation. -/
structure InstallOpts where
  id : Option String
  force : Bool

/-- A path from which a plugin is installed: whether it is a URL, the text of the `plugin.toml` next
to it, its extension, the result of loading it as a plugin of a kind, and what is read from it. -/
structure LocalSource where
  remote : Bool
  manifest : Option String
  extension : Option String
  dryRun : String → Except String Unit
  bytes : Except String (List UInt8)

/-- The metadata with the id that overrides its own. -/
def overrideId (opts : InstallOpts) (parsed : PluginMeta) : Except StoreError PluginMeta :=
  match opts.id with
  | none => .ok parsed
  | some id => do
    ({ parsed with id }).validate
    return { parsed with id }

/-- The text of the `plugin.toml` next to an artifact. -/
def manifestNextTo (source : LocalSource) : Except StoreError String :=
  match source.manifest with
  | some raw => .ok raw
  | none => .error (.invalidMetadata "plugin.toml not found next to the artifact")

/-- The metadata to install. -/
def sourceMeta (source : LocalSource) (opts : InstallOpts) : Except StoreError PluginMeta := do
  ensure (source.remote = false) .remoteUnsupported
  let raw ← manifestNextTo source
  let parsed ← parseMeta toml raw
  overrideId opts parsed

/-- The checks of an installation, all of which come before the store is changed. -/
def checkInstall (tree : FileTree) (source : LocalSource) (opts : InstallOpts) :
    Except StoreError PluginMeta := do
  let m ← sourceMeta toml source opts
  validateKindExt m source.extension
  ensure (¬ (Disk.isThere refuses tree (pluginDir root m.id) = true ∧ opts.force = false))
    (.alreadyInstalled m.id)
  (source.dryRun m.kind).mapError .dryRunLoad
  return m

open Effect (lift ask)

/-- The errors of the disk. -/
def io {α : Type} (x : Effect FileTree String α) : Effect FileTree StoreError α :=
  Effect.mapError .io x

/-- Writes a file under a name in a directory. -/
def writeNamed (dir : List String) (name : String) (content : List UInt8) :
    Effect FileTree String Unit := do
  lift (ensure (namesDirectory name = false) Refusals.osError)
  Disk.write refuses (dir ++ relative name) content

/-- Removes the artifact of the previous metadata, unless it has the same name as the new one. -/
def removeStale (dir : List String) (previous : Option String) (artifact : String) :
    Effect FileTree String Unit :=
  match previous with
  | none => pure ()
  | some old => do
    let isFile ← ask fun tree =>
      existsNamed refuses tree dir old && (tree.read (dir ++ relative old)).isSome
    if old ≠ artifact ∧ isFile = true ∧ isSafeRelativePath old = true then
      Disk.removeFile refuses (dir ++ relative old)
    else pure ()

/-- Copies the artifact and writes the metadata. -/
def commit (source : LocalSource) (m : PluginMeta) : Effect FileTree StoreError Unit := do
  let previous ← ask fun tree => (showMeta toml refuses root tree m.id).map (·.artifact)
  io (Disk.makeDirs refuses (pluginDir root m.id))
  let bytes ← io (lift source.bytes)
  io (writeNamed refuses (pluginDir root m.id) m.artifact bytes)
  let text ← lift ((toml.write m).mapError .toml)
  io (Disk.write refuses (pluginDir root m.id ++ ["plugin.toml"]) (encode text))
  io (removeStale refuses (pluginDir root m.id) previous m.artifact)

/-- Installs a plugin from a local artifact path. -/
def install (source : LocalSource) (opts : InstallOpts) :
    Effect FileTree StoreError PluginMeta := do
  let checked ← ask fun tree => checkInstall toml refuses root tree source opts
  let m ← lift checked
  commit toml refuses root source m
  return m

/-- Removes an installed plugin by id. -/
def remove (id : String) : Effect FileTree StoreError Unit := do
  let there ← ask fun tree => Disk.isThere refuses tree (pluginDir root id)
  if there then io (Disk.removeAll refuses (pluginDir root id)) else pure ()

/-- Updates an installed plugin from a new local artifact. -/
def update (id : String) (source : LocalSource) : Effect FileTree StoreError PluginMeta := do
  lift (ensure (source.remote = false) .remoteUnsupported)
  install toml refuses root source { id := some id, force := true }

/-! ### What the metadata of a plugin is -/

variable {toml refuses root}

variable (toml refuses) in
/-- There is valid metadata in a directory. -/
def Stored (tree : FileTree) (dir : List String) (m : PluginMeta) : Prop :=
  refuses .read (dir ++ ["plugin.toml"]) = none ∧
    ∃ raw, tree.read (dir ++ ["plugin.toml"]) = some (encode raw) ∧ toml.parse raw = .ok m ∧ m.Basic

theorem readToString_eq_some_iff {tree : FileTree} {path : List String} {raw : String} :
    readToString refuses tree path = some raw ↔
      refuses .read path = none ∧ tree.read path = some (encode raw) := by
  rw [readToString, Option.bind_eq_some_iff]
  constructor
  · rintro ⟨bytes, hbytes, hraw⟩
    rw [Except.toOption_eq_some_iff, Disk.read, Refusals.grant_eq_ok_iff] at hbytes
    rwa [← fromUtf8_eq_some_iff.mp hraw]
  · rintro ⟨hrefuses, hread⟩
    exact ⟨encode raw, Except.toOption_eq_some_iff.mpr
      (Refusals.grant_eq_ok_iff.mpr ⟨hrefuses, hread⟩), fromUtf8_encode raw⟩

theorem showMeta_eq_some_iff {tree : FileTree} {id : String} {m : PluginMeta} :
    showMeta toml refuses root tree id = some m ↔
      Stored toml refuses tree (pluginDir root id) m := by
  rw [showMeta, Except.toOption_eq_some_iff, readMeta, Stored]
  cases hraw : readToString refuses tree (pluginDir root id ++ ["plugin.toml"]) with
  | none =>
    refine iff_of_false (by simp) ?_
    rintro ⟨hrefuses, raw, hread, -⟩
    rw [readToString_eq_some_iff.mpr ⟨hrefuses, hread⟩] at hraw
    cases hraw
  | some raw =>
    obtain ⟨hrefuses, hread⟩ := readToString_eq_some_iff.mp hraw
    simp only [bind_eq_ok_iff, mapError_eq_ok_iff, PluginMeta.validateBasic_eq_ok_iff]
    constructor
    · rintro ⟨m', hparse, -, hbasic, heq⟩
      cases heq
      exact ⟨hrefuses, raw, hread, hparse, hbasic⟩
    · rintro ⟨-, raw', hread', hparse, hbasic⟩
      rw [readToString_eq_some_iff.mpr ⟨hrefuses, hread'⟩] at hraw
      cases hraw
      exact ⟨m, hparse, (), hbasic, rfl⟩

/-- What is reported depends on the file alone. -/
theorem Stored.congr {tree tree' : FileTree} {dir : List String} {m : PluginMeta}
    (h : tree'.read (dir ++ ["plugin.toml"]) = tree.read (dir ++ ["plugin.toml"])) :
    Stored toml refuses tree' dir m ↔ Stored toml refuses tree dir m := by
  rw [Stored, h, Stored]

theorem parseMeta_eq_ok_iff {raw : String} {m : PluginMeta} : parseMeta toml raw = .ok m ↔
    toml.parse raw = .ok m ∧ m.Basic ∧ m.abiMajor = auditAbiMajor := by
  simp only [parseMeta, bind_eq_ok_iff, mapError_eq_ok_iff, PluginMeta.validate_eq_ok_iff]
  constructor
  · rintro ⟨m', hparse, -, hvalid, heq⟩
    cases heq
    exact ⟨hparse, hvalid⟩
  · rintro ⟨hparse, hvalid⟩
    exact ⟨m, hparse, (), hvalid, rfl⟩

theorem overrideId_eq_ok_iff {opts : InstallOpts} {parsed m : PluginMeta}
    (hparsed : parsed.Basic ∧ parsed.abiMajor = auditAbiMajor) : overrideId opts parsed = .ok m ↔
      m = { parsed with id := opts.id.getD parsed.id } ∧ m.Basic := by
  rw [overrideId]
  cases opts.id with
  | none =>
    rw [Except.ok.injEq, Option.getD_none]
    constructor
    · rintro rfl
      exact ⟨rfl, hparsed.1⟩
    · exact fun h => h.1.symm
  | some id =>
    simp only [bind_eq_ok_iff, PluginMeta.validate_eq_ok_iff, Option.getD_some]
    constructor
    · rintro ⟨-, ⟨hbasic, -⟩, heq⟩
      cases heq
      exact ⟨rfl, hbasic⟩
    · rintro ⟨rfl, hbasic⟩
      exact ⟨(), ⟨hbasic, hparsed.2⟩, rfl⟩

/-- The metadata to install is that of the source, with the id that overrides its own. -/
theorem sourceMeta_eq_ok_iff {source : LocalSource} {opts : InstallOpts} {m : PluginMeta} :
    sourceMeta toml source opts = .ok m ↔ source.remote = false ∧ ∃ raw parsed,
      source.manifest = some raw ∧ parseMeta toml raw = .ok parsed ∧
        m = { parsed with id := opts.id.getD parsed.id } ∧ m.Basic := by
  have hraw : ∀ raw, manifestNextTo source = .ok raw ↔ source.manifest = some raw := by
    intro raw
    rw [manifestNextTo]
    cases source.manifest <;> simp
  simp only [sourceMeta, bind_eq_ok_iff, ensure_eq_ok_iff, hraw]
  constructor
  · rintro ⟨-, hremote, raw, hmanifest, parsed, hparsed, hm⟩
    exact ⟨hremote, raw, parsed, hmanifest, hparsed,
      (overrideId_eq_ok_iff (parseMeta_eq_ok_iff.mp hparsed).2).mp hm⟩
  · rintro ⟨hremote, raw, parsed, hmanifest, hparsed, hm⟩
    exact ⟨(), hremote, raw, hmanifest, parsed, hparsed,
      (overrideId_eq_ok_iff (parseMeta_eq_ok_iff.mp hparsed).2).mpr hm⟩

/-! ### Names in the directory of a plugin -/

theorem relative_ne_nil {m : PluginMeta} (hm : m.Basic) : relative m.artifact ≠ [] := by
  have hne : m.artifact.toList ≠ [] := fun heq => hm.artifact (by rw [trim, heq]; rfl)
  exact fun h => PathText.names_ne_nil hm.safe hne (List.map_eq_nil_iff.mp h)

/-- A safe path of one name that does not end like a directory is that name. -/
theorem eq_of_relative_singleton {path name : String} (hsafe : isSafeRelativePath path = true)
    (hfile : namesDirectory path = false) (h : relative path = [name]) : path = name := by
  obtain ⟨chars, hnames, rfl⟩ := List.map_eq_singleton_iff.mp h
  rw [← PathText.eq_of_names_singleton hsafe hnames hfile, String.ofList_toList]

/-- The artifact has no reserved path. -/
theorem relative_ne_reserved {m : PluginMeta} (hm : m.Basic)
    (hfile : namesDirectory m.artifact = false)
    (name : String) (hname : name ∈ reservedPaths) : relative m.artifact ≠ [name] :=
  fun h => hm.notReserved (eq_of_relative_singleton hm.safe hfile h ▸ hname)

/-! ### What a change does -/

theorem io_eq_ok_iff {α : Type} {x : Effect FileTree String α} {a : α} {tree tree' : FileTree} :
    io x tree = (.ok a, tree') ↔ x tree = (.ok a, tree') :=
  Effect.mapError_eq_ok_iff

theorem keeps_io {α : Type} {R : FileTree → FileTree → Prop} {x : Effect FileTree String α}
    (h : Effect.Keeps R x) : Effect.Keeps R (io x) :=
  h

theorem writeNamed_eq_ok_iff {dir : List String} {name : String} {content : List UInt8}
    {u : Unit} {tree tree' : FileTree} : writeNamed refuses dir name content tree = (.ok u, tree') ↔
      namesDirectory name = false ∧ refuses .write (dir ++ relative name) = none ∧
        tree.write (dir ++ relative name) content = some tree' := by
  simp only [writeNamed, Effect.bind_eq_ok_iff, Effect.lift_eq_ok_iff, ensure_eq_ok_iff,
    Disk.write_eq_ok_iff]
  constructor
  · rintro ⟨-, tree₁, ⟨hfile, rfl⟩, hwrite⟩
    exact ⟨hfile, hwrite⟩
  · rintro ⟨hfile, hwrite⟩
    exact ⟨(), tree, ⟨hfile, rfl⟩, hwrite⟩

/-- What is at each path after the removal of the previous artifact. -/
theorem removeStale_ok {dir : List String} {previous : Option String} {artifact : String}
    {u : Unit} {tree tree' : FileTree}
    (h : removeStale refuses dir previous artifact tree = (.ok u, tree')) (path : List String) :
    tree'.get? path = tree.get? path ∨ tree'.get? path = none ∧ ∃ old, previous = some old ∧
      old ≠ artifact ∧ isSafeRelativePath old = true ∧ namesDirectory old = false ∧
        path = dir ++ relative old := by
  unfold removeStale at h
  cases previous with
  | none =>
    obtain ⟨-, rfl⟩ := Effect.pure_eq_ok_iff.mp h
    exact .inl rfl
  | some old =>
    obtain ⟨isFile, tree₁, hask, h⟩ := Effect.bind_eq_ok_iff.mp h
    obtain ⟨hisFile, rfl⟩ := Effect.ask_eq_ok_iff.mp hask
    split at h
    · next hcond =>
      obtain ⟨hne, rfl, hsafe⟩ := hcond
      obtain ⟨-, hremoved⟩ := Disk.removeFile_eq_ok_iff.mp h
      rw [FileTree.get?_removeFile hremoved]
      by_cases heq : path = dir ++ relative old
      · refine .inr ⟨if_pos heq, old, rfl, hne, hsafe, ?_, heq⟩
        obtain ⟨hthere, hread⟩ := Bool.and_eq_true_iff.mp hisFile
        obtain ⟨content, hcontent⟩ := Option.isSome_iff_exists.mp hread
        rw [existsNamed, FileTree.read_eq_some_iff.mp hcontent] at hthere
        simpa using (Bool.and_eq_true_iff.mp hthere).2
      · exact .inl (if_neg heq)
    · obtain ⟨-, rfl⟩ := Effect.pure_eq_ok_iff.mp h
      exact .inl rfl

variable (toml refuses root) in
/-- What a successful installation has done to the tree. -/
structure Committed (source : LocalSource) (m : PluginMeta) (tree tree' : FileTree) : Prop where
  file : namesDirectory m.artifact = false
  parent : (relative m.artifact).dropLast = [] ∨
    tree.get? (pluginDir root m.id ++ (relative m.artifact).dropLast) = some .dir
  manifest : ∃ text, toml.write m = .ok text ∧
    tree'.read (pluginDir root m.id ++ ["plugin.toml"]) = some (encode text)
  artifact : (∀ old, showMeta toml refuses root tree m.id = some old →
      old.artifact ≠ m.artifact → relative old.artifact ≠ relative m.artifact) →
    ∃ bytes, source.bytes = .ok bytes ∧
      tree'.read (pluginDir root m.id ++ relative m.artifact) = some bytes
  dirs : ∀ path, tree'.get? path = some .dir →
    tree.get? path = some .dir ∨ path <+: pluginDir root m.id
  dir : tree'.get? (pluginDir root m.id) = some .dir

theorem commit_ok {source : LocalSource} {m : PluginMeta} {tree tree' : FileTree} (hm : m.Basic)
    (h : commit toml refuses root source m tree = (.ok (), tree')) :
    Committed toml refuses root source m tree tree' := by
  simp only [commit, Effect.bind_eq_ok_iff, io_eq_ok_iff, Effect.ask_eq_ok_iff,
    Effect.lift_eq_ok_iff, Disk.makeDirs_eq_ok_iff, writeNamed_eq_ok_iff, Disk.write_eq_ok_iff,
    mapError_eq_ok_iff] at h
  obtain ⟨previous, _, ⟨hprevious, rfl⟩, -, tree₁, ⟨-, h₁⟩, bytes, _, ⟨hbytes, rfl⟩, -, tree₂,
    ⟨hfile, -, h₂⟩, text, _, ⟨htext, rfl⟩, -, tree₃, ⟨-, h₃⟩, hstale⟩ := h
  have hnil := relative_ne_nil hm
  have hmanifest := relative_ne_reserved hm hfile "plugin.toml" (by simp [reservedPaths])
  have hget₁ := FileTree.get?_makeDirs h₁
  have hget₂ := FileTree.get?_write h₂
  have hget₃ := FileTree.get?_write h₃
  -- what is removed is not the metadata, nor the directory
  have hold : ∀ old, previous = some old → old ≠ m.artifact → namesDirectory old = false →
      ∃ m', showMeta toml refuses root tree m.id = some m' ∧ m'.artifact = old ∧
        relative old ≠ ["plugin.toml"] ∧ relative old ≠ [] := by
    intro old heq _ hfile'
    rw [heq] at hprevious
    obtain ⟨m', hm', rfl⟩ := Option.map_eq_some_iff.mp hprevious
    obtain ⟨-, -, -, -, hbasic⟩ := showMeta_eq_some_iff.mp hm'
    exact ⟨m', hm', rfl, relative_ne_reserved hbasic hfile' "plugin.toml" (by simp [reservedPaths]),
      relative_ne_nil hbasic⟩
  refine ⟨hfile, ?_, ⟨text, htext, ?_⟩, fun hnoalias => ⟨bytes, hbytes, ?_⟩,
    fun path hpath => ?_, ?_⟩
  · obtain ⟨hparent, -⟩ := FileTree.exists_write_iff.mp ⟨tree₂, h₂⟩
    rw [List.dropLast_append_of_ne_nil hnil, hget₁] at hparent
    split at hparent
    · next hpre =>
      left
      have hlength := hpre.length_le
      rw [List.length_append] at hlength
      exact List.length_eq_zero_iff.mp (by omega)
    · exact .inr hparent
  · rw [FileTree.read_eq_some_iff]
    rcases removeStale_ok hstale (pluginDir root m.id ++ ["plugin.toml"]) with
      heq | ⟨-, old, hprev, hne, -, hfile', heq⟩
    · rw [heq, hget₃, if_pos rfl]
    · obtain ⟨-, -, -, hnot, -⟩ := hold old hprev hne hfile'
      exact absurd (List.append_cancel_left heq).symm hnot
  · rw [FileTree.read_eq_some_iff]
    rcases removeStale_ok hstale (pluginDir root m.id ++ relative m.artifact) with
      heq | ⟨-, old, hprev, hne, -, hfile', heq⟩
    · rw [heq, hget₃, if_neg (fun h => hmanifest (List.append_cancel_left h)), hget₂, if_pos rfl]
    · obtain ⟨m', hm', rfl, -⟩ := hold old hprev hne hfile'
      exact absurd (List.append_cancel_left heq).symm (hnoalias m' hm' hne)
  · rcases removeStale_ok hstale path with heq | ⟨hnone, -⟩
    · rw [heq, hget₃] at hpath
      split at hpath
      · cases hpath
      · rw [hget₂] at hpath
        split at hpath
        · cases hpath
        · rw [hget₁] at hpath
          split at hpath
          · next hpre => exact .inr hpre
          · exact .inl hpath
    · rw [hnone] at hpath
      cases hpath
  · rcases removeStale_ok hstale (pluginDir root m.id) with
      heq | ⟨-, old, hprev, hne, -, hfile', heq⟩
    · have hself : ∀ {names : List String}, names ≠ [] →
          pluginDir root m.id ≠ pluginDir root m.id ++ names :=
        fun hnames heq => hnames (List.self_eq_append_right.mp heq)
      rw [heq, hget₃, if_neg (hself (List.cons_ne_nil _ _)), hget₂, if_neg (hself hnil), hget₁,
        if_pos List.prefix_rfl]
    · obtain ⟨-, -, -, -, hnot⟩ := hold old hprev hne hfile'
      exact absurd (List.self_eq_append_right.mp heq) hnot

variable (toml root) in
/-- What an installation may have done to the tree, whether it succeeds or not. -/
structure Changed (m : PluginMeta) (tree tree' : FileTree) : Prop where
  outside : SameOutside (pluginDir root m.id) tree tree'
  manifest : tree'.get? (pluginDir root m.id ++ ["plugin.toml"]) =
      tree.get? (pluginDir root m.id ++ ["plugin.toml"]) ∨
    ∃ text, toml.write m = .ok text ∧
      tree'.get? (pluginDir root m.id ++ ["plugin.toml"]) = some (.file (encode text))
  dirs : ∀ path, tree'.get? path = some .dir →
    tree.get? path = some .dir ∨ path <+: pluginDir root m.id

namespace Changed

variable {m : PluginMeta}

theorem refl (tree : FileTree) : Changed toml root m tree tree :=
  ⟨.refl tree, .inl rfl, fun _ h => .inl h⟩

theorem trans (tree tree' tree'' : FileTree) (h : Changed toml root m tree tree')
    (h' : Changed toml root m tree' tree'') : Changed toml root m tree tree'' where
  outside := h.outside.trans _ _ _ h'.outside
  manifest := by
    rcases h'.manifest with heq | htext
    · rw [heq]
      exact h.manifest
    · exact .inr htext
  dirs path hpath := by
    rcases h'.dirs path hpath with hdir | hpre
    · exact h.dirs path hdir
    · exact .inr hpre

end Changed

open Effect (Keeps)

variable {m : PluginMeta}

theorem Changed.of_makeDirs {tree tree' : FileTree}
    (h : tree.makeDirs (pluginDir root m.id) = some tree') : Changed toml root m tree tree' := by
  have hget := FileTree.get?_makeDirs h
  refine ⟨.of_makeDirs (.inl List.prefix_rfl) h, .inl ?_, fun path hpath => ?_⟩
  · rw [hget, if_neg]
    intro hpre
    have hlength := hpre.length_le
    rw [List.length_append, List.length_singleton] at hlength
    omega
  · rw [hget] at hpath
    split at hpath
    · next hpre => exact .inr hpre
    · exact .inl hpath

theorem Changed.of_writeArtifact (hm : m.Basic) (hfile : namesDirectory m.artifact = false)
    {bytes : List UInt8} {tree tree' : FileTree}
    (h : tree.write (pluginDir root m.id ++ relative m.artifact) bytes = some tree') :
    Changed toml root m tree tree' := by
  have hget := FileTree.get?_write h
  have hmanifest := relative_ne_reserved hm hfile "plugin.toml" (by simp [reservedPaths])
  refine ⟨.of_write (List.prefix_append _ _) h, .inl ?_, fun path hpath => ?_⟩
  · rw [hget, if_neg (fun heq => hmanifest (List.append_cancel_left heq).symm)]
  · rw [hget] at hpath
    split at hpath
    · cases hpath
    · exact .inl hpath

theorem Changed.of_writeManifest {text : String} (htext : toml.write m = .ok text)
    {tree tree' : FileTree}
    (h : tree.write (pluginDir root m.id ++ ["plugin.toml"]) (encode text) = some tree') :
    Changed toml root m tree tree' := by
  have hget := FileTree.get?_write h
  refine ⟨.of_write (List.prefix_append _ _) h, .inr ⟨text, htext, ?_⟩, fun path hpath => ?_⟩
  · rw [hget, if_pos rfl]
  · rw [hget] at hpath
    split at hpath
    · cases hpath
    · exact .inl hpath

theorem Changed.of_removeFile {names : List String} (hnames : names ≠ ["plugin.toml"])
    {tree tree' : FileTree} (h : tree.removeFile (pluginDir root m.id ++ names) = some tree') :
    Changed toml root m tree tree' := by
  have hget := FileTree.get?_removeFile h
  refine ⟨.of_removeFile (List.prefix_append _ _) h, .inl ?_, fun path hpath => ?_⟩
  · rw [hget, if_neg (fun heq => hnames (List.append_cancel_left heq).symm)]
  · rw [hget] at hpath
    split at hpath
    · cases hpath
    · exact .inl hpath

/-- The previous artifact is removed, which is not the metadata. -/
theorem keeps_removeStale {previous : Option String}
    (h : ∀ old, previous = some old → isSafeRelativePath old = true ∧ old ∉ reservedPaths) :
    Keeps (Changed toml root m)
      (removeStale refuses (pluginDir root m.id) previous m.artifact) := by
  unfold removeStale
  cases previous with
  | none => exact Effect.keeps_pure Changed.refl ()
  | some old =>
    intro tree
    show Changed toml root m tree ((if _ then _ else _ : Effect FileTree String Unit) tree).2
    split
    · next hcond =>
      obtain ⟨-, hisFile, hsafe⟩ := hcond
      obtain ⟨hthere, hread⟩ := Bool.and_eq_true_iff.mp hisFile
      obtain ⟨content, hcontent⟩ := Option.isSome_iff_exists.mp hread
      rw [existsNamed, FileTree.read_eq_some_iff.mp hcontent] at hthere
      have hfile : namesDirectory old = false := by simpa using (Bool.and_eq_true_iff.mp hthere).2
      refine Disk.keeps_removeFile Changed.refl
        (fun tree tree' => Changed.of_removeFile fun heq => ?_) tree
      have hold := eq_of_relative_singleton hsafe hfile heq
      exact (h old rfl).2 (by simp [hold, reservedPaths])
    · exact Changed.refl tree

theorem keeps_commit (hm : m.Basic) (source : LocalSource) :
    Keeps (Changed toml root m) (commit toml refuses root source m) := by
  intro tree
  have hprevious : ∀ old, (showMeta toml refuses root tree m.id).map (·.artifact) = some old →
      isSafeRelativePath old = true ∧ old ∉ reservedPaths := by
    intro old heq
    obtain ⟨m', hm', rfl⟩ := Option.map_eq_some_iff.mp heq
    obtain ⟨-, -, -, -, hbasic⟩ := showMeta_eq_some_iff.mp hm'
    exact ⟨hbasic.safe, hbasic.notReserved⟩
  have hrest : Keeps (Changed toml root m) (do
      io (Disk.makeDirs refuses (pluginDir root m.id))
      let bytes ← io (lift source.bytes)
      io (writeNamed refuses (pluginDir root m.id) m.artifact bytes)
      let text ← lift ((toml.write m).mapError .toml)
      io (Disk.write refuses (pluginDir root m.id ++ ["plugin.toml"]) (encode text))
      io (removeStale refuses (pluginDir root m.id)
        ((showMeta toml refuses root tree m.id).map (·.artifact)) m.artifact)) := by
    refine .bind Changed.trans
      (keeps_io (Disk.keeps_makeDirs Changed.refl fun _ _ => .of_makeDirs)) fun _ => ?_
    refine .bind Changed.trans (keeps_io (Effect.keeps_lift Changed.refl source.bytes)) fun bytes =>
      ?_
    refine .bind Changed.trans (keeps_io ?_) fun _ => ?_
    · refine .lift_bind Changed.refl fun _ hfile => ?_
      exact Disk.keeps_write Changed.refl fun _ _ =>
        .of_writeArtifact hm (ensure_eq_ok_iff.mp hfile)
    refine .lift_bind Changed.refl fun text htext => ?_
    refine .bind Changed.trans (keeps_io ?_) fun _ => keeps_io (keeps_removeStale hprevious)
    exact Disk.keeps_write Changed.refl fun _ _ =>
      .of_writeManifest (mapError_eq_ok_iff.mp htext)
  exact hrest tree

theorem checkInstall_eq_ok_iff {tree : FileTree} {source : LocalSource} {opts : InstallOpts} :
    checkInstall toml refuses root tree source opts = .ok m ↔
      sourceMeta toml source opts = .ok m ∧ validateKindExt m source.extension = .ok () ∧
        ¬ (Disk.isThere refuses tree (pluginDir root m.id) = true ∧ opts.force = false) ∧
        source.dryRun m.kind = .ok () := by
  simp only [checkInstall, bind_eq_ok_iff, ensure_eq_ok_iff, mapError_eq_ok_iff]
  constructor
  · rintro ⟨m', hm', _, hkind, _, hthere, _, hload, heq⟩
    cases heq
    exact ⟨hm', hkind, hthere, hload⟩
  · rintro ⟨hm, hkind, hthere, hload⟩
    exact ⟨m, hm, (), hkind, (), hthere, (), hload, rfl⟩

/-- **What an installation does to the tree.** -/
theorem install_cases {source : LocalSource} {opts : InstallOpts} {tree tree' : FileTree}
    {result : Except StoreError PluginMeta}
    (h : install toml refuses root source opts tree = (result, tree')) :
    (∃ e, checkInstall toml refuses root tree source opts = .error e ∧ result = .error e ∧
      tree' = tree) ∨
    ∃ m, checkInstall toml refuses root tree source opts = .ok m ∧
      Changed toml root m tree tree' ∧
      ∀ m', result = .ok m' → m' = m ∧ Committed toml refuses root source m tree tree' := by
  have hinstall : install toml refuses root source opts tree =
      (lift (checkInstall toml refuses root tree source opts) >>= fun m => do
        commit toml refuses root source m
        return m : Effect FileTree StoreError PluginMeta) tree := rfl
  rw [hinstall] at h
  cases hcheck : checkInstall toml refuses root tree source opts with
  | error e =>
    rw [hcheck] at h
    cases h
    exact .inl ⟨e, rfl, rfl, rfl⟩
  | ok m =>
    have hbasic : m.Basic := by
      obtain ⟨-, -, -, -, -, -, hbasic⟩ :=
        sourceMeta_eq_ok_iff.mp (checkInstall_eq_ok_iff.mp hcheck).1
      exact hbasic
    have hcommit : install toml refuses root source opts tree =
        (commit toml refuses root source m >>= fun _ => pure m) tree := by
      rw [hinstall, hcheck]
      rfl
    rw [← hinstall, hcommit] at h
    refine .inr ⟨m, rfl, ?_, fun m' hm' => ?_⟩
    · have hkeeps : Changed toml root m tree
          ((commit toml refuses root source m >>= fun _ => pure m :
            Effect FileTree StoreError PluginMeta) tree).2 :=
        Keeps.bind Changed.trans (keeps_commit hbasic source)
          (fun _ => Effect.keeps_pure Changed.refl m) tree
      rwa [h] at hkeeps
    · rw [hm'] at h
      obtain ⟨_, tree₁, hok, hpure⟩ := Effect.bind_eq_ok_iff.mp h
      obtain ⟨rfl, rfl⟩ := Effect.pure_eq_ok_iff.mp hpure
      exact ⟨rfl, commit_ok hbasic hok⟩

/-- **What a removal does to the tree.** -/
theorem remove_cases {id : String} {tree tree' : FileTree} {result : Except StoreError Unit}
    (h : remove refuses root id tree = (result, tree')) :
    tree' = tree ∧ (result = .ok () → Disk.isThere refuses tree (pluginDir root id) = false) ∨
      tree.get? (pluginDir root id) = some .dir ∧ result = .ok () ∧
        tree' = tree.removeAll (pluginDir root id) := by
  have hremove : remove refuses root id tree =
      (if Disk.isThere refuses tree (pluginDir root id) then
        io (Disk.removeAll refuses (pluginDir root id))
      else pure () : Effect FileTree StoreError Unit) tree := rfl
  rw [hremove] at h
  split at h
  · cases result with
    | ok u =>
      obtain ⟨-, hdir, htree⟩ := Disk.removeAll_eq_ok_iff.mp (io_eq_ok_iff.mp h)
      exact .inr ⟨hdir, rfl, htree⟩
    | error e =>
      refine .inl ⟨?_, fun heq => by cases heq⟩
      rw [io, Effect.mapError, Disk.removeAll, Effect.change] at h
      split at h
      · cases h
      · cases h
        rfl
  · next hthere =>
    cases h
    exact .inl ⟨rfl, fun _ => by simpa using hthere⟩

end SorobanDevkit.Audit
