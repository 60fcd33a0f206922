import SorobanDevkit.Core.LockSoundness
import SorobanDevkit.Library.FileMoves
import SorobanDevkit.Library.Hex
import SorobanDevkit.Library.Sha256
import SorobanDevkit.Library.Utf8Lossy

/-!
# Package bundles

`pack` of `sdkt-core/src/package.rs` copies the manifest, the lock and the checkouts of the locked
dependencies into a bundle, and describes it: the commits are taken from the lock, and the
integrities are computed from what is in the cache. `unpack` reads a bundle, and
`verify_bundle_equivalence` compares it with its description. A bundle is taken by its content: the
bytes of the lock, and what git reads of the copied checkouts. An archive has the content that was
packed, and the staging directory, which is removed when it is made, is apart from the project. The
version of a package is not checked: with a slash at its end the archive is in that directory. No
path leads over a link. `Faults` says which steps fail.
-/

namespace SorobanDevkit.Core

open Strings

/-- `PackageError`, as far as bundles raise it. -/
inductive BundleError
  | other (message : String)
  | dependencyNotCached (name : String)
  deriving DecidableEq

/-- `BundleEntry`. -/
structure BundleEntry where
  name : String
  source : String
  gitUrl : String
  commitSha : String
  integrity : String
  cacheKey : String
  version : String
  deriving DecidableEq

/-- `PackageBundle`. -/
structure PackageBundle where
  schema : String
  name : String
  version : String
  format : String
  outPath : String
  lockSha256 : String
  entries : List BundleEntry
  createdAt : UInt64

/-- What is in a bundle: the bytes of the lock, and what git reads of the checkouts. -/
structure BundleContent where
  lockBytes : Option (List UInt8)
  checkouts : CacheReading

/-- What is at the path of a bundle: a directory, an archive of one, or nothing. -/
inductive Artifact
  | directory (content : BundleContent)
  | archive (content : BundleContent)
  | removed

/-- The content of an artifact. -/
def Artifact.content : Artifact → BundleContent
  | .directory content => content
  | .archive content => content
  | .removed => ⟨none, ⟨fun _ => false, fun _ => none, fun _ => none⟩⟩

/-- The steps that may fail, with their errors. -/
structure Faults where
  cleanStaging : Option String
  createStaging : Option String
  copyManifest : Option String
  writeLock : Option String
  copyCheckout : String → Option String
  writeDescriptor : Option String
  materialize : Option String
  removeStaging : Option String

/-- What `pack` reads. -/
structure PackEnv where
  manifest : Except String DevKitConfig
  lockBytes : Option (Except String (List UInt8))
  /-- `read_lock` on the bytes of the lock. -/
  parseLock : List UInt8 → Except String LockFile
  reading : CacheReading
  fs : FileSystem
  sha256 : List UInt8 → Vector UInt8 32
  now : UInt64
  /-- The working directory. -/
  cwd : List String
  faults : Faults

/-- `sha256_hex`. -/
def sha256Hex (sha256 : List UInt8 → Vector UInt8 32) (bytes : List UInt8) : String :=
  "sha256:" ++ Hex.encode (sha256 bytes).toList

/-- A step that may fail. -/
def step (what : String) (fault : Option String) : Except BundleError Unit :=
  match fault with
  | some e => .error (.other (what ++ ": " ++ e))
  | none => .ok ()

/-- The cache with the checkouts of some keys, read as the original ones. -/
def CacheReading.only (reading : CacheReading) (keys : List String) : CacheReading where
  present key := decide (key ∈ keys) && reading.present key
  head key := if key ∈ keys then reading.head key else none
  tree key := if key ∈ keys then reading.tree key else none

section Pack

variable (env : PackEnv) (base out format : String)

/-- The body of the loop of `pack`: the entry, with the key of the checkout that is copied. -/
def packEntry (config : DevKitConfig) (entry : DependencyLock) :
    Except BundleError (BundleEntry × Option String) :=
  let described (integrity cacheKey : String) : BundleEntry :=
    { name := entry.name, source := entry.source, gitUrl := entry.gitUrl,
      commitSha := entry.commitSha, integrity, cacheKey, version := entry.version }
  match config.dependencies.get? entry.name with
  | none => .ok (described entry.integrity "", none)
  | some dep =>
    let integrity := computeDependencyIntegrity env.reading env.fs base dep
    if dep.git.isSome then
      let key := gitCacheKey dep
      if env.reading.present key then do
        step ("copy " ++ checkoutPath (joinPath base ".sdkt-cache") key)
          (env.faults.copyCheckout key)
        .ok (described integrity key, some key)
      else .error (.dependencyNotCached entry.name)
    else .ok (described integrity "", none)

/-- The directory in which a bundle is made. -/
def stagingPath (pkg : PackageConfig) : String :=
  joinPath out (pkg.name.getD "" ++ "-" ++ pkg.version.getD "")

/-- The file of an archive. -/
def archivePath (pkg : PackageConfig) : String :=
  joinPath out (pkg.name.getD "" ++ "-" ++ pkg.version.getD "" ++ ".tar.zst")

/-- The archive is at or below the directory that is removed. -/
def inStaging (cwd : List String) (pkg : PackageConfig) : Bool :=
  PathText.follow cwd (stagingPath out pkg) <+: PathText.follow cwd (archivePath out pkg)

/-- `pack`. -/
def pack : Except BundleError (PackageBundle × Artifact) := do
  Except.ensure (format = "tar.zst" ∨ format = "dir")
    (BundleError.other ("unsupported --format '" ++ format ++ "' (expected 'tar.zst' or 'dir')"))
  let config ← env.manifest.mapError fun e => .other ("reading .sdkt.toml: " ++ e)
  match config.package with
  | none => .error (.other "manifest has no [package] table")
  | some pkg =>
    let name := pkg.name.getD ""
    let version := pkg.version.getD ""
    Except.ensure (name ≠ "" ∧ version ≠ "")
      (BundleError.other "package name and version are required to pack")
    match env.lockBytes with
    | none => .error (.other "sdkt.lock not found; run `sdkt package fetch` before packing")
    | some read =>
      let lockBytes ← read.mapError fun e => .other ("read sdkt.lock: " ++ e)
      let lock ← (env.parseLock lockBytes).mapError fun e => .other ("parse sdkt.lock: " ++ e)
      let staging := stagingPath out pkg
      step ("clean staging " ++ staging) env.faults.cleanStaging
      step ("create staging " ++ staging) env.faults.createStaging
      step "copy .sdkt.toml" env.faults.copyManifest
      step "write sdkt.lock" env.faults.writeLock
      let packed ← lock.dependencies.mapM (packEntry env base config)
      step ("write " ++ joinPath staging "package.json") env.faults.writeDescriptor
      let content : BundleContent :=
        { lockBytes := some lockBytes
          checkouts := env.reading.only (packed.filterMap Prod.snd) }
      let described (outPath : String) : PackageBundle :=
        { schema := "sdkt.package.bundle/v1", name, version, format, outPath
          lockSha256 := sha256Hex env.sha256 lockBytes
          entries := packed.map Prod.fst
          createdAt := env.now }
      if format = "tar.zst" then do
        step ("create " ++ archivePath out pkg) env.faults.materialize
        step ("clean staging " ++ staging) env.faults.removeStaging
        .ok (described (archivePath out pkg),
          if inStaging out env.cwd pkg then .removed else .archive content)
      else .ok (described staging, .directory content)

end Pack

/-- `Path::file_name`, or nothing. -/
def fileName (path : String) : String :=
  match (PathText.components '/' '.' path.toList).getLast? with
  | some (.normal name) => String.ofList name
  | _ => ""

/-- The file name is read as that of an archive. -/
def isTar (name : String) : Bool :=
  ".tar.zst".toList <:+ name.toList ∨ ".tgz".toList <:+ name.toList

/-- `unpack` into an empty directory. -/
def unpack (path : String) (artifact : Artifact) : Except BundleError BundleContent :=
  match artifact with
  | .archive content =>
    if isTar (fileName path) then .ok content
    else .error (.other ("read " ++ path ++ ": Not a directory (os error 20)"))
  | .directory content =>
    if isTar (fileName path) then .error (.other "tar extract: Is a directory (os error 21)")
    else .ok content
  | .removed =>
    if isTar (fileName path) then
      .error (.other ("open " ++ path ++ ": No such file or directory (os error 2)"))
    else .error (.other ("read " ++ path ++ ": No such file or directory (os error 2)"))

/-- The check of `verify_bundle_equivalence` on one entry. -/
def entryEquivalent (checkouts : CacheReading) (entry : BundleEntry) : Bool :=
  if entry.source ≠ "git" ∨ entry.cacheKey = "" then true
  else if checkouts.present entry.cacheKey = false then false
  else
    match checkouts.tree entry.cacheKey with
    | none => false
    | some tree => "sha256:" ++ tree = entry.integrity

/-- `verify_bundle_equivalence`. -/
def verifyBundleEquivalence (sha256 : List UInt8 → Vector UInt8 32) (content : BundleContent)
    (bundle : PackageBundle) : Except BundleError Bool :=
  match content.lockBytes with
  | none => .error (.other "read sdkt.lock: No such file or directory (os error 2)")
  | some lockBytes =>
    if sha256Hex sha256 lockBytes ≠ bundle.lockSha256 then .ok false
    else .ok (bundle.entries.all (entryEquivalent content.checkouts))

/-! ### What is packed -/

/-- The bundle contains the checkout of a locked dependency as its description claims it: at the
locked commit, and with the described and the locked integrity, where these are recorded. -/
structure Contains (content : BundleContent) (described : BundleEntry) (entry : DependencyLock) :
    Prop where
  name : described.name = entry.name
  present : content.checkouts.present described.cacheKey = true
  commit : entry.commitSha ≠ "" →
    content.checkouts.head described.cacheKey = some entry.commitSha
  tree : ∃ tree, content.checkouts.tree described.cacheKey = some tree ∧
    described.integrity = "sha256:" ++ tree ∧
    (entry.integrity ≠ "" → entry.integrity = "sha256:" ++ tree)

/-- The dependency is declared as a git dependency, git reads its checkout, and the checkout is at
the locked commit with the locked integrity, where these are recorded. -/
structure Bundled (reading : CacheReading) (config : DevKitConfig) (entry : DependencyLock)
    (dep : Dependency) : Prop where
  declared : config.dependencies.get? entry.name = some dep
  git : dep.git.isSome
  commit : entry.commitSha ≠ "" → reading.head (gitCacheKey dep) = some entry.commitSha
  tree : ∃ tree, reading.tree (gitCacheKey dep) = some tree ∧ tree ≠ "" ∧
    (entry.integrity ≠ "" → entry.integrity = "sha256:" ++ tree)

section Packed

variable {env : PackEnv} {base out format : String} {config : DevKitConfig}

theorem gitCacheKey_ne_empty (dep : Dependency) : gitCacheKey dep ≠ "" := by
  intro h
  have hnil := congrArg String.toList h
  rw [gitCacheKey, hex16, String.toList_ofList] at hnil
  exact Nat.toDigits_ne_nil (List.append_eq_nil_iff.mp hnil).2

/-- What the loop of `pack` makes of an entry: a declared git dependency is copied, and described by
what is in the cache. -/
theorem packEntry_eq_ok {entry : DependencyLock} {described : BundleEntry} {copied : Option String}
    (h : packEntry env base config entry = .ok (described, copied)) :
    described.name = entry.name ∧ described.source = entry.source ∧
      ((∃ dep, config.dependencies.get? entry.name = some dep ∧ dep.git.isSome ∧
          env.reading.present (gitCacheKey dep) = true ∧ described.cacheKey = gitCacheKey dep ∧
          described.integrity = computeDependencyIntegrity env.reading env.fs base dep ∧
          copied = some (gitCacheKey dep)) ∨
        described.cacheKey = "" ∧ copied = none ∧
          ∀ dep, config.dependencies.get? entry.name = some dep → dep.git = none) := by
  rw [packEntry] at h
  simp only at h
  split at h
  · next hnone =>
    cases h
    refine ⟨rfl, rfl, .inr ⟨rfl, rfl, fun dep hdep => ?_⟩⟩
    cases hnone.symm.trans hdep
  · next dep hdep =>
    split at h
    · next hgit =>
      split at h
      · next hpresent =>
        obtain ⟨_, -, h⟩ := Except.bind_eq_ok_iff.mp h
        cases h
        exact ⟨rfl, rfl, .inl ⟨dep, hdep, hgit, hpresent, rfl, rfl, rfl⟩⟩
      · cases h
    · next hlocal =>
      cases h
      refine ⟨rfl, rfl, .inr ⟨rfl, rfl, fun dep' hdep' => ?_⟩⟩
      obtain rfl := Option.some.inj (hdep.symm.trans hdep')
      simpa [Option.isSome_iff_ne_none] using hlocal

/-- **What is packed**: the bytes of the lock, the described entries and the copied checkouts. -/
theorem pack_eq_ok {bundle : PackageBundle} {artifact : Artifact}
    (h : pack env base out format = .ok (bundle, artifact)) :
    ∃ config lockBytes lock packed, env.manifest = .ok config ∧
      env.lockBytes = some (.ok lockBytes) ∧ env.parseLock lockBytes = .ok lock ∧
      lock.dependencies.mapM (packEntry env base config) = .ok packed ∧
      bundle.lockSha256 = sha256Hex env.sha256 lockBytes ∧ bundle.entries = packed.map Prod.fst ∧
      ∃ pkg, config.package = some pkg ∧
        ((format = "tar.zst" ∧ bundle.outPath = archivePath out pkg ∧
            artifact = if inStaging out env.cwd pkg then .removed else
              .archive ⟨some lockBytes, env.reading.only (packed.filterMap Prod.snd)⟩) ∨
          format = "dir" ∧ bundle.outPath = stagingPath out pkg ∧ artifact =
            .directory ⟨some lockBytes, env.reading.only (packed.filterMap Prod.snd)⟩) := by
  obtain ⟨_, hformat, h⟩ := Except.bind_eq_ok_iff.mp h
  obtain ⟨config, hmanifest, h⟩ := Except.bind_eq_ok_iff.mp h
  split at h
  · cases h
  · next pkg hpkg =>
    obtain ⟨_, -, h⟩ := Except.bind_eq_ok_iff.mp h
    split at h
    · cases h
    · next read hread =>
      obtain ⟨lockBytes, hbytes, h⟩ := Except.bind_eq_ok_iff.mp h
      obtain ⟨lock, hlock, h⟩ := Except.bind_eq_ok_iff.mp h
      obtain ⟨_, -, h⟩ := Except.bind_eq_ok_iff.mp h
      obtain ⟨_, -, h⟩ := Except.bind_eq_ok_iff.mp h
      obtain ⟨_, -, h⟩ := Except.bind_eq_ok_iff.mp h
      obtain ⟨_, -, h⟩ := Except.bind_eq_ok_iff.mp h
      obtain ⟨packed, hpacked, h⟩ := Except.bind_eq_ok_iff.mp h
      obtain ⟨_, -, h⟩ := Except.bind_eq_ok_iff.mp h
      rw [Except.mapError_eq_ok_iff] at hmanifest hbytes hlock
      have hstart := And.intro hmanifest (And.intro (hread.trans (congrArg some hbytes)) hlock)
      rcases Except.ensure_eq_ok_iff.mp hformat with rfl | rfl
      · rw [if_pos rfl] at h
        obtain ⟨_, -, h⟩ := Except.bind_eq_ok_iff.mp h
        obtain ⟨_, -, h⟩ := Except.bind_eq_ok_iff.mp h
        obtain ⟨rfl, rfl⟩ := Prod.mk.inj (Except.ok.inj h)
        exact ⟨config, lockBytes, lock, packed, hstart.1, hstart.2.1, hstart.2.2, hpacked, rfl, rfl,
          pkg, hpkg, .inl ⟨rfl, rfl, rfl⟩⟩
      · rw [if_neg (by decide)] at h
        obtain ⟨rfl, rfl⟩ := Prod.mk.inj (Except.ok.inj h)
        exact ⟨config, lockBytes, lock, packed, hstart.1, hstart.2.1, hstart.2.2, hpacked, rfl, rfl,
          pkg, hpkg, .inr ⟨rfl, rfl, rfl⟩⟩

/-- A package is packed if its manifest and its lock are read, its dependencies are packed, and no
step fails. -/
theorem exists_pack {config : DevKitConfig} {pkg : PackageConfig} {lockBytes : List UInt8}
    {lock : LockFile} {packed : List (BundleEntry × Option String)}
    (hformat : format = "tar.zst" ∨ format = "dir") (hmanifest : env.manifest = .ok config)
    (hpkg : config.package = some pkg) (hnamed : pkg.name.getD "" ≠ "" ∧ pkg.version.getD "" ≠ "")
    (hbytes : env.lockBytes = some (.ok lockBytes)) (hlock : env.parseLock lockBytes = .ok lock)
    (hpacked : lock.dependencies.mapM (packEntry env base config) = .ok packed)
    (hfaults : env.faults = ⟨none, none, none, none, fun _ => none, none, none, none⟩) :
    ∃ bundle artifact, pack env base out format = .ok (bundle, artifact) := by
  simp only [pack, Except.ensure, if_pos hformat, hmanifest, hpkg, if_pos hnamed, hbytes, hlock,
    hpacked, hfaults, step, Except.mapError, bind, Except.bind]
  split_ifs <;> exact ⟨_, _, rfl⟩

theorem computeDependencyIntegrity_eq_iff {reading : CacheReading} {fs : FileSystem}
    {dep : Dependency} {tree : String} (hgit : dep.git.isSome)
    (hpresent : reading.present (gitCacheKey dep) = true)
    (htree : reading.tree (gitCacheKey dep) = some tree) :
    computeDependencyIntegrity reading fs base dep = "sha256:" ++ tree ↔ tree ≠ "" := by
  obtain ⟨url, hurl⟩ := Option.isSome_iff_exists.mp hgit
  rw [computeDependencyIntegrity, hurl]
  simp only [hpresent, if_true, htree]
  split
  · next hempty =>
    subst hempty
    exact iff_of_false (by decide) (by simp)
  · next hne => exact iff_of_true rfl hne

/-- An archive is read as one under its name. -/
theorem isTar_fileName_archive (out : String) (pkg : PackageConfig) :
    isTar (fileName (archivePath out pkg)) = true := by
  rw [archivePath]
  generalize pkg.name.getD "" ++ "-" ++ pkg.version.getD "" = front
  have hends : ∃ before, (joinPath out (front ++ ".tar.zst")).toList =
      before ++ ".tar.zst".toList := by
    by_cases habsolute : (front ++ ".tar.zst").toList.head? = some '/'
    · exact ⟨front.toList, by rw [joinPath_of_absolute habsolute, String.toList_append]⟩
    · refine ⟨(asDirectory out).toList ++ front.toList, ?_⟩
      rw [joinPath_of_relative habsolute, String.toList_append, String.toList_append,
        List.append_assoc]
  obtain ⟨before, hends⟩ := hends
  obtain ⟨last, hlast⟩ : ∃ last,
    (PathText.components '/' '.' (before ++ ".tar.zst".toList)).getLast? =
      some (.normal (last ++ ".tar.zst".toList)) :=
    PathText.getLast?_components_append (by decide) (by decide) before
  have hname : fileName (joinPath out (front ++ ".tar.zst")) =
      String.ofList (last ++ ".tar.zst".toList) := by
    rw [fileName, hends, hlast]
  have hchars : (String.ofList (last ++ ".tar.zst".toList)).toList = last ++ ".tar.zst".toList :=
    String.toList_ofList
  rw [hname, isTar, decide_eq_true_iff, hchars]
  exact .inl (List.suffix_append _ _)

section Loop

variable {lock : LockFile} {packed : List (BundleEntry × Option String)}
  (hpacked : lock.dependencies.mapM (packEntry env base config) = .ok packed)

include hpacked

theorem exists_of_mem_copied {key : String} (h : key ∈ packed.filterMap Prod.snd) :
    ∃ dep, key = gitCacheKey dep := by
  obtain ⟨⟨described, copied⟩, hmem, rfl⟩ := List.mem_filterMap.mp h
  obtain ⟨entry, -, hentry⟩ := Except.mem_of_mapM_eq_ok hpacked _ hmem
  obtain ⟨-, -, ⟨dep, -, -, -, -, -, hkey⟩ | ⟨-, hnone, -⟩⟩ := packEntry_eq_ok hentry
  · exact ⟨dep, Option.some.inj hkey⟩
  · cases hnone

/-- **A git entry is contained as it is claimed exactly when it is bundled.** -/
theorem exists_contains_iff {lockBytes : List UInt8} {entry : DependencyLock}
    (hentry : entry ∈ lock.dependencies) :
    (∃ described ∈ packed.map Prod.fst,
      Contains ⟨some lockBytes, env.reading.only (packed.filterMap Prod.snd)⟩ described entry) ↔
      ∃ dep, Bundled env.reading config entry dep := by
  constructor
  · rintro ⟨described, hmem, hcontains⟩
    obtain ⟨⟨_, copied⟩, hpair, rfl⟩ := List.mem_map.mp hmem
    obtain ⟨entry', -, hpack⟩ := Except.mem_of_mapM_eq_ok hpacked _ hpair
    obtain ⟨hname, -, ⟨dep, hdep, hgit, hpresent, hkey, hintegrity, hcopied⟩ | ⟨hkey, -, -⟩⟩ :=
      packEntry_eq_ok hpack
    · have hmemKey : gitCacheKey dep ∈ packed.filterMap Prod.snd :=
        List.mem_filterMap.mpr ⟨_, hpair, hcopied⟩
      have hsame : entry.name = entry'.name := hcontains.name.symm.trans hname
      obtain ⟨tree, htree, hdescribed, hlocked⟩ := hcontains.tree
      simp only [CacheReading.only, hkey, if_pos hmemKey] at htree
      refine ⟨dep, hsame ▸ hdep, hgit, fun hcommit => ?_, tree, htree, ?_, hlocked⟩
      · have hhead := hcontains.commit hcommit
        simpa only [CacheReading.only, hkey, if_pos hmemKey] using hhead
      · exact (computeDependencyIntegrity_eq_iff hgit hpresent htree).mp
          (hintegrity.symm.trans hdescribed)
    · have hpresent := hcontains.present
      simp only [CacheReading.only, hkey, Bool.and_eq_true, decide_eq_true_eq] at hpresent
      obtain ⟨dep, hempty⟩ := exists_of_mem_copied hpacked hpresent.1
      exact absurd hempty.symm (gitCacheKey_ne_empty dep)
  · rintro ⟨dep, hbundled⟩
    obtain ⟨⟨described, copied⟩, hmem, hpack⟩ := Except.exists_mem_of_mapM_eq_ok hpacked _ hentry
    refine ⟨described, List.mem_map.mpr ⟨_, hmem, rfl⟩, ?_⟩
    obtain ⟨hname, -, ⟨dep', hdep, hgit, hpresent, hkey, hintegrity, hcopied⟩ | ⟨-, -, hnone⟩⟩ :=
      packEntry_eq_ok hpack
    · obtain rfl := Option.some.inj (hbundled.declared.symm.trans hdep)
      have hmemKey : gitCacheKey dep ∈ packed.filterMap Prod.snd :=
        List.mem_filterMap.mpr ⟨_, hmem, hcopied⟩
      obtain ⟨tree, htree, hne, hlocked⟩ := hbundled.tree
      refine ⟨hname, ?_, fun hcommit => ?_, tree, ?_, ?_, hlocked⟩
      · simp only [CacheReading.only, hkey, hmemKey, decide_true, hpresent, Bool.and_self]
      · simpa only [CacheReading.only, hkey, if_pos hmemKey] using hbundled.commit hcommit
      · simpa only [CacheReading.only, hkey, if_pos hmemKey] using htree
      · exact hintegrity.trans ((computeDependencyIntegrity_eq_iff hgit hpresent htree).mpr hne)
    · have hsome := hbundled.git
      rw [hnone dep hbundled.declared] at hsome
      cases hsome

/-- When every git entry is bundled, the copied checkouts pass the check. -/
theorem all_entryEquivalent
    (hbundled : ∀ entry ∈ lock.dependencies, entry.source = "git" →
      ∃ dep, Bundled env.reading config entry dep) :
    (packed.map Prod.fst).all
      (entryEquivalent (env.reading.only (packed.filterMap Prod.snd))) = true := by
  rw [List.all_eq_true]
  intro described hmem
  obtain ⟨⟨_, copied⟩, hpair, rfl⟩ := List.mem_map.mp hmem
  obtain ⟨entry, hentry, hpack⟩ := Except.mem_of_mapM_eq_ok hpacked _ hpair
  obtain ⟨-, hsource, ⟨dep, hdep, hgit, hpresent, hkey, hintegrity, hcopied⟩ | ⟨hkey, -, -⟩⟩ :=
    packEntry_eq_ok hpack
  · by_cases hsourceGit : entry.source = "git"
    · obtain ⟨dep', hbundledDep⟩ := hbundled entry hentry hsourceGit
      obtain rfl := Option.some.inj (hbundledDep.declared.symm.trans hdep)
      have hmemKey : gitCacheKey dep' ∈ packed.filterMap Prod.snd :=
        List.mem_filterMap.mpr ⟨_, hpair, hcopied⟩
      obtain ⟨tree, htree, hne, -⟩ := hbundledDep.tree
      have htreeIntegrity : computeDependencyIntegrity env.reading env.fs base dep' =
          "sha256:" ++ tree := (computeDependencyIntegrity_eq_iff hgit hpresent htree).mpr hne
      simp only [entryEquivalent, CacheReading.only, hkey, hmemKey, decide_true, hpresent,
        Bool.and_self, Bool.true_eq_false, if_false, if_true, htree, hintegrity, htreeIntegrity,
        ite_self]
    · rw [entryEquivalent, if_pos (.inl (hsource.symm ▸ hsourceGit))]
  · rw [entryEquivalent, if_pos (.inr hkey)]

end Loop

end Packed

/-! ### What a bundle claims -/

section Claims

/-- What was written can be read: the archive is not removed with the staging directory, and a
directory is not taken for an archive. -/
structure Opens (cwd : List String) (out format : String) (pkg : PackageConfig) : Prop where
  archive : format = "tar.zst" → inStaging out cwd pkg = false
  directory : format = "dir" → isTar (fileName (stagingPath out pkg)) = false

/-- The description has a key for a git entry of a lock, and has it for some entry under `git`. -/
def Listed (bundle : PackageBundle) (entry : DependencyLock) : Prop :=
  ∃ described ∈ bundle.entries, described.name = entry.name ∧ described.cacheKey ≠ "" ∧
    ∃ checked ∈ bundle.entries, checked.source = "git" ∧ checked.cacheKey = described.cacheKey

/-- The checkouts of the git entries of a lock are in a bundle. -/
def Complete (content : BundleContent) (bundle : PackageBundle) (lock : LockFile) : Prop :=
  ∀ entry ∈ lock.dependencies, entry.source = "git" → ∃ described ∈ bundle.entries,
    described.name = entry.name ∧ described.cacheKey ≠ "" ∧
      content.checkouts.present described.cacheKey = true

/-- A git entry with a key that passes the check has its checkout in the bundle. -/
theorem present_of_entryEquivalent {checkouts : CacheReading} {described : BundleEntry}
    (h : entryEquivalent checkouts described = true) (hgit : described.source = "git")
    (hkey : described.cacheKey ≠ "") : checkouts.present described.cacheKey = true := by
  rw [entryEquivalent, if_neg (by simp [hgit, hkey])] at h
  split at h
  · cases h
  · next hpresent => exact Bool.of_not_eq_false hpresent

variable {sha256 : List UInt8 → Vector UInt8 32} {bundle : PackageBundle}
  {lockBytes : List UInt8}

/-- When a bundle passes the check. -/
theorem verifyBundleEquivalence_eq_true_iff {content : BundleContent}
    (hbytes : content.lockBytes = some lockBytes) :
    verifyBundleEquivalence sha256 content bundle = .ok true ↔
      sha256Hex sha256 lockBytes = bundle.lockSha256 ∧
        ∀ described ∈ bundle.entries, entryEquivalent content.checkouts described = true := by
  rw [verifyBundleEquivalence, hbytes]
  simp only
  split
  · next hsha => exact iff_of_false (by simp) fun h => hsha h.1
  · next hsha => simp [not_not.mp hsha]

/-- The check looks only at the checkouts with the keys of git entries. -/
theorem entryEquivalent_only {checkouts : CacheReading} {keys : List String}
    {described : BundleEntry} (h : described.source = "git" → described.cacheKey ∈ keys) :
    entryEquivalent (checkouts.only keys) described = entryEquivalent checkouts described := by
  rw [entryEquivalent, entryEquivalent]
  by_cases hskipped : described.source ≠ "git" ∨ described.cacheKey = ""
  · rw [if_pos hskipped, if_pos hskipped]
  · have hmem := h (not_not.mp (not_or.mp hskipped).1)
    simp [CacheReading.only, hmem]

/-- **A bundle that passes the check has the checkouts of the git entries of its lock exactly when
its description lists them.** -/
theorem complete_of_check_iff {lock : LockFile}
    (hpasses : ∃ content : BundleContent, content.lockBytes = some lockBytes ∧
      verifyBundleEquivalence sha256 content bundle = .ok true) :
    (∀ content : BundleContent, content.lockBytes = some lockBytes →
        verifyBundleEquivalence sha256 content bundle = .ok true → Complete content bundle lock) ↔
      ∀ entry ∈ lock.dependencies, entry.source = "git" → Listed bundle entry := by
  constructor
  · intro hcomplete entry hentry hgit
    obtain ⟨content, hbytes, hverified⟩ := hpasses
    obtain ⟨hsha, hall⟩ := (verifyBundleEquivalence_eq_true_iff hbytes).mp hverified
    -- the same bundle with the checkouts only that the check looks for
    let keys := (bundle.entries.filter fun d => d.source = "git").map BundleEntry.cacheKey
    have hkeys {d : BundleEntry} (hd : d ∈ bundle.entries) (hsource : d.source = "git") :
        d.cacheKey ∈ keys :=
      List.mem_map_of_mem (List.mem_filter.mpr ⟨hd, decide_eq_true hsource⟩)
    obtain ⟨described, hmem, hname, hkey, hpresent⟩ :=
      hcomplete ⟨some lockBytes, content.checkouts.only keys⟩ rfl
        ((verifyBundleEquivalence_eq_true_iff rfl).mpr ⟨hsha, fun d hd =>
          (entryEquivalent_only (hkeys hd)).trans (hall d hd)⟩) entry hentry hgit
    simp only [CacheReading.only, Bool.and_eq_true, decide_eq_true_eq] at hpresent
    obtain ⟨checked, hchecked, hsame⟩ := List.mem_map.mp hpresent.1
    obtain ⟨hchecked, hsource⟩ := List.mem_filter.mp hchecked
    exact ⟨described, hmem, hname, hkey, checked, hchecked, of_decide_eq_true hsource, hsame⟩
  · intro hlisted content hbytes hverified entry hentry hgit
    obtain ⟨described, hmem, hname, hkey, checked, hchecked, hsource, hsame⟩ :=
      hlisted entry hentry hgit
    have hall := ((verifyBundleEquivalence_eq_true_iff hbytes).mp hverified).2
    refine ⟨described, hmem, hname, hkey, ?_⟩
    rw [← hsame] at hkey ⊢
    exact present_of_entryEquivalent (hall checked hchecked) hsource hkey

variable {env : PackEnv} {base out format : String} {config : DevKitConfig} {artifact : Artifact}

theorem content_of_unpack {path : String} {content : BundleContent}
    (h : unpack path artifact = .ok content) : content = artifact.content := by
  cases artifact <;> rw [unpack] at h <;> split at h <;> cases h <;> rfl

/-- What was packed is read exactly if it opens, and then it is there. -/
theorem exists_unpack_iff {content : BundleContent} {cwd : List String} {pkg : PackageConfig}
    (hartifact : (format = "tar.zst" ∧ bundle.outPath = archivePath out pkg ∧
        artifact = if inStaging out cwd pkg then .removed else .archive content) ∨
      format = "dir" ∧ bundle.outPath = stagingPath out pkg ∧ artifact = .directory content) :
    ((∃ read, unpack bundle.outPath artifact = .ok read) ↔ Opens cwd out format pkg) ∧
      (Opens cwd out format pkg → artifact.content = content) := by
  rcases hartifact with ⟨rfl, hpath, rfl⟩ | ⟨rfl, hpath, rfl⟩
  · have htar := isTar_fileName_archive out pkg
    cases hinside : inStaging out cwd pkg with
    | true =>
      have hnot : ¬ Opens cwd out "tar.zst" pkg := fun h => by simp [h.archive rfl] at hinside
      refine ⟨iff_of_false ?_ hnot, fun h => absurd h hnot⟩
      simp [unpack, hpath, htar]
    | false =>
      have hopens : Opens cwd out "tar.zst" pkg := ⟨fun _ => hinside, fun h => absurd h (by decide)⟩
      exact ⟨iff_of_true ⟨content, by simp [unpack, hpath, htar]⟩ hopens, fun _ => rfl⟩
  · have hopens : Opens cwd out "dir" pkg ↔ isTar (fileName (stagingPath out pkg)) = false :=
      ⟨fun h => h.directory rfl, fun h => ⟨fun heq => absurd heq (by decide), fun _ => h⟩⟩
    rw [hopens, unpack, hpath]
    cases isTar (fileName (stagingPath out pkg)) <;> simp [Artifact.content]

/-- **A bundle has what its description claims exactly when every git entry of the lock is bundled**
and what was written can be read. A bundle that passes the check has the checkouts of the git
entries of its lock exactly when its description lists them. -/
theorem bundle_claims_iff {lock : LockFile} {pkg : PackageConfig}
    (hmanifest : env.manifest = .ok config) (hpkg : config.package = some pkg)
    (hbytes : env.lockBytes = some (.ok lockBytes)) (hlock : env.parseLock lockBytes = .ok lock)
    (h : pack env base out format = .ok (bundle, artifact)) :
    (((∀ entry ∈ lock.dependencies, entry.source = "git" →
          ∃ described ∈ bundle.entries, Contains artifact.content described entry) ∧
        ∃ content, unpack bundle.outPath artifact = .ok content ∧
          verifyBundleEquivalence env.sha256 content bundle = .ok true) ↔
      (∀ entry ∈ lock.dependencies, entry.source = "git" →
          ∃ dep, Bundled env.reading config entry dep) ∧ Opens env.cwd out format pkg) ∧
    ∀ (bundle' : PackageBundle) (lockBytes' : List UInt8) (lock' : LockFile),
      env.parseLock lockBytes' = .ok lock' →
      (∃ content : BundleContent, content.lockBytes = some lockBytes' ∧
        verifyBundleEquivalence env.sha256 content bundle' = .ok true) →
      ((∀ content : BundleContent, content.lockBytes = some lockBytes' →
          verifyBundleEquivalence env.sha256 content bundle' = .ok true →
            Complete content bundle' lock') ↔
        ∀ entry ∈ lock'.dependencies, entry.source = "git" → Listed bundle' entry) := by
  refine ⟨?_, fun bundle' lockBytes' lock' _ hpasses => complete_of_check_iff hpasses⟩
  obtain ⟨config', lockBytes', lock', packed, hmanifest', hbytes', hlock', hpacked, hsha, hentries,
    pkg', hpkg', hartifact⟩ := pack_eq_ok h
  obtain rfl := Except.ok.inj (hmanifest.symm.trans hmanifest')
  obtain rfl := Option.some.inj (hpkg.symm.trans hpkg')
  obtain rfl := Except.ok.inj (Option.some.inj (hbytes.symm.trans hbytes'))
  obtain rfl := Except.ok.inj (hlock.symm.trans hlock')
  obtain ⟨hunpack, hcontent⟩ := exists_unpack_iff hartifact
  have hcontained (hopens : Opens env.cwd out format pkg) : (∀ entry ∈ lock.dependencies,
      entry.source = "git" →
        ∃ described ∈ bundle.entries, Contains artifact.content described entry) ↔
      ∀ entry ∈ lock.dependencies, entry.source = "git" →
        ∃ dep, Bundled env.reading config entry dep := by
    rw [hcontent hopens, hentries]
    exact forall₂_congr fun entry hentry => imp_congr_right fun _ =>
      exists_contains_iff hpacked hentry
  constructor
  · rintro ⟨hall, content, hok, -⟩
    have hopens := hunpack.mp ⟨content, hok⟩
    exact ⟨(hcontained hopens).mp hall, hopens⟩
  · rintro ⟨hbundled, hopens⟩
    obtain ⟨content, hok⟩ := hunpack.mpr hopens
    refine ⟨(hcontained hopens).mpr hbundled, content, hok, ?_⟩
    rw [content_of_unpack hok, hcontent hopens, verifyBundleEquivalence_eq_true_iff rfl, hentries]
    exact ⟨hsha.symm, List.all_eq_true.mp (all_entryEquivalent hpacked hbundled)⟩

/-- The lock of the library at a commit, as it is written. -/
def libraryLockText (commit : ObjectId) : String :=
  "version = 1\ndeploy_order = []\ncontracts = []\n\n[[dependencies]]\nname = \"library\"\n" ++
    "source = \"git\"\noriginal_source = \"https://host/library\"\n" ++
    "git_url = \"https://host/library\"\nresolved_reference = \"v1.0.0\"\ncommit_sha = \"" ++
    commit.text ++ "\"\ncache_location = \"/app/.sdkt-cache/git/" ++ gitCacheKey libraryDep ++
    "\"\nintegrity = \"sha256:tree of " ++ commit.text ++ "\"\n"

/-- The reader of the lock of the library at the first commit. -/
@[irreducible] def parseLibraryLock (bytes : List UInt8) : Except String LockFile :=
  if bytes = Utf8Lossy.encode (libraryLockText commit₀) then .ok (libraryLock commit₀)
  else .error "expected `=`"

theorem parseLibraryLock_encode :
    parseLibraryLock (Utf8Lossy.encode (libraryLockText commit₀)) = .ok (libraryLock commit₀) := by
  rw [parseLibraryLock, if_pos rfl]

/-- The manifest of the library, its lock at the first commit, and a cache at a commit. -/
def libraryPackEnv (commit : ObjectId) : PackEnv where
  manifest := .ok libraryConfig
  lockBytes := some (.ok (Utf8Lossy.encode (libraryLockText commit₀)))
  parseLock := parseLibraryLock
  reading := ⟨fun _ => true, fun _ => some commit.text, fun _ => some ("tree of " ++ commit.text)⟩
  fs := ⟨fun _ => true, fun _ => none⟩
  sha256 := Sha256.digest
  now := 0
  cwd := ["app"]
  faults := ⟨none, none, none, none, fun _ => none, none, none, none⟩

/-- The library is packed as it was locked. -/
theorem bundle_claims_iff_library : ∃ bundle artifact,
    pack (libraryPackEnv commit₀) "/app" "/out" "tar.zst" = .ok (bundle, artifact) ∧
      (∀ entry ∈ (libraryLock commit₀).dependencies, entry.source = "git" →
        ∃ described ∈ bundle.entries, Contains artifact.content described entry) ∧
      ∃ content, unpack bundle.outPath artifact = .ok content ∧
        verifyBundleEquivalence (libraryPackEnv commit₀).sha256 content bundle = .ok true := by
  obtain ⟨bundle, artifact, hpack⟩ : ∃ bundle artifact,
      pack (libraryPackEnv commit₀) "/app" "/out" "tar.zst" = .ok (bundle, artifact) :=
    exists_pack (.inl rfl) rfl rfl (by decide) rfl parseLibraryLock_encode rfl rfl
  refine ⟨bundle, artifact, hpack,
    (bundle_claims_iff rfl rfl rfl parseLibraryLock_encode hpack).1.mpr
      ⟨?_, fun _ => by decide, fun h => absurd h (by decide)⟩⟩
  refine List.forall_mem_singleton.mpr fun _ =>
    ⟨libraryDep, rfl, rfl, fun _ => rfl, _, rfl, ?_, fun _ => rfl⟩
  decide

/-- A project without dependencies. -/
def emptiedConfig : DevKitConfig :=
  { libraryConfig with dependencies := ⟨[], List.nodup_nil⟩ }

/-- The lock of a dependency that is no longer in the manifest. -/
def removedPackEnv : PackEnv := { libraryPackEnv commit₀ with manifest := .ok emptiedConfig }

/-- A version that ends with a slash. -/
def slashedPackage : PackageConfig := ⟨some "app", some "1.0.0/", none⟩

/-- The library as it was locked, in a package with such a version. -/
def slashedPackEnv : PackEnv :=
  { libraryPackEnv commit₀ with
    manifest := .ok { libraryConfig with package := some slashedPackage } }

/-- A cache that moved away from the lock is packed under the locked commit, the bundle of a
dependency that is no longer in the manifest passes the check without its checkout, and the archive
of a version that ends with a slash cannot be read. -/
theorem moved_cache_is_packed :
    (∃ bundle artifact, pack (libraryPackEnv commit₁) "/app" "/out" "dir" = .ok (bundle, artifact) ∧
      ¬ ∀ entry ∈ (libraryLock commit₀).dependencies, entry.source = "git" →
        ∃ described ∈ bundle.entries, Contains artifact.content described entry) ∧
    (∃ bundle artifact, pack removedPackEnv "/app" "/out" "dir" = .ok (bundle, artifact) ∧
      verifyBundleEquivalence removedPackEnv.sha256 artifact.content bundle = .ok true ∧
      ¬ Complete artifact.content bundle (libraryLock commit₀)) ∧
    ∃ bundle artifact, pack slashedPackEnv "/app" "/out" "tar.zst" = .ok (bundle, artifact) ∧
      ∀ content, unpack bundle.outPath artifact ≠ .ok content := by
  refine ⟨?_, ?_, ?_⟩
  · obtain ⟨bundle, artifact, hpack⟩ : ∃ bundle artifact,
        pack (libraryPackEnv commit₁) "/app" "/out" "dir" = .ok (bundle, artifact) :=
      exists_pack (.inr rfl) rfl rfl (by decide) rfl parseLibraryLock_encode rfl rfl
    refine ⟨bundle, artifact, hpack, fun h => ?_⟩
    obtain ⟨described, -, hcontains⟩ := h _ (List.mem_singleton_self _) rfl
    obtain ⟨_, _, _, packed, -, -, -, -, -, -, _, -, ⟨heq, -⟩ | ⟨-, -, rfl⟩⟩ := pack_eq_ok hpack
    · exact absurd heq (by decide)
    · have hhead := hcontains.commit (by decide)
      simp only [Artifact.content, CacheReading.only, libraryPackEnv] at hhead
      split at hhead
      · exact absurd (Option.some.inj hhead) (by decide)
      · cases hhead
  · obtain ⟨bundle, artifact, hpack⟩ : ∃ bundle artifact,
        pack removedPackEnv "/app" "/out" "dir" = .ok (bundle, artifact) :=
      exists_pack (.inr rfl) rfl rfl (by decide) rfl parseLibraryLock_encode rfl rfl
    refine ⟨bundle, artifact, hpack, ?_⟩
    obtain ⟨_, _, _, packed, hmanifest, _, _, hpacked, hsha, hentries, _, -,
      ⟨heq, -⟩ | ⟨-, -, rfl⟩⟩ := pack_eq_ok hpack
    · exact absurd heq (by decide)
    obtain rfl := Except.ok.inj hmanifest
    have hkey : ∀ described ∈ bundle.entries, described.cacheKey = "" := by
      rw [hentries]
      intro described hmem
      obtain ⟨pair, hpair, rfl⟩ := List.mem_map.mp hmem
      obtain ⟨entry, -, hentry⟩ := Except.mem_of_mapM_eq_ok hpacked _ hpair
      obtain ⟨-, -, ⟨dep, hdep, -⟩ | ⟨hnone, -⟩⟩ := packEntry_eq_ok hentry
      · cases hdep
      · exact hnone
    refine ⟨(verifyBundleEquivalence_eq_true_iff rfl).mpr ⟨hsha.symm, fun described hmem => ?_⟩,
      fun h => ?_⟩
    · rw [entryEquivalent, if_pos (.inr (hkey described hmem))]
    · obtain ⟨described, hmem, -, hne, -⟩ := h _ (List.mem_singleton_self _) rfl
      exact hne (hkey described hmem)
  · obtain ⟨bundle, artifact, hpack⟩ : ∃ bundle artifact,
        pack slashedPackEnv "/app" "/out" "tar.zst" = .ok (bundle, artifact) :=
      exists_pack (.inl rfl) rfl rfl (by decide) rfl parseLibraryLock_encode rfl rfl
    refine ⟨bundle, artifact, hpack, fun content h => ?_⟩
    obtain ⟨_, _, _, packed, hmanifest, -, -, -, -, -, pkg, hpkg, hartifact⟩ := pack_eq_ok hpack
    obtain rfl := Except.ok.inj hmanifest
    obtain rfl := Option.some.inj hpkg
    have hopens := (exists_unpack_iff hartifact).1.mp ⟨content, h⟩
    exact absurd (hopens.archive rfl) (by decide)

end Claims

end SorobanDevkit.Core
