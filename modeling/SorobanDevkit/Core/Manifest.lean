import SorobanDevkit.Core.Config
import SorobanDevkit.Core.TopoSort
import SorobanDevkit.Library.Strings

/-!
# Validating a package manifest

`validate_manifest` of `sdkt-core/src/package.rs` checks the metadata of a package and the shape of
its dependencies: a local path that exists, or a git URL with exactly one of a tag, a branch and a
revision, or with a version constraint instead. The parser of version constraints belongs to the
`semver` crate and the file system to the operating system; both are parameters.

## Main results

* `WellFormedDependency`, `validateManifest_wellFormed` — what a valid manifest says of every
  dependency.
* `bestVersionMatch_mem` — the selected tag is one of the given ones.
* `joinPath_joinPath` — joining paths is associative.
-/

namespace SorobanDevkit.Core

open Strings

/-- The `semver` crate: versions, version requirements, and `>=` of versions. -/
structure Semver where
  Version : Type
  VersionReq : Type
  parseVersion : String → Option Version
  parseReq : String → Option VersionReq
  isMatch : VersionReq → Version → Bool
  ge : Version → Version → Bool

/-- What is read of the file system: whether a path exists, and the hex digest of the files below a
directory. -/
structure FileSystem where
  pathExists : String → Bool
  dirDigest : String → Option String

/-- `PackageError`, as far as validation raises it. -/
inductive PackageError
  | missingPackage
  | missingName
  | missingVersion
  | invalidVersion (version : String)
  | missingPath (name : String)
  | selfDependency (name : String)
  | circularDependency (name : String)
  | pathNotFound (path : String)
  | mixedSources (name : String)
  | missingGitUrl (name : String)
  | invalidGitUrl (url : String)
  | unsupportedUrlScheme (scheme : String)
  | multipleGitRefs (name : String)
  | missingGitRef (name : String)
  | emptyGitRef (name : String)
  deriving DecidableEq

/-- The text of a `PackageError`. -/
def PackageError.text : PackageError → String
  | .missingPackage => "missing [package] section in manifest"
  | .missingName => "[package] is missing a `name`"
  | .missingVersion => "[package] is missing a `version`"
  | .invalidVersion v => "invalid [package] version '" ++ v ++ "' (expected MAJOR.MINOR.PATCH)"
  | .missingPath name => "dependency '" ++ name ++ "' is missing a `path`"
  | .selfDependency name => "package '" ++ name ++ "' depends on itself"
  | .circularDependency name => "circular local dependency detected involving '" ++ name ++ "'"
  | .pathNotFound path => "dependency path does not exist: " ++ path
  | .mixedSources name => "dependency '" ++ name ++ "' declares both `path` and `git`"
  | .missingGitUrl name => "git dependency '" ++ name ++ "' is missing a `git` URL"
  | .invalidGitUrl url => "git dependency '" ++ url ++ "' has an invalid URL"
  | .unsupportedUrlScheme scheme => "git dependency URL uses an unsupported scheme: " ++ scheme ++
      " (only https/http/git/ssh allowed)"
  | .multipleGitRefs name => "git dependency '" ++ name ++
      "' specifies more than one of `branch`/`tag`/`rev`"
  | .missingGitRef name => "git dependency '" ++ name ++
      "' must specify exactly one of `branch`/`tag`/`rev`"
  | .emptyGitRef name => "git dependency '" ++ name ++ "' has an empty `branch`/`tag`/`rev`"

/-- `str::trim` leaves nothing. -/
def isBlank (s : String) : Bool := trim s == ""

/-! ### Metadata -/

/-- `validate_version_format`: `MAJOR.MINOR.PATCH` before any `+` or `-`. -/
def validateVersionFormat (version : String) : Except PackageError Unit :=
  let v := trim version
  if v = "" then .error (.invalidVersion version)
  else
    let core := (splitAt (fun c => c == '+' || c == '-') v).headD v
    let parts := splitAt (· == '.') core
    if parts.length ≠ 3 then .error (.invalidVersion version)
    else if parts.any fun p => p == "" || !p.toList.all fun c => '0' ≤ c && c ≤ '9' then
      .error (.invalidVersion version)
    else if parts.any fun p => 1 < p.length && p.toList.head? == some '0' then
      .error (.invalidVersion version)
    else .ok ()

/-- `validate_package`. -/
def validatePackage (config : DevKitConfig) : Except PackageError PackageConfig :=
  match config.package with
  | none => .error .missingPackage
  | some pkg =>
    match pkg.name with
    | none => .error .missingName
    | some name =>
      if isBlank name then .error .missingName
      else
        match pkg.version with
        | none => .error .missingVersion
        | some version =>
          if isBlank version then .error .missingVersion
          else (validateVersionFormat version).map fun _ => pkg

/-! ### Dependencies -/

/-- `validate_git_url`, on a platform where absolute paths start with a slash. -/
def validateGitUrl (url : String) : Except PackageError Unit :=
  let trimmed := trim url
  if trimmed = "" then .error (.invalidGitUrl url)
  else
    match stripPrefix "git@" trimmed with
    | some rest =>
      match splitOnce rest ":" with
      | none => .error (.invalidGitUrl url)
      | some (host, _) => if host = "" then .error (.invalidGitUrl url) else .ok ()
    | none =>
      match splitOnce trimmed "://" with
      | some (scheme, rest) =>
        if scheme ∈ ["https", "http", "git", "ssh"] then
          let host := (splitAt (fun c => c ∈ ['/', ':', '?', '#']) rest).headD ""
          if host = "" then .error (.invalidGitUrl url) else .ok ()
        else .error (.unsupportedUrlScheme scheme)
      | none =>
        if trimmed.toList.head? ∈ [some '/', some '.', some '~'] then .ok ()
        else .error (.invalidGitUrl url)

/-- `Path::join`. -/
def joinPath (base path : String) : String :=
  if path.toList.head? = some '/' then path
  else if base = "" || base.toList.getLast? == some '/' then base ++ path
  else base ++ "/" ++ path

theorem joinPath_of_absolute {base path : String} (hpath : path.toList.head? = some '/') :
    joinPath base path = path := if_pos hpath

/-- The base, with a separator at its end. -/
def asDirectory (base : String) : String :=
  if base = "" || base.toList.getLast? == some '/' then base else base ++ "/"

theorem joinPath_of_relative {base path : String} (hpath : path.toList.head? ≠ some '/') :
    joinPath base path = asDirectory base ++ path := by
  rw [joinPath, if_neg hpath, asDirectory]
  split <;> rfl

theorem asDirectory_asDirectory (base : String) :
    asDirectory (asDirectory base) = asDirectory base := by
  by_cases hends : (base = "" || base.toList.getLast? == some '/') = true
  · simp [asDirectory, hends]
  · simp [asDirectory, hends]

theorem asDirectory_append {base path : String} (hne : path ≠ "") :
    asDirectory (base ++ path) = base ++ asDirectory path := by
  have hlist : path.toList ≠ [] := fun h => hne (String.toList_eq_nil_iff.mp h)
  have hlast : (base ++ path).toList.getLast? = path.toList.getLast? := by
    rw [String.toList_append, List.getLast?_append_of_ne_nil _ hlist]
  have hne' : base ++ path ≠ "" := fun h => hne (String.append_eq_empty_iff.mp h).2
  simp only [asDirectory, hlast, hne, hne', decide_false, Bool.false_or]
  split
  · rfl
  · exact String.append_assoc

/-- Relative paths may be joined first. -/
theorem joinPath_joinPath {c : String} (hc : c.toList.head? ≠ some '/') (a b : String) :
    joinPath (joinPath a b) c = joinPath a (joinPath b c) := by
  rw [joinPath_of_relative hc, joinPath_of_relative hc]
  by_cases hempty : b = ""
  · subst hempty
    have hbase : joinPath a "" = asDirectory a := by
      rw [joinPath_of_relative (by simp), String.append_empty]
    have hnone : asDirectory "" ++ c = c := String.empty_append
    rw [hbase, asDirectory_asDirectory, hnone, joinPath_of_relative hc]
  · have hlist : b.toList ≠ [] := fun h => hempty (String.toList_eq_nil_iff.mp h)
    have hhead : (asDirectory b ++ c).toList.head? = b.toList.head? := by
      rw [asDirectory]
      split <;> simp [List.head?_append_of_ne_nil _ hlist]
    by_cases hb : b.toList.head? = some '/'
    · rw [joinPath_of_absolute hb, joinPath_of_absolute (hhead.trans hb)]
    · rw [joinPath_of_relative hb, joinPath_of_relative (fun h => hb (hhead.symm.trans h)),
        asDirectory_append hempty, String.append_assoc]

/-- The declared ones of branch, tag and revision, in this order. -/
def Dependency.refs (dep : Dependency) : List String :=
  dep.branch.toList ++ dep.tag.toList ++ dep.rev.toList

section Validate

variable (semver : Semver) (fs : FileSystem) (scan : Rearrangement String)

/-- The checks of `validate_dependencies` on the git source of a dependency. -/
def checkGitSource (name url : String) (dep : Dependency) : Except PackageError Unit :=
  if isBlank url then .error (.missingGitUrl name)
  else
    match validateGitUrl url with
    | .error e => .error e
    | .ok () =>
      if dep.refs = [] then
        match dep.version with
        | none => .error (.missingGitRef name)
        | some ver =>
          if (semver.parseReq ver).isNone then .error (.invalidVersion ver) else .ok ()
      else if 1 < dep.refs.length then .error (.multipleGitRefs name)
      else if dep.refs.any isBlank then .error (.emptyGitRef name)
      else .ok ()

/-- The checks of `validate_dependencies` on one dependency. The names of a hash map are different,
so that none is declared twice. -/
def checkDependency (base : String) (pkgName name : String) (dep : Dependency) :
    Except PackageError Unit :=
  if name = pkgName then .error (.selfDependency name)
  else
    match dep.path, dep.git with
    | some _, some _ => .error (.mixedSources name)
    | some path, none =>
      if isBlank path then .error (.missingPath name)
      else if !fs.pathExists (joinPath base path) then .error (.pathNotFound (joinPath base path))
      else .ok ()
    | none, some url => checkGitSource semver name url dep
    | none, none => .error (.missingPath name)

/-- `validate_dependencies`: every dependency is checked, and becomes a node without edges of a
graph that is sorted. -/
def validateDependencies (base : String) (config : DevKitConfig) : Except PackageError Unit :=
  let pkgName := (config.package.bind PackageConfig.name).getD ""
  match config.dependencies.traverse fun name dep =>
      (checkDependency semver fs base pkgName name dep).map fun _ => ([] : List String) with
  | .error e => .error e
  | .ok graph =>
    if graph.entries.isEmpty then .ok ()
    else
      match topoSort scan graph with
      | .error node => .error (.circularDependency node)
      | .ok _ => .ok ()

/-- `validate_manifest`. -/
def validateManifest (base : String) (config : DevKitConfig) : Except PackageError Unit :=
  match validatePackage config with
  | .error e => .error e
  | .ok _ => validateDependencies semver fs scan base config

end Validate

/-! ### Version constraints -/

/-- The body of the loop of `best_version_match`: a tag that satisfies the constraint replaces the
best one so far unless that is at least as high. -/
def betterVersion (semver : Semver) (req : semver.VersionReq)
    (best : Option (semver.Version × String × String)) (tag : String × String) :
    Option (semver.Version × String × String) :=
  match semver.parseVersion ((stripPrefix "v" tag.1).getD tag.1) with
  | none => best
  | some ver =>
    if semver.isMatch req ver then
      match best with
      | some (bestVer, pair) => if semver.ge bestVer ver then some (bestVer, pair)
        else some (ver, tag)
      | none => some (ver, tag)
    else best

/-- `best_version_match`: the highest of the tags whose names are versions that satisfy the
constraint, with its object id. -/
def bestVersionMatch (semver : Semver) (tags : List (String × String)) (constraint : String) :
    Option (String × String) :=
  match semver.parseReq constraint with
  | none => none
  | some req => (tags.foldl (betterVersion semver req) none).map Prod.snd

/-- The selected tag is one of the given ones. -/
theorem bestVersionMatch_mem {semver : Semver} {tags : List (String × String)} {constraint : String}
    {tag : String × String} (h : bestVersionMatch semver tags constraint = some tag) :
    tag ∈ tags := by
  rw [bestVersionMatch] at h
  cases hreq : semver.parseReq constraint with
  | none => simp [hreq] at h
  | some req =>
    have hstep : ∀ best t, betterVersion semver req best t = best ∨
        ∃ ver, betterVersion semver req best t = some (ver, t) := by
      intro best t
      rw [betterVersion]
      split
      · exact .inl rfl
      · next ver _ =>
        split
        · split
          · split
            · exact .inl rfl
            · exact .inr ⟨ver, rfl⟩
          · exact .inr ⟨ver, rfl⟩
        · exact .inl rfl
    have hmem : ∀ (l : List (String × String)) (best : Option (semver.Version × String × String)),
        (∀ b, best = some b → b.2 ∈ tags) → l ⊆ tags →
          ∀ b, l.foldl (betterVersion semver req) best = some b → b.2 ∈ tags := by
      intro l
      induction l with
      | nil => exact fun best hbest _ => hbest
      | cons t l ih =>
        intro best hbest hl
        obtain ⟨ht, hl⟩ := List.cons_subset.mp hl
        refine ih _ (fun b hb => ?_) hl
        rcases hstep best t with heq | ⟨ver, heq⟩
        · exact hbest b (heq ▸ hb)
        · rw [heq, Option.some.injEq] at hb
          exact hb ▸ ht
    rw [hreq, Option.map_eq_some_iff] at h
    obtain ⟨b, hb, rfl⟩ := h
    exact hmem tags none (fun _ h => by cases h) (List.Subset.refl _) b hb

/-! ### What a valid manifest says -/

/-- A valid dependency: a path that exists, or a URL with one reference or a version constraint. -/
inductive WellFormedDependency (fs : FileSystem) (base : String) (dep : Dependency) : Prop
  | path (p : String) (hpath : dep.path = some p) (hgit : dep.git = none) (hne : p ≠ "")
      (hexists : fs.pathExists (joinPath base p) = true)
  | reference (url ref : String) (hpath : dep.path = none) (hgit : dep.git = some url)
      (hurl : isBlank url = false) (hrefs : dep.refs = [ref]) (href : ref ≠ "")
  | version (url ver : String) (hpath : dep.path = none) (hgit : dep.git = some url)
      (hurl : isBlank url = false) (hrefs : dep.refs = []) (hversion : dep.version = some ver)

theorem ne_empty_of_isBlank {s : String} (h : isBlank s = false) : s ≠ "" := by
  rintro rfl
  exact absurd h (by decide)

theorem checkDependency_wellFormed {semver : Semver} {fs : FileSystem} {base pkgName name : String}
    {dep : Dependency} (h : checkDependency semver fs base pkgName name dep = .ok ()) :
    WellFormedDependency fs base dep := by
  rw [checkDependency] at h
  split at h
  · cases h
  · cases hpath : dep.path with
    | some p =>
      cases hgit : dep.git with
      | some url => simp [hpath, hgit] at h
      | none =>
        simp only [hpath, hgit] at h
        cases hblank : isBlank p with
        | true => simp [hblank] at h
        | false =>
          cases hexists : fs.pathExists (joinPath base p) with
          | false => simp [hblank, hexists] at h
          | true => exact .path p hpath hgit (ne_empty_of_isBlank hblank) hexists
    | none =>
      cases hgit : dep.git with
      | none => simp [hpath, hgit] at h
      | some url =>
        simp only [hpath, hgit, checkGitSource] at h
        cases hblank : isBlank url with
        | true => simp [hblank] at h
        | false =>
          cases hurl : validateGitUrl url with
          | error e => simp [hblank, hurl] at h
          | ok _ =>
            simp only [hblank, hurl, Bool.false_eq_true, if_false] at h
            match hrefs : dep.refs with
            | [] =>
              cases hver : dep.version with
              | none => simp [hrefs, hver] at h
              | some ver => exact .version url ver hpath hgit hblank hrefs hver
            | [ref] =>
              cases href : isBlank ref with
              | true => simp [hrefs, href] at h
              | false => exact .reference url ref hpath hgit hblank hrefs (ne_empty_of_isBlank href)
            | _ :: _ :: _ => simp [hrefs] at h

/-- **Every dependency of a valid manifest is well formed.** -/
theorem validateManifest_wellFormed {semver : Semver} {fs : FileSystem}
    {scan : Rearrangement String} {base : String} {config : DevKitConfig}
    (h : validateManifest semver fs scan base config = .ok ()) :
    ∀ e ∈ config.dependencies.entries, WellFormedDependency fs base e.2 := by
  rw [validateManifest] at h
  split at h
  · cases h
  · rw [validateDependencies] at h
    split at h
    · cases h
    · next graph hgraph =>
      intro e he
      obtain ⟨b, hb⟩ := (UnorderedMap.exists_traverse_iff _ _).mp ⟨graph, hgraph⟩ e he
      cases hcheck : checkDependency semver fs base
          ((config.package.bind PackageConfig.name).getD "") e.1 e.2 with
      | error err => simp [hcheck, Except.map] at hb
      | ok _ => exact checkDependency_wellFormed hcheck

end SorobanDevkit.Core
