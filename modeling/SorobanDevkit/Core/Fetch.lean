import SorobanDevkit.Core.Git
import SorobanDevkit.Library.FileMoves

/-!
# Fetching dependencies

`GitFetcher::fetch` of `sdkt-core/src/fetch.rs` materializes a git dependency in a checkout below
the cache, in a directory whose name is a hash of the URL and the reference. A version constraint is
first resolved to a tag. The checkout is cloned or updated, unless it is already at the wanted
commit, and switched to the reference; the outcome records the id that the reference resolves to.

`git clone` runs in the directory of the checkouts and is given the path of the new one as the
program knows it, so that a relative path is read a second time from there. Where it does not lead
back, the switch that follows finds no directory to run in. No path leads over a link.

## Main results

* `cache_bytes_differ_iff` — when two sources are hashed to different keys.
* `materialize_ok`, `gitFetch_ok`, `gitFetch_of_step` — what a successful fetch does: it changes the
  checkout of one key.
* `not_fetchStep_of_relative` — with a relative cache nothing is fetched into a new directory.
-/

namespace SorobanDevkit.Core

open Strings

/-- `FetchError`. -/
inductive FetchError
  | gitUnavailable
  | git (args : String) (status : Option ℤ) (stderr : String)
  | noSource (name : String)
  | missingUrl (name : String)
  | io (context source : String)

/-- The text of a `FetchError`. -/
def FetchError.text : FetchError → String
  | .gitUnavailable => "the `git` executable is required but was not found on PATH"
  | .git args status stderr =>
    "git " ++ args ++ " failed (exit " ++ statusText status ++ "): " ++ trim stderr
  | .noSource name => "dependency '" ++ name ++ "' declares neither `path` nor `git`"
  | .missingUrl name => "git dependency '" ++ name ++ "' is missing a `git` URL"
  | .io context source => "I/O error " ++ context ++ ": " ++ source

/-- `FetchOutcome`. -/
structure FetchOutcome where
  name : String
  localPath : String
  resolvedRev : String
  alreadyPresent : Bool

/-! ### Cache keys -/

/-- A step of the FNV-1a hash. -/
def fnvStep (h : UInt64) (b : UInt8) : UInt64 := (h ^^^ b.toUInt64) * 0x100000001b3

/-- The FNV-1a hash of a list of bytes. -/
def fnv1a (bytes : List UInt8) : UInt64 := bytes.foldl fnvStep 0xcbf29ce484222325

/-- A number in hexadecimal, with leading zeros up to 16 digits. -/
def hex16 (n : UInt64) : String :=
  let digits := Nat.toDigits 16 n.toNat
  String.ofList (List.replicate (16 - digits.length) '0' ++ digits)

/-- The tag, branch or revision of a dependency, whichever is declared first. -/
def Dependency.reference (dep : Dependency) : Option String := (dep.tag.or dep.branch).or dep.rev

/-- `git_cache_key`: a hash of the URL and the reference, written one after the other. -/
def gitCacheKey (dep : Dependency) : String :=
  let url := dep.git.getD ""
  let reference := dep.reference.getD "head"
  hex16 (fnv1a ((url.toUTF8.data.toList) ++ (reference.toUTF8.data.toList)))

/-- The bytes that `git_cache_key` hashes. -/
def gitCacheBytes (dep : Dependency) : List UInt8 :=
  (dep.git.getD "").toUTF8.data.toList ++ (dep.reference.getD "head").toUTF8.data.toList

/-- The bytes are the same when the URL and the reference, written one after the other, are the same
text. -/
theorem gitCacheBytes_eq_iff {dep dep' : Dependency} : gitCacheBytes dep = gitCacheBytes dep' ↔
    dep.git.getD "" ++ dep.reference.getD "head" =
      dep'.git.getD "" ++ dep'.reference.getD "head" := by
  have hbytes : ∀ dep : Dependency, gitCacheBytes dep =
      (dep.git.getD "" ++ dep.reference.getD "head").toByteArray.data.toList := by
    intro dep
    rw [String.toByteArray_append, ByteArray.toList_data_append]
    rfl
  rw [hbytes, hbytes]
  constructor
  · intro h
    exact String.toByteArray_inj.mp (ByteArray.ext (Array.toList_inj.mp h))
  · exact fun h => by rw [h]

/-- Two texts written one after the other are the same as two others when one of the first ones
continues the other. -/
theorem append_eq_append_iff {s t s' t' : String} : s ++ t = s' ++ t' ↔
    ∃ more, s' = s ++ more ∧ t = more ++ t' ∨ s = s' ++ more ∧ t' = more ++ t := by
  simp only [← String.toList_inj, String.toList_append]
  rw [List.append_eq_append_iff]
  constructor
  · rintro (⟨more, hs, ht⟩ | ⟨more, hs, ht⟩)
    · exact ⟨String.ofList more, .inl ⟨by rw [hs, String.toList_ofList],
        by rw [ht, String.toList_ofList]⟩⟩
    · exact ⟨String.ofList more, .inr ⟨by rw [hs, String.toList_ofList],
        by rw [ht, String.toList_ofList]⟩⟩
  · rintro ⟨more, ⟨hs, ht⟩ | ⟨hs, ht⟩⟩
    · exact .inl ⟨more.toList, hs, ht⟩
    · exact .inr ⟨more.toList, hs, ht⟩

/-- **Two sources are hashed from different bytes**, unless one URL continues the other with what
the reference of the other starts with. A reference that is not declared counts as `head`. -/
theorem cache_bytes_differ_iff {dep dep' : Dependency} {url url' : String}
    (hurl : dep.git = some url) (hurl' : dep'.git = some url') :
    ((url, dep.reference) ≠ (url', dep'.reference) → gitCacheBytes dep ≠ gitCacheBytes dep') ↔
      (url, dep.reference) = (url', dep'.reference) ∨ ∀ more,
        ¬ (url' = url ++ more ∧ dep.reference.getD "head" = more ++ dep'.reference.getD "head") ∧
        ¬ (url = url' ++ more ∧
          dep'.reference.getD "head" = more ++ dep.reference.getD "head") := by
  have hsame : gitCacheBytes dep = gitCacheBytes dep' ↔ ∃ more,
      url' = url ++ more ∧ dep.reference.getD "head" = more ++ dep'.reference.getD "head" ∨
        url = url' ++ more ∧ dep'.reference.getD "head" = more ++ dep.reference.getD "head" := by
    rw [gitCacheBytes_eq_iff, hurl, hurl', Option.getD_some, Option.getD_some,
      append_eq_append_iff]
  rw [Ne, Ne, hsame, not_exists, ← or_iff_not_imp_left]
  simp only [not_or]

/-- A tag of a repository. -/
def vaultAt (tag : String) : Dependency :=
  { Dependency.default with git := some "https://git.example/vault", tag := some tag }

/-- Two tags of one repository. -/
theorem cache_bytes_differ_tags : (("https://git.example/vault", (vaultAt "v1").reference) ≠
        ("https://git.example/vault", (vaultAt "v2").reference) →
      gitCacheBytes (vaultAt "v1") ≠ gitCacheBytes (vaultAt "v2")) ↔
    ("https://git.example/vault", (vaultAt "v1").reference) =
        ("https://git.example/vault", (vaultAt "v2").reference) ∨ ∀ more,
      ¬ ("https://git.example/vault" = "https://git.example/vault" ++ more ∧
          (vaultAt "v1").reference.getD "head" = more ++ (vaultAt "v2").reference.getD "head") ∧
      ¬ ("https://git.example/vault" = "https://git.example/vault" ++ more ∧
          (vaultAt "v2").reference.getD "head" = more ++ (vaultAt "v1").reference.getD "head") :=
  cache_bytes_differ_iff rfl rfl

/-- The branch `2` of one repository and the branch `-2` of another are hashed from the same
bytes. -/
theorem urls_run_together :
    let dep := { Dependency.default with
      git := some "https://git.example/vault", branch := some "-2" }
    let dep' := { Dependency.default with
      git := some "https://git.example/vault-", branch := some "2" }
    dep.git ≠ dep'.git ∧ dep.reference ≠ dep'.reference ∧
      gitCacheBytes dep = gitCacheBytes dep' := by
  refine ⟨by decide, by decide, gitCacheBytes_eq_iff.mpr ?_⟩
  decide

/-! ### What is fetched -/

/-- `head_rev`: the commit of `HEAD`, or nothing. -/
def headRev (c : Checkout) : String := idText c.headCommit

/-- `resolved_rev_for`: a revision as it is written, what `git rev-parse` reads of the tag or of the
remote-tracking branch, or the commit of `HEAD`. -/
def resolvedRevFor (git : Git) (dep : Dependency) (c : Checkout) : String :=
  match dep.rev with
  | some rev => rev
  | none =>
    match dep.tag with
    | some tag => git.revParse c ("refs/tags/" ++ tag) (c.tags tag)
    | none =>
      match dep.branch with
      | some branch => git.revParse c ("refs/remotes/origin/" ++ branch) (c.remoteHead branch)
      | none => headRev c

/-- What `fetch` passes to `git checkout`. -/
def checkoutRef (dep : Dependency) : String :=
  match dep.rev with
  | some rev => rev
  | none =>
    match dep.tag with
    | some tag => tag
    | none =>
      match dep.branch with
      | some branch => "origin/" ++ branch
      | none => "origin/HEAD"

/-- The dependency that a version constraint resolves to: the same URL with a tag. -/
def atTag (url tag : String) : Dependency :=
  { Dependency.default with git := some url, tag := some tag }

/-- `effective_dep`: without a reference, the version constraint is resolved to a tag. -/
def effectiveDep (git : Git) (semver : Semver) (url : String) (dep : Dependency) :
    Except FetchError Dependency :=
  match dep.version with
  | none => .ok dep
  | some ver =>
    if dep.refs = [] then
      match resolveVersionConstraint git semver url ver with
      | .ok (some (tag, _)) => .ok (atTag url tag)
      | .ok none => .error (.git ("resolve version '" ++ ver ++ "'") (some 1)
          ("no remote tag satisfies constraint '" ++ ver ++ "'"))
      | .error e => .error (.git ("resolve version '" ++ ver ++ "'") none e.text)
    else .ok dep

theorem effectiveDep_of_refs {git : Git} {semver : Semver} {url : String} {dep : Dependency}
    (h : dep.refs ≠ []) : effectiveDep git semver url dep = .ok dep := by
  rw [effectiveDep]
  split
  · rfl
  · rw [if_neg h]

/-! ### The fetchers -/

/-- The checkouts in the cache, by their keys. A directory without `.git` is not one of them. -/
abbrev Cache := String → Option Checkout

/-- `cache_root.join("git").join(key)`. -/
def checkoutPath (cacheRoot key : String) : String := joinPath (joinPath cacheRoot "git") key

/-- `run_git`: a failed command as an error. -/
def gitError (args : String) : GitFailure → FetchError
  | .notRun => .gitUnavailable
  | .exit status stderr => .git args status stderr

/-- Read in the directory of the checkouts, the path of that directory leads back to it. -/
def clonesInPlace (cwd : List String) (cacheRoot : String) : Bool :=
  let parent := PathText.follow cwd (joinPath cacheRoot "git")
  PathText.follow parent (joinPath cacheRoot "git") = parent

/-- The clone or update step of `fetch`: the checkout before it is switched to the reference. After
a clone to another place the switch does not run. -/
def prepare (git : Git) (cacheRoot url key : String) (force : Bool) :
    Option Checkout → Except FetchError Checkout
  | some c =>
    if force then
      (git.fetchForce url key c).mapError (gitError ("fetch --force " ++ url ++
        " +refs/heads/*:refs/remotes/origin/* +refs/tags/*:refs/tags/*"))
    else (git.fetch key c).mapError (gitError "fetch")
  | none => do
    let c ← (git.clone url key).mapError
      (gitError ("clone --no-checkout " ++ url ++ " " ++ checkoutPath cacheRoot key))
    Except.ensure (clonesInPlace git.cwd cacheRoot = true) FetchError.gitUnavailable
    .ok c

/-- The checkout is at the commit that the reference resolves to. -/
def upToDate (git : Git) (dep : Dependency) (c : Checkout) : Bool :=
  resolvedRevFor git dep c != "" && resolvedRevFor git dep c == headRev c

/-- `GitFetcher::fetch` from the cache key on, with the cache as it is afterwards. -/
def materialize (git : Git) (mkdirFault : Option String) (cacheRoot : String) (cache : Cache)
    (name url : String) (dep : Dependency) (force : Bool) :
    Except FetchError FetchOutcome × Cache :=
  let key := gitCacheKey dep
  let path := checkoutPath cacheRoot key
  match mkdirFault with
  | some source => (.error (.io ("creating cache dir " ++ joinPath cacheRoot "git") source), cache)
  | none =>
    let current := cache key
    if !force && current.any (upToDate git dep) then
      (.ok ⟨name, path, (current.map (resolvedRevFor git dep)).getD "", true⟩, cache)
    else
      match prepare git cacheRoot url key force current with
      | .error e => (.error e, cache)
      | .ok c =>
        match git.checkout key (checkoutRef dep) c with
        | .error failure =>
          (.error (gitError ("checkout --force " ++ checkoutRef dep) failure),
            Function.update cache key (some c))
        | .ok c' =>
          (.ok ⟨name, path, resolvedRevFor git dep c', false⟩, Function.update cache key (some c'))

/-- `GitFetcher::fetch`. -/
def gitFetch (git : Git) (semver : Semver) (mkdirFault : Option String) (cacheRoot : String)
    (cache : Cache) (name : String) (dep : Dependency) (force : Bool) :
    Except FetchError FetchOutcome × Cache :=
  match dep.git with
  | none => (.error (.missingUrl name), cache)
  | some url =>
    if isBlank url then (.error (.missingUrl name), cache)
    else if git.binary = .missing then (.error .gitUnavailable, cache)
    else
      match effectiveDep git semver url dep with
      | .error e => (.error e, cache)
      | .ok effective => materialize git mkdirFault cacheRoot cache name url effective force

/-- `PathResolver::fetch`. -/
def pathFetch (name : String) (dep : Dependency) : Except FetchError FetchOutcome :=
  match dep.path with
  | none => .error (.noSource name)
  | some path => if isBlank path then .error (.noSource name) else .ok ⟨name, path, "", true⟩

/-! ### What a successful fetch does -/

section FetchStep

variable {git : Git} {semver : Semver} {mkdirFault : Option String} {cacheRoot : String}
  {cache cache' : Cache} {name url : String} {dep : Dependency} {force : Bool}
  {outcome : FetchOutcome}

/-- How a successful fetch changes the checkout of its key: it is reused when it is up to date and
the fetch is not forced, and else cloned or updated, and switched. -/
inductive FetchStep (git : Git) (cacheRoot url : String) (dep : Dependency) (force : Bool) :
    Option Checkout → Checkout → Prop
  | reuse {c : Checkout} (hforce : force = false) (hcurrent : upToDate git dep c = true) :
      FetchStep git cacheRoot url dep force (some c) c
  | switch {current : Option Checkout} {c c' : Checkout}
      (hstale : force = true ∨ ∀ c₀, current = some c₀ → upToDate git dep c₀ = false)
      (hprepare : prepare git cacheRoot url (gitCacheKey dep) force current = .ok c)
      (hcheckout : git.checkout (gitCacheKey dep) (checkoutRef dep) c = .ok c') :
      FetchStep git cacheRoot url dep force current c'

theorem switchTo_of_checkout {key ref : String} {c c' : Checkout}
    (h : git.checkout key ref c = .ok c') : git.switchTo c ref = some c' := by
  rw [Git.checkout] at h
  split at h
  · cases h
  · split at h
    · next hswitch => rw [hswitch, Except.ok.inj h]
    · cases h

/-- **A successful fetch changes one checkout**, and records what the reference resolves to in
it. -/
theorem materialize_ok
    (h : materialize git mkdirFault cacheRoot cache name url dep force = (.ok outcome, cache')) :
    outcome.name = name ∧ ∃ c, FetchStep git cacheRoot url dep force (cache (gitCacheKey dep)) c ∧
      cache' = Function.update cache (gitCacheKey dep) (some c) ∧
      outcome.resolvedRev = resolvedRevFor git dep c := by
  unfold materialize at h
  split at h
  · cases h
  · simp only at h
    split at h
    · next hreuse =>
      cases hcache : cache (gitCacheKey dep) with
      | none => simp [hcache] at hreuse
      | some c =>
        simp only [hcache, Option.any_some, Bool.and_eq_true, Bool.not_eq_true'] at hreuse
        cases h
        refine ⟨rfl, c, .reuse hreuse.1 hreuse.2, ?_, by simp [hcache]⟩
        rw [← hcache, Function.update_eq_self]
    · next hreuse =>
      have hstale : force = true ∨
          ∀ c₀, cache (gitCacheKey dep) = some c₀ → upToDate git dep c₀ = false := by
        cases force with
        | true => exact .inl rfl
        | false => exact .inr fun c₀ hc₀ => by simpa [hc₀] using hreuse
      split at h
      · cases h
      · next c hprepare =>
        split at h
        · cases h
        · next c' hcheckout =>
          cases h
          exact ⟨rfl, c', .switch hstale hprepare hcheckout, rfl, rfl⟩

theorem gitFetch_ok
    (h : gitFetch git semver mkdirFault cacheRoot cache name dep force = (.ok outcome, cache')) :
    ∃ url effective, dep.git = some url ∧ effectiveDep git semver url dep = .ok effective ∧
      materialize git mkdirFault cacheRoot cache name url effective force =
        (.ok outcome, cache') := by
  rw [gitFetch] at h
  split at h
  · cases h
  · next url hurl =>
    split at h
    · cases h
    · split at h
      · cases h
      · split at h
        · cases h
        · next effective heffective => exact ⟨url, effective, hurl, heffective, h⟩

/-- A fetch does one thing. -/
theorem FetchStep.unique {start : Option Checkout} {c c' : Checkout}
    (h : FetchStep git cacheRoot url dep force start c)
    (h' : FetchStep git cacheRoot url dep force start c') : c = c' := by
  cases h with
  | reuse hforce hcurrent =>
    cases h' with
    | reuse => rfl
    | switch hstale => simp [hforce, hcurrent] at hstale
  | switch hstale hprepare hcheckout =>
    cases h' with
    | reuse hforce hcurrent => simp [hforce, hcurrent] at hstale
    | switch _ hprepare' hcheckout' =>
      obtain rfl := Except.ok.inj (hprepare.symm.trans hprepare')
      exact Except.ok.inj (hcheckout.symm.trans hcheckout')

/-- **A fetch succeeds** when the directory of the checkouts can be made and git does what it is
asked. -/
theorem gitFetch_of_step {c : Checkout} (hurl : dep.git = some url) (hblank : isBlank url = false)
    (hbinary : git.binary ≠ .missing) (hmkdir : mkdirFault = none) {effective : Dependency}
    (heffective : effectiveDep git semver url dep = .ok effective)
    (h : FetchStep git cacheRoot url effective force (cache (gitCacheKey effective)) c) :
    ∃ outcome, gitFetch git semver mkdirFault cacheRoot cache name dep force =
      (.ok outcome, Function.update cache (gitCacheKey effective) (some c)) := by
  rw [gitFetch, hurl]
  simp only [hblank, Bool.false_eq_true, if_false, hbinary, heffective, materialize, hmkdir]
  generalize hcurrent : cache (gitCacheKey effective) = current at h ⊢
  cases h with
  | reuse hforce hcurrent' =>
    rw [if_pos (by simp [hforce, hcurrent']), ← hcurrent, Function.update_eq_self]
    exact ⟨_, rfl⟩
  | switch hstale hprepare hcheckout =>
    have hnot : ¬(!force && current.any (upToDate git effective)) = true := by
      rcases hstale with rfl | hstale
      · simp
      · cases current with
        | none => simp
        | some c₀ => simp [hstale c₀ rfl]
    rw [if_neg hnot, hprepare]
    simp only [hcheckout]
    exact ⟨_, rfl⟩

/-- Switching keeps the tags and the remote-tracking branches. -/
theorem switchTo_refs (hgit : git.Documented) {c c' : Checkout} {ref : String}
    (h : git.switchTo c ref = some c') : c.SameRefs c' := by
  rw [Git.switchTo] at h
  split at h
  · rw [← Option.some.inj h]
    exact ⟨rfl, rfl, rfl, rfl⟩
  · split at h
    · obtain ⟨commit, -, rfl⟩ := Option.map_eq_some_iff.mp h
      exact ⟨rfl, rfl, rfl, rfl⟩
    · split at h
      · rw [← Option.some.inj h]
        exact ⟨rfl, rfl, rfl, rfl⟩
      · exact hgit.revision_refs c ref c' h

theorem prepare_none_eq_ok_iff {key : String} {c : Checkout} :
    prepare git cacheRoot url key force none = .ok c ↔
      git.clone url key = .ok c ∧ clonesInPlace git.cwd cacheRoot = true := by
  rw [prepare]
  constructor
  · intro h
    obtain ⟨c₀, hclone, h⟩ := Except.bind_eq_ok_iff.mp h
    obtain ⟨_, hplace, h⟩ := Except.bind_eq_ok_iff.mp h
    cases h
    exact ⟨Except.mapError_eq_ok_iff.mp hclone, Except.ensure_eq_ok_iff.mp hplace⟩
  · rintro ⟨hclone, hplace⟩
    rw [hclone, hplace]
    rfl

/-- A forced fetch, and a clone, has the refs of the remote. -/
theorem prepare_force_refs {key : String} {current : Option Checkout} {c : Checkout}
    (h : prepare git cacheRoot url key true current = .ok c) :
    ∃ remote, git.remote url = .ok remote ∧
      (∀ t id, remote.tags.lookup t = some id → c.tags t = some id) ∧
      ∀ b id, remote.branches.lookup b = some id → c.remoteHeads b = some id := by
  cases current with
  | none =>
    obtain ⟨hclone, -⟩ := prepare_none_eq_ok_iff.mp h
    obtain ⟨remote, hremote, rfl⟩ := Except.map_eq_ok_iff.mp hclone
    exact ⟨remote, Git.ask_ok hremote, fun _ _ h => h, fun _ _ h => h⟩
  | some c₀ =>
    obtain ⟨remote, hremote, rfl⟩ := Except.map_eq_ok_iff.mp (Except.mapError_eq_ok_iff.mp h)
    exact ⟨remote, Git.ask_ok hremote, fun _ _ h => by simp [h], fun _ _ h => by simp [h]⟩

/-! ### Relative caches -/

/-- With an absolute path a clone is where it is looked for. -/
theorem clonesInPlace_of_absolute {cwd : List String}
    (h : (PathText.route (joinPath cacheRoot "git")).absolute = true) :
    clonesInPlace cwd cacheRoot = true := by
  rw [clonesInPlace]
  simp only [PathText.follow_eq, PathText.Route.target, h, if_true, decide_true]

/-- **With a relative path that leads down, nothing is fetched into a new directory.** -/
theorem not_fetchStep_of_relative {c : Checkout}
    (habsolute : (PathText.route (joinPath cacheRoot "git")).absolute = false)
    (hclimbs : (PathText.route (joinPath cacheRoot "git")).climbs = 0)
    (hnames : (PathText.route (joinPath cacheRoot "git")).names ≠ []) :
    ¬FetchStep git cacheRoot url dep force none c := by
  have hdown : ∀ dir, PathText.follow dir (joinPath cacheRoot "git") =
      dir ++ (PathText.route (joinPath cacheRoot "git")).names := by
    intro dir
    rw [PathText.follow_eq, PathText.Route.target, habsolute, hclimbs, Nat.sub_zero,
      List.take_length, if_neg (by decide)]
  have hplace : clonesInPlace git.cwd cacheRoot = false := by
    simp only [clonesInPlace, hdown, decide_eq_false_iff_not]
    rwa [List.append_right_eq_self]
  intro h
  cases h with
  | switch _ hprepare _ =>
    obtain ⟨-, hin⟩ := prepare_none_eq_ok_iff.mp hprepare
    exact absurd hin (by simp [hplace])

end FetchStep

end SorobanDevkit.Core
