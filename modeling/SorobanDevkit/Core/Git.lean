import SorobanDevkit.Core.Manifest
import SorobanDevkit.Library.Fallible

/-!
# Git repositories

The code runs the `git` command line; its repositories are modelled here as far as the documentation
of git says what the code reads of them. A remote advertises refs by their full names: branches with
the ids of commits, tags with the ids of objects that are commits (lightweight tags) or point at
ones (annotated tags, which have a second line), and others. A checkout is a local clone with its
refs and its `HEAD`. Every command may also fail for reasons of its own, which `Git.fault` gives.

`git checkout` reads a name as a local branch, a tag, a remote-tracking branch, and then in other
ways (object ids, abbreviations and other revisions), which are the parameter `Git.revision`. What
`git rev-parse` reads of the full name of a ref that is not there (a revision such as `v1^{object}`
below `refs/tags`) is the parameter `Git.expression`, and the patterns of `git ls-remote` with
wildcards are `Git.wildmatch`.
-/

namespace SorobanDevkit.Core

open Strings

/-! ### Objects and repositories -/

/-- The id of an object. -/
structure ObjectId where
  text : String
  ne : text ≠ ""
  deriving DecidableEq

/-- The text of an id, or nothing. -/
def idText (id : Option ObjectId) : String := (id.map ObjectId.text).getD ""

@[simp]
theorem idText_none : idText none = "" := rfl

@[simp]
theorem idText_some (id : ObjectId) : idText (some id) = id.text := rfl

theorem ObjectId.text_injective : Function.Injective ObjectId.text := by
  rintro ⟨text, hne⟩ ⟨text', hne'⟩ rfl
  rfl

theorem mem_of_lookup {α : Type} {entries : List (String × α)} {key : String} {value : α}
    (h : entries.lookup key = some value) : key ∈ entries.map Prod.fst := by
  obtain ⟨before, after, rfl, -⟩ := List.lookup_eq_some_iff.mp h
  simp

/-- What a remote repository advertises, in the order of `git ls-remote`: full names and ids. -/
structure Remote where
  defaultBranch : String
  lines : List (String × ObjectId)
  lines_nodup : (lines.map Prod.fst).Nodup
  head_notMem : "refs/heads/HEAD" ∉ lines.map Prod.fst

/-- The lines of a directory of refs, with the names in it. -/
def namesBelow (dir : String) (lines : List (String × ObjectId)) : List (String × ObjectId) :=
  lines.filterMap fun line => (stripPrefix dir line.1).map fun name => (name, line.2)

/-- The branches of a remote. -/
def Remote.branches (remote : Remote) : List (String × ObjectId) :=
  namesBelow "refs/heads/" remote.lines

/-- The tags of a remote. The commits of annotated tags have lines of their own. -/
def Remote.tags (remote : Remote) : List (String × ObjectId) :=
  namesBelow "refs/tags/" (remote.lines.filter fun line => ¬"^\x7b\x7d".toList <:+ line.1.toList)

theorem mem_namesBelow {dir name : String} {id : ObjectId} {lines : List (String × ObjectId)}
    (h : (name, id) ∈ namesBelow dir lines) : (dir ++ name, id) ∈ lines := by
  obtain ⟨⟨full, id'⟩, hmem, hname⟩ := List.mem_filterMap.mp h
  obtain ⟨name', hstrip, heq⟩ := Option.map_eq_some_iff.mp hname
  obtain ⟨rfl, rfl⟩ := Prod.mk.inj heq
  have hfull : full = dir ++ name' := eq_append_of_stripPrefix hstrip
  rwa [hfull] at hmem

theorem Remote.head_notMem_branches (remote : Remote) : "HEAD" ∉ remote.branches.map Prod.fst := by
  intro h
  obtain ⟨⟨_, id⟩, hmem, rfl⟩ := List.mem_map.mp h
  exact remote.head_notMem (List.mem_map.mpr ⟨_, mem_namesBelow hmem, rfl⟩)

/-- What `HEAD` is: a local branch, or a commit. -/
inductive Head
  | branch (name : String)
  | detached (commit : ObjectId)

/-- A clone of a remote repository: its local branches `refs/heads`, its remote-tracking branches
`refs/remotes/origin` with the branch that `refs/remotes/origin/HEAD` stands for, and
`refs/tags`. -/
structure Checkout where
  origin : String
  originHead : String
  heads : String → Option ObjectId
  remoteHeads : String → Option ObjectId
  tags : String → Option ObjectId
  head : Head

/-- The refs that a switch does not change. -/
structure Checkout.SameRefs (c c' : Checkout) : Prop where
  origin : c'.origin = c.origin
  originHead : c'.originHead = c.originHead
  remoteHeads : c'.remoteHeads = c.remoteHeads
  tags : c'.tags = c.tags

/-- The commit of `HEAD`, unless it is a branch without a commit. -/
def Checkout.headCommit (c : Checkout) : Option ObjectId :=
  match c.head with
  | .branch name => c.heads name
  | .detached commit => some commit

/-- The commit of `refs/remotes/origin/` with a name, where `HEAD` stands for a branch. -/
def Checkout.remoteHead (c : Checkout) (name : String) : Option ObjectId :=
  c.remoteHeads (if name = "HEAD" then c.originHead else name)

/-- `git symbolic-ref -q HEAD` succeeds. -/
def Checkout.onBranch (c : Checkout) : Bool :=
  match c.head with
  | .branch _ => true
  | .detached _ => false

/-- A command of git that did not succeed: it did not run, or it exited with a status. -/
inductive GitFailure
  | notRun
  | exit (status : Option ℤ) (stderr : String)

/-- The commands that may fail for reasons of their own. Checkouts are given by their cache key. -/
inductive GitCommand
  | lsRemote (url : String)
  | clone (url key : String)
  | fetch (key : String)
  | fetchForce (url key : String)
  | checkout (ref key : String)

/-- Whether `git --version` succeeds, fails, or cannot be run. -/
inductive GitBinary
  | working
  | failing
  | missing
  deriving DecidableEq

/-- The git installation, the directory that the program runs in, the remotes that are reached, and
the objects of all repositories: `peel` is the commit an object id stands for, `tree` the tree of a
commit. `follows` says which new tags a plain fetch brings along. -/
structure Git where
  binary : GitBinary
  cwd : List String
  remote : String → Except GitFailure Remote
  peel : ObjectId → Option ObjectId
  tree : ObjectId → String
  follows : ObjectId → Bool
  revision : Checkout → String → Option Checkout
  expression : Checkout → String → String
  wildmatch : String → String → Bool
  fault : GitCommand → Option GitFailure

namespace Git

variable (git : Git)

/-- The answer of a remote to a command, unless the command fails. -/
def ask (command : GitCommand) (url : String) : Except GitFailure Remote :=
  match git.fault command with
  | some failure => .error failure
  | none => git.remote url

theorem ask_ok {git : Git} {command : GitCommand} {url : String} {remote : Remote}
    (h : git.ask command url = .ok remote) : git.remote url = .ok remote := by
  rw [ask] at h
  split at h
  · cases h
  · exact h

/-- `git clone --no-checkout`: the remote-tracking branches and tags of the remote, and one local
branch, the default one, which is `HEAD`. -/
def clone (url key : String) : Except GitFailure Checkout :=
  (git.ask (.clone url key) url).map fun remote =>
    { origin := url
      originHead := remote.defaultBranch
      heads := fun b => if b = remote.defaultBranch then remote.branches.lookup b else none
      remoteHeads := fun b => remote.branches.lookup b
      tags := fun t => remote.tags.lookup t
      head := .branch remote.defaultBranch }

/-- `git fetch`: the branches of the origin are updated, and new tags are added. -/
def fetch (key : String) (c : Checkout) : Except GitFailure Checkout :=
  (git.ask (.fetch key) c.origin).map fun remote =>
    { c with
      remoteHeads := fun b => (remote.branches.lookup b).or (c.remoteHeads b)
      tags := fun t => (c.tags t).or ((remote.tags.lookup t).filter git.follows) }

/-- `git fetch --force` of all branches and tags of `url`, which moves tags, too. -/
def fetchForce (url key : String) (c : Checkout) : Except GitFailure Checkout :=
  (git.ask (.fetchForce url key) url).map fun remote =>
    { c with
      remoteHeads := fun b => (remote.branches.lookup b).or (c.remoteHeads b)
      tags := fun t => (remote.tags.lookup t).or (c.tags t) }

/-- The remote-tracking branch a name `origin/…` stands for. -/
def trackedHead (c : Checkout) (ref : String) : Option ObjectId :=
  (stripPrefix "origin/" ref).bind c.remoteHead

/-- The checkout after switching to what `ref` names, if it names something. -/
def switchTo (c : Checkout) (ref : String) : Option Checkout :=
  match c.heads ref with
  | some _ => some { c with head := .branch ref }
  | none =>
    match c.tags ref with
    | some id => (git.peel id).map fun commit => { c with head := .detached commit }
    | none =>
      match trackedHead c ref with
      | some commit => some { c with head := .detached commit }
      | none => git.revision c ref

/-- `git checkout --force`. -/
def checkout (key ref : String) (c : Checkout) : Except GitFailure Checkout :=
  match git.fault (.checkout ref key) with
  | some failure => .error failure
  | none =>
    match git.switchTo c ref with
    | some c' => .ok c'
    | none => .error (.exit (some 1)
        ("error: pathspec '" ++ ref ++ "' did not match any file(s) known to git"))

/-- `git rev-parse` of the full name of a ref, given the ref if it is there. -/
def revParse (c : Checkout) (name : String) : Option ObjectId → String
  | some id => id.text
  | none => git.expression c name

/-- `git ls-remote` with a pattern lists a name: without wildcards, a name that is the pattern or
ends with it after a slash. -/
def lists (pattern name : String) : Bool :=
  if pattern.toList.any fun c => c ∈ "*?[\\".toList then git.wildmatch pattern name
  else ("/" ++ pattern).toList <:+ ("/" ++ name).toList

/-- What is assumed of git: switching to a revision keeps the tags and the remote-tracking
branches. -/
structure Documented : Prop where
  revision_refs : ∀ c ref c', git.revision c ref = some c' → c.SameRefs c'

end Git

/-! ### Asking a remote -/

/-- `SyncError`, as far as updates raise it. -/
inductive SyncError
  | invalidManifest (message : String)
  | missingLock
  | gitUnavailable
  | git (args : String) (status : Option ℤ) (stderr : String)
  | unknownReference (reference : String)
  | networkFailure (message : String)
  | detachedBranch (name : String)
  | io (context source : String)

/-- The debug format of an exit status. -/
def statusText : Option ℤ → String
  | some status => "Some(" ++ toString status ++ ")"
  | none => "None"

/-- The text of a `SyncError`. -/
def SyncError.text : SyncError → String
  | .invalidManifest m => "invalid manifest: " ++ m
  | .missingLock => "no sdkt.lock found; run `sdkt package fetch` first"
  | .gitUnavailable => "the `git` executable is required but was not found on PATH"
  | .git args status stderr =>
    "git " ++ args ++ " failed (exit " ++ statusText status ++ "): " ++ trim stderr
  | .unknownReference r => "unknown git reference: " ++ r
  | .networkFailure m => "network failure contacting git remote: " ++ m
  | .detachedBranch n =>
    "dependency '" ++ n ++ "' cache is detached (not on its declared branch)"
  | .io context source => "I/O error " ++ context ++ ": " ++ source

/-- The message of git speaks of the network. -/
def isNetworkMessage (stderr : String) : Bool :=
  ["Could not resolve host", "timed out", "Connection refused", "unable to access"].any
    fun phrase => decide (phrase.toList <:+: stderr.toList)

/-- `git ls-remote` with its failures as errors. -/
def lsRemote (git : Git) (url args : String) : Except SyncError Remote :=
  if git.binary ≠ .working then .error .gitUnavailable
  else
    match git.ask (.lsRemote url) url with
    | .ok remote => .ok remote
    | .error .notRun => .error .gitUnavailable
    | .error (.exit status stderr) =>
      if isNetworkMessage stderr then .error (.networkFailure stderr)
      else .error (.git args status stderr)

/-- The id of the first line of a remote that is listed for a reference. -/
def Remote.firstListed (git : Git) (reference : String) (remote : Remote) : Option ObjectId :=
  (remote.lines.find? fun line => git.lists reference line.1).map Prod.snd

/-- The id that a remote reports for a reference. -/
def reportedId (reference : String) : Option ObjectId → Except SyncError String
  | none => .error (.unknownReference reference)
  | some id => .ok id.text

/-- `resolve_available_commit`: the first line that the remote reports for the tag or branch, or the
revision. -/
def resolveAvailableCommit (git : Git) (url : String) (dep : Dependency) :
    Except SyncError String :=
  match dep.rev with
  | some rev => .ok rev
  | none =>
    match dep.tag, dep.branch with
    | some tag, _ => do
      let reference := "refs/tags/" ++ tag
      let remote ← lsRemote git url ("ls-remote " ++ url ++ " " ++ reference)
      reportedId reference (remote.firstListed git reference)
    | none, some branch => do
      let reference := "refs/heads/" ++ branch
      let remote ← lsRemote git url ("ls-remote " ++ url ++ " " ++ reference)
      reportedId reference (remote.firstListed git reference)
    | none, none => .error (.unknownReference
        "dependency declares a git source without tag/branch/rev")

/-- `list_remote_tags`: the tags of a remote, with the ids of their objects. -/
def listRemoteTags (git : Git) (url : String) : Except SyncError (List (String × String)) := do
  let remote ← lsRemote git url ("ls-remote --tags " ++ url)
  .ok (remote.tags.map fun t => (t.1, t.2.text))

/-- `resolve_version_constraint`: the highest tag that satisfies the constraint. -/
def resolveVersionConstraint (git : Git) (semver : Semver) (url constraint : String) :
    Except SyncError (Option (String × String)) := do
  let tags ← listRemoteTags git url
  .ok (bestVersionMatch semver tags constraint)

end SorobanDevkit.Core
