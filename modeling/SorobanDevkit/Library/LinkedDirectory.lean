import Mathlib.Data.Nat.Notation
import Mathlib.Logic.Function.Basic

/-!
# Directories with symbolic links

The entries of a directory are files and symbolic links. Whether an entry exists is asked of what
its links lead to; an entry is removed, and a link created, without following links.

## Main results

* `LinkedDirectory.content_file`, `LinkedDirectory.content_link` — following links.
-/

/-- An entry of a directory. -/
inductive DirectoryEntry (τ α : Type)
  | file (content : α)
  | link (target : τ)
  deriving DecidableEq

/-- A directory: its entries by their names. -/
abbrev LinkedDirectory (ν τ α : Type) := ν → Option (DirectoryEntry τ α)

namespace LinkedDirectory

variable {ν τ α : Type} [DecidableEq ν] (follow : τ → Option ν)

/-- How many links are followed. -/
def maxLinks : ℕ := 40

/-- The content of the file that an entry leads to through at most so many links. -/
def contentWithin (dir : LinkedDirectory ν τ α) : (links : ℕ) → ν → Option α
  | links, name =>
    match dir name with
    | none => none
    | some (.file content) => some content
    | some (.link target) =>
      match links with
      | 0 => none
      | links + 1 => (follow target).bind (contentWithin dir links)

/-- The content of the file that an entry leads to. -/
def content (dir : LinkedDirectory ν τ α) (name : ν) : Option α :=
  contentWithin follow dir maxLinks name

/-- Whether an entry leads to a file. -/
def exists? (dir : LinkedDirectory ν τ α) (name : ν) : Bool := (content follow dir name).isSome

/-- The directory without an entry that it has. -/
def remove (dir : LinkedDirectory ν τ α) (name : ν) : Option (LinkedDirectory ν τ α) :=
  if (dir name).isSome then some (Function.update dir name none) else none

/-- The directory with a link under a name that has no entry. -/
def symlink (dir : LinkedDirectory ν τ α) (target : τ) (name : ν) :
    Option (LinkedDirectory ν τ α) :=
  if (dir name).isSome then none else some (Function.update dir name (some (.link target)))

/-- The directory with a file created or overwritten, through at most so many links. -/
def writeWithin (dir : LinkedDirectory ν τ α) (content : α) :
    (links : ℕ) → ν → Option (LinkedDirectory ν τ α)
  | links, name =>
    match dir name with
    | some (.link target) =>
      match links with
      | 0 => none
      | links + 1 => (follow target).bind (writeWithin dir content links)
    | _ => some (Function.update dir name (some (.file content)))

/-- The directory with a file created or overwritten. -/
def write (dir : LinkedDirectory ν τ α) (name : ν) (content : α) :
    Option (LinkedDirectory ν τ α) :=
  writeWithin follow dir content maxLinks name

variable {follow} {dir : LinkedDirectory ν τ α} {name : ν}

omit [DecidableEq ν] in
theorem content_none (h : dir name = none) : content follow dir name = none := by
  rw [content, contentWithin, h]

omit [DecidableEq ν] in
theorem content_file {a : α} (h : dir name = some (.file a)) :
    content follow dir name = some a := by
  rw [content, contentWithin, h]

omit [DecidableEq ν] in
theorem contentWithin_link {target : τ} (h : dir name = some (.link target)) (links : ℕ) :
    contentWithin follow dir (links + 1) name =
      (follow target).bind (contentWithin follow dir links) := by
  rw [contentWithin, h]

omit [DecidableEq ν] in
/-- How many links may be followed does not matter where there is none. -/
theorem contentWithin_eq (h : ∀ target, dir name ≠ some (.link target)) (links links' : ℕ) :
    contentWithin follow dir links name = contentWithin follow dir links' name := by
  rw [contentWithin, contentWithin]
  cases hentry : dir name with
  | none => rfl
  | some entry =>
    cases entry with
    | file a => rfl
    | link target => exact absurd hentry (h target)

omit [DecidableEq ν] in
/-- A link leads to what its target is, where that is a file or nothing. -/
theorem content_link {target : τ} (h : dir name = some (.link target))
    (hfile : ∀ next ∈ follow target, ∀ next', dir next ≠ some (.link next')) :
    content follow dir name = (follow target).bind (content follow dir) := by
  obtain ⟨links, hlinks⟩ : ∃ links, maxLinks = links + 1 := ⟨39, rfl⟩
  rw [content, hlinks, contentWithin_link h links]
  cases hnext : follow target with
  | none => rfl
  | some next =>
    rw [Option.bind_some, Option.bind_some, content]
    exact contentWithin_eq (hfile next hnext) links maxLinks

theorem remove_some {entry : DirectoryEntry τ α} (h : dir name = some entry) :
    remove dir name = some (Function.update dir name none) := by
  rw [remove, h, Option.isSome_some, if_pos rfl]

theorem write_none (h : dir name = none) (a : α) :
    write follow dir name a = some (Function.update dir name (some (.file a))) := by
  rw [write, writeWithin, h]

end LinkedDirectory
