import SorobanDevkit.Library.Effects
import SorobanDevkit.Library.FileTree

/-!
# Disks

A disk is a tree of files and directories that may refuse an access. A refused access leaves the
tree as it is.

## Main results

* `SameOutside.of_makeDirs`, `SameOutside.of_write` — changes at and below a directory.
* `Disk.keeps_makeDirs`, `Disk.keeps_write` — what holds of every change that can be made is kept.
-/

/-- What is asked of a disk. -/
inductive Access
  | look
  | read
  | list
  | makeDirs
  | write
  | remove
  deriving DecidableEq

/-- The message with which a disk refuses an access at a path, if it does. -/
abbrev Refusals := Access → List String → Option String

namespace Refusals

/-- The message of an access that cannot be made. -/
def osError : String := "os error"

variable {α : Type} (refuses : Refusals) (access : Access) (path : List String)

/-- The result of an access, if it can be made and is not refused. -/
def grant (result : Option α) : Except String α :=
  match refuses access path with
  | some message => .error message
  | none =>
    match result with
    | some a => .ok a
    | none => .error osError

variable {refuses access path}

theorem grant_eq_ok_iff {result : Option α} {a : α} :
    refuses.grant access path result = .ok a ↔ refuses access path = none ∧ result = some a := by
  unfold grant
  cases refuses access path with
  | some message => simp
  | none => cases result <;> simp

end Refusals

namespace Disk

open Effect

variable (refuses : Refusals) (tree : FileTree) (path : List String)

/-- There is a file or a directory. -/
def isThere : Bool := (refuses .look path).isNone && (tree.get? path).isSome

/-- There is a directory. -/
def isDir : Bool := (refuses .look path).isNone && decide (tree.get? path = some .dir)

/-- The content of a file. -/
def read : Except String (List UInt8) := refuses.grant .read path (tree.read path)

/-- Makes a directory and those above it. -/
def makeDirs : Effect FileTree String Unit :=
  change fun tree => refuses.grant .makeDirs path (tree.makeDirs path)

/-- Writes a file. -/
def write (content : List UInt8) : Effect FileTree String Unit :=
  change fun tree => refuses.grant .write path (tree.write path content)

/-- Removes a file. -/
def removeFile : Effect FileTree String Unit :=
  change fun tree => refuses.grant .remove path (tree.removeFile path)

/-- Removes a directory and what is in it. -/
def removeAll : Effect FileTree String Unit :=
  change fun tree => refuses.grant .remove path
    (if tree.get? path = some .dir then some (tree.removeAll path) else none)

variable {refuses tree path}

theorem makeDirs_eq_ok_iff {u : Unit} {tree' : FileTree} : makeDirs refuses path tree =
    (.ok u, tree') ↔
    refuses .makeDirs path = none ∧ tree.makeDirs path = some tree' := by
  rw [makeDirs, change_eq_ok_iff, Refusals.grant_eq_ok_iff]

theorem write_eq_ok_iff {content : List UInt8} {u : Unit} {tree' : FileTree} :
    write refuses path content tree = (.ok u, tree') ↔
      refuses .write path = none ∧ tree.write path content = some tree' := by
  rw [write, change_eq_ok_iff, Refusals.grant_eq_ok_iff]

theorem removeFile_eq_ok_iff {u : Unit} {tree' : FileTree} : removeFile refuses path tree =
    (.ok u, tree') ↔
    refuses .remove path = none ∧ tree.removeFile path = some tree' := by
  rw [removeFile, change_eq_ok_iff, Refusals.grant_eq_ok_iff]

theorem removeAll_eq_ok_iff {u : Unit} {tree' : FileTree} : removeAll refuses path tree =
    (.ok u, tree') ↔
    refuses .remove path = none ∧ tree.get? path = some .dir ∧ tree' = tree.removeAll path := by
  rw [removeAll, change_eq_ok_iff, Refusals.grant_eq_ok_iff, Option.ite_none_right_eq_some,
    Option.some.injEq, @eq_comm _ tree']

end Disk

/-! ### Changes at and below a directory -/

/-- The trees differ at and below a directory, and in the directories made above it. -/
def SameOutside (dir : List String) (tree tree' : FileTree) : Prop :=
  ∀ path, ¬ dir <+: path → tree'.get? path = tree.get? path ∨
    path <+: dir ∧ tree.get? path = none ∧ tree'.get? path = some .dir

namespace SameOutside

variable {dir path : List String}

theorem refl (tree : FileTree) : SameOutside dir tree tree := fun _ _ => .inl rfl

theorem trans (tree tree' tree'' : FileTree) (h : SameOutside dir tree tree')
    (h' : SameOutside dir tree' tree'') : SameOutside dir tree tree'' := by
  intro path hpath
  rcases h path hpath with heq | ⟨habove, hnone, hdir⟩
  · rw [← heq]
    exact h' path hpath
  · rcases h' path hpath with heq | ⟨-, hnone', -⟩
    · exact .inr ⟨habove, hnone, heq.trans hdir⟩
    · rw [hnone'] at hdir
      cases hdir

/-- What is neither below a directory nor above it stays. -/
theorem get?_eq {tree tree' : FileTree} (h : SameOutside dir tree tree') (hbelow : ¬ dir <+: path)
    (habove : ¬ path <+: dir) : tree'.get? path = tree.get? path :=
  (h path hbelow).resolve_right fun hmade => habove hmade.1

/-- The files that are not below a directory stay. -/
theorem read_eq {tree tree' : FileTree} (h : SameOutside dir tree tree') (hbelow : ¬ dir <+: path) :
    tree'.read path = tree.read path := by
  rcases h path hbelow with heq | ⟨-, hnone, hdir⟩
  · exact FileTree.read_congr heq
  · rw [FileTree.read, hdir, FileTree.read, hnone]

/-- Making a directory below or above. -/
theorem of_makeDirs (h : dir <+: path ∨ path <+: dir) {tree tree' : FileTree}
    (hmade : tree.makeDirs path = some tree') : SameOutside dir tree tree' := by
  intro other hother
  rw [FileTree.get?_makeDirs hmade]
  by_cases hpre : other <+: path
  · have habove : other <+: dir := by
      rcases h with h | h
      · exact (List.prefix_or_prefix_of_prefix hpre h).resolve_right hother
      · exact hpre.trans h
    have hfile := FileTree.exists_makeDirs_iff.mp ⟨tree', hmade⟩ other hpre
    rw [if_pos hpre]
    cases hnode : tree.get? other with
    | none => exact .inr ⟨habove, rfl, rfl⟩
    | some node =>
      cases node with
      | dir => exact .inl rfl
      | file content =>
        rw [FileTree.read_eq_some_iff.mpr hnode] at hfile
        cases hfile
  · exact .inl (if_neg hpre)

theorem of_write (h : dir <+: path) {content : List UInt8} {tree tree' : FileTree}
    (hwritten : tree.write path content = some tree') : SameOutside dir tree tree' := by
  intro other hother
  left
  rw [FileTree.get?_write hwritten, if_neg (fun heq : other = path => hother (heq ▸ h))]

theorem of_removeFile (h : dir <+: path) {tree tree' : FileTree}
    (hremoved : tree.removeFile path = some tree') : SameOutside dir tree tree' := by
  intro other hother
  left
  rw [FileTree.get?_removeFile hremoved, if_neg (fun heq : other = path => hother (heq ▸ h))]

theorem of_removeAll (h : dir <+: path) (hpath : path ≠ []) (tree : FileTree) :
    SameOutside dir tree (tree.removeAll path) := by
  intro other hother
  left
  rw [FileTree.get?_removeAll hpath, if_neg fun hpre => hother (h.trans hpre)]

end SameOutside

namespace Disk

open Effect

variable {refuses : Refusals} {path : List String} {R : FileTree → FileTree → Prop}

/-! ### What is kept -/

theorem keeps_makeDirs (hrefl : ∀ tree, R tree tree)
    (h : ∀ tree tree', tree.makeDirs path = some tree' → R tree tree') :
    Keeps R (makeDirs refuses path) :=
  keeps_change hrefl fun tree tree' hok => h tree tree' (Refusals.grant_eq_ok_iff.mp hok).2

theorem keeps_write {content : List UInt8} (hrefl : ∀ tree, R tree tree)
    (h : ∀ tree tree', tree.write path content = some tree' → R tree tree') :
    Keeps R (write refuses path content) :=
  keeps_change hrefl fun tree tree' hok => h tree tree' (Refusals.grant_eq_ok_iff.mp hok).2

theorem keeps_removeFile (hrefl : ∀ tree, R tree tree)
    (h : ∀ tree tree', tree.removeFile path = some tree' → R tree tree') :
    Keeps R (removeFile refuses path) :=
  keeps_change hrefl fun tree tree' hok => h tree tree' (Refusals.grant_eq_ok_iff.mp hok).2

theorem keeps_removeAll (hrefl : ∀ tree, R tree tree)
    (h : ∀ tree, tree.get? path = some .dir → R tree (tree.removeAll path)) :
    Keeps R (removeAll refuses path) := by
  refine keeps_change hrefl fun tree tree' hok => ?_
  obtain ⟨hdir, heq⟩ := Option.ite_none_right_eq_some.mp (Refusals.grant_eq_ok_iff.mp hok).2
  exact Option.some.inj heq ▸ h tree hdir

end Disk
