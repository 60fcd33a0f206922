import SorobanDevkit.Library.UnorderedMap
import Mathlib.Data.List.Infix

/-!
# Trees of files and directories

A tree gives what is at each path, where a path is the list of the names that lead to it. Whatever
is at a path is in a directory, and the root is one. What an operating system refuses for other
reasons is not looked at here.

## Main results

* `FileTree.get?_makeDirs`, `FileTree.get?_write`, `FileTree.get?_removeAll` — what is at each path
  after a change.
* `FileTree.exists_makeDirs_iff`, `FileTree.exists_write_iff` — when a change can be made.
* `FileTree.isDir_of_prefix` — what is above something is a directory.
-/

namespace UnorderedMap

variable {κ α : Type} [DecidableEq κ]

/-- The map with the keys that have a property. -/
def filterKeys (m : UnorderedMap κ α) (p : κ → Bool) : UnorderedMap κ α where
  entries := m.entries.filter fun e => p e.1
  nodup := m.nodup.sublist (List.Sublist.map _ List.filter_sublist)

/-- The map with a value under a key. -/
def insert (m : UnorderedMap κ α) (k : κ) (a : α) : UnorderedMap κ α where
  entries := (m.filterKeys (· ≠ k)).entries ++ [(k, a)]
  nodup := by
    rw [List.map_append, List.nodup_append]
    refine ⟨(m.filterKeys (· ≠ k)).nodup, List.nodup_singleton _, ?_⟩
    rintro k' hk' b hb rfl
    obtain ⟨e, he, rfl⟩ := List.mem_map.mp hk'
    have hne : e.1 ≠ k := by simpa using (List.mem_filter.mp he).2
    exact hne (List.mem_singleton.mp hb)

theorem get?_filterKeys (m : UnorderedMap κ α) (p : κ → Bool) (k : κ) :
    (m.filterKeys p).get? k = if p k then m.get? k else none := by
  ext a
  rw [get?_eq_some, filterKeys, List.mem_filter]
  split
  · next hp => rw [get?_eq_some]; exact and_iff_left hp
  · next hp => exact iff_of_false (fun h => hp h.2) (by simp)

theorem get?_insert (m : UnorderedMap κ α) (k : κ) (a : α) (k' : κ) :
    (m.insert k a).get? k' = if k' = k then some a else m.get? k' := by
  ext b
  rw [get?_eq_some, insert, List.mem_append, List.mem_singleton, Prod.mk.injEq,
    ← get?_eq_some (m := m.filterKeys _), get?_filterKeys]
  by_cases hk : k' = k
  · simp [hk, eq_comm]
  · simp [hk]

end UnorderedMap

/-- What is at a path. -/
inductive FileNode
  | dir
  | file (content : List UInt8)
  deriving DecidableEq

/-- What nodes have at a path. The root is a directory. -/
def nodeAt (nodes : UnorderedMap (List String) FileNode) (path : List String) : Option FileNode :=
  if path = [] then some .dir else nodes.get? path

/-- A tree of files and directories. Whatever is at a path is in a directory. -/
structure FileTree where
  nodes : UnorderedMap (List String) FileNode
  parents : ∀ path node, nodeAt nodes path = some node → nodeAt nodes path.dropLast = some .dir

namespace FileTree

open UnorderedMap

/-- The tree without files. -/
def empty : FileTree where
  nodes := ⟨[], List.nodup_nil⟩
  parents := by
    intro path node h
    rw [nodeAt] at h
    split at h
    · next hpath =>
      rw [hpath]
      rfl
    · cases h

variable (tree : FileTree) (path : List String)

/-- What is at a path. -/
def get? : Option FileNode := nodeAt tree.nodes path

/-- The content of the file at a path. -/
def read : Option (List UInt8) :=
  match tree.get? path with
  | some (.file content) => some content
  | _ => none

/-- The names of what is in a directory. -/
def children : List String :=
  tree.nodes.keys.filterMap fun below => if below.dropLast = path then below.getLast? else none

theorem get?_nil : tree.get? [] = some .dir := by
  rw [get?, nodeAt, if_pos rfl]

variable {tree path} in
theorem get?_dropLast {node : FileNode} (h : tree.get? path = some node) :
    tree.get? path.dropLast = some .dir :=
  tree.parents path node h

/-- **What is above something is a directory.** -/
theorem isDir_of_prefix {above below : List String} {node : FileNode} (hpre : above <+: below)
    (hne : above ≠ below) (h : tree.get? below = some node) : tree.get? above = some .dir := by
  obtain ⟨rest, rfl⟩ := hpre
  induction rest using List.reverseRecOn generalizing node with
  | nil => exact absurd (List.append_nil above).symm hne
  | append_singleton rest name ih =>
    have hparent := get?_dropLast h
    rw [← List.append_assoc, List.dropLast_concat] at hparent
    cases rest with
    | nil => rwa [List.append_nil] at hparent
    | cons first rest => exact ih (by simp) hparent

/-- There is nothing below what is not a directory. -/
theorem get?_eq_none_of_prefix {above below : List String} (hpre : above <+: below)
    (h : tree.get? above = none) : tree.get? below = none := by
  cases hbelow : tree.get? below with
  | none => rfl
  | some node =>
    by_cases hne : above = below
    · rw [hne, hbelow] at h
      cases h
    · rw [tree.isDir_of_prefix hpre hne hbelow] at h
      cases h

/-- The tree with a node at a path that is in a directory and is none. -/
def insertNode (node : FileNode) (hparent : tree.get? path.dropLast = some .dir)
    (hdir : tree.get? path ≠ some .dir) : FileTree where
  nodes := tree.nodes.insert path node
  parents := by
    intro below node' h
    have hpath : path ≠ [] := by
      rintro rfl
      exact hdir tree.get?_nil
    have hkept : ∀ other, other ≠ path → nodeAt (tree.nodes.insert path node) other =
      tree.get? other := by
      intro other hother
      rw [nodeAt, get?_insert, if_neg hother, get?, nodeAt]
    by_cases hbelow : below = path
    · have hne : path.dropLast ≠ path := fun heq => by
        have hlength := congrArg List.length heq
        have hpos := List.length_pos_iff.mpr hpath
        rw [List.length_dropLast] at hlength
        omega
      rw [hbelow, hkept _ hne]
      exact hparent
    · rw [hkept _ hbelow] at h
      have habove := get?_dropLast h
      by_cases heq : below.dropLast = path
      · exact absurd (heq ▸ habove) hdir
      · rwa [hkept _ heq]

theorem get?_insertNode {node : FileNode} (hparent : tree.get? path.dropLast = some .dir)
    (hdir : tree.get? path ≠ some .dir) (other : List String) :
    (tree.insertNode path node hparent hdir).get? other =
      if other = path then some node else tree.get? other := by
  have hpath : path ≠ [] := by
    rintro rfl
    exact hdir tree.get?_nil
  rw [get?, insertNode, nodeAt, get?_insert]
  by_cases hother : other = path
  · rw [if_neg (hother ▸ hpath), if_pos hother, if_pos hother]
  · rw [if_neg hother, if_neg hother, get?, nodeAt]

/-- The tree with the nodes at some paths, which with a path has those above it. -/
def keep (keeps : List String → Bool) (hkeeps : ∀ path, keeps path → keeps path.dropLast) :
    FileTree where
  nodes := tree.nodes.filterKeys keeps
  parents := by
    intro below node h
    rw [nodeAt, get?_filterKeys] at h ⊢
    by_cases hbelow : below = []
    · rw [hbelow]
      rfl
    · rw [if_neg hbelow] at h
      split at h
      · next hkeep =>
        have habove := tree.parents below node (by rw [nodeAt, if_neg hbelow, h])
        rw [nodeAt] at habove
        rwa [if_pos (hkeeps below hkeep)]
      · cases h

theorem get?_keep {keeps : List String → Bool} (hkeeps : ∀ path, keeps path → keeps path.dropLast) :
    (tree.keep keeps hkeeps).get? path =
      if path = [] ∨ keeps path then tree.get? path else none := by
  rw [get?, keep, nodeAt, get?_filterKeys, get?, nodeAt]
  by_cases hpath : path = []
  · simp [hpath]
  · simp [hpath]

/-! ### Changes -/

/-- The tree with a directory at a path that is in one. -/
def makeDir : Option FileTree :=
  if hdir : tree.get? path = some .dir then some tree
  else if hparent : tree.get? path.dropLast = some .dir ∧ tree.get? path = none then
    some (tree.insertNode path .dir hparent.1 hdir)
  else none

/-- The tree with a directory at a path and above it, unless there is a file. -/
def makeDirs : Option FileTree := path.inits.foldlM makeDir tree

/-- The tree with a file at a path that is in a directory. -/
def write (content : List UInt8) : Option FileTree :=
  if h : tree.get? path.dropLast = some .dir ∧ tree.get? path ≠ some .dir then
    some (tree.insertNode path (.file content) h.1 h.2)
  else none

theorem not_prefix_dropLast {below : List String} (h : ¬ path <+: below) :
    ¬ path <+: below.dropLast :=
  fun hpre => h (hpre.trans (List.dropLast_prefix below))

/-- The tree without the file at a path. -/
def removeFile : Option FileTree :=
  if (tree.read path).isSome then
    some (tree.keep (fun below => !decide (path <+: below)) fun below h => by
      simpa using not_prefix_dropLast path (by simpa using h))
  else none

/-- The tree without what is at or below a path. -/
def removeAll : FileTree :=
  tree.keep (fun below => !decide (path <+: below)) fun below h => by
    simpa using not_prefix_dropLast path (by simpa using h)

variable {tree path}

theorem read_eq_some_iff {content : List UInt8} :
    tree.read path = some content ↔ tree.get? path = some (.file content) := by
  rw [read]
  split
  · next c hc => simp [hc]
  · next hnot => exact iff_of_false (by simp) fun h => hnot content h

theorem read_congr {tree' : FileTree} {path' : List String}
    (h : tree'.get? path' = tree.get? path) :
    tree'.read path' = tree.read path := by
  rw [read, h, read]

theorem get?_makeDir {tree' : FileTree} (h : tree.makeDir path = some tree') (other : List String) :
    tree'.get? other = if other = path then some .dir else tree.get? other := by
  rw [makeDir] at h
  split at h
  · next hdir =>
    cases h
    split
    · next heq => rw [heq, hdir]
    · rfl
  · split at h
    · cases h
      rw [get?_insertNode]
    · cases h

theorem exists_makeDir_iff : (∃ tree', tree.makeDir path = some tree') ↔
    tree.get? path.dropLast = some .dir ∧ tree.read path = none := by
  rw [makeDir, read]
  split
  · next hdir => exact iff_of_true ⟨tree, rfl⟩ ⟨get?_dropLast hdir, by rw [hdir]⟩
  · next hdir =>
    split
    · next hparent => exact iff_of_true ⟨_, rfl⟩ ⟨hparent.1, by rw [hparent.2]⟩
    · next hparent =>
      refine iff_of_false (by simp) fun h => hparent ⟨h.1, ?_⟩
      cases hnode : tree.get? path with
      | none => rfl
      | some node =>
        cases node with
        | dir => exact absurd hnode hdir
        | file content => simp [hnode] at h

/-- **When directories can be made, and what is at each path after that.** -/
theorem makeDirs_spec (path : List String) :
    ((∃ tree', tree.makeDirs path = some tree') ↔ ∀ above, above <+: path → tree.read above = none)
      ∧
      ∀ tree', tree.makeDirs path = some tree' →
        ∀ other, tree'.get? other = if other <+: path then some .dir else tree.get? other := by
  induction path using List.reverseRecOn with
  | nil =>
    have hroot : tree.makeDirs [] = some tree := by
      rw [makeDirs, List.inits, List.foldlM_cons, makeDir, dif_pos tree.get?_nil]
      rfl
    refine ⟨iff_of_true ⟨tree, hroot⟩ fun above habove => ?_, fun tree' h other => ?_⟩
    · rw [List.prefix_nil.mp habove, read, get?_nil]
    · rw [hroot] at h
      cases h
      split
      · next hother => rw [List.prefix_nil.mp hother, get?_nil]
      · rfl
  | append_singleton path name ih =>
    obtain ⟨hiff, hget⟩ := ih
    have hnot : ¬ path ++ [name] <+: path := fun hpre => by
      have hlength := hpre.length_le
      rw [List.length_append, List.length_singleton] at hlength
      omega
    have hstep : tree.makeDirs (path ++ [name]) =
        (tree.makeDirs path).bind fun tree => tree.makeDir (path ++ [name]) := by
      rw [makeDirs, List.inits_append, makeDirs]
      simp [List.foldlM_append]
    rw [hstep]
    constructor
    · constructor
      · rintro ⟨tree', h⟩ above habove
        obtain ⟨tree₁, h₁, h₂⟩ := Option.bind_eq_some_iff.mp h
        rcases List.prefix_concat_iff.mp habove with rfl | habove
        · have hfile := (exists_makeDir_iff.mp ⟨tree', h₂⟩).2
          rwa [← read_congr ((hget tree₁ h₁ _).trans (if_neg hnot))]
        · exact hiff.mp ⟨tree₁, h₁⟩ above habove
      · intro h
        obtain ⟨tree₁, h₁⟩ := hiff.mpr fun above habove =>
          h above (habove.trans (List.prefix_append _ _))
        have hkept : tree₁.get? (path ++ [name]) = tree.get? (path ++ [name]) := by
          rw [hget tree₁ h₁, if_neg hnot]
        obtain ⟨tree₂, h₂⟩ := exists_makeDir_iff.mpr
          ⟨by rw [List.dropLast_concat, hget tree₁ h₁, if_pos List.prefix_rfl],
            (read_congr hkept).trans (h _ List.prefix_rfl)⟩
        exact ⟨tree₂, Option.bind_eq_some_iff.mpr ⟨tree₁, h₁, h₂⟩⟩
    · intro tree' h other
      obtain ⟨tree₁, h₁, h₂⟩ := Option.bind_eq_some_iff.mp h
      rw [get?_makeDir h₂, hget tree₁ h₁]
      by_cases hother : other = path ++ [name]
      · rw [if_pos hother, if_pos (hother ▸ List.prefix_rfl)]
      · rw [if_neg hother]
        exact if_congr ⟨fun hpre => List.prefix_concat_iff.mpr (.inr hpre),
          fun hpre => (List.prefix_concat_iff.mp hpre).resolve_left hother⟩ rfl rfl

theorem exists_makeDirs_iff : (∃ tree', tree.makeDirs path = some tree') ↔
    ∀ above, above <+: path → tree.read above = none :=
  (makeDirs_spec path).1

/-- **What is at each path after directories are made.** -/
theorem get?_makeDirs {tree' : FileTree} (h : tree.makeDirs path = some tree')
    (other : List String) :
    tree'.get? other = if other <+: path then some .dir else tree.get? other :=
  (makeDirs_spec path).2 tree' h other

/-- **What is at each path after a file is written.** -/
theorem get?_write {content : List UInt8} {tree' : FileTree}
    (h : tree.write path content = some tree') (other : List String) :
    tree'.get? other = if other = path then some (.file content) else tree.get? other := by
  rw [write] at h
  split at h
  · cases h
    rw [get?_insertNode]
  · cases h

theorem exists_write_iff {content : List UInt8} :
    (∃ tree', tree.write path content = some tree') ↔
      tree.get? path.dropLast = some .dir ∧ tree.get? path ≠ some .dir := by
  rw [write]
  split
  · next h => exact iff_of_true ⟨_, rfl⟩ h
  · next h => exact iff_of_false (by simp) h

/-- **What is at each path after a removal.** -/
theorem get?_removeAll (hpath : path ≠ []) (other : List String) :
    (tree.removeAll path).get? other = if path <+: other then none else tree.get? other := by
  rw [removeAll, get?_keep]
  by_cases hother : path <+: other
  · have hne : other ≠ [] := fun heq => hpath (List.prefix_nil.mp (heq ▸ hother))
    simp [hother, hne]
  · simp [hother]

/-- What is left after a removal was there before. -/
theorem get?_of_removeAll {other : List String} {node : FileNode}
    (h : (tree.removeAll path).get? other = some node) : tree.get? other = some node := by
  rw [removeAll, get?_keep] at h
  exact (Option.ite_none_right_eq_some.mp h).2

theorem read_of_removeAll {other : List String} {content : List UInt8}
    (h : (tree.removeAll path).read other = some content) : tree.read other = some content := by
  rw [read_eq_some_iff] at h ⊢
  exact get?_of_removeAll h

/-- What is at each path after the file at a path is removed. -/
theorem get?_removeFile {tree' : FileTree} (h : tree.removeFile path = some tree')
    (other : List String) :
    tree'.get? other = if other = path then none else tree.get? other := by
  rw [removeFile] at h
  split at h
  · next hfile =>
    cases h
    obtain ⟨content, hread⟩ := Option.isSome_iff_exists.mp hfile
    have hnode := read_eq_some_iff.mp hread
    have hpath : path ≠ [] := by
      rintro rfl
      rw [get?_nil] at hnode
      cases hnode
    rw [get?_keep]
    by_cases heq : other = path
    · rw [if_pos heq, if_neg]
      simp [heq, hpath]
    · rw [if_neg heq]
      by_cases hpre : path <+: other
      · -- there is nothing below a file
        have hnone : tree.get? other = none := by
          cases hother : tree.get? other with
          | none => rfl
          | some node =>
            rw [tree.isDir_of_prefix hpre (Ne.symm heq) hother] at hnode
            cases hnode
        rw [hnone, ite_self]
      · rw [if_pos (.inr (by simpa using hpre))]
  · cases h

/-- A path by its directory and its last name. -/
theorem eq_append_of_mem_ite {below : List String} {name : String}
    (h : name ∈ if below.dropLast = path then below.getLast? else none) :
      below = path ++ [name] := by
  split at h
  · next hparent => rw [← hparent, List.dropLast_append_getLast? name h]
  · cases h

/-- The names in a directory are those of what is there. -/
theorem mem_children {name : String} :
    name ∈ tree.children path ↔ ∃ node, tree.get? (path ++ [name]) = some node := by
  rw [children, List.mem_filterMap]
  simp only [get?, nodeAt,
    if_neg (List.append_ne_nil_of_right_ne_nil path (List.cons_ne_nil name []))]
  constructor
  · rintro ⟨below, hmem, hname⟩
    obtain ⟨⟨below', node⟩, he, rfl⟩ := List.mem_map.mp hmem
    exact ⟨node, get?_eq_some.mpr (eq_append_of_mem_ite hname ▸ he)⟩
  · rintro ⟨node, hnode⟩
    exact ⟨path ++ [name], List.mem_map_of_mem (get?_eq_some.mp hnode), by simp⟩

theorem nodup_children : (tree.children path).Nodup :=
  tree.nodes.nodup.filterMap fun _ _ _ h h' =>
    (eq_append_of_mem_ite h).trans (eq_append_of_mem_ite h').symm

end FileTree
