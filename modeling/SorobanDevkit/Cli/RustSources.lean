import Mathlib.Algebra.GroupWithZero.Nat
import Mathlib.Data.List.Destutter
import Mathlib.Data.List.Sort
import SorobanDevkit.Core.Manifest
import SorobanDevkit.Library.Fallible
import SorobanDevkit.Library.PathText

/-!
# The Rust sources under a path

`collect_rust_sources` of `sdkt-cli/src/main.rs` takes a file as it is, and walks a directory with a
stack. A directory is given by its entries in the order in which they are listed. Symbolic links in
it are not followed, so that it is a finite tree.
-/

namespace SorobanDevkit.Cli

open SorobanDevkit.Core (joinPath)

/-! ### Paths -/

/-- The place of a component in the order of components, and the name after it. -/
def componentKey : PathText.Component Char → List ℕ
  | .root => [0]
  | .current => [1]
  | .parent => [2]
  | .normal name => 3 :: name.map Char.toNat

/-- What paths are compared by. -/
def pathKey (path : String) : List (List ℕ) :=
  (PathText.components '/' '.' path.toList).map componentKey

/-- `Vec<PathBuf>::sort`. -/
def sortPaths (paths : List String) : List String :=
  paths.insertionSort fun p q => pathKey p ≤ pathKey q

/-- `sort` and `dedup`: of equal paths, the first one is kept. -/
def sortDedup (paths : List String) : List String :=
  (sortPaths paths).destutter fun p q => pathKey p ≠ pathKey q

/-- The extension of the file is that of Rust sources. -/
def isRust (name : String) : Bool := PathText.extension '.' name.toList = some "rs".toList

/-! ### Directories -/

/-- What is found under a name. -/
inductive DirNode
  | file
  /-- Neither a file nor a directory, such as a symbolic link. -/
  | other
  /-- A directory: its entries, and the error that ends the listing early. -/
  | dir (entries : List (String × DirNode)) (failure : Option String)

/-- The number of directories among entries and below. -/
def dirsIn : List (String × DirNode) → ℕ
  | [] => 0
  | (_, .dir below _) :: entries => dirsIn below + 1 + dirsIn entries
  | (_, .file) :: entries => dirsIn entries
  | (_, .other) :: entries => dirsIn entries

/-- The Rust files among the entries of a directory and below. -/
def rustFilesIn (dir : String) : List (String × DirNode) → List String
  | [] => []
  | (name, .file) :: entries =>
    (if isRust name then [joinPath dir name] else []) ++ rustFilesIn dir entries
  | (name, .dir below _) :: entries => rustFilesIn (joinPath dir name) below ++
    rustFilesIn dir entries
  | (_, .other) :: entries => rustFilesIn dir entries

/-- The directories among the entries of a directory and below can be listed. -/
def listableIn : List (String × DirNode) → Bool
  | [] => true
  | (_, .dir below failure) :: entries =>
    failure.isNone && listableIn below && listableIn entries
  | (_, .file) :: entries => listableIn entries
  | (_, .other) :: entries => listableIn entries

/-- A directory on the stack. -/
structure PendingDir where
  path : String
  entries : List (String × DirNode)
  failure : Option String

/-- What an entry of a directory adds to the stack and to the files. -/
def visit (dir : String) (state : List PendingDir × List String) (entry : String × DirNode) :
    List PendingDir × List String :=
  match entry.2 with
  | .dir entries failure => (⟨joinPath dir entry.1, entries, failure⟩ :: state.1, state.2)
  | .file => if isRust entry.1 then (state.1, state.2 ++ [joinPath dir entry.1]) else state
  | .other => state

/-- The loop of `collect_rust_sources`, for at most a number of directories. -/
def walk : (dirs : ℕ) → List PendingDir → List String → Except String (List String)
  | _, [], files => .ok files
  | 0, _ :: _, files => .ok files
  | dirs + 1, dir :: stack, files =>
    match dir.failure with
    | some e => .error e
    | none =>
      let (stack, files) := dir.entries.foldl (visit dir.path) (stack, files)
      walk dirs stack files

/-- `collect_rust_sources`. -/
def collectRustSources (path : String) : Option DirNode → Except String (List String)
  | some .file => .ok [path]
  | some (.dir entries failure) =>
    (walk (dirsIn entries + 1) [⟨path, entries, failure⟩] []).map sortPaths
  | _ => .error ("path does not exist: " ++ path)

/-! ### The walk -/

/-- The Rust files of a directory on the stack. -/
def PendingDir.rustFiles (dir : PendingDir) : List String := rustFilesIn dir.path dir.entries

/-- A directory on the stack and those below can be listed. -/
def PendingDir.listable (dir : PendingDir) : Bool := dir.failure.isNone && listableIn dir.entries

/-- The number of directories on a stack and below. -/
def pendingDirs (stack : List PendingDir) : ℕ := (stack.map fun dir => dirsIn dir.entries + 1).sum

theorem visit_file (dir : String) (state : List PendingDir × List String) (name : String) :
    visit dir state (name, .file) =
      (state.1, state.2 ++ if isRust name then [joinPath dir name] else []) := by
  change (if isRust name then _ else _) = _
  split <;> simp

theorem visit_dir (dir : String) (state : List PendingDir × List String) (name : String)
    (below : List (String × DirNode)) (failure : Option String) :
    visit dir state (name, .dir below failure) =
      (⟨joinPath dir name, below, failure⟩ :: state.1, state.2) := rfl

theorem visit_other (dir : String) (state : List PendingDir × List String) (name : String) :
    visit dir state (name, .other) = state := rfl

theorem pendingDirs_foldl_visit (dir : String) (entries : List (String × DirNode))
    (state : List PendingDir × List String) :
    pendingDirs (entries.foldl (visit dir) state).1 = pendingDirs state.1 + dirsIn entries := by
  induction entries generalizing state with
  | nil => rw [List.foldl_nil, dirsIn, Nat.add_zero]
  | cons entry entries ih =>
    obtain ⟨name, node⟩ := entry
    rw [List.foldl_cons, ih]
    cases node with
    | file => rw [dirsIn, visit_file]
    | other => rw [dirsIn, visit_other]
    | dir below failure =>
      rw [dirsIn, visit_dir, pendingDirs, List.map_cons, List.sum_cons, ← pendingDirs]
      dsimp only
      omega

/-- The entries of a directory add its Rust files to those that are found and those that are
pending. -/
theorem foldl_visit_perm (dir : String) (entries : List (String × DirNode))
    (state : List PendingDir × List String) :
    ((entries.foldl (visit dir) state).2 ++
        (entries.foldl (visit dir) state).1.flatMap PendingDir.rustFiles).Perm
      (state.2 ++ state.1.flatMap PendingDir.rustFiles ++ rustFilesIn dir entries) := by
  induction entries generalizing state with
  | nil => rw [List.foldl_nil, rustFilesIn, List.append_nil]
  | cons entry entries ih =>
    obtain ⟨name, node⟩ := entry
    rw [List.foldl_cons]
    refine (ih _).trans ?_
    cases node with
    | file =>
      rw [rustFilesIn, visit_file, ← List.append_assoc]
      refine List.Perm.append_right _ ?_
      rw [List.append_assoc, List.append_assoc]
      exact List.perm_append_comm.append_left _
    | other => rw [rustFilesIn, visit_other]
    | dir below failure =>
      rw [rustFilesIn, visit_dir, List.flatMap_cons, ← List.append_assoc _ (rustFilesIn _ _)]
      refine List.Perm.append_right _ ?_
      rw [List.append_assoc]
      exact List.perm_append_comm.append_left _

/-- **The walk finds the Rust files of the directories on its stack.** -/
theorem walk_eq_ok {dirs : ℕ} {stack : List PendingDir} {files found : List String}
    (h : walk dirs stack files = .ok found) (hdirs : pendingDirs stack ≤ dirs) :
    found.Perm (files ++ stack.flatMap PendingDir.rustFiles) := by
  induction dirs generalizing stack files with
  | zero =>
    cases stack with
    | nil =>
      rw [walk] at h
      cases h
      rw [List.flatMap_nil, List.append_nil]
    | cons dir stack => simp [pendingDirs] at hdirs
  | succ dirs ih =>
    cases stack with
    | nil =>
      rw [walk] at h
      cases h
      rw [List.flatMap_nil, List.append_nil]
    | cons dir stack =>
      rw [walk] at h
      cases hfailure : dir.failure with
      | some e =>
        rw [hfailure] at h
        cases h
      | none =>
        rw [hfailure] at h
        refine (ih h ?_).trans ((foldl_visit_perm dir.path dir.entries (stack, files)).trans ?_)
        · rw [pendingDirs_foldl_visit]
          rw [pendingDirs, List.map_cons, List.sum_cons, ← pendingDirs] at hdirs
          dsimp only
          omega
        · rw [List.append_assoc, List.flatMap_cons]
          exact List.perm_append_comm.append_left _

theorem all_listable_foldl_visit (dir : String) (entries : List (String × DirNode))
    (state : List PendingDir × List String) :
    (entries.foldl (visit dir) state).1.all PendingDir.listable =
      (state.1.all PendingDir.listable && listableIn entries) := by
  induction entries generalizing state with
  | nil => rw [List.foldl_nil, listableIn, Bool.and_true]
  | cons entry entries ih =>
    obtain ⟨name, node⟩ := entry
    rw [List.foldl_cons, ih]
    cases node with
    | file => rw [listableIn, visit_file]
    | other => rw [listableIn, visit_other]
    | dir below failure =>
      rw [listableIn, visit_dir, List.all_cons, Bool.and_comm (PendingDir.listable _),
        Bool.and_assoc]
      rfl

/-- The walk comes to an end if it can list the directories. -/
theorem exists_walk_iff {dirs : ℕ} {stack : List PendingDir} {files : List String}
    (hdirs : pendingDirs stack ≤ dirs) :
    (∃ found, walk dirs stack files = .ok found) ↔ stack.all PendingDir.listable = true := by
  induction dirs generalizing stack files with
  | zero =>
    cases stack with
    | nil => exact iff_of_true ⟨files, rfl⟩ rfl
    | cons dir stack => simp [pendingDirs] at hdirs
  | succ dirs ih =>
    cases stack with
    | nil => exact iff_of_true ⟨files, rfl⟩ rfl
    | cons dir stack =>
      rw [walk, List.all_cons, PendingDir.listable]
      cases dir.failure with
      | some e => simp
      | none =>
        rw [pendingDirs, List.map_cons, List.sum_cons, ← pendingDirs] at hdirs
        refine (ih ?_).trans ?_
        · rw [pendingDirs_foldl_visit]
          dsimp only
          omega
        · rw [all_listable_foldl_visit, Option.isNone_none, Bool.true_and, Bool.and_comm]

/-- **What is collected of a directory**: its Rust files, each once, in the order of paths, if every
directory can be listed. -/
theorem collectRustSources_dir (path : String) (entries : List (String × DirNode))
    (failure : Option String) :
    ((∃ files, collectRustSources path (some (.dir entries failure)) = .ok files) ↔
      failure = none ∧ listableIn entries = true) ∧
    ∀ files, collectRustSources path (some (.dir entries failure)) = .ok files →
      files.Perm (rustFilesIn path entries) ∧ files.Pairwise fun p q => pathKey p ≤ pathKey q := by
  have hdirs : pendingDirs [⟨path, entries, failure⟩] ≤ dirsIn entries + 1 := by
    simp [pendingDirs]
  constructor
  · have hwalk := @exists_walk_iff _ _ [] hdirs
    rw [List.all_cons, List.all_nil, Bool.and_true, PendingDir.listable, Bool.and_eq_true,
      Option.isNone_iff_eq_none] at hwalk
    rw [← hwalk, collectRustSources]
    constructor
    · rintro ⟨files, hfiles⟩
      obtain ⟨found, hfound, -⟩ := Except.map_eq_ok_iff.mp hfiles
      exact ⟨found, hfound⟩
    · rintro ⟨found, hfound⟩
      exact ⟨sortPaths found, Except.map_eq_ok_iff.mpr ⟨found, hfound, rfl⟩⟩
  · intro files hfiles
    obtain ⟨found, hfound, rfl⟩ := Except.map_eq_ok_iff.mp hfiles
    have hperm := walk_eq_ok hfound hdirs
    rw [List.nil_append, List.flatMap_cons, List.flatMap_nil, List.append_nil] at hperm
    exact ⟨(List.perm_insertionSort _ _).trans hperm, List.pairwise_insertionSort _ _⟩

/-! ### The sources of several paths -/

theorem exists_mem_destutter' {α κ : Type} [DecidableEq κ] (key : α → κ) (a : α) (l : List α) :
    ∀ p ∈ a :: l, ∃ q ∈ l.destutter' (fun p q => key p ≠ key q) a, key q = key p := by
  induction l generalizing a with
  | nil => simp
  | cons b l ih =>
    intro p hp
    by_cases hab : key a = key b
    · rw [List.destutter'_cons_neg _ (not_not.mpr hab)]
      obtain rfl | hp := List.mem_cons.mp hp
      · exact ih p p List.mem_cons_self
      · obtain rfl | hp := List.mem_cons.mp hp
        · obtain ⟨q, hq, hkey⟩ := ih a a List.mem_cons_self
          exact ⟨q, hq, hkey.trans hab⟩
        · exact ih a p (List.mem_cons_of_mem _ hp)
    · rw [List.destutter'_cons_pos _ hab]
      obtain rfl | hp := List.mem_cons.mp hp
      · exact ⟨p, List.mem_cons_self, rfl⟩
      · obtain ⟨q, hq, hkey⟩ := ih b p hp
        exact ⟨q, List.mem_cons_of_mem _ hq, hkey⟩

/-- Every path stays in one spelling. -/
theorem exists_mem_sortDedup {paths : List String} {path : String} (h : path ∈ paths) :
    ∃ kept ∈ sortDedup paths, pathKey kept = pathKey path := by
  have hmem : path ∈ sortPaths paths := (List.mem_insertionSort _).mpr h
  rw [sortDedup]
  cases hsorted : sortPaths paths with
  | nil =>
    rw [hsorted] at hmem
    cases hmem
  | cons first rest =>
    rw [hsorted] at hmem
    exact exists_mem_destutter' pathKey first rest path hmem

end SorobanDevkit.Cli
