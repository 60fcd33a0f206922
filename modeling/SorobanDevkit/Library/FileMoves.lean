import SorobanDevkit.Library.Disk
import SorobanDevkit.Library.PathText

/-!
# Paths with parents, and files that are moved

The text of a path is followed from a directory, where two dots lead to the parent. A file is moved
by writing its content at another path and removing it.

## Main results

* `PathText.follow_eq` — where a text leads to, from any directory.
* `PathText.prefix_follow_iff` — a text stays in a directory if it returns to it.
* `SameOutside.of_renameFile`, `Disk.keeps_rename` — a file is moved within a directory.
-/

namespace PathText

/-- One component of a path is followed. The root has no parent. -/
def followComponent (path : List String) : Component Char → List String
  | .root => []
  | .current => path
  | .parent => path.dropLast
  | .normal name => path ++ [String.ofList name]

/-- The path that a text leads to from a directory. -/
def follow (dir : List String) (text : String) : List String :=
  (components '/' '.' text.toList).foldl followComponent dir

/-- A way in a tree: from the root or from where one is, some directories up, and then down. -/
structure Route where
  absolute : Bool
  climbs : ℕ
  names : List String

/-- One more component of a way. -/
def Route.step (r : Route) : Component Char → Route
  | .root => ⟨true, 0, []⟩
  | .current => r
  | .parent =>
    if r.names = [] then { r with climbs := r.climbs + 1 }
    else { r with names := r.names.dropLast }
  | .normal name => { r with names := r.names ++ [String.ofList name] }

/-- The way that a text describes, without detours. -/
def route (text : String) : Route :=
  (components '/' '.' text.toList).foldl Route.step ⟨false, 0, []⟩

/-- The path at the end of a way from a directory. -/
def Route.target (r : Route) (dir : List String) : List String :=
  (if r.absolute then [] else dir.take (dir.length - r.climbs)) ++ r.names

/-- The directories at the end of a path that a way leads out of. -/
def Route.left (r : Route) (dir : List String) : List String :=
  if r.absolute then dir else dir.drop (dir.length - r.climbs)

/-- The way goes back into the directories that it leads out of. -/
def Route.Returns (r : Route) (dir : List String) : Prop := r.left dir <+: r.names

theorem Route.target_step (r : Route) (dir : List String) (c : Component Char) :
    (r.step c).target dir = followComponent (r.target dir) c := by
  cases c with
  | root => simp [step, target, followComponent]
  | current => rfl
  | parent =>
    rw [step]
    split
    · next hnames =>
      cases habsolute : r.absolute with
      | true => simp [target, followComponent, hnames, habsolute]
      | false =>
        simp only [target, followComponent, hnames, habsolute, Bool.false_eq_true, if_false,
          List.append_nil, List.dropLast_eq_take, List.take_take, List.length_take]
        congr 1
        omega
    · next hnames => rw [target, target, followComponent, List.dropLast_append_of_ne_nil hnames]
  | normal name => exact (List.append_assoc _ _ _).symm

/-- **Where a text leads to**: the end of its way. -/
theorem follow_eq (dir : List String) (text : String) :
    follow dir text = (route text).target dir := by
  have hfold (cs : List (Component Char)) (r : Route) :
      cs.foldl followComponent (r.target dir) = (cs.foldl Route.step r).target dir := by
    induction cs generalizing r with
    | nil => rfl
    | cons c cs ih => rw [List.foldl_cons, List.foldl_cons, ← ih, Route.target_step]
  have hstart : (⟨false, 0, []⟩ : Route).target dir = dir := by simp [Route.target]
  rw [follow, route, ← hfold, hstart]

/-- **A text stays in a directory exactly if it returns to it.** -/
theorem prefix_follow_iff (dir : List String) (text : String) :
    dir <+: follow dir text ↔ (route text).Returns dir := by
  rw [follow_eq, Route.target, Route.Returns, Route.left]
  split
  · rw [List.nil_append]
  · calc dir <+: dir.take (dir.length - (route text).climbs) ++ (route text).names
        ↔ dir.take (dir.length - (route text).climbs) ++
            dir.drop (dir.length - (route text).climbs) <+:
            dir.take (dir.length - (route text).climbs) ++ (route text).names := by
          rw [List.take_append_drop]
      _ ↔ dir.drop (dir.length - (route text).climbs) <+: (route text).names :=
          List.prefix_append_right_inj _

end PathText

/-- The tree with a file moved. -/
def FileTree.renameFile (tree : FileTree) (source target : List String) : Option FileTree := do
  let content ← tree.read source
  if source = target then some tree
  else
    let tree ← tree.write target content
    tree.removeFile source

namespace SameOutside

variable {dir source target : List String}

/-- Moving a file at or below a directory. -/
theorem of_renameFile (hsource : dir <+: source) (htarget : dir <+: target) {tree tree' : FileTree}
    (h : tree.renameFile source target = some tree') : SameOutside dir tree tree' := by
  obtain ⟨content, -, h⟩ := Option.bind_eq_some_iff.mp h
  by_cases hsame : source = target
  · rw [if_pos hsame] at h
    rw [← Option.some.inj h]
    exact SameOutside.refl tree
  · rw [if_neg hsame] at h
    obtain ⟨written, hwritten, hremoved⟩ := Option.bind_eq_some_iff.mp h
    exact SameOutside.trans _ _ _ (SameOutside.of_write htarget hwritten)
      (SameOutside.of_removeFile hsource hremoved)

end SameOutside

namespace Disk

open Effect

/-- Moves a file. -/
def rename (refuses : Refusals) (source target : List String) : Effect FileTree String Unit :=
  change fun tree => refuses.grant .write target (tree.renameFile source target)

theorem keeps_rename {refuses : Refusals} {source target : List String}
    {R : FileTree → FileTree → Prop}
    (hrefl : ∀ tree, R tree tree)
    (h : ∀ tree tree', tree.renameFile source target = some tree' → R tree tree') :
    Keeps R (rename refuses source target) :=
  keeps_change hrefl fun tree tree' hok => h tree tree' (Refusals.grant_eq_ok_iff.mp hok).2

end Disk
