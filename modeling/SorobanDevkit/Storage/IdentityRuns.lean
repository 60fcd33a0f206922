import Mathlib.Data.List.TakeWhile
import SorobanDevkit.Library.Fallible
import SorobanDevkit.Library.Hex
import SorobanDevkit.Library.Runs
import SorobanDevkit.Storage.Identity

/-!
# Runs of the identity store

Over a run of the store, the identities are those that were generated or imported and not removed
since, and the default identity is the one last made default and not removed since. The store
follows this unless the default identity is removed: its link is then left, since it is asked
whether the link leads to a file when the file is gone.
-/

namespace SorobanDevkit.Storage

/-! ### Paths of key files -/

theorem fileName_eq_self {name : String} (h : '/' ∉ name.toList) : fileName name = name := by
  have hall : ∀ c ∈ name.toList.reverse, decide (c ≠ '/') = true := by
    intro c hc
    rw [decide_eq_true_eq]
    rintro rfl
    exact h (List.mem_reverse.mp hc)
  rw [fileName, List.takeWhile_eq_self_iff.mpr hall, List.reverse_reverse, String.ofList_toList]

theorem parentOf_eq_empty {name : String} (h : '/' ∉ name.toList) : parentOf name = "" := by
  have hall : ∀ c ∈ name.toList.reverse, decide (c ≠ '/') = true := by
    intro c hc
    rw [decide_eq_true_eq]
    rintro rfl
    exact h (List.mem_reverse.mp hc)
  rw [parentOf, List.dropWhile_eq_nil_iff.mpr hall]
  rfl

/-- The characters after the name of an identity. -/
theorem reverse_keyPath (name : String) :
    (keyPath name).toList.reverse = ".toml".toList.reverse ++ name.toList.reverse := by
  rw [keyPath, String.toList_append, List.reverse_append]

theorem fileName_keyPath (name : String) : fileName (keyPath name) = keyPath (fileName name) := by
  have hextension : ∀ c ∈ ".toml".toList.reverse, decide (c ≠ '/') = true :=
    List.all_eq_true.mp (by decide)
  rw [fileName, reverse_keyPath, List.takeWhile_append_of_pos hextension, List.reverse_append,
    List.reverse_reverse, String.ofList_append, String.ofList_toList, keyPath, fileName]

theorem parentOf_keyPath (name : String) : parentOf (keyPath name) = parentOf name := by
  have hextension : ∀ c ∈ ".toml".toList.reverse, decide (c ≠ '/') = true :=
    List.all_eq_true.mp (by decide)
  rw [parentOf, reverse_keyPath, List.dropWhile_append_of_pos hextension, parentOf]

theorem fileStem_keyPath {name : String} (h : fileName name ≠ "") :
    fileStem (keyPath name) = fileName name := by
  have hstem : ((keyPath (fileName name)).toList.reverse.dropWhile (· ≠ '.')).drop 1 =
      (fileName name).toList.reverse := by
    rw [reverse_keyPath]
    rfl
  have hne : (fileName name).toList.reverse ≠ [] := by
    rw [Ne, List.reverse_eq_nil_iff, String.toList_eq_nil_iff]
    exact h
  rw [fileStem, fileName_keyPath, hstem, if_neg hne, List.reverse_reverse, String.ofList_toList]

theorem keyPath_inj {name name' : String} (h : keyPath name = keyPath name') : name = name' :=
  (String.append_left_inj _).mp h

theorem keyPath_ne_default (name : String) : keyPath name ≠ defaultIdentityName := by
  intro h
  have hlast : (keyPath name).toList.reverse.head? = some 'l' := by
    rw [reverse_keyPath]
    rfl
  rw [h] at hlast
  exact absurd hlast (by decide)

/-! ### What a directory represents -/

/-- A name that is allowed for an identity. -/
def ValidName (name : String) : Prop :=
  ¬ (name = "" ∨ name = "default" ∨ '/' ∈ name.toList ∨ '\\' ∈ name.toList)

theorem ValidName.fileName_eq {name : String} (h : ValidName name) : fileName name = name :=
  fileName_eq_self fun hslash => h (Or.inr (Or.inr (Or.inl hslash)))

section Represents

variable (place : Place) (crates : KeyCrates)

/-- A directory has the files of the given keys and a link to the file of the given name. -/
structure Represents (dir : Directory) (keys : String → Option Seed) (link : Option String) :
    Prop where
  default : dir defaultIdentityName = link.map fun name => .link (keyPath name)
  key : ∀ name, dir (keyPath name) =
    (keys name).map fun seed => .file (keyText crates name seed)
  valid : ∀ name seed, keys name = some seed → ValidName name

/-- A name leads to the directory. -/
def Place.Enters (name : String) : Prop := parentOf name = "" ∨ place.reaches (parentOf name) = true

instance (name : String) : Decidable (place.Enters name) := inferInstanceAs (Decidable (_ ∨ _))

/-- The key that is found under a name. -/
def found (keys : String → Option Seed) (name : String) : Option Seed :=
  if place.Enters name then keys (fileName name) else none

/-- The identity that the link to the default identity leads to, and its key. -/
def linked (keys : String → Option Seed) (link : Option String) : Option (String × Seed) :=
  link.bind fun name =>
    if place.anchored (keyPath name) then (found place keys name).map fun seed =>
      (fileName name, seed)
    else none

variable {place crates} {dir : Directory} {keys : String → Option Seed} {link : Option String}

theorem entryOf_keyPath (name : String) : place.entryOf (keyPath name) =
    if place.Enters name then some (keyPath (fileName name)) else none := by
  rw [Place.entryOf, fileName_keyPath, parentOf_keyPath]
  rfl

theorem entryOf_default : place.entryOf defaultIdentityName = some defaultIdentityName := by
  have hslash : '/' ∉ defaultIdentityName.toList := by decide
  rw [Place.entryOf, if_pos (Or.inl (parentOf_eq_empty hslash)), fileName_eq_self hslash]

theorem Place.enters_of_valid {name : String} (h : ValidName name) : place.Enters name :=
  Or.inl (parentOf_eq_empty fun hslash => h (Or.inr (Or.inr (Or.inl hslash))))

theorem found_of_valid {name : String} (h : ValidName name) :
    found place keys name = keys name := by
  rw [found, if_pos (Place.enters_of_valid h), h.fileName_eq]

theorem found_eq_some {name : String} {seed : Seed} :
    found place keys name = some seed ↔ place.Enters name ∧ keys (fileName name) = some seed := by
  rw [found]
  split_ifs with henters
  · exact ⟨fun h => ⟨henters, h⟩, fun h => h.2⟩
  · exact ⟨fun h => (by cases h), fun h => absurd h.1 henters⟩

namespace Represents

variable (h : Represents crates dir keys link)
include h

theorem content_key (name : String) :
    (place.entryOf (keyPath name)).bind (LinkedDirectory.content place.follow dir) =
      (found place keys name).map (keyText crates (fileName name)) := by
  rw [entryOf_keyPath, found]
  split_ifs with henters
  · have hentry := h.key (fileName name)
    cases hkey : keys (fileName name) with
    | none =>
      rw [hkey] at hentry
      exact LinkedDirectory.content_none hentry
    | some seed =>
      rw [hkey] at hentry
      exact LinkedDirectory.content_file hentry
  · rfl

theorem pathExists_key (name : String) :
    pathExists place dir (keyPath name) = (found place keys name).isSome := by
  have hkey : (place.entryOf (keyPath name)).bind _ = _ := h.content_key name
  have hcontent := congrArg Option.isSome hkey
  rw [Option.isSome_map] at hcontent
  rw [← hcontent, pathExists]
  cases place.entryOf (keyPath name) <;> rfl

theorem content_default : LinkedDirectory.content place.follow dir defaultIdentityName =
    (linked place keys link).map fun (name, seed) => keyText crates name seed := by
  cases link with
  | none => exact LinkedDirectory.content_none h.default
  | some name =>
    have hfile : ∀ next ∈ place.follow (keyPath name), ∀ target,
      dir next ≠ some (.link target) := by
      intro next hnext target
      rw [Place.follow, entryOf_keyPath] at hnext
      split_ifs at hnext with hanchored henters
      · cases hnext
        rw [h.key]
        cases keys (fileName name) <;> exact fun heq => by cases heq
      · cases hnext
      · cases hnext
    rw [LinkedDirectory.content_link h.default hfile, linked, Option.bind_some, Place.follow]
    split_ifs with hanchored
    · rw [h.content_key, Option.map_map]
      rfl
    · rfl

theorem pathExists_default :
    pathExists place dir defaultIdentityName = (linked place keys link).isSome := by
  rw [pathExists, entryOf_default]
  dsimp only
  rw [LinkedDirectory.exists?, h.content_default, Option.isSome_map]

/-! ### The operations on a represented directory -/

theorem loadKey_eq (hcrates : crates.Documented) {name : String} {seed : Seed}
    (hfound : found place keys name = some seed) :
    loadKey place crates dir (keyPath name) = .ok seed := by
  have hread : readToString place dir (keyPath name) = .ok
    (keyText crates (fileName name) seed) := by
    rw [readToString, h.content_key, hfound, Option.map_some]
  rw [loadKey, Except.bind_eq_ok_iff]
  exact ⟨_, hread, loadKeyText_keyText hcrates (fileName name) seed⟩

theorem get_eq (hcrates : crates.Documented) {name : String} {seed : Seed}
    (hfound : found place keys name = some seed) :
    get place crates dir name = .ok ⟨name, crates.publicKey seed⟩ := by
  rw [get, h.pathExists_key, hfound, Option.isSome_some, if_pos rfl,
    h.loadKey_eq hcrates hfound]
  rfl

/-- What the link leads to is an identity. -/
theorem linked_eq_some {name : String} {seed : Seed}
    (hlinked : linked place keys link = some (name, seed)) :
    ∃ path, link = some path ∧ fileName path = name ∧ keys name = some seed ∧ ValidName name := by
  cases link with
  | none => cases hlinked
  | some path =>
    rw [linked, Option.bind_some] at hlinked
    split_ifs at hlinked
    obtain ⟨seed', hfound, heq⟩ := Option.map_eq_some_iff.mp hlinked
    cases heq
    have hkey := (found_eq_some.mp hfound).2
    exact ⟨path, rfl, rfl, hkey, h.valid _ _ hkey⟩

/-- **The default identity is the one that the link leads to.** -/
theorem getDefault_eq (hcrates : crates.Documented) : getDefault place crates dir =
    match linked place keys link with
    | some (name, seed) => .ok ⟨name, crates.publicKey seed⟩
    | none => .error (.io .notFound "No default identity set") := by
  rw [getDefault, h.pathExists_default]
  cases hlinked : linked place keys link with
  | none => rfl
  | some identity =>
    obtain ⟨name, seed⟩ := identity
    obtain ⟨path, rfl, hname, hkey, hvalid⟩ := h.linked_eq_some hlinked
    have hne : fileName path ≠ "" := fun hempty => hvalid (Or.inl (hname.symm.trans hempty))
    have hlink : readLink dir defaultIdentityName = .ok (keyPath path) := by
      rw [readLink, h.default]
      rfl
    rw [Option.isSome_some, if_pos rfl, Except.bind_eq_ok_iff]
    refine ⟨keyPath path, hlink, ?_⟩
    rw [fileStem_keyPath hne, hname, h.get_eq hcrates ((found_of_valid hvalid).trans hkey)]

/-- The directory with another link. -/
theorem update_link (name : String) :
    Represents crates (Function.update dir defaultIdentityName (some (.link (keyPath name)))) keys
      (some name) where
  default := Function.update_self ..
  key n := by rw [Function.update_of_ne (keyPath_ne_default n), h.key]
  valid := h.valid

/-- **Whether an identity can be made the default** depends on the link that is there. -/
theorem setDefault_spec (name : String) :
    (found place keys name = none ∧ ∃ e, setDefault place dir name = (.error e, dir)) ∨
    ((found place keys name).isSome ∧ link.isSome ∧ linked place keys link = none ∧
      ∃ e, setDefault place dir name = (.error e, dir)) ∨
    ((found place keys name).isSome ∧ (link = none ∨ (linked place keys link).isSome) ∧
      ∃ dir', setDefault place dir name = (.ok (), dir') ∧
        Represents crates dir' keys (some name)) := by
  have hdefault := h.default
  cases hfound : found place keys name with
  | none =>
    refine Or.inl ⟨rfl, .io .notFound ("Identity '" ++ name ++ "' not found"), ?_⟩
    rw [setDefault, h.pathExists_key, hfound]
    rfl
  | some seed =>
    refine Or.inr ?_
    cases hlinked : linked place keys link with
    | none =>
      cases link with
      | none =>
        have hfree : dir defaultIdentityName = none := hdefault
        refine Or.inr ⟨rfl, Or.inl rfl, _, ?_, h.update_link name⟩
        rw [setDefault, h.pathExists_key, hfound, h.pathExists_default, hlinked]
        simp only [Option.isSome_some, Option.isSome_none, LinkedDirectory.symlink, hfree, if_true,
          Bool.false_eq_true, if_false]
      | some path =>
        have htaken : dir defaultIdentityName = some (.link (keyPath path)) := hdefault
        refine Or.inl ⟨rfl, rfl, rfl, .os .alreadyExists, ?_⟩
        rw [setDefault, h.pathExists_key, hfound, h.pathExists_default, hlinked]
        simp only [Option.isSome_some, Option.isSome_none, LinkedDirectory.symlink, htaken, if_true,
          Bool.false_eq_true, if_false]
    | some identity =>
      obtain ⟨path, rfl, -, -, -⟩ := h.linked_eq_some hlinked
      have hremove : removeFile place dir defaultIdentityName =
          .ok (Function.update dir defaultIdentityName none) := by
        rw [removeFile, entryOf_default, Option.bind_some, LinkedDirectory.remove_some hdefault]
      refine Or.inr ⟨rfl, Or.inr rfl,
        Function.update dir defaultIdentityName (some (.link (keyPath name))), ?_,
        h.update_link name⟩
      rw [setDefault, h.pathExists_key, hfound, h.pathExists_default, hlinked, Option.isSome_some,
        Option.isSome_some, if_pos rfl]
      dsimp only
      rw [if_pos rfl, hremove]
      dsimp only
      rw [LinkedDirectory.symlink, Function.update_self, Function.update_idem]
      rfl

/-- The directory without a key. -/
theorem update_none (name : String) :
    Represents crates (Function.update dir (keyPath name) none) (Function.update keys name none)
      link where
  default := by rw [Function.update_of_ne (keyPath_ne_default name).symm, h.default]
  key n := by
    by_cases hn : n = name
    · rw [hn, Function.update_self, Function.update_self]
      rfl
    · rw [Function.update_of_ne fun heq => hn (keyPath_inj heq), Function.update_of_ne hn, h.key]
  valid n seed hseed := by
    by_cases hn : n = name
    · rw [hn, Function.update_self] at hseed
      cases hseed
    · rw [Function.update_of_ne hn] at hseed
      exact h.valid n seed hseed

omit h in
/-- The link is never cleared: where it leads to a file, that is not the one that was removed. -/
theorem clearDefault_eq {name : String}
    (h : Represents crates dir (Function.update keys (fileName name) none) link) :
    clearDefault place dir name = dir := by
  rw [clearDefault, h.pathExists_default]
  cases hlinked : linked place (Function.update keys (fileName name) none) link with
  | none => rfl
  | some identity =>
    obtain ⟨target, seed⟩ := identity
    obtain ⟨path, rfl, hname, hkey, hvalid⟩ := h.linked_eq_some hlinked
    have hne : fileName path ≠ "" := fun hempty => hvalid (Or.inl (hname.symm.trans hempty))
    have hlink : readLink dir defaultIdentityName = .ok (keyPath path) := by
      rw [readLink, h.default]
      rfl
    have hother : target ≠ name := by
      rintro rfl
      rw [hvalid.fileName_eq, Function.update_self] at hkey
      cases hkey
    rw [Option.isSome_some, if_pos rfl, hlink]
    dsimp only
    rw [fileStem_keyPath hne, hname, if_neg hother]

/-- **Removal takes the key and leaves the link.** -/
theorem remove_spec (name : String) :
    (found place keys name = none ∧ ∃ e, remove place dir name = (.error e, dir)) ∨
    ((found place keys name).isSome ∧ ∃ dir', remove place dir name = (.ok (), dir') ∧
      Represents crates dir' (Function.update keys (fileName name) none) link) := by
  cases hfound : found place keys name with
  | none =>
    refine Or.inl ⟨rfl, .notFound ("Identity '" ++ name ++ "' not found"), ?_⟩
    rw [remove, h.pathExists_key, hfound]
    rfl
  | some seed =>
    obtain ⟨henters, hkey⟩ := found_eq_some.mp hfound
    have hentry := h.key (fileName name)
    rw [hkey] at hentry
    have hremove : removeFile place dir (keyPath name) =
        .ok (Function.update dir (keyPath (fileName name)) none) := by
      rw [removeFile, entryOf_keyPath, if_pos henters, Option.bind_some,
        LinkedDirectory.remove_some hentry]
    have hafter := h.update_none (fileName name)
    refine Or.inr ⟨rfl, _, ?_, hafter⟩
    rw [remove, h.pathExists_key, hfound, Option.isSome_some, if_pos rfl, hremove]
    dsimp only
    rw [clearDefault_eq hafter]

/-- A new name is valid and has no key. -/
theorem ensureNameValid_eq_ok_iff {name : String} :
    ensureNameValid place dir name = .ok () ↔ ValidName name ∧ keys name = none := by
  rw [ensureNameValid]
  split_ifs with hname hexists
  · exact ⟨fun heq => (by cases heq), fun hvalid => absurd hname hvalid.1⟩
  · rw [h.pathExists_key, found_of_valid hname] at hexists
    refine ⟨fun heq => (by cases heq), fun hvalid => ?_⟩
    rw [hvalid.2] at hexists
    cases hexists
  · rw [h.pathExists_key, found_of_valid hname] at hexists
    exact ⟨fun _ => ⟨hname, Option.not_isSome_iff_eq_none.mp hexists⟩, fun _ => rfl⟩

/-- The directory with another key. -/
theorem update_some {name : String} (hvalid : ValidName name) (seed : Seed) :
    Represents crates (Function.update dir (keyPath name) (some (.file (keyText crates name seed))))
      (Function.update keys name (some seed)) link where
  default := by rw [Function.update_of_ne (keyPath_ne_default name).symm, h.default]
  key n := by
    by_cases hn : n = name
    · rw [hn, Function.update_self, Function.update_self]
      rfl
    · rw [Function.update_of_ne fun heq => hn (keyPath_inj heq), Function.update_of_ne hn, h.key]
  valid n seed' hseed := by
    by_cases hn : n = name
    · exact hn ▸ hvalid
    · rw [Function.update_of_ne hn] at hseed
      exact h.valid n seed' hseed

/-- A key is saved under a new name, if the file system takes it. -/
theorem saveKey_spec {name : String} (hvalid : ValidName name) (hnew : keys name = none)
    (seed : Seed) :
    (place.takes (keyPath name) = false ∧
      ∃ e, saveKey place crates dir name seed = (.error e, dir)) ∨
    (place.takes (keyPath name) = true ∧ ∃ dir',
      saveKey place crates dir name seed = (.ok ⟨name, crates.publicKey seed⟩, dir') ∧
      Represents crates dir' (Function.update keys name (some seed)) link) := by
  cases htakes : place.takes (keyPath name) with
  | false =>
    refine Or.inl ⟨rfl, .os .invalidInput, ?_⟩
    rw [saveKey, htakes]
    rfl
  | true =>
    refine Or.inr ⟨rfl, _, ?_, h.update_some hvalid seed⟩
    have hentry := h.key name
    rw [hnew] at hentry
    rw [saveKey, htakes, if_pos rfl, entryOf_keyPath, if_pos (Place.enters_of_valid hvalid),
      hvalid.fileName_eq, Option.bind_some, LinkedDirectory.write_none hentry]

end Represents

end Represents

/-! ### Runs -/

/-- A call of the store, with the random bytes that it draws. -/
inductive Op
  | generate (name : String) (random : Except String Seed)
  | importKey (name secretKey : String)
  | remove (name : String)
  | setDefault (name : String)

/-- What the results of the calls say: the identities that were made and not removed since, and the
one that was last made the default and not removed since. -/
structure Registry where
  identities : String → Option Identity
  default : Option Identity

/-- The registry after a call. A path names the identity that its last component names. -/
def Registry.observe (registry : Registry) :
    Op → Except StorageError (Option Identity) → Registry
  | _, .error _ => registry
  | .generate .., .ok identity | .importKey .., .ok identity =>
    match identity with
    | none => registry
    | some identity =>
      { registry with
        identities := Function.update registry.identities identity.name (some identity) }
  | .remove name, .ok _ =>
    { identities := Function.update registry.identities (fileName name) none
      default := registry.default.filter fun identity => identity.name ≠ fileName name }
  | .setDefault name, .ok _ => { registry with default := registry.identities (fileName name) }

section Runs

variable (place : Place) (crates : KeyCrates)

/-- The result of a call, and the directory after it. -/
def perform (dir : Directory) : Op → Except StorageError (Option Identity) × Directory
  | .generate name random =>
    let (result, dir) := generate place crates dir name random
    (result.map some, dir)
  | .importKey name secretKey =>
    let (result, dir) := importKey place crates dir name secretKey
    (result.map some, dir)
  | .remove name =>
    let (result, dir) := remove place dir name
    (result.map fun _ => none, dir)
  | .setDefault name =>
    let (result, dir) := setDefault place dir name
    (result.map fun _ => none, dir)

/-- A directory, and what the results of the calls so far say. -/
structure Store where
  dir : Directory
  registry : Registry

/-- An empty directory. -/
def Store.empty : Store := ⟨fun _ => none, ⟨fun _ => none, none⟩⟩

/-- The store after a call. -/
def Store.step (store : Store) (op : Op) : Store :=
  let (result, dir) := perform place crates store.dir op
  ⟨dir, store.registry.observe op result⟩

/-- The default identity is the one that the registry has, and every identity can be made the
default. -/
structure DefaultKept (store : Store) : Prop where
  some_default : ∀ identity, store.registry.default = some identity →
    getDefault place crates store.dir = .ok identity
  none_default : store.registry.default = none → ∃ e, getDefault place crates store.dir = .error e
  setDefault : ∀ name, place.Enters name → (store.registry.identities (fileName name)).isSome →
    ∃ dir, setDefault place store.dir name = (.ok (), dir)

/-- The link to the default identity is there, and leads to no file. -/
def LinkLeft (dir : Directory) : Prop :=
  (dir defaultIdentityName).isSome ∧ pathExists place dir defaultIdentityName = false

/-- The file of an identity is what the link to the default identity leads to. -/
def IsDefault (dir : Directory) (name : String) : Prop :=
  pathExists place dir (keyPath name) ∧
    ∃ target, dir defaultIdentityName = some (.link target) ∧
      place.follow target = place.entryOf (keyPath name)

/-- A key is saved under a name. -/
def Saves (dir : Directory) (name : String) : Prop :=
  ensureNameValid place dir name = .ok () ∧ place.takes (keyPath name)

/-- The calls after which the store still follows the registry: no identity is made while the link
to a removed one is left, the default identity is removed only as the last one, and the link of a
default identity leads where it was meant to. -/
def Safe (dir : Directory) : Op → Prop
  | .generate name random => LinkLeft place dir → Saves place dir name → ∀ seed, random ≠ .ok seed
  | .importKey name secretKey =>
    LinkLeft place dir → Saves place dir name → ∀ seed, crates.parseSecret secretKey ≠ .ok seed
  | .remove name => IsDefault place dir name →
    ∀ other, pathExists place dir (keyPath other) → fileName other = fileName name
  | .setDefault name => pathExists place dir (keyPath name) → place.anchored (keyPath name)

/-- What `generate` and `importKey` do once they have a key, or why they have none. -/
def create (dir : Directory) (name : String) (key : Except StorageError Seed) :
    Except StorageError Identity × Directory :=
  match ensureNameValid place dir name with
  | .error e => (.error e, dir)
  | .ok () =>
    match key with
    | .error e => (.error e, dir)
    | .ok seed => saveKey place crates dir name seed

theorem generate_eq_create (dir : Directory) (name : String) (random : Except String Seed) :
    generate place crates dir name random =
      create place crates dir name (random.mapError (.io .other)) := by
  unfold generate create
  cases random <;> rfl

theorem importKey_eq_create (dir : Directory) (name secretKey : String) :
    importKey place crates dir name secretKey =
      create place crates dir name ((crates.parseSecret secretKey).mapError fun e =>
        .io .invalidInput ("Invalid StrKey: " ++ e)) := by
  unfold importKey create
  cases crates.parseSecret secretKey <;> rfl

/-- The registry and the keys, and the link, agree. -/
inductive LinkKept (keys : String → Option Seed) : Option String → Option Identity → Prop
  | absent : LinkKept keys none none
  | leads {path : String} {seed : Seed}
      (h : linked place keys (some path) = some (fileName path, seed)) :
      LinkKept keys (some path) (some ⟨fileName path, crates.publicKey seed⟩)
  | left {path : String} (hanchored : place.anchored (keyPath path) = true)
      (henters : place.Enters path) (h : ∀ name, keys name = none) :
      LinkKept keys (some path) none

/-- The keys and the link of a store. -/
structure Tracks (store : Store) (keys : String → Option Seed) (link : Option String) : Prop where
  represents : Represents crates store.dir keys link
  identities : ∀ name, store.registry.identities name =
    (keys name).map fun seed => ⟨name, crates.publicKey seed⟩

/-- The registry agrees with the directory. -/
def Agrees (store : Store) : Prop :=
  ∃ keys link, Tracks crates store keys link ∧
    LinkKept place crates keys link store.registry.default

theorem agrees_empty : Agrees place crates Store.empty := by
  refine ⟨fun _ => none, none, ⟨⟨rfl, fun _ => rfl, ?_⟩, fun _ => rfl⟩, .absent⟩
  intro name seed h
  cases h

variable {place crates} {keys : String → Option Seed} {link : Option String} {store : Store}

theorem linked_of_forall_none (h : ∀ name, keys name = none) : linked place keys link = none := by
  cases link with
  | none => rfl
  | some path =>
    rw [linked, Option.bind_some, found, h]
    split_ifs <;> rfl

theorem Tracks.isSome_found (h : Tracks crates store keys link) {name : String}
    (henters : place.Enters name) (hname : (store.registry.identities (fileName name)).isSome) :
    (found place keys name).isSome := by
  rw [h.identities, Option.isSome_map] at hname
  rw [found, if_pos henters]
  exact hname

/-- A registry that agrees with the directory is followed. -/
theorem Agrees.defaultKept (hcrates : crates.Documented) (h : Agrees place crates store) :
    DefaultKept place crates store := by
  obtain ⟨keys, link, htracks, hlink⟩ := h
  have hget : getDefault place crates store.dir = _ := htracks.represents.getDefault_eq hcrates
  have hset (name : String) (hlinked : link = none ∨ (linked place keys link).isSome)
      (hfound : (found place keys name).isSome) :
      ∃ dir, setDefault place store.dir name = (.ok (), dir) := by
    have hspec : (found place keys name = none ∧ _) ∨ _ := htracks.represents.setDefault_spec name
    rcases hspec with ⟨hnone, -⟩ | ⟨-, hsome, hnone, -⟩ | ⟨-, -, dir, hdir, -⟩
    · rw [hnone] at hfound
      cases hfound
    · rw [hnone] at hlinked
      rcases hlinked with rfl | hlinked
      · cases hsome
      · cases hlinked
    · exact ⟨dir, hdir⟩
  cases hdefault : store.registry.default <;> rw [hdefault] at hlink <;> cases hlink
  case none.absent =>
    refine ⟨fun identity heq => ?_, fun _ => ⟨_, hget⟩, fun name henters hname =>
      hset name (Or.inl rfl) (htracks.isSome_found henters hname)⟩
    rw [hdefault] at heq
    cases heq
  case none.left path hanchored henters hkeys =>
    rw [linked_of_forall_none hkeys] at hget
    refine ⟨fun identity heq => ?_, fun _ => ⟨_, hget⟩, fun name henters hname => ?_⟩
    · rw [hdefault] at heq
      cases heq
    · rw [htracks.identities, hkeys] at hname
      cases hname
  case some.leads path seed hlinked =>
    rw [hlinked] at hget
    refine ⟨fun identity heq => ?_, fun heq => ?_, fun name henters hname =>
      hset name (Or.inr (by rw [hlinked]; rfl)) (htracks.isSome_found henters hname)⟩
    · rw [hdefault] at heq
      cases heq
      exact hget
    · rw [hdefault] at heq
      cases heq

/-- The registry after `generate` or `importKey`. -/
def Registry.made (registry : Registry) : Except StorageError Identity → Registry
  | .error _ => registry
  | .ok identity =>
    { registry with
      identities := Function.update registry.identities identity.name (some identity) }

theorem step_generate (name : String) (random : Except String Seed) :
    store.step place crates (.generate name random) =
      ⟨(create place crates store.dir name (random.mapError (.io .other))).2,
        store.registry.made
          (create place crates store.dir name (random.mapError (.io .other))).1⟩ := by
  rw [Store.step, perform, generate_eq_create]
  obtain ⟨result, dir⟩ := create place crates store.dir name (random.mapError (.io .other))
  cases result <;> rfl

theorem step_importKey (name secretKey : String) :
    store.step place crates (.importKey name secretKey) =
      ⟨(create place crates store.dir name ((crates.parseSecret secretKey).mapError fun e =>
          .io .invalidInput ("Invalid StrKey: " ++ e))).2,
        store.registry.made (create place crates store.dir name
          ((crates.parseSecret secretKey).mapError fun e =>
            .io .invalidInput ("Invalid StrKey: " ++ e))).1⟩ := by
  rw [Store.step, perform, importKey_eq_create]
  obtain ⟨result, dir⟩ := create place crates store.dir name
    ((crates.parseSecret secretKey).mapError fun e => .io .invalidInput ("Invalid StrKey: " ++ e))
  cases result <;> rfl

/-- **A key is saved exactly under a new name that is allowed.** -/
theorem create_spec (h : Represents crates store.dir keys link) (name : String)
    (key : Except StorageError Seed) :
    ((∀ seed, Saves place store.dir name → key ≠ .ok seed) ∧
      ∃ e, create place crates store.dir name key = (.error e, store.dir)) ∨
    ∃ seed dir, Saves place store.dir name ∧ key = .ok seed ∧ ValidName name ∧ keys name = none ∧
      create place crates store.dir name key = (.ok ⟨name, crates.publicKey seed⟩, dir) ∧
      Represents crates dir (Function.update keys name (some seed)) link := by
  have hiff : ensureNameValid place store.dir name = .ok () ↔ _ := h.ensureNameValid_eq_ok_iff
  unfold create
  cases hvalid : ensureNameValid place store.dir name with
  | error e =>
    refine Or.inl ⟨fun seed hsaves => ?_, e, rfl⟩
    cases hvalid.symm.trans hsaves.1
  | ok =>
    obtain ⟨hname, hnew⟩ := hiff.mp hvalid
    cases key with
    | error e => exact Or.inl ⟨fun seed _ heq => (by cases heq), e, rfl⟩
    | ok seed =>
      rcases h.saveKey_spec hname hnew seed with ⟨htakes, e, hsave⟩ | ⟨htakes, dir, hsave, hdir⟩
      · refine Or.inl ⟨fun _ hsaves => ?_, e, hsave⟩
        rw [hsaves.2] at htakes
        cases htakes
      · exact Or.inr ⟨seed, dir, ⟨hvalid, htakes⟩, rfl, hname, hnew, hsave, hdir⟩

theorem Tracks.linkLeft_iff (h : Tracks crates store keys link) :
    LinkLeft place store.dir ↔ link.isSome ∧ linked place keys link = none := by
  have hexists : pathExists place store.dir defaultIdentityName = _ :=
    h.represents.pathExists_default
  rw [LinkLeft, hexists, h.represents.default, Option.isSome_map, Bool.eq_false_iff, Ne,
    Option.not_isSome_iff_eq_none]

/-- The store after a key was saved. -/
theorem Tracks.made (h : Tracks crates store keys link) {dir : Directory} {name : String}
    {seed : Seed}
    (hdir : Represents crates dir (Function.update keys name (some seed)) link) :
    Tracks crates ⟨dir, store.registry.made (.ok ⟨name, crates.publicKey seed⟩)⟩
      (Function.update keys name (some seed)) link := by
  refine ⟨hdir, fun n => ?_⟩
  show Function.update store.registry.identities name (some ⟨name, crates.publicKey seed⟩) n = _
  by_cases hn : n = name
  · rw [hn, Function.update_self, Function.update_self]
    rfl
  · rw [Function.update_of_ne hn, Function.update_of_ne hn, h.identities]

/-- A key that is added changes neither what a link leads to, nor that it leads to anything. -/
theorem linked_update (name : String) (seed : Seed) {identity : String × Seed}
    (hnew : keys name = none) (h : linked place keys link = some identity) :
    linked place (Function.update keys name (some seed)) link = some identity := by
  cases link with
  | none => cases h
  | some path =>
    rw [linked, Option.bind_some] at h ⊢
    split_ifs at h ⊢ with hanchored
    obtain ⟨seed', hfound, rfl⟩ := Option.map_eq_some_iff.mp h
    obtain ⟨henters, hkey⟩ := found_eq_some.mp hfound
    have hne : fileName path ≠ name := by
      rintro rfl
      rw [hnew] at hkey
      cases hkey
    rw [found, if_pos henters, Function.update_of_ne hne, hkey]
    rfl

/-- A key that is made keeps the agreement while no link to a removed identity is left. -/
theorem Agrees.made (h : Agrees place crates store) (name : String) (key : Except StorageError Seed)
    (hsafe : LinkLeft place store.dir → Saves place store.dir name → ∀ seed, key ≠ .ok seed) :
    Agrees place crates ⟨(create place crates store.dir name key).2,
      store.registry.made (create place crates store.dir name key).1⟩ := by
  obtain ⟨keys, link, htracks, hlink⟩ := h
  have hspec : (∀ seed, Saves place store.dir name → _) ∧ _ ∨ _ :=
    create_spec htracks.represents name key
  rcases hspec with ⟨-, e, hcreate⟩ | ⟨seed, dir, hsaves, hkey, -, hnew, hcreate, hdir⟩
  · rw [hcreate]
    exact ⟨keys, link, htracks, hlink⟩
  · rw [hcreate]
    refine ⟨_, link, htracks.made hdir, ?_⟩
    show LinkKept place crates _ link store.registry.default
    cases hdefault : store.registry.default <;> rw [hdefault] at hlink <;> cases hlink
    case none.absent => exact .absent
    case some.leads path seed' hlinked => exact .leads (linked_update name seed hnew hlinked)
    case none.left path hanchored henters hkeys =>
      exact absurd hkey
        (hsafe (htracks.linkLeft_iff.mpr ⟨rfl, linked_of_forall_none hkeys⟩) hsaves seed)

/-- What the link leads to, in terms of the path that it holds. -/
theorem linked_some_eq {path name : String} {seed : Seed} :
    linked place keys (some path) = some (name, seed) ↔ place.anchored (keyPath path) = true ∧
      place.Enters path ∧ fileName path = name ∧ keys name = some seed := by
  rw [linked, Option.bind_some]
  split_ifs with hanchored
  · rw [Option.map_eq_some_iff]
    constructor
    · rintro ⟨seed', hfound, heq⟩
      cases heq
      exact ⟨hanchored, (found_eq_some.mp hfound).1, rfl, (found_eq_some.mp hfound).2⟩
    · rintro ⟨-, henters, rfl, hkey⟩
      exact ⟨seed, found_eq_some.mpr ⟨henters, hkey⟩, rfl⟩
  · exact ⟨fun h => (by cases h), fun h => absurd h.1 hanchored⟩

/-- The identity of a name cannot be made the default while a link is left that leads to no file. -/
theorem Tracks.not_defaultKept (h : Tracks crates store keys link) (hsome : link.isSome)
    (hlinked : linked place keys link = none) {name : String}
    (hfound : (found place keys name).isSome) : ¬ DefaultKept place crates store := by
  intro hkept
  obtain ⟨seed, hseed⟩ := Option.isSome_iff_exists.mp hfound
  obtain ⟨henters, hkey⟩ := found_eq_some.mp hseed
  obtain ⟨dir, hdir⟩ := hkept.setDefault name henters (by rw [h.identities, hkey]; rfl)
  have hspec : (found place keys name = none ∧ _) ∨ _ := h.represents.setDefault_spec name
  rcases hspec with ⟨hnone, -⟩ | ⟨-, -, -, e, herror⟩ | ⟨-, habsent, -⟩
  · rw [hnone] at hfound
    cases hfound
  · rw [herror] at hdir
    cases hdir
  · rw [hlinked] at habsent
    rcases habsent with rfl | habsent
    · cases hsome
    · cases habsent

/-- A key that is made while the link to a removed identity is left breaks the agreement. -/
theorem Agrees.made_breaks (hcrates : crates.Documented) (h : Agrees place crates store)
    {name : String} {key : Except StorageError Seed} {seed : Seed}
    (hleft : LinkLeft place store.dir) (hsaves : Saves place store.dir name)
      (hkey : key = .ok seed) :
    ¬ DefaultKept place crates ⟨(create place crates store.dir name key).2,
      store.registry.made (create place crates store.dir name key).1⟩ := by
  obtain ⟨keys, link, htracks, hlink⟩ := h
  obtain ⟨hsome, hnone⟩ := htracks.linkLeft_iff.mp hleft
  have hspec : (∀ seed, Saves place store.dir name → _) ∧ _ ∨ _ :=
    create_spec htracks.represents name key
  rcases hspec with ⟨hrefused, -⟩ | ⟨seed, dir, -, -, hvalid, -, hcreate, hdir⟩
  · exact absurd hkey (hrefused seed hsaves)
  · rw [hcreate]
    have hmade := htracks.made hdir
    cases hdefault : store.registry.default <;> rw [hdefault] at hlink <;> cases hlink
    case none.absent => cases hsome
    case some.leads path seed' hlinked =>
      rw [hlinked] at hnone
      cases hnone
    case none.left path hanchored henters hkeys =>
      by_cases hpath : fileName path = name
      · -- the link leads to the new key
        have hlinked : linked place (Function.update keys name (some seed)) (some path) =
            some (name, seed) :=
          linked_some_eq.mpr ⟨hanchored, henters, hpath, Function.update_self ..⟩
        intro hkept
        obtain ⟨e, herror⟩ := hkept.none_default hdefault
        have hget : getDefault place crates dir = _ := hmade.represents.getDefault_eq hcrates
        rw [hlinked] at hget
        cases herror.symm.trans hget
      · -- the link keeps another key from being made the default
        have hlinked : linked place (Function.update keys name (some seed)) (some path) = none := by
          rw [linked, Option.bind_some, found, Function.update_of_ne hpath, hkeys, ite_self,
            Option.map_none, ite_self]
        have hfound : (found place (Function.update keys name (some seed)) name).isSome := by
          rw [found_of_valid hvalid, Function.update_self]
          rfl
        exact hmade.not_defaultKept rfl hlinked hfound

theorem step_remove (name : String) : store.step place crates (.remove name) =
    ⟨(remove place store.dir name).2,
      store.registry.observe (.remove name)
        ((remove place store.dir name).1.map fun _ => none)⟩ := by
  rw [Store.step, perform]

theorem step_setDefault (name : String) : store.step place crates (.setDefault name) =
    ⟨(setDefault place store.dir name).2, store.registry.observe (.setDefault name)
      ((setDefault place store.dir name).1.map fun _ => none)⟩ := by
  rw [Store.step, perform]

/-- The store after a key was removed. -/
theorem Tracks.removed (h : Tracks crates store keys link) {dir : Directory} {name : String}
    (hdir : Represents crates dir (Function.update keys (fileName name) none) link) :
    Tracks crates ⟨dir, store.registry.observe (.remove name) (.ok none)⟩
      (Function.update keys (fileName name) none) link := by
  refine ⟨hdir, fun n => ?_⟩
  show Function.update store.registry.identities (fileName name) none n = _
  by_cases hn : n = fileName name
  · rw [hn, Function.update_self, Function.update_self]
    rfl
  · rw [Function.update_of_ne hn, Function.update_of_ne hn, h.identities]

/-- The default identity is the one that the link leads to. -/
theorem Tracks.isDefault_iff (h : Tracks crates store keys link) {name : String} {seed : Seed}
    (hfound : found place keys name = some seed) :
    IsDefault place store.dir name ↔ linked place keys link = some (fileName name, seed) := by
  obtain ⟨henters, hkey⟩ := found_eq_some.mp hfound
  have hexists : pathExists place store.dir (keyPath name) = _ := h.represents.pathExists_key name
  rw [IsDefault, hexists, hfound, h.represents.default, entryOf_keyPath, if_pos henters]
  cases link with
  | none =>
    refine iff_of_false ?_ (fun heq => by cases heq)
    rintro ⟨-, target, heq, -⟩
    cases heq
  | some path =>
    rw [linked_some_eq]
    constructor
    · rintro ⟨-, target, heq, hfollow⟩
      cases heq
      rw [Place.follow, entryOf_keyPath] at hfollow
      split_ifs at hfollow with hanchored hpath
      have hname := keyPath_inj (Option.some.inj hfollow)
      exact ⟨hanchored, hpath, hname, hkey⟩
    · rintro ⟨hanchored, hpath, hname, -⟩
      refine ⟨rfl, _, rfl, ?_⟩
      rw [Place.follow, if_pos hanchored, entryOf_keyPath, if_pos hpath, hname]

/-- A removal keeps the agreement, unless the default identity is removed while there are others. -/
theorem Agrees.remove (h : Agrees place crates store) {name : String}
    (hsafe : Safe place crates store.dir (.remove name)) :
    Agrees place crates (store.step place crates (.remove name)) := by
  obtain ⟨keys, link, htracks, hlink⟩ := h
  rw [step_remove]
  have hspec : (found place keys name = none ∧ _) ∨ _ := htracks.represents.remove_spec name
  rcases hspec with ⟨-, e, hremove⟩ | ⟨hfound, dir, hremove, hdir⟩
  · rw [hremove]
    exact ⟨keys, link, htracks, hlink⟩
  · rw [hremove]
    refine ⟨_, link, htracks.removed hdir, ?_⟩
    show LinkKept place crates _ link (store.registry.default.filter fun identity =>
      identity.name ≠ fileName name)
    obtain ⟨seed, hseed⟩ := Option.isSome_iff_exists.mp hfound
    cases hdefault : store.registry.default <;> rw [hdefault] at hlink <;> cases hlink
    case none.absent => exact .absent
    case none.left path hanchored henters hkeys =>
      rw [found, hkeys] at hseed
      split_ifs at hseed
    case some.leads path seed' hlinked =>
      obtain ⟨hanchored, henters, -, hkey⟩ := linked_some_eq.mp hlinked
      by_cases hname : fileName path = fileName name
      · rw [hname] at hkey hlinked
        have hseed' : seed' = seed :=
          Option.some.inj (hkey.symm.trans (found_eq_some.mp hseed).2)
        rw [hseed'] at hlinked
        have hlast := hsafe ((htracks.isDefault_iff hseed).mpr hlinked)
        rw [Option.filter_some_neg (by simpa using hname)]
        refine .left hanchored henters fun n => ?_
        by_cases hn : n = fileName name
        · rw [hn, Function.update_self]
        · rw [Function.update_of_ne hn]
          by_contra hsome
          obtain ⟨other, hother⟩ := Option.ne_none_iff_exists'.mp hsome
          have hvalid := htracks.represents.valid n other hother
          have hexists : pathExists place store.dir (keyPath n) = _ :=
            htracks.represents.pathExists_key n
          rw [found_of_valid hvalid, hother] at hexists
          exact hn (hvalid.fileName_eq.symm.trans (hlast n hexists))
      · rw [Option.filter_some_pos (by simpa using hname)]
        refine .leads (linked_some_eq.mpr ⟨hanchored, henters, rfl, ?_⟩)
        rw [Function.update_of_ne hname, hkey]

/-- Removing the default identity while there are others breaks the agreement. -/
theorem Agrees.remove_breaks (h : Agrees place crates store) {name : String}
    (hnot : ¬ Safe place crates store.dir (.remove name)) :
    ¬ DefaultKept place crates (store.step place crates (.remove name)) := by
  obtain ⟨keys, link, htracks, -⟩ := h
  obtain ⟨hdefault, other, hexists, hne⟩ : IsDefault place store.dir name ∧ ∃ other,
      pathExists place store.dir (keyPath other) = true ∧ fileName other ≠ fileName name := by
    simpa only [Safe, Classical.not_imp, not_forall, exists_prop] using hnot
  have hpath : ∀ n, pathExists place store.dir (keyPath n) = _ := htracks.represents.pathExists_key
  have hspec : (found place keys name = none ∧ _) ∨ _ := htracks.represents.remove_spec name
  rw [step_remove]
  rcases hspec with ⟨hnone, -⟩ | ⟨hfound, dir, hremove, hdir⟩
  · have hname := hdefault.1
    rw [hpath, hnone] at hname
    cases hname
  · rw [hremove]
    obtain ⟨seed, hseed⟩ := Option.isSome_iff_exists.mp hfound
    have hlinked := (htracks.isDefault_iff hseed).mp hdefault
    obtain ⟨path, rfl, hpathName, -, -⟩ := htracks.represents.linked_eq_some hlinked
    have hafter : linked place (Function.update keys (fileName name) none) (some path) = none := by
      rw [linked, Option.bind_some, found, hpathName, Function.update_self]
      split_ifs <;> rfl
    refine (htracks.removed hdir).not_defaultKept rfl hafter (?_ : (found place _ other).isSome)
    rw [hpath] at hexists
    obtain ⟨seed', hother⟩ := Option.isSome_iff_exists.mp hexists
    obtain ⟨henters, hkey⟩ := found_eq_some.mp hother
    rw [found, if_pos henters, Function.update_of_ne hne, hkey]
    rfl

/-- Making an identity the default keeps the agreement, if the link leads where it was meant to. -/
theorem Agrees.setDefault (h : Agrees place crates store) {name : String}
    (hsafe : Safe place crates store.dir (.setDefault name)) :
    Agrees place crates (store.step place crates (.setDefault name)) := by
  obtain ⟨keys, link, htracks, hlink⟩ := h
  rw [step_setDefault]
  have hspec : (found place keys name = none ∧ _) ∨ _ := htracks.represents.setDefault_spec name
  rcases hspec with ⟨-, e, hset⟩ | ⟨-, -, -, e, hset⟩ | ⟨hfound, -, dir, hset, hdir⟩
  · rw [hset]
    exact ⟨keys, link, htracks, hlink⟩
  · rw [hset]
    exact ⟨keys, link, htracks, hlink⟩
  · rw [hset]
    obtain ⟨seed, hseed⟩ := Option.isSome_iff_exists.mp hfound
    obtain ⟨henters, hkey⟩ := found_eq_some.mp hseed
    have hexists : pathExists place store.dir (keyPath name) = _ :=
      htracks.represents.pathExists_key name
    refine ⟨keys, some name, ⟨hdir, htracks.identities⟩, ?_⟩
    show LinkKept place crates keys (some name) (store.registry.identities (fileName name))
    rw [htracks.identities, hkey]
    exact .leads (linked_some_eq.mpr ⟨hsafe (hexists.trans hfound), henters, rfl, hkey⟩)

/-- A link that does not lead where it was meant to breaks the agreement. -/
theorem Agrees.setDefault_breaks (hcrates : crates.Documented) (h : Agrees place crates store)
    {name : String} (hnot : ¬ Safe place crates store.dir (.setDefault name)) :
    ¬ DefaultKept place crates (store.step place crates (.setDefault name)) := by
  obtain ⟨keys, link, htracks, hlink⟩ := h
  obtain ⟨hexists, hanchored⟩ : pathExists place store.dir (keyPath name) = true ∧
      ¬ place.anchored (keyPath name) = true := Classical.not_imp.mp hnot
  have hpath : pathExists place store.dir (keyPath name) = _ :=
    htracks.represents.pathExists_key name
  rw [hpath] at hexists
  obtain ⟨seed, hseed⟩ := Option.isSome_iff_exists.mp hexists
  obtain ⟨henters, hkey⟩ := found_eq_some.mp hseed
  have hspec : (found place keys name = none ∧ _) ∨ _ := htracks.represents.setDefault_spec name
  rw [step_setDefault]
  rcases hspec with ⟨hnone, -⟩ | ⟨-, hsome, hnone, -⟩ | ⟨-, -, dir, hset, hdir⟩
  · rw [hnone] at hexists
    cases hexists
  · -- a link that is left means that there are no keys
    cases hdefault : store.registry.default <;> rw [hdefault] at hlink <;> cases hlink
    case none.absent => cases hsome
    case some.leads path seed' hlinked =>
      rw [hlinked] at hnone
      cases hnone
    case none.left path hanchored' henters' hkeys =>
      rw [hkeys] at hkey
      cases hkey
  · rw [hset]
    intro hkept
    have hlinked : linked place keys (some name) = none := by
      rw [linked, Option.bind_some, if_neg hanchored]
    have hget : getDefault place crates dir = _ := hdir.getDefault_eq hcrates
    rw [hlinked] at hget
    have hdefault : store.registry.identities (fileName name) =
        some ⟨fileName name, crates.publicKey seed⟩ := by
      rw [htracks.identities, hkey]
      rfl
    cases (hkept.some_default _ hdefault).symm.trans hget

/-- A safe call keeps the agreement. -/
theorem Agrees.step (h : Agrees place crates store) {op : Op}
    (hsafe : Safe place crates store.dir op) : Agrees place crates
      (store.step place crates op) := by
  cases op with
  | generate name random =>
    rw [step_generate]
    refine h.made name _ fun hleft hsaves seed hkey => ?_
    obtain ⟨seed', hrandom⟩ : ∃ seed, random = .ok seed := by
      cases random with
      | error e => cases hkey
      | ok seed => exact ⟨seed, rfl⟩
    exact hsafe hleft hsaves seed' hrandom
  | importKey name secretKey =>
    rw [step_importKey]
    refine h.made name _ fun hleft hsaves seed hkey => ?_
    obtain ⟨seed', hparse⟩ : ∃ seed, crates.parseSecret secretKey = .ok seed := by
      cases hparse : crates.parseSecret secretKey with
      | error e => rw [hparse] at hkey; cases hkey
      | ok seed => exact ⟨seed, rfl⟩
    exact hsafe hleft hsaves seed' hparse
  | remove name => exact h.remove hsafe
  | setDefault name => exact h.setDefault hsafe

/-- A call that is not safe breaks the agreement. -/
theorem Agrees.step_breaks (hcrates : crates.Documented) (h : Agrees place crates store) {op : Op}
    (hnot : ¬ Safe place crates store.dir op) :
    ¬ DefaultKept place crates (store.step place crates op) := by
  cases op with
  | generate name random =>
    obtain ⟨hleft, hsaves, seed, rfl⟩ : LinkLeft place store.dir ∧ Saves place store.dir name ∧
        ∃ seed, random = .ok seed := by
      simpa only [Safe, Classical.not_imp, not_forall, exists_prop, not_not] using hnot
    rw [step_generate]
    exact h.made_breaks hcrates hleft hsaves rfl
  | importKey name secretKey =>
    obtain ⟨hleft, hsaves, seed, hparse⟩ : LinkLeft place store.dir ∧ Saves place store.dir name ∧
        ∃ seed, crates.parseSecret secretKey = .ok seed := by
      simpa only [Safe, Classical.not_imp, not_forall, exists_prop, not_not] using hnot
    rw [step_importKey, hparse]
    exact h.made_breaks hcrates hleft hsaves rfl
  | remove name => exact h.remove_breaks hnot
  | setDefault name => exact h.setDefault_breaks hcrates hnot

end Runs

/-- **The default identity is kept throughout a run exactly if each of its calls is safe**: the
default identity is the one last made default and not removed since, and every identity can be made
the default. -/
theorem default_kept_iff (place : Place) {crates : KeyCrates} (hcrates : crates.Documented)
    (ops : List Op) :
    (∀ before, before <+: ops →
      DefaultKept place crates (Runs.run (Store.step place crates) Store.empty before)) ↔
    ∀ before op, before ++ [op] <+: ops →
      Safe place crates (Runs.run (Store.step place crates) Store.empty before).dir op :=
  Runs.forall_prefix_iff (agrees_empty place crates) (fun _ h => h.defaultKept hcrates)
    (fun _ _ h hsafe => h.step hsafe) (fun _ _ h hnot => h.step_breaks hcrates hnot) ops

/-! ### A default identity that is kept, and one that comes back -/

/-- The key whose bytes are zero. -/
def zeroSeed : Seed := Vector.replicate 32 0

/-- The text of the secret key whose bytes are zero. -/
def zeroSecret : String := "SAAAAAAAAAAAAAAAAAAAAAAAAAAAAAAAAAAAAAAAAAAAAAAAAAAABSU2"

/-- Texts of keys that are read back; those of the key whose bytes are zero are what they are. -/
def zeroCrates : KeyCrates where
  secretText seed := if seed = zeroSeed then zeroSecret else "x" ++ Hex.encode seed.toList
  parseSecret text :=
    if text = zeroSecret then .ok zeroSeed
    else
      match Hex.decode (String.ofList (text.toList.drop 1)) with
      | none => .error "invalid"
      | some bytes => .ok (Vector.ofFn fun i => bytes.getD i 0)
  publicKey seed :=
    if seed = zeroSeed then "GA5WUJ54Z23KILLCUOUNAKTPBVZWKMQVO4O6EQ5GHLAERIMLLHNCSKYH"
    else "x" ++ Hex.encode seed.toList

theorem zeroCrates_documented : zeroCrates.Documented where
  parse_secretText seed := by
    by_cases hseed : seed = zeroSeed
    · have htext : zeroCrates.secretText seed = zeroSecret := if_pos hseed
      rw [htext, hseed]
      simp only [zeroCrates, if_true]
    · have htext : zeroCrates.secretText seed = "x" ++ Hex.encode seed.toList := if_neg hseed
      have hhead : (zeroCrates.secretText seed).toList.head? = some 'x' := by
        rw [htext, String.toList_append]
        rfl
      have hne : zeroCrates.secretText seed ≠ zeroSecret := by
        intro h
        rw [h] at hhead
        exact absurd hhead (by decide)
      have hdrop : String.ofList ((zeroCrates.secretText seed).toList.drop 1) =
          Hex.encode seed.toList := by
        rw [htext, String.toList_append]
        exact String.ofList_toList
      have hseedOf : (Vector.ofFn fun i : Fin 32 => seed.toList.getD i 0) = seed := by
        ext i hi
        simp
      refine (if_neg hne).trans ?_
      rw [hdrop, Hex.decode_encode]
      exact congrArg Except.ok hseedOf
  secretText_alphanum seed := by
    simp only [zeroCrates]
    split_ifs with hseed
    · exact List.all_eq_true.mp (by decide)
    · intro c hc
      rw [String.toList_append, List.mem_append] at hc
      rcases hc with hc | hc
      · exact List.all_eq_true.mp (by decide) c hc
      · exact Hex.isAlphanum_encode _ c hc

/-- A directory that is given by an absolute path. -/
def absolutePlace : Place where
  reaches _ := false
  anchored _ := true
  takes _ := true

theorem default_kept_iff_alice : zeroCrates.Documented ∧
    ∀ before, before <+: [Op.generate "alice" (.ok zeroSeed), .setDefault "alice"] →
      DefaultKept absolutePlace zeroCrates
        (Runs.run (Store.step absolutePlace zeroCrates) Store.empty before) := by
  refine ⟨zeroCrates_documented, ?_⟩
  refine (default_kept_iff absolutePlace zeroCrates_documented _).mpr fun before op hprefix => ?_
  cases before with
  | nil =>
    obtain ⟨rfl, -⟩ := List.cons_prefix_cons.mp hprefix
    exact fun hleft => absurd hleft.1 (by decide)
  | cons a before =>
    obtain ⟨rfl, htail⟩ := List.cons_prefix_cons.mp hprefix
    cases before with
    | nil =>
      obtain ⟨rfl, -⟩ := List.cons_prefix_cons.mp htail
      exact fun _ => rfl
    | cons b before =>
      obtain ⟨rfl, hnil⟩ := List.cons_prefix_cons.mp htail
      exact absurd (List.prefix_nil.mp hnil) (by simp)

/-- An identity that was the default when it was removed is the default again when it is made
again. -/
theorem removed_default_comes_back :
    zeroCrates.Documented ∧ ¬ ∀ ops : List Op, DefaultKept absolutePlace zeroCrates
      (Runs.run (Store.step absolutePlace zeroCrates) Store.empty ops) := by
  refine ⟨zeroCrates_documented, fun h => ?_⟩
  have hkept := h [.generate "alice" (.ok zeroSeed), .setDefault "alice", .remove "alice",
    .generate "alice" (.ok zeroSeed)]
  obtain ⟨e, herror⟩ := hkept.none_default (by decide)
  have hget : getDefault absolutePlace zeroCrates
      (Runs.run (Store.step absolutePlace zeroCrates) Store.empty
        [.generate "alice" (.ok zeroSeed), .setDefault "alice", .remove "alice",
          .generate "alice" (.ok zeroSeed)]).dir =
      .ok ⟨"alice", zeroCrates.publicKey zeroSeed⟩ := by
    decide
  cases herror.symm.trans hget

end SorobanDevkit.Storage
