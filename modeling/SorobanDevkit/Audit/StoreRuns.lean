import SorobanDevkit.Audit.FailedInstall

/-!
# Runs of the plugin store

The store is meant to be a map from ids to plugins. The directory of a plugin is its id with some
characters replaced, so that two ids can share a directory, and the directory of the empty id is the
root of the store.

## Main results

* `Kept.of_reached` — what holds of every store.
* `listed_eq` — the listing has the plugins that are shown.
* `keyed_of_separated` — calls that stay in their directories treat the store as a map.
-/

namespace SorobanDevkit.Audit

open Effect (lift)
open Except (ensure)
open Utf8Lossy (fromUtf8 fromUtf8_encode)

/-! ### Calls and reports -/

/-- A change of the store. -/
inductive StoreCall
  | install (source : LocalSource) (opts : InstallOpts)
  | update (id : String) (source : LocalSource)
  | remove (id : String)

/-- What the store reports for an id: the metadata, the path of the artifact, and the metadata in
the listing. -/
structure Report where
  shown : Option PluginMeta
  resolved : Option (List String × String)
  listed : List PluginMeta
  deriving DecidableEq

/-- The report for an id that is not installed. -/
def Report.absent : Report := ⟨none, none, []⟩

section

variable (toml : TomlCrate) (refuses : Refusals) (root : List String)

/-- What the store reports for an id. -/
def report (tree : FileTree) (id : String) : Report where
  shown := showMeta toml refuses root tree id
  resolved := resolve toml refuses root tree id
  listed := (listIn toml refuses root tree).filter fun m => m.id = id

namespace StoreCall

/-- The source and the options of an installation. -/
def installation : StoreCall → Option (LocalSource × InstallOpts)
  | install source opts => some (source, opts)
  | update id source => some (source, { id := some id, force := true })
  | remove _ => none

/-- The id that a call is about. -/
def id? : StoreCall → Option String
  | install source opts => (sourceMeta toml source opts).toOption.map (·.id)
  | update id _ => some id
  | remove id => some id

/-- A change, with the metadata of what is installed. -/
def run : StoreCall → Effect FileTree StoreError (Option PluginMeta)
  | install source opts => do
    let m ← Audit.install toml refuses root source opts
    return some m
  | update id source => do
    let m ← Audit.update toml refuses root id source
    return some m
  | remove id => do
    Audit.remove refuses root id
    return none

/-- The tree after a call. -/
def after (call : StoreCall) (tree : FileTree) : FileTree := (call.run toml refuses root tree).2

end StoreCall

/-- The trees that calls make of one with nothing in the root of the store. -/
inductive Reached : FileTree → Prop
  | start (tree : FileTree) : tree.children root = [] → Reached tree
  | step (tree : FileTree) (call : StoreCall) :
      Reached tree → Reached (call.after toml refuses root tree)

/-- A call treats the store as a map from ids to plugins, as far as an id is concerned. -/
structure StoreCall.Keyed (call : StoreCall) (tree : FileTree) (b : String) : Prop where
  others : call.id? toml ≠ some b →
    report toml refuses root (call.after toml refuses root tree) b = report toml refuses root tree b
  installed : ∀ m tree', call.run toml refuses root tree = (.ok (some m), tree') →
    call.id? toml = some m.id ∧
    report toml refuses root tree' m.id = ⟨some m, some (pluginDir root m.id, m.artifact), [m]⟩ ∧
    ∃ source opts bytes, call.installation = some (source, opts) ∧ source.bytes = .ok bytes ∧
      tree'.read (pluginDir root m.id ++ relative m.artifact) = some bytes
  removed : ∀ id tree', call = .remove id → call.run toml refuses root tree = (.ok none, tree') →
    report toml refuses root tree' id = .absent

/-- What is installed can be seen. -/
structure Visible (m : PluginMeta) : Prop where
  store : refuses .look root = none
  entries : refuses .list root = none
  dir : refuses .look (pluginDir root m.id) = none
  manifest : refuses .read (pluginDir root m.id ++ ["plugin.toml"]) = none
  artifact : refuses .look (pluginDir root m.id ++ relative m.artifact) = none

/-- An installation with some metadata stays in the directory of its own id. The artifact that it
replaces has not another spelling of the same path. -/
structure InstallsApart (m : PluginMeta) (tree : FileTree) (b : String) : Prop where
  own : sanitizeId m.id = sanitizeId b → m.id = b
  spelling : ∀ old, showMeta toml refuses root tree m.id = some old → old.artifact ≠ m.artifact →
    relative old.artifact ≠ relative m.artifact
  visible : Visible refuses root m

/-- A removal stays in the directory of its own id. -/
structure RemovesApart (id : String) (tree : FileTree) (b : String) : Prop where
  own : tree.get? (pluginDir root id) = some .dir →
    id ≠ "" ∧ (sanitizeId id = sanitizeId b → id = b)
  visible : refuses .look (pluginDir root id) = none

/-- A call stays in the directory of its own id, which is not that of another one. -/
structure StoreCall.Separated (call : StoreCall) (tree : FileTree) (b : String) : Prop where
  installs : ∀ source opts m, call.installation = some (source, opts) →
    checkInstall toml refuses root tree source opts = .ok m →
      InstallsApart toml refuses root m tree b
  removes : ∀ id, call = .remove id → RemovesApart refuses root id tree b

end

section

variable {toml : TomlCrate} {refuses : Refusals} {root : List String} {tree tree' : FileTree}
  {m : PluginMeta}

/-! ### The directories of the store -/

theorem sanitizeId_eq_empty_iff {id : String} : sanitizeId id = "" ↔ id = "" := by
  rw [sanitizeId, ← String.toList_eq_nil_iff, String.toList_ofList, List.map_eq_nil_iff,
    String.toList_eq_nil_iff]

theorem sanitizeChar_sanitizeChar (c : Char) : sanitizeChar (sanitizeChar c) = sanitizeChar c := by
  by_cases h : c = '/' ∨ c = '\\' ∨ c = '.' ∨ c = ':' ∨ c = ' '
  · have hc : sanitizeChar c = '_' := if_pos h
    rw [hc]
    decide
  · have hc : sanitizeChar c = c := if_neg h
    rw [hc, hc]

theorem sanitizeId_sanitizeId (id : String) : sanitizeId (sanitizeId id) = sanitizeId id := by
  rw [sanitizeId, sanitizeId, String.toList_ofList, List.map_map]
  refine congrArg String.ofList (List.map_congr_left fun c _ => ?_)
  exact sanitizeChar_sanitizeChar c

/-- A directory has no name with a dot. -/
theorem sanitizeId_ne_manifest (id : String) : sanitizeId id ≠ "plugin.toml" := by
  intro h
  have hdot : '.' ∈ (sanitizeId id).toList := by
    rw [h]
    decide
  rw [sanitizeId, String.toList_ofList] at hdot
  obtain ⟨c, -, hc⟩ := List.mem_map.mp hdot
  rw [sanitizeChar] at hc
  split at hc
  · cases hc
  · next hnot => exact hnot (.inr (.inr (.inl hc)))

theorem pluginDir_empty : pluginDir root "" = root := if_pos rfl

theorem pluginDir_of_ne {id : String} (h : id ≠ "") :
    pluginDir root id = root ++ [sanitizeId id] :=
  if_neg (mt sanitizeId_eq_empty_iff.mp h)

theorem id_ne_of_basic (h : m.Basic) : m.id ≠ "" := by
  intro heq
  exact h.id (by rw [heq]; rfl)

/-- What is below a name in the root is apart from the directory of another one. -/
theorem not_prefix_of_ne {a b : String} (h : a ≠ b) (rest : List String) :
    ¬ root ++ [a] <+: root ++ b :: rest ∧ ¬ root ++ b :: rest <+: root ++ [a] := by
  rw [List.prefix_append_right_inj, List.prefix_append_right_inj]
  exact ⟨fun hpre => h (List.cons_prefix_cons.mp hpre).1,
    fun hpre => h (List.cons_prefix_cons.mp hpre).1.symm⟩

/-! ### What holds of every store -/

variable (toml refuses root) in
/-- The directories in the root have names of ids, the metadata in one is that of an id of the
directory, and there is no metadata in the root. -/
structure Kept (tree : FileTree) : Prop where
  names : ∀ name, tree.get? (root ++ [name]) = some .dir → ∃ id, id ≠ "" ∧ sanitizeId id = name
  owned : ∀ name m, Stored toml refuses tree (root ++ [name]) m → sanitizeId m.id = name
  bare : tree.read (root ++ ["plugin.toml"]) = none

theorem Kept.of_no_children (h : tree.children root = []) : Kept toml refuses root tree := by
  have hnone (name : String) : tree.get? (root ++ [name]) = none := by
    by_contra hsome
    obtain ⟨node, hnode⟩ := Option.ne_none_iff_exists'.mp hsome
    have hmem := FileTree.mem_children.mpr ⟨node, hnode⟩
    rw [h] at hmem
    cases hmem
  refine ⟨fun name hdir => ?_, fun name m hstored => ?_, ?_⟩
  · rw [hnone] at hdir
    cases hdir
  · obtain ⟨-, raw, hread, -⟩ := hstored
    rw [FileTree.read, tree.get?_eq_none_of_prefix (List.prefix_append _ _) (hnone name)] at hread
    cases hread
  · rw [FileTree.read, hnone]

namespace Kept

theorem of_removeAll (h : Kept toml refuses root tree) (path : List String) :
    Kept toml refuses root (tree.removeAll path) where
  names name hdir := h.names name (FileTree.get?_of_removeAll hdir)
  owned name m hstored := by
    obtain ⟨hread, raw, hraw, hparse, hbasic⟩ := hstored
    exact h.owned name m ⟨hread, raw, FileTree.read_of_removeAll hraw, hparse, hbasic⟩
  bare := by
    by_contra hsome
    obtain ⟨content, hcontent⟩ := Option.ne_none_iff_exists'.mp hsome
    have hread := FileTree.read_of_removeAll hcontent
    rw [h.bare] at hread
    cases hread

/-- An installation writes the metadata of an id into its directory. -/
theorem of_changed (htoml : toml.RoundTrips) (h : Kept toml refuses root tree) (hm : m.Basic)
    (hchanged : Changed toml root m tree tree') : Kept toml refuses root tree' := by
  have hdir : pluginDir root m.id = root ++ [sanitizeId m.id] :=
    pluginDir_of_ne (id_ne_of_basic hm)
  obtain ⟨houtside, hmanifest, hdirs⟩ := hchanged
  rw [hdir] at houtside hmanifest hdirs
  have hread {name : String} (hname : sanitizeId m.id ≠ name) (rest : List String) :
      tree'.read (root ++ name :: rest) = tree.read (root ++ name :: rest) :=
    houtside.read_eq (not_prefix_of_ne hname rest).1
  refine ⟨fun name hname => ?_, fun name m' hstored => ?_, ?_⟩
  · rcases hdirs _ hname with hold | hpre
    · exact h.names name hold
    · rw [List.prefix_append_right_inj, List.cons_prefix_cons] at hpre
      exact ⟨m.id, id_ne_of_basic hm, hpre.1.symm⟩
  · by_cases hname : sanitizeId m.id = name
    · rw [← hname] at hstored ⊢
      rcases hmanifest with hold | ⟨text, htext, hnew⟩
      · exact h.owned _ m' ((Stored.congr (FileTree.read_congr hold)).mp hstored)
      · -- the metadata that was written is what is read
        obtain ⟨-, raw, hraw, hparse, -⟩ := hstored
        rw [FileTree.read_eq_some_iff, hnew, Option.some.injEq, FileNode.file.injEq] at hraw
        have htexts := congrArg fromUtf8 hraw
        rw [fromUtf8_encode, fromUtf8_encode, Option.some.injEq] at htexts
        rw [← htexts, htoml m text htext] at hparse
        rw [Except.ok.inj hparse]
    · refine h.owned name m' ((Stored.congr ?_).mp hstored)
      rw [List.append_assoc]
      exact hread hname ["plugin.toml"]
  · rw [hread (sanitizeId_ne_manifest m.id) []]
    exact h.bare

end Kept

/-! ### Listings -/

variable (toml refuses root) in
/-- The metadata in the listing that has an id. -/
def listedFor (tree : FileTree) (id : String) : Option PluginMeta :=
  if Disk.isDir refuses tree root ∧ refuses .list root = none ∧
      Disk.isDir refuses tree (root ++ [sanitizeId id]) then
    (showMeta toml refuses root tree id).filter fun m => m.id = id
  else none

/-- What a function has for one member of a list only. -/
theorem filterMap_eq_of_unique {α β : Type} [DecidableEq α] {l : List α} (hnodup : l.Nodup)
    {f : α → Option β} {a : α} (h : ∀ x ∈ l, x ≠ a → f x = none) :
    l.filterMap f = if a ∈ l then (f a).toList else [] := by
  induction l with
  | nil => rfl
  | cons x l ih =>
    obtain ⟨hx, hl⟩ := List.nodup_cons.mp hnodup
    have ih := ih hl fun y hy => h y (List.mem_cons_of_mem x hy)
    by_cases hxa : x = a
    · rw [hxa] at hx ⊢
      rw [if_neg hx] at ih
      rw [List.filterMap_cons, ih, if_pos List.mem_cons_self]
      cases f a <;> rfl
    · rw [List.filterMap_cons_none (h x List.mem_cons_self hxa), ih]
      exact if_congr (by simp [Ne.symm hxa]) rfl rfl

theorem not_isDir_of_notMem {name : String} (h : name ∉ tree.children root) :
    Disk.isDir refuses tree (root ++ [name]) = false := by
  rw [Disk.isDir, Bool.and_eq_false_iff, decide_eq_false_iff_not]
  exact .inr fun hdir => h (FileTree.mem_children.mpr ⟨_, hdir⟩)

theorem showMeta_congr {a b : String} (h : sanitizeId a = sanitizeId b) :
    showMeta toml refuses root tree a = showMeta toml refuses root tree b := by
  refine Option.ext fun m => ?_
  rw [showMeta_eq_some_iff, showMeta_eq_some_iff, pluginDir, pluginDir, h]

/-- The metadata in a directory of the root is that of an id of the directory. -/
theorem Kept.sanitizeId_of_shown (h : Kept toml refuses root tree) {name : String}
    (hdir : Disk.isDir refuses tree (root ++ [name]) = true)
    (hshown : showMeta toml refuses root tree name = some m) : sanitizeId m.id = name := by
  rw [Disk.isDir, Bool.and_eq_true, decide_eq_true_iff] at hdir
  obtain ⟨id, hid, hname⟩ := h.names name hdir.2
  have hne : name ≠ "" := by
    rw [← hname]
    exact mt sanitizeId_eq_empty_iff.mp hid
  have hsame : sanitizeId name = name := by rw [← hname, sanitizeId_sanitizeId]
  rw [showMeta_eq_some_iff, pluginDir_of_ne hne, hsame] at hshown
  exact h.owned name m hshown

theorem eq_toList_of_perm {α : Type} {l : List α} {o : Option α} (h : l.Perm o.toList) :
    l = o.toList := by
  cases o with
  | none => exact List.perm_nil.mp h
  | some a => exact List.perm_singleton.mp h

/-- **The listing has the plugins that are shown.** -/
theorem listed_eq (h : Kept toml refuses root tree) (id : String) :
    ((listIn toml refuses root tree).filter fun m => m.id = id) =
      (listedFor toml refuses root tree id).toList := by
  rw [listIn, listedFor]
  by_cases hroot : Disk.isDir refuses tree root = true ∧ refuses .list root = none
  · rw [if_pos hroot]
    -- one directory only can have the id
    have hunique : ∀ name ∈ tree.children root, name ≠ sanitizeId id →
        (if Disk.isDir refuses tree (root ++ [name]) then showMeta toml refuses root tree name
          else none).filter (fun m => m.id = id) = none := by
      intro name _ hne
      rw [Option.filter_eq_none_iff]
      intro m hm hid
      obtain ⟨hdir, hshown⟩ := Option.ite_none_right_eq_some.mp hm
      have hname := h.sanitizeId_of_shown hdir hshown
      rw [of_decide_eq_true hid] at hname
      exact hne hname.symm
    have hperm := (List.perm_insertionSort (fun a b : PluginMeta => (a.cmp b).isLE = true)
      ((tree.children root).filterMap fun name =>
        if Disk.isDir refuses tree (root ++ [name]) then showMeta toml refuses root tree name
        else none)).filter fun m => m.id = id
    rw [List.filter_filterMap, filterMap_eq_of_unique FileTree.nodup_children hunique,
      showMeta_congr (sanitizeId_sanitizeId id)] at hperm
    refine eq_toList_of_perm (hperm.trans (List.Perm.of_eq ?_))
    by_cases hdir : Disk.isDir refuses tree (root ++ [sanitizeId id]) = true
    · have hmem : sanitizeId id ∈ tree.children root := by
        by_contra hnot
        rw [not_isDir_of_notMem hnot] at hdir
        cases hdir
      rw [if_pos hmem, if_pos hdir, if_pos ⟨hroot.1, hroot.2, hdir⟩]
    · have hnot : ¬ (Disk.isDir refuses tree root = true ∧ refuses .list root = none ∧
          Disk.isDir refuses tree (root ++ [sanitizeId id]) = true) := fun hall => hdir hall.2.2
      rw [if_neg hdir, Option.filter_none, Option.toList_none, ite_self, if_neg hnot,
        Option.toList_none]
  · rw [if_neg hroot, if_neg fun hall => hroot ⟨hall.1, hall.2.1⟩]
    rfl

theorem resolve_eq_none {id : String} (h : showMeta toml refuses root tree id = none) :
    resolve toml refuses root tree id = none := by
  rw [resolve, h, Option.bind_none]

/-- What the store reports for an id that is not shown. -/
theorem report_eq_absent (h : Kept toml refuses root tree) {id : String}
    (hshown : showMeta toml refuses root tree id = none) :
    report toml refuses root tree id = .absent := by
  have hlisted : listedFor toml refuses root tree id = none := by
    rw [listedFor, hshown, Option.filter_none, ite_self]
  rw [report, hshown, resolve_eq_none hshown, listed_eq h, hlisted]
  rfl

/-- The empty id is not shown. -/
theorem Kept.report_empty (h : Kept toml refuses root tree) :
    report toml refuses root tree "" = .absent := by
  refine report_eq_absent h ?_
  by_contra hsome
  obtain ⟨m, hm⟩ := Option.ne_none_iff_exists'.mp hsome
  rw [showMeta_eq_some_iff, pluginDir_empty] at hm
  obtain ⟨-, raw, hread, -⟩ := hm
  rw [h.bare] at hread
  cases hread

theorem isDir_eq_true_iff {path : List String} : Disk.isDir refuses tree path = true ↔
    refuses .look path = none ∧ tree.get? path = some .dir := by
  rw [Disk.isDir, Bool.and_eq_true, Option.isNone_iff_eq_none, decide_eq_true_iff]

/-- The root is a directory if there is one in it. -/
theorem isDir_root_iff {name : String} (h : tree.get? (root ++ [name]) = some .dir) :
    Disk.isDir refuses tree root = true ↔ refuses .look root = none := by
  have hroot := FileTree.get?_dropLast h
  rw [List.dropLast_concat] at hroot
  rw [isDir_eq_true_iff, and_iff_left hroot]

/-- **What is reported for an id depends on its directory alone.** -/
theorem report_congr (h : Kept toml refuses root tree) (h' : Kept toml refuses root tree')
    {id : String} (hsame : ∀ rest, tree'.get? (root ++ sanitizeId id :: rest) =
      tree.get? (root ++ sanitizeId id :: rest)) :
    report toml refuses root tree' id = report toml refuses root tree id := by
  by_cases hid : id = ""
  · rw [hid, h.report_empty, h'.report_empty]
  have hdir : pluginDir root id = root ++ [sanitizeId id] := pluginDir_of_ne hid
  have hbelow (rest : List String) : tree'.get? (pluginDir root id ++ rest) =
      tree.get? (pluginDir root id ++ rest) := by
    rw [hdir, List.append_assoc]
    exact hsame rest
  have hshown : showMeta toml refuses root tree' id = showMeta toml refuses root tree id := by
    refine Option.ext fun m => ?_
    rw [showMeta_eq_some_iff, showMeta_eq_some_iff]
    exact Stored.congr (FileTree.read_congr (hbelow _))
  have hresolved : resolve toml refuses root tree' id = resolve toml refuses root tree id := by
    rw [resolve, hshown, resolve]
    refine congrArg (Option.bind _) (funext fun m => ?_)
    rw [existsNamed, hbelow, existsNamed]
  have hlisted : listedFor toml refuses root tree' id = listedFor toml refuses root tree id := by
    have hentry := hsame []
    have hisDir : Disk.isDir refuses tree' (root ++ [sanitizeId id]) =
        Disk.isDir refuses tree (root ++ [sanitizeId id]) := by
      rw [Disk.isDir, hentry, Disk.isDir]
    rw [listedFor, listedFor, hshown, hisDir]
    refine if_congr (and_congr_left fun hall => ?_) rfl rfl
    have hthere := (isDir_eq_true_iff.mp hall.2).2
    rw [isDir_root_iff hthere, isDir_root_iff (hentry.trans hthere)]
  rw [report, hshown, hresolved, listed_eq h', hlisted, ← listed_eq h, report]

/-! ### What calls do -/

namespace StoreCall

/-- A call that installs is an installation. -/
theorem run_of_installation {call : StoreCall} {source : LocalSource} {opts : InstallOpts}
    (h : call.installation = some (source, opts)) :
    call.run toml refuses root =
      (Audit.install toml refuses root source opts >>= fun m => pure (some m)) := by
  cases call with
  | install source' opts' =>
    cases h
    rfl
  | update id source' =>
    cases h
    rw [← update_eq_install]
    rfl
  | remove id => cases h

/-- What an installation of a call does. -/
theorem run_install {call : StoreCall} {source : LocalSource} {opts : InstallOpts}
    (h : call.installation = some (source, opts)) {result : Except StoreError (Option PluginMeta)}
    (hrun : call.run toml refuses root tree = (result, tree')) :
    (∃ e, checkInstall toml refuses root tree source opts = .error e ∧ result = .error e ∧
      tree' = tree) ∨
    ∃ m, checkInstall toml refuses root tree source opts = .ok m ∧
      Changed toml root m tree tree' ∧
      ∀ m', result = .ok m' → m' = some m ∧ Committed toml refuses root source m tree tree' := by
  rw [run_of_installation h, Effect.bind_pure_apply, Prod.mk.injEq] at hrun
  obtain ⟨hresult, htree⟩ := hrun
  have hinstall : Audit.install toml refuses root source opts tree =
      ((Audit.install toml refuses root source opts tree).1, tree') := by rw [← htree]
  rcases install_cases hinstall with ⟨e, hcheck, he, hsame⟩ | ⟨m, hcheck, hchanged, hok⟩
  · rw [he] at hresult
    exact .inl ⟨e, hcheck, hresult.symm, hsame⟩
  · refine .inr ⟨m, hcheck, hchanged, fun m' hm' => ?_⟩
    rw [hm'] at hresult
    obtain ⟨installed, hinstalled, hm⟩ := Except.map_eq_ok_iff.mp hresult
    obtain ⟨heq, hcommitted⟩ := hok installed hinstalled
    exact ⟨by rw [← hm, heq], hcommitted⟩

/-- What a removal of a call does. -/
theorem run_remove {id : String} {result : Except StoreError (Option PluginMeta)}
    (hrun : (remove id).run toml refuses root tree = (result, tree')) :
    tree' = tree ∧ (result = .ok none → Disk.isThere refuses tree (pluginDir root id) = false) ∨
      tree.get? (pluginDir root id) = some .dir ∧ tree' = tree.removeAll (pluginDir root id) := by
  have hremove : (remove id).run toml refuses root =
      (Audit.remove refuses root id >>= fun _ => pure none) := rfl
  rw [hremove, Effect.bind_pure_apply, Prod.mk.injEq] at hrun
  obtain ⟨hresult, htree⟩ := hrun
  have hremoval : Audit.remove refuses root id tree =
      ((Audit.remove refuses root id tree).1, tree') := by rw [← htree]
  rcases remove_cases hremoval with ⟨hsame, hthere⟩ | ⟨hdir, -, hremoved⟩
  · refine .inl ⟨hsame, fun hok => hthere ?_⟩
    rw [hok] at hresult
    obtain ⟨u, hu, -⟩ := Except.map_eq_ok_iff.mp hresult
    exact hu
  · exact .inr ⟨hdir, hremoved⟩

/-- A removal installs nothing. -/
theorem installed_of_remove {id : String} {installed : Option PluginMeta}
    (hrun : (remove id).run toml refuses root tree = (.ok installed, tree')) :
    installed = none := by
  have hremove : (remove id).run toml refuses root =
      (Audit.remove refuses root id >>= fun _ => pure none) := rfl
  rw [hremove, Effect.bind_pure_apply, Prod.mk.injEq] at hrun
  obtain ⟨u, -, hnone⟩ := Except.map_eq_ok_iff.mp hrun.1
  exact hnone.symm

end StoreCall

theorem basic_of_checkInstall {source : LocalSource} {opts : InstallOpts}
    (h : checkInstall toml refuses root tree source opts = .ok m) : m.Basic := by
  obtain ⟨-, -, -, -, -, -, hbasic⟩ := sourceMeta_eq_ok_iff.mp (checkInstall_eq_ok_iff.mp h).1
  exact hbasic

theorem StoreCall.installs_or_removes (call : StoreCall) :
    (∃ source opts, call.installation = some (source, opts)) ∨ ∃ id, call = .remove id := by
  cases call with
  | install source opts => exact .inl ⟨source, opts, rfl⟩
  | update id source => exact .inl ⟨source, _, rfl⟩
  | remove id => exact .inr ⟨id, rfl⟩

/-- The id of an installation is that of the metadata. -/
theorem StoreCall.id?_of_checkInstall {call : StoreCall} {source : LocalSource} {opts : InstallOpts}
    (h : call.installation = some (source, opts))
    (hcheck : checkInstall toml refuses root tree source opts = .ok m) :
    call.id? toml = some m.id := by
  have hmeta := (checkInstall_eq_ok_iff.mp hcheck).1
  cases call with
  | install source' opts' =>
    cases h
    rw [id?, Except.toOption_eq_some_iff.mpr hmeta]
    rfl
  | update id source' =>
    cases h
    obtain ⟨-, raw, parsed, -, -, rfl, -⟩ := sourceMeta_eq_ok_iff.mp hmeta
    rfl
  | remove id => cases h

/-- **A call keeps what holds of every store.** -/
theorem Kept.after (htoml : toml.RoundTrips) (h : Kept toml refuses root tree) (call : StoreCall) :
    Kept toml refuses root (call.after toml refuses root tree) := by
  have hrun : call.run toml refuses root tree =
      ((call.run toml refuses root tree).1, call.after toml refuses root tree) := rfl
  obtain ⟨source, opts, hcall⟩ | ⟨id, rfl⟩ := call.installs_or_removes
  · obtain ⟨-, -, -, hsame⟩ | ⟨m, hcheck, hchanged, -⟩ := StoreCall.run_install hcall hrun
    · rw [hsame]
      exact h
    · exact h.of_changed htoml (basic_of_checkInstall hcheck) hchanged
  · obtain ⟨hsame, -⟩ | ⟨-, hremoved⟩ := StoreCall.run_remove hrun
    · rw [hsame]
      exact h
    · rw [hremoved]
      exact h.of_removeAll _

/-- **What holds of every store that calls make.** -/
theorem Kept.of_reached (htoml : toml.RoundTrips) (h : Reached toml refuses root tree) :
    Kept toml refuses root tree := by
  induction h with
  | start tree hempty => exact .of_no_children hempty
  | step tree call _ ih => exact ih.after htoml call

/-! ### The store as a map -/

/-- What is in the directory of another id stays. -/
theorem StoreCall.get?_after {call : StoreCall} {b : String}
    (h : call.Separated toml refuses root tree b) (hne : call.id? toml ≠ some b)
    (rest : List String) :
    (call.after toml refuses root tree).get? (root ++ sanitizeId b :: rest) =
      tree.get? (root ++ sanitizeId b :: rest) := by
  have hrun : call.run toml refuses root tree =
      ((call.run toml refuses root tree).1, call.after toml refuses root tree) := rfl
  obtain ⟨source, opts, hcall⟩ | ⟨id, rfl⟩ := call.installs_or_removes
  · obtain ⟨-, -, -, hsame⟩ | ⟨m, hcheck, hchanged, -⟩ := run_install hcall hrun
    · rw [hsame]
    · have hdir : sanitizeId m.id ≠ sanitizeId b := by
        intro heq
        have hown := (h.installs source opts m hcall hcheck).own heq
        rw [id?_of_checkInstall hcall hcheck, hown] at hne
        exact hne rfl
      have houtside := hchanged.outside
      rw [pluginDir_of_ne (id_ne_of_basic (basic_of_checkInstall hcheck))] at houtside
      exact houtside.get?_eq (not_prefix_of_ne hdir rest).1 (not_prefix_of_ne hdir rest).2
  · obtain ⟨hsame, -⟩ | ⟨hthere, hremoved⟩ := run_remove hrun
    · rw [hsame]
    · obtain ⟨hid, hown⟩ := (h.removes id rfl).own hthere
      have hdir : sanitizeId id ≠ sanitizeId b := fun heq => hne (congrArg some (hown heq))
      rw [hremoved, pluginDir_of_ne hid, FileTree.get?_removeAll (by simp),
        if_neg (not_prefix_of_ne hdir rest).1]

/-- What is reported after an installation. -/
theorem report_of_committed (htoml : toml.RoundTrips) (h : Kept toml refuses root tree')
    (hm : m.Basic) (hvisible : Visible refuses root m) {source : LocalSource}
    (hcommitted : Committed toml refuses root source m tree tree')
    {bytes : List UInt8}
    (hread : tree'.read (pluginDir root m.id ++ relative m.artifact) = some bytes) :
    report toml refuses root tree' m.id =
      ⟨some m, some (pluginDir root m.id, m.artifact), [m]⟩ := by
  obtain ⟨text, htext, hmanifest⟩ := hcommitted.manifest
  have hshown : showMeta toml refuses root tree' m.id = some m :=
    showMeta_eq_some_iff.mpr ⟨hvisible.manifest, text, hmanifest, htoml m text htext, hm⟩
  have hexists : existsNamed refuses tree' (pluginDir root m.id) m.artifact = true := by
    rw [existsNamed, hvisible.artifact, FileTree.read_eq_some_iff.mp hread, hcommitted.file]
    rfl
  have hresolved : resolve toml refuses root tree' m.id =
      some (pluginDir root m.id, m.artifact) := by
    rw [resolve, hshown, Option.bind_some, if_pos hexists]
  have hdir := hcommitted.dir
  have hlook := hvisible.dir
  rw [pluginDir_of_ne (id_ne_of_basic hm)] at hdir hlook
  have hlisted : listedFor toml refuses root tree' m.id = some m := by
    rw [listedFor, if_pos ⟨(isDir_root_iff hdir).mpr hvisible.store, hvisible.entries,
      isDir_eq_true_iff.mpr ⟨hlook, hdir⟩⟩, hshown, Option.filter_some, if_pos (decide_eq_true rfl)]
  rw [report, hshown, hresolved, listed_eq h, hlisted]
  rfl

/-- What is reported when a directory is not there. -/
theorem report_of_no_dir (h : Kept toml refuses root tree) {id : String}
    (hdir : tree.get? (pluginDir root id) = none) :
    report toml refuses root tree id = .absent := by
  refine report_eq_absent h ?_
  by_contra hsome
  obtain ⟨m, hm⟩ := Option.ne_none_iff_exists'.mp hsome
  obtain ⟨-, raw, hread, -⟩ := showMeta_eq_some_iff.mp hm
  rw [FileTree.read, tree.get?_eq_none_of_prefix (List.prefix_append _ _) hdir] at hread
  cases hread

/-- **Calls that stay in the directories of their ids treat the store as a map.** -/
theorem keyed_of_separated (htoml : toml.RoundTrips) (hreached : Reached toml refuses root tree)
    {call : StoreCall} {b : String} (h : call.Separated toml refuses root tree b) :
    call.Keyed toml refuses root tree b := by
  have hkept := Kept.of_reached htoml hreached
  refine ⟨fun hne => ?_, fun m tree' hrun => ?_, fun id tree' hcall hrun => ?_⟩
  · exact report_congr hkept (hkept.after htoml call) (StoreCall.get?_after h hne)
  · have hkept' := hkept.after htoml call
    rw [StoreCall.after, hrun] at hkept'
    obtain ⟨source, opts, hcall⟩ | ⟨id, rfl⟩ := call.installs_or_removes
    · obtain ⟨e, -, he, -⟩ | ⟨m', hcheck, -, hok⟩ := StoreCall.run_install hcall hrun
      · cases he
      · obtain ⟨heq, hcommitted⟩ := hok (some m) rfl
        obtain rfl : m = m' := Option.some.inj heq
        have hbasic := basic_of_checkInstall hcheck
        have hapart := h.installs source opts m hcall hcheck
        obtain ⟨bytes, hbytes, hread⟩ := hcommitted.artifact hapart.spelling
        exact ⟨StoreCall.id?_of_checkInstall hcall hcheck,
          report_of_committed htoml hkept' hbasic hapart.visible hcommitted hread,
          source, opts, bytes, hcall, hbytes, hread⟩
    · cases StoreCall.installed_of_remove hrun
  · subst hcall
    have hkept' := hkept.after htoml (.remove id)
    rw [StoreCall.after, hrun] at hkept'
    refine report_of_no_dir hkept' ?_
    obtain ⟨hsame, hthere⟩ | ⟨hthere, hremoved⟩ := StoreCall.run_remove hrun
    · have hgone := hthere rfl
      rw [Disk.isThere, (h.removes id rfl).visible] at hgone
      rw [hsame]
      simpa using hgone
    · obtain ⟨hid, -⟩ := (h.removes id rfl).own hthere
      rw [hremoved, FileTree.get?_removeAll (by simp [pluginDir_of_ne hid]), if_pos List.prefix_rfl]

end

/-! ### Two ids of one directory -/

/-- The metadata of a plugin of a team. -/
def teamMeta : PluginMeta where
  id := "team/rule"
  name := "Rule"
  version := "1.0.0"
  author := ""
  description := ""
  kind := "wasm"
  artifact := "rule.wasm"
  abiMajor := 1
  abiMinor := 0

/-- The metadata as TOML. -/
def teamText : String :=
  "id = \"team/rule\"\nname = \"Rule\"\nversion = \"1.0.0\"\nauthor = \"\"\n" ++
    "description = \"\"\nkind = \"wasm\"\nartifact = \"rule.wasm\"\nabi_major = 1\nabi_minor = 0\n"

/-- TOML, as far as this metadata is concerned. -/
def teamToml : TomlCrate := .single teamMeta teamText

theorem teamToml_roundTrips : teamToml.RoundTrips := TomlCrate.single_roundTrips _ _

/-- A path that the plugin is installed from. -/
def teamSource : LocalSource where
  remote := false
  manifest := some teamText
  extension := some "wasm"
  dryRun _ := .ok ()
  bytes := .ok ruleModule

/-- The store with the plugin. -/
def teamTree : FileTree :=
  (StoreCall.install teamSource ⟨none, false⟩).after teamToml (fun _ _ => none) ["plugins"] .empty

/-- An installation into an empty store treats it as a map. -/
theorem keyed_of_separated_install :
    (StoreCall.install teamSource ⟨none, false⟩).Keyed teamToml (fun _ _ => none) ["plugins"] .empty
      "team_rule/second" := by
  refine keyed_of_separated teamToml_roundTrips (.start .empty rfl) ⟨?_, fun id h => by cases h⟩
  intro source opts m hcall hcheck
  cases hcall
  have hteam : checkInstall teamToml (fun _ _ => none) ["plugins"] .empty teamSource ⟨none, false⟩ =
      .ok teamMeta := by decide +kernel
  obtain rfl : teamMeta = m := Except.ok.inj (hteam.symm.trans hcheck)
  refine ⟨fun h => absurd h (by decide), fun old hold => ?_, ⟨rfl, rfl, rfl, rfl, rfl⟩⟩
  have hnone : showMeta teamToml (fun _ _ => none) ["plugins"] .empty teamMeta.id = none := by
    decide +kernel
  rw [hnone] at hold
  cases hold

/-- The removal of a plugin whose id has another separator removes the plugin of the team. -/
theorem not_keyed_team :
    ¬ ∀ (toml : TomlCrate) (refuses : Refusals) (root : List String) (tree : FileTree),
      toml.RoundTrips → Reached toml refuses root tree →
        ∀ (call : StoreCall) (b : String), call.Keyed toml refuses root tree b := by
  intro h
  have hreached : Reached teamToml (fun _ _ => none) ["plugins"] teamTree :=
    .step .empty _ (.start .empty rfl)
  have hkeyed := h _ _ _ _ teamToml_roundTrips hreached (.remove "team_rule") "team/rule"
  have hshown := congrArg Report.shown (hkeyed.others (by decide))
  have hbefore : showMeta teamToml (fun _ _ => none) ["plugins"] teamTree "team/rule" =
      some teamMeta := by decide +kernel
  have hafter : showMeta teamToml (fun _ _ => none) ["plugins"]
      ((StoreCall.remove "team_rule").after teamToml (fun _ _ => none) ["plugins"] teamTree)
      "team/rule" = none := by decide +kernel
  rw [report, report, hbefore, hafter] at hshown
  cases hshown

end SorobanDevkit.Audit
