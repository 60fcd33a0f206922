import SorobanDevkit.Library.Fallible
import SorobanDevkit.Library.FileMoves
import SorobanDevkit.Library.Runs
import SorobanDevkit.Library.Utf8Lossy

/-!
# The cache of contract code

Metadata and code are cached in a directory for each network, under the text of their hash
(`sdkt-storage/src/cache.rs`). The name of a network is checked to be one component of a path. The
hash is not: a text with two dots leads out of the directory, and one with a separator in front
leads anywhere.

The disk and the crate that writes metadata are parameters.

## Main results

* `keeps_perform` — a contained operation changes nothing outside that directory.
* `answer_perform_eq` — what a contained question answers does not depend on other networks.
* `contained_iff` — the texts whose files are in the directory of the network.
* `networks_isolated_iff` — when histories keep networks isolated.
-/

namespace SorobanDevkit.Storage

open Effect (Keeps ask lift)
open Utf8Lossy (fromUtf8)
open Except (ensure ensure_eq_ok_iff)

/-- `StorageError`, as far as the cache raises it. -/
inductive CacheError
  | io (message : String)
  | corruptCache (message : String)
  | parse (message : String)
  | notFound (message : String)
  | configError (message : String)
  deriving DecidableEq

/-- `WasmMetadata`, as far as the cache looks at it, and the crate that reads and writes it. -/
structure MetadataCrate (Metadata : Type) where
  hash : Metadata → String
  toJson : Metadata → Except String String
  fromJson : String → Except String Metadata

/-- `WasmCache`, on a disk. -/
structure WasmCache (Metadata : Type) where
  baseDir : List String
  refuses : Refusals
  json : MetadataCrate Metadata

/-- The errors of the disk. -/
def cacheIo {α : Type} (x : Effect FileTree String α) : Effect FileTree CacheError α :=
    Effect.mapError .io x

/-- The name is one component of a path. -/
def validNetworkName (network : String) : Bool :=
  let components := PathText.components '/' '.' network.toList
  !(network = "" || network = "." || network = ".." || network.toList.contains '/' ||
    network.toList.contains '\\' || !(components.head?.any PathText.Component.isNormal) ||
    (components[1]?).isSome)

/-- `validate_network_name`. -/
def validateNetworkName (network : String) : Except CacheError Unit :=
  ensure (validNetworkName network = true)
    (.configError s!"invalid network name '{network}': must be a non-empty path component")

namespace WasmCache

variable {Metadata : Type} (cache : WasmCache Metadata)

/-- The directory of a network. -/
def networkPath (network : String) : List String := cache.baseDir ++ ["wasm", network]

/-- The path of a file of a hash, from the text of the hash and what is behind it. -/
def filePath (network hash suffix : String) : List String :=
  PathText.follow (cache.networkPath network) (hash ++ suffix)

/-- `network_dir`: the directory of a network is made where it is not there. -/
def networkDir (network : String) : Effect FileTree CacheError Unit := do
  lift (validateNetworkName network)
  let there ← ask fun tree => Disk.isThere cache.refuses tree (cache.networkPath network)
  if there then pure () else cacheIo (Disk.makeDirs cache.refuses (cache.networkPath network))

/-- `fs::read_to_string`. -/
def readToString (path : List String) (tree : FileTree) : Except CacheError String := do
  let bytes ← (Disk.read cache.refuses tree path).mapError .io
  match fromUtf8 bytes with
  | some text => .ok text
  | none => .error (.io "stream did not contain valid UTF-8")

/-- `contains`. -/
def contains (network wasmHash : String) : Effect FileTree CacheError Bool := do
  cache.networkDir network
  ask fun tree => Disk.isThere cache.refuses tree (cache.filePath network wasmHash ".json")

/-- What `get` finds in the directory of a network. -/
def lookup (network wasmHash : String) (tree : FileTree) : Except CacheError (Option Metadata) :=
  if Disk.isThere cache.refuses tree (cache.filePath network wasmHash ".json") then do
    let json ← cache.readToString (cache.filePath network wasmHash ".json") tree
    let metadata ← (cache.json.fromJson json).mapError fun e =>
      .corruptCache s!"Malformed JSON for {wasmHash}: {e}"
    .ok (some metadata)
  else .ok none

/-- `get`. -/
def get (network wasmHash : String) : Effect FileTree CacheError (Option Metadata) := do
  cache.networkDir network
  let found ← ask (cache.lookup network wasmHash)
  lift found

/-- `put`. -/
def put (network : String) (metadata : Metadata) (wasmBytes : List UInt8) :
    Effect FileTree CacheError Unit := do
  cache.networkDir network
  let hash := cache.json.hash metadata
  let json ← lift ((cache.json.toJson metadata).mapError fun e =>
    .parse s!"Failed to serialize metadata: {e}")
  cacheIo (Disk.write cache.refuses (cache.filePath network hash ".json.tmp")
    (Utf8Lossy.encode json))
  cacheIo (Disk.write cache.refuses (cache.filePath network hash ".wasm.tmp") wasmBytes)
  cacheIo (Disk.rename cache.refuses (cache.filePath network hash ".json.tmp")
    (cache.filePath network hash ".json"))
  cacheIo (Disk.rename cache.refuses (cache.filePath network hash ".wasm.tmp")
    (cache.filePath network hash ".wasm"))

/-- Removes a file that is there. -/
def removeIfThere (path : List String) : Effect FileTree CacheError Unit := do
  let there ← ask fun tree => Disk.isThere cache.refuses tree path
  if there then cacheIo (Disk.removeFile cache.refuses path) else pure ()

/-- `remove`. -/
def remove (network wasmHash : String) : Effect FileTree CacheError Unit := do
  cache.networkDir network
  let there ← ask fun tree => Disk.isThere cache.refuses tree
    (cache.filePath network wasmHash ".json") ||
    Disk.isThere cache.refuses tree (cache.filePath network wasmHash ".wasm")
  lift (ensure (there = true)
    (.notFound s!"WASM cache entry '{wasmHash}' not found in {network} cache"))
  cache.removeIfThere (cache.filePath network wasmHash ".json")
  cache.removeIfThere (cache.filePath network wasmHash ".wasm")

/-- `clear`. -/
def clear (network : String) : Effect FileTree CacheError Unit := do
  cache.networkDir network
  let there ← ask fun tree => Disk.isThere cache.refuses tree (cache.networkPath network)
  if there then do
    cacheIo (Disk.removeAll cache.refuses (cache.networkPath network))
    cacheIo (Disk.makeDirs cache.refuses (cache.networkPath network))
  else pure ()

end WasmCache

/-! ### Histories -/

/-- An operation on the cache. -/
inductive CacheOp (Metadata : Type)
  | put (network : String) (metadata : Metadata) (wasmBytes : List UInt8)
  | get (network wasmHash : String)
  | contains (network wasmHash : String)
  | remove (network wasmHash : String)
  | clear (network : String)

/-- What an operation answers. -/
inductive CacheAnswer (Metadata : Type)
  | done
  | found (there : Bool)
  | metadata (metadata : Option Metadata)
  deriving DecidableEq

/-- The network of an operation. -/
def CacheOp.network {Metadata : Type} : CacheOp Metadata → String
  | .put network _ _ => network
  | .get network _ => network
  | .contains network _ => network
  | .remove network _ => network
  | .clear network => network

/-- The operation asks for what is cached. -/
def CacheOp.IsQuestion {Metadata : Type} : CacheOp Metadata → Prop
  | .get .. => True
  | .contains .. => True
  | _ => False

namespace WasmCache

variable {Metadata : Type} (cache : WasmCache Metadata)

/-- An operation is performed. -/
def perform : CacheOp Metadata → Effect FileTree CacheError (CacheAnswer Metadata)
  | .put network metadata wasmBytes => do
    cache.put network metadata wasmBytes
    pure .done
  | .get network wasmHash => do
    let metadata ← cache.get network wasmHash
    pure (.metadata metadata)
  | .contains network wasmHash => do
    let there ← cache.contains network wasmHash
    pure (.found there)
  | .remove network wasmHash => do
    cache.remove network wasmHash
    pure .done
  | .clear network => do
    cache.clear network
    pure .done

/-- The paths of the files that an operation names. -/
def paths : CacheOp Metadata → List (List String)
  | .put network metadata _ =>
    [".json.tmp", ".wasm.tmp", ".json", ".wasm"].map
      (cache.filePath network (cache.json.hash metadata))
  | .get network wasmHash => [cache.filePath network wasmHash ".json"]
  | .contains network wasmHash => [cache.filePath network wasmHash ".json"]
  | .remove network wasmHash => [".json", ".wasm"].map (cache.filePath network wasmHash)
  | .clear _ => []

/-- The paths of an operation are in the directory of its network. -/
def Contained (op : CacheOp Metadata) : Prop := ∀ path ∈ cache.paths op,
    cache.networkPath op.network <+: path

/-- The texts of the files that an operation names: of the hash, with what is behind it. -/
def fileTexts : CacheOp Metadata → List String
  | .put _ metadata _ =>
    [".json.tmp", ".wasm.tmp", ".json", ".wasm"].map (cache.json.hash metadata ++ ·)
  | .get _ wasmHash => [wasmHash ++ ".json"]
  | .contains _ wasmHash => [wasmHash ++ ".json"]
  | .remove _ wasmHash => [".json", ".wasm"].map (wasmHash ++ ·)
  | .clear _ => []

/-- The disk after a history. -/
def after (tree : FileTree) (ops : List (CacheOp Metadata)) : FileTree :=
  Runs.run (fun tree op => (cache.perform op tree).2) tree ops

/-! ### What an operation changes -/

section

variable {cache} {network : String} {path : List String}

theorem networkPath_ne_nil (network : String) : cache.networkPath network ≠ [] := by
  rw [networkPath]
  exact List.append_ne_nil_of_right_ne_nil _ (List.cons_ne_nil _ _)

theorem keeps_cacheIo {α : Type} {R : FileTree → FileTree → Prop} {x : Effect FileTree String α}
    (h : Keeps R x) : Keeps R (cacheIo x) := h.mapError _

theorem keeps_ask {α : Type} {R : FileTree → FileTree → Prop} (hrefl : ∀ tree, R tree tree)
    (f : FileTree → α) : Keeps R (ask f : Effect FileTree CacheError α) := hrefl

/-- Making the directory of a network. -/
theorem keeps_makeDirs : Keeps (SameOutside (cache.networkPath network))
    (cacheIo (Disk.makeDirs cache.refuses (cache.networkPath network))) :=
  keeps_cacheIo (Disk.keeps_makeDirs SameOutside.refl fun _ _ hmade =>
    SameOutside.of_makeDirs (Or.inl (List.prefix_refl _)) hmade)

theorem keeps_networkDir (network : String) :
    Keeps (SameOutside (cache.networkPath network)) (cache.networkDir network) := by
  refine .lift_bind SameOutside.refl fun _ _ =>
    .bind SameOutside.trans (keeps_ask SameOutside.refl _) ?_
  intro there
  by_cases hthere : there = true
  · rw [if_pos hthere]
    exact Effect.keeps_pure SameOutside.refl ()
  · rw [if_neg hthere]
    exact keeps_makeDirs

/-- Writing a file in the directory of a network. -/
theorem keeps_write (h : cache.networkPath network <+: path) (content : List UInt8) :
    Keeps (SameOutside (cache.networkPath network))
      (cacheIo (Disk.write cache.refuses path content)) :=
  keeps_cacheIo (Disk.keeps_write SameOutside.refl fun _ _ => SameOutside.of_write h)

/-- Moving a file in the directory of a network. -/
theorem keeps_rename {source : List String} (hsource : cache.networkPath network <+: source)
    (h : cache.networkPath network <+: path) :
    Keeps (SameOutside (cache.networkPath network))
      (cacheIo (Disk.rename cache.refuses source path)) :=
  keeps_cacheIo (Disk.keeps_rename SameOutside.refl fun _ _ => SameOutside.of_renameFile hsource h)

/-- Removing a file in the directory of a network. -/
theorem keeps_removeIfThere (h : cache.networkPath network <+: path) :
    Keeps (SameOutside (cache.networkPath network)) (cache.removeIfThere path) := by
  refine .bind SameOutside.trans (keeps_ask SameOutside.refl _) fun there => ?_
  by_cases hthere : there = true
  · rw [if_pos hthere]
    exact keeps_cacheIo (Disk.keeps_removeFile SameOutside.refl fun _ _ =>
      SameOutside.of_removeFile h)
  · rw [if_neg hthere]
    exact Effect.keeps_pure SameOutside.refl ()

theorem keeps_put {metadata : Metadata} {wasmBytes : List UInt8}
    (h : ∀ path ∈ cache.paths (.put network metadata wasmBytes),
      cache.networkPath network <+: path) :
    Keeps (SameOutside (cache.networkPath network)) (cache.put network metadata wasmBytes) := by
  obtain ⟨hmetaTemp, hwasmTemp, hmeta, hwasm⟩ : _ ∧ _ ∧ _ ∧ _ :=
    ⟨h _ (.head _), h _ (.tail _ (.head _)), h _ (.tail _ (.tail _ (.head _))),
      h _ (.tail _ (.tail _ (.tail _ (.head _))))⟩
  refine .bind SameOutside.trans (keeps_networkDir network) fun _ => ?_
  refine .lift_bind SameOutside.refl fun json _ => ?_
  refine .bind SameOutside.trans (keeps_write hmetaTemp _) fun _ => ?_
  refine .bind SameOutside.trans (keeps_write hwasmTemp _) fun _ => ?_
  exact .bind SameOutside.trans (keeps_rename hmetaTemp hmeta) fun _ => keeps_rename hwasmTemp hwasm

theorem keeps_remove {wasmHash : String}
    (h : ∀ path ∈ cache.paths (.remove network wasmHash), cache.networkPath network <+: path) :
    Keeps (SameOutside (cache.networkPath network)) (cache.remove network wasmHash) := by
  refine .bind SameOutside.trans (keeps_networkDir network) fun _ => ?_
  refine .bind SameOutside.trans (keeps_ask SameOutside.refl _) fun there => ?_
  refine .lift_bind SameOutside.refl fun _ _ => ?_
  exact .bind SameOutside.trans (keeps_removeIfThere (h _ (.head _))) fun _ =>
    keeps_removeIfThere (h _ (.tail _ (.head _)))

theorem keeps_clear (network : String) :
    Keeps (SameOutside (cache.networkPath network)) (cache.clear network) := by
  refine .bind SameOutside.trans (keeps_networkDir network) fun _ => ?_
  refine .bind SameOutside.trans (keeps_ask SameOutside.refl _) fun there => ?_
  by_cases hthere : there = true
  · rw [if_pos hthere]
    refine .bind SameOutside.trans (keeps_cacheIo ?_) fun _ => keeps_makeDirs
    exact Disk.keeps_removeAll SameOutside.refl fun tree _ =>
      SameOutside.of_removeAll (List.prefix_refl _) (networkPath_ne_nil network) tree
  · rw [if_neg hthere]
    exact Effect.keeps_pure SameOutside.refl ()

theorem keeps_perform_of_contained {op : CacheOp Metadata} (h : cache.Contained op) :
    Keeps (SameOutside (cache.networkPath op.network)) (cache.perform op) := by
  have hpure : ∀ answer : CacheAnswer Metadata, Keeps (SameOutside (cache.networkPath op.network))
      (pure answer : Effect FileTree CacheError _) := Effect.keeps_pure SameOutside.refl
  cases op with
  | put network metadata wasmBytes =>
    exact .bind SameOutside.trans (keeps_put h) fun _ => hpure .done
  | get network wasmHash =>
    refine .bind SameOutside.trans (.bind SameOutside.trans (keeps_networkDir network) fun _ => ?_)
      fun metadata => hpure (.metadata metadata)
    exact .bind SameOutside.trans (keeps_ask SameOutside.refl _) fun found =>
      Effect.keeps_lift SameOutside.refl found
  | contains network wasmHash =>
    exact .bind SameOutside.trans (.bind SameOutside.trans (keeps_networkDir network) fun _ =>
      keeps_ask SameOutside.refl _) fun there => hpure (.found there)
  | remove network wasmHash => exact .bind SameOutside.trans (keeps_remove h) fun _ => hpure .done
  | clear network => exact .bind SameOutside.trans (keeps_clear network) fun _ => hpure .done

/-- An operation on a name that is not accepted changes nothing. -/
theorem perform_of_invalid {op : CacheOp Metadata} (h : ¬ validNetworkName op.network = true)
    (tree : FileTree) :
    (cache.perform op tree).2 = tree := by
  have hname : ∀ network, ¬ validNetworkName network = true →
      validateNetworkName network = .error (.configError
        s!"invalid network name '{network}': must be a non-empty path component") :=
    fun network hnetwork => if_neg hnetwork
  have hdir : ∀ network, ¬ validNetworkName network = true → ∃ e, ∀ t,
      cache.networkDir network t = (.error e, t) := fun network hnetwork =>
    ⟨_, fun t => by rw [networkDir, hname network hnetwork]; rfl⟩
  obtain ⟨e, he⟩ := hdir op.network h
  have hbind : ∀ {α : Type} (f : Unit → Effect FileTree CacheError α),
      (cache.networkDir op.network >>= f) tree = (.error e, tree) := fun {α} f => by
    show Effect.bind _ f tree = _
    rw [Effect.bind, he]
  have hnext : ∀ {α β : Type} {x : Effect FileTree CacheError α}
    (f : α → Effect FileTree CacheError β),
      x tree = (.error e, tree) → ((x >>= f) tree).2 = tree := fun {α β x} f hx => by
    show (Effect.bind x f tree).2 = _
    rw [Effect.bind, hx]
  cases op with
  | put network metadata wasmBytes => exact hnext _ (hbind _)
  | get network wasmHash => exact hnext _ (hbind _)
  | contains network wasmHash => exact hnext _ (hbind _)
  | remove network wasmHash => exact hnext _ (hbind _)
  | clear network => exact hnext _ (hbind _)

/-- **What an operation changes** is in the directory of its network, if its paths are. -/
theorem keeps_perform {op : CacheOp Metadata}
    (h : validNetworkName op.network = true → cache.Contained op) :
    Keeps (SameOutside (cache.networkPath op.network)) (cache.perform op) := by
  by_cases hvalid : validNetworkName op.network = true
  · exact keeps_perform_of_contained (h hvalid)
  · intro tree
    rw [perform_of_invalid hvalid]
    exact SameOutside.refl tree

/-! ### What a question answers -/

/-- The result of one computation after another, where the first has the same result in two
states. -/
theorem bind_fst_congr {α β : Type} {x : Effect FileTree CacheError α}
    {f : α → Effect FileTree CacheError β}
    {tree tree' : FileTree} (hx : (x tree').1 = (x tree).1)
      (hf : ∀ a, (f a (x tree').2).1 = (f a (x tree).2).1) :
    ((x >>= f) tree').1 = ((x >>= f) tree).1 := by
  show (Effect.bind x f tree').1 = (Effect.bind x f tree).1
  rw [Effect.bind, Effect.bind]
  cases hresult : x tree with
  | mk result state =>
    cases hresult' : x tree' with
    | mk result' state' =>
      rw [hresult, hresult'] at hx
      rw [hresult, hresult'] at hf
      obtain rfl : result' = result := hx
      cases result' with
      | ok a => exact hf a
      | error e => rfl

/-- Directories of different networks are not one below the other. -/
theorem not_networkPath_prefix {other : String} (hne : other ≠ network) :
    ¬ cache.networkPath other <+: cache.networkPath network := by
  intro h
  have heq := h.eq_of_length
    (by rw [networkPath, networkPath, List.length_append, List.length_append]; rfl)
  rw [networkPath, networkPath] at heq
  exact hne (List.cons.inj (List.cons.inj (List.append_cancel_left heq)).2).1

/-- What is in the directory of one network does not change with another. -/
theorem get?_eq_of_sameOutside {other : String} (hne : other ≠ network) {tree tree' : FileTree}
    (h : SameOutside (cache.networkPath other) tree tree')
      (hpath : cache.networkPath network <+: path) :
    tree'.get? path = tree.get? path := by
  refine h.get?_eq (fun hbelow => ?_) fun habove => not_networkPath_prefix hne.symm
    (hpath.trans habove)
  obtain hprefix | hprefix := List.prefix_or_prefix_of_prefix hpath hbelow
  · exact not_networkPath_prefix hne.symm hprefix
  · exact not_networkPath_prefix hne hprefix

/-- What is above the directory of a network is no file because of another network. -/
theorem read_eq_of_sameOutside {other : String} (hne : other ≠ network) {tree tree' : FileTree}
    (h : SameOutside (cache.networkPath other) tree tree')
      (hpath : path <+: cache.networkPath network) :
    tree'.read path = tree.read path :=
  h.read_eq fun hbelow => not_networkPath_prefix hne (hbelow.trans hpath)

theorem networkDir_of_valid (hvalid : validNetworkName network = true) (tree : FileTree) :
    cache.networkDir network tree =
      if Disk.isThere cache.refuses tree (cache.networkPath network) then (.ok (), tree)
      else cacheIo (Disk.makeDirs cache.refuses (cache.networkPath network)) tree := by
  have hname : validateNetworkName network = .ok () := ensure_eq_ok_iff.mpr hvalid
  rw [networkDir, hname]
  by_cases hthere : Disk.isThere cache.refuses tree (cache.networkPath network) = true
  · rw [if_pos hthere]
    show (if _ then _ else _ : Effect FileTree CacheError Unit) tree = _
    rw [if_pos hthere]
    rfl
  · rw [if_neg hthere]
    show (if _ then _ else _ : Effect FileTree CacheError Unit) tree = _
    rw [if_neg hthere]

/-- The directory of a network is made alike whatever another network has. -/
theorem networkDir_congr {other : String} (hvalid : validNetworkName network = true)
    (hne : other ≠ network)
    {tree tree' : FileTree} (h : SameOutside (cache.networkPath other) tree tree') :
    (cache.networkDir network tree').1 = (cache.networkDir network tree).1 ∧
      ∀ path, cache.networkPath network <+: path →
        (cache.networkDir network tree').2.get? path =
          (cache.networkDir network tree).2.get? path := by
  have hbelow : ∀ path, cache.networkPath network <+: path → tree'.get? path = tree.get? path :=
    fun path hpath => get?_eq_of_sameOutside hne h hpath
  have hthere : Disk.isThere cache.refuses tree' (cache.networkPath network) =
      Disk.isThere cache.refuses tree (cache.networkPath network) := by
    rw [Disk.isThere, Disk.isThere, hbelow _ (List.prefix_refl _)]
  rw [networkDir_of_valid hvalid, networkDir_of_valid hvalid, hthere]
  by_cases hnow : Disk.isThere cache.refuses tree (cache.networkPath network) = true
  · rw [if_pos hnow, if_pos hnow]
    exact ⟨rfl, hbelow⟩
  rw [if_neg hnow, if_neg hnow]
  simp only [cacheIo, Effect.mapError, Disk.makeDirs, Effect.change, Refusals.grant]
  cases cache.refuses .makeDirs (cache.networkPath network) with
  | some message => exact ⟨rfl, hbelow⟩
  | none =>
    have hreads : (∀ path, path <+: cache.networkPath network → tree'.read path = none) ↔
        ∀ path, path <+: cache.networkPath network → tree.read path = none :=
      forall₂_congr fun path hpath => by rw [read_eq_of_sameOutside hne h hpath]
    have hexists : (∃ made, tree'.makeDirs (cache.networkPath network) = some made) ↔
        ∃ made, tree.makeDirs (cache.networkPath network) = some made := by
      rw [FileTree.exists_makeDirs_iff, FileTree.exists_makeDirs_iff, hreads]
    cases hmade : tree.makeDirs (cache.networkPath network) with
    | none =>
      cases hmade' : tree'.makeDirs (cache.networkPath network) with
      | none => exact ⟨rfl, hbelow⟩
      | some made' =>
        obtain ⟨made, hsome⟩ := hexists.mp ⟨made', hmade'⟩
        exact absurd (hmade.symm.trans hsome).symm (Option.some_ne_none made)
    | some made =>
      obtain ⟨made', hmade'⟩ := hexists.mpr ⟨made, hmade⟩
      rw [hmade']
      refine ⟨rfl, fun path hpath => ?_⟩
      show made'.get? path = made.get? path
      rw [FileTree.get?_makeDirs hmade, FileTree.get?_makeDirs hmade', hbelow path hpath]

/-- What is found depends on the file of the hash only. -/
theorem lookup_congr {wasmHash : String} {tree tree' : FileTree}
    (h : tree'.get? (cache.filePath network wasmHash ".json") = tree.get?
      (cache.filePath network wasmHash ".json")) :
    cache.lookup network wasmHash tree' = cache.lookup network wasmHash tree := by
  have hthere : Disk.isThere cache.refuses tree' (cache.filePath network wasmHash ".json") =
      Disk.isThere cache.refuses tree (cache.filePath network wasmHash ".json") := by
    rw [Disk.isThere, Disk.isThere, h]
  have hread : Disk.read cache.refuses tree' (cache.filePath network wasmHash ".json") =
      Disk.read cache.refuses tree (cache.filePath network wasmHash ".json") := by
    rw [Disk.read, Disk.read, FileTree.read_congr h]
  rw [lookup, lookup, hthere, readToString, readToString, hread]

/-- **What a contained question answers** does not depend on what another network has. -/
theorem answer_perform_eq {op : CacheOp Metadata} (hquestion : op.IsQuestion)
    (hvalid : validNetworkName op.network = true) (hcontained : cache.Contained op) {other : String}
    (hne : other ≠ op.network) {tree tree' : FileTree}
      (h : SameOutside (cache.networkPath other) tree tree') :
    (cache.perform op tree').1 = (cache.perform op tree).1 := by
  obtain ⟨hdir, hbelow⟩ : (cache.networkDir op.network tree').1 =
    (cache.networkDir op.network tree).1 ∧
      ∀ path, cache.networkPath op.network <+: path →
        (cache.networkDir op.network tree').2.get? path =
          (cache.networkDir op.network tree).2.get? path := networkDir_congr hvalid hne h
  cases op with
  | put network metadata wasmBytes => exact hquestion.elim
  | remove network wasmHash => exact hquestion.elim
  | clear network => exact hquestion.elim
  | get network wasmHash =>
    have hpath : (cache.networkDir network tree').2.get? (cache.filePath network wasmHash ".json") =
        (cache.networkDir network tree).2.get? (cache.filePath network wasmHash ".json") :=
      hbelow _ (hcontained _ (.head _))
    have hlookup := lookup_congr hpath
    have hget : (cache.get network wasmHash tree').1 = (cache.get network wasmHash tree).1 :=
      bind_fst_congr hdir fun _ => hlookup
    have hstate : ∀ t, (cache.perform (.get network wasmHash) t).1 =
        (cache.get network wasmHash t).1.map CacheAnswer.metadata := fun t => by
      show (Effect.bind _ _ t).1 = _
      rw [Effect.bind]
      cases cache.get network wasmHash t with
      | mk result state => cases result <;> rfl
    rw [hstate, hstate, hget]
  | contains network wasmHash =>
    have hpath : (cache.networkDir network tree').2.get? (cache.filePath network wasmHash ".json") =
        (cache.networkDir network tree).2.get? (cache.filePath network wasmHash ".json") :=
      hbelow _ (hcontained _ (.head _))
    have hthere : Disk.isThere cache.refuses (cache.networkDir network tree').2
        (cache.filePath network wasmHash ".json") =
          Disk.isThere cache.refuses (cache.networkDir network tree).2
            (cache.filePath network wasmHash ".json") := by
      rw [Disk.isThere, Disk.isThere, hpath]
    have hcontains : (cache.contains network wasmHash tree').1 =
      (cache.contains network wasmHash tree).1 :=
      bind_fst_congr hdir fun _ => congrArg Except.ok hthere
    have hstate : ∀ t, (cache.perform (.contains network wasmHash) t).1 =
        (cache.contains network wasmHash t).1.map CacheAnswer.found := fun t => by
      show (Effect.bind _ _ t).1 = _
      rw [Effect.bind]
      cases cache.contains network wasmHash t with
      | mk result state => cases result <;> rfl
    rw [hstate, hstate, hcontains]

end

/-! ### Isolation -/

/-- The networks of a cache are isolated in a history: the files of an operation on an accepted
network are in its directory, each operation changes nothing outside, a question answers the same
before and after operations on other networks, and what is stored under another network does not
matter to it. -/
structure Isolated (tree : FileTree) (ops : List (CacheOp Metadata)) : Prop where
  paths : ∀ op ∈ ops, validNetworkName op.network = true → cache.Contained op
  changes : ∀ before op, before ++ [op] <+: ops →
    SameOutside (cache.networkPath op.network) (cache.after tree before)
      (cache.after tree (before ++ [op]))
  frame : ∀ before later, before ++ later <+: ops → ∀ question : CacheOp Metadata,
    question.IsQuestion →
    validNetworkName question.network = true → cache.Contained question →
    (∀ op ∈ later, op.network ≠ question.network) →
    (cache.perform question (cache.after tree (before ++ later))).1 =
      (cache.perform question (cache.after tree before)).1
  unread : ∀ before op, before ++ [op] <+: ops → op.IsQuestion →
    validNetworkName op.network = true →
    ∀ other ≠ op.network, ∀ tree', SameOutside (cache.networkPath other)
      (cache.after tree before) tree' →
      (cache.perform op tree').1 = (cache.perform op (cache.after tree before)).1

theorem after_append_singleton (tree : FileTree) (ops : List (CacheOp Metadata))
    (op : CacheOp Metadata) :
    cache.after tree (ops ++ [op]) = (cache.perform op (cache.after tree ops)).2 :=
  Runs.run_append_singleton ops op

variable {cache}

/-- A question answers the same after contained operations on other networks. -/
theorem answer_after_eq {question : CacheOp Metadata} (hquestion : question.IsQuestion)
    (hvalid : validNetworkName question.network = true) (hcontained : cache.Contained question)
      (tree : FileTree)
    {before later : List (CacheOp Metadata)}
    (hlater : ∀ op ∈ later, validNetworkName op.network = true → cache.Contained op)
    (hother : ∀ op ∈ later, op.network ≠ question.network) :
    (cache.perform question (cache.after tree (before ++ later))).1 =
      (cache.perform question (cache.after tree before)).1 := by
  induction later using List.reverseRecOn with
  | nil => rw [List.append_nil]
  | append_singleton later op ih =>
    rw [← ih (fun op' hop' => hlater op' (List.mem_append_left _ hop'))
      fun op' hop' => hother op' (List.mem_append_left _ hop'), ← List.append_assoc,
        after_append_singleton]
    have hop : op ∈ later ++ [op] := List.mem_append_right _ (List.mem_singleton_self op)
    exact answer_perform_eq hquestion hvalid hcontained (hother op hop)
      (keeps_perform (hlater op hop) (cache.after tree (before ++ later)))

/-- The files of an operation are in the directory of its network if their texts return to it. -/
theorem contained_iff (op : CacheOp Metadata) : cache.Contained op ↔
    ∀ text ∈ cache.fileTexts op, (PathText.route text).Returns (cache.networkPath op.network) := by
  have hpaths : cache.paths op =
      (cache.fileTexts op).map (PathText.follow (cache.networkPath op.network)) := by
    cases op <;> rfl
  rw [Contained, hpaths, List.forall_mem_map]
  exact forall₂_congr fun text _ => PathText.prefix_follow_iff _ _

/-- **Networks are isolated** in a history exactly if no text of a hash that is used with an
accepted network leads up from the directory of the network, or from the root, unless it names first
all the directories that it leads out of. -/
theorem networks_isolated_iff (cache : WasmCache Metadata) (tree : FileTree)
    (ops : List (CacheOp Metadata)) :
    cache.Isolated tree ops ↔ ∀ op ∈ ops, validNetworkName op.network = true →
      ∀ text ∈ cache.fileTexts op,
        (PathText.route text).Returns (cache.networkPath op.network) := by
  simp only [← contained_iff]
  refine ⟨Isolated.paths, fun h => ⟨h, fun before op hpre => ?_,
    fun before later hpre question hquestion hvalid hcontained hother => ?_,
    fun before op hpre hquestion hvalid other hne tree' hsame => ?_⟩⟩
  · have hop : op ∈ ops := hpre.subset (List.mem_append_right _ (List.mem_singleton_self op))
    rw [after_append_singleton]
    exact keeps_perform (h op hop) _
  · exact answer_after_eq hquestion hvalid hcontained tree
      (fun op hop => h op (hpre.subset (List.mem_append_right _ hop))) hother
  · have hop : op ∈ ops := hpre.subset (List.mem_append_right _ (List.mem_singleton_self op))
    exact answer_perform_eq hquestion hvalid (h op hop hvalid) hne hsame

/-! ### A hash that leads to another network -/

/-- A cache whose metadata is the hash. -/
def ofHashes : WasmCache String where
  baseDir := ["cache"]
  refuses _ _ := none
  json := { hash := id, toJson := .ok, fromJson := .ok }

/-- A question about the test network answers with what the main network has, and a removal from the
test network removes it. -/
theorem not_isolated_ofHashes :
    validNetworkName "mainnet" = true ∧ validNetworkName "testnet" = true ∧
      (ofHashes.perform (.get "testnet" "../mainnet/abc")
        (ofHashes.after FileTree.empty [.put "mainnet" "abc" []])).1 = .ok
          (.metadata (some "abc")) ∧
      (ofHashes.perform (.contains "mainnet" "abc") (ofHashes.after FileTree.empty
        [.put "mainnet" "abc" [], .get "testnet" "abc"])).1 = .ok (.found true) ∧
      (ofHashes.perform (.contains "mainnet" "abc") (ofHashes.after FileTree.empty
        [.put "mainnet" "abc" [], .get "testnet" "abc", .remove "testnet" "../mainnet/abc"])).1 =
          .ok (.found false) := by
  refine ⟨by decide, by decide, ?_, ?_, ?_⟩ <;> rfl

end WasmCache

end SorobanDevkit.Storage
