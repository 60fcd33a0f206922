import Mathlib.Data.List.Forall2
import Mathlib.Data.List.Sort
import Mathlib.Data.String.Basic
import SorobanDevkit.Library.CollectedMap
import SorobanDevkit.Library.Saturating

/-!
# Snapshots of contract storage

Two snapshots of the storage of a contract are compared, and a plan says which entries to extend
(`sdkt-storage/src/snapshot.rs`). The entries are collected into hash maps, which are iterated in an
order of which nothing is known, and the differences are sorted by their keys.
-/

namespace SorobanDevkit.Storage

/-! ### Snapshots -/

/-- `EXPIRING_SOON_LEDGERS`. -/
def expiringSoonLedgers : UInt32 := 17280

/-- `DEFAULT_SUGGESTED_LEDGERS`. -/
def defaultSuggestedLedgers : UInt32 := 518400

/-- `SnapshotEntry`. -/
structure SnapshotEntry where
  key : String
  label : Option String
  currentTtl : UInt32
  value : Option String
  deriving DecidableEq

/-- `StorageSnapshot`. -/
structure StorageSnapshot where
  contractId : String
  latestLedger : Option UInt32
  network : Option String
  entries : List SnapshotEntry
  deriving DecidableEq

/-- `StorageError`, as far as snapshots raise it. -/
inductive SnapshotError
  | parse (message : String)
  | contractIdMismatch (old new : String)
  | networkMismatch (old new : String)
  deriving DecidableEq

/-- `DiffStatus`. -/
inductive DiffStatus
  | removed
  | expiringSoon
  | unchanged
  | valueChanged
  deriving DecidableEq

/-- `DiffEntry`. -/
structure DiffEntry where
  key : String
  label : Option String
  status : DiffStatus
  oldTtl : Option UInt32
  newTtl : Option UInt32
  normalizedOldTtl : Option UInt32
  oldValue : Option String
  newValue : Option String
  deriving DecidableEq

/-- `SnapshotDiff`. -/
structure SnapshotDiff where
  contractId : String
  oldLedger : Option UInt32
  newLedger : Option UInt32
  ledgerDelta : Option ℤ
  network : Option String
  captureContext : Option String
  entries : List DiffEntry
  deriving DecidableEq

/-! ### The difference -/

/-- A time to live at the ledger of the new snapshot. The conversions to 32 bits truncate. -/
def normalizeTtl (oldTtl : UInt32) (delta : ℤ) : UInt32 :=
  if delta ≥ 0 then Saturating.sub oldTtl (UInt32.ofNat delta.toNat)
  else Saturating.add oldTtl (UInt32.ofNat delta.natAbs)

/-- Both snapshots recorded a value, and they differ. -/
def valueChanged (old new : SnapshotEntry) : Bool :=
  match old.value, new.value with
  | some o, some n => o ≠ n
  | _, _ => false

/-- An entry of both snapshots. -/
def liveEntry (ledgerDelta : Option ℤ) (key : String) (old new : SnapshotEntry) : DiffEntry where
  key := key
  label := new.label.or old.label
  status := if new.currentTtl < expiringSoonLedgers then .expiringSoon
    else if valueChanged old new then .valueChanged else .unchanged
  oldTtl := some old.currentTtl
  newTtl := some new.currentTtl
  normalizedOldTtl := ledgerDelta.map (normalizeTtl old.currentTtl)
  oldValue := old.value
  newValue := new.value

/-- An entry of the old snapshot only. -/
def removedEntry (key : String) (old : SnapshotEntry) : DiffEntry where
  key := key
  label := old.label
  status := .removed
  oldTtl := some old.currentTtl
  newTtl := none
  normalizedOldTtl := none
  oldValue := old.value
  newValue := none

/-- An entry of the new snapshot only. -/
def addedEntry (key : String) (new : SnapshotEntry) : DiffEntry where
  key := key
  label := new.label
  status := if new.currentTtl < expiringSoonLedgers then .expiringSoon else .unchanged
  oldTtl := none
  newTtl := some new.currentTtl
  normalizedOldTtl := none
  oldValue := none
  newValue := new.value

/-- The entries of a snapshot under their keys. -/
def StorageSnapshot.map (snapshot : StorageSnapshot) : UnorderedMap String SnapshotEntry :=
  UnorderedMap.collect (snapshot.entries.map fun e => (e.key, e))

/-- An order in which the entries of a hash map are iterated. -/
abbrev IterationOrder := Rearrangement (String × SnapshotEntry)

/-- What the pass over the old map says of an entry. -/
def oldPass (ledgerDelta : Option ℤ) (newMap : UnorderedMap String SnapshotEntry)
    (e : String × SnapshotEntry) : DiffEntry :=
  match newMap.get? e.1 with
  | some newEntry => liveEntry ledgerDelta e.1 e.2 newEntry
  | none => removedEntry e.1 e.2

/-- What the pass over the new map says of an entry. -/
def newPass (oldMap : UnorderedMap String SnapshotEntry) (e : String × SnapshotEntry) :
    Option DiffEntry :=
  if e.1 ∈ oldMap.keys then none else some (addedEntry e.1 e.2)

/-- The entries of the difference: those of the old map, then those that only the new one has,
sorted by their keys. -/
def diffEntries (oldOrder newOrder : IterationOrder) (ledgerDelta : Option ℤ)
    (old new : StorageSnapshot) :
    List DiffEntry :=
  let fromOld := (old.map.rearrange oldOrder).entries.map (oldPass ledgerDelta new.map)
  let fromNew := (new.map.rearrange newOrder).entries.filterMap (newPass old.map)
  (fromOld ++ fromNew).mergeSort fun a b => a.key ≤ b.key

/-- `diff_snapshots`. -/
def diffSnapshots (oldOrder newOrder : IterationOrder) (old new : StorageSnapshot) :
    Except SnapshotError SnapshotDiff :=
  if old.contractId ≠ new.contractId then .error (.contractIdMismatch old.contractId new.contractId)
  else
    match old.network, new.network with
    | some oldNet, some newNet =>
      if oldNet ≠ newNet then .error (.networkMismatch oldNet newNet)
      else .ok (compareAll (some oldNet))
    | oldNet, newNet => .ok (compareAll (oldNet.or newNet))
where
  /-- The difference, once both snapshots are known to be of one contract and network. -/
  compareAll (network : Option String) : SnapshotDiff :=
    let ledgerDelta :=
      match old.latestLedger, new.latestLedger with
      | some oldL, some newL => some ((newL.toNat : ℤ) - oldL.toNat)
      | _, _ => none
    { contractId := old.contractId
      oldLedger := old.latestLedger
      newLedger := new.latestLedger
      ledgerDelta := ledgerDelta
      network := network
      captureContext :=
        if old.latestLedger.isNone || new.latestLedger.isNone || old.network.isNone
          || new.network.isNone then
          some "unknown"
        else none
      entries := diffEntries oldOrder newOrder ledgerDelta old new }

/-! ### The plan -/

/-- The entry needs remediation. -/
def DiffEntry.isActionable (entry : DiffEntry) : Bool :=
  entry.status = .removed || entry.status = .expiringSoon

/-- `SnapshotDiff::actionable`. -/
def SnapshotDiff.actionable (diff : SnapshotDiff) : List DiffEntry := diff.entries.filter
    (·.isActionable)

/-- `ExtendPlan`. -/
structure ExtendPlan where
  contractId : String
  keys : List String
  suggestedLedgers : UInt32
  suggestedLedgersReason : String
  deriving DecidableEq

/-- The least time to live of the entries that expire soon. -/
def minRemaining (actionable : List DiffEntry) : Option UInt32 :=
  (actionable.filterMap fun e => if e.status = .expiringSoon then e.newTtl else none).min?

/-- `derive_extend_plan`. -/
def deriveExtendPlan (diff : SnapshotDiff) : ExtendPlan :=
  if diff.actionable.isEmpty then
    { contractId := diff.contractId
      keys := []
      suggestedLedgers := defaultSuggestedLedgers
      suggestedLedgersReason := "No actionable entries; nothing to extend." }
  else
    match minRemaining diff.actionable with
    | some minTtl =>
      let suggested := Saturating.add minTtl defaultSuggestedLedgers
      { contractId := diff.contractId
        keys := diff.actionable.map (·.key)
        suggestedLedgers := suggested
        suggestedLedgersReason :=
          s!"Minimum remaining TTL of expiring entries is {minTtl} ledgers; " ++
          s!"suggested {suggested} (min_ttl + {defaultSuggestedLedgers} default horizon)." }
    | none =>
      { contractId := diff.contractId
        keys := diff.actionable.map (·.key)
        suggestedLedgers := defaultSuggestedLedgers
        suggestedLedgersReason := "All actionable entries are removed (no remaining TTL); " ++
          s!"defaulting to {defaultSuggestedLedgers} ledgers (~30 days)." }

/-! ### The maps -/

/-- The keys of a snapshot are distinct. -/
def StorageSnapshot.KeysDistinct (snapshot : StorageSnapshot) : Prop :=
  (snapshot.entries.map SnapshotEntry.key).Nodup

instance (snapshot : StorageSnapshot) : Decidable snapshot.KeysDistinct :=
  inferInstanceAs (Decidable (List.Nodup _))

/-- What a snapshot has under a key. -/
def StorageSnapshot.entryOf (snapshot : StorageSnapshot) (key : String) : Option SnapshotEntry :=
  snapshot.entries.find? fun e => e.key = key

/-- What is said of a key, from what both snapshots have under it. -/
def diffEntry (ledgerDelta : Option ℤ) (key : String) :
    Option SnapshotEntry → Option SnapshotEntry → Option DiffEntry
  | some old, some new => some (liveEntry ledgerDelta key old new)
  | some old, none => some (removedEntry key old)
  | none, some new => some (addedEntry key new)
  | none, none => none

section

variable {snapshot old new : StorageSnapshot} {ledgerDelta : Option ℤ} {key : String}
  {entry : DiffEntry}

theorem entryOf_eq_some_iff (h : snapshot.KeysDistinct) {e : SnapshotEntry} :
    snapshot.entryOf key = some e ↔ e ∈ snapshot.entries ∧ e.key = key := by
  constructor
  · intro hfind
    exact ⟨List.mem_of_find?_eq_some hfind, by simpa using List.find?_some hfind⟩
  · rintro ⟨hmem, rfl⟩
    cases hfind : snapshot.entryOf e.key with
    | none => exact absurd hmem fun hmem => by simpa using List.find?_eq_none.mp hfind e hmem
    | some e' =>
      have hkey : e'.key = e.key := by simpa using List.find?_some hfind
      rw [List.inj_on_of_nodup_map h (List.mem_of_find?_eq_some hfind) hmem hkey]

theorem map_keyed (h : snapshot.KeysDistinct) :
    ((snapshot.entries.map fun e => (e.key, e)).map Prod.fst).Nodup := by
  rw [List.map_map]
  exact h

theorem entries_map (h : snapshot.KeysDistinct) :
    snapshot.map.entries = snapshot.entries.map fun e => (e.key, e) :=
  UnorderedMap.entries_collect (map_keyed h)

theorem get?_map (h : snapshot.KeysDistinct) : snapshot.map.get? key = snapshot.entryOf key := by
  refine Option.ext fun e => ?_
  rw [UnorderedMap.get?_eq_some, entries_map h, entryOf_eq_some_iff h, List.mem_map]
  constructor
  · rintro ⟨e', hmem, heq⟩
    obtain ⟨rfl, rfl⟩ := Prod.mk.inj heq
    exact ⟨hmem, rfl⟩
  · rintro ⟨hmem, rfl⟩
    exact ⟨e, hmem, rfl⟩

theorem mem_rearrange_iff (order : IterationOrder) (h : snapshot.KeysDistinct) {e : SnapshotEntry} :
    (key, e) ∈ (snapshot.map.rearrange order).entries ↔ snapshot.entryOf key = some e := by
  rw [List.Perm.mem_iff (UnorderedMap.rearrange_sameEntries order snapshot.map),
    ← UnorderedMap.get?_eq_some,
    get?_map h]

theorem mem_keys_map_iff (h : snapshot.KeysDistinct) :
    key ∈ snapshot.map.keys ↔ (snapshot.entryOf key).isSome := by
  rw [UnorderedMap.keys, List.mem_map, Option.isSome_iff_exists]
  constructor
  · rintro ⟨⟨k, e⟩, hmem, rfl⟩
    exact ⟨e, by rw [← get?_map h]; exact UnorderedMap.get?_eq_some.mpr hmem⟩
  · rintro ⟨e, he⟩
    exact ⟨(key, e), UnorderedMap.get?_eq_some.mp (by rw [get?_map h, he]), rfl⟩

/-- What is said of a key is listed under it. -/
theorem key_diffEntry {o n : Option SnapshotEntry}
    (h : diffEntry ledgerDelta key o n = some entry) :
    entry.key = key := by
  cases o <;> cases n <;> cases h <;> rfl

/-- What the first pass says of a key of the old map. -/
theorem oldPass_eq (hnew : new.KeysDistinct) (o : SnapshotEntry) :
    some (oldPass ledgerDelta new.map (key, o)) = diffEntry ledgerDelta key (some o)
      (new.entryOf key) := by
  rw [oldPass, get?_map hnew]
  cases new.entryOf key with
  | some n => rfl
  | none => rfl

/-- What the second pass says of a key of the new map. -/
theorem newPass_eq_some_iff (hold : old.KeysDistinct) {n : SnapshotEntry} :
    newPass old.map (key, n) = some entry ↔ old.entryOf key = none ∧ entry = addedEntry key n := by
  have hkey : key ∈ old.map.keys ↔ ¬ old.entryOf key = none := by
    rw [mem_keys_map_iff hold, Option.isSome_iff_ne_none]
  rw [newPass]
  by_cases hk : key ∈ old.map.keys
  · rw [if_pos hk]
    exact iff_of_false (Option.some_ne_none entry).symm fun h => hkey.mp hk h.1
  · rw [if_neg hk, Option.some_inj]
    exact ⟨fun h => ⟨not_not.mp fun hnone => hk (hkey.mpr hnone), h.symm⟩, fun h => h.2.symm⟩

/-- **What is listed** is what is said of its key. -/
theorem mem_diffEntries_iff (oldOrder newOrder : IterationOrder) (hold : old.KeysDistinct)
    (hnew : new.KeysDistinct) :
    entry ∈ diffEntries oldOrder newOrder ledgerDelta old new ↔
      diffEntry ledgerDelta entry.key (old.entryOf entry.key) (new.entryOf entry.key) =
        some entry := by
  rw [diffEntries, List.mem_mergeSort, List.mem_append, List.mem_map, List.mem_filterMap]
  constructor
  · rintro (⟨⟨k, o⟩, hmem, hpass⟩ | ⟨⟨k, n⟩, hmem, hpass⟩)
    · have ho := (mem_rearrange_iff oldOrder hold).mp hmem
      have hentry : diffEntry ledgerDelta k (old.entryOf k) (new.entryOf k) = some entry := by
        rw [ho, ← oldPass_eq hnew, hpass]
      rwa [key_diffEntry hentry]
    · have hn := (mem_rearrange_iff newOrder hnew).mp hmem
      obtain ⟨ho, rfl⟩ := (newPass_eq_some_iff hold).mp hpass
      show diffEntry ledgerDelta k (old.entryOf k) (new.entryOf k) = _
      rw [ho, hn, diffEntry]
  · intro h
    cases ho : old.entryOf entry.key with
    | some o =>
      refine Or.inl ⟨(entry.key, o), (mem_rearrange_iff oldOrder hold).mpr ho, ?_⟩
      rw [ho, ← oldPass_eq hnew] at h
      exact Option.some.inj h
    | none =>
      rw [ho] at h
      cases hn : new.entryOf entry.key with
      | some n =>
        rw [hn] at h
        exact Or.inr ⟨(entry.key, n), (mem_rearrange_iff newOrder hnew).mpr hn,
          (newPass_eq_some_iff hold).mpr ⟨ho, (Option.some.inj h).symm⟩⟩
      | none =>
        rw [hn] at h
        exact absurd h.symm (Option.some_ne_none entry)

theorem keys_oldPass (newMap : UnorderedMap String SnapshotEntry)
    (l : List (String × SnapshotEntry)) :
    (l.map (oldPass ledgerDelta newMap)).map DiffEntry.key = l.map Prod.fst := by
  rw [List.map_map]
  refine List.map_congr_left fun e _ => ?_
  rw [Function.comp_apply, oldPass]
  cases newMap.get? e.1 with
  | some n => rfl
  | none => rfl

theorem keys_newPass (oldMap : UnorderedMap String SnapshotEntry)
    (l : List (String × SnapshotEntry)) :
    (l.filterMap (newPass oldMap)).map DiffEntry.key = (l.map Prod.fst).filter fun k =>
      k ∉ oldMap.keys := by
  induction l with
  | nil => rfl
  | cons e l ih =>
    by_cases hk : e.1 ∈ oldMap.keys
    · have hpass : newPass oldMap e = none := if_pos hk
      rw [List.filterMap_cons_none hpass, List.map_cons,
        List.filter_cons_of_neg (by simpa using hk), ih]
    · have hpass : newPass oldMap e = some (addedEntry e.1 e.2) := if_neg hk
      rw [List.filterMap_cons_some hpass, List.map_cons, List.map_cons,
        List.filter_cons_of_pos (by simpa using hk), ih]
      rfl

/-- The keys of both passes are distinct. -/
theorem nodup_passes (oldOrder newOrder : IterationOrder) (old new : StorageSnapshot) :
    (((old.map.rearrange oldOrder).entries.map (oldPass ledgerDelta new.map) ++
      (new.map.rearrange newOrder).entries.filterMap (newPass old.map)).map
        DiffEntry.key).Nodup := by
  rw [List.map_append, keys_oldPass, keys_newPass, List.nodup_append]
  refine ⟨(old.map.rearrange oldOrder).nodup, (new.map.rearrange newOrder).nodup.filter _, ?_⟩
  rintro k hk k' hk' rfl
  have hnotMem : k ∉ old.map.keys := by simpa using (List.mem_filter.mp hk').2
  exact hnotMem ((UnorderedMap.rearrange_sameEntries oldOrder old.map).keys_perm.mem_iff.mp hk)

/-- **The order of what is listed**: the keys are strictly increasing. -/
theorem diffEntries_increasing (oldOrder newOrder : IterationOrder) (ledgerDelta : Option ℤ)
    (old new : StorageSnapshot) :
    (diffEntries oldOrder newOrder ledgerDelta old new).Pairwise fun a b => a.key < b.key := by
  have hle : (diffEntries oldOrder newOrder ledgerDelta old new).Pairwise
      fun a b => decide (a.key ≤ b.key) = true := by
    refine List.pairwise_mergeSort (fun a b c hab hbc => ?_) (fun a b => ?_) _
    · exact decide_eq_true ((of_decide_eq_true hab).trans (of_decide_eq_true hbc))
    · rw [Bool.or_eq_true, decide_eq_true_iff, decide_eq_true_iff]
      exact le_total a.key b.key
  have hne : ((diffEntries oldOrder newOrder ledgerDelta old new).map DiffEntry.key).Nodup :=
    ((List.mergeSort_perm _ _).map DiffEntry.key).nodup_iff.mpr
      (nodup_passes oldOrder newOrder old new)
  exact (hle.and (List.pairwise_map.mp hne)).imp fun h => lt_of_le_of_ne (of_decide_eq_true h.1) h.2

end

/-! ### The difference is a function of the maps -/

/-- Lists in the strict order of their keys that have the same elements are the same. -/
theorem eq_of_increasing {l l' : List DiffEntry} (h : l.Pairwise fun a b => a.key < b.key)
    (h' : l'.Pairwise fun a b => a.key < b.key) (hmem : ∀ e, e ∈ l ↔ e ∈ l') : l = l' := by
  have hnodup : ∀ {l : List DiffEntry}, (l.Pairwise fun a b => a.key < b.key) → l.Nodup := fun hl =>
    hl.imp fun hab heq => (heq ▸ hab).ne rfl
  have hperm := (List.perm_ext_iff_of_nodup (hnodup h) (hnodup h')).mpr hmem
  have hasymm : ∀ a b : DiffEntry, a ∈ l → b ∈ l' → a.key < b.key → b.key < a.key → a = b :=
    fun _ _ _ _ hab hba => absurd hab hba.asymm
  exact List.Perm.eq_of_pairwise hasymm h h' hperm

/-- Both snapshots capture the same map in the same context. -/
structure SameMap (snapshot snapshot' : StorageSnapshot) : Prop where
  contractId : snapshot.contractId = snapshot'.contractId
  latestLedger : snapshot.latestLedger = snapshot'.latestLedger
  network : snapshot.network = snapshot'.network
  entries : snapshot.entries.Perm snapshot'.entries

theorem SameMap.keysDistinct {s s' : StorageSnapshot} (h : SameMap s s') (hs : s.KeysDistinct) :
    s'.KeysDistinct :=
  (h.entries.map SnapshotEntry.key).nodup_iff.mp hs

theorem SameMap.entryOf_eq {s s' : StorageSnapshot} (h : SameMap s s') (hs : s.KeysDistinct)
    (key : String) :
    s.entryOf key = s'.entryOf key := by
  ext e
  rw [entryOf_eq_some_iff hs, entryOf_eq_some_iff (h.keysDistinct hs), h.entries.mem_iff]

/-- **The order of the entries and the iteration of the maps do not matter.** -/
theorem diffSnapshots_congr (oldOrder newOrder oldOrder' newOrder' : IterationOrder)
    {old new old' new' : StorageSnapshot} (hold : old.KeysDistinct) (hnew : new.KeysDistinct)
    (hsameOld : SameMap old old') (hsameNew : SameMap new new') :
    diffSnapshots oldOrder newOrder old new = diffSnapshots oldOrder' newOrder' old' new' := by
  have hentries : ∀ delta, diffEntries oldOrder newOrder delta old new =
      diffEntries oldOrder' newOrder' delta old' new' := fun delta => by
    refine eq_of_increasing (diffEntries_increasing _ _ _ _ _)
      (diffEntries_increasing _ _ _ _ _) fun e => ?_
    rw [mem_diffEntries_iff oldOrder newOrder hold hnew,
      mem_diffEntries_iff oldOrder' newOrder' (hsameOld.keysDistinct hold)
        (hsameNew.keysDistinct hnew),
      hsameOld.entryOf_eq hold, hsameNew.entryOf_eq hnew]
  simp only [diffSnapshots, diffSnapshots.compareAll, hentries, hsameOld.contractId,
    hsameNew.contractId,
    hsameOld.latestLedger, hsameNew.latestLedger, hsameOld.network, hsameNew.network]

/-- When the snapshots are of one contract and no two networks are recorded, they are compared. -/
theorem exists_diffSnapshots_eq_ok (oldOrder newOrder : IterationOrder) {old new : StorageSnapshot}
    (hcontract : old.contractId = new.contractId)
    (hnetwork : ∀ o ∈ old.network, ∀ n ∈ new.network, o = n) :
    ∃ network, diffSnapshots oldOrder newOrder old new =
      .ok (diffSnapshots.compareAll oldOrder newOrder old new network) := by
  rw [diffSnapshots, if_neg (not_not.mpr hcontract)]
  cases ho : old.network with
  | none => exact ⟨_, rfl⟩
  | some o =>
    cases hn : new.network with
    | none => exact ⟨_, rfl⟩
    | some n => exact ⟨some o, if_neg (not_not.mpr (hnetwork o ho n hn))⟩

/-- What is compared is the difference of the entries. -/
theorem entries_of_diffSnapshots {oldOrder newOrder : IterationOrder} {old new : StorageSnapshot}
    {diff : SnapshotDiff} (h : diffSnapshots oldOrder newOrder old new = .ok diff) :
    diff.entries = diffEntries oldOrder newOrder diff.ledgerDelta old new := by
  rw [diffSnapshots] at h
  by_cases hcontract : old.contractId ≠ new.contractId
  · rw [if_pos hcontract] at h
    exact nomatch h
  rw [if_neg hcontract] at h
  cases ho : old.network with
  | none =>
    rw [ho] at h
    cases h
    rfl
  | some o =>
    cases hn : new.network with
    | none =>
      rw [ho, hn] at h
      cases h
      rfl
    | some n =>
      rw [ho, hn] at h
      by_cases hne : o ≠ n
      · simp only [if_pos hne] at h
        exact nomatch h
      · simp only [if_neg hne] at h
        cases h
        rfl

/-! ### What the difference says -/

/-- The difference of the ledgers of two snapshots. -/
def ledgerDeltaOf (old new : StorageSnapshot) : Option ℤ :=
  old.latestLedger.bind fun o => new.latestLedger.map fun n => (n.toNat : ℤ) - o.toNat

/-- Both entries have a value, and they differ. -/
def ValuesDiffer (old new : Option SnapshotEntry) : Prop :=
  ∃ o ∈ old, ∃ n ∈ new, ∃ v ∈ o.value, ∃ w ∈ n.value, v ≠ w

/-- The entry lives for less than a day. -/
def ExpiresSoon (new : Option SnapshotEntry) : Prop := ∃ n ∈ new, n.currentTtl < expiringSoonLedgers

/-- The difference of two snapshots, as a function of their maps. -/
structure DiffExact (old new : StorageSnapshot) (diff : SnapshotDiff) : Prop where
  increasing : (diff.entries.map DiffEntry.key).Pairwise (· < ·)
  mem_keys : ∀ k, k ∈ diff.entries.map DiffEntry.key ↔ (old.entryOf k).isSome ∨
    (new.entryOf k).isSome
  removed : ∀ e ∈ diff.entries, (e.status = .removed ↔ new.entryOf e.key = none)
  expiringSoon : ∀ e ∈ diff.entries, (e.status = .expiringSoon ↔ ExpiresSoon (new.entryOf e.key))
  valueChanged : ∀ e ∈ diff.entries, (e.status = .valueChanged ↔
    ¬ ExpiresSoon (new.entryOf e.key) ∧ ValuesDiffer (old.entryOf e.key) (new.entryOf e.key))
  normalized : ∀ e ∈ diff.entries, ∀ o n delta, old.entryOf e.key = some o →
    new.entryOf e.key = some n →
    ledgerDeltaOf old new = some delta → ∃ ttl, e.normalizedOldTtl = some ttl ∧
      (ttl.toNat : ℤ) = max 0 (min 0xffffffff ((o.currentTtl.toNat : ℤ) - delta))

/-- **The old time to live at the new ledger** is clamped to what 32 bits hold, and nothing
overflows. -/
theorem toNat_normalizeTtl (oldTtl o n : UInt32) :
    ((normalizeTtl oldTtl ((n.toNat : ℤ) - o.toNat)).toNat : ℤ) =
      max 0 (min 0xffffffff ((oldTtl.toNat : ℤ) - ((n.toNat : ℤ) - o.toNat))) := by
  have hold := oldTtl.toNat_lt
  have ho := o.toNat_lt
  have hn := n.toNat_lt
  have hofNat : ∀ k : ℕ, k < 2 ^ 32 → (UInt32.ofNat k).toNat = k := fun k hk =>
    UInt32.toNat_ofNat_of_lt' hk
  rw [normalizeTtl]
  by_cases hdelta : (n.toNat : ℤ) - o.toNat ≥ 0
  · rw [if_pos hdelta, Saturating.toNat_sub, hofNat ((n.toNat : ℤ) - o.toNat).toNat (by omega)]
    omega
  · rw [if_neg hdelta, Saturating.toNat_add, hofNat ((n.toNat : ℤ) - o.toNat).natAbs (by omega)]
    omega

section

variable {o n : Option SnapshotEntry} {ledgerDelta : Option ℤ} {key : String} {entry : DiffEntry}

theorem valueChanged_iff {old new : SnapshotEntry} :
    valueChanged old new = true ↔ ValuesDiffer (some old) (some new) := by
  rw [valueChanged, ValuesDiffer]
  constructor
  · intro h
    cases ho : old.value with
    | none =>
      rw [ho] at h
      exact absurd h Bool.false_ne_true
    | some v =>
      cases hn : new.value with
      | none =>
        rw [ho, hn] at h
        exact absurd h Bool.false_ne_true
      | some w =>
        rw [ho, hn] at h
        exact ⟨old, rfl, new, rfl, v, ho, w, hn, of_decide_eq_true h⟩
  · rintro ⟨o, ho, n, hn, v, hv, w, hw, hne⟩
    obtain rfl := Option.some.inj ho
    obtain rfl := Option.some.inj hn
    rw [Option.mem_def] at hv hw
    rw [hv, hw]
    exact decide_eq_true hne

/-- **The status of a key** as what both snapshots have under it decides it. -/
theorem status_of_diffEntry (h : diffEntry ledgerDelta key o n = some entry) :
    (entry.status = .removed ↔ n = none) ∧ (entry.status = .expiringSoon ↔ ExpiresSoon n) ∧
      (entry.status = .valueChanged ↔ ¬ ExpiresSoon n ∧ ValuesDiffer o n) := by
  have hsome : ∀ new : SnapshotEntry, ExpiresSoon (some new) ↔
    new.currentTtl < expiringSoonLedgers :=
    fun new => ⟨fun ⟨_, hn, hlt⟩ => Option.some.inj hn ▸ hlt, fun hlt => ⟨new, rfl, hlt⟩⟩
  have hnoneSoon : ¬ ExpiresSoon none := fun ⟨_, hn, _⟩ => Option.not_mem_none _ hn
  have hnoneOld : ∀ m, ¬ ValuesDiffer none m := fun _ ⟨_, ho, _⟩ => Option.not_mem_none _ ho
  have hnoneNew : ∀ m, ¬ ValuesDiffer m none := fun _ ⟨_, _, _, hn, _⟩ => Option.not_mem_none _ hn
  cases n with
  | none =>
    cases o with
    | none => exact absurd h.symm (Option.some_ne_none entry)
    | some old =>
      cases h
      simp [removedEntry, hnoneSoon, hnoneNew]
  | some new =>
    rw [hsome]
    cases o with
    | none =>
      cases h
      by_cases hlt : new.currentTtl < expiringSoonLedgers <;> simp [addedEntry, hlt, hnoneOld]
    | some old =>
      cases h
      rw [← valueChanged_iff]
      by_cases hlt : new.currentTtl < expiringSoonLedgers
      · simp [liveEntry, hlt]
      · by_cases hvalue : valueChanged old new = true <;> simp [liveEntry, hlt, hvalue]

theorem isSome_diffEntry (ledgerDelta : Option ℤ) (key : String) :
    (diffEntry ledgerDelta key o n).isSome ↔ o.isSome ∨ n.isSome := by
  cases o <;> cases n <;> simp [diffEntry]

end

/-- **The difference** of two snapshots with distinct keys. -/
theorem diffExact_of_diffSnapshots {oldOrder newOrder : IterationOrder} {old new : StorageSnapshot}
    (hold : old.KeysDistinct) (hnew : new.KeysDistinct) {diff : SnapshotDiff}
    (hdelta : diff.ledgerDelta = ledgerDeltaOf old new)
    (hentries : diff.entries = diffEntries oldOrder newOrder diff.ledgerDelta old new) :
    DiffExact old new diff := by
  have hsaid : ∀ {e}, e ∈ diff.entries →
      diffEntry diff.ledgerDelta e.key (old.entryOf e.key) (new.entryOf e.key) = some e :=
        fun {e} he => by
    rw [hentries] at he
    exact (mem_diffEntries_iff oldOrder newOrder hold hnew).mp he
  refine ⟨?_, fun k => ?_, fun e he => (status_of_diffEntry (hsaid he)).1,
    fun e he => (status_of_diffEntry (hsaid he)).2.1, fun e he =>
      (status_of_diffEntry (hsaid he)).2.2, ?_⟩
  · rw [hentries, List.pairwise_map]
    exact diffEntries_increasing oldOrder newOrder diff.ledgerDelta old new
  · rw [List.mem_map, ← isSome_diffEntry diff.ledgerDelta k, Option.isSome_iff_exists]
    constructor
    · rintro ⟨e, he, rfl⟩
      exact ⟨e, hsaid he⟩
    · rintro ⟨e, he⟩
      obtain rfl := key_diffEntry he
      refine ⟨e, ?_, rfl⟩
      rw [hentries]
      exact (mem_diffEntries_iff oldOrder newOrder hold hnew).mpr he
  · intro e he o n delta ho hn hd
    have hentry := hsaid he
    rw [ho, hn, hdelta, hd] at hentry
    rw [ledgerDeltaOf, Option.bind_eq_some_iff] at hd
    obtain ⟨ol, hol, hd⟩ := hd
    obtain ⟨nl, hnl, rfl⟩ := Option.map_eq_some_iff.mp hd
    refine ⟨normalizeTtl o.currentTtl ((nl.toNat : ℤ) - ol.toNat), ?_, toNat_normalizeTtl _ _ _⟩
    rw [← Option.some.inj hentry]
    rfl

/-- Snapshots of one contract and network are compared, and the difference is exact. -/
theorem exists_diffExact (oldOrder newOrder : IterationOrder) {old new : StorageSnapshot}
    (hcontract : old.contractId = new.contractId)
      (hnetwork : ∀ o ∈ old.network, ∀ n ∈ new.network, o = n)
    (hold : old.KeysDistinct) (hnew : new.KeysDistinct) :
    ∃ diff, diffSnapshots oldOrder newOrder old new = .ok diff ∧ DiffExact old new diff := by
  obtain ⟨network, hok⟩ := exists_diffSnapshots_eq_ok oldOrder newOrder hcontract hnetwork
  have hdelta : (diffSnapshots.compareAll oldOrder newOrder old new network).ledgerDelta =
      ledgerDeltaOf old new := by
    rw [diffSnapshots.compareAll, ledgerDeltaOf]
    cases old.latestLedger with
    | none => rfl
    | some o =>
      cases new.latestLedger with
      | none => rfl
      | some n => rfl
  exact ⟨_, hok, diffExact_of_diffSnapshots hold hnew hdelta (entries_of_diffSnapshots hok)⟩

/-! ### What the plan asks for -/

/-- The plan lists the entries that are removed or expire soon. -/
structure PlanExact (diff : SnapshotDiff) (plan : ExtendPlan) : Prop where
  nodup : plan.keys.Nodup
  mem_keys : ∀ k, k ∈ plan.keys ↔
    ∃ e ∈ diff.entries, e.key = k ∧ (e.status = .removed ∨ e.status = .expiringSoon)

/-- An entry that is planned for lives at least as long as suggested, and the others live on. -/
def RaisedBy (plan : ExtendPlan) (entry raised : SnapshotEntry) : Prop :=
  raised.key = entry.key ∧
    if entry.key ∈ plan.keys then plan.suggestedLedgers ≤ raised.currentTtl
    else raised.currentTtl = entry.currentTtl

instance (plan : ExtendPlan) (entry raised : SnapshotEntry) :
    Decidable (RaisedBy plan entry raised) :=
  inferInstanceAs (Decidable (_ ∧ _))

theorem keys_deriveExtendPlan (diff : SnapshotDiff) :
    (deriveExtendPlan diff).keys = diff.actionable.map DiffEntry.key := by
  rw [deriveExtendPlan]
  by_cases hempty : diff.actionable.isEmpty
  · rw [if_pos hempty, List.isEmpty_iff.mp hempty]
    rfl
  · rw [if_neg hempty]
    cases minRemaining diff.actionable with
    | none => rfl
    | some ttl => rfl

/-- What is suggested is never less than the default. -/
theorem defaultSuggestedLedgers_le (diff : SnapshotDiff) :
    defaultSuggestedLedgers ≤ (deriveExtendPlan diff).suggestedLedgers := by
  rw [deriveExtendPlan]
  by_cases hempty : diff.actionable.isEmpty
  · rw [if_pos hempty]
    exact UInt32.le_refl _
  · rw [if_neg hempty]
    cases minRemaining diff.actionable with
    | none => exact UInt32.le_refl _
    | some ttl =>
      have hdefault : defaultSuggestedLedgers.toNat = 518400 := rfl
      show defaultSuggestedLedgers ≤ Saturating.add ttl defaultSuggestedLedgers
      rw [UInt32.le_iff_toNat_le, Saturating.toNat_add]
      omega

theorem isActionable_iff (entry : DiffEntry) :
    entry.isActionable = true ↔ entry.status = .removed ∨ entry.status = .expiringSoon := by
  rw [DiffEntry.isActionable, Bool.or_eq_true, decide_eq_true_iff, decide_eq_true_iff]

/-- **The plan** lists every entry that needs remediation once. -/
theorem planExact_deriveExtendPlan {diff : SnapshotDiff}
    (hincreasing : (diff.entries.map DiffEntry.key).Pairwise (· < ·)) :
    PlanExact diff (deriveExtendPlan diff) := by
  constructor
  · rw [keys_deriveExtendPlan]
    have hnodup : (diff.entries.map DiffEntry.key).Nodup := hincreasing.imp fun h => h.ne
    exact hnodup.sublist (List.filter_sublist.map _)
  · intro k
    rw [keys_deriveExtendPlan, SnapshotDiff.actionable, List.mem_map]
    constructor
    · rintro ⟨e, he, rfl⟩
      obtain ⟨hmem, hactionable⟩ := List.mem_filter.mp he
      exact ⟨e, hmem, rfl, (isActionable_iff e).mp hactionable⟩
    · rintro ⟨e, hmem, rfl, hstatus⟩
      exact ⟨e, List.mem_filter.mpr ⟨hmem, (isActionable_iff e).mpr hstatus⟩, rfl⟩

/-- Every raised entry is one of those before. -/
theorem exists_of_mem_raised {plan : ExtendPlan} {l l' : List SnapshotEntry}
    (h : List.Forall₂ (RaisedBy plan) l l') {raised : SnapshotEntry} (hmem : raised ∈ l') :
    ∃ entry ∈ l, RaisedBy plan entry raised := by
  induction h with
  | nil => exact absurd hmem List.not_mem_nil
  | @cons entry raised' l l' hentry _ ih =>
    obtain rfl | hmem := List.mem_cons.mp hmem
    · exact ⟨entry, List.mem_cons_self, hentry⟩
    · obtain ⟨entry', hentry', hraised⟩ := ih hmem
      exact ⟨entry', List.mem_cons_of_mem _ hentry', hraised⟩

/-- **After the plan is carried out** nothing expires soon. -/
theorem not_expiresSoon_of_raised {old new raised : StorageSnapshot} {diff : SnapshotDiff}
    (hdiff : DiffExact old new diff)
    (hraised : List.Forall₂ (RaisedBy (deriveExtendPlan diff)) new.entries raised.entries)
    (hnew : new.KeysDistinct) {key : String} : ¬ ExpiresSoon (raised.entryOf key) := by
  rintro ⟨r, hr, hlt⟩
  have hkey : r.key = key := by simpa using List.find?_some hr
  obtain ⟨n, hn, hrn, httl⟩ : ∃ n ∈ new.entries, RaisedBy (deriveExtendPlan diff) n r :=
    exists_of_mem_raised hraised (List.mem_of_find?_eq_some hr)
  by_cases hplanned : n.key ∈ (deriveExtendPlan diff).keys
  · rw [if_pos hplanned] at httl
    have hdefault :=
      UInt32.le_iff_toNat_le.mp (UInt32.le_trans (defaultSuggestedLedgers_le diff) httl)
    have hsoon := UInt32.lt_iff_toNat_lt.mp hlt
    have hvalue : defaultSuggestedLedgers.toNat = 518400 := rfl
    have hvalue' : expiringSoonLedgers.toNat = 17280 := rfl
    omega
  · rw [if_neg hplanned] at httl
    refine hplanned (((planExact_deriveExtendPlan hdiff.increasing).mem_keys _).mpr ?_)
    have hentry : new.entryOf n.key = some n := (entryOf_eq_some_iff hnew).mpr ⟨hn, rfl⟩
    obtain ⟨e, he, hke⟩ :=
      List.mem_map.mp ((hdiff.mem_keys n.key).mpr (Or.inr (by rw [hentry]; rfl)))
    refine ⟨e, he, hke, Or.inr ((hdiff.expiringSoon e he).mpr ?_)⟩
    rw [hke, hentry]
    exact ⟨n, rfl, httl ▸ hlt⟩

/-- **The difference of two snapshots** of one contract with distinct keys is a function of their
maps, and extending what the plan lists by what it suggests leaves nothing that expires soon. -/
theorem diffSnapshots_exact (oldOrder newOrder : IterationOrder) {old new : StorageSnapshot}
    (hcontract : old.contractId = new.contractId)
      (hnetwork : ∀ o ∈ old.network, ∀ n ∈ new.network, o = n)
    (hold : old.KeysDistinct) (hnew : new.KeysDistinct) :
    ∃ diff, diffSnapshots oldOrder newOrder old new = .ok diff ∧ DiffExact old new diff ∧
      (∀ oldOrder' newOrder' old' new', SameMap old old' → SameMap new new' →
        diffSnapshots oldOrder' newOrder' old' new' = .ok diff) ∧
      PlanExact diff (deriveExtendPlan diff) ∧
      ∀ oldOrder' newOrder' baseline raised again, baseline.KeysDistinct →
        List.Forall₂ (RaisedBy (deriveExtendPlan diff)) new.entries raised.entries →
        diffSnapshots oldOrder' newOrder' baseline raised = .ok again →
        ∀ e ∈ again.entries, e.status ≠ .expiringSoon := by
  obtain ⟨diff, hok, hdiff⟩ := exists_diffExact oldOrder newOrder hcontract hnetwork hold hnew
  refine ⟨_, hok, hdiff, fun oldOrder' newOrder' old' new' hsameOld hsameNew => ?_,
    planExact_deriveExtendPlan hdiff.increasing, ?_⟩
  · rw [← diffSnapshots_congr oldOrder newOrder oldOrder' newOrder' hold hnew hsameOld hsameNew,
      hok]
  · intro oldOrder' newOrder' baseline raised again hbaseline hraised hagain e he hsoon
    have hkeys : ∀ {l l'}, List.Forall₂ (RaisedBy (deriveExtendPlan diff)) l l' →
        l'.map SnapshotEntry.key = l.map SnapshotEntry.key := fun h => by
      induction h with
      | nil => rfl
      | cons hentry _ ih => rw [List.map_cons, List.map_cons, hentry.1, ih]
    have hraisedKeys : raised.KeysDistinct := by
      rw [StorageSnapshot.KeysDistinct, hkeys hraised]
      exact hnew
    rw [entries_of_diffSnapshots hagain, mem_diffEntries_iff oldOrder' newOrder' hbaseline
      hraisedKeys] at he
    exact not_expiresSoon_of_raised hdiff hraised hnew ((status_of_diffEntry he).2.1.mp hsoon)

/-- A contract whose balance expires and whose counter was added. -/
def earlier : StorageSnapshot where
  contractId := "C"
  latestLedger := some 1000
  network := some "testnet"
  entries := [⟨"b", none, 20000, some "1"⟩, ⟨"a", none, 30000, none⟩]

/-- The storage of the contract later. -/
def later : StorageSnapshot where
  contractId := "C"
  latestLedger := some 5000
  network := some "testnet"
  entries := [⟨"c", none, 40000, none⟩, ⟨"b", none, 16000, some "1"⟩]

theorem diffSnapshots_exact_later :
    ∃ diff, diffSnapshots Rearrangement.reverse Rearrangement.id earlier later = .ok diff ∧
      DiffExact earlier later diff := by
  have hcontract : earlier.contractId = later.contractId := rfl
  have hnetwork : ∀ o ∈ earlier.network, ∀ n ∈ later.network, o = n :=
    fun _ ho _ hn => Option.some.inj (ho.symm.trans hn)
  obtain ⟨diff, hok, hdiff, -⟩ := diffSnapshots_exact Rearrangement.reverse Rearrangement.id
    hcontract hnetwork (by decide) (by decide)
  exact ⟨diff, hok, hdiff⟩

end SorobanDevkit.Storage
