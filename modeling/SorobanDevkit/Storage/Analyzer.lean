import SorobanDevkit.Library.CanonicalCodec
import SorobanDevkit.Storage.Snapshot
import SorobanDevkit.Xdr.FootprintKeys
import SorobanDevkit.Xdr.ScVal

/-!
# The storage analyzer

The entries of a contract are classified by their keys, and their times to live are summed up
(`sdkt-storage/src/analyzer.rs`). Entries that are no contract data are counted apart, and the
summary leaves them out. A snapshot that is made from the report does not have the classes any more.

The sums are those of 64 bits, which wrap around. The reader of keys and the entries that are
fetched are parameters.

## Main results

* `expiringCount_inspect` — what the analyzer counts.
* `length_expiring_diff` — what the difference counts.
* `expiringAgree_iff` — when both count the same.
-/

namespace SorobanDevkit.Storage

open Xdr (LedgerKey LedgerKeyXdr Limits)

/-! ### Classes -/

/-- `StorageClass`. -/
inductive StorageClass
  | contractInstance
  | persistent
  | temporary
  | other
  deriving DecidableEq

/-- `classify_key`. A key that cannot be decoded is in the last class. -/
def classifyKey (xdr : LedgerKeyXdr LedgerKey) (base64Key : String) : StorageClass :=
  match Base64.decode (Strings.trim base64Key) with
  | none => .other
  | some bytes =>
    match xdr.readXdr Limits.none bytes with
    | .error _ => .other
    | .ok (.contractData _ key durability, _) =>
      if key = .scalar .ledgerKeyContractInstance then .contractInstance
      else
        match durability with
        | .temporary => .temporary
        | .persistent => .persistent
    | .ok _ => .other

/-! ### The report -/

/-- `TtlEntry`, as far as the analyzer reads it. -/
structure TtlEntry where
  key : String
  currentTtl : UInt32
  daysRemaining : UInt32
  extensionCostStroops : UInt64
  value : Option String
  deriving DecidableEq

/-- `TtlInfo`, as far as the analyzer reads it. -/
structure TtlInfo where
  entries : List TtlEntry
  latestLedger : Option UInt32
  deriving DecidableEq

/-- `StorageEntry`. -/
structure StorageEntry where
  key : String
  label : Option String
  class_ : StorageClass
  currentTtl : UInt32
  daysRemaining : UInt32
  extensionCostStroops : UInt64
  value : Option String
  deriving DecidableEq

/-- `TtlInfoSummary`. -/
structure TtlInfoSummary where
  minimumTtl : UInt32
  maximumTtl : UInt32
  averageTtl : UInt32
  expiringEntriesCount : ℕ
  estimatedRentCost : Option UInt64
  deriving DecidableEq

/-- `StorageReport`. -/
structure StorageReport where
  contractId : String := ""
  totalEntries : ℕ := 0
  instanceEntries : ℕ := 0
  persistentEntries : ℕ := 0
  temporaryEntries : ℕ := 0
  otherEntries : ℕ := 0
  totalSizeBytes : Option ℕ := none
  ttlSummary : Option TtlInfoSummary := none
  entries : List StorageEntry := []
  latestLedger : Option UInt32 := none
  network : Option String := none
  deriving DecidableEq

/-- `StorageAnalyzer`, as far as it is used once the entries are fetched. -/
structure StorageAnalyzer where
  network : Option String := none
  expiringSoonLedgers : UInt32 := Storage.expiringSoonLedgers
  deriving DecidableEq

/-- The errors of the analyzer. -/
inductive AnalyzerError
  | invalidContractId (message : String)
  | rpc (message : String)
  deriving DecidableEq

/-- What the loop of the analyzer has summed up. -/
structure Tally where
  minTtl : UInt32 := 0xffffffff
  maxTtl : UInt32 := 0
  totalTtl : UInt64 := 0
  expiringSoon : ℕ := 0
  totalCost : UInt64 := 0
  ttlBearingEntries : ℕ := 0
  instanceEntries : ℕ := 0
  persistentEntries : ℕ := 0
  temporaryEntries : ℕ := 0
  otherEntries : ℕ := 0
  detailed : List StorageEntry := []
  deriving DecidableEq

section

variable (xdr : LedgerKeyXdr LedgerKey)

/-- An entry is counted in its class. -/
def Tally.count (tally : Tally) : StorageClass → Tally
  | .contractInstance => { tally with instanceEntries := tally.instanceEntries + 1 }
  | .persistent => { tally with persistentEntries := tally.persistentEntries + 1 }
  | .temporary => { tally with temporaryEntries := tally.temporaryEntries + 1 }
  | .other => { tally with otherEntries := tally.otherEntries + 1 }

/-- The time to live of an entry is summed up. -/
def Tally.bear (tally : Tally) (threshold : UInt32) (entry : TtlEntry) : Tally :=
  let ttl := entry.currentTtl
  { tally with
    minTtl := if ttl < tally.minTtl then ttl else tally.minTtl
    maxTtl := if ttl > tally.maxTtl then ttl else tally.maxTtl
    totalTtl := tally.totalTtl + ttl.toUInt64
    expiringSoon := if ttl < threshold then tally.expiringSoon + 1 else tally.expiringSoon
    totalCost := tally.totalCost + entry.extensionCostStroops
    ttlBearingEntries := tally.ttlBearingEntries + 1 }

/-- What the report says of an entry. -/
def detail (entry : TtlEntry) : StorageEntry where
  key := entry.key
  label := none
  class_ := classifyKey xdr entry.key
  currentTtl := entry.currentTtl
  daysRemaining := entry.daysRemaining
  extensionCostStroops := entry.extensionCostStroops
  value := entry.value

/-- One step of the loop of the analyzer. -/
def Tally.step (threshold : UInt32) (tally : Tally) (entry : TtlEntry) : Tally :=
  let class_ := classifyKey xdr entry.key
  let counted := tally.count class_
  let summed := if class_ ≠ .other then counted.bear threshold entry else counted
  { summed with detailed := summed.detailed ++ [detail xdr entry] }

/-- The summary of the times to live, if there are any. -/
def Tally.summary (tally : Tally) : Option TtlInfoSummary :=
  if tally.ttlBearingEntries > 0 then
    some {
      minimumTtl := if tally.minTtl = 0xffffffff then 0 else tally.minTtl
      maximumTtl := tally.maxTtl
      averageTtl := (tally.totalTtl / UInt64.ofNat tally.ttlBearingEntries).toUInt32
      expiringEntriesCount := tally.expiringSoon
      estimatedRentCost := some tally.totalCost }
  else none

/-- The loop of the analyzer. -/
def tallyOf (threshold : UInt32) (entries : List TtlEntry) : Tally :=
  entries.foldl (Tally.step xdr threshold) {}

/-- `inspect_contract_storage_keys`, for the entries that are fetched. -/
def inspectContractStorageKeys (analyzer : StorageAnalyzer) (contractId : String)
    (fetched : Except String TtlInfo) : Except AnalyzerError StorageReport :=
  if contractId = "" then .error (.invalidContractId "Contract ID cannot be empty")
  else do
    let ttlInfo ← fetched.mapError .rpc
    if ttlInfo.entries = [] then
      .ok { contractId := contractId, latestLedger := ttlInfo.latestLedger, network :=
        analyzer.network }
    else
      let tally := tallyOf xdr analyzer.expiringSoonLedgers ttlInfo.entries
      .ok {
        contractId := contractId
        totalEntries := ttlInfo.entries.length
        instanceEntries := tally.instanceEntries
        persistentEntries := tally.persistentEntries
        temporaryEntries := tally.temporaryEntries
        otherEntries := tally.otherEntries
        totalSizeBytes := none
        ttlSummary := tally.summary
        entries := tally.detailed
        latestLedger := ttlInfo.latestLedger
        network := analyzer.network }

end

/-- `StorageSnapshot::from_report`. -/
def fromReport (report : StorageReport) : Except SnapshotError StorageSnapshot :=
  if report.totalEntries > 0 ∧ report.entries = [] then
    .error (.parse (s!"Snapshot report for contract '{report.contractId}' has total_entries " ++
      s!"({report.totalEntries}) > 0 but entries array is empty (legacy or summary-only report " ++
      "without per-entry detail)"))
  else
    .ok {
      contractId := report.contractId
      latestLedger := report.latestLedger
      network := report.network
      entries := report.entries.map fun e => ⟨e.key, e.label, e.currentTtl, e.value⟩ }

/-! ### What the analyzer counts -/

section

variable {xdr : LedgerKeyXdr LedgerKey} {threshold : UInt32}

/-- An entry that the analyzer counts as expiring. -/
def CountsAsExpiring (xdr : LedgerKeyXdr LedgerKey) (threshold : UInt32)
    (entry : TtlEntry) : Prop :=
  classifyKey xdr entry.key ≠ .other ∧ entry.currentTtl < threshold

instance (entry : TtlEntry) : Decidable (CountsAsExpiring xdr threshold entry) :=
  inferInstanceAs (Decidable (_ ∧ _))

/-- Counting a class changes nothing else. -/
theorem count_frame (tally : Tally) (class_ : StorageClass) :
    (tally.count class_).expiringSoon = tally.expiringSoon ∧
      (tally.count class_).ttlBearingEntries = tally.ttlBearingEntries ∧
      (tally.count class_).detailed = tally.detailed := by
  cases class_ <;> exact ⟨rfl, rfl, rfl⟩

theorem detailed_step (tally : Tally) (entry : TtlEntry) :
    (tally.step xdr threshold entry).detailed = tally.detailed ++ [detail xdr entry] := by
  rw [Tally.step]
  by_cases hother : classifyKey xdr entry.key ≠ .other
  · simp only [if_pos hother, Tally.bear, count_frame]
  · simp only [if_neg hother, count_frame]

theorem expiringSoon_step (tally : Tally) (entry : TtlEntry) :
    (tally.step xdr threshold entry).expiringSoon =
      tally.expiringSoon + if CountsAsExpiring xdr threshold entry then 1 else 0 := by
  rw [Tally.step]
  by_cases hother : classifyKey xdr entry.key ≠ .other
  · by_cases hlt : entry.currentTtl < threshold
    · have hcounts : CountsAsExpiring xdr threshold entry := ⟨hother, hlt⟩
      simp only [if_pos hother, Tally.bear, if_pos hlt, if_pos hcounts, count_frame]
    · have hcounts : ¬ CountsAsExpiring xdr threshold entry := fun h => hlt h.2
      simp only [if_pos hother, Tally.bear, if_neg hlt, if_neg hcounts, count_frame, add_zero]
  · have hcounts : ¬ CountsAsExpiring xdr threshold entry := fun h => hother h.1
    simp only [if_neg hother, if_neg hcounts, count_frame, add_zero]

theorem ttlBearingEntries_step (tally : Tally) (entry : TtlEntry) :
    (tally.step xdr threshold entry).ttlBearingEntries =
      tally.ttlBearingEntries + if classifyKey xdr entry.key ≠ .other then 1 else 0 := by
  rw [Tally.step]
  by_cases hother : classifyKey xdr entry.key ≠ .other
  · simp only [if_pos hother, Tally.bear, count_frame]
  · simp only [if_neg hother, count_frame, add_zero]

theorem detailed_foldl (tally : Tally) (entries : List TtlEntry) :
    (entries.foldl (Tally.step xdr threshold) tally).detailed = tally.detailed ++ entries.map
      (detail xdr) := by
  induction entries generalizing tally with
  | nil => exact (List.append_nil _).symm
  | cons entry entries ih =>
    rw [List.foldl_cons, ih, detailed_step, List.append_assoc, List.singleton_append, List.map_cons]

theorem expiringSoon_foldl (tally : Tally) (entries : List TtlEntry) :
    (entries.foldl (Tally.step xdr threshold) tally).expiringSoon =
      tally.expiringSoon + (entries.filter (CountsAsExpiring xdr threshold ·)).length := by
  induction entries generalizing tally with
  | nil => rfl
  | cons entry entries ih =>
    rw [List.foldl_cons, ih, expiringSoon_step, List.filter_cons]
    by_cases hcounts : CountsAsExpiring xdr threshold entry
    · rw [if_pos hcounts, if_pos (decide_eq_true hcounts), List.length_cons]
      omega
    · rw [if_neg hcounts, if_neg (by simpa using hcounts), Nat.add_zero]

theorem ttlBearingEntries_foldl (tally : Tally) (entries : List TtlEntry) :
    (entries.foldl (Tally.step xdr threshold) tally).ttlBearingEntries =
      tally.ttlBearingEntries + (entries.filter fun e =>
        classifyKey xdr e.key ≠ .other).length := by
  induction entries generalizing tally with
  | nil => rfl
  | cons entry entries ih =>
    rw [List.foldl_cons, ih, ttlBearingEntries_step, List.filter_cons]
    by_cases hother : classifyKey xdr entry.key ≠ .other
    · rw [if_pos hother, if_pos (decide_eq_true hother), List.length_cons]
      omega
    · rw [if_neg hother, if_neg (by simpa using hother), Nat.add_zero]

/-- The count of a report, and none where there is no summary. -/
def StorageReport.expiringCount (report : StorageReport) : ℕ :=
  (report.ttlSummary.map (·.expiringEntriesCount)).getD 0

/-- **What the analyzer counts**: the entries that have a class and expire soon. -/
theorem expiringCount_summary (entries : List TtlEntry) :
    ((tallyOf xdr threshold entries).summary.map (·.expiringEntriesCount)).getD 0 =
      (entries.filter (CountsAsExpiring xdr threshold ·)).length := by
  have hexpiring : (tallyOf xdr threshold entries).expiringSoon =
      (entries.filter (CountsAsExpiring xdr threshold ·)).length := by
    rw [tallyOf, expiringSoon_foldl]
    exact Nat.zero_add _
  have hbearing : (tallyOf xdr threshold entries).ttlBearingEntries =
      (entries.filter fun e => classifyKey xdr e.key ≠ .other).length := by
    rw [tallyOf, ttlBearingEntries_foldl]
    exact Nat.zero_add _
  rw [Tally.summary]
  by_cases hsome : (tallyOf xdr threshold entries).ttlBearingEntries > 0
  · rw [if_pos hsome]
    exact hexpiring
  · rw [if_neg hsome]
    rw [hbearing, Nat.not_lt, Nat.le_zero, List.length_eq_zero_iff, List.filter_eq_nil_iff] at hsome
    refine (List.length_eq_zero_iff.mpr (List.filter_eq_nil_iff.mpr fun e he => ?_)).symm
    intro hcounts
    exact hsome e he (decide_eq_true (of_decide_eq_true hcounts).1)

end

/-! ### What the difference counts -/

/-- **What the difference of a snapshot with itself counts**: the entries that expire soon. -/
theorem length_expiring_diff {snapshot : StorageSnapshot} {diff : SnapshotDiff}
    (h : snapshot.KeysDistinct)
    (hdiff : DiffExact snapshot snapshot diff) :
    (diff.entries.filter fun e => e.status = .expiringSoon).length =
      (snapshot.entries.filter fun e => e.currentTtl < expiringSoonLedgers).length := by
  have hnodup : (diff.entries.map DiffEntry.key).Nodup := hdiff.increasing.imp fun h => h.ne
  have hmem : ∀ k, k ∈ (diff.entries.filter fun e => e.status = .expiringSoon).map DiffEntry.key ↔
      k ∈ (snapshot.entries.filter fun e => e.currentTtl < expiringSoonLedgers).map
        SnapshotEntry.key := by
    intro k
    rw [List.mem_map, List.mem_map]
    constructor
    · rintro ⟨e, he, rfl⟩
      obtain ⟨hmem, hstatus⟩ := List.mem_filter.mp he
      obtain ⟨s, hs, hlt⟩ := (hdiff.expiringSoon e hmem).mp (of_decide_eq_true hstatus)
      obtain ⟨hsmem, hskey⟩ := (entryOf_eq_some_iff h).mp hs
      exact ⟨s, List.mem_filter.mpr ⟨hsmem, decide_eq_true hlt⟩, hskey⟩
    · rintro ⟨s, hs, rfl⟩
      obtain ⟨hmem, hlt⟩ := List.mem_filter.mp hs
      have hentry : snapshot.entryOf s.key = some s := (entryOf_eq_some_iff h).mpr ⟨hmem, rfl⟩
      obtain ⟨e, he, hkey⟩ :=
        List.mem_map.mp ((hdiff.mem_keys s.key).mpr (Or.inl (by rw [hentry]; rfl)))
      refine ⟨e, List.mem_filter.mpr ⟨he, decide_eq_true ((hdiff.expiringSoon e he).mpr ?_)⟩, hkey⟩
      rw [hkey, hentry]
      exact ⟨s, rfl, of_decide_eq_true hlt⟩
  have hperm := (List.perm_ext_iff_of_nodup (hnodup.sublist (List.filter_sublist.map _))
    (h.sublist (List.filter_sublist.map _))).mpr hmem
  rw [← List.length_map DiffEntry.key, hperm.length_eq, List.length_map]

/-- The plan of a snapshot compared with itself lists what expires soon. -/
theorem length_keys_plan {snapshot : StorageSnapshot} {diff : SnapshotDiff}
    (hdiff : DiffExact snapshot snapshot diff) :
    (deriveExtendPlan diff).keys.length =
      (diff.entries.filter fun e => e.status = .expiringSoon).length := by
  rw [keys_deriveExtendPlan, List.length_map, SnapshotDiff.actionable]
  refine congrArg List.length (List.filter_congr fun e he => ?_)
  have hremoved : e.status ≠ .removed := fun hstatus => by
    have hnone := (hdiff.removed e he).mp hstatus
    have hsome := or_self_iff.mp ((hdiff.mem_keys e.key).mp (List.mem_map_of_mem he))
    rw [hnone] at hsome
    exact Bool.false_ne_true hsome
  rw [Bool.eq_iff_iff, isActionable_iff, decide_eq_true_iff]
  exact or_iff_right hremoved

/-! ### When both count the same -/

/-- The report of the fetched entries becomes a snapshot, the snapshot is compared with itself, and
the summary, the difference and the plan count the same entries. -/
def ExpiringAgree (xdr : LedgerKeyXdr LedgerKey) (network : Option String) (contractId : String)
    (ttlInfo : TtlInfo) : Prop :=
  ∃ report snapshot, inspectContractStorageKeys xdr { network := network } contractId
    (.ok ttlInfo) = .ok report ∧
    fromReport report = .ok snapshot ∧
    ∀ oldOrder newOrder, ∃ diff, diffSnapshots oldOrder newOrder snapshot snapshot = .ok diff ∧
      (diff.entries.filter fun e => e.status = .expiringSoon).length = report.expiringCount ∧
      (deriveExtendPlan diff).keys.length = report.expiringCount

/-- The snapshot of fetched entries. -/
def snapshotOf (network : Option String) (contractId : String) (ttlInfo : TtlInfo) :
    StorageSnapshot where
  contractId := contractId
  latestLedger := ttlInfo.latestLedger
  network := network
  entries := ttlInfo.entries.map fun e => ⟨e.key, none, e.currentTtl, e.value⟩

/-- The report of fetched entries becomes their snapshot. -/
theorem exists_report (xdr : LedgerKeyXdr LedgerKey) (network : Option String) {contractId : String}
    (hcontract : contractId ≠ "") (ttlInfo : TtlInfo) :
    ∃ report, inspectContractStorageKeys xdr { network := network } contractId
      (.ok ttlInfo) = .ok report ∧
      fromReport report = .ok (snapshotOf network contractId ttlInfo) ∧
      report.expiringCount =
        (ttlInfo.entries.filter (CountsAsExpiring xdr expiringSoonLedgers ·)).length := by
  have hinspect : inspectContractStorageKeys xdr { network := network } contractId
    (.ok ttlInfo) = _ :=
    if_neg hcontract
  by_cases hempty : ttlInfo.entries = []
  · refine ⟨_, hinspect.trans (if_pos hempty), ?_, ?_⟩
    · rw [fromReport, if_neg (by simp), snapshotOf, hempty]
      rfl
    · rw [hempty]
      rfl
  · refine ⟨_, hinspect.trans (if_neg hempty), ?_, expiringCount_summary ttlInfo.entries⟩
    have hdetailed : (tallyOf xdr expiringSoonLedgers ttlInfo.entries).detailed =
        ttlInfo.entries.map (detail xdr) := by
      rw [tallyOf, detailed_foldl]
      rfl
    have hne : (tallyOf xdr expiringSoonLedgers ttlInfo.entries).detailed ≠ [] := by
      rw [hdetailed]
      exact fun h => hempty (List.map_eq_nil_iff.mp h)
    rw [fromReport, if_neg fun h => hne h.2]
    simp only [hdetailed, List.map_map, snapshotOf]
    rfl

/-- Both count the same if as many entries expire soon as those that are contract data. -/
theorem expiringAgree_iff_length (xdr : LedgerKeyXdr LedgerKey) (network : Option String)
    {contractId : String}
    (hcontract : contractId ≠ "") (ttlInfo : TtlInfo)
      (hdistinct : (ttlInfo.entries.map TtlEntry.key).Nodup) :
    ExpiringAgree xdr network contractId ttlInfo ↔
      (ttlInfo.entries.filter fun e => e.currentTtl < expiringSoonLedgers).length =
        (ttlInfo.entries.filter (CountsAsExpiring xdr expiringSoonLedgers ·)).length := by
  obtain ⟨report, hreport, hsnapshot, hcount⟩ := exists_report xdr network hcontract ttlInfo
  have hkeys : (snapshotOf network contractId ttlInfo).KeysDistinct := by
    rw [StorageSnapshot.KeysDistinct, snapshotOf, List.map_map]
    exact hdistinct
  have hlength : ((snapshotOf network contractId ttlInfo).entries.filter fun e =>
      e.currentTtl < expiringSoonLedgers).length =
        (ttlInfo.entries.filter fun e => e.currentTtl < expiringSoonLedgers).length := by
    rw [snapshotOf, List.filter_map, List.length_map]
    rfl
  have hdiff : ∀ oldOrder newOrder, ∃ diff, diffSnapshots oldOrder newOrder
      (snapshotOf network contractId ttlInfo) (snapshotOf network contractId ttlInfo) = .ok diff ∧
        DiffExact (snapshotOf network contractId ttlInfo)
          (snapshotOf network contractId ttlInfo) diff := by
    intro oldOrder newOrder
    refine exists_diffExact oldOrder newOrder rfl (fun o ho n hn => ?_) hkeys hkeys
    exact Option.some.inj (ho.symm.trans hn)
  constructor
  · rintro ⟨report', snapshot', hreport', hsnapshot', hall⟩
    obtain rfl := Except.ok.inj (hreport'.symm.trans hreport)
    obtain rfl := Except.ok.inj (hsnapshot'.symm.trans hsnapshot)
    obtain ⟨diff, hok, hexpiring, -⟩ := hall Rearrangement.id Rearrangement.id
    obtain ⟨diff', hok', hexact⟩ := hdiff Rearrangement.id Rearrangement.id
    obtain rfl := Except.ok.inj (hok.symm.trans hok')
    rw [← hlength, ← length_expiring_diff hkeys hexact, hexpiring, hcount]
  · intro hsame
    refine ⟨report, _, hreport, hsnapshot, fun oldOrder newOrder => ?_⟩
    obtain ⟨diff, hok, hexact⟩ := hdiff oldOrder newOrder
    have hexpiring : (diff.entries.filter fun e => e.status = .expiringSoon).length =
      report.expiringCount := by
      rw [length_expiring_diff hkeys hexact, hlength, hcount, hsame]
    exact ⟨diff, hok, hexpiring, by rw [length_keys_plan hexact, hexpiring]⟩

/-- **When both count the same**: no entry that is no contract data has a time to live below the
threshold. -/
theorem expiringAgree_iff (xdr : LedgerKeyXdr LedgerKey) (network : Option String)
    {contractId : String}
    (hcontract : contractId ≠ "") (ttlInfo : TtlInfo)
      (hdistinct : (ttlInfo.entries.map TtlEntry.key).Nodup) :
    ExpiringAgree xdr network contractId ttlInfo ↔
      ∀ e ∈ ttlInfo.entries, classifyKey xdr e.key = .other →
        ¬ e.currentTtl < expiringSoonLedgers := by
  have hfilter : ttlInfo.entries.filter (CountsAsExpiring xdr expiringSoonLedgers ·) =
      (ttlInfo.entries.filter fun e => e.currentTtl < expiringSoonLedgers).filter fun e =>
        classifyKey xdr e.key ≠ .other := by
    rw [List.filter_filter]
    refine List.filter_congr fun e _ => ?_
    rw [← Bool.decide_and]
    rfl
  rw [expiringAgree_iff_length xdr network hcontract ttlInfo hdistinct, hfilter, eq_comm,
    List.length_filter_eq_length_iff]
  constructor
  · intro hall e he hother hlt
    have hclass := hall e (List.mem_filter.mpr ⟨he, decide_eq_true hlt⟩)
    exact of_decide_eq_true hclass hother
  · intro hall e he
    obtain ⟨hmem, hlt⟩ := List.mem_filter.mp he
    exact decide_eq_true fun hother => hall e hmem hother (of_decide_eq_true hlt)

section

open CanonicalCodec (u32 fixed)

/-- The value of a key of contract data at the start of bytes, if it is the key of the instance or a
number. -/
def readKeyValue (bytes : List UInt8) : Option (Xdr.ScVal × List UInt8) := do
  let (arm, rest) ← u32.read bytes
  if arm = 20 then return (.scalar .ledgerKeyContractInstance, rest)
  else if arm = 3 then
    let (n, rest) ← u32.read rest
    return (.scalar (.u32 n), rest)
  else none

/-- The key at the start of bytes, if it is one of data of a contract, of code or of an account. -/
def readKey (bytes : List UInt8) : Option (LedgerKey × List UInt8) := do
  let (arm, rest) ← u32.read bytes
  if arm = 7 then
    let (hash, rest) ← (fixed 32).read rest
    return (.contractCode hash, rest)
  else
    let (kind, rest) ← u32.read rest
    let (id, rest) ← (fixed 32).read rest
    if arm = 0 ∧ kind = 0 then
      return (.other (bigEndian 4 0 ++ bigEndian 4 0 ++ id.toList), rest)
    else if arm = 6 ∧ kind = 1 then
      let (value, rest) ← readKeyValue rest
      let (durability, rest) ← u32.read rest
      if durability = 0 then return (.contractData (.contract id) value .temporary, rest)
      else if durability = 1 then return (.contractData (.contract id) value .persistent, rest)
      else none
    else none

/-- The reader of these keys. -/
def sampleKeys : LedgerKeyXdr LedgerKey where
  readXdr _ bytes :=
    match readKey bytes with
    | some read => .ok read
    | none => .error "xdr value invalid"
  writeXdr
    | _, .contractCode hash => .ok (bigEndian 4 7 ++ hash.toList)
    | _, .other key => .ok key
    | _, _ => .error "unsupported"

end

/-- The key of an account. -/
def accountKey : String := Base64.encode (List.replicate 40 0)

/-- What is fetched for an account. -/
def accountInfo (currentTtl : UInt32) : TtlInfo where
  entries := [⟨accountKey, currentTtl, 0, 0, none⟩]
  latestLedger := some 1000

theorem classifyKey_accountKey : classifyKey sampleKeys accountKey = .other := by
  rw [classifyKey, accountKey, Base64.trim_encode, Base64.decode_encode]
  rfl

/-- The key of data of a contract, with the XDR of its value. -/
def dataKey (value : List UInt8) (durability : ℕ) : String :=
  Base64.encode (bigEndian 4 6 ++ bigEndian 4 1 ++ List.replicate 32 0 ++ value ++
    bigEndian 4 durability)

/-- The key of the instance. -/
def instanceKey : String := dataKey (bigEndian 4 20) 1

/-- The key of data under a number, which are temporary. -/
def numberKey : String := dataKey (bigEndian 4 3 ++ bigEndian 4 7) 0

theorem classifyKey_instanceKey : classifyKey sampleKeys instanceKey = .contractInstance := by
  rw [classifyKey, instanceKey, dataKey, Base64.trim_encode, Base64.decode_encode]
  rfl

theorem classifyKey_numberKey : classifyKey sampleKeys numberKey = .temporary := by
  rw [classifyKey, numberKey, dataKey, Base64.trim_encode, Base64.decode_encode]
  rfl

/-- What is fetched for an account that seems to live long, an instance and data of the
contract. -/
def contractInfo : TtlInfo where
  entries := [⟨accountKey, 20000, 1, 2000000, none⟩, ⟨instanceKey, 9000, 0, 900000, none⟩,
    ⟨numberKey, 500, 0, 50000, none⟩]
  latestLedger := some 1000

/-- The instance and the data expire, in the summary and in the difference. -/
theorem expiringAgree_contract :
    ExpiringAgree sampleKeys (some "testnet") "C" contractInfo ∧
      contractInfo.entries.countP (CountsAsExpiring sampleKeys expiringSoonLedgers ·) = 2 := by
  have hkeys : (contractInfo.entries.map TtlEntry.key).Nodup := by
    refine List.Nodup.of_map (classifyKey sampleKeys) ?_
    simp [contractInfo, classifyKey_accountKey, classifyKey_instanceKey, classifyKey_numberKey]
  refine ⟨(expiringAgree_iff sampleKeys (some "testnet") (by decide) contractInfo hkeys).mpr ?_, ?_⟩
  · simp [contractInfo, classifyKey_instanceKey, classifyKey_numberKey, expiringSoonLedgers]
  · simp [contractInfo, CountsAsExpiring, classifyKey_accountKey, classifyKey_instanceKey,
      classifyKey_numberKey, expiringSoonLedgers]

/-- An account, which has no time to live, counts as expiring in the difference, but not in the
summary. -/
theorem not_expiringAgree_account : ¬ ExpiringAgree sampleKeys (some "testnet") "C"
    (accountInfo 0) := by
  intro h
  rw [expiringAgree_iff_length sampleKeys (some "testnet") (by decide) (accountInfo 0)
    (by decide)] at h
  have hcounts : ¬ CountsAsExpiring sampleKeys expiringSoonLedgers ⟨accountKey, 0, 0, 0, none⟩ :=
    fun hcounts => hcounts.1 classifyKey_accountKey
  rw [accountInfo, List.filter_cons_of_pos (by decide),
    List.filter_cons_of_neg (by simpa using hcounts)] at h
  exact absurd h (by decide)

end SorobanDevkit.Storage
