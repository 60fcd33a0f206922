import SorobanDevkit.Library.CheckedWords
import SorobanDevkit.Library.Saturating
import SorobanDevkit.Rpc.LedgerReads
import SorobanDevkit.Storage.Analyzer

/-!
# The arithmetic of times to live

`get_ttl_info_for_keys` of `sdkt-rpc/src/storage.rs` turns the entries that are fetched into times
to live, days and costs, and the storage analyzer sums them up. Here every product and every sum is
checked for overflow, as in builds that stop there.

The seconds that an entry lives are computed in 32 bits, which holds some 27 years.

## Main results

* `tallyChecked_eq_some_iff` — when the sums of the analyzer do not overflow.
* `summary_between` — the average lies between the minimum and the maximum.
* `ttlReportSound_iff` — the report is sound exactly if the times to live fit.
-/

namespace SorobanDevkit.Storage

open Rpc (LedgerEntryResult StorageResponse)
open Xdr (LedgerKey LedgerKeyXdr)

/-! ### The report -/

/-- `TtlEntry`, whole. -/
structure ReportedTtl extends TtlEntry where
  expirationTime : String
  expiringSoon : Bool
  deriving DecidableEq

/-- `TtlInfo`, whole. -/
structure TtlReport where
  contractId : String
  entries : List ReportedTtl
  latestLedger : Option UInt32
  deriving DecidableEq

/-- What the analyzer reads of a report. -/
def TtlReport.toTtlInfo (report : TtlReport) : TtlInfo where
  entries := report.entries.map ReportedTtl.toTtlEntry
  latestLedger := report.latestLedger

/-- The reader of entries: the value of contract data, written again, where the bytes are those of
contract data. -/
abbrev ContractDataReader := List UInt8 → Option (List UInt8)

/-- `extract_contract_data_value`. -/
def extractContractDataValue (reader : ContractDataReader) (entryXdr : String) : Option String :=
  ((Base64.decode (Strings.trim entryXdr)).bind reader).map Base64.encode

/-- `calculate_extension_cost`. -/
def calculateExtensionCost (ledgerDelta : UInt32) : Option UInt64 :=
  Checked.mul64 ledgerDelta.toUInt64 100

/-- The time to live of an entry. -/
def currentTtl (captureLedger : UInt32) (entry : LedgerEntryResult) : UInt32 :=
  match entry.liveUntilLedgerSeq with
  | some liveUntil => Saturating.sub liveUntil captureLedger
  | none => 0

/-- The report of an entry. -/
def ttlEntry (reader : ContractDataReader) (expiringSoonLedgers captureLedger : UInt32)
    (entry : LedgerEntryResult) : Option ReportedTtl := do
  let currentTtl := currentTtl captureLedger entry
  let seconds ← Checked.mul32 currentTtl 5
  let daysRemaining := seconds / (24 * 3600)
  let extensionCostStroops ← calculateExtensionCost currentTtl
  some {
    key := entry.key
    currentTtl
    expirationTime := s!"~{daysRemaining} days"
    daysRemaining
    extensionCostStroops
    expiringSoon := currentTtl < expiringSoonLedgers
    value := extractContractDataValue reader entry.xdr }

/-- `get_ttl_info_for_keys`, for the entries that are fetched. -/
def getTtlInfoForKeys (reader : ContractDataReader) (contractId : String)
    (expiringSoonLedgers : UInt32) (storageResp : StorageResponse) : Option TtlReport := do
  let entries ←
    storageResp.entries.mapM (ttlEntry reader expiringSoonLedgers storageResp.latestLedger)
  some { contractId, entries, latestLedger := some storageResp.latestLedger }

section

variable (xdr : LedgerKeyXdr LedgerKey)

/-- One step of the loop of the analyzer, unless a sum overflows. -/
def Tally.stepChecked (threshold : UInt32) (tally : Tally) (entry : TtlEntry) : Option Tally :=
  if classifyKey xdr entry.key = .other then some (tally.step xdr threshold entry)
  else do
    let _ ← Checked.add64 tally.totalTtl entry.currentTtl.toUInt64
    let _ ← Checked.add64 tally.totalCost entry.extensionCostStroops
    some (tally.step xdr threshold entry)

/-- The loop of the analyzer, unless a sum overflows. -/
def tallyFrom (threshold : UInt32) (tally : Tally) : List TtlEntry → Option Tally
  | [] => some tally
  | entry :: entries => do
    let tally ← tally.stepChecked xdr threshold entry
    tallyFrom threshold tally entries

/-- The loop of the analyzer from its start. -/
def tallyChecked (threshold : UInt32) (entries : List TtlEntry) : Option Tally :=
  tallyFrom xdr threshold {} entries

/-- What an entry adds to a sum of the analyzer. -/
def counted (f : TtlEntry → ℕ) (entry : TtlEntry) : ℕ :=
  if classifyKey xdr entry.key ≠ .other then f entry else 0

end

/-! ### Entries -/

section

variable {reader : ContractDataReader} {threshold captureLedger : UInt32}

/-- The cost of an extension does not overflow. -/
theorem exists_calculateExtensionCost (ledgerDelta : UInt32) :
    ∃ cost, calculateExtensionCost ledgerDelta = some cost ∧
      cost.toNat = ledgerDelta.toNat * 100 := by
  have hlt := ledgerDelta.toNat_lt
  have hcost : (UInt64.ofNat (ledgerDelta.toNat * 100)).toNat = ledgerDelta.toNat * 100 :=
    UInt64.toNat_ofNat_of_lt' (Nat.lt_of_lt_of_le (by omega) (by decide : 429496729600 ≤ _))
  refine ⟨_, Checked.mul64_eq_some_iff.mpr ?_, hcost⟩
  rw [hcost, UInt32.toNat_toUInt64]
  rfl

/-- An entry has a report if the seconds it lives do not overflow. -/
theorem exists_ttlEntry_iff {entry : LedgerEntryResult} :
    (∃ reported, ttlEntry reader threshold captureLedger entry = some reported) ↔
      (currentTtl captureLedger entry).toNat ≤ 858993459 := by
  obtain ⟨cost, hcost, -⟩ := exists_calculateExtensionCost (currentTtl captureLedger entry)
  constructor
  · rintro ⟨reported, h⟩
    obtain ⟨seconds, hseconds, -⟩ := Option.bind_eq_some_iff.mp h
    have hlt := seconds.toNat_lt
    rw [Checked.mul32_eq_some_iff.mp hseconds, show (5 : UInt32).toNat = 5 from rfl] at hlt
    omega
  · intro hle
    have hseconds : Checked.mul32 (currentTtl captureLedger entry) 5 =
        some (currentTtl captureLedger entry * 5) := by
      rw [Checked.mul32, if_pos (by rw [show (5 : UInt32).toNat = 5 from rfl]; omega)]
    rw [ttlEntry, hseconds, hcost]
    exact ⟨_, rfl⟩

/-- **What is reported of an entry.** -/
theorem ttlEntry_eq_some {entry : LedgerEntryResult} {reported : ReportedTtl}
    (h : ttlEntry reader threshold captureLedger entry = some reported) :
    reported.key = entry.key ∧ reported.currentTtl = currentTtl captureLedger entry ∧
      reported.daysRemaining.toNat = reported.currentTtl.toNat * 5 / 86400 ∧
      reported.extensionCostStroops.toNat = 100 * reported.currentTtl.toNat := by
  obtain ⟨seconds, hseconds, h⟩ := Option.bind_eq_some_iff.mp h
  obtain ⟨cost, hcost, h⟩ := Option.bind_eq_some_iff.mp h
  obtain ⟨cost', hcost', hvalue⟩ := exists_calculateExtensionCost (currentTtl captureLedger entry)
  obtain rfl : cost' = cost := Option.some_inj.mp (hcost'.symm.trans hcost)
  obtain rfl := Option.some_inj.mp h
  refine ⟨rfl, rfl, ?_, ?_⟩
  · have hdays := Checked.mul32_eq_some_iff.mp hseconds
    show (seconds / (24 * 3600)).toNat = _
    rw [UInt32.toNat_div, hdays]
    rfl
  · show cost'.toNat = _
    rw [hvalue, Nat.mul_comm]

end

/-! ### Sums -/

section

variable {xdr : LedgerKeyXdr LedgerKey} {threshold : UInt32}

theorem count_sums (tally : Tally) (class_ : StorageClass) :
    (tally.count class_).totalTtl = tally.totalTtl ∧
      (tally.count class_).totalCost = tally.totalCost ∧
      (tally.count class_).minTtl = tally.minTtl ∧ (tally.count class_).maxTtl = tally.maxTtl := by
  cases class_ <;> exact ⟨rfl, rfl, rfl, rfl⟩

/-- What a step adds to the sums, which wrap around. -/
theorem step_sums (tally : Tally) (entry : TtlEntry) :
    (tally.step xdr threshold entry).totalTtl.toNat =
        (tally.totalTtl.toNat + counted xdr (fun e => e.currentTtl.toNat) entry) %
          0x10000000000000000 ∧
      (tally.step xdr threshold entry).totalCost.toNat =
        (tally.totalCost.toNat + counted xdr (fun e => e.extensionCostStroops.toNat) entry) %
          0x10000000000000000 := by
  rw [Tally.step, counted, counted]
  by_cases hother : classifyKey xdr entry.key = .other
  · simp only [if_neg (not_not.mpr hother), count_sums, Nat.add_zero]
    exact ⟨(Nat.mod_eq_of_lt tally.totalTtl.toNat_lt).symm,
      (Nat.mod_eq_of_lt tally.totalCost.toNat_lt).symm⟩
  · simp only [if_pos hother, Tally.bear, count_sums]
    rw [UInt64.toNat_add, UInt64.toNat_add, UInt32.toNat_toUInt64]
    exact ⟨rfl, rfl⟩

/-- The sums do not overflow when entries are added. -/
def SumsFit (xdr : LedgerKeyXdr LedgerKey) (tally : Tally) (entries : List TtlEntry) : Prop :=
  tally.totalTtl.toNat + Checked.total (counted xdr fun e => e.currentTtl.toNat) entries <
      0x10000000000000000 ∧
    tally.totalCost.toNat +
        Checked.total (counted xdr fun e => e.extensionCostStroops.toNat) entries <
      0x10000000000000000

/-- **When a step does not overflow.** -/
theorem stepChecked_eq_some_iff {tally tally' : Tally} {entry : TtlEntry} :
    tally.stepChecked xdr threshold entry = some tally' ↔
      SumsFit xdr tally [entry] ∧ tally.step xdr threshold entry = tally' := by
  rw [Tally.stepChecked, SumsFit, Checked.total, Checked.total, Checked.total, Checked.total,
    counted, counted]
  by_cases hother : classifyKey xdr entry.key = .other
  · rw [if_pos hother, if_neg (not_not.mpr hother), if_neg (not_not.mpr hother), Option.some.injEq]
    exact (and_iff_right ⟨tally.totalTtl.toNat_lt, tally.totalCost.toNat_lt⟩).symm
  · rw [if_neg hother, if_pos hother, if_pos hother, ← UInt32.toNat_toUInt64, Nat.add_zero,
      Nat.add_zero, ← Checked.exists_add64_iff, ← Checked.exists_add64_iff, Option.bind_eq_bind,
      Option.bind_eq_some_iff]
    constructor
    · rintro ⟨total, htotal, h⟩
      obtain ⟨cost, hcost, h⟩ := Option.bind_eq_some_iff.mp h
      exact ⟨⟨⟨total, htotal⟩, cost, hcost⟩, Option.some_inj.mp h⟩
    · rintro ⟨⟨⟨total, htotal⟩, cost, hcost⟩, h⟩
      exact ⟨total, htotal, Option.bind_eq_some_iff.mpr ⟨cost, hcost, congrArg some h⟩⟩

/-- The sums fit if the first one does and the others do after it. -/
theorem sumsFit_cons_iff (threshold : UInt32) {tally : Tally} {entry : TtlEntry}
    {entries : List TtlEntry} :
    SumsFit xdr tally (entry :: entries) ↔
      SumsFit xdr tally [entry] ∧ SumsFit xdr (tally.step xdr threshold entry) entries := by
  obtain ⟨httl, hcost⟩ := @step_sums xdr threshold tally entry
  simp only [SumsFit, Checked.total, httl, hcost]
  omega

/-- **When the sums of the analyzer do not overflow.** -/
theorem tallyFrom_eq_some_iff {tally tally' : Tally} {entries : List TtlEntry} :
    tallyFrom xdr threshold tally entries = some tally' ↔
      SumsFit xdr tally entries ∧ entries.foldl (Tally.step xdr threshold) tally = tally' := by
  induction entries generalizing tally with
  | nil =>
    rw [tallyFrom, Option.some.injEq, List.foldl_nil]
    exact (and_iff_right ⟨tally.totalTtl.toNat_lt, tally.totalCost.toNat_lt⟩).symm
  | cons entry entries ih =>
    rw [tallyFrom, Option.bind_eq_bind, Option.bind_eq_some_iff, List.foldl_cons,
      sumsFit_cons_iff threshold]
    constructor
    · rintro ⟨next, hstep, hrest⟩
      obtain ⟨hfit, rfl⟩ := stepChecked_eq_some_iff.mp hstep
      obtain ⟨hfits, hfold⟩ := ih.mp hrest
      exact ⟨⟨hfit, hfits⟩, hfold⟩
    · rintro ⟨⟨hfit, hfits⟩, hfold⟩
      exact ⟨_, stepChecked_eq_some_iff.mpr ⟨hfit, rfl⟩, ih.mpr ⟨hfits, hfold⟩⟩

/-- The total of the times to live, where it does not overflow. -/
theorem totalTtl_foldl {tally : Tally} {entries : List TtlEntry} (h : SumsFit xdr tally entries) :
    (entries.foldl (Tally.step xdr threshold) tally).totalTtl.toNat = tally.totalTtl.toNat +
      Checked.total (counted xdr fun e => e.currentTtl.toNat) entries := by
  induction entries generalizing tally with
  | nil => rfl
  | cons entry entries ih =>
    obtain ⟨hfit, hfits⟩ := (sumsFit_cons_iff threshold).mp h
    have hlt := hfit.1
    rw [Checked.total, Checked.total, Nat.add_zero] at hlt
    rw [List.foldl_cons, ih hfits, (step_sums tally entry).1, Checked.total, Nat.mod_eq_of_lt hlt,
      Nat.add_assoc]

/-! ### The average -/

/-- A step keeps the bounds or widens them, up to the time to live of an entry with a class. -/
theorem step_bounds (tally : Tally) (entry : TtlEntry) :
    (tally.step xdr threshold entry).minTtl ≤ tally.minTtl ∧
      tally.maxTtl ≤ (tally.step xdr threshold entry).maxTtl ∧
      (classifyKey xdr entry.key ≠ .other →
        (tally.step xdr threshold entry).minTtl ≤ entry.currentTtl ∧
          entry.currentTtl ≤ (tally.step xdr threshold entry).maxTtl) := by
  rw [Tally.step]
  by_cases hother : classifyKey xdr entry.key = .other
  · simp only [if_neg (not_not.mpr hother), count_sums]
    exact ⟨UInt32.le_refl _, UInt32.le_refl _, fun h => absurd hother h⟩
  · simp only [if_pos hother, Tally.bear, count_sums]
    have hmin : (if entry.currentTtl < tally.minTtl then entry.currentTtl else tally.minTtl) ≤
          tally.minTtl ∧
        (if entry.currentTtl < tally.minTtl then entry.currentTtl else tally.minTtl) ≤
          entry.currentTtl := by
      split
      · next hlt => exact ⟨UInt32.le_of_lt hlt, UInt32.le_refl _⟩
      · next hlt => exact ⟨UInt32.le_refl _, UInt32.not_lt.mp hlt⟩
    have hmax : tally.maxTtl ≤
          (if entry.currentTtl > tally.maxTtl then entry.currentTtl else tally.maxTtl) ∧
        entry.currentTtl ≤
          (if entry.currentTtl > tally.maxTtl then entry.currentTtl else tally.maxTtl) := by
      split
      · next hlt => exact ⟨UInt32.le_of_lt hlt, UInt32.le_refl _⟩
      · next hlt => exact ⟨UInt32.le_refl _, UInt32.not_lt.mp hlt⟩
    exact ⟨hmin.1, hmax.1, fun _ => ⟨hmin.2, hmax.2⟩⟩

/-- The time to live of every entry with a class lies between the bounds. -/
theorem foldl_bounds (tally : Tally) (entries : List TtlEntry) :
    (entries.foldl (Tally.step xdr threshold) tally).minTtl ≤ tally.minTtl ∧
      tally.maxTtl ≤ (entries.foldl (Tally.step xdr threshold) tally).maxTtl ∧
      ∀ e ∈ entries, classifyKey xdr e.key ≠ .other →
        (entries.foldl (Tally.step xdr threshold) tally).minTtl ≤ e.currentTtl ∧
          e.currentTtl ≤ (entries.foldl (Tally.step xdr threshold) tally).maxTtl := by
  induction entries generalizing tally with
  | nil => exact ⟨UInt32.le_refl _, UInt32.le_refl _, fun _ h => absurd h List.not_mem_nil⟩
  | cons entry entries ih =>
    obtain ⟨hmin, hmax, hentry⟩ := @step_bounds xdr threshold tally entry
    obtain ⟨hmins, hmaxs, hentries⟩ := ih (tally.step xdr threshold entry)
    rw [List.foldl_cons]
    refine ⟨UInt32.le_trans hmins hmin, UInt32.le_trans hmax hmaxs,
      List.forall_mem_cons.mpr ⟨fun hclass => ?_, hentries⟩⟩
    obtain ⟨hlow, hhigh⟩ := hentry hclass
    exact ⟨UInt32.le_trans hmins hlow, UInt32.le_trans hhigh hmaxs⟩

/-- **The average lies between the minimum and the maximum**, where the sums fit. -/
theorem summary_between {entries : List TtlEntry} {summary : TtlInfoSummary}
    (hlength : entries.length < 0x10000000000000000) (hfit : SumsFit xdr {} entries)
    (h : (tallyOf xdr threshold entries).summary = some summary) :
    summary.minimumTtl ≤ summary.averageTtl ∧ summary.averageTtl ≤ summary.maximumTtl := by
  have hbounds : ∀ e ∈ entries, classifyKey xdr e.key ≠ .other →
      (tallyOf xdr threshold entries).minTtl ≤ e.currentTtl ∧
        e.currentTtl ≤ (tallyOf xdr threshold entries).maxTtl := (foldl_bounds {} entries).2.2
  have htotal : (tallyOf xdr threshold entries).totalTtl.toNat =
      Checked.total (counted xdr fun e => e.currentTtl.toNat) entries :=
    (totalTtl_foldl hfit).trans (Nat.zero_add _)
  have hcount : (tallyOf xdr threshold entries).ttlBearingEntries =
      (entries.filter fun e => classifyKey xdr e.key ≠ .other).length :=
    (ttlBearingEntries_foldl {} entries).trans (Nat.zero_add _)
  have hle := List.length_filter_le (fun e : TtlEntry => decide (classifyKey xdr e.key ≠ .other))
    entries
  generalize tallyOf xdr threshold entries = tally at *
  have hlow : tally.ttlBearingEntries * tally.minTtl.toNat ≤ tally.totalTtl.toNat := by
    rw [hcount, htotal]
    exact Checked.length_mul_le_total fun e he hclass =>
      UInt32.le_iff_toNat_le.mp (hbounds e he hclass).1
  have hhigh : tally.totalTtl.toNat ≤ tally.ttlBearingEntries * tally.maxTtl.toNat := by
    rw [hcount, htotal]
    exact Checked.total_le_length_mul fun e he hclass =>
      UInt32.le_iff_toNat_le.mp (hbounds e he hclass).2
  rw [← hcount] at hle
  rw [Tally.summary] at h
  split at h
  · next hpos =>
    obtain rfl := Option.some_inj.mp h
    obtain ⟨hmin, hmax⟩ :=
      Checked.average_between hpos (Nat.lt_of_le_of_lt hle hlength) hlow hhigh
    refine ⟨?_, hmax⟩
    -- the minimum is the bound, or zero in the place of the start value
    show (if tally.minTtl = 0xffffffff then 0 else tally.minTtl) ≤ _
    split
    · exact UInt32.zero_le
    · exact hmin
  · cases h

end

/-! ### Sound reports -/

section

variable (reader : ContractDataReader) (xdr : LedgerKeyXdr LedgerKey) (analyzer : StorageAnalyzer)
  (contractId : String) (storageResp : StorageResponse)

/-- Nothing overflows in the report of the entries that are fetched nor in the sums of the analyzer,
the days are those of the seconds, and the average lies between the minimum and the maximum. -/
def TtlReportSound : Prop :=
  ∃ report,
    getTtlInfoForKeys reader contractId analyzer.expiringSoonLedgers storageResp = some report ∧
      (∃ tally, tallyChecked xdr analyzer.expiringSoonLedgers report.toTtlInfo.entries =
        some tally) ∧
      (∀ e ∈ report.entries, e.daysRemaining.toNat = e.currentTtl.toNat * 5 / 86400) ∧
      ∀ storageReport summary,
        inspectContractStorageKeys xdr analyzer contractId (.ok report.toTtlInfo) =
            .ok storageReport →
          storageReport.ttlSummary = some summary →
            summary.minimumTtl ≤ summary.averageTtl ∧ summary.averageTtl ≤ summary.maximumTtl

/-- The seconds of every entry fit into 32 bits, and the cost of all entries with a class into
64. -/
def TtlFits : Prop :=
  (∀ e ∈ storageResp.entries, (currentTtl storageResp.latestLedger e).toNat ≤ 858993459) ∧
    100 * Checked.total (fun e => if classifyKey xdr e.key ≠ .other then
        (currentTtl storageResp.latestLedger e).toNat else 0) storageResp.entries <
      0x10000000000000000

end

section

variable {reader : ContractDataReader} {xdr : LedgerKeyXdr LedgerKey} {analyzer : StorageAnalyzer}
  {contractId : String} {storageResp : StorageResponse} {threshold : UInt32}

/-- The entries of a report, in their order. -/
theorem getTtlInfoForKeys_eq_some {report : TtlReport}
    (h : getTtlInfoForKeys reader contractId threshold storageResp = some report) :
    List.Forall₂
      (fun e r => ttlEntry reader threshold storageResp.latestLedger e = some r)
      storageResp.entries report.entries := by
  obtain ⟨entries, hentries, hreport⟩ := Option.bind_eq_some_iff.mp h
  obtain rfl := Option.some_inj.mp hreport
  exact Option.mapM_eq_some_iff.mp hentries

/-- There is a report if no entry lives too long. -/
theorem exists_getTtlInfoForKeys_iff :
    (∃ report, getTtlInfoForKeys reader contractId threshold storageResp = some report) ↔
      ∀ e ∈ storageResp.entries, (currentTtl storageResp.latestLedger e).toNat ≤ 858993459 := by
  have hentries : (∃ entries, storageResp.entries.mapM
        (ttlEntry reader threshold storageResp.latestLedger) = some entries) ↔
      ∀ e ∈ storageResp.entries, (currentTtl storageResp.latestLedger e).toNat ≤ 858993459 :=
    Option.exists_mapM_eq_some_iff.trans (forall₂_congr fun _ _ => exists_ttlEntry_iff)
  rw [← hentries]
  constructor
  · rintro ⟨report, h⟩
    obtain ⟨entries, hmap, -⟩ := Option.bind_eq_some_iff.mp h
    exact ⟨entries, hmap⟩
  · rintro ⟨entries, hmap⟩
    exact ⟨_, Option.bind_eq_some_iff.mpr ⟨entries, hmap, rfl⟩⟩

/-- What the entries of a report add to the sums of the analyzer. -/
theorem total_report {report : TtlReport}
    (h : getTtlInfoForKeys reader contractId threshold storageResp = some report)
    {f : TtlEntry → ℕ} {g : UInt32 → ℕ}
    (hf : ∀ e r, ttlEntry reader threshold storageResp.latestLedger e = some r →
      f r.toTtlEntry = g (currentTtl storageResp.latestLedger e)) :
    Checked.total (counted xdr f) report.toTtlInfo.entries =
      Checked.total (fun e => if classifyKey xdr e.key ≠ .other then
        g (currentTtl storageResp.latestLedger e) else 0) storageResp.entries := by
  refine (Checked.total_eq_of_forall₂ ?_).symm
  have hentries := getTtlInfoForKeys_eq_some h
  rw [TtlReport.toTtlInfo, List.forall₂_map_right_iff]
  refine hentries.imp fun e r hr => ?_
  rw [counted, hf e r hr, (ttlEntry_eq_some hr).1]

/-- The sums of the analyzer over a report fit if the cost does, which is more than the times to
live. -/
theorem sumsFit_report_iff {report : TtlReport}
    (h : getTtlInfoForKeys reader contractId threshold storageResp = some report) :
    SumsFit xdr {} report.toTtlInfo.entries ↔
      100 * Checked.total (fun e => if classifyKey xdr e.key ≠ .other then
          (currentTtl storageResp.latestLedger e).toNat else 0) storageResp.entries <
        0x10000000000000000 := by
  have hcost : (fun e => if classifyKey xdr e.key ≠ .other then
        100 * (currentTtl storageResp.latestLedger e).toNat else 0) =
      fun e : LedgerEntryResult => 100 * if classifyKey xdr e.key ≠ .other then
        (currentTtl storageResp.latestLedger e).toNat else 0 := by
    funext e
    split <;> rfl
  rw [SumsFit, total_report h (g := UInt32.toNat) fun e r hr => by rw [(ttlEntry_eq_some hr).2.1],
    total_report h (g := fun ttl => 100 * ttl.toNat) fun e r hr => by
      rw [(ttlEntry_eq_some hr).2.2.2, (ttlEntry_eq_some hr).2.1],
    hcost, Checked.total_mul]
  show 0 + _ < _ ∧ 0 + _ < _ ↔ _
  omega

/-- The summary of the analyzer is that of its loop. -/
theorem ttlSummary_inspect {info : TtlInfo} {report : StorageReport}
    (h : inspectContractStorageKeys xdr analyzer contractId (.ok info) = .ok report) :
    report.ttlSummary = (tallyOf xdr analyzer.expiringSoonLedgers info.entries).summary := by
  rw [inspectContractStorageKeys] at h
  split at h
  · cases h
  · obtain ⟨info', hinfo, h⟩ := Except.bind_eq_ok_iff.mp h
    cases hinfo
    split at h
    · next hnil =>
      cases h
      rw [hnil]
      rfl
    · cases h
      rfl

/-- **A report is sound exactly if the times to live fit.** -/
theorem ttlReportSound_iff (reader : ContractDataReader) (xdr : LedgerKeyXdr LedgerKey)
    (analyzer : StorageAnalyzer) (contractId : String) (storageResp : StorageResponse)
    (hlength : storageResp.entries.length < 0x10000000000000000) :
    TtlReportSound reader xdr analyzer contractId storageResp ↔ TtlFits xdr storageResp := by
  constructor
  · rintro ⟨report, hreport, ⟨tally, htally⟩, -, -⟩
    exact ⟨exists_getTtlInfoForKeys_iff.mp ⟨report, hreport⟩,
      (sumsFit_report_iff hreport).mp (tallyFrom_eq_some_iff.mp htally).1⟩
  · rintro ⟨hentries, hcost⟩
    obtain ⟨report, hreport⟩ := exists_getTtlInfoForKeys_iff.mpr hentries
    have hfit := (sumsFit_report_iff hreport).mpr hcost
    have hforall := getTtlInfoForKeys_eq_some hreport
    refine ⟨report, hreport, ⟨_, tallyFrom_eq_some_iff.mpr ⟨hfit, rfl⟩⟩, fun r hr => ?_, ?_⟩
    · obtain ⟨e, -, he⟩ := Option.exists_of_mem_mapM (Option.mapM_eq_some_iff.mpr hforall) hr
      exact (ttlEntry_eq_some he).2.2.1
    · intro storageReport summary hinspect hsummary
      rw [ttlSummary_inspect hinspect] at hsummary
      refine summary_between ?_ hfit hsummary
      rw [TtlReport.toTtlInfo, List.length_map, ← hforall.length_eq]
      exact hlength

end

/-! ### An entry that lives long -/

/-- The data of an instance without storage. -/
def instanceXdr : String :=
  "AAAABgAAAAAAAAABAAAAAAAAAAAAAAAAAAAAAAAAAAAAAAAAAAAAAAAAAAAAAAAUAAAAAQAAABMAAAAAERERERERERER" ++
    "EREREREREREREREREREREREREREREREAAAAA"

/-- What a node at ledger 1000 answers. -/
def answerUntil (liveUntil : UInt32) : StorageResponse where
  entries := [⟨instanceKey, instanceXdr, 900, some liveUntil, none⟩]
  latestLedger := 1000

/-- An entry that lives for a week. -/
theorem ttlReportSound_week :
    TtlReportSound (fun _ => none) sampleKeys {} "C" (answerUntil 121960) := by
  refine (ttlReportSound_iff _ sampleKeys {} "C" (answerUntil 121960) (by decide)).mpr ⟨?_, ?_⟩
  · intro e he
    rw [List.mem_singleton.mp he]
    decide
  · rw [answerUntil, Checked.total, Checked.total]
    split <;> decide

/-- The seconds of an entry that lives until the last ledger overflow. -/
theorem not_ttlReportSound_last :
    ¬ TtlReportSound (fun _ => none) sampleKeys {} "C" (answerUntil 0xffffffff) := by
  rintro ⟨report, hreport, -⟩
  have hentries := exists_getTtlInfoForKeys_iff.mp ⟨report, hreport⟩
  exact absurd (hentries _ (List.mem_singleton.mpr rfl)) (by decide)

end SorobanDevkit.Storage
