import SorobanDevkit.Library.FirstIndex
import SorobanDevkit.Library.LastWrite
import SorobanDevkit.Rpc.Submission
import SorobanDevkit.Xdr.Transaction

/-!
# Capturing the configuration of a network

`sdkt-rpc/src/network_capture.rs` folds the entries of the network's configuration into a capture,
in the order in which a node returns them. Each entry sets the values of its own setting, and the
two cost tables share one value. The names of the cost types are a parameter.
-/

namespace SorobanDevkit.Rpc.NetworkCapture

open Xdr (VecM)

/-! ### Settings and captures -/

/-- `ContractCostParamEntry`. -/
structure ContractCostParamEntry where
  constTerm : Int64
  linearTerm : Int64
  deriving DecidableEq

/-- `ContractCostParams`. -/
abbrev ContractCostParams := VecM 1024 ContractCostParamEntry

/-- `ConfigSettingContractComputeV0`. -/
structure ConfigSettingContractComputeV0 where
  ledgerMaxInstructions : Int64
  txMaxInstructions : Int64
  feeRatePerInstructionsIncrement : Int64
  txMemoryLimit : UInt32
  deriving DecidableEq

/-- `ConfigSettingId`. The settings that are not captured are told apart by their numbers. -/
inductive ConfigSettingId
  | contractComputeV0
  | contractMaxSizeBytes
  | contractBandwidthV0
  | contractEventsV0
  | contractCostParamsCpuInstructions
  | contractCostParamsMemoryBytes
  | other (number : ℕ)
  deriving DecidableEq

/-- `ConfigSettingEntry`, with the values that are captured. -/
inductive ConfigSettingEntry
  | contractComputeV0 (v : ConfigSettingContractComputeV0)
  | contractMaxSizeBytes (v : UInt32)
  | contractBandwidthV0 (txMaxSizeBytes : UInt32)
  | contractEventsV0 (txMaxContractEventsSizeBytes : UInt32) (feeContractEvents1Kb : Int64)
  | contractCostParamsCpuInstructions (p : ContractCostParams)
  | contractCostParamsMemoryBytes (p : ContractCostParams)
  | other (number : ℕ)
  deriving DecidableEq

/-- The id of a setting. -/
def ConfigSettingEntry.id : ConfigSettingEntry → ConfigSettingId
  | contractComputeV0 _ => .contractComputeV0
  | contractMaxSizeBytes _ => .contractMaxSizeBytes
  | contractBandwidthV0 _ => .contractBandwidthV0
  | contractEventsV0 .. => .contractEventsV0
  | contractCostParamsCpuInstructions _ => .contractCostParamsCpuInstructions
  | contractCostParamsMemoryBytes _ => .contractCostParamsMemoryBytes
  | other number => .other number

/-- `LedgerEntryData`: a setting, or another kind of entry. -/
inductive LedgerEntryData
  | configSetting (setting : ConfigSettingEntry)
  | other
  deriving DecidableEq

/-- `CaptureSource`. -/
inductive CaptureSource
  | liveConfigSetting
  | liveRpcMetadata
  | unavailable
  deriving DecidableEq

/-- `Captured`: a value with its source and the ledger it was observed at. -/
structure Captured (α : Type) where
  value : Option α
  source : CaptureSource
  observedAtLedger : Option UInt32
  deriving DecidableEq

/-- `Captured::live`. -/
def Captured.live {α : Type} (value : α) (ledger : UInt32) : Captured α :=
  ⟨some value, .liveConfigSetting, some ledger⟩

/-- `Captured::unavailable`. -/
def Captured.unavailable {α : Type} : Captured α := ⟨none, .unavailable, none⟩

/-- `CapturedCostParam`. -/
structure CapturedCostParam where
  index : UInt32
  costType : String
  constTerm : Int64
  linearTerm : Int64
  deriving DecidableEq

/-- `CapturedCostParams`. -/
structure CapturedCostParams where
  cpu : List CapturedCostParam
  mem : List CapturedCostParam
  deriving DecidableEq

/-- `CapturedNetworkConfig`. -/
structure CapturedNetworkConfig where
  passphrase : String
  protocolVersion : UInt32
  ledgerSequence : UInt32
  cpuLimit : Captured UInt64
  memLimit : Captured UInt64
  ledgerMaxInstructions : Captured UInt64
  feeRatePerInstructionsIncrement : Captured UInt64
  maxContractSizeBytes : Captured UInt32
  txMaxSizeBytes : Captured UInt32
  txMaxContractEventsSizeBytes : Captured UInt32
  feeContractEvents1kb : Captured Int64
  costParams : Captured CapturedCostParams
  deriving DecidableEq

namespace CapturedNetworkConfig

/-- `CapturedNetworkConfig::empty`. -/
def empty (passphrase : String) (protocolVersion ledgerSequence : UInt32) :
    CapturedNetworkConfig where
  passphrase
  protocolVersion
  ledgerSequence
  cpuLimit := .unavailable
  memLimit := .unavailable
  ledgerMaxInstructions := .unavailable
  feeRatePerInstructionsIncrement := .unavailable
  maxContractSizeBytes := .unavailable
  txMaxSizeBytes := .unavailable
  txMaxContractEventsSizeBytes := .unavailable
  feeContractEvents1kb := .unavailable
  costParams := .unavailable

/-- `unavailable_params`: the names of the values that could not be captured. -/
def unavailableParams (c : CapturedNetworkConfig) : List String :=
  (if c.cpuLimit.value.isNone then ["txMaxInstructions"] else []) ++
  (if c.memLimit.value.isNone then ["txMemoryLimit"] else []) ++
  (if c.ledgerMaxInstructions.value.isNone then ["ledgerMaxInstructions"] else []) ++
  (if c.feeRatePerInstructionsIncrement.value.isNone then ["feeRatePerInstructionsIncrement"]
    else []) ++
  (if c.maxContractSizeBytes.value.isNone then ["maxContractSizeBytes"] else []) ++
  (if c.txMaxSizeBytes.value.isNone then ["txMaxSizeBytes"] else []) ++
  (if c.txMaxContractEventsSizeBytes.value.isNone then ["txMaxContractEventsSizeBytes"] else []) ++
  (if c.costParams.value.isNone then ["costParams"] else [])

end CapturedNetworkConfig

/-! ### Decoding -/

section

variable (costTypes : List String)

/-- The loop of `decode_cost_params`, from a position on. -/
def decodeCostParamsFrom : ℕ → List ContractCostParamEntry →
    Except RpcError (List CapturedCostParam)
  | _, [] => .ok []
  | i, entry :: entries => do
    let costType ← match costTypes[i]? with
      | some name => .ok name
      | none => .error (.rpc s!"cost type index {i} is not a valid variant")
    let rest ← decodeCostParamsFrom (i + 1) entries
    return ⟨UInt32.ofNat i, costType, entry.constTerm, entry.linearTerm⟩ :: rest

/-- `decode_cost_params`: the terms of a table, with the names of the cost types. -/
def decodeCostParams (params : ContractCostParams) : Except RpcError (List CapturedCostParam) :=
  decodeCostParamsFrom costTypes 0 params.items

/-- `decode_into`: one entry. -/
def decodeInto (out : CapturedNetworkConfig) (data : LedgerEntryData) (ledger : UInt32) :
    Except RpcError CapturedNetworkConfig :=
  match data with
  | .other => .ok out
  | .configSetting setting =>
    match setting with
    | .contractComputeV0 v =>
      .ok { out with
        cpuLimit := .live v.txMaxInstructions.toUInt64 ledger
        memLimit := .live v.txMemoryLimit.toUInt64 ledger
        ledgerMaxInstructions := .live v.ledgerMaxInstructions.toUInt64 ledger
        feeRatePerInstructionsIncrement :=
          .live v.feeRatePerInstructionsIncrement.toUInt64 ledger }
    | .contractMaxSizeBytes v => .ok { out with maxContractSizeBytes := .live v ledger }
    | .contractBandwidthV0 size => .ok { out with txMaxSizeBytes := .live size ledger }
    | .contractEventsV0 size fee =>
      .ok { out with
        txMaxContractEventsSizeBytes := .live size ledger
        feeContractEvents1kb := .live fee ledger }
    | .contractCostParamsCpuInstructions p => do
      let cpu ← decodeCostParams costTypes p
      let existing := out.costParams.value.getD ⟨[], []⟩
      return { out with costParams := .live ⟨cpu, existing.mem⟩ ledger }
    | .contractCostParamsMemoryBytes p => do
      let mem ← decodeCostParams costTypes p
      let existing := out.costParams.value.getD ⟨[], []⟩
      return { out with costParams := .live ⟨existing.cpu, mem⟩ ledger }
    | .other _ => .ok out

/-- The capture of settings, each with the ledger at which it was last modified. -/
def capture (out : CapturedNetworkConfig) (entries : List (ConfigSettingEntry × UInt32)) :
    Except RpcError CapturedNetworkConfig :=
  entries.foldlM (fun out e => decodeInto costTypes out (.configSetting e.1) e.2) out

end

/-! ### Faithful captures -/

/-- The captured value is a number, observed at a ledger. -/
def Captured.Reads {α : Type} (c : Captured α) (number : α → ℤ) (value : ℤ) (ledger : UInt32) :
    Prop :=
  ∃ a, c = .live a ledger ∧ number a = value

/-- A captured table has the terms of a table, in their order. -/
def TableReads (table : List CapturedCostParam) (p : ContractCostParams) : Prop :=
  (table.map fun c => (c.constTerm.toInt, c.linearTerm.toInt)) =
    p.items.map fun c => (c.constTerm.toInt, c.linearTerm.toInt)

namespace CapturedNetworkConfig

variable (out : CapturedNetworkConfig)

/-- The capture has the values of an entry, observed at its ledger. -/
def Records (ledger : UInt32) : ConfigSettingEntry → Prop
  | .contractComputeV0 v =>
    out.cpuLimit.Reads (·.toNat) v.txMaxInstructions.toInt ledger ∧
    out.memLimit.Reads (·.toNat) v.txMemoryLimit.toNat ledger ∧
    out.ledgerMaxInstructions.Reads (·.toNat) v.ledgerMaxInstructions.toInt ledger ∧
    out.feeRatePerInstructionsIncrement.Reads (·.toNat)
      v.feeRatePerInstructionsIncrement.toInt ledger
  | .contractMaxSizeBytes v => out.maxContractSizeBytes.Reads (·.toNat) v.toNat ledger
  | .contractBandwidthV0 size => out.txMaxSizeBytes.Reads (·.toNat) size.toNat ledger
  | .contractEventsV0 size fee =>
    out.txMaxContractEventsSizeBytes.Reads (·.toNat) size.toNat ledger ∧
    out.feeContractEvents1kb.Reads (·.toInt) fee.toInt ledger
  | .contractCostParamsCpuInstructions p =>
    ∃ tables, out.costParams = .live tables ledger ∧ TableReads tables.cpu p
  | .contractCostParamsMemoryBytes p =>
    ∃ tables, out.costParams = .live tables ledger ∧ TableReads tables.mem p
  | .other _ => True

/-- The capture has nothing of a setting. -/
def Lacks : ConfigSettingId → Prop
  | .contractComputeV0 => out.cpuLimit = .unavailable ∧ out.memLimit = .unavailable ∧
    out.ledgerMaxInstructions = .unavailable ∧ out.feeRatePerInstructionsIncrement = .unavailable
  | .contractMaxSizeBytes => out.maxContractSizeBytes = .unavailable
  | .contractBandwidthV0 => out.txMaxSizeBytes = .unavailable
  | .contractEventsV0 => out.txMaxContractEventsSizeBytes = .unavailable ∧
    out.feeContractEvents1kb = .unavailable
  | .contractCostParamsCpuInstructions => ∀ tables ∈ out.costParams.value, tables.cpu = []
  | .contractCostParamsMemoryBytes => ∀ tables ∈ out.costParams.value, tables.mem = []
  | .other _ => True

end CapturedNetworkConfig

/-- The settings that are captured. -/
def CAPTURED_CONFIG_SETTING_IDS : List ConfigSettingId :=
  [.contractComputeV0, .contractMaxSizeBytes, .contractBandwidthV0, .contractEventsV0,
    .contractCostParamsCpuInstructions, .contractCostParamsMemoryBytes]

/-- The ids of entries. -/
def idsOf (entries : List (ConfigSettingEntry × UInt32)) : List ConfigSettingId :=
  entries.map (·.1.id)

/-- The capture does not depend on the order of the entries. It has the value of each entry and no
others, and everything is there only if all settings that are captured were in the list. -/
structure Faithful (costTypes : List String) (base : CapturedNetworkConfig)
    (entries : List (ConfigSettingEntry × UInt32)) : Prop where
  orderFree : ∀ entries', entries'.Perm entries →
    capture costTypes base entries' = capture costTypes base entries
  exact : ∀ out, capture costTypes base entries = .ok out →
    ∀ e ∈ entries, out.Records e.2 e.1
  nothingElse : ∀ out, capture costTypes base entries = .ok out →
    ∀ id, id ∉ idsOf entries → out.Lacks id
  complete : ∀ out, capture costTypes base entries = .ok out → out.unavailableParams = [] →
    ∀ id ∈ CAPTURED_CONFIG_SETTING_IDS, id ∈ idsOf entries

/-- There are names for all rows of a cost table. -/
def Named (costTypes : List String) : ConfigSettingEntry → Prop
  | .contractCostParamsCpuInstructions p | .contractCostParamsMemoryBytes p =>
    p.items.length ≤ costTypes.length
  | _ => True

/-- No limit is negative, and the two cost tables come together, or something else is missing, and
were modified at one ledger. -/
structure Coherent (entries : List (ConfigSettingEntry × UInt32)) : Prop where
  limits : ∀ v ledger, (.contractComputeV0 v, ledger) ∈ entries →
    0 ≤ v.txMaxInstructions.toInt ∧ 0 ≤ v.ledgerMaxInstructions.toInt ∧
      0 ≤ v.feeRatePerInstructionsIncrement.toInt
  ledgers : ∀ p q ledger ledger', (.contractCostParamsCpuInstructions p, ledger) ∈ entries →
    (.contractCostParamsMemoryBytes q, ledger') ∈ entries → ledger = ledger'
  tables : (∀ id ∈ CAPTURED_CONFIG_SETTING_IDS, id ∉ idsOf entries →
      id = .contractCostParamsCpuInstructions ∨ id = .contractCostParamsMemoryBytes) →
    (.contractCostParamsCpuInstructions ∈ idsOf entries ↔
      .contractCostParamsMemoryBytes ∈ idsOf entries)

/-! ### Single entries -/

section

variable {costTypes : List String} {entries : List (ConfigSettingEntry × UInt32)}
  {out : CapturedNetworkConfig} {e : ConfigSettingEntry × UInt32}

/-- The error of a table with more rows than there are cost types. -/
def tooManyRows (costTypes : List String) : RpcError :=
  .rpc s!"cost type index {costTypes.length} is not a valid variant"

theorem decodeCostParamsFrom_ok {rows : List ContractCostParamEntry} {i : ℕ}
    (h : i + rows.length ≤ costTypes.length) :
    ∃ table, decodeCostParamsFrom costTypes i rows = .ok table ∧
      (table.map fun c => (c.constTerm.toInt, c.linearTerm.toInt)) =
        rows.map fun c => (c.constTerm.toInt, c.linearTerm.toInt) := by
  induction rows generalizing i with
  | nil => exact ⟨[], rfl, rfl⟩
  | cons row rows ih =>
    rw [List.length_cons] at h
    obtain ⟨table, hdecode, hterms⟩ := ih (i := i + 1) (by omega)
    have hname : costTypes[i]? = some costTypes[i] := List.getElem?_eq_getElem (by omega)
    rw [decodeCostParamsFrom, hname, hdecode]
    exact ⟨_, rfl, congrArg (_ :: ·) hterms⟩

theorem decodeCostParamsFrom_error {rows : List ContractCostParamEntry} {i : ℕ}
    (hi : i ≤ costTypes.length) (h : costTypes.length < i + rows.length) :
    decodeCostParamsFrom costTypes i rows = .error (tooManyRows costTypes) := by
  induction rows generalizing i with
  | nil => exact absurd h (by simpa using hi)
  | cons row rows ih =>
    rw [List.length_cons] at h
    by_cases hlast : i = costTypes.length
    · rw [decodeCostParamsFrom, List.getElem?_eq_none (by omega), hlast]
      rfl
    · have hname : costTypes[i]? = some costTypes[i] := List.getElem?_eq_getElem (by omega)
      rw [decodeCostParamsFrom, hname, ih (by omega) (by omega)]
      rfl

/-- The capture after an entry, if the entry can be decoded. -/
def after (costTypes : List String) (out : CapturedNetworkConfig)
    (e : ConfigSettingEntry × UInt32) : CapturedNetworkConfig :=
  (decodeInto costTypes out (.configSetting e.1) e.2).toOption.getD out

/-- The rows of a table with the names of the cost types. -/
def tableOf (costTypes : List String) (p : ContractCostParams) : List CapturedCostParam :=
  (decodeCostParams costTypes p).toOption.getD []

theorem decodeCostParams_ok {p : ContractCostParams} (h : p.items.length ≤ costTypes.length) :
    decodeCostParams costTypes p = .ok (tableOf costTypes p) ∧
      TableReads (tableOf costTypes p) p := by
  obtain ⟨table, hdecode, hterms⟩ : ∃ table, decodeCostParams costTypes p = .ok table ∧
      TableReads table p := decodeCostParamsFrom_ok (by omega)
  have htable : tableOf costTypes p = table := by
    rw [tableOf, hdecode]
    rfl
  rw [htable]
  exact ⟨hdecode, hterms⟩

theorem decodeInto_ok (h : Named costTypes e.1) :
    decodeInto costTypes out (.configSetting e.1) e.2 = .ok (after costTypes out e) := by
  obtain ⟨setting, ledger⟩ := e
  cases setting with
  | contractCostParamsCpuInstructions p =>
    rw [after, decodeInto, (decodeCostParams_ok h).1]
    rfl
  | contractCostParamsMemoryBytes p =>
    rw [after, decodeInto, (decodeCostParams_ok h).1]
    rfl
  | _ => rfl

theorem decodeInto_error (h : ¬ Named costTypes e.1) :
    decodeInto costTypes out (.configSetting e.1) e.2 = .error (tooManyRows costTypes) := by
  obtain ⟨setting, ledger⟩ := e
  cases setting with
  | contractCostParamsCpuInstructions p =>
    rw [decodeInto, decodeCostParams, decodeCostParamsFrom_error (Nat.zero_le _)
      (by simpa [Named] using h)]
    rfl
  | contractCostParamsMemoryBytes p =>
    rw [decodeInto, decodeCostParams, decodeCostParamsFrom_error (Nat.zero_le _)
      (by simpa [Named] using h)]
    rfl
  | _ => exact absurd trivial h

theorem capture_ok (h : ∀ e ∈ entries, Named costTypes e.1) (out : CapturedNetworkConfig) :
    capture costTypes out entries = .ok (entries.foldl (after costTypes) out) := by
  induction entries generalizing out with
  | nil => rfl
  | cons e entries ih =>
    obtain ⟨he, h⟩ := List.forall_mem_cons.mp h
    rw [capture, List.foldlM_cons, decodeInto_ok he]
    exact ih h _

theorem capture_error (h : ¬ ∀ e ∈ entries, Named costTypes e.1) (out : CapturedNetworkConfig) :
    capture costTypes out entries = .error (tooManyRows costTypes) := by
  induction entries generalizing out with
  | nil => exact absurd (fun e he => by cases he) h
  | cons e entries ih =>
    rw [capture, List.foldlM_cons]
    by_cases he : Named costTypes e.1
    · rw [decodeInto_ok he]
      exact ih (fun hall => h (List.forall_mem_cons.mpr ⟨he, hall⟩)) _
    · rw [decodeInto_error he]
      rfl

/-! ### The fields of a capture -/

/-- The captured rows of the table for instructions. -/
def CapturedNetworkConfig.cpuTable (out : CapturedNetworkConfig) : List CapturedCostParam :=
  (out.costParams.value.getD ⟨[], []⟩).cpu

/-- The captured rows of the table for memory. -/
def CapturedNetworkConfig.memTable (out : CapturedNetworkConfig) : List CapturedCostParam :=
  (out.costParams.value.getD ⟨[], []⟩).mem

theorem after_cpu {p : ContractCostParams} (h : p.items.length ≤ costTypes.length)
    (out : CapturedNetworkConfig) (ledger : UInt32) :
    after costTypes out (.contractCostParamsCpuInstructions p, ledger) =
      { out with costParams := .live ⟨tableOf costTypes p, out.memTable⟩ ledger } := by
  rw [after, decodeInto, (decodeCostParams_ok h).1]
  rfl

theorem after_mem {p : ContractCostParams} (h : p.items.length ≤ costTypes.length)
    (out : CapturedNetworkConfig) (ledger : UInt32) :
    after costTypes out (.contractCostParamsMemoryBytes p, ledger) =
      { out with costParams := .live ⟨out.cpuTable, tableOf costTypes p⟩ ledger } := by
  rw [after, decodeInto, (decodeCostParams_ok h).1]
  rfl

/-- A field that only the entries of one setting set, whatever was there. -/
structure SetBy {α : Type} (costTypes : List String) (g : CapturedNetworkConfig → α)
    (id : ConfigSettingId) : Prop where
  own : ∀ out out' e, Named costTypes e.1 → e.1.id = id →
    g (after costTypes out e) = g (after costTypes out' e)
  others : ∀ out e, Named costTypes e.1 → e.1.id ≠ id → g (after costTypes out e) = g out

namespace SetBy

variable {α : Type} {g : CapturedNetworkConfig → α} {id : ConfigSettingId}

/-- **A field of a capture is what the entry of its setting gives.** -/
theorem foldl_eq (hset : SetBy costTypes g id) (hnamed : ∀ e ∈ entries, Named costTypes e.1)
    (hids : (idsOf entries).Nodup) (out : CapturedNetworkConfig) :
    g (entries.foldl (after costTypes) out) =
      ((entries.find? fun e => e.1.id = id).map fun e => g (after costTypes out e)).getD
        (g out) := by
  refine LastWrite.foldl_field (p := fun e : ConfigSettingEntry × UInt32 => decide (e.1.id = id))
    (fun e he s => ?_) ?_ out
  · by_cases hid : e.1.id = id
    · rw [if_pos (by simpa using hid)]
      exact hset.own s out e (hnamed e he) hid
    · rw [if_neg (by simpa using hid)]
      exact hset.others s e (hnamed e he) hid
  · refine (List.pairwise_map.mp hids).imp fun hne hboth => hne ?_
    have h := hboth.1
    have h' := hboth.2
    rw [decide_eq_true_iff] at h h'
    rw [h, h']

/-- The field of a setting that is in the list. -/
theorem foldl_of_mem (hset : SetBy costTypes g id) (hnamed : ∀ e ∈ entries, Named costTypes e.1)
    (hids : (idsOf entries).Nodup) (he : e ∈ entries) (hid : e.1.id = id)
    (out : CapturedNetworkConfig) :
    g (entries.foldl (after costTypes) out) = g (after costTypes out e) := by
  have hfind : (entries.find? fun e => e.1.id = id) = some e :=
    (FirstIndex.find?_eq_some_iff hids).mpr ⟨he, hid⟩
  rw [hset.foldl_eq hnamed hids, hfind]
  rfl

/-- The field of a setting that is not in the list. -/
theorem foldl_of_notMem (hset : SetBy costTypes g id) (hnamed : ∀ e ∈ entries, Named costTypes e.1)
    (hids : (idsOf entries).Nodup) (hid : id ∉ idsOf entries) (out : CapturedNetworkConfig) :
    g (entries.foldl (after costTypes) out) = g out := by
  have hfind : (entries.find? fun e => e.1.id = id) = none := by
    by_contra hsome
    obtain ⟨e, he⟩ := Option.ne_none_iff_exists'.mp hsome
    exact hid (FirstIndex.exists_find?_iff.mp ⟨e, he⟩)
  rw [hset.foldl_eq hnamed hids, hfind]
  rfl

/-- The order of the entries makes no difference to the field. -/
theorem foldl_perm (hset : SetBy costTypes g id) (hnamed : ∀ e ∈ entries, Named costTypes e.1)
    (hids : (idsOf entries).Nodup) {entries' : List (ConfigSettingEntry × UInt32)}
    (hperm : entries'.Perm entries) (out : CapturedNetworkConfig) :
    g (entries'.foldl (after costTypes) out) = g (entries.foldl (after costTypes) out) := by
  have hids' : (idsOf entries').Nodup := (hperm.map _).nodup_iff.mpr hids
  rw [hset.foldl_eq (fun e he => hnamed e (hperm.mem_iff.mp he)) hids',
    hset.foldl_eq hnamed hids, FirstIndex.find?_perm hids' hperm]

end SetBy

/-- The values of the setting for computation. -/
def CapturedNetworkConfig.compute (out : CapturedNetworkConfig) :=
  (out.cpuLimit, out.memLimit, out.ledgerMaxInstructions, out.feeRatePerInstructionsIncrement)

/-- The values of the setting for events. -/
def CapturedNetworkConfig.events (out : CapturedNetworkConfig) :=
  (out.txMaxContractEventsSizeBytes, out.feeContractEvents1kb)

theorem setBy_compute : SetBy costTypes CapturedNetworkConfig.compute .contractComputeV0 where
  own out out' e hnamed hid := by
    obtain ⟨setting, ledger⟩ := e
    cases setting <;> cases hid
    rfl
  others out e hnamed hid := by
    obtain ⟨setting, ledger⟩ := e
    cases setting with
    | contractComputeV0 v => exact absurd rfl hid
    | contractCostParamsCpuInstructions p => rw [after_cpu hnamed]; rfl
    | contractCostParamsMemoryBytes p => rw [after_mem hnamed]; rfl
    | _ => rfl

theorem setBy_maxContractSizeBytes :
    SetBy costTypes CapturedNetworkConfig.maxContractSizeBytes .contractMaxSizeBytes where
  own out out' e hnamed hid := by
    obtain ⟨setting, ledger⟩ := e
    cases setting <;> cases hid
    rfl
  others out e hnamed hid := by
    obtain ⟨setting, ledger⟩ := e
    cases setting with
    | contractMaxSizeBytes v => exact absurd rfl hid
    | contractCostParamsCpuInstructions p => rw [after_cpu hnamed]
    | contractCostParamsMemoryBytes p => rw [after_mem hnamed]
    | _ => rfl

theorem setBy_txMaxSizeBytes :
    SetBy costTypes CapturedNetworkConfig.txMaxSizeBytes .contractBandwidthV0 where
  own out out' e hnamed hid := by
    obtain ⟨setting, ledger⟩ := e
    cases setting <;> cases hid
    rfl
  others out e hnamed hid := by
    obtain ⟨setting, ledger⟩ := e
    cases setting with
    | contractBandwidthV0 size => exact absurd rfl hid
    | contractCostParamsCpuInstructions p => rw [after_cpu hnamed]
    | contractCostParamsMemoryBytes p => rw [after_mem hnamed]
    | _ => rfl

theorem setBy_events : SetBy costTypes CapturedNetworkConfig.events .contractEventsV0 where
  own out out' e hnamed hid := by
    obtain ⟨setting, ledger⟩ := e
    cases setting <;> cases hid
    rfl
  others out e hnamed hid := by
    obtain ⟨setting, ledger⟩ := e
    cases setting with
    | contractEventsV0 size fee => exact absurd rfl hid
    | contractCostParamsCpuInstructions p => rw [after_cpu hnamed]; rfl
    | contractCostParamsMemoryBytes p => rw [after_mem hnamed]; rfl
    | _ => rfl

theorem setBy_cpuTable :
    SetBy costTypes CapturedNetworkConfig.cpuTable .contractCostParamsCpuInstructions where
  own out out' e hnamed hid := by
    obtain ⟨setting, ledger⟩ := e
    cases setting <;> cases hid
    rw [after_cpu hnamed, after_cpu hnamed]
    rfl
  others out e hnamed hid := by
    obtain ⟨setting, ledger⟩ := e
    cases setting with
    | contractCostParamsCpuInstructions p => exact absurd rfl hid
    | contractCostParamsMemoryBytes p => rw [after_mem hnamed]; rfl
    | _ => rfl

theorem setBy_memTable :
    SetBy costTypes CapturedNetworkConfig.memTable .contractCostParamsMemoryBytes where
  own out out' e hnamed hid := by
    obtain ⟨setting, ledger⟩ := e
    cases setting <;> cases hid
    rw [after_mem hnamed, after_mem hnamed]
    rfl
  others out e hnamed hid := by
    obtain ⟨setting, ledger⟩ := e
    cases setting with
    | contractCostParamsMemoryBytes p => exact absurd rfl hid
    | contractCostParamsCpuInstructions p => rw [after_cpu hnamed]; rfl
    | _ => rfl

/-- The entry is a cost table. -/
def IsTable (e : ConfigSettingEntry) : Prop :=
  e.id = .contractCostParamsCpuInstructions ∨ e.id = .contractCostParamsMemoryBytes

theorem costParams_after_of_isTable (hnamed : Named costTypes e.1) (htable : IsTable e.1) :
    ∃ tables, (after costTypes out e).costParams = .live tables e.2 := by
  obtain ⟨setting, ledger⟩ := e
  cases setting with
  | contractCostParamsCpuInstructions p => exact ⟨_, by rw [after_cpu hnamed]⟩
  | contractCostParamsMemoryBytes p => exact ⟨_, by rw [after_mem hnamed]⟩
  | _ => obtain h | h := htable <;> cases h

theorem costParams_after_of_not_isTable (htable : ¬ IsTable e.1) :
    (after costTypes out e).costParams = out.costParams := by
  obtain ⟨setting, ledger⟩ := e
  cases setting with
  | contractCostParamsCpuInstructions p => exact absurd (.inl rfl) htable
  | contractCostParamsMemoryBytes p => exact absurd (.inr rfl) htable
  | _ => rfl

/-- Without a cost table nothing is captured of the costs. -/
theorem costParams_foldl_of_none (h : ∀ e ∈ entries, ¬ IsTable e.1) (out : CapturedNetworkConfig) :
    (entries.foldl (after costTypes) out).costParams = out.costParams := by
  induction entries generalizing out with
  | nil => rfl
  | cons e entries ih =>
    obtain ⟨he, h⟩ := List.forall_mem_cons.mp h
    rw [List.foldl_cons, ih h, costParams_after_of_not_isTable he]

/-- The costs are observed at the ledger of the tables. -/
theorem costParams_foldl_of_mem (hnamed : ∀ e ∈ entries, Named costTypes e.1) {ledger : UInt32}
    (hledger : ∀ e ∈ entries, IsTable e.1 → e.2 = ledger) (h : ∃ e ∈ entries, IsTable e.1)
    (out : CapturedNetworkConfig) :
    (entries.foldl (after costTypes) out).costParams = .live
      ⟨(entries.foldl (after costTypes) out).cpuTable,
        (entries.foldl (after costTypes) out).memTable⟩ ledger := by
  have hlive : ∃ tables,
      (entries.foldl (after costTypes) out).costParams = .live tables ledger := by
    induction entries using List.reverseRecOn with
    | nil =>
      obtain ⟨e, he, -⟩ := h
      cases he
    | append_singleton entries e ih =>
      rw [List.foldl_append, List.foldl_cons, List.foldl_nil]
      by_cases he : IsTable e.1
      · have hlast := hledger e (by simp) he
        rw [← hlast]
        exact costParams_after_of_isTable (hnamed e (by simp)) he
      · rw [costParams_after_of_not_isTable he]
        obtain ⟨e', he', htable⟩ := h
        refine ih (fun e he => hnamed e (by simp [he])) (fun e he => hledger e (by simp [he]))
          ⟨e', ?_, htable⟩
        obtain hmem | hmem := List.mem_append.mp he'
        · exact hmem
        · rw [List.mem_singleton.mp hmem] at htable
          exact absurd htable he
  obtain ⟨tables, hlive⟩ := hlive
  rw [CapturedNetworkConfig.cpuTable, CapturedNetworkConfig.memTable, hlive]
  rfl

/-- What is not captured from settings stays. -/
theorem network_foldl (hnamed : ∀ e ∈ entries, Named costTypes e.1) (out : CapturedNetworkConfig) :
    (entries.foldl (after costTypes) out).passphrase = out.passphrase ∧
      (entries.foldl (after costTypes) out).protocolVersion = out.protocolVersion ∧
        (entries.foldl (after costTypes) out).ledgerSequence = out.ledgerSequence := by
  induction entries generalizing out with
  | nil => exact ⟨rfl, rfl, rfl⟩
  | cons e entries ih =>
    obtain ⟨he, hnamed⟩ := List.forall_mem_cons.mp hnamed
    obtain ⟨hpassphrase, hprotocol, hledger⟩ := ih hnamed (after costTypes out e)
    rw [List.foldl_cons, hpassphrase, hprotocol, hledger]
    obtain ⟨setting, ledger⟩ := e
    cases setting with
    | contractCostParamsCpuInstructions p => rw [after_cpu he]; exact ⟨rfl, rfl, rfl⟩
    | contractCostParamsMemoryBytes p => rw [after_mem he]; exact ⟨rfl, rfl, rfl⟩
    | _ => exact ⟨rfl, rfl, rfl⟩

/-! ### Captures of settings that differ -/

/-- Two tables in the list were modified at one ledger. -/
theorem Coherent.tables_ledger (h : Coherent entries) (hids : (idsOf entries).Nodup)
    {e' : ConfigSettingEntry × UInt32} (he : e ∈ entries) (he' : e' ∈ entries)
    (htable : IsTable e.1) (htable' : IsTable e'.1) : e.2 = e'.2 := by
  by_cases hsame : e.1.id = e'.1.id
  · rw [List.inj_on_of_nodup_map hids he he' hsame]
  obtain ⟨setting, ledger⟩ := e
  obtain ⟨setting', ledger'⟩ := e'
  cases setting with
  | contractCostParamsCpuInstructions p =>
    cases setting' with
    | contractCostParamsMemoryBytes q => exact h.ledgers p q ledger ledger' he he'
    | contractCostParamsCpuInstructions q => exact absurd rfl hsame
    | _ => obtain h | h := htable' <;> cases h
  | contractCostParamsMemoryBytes q =>
    cases setting' with
    | contractCostParamsCpuInstructions p => exact (h.ledgers p q ledger' ledger he' he).symm
    | contractCostParamsMemoryBytes q => exact absurd rfl hsame
    | _ => obtain h | h := htable' <;> cases h
  | _ => obtain h | h := htable <;> cases h

/-- **The costs of a capture**: those of the tables in the list, observed at their ledger. -/
theorem Coherent.costParams_foldl (h : Coherent entries)
    (hnamed : ∀ e ∈ entries, Named costTypes e.1) (hids : (idsOf entries).Nodup)
    (he : e ∈ entries) (htable : IsTable e.1) (out : CapturedNetworkConfig) :
    (entries.foldl (after costTypes) out).costParams = .live
      ⟨(entries.foldl (after costTypes) out).cpuTable,
        (entries.foldl (after costTypes) out).memTable⟩ e.2 :=
  costParams_foldl_of_mem hnamed
    (fun _ he' htable' => h.tables_ledger hids he' he htable' htable) ⟨e, he, htable⟩ out

/-- The order of the entries makes no difference. -/
theorem Coherent.foldl_perm (h : Coherent entries) (hnamed : ∀ e ∈ entries, Named costTypes e.1)
    (hids : (idsOf entries).Nodup) {entries' : List (ConfigSettingEntry × UInt32)}
    (hperm : entries'.Perm entries) (out : CapturedNetworkConfig) :
    entries'.foldl (after costTypes) out = entries.foldl (after costTypes) out := by
  have hnamed' : ∀ e ∈ entries', Named costTypes e.1 := fun e he => hnamed e (hperm.mem_iff.mp he)
  obtain ⟨hpassphrase, hprotocol, hledger⟩ := network_foldl hnamed out
  obtain ⟨hpassphrase', hprotocol', hledger'⟩ := network_foldl hnamed' out
  have hcompute := setBy_compute.foldl_perm hnamed hids hperm out
  have hevents := setBy_events.foldl_perm hnamed hids hperm out
  have hcosts : (entries'.foldl (after costTypes) out).costParams =
      (entries.foldl (after costTypes) out).costParams := by
    by_cases hsome : ∃ e ∈ entries, IsTable e.1
    · obtain ⟨e, he, htable⟩ := hsome
      have hledger (e' : ConfigSettingEntry × UInt32) (he' : e' ∈ entries')
          (htable' : IsTable e'.1) : e'.2 = e.2 :=
        h.tables_ledger hids (hperm.mem_iff.mp he') he htable' htable
      rw [h.costParams_foldl hnamed hids he htable,
        costParams_foldl_of_mem hnamed' hledger ⟨e, hperm.mem_iff.mpr he, htable⟩,
        setBy_cpuTable.foldl_perm hnamed hids hperm, setBy_memTable.foldl_perm hnamed hids hperm]
    · rw [costParams_foldl_of_none fun e he htable => hsome ⟨e, he, htable⟩,
        costParams_foldl_of_none fun e he htable => hsome ⟨e, hperm.mem_iff.mp he, htable⟩]
  simp only [CapturedNetworkConfig.compute, CapturedNetworkConfig.events, Prod.mk.injEq]
    at hcompute hevents
  obtain ⟨hcpu, hmem, hmax, hfee⟩ := hcompute
  rw [CapturedNetworkConfig.mk.injEq]
  exact ⟨hpassphrase'.trans hpassphrase.symm, hprotocol'.trans hprotocol.symm,
    hledger'.trans hledger.symm, hcpu, hmem, hmax, hfee,
    setBy_maxContractSizeBytes.foldl_perm hnamed hids hperm out,
    setBy_txMaxSizeBytes.foldl_perm hnamed hids hperm out, hevents.1, hevents.2, hcosts⟩

theorem toNat_toUInt64 {n : Int64} (h : 0 ≤ n.toInt) : (n.toUInt64.toNat : ℤ) = n.toInt := by
  have hbits : n.toInt = if 2 * n.toUInt64.toNat < 18446744073709551616 then
      (n.toUInt64.toNat : ℤ) else (n.toUInt64.toNat : ℤ) - (18446744073709551616 : ℕ) :=
    BitVec.toInt_eq_toNat_cond n.toBitVec
  have hlt := n.toUInt64.toNat_lt
  split at hbits <;> omega

/-- The value of each entry is captured. -/
theorem Coherent.records (h : Coherent entries) (hnamed : ∀ e ∈ entries, Named costTypes e.1)
    (hids : (idsOf entries).Nodup) (he : e ∈ entries) (out : CapturedNetworkConfig) :
    (entries.foldl (after costTypes) out).Records e.2 e.1 := by
  obtain ⟨setting, ledger⟩ := e
  cases setting with
  | contractComputeV0 v =>
    obtain ⟨hcpu, hmax, hfee⟩ := h.limits v ledger he
    have hcompute := setBy_compute.foldl_of_mem hnamed hids he rfl out
    simp only [CapturedNetworkConfig.compute, Prod.mk.injEq] at hcompute
    exact ⟨⟨_, hcompute.1, toNat_toUInt64 hcpu⟩, ⟨_, hcompute.2.1, by simp⟩,
      ⟨_, hcompute.2.2.1, toNat_toUInt64 hmax⟩, ⟨_, hcompute.2.2.2, toNat_toUInt64 hfee⟩⟩
  | contractMaxSizeBytes v =>
    exact ⟨v, setBy_maxContractSizeBytes.foldl_of_mem hnamed hids he rfl out, rfl⟩
  | contractBandwidthV0 size =>
    exact ⟨size, setBy_txMaxSizeBytes.foldl_of_mem hnamed hids he rfl out, rfl⟩
  | contractEventsV0 size fee =>
    have hevents := setBy_events.foldl_of_mem hnamed hids he rfl out
    simp only [CapturedNetworkConfig.events, Prod.mk.injEq] at hevents
    exact ⟨⟨size, hevents.1, rfl⟩, ⟨fee, hevents.2, rfl⟩⟩
  | contractCostParamsCpuInstructions p =>
    have hp : p.items.length ≤ costTypes.length := hnamed _ he
    refine ⟨_, h.costParams_foldl hnamed hids he (.inl rfl) out, ?_⟩
    rw [setBy_cpuTable.foldl_of_mem hnamed hids he rfl, after_cpu hp]
    exact (decodeCostParams_ok hp).2
  | contractCostParamsMemoryBytes p =>
    have hp : p.items.length ≤ costTypes.length := hnamed _ he
    refine ⟨_, h.costParams_foldl hnamed hids he (.inr rfl) out, ?_⟩
    rw [setBy_memTable.foldl_of_mem hnamed hids he rfl, after_mem hp]
    exact (decodeCostParams_ok hp).2
  | other number => trivial

/-- Nothing is captured of a setting that is not in the list. -/
theorem lacks_of_notMem (hnamed : ∀ e ∈ entries, Named costTypes e.1)
    (hids : (idsOf entries).Nodup) (passphrase : String) (protocolVersion ledgerSequence : UInt32)
    {id : ConfigSettingId} (hid : id ∉ idsOf entries) :
    (entries.foldl (after costTypes)
      (.empty passphrase protocolVersion ledgerSequence)).Lacks id := by
  cases id with
  | contractComputeV0 =>
    have hcompute := setBy_compute.foldl_of_notMem hnamed hids hid
      (.empty passphrase protocolVersion ledgerSequence)
    simp only [CapturedNetworkConfig.compute, Prod.mk.injEq] at hcompute
    exact hcompute
  | contractMaxSizeBytes =>
    exact setBy_maxContractSizeBytes.foldl_of_notMem hnamed hids hid _
  | contractBandwidthV0 => exact setBy_txMaxSizeBytes.foldl_of_notMem hnamed hids hid _
  | contractEventsV0 =>
    have hevents := setBy_events.foldl_of_notMem hnamed hids hid
      (.empty passphrase protocolVersion ledgerSequence)
    simp only [CapturedNetworkConfig.events, Prod.mk.injEq] at hevents
    exact hevents
  | contractCostParamsCpuInstructions =>
    intro tables htables
    have hcpu := setBy_cpuTable.foldl_of_notMem hnamed hids hid
      (.empty passphrase protocolVersion ledgerSequence)
    rwa [CapturedNetworkConfig.cpuTable, Option.mem_def.mp htables] at hcpu
  | contractCostParamsMemoryBytes =>
    intro tables htables
    have hmem := setBy_memTable.foldl_of_notMem hnamed hids hid
      (.empty passphrase protocolVersion ledgerSequence)
    rwa [CapturedNetworkConfig.memTable, Option.mem_def.mp htables] at hmem
  | other number => trivial

theorem unavailableParams_eq_nil_iff : out.unavailableParams = [] ↔
    out.cpuLimit.value.isSome ∧ out.memLimit.value.isSome ∧
      out.ledgerMaxInstructions.value.isSome ∧ out.feeRatePerInstructionsIncrement.value.isSome ∧
      out.maxContractSizeBytes.value.isSome ∧ out.txMaxSizeBytes.value.isSome ∧
      out.txMaxContractEventsSizeBytes.value.isSome ∧ out.costParams.value.isSome := by
  simp [CapturedNetworkConfig.unavailableParams, Option.isSome_iff_ne_none]

theorem isSome_of_reads {α : Type} {c : Captured α} {number : α → ℤ} {value : ℤ} {ledger : UInt32}
    (h : c.Reads number value ledger) : c.value.isSome := by
  obtain ⟨a, rfl, -⟩ := h
  rfl

theorem not_isSome_unavailable {α : Type} {c : Captured α} (h : c = .unavailable) :
    ¬ c.value.isSome := by
  rw [h]
  exact Bool.false_ne_true

theorem mem_idsOf {id : ConfigSettingId} : id ∈ idsOf entries ↔ ∃ e ∈ entries, e.1.id = id :=
  List.mem_map

/-- Everything is captured only if all settings are in the list. -/
theorem Coherent.complete (h : Coherent entries) (hnamed : ∀ e ∈ entries, Named costTypes e.1)
    (hids : (idsOf entries).Nodup) (passphrase : String) (protocolVersion ledgerSequence : UInt32)
    (hnil : (entries.foldl (after costTypes)
      (.empty passphrase protocolVersion ledgerSequence)).unavailableParams = []) :
    ∀ id ∈ CAPTURED_CONFIG_SETTING_IDS, id ∈ idsOf entries := by
  obtain ⟨hcpu, -, -, -, hsize, hband, hevents, hcosts⟩ := unavailableParams_eq_nil_iff.mp hnil
  have hlacks {id : ConfigSettingId} (hid : id ∉ idsOf entries) :=
    lacks_of_notMem hnamed hids passphrase protocolVersion ledgerSequence hid
  have hmissing : ∀ id ∈ CAPTURED_CONFIG_SETTING_IDS, id ∉ idsOf entries →
      id = .contractCostParamsCpuInstructions ∨ id = .contractCostParamsMemoryBytes := by
    intro id _ hid
    cases id with
    | contractComputeV0 => exact absurd hcpu (not_isSome_unavailable (hlacks hid).1)
    | contractMaxSizeBytes => exact absurd hsize (not_isSome_unavailable (hlacks hid))
    | contractBandwidthV0 => exact absurd hband (not_isSome_unavailable (hlacks hid))
    | contractEventsV0 => exact absurd hevents (not_isSome_unavailable (hlacks hid).1)
    | contractCostParamsCpuInstructions => exact .inl rfl
    | contractCostParamsMemoryBytes => exact .inr rfl
    | other number => simp [CAPTURED_CONFIG_SETTING_IDS] at *
  -- one of the two tables is there, and so is the other
  obtain ⟨e, he, htable⟩ : ∃ e ∈ entries, IsTable e.1 := by
    by_contra hnone
    rw [costParams_foldl_of_none fun e he htable => hnone ⟨e, he, htable⟩] at hcosts
    exact Bool.false_ne_true hcosts
  have hboth := h.tables hmissing
  have htables : ConfigSettingId.contractCostParamsCpuInstructions ∈ idsOf entries ∧
      ConfigSettingId.contractCostParamsMemoryBytes ∈ idsOf entries := by
    obtain hid | hid := htable
    · have hmem := mem_idsOf.mpr ⟨e, he, hid⟩
      exact ⟨hmem, hboth.mp hmem⟩
    · have hmem := mem_idsOf.mpr ⟨e, he, hid⟩
      exact ⟨hboth.mpr hmem, hmem⟩
  intro id hcaptured
  by_contra hid
  obtain rfl | rfl := hmissing id hcaptured hid
  · exact hid htables.1
  · exact hid htables.2

/-- What is captured of the settings in the list is there. -/
theorem Faithful.isSome (hnamed : ∀ e ∈ entries, Named costTypes e.1)
    (h : Faithful costTypes out entries) (hmissing : ∀ id ∈ CAPTURED_CONFIG_SETTING_IDS,
      id ∉ idsOf entries →
        id = .contractCostParamsCpuInstructions ∨ id = .contractCostParamsMemoryBytes)
    (htable : ∃ e ∈ entries, IsTable e.1) :
    (entries.foldl (after costTypes) out).unavailableParams = [] := by
  have hexact := h.exact _ (capture_ok hnamed out)
  have hmem (id : ConfigSettingId) (hcaptured : id ∈ CAPTURED_CONFIG_SETTING_IDS)
      (hcpu : id ≠ .contractCostParamsCpuInstructions)
      (hother : id ≠ .contractCostParamsMemoryBytes) :
      ∃ e ∈ entries, e.1.id = id := by
    rw [← mem_idsOf]
    by_contra hid
    obtain heq | heq := hmissing id hcaptured hid
    · exact hcpu heq
    · exact hother heq
  obtain ⟨⟨setting, ledger⟩, hcompute, hid⟩ :=
    hmem .contractComputeV0 (by decide) (by decide) (by decide)
  cases setting <;> cases hid
  obtain ⟨hcpu, hmemory, hmax, hfee⟩ := hexact _ hcompute
  obtain ⟨⟨setting, ledger⟩, hsize, hid⟩ :=
    hmem .contractMaxSizeBytes (by decide) (by decide) (by decide)
  cases setting <;> cases hid
  obtain ⟨⟨setting, ledger⟩, hband, hid⟩ :=
    hmem .contractBandwidthV0 (by decide) (by decide) (by decide)
  cases setting <;> cases hid
  obtain ⟨⟨setting, ledger⟩, hevents, hid⟩ :=
    hmem .contractEventsV0 (by decide) (by decide) (by decide)
  cases setting <;> cases hid
  have hcosts : (entries.foldl (after costTypes) out).costParams.value.isSome := by
    obtain ⟨⟨setting, ledger⟩, he, hid | hid⟩ := htable
    · cases setting <;> cases hid
      obtain ⟨tables, hlive, -⟩ := hexact _ he
      rw [hlive]
      rfl
    · cases setting <;> cases hid
      obtain ⟨tables, hlive, -⟩ := hexact _ he
      rw [hlive]
      rfl
  rw [unavailableParams_eq_nil_iff]
  exact ⟨isSome_of_reads hcpu, isSome_of_reads hmemory, isSome_of_reads hmax, isSome_of_reads hfee,
    isSome_of_reads (hexact _ hsize), isSome_of_reads (hexact _ hband),
    isSome_of_reads (hexact _ hevents).1, hcosts⟩

/-- A limit that is read as it is is not negative. -/
theorem nonneg_of_reads {c : Captured UInt64} {value : ℤ} {ledger : UInt32}
    (h : c.Reads (·.toNat) value ledger) : 0 ≤ value := by
  obtain ⟨a, -, rfl⟩ := h
  exact Int.natCast_nonneg _

/-- **When a capture is faithful**, of settings that differ. -/
theorem decoding_faithful_iff (costTypes : List String) (passphrase : String)
    (protocolVersion ledgerSequence : UInt32) (entries : List (ConfigSettingEntry × UInt32))
    (hids : (idsOf entries).Nodup) :
    Faithful costTypes (.empty passphrase protocolVersion ledgerSequence) entries ↔
      ((∀ e ∈ entries, Named costTypes e.1) → Coherent entries) := by
  constructor
  · intro h hnamed
    have hexact := h.exact _ (capture_ok hnamed _)
    refine ⟨fun v ledger hv => ?_, fun p q ledger ledger' hp hq => ?_, fun hmissing => ?_⟩
    · obtain ⟨hcpu, -, hmax, hfee⟩ := hexact _ hv
      exact ⟨nonneg_of_reads hcpu, nonneg_of_reads hmax, nonneg_of_reads hfee⟩
    · obtain ⟨tables, hcpu, -⟩ := hexact _ hp
      obtain ⟨tables', hmem, -⟩ := hexact _ hq
      exact Option.some.inj (congrArg Captured.observedAtLedger (hcpu.symm.trans hmem))
    · have hcomplete (htable : ∃ e ∈ entries, IsTable e.1) :=
        h.complete _ (capture_ok hnamed _) (h.isSome hnamed hmissing htable)
      constructor
      · intro hcpu
        obtain ⟨e, he, hid⟩ := mem_idsOf.mp hcpu
        exact hcomplete ⟨e, he, .inl hid⟩ _ (by decide)
      · intro hmem
        obtain ⟨e, he, hid⟩ := mem_idsOf.mp hmem
        exact hcomplete ⟨e, he, .inr hid⟩ _ (by decide)
  · intro hcoherent
    by_cases hnamed : ∀ e ∈ entries, Named costTypes e.1
    · have h := hcoherent hnamed
      refine ⟨fun entries' hperm => ?_, fun out hout e he => ?_, fun out hout id hid => ?_,
        fun out hout hnil => ?_⟩
      · rw [capture_ok hnamed, capture_ok fun e he => hnamed e (hperm.mem_iff.mp he),
          h.foldl_perm hnamed hids hperm]
      all_goals
        rw [capture_ok hnamed] at hout
        cases hout
      · exact h.records hnamed hids he _
      · exact lacks_of_notMem hnamed hids _ _ _ hid
      · exact h.complete hnamed hids _ _ _ hnil
    · have herror := capture_error hnamed (.empty passphrase protocolVersion ledgerSequence)
      refine ⟨fun entries' hperm => ?_, fun out hout => ?_, fun out hout => ?_, fun out hout => ?_⟩
      · rw [herror]
        exact capture_error (fun hall => hnamed fun e he => hall e (hperm.mem_iff.mpr he)) _
      all_goals
        rw [herror] at hout
        cases hout

end

/-! ### Two tables at different ledgers -/

/-- The entries of a network that runs, with one row in each cost table. -/
def sampleEntries (cpuLedger memLedger : UInt32) : List (ConfigSettingEntry × UInt32) :=
  [(.contractComputeV0 ⟨580000000, 400000000, 7, 41943040⟩, 100),
    (.contractCostParamsCpuInstructions ⟨[⟨4, 0⟩], by decide⟩, cpuLedger),
    (.contractCostParamsMemoryBytes ⟨[⟨0, 9⟩], by decide⟩, memLedger)]

theorem capture_faithful_sample :
    Faithful ["WasmInsnExec"] (.empty "Public Global Stellar Network ; September 2015" 29 64846678)
      (sampleEntries 100 100) := by
  refine (decoding_faithful_iff _ _ _ _ _ (by decide)).mpr fun _ => ⟨?_, ?_, ?_⟩
  · intro v ledger hv
    simp [sampleEntries] at hv
    obtain ⟨rfl, -⟩ := hv
    decide
  · intro p q ledger ledger' hp hq
    simp [sampleEntries] at hp hq
    rw [hp.2, hq.2]
  · exact fun _ => by decide

/-- The costs are observed at the ledger of the table that comes last. -/
theorem not_faithful_ledgers :
    ¬ ∀ (costTypes : List String) (passphrase : String) (protocolVersion ledgerSequence : UInt32)
      (entries : List (ConfigSettingEntry × UInt32)), (idsOf entries).Nodup →
        Faithful costTypes (.empty passphrase protocolVersion ledgerSequence) entries := by
  intro h
  have hfaithful := h ["WasmInsnExec"] "" 29 200 (sampleEntries 100 200) (by decide)
  have hperm := hfaithful.orderFree [(sampleEntries 100 200)[0], (sampleEntries 100 200)[2],
    (sampleEntries 100 200)[1]] (by decide)
  exact absurd hperm (by decide +kernel)

end SorobanDevkit.Rpc.NetworkCapture
