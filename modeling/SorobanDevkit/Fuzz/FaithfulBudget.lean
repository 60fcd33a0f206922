import SorobanDevkit.Fuzz.Differential
import SorobanDevkit.Fuzz.HostRun
import SorobanDevkit.Library.Fallible
import SorobanDevkit.Rpc.NetworkCapture

/-!
# Budgets that are faithful to a network

`Environment::make_budget` (`sdkt-fuzz/src/environment.rs`) builds the budget of an execution. From
the profile of a network it builds one only if the profile covers what the host charges for: the
coverage compares the lengths of the tables with the number of cost types, and the loop over a
table compares each entry with the cost type at its position. Together they leave the tables that
have one entry for each cost type.

The host, its cost types and its budgets are parameters. The vendored tables are those of
`sdkt-fuzz/src/network_cost.rs`.

## Main results

* `costEntriesFrom_eq_ok_iff` — which tables the loop accepts, and what it makes of them.
* `forProfile_complete_iff` — which profiles are covered.
* `networkFaithful_makeBudget` — a budget is built exactly from these profiles, and as they say.
-/

namespace SorobanDevkit.Fuzz

open Rpc.NetworkCapture (ContractCostParamEntry ContractCostParams)
open Xdr (LedgerEntry ScAddress VecM)

/-! ### The host -/

/-- What the crate of the host offers for budgets. Errors are given by their texts. -/
structure BudgetHost (CostType Budget : Type) where
  /-- `meta::INTERFACE_VERSION.protocol`, which is `HOST_SUPPORTED_PROTOCOL`. -/
  interfaceProtocol : UInt32
  /-- `ContractCostType::variants()`. -/
  variants : List CostType
  /-- `ContractCostType::try_from`. -/
  costTypeTryFrom : Int32 → Option CostType
  /-- `ContractCostType::name`. -/
  costTypeName : CostType → String
  /-- The text of the error for a vector beyond its bound. -/
  lengthExceedsMax : String
  /-- `Budget::default()`. -/
  defaultBudget : Budget
  /-- `Budget::try_from_configs`. -/
  tryFromConfigs : UInt64 → UInt64 → ContractCostParams → ContractCostParams →
    Except String Budget

variable {CostType Budget : Type} (host : BudgetHost CostType Budget)

/-- The cost types are numbered from zero in the order of the variants, a table of them fits its
vector, and a budget can be built from tables of their number. -/
structure BudgetHost.Documented : Prop where
  variants_ne_nil : host.variants ≠ []
  length_le : host.variants.length ≤ 1024
  numbered : ∀ i : Int32,
    host.costTypeTryFrom i = if 0 ≤ i.toInt then host.variants[i.toInt.toNat]? else none
  accepts : ∀ cpu mem cpuParams memParams, cpuParams.items.length = host.variants.length →
    memParams.items.length = host.variants.length →
      ∃ budget, host.tryFromConfigs cpu mem cpuParams memParams = .ok budget

/-! ### Coverage -/

/-- `CostParamsSnapshot::entry_count`. -/
def CostParamsSnapshot.entryCount (params : CostParamsSnapshot) : ℕ :=
  min params.cpu.length params.mem.length

/-- `ProfileStatus::as_str`. -/
def ProfileStatus.asStr : ProfileStatus → String
  | complete => "COMPLETE"
  | incomplete => "INCOMPLETE"
  | hostUnsupported => "HOST_UNSUPPORTED"

/-- `BudgetCoverage::for_profile`. -/
def BudgetCoverage.forProfile (profile : NetworkProfile) (hostCostTypes : ℕ) : BudgetCoverage :=
  let covered := profile.config.costParams.value.elim 0 CostParamsSnapshot.entryCount
  let status := profile.status host.interfaceProtocol
  { profileStatus := status
    coveredCostTypes := covered
    hostCostTypes
    complete := status = .complete ∧ covered ≥ hostCostTypes }

/-- `network_faithful_plan`, with `host_cost_type_count`. -/
def networkFaithfulPlan (profile : NetworkProfile) : BudgetPlan :=
  .networkFaithful profile (.forProfile host profile host.variants.length)

/-! ### The cost tables -/

/-- `ContractCostParams::try_from`, with the error that is made of its text. -/
def contractCostParams {ε : Type} (error : String → ε) (entries : List ContractCostParamEntry) :
    Except ε ContractCostParams :=
  match VecM.tryFrom entries with
  | some params => .ok params
  | none => .error (error host.lengthExceedsMax)

/-- The terms of an entry. -/
def CostParamEntrySnapshot.terms (entry : CostParamEntrySnapshot) : ContractCostParamEntry :=
  ⟨entry.constTerm, entry.linearTerm⟩

/-- The loop of `cost_params_from_snapshot`, from a position on. -/
def costEntriesFrom :
    ℕ → List CostParamEntrySnapshot → Except FuzzError (List ContractCostParamEntry)
  | _, [] => .ok []
  | i, e :: dim =>
    if e.index.toNat ≠ i then
      .error (.invalidConfig s!"profile cost params: entry {i} declares index {e.index}")
    else
      match host.costTypeTryFrom (Int32.ofNat i) with
      | none =>
        .error (.invalidConfig s!"cost type index {i} is not a valid ContractCostType")
      | some costType =>
        if host.costTypeName costType ≠ e.costType then
          .error (.invalidConfig (s!"profile cost params: index {i} is " ++
            s!"\x60{host.costTypeName costType}\x60 on the host but \x60{e.costType}\x60 " ++
            "in the profile"))
        else do
          let entries ← costEntriesFrom (i + 1) dim
          return e.terms :: entries

/-- `cost_params_from_snapshot`. -/
def costParamsFromSnapshot (cpu mem : List CostParamEntrySnapshot) (forCpu : Bool) :
    Except FuzzError ContractCostParams := do
  let dim := if forCpu then cpu else mem
  let entries ← costEntriesFrom host 0 dim
  contractCostParams host (fun e => .invalidConfig ("profile cost params: " ++ e)) entries

/-! ### The vendored tables -/

/-- `NETWORK_CPU_LIMIT`. -/
def networkCpuLimit : UInt64 := 2500000

/-- `NETWORK_MEM_LIMIT`. -/
def networkMemLimit : UInt64 := 2000000

/-- The cost types of the vendored tables, in their order. -/
def initialCostTypes : List String :=
  ["WasmInsnExec", "MemAlloc", "MemCpy", "MemCmp", "DispatchHostFunction", "VisitObject", "ValSer",
    "ValDeser", "ComputeSha256Hash", "ComputeEd25519PubKey", "VerifyEd25519Sig", "VmInstantiation",
    "VmCachedInstantiation", "InvokeVmFunction", "ComputeKeccak256Hash", "DecodeEcdsaCurve256Sig",
    "RecoverEcdsaSecp256k1Key", "Int256AddSub", "Int256Mul", "Int256Div", "Int256Pow",
    "Int256Shift", "ChaCha20DrawBytes"]

/-- `V20_CPU`: the terms of each cost type. -/
def v20Cpu : List (UInt64 × UInt64) :=
  [(4, 0), (434, 16), (42, 16), (44, 16), (310, 0), (61, 0), (230, 29), (59052, 4001),
    (3738, 7012), (40253, 0), (377524, 4068), (451626, 45405), (451626, 45405), (1948, 0),
    (3766, 5969), (710, 0), (2315295, 0), (4404, 0), (4947, 0), (4911, 0), (4286, 0), (913, 0),
    (1058, 501)]

/-- `V20_MEM`. -/
def v20Mem : List (UInt64 × UInt64) :=
  [(0, 0), (16, 128), (0, 0), (0, 0), (0, 0), (0, 0), (242, 384), (0, 384), (0, 0), (0, 0),
    (0, 0), (130065, 5064), (130065, 5064), (14, 0), (0, 0), (0, 0), (181, 0), (99, 0), (99, 0),
    (99, 0), (99, 0), (99, 0), (0, 0)]

/-- The loop of `params_from_table`, from a position on. The names are matched by position. -/
def tableEntriesFrom :
    ℕ → List (String × UInt64 × UInt64) → Except String (List ContractCostParamEntry)
  | _, [] => .ok []
  | i, (expected, constTerm, linearTerm) :: table =>
    match host.costTypeTryFrom (Int32.ofNat i) with
    | none => .error s!"cost type index {i} is not a valid ContractCostType"
    | some costType =>
      if host.costTypeName costType ≠ expected then
        .error (s!"cost type order mismatch at index {i}: expected {expected}, got " ++
          host.costTypeName costType)
      else do
        let entries ← tableEntriesFrom (i + 1) table
        return ⟨constTerm.toInt64, linearTerm.toInt64⟩ :: entries

/-- `params_from_table`. -/
def paramsFromTable (table : List (UInt64 × UInt64)) : Except String ContractCostParams := do
  let entries ← tableEntriesFrom host 0 (initialCostTypes.zip table)
  contractCostParams host ("cost params conversion: " ++ ·) entries

/-- `network_cpu_cost_params`. -/
def networkCpuCostParams : Except String ContractCostParams := paramsFromTable host v20Cpu

/-- `network_mem_cost_params`. -/
def networkMemCostParams : Except String ContractCostParams := paramsFromTable host v20Mem

/-! ### The budget -/

/-- `Budget::try_from_configs`, with the error that is made of its text. -/
def budgetOf (text : String) (cpu mem : UInt64) (cpuParams memParams : ContractCostParams) :
    Except FuzzError Budget :=
  (host.tryFromConfigs cpu mem cpuParams memParams).mapError fun e => .invalidConfig (text ++ e)

/-- A value of a profile that a budget cannot be built without. -/
def requiredValue {α : Type} (what : String) : Option α → Except FuzzError α
  | some value => .ok value
  | none => .error (.invalidConfig ("NetworkFaithful budget: profile has no " ++ what))

/-- The refusal of a profile that is not covered. -/
def coverageRefusal (coverage : BudgetCoverage) : FuzzError :=
  .invalidConfig (s!"NetworkFaithful budget unavailable: {coverage.asStr} (profile " ++
    s!"{coverage.profileStatus.asStr}, covered {coverage.coveredCostTypes}/" ++
    s!"{coverage.hostCostTypes} cost types)")

/-- The budget of a profile that is covered. -/
def profileBudget (profile : NetworkProfile) : Except FuzzError Budget := do
  let params ← requiredValue "cost params" profile.config.costParams.value
  let cpu ← requiredValue "CPU limit" profile.config.cpuLimit.value
  let mem ← requiredValue "memory limit" profile.config.memLimit.value
  let cpuParams ← costParamsFromSnapshot host params.cpu params.mem true
  let memParams ← costParamsFromSnapshot host params.cpu params.mem false
  budgetOf host "network-faithful budget: " cpu mem cpuParams memParams

/-- `Environment::make_budget`. -/
def Environment.makeBudget (environment : Environment) : Except FuzzError Budget :=
  match environment.budget with
  | .default => .ok host.defaultBudget
  | .capped cpu mem => do
    let params ← contractCostParams host (fun e => .invalidConfig ("cost params: " ++ e)) [⟨1, 0⟩]
    budgetOf host "budget: " cpu mem params params
  | .protocolInitial => do
    let cpuParams ← (networkCpuCostParams host).mapError fun e =>
      .invalidConfig ("network cpu cost params: " ++ e)
    let memParams ← (networkMemCostParams host).mapError fun e =>
      .invalidConfig ("network mem cost params: " ++ e)
    budgetOf host "protocol-initial budget: " networkCpuLimit networkMemLimit cpuParams memParams
  | .networkFaithful profile coverage =>
    if !coverage.complete then .error (coverageRefusal coverage)
    else profileBudget host profile

/-! ### What the loop accepts -/

/-- The entry is the one of the cost type at a position. -/
def EntryAt (i : ℕ) (entry : CostParamEntrySnapshot) : Prop :=
  entry.index.toNat = i ∧ host.variants[i]?.map host.costTypeName = some entry.costType

/-- A table with one entry for each cost type of the host, each at its position. -/
structure HostTable (table : List CostParamEntrySnapshot) : Prop where
  length_eq : table.length = host.variants.length
  entryAt : ∀ i entry, table[i]? = some entry → EntryAt host i entry

variable {host}

theorem costTypeTryFrom_ofNat (hhost : host.Documented) {i : ℕ} (hi : i ≤ host.variants.length) :
    host.costTypeTryFrom (Int32.ofNat i) = host.variants[i]? := by
  have hbound : i < 2147483648 := by
    have hlength := hhost.length_le
    omega
  have hint : (Int32.ofNat i).toInt = i := Int32.toInt_ofNat_of_lt hbound
  rw [hhost.numbered, hint, if_pos (Int.natCast_nonneg i), Int.toNat_natCast]

theorem EntryAt.lt_length {i : ℕ} {entry : CostParamEntrySnapshot} (h : EntryAt host i entry) :
    i < host.variants.length := by
  obtain ⟨costType, hcostType, -⟩ := Option.map_eq_some_iff.mp h.2
  exact (List.getElem?_eq_some_iff.mp hcostType).1

/-- The step of the loop: an entry is accepted if it is the one of the cost type at its position. -/
theorem costEntriesFrom_cons (hhost : host.Documented) {i : ℕ} (hi : i ≤ host.variants.length)
    {entry : CostParamEntrySnapshot} {dim : List CostParamEntrySnapshot}
    {entries : List ContractCostParamEntry} :
    costEntriesFrom host i (entry :: dim) = .ok entries ↔ EntryAt host i entry ∧
      ∃ rest, costEntriesFrom host (i + 1) dim = .ok rest ∧ entry.terms :: rest = entries := by
  rw [costEntriesFrom, costTypeTryFrom_ofNat hhost hi, EntryAt]
  by_cases hindex : entry.index.toNat = i
  · rw [if_neg (not_not.mpr hindex)]
    cases hvariant : host.variants[i]? with
    | none => exact iff_of_false (fun h => nomatch h) fun h => nomatch h.1.2
    | some costType =>
      by_cases hname : host.costTypeName costType = entry.costType
      · simp only [hindex, hname, ne_eq, not_true_eq_false, if_false, Option.map_some, true_and]
        refine Except.bind_eq_ok_iff.trans (exists_congr fun rest => and_congr_right fun _ => ?_)
        exact ⟨Except.ok.inj, congrArg Except.ok⟩
      · simp [hname]
  · rw [if_pos hindex]
    exact iff_of_false (fun h => nomatch h) fun h => hindex h.1.1

/-- **What the loop accepts**: entries that are those of the cost types at their positions. What it
makes of them are their terms. -/
theorem costEntriesFrom_eq_ok_iff (hhost : host.Documented) {i : ℕ}
    (hi : i ≤ host.variants.length) {dim : List CostParamEntrySnapshot}
    {entries : List ContractCostParamEntry} :
    costEntriesFrom host i dim = .ok entries ↔
      (∀ j entry, dim[j]? = some entry → EntryAt host (i + j) entry) ∧
        entries = dim.map CostParamEntrySnapshot.terms := by
  induction dim generalizing i entries with
  | nil =>
    have hnone (j : ℕ) (entry : CostParamEntrySnapshot)
        (h : ([] : List CostParamEntrySnapshot)[j]? = some entry) : EntryAt host (i + j) entry :=
      nomatch h
    constructor
    · intro h
      exact ⟨hnone, (Except.ok.inj h).symm⟩
    · rintro ⟨-, rfl⟩
      rfl
  | cons e dim ih =>
    rw [costEntriesFrom_cons hhost hi]
    constructor
    · rintro ⟨he, rest, hrest, rfl⟩
      obtain ⟨hentries, rfl⟩ := (ih he.lt_length).mp hrest
      refine ⟨fun j entry hj => ?_, rfl⟩
      cases j with
      | zero => exact Option.some.inj hj ▸ he
      | succ j => exact Nat.succ_add_eq_add_succ i j ▸ hentries j entry hj
    · rintro ⟨hentries, rfl⟩
      have he : EntryAt host i e := hentries 0 e rfl
      refine ⟨he, _, (ih he.lt_length).mpr ⟨fun j entry hj => ?_, rfl⟩, rfl⟩
      exact (Nat.succ_add_eq_add_succ i j).symm ▸ hentries (j + 1) entry hj

/-- What the loop accepts is no longer than the cost types of the host. -/
theorem length_le_of_entryAt {dim : List CostParamEntrySnapshot}
    (h : ∀ i entry, dim[i]? = some entry → EntryAt host i entry) :
    dim.length ≤ host.variants.length := by
  by_contra hlong
  have hlt : host.variants.length < dim.length := Nat.lt_of_not_le hlong
  have hat : EntryAt host host.variants.length dim[host.variants.length] :=
    h _ _ (List.getElem?_eq_getElem hlt)
  exact lt_irrefl _ hat.lt_length

theorem contractCostParams_eq_ok_iff {ε : Type} {error : String → ε}
    {entries : List ContractCostParamEntry} {params : ContractCostParams} :
    contractCostParams host error entries = .ok params ↔ params.items = entries := by
  rw [contractCostParams, ← VecM.tryFrom_eq_some_iff]
  cases VecM.tryFrom entries with
  | none => exact iff_of_false (fun h => nomatch h) fun h => nomatch h
  | some v =>
    exact ⟨fun h => congrArg some (Except.ok.inj h), fun h => congrArg _ (Option.some.inj h)⟩

/-- **The parameters of a table** that is long enough: they are made of the tables of the host, and
they are its terms. -/
theorem costParamsFromSnapshot_eq_ok_iff (hhost : host.Documented)
    {cpu mem dim : List CostParamEntrySnapshot} {forCpu : Bool} {params : ContractCostParams}
    (hdim : (if forCpu then cpu else mem) = dim) (hlength : host.variants.length ≤ dim.length) :
    costParamsFromSnapshot host cpu mem forCpu = .ok params ↔
      HostTable host dim ∧ params.items = dim.map CostParamEntrySnapshot.terms := by
  rw [costParamsFromSnapshot, hdim]
  have hloop (entries : List ContractCostParamEntry) : costEntriesFrom host 0 dim = .ok entries ↔
      (∀ i entry, dim[i]? = some entry → EntryAt host i entry) ∧
        entries = dim.map CostParamEntrySnapshot.terms := by
    simpa only [Nat.zero_add] using costEntriesFrom_eq_ok_iff hhost (Nat.zero_le _)
  rw [Except.bind_eq_ok_iff]
  constructor
  · rintro ⟨entries, hentries, hparams⟩
    obtain ⟨hat, rfl⟩ := (hloop entries).mp hentries
    exact ⟨⟨(length_le_of_entryAt hat).antisymm hlength, hat⟩,
      contractCostParams_eq_ok_iff.mp hparams⟩
  · rintro ⟨htable, hparams⟩
    exact ⟨_, (hloop _).mpr ⟨htable.entryAt, rfl⟩, contractCostParams_eq_ok_iff.mpr hparams⟩

/-! ### What is covered -/

section

variable (host)

/-- A profile that a budget can be built from: its protocol is one of the host, what a budget or a
replay needs of it was observed, and its tables are tables of the host. -/
structure Chargeable (profile : NetworkProfile) : Prop where
  protocol : profile.protocolVersion ≤ host.interfaceProtocol
  cpuLimit : profile.config.cpuLimit.value.isSome
  memLimit : profile.config.memLimit.value.isSome
  ledgerMaxInstructions : profile.config.ledgerMaxInstructions.value.isSome
  maxContractSizeBytes : profile.config.maxContractSizeBytes.value.isSome
  txMaxSizeBytes : profile.config.txMaxSizeBytes.value.isSome
  costParams : ∃ params ∈ profile.config.costParams.value,
    HostTable host params.cpu ∧ HostTable host params.mem

/-- The budget is built from the limits of a profile and, position by position, from its terms. -/
def ChargesAs (profile : NetworkProfile) (budget : Budget) : Prop :=
  ∃ cpu ∈ profile.config.cpuLimit.value, ∃ mem ∈ profile.config.memLimit.value,
    ∃ params ∈ profile.config.costParams.value, ∃ cpuParams memParams : ContractCostParams,
      cpuParams.items = params.cpu.map CostParamEntrySnapshot.terms ∧
        memParams.items = params.mem.map CostParamEntrySnapshot.terms ∧
          host.tryFromConfigs cpu mem cpuParams memParams = .ok budget

end

theorem hasCompleteConfiguration_iff {profile : NetworkProfile} :
    profile.hasCompleteConfiguration ↔ profile.config.cpuLimit.value.isSome ∧
      profile.config.memLimit.value.isSome ∧ profile.config.ledgerMaxInstructions.value.isSome ∧
      profile.config.maxContractSizeBytes.value.isSome ∧
      profile.config.txMaxSizeBytes.value.isSome ∧ ∃ params ∈ profile.config.costParams.value,
        params.cpu.length = params.mem.length ∧ params.cpu ≠ [] := by
  rw [NetworkProfile.hasCompleteConfiguration]
  cases hparams : profile.config.costParams.value with
  | none => simp [Observed.isAvailable, hparams]
  | some params =>
    simp [Observed.isAvailable, hparams, CostParamsSnapshot.isMalformed, and_assoc]

theorem status_eq_complete_iff {protocol : UInt32} {profile : NetworkProfile} :
    profile.status protocol = .complete ↔
      profile.protocolVersion ≤ protocol ∧ profile.hasCompleteConfiguration := by
  rw [NetworkProfile.status]
  by_cases hprotocol : profile.protocolVersion > protocol
  · rw [if_pos hprotocol]
    exact iff_of_false (fun h => nomatch h) fun h => absurd h.1 (UInt32.not_le.mpr hprotocol)
  · rw [if_neg hprotocol]
    have hle : profile.protocolVersion ≤ protocol := UInt32.not_lt.mp hprotocol
    cases hcomplete : profile.hasCompleteConfiguration with
    | true => simp [hle]
    | false => simp

/-- **Which profiles are covered**: those that are complete, with tables that are long enough. -/
theorem forProfile_complete_iff {profile : NetworkProfile} {hostCostTypes : ℕ} :
    (BudgetCoverage.forProfile host profile hostCostTypes).complete ↔
      profile.protocolVersion ≤ host.interfaceProtocol ∧ profile.hasCompleteConfiguration ∧
        ∃ params ∈ profile.config.costParams.value,
          params.cpu.length = params.mem.length ∧ hostCostTypes ≤ params.cpu.length := by
  rw [BudgetCoverage.forProfile, decide_eq_true_iff, status_eq_complete_iff, and_assoc]
  refine and_congr_right fun _ => and_congr_right fun hcomplete => ?_
  obtain ⟨-, -, -, -, -, params, hparams, hlength, -⟩ := hasCompleteConfiguration_iff.mp hcomplete
  rw [Option.mem_def.mp hparams]
  simp only [Option.elim_some, CostParamsSnapshot.entryCount, hlength, min_self, ge_iff_le,
    Option.mem_some_iff, exists_eq_left', true_and]

theorem Chargeable.complete (hhost : host.Documented) {profile : NetworkProfile}
    (h : Chargeable host profile) :
    (BudgetCoverage.forProfile host profile host.variants.length).complete := by
  obtain ⟨params, hparams, hcpu, hmem⟩ := h.costParams
  have hlength : params.cpu.length = params.mem.length := hcpu.length_eq.trans hmem.length_eq.symm
  have hne : params.cpu ≠ [] := by
    rw [← List.length_pos_iff, hcpu.length_eq]
    exact List.length_pos_iff.mpr hhost.variants_ne_nil
  exact forProfile_complete_iff.mpr ⟨h.protocol,
    hasCompleteConfiguration_iff.mpr ⟨h.cpuLimit, h.memLimit, h.ledgerMaxInstructions,
      h.maxContractSizeBytes, h.txMaxSizeBytes, params, hparams, hlength, hne⟩,
    params, hparams, hlength, hcpu.length_eq.ge⟩

/-! ### The budget of a profile -/

theorem requiredValue_eq_ok_iff {α : Type} {what : String} {observed : Option α} {value : α} :
    requiredValue what observed = .ok value ↔ observed = some value := by
  cases observed with
  | none => exact iff_of_false (fun h => nomatch h) fun h => nomatch h
  | some v =>
    exact ⟨fun h => congrArg some (Except.ok.inj h), fun h => congrArg _ (Option.some.inj h)⟩

theorem profileBudget_eq_ok_iff {profile : NetworkProfile} {budget : Budget} :
    profileBudget host profile = .ok budget ↔
      ∃ params ∈ profile.config.costParams.value, ∃ cpu ∈ profile.config.cpuLimit.value,
        ∃ mem ∈ profile.config.memLimit.value, ∃ cpuParams memParams,
          costParamsFromSnapshot host params.cpu params.mem true = .ok cpuParams ∧
            costParamsFromSnapshot host params.cpu params.mem false = .ok memParams ∧
              host.tryFromConfigs cpu mem cpuParams memParams = .ok budget := by
  rw [profileBudget]
  simp only [Except.bind_eq_ok_iff, requiredValue_eq_ok_iff, budgetOf, Except.mapError_eq_ok_iff,
    Option.mem_def, exists_and_left]

/-- A plan with a profile has a budget if its coverage is complete. -/
theorem makeBudget_profile_eq_ok_iff {ledger : LedgerConfig} {profile : NetworkProfile}
    {coverage : BudgetCoverage} {budget : Budget} :
    Environment.makeBudget host ⟨ledger, .networkFaithful profile coverage⟩ = .ok budget ↔
      coverage.complete ∧ profileBudget host profile = .ok budget := by
  have hplan : Environment.makeBudget host ⟨ledger, .networkFaithful profile coverage⟩ =
      if !coverage.complete then .error (coverageRefusal coverage)
      else profileBudget host profile := rfl
  rw [hplan]
  cases coverage.complete with
  | false => exact iff_of_false (fun h => nomatch h) fun h => nomatch h.1
  | true => exact ⟨fun h => ⟨rfl, h⟩, fun h => h.2⟩

/-- **What is built**: a budget from a profile that one can be built from, as the profile says. -/
theorem makeBudget_eq_ok_iff (hhost : host.Documented) {ledger : LedgerConfig}
    {profile : NetworkProfile} {budget : Budget} :
    Environment.makeBudget host ⟨ledger, networkFaithfulPlan host profile⟩ = .ok budget ↔
      Chargeable host profile ∧ ChargesAs host profile budget := by
  rw [networkFaithfulPlan, makeBudget_profile_eq_ok_iff, profileBudget_eq_ok_iff]
  constructor
  · rintro ⟨hcomplete, params, hparams, cpu, hcpu, mem, hmem, cpuParams, memParams, hcpuParams,
      hmemParams, hbudget⟩
    obtain ⟨hprotocol, hconfig, params', hparams', hlength, hcovered⟩ :=
      forProfile_complete_iff.mp hcomplete
    obtain rfl : params = params' := Option.mem_unique hparams hparams'
    obtain ⟨hcpuTable, hcpuItems⟩ :=
      (costParamsFromSnapshot_eq_ok_iff hhost (if_pos rfl) hcovered).mp hcpuParams
    obtain ⟨hmemTable, hmemItems⟩ :=
      (costParamsFromSnapshot_eq_ok_iff hhost (if_neg Bool.false_ne_true)
        (hcovered.trans hlength.le)).mp hmemParams
    obtain ⟨hcpuLimit, hmemLimit, hledger, hsize, htx, -⟩ := hasCompleteConfiguration_iff.mp hconfig
    exact ⟨⟨hprotocol, hcpuLimit, hmemLimit, hledger, hsize, htx, params, hparams, hcpuTable,
      hmemTable⟩, cpu, hcpu, mem, hmem, params, hparams, cpuParams, memParams, hcpuItems, hmemItems,
      hbudget⟩
  · rintro ⟨hchargeable, cpu, hcpu, mem, hmem, params, hparams, cpuParams, memParams, hcpuItems,
      hmemItems, hbudget⟩
    obtain ⟨params', hparams', hcpuTable, hmemTable⟩ := hchargeable.costParams
    obtain rfl : params = params' := Option.mem_unique hparams hparams'
    refine ⟨hchargeable.complete hhost, params, hparams, cpu, hcpu, mem, hmem, cpuParams,
      memParams, ?_, ?_, hbudget⟩
    · exact (costParamsFromSnapshot_eq_ok_iff hhost (if_pos rfl) hcpuTable.length_eq.ge).mpr
        ⟨hcpuTable, hcpuItems⟩
    · exact (costParamsFromSnapshot_eq_ok_iff hhost (if_neg Bool.false_ne_true)
        hmemTable.length_eq.ge).mpr ⟨hmemTable, hmemItems⟩

/-- A budget can be built from such a profile, as it says. -/
theorem Chargeable.exists_chargesAs (hhost : host.Documented) {profile : NetworkProfile}
    (h : Chargeable host profile) : ∃ budget, ChargesAs host profile budget := by
  obtain ⟨cpu, hcpu⟩ := Option.isSome_iff_exists.mp h.cpuLimit
  obtain ⟨mem, hmem⟩ := Option.isSome_iff_exists.mp h.memLimit
  obtain ⟨params, hparams, hcpuTable, hmemTable⟩ := h.costParams
  have hvector {table : List CostParamEntrySnapshot} (htable : HostTable host table) :
      ∃ v : ContractCostParams, v.items = table.map CostParamEntrySnapshot.terms ∧
        v.items.length = host.variants.length := by
    have hlength : (table.map CostParamEntrySnapshot.terms).length = host.variants.length :=
      (List.length_map _).trans htable.length_eq
    exact ⟨⟨_, hlength.trans_le hhost.length_le⟩, rfl, hlength⟩
  obtain ⟨cpuParams, hcpuItems, hcpuLength⟩ := hvector hcpuTable
  obtain ⟨memParams, hmemItems, hmemLength⟩ := hvector hmemTable
  obtain ⟨budget, hbudget⟩ := hhost.accepts cpu mem cpuParams memParams hcpuLength hmemLength
  exact ⟨budget, cpu, hcpu, mem, hmem, params, hparams, cpuParams, memParams, hcpuItems, hmemItems,
    hbudget⟩

/-! ### The vendored tables are built as they are -/

theorem tableEntriesFrom_eq_ok (hhost : host.Documented) {i : ℕ}
    {table : List (String × UInt64 × UInt64)}
    (hnames : ∀ j row, table[j]? = some row →
      host.variants[i + j]?.map host.costTypeName = some row.1) :
    tableEntriesFrom host i table =
      .ok (table.map fun row => ⟨row.2.1.toInt64, row.2.2.toInt64⟩) := by
  induction table generalizing i with
  | nil => rfl
  | cons row table ih =>
    obtain ⟨expected, constTerm, linearTerm⟩ := row
    obtain ⟨costType, hcostType, hname⟩ := Option.map_eq_some_iff.mp (hnames 0 _ rfl)
    have hi : i < host.variants.length := (List.getElem?_eq_some_iff.mp hcostType).1
    have hrest := ih fun j row hj =>
      (Nat.succ_add_eq_add_succ i j).symm ▸ hnames (j + 1) row hj
    rw [Nat.add_zero] at hcostType
    rw [tableEntriesFrom, costTypeTryFrom_ofNat hhost hi.le, hcostType]
    simp only [hname, ne_eq, not_true_eq_false, if_false, hrest]
    rfl

/-- A vendored table on a host whose first cost types are the initial ones. -/
theorem exists_paramsFromTable (hhost : host.Documented)
    (hnames : initialCostTypes <+: host.variants.map host.costTypeName)
    (table : List (UInt64 × UInt64)) (hlength : table.length = initialCostTypes.length) :
    ∃ params, paramsFromTable host table = .ok params ∧
      params.items = table.map fun row => ⟨row.1.toInt64, row.2.toInt64⟩ := by
  have hrows : (initialCostTypes.zip table).map Prod.snd = table := List.map_snd_zip hlength.le
  have hentries : tableEntriesFrom host 0 (initialCostTypes.zip table) =
      .ok (table.map fun row => ⟨row.1.toInt64, row.2.toInt64⟩) := by
    refine (tableEntriesFrom_eq_ok hhost fun j row hj => ?_).trans ?_
    · obtain ⟨hname, -⟩ := List.getElem?_zip_eq_some.mp hj
      obtain ⟨rest, hrest⟩ := hnames
      rw [Nat.zero_add, ← List.getElem?_map, ← hrest,
        List.getElem?_append_left (List.getElem?_eq_some_iff.mp hname).1, hname]
    · conv_rhs => rw [← hrows, List.map_map]
      rfl
  have hbound : (table.map fun row =>
      (⟨row.1.toInt64, row.2.toInt64⟩ : ContractCostParamEntry)).length ≤ 1024 := by
    rw [List.length_map, hlength]
    decide
  refine ⟨⟨_, hbound⟩, ?_, rfl⟩
  rw [paramsFromTable, hentries]
  exact contractCostParams_eq_ok_iff.mpr rfl

/-- **The protocol-initial budget** is built from the vendored limits and tables. -/
theorem protocolInitial_makeBudget (hhost : host.Documented)
    (hnames : initialCostTypes <+: host.variants.map host.costTypeName) (ledger : LedgerConfig) :
    ∃ cpuParams memParams : ContractCostParams,
      cpuParams.items = v20Cpu.map (fun row => ⟨row.1.toInt64, row.2.toInt64⟩) ∧
        memParams.items = v20Mem.map (fun row => ⟨row.1.toInt64, row.2.toInt64⟩) ∧
          Environment.makeBudget host ⟨ledger, .protocolInitial⟩ =
            budgetOf host "protocol-initial budget: " networkCpuLimit networkMemLimit cpuParams
              memParams := by
  obtain ⟨cpuParams, hcpu, hcpuItems⟩ := exists_paramsFromTable hhost hnames v20Cpu rfl
  obtain ⟨memParams, hmem, hmemItems⟩ := exists_paramsFromTable hhost hnames v20Mem rfl
  refine ⟨cpuParams, memParams, hcpuItems, hmemItems, ?_⟩
  rw [Environment.makeBudget, networkCpuCostParams, networkMemCostParams, hcpu, hmem]
  rfl

/-! ### What is executed -/

/-! ### A host with its cost types -/

/-- `ContractCostType::variants()` of the pinned host, by their names. -/
def pinnedCostTypes : List String :=
  initialCostTypes ++
    (["Parse", "Instantiate"].flatMap fun phase =>
      ["Instructions", "Functions", "Globals", "TableEntries", "Types", "DataSegments",
        "ElemSegments", "Imports", "Exports", "DataSegmentBytes"].map (phase ++ "Wasm" ++ ·)) ++
    ["Sec1DecodePointUncompressed", "VerifyEcdsaSecp256r1Sig"] ++
    ["EncodeFp", "DecodeFp", "G1CheckPointOnCurve", "G1CheckPointInSubgroup",
      "G2CheckPointOnCurve", "G2CheckPointInSubgroup", "G1ProjectiveToAffine",
      "G2ProjectiveToAffine", "G1Add", "G1Mul", "G1Msm", "MapFpToG1", "HashToG1", "G2Add", "G2Mul",
      "G2Msm", "MapFp2ToG2", "HashToG2", "Pairing", "FrFromU256", "FrToU256", "FrAddSub", "FrMul",
      "FrPow", "FrInv"].map ("Bls12381" ++ ·) ++
    ["EncodeFp", "DecodeFp", "G1CheckPointOnCurve", "G2CheckPointOnCurve",
      "G2CheckPointInSubgroup", "G1ProjectiveToAffine", "G1Add", "G1Mul", "Pairing", "FrFromU256",
      "FrToU256", "FrAddSub", "FrMul", "FrPow", "FrInv", "G1Msm"].map ("Bn254" ++ ·)

example : pinnedCostTypes.length = 86 := by decide

/-- A host whose budgets are what they are built from. -/
def pinnedHost :
    BudgetHost String (Option (UInt64 × UInt64 × ContractCostParams × ContractCostParams)) where
  interfaceProtocol := 29
  variants := pinnedCostTypes
  costTypeTryFrom i := if 0 ≤ i.toInt then pinnedCostTypes[i.toInt.toNat]? else none
  costTypeName name := name
  lengthExceedsMax := "xdr value max length exceeded"
  defaultBudget := none
  tryFromConfigs cpu mem cpuParams memParams := .ok (some (cpu, mem, cpuParams, memParams))

theorem pinnedHost_documented : pinnedHost.Documented where
  variants_ne_nil := List.cons_ne_nil _ _
  length_le := by decide
  numbered _ := rfl
  accepts cpu mem cpuParams memParams _ _ := ⟨some (cpu, mem, cpuParams, memParams), rfl⟩

theorem protocolInitial_makeBudget_pinned :
    ∃ budget, Environment.makeBudget pinnedHost ⟨.default, .protocolInitial⟩ = .ok budget := by
  obtain ⟨_, _, -, -, h⟩ := protocolInitial_makeBudget pinnedHost_documented
    (by decide : initialCostTypes <+: pinnedHost.variants.map pinnedHost.costTypeName) .default
  exact ⟨_, h⟩

/-- A table that was observed on the pinned host. -/
def pinnedTable : List CostParamEntrySnapshot :=
  pinnedCostTypes.zipIdx.map fun (name, i) => ⟨name, UInt32.ofNat i, 4 + Int64.ofNat i, 0⟩

theorem pinnedTable_hostTable : HostTable pinnedHost pinnedTable where
  length_eq := by rw [pinnedTable, List.length_map, List.length_zipIdx]; rfl
  entryAt i entry h := by
    obtain ⟨⟨name, j⟩, hname, rfl⟩ := Option.map_eq_some_iff.mp (List.getElem?_map ▸ h)
    rw [List.getElem?_zipIdx, Nat.zero_add] at hname
    obtain ⟨name, hat, hpair⟩ := Option.map_eq_some_iff.mp hname
    obtain ⟨rfl, rfl⟩ := Prod.mk.inj hpair
    have hlt : i < 86 := (List.getElem?_eq_some_iff.mp hat).1
    have hsize : i < UInt32.size := hlt.trans (by decide)
    exact ⟨UInt32.toNat_ofNat_of_lt hsize, congrArg _ hat⟩

/-- A profile of the pinned host's protocol. -/
def pinnedProfile : NetworkProfile :=
  let live {α : Type} (value : α) : Observed α := ⟨some value, .liveConfigSetting, some 62447231⟩
  { schemaVersion := 1
    networkName := "mainnet"
    passphrase := "Public Global Stellar Network ; September 2015"
    networkId := Vector.replicate 32 0
    protocolVersion := 29
    ledgerSequence := 64846678
    sourceEndpoint := "https://mainnet.sorobanrpc.com"
    capturedAtUnix := 1791518867
    config := {
      cpuLimit := live 400000000
      memLimit := live 41943040
      ledgerMaxInstructions := live 580000000
      feeRatePerInstructionsIncrement := live 7
      maxContractSizeBytes := live 131072
      txMaxSizeBytes := live 132096
      txMaxContractEventsSizeBytes := live 16384
      feeContractEvents1kb := live 200
      costParams := live ⟨pinnedTable, pinnedTable⟩ }
    contentHashCache := none }

/-! ### Faithfulness -/

/-- **A network-faithful budget charges exactly what the profile says.** One is built exactly from
the profiles that cover what the host charges for, and as they say. -/
theorem networkFaithful_makeBudget (hhost : host.Documented) (ledger : LedgerConfig)
    (profile : NetworkProfile) :
    let environment : Environment := ⟨ledger, networkFaithfulPlan host profile⟩
    ((∃ budget, environment.makeBudget host = .ok budget) ↔ Chargeable host profile) ∧
      ∀ budget, environment.makeBudget host = .ok budget → ChargesAs host profile budget := by
  refine ⟨⟨?_, fun h => ?_⟩, fun budget h => ((makeBudget_eq_ok_iff hhost).mp h).2⟩
  · rintro ⟨budget, hbudget⟩
    exact ((makeBudget_eq_ok_iff hhost).mp hbudget).1
  · obtain ⟨budget, hbudget⟩ := h.exists_chargesAs hhost
    exact ⟨budget, (makeBudget_eq_ok_iff hhost).mpr ⟨h, hbudget⟩⟩

/-- The budget of such a profile is built of its own limits and tables. -/
theorem networkFaithful_makeBudget_pinned :
    ∃ budget, Environment.makeBudget pinnedHost
        ⟨.default, networkFaithfulPlan pinnedHost pinnedProfile⟩ = .ok budget ∧
      ChargesAs pinnedHost pinnedProfile budget := by
  obtain ⟨hbuilt, hcharges⟩ :=
    networkFaithful_makeBudget pinnedHost_documented .default pinnedProfile
  have hchargeable : Chargeable pinnedHost pinnedProfile := {
    protocol := by decide
    cpuLimit := rfl
    memLimit := rfl
    ledgerMaxInstructions := rfl
    maxContractSizeBytes := rfl
    txMaxSizeBytes := rfl
    costParams := ⟨_, rfl, pinnedTable_hostTable, pinnedTable_hostTable⟩ }
  obtain ⟨budget, hbudget⟩ := hbuilt.mpr hchargeable
  exact ⟨budget, hbudget, hcharges budget hbudget⟩

end SorobanDevkit.Fuzz
