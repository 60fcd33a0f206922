import Mathlib.Data.List.Sort
import SorobanDevkit.Fuzz.Chaining
import SorobanDevkit.Fuzz.Generator
import SorobanDevkit.Library.LastWrite

/-!
# One execution on the host

`execute_with_auth` of `sdkt-fuzz/src/executor.rs` seeds a fresh host with the code, the instance
and the data entries of a case, invokes the function, and observes what the host reports to have
changed (`state_entries_from_footprint` of `sdkt-fuzz/src/observation.rs`). The invocation itself,
the budget and the XDR that only the host reads are parameters.
-/

namespace SorobanDevkit.Fuzz

open Wasm (utf8)
open Xdr

/-! ### The crate of the host -/

/-- `LedgerInfo`. -/
structure LedgerInfo where
  protocolVersion : UInt32
  sequenceNumber : UInt32
  timestamp : UInt64
  networkId : Bytes32
  baseReserve : UInt32
  minTempEntryTtl : UInt32
  minPersistentEntryTtl : UInt32
  maxEntryTtl : UInt32

/-- `LedgerFootprint`. -/
structure LedgerFootprint where
  readOnly : VecM u32Max LedgerKey
  readWrite : VecM u32Max LedgerKey

/-- `SorobanResources`. -/
structure SorobanResources where
  footprint : LedgerFootprint
  instructions : UInt32
  diskReadBytes : UInt32
  writeBytes : UInt32

/-- `TtlLedgerEntryMeta`. -/
structure TtlLedgerEntryMeta where
  liveUntilLedger : UInt32
  entrySizeForRent : UInt32

/-- What `invoke_host_function` is given. -/
structure Invocation (Budget : Type) where
  budget : Budget
  encodedHostFn : List UInt8
  encodedResources : List UInt8
  encodedSource : List UInt8
  authEntries : List (List UInt8)
  ledgerInfo : LedgerInfo
  encodedLedgerEntries : List (List UInt8 × TtlLedgerEntryMeta)
  basePrngSeed : List UInt8

/-- `soroban_env_host::Error`: its type, if it has one, and its code. -/
structure HostError where
  type : Option ScErrorType
  code : UInt32

/-- `LedgerEntryChange`. -/
structure LedgerEntryChange where
  encodedKey : List UInt8
  encodedNewValue : Option (List UInt8)

/-- `InvokeHostFunctionResult`, and what the counters of the budget then are. -/
structure InvokeHostFunctionResult where
  encodedInvokeResult : Except HostError (List UInt8)
  ledgerChanges : List LedgerEntryChange
  encodedContractEvents : List (List UInt8)
  budget : Except String BudgetUsage

/-- `ContractEventType`. -/
inductive ContractEventType
  | system
  | contract
  | diagnostic
  deriving DecidableEq

/-- `ContractEvent`. -/
structure ContractEvent where
  contractId : Option Bytes32
  type : ContractEventType
  topics : List ScVal
  data : ScVal

/-- The crate of the host. Errors are given by their texts. -/
structure HostApi (Budget : Type) where
  protocolVersion : UInt32
  load : List UInt8 → Except FuzzError Unit
  makeBudget : Environment → Except String Budget
  entrySizeForRent : Budget → LedgerEntry → UInt32 → Except String UInt32
  writeInvokeContract : InvokeContractArgs → Except String (List UInt8)
  writeResources : SorobanResources → Except String (List UInt8)
  writeAccountId : AccountId → Except String (List UInt8)
  readContractEvent : List UInt8 → Except String ContractEvent
  invokeHostFunction : Invocation Budget → Except String InvokeHostFunctionResult

/-! ### Before the invocation -/

/-- `instance_entry`: the instance that the executor makes for a case. -/
def instanceEntry (contract : ScAddress) (wasmHash : Bytes32) (storage : InstanceStorage) :
    LedgerEntry :=
  let entries := dedupByKey (sortByKey storage)
  ⟨0, .contractData ⟨contract, .ledgerKeyContractInstance, .persistent,
    .contractInstance (.wasm wasmHash) (if entries = [] then none else some entries)⟩, []⟩

/-- `Environment::ledger_info`. -/
def Environment.ledgerInfo (environment : Environment) (protocolVersion : UInt32)
    (networkId : Bytes32) : LedgerInfo where
  protocolVersion := protocolVersion
  sequenceNumber := environment.ledger.sequenceNumber
  timestamp := environment.ledger.timestamp
  networkId := networkId
  baseReserve := 5000000
  minTempEntryTtl := 16
  minPersistentEntryTtl := 100000
  maxEntryTtl := 10000000

/-- `saturating_add`. -/
def saturatingAdd (a b : UInt32) : UInt32 :=
  if a.toNat + b.toNat < 2 ^ 32 then a + b else 0xFFFFFFFF

/-- A baseline entry that is refused. -/
def refusedBaseline (message : String) : FuzzError := .invalidSetup (.baselineEntry message)

/-- The check of a baseline entry. -/
def checkBaselineEntry (contract : ScAddress) (entry : LedgerEntry) : Except FuzzError Unit :=
  match entry.data with
  | .contractData d =>
    if d.contract ≠ contract then
      .error (refusedBaseline "baseline entry belongs to another contract")
    else if d.key = .ledgerKeyContractInstance then
      .error (refusedBaseline ("the contract instance entry is seeded by the executor; " ++
        "do not include it in baseline_entries"))
    else .ok ()
  | _ =>
    .error (refusedBaseline "only LedgerEntryData::ContractData baseline entries are supported")

/-- The keys of the read-write footprint, after those that are there. -/
def readWriteKeys : (keys : List LedgerKey) → List LedgerEntry → Except FuzzError (List LedgerKey)
  | keys, [] => .ok keys
  | keys, entry :: entries =>
    if entry.toKey ∈ keys then .error (refusedBaseline "duplicate baseline entry key")
    else readWriteKeys (keys ++ [entry.toKey]) entries

/-- `encode_xdr`. -/
def encodeXdr (xdr : Except String (List UInt8)) : Except FuzzError (List UInt8) :=
  xdr.mapError fun e => .execution ("xdr encoding failed: " ++ e)

/-- `xdr_limit_err`. -/
def vecM {α : Type} (crates : Crates) (items : List α) : Except FuzzError (VecM u32Max α) :=
  match VecM.tryFrom items with
  | some v => .ok v
  | none => .error (.execution ("xdr size limit: " ++ crates.lengthExceedsMax))

/-- A seeded entry: the XDR of its key and of the entry, and its time to live. -/
structure SeededEntry where
  keyXdr : List UInt8
  valueXdr : List UInt8
  ttl : TtlLedgerEntryMeta

/-- What an execution prepares: what the host is invoked on, and the baseline by the XDR of the
keys. -/
structure Prepared (Budget : Type) where
  invocation : Invocation Budget
  seeded : List SeededEntry

section

variable {Budget : Type} (crates : Crates) (xdr : LedgerXdr) (api : HostApi Budget)

/-- `ttl_meta`. -/
def ttlMeta (budget : Budget) (entry : LedgerEntry) (liveUntil : UInt32) :
    Except FuzzError TtlLedgerEntryMeta := do
  let bytes ← encodeXdr (xdr.writeEntry entry)
  let entrySizeForRent ← (api.entrySizeForRent budget entry (UInt32.ofNat bytes.length)).mapError
    fun e => .execution ("rent size failed: " ++ e)
  .ok { liveUntilLedger := liveUntil, entrySizeForRent }

/-- The encoding of a read-write entry. -/
def seedEntry (budget : Budget) (liveUntil : UInt32) (entry : LedgerEntry) :
    Except FuzzError SeededEntry := do
  let keyXdr ← encodeXdr (xdr.writeKey entry.toKey)
  let valueXdr ← encodeXdr (xdr.writeEntry entry)
  let ttl ← ttlMeta xdr api budget entry liveUntil
  .ok { keyXdr, valueXdr, ttl }

/-- The call of a case. -/
def invokeContractArgs (contract : ScAddress) (call : FunctionCall) :
    Except FuzzError InvokeContractArgs :=
  match VecM.tryFrom (utf8 call.function) with
  | none =>
    .error (.execution ("function name is not a valid ScSymbol: " ++ call.function))
  | some functionName => do
    let args ← vecM crates call.args
    .ok { contractAddress := contract, functionName, args }

/-- `execute_with_auth`, up to the invocation. -/
def prepare (wasm : List UInt8) (config : FuzzConfig) (contract : ScAddress) (call : FunctionCall)
    (baseline : List LedgerEntry) (storage : InstanceStorage) (environment : Environment)
    (authEntries : List (List UInt8)) : Except FuzzError (Prepared Budget) := do
  let budget ← (api.makeBudget environment).mapError .invalidConfig
  let ledgerInfo := environment.ledgerInfo api.protocolVersion config.networkId
  let liveUntil := saturatingAdd ledgerInfo.sequenceNumber baselineTtlWindow
  baseline.forM (checkBaselineEntry contract)
  let wasmHash := crates.sha256 wasm
  let inst := instanceEntry contract wasmHash storage
  let keys ← readWriteKeys [inst.toKey] baseline
  let readOnly ← vecM crates [LedgerKey.contractCode wasmHash]
  let readWrite ← vecM crates keys
  Except.ensure (wasm.length ≤ u32Max)
    (FuzzError.invalidSetup (.wasm "wasm exceeds the ContractCode entry size limit"))
  let code : LedgerEntry := ⟨0, .contractCode wasmHash wasm, []⟩
  let codeXdr ← encodeXdr (xdr.writeEntry code)
  let codeTtl ← ttlMeta xdr api budget code liveUntil
  let seeded ← (inst :: baseline).mapM (seedEntry xdr api budget liveUntil)
  let hostFn ← invokeContractArgs crates contract call
  let encodedHostFn ← encodeXdr (api.writeInvokeContract hostFn)
  let encodedResources ← encodeXdr (api.writeResources ⟨⟨readOnly, readWrite⟩, 0xFFFFFFFF, 0, 0⟩)
  let encodedSource ← encodeXdr (api.writeAccountId ⟨.ed25519 deployer⟩)
  .ok {
    invocation := {
      budget, encodedHostFn, encodedResources, encodedSource, authEntries, ledgerInfo
      encodedLedgerEntries := (codeXdr, codeTtl) :: seeded.map fun e => (e.valueXdr, e.ttl)
      basePrngSeed := config.seed.toList }
    seeded }

end

/-! ### After the invocation -/

/-- The name of an error type. -/
def errorTypeName : ScErrorType → String
  | .contract => "Contract"
  | .wasmVm => "WasmVm"
  | .context => "Context"
  | .storage => "Storage"
  | .object => "Object"
  | .crypto => "Crypto"
  | .events => "Events"
  | .budget => "Budget"
  | .value => "Value"
  | .auth => "Auth"

/-- `error_type_and_code`. -/
def errorTypeAndCode (error : HostError) : Except FuzzError (String × UInt32) :=
  match error.type with
  | some type => .ok (errorTypeName type, error.code)
  | none => .error (.observation "undecodable host error type")

/-- The status of an execution. -/
def executionStatus (crates : Crates) :
    Except HostError (List UInt8) → Except FuzzError ExecutionStatus
  | .ok bytes => do
    let val ← (crates.readScVal bytes).mapError fun e =>
      .observation ("invoke result did not decode: " ++ e)
    .ok (if val = .void then .void else .returned val)
  | .error hostError => do
    let (errorType, code) ← errorTypeAndCode hostError
    .ok (.contractError errorType code)

/-- What happened to an entry, by its value in the baseline and its new one. -/
def stateChange : (baseline newValue : Option (List UInt8)) → StateChange
  | some _, none => .deleted
  | none, none => .unchanged
  | none, some _ => .created
  | some old, some new => if old = new then .unchanged else .updated

/-- The baseline, by the XDR of the keys. -/
def baselineMap (seeded : List SeededEntry) (keyXdr : List UInt8) : Option (List UInt8) :=
  (LastWrite.lastOf seeded fun e => e.keyXdr = keyXdr).map SeededEntry.valueXdr

/-- The order of entries by the XDR of their keys. -/
def StateEntry.KeyLE (a b : StateEntry) : Prop := (compare a.keyXdr b.keyXdr).isLE = true

instance : DecidableRel StateEntry.KeyLE := fun a b =>
  inferInstanceAs (Decidable ((compare a.keyXdr b.keyXdr).isLE = true))

/-- `state_entries_from_footprint`. -/
def stateEntriesFromFootprint (changes : List LedgerEntryChange)
    (baseline : List UInt8 → Option (List UInt8)) : List StateEntry :=
  (changes.map fun c =>
    { keyXdr := c.encodedKey
      valueXdr := c.encodedNewValue
      change := stateChange (baseline c.encodedKey) c.encodedNewValue }).insertionSort
    StateEntry.KeyLE

/-- `Debug` of an event type. -/
def ContractEventType.debug : ContractEventType → String
  | .system => "System"
  | .contract => "Contract"
  | .diagnostic => "Diagnostic"

section

variable {Budget : Type} (crates : Crates) (xdr : LedgerXdr) (api : HostApi Budget)

/-- `decode_events`. -/
def decodeEvents (encoded : List (List UInt8)) : Except FuzzError (List EventRecord) :=
  encoded.mapM fun bytes => do
    let event ← (api.readContractEvent bytes).mapError fun e =>
      .observation ("event did not decode: " ++ e)
    .ok { contractId := event.contractId, eventType := event.type.debug, topics := event.topics,
          data := event.data }

/-- `execute_with_auth`, after the invocation. -/
def observe (seeded : List SeededEntry) (result : InvokeHostFunctionResult) :
    Except FuzzError Execution := do
  let status ← executionStatus crates result.encodedInvokeResult
  let state := stateEntriesFromFootprint result.ledgerChanges (baselineMap seeded)
  let events ← decodeEvents api result.encodedContractEvents
  let budget ← result.budget.mapError .observation
  .ok { status, state, events, budget }

/-- The host of an executor: `execute_with_auth` on a case whose instance the executor makes. -/
def HostApi.toHost : Host where
  load := api.load
  run wasm config contract call baseline storage environment authEntries := do
    let prepared ← prepare crates xdr api wasm config contract call baseline storage environment
      authEntries
    let result ← (api.invokeHostFunction prepared.invocation).mapError fun e =>
      .execution ("host could not run the case: " ++ e)
    observe crates api prepared.seeded result

end

/-! ### The order of the observed entries -/

instance : Std.Total StateEntry.KeyLE where
  total a b := by
    have hswap : compare b.keyXdr a.keyXdr = (compare a.keyXdr b.keyXdr).swap :=
      Std.OrientedCmp.eq_swap
    rw [StateEntry.KeyLE, StateEntry.KeyLE, hswap]
    cases compare a.keyXdr b.keyXdr <;> simp [Ordering.isLE, Ordering.swap]

instance : IsTrans StateEntry StateEntry.KeyLE where
  trans _ _ _ hab hbc := Std.TransCmp.isLE_trans hab hbc

/-! ### What the host is invoked on -/

section

variable {Budget : Type} {crates : Crates} {xdr : LedgerXdr} {api : HostApi Budget}
  {wasm : List UInt8} {config : FuzzConfig} {contract : ScAddress} {call : FunctionCall}
  {baseline : List LedgerEntry} {storage : InstanceStorage} {environment : Environment}
  {authEntries : List (List UInt8)} {prepared : Prepared Budget}

theorem readWriteKeys_eq_ok {keys keys' : List LedgerKey} {entries : List LedgerEntry}
    (h : readWriteKeys keys entries = .ok keys') (hkeys : keys.Nodup) :
    keys' = keys ++ entries.map LedgerEntry.toKey ∧ keys'.Nodup := by
  induction entries generalizing keys with
  | nil =>
    cases h
    exact ⟨(List.append_nil _).symm, hkeys⟩
  | cons entry entries ih =>
    rw [readWriteKeys] at h
    split at h
    · cases h
    · next hnew =>
      obtain ⟨rfl, hnodup⟩ := ih h (List.nodup_append_comm.mp (List.nodup_cons.mpr ⟨hnew, hkeys⟩))
      exact ⟨by rw [List.map_cons, List.append_assoc, List.singleton_append], hnodup⟩

/-- **A case is refused only for a key that occurs twice.** -/
theorem readWriteKeys_eq_error {keys : List LedgerKey} {entries : List LedgerEntry} {e : FuzzError}
    (h : readWriteKeys keys entries = .error e) :
    ¬ (keys ++ entries.map LedgerEntry.toKey).Nodup := by
  induction entries generalizing keys with
  | nil => cases h
  | cons entry entries ih =>
    rw [readWriteKeys] at h
    split at h
    · next hmem =>
      intro hnodup
      exact (List.nodup_append.mp hnodup).2.2 _ hmem _ List.mem_cons_self rfl
    · have hnot := ih h
      rwa [List.append_assoc, List.singleton_append] at hnot

theorem checkBaselineEntry_eq_ok {entry : LedgerEntry}
    (h : checkBaselineEntry contract entry = .ok ()) :
    ∃ data, entry.data = .contractData data ∧ data.contract = contract ∧
      data.key ≠ .ledgerKeyContractInstance := by
  rw [checkBaselineEntry] at h
  split at h
  · next data hdata =>
    split_ifs at h with hcontract hkey
    exact ⟨data, hdata, not_not.mp hcontract, hkey⟩
  · cases h

/-- The code of the contract. -/
def codeEntry (crates : Crates) (wasm : List UInt8) : LedgerEntry :=
  ⟨0, .contractCode (crates.sha256 wasm) wasm, []⟩

/-- What the host is given for a case: the code, the instance and the entries, under distinct
keys. -/
structure Given (crates : Crates) (xdr : LedgerXdr) (api : HostApi Budget) (wasm : List UInt8)
    (contract : ScAddress) (baseline : List LedgerEntry) (storage : InstanceStorage)
    (prepared : Prepared Budget) : Prop where
  checked : ∀ entry ∈ baseline, checkBaselineEntry contract entry = .ok ()
  distinct : ((instanceEntry contract (crates.sha256 wasm) storage :: baseline).map
    LedgerEntry.toKey).Nodup
  resources : ∃ resources, api.writeResources resources = .ok prepared.invocation.encodedResources ∧
    resources.footprint.readOnly.items = [(codeEntry crates wasm).toKey] ∧
    resources.footprint.readWrite.items =
      (instanceEntry contract (crates.sha256 wasm) storage :: baseline).map LedgerEntry.toKey
  entries : List.Forall₂ (fun entry bytes => xdr.writeEntry entry = .ok bytes)
    (codeEntry crates wasm :: instanceEntry contract (crates.sha256 wasm) storage :: baseline)
    (prepared.invocation.encodedLedgerEntries.map Prod.fst)
  seeded : List.Forall₂ (fun entry seed => xdr.writeKey entry.toKey = .ok seed.keyXdr ∧
      xdr.writeEntry entry = .ok seed.valueXdr)
    (instanceEntry contract (crates.sha256 wasm) storage :: baseline) prepared.seeded

theorem vecM_eq_ok {α : Type} {items : List α} {v : VecM u32Max α} (h : vecM crates items = .ok v) :
    v.items = items := by
  rw [vecM, VecM.tryFrom] at h
  split_ifs at h
  cases h
  rfl

theorem seedEntry_eq_ok {budget : Budget} {liveUntil : UInt32} {entry : LedgerEntry}
    {seed : SeededEntry} (h : seedEntry xdr api budget liveUntil entry = .ok seed) :
    xdr.writeKey entry.toKey = .ok seed.keyXdr ∧ xdr.writeEntry entry = .ok seed.valueXdr := by
  obtain ⟨keyXdr, hkey, h⟩ := Except.bind_eq_ok_iff.mp h
  obtain ⟨valueXdr, hvalue, h⟩ := Except.bind_eq_ok_iff.mp h
  obtain ⟨ttl, -, h⟩ := Except.bind_eq_ok_iff.mp h
  cases h
  exact ⟨Except.mapError_eq_ok_iff.mp hkey, Except.mapError_eq_ok_iff.mp hvalue⟩

/-- **What the host is invoked on.** -/
theorem prepare_eq_ok (h : prepare crates xdr api wasm config contract call baseline storage
    environment authEntries = .ok prepared) :
    Given crates xdr api wasm contract baseline storage prepared := by
  obtain ⟨budget, -, h⟩ := Except.bind_eq_ok_iff.mp h
  obtain ⟨⟨⟩, hchecked, h⟩ := Except.bind_eq_ok_iff.mp h
  obtain ⟨keys, hkeys, h⟩ := Except.bind_eq_ok_iff.mp h
  obtain ⟨readOnly, hreadOnly, h⟩ := Except.bind_eq_ok_iff.mp h
  obtain ⟨readWrite, hreadWrite, h⟩ := Except.bind_eq_ok_iff.mp h
  obtain ⟨⟨⟩, -, h⟩ := Except.bind_eq_ok_iff.mp h
  obtain ⟨codeXdr, hcode, h⟩ := Except.bind_eq_ok_iff.mp h
  obtain ⟨codeTtl, -, h⟩ := Except.bind_eq_ok_iff.mp h
  obtain ⟨seeded, hseeded, h⟩ := Except.bind_eq_ok_iff.mp h
  obtain ⟨hostFn, -, h⟩ := Except.bind_eq_ok_iff.mp h
  obtain ⟨encodedHostFn, -, h⟩ := Except.bind_eq_ok_iff.mp h
  obtain ⟨encodedResources, hresources, h⟩ := Except.bind_eq_ok_iff.mp h
  obtain ⟨encodedSource, -, h⟩ := Except.bind_eq_ok_iff.mp h
  cases h
  obtain ⟨rfl, hdistinct⟩ := readWriteKeys_eq_ok hkeys (List.nodup_singleton _)
  have hforall := (Except.forall₂_of_mapM_eq_ok hseeded).imp fun _ _ => seedEntry_eq_ok
  refine ⟨Except.forM_eq_ok_iff.mp hchecked, hdistinct,
    ⟨_, Except.mapError_eq_ok_iff.mp hresources, vecM_eq_ok hreadOnly, vecM_eq_ok hreadWrite⟩, ?_,
    hforall⟩
  rw [List.map_cons, List.map_map]
  refine .cons (Except.mapError_eq_ok_iff.mp hcode) ?_
  exact List.forall₂_map_right_iff.mpr (hforall.imp fun _ _ h => h.2)

/-! ### Duplicates -/

/-- The refusal of a key that occurs twice. -/
def duplicateKey : FuzzError := refusedBaseline "duplicate baseline entry key"

theorem encodeXdr_ne_duplicateKey {written : Except String (List UInt8)} :
    encodeXdr written ≠ .error duplicateKey := by
  intro h
  obtain ⟨e, -, he⟩ := Except.mapError_eq_error_iff.mp h
  cases he

theorem ttlMeta_ne_duplicateKey {budget : Budget} {entry : LedgerEntry} {liveUntil : UInt32} :
    ttlMeta xdr api budget entry liveUntil ≠ .error duplicateKey := by
  intro h
  obtain h | ⟨bytes, -, h⟩ := Except.bind_eq_error_iff.mp h
  · exact encodeXdr_ne_duplicateKey h
  · obtain h | ⟨size, -, h⟩ := Except.bind_eq_error_iff.mp h
    · obtain ⟨e, -, he⟩ := Except.mapError_eq_error_iff.mp h
      cases he
    · cases h

theorem seedEntry_ne_duplicateKey {budget : Budget} {entry : LedgerEntry} {liveUntil : UInt32} :
    seedEntry xdr api budget liveUntil entry ≠ .error duplicateKey := by
  intro h
  obtain h | ⟨keyXdr, -, h⟩ := Except.bind_eq_error_iff.mp h
  · exact encodeXdr_ne_duplicateKey h
  · obtain h | ⟨valueXdr, -, h⟩ := Except.bind_eq_error_iff.mp h
    · exact encodeXdr_ne_duplicateKey h
    · obtain h | ⟨ttl, -, h⟩ := Except.bind_eq_error_iff.mp h
      · exact ttlMeta_ne_duplicateKey h
      · cases h

theorem vecM_ne_duplicateKey {α : Type} {items : List α} :
    vecM crates items ≠ .error duplicateKey := by
  intro h
  rw [vecM] at h
  split at h <;> cases h

theorem checkBaselineEntry_ne_duplicateKey {entry : LedgerEntry} :
    checkBaselineEntry contract entry ≠ .error duplicateKey := by
  intro h
  rw [checkBaselineEntry] at h
  split at h
  · split_ifs at h
    · exact absurd (Except.error.inj h) (by decide)
    · exact absurd (Except.error.inj h) (by decide)
  · exact absurd (Except.error.inj h) (by decide)

theorem invokeContractArgs_ne_duplicateKey :
    invokeContractArgs crates contract call ≠ .error duplicateKey := by
  intro h
  rw [invokeContractArgs] at h
  split at h
  · cases h
  · obtain h | ⟨args, -, h⟩ := Except.bind_eq_error_iff.mp h
    · exact vecM_ne_duplicateKey h
    · cases h

/-- **Entries with distinct keys are not refused for a key that occurs twice.** -/
theorem prepare_ne_duplicateKey (hdistinct : (baseline.map LedgerEntry.toKey).Nodup) :
    prepare crates xdr api wasm config contract call baseline storage environment authEntries ≠
      .error duplicateKey := by
  intro h
  obtain h | ⟨budget, -, h⟩ := Except.bind_eq_error_iff.mp h
  · obtain ⟨e, -, he⟩ := Except.mapError_eq_error_iff.mp h
    cases he
  obtain h | ⟨_, hchecked, h⟩ := Except.bind_eq_error_iff.mp h
  · obtain ⟨entry, -, hentry⟩ := Except.exists_of_forM_eq_error h
    exact checkBaselineEntry_ne_duplicateKey hentry
  obtain h | ⟨keys, -, h⟩ := Except.bind_eq_error_iff.mp h
  · refine readWriteKeys_eq_error h (List.nodup_cons.mpr ⟨fun hmem => ?_, hdistinct⟩)
    -- the entries are checked before, and none is an instance
    obtain ⟨entry, hentry, hkey⟩ := List.mem_map.mp hmem
    obtain ⟨data, hdata, -, hinstance⟩ :=
      checkBaselineEntry_eq_ok (Except.forM_eq_ok_iff.mp hchecked entry hentry)
    rw [LedgerEntry.toKey, hdata] at hkey
    exact hinstance (LedgerKey.contractData.inj hkey).2.1
  obtain h | ⟨readOnly, -, h⟩ := Except.bind_eq_error_iff.mp h
  · exact vecM_ne_duplicateKey h
  obtain h | ⟨readWrite, -, h⟩ := Except.bind_eq_error_iff.mp h
  · exact vecM_ne_duplicateKey h
  obtain h | ⟨_, -, h⟩ := Except.bind_eq_error_iff.mp h
  · rw [Except.ensure] at h
    split at h <;> cases h
  obtain h | ⟨codeXdr, -, h⟩ := Except.bind_eq_error_iff.mp h
  · exact encodeXdr_ne_duplicateKey h
  obtain h | ⟨codeTtl, -, h⟩ := Except.bind_eq_error_iff.mp h
  · exact ttlMeta_ne_duplicateKey h
  obtain h | ⟨seeded, -, h⟩ := Except.bind_eq_error_iff.mp h
  · obtain ⟨entry, -, hentry⟩ := Except.exists_of_mapM_eq_error h
    exact seedEntry_ne_duplicateKey hentry
  obtain h | ⟨hostFn, -, h⟩ := Except.bind_eq_error_iff.mp h
  · exact invokeContractArgs_ne_duplicateKey h
  obtain h | ⟨encodedHostFn, -, h⟩ := Except.bind_eq_error_iff.mp h
  · exact encodeXdr_ne_duplicateKey h
  obtain h | ⟨encodedResources, -, h⟩ := Except.bind_eq_error_iff.mp h
  · exact encodeXdr_ne_duplicateKey h
  obtain h | ⟨encodedSource, -, h⟩ := Except.bind_eq_error_iff.mp h
  · exact encodeXdr_ne_duplicateKey h
  cases h

theorem observe_ne_duplicateKey {seeded : List SeededEntry} {result : InvokeHostFunctionResult} :
    observe crates api seeded result ≠ .error duplicateKey := by
  intro h
  obtain h | ⟨status, -, h⟩ := Except.bind_eq_error_iff.mp h
  · cases hresult : result.encodedInvokeResult with
    | ok bytes =>
      rw [hresult] at h
      obtain h | ⟨val, -, h⟩ := Except.bind_eq_error_iff.mp h
      · obtain ⟨e, -, he⟩ := Except.mapError_eq_error_iff.mp h
        cases he
      · cases h
    | error hostError =>
      rw [hresult] at h
      obtain h | ⟨pair, -, h⟩ := Except.bind_eq_error_iff.mp h
      · rw [errorTypeAndCode] at h
        split at h <;> cases h
      · cases h
  obtain h | ⟨events, -, h⟩ := Except.bind_eq_error_iff.mp h
  · obtain ⟨bytes, -, h⟩ := Except.exists_of_mapM_eq_error h
    obtain h | ⟨event, -, h⟩ := Except.bind_eq_error_iff.mp h
    · obtain ⟨e, -, he⟩ := Except.mapError_eq_error_iff.mp h
      cases he
    · cases h
  obtain h | ⟨budget, -, h⟩ := Except.bind_eq_error_iff.mp h
  · obtain ⟨e, -, he⟩ := Except.mapError_eq_error_iff.mp h
    cases he
  cases h

end

end SorobanDevkit.Fuzz
