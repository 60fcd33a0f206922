import SorobanDevkit.Library.Fallible
import SorobanDevkit.Fuzz.Environment
import SorobanDevkit.Fuzz.Oracle

/-!
# Execution

An executor runs cases against one contract (`sdkt-fuzz/src/executor.rs`), a case being a call with
the state it starts from (`sdkt-fuzz/src/case.rs`). The calls of a sequence are run one after the
other, the state that a step leaves being the state of the next one (`sdkt-fuzz/src/sequence.rs`).
Authorization entries are built for each call (`sdkt-fuzz/src/auth.rs`).

The Soroban host is a parameter: a function of the contract, the configuration, the call, its state,
the environment and the authorization entries.
-/

namespace SorobanDevkit.Fuzz

open Wasm (utf8)
open Xdr

/-! ### Cases -/

/-- `FunctionCall`. -/
structure FunctionCall where
  function : String
  args : List ScVal
  deriving DecidableEq

/-- `InstanceStorage`. -/
abbrev InstanceStorage := List (ScVal × ScVal)

/-- `FuzzCase`, for a contract instance that the executor makes. -/
structure FuzzCase where
  caseId : String
  contractId : Bytes32
  call : FunctionCall
  baselineEntries : List LedgerEntry
  instanceStorage : InstanceStorage
  deriving DecidableEq

/-- `contract_address`. -/
def FuzzCase.contractAddress (case : FuzzCase) : ScAddress := .contract case.contractId

/-- `with_instance_storage`. -/
def FuzzCase.withInstanceStorage (case : FuzzCase) (storage : InstanceStorage) : FuzzCase :=
  { case with instanceStorage := storage }

/-- The crates for hashes and XDR. Their errors are given by their texts. -/
structure Crates where
  sha256 : List UInt8 → Bytes32
  writeHashIdPreimage : HashIdPreimage → List UInt8
  writeAuthEntry : SorobanAuthorizationEntry → Except String (List UInt8)
  writeScVal : ScVal → Except String (List UInt8)
  readScVal : List UInt8 → Except String ScVal
  readLedgerKey : List UInt8 → Except String LedgerKey
  readLedgerEntry : List UInt8 → Except String LedgerEntry
  lengthExceedsMax : String
  debugLength : ScVal → ℕ

/-- The Soroban host: what it compiles, and what `execute_with_auth` obtains from it. -/
structure Host where
  load : (wasm : List UInt8) → Except FuzzError Unit
  run : (wasm : List UInt8) → (config : FuzzConfig) → (contract : ScAddress) →
    (call : FunctionCall) → (baseline : List LedgerEntry) → (storage : InstanceStorage) →
    (environment : Environment) → (authEntries : List (List UInt8)) → Except FuzzError Execution

/-- Every execution yields an observation. -/
def Host.Total (host : Host) : Prop :=
  ∀ wasm config contract call baseline storage environment authEntries, ∃ execution,
    host.run wasm config contract call baseline storage environment authEntries = .ok execution

/-- `Executor`: the contract and the configuration of a campaign. -/
structure Executor where
  wasm : List UInt8
  wasmHash : Bytes32
  config : FuzzConfig
  deriving DecidableEq

/-- `DEPLOYER`, which is also `AUTH_ACCOUNT`. -/
def deployer : Bytes32 := Vector.replicate 32 123

/-- `SALT`. -/
def deploymentSalt : Bytes32 := Vector.replicate 32 7

/-- `FOREIGN_ACCOUNT`. -/
def foreignAccount : Bytes32 := Vector.replicate 32 77

section

variable (crates : Crates) (host : Host)

/-- `contract_id_from_address`. -/
def contractIdFromAddress (networkId deployer salt : Bytes32) : Bytes32 :=
  crates.sha256 (crates.writeHashIdPreimage
    (.contractId networkId (.address (.account ⟨.ed25519 deployer⟩) salt)))

namespace Executor

/-- `Executor::new`. -/
def new (wasm : List UInt8) (config : FuzzConfig) : Except FuzzError Executor := do
  config.validate
  if wasm = [] then .error (.invalidSetup (.wasm "empty wasm input"))
  else do
    host.load wasm
    .ok { wasm, wasmHash := crates.sha256 wasm, config }

/-- `Executor::case`: every case of a campaign addresses one contract. -/
def case (executor : Executor) (caseId : String) (call : FunctionCall)
    (baseline : List LedgerEntry) : FuzzCase where
  caseId := caseId
  contractId := contractIdFromAddress crates executor.config.networkId deployer deploymentSalt
  call := call
  baselineEntries := baseline
  instanceStorage := []

/-- `execute_with_auth`. -/
def executeWithAuth (executor : Executor) (case : FuzzCase) (environment : Environment)
    (authEntries : List (List UInt8)) : Except FuzzError Observation :=
  (host.run executor.wasm executor.config case.contractAddress case.call case.baselineEntries
    case.instanceStorage environment authEntries).map fun execution =>
      { execution with caseId := case.caseId, function := case.call.function }

/-- `execute_with`. -/
def executeWith (executor : Executor) (case : FuzzCase) (environment : Environment) :
    Except FuzzError Observation :=
  executor.executeWithAuth host case environment []

end Executor

/-! ### Authorization entries -/

/-- `invoke_root_invocation`. -/
def invokeRootInvocation (contract : ScAddress) (call : FunctionCall) :
    Except FuzzError InvokeContractArgs :=
  match VecM.tryFrom (utf8 call.function), VecM.tryFrom call.args with
  | none, _ => .error (.execution ("invalid ScSymbol: " ++ call.function))
  | some _, none => .error (.execution crates.lengthExceedsMax)
  | some functionName, some args => .ok { contractAddress := contract, functionName, args }

/-- `source_account_entry`. -/
def sourceAccountEntry (root : InvokeContractArgs) : SorobanAuthorizationEntry where
  credentials := .sourceAccount
  rootInvocation := root

/-- `foreign_address_entry`. -/
def foreignAddressEntry (root : InvokeContractArgs) : SorobanAuthorizationEntry where
  credentials := .addressV2 (.account ⟨.ed25519 foreignAccount⟩) 1 0xFFFFFFFF
    (.bytes (List.replicate 64 0))
  rootInvocation := root

/-- `encode`. -/
def encodeAuthEntry (entry : SorobanAuthorizationEntry) : Except FuzzError (List UInt8) :=
  (crates.writeAuthEntry entry).mapError fun e => .execution ("auth entry encode: " ++ e)

/-- `invoke_auth_entries`. -/
def invokeAuthEntries (mode : AuthMode) (contract : ScAddress) (call : FunctionCall) :
    Except FuzzError (List (List UInt8)) :=
  match mode with
  | .noAuth => .ok []
  | .correctAuth => do
    let root ← invokeRootInvocation crates contract call
    let entry ← encodeAuthEntry crates (sourceAccountEntry root)
    .ok [entry]
  | .wrongAuth => do
    let root ← invokeRootInvocation crates contract call
    let entry ← encodeAuthEntry crates (foreignAddressEntry root)
    .ok [entry]

/-! ### Sequences -/

/-- `SequenceState`: the state that a sequence carries from one step to the next. -/
structure SequenceState where
  dataEntries : List LedgerEntry
  instanceStorage : InstanceStorage
  deriving DecidableEq

/-- `read_storage_map`. -/
def readStorageMap (map : Option (List ScMapEntry)) : InstanceStorage := map.getD []

/-- `SequenceState::from_baseline`, from the state of the entries before. -/
def SequenceState.addBaseline : SequenceState → List LedgerEntry →
    Except FuzzError SequenceState
  | state, [] => .ok state
  | state, entry :: entries =>
    match entry.data with
    | .contractData ⟨_, .ledgerKeyContractInstance, _, .contractInstance _ storage⟩ =>
      addBaseline { state with instanceStorage := readStorageMap storage } entries
    | .contractData ⟨_, .ledgerKeyContractInstance, _, _⟩ => addBaseline state entries
    | .contractData _ =>
      addBaseline { state with dataEntries := state.dataEntries ++ [entry] } entries
    | .contractCode .. =>
      .error (.invalidSetup (.baselineEntry
        "sequence baselines carry contract-data entries only"))
    | .other .. =>
      .error (.invalidSetup (.baselineEntry
        "only LedgerEntryData::ContractData sequence entries are supported"))

/-- `SequenceState::from_baseline`. -/
def SequenceState.fromBaseline (baseline : List LedgerEntry) : Except FuzzError SequenceState :=
  addBaseline ⟨[], []⟩ baseline

/-- `decode_entry`. -/
def decodeEntry (bytes : List UInt8) : Except FuzzError LedgerEntry :=
  (crates.readLedgerEntry bytes).mapError fun e =>
    .observation ("state value did not decode: " ++ e)

/-- The state after one observed entry. -/
def applyEntry (state : SequenceState) (entry : StateEntry) : Except FuzzError SequenceState :=
  if entry.change = .unchanged then .ok state
  else do
    let key ← (crates.readLedgerKey entry.keyXdr).mapError fun e =>
      .observation ("state key did not decode: " ++ e)
    match key with
    | .contractData _ .ledgerKeyContractInstance _ =>
      match entry.valueXdr with
      | some valueXdr => do
        let updated ← decodeEntry crates valueXdr
        match updated.data with
        | .contractData ⟨_, _, _, .contractInstance _ storage⟩ =>
          .ok { state with instanceStorage := readStorageMap storage }
        | _ => .ok state
      | none => .ok { state with instanceStorage := [] }
    | .contractData _ (.ledgerKeyNonce _) _ => .ok state
    | .contractData .. => do
      let kept := state.dataEntries.filter fun e => e.toKey ≠ key
      match entry.valueXdr with
      | some valueXdr => do
        let updated ← decodeEntry crates valueXdr
        .ok { state with dataEntries := kept ++ [updated] }
      | none => .ok { state with dataEntries := kept }
    | .contractCode _ | .other _ => .ok state

/-- `apply_state_delta`. -/
def applyStateDelta (state : SequenceState) (obs : Observation) :
    Except FuzzError SequenceState :=
  obs.state.foldlM (applyEntry crates) state

/-- `StepObservation`. -/
structure StepObservation where
  stepIndex : ℕ
  function : String
  observation : Observation
  deriving DecidableEq

/-- `SequenceRun`. -/
structure SequenceRun where
  caseId : String
  steps : List StepObservation
  finalObservation : Observation
  state : SequenceState
  deriving DecidableEq

section

variable (executor : Executor) (environment : Environment) (caseId : String)
  (authPerStep : List (List (List UInt8)))

/-- The execution of the step of index `i`. -/
def executeStep (i : ℕ) (state : SequenceState) (call : FunctionCall) :
    Except FuzzError Observation :=
  let case := (executor.case crates (caseId ++ "/step" ++ toString i) call
    state.dataEntries).withInstanceStorage state.instanceStorage
  match authPerStep[i]? with
  | some entries => executor.executeWithAuth host case environment entries
  | none => executor.executeWith host case environment

/-- The steps from index `i` on, and the state after the last one. -/
def executeFrom : (i : ℕ) → SequenceState → List FunctionCall →
    Except FuzzError (List StepObservation × SequenceState)
  | _, state, [] => .ok ([], state)
  | i, state, call :: calls => do
    let obs ← executeStep crates host executor environment caseId authPerStep i state call
    let state ← applyStateDelta crates state obs
    let (observed, state) ← executeFrom (i + 1) state calls
    .ok (⟨i, call.function, obs⟩ :: observed, state)

end

/-- `execute_sequence_auth`. -/
def executeSequenceAuth (executor : Executor) (baseline : List LedgerEntry)
    (environment : Environment) (steps : List FunctionCall) (caseId : String)
    (authPerStep : List (List (List UInt8))) : Except FuzzError SequenceRun :=
  if steps = [] then
    .error (.invalidConfig "sequence must contain at least one step")
  else do
    let state ← SequenceState.fromBaseline baseline
    let (observed, state) ←
      executeFrom crates host executor environment caseId authPerStep 0 state steps
    match observed.getLast? with
    | some last => .ok { caseId, steps := observed, finalObservation := last.observation, state }
    -- `expect`: there is a step
    | none => .error (.invalidConfig "non-empty steps yield an observation")

/-- `execute_sequence`. -/
def executeSequence (executor : Executor) (baseline : List LedgerEntry)
    (environment : Environment) (steps : List FunctionCall) (caseId : String) :
    Except FuzzError SequenceRun :=
  executeSequenceAuth crates host executor baseline environment steps caseId []

end

end SorobanDevkit.Fuzz
