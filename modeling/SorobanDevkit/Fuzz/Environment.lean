import SorobanDevkit.Fuzz.NetworkProfile

/-!
# The configuration of the fuzzer and its environments

Everything a case is executed under is fixed by the configuration of its campaign
(`sdkt-fuzz/src/config.rs`) and an environment: the ledger's sequence number and timestamp and a
plan for the budget (`sdkt-fuzz/src/environment.rs`).
-/

namespace SorobanDevkit.Fuzz

open Xdr (Bytes32)

/-- `SetupError`, as far as executions raise it. -/
inductive SetupError
  | wasm (message : String)
  | baselineEntry (message : String)
  deriving DecidableEq

/-- `FuzzError`. -/
inductive FuzzError
  | invalidConfig (message : String)
  | invalidSetup (error : SetupError)
  | hostConstruction (message : String)
  | execution (message : String)
  | observation (message : String)
  | invalidArtifact (message : String)
  deriving DecidableEq

/-- The text of a `SetupError`. -/
def SetupError.message : SetupError → String
  | .wasm message => "wasm rejected: " ++ message
  | .baselineEntry message => "baseline ledger entry rejected: " ++ message

/-- The text of a `FuzzError`. -/
def FuzzError.message : FuzzError → String
  | .invalidConfig message => "invalid fuzz configuration: " ++ message
  | .invalidSetup error => "invalid WASM or baseline setup: " ++ error.message
  | .hostConstruction message => "host construction failed: " ++ message
  | .execution message => "execution failed: " ++ message
  | .observation message => "observation failed: " ++ message
  | .invalidArtifact message => "invalid artifact: " ++ message

/-! ### The configuration -/

/-- `BASELINE_TTL_WINDOW`. -/
def baselineTtlWindow : UInt32 := 1000000

/-- `LedgerConfig`. -/
structure LedgerConfig where
  sequenceNumber : UInt32
  timestamp : UInt64
  deriving DecidableEq

/-- `LedgerConfig::default()`. -/
def LedgerConfig.default : LedgerConfig where
  sequenceNumber := 1000000
  timestamp := 0

/-- `BudgetConfig`. -/
structure BudgetConfig where
  cpuLimit : Option UInt64
  memLimit : Option UInt64
  deriving DecidableEq

/-- `FuzzConfig`. -/
structure FuzzConfig where
  seed : Bytes32
  networkId : Bytes32
  ledger : LedgerConfig
  budget : BudgetConfig
  deriving DecidableEq

/-- The characters of an ASCII literal of 32 bytes. -/
def asciiBytes32 (s : String) : Bytes32 :=
  Vector.ofFn fun i => UInt8.ofNat ((s.toList.getD i ' ').toNat)

/-- `FuzzConfig::default()`. -/
def FuzzConfig.default : FuzzConfig where
  seed := asciiBytes32 "sdkt-fuzz-phase1-default-seed!!!"
  networkId := Vector.replicate 32 5
  ledger := .default
  budget := ⟨none, none⟩

/-- `FuzzConfig::validate`. -/
def FuzzConfig.validate (config : FuzzConfig) : Except FuzzError Unit :=
  let seq := config.ledger.sequenceNumber
  if seq.toNat > 2 ^ 32 - 1 - baselineTtlWindow.toNat then
    .error (.invalidConfig ("ledger sequence_number " ++ toString seq ++
      " leaves no room for the baseline TTL window"))
  else if config.budget.cpuLimit.isSome || config.budget.memLimit.isSome then
    .error (.invalidConfig ("custom budget limits require the network cost-parameter table; " ++
      "Phase 1 only supports the default budget"))
  else .ok ()

/-! ### Environments -/

/-- `BudgetPlan`. -/
inductive BudgetPlan
  | default
  | capped (cpu mem : UInt64)
  | protocolInitial
  | networkFaithful (profile : NetworkProfile) (coverage : BudgetCoverage)
  deriving DecidableEq

/-- `Environment`. -/
structure Environment where
  ledger : LedgerConfig
  budget : BudgetPlan
  deriving DecidableEq

namespace Environment

/-- `Environment::default()`. -/
def default : Environment where
  ledger := .default
  budget := .default

/-- `Environment::validate`. -/
def validate (environment : Environment) (config : FuzzConfig) : Except FuzzError Unit := do
  config.validate
  let seq := environment.ledger.sequenceNumber
  if seq.toNat > 2 ^ 32 - 1 - baselineTtlWindow.toNat then
    .error (.invalidConfig ("environment ledger sequence_number " ++ toString seq ++
      " leaves no room for the baseline TTL window"))
  else .ok ()

end Environment

end SorobanDevkit.Fuzz
