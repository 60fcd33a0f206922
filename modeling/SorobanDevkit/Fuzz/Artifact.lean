import SorobanDevkit.Library.Hex
import SorobanDevkit.Library.Sha256
import SorobanDevkit.Xdr.Encoding
import SorobanDevkit.Fuzz.Minimizer
import SorobanDevkit.Fuzz.Mutation

/-!
# Findings and their artifacts

A finding records a case and what was observed of it (`sdkt-fuzz/src/finding.rs`). Its artifact is
what is written of it (`sdkt-fuzz/src/artifact.rs`): values and bytes in base 16, and what is needed
to execute the case again.
-/

namespace SorobanDevkit.Fuzz

open Xdr

/-! ### Findings -/

/-- `CaseIdentity`. -/
structure CaseIdentity where
  caseId : String
  wasmHash : String
  function : String
  mutationId : Option String
  operator : Option String
  authMode : String
  deriving DecidableEq

/-- `Finding`. -/
structure Finding where
  reasonCode : ReasonCode
  identity : CaseIdentity
  case : FuzzCase
  mutation : Option Mutation
  environment : Environment
  expected : Expected
  observation : Observation
  minimization : Minimization

/-- `SkippedFunction`. -/
structure SkippedFunction where
  function : String
  reason : String
  deriving DecidableEq

/-! ### Values in base 16 -/

section

variable (crates : Crates)

/-- `xdr_hex`. -/
def xdrHex (v : ScVal) : String :=
  Hex.encode (match crates.writeScVal v with
    | .ok bytes => bytes
    | .error _ => [])

/-- `unhex_xdr`. -/
def unhexXdr (text : String) : Option ScVal := do
  let bytes ← Hex.decode text
  (crates.readScVal bytes).toOption

/-- `unhex_32`. -/
def unhex32 (text : String) : Option Bytes32 := do
  let bytes ← Hex.decode text
  if h : bytes.toArray.size = 32 then some ⟨bytes.toArray, h⟩ else none

/-- What is assumed of the crates: every value, key and entry has an encoding that is read back as
it, and every authorization entry has an encoding. -/
structure Crates.Documented : Prop where
  scVal : ∀ v, ∃ bytes, crates.writeScVal v = .ok bytes ∧ crates.readScVal bytes = .ok v
  authEntry : ∀ entry, ∃ bytes, crates.writeAuthEntry entry = .ok bytes
  ledgerKey : ∀ key, ∃ bytes, crates.readLedgerKey bytes = .ok key
  ledgerEntry : ∀ entry, ∃ bytes, crates.readLedgerEntry bytes = .ok entry

variable {crates} in
theorem unhexXdr_xdrHex (hcrates : crates.Documented) (v : ScVal) :
    unhexXdr crates (xdrHex crates v) = some v := by
  obtain ⟨bytes, hwrite, hread⟩ := hcrates.scVal v
  simp only [unhexXdr, xdrHex, hwrite, Hex.decode_encode, Option.bind_eq_bind, Option.bind_some,
    hread, Except.toOption]

theorem unhex32_encode (bytes : Bytes32) : unhex32 (Hex.encode (bytesOf bytes)) = some bytes := by
  simp [unhex32, bytesOf, Vector.toList]

/-- Crates whose encodings are composed of known ones. -/
def codecCrates : Crates where
  sha256 := Sha256.digest
  writeHashIdPreimage := writeHashIdPreimage
  writeAuthEntry entry := .ok (writeAuthEntry entry)
  writeScVal v := .ok (scValCodec.write v)
  readScVal bytes := (scValCodec.decode bytes).elim (.error "xdr value invalid") .ok
  readLedgerKey bytes := (ledgerKeyCodec.decode bytes).elim (.error "xdr value invalid") .ok
  readLedgerEntry bytes := (ledgerEntryCodec.decode bytes).elim (.error "xdr value invalid") .ok
  lengthExceedsMax := "xdr value length exceeds max"
  debugLength _ := 0

theorem codecCrates_documented : codecCrates.Documented where
  scVal v := ⟨scValCodec.write v, rfl, by simp [codecCrates]⟩
  authEntry _ := ⟨_, rfl⟩
  ledgerKey key := ⟨ledgerKeyCodec.write key, by simp [codecCrates]⟩
  ledgerEntry entry := ⟨ledgerEntryCodec.write entry, by simp [codecCrates]⟩

/-! ### Environments -/

/-- `BudgetPlanSnapshot`. -/
inductive BudgetPlanSnapshot
  | default
  | capped (cpu mem : UInt64)
  | protocolInitial
  | networkFaithful (profileContentHash profileNetwork : String) (profileProtocol : UInt32)
      (profileLedger : UInt32) (coverage : String) (coveredCostTypes hostCostTypes : ℕ)
  deriving DecidableEq

/-- `EnvironmentSnapshot`. -/
structure EnvironmentSnapshot where
  sequenceNumber : UInt32
  timestamp : UInt64
  budget : BudgetPlanSnapshot
  deriving DecidableEq

/-- The snapshot of a budget plan. -/
def BudgetPlanSnapshot.of : BudgetPlan → BudgetPlanSnapshot
  | .default => .default
  | .capped cpu mem => .capped cpu mem
  | .protocolInitial => .protocolInitial
  | .networkFaithful profile coverage =>
    .networkFaithful (profile.contentHashHex crates.sha256) profile.networkName
      profile.protocolVersion profile.ledgerSequence coverage.asStr coverage.coveredCostTypes
      coverage.hostCostTypes

/-- `EnvironmentSnapshot::from`. -/
def EnvironmentSnapshot.of (environment : Environment) : EnvironmentSnapshot where
  sequenceNumber := environment.ledger.sequenceNumber
  timestamp := environment.ledger.timestamp
  budget := .of crates environment.budget

/-- `budget_plan_from_snapshot`, the assertion compiled out. -/
def budgetPlanFromSnapshot : BudgetPlanSnapshot → BudgetPlan
  | .default => .default
  | .capped cpu mem => .capped cpu mem
  | .protocolInitial => .protocolInitial
  | .networkFaithful .. => .protocolInitial

/-- `Environment::from`. -/
def EnvironmentSnapshot.toEnvironment (snapshot : EnvironmentSnapshot) : Environment where
  ledger := { sequenceNumber := snapshot.sequenceNumber, timestamp := snapshot.timestamp }
  budget := budgetPlanFromSnapshot snapshot.budget

/-- The plan takes its costs from a network profile. -/
def BudgetPlan.IsNetworkFaithful (plan : BudgetPlan) : Prop :=
  ∃ profile coverage, plan = .networkFaithful profile coverage

/-- A budget plan is read back unless it is network-faithful. -/
theorem budgetPlanFromSnapshot_of (plan : BudgetPlan) :
    budgetPlanFromSnapshot (.of crates plan) = plan ↔ ¬ plan.IsNetworkFaithful := by
  cases plan <;> simp [budgetPlanFromSnapshot, BudgetPlanSnapshot.of, BudgetPlan.IsNetworkFaithful]

/-- An environment is read back unless its budget plan is network-faithful. -/
theorem toEnvironment_of {environment : Environment}
    (h : ¬ environment.budget.IsNetworkFaithful) :
    (EnvironmentSnapshot.of crates environment).toEnvironment = environment := by
  have hbudget := (budgetPlanFromSnapshot_of crates environment.budget).mpr h
  obtain ⟨ledger, budget⟩ := environment
  exact congrArg _ hbudget

/-! ### Expectations -/

/-- A map is put together again from its entries. -/
theorem ofList_toList (state : StateMap) : Std.ExtTreeMap.ofList state.toList compare = state := by
  refine Std.ExtTreeMap.ext_getElem? fun k => ?_
  cases h : state[k]? with
  | some v =>
    exact Std.ExtTreeMap.getElem?_ofList_of_mem Std.ReflCmp.compare_self
      Std.ExtTreeMap.distinct_keys_toList (Std.ExtTreeMap.mem_toList_iff_getElem?_eq_some.mpr h)
  | none =>
    refine Std.ExtTreeMap.getElem?_ofList_of_contains_eq_false ?_
    rw [Std.ExtTreeMap.map_fst_toList_eq_keys, Std.ExtTreeMap.contains_keys,
      Std.ExtTreeMap.contains_eq_isSome_getElem?, h]
    rfl

/-- `EventSnapshot`. -/
structure EventSnapshot where
  contractId : Option String
  eventType : String
  topicsXdr : List String
  dataXdr : String
  deriving DecidableEq

/-- `BehaviorSnapshot`. -/
inductive BehaviorSnapshot
  | success (expectReturn : Option String)
  | error (errorType : String) (code : UInt32)
  | any
  deriving DecidableEq

/-- `StateExpectation`. -/
structure StateExpectation where
  keyXdr : String
  valueXdr : String
  deriving DecidableEq

/-- `ExpectedSnapshot`. -/
structure ExpectedSnapshot where
  behavior : BehaviorSnapshot
  state : Option (List StateExpectation)
  events : Option (List EventSnapshot)
  authRequired : Bool
  resourceLimitIsFinding : Bool
  deriving DecidableEq

/-- `snapshot_event`. -/
def snapshotEvent (e : EventRecord) : EventSnapshot where
  contractId := e.contractId.map fun id => Hex.encode (bytesOf id)
  eventType := e.eventType
  topicsXdr := e.topics.map (xdrHex crates)
  dataXdr := xdrHex crates e.data

/-- `restore_event`. -/
def restoreEvent (e : EventSnapshot) : EventRecord where
  contractId := e.contractId.bind unhex32
  eventType := e.eventType
  topics := e.topicsXdr.filterMap (unhexXdr crates)
  data := (unhexXdr crates e.dataXdr).getD .void

namespace ExpectedSnapshot

/-- The snapshot of declared state. -/
def ofState (state : StateMap) : List StateExpectation :=
  state.toList.map fun (k, v) => { keyXdr := Hex.encode k, valueXdr := Hex.encode v }

/-- Declared state from its snapshot. -/
def toState (entries : List StateExpectation) : StateMap :=
  .ofList (entries.filterMap fun e => do
    let key ← Hex.decode e.keyXdr
    let value ← Hex.decode e.valueXdr
    some (key, value)) compare

/-- `from_expected`. -/
def fromExpected (e : Expected) : ExpectedSnapshot where
  behavior := match e.behavior with
    | .success expectReturn => .success (expectReturn.map (xdrHex crates))
    | .error errorType code => .error errorType code
    | .any => .any
  state := e.state.map ofState
  events := e.events.map fun events => events.map (snapshotEvent crates)
  authRequired := e.authRequired
  resourceLimitIsFinding := e.resourceLimitIsFinding

/-- `to_expected`. -/
def toExpected (e : ExpectedSnapshot) : Expected where
  behavior := match e.behavior with
    | .success expectReturn => .success (expectReturn.bind (unhexXdr crates))
    | .error errorType code => .error errorType code
    | .any => .any
  state := e.state.map toState
  events := e.events.map fun events => events.map (restoreEvent crates)
  authRequired := e.authRequired
  resourceLimitIsFinding := e.resourceLimitIsFinding

theorem toState_ofState (state : StateMap) : toState (ofState state) = state := by
  have hpairs : (ofState state).filterMap (fun e => do
      let key ← Hex.decode e.keyXdr
      let value ← Hex.decode e.valueXdr
      some (key, value)) = state.toList := by
    rw [ofState, List.filterMap_map]
    refine (List.filterMap_congr fun e _ => ?_).trans List.filterMap_some
    simp only [Function.comp_apply, Hex.decode_encode, Option.bind_eq_bind, Option.bind_some]
  rw [toState, hpairs, ofList_toList]

variable {crates}

theorem restoreEvent_snapshotEvent (hcrates : crates.Documented) (e : EventRecord) :
    restoreEvent crates (snapshotEvent crates e) = e := by
  have htopics : (e.topics.map (xdrHex crates)).filterMap (unhexXdr crates) = e.topics := by
    rw [List.filterMap_map]
    exact (List.filterMap_congr fun v _ => unhexXdr_xdrHex hcrates v).trans List.filterMap_some
  obtain ⟨contractId, eventType, topics, data⟩ := e
  simp only [restoreEvent, snapshotEvent, htopics, unhexXdr_xdrHex hcrates, Option.getD_some]
  cases contractId with
  | none => rfl
  | some id => simp only [Option.map_some, Option.bind_some, unhex32_encode]

/-- **An expectation is read back.** -/
theorem toExpected_fromExpected (hcrates : crates.Documented) (e : Expected) :
    toExpected crates (fromExpected crates e) = e := by
  obtain ⟨behavior, state, events, authRequired, resourceLimitIsFinding⟩ := e
  have hstate : (state.map ofState).map toState = state := by
    cases state with
    | none => rfl
    | some state => simp only [Option.map_some, toState_ofState]
  have hevents : ((events.map fun events => events.map (snapshotEvent crates)).map
      fun events => events.map (restoreEvent crates)) = events := by
    cases events with
    | none => rfl
    | some events =>
      have hmap : (events.map (snapshotEvent crates)).map (restoreEvent crates) = events := by
        rw [List.map_map]
        exact (List.map_congr_left fun e _ => restoreEvent_snapshotEvent hcrates e).trans
          (List.map_id events)
      simp only [Option.map_some, hmap]
  simp only [toExpected, fromExpected, hstate, hevents]
  cases behavior with
  | success expectReturn =>
    cases expectReturn with
    | none => rfl
    | some v => simp only [Option.map_some, Option.bind_some, unhexXdr_xdrHex hcrates]
  | error errorType code => rfl
  | any => rfl

end ExpectedSnapshot

/-! ### Artifacts -/

/-- `GenerationCapsSnapshot`. -/
structure GenerationCapsSnapshot where
  maxDepth : UInt32
  maxVecLen : UInt64
  maxByteLen : UInt64
  maxMapEntries : UInt64
  deriving DecidableEq

/-- `GenerationCapsSnapshot::from`. -/
def GenerationCapsSnapshot.of (caps : GenerationCaps) : GenerationCapsSnapshot where
  maxDepth := caps.maxDepth
  maxVecLen := caps.maxVecLen
  maxByteLen := caps.maxByteLen
  maxMapEntries := caps.maxMapEntries

/-- The `CampaignConfig` of an artifact. -/
structure CampaignConfig where
  wasmSha256 : String
  seedHex : String
  cases : ℕ
  function : Option String
  sequenceLength : ℕ
  sequenceEvery : ℕ
  mutationsPerCase : ℕ
  generation : GenerationCapsSnapshot
  environment : EnvironmentSnapshot
  authModes : List String
  deriving DecidableEq

/-- `MutationSnapshot`. -/
structure MutationSnapshot where
  mutationId : String
  argIndex : ℕ
  operator : String
  valueXdr : String
  argsXdr : List String
  deriving DecidableEq

/-- `MutationSnapshot::from_mutation`. -/
def MutationSnapshot.fromMutation (m : Mutation) : MutationSnapshot where
  mutationId := m.mutationId
  argIndex := m.argIndex
  operator := m.operator.name
  valueXdr := xdrHex crates m.value
  argsXdr := m.args.map (xdrHex crates)

/-- `StatusSnapshot`. -/
inductive StatusSnapshot
  | returned (valueXdr : String)
  | void
  | contractError (errorType : String) (code : UInt32)
  deriving DecidableEq

/-- `StateEntrySnapshot`. -/
structure StateEntrySnapshot where
  keyXdr : String
  valueXdr : Option String
  change : String
  deriving DecidableEq

/-- `ObservationSnapshot`. -/
structure ObservationSnapshot where
  caseId : String
  function : String
  status : StatusSnapshot
  state : List StateEntrySnapshot
  events : List EventSnapshot
  budget : BudgetUsage
  deriving DecidableEq

/-- The name of a change. -/
def StateChange.name : StateChange → String
  | .created => "created"
  | .updated => "updated"
  | .deleted => "deleted"
  | .unchanged => "unchanged"

/-- `ObservationSnapshot::from_observation`. -/
def ObservationSnapshot.fromObservation (o : Observation) : ObservationSnapshot where
  caseId := o.caseId
  function := o.function
  status := match o.status with
    | .returned v => .returned (xdrHex crates v)
    | .void => .void
    | .contractError errorType code => .contractError errorType code
  state := o.state.map fun s =>
    { keyXdr := Hex.encode s.keyXdr, valueXdr := s.valueXdr.map Hex.encode,
      change := s.change.name }
  events := o.events.map (snapshotEvent crates)
  budget := o.budget

/-- `SequenceStepSnapshot`. -/
structure SequenceStepSnapshot where
  function : String
  argsXdr : List String
  deriving DecidableEq

/-- The snapshot of a step. -/
def SequenceStepSnapshot.ofCall (call : FunctionCall) : SequenceStepSnapshot where
  function := call.function
  argsXdr := call.args.map (xdrHex crates)

/-- An argument from its text. -/
def decodeArg (text : String) : Except FuzzError ScVal :=
  match unhexXdr crates text with
  | some v => .ok v
  | none => .error (.invalidArtifact "argument did not decode as ScVal XDR")

/-- A step from its snapshot. -/
def SequenceStepSnapshot.toCall (s : SequenceStepSnapshot) : Except FuzzError FunctionCall := do
  let args ← s.argsXdr.mapM (decodeArg crates)
  .ok { function := s.function, args }

/-- `FindingArtifact`. Its `MinimizationSnapshot` has the fields of `Minimization`. -/
structure FindingArtifact where
  schemaVersion : UInt32
  campaign : CampaignConfig
  caseId : String
  function : String
  sequence : List SequenceStepSnapshot
  authMode : String
  mutation : Option MutationSnapshot
  expected : ExpectedSnapshot
  observation : ObservationSnapshot
  reasonCode : String
  minimization : Minimization
  deriving DecidableEq

/-- `SCHEMA_VERSION`. -/
def schemaVersion : UInt32 := 1

namespace FindingArtifact

/-- `from_finding`. -/
def fromFinding (finding : Finding) (campaign : CampaignConfig) (steps : List FunctionCall)
    (wasm : List UInt8) : FindingArtifact where
  schemaVersion := Fuzz.schemaVersion
  campaign := { campaign with wasmSha256 := Hex.encode (bytesOf (crates.sha256 wasm)) }
  caseId := finding.identity.caseId
  function := finding.identity.function
  sequence := steps.map (.ofCall crates)
  authMode := ((AuthMode.fromName finding.identity.authMode).getD .noAuth).name
  mutation := finding.mutation.map (.fromMutation crates)
  expected := .fromExpected crates finding.expected
  observation := .fromObservation crates finding.observation
  reasonCode := finding.reasonCode.name
  minimization := finding.minimization

/-- `steps`. -/
def steps (artifact : FindingArtifact) : Except FuzzError (List FunctionCall) :=
  artifact.sequence.mapM (·.toCall crates)

/-- `environment`. -/
def environment (artifact : FindingArtifact) : Environment :=
  artifact.campaign.environment.toEnvironment

/-- `seed`. -/
def seed (artifact : FindingArtifact) : Except FuzzError Bytes32 :=
  match Hex.decode artifact.campaign.seedHex with
  | none => .error (.invalidArtifact "campaign seed is not hex")
  | some bytes =>
    if h : bytes.toArray.size = 32 then .ok ⟨bytes.toArray, h⟩
    else .error (.invalidArtifact "campaign seed is not 32 bytes")

end FindingArtifact

variable {crates}

/-- A step is read back. -/
theorem SequenceStepSnapshot.toCall_ofCall (hcrates : crates.Documented) (call : FunctionCall) :
    (SequenceStepSnapshot.ofCall crates call).toCall crates = .ok call := by
  have hargs : (call.args.map (xdrHex crates)).mapM (decodeArg crates) = .ok call.args :=
    Except.mapM_map_eq_ok fun v _ => by rw [decodeArg, unhexXdr_xdrHex hcrates]
  rw [toCall, ofCall, hargs]
  rfl

/-- The steps of an artifact are those it was made from. -/
theorem FindingArtifact.steps_fromFinding (hcrates : crates.Documented) (finding : Finding)
    (campaign : CampaignConfig) (calls : List FunctionCall) (wasm : List UInt8) :
    (fromFinding crates finding campaign calls wasm).steps crates = .ok calls :=
  Except.mapM_map_eq_ok fun call _ => SequenceStepSnapshot.toCall_ofCall hcrates call

end

end SorobanDevkit.Fuzz
