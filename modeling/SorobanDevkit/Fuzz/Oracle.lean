import Std.Data.ExtTreeMap
import SorobanDevkit.Xdr.ScVal

/-!
# Observations and the oracle

What an execution yields is observed (`sdkt-fuzz/src/observation.rs`) and classified against a
declared expectation (`sdkt-fuzz/src/oracle.rs`). An error is a finding only if a declared rule says
so.
-/

namespace SorobanDevkit.Fuzz

open Xdr (Bytes32 ScVal)

/-! ### Observations -/

/-- `ExecutionStatus`. -/
inductive ExecutionStatus
  | returned (value : ScVal)
  | contractError (errorType : String) (code : UInt32)
  | void
  deriving DecidableEq

/-- `StateChange`. -/
inductive StateChange
  | created
  | updated
  | deleted
  | unchanged
  deriving DecidableEq

/-- `StateEntry`. -/
structure StateEntry where
  keyXdr : List UInt8
  valueXdr : Option (List UInt8)
  change : StateChange
  deriving DecidableEq

/-- `EventRecord`. -/
structure EventRecord where
  contractId : Option Bytes32
  eventType : String
  topics : List ScVal
  data : ScVal
  deriving DecidableEq

/-- `BudgetUsage`. -/
structure BudgetUsage where
  consumedCpu : UInt64
  consumedMem : UInt64
  remainingCpu : UInt64
  remainingMem : UInt64
  deriving DecidableEq

/-- What an execution yields: an observation without the case it belongs to. -/
structure Execution where
  status : ExecutionStatus
  state : List StateEntry
  events : List EventRecord
  budget : BudgetUsage
  deriving DecidableEq

/-- `Observation`. -/
structure Observation extends Execution where
  caseId : String
  function : String
  deriving DecidableEq

namespace Execution

/-- `is_success`. -/
def isSuccess (obs : Execution) : Bool :=
  match obs.status with
  | .returned _ | .void => true
  | .contractError .. => false

/-- `return_value`. -/
def returnValue (obs : Execution) : Option ScVal :=
  match obs.status with
  | .returned v => some v
  | _ => none

end Execution

/-! ### Authorization modes -/

/-- `AuthMode`. -/
inductive AuthMode
  | noAuth
  | correctAuth
  | wrongAuth
  deriving DecidableEq

namespace AuthMode

/-- `AuthMode::name`. -/
def name : AuthMode → String
  | .noAuth => "no_auth"
  | .correctAuth => "correct_auth"
  | .wrongAuth => "wrong_auth"

/-- `AuthMode::from_name`. -/
def fromName : String → Option AuthMode
  | "no_auth" => some .noAuth
  | "correct_auth" => some .correctAuth
  | "wrong_auth" => some .wrongAuth
  | _ => none

@[simp] theorem fromName_name (mode : AuthMode) : fromName mode.name = some mode := by
  cases mode <;> rfl

end AuthMode

/-! ### Expectations -/

/-- `ExpectedBehavior`. -/
inductive ExpectedBehavior
  | success (expectReturn : Option ScVal)
  | error (errorType : String) (code : UInt32)
  | any
  deriving DecidableEq

/-- Declared state: the encoding of an entry for the encoding of its key. -/
abbrev StateMap := Std.ExtTreeMap (List UInt8) (List UInt8)

/-- `Expected`. -/
structure Expected where
  behavior : ExpectedBehavior
  state : Option StateMap
  events : Option (List EventRecord)
  authRequired : Bool
  resourceLimitIsFinding : Bool

/-- `Expected::default()`. -/
def Expected.default : Expected where
  behavior := .any
  state := none
  events := none
  authRequired := false
  resourceLimitIsFinding := false

/-- `ReasonCode`. -/
inductive ReasonCode
  | returnMismatch
  | stateMismatch
  | eventMismatch
  | authorizationBypass
  | unexpectedError
  | resourceLimit
  deriving DecidableEq

namespace ReasonCode

/-- `ReasonCode::name`. -/
def name : ReasonCode → String
  | .returnMismatch => "RETURN_MISMATCH"
  | .stateMismatch => "STATE_MISMATCH"
  | .eventMismatch => "EVENT_MISMATCH"
  | .authorizationBypass => "AUTHORIZATION_BYPASS"
  | .unexpectedError => "UNEXPECTED_ERROR"
  | .resourceLimit => "RESOURCE_LIMIT"

/-- `ReasonCode::from_name`. -/
def fromName : String → Option ReasonCode
  | "RETURN_MISMATCH" => some .returnMismatch
  | "STATE_MISMATCH" => some .stateMismatch
  | "EVENT_MISMATCH" => some .eventMismatch
  | "AUTHORIZATION_BYPASS" => some .authorizationBypass
  | "UNEXPECTED_ERROR" => some .unexpectedError
  | "RESOURCE_LIMIT" => some .resourceLimit
  | _ => none

@[simp] theorem fromName_name (reason : ReasonCode) : fromName reason.name = some reason := by
  cases reason <;> rfl

end ReasonCode

/-- `Classification`. -/
inductive Classification
  | pass
  | expectedError
  | finding (reason : ReasonCode)
  deriving DecidableEq

/-! ### The oracle -/

/-- `Oracle`: an expectation and the authorization mode of the classified execution. -/
structure Oracle where
  expected : Expected
  authMode : AuthMode

/-- `is_budget_error`. -/
def isBudgetError (errorType : String) : Bool := errorType == "Budget"

namespace Oracle

/-- An observed entry differs from the declared state. -/
def entryMismatch (want : StateMap) (entry : StateEntry) : Bool :=
  match entry.change, want[entry.keyXdr]? with
  | .deleted, some _ => true
  | .deleted, none => false
  | change, none => change == .created
  | _, some value => entry.valueXdr != some value

/-- Every declared entry is among the observed ones. -/
def declaredFound (want : StateMap) (state : List StateEntry) : Bool :=
  want.toList.all fun (key, value) =>
    state.any fun e => e.keyXdr == key && e.valueXdr == some value

/-- The checks of an observation whose call outcome is not a finding, in their order. -/
def classifyEffects (oracle : Oracle) (obs : Execution) : Classification :=
  if oracle.expected.authRequired && obs.isSuccess && oracle.authMode != .correctAuth then
    .finding .authorizationBypass
  else if oracle.expected.state.any fun want =>
      obs.state.any (entryMismatch want) || !declaredFound want obs.state then
    .finding .stateMismatch
  else if oracle.expected.events.any fun want => obs.events != want then
    .finding .eventMismatch
  else .pass

/-- `classify`. -/
def classify (oracle : Oracle) (obs : Execution) : Classification :=
  match obs.status with
  | .contractError errorType code =>
    match oracle.expected.behavior with
    | .error wantType wantCode =>
      if wantType = errorType ∧ wantCode = code then .expectedError
      else .finding .unexpectedError
    | .any => .pass
    | .success _ =>
      if oracle.expected.resourceLimitIsFinding && isBudgetError errorType then
        .finding .resourceLimit
      else .finding .unexpectedError
  | .void | .returned _ =>
    match oracle.expected.behavior with
    | .error .. => .finding .returnMismatch
    | .any => oracle.classifyEffects obs
    | .success expectReturn =>
      if expectReturn.any fun want => obs.returnValue.getD .void != want then
        .finding .returnMismatch
      else oracle.classifyEffects obs

end Oracle

end SorobanDevkit.Fuzz
