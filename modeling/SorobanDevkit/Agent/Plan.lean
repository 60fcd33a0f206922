import SorobanDevkit.Agent.Parse

/-!
# Planning a request

`sdkt-agent/src/plan.rs` turns an intent into a command line, or refuses it. A piece of the command
line is a list of words, or an error; the pieces are put together in the order of the source.
-/

namespace SorobanDevkit.Agent

open Strings (splitWhitespace contains)

/-- `TESTNET_RPC`. -/
def TESTNET_RPC : String := "https://soroban-testnet.stellar.org"

/-- `TESTNET_PASSPHRASE`. -/
def TESTNET_PASSPHRASE : String := "Test SDF Network ; September 2015"

/-- `Plan`. -/
structure Plan where
  capabilityId : String
  argv : List String
  network : Option String
  safety : Safety
  wantsJson : Bool
  matchedKeywords : List String
  deriving DecidableEq

/-- `PlanError`. -/
inductive PlanError
  | parse (error : ParseError)
  | unknownCapability (capabilityId : String)
  | blocked (capabilityId : String) (safety : Safety) (requiresConfirmation : Bool)
  | refusedNetwork (network : String)
  | unmappableArgument (capabilityId argument : String)
  deriving DecidableEq

/-- `BASELINE_FLAGS`. -/
def BASELINE_FLAGS : List String := ["--previous-wasm", "--old-wasm"]

/-- `CANDIDATE_FLAGS`. -/
def CANDIDATE_FLAGS : List String := ["--wasm", "--new-wasm"]

/-- `PLANNER_MANAGED_FLAGS`. -/
def PLANNER_MANAGED_FLAGS : List String :=
  ["--rpc-url", "--network-passphrase", "--format", "--wasm", "--previous-wasm", "--old-wasm",
    "--new-wasm", "--envelope", "--args", "--base-fees", "--rpc"]

/-! ### Lookups in the registry -/

/-- The leading word of a declared argument. -/
def flagToken (arg : String) : String := (splitWhitespace arg).head?.getD ""

namespace Capability

variable (cap : Capability)

/-- The declared arguments. -/
def arguments : List String := cap.requiredArgs ++ cap.optionalArgs

/-- `declares_arg`. -/
def declaresArg (flag : String) : Bool := cap.arguments.any fun a => flagToken a = flag

/-- `flag_for`. -/
def flagFor (flag : String) : Bool := cap.arguments.any fun a => contains flag a

/-- `flag_for_any`. -/
def flagForAny (candidates : List String) : Option String := candidates.find? cap.declaresArg

/-- `arg_position`. -/
def argPosition (flag : String) : ℕ :=
  (cap.arguments.findIdx? fun a => flagToken a = flag).getD 0xffffffffffffffff

/-- `artifact_capacity`. -/
def artifactCapacity : ℕ :=
  if BASELINE_FLAGS.any cap.declaresArg then 2
  else if CANDIDATE_FLAGS.any cap.declaresArg || cap.declaresArg "<file.wasm>" then 1
  else 0

end Capability

/-! ### The checks of a request -/

section

variable (cap : Capability) (args : IntentArgs)

/-- An argument that the capability cannot take. -/
def unsupported (arguments : String) : PlanError := .parse (.unsupportedArgument cap.id arguments)

/-- No artifact has nowhere to go. -/
def checkArtifacts : Except PlanError Unit :=
  .ensure (args.artifactPaths.length ≤ cap.artifactCapacity) (unsupported cap
    ("artifact path(s) " ++ ", ".intercalate args.artifactPaths ++ " — " ++ cap.id ++
      " accepts at most " ++ toString cap.artifactCapacity))

/-- A flag of the request is one that the planner maps, or one that the capability declares. -/
def mapsFlag (flag : String) : Bool :=
  (PLANNER_MANAGED_FLAGS.contains flag && cap.flagFor flag) || cap.declaresArg flag

/-- No flag has nowhere to go. -/
def checkFlags : Except PlanError Unit :=
  match args.explicitFlags.find? fun (flag, _) => !mapsFlag cap flag with
  | some (flag, _) => .error (unsupported cap flag)
  | none => .ok ()

/-- The capability queries a network. -/
def Capability.touchesNetwork (cap : Capability) : Bool := cap.network ≠ .none

/-- No network but the testnet is picked. -/
def checkNetwork : Except PlanError Unit :=
  match args.network with
  | none => .ok ()
  | some network =>
    .ensure (!cap.touchesNetwork ∨ network = "testnet") (.refusedNetwork network)

/-- An endpoint or a passphrase has somewhere to go, and an endpoint other than the testnet's comes
with a passphrase. -/
def checkEndpoint : Except PlanError Unit := do
  Except.ensure (args.rpcUrl = none ∨ (cap.touchesNetwork ∧ cap.flagFor "--rpc-url"))
    (unsupported cap ("--rpc-url " ++ args.rpcUrl.getD ""))
  Except.ensure (args.networkPassphrase = none ∨
      (cap.touchesNetwork ∧ cap.flagFor "--network-passphrase"))
    (unsupported cap "--network-passphrase")
  Except.ensure (¬ (cap.touchesNetwork ∧ cap.flagFor "--rpc-url" ∧ args.rpcUrl ≠ none ∧
      args.rpcUrl ≠ some TESTNET_RPC ∧ args.networkPassphrase = none))
    (.parse (.missingArgument cap.id
      "network passphrase (--network-passphrase) for a non-testnet RPC url"))

/-! ### The pieces of the command line -/

/-- The flags that are declared and not mapped by the planner. -/
def passedFlags : List (String × Option String) :=
  args.explicitFlags.filter fun (flag, _) =>
    !PLANNER_MANAGED_FLAGS.contains flag && cap.declaresArg flag

/-- A flag that is passed through with its value. -/
def passFlag (entry : String × Option String) : Except PlanError (List String) :=
  match entry.2 with
  | some v => .ok [entry.1, v]
  | none => .error (.parse (.missingArgument cap.id (entry.1 ++ " <value>")))

/-- The flags that are passed through. -/
def passedWords : Except PlanError (List String) :=
  ((passedFlags cap args).mapM (passFlag cap)).map List.flatten

/-- The contract id. -/
def contractWords : List String :=
  match args.contract with
  | some c => (if cap.flagFor "--contract" then ["--contract"] else []) ++ [c]
  | none => []

/-- The baseline, with its position among the declared arguments. -/
def baselineWords : Except PlanError (List (ℕ × List String)) :=
  match args.previousWasm with
  | none => .ok []
  | some w => match cap.flagForAny BASELINE_FLAGS with
    | some flag => .ok [(cap.argPosition flag, [flag, w])]
    | none => .error (.unmappableArgument cap.id "baseline artifact")

/-- The candidate, with its position among the declared arguments. -/
def candidateWords : List (ℕ × List String) :=
  match args.wasm with
  | none => []
  | some w => match cap.flagForAny CANDIDATE_FLAGS with
    | some flag => [(cap.argPosition flag, [flag, w])]
    | none => [(cap.argPosition "<file.wasm>", [w])]

/-- The artifacts in the order in which the capability declares them. -/
def artifactWords : Except PlanError (List String) := do
  let baseline ← baselineWords cap args
  .ok (((baseline ++ candidateWords cap args).insertionSort fun a b => a.1 ≤ b.1).map (·.2)).flatten

/-- A value under a flag, or nothing. -/
def flaggedWords (flag : String) (argument : String) (values : List String) :
    Except PlanError (List String) :=
  if values = [] then .ok []
  else if cap.flagFor flag then .ok (values.flatMap fun v => [flag, v])
  else .error (.unmappableArgument cap.id argument)

/-- The switch for live statistics is wanted. -/
def wantsRpc : Bool :=
  args.useRpc || (cap.id = "fee.estimate" && args.rpcUrl.isSome && args.baseFees.isNone)

/-- The switch for live statistics. -/
def rpcWords : Except PlanError (List String) :=
  if wantsRpc cap args then
    if cap.flagFor "--rpc" then .ok ["--rpc"] else .error (.unmappableArgument cap.id "--rpc")
  else .ok []

/-- The endpoint and the passphrase. -/
def endpoint : Option (String × String) :=
  if cap.touchesNetwork && cap.flagFor "--rpc-url" &&
      !(cap.id = "fee.estimate" && args.baseFees.isSome && !args.useRpc) then
    some (args.rpcUrl.getD TESTNET_RPC, args.networkPassphrase.getD TESTNET_PASSPHRASE)
  else none

/-- The endpoint and the passphrase under their flags. -/
def endpointWords : List String :=
  match endpoint cap args with
  | some (rpc, phrase) => ["--rpc-url", rpc, "--network-passphrase", phrase]
  | none => []

/-- The output format. -/
def formatWords : Except PlanError (List String) :=
  match args.flagValue "--format" with
  | none =>
    if args.hasFlag "--format" then .error (unsupported cap "--format <json|pretty>")
    else .ok (if cap.formats.json then ["--format", "json"] else [])
  | some v =>
    if (v = "json" ∧ cap.formats.json) ∨ (v = "pretty" ∧ cap.formats.pretty) then
      .ok (if cap.formats.json && v ≠ "pretty" then ["--format", "json"] else [])
    else .error (unsupported cap ("--format " ++ v))

/-- `build_argv`. -/
def buildArgv : Except PlanError (List String) := do
  checkArtifacts cap args
  checkFlags cap args
  checkNetwork cap args
  checkEndpoint cap args
  let passed ← passedWords cap args
  let artifacts ← artifactWords cap args
  let envelope ← flaggedWords cap "--envelope" "transaction envelope" args.envelope.toList
  let typed ← flaggedWords cap "--args" "typed call arguments" args.typedArgs
  let fees ← flaggedWords cap "--base-fees" "--base-fees" args.baseFees.toList
  let rpc ← rpcWords cap args
  let format ← formatWords cap args
  .ok (cap.command ++ (passed ++ contractWords cap args ++ artifacts ++ args.sourcePath.toList ++
    args.function.toList ++ args.profile.toList ++ envelope ++ typed ++ fees ++ rpc ++
    endpointWords cap args ++ format))

end

/-- `plan_intent`. -/
def planIntent (intent : Intent) : Except PlanError Plan :=
  match find intent.capabilityId with
  | none => .error (.unknownCapability intent.capabilityId)
  | some cap =>
    if cap.safety ≠ .readOnly ∨ cap.requiresConfirmation then
      .error (.blocked cap.id cap.safety cap.requiresConfirmation)
    else do
      let argv ← buildArgv cap intent.args
      .ok { capabilityId := cap.id, argv, network := intent.args.network, safety := cap.safety
            wantsJson := cap.formats.json, matchedKeywords := intent.matchedKeywords }

/-- `plan`. -/
def plan (request : String) : Except PlanError Plan :=
  match parse request with
  | .ok intent => planIntent intent
  | .error (.mutationRequested id) =>
    .error (.blocked id (((find id).map (·.safety)).getD .mutating)
      ((find id).any (·.requiresConfirmation)))
  | .error e => .error (.parse e)

/-! ### The pieces of a plan -/

/-- The pieces of a command line after the words of the command. -/
structure Pieces where
  passed : List String
  artifacts : List String
  envelope : List String
  typed : List String
  fees : List String
  rpc : List String
  format : List String

/-- The words that the pieces make. -/
def Pieces.words (pieces : Pieces) (cap : Capability) (args : IntentArgs) : List String :=
  pieces.passed ++ contractWords cap args ++ pieces.artifacts ++ args.sourcePath.toList ++
    args.function.toList ++ args.profile.toList ++ pieces.envelope ++ pieces.typed ++ pieces.fees ++
    pieces.rpc ++ endpointWords cap args

/-- The pieces are those of the arguments. -/
structure Pieces.Of (pieces : Pieces) (cap : Capability) (args : IntentArgs) : Prop where
  endpointChecked : checkEndpoint cap args = .ok ()
  passed_eq : passedWords cap args = .ok pieces.passed
  artifacts_eq : artifactWords cap args = .ok pieces.artifacts
  envelope_eq : flaggedWords cap "--envelope" "transaction envelope" args.envelope.toList =
    .ok pieces.envelope
  typed_eq : flaggedWords cap "--args" "typed call arguments" args.typedArgs = .ok pieces.typed
  fees_eq : flaggedWords cap "--base-fees" "--base-fees" args.baseFees.toList = .ok pieces.fees
  rpc_eq : rpcWords cap args = .ok pieces.rpc
  format_eq : formatWords cap args = .ok pieces.format

/-- **The pieces of a command line.** -/
theorem buildArgv_ok {cap : Capability} {args : IntentArgs} {argv : List String}
    (h : buildArgv cap args = .ok argv) :
    ∃ pieces : Pieces, pieces.Of cap args ∧
      argv = cap.command ++ (pieces.words cap args ++ pieces.format) := by
  obtain ⟨_, -, h⟩ := Except.bind_eq_ok_iff.mp h
  obtain ⟨_, -, h⟩ := Except.bind_eq_ok_iff.mp h
  obtain ⟨_, -, h⟩ := Except.bind_eq_ok_iff.mp h
  obtain ⟨_, hendpoint, h⟩ := Except.bind_eq_ok_iff.mp h
  obtain ⟨passed, hpassed, h⟩ := Except.bind_eq_ok_iff.mp h
  obtain ⟨artifacts, hartifacts, h⟩ := Except.bind_eq_ok_iff.mp h
  obtain ⟨envelope, henvelope, h⟩ := Except.bind_eq_ok_iff.mp h
  obtain ⟨typed, htyped, h⟩ := Except.bind_eq_ok_iff.mp h
  obtain ⟨fees, hfees, h⟩ := Except.bind_eq_ok_iff.mp h
  obtain ⟨rpc, hrpc, h⟩ := Except.bind_eq_ok_iff.mp h
  obtain ⟨format, hformat, h⟩ := Except.bind_eq_ok_iff.mp h
  exact ⟨⟨passed, artifacts, envelope, typed, fees, rpc, format⟩,
    ⟨hendpoint, hpassed, hartifacts, henvelope, htyped, hfees, hrpc, hformat⟩,
    (Except.ok.inj h).symm⟩

/-- The capability of a plan is in the registry, only reads and asks for no confirmation, and the
command line is the one of the arguments of the request. -/
structure Planned (request : String) (p : Plan) (cap : Capability) : Prop where
  find_eq : find p.capabilityId = some cap
  mem : cap ∈ capabilities
  id_eq : cap.id = p.capabilityId
  readOnly : cap.safety = .readOnly
  unconfirmed : cap.requiresConfirmation = false
  argv_eq : buildArgv cap (extractArgs request) = .ok p.argv

/-- **What is planned for a request.** -/
theorem plan_ok {request : String} {p : Plan} (h : plan request = .ok p) :
    ∃ cap, Planned request p cap := by
  rw [plan] at h
  cases hparse : parse request with
  | error e =>
    rw [hparse] at h
    cases e <;> cases h
  | ok intent =>
    rw [hparse] at h
    simp only [planIntent] at h
    split at h
    · cases h
    · next cap hfind =>
      split at h
      · cases h
      · next hsafe =>
        obtain ⟨argv, hargv, h⟩ := Except.bind_eq_ok_iff.mp h
        obtain ⟨hmem, hid⟩ := find_eq_some hfind
        obtain ⟨-, -, hargs⟩ := parse_ok hparse
        rw [not_or, not_not] at hsafe
        cases h
        exact ⟨cap, by rw [hid]; exact hfind, hmem, rfl, hsafe.1,
          Bool.eq_false_of_not_eq_true hsafe.2, by rw [← hargs]; exact hargv⟩

end SorobanDevkit.Agent
