import SorobanDevkit.Fuzz.Artifact

/-!
# Campaigns

A campaign generates cases, executes and classifies each, and minimizes and reports the findings
(`sdkt-fuzz/src/campaign.rs`). The reduced steps of a finding are executed once more, under the
environment and the authorization mode of the campaign, for its record.

The accumulators of the source's loop over the cases are collected here after it: an error ends the
campaign without a result.
-/

namespace SorobanDevkit.Fuzz

open Wasm (ContractSpec ContractType)
open Xdr

/-- `CaseKind`. -/
inductive CaseKind
  | single
  | sequence (length : ℕ)
  deriving DecidableEq

/-- `CampaignCase`: a generated case before it is executed. -/
structure CampaignCase where
  caseId : String
  kind : CaseKind
  function : String
  steps : List FunctionCall
  authMode : AuthMode
  mutation : Option Mutation
  deriving DecidableEq

/-- `CampaignInput`. -/
structure CampaignInput where
  wasm : List UInt8
  spec : ContractSpec
  seed : Bytes32
  cases : ℕ
  function : Option String
  sequenceLength : ℕ
  sequenceEvery : ℕ
  generation : GenerationCaps
  mutationsPerCase : ℕ
  environment : Environment
  authMode : AuthMode

/-- `CampaignResult`. -/
structure CampaignResult where
  passed : List String
  expectedErrors : List String
  findings : List Finding
  skippedFunctions : List SkippedFunction
  executed : ℕ

/-- Declared expectations by function. -/
abbrev Expectations := Std.ExtTreeMap String Expected

/-- `CampaignInput::selectable`. -/
def CampaignInput.selectable (input : CampaignInput) : List String × List SkippedFunction :=
  let (allOk, skipped) := selectableFunctions input.spec
  let allSkipped := skipped.map fun (function, reason) => SkippedFunction.mk function reason
  match input.function with
  | none => (allOk, allSkipped)
  | some want =>
    if want ∈ allOk then ([want], [])
    else match allSkipped.find? fun s => s.function == want with
      | some skip => ([], [skip])
      | none => ([], [⟨want, "function not present in ContractSpec"⟩])

section

variable (crates : Crates) (host : Host) (input : CampaignInput)

/-- `CampaignInput::artifact_config`. -/
def CampaignInput.artifactConfig : CampaignConfig where
  wasmSha256 := Hex.encode (bytesOf (crates.sha256 input.wasm))
  seedHex := Hex.encode (bytesOf input.seed)
  cases := input.cases
  function := input.function
  sequenceLength := input.sequenceLength
  sequenceEvery := input.sequenceEvery
  mutationsPerCase := input.mutationsPerCase
  generation := .of input.generation
  environment := .of crates input.environment
  authModes := [input.authMode.name]

/-- `default_config`. -/
def defaultConfig : Except FuzzError FuzzConfig := do
  let config : FuzzConfig := { FuzzConfig.default with seed := input.seed }
  input.environment.validate config
  .ok config

/-! ### Planning a case -/

/-- The id of a case, its number with at least four digits. -/
def caseIdOf (caseNumber : ℕ) : String :=
  let digits := toString caseNumber
  "case" ++ String.ofList (List.replicate (4 - digits.length) '0') ++ digits

/-- A generated call, with the error of a campaign. -/
def generateCampaignCall (function caseId : String) : Except FuzzError GeneratedCall :=
  (generateCall crates.sha256 input.spec function input.seed caseId input.generation).mapError
    fun e => .invalidConfig ("generator: " ++ e.message)

/-- The mutations of the given numbers, each applied to the arguments that the one before left. -/
def mutateArgs (paramTypes : List ContractType) (caseId : String) :
    List ℕ → List ScVal × Option Mutation → Except FuzzError (List ScVal × Option Mutation)
  | [], s => .ok s
  | m :: ms, (args, record) =>
    match planMutation crates.sha256 paramTypes input.seed caseId m with
    | none => .ok (args, record)
    | some (argIndex, operator) =>
      if argIndex ≥ args.length then mutateArgs paramTypes caseId ms (args, record)
      else
        match paramTypes[argIndex]? with
        -- not reached: the plan is one for these types
        | none => mutateArgs paramTypes caseId ms (args, record)
        | some t =>
          match mutateArg crates.sha256 input.generation t args argIndex operator input.seed
            caseId with
          | .ok mutation => mutateArgs paramTypes caseId ms (mutation.args, some mutation)
          | .error .noApplicableMutation | .error (.argIndexOutOfRange ..) =>
            mutateArgs paramTypes caseId ms (args, record)
          | .error e => .error (.execution ("mutation: " ++ e.message))

/-- The types of the parameters of a function. -/
def CampaignInput.paramTypes (function : String) : List ContractType :=
  match input.spec.functions.find? fun f => f.name == function with
  | some f => f.parameters.map (·.type)
  | none => []

/-- A case is a sequence. -/
def CampaignInput.isSequence (caseNumber : ℕ) : Bool :=
  0 < input.sequenceEvery && 1 < input.sequenceLength && caseNumber % input.sequenceEvery == 0

/-- The case of a number, for one of the selected functions. -/
def planCase (functions : List String) (caseNumber : ℕ) : Except FuzzError CampaignCase := do
  let function := functions.getD (caseNumber % functions.length) ""
  let caseId := caseIdOf caseNumber
  let baseCall ← generateCampaignCall crates input function caseId
  if input.isSequence caseNumber then do
    let steps ← (List.range input.sequenceLength).mapM fun i => do
      let generated ←
        generateCampaignCall crates input function (caseId ++ "/gen" ++ toString i)
      .ok { function, args := generated.args }
    .ok { caseId, kind := .sequence input.sequenceLength, function, steps,
          authMode := input.authMode, mutation := none }
  else do
    let (args, mutation) ← mutateArgs crates input (input.paramTypes function) caseId
      (List.range input.mutationsPerCase) (baseCall.args, none)
    .ok { caseId, kind := .single, function, steps := [{ function, args }],
          authMode := input.authMode, mutation }

/-! ### Executing a case -/

/-- `auth_for_steps`. -/
def authForSteps (executor : Executor) (steps : List FunctionCall) (mode : AuthMode)
    (caseId : String) : Except FuzzError (List (List (List UInt8))) :=
  if mode = .noAuth then .ok []
  else steps.zipIdx.mapM fun (call, i) =>
    invokeAuthEntries crates mode
      (executor.case crates (caseId ++ "/step" ++ toString i) call []).contractAddress call

/-- The observation of steps, as a sequence or as a single call. -/
def observeSteps (sequence : Bool) (executor : Executor) (environment : Environment)
    (steps : List FunctionCall) (caseId : String) (authPerStep : List (List (List UInt8))) :
    Except FuzzError Observation :=
  if sequence then
    (executeSequenceAuth crates host executor [] environment steps caseId authPerStep).map
      (·.finalObservation)
  else
    match steps with
    -- not reached: a case has a step
    | [] => .error (.execution "index out of bounds")
    | call :: _ =>
      let case := executor.case crates caseId call []
      match authPerStep.head? with
      | some entries => executor.executeWithAuth host case environment entries
      | none => executor.executeWith host case environment

/-- What became of a case. -/
inductive CaseOutcome
  | pass
  | expectedError
  | finding (finding : Finding) (artifact : FindingArtifact)

/-- The finding of a case, with its steps minimized, and its artifact. -/
def reportFinding (executor : Executor) (case : CampaignCase) (expected : Expected)
    (reason : ReasonCode) (observation : Observation) :
    Except FuzzError (Finding × FindingArtifact) := do
  let oracle : Oracle := { expected, authMode := input.authMode }
  let outcome ← minimizeWithOracle crates host executor
    { steps := case.steps, baseline := [], environment := input.environment } (some oracle)
    (.finding reason) observation.isSuccess
  let steps := outcome.steps
  let minimizedAuth ← authForSteps crates executor steps input.authMode case.caseId
  let minimizedObservation ← observeSteps crates host (1 < steps.length) executor
    input.environment steps case.caseId minimizedAuth
  let finding : Finding := {
    reasonCode := reason
    identity := {
      caseId := case.caseId
      wasmHash := Hex.encode (bytesOf executor.wasmHash)
      function := case.function
      mutationId := case.mutation.map (·.mutationId)
      operator := case.mutation.map (·.operator.name)
      authMode := input.authMode.name }
    case := executor.case crates case.caseId (steps.headD ⟨"", []⟩) []
    mutation := case.mutation
    environment := input.environment
    expected
    observation := minimizedObservation
    minimization := { outcome.minimization with
      preserved := oracle.classify minimizedObservation.toExecution = .finding reason } }
  .ok (finding, .fromFinding crates finding (input.artifactConfig crates) steps input.wasm)

/-- The execution and classification of a case. -/
def executeCase (expectations : Expectations) (executor : Executor) (case : CampaignCase) :
    Except FuzzError CaseOutcome := do
  let expected := expectations[case.function]?.getD .default
  let oracle : Oracle := { expected, authMode := input.authMode }
  let authPerStep ← authForSteps crates executor case.steps input.authMode case.caseId
  let observation ← observeSteps crates host (case.kind ≠ .single) executor input.environment
    case.steps case.caseId authPerStep
  match oracle.classify observation.toExecution with
  | .pass => .ok .pass
  | .expectedError => .ok .expectedError
  | .finding reason => do
    let (finding, artifact) ←
      reportFinding crates host input executor case expected reason observation
    .ok (.finding finding artifact)

/-! ### The campaign -/

namespace CaseOutcome

/-- The finding of an outcome. -/
def finding? : CaseOutcome → Option Finding
  | .finding f _ => some f
  | _ => none

/-- The artifact of an outcome. -/
def artifact? : CaseOutcome → Option FindingArtifact
  | .finding _ a => some a
  | _ => none

/-- The case passed. -/
def isPass : CaseOutcome → Bool
  | .pass => true
  | _ => false

/-- The case raised the declared error. -/
def isExpectedError : CaseOutcome → Bool
  | .expectedError => true
  | _ => false

end CaseOutcome

/-- The result of executed cases. -/
def CampaignResult.of (skipped : List SkippedFunction) (outcomes : List (String × CaseOutcome)) :
    CampaignResult where
  passed := (outcomes.filter (·.2.isPass)).map (·.1)
  expectedErrors := (outcomes.filter (·.2.isExpectedError)).map (·.1)
  findings := outcomes.filterMap (·.2.finding?)
  skippedFunctions := skipped
  executed := outcomes.length

/-- The loop's body: the case of a number, planned and executed. -/
def runCase (expectations : Expectations) (executor : Executor) (functions : List String)
    (caseNumber : ℕ) : Except FuzzError (String × CaseOutcome) := do
  let case ← planCase crates input functions caseNumber
  let outcome ← executeCase crates host input expectations executor case
  .ok (case.caseId, outcome)

/-- `run_campaign_inner`. -/
def runCampaignInner (expectations : Expectations) :
    Except FuzzError (CampaignResult × List FindingArtifact) := do
  let config ← defaultConfig input
  let executor ← Executor.new crates host input.wasm config
  let functions := input.selectable.1
  let skipped := input.selectable.2
  if functions = [] then .ok (.of skipped [], [])
  else do
    let outcomes ← (List.range input.cases).mapM
      (runCase crates host input expectations executor functions)
    .ok (.of skipped outcomes, outcomes.filterMap (·.2.artifact?))

/-- `run_campaign`. -/
def runCampaign (expectations : Expectations) : Except FuzzError CampaignResult :=
  (runCampaignInner crates host input expectations).map (·.1)

/-- `run_campaign_artifacts`. -/
def runCampaignArtifacts (expectations : Expectations) :
    Except FuzzError (CampaignResult × List FindingArtifact) :=
  runCampaignInner crates host input expectations

/-! ### The cases of a campaign -/

/-- The executor of a campaign. -/
def CampaignInput.executor (config : FuzzConfig) : Executor where
  wasm := input.wasm
  wasmHash := crates.sha256 input.wasm
  config := config

/-- A case that can be executed: its calls have authorization entries. -/
def plannedCase (config : FuzzConfig) (functions : List String) (caseNumber : ℕ) :
    Except FuzzError CampaignCase := do
  let case ← planCase crates input functions caseNumber
  let _ ← authForSteps crates (input.executor crates config) case.steps input.authMode case.caseId
  .ok case

/-- The cases of a campaign, none of which depends on what is executed. -/
def plannedCases : Except FuzzError (List CampaignCase) := do
  let config ← defaultConfig input
  if input.wasm = [] then .error (.invalidSetup (.wasm "empty wasm input"))
  else if input.selectable.1 = [] then .ok []
  else (List.range input.cases).mapM (plannedCase crates input config input.selectable.1)

end

section

variable {crates : Crates} {host : Host} {input : CampaignInput}

/-- A case has as many steps as its kind tells. -/
theorem planCase_steps {functions : List String} {caseNumber : ℕ} {case : CampaignCase}
    (h : planCase crates input functions caseNumber = .ok case) :
    case.steps ≠ [] ∧ (case.kind ≠ .single ↔ 1 < case.steps.length) := by
  obtain ⟨baseCall, -, h⟩ := Except.bind_eq_ok_iff.mp h
  by_cases hsequence : input.isSequence caseNumber = true
  · rw [if_pos hsequence] at h
    obtain ⟨steps, hsteps, h⟩ := Except.bind_eq_ok_iff.mp h
    cases h
    have hlength : steps.length = input.sequenceLength := by
      rw [Except.length_of_mapM_eq_ok hsteps, List.length_range]
    have hlong : 1 < input.sequenceLength := by
      simp only [CampaignInput.isSequence, Bool.and_eq_true, decide_eq_true_eq] at hsequence
      exact hsequence.1.2
    have hsome : 0 < steps.length := by rw [hlength]; exact Nat.zero_lt_of_lt hlong
    refine ⟨List.length_pos_iff.mp hsome, ?_⟩
    simp only [hlength, hlong, ne_eq, reduceCtorEq, not_false_eq_true]
  · rw [if_neg hsequence] at h
    obtain ⟨⟨args, mutation⟩, -, h⟩ := Except.bind_eq_ok_iff.mp h
    cases h
    simp

theorem Executor.new_eq_ok_iff {wasm : List UInt8} {config : FuzzConfig} {executor : Executor} :
    Executor.new crates host wasm config = .ok executor ↔ config.validate = .ok () ∧ wasm ≠ [] ∧
      host.load wasm = .ok () ∧ executor = ⟨wasm, crates.sha256 wasm, config⟩ := by
  rw [Executor.new, Except.bind_eq_ok_iff]
  by_cases hwasm : wasm = []
  · simp [hwasm]
  · rw [if_neg hwasm]
    constructor
    · rintro ⟨⟨⟩, hvalid, h⟩
      obtain ⟨⟨⟩, hload, h⟩ := Except.bind_eq_ok_iff.mp h
      cases h
      exact ⟨hvalid, hwasm, hload, rfl⟩
    · rintro ⟨hvalid, -, hload, rfl⟩
      exact ⟨(), hvalid, Except.bind_eq_ok_iff.mpr ⟨(), hload, rfl⟩⟩

theorem validate_of_defaultConfig {config : FuzzConfig} (h : defaultConfig input = .ok config) :
    config.validate = .ok () := by
  obtain ⟨⟨⟩, henvironment, h⟩ := Except.bind_eq_ok_iff.mp h
  cases h
  obtain ⟨⟨⟩, hconfig, -⟩ := Except.bind_eq_ok_iff.mp henvironment
  exact hconfig

/-- A case is executed after it is planned, and only then. -/
theorem runCase_eq_ok_iff {expectations : Expectations} {config : FuzzConfig}
    {functions : List String} {caseNumber : ℕ} {outcome : String × CaseOutcome} :
    runCase crates host input expectations (input.executor crates config) functions caseNumber =
        .ok outcome ↔
      ∃ case, plannedCase crates input config functions caseNumber = .ok case ∧
        (executeCase crates host input expectations (input.executor crates config) case).map
          (fun o => (case.caseId, o)) = .ok outcome := by
  constructor
  · intro h
    obtain ⟨case, hcase, h⟩ := Except.bind_eq_ok_iff.mp h
    obtain ⟨o, ho, h⟩ := Except.bind_eq_ok_iff.mp h
    cases h
    obtain ⟨auth, hauth, -⟩ := Except.bind_eq_ok_iff.mp ho
    exact ⟨case, Except.bind_eq_ok_iff.mpr ⟨case, hcase,
      Except.bind_eq_ok_iff.mpr ⟨auth, hauth, rfl⟩⟩, Except.map_eq_ok_iff.mpr ⟨o, ho, rfl⟩⟩
  · rintro ⟨case, hplanned, h⟩
    obtain ⟨case', hcase, hplanned⟩ := Except.bind_eq_ok_iff.mp hplanned
    obtain ⟨auth, -, hplanned⟩ := Except.bind_eq_ok_iff.mp hplanned
    cases hplanned
    obtain ⟨o, ho, rfl⟩ := Except.map_eq_ok_iff.mp h
    exact Except.bind_eq_ok_iff.mpr ⟨case, hcase, Except.bind_eq_ok_iff.mpr ⟨o, ho, rfl⟩⟩

/-- **A campaign executes its planned cases**, and its findings and artifacts are theirs. -/
theorem runCampaignInner_eq_ok_iff {expectations : Expectations} {result : CampaignResult}
    {artifacts : List FindingArtifact} :
    runCampaignInner crates host input expectations = .ok (result, artifacts) ↔
      ∃ config cases outcomes, defaultConfig input = .ok config ∧
        plannedCases crates input = .ok cases ∧ host.load input.wasm = .ok () ∧
        cases.mapM (fun case => (executeCase crates host input expectations
          (input.executor crates config) case).map fun o => (case.caseId, o)) = .ok outcomes ∧
        result = .of input.selectable.2 outcomes ∧
        artifacts = outcomes.filterMap (·.2.artifact?) := by
  constructor
  · intro h
    obtain ⟨config, hconfig, h⟩ := Except.bind_eq_ok_iff.mp h
    obtain ⟨executor, hexecutor, h⟩ := Except.bind_eq_ok_iff.mp h
    obtain ⟨-, hwasm, hload, rfl⟩ := Executor.new_eq_ok_iff.mp hexecutor
    by_cases hfunctions : input.selectable.1 = []
    · rw [if_pos hfunctions] at h
      cases h
      refine ⟨config, [], [], hconfig, ?_, hload, rfl, rfl, rfl⟩
      exact Except.bind_eq_ok_iff.mpr ⟨config, hconfig, by rw [if_neg hwasm, if_pos hfunctions]⟩
    · rw [if_neg hfunctions] at h
      obtain ⟨outcomes, houtcomes, h⟩ := Except.bind_eq_ok_iff.mp h
      cases h
      obtain ⟨cases, hcases, houtcomes⟩ :=
        (Except.mapM_eq_ok_iff_of_bind fun n o => runCase_eq_ok_iff).mp houtcomes
      refine ⟨config, cases, outcomes, hconfig, ?_, hload, houtcomes, rfl, rfl⟩
      exact Except.bind_eq_ok_iff.mpr ⟨config, hconfig,
        by rw [if_neg hwasm, if_neg hfunctions]; exact hcases⟩
  · rintro ⟨config, cases, outcomes, hconfig, hplanned, hload, houtcomes, rfl, rfl⟩
    obtain ⟨config', hconfig', hplanned⟩ := Except.bind_eq_ok_iff.mp hplanned
    rw [hconfig] at hconfig'
    cases hconfig'
    by_cases hwasm : input.wasm = []
    · rw [if_pos hwasm] at hplanned
      cases hplanned
    have hexecutor : Executor.new crates host input.wasm config =
        .ok (input.executor crates config) :=
      Executor.new_eq_ok_iff.mpr ⟨validate_of_defaultConfig hconfig, hwasm, hload, rfl⟩
    refine Except.bind_eq_ok_iff.mpr ⟨config, hconfig,
      Except.bind_eq_ok_iff.mpr ⟨_, hexecutor, ?_⟩⟩
    rw [if_neg hwasm] at hplanned
    by_cases hfunctions : input.selectable.1 = []
    · rw [if_pos hfunctions] at hplanned
      cases hplanned
      cases houtcomes
      exact if_pos hfunctions
    · rw [if_neg hfunctions] at hplanned
      have hrun := (Except.mapM_eq_ok_iff_of_bind fun n o => runCase_eq_ok_iff).mpr
        ⟨cases, hplanned, houtcomes⟩
      exact (if_neg hfunctions).trans (Except.bind_eq_ok_iff.mpr ⟨outcomes, hrun, rfl⟩)

theorem wasm_ne_nil_of_plannedCases {cases : List CampaignCase}
    (h : plannedCases crates input = .ok cases) : input.wasm ≠ [] := by
  intro hwasm
  obtain ⟨config, -, h⟩ := Except.bind_eq_ok_iff.mp h
  rw [if_pos hwasm] at h
  cases h

/-- What a planned case is. -/
theorem mem_plannedCases {cases : List CampaignCase} (h : plannedCases crates input = .ok cases)
    {config : FuzzConfig} (hconfig : defaultConfig input = .ok config) {case : CampaignCase}
    (hcase : case ∈ cases) :
    (∃ caseNumber, planCase crates input input.selectable.1 caseNumber = .ok case) ∧
      ∃ auth, authForSteps crates (input.executor crates config) case.steps input.authMode
        case.caseId = .ok auth := by
  have hwasm := wasm_ne_nil_of_plannedCases h
  obtain ⟨config', hconfig', h⟩ := Except.bind_eq_ok_iff.mp h
  rw [hconfig] at hconfig'
  cases hconfig'
  rw [if_neg hwasm] at h
  by_cases hfunctions : input.selectable.1 = []
  · rw [if_pos hfunctions] at h
    cases h
    cases hcase
  · rw [if_neg hfunctions] at h
    obtain ⟨caseNumber, -, hplanned⟩ := Except.mem_of_mapM_eq_ok h case hcase
    obtain ⟨case', hcase', hplanned⟩ := Except.bind_eq_ok_iff.mp hplanned
    obtain ⟨auth, hauth, hplanned⟩ := Except.bind_eq_ok_iff.mp hplanned
    cases hplanned
    exact ⟨⟨caseNumber, hcase'⟩, auth, hauth⟩

/-- Every planned case has a step, and it is a sequence if it has more than one. -/
theorem plannedCases_steps {cases : List CampaignCase} (h : plannedCases crates input = .ok cases)
    {case : CampaignCase} (hcase : case ∈ cases) :
    case.steps ≠ [] ∧ (case.kind ≠ .single ↔ 1 < case.steps.length) := by
  obtain ⟨config, hconfig, -⟩ := Except.bind_eq_ok_iff.mp h
  obtain ⟨⟨caseNumber, hplan⟩, -⟩ := mem_plannedCases h hconfig hcase
  exact planCase_steps hplan

end

end SorobanDevkit.Fuzz
