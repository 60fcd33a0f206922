import SorobanDevkit.Fuzz.FaithfulBudget
import SorobanDevkit.Fuzz.Preservation

/-!
# Replay

An artifact is executed again from what is written in it (`sdkt-fuzz/src/replay.rs`): its steps,
seed, environment, authorization mode and expectation are read back, and the verdict is compared
with the recorded one. It is compared here with what the campaign recorded.

## Main definitions

* `ReplayError`, `ReplayOutcome`, `replayContext`, `replay`.

## Main results

* `replayContext_fromFinding` — the context that an artifact of a campaign is replayed in.
* `replay_of_campaign` — what it ends with, unless the budget comes from a network profile.
-/

namespace SorobanDevkit.Fuzz

open Xdr

/-- `ReplayError`, as far as a replay raises it. -/
inductive ReplayError
  | unsupportedSchema (found expected : UInt32)
  | invalidArtifact (message : String)
  | wasmHashMismatch (expected actual : String)
  | execution (message : String)
  deriving DecidableEq

/-- `ReplayOutcome`. -/
inductive ReplayOutcome
  | reproduced (reasonCode : ReasonCode) (observationHash artifactHash : String)
  | mismatch (expected : ReasonCode) (actual : Classification)
      (observationHash artifactHash : String)
  deriving DecidableEq

/-- `is_reproduced`. -/
def ReplayOutcome.isReproduced : ReplayOutcome → Bool
  | .reproduced .. => true
  | .mismatch .. => false

/-- `eq_ignore_ascii_case`. -/
def eqIgnoreAsciiCase (a b : String) : Bool :=
  a.toList.map Char.toLower == b.toList.map Char.toLower

/-- The digests of canonical JSON: `observation_hash` and `FindingArtifact::canonical_hash`. -/
structure Digests where
  observation : ObservationSnapshot → String
  artifact : FindingArtifact → String

section

variable (crates : Crates) (host : Host) (digests : Digests) (artifact : FindingArtifact)
  (wasm : List UInt8)

/-- `verify_wasm`. -/
def verifyWasm : Except ReplayError String :=
  let actual := Hex.encode (bytesOf (crates.sha256 wasm))
  if eqIgnoreAsciiCase artifact.campaign.wasmSha256 actual then .ok actual
  else .error (.wasmHashMismatch artifact.campaign.wasmSha256 actual)

/-- The authorization entries of a replay, built as the campaign builds them. -/
def replayAuth (executor : Executor) (steps : List FunctionCall) (authMode : AuthMode) :
    Except ReplayError (List (List (List UInt8))) :=
  if authMode = .noAuth then .ok []
  else steps.zipIdx.mapM fun (call, i) =>
    (invokeAuthEntries crates authMode
      (executor.case crates (artifact.caseId ++ "/step" ++ toString i) call []).contractAddress
      call).mapError fun e => .execution e.message

/-- What an artifact is replayed in. -/
structure ReplayContext where
  reason : ReasonCode
  steps : List FunctionCall
  environment : Environment
  executor : Executor
  authMode : AuthMode
  authPerStep : List (List (List UInt8))

/-- The first part of `replay`: the context is rebuilt from the artifact alone. -/
def replayContext : Except ReplayError ReplayContext := do
  let _ ← verifyWasm crates artifact wasm
  if artifact.schemaVersion ≠ schemaVersion then
    .error (.unsupportedSchema artifact.schemaVersion schemaVersion)
  else
    match ReasonCode.fromName artifact.reasonCode with
    | none =>
      .error (.invalidArtifact ("unknown reason_code \x60" ++ artifact.reasonCode ++ "\x60"))
    | some reason => do
      let steps ← (artifact.steps crates).mapError fun e => .invalidArtifact e.message
      if steps = [] then .error (.invalidArtifact "artifact contains no sequence steps")
      else do
        let environment := artifact.environment
        let seed ← artifact.seed.mapError fun e => .invalidArtifact e.message
        let config : FuzzConfig :=
          { FuzzConfig.default with seed, networkId := FuzzConfig.default.networkId }
        let executor ← (Executor.new crates host wasm config).mapError fun e =>
          .execution e.message
        match AuthMode.fromName artifact.authMode with
        | none =>
          .error (.invalidArtifact ("unknown auth_mode \x60" ++ artifact.authMode ++ "\x60"))
        | some authMode => do
          let authPerStep ← replayAuth crates artifact executor steps authMode
          .ok { reason, steps, environment, executor, authMode, authPerStep }

/-- The second part of `replay`: the steps are executed. -/
def replayObservation (context : ReplayContext) : Except ReplayError Observation :=
  if 1 < context.steps.length then
    ((executeSequenceAuth crates host context.executor [] context.environment context.steps
      artifact.caseId context.authPerStep).mapError fun e => .execution e.message).map
        (·.finalObservation)
  else
    match context.steps with
    -- not reached: there is a step
    | [] => .error (.execution "index out of bounds")
    | call :: _ =>
      let case := context.executor.case crates artifact.caseId call []
      (context.executor.executeWithAuth host case context.environment
        (context.authPerStep.head?.getD [])).mapError fun e => .execution e.message

/-- `replay`. -/
def replay : Except ReplayError ReplayOutcome := do
  let context ← replayContext crates host artifact wasm
  let observation ← replayObservation crates host artifact context
  let oracle : Oracle :=
    { expected := artifact.expected.toExpected crates, authMode := context.authMode }
  let observationHash := digests.observation (.fromObservation crates observation)
  let artifactHash := digests.artifact artifact
  match oracle.classify observation.toExecution with
  | .finding reason =>
    if reason = context.reason then .ok (.reproduced reason observationHash artifactHash)
    else .ok (.mismatch context.reason (.finding reason) observationHash artifactHash)
  | other => .ok (.mismatch context.reason other observationHash artifactHash)

end

section

variable {crates : Crates} {host : Host} {input : CampaignInput} {config : FuzzConfig}

/-! ### The context of an artifact -/

theorem verifyWasm_fromFinding (finding : Finding) (campaign : CampaignConfig)
    (steps : List FunctionCall) (wasm : List UInt8) : ∃ digest,
      verifyWasm crates (.fromFinding crates finding campaign steps wasm) wasm = .ok digest := by
  refine ⟨_, if_pos ?_⟩
  simp [eqIgnoreAsciiCase, FindingArtifact.fromFinding]

/-- The seed of an artifact is that of its campaign. -/
theorem seed_fromFinding (finding : Finding) (steps : List FunctionCall) (wasm : List UInt8) :
    (FindingArtifact.fromFinding crates finding (input.artifactConfig crates) steps wasm).seed =
      .ok input.seed := by
  simp [FindingArtifact.seed, FindingArtifact.fromFinding, CampaignInput.artifactConfig, bytesOf,
    Vector.toList]

/-- The configuration of a campaign is the default one with its seed. -/
theorem eq_of_defaultConfig (h : defaultConfig input = .ok config) :
    config = { FuzzConfig.default with seed := input.seed } := by
  obtain ⟨⟨⟩, -, h⟩ := Except.bind_eq_ok_iff.mp h
  cases h
  rfl

/-- A replay has the authorization entries of the campaign. -/
theorem replayAuth_eq_ok {artifact : FindingArtifact} {executor : Executor} {caseId : String}
    (hcase : artifact.caseId = caseId) {steps : List FunctionCall} {mode : AuthMode}
    {auth : List (List (List UInt8))}
    (h : authForSteps crates executor steps mode caseId = .ok auth) :
    replayAuth crates artifact executor steps mode = .ok auth := by
  rw [replayAuth, hcase]
  rw [authForSteps] at h
  split_ifs with hnone
  · rw [if_pos hnone] at h
    cases h
    rfl
  · rw [if_neg hnone] at h
    exact Except.mapM_mapError_eq_ok _ h

/-- **The context that an artifact of a campaign is replayed in** is the campaign's, but for the
environment. -/
theorem replayContext_fromFinding (hcrates : crates.Documented)
    (hconfig : defaultConfig input = .ok config) (hload : host.load input.wasm = .ok ())
    (hwasm : input.wasm ≠ []) {finding : Finding}
    (hmode : finding.identity.authMode = input.authMode.name) {steps : List FunctionCall}
    (hsteps : steps ≠ []) {auth : List (List (List UInt8))}
    (hauth : authForSteps crates (input.executor crates config) steps input.authMode
      finding.identity.caseId = .ok auth) :
    replayContext crates host
        (.fromFinding crates finding (input.artifactConfig crates) steps input.wasm) input.wasm =
      .ok {
        reason := finding.reasonCode
        steps := steps
        environment := (EnvironmentSnapshot.of crates input.environment).toEnvironment
        executor := input.executor crates config
        authMode := input.authMode
        authPerStep := auth } := by
  obtain ⟨digest, hdigest⟩ : ∃ digest, verifyWasm crates
      (.fromFinding crates finding (input.artifactConfig crates) steps input.wasm) input.wasm =
        .ok digest :=
    verifyWasm_fromFinding finding (input.artifactConfig crates) steps input.wasm
  have hexecutor : Executor.new crates host input.wasm
      { FuzzConfig.default with seed := input.seed } = .ok (input.executor crates config) := by
    rw [← eq_of_defaultConfig hconfig]
    exact Executor.new_eq_ok_iff.mpr ⟨validate_of_defaultConfig hconfig, hwasm, hload, rfl⟩
  have hname : AuthMode.fromName (FindingArtifact.fromFinding crates finding
      (input.artifactConfig crates) steps input.wasm).authMode = some input.authMode := by
    rw [FindingArtifact.fromFinding, hmode, AuthMode.fromName_name, AuthMode.fromName_name,
      Option.getD_some]
  refine Except.bind_eq_ok_iff.mpr ⟨digest, hdigest, (if_neg (not_not.mpr rfl)).trans ?_⟩
  have hreason : ReasonCode.fromName (FindingArtifact.fromFinding crates finding
      (input.artifactConfig crates) steps input.wasm).reasonCode = some finding.reasonCode :=
    ReasonCode.fromName_name _
  rw [hreason]
  refine Except.bind_eq_ok_iff.mpr ⟨steps, Except.mapError_eq_ok_iff.mpr
    (FindingArtifact.steps_fromFinding hcrates _ _ _ _), ?_⟩
  rw [if_neg hsteps]
  refine Except.bind_eq_ok_iff.mpr ⟨input.seed, Except.mapError_eq_ok_iff.mpr
    (seed_fromFinding finding steps input.wasm), ?_⟩
  refine Except.bind_eq_ok_iff.mpr ⟨_, Except.mapError_eq_ok_iff.mpr hexecutor, ?_⟩
  rw [hname]
  exact Except.bind_eq_ok_iff.mpr ⟨auth, replayAuth_eq_ok rfl hauth, rfl⟩

/-! ### The verdict -/

/-- A replay observes what the campaign observes of the same steps. -/
theorem replayObservation_eq_ok {artifact : FindingArtifact} {context : ReplayContext}
    {observation : Observation} (h : observeSteps crates host (1 < context.steps.length)
      context.executor context.environment context.steps artifact.caseId context.authPerStep =
        .ok observation) :
    replayObservation crates host artifact context = .ok observation := by
  unfold replayObservation
  unfold observeSteps at h
  by_cases hlength : 1 < context.steps.length
  · rw [if_pos (decide_eq_true hlength)] at h
    obtain ⟨run, hrun, hobservation⟩ := Except.map_eq_ok_iff.mp h
    rw [if_pos hlength]
    exact Except.map_eq_ok_iff.mpr ⟨run, Except.mapError_eq_ok_iff.mpr hrun, hobservation⟩
  · rw [if_neg (by simpa using hlength)] at h
    rw [if_neg hlength]
    cases hsteps : context.steps with
    | nil =>
      simp only [hsteps] at h
      cases h
    | cons call calls =>
      simp only [hsteps] at h
      refine Except.mapError_eq_ok_iff.mpr (Eq.trans ?_ h)
      cases context.authPerStep.head? <;> rfl

/-- A replay ends with the recorded reason exactly if the observation is classified as it. -/
theorem replay_eq_ok {digests : Digests} {artifact : FindingArtifact} {wasm : List UInt8}
    {context : ReplayContext} (hcontext : replayContext crates host artifact wasm = .ok context)
    {observation : Observation}
    (hobservation : replayObservation crates host artifact context = .ok observation) :
    ∃ outcome, replay crates host digests artifact wasm = .ok outcome ∧
      outcome.isReproduced = decide (Oracle.classify
        ⟨artifact.expected.toExpected crates, context.authMode⟩ observation.toExecution =
          .finding context.reason) := by
  rw [replay, hcontext]
  simp only [bind, Except.bind, hobservation]
  cases Oracle.classify ⟨artifact.expected.toExpected crates, context.authMode⟩
      observation.toExecution with
  | pass => exact ⟨_, rfl, rfl⟩
  | expectedError => exact ⟨_, rfl, rfl⟩
  | finding reason =>
    by_cases hreason : reason = context.reason
    · exact ⟨_, if_pos hreason, by simp [hreason, ReplayOutcome.isReproduced]⟩
    · exact ⟨_, if_neg hreason, by simp [hreason, ReplayOutcome.isReproduced]⟩

/-- **What the artifact of a case is replayed in**, and what it ends with if that is the environment
of the campaign. -/
theorem replay_of_executeCase (hcrates : crates.Documented)
    (hconfig : defaultConfig input = .ok config) (hload : host.load input.wasm = .ok ())
    (hwasm : input.wasm ≠ []) {expectations : Expectations} {case : CampaignCase}
    (hsteps : case.steps ≠ []) (hkind : case.kind ≠ .single ↔ 1 < case.steps.length)
    {finding : Finding} {artifact : FindingArtifact}
    (h : executeCase crates host input expectations (input.executor crates config) case =
      .ok (.finding finding artifact)) (digests : Digests) : ∃ context,
      replayContext crates host artifact input.wasm = .ok context ∧
      context.environment = (EnvironmentSnapshot.of crates input.environment).toEnvironment ∧
      (context.environment = input.environment → ∃ outcome,
        replay crates host digests artifact input.wasm = .ok outcome ∧
          outcome.isReproduced = artifact.minimization.preserved) := by
  obtain ⟨auth, observation, reason, -, -, -, hreport⟩ := executeCase_finding hkind h
  obtain ⟨outcome, minimizedAuth, minimized, houtcome, hauth, hminimized, hpreserved, hreason,
    hexpected, hcaseId, hmode, rfl⟩ := reportFinding_spec hreport
  rw [← hcaseId] at hauth hminimized
  have hcontext := replayContext_fromFinding hcrates hconfig hload hwasm hmode
    (minimized_steps_ne_nil hsteps houtcome) hauth
  refine ⟨_, hcontext, rfl, fun henvironment => ?_⟩
  rw [← henvironment] at hminimized
  obtain ⟨verdict, hverdict, hreproduced⟩ : ∃ verdict,
      replay crates host digests _ input.wasm = .ok verdict ∧ _ :=
    replay_eq_ok hcontext (replayObservation_eq_ok hminimized)
  have hrecorded : (FindingArtifact.fromFinding crates finding (input.artifactConfig crates)
      outcome.steps input.wasm).expected.toExpected crates = expectations[case.function]?.getD
        .default := by
    rw [FindingArtifact.fromFinding, ExpectedSnapshot.toExpected_fromExpected hcrates, hexpected]
  refine ⟨verdict, hverdict, hreproduced.trans ?_⟩
  rw [hrecorded, hreason]
  exact hpreserved.symm

/-- What an artifact of a campaign is replayed in. -/
theorem replay_of_campaign (hcrates : crates.Documented) {expectations : Expectations}
    {result : CampaignResult} {artifacts : List FindingArtifact}
    (hrun : runCampaignArtifacts crates host input expectations = .ok (result, artifacts))
    {artifact : FindingArtifact} (hartifact : artifact ∈ artifacts) (digests : Digests) :
    ∃ context, replayContext crates host artifact input.wasm = .ok context ∧
      context.environment = (EnvironmentSnapshot.of crates input.environment).toEnvironment ∧
      (context.environment = input.environment → ∃ outcome,
        replay crates host digests artifact input.wasm = .ok outcome ∧
          outcome.isReproduced = artifact.minimization.preserved) := by
  obtain ⟨config, cases, hconfig, hplanned, hload, -, hartifacts⟩ := exists_case_of_run hrun
  obtain ⟨case, hcase, finding, hexecuted⟩ := hartifacts artifact hartifact
  obtain ⟨hsteps, hkind⟩ := plannedCases_steps hplanned hcase
  exact replay_of_executeCase hcrates hconfig hload (wasm_ne_nil_of_plannedCases hplanned) hsteps
    hkind hexecuted digests

end

/-- A replay is faithful: it is refused, or the artifact is reproduced exactly if its finding was
preserved; and it is executed under the budget of the campaign. -/
def ReplayFaithful (crates : Crates) (host : Host) (digests : Digests) (input : CampaignInput)
    (artifact : FindingArtifact) : Prop :=
  ((∃ e, replay crates host digests artifact input.wasm = .error e) ∨
    ∃ outcome, replay crates host digests artifact input.wasm = .ok outcome ∧
      (outcome.isReproduced = true ↔ artifact.minimization.preserved = true)) ∧
  ∀ context, replayContext crates host artifact input.wasm = .ok context →
    context.environment.budget = input.environment.budget

/-- **Replay reproduces what the campaign saw**, exactly if the budget of the campaign is not taken
from a network profile: that budget is replaced in the replay. -/
theorem replay_faithful_iff {crates : Crates} (hcrates : crates.Documented) {host : Host}
    {input : CampaignInput} {expectations : Expectations} {result : CampaignResult}
    {artifacts : List FindingArtifact}
    (hrun : runCampaignArtifacts crates host input expectations = .ok (result, artifacts))
    (digests : Digests) : ∀ artifact ∈ artifacts,
      ReplayFaithful crates host digests input artifact ↔
        ¬ input.environment.budget.IsNetworkFaithful := by
  intro artifact hartifact
  obtain ⟨context, hcontext, henvironment, hreproduced⟩ :=
    replay_of_campaign hcrates hrun hartifact digests
  constructor
  · rintro ⟨-, hbudget⟩
    have hread := hbudget context hcontext
    rw [henvironment] at hread
    exact (budgetPlanFromSnapshot_of crates input.environment.budget).mp hread
  · intro hbudget
    rw [toEnvironment_of crates hbudget] at henvironment
    obtain ⟨outcome, houtcome, hpreserved⟩ := hreproduced henvironment
    refine ⟨.inr ⟨outcome, houtcome, by rw [hpreserved]⟩, fun context' hcontext' => ?_⟩
    rw [hcontext] at hcontext'
    cases hcontext'
    rw [henvironment]

section Ping

/-- Digests that are not looked at. -/
def plainDigests : Digests where
  observation _ := ""
  artifact _ := ""

/-- A finding of the campaign of two calls is replayed faithfully. -/
theorem replay_faithful_iff_ping : ∃ host expectations result artifacts,
    runCampaignArtifacts codecCrates host (pingCampaign .correctAuth) expectations =
        .ok (result, artifacts) ∧
      ∃ artifact ∈ artifacts,
        ReplayFaithful codecCrates host plainDigests (pingCampaign .correctAuth) artifact := by
  have hplanned : plannedCases codecCrates (pingCampaign .correctAuth) = .ok [pingCase] := rfl
  obtain ⟨entry, hentry⟩ := exists_isData codecCrates_documented
  obtain ⟨config, result, artifacts, finding, artifact, hrun, -, hartifact, -⟩ :=
    lossyHost_finds codecCrates_documented hplanned List.mem_cons_self hentry
  refine ⟨_, _, result, artifacts, hrun, artifact, hartifact, ?_⟩
  exact (replay_faithful_iff codecCrates_documented hrun plainDigests artifact hartifact).mpr
    (by rintro ⟨profile, coverage, hbudget⟩; cases hbudget)

/-- The campaign of two calls with a budget from a profile. -/
def profiledCampaign : CampaignInput :=
  { pingCampaign .correctAuth with
    environment := ⟨.default, networkFaithfulPlan pinnedHost pinnedProfile⟩ }

/-- A finding of it is not replayed faithfully. -/
theorem profiled_replay_is_unfaithful : ¬ ∀ host expectations result artifacts,
    runCampaignArtifacts codecCrates host profiledCampaign expectations =
        .ok (result, artifacts) →
      ∀ artifact ∈ artifacts,
        ReplayFaithful codecCrates host plainDigests profiledCampaign artifact := by
  intro hfaithful
  have hplanned : plannedCases codecCrates profiledCampaign = .ok [pingCase] := rfl
  obtain ⟨entry, hentry⟩ := exists_isData codecCrates_documented
  obtain ⟨config, result, artifacts, finding, artifact, hrun, -, hartifact, -⟩ :=
    lossyHost_finds codecCrates_documented hplanned List.mem_cons_self hentry
  obtain ⟨context, hcontext, henvironment, -⟩ :=
    replay_of_campaign codecCrates_documented hrun hartifact plainDigests
  have hbudget := (hfaithful _ _ result artifacts hrun artifact hartifact).2 context hcontext
  rw [henvironment] at hbudget
  cases hbudget

end Ping

end SorobanDevkit.Fuzz
