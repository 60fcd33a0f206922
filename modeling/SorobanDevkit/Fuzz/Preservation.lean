import SorobanDevkit.Fuzz.Posture

/-!
# What minimization keeps of a finding

The minimizer judges a candidate without authorization entries and under the environment that it has
reduced so far; the record of a finding is executed under the campaign's own. The reduced steps show
the finding for every host if both are the same, or if there was nothing to reduce.

## Main results

* `executeCase_finding`, `reportFinding_spec` — what a finding is made of.
* `executeCase_total` — a planned case is executed if every execution yields an observation.
* `preserved_of_keepsFindings`, `lossyHost_loses`.
-/

namespace SorobanDevkit.Fuzz

open Wasm (ContractSpec)
open Xdr

section

variable {crates : Crates} {host : Host} {input : CampaignInput} {executor : Executor}

/-! ### What a finding is made of -/

/-- A finding is reported for steps of the minimizer, as executed under the campaign's posture. -/
theorem reportFinding_spec {case : CampaignCase} {expected : Expected} {reason : ReasonCode}
    {observation : Observation} {finding : Finding} {artifact : FindingArtifact}
    (h : reportFinding crates host input executor case expected reason observation =
      .ok (finding, artifact)) : ∃ outcome auth minimized,
      minimizeWithOracle crates host executor ⟨case.steps, [], input.environment⟩
        (some ⟨expected, input.authMode⟩) (.finding reason) observation.isSuccess = .ok outcome ∧
      authForSteps crates executor outcome.steps input.authMode case.caseId = .ok auth ∧
      observeSteps crates host (1 < outcome.steps.length) executor input.environment outcome.steps
        case.caseId auth = .ok minimized ∧
      finding.minimization.preserved =
        decide (Oracle.classify ⟨expected, input.authMode⟩ minimized.toExecution =
          .finding reason) ∧
      finding.reasonCode = reason ∧ finding.expected = expected ∧
      finding.identity.caseId = case.caseId ∧ finding.identity.authMode = input.authMode.name ∧
      artifact = .fromFinding crates finding (input.artifactConfig crates) outcome.steps
        input.wasm := by
  obtain ⟨outcome, houtcome, h⟩ := Except.bind_eq_ok_iff.mp h
  obtain ⟨auth, hauth, h⟩ := Except.bind_eq_ok_iff.mp h
  obtain ⟨minimized, hminimized, h⟩ := Except.bind_eq_ok_iff.mp h
  cases h
  exact ⟨outcome, auth, minimized, houtcome, hauth, hminimized, rfl, rfl, rfl, rfl, rfl, rfl⟩

/-- A case with a finding was observed as one, and reported. -/
theorem executeCase_finding {expectations : Expectations} {case : CampaignCase}
    (hkind : case.kind ≠ .single ↔ 1 < case.steps.length) {finding : Finding}
    {artifact : FindingArtifact}
    (h : executeCase crates host input expectations executor case =
      .ok (.finding finding artifact)) : ∃ auth observation reason,
      authForSteps crates executor case.steps input.authMode case.caseId = .ok auth ∧
      observeSteps crates host (1 < case.steps.length) executor input.environment case.steps
        case.caseId auth = .ok observation ∧
      Oracle.classify ⟨expectations[case.function]?.getD .default, input.authMode⟩
        observation.toExecution = .finding reason ∧
      reportFinding crates host input executor case (expectations[case.function]?.getD .default)
        reason observation = .ok (finding, artifact) := by
  obtain ⟨auth, hauth, h⟩ := Except.bind_eq_ok_iff.mp h
  obtain ⟨observation, hobservation, h⟩ := Except.bind_eq_ok_iff.mp h
  rw [decide_eq_decide.mpr hkind] at hobservation
  cases hclassify : Oracle.classify ⟨expectations[case.function]?.getD .default, input.authMode⟩
      observation.toExecution with
  | pass =>
    simp only [hclassify] at h
    cases h
  | expectedError =>
    simp only [hclassify] at h
    cases h
  | finding reason =>
    simp only [hclassify] at h
    obtain ⟨r, hr, h⟩ := Except.bind_eq_ok_iff.mp h
    cases h
    exact ⟨auth, observation, reason, hauth, hobservation, hclassify, hr⟩

/-- The final execution that an observation comes from. -/
theorem finalExecution_of_observeSteps {steps : List FunctionCall} (hsteps : steps ≠ [])
    {environment : Environment} {caseId : String} {auth : List (List (List UInt8))}
    {observation : Observation}
    (h : observeSteps crates host (1 < steps.length) executor environment steps caseId auth =
      .ok observation) :
    finalExecution crates host executor environment auth steps = .ok observation.toExecution := by
  rw [← observeSteps_map hsteps caseId, h]
  rfl

/-- The final execution that a candidate is judged by. -/
theorem finalExecution_of_candidateTest {target : MinimizationTarget} (hbaseline :
    target.baseline = []) {oracle : Oracle} {original : Classification} {originalSuccess : Bool}
    {s : MinimizerState} (hsteps : s.steps ≠ []) {verdict : Bool}
    (h : candidateTest crates host executor target oracle original originalSuccess s =
      .ok verdict) : ∃ e,
      finalExecution crates host executor s.environment [] s.steps = .ok e ∧
        verdict = decide (oracle.classify e = original ∧ e.isSuccess = originalSuccess) := by
  obtain ⟨observation, hobservation, h⟩ := Except.bind_eq_ok_iff.mp h
  cases h
  rw [hbaseline] at hobservation
  refine ⟨observation.toExecution, ?_, rfl⟩
  rw [← runSteps_map hsteps "minimize-candidate", hobservation]
  rfl

/-- The minimizer leaves a step. -/
theorem minimized_steps_ne_nil {target : MinimizationTarget} (hsteps : target.steps ≠ [])
    {oracle : Option Oracle} {original : Classification} {originalSuccess : Bool}
    {outcome : MinimizationOutcome} (h : minimizeWithOracle crates host executor target oracle
      original originalSuccess = .ok outcome) : outcome.steps ≠ [] := by
  obtain ⟨s, hs, houtcome, -⟩ := minimizeWithOracle_spec (P := fun s => s.steps ≠ []) hsteps
    (fun _ _ hs hoffered _ => steps_ne_nil_of_offered hoffered hs) h
  rwa [houtcome]

/-! ### Findings that are kept -/

variable {expectations : Expectations} {case : CampaignCase} {finding : Finding}
  {artifact : FindingArtifact}

/-- A finding is kept if candidates are judged as the campaign executes. -/
theorem preserved_of_posture (hmode : input.authMode = .noAuth)
    (henvironment : reducedEnvironment input.environment = input.environment)
    (hsteps : case.steps ≠ []) (hkind : case.kind ≠ .single ↔ 1 < case.steps.length)
    (h : executeCase crates host input expectations executor case =
      .ok (.finding finding artifact)) : finding.minimization.preserved = true := by
  obtain ⟨auth, observation, reason, hauth, hobservation, hclassify, hreport⟩ :=
    executeCase_finding hkind h
  obtain ⟨outcome, minimizedAuth, minimized, houtcome, hminimizedAuth, hminimized, hpreserved, -⟩ :=
    reportFinding_spec hreport
  rw [hmode, authForSteps_noAuth] at hauth hminimizedAuth
  cases hauth
  cases hminimizedAuth
  -- the steps reached end with the finding under the environment of the campaign
  let P : MinimizerState → Prop := fun s => s.environment = input.environment ∧ s.steps ≠ [] ∧
    ∃ e, finalExecution crates host executor input.environment [] s.steps = .ok e ∧
      Oracle.classify ⟨expectations[case.function]?.getD .default, input.authMode⟩ e =
        .finding reason
  have hinit : P (MinimizationTarget.initial crates ⟨case.steps, [], input.environment⟩) :=
    ⟨rfl, hsteps, observation.toExecution, finalExecution_of_observeSteps hsteps hobservation,
      hclassify⟩
  obtain ⟨s, ⟨-, hne, e, he, hfinding⟩, houtcomeSteps, -⟩ :=
    minimizeWithOracle_spec (P := P) hinit (fun s c hs hoffered htest => by
      have hc : c.environment = input.environment := by
        obtain henv | henv := environment_of_offered hoffered <;> rw [henv, hs.1]
        exact henvironment
      have hcne := steps_ne_nil_of_offered hoffered hs.2.1
      obtain ⟨e, he, hverdict⟩ := finalExecution_of_candidateTest rfl hcne htest
      rw [hc] at he
      exact ⟨hc, hcne, e, he, (of_decide_eq_true hverdict.symm).1⟩) houtcome
  rw [houtcomeSteps] at hminimized
  have hsame := finalExecution_of_observeSteps hne hminimized
  rw [he] at hsame
  cases hsame
  rw [hpreserved, decide_eq_true hfinding]

/-- A finding is kept if there is nothing to reduce in its steps. -/
theorem preserved_of_irreducible (hirreducible : Irreducible case.steps)
    (hkind : case.kind ≠ .single ↔ 1 < case.steps.length)
    (h : executeCase crates host input expectations executor case =
      .ok (.finding finding artifact)) : finding.minimization.preserved = true := by
  obtain ⟨auth, observation, reason, hauth, hobservation, hclassify, hreport⟩ :=
    executeCase_finding hkind h
  obtain ⟨outcome, minimizedAuth, minimized, houtcome, hminimizedAuth, hminimized, hpreserved, -⟩ :=
    reportFinding_spec hreport
  have hsteps : outcome.steps = case.steps := by
    obtain ⟨s, hs, houtcomeSteps, -⟩ :=
      minimizeWithOracle_spec (P := fun s => s.steps = case.steps) rfl
        (fun s c hs hoffered _ =>
          (steps_eq_of_irreducible (by rwa [hs]) hoffered).trans hs) houtcome
    rw [houtcomeSteps, hs]
  rw [hsteps] at hminimizedAuth hminimized
  rw [hauth] at hminimizedAuth
  cases hminimizedAuth
  rw [hobservation] at hminimized
  cases hminimized
  rw [hpreserved, decide_eq_true hclassify]

end

/-- The candidates of the minimizer are executed as the campaign executes, or there is nothing to
reduce in any of its cases. -/
def KeepsFindings (crates : Crates) (input : CampaignInput) : Prop :=
  ∀ cases, plannedCases crates input = .ok cases →
    (input.authMode = .noAuth ∧ reducedEnvironment input.environment = input.environment) ∨
      ∀ case ∈ cases, Irreducible case.steps

/-- The cases that the findings and artifacts of a campaign are of. -/
theorem exists_case_of_run {crates : Crates} {host : Host} {input : CampaignInput}
    {expectations : Expectations} {result : CampaignResult} {artifacts : List FindingArtifact}
    (h : runCampaignInner crates host input expectations = .ok (result, artifacts)) :
    ∃ config cases, defaultConfig input = .ok config ∧ plannedCases crates input = .ok cases ∧
      host.load input.wasm = .ok () ∧
      (∀ finding ∈ result.findings, ∃ case ∈ cases, ∃ artifact, executeCase crates host input
        expectations (input.executor crates config) case = .ok (.finding finding artifact)) ∧
      ∀ artifact ∈ artifacts, ∃ case ∈ cases, ∃ finding, executeCase crates host input
        expectations (input.executor crates config) case = .ok (.finding finding artifact) := by
  obtain ⟨config, cases, outcomes, hconfig, hplanned, hload, houtcomes, rfl, rfl⟩ :=
    runCampaignInner_eq_ok_iff.mp h
  have hcases : ∀ outcome ∈ outcomes, ∃ case ∈ cases, executeCase crates host input expectations
      (input.executor crates config) case = .ok outcome.2 := by
    intro outcome houtcome
    obtain ⟨case, hcase, hexecuted⟩ := Except.mem_of_mapM_eq_ok houtcomes outcome houtcome
    obtain ⟨o, ho, rfl⟩ := Except.map_eq_ok_iff.mp hexecuted
    exact ⟨case, hcase, ho⟩
  refine ⟨config, cases, hconfig, hplanned, hload, fun finding hfinding => ?_,
    fun artifact hartifact => ?_⟩
  · obtain ⟨⟨caseId, outcome⟩, houtcome, hsome⟩ := List.mem_filterMap.mp hfinding
    obtain ⟨case, hcase, hexecuted⟩ := hcases _ houtcome
    cases outcome with
    | pass => cases hsome
    | expectedError => cases hsome
    | finding f artifact =>
      cases hsome
      exact ⟨case, hcase, artifact, hexecuted⟩
  · obtain ⟨⟨caseId, outcome⟩, houtcome, hsome⟩ := List.mem_filterMap.mp hartifact
    obtain ⟨case, hcase, hexecuted⟩ := hcases _ houtcome
    cases outcome with
    | pass => cases hsome
    | expectedError => cases hsome
    | finding f a =>
      cases hsome
      exact ⟨case, hcase, f, hexecuted⟩

/-- **Every finding is kept if the campaign keeps findings.** -/
theorem preserved_of_keepsFindings {crates : Crates} {host : Host} {input : CampaignInput}
    {expectations : Expectations} (hkeeps : KeepsFindings crates input) {result : CampaignResult}
    (h : runCampaign crates host input expectations = .ok result) :
    ∀ finding ∈ result.findings, finding.minimization.preserved = true := by
  obtain ⟨⟨result', artifacts⟩, hrun, rfl⟩ := Except.map_eq_ok_iff.mp h
  obtain ⟨config, cases, -, hplanned, -, hfindings, -⟩ := exists_case_of_run hrun
  intro finding hfinding
  obtain ⟨case, hcase, artifact, hexecuted⟩ := hfindings finding hfinding
  obtain ⟨hsteps, hkind⟩ := plannedCases_steps hplanned hcase
  obtain ⟨hmode, henvironment⟩ | hirreducible := hkeeps cases hplanned
  · exact preserved_of_posture hmode henvironment hsteps hkind hexecuted
  · exact preserved_of_irreducible (hirreducible case hcase) hkind hexecuted

/-! ### Campaigns that end -/

section

variable {crates : Crates} {host : Host} {input : CampaignInput} {executor : Executor}

/-- Steps are observed if every execution yields an observation. -/
theorem observeSteps_total (hhost : Observes crates host) {steps : List FunctionCall}
    (hsteps : steps ≠ []) (environment : Environment) (caseId : String)
    (auth : List (List (List UInt8))) : ∃ observation,
      observeSteps crates host (1 < steps.length) executor environment steps caseId auth =
        .ok observation := by
  obtain ⟨e, he⟩ : ∃ e, finalExecution crates host executor environment auth steps = .ok e :=
    finalExecution_total hhost hsteps
  rw [← observeSteps_map hsteps caseId] at he
  obtain ⟨observation, hobservation, -⟩ := Except.map_eq_ok_iff.mp he
  exact ⟨observation, hobservation⟩

/-- A finding is reported if every execution yields an observation: the calls of the reduced steps
can be named if those of the case can. -/
theorem reportFinding_total (hcrates : crates.Documented) (hhost : Observes crates host)
    {case : CampaignCase} (hsteps : case.steps ≠ [])
    (hauth : ∃ auth, authForSteps crates executor case.steps input.authMode case.caseId = .ok auth)
    (expected : Expected) (reason : ReasonCode) (observation : Observation) : ∃ r,
      reportFinding crates host input executor case expected reason observation = .ok r := by
  have hrun : ∀ steps environment caseId, steps ≠ [] → ∃ obs,
      runSteps crates host executor [] environment steps caseId = .ok obs := by
    intro steps environment caseId hne
    obtain ⟨e, he⟩ : ∃ e, finalExecution crates host executor environment [] steps = .ok e :=
      finalExecution_total hhost hne
    rw [← runSteps_map hne caseId] at he
    obtain ⟨obs, hobs, -⟩ := Except.map_eq_ok_iff.mp he
    exact ⟨obs, hobs⟩
  obtain ⟨outcome, houtcome⟩ : ∃ outcome, minimizeWithOracle crates host executor
      ⟨case.steps, [], input.environment⟩ (some ⟨expected, input.authMode⟩) (.finding reason)
      observation.isSuccess = .ok outcome :=
    minimizeWithOracle_total hsteps hrun
  let P : MinimizerState → Prop := fun s => s.steps ≠ [] ∧ ∀ call ∈ s.steps,
    ∃ call' ∈ case.steps, call.function = call'.function ∧ call.args.length = call'.args.length
  have hinit : P (MinimizationTarget.initial crates ⟨case.steps, [], input.environment⟩) :=
    ⟨hsteps, fun call hcall => ⟨call, hcall, rfl, rfl⟩⟩
  obtain ⟨s, ⟨hne, hcalls⟩, houtcomeSteps, -⟩ :=
    minimizeWithOracle_spec (P := P) hinit (fun s c hs hoffered _ => by
      refine ⟨steps_ne_nil_of_offered hoffered hs.1, fun call hcall => ?_⟩
      obtain ⟨call', hcall', hfunction, hlength⟩ := mem_steps_of_offered hoffered hcall
      obtain ⟨call'', hcall'', hfunction', hlength'⟩ := hs.2 call' hcall'
      exact ⟨call'', hcall'', hfunction.trans hfunction', hlength.trans hlength'⟩) houtcome
  obtain ⟨minimizedAuth, hminimizedAuth⟩ : ∃ auth,
      authForSteps crates executor outcome.steps input.authMode case.caseId = .ok auth := by
    refine (authForSteps_ok_iff hcrates).mpr ?_
    refine ((authForSteps_ok_iff hcrates).mp hauth).imp_right fun hnameable call hcall => ?_
    rw [houtcomeSteps] at hcall
    obtain ⟨call', hcall', hfunction, hlength⟩ := hcalls call hcall
    rw [FunctionCall.Nameable, hfunction, hlength]
    exact hnameable call' hcall'
  rw [← houtcomeSteps] at hne
  obtain ⟨minimized, hminimized⟩ : ∃ minimized, observeSteps crates host
      (1 < outcome.steps.length) executor input.environment outcome.steps case.caseId
      minimizedAuth = .ok minimized :=
    observeSteps_total hhost hne input.environment case.caseId minimizedAuth
  exact ⟨_, Except.bind_eq_ok_iff.mpr ⟨outcome, houtcome, Except.bind_eq_ok_iff.mpr
    ⟨minimizedAuth, hminimizedAuth, Except.bind_eq_ok_iff.mpr ⟨minimized, hminimized, rfl⟩⟩⟩⟩

/-- A planned case is executed if every execution yields an observation; if it is observed as a
finding, the finding is reported. -/
theorem executeCase_total (hcrates : crates.Documented) (hhost : Observes crates host)
    {case : CampaignCase} (hsteps : case.steps ≠ [])
    (hkind : case.kind ≠ .single ↔ 1 < case.steps.length)
    (hauth : ∃ auth, authForSteps crates executor case.steps input.authMode case.caseId = .ok auth)
    (expectations : Expectations) : ∃ outcome,
      executeCase crates host input expectations executor case = .ok outcome ∧
        ∀ auth observation reason,
          authForSteps crates executor case.steps input.authMode case.caseId = .ok auth →
          observeSteps crates host (1 < case.steps.length) executor input.environment case.steps
            case.caseId auth = .ok observation →
          Oracle.classify ⟨expectations[case.function]?.getD .default, input.authMode⟩
            observation.toExecution = .finding reason →
          ∃ finding artifact, outcome = .finding finding artifact := by
  obtain ⟨auth, hauthOk⟩ := hauth
  obtain ⟨observation, hobservation⟩ : ∃ observation, observeSteps crates host
      (1 < case.steps.length) executor input.environment case.steps case.caseId auth =
        .ok observation :=
    observeSteps_total hhost hsteps input.environment case.caseId auth
  have hkindObservation := hobservation
  rw [← decide_eq_decide.mpr hkind] at hkindObservation
  have hunique : ∀ auth' observation',
      authForSteps crates executor case.steps input.authMode case.caseId = .ok auth' →
      observeSteps crates host (1 < case.steps.length) executor input.environment case.steps
        case.caseId auth' = .ok observation' → observation' = observation := by
    intro auth' observation' hauth' hobservation'
    rw [hauthOk] at hauth'
    cases hauth'
    rw [hobservation] at hobservation'
    cases hobservation'
    rfl
  cases hclassify : Oracle.classify ⟨expectations[case.function]?.getD .default, input.authMode⟩
      observation.toExecution with
  | pass =>
    refine ⟨.pass, ?_, fun auth' o reason hauth' ho hfinding => ?_⟩
    · refine Except.bind_eq_ok_iff.mpr ⟨auth, hauthOk,
        Except.bind_eq_ok_iff.mpr ⟨observation, hkindObservation, ?_⟩⟩
      rw [hclassify]
    rw [hunique auth' o hauth' ho, hclassify] at hfinding
    cases hfinding
  | expectedError =>
    refine ⟨.expectedError, ?_, fun auth' o reason hauth' ho hfinding => ?_⟩
    · refine Except.bind_eq_ok_iff.mpr ⟨auth, hauthOk,
        Except.bind_eq_ok_iff.mpr ⟨observation, hkindObservation, ?_⟩⟩
      rw [hclassify]
    rw [hunique auth' o hauth' ho, hclassify] at hfinding
    cases hfinding
  | finding reason =>
    obtain ⟨⟨finding, artifact⟩, hreport⟩ := reportFinding_total hcrates hhost hsteps
      ⟨auth, hauthOk⟩ (expectations[case.function]?.getD .default) reason observation
    refine ⟨.finding finding artifact, Except.bind_eq_ok_iff.mpr ⟨auth, hauthOk,
      Except.bind_eq_ok_iff.mpr ⟨observation, hkindObservation, ?_⟩⟩,
      fun _ _ _ _ _ _ => ⟨finding, artifact, rfl⟩⟩
    rw [hclassify]
    exact Except.bind_eq_ok_iff.mpr ⟨_, hreport, rfl⟩

/-- **A campaign ends if every execution yields an observation.** -/
theorem runCampaign_total (hcrates : crates.Documented) (hhost : Observes crates host)
    (hload : host.load input.wasm = .ok ()) {cases : List CampaignCase}
    (hplanned : plannedCases crates input = .ok cases) (expectations : Expectations) :
    ∃ config result artifacts, defaultConfig input = .ok config ∧
      runCampaignInner crates host input expectations = .ok (result, artifacts) ∧
      ∀ case ∈ cases, ∃ outcome, executeCase crates host input expectations
        (input.executor crates config) case = .ok outcome ∧
        ∀ finding artifact, outcome = .finding finding artifact →
          finding ∈ result.findings ∧ artifact ∈ artifacts := by
  obtain ⟨config, hconfig, -⟩ := Except.bind_eq_ok_iff.mp hplanned
  have htotal : ∀ case ∈ cases, ∃ outcome, executeCase crates host input expectations
      (input.executor crates config) case = .ok outcome := by
    intro case hcase
    obtain ⟨hsteps, hkind⟩ := plannedCases_steps hplanned hcase
    obtain ⟨outcome, houtcome, -⟩ := executeCase_total hcrates hhost hsteps hkind
      (mem_plannedCases hplanned hconfig hcase).2 expectations
    exact ⟨outcome, houtcome⟩
  obtain ⟨outcomes, houtcomes⟩ : ∃ outcomes, cases.mapM (fun case => (executeCase crates host
      input expectations (input.executor crates config) case).map fun o => (case.caseId, o)) =
        .ok outcomes := by
    refine Except.exists_mapM_eq_ok fun case hcase => ?_
    obtain ⟨outcome, houtcome⟩ := htotal case hcase
    exact ⟨(case.caseId, outcome), Except.map_eq_ok_iff.mpr ⟨outcome, houtcome, rfl⟩⟩
  refine ⟨config, _, _, hconfig, runCampaignInner_eq_ok_iff.mpr
    ⟨config, cases, outcomes, hconfig, hplanned, hload, houtcomes, rfl, rfl⟩,
    fun case hcase => ?_⟩
  obtain ⟨⟨caseId, outcome⟩, hmem, hexecuted⟩ :=
    Except.exists_mem_of_mapM_eq_ok houtcomes case hcase
  obtain ⟨o, ho, hpair⟩ := Except.map_eq_ok_iff.mp hexecuted
  cases hpair
  refine ⟨outcome, ho, ?_⟩
  rintro finding artifact rfl
  exact ⟨List.mem_filterMap.mpr ⟨_, hmem, rfl⟩, List.mem_filterMap.mpr ⟨_, hmem, rfl⟩⟩

end

/-! ### Findings that are lost -/

/-- The entry is read as contract data. -/
structure StateEntry.IsData (crates : Crates) (entry : StateEntry) : Prop where
  changed : entry.change ≠ .unchanged
  key : ∃ contract durability,
    crates.readLedgerKey entry.keyXdr = .ok (.contractData contract .void durability)
  value : ∃ bytes updated, entry.valueXdr = some bytes ∧ crates.readLedgerEntry bytes = .ok updated

/-- An entry that is read as contract data leaves contract data. -/
theorem applyEntry_of_isData {crates : Crates} {entry : StateEntry} (h : entry.IsData crates)
    (state : SequenceState) :
    ∃ state', applyEntry crates state entry = .ok state' ∧ state'.dataEntries ≠ [] := by
  obtain ⟨hchanged, ⟨contract, durability, hkey⟩, bytes, updated, hvalue, hread⟩ := h
  have happly : applyEntry crates state entry = .ok { state with dataEntries :=
      (state.dataEntries.filter fun e => e.toKey ≠ .contractData contract .void durability) ++
        [updated] } := by
    rw [applyEntry, if_neg hchanged, hkey]
    simp only [Except.mapError_ok, bind, Except.bind, hvalue, decodeEntry, hread]
  exact ⟨_, happly, by simp⟩

/-- There is such an entry. -/
theorem exists_isData {crates : Crates} (hcrates : crates.Documented) :
    ∃ entry : StateEntry, entry.IsData crates := by
  obtain ⟨keyXdr, hkey⟩ := hcrates.ledgerKey
    (.contractData (.contract (Vector.replicate 32 0)) .void .persistent)
  obtain ⟨valueXdr, hvalue⟩ := hcrates.ledgerEntry ⟨0, .other [] [], []⟩
  exact ⟨⟨keyXdr, some valueXdr, .created⟩, nofun, ⟨_, _, hkey⟩, valueXdr, _, rfl, hvalue⟩

/-- A host on which a call returns if it is executed under the campaign's posture, on fresh state,
and is not the call of the case with the steps. -/
def lossyHost (entry : StateEntry) (environment : Environment) (mode : AuthMode)
    (steps : List FunctionCall) : Host where
  load _ := .ok ()
  run _ _ _ call baseline storage env authEntries := .ok {
    status :=
      if env = environment ∧ (authEntries = [] ↔ mode = .noAuth) ∧ baseline = [] ∧ storage = [] ∧
          steps ≠ [call] then .void
      else .contractError "Contract" 1
    state := [entry]
    events := []
    budget := ⟨0, 0, 0, 0⟩ }

/-- Declared success of one function. -/
def successOf (function : String) : Expectations :=
  (∅ : Expectations).insert function { Expected.default with behavior := .success none }

theorem successOf_getD (function : String) : (successOf function)[function]?.getD .default =
    { Expected.default with behavior := .success none } := by
  rw [successOf, Std.ExtTreeMap.getElem?_insert_self, Option.getD_some]

/-- An execution failed. -/
def Execution.Failed (e : Execution) : Prop := e.status = .contractError "Contract" 1

theorem classify_of_failed {mode : AuthMode} {e : Execution} (h : e.Failed) :
    Oracle.classify ⟨{ Expected.default with behavior := .success none }, mode⟩ e =
      .finding .unexpectedError ∧ e.isSuccess = false := by
  rw [Execution.Failed] at h
  simp only [Oracle.classify, Execution.isSuccess, h]
  simp [Expected.default]

theorem classify_of_void {mode : AuthMode} {e : Execution} (h : e.status = .void) :
    Oracle.classify ⟨{ Expected.default with behavior := .success none }, mode⟩ e = .pass := by
  simp only [Oracle.classify, h]
  simp [Oracle.classifyEffects, Expected.default]

section

variable {crates : Crates} {entry : StateEntry} {environment env : Environment} {mode : AuthMode}
  {steps : List FunctionCall} {executor : Executor} {auth : List (List (List UInt8))}

theorem lossyHost_observes (hentry : entry.IsData crates) :
    Observes crates (lossyHost entry environment mode steps) := by
  intro wasm config contract call baseline storage env authEntries
  refine ⟨_, rfl, fun state => ?_⟩
  obtain ⟨state', hstate', -⟩ := applyEntry_of_isData hentry state
  exact ⟨state', Except.bind_eq_ok_iff.mpr ⟨state', hstate', rfl⟩⟩

/-- What one call yields. -/
theorem runCall_lossyHost {i : ℕ} {state : SequenceState} {call : FunctionCall} {e : Execution}
    (h : runCall crates (lossyHost entry environment mode steps) executor env auth i state call =
      .ok e) : e.state = [entry] ∧ e.status =
      if env = environment ∧ ((auth[i]?).getD [] = [] ↔ mode = .noAuth) ∧ state.dataEntries = [] ∧
          state.instanceStorage = [] ∧ steps ≠ [call] then .void
      else .contractError "Contract" 1 := by
  cases h
  exact ⟨rfl, rfl⟩

/-- The executions of the minimizer fail unless they are the campaign's. -/
theorem failed_of_posture {calls : List FunctionCall} {e : Execution}
    (hposture : env = environment → mode ≠ .noAuth)
    (h : finalExecution crates (lossyHost entry environment mode steps) executor env [] calls =
      .ok e) : e.Failed := by
  refine finalExecution_of_forall (fun i state call e he => ?_) h
  refine (runCall_lossyHost he).2.trans (if_neg ?_)
  rintro ⟨henv, hauth, -⟩
  exact hposture henv (hauth.mp rfl)

/-- The steps of the case fail. -/
theorem failed_of_steps (hentry : entry.IsData crates) (hsteps : steps ≠ []) {e : Execution}
    (h : finalExecution crates (lossyHost entry environment mode steps) executor env auth steps =
      .ok e) : e.Failed := by
  obtain ⟨call, rfl⟩ | hlength : (∃ call, steps = [call]) ∨ 1 < steps.length := by
    obtain _ | ⟨call, _ | ⟨next, calls⟩⟩ := steps
    · exact absurd rfl hsteps
    · exact .inl ⟨call, rfl⟩
    · exact .inr (by simp)
  · have hcall : runCall crates (lossyHost entry environment mode [call]) executor env auth 0
        ⟨[], []⟩ call = .ok e := h
    refine (runCall_lossyHost hcall).2.trans (if_neg ?_)
    rintro ⟨-, -, -, -, hne⟩
    exact hne rfl
  -- every step leaves data, on which the next one fails
  · have hdata {state state' : SequenceState} {e : Execution} (he : e.state = [entry])
        (hfold : e.state.foldlM (applyEntry crates) state = .ok state') :
        state'.dataEntries ≠ [] := by
      rw [he] at hfold
      obtain ⟨left, hleft, hfold⟩ := Except.bind_eq_ok_iff.mp hfold
      obtain ⟨left', hleft', hne⟩ := applyEntry_of_isData hentry state
      rw [hleft] at hleft'
      cases hleft'
      cases hfold
      exact hne
    refine finalExecution_of_carried (P := fun state => state.dataEntries ≠ [])
      (fun call e state' he hfold => hdata (runCall_lossyHost he).1 hfold)
      (fun i state call e hne he => ⟨?_, fun state' => hdata (runCall_lossyHost he).1⟩) hlength h
    refine (runCall_lossyHost he).2.trans (if_neg ?_)
    rintro ⟨-, -, hempty, -⟩
    exact hne hempty

/-- Another single call returns under the campaign's posture. -/
theorem void_of_call {call : FunctionCall} (hcall : steps ≠ [call])
    (hauth : (auth[0]?).getD [] = [] ↔ mode = .noAuth) {e : Execution}
    (h : finalExecution crates (lossyHost entry environment mode steps) executor environment auth
      [call] = .ok e) : e.status = .void := by
  have hrun : runCall crates (lossyHost entry environment mode steps) executor environment auth 0
      ⟨[], []⟩ call = .ok e := h
  exact (runCall_lossyHost hrun).2.trans (if_pos ⟨rfl, hauth, rfl, rfl, hcall⟩)

end

/-- On this host the minimizer reduces the steps of the case as far as it can. -/
theorem irreducible_of_lossyHost {crates : Crates} {input : CampaignInput}
    (hposture : input.authMode = .noAuth → reducedEnvironment input.environment ≠ input.environment)
    {entry : StateEntry} {executor : Executor} {steps : List FunctionCall} (hsteps : steps ≠ [])
    {outcome : MinimizationOutcome} (h : minimizeWithOracle crates
      (lossyHost entry input.environment input.authMode steps) executor
      ⟨steps, [], input.environment⟩
      (some ⟨{ Expected.default with behavior := .success none }, input.authMode⟩)
      (.finding .unexpectedError) false = .ok outcome) :
    outcome.steps ≠ [] ∧ Irreducible outcome.steps := by
  let P : MinimizerState → Prop := fun s => s.steps ≠ [] ∧
    (s.environment = input.environment ∨ s.environment = reducedEnvironment input.environment)
  have hinit : P (MinimizationTarget.initial crates ⟨steps, [], input.environment⟩) :=
    ⟨hsteps, .inl rfl⟩
  obtain ⟨s, ⟨hne, henv⟩, houtcomeSteps, hrejected⟩ :=
    minimizeWithOracle_spec (P := P) hinit (fun s c hs hoffered _ => by
      refine ⟨steps_ne_nil_of_offered hoffered hs.1, ?_⟩
      obtain hc | hc := environment_of_offered hoffered <;> rw [hc]
      · exact hs.2
      · obtain henv | henv := hs.2 <;> rw [henv]
        · exact .inr rfl
        · exact .inr (reducedEnvironment_reducedEnvironment _)) h
  -- only what is executed as the campaign executes is rejected
  have hcampaign : ∀ c, Offered crates s c →
      c.environment = input.environment ∧ input.authMode = .noAuth := by
    intro c hc
    by_contra hother
    obtain ⟨e, he, hverdict⟩ :=
      finalExecution_of_candidateTest rfl (steps_ne_nil_of_offered hc hne) (hrejected c hc)
    have hfailed : e.Failed :=
      failed_of_posture (fun henvironment hmode => hother ⟨henvironment, hmode⟩) he
    exact of_decide_eq_false hverdict.symm (classify_of_failed hfailed)
  have hnone : ∀ c, ¬ Offered crates s c := by
    intro c hoffered
    obtain ⟨hc, hmode⟩ := hcampaign c hoffered
    have hreduced := hposture hmode
    obtain henv | henv := henv
    · rw [← henv] at hreduced
      obtain ⟨d, hd⟩ := exists_mem_environmentMove hreduced
      have hdenv := (hcampaign d (.inr (.inr hd))).1
      rw [(mem_environmentMove hd).2.1, ← henv] at hdenv
      exact hreduced hdenv
    · obtain hcenv | hcenv := environment_of_offered hoffered
      · rw [hcenv, henv] at hc
        exact hreduced hc
      · rw [hcenv, henv, reducedEnvironment_reducedEnvironment] at hc
        exact hreduced hc
  rw [houtcomeSteps]
  exact ⟨hne, (irreducible_of_not_offered hnone).1⟩

/-- On this host the case is found to fail. -/
theorem lossyHost_finds {crates : Crates} (hcrates : crates.Documented) {input : CampaignInput}
    {cases : List CampaignCase} (hplanned : plannedCases crates input = .ok cases)
    {case : CampaignCase} (hcase : case ∈ cases) {entry : StateEntry}
    (hentry : entry.IsData crates) : ∃ config result artifacts finding artifact,
      runCampaignInner crates (lossyHost entry input.environment input.authMode case.steps) input
        (successOf case.function) = .ok (result, artifacts) ∧
      finding ∈ result.findings ∧ artifact ∈ artifacts ∧
      executeCase crates (lossyHost entry input.environment input.authMode case.steps) input
        (successOf case.function) (input.executor crates config) case =
          .ok (.finding finding artifact) := by
  obtain ⟨hsteps, hkind⟩ := plannedCases_steps hplanned hcase
  obtain ⟨config, result, artifacts, hconfig, hrun, hcases⟩ := runCampaign_total hcrates
    (lossyHost_observes hentry) rfl hplanned (successOf case.function)
  obtain ⟨auth, hauth⟩ := (mem_plannedCases hplanned hconfig hcase).2
  obtain ⟨observation, hobservation⟩ : ∃ observation, observeSteps crates
      (lossyHost entry input.environment input.authMode case.steps) (1 < case.steps.length)
      (input.executor crates config) input.environment case.steps case.caseId auth =
        .ok observation :=
    observeSteps_total (lossyHost_observes hentry) hsteps input.environment case.caseId auth
  have hfailed : observation.toExecution.Failed :=
    failed_of_steps hentry hsteps (finalExecution_of_observeSteps hsteps hobservation)
  have hclassify := (classify_of_failed hfailed : Oracle.classify ⟨_, input.authMode⟩ _ = _ ∧ _).1
  rw [← successOf_getD case.function] at hclassify
  obtain ⟨outcome, hexecuted, hfinding⟩ := executeCase_total hcrates (lossyHost_observes hentry)
    hsteps hkind ⟨auth, hauth⟩ (successOf case.function)
  obtain ⟨finding, artifact, rfl⟩ := hfinding auth observation _ hauth hobservation hclassify
  obtain ⟨outcome, houtcome, hmem⟩ := hcases case hcase
  rw [hexecuted] at houtcome
  cases houtcome
  obtain ⟨hmemFinding, hmemArtifact⟩ := hmem finding artifact rfl
  exact ⟨config, result, artifacts, finding, artifact, hrun, hmemFinding, hmemArtifact, hexecuted⟩

/-- **A campaign that does not execute as the minimizer loses a finding**, if there is something to
reduce in one of its cases. -/
theorem lossyHost_loses {crates : Crates} (hcrates : crates.Documented) {input : CampaignInput}
    (hposture : input.authMode = .noAuth → reducedEnvironment input.environment ≠ input.environment)
    {cases : List CampaignCase} (hplanned : plannedCases crates input = .ok cases)
    {case : CampaignCase} (hcase : case ∈ cases) (hreducible : ¬ Irreducible case.steps)
    {entry : StateEntry} (hentry : entry.IsData crates) : ∃ result, ∃ finding ∈ result.findings,
      runCampaign crates (lossyHost entry input.environment input.authMode case.steps) input
        (successOf case.function) = .ok result ∧ finding.minimization.preserved = false := by
  obtain ⟨hsteps, hkind⟩ := plannedCases_steps hplanned hcase
  obtain ⟨config, result, artifacts, finding, artifact, hrun, hmem, -, hexecuted⟩ :=
    lossyHost_finds hcrates hplanned hcase hentry
  refine ⟨result, finding, hmem, Except.map_eq_ok_iff.mpr ⟨_, hrun, rfl⟩, ?_⟩
  obtain ⟨auth, observation, reason, hauth, hobservation, hclassify, hreport⟩ :=
    executeCase_finding hkind hexecuted
  have hfailed : observation.toExecution.Failed :=
    failed_of_steps hentry hsteps (finalExecution_of_observeSteps hsteps hobservation)
  obtain ⟨hunexpected, hfailure⟩ :
      Oracle.classify ⟨_, input.authMode⟩ observation.toExecution = _ ∧ _ :=
    classify_of_failed hfailed
  rw [successOf_getD, hunexpected] at hclassify
  cases hclassify
  obtain ⟨outcome, minimizedAuth, minimized, houtcome, hminimizedAuth, hminimized, hpreserved, -⟩ :=
    reportFinding_spec hreport
  rw [successOf_getD, hfailure] at houtcome
  obtain ⟨hne, hirreducible⟩ := irreducible_of_lossyHost hposture hsteps houtcome
  obtain ⟨call, hcall⟩ : ∃ call, outcome.steps = [call] :=
    List.length_eq_one_iff.mp (le_antisymm hirreducible.1 (List.length_pos_iff.mpr hne))
  have hother : case.steps ≠ [call] := by
    rintro heq
    rw [heq, ← hcall] at hreducible
    exact hreducible hirreducible
  have hreturned := finalExecution_of_observeSteps hne hminimized
  rw [hcall] at hreturned hminimizedAuth
  have hauthorized : (minimizedAuth[0]?).getD [] = [] ↔ input.authMode = .noAuth :=
    authForSteps_getD hminimizedAuth (List.length_pos_iff.mpr (List.cons_ne_nil _ _))
  have hvoid := void_of_call hother hauthorized hreturned
  rw [hpreserved, successOf_getD, classify_of_void hvoid]
  rfl

/-! ### Every finding -/

/-- **Minimization keeps every finding**, for every host and every expectation, exactly if the
candidates of the minimizer are executed as the campaign executes, or there is nothing to reduce in
any of its cases. -/
theorem every_finding_preserved_iff {crates : Crates} (hcrates : crates.Documented)
    (input : CampaignInput) :
    (∀ host : Host, host.Total → ∀ expectations result,
      runCampaign crates host input expectations = .ok result →
        ∀ finding ∈ result.findings, finding.minimization.preserved = true) ↔
      KeepsFindings crates input := by
  constructor
  · intro hpreserved cases hplanned
    by_contra hneither
    obtain ⟨hposture, hreducible⟩ := not_or.mp hneither
    obtain ⟨case, hcase⟩ := not_forall.mp hreducible
    obtain ⟨hcase, hreducible⟩ := Classical.not_imp.mp hcase
    obtain ⟨entry, hentry⟩ := exists_isData hcrates
    obtain ⟨result, finding, hfinding, hrun, hlost⟩ := lossyHost_loses hcrates
      (fun hmode henvironment => hposture ⟨hmode, henvironment⟩) hplanned hcase hreducible hentry
    have htotal : (lossyHost entry input.environment input.authMode case.steps).Total :=
      fun _ _ _ _ _ _ _ _ => ⟨_, rfl⟩
    have hkept := hpreserved _ htotal _ result hrun finding hfinding
    rw [hlost] at hkept
    cases hkept
  · intro hkeeps host _ expectations result hrun
    exact preserved_of_keepsFindings hkeeps hrun

section Ping

/-- A contract with one function, which has no parameters. -/
def pingSpec : ContractSpec where
  envMeta := none
  functions := [{ name := "ping", doc := "", parameters := [], outputs := [] }]
  customTypes := []
  events := []

/-- Its module: the function returns a void value. The last section has the version of the
environment. -/
def pingModule : List UInt8 :=
  [0x00, 0x61, 0x73, 0x6d, 0x01, 0x00, 0x00, 0x00, 0x01, 0x05, 0x01, 0x60, 0x00, 0x01, 0x7e, 0x03,
    0x02, 0x01, 0x00, 0x07, 0x08, 0x01, 0x04, 0x70, 0x69, 0x6e, 0x67, 0x00, 0x00, 0x0a, 0x06, 0x01,
    0x04, 0x00, 0x42, 0x02, 0x0b, 0x00, 0x1e, 0x11, 0x63, 0x6f, 0x6e, 0x74, 0x72, 0x61, 0x63, 0x74,
    0x65, 0x6e, 0x76, 0x6d, 0x65, 0x74, 0x61, 0x76, 0x30, 0x00, 0x00, 0x00, 0x00, 0x00, 0x00, 0x00,
    0x17, 0x00, 0x00, 0x00, 0x00]

/-- A campaign of one sequence of two calls. -/
def pingCampaign (authMode : AuthMode) : CampaignInput where
  wasm := pingModule
  spec := pingSpec
  seed := Vector.replicate 32 0
  cases := 1
  function := none
  sequenceLength := 2
  sequenceEvery := 1
  generation := .default
  mutationsPerCase := 0
  environment := .default
  authMode := authMode

/-- Without authorization and in the default environment, every finding of the campaign is kept. -/
theorem every_finding_preserved_iff_ping : (pingCampaign .noAuth).environment = .default ∧
    ∀ host : Host, host.Total → ∀ expectations result,
      runCampaign codecCrates host (pingCampaign .noAuth) expectations = .ok result →
        ∀ finding ∈ result.findings, finding.minimization.preserved = true :=
  ⟨rfl, (every_finding_preserved_iff codecCrates_documented (pingCampaign .noAuth)).mpr
    fun _ _ => .inl ⟨rfl, rfl⟩⟩

/-- The case of the campaign. -/
def pingCase : CampaignCase where
  caseId := "case0000"
  kind := .sequence 2
  function := "ping"
  steps := [⟨"ping", []⟩, ⟨"ping", []⟩]
  authMode := .correctAuth
  mutation := none

/-- With authorization, a finding of it is lost. -/
theorem authorized_finding_is_lost : ¬ ∀ host : Host, host.Total → ∀ expectations result,
    runCampaign codecCrates host (pingCampaign .correctAuth) expectations = .ok result →
      ∀ finding ∈ result.findings, finding.minimization.preserved = true := by
  intro hpreserved
  have hplanned : plannedCases codecCrates (pingCampaign .correctAuth) = .ok [pingCase] := rfl
  have hreducible : ¬ Irreducible pingCase.steps := by decide
  obtain ⟨entry, hentry⟩ := exists_isData codecCrates_documented
  obtain ⟨result, finding, hfinding, hrun, hlost⟩ := lossyHost_loses codecCrates_documented
    (fun hmode => by cases hmode) hplanned List.mem_cons_self hreducible hentry
  have hkept := hpreserved _ (fun _ _ _ _ _ _ _ _ => ⟨_, rfl⟩) _ result hrun finding hfinding
  rw [hlost] at hkept
  cases hkept

end Ping

end SorobanDevkit.Fuzz
