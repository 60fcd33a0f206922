import SorobanDevkit.Cli.ReleaseChecks
import SorobanDevkit.Library.Sha256

/-!
# Release assurance

`run_release_assurance` of `sdkt-cli/src/main.rs` makes one release status of the sections of a
release, and `apply_size_policy_to_assurance` makes it again when a rule on the size is violated. A
release passes when every check holds. The evidence of a fuzz campaign records the WASM that the
campaign ran on, but a release does not compare it with the candidate.
-/

namespace SorobanDevkit.Cli

open Audit Wasm

/-! ### The report -/

/-- `aggregate_release_status`. -/
def aggregateReleaseStatus (statuses : List RaStatus) : String :=
  if statuses.any fun s => s = .fail || s = .error then "FAIL"
  else if statuses.any fun s => s = .review || s = .skipped then "REVIEW"
  else "PASS"

/-- `ReleaseAssuranceReport`. -/
structure ReleaseAssuranceReport where
  contract : Option String
  network : String
  artifact : ArtifactResult
  security : SecurityResult
  upgradeSafety : UpgradeResult
  verification : VerifyResult
  health : HealthResult
  fuzz : Option FuzzEvidenceResult
  releaseStatus : String
  reasons : List String
  deriving DecidableEq

/-- The sections of a report, with their labels. -/
def releaseSections (artifact : ArtifactResult) (security : SecurityResult)
    (upgrade : UpgradeResult)
    (verification : VerifyResult) (health : HealthResult) (fuzz : Option FuzzEvidenceResult) :
    List (String × RaStatus) :=
  [("Artifact", artifact.check.status), ("Security", security.check.status),
    ("Upgrade Safety", upgrade.check.status), ("Verification", verification.check.status),
    ("Contract Health", health.check.status)] ++
    fuzz.toList.map fun f => ("Fuzz Evidence", f.check.status)

/-- The sections of a report, with their labels. -/
def ReleaseAssuranceReport.sections (report : ReleaseAssuranceReport) : List (String × RaStatus) :=
  releaseSections report.artifact report.security report.upgradeSafety report.verification
    report.health report.fuzz

/-- The reason that a section is named by. -/
def reasonOf (part : String × RaStatus) : String := part.1 ++ ": " ++ part.2.display

/-- A section that is named in the reasons. -/
def isNamed (part : String × RaStatus) : Bool :=
  part.2 = .fail || part.2 = .error || part.2 = .review

section

variable (crates : ReleaseCrates) (reg : RuleRegistry) (files : ReleaseFiles)
  (chain : ChainAnswers) (args : ReleaseArgs)

/-- The report on a candidate, with the evidence that was read. -/
def reportOn (candidate : List UInt8) (fuzz : Option FuzzEvidenceResult) : ReleaseAssuranceReport :=
  let artifact := artifactResult crates args candidate
  let security := runReleaseSecurity crates reg files args
  let upgrade := runReleaseUpgradeSafety crates files chain args candidate artifact
  let verification := verificationResult crates chain args candidate artifact
  let health := healthResult crates chain args candidate artifact
  let parts := releaseSections artifact security upgrade verification health fuzz
  { contract := args.contractId, network := args.network, artifact, security
    upgradeSafety := upgrade, verification, health, fuzz
    releaseStatus := aggregateReleaseStatus (parts.map Prod.snd)
    reasons := (parts.filter isNamed).map reasonOf }

/-- `run_release_assurance`. -/
def runReleaseAssurance : Except String ReleaseAssuranceReport := do
  let candidate ← (files.read args.wasmPath).mapError fun e =>
    "Failed to read WASM file " ++ args.wasmPath ++ ": " ++ e
  let fuzz ← readFuzzEvidence files args
  pure (reportOn crates reg files chain args candidate fuzz)

/-- The size of the previous WASM, which is read for the growth only. -/
def previousSize : Except String (Option ℕ) :=
  match args.previousWasmPath, args.maxGrowthPct with
  | some path, some _ =>
    ((files.read path).mapError fun e => "Failed to read previous WASM " ++ path ++ ": " ++ e).map
      fun bytes => some bytes.length
  | _, _ => .ok none

/-- The statuses that are folded again after the size policy. -/
def ReleaseAssuranceReport.policyStatuses (report : ReleaseAssuranceReport) : List RaStatus :=
  [report.artifact.check.status, report.security.check.status, report.upgradeSafety.check.status,
    report.verification.check.status, report.health.check.status,
    (report.fuzz.map fun f => f.check.status).getD .pass]

/-- The artifact section of a report fails. -/
def ReleaseAssuranceReport.failArtifact (report : ReleaseAssuranceReport) (detail : String) :
    ReleaseAssuranceReport :=
  { report with artifact := { report.artifact with check := ⟨.fail, detail⟩ } }

/-- A report whose candidate violates rules on its size. -/
def ReleaseAssuranceReport.violating (report : ReleaseAssuranceReport) (violations : List String) :
    ReleaseAssuranceReport :=
  let failed :=
    report.failArtifact (violations.foldl (fun detail v => detail ++ "; size policy: " ++ v)
    report.artifact.check.detail)
  { failed with
    releaseStatus := aggregateReleaseStatus failed.policyStatuses
    reasons := "Artifact: FAIL" :: report.reasons.filter fun r => r ≠ "Artifact: FAIL" }

/-- `apply_size_policy_to_assurance`. -/
def applySizePolicyToAssurance (report : ReleaseAssuranceReport) :
    Except String ReleaseAssuranceReport :=
  if args.maxSizeBytes.isNone && args.maxGrowthPct.isNone then .ok report
  else
    match report.artifact.metadata with
    | none => .ok report
    | some metadata => do
      let oldBytes ← previousSize files args
      let violations := evaluateSizePolicy crates oldBytes metadata.sizeBytes args.maxSizeBytes
        args.maxGrowthPct
      if violations.isEmpty then .ok report else .ok (report.violating violations)

/-- The report of `sdkt release-assurance`. -/
def releaseAssurance : Except String ReleaseAssuranceReport := do
  let report ← runReleaseAssurance crates reg files chain args
  applySizePolicyToAssurance crates files args report

/-! ### What a release says -/

/-- The rules on the size hold between the candidate and the previous WASM. -/
def SizeRespected (candidate : List UInt8) : Prop :=
  SizeRulesHold args (args.previousWasmPath.bind fun path =>
    (files.read path).toOption.map List.length) candidate.length

/-- The campaign ran on WASM with the SHA-256 of the candidate. The case of digits is ignored, as in
a replay. -/
def RanOn (candidate : List UInt8) (evidence : CampaignEvidence) : Prop :=
  Strings.eqIgnoreAsciiCase evidence.config.wasmSha256 (wasmSha256 crates candidate) = true

/-- What the checks of a release say about the candidate, apart from the evidence. -/
structure CandidateChecked (candidate : List UInt8) : Prop where
  parses : ∃ metadata, parseMetadata crates candidate = .ok metadata
  audited : SourcesClean crates reg files args
  compatible : CompatibleUpgrade crates files chain args candidate
  deployed : DeployedIsCandidate crates chain args candidate
  healthy : ContractHealthy crates chain args candidate
  size : SizeRespected files args candidate

/-- What a release that passes is to say about the candidate. -/
structure AboutCandidate (candidate : List UInt8) : Prop extends
    CandidateChecked crates reg files chain args candidate where
  evidence : ∀ path ∈ args.fuzzEvidence, ∃ evidence, files.evidence path = .ok (.ok evidence) ∧
    CleanEvidence evidence ∧ RanOn crates candidate evidence

/-- A release that passes is about the candidate. -/
def PassIsAboutCandidate : Prop :=
  ∀ report, releaseAssurance crates reg files chain args = .ok report →
    report.releaseStatus = "PASS" → ∃ candidate, files.read args.wasmPath = .ok candidate ∧
      AboutCandidate crates reg files chain args candidate

/-- A release with a section that fails or has an error fails, and names the section. -/
def FailuresNamed : Prop :=
  ∀ report, releaseAssurance crates reg files chain args = .ok report →
    ∀ part ∈ report.sections, part.2 = .fail ∨ part.2 = .error →
      report.releaseStatus = "FAIL" ∧ reasonOf part ∈ report.reasons

/-- The evidence is that of a clean campaign on other WASM, and the other checks hold. -/
structure ForeignEvidence (candidate : List UInt8) (evidence : CampaignEvidence) : Prop where
  read : files.read args.wasmPath = .ok candidate
  supplied : ∃ path ∈ args.fuzzEvidence, files.evidence path = .ok (.ok evidence)
  clean : CleanEvidence evidence
  foreign : ¬ RanOn crates candidate evidence
  checked : CandidateChecked crates reg files chain args candidate

variable {crates reg files chain args}

/-! ### Statuses and reasons -/

theorem aggregateReleaseStatus_pass_iff {statuses : List RaStatus} :
    aggregateReleaseStatus statuses = "PASS" ↔ ∀ s ∈ statuses, s = .pass := by
  rw [aggregateReleaseStatus]
  constructor
  · intro h s hs
    split_ifs at h with hfail hreview
    · exact absurd h (by decide)
    · exact absurd h (by decide)
    · have hnotFail := List.any_eq_false.mp (Bool.eq_false_iff.mpr hfail) s hs
      have hnotReview := List.any_eq_false.mp (Bool.eq_false_iff.mpr hreview) s hs
      cases s <;> simp_all
  · intro hall
    have hnone (a b : RaStatus) (ha : a ≠ .pass) (hb : b ≠ .pass) :
        ¬ (statuses.any fun s => s = a || s = b) = true := by
      rw [List.any_eq_true]
      rintro ⟨s, hs, h⟩
      rw [hall s hs] at h
      simp [ha.symm, hb.symm] at h
    rw [if_neg (hnone _ _ (by decide) (by decide)), if_neg (hnone _ _ (by decide) (by decide))]

theorem aggregateReleaseStatus_fail {statuses : List RaStatus} {s : RaStatus} (hs : s ∈ statuses)
    (h : s = .fail ∨ s = .error) : aggregateReleaseStatus statuses = "FAIL" := by
  rw [aggregateReleaseStatus, if_pos]
  exact List.any_eq_true.mpr ⟨s, hs, by simpa using h⟩

/-- A report of which every section that fails, has an error or is to be reviewed is named. -/
def ReleaseAssuranceReport.NamesFailures (report : ReleaseAssuranceReport) : Prop :=
  ∀ part ∈ report.sections, part.2 = .fail ∨ part.2 = .error →
    report.releaseStatus = "FAIL" ∧ reasonOf part ∈ report.reasons

theorem reportOn_namesFailures (candidate : List UInt8) (fuzz : Option FuzzEvidenceResult) :
    (reportOn crates reg files chain args candidate fuzz).NamesFailures := by
  intro part hpart hfails
  refine ⟨aggregateReleaseStatus_fail (List.mem_map_of_mem hpart) hfails, ?_⟩
  refine List.mem_map_of_mem (List.mem_filter.mpr ⟨hpart, ?_⟩)
  obtain h | h := hfails <;> simp [isNamed, h]

theorem releaseStatus_violating (report : ReleaseAssuranceReport) (violations : List String) :
    (report.violating violations).releaseStatus =
      aggregateReleaseStatus (report.violating violations).policyStatuses := rfl

theorem violating_status (report : ReleaseAssuranceReport) (violations : List String) :
    (report.violating violations).releaseStatus = "FAIL" := by
  have hfail : RaStatus.fail ∈ (report.violating violations).policyStatuses := List.mem_cons_self
  rw [releaseStatus_violating]
  exact aggregateReleaseStatus_fail hfail (.inl rfl)

/-- The size policy fails the candidate, and keeps the names of the other sections. -/
theorem violating_namesFailures {report : ReleaseAssuranceReport} (h : report.NamesFailures)
    (violations : List String) : (report.violating violations).NamesFailures := by
  intro part hpart hfails
  refine ⟨violating_status report violations, ?_⟩
  by_cases hartifact : reasonOf part = "Artifact: FAIL"
  · rw [hartifact]
    exact List.mem_cons_self
  · refine List.mem_cons_of_mem _ (List.mem_filter.mpr ⟨?_, by simpa using hartifact⟩)
    obtain rfl | hrest := List.mem_cons.mp hpart
    · exact absurd rfl hartifact
    · exact (h part (List.mem_cons_of_mem _ hrest) hfails).2

/-! ### The size policy -/

theorem SizeRulesHold.congr {old old' : Option ℕ} {newBytes : ℕ}
    (hold : args.maxGrowthPct ≠ none → old = old') (h : SizeRulesHold args old newBytes) :
    SizeRulesHold args old' newBytes where
  size := h.size
  growth maxPct hmax := hold (by simp [Option.mem_def.mp hmax]) ▸ h.growth maxPct hmax

/-- The size that the growth is measured from. -/
theorem previousSize_eq_ok {size : Option ℕ} (h : previousSize files args = .ok size)
    (hgrowth : args.maxGrowthPct ≠ none) :
    size = args.previousWasmPath.bind fun path => (files.read path).toOption.map List.length := by
  obtain ⟨maxPct, hmax⟩ := Option.ne_none_iff_exists'.mp hgrowth
  rw [previousSize, hmax] at h
  cases hpath : args.previousWasmPath with
  | none =>
    rw [hpath] at h
    cases h
    rfl
  | some path =>
    rw [hpath] at h
    obtain ⟨bytes, hread, rfl⟩ := Except.map_eq_ok_iff.mp h
    rw [Option.bind_some, Except.mapError_eq_ok_iff.mp hread]
    rfl

/-- Where the rules hold, the previous size is there if the growth is measured. -/
theorem exists_previousSize {candidate : List UInt8} (h : SizeRespected files args candidate) :
    ∃ size, previousSize files args = .ok size := by
  rw [previousSize]
  cases hpath : args.previousWasmPath with
  | none => exact ⟨none, rfl⟩
  | some path =>
    cases hmax : args.maxGrowthPct with
    | none => exact ⟨none, rfl⟩
    | some maxPct =>
      obtain ⟨old, hold, -⟩ := h.growth maxPct hmax
      rw [hpath] at hold
      obtain ⟨bytes, hbytes, -⟩ := Option.map_eq_some_iff.mp hold
      simp only [Except.toOption_eq_some_iff.mp hbytes]
      exact ⟨some bytes.length, rfl⟩

/-- The size policy leaves a report whose candidate respects the rules, and fails one whose does
not. -/
theorem applySizePolicy_cases {report report' : ReleaseAssuranceReport}
    (h : applySizePolicyToAssurance crates files args report = .ok report') :
    (report' = report ∧ ∀ metadata ∈ report.artifact.metadata, SizeRulesHold args
        (args.previousWasmPath.bind fun path => (files.read path).toOption.map List.length)
        metadata.sizeBytes) ∨
      ∃ violations, report' = report.violating violations := by
  rw [applySizePolicyToAssurance] at h
  split_ifs at h with hnone
  · cases h
    rw [Bool.and_eq_true, Option.isNone_iff_eq_none, Option.isNone_iff_eq_none] at hnone
    exact .inl ⟨rfl, fun metadata _ => ⟨by simp [hnone.1], by simp [hnone.2]⟩⟩
  · cases hmetadata : report.artifact.metadata with
    | none =>
      rw [hmetadata] at h
      cases h
      exact .inl ⟨rfl, by simp⟩
    | some metadata =>
      rw [hmetadata] at h
      obtain ⟨oldBytes, hold, h⟩ := Except.bind_eq_ok_iff.mp h
      dsimp only at h
      split_ifs at h with hviolations
      · cases h
        rw [List.isEmpty_iff, evaluateSizePolicy_eq_nil_iff] at hviolations
        refine .inl ⟨rfl, fun metadata' hmem => ?_⟩
        cases hmem
        exact hviolations.congr (previousSize_eq_ok hold)
      · cases h
        exact .inr ⟨_, rfl⟩

theorem applySizePolicy_of_sizeRespected {report : ReleaseAssuranceReport} {candidate : List UInt8}
    {metadata : WasmMetadata} (hmetadata : report.artifact.metadata = some metadata)
    (hsize : metadata.sizeBytes = candidate.length) (h : SizeRespected files args candidate) :
    applySizePolicyToAssurance crates files args report = .ok report := by
  rw [applySizePolicyToAssurance]
  split_ifs with hnone
  · rfl
  · obtain ⟨size, hprevious⟩ := exists_previousSize h
    have hholds : SizeRulesHold args size metadata.sizeBytes :=
      hsize ▸ h.congr fun hgrowth => (previousSize_eq_ok hprevious hgrowth).symm
    rw [hmetadata]
    refine Except.bind_eq_ok_iff.mpr ⟨size, hprevious, if_pos ?_⟩
    rw [evaluateSizePolicy_eq_nil_iff.mpr hholds]
    rfl

/-! ### Releases -/

theorem runReleaseAssurance_eq_ok_iff {report : ReleaseAssuranceReport} :
    runReleaseAssurance crates reg files chain args = .ok report ↔
      ∃ candidate fuzz, files.read args.wasmPath = .ok candidate ∧
        readFuzzEvidence files args = .ok fuzz ∧
        report = reportOn crates reg files chain args candidate fuzz := by
  constructor
  · intro h
    obtain ⟨candidate, hread, h⟩ := Except.bind_eq_ok_iff.mp h
    obtain ⟨fuzz, hfuzz, h⟩ := Except.bind_eq_ok_iff.mp h
    cases h
    exact ⟨candidate, fuzz, Except.mapError_eq_ok_iff.mp hread, hfuzz, rfl⟩
  · rintro ⟨candidate, fuzz, hread, hfuzz, rfl⟩
    exact Except.bind_eq_ok_iff.mpr ⟨candidate, Except.mapError_eq_ok_iff.mpr hread,
      Except.bind_eq_ok_iff.mpr ⟨fuzz, hfuzz, rfl⟩⟩

/-- The evidence that is read is that in the file, with its status. -/
theorem readFuzzEvidence_cases {fuzz : Option FuzzEvidenceResult}
    (h : readFuzzEvidence files args = .ok fuzz) :
    (args.fuzzEvidence = none ∧ fuzz = none) ∨
      ∃ path evidence result, args.fuzzEvidence = some path ∧
        files.evidence path = .ok (.ok evidence) ∧ fuzz = some result ∧
        result.check.status = evidenceStatus evidence := by
  rw [readFuzzEvidence] at h
  cases hpath : args.fuzzEvidence with
  | none =>
    rw [hpath] at h
    cases h
    exact .inl ⟨rfl, rfl⟩
  | some path =>
    rw [hpath] at h
    cases hopened : files.evidence path with
    | error e => simp [hopened] at h
    | ok parsed =>
      cases parsed with
      | error e => simp [hopened] at h
      | ok evidence =>
        simp only [hopened] at h
        cases h
        exact .inr ⟨path, evidence, _, rfl, hopened, rfl, rfl⟩

theorem exists_readFuzzEvidence (h : ∀ path ∈ args.fuzzEvidence, ∃ evidence,
    files.evidence path = .ok (.ok evidence)) : ∃ fuzz, readFuzzEvidence files args = .ok fuzz := by
  rw [readFuzzEvidence]
  cases hpath : args.fuzzEvidence with
  | none => exact ⟨none, rfl⟩
  | some path =>
    obtain ⟨evidence, hevidence⟩ := h path hpath
    simp only [hevidence]
    exact ⟨_, rfl⟩

/-- The evidence passes if it is clean. -/
theorem evidence_pass_iff {fuzz : Option FuzzEvidenceResult}
    (h : readFuzzEvidence files args = .ok fuzz) :
    (∀ result ∈ fuzz, result.check.status = .pass) ↔ ∀ path ∈ args.fuzzEvidence, ∃ evidence,
      files.evidence path = .ok (.ok evidence) ∧ CleanEvidence evidence := by
  obtain ⟨hpath, rfl⟩ | ⟨path, evidence, result, hpath, hevidence, rfl, hstatus⟩ :=
    readFuzzEvidence_cases h
  · simp [hpath]
  · rw [hpath]
    simp only [Option.mem_def, Option.some.injEq, forall_eq']
    rw [hstatus, evidenceStatus_pass_iff, hevidence]
    simp

/-- The report passes before the size policy if every check but that of the size holds. -/
theorem reportOn_pass_iff {candidate : List UInt8} {fuzz : Option FuzzEvidenceResult} :
    (reportOn crates reg files chain args candidate fuzz).releaseStatus = "PASS" ↔
      (∃ metadata, parseMetadata crates candidate = .ok metadata) ∧
      SourcesClean crates reg files args ∧ CompatibleUpgrade crates files chain args candidate ∧
      DeployedIsCandidate crates chain args candidate ∧
      ContractHealthy crates chain args candidate ∧ ∀ result ∈ fuzz,
        result.check.status = .pass := by
  change aggregateReleaseStatus (List.map Prod.snd (releaseSections _ _ _ _ _ _)) = "PASS" ↔ _
  rw [aggregateReleaseStatus_pass_iff]
  simp only [releaseSections, List.map_append, List.map_cons, List.map_nil, List.forall_mem_append,
    List.forall_mem_cons, List.not_mem_nil, false_imp_iff, implies_true, and_true, List.map_map,
    and_assoc, artifactResult_pass_iff]
  refine and_congr_right fun ⟨metadata, hmetadata⟩ => ?_
  rw [runReleaseSecurity_pass_iff, runReleaseUpgradeSafety_pass_iff hmetadata,
    verificationResult_pass_iff hmetadata, healthResult_pass_iff hmetadata]
  cases fuzz <;> simp

/-- **A release passes exactly if every check holds and the evidence, if there is any, is
clean.** -/
theorem releaseAssurance_pass_iff :
    (∃ report, releaseAssurance crates reg files chain args = .ok report ∧
        report.releaseStatus = "PASS") ↔
      ∃ candidate, files.read args.wasmPath = .ok candidate ∧
        CandidateChecked crates reg files chain args candidate ∧
        ∀ path ∈ args.fuzzEvidence, ∃ evidence,
          files.evidence path = .ok (.ok evidence) ∧ CleanEvidence evidence := by
  constructor
  · rintro ⟨report', h, hpass⟩
    obtain ⟨report, hrun, hpolicy⟩ := Except.bind_eq_ok_iff.mp h
    obtain ⟨candidate, fuzz, hread, hfuzz, rfl⟩ := runReleaseAssurance_eq_ok_iff.mp hrun
    obtain ⟨rfl, hsize⟩ | ⟨violations, rfl⟩ := applySizePolicy_cases hpolicy
    · obtain ⟨⟨metadata, hmetadata⟩, haudited, hcompatible, hdeployed, hhealthy, hclean⟩ :=
        reportOn_pass_iff.mp hpass
      have hrespected := hsize metadata (metadata_artifactResult hmetadata)
      rw [(wasmSha256_of_parseMetadata hmetadata).2] at hrespected
      exact ⟨candidate, hread, ⟨⟨metadata, hmetadata⟩, haudited, hcompatible, hdeployed, hhealthy,
        hrespected⟩, (evidence_pass_iff hfuzz).mp hclean⟩
    · rw [violating_status] at hpass
      exact absurd hpass (by decide)
  · rintro ⟨candidate, hread, hchecked, hevidence⟩
    obtain ⟨metadata, hmetadata⟩ := hchecked.parses
    obtain ⟨fuzz, hfuzz⟩ := exists_readFuzzEvidence fun path hpath =>
      (hevidence path hpath).imp fun _ h => h.1
    refine ⟨reportOn crates reg files chain args candidate fuzz, ?_, ?_⟩
    · refine Except.bind_eq_ok_iff.mpr ⟨_, runReleaseAssurance_eq_ok_iff.mpr
        ⟨candidate, fuzz, hread, hfuzz, rfl⟩, ?_⟩
      exact applySizePolicy_of_sizeRespected (metadata_artifactResult hmetadata)
        (wasmSha256_of_parseMetadata hmetadata).2 hchecked.size
    · exact reportOn_pass_iff.mpr ⟨hchecked.parses, hchecked.audited, hchecked.compatible,
        hchecked.deployed, hchecked.healthy, (evidence_pass_iff hfuzz).mpr hevidence⟩

theorem failuresNamed : FailuresNamed crates reg files chain args := by
  intro report' h
  obtain ⟨report, hrun, hpolicy⟩ := Except.bind_eq_ok_iff.mp h
  obtain ⟨candidate, fuzz, -, -, rfl⟩ := runReleaseAssurance_eq_ok_iff.mp hrun
  have hnames : (reportOn crates reg files chain args candidate fuzz).NamesFailures :=
    reportOn_namesFailures candidate fuzz
  obtain ⟨rfl, -⟩ | ⟨violations, rfl⟩ := applySizePolicy_cases hpolicy
  · exact hnames
  · exact violating_namesFailures hnames violations

/-- **Failures are named, and a release that passes is about the candidate unless its evidence is
that of a clean campaign on other WASM.** -/
theorem pass_is_about_candidate_iff (crates : ReleaseCrates) (reg : RuleRegistry)
    (files : ReleaseFiles)
    (chain : ChainAnswers) (args : ReleaseArgs) :
    (PassIsAboutCandidate crates reg files chain args ∧
        FailuresNamed crates reg files chain args) ↔
      ∀ candidate evidence, ¬ ForeignEvidence crates reg files chain args candidate evidence := by
  constructor
  · rintro ⟨hpass, -⟩ candidate evidence hforeign
    obtain ⟨path, hpath, hevidence⟩ := hforeign.supplied
    obtain ⟨report, hreport, hstatus⟩ := releaseAssurance_pass_iff.mpr
      ⟨candidate, hforeign.read, hforeign.checked, fun path' hpath' => by
        cases hpath.symm.trans hpath'
        exact ⟨evidence, hevidence, hforeign.clean⟩⟩
    obtain ⟨candidate', hread, habout⟩ := hpass report hreport hstatus
    cases hforeign.read.symm.trans hread
    obtain ⟨evidence', hevidence', -, hran⟩ := habout.evidence path hpath
    cases hevidence.symm.trans hevidence'
    exact hforeign.foreign hran
  · intro hnone
    refine ⟨fun report hreport hstatus => ?_, failuresNamed⟩
    obtain ⟨candidate, hread, hchecked, hclean⟩ :=
      releaseAssurance_pass_iff.mp ⟨report, hreport, hstatus⟩
    refine ⟨candidate, hread, hchecked, fun path hpath => ?_⟩
    obtain ⟨evidence, hevidence, hclean⟩ := hclean path hpath
    by_cases hran : RanOn crates candidate evidence
    · exact ⟨evidence, hevidence, hclean, hran⟩
    · exact absurd ⟨hread, ⟨path, hpath, hevidence⟩, hclean, hran, hchecked⟩
        (hnone candidate evidence)

end

/-! ### Evidence of other WASM -/

/-- A module with an empty section of declarations, and the module with an empty section more. -/
def tokenModule (older : Bool) : List UInt8 :=
  [0, 97, 115, 109, 1, 0, 0, 0, 0, 15, 14] ++ utf8 "contractspecv0" ++
    if older then [0, 1, 0] else []

/-- What the crates say about the two modules, and about a source without items. -/
def tokenCrates : ReleaseCrates where
  sha256 := Sha256.digest
  parseModule wasm :=
    if wasm = tokenModule false ∨ wasm = tokenModule true then .ok 1
    else .error "unexpected end-of-file"
  parseContractSpec wasm :=
    if wasm = tokenModule false ∨ wasm = tokenModule true then .ok ⟨none, [], [], []⟩
    else .error "unexpected end-of-file"
  scan source := if source = "" then some [] else none
  json := .noScans
  displayF64 _ := ""

/-- The evidence of a clean campaign on the older module. -/
def olderEvidence : CampaignEvidence where
  campaignCompleted := true
  config :=
    { wasmSha256 := wasmSha256 tokenCrates (tokenModule true), seedHex := "", cases := 1
      function := none, sequenceLength := 0, sequenceEvery := 0, mutationsPerCase := 0
      generation := ⟨4, 8, 64, 8⟩, environment := ⟨1, 0, .default⟩, authModes := [] }
  caseCount := 1
  passed := 1
  expectedErrors := 0
  findings := []
  minimizedFindings := 0
  artifactsAvailable := false
  replay := []
  deterministic := true

/-- The module with its source, and the evidence. -/
def olderEvidenceFiles : ReleaseFiles where
  read path :=
    if path = "token.wasm" then .ok (tokenModule false) else .error "No such file or directory"
  readToString path := if path = "src/lib.rs" then .ok "" else .error "No such file or directory"
  node path := if path = "src/lib.rs" then some .file else none
  evidence path :=
    if path = "campaign-evidence.json" then .ok (.ok olderEvidence)
    else .error "No such file or directory"

/-- The network where the module is deployed. -/
def deployedChain : ChainAnswers where
  upgradeHash := .ok (wasmSha256 tokenCrates (tokenModule false))
  wasmBytecode hash :=
    if hash = wasmSha256 tokenCrates (tokenModule false) then .ok (tokenModule false)
    else .error "not found"
  verificationHash := .ok (wasmSha256 tokenCrates (tokenModule false))
  healthHash := .ok (wasmSha256 tokenCrates (tokenModule false))
  storage := .ok ⟨1, 1, 0, 0, 0, none⟩

/-- A release of the module. -/
def deployedRelease : ReleaseArgs where
  wasmPath := "token.wasm"
  previousWasmPath := none
  auditPaths := ["src/lib.rs"]
  disable := []
  contractId := some "CAAAAAAAAAAAAAAAAAAAAAAAAAAAAAAAAAAAAAAAAAAAAAAAAAAAD2KM"
  network := "testnet"
  fuzzEvidence := some "campaign-evidence.json"
  maxSizeBytes := none
  maxGrowthPct := none
  ttlWarningDays := 30

/-- A release passes with the evidence of a campaign on other code. -/
theorem older_evidence_passes :
    ¬ (PassIsAboutCandidate tokenCrates .empty olderEvidenceFiles deployedChain deployedRelease ∧
      FailuresNamed tokenCrates .empty olderEvidenceFiles deployedChain deployedRelease) := by
  rintro ⟨hpass, -⟩
  have hstatus : (releaseAssurance tokenCrates .empty olderEvidenceFiles deployedChain
      deployedRelease).toOption.map (·.releaseStatus) = some "PASS" := by decide +kernel
  obtain ⟨report, hreport, hstatus⟩ := Option.map_eq_some_iff.mp hstatus
  obtain ⟨candidate, hread, habout⟩ := hpass report (Except.toOption_eq_some_iff.mp hreport) hstatus
  obtain ⟨evidence, hevidence, -, hran⟩ := habout.evidence _ rfl
  cases hread
  cases hevidence
  exact absurd hran (by unfold RanOn; decide +kernel)

end SorobanDevkit.Cli
