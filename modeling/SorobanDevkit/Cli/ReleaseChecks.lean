import SorobanDevkit.Audit.Registry
import SorobanDevkit.Cli.RustSources
import SorobanDevkit.Fuzz.Artifact
import SorobanDevkit.Wasm.SpecDiff

/-!
# The checks of a release

The sections of `sdkt release-assurance` (`sdkt-cli/src/main.rs`): the candidate WASM itself, the
audit of its sources, the upgrade against a baseline, the code and the health of the deployed
contract, and the recorded evidence of a fuzz campaign. Each section has a status. The network
answers every request anew.
-/

namespace SorobanDevkit.Cli

open Audit Wasm
open Strings (contains)

/-! ### Statuses -/

/-- `RaStatus`. -/
inductive RaStatus
  | pass
  | review
  | fail
  | skipped
  | error
  deriving DecidableEq

/-- The text of a status. -/
def RaStatus.display : RaStatus → String
  | pass => "PASS"
  | review => "REVIEW"
  | fail => "FAIL"
  | skipped => "SKIPPED"
  | error => "ERROR"

/-- `RaCheck`. -/
structure RaCheck where
  status : RaStatus
  detail : String
  deriving DecidableEq

/-- `audit_status`. -/
def auditStatus (summary : AuditSummary) : RaStatus :=
  if 0 < summary.critical then .fail else if 0 < summary.warning then .review else .pass

/-- `upgrade_verdict_status`. -/
def upgradeVerdictStatus (verdict : UpgradeVerdict) : RaStatus :=
  if verdict.compatible then .pass else .fail

/-- `verification_status`. -/
def verificationStatus : Option Bool → RaStatus
  | some true => .pass
  | some false => .fail
  | none => .review

/-- `health_status`. -/
def healthStatus (health : String) : RaStatus :=
  if health = "healthy" then .pass
  else if health = "at_risk" then .review
  else if health = "critical" then .fail
  else .error

/-- `contract_not_found_status`. -/
def contractNotFoundStatus (e : String) : RaStatus :=
  if contains "Contract not found" e || contains "not found on" e then .fail else .error

/-! ### What the checks read -/

/-- `WasmMetadata`, as far as a release reads it. -/
structure WasmMetadata where
  hash : String
  sizeBytes : ℕ
  version : UInt16
  deriving DecidableEq

/-- What crates make of WASM, of Rust source and of numbers. -/
structure ReleaseCrates where
  sha256 : List UInt8 → Vector UInt8 32
  /-- The version of a module whose sections can all be read. -/
  parseModule : List UInt8 → Except String UInt16
  parseContractSpec : List UInt8 → Except String ContractSpec
  /-- `syn::parse_file`, and the scans of the functions of the file. -/
  scan : String → Option (List FnScan)
  json : SerdeJson
  displayF64 : Float → String

/-- `ReplayStatus`. -/
inductive ReplayStatus
  | notReplayed
  | reproduced (reasonCode : String)
  | mismatch (reasonCode : String)
  | error (reason : String)
  deriving DecidableEq

/-- `FindingEvidence`. -/
structure FindingEvidence where
  caseId : String
  function : String
  reasonCode : String
  artifactHash : String
  minimized : Bool
  deriving DecidableEq

/-- `CampaignEvidence`. -/
structure CampaignEvidence where
  campaignCompleted : Bool
  config : Fuzz.CampaignConfig
  caseCount : ℕ
  passed : ℕ
  expectedErrors : ℕ
  findings : List FindingEvidence
  minimizedFindings : ℕ
  artifactsAvailable : Bool
  replay : List (String × ReplayStatus)
  deterministic : Bool
  deriving DecidableEq

/-- The files of a release, with the texts of I/O errors. -/
structure ReleaseFiles where
  read : String → Except String (List UInt8)
  readToString : String → Except String String
  /-- What a path leads to. -/
  node : String → Option DirNode
  /-- Opening a file of evidence, and reading it as JSON. -/
  evidence : String → Except String (Except String CampaignEvidence)

/-- The errors of `inspect_contract`, with the texts of the other ones. -/
inductive InspectError
  | contractNotFound
  | other (text : String)
  deriving DecidableEq

/-- The text of an error of `inspect_contract`. -/
def InspectError.display : InspectError → String
  | contractNotFound => "Contract not found on the network"
  | other text => text

/-- `TtlInfoSummary`. -/
structure TtlInfoSummary where
  minimumTtl : UInt32
  maximumTtl : UInt32
  averageTtl : UInt32
  expiringEntriesCount : ℕ
  estimatedRentCost : Option UInt64
  deriving DecidableEq

/-- `StorageReport`, as far as the health of a contract reads it. -/
structure StorageReport where
  totalEntries : ℕ
  instanceEntries : ℕ
  persistentEntries : ℕ
  temporaryEntries : ℕ
  otherEntries : ℕ
  ttlSummary : Option TtlInfoSummary
  deriving DecidableEq

/-- What the network answers about a contract while a release is checked. The hash of the deployed
code is asked for by three of the checks. -/
structure ChainAnswers where
  upgradeHash : Except InspectError String
  wasmBytecode : String → Except String (List UInt8)
  verificationHash : Except InspectError String
  healthHash : Except InspectError String
  storage : Except String StorageReport

/-- The arguments of `sdkt release-assurance`, and the warning days of the configuration. -/
structure ReleaseArgs where
  wasmPath : String
  previousWasmPath : Option String
  auditPaths : List String
  disable : List String
  contractId : Option String
  network : String
  fuzzEvidence : Option String
  maxSizeBytes : Option UInt64
  maxGrowthPct : Option Float
  ttlWarningDays : UInt32

section

variable (crates : ReleaseCrates) (reg : RuleRegistry) (files : ReleaseFiles)
  (chain : ChainAnswers) (args : ReleaseArgs) (candidate : List UInt8)

/-! ### The candidate -/

/-- The SHA-256 of WASM, in base 16. -/
def wasmSha256 (wasm : List UInt8) : String := Hex.encode (crates.sha256 wasm).toList

/-- `parse_metadata`. -/
def parseMetadata (wasm : List UInt8) : Except String WasmMetadata :=
  if wasm.isEmpty then .error "Empty WASM bytes"
  else (crates.parseModule wasm).map fun version =>
    { hash := wasmSha256 crates wasm, sizeBytes := wasm.length, version }

/-- `ArtifactResult`. -/
structure ArtifactResult where
  check : RaCheck
  metadata : Option WasmMetadata
  deriving DecidableEq

/-- The first section. -/
def artifactResult : ArtifactResult :=
  match parseMetadata crates candidate with
  | .ok metadata =>
    { check := ⟨.pass, "valid WASM v" ++ toString metadata.version ++ " (" ++
        toString metadata.sizeBytes ++ " bytes, sha256 " ++ metadata.hash ++ ")"⟩
      metadata := some metadata }
  | .error e => ⟨⟨.fail, args.wasmPath ++ " is not valid WASM: " ++ e⟩, none⟩

/-! ### Its sources -/

/-- `SecurityResult`. -/
structure SecurityResult where
  check : RaCheck
  audit : Option AuditReport
  deriving DecidableEq

/-- `audit_source_with`. The registry has the built-in rules after the first source, and keeps
them. -/
def auditSourceWith (source : String) : Option AuditReport :=
  (crates.scan source).map fun scans =>
    (runRegistered crates.json reg scans ⟨none⟩ args.disable .default).2

/-- The sources under the paths of an audit. -/
def discoverSources : List String → Except String (List String)
  | [] => .ok []
  | input :: inputs =>
    match collectRustSources input (files.node input) with
    | .ok found => (discoverSources inputs).map (found ++ ·)
    | .error e => .error ("Failed to discover Rust sources \x27" ++ input ++ "\x27: " ++ e)

/-- The findings about a source file. -/
def auditFile (path : String) : List Finding :=
  match files.readToString path with
  | .error e => [⟨"AUDIT-IO", .critical, "Failed to read source: " ++ e, some path, none⟩]
  | .ok source =>
    match auditSourceWith crates reg args source with
    | some report => report.findings
    | none => [⟨"AUDIT-PARSE", .critical, "Failed to parse Rust source", some path, none⟩]

/-- The report on all source files: their findings are added one by one. -/
def auditFiles (paths : List String) : AuditReport :=
  paths.foldl (fun report path => report.addAll (auditFile crates reg files args path)) .default

/-- `run_release_security`. -/
def runReleaseSecurity : SecurityResult :=
  if args.auditPaths.isEmpty then
    ⟨⟨.skipped, "no --audit supplied; static security audit not executed"⟩, none⟩
  else
    match discoverSources files args.auditPaths with
    | .error e => ⟨⟨.error, e⟩, none⟩
    | .ok found =>
      let paths := sortDedup found
      if paths.isEmpty then
        ⟨⟨.error, "No Rust source files (.rs) found in the supplied --audit paths"⟩, none⟩
      else
        let aggregate := auditFiles crates reg files args paths
        { check := ⟨auditStatus aggregate.summary,
            toString aggregate.summary.critical ++ " critical, " ++
            toString aggregate.summary.warning ++ " warning, " ++
            toString aggregate.summary.info ++ " info findings across " ++
            toString paths.length ++ " file(s)"⟩
          audit := some aggregate }

/-! ### The upgrade -/

/-- `UpgradeResult`. -/
structure UpgradeResult where
  check : RaCheck
  baseline : String
  verdict : Option UpgradeVerdict
  deriving DecidableEq

/-- `summarize`. -/
def summarize (wasm : List UInt8) : Except String WasmSummary :=
  (parseMetadata crates wasm).map fun metadata => ⟨metadata.hash, metadata.sizeBytes⟩

/-- `diff_wasm`. -/
def diffWasm (old new : List UInt8) : Except String SpecDiff := do
  let oldSpec ← crates.parseContractSpec old
  let newSpec ← crates.parseContractSpec new
  let oldSummary ← summarize crates old
  let newSummary ← summarize crates new
  pure (specDiff oldSpec newSpec oldSummary newSummary)

/-- The numbers of changes in a verdict. -/
def changeCounts (verdict : UpgradeVerdict) : String :=
  toString verdict.breakingChanges.length ++ " breaking, " ++
    toString verdict.nonBreakingChanges.length ++ " non-breaking"

/-- The upgrade section for a verdict, with the words about deployed code that its detail has. -/
def verdictResult (live baseline : String) (verdict : UpgradeVerdict) : UpgradeResult where
  check := ⟨upgradeVerdictStatus verdict,
    if verdict.compatible then "compatible" ++ live ++ " (" ++ changeCounts verdict ++ ")"
    else "INCOMPATIBLE" ++ live ++ " (" ++ toString verdict.breakingChanges.length ++
      " breaking changes)"⟩
  baseline := baseline
  verdict := some verdict

/-- The error of `inspect_contract` where the network is named. -/
def inspectErrorText (contractId : String) : InspectError → String
  | .contractNotFound => "contract " ++ contractId ++ " not found on " ++ args.network
  | .other text => text

/-- `upgrade_assurance_against_deployed`. -/
def upgradeAssuranceAgainstDeployed (contractId : String) :
    Except String (SpecDiff × UpgradeVerdict × String) := do
  let _ ← (parseMetadata crates candidate).mapError fun e => "candidate is not valid WASM: " ++ e
  let wasmHash ← chain.upgradeHash.mapError (inspectErrorText args contractId)
  let deployed ← (chain.wasmBytecode wasmHash).mapError fun e =>
    "could not fetch on-chain WASM for " ++ contractId ++ ": " ++ e
  let diff ← (diffWasm crates deployed candidate).mapError fun e =>
    "failed to diff contracts: " ++ e
  pure (diff, UpgradeVerdict.fromDiff diff, wasmHash)

/-- `run_release_upgrade_safety`. -/
def runReleaseUpgradeSafety (artifact : ArtifactResult) : UpgradeResult :=
  if artifact.check.status ≠ .pass then
    ⟨⟨.skipped, "candidate WASM artifact is invalid; upgrade-safety skipped"⟩, "none", none⟩
  else
    match args.previousWasmPath, args.contractId with
    | some path, _ =>
      let baseline := "previous WASM " ++ path
      match files.read path with
      | .ok previous =>
        match diffWasm crates previous candidate with
        | .ok diff => verdictResult "" baseline (UpgradeVerdict.fromDiff diff)
        | .error e => ⟨⟨.error, "failed to diff baseline WASM: " ++ e⟩, baseline, none⟩
      | .error e =>
        ⟨⟨.error, "Failed to read previous WASM " ++ path ++ ": " ++ e⟩, baseline, none⟩
    | none, some contractId =>
      let baseline := "live contract " ++ contractId
      match upgradeAssuranceAgainstDeployed crates chain args candidate contractId with
      | .ok (_, verdict, wasmHash) => verdictResult (" vs live " ++ wasmHash) baseline verdict
      | .error e => ⟨⟨contractNotFoundStatus e, e⟩, baseline, none⟩
    | none, none =>
      ⟨⟨.skipped, "no --previous-wasm and no --contract; upgrade-safety needs a baseline " ++
        "(off-line diff vs on-chain)"⟩, "none", none⟩

/-! ### The deployed contract -/

/-- `VerificationReport`. -/
structure VerificationReport where
  contractId : String
  network : String
  onChainWasmHash : String
  localWasmHash : Option String
  localWasmSizeBytes : Option ℕ
  matched : Option Bool
  verificationStatus : String
  explanation : String
  deriving DecidableEq

/-- `VerifyResult`. -/
structure VerifyResult where
  check : RaCheck
  report : Option VerificationReport
  deriving DecidableEq

/-- `HealthStorage`. -/
structure HealthStorage where
  totalEntries : ℕ
  instanceEntries : ℕ
  persistentEntries : ℕ
  temporaryEntries : ℕ
  otherEntries : ℕ
  ttl : Option TtlInfoSummary
  deriving DecidableEq

/-- `ContractHealthReport`. -/
structure ContractHealthReport where
  contractId : String
  network : String
  health : String
  verified : Option Bool
  onChainWasmHash : String
  localWasmHash : Option String
  localWasmSizeBytes : Option ℕ
  storage : HealthStorage
  reasons : List String
  deriving DecidableEq

/-- `HealthResult`. -/
structure HealthResult where
  check : RaCheck
  report : Option ContractHealthReport
  deriving DecidableEq

/-- `verification_outcome`. -/
def verificationOutcome (onChainHash : String) : Option (String × ℕ) → Option Bool × String × String
  | some (localHash, _) =>
    if localHash = onChainHash then (some true, "Verified", "")
    else (some false, "Mismatch",
      "The deployed bytecode does NOT match the local file.\nOn-chain : " ++ onChainHash ++
      "\nLocal    : " ++ localHash ++
      "\nRebuild and redeploy, or confirm you are comparing the correct artifact.")
  | none => (none, "OnChainOnly", "No local WASM provided; reporting on-chain hash only.")

/-- The hash and the size of the local WASM, if there is one. -/
def localHash : Option (List UInt8) → Except String (Option (String × ℕ))
  | none => .ok none
  | some wasm => (parseMetadata crates wasm).map fun metadata =>
    some (metadata.hash, metadata.sizeBytes)

/-- `verify_contract`. -/
def verifyContract (contractId : String) (localWasm : Option (List UInt8)) :
    Except String VerificationReport := do
  let hashed ← localHash crates localWasm
  let onChainWasmHash ← chain.verificationHash.mapError InspectError.display
  let (matched, verificationStatus, explanation) := verificationOutcome onChainWasmHash hashed
  pure { contractId, network := args.network, onChainWasmHash, localWasmHash := hashed.map Prod.fst,
         localWasmSizeBytes := hashed.map Prod.snd, matched, verificationStatus, explanation }

/-- `derive_verdict`. -/
def deriveVerdict (verified : Option Bool) (expiringSoon totalEntries : ℕ)
    (expiringSoonLedgers : UInt32) : String × List String :=
  if verified = some false then
    ("critical", ["On-chain WASM does NOT match the supplied local file. Rebuild and redeploy, " ++
      "or confirm you are comparing the correct artifact."])
  else
    let warningDays := (expiringSoonLedgers.toNat * 5 + 86399) / 86400
    let reasons :=
      (if 0 < expiringSoon then
        [toString expiringSoon ++ " storage entr" ++
          (if expiringSoon = 1 then "y is" else "ies are") ++ " expiring soon (within ~" ++
          toString warningDays ++ " day" ++ (if warningDays = 1 then "" else "s") ++ ")."]
      else []) ++
      if totalEntries = 0 then
        ["Contract has no storage entries (unusual for a live contract)."]
      else []
    if reasons.isEmpty then ("healthy", reasons) else ("at_risk", reasons)

/-- `u32::saturating_mul`. -/
def saturatingMul (a b : UInt32) : UInt32 :=
  if a.toNat * b.toNat < UInt32.size then a * b else .ofNat (UInt32.size - 1)

/-- `contract_health`. -/
def contractHealth (contractId : String) (localWasm : Option (List UInt8)) :
    Except String ContractHealthReport := do
  let hashed ← localHash crates localWasm
  let onChainWasmHash ← chain.healthHash.mapError (inspectErrorText args contractId)
  let storage ← chain.storage
  let verified := hashed.bind fun hashed => (verificationOutcome onChainWasmHash (some hashed)).1
  let expiringSoon := (storage.ttlSummary.map TtlInfoSummary.expiringEntriesCount).getD 0
  let (health, reasons) := deriveVerdict verified expiringSoon storage.totalEntries
    (saturatingMul args.ttlWarningDays 17280)
  pure { contractId, network := args.network, health, verified, onChainWasmHash
         localWasmHash := hashed.map Prod.fst, localWasmSizeBytes := hashed.map Prod.snd
         storage := ⟨storage.totalEntries, storage.instanceEntries, storage.persistentEntries,
           storage.temporaryEntries, storage.otherEntries, storage.ttlSummary⟩
         reasons }

/-- An on-chain check: it is skipped without a contract or a valid candidate, and an error has a
status. -/
def onChain {α : Type} (artifact : ArtifactResult) (check : String → Except String α) :
    Except (RaStatus × String) α :=
  match args.contractId with
  | none => .error (.skipped, "--contract not supplied; on-chain check skipped")
  | some contractId =>
    if artifact.check.status ≠ .pass then
      .error (.skipped, "candidate WASM artifact is invalid; on-chain check skipped")
    else (check contractId).mapError fun e => (contractNotFoundStatus e, e)

/-- The fourth section. -/
def verificationResult (artifact : ArtifactResult) : VerifyResult :=
  match onChain args artifact fun contractId =>
      verifyContract crates chain args contractId (some candidate) with
  | .ok report =>
    { check := ⟨verificationStatus report.matched,
        if report.explanation.isEmpty then report.verificationStatus else report.explanation⟩
      report := some report }
  | .error (status, message) => ⟨⟨status, message⟩, none⟩

/-- The fifth section. -/
def healthResult (artifact : ArtifactResult) : HealthResult :=
  match onChain args artifact fun contractId =>
      contractHealth crates chain args contractId (some candidate) with
  | .ok report =>
    { check := ⟨healthStatus report.health,
        if report.reasons.isEmpty then "health: " ++ report.health
        else " ".intercalate report.reasons⟩
      report := some report }
  | .error (status, message) => ⟨⟨status, message⟩, none⟩

/-! ### The evidence -/

/-- `FuzzEvidenceResult`. -/
structure FuzzEvidenceResult where
  check : RaCheck
  evidence : CampaignEvidence
  deriving DecidableEq

/-- The status of evidence. -/
def evidenceStatus (evidence : CampaignEvidence) : RaStatus :=
  if !evidence.campaignCompleted then .error
  else if !evidence.findings.isEmpty then .fail
  else .pass

/-- `read_fuzz_evidence`. The status is that of the section. -/
def readFuzzEvidence : Except String (Option FuzzEvidenceResult) :=
  match args.fuzzEvidence with
  | none => .ok none
  | some path =>
    match files.evidence path with
    | .error e => .error ("Failed to read fuzz evidence " ++ path ++ ": " ++ e)
    | .ok (.error e) => .error ("Failed to parse fuzz evidence " ++ path ++ ": " ++ e)
    | .ok (.ok evidence) =>
      .ok (some
        { check := ⟨evidenceStatus evidence,
            "fuzz campaign: cases=" ++ toString evidence.caseCount ++
            " findings=" ++ toString evidence.findings.length ++
            " minimized=" ++ toString evidence.minimizedFindings ++
            " artifacts=" ++ toString evidence.artifactsAvailable ++
            " replayed=" ++ toString evidence.replay.length ++
            " deterministic=" ++ toString evidence.deterministic⟩
          evidence })

/-! ### The size -/

/-- `size_delta_pct`, on floating-point numbers. -/
def sizeDeltaPctF64 (oldBytes newBytes : ℕ) : Option Float :=
  if oldBytes = 0 then
    if newBytes = 0 then some 0.0 else none
  else
    let pct := (Float.ofNat newBytes - Float.ofNat oldBytes) * 100.0 / Float.ofNat oldBytes
    some ((pct * 10.0).round / 10.0)

/-- `format_growth_pct`. -/
def formatGrowthPct : Option Float → String
  | some p => crates.displayF64 p ++ "%"
  | none => "undefined (zero-byte baseline)"

/-- `evaluate_size_policy`: the violated rules. -/
def evaluateSizePolicy (oldBytes : Option ℕ) (newBytes : ℕ) (maxSizeBytes : Option UInt64)
    (maxGrowthPct : Option Float) : List String :=
  (match maxSizeBytes with
    | some max =>
      if max.toNat < newBytes then
        ["artifact size " ++ toString newBytes ++ " bytes exceeds --max-size-bytes " ++
          toString max.toNat]
      else []
    | none => []) ++
  match maxGrowthPct with
    | some maxPct =>
      match oldBytes with
      | none =>
        ["--max-growth-pct requires a previous artifact (--previous-wasm) to measure growth"]
      | some old =>
        match sizeDeltaPctF64 old newBytes with
        | some pct =>
          if maxPct < pct then
            ["size growth " ++ formatGrowthPct crates (some pct) ++ " exceeds --max-growth-pct " ++
              crates.displayF64 maxPct]
          else []
        | none =>
          ["size growth is " ++ formatGrowthPct crates none ++
            " — cannot be compared against --max-growth-pct " ++ crates.displayF64 maxPct]
    | none => []

/-! ### What a passed section says -/

/-- A source was read and parsed, and all that was found about it is information. -/
def AuditedClean (path : String) : Prop :=
  ∃ source report, files.readToString path = .ok source ∧
    auditSourceWith crates reg args source = some report ∧ ∀ f ∈ report.findings, f.severity = .info

/-- There are sources to audit, and each is clean. -/
def SourcesClean : Prop :=
  ∃ found, discoverSources files args.auditPaths = .ok found ∧ found ≠ [] ∧
    ∀ path ∈ sortDedup found, AuditedClean crates reg files args path

/-- The code that the candidate is compared with: the previous one, or else the deployed one. -/
def IsBaseline (baseline : List UInt8) : Prop :=
  match args.previousWasmPath with
  | some path => files.read path = .ok baseline
  | none => args.contractId ≠ none ∧
    ∃ hash, chain.upgradeHash = .ok hash ∧ chain.wasmBytecode hash = .ok baseline

/-- The candidate is a compatible upgrade of its baseline. -/
def CompatibleUpgrade : Prop :=
  ∃ baseline diff, IsBaseline files chain args baseline ∧
    diffWasm crates baseline candidate = .ok diff ∧
    (UpgradeVerdict.fromDiff diff).compatible = true

/-- The deployed code is the candidate, by its hash. -/
def DeployedIsCandidate : Prop :=
  args.contractId ≠ none ∧ chain.verificationHash = .ok (wasmSha256 crates candidate)

/-- The deployed contract is healthy. -/
def ContractHealthy : Prop :=
  ∃ contractId report, args.contractId = some contractId ∧
    contractHealth crates chain args contractId (some candidate) = .ok report ∧
    report.health = "healthy"

/-- The campaign was completed, and found nothing. -/
def CleanEvidence (evidence : CampaignEvidence) : Prop :=
  evidence.campaignCompleted = true ∧ evidence.findings = []

/-- The rules on the size: at most so many bytes, and at most so much growth from a known size. -/
structure SizeRulesHold (oldBytes : Option ℕ) (newBytes : ℕ) : Prop where
  size : ∀ max ∈ args.maxSizeBytes, newBytes ≤ max.toNat
  growth : ∀ maxPct ∈ args.maxGrowthPct, ∃ old ∈ oldBytes, ∃ pct ∈ sizeDeltaPctF64 old newBytes,
    ¬ maxPct < pct

variable {crates reg files chain args candidate}

theorem wasmSha256_of_parseMetadata {metadata : WasmMetadata}
    (h : parseMetadata crates candidate = .ok metadata) :
    metadata.hash = wasmSha256 crates candidate ∧ metadata.sizeBytes = candidate.length := by
  rw [parseMetadata] at h
  split at h
  · cases h
  · obtain ⟨version, -, rfl⟩ := Except.map_eq_ok_iff.mp h
    exact ⟨rfl, rfl⟩

theorem artifactResult_pass_iff :
    (artifactResult crates args candidate).check.status = .pass ↔
      ∃ metadata, parseMetadata crates candidate = .ok metadata := by
  rw [artifactResult]
  cases parseMetadata crates candidate with
  | ok metadata => simp
  | error e => simp

theorem metadata_artifactResult {metadata : WasmMetadata}
    (h : parseMetadata crates candidate = .ok metadata) :
    (artifactResult crates args candidate).metadata = some metadata := by
  rw [artifactResult, h]

/-! ### The audit -/

theorem auditStatus_pass_iff {report : AuditReport} (h : report.Consistent) :
    auditStatus report.summary = .pass ↔ ∀ f ∈ report.findings, f.severity = .info := by
  have hcritical : 0 < report.summary.critical ↔ _ := h.count_pos_iff .critical
  have hwarning : 0 < report.summary.warning ↔ _ := h.count_pos_iff .warning
  rw [auditStatus]
  constructor
  · intro hstatus f hf
    split_ifs at hstatus with hc hw
    cases hseverity : f.severity with
    | critical => exact absurd (hcritical.mpr ⟨f, hf, hseverity⟩) hc
    | warning => exact absurd (hwarning.mpr ⟨f, hf, hseverity⟩) hw
    | info => rfl
  · intro hinfo
    have hnone {severity : Severity} (hne : severity ≠ .info) :
        ¬ ∃ f ∈ report.findings, f.severity = severity := by
      rintro ⟨f, hf, rfl⟩
      exact hne (hinfo f hf)
    rw [if_neg fun hc => hnone (by decide) (hcritical.mp hc),
      if_neg fun hw => hnone (by decide) (hwarning.mp hw)]

/-- The report on all source files counts its findings, and they are those about each file. -/
theorem auditFiles_spec (paths : List String) :
    (auditFiles crates reg files args paths).Consistent ∧
      (auditFiles crates reg files args paths).findings =
        paths.flatMap (auditFile crates reg files args) := by
  have hfold (report : AuditReport) (hreport : report.Consistent) (paths : List String) :
      (paths.foldl (fun report path => report.addAll (auditFile crates reg files args path))
        report).Consistent ∧
      (paths.foldl (fun report path => report.addAll (auditFile crates reg files args path))
        report).findings = report.findings ++ paths.flatMap (auditFile crates reg files args) := by
    induction paths generalizing report with
    | nil => exact ⟨hreport, (List.append_nil _).symm⟩
    | cons path paths ih =>
      obtain ⟨hconsistent, hfindings⟩ := ih _ (AuditReport.addAll_consistent hreport
        (auditFile crates reg files args path))
      refine ⟨hconsistent, hfindings.trans ?_⟩
      rw [AuditReport.findings_addAll, List.flatMap_cons, List.append_assoc]
  exact hfold .default AuditReport.default_consistent paths

theorem auditFile_info_iff {path : String} :
    (∀ f ∈ auditFile crates reg files args path, f.severity = .info) ↔
      AuditedClean crates reg files args path := by
  rw [AuditedClean, auditFile]
  cases files.readToString path with
  | error e => simp
  | ok source =>
    cases haudit : auditSourceWith crates reg args source with
    | none => simp [haudit]
    | some report => simp [haudit]

/-- **The audit passes if each source that is found is clean.** -/
theorem runReleaseSecurity_pass_iff :
    (runReleaseSecurity crates reg files args).check.status = .pass ↔
      SourcesClean crates reg files args := by
  rw [runReleaseSecurity, SourcesClean]
  cases hpaths : args.auditPaths with
  | nil => simp [discoverSources]
  | cons input inputs =>
    rw [if_neg (by simp)]
    cases hfound : discoverSources files (input :: inputs) with
    | error e => simp
    | ok found =>
      by_cases hnil : found = []
      · subst hnil
        simp [sortDedup, sortPaths]
      · have hkept : sortDedup found ≠ [] := by
          obtain ⟨path, hpath⟩ := List.exists_mem_of_ne_nil _ hnil
          obtain ⟨kept, hmem, -⟩ := exists_mem_sortDedup hpath
          exact List.ne_nil_of_mem hmem
        obtain ⟨hconsistent, hfindings⟩ := @auditFiles_spec crates reg files args
          (sortDedup found)
        simp only [List.isEmpty_iff, if_neg hkept, Except.ok.injEq, exists_eq_left', ne_eq, hnil,
          not_false_eq_true, true_and]
        rw [auditStatus_pass_iff hconsistent, hfindings]
        simp only [List.forall_mem_flatMap, auditFile_info_iff]

/-! ### The upgrade and the deployed contract -/

theorem upgradeVerdictStatus_pass_iff {verdict : UpgradeVerdict} :
    upgradeVerdictStatus verdict = .pass ↔ verdict.compatible = true := by
  rw [upgradeVerdictStatus]
  cases verdict.compatible <;> simp

theorem contractNotFoundStatus_ne_pass (e : String) : contractNotFoundStatus e ≠ .pass := by
  rw [contractNotFoundStatus]
  split <;> decide

/-- The deployed code is the baseline of an upgrade, whose verdict is that on the difference. -/
theorem upgradeAssuranceAgainstDeployed_eq_ok {contractId wasmHash : String} {diff : SpecDiff}
    {verdict : UpgradeVerdict}
    (h : upgradeAssuranceAgainstDeployed crates chain args candidate contractId =
      .ok (diff, verdict, wasmHash)) :
    ∃ deployed, chain.upgradeHash = .ok wasmHash ∧ chain.wasmBytecode wasmHash = .ok deployed ∧
      diffWasm crates deployed candidate = .ok diff ∧ verdict = UpgradeVerdict.fromDiff diff := by
  obtain ⟨_, -, h⟩ := Except.bind_eq_ok_iff.mp h
  obtain ⟨hash, hhash, h⟩ := Except.bind_eq_ok_iff.mp h
  obtain ⟨deployed, hdeployed, h⟩ := Except.bind_eq_ok_iff.mp h
  obtain ⟨diff, hdiff, h⟩ := Except.bind_eq_ok_iff.mp h
  cases h
  exact ⟨deployed, Except.mapError_eq_ok_iff.mp hhash, Except.mapError_eq_ok_iff.mp hdeployed,
    Except.mapError_eq_ok_iff.mp hdiff, rfl⟩

theorem upgradeAssuranceAgainstDeployed_of {contractId wasmHash : String} {deployed : List UInt8}
    {diff : SpecDiff} {metadata : WasmMetadata}
    (hmetadata : parseMetadata crates candidate = .ok metadata)
    (hhash : chain.upgradeHash = .ok wasmHash)
      (hdeployed : chain.wasmBytecode wasmHash = .ok deployed)
    (hdiff : diffWasm crates deployed candidate = .ok diff) :
    upgradeAssuranceAgainstDeployed crates chain args candidate contractId =
      .ok (diff, UpgradeVerdict.fromDiff diff, wasmHash) := by
  rw [upgradeAssuranceAgainstDeployed, hmetadata, hhash]
  change ((chain.wasmBytecode wasmHash).mapError _ >>= _) = _
  rw [hdeployed]
  change ((diffWasm crates deployed candidate).mapError _ >>= _) = _
  rw [hdiff]
  rfl

/-- **The upgrade passes if the candidate is a compatible upgrade of its baseline.** -/
theorem runReleaseUpgradeSafety_pass_iff {metadata : WasmMetadata}
    (hmetadata : parseMetadata crates candidate = .ok metadata) :
    (runReleaseUpgradeSafety crates files chain args candidate
        (artifactResult crates args candidate)).check.status = .pass ↔
      CompatibleUpgrade crates files chain args candidate := by
  rw [runReleaseUpgradeSafety, if_neg (not_not.mpr (artifactResult_pass_iff.mpr ⟨_, hmetadata⟩)),
    CompatibleUpgrade]
  simp only [IsBaseline]
  cases args.previousWasmPath with
  | some path =>
    cases hread : files.read path with
    | error e => simp [hread]
    | ok previous =>
      cases hdiff : diffWasm crates previous candidate with
      | error e => simp [hread, hdiff]
      | ok diff => simp [hread, hdiff, verdictResult, upgradeVerdictStatus_pass_iff]
  | none =>
    cases args.contractId with
    | none => simp
    | some contractId =>
      cases hassured : upgradeAssuranceAgainstDeployed crates chain args candidate contractId with
      | error e =>
        refine iff_of_false (by simpa [hassured] using contractNotFoundStatus_ne_pass e) ?_
        rintro ⟨deployed, diff, ⟨-, wasmHash, hhash, hdeployed⟩, hdiff, -⟩
        rw [upgradeAssuranceAgainstDeployed_of hmetadata hhash hdeployed hdiff] at hassured
        cases hassured
      | ok assured =>
        obtain ⟨diff, verdict, wasmHash⟩ := assured
        obtain ⟨deployed, hhash, hdeployed, hdiff, rfl⟩ :=
          upgradeAssuranceAgainstDeployed_eq_ok hassured
        simp only [hassured, verdictResult, upgradeVerdictStatus_pass_iff]
        constructor
        · intro hcompatible
          exact ⟨deployed, diff, ⟨by simp, wasmHash, hhash, hdeployed⟩, hdiff, hcompatible⟩
        · rintro ⟨deployed', diff', ⟨-, wasmHash', hhash', hdeployed'⟩, hdiff', hcompatible⟩
          cases hhash.symm.trans hhash'
          cases hdeployed.symm.trans hdeployed'
          cases hdiff.symm.trans hdiff'
          exact hcompatible

theorem localHash_of {metadata : WasmMetadata}
    (hmetadata : parseMetadata crates candidate = .ok metadata) :
    localHash crates (some candidate) =
      .ok (some (wasmSha256 crates candidate, candidate.length)) := by
  obtain ⟨hhash, hsize⟩ := wasmSha256_of_parseMetadata hmetadata
  rw [localHash, hmetadata, ← hhash, ← hsize]
  rfl

theorem onChain_of {α : Type} {metadata : WasmMetadata}
    (hmetadata : parseMetadata crates candidate = .ok metadata) {contractId : String}
    (hcontract : args.contractId = some contractId) (check : String → Except String α) :
    onChain args (artifactResult crates args candidate) check =
      (check contractId).mapError fun e => (contractNotFoundStatus e, e) := by
  rw [onChain, hcontract]
  exact if_neg (not_not.mpr (artifactResult_pass_iff.mpr ⟨_, hmetadata⟩))

/-- **The verification passes if the deployed code is the candidate.** -/
theorem verificationResult_pass_iff {metadata : WasmMetadata}
    (hmetadata : parseMetadata crates candidate = .ok metadata) :
    (verificationResult crates chain args candidate
        (artifactResult crates args candidate)).check.status = .pass ↔
      DeployedIsCandidate crates chain args candidate := by
  rw [verificationResult, DeployedIsCandidate]
  cases hcontract : args.contractId with
  | none => simp [onChain, hcontract]
  | some contractId =>
    rw [onChain_of hmetadata hcontract, verifyContract, localHash_of hmetadata]
    cases hhash : chain.verificationHash with
    | error e =>
      simpa [Except.mapError_ok, Except.mapError_error, bind,
        Except.bind] using contractNotFoundStatus_ne_pass _
    | ok hash =>
      by_cases heq : wasmSha256 crates candidate = hash
      · simp [Except.mapError_ok, bind, Except.bind, pure, Except.pure, verificationOutcome, heq,
          verificationStatus]
      · simp [Except.mapError_ok, bind, Except.bind, pure, Except.pure, verificationOutcome, heq,
          verificationStatus, Ne.symm heq]

theorem healthStatus_pass_iff {health : String} : healthStatus health = .pass ↔
    health = "healthy" := by
  rw [healthStatus]
  split_ifs with h <;> simp [h]

/-- **The health check passes if the deployed contract is healthy.** -/
theorem healthResult_pass_iff {metadata : WasmMetadata}
    (hmetadata : parseMetadata crates candidate = .ok metadata) :
    (healthResult crates chain args candidate
        (artifactResult crates args candidate)).check.status = .pass ↔
      ContractHealthy crates chain args candidate := by
  rw [healthResult, ContractHealthy]
  cases hcontract : args.contractId with
  | none => simp [onChain, hcontract]
  | some contractId =>
    rw [onChain_of hmetadata hcontract]
    cases hhealth : contractHealth crates chain args contractId (some candidate) with
    | error e =>
      simpa [Except.mapError_ok, Except.mapError_error,
        hhealth] using contractNotFoundStatus_ne_pass e
    | ok report => simp [Except.mapError_ok, hhealth, healthStatus_pass_iff]

/-! ### The evidence and the size -/

theorem evidenceStatus_pass_iff {evidence : CampaignEvidence} :
    evidenceStatus evidence = .pass ↔ CleanEvidence evidence := by
  rw [evidenceStatus, CleanEvidence]
  cases evidence.campaignCompleted <;> cases evidence.findings <;> simp

/-- No rule is violated if the rules on the size hold. -/
theorem evaluateSizePolicy_eq_nil_iff {oldBytes : Option ℕ} {newBytes : ℕ} :
    evaluateSizePolicy crates oldBytes newBytes args.maxSizeBytes args.maxGrowthPct = [] ↔
      SizeRulesHold args oldBytes newBytes := by
  have hsize : (match args.maxSizeBytes with
      | some max =>
        if max.toNat < newBytes then
          ["artifact size " ++ toString newBytes ++ " bytes exceeds --max-size-bytes " ++
            toString max.toNat]
        else []
      | none => []) = [] ↔ ∀ max ∈ args.maxSizeBytes, newBytes ≤ max.toNat := by
    cases args.maxSizeBytes with
    | none => simp
    | some max => simp
  rw [evaluateSizePolicy.eq_def, List.append_eq_nil_iff, hsize]
  refine Iff.trans (and_congr_right fun _ => ?_) ⟨fun h => ⟨h.1, h.2⟩, fun h => ⟨h.size, h.growth⟩⟩
  cases args.maxGrowthPct with
  | none => simp
  | some maxPct =>
    cases oldBytes with
    | none => simp
    | some old =>
      cases hpct : sizeDeltaPctF64 old newBytes with
      | none => simp [hpct]
      | some pct =>
        by_cases hlt : maxPct < pct
        · simp [hpct, hlt]
        · simp [hpct, hlt]

end

end SorobanDevkit.Cli
