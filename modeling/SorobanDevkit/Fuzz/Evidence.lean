import Mathlib.Data.List.Nodup
import SorobanDevkit.Fuzz.ArtifactText
import SorobanDevkit.Fuzz.Replay
import SorobanDevkit.Library.LastWrite

/-!
# The evidence of a campaign

What a campaign hands to the assurance of a release (`sdkt-fuzz/src/evidence.rs`): its counts, its
findings with the hashes of their artifacts, and the status of every replay that was recorded.

## Main results

* `artifactHash_fromResult` — a finding has the hash of its own artifact.
* `allReproduced_iff` — what is found to be reproduced.
* `faithfulEvidence_iff` — when the evidence is faithful.
-/

namespace SorobanDevkit.Fuzz

open LastWrite (lastOf)
open Xdr.TypedJson (Number)

/-- `ReplayStatus`. -/
inductive ReplayStatus
  | notReplayed
  | reproduced (reasonCode : String)
  | mismatch (reasonCode : String)
  | error (reason : String)
  deriving DecidableEq

/-- The status is `Reproduced`. -/
def ReplayStatus.isReproduced : ReplayStatus → Bool
  | .reproduced _ => true
  | _ => false

/-- `FindingEvidence`. -/
structure FindingEvidence where
  caseId : String
  function : String
  reasonCode : String
  artifactHash : String
  minimized : Bool
  deriving DecidableEq

/-- `CampaignEvidence`. -/
structure CampaignEvidence where
  campaignCompleted : Bool
  config : CampaignConfig
  caseCount : ℕ
  passed : ℕ
  expectedErrors : ℕ
  findings : List FindingEvidence
  minimizedFindings : ℕ
  artifactsAvailable : Bool
  replay : Std.ExtTreeMap String ReplayStatus
  deterministic : Bool

/-- `minimized_findings`. -/
def CampaignResult.minimizedFindings (result : CampaignResult) : List Finding :=
  result.findings.filter (·.minimization.attempted)

/-- The status of an outcome. -/
def ReplayOutcome.status : ReplayOutcome → ReplayStatus
  | .reproduced reasonCode _ _ => .reproduced reasonCode.name
  | .mismatch expected _ _ _ => .mismatch expected.name

/-- `record_replay`. -/
def recordReplay (map : Std.ExtTreeMap String ReplayStatus) (artifactHash : String)
    (outcome : ReplayOutcome) : Std.ExtTreeMap String ReplayStatus :=
  map.insert artifactHash outcome.status

section

variable {Float : Type} (json : SerdeJson Float) (sha256 : List UInt8 → Xdr.Bytes32)

/-- The hashes of artifacts by their case. -/
def hashesByCase (artifacts : List FindingArtifact) : Std.ExtTreeMap String String :=
  artifacts.foldl (fun byCase a => byCase.insert a.caseId (a.canonicalHash json sha256)) ∅

namespace CampaignEvidence

/-- `from_result`. -/
def fromResult (result : CampaignResult) (config : CampaignConfig)
    (artifacts : List FindingArtifact) (replay : Std.ExtTreeMap String ReplayStatus)
    (deterministic : Bool) : CampaignEvidence where
  campaignCompleted := true
  config
  caseCount := result.executed
  passed := result.passed.length
  expectedErrors := result.expectedErrors.length
  findings := result.findings.map fun f => {
    caseId := f.identity.caseId
    function := f.identity.function
    reasonCode := f.reasonCode.name
    artifactHash := ((hashesByCase json sha256 artifacts)[f.identity.caseId]?).getD ""
    minimized := f.minimization.attempted && f.minimization.preserved }
  minimizedFindings := result.minimizedFindings.length
  artifactsAvailable := !artifacts.isEmpty
  replay
  deterministic

/-- `all_reproduced`. -/
def allReproduced (evidence : CampaignEvidence) : Bool :=
  !evidence.replay.isEmpty && evidence.replay.toList.all (·.2.isReproduced)

end CampaignEvidence

/-- Artifacts that were replayed, with the outcomes, in the order of the replays. -/
abbrev Replays := List (FindingArtifact × ReplayOutcome)

/-- The map of recorded replays. -/
def replayMap (replays : Replays) : Std.ExtTreeMap String ReplayStatus :=
  replays.foldl (fun map r => recordReplay map (r.1.canonicalHash json sha256) r.2) ∅

/-- The artifact was replayed, and its last replay reproduced the finding. -/
def Reproduced (replays : Replays) (artifact : FindingArtifact) : Prop :=
  ∃ r, lastOf replays (·.1 = artifact) = some r ∧ r.2.isReproduced = true

/-- The evidence tells what happened: each finding, with its own artifact, has the hash of that
artifact; every case is counted, and every finding that is marked as minimized; and all is
reproduced exactly if there is a finding and every artifact of a finding was. -/
structure FaithfulEvidence (artifacts : List FindingArtifact) (replays : Replays)
    (evidence : CampaignEvidence) : Prop where
  artifactHash : List.Forall₂ (fun finding artifact => finding.caseId = artifact.caseId ∧
    finding.artifactHash = artifact.canonicalHash json sha256) evidence.findings artifacts
  caseCount : evidence.caseCount =
    evidence.passed + evidence.expectedErrors + evidence.findings.length
  minimizedFindings : evidence.minimizedFindings = (evidence.findings.filter (·.minimized)).length
  allReproduced : evidence.allReproduced = true ↔
    evidence.findings ≠ [] ∧ ∀ artifact ∈ artifacts, Reproduced replays artifact

end

/-! ### The cases of a run -/

/-- Cases have different ids. -/
theorem caseIdOf_inj {m n : ℕ} (h : caseIdOf m = caseIdOf n) : m = n := by
  have hread (n : ℕ) : Nat.ofDigitChars 10 ((caseIdOf n).toList.drop 4) 0 = n := by
    have htext : (caseIdOf n).toList.drop 4 =
        List.replicate (4 - (toString n).length) '0' ++ Nat.toDigits 10 n := by
      simp only [caseIdOf, String.toList_append, String.toList_ofList]
      exact congrArg _ Nat.toList_repr
    rw [htext, Nat.ofDigitChars_append, Nat.ofDigitChars_replicate_zero, Nat.mul_zero,
      Nat.ofDigitChars_toDigits (by decide) (by decide)]
  rw [← hread m, h, hread]

section

variable {crates : Crates} {host : Host} {input : CampaignInput}

theorem planCase_caseId {functions : List String} {caseNumber : ℕ} {case : CampaignCase}
    (h : planCase crates input functions caseNumber = .ok case) :
    case.caseId = caseIdOf caseNumber := by
  obtain ⟨baseCall, -, h⟩ := Except.bind_eq_ok_iff.mp h
  by_cases hsequence : input.isSequence caseNumber = true
  · rw [if_pos hsequence] at h
    obtain ⟨steps, -, h⟩ := Except.bind_eq_ok_iff.mp h
    cases h
    rfl
  · rw [if_neg hsequence] at h
    obtain ⟨⟨args, mutation⟩, -, h⟩ := Except.bind_eq_ok_iff.mp h
    cases h
    rfl

/-- The planned cases of a campaign have different ids. -/
theorem nodup_plannedCases {cases : List CampaignCase}
    (h : plannedCases crates input = .ok cases) : (cases.map (·.caseId)).Nodup := by
  have hwasm := wasm_ne_nil_of_plannedCases h
  obtain ⟨config, -, h⟩ := Except.bind_eq_ok_iff.mp h
  rw [if_neg hwasm] at h
  by_cases hfunctions : input.selectable.1 = []
  · rw [if_pos hfunctions] at h
    cases h
    exact List.nodup_nil
  · rw [if_neg hfunctions] at h
    have hids : cases.map (·.caseId) = (List.range input.cases).map caseIdOf := by
      refine List.forall₂_eq_eq_eq ▸ ?_
      rw [List.forall₂_map_left_iff, List.forall₂_map_right_iff]
      refine (Except.forall₂_of_mapM_eq_ok h).flip.imp fun case caseNumber hplanned => ?_
      obtain ⟨case', hcase, hplanned⟩ := Except.bind_eq_ok_iff.mp hplanned
      obtain ⟨auth, -, hplanned⟩ := Except.bind_eq_ok_iff.mp hplanned
      cases hplanned
      exact planCase_caseId hcase
    rw [hids]
    exact List.pairwise_map.mpr (List.nodup_range.imp fun hne heq => hne (caseIdOf_inj heq))

/-- A finding and its artifact are of their case, and record the same minimization. -/
theorem of_executeCase {executor : Executor} {expectations : Expectations} {case : CampaignCase}
    (hkind : case.kind ≠ .single ↔ 1 < case.steps.length) {finding : Finding}
    {artifact : FindingArtifact}
    (h : executeCase crates host input expectations executor case =
      .ok (.finding finding artifact)) :
    finding.identity.caseId = case.caseId ∧ artifact.caseId = case.caseId ∧
      artifact.minimization = finding.minimization := by
  obtain ⟨auth, observation, reason, -, -, -, hreport⟩ := executeCase_finding hkind h
  obtain ⟨outcome, minimizedAuth, minimized, -, -, -, -, -, -, hcaseId, -, rfl⟩ :=
    reportFinding_spec hreport
  exact ⟨hcaseId, hcaseId, rfl⟩

/-- The outcomes of a run, with the ids of their cases. -/
structure Outcomes (outcomes : List (String × CaseOutcome)) : Prop where
  nodup : (outcomes.map Prod.fst).Nodup
  caseId : ∀ o ∈ outcomes, ∀ finding artifact, o.2 = .finding finding artifact →
    finding.identity.caseId = o.1 ∧ artifact.caseId = o.1

/-- A run has the findings and the artifacts of its outcomes. -/
theorem exists_outcomes {expectations : Expectations} {result : CampaignResult}
    {artifacts : List FindingArtifact}
    (h : runCampaignArtifacts crates host input expectations = .ok (result, artifacts)) :
    ∃ skipped outcomes, Outcomes outcomes ∧ result = .of skipped outcomes ∧
      artifacts = outcomes.filterMap (·.2.artifact?) := by
  obtain ⟨config, cases, outcomes, -, hplanned, -, houtcomes, hresult, hartifacts⟩ :=
    runCampaignInner_eq_ok_iff.mp h
  refine ⟨_, outcomes, ⟨?_, fun o ho finding artifact hfinding => ?_⟩, hresult, hartifacts⟩
  · have hids : outcomes.map Prod.fst = cases.map (·.caseId) := by
      refine List.forall₂_eq_eq_eq ▸ ?_
      rw [List.forall₂_map_left_iff, List.forall₂_map_right_iff]
      refine (Except.forall₂_of_mapM_eq_ok houtcomes).flip.imp fun o case hexecuted => ?_
      obtain ⟨outcome, -, rfl⟩ := Except.map_eq_ok_iff.mp hexecuted
      rfl
    rw [hids]
    exact nodup_plannedCases hplanned
  · obtain ⟨case, hcase, hexecuted⟩ := Except.mem_of_mapM_eq_ok houtcomes o ho
    obtain ⟨outcome, houtcome, rfl⟩ := Except.map_eq_ok_iff.mp hexecuted
    obtain rfl : outcome = .finding finding artifact := hfinding
    obtain ⟨hfinding, hartifact, -⟩ :=
      of_executeCase (plannedCases_steps hplanned hcase).2 houtcome
    exact ⟨hfinding, hartifact⟩

/-- Every case is counted once. -/
theorem executed_of (skipped : List SkippedFunction) (outcomes : List (String × CaseOutcome)) :
    (CampaignResult.of skipped outcomes).executed =
      (CampaignResult.of skipped outcomes).passed.length +
        (CampaignResult.of skipped outcomes).expectedErrors.length +
        (CampaignResult.of skipped outcomes).findings.length := by
  simp only [CampaignResult.of, List.length_map]
  induction outcomes with
  | nil => rfl
  | cons o outcomes ih =>
    obtain ⟨id, o⟩ := o
    cases o <;> simp [CaseOutcome.isPass, CaseOutcome.isExpectedError, CaseOutcome.finding?, ih] <;>
      omega

/-- Findings and artifacts are in pairs, whose ids are among those of the cases, in their order. -/
theorem Outcomes.pairs {outcomes : List (String × CaseOutcome)} (h : Outcomes outcomes) :
    List.Forall₂ (fun finding artifact => finding.identity.caseId = artifact.caseId)
        (outcomes.filterMap (·.2.finding?)) (outcomes.filterMap (·.2.artifact?)) ∧
      ((outcomes.filterMap (·.2.artifact?)).map (·.caseId)).Nodup := by
  suffices hsublist : List.Forall₂ (fun finding artifact =>
      finding.identity.caseId = artifact.caseId)
        (outcomes.filterMap (·.2.finding?)) (outcomes.filterMap (·.2.artifact?)) ∧
      List.Sublist ((outcomes.filterMap (·.2.artifact?)).map (·.caseId)) (outcomes.map Prod.fst) by
    exact ⟨hsublist.1, h.nodup.sublist hsublist.2⟩
  obtain ⟨-, hcaseId⟩ := h
  induction outcomes with
  | nil => exact ⟨.nil, .slnil⟩
  | cons o outcomes ih =>
    obtain ⟨hhead, htail⟩ := List.forall_mem_cons.mp hcaseId
    obtain ⟨hpairs, hids⟩ := ih htail
    obtain ⟨id, outcome⟩ := o
    cases outcome with
    | pass => exact ⟨hpairs, hids.cons id⟩
    | expectedError => exact ⟨hpairs, hids.cons id⟩
    | finding finding artifact =>
      obtain ⟨hfinding, hartifact⟩ := hhead finding artifact rfl
      refine ⟨.cons (hfinding.trans hartifact.symm) hpairs, ?_⟩
      obtain rfl : artifact.caseId = id := hartifact
      exact hids.cons_cons _

/-- **The findings of a run and their artifacts**: the artifacts are those of the findings, in their
order, and are of different cases. -/
theorem pairs_of_run {expectations : Expectations} {result : CampaignResult}
    {artifacts : List FindingArtifact}
    (h : runCampaignArtifacts crates host input expectations = .ok (result, artifacts)) :
    List.Forall₂ (fun finding artifact => finding.identity.caseId = artifact.caseId)
        result.findings artifacts ∧
      (artifacts.map (·.caseId)).Nodup ∧
      result.executed =
        result.passed.length + result.expectedErrors.length + result.findings.length := by
  obtain ⟨skipped, outcomes, houtcomes, rfl, rfl⟩ := exists_outcomes h
  exact ⟨houtcomes.pairs.1, houtcomes.pairs.2, executed_of skipped outcomes⟩

end

/-! ### Hashes -/

section

variable {Float : Type} {json : SerdeJson Float} {sha256 : List UInt8 → Xdr.Bytes32}
  {artifacts : List FindingArtifact} {replays : Replays}

/-- The id of the case of an artifact, read from its JSON value. -/
def caseIdField : RecordCodec (Number Float) String String :=
  RecordCodec.start id |>.field "case_id" (FieldCodec.required JsonCodec.string) id

theorem caseIdField_canonicalize (artifact : FindingArtifact) :
    (caseIdField : RecordCodec (Number Float) String String).readValue
      (canonicalize (toValue artifactJson artifact)) = some artifact.caseId := by
  rw [← caseIdField.readValue_stable (reordered_canonicalize artifactJson artifact)]
  obtain ⟨_, _, _, _, _, _, mutation, _, _, _, _⟩ := artifact
  cases mutation <;> rfl

/-- Artifacts of different cases have different canonical bytes. -/
theorem caseId_eq_of_canonicalBytes (hjson : json.Lossless) {a b : FindingArtifact}
    (h : a.canonicalBytes json = b.canonicalBytes json) : a.caseId = b.caseId := by
  have hsorted (artifact : FindingArtifact) : json.parse (artifact.canonicalBytes json) =
      .ok (canonicalize (toValue artifactJson artifact)) := by
    rw [FindingArtifact.canonicalBytes]
    exact hjson _ (JsonValue.sortedKeys_rebuild sortMembers_perm _)
  have hvalue : (.ok (canonicalize (toValue artifactJson a)) :
      Except String (JsonValue (Number Float))) =
      .ok (canonicalize (toValue artifactJson b)) := by
    rw [← hsorted a, h, hsorted b]
  have hread : (caseIdField : RecordCodec (Number Float) String String).readValue
      (canonicalize (toValue artifactJson a)) = some a.caseId := caseIdField_canonicalize a
  rw [Except.ok.inj hvalue, caseIdField_canonicalize b] at hread
  exact (Option.some.inj hread).symm

/-- SHA-256 has no collision among the texts of artifacts. -/
def CollisionFree (json : SerdeJson Float) (sha256 : List UInt8 → Xdr.Bytes32)
    (artifacts : List FindingArtifact) : Prop :=
  ∀ a ∈ artifacts, ∀ b ∈ artifacts,
    sha256 (a.canonicalBytes json) = sha256 (b.canonicalBytes json) →
      a.canonicalBytes json = b.canonicalBytes json

/-- The canonical hash tells the artifacts of different cases apart. -/
theorem eq_of_canonicalHash (hjson : json.Lossless) (hsha : CollisionFree json sha256 artifacts)
    (hids : (artifacts.map (·.caseId)).Nodup) {a b : FindingArtifact} (ha : a ∈ artifacts)
    (hb : b ∈ artifacts) (h : a.canonicalHash json sha256 = b.canonicalHash json sha256) :
    a = b := by
  have hdigest : bytesOf (sha256 (a.canonicalBytes json)) =
      bytesOf (sha256 (b.canonicalBytes json)) := by
    have hdecode := congrArg Hex.decode h
    rw [FindingArtifact.canonicalHash, FindingArtifact.canonicalHash, Hex.decode_encode,
      Hex.decode_encode] at hdecode
    exact Option.some.inj hdecode
  have hbytes := hsha a ha b hb (Vector.toList_inj.mp hdigest)
  exact List.inj_on_of_nodup_map hids ha hb (caseId_eq_of_canonicalBytes hjson hbytes)

/-- The hash that is found for a case is that of its artifact. -/
theorem getElem?_hashesByCase (hids : (artifacts.map (·.caseId)).Nodup) {a : FindingArtifact}
    (ha : a ∈ artifacts) :
    (hashesByCase json sha256 artifacts)[a.caseId]? = some (a.canonicalHash json sha256) := by
  have hlookup := LastWrite.getElem?_foldl_insert (·.caseId) (·.canonicalHash json sha256)
    artifacts ∅ a.caseId
  obtain ⟨b, hlast⟩ := LastWrite.exists_lastOf (p := fun b => b.caseId = a.caseId) ha rfl
  obtain ⟨hb, hid⟩ := LastWrite.lastOf_eq_some hlast
  rw [List.inj_on_of_nodup_map hids hb ha hid] at hlast
  rw [hashesByCase, hlookup, hlast]
  rfl

variable (json sha256) in
/-- **A finding has the hash of its own artifact.** -/
theorem artifactHash_fromResult {result : CampaignResult}
    (hpairs : List.Forall₂ (fun finding artifact => finding.identity.caseId = artifact.caseId)
      result.findings artifacts) (hids : (artifacts.map (·.caseId)).Nodup)
    (config : CampaignConfig) (replay : Std.ExtTreeMap String ReplayStatus)
    (deterministic : Bool) :
    List.Forall₂ (fun finding artifact => finding.caseId = artifact.caseId ∧
        finding.artifactHash = artifact.canonicalHash json sha256)
      (CampaignEvidence.fromResult json sha256 result config artifacts replay
        deterministic).findings artifacts := by
  have hmem := ((List.forall₂_and_left artifacts result.findings).mpr
    ⟨fun artifact hartifact => hartifact, hpairs.flip⟩).flip
  rw [CampaignEvidence.fromResult, List.forall₂_map_left_iff]
  refine hmem.imp fun finding artifact h => ⟨h.2, ?_⟩
  dsimp only
  rw [h.2, getElem?_hashesByCase hids h.1, Option.getD_some]

/-! ### Replays -/

theorem isReproduced_status (outcome : ReplayOutcome) :
    outcome.status.isReproduced = outcome.isReproduced := by
  cases outcome <;> rfl

variable (json sha256) in
/-- The status of a hash is that of the last replay under it. -/
theorem getElem?_replayMap (replays : Replays) (hash : String) :
    (replayMap json sha256 replays)[hash]? =
      (lastOf replays fun r => r.1.canonicalHash json sha256 = hash).map (·.2.status) := by
  have hlookup := LastWrite.getElem?_foldl_insert (fun r => r.1.canonicalHash json sha256)
    (fun r : FindingArtifact × ReplayOutcome => r.2.status) replays ∅ hash
  rw [Std.ExtTreeMap.getElem?_empty, Option.or_none] at hlookup
  exact hlookup

/-- **What is found to be reproduced**: something was replayed, and the last replay of no artifact
was a mismatch. -/
theorem allReproduced_iff (hjson : json.Lossless) (hsha : CollisionFree json sha256 artifacts)
    (hids : (artifacts.map (·.caseId)).Nodup) (hreplays : ∀ r ∈ replays, r.1 ∈ artifacts)
    {evidence : CampaignEvidence} (hreplay : evidence.replay = replayMap json sha256 replays) :
    evidence.allReproduced = true ↔ replays ≠ [] ∧
      ∀ artifact ∈ artifacts, ∀ r, lastOf replays (·.1 = artifact) = some r →
        r.2.isReproduced = true := by
  have hlast : ∀ artifact ∈ artifacts, (lastOf replays fun r =>
      r.1.canonicalHash json sha256 = artifact.canonicalHash json sha256) =
        lastOf replays (·.1 = artifact) := by
    intro artifact hartifact
    refine LastWrite.lastOf_congr fun r hr => ⟨fun h => ?_, fun h => by rw [h]⟩
    exact eq_of_canonicalHash hjson hsha hids (hreplays r hr) hartifact h
  rw [CampaignEvidence.allReproduced, hreplay, Bool.and_eq_true, Bool.not_eq_true',
    ← Std.ExtTreeMap.isEmpty_toList, List.isEmpty_eq_false_iff, List.all_eq_true]
  constructor
  · rintro ⟨hne, hall⟩
    refine ⟨fun hnil => hne (by rw [hnil]; rfl), fun artifact hartifact r hr => ?_⟩
    rw [← hlast artifact hartifact] at hr
    have hstatus := getElem?_replayMap json sha256 replays
      (artifact.canonicalHash json sha256)
    rw [hr, Option.map_some] at hstatus
    rw [← isReproduced_status]
    exact hall _ (Std.ExtTreeMap.mem_toList_iff_getElem?_eq_some.mpr hstatus)
  · rintro ⟨hne, hall⟩
    constructor
    · obtain ⟨r, hr⟩ := List.exists_mem_of_ne_nil replays hne
      obtain ⟨r', hr'⟩ := LastWrite.exists_lastOf
        (p := fun r' => r'.1.canonicalHash json sha256 = r.1.canonicalHash json sha256) hr rfl
      have hstatus := getElem?_replayMap json sha256 replays
        (r.1.canonicalHash json sha256)
      rw [hr', Option.map_some] at hstatus
      exact List.ne_nil_of_mem (Std.ExtTreeMap.mem_toList_iff_getElem?_eq_some.mpr hstatus)
    · rintro ⟨hash, status⟩ hmem
      have hstatus := Std.ExtTreeMap.mem_toList_iff_getElem?_eq_some.mp hmem
      rw [getElem?_replayMap, Option.map_eq_some_iff] at hstatus
      obtain ⟨r, hr, rfl⟩ := hstatus
      obtain ⟨hr', rfl⟩ := LastWrite.lastOf_eq_some hr
      rw [hlast _ (hreplays r hr')] at hr
      rw [isReproduced_status]
      exact hall _ (hreplays r hr') r hr

/-- An artifact was reproduced if it was replayed, and its last replay was no mismatch. -/
theorem reproduced_iff {artifact : FindingArtifact} : Reproduced replays artifact ↔
    (∃ r ∈ replays, r.1 = artifact) ∧
      ∀ r, lastOf replays (·.1 = artifact) = some r → r.2.isReproduced = true := by
  constructor
  · rintro ⟨r, hr, hreproduced⟩
    obtain ⟨hmem, hartifact⟩ := LastWrite.lastOf_eq_some hr
    refine ⟨⟨r, hmem, hartifact⟩, fun r' hr' => ?_⟩
    rw [hr] at hr'
    cases hr'
    exact hreproduced
  · rintro ⟨⟨r, hr, hartifact⟩, hall⟩
    obtain ⟨r', hr'⟩ := LastWrite.exists_lastOf (p := (·.1 = artifact)) hr hartifact
    exact ⟨r', hr', hall r' hr'⟩

/-! ### Evidence that is faithful -/

/-- As many findings are minimized as are marked if none that was to be minimized was lost. -/
theorem length_minimizedFindings_iff {result : CampaignResult} (config : CampaignConfig)
    (artifacts : List FindingArtifact) (replay : Std.ExtTreeMap String ReplayStatus)
    (deterministic : Bool) :
    result.minimizedFindings.length =
        ((CampaignEvidence.fromResult json sha256 result config artifacts replay
          deterministic).findings.filter (·.minimized)).length ↔
      ∀ finding ∈ result.findings, finding.minimization.attempted = true →
        finding.minimization.preserved = true := by
  have hmarked : ((CampaignEvidence.fromResult json sha256 result config artifacts replay
      deterministic).findings.filter (·.minimized)).length =
        (result.minimizedFindings.filter (·.minimization.preserved)).length := by
    rw [CampaignEvidence.fromResult, CampaignResult.minimizedFindings, List.filter_filter,
      List.filter_map, List.length_map]
    refine congrArg List.length (List.filter_congr fun finding _ => ?_)
    exact Bool.and_comm _ _
  rw [hmarked, eq_comm, List.filter_sublist.length_eq, List.filter_eq_self,
    CampaignResult.minimizedFindings]
  simp only [List.mem_filter, and_imp]

/-- Nothing was replayed, or the last replay of an artifact was a mismatch, or every artifact was
replayed. -/
def ReplaysCover (artifacts : List FindingArtifact) (replays : Replays) : Prop :=
  replays = [] ∨
    (∃ artifact ∈ artifacts, ∃ r, lastOf replays (·.1 = artifact) = some r ∧
      r.2.isReproduced = false) ∨
    ∀ artifact ∈ artifacts, ∃ r ∈ replays, r.1 = artifact

/-- What is found to be reproduced is, exactly if the replays cover the artifacts. -/
theorem allReproduced_faithful_iff (hjson : json.Lossless)
    (hsha : CollisionFree json sha256 artifacts) (hids : (artifacts.map (·.caseId)).Nodup)
    (hreplays : ∀ r ∈ replays, r.1 ∈ artifacts) {evidence : CampaignEvidence}
    (hreplay : evidence.replay = replayMap json sha256 replays)
    (hfindings : evidence.findings = [] ↔ artifacts = []) :
    (evidence.allReproduced = true ↔
      evidence.findings ≠ [] ∧ ∀ artifact ∈ artifacts, Reproduced replays artifact) ↔
      ReplaysCover artifacts replays := by
  have hsome (hne : replays ≠ []) : artifacts ≠ [] := by
    obtain ⟨r, hr⟩ := List.exists_mem_of_ne_nil replays hne
    exact List.ne_nil_of_mem (hreplays r hr)
  have hreplayed (hne : artifacts ≠ [])
      (hcover : ∀ artifact ∈ artifacts, ∃ r ∈ replays, r.1 = artifact) : replays ≠ [] := by
    obtain ⟨artifact, hartifact⟩ := List.exists_mem_of_ne_nil artifacts hne
    obtain ⟨r, hr, -⟩ := hcover artifact hartifact
    exact List.ne_nil_of_mem hr
  have hmismatch : (∃ artifact ∈ artifacts, ∃ r, lastOf replays (·.1 = artifact) = some r ∧
      r.2.isReproduced = false) ↔ ¬ ∀ artifact ∈ artifacts, ∀ r,
        lastOf replays (·.1 = artifact) = some r → r.2.isReproduced = true := by
    simp only [not_forall, exists_prop, Bool.not_eq_true]
  simp only [allReproduced_iff hjson hsha hids hreplays hreplay, reproduced_iff, forall_and, ne_eq,
    hfindings, ReplaysCover, hmismatch]
  tauto

/-- **When the evidence of a campaign is faithful**: exactly if every finding that was minimized was
kept, and the replays cover the artifacts. -/
theorem faithfulEvidence_iff {crates : Crates} {host : Host} {input : CampaignInput}
    {expectations : Expectations} {result : CampaignResult} (hjson : json.Lossless)
    (hrun : runCampaignArtifacts crates host input expectations = .ok (result, artifacts))
    (hsha : CollisionFree json crates.sha256 artifacts)
    (hreplays : ∀ r ∈ replays, r.1 ∈ artifacts) (config : CampaignConfig) (deterministic : Bool) :
    FaithfulEvidence json crates.sha256 artifacts replays
        (.fromResult json crates.sha256 result config artifacts
          (replayMap json crates.sha256 replays) deterministic) ↔
      (∀ finding ∈ result.findings, finding.minimization.attempted = true →
        finding.minimization.preserved = true) ∧ ReplaysCover artifacts replays := by
  obtain ⟨hpairs, hids, hcount⟩ := pairs_of_run hrun
  have hhashes := artifactHash_fromResult json crates.sha256 hpairs hids config
    (replayMap json crates.sha256 replays) deterministic
  have hfindings : (CampaignEvidence.fromResult json crates.sha256 result config artifacts
      (replayMap json crates.sha256 replays) deterministic).findings = [] ↔ artifacts = [] := by
    rw [← List.length_eq_zero_iff, ← List.length_eq_zero_iff, hhashes.length_eq]
  rw [← allReproduced_faithful_iff hjson hsha hids hreplays rfl hfindings,
    ← length_minimizedFindings_iff config artifacts (replayMap json crates.sha256 replays)
      deterministic]
  constructor
  · intro h
    exact ⟨h.minimizedFindings, h.allReproduced⟩
  · rintro ⟨hminimized, hreproduced⟩
    refine ⟨hhashes, ?_, hminimized, hreproduced⟩
    rw [CampaignEvidence.fromResult, List.length_map]
    exact hcount

end

section Ping

/-- The hashes of canonical texts. -/
def textDigests : Digests where
  observation _ := ""
  artifact := FindingArtifact.canonicalHash textJson codecCrates.sha256

/-- A campaign of as many cases, each a sequence of two calls. -/
def pingCases (cases : ℕ) : CampaignInput := { pingCampaign .noAuth with cases }

/-- Each case of it is a finding on one host, which is kept and replayed. -/
theorem exists_replay_of_pingCase {n : ℕ} {cases : List CampaignCase}
    (hplanned : plannedCases codecCrates (pingCases n) = .ok cases) {entry : StateEntry}
    (hentry : entry.IsData codecCrates) {case : CampaignCase} (hcase : case ∈ cases)
    (hsteps : case.steps = pingCase.steps) (hfunction : case.function = "ping") :
    ∃ result artifacts artifact outcome,
      runCampaignArtifacts codecCrates (lossyHost entry .default .noAuth pingCase.steps)
        (pingCases n) (successOf "ping") = .ok (result, artifacts) ∧
      artifact ∈ artifacts ∧ artifact.caseId = case.caseId ∧
      replay codecCrates (lossyHost entry .default .noAuth pingCase.steps) textDigests artifact
        (pingCases n).wasm = .ok outcome ∧ outcome.isReproduced = true ∧
      ∀ finding ∈ result.findings, finding.minimization.preserved = true := by
  obtain ⟨config, result, artifacts, finding, artifact, hrun, hfinding, hartifact, hexecuted⟩ :=
    lossyHost_finds codecCrates_documented hplanned hcase hentry
  rw [hsteps, hfunction] at hrun hexecuted
  obtain ⟨hne, hkind⟩ := plannedCases_steps hplanned hcase
  obtain ⟨-, hcaseId, hminimization⟩ := of_executeCase hkind hexecuted
  obtain ⟨context, -, henvironment, hreplay⟩ :=
    replay_of_campaign codecCrates_documented hrun hartifact textDigests
  rw [toEnvironment_of codecCrates (by rintro ⟨profile, coverage, h⟩; cases h)] at henvironment
  obtain ⟨outcome, houtcome, hreproduced⟩ := hreplay henvironment
  refine ⟨result, artifacts, artifact, outcome, hrun, hartifact, hcaseId, houtcome, ?_, ?_⟩
  · rw [hreproduced, hminimization]
    exact preserved_of_posture rfl rfl hne hkind hexecuted
  · exact preserved_of_keepsFindings (fun _ _ => .inl ⟨rfl, rfl⟩)
      (Except.map_eq_ok_iff.mpr ⟨_, hrun, rfl⟩)

/-- The evidence of a campaign with one case is faithful when its finding is replayed. -/
theorem faithfulEvidence_iff_ping : ∃ host expectations result artifacts artifact outcome,
    runCampaignArtifacts codecCrates host (pingCases 1) expectations = .ok (result, artifacts) ∧
      artifact ∈ artifacts ∧
      replay codecCrates host textDigests artifact (pingCases 1).wasm = .ok outcome ∧
      FaithfulEvidence textJson codecCrates.sha256 artifacts [(artifact, outcome)]
        (.fromResult textJson codecCrates.sha256 result ((pingCases 1).artifactConfig codecCrates)
          artifacts (replayMap textJson codecCrates.sha256 [(artifact, outcome)]) true) := by
  have hplanned : plannedCases codecCrates (pingCases 1) =
    .ok [{ pingCase with authMode := .noAuth }] := rfl
  obtain ⟨entry, hentry⟩ := exists_isData codecCrates_documented
  obtain ⟨result, artifacts, artifact, outcome, hrun, hartifact, hcaseId, hreplay, hreproduced,
    hkept⟩ := exists_replay_of_pingCase hplanned hentry List.mem_cons_self rfl rfl
  obtain ⟨-, hids, -⟩ := pairs_of_run hrun
  -- there is one case, so there is one artifact
  have hone : ∀ a ∈ artifacts, a = artifact := by
    intro a ha
    obtain ⟨config, cases, -, hplanned', -, -, hartifacts⟩ := exists_case_of_run hrun
    rw [hplanned] at hplanned'
    cases hplanned'
    obtain ⟨case, hcase, finding, hexecuted⟩ := hartifacts a ha
    obtain rfl := List.mem_singleton.mp hcase
    obtain ⟨-, hid, -⟩ :=
      of_executeCase (plannedCases_steps hplanned List.mem_cons_self).2 hexecuted
    exact List.inj_on_of_nodup_map hids ha hartifact (hid.trans hcaseId.symm)
  refine ⟨_, _, result, artifacts, artifact, outcome, hrun, hartifact, hreplay, ?_⟩
  refine (faithfulEvidence_iff textJson_lossless hrun ?_ ?_ _ _).mpr ⟨fun f hf _ => hkept f hf, ?_⟩
  · intro a ha b hb _
    rw [hone a ha, hone b hb]
  · intro r hr
    obtain rfl := List.mem_singleton.mp hr
    exact hartifact
  · exact .inr (.inr fun a ha => ⟨_, List.mem_cons_self, (hone a ha).symm⟩)

/-- All is found to be reproduced when one finding of two is replayed. -/
theorem partial_replay_is_unfaithful : ∃ host expectations result artifacts artifact outcome,
    runCampaignArtifacts codecCrates host (pingCases 2) expectations = .ok (result, artifacts) ∧
      artifact ∈ artifacts ∧
      replay codecCrates host textDigests artifact (pingCases 2).wasm = .ok outcome ∧
      ¬ FaithfulEvidence textJson codecCrates.sha256 artifacts [(artifact, outcome)]
        (.fromResult textJson codecCrates.sha256 result ((pingCases 2).artifactConfig codecCrates)
          artifacts (replayMap textJson codecCrates.sha256 [(artifact, outcome)]) true) := by
  have hplanned : plannedCases codecCrates (pingCases 2) =
    .ok [{ pingCase with authMode := .noAuth },
      { pingCase with authMode := .noAuth, caseId := "case0001" }] := rfl
  obtain ⟨entry, hentry⟩ := exists_isData codecCrates_documented
  obtain ⟨result, artifacts, artifact, outcome, hrun, hartifact, hcaseId, hreplay, hreproduced,
    -⟩ := exists_replay_of_pingCase hplanned hentry List.mem_cons_self rfl rfl
  obtain ⟨result', artifacts', other, outcome', hrun', hother, hotherId, -⟩ :=
    exists_replay_of_pingCase hplanned hentry (List.mem_cons_of_mem _ List.mem_cons_self) rfl rfl
  rw [hrun] at hrun'
  cases hrun'
  refine ⟨_, _, result, artifacts, artifact, outcome, hrun, hartifact, hreplay, fun h => ?_⟩
  have hsingle : ∀ r ∈ [(artifact, outcome)], r.1 ∈ [artifact] ∧ r.2.isReproduced = true := by
    intro r hr
    obtain rfl := List.mem_singleton.mp hr
    exact ⟨List.mem_cons_self, hreproduced⟩
  have hfree : CollisionFree textJson codecCrates.sha256 [artifact] := by
    intro a ha b hb _
    rw [List.mem_singleton.mp ha, List.mem_singleton.mp hb]
  have hsummary : (CampaignEvidence.fromResult textJson codecCrates.sha256 result
      ((pingCases 2).artifactConfig codecCrates) artifacts
      (replayMap textJson codecCrates.sha256 [(artifact, outcome)]) true).allReproduced = true :=
    (allReproduced_iff textJson_lossless hfree (List.nodup_singleton _)
      (fun r hr => (hsingle r hr).1) rfl).mpr ⟨List.cons_ne_nil _ _, fun _ _ r hr =>
        (hsingle r (LastWrite.lastOf_eq_some hr).1).2⟩
  obtain ⟨r, hr, -⟩ := (h.allReproduced.mp hsummary).2 other hother
  obtain ⟨hmem, hsame⟩ := LastWrite.lastOf_eq_some hr
  rw [List.mem_singleton.mp hmem] at hsame
  have hids : "case0000" = "case0001" := hcaseId.symm.trans ((congrArg _ hsame).trans hotherId)
  exact absurd hids (by decide)

end Ping

end SorobanDevkit.Fuzz
