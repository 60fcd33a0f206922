import SorobanDevkit.Fuzz.Artifact
import SorobanDevkit.Library.IntegerText
import SorobanDevkit.Library.JsonCodec
import SorobanDevkit.Library.JsonText
import SorobanDevkit.Library.Utf8Lossy
import SorobanDevkit.Xdr.TypedJson

/-!
# The canonical text of an artifact

An artifact is written as JSON with sorted keys and no space, and the hash of these bytes is its
identity (`sdkt-fuzz/src/artifact.rs`). A replay starts by parsing it
(`sdkt-fuzz/src/replay.rs`).

Each record is written and read as its `Serialize` and `Deserialize` are derived: fields are
required, have a default, or are left out when there is no value, and enumerations have their
variant under `kind`. How JSON is printed and parsed is a parameter. Counts are `usize`.

## Main results

* `parseArtifact_canonicalJson` — what a canonical text is parsed as.
* `canonicalBytes_inj` — artifacts with the same canonical bytes are equal.
* `canonicalBytes_of_reordered` — the bytes do not depend on the order of keys or on space.
* `artifact_lossless` — what a replay is given back.
-/

namespace SorobanDevkit.Fuzz

open JsonValue (Reordered)
open Utf8Lossy (encode)
open Xdr.TypedJson (Number)

open FieldCodec (required defaulted optional nullable)
open JsonCodec (string bool list tagged)
open RecordCodec (start)

section

variable {Float : Type}

/-! ### Numbers -/

/-- `u64`. -/
def u64Json : JsonCodec (Number Float) UInt64 :=
  .number .posInt Number.asU64 (fun _ => True) fun _ _ => rfl

/-- The number of a `u32`. -/
def ofU32 (n : UInt32) : Number Float := .posInt n.toUInt64

/-- A `u32`, from a number. -/
def asU32 (number : Number Float) : Option UInt32 :=
  number.asU64.bind fun n => if n.toNat < UInt32.size then some n.toUInt32 else none

theorem asU32_ofU32 (n : UInt32) : asU32 (ofU32 n : Number Float) = some n := by
  have hsize : n.toUInt64.toNat < UInt32.size := by
    rw [UInt32.toNat_toUInt64]
    exact n.toNat_lt
  rw [asU32, ofU32, Number.asU64, Option.bind_some, if_pos hsize, UInt32.toUInt32_toUInt64]

/-- `u32`. -/
def u32Json : JsonCodec (Number Float) UInt32 :=
  .number ofU32 asU32 (fun _ => True) fun n _ => asU32_ofU32 n

/-- The number of a count. -/
def ofUsize (n : ℕ) : Number Float := .posInt (UInt64.ofNat n)

/-- A count, from a number. -/
def asUsize (number : Number Float) : Option ℕ := number.asU64.map UInt64.toNat

theorem asUsize_ofUsize (n : ℕ) (h : n < UInt64.size) :
    asUsize (ofUsize n : Number Float) = some n := by
  rw [asUsize, ofUsize, Number.asU64, Option.map_some, UInt64.toNat_ofNat_of_lt' h]

/-- `usize`. -/
def usizeJson : JsonCodec (Number Float) ℕ :=
  .number ofUsize asUsize (· < UInt64.size) asUsize_ofUsize

/-! ### Records -/

/-- The record of a variant without fields. -/
def unitRecord {E : Type} (e : E) : RecordCodec (Number Float) Unit E := start e

/-- The fields of `BudgetPlanSnapshot::Capped`. -/
def cappedRecord : RecordCodec (Number Float) (UInt64 × UInt64) BudgetPlanSnapshot :=
  start .capped
    |>.field "cpu" (required u64Json) (·.1)
    |>.field "mem" (required u64Json) (·.2)

/-- The fields of `BudgetPlanSnapshot::NetworkFaithful`. -/
def networkFaithfulRecord : RecordCodec (Number Float)
    (String × String × UInt32 × UInt32 × String × ℕ × ℕ) BudgetPlanSnapshot :=
  start .networkFaithful
    |>.field "profile_content_hash" (required string) (·.1)
    |>.field "profile_network" (required string) (·.2.1)
    |>.field "profile_protocol" (required u32Json) (·.2.2.1)
    |>.field "profile_ledger" (required u32Json) (·.2.2.2.1)
    |>.field "coverage" (required string) (·.2.2.2.2.1)
    |>.field "covered_cost_types" (required usizeJson) (·.2.2.2.2.2.1)
    |>.field "host_cost_types" (required usizeJson) (·.2.2.2.2.2.2)

/-- The variant of a `BudgetPlanSnapshot`. -/
def budgetPlanVariant : BudgetPlanSnapshot → Variant (Number Float) BudgetPlanSnapshot
  | .default => ⟨"default", _, unitRecord .default, ()⟩
  | .capped cpu mem => ⟨"capped", _, cappedRecord, (cpu, mem)⟩
  | .protocolInitial => ⟨"protocol_initial", _, unitRecord .protocolInitial, ()⟩
  | .networkFaithful contentHash network protocol ledger coverage covered host =>
    ⟨"network_faithful", _, networkFaithfulRecord,
      (contentHash, network, protocol, ledger, coverage, covered, host)⟩

/-- The fields of the variants of `BudgetPlanSnapshot`. -/
def budgetPlanFields (name : String) : Option (Fields (Number Float) BudgetPlanSnapshot) :=
  if name = "default" then some (unitRecord .default).toFields
  else if name = "capped" then some cappedRecord.toFields
  else if name = "protocol_initial" then some (unitRecord .protocolInitial).toFields
  else if name = "network_faithful" then some networkFaithfulRecord.toFields
  else none

theorem budgetPlan_law (plan : BudgetPlanSnapshot) :
    JsonCodec.VariantLaw "kind" budgetPlanVariant (@budgetPlanFields Float) plan := by
  cases plan with
  | default => exact ⟨rfl, rfl, of_decide_eq_true rfl⟩
  | capped cpu mem => exact ⟨rfl, rfl, of_decide_eq_true rfl⟩
  | protocolInitial => exact ⟨rfl, rfl, of_decide_eq_true rfl⟩
  | networkFaithful contentHash network protocol ledger coverage covered host =>
    exact ⟨rfl, rfl, of_decide_eq_true rfl⟩

/-- `BudgetPlanSnapshot`. -/
def budgetPlanJson : JsonCodec (Number Float) BudgetPlanSnapshot :=
  tagged "kind" budgetPlanVariant budgetPlanFields budgetPlan_law

/-- `EventSnapshot`. -/
def eventJson : JsonCodec (Number Float) EventSnapshot :=
  (start EventSnapshot.mk
    |>.field "contract_id" (optional string) (·.contractId)
    |>.field "event_type" (required string) (·.eventType)
    |>.field "topics_xdr" (required (list string)) (·.topicsXdr)
    |>.field "data_xdr" (required string) (·.dataXdr)).toCodec (of_decide_eq_true rfl) fun _ => rfl

/-- `EnvironmentSnapshot`. -/
def environmentJson : JsonCodec (Number Float) EnvironmentSnapshot :=
  (start EnvironmentSnapshot.mk
    |>.field "sequence_number" (required u32Json) (·.sequenceNumber)
    |>.field "timestamp" (required u64Json) (·.timestamp)
    |>.field "budget" (required budgetPlanJson) (·.budget)).toCodec
      (of_decide_eq_true rfl) fun _ => rfl

/-- `EnvironmentSnapshot::default()`. -/
def EnvironmentSnapshot.default : EnvironmentSnapshot where
  sequenceNumber := Environment.default.ledger.sequenceNumber
  timestamp := Environment.default.ledger.timestamp
  budget := .default

/-- `GenerationCapsSnapshot`. -/
def generationCapsJson : JsonCodec (Number Float) GenerationCapsSnapshot :=
  (start GenerationCapsSnapshot.mk
    |>.field "max_depth" (required u32Json) (·.maxDepth)
    |>.field "max_vec_len" (required u64Json) (·.maxVecLen)
    |>.field "max_byte_len" (required u64Json) (·.maxByteLen)
    |>.field "max_map_entries" (required u64Json) (·.maxMapEntries)).toCodec
      (of_decide_eq_true rfl) fun _ => rfl

/-- `CampaignConfig`. -/
def campaignJson : JsonCodec (Number Float) CampaignConfig :=
  (start CampaignConfig.mk
    |>.field "wasm_sha256" (required string) (·.wasmSha256)
    |>.field "seed_hex" (required string) (·.seedHex)
    |>.field "cases" (required usizeJson) (·.cases)
    |>.field "function" (optional string) (·.function)
    |>.field "sequence_length" (defaulted usizeJson 0) (·.sequenceLength)
    |>.field "sequence_every" (defaulted usizeJson 0) (·.sequenceEvery)
    |>.field "mutations_per_case" (defaulted usizeJson 0) (·.mutationsPerCase)
    |>.field "generation" (defaulted generationCapsJson (.of .default)) (·.generation)
    |>.field "environment" (defaulted environmentJson .default) (·.environment)
    |>.field "auth_modes" (defaulted (list string) []) (·.authModes)).toCodec
      (of_decide_eq_true rfl) fun _ => rfl

/-- `MutationSnapshot`. -/
def mutationJson : JsonCodec (Number Float) MutationSnapshot :=
  (start MutationSnapshot.mk
    |>.field "mutation_id" (required string) (·.mutationId)
    |>.field "arg_index" (required usizeJson) (·.argIndex)
    |>.field "operator" (required string) (·.operator)
    |>.field "value_xdr" (required string) (·.valueXdr)
    |>.field "args_xdr" (required (list string)) (·.argsXdr)).toCodec
      (of_decide_eq_true rfl) fun _ => rfl

/-- The fields of `StatusSnapshot::Returned`. -/
def returnedRecord : RecordCodec (Number Float) String StatusSnapshot :=
  start .returned |>.field "value_xdr" (required string) id

/-- The fields of `StatusSnapshot::ContractError`. -/
def contractErrorRecord : RecordCodec (Number Float) (String × UInt32) StatusSnapshot :=
  start .contractError
    |>.field "error_type" (required string) (·.1)
    |>.field "code" (required u32Json) (·.2)

/-- The variant of a `StatusSnapshot`. -/
def statusVariant : StatusSnapshot → Variant (Number Float) StatusSnapshot
  | .returned valueXdr => ⟨"returned", _, returnedRecord, valueXdr⟩
  | .void => ⟨"void", _, unitRecord .void, ()⟩
  | .contractError errorType code => ⟨"contract_error", _, contractErrorRecord, (errorType, code)⟩

/-- The fields of the variants of `StatusSnapshot`. -/
def statusFields (name : String) : Option (Fields (Number Float) StatusSnapshot) :=
  if name = "returned" then some returnedRecord.toFields
  else if name = "void" then some (unitRecord .void).toFields
  else if name = "contract_error" then some contractErrorRecord.toFields
  else none

theorem status_law (status : StatusSnapshot) :
    JsonCodec.VariantLaw "kind" statusVariant (@statusFields Float) status := by
  cases status with
  | returned valueXdr => exact ⟨rfl, rfl, of_decide_eq_true rfl⟩
  | void => exact ⟨rfl, rfl, of_decide_eq_true rfl⟩
  | contractError errorType code => exact ⟨rfl, rfl, of_decide_eq_true rfl⟩

/-- `StatusSnapshot`. -/
def statusJson : JsonCodec (Number Float) StatusSnapshot :=
  tagged "kind" statusVariant statusFields status_law

/-- `StateEntrySnapshot`. -/
def stateEntryJson : JsonCodec (Number Float) StateEntrySnapshot :=
  (start StateEntrySnapshot.mk
    |>.field "key_xdr" (required string) (·.keyXdr)
    |>.field "value_xdr" (optional string) (·.valueXdr)
    |>.field "change" (required string) (·.change)).toCodec (of_decide_eq_true rfl) fun _ => rfl

/-- `BudgetSnapshot`. -/
def budgetJson : JsonCodec (Number Float) BudgetUsage :=
  (start BudgetUsage.mk
    |>.field "consumed_cpu" (required u64Json) (·.consumedCpu)
    |>.field "consumed_mem" (required u64Json) (·.consumedMem)
    |>.field "remaining_cpu" (required u64Json) (·.remainingCpu)
    |>.field "remaining_mem" (required u64Json) (·.remainingMem)).toCodec
      (of_decide_eq_true rfl) fun _ => rfl

/-- `ObservationSnapshot`. -/
def observationJson : JsonCodec (Number Float) ObservationSnapshot :=
  (start ObservationSnapshot.mk
    |>.field "case_id" (required string) (·.caseId)
    |>.field "function" (required string) (·.function)
    |>.field "status" (required statusJson) (·.status)
    |>.field "state" (required (list stateEntryJson)) (·.state)
    |>.field "events" (required (list eventJson)) (·.events)
    |>.field "budget" (required budgetJson) (·.budget)).toCodec (of_decide_eq_true rfl) fun _ => rfl

/-- The fields of `BehaviorSnapshot::Success`. -/
def successRecord : RecordCodec (Number Float) (Option String) BehaviorSnapshot :=
  start .success |>.field "expect_return" (nullable string) id

/-- The fields of `BehaviorSnapshot::Error`. -/
def errorRecord : RecordCodec (Number Float) (String × UInt32) BehaviorSnapshot :=
  start .error
    |>.field "error_type" (required string) (·.1)
    |>.field "code" (required u32Json) (·.2)

/-- The variant of a `BehaviorSnapshot`. -/
def behaviorVariant : BehaviorSnapshot → Variant (Number Float) BehaviorSnapshot
  | .success expectReturn => ⟨"success", _, successRecord, expectReturn⟩
  | .error errorType code => ⟨"error", _, errorRecord, (errorType, code)⟩
  | .any => ⟨"any", _, unitRecord .any, ()⟩

/-- The fields of the variants of `BehaviorSnapshot`. -/
def behaviorFields (name : String) : Option (Fields (Number Float) BehaviorSnapshot) :=
  if name = "success" then some successRecord.toFields
  else if name = "error" then some errorRecord.toFields
  else if name = "any" then some (unitRecord .any).toFields
  else none

theorem behavior_law (behavior : BehaviorSnapshot) :
    JsonCodec.VariantLaw "kind" behaviorVariant (@behaviorFields Float) behavior := by
  cases behavior with
  | success expectReturn => exact ⟨rfl, rfl, of_decide_eq_true rfl⟩
  | error errorType code => exact ⟨rfl, rfl, of_decide_eq_true rfl⟩
  | any => exact ⟨rfl, rfl, of_decide_eq_true rfl⟩

/-- `BehaviorSnapshot`. -/
def behaviorJson : JsonCodec (Number Float) BehaviorSnapshot :=
  tagged "kind" behaviorVariant behaviorFields behavior_law

/-- `StateExpectation`. -/
def stateExpectationJson : JsonCodec (Number Float) StateExpectation :=
  (start StateExpectation.mk
    |>.field "key_xdr" (required string) (·.keyXdr)
    |>.field "value_xdr" (required string) (·.valueXdr)).toCodec
      (of_decide_eq_true rfl) fun _ => rfl

/-- `ExpectedSnapshot`. -/
def expectedJson : JsonCodec (Number Float) ExpectedSnapshot :=
  (start ExpectedSnapshot.mk
    |>.field "behavior" (defaulted behaviorJson .any) (·.behavior)
    |>.field "state" (optional (list stateExpectationJson)) (·.state)
    |>.field "events" (optional (list eventJson)) (·.events)
    |>.field "auth_required" (defaulted bool false) (·.authRequired)
    |>.field "resource_limit_is_finding" (defaulted bool false)
      (·.resourceLimitIsFinding)).toCodec (of_decide_eq_true rfl) fun _ => rfl

/-- `ReductionSnapshot`. -/
def reductionJson : JsonCodec (Number Float) Reduction :=
  (start Reduction.mk
    |>.field "kind" (required string) (·.kind)
    |>.field "detail" (required string) (·.detail)
    |>.field "complexity_after" (required usizeJson) (·.complexityAfter)).toCodec
      (of_decide_eq_true rfl) fun _ => rfl

/-- `MinimizationSnapshot`. -/
def minimizationJson : JsonCodec (Number Float) Minimization :=
  (start Minimization.mk
    |>.field "attempted" (required bool) (·.attempted)
    |>.field "strategy" (required string) (·.strategy)
    |>.field "original_complexity" (required usizeJson) (·.originalComplexity)
    |>.field "minimized_complexity" (required usizeJson) (·.minimizedComplexity)
    |>.field "preserved" (required bool) (·.preserved)
    |>.field "reductions" (required (list reductionJson)) (·.reductions)).toCodec
      (of_decide_eq_true rfl) fun _ => rfl

/-- `SequenceStepSnapshot`. -/
def stepJson : JsonCodec (Number Float) SequenceStepSnapshot :=
  (start SequenceStepSnapshot.mk
    |>.field "function" (required string) (·.function)
    |>.field "args_xdr" (required (list string)) (·.argsXdr)).toCodec
      (of_decide_eq_true rfl) fun _ => rfl

/-- `FindingArtifact`. -/
def artifactJson : JsonCodec (Number Float) FindingArtifact :=
  (start FindingArtifact.mk
    |>.field "schema_version" (required u32Json) (·.schemaVersion)
    |>.field "campaign" (required campaignJson) (·.campaign)
    |>.field "case_id" (required string) (·.caseId)
    |>.field "function" (required string) (·.function)
    |>.field "sequence" (required (list stepJson)) (·.sequence)
    |>.field "auth_mode" (required string) (·.authMode)
    |>.field "mutation" (optional mutationJson) (·.mutation)
    |>.field "expected" (required expectedJson) (·.expected)
    |>.field "observation" (required observationJson) (·.observation)
    |>.field "reason_code" (required string) (·.reasonCode)
    |>.field "minimization" (required minimizationJson) (·.minimization)).toCodec
      (of_decide_eq_true rfl) fun _ => rfl

end

/-! ### Counts -/

/-- The counts of a budget plan are `usize`. -/
def BudgetPlanSnapshot.Sized : BudgetPlanSnapshot → Prop
  | .networkFaithful _ _ _ _ _ covered host => covered < UInt64.size ∧ host < UInt64.size
  | _ => True

/-- The counts of a campaign's configuration are `usize`. -/
structure CampaignConfig.Sized (campaign : CampaignConfig) : Prop where
  cases : campaign.cases < UInt64.size
  sequenceLength : campaign.sequenceLength < UInt64.size
  sequenceEvery : campaign.sequenceEvery < UInt64.size
  mutationsPerCase : campaign.mutationsPerCase < UInt64.size
  budget : campaign.environment.budget.Sized

/-- The counts of a minimization are `usize`. -/
structure Minimization.Sized (minimization : Minimization) : Prop where
  originalComplexity : minimization.originalComplexity < UInt64.size
  minimizedComplexity : minimization.minimizedComplexity < UInt64.size
  complexityAfter : ∀ r ∈ minimization.reductions, r.complexityAfter < UInt64.size

/-- The counts of an artifact are `usize`. -/
structure FindingArtifact.Sized (artifact : FindingArtifact) : Prop where
  campaign : artifact.campaign.Sized
  argIndex : ∀ m ∈ artifact.mutation, m.argIndex < UInt64.size
  minimization : artifact.minimization.Sized

section

variable {Float : Type}

@[simp] theorem valid_u64Json (n : UInt64) : (u64Json : JsonCodec (Number Float) UInt64).Valid n :=
  trivial

@[simp] theorem valid_u32Json (n : UInt32) : (u32Json : JsonCodec (Number Float) UInt32).Valid n :=
  trivial

@[simp] theorem valid_usizeJson_iff {n : ℕ} :
    (usizeJson : JsonCodec (Number Float) ℕ).Valid n ↔ n < UInt64.size := Iff.rfl

theorem valid_budgetPlanJson_iff {plan : BudgetPlanSnapshot} :
    (budgetPlanJson : JsonCodec (Number Float) BudgetPlanSnapshot).Valid plan ↔ plan.Sized := by
  cases plan <;> simp [budgetPlanJson, budgetPlanVariant, cappedRecord, networkFaithfulRecord,
    unitRecord, BudgetPlanSnapshot.Sized]

theorem valid_eventJson (e : EventSnapshot) :
    (eventJson : JsonCodec (Number Float) EventSnapshot).Valid e := by
  simp [eventJson, RecordCodec.toCodec]

theorem valid_statusJson (status : StatusSnapshot) :
    (statusJson : JsonCodec (Number Float) StatusSnapshot).Valid status := by
  cases status <;> simp [statusJson, statusVariant, returnedRecord, contractErrorRecord, unitRecord]

theorem valid_observationJson (o : ObservationSnapshot) :
    (observationJson : JsonCodec (Number Float) ObservationSnapshot).Valid o := by
  simp [observationJson, RecordCodec.toCodec, valid_statusJson, valid_eventJson, stateEntryJson,
    budgetJson]

theorem valid_behaviorJson (behavior : BehaviorSnapshot) :
    (behaviorJson : JsonCodec (Number Float) BehaviorSnapshot).Valid behavior := by
  cases behavior <;> simp [behaviorJson, behaviorVariant, successRecord, errorRecord, unitRecord]

theorem valid_expectedJson (e : ExpectedSnapshot) :
    (expectedJson : JsonCodec (Number Float) ExpectedSnapshot).Valid e := by
  simp [expectedJson, RecordCodec.toCodec, valid_behaviorJson, valid_eventJson,
    stateExpectationJson]

theorem valid_campaignJson {campaign : CampaignConfig} (h : campaign.Sized) :
    (campaignJson : JsonCodec (Number Float) CampaignConfig).Valid campaign := by
  simp [campaignJson, RecordCodec.toCodec, environmentJson, valid_budgetPlanJson_iff,
    generationCapsJson, h.cases, h.sequenceLength, h.sequenceEvery, h.mutationsPerCase, h.budget]

theorem valid_minimizationJson {minimization : Minimization} (h : minimization.Sized) :
    (minimizationJson : JsonCodec (Number Float) Minimization).Valid minimization := by
  simpa [minimizationJson, RecordCodec.toCodec, reductionJson, h.originalComplexity,
    h.minimizedComplexity] using h.complexityAfter

/-- An artifact is one that is read back. -/
theorem FindingArtifact.Sized.valid {artifact : FindingArtifact} (h : artifact.Sized) :
    (artifactJson : JsonCodec (Number Float) FindingArtifact).Valid artifact := by
  have hmutation (m : MutationSnapshot) (hm : artifact.mutation = some m) :
      (mutationJson : JsonCodec (Number Float) MutationSnapshot).Valid m := by
    simpa [mutationJson, RecordCodec.toCodec] using h.argIndex m hm
  simpa [artifactJson, RecordCodec.toCodec, valid_campaignJson h.campaign, stepJson,
    valid_expectedJson, valid_observationJson, valid_minimizationJson h.minimization]
    using hmutation

/-! ### Canonical texts -/

/-- `serde_json`: how values are printed and parsed, and the text of the error for a value that is
no artifact. The members of an object are by increasing keys. -/
structure SerdeJson (Float : Type) where
  toString : JsonValue (Number Float) → String
  parse : List UInt8 → Except String (JsonValue (Number Float))
  mismatch : JsonValue (Number Float) → String

/-- Values are printed and parsed losslessly. -/
def SerdeJson.Lossless (json : SerdeJson Float) : Prop :=
  ∀ v : JsonValue (Number Float), v.SortedKeys → json.parse (encode (json.toString v)) = .ok v

/-- `serde_json::to_value`: the fields of records are inserted into maps. -/
def toValue {α : Type} (codec : JsonCodec (Number Float) α) (a : α) : JsonValue (Number Float) :=
  (codec.write a).rebuild id

/-- The members of an object, sorted by their keys. -/
def sortMembers (members : List (String × JsonValue (Number Float))) :
    List (String × JsonValue (Number Float)) := members.mergeSort fun e e' => e.1 ≤ e'.1

/-- `canonicalize`: the sorted members of every object are inserted into a map. -/
def canonicalize (v : JsonValue (Number Float)) : JsonValue (Number Float) := v.rebuild sortMembers

/-- `ReplayError`, as far as `parse_artifact` raises it. -/
inductive ArtifactError
  | malformed (message : String)
  | unsupportedSchema (found expected : UInt32)
  deriving DecidableEq

variable (json : SerdeJson Float)

namespace FindingArtifact

/-- `canonical_bytes`. -/
def canonicalBytes (artifact : FindingArtifact) : List UInt8 :=
  encode (json.toString (canonicalize (toValue artifactJson artifact)))

/-- `canonical_json`. -/
def canonicalJson (artifact : FindingArtifact) : String :=
  String.ofList (Utf8Lossy.decode (artifact.canonicalBytes json))

/-- `canonical_hash`. -/
def canonicalHash (sha256 : List UInt8 → Xdr.Bytes32) (artifact : FindingArtifact) : String :=
  Hex.encode (bytesOf (sha256 (artifact.canonicalBytes json)))

end FindingArtifact

/-- `serde_json::from_slice`, for an artifact. -/
def artifactFromSlice (bytes : List UInt8) : Except ArtifactError FindingArtifact :=
  match json.parse bytes with
  | .error e => .error (.malformed e)
  | .ok v =>
    match artifactJson.read v with
    | some artifact => .ok artifact
    | none => .error (.malformed (json.mismatch v))

/-- `parse_artifact`. -/
def parseArtifact (bytes : List UInt8) : Except ArtifactError FindingArtifact := do
  let artifact ← artifactFromSlice json bytes
  if artifact.schemaVersion ≠ schemaVersion then
    .error (.unsupportedSchema artifact.schemaVersion schemaVersion)
  else .ok artifact

variable {json}

theorem sortMembers_perm (members : List (String × JsonValue (Number Float))) :
    (sortMembers members).Perm members := List.mergeSort_perm _ _

theorem reordered_toValue {α : Type} (codec : JsonCodec (Number Float) α) (a : α) :
    (codec.write a).Reordered (toValue codec a) :=
  JsonValue.reordered_rebuild (fun members => .refl members) _ (codec.distinct a)

theorem reordered_canonicalize {α : Type} (codec : JsonCodec (Number Float) α) (a : α) :
    (codec.write a).Reordered (canonicalize (toValue codec a)) := by
  have hvalue := reordered_toValue codec a
  exact hvalue.trans
    (JsonValue.reordered_rebuild sortMembers_perm _ (hvalue.distinctKeys (codec.distinct a)))

/-- The canonical value is that of every reordering. -/
theorem canonicalize_of_reordered {α : Type} (codec : JsonCodec (Number Float) α) (a : α)
    {v : JsonValue (Number Float)} (h : (toValue codec a).Reordered v) :
    canonicalize v = canonicalize (toValue codec a) :=
  (Reordered.rebuild_eq sortMembers_perm h
    ((reordered_toValue codec a).distinctKeys (codec.distinct a))).symm

/-- An artifact is read from every text of a value with its members in some order. -/
theorem artifactFromSlice_of_reordered {artifact : FindingArtifact} (hsized : artifact.Sized)
    {bytes : List UInt8} {v : JsonValue (Number Float)} (hparse : json.parse bytes = .ok v)
    (h : (artifactJson.write artifact).Reordered v) :
    artifactFromSlice json bytes = .ok artifact := by
  rw [artifactFromSlice, hparse]
  dsimp only
  rw [artifactJson.read_of_reordered hsized.valid h]

theorem artifactFromSlice_canonicalBytes (hjson : json.Lossless) {artifact : FindingArtifact}
    (hsized : artifact.Sized) :
    artifactFromSlice json (artifact.canonicalBytes json) = .ok artifact :=
  artifactFromSlice_of_reordered hsized (hjson _ (JsonValue.sortedKeys_rebuild sortMembers_perm _))
    (reordered_canonicalize artifactJson artifact)

theorem encode_canonicalJson (artifact : FindingArtifact) :
    encode (artifact.canonicalJson json) = artifact.canonicalBytes json := by
  rw [FindingArtifact.canonicalJson, FindingArtifact.canonicalBytes, Utf8Lossy.decode_encode,
    String.ofList_toList]

/-- **What a canonical text is parsed as**: its artifact, if the version of its schema is the one
that is supported. -/
theorem parseArtifact_canonicalJson (hjson : json.Lossless) {artifact : FindingArtifact}
    (hsized : artifact.Sized) :
    parseArtifact json (encode (artifact.canonicalJson json)) =
      if artifact.schemaVersion = schemaVersion then .ok artifact
      else .error (.unsupportedSchema artifact.schemaVersion schemaVersion) := by
  rw [encode_canonicalJson, parseArtifact, artifactFromSlice_canonicalBytes hjson hsized]
  exact ite_not _ _ _

/-- **Artifacts with the same canonical bytes are equal.** -/
theorem canonicalBytes_inj (hjson : json.Lossless) {artifact artifact' : FindingArtifact}
    (hsized : artifact.Sized) (hsized' : artifact'.Sized)
    (h : artifact.canonicalBytes json = artifact'.canonicalBytes json) : artifact = artifact' := by
  have hread := artifactFromSlice_canonicalBytes hjson hsized
  rw [h, artifactFromSlice_canonicalBytes hjson hsized'] at hread
  exact (Except.ok.inj hread).symm

/-- **The canonical bytes do not depend on the order of keys or on space**: they are those of what
is read from any text of the same value, and of that value. -/
theorem canonicalBytes_of_reordered {artifact : FindingArtifact} (hsized : artifact.Sized)
    {bytes : List UInt8} {v : JsonValue (Number Float)} (hparse : json.parse bytes = .ok v)
    (h : (toValue artifactJson artifact).Reordered v) :
    (∃ read, artifactFromSlice json bytes = .ok read ∧
      read.canonicalBytes json = artifact.canonicalBytes json) ∧
        encode (json.toString (canonicalize v)) = artifact.canonicalBytes json := by
  refine ⟨⟨artifact, ?_, rfl⟩, ?_⟩
  · exact artifactFromSlice_of_reordered hsized hparse
      ((reordered_toValue artifactJson artifact).trans h)
  · rw [canonicalize_of_reordered artifactJson artifact h]
    rfl

end

/-! ### Texts without floats -/

/-- The integer of a number that is no float. -/
def toInt : Number Empty → ℤ
  | .posInt n => n.toNat
  | .negInt n _ => n.toInt
  | .float f => nomatch f

/-- The number of an integer. -/
def ofInt (n : ℤ) : Number Empty :=
  if h : n < 0 ∧ Int64.ofInt n < 0 then .negInt (Int64.ofInt n) h.2 else .posInt (.ofNat n.toNat)

theorem ofInt_toInt (n : Number Empty) : ofInt (toInt n) = n := by
  cases n with
  | posInt n =>
    have hpos : ¬ ((n.toNat : ℤ) < 0 ∧ Int64.ofInt n.toNat < 0) := by omega
    rw [toInt, ofInt, dif_neg hpos, Int.toNat_natCast, UInt64.ofNat_toNat]
  | negInt n neg =>
    have hneg : n.toInt < 0 := Int64.lt_iff_toInt_lt.mp neg
    simp only [toInt, ofInt, Int64.ofInt_toInt, hneg, neg, and_self, dite_true]
  | float f => exact f.elim

theorem toInt_bounds (n : Number Empty) :
    -9223372036854775808 ≤ toInt n ∧ toInt n ≤ 18446744073709551615 := by
  cases n with
  | posInt n =>
    have hlt := n.toNat_lt
    rw [toInt]
    omega
  | negInt n neg =>
    have hle := n.le_toInt
    have hlt := n.toInt_lt
    rw [toInt]
    omega
  | float f => exact f.elim

/-- The text of an integer has a digit or a minus sign, and digits behind it. -/
theorem exists_toString_eq (n : ℤ) : ∃ c rest, (toString n).toList = c :: rest ∧
    (c.isDigit ∨ c = '-') ∧ ∀ d ∈ rest, d.isDigit := by
  cases n with
  | ofNat n =>
    have hpos : 0 < (toString n).toList.length := by
      rw [String.length_toList]
      exact Decimal.length_toString_nat_pos n
    obtain ⟨c, chars, hchars⟩ := List.exists_cons_of_length_pos hpos
    have hdigits := Decimal.isDigit_toString_nat n
    rw [hchars, List.forall_mem_cons] at hdigits
    exact ⟨c, chars, hchars, .inl hdigits.1, hdigits.2⟩
  | negSucc n =>
    exact ⟨'-', _, Decimal.toString_negSucc n, .inr rfl, Decimal.isDigit_toString_nat _⟩

/-- Numbers without floats. -/
def integers : JsonText.Numbers (Number Empty) where
  print n := (toString (toInt n)).toList
  read chars :=
    (IntegerText.readSigned 10 (-9223372036854775808) 18446744073709551615 chars).map ofInt
  read_print n := by
    rw [IntegerText.readSigned_toString (toInt_bounds n).1 (toInt_bounds n).2, Option.map_some,
      ofInt_toInt]
  numeric_print n := by
    obtain ⟨c, rest, htext, hc, hrest⟩ := exists_toString_eq (toInt n)
    rw [htext, List.forall_mem_cons]
    refine ⟨?_, fun d hd => ?_⟩
    · rcases hc with hc | rfl
      · rw [JsonText.numeric, hc, Bool.true_or]
      · decide
    · rw [JsonText.numeric, hrest d hd, Bool.true_or]
  starts n := by
    obtain ⟨c, rest, htext, hc, -⟩ := exists_toString_eq (toInt n)
    exact ⟨c, rest, htext, hc⟩

/-- Values without floats, printed and parsed. -/
def textJson : SerdeJson Empty where
  toString v := String.ofList (JsonText.print integers v)
  parse bytes :=
    match (Utf8Lossy.fromUtf8 bytes).bind fun text => JsonText.parse integers text.toList with
    | some v => .ok (v.rebuild id)
    | none => .error "expected value"
  mismatch _ := "invalid type"

theorem textJson_lossless : textJson.Lossless := by
  intro v hv
  simp only [textJson, Utf8Lossy.fromUtf8_encode, Option.bind_some, String.toList_ofList,
    JsonText.parse_print, JsonValue.rebuild_of_sortedKeys v hv]

/-! ### Artifacts are lossless -/

/-- **Artifacts lose nothing a replay needs**: expectations and steps are read back from what is
written of them; an artifact is parsed back from its canonical text, if its schema is the one that
is supported, and is determined by its canonical bytes, which no order of keys and no space
changes. -/
theorem artifact_lossless {crates : Crates} {Float : Type} {json : SerdeJson Float}
    (hcrates : crates.Documented) (hjson : json.Lossless) :
    (∀ e : Expected, ExpectedSnapshot.toExpected crates (.fromExpected crates e) = e) ∧
    (∀ finding campaign calls wasm,
      (FindingArtifact.fromFinding crates finding campaign calls wasm).steps crates = .ok calls) ∧
    (∀ artifact : FindingArtifact, artifact.Sized →
      parseArtifact json (encode (artifact.canonicalJson json)) =
        if artifact.schemaVersion = schemaVersion then .ok artifact
        else .error (.unsupportedSchema artifact.schemaVersion schemaVersion)) ∧
    (∀ artifact artifact' : FindingArtifact, artifact.Sized → artifact'.Sized →
      artifact.canonicalBytes json = artifact'.canonicalBytes json → artifact = artifact') ∧
    ∀ artifact : FindingArtifact, artifact.Sized → ∀ bytes v, json.parse bytes = .ok v →
      (toValue artifactJson artifact).Reordered v →
      (∃ read, artifactFromSlice json bytes = .ok read ∧
        read.canonicalBytes json = artifact.canonicalBytes json) ∧
          encode (json.toString (canonicalize v)) = artifact.canonicalBytes json := by
  refine ⟨ExpectedSnapshot.toExpected_fromExpected hcrates,
    FindingArtifact.steps_fromFinding hcrates, ?_, ?_, ?_⟩
  · intro artifact hsized
    exact parseArtifact_canonicalJson hjson hsized
  · intro artifact artifact' hsized hsized' hbytes
    exact canonicalBytes_inj hjson hsized hsized' hbytes
  · intro artifact hsized bytes v hparse hreordered
    exact canonicalBytes_of_reordered hsized hparse hreordered

/-- An artifact of a mutated sequence that is preserved, with a version of its schema. -/
def pingArtifact (version : UInt32) : FindingArtifact where
  schemaVersion := version
  campaign :=
    { wasmSha256 := "56c22bc5c1b836d4c6ae73abce187e50e919cee8776221b83a564a30cc4bd807"
      seedHex := "0000000000000000000000000000000000000000000000000000000000000007"
      cases := 20, function := some "ping", sequenceLength := 3, sequenceEvery := 4
      mutationsPerCase := 2, generation := .of .default
      environment :=
        { sequenceNumber := 1000000, timestamp := 5
          budget := .networkFaithful
            "aa889c51114db615a35959d8a48a60fdd0574c13b605befead20b739962e78b4" "testnet" 23 1734032
            "INCOMPLETE" 74 86 }
      authModes := ["no_auth", "correct_auth"] }
  caseId := "case0004"
  function := "ping"
  sequence := [{ function := "ping", argsXdr := ["0000000300000007", "0000000000000001"] },
    { function := "ping", argsXdr := [] }]
  authMode := "correct_auth"
  mutation := some
    { mutationId := "c1e076996b2d861f6193cc27ef842146cf99c1480cbce39c9ebfb2d845eaf41a"
      argIndex := 1, operator := "bool_true", valueXdr := "0000000000000001"
      argsXdr := ["0000000300000007", "0000000000000001"] }
  expected :=
    { behavior := .success (some "00000001"), state := some [⟨"0000000300000001", "00000001"⟩]
      events := some [], authRequired := true, resourceLimitIsFinding := true }
  observation :=
    { caseId := "case0004", function := "ping", status := .contractError "Contract" 3
      state := [⟨"0000000300000001", some "0000000300000004", "updated"⟩,
        ⟨"0000000300000002", none, "deleted"⟩]
      events := [⟨none, "Diagnostic", ["00000001"], "\"0000000e\""⟩]
      budget := { consumedCpu := 1200, consumedMem := 3400, remainingCpu := 98800,
                  remainingMem := 41939640 } }
  reasonCode := "UNEXPECTED_ERROR"
  minimization :=
    { attempted := true, strategy := "deterministically minimized under the configured strategy"
      originalComplexity := 12, minimizedComplexity := 7, preserved := true
      reductions := [⟨"step", "removed step 3 \x60ping\x60", 9⟩,
        ⟨"step", "removed step 2 \x60ping\x60", 7⟩] }

theorem pingArtifact_sized (version : UInt32) : (pingArtifact version).Sized := by
  have hlt : ∀ n < 100, n < UInt64.size := fun n h => h.trans (by decide)
  refine ⟨⟨hlt 20 (by decide), hlt 3 (by decide), hlt 4 (by decide), hlt 2 (by decide),
    hlt 74 (by decide), hlt 86 (by decide)⟩, fun m h => ?_,
    ⟨hlt 12 (by decide), hlt 7 (by decide), fun r hr => ?_⟩⟩
  · cases h
    exact hlt 1 (by decide)
  · simp only [pingArtifact, List.mem_cons, List.not_mem_nil, or_false] at hr
    obtain rfl | rfl := hr
    · exact hlt 9 (by decide)
    · exact hlt 7 (by decide)

/-- The canonical text of an artifact is parsed back. -/
theorem artifact_lossless_ping :
    parseArtifact textJson (encode ((pingArtifact schemaVersion).canonicalJson textJson)) =
      .ok (pingArtifact schemaVersion) :=
  (artifact_lossless codecCrates_documented textJson_lossless).2.2.1 _ (pingArtifact_sized _)

/-- An artifact of another schema is not parsed back from its canonical text. -/
theorem pingArtifact_unsupported :
    parseArtifact textJson (encode ((pingArtifact 2).canonicalJson textJson)) =
        .error (.unsupportedSchema 2 1) ∧
      parseArtifact textJson (encode ((pingArtifact 2).canonicalJson textJson)) ≠
        .ok (pingArtifact 2) := by
  have hparse := parseArtifact_canonicalJson textJson_lossless (pingArtifact_sized 2)
  rw [hparse]
  exact ⟨rfl, nofun⟩

end SorobanDevkit.Fuzz
