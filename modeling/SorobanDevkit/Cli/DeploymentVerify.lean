import SorobanDevkit.Cli.ReleaseChecks
import SorobanDevkit.Library.Sha256
import SorobanDevkit.Rpc.Executables

/-!
# The verification of a deployment

`sdkt deployment verify` compares a local artifact with the code that a contract runs
(`sdkt-cli/src/commands/deployment_verify.rs`), as a probe of the contract finds it. The network
that is resolved is an argument.
-/

namespace SorobanDevkit.Cli

open Rpc (LedgerEntryResult LedgerNode LedgerState)
open Rpc.Executables
open Xdr.EntryLayout

/-! ### Verdicts -/

/-- `DeploymentVerdict`. -/
inductive DeploymentVerdict
  | matched
  | drift
  | unknown
  | notFound
  deriving DecidableEq

/-- `ExecutableKind`. -/
inductive ExecutableKind
  | wasm
  | stellarAsset
  | externalRef
  | undecodable
  | none

/-- The kind of the executable that a probe found. -/
def ExecutableKind.ofProbe : Option ContractExecutableRef → ExecutableKind
  | some (.wasm _) => wasm
  | some .stellarAsset => stellarAsset
  | some (.externalRef ..) => externalRef
  | Option.none => undecodable

/-- `compare_deployment`: the kind and the hash of what is deployed, the verdict and its reason. -/
def compareDeployment (executable : ExecutableKind) (deployedHash : Option String)
    (localWasm : Option (String × ℕ)) (instanceFound : Bool) :
    ExecutableKind × Option String × DeploymentVerdict × Option String :=
  if !instanceFound then
    (.none, none, .notFound,
      some "no contract instance ledger entry exists at this network target")
  else
    match executable with
    | .wasm =>
      match deployedHash, localWasm with
      | _, none => (executable, deployedHash, .unknown,
          some ("no local WASM supplied; the deployed hash was read but there is nothing to " ++
            "compare it against — pass --wasm <file> for a verdict"))
      | none, some _ => (executable, none, .unknown,
          some ("the deployed WASM code entry could not be read from this endpoint, so the " ++
            "hash is not authoritatively available"))
      | some dh, some (lh, _) =>
        if dh = lh then (executable, deployedHash, .matched, none)
        else (executable, deployedHash, .drift,
          some ("deployed WASM " ++ dh ++ " differs from local WASM " ++ lh))
    | .stellarAsset => (executable, none, .unknown,
        some ("the contract executable is `stellar_asset` (protocol 28): protocol-defined code " ++
          "with no WASM artifact, so there is no hash to compare"))
    | .externalRef =>
      match deployedHash, localWasm with
      | some dh, some (lh, _) =>
        if dh = lh then (executable, deployedHash, .matched, none)
        else (executable, deployedHash, .drift,
          some ("deployed WASM " ++ dh ++ " differs from local WASM " ++ lh))
      | some dh, none => (executable, deployedHash, .unknown,
          some ("resolved external executable hash is " ++ dh ++
            " but no local WASM was supplied"))
      | none, _ => (executable, none, .unknown,
          some ("the CAP-85 external executable could not be resolved to a WASM hash " ++
            "through the owner-entry lookup"))
    | .undecodable => (executable, none, .unknown,
        some "the contract instance ledger entry could not be decoded")
    | .none => (executable, none, .unknown,
        some "no deployed executable information was produced by the probe")

/-! ### The report -/

/-- `TargetNetwork`. -/
structure TargetNetwork where
  client : LedgerNode
  rpcUrl : String
  networkName : String

/-- `DeploymentVerificationReport`. -/
structure DeploymentVerificationReport where
  schemaVersion : UInt32
  contractId : String
  network : String
  rpcUrl : String
  verdict : DeploymentVerdict
  localWasmHash : Option String
  localWasmSizeBytes : Option ℕ
  deployedExecutable : Option ExecutableKind
  deployedWasmHash : Option String
  reason : Option String
  verified : Bool

/-- The report on what a probe found. -/
def deploymentReport (contract : String) (localWasm : Option (String × ℕ)) (target : TargetNetwork)
    (probe : DeployedExecutable) : DeploymentVerificationReport :=
  let (executable, deployedHash, verdict, reason) := compareDeployment (.ofProbe probe.executable)
    probe.wasmHash localWasm probe.instanceFound
  { schemaVersion := 1
    contractId := contract
    network := target.networkName
    rpcUrl := target.rpcUrl
    verdict
    localWasmHash := localWasm.map Prod.fst
    localWasmSizeBytes := localWasm.map Prod.snd
    deployedExecutable := some executable
    deployedWasmHash := deployedHash
    reason
    verified := decide (verdict = .matched) }

section

variable {ScVal Other Ext : Type} (crates : ReleaseCrates) (probe : ProbeCrates ScVal Other Ext)
  (files : ReleaseFiles)

/-- The hash and the size of the artifact in a file, if one is given. -/
def localArtifact : Option String → Except String (Option (String × ℕ))
  | some path => do
    let bytes ← (files.read path).mapError fun e =>
      "Error reading WASM file " ++ path ++ ": " ++ e
    let metadata ← (parseMetadata crates bytes).mapError fun e =>
      path ++ " is not valid WASM: " ++ e
    return some (metadata.hash, metadata.sizeBytes)
  | none => return none

/-- `run_deployment_verify`, with the network that is resolved. An error is the text that is
shown. -/
def runDeploymentVerify (target : Except String TargetNetwork) (contract : String)
    (wasm : Option String) : Effect (List (List String)) String DeploymentVerificationReport := do
  let localWasm ← Effect.lift (localArtifact crates files wasm)
  let target ← Effect.lift target
  let found ← Effect.mapError probe.readText
    (probeDeployedExecutable probe target.client contract)
  pure (deploymentReport contract localWasm target found)

/-- The exit code of the command. -/
def deploymentExitCode : Except String DeploymentVerificationReport → ℕ
  | .error _ => 1
  | .ok report => if !report.verified then 1 else 0

/-- A file that is given has an artifact with this hash. -/
def HasArtifact (wasm : Option String) (hash : String) : Prop :=
  ∃ path ∈ wasm, ∃ bytes, files.read path = .ok bytes ∧ hash = wasmSha256 crates bytes

/-- In a ledger, the instance with a key has these data. -/
def HasInstance (state : LedgerState) (key : String) (data : DataEntry ScVal) : Prop :=
  ∃ entry, state.get? key = some entry ∧ IsEntryText probe data entry.xdr

/-- In a ledger, the contract with a key runs code with a hash: its own, or that of the entry which
its executable names. -/
def RunsCode (state : LedgerState) (key hash : String) : Prop :=
  ∃ data executable, HasInstance probe state key data ∧
    probe.instanceExecutable data.val = some executable ∧ Named probe state executable hash

/-- The tag in a reference to the entry of a contract is a text. -/
def TextTag (executable : Executable) : Prop :=
  ∀ id tag, executable = .externalRef (.contract id) tag → ∃ text, tag = Utf8Lossy.encode text

end

/-- A report is decided by the hashes of the code that the contract runs, if it is found, and of the
local artifact. -/
structure DeploymentVerificationReport.DecidedBy (report : DeploymentVerificationReport)
    (found : Prop) (runs own : String → Prop) : Prop where
  deployedWasmHash_iff : ∀ hash, report.deployedWasmHash = some hash ↔ runs hash
  notFound_iff : report.verdict = .notFound ↔ ¬ found
  matched_iff : report.verdict = .matched ↔ ∃ hash, runs hash ∧ own hash
  drift_iff : report.verdict = .drift ↔ ∃ hash hash', runs hash ∧ own hash' ∧ hash ≠ hash'
  reason_iff : report.reason = none ↔ report.verdict = .matched

/-! ### What a verdict says -/

/-- The verdict on an instance, by the two hashes. -/
def verdictOf : Option String → Option String → DeploymentVerdict
  | some dh, some lh => if dh = lh then .matched else .drift
  | _, _ => .unknown

theorem verdictOf_matched_iff {deployed own : Option String} :
    verdictOf deployed own = .matched ↔ ∃ hash, deployed = some hash ∧ own = some hash := by
  rcases deployed with _ | dh <;> rcases own with _ | lh
  case some.some => by_cases heq : dh = lh <;> simp [verdictOf, heq, eq_comm]
  all_goals simp [verdictOf]

theorem verdictOf_drift_iff {deployed own : Option String} :
    verdictOf deployed own = .drift ↔
      ∃ hash hash', deployed = some hash ∧ own = some hash' ∧ hash ≠ hash' := by
  rcases deployed with _ | dh <;> rcases own with _ | lh
  case some.some => by_cases heq : dh = lh <;> simp [verdictOf, heq]
  all_goals simp [verdictOf]

/-- What is no code has no hash. -/
def Coded (found : DeployedExecutable) : Prop :=
  found.wasmHash = none ∨ found.instanceFound = true ∧
    (ExecutableKind.ofProbe found.executable = .wasm ∨
      ExecutableKind.ofProbe found.executable = .externalRef)

/-- The comparison of what a probe found. -/
theorem compareDeployment_eq {kind : ExecutableKind} {deployed : Option String}
    (hkind : deployed = none ∨ kind = .wasm ∨ kind = .externalRef)
    (localWasm : Option (String × ℕ)) : ∃ reason,
      compareDeployment kind deployed localWasm true =
        (kind, deployed, verdictOf deployed (localWasm.map Prod.fst), reason) ∧
      (reason = none ↔ verdictOf deployed (localWasm.map Prod.fst) = .matched) := by
  rcases deployed with _ | dh
  · cases kind <;> rcases localWasm with _ | ⟨lh, size⟩ <;> exact ⟨_, rfl, by simp [verdictOf]⟩
  · obtain hnone | rfl | rfl := hkind
    · cases hnone
    all_goals
      rcases localWasm with _ | ⟨lh, size⟩
      · exact ⟨_, rfl, by simp [verdictOf]⟩
      · by_cases heq : dh = lh
        · rw [Option.map_some, show verdictOf (some dh) (some lh) = .matched from if_pos heq]
          exact ⟨_, if_pos heq, by simp⟩
        · rw [Option.map_some, show verdictOf (some dh) (some lh) = .drift from if_neg heq]
          exact ⟨_, if_neg heq, by simp⟩

/-- **The report on what a probe found.** -/
theorem deploymentReport_decidedBy (contract : String) (target : TargetNetwork)
    {found : DeployedExecutable} {localWasm : Option (String × ℕ)} {runs own : String → Prop}
    (hcoded : Coded found) (hruns : ∀ hash, found.wasmHash = some hash ↔ runs hash)
    (hown : ∀ hash, localWasm.map Prod.fst = some hash ↔ own hash) :
    (deploymentReport contract localWasm target found).DecidedBy (found.instanceFound = true)
      runs own := by
  cases hfound : found.instanceFound with
  | false =>
    have hnone : found.wasmHash = none := hcoded.resolve_right fun h => by simp [hfound] at h
    have hnot (hash : String) : ¬ runs hash := by
      rw [← hruns, hnone]
      exact Option.some_ne_none hash ∘ Eq.symm
    rw [deploymentReport, hfound]
    constructor <;> simp [compareDeployment, hnot]
  | true =>
    obtain ⟨reason, hcompare, hreason⟩ := compareDeployment_eq
      (hcoded.imp_right And.right) localWasm
    rw [deploymentReport, hfound, hcompare]
    have hne (dh lh : Option String) : verdictOf dh lh ≠ .notFound := by
      rcases dh with _ | dh <;> rcases lh with _ | lh
      case some.some => by_cases heq : dh = lh <;> simp [verdictOf, heq]
      all_goals simp [verdictOf]
    refine ⟨hruns, by simp [hne], ?_, ?_, hreason⟩
    · simp only [verdictOf_matched_iff, hruns, hown]
    · simp only [verdictOf_drift_iff, hruns, hown]

/-! ### What a probe finds -/

section

variable {ScVal Other Ext : Type} {probe : ProbeCrates ScVal Other Ext}

/-- What is read for the executable in an entry is the hash of the code that the contract runs. -/
theorem read_iff_runsCode (h : probe.Documented) {state : LedgerState} {key : String}
    {entry : LedgerEntryResult} (hget : state.get? key = some entry) {data : DataEntry ScVal}
    (hdata : IsEntryText probe data entry.xdr)
    (htag : ∀ executable, probe.instanceExecutable data.val = some executable →
      TextTag executable) (hash : String) :
    (∃ executable, extractContractExecutable probe.toEntryXdr entry.xdr = .ok executable ∧
      Read probe state executable hash) ↔ RunsCode probe state key hash := by
  have hextract : extractContractExecutable probe.toEntryXdr entry.xdr =
      executableFromContractData probe.toEntryXdr data :=
    extract_of_isEntryText h (noParseError_executable data) hdata
  have hruns : RunsCode probe state key hash ↔
      ∃ executable, probe.instanceExecutable data.val = some executable ∧
        Named probe state executable hash := by
    constructor
    · rintro ⟨data', executable, ⟨entry', hget', hdata'⟩, hexecutable, hnamed⟩
      obtain rfl := Option.some.inj (hget.symm.trans hget')
      obtain rfl := hdata.unique h hdata'
      exact ⟨executable, hexecutable, hnamed⟩
    · rintro ⟨executable, hexecutable, hnamed⟩
      exact ⟨data, executable, ⟨entry, hget, hdata⟩, hexecutable, hnamed⟩
  rw [hruns, hextract, executableFromContractData]
  cases hexecutable : probe.instanceExecutable data.val with
  | none => simp
  | some executable => simp [read_iff_named (htag executable hexecutable)]

/-- A probe finds the instance of a contract if the ledger has it, with the hash of its code. -/
theorem probe_of_serves (h : probe.Documented) {node : LedgerNode} {state : LedgerState}
    {ledger : UInt32} (hserves : node.Serves state ledger) {contract contractIdHex key : String}
    (hid : contractIdToHex probe contract = .ok contractIdHex)
    (hkey : encodeLedgerKey probe (.contractData contractIdHex) = .ok key)
    (hentry : ∀ entry, state.get? key = some entry → ∃ data, IsEntryText probe data entry.xdr ∧
      ∀ executable, probe.instanceExecutable data.val = some executable → TextTag executable)
    (sent : List (List String)) : ∃ found sent',
    probeDeployedExecutable probe node contract sent = (.ok found, sent') ∧ Coded found ∧
      (found.instanceFound = true ↔ (state.get? key).isSome = true) ∧
      ∀ hash, found.wasmHash = some hash ↔ RunsCode probe state key hash := by
  have hlift : (Effect.lift (contractIdToHex probe contract) : Rpc.Reading String) sent =
      (.ok contractIdHex, sent) := by
    rw [Effect.lift, hid]
  have hlift' : (Effect.lift ((encodeLedgerKey probe (.contractData contractIdHex)).mapError
      fun e => .request (.rpc ("Failed to encode ledger key: " ++ probe.decodeText e))) :
        Rpc.Reading String) sent = (.ok key, sent) := by
    rw [Effect.lift, hkey]
    rfl
  obtain ⟨response, hresponse, hhead⟩ := hserves.request_one key sent
  rw [probeDeployedExecutable, Effect.bind_of_ok hlift, Effect.bind_of_ok hlift',
    Effect.bind_of_ok hresponse]
  cases hentries : response.entries with
  | nil =>
    have hget : state.get? key = none := by rw [← hhead, hentries, List.head?_nil]
    refine ⟨_, _, rfl, .inl rfl, by simp [hget], fun hash => ?_⟩
    simp [RunsCode, HasInstance, hget]
  | cons entry entries =>
    have hget : state.get? key = some entry := by rw [← hhead, hentries, List.head?_cons]
    obtain ⟨data, hdata, htag⟩ := hentry entry hget
    have hread := read_iff_runsCode h hget hdata htag
    dsimp only
    cases hextract : extractContractExecutable probe.toEntryXdr entry.xdr with
    | error e =>
      refine ⟨_, _, rfl, .inl rfl, by simp [hget], fun hash => ?_⟩
      rw [← hread hash, hextract]
      simp
    | ok executable =>
      have hruns (hash : String) :
          RunsCode probe state key hash ↔ Read probe state executable hash := by
        rw [← hread hash, hextract]
        simp
      simp only [hget, hruns, Option.isSome_some, iff_true]
      cases executable with
      | wasm own =>
        exact ⟨_, _, rfl, .inr ⟨rfl, .inl rfl⟩, rfl, fun hash => by
          simp [Read, DeployedExecutable.decoded, eq_comm]⟩
      | stellarAsset =>
        exact ⟨_, _, rfl, .inl rfl, rfl, fun hash => by simp [Read, DeployedExecutable.decoded]⟩
      | externalRef owner tag =>
        have hresolve := resolve_external_eq_ok_iff h hserves owner tag (sent ++ [[key]])
        dsimp only
        cases hrun : resolveExternalExecutable probe node owner tag (sent ++ [[key]]) with
        | mk result sent' =>
          rw [hrun] at hresolve
          cases result with
          | ok own =>
            refine ⟨_, _, rfl, .inr ⟨rfl, .inr rfl⟩, rfl, fun hash => ?_⟩
            rw [Read, ← hresolve hash]
            simp [DeployedExecutable.decoded]
          | error e =>
            refine ⟨_, _, rfl, .inl rfl, rfl, fun hash => ?_⟩
            rw [Read, ← hresolve hash]
            simp [DeployedExecutable.decoded]

variable {crates : ReleaseCrates} {files : ReleaseFiles} {wasm : Option String}

/-- The artifact in a file that is read, with its hash. -/
theorem exists_localArtifact (hwasm : ∀ path ∈ wasm, ∃ bytes metadata,
      files.read path = .ok bytes ∧ parseMetadata crates bytes = .ok metadata) :
    ∃ localWasm, localArtifact crates files wasm = .ok localWasm ∧
      ∀ hash, localWasm.map Prod.fst = some hash ↔ HasArtifact crates files wasm hash := by
  cases wasm with
  | none => exact ⟨none, rfl, fun hash => by simp [HasArtifact]⟩
  | some path =>
    obtain ⟨bytes, metadata, hread, hmetadata⟩ := hwasm path rfl
    refine ⟨some (metadata.hash, metadata.sizeBytes), ?_, fun hash => ?_⟩
    · simp [localArtifact, hread, hmetadata, Except.mapError_ok, Bind.bind, Except.bind, Pure.pure,
        Except.pure]
    · simp [HasArtifact, hread, (wasmSha256_of_parseMetadata hmetadata).1, eq_comm]

variable (crates files) in
/-- **What each verdict says.** The verdict is decided by the hash of the code that the contract
runs in the ledger of the network, and by the hash of the local artifact. It has a reason if it is
no match, and only a match is a success. -/
theorem deployment_verdict (target : TargetNetwork) (h : probe.Documented)
    (hwasm : ∀ path ∈ wasm, ∃ bytes metadata,
      files.read path = .ok bytes ∧ parseMetadata crates bytes = .ok metadata)
    {state : LedgerState} {ledger : UInt32}
    (hserves : target.client.Serves state ledger) {contract contractIdHex key : String}
    (hid : contractIdToHex probe contract = .ok contractIdHex)
    (hkey : encodeLedgerKey probe (.contractData contractIdHex) = .ok key)
    (hentry : ∀ entry, state.get? key = some entry → ∃ data, IsEntryText probe data entry.xdr ∧
      ∀ executable, probe.instanceExecutable data.val = some executable → TextTag executable)
    (sent : List (List String)) : ∃ report sent',
      runDeploymentVerify crates probe files (.ok target) contract wasm sent =
        (.ok report, sent') ∧
      report.DecidedBy ((state.get? key).isSome = true) (RunsCode probe state key)
        (HasArtifact crates files wasm) ∧
      (deploymentExitCode (.ok report) = 0 ↔ report.verdict = .matched) := by
  obtain ⟨localWasm, hlocal, hown⟩ := exists_localArtifact hwasm
  obtain ⟨found, sent', hprobe, hcoded, hinstance, hruns⟩ :=
    probe_of_serves h hserves hid hkey hentry sent
  have hlift : (Effect.lift (localArtifact crates files wasm) :
      Effect (List (List String)) String (Option (String × ℕ))) sent = (.ok localWasm, sent) := by
    rw [Effect.lift, hlocal]
  have htarget : (Effect.lift (.ok target) : Effect (List (List String)) String TargetNetwork)
      sent = (.ok target, sent) := rfl
  have hdecided := deploymentReport_decidedBy contract target hcoded hruns hown
  rw [hinstance] at hdecided
  refine ⟨deploymentReport contract localWasm target found, sent', ?_, hdecided, ?_⟩
  · rw [runDeploymentVerify, Effect.bind_of_ok hlift, Effect.bind_of_ok htarget,
      Effect.bind_of_ok (Effect.mapError_eq_ok_iff.mpr hprobe)]
    rfl
  · rw [deploymentExitCode, deploymentReport]
    simp

end

/-! ### A contract that is deployed -/

/-- The module without sections. -/
def emptyModule : List UInt8 := [0, 97, 115, 109, 1, 0, 0, 0]

/-- What the crates make of this module, which declares nothing, and of a source without items. -/
def emptyModuleCrates : ReleaseCrates where
  sha256 := Sha256.digest
  parseModule wasm := if wasm = emptyModule then .ok 1 else .error "unexpected end-of-file"
  parseContractSpec _ := .error "No contractspecv0 section found"
  scan source := if source = "" then some [] else none
  json := .noScans
  displayF64 _ := ""

/-- A directory with this module. -/
def emptyModuleFiles : ReleaseFiles where
  read path := if path = "empty.wasm" then .ok emptyModule else .error "No such file or directory"
  readToString _ := .error "No such file or directory"
  node path := if path = "empty.wasm" then some .file else none
  evidence _ := .error "No such file or directory"

/-- A contract that runs this module matches it. -/
theorem deployment_verdict_emptyModule : ∃ state : LedgerState, ∃ report sent',
    runDeploymentVerify emptyModuleCrates probeCrates emptyModuleFiles
      (.ok ⟨state.serving 100, "https://soroban-testnet.stellar.org", "testnet"⟩)
      (Hex.encode (Vector.replicate 32 0x11).toList) (some "empty.wasm") [] =
        (.ok report, sent') ∧
    report.verdict = .matched ∧ deploymentExitCode (.ok report) = 0 := by
  obtain ⟨raw, hraw⟩ := probeCrates_documented.exists_writeDataKey
    (.contract (.replicate 32 0x11)) probeCrates.ledgerKeyContractInstance .persistent
  obtain ⟨hid, hkey⟩ := encodeLedgerKey_contractData hraw
  let val : ProbeVal := .wasmInstance (Sha256.digest emptyModule)
  let entry := entryOf probeCrates () (Base64.encode raw) (probeInstance val)
  let state := LedgerState.pair entry entry
  have hget {k : String} {e : LedgerEntryResult} (h : state.get? k = some e) : e = entry := by
    simp only [state, LedgerState.pair] at h
    split at h
    · exact (Option.some.inj h).symm
    · cases h
  have htext : IsEntryText probeCrates (probeInstance val) entry.xdr := .inl ⟨0, (), rfl⟩
  have hexecutable : probeCrates.instanceExecutable (probeInstance val).val = some (.wasm _) := rfl
  have hwasm : ∀ path ∈ some "empty.wasm", ∃ bytes metadata,
      emptyModuleFiles.read path = .ok bytes ∧
        parseMetadata emptyModuleCrates bytes = .ok metadata := by
    intro path hpath
    obtain rfl := Option.some.inj hpath
    exact ⟨emptyModule, _, rfl, rfl⟩
  obtain ⟨report, sent', hrun, hdecided, hexit⟩ :=
    deployment_verdict emptyModuleCrates emptyModuleFiles
      ⟨state.serving 100, "https://soroban-testnet.stellar.org", "testnet"⟩ probeCrates_documented
      hwasm (state.serves_serving 100) hid hkey
      (fun e he => by
        rw [hget he]
        refine ⟨probeInstance val, htext, fun executable hcoded => ?_⟩
        obtain rfl := Option.some.inj (hexecutable.symm.trans hcoded)
        exact fun _ _ heq => by cases heq) []
  have hmatched : report.verdict = .matched := hdecided.matched_iff.mpr
    ⟨_, ⟨_, _, ⟨entry, if_pos rfl, htext⟩, hexecutable, rfl⟩, "empty.wasm", rfl, emptyModule, rfl,
      rfl⟩
  exact ⟨state, report, sent', hrun, hmatched, hexit.mpr hmatched⟩

end SorobanDevkit.Cli
