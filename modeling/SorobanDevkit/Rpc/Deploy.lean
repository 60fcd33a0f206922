import SorobanDevkit.Library.Hex
import SorobanDevkit.Rpc.Submission
import SorobanDevkit.Xdr.Builder

/-!
# Deploying a contract

`deploy_contract_with_args` of `sdkt-rpc/src/deploy.rs` uploads code and creates a contract of it.
What the network answers to the upload, and to the creation from its simulation to its confirmation,
is arbitrary. The creation that is tried, if any, is given beside the outcome.
-/

namespace SorobanDevkit.Rpc

open Xdr

/-- The text of an `RpcError`. -/
def RpcError.display : RpcError → String
  | rpc message => "RPC error: " ++ message
  | jsonRpc code message _ => "RPC error: " ++ message ++ " (code " ++ toString code ++ ")"
  | reqwest error => "HTTP request error: " ++ error
  | httpStatus status => "HTTP request failed with status " ++ toString status

/-- The 20 bytes of a salt. -/
abbrev Salt := Vector UInt8 20

/-- `CreateContractArgs`. -/
structure CreateContractArgs where
  wasmHash : Bytes32
  deployerAddress : String
  salt : Salt
  constructorArgs : List String
  deriving DecidableEq

/-- `DeployResult`. -/
structure DeployResult where
  wasmHash : String
  contractId : String
  uploadHash : String
  createHash : String
  status : String
  salt : String
  uploadFee : UInt32
  createFee : UInt32
  totalFee : UInt64
  deriving DecidableEq

/-- `PartialDeployResult`. -/
structure PartialDeployResult where
  wasmHash : String
  uploadHash : String
  error : String
  deriving DecidableEq

/-- `DeployOutcome`. -/
inductive DeployOutcome
  | success (result : DeployResult)
  | partialFailure (result : PartialDeployResult)
  | failure (error : String)
  deriving DecidableEq

/-- The texts and formats of crates: the hash in the metadata of code, base 16, and the text of an
XDR error. -/
structure DeployCrates where
  parseMetadata : List UInt8 → Except String String
  decodeHex : String → Except String (List UInt8)
  decodeErrorText : DecodeError → String

/-- What the outside answers during one deployment. -/
structure DeployAnswers where
  /-- The bytes of `generate_salt`. -/
  generated : Salt
  sequence : Except RpcError Int64
  /-- The hash and the fee of the upload. -/
  upload : Except RpcError (String × UInt32)
  sequenceAfterUpload : Except RpcError Int64
  /-- The hash and the fee of the creation. -/
  create : Except RpcError (String × UInt32)

section

variable (stellar : Stellar) (crates : DeployCrates) (networkId : Bytes32)

/-- What the id of the created contract is the hash of. -/
def CreateContractArgs.preimage (args : CreateContractArgs) : Except DecodeError HashIdPreimage :=
  (decodeAccountId stellar args.deployerAddress).map fun deployer =>
    .contractId networkId (addressPreimage deployer args.salt)

/-- `parse_wasm_hash`. -/
def parseWasmHash (hashStr : String) : Except RpcError Bytes32 :=
  match crates.decodeHex hashStr with
  | .error e => .error (.rpc ("Invalid WASM hash hex: " ++ e))
  | .ok bytes =>
    if h : bytes.length = 32 then .ok ⟨bytes.toArray, h⟩
    else .error (.rpc "WASM hash must be 32 bytes")

/-- `create_contract`, with the answer to the creation. -/
def createContractWith (args : CreateContractArgs) (answer : Except RpcError (String × UInt32)) :
    Except RpcError (String × String × UInt32) :=
  match answer with
  | .error e => .error e
  | .ok (hash, fee) =>
    match deriveContractId stellar networkId args.deployerAddress args.salt args.wasmHash with
    | .error e => .error (.rpc ("Failed to derive contract ID: " ++ crates.decodeErrorText e))
    | .ok contractId => .ok (contractId, hash, fee)

/-- The checks of `deploy_contract_with_args` that ask no network: the text and the bytes of the
hash. -/
def checkDeploy (wasmBytes : List UInt8) (constructorArgs : List String) :
    Except RpcError (String × Bytes32) :=
  if wasmBytes.isEmpty then .error (.rpc "WASM bytes are empty")
  else do
    let _ ← (parseScvalArgs stellar constructorArgs).mapError fun e =>
      .rpc ("Invalid constructor argument: " ++ crates.decodeErrorText e)
    let hashStr ← (crates.parseMetadata wasmBytes).mapError fun e =>
      .rpc ("Failed to parse WASM metadata: " ++ e)
    let hash ← parseWasmHash crates hashStr
    .ok (hashStr, hash)

/-- `deploy_contract_with_args`, with the creation that it tries. -/
def deployContractWithArgs (wasmBytes : List UInt8) (sourceAccount : String)
    (userSalt : Option Salt) (constructorArgs : List String) (answers : DeployAnswers) :
    Option CreateContractArgs × Except RpcError DeployOutcome :=
  match checkDeploy stellar crates wasmBytes constructorArgs with
  | .error e => (none, .error e)
  | .ok (wasmHashStr, wasmHash) =>
    let salt := userSalt.getD answers.generated
    match answers.sequence with
    | .error e => (none, .error e)
    | .ok _ => match answers.upload with
      | .error e => (none, .ok (.failure ("Upload failed: " ++ e.display)))
      | .ok (uploadHash, uploadFee) => match answers.sequenceAfterUpload with
        | .error e => (none, .error e)
        | .ok _ =>
          let createArgs : CreateContractArgs :=
            { wasmHash, deployerAddress := sourceAccount, salt, constructorArgs }
          (some createArgs,
            match createContractWith stellar crates networkId createArgs answers.create with
            | .error e => .ok (.partialFailure
                { wasmHash := wasmHashStr, uploadHash, error := e.display })
            | .ok (contractId, createHash, createFee) => .ok (.success
                { wasmHash := wasmHashStr
                  contractId
                  uploadHash
                  createHash
                  status := "SUCCESS"
                  salt := Hex.encode salt.toList
                  uploadFee
                  createFee
                  totalFee := uploadFee.toUInt64 + createFee.toUInt64 }))

/-! ### When a creation is tried -/

/-- What a creation is tried under: the checks pass, and the network answers to the upload. -/
structure TriesCreation (wasmBytes : List UInt8) (constructorArgs : List String)
    (answers : DeployAnswers) : Prop where
  checked : ∃ hashes, checkDeploy stellar crates wasmBytes constructorArgs = .ok hashes
  sequence : ∃ n, answers.sequence = .ok n
  upload : ∃ uploaded, answers.upload = .ok uploaded
  sequenceAfterUpload : ∃ n, answers.sequenceAfterUpload = .ok n

variable {stellar crates networkId}

theorem TriesCreation.exists_parseScvalArgs {wasmBytes : List UInt8}
    {constructorArgs : List String} {answers : DeployAnswers}
    (h : TriesCreation stellar crates wasmBytes constructorArgs answers) :
    ∃ vals, parseScvalArgs stellar constructorArgs = .ok vals := by
  obtain ⟨hashes, hchecked⟩ := h.checked
  rw [checkDeploy] at hchecked
  split_ifs at hchecked
  obtain ⟨vals, hvals, -⟩ := Except.bind_eq_ok_iff.mp hchecked
  exact ⟨vals, Except.mapError_eq_ok_iff.mp hvals⟩

/-- **A deployment that tries a creation tries it with the given salt, or with the generated one;
one that does not, does not succeed.** -/
theorem deployContractWithArgs_cases (wasmBytes : List UInt8) (sourceAccount : String)
    (userSalt : Option Salt) (constructorArgs : List String) (answers : DeployAnswers) :
    (TriesCreation stellar crates wasmBytes constructorArgs answers ∧ ∃ wasmHash,
      (deployContractWithArgs stellar crates networkId wasmBytes sourceAccount userSalt
        constructorArgs answers).1 = some
          { wasmHash, deployerAddress := sourceAccount, salt := userSalt.getD answers.generated
            constructorArgs }) ∨
    (¬ TriesCreation stellar crates wasmBytes constructorArgs answers ∧
      (deployContractWithArgs stellar crates networkId wasmBytes sourceAccount userSalt
        constructorArgs answers).1 = none ∧
      ∀ result, (deployContractWithArgs stellar crates networkId wasmBytes sourceAccount userSalt
        constructorArgs answers).2 ≠ .ok (.success result)) := by
  rw [deployContractWithArgs]
  cases hcheck : checkDeploy stellar crates wasmBytes constructorArgs with
  | error e =>
    refine .inr ⟨fun h => ?_, rfl, by simp⟩
    obtain ⟨hashes, hhashes⟩ := h.checked
    rw [hcheck] at hhashes
    cases hhashes
  | ok hashes =>
    obtain ⟨hashStr, hash⟩ := hashes
    simp only
    cases hsequence : answers.sequence with
    | error e => exact .inr ⟨fun h => by simpa [hsequence] using h.sequence, rfl, by simp⟩
    | ok n =>
      simp only
      cases hupload : answers.upload with
      | error e => exact .inr ⟨fun h => by simpa [hupload] using h.upload, rfl, by simp⟩
      | ok uploaded =>
        simp only
        cases hafter : answers.sequenceAfterUpload with
        | error e =>
          exact .inr ⟨fun h => by simpa [hafter] using h.sequenceAfterUpload, rfl, by simp⟩
        | ok m =>
          exact .inl ⟨⟨⟨_, hcheck⟩, ⟨_, hsequence⟩, ⟨_, hupload⟩, ⟨_, hafter⟩⟩, hash, rfl⟩

end

end SorobanDevkit.Rpc
