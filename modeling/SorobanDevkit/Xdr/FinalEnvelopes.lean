import SorobanDevkit.Library.Bytes
import SorobanDevkit.Library.Utf8Lossy
import SorobanDevkit.Xdr.Builder

/-!
# Final envelopes

After a simulation, `sdkt-xdr/src/builder.rs` assembles the transaction that is signed: its one
operation uploads code, creates a contract, invokes one, extends the life of entries or restores
them, and its extension has the resource data of the simulation.
-/

namespace SorobanDevkit.Xdr

/-- The envelope of a transaction in base64, with the transaction. -/
structure FinalEnvelope (stellar : Stellar) where
  tx : Transaction stellar.ScVal stellar.SorobanAuthorizationEntry stellar.SorobanTransactionData
  xdr : String
  encoded : encodeEnvelope stellar tx = .ok xdr

/-- What is looked at in `SorobanTransactionData`. -/
structure SorobanData (stellar : Stellar) where
  resourceFee : stellar.SorobanTransactionData → Int64
  setResourceFee : stellar.SorobanTransactionData → Int64 → stellar.SorobanTransactionData
  /-- There is no key in the footprint. -/
  footprintIsEmpty : stellar.SorobanTransactionData → Bool
  resourceFee_set : ∀ data fee, resourceFee (setResourceFee data fee) = fee

/-- `UploadWasmParams`. -/
structure UploadWasmParams where
  sourceAccount : String
  sequence : Int64
  fee : UInt32
  wasmBytes : List UInt8
  deriving DecidableEq

/-- `InvokeTransactionParams`. -/
structure InvokeTransactionParams where
  sourceAccount : String
  sequence : Int64
  fee : UInt32
  contractId : String
  function : String
  args : List String
  memo : Option Memo
  deriving DecidableEq

/-- `ExtendFootprintParams`. -/
structure ExtendFootprintParams where
  sourceAccount : String
  sequence : Int64
  fee : UInt32
  extendTo : UInt32
  footprintKeys : List String
  deriving DecidableEq

/-- `RestoreFootprintParams`. -/
structure RestoreFootprintParams (stellar : Stellar) where
  sourceAccount : String
  sequence : Int64
  fee : UInt32
  sorobanData : stellar.SorobanTransactionData

section Build

variable {stellar : Stellar}

/-- The envelope of a transaction. -/
def finalEnvelope
    (tx : Transaction stellar.ScVal stellar.SorobanAuthorizationEntry
      stellar.SorobanTransactionData) :
    Except DecodeError (FinalEnvelope stellar) :=
  match h : encodeEnvelope stellar tx with
  | .ok xdr => .ok ⟨tx, xdr, h⟩
  | .error e => .error e

/-- The transaction with one operation and with resource data. -/
def operationTx (source : AccountId) (fee : UInt32) (sequence : Int64) (memo : Memo)
    (body : OperationBody stellar.ScVal stellar.SorobanAuthorizationEntry)
    (sorobanData : stellar.SorobanTransactionData) :
    Transaction stellar.ScVal stellar.SorobanAuthorizationEntry stellar.SorobanTransactionData where
  sourceAccount := muxedFromAccount source
  fee := fee
  seqNum := sequence
  cond := .none
  memo := memo
  operations := ⟨[⟨none, body⟩], by simp⟩
  ext := .v1 sorobanData

/-- `decode_contract_id`. -/
def decodeContractId (stellar : Stellar) (contractId : String) : Except DecodeError Bytes32 :=
  match stellar.strkey contractId with
  | .error e => .error (.extraction ("Invalid contract ID: " ++ e))
  | .ok (.contract id) => .ok id
  | .ok _ => .error (.extraction "Expected Contract ID")

/-- A vector of bounded length, or an error. -/
def boundedVec {α : Type} {max : ℕ} (items : List α) (message : String) : Except DecodeError
    (VecM max α) :=
  match VecM.tryFrom items with
  | some v => .ok v
  | none => .error (.extraction message)

/-- `build_upload_wasm_tx_with_data_and_auth`. -/
def buildUploadWasmTxWithDataAndAuth (params : UploadWasmParams)
    (sorobanData : stellar.SorobanTransactionData)
    (authEntries : List stellar.SorobanAuthorizationEntry) : Except DecodeError
      (FinalEnvelope stellar) := do
  let source ← decodeAccountId stellar params.sourceAccount
  let wasm ← boundedVec params.wasmBytes "WASM bytes exceed max length"
  let auth ← authVec stellar authEntries
  finalEnvelope (operationTx source params.fee params.sequence .none
    (.invokeHostFunction ⟨.uploadContractWasm wasm, auth⟩) sorobanData)

/-- `build_invoke_transaction_with_data`. -/
def buildInvokeTransactionWithData (params : InvokeTransactionParams)
    (sorobanData : stellar.SorobanTransactionData)
      (authEntries : List stellar.SorobanAuthorizationEntry) :
    Except DecodeError (FinalEnvelope stellar) := do
  let source ← decodeAccountId stellar params.sourceAccount
  let contract ← decodeContractId stellar params.contractId
  let args ← parseScvalArgs stellar params.args
  let functionName ← boundedVec (Utf8Lossy.encode params.function) "Function name too long"
  let auth ← authVec stellar authEntries
  finalEnvelope (operationTx source params.fee params.sequence (params.memo.getD .none)
    (.invokeHostFunction ⟨.invokeContract (.contract contract) functionName args, auth⟩)
      sorobanData)

/-- The XDR of an `ExtendFootprintTtl` operation. -/
def extendFootprintTtlXdr (extendTo : UInt32) : List UInt8 :=
  bigEndian 4 25 ++ bigEndian 4 0 ++ bigEndian 4 extendTo.toNat

/-- The XDR of a `RestoreFootprint` operation. -/
def restoreFootprintXdr : List UInt8 := bigEndian 4 26 ++ bigEndian 4 0

/-- `build_extend_footprint_tx_with_data`. -/
def buildExtendFootprintTxWithData (params : ExtendFootprintParams)
    (sorobanData : stellar.SorobanTransactionData) : Except DecodeError (FinalEnvelope stellar) :=
  if params.extendTo = 0 then .error (.extraction "extend_to must be greater than 0")
  else do
    let source ← decodeAccountId stellar params.sourceAccount
    finalEnvelope
      (operationTx source params.fee params.sequence .none
        (.other (extendFootprintTtlXdr params.extendTo))
      sorobanData)

/-- `build_restore_footprint_tx`. -/
def buildRestoreFootprintTx (soroban : SorobanData stellar)
    (params : RestoreFootprintParams stellar) :
    Except DecodeError (FinalEnvelope stellar) :=
  if soroban.footprintIsEmpty params.sorobanData then
    .error (.extraction "restore footprint is empty: no archived entries to restore")
  else if (params.fee.toNat : ℤ) < (soroban.resourceFee params.sorobanData).toInt then
    .error (.extraction (s!"restore fee {params.fee} is below the preamble resource fee " ++
      s!"{soroban.resourceFee params.sorobanData}"))
  else do
    let source ← decodeAccountId stellar params.sourceAccount
    finalEnvelope
      (operationTx source params.fee params.sequence .none
        (.other restoreFootprintXdr) params.sorobanData)

/-- `build_create_contract_tx_with_data_and_auth` and, with constructor arguments,
`build_create_contract_v2_tx_with_data_and_auth`, with the transaction. -/
def buildCreateFinal (params : CreateContractParams) (constructorArgs : Option (List String))
    (sorobanData : stellar.SorobanTransactionData)
      (authEntries : List stellar.SorobanAuthorizationEntry) :
    Except DecodeError (FinalEnvelope stellar) := do
  let source ← decodeAccountId stellar params.sourceAccount
  let deployer ← decodeAccountId stellar params.deployerAddress
  let auth ← authVec stellar authEntries
  let vals ← parseArgs stellar constructorArgs
  finalEnvelope (createContractTx stellar params source
    (createFunction (addressPreimage deployer params.salt) params.wasmHash vals) auth
      (.v1 sorobanData))

/-! ### What the builders put into the envelope -/

/-- The fee and the resource data of an envelope. -/
structure FinalEnvelope.Carries (final : FinalEnvelope stellar) (fee : UInt32)
    (sorobanData : stellar.SorobanTransactionData) : Prop where
  fee_eq : final.tx.fee = fee
  ext_eq : final.tx.ext = .v1 sorobanData

theorem tx_of_finalEnvelope {tx : Transaction stellar.ScVal stellar.SorobanAuthorizationEntry
    stellar.SorobanTransactionData} {final : FinalEnvelope stellar}
    (h : finalEnvelope tx = .ok final) : final.tx = tx := by
  rw [finalEnvelope] at h
  split at h
  · cases h
    rfl
  · cases h

theorem carries_of_finalEnvelope {source : AccountId} {fee : UInt32} {sequence : Int64}
    {memo : Memo}
    {body : OperationBody stellar.ScVal stellar.SorobanAuthorizationEntry}
    {sorobanData : stellar.SorobanTransactionData} {final : FinalEnvelope stellar}
    (h : finalEnvelope (operationTx source fee sequence memo body sorobanData) = .ok final) :
    final.Carries fee sorobanData := by
  have htx := tx_of_finalEnvelope h
  exact ⟨by rw [htx]; rfl, by rw [htx]; rfl⟩

theorem carries_of_buildUploadWasm {params : UploadWasmParams}
    {sorobanData : stellar.SorobanTransactionData}
    {authEntries : List stellar.SorobanAuthorizationEntry} {final : FinalEnvelope stellar}
    (h : buildUploadWasmTxWithDataAndAuth params sorobanData authEntries = .ok final) :
    final.Carries params.fee sorobanData := by
  obtain ⟨_, -, h⟩ := Except.bind_eq_ok_iff.mp h
  obtain ⟨_, -, h⟩ := Except.bind_eq_ok_iff.mp h
  obtain ⟨_, -, h⟩ := Except.bind_eq_ok_iff.mp h
  exact carries_of_finalEnvelope h

theorem carries_of_buildInvoke {params : InvokeTransactionParams}
    {sorobanData : stellar.SorobanTransactionData}
    {authEntries : List stellar.SorobanAuthorizationEntry} {final : FinalEnvelope stellar}
    (h : buildInvokeTransactionWithData params sorobanData authEntries = .ok final) :
    final.Carries params.fee sorobanData := by
  obtain ⟨_, -, h⟩ := Except.bind_eq_ok_iff.mp h
  obtain ⟨_, -, h⟩ := Except.bind_eq_ok_iff.mp h
  obtain ⟨_, -, h⟩ := Except.bind_eq_ok_iff.mp h
  obtain ⟨_, -, h⟩ := Except.bind_eq_ok_iff.mp h
  obtain ⟨_, -, h⟩ := Except.bind_eq_ok_iff.mp h
  exact carries_of_finalEnvelope h

theorem carries_of_buildExtendFootprint {params : ExtendFootprintParams}
    {sorobanData : stellar.SorobanTransactionData} {final : FinalEnvelope stellar}
    (h : buildExtendFootprintTxWithData params sorobanData = .ok final) :
    final.Carries params.fee sorobanData := by
  rw [buildExtendFootprintTxWithData] at h
  split at h
  · cases h
  · obtain ⟨_, -, h⟩ := Except.bind_eq_ok_iff.mp h
    exact carries_of_finalEnvelope h

theorem carries_of_buildRestoreFootprint {soroban : SorobanData stellar}
    {params : RestoreFootprintParams stellar} {final : FinalEnvelope stellar}
    (h : buildRestoreFootprintTx soroban params = .ok final) :
    final.Carries params.fee params.sorobanData := by
  rw [buildRestoreFootprintTx] at h
  split at h
  · cases h
  · split at h
    · cases h
    · obtain ⟨_, -, h⟩ := Except.bind_eq_ok_iff.mp h
      exact carries_of_finalEnvelope h

theorem carries_of_buildCreateFinal {params : CreateContractParams}
    {constructorArgs : Option (List String)} {sorobanData : stellar.SorobanTransactionData}
    {authEntries : List stellar.SorobanAuthorizationEntry} {final : FinalEnvelope stellar}
    (h : buildCreateFinal params constructorArgs sorobanData authEntries = .ok final) :
    final.Carries params.fee sorobanData := by
  obtain ⟨_, -, h⟩ := Except.bind_eq_ok_iff.mp h
  obtain ⟨_, -, h⟩ := Except.bind_eq_ok_iff.mp h
  obtain ⟨_, -, h⟩ := Except.bind_eq_ok_iff.mp h
  obtain ⟨_, -, h⟩ := Except.bind_eq_ok_iff.mp h
  have htx := tx_of_finalEnvelope h
  exact ⟨by rw [htx]; rfl, by rw [htx]; rfl⟩

/-! ### Creations -/

end Build

end SorobanDevkit.Xdr
