import SorobanDevkit.Library.Saturating
import SorobanDevkit.Rpc.Deploy
import SorobanDevkit.Xdr.FinalEnvelopes

/-!
# Fees

What is adopted of a simulation by the five paths of `sdkt-rpc` that sign a transaction:
`upload_wasm` and `create_contract` of `deploy.rs`, `simulate_invoke` with `prepare_invoke_envelope`
of `invoke.rs`, and `extend_footprint` and `restore_params_from_simulation` of `storage.rs`. Each
adds the inclusion fee to the resource fee that the simulation reports; only the last one looks at
the resource fee in the resource data.

A path is modelled from the answer of the simulation to the final envelope. Sums of the fees are
those of release builds, which wrap.
-/

namespace SorobanDevkit.Rpc

open Xdr

/-! ### Simulations -/

/-- `SimulateRestorePreamble`. -/
structure SimulateRestorePreamble where
  minResourceFee : String
  transactionData : String
  deriving DecidableEq

/-- `SimulateOperationResult`, as far as it is read. -/
structure SimulateOperationResult where
  auth : List String
  deriving DecidableEq

/-- `SimulateResponse`, as far as it is read. -/
structure SimulateResponse where
  transactionData : String
  minResourceFee : String
  restorePreamble : Option SimulateRestorePreamble
  results : List SimulateOperationResult
  error : Option String
  deriving DecidableEq

/-- The readers and the texts of crates. -/
structure SimulationCrates (stellar : Stellar) extends SorobanData stellar where
  readTransactionData : List UInt8 → Except String stellar.SorobanTransactionData
  readAuthorizationEntry : List UInt8 → Except String stellar.SorobanAuthorizationEntry
  /-- What is wrong with a text that is not base64. -/
  base64Error : String → String
  decodeErrorText : DecodeError → String
  /-- The debug format of a text. -/
  debugText : String → String

/-- `str::parse::<u64>`. -/
def parseU64 (s : String) : Option ℕ :=
  let digits := match s.toList with
    | '+' :: rest => rest
    | cs => cs
  if digits = [] ∨ digits.any (fun c => !c.isDigit) then none
  else
    let value := digits.foldl (fun n c => 10 * n + (c.toNat - '0'.toNat)) 0
    if value < 0x10000000000000000 then some value else none

section

variable {stellar : Stellar} (crates : SimulationCrates stellar)

/-- `parse_min_resource_fee` of `deploy.rs`. -/
def parseMinResourceFeeTrimmed (raw : String) : Except RpcError UInt32 :=
  let trimmed := Strings.trim raw
  match parseU64 trimmed with
  | none => .error (.rpc ("Simulation returned an invalid min_resource_fee: " ++
      crates.debugText trimmed ++ " (expected a numeric stroop value)"))
  | some value =>
    if value < 0x100000000 then .ok (UInt32.ofNat value)
    else .error (.rpc s!"Simulation min_resource_fee {value} exceeds the supported u32 fee range")

/-- `parse_min_resource_fee` of `invoke.rs` and of `storage.rs`. -/
def parseMinResourceFee (raw : String) : Except RpcError UInt32 :=
  match parseU64 raw with
  | none => .error (.rpc ("simulation returned invalid min_resource_fee: " ++ crates.debugText raw))
  | some parsed =>
    if parsed < 0x100000000 then .ok (UInt32.ofNat parsed)
    else .error (.rpc ("simulation min_resource_fee overflowed u32: " ++ raw))

/-- `parse_soroban_transaction_data`. -/
def parseSorobanTransactionData (base64Data : String) :
    Except DecodeError stellar.SorobanTransactionData :=
  match Base64.decode base64Data with
  | none => .error (.extraction ("Failed to decode SorobanTransactionData: " ++
      crates.base64Error base64Data))
  | some raw => (crates.readTransactionData raw).mapError (.xdrParse "SorobanTransactionData")

/-- `parse_soroban_authorization_entry`. -/
def parseSorobanAuthorizationEntry (base64Data : String) :
    Except DecodeError stellar.SorobanAuthorizationEntry :=
  match Base64.decode base64Data with
  | none => .error (.extraction ("Failed to decode SorobanAuthorizationEntry: " ++
      crates.base64Error base64Data))
  | some raw => (crates.readAuthorizationEntry raw).mapError (.xdrParse "SorobanAuthorizationEntry")

/-- An error of `sdkt_xdr` in a message. -/
def rpcError (message : String) (e : DecodeError) : RpcError :=
  .rpc (message ++ crates.decodeErrorText e)

/-- The authorization entries of the first result. -/
def authOf (simulation : SimulateResponse) :
    Except RpcError (List stellar.SorobanAuthorizationEntry) :=
  match simulation.results with
  | [] => .ok []
  | result :: _ => (result.auth.mapM (parseSorobanAuthorizationEntry crates)).mapError
      (rpcError crates "Failed to parse auth entries: ")

/-- The resource data and the fee of a simulation that succeeded. -/
def adopt (operation : String) (parseMin : String → Except RpcError UInt32)
    (simulation : SimulateResponse) : Except RpcError (stellar.SorobanTransactionData × UInt32) :=
  match simulation.error with
  | some err => .error (.rpc (operation ++ " simulation error: " ++ err))
  | none =>
    if simulation.transactionData = "" then
      .error (.rpc "Simulation did not return SorobanTransactionData")
    else do
      let sorobanData ← (parseSorobanTransactionData crates simulation.transactionData).mapError
        (rpcError crates "Failed to parse SorobanTransactionData: ")
      let minResourceFee ← parseMin simulation.minResourceFee
      .ok (sorobanData, minResourceFee)

/-! ### The five paths -/

/-- `upload_wasm`. -/
def finishUpload (wasmBytes : List UInt8) (sourceAccount : String) (sequence : Int64)
    (simulation : SimulateResponse) : Except RpcError (FinalEnvelope stellar) := do
  let (sorobanData, minResourceFee) ←
    adopt crates "Upload" (parseMinResourceFeeTrimmed crates) simulation
  let totalFee := 100 + minResourceFee
  let authEntries ← authOf crates simulation
  (buildUploadWasmTxWithDataAndAuth
    { sourceAccount, sequence, fee := totalFee, wasmBytes } sorobanData
    authEntries).mapError (rpcError crates "Failed to build final upload transaction: ")

/-- `create_contract`. -/
def finishCreate (args : CreateContractArgs) (sequence : Int64) (simulation : SimulateResponse) :
    Except RpcError (FinalEnvelope stellar) := do
  let (sorobanData, minResourceFee) ←
    adopt crates "Create" (parseMinResourceFeeTrimmed crates) simulation
  let totalFee := 100 + minResourceFee
  let authEntries ← authOf crates simulation
  let params : CreateContractParams :=
    { sourceAccount := args.deployerAddress, sequence, fee := totalFee, wasmHash := args.wasmHash
      deployerAddress := args.deployerAddress, salt := args.salt }
  if args.constructorArgs.isEmpty then
    (buildCreateFinal params none sorobanData authEntries).mapError
      (rpcError crates "Failed to build final create transaction: ")
  else
    (buildCreateFinal params (some args.constructorArgs) sorobanData authEntries).mapError
      (rpcError crates "Failed to build final create v2 transaction: ")

/-- `SimulatedInvoke`. -/
structure SimulatedInvoke (stellar : Stellar) where
  sorobanData : stellar.SorobanTransactionData
  authEntries : List stellar.SorobanAuthorizationEntry
  minResourceFee : UInt32
  totalFee : UInt32

/-- `simulate_invoke`. -/
def simulateInvoke (simulation : SimulateResponse) : Except RpcError (SimulatedInvoke stellar) := do
  let (sorobanData, minResourceFee) ← adopt crates "Invoke" (parseMinResourceFee crates) simulation
  let authEntries ← authOf crates simulation
  .ok { sorobanData, authEntries, minResourceFee, totalFee := Saturating.add 100 minResourceFee }

/-- `prepare_invoke_envelope`, to the final envelope. -/
def finishInvoke (params : InvokeTransactionParams) (sequence : Int64)
    (simulation : SimulateResponse) :
    Except RpcError (FinalEnvelope stellar) := do
  let simulated ← simulateInvoke crates simulation
  (buildInvokeTransactionWithData { params with sequence, fee := simulated.totalFee }
    simulated.sorobanData simulated.authEntries).mapError
      (rpcError crates "Failed to build final invoke transaction: ")

/-- `extend_footprint`. -/
def finishExtend (sourceAccount : String) (extendTo : UInt32) (footprintKeys : List String)
    (sequence : Int64) (simulation : SimulateResponse) : Except RpcError
      (FinalEnvelope stellar) := do
  let (sorobanData, minResourceFee) ← adopt crates "Extend" (parseMinResourceFee crates) simulation
  let totalFee := Saturating.add 100 minResourceFee
  (buildExtendFootprintTxWithData
    { sourceAccount, sequence, fee := totalFee, extendTo, footprintKeys }
    sorobanData).mapError (rpcError crates "Failed to build final extend transaction: ")

/-- The resource data of a restoration: their fee is raised to the reported one. -/
def raisedData (soroban : SorobanData stellar) (minResourceFee : UInt32)
    (sorobanData : stellar.SorobanTransactionData) : stellar.SorobanTransactionData :=
  if soroban.resourceFee sorobanData < Int64.ofNat minResourceFee.toNat then
    soroban.setResourceFee sorobanData (Int64.ofNat minResourceFee.toNat)
  else sorobanData

/-- `u32::try_from` on an `i64`. -/
def u32TryFrom (n : Int64) : Option UInt32 :=
  if 0 ≤ n.toInt ∧ n.toInt < 0x100000000 then some (UInt32.ofNat n.toInt.toNat) else none

/-- `restore_params_from_simulation`. -/
def restoreParamsFromSimulation (simulation : SimulateResponse) (sourceAccount : String)
    (sequence : Int64) : Except RpcError (RestoreFootprintParams stellar × UInt32) :=
  match simulation.restorePreamble with
  | none => .error (.rpc (match simulation.error with
    | some err => "Nothing to restore: simulation failed without a restore preamble: " ++ err
    | none => "Nothing to restore: simulation returned no restore preamble, " ++
        "so the contract state this invocation touches is live"))
  | some preamble => do
    let sorobanData ← (parseSorobanTransactionData crates preamble.transactionData).mapError
      fun e =>
      .rpc ("Restore preamble transactionData is malformed (" ++ crates.decodeErrorText e ++
        "); re-run the simulation against a healthy RPC node")
    if crates.footprintIsEmpty sorobanData then
      .error (.rpc "Restore preamble footprint is empty: no archived entries to restore")
    else
      let minResourceFee ← parseMinResourceFee crates preamble.minResourceFee
      let sorobanData := raisedData crates.toSorobanData minResourceFee sorobanData
      match u32TryFrom (crates.resourceFee sorobanData) with
      | some resourceFee =>
        .ok ({ sourceAccount, sequence, fee := Saturating.add 100 resourceFee, sorobanData },
          minResourceFee)
      | none => .error (.rpc ("Restore preamble resource fee out of range: " ++
          toString (crates.resourceFee sorobanData)))

/-- `restore_footprint`, to the final envelope. -/
def finishRestore (sourceAccount : String) (sequence : Int64) (simulation : SimulateResponse) :
    Except RpcError (FinalEnvelope stellar) := do
  let (params, _) ← restoreParamsFromSimulation crates simulation sourceAccount sequence
  (buildRestoreFootprintTx crates.toSorobanData params).mapError
    (rpcError crates "Failed to build restore transaction: ")

end

/-- A path with what is asked of it, apart from the sequence number. -/
inductive SigningPath
  | upload (wasmBytes : List UInt8) (sourceAccount : String)
  | create (args : CreateContractArgs)
  | invoke (params : InvokeTransactionParams)
  | extend (sourceAccount : String) (extendTo : UInt32) (footprintKeys : List String)
  | restore (sourceAccount : String)
  deriving DecidableEq

namespace SigningPath

/-- The text of the fee that a path reads in a simulation. -/
def reportedText (simulation : SimulateResponse) : SigningPath → Option String
  | upload .. | create .. => some (Strings.trim simulation.minResourceFee)
  | invoke .. | extend .. => some simulation.minResourceFee
  | restore .. => simulation.restorePreamble.map (·.minResourceFee)

/-- The resource fee that a simulation reports to a path. -/
def reportedFee (path : SigningPath) (simulation : SimulateResponse) : Option ℕ :=
  (path.reportedText simulation).bind parseU64

/-- The text of the resource data that a path reads in a simulation. -/
def dataText (simulation : SimulateResponse) : SigningPath → Option String
  | restore .. => simulation.restorePreamble.map (·.transactionData)
  | _ => some simulation.transactionData

variable {stellar : Stellar} (crates : SimulationCrates stellar)

/-- The final envelope of a path. -/
def finish (sequence : Int64) (simulation : SimulateResponse) :
    SigningPath → Except RpcError (FinalEnvelope stellar)
  | upload wasmBytes sourceAccount =>
    finishUpload crates wasmBytes sourceAccount sequence simulation
  | create args => finishCreate crates args sequence simulation
  | invoke params => finishInvoke crates params sequence simulation
  | extend sourceAccount extendTo footprintKeys =>
    finishExtend crates sourceAccount extendTo footprintKeys sequence simulation
  | restore sourceAccount => finishRestore crates sourceAccount sequence simulation

/-- The resource data that a simulation has for a path. -/
def reportedData (path : SigningPath) (simulation : SimulateResponse) :
    Option stellar.SorobanTransactionData :=
  (path.dataText simulation).bind fun text => (parseSorobanTransactionData crates text).toOption

/-- The fees for which the signed fee is large enough: the sum with the inclusion fee has 32 bits,
and, where the resource data keep their fee, it is at most the reported one. -/
def FeeFits (minResourceFee : ℕ) (resourceFee : ℤ) : SigningPath → Prop
  | restore .. => 100 + max (minResourceFee : ℤ) resourceFee < 0x100000000
  | _ => 100 + minResourceFee < 0x100000000 ∧ resourceFee ≤ minResourceFee

variable {crates}

theorem reportedFee_of_text {path : SigningPath} {simulation : SimulateResponse} {text : String}
    (h : path.reportedText simulation = some text) :
      path.reportedFee simulation = parseU64 text := by
  rw [reportedFee, h, Option.bind_some]

theorem reportedData_of_text {path : SigningPath} {simulation : SimulateResponse} {text : String}
    (h : path.dataText simulation = some text) {sorobanData : stellar.SorobanTransactionData}
    (hdata : parseSorobanTransactionData crates text = .ok sorobanData) :
    path.reportedData crates simulation = some sorobanData := by
  rw [reportedData, h, Option.bind_some, Except.toOption_eq_some_iff]
  exact hdata

end SigningPath

section Covers

variable {stellar : Stellar} {crates : SimulationCrates stellar}

/-- The fee of an envelope is at least the inclusion fee and the reported resource fee, and at least
the inclusion fee and the resource fee in the adopted resource data. -/
structure Covers (soroban : SorobanData stellar) (final : FinalEnvelope stellar)
    (minResourceFee : ℕ) : Prop where
  reported : 100 + minResourceFee ≤ final.tx.fee.toNat
  adopted : ∃ sorobanData, final.tx.ext = .v1 sorobanData ∧
    100 + (soroban.resourceFee sorobanData).toInt ≤ final.tx.fee.toNat

theorem parseMinResourceFee_ok {raw : String} {minResourceFee : UInt32}
    (h : parseMinResourceFee crates raw = .ok minResourceFee) :
    parseU64 raw = some minResourceFee.toNat := by
  rw [parseMinResourceFee] at h
  split at h
  · cases h
  · next value hvalue =>
    split at h
    · next hlt =>
      rw [hvalue, ← Except.ok.inj h, UInt32.toNat_ofNat_of_lt' hlt]
    · cases h

theorem parseMinResourceFeeTrimmed_ok {raw : String} {minResourceFee : UInt32}
    (h : parseMinResourceFeeTrimmed crates raw = .ok minResourceFee) :
    parseU64 (Strings.trim raw) = some minResourceFee.toNat := by
  rw [parseMinResourceFeeTrimmed] at h
  split at h
  · cases h
  · next value hvalue =>
    split at h
    · next hlt =>
      rw [hvalue, ← Except.ok.inj h, UInt32.toNat_ofNat_of_lt' hlt]
    · cases h

theorem adopt_ok {operation : String} {parseMin : String → Except RpcError UInt32}
    {simulation : SimulateResponse} {sorobanData : stellar.SorobanTransactionData}
    {minResourceFee : UInt32}
    (h : adopt crates operation parseMin simulation = .ok (sorobanData, minResourceFee)) :
    parseSorobanTransactionData crates simulation.transactionData = .ok sorobanData ∧
      parseMin simulation.minResourceFee = .ok minResourceFee := by
  rw [adopt] at h
  split at h
  · cases h
  · split at h
    · cases h
    · obtain ⟨data, hdata, h⟩ := Except.bind_eq_ok_iff.mp h
      obtain ⟨min, hmin, h⟩ := Except.bind_eq_ok_iff.mp h
      cases h
      exact ⟨Except.mapError_eq_ok_iff.mp hdata, hmin⟩

/-! ### The final envelopes -/

/-- What a path other than the restoration adopts: the fee that the simulation reports, in the sum
with the inclusion fee that the path makes, and the resource data. -/
structure Adopts (crates : SimulationCrates stellar) (path : SigningPath)
    (simulation : SimulateResponse) (add : UInt32 → UInt32 → UInt32) (final : FinalEnvelope stellar)
    (minResourceFee : UInt32) (sorobanData : stellar.SorobanTransactionData) : Prop where
  fee_eq : path.reportedFee simulation = some minResourceFee.toNat
  data_eq : path.reportedData crates simulation = some sorobanData
  carries : final.Carries (add 100 minResourceFee) sorobanData

theorem finishUpload_adopts {wasmBytes : List UInt8} {sourceAccount : String} {sequence : Int64}
    {simulation : SimulateResponse} {final : FinalEnvelope stellar}
    (h : finishUpload crates wasmBytes sourceAccount sequence simulation = .ok final) :
    ∃ minResourceFee sorobanData, Adopts crates (.upload wasmBytes sourceAccount) simulation
      (· + ·) final minResourceFee sorobanData := by
  obtain ⟨⟨sorobanData, minResourceFee⟩, hadopt, h⟩ := Except.bind_eq_ok_iff.mp h
  obtain ⟨authEntries, -, h⟩ := Except.bind_eq_ok_iff.mp h
  obtain ⟨hdata, hmin⟩ := adopt_ok hadopt
  exact ⟨minResourceFee, sorobanData,
    (SigningPath.reportedFee_of_text rfl).trans (parseMinResourceFeeTrimmed_ok hmin),
    SigningPath.reportedData_of_text rfl hdata,
    carries_of_buildUploadWasm (Except.mapError_eq_ok_iff.mp h)⟩

theorem finishCreate_adopts {args : CreateContractArgs} {sequence : Int64}
    {simulation : SimulateResponse} {final : FinalEnvelope stellar}
    (h : finishCreate crates args sequence simulation = .ok final) :
    ∃ minResourceFee sorobanData,
      Adopts crates (.create args) simulation (· + ·) final minResourceFee sorobanData := by
  obtain ⟨⟨sorobanData, minResourceFee⟩, hadopt, h⟩ := Except.bind_eq_ok_iff.mp h
  obtain ⟨authEntries, -, h⟩ := Except.bind_eq_ok_iff.mp h
  obtain ⟨hdata, hmin⟩ := adopt_ok hadopt
  refine ⟨minResourceFee, sorobanData,
    (SigningPath.reportedFee_of_text rfl).trans (parseMinResourceFeeTrimmed_ok hmin),
    SigningPath.reportedData_of_text rfl hdata, ?_⟩
  split at h
  · exact carries_of_buildCreateFinal (Except.mapError_eq_ok_iff.mp h)
  · exact carries_of_buildCreateFinal (Except.mapError_eq_ok_iff.mp h)

theorem finishInvoke_adopts {params : InvokeTransactionParams} {sequence : Int64}
    {simulation : SimulateResponse} {final : FinalEnvelope stellar}
    (h : finishInvoke crates params sequence simulation = .ok final) :
    ∃ minResourceFee sorobanData,
      Adopts crates (.invoke params) simulation Saturating.add final minResourceFee
        sorobanData := by
  obtain ⟨simulated, hsimulated, h⟩ := Except.bind_eq_ok_iff.mp h
  obtain ⟨⟨sorobanData, minResourceFee⟩, hadopt, hsimulated⟩ := Except.bind_eq_ok_iff.mp hsimulated
  obtain ⟨authEntries, -, hsimulated⟩ := Except.bind_eq_ok_iff.mp hsimulated
  obtain ⟨hdata, hmin⟩ := adopt_ok hadopt
  cases hsimulated
  exact ⟨minResourceFee, sorobanData,
    (SigningPath.reportedFee_of_text rfl).trans (parseMinResourceFee_ok hmin),
    SigningPath.reportedData_of_text rfl hdata,
    carries_of_buildInvoke (Except.mapError_eq_ok_iff.mp h)⟩

theorem finishExtend_adopts {sourceAccount : String} {extendTo : UInt32}
    {footprintKeys : List String}
    {sequence : Int64} {simulation : SimulateResponse} {final : FinalEnvelope stellar}
    (h : finishExtend crates sourceAccount extendTo footprintKeys sequence simulation = .ok final) :
    ∃ minResourceFee sorobanData, Adopts crates (.extend sourceAccount extendTo footprintKeys)
      simulation Saturating.add final minResourceFee sorobanData := by
  obtain ⟨⟨sorobanData, minResourceFee⟩, hadopt, h⟩ := Except.bind_eq_ok_iff.mp h
  obtain ⟨hdata, hmin⟩ := adopt_ok hadopt
  exact ⟨minResourceFee, sorobanData,
    (SigningPath.reportedFee_of_text rfl).trans (parseMinResourceFee_ok hmin),
    SigningPath.reportedData_of_text rfl hdata,
    carries_of_buildExtendFootprint (Except.mapError_eq_ok_iff.mp h)⟩

theorem toInt_ofNat_u32 (n : UInt32) : (Int64.ofNat n.toNat).toInt = n.toNat := by
  have hlt := n.toNat_lt
  rw [Int64.toInt_ofNat_of_lt (by omega)]

theorem toInt_of_u32TryFrom {n : Int64} {m : UInt32} (h : u32TryFrom n = some m) :
    (m.toNat : ℤ) = n.toInt := by
  rw [u32TryFrom] at h
  split at h
  · next hrange =>
    have hlt : n.toInt.toNat < 0x100000000 := by omega
    rw [← Option.some.inj h, UInt32.toNat_ofNat_of_lt' hlt]
    omega
  · cases h

theorem resourceFee_raisedData (soroban : SorobanData stellar) (minResourceFee : UInt32)
    (sorobanData : stellar.SorobanTransactionData) :
    (soroban.resourceFee (raisedData soroban minResourceFee sorobanData)).toInt =
      max (minResourceFee.toNat : ℤ) (soroban.resourceFee sorobanData).toInt := by
  rw [raisedData]
  split
  · next hlt =>
    rw [Int64.lt_iff_toInt_lt, toInt_ofNat_u32] at hlt
    rw [soroban.resourceFee_set, toInt_ofNat_u32]
    omega
  · next hle =>
    rw [Int64.lt_iff_toInt_lt, toInt_ofNat_u32] at hle
    omega

/-- What a restoration adopts: the resource data with their fee raised, and that fee in the sum. -/
theorem finishRestore_adopts {sourceAccount : String} {sequence : Int64}
    {simulation : SimulateResponse} {final : FinalEnvelope stellar}
    (h : finishRestore crates sourceAccount sequence simulation = .ok final) :
    ∃ minResourceFee sorobanData,
      (SigningPath.restore sourceAccount).reportedFee simulation =
        some (UInt32.toNat minResourceFee) ∧
      (SigningPath.restore sourceAccount).reportedData crates simulation = some sorobanData ∧
      final.tx.ext = .v1 (raisedData crates.toSorobanData minResourceFee sorobanData) ∧
      (final.tx.fee.toNat : ℤ) = min (100 + max (minResourceFee.toNat : ℤ)
        (crates.resourceFee sorobanData).toInt) 0xffffffff := by
  obtain ⟨⟨params, reported⟩, hparams, h⟩ := Except.bind_eq_ok_iff.mp h
  have hcarries := carries_of_buildRestoreFootprint (Except.mapError_eq_ok_iff.mp h)
  rw [restoreParamsFromSimulation] at hparams
  split at hparams
  · cases hparams
  · next preamble hpreamble =>
    obtain ⟨sorobanData, hdata, hparams⟩ := Except.bind_eq_ok_iff.mp hparams
    split at hparams
    · cases hparams
    · obtain ⟨minResourceFee, hmin, hparams⟩ := Except.bind_eq_ok_iff.mp hparams
      simp only at hparams
      split at hparams
      · next resourceFee hresourceFee =>
        cases hparams
        refine ⟨reported, sorobanData, ?_, ?_, hcarries.ext_eq, ?_⟩
        · have htext : (SigningPath.restore sourceAccount).reportedText simulation =
              some preamble.minResourceFee := by
            rw [SigningPath.reportedText, hpreamble, Option.map_some]
          exact (SigningPath.reportedFee_of_text htext).trans (parseMinResourceFee_ok hmin)
        · have htext : (SigningPath.restore sourceAccount).dataText simulation =
              some preamble.transactionData := by
            rw [SigningPath.dataText, hpreamble, Option.map_some]
          exact SigningPath.reportedData_of_text htext (Except.mapError_eq_ok_iff.mp hdata)
        · have hincl : (100 : UInt32).toNat = 100 := rfl
          rw [hcarries.fee_eq, Saturating.toNat_add, hincl, ← resourceFee_raisedData,
            ← toInt_of_u32TryFrom hresourceFee]
          omega
      · cases hparams

/-! ### When the fee covers what was simulated -/

theorem covers_iff {soroban : SorobanData stellar} {final : FinalEnvelope stellar}
    {minResourceFee : ℕ}
    {sorobanData : stellar.SorobanTransactionData} (hext : final.tx.ext = .v1 sorobanData) :
    Covers soroban final minResourceFee ↔ 100 + minResourceFee ≤ final.tx.fee.toNat ∧
      100 + (soroban.resourceFee sorobanData).toInt ≤ final.tx.fee.toNat := by
  constructor
  · rintro ⟨hreported, data, hdata, hadopted⟩
    cases hext.symm.trans hdata
    exact ⟨hreported, hadopted⟩
  · rintro ⟨hreported, hadopted⟩
    exact ⟨hreported, sorobanData, hext, hadopted⟩

/-- A sum of 32 bits that wraps covers both fees exactly when it does not wrap and the reported fee
is at least the one of the resource data. -/
theorem covers_iff_of_wrapping {soroban : SorobanData stellar} {final : FinalEnvelope stellar}
    {minResourceFee : UInt32} {sorobanData : stellar.SorobanTransactionData}
    (h : final.Carries (100 + minResourceFee) sorobanData) :
    Covers soroban final minResourceFee.toNat ↔ 100 + minResourceFee.toNat < 0x100000000 ∧
      (soroban.resourceFee sorobanData).toInt ≤ minResourceFee.toNat := by
  have hlt := minResourceFee.toNat_lt
  have hincl : (100 : UInt32).toNat = 100 := rfl
  rw [covers_iff h.ext_eq, h.fee_eq, UInt32.toNat_add, hincl]
  omega

/-- A sum that saturates does so in the same cases. -/
theorem covers_iff_of_saturating {soroban : SorobanData stellar} {final : FinalEnvelope stellar}
    {minResourceFee : UInt32} {sorobanData : stellar.SorobanTransactionData}
    (h : final.Carries (Saturating.add 100 minResourceFee) sorobanData) :
    Covers soroban final minResourceFee.toNat ↔ 100 + minResourceFee.toNat < 0x100000000 ∧
      (soroban.resourceFee sorobanData).toInt ≤ minResourceFee.toNat := by
  have hincl : (100 : UInt32).toNat = 100 := rfl
  rw [covers_iff h.ext_eq, h.fee_eq, Saturating.toNat_add, hincl]
  omega

/-- **The signed fee covers what was simulated exactly when the fees fit.** Where a path proceeds,
the simulation reports a resource fee and resource data to it; the fee of the final envelope is, as
a number, large enough for both if and only if the sums have 32 bits and, where the path keeps the
resource data as they are, their resource fee is at most the reported one. -/
theorem fee_covers_iff (crates : SimulationCrates stellar) (path : SigningPath) (sequence : Int64)
    (simulation : SimulateResponse) (final : FinalEnvelope stellar)
    (h : path.finish crates sequence simulation = .ok final) :
    ∃ minResourceFee sorobanData, path.reportedFee simulation = some minResourceFee ∧
      path.reportedData crates simulation = some sorobanData ∧
      (Covers crates.toSorobanData final minResourceFee ↔
        path.FeeFits minResourceFee (crates.resourceFee sorobanData).toInt) := by
  cases path with
  | upload wasmBytes sourceAccount =>
    obtain ⟨minResourceFee, sorobanData, hadopts⟩ := finishUpload_adopts h
    exact ⟨_, sorobanData, hadopts.fee_eq, hadopts.data_eq, covers_iff_of_wrapping hadopts.carries⟩
  | create args =>
    obtain ⟨minResourceFee, sorobanData, hadopts⟩ := finishCreate_adopts h
    exact ⟨_, sorobanData, hadopts.fee_eq, hadopts.data_eq, covers_iff_of_wrapping hadopts.carries⟩
  | invoke params =>
    obtain ⟨minResourceFee, sorobanData, hadopts⟩ := finishInvoke_adopts h
    exact ⟨_, sorobanData, hadopts.fee_eq, hadopts.data_eq,
      covers_iff_of_saturating hadopts.carries⟩
  | extend sourceAccount extendTo footprintKeys =>
    obtain ⟨minResourceFee, sorobanData, hadopts⟩ := finishExtend_adopts h
    exact ⟨_, sorobanData, hadopts.fee_eq, hadopts.data_eq,
      covers_iff_of_saturating hadopts.carries⟩
  | restore sourceAccount =>
    obtain ⟨minResourceFee, sorobanData, hmin, hdata, hext, hfee⟩ := finishRestore_adopts h
    refine ⟨_, sorobanData, hmin, hdata, ?_⟩
    rw [covers_iff hext, resourceFee_raisedData, SigningPath.FeeFits]
    omega

end Covers

section ZeroAccount

/-- The XDR of the key of the instance of a contract. -/
def instanceKeyXdr : List UInt8 := word 6 ++ word 1 ++ zeroBytes 32 ++ word 20 ++ word 1

/-- The XDR of resources with the key in the read-only part of the footprint. -/
def feeResourcesXdr : List UInt8 :=
  word 0 ++ word 1 ++ instanceKeyXdr ++ word 0 ++ zeroBytes 12

/-- The XDR of resource data with a fee. -/
def feeDataXdr (resourceFee : Int64) : List UInt8 :=
  feeResourcesXdr ++ bigEndian 8 resourceFee.toUInt64.toNat

/-- The XDR of an envelope of the account whose key is zero, with one operation. -/
def feeEnvelopeXdr (fee : UInt32) (sequence : Int64) (body : List UInt8) (resourceFee : Int64) :
    List UInt8 :=
  word 2 ++ word 0 ++ zeroBytes 32 ++ bigEndian 4 fee.toNat ++
    bigEndian 8 sequence.toUInt64.toNat ++
    word 0 ++ word 0 ++ word 1 ++ word 0 ++ body ++ word 1 ++ feeDataXdr resourceFee ++ word 0

/-- The crates on transactions of the account that create and invoke nothing, where resource data
differ in the fee. -/
def feeStellar : Stellar where
  ScVal := UInt32
  SorobanAuthorizationEntry := Unit
  SorobanTransactionData := Int64
  strkey := zeroStellar.strkey
  readScVal := zeroStellar.readScVal
  writeEnvelope := fun envelope => match envelope with
    | .tx tx signatures =>
      if tx.sourceAccount = .ed25519 (Vector.replicate 32 0) ∧ tx.cond = .none ∧ tx.memo = .none ∧
          signatures = .default then
        match tx.operations.items, tx.ext with
        | [⟨none, .other body⟩], .v1 resourceFee =>
          .ok (feeEnvelopeXdr tx.fee tx.seqNum body resourceFee)
        | _, _ => .error "length limit exceeded"
      else .error "length limit exceeded"
    | .other bytes => .ok bytes
  readEnvelope := fun _ => .error "xdr value invalid"
  writeHashIdPreimage := zeroStellar.writeHashIdPreimage
  sha256 := zeroStellar.sha256

/-- The crates that read a simulation. -/
def feeCrates : SimulationCrates feeStellar where
  resourceFee := fun resourceFee => resourceFee
  setResourceFee := fun _ resourceFee => resourceFee
  footprintIsEmpty := fun _ => false
  resourceFee_set := fun _ _ => rfl
  readTransactionData := fun bytes =>
    if bytes.length = 80 ∧ bytes.take 72 = feeResourcesXdr then
      .ok (UInt64.ofNat (ofBigEndian (bytes.drop 72))).toInt64
    else .error "xdr value invalid"
  readAuthorizationEntry := fun _ => .error "xdr value invalid"
  base64Error := fun _ => "Invalid padding"
  decodeErrorText := fun _ => ""
  debugText := fun s => "\"" ++ s ++ "\""

/-- A simulation that reports a fee and has resource data with a fee. -/
def feeSimulation (minResourceFee : String) (resourceFee : Int64) : SimulateResponse where
  transactionData := Base64.encode (feeDataXdr resourceFee)
  minResourceFee := minResourceFee
  restorePreamble := none
  results := []
  error := none

/-- The account extends the life of the instance of the contract. -/
def extendZero : SigningPath :=
  .extend zeroParams.sourceAccount 100 [Base64.encode instanceKeyXdr]

/-- The final envelope of the extension for a fee. -/
def extendZeroFinal (fee : UInt32) (resourceFee : Int64) : FinalEnvelope feeStellar where
  tx := operationTx ⟨.ed25519 (Vector.replicate 32 0)⟩ fee 1 .none
    (.other (extendFootprintTtlXdr 100))
    resourceFee
  xdr := Base64.encode (feeEnvelopeXdr fee 1 (extendFootprintTtlXdr 100) resourceFee)
  encoded := rfl

/-- The fee of 1100 covers a reported fee and a fee of the resource data of 1000. -/
theorem fee_covers_iff_extendZero :
    Covers feeCrates.toSorobanData (extendZeroFinal 1100 1000) 1000 := by
  obtain ⟨minResourceFee, resourceFee, hmin, hdata, hcovers⟩ :=
    fee_covers_iff feeCrates extendZero 1 (feeSimulation "1000" 1000)
      (extendZeroFinal 1100 1000) rfl
  obtain rfl : minResourceFee = 1000 := Option.some.inj (hmin.symm.trans rfl)
  obtain rfl : resourceFee = (1000 : Int64) := Option.some.inj (hdata.symm.trans rfl)
  exact hcovers.mpr ⟨by decide, by decide⟩

/-- It does not cover a fee of the resource data of 2000, and no fee covers a reported fee of 32
ones. -/
theorem extendZero_not_covered :
    (extendZero.finish feeCrates 1 (feeSimulation "1000" 2000) = .ok (extendZeroFinal 1100 2000) ∧
      ¬ Covers feeCrates.toSorobanData (extendZeroFinal 1100 2000) 1000) ∧
    (extendZero.finish feeCrates 1 (feeSimulation "4294967295" 0) =
        .ok (extendZeroFinal 4294967295 0) ∧
      ¬ Covers feeCrates.toSorobanData (extendZeroFinal 4294967295 0) 4294967295) := by
  refine ⟨⟨rfl, ?_⟩, rfl, ?_⟩
  · rintro ⟨-, resourceFee, hext, hle⟩
    cases hext
    exact absurd hle (by decide)
  · rintro ⟨hle, -⟩
    exact absurd hle (by decide)

end ZeroAccount

end SorobanDevkit.Rpc
