import SorobanDevkit.Library.Base64
import SorobanDevkit.Library.Fallible
import SorobanDevkit.Library.Sha256
import SorobanDevkit.Xdr.Encoding
import SorobanDevkit.Xdr.Network

/-!
# Building transactions that create contracts

`sdkt-xdr/src/builder.rs` assembles the transaction that is simulated, the one that is submitted
with the resource data of the simulation, and the one that also has authorization entries, for the
host functions `CreateContract` and `CreateContractV2`; `derive_contract_id` predicts the id of the
contract.
-/

namespace SorobanDevkit.Xdr

/-- `DecodeError`, as far as the builders raise it. What is wrong with a base64 text is left out. -/
inductive DecodeError
  | base64
  | xdrParse (type error : String)
  | xdrWrite (error : String)
  | extraction (message : String)

/-- `CreateContractParams`. -/
structure CreateContractParams where
  sourceAccount : String
  sequence : Int64
  fee : UInt32
  wasmHash : Bytes32
  deployerAddress : String
  salt : Vector UInt8 20

/-- `CreateContractV2Params`. -/
structure CreateContractV2Params extends CreateContractParams where
  constructorArgs : List String

section Build

variable (stellar : Stellar)

/-! ### The parts of a transaction -/

/-- `decode_account_id`. -/
def decodeAccountId (pubkey : String) : Except DecodeError AccountId :=
  match stellar.strkey pubkey with
  | .error e => .error (.extraction ("Invalid public key: " ++ e))
  | .ok (.publicKeyEd25519 key) => .ok ⟨.ed25519 key⟩
  | .ok _ => .error (.extraction "Expected ED25519 Public Key")

/-- The body of the loop of `parse_scval_args`. -/
def parseScvalArg (arg : String) : Except DecodeError stellar.ScVal :=
  match Base64.decode arg with
  | none => .error .base64
  | some raw => (stellar.readScVal raw).mapError (.xdrParse "ScVal arg")

/-- `parse_scval_args`. -/
def parseScvalArgs (args : List String) : Except DecodeError (VecM u32Max stellar.ScVal) := do
  let vals ← args.mapM (parseScvalArg stellar)
  match VecM.tryFrom vals with
  | some vals => .ok vals
  | none => .error (.extraction "Too many arguments")

/-- The authorization entries as a vector. -/
def authVec (authEntries : List stellar.SorobanAuthorizationEntry) :
    Except DecodeError (VecM u32Max stellar.SorobanAuthorizationEntry) :=
  match VecM.tryFrom authEntries with
  | some auth => .ok auth
  | none => .error (.extraction "Too many auth entries")

/-- The salt with zeros after its 20 bytes. -/
def paddedSalt (salt : Vector UInt8 20) : Bytes32 := salt ++ Vector.replicate 12 (0 : UInt8)

/-- The preimage of the id of the contract that a deployer creates with a salt. -/
def addressPreimage (deployer : AccountId) (salt : Vector UInt8 20) : ContractIdPreimage :=
  .address (.account ⟨match deployer.key with | .ed25519 key => .ed25519 key⟩) (paddedSalt salt)

/-- The source account of a transaction. -/
def muxedFromAccount (account : AccountId) : MuxedAccount :=
  match account.key with
  | .ed25519 key => .ed25519 key

/-- The unsigned envelope of a transaction in base64. -/
def encodeEnvelope (tx : Transaction stellar.ScVal stellar.SorobanAuthorizationEntry
    stellar.SorobanTransactionData) : Except DecodeError String :=
  match stellar.writeEnvelope (.tx tx .default) with
  | .error e => .error (.xdrWrite e)
  | .ok bytes => .ok (Base64.encode bytes)

/-- The transaction with one operation that creates a contract. -/
def createContractTx (params : CreateContractParams) (source : AccountId)
    (hostFunction : HostFunction stellar.ScVal)
    (auth : VecM u32Max stellar.SorobanAuthorizationEntry)
    (ext : TransactionExt stellar.SorobanTransactionData) :
    Transaction stellar.ScVal stellar.SorobanAuthorizationEntry stellar.SorobanTransactionData where
  sourceAccount := muxedFromAccount source
  fee := params.fee
  seqNum := params.sequence
  cond := .none
  memo := .none
  operations := ⟨[⟨none, .invokeHostFunction ⟨hostFunction, auth⟩⟩], by simp⟩
  ext := ext

/-! ### The builders -/

/-- The builders for `CreateContract`, with the authorization entries and the extension. -/
def createContract (params : CreateContractParams)
    (authEntries : List stellar.SorobanAuthorizationEntry)
    (ext : TransactionExt stellar.SorobanTransactionData) : Except DecodeError String := do
  let source ← decodeAccountId stellar params.sourceAccount
  let deployer ← decodeAccountId stellar params.deployerAddress
  let preimage := addressPreimage deployer params.salt
  let auth ← authVec stellar authEntries
  let hostFunction := .createContract preimage (.wasm params.wasmHash)
  encodeEnvelope stellar (createContractTx stellar params source hostFunction auth ext)

/-- The builders for `CreateContractV2`, which parse the arguments after the authorization
entries. -/
def createContractV2 (params : CreateContractV2Params)
    (authEntries : List stellar.SorobanAuthorizationEntry)
    (ext : TransactionExt stellar.SorobanTransactionData) : Except DecodeError String := do
  let source ← decodeAccountId stellar params.sourceAccount
  let deployer ← decodeAccountId stellar params.deployerAddress
  let preimage := addressPreimage deployer params.salt
  let auth ← authVec stellar authEntries
  let constructorArgs ← parseScvalArgs stellar params.constructorArgs
  let hostFunction := .createContractV2 preimage (.wasm params.wasmHash) constructorArgs
  encodeEnvelope stellar
    (createContractTx stellar params.toCreateContractParams source hostFunction auth ext)

/-- `build_create_contract_tx`. -/
def buildCreateContractTx (params : CreateContractParams) : Except DecodeError String :=
  createContract stellar params [] .v0

/-- `build_create_contract_tx_with_data`. -/
def buildCreateContractTxWithData (params : CreateContractParams)
    (sorobanData : stellar.SorobanTransactionData) : Except DecodeError String :=
  createContract stellar params [] (.v1 sorobanData)

/-- `build_create_contract_tx_with_data_and_auth`. -/
def buildCreateContractTxWithDataAndAuth (params : CreateContractParams)
    (sorobanData : stellar.SorobanTransactionData)
    (authEntries : List stellar.SorobanAuthorizationEntry) : Except DecodeError String :=
  createContract stellar params authEntries (.v1 sorobanData)

/-- `build_create_contract_v2_tx`. -/
def buildCreateContractV2Tx (params : CreateContractV2Params) : Except DecodeError String :=
  createContractV2 stellar params [] .v0

/-- `build_create_contract_v2_tx_with_data`. -/
def buildCreateContractV2TxWithData (params : CreateContractV2Params)
    (sorobanData : stellar.SorobanTransactionData) : Except DecodeError String :=
  createContractV2 stellar params [] (.v1 sorobanData)

/-- `build_create_contract_v2_tx_with_data_and_auth`. -/
def buildCreateContractV2TxWithDataAndAuth (params : CreateContractV2Params)
    (sorobanData : stellar.SorobanTransactionData)
    (authEntries : List stellar.SorobanAuthorizationEntry) : Except DecodeError String :=
  createContractV2 stellar params authEntries (.v1 sorobanData)

/-! ### The predicted id -/

/-- `hex::encode`. -/
def hexEncode (bytes : List UInt8) : String :=
  String.ofList (bytes.flatMap fun b => [(b.toNat / 16).digitChar, (b.toNat % 16).digitChar])

/-- The id of a contract: the hash of the encoded preimage of a network. -/
def contractIdOf (networkId : Bytes32) (preimage : ContractIdPreimage) :
    Except DecodeError String :=
  match stellar.writeHashIdPreimage (.contractId networkId preimage) with
  | .error e => .error (.xdrWrite e)
  | .ok bytes => .ok (hexEncode (stellar.sha256 bytes).toList)

/-- `derive_contract_id`. The hash of the code is not used. -/
def deriveContractId (networkId : Bytes32) (deployerAddress : String) (salt : Vector UInt8 20)
    (_wasmHash : Bytes32) : Except DecodeError String := do
  let deployer ← decodeAccountId stellar deployerAddress
  contractIdOf stellar networkId (addressPreimage deployer salt)

end Build

/-! ### What the builders have in common -/

section Erase

variable {ScVal SorobanAuthorizationEntry SorobanTransactionData : Type}

/-- The host function without constructor arguments, as one that creates a contract in either
way. -/
def HostFunction.withoutArgs : HostFunction ScVal → HostFunction ScVal
  | .createContractV2 preimage executable _ => .createContract preimage executable
  | hostFunction => hostFunction

/-- The operation without authorization entries. -/
def Operation.withoutAuth (op : Operation ScVal SorobanAuthorizationEntry) :
    Operation ScVal SorobanAuthorizationEntry :=
  match op.body with
  | .invokeHostFunction invoke =>
    { op with body := .invokeHostFunction { invoke with auth := .default } }
  | .other _ => op

/-- The operation without constructor arguments. -/
def Operation.withoutArgs (op : Operation ScVal SorobanAuthorizationEntry) :
    Operation ScVal SorobanAuthorizationEntry :=
  match op.body with
  | .invokeHostFunction invoke =>
    { op with
      body := .invokeHostFunction
        { invoke with hostFunction := invoke.hostFunction.withoutArgs } }
  | .other _ => op

/-- The transaction without its extension and its authorization entries. -/
def Transaction.withoutExtAuth
    (tx : Transaction ScVal SorobanAuthorizationEntry SorobanTransactionData) :
    Transaction ScVal SorobanAuthorizationEntry SorobanTransactionData :=
  { tx with operations := tx.operations.map Operation.withoutAuth, ext := .v0 }

/-- The transaction without its extension, its authorization entries and its constructor
arguments. -/
def Transaction.withoutExtAuthArgs
    (tx : Transaction ScVal SorobanAuthorizationEntry SorobanTransactionData) :
    Transaction ScVal SorobanAuthorizationEntry SorobanTransactionData :=
  { tx.withoutExtAuth with
    operations := tx.withoutExtAuth.operations.map Operation.withoutArgs }

/-- The preimage of the contract that a host function creates. -/
def HostFunction.contractIdPreimage : HostFunction ScVal → Option ContractIdPreimage
  | .createContract preimage _ => some preimage
  | .createContractV2 preimage _ _ => some preimage
  | _ => none

/-- The preimages of the contracts that a transaction creates. -/
def Transaction.contractIdPreimages
    (tx : Transaction ScVal SorobanAuthorizationEntry SorobanTransactionData) :
    List ContractIdPreimage :=
  tx.operations.items.filterMap fun op =>
    match op.body with
    | .invokeHostFunction invoke => invoke.hostFunction.contractIdPreimage
    | .other _ => none

end Erase

section Agreement

variable (stellar : Stellar)

/-- What a transaction is built for: to be simulated, or to be submitted with the resource data of
the simulation, and maybe with authorization entries. -/
inductive Stage
  | simulation
  | withData (sorobanData : stellar.SorobanTransactionData)
  | withDataAndAuth (sorobanData : stellar.SorobanTransactionData)
      (authEntries : List stellar.SorobanAuthorizationEntry)

/-- The builder of a stage, for `CreateContract` or, with constructor arguments, for
`CreateContractV2`. -/
def buildCreate (params : CreateContractParams) :
    Option (List String) → Stage stellar → Except DecodeError String
  | none, .simulation => buildCreateContractTx stellar params
  | none, .withData data => buildCreateContractTxWithData stellar params data
  | none, .withDataAndAuth data auth =>
    buildCreateContractTxWithDataAndAuth stellar params data auth
  | some args, .simulation => buildCreateContractV2Tx stellar ⟨params, args⟩
  | some args, .withData data => buildCreateContractV2TxWithData stellar ⟨params, args⟩ data
  | some args, .withDataAndAuth data auth =>
    buildCreateContractV2TxWithDataAndAuth stellar ⟨params, args⟩ data auth

variable {stellar}

/-- The extension of the transactions of a stage. -/
def Stage.ext : Stage stellar → TransactionExt stellar.SorobanTransactionData
  | .simulation => .v0
  | .withData data => .v1 data
  | .withDataAndAuth data _ => .v1 data

/-- The authorization entries of the transactions of a stage. -/
def Stage.auth : Stage stellar → List stellar.SorobanAuthorizationEntry
  | .simulation => []
  | .withData _ => []
  | .withDataAndAuth _ auth => auth

/-- The transaction in a base64 envelope without signatures. -/
def Encodes (stellar : Stellar) (envelope : String)
    (tx : Transaction stellar.ScVal stellar.SorobanAuthorizationEntry
      stellar.SorobanTransactionData) : Prop :=
  ∃ bytes, Base64.decode envelope = some bytes ∧
    stellar.readEnvelope bytes = .ok (.tx tx .default)

theorem encodes_of_encodeEnvelope (hstellar : stellar.Documented) {envelope : String}
    {tx : Transaction stellar.ScVal stellar.SorobanAuthorizationEntry
      stellar.SorobanTransactionData}
    (h : encodeEnvelope stellar tx = .ok envelope) : Encodes stellar envelope tx := by
  rw [encodeEnvelope] at h
  split at h
  · cases h
  · next bytes hwrite =>
    cases h
    exact ⟨bytes, Base64.decode_encode bytes, hstellar.read_envelope _ _ hwrite⟩

theorem authVec_ok {authEntries : List stellar.SorobanAuthorizationEntry}
    {auth : VecM u32Max stellar.SorobanAuthorizationEntry}
    (h : authVec stellar authEntries = .ok auth) : auth.items = authEntries := by
  rw [authVec, VecM.tryFrom] at h
  split at h
  · next auth' htry =>
    cases h
    split at htry
    · rw [← Option.some.inj htry]
    · cases htry
  · cases h

/-- The arguments of a builder, if there are any, as contract values. -/
def parseArgs (stellar : Stellar) :
    Option (List String) → Except DecodeError (Option (VecM u32Max stellar.ScVal))
  | none => .ok none
  | some args => (parseScvalArgs stellar args).map some

/-- The host function that creates a contract, with the constructor arguments if there are any. -/
def createFunction {ScVal : Type} (preimage : ContractIdPreimage) (wasmHash : Bytes32) :
    Option (VecM u32Max ScVal) → HostFunction ScVal
  | none => .createContract preimage (.wasm wasmHash)
  | some constructorArgs => .createContractV2 preimage (.wasm wasmHash) constructorArgs

/-- The transaction that is built for a source, a deployer, constructor arguments, authorization
entries and an extension is in an envelope. -/
structure Built (stellar : Stellar) (params : CreateContractParams) (args : Option (List String))
    (authEntries : List stellar.SorobanAuthorizationEntry)
    (ext : TransactionExt stellar.SorobanTransactionData) (envelope : String)
    (source deployer : AccountId) (vals : Option (VecM u32Max stellar.ScVal))
    (auth : VecM u32Max stellar.SorobanAuthorizationEntry) : Prop where
  source_eq : decodeAccountId stellar params.sourceAccount = .ok source
  deployer_eq : decodeAccountId stellar params.deployerAddress = .ok deployer
  vals_eq : parseArgs stellar args = .ok vals
  auth_eq : auth.items = authEntries
  encodes : Encodes stellar envelope (createContractTx stellar params source
    (createFunction (addressPreimage deployer params.salt) params.wasmHash vals) auth ext)

theorem createContract_ok (hstellar : stellar.Documented) {params : CreateContractParams}
    {authEntries : List stellar.SorobanAuthorizationEntry}
    {ext : TransactionExt stellar.SorobanTransactionData} {envelope : String}
    (h : createContract stellar params authEntries ext = .ok envelope) :
    ∃ source deployer vals auth,
      Built stellar params none authEntries ext envelope source deployer vals auth := by
  obtain ⟨source, hsource, h⟩ := Except.bind_eq_ok_iff.mp h
  obtain ⟨deployer, hdeployer, h⟩ := Except.bind_eq_ok_iff.mp h
  obtain ⟨auth, hauth, h⟩ := Except.bind_eq_ok_iff.mp h
  exact ⟨source, deployer, none, auth, hsource, hdeployer, rfl, authVec_ok hauth,
    encodes_of_encodeEnvelope hstellar h⟩

theorem createContractV2_ok (hstellar : stellar.Documented) {params : CreateContractV2Params}
    {authEntries : List stellar.SorobanAuthorizationEntry}
    {ext : TransactionExt stellar.SorobanTransactionData} {envelope : String}
    (h : createContractV2 stellar params authEntries ext = .ok envelope) :
    ∃ source deployer vals auth,
      Built stellar params.toCreateContractParams (some params.constructorArgs) authEntries ext
        envelope source deployer vals auth := by
  obtain ⟨source, hsource, h⟩ := Except.bind_eq_ok_iff.mp h
  obtain ⟨deployer, hdeployer, h⟩ := Except.bind_eq_ok_iff.mp h
  obtain ⟨auth, hauth, h⟩ := Except.bind_eq_ok_iff.mp h
  obtain ⟨vals, hvals, h⟩ := Except.bind_eq_ok_iff.mp h
  exact ⟨source, deployer, some vals, auth, hsource, hdeployer,
    Except.map_eq_ok_iff.mpr ⟨vals, hvals, rfl⟩, authVec_ok hauth,
    encodes_of_encodeEnvelope hstellar h⟩

/-- **What a builder encodes**: the transaction that creates the contract of the deployer and the
salt, with the extension and the authorization entries of the stage. -/
theorem buildCreate_ok (hstellar : stellar.Documented) {params : CreateContractParams}
    {args : Option (List String)} {stage : Stage stellar} {envelope : String}
    (h : buildCreate stellar params args stage = .ok envelope) :
    ∃ source deployer vals auth,
      Built stellar params args stage.auth stage.ext envelope source deployer vals auth := by
  cases args with
  | none => cases stage <;> exact createContract_ok hstellar h
  | some args => cases stage <;> exact createContractV2_ok hstellar h

/-- Transactions that are built alike differ only in the extension, the authorization entries and
the constructor arguments. -/
theorem createContractTx_erased (params : CreateContractParams) (source : AccountId)
    (preimage : ContractIdPreimage) (vals vals' : Option (VecM u32Max stellar.ScVal))
    (auth auth' : VecM u32Max stellar.SorobanAuthorizationEntry)
    (ext ext' : TransactionExt stellar.SorobanTransactionData) :
    (createContractTx stellar params source (createFunction preimage params.wasmHash vals) auth
        ext).withoutExtAuthArgs =
      (createContractTx stellar params source (createFunction preimage params.wasmHash vals') auth'
        ext').withoutExtAuthArgs := by
  cases vals <;> cases vals' <;> rfl

theorem contractIdPreimages_createContractTx (params : CreateContractParams) (source : AccountId)
    (preimage : ContractIdPreimage) (vals : Option (VecM u32Max stellar.ScVal))
    (auth : VecM u32Max stellar.SorobanAuthorizationEntry)
    (ext : TransactionExt stellar.SorobanTransactionData) :
    (createContractTx stellar params source (createFunction preimage params.wasmHash vals) auth
      ext).contractIdPreimages = [preimage] := by
  cases vals <;> rfl

/-- **The simulated, the submitted and the predicted contract are the same.** Transactions that are
built for one source, deployer, salt and code, in any stage, differ only in the extension, the
authorization entries and the constructor arguments, and create one contract, whose id is the
predicted one. -/
theorem created_contract_agrees (hstellar : stellar.Documented) (params : CreateContractParams)
    (args args' : Option (List String)) (stage stage' : Stage stellar) (envelope envelope' : String)
    (h : buildCreate stellar params args stage = .ok envelope)
    (h' : buildCreate stellar params args' stage' = .ok envelope') :
    ∃ tx tx' preimage, Encodes stellar envelope tx ∧ Encodes stellar envelope' tx' ∧
      tx.withoutExtAuthArgs = tx'.withoutExtAuthArgs ∧
      (args = args' → tx.withoutExtAuth = tx'.withoutExtAuth) ∧
      tx.contractIdPreimages = [preimage] ∧ tx'.contractIdPreimages = [preimage] ∧
      ∀ networkId wasmHash,
        deriveContractId stellar networkId params.deployerAddress params.salt wasmHash =
          contractIdOf stellar networkId preimage := by
  obtain ⟨source, deployer, vals, auth, hbuilt⟩ := buildCreate_ok hstellar h
  obtain ⟨source', deployer', vals', auth', hbuilt'⟩ := buildCreate_ok hstellar h'
  obtain rfl := Except.ok.inj (hbuilt.source_eq.symm.trans hbuilt'.source_eq)
  obtain rfl := Except.ok.inj (hbuilt.deployer_eq.symm.trans hbuilt'.deployer_eq)
  refine ⟨_, _, addressPreimage deployer params.salt, hbuilt.encodes, hbuilt'.encodes,
    createContractTx_erased .., ?_, contractIdPreimages_createContractTx ..,
    contractIdPreimages_createContractTx .., fun networkId wasmHash => ?_⟩
  · rintro rfl
    obtain rfl := Except.ok.inj (hbuilt.vals_eq.symm.trans hbuilt'.vals_eq)
    rfl
  · rw [deriveContractId, hbuilt.deployer_eq]
    rfl

end Agreement

section ZeroAccount

/-- Bytes that are zero. -/
def zeroBytes (n : ℕ) : List UInt8 := List.replicate n 0

/-- A small number in four bytes. -/
def word (n : UInt8) : List UInt8 := [0, 0, 0, n]

/-- The account whose key is zero creates a contract from the code whose hash is zero. -/
def zeroParams : CreateContractParams where
  sourceAccount := "GAAAAAAAAAAAAAAAAAAAAAAAAAAAAAAAAAAAAAAAAAAAAAAAAAAAAWHF"
  sequence := 1
  fee := 100
  wasmHash := Vector.replicate 32 0
  deployerAddress := "GAAAAAAAAAAAAAAAAAAAAAAAAAAAAAAAAAAAAAAAAAAAAAAAAAAAAWHF"
  salt := Vector.replicate 20 0

/-- The argument of the constructor: the XDR of the number seven. -/
def sevenArg : List UInt8 := word 3 ++ word 7

/-- The transaction of the account, where all resource data are the empty ones, and the only
authorization entry is that of the account. -/
def zeroTx (args : Option (VecM u32Max UInt32)) (auth : VecM u32Max Unit)
    (ext : TransactionExt Unit) : Transaction UInt32 Unit Unit where
  sourceAccount := .ed25519 (Vector.replicate 32 0)
  fee := 100
  seqNum := 1
  cond := .none
  memo := .none
  operations := ⟨[⟨none, .invokeHostFunction ⟨createFunction
    (addressPreimage ⟨.ed25519 (Vector.replicate 32 0)⟩ (Vector.replicate 20 0))
    (Vector.replicate 32 0) args, auth⟩⟩], by simp⟩
  ext := ext

/-- The XDR of what is created: the preimage of the id, and the executable. -/
def createXdr : List UInt8 :=
  word 0 ++ word 0 ++ word 0 ++ zeroBytes 32 ++ zeroBytes 32 ++ word 0 ++ zeroBytes 32

/-- The XDR of a transaction that creates it. -/
def zeroXdr (function : UInt8) (args auth ext : List UInt8) : List UInt8 :=
  word 2 ++ word 0 ++ zeroBytes 32 ++ word 100 ++ word 0 ++ word 1 ++ word 0 ++ word 0 ++ word 1 ++
    word 0 ++ word 24 ++ word function ++ createXdr ++ args ++ auth ++ ext ++ word 0

/-- The XDR of the authorization entries: that of the account for the call of the constructor. -/
def zeroAuthXdr : List UInt8 :=
  word 1 ++ word 0 ++ word 2 ++ createXdr ++ word 1 ++ sevenArg ++ word 0

/-- The transactions that are simulated and submitted, without a constructor and with one. -/
def zeroTxs : List (Transaction UInt32 Unit Unit × List UInt8) := [
  (zeroTx none .default .v0, zeroXdr 1 [] (word 0) (word 0)),
  (zeroTx none .default (.v1 ()), zeroXdr 1 [] (word 0) (word 1 ++ zeroBytes 32)),
  (zeroTx (some ⟨[7], by decide⟩) .default .v0, zeroXdr 3 (word 1 ++ sevenArg) (word 0) (word 0)),
  (zeroTx (some ⟨[7], by decide⟩) ⟨[()], by decide⟩ (.v1 ()),
    zeroXdr 3 (word 1 ++ sevenArg) zeroAuthXdr (word 1 ++ zeroBytes 32))]

/-- The crates on the account and on its transactions. -/
def zeroStellar : Stellar where
  ScVal := UInt32
  SorobanAuthorizationEntry := Unit
  SorobanTransactionData := Unit
  strkey := fun s =>
    if s = zeroParams.sourceAccount then .ok (.publicKeyEd25519 (Vector.replicate 32 0))
    else .error "the strkey is invalid"
  readScVal := fun bytes =>
    if bytes.length = 8 ∧ bytes.take 4 = word 3 then
      .ok (UInt32.ofNat (ofBigEndian (bytes.drop 4)))
    else .error "xdr value invalid"
  writeEnvelope := fun envelope =>
    match zeroTxs.find? fun row => envelope = .tx row.1 .default with
    | some row => .ok row.2
    | none => .error "length limit exceeded"
  readEnvelope := fun bytes =>
    match zeroTxs.find? fun row => row.2 = bytes with
    | some row => .ok (.tx row.1 .default)
    | none => .error "xdr value invalid"
  writeHashIdPreimage := fun preimage => .ok (writeHashIdPreimage preimage)
  sha256 := Sha256.digest

/-- No two of the transactions have one encoding. -/
theorem nodup_zeroTxs : (zeroTxs.map Prod.snd).Nodup :=
  List.Nodup.of_map List.length (by decide +kernel)

theorem zeroStellar_documented : zeroStellar.Documented where
  read_envelope := by
    intro (envelope : TransactionEnvelope UInt32 Unit Unit) bytes h
    simp only [zeroStellar] at h ⊢
    split at h
    · next row hrow =>
      obtain rfl := Except.ok.inj h
      have henvelope : envelope = .tx row.1 .default := by simpa using List.find?_some hrow
      have hmem := List.mem_of_find?_eq_some hrow
      cases hread : zeroTxs.find? fun row' => row'.2 = row.2 with
      | none => exact absurd (List.find?_eq_none.mp hread row hmem) (by simp)
      | some row' =>
        have hsame : row'.2 = row.2 := by simpa using List.find?_some hread
        rw [List.inj_on_of_nodup_map nodup_zeroTxs (List.mem_of_find?_eq_some hread) hmem hsame,
          henvelope]
    · cases h

/-- The simulated and the submitted transaction of the account create one contract, whose id is the
predicted one, with a constructor as without one. -/
theorem created_contract_agrees_zeroAccount :
    (∃ tx tx' preimage,
      Encodes zeroStellar (Base64.encode (zeroXdr 3 (word 1 ++ sevenArg) (word 0) (word 0))) tx ∧
      Encodes zeroStellar (Base64.encode (zeroXdr 3 (word 1 ++ sevenArg) zeroAuthXdr
        (word 1 ++ zeroBytes 32))) tx' ∧
      tx.withoutExtAuth = tx'.withoutExtAuth ∧ tx.contractIdPreimages = [preimage] ∧
      tx'.contractIdPreimages = [preimage] ∧
      (contractIdOf zeroStellar (Network.testnet.networkId Sha256.digest) preimage).toOption =
        some "aa889c51114db615a35959d8a48a60fdd0574c13b605befead20b739962e78b4") ∧
    ∃ tx tx', Encodes zeroStellar (Base64.encode (zeroXdr 1 [] (word 0) (word 1 ++ zeroBytes 32)))
        tx ∧
      Encodes zeroStellar (Base64.encode (zeroXdr 3 (word 1 ++ sevenArg) (word 0) (word 0))) tx' ∧
      tx.withoutExtAuthArgs = tx'.withoutExtAuthArgs := by
  have hargs : parseScvalArgs zeroStellar [Base64.encode sevenArg] =
      .ok (⟨[(7 : UInt32)], by decide⟩ : VecM u32Max UInt32) := by
    rw [parseScvalArgs, List.mapM_cons, parseScvalArg, Base64.decode_encode]
    rfl
  have hsimulated : buildCreate zeroStellar zeroParams (some [Base64.encode sevenArg])
      .simulation = .ok (Base64.encode (zeroXdr 3 (word 1 ++ sevenArg) (word 0) (word 0))) := by
    simp only [buildCreate, buildCreateContractV2Tx, createContractV2, hargs]
    rfl
  have hsubmitted : buildCreate zeroStellar zeroParams (some [Base64.encode sevenArg])
      (.withDataAndAuth () [()]) = .ok (Base64.encode (zeroXdr 3 (word 1 ++ sevenArg) zeroAuthXdr
        (word 1 ++ zeroBytes 32))) := by
    simp only [buildCreate, buildCreateContractV2TxWithDataAndAuth, createContractV2, hargs]
    rfl
  constructor
  · obtain ⟨tx, tx', preimage, h, h', -, hsame, hpreimage, hpreimage', hid⟩ :=
      created_contract_agrees zeroStellar_documented zeroParams _ _ _ _ _ _ hsimulated hsubmitted
    refine ⟨tx, tx', preimage, h, h', hsame rfl, hpreimage, hpreimage', ?_⟩
    rw [← hid _ (Vector.replicate 32 0)]
    decide +kernel
  · obtain ⟨tx, tx', -, h, h', hsame, -⟩ :=
      created_contract_agrees zeroStellar_documented zeroParams none _ (.withData ()) _ _ _ rfl
        hsimulated
    exact ⟨tx, tx', h, h', hsame⟩

end ZeroAccount

end SorobanDevkit.Xdr
