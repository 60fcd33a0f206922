import SorobanDevkit.Library.Hex
import SorobanDevkit.Library.Quoting
import SorobanDevkit.Library.Utf8Lossy
import SorobanDevkit.Xdr.ScVal

/-!
# Views of envelopes

`sdkt-xdr/src/envelope.rs` shows an envelope before it is signed: its source, sequence number, fee
and memo, its operations with the calls of contracts and their arguments, its resources and its
signatures.

The texts of addresses, keys and wide integers, the names of operations other than the invocation of
a host function, and which characters `\x7b:?\x7d` escapes are parameters.
-/

namespace SorobanDevkit.Xdr

/-! ### Envelopes -/

/-- `SorobanTransactionData`, its resources and its fee. -/
structure SorobanTransactionData where
  readOnly : List LedgerKey
  readWrite : List LedgerKey
  instructions : UInt32
  diskReadBytes : UInt32
  writeBytes : UInt32
  resourceFee : Int64

section Envelope

variable (Auth : Type)

/-- `TransactionV0`. Its time bounds are left out. -/
structure TransactionV0 where
  sourceAccountEd25519 : Bytes32
  fee : UInt32
  seqNum : Int64
  memo : Memo
  operations : VecM 100 (Operation ScVal Auth)

/-- `FeeBumpTransaction` with the transaction it pays for. -/
structure FeeBumpTransaction where
  feeSource : MuxedAccount
  fee : Int64
  innerTx : Transaction ScVal Auth SorobanTransactionData
  innerSignatures : VecM 20 DecoratedSignature

/-- `TransactionEnvelope`, with all its kinds. -/
inductive ReviewedEnvelope
  | txV0 (tx : TransactionV0 Auth) (signatures : VecM 20 DecoratedSignature)
  | tx (tx : Transaction ScVal Auth SorobanTransactionData)
      (signatures : VecM 20 DecoratedSignature)
  | txFeeBump (tx : FeeBumpTransaction Auth) (signatures : VecM 20 DecoratedSignature)

end Envelope

/-! ### Values and memos -/

/-- The texts that the crates give, and the characters that are escaped between quotation marks
besides control characters, quotation marks and backslashes. -/
structure Displays where
  scAddress : ScAddress → String
  muxedAccount : MuxedAccount → String
  publicKey : Bytes32 → String
  u128 : (hi lo : UInt64) → String
  i128 : (hi : Int64) → (lo : UInt64) → String
  u256 : (hiHi hiLo loHi loLo : UInt64) → String
  i256 : (hiHi : Int64) → (hiLo loHi loLo : UInt64) → String
  operationName : List UInt8 → String
  escapes : Char → Bool

/-- `to_utf8_string_lossy`. -/
def toUtf8StringLossy (bytes : List UInt8) : String := String.ofList (Utf8Lossy.decode bytes)

section Render

variable (displays : Displays)

/-- A text in quotation marks. -/
def debug (bytes : List UInt8) : String :=
  String.ofList (Quoting.quote displays.escapes (Utf8Lossy.decode bytes))

/-- `render_scval` for flat values. -/
def renderScalar : Scalar → String
  | .bool b => "bool:" ++ toString b
  | .void => "void"
  | .u32 n => "u32:" ++ toString n.toNat
  | .i32 n => "i32:" ++ toString n.toInt
  | .u64 n => "u64:" ++ toString n.toNat
  | .i64 n => "i64:" ++ toString n.toInt
  | .timepoint t => "timepoint:" ++ toString t.toNat
  | .duration d => "duration:" ++ toString d.toNat
  | .u128 hi lo => "u128:" ++ displays.u128 hi lo
  | .i128 hi lo => "i128:" ++ displays.i128 hi lo
  | .u256 hiHi hiLo loHi loLo => "u256:" ++ displays.u256 hiHi hiLo loHi loLo
  | .i256 hiHi hiLo loHi loLo => "i256:" ++ displays.i256 hiHi hiLo loHi loLo
  | .string s => "string:" ++ debug displays s
  | .symbol s => "symbol:" ++ toUtf8StringLossy s
  | .bytes b => "bytes:" ++ Hex.encode b
  | .address a => "address:" ++ displays.scAddress a
  -- the remaining variants are given by their names in lower case
  | .error .. => "error"
  | .ledgerKeyContractInstance => "ledgerkeycontractinstance"
  | .ledgerKeyNonce _ => "ledgerkeynonce"
  | .executableTag _ => "executabletag"

mutual

/-- `render_scval`. -/
def renderScval : ScVal → String
  | .scalar s => renderScalar displays s
  | .vec none => "vec:[" ++ ", ".intercalate [] ++ "]"
  | .vec (some items) => "vec:[" ++ ", ".intercalate (renderItems items) ++ "]"
  | .map none => "map:\x7b" ++ ", ".intercalate [] ++ "\x7d"
  | .map (some entries) => "map:\x7b" ++ ", ".intercalate (renderEntries entries) ++ "\x7d"
  | .contractInstance .. => "contractinstance"

/-- The items of a vector. -/
def renderItems : List ScVal → List String
  | [] => []
  | item :: items => renderScval item :: renderItems items

/-- The entries of a map. -/
def renderEntries : List (ScVal × ScVal) → List String
  | [] => []
  | (key, val) :: entries => (renderScval key ++ " => " ++ renderScval val) :: renderEntries entries

end

/-- `render_memo`. -/
def renderMemo : Memo → Option String
  | .none => none
  | .text text => some ("text:" ++ debug displays text.items)
  | .id id => some ("id:" ++ toString id.toNat)
  | .hash hash => some ("hash:" ++ Hex.encode hash.toList)
  | .return hash => some ("return:" ++ Hex.encode hash.toList)

end Render

/-! ### Views -/

/-- `SorobanView`. -/
structure SorobanView where
  readOnly : ℕ
  readWrite : ℕ
  instructions : UInt32
  diskReadBytes : UInt32
  writeBytes : UInt32
  resourceFee : Int64
  deriving DecidableEq

/-- `SignatureView`. -/
structure SignatureView where
  hint : String
  signer : Option String
  deriving DecidableEq

/-- `OperationView`. -/
structure OperationView where
  kind : String
  source : Option String
  contract : Option String := none
  function : Option String := none
  args : List String := []
  authEntries : ℕ := 0
  deriving DecidableEq

/-- `FeeBumpView`. -/
structure FeeBumpView where
  feeSource : String
  fee : Int64
  signatures : List SignatureView
  deriving DecidableEq

/-- `EnvelopeView`. -/
structure EnvelopeView where
  envelopeType : String
  source : String
  sequence : Int64
  fee : Int
  memo : Option String
  operations : List OperationView
  soroban : Option SorobanView
  signatures : List SignatureView
  feeBump : Option FeeBumpView
  deriving DecidableEq

/-- `HostFunction::name`. -/
def HostFunction.name {ScVal : Type} : HostFunction ScVal → String
  | .invokeContract .. => "InvokeContract"
  | .createContract .. => "CreateContract"
  | .uploadContractWasm _ => "UploadContractWasm"
  | .createContractV2 .. => "CreateContractV2"

section View

variable (displays : Displays) {Auth : Type}

/-- `view_operation`. -/
def viewOperation (op : Operation ScVal Auth) : OperationView :=
  let source := op.sourceAccount.map displays.muxedAccount
  match op.body with
  | .other body => { kind := displays.operationName body, source }
  | .invokeHostFunction invoke =>
    let view : OperationView :=
      { kind := invoke.hostFunction.name, source, authEntries := invoke.auth.items.length }
    match invoke.hostFunction with
    | .invokeContract contractAddress functionName args =>
      { view with
        contract := some (displays.scAddress contractAddress)
        function := some (toUtf8StringLossy functionName.items)
        args := args.items.map (renderScval displays) }
    | .createContractV2 _ _ constructorArgs =>
      { view with args := constructorArgs.items.map (renderScval displays) }
    | .createContract .. | .uploadContractWasm _ => view

/-- `view_soroban`. -/
def viewSoroban (data : SorobanTransactionData) : SorobanView where
  readOnly := data.readOnly.length
  readWrite := data.readWrite.length
  instructions := data.instructions
  diskReadBytes := data.diskReadBytes
  writeBytes := data.writeBytes
  resourceFee := data.resourceFee

/-- `ed25519_key`. -/
def ed25519Key : MuxedAccount → Bytes32
  | .ed25519 key => key
  | .muxedEd25519 _ key => key

/-- `signer_keys`. -/
def signerKeys (source : MuxedAccount) (operations : List (Operation ScVal Auth))
    (feeSource : Option MuxedAccount) : List Bytes32 :=
  let keys := ed25519Key source :: operations.filterMap (·.sourceAccount.map ed25519Key) ++
    (feeSource.map ed25519Key).toList
  (keys.mergeSort fun key key' => (compare key key').isLE).eraseReps

/-- `view_signatures`. -/
def viewSignatures (signatures : List DecoratedSignature) (keys : List Bytes32) :
    List SignatureView :=
  signatures.map fun sig =>
    { hint := Hex.encode sig.hint.toList
      signer :=
        match keys.filter fun key => key.toList.drop 28 == sig.hint.toList with
        | [key] => some (displays.publicKey key)
        | _ => none }

/-- `view_v1`. -/
def viewV1 (tx : Transaction ScVal Auth SorobanTransactionData)
    (signatures : List DecoratedSignature) (kind : String) : EnvelopeView where
  envelopeType := kind
  source := displays.muxedAccount tx.sourceAccount
  sequence := tx.seqNum
  fee := tx.fee.toNat
  memo := renderMemo displays tx.memo
  operations := tx.operations.items.map (viewOperation displays)
  soroban :=
    match tx.ext with
    | .v0 => none
    | .v1 data => some (viewSoroban data)
  signatures := viewSignatures displays signatures
    (signerKeys tx.sourceAccount tx.operations.items none)
  feeBump := none

/-- `view_envelope`. -/
def viewEnvelope : ReviewedEnvelope Auth → EnvelopeView
  | .txV0 tx signatures =>
    let source := .ed25519 tx.sourceAccountEd25519
    { envelopeType := "tx_v0"
      source := displays.muxedAccount source
      sequence := tx.seqNum
      fee := tx.fee.toNat
      memo := renderMemo displays tx.memo
      operations := tx.operations.items.map (viewOperation displays)
      soroban := none
      signatures := viewSignatures displays signatures.items
        (signerKeys source tx.operations.items none)
      feeBump := none }
  | .tx tx signatures => viewV1 displays tx signatures.items "tx"
  | .txFeeBump tx signatures =>
    let inner := tx.innerTx
    let outerKeys := signerKeys inner.sourceAccount inner.operations.items (some tx.feeSource)
    { viewV1 displays inner tx.innerSignatures.items "tx_fee_bump" with
      feeBump := some
        { feeSource := displays.muxedAccount tx.feeSource
          fee := tx.fee
          signatures := viewSignatures displays signatures.items outerKeys } }

end View

end SorobanDevkit.Xdr
