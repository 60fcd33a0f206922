import Mathlib.Algebra.Group.Nat.Defs
import Mathlib.Data.Nat.Notation

/-!
# Transactions

The part of the XDR types of a transaction that the builders of `sdkt-xdr/src/builder.rs` assemble,
as the `stellar-xdr` crate declares them. The types of contract values, authorization entries and
resource data are parameters, as the builders only pass their values on.
-/

namespace SorobanDevkit.Xdr

/-! ### Values -/

/-- `VecM`: a vector whose length is at most `max`. -/
structure VecM (max : ℕ) (α : Type) where
  items : List α
  bounded : items.length ≤ max
  deriving DecidableEq

namespace VecM

variable {max : ℕ} {α β : Type}

/-- `VecM::try_from`. -/
def tryFrom (items : List α) : Option (VecM max α) :=
  if h : items.length ≤ max then some ⟨items, h⟩ else none

/-- `VecM::default()`. -/
def default : VecM max α := ⟨[], Nat.zero_le max⟩

/-- The vector with its items mapped. -/
def map (f : α → β) (v : VecM max α) : VecM max β :=
  ⟨v.items.map f, by rw [List.length_map]; exact v.bounded⟩

variable {items : List α}

theorem tryFrom_eq_some_iff {v : VecM max α} : tryFrom items = some v ↔ v.items = items := by
  rw [tryFrom]
  constructor
  · intro h
    split at h
    · rw [← Option.some.inj h]
    · cases h
  · rintro rfl
    rw [dif_pos v.bounded]

theorem tryFrom_eq_none_iff :
    (tryFrom items : Option (VecM max α)) = none ↔ max < items.length := by
  rw [tryFrom]
  split
  · next h => exact iff_of_false (Option.some_ne_none _) (by omega)
  · next h => exact iff_of_true rfl (by omega)

end VecM

/-- The largest length of a vector without a declared one. -/
abbrev u32Max : ℕ := 2 ^ 32 - 1

/-- `Uint256` and `Hash`. -/
abbrev Bytes32 := Vector UInt8 32

/-- `PublicKey`. -/
inductive PublicKey
  | ed25519 (key : Bytes32)
  deriving DecidableEq, Ord

/-- `AccountId`. -/
structure AccountId where
  key : PublicKey
  deriving DecidableEq, Ord

/-- `MuxedAccount`. -/
inductive MuxedAccount
  | ed25519 (key : Bytes32)
  | muxedEd25519 (id : UInt64) (key : Bytes32)
  deriving DecidableEq

/-- `ScAddress`. -/
inductive ScAddress
  | account (id : AccountId)
  | contract (id : Bytes32)
  | muxedAccount (id : UInt64) (key : Bytes32)
  | claimableBalance (id : Bytes32)
  | liquidityPool (id : Bytes32)
  deriving DecidableEq, Ord

/-- `ContractIdPreimage`: what the id of a contract is the hash of. An asset is given by its XDR. -/
inductive ContractIdPreimage
  | address (address : ScAddress) (salt : Bytes32)
  | asset (asset : List UInt8)
  deriving DecidableEq

/-- `ContractExecutable`, with the reference of CAP-85 to an entry of another contract. -/
inductive ContractExecutable
  | wasm (hash : Bytes32)
  | stellarAsset
  | externalRef (owner : ScAddress) (tag : List UInt8)
  deriving DecidableEq, Ord

/-- `Memo`. -/
inductive Memo
  | none
  | text (text : VecM 28 UInt8)
  | id (id : UInt64)
  | hash (hash : Bytes32)
  | return (hash : Bytes32)
  deriving DecidableEq

/-- `Preconditions`. The extended ones are given by their XDR. -/
inductive Preconditions
  | none
  | time (minTime maxTime : UInt64)
  | v2 (preconditions : List UInt8)
  deriving DecidableEq

/-! ### Transactions -/

section Transaction

variable (ScVal SorobanAuthorizationEntry SorobanTransactionData : Type)

/-- `HostFunction`. -/
inductive HostFunction
  | invokeContract (contractAddress : ScAddress) (functionName : VecM 32 UInt8)
      (args : VecM u32Max ScVal)
  | createContract (contractIdPreimage : ContractIdPreimage) (executable : ContractExecutable)
  | uploadContractWasm (wasm : VecM u32Max UInt8)
  | createContractV2 (contractIdPreimage : ContractIdPreimage) (executable : ContractExecutable)
      (constructorArgs : VecM u32Max ScVal)
  deriving DecidableEq

/-- `InvokeHostFunctionOp`. -/
structure InvokeHostFunctionOp where
  hostFunction : HostFunction ScVal
  auth : VecM u32Max SorobanAuthorizationEntry
  deriving DecidableEq

/-- `OperationBody`. Other operations are given by their XDR. -/
inductive OperationBody
  | invokeHostFunction (op : InvokeHostFunctionOp ScVal SorobanAuthorizationEntry)
  | other (op : List UInt8)
  deriving DecidableEq

/-- `Operation`. -/
structure Operation where
  sourceAccount : Option MuxedAccount
  body : OperationBody ScVal SorobanAuthorizationEntry
  deriving DecidableEq

/-- `TransactionExt`. -/
inductive TransactionExt
  | v0
  | v1 (data : SorobanTransactionData)
  deriving DecidableEq

/-- `Transaction`. -/
structure Transaction where
  sourceAccount : MuxedAccount
  fee : UInt32
  seqNum : Int64
  cond : Preconditions
  memo : Memo
  operations : VecM 100 (Operation ScVal SorobanAuthorizationEntry)
  ext : TransactionExt SorobanTransactionData
  deriving DecidableEq

/-- `DecoratedSignature`. -/
structure DecoratedSignature where
  hint : Vector UInt8 4
  signature : VecM 64 UInt8
  deriving DecidableEq

/-- `TransactionEnvelope`. Envelopes of other kinds are given by their XDR. -/
inductive TransactionEnvelope
  | tx (tx : Transaction ScVal SorobanAuthorizationEntry SorobanTransactionData)
      (signatures : VecM 20 DecoratedSignature)
  | other (envelope : List UInt8)
  deriving DecidableEq

end Transaction

/-- `HashIdPreimage`, as far as it is hashed for the id of a contract. -/
inductive HashIdPreimage
  | contractId (networkId : Bytes32) (contractIdPreimage : ContractIdPreimage)

/-! ### The crates -/

/-- `Strkey`, as far as the builders tell its kinds apart. -/
inductive Strkey
  | publicKeyEd25519 (key : Bytes32)
  | contract (id : Bytes32)
  | other (payload : List UInt8)

/-- The crates `stellar-strkey`, `stellar-xdr` and `sha2`. Their errors are given by their texts. -/
structure Stellar where
  ScVal : Type
  SorobanAuthorizationEntry : Type
  SorobanTransactionData : Type
  strkey : String → Except String Strkey
  readScVal : List UInt8 → Except String ScVal
  writeEnvelope : TransactionEnvelope ScVal SorobanAuthorizationEntry SorobanTransactionData →
    Except String (List UInt8)
  readEnvelope : List UInt8 →
    Except String (TransactionEnvelope ScVal SorobanAuthorizationEntry SorobanTransactionData)
  writeHashIdPreimage : HashIdPreimage → Except String (List UInt8)
  sha256 : List UInt8 → Bytes32

/-- What is assumed of the crates: reading an envelope inverts writing it. -/
structure Stellar.Documented (stellar : Stellar) : Prop where
  read_envelope : ∀ envelope bytes, stellar.writeEnvelope envelope = .ok bytes →
    stellar.readEnvelope bytes = .ok envelope

end SorobanDevkit.Xdr
