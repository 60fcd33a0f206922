import SorobanDevkit.Library.Bytes
import SorobanDevkit.Library.Hex
import SorobanDevkit.Wasm.Spec
import SorobanDevkit.Xdr.Transaction

/-!
# Network profiles

A profile records the configuration of a network as it was observed, each value with its provenance
(`sdkt-fuzz/src/network_profile.rs`). A budget can be built from one, and the artifact of a finding
names the profile by its content hash.
-/

namespace SorobanDevkit.Fuzz

open Wasm (utf8)
open Xdr (Bytes32)

/-- The bytes of a seed, a hash or a key. -/
def bytesOf (bytes : Bytes32) : List UInt8 := bytes.toList

/-- `ParamSource`. -/
inductive ParamSource
  | liveConfigSetting
  | liveRpcMetadata
  | derived
  | snapshot
  | unavailable
  deriving DecidableEq

/-- `Provenance`. -/
structure Provenance where
  source : ParamSource
  observedAtLedger : Option UInt32
  deriving DecidableEq

/-- `Observed`: a value, if there is one, with its provenance. -/
structure Observed (α : Type) where
  value : Option α
  provenance : Provenance
  deriving DecidableEq

/-- `CostParamEntrySnapshot`. -/
structure CostParamEntrySnapshot where
  costType : String
  index : UInt32
  constTerm : Int64
  linearTerm : Int64
  deriving DecidableEq

/-- `CostParamsSnapshot`. -/
structure CostParamsSnapshot where
  cpu : List CostParamEntrySnapshot
  mem : List CostParamEntrySnapshot
  deriving DecidableEq

/-- `NetworkConfigSnapshot`. -/
structure NetworkConfigSnapshot where
  cpuLimit : Observed UInt64
  memLimit : Observed UInt64
  ledgerMaxInstructions : Observed UInt64
  feeRatePerInstructionsIncrement : Observed UInt64
  maxContractSizeBytes : Observed UInt32
  txMaxSizeBytes : Observed UInt32
  txMaxContractEventsSizeBytes : Observed UInt32
  feeContractEvents1kb : Observed Int64
  costParams : Observed CostParamsSnapshot
  deriving DecidableEq

/-- `NetworkProfile`. -/
structure NetworkProfile where
  schemaVersion : UInt32
  networkName : String
  passphrase : String
  networkId : Bytes32
  protocolVersion : UInt32
  ledgerSequence : UInt32
  sourceEndpoint : String
  capturedAtUnix : UInt64
  config : NetworkConfigSnapshot
  contentHashCache : Option Bytes32
  deriving DecidableEq

namespace NetworkProfile

/-- `feed_u64`, `feed_u32` and `feed_i64`: a tag, then the bytes of the value if there is one. -/
def feed {α : Type} (bytes : α → List UInt8) (observed : Observed α) : List UInt8 :=
  match observed.value with
  | some v => 1 :: bytes v
  | none => [0]

/-- `u64::to_be_bytes`. -/
def u64Bytes (n : UInt64) : List UInt8 := bigEndian 8 n.toNat

/-- `u32::to_be_bytes`. -/
def u32Bytes (n : UInt32) : List UInt8 := bigEndian 4 n.toNat

/-- `i64::to_be_bytes`. -/
def i64Bytes (n : Int64) : List UInt8 := bigEndian 8 n.toUInt64.toNat

/-- The cost tables, as far as both have an entry. -/
def costBytes (params : CostParamsSnapshot) : List UInt8 :=
  bigEndian 8 params.cpu.length ++
    (params.cpu.zip params.mem).flatMap fun (c, m) =>
      u32Bytes c.index ++ utf8 c.costType ++ i64Bytes c.constTerm ++ i64Bytes c.linearTerm ++
        i64Bytes m.constTerm ++ i64Bytes m.linearTerm

/-- What `content_hash` feeds to the hasher. -/
def contentPreimage (profile : NetworkProfile) : List UInt8 :=
  utf8 "sdkt-fuzz-network-profile-v1" ++ u32Bytes profile.schemaVersion ++
    bytesOf profile.networkId ++ u32Bytes profile.protocolVersion ++
    u32Bytes profile.ledgerSequence ++ utf8 profile.passphrase ++ [0] ++
    feed u64Bytes profile.config.cpuLimit ++ feed u64Bytes profile.config.memLimit ++
    feed u64Bytes profile.config.ledgerMaxInstructions ++
    feed u64Bytes profile.config.feeRatePerInstructionsIncrement ++
    feed u32Bytes profile.config.maxContractSizeBytes ++
    feed u32Bytes profile.config.txMaxSizeBytes ++
    feed u32Bytes profile.config.txMaxContractEventsSizeBytes ++
    feed i64Bytes profile.config.feeContractEvents1kb ++
    feed costBytes profile.config.costParams

/-- `content_hash`. -/
def contentHash (sha256 : List UInt8 → Bytes32) (profile : NetworkProfile) : Bytes32 :=
  sha256 profile.contentPreimage

/-- `content_hash_hex`. -/
def contentHashHex (sha256 : List UInt8 → Bytes32) (profile : NetworkProfile) : String :=
  Hex.encode (bytesOf (profile.contentHash sha256))

end NetworkProfile

/-- `ProfileStatus`. -/
inductive ProfileStatus
  | complete
  | incomplete
  | hostUnsupported
  deriving DecidableEq

/-- `BudgetCoverage`: how much of the network's cost model a budget reproduces. -/
structure BudgetCoverage where
  profileStatus : ProfileStatus
  coveredCostTypes : ℕ
  hostCostTypes : ℕ
  complete : Bool
  deriving DecidableEq

/-- `as_str`: the verdict in a word. -/
def BudgetCoverage.asStr (coverage : BudgetCoverage) : String :=
  if coverage.complete then "COMPLETE"
  else if coverage.profileStatus = .hostUnsupported then "HOST_UNSUPPORTED"
  else if coverage.coveredCostTypes < coverage.hostCostTypes then "INCOMPLETE"
  else "UNSUPPORTED"

end SorobanDevkit.Fuzz
