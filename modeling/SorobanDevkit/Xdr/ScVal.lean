import SorobanDevkit.Xdr.Transaction

/-!
# Contract values and ledger entries

The XDR types of the values that contracts take, return and store, as the `stellar-xdr` crate
declares them. The lengths of vectors, maps and byte strings, which the crate bounds by `u32::MAX`,
are not bounded here.

A value is either flat or built from other values. The flat ones form a type of their own, so that
their equality and order are derived; `ScVal.bool`, `ScVal.u32` and so on stand for the variants of
the crate.
-/

namespace SorobanDevkit.Xdr

/-! ### Values -/

/-- `ScErrorType`. -/
inductive ScErrorType
  | contract
  | wasmVm
  | context
  | storage
  | object
  | crypto
  | events
  | budget
  | value
  | auth
  deriving DecidableEq, Ord

/-- The variants of `ScVal` that contain no other value. -/
inductive Scalar
  | bool (b : Bool)
  | void
  | error (type : ScErrorType) (code : UInt32)
  | u32 (n : UInt32)
  | i32 (n : Int32)
  | u64 (n : UInt64)
  | i64 (n : Int64)
  | timepoint (n : UInt64)
  | duration (n : UInt64)
  | u128 (hi lo : UInt64)
  | i128 (hi : Int64) (lo : UInt64)
  | u256 (hiHi hiLo loHi loLo : UInt64)
  | i256 (hiHi : Int64) (hiLo loHi loLo : UInt64)
  | bytes (b : List UInt8)
  | string (s : List UInt8)
  | symbol (s : List UInt8)
  | address (a : ScAddress)
  | ledgerKeyContractInstance
  | ledgerKeyNonce (nonce : Int64)
  | executableTag (tag : List UInt8)
  deriving DecidableEq, Ord

/-- The discriminant of a flat value. -/
def Scalar.discriminant : Scalar → ℕ
  | .bool _ => 0
  | .void => 1
  | .error .. => 2
  | .u32 _ => 3
  | .i32 _ => 4
  | .u64 _ => 5
  | .i64 _ => 6
  | .timepoint _ => 7
  | .duration _ => 8
  | .u128 .. => 9
  | .i128 .. => 10
  | .u256 .. => 11
  | .i256 .. => 12
  | .bytes _ => 13
  | .string _ => 14
  | .symbol _ => 15
  | .address _ => 18
  | .ledgerKeyContractInstance => 20
  | .ledgerKeyNonce _ => 21
  | .executableTag _ => 22

/-- `ScVal`. -/
inductive ScVal
  | scalar (s : Scalar)
  | vec (items : Option (List ScVal))
  | map (entries : Option (List (ScVal × ScVal)))
  | contractInstance (executable : ContractExecutable) (storage : Option (List (ScVal × ScVal)))

/-- `ScMapEntry`: a key and its value. -/
abbrev ScMapEntry := ScVal × ScVal

namespace ScVal

@[match_pattern] abbrev bool (b : Bool) : ScVal := .scalar (.bool b)
@[match_pattern] abbrev void : ScVal := .scalar .void
@[match_pattern] abbrev u32 (n : UInt32) : ScVal := .scalar (.u32 n)
@[match_pattern] abbrev i32 (n : Int32) : ScVal := .scalar (.i32 n)
@[match_pattern] abbrev u64 (n : UInt64) : ScVal := .scalar (.u64 n)
@[match_pattern] abbrev i64 (n : Int64) : ScVal := .scalar (.i64 n)
@[match_pattern] abbrev u128 (hi lo : UInt64) : ScVal := .scalar (.u128 hi lo)
@[match_pattern] abbrev i128 (hi : Int64) (lo : UInt64) : ScVal := .scalar (.i128 hi lo)
@[match_pattern] abbrev u256 (hiHi hiLo loHi loLo : UInt64) : ScVal :=
  .scalar (.u256 hiHi hiLo loHi loLo)
@[match_pattern] abbrev i256 (hiHi : Int64) (hiLo loHi loLo : UInt64) : ScVal :=
  .scalar (.i256 hiHi hiLo loHi loLo)
@[match_pattern] abbrev bytes (b : List UInt8) : ScVal := .scalar (.bytes b)
@[match_pattern] abbrev string (s : List UInt8) : ScVal := .scalar (.string s)
@[match_pattern] abbrev address (a : ScAddress) : ScVal := .scalar (.address a)
@[match_pattern] abbrev ledgerKeyContractInstance : ScVal := .scalar .ledgerKeyContractInstance
@[match_pattern] abbrev ledgerKeyNonce (nonce : Int64) : ScVal := .scalar (.ledgerKeyNonce nonce)

mutual

/-- Equality of values. -/
def decEq : (a b : ScVal) → Decidable (a = b)
  | .scalar s, .scalar s' => decidable_of_iff (s = s') (by simp)
  | .vec none, .vec none => isTrue rfl
  | .vec (some xs), .vec (some ys) =>
    match decEqList xs ys with
    | isTrue h => isTrue (by rw [h])
    | isFalse h => isFalse (by simp [h])
  | .map none, .map none => isTrue rfl
  | .map (some xs), .map (some ys) =>
    match decEqEntries xs ys with
    | isTrue h => isTrue (by rw [h])
    | isFalse h => isFalse (by simp [h])
  | .contractInstance x none, .contractInstance y none => decidable_of_iff (x = y) (by simp)
  | .contractInstance x (some xs), .contractInstance y (some ys) =>
    match decEqEntries xs ys with
    | isTrue h => decidable_of_iff (x = y) (by simp [h])
    | isFalse h => isFalse (by simp [h])
  | .scalar _, .vec _ | .scalar _, .map _ | .scalar _, .contractInstance .. => isFalse (by simp)
  | .vec _, .scalar _ | .vec _, .map _ | .vec _, .contractInstance .. => isFalse (by simp)
  | .map _, .scalar _ | .map _, .vec _ | .map _, .contractInstance .. => isFalse (by simp)
  | .contractInstance .., .scalar _ | .contractInstance .., .vec _ => isFalse (by simp)
  | .contractInstance .., .map _ => isFalse (by simp)
  | .vec none, .vec (some _) | .vec (some _), .vec none => isFalse (by simp)
  | .map none, .map (some _) | .map (some _), .map none => isFalse (by simp)
  | .contractInstance _ none, .contractInstance _ (some _) => isFalse (by simp)
  | .contractInstance _ (some _), .contractInstance _ none => isFalse (by simp)

/-- Equality of lists of values. -/
def decEqList : (a b : List ScVal) → Decidable (a = b)
  | [], [] => isTrue rfl
  | [], _ :: _ | _ :: _, [] => isFalse (by simp)
  | x :: xs, y :: ys =>
    match decEq x y, decEqList xs ys with
    | isTrue hx, isTrue hxs => isTrue (by rw [hx, hxs])
    | isFalse hx, _ => isFalse (by simp [hx])
    | _, isFalse hxs => isFalse (by simp [hxs])

/-- Equality of lists of map entries. -/
def decEqEntries : (a b : List (ScVal × ScVal)) → Decidable (a = b)
  | [], [] => isTrue rfl
  | [], _ :: _ | _ :: _, [] => isFalse (by simp)
  | (k, v) :: xs, (k', v') :: ys =>
    match decEq k k', decEq v v', decEqEntries xs ys with
    | isTrue hk, isTrue hv, isTrue hxs => isTrue (by rw [hk, hv, hxs])
    | isFalse hk, _, _ => isFalse (by simp [hk])
    | _, isFalse hv, _ => isFalse (by simp [hv])
    | _, _, isFalse hxs => isFalse (by simp [hxs])

end

instance : DecidableEq ScVal := decEq

instance : Inhabited ScVal := ⟨.void⟩

/-- The discriminant of a value: variants are ordered as they are declared. -/
def discriminant : ScVal → ℕ
  | .scalar s => s.discriminant
  | .vec _ => 16
  | .map _ => 17
  | .contractInstance .. => 19

mutual

/-- The derived order of `ScVal`. -/
def cmp : (a b : ScVal) → Ordering
  | .scalar s, .scalar s' => compare s s'
  | .vec none, .vec none | .map none, .map none => .eq
  | .vec none, .vec (some _) | .map none, .map (some _) => .lt
  | .vec (some _), .vec none | .map (some _), .map none => .gt
  | .vec (some xs), .vec (some ys) => cmpList xs ys
  | .map (some xs), .map (some ys) => cmpEntries xs ys
  | .contractInstance x none, .contractInstance y none => compare x y
  | .contractInstance x none, .contractInstance y (some _) => (compare x y).then .lt
  | .contractInstance x (some _), .contractInstance y none => (compare x y).then .gt
  | .contractInstance x (some xs), .contractInstance y (some ys) =>
    (compare x y).then (cmpEntries xs ys)
  | a, b => compare a.discriminant b.discriminant

/-- The lexicographic order of lists of values. -/
def cmpList : (a b : List ScVal) → Ordering
  | [], [] => .eq
  | [], _ :: _ => .lt
  | _ :: _, [] => .gt
  | x :: xs, y :: ys => (cmp x y).then (cmpList xs ys)

/-- The lexicographic order of lists of map entries. -/
def cmpEntries : (a b : List (ScVal × ScVal)) → Ordering
  | [], [] => .eq
  | [], _ :: _ => .lt
  | _ :: _, [] => .gt
  | (k, v) :: xs, (k', v') :: ys => ((cmp k k').then (cmp v v')).then (cmpEntries xs ys)

end

end ScVal

/-! ### Ledger entries -/

/-- `ContractDataDurability`. -/
inductive ContractDataDurability
  | temporary
  | persistent
  deriving DecidableEq

/-- `ContractDataEntry`. -/
structure ContractDataEntry where
  contract : ScAddress
  key : ScVal
  durability : ContractDataDurability
  val : ScVal
  deriving DecidableEq

/-- `LedgerEntryData`. Entries that are neither contract data nor code are given by their XDR, the
XDR of their key apart. -/
inductive LedgerEntryData
  | contractData (data : ContractDataEntry)
  | contractCode (hash : Bytes32) (code : List UInt8)
  | other (key data : List UInt8)
  deriving DecidableEq

/-- `LedgerEntry`. The extension is given by its XDR. -/
structure LedgerEntry where
  lastModifiedLedgerSeq : UInt32
  data : LedgerEntryData
  ext : List UInt8
  deriving DecidableEq

/-- `LedgerKey`. Keys of entries that are neither contract data nor code are given by their XDR. -/
inductive LedgerKey
  | contractData (contract : ScAddress) (key : ScVal) (durability : ContractDataDurability)
  | contractCode (hash : Bytes32)
  | other (key : List UInt8)
  deriving DecidableEq

/-- `LedgerEntry::to_key`. -/
def LedgerEntry.toKey (entry : LedgerEntry) : LedgerKey :=
  match entry.data with
  | .contractData data => .contractData data.contract data.key data.durability
  | .contractCode hash _ => .contractCode hash
  | .other key _ => .other key

/-- Contract data, which is all that a sequence of calls carries. -/
def LedgerKey.IsContractData : LedgerKey → Prop
  | .contractData .. => True
  | _ => False

/-! ### Authorization entries -/

/-- `InvokeContractArgs`. -/
structure InvokeContractArgs where
  contractAddress : ScAddress
  functionName : VecM 32 UInt8
  args : VecM u32Max ScVal
  deriving DecidableEq

/-- `SorobanCredentials`, as far as the fuzzer builds them. -/
inductive SorobanCredentials
  | sourceAccount
  | addressV2 (address : ScAddress) (nonce : Int64) (signatureExpirationLedger : UInt32)
      (signature : ScVal)
  deriving DecidableEq

/-- `SorobanAuthorizationEntry` for the call of a contract function without further calls. -/
structure SorobanAuthorizationEntry where
  credentials : SorobanCredentials
  rootInvocation : InvokeContractArgs
  deriving DecidableEq

end SorobanDevkit.Xdr
