import SorobanDevkit.Library.Bytes
import SorobanDevkit.Library.Strings
import SorobanDevkit.Fuzz.NetworkProfile
import SorobanDevkit.Xdr.ScVal

/-!
# Typed input generation

Arguments are generated from the parameter types of a contract function
(`sdkt-fuzz/src/generator.rs`). There is no random state that outlives a value: every value takes
its stream of pseudo-random numbers from a hash of the seed, the case, the function and its
position.

The hash function is a parameter. The caps of the source are of type `usize`, of 64 bits here.
-/

namespace SorobanDevkit.Fuzz

open Strings (startsWith)
open Wasm (ContractFunction ContractSpec ContractType utf8)
open Xdr (Bytes32 ScAddress ScMapEntry ScVal u32Max)

/-- `GenerationCaps`. -/
structure GenerationCaps where
  maxDepth : UInt32
  maxVecLen : UInt64
  maxByteLen : UInt64
  maxMapEntries : UInt64
  deriving DecidableEq

/-- `GenerationCaps::default()`. -/
def GenerationCaps.default : GenerationCaps where
  maxDepth := 3
  maxVecLen := 4
  maxByteLen := 32
  maxMapEntries := 4

/-- `UnsupportedContractType`. -/
structure UnsupportedContractType where
  typeName : String
  typeKind : String
  deriving DecidableEq

/-- The refusal of a type. -/
def UnsupportedContractType.of (t : ContractType) : UnsupportedContractType where
  typeName := t.name
  typeKind := t.kind

/-- The text of the refusal. -/
def UnsupportedContractType.message (u : UnsupportedContractType) : String :=
  "unsupported contract type \x60" ++ u.typeName ++ "\x60 (kind \x60" ++ u.typeKind ++ "\x60)"

/-- `GeneratorError`. -/
inductive GeneratorError
  | functionNotFound (function : String)
  | unsupported (type : UnsupportedContractType)
  deriving DecidableEq

/-- The text of the error. -/
def GeneratorError.message : GeneratorError → String
  | .functionNotFound function =>
    "function \x60" ++ function ++ "\x60 not found in ContractSpec"
  | .unsupported type => type.message

/-- `GeneratedCall`. -/
structure GeneratedCall where
  function : String
  args : List ScVal
  generationId : String
  deriving DecidableEq

/-! ### Pseudo-random numbers -/

/-- `SplitMix64`. -/
structure SplitMix64 where
  state : UInt64

section

variable (sha256 : List UInt8 → Bytes32)

/-- `SplitMix64::keyed`. -/
def SplitMix64.keyed (bytes : List UInt8) : SplitMix64 where
  state := UInt64.ofNat (ofLittleEndian ((bytesOf (sha256 bytes)).take 8))

namespace SplitMix64

/-- `next_u64`. -/
def nextU64 (rng : SplitMix64) : UInt64 × SplitMix64 :=
  let state := rng.state + 0x9E3779B97F4A7C15
  let z := (state ^^^ (state >>> 30)) * 0xBF58476D1CE4E5B9
  let z := (z ^^^ (z >>> 27)) * 0x94D049BB133111EB
  (z ^^^ (z >>> 31), ⟨state⟩)

/-- `below`. -/
def below (rng : SplitMix64) (bound : UInt64) : UInt64 × SplitMix64 :=
  let (n, rng) := rng.nextU64
  (n % max bound 1, rng)

/-- The bytes of the next `n` numbers. -/
def words : (n : ℕ) → SplitMix64 → List UInt8 × SplitMix64
  | 0, rng => ([], rng)
  | n + 1, rng =>
    let (word, rng) := rng.nextU64
    let (rest, rng) := words n rng
    (littleEndian 8 word.toNat ++ rest, rng)

/-- `bytes`: the first `len` bytes of as many numbers as needed. -/
def bytes (rng : SplitMix64) (len : ℕ) : List UInt8 × SplitMix64 :=
  let (out, rng) := words ((len + 7) / 8) rng
  (out.take len, rng)

end SplitMix64

/-- `derive_key`: the labels are separated by a byte that no text contains. -/
def deriveKey (seed : Bytes32) (labels : List String) : List UInt8 :=
  bytesOf (sha256 (bytesOf seed ++ labels.flatMap fun label => utf8 label ++ [0xff]))

/-- `derive_key_child`. -/
def deriveKeyChild (parentKey : List UInt8) (label : String) : List UInt8 :=
  bytesOf (sha256 (parentKey ++ utf8 label))

/-! ### Values -/

/-- The primitive types in the supported set. -/
def supportedPrimitives : List String :=
  ["bool", "u32", "i32", "u64", "i64", "u128", "i128", "string", "bytes", "address",
    "muxed_address"]

mutual

/-- `type_supported`. -/
def typeSupported : ContractType → Bool
  | ⟨name, kind, _, _, typeArgs, _⟩ =>
    if kind = "primitive" then decide (name ∈ supportedPrimitives)
    else if kind = "compound" then
      if startsWith "vec<" name || startsWith "option<" name then firstSupported typeArgs
      else if startsWith "map<" name then typeArgs.length == 2 && allSupported typeArgs
      else false
    else false

/-- The first of the types is supported. -/
def firstSupported : List ContractType → Bool
  | [] => false
  | t :: _ => typeSupported t

/-- All of the types are supported. -/
def allSupported : List ContractType → Bool
  | [] => true
  | t :: ts => typeSupported t && allSupported ts

end

/-- Thirty-two bytes. -/
def toBytes32 (bytes : List UInt8) : Bytes32 := Vector.ofFn fun i => bytes.getD i 0

/-- `generate_primitive`. -/
def generatePrimitive (name : String) (rng : SplitMix64) (caps : GenerationCaps) : Option ScVal :=
  let (n, next) := rng.nextU64
  match name with
  | "bool" => some (.bool ((rng.below 2).1 == 1))
  | "u32" => some (.u32 n.toUInt32)
  | "i32" => some (.i32 n.toUInt32.toInt32)
  | "u64" => some (.u64 n)
  | "i64" => some (.i64 n.toInt64)
  | "u128" => some (.u128 n next.nextU64.1)
  | "i128" => some (.i128 n.toInt64 next.nextU64.1)
  | "string" =>
    let (len, rng) := rng.below (caps.maxByteLen + 1)
    let text := (rng.bytes len.toNat).1.map fun b => 0x20 + b % 0x5f
    if text.length ≤ u32Max then some (.string text) else none
  | "bytes" =>
    let (len, rng) := rng.below (caps.maxByteLen + 1)
    let payload := (rng.bytes len.toNat).1
    if payload.length ≤ u32Max then some (.bytes payload) else none
  | "address" => some (.address (.account ⟨.ed25519 (toBytes32 (rng.bytes 32).1)⟩))
  | "muxed_address" =>
    let (pk, rng) := rng.bytes 32
    some (.address (.muxedAccount rng.nextU64.1 (toBytes32 pk)))
  | _ => none

/-- The entries in the order of their keys. -/
def sortByKey (entries : List ScMapEntry) : List ScMapEntry :=
  entries.mergeSort fun a b => (ScVal.cmp a.1 b.1).isLE

/-- The entries after `last`, and `last` itself, without those that repeat the key before them. -/
def dedupAfter (last : ScMapEntry) : List ScMapEntry → List ScMapEntry
  | [] => [last]
  | e :: entries =>
    if e.1 = last.1 then dedupAfter last entries else last :: dedupAfter e entries

/-- `dedup_by` on keys: the first entry of each run with one key. -/
def dedupByKey : List ScMapEntry → List ScMapEntry
  | [] => []
  | e :: entries => dedupAfter e entries

/-- A value whose length the XDR type admits. -/
def withinLimit {ε α : Type} (refusal : ε) (length : ℕ) (v : α) : Except ε α :=
  if length ≤ u32Max then .ok v else .error refusal

/-- What `generate_value` bottoms out at below the depth cap. -/
def cappedValue (t : ContractType) : Except UnsupportedContractType ScVal :=
  if t.kind = "primitive" ∧ t.name = "bool" then .ok (.bool false)
  else if t.kind = "compound" ∧ startsWith "option<" t.name then .ok .void
  else if t.kind = "compound" ∧ startsWith "vec<" t.name then .ok (.vec none)
  else if t.kind = "compound" ∧ startsWith "map<" t.name then .ok (.map none)
  else .error (.of t)

/-- The length of a generated compound value of at most `cap` parts. -/
def generateLength (rng : SplitMix64) (cap : UInt64) : ℕ :=
  if cap = 0 then 0 else (rng.below (cap + 1)).1.toNat

/-- `generate_value` at `levels` levels above the depth cap. -/
def generateValueAbove (caps : GenerationCaps) : (levels : ℕ) → (t : ContractType) →
    (key : List UInt8) → (depth : ℕ) → Except UnsupportedContractType ScVal
  | 0, t, _, _ => cappedValue t
  | levels + 1, t, key, depth =>
    let rng := SplitMix64.keyed sha256 (key ++ littleEndian 4 depth)
    let child (elem : ContractType) (label : String) :=
      generateValueAbove caps levels elem (deriveKeyChild sha256 key label) (depth + 1)
    if t.kind = "primitive" then
      match generatePrimitive t.name rng caps with
      | some v => .ok v
      | none => .error (.of t)
    else if t.kind = "compound" then
      if startsWith "vec<" t.name then
        match t.typeArgs with
        | [] => .error (.of t)
        | elem :: _ => do
          let items ← (List.range (generateLength rng caps.maxVecLen)).mapM fun i =>
            child elem ("v" ++ toString i)
          withinLimit (.of t) items.length (.vec (some items))
      else if startsWith "option<" t.name then
        match t.typeArgs with
        | [] => .error (.of t)
        | elem :: _ => if (rng.below 2).1 = 0 then .ok .void else child elem "opt"
      else if startsWith "map<" t.name then
        match t.typeArgs with
        | kt :: vt :: _ => do
          let entries ← (List.range (generateLength rng caps.maxMapEntries)).mapM fun i => do
            let k ← child kt ("mk" ++ toString i)
            let v ← child vt ("mv" ++ toString i)
            pure (k, v)
          let entries := dedupByKey (sortByKey entries)
          withinLimit (.of t) entries.length (.map (some entries))
        | _ => .error (.of t)
      else .error (.of t)
    else .error (.of t)

/-- `generate_value`: the outermost type is at depth 0. -/
def generateValue (caps : GenerationCaps) (t : ContractType) (key : List UInt8) (depth : ℕ) :
    Except UnsupportedContractType ScVal :=
  generateValueAbove sha256 caps (caps.maxDepth.toNat + 1 - depth) t key depth

/-! ### Calls -/

/-- `generate_call`. -/
def generateCall (spec : ContractSpec) (function : String) (seed : Bytes32) (caseId : String)
    (caps : GenerationCaps) : Except GeneratorError GeneratedCall :=
  match spec.functions.find? fun f => f.name == function with
  | none => .error (.functionNotFound function)
  | some f => do
    let generationId := Hex.encode (deriveKey sha256 seed [caseId, function])
    let rootKey := deriveKey sha256 seed [caseId, function, "args"]
    let args ← f.parameters.zipIdx.mapM fun (p, i) =>
      if typeSupported p.type then
        (generateValue sha256 caps p.type
          (deriveKeyChild sha256 rootKey ("arg" ++ toString i)) 0).mapError .unsupported
      else .error (.unsupported (.of p.type))
    pure { function, args, generationId }

end

/-- The first parameter whose type is not supported. -/
def unsupportedParameter (f : ContractFunction) : Option ContractType :=
  (f.parameters.map (·.type)).find? fun t => !typeSupported t

/-- `selectable_functions`: the functions with supported parameters, and the others with a
reason. -/
def selectableFunctions (spec : ContractSpec) : List String × List (String × String) :=
  (spec.functions.filterMap fun f =>
      match unsupportedParameter f with
      | none => some f.name
      | some _ => none,
    spec.functions.filterMap fun f =>
      match unsupportedParameter f with
      | none => none
      | some t => some (f.name, "unsupported parameter \x60" ++ t.name ++ "\x60 (kind \x60" ++
          t.kind ++ "\x60)"))

end SorobanDevkit.Fuzz
